import AnvilRun.AgentRedactor
import AnvilRun.Interruption
import AnvilRun.LogStream
import AnvilRun.Utf8

namespace AnvilRun

open AnvilRun.AgentRedactor (Text)

def u64Max : Nat := 0xFFFFFFFFFFFFFFFF

theorem one_le_u64Max : 1 ≤ u64Max := by
  decide

inductive LogBufferError where
  | invalidPath
  | io
  | invalidRecord
  | invalidAcknowledgement
  deriving DecidableEq

structure BufferedLogEntry where
  sequence : Nat
  stream : LogStream
  chunk : Text
  emittedAt : Text
  sequence_le : sequence ≤ u64Max
  deriving DecidableEq

/-- A buffer in memory. The lengths are those of files, which the file system keeps below
`2 ^ 64`. -/
structure LogBuffer where
  maxBytes : Nat
  fileBytes : Nat
  lastAppendedSequence : Nat
  lastCompactedSequence : Nat
  acknowledgedSequence : Nat
  bytesSinceCompaction : Nat
  full : Bool
  deriving DecidableEq

namespace LogBuffer

def compactionSequenceThreshold : Nat := 256

/-- `u64::saturating_add`. -/
def saturatingAdd (a b : Nat) : Nat :=
  min (a + b) u64Max

/-- What `serde_json` makes of an entry and back: `to_vec` writes the text in UTF-8, on one line
and with a brace at the end, and the deserializer reads the entry back from it. -/
structure EntryFormat where
  toText : BufferedLogEntry → Text
  fromStr : Text → Option BufferedLogEntry
  fromStr_toText : ∀ e, fromStr (toText e) = some e
  newline_not_mem : ∀ e, '\n' ∉ toText e
  getLast?_toText : ∀ e, (toText e).getLast? = some '}'

/-- `str::from_utf8`. -/
def fromUtf8 (bytes : List UInt8) : Option Text :=
  if Utf8.encode (Utf8.decodeLossy bytes) = bytes then some (Utf8.decodeLossy bytes) else none

/-- The directory of the buffers, as far as one buffer sees it: its own file, and the temporary
file of a compaction. -/
structure Disk where
  file : Option (List UInt8)
  temporary : Option (List UInt8)
  deriving DecidableEq

/-- The contents of the file. A missing file has the length zero. -/
def Disk.contents (disk : Disk) : List UInt8 :=
  disk.file.getD []

/-- What the calls of a buffer work on. -/
structure Host where
  buffer : LogBuffer
  disk : Disk
  deriving DecidableEq

def Host.contents (host : Host) : List UInt8 :=
  host.disk.contents

def Host.setFile (file : Option (List UInt8)) (host : Host) : Host :=
  { host with disk := { host.disk with file } }

def Host.setTemporary (temporary : Option (List UInt8)) (host : Host) : Host :=
  { host with disk := { host.disk with temporary } }

/-- A write at the end of the file. -/
def Host.extend (bytes : List UInt8) (host : Host) : Host :=
  host.setFile (some (host.contents ++ bytes))

/-- A write at the end of the temporary file. -/
def Host.extendTemporary (bytes : List UInt8) (host : Host) : Host :=
  host.setTemporary (some (host.disk.temporary.getD [] ++ bytes))

/-- The temporary file takes the place of the file. -/
def Host.persistTemporary (host : Host) : Host :=
  { host with disk := ⟨host.disk.temporary, none⟩ }

abbrev Action (α : Type) : Type := Interruptible LogBufferError Host α

open Interruptible

/-- The parts that `read_until(b'\n')` returns one after the other, of which `line` has been read
already. -/
def splitFrom : List UInt8 → List UInt8 → List (List UInt8)
  | line, [] => if line.isEmpty then [] else [line]
  | line, b :: bytes =>
      if b = 0x0A then (line ++ [b]) :: splitFrom [] bytes else splitFrom (line ++ [b]) bytes

def readLines (bytes : List UInt8) : List (List UInt8) :=
  splitFrom [] bytes

/-- The line without its line end. -/
def stripLineEnd (line : List UInt8) : List UInt8 :=
  let line := line.dropLast
  if line.getLast? = some 0x0D then line.dropLast else line

/-- Whether a record may stand behind one with the sequence `last`, which is zero at the start of
a file. -/
def follows (last : Nat) (entry : BufferedLogEntry) : Prop :=
  entry.sequence ≠ 0 ∧ (0 < last → entry.sequence = saturatingAdd last 1)

instance (last : Nat) (entry : BufferedLogEntry) : Decidable (follows last entry) :=
  inferInstanceAs (Decidable (_ ∧ _))

variable (format : EntryFormat)

/-- `serde_json::to_vec`. -/
def toVec (entry : BufferedLogEntry) : List UInt8 :=
  Utf8.encode (format.toText entry)

/-- `serde_json::from_slice`. -/
def fromSlice (bytes : List UInt8) : Option BufferedLogEntry := do
  format.fromStr (← fromUtf8 bytes)

/-- The loop of `recover_file`: how many bytes of valid records there are, and the sequence of the
last one. -/
def recoverLines : List (List UInt8) → Nat → Nat → Nat × Nat
  | [], validBytes, lastSequence => (validBytes, lastSequence)
  | line :: lines, validBytes, lastSequence =>
      if line.getLast? ≠ some 0x0A then (validBytes, lastSequence)
      else
        match fromSlice format (stripLineEnd line) with
        | none => (validBytes, lastSequence)
        | some entry =>
            if follows lastSequence entry then
              recoverLines lines (validBytes + line.length) entry.sequence
            else (validBytes, lastSequence)

def fileLen : Action Nat := do
  inspect .io
  let host ← get
  pure host.contents.length

/-- `set_len` and the call that makes it durable. -/
def truncate (length : Nat) : Action Unit := do
  inspect .io
  atomically (fun host => host.setFile (some (host.contents.take length))) .io
  inspect .io

def recoverFile : Action (Nat × Nat) := do
  let fileBytes ← fileLen
  if fileBytes = 0 then pure (0, 0)
  else do
    inspect .io
    let host ← get
    let recovered := recoverLines format (readLines host.contents) 0 0
    if recovered.1 < fileBytes then do
      truncate recovered.1
      pure recovered
    else pure recovered

/-- What the constructor finds out about its path before it looks at the file. -/
structure PathChecks where
  taskIdParses : Bool
  filesystemRoot : Bool
  reparsePoint : Bool

/-- The constructor. The buffer that is in memory before does not matter. -/
def new (path : PathChecks) (maxBytes : Nat) : Action Unit := do
  if path.taskIdParses = false then fail .invalidPath
  else if maxBytes = 0 ∨ path.filesystemRoot then fail .invalidPath
  else do
    inspect .io
    if path.reparsePoint then fail .invalidPath
    else do
      inspect .io
      let recovered ← recoverFile format
      modify fun host =>
        { host with
          buffer :=
            { maxBytes
              fileBytes := recovered.1
              lastAppendedSequence := recovered.2
              lastCompactedSequence := 0
              acknowledgedSequence := 0
              bytesSinceCompaction := recovered.1
              full := false } }

/-- The part of `append` that looks again at a file whose length is not the recorded one. -/
def reconcile (entry : BufferedLogEntry) : Action Unit := do
  let recovered ← recoverFile format
  modify fun host =>
    { host with
      buffer :=
        { host.buffer with
          fileBytes := recovered.1
          lastAppendedSequence := recovered.2
          bytesSinceCompaction := max host.buffer.bytesSinceCompaction recovered.1 } }
  if follows recovered.2 entry then pure () else fail .invalidRecord

/-- The part of `append` that writes the record, if there is room for it. -/
def writeRecord (entry : BufferedLogEntry) : Action Bool := do
  let host ← get
  let bytes := (toVec format entry).length + 1
  if host.buffer.maxBytes < host.buffer.fileBytes + bytes then do
    modify fun host =>
      { host with
        buffer := { host.buffer with full := true } }
    pure false
  else do
    atomically (fun host => host.extend []) .io
    write Host.extend (toVec format entry) .io
    write Host.extend [0x0A] .io
    inspect .io
    modify fun host =>
      { host with
        buffer :=
          { host.buffer with
            fileBytes := host.buffer.fileBytes + bytes
            bytesSinceCompaction := host.buffer.bytesSinceCompaction + bytes
            lastAppendedSequence := entry.sequence } }
    pure true

def append (entry : BufferedLogEntry) : Action Bool := do
  let host ← get
  if host.buffer.full then pure false
  else if follows host.buffer.lastAppendedSequence entry then do
    inspect .io
    let current ← fileLen
    if current ≠ host.buffer.fileBytes then do
      reconcile format entry
      writeRecord format entry
    else writeRecord format entry
  else fail .invalidRecord

/-- What `append_log_and_advance` works on: a buffer, and the sequence that the next entry is to
have. -/
structure Appender where
  host : Host
  nextSequence : Nat
  nextSequence_le : nextSequence ≤ u64Max
  deriving DecidableEq

def Appender.setHost (host : Host) (appender : Appender) : Appender :=
  { appender with host }

def Appender.advance (appender : Appender) : Appender where
  host := appender.host
  nextSequence := saturatingAdd appender.nextSequence 1
  nextSequence_le := Nat.min_le_right _ _

def appendLogAndAdvance (entry : BufferedLogEntry) : Interruptible LogBufferError Appender Bool := do
  let appender ← get
  if entry.sequence ≠ appender.nextSequence then fail .invalidRecord
  else do
    let appended ← zoom Appender.host Appender.setHost id (append format entry)
    Effect.onlyIf (appended = true) (modify Appender.advance)
    pure appended

/-- The loop of `compact`: the records behind the acknowledged one, as the temporary file gets
them. -/
def retainLines (acknowledged : Nat) : List (List UInt8) → Option (List UInt8)
  | [] => some []
  | line :: lines =>
      if line.getLast? ≠ some 0x0A then none
      else do
        let entry ← fromSlice format (stripLineEnd line)
        let retained ← retainLines acknowledged lines
        if acknowledged < entry.sequence then some (toVec format entry ++ 0x0A :: retained)
        else some retained

/-- The file gets the retained records, or it goes when there are none. -/
def replaceFile (retained : List UInt8) : Action Unit :=
  if retained ≠ [] then do
    inspect .io
    atomically Host.persistTemporary .io
    modify fun host =>
      { host with
        buffer := { host.buffer with fileBytes := retained.length } }
  else do
    atomically (fun host => host.setTemporary none) .io
    atomically (fun host => host.setFile none) .io
    modify fun host =>
      { host with
        buffer := { host.buffer with fileBytes := 0 } }

/-- The compaction. It is called only when the file is not empty. -/
def compact : Action Unit := do
  inspect .io
  let host ← get
  atomically (fun host => host.setTemporary (some [])) .io
  match retainLines format host.buffer.acknowledgedSequence (readLines host.contents) with
  | none => fail .invalidRecord
  | some retained => do
      write Host.extendTemporary retained .io
      inspect .io
      replaceFile retained
      modify fun host =>
        { host with
          buffer :=
            { host.buffer with
              bytesSinceCompaction := 0
              lastCompactedSequence := host.buffer.acknowledgedSequence } }

def setAcknowledged (sequence : Nat) : Action Unit :=
  modify fun host =>
    { host with
      buffer := { host.buffer with acknowledgedSequence := sequence } }

/-- Whether an acknowledgement is worth a compaction. -/
def sequenceThresholdReached (buffer : LogBuffer) (sequence : Nat) : Prop :=
  buffer.lastAppendedSequence - min sequence buffer.lastAppendedSequence = 0 ∨
    max buffer.maxBytes 1 / 2 ≤ buffer.bytesSinceCompaction ∨
    compactionSequenceThreshold ≤ sequence - buffer.lastCompactedSequence

instance (buffer : LogBuffer) (sequence : Nat) :
    Decidable (sequenceThresholdReached buffer sequence) :=
  inferInstanceAs (Decidable (_ ∨ _ ∨ _))

/-- The sequence is recorded, and taken back if the compaction fails. -/
def advanceAcknowledged (sequence : Nat) : Action Unit := do
  let host ← get
  if sequenceThresholdReached host.buffer sequence then do
    setAcknowledged sequence
    recover (compact format) fun error => do
      setAcknowledged host.buffer.acknowledgedSequence
      fail error
  else setAcknowledged sequence

/-- The part of `acknowledge` behind the checks of the file. -/
def acceptAcknowledgement (sequence : Nat) : Action Unit := do
  advanceAcknowledged format sequence
  modify fun host =>
    { host with
      buffer := { host.buffer with full := false } }

/-- The part of `acknowledge` that looks again at a file whose length is not the recorded one. -/
def refresh : Action Unit := do
  let recovered ← recoverFile format
  modify fun host =>
    { host with
      buffer :=
        { host.buffer with
          fileBytes := recovered.1
          lastAppendedSequence := recovered.2 } }

def acknowledge (sequence : Nat) : Action Unit := do
  let host ← get
  if host.buffer.lastAppendedSequence < sequence then fail .invalidAcknowledgement
  else if sequence ≤ host.buffer.acknowledgedSequence then pure ()
  else do
    let current ← fileLen
    if current = 0 then
      modify fun host =>
        { host with
          buffer :=
            { host.buffer with
              fileBytes := 0
              acknowledgedSequence := sequence
              full := false } }
    else if current ≠ host.buffer.fileBytes then do
      refresh format
      acceptAcknowledgement format sequence
    else acceptAcknowledgement format sequence

/-- `char::is_whitespace`. -/
def isWhitespace (c : Char) : Bool :=
  (decide (0x09 ≤ c.toNat) && decide (c.toNat ≤ 0x0D)) || c.toNat == 0x20 || c.toNat == 0x85 ||
    c.toNat == 0xA0 || c.toNat == 0x1680 ||
    (decide (0x2000 ≤ c.toNat) && decide (c.toNat ≤ 0x200A)) || c.toNat == 0x2028 ||
    c.toNat == 0x2029 || c.toNat == 0x202F || c.toNat == 0x205F || c.toNat == 0x3000

/-- `str::trim_end`. -/
def trimEnd (s : Text) : Text :=
  (s.reverse.dropWhile isWhitespace).reverse

/-- What the calls of `BufferedLogReader::next` return until there are no more lines. -/
def readEntries : List (List UInt8) → Except LogBufferError (List BufferedLogEntry)
  | [] => .ok []
  | line :: lines =>
      match fromUtf8 line with
      | none => .error .io
      | some text =>
          match format.fromStr (trimEnd text) with
          | none => .error .invalidRecord
          | some entry => (entry :: ·) <$> readEntries lines

/-- The entries that a reader of `pending_reader` goes through. -/
def pendingEntries (disk : Disk) : Except LogBufferError (List BufferedLogEntry) :=
  readEntries format (readLines disk.contents)

end LogBuffer

end AnvilRun
