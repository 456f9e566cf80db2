import AnvilRun.JsonRoundTrip
import AnvilRun.Lines
import AnvilRun.LogStream
import AnvilRun.Utf8

namespace AnvilRun.TaskLogStorage

open AnvilRun.Lines
open AnvilRun.Json

def maxTaskLogChunkBytes : Nat := 64 * 1024
def maxTaskLogReadBytes : Nat := 1024 * 1024
def maxTaskLogFileBytes : Nat := 1024 * 1024 * 1024

structure TaskLogEntry where
  sequence : Nat
  stream : LogStream
  chunk : JsString
  emittedAt : JsString
  deriving DecidableEq

structure TaskLogFileState where
  size : Nat
  lastSequence : Nat
  deriving DecidableEq

/-- The kinds of `TaskLogStorageError`; `system` stands for an error of the file system that is
passed on as it is. -/
inductive StorageError where
  | invalidOffset
  | invalidSequence
  | io
  | system
  deriving DecidableEq

/-- The log of one task: its file, if there is one, and the cached state. -/
structure TaskLog where
  file : Option (List UInt8)
  state : Option TaskLogFileState
  deriving DecidableEq

def TaskLog.empty : TaskLog := ⟨none, none⟩

/-- What a restart of the server leaves. -/
def TaskLog.restart (log : TaskLog) : TaskLog :=
  { log with state := none }

def TaskLog.bytes (log : TaskLog) : List UInt8 :=
  log.file.getD []

def streamName : LogStream → JsString
  | .stdout => JsString.ofString "stdout"
  | .stderr => JsString.ofString "stderr"

/-- `JSON.stringify(entry)`. -/
def entryText (e : TaskLogEntry) : List Char :=
  '{' :: (quote (JsString.ofString "sequence") ++ ':' :: (natText e.sequence ++ ',' ::
    (quote (JsString.ofString "stream") ++ ':' :: (quote (streamName e.stream) ++ ',' ::
      (quote (JsString.ofString "chunk") ++ ':' :: (quote e.chunk ++ ',' ::
        (quote (JsString.ofString "emittedAt") ++ ':' :: (quote e.emittedAt ++ '}' :: []))))))))

def encodeEntry (e : TaskLogEntry) : List UInt8 :=
  Utf8.encode (entryText e ++ ['\n'])

def asSequence : Option Json → Option Nat
  | some (.number (.finite q)) =>
      if (JsNumber.finite q).isSafeInteger && decide (0 < q) then some q.num.toNat else none
  | _ => none

def asStream : Option Json → Option LogStream
  | some (.string s) =>
      if s = streamName .stdout then some .stdout
      else if s = streamName .stderr then some .stderr
      else none
  | _ => none

def asText : Option Json → Option JsString
  | some (.string s) => some s
  | _ => none

/-- The entry a value accepted by `isEntry` stands for. -/
def asEntry (value : Json) : Option TaskLogEntry := do
  let sequence ← asSequence (value.member? (JsString.ofString "sequence"))
  let stream ← asStream (value.member? (JsString.ofString "stream"))
  let chunk ← asText (value.member? (JsString.ofString "chunk"))
  let emittedAt ← asText (value.member? (JsString.ofString "emittedAt"))
  some ⟨sequence, stream, chunk, emittedAt⟩

def parseEntry (line : List Char) : Option TaskLogEntry := do
  asEntry (← Json.parse line)

def lineBytes (line : List Char) : Nat :=
  (Utf8.encode line).length + 1

/-- The loop of `recoverUnlocked` over the lines of the file. -/
def recoverLines (size : Nat) : List (List Char) → TaskLogFileState → TaskLogFileState
  | [], state => state
  | line :: lines, state =>
      if size < state.size + lineBytes line ∨ line = [] then state
      else
        match parseEntry line with
        | none => state
        | some e =>
            if e.sequence ≠ state.lastSequence + 1 then state
            else recoverLines size lines ⟨state.size + lineBytes line, e.sequence⟩

def recoverUnlocked (log : TaskLog) : Except StorageError (TaskLogFileState × TaskLog) :=
  match log.file with
  | none => .ok (⟨0, 0⟩, { log with state := some ⟨0, 0⟩ })
  | some bytes =>
      if JsNumber.maxSafeInteger < bytes.length then .error .io
      else
        let state := recoverLines bytes.length (splitLines (Utf8.decodeLossy bytes)) ⟨0, 0⟩
        .ok (state, ⟨some (bytes.take state.size), some state⟩)

/-- `states.get(taskId) ?? (await recoverUnlocked(taskId))`. -/
def currentState (log : TaskLog) : Except StorageError (TaskLogFileState × TaskLog) :=
  match log.state with
  | some state => .ok (state, log)
  | none => recoverUnlocked log

/-- The cached state when it is the expected one and the file has its size. -/
def getState (log : TaskLog) (expected : Option TaskLogFileState) :
    Except StorageError (TaskLogFileState × TaskLog) :=
  match log.state with
  | some cached =>
      if (expected = none ∨ expected = some cached) ∧
          (log.file.map List.length = some cached.size ∨ log.file = none ∧ cached.size = 0)
      then .ok (cached, log)
      else recoverUnlocked log
  | none => recoverUnlocked log

/-- What the file system does with one write of an entry. -/
inductive WriteOutcome where
  | completed
  | openFailed
  | writeFailed (written : Nat)
  | syncFailed
  deriving DecidableEq

/-- The rounds of `append`. An error leaves what was written so far in the file, and the cached
state as it is. -/
def appendAttempts (outcome : WriteOutcome) (entry : TaskLogEntry) :
    Nat → TaskLogFileState → TaskLog → Except StorageError Nat × TaskLog
  | 0, _, log => (.error .io, log)
  | attempts + 1, state, log =>
      let encoded := encodeEntry entry
      let actualSize := log.bytes.length
      if actualSize ≠ state.size then
        match recoverUnlocked log with
        | .error e => (.error e, log)
        | .ok (state, log) => appendAttempts outcome entry attempts state log
      else if entry.sequence ≠ state.lastSequence + 1 then (.error .invalidSequence, log)
      else if maxTaskLogFileBytes < actualSize ∨
          maxTaskLogFileBytes < actualSize + encoded.length then (.error .io, log)
      else
        match outcome with
        | .openFailed => (.error .system, log)
        | .writeFailed written =>
            (.error .system, { log with file := some (log.bytes ++ encoded.take written) })
        | .syncFailed => (.error .system, { log with file := some (log.bytes ++ encoded) })
        | .completed =>
            let nextState := ⟨actualSize + encoded.length, entry.sequence⟩
            (.ok nextState.size, ⟨some (log.bytes ++ encoded), some nextState⟩)

def append (outcome : WriteOutcome) (log : TaskLog) (entry : TaskLogEntry) :
    Except StorageError Nat × TaskLog :=
  match currentState log with
  | .error e => (.error e, log)
  | .ok (state, log) =>
      if maxTaskLogChunkBytes + 2048 < (encodeEntry entry).length then (.error .io, log)
      else appendAttempts outcome entry 2 state log

structure TaskLogReadResult where
  entries : List TaskLogEntry
  nextOffset : Nat
  size : Nat
  eof : Bool
  deriving DecidableEq

structure ReadState where
  entries : List TaskLogEntry
  nextOffset : Nat
  consumed : Nat

/-- The loop of `read` over the lines from the offset on. -/
def readLines (size boundedLimit : Nat) : List (List Char) → ReadState → ReadState
  | [], state => state
  | line :: lines, state =>
      let nextOffset := state.nextOffset + lineBytes line
      let consumed := state.consumed + lineBytes line
      if size < nextOffset then state
      else if state.entries ≠ [] ∧ boundedLimit < consumed then state
      else if line = [] then readLines size boundedLimit lines { state with nextOffset, consumed }
      else
        match parseEntry line with
        | none => state
        | some e =>
            let state := ⟨state.entries ++ [e], nextOffset, consumed⟩
            if boundedLimit ≤ consumed then state else readLines size boundedLimit lines state

def isRecordBoundary (bytes : List UInt8) (offset : Nat) : Bool :=
  bytes[offset - 1]? == some 0x0A

/-- The part of `read` behind the checks of the offset against a file of known size. -/
def readFrom (bytes : List UInt8) (size offset limit : Nat) :
    Except StorageError TaskLogReadResult :=
  if JsNumber.maxSafeInteger < size ∨ size < offset then .error .invalidOffset
  else if 0 < offset && !isRecordBoundary bytes offset then .error .invalidOffset
  else if offset = size then .ok ⟨[], offset, size, true⟩
  else
    let state := readLines size (min limit maxTaskLogReadBytes)
      (splitLines (Utf8.decodeLossy (bytes.drop offset))) ⟨[], offset, 0⟩
    .ok ⟨state.entries, state.nextOffset, size, decide (size ≤ state.nextOffset)⟩

def read (log : TaskLog) (offset limit : Nat) :
    Except StorageError (TaskLogReadResult × TaskLog) := do
  if JsNumber.maxSafeInteger < offset then .error .invalidOffset
  else if JsNumber.maxSafeInteger < limit ∨ limit = 0 then .error .invalidOffset
  else
    let (state, log) ← currentState log
    match log.file with
    | none => if offset ≠ 0 then .error .invalidOffset else .ok (⟨[], 0, 0, true⟩, log)
    | some bytes =>
        if bytes.length ≠ state.size then
          let (state, log) ← recoverUnlocked log
          .ok (← readFrom log.bytes state.size offset limit, log)
        else .ok (← readFrom bytes bytes.length offset limit, log)

end AnvilRun.TaskLogStorage
