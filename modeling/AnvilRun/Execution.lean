import AnvilRun.LogStream
import AnvilRun.Utf8.Reads

namespace AnvilRun.Execution

abbrev Text := List Char

variable {bytes : List UInt8}

structure ExecutionResult where
  exitCode : Option Int
  timedOut : Bool
  outputFailed : Bool
  deriving DecidableEq

inductive ExecutionEvent where
  | output (stream : LogStream) (chunk : Text)
  | finished (result : ExecutionResult)

def outputChunkBytes : Nat := 4 * 1024

/-- What one call of `read` puts into the buffer; nothing at the end of the stream. -/
abbrev Filled : Type :=
  { read : List UInt8 // read.length ≤ outputChunkBytes }

/-- One turn of the loop of `read_stream`: what `read` answers, and whether the channel still takes
what is sent. -/
structure Turn where
  read : Except Unit Filled
  received : Bool

/-- `read_stream`, with the events it sends. There is no result while it waits for a further turn,
and none when it is aborted there. -/
def readStream (stream : LogStream) : List Turn → List ExecutionEvent × Option (Except Unit Unit)
  | [] => ([], none)
  | turn :: turns =>
      match turn.read with
      | .error () => ([], some (.error ()))
      | .ok read =>
          if read.val.length = 0 then ([], some (.ok ()))
          else if turn.received then
            (.output stream (Utf8.decodeLossy read.val) :: (readStream stream turns).1,
              (readStream stream turns).2)
          else ([], some (.error ()))

/-- The output of a stream, as its chunks have it. -/
def outputText (stream : LogStream) (events : List ExecutionEvent) : Text :=
  events.flatMap fun event =>
    match event with
    | .output s chunk => if s = stream then chunk else []
    | .finished _ => []

/-- A division of the bytes of a stream into reads. -/
structure Division (bytes : List UInt8) where
  reads : List Filled
  flatten_eq : (reads.map Subtype.val).flatten = bytes
  ne_nil : ∀ read ∈ reads, read.val ≠ []

/-- The turns that deliver the reads and then the end of the stream. -/
def Division.turns (division : Division bytes) : List Turn :=
  division.reads.map (fun read => ⟨.ok read, true⟩) ++ [⟨.ok ⟨[], Nat.zero_le _⟩, true⟩]

theorem readStream_reads (stream : LogStream) (reads : List Filled)
    (h : ∀ read ∈ reads, read.val ≠ []) (turns : List Turn) :
    readStream stream (reads.map (fun read => ⟨.ok read, true⟩) ++ turns) =
      (reads.map (fun read => .output stream (Utf8.decodeLossy read.val)) ++
        (readStream stream turns).1, (readStream stream turns).2) := by
  induction reads with
  | nil => rfl
  | cons read reads ih =>
      rw [List.forall_mem_cons] at h
      rw [List.map_cons, List.cons_append, readStream, ih h.2]
      have hlength : read.val.length ≠ 0 := fun hzero => h.1 (List.length_eq_zero_iff.mp hzero)
      simp [hlength]

theorem readStream_turns (stream : LogStream) (division : Division bytes) :
    readStream stream division.turns =
      (division.reads.map (fun read => .output stream (Utf8.decodeLossy read.val)),
        some (.ok ())) := by
  rw [Division.turns, readStream_reads stream division.reads division.ne_nil]
  exact Prod.ext (List.append_nil _) rfl

theorem outputText_turns (stream : LogStream) (division : Division bytes) :
    outputText stream (readStream stream division.turns).1 =
      (division.reads.map Subtype.val).flatMap Utf8.decodeLossy := by
  rw [readStream_turns, outputText, List.flatMap_map, List.flatMap_map]
  simp

/-- The chunks of a stream join to its decoding exactly when no read ends within a character that
the next one goes on with. -/
theorem outputText_eq_iff (stream : LogStream) (bytes : List UInt8) (division : Division bytes) :
    ((readStream stream division.turns).2 = some (.ok ()) ∧
        outputText stream (readStream stream division.turns).1 = Utf8.decodeLossy bytes ∧
        ∀ text, bytes = Utf8.encode text →
          outputText stream (readStream stream division.turns).1 = text) ↔
      (division.reads.map Subtype.val).IsChain (fun x y => ¬ Utf8.Splits x y) := by
  have hreads : ∀ x ∈ division.reads.map Subtype.val, x ≠ [] :=
    List.forall_mem_map.mpr division.ne_nil
  rw [← Utf8.flatMap_decodeLossy_iff hreads, division.flatten_eq, outputText_turns]
  constructor
  · exact fun h => h.2.1
  · intro heq
    refine ⟨by rw [readStream_turns], heq, ?_⟩
    rintro text rfl
    rw [heq, Utf8.decodeLossy_encode]

/-- A character of two bytes, each read on its own. -/
theorem outputText_ne_of_split :
    ¬ ∀ (stream : LogStream) (bytes : List UInt8) (division : Division bytes),
      outputText stream (readStream stream division.turns).1 = Utf8.decodeLossy bytes := by
  intro h
  have hsplit := h .stdout [0xC3, 0xA9]
    { reads := [⟨[0xC3], by decide⟩, ⟨[0xA9], by decide⟩]
      flatten_eq := rfl
      ne_nil := by simp }
  revert hsplit
  decide +kernel

end AnvilRun.Execution
