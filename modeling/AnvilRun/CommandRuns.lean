import AnvilRun.Execution
import AnvilRun.TransitionSystem
import Mathlib.Logic.Function.Basic

namespace AnvilRun.CommandRuns

open AnvilRun.Execution

def outputChannelCapacity : Nat := 64

/-- A task that runs `read_stream`. It may hold a read whose chunk waits for room in the channel. -/
inductive ReaderStatus where
  | reading
  | holding (read : Filled)
  | done (result : Except Unit Unit)
  | aborted

def ReaderStatus.result : ReaderStatus → Option (Except Unit Unit)
  | .done result => some result
  | _ => none

/-- A reader with the turns of its loop that it has taken. -/
structure Reader where
  turns : List Execution.Turn
  status : ReaderStatus

inductive ChildOutcome where
  | finished (exitCode : Option Int)
  | canceled
  | timedOut
  deriving DecidableEq

/-- Where `run_child` is. `waiting` is the wait for the child alone, after the one who could cancel
it has gone. -/
inductive Phase where
  | selecting
  | waiting
  | draining (exitCode : Option Int)
  | terminating (outcome : ChildOutcome)
  | aborting (outcome : ChildOutcome)
  | finishing (result : ExecutionResult)
  | ended
  deriving DecidableEq

/-- `run_child` with its two readers, the one who receives the events, and the standard input of the
child. `late` says that the readers have not been through in the time that they have after the end
of the child. `pending` has the inputs without an answer, and `writing` says how much of the first
of them is written. `sent`, `delivered`, `written` and `answers` record what has happened. -/
structure State where
  readers : LogStream → Reader
  receiverOpen : Bool
  channel : List ExecutionEvent
  received : List ExecutionEvent
  sent : List ExecutionEvent
  phase : Phase
  outcome : Option ChildOutcome
  late : Bool
  inputOpen : Bool
  writing : Option Nat
  pending : List (List UInt8)
  delivered : List (List UInt8)
  written : List UInt8
  answers : List (List UInt8 × Bool)

def State.setReader (s : State) (stream : LogStream) (reader : Reader) : State :=
  { s with readers := Function.update s.readers stream reader }

def Reader.take (reader : Reader) (turn : Execution.Turn) (status : ReaderStatus) : Reader :=
  ⟨reader.turns ++ [turn], status⟩

def State.push (event : ExecutionEvent) (s : State) : State :=
  { s with channel := s.channel ++ [event], sent := s.sent ++ [event] }

/-- The channel takes an event. -/
def State.HasRoom (s : State) : Prop :=
  s.receiverOpen = true ∧ s.channel.length < outputChannelCapacity

/-- The input that is on its way is given up together with the `select!`. -/
def State.leave (s : State) (outcome : ChildOutcome) (phase : Phase) : State :=
  { s with outcome := some outcome, phase, writing := none }

/-- `reader_failed`, and `reader_io_failed` for a reader that was aborted. -/
def Reader.failed (reader : Reader) : Bool :=
  match reader.status.result with
  | some (.error ()) => true
  | _ => false

def Reader.isDone (reader : Reader) : Bool :=
  reader.status.result.isSome

def Reader.isSettled (reader : Reader) : Bool :=
  match reader.status with
  | .done _ | .aborted => true
  | .reading | .holding _ => false

def State.outputFailed (s : State) : Bool :=
  (s.readers .stdout).failed || (s.readers .stderr).failed

/-- The result of a run with an outcome. -/
def State.resultOf (s : State) : ChildOutcome → ExecutionResult
  | .finished exitCode => ⟨exitCode, false, s.outputFailed⟩
  | .canceled => ⟨none, false, false⟩
  | .timedOut => ⟨none, true, false⟩

/-- A turn of the loop of `read_stream`, where the sending of a chunk may have to wait. -/
inductive ReaderStep (stream : LogStream) : State → State → Prop
  | read {s : State} {read : Filled} (hreading : (s.readers stream).status = .reading)
      (hread : read.val ≠ []) :
      ReaderStep stream s (s.setReader stream ⟨(s.readers stream).turns, .holding read⟩)
  | readEnd {s : State} {read : Filled} (hreading : (s.readers stream).status = .reading)
      (hread : read.val = []) :
      ReaderStep stream s
        (s.setReader stream ((s.readers stream).take ⟨.ok read, true⟩ (.done (.ok ()))))
  | readError {s : State} (hreading : (s.readers stream).status = .reading) :
      ReaderStep stream s
        (s.setReader stream ((s.readers stream).take ⟨.error (), true⟩ (.done (.error ()))))
  | send {s : State} {read : Filled} (hholding : (s.readers stream).status = .holding read)
      (hroom : s.HasRoom) :
      ReaderStep stream s
        ((s.setReader stream ((s.readers stream).take ⟨.ok read, true⟩ .reading)).push
          (.output stream (Utf8.decodeLossy read.val)))
  | sendClosed {s : State} {read : Filled} (hholding : (s.readers stream).status = .holding read)
      (hclosed : s.receiverOpen = false) :
      ReaderStep stream s
        (s.setReader stream ((s.readers stream).take ⟨.ok read, false⟩ (.done (.error ()))))

/-- The one who receives the events takes one or goes away. -/
inductive ReceiverStep : State → State → Prop
  | receive {s : State} {event : ExecutionEvent} {channel : List ExecutionEvent}
      (hopen : s.receiverOpen = true) (hchannel : s.channel = event :: channel) :
      ReceiverStep s { s with channel, received := s.received ++ [event] }
  | close {s : State} : ReceiverStep s { s with receiverOpen := false, channel := [] }

/-- `run_child`, but for the standard input. -/
inductive ChildStep : State → State → Prop
  | exited {s : State} {exitCode : Option Int}
      (hphase : s.phase = .selecting ∨ s.phase = .waiting) :
      ChildStep s (s.leave (.finished exitCode) (.draining exitCode))
  | canceled {s : State} (hphase : s.phase = .selecting) :
      ChildStep s (s.leave .canceled (.terminating .canceled))
  | cancelDropped {s : State} (hphase : s.phase = .selecting) :
      ChildStep s { s with phase := .waiting, writing := none }
  | timedOut {s : State} (hphase : s.phase = .selecting) :
      ChildStep s (s.leave .timedOut (.terminating .timedOut))
  | drained {s : State} {exitCode : Option Int} (hphase : s.phase = .draining exitCode)
      (hdone : ∀ stream, (s.readers stream).isDone = true) :
      ChildStep s { s with phase := .finishing (s.resultOf (.finished exitCode)) }
  | graceElapsed {s : State} {exitCode : Option Int} (hphase : s.phase = .draining exitCode) :
      ChildStep s { s with late := true, phase := .aborting (.finished exitCode) }
  | terminated {s : State} {outcome : ChildOutcome} (hphase : s.phase = .terminating outcome) :
      ChildStep s { s with phase := .aborting outcome }
  | abort {s : State} {outcome : ChildOutcome} {stream : LogStream}
      (hphase : s.phase = .aborting outcome) (hrunning : (s.readers stream).isSettled = false) :
      ChildStep s (s.setReader stream ⟨(s.readers stream).turns, .aborted⟩)
  | aborted {s : State} {outcome : ChildOutcome} (hphase : s.phase = .aborting outcome)
      (hsettled : ∀ stream, (s.readers stream).isSettled = true) :
      ChildStep s { s with phase := .finishing (s.resultOf outcome) }
  | finish {s : State} {result : ExecutionResult} (hphase : s.phase = .finishing result)
      (hroom : s.HasRoom) :
      ChildStep s { s.push (.finished result) with phase := .ended }
  | finishClosed {s : State} {result : ExecutionResult} (hphase : s.phase = .finishing result)
      (hclosed : s.receiverOpen = false) :
      ChildStep s { s with phase := .ended }

/-- The inputs, and `write_next_input`. -/
inductive InputStep : State → State → Prop
  | deliver {s : State} {input : List UInt8} (hphase : s.phase ≠ .ended)
      (hopen : s.inputOpen = true) :
      InputStep s
        { s with pending := s.pending ++ [input], delivered := s.delivered ++ [input] }
  | begin {s : State} {input : List UInt8} {pending : List (List UInt8)}
      (hphase : s.phase = .selecting) (hopen : s.inputOpen = true) (hwriting : s.writing = none)
      (hpending : s.pending = input :: pending) :
      InputStep s { s with writing := some 0 }
  | write {s : State} {input : List UInt8} {pending : List (List UInt8)} {n k : Nat}
      (hphase : s.phase = .selecting) (hwriting : s.writing = some n)
      (hpending : s.pending = input :: pending) (hk : n + k ≤ input.length) :
      InputStep s
        { s with writing := some (n + k), written := s.written ++ (input.drop n).take k }
  | answered {s : State} {input : List UInt8} {pending : List (List UInt8)}
      (hphase : s.phase = .selecting) (hwriting : s.writing = some input.length)
      (hpending : s.pending = input :: pending) :
      InputStep s { s with writing := none, pending, answers := s.answers ++ [(input, true)] }
  | failed {s : State} {input : List UInt8} {pending : List (List UInt8)} {n : Nat}
      (hphase : s.phase = .selecting) (hwriting : s.writing = some n)
      (hpending : s.pending = input :: pending) :
      InputStep s
        { s with
          inputOpen := false
          writing := none
          pending
          answers := s.answers ++ [(input, false)] }
  | closed {s : State} (hphase : s.phase = .selecting) (hopen : s.inputOpen = true)
      (hpending : s.pending = []) :
      InputStep s { s with inputOpen := false }

inductive Step : State → State → Prop
  | reader {s t : State} (stream : LogStream) (h : ReaderStep stream s t) : Step s t
  | receiver {s t : State} (h : ReceiverStep s t) : Step s t
  | child {s t : State} (h : ChildStep s t) : Step s t
  | input {s t : State} (h : InputStep s t) : Step s t

/-- A command has started. Without an interactive input the standard input is not open. -/
structure Started (s : State) : Prop where
  readers : ∀ stream, s.readers stream = ⟨[], .reading⟩
  channel : s.receiverOpen = true ∧ s.channel = [] ∧ s.received = [] ∧ s.sent = []
  phase : s.phase = .selecting ∧ s.outcome = none ∧ s.late = false
  inputs : s.writing = none ∧ s.pending = [] ∧ s.delivered = [] ∧ s.written = [] ∧ s.answers = []

def commands : TransitionSystem State where
  init := Started
  step := Step

/-! What the readers send -/

variable {s t : State} {stream : LogStream} {turns : List Execution.Turn}

theorem readStream_append (turn : Execution.Turn) (h : (readStream stream turns).2 = none) :
    readStream stream (turns ++ [turn]) =
      ((readStream stream turns).1 ++ (readStream stream [turn]).1,
        (readStream stream [turn]).2) := by
  induction turns with
  | nil => rfl
  | cons first turns ih =>
      rw [List.cons_append]
      rw [readStream] at h ⊢
      rw [readStream]
      split at h
      · cases h
      · split at h
        · cases h
        · split at h
          · rename_i hread hlength hreceived
            rw [ih h]
            simp [hlength, hreceived]
          · cases h

def isOutputOf (stream : LogStream) : ExecutionEvent → Bool
  | .output other _ => decide (other = stream)
  | .finished _ => false

/-- What a reader has sent is what `read_stream` sends for its turns. -/
structure Faithful (stream : LogStream) (reader : Reader) (outputs : List ExecutionEvent) :
    Prop where
  outputs : outputs = (readStream stream reader.turns).1
  result : reader.status.result = (readStream stream reader.turns).2
  held : ∀ read, reader.status = .holding read → read.val ≠ []

variable {reader : Reader} {outputs : List ExecutionEvent} {status : ReaderStatus} {read : Filled}

/-- A turn of a reader that runs. -/
theorem Faithful.take (turn : Execution.Turn) (status : ReaderStatus)
    (h : Faithful stream reader outputs) (hrunning : reader.status.result = none)
    (hstatus : status.result = (readStream stream [turn]).2)
    (hfree : ∀ read, status ≠ .holding read) :
    Faithful stream (reader.take turn status) (outputs ++ (readStream stream [turn]).1) := by
  have hturns := readStream_append turn (h.result.symm.trans hrunning)
  refine ⟨?_, ?_, fun read hread => absurd hread (hfree read)⟩
  · rw [Reader.take, hturns, h.outputs]
  · rw [Reader.take, hturns]
    exact hstatus

theorem Faithful.with_status (h : Faithful stream reader outputs)
    (hrunning : reader.status.result = none) (hstatus : status.result = none)
    (hheld : ∀ read, status = .holding read → read.val ≠ []) :
    Faithful stream ⟨reader.turns, status⟩ outputs :=
  ⟨h.outputs, hstatus.trans (hrunning.symm.trans h.result), hheld⟩

theorem readStream_read (hread : read.val ≠ []) (received : Bool) :
    readStream stream [⟨.ok read, received⟩] =
      if received then ([.output stream (Utf8.decodeLossy read.val)], none)
      else ([], some (.error ())) := by
  have hlength : read.val.length ≠ 0 := fun hzero => hread (List.length_eq_zero_iff.mp hzero)
  cases received with
  | true => simp [readStream, hlength]
  | false => simp [readStream, hlength]

theorem readStream_end (hread : read.val = []) :
    readStream stream [⟨.ok read, true⟩] = ([], some (.ok ())) := by
  simp [readStream, hread]

/-- The outputs of each stream. -/
def ReadersFaithful (s : State) : Prop :=
  ∀ stream, Faithful stream (s.readers stream) (s.sent.filter (isOutputOf stream))

@[simp]
theorem setReader_readers_self (s : State) (stream : LogStream) (reader : Reader) :
    (s.setReader stream reader).readers stream = reader :=
  Function.update_self ..

theorem setReader_readers_of_ne {other : LogStream} (h : other ≠ stream) (s : State)
    (reader : Reader) : (s.setReader stream reader).readers other = s.readers other :=
  Function.update_of_ne h ..

theorem readersFaithful_setReader (h : ReadersFaithful s)
    (hreader : Faithful stream reader (s.sent.filter (isOutputOf stream))) :
    ReadersFaithful (s.setReader stream reader) := by
  intro other
  by_cases hother : other = stream
  · subst hother
    rw [setReader_readers_self]
    exact hreader
  · rw [setReader_readers_of_ne hother]
    exact h other

theorem readersFaithful_reader (h : ReadersFaithful s) (hstep : ReaderStep stream s t) :
    ReadersFaithful t := by
  cases hstep with
  | @read read hreading hread =>
      refine readersFaithful_setReader h ((h stream).with_status ?_ rfl ?_)
      · rw [hreading]
        rfl
      · intro other hother
        rw [← ReaderStatus.holding.inj hother]
        exact hread
  | @readEnd read hreading hread =>
      refine readersFaithful_setReader h ?_
      have htaken := Faithful.take ⟨.ok read, true⟩ (.done (.ok ())) (h stream)
        (by rw [hreading]; rfl) (by rw [readStream_end hread]; rfl) (fun _ => by simp)
      rwa [readStream_end hread, List.append_nil] at htaken
  | readError hreading =>
      refine readersFaithful_setReader h ?_
      have htaken := Faithful.take ⟨.error (), true⟩ (.done (.error ())) (h stream)
        (by rw [hreading]; rfl) rfl (fun _ => by simp)
      rwa [readStream, List.append_nil] at htaken
  | @send read hholding hroom =>
      have hread := (h stream).held _ hholding
      have htaken := Faithful.take ⟨.ok read, true⟩ (.reading) (h stream)
        (by rw [hholding]; rfl) (by rw [readStream_read hread]; rfl) (fun _ => by simp)
      rw [readStream_read hread] at htaken
      intro other
      rw [State.push]
      dsimp only
      rw [List.filter_append]
      by_cases hother : other = stream
      · subst hother
        rw [setReader_readers_self]
        simpa [isOutputOf, State.setReader] using htaken
      · rw [setReader_readers_of_ne hother]
        simpa [isOutputOf, State.setReader, Ne.symm hother] using h other
  | @sendClosed read hholding hclosed =>
      have hread := (h stream).held _ hholding
      refine readersFaithful_setReader h ?_
      have htaken := Faithful.take ⟨.ok read, false⟩ (.done (.error ())) (h stream)
        (by rw [hholding]; rfl) (by rw [readStream_read hread]; rfl) (fun _ => by simp)
      rw [readStream_read hread] at htaken
      simpa using htaken

theorem readersFaithful_step (h : ReadersFaithful s) (hstep : Step s t) : ReadersFaithful t := by
  cases hstep with
  | reader stream hstep => exact readersFaithful_reader h hstep
  | receiver hstep =>
      cases hstep with
      | receive hopen hchannel => exact h
      | close => exact h
  | child hstep =>
      cases hstep with
      | @abort _ stream hphase hrunning =>
          refine readersFaithful_setReader h ((h stream).with_status ?_ rfl ?_)
          rotate_left
          · intro _ hheld
            cases hheld
          rw [Reader.isSettled] at hrunning
          split at hrunning
          · cases hrunning
          · cases hrunning
          · rename_i hstatus
            rw [hstatus]
            rfl
          · rename_i hstatus
            rw [hstatus]
            rfl
      | finish hphase hroom =>
          intro stream
          rw [State.push]
          dsimp only
          rw [List.filter_append]
          simpa [isOutputOf] using h stream
      | _ => exact h
  | input hstep =>
      cases hstep with
      | _ => exact h

/-! The channel -/

/-- Nothing is lost in the channel before its receiver goes away. -/
structure ChannelFaithful (s : State) : Prop where
  whole : s.receiverOpen = true → s.received ++ s.channel = s.sent
  part : s.received <+: s.sent
  bounded : s.channel.length ≤ outputChannelCapacity

theorem ChannelFaithful.push (h : ChannelFaithful s) (hroom : s.HasRoom) (event : ExecutionEvent) :
    ChannelFaithful (s.push event) where
  whole := by
    intro hopen
    rw [State.push]
    dsimp only
    rw [← List.append_assoc, h.whole hopen]
  part := h.part.trans (List.prefix_append _ _)
  bounded := by
    rw [State.push]
    dsimp only
    rw [List.length_append]
    exact hroom.2

theorem channelFaithful_step (h : ChannelFaithful s) (hstep : Step s t) : ChannelFaithful t := by
  cases hstep with
  | reader stream hstep =>
      cases hstep with
      | @send read hholding hroom =>
          have hpush := h.push hroom (.output stream (Utf8.decodeLossy read.val))
          exact ⟨hpush.whole, hpush.part, hpush.bounded⟩
      | _ => exact ⟨h.whole, h.part, h.bounded⟩
  | receiver hstep =>
      cases hstep with
      | @receive event channel hopen hchannel =>
          have hwhole := h.whole hopen
          have hbounded := h.bounded
          rw [hchannel] at hwhole hbounded
          refine ⟨fun _ => ?_, ⟨channel, ?_⟩, Nat.le_of_succ_le hbounded⟩
          · simpa using hwhole
          · simpa using hwhole
      | close => exact ⟨fun hopen => absurd hopen (by simp), h.part, Nat.zero_le _⟩
  | child hstep =>
      cases hstep with
      | @finish result hphase hroom =>
          have hpush := h.push hroom (.finished result)
          exact ⟨hpush.whole, hpush.part, hpush.bounded⟩
      | _ => exact ⟨h.whole, h.part, h.bounded⟩
  | input hstep =>
      cases hstep with
      | _ => exact ⟨h.whole, h.part, h.bounded⟩

/-! The end of a command -/

/-- A reader may be aborted. -/
def State.MayAbort (s : State) : Prop :=
  s.late = true ∨ s.outcome = some .canceled ∨ s.outcome = some .timedOut

def State.AllSettled (s : State) : Prop :=
  ∀ stream, (s.readers stream).isSettled = true

/-- The last event is the result of the outcome. -/
structure EndsWith (s : State) (result : ExecutionResult) : Prop where
  last : ∃ outputs, s.sent = outputs ++ [.finished result] ∧ ∀ other, .finished other ∉ outputs
  outcome : ∃ outcome, s.outcome = some outcome ∧ result = s.resultOf outcome

/-- What is known in each phase. -/
def Fits (s : State) : Phase → Prop
  | .selecting | .waiting => ¬ s.MayAbort
  | .draining exitCode => s.outcome = some (.finished exitCode)
  | .terminating outcome =>
      s.outcome = some outcome ∧ (outcome = .canceled ∨ outcome = .timedOut)
  | .aborting outcome => s.outcome = some outcome ∧ s.MayAbort
  | .finishing result =>
      s.AllSettled ∧ ∃ outcome, s.outcome = some outcome ∧ result = s.resultOf outcome
  | .ended => s.AllSettled ∧ ∀ result, .finished result ∈ s.sent → EndsWith s result

structure Concluded (s : State) : Prop where
  unfinished : s.phase ≠ .ended → ∀ result, .finished result ∉ s.sent
  aborted : ∀ stream, (s.readers stream).status = .aborted → s.MayAbort
  fits : Fits s s.phase

theorem isSettled_of_isDone {reader : Reader} (h : reader.isDone = true) :
    reader.isSettled = true := by
  obtain ⟨turns, status⟩ := reader
  cases status with
  | done _ => rfl
  | _ => cases h

/-- While a reader runs there is no result. -/
theorem Concluded.running (h : Concluded s) (hrunning : (s.readers stream).isSettled = false) :
    s.phase ≠ .ended ∧ ∀ result, s.phase ≠ .finishing result := by
  have hunsettled : ¬ s.AllSettled := fun hall => by
    rw [hall stream] at hrunning
    cases hrunning
  have hfits := h.fits
  constructor
  · intro hphase
    rw [hphase] at hfits
    exact hunsettled hfits.1
  · intro result hphase
    rw [hphase] at hfits
    exact hunsettled hfits.1

/-- A turn of a reader, or its end. -/
theorem Concluded.of_reader (h : Concluded s) (hrunning : (s.readers stream).isSettled = false)
    (hphase : t.phase = s.phase) (houtcome : t.outcome = s.outcome) (hlate : t.late = s.late)
    (hsent : ∀ result, .finished result ∈ t.sent → .finished result ∈ s.sent)
    (haborted : ∀ stream, (t.readers stream).status = .aborted → s.MayAbort) : Concluded t := by
  obtain ⟨hended, hfinishing⟩ := h.running hrunning
  have hmay : s.MayAbort ↔ t.MayAbort := by
    rw [State.MayAbort, State.MayAbort, houtcome, hlate]
  refine ⟨?_, fun stream hstream => hmay.mp (haborted stream hstream), ?_⟩
  · intro hphase' result hmem
    exact h.unfinished hended result (hsent result hmem)
  · have hfits := h.fits
    rw [hphase]
    cases hs : s.phase with
    | selecting =>
        rw [hs] at hfits
        exact fun hmay' => hfits (hmay.mpr hmay')
    | waiting =>
        rw [hs] at hfits
        exact fun hmay' => hfits (hmay.mpr hmay')
    | draining exitCode =>
        rw [hs] at hfits
        exact houtcome.trans hfits
    | terminating outcome =>
        rw [hs] at hfits
        exact ⟨houtcome.trans hfits.1, hfits.2⟩
    | aborting outcome =>
        rw [hs] at hfits
        exact ⟨houtcome.trans hfits.1, hmay.mp hfits.2⟩
    | finishing result => exact absurd hs (hfinishing result)
    | ended => exact absurd hs hended

/-- A step that leaves the readers and the outcome alone. -/
theorem Concluded.of_same (h : Concluded s) (hreaders : t.readers = s.readers)
    (hphase : t.phase = s.phase) (houtcome : t.outcome = s.outcome) (hlate : t.late = s.late)
    (hsent : t.sent = s.sent) : Concluded t := by
  have hresult : t.resultOf = s.resultOf := by
    funext outcome
    cases outcome with
    | finished exitCode => rw [State.resultOf, State.resultOf, State.outputFailed, hreaders]; rfl
    | _ => rfl
  have hmay : s.MayAbort ↔ t.MayAbort := by
    rw [State.MayAbort, State.MayAbort, houtcome, hlate]
  refine ⟨?_, ?_, ?_⟩
  · rw [hphase, hsent]
    exact h.unfinished
  · rw [hreaders]
    exact fun stream haborted => hmay.mp (h.aborted stream haborted)
  · have hfits := h.fits
    rw [hphase]
    cases hs : s.phase with
    | selecting =>
        rw [hs] at hfits
        exact fun hmay' => hfits (hmay.mpr hmay')
    | waiting =>
        rw [hs] at hfits
        exact fun hmay' => hfits (hmay.mpr hmay')
    | draining exitCode =>
        rw [hs] at hfits
        exact houtcome.trans hfits
    | terminating outcome =>
        rw [hs] at hfits
        exact ⟨houtcome.trans hfits.1, hfits.2⟩
    | aborting outcome =>
        rw [hs] at hfits
        exact ⟨houtcome.trans hfits.1, hmay.mp hfits.2⟩
    | finishing result =>
        rw [hs] at hfits
        obtain ⟨hsettled, outcome, hfits⟩ := hfits
        refine ⟨?_, outcome, ?_⟩
        · rw [State.AllSettled, hreaders]
          exact hsettled
        · rw [houtcome, hresult]
          exact hfits
    | ended =>
        rw [hs] at hfits
        obtain ⟨hsettled, hends⟩ := hfits
        refine ⟨?_, fun result hmem => ?_⟩
        · rw [State.AllSettled, hreaders]
          exact hsettled
        · obtain ⟨hlast, houtcome'⟩ := hends result (hsent ▸ hmem)
          exact ⟨hsent ▸ hlast, by rw [houtcome, hresult]; exact houtcome'⟩

theorem isSettled_eq_false (h : reader.status.result = none) (hstatus : reader.status ≠ .aborted) :
    reader.isSettled = false := by
  obtain ⟨turns, status⟩ := reader
  cases status with
  | done _ => cases h
  | aborted => exact absurd rfl hstatus
  | _ => rfl

theorem concluded_setReader (h : Concluded s) (hrunning : (s.readers stream).isSettled = false)
    (hreader : reader.status = .aborted → s.MayAbort) : Concluded (s.setReader stream reader) := by
  refine h.of_reader hrunning rfl rfl rfl (fun _ hmem => hmem) fun other hother => ?_
  by_cases hsame : other = stream
  · subst hsame
    rw [setReader_readers_self] at hother
    exact hreader hother
  · rw [setReader_readers_of_ne hsame] at hother
    exact h.aborted other hother

theorem concluded_readerStep (h : Concluded s) (hstep : ReaderStep stream s t) : Concluded t := by
  have hrunning : (s.readers stream).isSettled = false := by
    cases hstep with
    | read hreading _ =>
        exact isSettled_eq_false (by rw [hreading]; rfl) (by rw [hreading]; simp)
    | readEnd hreading _ =>
        exact isSettled_eq_false (by rw [hreading]; rfl) (by rw [hreading]; simp)
    | readError hreading =>
        exact isSettled_eq_false (by rw [hreading]; rfl) (by rw [hreading]; simp)
    | send hholding _ =>
        exact isSettled_eq_false (by rw [hholding]; rfl) (by rw [hholding]; simp)
    | sendClosed hholding _ =>
        exact isSettled_eq_false (by rw [hholding]; rfl) (by rw [hholding]; simp)
  cases hstep with
  | @send read hholding hroom =>
      have hset : Concluded (s.setReader stream
          ((s.readers stream).take ⟨.ok read, true⟩ .reading)) :=
        concluded_setReader h hrunning fun hstatus => by cases hstatus
      refine h.of_reader hrunning rfl rfl rfl ?_ hset.aborted
      intro result hmem
      simpa [State.push, State.setReader] using hmem
  | _ => exact concluded_setReader h hrunning fun hstatus => by cases hstatus

/-- The `select!` is left. -/
theorem concluded_leave (h : Concluded s) (hphase : s.phase = .selecting ∨ s.phase = .waiting)
    {outcome : ChildOutcome} {phase : Phase}
    (hfits : Fits (s.leave outcome phase) phase) : Concluded (s.leave outcome phase) := by
  have hold := h.fits
  have hnever : ¬ s.MayAbort := by
    rcases hphase with hphase | hphase
    · rw [hphase] at hold
      exact hold
    · rw [hphase] at hold
      exact hold
  have hrunning : s.phase ≠ .ended := by
    rcases hphase with hphase | hphase
    · rw [hphase]
      simp
    · rw [hphase]
      simp
  exact ⟨fun _ => h.unfinished hrunning,
    fun stream haborted => absurd (h.aborted stream haborted) hnever, hfits⟩

theorem concluded_finishing (h : Concluded s) (hrunning : s.phase ≠ .ended) {outcome : ChildOutcome}
    (houtcome : s.outcome = some outcome) (hsettled : s.AllSettled) :
    Concluded { s with phase := .finishing (s.resultOf outcome) } :=
  ⟨fun _ => h.unfinished hrunning, h.aborted, hsettled, outcome, houtcome, by cases outcome <;> rfl⟩

theorem concluded_childStep (h : Concluded s) (hstep : ChildStep s t) : Concluded t := by
  have hfits := h.fits
  cases hstep with
  | exited hphase => exact concluded_leave h hphase rfl
  | canceled hphase => exact concluded_leave h (Or.inl hphase) ⟨rfl, Or.inl rfl⟩
  | timedOut hphase => exact concluded_leave h (Or.inl hphase) ⟨rfl, Or.inr rfl⟩
  | cancelDropped hphase =>
      rw [hphase] at hfits
      exact ⟨fun _ => h.unfinished (by rw [hphase]; simp), h.aborted, hfits⟩
  | drained hphase hdone =>
      rw [hphase] at hfits
      exact concluded_finishing h (by rw [hphase]; simp) hfits fun stream =>
        isSettled_of_isDone (hdone stream)
  | graceElapsed hphase =>
      rw [hphase] at hfits
      exact ⟨fun _ => h.unfinished (by rw [hphase]; simp), fun _ _ => Or.inl rfl, hfits,
        Or.inl rfl⟩
  | terminated hphase =>
      rw [hphase] at hfits
      refine ⟨fun _ => h.unfinished (by rw [hphase]; simp), h.aborted, hfits.1, Or.inr ?_⟩
      rcases hfits.2 with rfl | rfl
      · exact Or.inl hfits.1
      · exact Or.inr hfits.1
  | abort hphase hrunning =>
      rw [hphase] at hfits
      exact concluded_setReader h hrunning fun _ => hfits.2
  | aborted hphase hsettled =>
      rw [hphase] at hfits
      exact concluded_finishing h (by rw [hphase]; simp) hfits.1 hsettled
  | @finish result hphase hroom =>
      have hbefore := h.unfinished (by rw [hphase]; simp)
      rw [hphase] at hfits
      obtain ⟨hsettled, hresult⟩ := hfits
      refine ⟨fun hended => absurd rfl hended, h.aborted, hsettled, fun other hother => ?_⟩
      rcases List.mem_append.mp hother with hold | hnew
      · exact absurd hold (hbefore other)
      · obtain rfl := ExecutionEvent.finished.inj (List.mem_singleton.mp hnew)
        exact ⟨⟨s.sent, rfl, hbefore⟩, hresult⟩
  | finishClosed hphase hclosed =>
      have hbefore := h.unfinished (by rw [hphase]; simp)
      rw [hphase] at hfits
      exact ⟨fun hended => absurd rfl hended, h.aborted, hfits.1, fun other hother =>
        absurd hother (hbefore other)⟩

theorem concluded_step (h : Concluded s) (hstep : Step s t) : Concluded t := by
  cases hstep with
  | reader stream hstep => exact concluded_readerStep h hstep
  | receiver hstep =>
      cases hstep with
      | _ => exact h.of_same rfl rfl rfl rfl rfl
  | child hstep => exact concluded_childStep h hstep
  | input hstep =>
      cases hstep with
      | _ => exact h.of_same rfl rfl rfl rfl rfl

theorem readersFaithful_of_started (h : Started s) : ReadersFaithful s := by
  intro stream
  rw [h.readers stream, h.channel.2.2.2]
  exact ⟨rfl, rfl, fun _ hheld => by cases hheld⟩

theorem channelFaithful_of_started (h : Started s) : ChannelFaithful s := by
  obtain ⟨-, hchannel, hreceived, hsent⟩ := h.channel
  refine ⟨fun _ => ?_, ?_, ?_⟩
  · rw [hreceived, hchannel, hsent]
    rfl
  · rw [hreceived]
    exact List.nil_prefix
  · rw [hchannel]
    exact Nat.zero_le _

theorem concluded_of_started (h : Started s) : Concluded s := by
  obtain ⟨hphase, houtcome, hlate⟩ := h.phase
  refine ⟨fun _ result => ?_, fun stream haborted => ?_, ?_⟩
  · rw [h.channel.2.2.2]
    exact List.not_mem_nil
  · rw [h.readers stream] at haborted
    cases haborted
  · rw [hphase]
    rintro (hmay | hmay | hmay)
    · rw [hlate] at hmay
      cases hmay
    · rw [houtcome] at hmay
      cases hmay
    · rw [houtcome] at hmay
      cases hmay

/-- A reader that has neither failed nor been aborted has read the whole stream. -/
theorem complete_of_settled (h : Faithful stream reader outputs)
    (hsettled : reader.isSettled = true) (hnot : reader.status ≠ .aborted)
    (hfailed : reader.failed = false) :
    (readStream stream reader.turns).2 = some (.ok ()) := by
  rw [← h.result]
  obtain ⟨turns, status⟩ := reader
  cases status with
  | reading => cases hsettled
  | holding _ => cases hsettled
  | aborted => exact absurd rfl hnot
  | done result =>
      cases result with
      | error => cases hfailed
      | ok => rfl

theorem failed_of_outputFailed (h : s.outputFailed = false) (stream : LogStream) :
    (s.readers stream).failed = false := by
  rw [State.outputFailed, Bool.or_eq_false_iff] at h
  cases stream with
  | stdout => exact h.1
  | stderr => exact h.2

/-- In every run of a command, the events that have been sent for a stream are those of
`read_stream` for what it has read, the one who receives them gets them all in their order, and a
result is the last event. It says how the command has ended, and if it is the exit of the child
within the time that the readers have, without a failure of the output, then the whole output of
both streams stands before it. -/
theorem finished_of_reachable (hs : commands.Reachable s) :
    (∀ stream, s.sent.filter (isOutputOf stream) =
      (readStream stream (s.readers stream).turns).1) ∧
    s.received <+: s.sent ∧
    (s.receiverOpen = true → s.received ++ s.channel = s.sent ∧
      s.channel.length ≤ outputChannelCapacity) ∧
    ∀ result, .finished result ∈ s.sent → EndsWith s result ∧
      (∀ exitCode, s.outcome = some (.finished exitCode) → s.late = false →
        result.outputFailed = false → ∀ stream,
          (readStream stream (s.readers stream).turns).2 = some (.ok ())) := by
  have h : ReadersFaithful s ∧ ChannelFaithful s ∧ Concluded s := by
    refine hs.invariant (p := fun s => ReadersFaithful s ∧ ChannelFaithful s ∧ Concluded s) ?_ ?_
    · exact fun s hinit => ⟨readersFaithful_of_started hinit, channelFaithful_of_started hinit,
        concluded_of_started hinit⟩
    · intro s t _ h hstep
      obtain ⟨hreaders, hchannel, hconcluded⟩ := h
      exact ⟨readersFaithful_step hreaders hstep, channelFaithful_step hchannel hstep,
        concluded_step hconcluded hstep⟩
  obtain ⟨hreaders, hchannel, hconcluded⟩ := h
  refine ⟨fun stream => (hreaders stream).outputs, hchannel.part,
    fun hopen => ⟨hchannel.whole hopen, hchannel.bounded⟩, fun result hmem => ?_⟩
  have hphase : s.phase = .ended := by
    by_contra hrunning
    exact hconcluded.unfinished hrunning result hmem
  have hfits := hconcluded.fits
  rw [hphase] at hfits
  obtain ⟨hsettled, hends⟩ := hfits
  refine ⟨hends result hmem, ?_⟩
  intro exitCode houtcome hlate houtput stream
  obtain ⟨outcome, houtcome', hresult⟩ := (hends result hmem).outcome
  obtain rfl := Option.some.inj (houtcome.symm.trans houtcome')
  have hfailed : s.outputFailed = false := by
    rw [hresult] at houtput
    exact houtput
  exact complete_of_settled (hreaders stream) (hsettled stream) (fun haborted => by
    rcases hconcluded.aborted stream haborted with hmay | hmay | hmay
    · rw [hlate] at hmay
      cases hmay
    · rw [houtcome] at hmay
      cases hmay
    · rw [houtcome] at hmay
      cases hmay) (failed_of_outputFailed hfailed stream)

/-! The standard input -/

/-- The inputs that are answered with success. -/
def State.acceptedBytes (s : State) : List UInt8 :=
  (s.answers.filter Prod.snd).flatMap Prod.fst

/-- The input that may be written in part: the one that has failed, or the next one. -/
def State.current (s : State) : List UInt8 :=
  match s.answers.getLast? with
  | some (input, false) => input
  | _ => s.pending.headD []

structure InputsFaithful (s : State) : Prop where
  delivered : s.delivered = s.answers.map Prod.fst ++ s.pending
  written : ∃ rest, s.written = s.acceptedBytes ++ rest ∧ rest <+: s.current ∧
    (s.phase = .selecting → s.inputOpen = true → rest = s.current.take (s.writing.getD 0))
  writing : ∀ n, s.writing = some n → s.phase = .selecting ∧ s.inputOpen = true ∧
    s.pending ≠ [] ∧ n ≤ s.current.length
  answered : (∀ answer ∈ s.answers, answer.2 = true) ∨ s.inputOpen = false ∧
    ∃ front input, s.answers = front ++ [(input, false)] ∧ ∀ answer ∈ front, answer.2 = true

theorem current_of_accepted (h : ∀ answer ∈ s.answers, answer.2 = true) :
    s.current = s.pending.headD [] := by
  rw [State.current]
  split
  · rename_i input hlast
    have hfalse := h (input, false) (List.mem_of_getLast? hlast)
    cases hfalse
  · rfl

theorem InputsFaithful.accepted (h : InputsFaithful s) (hopen : s.inputOpen = true) :
    ∀ answer ∈ s.answers, answer.2 = true := by
  rcases h.answered with hall | ⟨hclosed, -⟩
  · exact hall
  · rw [hopen] at hclosed
    cases hclosed

theorem InputsFaithful.current_eq (h : InputsFaithful s) (hopen : s.inputOpen = true)
    {input : List UInt8} {pending : List (List UInt8)} (hpending : s.pending = input :: pending) :
    s.current = input := by
  rw [current_of_accepted (h.accepted hopen), hpending]
  rfl

/-- A step that leaves the standard input alone, or the `select!` for good. -/
theorem InputsFaithful.of_same (h : InputsFaithful s) (hdelivered : t.delivered = s.delivered)
    (hpending : t.pending = s.pending) (hanswers : t.answers = s.answers)
    (hwritten : t.written = s.written) (hopen : t.inputOpen = s.inputOpen)
    (hphase : t.phase = s.phase ∧ t.writing = s.writing ∨
      t.phase ≠ .selecting ∧ (t.writing = none ∨ t.writing = s.writing ∧ s.phase ≠ .selecting)) :
    InputsFaithful t := by
  have hcurrent : t.current = s.current := by
    rw [State.current, State.current, hanswers, hpending]
  have haccepted : t.acceptedBytes = s.acceptedBytes := by
    rw [State.acceptedBytes, State.acceptedBytes, hanswers]
  obtain ⟨rest, hrest, hpart, hwriting⟩ := h.written
  refine ⟨?_, ⟨rest, ?_, hcurrent ▸ hpart, ?_⟩, ?_, ?_⟩
  · rw [hdelivered, hanswers, hpending]
    exact h.delivered
  · rw [hwritten, haccepted]
    exact hrest
  · intro hselecting hopen'
    rcases hphase with ⟨hsame, hsame'⟩ | ⟨hleft, -⟩
    · rw [hcurrent, hsame']
      exact hwriting (hsame ▸ hselecting) (hopen ▸ hopen')
    · exact absurd hselecting hleft
  · intro n hn
    rw [hcurrent, hpending, hopen]
    rcases hphase with ⟨hsame, hsame'⟩ | ⟨-, hnone | ⟨hsame', hleft⟩⟩
    · rw [hsame]
      exact h.writing n (hsame' ▸ hn)
    · rw [hnone] at hn
      cases hn
    · exact absurd (h.writing n (hsame' ▸ hn)).1 hleft
  · rw [hanswers, hopen]
    exact h.answered

theorem inputsFaithful_child (h : InputsFaithful s) (hstep : ChildStep s t) : InputsFaithful t := by
  cases hstep with
  | exited hphase =>
      exact h.of_same rfl rfl rfl rfl rfl (Or.inr ⟨by simp [State.leave], Or.inl rfl⟩)
  | canceled hphase =>
      exact h.of_same rfl rfl rfl rfl rfl (Or.inr ⟨by simp [State.leave], Or.inl rfl⟩)
  | timedOut hphase =>
      exact h.of_same rfl rfl rfl rfl rfl (Or.inr ⟨by simp [State.leave], Or.inl rfl⟩)
  | cancelDropped hphase => exact h.of_same rfl rfl rfl rfl rfl (Or.inr ⟨by simp, Or.inl rfl⟩)
  | abort hphase hrunning => exact h.of_same rfl rfl rfl rfl rfl (Or.inl ⟨rfl, rfl⟩)
  | drained hphase _ | graceElapsed hphase | terminated hphase | aborted hphase _
  | finish hphase _ | finishClosed hphase _ =>
      exact h.of_same rfl rfl rfl rfl rfl
        (Or.inr ⟨by simp, Or.inr ⟨rfl, by rw [hphase]; simp⟩⟩)

theorem inputsFaithful_deliver (h : InputsFaithful s) (hopen : s.inputOpen = true)
    (input : List UInt8) :
    InputsFaithful
      { s with pending := s.pending ++ [input], delivered := s.delivered ++ [input] } := by
  have haccepted := h.accepted hopen
  obtain ⟨rest, hrest, hpart, hwriting⟩ := h.written
  have hdelivered : s.delivered ++ [input] = s.answers.map Prod.fst ++ (s.pending ++ [input]) := by
    rw [h.delivered, List.append_assoc]
  cases hpending : s.pending with
  | nil =>
      -- nothing is on its way
      have hidle : s.writing = none := by
        by_contra hwriting'
        obtain ⟨n, hn⟩ := Option.ne_none_iff_exists'.mp hwriting'
        exact (h.writing n hn).2.2.1 hpending
      have hempty : rest = [] := by
        rw [current_of_accepted haccepted, hpending] at hpart
        exact List.prefix_nil.mp hpart
      refine ⟨hpending ▸ hdelivered, ⟨rest, hrest, ?_, fun _ _ => ?_⟩, fun n hn => ?_,
        Or.inl haccepted⟩
      · rw [hempty]
        exact List.nil_prefix
      · rw [hempty, hidle]
        rfl
      · rw [hidle] at hn
        cases hn
  | cons first pending =>
      have hcurrent : ({ s with
          pending := first :: pending ++ [input],
          delivered := s.delivered ++ [input] } : State).current = s.current := by
        rw [h.current_eq hopen hpending]
        exact current_of_accepted (s := { s with
          pending := first :: pending ++ [input], delivered := s.delivered ++ [input] }) haccepted
      refine ⟨hpending ▸ hdelivered, ⟨rest, hrest, hcurrent ▸ hpart, fun hselecting _ => ?_⟩,
        fun n hn => ?_, Or.inl haccepted⟩
      · rw [hcurrent]
        exact hwriting hselecting hopen
      · obtain ⟨hselecting, -, -, hlength⟩ := h.writing n hn
        exact ⟨hselecting, hopen, by simp, hcurrent ▸ hlength⟩

theorem inputsFaithful_write (h : InputsFaithful s) {input : List UInt8}
    {pending : List (List UInt8)} {n k : Nat} (hphase : s.phase = .selecting)
    (hwriting : s.writing = some n) (hpending : s.pending = input :: pending)
    (hk : n + k ≤ input.length) :
    InputsFaithful
      { s with writing := some (n + k), written := s.written ++ (input.drop n).take k } := by
  obtain ⟨-, hopen, hne, -⟩ := h.writing n hwriting
  obtain ⟨rest, hrest, -, hpart⟩ := h.written
  have hcurrent := h.current_eq hopen hpending
  have htaken : rest ++ (input.drop n).take k = input.take (n + k) := by
    rw [hpart hphase hopen, hcurrent, hwriting, Option.getD_some, List.take_add]
  refine ⟨h.delivered, ⟨input.take (n + k), ?_, ?_, fun _ _ => ?_⟩, fun m hm => ?_, h.answered⟩
  · dsimp only
    rw [hrest, List.append_assoc, htaken]
    rfl
  · exact hcurrent ▸ List.take_prefix _ _
  · exact hcurrent ▸ rfl
  · obtain rfl := Option.some.inj hm
    exact ⟨hphase, hopen, hne, hcurrent ▸ hk⟩

theorem inputsFaithful_answered (h : InputsFaithful s) {input : List UInt8}
    {pending : List (List UInt8)} (hphase : s.phase = .selecting)
    (hwriting : s.writing = some input.length) (hpending : s.pending = input :: pending) :
    InputsFaithful
      { s with writing := none, pending, answers := s.answers ++ [(input, true)] } := by
  obtain ⟨-, hopen, -, -⟩ := h.writing _ hwriting
  obtain ⟨rest, hrest, -, hpart⟩ := h.written
  have hwhole : rest = input := by
    rw [hpart hphase hopen, h.current_eq hopen hpending, hwriting, Option.getD_some,
      List.take_length]
  refine ⟨?_, ⟨[], ?_, List.nil_prefix, fun _ _ => rfl⟩, ?_, Or.inl ?_⟩
  · rw [h.delivered, hpending]
    simp
  · rw [hrest, hwhole]
    simp [State.acceptedBytes]
  · intro n hn
    cases hn
  · intro answer hanswer
    rcases List.mem_append.mp hanswer with hold | hnew
    · exact h.accepted hopen answer hold
    · obtain rfl := List.mem_singleton.mp hnew
      rfl

theorem inputsFaithful_failed (h : InputsFaithful s) {input : List UInt8}
    {pending : List (List UInt8)} {n : Nat} (hwriting : s.writing = some n)
    (hpending : s.pending = input :: pending) :
    InputsFaithful
      { s with
        inputOpen := false
        writing := none
        pending
        answers := s.answers ++ [(input, false)] } := by
  obtain ⟨-, hopen, -, -⟩ := h.writing _ hwriting
  obtain ⟨rest, hrest, hpart, -⟩ := h.written
  rw [h.current_eq hopen hpending] at hpart
  refine ⟨?_, ⟨rest, ?_, ?_, fun _ hopen' => ?_⟩, ?_, Or.inr ⟨rfl, s.answers, input, rfl,
    h.accepted hopen⟩⟩
  · rw [h.delivered, hpending]
    simp
  · rw [hrest]
    simp [State.acceptedBytes]
  · rw [State.current]
    simpa using hpart
  · cases hopen'
  · intro m hm
    cases hm

theorem inputsFaithful_input (h : InputsFaithful s) (hstep : InputStep s t) : InputsFaithful t := by
  cases hstep with
  | deliver hphase hopen => exact inputsFaithful_deliver h hopen _
  | begin hphase hopen hwriting hpending =>
      obtain ⟨rest, hrest, hpart, hidle⟩ := h.written
      refine ⟨h.delivered, ⟨rest, hrest, hpart, fun _ _ => ?_⟩, fun n hn => ?_, h.answered⟩
      · rw [hidle hphase hopen, hwriting]
        rfl
      · obtain rfl := Option.some.inj hn
        exact ⟨hphase, hopen, by rw [hpending]; simp, Nat.zero_le _⟩
  | write hphase hwriting hpending hk => exact inputsFaithful_write h hphase hwriting hpending hk
  | answered hphase hwriting hpending => exact inputsFaithful_answered h hphase hwriting hpending
  | failed hphase hwriting hpending => exact inputsFaithful_failed h hwriting hpending
  | closed hphase hopen hpending =>
      obtain ⟨rest, hrest, hpart, -⟩ := h.written
      refine ⟨h.delivered, ⟨rest, hrest, hpart, fun _ hopen' => ?_⟩, fun n hn => ?_,
        Or.inl (h.accepted hopen)⟩
      · cases hopen'
      · exact absurd hpending (h.writing n hn).2.2.1

theorem inputsFaithful_step (h : InputsFaithful s) (hstep : Step s t) : InputsFaithful t := by
  cases hstep with
  | reader stream hstep =>
      cases hstep with
      | _ => exact h.of_same rfl rfl rfl rfl rfl (Or.inl ⟨rfl, rfl⟩)
  | receiver hstep =>
      cases hstep with
      | _ => exact h.of_same rfl rfl rfl rfl rfl (Or.inl ⟨rfl, rfl⟩)
  | child hstep => exact inputsFaithful_child h hstep
  | input hstep => exact inputsFaithful_input h hstep

theorem inputsFaithful_of_started (h : Started s) : InputsFaithful s := by
  obtain ⟨hwriting, hpending, hdelivered, hwritten, hanswers⟩ := h.inputs
  refine ⟨?_, ⟨[], ?_, List.nil_prefix, fun _ _ => ?_⟩, fun n hn => ?_, Or.inl ?_⟩
  · rw [hdelivered, hanswers, hpending]
    rfl
  · rw [hwritten, State.acceptedBytes, hanswers]
    rfl
  · rw [hwriting]
    rfl
  · rw [hwriting] at hn
    cases hn
  · rw [hanswers]
    exact fun _ hanswer => absurd hanswer List.not_mem_nil

/-- In every run of a command, the inputs are answered in their order, all but the last of the
answers are successes, and the child has got the bytes of the inputs that are answered with success,
each once, and behind them at most a part of one more: of the one that has failed, or else of the
next one. -/
theorem inputs_answered_of_reachable (hs : commands.Reachable s) :
    s.delivered = s.answers.map Prod.fst ++ s.pending ∧
      (∃ rest, s.written = s.acceptedBytes ++ rest ∧ rest <+: s.current) ∧
      ∀ answer ∈ s.answers.dropLast, answer.2 = true := by
  have h : InputsFaithful s := by
    refine hs.invariant (p := InputsFaithful) ?_ ?_
    · exact fun s hinit => inputsFaithful_of_started hinit
    · exact fun s t _ h hstep => inputsFaithful_step h hstep
  obtain ⟨rest, hrest, hpart, -⟩ := h.written
  refine ⟨h.delivered, ⟨rest, hrest, hpart⟩, fun answer hanswer => ?_⟩
  rcases h.answered with hall | ⟨-, front, input, hanswers, hall⟩
  · exact hall answer ((List.dropLast_sublist _).subset hanswer)
  · rw [hanswers, List.dropLast_concat] at hanswer
    exact hall answer hanswer

/-! A command that writes a letter, gets an input and ends -/

def demoStarted : State where
  readers := fun _ => ⟨[], .reading⟩
  receiverOpen := true
  channel := []
  received := []
  sent := []
  phase := .selecting
  outcome := none
  late := false
  inputOpen := true
  writing := none
  pending := []
  delivered := []
  written := []
  answers := []

def demoResult : ExecutionResult := ⟨some 0, false, false⟩

theorem started_demoStarted : Started demoStarted :=
  ⟨fun _ => rfl, ⟨rfl, rfl, rfl, rfl⟩, ⟨rfl, rfl, rfl⟩, ⟨rfl, rfl, rfl, rfl, rfl⟩⟩

def demoLetter : Filled := ⟨[97], by decide⟩

def demoEnd : Filled := ⟨[], by decide⟩

theorem reachable_step (hs : commands.Reachable s) (hstep : Step s t) : commands.Reachable t :=
  .step hs hstep

theorem exists_demoRun : ∃ s, commands.Reachable s ∧
    s.sent = [.output .stdout ['a'], .finished demoResult] ∧ s.outcome = some (.finished (some 0)) ∧
    s.late = false ∧ s.delivered = [[121, 10]] ∧ s.answers = [([121, 10], true)] := by
  have hdelivered := reachable_step (.init started_demoStarted)
    (Step.input (@InputStep.deliver demoStarted [121, 10] (by decide) rfl))
  have hbegun := reachable_step hdelivered (Step.input (.begin rfl rfl rfl rfl))
  have hwritten := reachable_step hbegun (Step.input (.write (k := 2) rfl rfl rfl (by decide)))
  have hanswered := reachable_step hwritten (Step.input (.answered rfl rfl rfl))
  have hread := reachable_step hanswered
    (Step.reader .stdout (@ReaderStep.read .stdout _ demoLetter rfl (by decide)))
  have hsent := reachable_step hread (Step.reader .stdout (.send rfl ⟨rfl, by decide⟩))
  have hstdout := reachable_step hsent
    (Step.reader .stdout (@ReaderStep.readEnd .stdout _ demoEnd rfl rfl))
  have hstderr := reachable_step hstdout
    (Step.reader .stderr (@ReaderStep.readEnd .stderr _ demoEnd rfl rfl))
  have hexited := reachable_step hstderr (Step.child (@ChildStep.exited _ (some 0) (Or.inl rfl)))
  have hdrained := reachable_step hexited
    (Step.child (.drained rfl fun stream => by cases stream <;> rfl))
  have hfinished := reachable_step hdrained (Step.child (.finish rfl ⟨rfl, by decide⟩))
  exact ⟨_, hfinished, rfl, rfl, rfl, rfl, rfl⟩

theorem finished_demoRun : ∃ s : State, s.sent = [.output .stdout ['a'], .finished demoResult] ∧
    EndsWith s demoResult ∧
      ∀ stream, (readStream stream (s.readers stream).turns).2 = some (.ok ()) := by
  obtain ⟨s, hs, hsent, houtcome, hlate, -, -⟩ := exists_demoRun
  obtain ⟨hends, hcomplete⟩ := (finished_of_reachable hs).2.2.2 demoResult (by rw [hsent]; simp)
  exact ⟨s, hsent, hends, hcomplete (some 0) houtcome hlate rfl⟩

theorem answered_demoRun : ∃ s : State, s.delivered = [[121, 10]] ∧
    s.answers = [([121, 10], true)] ∧
      ∃ rest, s.written = s.acceptedBytes ++ rest ∧ rest <+: s.current := by
  obtain ⟨s, hs, -, -, -, hdelivered, hanswers⟩ := exists_demoRun
  exact ⟨s, hdelivered, hanswers, (inputs_answered_of_reachable hs).2.1⟩

end AnvilRun.CommandRuns
