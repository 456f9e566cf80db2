import AnvilRun.AgentRedactor.Sizes
import AnvilRun.AgentRuntime.Outputs
import AnvilRun.SensitiveValues
import AnvilRun.TransitionSystem
import AnvilRun.Websocket.Validate

namespace AnvilRun.AgentRuntime

open AnvilRun.AgentContracts (TaskCancelPayload)
open AnvilRun.AgentRedactor
open AnvilRun.Effect (onlyIf)
open AnvilRun.Execution (ExecutionResult Filled)
open AnvilRun.Interruptible
open AnvilRun.MaskWeight
open AnvilRun.SensitiveValues (agentRedactor)
open AnvilRun.Websocket (taskLogChunkMaxBytes)

/-- The server takes each chunk of the log. -/
def ChunksFit (s : Agent) : Prop :=
  ∀ entry ∈ s.emitted, byteLen entry.chunk ≤ taskLogChunkMaxBytes

/-- What is masked at once for each output fits. -/
def OutputsFit : Redactors → List (LogStream × Text) → Prop
  | _, [] => True
  | R, output :: outputs =>
      FitsMasked taskLogChunkMaxBytes (R output.1).values ((R output.1).released output.2) ∧
        OutputsFit (feed R output) outputs

/-- What is held back fits. -/
def TailsFit (R : Redactors) : Prop :=
  ∀ stream, FitsMasked taskLogChunkMaxBytes (R stream).values (R stream).pending

/-- What is held back goes through the redactors once more. -/
def FlushFits (R : Redactors) : Prop :=
  OutputsFit (finishAll R) (tailsOf R)

/-- The redactors behind a loop over outputs, which may stop where an entry is persisted. -/
inductive Consumed : Redactors → List (LogStream × Text) → Redactors → Prop
  | all {R : Redactors} : Consumed R [] R
  | next {R R' : Redactors} {output : LogStream × Text} {outputs : List (LogStream × Text)}
      (h : Consumed (feed R output) outputs R') : Consumed R (output :: outputs) R'
  | stop {R : Redactors} {output : LogStream × Text} {outputs : List (LogStream × Text)}
      (h : ((R output.1).redact output.2).1 ≠ []) :
      Consumed R (output :: outputs) (feed R output)

/-- What the agent handles while a command runs. -/
inductive LogEvent where
  | output (stream : LogStream) (chunk : Text)
  | finished (result : ExecutionResult)
  | canceled (cancel : TaskCancelPayload)

def LogEvent.handle (host : Host) (answers : Answers) : LogEvent → Act
  | .output stream chunk => handleExecutionEvent host answers (.output stream chunk)
  | .finished result => handleExecutionEvent host answers (.finished result)
  | .canceled cancel => handleTaskCancel host answers cancel

/-- The outputs that a cancellation goes through. -/
def drained (s : Agent) (answers : Answers) : List (LogStream × Text) :=
  if s.executionReceiver then answers.outputs else []

/-- Whether a cancellation gets as far as the command. -/
def stopsTask (task : ActiveTask) (answers : Answers) (cancel : TaskCancelPayload) : Bool :=
  task.isAddressed cancel &&
    !(answers.preparationWorkspace && task.workspace && !answers.released)

/-- What is masked at once while an event is handled fits. -/
def EventFits (s : Agent) (answers : Answers) (task : ActiveTask) : LogEvent → Prop
  | .output stream chunk => OutputsFit task.redactor [(stream, chunk)]
  | .finished _ => TailsFit task.redactor
  | .canceled cancel => stopsTask task answers cancel = true →
      OutputsFit task.redactor (drained s answers) ∧
        ∀ R, Consumed task.redactor (drained s answers) R → FlushFits R

/-- A chunk is what one read of a stream is decoded to. -/
def IsRead (chunk : Text) : Prop :=
  ∃ read : Filled, chunk = Utf8.decodeLossy read.val

def FromReads (answers : Answers) : LogEvent → Prop
  | .output _ chunk => IsRead chunk
  | .finished _ => True
  | .canceled _ => ∀ output ∈ answers.outputs, IsRead output.2

/-- The agent handles an event of the command, with whatever faults, or it does something that has
nothing to do with the log. -/
inductive LogStep (host : Host) (allowed : Agent → Answers → LogEvent → Prop) :
    Agent → Agent → Prop
  | handle {s : Agent} {answers : Answers} {event : LogEvent} {faults : List (Option Fault)}
      (hreads : FromReads answers event) (hallowed : allowed s answers event) :
      LogStep host allowed s ((event.handle host answers).run ⟨s, faults⟩).state
  | other {s t : Agent} (hemitted : t.emitted = s.emitted)
      (hredactors : t.redactors = s.redactors ∨ t.redactors = none) : LogStep host allowed s t

/-- The runs of a task from its assignment on in which the events meet a condition on the state
they come in. -/
def logSystem (host : Host) (encode : JsNumber → Text) (config : Json)
    (sensitiveConfigKeys : List JsString) (allowed : Agent → Answers → LogEvent → Prop) :
    TransitionSystem Agent where
  init := fun s => s.emitted = [] ∧
    s.redactors = some fun _ => agentRedactor encode config sensitiveConfigKeys
  step := LogStep host allowed

/-- All that is masked at once fits. -/
def Fits (s : Agent) (answers : Answers) (event : LogEvent) : Prop :=
  ∀ task, s.active = some task → EventFits s answers task event

variable {host : Host} {answers : Answers} {s t : Agent} {task : ActiveTask} {R R' : Redactors}
  {stream : LogStream} {chunk : Text} {outputs : List (LogStream × Text)}
  {cancel : TaskCancelPayload} {result : ExecutionResult} {event : LogEvent}

/-- No value is shorter than the marker, and what is held back for the longest one fits. -/
def ValuesFit (values : List Text) : Prop :=
  ∀ value ∈ values, byteLen redactedMarker ≤ byteLen value ∧
    2 * byteLen value + 2 ≤ taskLogChunkMaxBytes

/-- The log fits, and the redactors are the given ones. -/
def FitsWith (R : Redactors) (s : Agent) : Prop :=
  ChunksFit s ∧ s.redactors = some R

theorem SameLogs.chunksFit (h : SameLogs s t) (hs : ChunksFit s) : ChunksFit t := by
  rw [ChunksFit, h.1]
  exact hs

theorem SameLogs.fitsWith (h : SameLogs s t) (hs : FitsWith R s) : FitsWith R t :=
  ⟨h.chunksFit hs.1, h.2.trans hs.2⟩

theorem chunksFit_emit {entry : BufferedLogEntry} (hs : ChunksFit s)
    (h : byteLen entry.chunk ≤ taskLogChunkMaxBytes) : ChunksFit (s.emit entry) := by
  intro other hother
  rcases List.mem_append.mp hother with hother | hother
  · exact hs other hother
  · rw [List.mem_singleton.mp hother]
    exact h

/-- What leaves the log alone keeps what is known of it. -/
theorem ends_of_sameLogs {p : Agent → Prop} {x : Act} (h : Leads SameLogs x)
    (hp : ∀ t, SameLogs s t → p t) : Ends x (fun _ => p) (fun _ => p) p s :=
  (h.ends s).imp (fun _ t => hp t) (fun _ t => hp t) hp

/-! One entry -/

/-- However it ends, one more entry has been given to the log. -/
theorem ends_persistAndSendLog_emit (hactive : s.active = some task) :
    Ends (persistAndSendLog host answers stream chunk)
      (fun _ => SameLogs (s.emit (task.entry answers stream chunk)))
      (fun _ => SameLogs (s.emit (task.entry answers stream chunk)))
      (SameLogs (s.emit (task.entry answers stream chunk))) s := by
  refine ends_withActive hactive (ends_bind (ends_modify (ends_of_sameLogs ?_ fun t ht => ht)))
  refine Leads.bind SameLogs.trans (leads_zoomLogs (fun _ _ h => h) task _) fun appended => ?_
  exact leads_onlyIf SameLogs.refl
    (leads_sendLogBestEffort SameLogs.refl SameLogs.trans (fun _ _ h => h) _)

theorem ends_persistAndSendLog (hs : FitsWith R s) (hchunk : byteLen chunk ≤ taskLogChunkMaxBytes) :
    Ends (persistAndSendLog host answers stream chunk) (fun _ => FitsWith R) (fun _ => FitsWith R)
      (FitsWith R) s := by
  obtain ⟨task, hactive, rfl⟩ := exists_active hs.2
  have hemitted : FitsWith task.redactor (s.emit (task.entry answers stream chunk)) :=
    ⟨chunksFit_emit hs.1 hchunk, hs.2⟩
  exact (ends_persistAndSendLog_emit hactive).imp (fun _ t ht => ht.fitsWith hemitted)
    (fun _ t ht => ht.fitsWith hemitted) (fun t ht => ht.fitsWith hemitted)

/-- An output is fed to its redactor, and only what is persisted can fail. -/
theorem ends_persistExecutionOutput (hs : FitsWith R s)
    (hfits : FitsMasked taskLogChunkMaxBytes (R stream).values ((R stream).released chunk)) :
    Ends (persistExecutionOutput host answers stream chunk)
      (fun _ => FitsWith (feed R (stream, chunk)))
      (fun _ t => FitsWith (feed R (stream, chunk)) t ∧ ((R stream).redact chunk).1 ≠ [])
      ChunksFit s := by
  obtain ⟨task, hactive, rfl⟩ := exists_active hs.2
  refine ends_withActive hactive (ends_bind (ends_modify ?_))
  have hfed : FitsWith (feed task.redactor (stream, chunk))
      { s with active := s.active.map fun task =>
          task.setRedactor stream ((task.redactor stream).redact chunk).2 } := by
    refine ⟨hs.1, ?_⟩
    rw [Agent.redactors, hactive, Option.map_some, Option.map_some, redactor_setRedactor]
    rfl
  rw [onlyIf]
  split
  · rename_i hne
    have hlength := (byteLen_redact_le_iff (task.redactor stream) chunk).mpr hfits
    exact (ends_persistAndSendLog hfed hlength).imp (fun _ _ ht => ht) (fun _ _ ht => ⟨ht, hne⟩)
      (fun _ ht => ht.1)
  · exact ends_pure hfed

/-- What is let out of an output is an entry of the log. -/
theorem ends_persistExecutionOutput_emit (hactive : s.active = some task)
    (hne : ((task.redactor stream).redact chunk).1 ≠ []) :
    Ends (persistExecutionOutput host answers stream chunk)
      (fun _ t => ∃ entry ∈ t.emitted, entry.chunk = ((task.redactor stream).redact chunk).1)
      (fun _ t => ∃ entry ∈ t.emitted, entry.chunk = ((task.redactor stream).redact chunk).1)
      (fun t => ∃ entry ∈ t.emitted, entry.chunk = ((task.redactor stream).redact chunk).1) s := by
  have hmem : ∀ (u t : Agent) (entry : BufferedLogEntry), SameLogs (u.emit entry) t →
      entry.chunk = ((task.redactor stream).redact chunk).1 →
      ∃ entry ∈ t.emitted, entry.chunk = ((task.redactor stream).redact chunk).1 := by
    intro u t entry ht hentry
    refine ⟨entry, ?_, hentry⟩
    rw [ht.1]
    exact List.mem_append_right _ List.mem_cons_self
  refine ends_withActive hactive (ends_bind (ends_modify ?_))
  rw [onlyIf, if_pos hne]
  refine Ends.imp (@ends_persistAndSendLog_emit host answers _
    (task.setRedactor stream ((task.redactor stream).redact chunk).2) stream _ ?_)
    (fun _ t ht => hmem _ t _ ht rfl) (fun _ t ht => hmem _ t _ ht rfl)
    (fun t ht => hmem _ t _ ht rfl)
  rw [hactive]
  rfl

/-- The loop over outputs. -/
theorem ends_each_persistExecutionOutput (hs : FitsWith R s) (hfits : OutputsFit R outputs) :
    Ends (each (fun output => persistExecutionOutput host answers output.1 output.2) outputs)
      (fun _ t => ∃ R', Consumed R outputs R' ∧ FitsWith R' t)
      (fun _ t => ∃ R', Consumed R outputs R' ∧ FitsWith R' t) ChunksFit s := by
  induction outputs generalizing R s with
  | nil => exact ends_pure ⟨R, .all, hs⟩
  | cons output outputs ih =>
      apply ends_bind
      refine (ends_persistExecutionOutput hs hfits.1).imp (fun _ t ht => ?_)
        (fun _ t ht => ⟨_, .stop ht.2, ht.1⟩) (fun _ ht => ht)
      refine (ih ht hfits.2).imp (fun _ u hu => ?_) (fun _ u hu => ?_) (fun _ hu => hu)
      · obtain ⟨R', hR', hu⟩ := hu
        exact ⟨R', .next hR', hu⟩
      · obtain ⟨R', hR', hu⟩ := hu
        exact ⟨R', .next hR', hu⟩

theorem ends_each_persistAndSendLog {tails : List (LogStream × Text)} (hs : FitsWith R s)
    (hfits : ∀ tail ∈ tails, byteLen tail.2 ≤ taskLogChunkMaxBytes) :
    Ends (each (fun tail => persistAndSendLog host answers tail.1 tail.2) tails)
      (fun _ => FitsWith R) (fun _ => FitsWith R) (FitsWith R) s :=
  ends_each (fun tail htail _ ht => ends_persistAndSendLog ht (hfits tail htail)) hs

/-! The handlers -/

theorem FitsWith.setActive {g : ActiveTask → ActiveTask} (hs : FitsWith R s)
    (h : ∀ task, (g task).redactor = task.redactor) :
    FitsWith R { s with active := s.active.map g } :=
  ⟨hs.1, (redactors_modifyTask h s).trans hs.2⟩

theorem FitsWith.finish {g : ActiveTask → ActiveTask} (hs : FitsWith R s)
    (h : ∀ task, (g task).redactor = finishAll task.redactor) :
    FitsWith (finishAll R) { s with active := s.active.map g } := by
  refine ⟨hs.1, ?_⟩
  obtain ⟨task, hactive, rfl⟩ := exists_active hs.2
  rw [Agent.redactors, hactive, Option.map_some, Option.map_some, h]

theorem byteLen_tail_le (h : TailsFit R) :
    ∀ tail ∈ tailsOf R, byteLen tail.2 ≤ taskLogChunkMaxBytes := by
  intro tail htail
  have hmem := (List.mem_filter.mp htail).1
  simp only [List.mem_cons, List.not_mem_nil, or_false] at hmem
  rcases hmem with rfl | rfl
  · exact (byteLen_finish_le_iff (R .stdout)).mpr (h .stdout)
  · exact (byteLen_finish_le_iff (R .stderr)).mpr (h .stderr)

theorem ends_finished (hs : FitsWith R s) (hfits : TailsFit R) :
    Ends (handleExecutionEvent host answers (.finished result)) (fun _ => ChunksFit)
      (fun _ => ChunksFit) ChunksFit s := by
  obtain ⟨task, hactive, rfl⟩ := exists_active hs.2
  have htails : (s.active.map ActiveTask.tails).getD [] = tailsOf task.redactor := by
    rw [hactive]
    rfl
  refine ends_bind (ends_get (ends_bind (ends_modify (ends_bind (ends_modify ?_)))))
  rw [htails]
  have hfinished := hs.finish (g := fun task =>
    { task.finishRedactors with execution := false, commandCompleted := true })
    redactor_finishRedactors
  apply ends_bind
  refine Ends.imp (ends_each_persistAndSendLog (R := finishAll task.redactor) ?_
    (byteLen_tail_le hfits)) (fun _ t ht => ?_) (fun _ _ ht => ht.1) (fun _ ht => ht.1)
  · exact ⟨hfinished.1, hfinished.2⟩
  · exact ends_of_sameLogs
      (leads_reportResult SameLogs.refl SameLogs.trans (fun _ _ h => h) result)
      fun u hu => hu.chunksFit ht.1

theorem ends_stopExecution (hs : FitsWith R s) (hfits : OutputsFit R (drained s answers)) :
    Ends (stopExecution host answers)
      (fun _ t => ∃ R', Consumed R (drained s answers) R' ∧ FitsWith R' t) (fun _ => ChunksFit)
      ChunksFit s := by
  have hkept : ∀ t, (∃ R', Consumed R (drained s answers) R' ∧ FitsWith R' t) →
      Ends (onlyIf (answers.stopped = false)
        (modifyTask fun task => { task with executionInput := false, execution := false }))
      (fun _ t => ∃ R', Consumed R (drained s answers) R' ∧ FitsWith R' t) (fun _ => ChunksFit)
      ChunksFit t := by
    rintro t ⟨R', hR', ht⟩
    rw [onlyIf]
    split
    · exact ends_modify ⟨R', hR', ht.setActive fun _ => rfl⟩
    · exact ends_pure ⟨R', hR', ht⟩
  refine ends_bind (ends_get (ends_bind ?_))
  have hloop : Ends (onlyIf (s.executionReceiver = true) do
      recover (each (fun output => persistExecutionOutput host answers output.1 output.2)
        answers.outputs) fun _ => pure ()
      onlyIf (answers.stopped = false)
        (modifyTask fun task => { task with executionInput := false, execution := false }))
      (fun _ t => ∃ R', Consumed R (drained s answers) R' ∧ FitsWith R' t) (fun _ => ChunksFit)
      ChunksFit s := by
    rw [drained] at hfits hkept ⊢
    rw [onlyIf]
    split
    · rename_i hreceiver
      rw [if_pos hreceiver] at hfits hkept
      refine ends_bind (ends_recover ?_)
      refine (ends_each_persistExecutionOutput hs hfits).imp (fun _ t ht => hkept t ht)
        (fun _ t ht => ends_pure (hkept t ht)) (fun _ ht => ht)
    · exact ends_pure ⟨R, .all, hs⟩
  refine hloop.imp (fun _ t ht => ?_) (fun _ _ ht => ht) (fun _ ht => ht)
  obtain ⟨R', hR', ht⟩ := ht
  exact ends_bind (ends_modify (ends_modify ⟨R', hR', ht.setActive fun _ => rfl⟩))

theorem ends_flushLogTails (hs : FitsWith R s) (hfits : FlushFits R) :
    Ends (flushLogTails host answers) (fun _ => ChunksFit) (fun _ => ChunksFit) ChunksFit s := by
  obtain ⟨task, hactive, rfl⟩ := exists_active hs.2
  refine ends_withActive hactive (ends_bind (ends_modify ?_))
  exact (ends_each_persistExecutionOutput (hs.finish redactor_finishRedactors) hfits).imp
    (fun _ _ ⟨_, _, ht⟩ => ht.1) (fun _ _ ⟨_, _, ht⟩ => ht.1) (fun _ ht => ht)

theorem ends_handleTaskCancel (hactive : s.active = some task) (hs : ChunksFit s)
    (hfits : EventFits s answers task (.canceled cancel)) :
    Ends (handleTaskCancel host answers cancel) (fun _ => ChunksFit) (fun _ => ChunksFit)
      ChunksFit s := by
  have hquiet : ∀ (x : Act) (t : Agent), ChunksFit t → Leads SameLogs x →
      Ends x (fun _ => ChunksFit) (fun _ => ChunksFit) ChunksFit t :=
    fun x t ht hx => ends_of_sameLogs hx fun u hu => hu.chunksFit ht
  have hfail : ∀ reason, Leads SameLogs (failActiveTask reason none) := fun reason =>
    leads_failActiveTask SameLogs.refl SameLogs.trans (fun _ _ h => h) reason none
  refine ends_withActive hactive ?_
  split
  · exact ends_pure hs
  · rename_i haddressed
    have hwith : FitsWith task.redactor s := ⟨hs, redactors_of_active hactive⟩
    refine ends_bind (ends_modify ?_)
    split
    · exact hquiet _ _ hs (hfail _)
    · rename_i hgoes
      have hstops : stopsTask task answers cancel = true := by
        rw [stopsTask, Bool.eq_not_of_ne haddressed, Bool.eq_false_of_not_eq_true hgoes]
        rfl
      obtain ⟨houtputs, hflush⟩ := hfits hstops
      refine ends_bind (ends_modify (ends_bind ?_))
      refine Ends.imp (ends_stopExecution (R := task.redactor) ?_ houtputs)
        (fun _ t ht => ?_) (fun _ _ ht => ht) (fun _ ht => ht)
      · apply FitsWith.setActive
        · apply FitsWith.setActive hwith
          exact fun _ => rfl
        · exact fun _ => rfl
      · obtain ⟨R', hR', ht⟩ := ht
        apply ends_bind
        refine (ends_flushLogTails ht (hflush R' hR')).imp (fun _ u hu => ?_) (fun _ _ hu => hu)
          (fun _ hu => hu)
        split
        · exact hquiet _ _ hu (hfail _)
        · exact hquiet _ _ hu
            (leads_confirmCancellation SameLogs.refl SameLogs.trans (fun _ _ h => h))

/-- Without a task nothing is logged. -/
theorem ends_withActive_none {f : ActiveTask → Act} (h : s.active = none) (hs : ChunksFit s) :
    Ends (withActive f) (fun _ => ChunksFit) (fun _ => ChunksFit) ChunksFit s := by
  intro faults
  rw [Effect.Ends, withActive_apply_none h]
  exact hs

theorem ends_handle (event : LogEvent) (hs : ChunksFit s) (hfits : Fits s answers event) :
    Ends (event.handle host answers) (fun _ => ChunksFit) (fun _ => ChunksFit) ChunksFit s := by
  cases hactive : s.active with
  | none =>
      cases event with
      | output stream chunk => exact ends_withActive_none hactive hs
      | finished result =>
          refine ends_bind (ends_get (ends_bind (ends_modify (ends_bind (ends_modify ?_)))))
          rw [hactive]
          refine ends_bind (ends_pure (ends_of_sameLogs ?_ fun t ht => ht.chunksFit hs))
          exact leads_reportResult SameLogs.refl SameLogs.trans (fun _ _ h => h) result
      | canceled cancel => exact ends_withActive_none hactive hs
  | some task =>
      have hevent := hfits task hactive
      have hwith : FitsWith task.redactor s := ⟨hs, redactors_of_active hactive⟩
      cases event with
      | output stream chunk =>
          exact (ends_persistExecutionOutput hwith hevent.1).imp (fun _ _ ht => ht.1)
            (fun _ _ ht => ht.1.1) (fun _ ht => ht)
      | finished result => exact ends_finished hwith hevent
      | canceled cancel => exact ends_handleTaskCancel hactive hs hevent

/-! What the redactors of a task may hold back -/

/-- The values stay, and no more is held back than should be. -/
def KeepsBound (r r' : SensitiveLogRedactor) : Prop :=
  r'.values = r.values ∧ (Bounded r → Bounded r')

theorem KeepsBound.refl (r : SensitiveLogRedactor) : KeepsBound r r :=
  ⟨rfl, fun h => h⟩

theorem KeepsBound.trans (r r' r'' : SensitiveLogRedactor) (h : KeepsBound r r')
    (h' : KeepsBound r' r'') : KeepsBound r r'' :=
  ⟨h'.1.trans h.1, fun hr => h'.2 (h.2 hr)⟩

theorem keepsBound_redact (r : SensitiveLogRedactor) (chunk : Text) :
    KeepsBound r (r.redact chunk).2 :=
  ⟨values_redact r chunk, fun h => h.redact chunk⟩

theorem keepsBound_finish (r : SensitiveLogRedactor) : KeepsBound r r.finish.2 :=
  ⟨rfl, fun _ => bounded_finish r⟩

theorem leads_handle (event : LogEvent) :
    Leads (RedactorsLead KeepsBound) (event.handle host answers) := by
  cases event with
  | output stream chunk =>
      exact leads_handleExecutionEvent KeepsBound.refl KeepsBound.trans keepsBound_redact
        keepsBound_finish (.output stream chunk)
  | finished result =>
      exact leads_handleExecutionEvent KeepsBound.refl KeepsBound.trans keepsBound_redact
        keepsBound_finish (.finished result)
  | canceled cancel =>
      exact leads_handleTaskCancel KeepsBound.refl KeepsBound.trans keepsBound_redact
        keepsBound_finish cancel

/-! Values of a moderate length -/

/-- The redactors have these values and hold no more back than they should. -/
def Holds (values : List Text) (R : Redactors) : Prop :=
  ∀ stream, (R stream).values = values ∧ Bounded (R stream)

variable {values : List Text}

theorem byteLen_le_of_isRead (h : IsRead chunk) :
    byteLen chunk ≤ 3 * Execution.outputChunkBytes := by
  obtain ⟨read, rfl⟩ := h
  exact (byteLen_decodeLossy_le read.val).trans (Nat.mul_le_mul_left 3 read.property)

theorem ValuesFit.maxValueLen_le (h : ValuesFit values) :
    2 * maxValueLen values + 2 ≤ taskLogChunkMaxBytes := by
  have hle := AgentRedactor.maxValueLen_le fun value hvalue =>
    (show byteLen value ≤ 32767 by
      have hfits := (h value hvalue).2
      rw [taskLogChunkMaxBytes] at hfits
      omega)
  rw [taskLogChunkMaxBytes]
  omega

theorem ValuesFit.fitsMasked (h : ValuesFit values) {s : Text}
    (hs : byteLen s ≤ taskLogChunkMaxBytes) : FitsMasked taskLogChunkMaxBytes values s :=
  fitsMasked_of_byteLen_le (fun value hvalue => (h value hvalue).1) hs

theorem Holds.keeps (h : Holds values R) (hkept : ∀ stream, KeepsBound (R stream) (R' stream)) :
    Holds values R' :=
  fun stream => ⟨(hkept stream).1.trans (h stream).1, (hkept stream).2 (h stream).2⟩

theorem Holds.feed (h : Holds values R) (output : LogStream × Text) :
    Holds values (feed R output) :=
  h.keeps (feed_leads KeepsBound.refl keepsBound_redact R output)

theorem Holds.of_consumed (h : Holds values R) (hconsumed : Consumed R outputs R') :
    Holds values R' := by
  induction hconsumed with
  | all => exact h
  | next _ ih => exact ih (h.feed _)
  | stop _ => exact h.feed _

theorem outputsFit_of_holds (hvalues : ValuesFit values) (h : Holds values R)
    (hreads : ∀ output ∈ outputs, IsRead output.2) : OutputsFit R outputs := by
  induction outputs generalizing R with
  | nil => trivial
  | cons output outputs ih =>
      rw [List.forall_mem_cons] at hreads
      refine ⟨?_, ih (h.feed output) hreads.2⟩
      obtain ⟨hsame, hbounded⟩ := h output.1
      have hread := byteLen_le_of_isRead hreads.1
      have hreleased := hbounded.byteLen_released_le output.2
      have hmax := hvalues.maxValueLen_le
      rw [hsame] at hreleased ⊢
      apply hvalues.fitsMasked
      rw [Execution.outputChunkBytes] at hread
      rw [taskLogChunkMaxBytes] at hmax ⊢
      omega

/-- Outputs of different streams do not meet in a redactor. -/
theorem outputsFit_of_nodup (hnodup : (outputs.map Prod.fst).Nodup)
    (h : ∀ output ∈ outputs, FitsMasked taskLogChunkMaxBytes (R output.1).values
      ((R output.1).released output.2)) : OutputsFit R outputs := by
  induction outputs generalizing R with
  | nil => trivial
  | cons output outputs ih =>
      rw [List.forall_mem_cons] at h
      rw [List.map_cons, List.nodup_cons] at hnodup
      refine ⟨h.1, ih hnodup.2 fun other hother => ?_⟩
      have hne : other.1 ≠ output.1 := fun heq =>
        hnodup.1 (heq ▸ List.mem_map_of_mem hother)
      rw [AgentRuntime.feed, Function.update_of_ne hne]
      exact h.2 other hother

theorem Holds.pending_le (hvalues : ValuesFit values) (h : Holds values R) (stream : LogStream) :
    byteLen (R stream).pending ≤ taskLogChunkMaxBytes := by
  have hle := (h stream).2.pending_le
  rw [(h stream).1] at hle
  exact hle.trans hvalues.maxValueLen_le

theorem flushFits_of_holds (hvalues : ValuesFit values) (h : Holds values R) : FlushFits R := by
  have htails : (tailsOf R).Sublist
      [(.stdout, (R .stdout).finish.1), (.stderr, (R .stderr).finish.1)] := List.filter_sublist
  apply outputsFit_of_nodup
  · have hstreams : [LogStream.stdout, LogStream.stderr].Nodup := by decide
    exact (htails.map Prod.fst).nodup hstreams
  · intro tail htail
    have htext : tail.2 = (R tail.1).finish.1 := by
      have hmem := htails.subset htail
      simp only [List.mem_cons, List.not_mem_nil, or_false] at hmem
      rcases hmem with rfl | rfl
      · rfl
      · rfl
    have hshort : ∀ value ∈ (R tail.1).values, byteLen redactedMarker ≤ byteLen value := by
      rw [(h tail.1).1]
      exact fun value hvalue => (hvalues value hvalue).1
    have hmasked : byteLen tail.2 ≤ byteLen (R tail.1).pending := by
      rw [htext]
      exact byteLen_redactText_le hshort _
    have hreleased := AgentRedactor.byteLen_released_le (finishAll R tail.1) tail.2
    have hpending := h.pending_le hvalues tail.1
    have hnil : byteLen (finishAll R tail.1).pending = 0 := rfl
    have hsame : (finishAll R tail.1).values = values := (h tail.1).1
    rw [hsame]
    apply hvalues.fitsMasked
    omega

theorem fits_of_holds (hvalues : ValuesFit values)
    (hreads : FromReads answers event)
    (h : ∀ R, s.redactors = some R → Holds values R) : Fits s answers event := by
  intro task hactive
  have hholds := h task.redactor (redactors_of_active hactive)
  cases event with
  | output stream chunk =>
      refine outputsFit_of_holds hvalues hholds fun output houtput => ?_
      rw [List.mem_singleton.mp houtput]
      exact hreads
  | finished result =>
      intro stream
      rw [(hholds stream).1]
      exact hvalues.fitsMasked (hholds.pending_le hvalues stream)
  | canceled cancel =>
      intro _
      have hdrained : ∀ output ∈ drained s answers, IsRead output.2 := by
        intro output houtput
        rw [drained] at houtput
        split at houtput
        · exact hreads output houtput
        · exact absurd houtput List.not_mem_nil
      exact ⟨outputsFit_of_holds hvalues hholds hdrained,
        fun R hR => flushFits_of_holds hvalues (hholds.of_consumed hR)⟩

/-! The runs of a task -/

section Runs

variable {encode : JsNumber → Text} {config : Json} {sensitiveConfigKeys : List JsString}
  {allowed : Agent → Answers → LogEvent → Prop}

theorem LogStep.chunksFit (h : LogStep host Fits s t) (hs : ChunksFit s) : ChunksFit t := by
  cases h with
  | handle hreads hallowed => exact (ends_handle _ hs hallowed).run _
  | other hemitted hredactors =>
      rw [ChunksFit, hemitted]
      exact hs

theorem chunksFit_of_init
    (h : (logSystem host encode config sensitiveConfigKeys allowed).init s) : ChunksFit s := by
  intro entry hentry
  rw [h.1] at hentry
  exact absurd hentry List.not_mem_nil

theorem Holds.of_redactorsLead (hs : ∀ R, s.redactors = some R → Holds values R)
    (h : RedactorsLead KeepsBound s t) (hR' : t.redactors = some R') : Holds values R' := by
  rw [RedactorsLead, hR'] at h
  cases hR : s.redactors with
  | none =>
      rw [hR] at h
      cases h
  | some R =>
      rw [hR] at h
      cases h with
      | some hkept => exact (hs R hR).keeps hkept

theorem LogStep.holds (h : LogStep host allowed s t)
    (hs : ∀ R, s.redactors = some R → Holds values R) :
    ∀ R, t.redactors = some R → Holds values R := by
  intro R' hR'
  cases h with
  | handle hreads hallowed =>
      refine Holds.of_redactorsLead hs ?_ hR'
      exact ((leads_handle _).ends s).run _
  | other hemitted hredactors =>
      rcases hredactors with hsame | hnone
      · exact hs R' (hsame.symm.trans hR')
      · rw [hnone] at hR'
        cases hR'

theorem holds_of_reachable
    (h : (logSystem host encode config sensitiveConfigKeys allowed).Reachable s) :
    ∀ R, s.redactors = some R →
      Holds (agentRedactor encode config sensitiveConfigKeys).values R := by
  refine TransitionSystem.Reachable.invariant (p := fun s => ∀ R, s.redactors = some R →
    Holds (agentRedactor encode config sensitiveConfigKeys).values R) ?_ ?_ h
  · rintro s ⟨-, hredactors⟩ R hR stream
    obtain rfl := Option.some.inj (hredactors.symm.trans hR)
    exact ⟨rfl, bounded_of_pending_nil rfl⟩
  · intro s t _ hs hstep
    exact LogStep.holds hstep hs

/-- An output of which too much is let out at once leads to a log that the server does not take. -/
theorem exists_not_chunksFit
    (h : (logSystem host encode config sensitiveConfigKeys fun _ _ _ => True).Reachable s)
    (hactive : s.active = some task) (hread : IsRead chunk)
    (hlong : taskLogChunkMaxBytes < byteLen ((task.redactor stream).redact chunk).1) :
    ∃ t, (logSystem host encode config sensitiveConfigKeys fun _ _ _ => True).Reachable t ∧
      ¬ ChunksFit t := by
  have hne : ((task.redactor stream).redact chunk).1 ≠ [] := by
    intro hnil
    rw [hnil] at hlong
    exact absurd hlong (Nat.not_lt_zero _)
  obtain ⟨entry, hentry, hchunk⟩ :=
    (@ends_persistExecutionOutput_emit host demoAnswers _ _ stream _ hactive hne).run []
  refine ⟨_, h.step (@LogStep.handle host (fun _ _ _ => True) _ demoAnswers
    (.output stream chunk) [] hread trivial), fun hfits => ?_⟩
  have hle := hfits entry hentry
  rw [hchunk] at hle
  exact Nat.not_le_of_lt hlong hle

end Runs

/-! A password of a moderate length -/

def moderateConfig : Json :=
  .object [(JsString.ofString "token", .string (JsString.ofString "correct horse"))]

def moderateRedactor : SensitiveLogRedactor :=
  agentRedactor (fun _ => []) moderateConfig [JsString.ofString "token"]

def moderateRead : Filled :=
  ⟨Utf8.encode "the token is correct horse, and it is kept".toList, by decide⟩

theorem valuesFit_moderate : ValuesFit moderateRedactor.values := by
  have hvalues : moderateRedactor.values =
      ["\"correct horse\"".toList, "correct horse".toList] := by
    decide
  rw [hvalues]
  intro value hvalue
  simp only [List.mem_cons, List.not_mem_nil, or_false] at hvalue
  rcases hvalue with rfl | rfl
  · decide
  · decide

theorem redact_moderate_ne_nil :
    (moderateRedactor.redact (Utf8.decodeLossy moderateRead.val)).1 ≠ [] := by
  decide

/-- Nothing straddles a cut of one symbol. -/
theorem replaceAll_singleton_append (c : Char) (r x y : Text) :
    Replacement.replaceAll [c] r (x ++ y) =
      Replacement.replaceAll [c] r x ++ Replacement.replaceAll [c] r y := by
  apply Replacement.replaceAll_append (List.cons_ne_nil c [])
  rintro ⟨u, w, hu, hw, heq, -, -⟩
  have hlength := congrArg List.length heq
  have hu := List.length_pos_of_ne_nil hu
  have hw := List.length_pos_of_ne_nil hw
  rw [List.length_append, List.length_singleton] at hlength
  omega

def shortValues : List Text :=
  ["\"1\"".toList, "\"E\"".toList, ['1'], ['E']]

def shortConfig : Json :=
  .object [(JsString.ofString "pin", .string (JsString.ofString "1")),
    (JsString.ofString "grade", .string (JsString.ofString "E"))]

def shortRedactor : SensitiveLogRedactor :=
  agentRedactor (fun _ => []) shortConfig [JsString.ofString "pin", JsString.ofString "grade"]

theorem values_shortRedactor : shortRedactor.values = shortValues := by
  decide

/-- Every digit becomes a marker, and every letter of these another one. -/
theorem byteLen_redactText_ones (k : Nat) :
    byteLen (redactText (List.replicate k '1') shortValues) = 28 * k := by
  induction k with
  | zero => rfl
  | succ k ih =>
      have hquoted : ∀ (value : Text) (j : Nat), '"' ∈ value →
          Replacement.replaceAll value redactedMarker (List.replicate j '1') =
            List.replicate j '1' := by
        intro value j hquote
        apply Replacement.replaceAll_eq_self
        intro hocc
        have hmem := List.eq_of_mem_replicate (hocc.subset hquote)
        exact absurd hmem (by decide)
      have hmasked : ∀ j, redactText (List.replicate j '1') shortValues =
          Replacement.replaceAll ['E'] redactedMarker
            (Replacement.replaceAll ['1'] redactedMarker (List.replicate j '1')) := by
        intro j
        rw [redactText, shortValues, Masking.maskAll_cons, hquoted _ j (by decide),
          Masking.maskAll_cons, hquoted _ j (by decide)]
        rfl
      have hone : byteLen (Replacement.replaceAll ['E'] redactedMarker
          (Replacement.replaceAll ['1'] redactedMarker ['1'])) = 28 := by
        decide
      have hcons : List.replicate (k + 1) '1' = ['1'] ++ List.replicate k '1' := rfl
      rw [hmasked] at ih ⊢
      rw [hcons, replaceAll_singleton_append, replaceAll_singleton_append, byteLen_append, hone, ih]
      omega

/-- One read of nothing but that digit. -/
def onesRead : Filled :=
  ⟨List.replicate Execution.outputChunkBytes 0x31, by rw [List.length_replicate]⟩

theorem decodeLossy_ones (k : Nat) :
    Utf8.decodeLossy (List.replicate k 0x31) = List.replicate k '1' := by
  have hencode : Utf8.encode (List.replicate k '1') = List.replicate k 0x31 := by
    induction k with
    | zero => rfl
    | succ k ih =>
        rw [List.replicate_succ, Utf8.encode_cons, ih]
        rfl
  rw [← hencode, Utf8.decodeLossy_encode]

theorem byteLen_ones (k : Nat) : byteLen (List.replicate k '1') = k := by
  induction k with
  | zero => rfl
  | succ k ih =>
      rw [List.replicate_succ, byteLen, ih, Nat.add_comm]
      rfl

theorem taskLogChunkMaxBytes_lt_redact :
    taskLogChunkMaxBytes <
      byteLen (shortRedactor.redact (Utf8.decodeLossy onesRead.val)).1 := by
  have hvalues : shortRedactor.values ≠ [] := by
    rw [values_shortRedactor]
    exact List.cons_ne_nil _ _
  obtain ⟨hall, hheld, -⟩ := released_pending hvalues (Utf8.decodeLossy onesRead.val)
  have hmax : maxValueLen shortRedactor.values = 3 := by
    rw [values_shortRedactor]
    decide
  have hones : Utf8.decodeLossy onesRead.val = List.replicate Execution.outputChunkBytes '1' :=
    decodeLossy_ones _
  have hsize : Execution.outputChunkBytes = 4096 := rfl
  have hfresh : byteLen shortRedactor.pending = 0 := rfl
  rw [hones] at hall hheld ⊢
  have hlength := congrArg byteLen hall
  obtain ⟨-, hreleased, -⟩ := List.append_eq_replicate_iff.mp hall
  rw [byteLen_append, byteLen_append, byteLen_ones, hreleased, byteLen_ones] at hlength
  rw [redact_fst, values_shortRedactor, hreleased, byteLen_redactText_ones, taskLogChunkMaxBytes]
  omega

end AnvilRun.AgentRuntime
