import AnvilRun.AgentRuntime.ReportedSuccess
import AnvilRun.LogBuffer.Numbering

namespace AnvilRun.AgentRuntime

open AnvilRun.AgentContracts
open AnvilRun.AgentRedactor (Text SensitiveLogRedactor)
open AnvilRun.AssignmentChecks (validateAssignment)
open AnvilRun.Execution (ExecutionEvent ExecutionResult)
open AnvilRun.Interruptible
open AnvilRun.LogBuffer (Appender Counting EntryFormat LooksAtFile Settled storedSequence)

/-- What holds of the log of the active task, if there is one. -/
def Agent.LogIs (q : Appender → Prop) (s : Agent) : Prop :=
  ∀ task, s.active = some task → q task.logs

/-- The last entry of the buffer is the one before the next sequence. -/
def Numbered (logs : Appender) : Prop :=
  logs.host.buffer.lastAppendedSequence + 1 = logs.nextSequence

/-- The buffer and the next sequence agree, and handling the events of a command, no entry is
refused for its sequence. `allowed` says which turns may be next. -/
structure InSequence (settings : Settings) (allowed : Process → Turn → Prop) (p : Process) :
    Prop where
  numbered : p.agent.LogIs Numbered
  accepted : ∀ turn event t, allowed p turn → turn.event = .execution event →
    handle settings turn.outside turn.event ⟨p, turn.faults⟩ ≠
      (.error (.failed (.logBuffer .invalidRecord)), t)

/-! Which turns are allowed -/

/-- The log is ready for `k` texts: when there are some, the file is as the buffer knows it, and
the sequences do not run out. -/
def ReadyFor (format : EntryFormat) (k : Nat) (logs : Appender) : Prop :=
  0 < k → Settled format logs.host ∧ logs.nextSequence + k ≤ u64Max

/-- How many texts an event of the command leads to. -/
def ActiveTask.textsOf (task : ActiveTask) : ExecutionEvent → Nat
  | .output stream chunk => if ((task.redactor stream).redact chunk).1 = [] then 0 else 1
  | .finished _ => task.tails.length

/-- The agent when it has given up the preparation, the upload and the input of a task. -/
def Agent.halted (answers : Answers) (s : Agent) : Agent :=
  { s with
    active := s.active.map fun task =>
      { task with
        preparation := false
        workspace := task.workspace || answers.preparationWorkspace
        artifactUpload := false
        executionInput := false
        executionCancel := false } }

/-- The log is ready for what a command prints until it is stopped, and then for the texts that the
redactors hold back. -/
def ReadyToCancel (host : Host) (answers : Answers) (s : Faulty Agent) : Prop :=
  (s.state.executionReceiver = true →
    s.state.LogIs (ReadyFor host.format answers.outputs.length)) ∧
  Effect.Ends (stopExecution host answers)
    (fun _ t => ∀ task, t.state.active = some task →
      ReadyFor host.format task.tails.length task.logs)
    (fun _ _ => True) ⟨s.state.halted answers, s.faults⟩

/-- The file is as the buffer knows it when an acknowledgement makes the buffer look at it. -/
def ReadyToAcknowledge (format : EntryFormat) (sequence : Nat) (logs : Appender) : Prop :=
  LooksAtFile sequence logs.host → Settled format logs.host

/-- A task starts with a file that has no record, and whatever the turn makes of the log of the
active task, the log is ready for it. -/
def LogReady (settings : Settings) (p : Process) (turn : Turn) : Prop :=
  match turn.event with
  | .assignment payload =>
      validateAssignment settings.checks turn.outside.now settings.agentId payload = .ok () →
        p.agent.active = none → storedSequence settings.host.format (p.disks payload.taskId) = 0
  | .execution event => ∀ task, p.agent.active = some task →
      ReadyFor settings.host.format (task.textsOf event) task.logs
  | .logAck payload => ∀ task, p.agent.active = some task →
      task.assignment.taskId = payload.taskId →
        ReadyToAcknowledge settings.host.format payload.acknowledgedSequence task.logs
  | .cancel cancel => ∀ task, p.agent.active = some task → task.isAddressed cancel = true →
      ReadyToCancel settings.host turn.outside.toAnswers ⟨p.agent, turn.faults⟩
  | .connection (some payload) => ∀ task, p.agent.active = some task →
      (payload.action ≠ .abandon →
        ReadyToAcknowledge settings.host.format payload.acknowledgedLogSequence task.logs) ∧
      (payload.action = .cancel →
        Effect.Ends (acknowledgeLogs settings.host task payload.acknowledgedLogSequence)
          (fun _ t => ReadyToCancel settings.host turn.outside.toAnswers t) (fun _ _ => True)
          ⟨p.agent, turn.faults⟩)
  | _ => True

/-! What a handler does to the log of the task -/

variable {settings : Settings} {host : Host} {answers : Answers} {outside : Surroundings}
  {p : Process} {s t : Agent} {task : ActiveTask} {k : Nat} {q q' : Appender → Prop}

/-- The buffer counts, and it is ready for `k` entries. -/
def Ready (format : EntryFormat) (k : Nat) (logs : Appender) : Prop :=
  Counting k logs ∧ Settled format logs.host

theorem Agent.LogIs.imp (h : s.LogIs q) (himp : ∀ logs, q logs → q' logs) : s.LogIs q' :=
  fun task htask => himp _ (h task htask)

theorem Agent.LogIs.map {g : ActiveTask → ActiveTask} (h : s.LogIs q)
    (hg : ∀ task, (g task).logs = task.logs) :
    Agent.LogIs q { s with active := s.active.map g } := by
  intro task htask
  obtain ⟨old, hold, rfl⟩ := Option.map_eq_some_iff.mp htask
  rw [hg]
  exact h old hold

theorem Agent.LogIs.setLogs {logs : Appender} (h : q logs) (s : Agent) :
    (s.setLogs logs).LogIs q := by
  intro task htask
  obtain ⟨old, hold, rfl⟩ := Option.map_eq_some_iff.mp htask
  exact h

theorem logIs_none (hnone : s.active = none) : s.LogIs q := by
  intro task htask
  rw [hnone] at htask
  cases htask

/-- The handler leaves the log as it is, and it does not refuse an entry. -/
def Silent (q : Appender → Prop) (action : Act) (s : Agent) : Prop :=
  Ends action (fun _ => Agent.LogIs q)
    (fun e t => e ≠ .logBuffer .invalidRecord ∧ t.LogIs q) (Agent.LogIs q) s

theorem Silent.stays {action : Act} (h : Silent q action s) : Stays (Agent.LogIs q) action s :=
  Ends.imp h (fun _ _ ht => ht) (fun _ _ ht => ht.2) fun _ ht => ht

theorem Silent.bind {action : Act} {f : Unit → Act} (h : Silent q action s)
    (hf : ∀ t, t.LogIs q → Silent q (f ()) t) : Silent q (action >>= f) s :=
  ends_bind (Ends.imp h (fun _ t ht => hf t ht) (fun _ _ ht => ht) fun _ ht => ht)

theorem silent_withActive {f : ActiveTask → Act} (h : s.LogIs q)
    (hf : ∀ task, Silent q (f task) s) : Silent q (withActive f) s := by
  refine ends_bind (ends_get ?_)
  cases s.active with
  | none => exact ends_pure h
  | some task => exact hf task

theorem silent_modifyTask {g : ActiveTask → ActiveTask} (h : s.LogIs q)
    (hg : ∀ task, (g task).logs = task.logs) : Silent q (modifyTask g) s :=
  ends_modify (h.map hg)

theorem silent_protocol (h : s.LogIs q) (message : String) :
    Silent q (fail (.protocol message)) s :=
  ends_fail ⟨fun heq => AgentError.noConfusion heq, h⟩

theorem silent_send (h : s.LogIs q) (message : Message) : Silent q (send message) s := by
  have hreached : ∀ reached : Nat, (if reached = 0 then s else s.push message).LogIs q := by
    intro reached
    split
    · exact h
    · exact h
  exact ends_call h (fun reached => ⟨fun heq => AgentError.noConfusion heq, hreached reached⟩)
    hreached

theorem silent_sendLogBestEffort (h : s.LogIs q) (message : Message) :
    Silent q (sendLogBestEffort message) s := by
  refine ends_bind (ends_elapses (fun late => ?_) h)
  split
  · refine ends_recover (Ends.imp (silent_send h message) (fun _ _ ht => ht) ?_ fun _ ht => ht)
    exact fun _ t ht => ends_pure ht.2
  · exact silent_send h message

theorem silent_failActiveTask (h : s.LogIs q) (reason : String) (exitCode : Option Int) :
    Silent q (failActiveTask reason exitCode) s :=
  silent_withActive h fun _ =>
    Silent.bind (silent_modifyTask h fun _ => rfl) fun _ ht => silent_send ht _

theorem silent_confirmCancellation (h : s.LogIs q) : Silent q confirmCancellation s :=
  silent_withActive h fun _ =>
    Silent.bind (silent_modifyTask h fun _ => rfl) fun _ ht => silent_send ht _

theorem silent_reportArtifacts (h : s.LogIs q) : Silent q (reportArtifacts host answers) s := by
  refine silent_withActive h fun task => ?_
  split
  · exact silent_protocol h _
  · split
    · exact silent_failActiveTask h _ _
    · refine Silent.bind (silent_modifyTask h fun _ => rfl) fun t ht => ?_
      split
      · exact silent_failActiveTask ht _ _
      · exact silent_send ht _

theorem silent_reportResult (h : s.LogIs q) (result : ExecutionResult) :
    Silent q (reportResult host answers result) s := by
  rw [reportResult]
  split
  · exact silent_failActiveTask h _ _
  · split
    · exact silent_failActiveTask h _ _
    · split
      · exact (silent_withActive h fun _ => silent_send h _).bind fun _ ht =>
          silent_reportArtifacts ht
      · exact silent_failActiveTask h _ _
      · exact silent_failActiveTask h _ _

/-! The output of the command -/

/-- The handler uses up an entry, if any, and refuses none. -/
def Appends (format : EntryFormat) (k : Nat) (action : Act) (s : Agent) : Prop :=
  Ends action (fun _ => Agent.LogIs (Ready format k))
    (fun e t => e ≠ .logBuffer .invalidRecord ∧ t.LogIs (Counting k)) (fun _ => True) s

theorem Ready.weaken {format : EntryFormat} {j : Nat} {logs : Appender} (h : Ready format k logs)
    (hj : j ≤ k) : Ready format j logs :=
  ⟨h.1.weaken hj, h.2⟩

theorem Silent.appends {format : EntryFormat} {action : Act}
    (h : Silent (Ready format k) action s) : Appends format k action s :=
  Ends.imp h (fun _ _ ht => ht) (fun _ _ ht => ⟨ht.1, ht.2.imp fun _ hlogs => hlogs.1⟩)
    fun _ _ => trivial

theorem appends_persistAndSendLog (h : s.LogIs (Ready host.format (k + 1))) (stream : LogStream)
    (chunk : Text) : Appends host.format k (persistAndSendLog host answers stream chunk) s := by
  refine ends_bind (ends_get ?_)
  cases hactive : s.active with
  | none => exact ends_pure (logIs_none hactive)
  | some task =>
      obtain ⟨hcounting, hsettled⟩ := h task hactive
      refine ends_bind (ends_modify (ends_bind (ends_zoom (Ends.imp
        (LogBuffer.ends_appendLogAndAdvance_counting hcounting hsettled rfl) ?_ ?_ ?_))))
      · intro appended logs hlogs
        have hset : ((s.emit (task.entry answers stream chunk)).setLogs logs).LogIs
            (Ready host.format k) := Agent.LogIs.setLogs hlogs _
        rw [Effect.onlyIf]
        split
        · exact (silent_sendLogBestEffort hset _).appends
        · exact ends_pure hset
      · rintro e logs ⟨rfl, hlogs⟩
        refine ⟨fun heq => ?_, Agent.LogIs.setLogs hlogs _⟩
        cases heq
      · exact fun _ _ => trivial

theorem appends_persistExecutionOutput (h : s.LogIs (Ready host.format (k + 1)))
    (stream : LogStream) (chunk : Text) :
    Appends host.format k (persistExecutionOutput host answers stream chunk) s := by
  refine ends_bind (ends_get ?_)
  cases hactive : s.active with
  | none => exact ends_pure (logIs_none hactive)
  | some task =>
      refine ends_bind (ends_modify ?_)
      have hset : Agent.LogIs (Ready host.format (k + 1)) { s with
          active := s.active.map fun task =>
            task.setRedactor stream ((task.redactor stream).redact chunk).2 } :=
        h.map fun _ => by cases stream <;> rfl
      rw [Effect.onlyIf]
      split
      · exact appends_persistAndSendLog hset stream _
      · exact ends_pure (hset.imp fun _ hlogs => hlogs.weaken (Nat.le_succ k))

theorem Agent.LogIs.ready {format : EntryFormat} (h : s.LogIs (Counting 0)) (hk : 0 < k)
    (hready : s.LogIs (ReadyFor format k)) : s.LogIs (Ready format k) := by
  intro task htask
  obtain ⟨hsettled, hroom⟩ := hready task htask hk
  exact ⟨⟨(h task htask).numbered, hroom⟩, hsettled⟩

/-- The handler refuses no entry, and the log counts on. -/
def Counts (action : Act) (s : Agent) : Prop :=
  Ends action (fun _ => Agent.LogIs (Counting 0))
    (fun e t => e ≠ .logBuffer .invalidRecord ∧ t.LogIs (Counting 0)) (fun _ => True) s

theorem Appends.counts {format : EntryFormat} {action : Act} (h : Appends format 0 action s) :
    Counts action s :=
  Ends.imp h (fun _ _ ht => ht.imp fun _ hlogs => hlogs.1) (fun _ _ ht => ht) fun _ ht => ht

theorem Silent.counts {action : Act} (h : Silent (Counting 0) action s) : Counts action s :=
  Ends.imp h (fun _ _ ht => ht) (fun _ _ ht => ht) fun _ _ => trivial

theorem Counts.bind {action : Act} {f : Unit → Act} (h : Counts action s)
    (hf : ∀ t, t.LogIs (Counting 0) → Counts (f ()) t) : Counts (action >>= f) s :=
  ends_bind (Ends.imp h (fun _ t ht => hf t ht) (fun _ _ ht => ht) fun _ ht => ht)

/-- What the handler of one text does, it does for several of them. -/
theorem counts_each {f : LogStream × Text → Act} {items : List (LogStream × Text)}
    (hf : ∀ item n t, t.LogIs (Ready host.format (n + 1)) → Appends host.format n (f item) t)
    (h : s.LogIs (Counting 0)) (hready : s.LogIs (ReadyFor host.format items.length)) :
    Counts (each f items) s := by
  cases items with
  | nil => exact ends_pure h
  | cons item items =>
      refine Appends.counts (ends_each_down (p := fun n => Agent.LogIs (Ready host.format n)) ?_
        (h.ready (Nat.succ_pos _) hready))
      intro item n t hle ht
      exact Ends.imp (hf item n t ht) (fun _ _ hu => hu)
        (fun _ _ hu => ⟨hu.1, hu.2.imp fun _ hlogs => hlogs.weaken hle⟩) fun _ hu => hu

theorem counts_output (h : s.LogIs (Counting 0)) {stream : LogStream} {chunk : Text}
    (hready : ∀ task, s.active = some task →
      ReadyFor host.format (task.textsOf (.output stream chunk)) task.logs) :
    Counts (persistExecutionOutput host answers stream chunk) s := by
  refine ends_bind (ends_get ?_)
  cases hactive : s.active with
  | none => exact ends_pure h
  | some task =>
      have hready := hready task hactive
      have hset : ∀ task : ActiveTask,
          (task.setRedactor stream ((task.redactor stream).redact chunk).2).logs = task.logs :=
        fun _ => by cases stream <;> rfl
      refine ends_bind (ends_modify ?_)
      rw [Effect.onlyIf]
      split
      · rename_i htext
        rw [ActiveTask.textsOf, if_neg htext] at hready
        have hone : s.LogIs (Ready host.format 1) := by
          refine h.ready Nat.one_pos fun current hcurrent => ?_
          rw [hactive] at hcurrent
          obtain rfl := Option.some.inj hcurrent
          exact hready
        exact (appends_persistAndSendLog (hone.map hset) stream _).counts
      · exact ends_pure (h.map hset)

theorem counts_handleExecutionEvent (answers : Answers) {event : ExecutionEvent}
    (h : s.LogIs (Counting 0))
    (hready : ∀ task, s.active = some task →
      ReadyFor host.format (task.textsOf event) task.logs) :
    Counts (handleExecutionEvent host answers event) s := by
  cases event with
  | output stream chunk => exact counts_output h hready
  | finished result =>
      have hended : s.ended.LogIs (Counting 0) := h.map fun _ => rfl
      have hlast : s.ended.LogIs
          (ReadyFor host.format ((s.active.map ActiveTask.tails).getD []).length) := by
        intro task htask
        obtain ⟨old, hold, rfl⟩ := Option.map_eq_some_iff.mp htask
        rw [hold]
        exact hready old hold
      refine ends_bind (ends_get (ends_bind (ends_modify (ends_bind (ends_modify ?_)))))
      refine Counts.bind (counts_each (fun tail n t ht => ?_) hended hlast) fun t ht => ?_
      · exact appends_persistAndSendLog ht tail.1 tail.2
      · exact (silent_reportResult ht result).counts

theorem ends_stopExecution_counting (h : s.LogIs (Counting 0))
    (hready : s.executionReceiver = true →
      s.LogIs (ReadyFor host.format answers.outputs.length)) :
    Ends (stopExecution host answers) (fun _ => Agent.LogIs (Counting 0)) (fun _ _ => False)
      (fun _ => True) s := by
  have hend : ∀ t, t.LogIs (Counting 0) →
      Ends (do
          modify fun s => { s with executionReceiver := false }
          modifyTask fun task => { task with execution := false } : Act)
        (fun _ => Agent.LogIs (Counting 0)) (fun _ _ => False) (fun _ => True) t := by
    intro t ht
    exact ends_bind (ends_modify (ends_modify (ht.map fun _ => rfl)))
  refine ends_bind (ends_get (ends_bind ?_))
  rw [Effect.onlyIf]
  split
  · rename_i hreceiver
    have hloop : Ends (recover (each (fun output =>
          persistExecutionOutput host answers output.1 output.2) answers.outputs) fun _ => pure ())
        (fun _ => Agent.LogIs (Counting 0)) (fun _ _ => False) (fun _ => True) s := by
      refine ends_recover (Ends.imp (counts_each
        (fun output n t ht => appends_persistExecutionOutput ht output.1 output.2) h
        (hready hreceiver)) (fun _ _ ht => ht) ?_ fun _ ht => ht)
      exact fun _ t ht => ends_pure ht.2
    refine ends_bind (hloop.imp (fun _ t ht => ?_) (fun _ _ ht => ht) fun _ ht => ht)
    rw [Effect.onlyIf]
    split
    · exact ends_modify (hend _ (ht.map fun _ => rfl))
    · exact ends_pure (hend t ht)
  · exact ends_pure (hend s h)

theorem counts_flushLogTails (h : s.LogIs (Counting 0))
    (hready : ∀ task, s.active = some task →
      ReadyFor host.format task.tails.length task.logs) :
    Counts (flushLogTails host answers) s := by
  refine ends_bind (ends_get ?_)
  cases hactive : s.active with
  | none => exact ends_pure h
  | some task =>
      have hlast : s.LogIs (ReadyFor host.format task.tails.length) := by
        intro current hcurrent
        rw [hactive] at hcurrent
        obtain rfl := Option.some.inj hcurrent
        exact hready _ hactive
      have hset : Agent.LogIs (ReadyFor host.format task.tails.length)
          { s with active := s.active.map ActiveTask.finishRedactors } := hlast.map fun _ => rfl
      refine ends_bind (ends_modify (counts_each (fun tail n t ht => ?_) (h.map fun _ => rfl) hset))
      exact appends_persistExecutionOutput ht tail.1 tail.2

/-! A cancellation -/

theorem halted_eq (answers : Answers) (s : Agent) :
    { s with
      active := (s.active.map fun task =>
        { task with
          preparation := false
          workspace := task.workspace || answers.preparationWorkspace }).map fun task =>
        { task with
          artifactUpload := false
          executionInput := false
          executionCancel := false } } = s.halted answers := by
  rw [Option.map_map]
  rfl

theorem holds_stopTask {s : Faulty Agent} (h : s.state.LogIs (Counting 0))
    (hready : ReadyToCancel host answers s) :
    Holds (Agent.LogIs (Counting 0)) (do
      stopExecution host answers
      flushLogTails host answers
      if answers.preparationCleanupFailed then failActiveTask cleanupFailure none
      else confirmCancellation) ⟨s.state.halted answers, s.faults⟩ := by
  have hhalted : (s.state.halted answers).LogIs (Counting 0) := h.map fun _ => rfl
  have hstopped := (ends_stopExecution_counting hhalted (fun hreceiver =>
    (hready.1 hreceiver).map fun _ => rfl) s.faults).and hready.2
  refine holds_bind (hstopped.imp ?_ ?_)
  · rintro _ t ⟨hcounting, hfits⟩
    refine Ends.holds (Counts.bind (counts_flushLogTails hcounting hfits) fun u hu => ?_)
      (fun _ _ hu => hu) fun _ _ hu => hu.2
    split
    · exact (silent_failActiveTask hu _ _).counts
    · exact (silent_confirmCancellation hu).counts
  · rintro (e | -) t ⟨hfalse, -⟩
    · exact hfalse.elim
    · exact trivial

theorem holds_handleTaskCancel {s : Faulty Agent} {cancel : TaskCancelPayload}
    (h : s.state.LogIs (Counting 0))
    (hready : ∀ task, s.state.active = some task → task.isAddressed cancel = true →
      ReadyToCancel host answers s) :
    Holds (Agent.LogIs (Counting 0)) (handleTaskCancel host answers cancel) s := by
  refine holds_bind ?_
  show Holds _ (Effect.ifSome s.state.active _) s
  cases hactive : s.state.active with
  | none => exact h
  | some task =>
      show Holds _ (if task.isAddressed cancel = false then _ else _) s
      split
      · exact h
      · rename_i haddressed
        rw [Bool.not_eq_false] at haddressed
        have hstop := holds_stopTask h (hready task hactive haddressed)
        rw [← halted_eq] at hstop
        refine holds_bind ?_
        show Holds _ (if _ then _ else _) _
        split
        · refine Stays.holds (silent_failActiveTask ?_ _ _).stays
          exact h.map fun _ => rfl
        · exact holds_bind hstop

/-! The other handlers of the task -/

theorem ends_acknowledgeLogs (h : s.LogIs (Counting 0)) (hactive : s.active = some task)
    {sequence : Nat} (hready : ReadyToAcknowledge host.format sequence task.logs) :
    Ends (acknowledgeLogs host task sequence) (fun _ => Agent.LogIs (Counting 0))
      (fun _ => Agent.LogIs (Counting 0)) (fun _ => True) s := by
  have hset : ∀ u : LogBuffer.Host,
      LogBuffer.HasLast task.logs.host.buffer.lastAppendedSequence u →
      (s.setLogs (task.logs.setHost u)).LogIs (Counting 0) := by
    intro u hlast
    obtain ⟨hnumbered, hroom⟩ := h task hactive
    exact Agent.LogIs.setLogs ⟨(congrArg (· + 1) hlast).trans hnumbered, hroom⟩ s
  exact ends_zoom (Ends.imp (LogBuffer.ends_acknowledge_last hready)
    (fun _ => hset) (fun _ => hset) fun _ _ => trivial)

theorem ends_handleLogAck (h : s.LogIs (Counting 0)) {payload : TaskLogAckPayload}
    (hready : ∀ task, s.active = some task → task.assignment.taskId = payload.taskId →
      ReadyToAcknowledge host.format payload.acknowledgedSequence task.logs) :
    Ends (handleLogAck host payload) (fun _ => Agent.LogIs (Counting 0))
      (fun _ => Agent.LogIs (Counting 0)) (fun _ => True) s := by
  refine ends_bind (ends_get ?_)
  cases hactive : s.active with
  | none => exact ends_pure h
  | some task =>
      show Ends (Effect.onlyIf _ _) _ _ _ s
      rw [Effect.onlyIf]
      split
      · rename_i htask
        exact ends_acknowledgeLogs h hactive (hready task hactive htask)
      · exact ends_pure h

theorem silent_sendManifest (h : s.LogIs q) : Silent q (sendManifest host answers) s := by
  refine silent_withActive h fun task => ?_
  split
  · exact silent_protocol h _
  · split
    · exact silent_failActiveTask h _ _
    · exact silent_send h _

theorem silent_resumeArtifacts (h : s.LogIs q) (task : ActiveTask) :
    Silent q (resumeArtifacts host answers task) s := by
  rw [resumeArtifacts]
  split
  · exact silent_sendManifest h
  · split
    · exact silent_protocol h _
    · split
      · exact silent_failActiveTask h _ _
      · refine Silent.bind (silent_modifyTask h fun _ => rfl) fun _ ht => ?_
        exact silent_sendManifest ht

theorem silent_handleArtifactManifestAck (h : s.LogIs q)
    (payload : TaskArtifactManifestAckPayload) :
    Silent q (handleArtifactManifestAck payload) s := by
  refine silent_withActive h fun task => ?_
  split
  · exact silent_protocol h _
  · split
    · exact silent_protocol h _
    · split
      · exact silent_failActiveTask h _ _
      · exact silent_modifyTask h fun _ => rfl

theorem silent_handleArtifactUploadResult (h : s.LogIs q) (result : Except UploadError Unit) :
    Silent q (handleArtifactUploadResult result) s := by
  refine silent_withActive h fun task => ?_
  refine Silent.bind (silent_modifyTask h fun _ => rfl) fun t ht => ?_
  split
  · exact silent_failActiveTask ht _ _
  · split
    · exact silent_protocol ht _
    · exact Silent.bind (silent_modifyTask ht fun _ => rfl) fun _ hu => silent_send hu _

theorem stays_taskInput (h : s.LogIs q) (sensitive : Option Text) :
    Stays (Agent.LogIs q) (handleTaskInput sensitive) s := by
  refine stays_withActive h fun task _ => ?_
  refine Stays.bind (stays_ifSome (fun value _ => ?_) h) fun _ t ht => stays_inspect ht
  exact Silent.stays (silent_modifyTask h fun _ => rfl)

theorem stays_lines (h : s.LogIs q) (task : ActiveTask) (lines : List (List UInt8)) :
    Stays (Agent.LogIs q) (replayLines host task lines) s := by
  induction lines generalizing s with
  | nil => exact stays_inspect h
  | cons line lines ih =>
      refine Stays.bind (stays_inspect h) fun _ t ht => ?_
      split
      · exact stays_fail ht
      · split
        · exact stays_fail ht
        · refine Stays.bind (stays_onlyIf (fun _ => ?_) ht) fun _ u hu => ih hu
          exact (silent_send ht _).stays

theorem stays_replay (h : s.LogIs q) :
    Stays (Agent.LogIs q) (do
      replayActiveLogs host
      resendPendingResult) s := by
  refine Stays.bind (stays_withActive h fun task _ => ?_) fun _ t ht => ?_
  · exact Stays.bind (stays_inspect h) fun _ _ ht => stays_lines ht task _
  · refine stays_withActive ht fun task _ => stays_ifSome (fun result _ => ?_) ht
    exact (silent_send ht _).stays

/-! The process -/

/-- What holds of the log of the active task in a process. -/
def Process.LogIs (q : Appender → Prop) (p : Process) : Prop :=
  p.agent.LogIs q

theorem stays_agent {action : Act} (h : Stays (Agent.LogIs q) action p.agent) :
    Stays (Process.LogIs q) (onAgent action) p :=
  stays_zoom h fun _ hs => hs

theorem logIs_drop (p : Process) : p.drop.LogIs q :=
  fun _ htask => by cases htask

theorem stays_startCommand (h : p.LogIs q) :
    Stays (Process.LogIs q) (startOrFail settings outside) p := by
  refine Stays.recover (stays_get_bind ?_) fun e r hr =>
    stays_agent (silent_failActiveTask hr _ _).stays
  split
  · exact stays_fail h
  · rename_i task hactive
    split
    · exact stays_fail h
    · have hstarted : (p.start task.lease).LogIs q := Agent.LogIs.map h fun _ => rfl
      exact stays_modify_bind (stays_agent (silent_send hstarted _).stays)

theorem stays_prepare (h : p.LogIs q) (remembers : Bool) :
    Stays (Process.LogIs q) (prepareSource settings outside remembers) p := by
  have hfail : ∀ (r : Process) (message : String), r.LogIs q →
      Stays (Process.LogIs q) (onAgent (failActiveTask message none)) r :=
    fun r message hr => stays_agent (silent_failActiveTask hr _ _).stays
  refine stays_get_bind ?_
  split
  · exact hfail p _ h
  · refine stays_modify_bind ?_
    split
    · exact hfail _ _ h
    · refine stays_modify_bind ?_
      split
      · exact hfail _ _ h
      · exact stays_modify_bind (stays_startCommand h)

theorem stays_prepared (h : p.LogIs q) (task : ActiveTask)
    (result : Except PreparationFailure PreparationResult) :
    Stays (Process.LogIs q) (handlePrepared settings outside task result) p := by
  cases result with
  | error failure =>
      refine stays_agent (Silent.stays (Silent.bind (silent_modifyTask h fun _ => rfl) ?_))
      exact fun _ ht => silent_failActiveTask ht _ _
  | ok result =>
      rw [handlePrepared]
      split
      · exact stays_fail h
      · split
        · exact stays_agent (silent_failActiveTask h _ _).stays
        · refine Stays.bind (stays_agent (Silent.stays (Silent.bind
            (silent_modifyTask h fun _ => rfl) fun _ ht => silent_send ht _))) fun _ r hr => ?_
          exact stays_prepare hr true

theorem stays_preparationEvent (h : p.LogIs q) (event : PreparationEvent) :
    Stays (Process.LogIs q) (handlePreparationEvent settings outside event) p := by
  refine stays_withTask h fun task _ => stays_onlyIf (fun _ => ?_) h
  refine Stays.bind (stays_agent (Silent.stays (silent_modifyTask h fun _ => rfl)))
    fun _ r hr => ?_
  exact stays_prepared hr task event.result

theorem stays_resultAck (h : p.LogIs q) (payload : TaskResultAckPayload) :
    Stays (Process.LogIs q) (handleResultAck payload) p := by
  refine stays_withTask h fun task _ => ?_
  split
  · exact stays_fail h
  · refine stays_ifSome (fun result _ => ?_) h
    split
    · exact stays_fail h
    · exact stays_modify (logIs_drop p)

theorem stays_resume (h : p.LogIs q) (status : Option BuildTaskStatus) :
    Stays (Process.LogIs q) (resumeActiveTask settings outside status) p := by
  refine stays_withTask h fun task _ => stays_onlyIf (fun _ => ?_) h
  split
  · refine stays_onlyIf (fun _ => stays_agent (Stays.bind (stays_onlyIf (fun _ => ?_) h) ?_)) h
    · exact (silent_send h _).stays
    · exact fun _ t ht => (silent_resumeArtifacts ht task).stays
  · refine stays_onlyIf (fun _ => stays_get_bind ?_) h
    split
    · exact stays_startCommand h
    · exact stays_prepare h false

theorem ends_openLogBuffer (settings : Settings) (taskId : Text) (p : Process) :
    Ends (openLogBuffer settings taskId)
      (fun logs _ => logs.buffer.lastAppendedSequence =
        storedSequence settings.host.format (p.disks taskId))
      (fun _ r => r.agent = p.agent) (fun _ => True) p := by
  refine ends_zoom (ends_bind (Ends.imp
    (LogBuffer.ends_new_last settings.host.format ⟨LogBuffer.unopened, p.disks taskId⟩
      settings.logPath settings.logBufferMaxBytes) ?_ ?_ fun _ _ => trivial))
  · exact fun _ t ht => ends_get ht
  · exact fun _ _ _ => rfl

/-- A task with an empty file starts with the first sequence. -/
theorem counting_newTask {assignment : TaskAssignmentPayload} {logs : LogBuffer.Host}
    (h : logs.buffer.lastAppendedSequence = 0) :
    Counting 0 (newTask settings assignment logs).logs :=
  ⟨congrArg (· + 1) h, one_le_u64Max⟩

theorem ends_handleAssignment {assignment : TaskAssignmentPayload} (h : p.LogIs (Counting 0))
    (hready : validateAssignment settings.checks outside.now settings.agentId assignment = .ok () →
      p.agent.active = none →
        storedSequence settings.host.format (p.disks assignment.taskId) = 0) :
    Ends (handleAssignment settings outside assignment) (fun _ => Process.LogIs (Counting 0))
      (fun _ => Process.LogIs (Counting 0)) (fun _ => True) p := by
  rw [handleAssignment]
  split
  · exact ends_fail h
  · rename_i hvalid
    refine ends_bind (ends_get ?_)
    rw [Effect.onlyIf]
    split
    · rename_i hidle
      have hempty := hready hvalid (Option.isNone_iff_eq_none.mp hidle)
      refine ends_bind ((ends_openLogBuffer settings assignment.taskId p).imp ?_ ?_ fun _ ht => ht)
      · intro logs r hlogs
        have htaken : (r.take (newTask settings assignment logs)).LogIs (Counting 0) := by
          rintro task htask
          obtain rfl := Option.some.inj htask
          exact counting_newTask (hlogs.trans hempty)
        refine ends_bind (ends_modify (ends_bind (ends_recover (ends_inspect ?_ ?_ trivial))))
        · refine Ends.imp (stays_agent (Silent.stays (silent_modifyTask htaken fun _ => rfl)))
            (fun _ _ ht => ht) (fun _ _ ht => ht) fun _ _ => trivial
        · exact ends_bind (ends_modify (ends_fail (logIs_drop _)))
      · intro e r hr
        rw [Process.LogIs, hr]
        exact h
    · exact ends_pure h

theorem holds_agent {action : Act} {faults : List (Option Fault)}
    (h : Holds (Agent.LogIs q) action ⟨p.agent, faults⟩) :
    Holds (Process.LogIs q) (onAgent action) ⟨p, faults⟩ :=
  holds_zoom h fun _ hs => hs

theorem holds_waitForRecovery {message : Option TaskRecoveryPayload}
    {faults : List (Option Fault)} (h : p.LogIs (Counting 0)) (hactive : p.agent.active = some task)
    (hready : LogReady settings p ⟨.connection message, outside, faults⟩) :
    Holds (Process.LogIs (Counting 0)) (waitForRecovery settings outside message task)
      ⟨p, faults⟩ := by
  cases message with
  | none => exact h
  | some payload =>
      obtain ⟨hopen, hcancel⟩ := hready task hactive
      rw [waitForRecovery]
      split
      · exact h
      · split
        · exact Stays.holds (stays_modify_bind (stays_pure (logIs_drop p)))
        · exact h
        · rename_i status haction hstatus
          split
          · exact h
          · refine Holds.bind (holds_agent ?_) fun _ _ hr => stays_pure hr
            have hopen := hopen (by rw [haction]; exact TaskRecoveryAction.noConfusion)
            exact (ends_acknowledgeLogs h hactive hopen).holds (fun _ _ ht => ht)
              fun _ _ ht => ht
        · exact h
        · rename_i status haction hstatus
          split
          · exact h
          · refine Holds.bind (holds_agent (holds_bind ?_)) fun _ _ hr => stays_pure hr
            have hopen := hopen (by rw [haction]; exact TaskRecoveryAction.noConfusion)
            have hacknowledged := ends_acknowledgeLogs h hactive hopen faults
            refine (hacknowledged.and (hcancel haction)).imp ?_ ?_
            · exact fun _ t ht => holds_handleTaskCancel ht.1 fun _ _ _ => ht.2
            · rintro (e | -) t ⟨ht, -⟩
              · exact ht
              · exact trivial

theorem holds_connectOnce {message : Option TaskRecoveryPayload} {faults : List (Option Fault)}
    (h : p.LogIs (Counting 0))
    (hready : LogReady settings p ⟨.connection message, outside, faults⟩) :
    Holds (Process.LogIs (Counting 0)) (connectOnce settings outside message) ⟨p, faults⟩ := by
  refine Holds.bind (holds_bind ?_) fun _ r hr => ?_
  · show Holds _ (Effect.ifSome p.agent.active _) _
    cases hactive : p.agent.active with
    | none => exact h
    | some task =>
        refine Holds.bind (holds_waitForRecovery h hactive hready) fun status r hr => ?_
        exact stays_resume hr status
  · refine Stays.bind (stays_agent (stays_replay hr)) fun _ r hr => stays_modify hr

/-! Each turn and all runs -/

theorem logIs_after {turn : Turn} (h : Holds (Process.LogIs q)
    (handle settings turn.outside turn.event) ⟨p, turn.faults⟩) :
    (p.after settings turn).LogIs q := by
  rw [Holds, Effect.Ends] at h
  rw [Process.after]
  rcases hrun : handle settings turn.outside turn.event ⟨p, turn.faults⟩ with ⟨(e | _) | a, t⟩
  · rw [hrun] at h
    exact h
  · exact logIs_drop t.state
  · rw [hrun] at h
    exact h

theorem ends_execution (outside : Surroundings) {event : ExecutionEvent} (h : p.LogIs (Counting 0))
    (hready : ∀ task, p.agent.active = some task →
      ReadyFor settings.host.format (task.textsOf event) task.logs) :
    Ends (handle settings outside (.execution event)) (fun _ => Process.LogIs (Counting 0))
      (fun e r => e ≠ .logBuffer .invalidRecord ∧ r.LogIs (Counting 0)) (fun _ => True) p := by
  have hagent : (p.deliver event).agent = p.agent := by
    cases event with
    | output stream chunk => rfl
    | finished result => rfl
  refine ends_bind (ends_modify (ends_zoom (Ends.imp
    (counts_handleExecutionEvent outside.toAnswers ?_ ?_) ?_ ?_ fun _ ht => ht)))
  · rw [hagent]
    exact h
  · rw [hagent]
    exact hready
  · exact fun _ t ht => ht
  · exact fun _ _ ht => ht

theorem counting_after {turn : Turn} (h : p.LogIs (Counting 0))
    (hready : LogReady settings p turn) : (p.after settings turn).LogIs (Counting 0) := by
  obtain ⟨event, outside, faults⟩ := turn
  have hsilent : ∀ action : Act, Silent (Counting 0) action p.agent →
      Holds (Process.LogIs (Counting 0)) (onAgent action) ⟨p, faults⟩ :=
    fun _ haction => Stays.holds (stays_agent haction.stays)
  apply logIs_after
  cases event with
  | assignment payload =>
      exact (ends_handleAssignment h hready).holds (fun _ _ ht => ht) fun _ _ ht => ht
  | preparation event => exact (stays_preparationEvent h event).holds
  | execution event =>
      exact (ends_execution outside h hready).holds (fun _ _ ht => ht) fun _ _ ht => ht.2
  | artifactUpload result => exact hsilent _ (silent_handleArtifactUploadResult h result)
  | artifactManifestAck payload => exact hsilent _ (silent_handleArtifactManifestAck h payload)
  | resultAck payload => exact (stays_resultAck h payload).holds
  | logAck payload =>
      refine holds_agent ((ends_handleLogAck h hready).holds ?_ ?_)
      · exact fun _ _ ht => ht
      · exact fun _ _ ht => ht
  | cancel cancel => exact holds_agent (holds_handleTaskCancel h hready)
  | input sensitive => exact Stays.holds (stays_agent (stays_taskInput h sensitive))
  | other => exact Stays.holds (stays_agent (stays_inspect h))
  | disconnected => exact Stays.holds (stays_modify h)
  | connection message => exact holds_connectOnce h hready
  | exit => exact Stays.holds (stays_modify (logIs_drop p))

theorem counting_of_reachable (h : (runtime settings (LogReady settings)).Reachable p) :
    p.LogIs (Counting 0) := by
  refine h.invariant ?_ ?_
  · intro p hnew
    exact logIs_none (by rw [hnew.agent_eq])
  · rintro p _ - hp ⟨turn, -, hready, rfl⟩
    exact counting_after hp hready

/-- In every run in which the log is ready for each turn, the buffer and the next sequence agree,
and no entry is refused. -/
theorem inSequence_of_logReady (settings : Settings) (p : Process)
    (h : (runtime settings (LogReady settings)).Reachable p) :
    InSequence settings (LogReady settings) p := by
  have hcounting := counting_of_reachable h
  constructor
  · exact hcounting.imp fun _ hlogs => hlogs.numbered
  · rintro ⟨_, outside, faults⟩ event t hready rfl hrun
    have hends := ends_execution outside hcounting hready faults
    rw [Effect.Ends, hrun] at hends
    exact hends.1 rfl

/-! A task that is abandoned and assigned again -/

/-- The command of a task prints three letters. -/
def printedTurns : List Turn :=
  [quiet (.connection none), quiet (.assignment demoAssignment),
    quiet (.preparation ⟨demoAssignment.taskId, .ok ⟨demoAssignment.taskId, []⟩⟩),
    quiet (.execution (.output .stdout "abc".toList))]

def printedRun : Process :=
  printedTurns.foldl (Process.after demoSettings) newProcess

/-- Then the connection is lost, the task is abandoned on the next one, and it comes back with
another lease. -/
def reassignedTurns : List Turn :=
  printedTurns ++
    [quiet .disconnected,
      quiet (.connection (some ⟨demoAssignment.taskId, .abandon, none, 0, none, none⟩)),
      quiet (.assignment { demoAssignment with leaseToken := "lease-token-of-the-next-try".toList })]

def reassignedRun : Process :=
  reassignedTurns.foldl (Process.after demoSettings) newProcess

/-- The last sequence of the buffer and the next sequence of the active task. -/
def Process.counters (p : Process) : Option (Nat × Nat) :=
  p.agent.active.map fun task =>
    (task.logs.host.buffer.lastAppendedSequence, task.logs.nextSequence)

/-- The file of the abandoned task is still there, but the counter starts again. -/
theorem not_inSequence :
    ¬ ∀ (settings : Settings) (p : Process),
      (runtime settings fun _ _ => True).Reachable p →
        InSequence settings (fun _ _ => True) p := by
  intro h
  have htakes : newProcess.Takes demoSettings (fun _ _ => True) reassignedTurns := by
    decide +kernel
  have hsequence := h demoSettings reassignedRun (htakes.reachable (.init isNew_newProcess))
  have hcounters : reassignedRun.counters = some (1, 1) := by
    decide +kernel
  obtain ⟨task, htask, hpair⟩ := Option.map_eq_some_iff.mp hcounters
  obtain ⟨hlast, hnext⟩ := Prod.mk.inj hpair
  have hnumbered := hsequence.numbered task htask
  rw [Numbered, hlast, hnext] at hnumbered
  cases hnumbered

/-- The condition on the turns of a command that starts and prints. -/
def readyToPrint (settings : Settings) (p : Process) (turn : Turn) : Bool :=
  match turn.event with
  | .assignment payload =>
      decide (storedSequence settings.host.format (p.disks payload.taskId) = 0)
  | .execution (.output _ _) => p.agent.active.all fun task =>
      decide (Settled settings.host.format task.logs.host ∧ task.logs.nextSequence + 1 ≤ u64Max)
  | .preparation _ | .connection none => true
  | _ => false

theorem logReady_of_readyToPrint {turn : Turn} (h : readyToPrint settings p turn = true) :
    LogReady settings p turn := by
  obtain ⟨event, outside, faults⟩ := turn
  cases event with
  | assignment payload => exact fun _ _ => of_decide_eq_true h
  | preparation event => trivial
  | execution event =>
      cases event with
      | output stream chunk =>
          intro task hactive
          rw [readyToPrint, hactive] at h
          rw [ActiveTask.textsOf]
          split
          · exact fun hpos => absurd hpos (Nat.lt_irrefl 0)
          · exact fun _ => of_decide_eq_true h
      | finished result => cases h
  | connection message =>
      cases message with
      | none => trivial
      | some payload => cases h
  | artifactUpload result => cases h
  | artifactManifestAck payload => cases h
  | resultAck payload => cases h
  | logAck payload => cases h
  | cancel cancel => cases h
  | input sensitive => cases h
  | other => cases h
  | disconnected => cases h
  | exit => cases h

theorem printedRun_inSequence :
    printedRun.counters = some (1, 2) ∧
      InSequence demoSettings (LogReady demoSettings) printedRun := by
  refine ⟨by decide +kernel, inSequence_of_logReady demoSettings printedRun ?_⟩
  have htakes : newProcess.Takes demoSettings
      (fun p turn => readyToPrint demoSettings p turn = true) printedTurns := by
    decide +kernel
  exact (htakes.imp fun _ _ => logReady_of_readyToPrint).reachable (.init isNew_newProcess)

end AnvilRun.AgentRuntime
