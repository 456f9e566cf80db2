import AnvilRun.AgentRuntime
import AnvilRun.LogBuffer.Format
import Mathlib.Logic.Function.Basic

namespace AnvilRun.AgentRuntime

open AnvilRun.AgentContracts (TaskAssignmentPayload TaskCancelPayload)
open AnvilRun.AgentRedactor (Text SensitiveLogRedactor)
open AnvilRun.Effect (ifSome onlyIf)
open AnvilRun.Execution (ExecutionEvent)
open AnvilRun.Interruptible

/-- The redactors of the two streams. -/
abbrev Redactors : Type := LogStream → SensitiveLogRedactor

/-- The redactors behind an output. -/
def feed (R : Redactors) (output : LogStream × Text) : Redactors :=
  Function.update R output.1 ((R output.1).redact output.2).2

def finishAll (R : Redactors) : Redactors :=
  fun stream => (R stream).finish.2

def tailsOf (R : Redactors) : List (LogStream × Text) :=
  [(.stdout, (R .stdout).finish.1), (.stderr, (R .stderr).finish.1)].filter
    fun tail => !tail.2.isEmpty

/-- The redactors of the active task. -/
def Agent.redactors (s : Agent) : Option Redactors :=
  s.active.map ActiveTask.redactor

/-- The log and the redactors stay as they are. -/
def SameLogs (s t : Agent) : Prop :=
  t.emitted = s.emitted ∧ t.redactors = s.redactors

/-- The task stays, if there is one, and each of its redactors goes on to one that is related to
it. -/
def RedactorsLead (q : SensitiveLogRedactor → SensitiveLogRedactor → Prop) (s t : Agent) : Prop :=
  Option.Rel (fun R R' => ∀ stream, q (R stream) (R' stream)) s.redactors t.redactors

variable {host : Host} {answers : Answers} {s t : Agent} {task : ActiveTask} {R : Redactors}
  {stream : LogStream} {chunk : Text} {f : ActiveTask → Act}

/-! The redactors of a task -/

theorem redactor_setRedactor (task : ActiveTask) (stream : LogStream)
    (redactor : SensitiveLogRedactor) :
    (task.setRedactor stream redactor).redactor =
      Function.update task.redactor stream redactor := by
  funext other
  cases stream with
  | stdout => cases other with
      | stdout => rfl
      | stderr => rfl
  | stderr => cases other with
      | stdout => rfl
      | stderr => rfl

theorem redactor_finishRedactors (task : ActiveTask) :
    task.finishRedactors.redactor = finishAll task.redactor := by
  funext stream
  cases stream with
  | stdout => rfl
  | stderr => rfl

theorem redactors_modifyTask {g : ActiveTask → ActiveTask}
    (h : ∀ task, (g task).redactor = task.redactor) (s : Agent) :
    ({ s with active := s.active.map g } : Agent).redactors = s.redactors := by
  rw [Agent.redactors, Agent.redactors, Option.map_map]
  exact congrArg (s.active.map ·) (funext h)

theorem redactors_of_active (h : s.active = some task) : s.redactors = some task.redactor := by
  rw [Agent.redactors, h, Option.map_some]

theorem exists_active (h : s.redactors = some R) :
    ∃ task, s.active = some task ∧ task.redactor = R :=
  Option.map_eq_some_iff.mp h

/-! One step from a known task -/

theorem withActive_apply (h : s.active = some task) (faults : List (Option Fault)) :
    withActive f ⟨s, faults⟩ = f task ⟨s, faults⟩ := by
  refine (Effect.bind_apply_ok (rfl : get ⟨s, faults⟩ = (.ok s, ⟨s, faults⟩))).trans ?_
  rw [h]
  rfl

theorem withActive_apply_none (h : s.active = none) (faults : List (Option Fault)) :
    withActive f ⟨s, faults⟩ = (.ok (), ⟨s, faults⟩) := by
  refine (Effect.bind_apply_ok (rfl : get ⟨s, faults⟩ = (.ok s, ⟨s, faults⟩))).trans ?_
  rw [h]
  rfl

theorem ends_withActive {ok : Unit → Agent → Prop} {failed : AgentError → Agent → Prop}
    {crashed : Agent → Prop} (h : s.active = some task) (hf : Ends (f task) ok failed crashed s) :
    Ends (withActive f) ok failed crashed s := by
  intro faults
  rw [Effect.Ends, withActive_apply h]
  exact hf faults

/-! What leaves the log as it is -/

theorem SameLogs.refl (s : Agent) : SameLogs s s :=
  ⟨rfl, rfl⟩

theorem SameLogs.trans (s t u : Agent) (hst : SameLogs s t) (htu : SameLogs t u) : SameLogs s u :=
  ⟨htu.1.trans hst.1, htu.2.trans hst.2⟩

section Leads

variable {r : Agent → Agent → Prop} (hrefl : ∀ s, r s s) (htrans : ∀ s t u, r s t → r t u → r s u)

include hrefl htrans in
theorem leads_withActive (hf : ∀ task, Leads r (f task)) : Leads r (withActive f) :=
  Leads.bind htrans (leads_get hrefl) fun _ => leads_ifSome hrefl hf

variable (hsame : ∀ s t, SameLogs s t → r s t)

include hsame

theorem leads_modifyTask {g : ActiveTask → ActiveTask}
    (h : ∀ task, (g task).redactor = task.redactor) : Leads r (modifyTask g) :=
  leads_modify fun s => hsame _ _ ⟨rfl, redactors_modifyTask h s⟩

theorem leads_setReceiver (receiver : Bool) :
    Leads r (modify fun s => { s with executionReceiver := receiver } : Act) :=
  leads_modify fun s => hsame s { s with executionReceiver := receiver } ⟨rfl, rfl⟩

theorem leads_zoomLogs (task : ActiveTask) {α : Type}
    (action : Interruptible LogBufferError LogBuffer.Appender α) :
    Leads r (zoom (fun _ => task.logs) Agent.setLogs AgentError.logBuffer action) :=
  leads_zoom fun logs s => hsame s (s.setLogs logs)
    ⟨rfl, redactors_modifyTask (g := fun task => { task with logs }) (fun _ => rfl) s⟩

include hrefl

theorem leads_send (message : Message) : Leads r (send message) := by
  have hpush : ∀ s : Agent, r s (s.push message) := fun s => hsame _ _ ⟨rfl, rfl⟩
  have hreached : ∀ (reached : Nat) (s : Agent),
      r s (if reached = 0 then s else s.push message) := by
    intro reached s
    split
    · exact hrefl s
    · exact hpush s
  exact leads_call hpush hreached hreached

include htrans

theorem leads_sendLogBestEffort (message : Message) : Leads r (sendLogBestEffort message) := by
  refine Leads.bind htrans (leads_elapses hrefl) fun late => ?_
  have hsend := leads_send hrefl hsame message
  split
  · exact Leads.recover htrans hrefl hsend fun _ => leads_pure hrefl ()
  · exact hsend

theorem leads_failActiveTask (reason : String) (exitCode : Option Int) :
    Leads r (failActiveTask reason exitCode) :=
  leads_withActive hrefl htrans fun _ =>
    Leads.bind htrans (leads_modifyTask hsame fun _ => rfl) fun _ => leads_send hrefl hsame _

theorem leads_confirmCancellation : Leads r confirmCancellation :=
  leads_withActive hrefl htrans fun _ =>
    Leads.bind htrans (leads_modifyTask hsame fun _ => rfl) fun _ => leads_send hrefl hsame _

theorem leads_reportArtifacts : Leads r (reportArtifacts host answers) := by
  refine leads_withActive hrefl htrans fun task => ?_
  split
  · exact leads_fail hrefl _
  · split
    · exact leads_failActiveTask hrefl htrans hsame _ _
    · refine Leads.bind htrans (leads_modifyTask hsame fun _ => rfl) fun _ => ?_
      split
      · exact leads_failActiveTask hrefl htrans hsame _ _
      · exact leads_send hrefl hsame _

theorem leads_reportResult (result : Execution.ExecutionResult) :
    Leads r (reportResult host answers result) := by
  rw [reportResult]
  split
  · exact leads_failActiveTask hrefl htrans hsame _ _
  · split
    · exact leads_failActiveTask hrefl htrans hsame _ _
    · split
      · refine Leads.bind htrans (leads_withActive hrefl htrans fun _ => ?_) fun _ => ?_
        · exact leads_send hrefl hsame _
        · exact leads_reportArtifacts hrefl htrans hsame
      · exact leads_failActiveTask hrefl htrans hsame _ _
      · exact leads_failActiveTask hrefl htrans hsame _ _

end Leads

/-! What happens to the redactors -/

section Redactors

variable {q : SensitiveLogRedactor → SensitiveLogRedactor → Prop} (hrefl : ∀ r, q r r)
  (htrans : ∀ r r' r'', q r r' → q r' r'' → q r r'') (hredact : ∀ r chunk, q r (r.redact chunk).2)

include hrefl in
theorem RedactorsLead.refl (s : Agent) : RedactorsLead q s s := by
  rw [RedactorsLead]
  cases s.redactors with
  | none => exact .none
  | some R => exact .some fun stream => hrefl (R stream)

include htrans in
theorem RedactorsLead.trans (s t u : Agent) (hst : RedactorsLead q s t)
    (htu : RedactorsLead q t u) : RedactorsLead q s u := by
  rw [RedactorsLead] at hst htu ⊢
  generalize s.redactors = R at hst ⊢
  generalize t.redactors = R' at hst htu
  generalize u.redactors = R'' at htu ⊢
  cases hst with
  | none =>
      cases htu with
      | none => exact .none
  | some hst =>
      cases htu with
      | some htu => exact .some fun stream => htrans _ _ _ (hst stream) (htu stream)

include hrefl in
theorem SameLogs.redactorsLead (s t : Agent) (h : SameLogs s t) : RedactorsLead q s t := by
  rw [RedactorsLead, h.2]
  exact RedactorsLead.refl hrefl s

theorem leads_setRedactors {g : ActiveTask → ActiveTask}
    (h : ∀ task stream, q (task.redactor stream) ((g task).redactor stream)) :
    Leads (RedactorsLead q) (modifyTask g) := by
  refine leads_modify fun s => ?_
  rw [RedactorsLead, Agent.redactors, Agent.redactors, Option.map_map]
  cases s.active with
  | none => exact .none
  | some task => exact .some (h task)

include hrefl hredact in
theorem feed_leads (R : Redactors) (output : LogStream × Text) (stream : LogStream) :
    q (R stream) (feed R output stream) := by
  rw [feed]
  by_cases h : stream = output.1
  · subst h
    rw [Function.update_self]
    exact hredact _ _
  · rw [Function.update_of_ne h]
    exact hrefl _

include hrefl htrans

theorem leads_persistAndSendLog (stream : LogStream) (chunk : Text) :
    Leads (RedactorsLead q) (persistAndSendLog host answers stream chunk) := by
  have hsame := SameLogs.redactorsLead hrefl
  refine leads_withActive (RedactorsLead.refl hrefl) (RedactorsLead.trans htrans) fun task => ?_
  refine Leads.bind (RedactorsLead.trans htrans)
    (leads_modify fun s => RedactorsLead.refl hrefl s) fun _ => ?_
  refine Leads.bind (RedactorsLead.trans htrans) (leads_zoomLogs hsame task _) fun _ => ?_
  exact leads_onlyIf (RedactorsLead.refl hrefl)
    (leads_sendLogBestEffort (RedactorsLead.refl hrefl) (RedactorsLead.trans htrans) hsame _)

theorem leads_tails (tails : List (LogStream × Text)) :
    Leads (RedactorsLead q)
      (each (fun tail => persistAndSendLog host answers tail.1 tail.2) tails) := by
  apply leads_each (RedactorsLead.trans htrans) (RedactorsLead.refl hrefl)
  intro tail
  exact leads_persistAndSendLog hrefl htrans tail.1 tail.2

include hredact

theorem leads_persistExecutionOutput (stream : LogStream) (chunk : Text) :
    Leads (RedactorsLead q) (persistExecutionOutput host answers stream chunk) := by
  refine leads_withActive (RedactorsLead.refl hrefl) (RedactorsLead.trans htrans) fun task => ?_
  refine Leads.bind (RedactorsLead.trans htrans) (leads_setRedactors fun task other => ?_)
    fun _ => ?_
  · rw [redactor_setRedactor]
    exact feed_leads hrefl hredact task.redactor (stream, chunk) other
  · exact leads_onlyIf (RedactorsLead.refl hrefl) (leads_persistAndSendLog hrefl htrans stream _)

theorem leads_outputs (outputs : List (LogStream × Text)) :
    Leads (RedactorsLead q)
      (each (fun output => persistExecutionOutput host answers output.1 output.2) outputs) := by
  apply leads_each (RedactorsLead.trans htrans) (RedactorsLead.refl hrefl)
  intro output
  exact leads_persistExecutionOutput hrefl htrans hredact output.1 output.2

theorem leads_stopExecution : Leads (RedactorsLead q) (stopExecution host answers) := by
  have hkeep := RedactorsLead.refl hrefl
  have hjoin := RedactorsLead.trans htrans
  have hsame := SameLogs.redactorsLead hrefl
  refine Leads.bind hjoin (leads_get hkeep) fun s => ?_
  refine Leads.bind hjoin (leads_onlyIf hkeep ?_) fun _ => ?_
  · refine Leads.bind hjoin ?_ fun _ => ?_
    · exact Leads.recover hjoin hkeep (leads_outputs hrefl htrans hredact _)
        fun _ => leads_pure hkeep ()
    · exact leads_onlyIf hkeep (leads_modifyTask hsame fun _ => rfl)
  · refine Leads.bind hjoin (leads_setReceiver hsame false) fun _ => ?_
    exact leads_modifyTask hsame fun _ => rfl

variable (hfinish : ∀ r, q r r.finish.2)

include hfinish

omit hrefl htrans hredact in
theorem leads_finishRedactors {g : ActiveTask → ActiveTask}
    (h : ∀ task, (g task).redactor = finishAll task.redactor) :
    Leads (RedactorsLead q) (modifyTask g) := by
  refine leads_setRedactors fun task stream => ?_
  rw [h]
  exact hfinish _

theorem leads_flushLogTails : Leads (RedactorsLead q) (flushLogTails host answers) := by
  refine leads_withActive (RedactorsLead.refl hrefl) (RedactorsLead.trans htrans) fun task => ?_
  refine Leads.bind (RedactorsLead.trans htrans)
    (leads_finishRedactors hfinish redactor_finishRedactors) fun _ => ?_
  exact leads_outputs hrefl htrans hredact _

theorem leads_handleTaskCancel (cancel : TaskCancelPayload) :
    Leads (RedactorsLead q) (handleTaskCancel host answers cancel) := by
  have hkeep := RedactorsLead.refl hrefl
  have hjoin := RedactorsLead.trans htrans
  have hsame := SameLogs.redactorsLead hrefl
  refine leads_withActive hkeep hjoin fun task => ?_
  split
  · exact leads_pure hkeep ()
  · refine Leads.bind hjoin (leads_modifyTask hsame fun _ => rfl) fun _ => ?_
    split
    · exact leads_failActiveTask hkeep hjoin hsame _ _
    · refine Leads.bind hjoin (leads_modifyTask hsame fun _ => rfl) fun _ => ?_
      refine Leads.bind hjoin (leads_stopExecution hrefl htrans hredact) fun _ => ?_
      refine Leads.bind hjoin (leads_flushLogTails hrefl htrans hredact hfinish) fun _ => ?_
      split
      · exact leads_failActiveTask hkeep hjoin hsame _ _
      · exact leads_confirmCancellation hkeep hjoin hsame

theorem leads_handleExecutionEvent (event : ExecutionEvent) :
    Leads (RedactorsLead q) (handleExecutionEvent host answers event) := by
  have hkeep := RedactorsLead.refl hrefl
  have hjoin := RedactorsLead.trans htrans
  have hsame := SameLogs.redactorsLead hrefl
  cases event with
  | output stream chunk => exact leads_persistExecutionOutput hrefl htrans hredact stream chunk
  | finished result =>
      refine Leads.bind hjoin (leads_get hkeep) fun s => ?_
      refine Leads.bind hjoin
        (leads_finishRedactors hfinish redactor_finishRedactors) fun _ => ?_
      refine Leads.bind hjoin (leads_setReceiver hsame false) fun _ => ?_
      refine Leads.bind hjoin (leads_tails hrefl htrans _) fun _ => ?_
      exact leads_reportResult hkeep hjoin hsame result

end Redactors

/-! A task of which only the log matters -/

def demoHost : Host where
  format := LogBuffer.ndjson
  toText := fun _ => []

def demoAnswers : Answers where
  emittedAt := fun _ => "2026-01-01T00:00:00.000Z".toList
  stamp := ⟨[], []⟩
  preparationCleanupFailed := false
  preparationWorkspace := false
  released := true
  outputs := []
  stopped := true
  scanned := .error .scanInvalid

def demoAssignment : TaskAssignmentPayload where
  taskId := "0e37df36-f698-11e6-8dd4-cb9ced3df976".toList
  leaseToken := "lease-token-of-a-task".toList
  leaseExpiresAt := "2026-01-01T01:00:00.000Z".toList
  agentId := "67e55044-10b1-426f-9247-bb680e5fe0c8".toList
  projectId := "f9168c5e-ceb2-4faa-b6bf-329bf39fa1e4".toList
  buildTemplateId := "936da01f-9abd-4d9d-80c7-02af85c822a8".toList
  git := ⟨"https://git.example/app.git".toList, "main".toList⟩
  command := "make".toList
  artifactDir := "out".toList
  timeoutSeconds := 600
  config := []
  inputFiles := []
  sensitiveConfigKeys := []
  interactiveInputEnabled := false

/-- An empty buffer. -/
def demoLogs : LogBuffer.Appender where
  host := ⟨⟨1000000, 0, 0, 0, 0, 0, false⟩, ⟨none, none⟩⟩
  nextSequence := 1
  nextSequence_le := one_le_u64Max

/-- The task with its command running. -/
def demoTask (R : Redactors) : ActiveTask where
  assignment := demoAssignment
  sourceCommit := none
  commandCompleted := false
  stdoutLogRedactor := R .stdout
  stderrLogRedactor := R .stderr
  logs := demoLogs
  workspace := true
  preparation := false
  execution := true
  executionCancel := true
  executionInput := false
  artifactManifest := none
  artifactUpload := false
  pendingResult := none

def demoAgent (R : Redactors) : Agent where
  active := some (demoTask R)
  executionReceiver := true
  sent := []
  emitted := []

theorem redactor_demoTask (R : Redactors) : (demoTask R).redactor = R := by
  funext stream
  cases stream with
  | stdout => rfl
  | stderr => rfl

theorem redactors_demoAgent (R : Redactors) : (demoAgent R).redactors = some R := by
  rw [redactors_of_active rfl, redactor_demoTask]

end AnvilRun.AgentRuntime
