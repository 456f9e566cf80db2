import AnvilRun.HelloReconciliation
import AnvilRun.TaskInput.LeaseTokens
import AnvilRun.TerminalAgreement

namespace AnvilRun.RecoveryHandshake

open AnvilRun.AgentContracts (TaskRecoveryAction TaskRecoveryPayload TaskCancelPayload
  isAgentReportable)
open AnvilRun.AgentRuntime
open AnvilRun.ExclusiveSlot
open AnvilRun.ExecutionSlot
open AnvilRun.Fallible
open AnvilRun.HelloReconciliation
open AnvilRun.Interruptible
open AnvilRun.SlotSystem
open AnvilRun.TaskDatabase
open AnvilRun.TaskMoves
open AnvilRun.TaskQueue
open AnvilRun.ValidationPrimitives

/-! The hello and its answer -/

/-- `active_current_task`, as the server reads it. -/
def activeCurrentTask (task : ActiveTask) : AgentCurrentTask where
  taskId := JsString.ofChars task.assignment.taskId
  leaseToken := JsString.ofChars task.assignment.leaseToken
  status := task.currentStatus

def actionOf : RecoveryAction → TaskRecoveryAction
  | .resume => .resume
  | .cancel => .cancel
  | .abandon => .abandon

/-- The agent reads the decision in this payload. -/
structure Carries (payload : TaskRecoveryPayload) (decision : AgentRecoveryDecision) : Prop where
  taskId : JsString.ofChars payload.taskId = decision.taskId
  action : payload.action = actionOf decision.action
  status : payload.status = decision.status
  acknowledged : payload.acknowledgedLogSequence = decision.acknowledgedLogSequence

/-- The status of a task on the server behind a decision that keeps it. -/
def keptStatus (current : AgentCurrentTask) : RecoveryAction → BuildTaskStatus
  | .cancel => .canceling
  | _ => current.status

/-- A decision that keeps the task names it, with the phase of the agent, and the server has the
task in the status that goes with it. -/
structure Keeping (current : AgentCurrentTask) (db : Db) (decision : AgentRecoveryDecision) :
    Prop where
  taskId : decision.taskId = asciiLower current.taskId
  status : decision.status = some current.status
  phase : current.status.isAgentExecutionPhase = true
  row : ∃ task, db.tasks.row (asciiLower current.taskId) = some task ∧
    task.status = keptStatus current decision.action

variable {env : Environment} {now : Time} {db db' : Db} {agentId taskId : Id} {row : BuildTask}
  {current : AgentCurrentTask} {decision : AgentRecoveryDecision}
  {answer : Option AgentRecoveryDecision} {outcome : HelloOutcome} {acknowledged : Nat}
  {durableLog : Id → Except Failure LogFileState} {capabilities : List JsString}

theorem decision_of_failAndAnswer
    (h : failAndAnswer now db agentId taskId answer = .ok (outcome, db')) :
    outcome.decision = answer := by
  simp only [failAndAnswer, bind_eq_ok] at h
  obtain ⟨failed, -, h⟩ := h
  obtain ⟨rfl, -⟩ := Prod.mk.inj (Except.ok.inj h)
  rfl

theorem decision_of_failActive {active : Option Id}
    (h : failActive now db agentId active answer = .ok (outcome, db')) :
    outcome.decision = answer := by
  cases active with
  | none =>
      obtain ⟨rfl, -⟩ := Prod.mk.inj (Except.ok.inj h)
      rfl
  | some taskId => exact decision_of_failAndAnswer h

/-- An answer is about the task of the agent, and keeps it only as the server has it. -/
structure Fits (current : AgentCurrentTask) (db : Db) (decision : AgentRecoveryDecision) :
    Prop where
  taskId : decision.taskId = current.taskId ∨ decision.taskId = asciiLower current.taskId
  keeping : decision.action ≠ .abandon → Keeping current db decision

theorem Keeping.fits (h : Keeping current db decision) : Fits current db decision :=
  ⟨Or.inr h.taskId, fun _ => h⟩

/-- An answer that abandons the task keeps nothing. -/
theorem fits_of_abandoned {reason : String} {id : JsString}
    (hid : id = current.taskId ∨ id = asciiLower current.taskId)
    (h : outcome.decision = some (abandon id acknowledged reason))
    (hdecision : outcome.decision = some decision) : Fits current db' decision := by
  obtain rfl := Option.some.inj (hdecision.symm.trans h)
  exact ⟨hid, fun haction => absurd rfl haction⟩

theorem fits_of_reconcileHeldTask
    (h : reconcileHeldTask now db agentId (asciiLower current.taskId) row current acknowledged =
      .ok (outcome, db'))
    (hrow : ∃ aligned, db.tasks.row (asciiLower current.taskId) = some aligned ∧
      aligned.status = row.status)
    (hdecision : outcome.decision = some decision) : Fits current db' decision := by
  obtain ⟨aligned, hrow, hstatus⟩ := hrow
  rw [reconcileHeldTask] at h
  split at h
  · split at h
    · split at h
      · exact fits_of_abandoned (Or.inr rfl) (decision_of_failAndAnswer h) hdecision
      · rename_i hgood
        simp only [not_or, Bool.not_eq_false, ne_eq, not_not] at hgood
        obtain ⟨hphase, -, hsame⟩ := hgood
        simp only [bind_eq_ok] at h
        obtain ⟨moved, hmoved, h⟩ := h
        obtain ⟨rfl, rfl⟩ := Prod.mk.inj (Except.ok.inj h)
        obtain rfl := Option.some.inj hdecision
        obtain ⟨task, htask, -, hnext⟩ := row_of_transition hmoved hrow
        exact Keeping.fits ⟨rfl, congrArg some hsame.symm, by rwa [hsame], task, htask,
          hnext.trans hsame.symm⟩
    · exact fits_of_abandoned (Or.inr rfl) (decision_of_failAndAnswer h) hdecision
  · split at h
    · rename_i hcanceling
      split at h
      · exact fits_of_abandoned (Or.inr rfl) (decision_of_failAndAnswer h) hdecision
      · rename_i hphase
        obtain ⟨rfl, rfl⟩ := Prod.mk.inj (Except.ok.inj h)
        obtain rfl := Option.some.inj hdecision
        exact Keeping.fits ⟨rfl, rfl, by simpa using hphase, aligned, hrow,
          hstatus.trans hcanceling⟩
    · split at h
      · exact fits_of_abandoned (Or.inr rfl) (decision_of_failAndAnswer h) hdecision
      · rename_i hgood
        simp only [not_or, Bool.not_eq_false, ne_eq, not_not] at hgood
        obtain ⟨hphase, hsame⟩ := hgood
        obtain ⟨rfl, rfl⟩ := Prod.mk.inj (Except.ok.inj h)
        obtain rfl := Option.some.inj hdecision
        exact Keeping.fits ⟨rfl, congrArg some hsame.symm, by rwa [hsame], aligned, hrow,
          hstatus.trans hsame.symm⟩

theorem row_of_alignLogCursor (hrow : db.tasks.row taskId = some row) (log : LogFileState) :
    ∃ aligned, (alignLogCursor now db taskId row log).tasks.row taskId = some aligned ∧
      aligned = { row with
        lastLogSequence := log.lastSequence
        logSize := log.size
        updatedAt := aligned.updatedAt } := by
  rw [alignLogCursor]
  split
  · exact ⟨_, (taskChange_updateTask hrow).after, rfl⟩
  · rename_i hsame
    simp only [ne_eq, not_or, not_not] at hsame
    refine ⟨row, hrow, ?_⟩
    rw [← hsame.1, ← hsame.2]

theorem fits_of_reconcileAgentHello
    (h : reconcileAgentHello env now durableLog db agentId (some current) capabilities =
      .ok (outcome, db'))
    (hdecision : outcome.decision = some decision) : Fits current db' decision := by
  simp only [reconcileAgentHello, bind_eq_ok, require_eq_ok] at h
  obtain ⟨agent, -, h⟩ := h
  split at h
  · rename_i hnone
    cases hnone
  · rename_i taskId hsome
    obtain rfl : current.taskId = taskId := Option.some.inj hsome
    split at h
    · rw [decision_of_failActive h] at hdecision
      cases hdecision
    · split at h
      · exact fits_of_abandoned (Or.inl rfl) (decision_of_failActive h) hdecision
      · rename_i task hrow
        rw [reconcileFoundTask] at h
        split at h
        · exact fits_of_abandoned (Or.inl rfl) (decision_of_failActive h) hdecision
        · split at h
          · exact fits_of_abandoned (Or.inl rfl) (decision_of_failAndAnswer h) hdecision
          · dsimp only at h
            split at h
            · exact fits_of_abandoned (Or.inl rfl) (decision_of_failAndAnswer h) hdecision
            · simp only [bind_eq_ok] at h
              obtain ⟨log, -, h⟩ := h
              refine fits_of_reconcileHeldTask h ?_ hdecision
              obtain ⟨aligned, haligned, hsame⟩ := row_of_alignLogCursor hrow log
              exact ⟨aligned, haligned, by rw [hsame]⟩

/-! The agent breaks no rule of its own -/

section

variable {σ τ δ α β : Type} {x : Interruptible AgentError σ α} {ok : α → σ → Prop} {s : σ}

/-- From the state `s` the computation ends as `ok` says, or with an error that is no error of the
protocol. -/
def EndsProperly (x : Interruptible AgentError σ α) (ok : α → σ → Prop) (s : σ) : Prop :=
  Ends x ok (fun e _ => ∀ message, e ≠ .protocol message) (fun _ => True) s

/-- The computation does not fail with an error of the protocol. -/
def Proper (x : Interruptible AgentError σ α) : Prop :=
  ∀ s, EndsProperly x (fun _ _ => True) s

theorem EndsProperly.bind {f : α → Interruptible AgentError σ β} {ok' : β → σ → Prop}
    (hx : EndsProperly x ok s) (hf : ∀ a t, ok a t → EndsProperly (f a) ok' t) :
    EndsProperly (x >>= f) ok' s :=
  ends_bind (hx.imp hf (fun _ _ h => h) fun _ h => h)

theorem EndsProperly.imp {ok' : α → σ → Prop} (hx : EndsProperly x ok s)
    (h : ∀ a t, ok a t → ok' a t) : EndsProperly x ok' s :=
  Ends.imp hx h (fun _ _ h => h) fun _ h => h

/-- What the computation keeps whatever goes wrong. -/
theorem Proper.keeping {P : σ → Prop} (hx : Proper x) (h : Stays P x s) :
    EndsProperly x (fun _ => P) s := by
  intro faults
  refine ((hx s faults).and (h faults)).imp (fun _ _ hboth => hboth.2) fun stop t hboth => ?_
  cases stop with
  | failed e => exact hboth.1
  | crashed => exact trivial

theorem proper_pure (a : α) : Proper (pure a : Interruptible AgentError σ α) :=
  fun _ => ends_pure trivial

theorem proper_modify (g : σ → σ) : Proper (modify g : Interruptible AgentError σ Unit) :=
  fun _ => ends_modify trivial

theorem proper_get : Proper (get : Interruptible AgentError σ σ) :=
  fun _ => ends_get trivial

theorem Proper.bind {f : α → Interruptible AgentError σ β} (hx : Proper x)
    (hf : ∀ a, Proper (f a)) : Proper (x >>= f) :=
  fun s => (hx s).bind fun a t _ => hf a t

theorem Proper.recover {handler : AgentError → Interruptible AgentError σ α} (hx : Proper x)
    (hhandler : ∀ e, Proper (handler e)) : Proper (recover x handler) :=
  fun s => ends_recover (Ends.imp (hx s) (fun _ _ h => h) (fun e t _ => hhandler e t) fun _ h => h)

theorem proper_onlyIf {c : Prop} [Decidable c] {x : Interruptible AgentError σ Unit}
    (hx : Proper x) : Proper (Effect.onlyIf c x) := by
  rw [Effect.onlyIf]
  split
  · exact hx
  · exact proper_pure ()

theorem proper_each {f : β → Interruptible AgentError σ Unit} (hf : ∀ b, Proper (f b))
    (items : List β) : Proper (each f items) :=
  fun _ => ends_each (fun b _ s _ => hf b s) trivial

theorem proper_zoom {read : σ → τ} {write : τ → σ → σ} {wrap : δ → AgentError}
    {x : Interruptible δ τ α} (hwrap : ∀ e message, wrap e ≠ .protocol message) :
    Proper (zoom read write wrap x) := by
  refine fun s => ends_zoom ?_
  exact (Leads.ends (r := fun _ _ => True) (fun _ => trivial) (read s)).imp
    (fun _ _ _ => trivial) (fun e _ _ => hwrap e) fun _ _ => trivial

end

variable {settings : Settings} {host : Host} {answers : Answers} {outside : Surroundings}
  {p : Process} {s t : AgentRuntime.Agent} {task : ActiveTask} {payload : TaskRecoveryPayload}

theorem proper_send (message : Message) : Proper (send message) :=
  fun _ => ends_call trivial (fun _ _ h => by cases h) fun _ => trivial

theorem proper_withActive {f : ActiveTask → Act} (hf : ∀ task, Proper (f task)) :
    Proper (withActive f) := by
  refine Proper.bind proper_get fun s => ?_
  cases s.active with
  | none => exact proper_pure ()
  | some task => exact hf task

theorem proper_modifyTask (g : ActiveTask → ActiveTask) : Proper (modifyTask g) :=
  proper_modify _

theorem proper_persistAndSendLog (stream : LogStream) (chunk : AgentRedactor.Text) :
    Proper (persistAndSendLog host answers stream chunk) := by
  refine proper_withActive fun task => Proper.bind (proper_modify _) fun _ => ?_
  refine Proper.bind (proper_zoom fun _ _ h => by cases h) fun appended => proper_onlyIf ?_
  refine Proper.bind (fun _ => ends_elapses (fun _ => trivial) trivial) fun late => ?_
  split
  · exact (proper_send _).recover fun _ => proper_pure ()
  · exact proper_send _

theorem proper_persistExecutionOutput (stream : LogStream) (chunk : AgentRedactor.Text) :
    Proper (persistExecutionOutput host answers stream chunk) :=
  proper_withActive fun _ => (proper_modifyTask _).bind fun _ =>
    proper_onlyIf (proper_persistAndSendLog _ _)

theorem proper_flushLogTails : Proper (flushLogTails host answers) :=
  proper_withActive fun _ => (proper_modifyTask _).bind fun _ =>
    proper_each (fun tail : LogStream × AgentRedactor.Text =>
      proper_persistExecutionOutput tail.1 tail.2) _

theorem proper_stopExecution : Proper (stopExecution host answers) := by
  refine proper_get.bind fun s => Proper.bind (proper_onlyIf ?_) fun _ =>
    (proper_modify _).bind fun _ => proper_modifyTask _
  refine Proper.bind (Proper.recover ?_ fun _ => proper_pure ()) fun _ =>
    proper_onlyIf (proper_modifyTask _)
  exact proper_each (fun output : LogStream × AgentRedactor.Text =>
    proper_persistExecutionOutput output.1 output.2) _

/-! The agent reads the answer -/

/-- The agent has the task. -/
def Keeps (task : ActiveTask) (s : AgentRuntime.Agent) : Prop :=
  ∃ held, s.active = some held ∧ held.assignment = task.assignment

/-- The agent has the task, with a result of this kind for its lease. -/
def Settled (task : ActiveTask) (status : BuildTaskStatus) (s : AgentRuntime.Agent) : Prop :=
  ∃ held result, s.active = some held ∧ held.assignment = task.assignment ∧
    held.pendingResult = some result ∧ result.lease = task.lease ∧ result.status = status

theorem unmoved_keeps (task : ActiveTask) : Unmoved (Keeps task) where
  modify := by
    rintro s g ⟨held, hheld, hsame⟩ hg
    exact ⟨g held, by rw [hheld, Option.map_some], (hg held).1.trans hsame⟩
  emit _ _ h := h
  receiver _ _ h := h
  push _ _ h _ := h

/-- A task that gets a result, which is reported, is settled. -/
theorem settled_report {held : ActiveTask} {g : ActiveTask → ActiveTask}
    {result : PendingTerminalResult} {status : BuildTaskStatus} (hheld : s.active = some held)
    (hsame : held.assignment = task.assignment)
    (hg : g held = { held with pendingResult := some result }) (hlease : result.lease = task.lease)
    (hkind : result.status = status) :
    EndsProperly (do modifyTask g; send (.result result)) (fun _ => Settled task status) s := by
  have hsettled : Settled task status { s with active := s.active.map g } :=
    ⟨g held, result, by rw [hheld, Option.map_some], by rw [hg]; exact hsame, by rw [hg],
      hlease, hkind⟩
  exact ends_bind (ends_modify (ends_call hsettled (fun _ _ h => by cases h) fun _ => trivial))

theorem lease_of_assignment {held : ActiveTask} (h : held.assignment = task.assignment) :
    held.lease = task.lease := by
  rw [ActiveTask.lease, h, ActiveTask.lease]

theorem settled_failActiveTask (h : Keeps task s) (reason : String) (exitCode : Option Int) :
    EndsProperly (failActiveTask reason exitCode) (fun _ => Settled task .failed) s := by
  obtain ⟨held, hheld, hsame⟩ := h
  refine ends_bind (ends_get ?_)
  rw [hheld]
  exact settled_report hheld hsame rfl (lease_of_assignment hsame) rfl

theorem settled_confirmCancellation (h : Keeps task s) :
    EndsProperly confirmCancellation (fun _ => Settled task .canceled) s := by
  obtain ⟨held, hheld, hsame⟩ := h
  refine ends_bind (ends_get ?_)
  rw [hheld]
  exact settled_report hheld hsame rfl (lease_of_assignment hsame) rfl

/-- A cancellation that is for the task settles it. -/
theorem settled_handleTaskCancel {cancel : TaskCancelPayload} (htask : s.active = some task)
    (haddressed : task.isAddressed cancel = true) :
    EndsProperly (handleTaskCancel host answers cancel)
      (fun _ => Settled task (task.cancellation answers)) s := by
  have hkeeps : Keeps task s := ⟨task, htask, rfl⟩
  refine ends_bind (ends_get ?_)
  rw [htask]
  show EndsProperly (if task.isAddressed cancel = false then _ else _) _ _
  rw [if_neg (by simp [haddressed])]
  refine EndsProperly.bind ((proper_modifyTask _).keeping
    ((unmoved_keeps task).modifyTask hkeeps fun _ => ⟨rfl, rfl⟩)) fun _ t ht => ?_
  rw [ActiveTask.cancellation]
  split
  · rename_i hkept
    rw [hkept, Bool.true_or, if_pos rfl]
    exact settled_failActiveTask ht _ _
  · rename_i hreleased
    rw [Bool.not_eq_true _ |>.mp hreleased, Bool.false_or]
    refine EndsProperly.bind ((proper_modifyTask _).keeping
      ((unmoved_keeps task).modifyTask ht fun _ => ⟨rfl, rfl⟩)) fun _ u hu => ?_
    refine EndsProperly.bind (proper_stopExecution.keeping
      ((unmoved_keeps task).stopExecution hu)) fun _ u hu => ?_
    refine EndsProperly.bind (proper_flushLogTails.keeping
      ((unmoved_keeps task).flushLogTails hu)) fun _ u hu => ?_
    split
    · exact settled_failActiveTask hu _ _
    · exact settled_confirmCancellation hu

theorem isAddressed_recoveryCancel (task : ActiveTask) :
    task.isAddressed (recoveryCancel task) = true := by
  simp [ActiveTask.isAddressed, recoveryCancel, TaskInput.constantTimeEqual_self]

/-- An acknowledgement changes nothing of the task but its log. -/
theorem endsProperly_acknowledgeLogs (htask : s.active = some task) (sequence : Nat) :
    EndsProperly (acknowledgeLogs host task sequence)
      (fun _ t => ∃ logs, t.active = some { task with logs }) s := by
  refine ends_zoom ((Leads.ends (r := fun _ _ => True) (fun _ => trivial) _).imp
    (fun _ logs _ => ?_) (fun _ _ _ _ h => by cases h) fun _ _ => trivial)
  exact ⟨task.logs.setHost logs, by rw [Agent.setLogs, htask, Option.map_some]⟩

theorem settled_recoveryCancel (htask : s.active = some task) (sequence : Nat) :
    EndsProperly (do
      acknowledgeLogs host task sequence
      handleTaskCancel host answers (recoveryCancel task))
      (fun _ => Settled task (task.cancellation answers)) s := by
  refine EndsProperly.bind (endsProperly_acknowledgeLogs htask sequence) fun _ t ht => ?_
  obtain ⟨logs, ht⟩ := ht
  have hsettled := @settled_handleTaskCancel host answers t { task with logs } (recoveryCancel task)
    ht (isAddressed_recoveryCancel task)
  exact hsettled

theorem endsProperly_onAgent {action : Act} {ok : Unit → AgentRuntime.Agent → Prop}
    (h : EndsProperly action ok p.agent) :
    EndsProperly (onAgent action) (fun a q => ok a q.agent) p :=
  ends_zoom (Ends.imp h (fun _ _ h => h) (fun _ _ h => h) fun _ h => h)

theorem isAgentReportable_currentStatus (task : ActiveTask) :
    isAgentReportable task.currentStatus = true := by
  rw [ActiveTask.currentStatus]
  split
  · rfl
  · split
    · rfl
    · rfl

/-! The two sides together -/

/-- What the agent has made of an answer with this action, and what the server has. -/
def Recovered (task : ActiveTask) (answers : Answers) (db db' : Db) (agentId : Id) :
    RecoveryAction → Option BuildTaskStatus → Process → Prop
  | .resume, status, q => status = some task.currentStatus ∧
      (∃ logs, q.agent.active = some { task with logs }) ∧
      ∃ row, db'.tasks.row (JsString.ofChars task.assignment.taskId) = some row ∧
        row.status = task.currentStatus
  | .cancel, status, q => status = none ∧ Settled task (task.cancellation answers) q.agent ∧
      ∃ row, db'.tasks.row (JsString.ofChars task.assignment.taskId) = some row ∧
        row.status = .canceling
  | .abandon, status, q => status = none ∧ q.agent.active = none ∧ Released db db' agentId

theorem taskId_of_fits (hfits : Fits (activeCurrentTask task) db decision)
    (hcanonical : asciiLower (JsString.ofChars task.assignment.taskId) =
      JsString.ofChars task.assignment.taskId) (hcarries : Carries payload decision) :
    payload.taskId = task.assignment.taskId := by
  apply JsString.ofChars_injective
  rw [hcarries.taskId]
  rcases hfits.taskId with h | h
  · exact h
  · exact h.trans hcanonical

/-- An agent that has the task acts on an answer that fits. -/
theorem recovered_of_fits (hfits : Fits (activeCurrentTask task) db' decision)
    (hcanonical : asciiLower (JsString.ofChars task.assignment.taskId) =
      JsString.ofChars task.assignment.taskId) (hcarries : Carries payload decision)
    (hreleased : decision.action = .abandon → Released db db' agentId)
    (htask : p.agent.active = some task) :
    EndsProperly (waitForRecovery settings outside (some payload) task)
      (Recovered task outside.toAnswers db db' agentId decision.action) p := by
  have hid := taskId_of_fits hfits hcanonical hcarries
  have hstatus : decision.action ≠ .abandon → payload.status = some task.currentStatus :=
    fun haction => hcarries.status.trans (hfits.keeping haction).status
  have hrow : decision.action ≠ .abandon →
      ∃ row, db'.tasks.row (JsString.ofChars task.assignment.taskId) = some row ∧
        row.status = keptStatus (activeCurrentTask task) decision.action := fun haction => by
    have hrow := (hfits.keeping haction).row
    rwa [show asciiLower (activeCurrentTask task).taskId = JsString.ofChars task.assignment.taskId
      from hcanonical] at hrow
  have haction := hcarries.action
  have hagrees : ¬ (isAgentReportable task.currentStatus = false ∨
      task.currentStatus ≠ task.currentStatus) := by
    simp [isAgentReportable_currentStatus]
  simp only [waitForRecovery, hid, ne_eq, not_true_eq_false, if_false]
  cases hdecided : decision.action with
  | abandon =>
      rw [hdecided] at haction
      rw [haction]
      exact ends_bind (ends_modify (ends_pure ⟨rfl, rfl, hreleased hdecided⟩))
  | resume =>
      rw [hdecided] at haction hstatus hrow
      rw [haction, hstatus (by decide)]
      dsimp only [actionOf]
      rw [if_neg hagrees]
      refine EndsProperly.bind (endsProperly_onAgent (endsProperly_acknowledgeLogs htask _)) ?_
      exact fun _ q hq => ends_pure ⟨rfl, hq, hrow (by decide)⟩
  | cancel =>
      rw [hdecided] at haction hstatus hrow
      rw [haction, hstatus (by decide)]
      dsimp only [actionOf]
      rw [if_neg hagrees]
      refine EndsProperly.bind (endsProperly_onAgent (settled_recoveryCancel htask _)) ?_
      exact fun _ q hq => ends_pure ⟨rfl, hq, hrow (by decide)⟩

/-- The row that a disconnection leaves. -/
def lostRow (gone : Time) (row : BuildTask) : BuildTask :=
  (TransitionData.of (markLost gone row.status)).write gone .agentLost
    (some (JsString.ofString "Agent disconnected while task was " ++ statusLower row.status)) row

/-- The row after the agent has come back. -/
def resumedRow (back : Time) (log : LogFileState) (row : BuildTask) : BuildTask :=
  { row with
    statusReason := some (JsString.ofString "Agent reconnected and resumed task in " ++
      statusLower row.status)
    recoveryStatus := none
    agentLostAt := none
    recoveryDeadlineAt := none
    lastLogSequence := log.lastSequence
    logSize := log.size
    updatedAt := back }

/-- The agent comes back in the phase that it was lost in, with a lease that can be verified. -/
structure Returning (env : Environment) (taskId : Id) (row : BuildTask)
    (current : AgentCurrentTask) (capabilities : List JsString) : Prop where
  wellFormed : matchesUuid current.taskId = true
  taskId : asciiLower current.taskId = taskId
  status : current.status = row.status
  token : row.leaseHash = some (env.hashToken current.leaseToken)
  hashed : env.hashToken current.leaseToken ≠ []
  capable : (row.interactiveInputEnabled && !capabilities.contains taskInputCapability) = false

variable {gone back : Time} {lost later : Db} {log : LogFileState} {expires : Time}

theorem row_of_disconnectTask (hrow : db.tasks.row taskId = some row)
    (hphase : row.status.isAgentExecutionPhase = true)
    (h : disconnectTask gone db agentId taskId = .ok (true, lost)) :
    lost.tasks.row taskId = some (lostRow gone row) ∧ row.agentId = agentId := by
  rw [disconnectTask] at h
  split at h
  · cases h
  · rw [hrow] at h
    dsimp only at h
    split at h
    · cases h
    · rename_i howner
      rw [ne_eq, not_not] at howner
      split at h
      · rename_i hqueued
        rw [hqueued] at hphase
        cases hphase
      · split at h
        · rename_i hdispatched
          rw [hdispatched.1] at hphase
          cases hphase
        · split at h
          · simp only [bind_eq_ok] at h
            obtain ⟨moved, hmoved, h⟩ := h
            obtain ⟨-, rfl⟩ := Prod.mk.inj (Except.ok.inj h)
            rcases taskChange_transition hmoved hrow with ⟨hsame, -⟩ | ⟨-, hchange⟩
            · rw [hsame] at hphase
              cases hphase
            · exact ⟨hchange.after, howner⟩
          · split at h
            · rename_i hcanceling
              rw [hcanceling.1] at hphase
              cases hphase
            · cases h

theorem leaseUsable_lostRow (htoken : row.leaseHash = some (env.hashToken current.leaseToken))
    (hhashed : env.hashToken current.leaseToken ≠ [])
    (hexpires : row.leaseExpiresAt = some expires) :
    leaseUsable back (lostRow gone row) = decide (back < expires) := by
  have htruthy : (truthy (lostRow gone row).leaseHash).isSome = true := by
    rw [show (lostRow gone row).leaseHash = row.leaseHash from rfl, htoken, truthy]
    simp [hhashed]
  rw [leaseUsable, htruthy, show (lostRow gone row).leaseExpiresAt = row.leaseExpiresAt from rfl,
    hexpires]
  simp [show (lostRow gone row).status = .agentLost from rfl]

/-- All checks before the lease and the phase are passed. -/
theorem reconcileAgentHello_of_returning
    (hreturning : Returning env taskId row current capabilities)
    (hactive : activeTask later agentId = some taskId) (howner : row.agentId = agentId)
    (hlater : later.tasks.row taskId = some (lostRow gone row))
    (hlog : durableLog taskId = .ok log) :
    reconcileAgentHello env back durableLog later agentId (some current) capabilities =
      if leaseUsable back (lostRow gone row) = false then
        failActive back later agentId (some taskId)
          (some (abandon current.taskId 0 "Server could not match the Agent current task"))
      else reconcileHeldTask back (alignLogCursor back later taskId (lostRow gone row) log) agentId
        taskId (lostRow gone row) current log.lastSequence := by
  obtain ⟨agent, hagent, hslot⟩ := Option.bind_eq_some_iff.mp hactive
  have hfound : later.findTask current.taskId = some (lostRow gone row) := by
    rw [Db.findTask, hreturning.taskId, hlater]
  have hrequire : require (later.lockAgent agentId) (Failure.api .resourceNotFound) = .ok agent :=
    require_eq_ok.mpr hagent
  have hverified : env.verify current.leaseToken ((lostRow gone row).leaseHash.getD []) = true := by
    rw [show (lostRow gone row).leaseHash = row.leaseHash from rfl, hreturning.token,
      Option.getD_some, Environment.verify, decide_eq_true_eq]
  rw [reconcileAgentHello, hrequire]
  dsimp only [bind, Except.bind, Option.map_some, Option.some_or]
  rw [hreturning.wellFormed, hfound]
  simp only [Bool.true_eq_false, if_false, reconcileFoundTask, hslot, hreturning.taskId,
    show (lostRow gone row).agentId = agentId from howner, ne_eq, not_true_eq_false, false_or,
    show (lostRow gone row).interactiveInputEnabled = row.interactiveInputEnabled from rfl,
    hreturning.capable, Option.map_some, hverified, hlog]
  rfl

theorem reconcileHeldTask_of_lost (hphase : row.status.isAgentExecutionPhase = true)
    (hstatus : current.status = row.status) :
    reconcileHeldTask back db agentId taskId (lostRow gone row) current acknowledged =
      if recoveryDeadline gone row.leaseExpiresAt ≤ back then
        failAndAnswer back db agentId taskId (some (abandon taskId acknowledged
          "Task recovery window expired or phase did not match"))
      else do
        let moved ← transition back db taskId row.status .system
          (some (JsString.ofString "Agent reconnected and resumed task in " ++
            statusLower row.status))
          (.of fun task => { task with
            recoveryStatus := none
            agentLostAt := none
            recoveryDeadlineAt := none })
        return (⟨some ⟨taskId, .resume, some row.status, acknowledged,
          some (recoveryDeadline gone row.leaseExpiresAt), none⟩,
          some (taskId, current.leaseToken), []⟩, moved) := by
  rw [reconcileHeldTask, if_pos (show (lostRow gone row).status = .agentLost from rfl)]
  show (if row.status.isAgentExecutionPhase = false ∨ _ ≤ back ∨ current.status ≠ row.status then _
    else _) = _
  rw [hphase, hstatus]
  simp only [Bool.true_eq_false, false_or, ne_eq, not_true_eq_false, or_false]

/-- Before its deadline the task goes on where it was. -/
theorem resumed_of_returning (hslots : (slots later).Consistent)
    (hphase : row.status.isAgentExecutionPhase = true)
    (hreturning : Returning env taskId row current capabilities) (howner : row.agentId = agentId)
    (hlater : later.tasks.row taskId = some (lostRow gone row))
    (hexpires : row.leaseExpiresAt = some expires) (hlog : durableLog taskId = .ok log)
    (hback : back < recoveryDeadline gone row.leaseExpiresAt) :
    ∃ resumed, reconcileAgentHello env back durableLog later agentId (some current) capabilities =
        .ok (⟨some ⟨taskId, .resume, some row.status, log.lastSequence,
          some (recoveryDeadline gone row.leaseExpiresAt), none⟩,
          some (taskId, current.leaseToken), []⟩, resumed) ∧
      resumed.tasks.row taskId = some (resumedRow back log row) ∧
        activeTask resumed agentId = some taskId := by
  have hactive := active_of_holds hslots hlater howner rfl
  have hlive : back < expires := by
    rw [hexpires, recoveryDeadline] at hback
    exact lt_of_lt_of_le hback (min_le_right _ _)
  obtain ⟨haligned, hsame, -⟩ :=
    @alignLogCursor_slots back later agentId taskId _ hslots hlater log
  obtain ⟨aligned, hrow, hfields⟩ := @row_of_alignLogCursor back later taskId _ hlater log
  have hcan : aligned.status.canTransition row.status = true := by
    rw [hfields]
    exact canTransition_recovery hphase
  have hfree : ¬ (row.status.holdsSlot ∧ (alignLogCursor back later taskId (lostRow gone row)
      log).slotTaken aligned.agentId taskId) := by
    rw [hfields, show (lostRow gone row).agentId = agentId from howner,
      slotTaken_of_active haligned (hsame.trans hactive)]
    exact fun htaken => Bool.false_ne_true htaken.2
  rw [reconcileAgentHello_of_returning hreturning hactive howner hlater hlog,
    leaseUsable_lostRow hreturning.token hreturning.hashed hexpires, if_neg (by simpa using hlive),
    reconcileHeldTask_of_lost hphase hreturning.status, if_neg (not_le.mpr hback),
    transition_of_can hrow hcan hfree]
  refine ⟨_, rfl, ?_, ?_⟩
  · rw [(taskChange_setStatus hrow).after, hfields]
    rfl
  · rw [(taskChange_setStatus hrow).active, hsame, hactive]

/-- After its deadline it is given up. -/
theorem abandoned_of_returning (hslots : (slots later).Consistent)
    (hphase : row.status.isAgentExecutionPhase = true)
    (hreturning : Returning env taskId row current capabilities) (howner : row.agentId = agentId)
    (hlater : later.tasks.row taskId = some (lostRow gone row)) (hlog : durableLog taskId = .ok log)
    (hback : recoveryDeadline gone row.leaseExpiresAt ≤ back) :
    ∃ outcome ended, reconcileAgentHello env back durableLog later agentId (some current)
        capabilities = .ok (outcome, ended) ∧
      outcome.decision.map AgentRecoveryDecision.action = some .abandon ∧
        Released later ended agentId := by
  have hactive := active_of_holds hslots hlater howner rfl
  rw [reconcileAgentHello_of_returning hreturning hactive howner hlater hlog]
  split
  · obtain ⟨ended, hok, hreleased⟩ := @failAndAnswer_active back later agentId taskId hslots hactive
      (some (abandon current.taskId 0 "Server could not match the Agent current task"))
    exact ⟨_, ended, hok, rfl, hreleased⟩
  · obtain ⟨haligned, hsame, -⟩ :=
      @alignLogCursor_slots back later agentId taskId _ hslots hlater log
    rw [reconcileHeldTask_of_lost hphase hreturning.status, if_pos hback]
    obtain ⟨ended, hok, hreleased⟩ := @failAndAnswer_active back _ agentId taskId haligned
      (hsame.trans hactive) (some (abandon taskId log.lastSequence
        "Task recovery window expired or phase did not match"))
    exact ⟨_, ended, hok, rfl, released_of_aligned hslots hlater log hreleased hactive⟩

/-- A task whose agent is lost goes on where it was if the agent is back before the deadline, and
is given up otherwise. -/
theorem resumed_of_disconnectTask (env : Environment) (gone back : Time) (db lost later : Db)
    (durableLog : Id → Except Failure LogFileState) (agentId taskId : Id) (row : BuildTask)
    (current : AgentCurrentTask) (capabilities : List JsString) (log : LogFileState)
    (hreachable : (taskSystem env).Reachable later)
    (hrow : db.tasks.row taskId = some row) (hphase : row.status.isAgentExecutionPhase = true)
    (hgone : disconnectTask gone db agentId taskId = .ok (true, lost))
    (hkept : later.tasks.row taskId = lost.tasks.row taskId)
    (hreturning : Returning env taskId row current capabilities)
    (hlog : durableLog taskId = .ok log) :
    (back < recoveryDeadline gone row.leaseExpiresAt →
      ∃ resumed, reconcileAgentHello env back durableLog later agentId (some current) capabilities =
          .ok (⟨some ⟨taskId, .resume, some row.status, log.lastSequence,
            some (recoveryDeadline gone row.leaseExpiresAt), none⟩,
            some (taskId, current.leaseToken), []⟩, resumed) ∧
        resumed.tasks.row taskId = some (resumedRow back log row) ∧
          activeTask resumed agentId = some taskId) ∧
    (recoveryDeadline gone row.leaseExpiresAt ≤ back →
      ∃ outcome ended, reconcileAgentHello env back durableLog later agentId (some current)
          capabilities = .ok (outcome, ended) ∧
        outcome.decision.map AgentRecoveryDecision.action = some .abandon ∧
          Released later ended agentId) := by
  have hinv := slotInvariant_of_reachable hreachable
  obtain ⟨hlost, howner⟩ := row_of_disconnectTask hrow hphase hgone
  have hlater := hkept.trans hlost
  constructor
  · intro hback
    obtain ⟨expires, hexpires⟩ :=
      Option.ne_none_iff_exists'.mp ((hinv.leases taskId _ hlater).1 rfl).2
    exact resumed_of_returning hinv.consistent hphase hreturning howner hlater hexpires hlog hback
  · intro hback
    exact abandoned_of_returning hinv.consistent hphase hreturning howner hlater hlog hback

/-! An agent that reconnects while it prepares -/

/-- The agent when it has taken on the task. -/
def assignedAgent : Process :=
  [TerminalAgreement.connectTurn, TerminalAgreement.assignTurn].foldl
    (Process.after demoSettings) newProcess

theorem isSome_assignedAgent : assignedAgent.agent.active.isSome = true := by
  decide +kernel

def assignedTask : ActiveTask :=
  assignedAgent.agent.active.get isSome_assignedAgent

theorem value_of_toOption {ε α β : Type} {x : Except ε α} {f : α → β} {b : β}
    (h : x.toOption.map f = some b) : ∃ hok : x.isOk = true, f (value x hok) = b := by
  cases x with
  | ok a => exact ⟨rfl, Option.some.inj h⟩
  | error e => cases h

/-- The claim and the acceptance succeed, in one evaluation. -/
theorem claim_then_accept :
    (claimInTransaction SlotSystem.demoEnvironment demoRegistry 0
        (fun _ => (activeCurrentTask assignedTask).leaseToken) queuedDb SlotSystem.demoAgentId
          none).toOption.map
      (fun claimed => (accept SlotSystem.demoEnvironment 0 claimed.2 SlotSystem.demoAgentId
        SlotSystem.demoTaskId (activeCurrentTask assignedTask).leaseToken).isOk) = some true := by
  decide +kernel

theorem isOk_claim : (claimInTransaction SlotSystem.demoEnvironment demoRegistry 0
    (fun _ => (activeCurrentTask assignedTask).leaseToken) queuedDb SlotSystem.demoAgentId
      none).isOk = true :=
  (value_of_toOption claim_then_accept).fst

theorem isOk_accept : (accept SlotSystem.demoEnvironment 0 (value _ isOk_claim).2
    SlotSystem.demoAgentId SlotSystem.demoTaskId
      (activeCurrentTask assignedTask).leaseToken).isOk = true :=
  (value_of_toOption claim_then_accept).snd

/-- The database when the agent has accepted the task. -/
def acceptedDb : Db := value _ isOk_accept

theorem reachable_acceptedDb : (taskSystem SlotSystem.demoEnvironment).Reachable acceptedDb := by
  have hinit : (taskSystem SlotSystem.demoEnvironment).Reachable demoDb := by
    refine .init ⟨fun _ => rfl, fun agentId => ?_⟩
    show (if agentId = SlotSystem.demoAgentId then some _ else none : Option _).bind _ = none
    split <;> rfl
  have hqueued : (taskSystem SlotSystem.demoEnvironment).Reachable queuedDb :=
    hinit.step (.createTask (eq_ok_value _ createTask_demoDb))
  exact (hqueued.step (.claim (eq_ok_value _ isOk_claim))).step
    (.accept (eq_ok_value _ isOk_accept))

/-- What comes of `acceptedDb`, in one evaluation of the run. -/
theorem acceptedDb_answers :
    (reconcileAgentHello SlotSystem.demoEnvironment 0 (fun _ => .ok ⟨0, 0⟩) acceptedDb
        SlotSystem.demoAgentId (some (activeCurrentTask assignedTask)) []).toOption.map
          (fun answer => answer.1.decision.map AgentRecoveryDecision.action) =
        some (some .resume) ∧
      (disconnectTask 0 acceptedDb SlotSystem.demoAgentId SlotSystem.demoTaskId).toOption.map
        Prod.fst = some true ∧
      matchesUuid (activeCurrentTask assignedTask).taskId = true ∧
      asciiLower (activeCurrentTask assignedTask).taskId = (activeCurrentTask assignedTask).taskId ∧
      (activeCurrentTask assignedTask).taskId = SlotSystem.demoTaskId ∧
      SlotSystem.demoEnvironment.hashToken (activeCurrentTask assignedTask).leaseToken ≠ [] ∧
      ∃ row ∈ acceptedDb.tasks.row SlotSystem.demoTaskId,
        (activeCurrentTask assignedTask).status = row.status ∧
          row.leaseHash = some (SlotSystem.demoEnvironment.hashToken
            (activeCurrentTask assignedTask).leaseToken) ∧
          row.interactiveInputEnabled = false ∧ row.status.isAgentExecutionPhase = true ∧
          1000 < recoveryDeadline 0 row.leaseExpiresAt := by
  decide +kernel

theorem isOk_hello :
    (reconcileAgentHello SlotSystem.demoEnvironment 0 (fun _ => .ok ⟨0, 0⟩) acceptedDb
      SlotSystem.demoAgentId (some (activeCurrentTask assignedTask)) []).isOk = true :=
  (value_of_toOption acceptedDb_answers.1).fst

theorem isOk_disconnect :
    (disconnectTask 0 acceptedDb SlotSystem.demoAgentId SlotSystem.demoTaskId).isOk = true :=
  (value_of_toOption acceptedDb_answers.2.1).fst

def lostDb : Db := (value _ isOk_disconnect).2

theorem disconnectTask_acceptedDb :
    disconnectTask 0 acceptedDb SlotSystem.demoAgentId SlotSystem.demoTaskId =
      .ok (true, lostDb) := by
  have htrue : (value _ isOk_disconnect).1 = true :=
    (value_of_toOption acceptedDb_answers.2.1).snd
  rw [eq_ok_value _ isOk_disconnect, lostDb, ← htrue]

theorem isSome_acceptedDb : (acceptedDb.tasks.row SlotSystem.demoTaskId).isSome = true := by
  obtain ⟨-, -, -, -, -, -, row, hrow, -⟩ := acceptedDb_answers
  exact Option.isSome_of_mem hrow

def acceptedRow : BuildTask :=
  (acceptedDb.tasks.row SlotSystem.demoTaskId).get isSome_acceptedDb

theorem acceptedRow_returning :
    Returning SlotSystem.demoEnvironment SlotSystem.demoTaskId acceptedRow
        (activeCurrentTask assignedTask) [] ∧
      acceptedRow.status.isAgentExecutionPhase = true ∧
      1000 < recoveryDeadline 0 acceptedRow.leaseExpiresAt := by
  obtain ⟨-, -, huuid, hcanonical, htaskId, hhashed, row, hrow, hstatus, htoken, hplain, hphase,
    hback⟩ := acceptedDb_answers
  obtain rfl : acceptedRow = row := Option.some.inj ((Option.some_get _).trans hrow)
  refine ⟨⟨huuid, hcanonical.trans htaskId, hstatus, htoken, hhashed, ?_⟩, hphase, hback⟩
  rw [hplain, Bool.false_and]

/-- The agent is back after a second. -/
theorem resumed_lostDb :
    ∃ resumed, resumed.tasks.row SlotSystem.demoTaskId =
        some (resumedRow 1000 ⟨0, 0⟩ acceptedRow) ∧
      activeTask resumed SlotSystem.demoAgentId = some SlotSystem.demoTaskId := by
  obtain ⟨hreturning, hphase, hback⟩ := acceptedRow_returning
  obtain ⟨hresumes, -⟩ := resumed_of_disconnectTask SlotSystem.demoEnvironment 0 1000 acceptedDb
    lostDb lostDb (fun _ => .ok ⟨0, 0⟩) SlotSystem.demoAgentId SlotSystem.demoTaskId acceptedRow
    (activeCurrentTask assignedTask) [] ⟨0, 0⟩
    (reachable_acceptedDb.step (.onAgentDisconnected disconnectTask_acceptedDb))
    (Option.some_get _).symm hphase disconnectTask_acceptedDb rfl hreturning rfl
  obtain ⟨resumed, -, hrow, hactive⟩ := hresumes hback
  exact ⟨resumed, hrow, hactive⟩

end AnvilRun.RecoveryHandshake
