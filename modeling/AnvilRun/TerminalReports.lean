import AnvilRun.AgentIsolation
import AnvilRun.QueueEffects
import AnvilRun.RecoveryFields

namespace AnvilRun.TerminalReports

open AnvilRun.AgentMessages
open AnvilRun.ArtifactsService
open AnvilRun.Effect
open AnvilRun.Fallible
open AnvilRun.TaskDatabase
open AnvilRun.TaskQueue
open AnvilRun.ValidationPrimitives

/-- The agent is connected on this socket, and its hello is complete. -/
structure Connected (s : Server) (agentId : Id) : Prop where
  known : s.socket.known = true
  helloReceived : s.socket.helloReceived = true
  isOpen : s.socket.isOpen = true
  ready : s.registry.isReady agentId = true

/-- The connection is closed, or an acknowledgement of a result of the task has been sent on it. -/
def Settled (s t : Server) (taskId : JsString) : Prop :=
  t.socket.isOpen = false ∨
    ∃ id status, asciiLower id = asciiLower taskId ∧ t.sent = s.sent ++ [.resultAck id status]

/-- When the server takes the report of a failure: it knows the failure already and the log lease
is still good, or the agent executes the task under the lease. -/
def FailureAccepted (env : Environment) (now : Time) (db : Db) (agentId : Id)
    (message : TaskFailedMessage) : Prop :=
  matchesUuid message.taskId = true ∧ validExitCode message.exitCode = true ∧
    ∃ agent task, db.lockAgent agentId = some agent ∧ db.findTask message.taskId = some task ∧
      agent.enabled = true ∧ agent.status = .online ∧ task.agentId = agentId ∧
      (task.status = .failed ∧ logLeaseOpens env now task message.leaseToken = true ∨
        (task.status = .preparing ∨ task.status = .running ∨ task.status = .uploading ∨
          task.status = .canceling) ∧ agent.activeTaskId = some (asciiLower message.taskId) ∧
        leaseLive now task = true ∧ leaseOpens env task message.leaseToken = true)

/-- When the server takes the report of a cancellation. Here the lease may have expired. -/
def CancelAccepted (env : Environment) (now : Time) (db : Db) (agentId : Id)
    (message : TaskCanceledMessage) : Prop :=
  matchesUuid message.taskId = true ∧
    ∃ agent task, db.lockAgent agentId = some agent ∧ db.findTask message.taskId = some task ∧
      task.agentId = agentId ∧
      (task.status = .canceled ∧ logLeaseOpens env now task message.leaseToken = true ∨
        task.status = .canceling ∧ agent.activeTaskId = some (asciiLower message.taskId) ∧
        leaseOpens env task message.leaseToken = true)

variable {env : Environment} {occasion : Occasion} {now : Time} {agentId taskId : Id} {db db' : Db}
  {s t : Server}

/-! The transactions of the reports throw nothing but exceptions of the API -/

/-- The computation does not fail with an error of the database. -/
def ApiOnly {α : Type} (x : Except Failure α) : Prop :=
  x ≠ .error .database

section

variable {α β : Type}

theorem apiOnly_pure (a : α) : ApiOnly (pure a : Except Failure α) := by
  intro h
  cases h

theorem apiOnly_require (value : Option α) (code : ApiCode) : ApiOnly (require value (.api code)) := by
  intro h
  cases value with
  | none => cases h
  | some a => cases h

theorem apiOnly_ensure (p : Prop) [Decidable p] (code : ApiCode) :
    ApiOnly (ensure p (.api code)) := by
  intro h
  rw [ensure] at h
  split at h
  · cases h
  · cases h

theorem ApiOnly.bind {x : Except Failure α} {f : α → Except Failure β} (hx : ApiOnly x)
    (hf : ∀ a, ApiOnly (f a)) : ApiOnly (x >>= f) := by
  cases x with
  | error failure =>
      intro h
      apply hx
      obtain rfl := Except.error.inj h
      rfl
  | ok a => exact hf a

/-- A failure of such a computation is an exception of the API. -/
theorem ApiOnly.error {x : Except Failure α} (hx : ApiOnly x) (h : ∀ a, x ≠ .ok a) :
    ∃ code, x = .error (.api code) := by
  cases x with
  | ok a => exact absurd rfl (h a)
  | error failure =>
      cases failure with
      | api code => exact ⟨code, rfl⟩
      | database => exact absurd rfl hx

end

/-- Only a status that occupies the slot meets the unique index. -/
theorem apiOnly_transition {next : BuildTaskStatus} {source : TaskStatusSource}
    {reason : Option JsString} {data : TransitionData} (hidle : next.holdsSlot = false) :
    ApiOnly (transition now db taskId next source reason data) := by
  apply ApiOnly.bind (apiOnly_require _ _)
  intro current
  split
  · exact apiOnly_pure _
  · apply ApiOnly.bind (apiOnly_ensure _ _)
    intro _
    rw [ensure, if_pos (by rw [hidle]; rintro ⟨h, -⟩; cases h)]
    exact apiOnly_pure _

theorem apiOnly_reportPreparationFailure {message : TaskFailedMessage} :
    ApiOnly (TaskQueue.reportPreparationFailure env now db agentId message) := by
  apply ApiOnly.bind (apiOnly_require _ _)
  intro agent
  apply ApiOnly.bind (apiOnly_ensure _ _)
  intro _
  apply ApiOnly.bind (apiOnly_require _ _)
  intro task
  apply ApiOnly.bind (apiOnly_ensure _ _)
  intro _
  split
  · exact (apiOnly_ensure _ _).bind fun _ => apiOnly_pure _
  · apply ApiOnly.bind (apiOnly_ensure _ _)
    intro _
    apply ApiOnly.bind (apiOnly_ensure _ _)
    intro _
    apply ApiOnly.bind (apiOnly_ensure _ _)
    intro _
    apply ApiOnly.bind (apiOnly_ensure _ _)
    intro _
    exact (apiOnly_transition rfl).bind fun _ => apiOnly_pure _

theorem apiOnly_reportTaskCanceled {message : TaskCanceledMessage} :
    ApiOnly (TaskQueue.reportTaskCanceled env now db agentId message) := by
  apply ApiOnly.bind (apiOnly_require _ _)
  intro agent
  apply ApiOnly.bind (apiOnly_require _ _)
  intro task
  apply ApiOnly.bind (apiOnly_ensure _ _)
  intro _
  split
  · exact (apiOnly_ensure _ _).bind fun _ => apiOnly_pure _
  · apply ApiOnly.bind (apiOnly_ensure _ _)
    intro _
    apply ApiOnly.bind (apiOnly_ensure _ _)
    intro _
    exact (apiOnly_transition rfl).bind fun _ => apiOnly_pure _

/-! When they succeed -/

theorem exists_bind_eq_ok {α β : Type} {x : Except Failure α} {f : α → Except Failure β} :
    (∃ b, (x >>= f) = .ok b) ↔ ∃ a, x = .ok a ∧ ∃ b, f a = .ok b := by
  simp only [bind_eq_ok]
  constructor
  · rintro ⟨b, a, hx, hf⟩
    exact ⟨a, hx, b, hf⟩
  · rintro ⟨a, hx, b, hf⟩
    exact ⟨b, a, hx, hf⟩

theorem isSome_of_leaseOpens {task : BuildTask} {token : JsString}
    (h : leaseOpens env task token = true) : (truthy task.leaseHash).isSome = true := by
  rw [leaseOpens] at h
  split at h
  · rename_i hash hhash
    rw [hhash]
    rfl
  · cases h

theorem reportPreparationFailure_ok_iff {message : TaskFailedMessage}
    (huuid : matchesUuid message.taskId = true) (hexit : validExitCode message.exitCode = true) :
    (∃ result, TaskQueue.reportPreparationFailure env now db agentId message = .ok result) ↔
      FailureAccepted env now db agentId message := by
  simp only [TaskQueue.reportPreparationFailure, exists_bind_eq_ok, require_eq_ok, ensure_eq_ok]
  constructor
  · rintro ⟨agent, hagent, -, ⟨henabled, honline⟩, task, hrow, -, howner, result, h⟩
    refine ⟨huuid, hexit, agent, task, hagent, hrow, henabled, honline, howner, ?_⟩
    split at h
    · rename_i hfailed
      simp only [bind_eq_ok, ensure_eq_ok] at h
      obtain ⟨-, hopens, -⟩ := h
      exact Or.inl ⟨hfailed, hopens⟩
    · simp only [bind_eq_ok, ensure_eq_ok] at h
      obtain ⟨-, hslot, -, ⟨-, hlive⟩, -, hopens, -, hstatus, -⟩ := h
      exact Or.inr ⟨hstatus, hslot, hlive, hopens⟩
  · rintro ⟨-, -, agent, task, hagent, hrow, henabled, honline, howner, hcase⟩
    rcases hcase with ⟨hfailed, hopens⟩ | ⟨hstatus, hslot, hlive, hopens⟩
    · refine ⟨agent, hagent, (), ⟨henabled, honline⟩, task, hrow, (), howner, ?_⟩
      simp only [if_pos hfailed, exists_bind_eq_ok, ensure_eq_ok]
      exact ⟨(), hopens, _, rfl⟩
    · have hcan : task.status.canTransition .failed = true := by
        rcases hstatus with h | h | h | h
        all_goals
          rw [h]
          rfl
      have hopen : task.status ≠ .failed := by
        intro h
        rw [h] at hcan
        cases hcan
      refine ⟨agent, hagent, (), ⟨henabled, honline⟩, task, hrow, (), howner, ?_⟩
      simp only [if_neg hopen, exists_bind_eq_ok, ensure_eq_ok]
      exact ⟨(), hslot, (), ⟨isSome_of_leaseOpens hopens, hlive⟩, (), hopens, (), hstatus, _,
        QueueEffects.transition_of_idle hrow hcan rfl, _, rfl⟩

theorem reportTaskCanceled_ok_iff {message : TaskCanceledMessage}
    (huuid : matchesUuid message.taskId = true) :
    (∃ result, TaskQueue.reportTaskCanceled env now db agentId message = .ok result) ↔
      CancelAccepted env now db agentId message := by
  simp only [TaskQueue.reportTaskCanceled, exists_bind_eq_ok, require_eq_ok, ensure_eq_ok]
  constructor
  · rintro ⟨agent, hagent, task, hrow, -, howner, result, h⟩
    refine ⟨huuid, agent, task, hagent, hrow, howner, ?_⟩
    split at h
    · rename_i hcanceled
      simp only [bind_eq_ok, ensure_eq_ok] at h
      obtain ⟨-, hopens, -⟩ := h
      exact Or.inl ⟨hcanceled, hopens⟩
    · simp only [bind_eq_ok, ensure_eq_ok] at h
      obtain ⟨-, ⟨hslot, hopens⟩, -, hcanceling, -⟩ := h
      exact Or.inr ⟨hcanceling, hslot, hopens⟩
  · rintro ⟨-, agent, task, hagent, hrow, howner, hcase⟩
    rcases hcase with ⟨hcanceled, hopens⟩ | ⟨hcanceling, hslot, hopens⟩
    · refine ⟨agent, hagent, task, hrow, (), howner, ?_⟩
      simp only [if_pos hcanceled, exists_bind_eq_ok, ensure_eq_ok]
      exact ⟨(), hopens, _, rfl⟩
    · have hcan : task.status.canTransition .canceled = true := by
        rw [hcanceling]
        rfl
      have hopen : task.status ≠ .canceled := by
        rw [hcanceling]
        exact BuildTaskStatus.noConfusion
      refine ⟨agent, hagent, task, hrow, (), howner, ?_⟩
      simp only [if_neg hopen, exists_bind_eq_ok, ensure_eq_ok]
      exact ⟨(), ⟨hslot, hopens⟩, (), hcanceling, _,
        QueueEffects.transition_of_idle hrow hcan rfl, _, rfl⟩

/-! What the handlers do on the socket -/

/-- The socket is as it was, and nothing has been sent on it. -/
structure SameSocket (s t : Server) : Prop where
  socket : t.socket = s.socket
  sent : t.sent = s.sent

theorem SameSocket.trans {u : Server} (h : SameSocket s t) (h' : SameSocket t u) : SameSocket s u :=
  ⟨h'.socket.trans h.socket, h'.sent.trans h.sent⟩

theorem sameSocket_notify {message : ServerMessage} : SameSocket s (s.notify agentId message) := by
  rw [Server.notify]
  split
  · exact ⟨rfl, rfl⟩
  · exact ⟨rfl, rfl⟩

theorem onAgentReady_apply (now : Time) (agentId : Id) (s : Server) :
    ∃ t, AgentMessages.onAgentReady now agentId s = (.ok (), t) ∧ SameSocket s t := by
  obtain ⟨ready, db', hrun, -⟩ := QueueEffects.onAgentReady_effect s.registry now s.db agentId
  have htransaction : inTransaction (fun s db => TaskQueue.onAgentReady s.registry now db agentId) s =
      (.ok ready, s.setDb db') := by
    rw [inTransaction]
    exact transaction_apply_ok hrun
  rw [AgentMessages.onAgentReady, bind_apply_ok htransaction]
  cases ready with
  | false => exact ⟨_, rfl, ⟨rfl, rfl⟩⟩
  | true =>
      refine ⟨_, rfl, ?_⟩
      dsimp only
      split
      · exact ⟨rfl, rfl⟩
      · have hdb : SameSocket s (s.setDb db') := ⟨rfl, rfl⟩
        exact hdb.trans sameSocket_notify

/-- The transaction of a report and what follows it before the acknowledgement. -/
theorem finishReport_apply {f : Server → Db → Except Failure (Bool × Db)} {taskId : JsString}
    {ready : Bool} (h : f s s.db = .ok (ready, db')) :
    ∃ t, (inTransaction f >>= fun ready =>
        modify (Server.finishTaskRuntime taskId) >>= fun _ =>
          onlyIf ready (AgentMessages.onAgentReady now agentId)) s = (.ok (), t) ∧
      SameSocket s t := by
  have hdone : inTransaction f s = (.ok ready, s.setDb db') := by
    rw [inTransaction]
    exact transaction_apply_ok h
  rw [bind_apply_ok hdone]
  have hfinished : SameSocket s ((s.setDb db').finishTaskRuntime taskId) := ⟨rfl, rfl⟩
  cases ready with
  | false => exact ⟨_, rfl, hfinished⟩
  | true =>
      obtain ⟨t, happly, hsame⟩ := onAgentReady_apply now agentId
        ((s.setDb db').finishTaskRuntime taskId)
      exact ⟨t, happly, hfinished.trans hsame⟩

theorem reportPreparationFailure_apply (hs : Connected s agentId) (message : TaskFailedMessage) :
    FailureAccepted env now s.db agentId message ∧
        (∃ t, AgentMessages.reportPreparationFailure env now agentId message s = (.ok (), t) ∧
          SameSocket s t) ∨
      ¬ FailureAccepted env now s.db agentId message ∧
        ∃ code, AgentMessages.reportPreparationFailure env now agentId message s =
          (.error (.api code), s) := by
  by_cases huuid : matchesUuid message.taskId = true
  swap
  · refine Or.inr ⟨fun h => huuid h.1, .taskLeaseInvalid, ?_⟩
    exact check_bind_apply_error huuid
  by_cases hexit : validExitCode message.exitCode = true
  swap
  · refine Or.inr ⟨fun h => hexit h.2.1, .validationFailed, ?_⟩
    exact (check_bind_apply huuid).trans (check_bind_apply_error hexit)
  have hchecked : AgentMessages.reportPreparationFailure env now agentId message s =
      (inTransaction (fun _ db => TaskQueue.reportPreparationFailure env now db agentId message) >>=
        fun ready => modify (Server.finishTaskRuntime message.taskId) >>= fun _ =>
          onlyIf ready (AgentMessages.onAgentReady now agentId)) s :=
    (check_bind_apply huuid).trans ((check_bind_apply hexit).trans (check_bind_apply hs.ready))
  rw [hchecked]
  by_cases haccepted : FailureAccepted env now s.db agentId message
  · obtain ⟨⟨ready, db'⟩, hresult⟩ := (reportPreparationFailure_ok_iff huuid hexit).mpr haccepted
    exact Or.inl ⟨haccepted, finishReport_apply hresult⟩
  · obtain ⟨code, hcode⟩ := apiOnly_reportPreparationFailure.error fun result hresult =>
      haccepted ((reportPreparationFailure_ok_iff huuid hexit).mp ⟨result, hresult⟩)
    refine Or.inr ⟨haccepted, code, bind_apply_error ?_⟩
    rw [inTransaction]
    exact transaction_apply_error hcode

theorem reportTaskCanceled_apply (hs : Connected s agentId) (message : TaskCanceledMessage) :
    CancelAccepted env now s.db agentId message ∧
        (∃ t, AgentMessages.reportTaskCanceled env now agentId message s = (.ok (), t) ∧
          SameSocket s t) ∨
      ¬ CancelAccepted env now s.db agentId message ∧
        ∃ code, AgentMessages.reportTaskCanceled env now agentId message s =
          (.error (.api code), s) := by
  by_cases huuid : matchesUuid message.taskId = true
  swap
  · refine Or.inr ⟨fun h => huuid h.1, .taskLeaseInvalid, ?_⟩
    exact check_bind_apply_error fun h => huuid h.1
  have hchecked : AgentMessages.reportTaskCanceled env now agentId message s =
      (inTransaction (fun _ db => TaskQueue.reportTaskCanceled env now db agentId message) >>=
        fun ready => modify (Server.finishTaskRuntime message.taskId) >>= fun _ =>
          onlyIf ready (AgentMessages.onAgentReady now agentId)) s :=
    check_bind_apply ⟨huuid, hs.ready⟩
  rw [hchecked]
  by_cases haccepted : CancelAccepted env now s.db agentId message
  · obtain ⟨⟨ready, db'⟩, hresult⟩ := (reportTaskCanceled_ok_iff huuid).mpr haccepted
    exact Or.inl ⟨haccepted, finishReport_apply hresult⟩
  · obtain ⟨code, hcode⟩ := apiOnly_reportTaskCanceled.error fun result hresult =>
      haccepted ((reportTaskCanceled_ok_iff huuid).mp ⟨result, hresult⟩)
    refine Or.inr ⟨haccepted, code, bind_apply_error ?_⟩
    rw [inTransaction]
    exact transaction_apply_error hcode

/-- The handler of a report, whose end acknowledges it. -/
def thenAcknowledge (x : Handler Unit) (reply : JsString) (status : BuildTaskStatus) (now : Time)
    (agentId : Id) : Handler Unit := do
  x
  modify (Server.send (.resultAck reply status))
  AgentMessages.onAgentReady now agentId

/-- A report that was taken is acknowledged. -/
theorem thenAcknowledge_apply {x : Handler Unit} {reply : JsString} {status : BuildTaskStatus}
    (hopen : s.socket.isOpen = true) (hx : x s = (.ok (), t)) (hsame : SameSocket s t) :
    ∃ u, thenAcknowledge x reply status now agentId s = (.ok (), u) ∧
      u.sent = s.sent ++ [.resultAck reply status] := by
  have hsend : t.send (.resultAck reply status) =
      { t with sent := t.sent ++ [.resultAck reply status] } := by
    apply if_pos
    rw [hsame.socket]
    exact hopen
  obtain ⟨u, happly, hready⟩ := onAgentReady_apply now agentId (t.send (.resultAck reply status))
  refine ⟨u, (bind_apply_ok hx).trans happly, ?_⟩
  rw [hready.sent, hsend, hsame.sent]

theorem handleMessage_run (hs : Connected s agentId) {message : AgentMessage}
    (hreport : (∃ m, message = .completed m) ∨ (∃ m, message = .failed m) ∨
      ∃ m, message = .canceled m) :
    (handleMessage env occasion agentId message).run s =
      (recover (handleTaskMessage env occasion agentId message)
        (fun _ => modify (Server.safeClose agentId))).run s := by
  have hknown : ¬ s.socket.known = false := by
    rw [hs.known]
    exact Bool.true_eq_false_eq_False
  have hhello : ¬ s.socket.helloReceived = false := by
    rw [hs.helloReceived]
    exact Bool.true_eq_false_eq_False
  rw [handleMessage, run_get_bind, if_neg hknown]
  rcases hreport with ⟨m, rfl⟩ | ⟨m, rfl⟩ | ⟨m, rfl⟩
  all_goals
    dsimp only
    rw [if_neg hhello]

/-- One report, taken or rejected: if it is taken it is acknowledged, and else nothing happens. -/
theorem run_report {x : Handler Unit} {reply : JsString} {status : BuildTaskStatus} {accepted : Prop}
    (hs : Connected s agentId) (hreply : asciiLower reply = asciiLower taskId)
    (hx : accepted ∧ (∃ t, x s = (.ok (), t) ∧ SameSocket s t) ∨
      ¬ accepted ∧ ∃ code, x s = (.error (.api code), s))
    (hrun : t = (recover (onApiException (thenAcknowledge x reply status now agentId) (pure ()))
      (fun _ => modify (Server.safeClose agentId))).run s) :
    (Settled s t taskId ↔ accepted) ∧ (¬ accepted → t = s) := by
  rcases hx with ⟨haccepted, u, hx, hsame⟩ | ⟨hrejected, code, hx⟩
  · obtain ⟨v, happly, hsent⟩ := @thenAcknowledge_apply now agentId s u x reply status hs.isOpen hx
      hsame
    have hv : t = v := by
      rw [hrun, run, onApiException, recover_apply_ok (recover_apply_ok happly)]
    subst hv
    exact ⟨iff_of_true (Or.inr ⟨reply, status, hreply, hsent⟩) haccepted,
      fun h => absurd haccepted h⟩
  · have hs' : t = s := by
      have hcaught : onApiException (thenAcknowledge x reply status now agentId) (pure ()) s =
          (.ok (), s) := by
        rw [onApiException, thenAcknowledge, recover_apply_error (bind_apply_error hx)]
        rfl
      rw [hrun, run, recover_apply_ok hcaught]
    subst hs'
    refine ⟨iff_of_false ?_ hrejected, fun _ => rfl⟩
    rintro (hclosed | ⟨id, status, -, hsent⟩)
    · rw [hs.isOpen] at hclosed
      cases hclosed
    · exact absurd hsent.symm (by simp)

/-! A report of a completion -/

theorem completeTask_apply {message : TaskCompletedMessage} {completed : Id}
    (h : AgentMessages.completeTask env now agentId message s = (.ok completed, t)) :
    completed = asciiLower message.taskId ∧ SameSocket s t := by
  rw [AgentMessages.completeTask] at h
  by_cases hvalid : validCompletion message = true
  swap
  · rw [check_bind_apply_error hvalid] at h
    cases h
  rw [check_bind_apply hvalid, inTransaction, transaction] at h
  cases hresult : ArtifactsService.completeTask env now s.db agentId message with
  | error failure =>
      rw [hresult] at h
      cases h
  | ok result =>
      obtain ⟨id, db'⟩ := result
      rw [hresult] at h
      obtain ⟨hid, rfl⟩ := Prod.mk.inj h
      obtain rfl := Except.ok.inj hid
      exact ⟨(AgentIsolation.completeTask_own hresult).2, ⟨rfl, rfl⟩⟩

theorem settled_of_closed {handler : Failure → Handler Unit} {x : Handler Unit}
    (hx : Ends x (fun _ t => Settled s t taskId) (fun _ _ => True) s)
    (hhandler : ∀ failure u, Settled s ((handler failure).run u) taskId) :
    Settled s ((recover x handler).run s) taskId := by
  rw [Ends] at hx
  rcases happly : x s with ⟨failure | _, u⟩
  · rw [run, recover_apply_error happly]
    exact hhandler failure u
  · rw [happly] at hx
    rw [run, recover_apply_ok happly]
    exact hx

theorem settled_safeClose (u : Server) : Settled s (u.safeClose agentId) taskId :=
  Or.inl rfl

/-- The handler of a completion ends with the acknowledgement or with the end of the connection,
unless the rejected completion cannot be recorded. -/
theorem ends_completed (hs : Connected s agentId) (message : TaskCompletedMessage) :
    Ends (handleTaskMessage env occasion agentId (.completed message))
      (fun _ t => Settled s t message.taskId) (fun _ _ => True) s := by
  have hrejected : ∀ u, Ends (do
      AgentMessages.failRejectedCompletion env occasion.now agentId message
      modify (Server.safeClose agentId)) (fun _ t => Settled s t message.taskId)
      (fun _ _ => True) u := by
    intro u
    apply ends_bind.mpr
    have hany : Ends (AgentMessages.failRejectedCompletion env occasion.now agentId message)
        (fun _ _ => True) (fun _ _ => True) u :=
      ends_run.mpr trivial
    apply hany.imp
    · intro _ v _
      exact settled_safeClose v
    · exact fun _ _ h => h
  rw [handleTaskMessage, onApiException]
  apply ends_recover.mpr
  rcases hcompleted : AgentMessages.completeTask env occasion.now agentId message s with
    ⟨failure | completed, u⟩
  · rw [Ends, bind_apply_error hcompleted]
    cases failure with
    | api code => exact hrejected u
    | database => trivial
  · obtain ⟨hname, hsame⟩ := completeTask_apply hcompleted
    have hfinished : SameSocket s (u.finishTaskRuntime completed) := hsame.trans ⟨rfl, rfl⟩
    obtain ⟨v, hready, hv⟩ := onAgentReady_apply occasion.now agentId (u.finishTaskRuntime completed)
    have hlast : SameSocket s v := hfinished.trans hv
    have hopen : v.socket.isOpen = true := by
      rw [hlast.socket]
      exact hs.isOpen
    have hsend : v.send (.resultAck completed .succeeded) =
        { v with sent := v.sent ++ [.resultAck completed .succeeded] } := if_pos hopen
    obtain ⟨w, hagain, hw⟩ := onAgentReady_apply occasion.now agentId
      (v.send (.resultAck completed .succeeded))
    rw [Ends, bind_apply_ok hcompleted, bind_apply_ok (modify_apply _ _), bind_apply_ok hready,
      bind_apply_ok (modify_apply _ _), hagain]
    refine Or.inr ⟨completed, .succeeded, ?_, ?_⟩
    · rw [hname, asciiLower_asciiLower]
    · rw [hw.sent, hsend, hlast.sent]

theorem settled_completed (hs : Connected s agentId) (message : TaskCompletedMessage) :
    Settled s ((handleMessage env occasion agentId (.completed message)).run s) message.taskId := by
  rw [handleMessage_run hs (Or.inl ⟨message, rfl⟩)]
  exact settled_of_closed (ends_completed hs message) fun _ u => settled_safeClose u

def acceptedDb : Db :=
  StatusHistory.demoRun [StatusHistory.demoCreate, StatusHistory.demoClaim, RecoveryFields.demoAccept]

def acceptedServer : Server :=
  { AgentIsolation.demoServer with db := acceptedDb }

def demoFailed : TaskFailedMessage :=
  ⟨SlotSystem.demoTaskId, SlotSystem.demoToken, JsString.ofString "failed", none⟩

theorem connected_acceptedServer : Connected acceptedServer SlotSystem.demoAgentId where
  known := rfl
  helloReceived := rfl
  isOpen := rfl
  ready := by decide

end AnvilRun.TerminalReports
