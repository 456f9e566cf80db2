import AnvilRun.TerminalReports

namespace AnvilRun.ResultAcks

open AnvilRun.AgentGateway
open AnvilRun.AgentMessages
open AnvilRun.ArtifactsService
open AnvilRun.Effect
open AnvilRun.Fallible
open AnvilRun.StatusHistory
open AnvilRun.TaskDatabase
open AnvilRun.TaskLogStorage
open AnvilRun.TaskMoves
open AnvilRun.TaskQueue
open AnvilRun.ValidationPrimitives

/-- A task that has ended keeps its status. -/
def KeepsEnds (db db' : Db) : Prop :=
  CanonicalIds db → CanonicalIds db' ∧
    ∀ taskId status, status.isTerminal = true → Ended taskId status db → Ended taskId status db'

/-- The acknowledgements of results among some messages are expected, and each has the status of
its task. -/
def Committed (expected : JsString → BuildTaskStatus → Prop) (db : Db)
    (replies : List ServerMessage) : Prop :=
  ∀ taskId status, .resultAck taskId status ∈ replies →
    expected taskId status ∧ status.isTerminal = true ∧ Ended (asciiLower taskId) status db

/-- What a handler does to the ends of tasks and to the acknowledgements of results. -/
def Acknowledges (expected : JsString → BuildTaskStatus → Prop) (s t : Server) : Prop :=
  KeepsEnds s.db t.db ∧
    (CanonicalIds s.db → ∃ replies, t.sent = s.sent ++ replies ∧ Committed expected t.db replies)

variable {env : Environment} {occasion : Occasion} {now : Time} {agentId taskId : Id}
  {db db' db'' : Db} {s t u : Server} {expected expected' : JsString → BuildTaskStatus → Prop}
  {x : Handler Unit}

/-! The database -/

theorem KeepsEnds.refl : KeepsEnds db db :=
  fun hids => ⟨hids, fun _ _ _ h => h⟩

theorem KeepsEnds.trans (h : KeepsEnds db db') (h' : KeepsEnds db' db'') : KeepsEnds db db'' := by
  intro hids
  obtain ⟨hids', hends⟩ := h hids
  obtain ⟨hids'', hends'⟩ := h' hids'
  exact ⟨hids'', fun taskId status hterminal hended =>
    hends' taskId status hterminal (hends taskId status hterminal hended)⟩

theorem keepsEnds_of_moves (careless dispatches : Prop)
    (h : Moves agentId careless dispatches db db') : KeepsEnds db db' := by
  have hmoves : Moves agentId careless True db db' := h.mono (fun hc => hc) fun _ => trivial
  intro hids
  constructor
  · exact hmoves.invariant hids fun _ _ hs hmove => hmove.canonicalIds hs
  · intro taskId status hterminal hended
    exact hmoves.invariant hended fun _ _ hs hmove => hs.move hterminal hmove

theorem keepsEnds_of_tasks (h : db'.tasks = db.tasks) : KeepsEnds db db' := by
  intro hids
  constructor
  · intro taskId task hrow
    rw [h] at hrow
    exact hids taskId task hrow
  · rintro taskId status - ⟨task, hrow, hstatus⟩
    exact ⟨task, by rw [h, hrow], hstatus⟩

/-- A transition to the end of a task ends it. -/
theorem ended_of_transition {next : BuildTaskStatus} {source : TaskStatusSource}
    {reason : Option JsString} {data : TransitionData}
    (h : transition now db taskId next source reason data = .ok db') : Ended taskId next db' := by
  obtain ⟨task, hrow, -⟩ := transition_eq_ok.mp h
  obtain ⟨task', hrow', -, hstatus⟩ := row_of_transition h hrow
  exact ⟨task', hrow', hstatus⟩

/-! Composition -/

theorem Committed.nil : Committed expected db [] :=
  fun _ _ hmem => absurd hmem List.not_mem_nil

theorem acknowledges_refl (s : Server) : Acknowledges expected s s :=
  ⟨.refl, fun _ => ⟨[], (List.append_nil _).symm, .nil⟩⟩

theorem acknowledges_trans (s t u : Server) (h : Acknowledges expected s t)
    (h' : Acknowledges expected t u) : Acknowledges expected s u := by
  refine ⟨h.1.trans h'.1, fun hids => ?_⟩
  obtain ⟨hids', -⟩ := h.1 hids
  obtain ⟨replies, hsent, hcommitted⟩ := h.2 hids
  obtain ⟨later, hsent', hcommitted'⟩ := h'.2 hids'
  refine ⟨replies ++ later, by rw [hsent', hsent, List.append_assoc], ?_⟩
  intro taskId status hmem
  rcases List.mem_append.mp hmem with hearlier | hlater
  · obtain ⟨hexpected, hterminal, hended⟩ := hcommitted taskId status hearlier
    exact ⟨hexpected, hterminal, (h'.1 hids').2 _ status hterminal hended⟩
  · exact hcommitted' taskId status hlater

theorem Acknowledges.mono (h : Acknowledges expected s t)
    (himp : ∀ taskId status, expected taskId status → expected' taskId status) :
    Acknowledges expected' s t := by
  refine ⟨h.1, fun hids => ?_⟩
  obtain ⟨replies, hsent, hcommitted⟩ := h.2 hids
  refine ⟨replies, hsent, fun taskId status hmem => ?_⟩
  obtain ⟨hexpected, hended⟩ := hcommitted taskId status hmem
  exact ⟨himp taskId status hexpected, hended⟩

theorem acknowledges_of_sent (hdb : KeepsEnds s.db t.db) (hsent : t.sent = s.sent) :
    Acknowledges expected s t :=
  ⟨hdb, fun _ => ⟨[], by rw [hsent, List.append_nil], .nil⟩⟩

theorem acknowledges_of_same (hdb : t.db = s.db) (hsent : t.sent = s.sent) :
    Acknowledges expected s t := by
  refine acknowledges_of_sent ?_ hsent
  rw [hdb]
  exact .refl

theorem acknowledges_setDb (h : CanonicalIds s.db → KeepsEnds s.db db') :
    Acknowledges expected s (s.setDb db') :=
  acknowledges_of_sent (fun hids => h hids hids) rfl

theorem keeps_inTransaction {α : Type} {f : Server → Db → Except Failure (α × Db)}
    (h : ∀ s a db', CanonicalIds s.db → f s s.db = .ok (a, db') → KeepsEnds s.db db') :
    Keeps (Acknowledges expected) (inTransaction f) :=
  keeps_transaction acknowledges_refl fun s a db' hf =>
    acknowledges_setDb fun hids => h s a db' hids hf

theorem keeps_updateDb {f : Db → Db} (h : ∀ db, KeepsEnds db (f db)) :
    Keeps (Acknowledges expected) (updateDb f) :=
  keeps_modify fun s => acknowledges_setDb fun _ => h s.db

/-- A message that is no acknowledgement of a result. -/
theorem acknowledges_send {message : ServerMessage}
    (h : ∀ taskId status, message ≠ .resultAck taskId status) :
    Acknowledges expected s (s.send message) := by
  rw [Server.send]
  split
  · refine ⟨.refl, fun _ => ⟨[message], rfl, fun taskId status hmem => ?_⟩⟩
    exact absurd (List.mem_singleton.mp hmem).symm (h taskId status)
  · exact acknowledges_refl s

theorem acknowledges_sendAck {id : JsString} {status : BuildTaskStatus}
    (hexpected : expected id status)
    (hterminal : status.isTerminal = true) (hended : Ended (asciiLower id) status s.db) :
    Acknowledges expected s (s.send (.resultAck id status)) := by
  rw [Server.send]
  split
  · refine ⟨.refl, fun _ => ⟨[.resultAck id status], rfl, fun taskId other hmem => ?_⟩⟩
    obtain ⟨rfl, rfl⟩ := ServerMessage.resultAck.inj (List.mem_singleton.mp hmem)
    exact ⟨hexpected, hterminal, hended⟩
  · exact acknowledges_refl s

/-! The queue -/

theorem keeps_notifyAvailable : Keeps (Acknowledges expected) (notifyAvailable agentId) := by
  apply keeps_modify
  intro s
  dsimp only
  split
  · exact acknowledges_refl s
  · rw [Server.notify]
    split
    · exact acknowledges_of_same rfl rfl
    · exact acknowledges_refl s

theorem keeps_onAgentReady :
    Keeps (Acknowledges expected) (AgentMessages.onAgentReady now agentId) := by
  apply Keeps.bind acknowledges_trans
  · apply keeps_inTransaction
    intro s ready db' _ h
    exact keepsEnds_of_moves True True (onAgentReady_moves h)
  · exact fun ready s => rel_run_onlyIf acknowledges_refl fun _ => keeps_notifyAvailable s

theorem keeps_disconnectTasks (taskIds : List Id) :
    Keeps (Acknowledges expected) (disconnectTasks now agentId taskIds) := by
  induction taskIds with
  | nil => exact keeps_pure acknowledges_refl ()
  | cons taskId taskIds ih =>
      refine Keeps.bind acknowledges_trans ?_ fun _ => ih
      refine Keeps.recover acknowledges_trans ?_ fun _ => keeps_pure acknowledges_refl ()
      apply Keeps.bind acknowledges_trans
      · apply keeps_inTransaction
        intro s preserved db' _ h
        exact keepsEnds_of_moves True True (disconnectTask_moves h)
      · intro preserved s
        exact rel_run_onlyIf acknowledges_refl fun _ => acknowledges_of_same rfl rfl

theorem keeps_onAgentDisconnected :
    Keeps (Acknowledges expected) (AgentMessages.onAgentDisconnected now agentId) := by
  apply Keeps.bind acknowledges_trans
  · exact keeps_modify fun s => acknowledges_of_same rfl rfl
  · intro _
    exact Keeps.bind acknowledges_trans (keeps_get acknowledges_refl) fun s =>
      keeps_disconnectTasks _

theorem finishTasks_same (taskIds : List Id) (s : Server) :
    (s.finishTasks taskIds).db = s.db ∧ (s.finishTasks taskIds).sent = s.sent := by
  induction taskIds generalizing s with
  | nil => exact ⟨rfl, rfl⟩
  | cons taskId taskIds ih => exact ih (s.finishTaskRuntime taskId)

theorem acknowledges_finishTasks (taskIds : List Id) :
    Acknowledges expected s (s.finishTasks taskIds) :=
  acknowledges_of_same (finishTasks_same taskIds s).1 (finishTasks_same taskIds s).2

theorem acknowledges_restoreLease (lease : Option (Id × JsString)) :
    Acknowledges expected s (s.restoreLease lease) := by
  cases lease with
  | none => exact acknowledges_refl s
  | some lease => exact acknowledges_of_same rfl rfl

theorem acknowledges_storeClaim (now : Time) (key : ClaimCache.ClaimKey)
    (result : Option TaskAssignment) : Acknowledges expected s (s.storeClaim now key result) := by
  rw [Server.storeClaim]
  exact acknowledges_of_same rfl rfl

theorem keeps_claim {messageId : JsString} {requested : Option JsString} :
    Keeps (Acknowledges expected) (claim env occasion agentId messageId requested) := by
  refine Keeps.bind acknowledges_trans (keeps_get acknowledges_refl) fun s => ?_
  intro t
  dsimp only
  split
  · exact acknowledges_refl t
  apply rel_run_check_bind acknowledges_refl
  intro _
  refine Keeps.bind acknowledges_trans (keeps_inTransaction ?_) (fun outcome => ?_) t
  · intro u outcome db' _ h
    split at h
    · obtain ⟨-, rfl⟩ := Prod.mk.inj (Except.ok.inj h)
      exact .refl
    · exact keepsEnds_of_moves _ _ (claimInTransaction_moves trivial h fun _ => trivial)
  refine Keeps.bind acknowledges_trans (keeps_modify fun u =>
    acknowledges_finishTasks outcome.terminalTaskIds) fun _ => ?_
  refine Keeps.bind acknowledges_trans (keeps_modify fun u =>
    acknowledges_restoreLease (outcome.result.map fun assignment =>
      (assignment.taskId, assignment.leaseToken))) fun _ => ?_
  refine Keeps.bind acknowledges_trans (keeps_modify fun u =>
    acknowledges_storeClaim occasion.now (agentId, messageId) outcome.result) fun _ => ?_
  refine Keeps.bind acknowledges_trans (fun u => ?_) fun _ => keeps_pure acknowledges_refl _
  exact rel_run_onlyIf acknowledges_refl fun _ => keeps_notifyAvailable u

theorem keepsEnds_of_map {x : Except Failure Db} {a : Unit}
    (h : (fun db => ((), db)) <$> x = .ok (a, db')) (hx : x = .ok db' → KeepsEnds db db') :
    KeepsEnds db db' := by
  obtain ⟨next, hnext, hpair⟩ := map_eq_ok.mp h
  obtain ⟨-, rfl⟩ := Prod.mk.inj hpair
  exact hx hnext

theorem keeps_accept {leaseToken : JsString} :
    Keeps (Acknowledges expected) (AgentMessages.accept env now agentId taskId leaseToken) := by
  refine Keeps.bind acknowledges_trans (keeps_get acknowledges_refl) fun _ t => ?_
  apply rel_run_check_bind acknowledges_refl
  intro _
  apply keeps_inTransaction
  intro u _ db' hids h
  exact keepsEnds_of_map h fun haccept =>
    keepsEnds_of_moves True True (accept_moves hids haccept)

theorem keeps_reportTaskStatus {message : TaskStatusMessage} :
    Keeps (Acknowledges expected) (AgentMessages.reportTaskStatus env now agentId message) := by
  refine Keeps.bind acknowledges_trans (keeps_get acknowledges_refl) fun s t => ?_
  apply rel_run_check_bind acknowledges_refl
  intro _
  apply rel_run_check_bind acknowledges_refl
  intro _
  apply keeps_inTransaction
  intro u _ db' _ h
  exact keepsEnds_of_map h fun hreport =>
    keepsEnds_of_moves True True (reportTaskStatus_moves hreport)

theorem keeps_failRejectedCompletion {message : TaskCompletedMessage} :
    Keeps (Acknowledges expected)
      (AgentMessages.failRejectedCompletion env now agentId message) := by
  rw [AgentMessages.failRejectedCompletion]
  split
  · exact keeps_pure acknowledges_refl ()
  refine Keeps.bind acknowledges_trans (keeps_inTransaction fun _ failed db' _ h => ?_)
    fun failed => ?_
  · exact keepsEnds_of_moves True True
      (failRejectedCompletion_moves h)
  split
  · exact Keeps.bind acknowledges_trans (keeps_modify fun u => acknowledges_of_same rfl rfl)
      fun _ => keeps_onAgentReady
  · exact keeps_modify fun u => acknowledges_of_same rfl rfl

/-! Logs and artifacts -/

theorem keeps_onLog {α : Type} {f : TaskLog → Except StorageError α × TaskLog} {k : JsString} :
    Keeps (Acknowledges expected) (onLog k f) :=
  fun _ => acknowledges_of_same rfl rfl

theorem keepsEnds_setLogCursor (now : Time) (taskId : Id) (state : TaskLogFileState) (db : Db) :
    KeepsEnds db (setLogCursor now taskId state db) := by
  have hrows : ∀ k, ((setLogCursor now taskId state db).tasks.row k).map BuildTask.status =
      (db.tasks.row k).map BuildTask.status := by
    intro k
    show ((db.tasks.modify taskId _).row k).map _ = _
    rw [Table.modify_row]
    split
    · rw [Option.map_map]
      rfl
    · rfl
  refine fun hids => ⟨fun k task hrow => ?_, ?_⟩
  · have hold := hrows k
    rw [hrow] at hold
    obtain ⟨old, hold, -⟩ := Option.map_eq_some_iff.mp hold.symm
    exact hids k old hold
  · rintro k status - ⟨task, hrow, hstatus⟩
    have hnew := hrows k
    rw [hrow] at hnew
    obtain ⟨task', hrow', hsame⟩ := Option.map_eq_some_iff.mp hnew
    exact ⟨task', hrow', hsame.trans hstatus⟩

theorem keeps_appendFromAgent {message : TaskLogMessage} :
    Keeps (Acknowledges expected) (appendFromAgent env occasion agentId message) := by
  intro s
  rw [appendFromAgent]
  apply rel_run_check_bind acknowledges_refl
  intro _
  rw [run_get_bind]
  dsimp only
  split
  · exact acknowledges_refl s
  rename_i task hrow
  apply rel_run_check_bind acknowledges_refl
  intro _
  apply rel_run_check_bind acknowledges_refl
  intro _
  refine Keeps.bind acknowledges_trans keeps_onLog (fun fileState => ?_) s
  refine Keeps.bind acknowledges_trans (fun t => ?_) fun _ => ?_
  · exact rel_run_onlyIf acknowledges_refl fun _ =>
      keeps_updateDb (keepsEnds_setLogCursor occasion.now (asciiLower message.taskId) fileState) t
  split
  · exact keeps_pure acknowledges_refl _
  refine Keeps.bind acknowledges_trans (keeps_modify fun t => acknowledges_of_same rfl rfl)
    fun _ => ?_
  refine Keeps.bind acknowledges_trans keeps_onLog fun nextOffset => ?_
  refine Keeps.bind acknowledges_trans (keeps_updateDb ?_) fun _ => keeps_pure acknowledges_refl _
  exact keepsEnds_setLogCursor occasion.now (asciiLower message.taskId) _

theorem registerManifest_tasks {host : ArtifactHost} {message : TaskArtifactManifestMessage}
    {files : List ArtifactManifestEntry} {result : ManifestResult}
    (h : ArtifactsService.registerManifest env host now db agentId message files =
      .ok (result, db')) : db'.tasks = db.tasks := by
  simp only [ArtifactsService.registerManifest, bind_eq_ok, require_eq_ok, ensure_eq_ok] at h
  obtain ⟨agent, -, -, -, task, -, -, -, -, -, h⟩ := h
  split at h
  · simp only [bind_eq_ok, ensure_eq_ok, pure_eq_ok, Prod.mk.injEq] at h
    obtain ⟨-, -, -, rfl⟩ := h
    rfl
  · simp only [bind_eq_ok, pure_eq_ok, Prod.mk.injEq] at h
    obtain ⟨-, -, -, rfl⟩ := h
    rfl

theorem keeps_registerManifest {message : TaskArtifactManifestMessage} :
    Keeps (Acknowledges expected)
      (AgentMessages.registerManifest env occasion agentId message) := by
  intro s
  apply rel_run_check_bind acknowledges_refl
  intro _
  split
  · exact acknowledges_refl s
  · exact keeps_inTransaction (fun t result db' _ h =>
      keepsEnds_of_tasks (registerManifest_tasks h)) s

/-! The gateway -/

theorem keeps_rejectConnection : Keeps (Acknowledges expected) (rejectConnection now agentId) := by
  refine Keeps.bind acknowledges_trans (keeps_get acknowledges_refl) fun s => ?_
  refine Keeps.bind acknowledges_trans (keeps_modify fun t => acknowledges_of_same rfl rfl)
    fun _ => ?_
  refine Keeps.bind acknowledges_trans (fun t => ?_) fun _ =>
    keeps_modify fun t => acknowledges_of_same rfl rfl
  refine rel_run_onlyIf acknowledges_refl fun _ => ?_
  refine Keeps.bind acknowledges_trans (keeps_updateDb fun db => ?_)
    (fun _ => keeps_onAgentDisconnected) t
  exact keepsEnds_of_tasks rfl

theorem keeps_reconcileAgentHello {current : Option AgentCurrentTask}
    {capabilities : List JsString} :
    Keeps (Acknowledges expected)
      (AgentMessages.reconcileAgentHello env now agentId current capabilities) := by
  refine Keeps.bind acknowledges_trans (keeps_get acknowledges_refl) fun s => ?_
  refine Keeps.bind acknowledges_trans (fun t => rel_run_ifSome acknowledges_refl fun k _ => ?_)
    fun _ => ?_
  · exact Keeps.bind acknowledges_trans keeps_onLog (fun _ => keeps_pure acknowledges_refl ()) t
  refine Keeps.bind acknowledges_trans (keeps_inTransaction fun t outcome db' _ h => ?_)
    fun outcome => ?_
  · exact keepsEnds_of_moves True True
      (reconcileAgentHello_moves h)
  refine Keeps.bind acknowledges_trans (keeps_modify fun u =>
    acknowledges_restoreLease outcome.leaseToRestore) fun _ => ?_
  refine Keeps.bind acknowledges_trans (keeps_modify fun u =>
    acknowledges_finishTasks outcome.terminalTaskIds) fun _ => keeps_pure acknowledges_refl _

theorem keeps_handleHello {message : AgentHelloMessage} :
    Keeps (Acknowledges expected) (handleHello env now agentId message) := by
  refine Keeps.bind acknowledges_trans (keeps_get acknowledges_refl) fun s => ?_
  split
  · exact keeps_rejectConnection
  split
  · exact keeps_modify fun t => acknowledges_of_same rfl rfl
  split
  · exact keeps_rejectConnection
  refine Keeps.bind acknowledges_trans keeps_reconcileAgentHello fun decision => ?_
  refine Keeps.bind acknowledges_trans (keeps_updateDb fun db => keepsEnds_of_tasks rfl) fun _ => ?_
  refine Keeps.bind acknowledges_trans (keeps_modify fun t => acknowledges_of_same rfl rfl)
    fun _ => ?_
  refine Keeps.bind acknowledges_trans (keeps_modify fun t => acknowledges_send (by rintro _ _ ⟨⟩))
    fun _ => ?_
  refine Keeps.bind acknowledges_trans (fun t => rel_run_ifSome acknowledges_refl fun _ _ => ?_)
    fun _ => keeps_onAgentReady
  exact acknowledges_send (by rintro _ _ ⟨⟩)

theorem keeps_handleHeartbeat {messageAgentId : JsString} {currentTaskId : Option JsString} :
    Keeps (Acknowledges expected) (handleHeartbeat now agentId messageAgentId currentTaskId) := by
  refine Keeps.bind acknowledges_trans (keeps_get acknowledges_refl) fun s => ?_
  split
  · exact keeps_rejectConnection
  split
  · exact keeps_rejectConnection
  · exact keeps_updateDb fun db => keepsEnds_of_tasks rfl

theorem keeps_onApiException {α : Type} {x handler : Handler α}
    (hx : Keeps (Acknowledges expected) x) (hhandler : Keeps (Acknowledges expected) handler) :
    Keeps (Acknowledges expected) (onApiException x handler) := by
  refine Keeps.recover acknowledges_trans hx fun failure => ?_
  cases failure with
  | api code => exact hhandler
  | database => exact fun s => acknowledges_refl s

/-! The reports of the end of a task -/

/-- The acknowledgements that answer a message: that of a report names its task, with the status
that it reports. -/
def AckOf : AgentMessage → JsString → BuildTaskStatus → Prop
  | .completed message, id, status => id = asciiLower message.taskId ∧ status = .succeeded
  | .failed message, id, status => id = message.taskId ∧ status = .failed
  | .canceled message, id, status => id = message.taskId ∧ status = .canceled
  | _, _, _ => False

theorem reportPreparationFailure_ended {message : TaskFailedMessage} {failed : Bool}
    (h : TaskQueue.reportPreparationFailure env now db agentId message = .ok (failed, db')) :
    Ended (asciiLower message.taskId) .failed db' := by
  simp only [TaskQueue.reportPreparationFailure, bind_eq_ok, require_eq_ok, ensure_eq_ok] at h
  obtain ⟨agent, -, -, -, task, hrow, -, -, h⟩ := h
  split at h
  · rename_i hfailed
    simp only [bind_eq_ok, ensure_eq_ok, pure_eq_ok, Prod.mk.injEq] at h
    obtain ⟨-, -, -, rfl⟩ := h
    exact ⟨task, hrow, hfailed⟩
  · simp only [bind_eq_ok, ensure_eq_ok, pure_eq_ok, Prod.mk.injEq] at h
    obtain ⟨-, -, -, -, -, -, -, -, next, htransition, -, rfl⟩ := h
    have hended := ended_of_transition htransition
    exact hended

theorem reportTaskCanceled_ended {message : TaskCanceledMessage} {canceled : Bool}
    (h : TaskQueue.reportTaskCanceled env now db agentId message = .ok (canceled, db')) :
    Ended (asciiLower message.taskId) .canceled db' := by
  simp only [TaskQueue.reportTaskCanceled, bind_eq_ok, require_eq_ok, ensure_eq_ok] at h
  obtain ⟨agent, -, task, hrow, -, -, h⟩ := h
  split at h
  · rename_i hcanceled
    simp only [bind_eq_ok, ensure_eq_ok, pure_eq_ok, Prod.mk.injEq] at h
    obtain ⟨-, -, -, rfl⟩ := h
    exact ⟨task, hrow, hcanceled⟩
  · simp only [bind_eq_ok, ensure_eq_ok, pure_eq_ok, Prod.mk.injEq] at h
    obtain ⟨-, -, -, -, next, htransition, -, rfl⟩ := h
    have hended := ended_of_transition htransition
    exact hended

theorem completeTask_ended {message : TaskCompletedMessage} {completed : Id}
    (h : ArtifactsService.completeTask env now db agentId message = .ok (completed, db')) :
    Ended (asciiLower message.taskId) .succeeded db' := by
  simp only [ArtifactsService.completeTask, bind_eq_ok, require_eq_ok, ensure_eq_ok] at h
  obtain ⟨agent, -, -, -, task, hrow, -, -, h⟩ := h
  split at h
  · rename_i hsucceeded
    simp only [bind_eq_ok, ensure_eq_ok, pure_eq_ok, Prod.mk.injEq] at h
    obtain ⟨-, -, -, -, -, rfl⟩ := h
    exact ⟨task, hrow, hsucceeded⟩
  · simp only [bind_eq_ok, ensure_eq_ok, pure_eq_ok, Prod.mk.injEq] at h
    obtain ⟨-, -, -, -, next, htransition, -, rfl⟩ := h
    have hended := ended_of_transition htransition
    exact hended

/-- The handler of a report ends the task, or it does nothing that matters here. -/
def EndsTask (expected : JsString → BuildTaskStatus → Prop) (taskId : Id)
    (status : BuildTaskStatus) (x : Handler Unit) (s : Server) : Prop :=
  Ends x (fun _ t => Acknowledges expected s t ∧ (CanonicalIds s.db → Ended taskId status t.db))
    (fun _ t => Acknowledges expected s t) s

/-- The transaction of a report ends the task, and what follows it keeps that. -/
theorem endsTask_transaction {f : Server → Db → Except Failure (Bool × Db)}
    {g : Bool → Handler Unit} {status : BuildTaskStatus} (hterminal : status.isTerminal = true)
    (hf : ∀ ready db', f s s.db = .ok (ready, db') →
      KeepsEnds s.db db' ∧ Ended taskId status db')
    (hg : ∀ ready, Keeps (Acknowledges expected) (g ready)) :
    EndsTask expected taskId status (inTransaction f >>= g) s := by
  apply ends_bind.mpr
  apply ends_transaction.mpr
  refine ⟨fun ready db' hrun => ?_, fun _ _ => acknowledges_refl s⟩
  obtain ⟨hkeeps, hended⟩ := hf ready db' hrun
  have hset : Acknowledges expected s (s.setDb db') := acknowledges_setDb fun _ => hkeeps
  refine ((hg ready).ends (s.setDb db')).imp (fun _ t ht => ?_) fun _ t ht => ?_
  · refine ⟨acknowledges_trans _ _ _ hset ht, fun hids => ?_⟩
    exact (ht.1 (hkeeps hids).1).2 taskId status hterminal hended
  · exact acknowledges_trans _ _ _ hset ht

/-- The task has ended already. -/
theorem endsTask_of_ended {status : BuildTaskStatus} (hterminal : status.isTerminal = true)
    (hended : Ended taskId status s.db) (hx : Keeps (Acknowledges expected) x) :
    EndsTask expected taskId status x s :=
  (hx.ends s).imp (fun _ _ ht => ⟨ht, fun hids => (ht.1 hids).2 taskId status hterminal hended⟩)
    fun _ _ ht => ht

theorem EndsTask.check {p : Prop} [Decidable p] {e : Failure} {f : Unit → Handler Unit}
    {status : BuildTaskStatus} (h : EndsTask expected taskId status (f ()) s) :
    EndsTask expected taskId status (check p e >>= f) s := by
  by_cases hp : p
  · rw [Effect.check, if_pos hp]
    exact h
  · rw [Effect.check, if_neg hp]
    exact acknowledges_refl s

theorem keeps_finishReported {reported : JsString} (ready : Bool) :
    Keeps (Acknowledges expected) (do
      modify (Server.finishTaskRuntime reported)
      onlyIf ready (AgentMessages.onAgentReady now agentId)) :=
  Keeps.bind acknowledges_trans (keeps_modify fun _ => acknowledges_of_same rfl rfl) fun _ _ =>
    rel_run_onlyIf acknowledges_refl fun _ => keeps_onAgentReady _

theorem endsTask_reportPreparationFailure (message : TaskFailedMessage) :
    EndsTask expected (asciiLower message.taskId) .failed
      (AgentMessages.reportPreparationFailure env now agentId message) s := by
  refine EndsTask.check (EndsTask.check (EndsTask.check ?_))
  refine endsTask_transaction rfl (fun failed db' h => ?_) keeps_finishReported
  exact ⟨keepsEnds_of_moves True True
    (reportPreparationFailure_moves h), reportPreparationFailure_ended h⟩

theorem endsTask_reportTaskCanceled (message : TaskCanceledMessage) :
    EndsTask expected (asciiLower message.taskId) .canceled
      (AgentMessages.reportTaskCanceled env now agentId message) s := by
  refine EndsTask.check ?_
  refine endsTask_transaction rfl (fun canceled db' h => ?_) keeps_finishReported
  exact ⟨keepsEnds_of_moves True True
    (reportTaskCanceled_moves h), reportTaskCanceled_ended h⟩

theorem acknowledges_of_canonical (h : CanonicalIds s.db → Acknowledges expected s t) :
    Acknowledges expected s t :=
  ⟨fun hids => (h hids).1 hids, fun hids => (h hids).2 hids⟩

/-- What follows the handler of a report knows that the task has ended. -/
theorem EndsTask.bind {f : Unit → Handler Unit} {status : BuildTaskStatus}
    (hx : EndsTask expected taskId status x s)
    (hf : ∀ t, Ended taskId status t.db → Acknowledges expected t ((f ()).run t)) :
    Acknowledges expected s ((x >>= f).run s) := by
  refine acknowledges_of_canonical fun hids => ends_run.mp (ends_bind.mpr ?_)
  refine Effect.Ends.imp hx (fun _ t ht => ends_run.mpr ?_) fun _ t ht => ht
  exact acknowledges_trans s t _ ht.1 (hf t (ht.2 hids))

theorem acknowledges_thenAcknowledge {reply : JsString} {status : BuildTaskStatus}
    (hx : EndsTask expected (asciiLower reply) status x s) (hexpected : expected reply status)
    (hterminal : status.isTerminal = true) :
    Acknowledges expected s
      ((TerminalReports.thenAcknowledge x reply status now agentId).run s) := by
  refine hx.bind fun t hended => ?_
  rw [run_modify_bind]
  exact acknowledges_trans t _ _ (acknowledges_sendAck hexpected hterminal hended)
    (keeps_onAgentReady _)

theorem acknowledges_onApiException {handler : Handler Unit}
    (hx : Acknowledges expected s (x.run s))
    (hhandler : Keeps (Acknowledges expected) handler) :
    Acknowledges expected s ((onApiException x handler).run s) := by
  refine rel_run_recover acknowledges_trans hx fun failure t _ => ?_
  cases failure with
  | api code => exact hhandler t
  | database => exact acknowledges_refl t

theorem acknowledges_completed (message : TaskCompletedMessage) :
    Acknowledges (AckOf (.completed message)) s
      ((handleTaskMessage env occasion agentId (.completed message)).run s) := by
  refine acknowledges_onApiException ?_ (Keeps.bind acknowledges_trans keeps_failRejectedCompletion
    fun _ => keeps_modify fun t => acknowledges_of_same rfl rfl)
  rw [AgentMessages.completeTask, bind_bind]
  apply rel_run_check_bind acknowledges_refl
  intro _
  refine acknowledges_of_canonical fun hids =>
    ends_run.mp (ends_bind.mpr (ends_transaction.mpr ⟨fun completed db' h => ends_run.mpr ?_,
      fun _ _ => acknowledges_refl s⟩))
  have hkeeps : KeepsEnds s.db db' :=
    keepsEnds_of_moves True True (completeTask_moves h)
  obtain ⟨-, rfl⟩ := AgentIsolation.completeTask_own h
  have hset : Acknowledges (AckOf (.completed message)) s (s.setDb db') :=
    acknowledges_setDb fun _ => hkeeps
  refine acknowledges_trans _ _ _ hset ?_
  have hready : EndsTask (AckOf (.completed message)) (asciiLower (asciiLower message.taskId))
      .succeeded (do
        modify (Server.finishTaskRuntime (asciiLower message.taskId))
        AgentMessages.onAgentReady occasion.now agentId) (s.setDb db') := by
    refine endsTask_of_ended rfl ?_ ?_
    · rw [asciiLower_asciiLower]
      exact completeTask_ended h
    · exact Keeps.bind acknowledges_trans (keeps_modify fun t => acknowledges_of_same rfl rfl)
        fun _ => keeps_onAgentReady
  have hdone : Acknowledges (AckOf (.completed message)) (s.setDb db')
      ((TerminalReports.thenAcknowledge _ (asciiLower message.taskId) .succeeded occasion.now
        agentId).run (s.setDb db')) :=
    acknowledges_thenAcknowledge hready ⟨rfl, rfl⟩ rfl
  rw [TerminalReports.thenAcknowledge, bind_bind] at hdone
  exact hdone

theorem acknowledges_handleTaskInputAck (message : TaskInputAckMessage) :
    Acknowledges expected s (s.handleTaskInputAck agentId message) := by
  rw [Server.handleTaskInputAck]
  split
  · exact acknowledges_refl s
  · split
    · exact acknowledges_refl s
    · split
      · exact acknowledges_refl s
      · split
        · exact acknowledges_refl s
        · exact acknowledges_of_same rfl rfl

/-- A handler acknowledges a result only in answer to a report of it, and only when the task has
ended with the status that it acknowledges. -/
theorem acknowledges_handleTaskMessage (message : AgentMessage) :
    Acknowledges (AckOf message) s ((handleTaskMessage env occasion agentId message).run s) := by
  have hdone : Keeps (Acknowledges (AckOf message)) (pure () : Handler Unit) :=
    keeps_pure acknowledges_refl ()
  have hclosed : Acknowledges (AckOf message) s (s.safeClose agentId) :=
    acknowledges_of_same rfl rfl
  cases message with
  | claim id taskId =>
      refine keeps_onApiException (Keeps.bind acknowledges_trans keeps_claim fun assignment t => ?_)
        hdone s
      exact rel_run_ifSome acknowledges_refl fun _ _ => acknowledges_send (by rintro _ _ ⟨⟩)
  | accepted taskId leaseToken => exact keeps_onApiException keeps_accept hdone s
  | status message => exact keeps_onApiException keeps_reportTaskStatus hdone s
  | log message =>
      refine keeps_onApiException (Keeps.bind acknowledges_trans keeps_appendFromAgent fun _ => ?_)
        hdone s
      exact keeps_modify fun t => acknowledges_send (by rintro _ _ ⟨⟩)
  | artifactManifest message =>
      refine keeps_onApiException (Keeps.bind acknowledges_trans keeps_registerManifest fun _ => ?_)
        (keeps_modify fun t => acknowledges_send (by rintro _ _ ⟨⟩)) s
      exact keeps_modify fun t => acknowledges_send (by rintro _ _ ⟨⟩)
  | completed message => exact acknowledges_completed message
  | failed message =>
      exact acknowledges_onApiException (acknowledges_thenAcknowledge
        (endsTask_reportPreparationFailure message) ⟨rfl, rfl⟩ rfl) hdone
  | canceled message =>
      exact acknowledges_onApiException (acknowledges_thenAcknowledge
        (endsTask_reportTaskCanceled message) ⟨rfl, rfl⟩ rfl) hdone
  | inputAck message => exact acknowledges_handleTaskInputAck message
  | hello message => exact hclosed
  | heartbeat messageAgentId currentTaskId => exact hclosed
  | invalid => exact hclosed

/-- The same for all that a socket may get. -/
theorem acknowledges_handleMessage (env : Environment) (occasion : Occasion) (agentId : Id)
    (message : AgentMessage) (s : Server) :
    Acknowledges (AckOf message) s ((handleMessage env occasion agentId message).run s) := by
  rw [handleMessage, run_get_bind]
  split
  · exact acknowledges_refl s
  refine rel_run_recover acknowledges_trans ?_ fun _ t _ => acknowledges_of_same rfl rfl
  have htask : Acknowledges (AckOf message) s
      ((if s.socket.helloReceived = false then modify (Server.safeClose agentId)
        else handleTaskMessage env occasion agentId message).run s) := by
    split
    · exact acknowledges_of_same rfl rfl
    · exact acknowledges_handleTaskMessage message
  cases message with
  | hello message => exact keeps_handleHello s
  | heartbeat messageAgentId currentTaskId => exact keeps_handleHeartbeat s
  | invalid => exact acknowledges_of_same rfl rfl
  | claim id taskId => exact htask
  | accepted taskId leaseToken => exact htask
  | status message => exact htask
  | log message => exact htask
  | artifactManifest message => exact htask
  | completed message => exact htask
  | failed message => exact htask
  | canceled message => exact htask
  | inputAck message => exact htask

end AnvilRun.ResultAcks
