import AnvilRun.SensitiveValues
import AnvilRun.SlotPreservation
import AnvilRun.TransitionSystem

namespace AnvilRun.SlotSystem

open AnvilRun.AgentGateway
open AnvilRun.AgentRegistry
open AnvilRun.ArtifactsService
open AnvilRun.ExecutionSlot
open AnvilRun.Fallible
open AnvilRun.SlotPreservation
open AnvilRun.TaskDatabase
open AnvilRun.TaskQueue
open AnvilRun.TasksService
open JsString

/-- One transaction of the server. The clock, the connections and the arguments of an operation are
arbitrary. A sweep takes the agent of its candidate from the row of the task. -/
inductive Operation (env : Environment) : Db → Db → Prop
  | createTask {registry : Registry} {now : Time} {db db' : Db} {request : CreateTaskRequest}
      {created : Id} (h : createTask env registry now db request = .ok (created, db')) :
      Operation env db db'
  | claim {registry : Registry} {now : Time} {tokens : Nat → JsString} {db db' : Db} {agentId : Id}
      {requested : Option JsString} {outcome : ClaimOutcome}
      (h : claimInTransaction env registry now tokens db agentId requested = .ok (outcome, db')) :
      Operation env db db'
  | accept {now : Time} {db db' : Db} {agentId : Id} {taskId leaseToken : JsString}
      (h : accept env now db agentId taskId leaseToken = .ok db') : Operation env db db'
  | reportTaskStatus {now : Time} {db db' : Db} {agentId : Id} {message : TaskStatusMessage}
      (h : reportTaskStatus env now db agentId message = .ok db') : Operation env db db'
  | reportPreparationFailure {now : Time} {db db' : Db} {agentId : Id}
      {message : TaskFailedMessage} {failed : Bool}
      (h : reportPreparationFailure env now db agentId message = .ok (failed, db')) :
      Operation env db db'
  | reportTaskCanceled {now : Time} {db db' : Db} {agentId : Id} {message : TaskCanceledMessage}
      {canceled : Bool} (h : reportTaskCanceled env now db agentId message = .ok (canceled, db')) :
      Operation env db db'
  | completeTask {now : Time} {db db' : Db} {agentId : Id} {message : TaskCompletedMessage}
      {completed : Id} (h : completeTask env now db agentId message = .ok (completed, db')) :
      Operation env db db'
  | failRejectedCompletion {now : Time} {db db' : Db} {agentId : Id}
      {message : TaskCompletedMessage} {failed : Bool}
      (h : failRejectedCompletion env now db agentId message = .ok (failed, db')) :
      Operation env db db'
  | requestCancellation {now : Time} {tokens : Id → Option JsString} {db db' : Db}
      {taskId : JsString} {reason : Option JsString} {outcome : CancellationOutcome}
      (h : requestCancellation now tokens db taskId reason = .ok (outcome, db')) :
      Operation env db db'
  | onAgentReady {registry : Registry} {now : Time} {db db' : Db} {agentId : Id} {ready : Bool}
      (h : onAgentReady registry now db agentId = .ok (ready, db')) : Operation env db db'
  | onAgentDisconnected {now : Time} {db db' : Db} {agentId taskId : Id} {preserved : Bool}
      (h : disconnectTask now db agentId taskId = .ok (preserved, db')) : Operation env db db'
  | hello {now : Time} {durableLog : Id → Except Failure LogFileState} {db db' : Db} {agentId : Id}
      {current : Option AgentCurrentTask} {capabilities : List JsString} {outcome : HelloOutcome}
      (h : hello env now durableLog db agentId current capabilities = .ok (outcome, db')) :
      Operation env db db'
  | reconcileInterruptedTask {registry : Registry} {now : Time} {db db' : Db} {agentId taskId : Id}
      {status : BuildTaskStatus} (hstatus : status.isAgentExecutionPhase = true)
      (h : reconcileInterruptedTask registry now db agentId taskId status = .ok db') :
      Operation env db db'
  | reclaimDispatch {registry : Registry} {now : Time} {db db' : Db} {agentId taskId : Id}
      {result : Option BuildTaskStatus}
      (h : reclaimDispatch registry now db agentId taskId = .ok (result, db')) :
      Operation env db db'
  | reclaimCancellation {now : Time} {db db' : Db} {taskId : Id} {task : BuildTask} {given : Bool}
      (hrow : db.tasks.row taskId = some task)
      (h : reclaimCancellation now db task.agentId taskId = .ok (given, db')) : Operation env db db'
  | reclaimRecovery {now : Time} {db db' : Db} {taskId : Id} {task : BuildTask} {given : Bool}
      (hrow : db.tasks.row taskId = some task)
      (h : reclaimRecovery now db task.agentId taskId = .ok (given, db')) : Operation env db db'
  -- what the rest of the server writes: agents that come and go online, projects, templates,
  -- artifacts, and the columns of a task that have nothing to do with its slot
  | administer {db db' : Db} (htasks : db'.tasks = db.tasks)
      (hactive : ∀ agentId, activeTask db' agentId = activeTask db agentId) : Operation env db db'
  | updateTask {now : Time} {db : Db} {taskId : Id} {task : BuildTask} {set : BuildTask → BuildTask}
      (hrow : db.tasks.row taskId = some task) (hhash : (set task).leaseHash = task.leaseHash)
      (hexpires : (set task).leaseExpiresAt = task.leaseExpiresAt) :
      Operation env db (db.updateTask now taskId set)

/-- The server from a database without tasks on. -/
def taskSystem (env : Environment) : TransitionSystem Db where
  init := fun db => (∀ taskId, db.tasks.row taskId = none) ∧ ∀ agentId, activeTask db agentId = none
  step := Operation env

variable {env : Environment} {db db' : Db}

theorem slotInvariant_of_init (h : (taskSystem env).init db) : SlotInvariant db := by
  obtain ⟨hempty, hfree⟩ := h
  refine ⟨fun agentId taskId => ?_, fun taskId task hrow => ?_⟩
  · constructor
    · intro hactive
      exact nomatch (hfree agentId).symm.trans hactive
    · rintro ⟨-, task, hrow, -⟩
      exact nomatch (hempty taskId).symm.trans hrow
  · exact nomatch (hempty taskId).symm.trans hrow

theorem Operation.slotInvariant (h : Operation env db db') (hinv : SlotInvariant db) :
    SlotInvariant db' := by
  cases h with
  | createTask h => exact createTask_keep hinv h
  | claim h => exact claimInTransaction_keep hinv h
  | accept h => exact accept_keep hinv h
  | reportTaskStatus h => exact reportTaskStatus_keep hinv h
  | reportPreparationFailure h => exact reportPreparationFailure_keep hinv h
  | reportTaskCanceled h => exact reportTaskCanceled_keep hinv h
  | completeTask h => exact completeTask_keep hinv h
  | failRejectedCompletion h => exact failRejectedCompletion_keep hinv h
  | requestCancellation h => exact requestCancellation_keep hinv h
  | onAgentReady h => exact onAgentReady_keep hinv h
  | onAgentDisconnected h => exact disconnectTask_keep hinv h
  | hello h => exact hello_keep hinv h
  | reconcileInterruptedTask hstatus h =>
      exact reconcileInterruptedTask_keep hinv (holdsSlot_of_isAgentExecutionPhase hstatus) h
  | reclaimDispatch h => exact reclaimDispatch_keep hinv h
  | reclaimCancellation hrow h => exact reclaimCancellation_keep hinv hrow h
  | reclaimRecovery hrow h => exact reclaimRecovery_keep hinv hrow h
  | administer htasks hactive => exact hinv.stay htasks hactive
  | updateTask hrow hhash hexpires => exact hinv.updateTask hrow hhash hexpires

theorem slotInvariant_of_reachable (h : (taskSystem env).Reachable db) : SlotInvariant db := by
  refine h.invariant ?_ ?_
  · intro s hinit
    exact slotInvariant_of_init hinit
  · intro s t _ hinv hstep
    exact Operation.slotInvariant hstep hinv

/-- The slot of an agent holds exactly its task in a status that occupies the slot, of which there
is at most one, and the tasks in such a status are those with a lease. -/
theorem executionSlot_of_reachable (h : (taskSystem env).Reachable db) :
    (∀ (agentId : Id) (agent : Agent) (taskId : Id) (task : BuildTask),
      db.agents.row agentId = some agent → db.tasks.row taskId = some task →
      task.agentId = agentId →
      (agent.activeTaskId = some taskId ↔ task.status.holdsSlot = true)) ∧
    (∀ (taskId otherId : Id) (task other : BuildTask), db.tasks.row taskId = some task →
      db.tasks.row otherId = some other → other.agentId = task.agentId →
      task.status.holdsSlot = true → other.status.holdsSlot = true → otherId = taskId) ∧
    ∀ (taskId : Id) (task : BuildTask), db.tasks.row taskId = some task →
      (task.status.holdsSlot = true → task.leaseHash ≠ none ∧ task.leaseExpiresAt ≠ none) ∧
        (task.status.holdsSlot = false → task.leaseHash = none) := by
  have hinv := slotInvariant_of_reachable h
  refine ⟨?_, ?_, hinv.leases⟩
  · rintro agentId agent taskId task hagent hrow rfl
    rw [← activeTask_of_lockAgent hagent]
    constructor
    · intro hslot
      obtain ⟨task', hrow', -, hheld⟩ := hinv.holds_of_activeTask hslot
      rw [Option.some.inj (hrow.symm.trans hrow')]
      exact hheld
    · exact hinv.activeTask_of_holds hrow
  · intro taskId otherId task other hrow hother howner hheld hheld'
    have hslot := hinv.activeTask_of_holds hother hheld'
    rw [howner, hinv.activeTask_of_holds hrow hheld] at hslot
    exact (Option.some.inj hslot).symm

/-! A server with one agent and one project -/

def demoAgentId : Id := ofString "00000000-0000-4000-8000-00000000000a"
def demoTaskId : Id := ofString "00000000-0000-4000-8000-000000000001"
def demoProjectId : Id := ofString "00000000-0000-4000-8000-000000000002"
def demoTemplateId : Id := ofString "00000000-0000-4000-8000-000000000003"

def demoEnvironment : Environment where
  runtime := SensitiveValues.unusedRuntime
  hashToken := fun token => ofString "hash of " ++ token
  validAssignment := fun _ => true

def demoTemplate : BuildTemplate where
  agentId := demoAgentId
  gitUrl := ofString "https://git.example/app.git"
  command := ofString "make"
  artifactDir := ofString "out"
  formSchema := .array []
  interactiveInputEnabled := false
  timeoutSeconds := 600
  enabled := true

def demoProject : Project where
  buildTemplateId := demoTemplateId
  branch := ofString "main"
  config := .object []
  deletedAt := none

def demoDb : Db where
  agents := .single demoAgentId ⟨true, .online, none⟩
  tasks := .empty
  projects := .single demoProjectId demoProject
  templates := .single demoTemplateId demoTemplate
  artifacts := []
  history := []

def demoRegistry : Registry :=
  fun agentId => if agentId = demoAgentId then some ⟨true, true, []⟩ else none

def demoRequest : CreateTaskRequest where
  newTaskId := demoTaskId
  createdBy := ofString "00000000-0000-4000-8000-000000000004"
  projectId := demoProjectId
  inScope := true
  creationIdempotencyKey := none
  inputFiles := some []

def demoToken : JsString := ofString "lease-1"

theorem createTask_demoDb :
    (createTask demoEnvironment demoRegistry 0 demoDb demoRequest).isOk = true := by
  decide +kernel

/-- The database with a task in the queue. -/
def queuedDb : Db := (value _ createTask_demoDb).2

theorem claim_queuedDb :
    (claimInTransaction demoEnvironment demoRegistry 0 (fun _ => demoToken) queuedDb demoAgentId
      none).isOk = true := by
  decide +kernel

/-- The database after the agent claimed the task. -/
def dispatchedDb : Db := (value _ claim_queuedDb).2

theorem reachable_dispatchedDb : (taskSystem demoEnvironment).Reachable dispatchedDb := by
  have hinit : (taskSystem demoEnvironment).Reachable demoDb := by
    refine .init ⟨fun _ => rfl, fun agentId => ?_⟩
    show ((if agentId = demoAgentId then some _ else none : Option Agent)).bind _ = none
    split <;> rfl
  have hqueued : (taskSystem demoEnvironment).Reachable queuedDb :=
    hinit.step (.createTask (eq_ok_value _ createTask_demoDb))
  exact hqueued.step (.claim (eq_ok_value _ claim_queuedDb))

/-- The dispatched task is the one in the slot, and it has a lease. -/
theorem executionSlot_dispatchedDb :
    ∃ agent task, dispatchedDb.agents.row demoAgentId = some agent ∧
      dispatchedDb.tasks.row demoTaskId = some task ∧ task.status = .dispatched ∧
      agent.activeTaskId = some demoTaskId ∧ task.leaseHash ≠ none ∧ task.leaseExpiresAt ≠ none := by
  have hagent : (dispatchedDb.agents.row demoAgentId).isSome = true := by decide +kernel
  have htask : (dispatchedDb.tasks.row demoTaskId).map (fun task => (task.status, task.agentId)) =
      some (.dispatched, demoAgentId) := by decide +kernel
  obtain ⟨agent, hagent⟩ := Option.isSome_iff_exists.mp hagent
  obtain ⟨task, hrow, htask⟩ := Option.map_eq_some_iff.mp htask
  obtain ⟨hstatus, howner⟩ := Prod.mk.inj htask
  obtain ⟨hslot, -, hlease⟩ := executionSlot_of_reachable reachable_dispatchedDb
  have hheld : task.status.holdsSlot = true := by
    rw [hstatus]
    rfl
  exact ⟨agent, task, hagent, hrow, hstatus, (hslot _ _ _ _ hagent hrow howner).mpr hheld,
    (hlease _ _ hrow).1 hheld⟩

end AnvilRun.SlotSystem
