import AnvilRun.AgentGateway
import AnvilRun.TransitionSystem

namespace AnvilRun.TaskOperations

open AnvilRun.AgentGateway
open AnvilRun.AgentRegistry
open AnvilRun.ArtifactsService
open AnvilRun.Fallible
open AnvilRun.TaskDatabase
open AnvilRun.TaskQueue
open AnvilRun.TasksService
open AnvilRun.ValidationPrimitives

/-- The transactions on tasks with their arguments. -/
inductive TaskOperation where
  | createTask (registry : Registry) (now : Time) (request : CreateTaskRequest)
  | claim (registry : Registry) (now : Time) (tokens : Nat → JsString) (agentId : Id)
      (requestedTaskId : Option JsString)
  | accept (now : Time) (agentId : Id) (taskId leaseToken : JsString)
  | reportTaskStatus (now : Time) (agentId : Id) (message : TaskStatusMessage)
  | reportPreparationFailure (now : Time) (agentId : Id) (message : TaskFailedMessage)
  | reportTaskCanceled (now : Time) (agentId : Id) (message : TaskCanceledMessage)
  | completeTask (now : Time) (agentId : Id) (message : TaskCompletedMessage)
  | failRejectedCompletion (now : Time) (agentId : Id) (message : TaskCompletedMessage)
  | requestCancellation (now : Time) (tokens : Id → Option JsString) (taskId : JsString)
      (reason : Option JsString)
  | onAgentReady (registry : Registry) (now : Time) (agentId : Id)
  | disconnectTask (now : Time) (agentId taskId : Id)
  | hello (now : Time) (durableLog : Id → Except Failure LogFileState) (agentId : Id)
      (currentTask : Option AgentCurrentTask) (capabilities : List JsString)
  | reconcileInterruptedTask (registry : Registry) (now : Time) (agentId taskId : Id)
      (status : BuildTaskStatus)
  | reclaimDispatch (registry : Registry) (now : Time) (agentId taskId : Id)
  | reclaimCancellation (now : Time) (agentId taskId : Id)
  | reclaimRecovery (now : Time) (agentId taskId : Id)

namespace TaskOperation

/-- What a transaction leaves, or what it throws. -/
def perform (env : Environment) (db : Db) : TaskOperation → Except Failure Db
  | createTask registry now request =>
      Prod.snd <$> TasksService.createTask env registry now db request
  | claim registry now tokens agentId requested =>
      Prod.snd <$> claimInTransaction env registry now tokens db agentId requested
  | accept now agentId taskId leaseToken => TaskQueue.accept env now db agentId taskId leaseToken
  | reportTaskStatus now agentId message => TaskQueue.reportTaskStatus env now db agentId message
  | reportPreparationFailure now agentId message =>
      Prod.snd <$> TaskQueue.reportPreparationFailure env now db agentId message
  | reportTaskCanceled now agentId message =>
      Prod.snd <$> TaskQueue.reportTaskCanceled env now db agentId message
  | completeTask now agentId message =>
      Prod.snd <$> ArtifactsService.completeTask env now db agentId message
  | failRejectedCompletion now agentId message =>
      Prod.snd <$> TaskQueue.failRejectedCompletion env now db agentId message
  | requestCancellation now tokens taskId reason =>
      Prod.snd <$> TaskQueue.requestCancellation now tokens db taskId reason
  | onAgentReady registry now agentId =>
      Prod.snd <$> TaskQueue.onAgentReady registry now db agentId
  | disconnectTask now agentId taskId =>
      Prod.snd <$> TaskQueue.disconnectTask now db agentId taskId
  | hello now durableLog agentId current capabilities =>
      Prod.snd <$> AgentGateway.hello env now durableLog db agentId current capabilities
  | reconcileInterruptedTask registry now agentId taskId status =>
      TaskQueue.reconcileInterruptedTask registry now db agentId taskId status
  | reclaimDispatch registry now agentId taskId =>
      Prod.snd <$> TaskQueue.reclaimDispatch registry now db agentId taskId
  | reclaimCancellation now agentId taskId =>
      Prod.snd <$> TaskQueue.reclaimCancellation now db agentId taskId
  | reclaimRecovery now agentId taskId =>
      Prod.snd <$> TaskQueue.reclaimRecovery now db agentId taskId

/-- A transaction that throws is rolled back. -/
def run (env : Environment) (db : Db) (op : TaskOperation) : Db :=
  match op.perform env db with
  | .ok db' => db'
  | .error _ => db

/-- The database makes the id of a new task, and the sweeps take their candidates with the agent,
and the status, of the row. -/
def Feasible (db : Db) : TaskOperation → Prop
  | createTask _ _ request => asciiLower request.newTaskId = request.newTaskId
  | reconcileInterruptedTask _ _ agentId taskId status =>
      status.isAgentExecutionPhase = true ∧
        ∃ task, db.tasks.row taskId = some task ∧ task.agentId = agentId
  | reclaimDispatch _ _ agentId taskId | reclaimCancellation _ agentId taskId
  | reclaimRecovery _ agentId taskId =>
      ∃ task, db.tasks.row taskId = some task ∧ task.agentId = agentId
  | _ => True

end TaskOperation

end AnvilRun.TaskOperations
