import AnvilRun.ArtifactsService
import AnvilRun.TasksService

namespace AnvilRun.AgentGateway

open AnvilRun.Fallible
open AnvilRun.TaskDatabase
open AnvilRun.TaskQueue
open AnvilRun.ValidationPrimitives

/-- The update of the agent row behind the reconciliation of a hello. -/
def recordHello (decision : Option AgentRecoveryDecision) (agent : Agent) : Agent :=
  { agent with
    status := .online
    activeTaskId :=
      match decision with
      | some decision => if decision.action = .abandon then none else some decision.taskId
      | none => none }

/-- The part of `handleHello` in the database, for an agent that is enabled. -/
def hello (env : Environment) (now : Time) (durableLog : Id → Except Failure LogFileState) (db : Db)
    (agentId : Id) (currentTask : Option AgentCurrentTask) (capabilities : List JsString) :
    Except Failure (HelloOutcome × Db) := do
  let outcome ← reconcileAgentHello env now durableLog db agentId currentTask capabilities
  return (outcome.1, outcome.2.setAgent agentId (recordHello outcome.1.decision))

/-- `ACTIVE_CONNECTION_TASK_STATUSES`. -/
def activeConnectionTaskStatuses : List BuildTaskStatus :=
  [.dispatched, .preparing, .running, .uploading, .canceling, .agentLost]

/-- The reads of a heartbeat: the task that it may write into the slot. -/
def validHeartbeatTask (db : Db) (agentId : Id) (taskId : Option JsString) : Option Id :=
  match taskId with
  | none => none
  | some taskId =>
      if matchesUuid taskId = false then none
      else if (db.agents.row agentId).bind Agent.activeTaskId ≠ some taskId then none
      else
        match db.findTask taskId with
        | none => none
        | some task =>
            if task.agentId = agentId ∧ activeConnectionTaskStatuses.contains task.status then
              some (asciiLower taskId)
            else none

/-- The update of the agent row behind these reads. -/
def recordHeartbeat (activeTaskId : Option Id) (agent : Agent) : Agent :=
  { agent with
    status := .online
    activeTaskId := activeTaskId.or agent.activeTaskId }

/-- `agent.updateMany` of an agent that is enabled. -/
def updateEnabledAgent (db : Db) (agentId : Id) (f : Agent → Agent) : Db :=
  db.setAgent agentId (fun agent => if agent.enabled then f agent else agent)

/-- `markOffline`. -/
def markOffline (db : Db) (agentId : Id) : Db :=
  updateEnabledAgent db agentId (fun agent => { agent with status := .offline })

end AnvilRun.AgentGateway
