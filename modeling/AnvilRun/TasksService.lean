import AnvilRun.TaskQueue

namespace AnvilRun.TasksService

open AnvilRun.AgentRegistry
open AnvilRun.Fallible
open AnvilRun.Form
open AnvilRun.TaskDatabase
open AnvilRun.TaskQueue
open AnvilRun.ValidationPrimitives
open JsString

/-- What `createTask` takes from its request and from the tables that are not modelled: whether
the project is in the scope of the user, and the input files that its configuration names (nothing
when a reference is invalid). -/
structure CreateTaskRequest where
  newTaskId : Id
  createdBy : Id
  projectId : Id
  inScope : Bool
  creationIdempotencyKey : Option JsString
  inputFiles : Option (List TaskInputFile)

/-- The task that the same request made before. -/
def existingTask (db : Db) (request : CreateTaskRequest) : Option (Id × BuildTask) :=
  match truthy request.creationIdempotencyKey with
  | none => none
  | some key =>
      db.tasks.entries.find? (fun entry =>
        decide (entry.2.createdBy = request.createdBy ∧ entry.2.projectId = request.projectId ∧
          entry.2.creationIdempotencyKey = some key))

/-- The row that `buildTask.create` writes. -/
def newTask (now : Time) (request : CreateTaskRequest) (project : Project)
    (template : BuildTemplate) (config : Json) (queued : Bool) (inputFiles : List TaskInputFile) :
    BuildTask where
  projectId := request.projectId
  buildTemplateId := project.buildTemplateId
  agentId := template.agentId
  createdBy := request.createdBy
  status := .created
  statusReason := none
  branch := project.branch
  config := config
  interactiveInputEnabled := template.interactiveInputEnabled
  sourceCommit := none
  assignedArtifactDir := none
  recoveryStatus := none
  agentLostAt := none
  recoveryDeadlineAt := none
  creationIdempotencyKey := request.creationIdempotencyKey
  exitCode := none
  queuedAt := if queued then some now else none
  startedAt := none
  finishedAt := none
  cancelRequestedAt := none
  leaseHash := none
  leaseExpiresAt := none
  logSize := 0
  lastLogSequence := 0
  logLeaseHash := none
  logLeaseExpiresAt := none
  logSensitiveKeys := .null
  artifactCount := 0
  artifactBytes := 0
  createdAt := now
  updatedAt := now
  inputFiles := inputFiles

def validSchema (env : Environment) (value : Json) : Except Failure FormSchema :=
  match validateFormSchema env.runtime value with
  | .ok schema => .ok schema
  | .error _ => .error (.api .buildTemplateInvalid)

def validConfig (env : Environment) (schema : FormSchema) (value : Json) : Except Failure Json :=
  match validateFormConfigValues env.runtime schema value with
  | .ok config => .ok config
  | .error _ => .error (.api .projectConfigInvalid)

/-- The transaction of `createTask`. -/
def createTask (env : Environment) (registry : Registry) (now : Time) (db : Db)
    (request : CreateTaskRequest) : Except Failure (Id × Db) :=
  match existingTask db request with
  | some existing => .ok (existing.1, db)
  | none => do
      let project ← require (db.projects.row request.projectId) (.api .resourceNotFound)
      ensure request.inScope (.api .resourceNotFound)
      let template ← require (db.templates.row project.buildTemplateId) .database
      ensure template.enabled (.api .buildTemplateInvalid)
      let agent ← require (db.agents.row template.agentId) .database
      ensure agent.enabled (.api .agentDisabled)
      let schema ← validSchema env template.formSchema
      let config ← validConfig env schema project.config
      let queued := registry.isReady template.agentId
      let inputFiles ← require request.inputFiles (.api .configFileReferenceInvalid)
      let tasks ← require (db.tasks.insert request.newTaskId
        (newTask now request project template config queued inputFiles)) .database
      let db ← createInitial now { db with tasks := tasks } request.newTaskId
        (if queued then .queued else .waitingAgent) .server
        (some (if queued then ofString "Waiting for Agent to claim task"
          else ofString "Waiting for Agent to connect"))
      return (request.newTaskId, db)

end AnvilRun.TasksService
