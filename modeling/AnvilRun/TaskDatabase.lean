import AnvilRun.Fallible
import AnvilRun.Json
import AnvilRun.Table
import AnvilRun.TaskStatus
import AnvilRun.ValidationPrimitives

namespace AnvilRun.TaskDatabase

open AnvilRun.Fallible
open AnvilRun.ValidationPrimitives

/-- The text of a UUID as PostgreSQL writes it, in lower case. -/
abbrev Id := JsString

/-- Milliseconds since the epoch. -/
abbrev Time := Int

inductive AgentStatus where
  | online | offline | disabled
  deriving DecidableEq

structure Agent where
  enabled : Bool
  status : AgentStatus
  activeTaskId : Option Id
  deriving DecidableEq

structure BuildTemplate where
  agentId : Id
  gitUrl : JsString
  command : JsString
  artifactDir : JsString
  formSchema : Json
  interactiveInputEnabled : Bool
  timeoutSeconds : Int
  enabled : Bool

structure Project where
  buildTemplateId : Id
  branch : JsString
  config : Json
  deletedAt : Option Time

structure TaskInputFile where
  configFileId : Id
  fieldName : JsString
  originalName : JsString
  size : Nat
  sha256 : JsString
  targetRelativePath : JsString
  deriving DecidableEq

structure BuildTask where
  projectId : Id
  buildTemplateId : Id
  agentId : Id
  createdBy : Id
  status : BuildTaskStatus
  statusReason : Option JsString
  branch : JsString
  config : Json
  interactiveInputEnabled : Bool
  sourceCommit : Option JsString
  assignedArtifactDir : Option JsString
  recoveryStatus : Option BuildTaskStatus
  agentLostAt : Option Time
  recoveryDeadlineAt : Option Time
  creationIdempotencyKey : Option JsString
  exitCode : Option Int
  queuedAt : Option Time
  startedAt : Option Time
  finishedAt : Option Time
  cancelRequestedAt : Option Time
  leaseHash : Option JsString
  leaseExpiresAt : Option Time
  logSize : Nat
  lastLogSequence : Nat
  logLeaseHash : Option JsString
  logLeaseExpiresAt : Option Time
  logSensitiveKeys : Json
  artifactCount : Nat
  artifactBytes : Nat
  createdAt : Time
  updatedAt : Time
  inputFiles : List TaskInputFile

structure Artifact where
  taskId : Id
  relativePath : JsString
  fileName : JsString
  size : Nat
  sha256 : JsString
  storagePath : JsString
  uploadedAt : Option Time
  deriving DecidableEq

inductive TaskStatusSource where
  | server | agent | system | user
  deriving DecidableEq

structure BuildTaskStatusHistory where
  taskId : Id
  fromStatus : Option BuildTaskStatus
  toStatus : BuildTaskStatus
  source : TaskStatusSource
  reason : Option JsString
  occurredAt : Time
  deriving DecidableEq

structure Db where
  agents : Table Id Agent
  tasks : Table Id BuildTask
  projects : Table Id Project
  templates : Table Id BuildTemplate
  artifacts : List Artifact
  history : List BuildTaskStatusHistory

/-- The codes of `ApiException` that the task services use. -/
inductive ApiCode where
  | resourceNotFound | taskInvalidState | taskLeaseInvalid | validationFailed
  | agentOffline | agentDisabled | buildTemplateInvalid | projectConfigInvalid
  | configFileReferenceInvalid | artifactInvalidPath | artifactSizeLimitExceeded
  deriving DecidableEq

/-- What a service throws: an `ApiException`, or an error of the database. -/
inductive Failure where
  | api (code : ApiCode)
  | database
  deriving DecidableEq

/-- `lockAgentExecutionSlot`. -/
def Db.lockAgent (db : Db) (agentId : Id) : Option Agent :=
  db.agents.row agentId

/-- `findUnique` with an id in any spelling. -/
def Db.findTask (db : Db) (taskId : JsString) : Option BuildTask :=
  db.tasks.row (asciiLower taskId)

def Db.setAgent (db : Db) (agentId : Id) (f : Agent → Agent) : Db :=
  { db with agents := db.agents.modify agentId f }

def Db.setActiveTask (db : Db) (agentId : Id) (taskId : Option Id) : Db :=
  db.setAgent agentId (fun agent => { agent with activeTaskId := taskId })

/-- An update of a task that leaves its status alone. -/
def Db.updateTask (db : Db) (now : Time) (taskId : Id) (set : BuildTask → BuildTask) : Db :=
  { db with tasks := db.tasks.modify taskId (fun task => { set task with
      status := task.status, agentId := task.agentId, updatedAt := now }) }

/-- The unique index of the tasks that hold the slot of an agent. -/
def Db.slotTaken (db : Db) (agentId taskId : Id) : Bool :=
  db.tasks.entries.any (fun entry =>
    decide (entry.1 ≠ taskId ∧ entry.2.agentId = agentId) && entry.2.status.holdsSlot)

/-- A value that JavaScript takes for true. -/
def truthy (text : Option JsString) : Option JsString :=
  text.filter (fun s => !s.isEmpty)

/-- What a transition writes besides the status. Without a status reason of its own it writes
the reason of the transition. -/
structure TransitionData where
  set : BuildTask → BuildTask
  statusReason : Option (Option JsString)

def TransitionData.of (set : BuildTask → BuildTask) : TransitionData :=
  ⟨set, none⟩

/-- The row that a transition writes. -/
def TransitionData.write (data : TransitionData) (now : Time) (next : BuildTaskStatus)
    (reason : Option JsString) (task : BuildTask) : BuildTask :=
  { data.set task with
    statusReason := data.statusReason.getD reason
    status := next
    agentId := task.agentId
    updatedAt := now }

/-- The rows that a transition leaves. -/
def Db.setStatus (db : Db) (now : Time) (taskId : Id) (old next : BuildTaskStatus)
    (source : TaskStatusSource) (reason : Option JsString) (data : TransitionData) : Db :=
  { db with
    tasks := db.tasks.modify taskId (data.write now next reason)
    history := db.history ++ [⟨taskId, some old, next, source, reason, now⟩] }

/-- `TaskStateService.transition`. -/
def transition (now : Time) (db : Db) (taskId : Id) (next : BuildTaskStatus)
    (source : TaskStatusSource) (reason : Option JsString) (data : TransitionData) :
    Except Failure Db := do
  let current ← require (db.tasks.row taskId) (.api .resourceNotFound)
  if current.status = next then
    return db
  else
    ensure (current.status.canTransition next) (.api .taskInvalidState)
    ensure (¬ (next.holdsSlot ∧ db.slotTaken current.agentId taskId)) .database
    return db.setStatus now taskId current.status next source reason data

/-- `TaskStateService.createInitial`. -/
def createInitial (now : Time) (db : Db) (taskId : Id) (nextStatus : BuildTaskStatus)
    (source : TaskStatusSource) (reason : Option JsString) : Except Failure Db := do
  let created := { db with history :=
    db.history ++ [⟨taskId, none, .created, source, reason, now⟩] }
  if nextStatus = .created then
    return created
  else
    transition now created taskId nextStatus source reason ⟨id, some reason⟩

/-- What a transition can do. -/
theorem transition_eq_ok {now : Time} {db db' : Db} {taskId : Id} {next : BuildTaskStatus}
    {source : TaskStatusSource} {reason : Option JsString} {data : TransitionData} :
    transition now db taskId next source reason data = .ok db' ↔
      ∃ current, db.tasks.row taskId = some current ∧
        (current.status = next ∧ db' = db ∨
          current.status.canTransition next = true ∧
            ¬ (next.holdsSlot ∧ db.slotTaken current.agentId taskId) ∧
            db' = db.setStatus now taskId current.status next source reason data) := by
  simp only [transition, bind_eq_ok, require_eq_ok]
  refine exists_congr fun current => and_congr_right fun _ => ?_
  by_cases hsame : current.status = next
  · rw [if_pos hsame, pure_eq_ok]
    constructor
    · rintro rfl
      exact Or.inl ⟨hsame, rfl⟩
    · rintro (⟨-, rfl⟩ | ⟨hcan, -⟩)
      · rfl
      · rw [hsame, next.not_canTransition_self] at hcan
        exact absurd hcan Bool.false_ne_true
  · simp only [if_neg hsame, bind_eq_ok, ensure_eq_ok, pure_eq_ok]
    constructor
    · rintro ⟨-, hcan, -, hfree, rfl⟩
      exact Or.inr ⟨hcan, hfree, rfl⟩
    · rintro (⟨h, -⟩ | ⟨hcan, hfree, rfl⟩)
      · exact absurd h hsame
      · exact ⟨(), hcan, (), hfree, rfl⟩

end AnvilRun.TaskDatabase
