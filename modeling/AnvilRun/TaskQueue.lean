import AnvilRun.AgentRegistry
import AnvilRun.FormSchema.Values

namespace AnvilRun.TaskQueue

open AnvilRun.AgentRegistry
open AnvilRun.Fallible
open AnvilRun.Form
open AnvilRun.TaskDatabase
open AnvilRun.ValidationPrimitives
open JsString

def dispatchConfirmationTimeoutMs : Int := 30000
def cancellationConfirmationTimeoutMs : Int := 30000
def maxClaimValidationSkips : Nat := 32
def maxAgentReasonLength : Nat := 1024
def logLeaseWindowMs : Int := 10 * 60000
def taskLeaseRecoveryWindowMs : Int := 300 * 1000

def taskInputCapability : JsString := ofString "task-input-v1"

/-- The payload of `task.assignment`. -/
structure TaskAssignment where
  taskId : Id
  leaseToken : JsString
  leaseExpiresAt : Time
  agentId : Id
  projectId : Id
  buildTemplateId : Id
  gitUrl : JsString
  branch : JsString
  command : JsString
  artifactDir : JsString
  timeoutSeconds : Int
  config : Json
  inputFiles : List TaskInputFile
  sensitiveConfigKeys : List JsString
  interactiveInputEnabled : Bool

/-- What the task services take from elsewhere: the JavaScript library, the SHA-256 text of a
lease token, and the check of an assignment by the protocol. -/
structure Environment where
  runtime : JsRuntime
  hashToken : JsString → JsString
  validAssignment : TaskAssignment → Bool

/-- `TaskLeaseService.verify`. -/
def Environment.verify (env : Environment) (token hash : JsString) : Bool :=
  decide (env.hashToken token = hash)

/-- `String.prototype.trim`. -/
def trim (s : JsString) : JsString :=
  ((s.dropWhile isTrimmed).reverse.dropWhile isTrimmed).reverse

def sanitizedReason (value : JsString) : JsString :=
  (trim (value.filter (fun u => decide (32 ≤ u) && u != 127))).take maxAgentReasonLength

def safeAgentReason (value : JsString) : JsString :=
  if (sanitizedReason value).isEmpty then ofString "Agent task preparation failed"
  else sanitizedReason value

def safeCancelReason (value : Option JsString) : JsString :=
  match value with
  | some value =>
      if (sanitizedReason value).isEmpty then ofString "Cancellation requested by user"
      else sanitizedReason value
  | none => ofString "Cancellation requested by user"

/-- `SOURCE_COMMIT_PATTERN`. -/
def matchesSourceCommit (s : JsString) : Bool :=
  (s.length == 40 || s.length == 64) && (asciiLower s).all isHexUnit

def statusText : BuildTaskStatus → JsString
  | .created => ofString "CREATED"
  | .waitingAgent => ofString "WAITING_AGENT"
  | .queued => ofString "QUEUED"
  | .dispatched => ofString "DISPATCHED"
  | .preparing => ofString "PREPARING"
  | .running => ofString "RUNNING"
  | .uploading => ofString "UPLOADING"
  | .succeeded => ofString "SUCCEEDED"
  | .failed => ofString "FAILED"
  | .canceling => ofString "CANCELING"
  | .canceled => ofString "CANCELED"
  | .agentLost => ofString "AGENT_LOST"

def statusLower (status : BuildTaskStatus) : JsString :=
  asciiLower (statusText status)

/-- The order of ids in PostgreSQL. -/
def idLe : Id → Id → Bool
  | [], _ => true
  | _ :: _, [] => false
  | u :: s, v :: t => decide (u < v) || (u == v && idLe s t)

/-- `orderBy: [{ createdAt: 'asc' }, { id: 'asc' }]`. -/
def createdBefore (x y : Id × BuildTask) : Bool :=
  decide (x.2.createdAt < y.2.createdAt) ||
    (decide (x.2.createdAt = y.2.createdAt) && idLe x.1 y.1)

/-- The tasks of an agent in a status, the oldest first. -/
def tasksInStatus (db : Db) (agentId : Id) (status : BuildTaskStatus) : List (Id × BuildTask) :=
  (db.tasks.entries.filter (fun entry =>
    decide (entry.2.agentId = agentId ∧ entry.2.status = status))).mergeSort createdBefore

def withoutLease (task : BuildTask) : BuildTask :=
  { task with leaseHash := none, leaseExpiresAt := none }

/-! Moves that several operations share -/

def moveDispatchedToWaiting (now : Time) (db : Db) (taskId : Id) (reason : JsString) :
    Except Failure Db := do
  let db ← transition now db taskId .queued .system (some reason) (.of withoutLease)
  transition now db taskId .waitingAgent .system (some reason) (.of withoutLease)

def failUndispatchable (now : Time) (db : Db) (taskId : Id) (reason : JsString) :
    Except Failure Db := do
  let failureReason := ofString "Dispatch validation failed: " ++ reason
  let db ← transition now db taskId .dispatched .system (some failureReason)
    ⟨withoutLease, some (some failureReason)⟩
  transition now db taskId .failed .system (some failureReason)
    ⟨withoutLease, some (some failureReason)⟩

/-- Whether the task was failed. -/
def failOrphanedTask (now : Time) (db : Db) (taskId agentId : Id) : Except Failure (Bool × Db) :=
  match db.tasks.row taskId with
  | none => .ok (false, db)
  | some task =>
      if task.agentId ≠ agentId ∨ task.status.isTerminal then .ok (false, db)
      else do
        let db ← transition now db taskId .failed .system
          (some (ofString "Agent restarted without a resumable local task; execution was abandoned"))
          (.of (fun task => { withoutLease task with
            recoveryStatus := none
            agentLostAt := none
            recoveryDeadlineAt := none
            finishedAt := some now }))
        return (true, db.setActiveTask agentId none)

/-! `onAgentReady` and `onAgentDisconnected` -/

def queueWaitingTask (registry : Registry) (now : Time) (agentId : Id) (db : Db)
    (entry : Id × BuildTask) : Except Failure Db :=
  if entry.2.interactiveInputEnabled && !registry.hasCapability agentId taskInputCapability then
    .ok db
  else
    transition now db entry.1 .queued .server
      (some (ofString "Agent connected and task entered the queue"))
      (.of (fun task => { task with queuedAt := some (entry.2.queuedAt.getD now) }))

/-- Whether the agent is free for a task; its waiting tasks are queued then. -/
def onAgentReady (registry : Registry) (now : Time) (db : Db) (agentId : Id) : Except Failure (Bool × Db) :=
  match db.lockAgent agentId with
  | none => .ok (false, db)
  | some agent =>
      if agent.enabled = false ∨ agent.status ≠ .online then .ok (false, db)
      else if agent.activeTaskId ≠ none then .ok (false, db)
      else do
        let db ← (tasksInStatus db agentId .waitingAgent).foldlM
          (queueWaitingTask registry now agentId) db
        return (true, db)

/-- The deadline for the return of a lost agent. -/
def recoveryDeadline (now : Time) (leaseExpiresAt : Option Time) : Time :=
  match leaseExpiresAt with
  | some expires => min (now + taskLeaseRecoveryWindowMs) expires
  | none => now + taskLeaseRecoveryWindowMs

def markLost (now : Time) (status : BuildTaskStatus) (task : BuildTask) : BuildTask :=
  { task with
    recoveryStatus := some status
    agentLostAt := some now
    recoveryDeadlineAt := some (recoveryDeadline now task.leaseExpiresAt) }

/-- The transaction of `onAgentDisconnected` for one task: whether its lease token is kept. -/
def disconnectTask (now : Time) (db : Db) (agentId taskId : Id) : Except Failure (Bool × Db) :=
  match db.lockAgent agentId with
  | none => .ok (false, db)
  | some agent =>
      match db.tasks.row taskId with
      | none => .ok (false, db)
      | some current =>
          if current.agentId ≠ agentId then .ok (false, db)
          else if current.status = .queued then do
            let db ← transition now db taskId .waitingAgent .system
              (some (ofString "Agent disconnected while task was queued")) (.of id)
            return (false, db)
          else if current.status = .dispatched ∧ current.startedAt = none ∧
              agent.activeTaskId = some taskId then do
            let db ← moveDispatchedToWaiting now db taskId
              (ofString "Agent disconnected before accepting task assignment")
            return (false, db.setActiveTask agentId none)
          else if current.status.isAgentExecutionPhase ∧ agent.activeTaskId = some taskId then do
            let db ← transition now db taskId .agentLost .system
              (some (ofString "Agent disconnected while task was " ++ statusLower current.status))
              (.of (markLost now current.status))
            return (true, db)
          else if current.status = .canceling ∧ agent.activeTaskId = some taskId then
            .ok (true, db)
          else .ok (false, db)

/-! `reconcileAgentHello` -/

structure AgentCurrentTask where
  taskId : JsString
  leaseToken : JsString
  status : BuildTaskStatus
  deriving DecidableEq

inductive RecoveryAction where
  | resume | cancel | abandon
  deriving DecidableEq

structure AgentRecoveryDecision where
  taskId : JsString
  action : RecoveryAction
  status : Option BuildTaskStatus
  acknowledgedLogSequence : Nat
  recoveryDeadlineAt : Option Time
  reason : Option JsString
  deriving DecidableEq

/-- What the durable log of a task says about itself. -/
structure LogFileState where
  lastSequence : Nat
  size : Nat
  deriving DecidableEq

/-- What `reconcileAgentHello` does outside of the database after its transaction. -/
structure HelloOutcome where
  decision : Option AgentRecoveryDecision
  leaseToRestore : Option (Id × JsString)
  terminalTaskIds : List Id
  deriving DecidableEq

def abandon (taskId : JsString) (acknowledged : Nat) (reason : String) : AgentRecoveryDecision :=
  ⟨taskId, .abandon, none, acknowledged, none, some (ofString reason)⟩

/-- Fail the task and answer with the decision. -/
def failAndAnswer (now : Time) (db : Db) (agentId taskId : Id)
    (decision : Option AgentRecoveryDecision) : Except Failure (HelloOutcome × Db) := do
  let failed ← failOrphanedTask now db taskId agentId
  return (⟨decision, none, if failed.1 then [taskId] else []⟩, failed.2)

/-- Fail the task in the slot, if there is one. -/
def failActive (now : Time) (db : Db) (agentId : Id) (activeTaskId : Option Id)
    (decision : Option AgentRecoveryDecision) : Except Failure (HelloOutcome × Db) :=
  match activeTaskId with
  | some active => failAndAnswer now db agentId active decision
  | none => .ok (⟨decision, none, []⟩, db)

/-- Whether the lease of a task still counts for its agent. -/
def leaseUsable (now : Time) (task : BuildTask) : Bool :=
  (truthy task.leaseHash).isSome &&
    task.leaseExpiresAt.any (fun expires =>
      decide (now < expires) || (decide (task.status = .canceling) &&
        task.cancelRequestedAt.any (fun requested =>
          decide (now - requested < cancellationConfirmationTimeoutMs))))

/-- The part of the transaction behind all checks of the lease. -/
def reconcileHeldTask (now : Time) (db : Db) (agentId taskId : Id) (task : BuildTask)
    (currentTask : AgentCurrentTask) (acknowledged : Nat) : Except Failure (HelloOutcome × Db) :=
  let restore := some (taskId, currentTask.leaseToken)
  if task.status = .agentLost then
    match task.recoveryStatus, task.recoveryDeadlineAt with
    | some recoveryStatus, some deadline =>
        if recoveryStatus.isAgentExecutionPhase = false ∨ deadline ≤ now ∨
            currentTask.status ≠ recoveryStatus then
          failAndAnswer now db agentId taskId (some (abandon taskId acknowledged
            "Task recovery window expired or phase did not match"))
        else do
          let db ← transition now db taskId recoveryStatus .system
            (some (ofString "Agent reconnected and resumed task in " ++ statusLower recoveryStatus))
            (.of (fun task => { task with
              recoveryStatus := none
              agentLostAt := none
              recoveryDeadlineAt := none }))
          return (⟨some ⟨taskId, .resume, some recoveryStatus, acknowledged, some deadline, none⟩,
            restore, []⟩, db)
    | _, _ =>
        failAndAnswer now db agentId taskId (some (abandon taskId acknowledged
          "Task recovery window expired or phase did not match"))
  else if task.status = .canceling then
    if currentTask.status.isAgentExecutionPhase = false then
      failAndAnswer now db agentId taskId (some (abandon taskId acknowledged
        "Agent current task was not in a cancellable execution phase"))
    else
      .ok (⟨some ⟨taskId, .cancel, some currentTask.status, acknowledged, none,
        some (ofString "Server requested cancellation after Agent reconnect")⟩, restore, []⟩, db)
  else if task.status.isAgentExecutionPhase = false ∨ currentTask.status ≠ task.status then
    failAndAnswer now db agentId taskId (some (abandon taskId acknowledged
      "Agent task phase did not match the Server state"))
  else
    .ok (⟨some ⟨taskId, .resume, some task.status, acknowledged, none, none⟩, restore, []⟩, db)

/-- The database cursor of a log, set to what the repaired file holds. -/
def alignLogCursor (now : Time) (db : Db) (taskId : Id) (task : BuildTask) (log : LogFileState) :
    Db :=
  if task.lastLogSequence ≠ log.lastSequence ∨ task.logSize ≠ log.size then
    db.updateTask now taskId (fun task => { task with
      lastLogSequence := log.lastSequence
      logSize := log.size })
  else db

/-- The part of the transaction for a task that was found. -/
def reconcileFoundTask (env : Environment) (now : Time)
    (durableLog : Id → Except Failure LogFileState) (db : Db) (agentId : Id)
    (activeTaskId : Option Id) (taskId : Id) (task : BuildTask)
    (currentTask : Option AgentCurrentTask) (capabilities : List JsString) :
    Except Failure (HelloOutcome × Db) :=
  let answer := fun (reason : String) =>
    currentTask.map (fun current => abandon current.taskId 0 reason)
  if task.agentId ≠ agentId ∨ activeTaskId ≠ some taskId ∨ leaseUsable now task = false then
    failActive now db agentId activeTaskId (answer "Server could not match the Agent current task")
  else if task.interactiveInputEnabled && !capabilities.contains taskInputCapability then
    failAndAnswer now db agentId taskId
      (answer "Agent does not support interactive task input (task-input-v1)")
  else
    match currentTask with
    | none => failAndAnswer now db agentId taskId none
    | some current =>
        if env.verify current.leaseToken (task.leaseHash.getD []) = false then
          failAndAnswer now db agentId taskId (answer "Agent task lease could not be verified")
        else do
          let log ← durableLog taskId
          reconcileHeldTask now (alignLogCursor now db taskId task log) agentId taskId task current
            log.lastSequence

def reconcileAgentHello (env : Environment) (now : Time)
    (durableLog : Id → Except Failure LogFileState) (db : Db) (agentId : Id)
    (currentTask : Option AgentCurrentTask) (capabilities : List JsString) :
    Except Failure (HelloOutcome × Db) := do
  let agent ← require (db.lockAgent agentId) (.api .resourceNotFound)
  match (currentTask.map AgentCurrentTask.taskId).or agent.activeTaskId with
  | none => return (⟨none, none, []⟩, db)
  | some taskId =>
      if matchesUuid taskId = false then
        failActive now db agentId agent.activeTaskId none
      else
        match db.findTask taskId with
        | none =>
            failActive now db agentId agent.activeTaskId (currentTask.map (fun current =>
              abandon current.taskId 0 "Server could not match the Agent current task"))
        | some task =>
            reconcileFoundTask env now durableLog db agentId agent.activeTaskId
              (asciiLower taskId) task currentTask capabilities

/-! `reconcileInterruptedTasks` -/

/-- The transaction for one of the tasks that ran when the server stopped. -/
def reconcileInterruptedTask (registry : Registry) (now : Time) (db : Db) (agentId taskId : Id)
    (status : BuildTaskStatus) : Except Failure Db :=
  match db.lockAgent agentId with
  | none => .ok db
  | some agent =>
      if agent.activeTaskId ≠ some taskId then .ok db
      else
        match db.tasks.row taskId with
        | none => .ok db
        | some current =>
            if current.status ≠ status then .ok db
            else do
              let db ← transition now db taskId .agentLost .system
                (some (ofString "Server restarted while task was " ++ statusLower status))
                (.of (markLost now status))
              return if registry.isConnected agentId then db
                else db.setAgent agentId (fun agent => { agent with status := .offline })

/-! Requests and reports -/

/-- The payload of `task.cancel`. -/
structure TaskCancel where
  taskId : Id
  leaseToken : JsString
  requestedAt : Time
  reason : JsString
  deriving DecidableEq

/-- What `requestCancellation` does after its transaction. -/
structure CancellationOutcome where
  terminal : Bool
  agentId : Option Id
  cancelMessage : Option TaskCancel
  deriving DecidableEq

/-- The transaction of `requestCancellation`; `tokens` are the lease tokens in memory. -/
def requestCancellation (now : Time) (tokens : Id → Option JsString) (db : Db) (taskId : JsString)
    (reason : Option JsString) : Except Failure (CancellationOutcome × Db) := do
  let safeReason := safeCancelReason reason
  let initial ← require (db.findTask taskId) (.api .resourceNotFound)
  let agentId := initial.agentId
  let agent ← require (db.lockAgent agentId) (.api .resourceNotFound)
  let task ← require (db.findTask taskId) (.api .resourceNotFound)
  let taskId := asciiLower taskId
  if task.status = .succeeded ∨ task.status = .failed then
    throw (.api .taskInvalidState)
  else if task.status = .canceled then
    return (⟨true, none, none⟩,
      if agent.activeTaskId = some taskId then db.setActiveTask agentId none else db)
  else if task.status = .created ∨ task.status = .waitingAgent ∨ task.status = .queued then
    let db ← transition now db taskId .canceling .user (some safeReason)
      (.of (fun task => { withoutLease task with cancelRequestedAt := some now }))
    let db ← transition now db taskId .canceled .user (some safeReason)
      (.of (fun task => { withoutLease task with
        cancelRequestedAt := some now
        finishedAt := some now }))
    return (⟨true, some agentId, none⟩,
      if agent.activeTaskId = some taskId then db.setActiveTask agentId none else db)
  else
    ensure (agent.activeTaskId = some taskId ∧ (truthy task.leaseHash).isSome ∧
      task.leaseExpiresAt.isSome) (.api .taskInvalidState)
    let db ←
      if task.status ≠ .canceling then
        transition now db taskId .canceling .user (some safeReason)
          (.of (fun task => { task with cancelRequestedAt := some now }))
      else
        pure (if task.cancelRequestedAt = none then
          db.updateTask now taskId (fun task => { task with cancelRequestedAt := some now })
        else db)
    return (⟨false, some agentId,
      (truthy (tokens taskId)).map (fun token => ⟨taskId, token, now, safeReason⟩)⟩, db)

/-- Whether a token opens the log lease of a task, which outlives the lease of its execution. -/
def logLeaseOpens (env : Environment) (now : Time) (task : BuildTask) (token : JsString) : Bool :=
  match truthy task.logLeaseHash, task.logLeaseExpiresAt with
  | some hash, some expires => decide (now < expires) && env.verify token hash
  | _, _ => false

/-- Whether a token opens the lease of a task, expired or not. -/
def leaseOpens (env : Environment) (task : BuildTask) (token : JsString) : Bool :=
  match truthy task.leaseHash with
  | some hash => env.verify token hash
  | none => false

/-- Whether the lease of a task has not expired. -/
def leaseLive (now : Time) (task : BuildTask) : Bool :=
  task.leaseExpiresAt.any (fun expires => decide (now < expires))

structure TaskCanceledMessage where
  taskId : JsString
  leaseToken : JsString
  reason : Option JsString
  deriving DecidableEq

/-- The transaction of `reportTaskCanceled`: whether the task was canceled by this report. -/
def reportTaskCanceled (env : Environment) (now : Time) (db : Db) (agentId : Id)
    (message : TaskCanceledMessage) : Except Failure (Bool × Db) := do
  let agent ← require (db.lockAgent agentId) (.api .taskLeaseInvalid)
  let task ← require (db.findTask message.taskId) (.api .taskLeaseInvalid)
  let taskId := asciiLower message.taskId
  ensure (task.agentId = agentId) (.api .taskLeaseInvalid)
  if task.status = .canceled then
    ensure (logLeaseOpens env now task message.leaseToken) (.api .taskLeaseInvalid)
    return (false, db)
  else
    ensure (agent.activeTaskId = some taskId ∧ leaseOpens env task message.leaseToken)
      (.api .taskLeaseInvalid)
    ensure (task.status = .canceling) (.api .taskInvalidState)
    let db ← transition now db taskId .canceled .agent (some (safeCancelReason message.reason))
      (.of (fun task => { withoutLease task with finishedAt := some now }))
    return (true, db.setActiveTask agentId none)

/-- The transaction of `accept`. -/
def accept (env : Environment) (now : Time) (db : Db) (agentId : Id) (taskId leaseToken : JsString) :
    Except Failure Db := do
  let agent ← require (db.lockAgent agentId) (.api .taskLeaseInvalid)
  ensure (agent.enabled ∧ agent.status = .online) (.api .taskLeaseInvalid)
  let task ← require (db.findTask taskId) (.api .taskLeaseInvalid)
  -- here the slot is compared with the id as the message spells it
  ensure (task.agentId = agentId ∧ agent.activeTaskId = some taskId) (.api .taskLeaseInvalid)
  ensure (leaseLive now task) (.api .taskLeaseInvalid)
  ensure (leaseOpens env task leaseToken) (.api .taskLeaseInvalid)
  if task.status = .preparing then
    return db
  else
    ensure (task.status = .dispatched) (.api .taskInvalidState)
    transition now db taskId .preparing .agent (some (ofString "Agent accepted task assignment"))
      ⟨fun task => { task with startedAt := some now }, some none⟩

structure TaskStatusMessage where
  taskId : JsString
  leaseToken : JsString
  status : BuildTaskStatus
  sourceCommit : Option JsString
  deriving DecidableEq

/-- The checks of `reportTaskStatus` in front of its transaction. -/
def validStatusMessage (message : TaskStatusMessage) : Bool :=
  matchesUuid message.taskId && message.status.isAgentExecutionPhase &&
    match message.sourceCommit with
    | some sourceCommit => matchesSourceCommit sourceCommit
    | none => decide (message.status ≠ .preparing)

/-- The status from which a report leads to its status. -/
def expectedStatus : BuildTaskStatus → Option BuildTaskStatus
  | .running => some .preparing
  | .uploading => some .running
  | _ => none

def writeSourceCommit (sourceCommit : Option JsString) (task : BuildTask) : BuildTask :=
  { task with sourceCommit := task.sourceCommit.or sourceCommit }

/-- The transaction of `reportTaskStatus`. -/
def reportTaskStatus (env : Environment) (now : Time) (db : Db) (agentId : Id)
    (message : TaskStatusMessage) : Except Failure Db := do
  let sourceCommit := message.sourceCommit.map asciiLower
  let agent ← require (db.lockAgent agentId) (.api .taskLeaseInvalid)
  ensure (agent.enabled ∧ agent.status = .online) (.api .taskLeaseInvalid)
  let task ← require (db.findTask message.taskId) (.api .taskLeaseInvalid)
  let taskId := asciiLower message.taskId
  ensure (task.agentId = agentId ∧ agent.activeTaskId = some taskId) (.api .taskLeaseInvalid)
  ensure ((truthy task.leaseHash).isSome ∧ leaseLive now task) (.api .taskLeaseInvalid)
  ensure (leaseOpens env task message.leaseToken) (.api .taskLeaseInvalid)
  ensure (sourceCommit = none ∨ task.sourceCommit = none ∨ task.sourceCommit = sourceCommit)
    (.api .taskInvalidState)
  if task.status = message.status then
    return if sourceCommit.isSome ∧ task.sourceCommit = none then
      db.updateTask now taskId (writeSourceCommit sourceCommit)
    else db
  else
    ensure (expectedStatus message.status = some task.status) (.api .taskInvalidState)
    transition now db taskId message.status .agent
      (some (ofString "Agent reported task " ++ statusText message.status))
      ⟨writeSourceCommit sourceCommit, some none⟩

structure TaskFailedMessage where
  taskId : JsString
  leaseToken : JsString
  reason : JsString
  exitCode : Option Int
  deriving DecidableEq

/-- The check of the exit code in front of the transaction of `reportPreparationFailure`. -/
def validExitCode (exitCode : Option Int) : Bool :=
  match exitCode with
  | some code => decide (-2147483648 ≤ code ∧ code ≤ 2147483647)
  | none => true

/-- The transaction of `reportPreparationFailure`: whether the task was failed by this report. -/
def reportPreparationFailure (env : Environment) (now : Time) (db : Db) (agentId : Id)
    (message : TaskFailedMessage) : Except Failure (Bool × Db) := do
  let reason := safeAgentReason message.reason
  let agent ← require (db.lockAgent agentId) (.api .taskLeaseInvalid)
  ensure (agent.enabled ∧ agent.status = .online) (.api .taskLeaseInvalid)
  let task ← require (db.findTask message.taskId) (.api .taskLeaseInvalid)
  let taskId := asciiLower message.taskId
  ensure (task.agentId = agentId) (.api .taskLeaseInvalid)
  if task.status = .failed then
    ensure (logLeaseOpens env now task message.leaseToken) (.api .taskLeaseInvalid)
    return (false, db)
  else
    ensure (agent.activeTaskId = some taskId) (.api .taskLeaseInvalid)
    ensure ((truthy task.leaseHash).isSome ∧ leaseLive now task) (.api .taskLeaseInvalid)
    ensure (leaseOpens env task message.leaseToken) (.api .taskLeaseInvalid)
    ensure (task.status = .preparing ∨ task.status = .running ∨ task.status = .uploading ∨
      task.status = .canceling) (.api .taskInvalidState)
    let db ← transition now db taskId .failed .agent (some reason)
      ⟨fun task => { withoutLease task with
        finishedAt := some now
        exitCode := message.exitCode }, some (some reason)⟩
    return (true, db.setActiveTask agentId none)

structure TaskCompletedMessage where
  taskId : JsString
  leaseToken : JsString
  exitCode : Int
  finishedAt : Time
  sourceCommit : Option JsString
  artifactCount : Nat
  artifactBytes : Nat
  deriving DecidableEq

/-- The transaction of `failRejectedCompletion`: whether the task was failed. -/
def failRejectedCompletion (env : Environment) (now : Time) (db : Db) (agentId : Id)
    (message : TaskCompletedMessage) : Except Failure (Bool × Db) :=
  match db.lockAgent agentId, db.findTask message.taskId with
  | some agent, some task =>
      let taskId := asciiLower message.taskId
      if task.agentId = agentId ∧ task.status = .uploading ∧ agent.activeTaskId = some taskId ∧
          leaseLive now task ∧ leaseOpens env task message.leaseToken then do
        let db ← transition now db taskId .failed .system
          (some (ofString "Server rejected task completion after validating the active lease"))
          (.of (fun task => { withoutLease task with finishedAt := some now }))
        return (true, db.setActiveTask agentId none)
      else .ok (false, db)
  | _, _ => .ok (false, db)

/-! The sweeps. Each function is the transaction for one candidate. -/

/-- The status that the task went back to. -/
def reclaimDispatch (registry : Registry) (now : Time) (db : Db) (agentId taskId : Id) :
    Except Failure (Option BuildTaskStatus × Db) :=
  let cutoff := now - dispatchConfirmationTimeoutMs
  let reason := ofString "Agent did not confirm task assignment before timeout"
  match db.lockAgent agentId, db.tasks.row taskId with
  | some agent, some task =>
      if agent.activeTaskId ≠ some taskId ∨ task.status ≠ .dispatched ∨ cutoff ≤ task.updatedAt then
        .ok (none, db)
      else if agent.enabled ∧ agent.status = .online ∧ registry.isReady agentId then do
        let db ← transition now db taskId .queued .system (some reason) (.of withoutLease)
        return (some .queued, db.setActiveTask agentId none)
      else do
        let db ← moveDispatchedToWaiting now db taskId reason
        return (some .waitingAgent, db.setActiveTask agentId none)
  | _, _ => .ok (none, db)

/-- Whether the cancellation was given up. -/
def reclaimCancellation (now : Time) (db : Db) (agentId taskId : Id) :
    Except Failure (Bool × Db) :=
  let cutoff := now - cancellationConfirmationTimeoutMs
  match db.lockAgent agentId, db.tasks.row taskId with
  | some agent, some task =>
      if task.status = .canceling ∧
          task.cancelRequestedAt.any (fun requested => decide (requested < cutoff)) then do
        let db ← transition now db taskId .failed .system
          (some (ofString "Agent did not confirm task cancellation before timeout"))
          (.of (fun task => { withoutLease task with finishedAt := some now }))
        return (true,
          if agent.activeTaskId = some taskId then
            db.setAgent agentId (fun agent => { agent with activeTaskId := none, status := .offline })
          else db)
      else .ok (false, db)
  | _, _ => .ok (false, db)

/-- Whether the recovery was given up. -/
def reclaimRecovery (now : Time) (db : Db) (agentId taskId : Id) : Except Failure (Bool × Db) :=
  match db.lockAgent agentId, db.tasks.row taskId with
  | some agent, some task =>
      if task.status = .agentLost ∧
          task.recoveryDeadlineAt.any (fun deadline => decide (deadline ≤ now)) then do
        let db ← transition now db taskId .failed .system
          (some (ofString "Agent did not reconnect before the task recovery window expired"))
          (.of (fun task => { withoutLease task with
            recoveryStatus := none
            agentLostAt := none
            recoveryDeadlineAt := none
            finishedAt := some now }))
        return (true,
          if agent.activeTaskId = some taskId then db.setActiveTask agentId none else db)
      else .ok (false, db)
  | _, _ => .ok (false, db)

/-! `claimInTransaction` -/

/-- A lease as `TaskLeaseService.generate` makes it from a fresh token. -/
def leaseExpiry (now : Time) (timeoutSeconds : Int) : Time :=
  now + (max 300 timeoutSeconds + 60) * 1000

/-- Why a task cannot be dispatched. -/
def failureReason (env : Environment) (agent : Agent) (project : Project) (template : BuildTemplate)
    (task : BuildTask) : Option JsString :=
  if project.deletedAt ≠ none then some (ofString "Project is no longer active")
  else if agent.enabled = false then some (ofString "Agent is disabled")
  else if template.agentId ≠ task.agentId then
    some (ofString "Build template Agent binding changed")
  else if template.enabled = false then some (ofString "Build template is disabled")
  else
    match validateFormSchema env.runtime template.formSchema with
    | .error _ => some (ofString "Build template schema is invalid")
    | .ok schema =>
        match validateFormConfigValues env.runtime schema task.config with
        | .error _ => some (ofString "Task configuration is no longer compatible")
        | .ok _ => none

/-- The fields that may be sent for a template. -/
def templateSensitiveKeys (env : Environment) (template : BuildTemplate) : List JsString :=
  match validateFormSchema env.runtime template.formSchema with
  | .ok schema => listSensitiveFormFieldNames schema
  | .error _ => []

def assignmentFor (env : Environment) (now : Time) (token : JsString) (taskId : Id)
    (task : BuildTask) (template : BuildTemplate) : TaskAssignment where
  taskId := taskId
  leaseToken := token
  leaseExpiresAt := leaseExpiry now template.timeoutSeconds
  agentId := task.agentId
  projectId := task.projectId
  buildTemplateId := task.buildTemplateId
  gitUrl := template.gitUrl
  branch := task.branch
  command := template.command
  artifactDir := template.artifactDir
  timeoutSeconds := template.timeoutSeconds
  config := task.config
  inputFiles := task.inputFiles
  sensitiveConfigKeys := templateSensitiveKeys env template
  interactiveInputEnabled := task.interactiveInputEnabled

/-- The fields that a dispatch writes. -/
def dispatchedTask (env : Environment) (now : Time) (token : JsString) (template : BuildTemplate)
    (task : BuildTask) : BuildTask :=
  let expires := leaseExpiry now template.timeoutSeconds
  { task with
    leaseHash := some (env.hashToken token)
    leaseExpiresAt := some expires
    lastLogSequence := 0
    logSize := 0
    logLeaseHash := some (env.hashToken token)
    logLeaseExpiresAt := some (expires + logLeaseWindowMs)
    logSensitiveKeys := .array ((templateSensitiveKeys env template).map Json.string)
    assignedArtifactDir := some template.artifactDir }

structure ClaimOutcome where
  result : Option TaskAssignment
  shouldNotify : Bool
  terminalTaskIds : List Id

/-- `findFirst` of the queued tasks. -/
def firstQueued (db : Db) (agentId : Id) (requestedTaskId : Option Id) : Option (Id × BuildTask) :=
  ((tasksInStatus db agentId .queued).filter (fun entry =>
    match requestedTaskId with
    | some id => decide (entry.1 = id)
    | none => true)).head?

/-- The loop over the queued tasks; the first argument counts the attempts that are left. -/
def claimLoop (env : Environment) (registry : Registry) (now : Time) (tokens : Nat → JsString)
    (agentId : Id) (agent : Agent) (requestedTaskId : Option Id) :
    Nat → List Id → Db → Except Failure (ClaimOutcome × Db)
  | 0, terminalTaskIds, db => .ok (⟨none, true, terminalTaskIds⟩, db)
  | attempts + 1, terminalTaskIds, db =>
      match firstQueued db agentId requestedTaskId with
      | none => .ok (⟨none, false, terminalTaskIds⟩, db)
      | some (taskId, task) => do
          let project ← require (db.projects.row task.projectId) .database
          let template ← require (db.templates.row task.buildTemplateId) .database
          match failureReason env agent project template task with
          | some reason =>
              let db ← failUndispatchable now db taskId reason
              claimLoop env registry now tokens agentId agent requestedTaskId attempts
                (terminalTaskIds ++ [taskId]) db
          | none =>
              if task.interactiveInputEnabled &&
                  !registry.hasCapability agentId taskInputCapability then
                let db ← transition now db taskId .waitingAgent .system
                  (some (ofString
                    "Agent does not support interactive task input (task-input-v1)")) (.of id)
                return (⟨none, false, terminalTaskIds⟩, db)
              else if env.validAssignment (assignmentFor env now (tokens attempts) taskId task
                  template) = false then
                let db ← failUndispatchable now db taskId
                  (ofString "Task assignment failed protocol validation")
                claimLoop env registry now tokens agentId agent requestedTaskId attempts
                  (terminalTaskIds ++ [taskId]) db
              else
                let db ← transition now db taskId .dispatched .server
                  (some (ofString "Task assigned to Agent"))
                  ⟨dispatchedTask env now (tokens attempts) template, some none⟩
                return (⟨some (assignmentFor env now (tokens attempts) taskId task template), false,
                  terminalTaskIds⟩, db.setActiveTask agentId (some taskId))

/-- The transaction of a claim; `tokens` are the fresh lease tokens of its attempts. -/
def claimInTransaction (env : Environment) (registry : Registry) (now : Time)
    (tokens : Nat → JsString) (db : Db) (agentId : Id) (requestedTaskId : Option JsString) :
    Except Failure (ClaimOutcome × Db) := do
  let agent ← require (db.lockAgent agentId) (.api .resourceNotFound)
  ensure agent.enabled (.api .agentDisabled)
  ensure (agent.status = .online ∧ registry.isReady agentId) (.api .agentOffline)
  if agent.activeTaskId ≠ none then
    return (⟨none, false, []⟩, db)
  else
    claimLoop env registry now tokens agentId agent (requestedTaskId.map asciiLower)
      maxClaimValidationSkips [] db

end AnvilRun.TaskQueue
