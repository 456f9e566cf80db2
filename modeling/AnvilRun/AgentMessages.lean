import AnvilRun.ClaimCache
import AnvilRun.ConnectionEndings
import AnvilRun.Effects
import AnvilRun.SensitiveValues
import AnvilRun.TaskLogStorage

namespace AnvilRun.AgentMessages

open AnvilRun.AgentGateway
open AnvilRun.AgentRegistry
open AnvilRun.ArtifactsService
open AnvilRun.ClaimCache
open AnvilRun.Effect
open AnvilRun.Fallible
open AnvilRun.ServerRedactor
open AnvilRun.TaskDatabase
open AnvilRun.TaskLogStorage
open AnvilRun.TaskQueue
open AnvilRun.ValidationPrimitives

/-! The messages -/

structure AgentHelloMessage where
  agentId : Option JsString
  agentVersion : JsString
  hostname : JsString
  os : JsString
  arch : JsString
  currentTask : Option AgentCurrentTask
  capabilities : Option (List JsString)

structure TaskLogMessage where
  taskId : JsString
  leaseToken : JsString
  sequence : Nat
  stream : LogStream
  chunk : JsString
  emittedAt : JsString

structure TaskInputAckMessage where
  taskId : JsString
  leaseToken : JsString
  inputId : JsString

/-- What an agent sends. The last case stands for all that does not pass as one of its messages. -/
inductive AgentMessage where
  | hello (message : AgentHelloMessage)
  | heartbeat (agentId : JsString) (currentTaskId : Option JsString)
  | claim (id : JsString) (taskId : Option JsString)
  | accepted (taskId leaseToken : JsString)
  | status (message : TaskStatusMessage)
  | log (message : TaskLogMessage)
  | artifactManifest (message : TaskArtifactManifestMessage)
  | completed (message : TaskCompletedMessage)
  | failed (message : TaskFailedMessage)
  | canceled (message : TaskCanceledMessage)
  | inputAck (message : TaskInputAckMessage)
  | invalid

/-- What the server sends in return. -/
inductive ServerMessage where
  | registered (agentId : Id)
  | recovery (decision : AgentRecoveryDecision)
  | available (agentId : Id) (queuedTaskCount : Nat)
  | assignment (assignment : TaskAssignment)
  | logAck (taskId : JsString) (acknowledgedSequence persistedOffset : Nat)
  | manifestAck (result : ManifestResult)
  | resultAck (taskId : JsString) (status : BuildTaskStatus)

/-! The server -/

/-- A value of `pendingTaskInputs`. -/
structure PendingTaskInput where
  taskId : Id
  agentId : Id
  leaseToken : JsString
  deriving DecidableEq

/-- The socket that the messages come from: whether it has an entry in `states` and a hello behind
it, whether it is open, and whether it is the one in the registry. -/
structure Socket where
  known : Bool
  helloReceived : Bool
  isOpen : Bool
  registered : Bool
  deriving DecidableEq

/-- The server as the handlers of the messages of one agent see it, with what they send on their
socket and through the registry. -/
structure Server where
  db : Db
  registry : Registry
  socket : Socket
  completedClaims : List (ClaimKey × StoredClaim)
  activeLeaseTokens : Id → Option JsString
  pendingTaskInputs : JsString → Option PendingTaskInput
  logs : JsString → TaskLog
  redactors : Id → Option ServerLogRedactor
  sent : List ServerMessage
  notified : List ServerMessage

/-- What a message meets: the clock, the fresh lease tokens, and the file system. -/
structure Occasion where
  now : Time
  tokens : Nat → JsString
  host : ArtifactHost
  write : WriteOutcome

namespace Server

def send (message : ServerMessage) (s : Server) : Server :=
  if s.socket.isOpen then { s with sent := s.sent ++ [message] } else s

/-- `send` of the registry. -/
def notify (agentId : Id) (message : ServerMessage) (s : Server) : Server :=
  if s.registry.isReady agentId then { s with notified := s.notified ++ [message] } else s

def safeClose (agentId : Id) (s : Server) : Server :=
  { s with
    socket := { s.socket with isOpen := false }
    registry :=
      if s.socket.registered then
        Function.update s.registry agentId
          ((s.registry agentId).map (fun connection => { connection with isOpen := false }))
      else s.registry }

def unregister (agentId : Id) (s : Server) : Server :=
  { s with
    socket := { s.socket with known := false, registered := false }
    registry :=
      if s.socket.registered then Function.update s.registry agentId none else s.registry }

def markReady (agentId : Id) (capabilities : List JsString) (s : Server) : Server :=
  { s with
    socket := { s.socket with helloReceived := true }
    registry :=
      if s.socket.registered then
        Function.update s.registry agentId ((s.registry agentId).map (fun connection =>
          { connection with ready := true, capabilities := distinct capabilities }))
      else s.registry }

def setDb (db : Db) (s : Server) : Server :=
  { s with db := db }

def setLease (taskId : Id) (leaseToken : JsString) (s : Server) : Server :=
  { s with activeLeaseTokens := Function.update s.activeLeaseTokens taskId (some leaseToken) }

def forgetLease (taskId : JsString) (s : Server) : Server :=
  { s with activeLeaseTokens := Function.update s.activeLeaseTokens taskId none }

def dropInputs (drop : PendingTaskInput → Bool) (s : Server) : Server :=
  { s with
    pendingTaskInputs := fun inputId =>
      (s.pendingTaskInputs inputId).filter (fun pending => !drop pending) }

def finishTaskRuntime (taskId : JsString) (s : Server) : Server :=
  (s.forgetLease taskId).dropInputs (fun pending => decide (pending.taskId = taskId))

def setRedactor (taskId : Id) (redactor : ServerLogRedactor) (s : Server) : Server :=
  { s with redactors := Function.update s.redactors taskId (some redactor) }

def finishTasks (taskIds : List Id) (s : Server) : Server :=
  taskIds.foldl (fun s taskId => s.finishTaskRuntime taskId) s

def restoreLease (lease : Option (Id × JsString)) (s : Server) : Server :=
  match lease with
  | some (taskId, leaseToken) => s.setLease taskId leaseToken
  | none => s

/-- The result of a claim is stored for its retransmissions. Here no dispatch needs a number. -/
def storeClaim (now : Time) (key : ClaimKey) (result : Option TaskAssignment) (s : Server) : Server :=
  { s with
    completedClaims := trimClaimResults now
      (setStored (s.completedClaims.filter (fun entry => decide (entry.1 ≠ key))) key
        ⟨result.map (fun assignment => ⟨assignment, 0⟩), now + claimResultTtlMs⟩) }

def rejectPendingTaskInputs (agentId : Id) (s : Server) : Server :=
  s.dropInputs (fun pending => decide (pending.agentId = agentId))

def handleTaskInputAck (agentId : Id) (message : TaskInputAckMessage) (s : Server) : Server :=
  match s.pendingTaskInputs message.inputId with
  | none => s
  | some pending =>
      if pending.agentId ≠ agentId ∨ pending.taskId ≠ message.taskId then s
      else
        match truthy (s.activeLeaseTokens pending.taskId) with
        | none => s
        | some expected =>
            if expected ≠ pending.leaseToken ∨ expected ≠ message.leaseToken then s
            else { s with
              pendingTaskInputs := Function.update s.pendingTaskInputs message.inputId none }

end Server

/-- A handler that may throw. -/
abbrev Handler := Effect Failure Server

/-- A transaction of the database. -/
def inTransaction {α : Type} (f : Server → Db → Except Failure (α × Db)) : Handler α :=
  transaction Server.db Server.setDb f

/-- An update of the database that cannot fail. -/
def updateDb (f : Db → Db) : Handler Unit :=
  modify (fun s => s.setDb (f s.db))

/-! The queue -/

def notifyAvailable (agentId : Id) : Handler Unit :=
  modify (fun s =>
    let queuedTaskCount := (tasksInStatus s.db agentId .queued).length
    if queuedTaskCount = 0 then s else s.notify agentId (.available agentId queuedTaskCount))

def onAgentReady (now : Time) (agentId : Id) : Handler Unit := do
  let ready ← inTransaction (fun s db => TaskQueue.onAgentReady s.registry now db agentId)
  onlyIf ready (notifyAvailable agentId)

/-- The body of the loop of `onAgentDisconnected`, which goes on after a failure. -/
def disconnectOne (now : Time) (agentId taskId : Id) : Handler Unit :=
  recover (do
    let preservedForRecovery ← inTransaction (fun _ db => disconnectTask now db agentId taskId)
    onlyIf (preservedForRecovery = false) (modify (Server.forgetLease taskId)))
    (fun _ => pure ())

def disconnectTasks (now : Time) (agentId : Id) : List Id → Handler Unit
  | [] => pure ()
  | taskId :: taskIds => do
      disconnectOne now agentId taskId
      disconnectTasks now agentId taskIds

def onAgentDisconnected (now : Time) (agentId : Id) : Handler Unit := do
  modify (Server.rejectPendingTaskInputs agentId)
  let s ← get
  disconnectTasks now agentId (ConnectionEndings.disconnectedTasks s.db agentId)

def claim (env : Environment) (occasion : Occasion) (agentId : Id) (messageId : JsString)
    (requestedTaskId : Option JsString) : Handler (Option TaskAssignment) := do
  let s ← get
  let stored := (s.completedClaims.find? (fun entry => decide (entry.1 = (agentId, messageId)))).map
    Prod.snd
  match stored.filter (fun stored => decide (occasion.now < stored.expiresAt)) with
  | some stored =>
      return (stored.result.map Dispatch.assignment).filter
        (fun assignment => assignmentIsActive s.db agentId assignment.taskId)
  | none => do
      check (s.registry.isReady agentId) (.api .agentOffline)
      let outcome ← inTransaction (fun s db =>
        if requestedTaskId.any (fun taskId => !matchesUuid taskId) then
          .ok (⟨none, false, []⟩, db)
        else
          claimInTransaction env s.registry occasion.now occasion.tokens db agentId requestedTaskId)
      modify (Server.finishTasks outcome.terminalTaskIds)
      modify (Server.restoreLease (outcome.result.map (fun assignment =>
        (assignment.taskId, assignment.leaseToken))))
      modify (Server.storeClaim occasion.now (agentId, messageId) outcome.result)
      onlyIf outcome.shouldNotify (notifyAvailable agentId)
      return outcome.result

def accept (env : Environment) (now : Time) (agentId : Id) (taskId leaseToken : JsString) :
    Handler Unit := do
  let s ← get
  check (matchesUuid taskId ∧ s.registry.isReady agentId) (.api .taskLeaseInvalid)
  inTransaction (fun _ db =>
    (fun db => ((), db)) <$> TaskQueue.accept env now db agentId taskId leaseToken)

def reportTaskStatus (env : Environment) (now : Time) (agentId : Id) (message : TaskStatusMessage) :
    Handler Unit := do
  let s ← get
  check (validStatusMessage message) (.api .validationFailed)
  check (s.registry.isReady agentId) (.api .taskLeaseInvalid)
  inTransaction (fun _ db =>
    (fun db => ((), db)) <$> TaskQueue.reportTaskStatus env now db agentId message)

def reportPreparationFailure (env : Environment) (now : Time) (agentId : Id)
    (message : TaskFailedMessage) : Handler Unit := do
  let s ← get
  check (matchesUuid message.taskId) (.api .taskLeaseInvalid)
  check (validExitCode message.exitCode) (.api .validationFailed)
  check (s.registry.isReady agentId) (.api .taskLeaseInvalid)
  let shouldNotify ← inTransaction (fun _ db =>
    TaskQueue.reportPreparationFailure env now db agentId message)
  modify (Server.finishTaskRuntime message.taskId)
  onlyIf shouldNotify (onAgentReady now agentId)

def reportTaskCanceled (env : Environment) (now : Time) (agentId : Id)
    (message : TaskCanceledMessage) : Handler Unit := do
  let s ← get
  check (matchesUuid message.taskId ∧ s.registry.isReady agentId) (.api .taskLeaseInvalid)
  let shouldNotify ← inTransaction (fun _ db =>
    TaskQueue.reportTaskCanceled env now db agentId message)
  modify (Server.finishTaskRuntime message.taskId)
  onlyIf shouldNotify (onAgentReady now agentId)

def completeTask (env : Environment) (now : Time) (agentId : Id) (message : TaskCompletedMessage) :
    Handler Id := do
  check (validCompletion message) (.api .validationFailed)
  inTransaction (fun _ db => ArtifactsService.completeTask env now db agentId message)

def failRejectedCompletion (env : Environment) (now : Time) (agentId : Id)
    (message : TaskCompletedMessage) : Handler Unit :=
  if matchesUuid message.taskId = false then pure ()
  else do
    let shouldNotify ← inTransaction (fun _ db =>
      TaskQueue.failRejectedCompletion env now db agentId message)
    -- the token goes also when nothing was failed, whoever the task belongs to
    if shouldNotify then do
      modify (Server.finishTaskRuntime message.taskId)
      onAgentReady now agentId
    else modify (Server.forgetLease message.taskId)

/-! The logs -/

/-- The statuses in which the lease of a task has to be the one of its execution. -/
def activeLogStatuses : List BuildTaskStatus :=
  [.dispatched, .preparing, .running, .uploading, .agentLost]

def loggableTerminalStatuses : List BuildTaskStatus :=
  [.succeeded, .failed, .agentLost, .canceled]

/-- `assertLogLease`. -/
def logLeaseValid (env : Environment) (now : Time) (activeTaskId : Option Id) (taskId : Id)
    (task : BuildTask) (leaseToken : JsString) : Bool :=
  if activeLogStatuses.contains task.status then
    decide (activeTaskId = some taskId) && (truthy task.leaseHash).isSome && leaseLive now task &&
      leaseOpens env task leaseToken
  else loggableTerminalStatuses.contains task.status && logLeaseOpens env now task leaseToken

/-- An operation on the log of a task. An error of the storage is none of the API. -/
def onLog {α : Type} (taskId : JsString) (f : TaskLog → Except StorageError α × TaskLog) :
    Handler α :=
  fun s =>
    let result := f (s.logs taskId)
    (result.1.mapError (fun _ => .database),
      { s with logs := Function.update s.logs taskId result.2 })

/-- `getState` of the storage, which leaves the log alone when it fails. -/
def logState (expected : Option TaskLogFileState) (log : TaskLog) :
    Except StorageError TaskLogFileState × TaskLog :=
  match getState log expected with
  | .ok (state, log) => (.ok state, log)
  | .error e => (.error e, log)

/-- `getState` for its effect on the log alone. -/
def repairLog (taskId : Id) : Handler Unit := do
  let _ ← onLog taskId (logState none)
  pure ()

def setLogCursor (now : Time) (taskId : Id) (state : TaskLogFileState) (db : Db) : Db :=
  db.updateTask now taskId (fun task => { task with
    lastLogSequence := state.lastSequence
    logSize := state.size })

def appendFromAgent (env : Environment) (occasion : Occasion) (agentId : Id)
    (message : TaskLogMessage) : Handler (JsString × TaskLogFileState) := do
  check (matchesUuid message.taskId ∧ message.chunk.utf8Length ≤ maxTaskLogChunkBytes)
    (.api .validationFailed)
  let s ← get
  let taskId := asciiLower message.taskId
  match s.db.findTask message.taskId with
  | none => fail (.api .taskLeaseInvalid)
  | some task => do
      check (task.agentId = agentId ∧ logLeaseValid env occasion.now
        ((s.db.agents.row agentId).bind Agent.activeTaskId) taskId task message.leaseToken)
        (.api .taskLeaseInvalid)
      check (task.lastLogSequence ≤ JsNumber.maxSafeInteger ∧
        task.logSize ≤ JsNumber.maxSafeInteger) (.api .resourceNotFound)
      let dbState := TaskLogFileState.mk task.logSize task.lastLogSequence
      -- the file is found by the id as the message spells it, the redactor by that of the row
      let fileState ← onLog message.taskId (logState (some dbState))
      onlyIf (fileState ≠ dbState) (updateDb (setLogCursor occasion.now taskId fileState))
      if message.sequence ≠ fileState.lastSequence + 1 then return (message.taskId, fileState)
      else do
        let formSchema := ((s.db.templates.row task.buildTemplateId).map
          BuildTemplate.formSchema).getD .null
        let redactor := (s.redactors taskId).getD (SensitiveValues.redactorFor env.runtime
          ⟨formSchema, task.logSensitiveKeys, task.config⟩)
        let masked := redactor.redact message.stream message.chunk
        modify (Server.setRedactor taskId masked.2)
        let nextOffset ← onLog message.taskId (fun log => append occasion.write log
          ⟨message.sequence, message.stream, masked.1, message.emittedAt⟩)
        updateDb (setLogCursor occasion.now taskId ⟨nextOffset, message.sequence⟩)
        return (message.taskId, ⟨nextOffset, message.sequence⟩)

def registerManifest (env : Environment) (occasion : Occasion) (agentId : Id)
    (message : TaskArtifactManifestMessage) : Handler ManifestResult := do
  check (matchesUuid message.taskId) (.api .taskLeaseInvalid)
  match validateManifest occasion.host message with
  | .error failure => fail failure
  | .ok files =>
      inTransaction (fun _ db => ArtifactsService.registerManifest env occasion.host occasion.now db
        agentId message files)

/-! The gateway -/

def rejectConnection (now : Time) (agentId : Id) : Handler Unit := do
  let s ← get
  modify (Server.unregister agentId)
  onlyIf s.socket.registered (do
    updateDb (fun db => markOffline db agentId)
    onAgentDisconnected now agentId)
  modify (Server.safeClose agentId)

def plainTextWithin (value : JsString) (maximum : Nat) : Bool :=
  decide (0 < value.length ∧ value.length ≤ maximum) && !containsControlCharacters value

/-- The task whose log `reconcileAgentHello` looks into. -/
def helloLog (env : Environment) (now : Time) (db : Db) (agentId : Id)
    (currentTask : Option AgentCurrentTask) (capabilities : List JsString) : Option Id :=
  match db.lockAgent agentId, currentTask with
  | some agent, some current =>
      match db.findTask current.taskId with
      | some task =>
          if matchesUuid current.taskId ∧ task.agentId = agentId ∧
              agent.activeTaskId = some (asciiLower current.taskId) ∧ leaseUsable now task ∧
              ¬ (task.interactiveInputEnabled && !capabilities.contains taskInputCapability) ∧
              env.verify current.leaseToken (task.leaseHash.getD []) then
            some (asciiLower current.taskId)
          else none
      | none => none
  | _, _ => none

/-- The state of a log as `reconcileAgentHello` takes it. -/
def durableLog (s : Server) (taskId : Id) : Except Failure LogFileState :=
  match getState (s.logs taskId) none with
  | .ok (state, _) => .ok ⟨state.lastSequence, state.size⟩
  | .error _ => .error .database

def reconcileAgentHello (env : Environment) (now : Time) (agentId : Id)
    (currentTask : Option AgentCurrentTask) (capabilities : List JsString) :
    Handler (Option AgentRecoveryDecision) := do
  let s ← get
  ifSome (helloLog env now s.db agentId currentTask capabilities) (fun taskId =>
    repairLog taskId)
  let outcome ← inTransaction (fun _ db =>
    TaskQueue.reconcileAgentHello env now (durableLog s) db agentId currentTask capabilities)
  modify (Server.restoreLease outcome.leaseToRestore)
  modify (Server.finishTasks outcome.terminalTaskIds)
  return outcome.decision

def handleHello (env : Environment) (now : Time) (agentId : Id) (message : AgentHelloMessage) :
    Handler Unit := do
  let s ← get
  if message.agentId.any (fun id => id ≠ agentId) then rejectConnection now agentId
  else if ¬ (plainTextWithin message.agentVersion 64 ∧ plainTextWithin message.hostname 255 ∧
      plainTextWithin message.os 64 ∧ plainTextWithin message.arch 64) then
    modify (Server.safeClose agentId)
  else if (s.db.agents.row agentId).any Agent.enabled = false then rejectConnection now agentId
  else do
    let capabilities := message.capabilities.getD []
    let decision ← reconcileAgentHello env now agentId message.currentTask capabilities
    updateDb (fun db => updateEnabledAgent db agentId (recordHello decision))
    modify (Server.markReady agentId capabilities)
    modify (Server.send (.registered agentId))
    ifSome decision (fun decision => modify (Server.send (.recovery decision)))
    onAgentReady now agentId

def handleHeartbeat (now : Time) (agentId : Id) (messageAgentId : JsString)
    (currentTaskId : Option JsString) : Handler Unit := do
  let s ← get
  if s.socket.helloReceived = false ∨ messageAgentId ≠ agentId then rejectConnection now agentId
  else if (s.db.agents.row agentId).any Agent.enabled = false then rejectConnection now agentId
  else updateDb (fun db =>
    updateEnabledAgent db agentId (recordHeartbeat (validHeartbeatTask db agentId currentTaskId)))

/-- Go on after an `ApiException`; all else is thrown again. -/
def onApiException {α : Type} (x : Handler α) (handler : Handler α) : Handler α :=
  recover x (fun failure =>
    match failure with
    | .api _ => handler
    | .database => fail .database)

/-- The branches of `handleMessage` that require a hello. -/
def handleTaskMessage (env : Environment) (occasion : Occasion) (agentId : Id) :
    AgentMessage → Handler Unit
  | .claim id taskId =>
      onApiException (do
        let assignment ← claim env occasion agentId id taskId
        ifSome assignment (fun assignment => modify (Server.send (.assignment assignment))))
        (pure ())
  | .accepted taskId leaseToken =>
      onApiException (accept env occasion.now agentId taskId leaseToken) (pure ())
  | .status message => onApiException (reportTaskStatus env occasion.now agentId message) (pure ())
  | .log message =>
      onApiException (do
        let ack ← appendFromAgent env occasion agentId message
        modify (Server.send (.logAck ack.1 ack.2.lastSequence ack.2.size))) (pure ())
  | .artifactManifest message =>
      onApiException (do
        let result ← registerManifest env occasion agentId message
        modify (Server.send (.manifestAck result)))
        (modify (Server.send (.manifestAck ⟨message.taskId, false, 0, 0⟩)))
  | .completed message =>
      onApiException (do
        let taskId ← completeTask env occasion.now agentId message
        modify (Server.finishTaskRuntime taskId)
        onAgentReady occasion.now agentId
        modify (Server.send (.resultAck taskId .succeeded))
        onAgentReady occasion.now agentId) (do
        failRejectedCompletion env occasion.now agentId message
        modify (Server.safeClose agentId))
  | .failed message =>
      onApiException (do
        reportPreparationFailure env occasion.now agentId message
        modify (Server.send (.resultAck message.taskId .failed))
        onAgentReady occasion.now agentId) (pure ())
  | .canceled message =>
      onApiException (do
        reportTaskCanceled env occasion.now agentId message
        modify (Server.send (.resultAck message.taskId .canceled))
        onAgentReady occasion.now agentId) (pure ())
  | .inputAck message => modify (Server.handleTaskInputAck agentId message)
  | _ => modify (Server.safeClose agentId)

/-- `handleMessage` for a socket of the agent. -/
def handleMessage (env : Environment) (occasion : Occasion) (agentId : Id) (message : AgentMessage) :
    Handler Unit := do
  let s ← get
  if s.socket.known = false then pure ()
  else
    recover (
      match message with
      | .hello message => handleHello env occasion.now agentId message
      | .heartbeat messageAgentId currentTaskId =>
          handleHeartbeat occasion.now agentId messageAgentId currentTaskId
      | .invalid => modify (Server.safeClose agentId)
      | message =>
          if s.socket.helloReceived = false then modify (Server.safeClose agentId)
          else handleTaskMessage env occasion agentId message)
      (fun _ => modify (Server.safeClose agentId))

/-- The messages of an agent one after the other. -/
def handleMessages (env : Environment) (agentId : Id) :
    List (Occasion × AgentMessage) → Server → Server
  | [], s => s
  | (occasion, message) :: messages, s =>
      handleMessages env agentId messages ((handleMessage env occasion agentId message).run s)

end AnvilRun.AgentMessages
