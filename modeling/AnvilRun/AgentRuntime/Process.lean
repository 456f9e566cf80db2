import AnvilRun.AgentRuntime
import AnvilRun.AssignmentChecks
import AnvilRun.LogBuffer.CrashRuns

namespace AnvilRun.AgentRuntime

open AnvilRun.AgentContracts
open AnvilRun.AgentRedactor (Text SensitiveLogRedactor)
open AnvilRun.ArtifactScan (ArtifactManifest sendArtifactManifest)
open AnvilRun.AssignmentChecks (AgentHost validateAssignment)
open AnvilRun.Effect (ifSome onlyIf)
open AnvilRun.Execution (ExecutionEvent ExecutionResult)
open AnvilRun.Interruptible

/-- What a process of the agent is started with. `encode` is `serde_json::to_string`. -/
structure Settings where
  host : Host
  checks : AgentHost
  encode : Value → Text
  agentId : Text
  logPath : LogBuffer.PathChecks
  logBufferMaxBytes : Nat

/-- What the outside answers besides. The source of the task is cleaned, its input files are
downloaded, its configuration is written and its command is started, or there is an error. -/
structure Surroundings extends Answers where
  now : Int
  socketError : String
  artifactCleaned : Bool
  downloadError : Option String
  configError : Option String
  startError : Option String

/-- How far the source of the active task is prepared. -/
structure SourceSteps where
  artifactCleaned : Bool
  inputFilesDownloaded : Bool
  configWritten : Bool

def SourceSteps.none : SourceSteps := ⟨false, false, false⟩

/-- The agent over all of its connections. The log buffer of the active task is in memory, and
`disks` has what the others left on the disk. The last three fields record what has happened: the
leases of all tasks that the agent has taken on, the lease whose command was started last, and the
results that were delivered. The receiver of the agent belongs to the command of `command`. -/
structure Process where
  agent : Agent
  source : SourceSteps
  connected : Bool
  disks : Text → LogBuffer.Disk
  leases : List Lease
  command : Option Lease
  delivered : List (Lease × ExecutionResult)

abbrev Routine (α : Type) : Type := Interruptible AgentError Process α

def Process.setAgent (agent : Agent) (p : Process) : Process :=
  { p with agent }

/-- A handler of the task. -/
def onAgent (action : Act) : Routine Unit :=
  zoom Process.agent Process.setAgent id action

def withTask (f : ActiveTask → Routine Unit) : Routine Unit := do
  let p ← get
  ifSome p.agent.active f

/-- The agent lets go of its task. -/
def Process.drop (p : Process) : Process :=
  { p with
    agent := { p.agent with active := none }
    disks :=
      match p.agent.active with
      | some task => Function.update p.disks task.assignment.taskId task.logs.host.disk
      | none => p.disks }

def logBufferErrorText : LogBufferError → String
  | .invalidPath => "invalid log buffer path"
  | .io => "log buffer I/O failed"
  | .invalidRecord => "log buffer record is invalid"
  | .invalidAcknowledgement => "log buffer acknowledgement is invalid"

def AgentError.toText (outside : Surroundings) : AgentError → String
  | .protocol message => "protocol error: " ++ message
  | .logBuffer error => logBufferErrorText error
  | .webSocket => "WebSocket connection failed: " ++ outside.socketError

/-! Assignments -/

mutual

def collectSensitiveRepresentations (encode : Value → Text) : Value → List Text
  | .string text => [text, encode (.string text)]
  | .array items => representationsOfItems encode items
  | .object members => representationsOfMembers encode members
  | .null => []
  | .bool value => [encode (.bool value)]
  | .number value => [encode (.number value)]

def representationsOfItems (encode : Value → Text) : List Value → List Text
  | [] => []
  | item :: items =>
      collectSensitiveRepresentations encode item ++ representationsOfItems encode items

def representationsOfMembers (encode : Value → Text) : List (Text × Value) → List Text
  | [] => []
  | (_, value) :: members =>
      collectSensitiveRepresentations encode value ++ representationsOfMembers encode members

end

/-- `SensitiveLogRedactor::new`. -/
def newRedactor (encode : Value → Text) (config : List (Text × Value))
    (sensitiveConfigKeys : List Text) : SensitiveLogRedactor :=
  .ofValues (sensitiveConfigKeys.flatMap fun key =>
    ((config.lookup key).map (collectSensitiveRepresentations encode)).getD [])

def newTask (settings : Settings) (assignment : TaskAssignmentPayload) (logs : LogBuffer.Host) :
    ActiveTask where
  assignment
  sourceCommit := none
  commandCompleted := false
  stdoutLogRedactor :=
    newRedactor settings.encode assignment.config assignment.sensitiveConfigKeys
  stderrLogRedactor :=
    newRedactor settings.encode assignment.config assignment.sensitiveConfigKeys
  logs := ⟨logs, 1, one_le_u64Max⟩
  workspace := false
  preparation := false
  execution := false
  executionCancel := false
  executionInput := false
  artifactManifest := none
  artifactUpload := false
  pendingResult := none

def Process.take (task : ActiveTask) (p : Process) : Process :=
  { p with
    agent := { p.agent with active := some task }
    source := .none
    leases := p.leases ++ [task.lease] }

/-- `LogBuffer::new` on the file of a task. -/
def openLogBuffer (settings : Settings) (taskId : Text) : Routine LogBuffer.Host :=
  zoom (fun p => ⟨LogBuffer.unopened, p.disks taskId⟩)
    (fun logs p => { p with disks := Function.update p.disks taskId logs.disk }) .logBuffer
    (do
      LogBuffer.new settings.host.format settings.logPath settings.logBufferMaxBytes
      get)

def handleAssignment (settings : Settings) (outside : Surroundings)
    (assignment : TaskAssignmentPayload) : Routine Unit :=
  match validateAssignment settings.checks outside.now settings.agentId assignment with
  | .error message => fail (.protocol message)
  | .ok () => do
      let p ← get
      onlyIf (p.agent.active.isNone = true) do
        let logs ← openLogBuffer settings assignment.taskId
        modify (Process.take (newTask settings assignment logs))
        -- `task.accepted`
        recover (inspect .webSocket) fun error => do
          modify Process.drop
          fail error
        onAgent (modifyTask fun task => { task with preparation := true })

/-! The start of the command -/

/-- `COMMAND_REPORT_RESERVE`, in nanoseconds. -/
def commandReportReserve : Int := 2000000000

/-- Why a command is not started. -/
def startFailure (settings : Settings) (outside : Surroundings) (task : ActiveTask) :
    Option String :=
  if task.workspace = false then some "task workspace was missing before command start"
  else
    match settings.checks.parseRfc3339 task.assignment.leaseExpiresAt with
    | none => some "task lease expired before command start"
    | some expiry =>
        if expiry < outside.now then some "task lease expired before command start"
        else if expiry - outside.now ≤ commandReportReserve then
          some "insufficient lease time for command and status reporting"
        else outside.startError

def Process.start (lease : Lease) (p : Process) : Process :=
  { p with
    command := some lease
    agent :=
      { p.agent with
        executionReceiver := true
        active := p.agent.active.map fun task =>
          { task with
            execution := true
            executionCancel := true
            executionInput := task.assignment.interactiveInputEnabled } } }

def startActiveCommand (settings : Settings) (outside : Surroundings) : Routine Unit := do
  let p ← get
  match p.agent.active with
  | none => fail (.protocol "active task disappeared before command start")
  | some task =>
      match startFailure settings outside task with
      | some message => fail (.protocol message)
      | none => do
          modify (Process.start task.lease)
          onAgent (send (.status task.lease .running task.sourceCommit))

def startOrFail (settings : Settings) (outside : Surroundings) : Routine Unit :=
  recover (startActiveCommand settings outside) fun error =>
    onAgent (failActiveTask (error.toText outside) none)

def modifySource (f : SourceSteps → SourceSteps) : Routine Unit :=
  modify fun p => { p with source := f p.source }

def artifactCleanFailedReason : String := "GIT_CLEAN_FAILED: previous artifact cleanup failed"

/-- From the cleaning of the source to the start of the command. Only the handler of a preparation
remembers that it has cleaned. -/
def prepareSource (settings : Settings) (outside : Surroundings) (remembers : Bool) :
    Routine Unit := do
  let p ← get
  if !p.source.artifactCleaned && !outside.artifactCleaned then
    onAgent (failActiveTask artifactCleanFailedReason none)
  else do
    modifySource fun source =>
      { source with artifactCleaned := source.artifactCleaned || remembers }
    match if p.source.inputFilesDownloaded then none else outside.downloadError with
    | some message => onAgent (failActiveTask message none)
    | none => do
        modifySource fun source => { source with inputFilesDownloaded := true }
        match outside.configError with
        | some message => onAgent (failActiveTask message none)
        | none => do
            modifySource fun source => { source with configWritten := true }
            startOrFail settings outside

structure PreparationFailure where
  code : String
  message : String
  workspace : Bool

structure PreparationResult where
  taskId : Text
  sourceCommit : Text

structure PreparationEvent where
  taskId : Text
  result : Except PreparationFailure PreparationResult

def leaseExpired (settings : Settings) (outside : Surroundings) (task : ActiveTask) : Bool :=
  ((settings.checks.parseRfc3339 task.assignment.leaseExpiresAt).map
    fun expiry => decide (expiry ≤ outside.now)).getD true

/-- The part of `handle_preparation_event` behind the check of the task. -/
def handlePrepared (settings : Settings) (outside : Surroundings) (task : ActiveTask) :
    Except PreparationFailure PreparationResult → Routine Unit
  | .ok result =>
      if result.taskId ≠ task.assignment.taskId then
        fail (.protocol "preparation result taskId did not match active task")
      else if leaseExpired settings outside task then
        onAgent (failActiveTask "COMMAND_TIMEOUT: task lease expired before command start" none)
      else do
        onAgent do
          modifyTask fun task =>
            { task with
              sourceCommit := some result.sourceCommit
              workspace := true }
          send (.status task.lease .preparing (some result.sourceCommit))
        prepareSource settings outside true
  | .error failure =>
      onAgent do
        modifyTask fun task => { task with workspace := task.workspace || failure.workspace }
        failActiveTask (failure.code ++ ": " ++ failure.message) none

def handlePreparationEvent (settings : Settings) (outside : Surroundings)
    (event : PreparationEvent) : Routine Unit :=
  withTask fun task =>
    onlyIf (task.assignment.taskId = event.taskId) do
      onAgent (modifyTask fun task => { task with preparation := false })
      handlePrepared settings outside task event.result

/-! Artifacts -/

/-- `send_artifact_manifest`. -/
def sendManifest (host : Host) (answers : Answers) : Act :=
  withActive fun task =>
    match task.artifactManifest with
    | none => fail (.protocol "artifact manifest was missing before send")
    | some manifest =>
        match sendArtifactManifest host.toText answers.stamp task.assignment manifest with
        | .tooLarge => failActiveTask artifactManifestTooLargeReason none
        | .sent message => send (.artifactManifest message)

def handleArtifactManifestAck (payload : TaskArtifactManifestAckPayload) : Act :=
  withActive fun task =>
    if task.assignment.taskId ≠ payload.taskId then
      fail (.protocol "artifact manifest ACK taskId did not match active task")
    else
      match task.artifactManifest with
      | none => fail (.protocol "received artifact manifest ACK before manifest was sent")
      | some manifest =>
          if payload.accepted = false ∨ payload.artifactCount ≠ manifest.files.length ∨
              payload.artifactBytes ≠ manifest.totalBytes then
            failActiveTask "ARTIFACT_UPLOAD_FAILED: Server rejected artifact manifest" none
          else modifyTask fun task => { task with artifactUpload := true }

inductive UploadError where
  | artifact (error : ArtifactScan.ArtifactError)
  | uploadFailed
  | uploadTimeout

def UploadError.failure : UploadError → String
  | .artifact error => safeArtifactFailure error
  | .uploadFailed => "ARTIFACT_UPLOAD_FAILED: artifact upload was not accepted"
  | .uploadTimeout => "ARTIFACT_UPLOAD_TIMEOUT: artifact upload timed out"

def completedPayload (task : ActiveTask) (manifest : ArtifactManifest) : TaskCompletedPayload where
  lease := task.lease
  exitCode := 0
  artifactCount := manifest.files.length
  artifactBytes := manifest.totalBytes
  sourceCommit := task.sourceCommit

def handleArtifactUploadResult (result : Except UploadError Unit) : Act :=
  withActive fun task => do
    modifyTask fun task => { task with artifactUpload := false }
    match result with
    | .error error => failActiveTask error.failure none
    | .ok () =>
        match task.artifactManifest with
        | none => fail (.protocol "artifact upload completed before manifest was available")
        | some manifest => do
            modifyTask fun current =>
              { current with pendingResult := some (.completed (completedPayload task manifest)) }
            send (.result (.completed (completedPayload task manifest)))

/-! Acknowledgements -/

def PendingTerminalResult.status : PendingTerminalResult → BuildTaskStatus
  | .completed _ => .succeeded
  | .failed _ => .failed
  | .canceled _ => .canceled

def handleResultAck (payload : TaskResultAckPayload) : Routine Unit :=
  withTask fun task =>
    if task.assignment.taskId ≠ payload.taskId then
      fail (.protocol "task.result.ack taskId did not match active task")
    else
      ifSome task.pendingResult fun result =>
        if payload.status ≠ result.status then
          fail (.protocol "task.result.ack status did not match pending result")
        else modify Process.drop

def acknowledgeLogs (host : Host) (task : ActiveTask) (sequence : Nat) : Act :=
  zoom (fun _ => task.logs.host) (fun logs => Agent.setLogs (task.logs.setHost logs)) .logBuffer
    (LogBuffer.acknowledge host.format sequence)

def handleLogAck (host : Host) (payload : TaskLogAckPayload) : Act :=
  withActive fun task =>
    onlyIf (task.assignment.taskId = payload.taskId)
      (acknowledgeLogs host task payload.acknowledgedSequence)

/-- The part of `handle_task_input` that the log depends on: a sensitive line that goes to the
command. -/
def handleTaskInput (sensitive : Option Text) : Act :=
  withActive fun _ => do
    ifSome sensitive fun value => modifyTask fun task =>
      { task with
        stdoutLogRedactor := task.stdoutLogRedactor.addSensitiveValue value
        stderrLogRedactor := task.stderrLogRedactor.addSensitiveValue value }
    -- `task.input.ack`
    inspect .webSocket

/-! A further connection -/

/-- The status in `active_current_task`. -/
def ActiveTask.currentStatus (task : ActiveTask) : BuildTaskStatus :=
  if task.artifactManifest.isSome || task.artifactUpload then .uploading
  else if task.execution || task.executionCancel then .running
  else .preparing

/-- `cancel_active_task`. What the command still prints is lost. -/
def Process.abandon (p : Process) : Process :=
  { p.drop with agent := { p.drop.agent with executionReceiver := false } }

def recoveryCancel (task : ActiveTask) : TaskCancelPayload where
  taskId := task.assignment.taskId
  leaseToken := task.assignment.leaseToken
  requestedAt := []
  reason := some "Server requested cancellation after Agent reconnect".toList

/-- `wait_for_recovery`, with the message that it reads. -/
def waitForRecovery (settings : Settings) (outside : Surroundings)
    (message : Option TaskRecoveryPayload) (task : ActiveTask) :
    Routine (Option BuildTaskStatus) :=
  match message with
  | none => fail (.protocol "expected task.recovery after agent.registered")
  | some payload =>
      if payload.taskId ≠ task.assignment.taskId then
        fail (.protocol "task recovery taskId mismatch")
      else
        match payload.action, payload.status with
        | .abandon, _ => do
            modify Process.abandon
            pure none
        | .resume, none =>
            fail (.protocol "task recovery RESUME did not include a status")
        | .resume, some status =>
            if isAgentReportable status = false ∨ status ≠ task.currentStatus then
              fail (.protocol "task recovery RESUME status did not match the local task")
            else do
              onAgent (acknowledgeLogs settings.host task payload.acknowledgedLogSequence)
              pure (some status)
        | .cancel, none =>
            fail (.protocol "task recovery CANCEL did not include a status")
        | .cancel, some status =>
            if isAgentReportable status = false ∨ status ≠ task.currentStatus then
              fail (.protocol "task recovery CANCEL status did not match the local task")
            else do
              onAgent do
                acknowledgeLogs settings.host task payload.acknowledgedLogSequence
                handleTaskCancel settings.host outside.toAnswers (recoveryCancel task)
              pure none

/-- The scan of the artifacts in `resume_active_task`, if there is no manifest yet. -/
def resumeArtifacts (host : Host) (answers : Answers) (task : ActiveTask) : Act :=
  if task.artifactManifest.isSome then sendManifest host answers
  else if task.workspace = false then
    fail (.protocol "task workspace was missing before artifact recovery")
  else
    match answers.scanned with
    | .error error => failActiveTask (safeArtifactFailure error) none
    | .ok manifest => do
        modifyTask fun task => { task with artifactManifest := some manifest }
        sendManifest host answers

def readyToStart (task : ActiveTask) : Bool :=
  task.sourceCommit.isSome && task.workspace && !task.preparation && !task.execution &&
    task.artifactManifest.isNone && !task.artifactUpload

def resumeActiveTask (settings : Settings) (outside : Surroundings)
    (recoveryStatus : Option BuildTaskStatus) : Routine Unit :=
  withTask fun task =>
    onlyIf (task.pendingResult.isNone = true)
      (if task.commandCompleted then
        onlyIf (task.artifactUpload = false) <| onAgent do
          onlyIf (recoveryStatus ≠ some .uploading)
            (send (.status task.lease .uploading task.sourceCommit))
          resumeArtifacts settings.host outside.toAnswers task
      else
        onlyIf (readyToStart task = true) do
          let p ← get
          if p.source.configWritten then startOrFail settings outside
          else prepareSource settings outside false)

/-- The loop of `replay_active_logs` over the lines of the file. -/
def replayLines (host : Host) (task : ActiveTask) : List (List UInt8) → Act
  | [] => inspect (.logBuffer .io)
  | line :: lines => do
      inspect (.logBuffer .io)
      match LogBuffer.fromUtf8 line with
      | none => fail (.logBuffer .io)
      | some text =>
          match host.format.fromStr (LogBuffer.trimEnd text) with
          | none => fail (.logBuffer .invalidRecord)
          | some entry => do
              onlyIf (task.logs.host.buffer.acknowledgedSequence < entry.sequence)
                (send (.log task.lease entry))
              replayLines host task lines

def replayActiveLogs (host : Host) : Act :=
  withActive fun task => do
    inspect (.logBuffer .io)
    replayLines host task (LogBuffer.readLines task.logs.host.contents)

def resendPendingResult : Act :=
  withActive fun task => ifSome task.pendingResult fun result => send (.result result)

/-- The part of `connect_once` behind the registration. Only the end of a process gives logs to
`pending_logs`, so there is nothing of them to replay. -/
def connectOnce (settings : Settings) (outside : Surroundings)
    (message : Option TaskRecoveryPayload) : Routine Unit := do
  withTask fun task => do
    let recoveryStatus ← waitForRecovery settings outside message task
    resumeActiveTask settings outside recoveryStatus
  onAgent do
    replayActiveLogs settings.host
    resendPendingResult
  modify fun p => { p with connected := true }

/-! Runs -/

inductive Event where
  | assignment (payload : TaskAssignmentPayload)
  | preparation (event : PreparationEvent)
  | execution (event : ExecutionEvent)
  | artifactUpload (result : Except UploadError Unit)
  | artifactManifestAck (payload : TaskArtifactManifestAckPayload)
  | resultAck (payload : TaskResultAckPayload)
  | logAck (payload : TaskLogAckPayload)
  | cancel (payload : TaskCancelPayload)
  | input (sensitive : Option Text)
  /-- A heartbeat or a claim. -/
  | other
  | disconnected
  | connection (message : Option TaskRecoveryPayload)
  | exit

/-- An event with what else happens while the agent handles it. -/
structure Turn where
  event : Event
  outside : Surroundings
  faults : List (Option Fault)

/-- A result of the command that was started last. -/
def Process.deliver (event : ExecutionEvent) (p : Process) : Process :=
  match event with
  | .output _ _ => p
  | .finished result =>
      { p with delivered := p.delivered ++ (p.command.map fun lease => (lease, result)).toList }

def Process.disconnect (p : Process) : Process :=
  { p with connected := false }

/-- The end of the process, and the start of the next one. -/
def Process.restart (p : Process) : Process :=
  p.abandon.disconnect

def handle (settings : Settings) (outside : Surroundings) : Event → Routine Unit
  | .assignment payload => handleAssignment settings outside payload
  | .preparation event => handlePreparationEvent settings outside event
  | .execution event => do
      modify (Process.deliver event)
      onAgent (handleExecutionEvent settings.host outside.toAnswers event)
  | .artifactUpload result => onAgent (handleArtifactUploadResult result)
  | .artifactManifestAck payload => onAgent (handleArtifactManifestAck payload)
  | .resultAck payload => handleResultAck payload
  | .logAck payload => onAgent (handleLogAck settings.host payload)
  | .cancel payload => onAgent (handleTaskCancel settings.host outside.toAnswers payload)
  | .input sensitive => onAgent (handleTaskInput sensitive)
  | .other => onAgent (inspect .webSocket)
  | .disconnected => modify Process.disconnect
  | .connection message => connectOnce settings outside message
  | .exit => modify Process.restart

/-- The connection is closed after an error. -/
def Process.after (settings : Settings) (p : Process) (turn : Turn) : Process :=
  match handle settings turn.outside turn.event ⟨p, turn.faults⟩ with
  | (.ok (), t) => t.state
  | (.error (.failed _), t) => t.state.disconnect
  | (.error .crashed, t) => t.state.restart

def leaseOf (assignment : TaskAssignmentPayload) : Lease :=
  ⟨assignment.taskId, assignment.leaseToken⟩

/-- Whether the agent is waiting for an event. The server makes a new token for each assignment. -/
def Process.awaits (p : Process) : Event → Prop
  | .assignment payload => p.connected = true ∧ leaseOf payload ∉ p.leases
  | .preparation _ => p.connected = true ∧ p.agent.active.any ActiveTask.preparation = true
  | .execution _ => p.connected = true ∧ p.agent.executionReceiver = true
  | .artifactUpload _ => p.connected = true ∧ p.agent.active.any ActiveTask.artifactUpload = true
  | .artifactManifestAck _ | .resultAck _ | .logAck _ | .cancel _ | .input _ | .other
  | .disconnected => p.connected = true
  | .connection _ => p.connected = false
  | .exit => True

instance (p : Process) (event : Event) : Decidable (p.awaits event) :=
  match event with
  | .assignment _ | .preparation _ | .execution _ | .artifactUpload _ =>
      inferInstanceAs (Decidable (_ ∧ _))
  | .artifactManifestAck _ | .resultAck _ | .logAck _ | .cancel _ | .input _ | .other
  | .disconnected | .connection _ => inferInstanceAs (Decidable (_ = _))
  | .exit => inferInstanceAs (Decidable True)

structure Process.IsNew (p : Process) : Prop where
  agent_eq : p.agent = ⟨none, false, [], []⟩
  connected_eq : p.connected = false
  leases_eq : p.leases = []
  command_eq : p.command = none
  delivered_eq : p.delivered = []

/-- The runs of the agent whose turns are all allowed. -/
def runtime (settings : Settings) (allowed : Process → Turn → Prop) :
    TransitionSystem Process where
  init := Process.IsNew
  step := fun p q => ∃ turn, p.awaits turn.event ∧ allowed p turn ∧ q = p.after settings turn

/-- The agent awaits each of the events when its turn comes, and all turns are allowed. -/
def Process.Takes (settings : Settings) (allowed : Process → Turn → Prop) :
    Process → List Turn → Prop
  | _, [] => True
  | p, turn :: turns =>
      (p.awaits turn.event ∧ allowed p turn) ∧ (p.after settings turn).Takes settings allowed turns

instance decidableTakes (settings : Settings) (allowed : Process → Turn → Prop)
    [∀ p turn, Decidable (allowed p turn)] :
    ∀ (p : Process) (turns : List Turn), Decidable (p.Takes settings allowed turns)
  | _, [] => inferInstanceAs (Decidable True)
  | p, turn :: turns =>
      have := decidableTakes settings allowed (p.after settings turn) turns
      inferInstanceAs (Decidable (_ ∧ _))

theorem Process.Takes.reachable {settings : Settings} {allowed : Process → Turn → Prop}
    {p : Process} {turns : List Turn} (h : p.Takes settings allowed turns)
    (hp : (runtime settings allowed).Reachable p) :
    (runtime settings allowed).Reachable (turns.foldl (Process.after settings) p) := by
  induction turns generalizing p with
  | nil => exact hp
  | cons turn turns ih => exact ih h.2 (hp.step ⟨turn, h.1.1, h.1.2, rfl⟩)

theorem Process.Takes.imp {settings : Settings} {allowed allowed' : Process → Turn → Prop}
    {p : Process} {turns : List Turn} (h : p.Takes settings allowed turns)
    (himp : ∀ p turn, allowed p turn → allowed' p turn) : p.Takes settings allowed' turns := by
  induction turns generalizing p with
  | nil => trivial
  | cons turn turns ih => exact ⟨⟨h.1.1, himp p turn h.1.2⟩, ih h.2⟩

end AnvilRun.AgentRuntime
