import AnvilRun.ArtifactScan
import AnvilRun.Execution
import AnvilRun.LogBuffer
import AnvilRun.TaskInput
import AnvilRun.TaskStatus

namespace AnvilRun.AgentRuntime

open AnvilRun.AgentContracts (TaskAssignmentPayload TaskCancelPayload)
open AnvilRun.AgentRedactor (Text SensitiveLogRedactor)
open AnvilRun.ArtifactScan (ArtifactManifest Stamp sendArtifactManifest)
open AnvilRun.Effect (ifSome onlyIf)
open AnvilRun.Execution (ExecutionEvent ExecutionResult)
open AnvilRun.Interruptible

/-- What the agent writes by `serde_json`. -/
structure Host where
  format : LogBuffer.EntryFormat
  toText : Json → List UInt8

structure Lease where
  taskId : Text
  token : Text
  deriving DecidableEq

structure TaskCompletedPayload where
  lease : Lease
  exitCode : Int
  artifactCount : Nat
  artifactBytes : Nat
  sourceCommit : Option Text

structure TaskFailedPayload where
  lease : Lease
  reason : String
  exitCode : Option Int

structure TaskCanceledPayload where
  lease : Lease
  reason : String

inductive PendingTerminalResult where
  | completed (payload : TaskCompletedPayload)
  | failed (payload : TaskFailedPayload)
  | canceled (payload : TaskCanceledPayload)

/-- A message for the server. Times are left out, but for the one of a log entry. -/
inductive Message where
  | status (lease : Lease) (status : BuildTaskStatus) (sourceCommit : Option Text)
  | log (lease : Lease) (entry : BufferedLogEntry)
  | artifactManifest (message : Json)
  | result (result : PendingTerminalResult)

/-- The task that the agent works on, with the assignment it comes from and the file of its log
buffer. Of a workspace, a channel or a handle of another task of the runtime it says whether there
is one. -/
structure ActiveTask where
  assignment : TaskAssignmentPayload
  sourceCommit : Option Text
  commandCompleted : Bool
  stdoutLogRedactor : SensitiveLogRedactor
  stderrLogRedactor : SensitiveLogRedactor
  logs : LogBuffer.Appender
  workspace : Bool
  preparation : Bool
  execution : Bool
  executionCancel : Bool
  executionInput : Bool
  artifactManifest : Option ArtifactManifest
  artifactUpload : Bool
  pendingResult : Option PendingTerminalResult

def ActiveTask.lease (task : ActiveTask) : Lease :=
  ⟨task.assignment.taskId, task.assignment.leaseToken⟩

def ActiveTask.isAddressed (task : ActiveTask) (cancel : TaskCancelPayload) : Bool :=
  task.assignment.taskId == cancel.taskId && TaskInput.constantTimeEqual
    (Utf8.encode task.assignment.leaseToken) (Utf8.encode cancel.leaseToken)

/-- The variables of `Agent::run` that the handlers of a command work on. `executionReceiver` says
whether the agent listens to a command. The last two fields record what has happened: the messages
for the server, and the log entries that `persist_and_send_log` was called with. -/
structure Agent where
  active : Option ActiveTask
  executionReceiver : Bool
  sent : List Message
  emitted : List BufferedLogEntry

inductive AgentError where
  | protocol (message : String)
  | logBuffer (error : LogBufferError)
  | webSocket

/-- What the outside answers while the agent handles one event. `emittedAt` is the clock at the
entry with a sequence. A command that is being stopped may go on printing, and it may not end in
time. -/
structure Answers where
  emittedAt : Nat → Text
  stamp : Stamp
  preparationCleanupFailed : Bool
  preparationWorkspace : Bool
  released : Bool
  outputs : List (LogStream × Text)
  stopped : Bool
  scanned : Except ArtifactScan.ArtifactError ArtifactManifest

abbrev Act : Type := Interruptible AgentError Agent Unit

/-- What follows for the task that the agent works on, if there is one. -/
def withActive (f : ActiveTask → Act) : Act := do
  let s ← get
  ifSome s.active f

def modifyTask (f : ActiveTask → ActiveTask) : Act :=
  modify fun s => { s with active := s.active.map f }

def Agent.push (message : Message) (s : Agent) : Agent :=
  { s with sent := s.sent ++ [message] }

/-- `send_envelope`. A message whose sending fails may be on the wire all the same. -/
def send (message : Message) : Act :=
  call (Agent.push message) (fun reached s => if reached = 0 then s else s.push message)
    (fun reached s => if reached = 0 then s else s.push message) .webSocket

/-- `send_log_best_effort`. -/
def sendLogBestEffort (message : Message) : Act := do
  let late ← elapses
  if late then recover (send message) fun _ => pure () else send message

/-! The log of the command -/

def Agent.setLogs (logs : LogBuffer.Appender) (s : Agent) : Agent :=
  { s with active := s.active.map fun task => { task with logs } }

def Agent.emit (entry : BufferedLogEntry) (s : Agent) : Agent :=
  { s with emitted := s.emitted ++ [entry] }

/-- The next entry of the task. -/
def ActiveTask.entry (task : ActiveTask) (answers : Answers) (stream : LogStream) (chunk : Text) :
    BufferedLogEntry :=
  ⟨task.logs.nextSequence, stream, chunk, answers.emittedAt task.logs.nextSequence,
    task.logs.nextSequence_le⟩

def persistAndSendLog (host : Host) (answers : Answers) (stream : LogStream) (chunk : Text) : Act :=
  withActive fun task => do
    modify (Agent.emit (task.entry answers stream chunk))
    let appended ← zoom (fun _ => task.logs) Agent.setLogs .logBuffer
      (LogBuffer.appendLogAndAdvance host.format (task.entry answers stream chunk))
    onlyIf (appended = true)
      (sendLogBestEffort (.log task.lease (task.entry answers stream chunk)))

def ActiveTask.redactor (task : ActiveTask) : LogStream → SensitiveLogRedactor
  | .stdout => task.stdoutLogRedactor
  | .stderr => task.stderrLogRedactor

def ActiveTask.setRedactor (task : ActiveTask) (stream : LogStream)
    (redactor : SensitiveLogRedactor) : ActiveTask :=
  match stream with
  | .stdout => { task with stdoutLogRedactor := redactor }
  | .stderr => { task with stderrLogRedactor := redactor }

def persistExecutionOutput (host : Host) (answers : Answers) (stream : LogStream) (chunk : Text) :
    Act :=
  withActive fun task => do
    modifyTask fun task => task.setRedactor stream ((task.redactor stream).redact chunk).2
    onlyIf (((task.redactor stream).redact chunk).1 ≠ [])
      (persistAndSendLog host answers stream ((task.redactor stream).redact chunk).1)

/-- The texts that the redactors hold back. -/
def ActiveTask.tails (task : ActiveTask) : List (LogStream × Text) :=
  [(.stdout, task.stdoutLogRedactor.finish.1), (.stderr, task.stderrLogRedactor.finish.1)].filter
    fun tail => !tail.2.isEmpty

def ActiveTask.finishRedactors (task : ActiveTask) : ActiveTask :=
  { task with
    stdoutLogRedactor := task.stdoutLogRedactor.finish.2
    stderrLogRedactor := task.stderrLogRedactor.finish.2 }

def flushLogTails (host : Host) (answers : Answers) : Act :=
  withActive fun task => do
    modifyTask ActiveTask.finishRedactors
    each (fun tail => persistExecutionOutput host answers tail.1 tail.2) task.tails

/-! The end of a task -/

def failActiveTask (reason : String) (exitCode : Option Int) : Act :=
  withActive fun task => do
    modifyTask fun task =>
      { task with pendingResult := some (.failed ⟨task.lease, reason, exitCode⟩) }
    send (.result (.failed ⟨task.lease, reason, exitCode⟩))

/-- `stop_execution` of `handle_task_cancel`. An output that cannot be persisted ends the loop, and
the error goes with it. -/
def stopExecution (host : Host) (answers : Answers) : Act := do
  let s ← get
  onlyIf (s.executionReceiver = true) do
    recover (each (fun output => persistExecutionOutput host answers output.1 output.2)
      answers.outputs) fun _ => pure ()
    onlyIf (answers.stopped = false)
      (modifyTask fun task => { task with executionInput := false, execution := false })
  modify fun s => { s with executionReceiver := false }
  modifyTask fun task => { task with execution := false }

def confirmCancellation : Act :=
  withActive fun task => do
    modifyTask fun task =>
      { task with
        pendingResult := some (.canceled ⟨task.lease, "Agent confirmed task cancellation"⟩) }
    send (.result (.canceled ⟨task.lease, "Agent confirmed task cancellation"⟩))

def cleanupFailure : String := "TASK_CANCEL_CLEANUP_FAILED: task workspace cleanup failed"

/-- The part of `handle_task_cancel` behind the preparation. -/
def stopTask (host : Host) (answers : Answers) : Act := do
  modifyTask fun task =>
    { task with artifactUpload := false, executionInput := false, executionCancel := false }
  stopExecution host answers
  flushLogTails host answers
  if answers.preparationCleanupFailed then failActiveTask cleanupFailure none
  else confirmCancellation

def handleTaskCancel (host : Host) (answers : Answers) (cancel : TaskCancelPayload) : Act :=
  withActive fun task =>
    if task.isAddressed cancel = false then pure ()
    else do
      modifyTask fun task =>
        { task with
          preparation := false
          workspace := task.workspace || answers.preparationWorkspace }
      if answers.preparationWorkspace && task.workspace && !answers.released then
        failActiveTask cleanupFailure none
      else stopTask host answers

/-! The events of the command -/

def safeArtifactFailure : ArtifactScan.ArtifactError → String
  | .scanInvalid => "ARTIFACT_SCAN_FAILED: artifact directory is invalid or empty"
  | .scanUnsafe => "ARTIFACT_SCAN_FAILED: artifact directory contains an unsafe entry"
  | .scanChanged => "ARTIFACT_SCAN_FAILED: artifact data changed while being read"
  | .sizeLimit => "ARTIFACT_SIZE_LIMIT_EXCEEDED: artifact output is too large"

def artifactManifestTooLargeReason : String :=
  "ARTIFACT_MANIFEST_TOO_LARGE: artifact manifest exceeds websocket message limit"

/-- `scan_artifacts` and `send_artifact_manifest`. -/
def reportArtifacts (host : Host) (answers : Answers) : Act :=
  withActive fun task =>
    if task.workspace = false then
      fail (.protocol "task workspace was missing before artifact scan")
    else
      match answers.scanned with
      | .error error => failActiveTask (safeArtifactFailure error) none
      | .ok manifest => do
          modifyTask fun task => { task with artifactManifest := some manifest }
          match sendArtifactManifest host.toText answers.stamp task.assignment manifest with
          | .tooLarge => failActiveTask artifactManifestTooLargeReason none
          | .sent message => send (.artifactManifest message)

def reportResult (host : Host) (answers : Answers) (result : ExecutionResult) : Act :=
  if result.outputFailed then
    failActiveTask "COMMAND_OUTPUT_FAILED: command output could not be read" none
  else if result.timedOut then
    failActiveTask "COMMAND_TIMEOUT: build command timed out" none
  else
    match result.exitCode with
    | some 0 => do
        withActive fun task => send (.status task.lease .uploading task.sourceCommit)
        reportArtifacts host answers
    | some exitCode =>
        failActiveTask "COMMAND_FAILED: build command exited with non-zero status" (some exitCode)
    | none =>
        failActiveTask "COMMAND_FAILED: build command ended without a normal exit code" none

/-- `handle_execution_event`. -/
def handleExecutionEvent (host : Host) (answers : Answers) : ExecutionEvent → Act
  | .output stream chunk => persistExecutionOutput host answers stream chunk
  | .finished result => do
      let s ← get
      modifyTask fun task =>
        { task.finishRedactors with execution := false, commandCompleted := true }
      modify fun s => { s with executionReceiver := false }
      each (fun tail => persistAndSendLog host answers tail.1 tail.2)
        ((s.active.map ActiveTask.tails).getD [])
      reportResult host answers result

end AnvilRun.AgentRuntime
