import AnvilRun.TaskDatabase
import AnvilRun.TransitionSystem

namespace AnvilRun.TaskInputService

open AnvilRun.TaskDatabase
open AnvilRun.ValidationPrimitives

def maxInputBytes : Nat := 4096
def controlIdleTimeoutMs : Nat := 5 * 60000
def minInputIntervalMs : Nat := 250

inductive TaskInputErrorCode where
  | notEnabled | notRunning | agentUnsupported | agentOffline | busy | notController | invalid
  | tooLarge | rateLimited | stdinClosed | deliveryTimeout | deliveryFailed
  deriving DecidableEq

/-- What the lookup of `getContext` returns. -/
structure TaskInputContext where
  id : Id
  interactiveInputEnabled : Bool
  status : BuildTaskStatus
  agentEnabled : Bool
  agentStatus : AgentStatus
  activeTaskId : Option Id

/-- What the registry says about the agent of the task. -/
structure AgentConnection where
  isReady : Bool
  hasCapability : Bool

structure TaskInputState where
  taskId : Id
  enabled : Bool
  writable : Bool
  controlledByCurrentSocket : Bool
  busy : Bool
  reason : Option TaskInputErrorCode

/-- A controller, with the id it is kept under, which its expiry timer knows too. -/
structure Controller where
  taskId : JsString
  socket : Nat
  actorId : Nat
  lastActivityAt : Nat
  lastSentAt : Nat
  busy : Bool

/-- Where a call of `sendTaskInput` is: in its lookup, waiting for the acknowledgement, or done. -/
inductive Phase where
  | lookup
  | awaiting
  | done (code : Option TaskInputErrorCode)
  deriving DecidableEq

/-- A call of `send` that waits for `sendTaskInput`, with the controller object it works on. -/
structure SendCall where
  taskId : JsString
  inputId : JsString
  controller : Nat
  startedAt : Nat
  phase : Phase

/-- A message that was handed to the connection of the agent: when the call for it started, and
when it left. -/
structure Delivery where
  task : Id
  startedAt : Nat
  handedAt : Nat

/-- The service: the clock, the controllers by task id, the controller objects, the calls that are
under way, and what was handed to agents, the newest first. `evenLookups` records whether each
lookup was as long as the one of the message before it, or started long after that. -/
structure Service where
  now : Nat
  controllers : JsString → Option Nat
  objects : Nat → Controller
  created : Nat
  stdinClosedTasks : JsString → Bool
  calls : Nat → Option SendCall
  started : Nat
  deliveries : List Delivery
  evenLookups : Bool

/-- The id as PostgreSQL knows it. -/
def canonicalId (taskId : JsString) : Id :=
  asciiLower taskId

def hasForbiddenControlCharacters (value : JsString) : Bool :=
  value.any fun u => decide (u < 0x20) || decide (0x7f ≤ u ∧ u ≤ 0x9f)

namespace Service

def controllerOf (s : Service) (taskId : JsString) : Option Controller :=
  (s.controllers taskId).map s.objects

/-- `deleteController`, for the object that is kept under the id. -/
def deleteController (s : Service) (taskId : JsString) : Service :=
  { s with controllers := Function.update s.controllers taskId none }

def clearTaskState (s : Service) (taskId : JsString) : Service :=
  { s with stdinClosedTasks := Function.update s.stdinClosedTasks taskId false }.deleteController
    taskId

/-- `expireController`, and what the expiry timer does when it fires. -/
def expireController (s : Service) (taskId : JsString) : Service :=
  match s.controllerOf taskId with
  | some controller =>
      if controlIdleTimeoutMs ≤ s.now - controller.lastActivityAt then s.deleteController taskId
      else s
  | none => s

def setController (s : Service) (key : Nat) (controller : Controller) : Service :=
  { s with objects := Function.update s.objects key controller }

/-- The reason of `stateFor` when none is given. -/
def reasonFor (s : Service) (context : TaskInputContext) (connection : AgentConnection)
    (socket : Nat) : Option TaskInputErrorCode :=
  if context.interactiveInputEnabled = false then some .notEnabled
  else if context.status ≠ .running then some .notRunning
  else if s.stdinClosedTasks context.id then some .stdinClosed
  else if context.agentEnabled = false ∨ context.agentStatus ≠ .online ∨
      connection.isReady = false then some .agentOffline
  else if connection.hasCapability = false then some .agentUnsupported
  else if context.activeTaskId ≠ some context.id then some .stdinClosed
  else
    match s.controllerOf context.id with
    | some controller =>
        if controller.socket ≠ socket then some .busy
        else if controller.busy then some .busy
        else none
    | none => none

def stateFor (s : Service) (context : TaskInputContext) (connection : AgentConnection)
    (socket : Nat) (overrideReason : Option TaskInputErrorCode) : TaskInputState :=
  let controlled := (s.controllerOf context.id).any fun controller => controller.socket == socket
  let busy := (s.controllerOf context.id).any Controller.busy
  let reason := overrideReason.or (s.reasonFor context connection socket)
  { taskId := context.id
    enabled := context.interactiveInputEnabled
    writable := reason.isNone && controlled && !busy
    controlledByCurrentSocket := controlled
    busy
    reason }

/-- A new controller that has sent nothing yet. -/
def createController (s : Service) (taskId : JsString) (socket actorId : Nat) : Service :=
  { s with
    controllers := Function.update s.controllers taskId (some s.created)
    objects := Function.update s.objects s.created
      { taskId
        socket
        actorId
        lastActivityAt := s.now
        lastSentAt := 0
        busy := false }
    created := s.created + 1 }

/-- Whether `acquire` goes on to the controller. -/
def mayAcquire (s : Service) (context : TaskInputContext) (connection : AgentConnection)
    (socket : Nat) (taskId : JsString) : Bool :=
  context.interactiveInputEnabled &&
    !((s.controllerOf taskId).any fun controller => controller.socket != socket) &&
    ((s.reasonFor context connection socket).all fun reason => reason == .busy)

/-- `acquire` behind its lookup. -/
def acquire (s : Service) (actorId socket : Nat) (taskId : JsString) (context : TaskInputContext)
    (connection : AgentConnection) : Service :=
  let s := s.expireController taskId
  if s.mayAcquire context connection socket taskId then
    match s.controllers taskId with
    | none => s.createController taskId socket actorId
    | some key => s.setController key { s.objects key with lastActivityAt := s.now }
  else s

/-- `release` behind its lookup. -/
def release (s : Service) (actorId socket : Nat) (taskId : JsString) : Service :=
  let s := s.expireController taskId
  if (s.controllerOf taskId).any fun controller =>
      controller.socket == socket && controller.actorId == actorId then
    s.deleteController taskId
  else s

/-- The controller is busy from now on, and the call waits for `sendTaskInput`. -/
def startSend (s : Service) (taskId inputId : JsString) (key : Nat) : Service :=
  { s.setController key
      { s.objects key with
        busy := true
        lastActivityAt := s.now
        lastSentAt := s.now } with
    calls := Function.update s.calls s.started
      (some
        { taskId
          inputId
          controller := key
          startedAt := s.now
          phase := .lookup })
    started := s.started + 1 }

/-- The checks of `send` in front of its lookup. -/
def inputError (taskId inputId text : JsString) : Option TaskInputErrorCode :=
  if matchesUuid taskId = false ∨ matchesUuid inputId = false then some .invalid
  else if hasForbiddenControlCharacters text then some .invalid
  else if maxInputBytes < text.utf8Length then some .tooLarge
  else none

/-- `send` behind its lookup, up to the call of `sendTaskInput`, with the code of a rejection. -/
def send (s : Service) (actorId socket : Nat) (taskId inputId text : JsString)
    (context : TaskInputContext) (connection : AgentConnection) :
    Option TaskInputErrorCode × Service :=
  match inputError taskId inputId text with
  | some code => (some code, s)
  | none =>
      let s := s.expireController taskId
      if s.stdinClosedTasks taskId then (some .stdinClosed, s.deleteController taskId)
      else
        match s.controllers taskId with
        | none => (some .notController, s)
        | some key =>
            let controller := s.objects key
            if controller.socket ≠ socket ∨ controller.actorId ≠ actorId then
              (some .notController, s)
            else if controller.busy then (some .busy, s)
            else if s.now - controller.lastSentAt < minInputIntervalMs then (some .rateLimited, s)
            else
              let preflight := s.stateFor context connection socket none
              if preflight.enabled = false ∨ preflight.writable = false then
                if preflight.reason = some .stdinClosed then
                  (some .stdinClosed, s.deleteController taskId)
                else (some (preflight.reason.getD .stdinClosed), s)
              else (none, s.startSend taskId inputId key)

/-- The row that `sendTaskInput` looks up. -/
structure TaskRow where
  projectDeleted : Bool
  interactiveInputEnabled : Bool
  status : BuildTaskStatus
  agentActiveTaskId : Option Id
  agentEnabled : Bool
  agentStatus : AgentStatus

/-- What `sendTaskInput` finds behind its lookup: the row, the connection, whether there is a lease
token, and whether the message is valid and goes out. -/
structure Lookup where
  row : Option TaskRow
  connection : AgentConnection
  hasLeaseToken : Bool
  messageSent : Bool

/-- Whether `pendingTaskInputs` has the id. -/
def pendingInput (s : Service) (inputId : JsString) : Bool :=
  (List.range s.started).any fun i =>
    (s.calls i).any fun call => call.inputId == inputId && call.phase == .awaiting

/-- The rejections of `sendTaskInput` in front of the send. -/
def lookupError (taskId : JsString) (lookup : Lookup) : Option TaskInputErrorCode :=
  match lookup.row with
  | none => some .notEnabled
  | some row =>
      if row.projectDeleted ∨ row.interactiveInputEnabled = false then some .notEnabled
      else if row.status ≠ .running ∨ row.agentActiveTaskId ≠ some (canonicalId taskId) then
        some .notRunning
      else if row.agentEnabled = false ∨ row.agentStatus ≠ .online ∨
          lookup.connection.isReady = false then some .agentOffline
      else if lookup.connection.hasCapability = false then some .agentUnsupported
      else if lookup.hasLeaseToken = false then some .stdinClosed
      else none

def setPhase (s : Service) (i : Nat) (call : SendCall) (phase : Phase) : Service :=
  { s with calls := Function.update s.calls i (some { call with phase }) }

/-- The newest message of the task. -/
def lastDelivery (s : Service) (task : Id) : Option Delivery :=
  s.deliveries.find? fun delivery => delivery.task == task

/-- Whether a lookup that ends now was as long as the one of the message before it, or started when
that message had left long enough before. -/
def evenLookup (s : Service) (call : SendCall) : Bool :=
  (s.lastDelivery (canonicalId call.taskId)).all fun last =>
    decide (last.handedAt + minInputIntervalMs ≤ call.startedAt) ||
      decide (last.handedAt - last.startedAt ≤ s.now - call.startedAt)

/-- The message goes to the connection of the agent. -/
def handOver (s : Service) (i : Nat) (call : SendCall) : Service :=
  { s.setPhase i call .awaiting with
    deliveries := ⟨canonicalId call.taskId, call.startedAt, s.now⟩ :: s.deliveries
    evenLookups := s.evenLookups && s.evenLookup call }

end Service

/-- What can happen next. A call is given by its number. -/
inductive Event where
  | tick (ms : Nat)
  | clearTaskState (taskId : JsString)
  | expire (taskId : JsString)
  | acquire (actorId socket : Nat) (taskId : JsString) (context : TaskInputContext)
      (connection : AgentConnection)
  | release (actorId socket : Nat) (taskId : JsString)
  | releaseSocket (socket : Nat)
  | releaseTask (socket : Nat) (taskId : JsString)
  | send (actorId socket : Nat) (taskId inputId text : JsString) (context : TaskInputContext)
      (connection : AgentConnection)
  | lookup (i : Nat) (lookup : Service.Lookup)
  /-- The acknowledgement, the timeout, or the end of the connection. -/
  | resolve (i : Nat) (code : Option TaskInputErrorCode)
  | finish (i : Nat)

namespace Service

/-- `sendTaskInput` behind its lookup. -/
def afterLookup (s : Service) (i : Nat) (lookup : Lookup) : Service :=
  match s.calls i with
  | none => s
  | some call =>
      if call.phase = .lookup then
        match lookupError call.taskId lookup with
        | some code => s.setPhase i call (.done (some code))
        | none =>
            if s.pendingInput call.inputId ∨ lookup.messageSent = false then
              s.setPhase i call (.done (some .deliveryFailed))
            else s.handOver i call
      else s

def resolve (s : Service) (i : Nat) (code : Option TaskInputErrorCode) : Service :=
  match s.calls i with
  | none => s
  | some call => if call.phase = .awaiting then s.setPhase i call (.done code) else s

/-- The controller object of a call is free again, also when it is no controller any more. -/
def endCall (s : Service) (i : Nat) (call : SendCall) : Service :=
  { s.setController call.controller
      { s.objects call.controller with
        busy := false
        lastActivityAt := s.now } with
    calls := Function.update s.calls i none }

def closeStdin (s : Service) (call : SendCall) : Service :=
  { s with
    controllers :=
      if s.controllers call.taskId = some call.controller then
        Function.update s.controllers call.taskId none
      else s.controllers
    stdinClosedTasks := Function.update s.stdinClosedTasks call.taskId true }

/-- `send` behind `sendTaskInput`. -/
def finish (s : Service) (i : Nat) : Service :=
  match s.calls i with
  | none => s
  | some call =>
      match call.phase with
      | .done code =>
          if code = some .stdinClosed then (s.endCall i call).closeStdin call
          else s.endCall i call
      | _ => s

def releaseSocket (s : Service) (socket : Nat) : Service :=
  { s with
    controllers := fun taskId =>
      if (s.controllerOf taskId).any fun controller => controller.socket == socket then none
      else s.controllers taskId }

def releaseTask (s : Service) (socket : Nat) (taskId : JsString) : Service :=
  if (s.controllerOf taskId).any fun controller => controller.socket == socket then
    s.deleteController taskId
  else s

def after (s : Service) : Event → Service
  | .tick ms => { s with now := s.now + ms }
  | .clearTaskState taskId => s.clearTaskState taskId
  | .expire taskId => s.expireController taskId
  | .acquire actorId socket taskId context connection =>
      s.acquire actorId socket taskId context connection
  | .release actorId socket taskId => s.release actorId socket taskId
  | .releaseSocket socket => s.releaseSocket socket
  | .releaseTask socket taskId => s.releaseTask socket taskId
  | .send actorId socket taskId inputId text context connection =>
      (s.send actorId socket taskId inputId text context connection).2
  | .lookup i lookup => s.afterLookup i lookup
  | .resolve i code => s.resolve i code
  | .finish i => s.finish i

/-- The service as it starts. -/
def IsNew (s : Service) : Prop :=
  (∀ taskId, s.controllers taskId = none) ∧ (∀ i, s.calls i = none) ∧ s.deliveries = [] ∧
    s.evenLookups = true

end Service

/-- All runs of the service whose events meet a condition on the state they happen in. -/
def system (allowed : Service → Event → Prop) : TransitionSystem Service where
  init := Service.IsNew
  step := fun s t => ∃ event, allowed s event ∧ t = s.after event

end AnvilRun.TaskInputService
