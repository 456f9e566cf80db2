import AnvilRun.AgentRedactor
import AnvilRun.RecentWindow
import AnvilRun.TransitionSystem
import AnvilRun.Utf8
import AnvilRun.Websocket.AgentContracts

namespace AnvilRun.TaskInput

open AnvilRun.AgentRedactor
open AnvilRun.AgentContracts (TaskInputPayload)

/-- `constant_time_equal`. -/
def constantTimeEqual (left right : List UInt8) : Bool :=
  (List.range (max left.length right.length)).foldl
    (fun difference index => difference ||| (left.getD index 0 ^^^ right.getD index 0))
    (UInt8.ofNat (left.length ^^^ right.length)) == 0

/-- The fields of the active task that its input is about. `executionInput` says whether the agent
holds the sending end of the command's input. -/
structure ActiveTask where
  taskId : Text
  leaseToken : Text
  stdoutLogRedactor : SensitiveLogRedactor
  stderrLogRedactor : SensitiveLogRedactor
  executionInput : Bool
  interactiveInputEnabled : Bool
  recentInputIds : List Text

/-- One line on its way to the command. `awaited` says whether somebody still waits for the
result. The id is that of the message it comes from. -/
structure ExecutionInput where
  inputId : Text
  bytes : List UInt8
  awaited : Bool

/-- The task that runs the child: it waits in `write_next_input` for a line, or it writes one, or
it has left the loop, or it has dropped the receiving end of the channel. -/
inductive Child where
  | notStarted
  | waiting
  | writing (input : ExecutionInput)
  | leaving
  | gone

def Child.running : Child → Bool
  | .waiting => true
  | .writing _ => true
  | _ => false

def Child.current : Child → List ExecutionInput
  | .writing input => [input]
  | _ => []

/-- Where a call of `handle_task_input` waits. The answer is the one of the result channel, whose
sender may also be dropped. -/
inductive Handling where
  | sending (input : TaskInputPayload)
  | awaiting (input : TaskInputPayload) (answer : Option Bool)

structure TaskInputAckPayload where
  taskId : Text
  leaseToken : Text
  inputId : Text
  accepted : Bool
  acknowledgedAt : Text
  errorCode : Option String

/-- The active task, the call that is being handled, the channel to the child and the child. The
last four fields record what has happened: the lines that were written as a whole, the
acknowledgements, the ids of the messages for the task, and those whose wait ran out. -/
structure State where
  current : ActiveTask
  handling : Option Handling
  channel : List ExecutionInput
  child : Child
  written : List ExecutionInput
  acks : List TaskInputAckPayload
  delivered : List Text
  overdue : List Text

def inputChannelCapacity : Nat := 8
def recentInputLimit : Nat := 32

def ActiveTask.isAddressed (current : ActiveTask) (input : TaskInputPayload) : Bool :=
  current.taskId == input.taskId &&
    constantTimeEqual (Utf8.encode current.leaseToken) (Utf8.encode input.leaseToken)

def ActiveTask.addSensitiveValue (current : ActiveTask) (input : TaskInputPayload) : ActiveTask :=
  if input.sensitive then
    { current with
      stdoutLogRedactor := current.stdoutLogRedactor.addSensitiveValue input.text
      stderrLogRedactor := current.stderrLogRedactor.addSensitiveValue input.text }
  else current

/-- The end of `handle_task_input`. -/
def State.acknowledge (s : State) (input : TaskInputPayload) (now : Text) (accepted : Bool)
    (errorCode : Option String) : State :=
  { s with
    handling := none
    acks := s.acks ++
      [⟨s.current.taskId, s.current.leaseToken, input.inputId, accepted, now, errorCode⟩] }

/-- `handle_task_input` up to the send. -/
def State.deliver (s : State) (input : TaskInputPayload) (now : Text) : State :=
  if s.current.isAddressed input = false then s
  else
    let s := { s with delivered := s.delivered ++ [input.inputId] }
    if s.current.interactiveInputEnabled = false then
      s.acknowledge input now false "TASK_INPUT_NOT_ENABLED"
    else if s.current.executionInput = false then
      s.acknowledge input now false "TASK_INPUT_STDIN_CLOSED"
    else if s.current.recentInputIds.contains input.inputId then s.acknowledge input now true none
    else
      { s with
        current := s.current.addSensitiveValue input
        handling := some (.sending input) }

/-- The line of an input. -/
def executionInput (input : TaskInputPayload) : ExecutionInput :=
  ⟨input.inputId, Utf8.encode input.text ++ [0x0A], true⟩

def State.send (s : State) (input : TaskInputPayload) : State :=
  { s with
    channel := s.channel ++ [executionInput input]
    handling := some (.awaiting input none) }

/-- Somebody who waits for the result of this line gets it. -/
def State.answer (s : State) (line : ExecutionInput) (result : Bool) : State :=
  if line.awaited then
    { s with
      handling := s.handling.map fun handling =>
        match handling with
        | .awaiting input none => .awaiting input (some result)
        | handling => handling }
  else s

def State.take (s : State) (line : ExecutionInput) (rest : List ExecutionInput) : State :=
  { s with
    child := .writing line
    channel := rest }

def State.finishWrite (s : State) (line : ExecutionInput) : State :=
  { s.answer line true with
    child := .waiting
    written := s.written ++ [line] }

/-- The child leaves its loop, or its input fails. A line that is being written may be there as a
whole all the same. -/
def State.leave (s : State) (whole : Bool) : State :=
  match s.child with
  | .writing line =>
      { s.answer line false with
        child := .leaving
        written := if whole then s.written ++ [line] else s.written }
  | _ => { s with child := .leaving }

/-- The receiving end of the channel goes, and with it the lines in it. -/
def State.dropReceiver (s : State) : State :=
  { s.channel.foldl (fun s line => s.answer line false) s with
    child := .gone
    channel := [] }

/-- Nobody waits any more for the lines on their way. -/
def ExecutionInput.abandon (line : ExecutionInput) : ExecutionInput :=
  { line with awaited := false }

def Child.abandon : Child → Child
  | .writing line => .writing line.abandon
  | child => child

/-- `handle_task_input` behind the answer. -/
def State.finishAccepted (s : State) (input : TaskInputPayload) (now : Text) : State :=
  { s with
    current :=
      { s.current with
        recentInputIds := RecentWindow.popFront recentInputLimit
          (s.current.recentInputIds ++ [input.inputId]) } }.acknowledge input now true none

def State.finishRejected (s : State) (input : TaskInputPayload) (now : Text) : State :=
  s.acknowledge input now false "TASK_INPUT_STDIN_CLOSED"

/-- `handle_task_input` behind the timeout. -/
def State.giveUp (s : State) (input : TaskInputPayload) (now : Text) : State :=
  { s with
    channel := s.channel.map ExecutionInput.abandon
    child := s.child.abandon
    overdue := s.overdue ++ [input.inputId] }.acknowledge input now false
      "TASK_INPUT_DELIVERY_TIMEOUT"

/-- The part of `start_active_command` about the input. -/
def State.start (s : State) : State :=
  if s.current.interactiveInputEnabled then
    { s with
      current := { s.current with executionInput := true }
      child := .waiting }
  else { s with child := .gone }

/-- `execution_input.take()`. -/
def State.closeInput (s : State) : State :=
  { s with current := { s.current with executionInput := false } }

/-- A message for the task whose id has come before comes while fewer than 32 others have come
since. -/
def WithinWindow (s : State) (input : TaskInputPayload) : Prop :=
  s.current.isAddressed input = true → input.inputId ∈ s.delivered →
    RecentWindow.othersSince input.inputId s.delivered < recentInputLimit

/-- One step of the agent or of the child. A message is handled only when the call for the one
before has ended. -/
inductive Step (allowed : State → TaskInputPayload → Prop) (s : State) : State → Prop
  | start (hchild : s.child = .notStarted) (hidle : s.handling = none) : Step allowed s s.start
  | deliver (input : TaskInputPayload) (now : Text) (hidle : s.handling = none)
      (hwindow : WithinWindow s input) (hallowed : allowed s input) :
      Step allowed s (s.deliver input now)
  | send (input : TaskInputPayload) (hhandling : s.handling = some (.sending input))
      (hopen : s.child ≠ .gone) (hroom : s.channel.length < inputChannelCapacity) :
      Step allowed s (s.send input)
  | sendFails (input : TaskInputPayload) (now : Text)
      (hhandling : s.handling = some (.sending input)) (hgone : s.child = .gone) :
      Step allowed s (s.finishRejected input now)
  | take (line : ExecutionInput) (rest : List ExecutionInput) (hchild : s.child = .waiting)
      (hchannel : s.channel = line :: rest) : Step allowed s (s.take line rest)
  | finishWrite (line : ExecutionInput) (hchild : s.child = .writing line) :
      Step allowed s (s.finishWrite line)
  | leave (whole : Bool) (hchild : s.child.running = true) : Step allowed s (s.leave whole)
  | dropReceiver (hchild : s.child = .leaving) : Step allowed s s.dropReceiver
  | finishAccepted (input : TaskInputPayload) (now : Text)
      (hhandling : s.handling = some (.awaiting input (some true))) :
      Step allowed s (s.finishAccepted input now)
  | finishRejected (input : TaskInputPayload) (now : Text)
      (hhandling : s.handling = some (.awaiting input (some false))) :
      Step allowed s (s.finishRejected input now)
  | giveUp (input : TaskInputPayload) (now : Text)
      (hhandling : s.handling = some (.awaiting input none)) :
      Step allowed s (s.giveUp input now)
  | closeInput (hidle : s.handling = none) : Step allowed s s.closeInput

/-- A task that has just been assigned. -/
def IsNew (s : State) : Prop :=
  s.current.executionInput = false ∧ s.current.recentInputIds = [] ∧ s.handling = none ∧
    s.channel = [] ∧ s.child = .notStarted ∧ s.written = [] ∧ s.acks = [] ∧ s.delivered = [] ∧
    s.overdue = []

/-- All runs in which the messages meet a condition on the state they come in. -/
def system (allowed : State → TaskInputPayload → Prop) : TransitionSystem State where
  init := IsNew
  step := Step allowed

end AnvilRun.TaskInput
