namespace AnvilRun

inductive BuildTaskStatus where
  | created | waitingAgent | queued | dispatched | preparing | running | uploading
  | succeeded | failed | canceling | canceled | agentLost
  deriving DecidableEq

namespace BuildTaskStatus

/-- `TASK_STATUS_TRANSITIONS`. -/
def transitions : BuildTaskStatus → List BuildTaskStatus
  | created => [waitingAgent, queued, canceling]
  | waitingAgent => [queued, dispatched, canceling]
  | queued => [waitingAgent, dispatched, canceling]
  | dispatched => [preparing, queued, agentLost, failed, canceling]
  | preparing => [running, agentLost, failed, canceling]
  | running => [uploading, agentLost, failed, canceling]
  | uploading => [succeeded, agentLost, failed, canceling]
  | agentLost => [dispatched, preparing, running, uploading, failed, canceling]
  | canceling => [canceled, failed]
  | succeeded => []
  | failed => []
  | canceled => []

def canTransition (source target : BuildTaskStatus) : Bool :=
  source.transitions.contains target

/-- `EXECUTION_SLOT_STATUSES`. -/
def holdsSlot : BuildTaskStatus → Bool
  | dispatched | preparing | running | uploading | canceling | agentLost => true
  | _ => false

def isTerminal : BuildTaskStatus → Bool
  | succeeded | failed | canceled => true
  | _ => false

/-- The phases that an agent reports in its `agent.hello`. -/
def isAgentExecutionPhase : BuildTaskStatus → Bool
  | preparing | running | uploading => true
  | _ => false

theorem not_canTransition_self (s : BuildTaskStatus) : s.canTransition s = false := by
  cases s <;> rfl

theorem transitions_of_isTerminal {s : BuildTaskStatus} (h : s.isTerminal = true) :
    s.transitions = [] := by
  cases s with
  | succeeded | failed | canceled => rfl
  | _ => simp [isTerminal] at h

end BuildTaskStatus

end AnvilRun
