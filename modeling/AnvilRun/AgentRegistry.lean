import AnvilRun.TaskDatabase

namespace AnvilRun.AgentRegistry

open AnvilRun.TaskDatabase

/-- The connection that is registered for an agent. -/
structure Connection where
  ready : Bool
  isOpen : Bool
  capabilities : List JsString
  deriving DecidableEq

/-- `AgentConnectionRegistry`. -/
abbrev Registry := Id → Option Connection

def Registry.isConnected (registry : Registry) (agentId : Id) : Bool :=
  match registry agentId with
  | some connection => connection.isOpen
  | none => false

def Registry.isReady (registry : Registry) (agentId : Id) : Bool :=
  match registry agentId with
  | some connection => connection.ready && connection.isOpen
  | none => false

def Registry.hasCapability (registry : Registry) (agentId : Id) (capability : JsString) : Bool :=
  match registry agentId with
  | some connection => connection.ready && connection.capabilities.contains capability
  | none => false

end AnvilRun.AgentRegistry
