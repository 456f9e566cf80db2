import AnvilRun.UnixPath
import AnvilRun.Websocket.AgentContracts

namespace AnvilRun.AssignmentChecks

open AnvilRun.AgentContracts
open AnvilRun.Fallible
open AnvilRun.UnixPath

/-- What the agent reads by other crates: whether a text is a UUID, and the instant of a time in
RFC 3339. -/
structure AgentHost where
  parsesUuid : List Char → Bool
  parseRfc3339 : List Char → Option Int

/-- `char::is_control`. -/
def isControl (c : Char) : Bool :=
  decide (c.toNat < 0x20) || decide (0x7f ≤ c.toNat ∧ c.toNat ≤ 0x9f)

def validLeaseToken (value : List Char) : Bool :=
  let bytes := Utf8.encode value
  decide (16 ≤ bytes.length ∧ bytes.length ≤ 256) && bytes.all isIdByte

def safeText (value : List Char) : Bool :=
  !value.isEmpty && !value.any isControl

def safeRelativePath (value : List Char) : Bool :=
  let path := Utf8.encode value
  !isAbsolute path && !value.contains '\\' && (components path).all Component.isNormal

def isAsciiAlphabetic (b : UInt8) : Bool :=
  decide (65 ≤ b ∧ b ≤ 90) || decide (97 ≤ b ∧ b ≤ 122)

/-- A byte of a segment by its index in it. -/
def isConfigByte (entry : UInt8 × Nat) : Bool :=
  isAsciiAlphabetic entry.1 || entry.1 == 95 ||
    (decide (0 < entry.2) && (isAsciiDigit entry.1 || entry.1 == 46 || entry.1 == 45))

def safeConfigPath (value : List Char) : Bool :=
  !value.isEmpty && decide ((Utf8.encode value).length ≤ 255) &&
    (value.splitOn '/').all fun segment =>
      let bytes := Utf8.encode segment
      !segment.isEmpty && decide (bytes.length ≤ 64) && bytes.zipIdx.all isConfigByte

def isLowerHexdigit (b : UInt8) : Bool :=
  isAsciiHexdigit b && !decide (65 ≤ b ∧ b ≤ 90)

def validSha256 (value : List Char) : Bool :=
  let bytes := Utf8.encode value
  bytes.length == 64 && bytes.all isLowerHexdigit

/-- The checks of `validate_assignment` on an input file. -/
def validInputFile (host : AgentHost) (file : TaskInputFileAssignment) : Bool :=
  host.parsesUuid file.fileId && safeConfigPath file.fieldName && safeText file.fileName &&
    safeRelativePath file.targetRelativePath && validSha256 file.sha256

/-- `validate_assignment`, with the text of its error. -/
def validateAssignment (host : AgentHost) (now : Int) (agentId : List Char)
    (assignment : TaskAssignmentPayload) : Except String Unit := do
  ensure (assignment.agentId = agentId ∧ host.parsesUuid assignment.taskId ∧
    host.parsesUuid assignment.projectId ∧ host.parsesUuid assignment.buildTemplateId)
    "task assignment contains an invalid identity"
  ensure (validLeaseToken assignment.leaseToken) "task assignment contains an invalid lease token"
  let expiresAt ← require (host.parseRfc3339 assignment.leaseExpiresAt)
    "task assignment lease expiry is invalid"
  ensure (now < expiresAt) "task assignment lease has expired"
  ensure (assignment.timeoutSeconds ≠ 0 ∧ safeText assignment.git.url ∧
    safeText assignment.git.branch ∧ safeText assignment.artifactDir ∧
    safeRelativePath assignment.artifactDir)
    "task assignment contains invalid Git or workspace metadata"
  ensure (assignment.inputFiles.all (validInputFile host))
    "task assignment contains invalid input file metadata"

/-- Whether the agent takes on the task of a message: it can be read, and its assignment is
valid. -/
def Accepts (host : AgentHost) (now : Int) (agentId : List Char) (value : Value)
    (assignment : TaskAssignmentPayload) : Prop :=
  ∃ message : ProtocolEnvelopeTyped TaskAssignmentPayload,
    parseMessage value = .ok (.taskAssignment message) ∧ message.payload = assignment ∧
      validateAssignment host now agentId assignment = .ok ()

/-- What the checks say about the identity and the artifact directory of an accepted task. -/
theorem Accepts.checked {host : AgentHost} {now : Int} {agentId : List Char} {value : Value}
    {assignment : TaskAssignmentPayload} (h : Accepts host now agentId value assignment) :
    validTask assignment.taskId assignment.leaseToken = .ok () ∧
      safeText assignment.artifactDir = true ∧ safeRelativePath assignment.artifactDir = true := by
  obtain ⟨message, hparse, rfl, hvalid⟩ := h
  have htask : validTask message.payload.taskId message.payload.leaseToken = .ok () := by
    rw [parseMessage] at hparse
    obtain ⟨raw, -, hparse⟩ := bind_eq_ok.mp hparse
    obtain ⟨-, -, hparse⟩ := bind_eq_ok.mp hparse
    obtain ⟨-, -, hparse⟩ := bind_eq_ok.mp hparse
    cases htype : raw.messageType with
    | taskAssignment =>
        simp only [parsePayload, htype, bind_eq_ok, pure_eq_ok] at hparse
        obtain ⟨payload, -, _, htask, -, -, -, -, hmessage⟩ := hparse
        obtain rfl := DecodedMessage.taskAssignment.inj hmessage
        exact htask
    | _ => simp [parsePayload, htype] at hparse
  simp only [validateAssignment, bind_eq_ok, ensure_eq_ok] at hvalid
  obtain ⟨-, -, -, -, -, -, -, -, -, hmetadata, -⟩ := hvalid
  exact ⟨htask, hmetadata.2.2.2.1, hmetadata.2.2.2.2⟩

end AnvilRun.AssignmentChecks
