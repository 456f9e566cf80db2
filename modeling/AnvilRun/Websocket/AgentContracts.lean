import AnvilRun.Fallible
import AnvilRun.Json
import AnvilRun.TaskStatus
import AnvilRun.Utf8

namespace AnvilRun.AgentContracts

open AnvilRun.Fallible

/-! Values of `serde_json` -/

inductive Value where
  | null
  | bool (value : Bool)
  | number (value : Rat)
  | string (value : List Char)
  | array (items : List Value)
  | object (members : List (List Char × Value))

namespace Value

mutual

/-- `serde_json::from_str` on the text of a document. A lone surrogate is no character of a
string, and its escape is an error. A number that is not finite is written as `null`. -/
def ofJson : Json → Option Value
  | .null => some .null
  | .bool b => some (.bool b)
  | .number (.finite q) => some (.number q)
  | .number _ => some .null
  | .string s => s.toChars?.map .string
  | .array items => (ofItems items).map .array
  | .object members => (ofMembers members).map .object

def ofItems : List Json → Option (List Value)
  | [] => some []
  | item :: items => do
      let item ← ofJson item
      let items ← ofItems items
      return item :: items

def ofMembers : List (JsString × Json) → Option (List (List Char × Value))
  | [] => some []
  | (key, value) :: members => do
      let key ← key.toChars?
      let value ← ofJson value
      let members ← ofMembers members
      return (key, value) :: members

end

end Value

/-- Why a message is rejected: an error of `serde`, or one with a text of this crate. -/
inductive ParseError where
  | serde
  | invalid (message : String)
  deriving DecidableEq

abbrev Result := Except ParseError

/-! What `derive(Deserialize)` makes of the fields -/

/-- The fields of a struct, none of them unknown. -/
def structFields (known : List String) : Value → Result (List (List Char × Value))
  | .object members =>
      if members.all (fun field => known.any (fun name => name.toList = field.1)) then .ok members
      else .error .serde
  | _ => .error .serde

variable {α : Type}

def lookup (fields : List (List Char × Value)) (name : String) : Option Value :=
  (fields.reverse.find? (fun field => field.1 = name.toList)).map Prod.snd

def requiredField (deserialize : Value → Result α) (fields : List (List Char × Value)) (name : String) :
    Result α := do
  let value ← require (lookup fields name) .serde
  deserialize value

def optionalField (deserialize : Value → Result α) (fields : List (List Char × Value)) (name : String) :
    Result (Option α) :=
  match lookup fields name with
  | none | some .null => .ok none
  | some value => some <$> deserialize value

def string : Value → Result (List Char)
  | .string s => .ok s
  | _ => .error .serde

/-- A number that `JSON.stringify` writes has no fraction if it is a whole number. -/
def u64 : Value → Result Nat
  | .number q => if q.den = 1 ∧ 0 ≤ q.num ∧ q.num < 2 ^ 64 then .ok q.num.toNat else .error .serde
  | _ => .error .serde

def boolean : Value → Result Bool
  | .bool b => .ok b
  | _ => .error .serde

def vec (deserialize : Value → Result α) : Value → Result (List α)
  | .array items => items.mapM deserialize
  | _ => .error .serde

def map : Value → Result (List (List Char × Value))
  | .object members => .ok members
  | _ => .error .serde

/-- A variant of an enum without data, by its name. -/
def variant (all : List α) (name : α → String) (value : Value) : Result α := do
  let s ← string value
  require (all.find? (fun a => (name a).toList = s)) .serde

/-! The payloads for the agent -/

def statuses : List BuildTaskStatus :=
  [.created, .waitingAgent, .queued, .dispatched, .preparing, .running, .uploading, .succeeded,
    .failed, .canceling, .canceled, .agentLost]

def statusName : BuildTaskStatus → String
  | .created => "CREATED"
  | .waitingAgent => "WAITING_AGENT"
  | .queued => "QUEUED"
  | .dispatched => "DISPATCHED"
  | .preparing => "PREPARING"
  | .running => "RUNNING"
  | .uploading => "UPLOADING"
  | .succeeded => "SUCCEEDED"
  | .failed => "FAILED"
  | .canceling => "CANCELING"
  | .canceled => "CANCELED"
  | .agentLost => "AGENT_LOST"

def status : Value → Result BuildTaskStatus :=
  variant statuses statusName

def isAgentReportable : BuildTaskStatus → Bool
  | .preparing | .running | .uploading => true
  | _ => false

def isTerminal : BuildTaskStatus → Bool
  | .succeeded | .failed | .canceled => true
  | _ => false

structure AgentRegisteredPayload where
  agentId : List Char
  agentName : List Char
  heartbeatIntervalSeconds : Nat
  heartbeatTimeoutSeconds : Nat
  serverTime : List Char

def agentRegisteredPayload (value : Value) : Result AgentRegisteredPayload := do
  let fields ← structFields ["agentId", "agentName", "heartbeatIntervalSeconds",
    "heartbeatTimeoutSeconds", "serverTime"] value
  let agentId ← requiredField string fields "agentId"
  let agentName ← requiredField string fields "agentName"
  let heartbeatIntervalSeconds ← requiredField u64 fields "heartbeatIntervalSeconds"
  let heartbeatTimeoutSeconds ← requiredField u64 fields "heartbeatTimeoutSeconds"
  let serverTime ← requiredField string fields "serverTime"
  return ⟨agentId, agentName, heartbeatIntervalSeconds, heartbeatTimeoutSeconds, serverTime⟩

structure TaskAvailablePayload where
  agentId : List Char
  queuedTaskCount : Option Nat

def taskAvailablePayload (value : Value) : Result TaskAvailablePayload := do
  let fields ← structFields ["agentId", "queuedTaskCount"] value
  let agentId ← requiredField string fields "agentId"
  let queuedTaskCount ← optionalField u64 fields "queuedTaskCount"
  return ⟨agentId, queuedTaskCount⟩

structure TaskLogAckPayload where
  taskId : List Char
  acknowledgedSequence : Nat
  persistedOffset : Nat

def taskLogAckPayload (value : Value) : Result TaskLogAckPayload := do
  let fields ← structFields ["taskId", "acknowledgedSequence", "persistedOffset"] value
  let taskId ← requiredField string fields "taskId"
  let acknowledgedSequence ← requiredField u64 fields "acknowledgedSequence"
  let persistedOffset ← requiredField u64 fields "persistedOffset"
  return ⟨taskId, acknowledgedSequence, persistedOffset⟩

structure TaskArtifactManifestAckPayload where
  taskId : List Char
  accepted : Bool
  artifactCount : Nat
  artifactBytes : Nat

def taskArtifactManifestAckPayload (value : Value) : Result TaskArtifactManifestAckPayload := do
  let fields ← structFields ["taskId", "accepted", "artifactCount", "artifactBytes"] value
  let taskId ← requiredField string fields "taskId"
  let accepted ← requiredField boolean fields "accepted"
  let artifactCount ← requiredField u64 fields "artifactCount"
  let artifactBytes ← requiredField u64 fields "artifactBytes"
  return ⟨taskId, accepted, artifactCount, artifactBytes⟩

inductive TaskRecoveryAction where
  | resume | cancel | abandon
  deriving DecidableEq

def actionName : TaskRecoveryAction → String
  | .resume => "RESUME"
  | .cancel => "CANCEL"
  | .abandon => "ABANDON"

structure TaskRecoveryPayload where
  taskId : List Char
  action : TaskRecoveryAction
  status : Option BuildTaskStatus
  acknowledgedLogSequence : Nat
  recoveryDeadlineAt : Option (List Char)
  reason : Option (List Char)

def taskRecoveryPayload (value : Value) : Result TaskRecoveryPayload := do
  let fields ← structFields ["taskId", "action", "status", "acknowledgedLogSequence",
    "recoveryDeadlineAt", "reason"] value
  let taskId ← requiredField string fields "taskId"
  let action ← requiredField (variant [.resume, .cancel, .abandon] actionName) fields "action"
  let status ← optionalField status fields "status"
  let acknowledgedLogSequence ← requiredField u64 fields "acknowledgedLogSequence"
  let recoveryDeadlineAt ← optionalField string fields "recoveryDeadlineAt"
  let reason ← optionalField string fields "reason"
  return ⟨taskId, action, status, acknowledgedLogSequence, recoveryDeadlineAt, reason⟩

structure TaskResultAckPayload where
  taskId : List Char
  status : BuildTaskStatus
  acknowledgedAt : List Char

def taskResultAckPayload (value : Value) : Result TaskResultAckPayload := do
  let fields ← structFields ["taskId", "status", "acknowledgedAt"] value
  let taskId ← requiredField string fields "taskId"
  let status ← requiredField status fields "status"
  let acknowledgedAt ← requiredField string fields "acknowledgedAt"
  return ⟨taskId, status, acknowledgedAt⟩

structure TaskGitSource where
  url : List Char
  branch : List Char

def taskGitSource (value : Value) : Result TaskGitSource := do
  let fields ← structFields ["url", "branch"] value
  let url ← requiredField string fields "url"
  let branch ← requiredField string fields "branch"
  return ⟨url, branch⟩

structure TaskInputFileAssignment where
  fileId : List Char
  fieldName : List Char
  fileName : List Char
  size : Nat
  sha256 : List Char
  targetRelativePath : List Char

def taskInputFileAssignment (value : Value) : Result TaskInputFileAssignment := do
  let fields ← structFields ["fileId", "fieldName", "fileName", "size", "sha256",
    "targetRelativePath"] value
  let fileId ← requiredField string fields "fileId"
  let fieldName ← requiredField string fields "fieldName"
  let fileName ← requiredField string fields "fileName"
  let size ← requiredField u64 fields "size"
  let sha256 ← requiredField string fields "sha256"
  let targetRelativePath ← requiredField string fields "targetRelativePath"
  return ⟨fileId, fieldName, fileName, size, sha256, targetRelativePath⟩

structure TaskAssignmentPayload where
  taskId : List Char
  leaseToken : List Char
  leaseExpiresAt : List Char
  agentId : List Char
  projectId : List Char
  buildTemplateId : List Char
  git : TaskGitSource
  command : List Char
  artifactDir : List Char
  timeoutSeconds : Nat
  config : List (List Char × Value)
  inputFiles : List TaskInputFileAssignment
  sensitiveConfigKeys : List (List Char)
  interactiveInputEnabled : Bool

/-- Without the field the list is empty. -/
def inputFilesField (fields : List (List Char × Value)) : Result (List TaskInputFileAssignment) :=
  match lookup fields "inputFiles" with
  | none => .ok []
  | some value => vec taskInputFileAssignment value

def taskAssignmentPayload (value : Value) : Result TaskAssignmentPayload := do
  let fields ← structFields ["taskId", "leaseToken", "leaseExpiresAt", "agentId", "projectId",
    "buildTemplateId", "git", "command", "artifactDir", "timeoutSeconds", "config", "inputFiles",
    "sensitiveConfigKeys", "interactiveInputEnabled"] value
  let taskId ← requiredField string fields "taskId"
  let leaseToken ← requiredField string fields "leaseToken"
  let leaseExpiresAt ← requiredField string fields "leaseExpiresAt"
  let agentId ← requiredField string fields "agentId"
  let projectId ← requiredField string fields "projectId"
  let buildTemplateId ← requiredField string fields "buildTemplateId"
  let git ← requiredField taskGitSource fields "git"
  let command ← requiredField string fields "command"
  let artifactDir ← requiredField string fields "artifactDir"
  let timeoutSeconds ← requiredField u64 fields "timeoutSeconds"
  let config ← requiredField map fields "config"
  let inputFiles ← inputFilesField fields
  let sensitiveConfigKeys ← requiredField (vec string) fields "sensitiveConfigKeys"
  let interactiveInputEnabled ← requiredField boolean fields "interactiveInputEnabled"
  return ⟨taskId, leaseToken, leaseExpiresAt, agentId, projectId, buildTemplateId, git, command,
    artifactDir, timeoutSeconds, config, inputFiles, sensitiveConfigKeys, interactiveInputEnabled⟩

structure TaskCancelPayload where
  taskId : List Char
  leaseToken : List Char
  requestedAt : List Char
  reason : Option (List Char)

def taskCancelPayload (value : Value) : Result TaskCancelPayload := do
  let fields ← structFields ["taskId", "leaseToken", "requestedAt", "reason"] value
  let taskId ← requiredField string fields "taskId"
  let leaseToken ← requiredField string fields "leaseToken"
  let requestedAt ← requiredField string fields "requestedAt"
  let reason ← optionalField string fields "reason"
  return ⟨taskId, leaseToken, requestedAt, reason⟩

structure TaskInputPayload where
  taskId : List Char
  leaseToken : List Char
  inputId : List Char
  text : List Char
  sensitive : Bool
  appendNewline : Bool
  sentAt : List Char

def taskInputPayload (value : Value) : Result TaskInputPayload := do
  let fields ← structFields ["taskId", "leaseToken", "inputId", "text", "sensitive",
    "appendNewline", "sentAt"] value
  let taskId ← requiredField string fields "taskId"
  let leaseToken ← requiredField string fields "leaseToken"
  let inputId ← requiredField string fields "inputId"
  let text ← requiredField string fields "text"
  let sensitive ← requiredField boolean fields "sensitive"
  let appendNewline ← requiredField boolean fields "appendNewline"
  let sentAt ← requiredField string fields "sentAt"
  return ⟨taskId, leaseToken, inputId, text, sensitive, appendNewline, sentAt⟩

structure AgentTokenRevokedPayload where
  agentId : List Char
  revokedAt : List Char
  reason : Option (List Char)

def agentTokenRevokedPayload (value : Value) : Result AgentTokenRevokedPayload := do
  let fields ← structFields ["agentId", "revokedAt", "reason"] value
  let agentId ← requiredField string fields "agentId"
  let revokedAt ← requiredField string fields "revokedAt"
  let reason ← optionalField string fields "reason"
  return ⟨agentId, revokedAt, reason⟩

/-! The checks -/

def isAsciiAlphanumeric (b : UInt8) : Bool :=
  decide (48 ≤ b ∧ b ≤ 57) || decide (65 ≤ b ∧ b ≤ 90) || decide (97 ≤ b ∧ b ≤ 122)

def isIdByte (b : UInt8) : Bool :=
  isAsciiAlphanumeric b || b == 95 || b == 45

def validId (value : List Char) (field : String) : Result Unit :=
  let bytes := Utf8.encode value
  ensure (bytes ≠ [] ∧ bytes.length ≤ 128 ∧ bytes.all isIdByte)
    (.invalid (field ++ " has invalid protocol id"))

def validLease (value : List Char) : Result Unit :=
  let bytes := Utf8.encode value
  ensure (16 ≤ bytes.length ∧ bytes.length ≤ 256 ∧ bytes.all isIdByte)
    (.invalid "leaseToken has invalid format")

def validTask (taskId leaseToken : List Char) : Result Unit := do
  validId taskId "taskId"
  validLease leaseToken

def isAsciiHexdigit (b : UInt8) : Bool :=
  decide (48 ≤ b ∧ b ≤ 57) || decide (65 ≤ b ∧ b ≤ 70) || decide (97 ≤ b ∧ b ≤ 102)

/-- A byte by its index, in a text that is known to be long enough. -/
def byteAt (bytes : List UInt8) (index : Nat) : UInt8 :=
  bytes.getD index 0

def isUuidDash (index : Nat) : Bool :=
  [8, 13, 18, 23].contains index

def validUuid (value : List Char) (field : String) : Result Unit :=
  let bytes := Utf8.encode value
  let version := byteAt bytes 14
  let variant := byteAt bytes 19
  ensure (bytes.length = 36 ∧ [8, 13, 18, 23].all (fun index => byteAt bytes index == 45) ∧
    bytes.zipIdx.all (fun entry => isUuidDash entry.2 || isAsciiHexdigit entry.1) ∧
    (49 ≤ version ∧ version ≤ 53) ∧
    (56 ≤ variant ∧ variant ≤ 57 ∨ 97 ≤ variant ∧ variant ≤ 98 ∨ 65 ≤ variant ∧ variant ≤ 66))
    (.invalid (field ++ " has invalid UUID"))

def validTaskInputText (value : List Char) : Result Unit :=
  ensure ((Utf8.encode value).length ≤ 4096 ∧
    ¬ value.any (fun c => decide (c.toNat < 0x20 ∨ 0x7f ≤ c.toNat ∧ c.toNat ≤ 0x9f)))
    (.invalid "task input text is invalid")

def maxSafeInteger : Nat := 9007199254740991

def isAsciiDigit (b : UInt8) : Bool :=
  decide (48 ≤ b ∧ b ≤ 57)

/-- `decimal_digit`, with 10 for a byte that is no digit. -/
def decimalDigit (b : UInt8) : Nat :=
  if isAsciiDigit b then b.toNat - 48 else 10

def daysInMonth (year month : Nat) : Nat :=
  let leapYear := decide (year % 4 = 0 ∧ year % 100 ≠ 0 ∨ year % 400 = 0)
  if [1, 3, 5, 7, 8, 10, 12].contains month then 31
  else if month = 2 then if leapYear then 29 else 28
  else if [4, 6, 9, 11].contains month then 30
  else 0

/-- The end of a timestamp, from its byte 19 on. -/
def validFraction (bytes : List UInt8) : Bool :=
  if bytes.length = 20 then byteAt bytes 19 == 90
  else
    let count := bytes.length - 21
    byteAt bytes 19 == 46 && byteAt bytes (bytes.length - 1) == 90 &&
      decide (1 ≤ count ∧ count ≤ 9) && ((bytes.drop 20).take count).all isAsciiDigit

def validIso8601Utc (value : List Char) : Bool :=
  let bytes := Utf8.encode value
  let digit := fun index => decimalDigit (byteAt bytes index)
  let year := digit 0 * 1000 + digit 1 * 100 + digit 2 * 10 + digit 3
  let month := digit 5 * 10 + digit 6
  let day := digit 8 * 10 + digit 9
  let hour := digit 11 * 10 + digit 12
  let minute := digit 14 * 10 + digit 15
  let second := digit 17 * 10 + digit 18
  decide (20 ≤ bytes.length) &&
    (byteAt bytes 4 == 45 && byteAt bytes 7 == 45 && byteAt bytes 10 == 84 &&
      byteAt bytes 13 == 58 && byteAt bytes 16 == 58) &&
    validFraction bytes &&
    [0, 1, 2, 3, 5, 6, 8, 9, 11, 12, 14, 15, 17, 18].all (fun index =>
      isAsciiDigit (byteAt bytes index)) &&
    decide (0 < daysInMonth year month ∧ 1 ≤ day ∧ day ≤ daysInMonth year month ∧ hour ≤ 23 ∧
      minute ≤ 59 ∧ second ≤ 59)

def validTimestamp (value : List Char) (field : String) : Result Unit :=
  ensure (validIso8601Utc value) (.invalid (field ++ " must be ISO 8601 UTC"))

def validSafeNonNegative (value : Nat) (field : String) : Result Unit :=
  ensure (value ≤ maxSafeInteger) (.invalid (field ++ " exceeds JavaScript safe integer range"))

/-- The text before the first `://` and the text behind it. -/
def splitScheme : List Char → Option (List Char × List Char)
  | [] => none
  | c :: s =>
      if "://".toList.isPrefixOf (c :: s) then some ([], (c :: s).drop 3)
      else (splitScheme s).map (fun parts => (c :: parts.1, parts.2))

/-- The text before the last `@`. -/
def beforeAt : List Char → Option (List Char)
  | [] => none
  | c :: s =>
      match beforeAt s with
      | some init => some (c :: init)
      | none => if c = '@' then some [] else none

def gitUrlHasForbiddenUserInfo (url : List Char) : Bool :=
  match splitScheme url with
  | none => false
  | some (scheme, rest) =>
      let authority := rest.takeWhile (fun c => !(['/', '?', '#'].contains c))
      match beforeAt authority with
      | some userInfo => !(scheme.map Char.toLower == "ssh".toList && userInfo == "git".toList)
      | none => false

/-! The messages for the agent -/

inductive MessageType where
  | agentRegistered | taskAvailable | taskLogAck | taskArtifactManifestAck | taskRecovery
  | taskResultAck | taskAssignment | taskCancel | taskInput | agentTokenRevoked
  deriving DecidableEq

def messageTypes : List MessageType :=
  [.agentRegistered, .taskAvailable, .taskLogAck, .taskArtifactManifestAck, .taskRecovery,
    .taskResultAck, .taskAssignment, .taskCancel, .taskInput, .agentTokenRevoked]

def messageTypeName : MessageType → String
  | .agentRegistered => "agent.registered"
  | .taskAvailable => "task.available"
  | .taskLogAck => "task.log.ack"
  | .taskArtifactManifestAck => "task.artifact-manifest-ack"
  | .taskRecovery => "task.recovery"
  | .taskResultAck => "task.result.ack"
  | .taskAssignment => "task.assignment"
  | .taskCancel => "task.cancel"
  | .taskInput => "task.input"
  | .agentTokenRevoked => "agent.token.revoked"

inductive ProtocolVersion where
  | v1
  deriving DecidableEq

/-- A number of one byte that is the number of a version. -/
def protocolVersion (value : Value) : Result ProtocolVersion := do
  let number ← u64 value
  ensure (number < 256) .serde
  if number = 1 then return .v1 else .error .serde

structure ProtocolEnvelope where
  id : List Char
  messageType : MessageType
  timestamp : List Char
  protocolVersion : ProtocolVersion
  payload : Value

def protocolEnvelope (value : Value) : Result ProtocolEnvelope := do
  let fields ← structFields ["id", "type", "timestamp", "protocolVersion", "payload"] value
  let id ← requiredField string fields "id"
  let messageType ← requiredField (variant messageTypes messageTypeName) fields "type"
  let timestamp ← requiredField string fields "timestamp"
  let version ← requiredField protocolVersion fields "protocolVersion"
  let payload ← requiredField .ok fields "payload"
  return ⟨id, messageType, timestamp, version, payload⟩

structure ProtocolEnvelopeTyped (α : Type) where
  id : List Char
  messageType : MessageType
  timestamp : List Char
  protocolVersion : ProtocolVersion
  payload : α

inductive DecodedMessage where
  | agentRegistered (message : ProtocolEnvelopeTyped AgentRegisteredPayload)
  | taskAvailable (message : ProtocolEnvelopeTyped TaskAvailablePayload)
  | taskLogAck (message : ProtocolEnvelopeTyped TaskLogAckPayload)
  | taskArtifactManifestAck (message : ProtocolEnvelopeTyped TaskArtifactManifestAckPayload)
  | taskRecovery (message : ProtocolEnvelopeTyped TaskRecoveryPayload)
  | taskResultAck (message : ProtocolEnvelopeTyped TaskResultAckPayload)
  | taskAssignment (message : ProtocolEnvelopeTyped TaskAssignmentPayload)
  | taskCancel (message : ProtocolEnvelopeTyped TaskCancelPayload)
  | taskInput (message : ProtocolEnvelopeTyped TaskInputPayload)
  | agentTokenRevoked (message : ProtocolEnvelopeTyped AgentTokenRevokedPayload)

def typed (raw : ProtocolEnvelope) (payload : α) : ProtocolEnvelopeTyped α :=
  ⟨raw.id, raw.messageType, raw.timestamp, raw.protocolVersion, payload⟩

def validOptional (check : List Char → Result Unit) : Option (List Char) → Result Unit
  | some value => check value
  | none => .ok ()

/-- The branches of `parse_message` for the messages to the agent. -/
def parsePayload (raw : ProtocolEnvelope) : Result DecodedMessage :=
  match raw.messageType with
  | .agentRegistered => do
      let value ← agentRegisteredPayload raw.payload
      validTimestamp value.serverTime "serverTime"
      return .agentRegistered (typed raw value)
  | .taskAvailable => do
      let value ← taskAvailablePayload raw.payload
      return .taskAvailable (typed raw value)
  | .taskLogAck => do
      let value ← taskLogAckPayload raw.payload
      validId value.taskId "taskId"
      validSafeNonNegative value.acknowledgedSequence "acknowledgedSequence"
      validSafeNonNegative value.persistedOffset "persistedOffset"
      return .taskLogAck (typed raw value)
  | .taskArtifactManifestAck => do
      let value ← taskArtifactManifestAckPayload raw.payload
      validId value.taskId "taskId"
      validSafeNonNegative value.artifactCount "artifactCount"
      validSafeNonNegative value.artifactBytes "artifactBytes"
      return .taskArtifactManifestAck (typed raw value)
  | .taskRecovery => do
      let value ← taskRecoveryPayload raw.payload
      validId value.taskId "taskId"
      validSafeNonNegative value.acknowledgedLogSequence "acknowledgedLogSequence"
      ensure (¬ (value.action ≠ .abandon ∧ value.status = none))
        (.invalid "RESUME or CANCEL recovery requires status")
      ensure (value.status.all isAgentReportable)
        (.invalid "task recovery status must be agent-reportable")
      validOptional (fun deadline => validTimestamp deadline "recoveryDeadlineAt")
        value.recoveryDeadlineAt
      return .taskRecovery (typed raw value)
  | .taskResultAck => do
      let value ← taskResultAckPayload raw.payload
      validId value.taskId "taskId"
      ensure (isTerminal value.status) (.invalid "task.result.ack status must be terminal")
      validTimestamp value.acknowledgedAt "acknowledgedAt"
      return .taskResultAck (typed raw value)
  | .taskAssignment => do
      let value ← taskAssignmentPayload raw.payload
      validTask value.taskId value.leaseToken
      validTimestamp value.leaseExpiresAt "leaseExpiresAt"
      ensure (¬ gitUrlHasForbiddenUserInfo value.git.url) (.invalid "Git credentials are forbidden")
      return .taskAssignment (typed raw value)
  | .taskCancel => do
      let value ← taskCancelPayload raw.payload
      validTask value.taskId value.leaseToken
      validTimestamp value.requestedAt "requestedAt"
      return .taskCancel (typed raw value)
  | .taskInput => do
      let value ← taskInputPayload raw.payload
      validTask value.taskId value.leaseToken
      validUuid value.inputId "inputId"
      validTaskInputText value.text
      ensure value.appendNewline (.invalid "appendNewline must be true")
      validTimestamp value.sentAt "sentAt"
      return .taskInput (typed raw value)
  | .agentTokenRevoked => do
      let value ← agentTokenRevokedPayload raw.payload
      validTimestamp value.revokedAt "revokedAt"
      return .agentTokenRevoked (typed raw value)

def parseMessage (value : Value) : Result DecodedMessage := do
  let raw ← protocolEnvelope value
  validId raw.id "id"
  validTimestamp raw.timestamp "timestamp"
  parsePayload raw

end AnvilRun.AgentContracts
