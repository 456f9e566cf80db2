import AnvilRun.FormSchema.FieldTypes
import AnvilRun.JsValue

namespace AnvilRun.Websocket

open AnvilRun.Form
open AnvilRun.ValidationPrimitives
open JsString

inductive ProtocolMessageIssueCode where
  | messageNotObject | unknownProperty | idInvalid | typeInvalid | timestampInvalid
  | protocolVersionInvalid | payloadInvalid | propertyMissing | propertyInvalid
  | taskIdInvalid | leaseTokenInvalid | gitCredentialsForbidden | taskInputInvalid
  | taskInputTooLarge
  deriving DecidableEq

structure ProtocolMessageIssue where
  code : ProtocolMessageIssueCode
  path : List PathSegment
  message : JsString
  deriving DecidableEq

abbrev Path := List PathSegment
abbrev Issues := List ProtocolMessageIssue

/-- An issue, unless the check is passed. -/
def issueUnless (passed : Bool) (code : ProtocolMessageIssueCode) (path : Path)
    (message : JsString) : Issues :=
  if passed then [] else [⟨code, path, message⟩]

@[simp]
theorem issueUnless_eq_nil {passed : Bool} {code : ProtocolMessageIssueCode} {path : Path}
    {message : JsString} : issueUnless passed code path message = [] ↔ passed = true := by
  cases passed with
  | true => exact iff_of_true rfl rfl
  | false => exact iff_of_false (List.cons_ne_nil _ _) Bool.false_ne_true

/-! The primitives, on any value -/

def isPlainObject : JsValue → Bool
  | .object _ _ => true
  | _ => false

def isString : JsValue → Bool
  | .string _ => true
  | _ => false

/-- The check of a string. Other values do not pass. -/
def stringWith (p : JsString → Bool) : JsValue → Bool
  | .string s => p s
  | _ => false

def isFiniteNumber : JsValue → Bool
  | .number (.finite _) => true
  | _ => false

def isInteger : JsValue → Bool
  | .number n => n.isSafeInteger
  | _ => false

def isNonNegativeInteger : JsValue → Bool
  | .number (.finite q) => isInteger (.number (.finite q)) && decide (0 ≤ q)
  | _ => false

def isPlainText (s : JsString) : Bool :=
  !containsControlCharacters s && !looksLikeMarkup s

def describeValueType : JsValue → JsString
  | .null => ofString "null"
  | .undefined => ofString "undefined"
  | .array items => ofString "array(length=" ++ natToString items.length ++ ofString ")"
  | .string s => ofString "string(length=" ++ natToString s.length ++ ofString ")"
  | .object _ _ => ofString "object"
  | .number _ => ofString "number"
  | .bool _ => ofString "boolean"
  | .other typeName => typeName

/-- The end of a timestamp: an optional fraction, and `Z`. -/
def matchesFraction : JsString → Bool
  | [] => false
  | u :: rest =>
      (u == 90 && rest.isEmpty) ||
        (u == 46 && rest.getLast? == some 90 && decide (1 ≤ rest.dropLast.length) &&
          decide (rest.dropLast.length ≤ 9) && rest.dropLast.all isDigitUnit)

/-- `ISO_8601_UTC_PATTERN`: the six groups of digits. -/
def isoGroups : JsString → Option (Nat × Nat × Nat × Nat × Nat × Nat)
  | y1 :: y2 :: y3 :: y4 :: s1 :: m1 :: m2 :: s2 :: d1 :: d2 :: s3 :: h1 :: h2 :: s4 :: n1 :: n2 ::
      s5 :: e1 :: e2 :: rest =>
      if [y1, y2, y3, y4, m1, m2, d1, d2, h1, h2, n1, n2, e1, e2].all isDigitUnit &&
          (s1 == 45 && s2 == 45 && s3 == 84 && s4 == 58 && s5 == 58) && matchesFraction rest then
        some (digitsNumber [y1, y2, y3, y4], digitsNumber [m1, m2], digitsNumber [d1, d2],
          digitsNumber [h1, h2], digitsNumber [n1, n2], digitsNumber [e1, e2])
      else none
  | _ => none

def isIso8601UtcString (s : JsString) : Bool :=
  match isoGroups s with
  | some (year, month, day, hour, minute, second) =>
      isValidCalendarDate year month day && decide (hour ≤ 23 ∧ minute ≤ 59 ∧ second ≤ 59)
  | none => false

def isProtocolUnit (u : UInt16) : Bool :=
  isLetterUnit u || isDigitUnit u || u == 95 || u == 45

/-- `PROTOCOL_ID_PATTERN`. -/
def matchesProtocolId (s : JsString) : Bool :=
  decide (1 ≤ s.length) && decide (s.length ≤ 128) && s.all isProtocolUnit

/-- `LEASE_TOKEN_PATTERN`. -/
def matchesLeaseToken (s : JsString) : Bool :=
  decide (16 ≤ s.length) && decide (s.length ≤ 256) && s.all isProtocolUnit

/-- `/^[a-f0-9]{64}$/`. -/
def matchesSha256 (s : JsString) : Bool :=
  s.length == 64 && s.all isHexUnit

def isMemberOf (allowed : List String) : JsValue → Bool :=
  stringWith (fun s => allowed.any (fun name => ofString name = s))

def agentReportableTaskStatuses : List String := ["PREPARING", "RUNNING", "UPLOADING"]
def terminalTaskStatuses : List String := ["SUCCEEDED", "FAILED", "CANCELED"]
def logStreams : List String := ["stdout", "stderr"]
def taskLogChunkMaxBytes : Nat := 64 * 1024
def taskInputMaxBytes : Nat := 4096

/-! The checks of properties -/

def objectValue (value : JsValue) (path : Path) (inside : Issues) : Issues :=
  if isPlainObject value then inside
  else [⟨.payloadInvalid, path, ofString "必须是对象，实际为 " ++ describeValueType value⟩]

def unknownProperties (value : JsValue) (allowed : List String) (path : Path) : Issues :=
  (value.objectKeys.filter (fun key => !allowed.any (fun name => ofString name = key))).map
    (fun key => ⟨.unknownProperty, path ++ [.name key],
      ofString "不允许的属性 " ++ ofChars (Json.quote key)⟩)

/-- The code of an issue with a property that may be missing. -/
def missingOr (code : ProtocolMessageIssueCode) (raw : JsValue) : ProtocolMessageIssueCode :=
  if raw.isUndefined then .propertyMissing else code

def stringProperty (value : JsValue) (key : String) (path : Path) (required plain : Bool) :
    Issues :=
  let raw := value.property (ofString key)
  if raw.isUndefined && !required then []
  else issueUnless (stringWith (fun s => !s.isEmpty && (!plain || isPlainText s)) raw)
    (if required then missingOr .propertyInvalid raw else .propertyInvalid)
    (path ++ [.name (ofString key)]) (ofString key ++ ofString " 必须是非空字符串")

def optionalText (value : JsValue) (key : String) (path : Path) : Issues :=
  let raw := value.property (ofString key)
  issueUnless (raw.isUndefined || stringWith isPlainText raw) .propertyInvalid
    (path ++ [.name (ofString key)]) (ofString key ++ ofString " 必须是纯文本字符串")

def isNullish : JsValue → Bool
  | .null | .undefined => true
  | _ => false

def idProperty (value : JsValue) (key : String) (path : Path) (nullable : Bool) : Issues :=
  let raw := value.property (ofString key)
  if nullable && isNullish raw then []
  else issueUnless (stringWith matchesProtocolId raw) (missingOr .idInvalid raw)
    (path ++ [.name (ofString key)])
    (ofString key ++ ofString " 必须是协议标识" ++ if nullable then ofString "或 null" else [])

def leaseProperty (value : JsValue) (path : Path) : Issues :=
  let raw := value.property (ofString "leaseToken")
  issueUnless (stringWith matchesLeaseToken raw) (missingOr .leaseTokenInvalid raw)
    (path ++ [.name (ofString "leaseToken")]) (ofString "leaseToken 格式非法")

def taskLease (value : JsValue) (path : Path) : Issues :=
  idProperty value "taskId" path false ++ leaseProperty value path

def isSafeRelativePath (s : JsString) : Bool :=
  isPlainText s && !(s.head? == some 47) && !(s.head? == some 92) && !s.contains 92 &&
    !s.contains 58 &&
    (s.splitOn 47).all (fun part => !part.isEmpty && part != [46] && part != [46, 46])

def relativePathProperty (value : JsValue) (key : String) (path : Path) : Issues :=
  let raw := value.property (ofString key)
  stringProperty value key path true true ++
    issueUnless (raw.isUndefined || stringWith isSafeRelativePath raw) .propertyInvalid
      (path ++ [.name (ofString key)]) (ofString key ++ ofString " 必须是安全的相对路径")

def timeProperty (value : JsValue) (key : String) (path : Path) : Issues :=
  let raw := value.property (ofString key)
  issueUnless (stringWith isIso8601UtcString raw) (missingOr .timestampInvalid raw)
    (path ++ [.name (ofString key)]) (ofString key ++ ofString " 必须是 ISO 8601 UTC 时间")

def isPositiveInteger : JsValue → Bool
  | .number (.finite q) => isNonNegativeInteger (.number (.finite q)) && decide (0 < q)
  | _ => false

def positiveInteger (value : JsValue) (key : String) (path : Path) : Issues :=
  issueUnless (isPositiveInteger (value.property (ofString key))) .propertyInvalid
    (path ++ [.name (ofString key)]) (ofString key ++ ofString " 必须是正整数")

def nonNegativeInteger (value : JsValue) (key : String) (path : Path) (required : Bool) : Issues :=
  let raw := value.property (ofString key)
  if raw.isUndefined && !required then []
  else issueUnless (isNonNegativeInteger raw)
    (if required then missingOr .propertyInvalid raw else .propertyInvalid)
    (path ++ [.name (ofString key)]) (ofString key ++ ofString " 必须是非负安全整数")

/-- The methods of arrays pass over an item that was never set. -/
def everyItem (p : JsValue → Bool) : JsValue → Bool
  | .array items => items.all (fun item => item.all p)
  | _ => false

def stringArray (value : JsValue) (key : String) (path : Path) : Issues :=
  let raw := value.property (ofString key)
  issueUnless (everyItem (stringWith (fun s => !s.isEmpty)) raw) (missingOr .propertyInvalid raw)
    (path ++ [.name (ofString key)]) (ofString key ++ ofString " 必须是非空字符串数组")

def optionalStringArray (value : JsValue) (key : String) (path : Path) : Issues :=
  let raw := value.property (ofString key)
  issueUnless
    (raw.isUndefined || everyItem (stringWith (fun s => !s.isEmpty && isPlainText s)) raw)
    .propertyInvalid (path ++ [.name (ofString key)])
    (ofString key ++ ofString " 必须是纯文本字符串数组")

def isBoolean : JsValue → Bool
  | .bool _ => true
  | _ => false

def booleanProperty (value : JsValue) (key : String) (path : Path) : Issues :=
  let raw := value.property (ofString key)
  issueUnless (isBoolean raw) (missingOr .propertyInvalid raw) (path ++ [.name (ofString key)])
    (ofString key ++ ofString " 必须是布尔值")

def tooLong (s : JsString) : Bool :=
  decide (taskInputMaxBytes < s.utf8Length)

/-- All the characters that are looked for lie below U+10000, so code units do for code points. -/
def taskInputText (s : JsString) : Bool :=
  !tooLong s && !s.any (fun u => decide (u < 0x20 ∨ 0x7f ≤ u ∧ u ≤ 0x9f))

def isTrue : JsValue → Bool
  | .bool b => b
  | _ => false

def inputIdProperty (value : JsValue) (path : Path) : Issues :=
  issueUnless (stringWith matchesUuid (value.property (ofString "inputId"))) .taskInputInvalid
    (path ++ [.name (ofString "inputId")]) (ofString "inputId 必须是 UUID")

def taskInputProperties (value : JsValue) (path : Path) : Issues :=
  inputIdProperty value path ++
  issueUnless (stringWith taskInputText (value.property (ofString "text")))
    (if stringWith tooLong (value.property (ofString "text")) then .taskInputTooLarge
      else .taskInputInvalid)
    (path ++ [.name (ofString "text")])
    (ofString "text 必须是 4096 字节以内且不含控制字符的单行文本") ++
  issueUnless (isBoolean (value.property (ofString "sensitive"))) .taskInputInvalid
    (path ++ [.name (ofString "sensitive")]) (ofString "sensitive 必须是布尔值") ++
  issueUnless (isTrue (value.property (ofString "appendNewline"))) .taskInputInvalid
    (path ++ [.name (ofString "appendNewline")]) (ofString "appendNewline 必须为 true") ++
  timeProperty value "sentAt" path

def sha256Property (value : JsValue) (path : Path) (message : String) : Issues :=
  issueUnless (stringWith matchesSha256 (value.property (ofString "sha256"))) .propertyInvalid
    (path ++ [.name (ofString "sha256")]) (ofString message)

/-! The parts of payloads -/

/-- A value that stands for an uploaded file. -/
def isFileValue (value : JsValue) : Bool :=
  decide (value.objectKeys.length = 4) && isString (value.property (ofString "fileId")) &&
    isString (value.property (ofString "fileName")) &&
    isFiniteNumber (value.property (ofString "size")) &&
    stringWith matchesSha256 (value.property (ofString "sha256"))

/-- The first argument is how many levels of objects may still follow, `2 - depth`. -/
def configValue : Nat → JsValue → Bool
  | levels, .object keys value =>
      isFileValue (.object keys value) ||
        match levels with
        | 0 => false
        | levels + 1 => keys.all (fun key => matchesFormFieldName key && configValue levels (value key))
  | _, .array items => items.all (fun item => item.all (fun v => isString v || isFiniteNumber v))
  | _, .number n => isFiniteNumber (.number n)
  | _, .null | _, .string _ | _, .bool _ => true
  | _, .undefined | _, .other _ => false

/-- The checks of the items of an array, with their places in it. -/
def eachItem (items : List (Option JsValue)) (check : Nat → JsValue → Issues) : Issues :=
  items.zipIdx.flatMap (fun item =>
    match item.1 with
    | some value => check item.2 value
    | none => [])

def inputFile (path : Path) (index : Nat) (file : JsValue) : Issues :=
  let itemPath := path ++ [.index index]
  objectValue file itemPath
    (unknownProperties file
      ["fileId", "fieldName", "fileName", "size", "sha256", "targetRelativePath"] itemPath ++
    idProperty file "fileId" itemPath false ++
    stringProperty file "fieldName" itemPath true true ++
    stringProperty file "fileName" itemPath true true ++
    nonNegativeInteger file "size" itemPath true ++
    sha256Property file itemPath "sha256 非法" ++
    relativePathProperty file "targetRelativePath" itemPath)

def inputFiles (raw : JsValue) (path : Path) : Issues :=
  match raw with
  | .undefined => []
  | .array items => eachItem items (inputFile path)
  | _ => [⟨.propertyInvalid, path, ofString "inputFiles 必须是数组"⟩]

def configObject (raw : JsValue) (path : Path) : Issues :=
  objectValue raw path
    (raw.objectKeys.flatMap (fun key =>
      issueUnless (matchesFormFieldName key && configValue 2 (raw.property key)) .propertyInvalid
        (path ++ [.name key]) (ofString "config 只能包含协议键名和 JSON 基础值")))

def isSchemeUnit (u : UInt16) : Bool :=
  isLetterUnit u || isDigitUnit u || u == 43 || u == 46 || u == 45

/-- What comes before the last `a`. -/
def beforeLast {α : Type} [DecidableEq α] (a : α) : List α → Option (List α)
  | [] => none
  | b :: l =>
      match beforeLast a l with
      | some init => some (b :: init)
      | none => if b = a then some [] else none

/-- Whether a unit ends the authority of a URL. -/
def endsAuthority (u : UInt16) : Bool :=
  u == 47 || u == 63 || u == 35

/-- The groups of the regular expression for the user information of a URL. The scheme ends at
its first colon, and the second group at the last `@` of the authority. -/
def gitUrlUserInfo (url : JsString) : Option (JsString × JsString) :=
  let scheme := url.takeWhile isSchemeUnit
  let rest := url.dropWhile isSchemeUnit
  if scheme.head?.any isLetterUnit && [58, 47, 47].isPrefixOf rest then
    (beforeLast 64 ((rest.drop 3).takeWhile (fun u => !endsAuthority u))).map
      (fun userInfo => (scheme, userInfo))
  else none

def gitCredentialsAllowed (url : JsString) : Bool :=
  match gitUrlUserInfo url with
  | none => true
  | some (scheme, userInfo) => asciiLower scheme == ofString "ssh" && userInfo == ofString "git"

def gitSource (raw : JsValue) (path : Path) : Issues :=
  let url := raw.property (ofString "url")
  objectValue raw path
    (unknownProperties raw ["url", "branch"] path ++
    stringProperty raw "url" path true true ++
    stringProperty raw "branch" path true true ++
    issueUnless (!isString url || stringWith gitCredentialsAllowed url) .gitCredentialsForbidden
      (path ++ [.name (ofString "url")]) (ofString "Git URL 不得包含凭据"))

def artifactFile (path : Path) (index : Nat) (file : JsValue) : Issues :=
  let filePath := path ++ [.index index]
  objectValue file filePath
    (unknownProperties file ["relativePath", "size", "sha256"] filePath ++
    relativePathProperty file "relativePath" filePath ++
    nonNegativeInteger file "size" filePath true ++
    sha256Property file filePath "sha256 必须是 64 位小写十六进制摘要")

def artifactFiles (raw : JsValue) (path : Path) : Issues :=
  match raw with
  | .array items => eachItem items (artifactFile path)
  | _ => [⟨.propertyInvalid, path, ofString "files 必须是数组"⟩]

/-! The payloads -/

inductive ServerToAgentMessageType where
  | agentRegistered | taskAvailable | taskLogAck | taskArtifactManifestAck | taskRecovery
  | taskResultAck | taskAssignment | taskCancel | taskInput | agentTokenRevoked
  deriving DecidableEq

namespace ServerToAgentMessageType

def all : List ServerToAgentMessageType :=
  [agentRegistered, taskAvailable, taskLogAck, taskArtifactManifestAck, taskRecovery,
    taskResultAck, taskAssignment, taskCancel, taskInput, agentTokenRevoked]

def name : ServerToAgentMessageType → String
  | agentRegistered => "agent.registered"
  | taskAvailable => "task.available"
  | taskLogAck => "task.log.ack"
  | taskArtifactManifestAck => "task.artifact-manifest-ack"
  | taskRecovery => "task.recovery"
  | taskResultAck => "task.result.ack"
  | taskAssignment => "task.assignment"
  | taskCancel => "task.cancel"
  | taskInput => "task.input"
  | agentTokenRevoked => "agent.token.revoked"

end ServerToAgentMessageType

inductive AgentToServerMessageType where
  | agentHello | agentHeartbeat | taskClaim | taskAccepted | taskStatus | taskLog
  | taskArtifactManifest | taskCompleted | taskFailed | taskCanceled | taskInputAck
  deriving DecidableEq

namespace AgentToServerMessageType

def all : List AgentToServerMessageType :=
  [agentHello, agentHeartbeat, taskClaim, taskAccepted, taskStatus, taskLog, taskArtifactManifest,
    taskCompleted, taskFailed, taskCanceled, taskInputAck]

def name : AgentToServerMessageType → String
  | agentHello => "agent.hello"
  | agentHeartbeat => "agent.heartbeat"
  | taskClaim => "task.claim"
  | taskAccepted => "task.accepted"
  | taskStatus => "task.status"
  | taskLog => "task.log"
  | taskArtifactManifest => "task.artifact-manifest"
  | taskCompleted => "task.completed"
  | taskFailed => "task.failed"
  | taskCanceled => "task.canceled"
  | taskInputAck => "task.input.ack"

end AgentToServerMessageType

/-- The type of a message to the agent. -/
def serverMessageType? (type : JsValue) : Option ServerToAgentMessageType :=
  ServerToAgentMessageType.all.find? (fun t => stringWith (fun s => ofString t.name = s) type)

/-- The type of a message to the server. -/
def agentMessageType? (type : JsValue) : Option AgentToServerMessageType :=
  AgentToServerMessageType.all.find? (fun t => stringWith (fun s => ofString t.name = s) type)

def statusProperty (value : JsValue) (path : Path) : Issues :=
  issueUnless (isMemberOf agentReportableTaskStatuses (value.property (ofString "status")))
    .propertyInvalid (path ++ [.name (ofString "status")])
    (ofString "status 必须是 Agent 可上报阶段")

def recoveryActions : List String := ["RESUME", "CANCEL", "ABANDON"]

def recoveryProperties (value : JsValue) (path : Path) : Issues :=
  let action := value.property (ofString "action")
  let status := value.property (ofString "status")
  issueUnless (isMemberOf recoveryActions action) .propertyInvalid
    (path ++ [.name (ofString "action")])
    (ofString "action 必须是 RESUME、CANCEL 或 ABANDON") ++
  issueUnless (!(isMemberOf ["RESUME", "CANCEL"] action && status.isUndefined)) .propertyMissing
    (path ++ [.name (ofString "status")]) (ofString "RESUME 或 CANCEL 必须包含 status") ++
  (if status.isUndefined then [] else statusProperty value path) ++
  nonNegativeInteger value "acknowledgedLogSequence" path true ++
  (if (value.property (ofString "recoveryDeadlineAt")).isUndefined then []
    else timeProperty value "recoveryDeadlineAt" path) ++
  optionalText value "reason" path

/-- The properties that a payload for the agent may have. -/
def serverPayloadProperties : ServerToAgentMessageType → List String
  | .agentRegistered =>
      ["agentId", "agentName", "heartbeatIntervalSeconds", "heartbeatTimeoutSeconds", "serverTime"]
  | .taskAvailable => ["agentId", "queuedTaskCount"]
  | .taskLogAck => ["taskId", "acknowledgedSequence", "persistedOffset"]
  | .taskArtifactManifestAck => ["taskId", "accepted", "artifactCount", "artifactBytes"]
  | .taskRecovery =>
      ["taskId", "action", "status", "acknowledgedLogSequence", "recoveryDeadlineAt", "reason"]
  | .taskResultAck => ["taskId", "status", "acknowledgedAt"]
  | .taskAssignment =>
      ["taskId", "leaseToken", "leaseExpiresAt", "agentId", "projectId", "buildTemplateId", "git",
        "command", "artifactDir", "timeoutSeconds", "config", "inputFiles", "sensitiveConfigKeys",
        "interactiveInputEnabled"]
  | .taskCancel => ["taskId", "leaseToken", "requestedAt", "reason"]
  | .taskInput =>
      ["taskId", "leaseToken", "inputId", "text", "sensitive", "appendNewline", "sentAt"]
  | .agentTokenRevoked => ["agentId", "revokedAt", "reason"]

def serverPayload (type : ServerToAgentMessageType) (value : JsValue) (path : Path) : Issues :=
  objectValue value path (unknownProperties value (serverPayloadProperties type) path ++
    match type with
    | .agentRegistered =>
        idProperty value "agentId" path false ++
        stringProperty value "agentName" path true true ++
        positiveInteger value "heartbeatIntervalSeconds" path ++
        positiveInteger value "heartbeatTimeoutSeconds" path ++
        timeProperty value "serverTime" path
    | .taskAvailable =>
        idProperty value "agentId" path false ++
        nonNegativeInteger value "queuedTaskCount" path false
    | .taskLogAck =>
        idProperty value "taskId" path false ++
        nonNegativeInteger value "acknowledgedSequence" path true ++
        nonNegativeInteger value "persistedOffset" path true
    | .taskArtifactManifestAck =>
        idProperty value "taskId" path false ++
        issueUnless (isBoolean (value.property (ofString "accepted"))) .propertyInvalid
          (path ++ [.name (ofString "accepted")]) (ofString "accepted 必须是布尔值") ++
        nonNegativeInteger value "artifactCount" path true ++
        nonNegativeInteger value "artifactBytes" path true
    | .taskRecovery => idProperty value "taskId" path false ++ recoveryProperties value path
    | .taskResultAck =>
        idProperty value "taskId" path false ++
        issueUnless (isMemberOf terminalTaskStatuses (value.property (ofString "status")))
          .propertyInvalid (path ++ [.name (ofString "status")])
          (ofString "status 必须是任务终态") ++
        timeProperty value "acknowledgedAt" path
    | .taskAssignment =>
        taskLease value path ++
        timeProperty value "leaseExpiresAt" path ++
        idProperty value "agentId" path false ++
        idProperty value "projectId" path false ++
        idProperty value "buildTemplateId" path false ++
        gitSource (value.property (ofString "git")) (path ++ [.name (ofString "git")]) ++
        stringProperty value "command" path true false ++
        relativePathProperty value "artifactDir" path ++
        positiveInteger value "timeoutSeconds" path ++
        configObject (value.property (ofString "config")) (path ++ [.name (ofString "config")]) ++
        inputFiles (value.property (ofString "inputFiles"))
          (path ++ [.name (ofString "inputFiles")]) ++
        stringArray value "sensitiveConfigKeys" path ++
        booleanProperty value "interactiveInputEnabled" path
    | .taskCancel =>
        taskLease value path ++
        timeProperty value "requestedAt" path ++
        optionalText value "reason" path
    | .taskInput => taskLease value path ++ taskInputProperties value path
    | .agentTokenRevoked =>
        idProperty value "agentId" path false ++
        timeProperty value "revokedAt" path ++
        optionalText value "reason" path)

def currentTask (value : JsValue) (path : Path) : Issues :=
  objectValue value path
    (unknownProperties value ["taskId", "leaseToken", "status", "lastLogSequence"] path ++
    taskLease value path ++
    statusProperty value path ++
    nonNegativeInteger value "lastLogSequence" path true)

def isWholeNumber : JsValue → Bool
  | .number (.finite q) => decide (q.den = 1)
  | _ => false

/-- The properties that a payload for the server may have. -/
def agentPayloadProperties : AgentToServerMessageType → List String
  | .agentHello =>
      ["agentId", "agentVersion", "hostname", "os", "arch", "workspaceRoot", "currentTask",
        "capabilities"]
  | .agentHeartbeat => ["agentId", "currentTaskId"]
  | .taskClaim => ["agentId", "taskId"]
  | .taskAccepted => ["taskId", "leaseToken", "acceptedAt"]
  | .taskStatus => ["taskId", "leaseToken", "status", "occurredAt", "reason", "sourceCommit"]
  | .taskLog => ["taskId", "leaseToken", "sequence", "stream", "chunk", "emittedAt"]
  | .taskArtifactManifest => ["taskId", "leaseToken", "artifactDir", "totalBytes", "files"]
  | .taskCompleted =>
      ["taskId", "leaseToken", "exitCode", "finishedAt", "artifactCount", "artifactBytes",
        "sourceCommit"]
  | .taskFailed => ["taskId", "leaseToken", "reason", "failedAt", "exitCode"]
  | .taskCanceled => ["taskId", "leaseToken", "canceledAt", "reason"]
  | .taskInputAck =>
      ["taskId", "leaseToken", "inputId", "accepted", "acknowledgedAt", "errorCode"]

def agentPayload (type : AgentToServerMessageType) (value : JsValue) (path : Path) : Issues :=
  objectValue value path (unknownProperties value (agentPayloadProperties type) path ++
    match type with
    | .agentHello =>
        idProperty value "agentId" path true ++
        stringProperty value "agentVersion" path true true ++
        stringProperty value "hostname" path true true ++
        stringProperty value "os" path true true ++
        stringProperty value "arch" path true true ++
        stringProperty value "workspaceRoot" path true true ++
        (if isNullish (value.property (ofString "currentTask")) then []
          else currentTask (value.property (ofString "currentTask"))
            (path ++ [.name (ofString "currentTask")])) ++
        optionalStringArray value "capabilities" path
    | .agentHeartbeat =>
        idProperty value "agentId" path false ++
        idProperty value "currentTaskId" path true ++
        issueUnless (value.objectKeys.contains (ofString "currentTaskId")) .propertyMissing
          (path ++ [.name (ofString "currentTaskId")]) (ofString "缺少 currentTaskId")
    | .taskClaim => idProperty value "agentId" path false ++ idProperty value "taskId" path true
    | .taskAccepted => taskLease value path ++ timeProperty value "acceptedAt" path
    | .taskStatus =>
        taskLease value path ++
        statusProperty value path ++
        timeProperty value "occurredAt" path ++
        optionalText value "reason" path ++
        optionalText value "sourceCommit" path
    | .taskLog =>
        taskLease value path ++
        positiveInteger value "sequence" path ++
        issueUnless (isMemberOf logStreams (value.property (ofString "stream"))) .propertyInvalid
          (path ++ [.name (ofString "stream")]) (ofString "stream 必须是 stdout 或 stderr") ++
        issueUnless (stringWith (fun s => decide (s.utf8Length ≤ taskLogChunkMaxBytes))
          (value.property (ofString "chunk"))) .propertyInvalid
          (path ++ [.name (ofString "chunk")]) (ofString "chunk 必须是字符串") ++
        timeProperty value "emittedAt" path
    | .taskArtifactManifest =>
        taskLease value path ++
        relativePathProperty value "artifactDir" path ++
        nonNegativeInteger value "totalBytes" path true ++
        artifactFiles (value.property (ofString "files")) (path ++ [.name (ofString "files")])
    | .taskCompleted =>
        taskLease value path ++
        issueUnless (isWholeNumber (value.property (ofString "exitCode")))
          (missingOr .propertyInvalid (value.property (ofString "exitCode")))
          (path ++ [.name (ofString "exitCode")]) (ofString "exitCode 必须是整数") ++
        timeProperty value "finishedAt" path ++
        nonNegativeInteger value "artifactCount" path true ++
        nonNegativeInteger value "artifactBytes" path true ++
        optionalText value "sourceCommit" path
    | .taskFailed =>
        taskLease value path ++
        stringProperty value "reason" path true true ++
        timeProperty value "failedAt" path ++
        issueUnless ((value.property (ofString "exitCode")).isUndefined ||
          isWholeNumber (value.property (ofString "exitCode"))) .propertyInvalid
          (path ++ [.name (ofString "exitCode")]) (ofString "exitCode 必须是整数")
    | .taskCanceled =>
        taskLease value path ++
        timeProperty value "canceledAt" path ++
        optionalText value "reason" path
    | .taskInputAck =>
        taskLease value path ++
        inputIdProperty value path ++
        booleanProperty value "accepted" path ++
        timeProperty value "acknowledgedAt" path ++
        optionalText value "errorCode" path)

/-! The envelope -/

def protocolEnvelopeProperties : List String :=
  ["id", "type", "timestamp", "protocolVersion", "payload"]

def isSupportedProtocolVersion : JsValue → Bool
  | .number n => decide (n = .finite 1)
  | _ => false

def typedPayload (type payload : JsValue) : Issues :=
  match serverMessageType? type, agentMessageType? type with
  | some type, _ => serverPayload type payload [.name (ofString "payload")]
  | none, some type => agentPayload type payload [.name (ofString "payload")]
  | none, none => []

def validateProtocolMessage (input : JsValue) : Except Issues JsValue :=
  let type := input.property (ofString "type")
  let timestamp := input.property (ofString "timestamp")
  let protocolVersion := input.property (ofString "protocolVersion")
  let payload := input.property (ofString "payload")
  if isPlainObject input = false then
    .error [⟨.messageNotObject, [], ofString "消息必须是对象，实际为 " ++ describeValueType input⟩]
  else
    let issues :=
      unknownProperties input protocolEnvelopeProperties [] ++
      idProperty input "id" [] false ++
      issueUnless ((serverMessageType? type).isSome || (agentMessageType? type).isSome)
        (missingOr .typeInvalid type) [.name (ofString "type")]
        (ofString "type 不是已知协议消息类型") ++
      issueUnless (stringWith isIso8601UtcString timestamp) (missingOr .timestampInvalid timestamp)
        [.name (ofString "timestamp")] (ofString "timestamp 必须是 ISO 8601 UTC 时间") ++
      issueUnless (isSupportedProtocolVersion protocolVersion)
        (missingOr .protocolVersionInvalid protocolVersion) [.name (ofString "protocolVersion")]
        (ofString "不支持该协议版本") ++
      objectValue payload [.name (ofString "payload")] (typedPayload type payload)
    if issues = [] then .ok input else .error issues

end AnvilRun.Websocket
