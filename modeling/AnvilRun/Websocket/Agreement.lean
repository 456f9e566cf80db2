import AnvilRun.Websocket.Fields

namespace AnvilRun.Websocket

open AnvilRun.AgentContracts
open AnvilRun.Fallible
open AnvilRun.ValidationPrimitives
open JsString

/-! A decoded message and the value that was sent -/

def statusText (status : BuildTaskStatus) : JsValue :=
  text (statusName status).toList

structure AgentRegisteredAgrees (value : JsValue) (payload : AgentRegisteredPayload) : Prop where
  agentId : prop value "agentId" = text payload.agentId
  agentName : prop value "agentName" = text payload.agentName
  heartbeatIntervalSeconds :
    prop value "heartbeatIntervalSeconds" = whole payload.heartbeatIntervalSeconds
  heartbeatTimeoutSeconds :
    prop value "heartbeatTimeoutSeconds" = whole payload.heartbeatTimeoutSeconds
  serverTime : prop value "serverTime" = text payload.serverTime

structure TaskAvailableAgrees (value : JsValue) (payload : TaskAvailablePayload) : Prop where
  agentId : prop value "agentId" = text payload.agentId
  queuedTaskCount : prop value "queuedTaskCount" = maybe whole payload.queuedTaskCount

structure TaskLogAckAgrees (value : JsValue) (payload : TaskLogAckPayload) : Prop where
  taskId : prop value "taskId" = text payload.taskId
  acknowledgedSequence : prop value "acknowledgedSequence" = whole payload.acknowledgedSequence
  persistedOffset : prop value "persistedOffset" = whole payload.persistedOffset

structure TaskArtifactManifestAckAgrees (value : JsValue)
    (payload : TaskArtifactManifestAckPayload) : Prop where
  taskId : prop value "taskId" = text payload.taskId
  accepted : prop value "accepted" = .bool payload.accepted
  artifactCount : prop value "artifactCount" = whole payload.artifactCount
  artifactBytes : prop value "artifactBytes" = whole payload.artifactBytes

structure TaskRecoveryAgrees (value : JsValue) (payload : TaskRecoveryPayload) : Prop where
  taskId : prop value "taskId" = text payload.taskId
  action : prop value "action" = text (actionName payload.action).toList
  status : prop value "status" = maybe statusText payload.status
  acknowledgedLogSequence :
    prop value "acknowledgedLogSequence" = whole payload.acknowledgedLogSequence
  recoveryDeadlineAt : prop value "recoveryDeadlineAt" = maybe text payload.recoveryDeadlineAt
  reason : prop value "reason" = maybe text payload.reason

structure TaskResultAckAgrees (value : JsValue) (payload : TaskResultAckPayload) : Prop where
  taskId : prop value "taskId" = text payload.taskId
  status : prop value "status" = statusText payload.status
  acknowledgedAt : prop value "acknowledgedAt" = text payload.acknowledgedAt

structure TaskInputFileAgrees (value : JsValue) (file : TaskInputFileAssignment) : Prop where
  fileId : prop value "fileId" = text file.fileId
  fieldName : prop value "fieldName" = text file.fieldName
  fileName : prop value "fileName" = text file.fileName
  size : prop value "size" = whole file.size
  sha256 : prop value "sha256" = text file.sha256
  targetRelativePath : prop value "targetRelativePath" = text file.targetRelativePath

/-- Without the property there are no files. -/
def InputFilesAgree (value : JsValue) (files : List TaskInputFileAssignment) : Prop :=
  value = .undefined ∧ files = [] ∨
    ∃ items, value = .array items ∧
      List.Forall₂ (fun item file => ∃ v, item = some v ∧ TaskInputFileAgrees v file) items files

structure TaskAssignmentAgrees (value : JsValue) (payload : TaskAssignmentPayload) : Prop where
  taskId : prop value "taskId" = text payload.taskId
  leaseToken : prop value "leaseToken" = text payload.leaseToken
  leaseExpiresAt : prop value "leaseExpiresAt" = text payload.leaseExpiresAt
  agentId : prop value "agentId" = text payload.agentId
  projectId : prop value "projectId" = text payload.projectId
  buildTemplateId : prop value "buildTemplateId" = text payload.buildTemplateId
  gitUrl : prop (prop value "git") "url" = text payload.git.url
  gitBranch : prop (prop value "git") "branch" = text payload.git.branch
  command : prop value "command" = text payload.command
  artifactDir : prop value "artifactDir" = text payload.artifactDir
  timeoutSeconds : prop value "timeoutSeconds" = whole payload.timeoutSeconds
  config : received (prop value "config") = some (.object payload.config)
  inputFiles : InputFilesAgree (prop value "inputFiles") payload.inputFiles
  sensitiveConfigKeys : prop value "sensitiveConfigKeys" =
    .array (payload.sensitiveConfigKeys.map (fun key => some (text key)))
  interactiveInputEnabled :
    prop value "interactiveInputEnabled" = .bool payload.interactiveInputEnabled

structure TaskCancelAgrees (value : JsValue) (payload : TaskCancelPayload) : Prop where
  taskId : prop value "taskId" = text payload.taskId
  leaseToken : prop value "leaseToken" = text payload.leaseToken
  requestedAt : prop value "requestedAt" = text payload.requestedAt
  reason : prop value "reason" = maybe text payload.reason

structure TaskInputAgrees (value : JsValue) (payload : TaskInputPayload) : Prop where
  taskId : prop value "taskId" = text payload.taskId
  leaseToken : prop value "leaseToken" = text payload.leaseToken
  inputId : prop value "inputId" = text payload.inputId
  text : prop value "text" = text payload.text
  sensitive : prop value "sensitive" = .bool payload.sensitive
  appendNewline : prop value "appendNewline" = .bool payload.appendNewline
  sentAt : prop value "sentAt" = Websocket.text payload.sentAt

structure AgentTokenRevokedAgrees (value : JsValue) (payload : AgentTokenRevokedPayload) : Prop where
  agentId : prop value "agentId" = text payload.agentId
  revokedAt : prop value "revokedAt" = text payload.revokedAt
  reason : prop value "reason" = maybe text payload.reason

structure EnvelopeAgrees {α : Type} (message : JsValue) (agrees : JsValue → α → Prop)
    (decoded : ProtocolEnvelopeTyped α) : Prop where
  id : prop message "id" = text decoded.id
  type : prop message "type" = text (messageTypeName decoded.messageType).toList
  timestamp : prop message "timestamp" = text decoded.timestamp
  protocolVersion : decoded.protocolVersion = .v1 ∧ prop message "protocolVersion" = whole 1
  payload : agrees (prop message "payload") decoded.payload

/-- The decoded message has the values of the fields of the message. -/
def Agrees (message : JsValue) : DecodedMessage → Prop
  | .agentRegistered decoded => EnvelopeAgrees message AgentRegisteredAgrees decoded
  | .taskAvailable decoded => EnvelopeAgrees message TaskAvailableAgrees decoded
  | .taskLogAck decoded => EnvelopeAgrees message TaskLogAckAgrees decoded
  | .taskArtifactManifestAck decoded => EnvelopeAgrees message TaskArtifactManifestAckAgrees decoded
  | .taskRecovery decoded => EnvelopeAgrees message TaskRecoveryAgrees decoded
  | .taskResultAck decoded => EnvelopeAgrees message TaskResultAckAgrees decoded
  | .taskAssignment decoded => EnvelopeAgrees message TaskAssignmentAgrees decoded
  | .taskCancel decoded => EnvelopeAgrees message TaskCancelAgrees decoded
  | .taskInput decoded => EnvelopeAgrees message TaskInputAgrees decoded
  | .agentTokenRevoked decoded => EnvelopeAgrees message AgentTokenRevokedAgrees decoded

variable {value : JsValue} {path : Path} {w : Value}

/-! The payloads -/

theorem ok_bind {ε β γ : Type} (b : β) (f : β → Except ε γ) : (.ok b >>= f) = f b := rfl

variable {raw : ProtocolEnvelope}

theorem parse_agentRegistered (h : serverPayload .agentRegistered value path = [])
    (htype : raw.messageType = .agentRegistered) (hw : received value = some raw.payload) :
    ∃ payload, parsePayload raw = .ok (.agentRegistered (typed raw payload)) ∧
      AgentRegisteredAgrees value payload := by
  obtain ⟨hrest, fields, hstruct, hfields⟩ := exists_checked_fields h hw
  simp only [List.append_eq_nil_iff] at hrest
  obtain ⟨⟨⟨⟨hid, hname⟩, hinterval⟩, htimeout⟩, htime⟩ := hrest
  obtain ⟨agentId, hid, -, hidField⟩ := hfields.string (idProperty_eq_nil hid)
  obtain ⟨agentName, hname, -, hnameField⟩ := hfields.string (stringProperty_eq_nil hname)
  obtain ⟨interval, hinterval, -, hintervalField⟩ := hfields.u64 (positiveInteger_eq_nil hinterval)
  obtain ⟨timeout, htimeout, -, htimeoutField⟩ := hfields.u64 (positiveInteger_eq_nil htimeout)
  obtain ⟨time, htime, hvalid, htimeField⟩ := hfields.string (timeProperty_eq_nil htime)
  refine ⟨⟨agentId, agentName, interval, timeout, time⟩, ?_,
    ⟨hid, hname, hinterval, htimeout, htime⟩⟩
  have hstruct' : structFields ["agentId", "agentName", "heartbeatIntervalSeconds",
      "heartbeatTimeoutSeconds", "serverTime"] raw.payload = .ok fields := hstruct
  simp only [parsePayload, htype, agentRegisteredPayload, hstruct', hidField, hnameField,
    hintervalField, htimeoutField, htimeField, ok_bind, pure_bind,
    validTimestamp_of_matches hvalid]
  rfl

theorem parse_taskAvailable (h : serverPayload .taskAvailable value path = [])
    (htype : raw.messageType = .taskAvailable) (hw : received value = some raw.payload) :
    ∃ payload, parsePayload raw = .ok (.taskAvailable (typed raw payload)) ∧
      TaskAvailableAgrees value payload := by
  obtain ⟨hrest, fields, hstruct, hfields⟩ := exists_checked_fields h hw
  obtain ⟨hid, hcount⟩ := List.append_eq_nil_iff.mp hrest
  obtain ⟨agentId, hid, -, hidField⟩ := hfields.string (idProperty_eq_nil hid)
  obtain ⟨count, hcount, hcountField⟩ :=
    hfields.optionalU64 (nonNegativeInteger_optional_eq_nil hcount)
  refine ⟨⟨agentId, count⟩, ?_, ⟨hid, hcount⟩⟩
  have hstruct' : structFields ["agentId", "queuedTaskCount"] raw.payload = .ok fields := hstruct
  simp only [parsePayload, htype, taskAvailablePayload, hstruct', hidField, hcountField, ok_bind,
    pure_bind]
  rfl

theorem validSafeNonNegative_of_le {n : Nat} (h : n ≤ AgentContracts.maxSafeInteger)
    (field : String) : validSafeNonNegative n field = .ok () :=
  ensure_eq_ok.mpr h

theorem parse_taskLogAck (h : serverPayload .taskLogAck value path = [])
    (htype : raw.messageType = .taskLogAck) (hw : received value = some raw.payload) :
    ∃ payload, parsePayload raw = .ok (.taskLogAck (typed raw payload)) ∧
      TaskLogAckAgrees value payload := by
  obtain ⟨hrest, fields, hstruct, hfields⟩ := exists_checked_fields h hw
  simp only [List.append_eq_nil_iff] at hrest
  obtain ⟨⟨hid, hsequence⟩, hoffset⟩ := hrest
  obtain ⟨taskId, hid, hvalid, hidField⟩ := hfields.string (idProperty_eq_nil hid)
  obtain ⟨sequence, hsequence, hsafe, hsequenceField⟩ :=
    hfields.u64 (nonNegativeInteger_eq_nil hsequence)
  obtain ⟨offset, hoffset, hsafe', hoffsetField⟩ := hfields.u64 (nonNegativeInteger_eq_nil hoffset)
  refine ⟨⟨taskId, sequence, offset⟩, ?_, ⟨hid, hsequence, hoffset⟩⟩
  have hstruct' : structFields ["taskId", "acknowledgedSequence", "persistedOffset"] raw.payload =
      .ok fields := hstruct
  simp only [parsePayload, htype, taskLogAckPayload, hstruct', hidField, hsequenceField,
    hoffsetField, ok_bind, pure_bind, validId_of_matches hvalid, validSafeNonNegative_of_le hsafe,
    validSafeNonNegative_of_le hsafe']
  rfl

theorem parse_taskArtifactManifestAck (h : serverPayload .taskArtifactManifestAck value path = [])
    (htype : raw.messageType = .taskArtifactManifestAck)
    (hw : received value = some raw.payload) :
    ∃ payload, parsePayload raw = .ok (.taskArtifactManifestAck (typed raw payload)) ∧
      TaskArtifactManifestAckAgrees value payload := by
  obtain ⟨hrest, fields, hstruct, hfields⟩ := exists_checked_fields h hw
  simp only [List.append_eq_nil_iff] at hrest
  obtain ⟨⟨⟨hid, haccepted⟩, hcount⟩, hbytes⟩ := hrest
  obtain ⟨taskId, hid, hvalid, hidField⟩ := hfields.string (idProperty_eq_nil hid)
  obtain ⟨accepted, haccepted, hacceptedField⟩ :=
    hfields.boolean (issueUnless_eq_nil.mp haccepted)
  obtain ⟨count, hcount, hsafe, hcountField⟩ := hfields.u64 (nonNegativeInteger_eq_nil hcount)
  obtain ⟨bytes, hbytes, hsafe', hbytesField⟩ := hfields.u64 (nonNegativeInteger_eq_nil hbytes)
  refine ⟨⟨taskId, accepted, count, bytes⟩, ?_, ⟨hid, haccepted, hcount, hbytes⟩⟩
  have hstruct' : structFields ["taskId", "accepted", "artifactCount", "artifactBytes"]
      raw.payload = .ok fields := hstruct
  simp only [parsePayload, htype, taskArtifactManifestAckPayload, hstruct', hidField,
    hacceptedField, hcountField, hbytesField, ok_bind, pure_bind, validId_of_matches hvalid,
    validSafeNonNegative_of_le hsafe, validSafeNonNegative_of_le hsafe']
  rfl

theorem names_reportable : Names statuses statusName agentReportableTaskStatuses := by
  unfold Names
  decide

theorem names_terminal : Names statuses statusName terminalTaskStatuses := by
  unfold Names
  decide

theorem names_actions :
    Names [TaskRecoveryAction.resume, .cancel, .abandon] actionName recoveryActions := by
  unfold Names
  decide

theorem names_messageTypes :
    Names messageTypes messageTypeName (ServerToAgentMessageType.all.map (fun t => t.name)) := by
  unfold Names
  decide

theorem isAgentReportable_of_name {status : BuildTaskStatus}
    (h : statusName status ∈ agentReportableTaskStatuses) : isAgentReportable status = true := by
  revert h
  cases status
  all_goals decide

theorem isTerminal_of_name {status : BuildTaskStatus}
    (h : statusName status ∈ terminalTaskStatuses) : AgentContracts.isTerminal status = true := by
  revert h
  cases status
  all_goals decide

theorem parse_taskResultAck (h : serverPayload .taskResultAck value path = [])
    (htype : raw.messageType = .taskResultAck) (hw : received value = some raw.payload) :
    ∃ payload, parsePayload raw = .ok (.taskResultAck (typed raw payload)) ∧
      TaskResultAckAgrees value payload := by
  obtain ⟨hrest, fields, hstruct, hfields⟩ := exists_checked_fields h hw
  simp only [List.append_eq_nil_iff] at hrest
  obtain ⟨⟨hid, hstatus⟩, htime⟩ := hrest
  obtain ⟨taskId, hid, hvalid, hidField⟩ := hfields.string (idProperty_eq_nil hid)
  obtain ⟨status, hstatus, hterminal, hstatusField⟩ :=
    hfields.variant names_terminal (issueUnless_eq_nil.mp hstatus)
  obtain ⟨time, htime, hvalidTime, htimeField⟩ := hfields.string (timeProperty_eq_nil htime)
  refine ⟨⟨taskId, status, time⟩, ?_, ⟨hid, hstatus, htime⟩⟩
  have hstruct' : structFields ["taskId", "status", "acknowledgedAt"] raw.payload =
      .ok fields := hstruct
  have hensure : ensure (AgentContracts.isTerminal status = true)
      (ParseError.invalid "task.result.ack status must be terminal") = .ok () :=
    ensure_eq_ok.mpr (isTerminal_of_name hterminal)
  have hstatusField' : requiredField AgentContracts.status fields "status" = .ok status :=
    hstatusField
  simp only [parsePayload, htype, taskResultAckPayload, hstruct', hidField, hstatusField',
    htimeField, ok_bind, pure_bind, validId_of_matches hvalid, hensure,
    validTimestamp_of_matches hvalidTime]
  rfl

theorem parse_taskCancel (h : serverPayload .taskCancel value path = [])
    (htype : raw.messageType = .taskCancel) (hw : received value = some raw.payload) :
    ∃ payload, parsePayload raw = .ok (.taskCancel (typed raw payload)) ∧
      TaskCancelAgrees value payload := by
  obtain ⟨hrest, fields, hstruct, hfields⟩ := exists_checked_fields h hw
  simp only [taskLease, List.append_eq_nil_iff] at hrest
  obtain ⟨⟨⟨hid, hlease⟩, htime⟩, hreason⟩ := hrest
  obtain ⟨taskId, hid, hvalid, hidField⟩ := hfields.string (idProperty_eq_nil hid)
  obtain ⟨lease, hlease, hvalidLease, hleaseField⟩ := hfields.string (leaseProperty_eq_nil hlease)
  obtain ⟨time, htime, hvalidTime, htimeField⟩ := hfields.string (timeProperty_eq_nil htime)
  obtain ⟨reason, hreason, -, hreasonField⟩ := hfields.optionalString (optionalText_eq_nil hreason)
  refine ⟨⟨taskId, lease, time, reason⟩, ?_, ⟨hid, hlease, htime, hreason⟩⟩
  have hstruct' : structFields ["taskId", "leaseToken", "requestedAt", "reason"] raw.payload =
      .ok fields := hstruct
  simp only [parsePayload, htype, taskCancelPayload, hstruct', hidField, hleaseField, htimeField,
    hreasonField, ok_bind, pure_bind, validTask, validId_of_matches hvalid,
    validLease_of_matches hvalidLease, validTimestamp_of_matches hvalidTime]
  rfl

theorem parse_agentTokenRevoked (h : serverPayload .agentTokenRevoked value path = [])
    (htype : raw.messageType = .agentTokenRevoked) (hw : received value = some raw.payload) :
    ∃ payload, parsePayload raw = .ok (.agentTokenRevoked (typed raw payload)) ∧
      AgentTokenRevokedAgrees value payload := by
  obtain ⟨hrest, fields, hstruct, hfields⟩ := exists_checked_fields h hw
  simp only [List.append_eq_nil_iff] at hrest
  obtain ⟨⟨hid, htime⟩, hreason⟩ := hrest
  obtain ⟨agentId, hid, -, hidField⟩ := hfields.string (idProperty_eq_nil hid)
  obtain ⟨time, htime, hvalidTime, htimeField⟩ := hfields.string (timeProperty_eq_nil htime)
  obtain ⟨reason, hreason, -, hreasonField⟩ := hfields.optionalString (optionalText_eq_nil hreason)
  refine ⟨⟨agentId, time, reason⟩, ?_, ⟨hid, htime, hreason⟩⟩
  have hstruct' : structFields ["agentId", "revokedAt", "reason"] raw.payload = .ok fields :=
    hstruct
  simp only [parsePayload, htype, agentTokenRevokedPayload, hstruct', hidField, htimeField,
    hreasonField, ok_bind, pure_bind, validTimestamp_of_matches hvalidTime]
  rfl

theorem parse_taskInput (h : serverPayload .taskInput value path = [])
    (htype : raw.messageType = .taskInput) (hw : received value = some raw.payload) :
    ∃ payload, parsePayload raw = .ok (.taskInput (typed raw payload)) ∧
      TaskInputAgrees value payload := by
  obtain ⟨hrest, fields, hstruct, hfields⟩ := exists_checked_fields h hw
  simp only [taskLease, taskInputProperties, inputIdProperty, List.append_eq_nil_iff] at hrest
  obtain ⟨⟨hid, hlease⟩, ⟨⟨⟨hinput, htext⟩, hsensitive⟩, hnewline⟩, htime⟩ := hrest
  obtain ⟨taskId, hid, hvalid, hidField⟩ := hfields.string (idProperty_eq_nil hid)
  obtain ⟨lease, hlease, hvalidLease, hleaseField⟩ := hfields.string (leaseProperty_eq_nil hlease)
  obtain ⟨inputId, hinput, hvalidInput, hinputField⟩ :=
    hfields.string (issueUnless_eq_nil.mp hinput)
  obtain ⟨content, htext, hvalidText, htextField⟩ := hfields.string (issueUnless_eq_nil.mp htext)
  obtain ⟨sensitive, hsensitive, hsensitiveField⟩ :=
    hfields.boolean (issueUnless_eq_nil.mp hsensitive)
  have htrue : isTrue (prop value "appendNewline") = true := issueUnless_eq_nil.mp hnewline
  have hnewlineBool : isBoolean (prop value "appendNewline") = true := by
    cases hvalue : prop value "appendNewline" with
    | bool b => rfl
    | _ => rw [hvalue] at htrue; cases htrue
  obtain ⟨newline, hnewline, hnewlineField⟩ := hfields.boolean hnewlineBool
  obtain ⟨time, htime, hvalidTime, htimeField⟩ := hfields.string (timeProperty_eq_nil htime)
  refine ⟨⟨taskId, lease, inputId, content, sensitive, newline, time⟩, ?_,
    ⟨hid, hlease, hinput, htext, hsensitive, hnewline, htime⟩⟩
  have hstruct' : structFields ["taskId", "leaseToken", "inputId", "text", "sensitive",
      "appendNewline", "sentAt"] raw.payload = .ok fields := hstruct
  have hensure : ensure (newline = true) (ParseError.invalid "appendNewline must be true") =
      .ok () := by
    rw [hnewline] at htrue
    exact ensure_eq_ok.mpr htrue
  simp only [parsePayload, htype, taskInputPayload, hstruct', hidField, hleaseField, hinputField,
    htextField, hsensitiveField, hnewlineField, htimeField, ok_bind, pure_bind, validTask,
    validId_of_matches hvalid, validLease_of_matches hvalidLease,
    validUuid_of_matches hvalidInput, validTaskInputText_of_matches hvalidText, hensure,
    validTimestamp_of_matches hvalidTime]
  rfl

theorem parse_taskRecovery (h : serverPayload .taskRecovery value path = [])
    (htype : raw.messageType = .taskRecovery) (hw : received value = some raw.payload) :
    ∃ payload, parsePayload raw = .ok (.taskRecovery (typed raw payload)) ∧
      TaskRecoveryAgrees value payload := by
  obtain ⟨hrest, fields, hstruct, hfields⟩ := exists_checked_fields h hw
  simp only [recoveryProperties, List.append_eq_nil_iff] at hrest
  obtain ⟨hid, ⟨⟨⟨⟨haction, hpresent⟩, hstatus⟩, hsequence⟩, hdeadline⟩, hreason⟩ := hrest
  obtain ⟨taskId, hid, hvalid, hidField⟩ := hfields.string (idProperty_eq_nil hid)
  obtain ⟨action, haction, -, hactionField⟩ :=
    hfields.variant names_actions (issueUnless_eq_nil.mp haction)
  have hstatusCases : (prop value "status").isUndefined = true ∨
      isMemberOf agentReportableTaskStatuses (prop value "status") = true := by
    split at hstatus
    · rename_i hundefined
      exact Or.inl hundefined
    · exact Or.inr (issueUnless_eq_nil.mp hstatus)
  obtain ⟨status, hstatus, hreportable, hnone, hstatusField⟩ :=
    hfields.optionalVariant names_reportable hstatusCases
  obtain ⟨sequence, hsequence, hsafe, hsequenceField⟩ :=
    hfields.u64 (nonNegativeInteger_eq_nil hsequence)
  have hdeadlineCases : ((prop value "recoveryDeadlineAt").isUndefined ||
      stringWith isIso8601UtcString (prop value "recoveryDeadlineAt")) = true := by
    rw [Bool.or_eq_true]
    split at hdeadline
    · rename_i hundefined
      exact Or.inl hundefined
    · exact Or.inr (timeProperty_eq_nil hdeadline)
  obtain ⟨deadline, hdeadline, hvalidDeadline, hdeadlineField⟩ :=
    hfields.optionalString hdeadlineCases
  obtain ⟨reason, hreason, -, hreasonField⟩ := hfields.optionalString (optionalText_eq_nil hreason)
  refine ⟨⟨taskId, action, status, sequence, deadline, reason⟩, ?_,
    ⟨hid, haction, hstatus, hsequence, hdeadline, hreason⟩⟩
  have hstruct' : structFields ["taskId", "action", "status", "acknowledgedLogSequence",
      "recoveryDeadlineAt", "reason"] raw.payload = .ok fields := hstruct
  have hstatusField' : optionalField AgentContracts.status fields "status" = .ok status :=
    hstatusField
  have hpresent' : ensure (¬ (action ≠ .abandon ∧ status = none))
      (ParseError.invalid "RESUME or CANCEL recovery requires status") = .ok () := by
    apply ensure_eq_ok.mpr
    rintro ⟨habandon, rfl⟩
    have hmember : isMemberOf ["RESUME", "CANCEL"] (prop value "action") = true := by
      rw [haction]
      cases action with
      | resume => decide
      | cancel => decide
      | abandon => exact absurd rfl habandon
    have hpassed : (!(isMemberOf ["RESUME", "CANCEL"] (prop value "action") &&
        (prop value "status").isUndefined)) = true := issueUnless_eq_nil.mp hpresent
    rw [hmember, hnone] at hpassed
    cases hpassed
  have hreportable' : ensure (status.all isAgentReportable = true)
      (ParseError.invalid "task recovery status must be agent-reportable") = .ok () := by
    apply ensure_eq_ok.mpr
    cases status with
    | none => rfl
    | some status => exact isAgentReportable_of_name (hreportable status rfl)
  have hdeadline' : validOptional (fun deadline => validTimestamp deadline "recoveryDeadlineAt")
      deadline = .ok () := by
    cases deadline with
    | none => rfl
    | some deadline => exact validTimestamp_of_matches hvalidDeadline _
  simp only [parsePayload, htype, taskRecoveryPayload, hstruct', hidField, hactionField,
    hstatusField', hsequenceField, hdeadlineField, hreasonField, ok_bind, pure_bind,
    validId_of_matches hvalid, validSafeNonNegative_of_le hsafe, hpresent', hreportable',
    hdeadline']
  rfl

/-! The assignment -/

/-- What the agent can take of an assignment that the server accepts: its arrays have no gaps, and
no user information stands behind what is no scheme in the URL. -/
structure Takeable (assignment : JsValue) : Prop where
  inputFiles : withoutGaps (prop assignment "inputFiles") = true
  sensitiveConfigKeys : withoutGaps (prop assignment "sensitiveConfigKeys") = true
  gitUrl : stringWith hidesUserInfo (prop (prop assignment "git") "url") = false

theorem parse_inputFile {index : Nat} (h : inputFile path index value = [])
    (hw : received value = some w) :
    ∃ file, taskInputFileAssignment w = .ok file ∧ TaskInputFileAgrees value file := by
  rw [inputFile] at h
  simp only [List.append_assoc] at h
  obtain ⟨hrest, fields, hstruct, hfields⟩ := exists_checked_fields h hw
  simp only [List.append_eq_nil_iff] at hrest
  obtain ⟨hid, hfield, hname, hsize, hsha, hpath⟩ := hrest
  obtain ⟨fileId, hid, -, hidField⟩ := hfields.string (idProperty_eq_nil hid)
  obtain ⟨fieldName, hfield, -, hfieldField⟩ := hfields.string (stringProperty_eq_nil hfield)
  obtain ⟨fileName, hname, -, hnameField⟩ := hfields.string (stringProperty_eq_nil hname)
  obtain ⟨size, hsize, -, hsizeField⟩ := hfields.u64 (nonNegativeInteger_eq_nil hsize)
  obtain ⟨sha, hsha, -, hshaField⟩ := hfields.string (issueUnless_eq_nil.mp hsha)
  obtain ⟨target, hpath, -, hpathField⟩ := hfields.string (relativePathProperty_eq_nil hpath)
  refine ⟨⟨fileId, fieldName, fileName, size, sha, target⟩, ?_,
    ⟨hid, hfield, hname, hsize, hsha, hpath⟩⟩
  simp only [taskInputFileAssignment, hstruct, hidField, hfieldField, hnameField, hsizeField,
    hshaField, hpathField, ok_bind]
  rfl

theorem inputFile_of_eachItem {items : List (Option JsValue)} {check : Nat → JsValue → Issues}
    (h : eachItem items check = []) {v : JsValue} (hv : some v ∈ items) :
    ∃ index, check index v = [] := by
  obtain ⟨index, hlt, hget⟩ := List.getElem_of_mem hv
  have hmem : (some v, index) ∈ items.zipIdx := by
    apply List.mem_zipIdx_iff_getElem?.mpr
    rw [List.getElem?_eq_getElem hlt, hget]
  exact ⟨index, List.flatMap_eq_nil_iff.mp h _ hmem⟩

theorem exists_inputFiles {fields : List (List Char × Value)} (hfields : Fields value fields)
    (h : inputFiles (prop value "inputFiles") path = []) :
    (withoutGaps (prop value "inputFiles") = true → ∃ files,
      InputFilesAgree (prop value "inputFiles") files ∧ inputFilesField fields = .ok files) ∧
    (withoutGaps (prop value "inputFiles") = false → ∀ files,
      inputFilesField fields ≠ .ok files) := by
  cases hvalue : prop value "inputFiles" with
  | undefined =>
      constructor
      · intro _
        refine ⟨[], Or.inl ⟨rfl, rfl⟩, ?_⟩
        rw [inputFilesField, hfields.undefined hvalue]
      · intro hgap
        cases hgap
  | array items =>
      rw [hvalue] at h
      obtain ⟨ws, hlookup, hitems⟩ := hfields.array hvalue
      have hfield : inputFilesField fields = ws.mapM taskInputFileAssignment := by
        rw [inputFilesField, hlookup]
        rfl
      rw [hfield]
      constructor
      · intro hsome
        have heach : ∀ v, some v ∈ items → ∃ doc, v.toJson = some doc ∧
            ∀ w, Value.ofJson doc = some w →
              ∃ file, taskInputFileAssignment w = .ok file ∧ TaskInputFileAgrees v file := by
          intro v hv
          obtain ⟨index, hcheck⟩ := inputFile_of_eachItem h hv
          obtain ⟨doc, hdoc⟩ := exists_doc_of_object (objectValue_eq_nil hcheck).1
          refine ⟨doc, hdoc, fun w hw => parse_inputFile hcheck ?_⟩
          rw [received, hdoc]
          exact hw
        obtain ⟨files, hfiles, hagree⟩ := mapM_of_items hitems hsome heach
        exact ⟨files, Or.inr ⟨items, rfl, hagree⟩, hfiles⟩
      · intro hgap files
        apply mapM_of_gap hitems hgap
        intro file hfile
        cases hfile
  | _ => rw [hvalue] at h; cases h

theorem exists_gitSource {fields : List (List Char × Value)} (hfields : Fields value fields)
    (h : gitSource (prop value "git") path = []) :
    ∃ git, requiredField taskGitSource fields "git" = .ok git ∧
      prop (prop value "git") "url" = text git.url ∧
      prop (prop value "git") "branch" = text git.branch ∧
      gitCredentialsAllowed (ofChars git.url) = true := by
  rw [gitSource] at h
  simp only [List.append_assoc] at h
  obtain ⟨sub, hreceived, hlookup, -⟩ := hfields.object (objectValue_eq_nil h).1
  obtain ⟨hrest, fields', hstruct, hsub⟩ := exists_checked_fields h hreceived
  simp only [List.append_eq_nil_iff] at hrest
  obtain ⟨hurl, hbranch, hallowed⟩ := hrest
  obtain ⟨url, hurl, -, hurlField⟩ := hsub.string (stringProperty_eq_nil hurl)
  obtain ⟨branch, hbranch, -, hbranchField⟩ := hsub.string (stringProperty_eq_nil hbranch)
  refine ⟨⟨url, branch⟩, ?_, hurl, hbranch, ?_⟩
  · rw [requiredField_of_lookup hlookup]
    simp only [taskGitSource, hstruct, hurlField, hbranchField, ok_bind]
    rfl
  · have hpassed : (!isString (prop (prop value "git") "url") ||
        stringWith gitCredentialsAllowed (prop (prop value "git") "url")) = true :=
      issueUnless_eq_nil.mp hallowed
    rw [hurl] at hpassed
    exact hpassed

theorem parse_taskAssignment (h : serverPayload .taskAssignment value path = [])
    (htype : raw.messageType = .taskAssignment) (hw : received value = some raw.payload) :
    (Takeable value → ∃ payload, parsePayload raw = .ok (.taskAssignment (typed raw payload)) ∧
      TaskAssignmentAgrees value payload) ∧
    (¬ Takeable value → ∀ decoded, parsePayload raw ≠ .ok decoded) := by
  obtain ⟨hrest, fields, hstruct, hfields⟩ := exists_checked_fields h hw
  simp only [taskLease, List.append_eq_nil_iff] at hrest
  obtain ⟨⟨⟨⟨⟨⟨⟨⟨⟨⟨⟨⟨⟨hid, hlease⟩, htime⟩, hagent⟩, hproject⟩, htemplate⟩, hgit⟩, hcommand⟩, hdir⟩,
    htimeout⟩, hconfig⟩, hfiles⟩, hkeys⟩, hinteractive⟩ := hrest
  obtain ⟨taskId, hid, hvalid, hidField⟩ := hfields.string (idProperty_eq_nil hid)
  obtain ⟨lease, hlease, hvalidLease, hleaseField⟩ := hfields.string (leaseProperty_eq_nil hlease)
  obtain ⟨time, htime, hvalidTime, htimeField⟩ := hfields.string (timeProperty_eq_nil htime)
  obtain ⟨agent, hagent, -, hagentField⟩ := hfields.string (idProperty_eq_nil hagent)
  obtain ⟨project, hproject, -, hprojectField⟩ := hfields.string (idProperty_eq_nil hproject)
  obtain ⟨template, htemplate, -, htemplateField⟩ := hfields.string (idProperty_eq_nil htemplate)
  obtain ⟨git, hgitField, hurl, hbranch, hallowed⟩ := exists_gitSource hfields hgit
  obtain ⟨command, hcommand, -, hcommandField⟩ := hfields.string (stringProperty_eq_nil hcommand)
  obtain ⟨dir, hdir, -, hdirField⟩ := hfields.string (relativePathProperty_eq_nil hdir)
  obtain ⟨timeout, htimeout, -, htimeoutField⟩ := hfields.u64 (positiveInteger_eq_nil htimeout)
  obtain ⟨config, hconfig, hconfigLookup, -⟩ := hfields.object (objectValue_eq_nil hconfig).1
  have hconfigField : requiredField AgentContracts.map fields "config" = .ok config :=
    requiredField_of_lookup hconfigLookup
  obtain ⟨hfilesOk, hfilesBad⟩ := exists_inputFiles hfields hfiles
  obtain ⟨hkeysOk, hkeysBad⟩ := hfields.strings (stringArray_eq_nil hkeys)
  obtain ⟨interactive, hinteractive, hinteractiveField⟩ :=
    hfields.boolean (booleanProperty_eq_nil hinteractive)
  have hstruct' : structFields ["taskId", "leaseToken", "leaseExpiresAt", "agentId", "projectId",
      "buildTemplateId", "git", "command", "artifactDir", "timeoutSeconds", "config", "inputFiles",
      "sensitiveConfigKeys", "interactiveInputEnabled"] raw.payload = .ok fields := hstruct
  have hforbidden : gitUrlHasForbiddenUserInfo git.url =
      stringWith hidesUserInfo (prop (prop value "git") "url") := by
    rw [gitUrlHasForbiddenUserInfo_eq, hallowed, hurl]
    rfl
  constructor
  · rintro ⟨hnoGap, hnoGap', hvisible⟩
    obtain ⟨files, hfiles, hfilesField⟩ := hfilesOk hnoGap
    obtain ⟨keys, hkeys, hkeysField⟩ := hkeysOk hnoGap'
    refine ⟨⟨taskId, lease, time, agent, project, template, git, command, dir, timeout, config,
      files, keys, interactive⟩, ?_, ⟨hid, hlease, htime, hagent, hproject, htemplate, hurl,
      hbranch, hcommand, hdir, htimeout, hconfig, hfiles, hkeys, hinteractive⟩⟩
    have hensure : ensure (¬ gitUrlHasForbiddenUserInfo git.url = true)
        (ParseError.invalid "Git credentials are forbidden") = .ok () := by
      apply ensure_eq_ok.mpr
      rw [hforbidden, hvisible]
      exact Bool.false_ne_true
    simp only [parsePayload, htype, taskAssignmentPayload, hstruct', hidField, hleaseField,
      htimeField, hagentField, hprojectField, htemplateField, hgitField, hcommandField, hdirField,
      htimeoutField, hconfigField, hfilesField, hkeysField, hinteractiveField, ok_bind, pure_bind,
      validTask, validId_of_matches hvalid, validLease_of_matches hvalidLease,
      validTimestamp_of_matches hvalidTime, hensure]
    rfl
  · intro hnot decoded hdecoded
    apply hnot
    simp only [parsePayload, htype, taskAssignmentPayload, hstruct', hidField, hleaseField,
      htimeField, hagentField, hprojectField, htemplateField, hgitField, hcommandField, hdirField,
      htimeoutField, hconfigField, hinteractiveField, ok_bind, bind_eq_ok, ensure_eq_ok,
      pure_eq_ok] at hdecoded
    obtain ⟨payload, ⟨files, hfiles, keys, hkeys, hpayload⟩, -, -, -, -, -, hgood, -⟩ := hdecoded
    subst hpayload
    refine ⟨?_, ?_, ?_⟩
    · by_contra hgap
      exact hfilesBad (Bool.eq_false_of_not_eq_true hgap) _ hfiles
    · by_contra hgap
      exact hkeysBad (Bool.eq_false_of_not_eq_true hgap) _ hkeys
    · rw [← hforbidden]
      exact Bool.eq_false_of_not_eq_true hgood

/-! Strings without a meaning -/

mutual

/-- The strings of a document, names of members included. -/
def stringsOf : Json → List JsString
  | .string s => [s]
  | .array items => stringsOfItems items
  | .object members => stringsOfMembers members
  | _ => []

def stringsOfItems : List Json → List JsString
  | [] => []
  | item :: items => stringsOf item ++ stringsOfItems items

def stringsOfMembers : List (JsString × Json) → List JsString
  | [] => []
  | (key, value) :: members => key :: (stringsOf value ++ stringsOfMembers members)

end

mutual

/-- A document is read exactly if none of its strings has a lone surrogate. -/
theorem ofJson_isSome (doc : Json) :
    (Value.ofJson doc).isSome = (stringsOf doc).all (fun s => s.toChars?.isSome) := by
  cases doc with
  | null => rfl
  | bool b => rfl
  | number n =>
      cases n with
      | finite q => rfl
      | _ => rfl
  | string s => rw [Value.ofJson, Option.isSome_map, stringsOf, List.all_cons, List.all_nil,
      Bool.and_true]
  | array items => rw [Value.ofJson, Option.isSome_map, stringsOf, ofItems_isSome]
  | object members => rw [Value.ofJson, Option.isSome_map, stringsOf, ofMembers_isSome]

theorem ofItems_isSome (items : List Json) :
    (Value.ofItems items).isSome = (stringsOfItems items).all (fun s => s.toChars?.isSome) := by
  cases items with
  | nil => rfl
  | cons item items =>
      rw [stringsOfItems, List.all_append, ← ofJson_isSome, ← ofItems_isSome, Value.ofItems]
      cases Value.ofJson item with
      | none => rfl
      | some w =>
          cases Value.ofItems items with
          | none => rfl
          | some ws => rfl

theorem ofMembers_isSome (members : List (JsString × Json)) :
    (Value.ofMembers members).isSome =
      (stringsOfMembers members).all (fun s => s.toChars?.isSome) := by
  cases members with
  | nil => rfl
  | cons member members =>
      obtain ⟨key, value⟩ := member
      rw [stringsOfMembers, List.all_cons, List.all_append, ← ofJson_isSome, ← ofMembers_isSome,
        Value.ofMembers]
      cases key.toChars? with
      | none => rfl
      | some name =>
          cases Value.ofJson value with
          | none => rfl
          | some w =>
              cases Value.ofMembers members with
              | none => rfl
              | some ws => rfl

end

/-! The envelope -/

def messageTypeOf : ServerToAgentMessageType → MessageType
  | .agentRegistered => .agentRegistered
  | .taskAvailable => .taskAvailable
  | .taskLogAck => .taskLogAck
  | .taskArtifactManifestAck => .taskArtifactManifestAck
  | .taskRecovery => .taskRecovery
  | .taskResultAck => .taskResultAck
  | .taskAssignment => .taskAssignment
  | .taskCancel => .taskCancel
  | .taskInput => .taskInput
  | .agentTokenRevoked => .agentTokenRevoked

theorem eq_messageTypeOf {type : ServerToAgentMessageType} {a : MessageType}
    (h : messageTypeName a = type.name) : a = messageTypeOf type := by
  revert h
  cases type
  all_goals
    cases a
    all_goals decide

variable {message : JsValue} {type : ServerToAgentMessageType}

theorem parse_envelope (hvalid : (validateProtocolMessage message).isOk = true)
    (htype : serverMessageType? (prop message "type") = some type)
    (hw : received message = some w) :
    ∃ raw, protocolEnvelope w = .ok raw ∧ raw.messageType = messageTypeOf type ∧
      received (prop message "payload") = some raw.payload ∧
      validId raw.id "id" = .ok () ∧ validTimestamp raw.timestamp "timestamp" = .ok () ∧
      serverPayload type (prop message "payload") [.name (ofString "payload")] = [] ∧
      prop message "id" = text raw.id ∧
      prop message "type" = text (messageTypeName raw.messageType).toList ∧
      prop message "timestamp" = text raw.timestamp ∧ raw.protocolVersion = .v1 ∧
      prop message "protocolVersion" = whole 1 := by
  rw [validateProtocolMessage] at hvalid
  split at hvalid
  · cases hvalid
  rename_i hobject
  replace hobject : isPlainObject message = true := Bool.eq_true_of_not_eq_false hobject
  dsimp only at hvalid
  split at hvalid
  swap
  · cases hvalid
  rename_i hissues
  simp only [List.append_eq_nil_iff] at hissues
  obtain ⟨⟨⟨⟨⟨hknown, hid⟩, -⟩, htime⟩, hversion⟩, hpayload⟩ := hissues
  obtain ⟨hpayloadObject, hpayload⟩ := objectValue_eq_nil hpayload
  obtain ⟨fields, rfl, hfields⟩ := exists_fields hobject hw
  have hstruct := hfields.structFields hknown
  obtain ⟨id, hid, hvalidId, hidField⟩ := hfields.string (idProperty_eq_nil hid)
  have hname : ∃ s, prop message "type" = .string s ∧ s = ofString type.name := by
    have hfind := List.find?_some htype
    cases hvalue : prop message "type" with
    | string s =>
        rw [hvalue] at hfind
        exact ⟨s, rfl, (of_decide_eq_true hfind).symm⟩
    | _ => rw [hvalue] at hfind; cases hfind
  obtain ⟨s, hstring, rfl⟩ := hname
  have hmember : isMemberOf (ServerToAgentMessageType.all.map (fun t => t.name))
      (prop message "type") = true := by
    rw [hstring]
    apply List.any_eq_true.mpr
    refine ⟨type.name, List.mem_map_of_mem (List.mem_of_find?_eq_some htype), ?_⟩
    exact decide_eq_true rfl
  obtain ⟨a, hvariant, -, htypeField⟩ := hfields.variant names_messageTypes hmember
  have ha : a = messageTypeOf type := by
    apply eq_messageTypeOf
    rw [hstring] at hvariant
    exact String.toList_inj.mp (ofChars_injective (JsValue.string.inj hvariant)).symm
  obtain ⟨time, htime, hvalidTime, htimeField⟩ := hfields.string (issueUnless_eq_nil.mp htime)
  have hone : prop message "protocolVersion" = .number (.finite 1) := by
    have hsupported : isSupportedProtocolVersion (prop message "protocolVersion") = true :=
      issueUnless_eq_nil.mp hversion
    cases hvalue : prop message "protocolVersion" with
    | number n =>
        rw [hvalue] at hsupported
        exact congrArg JsValue.number (of_decide_eq_true hsupported)
    | _ => rw [hvalue] at hsupported; cases hsupported
  have hversionField : requiredField AgentContracts.protocolVersion fields "protocolVersion" =
      .ok .v1 := by
    have hdoc : (prop message "protocolVersion").toJson = some (.number (.finite (1 : Nat))) := by
      rw [hone]
      rfl
    rw [requiredField_of_lookup (hfields.received_whole hdoc)]
    rfl
  obtain ⟨sub, hreceived, hlookup, -⟩ := hfields.object hpayloadObject
  have hpayloadField : requiredField .ok fields "payload" = .ok (Value.object sub) :=
    requiredField_of_lookup hlookup
  refine ⟨⟨id, a, time, .v1, .object sub⟩, ?_, ha, hreceived, validId_of_matches hvalidId _,
    validTimestamp_of_matches hvalidTime _, ?_, hid, hvariant, htime, rfl, ?_⟩
  · have hstruct' : structFields ["id", "type", "timestamp", "protocolVersion", "payload"]
        (.object fields) = .ok fields := hstruct
    simp only [protocolEnvelope, hstruct', hidField, htypeField, htimeField, hversionField,
      hpayloadField, ok_bind]
    rfl
  · have htyped : typedPayload (prop message "type") (prop message "payload") = [] := hpayload
    rw [typedPayload, htype] at htyped
    exact htyped
  · rw [hone, whole, JsNumber.ofNat, Nat.cast_one]

/-! The agreement -/

/-- What the agent takes of the messages that the server accepts: no string has a lone surrogate,
and an assignment is one that the agent can take. -/
structure Conveyable (message : JsValue) : Prop where
  wellFormed : ∀ doc, message.toJson = some doc → ∀ s ∈ stringsOf doc, s.toChars?.isSome = true
  assignment : serverMessageType? (prop message "type") = some .taskAssignment →
    Takeable (prop message "payload")

theorem exists_received (hobject : isPlainObject message = true)
    (hwell : ∀ doc, message.toJson = some doc → ∀ s ∈ stringsOf doc, s.toChars?.isSome = true) :
    ∃ w, received message = some w := by
  obtain ⟨doc, hdoc⟩ := exists_doc_of_object hobject
  have hsome : (Value.ofJson doc).isSome = true := by
    rw [ofJson_isSome]
    exact List.all_eq_true.mpr (hwell doc hdoc)
  obtain ⟨w, hw⟩ := Option.isSome_iff_exists.mp hsome
  refine ⟨w, ?_⟩
  rw [received, hdoc]
  exact hw

theorem wellFormed_of_received (hw : received message = some w) :
    ∀ doc, message.toJson = some doc → ∀ s ∈ stringsOf doc, s.toChars?.isSome = true := by
  intro doc hdoc
  rw [received, hdoc] at hw
  have hsome : (Value.ofJson doc).isSome = true := by
    rw [show Value.ofJson doc = some w from hw]
    rfl
  rw [ofJson_isSome] at hsome
  exact List.all_eq_true.mp hsome

theorem isPlainObject_of_valid (hvalid : (validateProtocolMessage message).isOk = true) :
    isPlainObject message = true := by
  rw [validateProtocolMessage] at hvalid
  split at hvalid
  · cases hvalid
  · rename_i hobject
    exact Bool.eq_true_of_not_eq_false hobject

/-- A message that the agent receives: it is decoded with the values of its fields, unless it is an
assignment that the agent cannot take. -/
theorem parseMessage_received (hvalid : (validateProtocolMessage message).isOk = true)
    (htype : serverMessageType? (prop message "type") = some type)
    (hw : received message = some w) :
    ((type = .taskAssignment → Takeable (prop message "payload")) →
      ∃ decoded, parseMessage w = .ok decoded ∧ Agrees message decoded) ∧
    (type = .taskAssignment → ¬ Takeable (prop message "payload") →
      ∀ decoded, parseMessage w ≠ .ok decoded) := by
  obtain ⟨raw, hraw, hrawType, hpayload, hid, htime, hserver, hidValue, htypeValue, htimeValue,
    hversion, hversionValue⟩ := parse_envelope hvalid htype hw
  have hparse : parseMessage w = parsePayload raw := by
    rw [parseMessage, hraw, ok_bind, hid, ok_bind, htime, ok_bind]
  have henvelope : ∀ {α : Type} {agrees : JsValue → α → Prop} {payload : α},
      agrees (prop message "payload") payload →
        EnvelopeAgrees message agrees (typed raw payload) :=
    fun h => ⟨hidValue, htypeValue, htimeValue, ⟨hversion, hversionValue⟩, h⟩
  rw [hparse]
  cases type with
  | taskAssignment =>
      obtain ⟨hgood, hbad⟩ := parse_taskAssignment hserver hrawType hpayload
      constructor
      · intro htakeable
        obtain ⟨payload, hok, hagrees⟩ := hgood (htakeable rfl)
        exact ⟨_, hok, henvelope hagrees⟩
      · exact fun _ => hbad
  | agentRegistered =>
      obtain ⟨payload, hok, hagrees⟩ := parse_agentRegistered hserver hrawType hpayload
      exact ⟨fun _ => ⟨_, hok, henvelope hagrees⟩, fun h => by cases h⟩
  | taskAvailable =>
      obtain ⟨payload, hok, hagrees⟩ := parse_taskAvailable hserver hrawType hpayload
      exact ⟨fun _ => ⟨_, hok, henvelope hagrees⟩, fun h => by cases h⟩
  | taskLogAck =>
      obtain ⟨payload, hok, hagrees⟩ := parse_taskLogAck hserver hrawType hpayload
      exact ⟨fun _ => ⟨_, hok, henvelope hagrees⟩, fun h => by cases h⟩
  | taskArtifactManifestAck =>
      obtain ⟨payload, hok, hagrees⟩ := parse_taskArtifactManifestAck hserver hrawType hpayload
      exact ⟨fun _ => ⟨_, hok, henvelope hagrees⟩, fun h => by cases h⟩
  | taskRecovery =>
      obtain ⟨payload, hok, hagrees⟩ := parse_taskRecovery hserver hrawType hpayload
      exact ⟨fun _ => ⟨_, hok, henvelope hagrees⟩, fun h => by cases h⟩
  | taskResultAck =>
      obtain ⟨payload, hok, hagrees⟩ := parse_taskResultAck hserver hrawType hpayload
      exact ⟨fun _ => ⟨_, hok, henvelope hagrees⟩, fun h => by cases h⟩
  | taskCancel =>
      obtain ⟨payload, hok, hagrees⟩ := parse_taskCancel hserver hrawType hpayload
      exact ⟨fun _ => ⟨_, hok, henvelope hagrees⟩, fun h => by cases h⟩
  | taskInput =>
      obtain ⟨payload, hok, hagrees⟩ := parse_taskInput hserver hrawType hpayload
      exact ⟨fun _ => ⟨_, hok, henvelope hagrees⟩, fun h => by cases h⟩
  | agentTokenRevoked =>
      obtain ⟨payload, hok, hagrees⟩ := parse_agentTokenRevoked hserver hrawType hpayload
      exact ⟨fun _ => ⟨_, hok, henvelope hagrees⟩, fun h => by cases h⟩

/-- The object with these properties. -/
def objectOf (properties : List (String × JsValue)) : JsValue :=
  .object (properties.map (fun property => ofString property.1)) (fun key =>
    ((properties.find? (fun property => ofString property.1 = key)).map Prod.snd).getD .undefined)

def literal (s : String) : JsValue :=
  .string (ofString s)

def demoEnvelope (type : String) (payload : JsValue) : JsValue :=
  objectOf [("id", literal "m1"), ("type", literal type),
    ("timestamp", literal "2026-08-25T00:00:00Z"), ("protocolVersion", whole 1),
    ("payload", payload)]

def demoInput (line : JsString) : JsValue :=
  demoEnvelope "task.input" (objectOf [("taskId", literal "task-1"),
    ("leaseToken", literal "lease-token-000001"),
    ("inputId", literal "00000000-0000-4000-8000-000000000001"), ("text", .string line),
    ("sensitive", .bool false), ("appendNewline", .bool true),
    ("sentAt", literal "2026-08-25T00:00:00Z")])

def demoAssignment (url : String) : JsValue :=
  demoEnvelope "task.assignment" (objectOf [("taskId", literal "task-1"),
    ("leaseToken", literal "lease-token-000001"), ("leaseExpiresAt", literal "2026-08-25T00:00:00Z"),
    ("agentId", literal "agent-1"), ("projectId", literal "project-1"),
    ("buildTemplateId", literal "template-1"),
    ("git", objectOf [("url", literal url), ("branch", literal "main")]),
    ("command", literal "make"), ("artifactDir", literal "dist"), ("timeoutSeconds", whole 60),
    ("config", objectOf []), ("sensitiveConfigKeys", .array []),
    ("interactiveInputEnabled", .bool false)])

end AnvilRun.Websocket
