import AnvilRun.AgentIsolation
import AnvilRun.JsonSize
import AnvilRun.TaskLogSubscription.DeliveredOnce
import AnvilRun.Websocket.Fields
import AnvilRun.Websocket.Passes

namespace AnvilRun.AgentMessages

open AnvilRun.Effect
open AnvilRun.Json
open AnvilRun.JsString
open AnvilRun.ServerRedactor
open AnvilRun.TaskDatabase
open AnvilRun.TaskLogRoundTrip
open AnvilRun.TaskLogStorage
open AnvilRun.TaskLogSubscription
open AnvilRun.TaskQueue
open AnvilRun.ValidationPrimitives
open AnvilRun.Websocket

/-! The messages that the protocol accepts -/

/-- The value of a property of the payload. -/
def payloadProperty (value : JsValue) (name : String) : JsValue :=
  (value.property (ofString "payload")).property (ofString name)

/-- A value that the protocol accepts as `task.log`, and the message that it is. -/
structure LogAccepted (value : JsValue) (message : TaskLogMessage) : Prop where
  accepted : validateProtocolMessage value = .ok value
  type : value.property (ofString "type") = .string (ofString "task.log")
  taskId : payloadProperty value "taskId" = .string message.taskId
  leaseToken : payloadProperty value "leaseToken" = .string message.leaseToken
  sequence : payloadProperty value "sequence" = .number (.finite message.sequence)
  stream : payloadProperty value "stream" = .string (streamName message.stream)
  chunk : payloadProperty value "chunk" = .string message.chunk
  emittedAt : payloadProperty value "emittedAt" = .string message.emittedAt

variable {value : JsValue} {message : TaskLogMessage}

theorem agentPayload_of_accepted (haccepted : validateProtocolMessage value = .ok value)
    (htype : value.property (ofString "type") = .string (ofString "task.log")) :
    agentPayload .taskLog (value.property (ofString "payload")) [.name (ofString "payload")]
      = [] := by
  rw [validateProtocolMessage] at haccepted
  dsimp only at haccepted
  split at haccepted
  · cases haccepted
  · split at haccepted
    · rename_i hissues
      have hpayload := (List.append_eq_nil_iff.mp hissues).2
      have htyped := (objectValue_eq_nil hpayload).2
      rw [htype] at htyped
      exact htyped
    · cases haccepted

theorem LogAccepted.chunk_le (h : LogAccepted value message) :
    message.chunk.utf8Length ≤ maxTaskLogChunkBytes := by
  have hpayload := agentPayload_of_accepted h.accepted h.type
  have hfields := (List.append_eq_nil_iff.mp (objectValue_eq_nil hpayload).2).2
  have hchunk := (List.append_eq_nil_iff.mp (List.append_eq_nil_iff.mp hfields).1).2
  have hpassed := issueUnless_eq_nil.mp hchunk
  have hvalue : (value.property (ofString "payload")).property (ofString "chunk")
      = .string message.chunk := h.chunk
  rw [hvalue] at hpassed
  exact of_decide_eq_true hpassed

theorem exists_string {p : JsString → Bool} {raw : JsValue} (h : stringWith p raw = true) :
    ∃ s, raw = .string s ∧ p s = true := by
  cases raw with
  | string s => exact ⟨s, rfl, h⟩
  | _ => cases h

theorem exists_streamName {raw : JsValue} (h : isMemberOf logStreams raw = true) :
    ∃ stream, raw = .string (streamName stream) := by
  obtain ⟨s, rfl, hs⟩ := exists_string h
  obtain ⟨name, hname, hs⟩ := List.any_eq_true.mp hs
  obtain rfl := of_decide_eq_true hs
  rw [logStreams, List.mem_pair] at hname
  rcases hname with rfl | rfl
  · exact ⟨.stdout, rfl⟩
  · exact ⟨.stderr, rfl⟩

/-- Every value that is accepted is such a message. -/
theorem exists_logAccepted (haccepted : validateProtocolMessage value = .ok value)
    (htype : value.property (ofString "type") = .string (ofString "task.log")) :
    ∃ message, LogAccepted value message := by
  have hpayload := agentPayload_of_accepted haccepted htype
  have hfields := (List.append_eq_nil_iff.mp (objectValue_eq_nil hpayload).2).2
  simp only [List.append_eq_nil_iff, taskLease] at hfields
  obtain ⟨⟨⟨⟨⟨htask, hlease⟩, hsequence⟩, hstream⟩, hchunk⟩, htime⟩ := hfields
  obtain ⟨taskId, htask, -⟩ := exists_string (idProperty_eq_nil htask)
  obtain ⟨leaseToken, hlease, -⟩ := exists_string (leaseProperty_eq_nil hlease)
  obtain ⟨sequence, hsequence, -⟩ := exists_whole (positiveInteger_eq_nil hsequence)
  obtain ⟨stream, hstream⟩ := exists_streamName (issueUnless_eq_nil.mp hstream)
  obtain ⟨chunk, hchunk, -⟩ := exists_string (issueUnless_eq_nil.mp hchunk)
  obtain ⟨emittedAt, htime, -⟩ := exists_string (timeProperty_eq_nil htime)
  exact ⟨⟨taskId, leaseToken, sequence, stream, chunk, emittedAt⟩, haccepted, htype, htask, hlease,
    hsequence, hstream, hchunk, htime⟩

/-! The size of a record -/

/-- The bytes of a record: what all records have, the digits of the sequence and the two texts. -/
def recordLength (e : TaskLogEntry) : Nat :=
  58 + (natText e.sequence).length + escapedLength e.chunk + escapedLength e.emittedAt

theorem length_encodeEntry (e : TaskLogEntry) : (encodeEntry e).length = recordLength e := by
  have hstream : (Utf8.encode (quote (streamName e.stream))).length = 8 := by
    cases e.stream with
    | stdout => decide
    | stderr => decide
  have hsequence : (Utf8.encode (quote (ofString "sequence"))).length = 10 := by decide
  have hkey : (Utf8.encode (quote (ofString "stream"))).length = 8 := by decide
  have hchunk : (Utf8.encode (quote (ofString "chunk"))).length = 7 := by decide
  have htime : (Utf8.encode (quote (ofString "emittedAt"))).length = 11 := by decide
  have hnil : (Utf8.encode []).length = 0 := rfl
  rw [encodeEntry, entryText, recordLength]
  simp only [List.cons_append, List.append_assoc, List.nil_append, length_encode_append,
    length_encode_cons, hstream, hsequence, hkey, hchunk, htime, hnil, length_encode_natText,
    length_encode_quote]
  rw [utf8Size_ascii (c := '{') (by decide), utf8Size_ascii (c := ':') (by decide),
    utf8Size_ascii (c := ',') (by decide), utf8Size_ascii (c := '}') (by decide),
    utf8Size_ascii (c := '\n') (by decide)]
  generalize (natText e.sequence).length = digits, escapedLength e.chunk = chunk,
    escapedLength e.emittedAt = time
  clear hstream hsequence hkey hchunk htime hnil
  omega

/-! Storing a chunk -/

/-- The redactor that masks the chunks of a task. -/
def redactorOf (env : Environment) (s : Server) (task : BuildTask) (taskId : Id) :
    ServerLogRedactor :=
  (s.redactors taskId).getD (SensitiveValues.redactorFor env.runtime
    ⟨((s.db.templates.row task.buildTemplateId).map BuildTemplate.formSchema).getD .null,
      task.logSensitiveKeys, task.config⟩)

/-- The entry that is stored for a message. -/
def entryFor (env : Environment) (s : Server) (task : BuildTask) (message : TaskLogMessage) :
    TaskLogEntry where
  sequence := message.sequence
  stream := message.stream
  chunk := ((redactorOf env s task (asciiLower message.taskId)).redact message.stream
    message.chunk).1
  emittedAt := message.emittedAt

/-- A message with a good lease and the next sequence, for a log that holds the entries `stored`
and has room for one more. The file system does what it is asked to. -/
structure Awaited (env : Environment) (occasion : Occasion) (agentId : Id) (s : Server)
    (task : BuildTask) (stored : List TaskLogEntry) (message : TaskLogMessage) : Prop where
  uuid : matchesUuid message.taskId = true
  found : s.db.findTask message.taskId = some task
  owner : task.agentId = agentId
  lease : logLeaseValid env occasion.now ((s.db.agents.row agentId).bind Agent.activeTaskId)
    (asciiLower message.taskId) task message.leaseToken = true
  lastLogSequence_le : task.lastLogSequence ≤ JsNumber.maxSafeInteger
  logSize_le : task.logSize ≤ JsNumber.maxSafeInteger
  finds : Finds ⟨s.logs message.taskId, ⟨task.logSize, task.lastLogSequence⟩,
    redactorOf env s task (asciiLower message.taskId)⟩ stored
  next : message.sequence = stored.length + 1
  room : (fileBytes (stored ++ [entryFor env s task message])).length ≤ maxTaskLogFileBytes
  write : occasion.write = .completed

/-- The entry of the message is in the log, and the message is acknowledged with its sequence and
the new size of the log. -/
def Acknowledged (env : Environment) (occasion : Occasion) (agentId : Id) (s : Server)
    (task : BuildTask) (stored : List TaskLogEntry) (message : TaskLogMessage) : Prop :=
  ∃ t, appendFromAgent env occasion agentId message s =
      (.ok (message.taskId, fullState (stored ++ [entryFor env s task message])), t) ∧
    (t.logs message.taskId).bytes = fileBytes (stored ++ [entryFor env s task message])

variable {env : Environment} {occasion : Occasion} {agentId : Id} {s : Server} {task : BuildTask}
  {stored : List TaskLogEntry}

/-- Up to the storage nothing stops the message. -/
theorem Awaited.appendFromAgent_apply (h : Awaited env occasion agentId s task stored message)
    (hchunk : message.chunk.utf8Length ≤ maxTaskLogChunkBytes) :
    ∃ u file, file.getD [] = fileBytes stored ∧
      u.logs message.taskId = ⟨file, some (fullState stored)⟩ ∧
      appendFromAgent env occasion agentId message s =
        (onLog message.taskId (fun log => append occasion.write log (entryFor env s task message))
          >>= fun nextOffset =>
            updateDb (setLogCursor occasion.now (asciiLower message.taskId)
              ⟨nextOffset, message.sequence⟩) >>= fun _ =>
            pure (message.taskId, ⟨nextOffset, message.sequence⟩)) u := by
  obtain ⟨file, hfound, hfile⟩ := h.finds.found
  have hget : (Effect.get : Handler Server) s = (.ok s, s) := rfl
  have hlog : onLog message.taskId (logState (some ⟨task.logSize, task.lastLogSequence⟩)) s =
      (.ok (fullState stored), { s with
        logs := Function.update s.logs message.taskId ⟨file, some (fullState stored)⟩ }) := by
    rw [onLog, logState, hfound]
    rfl
  have hnext : ¬ message.sequence ≠ (fullState stored).lastSequence + 1 := not_not.mpr h.next
  rw [appendFromAgent, check_bind_apply ⟨h.uuid, hchunk⟩, bind_apply_ok hget]
  dsimp only
  rw [h.found]
  dsimp only
  rw [check_bind_apply ⟨h.owner, h.lease⟩,
    check_bind_apply ⟨h.lastLogSequence_le, h.logSize_le⟩, bind_apply_ok hlog,
    updateDb, bind_apply_ok (onlyIf_modify_apply _ _ _), if_neg hnext,
    bind_apply_ok (modify_apply _ _)]
  split
  · apply Exists.intro
    refine ⟨file, hfile, ?_, rfl⟩
    exact Function.update_self ..
  · apply Exists.intro
    refine ⟨file, hfile, ?_, rfl⟩
    exact Function.update_self ..

/-- A record of the right size is stored and acknowledged. -/
theorem Awaited.acknowledged (h : Awaited env occasion agentId s task stored message)
    (hchunk : message.chunk.utf8Length ≤ maxTaskLogChunkBytes)
    (hsize : recordLength (entryFor env s task message) ≤ maxTaskLogChunkBytes + 2048) :
    Acknowledged env occasion agentId s task stored message := by
  obtain ⟨u, file, hfile, hlog, happly⟩ := h.appendFromAgent_apply hchunk
  have happended : Appended (stored ++ [entryFor env s task message]) := by
    refine ⟨contiguous_append.mpr ⟨h.finds.appended.contiguous, ?_, trivial⟩, fun e he => ?_,
      h.room⟩
    · rw [Nat.zero_add]
      exact h.next
    · rcases List.mem_append.mp he with he | he
      · exact h.finds.appended.entrySize e he
      · rw [List.mem_singleton.mp he, length_encodeEntry]
        exact hsize
  have hholds : Holds ⟨file, some (fullState stored)⟩ stored := ⟨hfile, Or.inr rfl⟩
  have happend := append_holds hholds happended (fun hnone => by cases hnone)
  have hon : onLog message.taskId
        (fun log => append occasion.write log (entryFor env s task message)) u =
      (.ok (fileBytes (stored ++ [entryFor env s task message])).length, { u with
        logs := Function.update u.logs message.taskId
          ⟨some (fileBytes (stored ++ [entryFor env s task message])),
            some (fullState (stored ++ [entryFor env s task message]))⟩ }) := by
    rw [onLog, hlog, h.write, happend]
    rfl
  have hstate : fullState (stored ++ [entryFor env s task message])
      = ⟨(fileBytes (stored ++ [entryFor env s task message])).length, message.sequence⟩ := by
    rw [fullState, List.length_append, List.length_singleton, ← h.next]
  rw [Acknowledged, hstate, happly, bind_apply_ok hon, updateDb, bind_apply_ok (modify_apply _ _)]
  apply Exists.intro
  refine ⟨rfl, ?_⟩
  dsimp only [Server.setDb]
  rw [Function.update_self]
  rfl

/-- A record that is too large is not stored, and the handler throws. -/
theorem Awaited.not_acknowledged (h : Awaited env occasion agentId s task stored message)
    (hchunk : message.chunk.utf8Length ≤ maxTaskLogChunkBytes)
    (hsize : ¬ recordLength (entryFor env s task message) ≤ maxTaskLogChunkBytes + 2048) :
    ¬ Acknowledged env occasion agentId s task stored message := by
  obtain ⟨u, file, -, hlog, happly⟩ := h.appendFromAgent_apply hchunk
  have happend : append .completed ⟨file, some (fullState stored)⟩ (entryFor env s task message)
      = (.error .io, ⟨file, some (fullState stored)⟩) := by
    rw [append, currentState]
    dsimp only
    rw [if_pos]
    rw [length_encodeEntry]
    exact Nat.lt_of_not_le hsize
  have hon : (onLog message.taskId
        (fun log => append occasion.write log (entryFor env s task message)) u).1 =
      .error .database := by
    rw [onLog, hlog, h.write, happend]
    rfl
  rintro ⟨t, ht, -⟩
  have hfails := (bind_apply_error (Prod.ext hon rfl)).symm.trans (happly.symm.trans ht)
  cases hfails

/-- An accepted chunk is stored and acknowledged exactly if the record of its masked text is not
too large. -/
theorem logChunk_acknowledged_iff (env : Environment) (occasion : Occasion) (agentId : Id)
    (s : Server) (task : BuildTask) (stored : List TaskLogEntry) (value : JsValue)
    (message : TaskLogMessage) (haccepted : LogAccepted value message)
    (hawaited : Awaited env occasion agentId s task stored message) :
    Acknowledged env occasion agentId s task stored message ↔
      recordLength (entryFor env s task message) ≤ maxTaskLogChunkBytes + 2048 := by
  constructor
  · intro hacknowledged
    by_contra hsize
    exact hawaited.not_acknowledged haccepted.chunk_le hsize hacknowledged
  · exact hawaited.acknowledged haccepted.chunk_le

/-! The server of `AgentIsolation`, with a task under a token of the protocol -/

def chunkToken : JsString := ofString "lease-token-000001"
def chunkTime : JsString := ofString "2026-08-25T00:00:00Z"

def chunkDb : Db :=
  StatusHistory.demoRun [StatusHistory.demoCreate,
    .claim SlotSystem.demoRegistry 0 (fun _ => chunkToken) SlotSystem.demoAgentId none,
    .accept 0 SlotSystem.demoAgentId SlotSystem.demoTaskId chunkToken]

def chunkServer : Server :=
  { AgentIsolation.demoServer with db := chunkDb }

def chunkPayload (chunk : JsString) : JsValue :=
  .ofProperties [(ofString "taskId", .string SlotSystem.demoTaskId),
    (ofString "leaseToken", .string chunkToken), (ofString "sequence", .number (.finite 1)),
    (ofString "stream", .string (streamName .stdout)), (ofString "chunk", .string chunk),
    (ofString "emittedAt", .string chunkTime)]

/-- The first chunk of the task. -/
def chunkValue (chunk : JsString) : JsValue :=
  .ofProperties [(ofString "id", .string (ofString "m1")),
    (ofString "type", .string (ofString "task.log")), (ofString "timestamp", .string chunkTime),
    (ofString "protocolVersion", whole 1), (ofString "payload", chunkPayload chunk)]

def chunkMessage (chunk : JsString) : TaskLogMessage :=
  ⟨SlotSystem.demoTaskId, chunkToken, 1, .stdout, chunk, chunkTime⟩

variable {chunk : JsString}

theorem agentPayload_chunkPayload (hchunk : chunk.utf8Length ≤ taskLogChunkMaxBytes) :
    agentPayload .taskLog (chunkPayload chunk) [.name (ofString "payload")] = [] := by
  have hplain : isPlainObject (chunkPayload chunk) = true := rfl
  have htask : (chunkPayload chunk).property (ofString "taskId") =
      .string SlotSystem.demoTaskId := rfl
  have hlease : (chunkPayload chunk).property (ofString "leaseToken") = .string chunkToken := rfl
  have hsequence : (chunkPayload chunk).property (ofString "sequence") = .number (.finite 1) := rfl
  have hstream : (chunkPayload chunk).property (ofString "stream") =
      .string (streamName .stdout) := rfl
  have htext : (chunkPayload chunk).property (ofString "chunk") = .string chunk := rfl
  have htime : (chunkPayload chunk).property (ofString "emittedAt") = .string chunkTime := rfl
  rw [agentPayload, objectValue, if_pos hplain]
  simp only [List.append_eq_nil_iff, taskLease]
  refine ⟨rfl, ⟨⟨⟨⟨?_, ?_⟩, ?_⟩, ?_⟩, ?_⟩, ?_⟩
  · exact (idProperty_nil_iff htask).mpr (by decide)
  · exact (leaseProperty_nil_iff hlease).mpr (by decide)
  · rw [positiveInteger, hsequence, issueUnless_eq_nil]
    decide
  · rw [hstream, issueUnless_eq_nil]
    decide
  · rw [htext, issueUnless_eq_nil]
    exact decide_eq_true hchunk
  · rw [timeProperty, htime, issueUnless_eq_nil]
    decide

theorem envelopeValid_chunkValue (chunk : JsString) : EnvelopeValid (chunkValue chunk) := by
  have hid : (chunkValue chunk).property (ofString "id") = .string (ofString "m1") := rfl
  have htype : (chunkValue chunk).property (ofString "type") = .string (ofString "task.log") := rfl
  have htime : (chunkValue chunk).property (ofString "timestamp") = .string chunkTime := rfl
  have hversion : (chunkValue chunk).property (ofString "protocolVersion") = whole 1 := rfl
  have hpayload : (chunkValue chunk).property (ofString "payload") = chunkPayload chunk := rfl
  refine ⟨rfl, rfl, (idProperty_nil_iff hid).mpr (by decide), ?_, ?_, ?_, ?_⟩
  · rw [htype]
    decide
  · rw [htime]
    decide
  · rw [hversion]
    decide
  · rw [hpayload]
    rfl

theorem logAccepted_chunkValue (hchunk : chunk.utf8Length ≤ taskLogChunkMaxBytes) :
    LogAccepted (chunkValue chunk) (chunkMessage chunk) := by
  have htype : (chunkValue chunk).property (ofString "type") = .string (ofString "task.log") := rfl
  have hpayload : (chunkValue chunk).property (ofString "payload") = chunkPayload chunk := rfl
  have haccepted : validateProtocolMessage (chunkValue chunk) = .ok (chunkValue chunk) := by
    rw [(envelopeValid_chunkValue chunk).validate_iff, hpayload, typedPayload, htype]
    exact agentPayload_chunkPayload hchunk
  exact ⟨haccepted, htype, rfl, rfl, rfl, rfl, rfl, rfl⟩

/-- The row of the task, as far as the log needs it. -/
theorem exists_chunkTask : ∃ task, chunkDb.findTask SlotSystem.demoTaskId = some task ∧
    task.agentId = SlotSystem.demoAgentId ∧
    logLeaseValid SlotSystem.demoEnvironment 0
      ((chunkDb.agents.row SlotSystem.demoAgentId).bind Agent.activeTaskId)
      SlotSystem.demoTaskId task chunkToken = true ∧
    task.lastLogSequence = 0 ∧ task.logSize = 0 ∧
    (redactorOf SlotSystem.demoEnvironment chunkServer task SlotSystem.demoTaskId).values = [] := by
  have hrow : (chunkDb.findTask SlotSystem.demoTaskId).map (fun task =>
      (task.agentId, logLeaseValid SlotSystem.demoEnvironment 0
        ((chunkDb.agents.row SlotSystem.demoAgentId).bind Agent.activeTaskId)
        SlotSystem.demoTaskId task chunkToken, task.lastLogSequence, task.logSize,
        (redactorOf SlotSystem.demoEnvironment chunkServer task SlotSystem.demoTaskId).values)) =
      some (SlotSystem.demoAgentId, true, 0, 0, []) := by
    decide +kernel
  obtain ⟨task, hrow, heq⟩ := Option.map_eq_some_iff.mp hrow
  simp only [Prod.mk.injEq] at heq
  exact ⟨task, hrow, heq⟩

theorem redact_of_values_nil {r : ServerLogRedactor} (h : r.values = []) (stream : LogStream)
    (chunk : JsString) : (r.redact stream chunk).1 = chunk := by
  rw [ServerLogRedactor.redact, if_pos h]

theorem exists_awaited_chunkMessage
    (hroom : escapedLength chunk ≤ 1000000) :
    ∃ task, Awaited SlotSystem.demoEnvironment AgentIsolation.demoOccasion SlotSystem.demoAgentId
        chunkServer task [] (chunkMessage chunk) ∧
      recordLength (entryFor SlotSystem.demoEnvironment chunkServer task (chunkMessage chunk)) =
        79 + escapedLength chunk := by
  obtain ⟨task, hfound, howner, hlease, hsequence, hsize, hvalues⟩ := exists_chunkTask
  have hlower : asciiLower SlotSystem.demoTaskId = SlotSystem.demoTaskId := by decide
  have hentry : entryFor SlotSystem.demoEnvironment chunkServer task (chunkMessage chunk) =
      ⟨1, .stdout, chunk, chunkTime⟩ := by
    rw [entryFor]
    have hmasked := redact_of_values_nil hvalues .stdout chunk
    show TaskLogEntry.mk _ _ _ _ = _
    rw [← hlower] at hmasked
    exact congrArg (TaskLogEntry.mk 1 .stdout · chunkTime) hmasked
  have hlength : recordLength ⟨1, .stdout, chunk, chunkTime⟩ = 79 + escapedLength chunk := by
    have htime : escapedLength chunkTime = 20 := by decide
    have hdigits : (natText 1).length = 1 := by decide
    show 58 + (natText 1).length + escapedLength chunk + escapedLength chunkTime = _
    rw [htime, hdigits]
    omega
  have huuid : matchesUuid SlotSystem.demoTaskId = true := by decide
  refine ⟨task, ⟨huuid, hfound, howner, ?_, ?_, ?_, ?_, rfl, ?_, rfl⟩, ?_⟩
  · show logLeaseValid _ 0 _ (asciiLower SlotSystem.demoTaskId) task chunkToken = true
    rw [hlower]
    exact hlease
  · rw [hsequence]
    exact Nat.zero_le _
  · rw [hsize]
    exact Nat.zero_le _
  · rw [hsequence, hsize]
    exact ⟨⟨trivial, fun e he => absurd he List.not_mem_nil, Nat.zero_le _⟩, none, rfl, rfl⟩
  · rw [hentry, List.nil_append, fileBytes_cons, fileBytes_nil, List.append_nil, length_encodeEntry,
      hlength]
    have hmax : maxTaskLogFileBytes = 1073741824 := rfl
    omega
  · rw [hentry, hlength]

/-- A greeting is stored and acknowledged. -/
theorem acknowledged_hello : ∃ task, Acknowledged SlotSystem.demoEnvironment
    AgentIsolation.demoOccasion SlotSystem.demoAgentId chunkServer task []
    (chunkMessage (ofString "hello")) := by
  have haccepted : LogAccepted (chunkValue (ofString "hello")) (chunkMessage (ofString "hello")) :=
    logAccepted_chunkValue (by decide)
  have hescaped : escapedLength (ofString "hello") = 5 := by decide
  obtain ⟨task, hawaited, hlength⟩ :=
    exists_awaited_chunkMessage (hescaped.trans_le (by decide))
  refine ⟨task, (logChunk_acknowledged_iff _ _ _ _ task [] _ _ haccepted hawaited).mpr ?_⟩
  rw [hlength, hescaped]
  decide

theorem utf8Length_replicate {u : UInt16} (h : u.toNat < 0x80) (n : Nat) :
    utf8Length (List.replicate n u) = n := by
  have hhigh : isHighSurrogate u = false := by
    rw [isHighSurrogate]
    grind
  induction n with
  | zero => rfl
  | succ n ih => rw [List.replicate_succ, utf8Length_cons hhigh, if_pos h, ih, Nat.add_comm]

/-- The protocol accepts eleven thousand control characters, and their record is too large. -/
theorem controls_not_acknowledged :
    ∃ value message task, LogAccepted value message ∧
      Awaited SlotSystem.demoEnvironment AgentIsolation.demoOccasion SlotSystem.demoAgentId
        chunkServer task [] message ∧
      ¬ Acknowledged SlotSystem.demoEnvironment AgentIsolation.demoOccasion
        SlotSystem.demoAgentId chunkServer task [] message := by
  have hraw : utf8Length (List.replicate 11300 1) = 11300 := utf8Length_replicate (by decide) 11300
  have haccepted : LogAccepted (chunkValue (List.replicate 11300 1))
      (chunkMessage (List.replicate 11300 1)) := by
    apply logAccepted_chunkValue
    rw [hraw]
    decide
  have hescaped : escapedLength (List.replicate 11300 1) = 11300 * 6 :=
    escapedLength_replicate (by decide) 11300
  obtain ⟨task, hawaited, hlength⟩ :=
    exists_awaited_chunkMessage (hescaped.trans_le (by decide))
  refine ⟨_, _, task, haccepted, hawaited, hawaited.not_acknowledged haccepted.chunk_le ?_⟩
  rw [hlength, hescaped]
  decide

end AnvilRun.AgentMessages
