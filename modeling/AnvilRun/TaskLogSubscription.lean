import AnvilRun.ServerRedactor
import AnvilRun.TaskLogRoundTrip
import AnvilRun.TransitionSystem

namespace AnvilRun.TaskLogSubscription

open AnvilRun.ServerRedactor
open AnvilRun.TaskLogStorage
open AnvilRun.TaskLogRoundTrip

/-! `TaskLogsService` for one task -/

structure TaskLogPayload where
  sequence : Nat
  stream : LogStream
  chunk : JsString
  emittedAt : JsString

structure TaskLogBroadcastEvent where
  offset : Nat
  nextOffset : Nat
  entry : TaskLogEntry
  deriving DecidableEq

/-- The log of the task, its row, with the last sequence and the size of the log, and the redactor
of the task. -/
structure TaskLogs where
  log : TaskLog
  row : TaskLogFileState
  redactor : ServerLogRedactor

structure Ack where
  acknowledgedSequence : Nat
  persistedOffset : Nat

/-- The state of the file, which becomes that of the row. -/
def TaskLogs.getState (s : TaskLogs) : Except StorageError (TaskLogFileState × TaskLogs) :=
  match TaskLogStorage.getState s.log (some s.row) with
  | .ok (fileState, log) => .ok (fileState, { s with log, row := fileState })
  | .error error => .error error

def TaskLogs.entryOf (s : TaskLogs) (payload : TaskLogPayload) : TaskLogEntry where
  sequence := payload.sequence
  stream := payload.stream
  chunk := (s.redactor.redact payload.stream payload.chunk).1
  emittedAt := payload.emittedAt

/-- A call of `appendFromAgent` that succeeds: its lease is valid, and the file system and the
database do what they are asked to. An entry that is stored is broadcast. Nothing stands for a call
that fails. -/
def TaskLogs.appendFromAgent (s : TaskLogs) (payload : TaskLogPayload) :
    Option (Ack × TaskLogs × Option TaskLogBroadcastEvent) :=
  if maxTaskLogChunkBytes < payload.chunk.utf8Length then none
  else
    match s.getState with
    | .error _ => none
    | .ok (fileState, s) =>
        if payload.sequence ≠ fileState.lastSequence + 1 then
          some (⟨fileState.lastSequence, fileState.size⟩, s, none)
        else
          let entry := s.entryOf payload
          match append .completed s.log entry with
          | (.error _, _) => none
          | (.ok nextOffset, log) =>
              some (⟨payload.sequence, nextOffset⟩,
                { log
                  row := ⟨nextOffset, payload.sequence⟩
                  redactor := (s.redactor.redact payload.stream payload.chunk).2 },
                some ⟨fileState.size, nextOffset, entry⟩)

structure History where
  offset : Nat
  page : TaskLogReadResult

def TaskLogs.readHistory (s : TaskLogs) (offset limit : Nat) :
    Except StorageError (History × TaskLogs) := do
  let (_, s) ← s.getState
  let (page, log) ← TaskLogStorage.read s.log offset limit
  return (⟨offset, page⟩, { s with log })

/-! `subscribe` of the gateway -/

def historyLimit : Nat := 1048576

/-- The place of the handler: before the subscription, in front of its first page, with that page,
in front of a further page, with that one, and after the switch to live delivery. -/
inductive Phase where
  | idle
  | readingFirst (offset : Nat)
  | gotFirst (history : History)
  | reading (cursor targetOffset : Nat)
  | got (cursor targetOffset : Nat) (history : History)
  | live
  | closed

/-- The server with one socket. `stored` are the entries of the log, and `start` the offset of the
subscription. -/
structure State where
  logs : TaskLogs
  phase : Phase
  queued : List TaskLogBroadcastEvent
  sent : List TaskLogBroadcastEvent
  stored : List TaskLogEntry
  start : Nat

/-- The loop over the entries of a page, with the events that are sent and the cursor behind them.
-/
def sendEntries (targetOffset : Nat) :
    List TaskLogEntry → Nat → List TaskLogBroadcastEvent × Nat
  | [], cursor => ([], cursor)
  | entry :: entries, cursor =>
      if targetOffset ≤ cursor then ([], cursor)
      else
        let nextOffset := cursor + (encodeEntry entry).length
        let rest := sendEntries targetOffset entries nextOffset
        (⟨cursor, nextOffset, entry⟩ :: rest.1, rest.2)

/-- The loop over the queued events. -/
def sendQueued : List TaskLogBroadcastEvent → Nat → List TaskLogBroadcastEvent
  | [], _ => []
  | event :: events, cursor =>
      if cursor ≤ event.offset ∧ cursor < event.nextOffset then
        event :: sendQueued events event.nextOffset
      else sendQueued events cursor

namespace State

/-- Nobody reads any more: the queue is sent, and the events that follow are sent at once. -/
def goLive (s : State) (cursor : Nat) : State :=
  { s with
    phase := .live
    queued := []
    sent := s.sent ++ sendQueued s.queued cursor }

/-- A round of the loop, once there is a page. -/
def sendPage (s : State) (cursor targetOffset : Nat) (entries : List TaskLogEntry) : State :=
  let loop := sendEntries targetOffset entries cursor
  let s := { s with sent := s.sent ++ loop.1 }
  if targetOffset ≤ loop.2 then s.goLive loop.2
  else { s with phase := .reading loop.2 targetOffset }

def subscribe (s : State) (offset : Nat) : State :=
  { s with
    phase := .readingFirst offset
    queued := []
    sent := []
    start := offset }

/-- The handler goes on: it reads, and has its page at a later time, or it takes the page it has
read. An error closes the socket. -/
def advance (s : State) : State :=
  match s.phase with
  | .readingFirst offset =>
      match s.logs.readHistory offset historyLimit with
      | .ok (history, logs) => { s with logs, phase := .gotFirst history }
      | .error _ => { s with phase := .closed }
  | .gotFirst history => s.sendPage history.offset history.page.size history.page.entries
  | .reading cursor targetOffset =>
      match s.logs.readHistory cursor historyLimit with
      | .ok (history, logs) => { s with logs, phase := .got cursor targetOffset history }
      | .error _ => { s with phase := .closed }
  | .got cursor targetOffset history =>
      if history.page.entries = [] ∨ history.page.nextOffset ≤ cursor then
        { s with phase := .closed }
      else s.sendPage cursor targetOffset history.page.entries
  | _ => s

/-- What the subscriber does with an event. -/
def deliver (s : State) (event : TaskLogBroadcastEvent) : State :=
  match s.phase with
  | .idle | .closed => s
  | .live => { s with sent := s.sent ++ [event] }
  | _ => { s with queued := s.queued ++ [event] }

/-- A call of `appendFromAgent`. -/
def append (s : State) (payload : TaskLogPayload) : State :=
  match s.logs.appendFromAgent payload with
  | none => s
  | some (_, logs, none) => { s with logs }
  | some (_, logs, some event) =>
      { s with
        logs
        stored := s.stored ++ [event.entry] }.deliver event

end State

inductive Event where
  | append (payload : TaskLogPayload)
  | subscribe (offset : Nat)
  | advance

def State.after (s : State) : Event → State
  | .append payload => s.append payload
  | .subscribe offset => s.subscribe offset
  | .advance => s.advance

/-- The place of a handler that has not been called. -/
def Phase.isIdle : Phase → Bool
  | .idle => true
  | _ => false

/-- The calls that are looked at: an append succeeds, and the one subscription starts at the
boundary behind some of the entries. -/
def State.Permits (s : State) : Event → Prop
  | .append payload => (s.logs.appendFromAgent payload).isSome = true
  | .subscribe offset => s.phase.isIdle = true ∧
      ∃ pre post, s.stored = pre ++ post ∧ offset = (fileBytes pre).length
  | .advance => True

/-- The entries are those that `getState` finds in the log, which it may have to recover. -/
structure Finds (logs : TaskLogs) (stored : List TaskLogEntry) : Prop where
  appended : Appended stored
  found : ∃ file, TaskLogStorage.getState logs.log (some logs.row) =
    .ok (fullState stored, ⟨file, some (fullState stored)⟩) ∧ file.getD [] = fileBytes stored

/-- The server in front of a stored log. -/
structure IsNew (s : State) : Prop where
  idle : s.phase.isIdle = true
  finds : Finds s.logs s.stored

/-- All runs whose events meet a condition on the state they happen in. -/
def system (allowed : State → Event → Prop) : TransitionSystem State where
  init := IsNew
  step := fun s t => ∃ event, s.Permits event ∧ allowed s event ∧ t = s.after event

end AnvilRun.TaskLogSubscription
