import AnvilRun.TaskLogRoundTrip.TornRecords
import AnvilRun.TaskLogSubscription.DeliveredOnce

namespace AnvilRun.TaskLogSubscription

open AnvilRun.Masking
open AnvilRun.ServerRedactor
open AnvilRun.TaskLogCodec
open AnvilRun.TaskLogRoundTrip
open AnvilRun.TaskLogStorage

/-! Calls that throw -/

/-- Where a call of `appendFromAgent` throws: it cannot read the task or its log, it cannot write
the state of the file to the row, the append fails, or the file cannot be closed or the row not
be updated behind it. -/
inductive FailurePoint where
  | lookup
  | firstUpdate
  | append (outcome : WriteOutcome)
  | lastUpdate
  deriving DecidableEq

def outcomeOf : Option FailurePoint → WriteOutcome
  | some (.append outcome) => outcome
  | _ => .completed

/-- A call of `appendFromAgent` with a valid lease that may fail: its answer and what it broadcasts
unless it throws, and the state that it leaves in any case. -/
def TaskLogs.handle (s : TaskLogs) (failure : Option FailurePoint) (payload : TaskLogPayload) :
    Option (Ack × Option TaskLogBroadcastEvent) × TaskLogs :=
  if maxTaskLogChunkBytes < payload.chunk.utf8Length ∨ failure = some .lookup then (none, s)
  else
    match TaskLogStorage.getState s.log (some s.row) with
    | .error _ => (none, s)
    | .ok (fileState, log) =>
        if failure = some .firstUpdate ∧ fileState ≠ s.row then (none, { s with log })
        else if payload.sequence ≠ fileState.lastSequence + 1 then
          (some (⟨fileState.lastSequence, fileState.size⟩, none), { s with log, row := fileState })
        else
          let entry := s.entryOf payload
          let redactor := (s.redactor.redact payload.stream payload.chunk).2
          match append (outcomeOf failure) log entry with
          | (.error _, log) => (none, ⟨log, fileState, redactor⟩)
          | (.ok nextOffset, log) =>
              if failure = some .lastUpdate then (none, ⟨log, fileState, redactor⟩)
              else (some (⟨payload.sequence, nextOffset⟩, some ⟨fileState.size, nextOffset, entry⟩),
                ⟨log, ⟨nextOffset, payload.sequence⟩, redactor⟩)

/-- Messages one after the other: the events that are broadcast and the state in the end. -/
def TaskLogs.handleAll (s : TaskLogs) :
    List TaskLogPayload → List TaskLogBroadcastEvent × TaskLogs
  | [] => ([], s)
  | payload :: payloads =>
      let handled := s.handle none payload
      let rest := handled.2.handleAll payloads
      ((handled.1.bind Prod.snd).toList ++ rest.1, rest.2)

/-- After a call that failed, the message and any others give the log and the events that they
would have given without it. -/
def RetriedUnnoticed (s : TaskLogs) (failure : FailurePoint) (payload : TaskLogPayload) : Prop :=
  ∀ later, ((s.handle (some failure) payload).2.handleAll (payload :: later)).1 =
      (s.handleAll (payload :: later)).1 ∧
    ((s.handle (some failure) payload).2.handleAll (payload :: later)).2.log.bytes =
      (s.handleAll (payload :: later)).2.log.bytes

variable {s t : TaskLogs} {stored : List TaskLogEntry} {payload : TaskLogPayload}
  {failure : FailurePoint} {e : TaskLogEntry}

/-- Without a failure it is the call of `TaskLogs.appendFromAgent`. -/
theorem handle_none_eq {ack : Ack} {event : Option TaskLogBroadcastEvent}
    (h : s.appendFromAgent payload = some (ack, t, event)) :
    s.handle none payload = (some (ack, event), t) := by
  rw [TaskLogs.appendFromAgent] at h
  rw [TaskLogs.handle]
  split_ifs at h with hchunk
  rw [if_neg (by simpa using hchunk)]
  cases hstate : TaskLogStorage.getState s.log (some s.row) with
  | error error => simp [TaskLogs.getState, hstate] at h
  | ok found =>
      obtain ⟨fileState, log⟩ := found
      simp only [TaskLogs.getState, hstate] at h
      simp only [reduceCtorEq, false_and, if_false]
      split_ifs at h ⊢ with hsequence
      · simp only [Option.some.injEq, Prod.mk.injEq] at h
        obtain ⟨rfl, rfl, rfl⟩ := h
        rfl
      · simp only [outcomeOf]
        have hentry : ({ s with log := log, row := fileState } : TaskLogs).entryOf payload =
            s.entryOf payload := rfl
        simp only [hentry] at h
        cases happend : append .completed log (s.entryOf payload) with
        | mk result log' =>
            rw [happend] at h
            cases result with
            | error error => cases h
            | ok nextOffset =>
                simp only [Option.some.injEq, Prod.mk.injEq] at h
                obtain ⟨rfl, rfl, rfl⟩ := h
                rfl

/-! What a call does in front of a log -/

/-- An answer without a broadcast. -/
theorem handle_skip {found : TaskLogFileState} {log : TaskLog}
    (hchunk : payload.chunk.utf8Length ≤ maxTaskLogChunkBytes)
    (hstate : TaskLogStorage.getState s.log (some s.row) = .ok (found, log))
    (hsequence : payload.sequence ≠ found.lastSequence + 1) :
    s.handle none payload = (some (⟨found.lastSequence, found.size⟩, none),
      { s with log := log, row := found }) := by
  rw [TaskLogs.handle, if_neg (by simpa using hchunk), hstate]
  simp only [reduceCtorEq, false_and, if_false, if_pos hsequence]

/-- The state behind an entry that was stored. -/
def storedState (s : TaskLogs) (stored : List TaskLogEntry) (payload : TaskLogPayload) : TaskLogs :=
  ⟨⟨some (fileBytes (stored ++ [s.entryOf payload])),
    some (fullState (stored ++ [s.entryOf payload]))⟩, fullState (stored ++ [s.entryOf payload]),
    (s.redactor.redact payload.stream payload.chunk).2⟩

/-- The event of an entry that was stored. -/
def storedEvent (s : TaskLogs) (stored : List TaskLogEntry) (payload : TaskLogPayload) :
    TaskLogBroadcastEvent :=
  ⟨(fileBytes stored).length, (fileBytes (stored ++ [s.entryOf payload])).length,
    s.entryOf payload⟩

theorem Finds.handle_store (h : Finds s stored)
    (hchunk : payload.chunk.utf8Length ≤ maxTaskLogChunkBytes)
    (hsequence : payload.sequence = stored.length + 1)
    (happended : Appended (stored ++ [s.entryOf payload])) :
    s.handle none payload = (some (⟨payload.sequence,
      (fileBytes (stored ++ [s.entryOf payload])).length⟩, some (storedEvent s stored payload)),
      storedState s stored payload) := by
  obtain ⟨file, hfound, hfile⟩ := h.found
  have hholds : Holds ⟨file, some (fullState stored)⟩ stored := ⟨hfile, Or.inr rfl⟩
  have happend := append_holds hholds happended (fun hnone => by cases hnone)
  have hrow : (⟨(fileBytes (stored ++ [s.entryOf payload])).length, payload.sequence⟩ :
      TaskLogFileState) = fullState (stored ++ [s.entryOf payload]) := by
    rw [fullState, hsequence, List.length_append, List.length_singleton]
  have hnext : ¬ payload.sequence ≠ (fullState stored).lastSequence + 1 := not_not.mpr hsequence
  rw [TaskLogs.handle, if_neg (by simpa using hchunk), hfound]
  simp only [reduceCtorEq, false_and, if_false, if_neg hnext, outcomeOf, happend, hrow]
  rfl

/-- An entry that is taken fits the log. -/
theorem Finds.appended_of_handle (h : Finds s stored)
    (hsequence : payload.sequence = stored.length + 1)
    (hsome : (s.handle none payload).1.isSome = true) :
    payload.chunk.utf8Length ≤ maxTaskLogChunkBytes ∧
      Appended (stored ++ [s.entryOf payload]) := by
  obtain ⟨file, hfound, hfile⟩ := h.found
  have hnext : ¬ payload.sequence ≠ (fullState stored).lastSequence + 1 := not_not.mpr hsequence
  have hchunk : payload.chunk.utf8Length ≤ maxTaskLogChunkBytes := by
    by_contra hlong
    rw [TaskLogs.handle, if_pos (Or.inl (Nat.lt_of_not_le hlong))] at hsome
    cases hsome
  rw [TaskLogs.handle, if_neg (by simpa using hchunk), hfound] at hsome
  simp only [reduceCtorEq, false_and, if_false, if_neg hnext, outcomeOf] at hsome
  refine ⟨hchunk, ?_⟩
  cases hresult : append .completed ⟨file, some (fullState stored)⟩ (s.entryOf payload) with
  | mk result log =>
      rw [hresult] at hsome
      cases result with
      | error error => cases hsome
      | ok nextOffset => exact appended_of_append h.appended hfile hsequence hresult

theorem append_error_eq {file : Option (List UInt8)} (hfile : file.getD [] = fileBytes stored)
    (hsequence : e.sequence = stored.length + 1) {error : StorageError} {log : TaskLog}
    (h : append .completed ⟨file, some (fullState stored)⟩ e = (.error error, log)) :
    log = ⟨file, some (fullState stored)⟩ := by
  have hbytes : (⟨file, some (fullState stored)⟩ : TaskLog).bytes = fileBytes stored := hfile
  simp only [append, currentState, appendAttempts, hbytes] at h
  simp only [fullState, hsequence, ne_eq, not_true_eq_false, if_false] at h
  split_ifs at h
  · exact (congrArg Prod.snd h).symm
  · exact (congrArg Prod.snd h).symm
  · cases congrArg Prod.fst h

/-- An entry that does not fit the log is masked and not stored. -/
theorem Finds.handle_refuse (h : Finds s stored)
    (hchunk : payload.chunk.utf8Length ≤ maxTaskLogChunkBytes)
    (hsequence : payload.sequence = stored.length + 1)
    (hrefused : ¬ Appended (stored ++ [s.entryOf payload])) :
    ∃ file, file.getD [] = fileBytes stored ∧ s.handle none payload =
      (none, ⟨⟨file, some (fullState stored)⟩, fullState stored,
        (s.redactor.redact payload.stream payload.chunk).2⟩) := by
  obtain ⟨file, hfound, hfile⟩ := h.found
  have hnext : ¬ payload.sequence ≠ (fullState stored).lastSequence + 1 := not_not.mpr hsequence
  refine ⟨file, hfile, ?_⟩
  rw [TaskLogs.handle, if_neg (by simpa using hchunk), hfound]
  simp only [reduceCtorEq, false_and, if_false, if_neg hnext, outcomeOf]
  cases hresult : append .completed ⟨file, some (fullState stored)⟩ (s.entryOf payload) with
  | mk result log =>
      cases result with
      | error error => rw [append_error_eq hfile hsequence hresult]
      | ok nextOffset =>
          exact absurd (appended_of_append h.appended hfile hsequence hresult) hrefused

/-! Two servers in front of the same entries -/

/-- The servers find the same entries and mask alike. -/
structure Alike (s t : TaskLogs) (stored : List TaskLogEntry) : Prop where
  left : Finds s stored
  right : Finds t stored
  redactor : s.redactor = t.redactor

theorem Alike.entryOf (h : Alike s t stored) (payload : TaskLogPayload) :
    s.entryOf payload = t.entryOf payload := by
  rw [TaskLogs.entryOf, TaskLogs.entryOf, h.redactor]

theorem handle_long (hchunk : ¬ payload.chunk.utf8Length ≤ maxTaskLogChunkBytes) :
    s.handle none payload = (none, s) := by
  rw [TaskLogs.handle, if_pos (Or.inl (Nat.lt_of_not_le hchunk))]

/-- A message that is not too long gives the same, and the same log. -/
theorem Alike.handle (h : Alike s t stored)
    (hchunk : payload.chunk.utf8Length ≤ maxTaskLogChunkBytes) :
    (s.handle none payload).1 = (t.handle none payload).1 ∧
      (∃ stored', Alike (s.handle none payload).2 (t.handle none payload).2 stored') ∧
      (s.handle none payload).2.log.bytes = (t.handle none payload).2.log.bytes := by
  by_cases hsequence : payload.sequence = stored.length + 1
  · by_cases happended : Appended (stored ++ [s.entryOf payload])
    · have happended' := happended
      rw [h.entryOf payload] at happended'
      have hstate : storedState s stored payload = storedState t stored payload := by
        rw [storedState, storedState, h.entryOf payload, h.redactor]
      have hfinds : Finds (storedState t stored payload) (stored ++ [t.entryOf payload]) :=
        Finds.cached happended' rfl _
      rw [h.left.handle_store hchunk hsequence happended,
        h.right.handle_store hchunk hsequence happended', hstate]
      refine ⟨?_, ⟨_, hfinds, hfinds, rfl⟩, rfl⟩
      rw [storedEvent, storedEvent, h.entryOf payload]
    · have hrefused := happended
      rw [h.entryOf payload] at hrefused
      obtain ⟨file, hfile, hleft⟩ := h.left.handle_refuse hchunk hsequence happended
      obtain ⟨file', hfile', hright⟩ := h.right.handle_refuse hchunk hsequence hrefused
      rw [hleft, hright]
      exact ⟨rfl, ⟨stored, Finds.cached h.left.appended hfile _,
        Finds.cached h.left.appended hfile' _, by rw [h.redactor]⟩, hfile.trans hfile'.symm⟩
  · obtain ⟨file, hfound, hfile⟩ := h.left.found
    obtain ⟨file', hfound', hfile'⟩ := h.right.found
    rw [handle_skip hchunk hfound hsequence, handle_skip hchunk hfound' hsequence]
    exact ⟨rfl, ⟨stored, Finds.cached h.left.appended hfile _,
      Finds.cached h.left.appended hfile' _, h.redactor⟩, hfile.trans hfile'.symm⟩

theorem Alike.handleAll (h : Alike s t stored) (hbytes : s.log.bytes = t.log.bytes)
    (payloads : List TaskLogPayload) : (s.handleAll payloads).1 = (t.handleAll payloads).1 ∧
      (s.handleAll payloads).2.log.bytes = (t.handleAll payloads).2.log.bytes := by
  induction payloads generalizing s t stored with
  | nil => exact ⟨rfl, hbytes⟩
  | cons payload payloads ih =>
      rw [TaskLogs.handleAll, TaskLogs.handleAll]
      by_cases hchunk : payload.chunk.utf8Length ≤ maxTaskLogChunkBytes
      · obtain ⟨hresult, ⟨stored', hafter⟩, hbytes'⟩ := h.handle hchunk
        have hrest := ih hafter hbytes'
        exact ⟨by rw [hresult, hrest.1], hrest.2⟩
      · rw [handle_long hchunk, handle_long hchunk]
        exact ih h hbytes

theorem Alike.handleAll_cons (h : Alike s t stored)
    (hchunk : payload.chunk.utf8Length ≤ maxTaskLogChunkBytes) (payloads : List TaskLogPayload) :
    (s.handleAll (payload :: payloads)).1 = (t.handleAll (payload :: payloads)).1 ∧
      (s.handleAll (payload :: payloads)).2.log.bytes =
        (t.handleAll (payload :: payloads)).2.log.bytes := by
  obtain ⟨hresult, ⟨stored', hafter⟩, hbytes⟩ := h.handle hchunk
  have hrest := hafter.handleAll hbytes payloads
  rw [TaskLogs.handleAll, TaskLogs.handleAll]
  exact ⟨by rw [hresult, hrest.1], hrest.2⟩

/-! What a failure leaves -/

/-- How many bytes of the record are in the file. -/
def bytesLeft (e : TaskLogEntry) : WriteOutcome → Nat
  | .openFailed => 0
  | .writeFailed written => written
  | .syncFailed => (encodeEntry e).length
  | .completed => (encodeEntry e).length

def FailurePoint.left (e : TaskLogEntry) : FailurePoint → Nat
  | .lookup => 0
  | .firstUpdate => 0
  | .append outcome => bytesLeft e outcome
  | .lastUpdate => (encodeEntry e).length

/-- Whether the chunk has been masked before the call fails. -/
def FailurePoint.masks : FailurePoint → Bool
  | .lookup => false
  | .firstUpdate => false
  | .append _ => true
  | .lastUpdate => true

/-- The log in front of an entry, with the first bytes of its record in the file. The cached state
is that of the file without them, or with all of them. -/
structure LeftBehind (logs : TaskLogs) (stored : List TaskLogEntry) (e : TaskLogEntry) (n : Nat) :
    Prop where
  row : logs.row = fullState stored
  bytes : logs.log.bytes = fileBytes stored ++ (encodeEntry e).take n
  state : logs.log.state = some (fullState stored) ∨
    0 < n ∧ logs.log.state = some (fullState (stored ++ [e]))

theorem append_failing {file : Option (List UInt8)} (hfile : file.getD [] = fileBytes stored)
    (happended : Appended (stored ++ [e])) {outcome : WriteOutcome}
    (hfails : outcome ≠ .completed) :
    ∃ file', append outcome ⟨file, some (fullState stored)⟩ e =
        (.error .system, ⟨file', some (fullState stored)⟩) ∧
      file'.getD [] = fileBytes stored ++ (encodeEntry e).take (bytesLeft e outcome) := by
  have hsize := happended.entrySize e (by simp)
  have hlength := happended.fileSize
  have hsequence : e.sequence = stored.length + 1 := by
    have hlast := (contiguous_append.mp happended.contiguous).2.1
    rwa [Nat.zero_add] at hlast
  rw [length_fileBytes_append, fileBytes_cons, fileBytes_nil, List.append_nil] at hlength
  have hfits : ¬ (maxTaskLogFileBytes < (fileBytes stored).length ∨
      maxTaskLogFileBytes < (fileBytes stored).length + (encodeEntry e).length) := by
    omega
  have hbytes : (⟨file, some (fullState stored)⟩ : TaskLog).bytes = fileBytes stored := hfile
  simp only [append, currentState, if_neg (Nat.not_lt.mpr hsize), appendAttempts, hbytes]
  simp only [fullState, hsequence, ne_eq, not_true_eq_false, if_false, if_neg hfits]
  cases outcome with
  | completed => exact absurd rfl hfails
  | openFailed => exact ⟨file, rfl, by rw [hfile, bytesLeft, List.take_zero, List.append_nil]⟩
  | writeFailed written => exact ⟨_, rfl, rfl⟩
  | syncFailed => exact ⟨_, rfl, by rw [bytesLeft, List.take_length]; rfl⟩

/-- A call that fails behind the masking leaves the first bytes of the record. -/
theorem Finds.handle_failing (h : Finds s stored)
    (hchunk : payload.chunk.utf8Length ≤ maxTaskLogChunkBytes)
    (hsequence : payload.sequence = stored.length + 1)
    (happended : Appended (stored ++ [s.entryOf payload])) (hmasks : failure.masks = true)
    (hfails : (s.handle (some failure) payload).1 = none) :
    LeftBehind (s.handle (some failure) payload).2 stored (s.entryOf payload)
        (failure.left (s.entryOf payload)) ∧
      (s.handle (some failure) payload).2.redactor =
        (s.redactor.redact payload.stream payload.chunk).2 := by
  obtain ⟨file, hfound, hfile⟩ := h.found
  have hholds : Holds ⟨file, some (fullState stored)⟩ stored := ⟨hfile, Or.inr rfl⟩
  have happend := append_holds hholds happended (fun hnone => by cases hnone)
  have hnext : ¬ payload.sequence ≠ (fullState stored).lastSequence + 1 := not_not.mpr hsequence
  have hlookup : some failure ≠ some FailurePoint.lookup := by
    rintro hfailure
    rw [Option.some.inj hfailure] at hmasks
    cases hmasks
  have hfirst : some failure ≠ some FailurePoint.firstUpdate := by
    rintro hfailure
    rw [Option.some.inj hfailure] at hmasks
    cases hmasks
  have hguard : ¬ (maxTaskLogChunkBytes < payload.chunk.utf8Length ∨
      some failure = some .lookup) := not_or.mpr ⟨Nat.not_lt_of_le hchunk, hlookup⟩
  rw [TaskLogs.handle, if_neg hguard, hfound] at hfails ⊢
  simp only [hfirst, false_and, if_false, if_neg hnext] at hfails ⊢
  cases failure with
  | lookup => cases hmasks
  | firstUpdate => cases hmasks
  | lastUpdate =>
      simp only [outcomeOf, happend, if_true]
      refine ⟨⟨rfl, ?_, Or.inr ⟨length_encodeEntry_pos _, rfl⟩⟩, trivial⟩
      rw [FailurePoint.left, List.take_length, ← List.append_nil (encodeEntry _), ← fileBytes_nil,
        ← fileBytes_cons, ← fileBytes_append]
      rfl
  | append outcome =>
      simp only [outcomeOf] at hfails ⊢
      by_cases hcompleted : outcome = .completed
      · rw [hcompleted, happend] at hfails
        cases hfails
      · obtain ⟨file', hfailed, hleft⟩ := append_failing hfile happended hcompleted
        rw [hfailed]
        exact ⟨⟨rfl, hleft, Or.inl rfl⟩, rfl⟩

/-! What is found in front of the message when it comes again -/

variable {n : Nat}

/-- The first bytes of the record, or the state of all of it, do not fit the row. -/
theorem LeftBehind.getState (h : LeftBehind t stored e n) (hpos : 0 < n) :
    TaskLogStorage.getState t.log (some t.row) = recoverUnlocked t.log := by
  have hlength : (fileBytes stored).length < t.log.bytes.length := by
    have hrecord := length_encodeEntry_pos e
    rw [h.bytes, List.length_append, List.length_take]
    omega
  rw [TaskLogStorage.getState, h.row]
  rcases h.state with hstate | ⟨-, hstate⟩
  · rw [hstate]
    dsimp only
    rw [if_neg]
    rintro ⟨-, hsize | ⟨hnone, -⟩⟩
    · obtain ⟨bytes, hbytes, hsize⟩ := Option.map_eq_some_iff.mp hsize
      rw [TaskLog.bytes, hbytes, Option.getD_some, hsize] at hlength
      exact Nat.lt_irrefl _ hlength
    · rw [TaskLog.bytes, hnone] at hlength
      exact absurd hlength (Nat.not_lt_zero _)
  · rw [hstate]
    dsimp only
    rw [if_neg]
    rintro ⟨hexpected | hexpected, -⟩
    · cases hexpected
    · have hsame := congrArg TaskLogFileState.lastSequence (Option.some.inj hexpected)
      simp only [fullState, List.length_append, List.length_singleton] at hsame
      omega

theorem LeftBehind.file (h : LeftBehind t stored e n) (hpos : 0 < n) :
    t.log = ⟨some (fileBytes stored ++ (encodeEntry e).take n), t.log.state⟩ := by
  have hbytes := h.bytes
  have hrecord := length_encodeEntry_pos e
  cases hfile : t.log.file with
  | none =>
      rw [TaskLog.bytes, hfile] at hbytes
      have hlength := congrArg List.length hbytes
      rw [Option.getD_none, List.length_nil, List.length_append, List.length_take] at hlength
      omega
  | some bytes =>
      rw [TaskLog.bytes, hfile, Option.getD_some] at hbytes
      rw [← hbytes, ← hfile]

/-- What can be told from the log is told: nothing of the record is in the file, or all entries in
front of it are recovered and it is not. -/
def ForgetsRecord (stored : List TaskLogEntry) (e : TaskLogEntry) (n : Nat) : Prop :=
  n = 0 ∨ (∀ x ∈ stored, CleanEntry x) ∧ (n < (encodeEntry e).length ∨ ¬ CleanEntry e)

theorem LeftBehind.finds_zero (h : LeftBehind t stored e 0)
    (happended : Appended (stored ++ [e])) : Finds t stored := by
  have hbytes := h.bytes
  rw [List.take_zero, List.append_nil] at hbytes
  have hstate := h.state.resolve_right fun hpos => Nat.lt_irrefl 0 hpos.1
  have hlog : t.log = ⟨t.log.file, some (fullState stored)⟩ := by rw [← hstate]
  refine ⟨happended.of_append, t.log.file, ?_, hbytes⟩
  rw [h.row, hlog]
  exact getState_cached hbytes

theorem LeftBehind.finds (h : LeftBehind t stored e n) (happended : Appended (stored ++ [e]))
    (hforgets : ForgetsRecord stored e n) : Finds t stored := by
  cases n with
  | zero => exact h.finds_zero happended
  | succ n =>
      obtain ⟨hclean, hn⟩ := hforgets.resolve_left (Nat.succ_ne_zero n)
      refine ⟨happended.of_append, some (fileBytes stored), ?_, rfl⟩
      rw [h.getState n.succ_pos, h.file n.succ_pos]
      exact recover_torn happended hclean hn

/-- Otherwise the message is taken for one that is stored already, or for one that comes too
early. -/
theorem LeftBehind.skips (h : LeftBehind t stored e n) (happended : Appended (stored ++ [e]))
    (hforgets : ¬ ForgetsRecord stored e n) : ∃ found log,
      TaskLogStorage.getState t.log (some t.row) = .ok (found, log) ∧
        found.lastSequence ≠ stored.length := by
  rw [ForgetsRecord, not_or] at hforgets
  obtain ⟨hzero, hforgets⟩ := hforgets
  have hpos := Nat.pos_of_ne_zero hzero
  rw [h.getState hpos, h.file hpos]
  by_cases hclean : ∀ x ∈ stored, CleanEntry x
  · obtain ⟨hn, he⟩ := not_or.mp (not_and.mp hforgets hclean)
    rw [not_not] at he
    have hall : ∀ x ∈ stored ++ [e], CleanEntry x := by
      intro x hx
      rcases List.mem_append.mp hx with hx | hx
      · exact hclean x hx
      · rw [List.mem_singleton.mp hx]
        exact he
    have hbytes : fileBytes stored ++ (encodeEntry e).take n = fileBytes (stored ++ [e]) := by
      rw [List.take_of_length_le (Nat.le_of_not_lt hn), fileBytes_append, fileBytes_cons,
        fileBytes_nil, List.append_nil]
    refine ⟨_, _, by rw [hbytes]; exact recover_whole happended hall, ?_⟩
    rw [fullState, List.length_append, List.length_singleton]
    exact Nat.succ_ne_self _
  · obtain ⟨found, log, hfound, hlt⟩ := exists_recover_unclean happended hclean n
    exact ⟨found, log, hfound, Nat.ne_of_lt hlt⟩

/-! The redactor that masks the chunk again -/

/-- The redactor behind the message. -/
def maskedOnce (s : TaskLogs) (payload : TaskLogPayload) : ServerLogRedactor :=
  (s.redactor.redact payload.stream payload.chunk).2

/-- The redactor behind the message when it is masked again. -/
def maskedTwice (s : TaskLogs) (payload : TaskLogPayload) : ServerLogRedactor :=
  ((maskedOnce s payload).redact payload.stream payload.chunk).2

/-- Masking the chunk again gives the same text. -/
def RepeatsText (s : TaskLogs) (payload : TaskLogPayload) : Prop :=
  ((maskedOnce s payload).redact payload.stream payload.chunk).1 =
    (s.redactor.redact payload.stream payload.chunk).1

/-- Masking the chunk again holds the same text back. -/
def RepeatsHeld (s : TaskLogs) (payload : TaskLogPayload) : Prop :=
  (maskedTwice s payload).pending payload.stream = (maskedOnce s payload).pending payload.stream

theorem redact_snd_eq (r : ServerLogRedactor) (stream : LogStream) (chunk : JsString) :
    ∃ text, (r.redact stream chunk).2 = r.setPending stream text := by
  simp only [ServerLogRedactor.redact]
  split_ifs
  · exact ⟨_, rfl⟩
  · exact ⟨_, rfl⟩
  · exact ⟨_, rfl⟩
  · exact ⟨_, rfl⟩

theorem setPending_self (r : ServerLogRedactor) (stream : LogStream) :
    r.setPending stream (r.pending stream) = r := by
  rw [ServerLogRedactor.setPending, Function.update_eq_self]

theorem maskedTwice_eq (h : RepeatsHeld s payload) :
    maskedTwice s payload = maskedOnce s payload := by
  obtain ⟨text, htext⟩ := redact_snd_eq (maskedOnce s payload) payload.stream payload.chunk
  have hheld : text = (maskedOnce s payload).pending payload.stream := by
    rw [← h, maskedTwice, htext, setPending_pending_self]
  rw [maskedTwice, htext, hheld, setPending_self]

/-- A further chunk that the log has room for would not be masked as it would have been. -/
def Tells (s : TaskLogs) (stored : List TaskLogEntry) (payload : TaskLogPayload) : Prop :=
  ∃ stream chunk emittedAt, chunk.utf8Length ≤ maxTaskLogChunkBytes ∧
    ((maskedTwice s payload).redact stream chunk).1 ≠
      ((maskedOnce s payload).redact stream chunk).1 ∧
    Appended (stored ++ [s.entryOf payload] ++
      [⟨stored.length + 2, stream, ((maskedOnce s payload).redact stream chunk).1, emittedAt⟩])

/-! Failures in front of the masking -/

theorem getState_recovers {log : TaskLog} {row found : TaskLogFileState} {log' : TaskLog}
    (h : TaskLogStorage.getState log (some row) = .ok (found, log')) (hrow : found ≠ row) :
    recoverUnlocked log = .ok (found, log') := by
  rw [TaskLogStorage.getState] at h
  split at h
  · split at h
    · rename_i hcached
      rw [Except.ok.injEq, Prod.mk.injEq] at h
      obtain ⟨rfl, -⟩ := h
      rcases hcached.1 with hnone | hsome
      · cases hnone
      · exact absurd (Option.some.inj hsome).symm hrow
    · exact h
  · exact h

/-- What recovery has found it finds again. -/
theorem recover_again {log : TaskLog} {file : Option (List UInt8)} (happended : Appended stored)
    (h : recoverUnlocked log = .ok (fullState stored, ⟨file, some (fullState stored)⟩))
    (hfile : file.getD [] = fileBytes stored) :
    recoverUnlocked ⟨file, some (fullState stored)⟩ =
      .ok (fullState stored, ⟨file, some (fullState stored)⟩) := by
  rw [recoverUnlocked] at h
  cases hbytes : log.file with
  | none =>
      simp only [hbytes, Except.ok.injEq, Prod.mk.injEq, TaskLog.mk.injEq] at h
      obtain ⟨hfull, rfl, -⟩ := h
      rw [recoverUnlocked, ← hfull]
  | some bytes =>
      simp only [hbytes] at h
      split_ifs at h with hsafe
      simp only [Except.ok.injEq, Prod.mk.injEq, TaskLog.mk.injEq] at h
      obtain ⟨hfull, hkept, -⟩ := h
      rw [← hkept, Option.getD_some] at hfile
      have hwhole : fileBytes stored ++ bytes.drop (fileBytes stored).length = bytes := by
        have htake : bytes.take (fileBytes stored).length = fileBytes stored := by
          rw [hfull] at hfile
          exact hfile
        rw [← htake, List.length_take, Nat.min_def]
        split
        · exact List.take_append_drop _ _
        · rw [List.take_of_length_le (by omega), List.drop_length, List.append_nil]
      have hclean : ∀ x ∈ stored, CleanEntry x := by
        by_contra hunclean
        have hlt := recover_lastSequence_lt_append happended hunclean
          (bytes.drop (fileBytes stored).length)
        rw [hwhole, hfull] at hlt
        exact Nat.lt_irrefl _ hlt
      rw [← hkept, hfile]
      exact recover_whole happended hclean

/-- A call that fails in front of the masking leaves the entries to be found. -/
theorem Finds.handle_early (h : Finds s stored) (hmasks : failure.masks = false)
    (hsome : (s.handle none payload).1.isSome = true)
    (hfails : (s.handle (some failure) payload).1 = none) :
    Alike (s.handle (some failure) payload).2 s stored := by
  have hchunk : payload.chunk.utf8Length ≤ maxTaskLogChunkBytes := by
    by_contra hlong
    rw [handle_long hlong] at hsome
    cases hsome
  obtain ⟨file, hfound, hfile⟩ := h.found
  cases failure with
  | append outcome => cases hmasks
  | lastUpdate => cases hmasks
  | lookup =>
      rw [TaskLogs.handle, if_pos (Or.inr rfl)]
      exact ⟨h, h, rfl⟩
  | firstUpdate =>
      have hguard : ¬ (maxTaskLogChunkBytes < payload.chunk.utf8Length ∨
          some FailurePoint.firstUpdate = some .lookup) := by
        simpa using hchunk
      by_cases hrow : fullState stored = s.row
      · -- the row is right, and nothing fails
        rw [TaskLogs.handle, if_neg (by simpa using hchunk), hfound] at hsome
        rw [TaskLogs.handle, if_neg hguard, hfound] at hfails
        simp only [hrow, ne_eq, not_true_eq_false, and_false, if_false, outcomeOf, reduceCtorEq,
          Option.some.injEq] at hsome hfails
        rw [hfails] at hsome
        cases hsome
      · rw [TaskLogs.handle, if_neg hguard, hfound]
        simp only [true_and, if_pos hrow, ne_eq]
        have hagain := recover_again h.appended (getState_recovers hfound hrow) hfile
        refine ⟨⟨h.appended, file, ?_, hfile⟩, h, rfl⟩
        rw [TaskLogStorage.getState]
        dsimp only
        rw [if_neg, hagain]
        rintro ⟨hexpected | hexpected, -⟩
        · cases hexpected
        · exact hrow (Option.some.inj hexpected).symm

/-! Failures behind the masking -/

theorem handleAll_cons (s : TaskLogs) (payload : TaskLogPayload) (payloads : List TaskLogPayload) :
    (s.handleAll (payload :: payloads)).1 = ((s.handle none payload).1.bind Prod.snd).toList ++
      ((s.handle none payload).2.handleAll payloads).1 := rfl

theorem handleAll_singleton (s : TaskLogs) (payload : TaskLogPayload) :
    (s.handleAll [payload]).1 = ((s.handle none payload).1.bind Prod.snd).toList :=
  List.append_nil _

/-- A server in front of the message that masks from the redactor behind it. -/
structure Again (s t : TaskLogs) (stored : List TaskLogEntry) (payload : TaskLogPayload) :
    Prop where
  chunk_le : payload.chunk.utf8Length ≤ maxTaskLogChunkBytes
  sequence : payload.sequence = stored.length + 1
  appended : Appended (stored ++ [s.entryOf payload])
  left : Finds s stored
  right : Finds t stored
  redactor : t.redactor = maskedOnce s payload

theorem Again.entryOf (h : Again s t stored payload) (htext : RepeatsText s payload) :
    t.entryOf payload = s.entryOf payload := by
  rw [TaskLogs.entryOf, TaskLogs.entryOf, h.redactor]
  exact congrArg (TaskLogEntry.mk payload.sequence payload.stream · payload.emittedAt) htext

/-- The state behind the entry that was stored at the second attempt. -/
def retriedState (s : TaskLogs) (stored : List TaskLogEntry) (payload : TaskLogPayload) :
    TaskLogs :=
  { storedState s stored payload with redactor := maskedTwice s payload }

theorem Again.handle (h : Again s t stored payload) (htext : RepeatsText s payload) :
    (t.handle none payload).1 = (s.handle none payload).1 ∧
      (t.handle none payload).2 = retriedState s stored payload := by
  have hentry := h.entryOf htext
  have happended := h.appended
  rw [← hentry] at happended
  rw [h.left.handle_store h.chunk_le h.sequence h.appended,
    h.right.handle_store h.chunk_le h.sequence happended, retriedState, storedState, storedState,
    storedEvent, storedEvent, hentry, h.redactor]
  exact ⟨rfl, rfl⟩

theorem Again.unnoticed (h : Again s t stored payload) (htext : RepeatsText s payload)
    (hheld : RepeatsHeld s payload) (later : List TaskLogPayload) :
    t.handleAll (payload :: later) = s.handleAll (payload :: later) := by
  have hstate : (t.handle none payload).2 = (s.handle none payload).2 := by
    rw [(h.handle htext).2, retriedState, maskedTwice_eq hheld,
      h.left.handle_store h.chunk_le h.sequence h.appended]
    rfl
  rw [TaskLogs.handleAll, TaskLogs.handleAll, (h.handle htext).1, hstate]

/-- If the message gives the same event again, it is masked alike. -/
theorem Again.repeatsText (h : Again s t stored payload)
    (hevents : (t.handleAll [payload]).1 = (s.handleAll [payload]).1) : RepeatsText s payload := by
  rw [handleAll_singleton, handleAll_singleton,
    h.left.handle_store h.chunk_le h.sequence h.appended] at hevents
  by_cases happended : Appended (stored ++ [t.entryOf payload])
  · rw [h.right.handle_store h.chunk_le h.sequence happended] at hevents
    have hevent := (List.cons.inj hevents).1
    have hchunk := congrArg (fun event => event.entry.chunk) hevent
    have htext : (t.redactor.redact payload.stream payload.chunk).1 =
        (s.redactor.redact payload.stream payload.chunk).1 := hchunk
    rw [h.redactor] at htext
    exact htext
  · obtain ⟨file, -, hrefused⟩ := h.right.handle_refuse h.chunk_le h.sequence happended
    rw [hrefused] at hevents
    cases hevents

/-- A further chunk that is masked in another way is noticed. -/
theorem Again.not_tells (h : Again s t stored payload) (htext : RepeatsText s payload)
    (hevents : ∀ later, (t.handleAll (payload :: later)).1 = (s.handleAll (payload :: later)).1) :
    ¬ Tells s stored payload := by
  rintro ⟨stream, chunk, emittedAt, hchunk, hne, happended⟩
  have hlater := hevents [⟨stored.length + 2, stream, chunk, emittedAt⟩]
  rw [handleAll_cons t, handleAll_cons s, (h.handle htext).1, List.append_cancel_left_eq,
    handleAll_singleton, handleAll_singleton, (h.handle htext).2,
    h.left.handle_store h.chunk_le h.sequence h.appended] at hlater
  have hlength : stored.length + 2 = (stored ++ [s.entryOf payload]).length + 1 := by
    rw [List.length_append, List.length_singleton]
  have hleft : Finds (storedState s stored payload) (stored ++ [s.entryOf payload]) :=
    Finds.cached h.appended rfl _
  have hright : Finds (retriedState s stored payload) (stored ++ [s.entryOf payload]) :=
    Finds.cached h.appended rfl _
  have hroom : Appended (stored ++ [s.entryOf payload] ++
      [(storedState s stored payload).entryOf ⟨stored.length + 2, stream, chunk, emittedAt⟩]) :=
    happended
  rw [hleft.handle_store hchunk hlength hroom] at hlater
  by_cases hfits : Appended (stored ++ [s.entryOf payload] ++
      [(retriedState s stored payload).entryOf ⟨stored.length + 2, stream, chunk, emittedAt⟩])
  · rw [hright.handle_store hchunk hlength hfits] at hlater
    have hevent := (List.cons.inj hlater).1
    exact hne (congrArg (fun event => event.entry.chunk) hevent)
  · obtain ⟨file, -, hrefused⟩ := hright.handle_refuse hchunk hlength hfits
    rw [hrefused] at hlater
    cases hlater

/-! When a failure goes unnoticed -/

theorem Finds.sequence_of_failing (h : Finds s stored) (hmasks : failure.masks = true)
    (hchunk : payload.chunk.utf8Length ≤ maxTaskLogChunkBytes)
    (hfails : (s.handle (some failure) payload).1 = none) :
    payload.sequence = stored.length + 1 := by
  obtain ⟨file, hfound, -⟩ := h.found
  by_contra hsequence
  have hskip : payload.sequence ≠ (fullState stored).lastSequence + 1 := hsequence
  cases failure with
  | lookup => cases hmasks
  | firstUpdate => cases hmasks
  | append outcome =>
      rw [TaskLogs.handle, if_neg (by simpa using hchunk), hfound] at hfails
      simp only [reduceCtorEq, Option.some.injEq, false_and, if_false, if_pos hskip] at hfails
  | lastUpdate =>
      rw [TaskLogs.handle, if_neg (by simpa using hchunk), hfound] at hfails
      simp only [reduceCtorEq, Option.some.injEq, false_and, if_false, if_pos hskip] at hfails

/-- A call that fails in front of the masking goes unnoticed. Behind it the failure goes unnoticed
if the record is forgotten and masking the chunk again gives the same text and holds the same text
back; and if it goes unnoticed, the record is forgotten, the text is the same, and no further chunk
tells what is held back. -/
theorem retriedUnnoticed (s : TaskLogs) (stored : List TaskLogEntry) (payload : TaskLogPayload)
    (failure : FailurePoint) (hfinds : Finds s stored)
    (hsome : (s.handle none payload).1.isSome = true)
    (hfails : (s.handle (some failure) payload).1 = none) :
    ((failure.masks = true →
        ForgetsRecord stored (s.entryOf payload) (failure.left (s.entryOf payload)) ∧
          RepeatsText s payload ∧ RepeatsHeld s payload) →
      RetriedUnnoticed s failure payload) ∧
    (RetriedUnnoticed s failure payload → failure.masks = true →
      ForgetsRecord stored (s.entryOf payload) (failure.left (s.entryOf payload)) ∧
        RepeatsText s payload ∧ ¬ Tells s stored payload) := by
  have hchunk : payload.chunk.utf8Length ≤ maxTaskLogChunkBytes := by
    by_contra hlong
    rw [handle_long hlong] at hsome
    cases hsome
  cases hmasks : failure.masks with
  | false =>
      have halike := hfinds.handle_early hmasks hsome hfails
      exact ⟨fun _ later => halike.handleAll_cons hchunk later, fun _ htrue => by cases htrue⟩
  | true =>
      have hsequence := hfinds.sequence_of_failing hmasks hchunk hfails
      have happended := (hfinds.appended_of_handle hsequence hsome).2
      obtain ⟨hleft, hredactor⟩ :=
        hfinds.handle_failing hchunk hsequence happended hmasks hfails
      have hagain : ForgetsRecord stored (s.entryOf payload) (failure.left (s.entryOf payload)) →
          Again s (s.handle (some failure) payload).2 stored payload := fun hforgets =>
        ⟨hchunk, hsequence, happended, hfinds, hleft.finds happended hforgets, hredactor⟩
      constructor
      · intro hcondition later
        obtain ⟨hforgets, htext, hheld⟩ := hcondition rfl
        rw [(hagain hforgets).unnoticed htext hheld later]
        exact ⟨rfl, rfl⟩
      · intro hunnoticed _
        have hforgets : ForgetsRecord stored (s.entryOf payload)
            (failure.left (s.entryOf payload)) := by
          by_contra hremembers
          obtain ⟨found, log, hfound, hne⟩ := hleft.skips happended hremembers
          have hevents := (hunnoticed []).1
          rw [handleAll_singleton, handleAll_singleton,
            hfinds.handle_store hchunk hsequence happended,
            handle_skip hchunk hfound (fun heq => hne (by omega))] at hevents
          cases hevents
        have htext := (hagain hforgets).repeatsText (hunnoticed []).1
        exact ⟨hforgets, htext,
          (hagain hforgets).not_tells htext fun later => (hunnoticed later).1⟩

/-! What is held back can be told -/

/-- What is held back holds no value. -/
theorem pending_free (r : ServerLogRedactor) (hsep : Separated mask r.values) (stream : LogStream)
    (chunk : JsString) :
    ∀ value ∈ r.values, ¬ value <:+: (r.redact stream chunk).2.pending stream := by
  intro value hvalue hfound
  have hnil : ¬ value <:+: [] := fun hfound =>
    r.values_ne_nil value hvalue (List.infix_nil.mp hfound)
  rw [ServerLogRedactor.redact] at hfound
  split at hfound
  · exact hnil (by simpa using hfound)
  · split at hfound
    · exact hnil (by simpa using hfound)
    · rename_i hmasked
      have hsame : maskAll mask r.values (r.pending stream ++ chunk) = r.pending stream ++ chunk :=
        not_not.mp hmasked
      have hfree := not_infix_maskAll hsep hvalue (r.pending stream ++ chunk)
      rw [hsame] at hfree
      dsimp only at hfound
      split at hfound
      · exact hnil (by simpa using hfound)
      · rw [setPending_pending_self] at hfound
        exact hfree (hfound.trans (List.drop_suffix _ _).isInfix)

/-- A unit that is in no value lets everything through that is held back. -/
theorem redact_fresh (r : ServerLogRedactor) (stream : LogStream) {x : UInt16}
    (hx : ∀ value ∈ r.values, x ∉ value) (hvalues : r.values ≠ [])
    (hfree : ∀ value ∈ r.values, ¬ value <:+: r.pending stream) :
    (r.redact stream [x]).1 = r.pending stream ++ [x] := by
  have hlast : ∀ u : JsString, u ≠ [] → u <:+ r.pending stream ++ [x] → x ∈ u := by
    intro u hu hsuffix
    obtain ⟨t, rfl, -⟩ := (List.suffix_concat_iff.mp hsuffix).resolve_left hu
    simp
  have hclean : ∀ value ∈ r.values, ¬ value <:+: r.pending stream ++ [x] := by
    intro value hvalue hfound
    rcases List.infix_concat_iff.mp hfound with hsuffix | hfound
    · exact hx value hvalue (hlast value (r.values_ne_nil value hvalue) hsuffix)
    · exact hfree value hvalue hfound
  have hsame : r.replace (r.pending stream ++ [x]) = r.pending stream ++ [x] :=
    maskAll_eq_self mask hclean
  have hhold : holdLength r.values (r.pending stream ++ [x]) = 0 := by
    refine (holdLength_isMax r.values _).attained.resolve_right ?_
    rintro ⟨u, ⟨hu, hsuffix, value, hvalue, w, -, rfl⟩, -⟩
    exact hx _ hvalue (List.mem_append_left w (hlast u hu hsuffix))
  rw [ServerLogRedactor.redact, if_neg hvalues, if_neg (not_not.mpr hsame), hhold, if_pos rfl]

theorem redact_values (r : ServerLogRedactor) (stream : LogStream) (chunk : JsString) :
    (r.redact stream chunk).2.values = r.values := by
  obtain ⟨text, htext⟩ := redact_snd_eq r stream chunk
  rw [htext, setPending_values]

/-- If another text is held back, a unit that is in no value tells, where the log has room for
what was held back. -/
theorem tells_of_not_repeatsHeld (hsep : Separated mask s.redactor.values) {x : UInt16}
    (hx : ∀ value ∈ s.redactor.values, x ∉ value) (emittedAt : JsString)
    (hroom : Appended (stored ++ [s.entryOf payload] ++ [⟨stored.length + 2, payload.stream,
      (maskedOnce s payload).pending payload.stream ++ [x], emittedAt⟩]))
    (hheld : ¬ RepeatsHeld s payload) : Tells s stored payload := by
  have honce : (maskedOnce s payload).values = s.redactor.values := redact_values ..
  have htwice : (maskedTwice s payload).values = s.redactor.values :=
    (redact_values ..).trans honce
  have hvalues : s.redactor.values ≠ [] := by
    intro hnil
    apply hheld
    rw [hnil] at honce
    rw [RepeatsHeld, maskedTwice, ServerLogRedactor.redact, if_pos honce, setPending_pending_self,
      maskedOnce, ServerLogRedactor.redact, if_pos hnil, setPending_pending_self]
  have hfirst : ((maskedOnce s payload).redact payload.stream [x]).1 =
      (maskedOnce s payload).pending payload.stream ++ [x] := by
    refine redact_fresh _ _ (honce ▸ hx) (honce ▸ hvalues) ?_
    rw [honce]
    exact pending_free s.redactor hsep payload.stream payload.chunk
  have hsecond : ((maskedTwice s payload).redact payload.stream [x]).1 =
      (maskedTwice s payload).pending payload.stream ++ [x] := by
    refine redact_fresh _ _ (htwice ▸ hx) (htwice ▸ hvalues) ?_
    rw [htwice, ← honce]
    exact pending_free (maskedOnce s payload) (honce ▸ hsep) payload.stream payload.chunk
  have hchunk : JsString.utf8Length [x] ≤ maxTaskLogChunkBytes := by
    rw [JsString.utf8Length, maxTaskLogChunkBytes]
    split_ifs <;> decide
  refine ⟨payload.stream, [x], emittedAt, hchunk, ?_, by rw [hfirst]; exact hroom⟩
  rw [hfirst, hsecond]
  exact fun heq => hheld (List.append_cancel_right heq)

/-! A message for an empty log -/

/-- A write that breaks off goes unnoticed. -/
theorem retriedUnnoticed_torn :
    RetriedUnnoticed newLogs (.append (.writeFailed 5)) plainPayload := by
  have hfinds : Finds newLogs [] := newState_isNew.finds
  refine (retriedUnnoticed newLogs [] plainPayload (.append (.writeFailed 5)) hfinds
    (by decide +kernel) (by decide +kernel)).1 fun _ => ⟨Or.inr ⟨?_, Or.inl ?_⟩, ?_, ?_⟩
  · exact fun x hx => absurd hx List.not_mem_nil
  · decide +kernel
  · rw [RepeatsText]
    decide +kernel
  · rw [RepeatsHeld]
    decide +kernel

/-- The same log under a redactor with one value. -/
def secretLogs : TaskLogs :=
  { newLogs with redactor := .ofValues [JsString.ofString "secret"] }

/-- The start of the value. -/
def startPayload : TaskLogPayload :=
  { plainPayload with chunk := JsString.ofString "sec" }

/-- When the row is not updated the event is never broadcast. When the file cannot be opened, what
is held back of the chunk is stored with it the second time. -/
theorem not_retriedUnnoticed :
    (Finds newLogs [] ∧ (newLogs.handle none plainPayload).1.isSome = true ∧
      (newLogs.handle (some .lastUpdate) plainPayload).1 = none ∧
      ¬ RetriedUnnoticed newLogs .lastUpdate plainPayload) ∧
    (Finds secretLogs [] ∧ (secretLogs.handle none startPayload).1.isSome = true ∧
      (secretLogs.handle (some (.append .openFailed)) startPayload).1 = none ∧
      ¬ RetriedUnnoticed secretLogs (.append .openFailed) startPayload) := by
  have hfinds : Finds newLogs [] := newState_isNew.finds
  refine ⟨⟨hfinds, by decide +kernel, by decide +kernel, fun hunnoticed => ?_⟩,
    ⟨hfinds.appended, hfinds.found⟩, by decide +kernel, by decide +kernel, fun hunnoticed => ?_⟩
  · have hevents := congrArg List.length (hunnoticed []).1
    revert hevents
    decide +kernel
  · have hbytes := congrArg List.length (hunnoticed []).2
    revert hbytes
    decide +kernel

end AnvilRun.TaskLogSubscription
