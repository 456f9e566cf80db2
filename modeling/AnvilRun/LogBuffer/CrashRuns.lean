import AnvilRun.LogBuffer.Crashes
import AnvilRun.LogBuffer.Format
import AnvilRun.TransitionSystem

namespace AnvilRun.LogBuffer

open scoped List
open AnvilRun.Interruptible

/-- The file of a buffer, the buffer on it while a process holds one, and what the calls so far
were about: the entries passed to `append`, and those of them that it has accepted and that no
acknowledgement covers. -/
structure History where
  buffer : Option LogBuffer
  disk : Disk
  offered : List BufferedLogEntry
  unacknowledged : List BufferedLogEntry

def History.empty : History := ⟨none, ⟨none, none⟩, [], []⟩

inductive Call where
  | open (path : PathChecks) (maxBytes : Nat)
  | append (entry : BufferedLogEntry)
  | acknowledge (sequence : Nat)
  | pendingReader
  /-- The process ends, or lets go of the buffer, between two calls. -/
  | crash

variable (format : EntryFormat)

/-- The memory in which the constructor builds the buffer. -/
def unopened : LogBuffer := ⟨0, 0, 0, 0, 0, 0, false⟩

def History.opened (path : PathChecks) (maxBytes : Nat) (faults : List (Option Fault))
    (history : History) : History :=
  match new format path maxBytes ⟨⟨unopened, history.disk⟩, faults⟩ with
  | (.ok _, t) =>
      { history with
        buffer := some t.state.buffer
        disk := t.state.disk }
  | (.error _, t) =>
      { history with
        buffer := none
        disk := t.state.disk }

def History.appended (entry : BufferedLogEntry) (faults : List (Option Fault)) (buffer : LogBuffer)
    (history : History) : History :=
  let offered := history.offered ++ [entry]
  match append format entry ⟨⟨buffer, history.disk⟩, faults⟩ with
  | (.ok true, t) =>
      ⟨some t.state.buffer, t.state.disk, offered, history.unacknowledged ++ [entry]⟩
  | (.ok false, t) => ⟨some t.state.buffer, t.state.disk, offered, history.unacknowledged⟩
  | (.error (.failed _), t) =>
      ⟨some t.state.buffer, t.state.disk, offered, history.unacknowledged⟩
  | (.error .crashed, t) => ⟨none, t.state.disk, offered, history.unacknowledged⟩

/-- An acknowledgement that a crash cuts off counts as one. -/
def History.acknowledged (sequence : Nat) (faults : List (Option Fault)) (buffer : LogBuffer)
    (history : History) : History :=
  let unacknowledged := history.unacknowledged.filter (sequence < ·.sequence)
  match acknowledge format sequence ⟨⟨buffer, history.disk⟩, faults⟩ with
  | (.ok _, t) => ⟨some t.state.buffer, t.state.disk, history.offered, unacknowledged⟩
  | (.error (.failed _), t) =>
      ⟨some t.state.buffer, t.state.disk, history.offered, history.unacknowledged⟩
  | (.error .crashed, t) => ⟨none, t.state.disk, history.offered, unacknowledged⟩

/-- One call, with what goes wrong in it. -/
def History.after (history : History) (faults : List (Option Fault)) : Call → History
  | .open path maxBytes => history.opened format path maxBytes faults
  | .append entry =>
      match history.buffer with
      | some buffer => history.appended format entry faults buffer
      | none => history
  | .acknowledge sequence =>
      match history.buffer with
      | some buffer => history.acknowledged format sequence faults buffer
      | none => history
  | .pendingReader => history
  | .crash => { history with buffer := none }

/-- All runs whose calls meet a condition on the state they are made in. -/
def histories (allowed : History → Call → Prop) : TransitionSystem History where
  init := (· = .empty)
  step := fun s t => ∃ call faults, allowed s call ∧ t = s.after format faults call

/-- Opening the file again succeeds, and the buffer has a run of records in which every record is
one that was passed to `append`, and no accepted record is missing that is not acknowledged. -/
def Recovers (history : History) : Prop :=
  ∀ maxBytes, 0 < maxBytes → ∃ t es,
    Returns (new format ⟨true, false, false⟩ maxBytes) ⟨unopened, history.disk⟩ () t ∧
      pendingEntries format t.disk = .ok es ∧ Contiguous es ∧
      history.unacknowledged <+ es ∧ es <+ history.offered

/-- The sequence of the last record of the file, zero if there is none. -/
def storedSequence (disk : Disk) : Nat :=
  (recoverLines format (readLines disk.contents) 0 0).2

/-- No entry has the greatest sequence when the last record of the file has it already. -/
def BelowEnd (history : History) : Call → Prop
  | .append entry =>
      ¬ (entry.sequence = u64Max ∧ storedSequence format history.disk = u64Max)
  | _ => True

variable {format}

/-- What holds of the file and the buffer throughout a run. -/
def Consistent (format : EntryFormat) (history : History) : Prop :=
  ∃ es, Stored format history.disk es ∧
    (∀ buffer, history.buffer = some buffer → Tracks format buffer es) ∧
    history.unacknowledged <+ es ∧ es <+ history.offered

theorem Stored.storedSequence_eq {disk : Disk} {es : List BufferedLogEntry}
    (h : Stored format disk es) : storedSequence format disk = lastSequence 0 es := by
  obtain ⟨hes, tail, htail, hcontents⟩ := h
  rw [storedSequence, hcontents, recoverLines_eq format hes.chained htail]

theorem InStep.tracks_some {host : Host} {es : List BufferedLogEntry} (h : InStep format host es) :
    ∀ buffer, some host.buffer = some buffer → Tracks format buffer es := by
  rintro _ ⟨⟩
  exact h.2

theorem consistent_opened {history : History} (h : Consistent format history) (path : PathChecks)
    (maxBytes : Nat) (faults : List (Option Fault)) :
    Consistent format (history.opened format path maxBytes faults) := by
  obtain ⟨es, hstored, -, hunacknowledged, hoffered⟩ := h
  have hhost : Stored format (Host.mk unopened history.disk).disk es := hstored
  have hends := ends_new hhost path maxBytes faults
  unfold History.opened
  unfold Effect.Ends at hends
  generalize new format path maxBytes ⟨⟨unopened, history.disk⟩, faults⟩ = result at hends ⊢
  rcases result with ⟨⟨e | -⟩ | _, t⟩
  · exact ⟨es, hends, fun _ hb => absurd hb (by simp), hunacknowledged, hoffered⟩
  · exact ⟨es, hends, fun _ hb => absurd hb (by simp), hunacknowledged, hoffered⟩
  · exact ⟨es, hends.stored, hends.inStep.tracks_some, hunacknowledged, hoffered⟩

theorem consistent_appended {history : History} (h : Consistent format history)
    {entry : BufferedLogEntry} {buffer : LogBuffer} (hbuffer : history.buffer = some buffer)
    (hallowed : BelowEnd format history (.append entry)) (faults : List (Option Fault)) :
    Consistent format (history.appended format entry faults buffer) := by
  obtain ⟨es, hstored, htracks, hunacknowledged, hoffered⟩ := h
  rw [BelowEnd, hstored.storedSequence_eq] at hallowed
  have hinStep : InStep format ⟨buffer, history.disk⟩ es := ⟨hstored, htracks buffer hbuffer⟩
  have hends := ends_append hinStep entry hallowed faults
  have hkept : history.unacknowledged <+ es ++ [entry] :=
    hunacknowledged.trans (List.sublist_append_left es [entry])
  have hmore : es <+ history.offered ++ [entry] :=
    hoffered.trans (List.sublist_append_left history.offered [entry])
  have hboth : es ++ [entry] <+ history.offered ++ [entry] := hoffered.append (List.Sublist.refl _)
  unfold History.appended
  unfold Effect.Ends at hends
  generalize append format entry ⟨⟨buffer, history.disk⟩, faults⟩ = result at hends ⊢
  rcases result with ⟨⟨e | -⟩ | written, t⟩
  · rcases hends with hends | hends
    · exact ⟨es, hends.1, hends.tracks_some, hunacknowledged, hmore⟩
    · exact ⟨es ++ [entry], hends.1, hends.tracks_some, hkept, hboth⟩
  · rcases hends with hends | hends
    · exact ⟨es, hends, fun _ hb => absurd hb (by simp), hunacknowledged, hmore⟩
    · exact ⟨es ++ [entry], hends, fun _ hb => absurd hb (by simp), hkept, hboth⟩
  · cases written with
    | false => exact ⟨es, hends.1, hends.tracks_some, hunacknowledged, hmore⟩
    | true =>
        exact ⟨es ++ [entry], hends.1, hends.tracks_some,
          hunacknowledged.append (List.Sublist.refl _), hboth⟩

theorem consistent_acknowledged {history : History} (h : Consistent format history)
    {buffer : LogBuffer} (hbuffer : history.buffer = some buffer) (sequence : Nat)
    (faults : List (Option Fault)) :
    Consistent format (history.acknowledged format sequence faults buffer) := by
  obtain ⟨es, hstored, htracks, hunacknowledged, hoffered⟩ := h
  have hinStep : InStep format ⟨buffer, history.disk⟩ es := ⟨hstored, htracks buffer hbuffer⟩
  have hends := ends_acknowledge hinStep sequence faults
  have hless : history.unacknowledged.filter (sequence < ·.sequence) <+ es :=
    List.filter_sublist.trans hunacknowledged
  have hkept : history.unacknowledged.filter (sequence < ·.sequence)
      <+ es.filter (sequence < ·.sequence) := hunacknowledged.filter _
  have hfewer : es.filter (sequence < ·.sequence) <+ history.offered :=
    List.filter_sublist.trans hoffered
  unfold History.acknowledged
  unfold Effect.Ends at hends
  generalize acknowledge format sequence ⟨⟨buffer, history.disk⟩, faults⟩ = result at hends ⊢
  rcases result with ⟨⟨e | -⟩ | _, t⟩
  · exact ⟨es, hends.1, hends.tracks_some, hunacknowledged, hoffered⟩
  · rcases hends with hends | hends
    · exact ⟨es, hends, fun _ hb => absurd hb (by simp), hless, hoffered⟩
    · exact ⟨_, hends, fun _ hb => absurd hb (by simp), hkept, hfewer⟩
  · rcases hends with hends | hends
    · exact ⟨es, hends.1, hends.tracks_some, hless, hoffered⟩
    · exact ⟨_, hends.1, hends.tracks_some, hkept, hfewer⟩

theorem consistent_after {history : History} (h : Consistent format history) {call : Call}
    (hallowed : BelowEnd format history call) (faults : List (Option Fault)) :
    Consistent format (history.after format faults call) := by
  cases call with
  | «open» path maxBytes => exact consistent_opened h path maxBytes faults
  | append entry =>
      rw [History.after]
      cases hbuffer : history.buffer with
      | none => exact h
      | some buffer => exact consistent_appended h hbuffer hallowed faults
  | acknowledge sequence =>
      rw [History.after]
      cases hbuffer : history.buffer with
      | none => exact h
      | some buffer => exact consistent_acknowledged h hbuffer sequence faults
  | pendingReader => exact h
  | crash =>
      obtain ⟨es, hstored, -, hrest⟩ := h
      exact ⟨es, hstored, fun _ hb => absurd hb (by simp [History.after]), hrest⟩

theorem consistent_of_reachable {history : History}
    (h : (histories format (BelowEnd format)).Reachable history) : Consistent format history := by
  refine h.invariant ?_ ?_
  · rintro _ rfl
    exact ⟨[], ⟨contiguous_nil, [], List.not_mem_nil, rfl⟩,
      fun _ hb => absurd hb (by simp [History.empty]), List.Sublist.refl _, List.Sublist.refl _⟩
  · rintro s _ - hs ⟨call, faults, hallowed, rfl⟩
    exact consistent_after hs hallowed faults

/-! Opening the file again -/

theorem returns_fileLen (host : Host) : Returns fileLen host host.contents.length host := rfl

theorem returns_recoverFile {host : Host} {es : List BufferedLogEntry}
    (h : Stored format host.disk es) :
    ∃ t, Returns (recoverFile format) host ((records format es).length, lastSequence 0 es) t ∧
      t.contents = records format es := by
  obtain ⟨hes, tail, htail, hcontents⟩ := h
  have hcontents : host.contents = records format es ++ tail := hcontents
  have hrecovered := recoverLines_eq format hes.chained htail
  rw [← hcontents] at hrecovered
  by_cases hzero : host.contents.length = 0
  · rw [hcontents, List.length_append] at hzero
    have hnil : es = [] := (length_records_eq_zero format).mp (by omega)
    have htail : tail = [] := List.eq_nil_of_length_eq_zero (by omega)
    subst hnil htail
    refine ⟨host, (returns_fileLen host).bind ?_, hcontents⟩
    rw [if_pos (by rw [hcontents]; rfl)]
    rfl
  · by_cases hlt : (records format es).length < host.contents.length
    · refine ⟨host.setFile (some (host.contents.take (records format es).length)),
        (returns_fileLen host).bind ?_, ?_⟩
      · rw [if_neg hzero]
        refine (returns_inspect _ host).bind ((returns_get host).bind ?_)
        simp only [hrecovered, if_pos hlt]
        rfl
      · show host.contents.take (records format es).length = _
        rw [hcontents, List.take_left]
    · refine ⟨host, (returns_fileLen host).bind ?_, ?_⟩
      · rw [if_neg hzero]
        refine (returns_inspect _ host).bind ((returns_get host).bind ?_)
        simp only [hrecovered, if_neg hlt]
        rfl
      · rw [hcontents, List.length_append] at hlt
        have htail : tail = [] := List.eq_nil_of_length_eq_zero (by omega)
        rw [hcontents, htail, List.append_nil]

theorem returns_new {host : Host} {es : List BufferedLogEntry} (h : Stored format host.disk es)
    {maxBytes : Nat} (hmax : 0 < maxBytes) :
    ∃ t, Returns (new format ⟨true, false, false⟩ maxBytes) host () t ∧
      t.contents = records format es := by
  obtain ⟨t, ht, hcontents⟩ := returns_recoverFile h
  have hpositive : ¬ (maxBytes = 0 ∨ false = true) := by
    rintro (h | h)
    · omega
    · exact Bool.false_ne_true h
  refine ⟨
    { t with
      buffer :=
        { maxBytes
          fileBytes := (records format es).length
          lastAppendedSequence := lastSequence 0 es
          lastCompactedSequence := 0
          acknowledgedSequence := 0
          bytesSinceCompaction := (records format es).length
          full := false } }, ?_, hcontents⟩
  rw [new, if_neg Bool.noConfusion, if_neg hpositive]
  refine (returns_inspect _ host).bind ?_
  rw [if_neg Bool.false_ne_true]
  exact (returns_inspect _ host).bind (ht.bind rfl)

theorem Consistent.recovers {history : History} (h : Consistent format history) :
    Recovers format history := by
  obtain ⟨es, hstored, -, hunacknowledged, hoffered⟩ := h
  intro maxBytes hmax
  have hhost : Stored format (Host.mk unopened history.disk).disk es := hstored
  obtain ⟨t, ht, hcontents⟩ := returns_new hhost hmax
  exact ⟨t, es, ht, pendingEntries_records format hcontents, hstored.1, hunacknowledged, hoffered⟩

/-- Whatever calls are made and wherever they are cut off, the file can be opened again and holds
a run of entries that were offered, with every accepted one that is not acknowledged. -/
theorem reopening_recovers (format : EntryFormat) (history : History)
    (h : (histories format (BelowEnd format)).Reachable history) : Recovers format history :=
  (consistent_of_reachable h).recovers

/-- A fresh buffer of 1024 bytes. -/
def openedOnce : History :=
  History.empty.after ndjson [] (.open ⟨true, false, false⟩ 1024)

def firstEntry : BufferedLogEntry :=
  ⟨1, .stdout, "a".toList, "2026-01-01T00:00:00Z".toList, by decide⟩

/-- A crash after ten bytes of the first record. -/
theorem reopening_recovers_torn :
    Recovers ndjson
      (openedOnce.after ndjson [none, none, none, some (.crash 10)] (.append firstEntry)) := by
  apply reopening_recovers
  refine .step (.step (.init rfl) ⟨.open ⟨true, false, false⟩ 1024, [], trivial, rfl⟩)
    ⟨.append firstEntry, _, ?_, rfl⟩
  exact fun h => absurd h.1 (by decide)

/-! At the end of the sequences a second record with the greatest one is accepted -/

def entryAtEnd : BufferedLogEntry :=
  ⟨u64Max, .stdout, "a".toList, "2026-01-01T00:00:00Z".toList, Nat.le_refl _⟩

def twiceAtEnd : History :=
  (openedOnce.after ndjson [] (.append entryAtEnd)).after ndjson [] (.append entryAtEnd)

theorem pendingEntries_twiceAtEnd :
    pendingEntries ndjson
        (new ndjson ⟨true, false, false⟩ 1024 ⟨⟨unopened, twiceAtEnd.disk⟩, []⟩).2.state.disk
      = .ok [entryAtEnd, entryAtEnd] :=
  pendingEntries_records ndjson (by decide +kernel)

theorem twiceAtEnd_not_recovers :
    (histories ndjson fun _ _ => True).Reachable twiceAtEnd ∧ ¬ Recovers ndjson twiceAtEnd := by
  refine ⟨.step (.step (.step (.init rfl) ⟨_, _, trivial, rfl⟩) ⟨_, _, trivial, rfl⟩)
    ⟨_, _, trivial, rfl⟩, fun h => ?_⟩
  obtain ⟨t, es, ht, hes, hcontiguous, -⟩ := h 1024 (by decide)
  have hpending := pendingEntries_twiceAtEnd
  rw [ht] at hpending
  obtain rfl := Except.ok.inj (hes.symm.trans hpending)
  have hnext := (List.isChain_cons_cons.mp hcontiguous.1).1
  exact absurd hnext (Nat.ne_of_lt (Nat.lt_succ_self _))

end AnvilRun.LogBuffer
