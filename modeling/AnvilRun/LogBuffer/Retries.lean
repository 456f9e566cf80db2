import AnvilRun.LogBuffer.Queue

namespace AnvilRun.LogBuffer

open AnvilRun.Interruptible

variable (format : EntryFormat)

/-- How many calls `recover_file` makes. -/
def recoveryCalls (host : Host) : Nat :=
  if host.contents.length = 0 then 1
  else if (recoverLines format (readLines host.contents) 0 0).1 < host.contents.length then 5
  else 2

/-- How many calls `append` makes before it opens the file to write the record. -/
def callsBeforeRecord (host : Host) : Nat :=
  2 + if host.contents.length ≠ host.buffer.fileBytes then recoveryCalls format host else 0

/-- With `calls` calls before the record is written, the call that fails is the write of the line
end, when the line end is written all the same, or the call behind it that makes the record
durable. -/
def BehindRecord (calls k reached : Nat) : Prop :=
  (k = calls + 2 ∧ 0 < reached) ∨ k = calls + 3

/-- Whether the records of a file reach up to the next sequence. -/
def ReachesUpTo (es : List BufferedLogEntry) (nextSequence : Nat) : Prop :=
  es ≠ [] → nextSequence = saturatingAdd (lastSequence 0 es) 1

/-- Whether a file of these records has room for the entry. -/
def HasRoom (host : Host) (es : List BufferedLogEntry) (entry : BufferedLogEntry) : Prop :=
  (records format (es ++ [entry])).length ≤ host.buffer.maxBytes

instance (host : Host) (es : List BufferedLogEntry) (entry : BufferedLogEntry) :
    Decidable (HasRoom format host es entry) :=
  inferInstanceAs (Decidable (_ ≤ _))

/-- Every entry with the next sequence is appended behind the entries `es`, unless it does not
fit. -/
def GoesOn (appender : Appender) (es : List BufferedLogEntry) : Prop :=
  ∀ entry, entry.sequence = appender.nextSequence →
    ∃ t, Returns (appendLogAndAdvance format entry) appender
        (decide (HasRoom format appender.host es entry)) t ∧
      pendingEntries format t.host.disk
        = .ok (if HasRoom format appender.host es entry then es ++ [entry] else es)

/-- The state between two calls, of which the earlier ones may have failed: the file holds the
records, and behind them at most a torn one, and the counters in memory are those of a part of the
records. -/
structure Kept (host : Host) (es : List BufferedLogEntry) : Prop where
  chained : Chained 0 es
  stored : ∃ tail, (0x0A : UInt8) ∉ tail ∧ host.contents = records format es ++ tail
  tracks : Tracks format host.buffer es

/-- The file holds the records and nothing else, and the counters are those of all the records. -/
structure Exact (host : Host) (es : List BufferedLogEntry) : Prop where
  chained : Chained 0 es
  contents_eq : host.contents = records format es
  fileBytes_eq : host.buffer.fileBytes = (records format es).length
  last_eq : es ≠ [] → host.buffer.lastAppendedSequence = lastSequence 0 es

variable {format} {host : Host} {es : List BufferedLogEntry} {entry : BufferedLogEntry}

/-- What the runs with failures and crashes keep is enough. -/
theorem InStep.kept (h : InStep format host es) : Kept format host es :=
  ⟨h.1.1.chained, h.1.2, h.2⟩

theorem Exact.kept (h : Exact format host es) : Kept format host es := by
  refine ⟨h.chained, ⟨[], List.not_mem_nil, ?_⟩, es, [], (List.append_nil es).symm, h.fileBytes_eq,
    h.last_eq⟩
  rw [List.append_nil, h.contents_eq]

theorem Kept.exact (h : Kept format host es)
    (hlength : host.contents.length = host.buffer.fileBytes) : Exact format host es := by
  obtain ⟨tail, -, hcontents⟩ := h.stored
  obtain ⟨rfl, hbytes, hlast⟩ := h.tracks.eq_of_length hcontents hlength
  rw [List.append_nil] at hcontents
  exact ⟨h.chained, hcontents, hbytes, hlast⟩

/-! The records of a file and an entry -/

theorem lastSequence_pos {last : Nat} (h : Chained last es) (hne : es ≠ []) :
    0 < lastSequence last es := by
  rw [← List.dropLast_append_getLast hne] at h ⊢
  rw [lastSequence_concat]
  exact Nat.pos_of_ne_zero (chained_append.mp h).2.1.1

theorem follows_lastSequence_iff (h : Chained 0 es) :
    follows (lastSequence 0 es) entry ↔ entry.sequence ≠ 0 ∧ ReachesUpTo es entry.sequence := by
  have hpos : 0 < lastSequence 0 es ↔ es ≠ [] := by
    constructor
    · rintro hlt rfl
      exact absurd hlt (Nat.lt_irrefl 0)
    · exact lastSequence_pos h
  rw [follows, ReachesUpTo, hpos]

theorem length_records_concat :
    (records format (es ++ [entry])).length
      = (records format es).length + ((toVec format entry).length + 1) := by
  simp [length_record]

/-- In an exact state the counter in memory decides as the records do. -/
theorem Exact.follows_lastSequence (h : Exact format host es)
    (hfollows : follows host.buffer.lastAppendedSequence entry) :
    follows (lastSequence 0 es) entry := by
  rw [follows_lastSequence_iff h.chained]
  refine ⟨hfollows.1, fun hne => ?_⟩
  have hlast := h.last_eq hne
  rw [← hlast]
  exact hfollows.2 (hlast ▸ lastSequence_pos h.chained hne)

/-! The calls of one `append` -/

theorem makes_fileLen {left : Host → Prop} (h : left host) :
    Makes fileLen host 1 host.contents.length host .io left :=
  (makes_inspect h).bind (n := 0) (makes_get.bind (n := 0) (makes_pure _))

theorem makes_truncate {length : Nat} {left : Host → Prop} (hbefore : left host)
    (hafter : left (host.setFile (some (host.contents.take length)))) :
    Makes (truncate length) host 3 () (host.setFile (some (host.contents.take length))) .io left :=
  (makes_inspect hbefore).bind (n := 2)
    ((makes_atomically _ hbefore).bind (n := 1) (makes_inspect hafter))

/-- Recovery finds the records, and nothing is left of a torn one. -/
theorem makes_recoverFile (h : Kept format host es) :
    ∃ t, t.contents = records format es ∧ t.buffer = host.buffer ∧
      Makes (recoverFile format) host (recoveryCalls format host)
        ((records format es).length, lastSequence 0 es) t .io
        (fun u => Kept format u es ∧ u.buffer = host.buffer) := by
  obtain ⟨tail, htail, hcontents⟩ := h.stored
  have hrecovered := recoverLines_eq format h.chained htail
  rw [← hcontents] at hrecovered
  have hlength : host.contents.length = (records format es).length + tail.length := by
    rw [hcontents, List.length_append]
  have hlen : Makes fileLen host 1 host.contents.length host .io
      (fun u => Kept format u es ∧ u.buffer = host.buffer) :=
    makes_fileLen ⟨h, rfl⟩
  rw [recoverFile, recoveryCalls]
  by_cases hzero : host.contents.length = 0
  · have hnil : es = [] := (length_records_eq_zero format).mp (by omega)
    have htail : tail = [] := List.eq_nil_of_length_eq_zero (by omega)
    subst hnil htail
    refine ⟨host, hcontents, rfl, ?_⟩
    rw [if_pos hzero]
    refine hlen.bind (n := 0) ?_
    rw [if_pos hzero]
    exact makes_pure _
  · rw [if_neg hzero, hrecovered]
    by_cases hlt : (records format es).length < host.contents.length
    · have htake : host.contents.take (records format es).length = records format es := by
        rw [hcontents, List.take_left]
      have hrepaired : Kept format
          (host.setFile (some (host.contents.take (records format es).length))) es := by
        refine ⟨h.chained, ⟨[], List.not_mem_nil, ?_⟩, h.tracks⟩
        rw [htake, List.append_nil]
        rfl
      refine ⟨host.setFile (some (host.contents.take (records format es).length)), htake, rfl, ?_⟩
      rw [if_pos hlt]
      refine hlen.bind (n := 4) ?_
      rw [if_neg hzero]
      refine (makes_inspect ⟨h, rfl⟩).bind (n := 3) (makes_get.bind (m := 0) (n := 3) ?_)
      simp only [hrecovered]
      rw [if_pos hlt]
      exact (makes_truncate ⟨h, rfl⟩ ⟨hrepaired, rfl⟩).bind (n := 0) (makes_pure _)
    · have htail : tail = [] := List.eq_nil_of_length_eq_zero (by omega)
      subst htail
      rw [List.append_nil] at hcontents
      refine ⟨host, hcontents, rfl, ?_⟩
      rw [if_neg hlt]
      refine hlen.bind (n := 1) ?_
      rw [if_neg hzero]
      refine (makes_inspect ⟨h, rfl⟩).bind (n := 0) (makes_get.bind (m := 0) (n := 0) ?_)
      simp only [hrecovered]
      rw [if_neg hlt]
      exact makes_pure _

/-- The state in which an entry may be tried again. -/
structure Retriable (format : EntryFormat) (host : Host) (es : List BufferedLogEntry)
    (entry : BufferedLogEntry) : Prop where
  kept : Kept format host es
  full_eq : host.buffer.full = false
  follows_last : follows host.buffer.lastAppendedSequence entry

/-- What is in the file of the record when call number `k` of its writing fails. -/
def writtenPart (format : EntryFormat) (entry : BufferedLogEntry) (k reached : Nat) :
    List UInt8 :=
  if k = 0 then []
  else if k = 1 then (toVec format entry).take reached
  else if k = 2 then toVec format entry ++ [0x0A].take reached
  else record format entry

theorem newline_not_mem_writtenPart {k reached : Nat} (hk : k < 4)
    (h : ¬ BehindRecord 0 k reached) :
    (0x0A : UInt8) ∉ writtenPart format entry k reached := by
  have hnot := newline_not_mem_toVec format entry
  rw [writtenPart]
  split
  · exact List.not_mem_nil
  · split
    · exact fun hmem => hnot (List.mem_of_mem_take hmem)
    · rw [BehindRecord] at h
      obtain rfl : k = 2 := by omega
      have hzero : reached = 0 := by omega
      simpa [hzero] using hnot

theorem writtenPart_eq_record {k reached : Nat} (h : BehindRecord 0 k reached) :
    writtenPart format entry k reached = record format entry := by
  rcases h with ⟨rfl, hreached⟩ | rfl
  · cases reached with
    | zero => exact absurd hreached (Nat.lt_irrefl 0)
    | succ n => simp [writtenPart, record]
  · rfl

/-- The four calls that write a record. -/
theorem writeRecord_failingAt (h : Exact format host es) {k reached : Nat} {t : Host}
    {faults : List (Option Fault)}
    (hrun : writeRecord format entry ⟨host, failingAt k reached⟩
      = (.error (.failed .io), ⟨t, faults⟩)) :
    HasRoom format host es entry ∧ k < 4 ∧ t.buffer = host.buffer ∧
      t.contents = records format es ++ writtenPart format entry k reached := by
  have hget : (get : Action Host) ⟨host, failingAt k reached⟩
      = (.ok host, ⟨host, failingAt k reached⟩) := rfl
  have hbody := (Effect.bind_apply_ok hget).symm.trans hrun
  by_cases hroom : host.buffer.maxBytes
      < host.buffer.fileBytes + ((toVec format entry).length + 1)
  · rw [if_pos hroom] at hbody
    cases hbody
  · rw [if_neg hroom] at hbody
    have hcontents := h.contents_eq
    refine ⟨?_, ?_⟩
    · rw [HasRoom, length_records_concat, ← h.fileBytes_eq]
      exact Nat.le_of_not_lt hroom
    · rcases k with _ | _ | _ | _ | k
      · cases hbody
        exact ⟨by omega, rfl, hcontents.trans (List.append_nil _).symm⟩
      · cases hbody
        refine ⟨by omega, rfl, ?_⟩
        rw [extend_contents, extend_contents, hcontents, List.append_nil]
        rfl
      · cases hbody
        refine ⟨by omega, rfl, ?_⟩
        rw [extend_contents, extend_contents, extend_contents, hcontents, List.append_nil,
          List.append_assoc]
        rfl
      · cases hbody
        refine ⟨by omega, rfl, ?_⟩
        rw [extend_contents, extend_contents, extend_contents, hcontents, List.append_nil,
          List.append_assoc]
        rfl
      · cases hbody

/-- What a call that fails leaves of a file with the records `es`. -/
structure LeavesRetriable (format : EntryFormat) (host : Host) (es : List BufferedLogEntry)
    (entry : BufferedLogEntry) (calls k reached : Nat) (t : Host) : Prop where
  maxBytes_eq : t.buffer.maxBytes = host.buffer.maxBytes
  behind : BehindRecord calls k reached →
    Retriable format t (es ++ [entry]) entry ∧ HasRoom format host es entry
  before : ¬ BehindRecord calls k reached → Retriable format t es entry

theorem leavesRetriable_of_lt {calls k reached : Nat} {t : Host} (hlt : k < calls)
    (hmax : t.buffer.maxBytes = host.buffer.maxBytes) (h : Retriable format t es entry) :
    LeavesRetriable format host es entry calls k reached t := by
  refine ⟨hmax, fun hbehind => ?_, fun _ => h⟩
  rw [BehindRecord] at hbehind
  omega

theorem LeavesRetriable.shift {calls k reached : Nat} {t u : Host}
    (h : LeavesRetriable format u es entry calls k reached t)
    (hmax : u.buffer.maxBytes = host.buffer.maxBytes) (n : Nat) :
    LeavesRetriable format host es entry (n + calls) (n + k) reached t := by
  have hshift : BehindRecord (n + calls) (n + k) reached ↔ BehindRecord calls k reached := by
    rw [BehindRecord, BehindRecord]
    omega
  refine ⟨h.maxBytes_eq.trans hmax, fun hbehind => ?_, fun hbefore => ?_⟩
  · obtain ⟨hretriable, hroom⟩ := h.behind (hshift.mp hbehind)
    rw [HasRoom, hmax] at hroom
    exact ⟨hretriable, hroom⟩
  · exact h.before fun hbehind => hbefore (hshift.mpr hbehind)

/-- A record whose writing fails is in the file as a whole, or at most a torn one is. -/
theorem leavesRetriable_writeRecord (h : Exact format host es) (hfull : host.buffer.full = false)
    (hfollows : follows host.buffer.lastAppendedSequence entry) {k reached : Nat} {t : Host}
    {faults : List (Option Fault)}
    (hrun : writeRecord format entry ⟨host, failingAt k reached⟩
      = (.error (.failed .io), ⟨t, faults⟩)) :
    LeavesRetriable format host es entry 0 k reached t := by
  obtain ⟨hroom, hk, hbuffer, hcontents⟩ := writeRecord_failingAt h hrun
  have hretriable : ∀ {fs : List BufferedLogEntry}, Kept format t fs →
      Retriable format t fs entry := by
    intro fs hkept
    refine ⟨hkept, ?_, ?_⟩
    · rw [hbuffer]
      exact hfull
    · rw [hbuffer]
      exact hfollows
  refine ⟨congrArg LogBuffer.maxBytes hbuffer, fun hwhole => ⟨hretriable ⟨?_, ?_, ?_⟩, hroom⟩,
    fun htorn => hretriable ⟨h.chained, ⟨_, newline_not_mem_writtenPart hk htorn, hcontents⟩, ?_⟩⟩
  · exact chained_append.mpr ⟨h.chained, h.follows_lastSequence hfollows, trivial⟩
  · refine ⟨[], List.not_mem_nil, ?_⟩
    rw [hcontents, writtenPart_eq_record hwhole, records_append, records_cons, records_nil,
      List.append_nil, List.append_nil]
  · rw [hbuffer]
    exact h.kept.tracks.append [entry]
  · rw [hbuffer]
    exact h.kept.tracks

/-- The counters that `reconcile` sets. -/
def refreshed (recovered : Nat × Nat) (host : Host) : Host :=
  { host with
    buffer :=
      { host.buffer with
        fileBytes := recovered.1
        lastAppendedSequence := recovered.2
        bytesSinceCompaction := max host.buffer.bytesSinceCompaction recovered.1 } }

theorem reconcile_apply (entry : BufferedLogEntry) {recovered : Nat × Nat} {s u : Faulty Host}
    (h : recoverFile format s = (.ok recovered, u)) :
    reconcile format entry s
      = (if follows recovered.2 entry then .ok () else .error (.failed .invalidRecord),
        ⟨refreshed recovered u.state, u.faults⟩) := by
  refine (Effect.bind_apply_ok h).trans ?_
  by_cases hfollows : follows recovered.2 entry
  · rw [if_pos hfollows, if_pos hfollows]
    rfl
  · rw [if_neg hfollows, if_neg hfollows]
    rfl

theorem reconcile_apply_error {stop : Stop LogBufferError} {s u : Faulty Host}
    (h : recoverFile format s = (.error stop, u)) :
    reconcile format entry s = (.error stop, u) :=
  Effect.bind_apply_error h

theorem exact_refreshed {u : Host} (h : Kept format host es)
    (hcontents : u.contents = records format es) :
    Exact format (refreshed ((records format es).length, lastSequence 0 es) u) es :=
  ⟨h.chained, hcontents, rfl, fun _ => rfl⟩

theorem leavesRetriable_reconcile (h : Kept format host es) (hfull : host.buffer.full = false)
    (hfollows : follows host.buffer.lastAppendedSequence entry) {k reached : Nat} {t : Host}
    {faults : List (Option Fault)}
    (hrun : (reconcile format entry >>= fun _ => writeRecord format entry)
        ⟨host, failingAt k reached⟩ = (.error (.failed .io), ⟨t, faults⟩)) :
    LeavesRetriable format host es entry (recoveryCalls format host + 0) k reached t := by
  obtain ⟨u, hcontents, hbuffer, hmakes⟩ := makes_recoverFile h
  by_cases hlt : k < recoveryCalls format host
  · obtain ⟨v, hv, hkept, hvbuffer⟩ := hmakes.fails k hlt reached
    have hfails := (Effect.bind_apply_error (reconcile_apply_error hv)).symm.trans hrun
    obtain rfl : v = t := congrArg (Faulty.state ∘ Prod.snd) hfails
    refine leavesRetriable_of_lt hlt (congrArg LogBuffer.maxBytes hvbuffer) ⟨hkept, ?_, ?_⟩
    · rw [hvbuffer]
      exact hfull
    · rw [hvbuffer]
      exact hfollows
  · obtain ⟨j, rfl⟩ := Nat.exists_eq_add_of_le (Nat.le_of_not_lt hlt)
    have hreconcile := reconcile_apply entry (hmakes.goes_on j reached)
    by_cases hnext : follows (lastSequence 0 es) entry
    · rw [if_pos hnext] at hreconcile
      have hwrite := (Effect.bind_apply_ok hreconcile).symm.trans hrun
      have hufull : u.buffer.full = false := by
        rw [hbuffer]
        exact hfull
      have hleaves := leavesRetriable_writeRecord (exact_refreshed h hcontents) hufull hnext hwrite
      refine hleaves.shift ?_ _
      show u.buffer.maxBytes = _
      rw [hbuffer]
    · rw [if_neg hnext] at hreconcile
      have hfails := (Effect.bind_apply_error hreconcile).symm.trans hrun
      cases hfails

/-- What a call of `append` leaves in which one call of the operating system fails. -/
theorem leavesRetriable_append (h : Kept format host es) {k reached : Nat} {t : Host}
    {faults : List (Option Fault)}
    (hrun : append format entry ⟨host, failingAt k reached⟩
      = (.error (.failed .io), ⟨t, faults⟩)) :
    LeavesRetriable format host es entry (callsBeforeRecord format host) k reached t := by
  have hget : (get : Action Host) ⟨host, failingAt k reached⟩
      = (.ok host, ⟨host, failingAt k reached⟩) := rfl
  have hbody := (Effect.bind_apply_ok hget).symm.trans hrun
  by_cases hfull : host.buffer.full = true
  · rw [if_pos hfull] at hbody
    cases hbody
  by_cases hfollows : follows host.buffer.lastAppendedSequence entry
  · rw [if_neg hfull, if_pos hfollows] at hbody
    have hfull : host.buffer.full = false := Bool.eq_false_iff.mpr hfull
    have hretriable : Retriable format host es entry := ⟨h, hfull, hfollows⟩
    rcases k with _ | _ | k
    · cases hbody
      exact leavesRetriable_of_lt (by rw [callsBeforeRecord]; omega) rfl hretriable
    · cases hbody
      exact leavesRetriable_of_lt (by rw [callsBeforeRecord]; omega) rfl hretriable
    · rw [callsBeforeRecord, Nat.add_assoc k, Nat.add_comm k]
      refine LeavesRetriable.shift ?_ rfl 2
      have hbody : (if host.contents.length ≠ host.buffer.fileBytes then
          reconcile format entry >>= fun _ => writeRecord format entry
          else writeRecord format entry) ⟨host, failingAt k reached⟩
            = (.error (.failed .io), ⟨t, faults⟩) := hbody
      by_cases hlength : host.contents.length ≠ host.buffer.fileBytes
      · rw [if_pos hlength] at hbody ⊢
        exact leavesRetriable_reconcile h hfull hfollows hbody
      · rw [if_neg hlength] at hbody ⊢
        exact leavesRetriable_writeRecord (h.exact (not_not.mp hlength)) hfull hfollows hbody
  · rw [if_neg hfull, if_neg hfollows] at hbody
    cases hbody

/-! The next call -/

theorem Retriable.append_apply (h : Retriable format host es entry) :
    append format entry ⟨host, []⟩
      = (if host.contents.length ≠ host.buffer.fileBytes then
          reconcile format entry >>= fun _ => writeRecord format entry
        else writeRecord format entry) ⟨host, []⟩ := by
  have hfull : ¬ host.buffer.full = true := Bool.eq_false_iff.mp h.full_eq
  refine (Effect.bind_apply_ok (returns_get host)).trans ?_
  rw [if_neg hfull, if_pos h.follows_last]
  rfl

theorem Exact.returns_writeRecord (h : Exact format host es) (entry : BufferedLogEntry) :
    ∃ t, Returns (writeRecord format entry) host (decide (HasRoom format host es entry)) t ∧
      t.contents = records format (if HasRoom format host es entry then es ++ [entry] else es) := by
  have hroom : HasRoom format host es entry ↔
      host.buffer.fileBytes + ((toVec format entry).length + 1) ≤ host.buffer.maxBytes := by
    rw [HasRoom, length_records_concat, h.fileBytes_eq]
  by_cases hfits : HasRoom format host es entry
  · rw [if_pos hfits, decide_eq_true hfits]
    refine ⟨_, LogBuffer.returns_writeRecord (hroom.mp hfits), ?_⟩
    rw [contents_written, h.contents_eq, records_append, records_cons, records_nil,
      List.append_nil]
  · rw [if_neg hfits, decide_eq_false hfits]
    refine ⟨_, returns_writeRecord_full (fun hle => hfits (hroom.mpr hle)), ?_⟩
    exact h.contents_eq

/-- When the records reach up to the entry, it is appended. -/
theorem Retriable.returns_append (h : Retriable format host es entry)
    (hnext : ReachesUpTo es entry.sequence) :
    ∃ t, Returns (append format entry) host (decide (HasRoom format host es entry)) t ∧
      t.contents = records format (if HasRoom format host es entry then es ++ [entry] else es) := by
  have hfollows : follows (lastSequence 0 es) entry :=
    (follows_lastSequence_iff h.kept.chained).mpr ⟨h.follows_last.1, hnext⟩
  by_cases hlength : host.contents.length ≠ host.buffer.fileBytes
  · obtain ⟨u, hcontents, hbuffer, hmakes⟩ := makes_recoverFile h.kept
    have hreconcile := reconcile_apply entry hmakes.returns
    rw [if_pos hfollows] at hreconcile
    obtain ⟨t, ht, htcontents⟩ :=
      (exact_refreshed h.kept hcontents).returns_writeRecord entry
    have hroom : HasRoom format (refreshed ((records format es).length, lastSequence 0 es) u) es
        entry ↔ HasRoom format host es entry := by
      show _ ≤ u.buffer.maxBytes ↔ _
      rw [hbuffer]
      rfl
    simp only [hroom] at ht htcontents
    refine ⟨t, ?_, htcontents⟩
    refine h.append_apply.trans ?_
    rw [if_pos hlength]
    exact (Effect.bind_apply_ok hreconcile).trans ht
  · obtain ⟨t, ht, hcontents⟩ :=
      (h.kept.exact (not_not.mp hlength)).returns_writeRecord entry
    refine ⟨t, ?_, hcontents⟩
    refine h.append_apply.trans ?_
    rw [if_neg hlength]
    exact ht

/-- When they do not, the call fails on what it finds in the file. -/
theorem Retriable.fails_append (h : Retriable format host es entry)
    (hnext : ¬ ReachesUpTo es entry.sequence) :
    ∃ t, Fails (append format entry) host .invalidRecord t := by
  have hfollows : ¬ follows (lastSequence 0 es) entry := fun hfollows =>
    hnext ((follows_lastSequence_iff h.kept.chained).mp hfollows).2
  have hlength : host.contents.length ≠ host.buffer.fileBytes := fun hlength =>
    hfollows ((h.kept.exact hlength).follows_lastSequence h.follows_last)
  obtain ⟨u, -, -, hmakes⟩ := makes_recoverFile h.kept
  have hreconcile := reconcile_apply entry hmakes.returns
  rw [if_neg hfollows] at hreconcile
  refine ⟨refreshed ((records format es).length, lastSequence 0 es) u, h.append_apply.trans ?_⟩
  rw [if_pos hlength]
  exact Effect.bind_apply_error hreconcile

/-! The counter of the caller -/

section Appending

variable {appender t : Appender}

/-- A call that fails does not move the counter. -/
theorem appendLogAndAdvance_eq {faults : List (Option Fault)}
    (h : entry.sequence = appender.nextSequence) :
    appendLogAndAdvance format entry ⟨appender, faults⟩
      = (zoom Appender.host Appender.setHost id (append format entry) >>= fun appended =>
          Effect.onlyIf (appended = true) (modify Appender.advance) >>= fun _ => pure appended)
        ⟨appender, faults⟩ := by
  have hget : (get : Interruptible LogBufferError Appender Appender) ⟨appender, faults⟩
      = (.ok appender, ⟨appender, faults⟩) := rfl
  refine (Effect.bind_apply_ok hget).trans ?_
  rw [if_neg (not_not.mpr h)]

theorem appendLogAndAdvance_error {u : Host} {e : LogBufferError}
    {faults rest : List (Option Fault)} (hnext : entry.sequence = appender.nextSequence)
    (h : append format entry ⟨appender.host, faults⟩ = (.error (.failed e), ⟨u, rest⟩)) :
    appendLogAndAdvance format entry ⟨appender, faults⟩
      = (.error (.failed e), ⟨appender.setHost u, rest⟩) := by
  have hzoom : zoom Appender.host Appender.setHost id (append format entry) ⟨appender, faults⟩
      = (.error (.failed e), ⟨appender.setHost u, rest⟩) := by
    rw [zoom, h]
    rfl
  exact (appendLogAndAdvance_eq hnext).trans (Effect.bind_apply_error hzoom)

theorem appendLogAndAdvance_ok {u : Host} {b : Bool}
    (hnext : entry.sequence = appender.nextSequence)
    (h : Returns (append format entry) appender.host b u) :
    Returns (appendLogAndAdvance format entry) appender b
      (if b then (appender.setHost u).advance else appender.setHost u) := by
  have hzoom : zoom Appender.host Appender.setHost id (append format entry) ⟨appender, []⟩
      = (.ok b, ⟨appender.setHost u, []⟩) := by
    rw [zoom, h]
    rfl
  refine (appendLogAndAdvance_eq hnext).trans ((Effect.bind_apply_ok hzoom).trans ?_)
  cases b with
  | false => rfl
  | true => rfl

theorem append_of_appendLogAndAdvance_error {faults rest : List (Option Fault)}
    (h : appendLogAndAdvance format entry ⟨appender, faults⟩ = (.error (.failed .io), ⟨t, rest⟩)) :
    entry.sequence = appender.nextSequence ∧ ∃ u,
      append format entry ⟨appender.host, faults⟩ = (.error (.failed .io), ⟨u, rest⟩) ∧
        t = appender.setHost u := by
  have hnext : entry.sequence = appender.nextSequence := by
    by_contra hne
    have hget : (get : Interruptible LogBufferError Appender Appender) ⟨appender, faults⟩
        = (.ok appender, ⟨appender, faults⟩) := rfl
    have hbody := (Effect.bind_apply_ok hget).symm.trans h
    rw [if_pos hne] at hbody
    cases hbody
  have hcall := (appendLogAndAdvance_eq hnext).symm.trans h
  refine ⟨hnext, ?_⟩
  generalize happend : append format entry ⟨appender.host, faults⟩ = result
  have hzoom : zoom Appender.host Appender.setHost id (append format entry) ⟨appender, faults⟩
      = zoomed Appender.setHost id appender result := by
    rw [zoom, happend]
  rcases result with ⟨(e | _) | b, u⟩
  · have hfails := (Effect.bind_apply_error hzoom).symm.trans hcall
    cases hfails
    exact ⟨u.state, rfl, rfl⟩
  · have hfails := (Effect.bind_apply_error hzoom).symm.trans hcall
    cases hfails
  · have hreturns := (Effect.bind_apply_ok hzoom).symm.trans hcall
    cases b with
    | false => cases hreturns
    | true => cases hreturns

theorem Retriable.goesOn (h : Retriable format appender.host es entry)
    (hentry : entry.sequence = appender.nextSequence)
    (hnext : ReachesUpTo es appender.nextSequence) : GoesOn format appender es := by
  intro other hother
  have hfollows : follows appender.host.buffer.lastAppendedSequence other := by
    have hlast := h.follows_last
    rw [follows, hentry] at hlast
    rw [follows, hother]
    exact hlast
  obtain ⟨u, hu, hcontents⟩ :=
    Retriable.returns_append ⟨h.kept, h.full_eq, hfollows⟩ (hother.symm ▸ hnext)
  refine ⟨_, appendLogAndAdvance_ok hother hu, ?_⟩
  by_cases hroom : HasRoom format appender.host es other
  · rw [if_pos hroom, decide_eq_true hroom] at *
    exact pendingEntries_records format hcontents
  · rw [if_neg hroom, decide_eq_false hroom] at *
    exact pendingEntries_records format hcontents

/-- An entry that is in the file already is not appended as if it were not. -/
theorem Retriable.not_goesOn (h : Retriable format appender.host (es ++ [entry]) entry)
    (hentry : entry.sequence = appender.nextSequence)
    (hroom : HasRoom format appender.host es entry) : ¬ GoesOn format appender es := by
  intro hgoes
  obtain ⟨u, hu, hpending⟩ := hgoes entry hentry
  rw [if_pos hroom] at hpending
  rw [decide_eq_true hroom] at hu
  by_cases hnext : ReachesUpTo (es ++ [entry]) entry.sequence
  · obtain ⟨v, hv, hcontents⟩ := h.returns_append hnext
    have heq := (appendLogAndAdvance_ok hentry hv).symm.trans hu
    have hfits : HasRoom format appender.host (es ++ [entry]) entry :=
      of_decide_eq_true (Except.ok.inj (congrArg Prod.fst heq))
    rw [decide_eq_true hfits] at heq
    rw [if_pos hfits] at hcontents
    obtain rfl : (appender.setHost v).advance = u := congrArg (Faulty.state ∘ Prod.snd) heq
    have hboth := Except.ok.inj ((pendingEntries_records format hcontents).symm.trans hpending)
    have hlength := congrArg List.length hboth
    simp at hlength
  · obtain ⟨v, hv⟩ := h.fails_append hnext
    have heq := (appendLogAndAdvance_error hentry hv).symm.trans hu
    cases heq

theorem Retriable.reachesUpTo (h : Retriable format appender.host es entry)
    (hentry : entry.sequence = appender.nextSequence) (hgoes : GoesOn format appender es) :
    ReachesUpTo es appender.nextSequence := by
  by_contra hnext
  rw [← hentry] at hnext
  obtain ⟨u, hu, -⟩ := hgoes entry hentry
  obtain ⟨v, hv⟩ := h.fails_append hnext
  have heq := (appendLogAndAdvance_error hentry hv).symm.trans hu
  cases heq

end Appending

/-- One call of the operating system fails in `append_log_and_advance`. The next entry is appended
as if it had not been tried before, if and only if the failing call is not behind the record and
no record of the file is ahead of the counter. -/
theorem appendLogAndAdvance_goesOn_iff (format : EntryFormat) {appender t : Appender}
    {es : List BufferedLogEntry} {entry : BufferedLogEntry} {k reached : Nat}
    {faults : List (Option Fault)} (h : Kept format appender.host es)
    (hfailed : appendLogAndAdvance format entry ⟨appender, failingAt k reached⟩
      = (.error (.failed .io), ⟨t, faults⟩)) :
    t.nextSequence = appender.nextSequence ∧
      (GoesOn format t es ↔
        ¬ BehindRecord (callsBeforeRecord format appender.host) k reached ∧
          ReachesUpTo es appender.nextSequence) := by
  obtain ⟨hentry, u, hu, rfl⟩ := append_of_appendLogAndAdvance_error hfailed
  have hleaves := leavesRetriable_append h hu
  have hroom : HasRoom format (appender.setHost u).host es entry ↔
      HasRoom format appender.host es entry := by
    show _ ≤ u.buffer.maxBytes ↔ _
    rw [hleaves.maxBytes_eq]
    rfl
  refine ⟨rfl, ?_⟩
  by_cases hbehind : BehindRecord (callsBeforeRecord format appender.host) k reached
  · obtain ⟨hretriable, hfits⟩ := hleaves.behind hbehind
    have hretriable : Retriable format (appender.setHost u).host (es ++ [entry]) entry :=
      hretriable
    constructor
    · exact fun hgoes => absurd hgoes (hretriable.not_goesOn hentry (hroom.mpr hfits))
    · exact fun hnot => absurd hbehind hnot.1
  · have hretriable : Retriable format (appender.setHost u).host es entry :=
      hleaves.before hbehind
    constructor
    · exact fun hgoes => ⟨hbehind, hretriable.reachesUpTo hentry hgoes⟩
    · exact fun hnot => hretriable.goesOn hentry hnot.2

/-- A fresh buffer of 1024 bytes, for a task whose first entry is to come. -/
def firstAppender : Appender := ⟨freshHost 1024, 1, Nat.le_of_ble_eq_true rfl⟩

/-- What the first entry leaves when call number `k` fails. -/
def failedFirst (k reached : Nat) : Appender :=
  (appendLogAndAdvance ndjson firstEntry ⟨firstAppender, failingAt k reached⟩).2.state

theorem kept_firstAppender (format : EntryFormat) : Kept format firstAppender.host [] :=
  ⟨trivial, ⟨[], List.not_mem_nil, rfl⟩, [], [], rfl, rfl, fun hne => absurd rfl hne⟩

theorem tornFirst_goesOn : GoesOn ndjson (failedFirst 3 10) [] := by
  have hfailed : appendLogAndAdvance ndjson firstEntry ⟨firstAppender, failingAt 3 10⟩
      = (.error (.failed .io), ⟨failedFirst 3 10, []⟩) := rfl
  have hiff := (appendLogAndAdvance_goesOn_iff ndjson (kept_firstAppender ndjson) hfailed).2
  refine hiff.mpr ⟨?_, fun hne => absurd rfl hne⟩
  rw [BehindRecord]
  decide

/-- The record is written and the call behind it fails. -/
theorem unsyncedFirst_not_goesOn :
    Kept ndjson firstAppender.host [] ∧
      appendLogAndAdvance ndjson firstEntry ⟨firstAppender, failingAt 5 0⟩
        = (.error (.failed .io), ⟨failedFirst 5 0, []⟩) ∧
      ¬ GoesOn ndjson (failedFirst 5 0) [] := by
  refine ⟨kept_firstAppender ndjson, rfl, fun hgoes => ?_⟩
  obtain ⟨t, ht, -⟩ := hgoes firstEntry rfl
  have hfails : (appendLogAndAdvance ndjson firstEntry ⟨failedFirst 5 0, []⟩).1
      = .error (.failed .invalidRecord) := by
    decide +kernel
  rw [ht] at hfails
  cases hfails

end AnvilRun.LogBuffer
