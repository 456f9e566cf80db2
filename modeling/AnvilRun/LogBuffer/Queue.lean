import AnvilRun.AcknowledgedQueue
import AnvilRun.LogBuffer.CrashRuns

namespace AnvilRun.LogBuffer

open AnvilRun.Interruptible

variable (format : EntryFormat)

/-- A buffer that nobody else's writes touch, with the queue that it stands for and the entries
offered to it so far. -/
structure Session where
  host : Host
  queue : AcknowledgedQueue BufferedLogEntry
  offered : List BufferedLogEntry

inductive QueueCall where
  | append (entry : BufferedLogEntry)
  | acknowledge (sequence : Nat)

/-- One call in which nothing goes wrong. The queue follows when the call succeeds, and stays as it
is when it returns `false` or an error. -/
def Session.after (session : Session) : QueueCall → Session
  | .append entry =>
      let offered := session.offered ++ [entry]
      match append format entry ⟨session.host, []⟩ with
      | (.ok true, t) =>
          ⟨t.state, session.queue.append BufferedLogEntry.sequence entry, offered⟩
      | (.ok false, t) => ⟨t.state, session.queue, offered⟩
      | (.error _, t) => ⟨t.state, session.queue, offered⟩
  | .acknowledge sequence =>
      match acknowledge format sequence ⟨session.host, []⟩ with
      | (.ok _, t) =>
          ⟨t.state, session.queue.acknowledge BufferedLogEntry.sequence sequence, session.offered⟩
      | (.error _, t) => ⟨t.state, session.queue, session.offered⟩

/-- All runs of a fresh buffer whose calls meet a condition on the state they are made in. -/
def sessions (allowed : Session → QueueCall → Prop) : TransitionSystem Session where
  init := fun s => ∃ maxBytes, 0 < maxBytes ∧
    Returns (new format ⟨true, false, false⟩ maxBytes) ⟨unopened, ⟨none, none⟩⟩ () s.host ∧
      s.queue = .empty ∧ s.offered = []
  step := fun s t => ∃ call, allowed s call ∧ t = s.after format call

/-- The entries above the acknowledged one that a reader finds are those of the queue. -/
def Represents (host : Host) (queue : AcknowledgedQueue BufferedLogEntry) : Prop :=
  ∃ es, pendingEntries format host.disk = .ok es ∧
    es.filter (host.buffer.acknowledgedSequence < ·.sequence) = queue.entries ∧
    host.buffer.acknowledgedSequence = queue.acknowledged ∧
    host.buffer.lastAppendedSequence = queue.last

def Fits (host : Host) (entry : BufferedLogEntry) : Prop :=
  (record format entry).length ≤ host.buffer.maxBytes

/-- No entry has the greatest sequence when that sequence is acknowledged already. -/
def BelowAcknowledgedEnd (session : Session) : QueueCall → Prop
  | .append entry =>
      ¬ (entry.sequence = u64Max ∧ session.host.buffer.acknowledgedSequence = u64Max)
  | .acknowledge _ => True

variable {format} {host : Host} {es : List BufferedLogEntry}

/-- What holds of a buffer whose file has the records `es`. -/
structure Steady (format : EntryFormat) (host : Host) (es : List BufferedLogEntry) : Prop where
  contents_eq : host.contents = records format es
  fileBytes_eq : host.buffer.fileBytes = (records format es).length
  fileBytes_le : host.buffer.fileBytes ≤ host.buffer.maxBytes
  le_last : ∀ e ∈ es, e.sequence ≤ host.buffer.lastAppendedSequence
  last_le : host.buffer.lastAppendedSequence ≤ u64Max
  last_eq : es ≠ [] → host.buffer.lastAppendedSequence = lastSequence 0 es
  acknowledged_lt : es ≠ [] →
    host.buffer.acknowledgedSequence < host.buffer.lastAppendedSequence
  acknowledged_eq : es = [] →
    host.buffer.acknowledgedSequence = host.buffer.lastAppendedSequence

theorem Steady.length_contents (h : Steady format host es) :
    host.contents.length = host.buffer.fileBytes := by
  rw [h.contents_eq, h.fileBytes_eq]

/-! Calls in which nothing goes wrong -/

/-- The state behind a written record. -/
def written (format : EntryFormat) (entry : BufferedLogEntry) (host : Host) : Host where
  buffer :=
    { host.buffer with
      fileBytes := host.buffer.fileBytes + ((toVec format entry).length + 1)
      bytesSinceCompaction := host.buffer.bytesSinceCompaction + ((toVec format entry).length + 1)
      lastAppendedSequence := entry.sequence }
  disk := (((host.extend []).extend (toVec format entry)).extend [0x0A]).disk

theorem contents_written (entry : BufferedLogEntry) (host : Host) :
    (written format entry host).contents = host.contents ++ record format entry := by
  show ((host.contents ++ []) ++ toVec format entry) ++ [0x0A] = _
  rw [List.append_nil, List.append_assoc, record]

/-- Whether the entry goes into the file. -/
def Accepts (format : EntryFormat) (host : Host) (entry : BufferedLogEntry) : Prop :=
  host.buffer.full = false ∧ follows host.buffer.lastAppendedSequence entry ∧
    host.buffer.fileBytes + ((toVec format entry).length + 1) ≤ host.buffer.maxBytes

theorem returns_writeRecord {entry : BufferedLogEntry}
    (h : host.buffer.fileBytes + ((toVec format entry).length + 1) ≤ host.buffer.maxBytes) :
    Returns (writeRecord format entry) host true (written format entry host) := by
  refine (returns_get host).bind ?_
  rw [if_neg (Nat.not_lt.mpr h)]
  refine (returns_atomically _ _ _).bind ((returns_write _ _ _ _).bind ?_)
  exact (returns_write _ _ _ _).bind ((returns_inspect _ _).bind rfl)

theorem returns_writeRecord_full {entry : BufferedLogEntry}
    (h : ¬ host.buffer.fileBytes + ((toVec format entry).length + 1) ≤ host.buffer.maxBytes) :
    Returns (writeRecord format entry) host false
      { host with
        buffer := { host.buffer with full := true } } := by
  refine (returns_get host).bind ?_
  rw [if_pos (Nat.lt_of_not_le h)]
  rfl

/-- What `append` does with an entry that it looks at in a file of the recorded length. -/
theorem append_apply {entry : BufferedLogEntry}
    (hlength : host.contents.length = host.buffer.fileBytes)
    (hfull : host.buffer.full = false)
    (hfollows : follows host.buffer.lastAppendedSequence entry) :
    append format entry ⟨host, []⟩ = writeRecord format entry ⟨host, []⟩ := by
  have hchecks : ∀ {b : Bool} {t : Host}, Returns (writeRecord format entry) host b t →
      Returns (append format entry) host b t := by
    intro b t hwrite
    refine (returns_get host).bind ?_
    rw [if_neg (by rw [hfull]; exact Bool.false_ne_true), if_pos hfollows]
    refine (returns_inspect _ host).bind ((returns_fileLen host).bind ?_)
    rw [if_neg (not_not.mpr hlength)]
    exact hwrite
  by_cases hroom : host.buffer.fileBytes + ((toVec format entry).length + 1) ≤ host.buffer.maxBytes
  · rw [returns_writeRecord hroom]
    exact hchecks (returns_writeRecord hroom)
  · rw [returns_writeRecord_full hroom]
    exact hchecks (returns_writeRecord_full hroom)

theorem returns_append {entry : BufferedLogEntry}
    (hlength : host.contents.length = host.buffer.fileBytes) (h : Accepts format host entry) :
    Returns (append format entry) host true (written format entry host) :=
  (append_apply hlength h.1 h.2.1).trans (returns_writeRecord h.2.2)

/-- An entry that does not go into the file leaves everything but the mark for a full buffer. -/
theorem append_of_not_accepts {entry : BufferedLogEntry}
    (hlength : host.contents.length = host.buffer.fileBytes) (h : ¬ Accepts format host entry) :
    ∃ result full, append format entry ⟨host, []⟩
        = (result, ⟨{ host with buffer := { host.buffer with full } }, []⟩) ∧
      (∀ b, result = .ok b → b = false) ∧
      (full = true → host.buffer.full = true ∨
        host.buffer.maxBytes < host.buffer.fileBytes + ((toVec format entry).length + 1)) := by
  by_cases hfull : host.buffer.full = true
  · refine ⟨.ok false, host.buffer.full, ?_, fun b hb => (Except.ok.inj hb).symm,
      fun _ => .inl hfull⟩
    refine (Effect.bind_apply_ok (returns_get host)).trans ?_
    rw [if_pos hfull]
    rfl
  · have hfull : host.buffer.full = false := Bool.eq_false_iff.mpr hfull
    by_cases hfollows : follows host.buffer.lastAppendedSequence entry
    · have hroom : ¬ host.buffer.fileBytes + ((toVec format entry).length + 1)
          ≤ host.buffer.maxBytes := fun hroom => h ⟨hfull, hfollows, hroom⟩
      refine ⟨.ok false, true, ?_, fun b hb => (Except.ok.inj hb).symm,
        fun _ => .inr (Nat.lt_of_not_le hroom)⟩
      rw [append_apply hlength hfull hfollows]
      exact returns_writeRecord_full hroom
    · refine ⟨.error (.failed .invalidRecord), host.buffer.full, ?_, ?_, fun hf => .inl hf⟩
      · refine (Effect.bind_apply_ok (returns_get host)).trans ?_
        rw [if_neg (by rw [hfull]; exact Bool.false_ne_true), if_neg hfollows]
        rfl
      · intro b hb
        cases hb

theorem contents_compacted (retained : List UInt8) (host : Host) :
    ((host.setTemporary (some [])).extendTemporary retained).persistTemporary.contents
      = retained :=
  List.nil_append retained

/-- A compaction leaves the records behind the acknowledged one. -/
theorem returns_compact (h : host.contents = records format es) :
    ∃ t, Returns (compact format) host () t ∧
      t.contents = records format
        (es.filter (host.buffer.acknowledgedSequence < ·.sequence)) ∧
      t.buffer =
        { host.buffer with
          fileBytes := (records format
            (es.filter (host.buffer.acknowledgedSequence < ·.sequence))).length
          bytesSinceCompaction := 0
          lastCompactedSequence := host.buffer.acknowledgedSequence } := by
  generalize hn : host.buffer.acknowledgedSequence = n
  have hretain := retainLines_eq format n es
  rw [← h] at hretain
  generalize hrest : records format (es.filter (n < ·.sequence)) = rest at hretain ⊢
  have hreplace : ∀ t : Host, Returns (replaceFile rest)
      ((host.setTemporary (some [])).extendTemporary rest) () t →
      Returns (compact format) host ()
        { t with
          buffer :=
            { t.buffer with
              bytesSinceCompaction := 0
              lastCompactedSequence := t.buffer.acknowledgedSequence } } := by
    intro t ht
    refine (returns_inspect _ host).bind ((returns_get host).bind ?_)
    refine (returns_atomically _ _ host).bind ?_
    simp only [hn, hretain]
    exact (returns_write _ _ _ _).bind ((returns_inspect _ _).bind (ht.bind rfl))
  by_cases hempty : rest = []
  · refine ⟨_, hreplace
      { buffer := { host.buffer with fileBytes := 0 }
        disk := ⟨none, none⟩ } ?_, ?_, ?_⟩
    · rw [replaceFile, if_neg (not_not.mpr hempty)]
      rfl
    · rw [hempty]
      rfl
    · rw [hempty, ← hn]
      rfl
  · refine ⟨_, hreplace
      { buffer := { host.buffer with fileBytes := rest.length }
        disk := ((host.setTemporary (some [])).extendTemporary rest).persistTemporary.disk } ?_,
      contents_compacted rest host, ?_⟩
    · rw [replaceFile, if_pos hempty]
      rfl
    · rw [← hn]

/-- The entries behind an acknowledged one, when the greatest one is among them. -/
theorem lastSequence_filter {n : Nat} (hne : es ≠ []) (hlast : n < lastSequence 0 es) :
    es.filter (n < ·.sequence) ≠ [] ∧
      lastSequence 0 (es.filter (n < ·.sequence)) = lastSequence 0 es := by
  rw [← List.dropLast_append_getLast hne, lastSequence_concat] at hlast
  have hkept : [es.getLast hne].filter (n < ·.sequence) = [es.getLast hne] := by
    simp [hlast]
  rw [← List.dropLast_append_getLast hne, List.filter_append, hkept]
  refine ⟨by simp, ?_⟩
  rw [lastSequence_concat, lastSequence_concat]

theorem length_records_filter_le (p : BufferedLogEntry → Bool) (es : List BufferedLogEntry) :
    (records format (es.filter p)).length ≤ (records format es).length := by
  induction es with
  | nil => exact Nat.le_refl _
  | cons e es ih =>
      rw [List.filter_cons]
      split
      · simp only [records_cons, List.length_append]
        omega
      · simp only [records_cons, List.length_append]
        omega

/-- The state behind a compaction for the acknowledged sequence `n`. -/
theorem Steady.compacted (h : Steady format host es) {n : Nat} (hne : es ≠ [])
    (hle : n ≤ host.buffer.lastAppendedSequence) {t : Host}
    (hcontents : t.contents = records format (es.filter (n < ·.sequence)))
    (hfileBytes : t.buffer.fileBytes = (records format (es.filter (n < ·.sequence))).length)
    (hmax : t.buffer.maxBytes = host.buffer.maxBytes)
    (hlast : t.buffer.lastAppendedSequence = host.buffer.lastAppendedSequence)
    (hacknowledged : t.buffer.acknowledgedSequence = n) :
    Steady format t (es.filter (n < ·.sequence)) := by
  have hsome : es.filter (n < ·.sequence) ≠ [] → n < host.buffer.lastAppendedSequence := by
    intro hfilter
    obtain ⟨e, he⟩ := List.exists_mem_of_ne_nil _ hfilter
    obtain ⟨hmem, hlt⟩ := List.mem_filter.mp he
    exact Nat.lt_of_lt_of_le (of_decide_eq_true hlt) (h.le_last e hmem)
  refine ⟨hcontents, hfileBytes, ?_, fun e he => ?_, ?_, fun hfilter => ?_, fun hfilter => ?_,
    fun hfilter => ?_⟩
  · rw [hfileBytes, hmax]
    have hfewer := @length_records_filter_le format (n < ·.sequence) es
    have hbytes := h.fileBytes_le
    rw [h.fileBytes_eq] at hbytes
    exact Nat.le_trans hfewer hbytes
  · rw [hlast]
    exact h.le_last e (List.mem_filter.mp he).1
  · rw [hlast]
    exact h.last_le
  · have hlt := hsome hfilter
    rw [h.last_eq hne] at hlt
    rw [hlast, h.last_eq hne, (lastSequence_filter hne hlt).2]
  · rw [hlast, hacknowledged]
    exact hsome hfilter
  · rw [hlast, hacknowledged]
    by_contra hnot
    have hlt : n < lastSequence 0 es := by
      rw [← h.last_eq hne]
      omega
    exact (lastSequence_filter hne hlt).1 hfilter

/-- The state behind an acknowledgement of less than everything without a compaction. -/
theorem Steady.acknowledged (h : Steady format host es) {n : Nat} (hne : es ≠ [])
    (hlt : n < host.buffer.lastAppendedSequence) {t : Host}
    (hcontents : t.contents = host.contents)
    (hbuffer : t.buffer =
      { host.buffer with
        acknowledgedSequence := n
        full := false }) : Steady format t es := by
  refine ⟨hcontents.trans h.contents_eq, ?_, ?_, ?_, ?_, ?_, ?_, ?_⟩
  all_goals rw [hbuffer]
  · exact h.fileBytes_eq
  · exact h.fileBytes_le
  · exact h.le_last
  · exact h.last_le
  · exact h.last_eq
  · exact fun _ => hlt
  · exact fun hnil => absurd hnil hne

theorem acknowledge_stale {n : Nat} (hn : n ≤ host.buffer.acknowledgedSequence)
    (hle : n ≤ host.buffer.lastAppendedSequence) :
    acknowledge format n ⟨host, []⟩ = (.ok (), ⟨host, []⟩) := by
  refine (Effect.bind_apply_ok (returns_get host)).trans ?_
  rw [if_neg (Nat.not_lt.mpr hle), if_pos hn]
  rfl

theorem acknowledge_rejected {n : Nat} (hn : host.buffer.lastAppendedSequence < n) :
    acknowledge format n ⟨host, []⟩
      = (.error (.failed .invalidAcknowledgement), ⟨host, []⟩) := by
  refine (Effect.bind_apply_ok (returns_get host)).trans ?_
  rw [if_pos hn]
  rfl

/-- A new acknowledgement is accepted, and the entries behind it stay. -/
theorem Steady.returns_acknowledge (h : Steady format host es) {n : Nat}
    (hle : n ≤ host.buffer.lastAppendedSequence)
    (hlt : host.buffer.acknowledgedSequence < n) :
    ∃ t fs, Returns (acknowledge format n) host () t ∧ Steady format t fs ∧
      fs.filter (n < ·.sequence) = es.filter (n < ·.sequence) ∧
      t.buffer.acknowledgedSequence = n ∧
      t.buffer.lastAppendedSequence = host.buffer.lastAppendedSequence ∧
      t.buffer.maxBytes = host.buffer.maxBytes ∧ t.buffer.full = false := by
  have hne : es ≠ [] := by
    intro hnil
    have := h.acknowledged_eq hnil
    omega
  have hlength : host.contents.length ≠ 0 := by
    rw [h.contents_eq]
    exact fun hzero => hne ((length_records_eq_zero format).mp hzero)
  have hchecks : ∀ t : Host, Returns (advanceAcknowledged format n) host () t →
      Returns (acknowledge format n) host ()
        { t with
          buffer := { t.buffer with full := false } } := by
    intro t ht
    refine (returns_get host).bind ?_
    rw [if_neg (Nat.not_lt.mpr hle), if_neg (Nat.not_le.mpr hlt)]
    refine (returns_fileLen host).bind ?_
    rw [if_neg hlength, if_neg (not_not.mpr h.length_contents)]
    exact ht.bind rfl
  by_cases hthreshold : sequenceThresholdReached host.buffer n
  · have hcontents : Host.contents
        { host with
          buffer := { host.buffer with acknowledgedSequence := n } } = records format es :=
      h.contents_eq
    obtain ⟨t, ht, hkept, hbuffer⟩ := returns_compact hcontents
    refine ⟨_, es.filter (n < ·.sequence), hchecks t ?_,
      h.compacted hne hle hkept ?_ ?_ ?_ ?_,
      AcknowledgedQueue.filter_filter_of_le (Nat.le_refl n) es, ?_, ?_, ?_, rfl⟩
    · refine (returns_get host).bind ?_
      rw [if_pos hthreshold]
      exact (returns_modify _ host).bind ht.recover
    all_goals rw [hbuffer]
  · have hbelow : n < host.buffer.lastAppendedSequence := by
      by_contra hnot
      apply hthreshold
      left
      omega
    refine ⟨_, es, hchecks
      { host with
        buffer := { host.buffer with acknowledgedSequence := n } } ?_,
      h.acknowledged hne hbelow rfl rfl, rfl, rfl, rfl, rfl, rfl⟩
    refine (returns_get host).bind ?_
    rw [if_neg hthreshold]
    rfl

theorem Steady.acknowledged_le (h : Steady format host es) :
    host.buffer.acknowledgedSequence ≤ host.buffer.lastAppendedSequence := by
  cases es with
  | nil => exact Nat.le_of_eq (h.acknowledged_eq rfl)
  | cons e es => exact Nat.le_of_lt (h.acknowledged_lt (List.cons_ne_nil e es))

theorem Steady.last_le_of_follows (h : Steady format host es) {entry : BufferedLogEntry}
    (hfollows : follows host.buffer.lastAppendedSequence entry) :
    host.buffer.lastAppendedSequence ≤ entry.sequence := by
  rcases Nat.eq_zero_or_pos host.buffer.lastAppendedSequence with hzero | hpos
  · omega
  · have hle := h.last_le
    rw [hfollows.2 hpos, saturatingAdd]
    omega

theorem Steady.acknowledged_lt_of_follows (h : Steady format host es) {entry : BufferedLogEntry}
    (hfollows : follows host.buffer.lastAppendedSequence entry)
    (hend : ¬ (entry.sequence = u64Max ∧ host.buffer.acknowledgedSequence = u64Max)) :
    host.buffer.acknowledgedSequence < entry.sequence := by
  have hacknowledged := h.acknowledged_le
  have hlast := h.last_le
  have hentry := entry.sequence_le
  have hnonzero := hfollows.1
  rcases Nat.eq_zero_or_pos host.buffer.lastAppendedSequence with hzero | hpos
  · omega
  · have heq := hfollows.2 hpos
    rw [saturatingAdd] at heq
    omega

/-- A record that is written comes behind the others. -/
theorem Steady.written (h : Steady format host es) {entry : BufferedLogEntry}
    (haccepts : Accepts format host entry)
    (hend : ¬ (entry.sequence = u64Max ∧ host.buffer.acknowledgedSequence = u64Max)) :
    Steady format (written format entry host) (es ++ [entry]) := by
  have hlast := h.last_le_of_follows haccepts.2.1
  refine ⟨?_, ?_, haccepts.2.2, fun e he => ?_, entry.sequence_le, fun _ => ?_, fun _ => ?_,
    fun hnil => absurd hnil (by simp)⟩
  · rw [contents_written, h.contents_eq, records_append, records_cons, records_nil,
      List.append_nil]
  · show host.buffer.fileBytes + ((toVec format entry).length + 1) = _
    rw [h.fileBytes_eq, records_append, records_cons, records_nil, List.append_nil,
      List.length_append, length_record]
  · rcases List.mem_append.mp he with he | he
    · exact Nat.le_trans (h.le_last e he) hlast
    · rw [List.mem_singleton.mp he]
      exact Nat.le_refl _
  · rw [lastSequence_concat]
    rfl
  · exact h.acknowledged_lt_of_follows haccepts.2.1 hend

theorem Steady.setFull (h : Steady format host es) (full : Bool) :
    Steady format
      { host with
        buffer := { host.buffer with full } } es :=
  ⟨h.contents_eq, h.fileBytes_eq, h.fileBytes_le, h.le_last, h.last_le, h.last_eq,
    h.acknowledged_lt, h.acknowledged_eq⟩

/-! Runs -/

/-- The simulation between the buffer and the queue. -/
def Simulates (format : EntryFormat) (session : Session) : Prop :=
  ∃ es, Steady format session.host es ∧
    es.filter (session.host.buffer.acknowledgedSequence < ·.sequence) = session.queue.entries ∧
    session.host.buffer.acknowledgedSequence = session.queue.acknowledged ∧
    session.host.buffer.lastAppendedSequence = session.queue.last ∧
    ((∀ e ∈ session.offered, Fits format session.host e) →
      session.host.buffer.full = true → es ≠ [])

theorem simulates_append {session : Session} (h : Simulates format session)
    {entry : BufferedLogEntry} (hallowed : BelowAcknowledgedEnd session (.append entry)) :
    Simulates format (session.after format (.append entry)) := by
  obtain ⟨es, hsteady, hentries, hacknowledged, hlast, hfull⟩ := h
  rw [Session.after]
  by_cases haccepts : Accepts format session.host entry
  · rw [returns_append hsteady.length_contents haccepts]
    have hlt := hsteady.acknowledged_lt_of_follows haccepts.2.1 hallowed
    refine ⟨es ++ [entry], hsteady.written haccepts hallowed, ?_, hacknowledged, rfl,
      fun _ _ => by simp⟩
    show (es ++ [entry]).filter (session.host.buffer.acknowledgedSequence < ·.sequence)
      = session.queue.entries ++ [entry]
    have hkept : [entry].filter (session.host.buffer.acknowledgedSequence < ·.sequence)
        = [entry] := by
      simp [hlt]
    rw [List.filter_append, hentries, hkept]
  · obtain ⟨result, full, heq, hresult, hmark⟩ :=
      append_of_not_accepts hsteady.length_contents haccepts
    rw [heq]
    have hsame : Simulates format
        ⟨{ session.host with buffer := { session.host.buffer with full } }, session.queue,
          session.offered ++ [entry]⟩ := by
      refine ⟨es, hsteady.setFull full, hentries, hacknowledged, hlast, fun hfits hf => ?_⟩
      rcases hmark hf with hf | hroom
      · exact hfull (fun e he => hfits e (List.mem_append_left _ he)) hf
      · rintro rfl
        have hfit := hfits entry (by simp)
        have hzero := hsteady.fileBytes_eq
        rw [Fits, length_record] at hfit
        rw [records_nil, List.length_nil] at hzero
        rw [hzero] at hroom
        have hfit : (toVec format entry).length + 1 ≤ session.host.buffer.maxBytes := hfit
        omega
    cases result with
    | error e => exact hsame
    | ok b =>
        rw [hresult b rfl]
        exact hsame

theorem simulates_acknowledge {session : Session} (h : Simulates format session) (n : Nat) :
    Simulates format (session.after format (.acknowledge n)) := by
  obtain ⟨es, hsteady, hentries, hacknowledged, hlast, hfull⟩ := h
  rw [Session.after]
  by_cases hle : n ≤ session.host.buffer.lastAppendedSequence
  · by_cases hlt : session.host.buffer.acknowledgedSequence < n
    · obtain ⟨t, fs, ht, hfs, hfilter, hn, hlast', hmax, hfull'⟩ :=
        hsteady.returns_acknowledge hle hlt
      rw [ht]
      refine ⟨fs, hfs, ?_, ?_, hlast'.trans hlast, fun _ hf => ?_⟩
      · show fs.filter (t.buffer.acknowledgedSequence < ·.sequence)
          = session.queue.entries.filter (n < ·.sequence)
        rw [hn, hfilter, ← hentries,
          AcknowledgedQueue.filter_filter_of_le (Nat.le_of_lt hlt)]
      · show t.buffer.acknowledgedSequence = max session.queue.acknowledged n
        rw [hn, ← hacknowledged, Nat.max_eq_right (Nat.le_of_lt hlt)]
      · have hf : t.buffer.full = true := hf
        rw [hfull'] at hf
        exact absurd hf Bool.false_ne_true
    · rw [acknowledge_stale (Nat.not_lt.mp hlt) hle]
      have hqueue : session.queue.acknowledge BufferedLogEntry.sequence n = session.queue := by
        apply AcknowledgedQueue.acknowledge_of_le
        · rw [← hacknowledged]
          exact Nat.not_lt.mp hlt
        · intro e he
          rw [← hentries] at he
          rw [← hacknowledged]
          exact of_decide_eq_true (List.mem_filter.mp he).2
      simp only [hqueue]
      exact ⟨es, hsteady, hentries, hacknowledged, hlast, hfull⟩
  · rw [acknowledge_rejected (Nat.lt_of_not_le hle)]
    exact ⟨es, hsteady, hentries, hacknowledged, hlast, hfull⟩

theorem simulates_after {session : Session} (h : Simulates format session) {call : QueueCall}
    (hallowed : BelowAcknowledgedEnd session call) :
    Simulates format (session.after format call) := by
  cases call with
  | append entry => exact simulates_append h hallowed
  | acknowledge n => exact simulates_acknowledge h n

/-- The state of a fresh buffer. -/
def freshHost (maxBytes : Nat) : Host :=
  ⟨⟨maxBytes, 0, 0, 0, 0, 0, false⟩, ⟨none, none⟩⟩

theorem returns_new_fresh {maxBytes : Nat} (hmax : 0 < maxBytes) :
    Returns (new format ⟨true, false, false⟩ maxBytes) ⟨unopened, ⟨none, none⟩⟩ ()
      (freshHost maxBytes) := by
  have hpositive : ¬ (maxBytes = 0 ∨ false = true) := by
    rintro (h | h)
    · omega
    · exact Bool.false_ne_true h
  rw [new, if_neg Bool.noConfusion, if_neg hpositive]
  rfl

theorem simulates_of_reachable {session : Session}
    (h : (sessions format BelowAcknowledgedEnd).Reachable session) : Simulates format session := by
  refine h.invariant ?_ ?_
  · rintro ⟨host, queue, offered⟩ ⟨maxBytes, hmax, hnew, hqueue, -⟩
    have hhost : host = freshHost maxBytes := by
      have heq := hnew.symm.trans (returns_new_fresh hmax)
      exact congrArg Faulty.state (congrArg Prod.snd heq)
    subst hhost
    obtain rfl : queue = .empty := hqueue
    refine ⟨[], ⟨rfl, rfl, Nat.zero_le _, ?_, Nat.zero_le _, ?_, ?_, fun _ => rfl⟩, rfl, rfl, rfl,
      fun _ hf => absurd hf Bool.false_ne_true⟩
    · exact fun e he => absurd he List.not_mem_nil
    · exact fun hne => absurd rfl hne
    · exact fun hne => absurd rfl hne
  · rintro s _ - hs ⟨call, hallowed, rfl⟩
    exact simulates_after hs hallowed

theorem Simulates.represents {session : Session} (h : Simulates format session) :
    Represents format session.host session.queue := by
  obtain ⟨es, hsteady, hentries, hacknowledged, hlast, -⟩ := h
  exact ⟨es, pendingEntries_records format hsteady.contents_eq, hentries, hacknowledged, hlast⟩

/-- No call takes a counter back. -/
theorem Simulates.counters_le {session : Session} (h : Simulates format session)
    (call : QueueCall) :
    session.host.buffer.acknowledgedSequence
        ≤ (session.after format call).host.buffer.acknowledgedSequence ∧
      session.host.buffer.lastAppendedSequence
        ≤ (session.after format call).host.buffer.lastAppendedSequence := by
  obtain ⟨es, hsteady, -⟩ := h
  cases call with
  | append entry =>
      rw [Session.after]
      by_cases haccepts : Accepts format session.host entry
      · rw [returns_append hsteady.length_contents haccepts]
        exact ⟨Nat.le_refl _, hsteady.last_le_of_follows haccepts.2.1⟩
      · obtain ⟨result, full, heq, hresult, -⟩ :=
          append_of_not_accepts hsteady.length_contents haccepts
        rw [heq]
        cases result with
        | error e => exact ⟨Nat.le_refl _, Nat.le_refl _⟩
        | ok b =>
            rw [hresult b rfl]
            exact ⟨Nat.le_refl _, Nat.le_refl _⟩
  | acknowledge n =>
      rw [Session.after]
      by_cases hle : n ≤ session.host.buffer.lastAppendedSequence
      · by_cases hlt : session.host.buffer.acknowledgedSequence < n
        · obtain ⟨t, fs, ht, -, -, hn, hlast, -⟩ := hsteady.returns_acknowledge hle hlt
          rw [ht]
          refine ⟨?_, Nat.le_of_eq hlast.symm⟩
          rw [hn]
          exact Nat.le_of_lt hlt
        · rw [acknowledge_stale (Nat.not_lt.mp hlt) hle]
          exact ⟨Nat.le_refl _, Nat.le_refl _⟩
      · rw [acknowledge_rejected (Nat.lt_of_not_le hle)]
        exact ⟨Nat.le_refl _, Nat.le_refl _⟩

/-- When everything is acknowledged, the next entry goes into the file. -/
theorem Simulates.accepts_next {session : Session} (h : Simulates format session)
    (hoffered : ∀ e ∈ session.offered, Fits format session.host e)
    (hempty : session.queue.entries = []) {entry : BufferedLogEntry}
    (hfits : Fits format session.host entry)
    (hnext : entry.sequence = session.queue.last + 1) : Accepts format session.host entry := by
  obtain ⟨es, hsteady, hentries, -, hlast, hfull⟩ := h
  have hnil : es = [] := by
    by_contra hne
    have hlt := hsteady.acknowledged_lt hne
    rw [hsteady.last_eq hne] at hlt
    exact (lastSequence_filter hne hlt).1 (hentries.trans hempty)
  refine ⟨?_, ?_, ?_⟩
  · by_contra hf
    exact hfull hoffered (Bool.eq_true_of_not_eq_false hf) hnil
  · apply follows_of_eq_succ
    rw [hlast, hnext]
  · rw [hsteady.fileBytes_eq, hnil, records_nil, List.length_nil, Nat.zero_add, ← length_record]
    exact hfits

/-- What the buffer promises in a state of a run. -/
structure RefinesQueue (format : EntryFormat) (session : Session) : Prop where
  represents : Represents format session.host session.queue
  fileBytes_eq : session.host.buffer.fileBytes = session.host.contents.length
  contents_le : session.host.contents.length ≤ session.host.buffer.maxBytes
  counters_le : ∀ call,
    session.host.buffer.acknowledgedSequence
        ≤ (session.after format call).host.buffer.acknowledgedSequence ∧
      session.host.buffer.lastAppendedSequence
        ≤ (session.after format call).host.buffer.lastAppendedSequence
  accepts_next : (∀ e ∈ session.offered, Fits format session.host e) →
    session.queue.entries = [] → ∀ entry, Fits format session.host entry →
      entry.sequence = session.queue.last + 1 →
      ∃ t, Returns (append format entry) session.host true t

/-- In every run of a fresh buffer the queue that the calls build is the one that the buffer
holds. -/
theorem session_refinesQueue (format : EntryFormat) (session : Session)
    (h : (sessions format BelowAcknowledgedEnd).Reachable session) :
    RefinesQueue format session := by
  have hsimulates := simulates_of_reachable h
  have hsteady := hsimulates
  obtain ⟨es, hsteady, -⟩ := hsteady
  constructor
  · exact hsimulates.represents
  · exact hsteady.length_contents.symm
  · rw [hsteady.length_contents]
    exact hsteady.fileBytes_le
  · exact hsimulates.counters_le
  · intro hoffered hempty entry hfits hnext
    exact ⟨_, returns_append hsteady.length_contents
      (hsimulates.accepts_next hoffered hempty hfits hnext)⟩

/-- A fresh buffer of 1024 bytes. -/
def freshSession : Session :=
  ⟨freshHost 1024, .empty, []⟩

theorem freshSession_init (allowed : Session → QueueCall → Prop) :
    (sessions ndjson allowed).init freshSession :=
  ⟨1024, by decide, rfl, rfl, rfl⟩

theorem session_refinesQueue_first :
    RefinesQueue ndjson (freshSession.after ndjson (.append firstEntry)) := by
  apply session_refinesQueue
  refine .step (.init (freshSession_init _)) ⟨.append firstEntry, ?_, rfl⟩
  exact fun h => absurd h.1 (by decide)

/-- The greatest sequence is appended, acknowledged and appended again. -/
def againAtEnd : Session :=
  ((freshSession.after ndjson (.append entryAtEnd)).after ndjson (.acknowledge u64Max)).after
    ndjson (.append entryAtEnd)

theorem againAtEnd_not_represents :
    (sessions ndjson fun _ _ => True).Reachable againAtEnd ∧
      ¬ Represents ndjson againAtEnd.host againAtEnd.queue := by
  refine ⟨.step (.step (.step (.init (freshSession_init _)) ⟨_, trivial, rfl⟩) ⟨_, trivial, rfl⟩)
    ⟨_, trivial, rfl⟩, ?_⟩
  rintro ⟨es, hes, hentries, -⟩
  have hcontents : againAtEnd.host.disk.contents = records ndjson [entryAtEnd] := by
    decide +kernel
  obtain rfl := Except.ok.inj (hes.symm.trans (pendingEntries_records ndjson hcontents))
  have hqueue : [entryAtEnd].filter (againAtEnd.host.buffer.acknowledgedSequence < ·.sequence)
      ≠ againAtEnd.queue.entries := by
    decide +kernel
  exact hqueue hentries

end AnvilRun.LogBuffer
