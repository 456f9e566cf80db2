import AnvilRun.Interruption.Invariants
import AnvilRun.LogBuffer.CrashRuns

namespace AnvilRun.LogBuffer

open AnvilRun.Interruptible

/-- A look at the file leaves the last sequence as it is: the file has the recorded length, or its
last record has the sequence in memory. -/
def Settled (format : EntryFormat) (host : Host) : Prop :=
  host.contents.length = host.buffer.fileBytes ∨
    storedSequence format host.disk = host.buffer.lastAppendedSequence

instance (format : EntryFormat) (host : Host) : Decidable (Settled format host) :=
  inferInstanceAs (Decidable (_ ∨ _))

/-- Whether `acknowledge` goes on to the records of the file. -/
def LooksAtFile (sequence : Nat) (host : Host) : Prop :=
  host.buffer.acknowledgedSequence < sequence ∧ sequence ≤ host.buffer.lastAppendedSequence ∧
    host.contents.length ≠ 0

/-- The next entry follows the last one, and there are sequences left for `k` entries. -/
structure Counting (k : Nat) (logs : Appender) : Prop where
  numbered : logs.host.buffer.lastAppendedSequence + 1 = logs.nextSequence
  room : logs.nextSequence + k ≤ u64Max

variable {format : EntryFormat} {host : Host} {entry : BufferedLogEntry} {logs : Appender}
  {k : Nat}

theorem Counting.weaken {j : Nat} (h : Counting k logs) (hj : j ≤ k) : Counting j logs :=
  ⟨h.numbered, Nat.le_trans (Nat.add_le_add_left hj _) h.room⟩

/-! The length of the file -/

theorem flatten_splitFrom (bytes line : List UInt8) :
    (splitFrom line bytes).flatten = line ++ bytes := by
  induction bytes generalizing line with
  | nil => cases line <;> simp [splitFrom]
  | cons b bytes ih =>
      rw [splitFrom]
      split
      · simp [ih]
      · simp [ih]

theorem recoverLines_le (format : EntryFormat) (lines : List (List UInt8))
    (validBytes last : Nat) :
    (recoverLines format lines validBytes last).1 ≤ validBytes + lines.flatten.length := by
  induction lines generalizing validBytes last with
  | nil => exact Nat.le_refl _
  | cons line lines ih =>
      rw [recoverLines]
      split
      · exact Nat.le_add_right _ _
      · split
        · exact Nat.le_add_right _ _
        · split
          · refine Nat.le_trans (ih _ _) ?_
            rw [List.flatten_cons, List.length_append, Nat.add_assoc]
          · exact Nat.le_add_right _ _

theorem recovered_le (format : EntryFormat) (host : Host) :
    (recoverLines format (readLines host.contents) 0 0).1 ≤ host.contents.length := by
  have h := recoverLines_le format (readLines host.contents) 0 0
  rwa [readLines, flatten_splitFrom, List.nil_append, Nat.zero_add] at h

/-- Recovery finds the last sequence of the file. -/
theorem ends_recoverFile_stored (format : EntryFormat) (host : Host) :
    Ends (recoverFile format)
      (fun recovered t => recovered.2 = storedSequence format host.disk ∧
        t.contents.length = recovered.1 ∧ t.buffer = host.buffer)
      (fun e t => e = .io ∧ t.buffer = host.buffer) (fun _ => True) host := by
  have hle := recovered_le format host
  apply ends_bind
  apply ends_bind
  refine ends_inspect ?_ ⟨rfl, rfl⟩ trivial
  apply ends_bind
  apply ends_get
  apply ends_pure
  split
  · rename_i hzero
    refine ends_pure ⟨?_, hzero, rfl⟩
    have hnil : host.disk.contents = [] := List.eq_nil_of_length_eq_zero hzero
    rw [storedSequence, hnil]
    rfl
  · apply ends_bind
    refine ends_inspect ?_ ⟨rfl, rfl⟩ trivial
    apply ends_bind
    apply ends_get
    dsimp only
    split
    · apply ends_bind
      apply ends_bind
      refine ends_inspect ?_ ⟨rfl, rfl⟩ trivial
      apply ends_bind
      refine ends_atomically ?_ ⟨rfl, rfl⟩ trivial trivial
      refine ends_inspect ?_ ⟨rfl, rfl⟩ trivial
      refine ends_pure ⟨rfl, ?_, rfl⟩
      exact (List.length_take).trans (Nat.min_eq_left hle)
    · rename_i hnot
      exact ends_pure ⟨rfl, Nat.le_antisymm (Nat.le_of_not_lt hnot) hle, rfl⟩

/-! Appending -/

theorem ends_writeRecord_last (hlength : host.contents.length = host.buffer.fileBytes) :
    Ends (writeRecord format entry)
      (fun written t => t.contents.length = t.buffer.fileBytes ∧
        t.buffer.lastAppendedSequence =
          if written then entry.sequence else host.buffer.lastAppendedSequence)
      (fun e t => e = .io ∧
        t.buffer.lastAppendedSequence = host.buffer.lastAppendedSequence) (fun _ => True) host := by
  apply ends_bind
  apply ends_get
  dsimp only
  split
  · apply ends_bind
    apply ends_modify
    exact ends_pure ⟨hlength, rfl⟩
  · apply ends_bind
    refine ends_atomically ?_ ⟨rfl, rfl⟩ trivial trivial
    apply ends_bind
    refine ends_write ?_ (fun _ => ⟨rfl, rfl⟩) fun _ => trivial
    apply ends_bind
    refine ends_write ?_ (fun _ => ⟨rfl, rfl⟩) fun _ => trivial
    apply ends_bind
    refine ends_inspect ?_ ⟨rfl, rfl⟩ trivial
    apply ends_bind
    apply ends_modify
    refine ends_pure ⟨?_, rfl⟩
    show ((((host.extend []).extend (toVec format entry)).extend [0x0A]).contents).length =
      host.buffer.fileBytes + ((toVec format entry).length + 1)
    rw [extend_contents, extend_contents, extend_contents, List.append_nil, List.length_append,
      List.length_append, hlength, Nat.add_assoc]
    rfl

theorem follows_succ {last : Nat} (h : entry.sequence = last + 1) : follows last entry := by
  have hle := entry.sequence_le
  refine ⟨by omega, fun _ => ?_⟩
  rw [h, saturatingAdd]
  omega

theorem ends_reconcile_last (hnext : entry.sequence = host.buffer.lastAppendedSequence + 1)
    (hstored : storedSequence format host.disk = host.buffer.lastAppendedSequence) :
    Ends (reconcile format entry)
      (fun _ t => t.contents.length = t.buffer.fileBytes ∧
        t.buffer.lastAppendedSequence = host.buffer.lastAppendedSequence)
      (fun e t => e = .io ∧
        t.buffer.lastAppendedSequence = host.buffer.lastAppendedSequence) (fun _ => True) host := by
  apply ends_bind
  refine (ends_recoverFile_stored format host).imp ?_ ?_ fun _ _ => trivial
  · rintro recovered t ⟨hlast, hlength, -⟩
    rw [hstored] at hlast
    apply ends_bind
    apply ends_modify
    split
    · exact ends_pure ⟨hlength, hlast⟩
    · rename_i hnot
      rw [hlast] at hnot
      exact absurd (follows_succ hnext) hnot
  · rintro e t ⟨rfl, hbuffer⟩
    rw [hbuffer]
    exact ⟨rfl, rfl⟩

/-- The entry that follows the last one is never refused. -/
theorem ends_append_last (hsettled : Settled format host)
    (hnext : entry.sequence = host.buffer.lastAppendedSequence + 1) :
    Ends (append format entry)
      (fun written t => Settled format t ∧ t.buffer.lastAppendedSequence =
        if written then entry.sequence else host.buffer.lastAppendedSequence)
      (fun e t => e = .io ∧
        t.buffer.lastAppendedSequence = host.buffer.lastAppendedSequence) (fun _ => True) host := by
  have hwrite : ∀ t : Host, t.contents.length = t.buffer.fileBytes →
      t.buffer.lastAppendedSequence = host.buffer.lastAppendedSequence →
      Ends (writeRecord format entry)
        (fun written u => Settled format u ∧ u.buffer.lastAppendedSequence =
          if written then entry.sequence else host.buffer.lastAppendedSequence)
        (fun e u => e = .io ∧
          u.buffer.lastAppendedSequence = host.buffer.lastAppendedSequence) (fun _ => True) t := by
    intro t hlength hlast
    rw [← hlast]
    exact (ends_writeRecord_last hlength).imp (fun _ _ hu => ⟨Or.inl hu.1, hu.2⟩)
      (fun _ _ hu => hu) fun _ hu => hu
  apply ends_bind
  apply ends_get
  split
  · exact ends_pure ⟨hsettled, rfl⟩
  · rw [if_pos (follows_succ hnext)]
    apply ends_bind
    refine ends_inspect ?_ ⟨rfl, rfl⟩ trivial
    apply ends_bind
    apply ends_bind
    refine ends_inspect ?_ ⟨rfl, rfl⟩ trivial
    apply ends_bind
    apply ends_get
    apply ends_pure
    split
    · rename_i hlength
      apply ends_bind
      refine (ends_reconcile_last hnext (hsettled.resolve_left hlength)).imp ?_ (fun _ _ ht => ht)
        fun _ ht => ht
      exact fun _ t ht => hwrite t ht.1 ht.2
    · rename_i hlength
      exact hwrite host (not_not.mp hlength) rfl

theorem ends_appendLogAndAdvance_counting (hcounting : Counting (k + 1) logs)
    (hsettled : Settled format logs.host) (hnext : entry.sequence = logs.nextSequence) :
    Ends (appendLogAndAdvance format entry)
      (fun _ t => Counting k t ∧ Settled format t.host)
      (fun e t => e = .io ∧ Counting k t) (fun _ => True) logs := by
  obtain ⟨hnumbered, hroom⟩ := hcounting
  have hsame : ∀ u : Host,
      u.buffer.lastAppendedSequence = logs.host.buffer.lastAppendedSequence →
      Counting k (logs.setHost u) := by
    intro u hlast
    refine ⟨?_, Nat.le_trans (Nat.add_le_add_left (Nat.le_succ k) _) hroom⟩
    show u.buffer.lastAppendedSequence + 1 = logs.nextSequence
    rw [hlast, hnumbered]
  apply ends_bind
  apply ends_get
  rw [if_neg (not_not.mpr hnext)]
  apply ends_bind
  refine ends_zoom ((ends_append_last hsettled (hnext.trans hnumbered.symm)).imp ?_ ?_ ?_)
  · rintro (_ | _) u ⟨hu, hlast⟩
    · exact ends_bind (ends_pure (ends_pure ⟨hsame u hlast, hu⟩))
    · refine ends_bind (ends_modify (ends_pure ⟨⟨?_, ?_⟩, hu⟩))
      · show u.buffer.lastAppendedSequence + 1 = saturatingAdd logs.nextSequence 1
        rw [hlast, if_pos rfl, hnext, saturatingAdd, Nat.min_eq_left (by omega)]
      · show saturatingAdd logs.nextSequence 1 + k ≤ u64Max
        rw [saturatingAdd, Nat.min_eq_left (by omega)]
        omega
  · exact fun e u hu => ⟨hu.1, hsame u hu.2⟩
  · exact fun _ hu => hu

/-! Acknowledging -/

def HasLast (last : Nat) (host : Host) : Prop :=
  host.buffer.lastAppendedSequence = last

theorem stays_replaceFile {last : Nat} (h : HasLast last host) (retained : List UInt8) :
    Stays (HasLast last) (replaceFile retained) host := by
  rw [replaceFile]
  split
  · refine Stays.bind (stays_inspect h) fun _ t ht => ?_
    refine Stays.bind (stays_atomically ht ht) fun _ u hu => ?_
    exact stays_modify hu
  · refine Stays.bind (stays_atomically h h) fun _ t ht => ?_
    refine Stays.bind (stays_atomically ht ht) fun _ u hu => ?_
    exact stays_modify hu

theorem stays_compact {last : Nat} (h : HasLast last host) :
    Stays (HasLast last) (compact format) host := by
  refine Stays.bind (stays_inspect h) fun _ t ht => stays_get_bind ?_
  refine Stays.bind (stays_atomically ht ht) fun _ u hu => ?_
  split
  · exact stays_fail hu
  · rename_i retained hretained
    refine Stays.bind (stays_write fun _ => hu) fun _ v hv => ?_
    refine Stays.bind (stays_inspect hv) fun _ w hw => ?_
    exact Stays.bind (stays_replaceFile hw retained) fun _ x hx => stays_modify hx

theorem stays_acceptAcknowledgement {last : Nat} (h : HasLast last host) (sequence : Nat) :
    Stays (HasLast last) (acceptAcknowledgement format sequence) host := by
  refine Stays.bind (stays_get_bind ?_) fun _ t ht => stays_modify ht
  split
  · refine stays_modify_bind (Stays.recover (stays_compact h) fun e t ht => ?_)
    exact stays_modify_bind (stays_fail ht)
  · exact stays_modify h

/-- An acknowledgement leaves the last sequence as it is. -/
theorem ends_acknowledge_last {sequence : Nat}
    (hsettled : LooksAtFile sequence host → Settled format host) :
    Ends (acknowledge format sequence)
      (fun _ => HasLast host.buffer.lastAppendedSequence)
      (fun _ => HasLast host.buffer.lastAppendedSequence) (fun _ => True) host := by
  have haccept : ∀ t, HasLast host.buffer.lastAppendedSequence t →
      Ends (acceptAcknowledgement format sequence)
        (fun _ => HasLast host.buffer.lastAppendedSequence)
        (fun _ => HasLast host.buffer.lastAppendedSequence) (fun _ => True) t :=
    fun t ht => (stays_acceptAcknowledgement ht sequence).imp (fun _ _ hu => hu)
      (fun _ _ hu => hu) fun _ _ => trivial
  apply ends_bind
  apply ends_get
  split
  · exact ends_fail rfl
  · rename_i hlast
    split
    · exact ends_pure rfl
    · rename_i hnew
      apply ends_bind
      apply ends_bind
      refine ends_inspect ?_ rfl trivial
      apply ends_bind
      apply ends_get
      apply ends_pure
      split
      · exact ends_modify rfl
      · rename_i hfile
        split
        · rename_i hlength
          have hsettled := hsettled ⟨Nat.lt_of_not_le hnew, Nat.le_of_not_lt hlast, hfile⟩
          apply ends_bind
          apply ends_bind
          refine (ends_recoverFile_stored format host).imp ?_ ?_ fun _ _ => trivial
          · rintro recovered t ⟨hlast, -, -⟩
            apply ends_modify
            exact haccept _ (hlast.trans (hsettled.resolve_left hlength))
          · exact fun e t ht => congrArg lastAppendedSequence ht.2
        · exact haccept host rfl

/-! Opening -/

theorem ends_new_last (format : EntryFormat) (host : Host) (path : PathChecks) (maxBytes : Nat) :
    Ends (new format path maxBytes)
      (fun _ t => t.buffer.lastAppendedSequence = storedSequence format host.disk)
      (fun _ _ => True) (fun _ => True) host := by
  rw [new]
  split
  · exact ends_fail trivial
  · split
    · exact ends_fail trivial
    · apply ends_bind
      refine ends_inspect ?_ trivial trivial
      split
      · exact ends_fail trivial
      · apply ends_bind
        refine ends_inspect ?_ trivial trivial
        apply ends_bind
        refine (ends_recoverFile_stored format host).imp ?_ (fun _ _ _ => trivial)
          fun _ _ => trivial
        exact fun recovered t ht => ends_modify ht.1

end AnvilRun.LogBuffer
