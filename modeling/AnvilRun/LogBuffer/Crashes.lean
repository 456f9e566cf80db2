import AnvilRun.LogBuffer.Records

namespace AnvilRun.LogBuffer

open AnvilRun.Interruptible

variable {format : EntryFormat} {host : Host} {es : List BufferedLogEntry}

/-- The file holds the run, and behind it at most a torn record. -/
def Stored (format : EntryFormat) (disk : Disk) (es : List BufferedLogEntry) : Prop :=
  Contiguous es ∧ ∃ tail, (0x0A : UInt8) ∉ tail ∧ disk.contents = records format es ++ tail

/-- The counters in memory are those of a part of the run from its start on. -/
def Tracks (format : EntryFormat) (buffer : LogBuffer) (es : List BufferedLogEntry) : Prop :=
  ∃ ds fs, es = ds ++ fs ∧ buffer.fileBytes = (records format ds).length ∧
    (ds ≠ [] → buffer.lastAppendedSequence = lastSequence 0 ds)

def InStep (format : EntryFormat) (host : Host) (es : List BufferedLogEntry) : Prop :=
  Stored format host.disk es ∧ Tracks format host.buffer es

/-- The file holds the run and nothing else, and the counters are those of the whole run. -/
structure Aligned (format : EntryFormat) (host : Host) (es : List BufferedLogEntry) : Prop where
  contiguous : Contiguous es
  contents_eq : host.contents = records format es
  fileBytes_eq : host.buffer.fileBytes = (records format es).length
  last_eq : es ≠ [] → host.buffer.lastAppendedSequence = lastSequence 0 es

theorem stored_of_contents {disk : Disk} (hes : Contiguous es)
    (h : disk.contents = records format es) : Stored format disk es :=
  ⟨hes, [], List.not_mem_nil, by rw [h, List.append_nil]⟩

theorem Aligned.stored (h : Aligned format host es) : Stored format host.disk es :=
  stored_of_contents h.contiguous h.contents_eq

theorem Aligned.tracks (h : Aligned format host es) : Tracks format host.buffer es :=
  ⟨es, [], (List.append_nil es).symm, h.fileBytes_eq, h.last_eq⟩

theorem Aligned.inStep (h : Aligned format host es) : InStep format host es :=
  ⟨h.stored, h.tracks⟩

theorem Tracks.append {buffer : LogBuffer} (h : Tracks format buffer es)
    (gs : List BufferedLogEntry) : Tracks format buffer (es ++ gs) := by
  obtain ⟨ds, fs, rfl, hbytes, hlast⟩ := h
  exact ⟨ds, fs ++ gs, List.append_assoc ds fs gs, hbytes, hlast⟩

/-- A file of the recorded length is the one that the counters are about. -/
theorem Tracks.eq_of_length (h : Tracks format host.buffer es) {tail : List UInt8}
    (hcontents : host.contents = records format es ++ tail)
    (hlength : host.contents.length = host.buffer.fileBytes) :
    tail = [] ∧ host.buffer.fileBytes = (records format es).length ∧
      (es ≠ [] → host.buffer.lastAppendedSequence = lastSequence 0 es) := by
  obtain ⟨ds, fs, rfl, hbytes, hlast⟩ := h
  rw [hcontents, hbytes, records_append, List.length_append, List.length_append] at hlength
  have hfs : fs = [] := by
    apply (length_records_eq_zero format).mp
    omega
  have htail : tail = [] := by
    apply List.eq_nil_of_length_eq_zero
    omega
  subst hfs htail
  rw [List.append_nil]
  exact ⟨rfl, hbytes, hlast⟩

theorem InStep.aligned (h : InStep format host es)
    (hlength : host.contents.length = host.buffer.fileBytes) : Aligned format host es := by
  obtain ⟨⟨hes, tail, -, hcontents⟩, htracks⟩ := h
  obtain ⟨rfl, hbytes, hlast⟩ := htracks.eq_of_length hcontents hlength
  exact ⟨hes, by rw [← List.append_nil (records format es)]; exact hcontents, hbytes, hlast⟩

/-! Recovery -/

theorem ends_fileLen :
    Ends fileLen (fun length t => length = host.contents.length ∧ t = host)
      (fun _ t => t = host) (fun t => t = host) host := by
  apply ends_bind
  apply ends_inspect
  · apply ends_bind
    apply ends_get
    exact ends_pure ⟨rfl, rfl⟩
  · rfl
  · rfl

/-- Recovery finds the run, and nothing is left of a torn record. -/
theorem ends_recoverFile (h : Stored format host.disk es) :
    Ends (recoverFile format)
      (fun recovered t => recovered = ((records format es).length, lastSequence 0 es) ∧
        t.contents = records format es ∧ t.buffer = host.buffer)
      (fun _ t => Stored format t.disk es ∧ t.buffer = host.buffer)
      (fun t => Stored format t.disk es) host := by
  obtain ⟨hes, tail, htail, hcontents⟩ := h
  have hstored : Stored format host.disk es := ⟨hes, tail, htail, hcontents⟩
  have hcontents : host.contents = records format es ++ tail := hcontents
  have hrecovered := recoverLines_eq format hes.chained htail
  rw [← hcontents] at hrecovered
  apply ends_bind
  refine ends_fileLen.imp ?_ ?_ ?_
  · rintro length t ⟨rfl, rfl⟩
    by_cases hzero : t.contents.length = 0
    · rw [if_pos hzero]
      rw [hcontents, List.length_append] at hzero
      have hnil : es = [] := (length_records_eq_zero format).mp (by omega)
      have htail : tail = [] := List.eq_nil_of_length_eq_zero (by omega)
      subst hnil htail
      exact ends_pure ⟨rfl, hcontents, rfl⟩
    · rw [if_neg hzero]
      apply ends_bind
      refine ends_inspect ?_ ⟨hstored, rfl⟩ hstored
      apply ends_bind
      apply ends_get
      simp only [hrecovered]
      by_cases hlt : (records format es).length < t.contents.length
      · rw [if_pos hlt]
        have htake : t.contents.take (records format es).length = records format es := by
          rw [hcontents, List.take_left]
        have htruncated : Stored format
            (t.setFile (some (t.contents.take (records format es).length))).disk es := by
          refine stored_of_contents hes ?_
          rw [htake]
          rfl
        apply ends_bind
        apply ends_bind
        refine ends_inspect ?_ ⟨hstored, rfl⟩ hstored
        apply ends_bind
        refine ends_atomically ?_ ⟨hstored, rfl⟩ hstored htruncated
        refine ends_inspect ?_ ⟨htruncated, rfl⟩ htruncated
        exact ends_pure ⟨rfl, htake, rfl⟩
      · rw [if_neg hlt]
        rw [hcontents, List.length_append] at hlt
        have htail : tail = [] := List.eq_nil_of_length_eq_zero (by omega)
        subst htail
        rw [List.append_nil] at hcontents
        exact ends_pure ⟨rfl, hcontents, rfl⟩
  · rintro _ t rfl
    exact ⟨hstored, rfl⟩
  · rintro t rfl
    exact hstored

/-- A buffer that is opened on the file knows the run. -/
theorem ends_new (h : Stored format host.disk es) (path : PathChecks) (maxBytes : Nat) :
    Ends (new format path maxBytes) (fun _ t => Aligned format t es)
      (fun _ t => Stored format t.disk es) (fun t => Stored format t.disk es) host := by
  have hes := h.1
  rw [new]
  split
  · exact ends_fail h
  · split
    · exact ends_fail h
    · apply ends_bind
      refine ends_inspect ?_ h h
      split
      · exact ends_fail h
      · apply ends_bind
        refine ends_inspect ?_ h h
        apply ends_bind
        refine (ends_recoverFile h).imp ?_ (fun _ _ ht => ht.1) (fun _ ht => ht)
        rintro _ t ⟨rfl, hcontents, -⟩
        exact ends_modify ⟨hes, hcontents, rfl, fun _ => rfl⟩

/-! Appending -/

/-- Whether the entry is the next one of the run. -/
def IsNext (es : List BufferedLogEntry) (e : BufferedLogEntry) : Prop :=
  0 < e.sequence ∧ (es ≠ [] → e.sequence = lastSequence 0 es + 1)

theorem isNext_of_follows {e : BufferedLogEntry} {last : Nat} (h : follows last e)
    (hlast : es ≠ [] → last = lastSequence 0 es) (hes : Contiguous es)
    (hmax : ¬ (e.sequence = u64Max ∧ lastSequence 0 es = u64Max)) : IsNext es e := by
  refine ⟨Nat.pos_of_ne_zero h.1, fun hne => ?_⟩
  obtain ⟨d, hd, hdlast⟩ := lastSequence_mem hne 0
  have hpos := hes.2 d hd
  have hle := d.sequence_le
  rw [hlast hne] at h
  have heq := h.2 (by omega)
  rw [saturatingAdd] at heq
  omega

theorem extend_contents (bytes : List UInt8) (host : Host) :
    (host.extend bytes).contents = host.contents ++ bytes := rfl

/-- The record is written behind the run, or a part of it, or nothing. -/
theorem ends_writeRecord (h : Aligned format host es) {e : BufferedLogEntry}
    (hnext : IsNext es e) :
    Ends (writeRecord format e)
      (fun written t => InStep format t (if written then es ++ [e] else es))
      (fun _ t => InStep format t es ∨ InStep format t (es ++ [e]))
      (fun t => Stored format t.disk es ∨ Stored format t.disk (es ++ [e])) host := by
  have hes : Contiguous (es ++ [e]) := h.contiguous.concat hnext.1 hnext.2
  have htorn : ∀ t : Host, t.buffer = host.buffer → ∀ n,
      t.contents = records format es ++ (toVec format e).take n → InStep format t es := by
    intro t hbuffer n hcontents
    refine ⟨⟨h.contiguous, _, ?_, hcontents⟩, hbuffer ▸ h.tracks⟩
    exact fun hmem => newline_not_mem_toVec format e (List.mem_of_mem_take hmem)
  have hwhole : ∀ t : Host, t.buffer = host.buffer →
      t.contents = records format es ++ toVec format e ++ [0x0A] →
      InStep format t (es ++ [e]) := by
    intro t hbuffer hcontents
    refine ⟨stored_of_contents hes ?_, hbuffer ▸ h.tracks.append [e]⟩
    rw [records_append, records_cons, records_nil, List.append_nil, record, ← List.append_assoc]
    exact hcontents
  have hopened : ((host.extend []).extend (toVec format e)).contents
      = records format es ++ toVec format e := by
    rw [extend_contents, extend_contents, h.contents_eq, List.append_nil]
  apply ends_bind
  apply ends_get
  dsimp only
  split
  · apply ends_bind
    apply ends_modify
    exact ends_pure ⟨h.stored, es, [], (List.append_nil es).symm, h.fileBytes_eq, h.last_eq⟩
  · have hbefore : InStep format host es := h.inStep
    have hempty : InStep format (host.extend []) es := by
      refine htorn _ rfl 0 ?_
      rw [extend_contents, h.contents_eq, List.take_zero]
    apply ends_bind
    refine ends_atomically ?_ (.inl hbefore) (.inl hbefore.1) (.inl hempty.1)
    have hpart : ∀ n, InStep format ((host.extend []).extend ((toVec format e).take n)) es := by
      intro n
      refine htorn _ rfl n ?_
      rw [extend_contents, extend_contents, h.contents_eq, List.append_nil]
    apply ends_bind
    refine ends_write ?_ (fun n => .inl (hpart n)) (fun n => .inl (hpart n).1)
    -- what a write of the line end leaves: the record is torn, or it is whole
    have hend : ∀ n, InStep format
          (((host.extend []).extend (toVec format e)).extend (([0x0A] : List UInt8).take n)) es ∨
        InStep format
          (((host.extend []).extend (toVec format e)).extend (([0x0A] : List UInt8).take n))
          (es ++ [e]) := by
      intro n
      cases n with
      | zero =>
          refine .inl (htorn _ rfl (toVec format e).length ?_)
          rw [extend_contents, hopened, List.take_zero, List.append_nil, List.take_length]
      | succ n =>
          refine .inr (hwhole _ rfl ?_)
          rw [extend_contents, hopened, List.take_succ_cons, List.take_nil]
    have hwritten := hwhole (((host.extend []).extend (toVec format e)).extend [0x0A]) rfl
      (by rw [extend_contents, hopened])
    apply ends_bind
    refine ends_write ?_ hend fun n => (hend n).imp And.left And.left
    apply ends_bind
    refine ends_inspect ?_ (.inr hwritten) (.inr hwritten.1)
    apply ends_bind
    apply ends_modify
    refine ends_pure ⟨hwritten.1, es ++ [e], [], (List.append_nil _).symm, ?_, fun _ => ?_⟩
    · show host.buffer.fileBytes + ((toVec format e).length + 1) = _
      rw [h.fileBytes_eq, records_append, List.length_append, records_cons, records_nil,
        List.append_nil, length_record]
    · rw [lastSequence_concat]

theorem ends_reconcile (h : InStep format host es) (e : BufferedLogEntry)
    (hmax : ¬ (e.sequence = u64Max ∧ lastSequence 0 es = u64Max)) :
    Ends (reconcile format e) (fun _ t => Aligned format t es ∧ IsNext es e)
      (fun _ t => InStep format t es) (fun t => Stored format t.disk es) host := by
  apply ends_bind
  refine (ends_recoverFile h.1).imp ?_ (fun _ t ht => ⟨ht.1, ht.2 ▸ h.2⟩) (fun _ ht => ht)
  rintro _ t ⟨rfl, hcontents, -⟩
  apply ends_bind
  apply ends_modify
  have haligned : Aligned format
      { t with
        buffer :=
          { t.buffer with
            fileBytes := (records format es).length
            lastAppendedSequence := lastSequence 0 es
            bytesSinceCompaction :=
              max t.buffer.bytesSinceCompaction (records format es).length } } es :=
    ⟨h.1.1, hcontents, rfl, fun _ => rfl⟩
  split
  · rename_i hfollows
    exact ends_pure ⟨haligned, isNext_of_follows hfollows (fun _ => rfl) h.1.1 hmax⟩
  · exact ends_fail haligned.inStep

/-- What is left of the run when `append` ends, in whatever way. -/
theorem ends_append (h : InStep format host es) (e : BufferedLogEntry)
    (hmax : ¬ (e.sequence = u64Max ∧ lastSequence 0 es = u64Max)) :
    Ends (append format e)
      (fun written t => InStep format t (if written then es ++ [e] else es))
      (fun _ t => InStep format t es ∨ InStep format t (es ++ [e]))
      (fun t => Stored format t.disk es ∨ Stored format t.disk (es ++ [e])) host := by
  apply ends_bind
  apply ends_get
  split
  · exact ends_pure h
  · split
    · rename_i hfollows
      apply ends_bind
      refine ends_inspect ?_ (.inl h) (.inl h.1)
      apply ends_bind
      refine ends_fileLen.imp ?_ ?_ ?_
      · rintro length t ⟨rfl, rfl⟩
        split
        · apply ends_bind
          refine (ends_reconcile h e hmax).imp ?_ (fun _ _ ht => .inl ht) (fun _ ht => .inl ht)
          rintro _ t ⟨haligned, hnext⟩
          exact ends_writeRecord haligned hnext
        · rename_i hlength
          have haligned := h.aligned (not_not.mp hlength)
          exact ends_writeRecord haligned
            (isNext_of_follows hfollows haligned.last_eq h.1.1 hmax)
      · rintro _ t rfl
        exact .inl h
      · rintro t rfl
        exact .inl h.1
    · exact ends_fail (.inl h)

/-! Acknowledging -/

/-- A compaction drops the acknowledged records, all of them or none. -/
theorem ends_compact (h : Aligned format host es) :
    Ends (compact format)
      (fun _ t => InStep format t (es.filter (host.buffer.acknowledgedSequence < ·.sequence)))
      (fun _ t => t.disk.file = host.disk.file ∧ t.buffer = host.buffer)
      (fun t => Stored format t.disk es ∨
        Stored format t.disk (es.filter (host.buffer.acknowledgedSequence < ·.sequence))) host := by
  generalize hn : host.buffer.acknowledgedSequence = n
  have hfilter := h.contiguous.filter n
  have hretain := retainLines_eq format n es
  rw [← h.contents_eq] at hretain
  have hsame : ∀ t : Host, t.disk.file = host.disk.file → Stored format t.disk es := by
    intro t ht
    refine stored_of_contents h.contiguous ?_
    rw [Disk.contents, ht]
    exact h.contents_eq
  -- the counters behind the compaction
  have htracks : ∀ buffer : LogBuffer,
      buffer.fileBytes = (records format (es.filter (n < ·.sequence))).length →
      buffer.lastAppendedSequence = host.buffer.lastAppendedSequence →
      Tracks format buffer (es.filter (n < ·.sequence)) := by
    intro buffer hbytes hlast
    refine ⟨_, [], (List.append_nil _).symm, hbytes, fun hne => ?_⟩
    have hes : es ≠ [] := by
      rintro rfl
      exact hne rfl
    rw [hlast, h.last_eq hes, h.contiguous.lastSequence_filter hne]
  apply ends_bind
  refine ends_inspect ?_ ⟨rfl, rfl⟩ (.inl (hsame host rfl))
  apply ends_bind
  apply ends_get
  apply ends_bind
  refine ends_atomically ?_ ⟨rfl, rfl⟩ (.inl (hsame host rfl)) (.inl (hsame _ rfl))
  simp only [hn, hretain]
  apply ends_bind
  refine ends_write ?_ (fun _ => ⟨rfl, rfl⟩) (fun _ => .inl (hsame _ rfl))
  apply ends_bind
  refine ends_inspect ?_ ⟨rfl, rfl⟩ (.inl (hsame _ rfl))
  apply ends_bind
  rw [replaceFile]
  split
  · have hpersisted : Stored format ((host.setTemporary (some [])).extendTemporary
        (records format (es.filter (n < ·.sequence)))).persistTemporary.disk
        (es.filter (n < ·.sequence)) :=
      stored_of_contents hfilter (List.nil_append _)
    apply ends_bind
    refine ends_inspect ?_ ⟨rfl, rfl⟩ (.inl (hsame _ rfl))
    apply ends_bind
    refine ends_atomically ?_ ⟨rfl, rfl⟩ (.inl (hsame _ rfl)) (.inr hpersisted)
    apply ends_modify
    exact ends_modify ⟨hpersisted, htracks _ rfl rfl⟩
  · rename_i hnil
    have hnone : es.filter (n < ·.sequence) = [] := by
      apply (length_records_eq_zero format).mp
      rw [not_not.mp hnil]
      rfl
    have hremoved : ∀ t : Host, t.disk.file = none →
        Stored format t.disk (es.filter (n < ·.sequence)) := by
      intro t ht
      refine stored_of_contents hfilter ?_
      rw [Disk.contents, ht, hnone]
      rfl
    apply ends_bind
    refine ends_atomically ?_ ⟨rfl, rfl⟩ (.inl (hsame _ rfl)) (.inl (hsame _ rfl))
    apply ends_bind
    refine ends_atomically ?_ ⟨rfl, rfl⟩ (.inl (hsame _ rfl)) (.inr (hremoved _ rfl))
    apply ends_modify
    refine ends_modify ⟨hremoved _ rfl, htracks _ ?_ rfl⟩
    rw [hnone]
    rfl

theorem Aligned.setAcknowledged (h : Aligned format host es) (n : Nat) :
    Aligned format
      { host with
        buffer := { host.buffer with acknowledgedSequence := n } } es :=
  ⟨h.contiguous, h.contents_eq, h.fileBytes_eq, h.last_eq⟩

theorem ends_acceptAcknowledgement (h : Aligned format host es) (n : Nat) :
    Ends (acceptAcknowledgement format n)
      (fun _ t => InStep format t es ∨ InStep format t (es.filter (n < ·.sequence)))
      (fun _ t => InStep format t es)
      (fun t => Stored format t.disk es ∨ Stored format t.disk (es.filter (n < ·.sequence)))
      host := by
  apply ends_bind
  apply ends_bind
  apply ends_get
  split
  · apply ends_bind
    apply ends_modify
    apply ends_recover
    refine (ends_compact (h.setAcknowledged n)).imp ?_ ?_ (fun _ ht => ht)
    · intro _ t ht
      exact ends_modify (.inr ht)
    · rintro e t ⟨hfile, hbuffer⟩
      apply ends_bind
      apply ends_modify
      refine ends_fail ⟨stored_of_contents h.contiguous ?_, ?_⟩
      · rw [Disk.contents, hfile]
        exact h.contents_eq
      · obtain ⟨ds, fs, heq, hbytes, hlast⟩ := h.tracks
        refine ⟨ds, fs, heq, ?_, ?_⟩
        · rw [hbuffer]
          exact hbytes
        · rw [hbuffer]
          exact hlast
  · apply ends_modify
    exact ends_modify (.inl h.inStep)

theorem ends_refresh (h : InStep format host es) :
    Ends (refresh format) (fun _ t => Aligned format t es) (fun _ t => InStep format t es)
      (fun t => Stored format t.disk es) host := by
  apply ends_bind
  refine (ends_recoverFile h.1).imp ?_ (fun _ t ht => ⟨ht.1, ht.2 ▸ h.2⟩) (fun _ ht => ht)
  rintro _ t ⟨rfl, hcontents, -⟩
  exact ends_modify ⟨h.1.1, hcontents, rfl, fun _ => rfl⟩

/-- What is left of the run when `acknowledge` ends, in whatever way. -/
theorem ends_acknowledge (h : InStep format host es) (n : Nat) :
    Ends (acknowledge format n)
      (fun _ t => InStep format t es ∨ InStep format t (es.filter (n < ·.sequence)))
      (fun _ t => InStep format t es)
      (fun t => Stored format t.disk es ∨ Stored format t.disk (es.filter (n < ·.sequence)))
      host := by
  apply ends_bind
  apply ends_get
  split
  · exact ends_fail h
  · split
    · exact ends_pure (.inl h)
    · apply ends_bind
      refine ends_fileLen.imp ?_ ?_ ?_
      · rintro length t ⟨rfl, rfl⟩
        split
        · rename_i hzero
          refine ends_modify (.inl ⟨h.1, [], es, rfl, rfl, fun hne => absurd rfl hne⟩)
        · split
          · apply ends_bind
            refine (ends_refresh h).imp ?_ (fun _ _ ht => ht) (fun _ ht => .inl ht)
            intro _ t ht
            exact ends_acceptAcknowledgement ht n
          · rename_i hlength
            exact ends_acceptAcknowledgement (h.aligned (not_not.mp hlength)) n
      · rintro _ t rfl
        exact h
      · rintro t rfl
        exact .inl h.1

end AnvilRun.LogBuffer
