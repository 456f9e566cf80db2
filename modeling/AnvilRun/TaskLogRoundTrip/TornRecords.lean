import AnvilRun.TaskLogRoundTrip
import AnvilRun.Utf8.Prefixes

namespace AnvilRun.TaskLogRoundTrip

open AnvilRun.Lines
open AnvilRun.TaskLogStorage
open AnvilRun.TaskLogCodec

variable {stored : List TaskLogEntry} {e : TaskLogEntry} {state : Option TaskLogFileState}

/-! A record whose end is missing -/

theorem splitFrom_of_no_line_end {s : List Char} (hs : ∀ c ∈ s, isLineEnd c = false) :
    splitLines s = if s.isEmpty then [] else [s] := by
  have hsplit := splitFrom_append hs [] []
  rw [List.append_nil, List.nil_append] at hsplit
  rw [splitLines, hsplit, splitFrom]

/-- A last line that lacks its line end is too long for the file. -/
theorem recoverLines_unfinished {tail : List UInt8} (offset last : Nat)
    (h : ∀ c ∈ Utf8.decodeLossy tail, isLineEnd c = false) :
    recoverLines (offset + tail.length) (splitLines (Utf8.decodeLossy tail)) ⟨offset, last⟩ =
      ⟨offset, last⟩ := by
  rw [splitFrom_of_no_line_end h]
  split
  · rfl
  · have hlonger := Utf8.length_le_length_encode_decodeLossy tail
    have htooLong : offset + tail.length < offset + lineBytes (Utf8.decodeLossy tail) := by
      rw [lineBytes]
      omega
    rw [recoverLines, if_pos (Or.inl htooLong)]

/-- Nothing is recovered of a record that is not complete. -/
theorem recoverLines_torn (he : e.sequence < 2 ^ 53) {n : Nat} (hn : n < (encodeEntry e).length)
    (offset last : Nat) :
    recoverLines (offset + ((encodeEntry e).take n).length)
      (splitLines (Utf8.decodeLossy ((encodeEntry e).take n))) ⟨offset, last⟩ = ⟨offset, last⟩ := by
  by_cases hclean : CleanEntry e
  · refine recoverLines_unfinished offset last fun c hc => ?_
    rcases Utf8.mem_decodeLossy_take hn hc with rfl | hc
    · rfl
    · rw [List.dropLast_concat] at hc
      exact isLineEnd_of_mem_entryText hclean hc
  · obtain ⟨fragment, c, rest, htext, hfragment, hend, hne, hparse⟩ := exists_fragment he hclean
    have hbytes : encodeEntry e =
        Utf8.encode (fragment ++ [c]) ++ Utf8.encode (rest ++ ['\n']) := by
      rw [encodeEntry, htext, ← Utf8.encode_append]
      simp
    by_cases hle : (Utf8.encode (fragment ++ [c])).length ≤ n
    · -- the separator is there, and the line in front of it is no entry
      rw [hbytes, List.take_append, List.take_of_length_le hle, Utf8.decodeLossy_encode_append,
        List.append_assoc, List.singleton_append, splitLines_line hfragment hne hend,
        recoverLines_stop hparse]
    · refine recoverLines_unfinished offset last fun d hd => ?_
      rw [hbytes, List.take_append_of_le_length (Nat.le_of_not_le hle)] at hd
      rcases Utf8.mem_decodeLossy_take (Nat.lt_of_not_le hle) hd with rfl | hd
      · rfl
      · rw [List.dropLast_concat] at hd
        exact hfragment d hd

/-- Nothing is recovered of a record with a separator in it. -/
theorem recoverLines_separator (he : e.sequence < 2 ^ 53) (hclean : ¬ CleanEntry e)
    (size offset last : Nat) :
    recoverLines size (splitLines (Utf8.decodeLossy (encodeEntry e))) ⟨offset, last⟩ =
      ⟨offset, last⟩ := by
  obtain ⟨fragment, c, rest, htext, hfragment, hend, hne, hparse⟩ := exists_fragment he hclean
  rw [encodeEntry, Utf8.decodeLossy_encode, htext, List.append_assoc, List.cons_append,
    splitLines_line hfragment hne hend, recoverLines_stop hparse]

/-! Recovery of a file whose last record may be torn -/

theorem recoverUnlocked_file {bytes : List UInt8} (hsafe : bytes.length ≤ JsNumber.maxSafeInteger)
    {found : TaskLogFileState}
    (h : recoverLines bytes.length (splitLines (Utf8.decodeLossy bytes)) ⟨0, 0⟩ = found) :
    recoverUnlocked ⟨some bytes, state⟩ =
      .ok (found, ⟨some (bytes.take found.size), some found⟩) := by
  rw [recoverUnlocked]
  dsimp only
  rw [if_neg (Nat.not_lt_of_le hsafe), h]

theorem Appended.length_le (h : Appended stored) :
    (fileBytes stored).length ≤ JsNumber.maxSafeInteger :=
  h.fileSize.trans (by decide)

theorem length_fileBytes_take_le (h : Appended (stored ++ [e])) (n : Nat) :
    (fileBytes stored ++ (encodeEntry e).take n).length ≤ JsNumber.maxSafeInteger := by
  refine le_trans ?_ h.length_le
  rw [fileBytes_append, fileBytes_cons, fileBytes_nil, List.append_nil, List.length_append,
    List.length_append, List.length_take]
  omega

theorem Appended.sequence_lt (h : Appended stored) (he : e ∈ stored) : e.sequence < 2 ^ 53 := by
  have hle := (h.sequence_bounds e he).2
  have hmax : JsNumber.maxSafeInteger < 2 ^ 53 := by decide
  exact Nat.lt_of_le_of_lt hle hmax

/-- In front of a torn record, or of one with a separator in it, all entries are recovered. -/
theorem recover_torn (h : Appended (stored ++ [e])) (hclean : ∀ x ∈ stored, CleanEntry x) {n : Nat}
    (hn : n < (encodeEntry e).length ∨ ¬ CleanEntry e) :
    recoverUnlocked ⟨some (fileBytes stored ++ (encodeEntry e).take n), state⟩ =
      .ok (fullState stored, ⟨some (fileBytes stored), some (fullState stored)⟩) := by
  have he : e.sequence < 2 ^ 53 := h.sequence_lt (by simp)
  have hrest : ∀ offset last, recoverLines (offset + ((encodeEntry e).take n).length)
      (splitLines (Utf8.decodeLossy ((encodeEntry e).take n))) ⟨offset, last⟩ =
        ⟨offset, last⟩ := by
    intro offset last
    by_cases hlt : n < (encodeEntry e).length
    · exact recoverLines_torn he hlt offset last
    · rw [List.take_of_length_le (Nat.le_of_not_lt hlt)]
      exact recoverLines_separator he (hn.resolve_left hlt) _ offset last
  have hentries := h.of_append
  have hfound : recoverLines (fileBytes stored ++ (encodeEntry e).take n).length
      (splitLines (Utf8.decodeLossy (fileBytes stored ++ (encodeEntry e).take n))) ⟨0, 0⟩ =
        fullState stored := by
    rw [decodeLossy_fileBytes_append, splitLines_fileText_append hclean, List.length_append,
      recoverLines_entries hentries.contiguous hentries.sequence_bounds (by omega), Nat.zero_add,
      Nat.zero_add, hrest]
    rfl
  rw [recoverUnlocked_file (length_fileBytes_take_le h n) hfound, fullState, List.take_left]

/-- A complete record without a separator is recovered with the others. -/
theorem recover_whole (h : Appended stored) (hclean : ∀ x ∈ stored, CleanEntry x) :
    recoverUnlocked ⟨some (fileBytes stored), state⟩ =
      .ok (fullState stored, ⟨some (fileBytes stored), some (fullState stored)⟩) := by
  rw [recoverUnlocked_file h.length_le (recoverLines_clean h hclean), fullState,
    List.take_length]

/-- With a separator in an entry not all entries are recovered. -/
theorem exists_recover_unclean (h : Appended (stored ++ [e]))
    (hclean : ¬ ∀ x ∈ stored, CleanEntry x) (n : Nat) : ∃ found log,
      recoverUnlocked ⟨some (fileBytes stored ++ (encodeEntry e).take n), state⟩ =
        .ok (found, log) ∧ found.lastSequence < stored.length := by
  have hlt := recover_lastSequence_lt_append h.of_append hclean ((encodeEntry e).take n)
  exact ⟨_, _, recoverUnlocked_file (length_fileBytes_take_le h n) rfl, hlt⟩

end AnvilRun.TaskLogRoundTrip
