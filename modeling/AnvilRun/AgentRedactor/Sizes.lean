import AnvilRun.AgentRedactor
import AnvilRun.MaskWeight
import AnvilRun.Utf8.Prefixes

namespace AnvilRun.AgentRedactor

open AnvilRun.HoldBack
open AnvilRun.MaskWeight

/-- What `redact` masks and returns: the whole chunk when there are no values, and else what stands
in front of the cut. -/
def SensitiveLogRedactor.released (r : SensitiveLogRedactor) (chunk : Text) : Text :=
  if r.values = [] then chunk
  else
    let combined := r.pending ++ chunk
    if byteLen combined ≤ maxValueLen r.values then []
    else (splitAtByte combined (processEnd r.values combined)).1

/-- The bytes of a text, with ten for each value found in it instead of those of the value, are
within the limit. -/
def FitsMasked (limit : Nat) (values : List Text) (s : Text) : Prop :=
  byteLen s + byteLen redactedMarker * maskedSum (fun _ => 1) redactedMarker values s ≤
    limit + maskedSum byteLen redactedMarker values s

/-- No more is held back than the longest border and the bytes behind the safe prefix. -/
structure Bounded (r : SensitiveLogRedactor) : Prop where
  pending_eq_nil : r.values = [] → r.pending = []
  pending_le : byteLen r.pending ≤ 2 * maxValueLen r.values + 2

variable {r : SensitiveLogRedactor} {values : List Text} {limit n : Nat}

theorem byteLen_eq_length_encode (s : Text) : byteLen s = (Utf8.encode s).length := by
  induction s with
  | nil => rfl
  | cons c s ih =>
      rw [byteLen, ih, Utf8.encode_cons, List.length_append, String.length_utf8EncodeChar]

theorem byteLen_decodeLossy_le (bytes : List UInt8) :
    byteLen (Utf8.decodeLossy bytes) ≤ 3 * bytes.length := by
  rw [byteLen_eq_length_encode]
  exact Utf8.length_encode_decodeLossy_le bytes

/-! The length of a masked text -/

theorem byteLen_redactText_le_iff (hvalues : ∀ value ∈ values, value ≠ []) (s : Text) :
    byteLen (redactText s values) ≤ limit ↔ FitsMasked limit values s := by
  have hweight := weight_maskAll byteLen_append hvalues redactedMarker s
  rw [redactText, FitsMasked]
  omega

theorem redact_fst (r : SensitiveLogRedactor) (chunk : Text) :
    (r.redact chunk).1 = redactText (r.released chunk) r.values := by
  rw [SensitiveLogRedactor.redact, SensitiveLogRedactor.released]
  split
  · rename_i hvalues
    rw [hvalues]
    rfl
  · dsimp only
    split
    · simp [redactText]
    · rfl

theorem byteLen_redact_le_iff (r : SensitiveLogRedactor) (chunk : Text) :
    byteLen (r.redact chunk).1 ≤ limit ↔ FitsMasked limit r.values (r.released chunk) := by
  rw [redact_fst]
  exact byteLen_redactText_le_iff r.values_ne_nil _

theorem byteLen_finish_le_iff (r : SensitiveLogRedactor) :
    byteLen r.finish.1 ≤ limit ↔ FitsMasked limit r.values r.pending :=
  byteLen_redactText_le_iff r.values_ne_nil _

/-! How much is held back -/

theorem values_redact (r : SensitiveLogRedactor) (chunk : Text) :
    (r.redact chunk).2.values = r.values := by
  rw [SensitiveLogRedactor.redact]
  split
  · rfl
  · dsimp only
    split
    · rfl
    · rfl

theorem byteLen_border_le {s u : Text} (h : Border values s u) :
    byteLen u + 1 ≤ maxValueLen values := by
  obtain ⟨-, -, value, hvalue, w, hw, rfl⟩ := h
  have hle := byteLen_le_maxValueLen hvalue
  have hpos := byteLen_pos hw
  rw [byteLen_append] at hle
  omega

/-- What a redactor with values makes of the text that it has. -/
theorem released_pending (hvalues : r.values ≠ []) (chunk : Text) :
    r.released chunk ++ (r.redact chunk).2.pending = r.pending ++ chunk ∧
      byteLen (r.redact chunk).2.pending ≤ 2 * maxValueLen r.values + 2 ∧
      (r.released chunk ≠ [] → maxValueLen r.values ≤ byteLen (r.redact chunk).2.pending) := by
  rw [SensitiveLogRedactor.redact, SensitiveLogRedactor.released, if_neg hvalues, if_neg hvalues]
  dsimp only
  split
  · rename_i hshort
    refine ⟨rfl, ?_, fun hne => absurd rfl hne⟩
    dsimp only
    omega
  · rename_i hlong
    obtain ⟨x, o, rest, hcombined, hsplit, ho, hle, hrest⟩ :=
      exists_processEnd (Nat.lt_of_not_le hlong)
    rw [hsplit]
    refine ⟨hcombined.symm, ?_, fun _ => ?_⟩
    · dsimp only
      rw [byteLen_append]
      rcases ho.border with rfl | hborder
      · simp only [byteLen]
        obtain ⟨value, hvalue⟩ := List.exists_mem_of_ne_nil _ hvalues
        have hpos := byteLen_pos (r.values_ne_nil value hvalue)
        have hle := byteLen_le_maxValueLen hvalue
        omega
      · have hle := byteLen_border_le hborder
        omega
    · dsimp only
      rw [byteLen_append]
      omega

theorem Bounded.redact (h : Bounded r) (chunk : Text) : Bounded (r.redact chunk).2 := by
  by_cases hvalues : r.values = []
  · rw [SensitiveLogRedactor.redact, if_pos hvalues]
    exact h
  · constructor
    · intro hnil
      rw [values_redact] at hnil
      exact absurd hnil hvalues
    · rw [values_redact]
      exact (released_pending hvalues chunk).2.1

theorem bounded_of_pending_nil (h : r.pending = []) : Bounded r := by
  refine ⟨fun _ => h, ?_⟩
  rw [h]
  exact Nat.zero_le _

theorem bounded_finish (r : SensitiveLogRedactor) : Bounded r.finish.2 :=
  bounded_of_pending_nil rfl

theorem byteLen_released_le (r : SensitiveLogRedactor) (chunk : Text) :
    byteLen (r.released chunk) ≤ byteLen r.pending + byteLen chunk := by
  by_cases hvalues : r.values = []
  · rw [SensitiveLogRedactor.released, if_pos hvalues]
    exact Nat.le_add_left _ _
  · have hlength := congrArg byteLen (released_pending hvalues chunk).1
    rw [byteLen_append, byteLen_append] at hlength
    omega

/-- As many bytes as the longest value has are held back again. -/
theorem Bounded.byteLen_released_le (h : Bounded r) (chunk : Text) :
    byteLen (r.released chunk) ≤ maxValueLen r.values + 2 + byteLen chunk := by
  by_cases hvalues : r.values = []
  · rw [SensitiveLogRedactor.released, if_pos hvalues]
    exact Nat.le_add_left _ _
  · by_cases hnil : r.released chunk = []
    · rw [hnil]
      exact Nat.zero_le _
    · obtain ⟨hall, -, hheld⟩ := released_pending hvalues chunk
      have hlength := congrArg byteLen hall
      have hle := h.pending_le
      have hheld := hheld hnil
      rw [byteLen_append, byteLen_append] at hlength
      omega

/-! Values that are no shorter than the marker -/

theorem byteLen_redactText_le
    (hvalues : ∀ value ∈ values, byteLen redactedMarker ≤ byteLen value) (s : Text) :
    byteLen (redactText s values) ≤ byteLen s := by
  refine weight_maskAll_le byteLen_append (fun value hvalue hnil => ?_) hvalues s
  have hle := hvalues value hvalue
  rw [hnil] at hle
  exact absurd hle (by decide)

theorem maxValueLen_le (h : ∀ value ∈ values, byteLen value ≤ n) : maxValueLen values ≤ n := by
  have hfold : ∀ (l : List Nat) (a : Nat), a ≤ n → (∀ m ∈ l, m ≤ n) → l.foldl max a ≤ n := by
    intro l
    induction l with
    | nil => exact fun a ha _ => ha
    | cons m l ih =>
        intro a ha hl
        rw [List.forall_mem_cons] at hl
        exact ih _ (Nat.max_le.mpr ⟨ha, hl.1⟩) hl.2
  exact hfold _ 0 (Nat.zero_le n) (List.forall_mem_map.mpr h)

/-- A text that fits fits masked. -/
theorem fitsMasked_of_byteLen_le
    (hvalues : ∀ value ∈ values, byteLen redactedMarker ≤ byteLen value) {s : Text}
    (hs : byteLen s ≤ limit) : FitsMasked limit values s := by
  refine (byteLen_redactText_le_iff (fun value hvalue hnil => ?_) s).mp
    ((byteLen_redactText_le hvalues s).trans hs)
  have hle := hvalues value hvalue
  rw [hnil] at hle
  exact absurd hle (by decide)

end AnvilRun.AgentRedactor
