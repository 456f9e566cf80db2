import AnvilRun.AgentRedactor.Sizes

namespace AnvilRun.AgentRedactor

open AnvilRun.HoldBack
open AnvilRun.Masking

/-- The redactor behind some chunks. -/
def SensitiveLogRedactor.after (r : SensitiveLogRedactor) : List Text → SensitiveLogRedactor
  | [] => r
  | chunk :: chunks => (r.redact chunk).2.after chunks

/-- What leaves the redactor while it is fed some chunks. -/
def SensitiveLogRedactor.output (r : SensitiveLogRedactor) : List Text → Text
  | [] => []
  | chunk :: chunks => (r.redact chunk).1 ++ (r.redact chunk).2.output chunks

/-- There are values to look for, and some text waits for its end. -/
structure HoldsBack (r : SensitiveLogRedactor) : Prop where
  values_ne_nil : r.values ≠ []
  pending_ne_nil : r.pending ≠ []

variable {r : SensitiveLogRedactor} {chunk : Text}

theorem redactAll_eq_output (r : SensitiveLogRedactor) (chunks : List Text) :
    r.redactAll chunks = r.output chunks ++ (r.after chunks).finish.1 := by
  induction chunks generalizing r with
  | nil => rfl
  | cons chunk chunks ih =>
      rw [SensitiveLogRedactor.redactAll, SensitiveLogRedactor.output, SensitiveLogRedactor.after,
        ih, List.append_assoc]

@[simp]
theorem values_after (r : SensitiveLogRedactor) (chunks : List Text) :
    (r.after chunks).values = r.values := by
  induction chunks generalizing r with
  | nil => rfl
  | cons chunk chunks ih => rw [SensitiveLogRedactor.after, ih, values_redact]

theorem finish_ne_nil (h : r.pending ≠ []) : r.finish.1 ≠ [] :=
  maskAll_ne_nil (by decide) r.values h

/-- The last of the text is always held back. -/
theorem holdsBack_redact (hvalues : r.values ≠ []) (hne : r.pending ++ chunk ≠ []) :
    HoldsBack (r.redact chunk).2 := by
  obtain ⟨hall, -, hheld⟩ := released_pending hvalues chunk
  constructor
  · rw [values_redact]
    exact hvalues
  · intro hnil
    rw [hnil, List.append_nil] at hall
    have hle := hheld (hall ▸ hne)
    obtain ⟨value, hvalue⟩ := List.exists_mem_of_ne_nil _ hvalues
    have hpos := byteLen_pos (r.values_ne_nil value hvalue)
    have hmax := byteLen_le_maxValueLen hvalue
    have hzero : byteLen (r.redact chunk).2.pending = 0 := by
      rw [hnil]
      rfl
    omega

theorem HoldsBack.redact (h : HoldsBack r) (chunk : Text) : HoldsBack (r.redact chunk).2 :=
  holdsBack_redact h.values_ne_nil (List.append_ne_nil_of_left_ne_nil h.pending_ne_nil chunk)

theorem HoldsBack.after (h : HoldsBack r) (chunks : List Text) : HoldsBack (r.after chunks) := by
  induction chunks generalizing r with
  | nil => exact h
  | cons chunk chunks ih => exact ih (h.redact chunk)

theorem pending_addSensitiveValue (r : SensitiveLogRedactor) (value : Text) :
    (r.addSensitiveValue value).pending = r.pending := by
  rw [SensitiveLogRedactor.addSensitiveValue]
  split
  · rfl
  · rfl

theorem values_eq_nil_of_addSensitiveValue {value : Text}
    (h : (r.addSensitiveValue value).values = []) : r.values = [] := by
  rw [SensitiveLogRedactor.addSensitiveValue] at h
  split at h
  · exact h
  · have hmem : value ∈ sortByLength (r.values ++ [value]) :=
      mem_longestFirst.mpr (List.mem_append_right _ List.mem_cons_self)
    have hnil : sortByLength (r.values ++ [value]) = [] := h
    rw [hnil] at hmem
    cases hmem

/-! Feeding the masked rest to the redactor once more -/

/-- The end of the rest stays behind again. -/
theorem HoldsBack.flush (h : HoldsBack r) : HoldsBack (r.finish.2.redact r.finish.1).2 :=
  holdsBack_redact h.values_ne_nil (finish_ne_nil h.pending_ne_nil)

/-- Nothing is masked twice when no value has a symbol of the marker. -/
theorem flush_append_pending (hsep : Separated redactedMarker r.values) :
    (r.finish.2.redact r.finish.1).1 ++ (r.finish.2.redact r.finish.1).2.pending =
      r.finish.1 := by
  by_cases hvalues : r.finish.2.values = []
  · rw [SensitiveLogRedactor.redact, if_pos hvalues]
    exact List.append_nil _
  · have hall := (released_pending hvalues r.finish.1).1
    have hfree : ∀ value ∈ r.values, ¬ value <:+: r.finish.2.released r.finish.1 := by
      intro value hvalue hocc
      exact not_infix_maskAll hsep hvalue r.pending (hocc.trans ⟨[], _, hall⟩)
    have hmasked : redactText (r.finish.2.released r.finish.1) r.values =
        r.finish.2.released r.finish.1 := maskAll_eq_self _ hfree
    rw [redact_fst]
    exact (congrArg (· ++ _) hmasked).trans hall

end AnvilRun.AgentRedactor
