import AnvilRun.Masking

namespace AnvilRun.HoldBack

open AnvilRun.Replacement
open AnvilRun.Masking

universe u v

/-- `r` is the maximum of the numbers satisfying `S`, and of `a`. -/
structure IsMax (a : Nat) (S : Nat → Prop) (r : Nat) : Prop where
  init_le : a ≤ r
  le : ∀ n, S n → n ≤ r
  attained : r = a ∨ S r

theorem isMax_ite (a n : Nat) (p : Prop) [Decidable p] :
    IsMax a (fun m => p ∧ m = n) (if p then max a n else a) := by
  by_cases hp : p
  · rw [if_pos hp]
    refine ⟨Nat.le_max_left a n, ?_, ?_⟩
    · rintro m ⟨-, rfl⟩
      exact Nat.le_max_right a m
    · rcases Nat.le_total a n with h | h
      · exact Or.inr ⟨hp, Nat.max_eq_right h⟩
      · exact Or.inl (Nat.max_eq_left h)
  · rw [if_neg hp]
    exact ⟨le_rfl, fun m hm => absurd hm.1 hp, Or.inl rfl⟩

/-- A loop whose every round takes a maximum computes the maximum over all rounds. -/
theorem isMax_foldl {β : Type v} (step : Nat → β → Nat) (S : β → Nat → Prop)
    (hstep : ∀ a b, IsMax a (S b) (step a b)) (l : List β) (a : Nat) :
    IsMax a (fun n => ∃ b ∈ l, S b n) (l.foldl step a) := by
  induction l generalizing a with
  | nil => exact ⟨le_rfl, by simp, Or.inl rfl⟩
  | cons b l ih =>
      have hfirst := hstep a b
      have hrest := ih (step a b)
      refine ⟨hfirst.init_le.trans hrest.init_le, ?_, ?_⟩
      · rintro n ⟨c, hc, hn⟩
        rcases List.mem_cons.mp hc with rfl | hc
        · exact (hfirst.le n hn).trans hrest.init_le
        · exact hrest.le n ⟨c, hc, hn⟩
      · rw [List.foldl_cons]
        rcases hrest.attained with heq | ⟨c, hc, hn⟩
        · rw [heq]
          rcases hfirst.attained with heq' | hn
          · exact Or.inl heq'
          · exact Or.inr ⟨b, List.mem_cons_self .., hn⟩
        · exact Or.inr ⟨c, List.mem_cons_of_mem _ hc, hn⟩

theorem IsMax.congr {a r : Nat} {S T : Nat → Prop} (h : IsMax a S r) (hST : ∀ n, S n ↔ T n) :
    IsMax a T r :=
  ⟨h.init_le, fun n hn => h.le n ((hST n).mpr hn), h.attained.imp_right (hST r).mp⟩

variable {α : Type u}

/-- `u` ends `s` and is a non-empty proper prefix of a value. -/
def Border (values : List (List α)) (s u : List α) : Prop :=
  u ≠ [] ∧ u <:+ s ∧ ∃ value ∈ values, ∃ w, w ≠ [] ∧ value = u ++ w

/-- The longest border, or nothing when there is no border. -/
structure LongestBorder (values : List (List α)) (s o : List α) : Prop where
  suffix : o <:+ s
  border : o = [] ∨ Border values s o
  longest : ∀ u, Border values s u → u <:+ o

/-- A weight of texts that tells the suffixes of one text apart. -/
def SuffixWeight (weight : List α → Nat) : Prop :=
  weight [] = 0 ∧ ∀ u s : List α, u <:+ s → weight s ≤ weight u → u = s

/-- The greatest weight of a border belongs to the longest border. -/
theorem exists_longestBorder {weight : List α → Nat} (hweight : SuffixWeight weight)
    {values : List (List α)} {s : List α} {r : Nat}
    (h : IsMax 0 (fun n => ∃ u, Border values s u ∧ n = weight u) r) :
    ∃ o, LongestBorder values s o ∧ weight o = r := by
  have hsuffix : ∀ u o : List α, u <:+ s → o <:+ s → weight u ≤ weight o → u <:+ o := by
    intro u o hu ho hle
    rcases List.suffix_or_suffix_of_suffix hu ho with huo | hou
    · exact huo
    · rw [hweight.2 o u hou hle]
  rcases h.attained with rfl | ⟨o, ho, rfl⟩
  · refine ⟨[], ⟨List.nil_suffix, Or.inl rfl, fun u hu => ?_⟩, hweight.1⟩
    exact hsuffix u [] hu.2.1 List.nil_suffix ((h.le _ ⟨u, hu, rfl⟩).trans (Nat.zero_le _))
  · exact ⟨o, ⟨ho.2.1, Or.inr ho, fun u hu => hsuffix u o hu.2.1 ho.2.1 (h.le _ ⟨u, hu, rfl⟩)⟩,
      rfl⟩

/-- A value that straddles the cut in front of the longest border ends inside that border. -/
theorem LongestBorder.ends_inside {values : List (List α)} {x o rest : List α}
    (h : LongestBorder values (x ++ o) o) {u w : List α} (hvalue : u ++ w ∈ values)
    (hu : u ≠ []) (hux : u <:+ x) (hw : w <+: o ++ rest) : w <+: o := by
  rcases List.prefix_or_prefix_of_prefix hw (List.prefix_append o rest) with hwo | how
  · exact hwo
  · obtain ⟨t, rfl⟩ := how
    cases t with
    | nil => rw [List.append_nil]
    | cons b t =>
        -- `u ++ o` is a longer border than `o`
        have hsuffix : u ++ o <:+ x ++ o := by
          obtain ⟨z, rfl⟩ := hux
          exact ⟨z, by simp⟩
        have hborder : Border values (x ++ o) (u ++ o) :=
          ⟨by simp [hu], hsuffix, _, hvalue, b :: t, by simp, by simp⟩
        have hlength := (h.longest _ hborder).length_le
        have hpos := List.length_pos_of_ne_nil hu
        simp only [List.length_append] at hlength
        omega

/-- Where no value occurs, the cut in front of the longest border is clean. -/
theorem LongestBorder.cleanCut {values : List (List α)} {x o : List α}
    (h : LongestBorder values (x ++ o) o) (hfree : ∀ value ∈ values, ¬ value <:+: x ++ o)
    (rest : List α) : CleanCut values x (o ++ rest) := by
  rintro value hvalue ⟨u, w, hu, -, rfl, hux, hwo⟩
  obtain ⟨o', rfl⟩ := h.ends_inside hvalue hu hux hwo
  obtain ⟨x', rfl⟩ := hux
  exact hfree _ hvalue ⟨x', o', by simp⟩

end AnvilRun.HoldBack
