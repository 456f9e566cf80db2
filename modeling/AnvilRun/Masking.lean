import AnvilRun.Replacement
import Mathlib.Data.List.Sort

namespace AnvilRun.Masking

open AnvilRun.Replacement

universe u

variable {α : Type u} [DecidableEq α]

/-- Replace the values one after the other, in the order of the list. -/
def maskAll (mask : List α) (values : List (List α)) (s : List α) : List α :=
  values.foldl (fun masked value => replaceAll value mask masked) s

/-- Stable sort by descending weight. -/
def longestFirst (weight : List α → Nat) (values : List (List α)) : List (List α) :=
  values.insertionSort (fun v w => weight w ≤ weight v)

omit [DecidableEq α] in
theorem mem_longestFirst {weight : List α → Nat} {value : List α} {values : List (List α)} :
    value ∈ longestFirst weight values ↔ value ∈ values :=
  (List.perm_insertionSort _ values).mem_iff

omit [DecidableEq α] in
theorem longestFirst_sorted (weight : List α → Nat) (values : List (List α)) :
    (longestFirst weight values).Pairwise (fun v w => weight w ≤ weight v) := by
  have htotal : Std.Total (fun v w : List α => weight w ≤ weight v) :=
    ⟨fun v w => Nat.le_total (weight w) (weight v)⟩
  have htrans : IsTrans (List α) (fun v w => weight w ≤ weight v) :=
    ⟨fun _ _ _ huv hvw => hvw.trans huv⟩
  exact List.pairwise_insertionSort _ values

/-- `value` has no symbol of the mask. -/
def SharesNoSymbol (mask value : List α) : Prop :=
  ∀ a ∈ value, a ∉ mask

instance (mask value : List α) : Decidable (SharesNoSymbol mask value) :=
  List.decidableBAll _ value

/-- The values are non-empty and share no symbol with the non-empty mask. -/
structure Separated (mask : List α) (values : List (List α)) : Prop where
  mask_ne_nil : mask ≠ []
  value_ne_nil : ∀ value ∈ values, value ≠ []
  value_disjoint : ∀ value ∈ values, value.Disjoint mask

/-- No value straddles the cut between `x` and `y`. -/
def CleanCut (values : List (List α)) (x y : List α) : Prop :=
  ∀ value ∈ values, ¬ Straddles value x y

omit [DecidableEq α] in
theorem Separated.tail {mask value : List α} {values : List (List α)}
    (h : Separated mask (value :: values)) : Separated mask values :=
  ⟨h.mask_ne_nil, fun v hv => h.value_ne_nil v (List.mem_cons_of_mem _ hv),
    fun v hv => h.value_disjoint v (List.mem_cons_of_mem _ hv)⟩

omit [DecidableEq α] in
theorem Separated.not_infix_mask {mask : List α} {values : List (List α)}
    (h : Separated mask values) {value : List α} (hvalue : value ∈ values) :
    ¬ value <:+: mask := by
  intro hocc
  obtain ⟨a, v, hv⟩ := List.exists_cons_of_ne_nil (h.value_ne_nil value hvalue)
  have ha : a ∈ value := by simp [hv]
  exact h.value_disjoint value hvalue ha (hocc.subset ha)

@[simp]
theorem maskAll_cons (mask value : List α) (values : List (List α)) (s : List α) :
    maskAll mask (value :: values) s = maskAll mask values (replaceAll value mask s) := rfl

@[simp]
theorem maskAll_no_values (mask s : List α) : maskAll mask [] s = s := rfl

@[simp]
theorem maskAll_nil (mask : List α) (values : List (List α)) : maskAll mask values [] = [] := by
  induction values with
  | nil => rfl
  | cons value values ih => simpa using ih

theorem maskAll_ne_nil {mask : List α} (hmask : mask ≠ []) (values : List (List α)) {s : List α}
    (hs : s ≠ []) : maskAll mask values s ≠ [] := by
  induction values generalizing s with
  | nil => exact hs
  | cons value values ih => exact ih (replaceAll_ne_nil value hmask hs)

theorem maskAll_eq_self (mask : List α) {values : List (List α)} {s : List α}
    (h : ∀ value ∈ values, ¬ value <:+: s) : maskAll mask values s = s := by
  induction values with
  | nil => rfl
  | cons value values ih =>
      rw [maskAll_cons, replaceAll_eq_self mask (h value (List.mem_cons_self ..))]
      exact ih (fun v hv => h v (List.mem_cons_of_mem _ hv))

section Separated

variable {mask : List α} {values : List (List α)}

theorem maskAll_mask (h : Separated mask values) : maskAll mask values mask = mask :=
  maskAll_eq_self mask (fun _ hvalue => h.not_infix_mask hvalue)

theorem infix_of_infix_maskAll (h : Separated mask values) {u : List α} (hu : u ≠ [])
    (hd : u.Disjoint mask) {s : List α} (hocc : u <:+: maskAll mask values s) :
    u <:+: s := by
  induction values generalizing s with
  | nil => exact hocc
  | cons value values ih =>
      have hvalue := h.value_ne_nil value (List.mem_cons_self ..)
      exact infix_of_infix_replaceAll hvalue h.mask_ne_nil hu hd (ih h.tail hocc)

/-- No value is left in a masked text. -/
theorem not_infix_maskAll (h : Separated mask values) {value : List α}
    (hvalue : value ∈ values) (s : List α) : ¬ value <:+: maskAll mask values s := by
  induction values generalizing s with
  | nil => simp at hvalue
  | cons v values ih =>
      rw [maskAll_cons]
      rcases List.mem_cons.mp hvalue with rfl | htail
      · have hne := h.value_ne_nil value (List.mem_cons_self ..)
        have hd := h.value_disjoint value (List.mem_cons_self ..)
        intro hocc
        exact not_infix_replaceAll hne h.mask_ne_nil hd s
          (infix_of_infix_maskAll h.tail hne hd hocc)
      · exact ih h.tail htail _

/-- Masking the two sides of a clean cut separately masks the whole text. -/
theorem maskAll_append (h : Separated mask values) {x y : List α}
    (hcut : CleanCut values x y) :
    maskAll mask values (x ++ y) = maskAll mask values x ++ maskAll mask values y := by
  induction values generalizing x y with
  | nil => rfl
  | cons value values ih =>
      have hne := h.value_ne_nil value (List.mem_cons_self ..)
      have hvalue : ¬ Straddles value x y := hcut value (List.mem_cons_self ..)
      have htail : CleanCut values (replaceAll value mask x) (replaceAll value mask y) := by
        rintro v hv ⟨u, w, hu, hw, rfl, hux, hwy⟩
        have hd := h.tail.value_disjoint _ hv
        refine hcut (u ++ w) (List.mem_cons_of_mem _ hv) ⟨u, w, hu, hw, rfl, ?_, ?_⟩
        · exact suffix_of_suffix_replaceAll hne h.mask_ne_nil
            (fun a ha => hd (List.mem_append_left _ ha)) hux
        · exact prefix_of_prefix_replaceAll hne h.mask_ne_nil
            (fun a ha => hd (List.mem_append_right _ ha)) hwy
      rw [maskAll_cons, replaceAll_append hne mask hvalue, ih h.tail htail]
      rfl

omit [DecidableEq α] in
/-- A cut next to a symbol that no value contains is clean. -/
theorem cleanCut_of_head_not_mem {a : α} (ha : ∀ value ∈ values, a ∉ value) (x y : List α) :
    CleanCut values x (a :: y) := by
  rintro value hvalue ⟨u, w, -, hw, rfl, -, hwy⟩
  obtain ⟨b, w, rfl⟩ := List.exists_cons_of_ne_nil hw
  obtain ⟨rfl, -⟩ := List.cons_prefix_cons.mp hwy
  exact ha _ hvalue (by simp)

omit [DecidableEq α] in
theorem cleanCut_mask_left (h : Separated mask values) (y : List α) :
    CleanCut values mask y := by
  rintro value hvalue ⟨u, w, hu, -, rfl, hux, -⟩
  obtain ⟨b, u, rfl⟩ := List.exists_cons_of_ne_nil hu
  exact h.value_disjoint _ hvalue (by simp : b ∈ b :: u ++ w) (hux.subset (by simp))

/-- A symbol that no value contains separates the texts on its two sides. -/
theorem maskAll_append_separator (h : Separated mask values) {a : α}
    (ha : ∀ value ∈ values, a ∉ value) (x y : List α) :
    maskAll mask values (x ++ a :: y) = maskAll mask values x ++ a :: maskAll mask values y := by
  have hright : CleanCut values [a] y := by
    rintro value hvalue ⟨u, w, hu, -, rfl, hux, -⟩
    obtain ⟨b, u, rfl⟩ := List.exists_cons_of_ne_nil hu
    have hb : b = a := by simpa using hux.subset (List.mem_cons_self ..)
    exact ha _ hvalue (by simp [hb])
  have hself : maskAll mask values [a] = [a] := by
    refine maskAll_eq_self mask (fun value hvalue hocc => ?_)
    obtain ⟨b, w, rfl⟩ := List.exists_cons_of_ne_nil (h.value_ne_nil value hvalue)
    have hb : b = a := by simpa using hocc.subset (List.mem_cons_self ..)
    exact ha _ hvalue (by simp [hb])
  have hy := maskAll_append h hright
  rw [hself] at hy
  rw [maskAll_append h (cleanCut_of_head_not_mem ha x y)]
  exact congrArg _ hy

/-- A text made of symbols no value contains stays as it is behind any text. -/
theorem maskAll_append_padding (h : Separated mask values) {pad : List α}
    (hpad : ∀ a ∈ pad, ∀ value ∈ values, a ∉ value) (x : List α) :
    maskAll mask values (x ++ pad) = maskAll mask values x ++ pad := by
  cases pad with
  | nil => simp
  | cons a pad =>
      rw [maskAll_append h (cleanCut_of_head_not_mem (hpad a (List.mem_cons_self ..)) x pad)]
      congr 1
      refine maskAll_eq_self mask (fun value hvalue hocc => ?_)
      obtain ⟨b, v, hv⟩ := List.exists_cons_of_ne_nil (h.value_ne_nil value hvalue)
      have hb : b ∈ value := by simp [hv]
      exact hpad b (hocc.subset hb) value hvalue hb

/-- A value is masked as a whole when no other value in front of it occurs in it. -/
theorem maskAll_self (h : Separated mask values)
    (horder : values.Pairwise (fun v w => v <:+: w → v = w))
    {value : List α} (hvalue : value ∈ values) : maskAll mask values value = mask := by
  induction values with
  | nil => simp at hvalue
  | cons v values ih =>
      rw [maskAll_cons]
      by_cases hv : v = value
      · subst hv
        have hhit := replaceAll_hit (h.value_ne_nil v (List.mem_cons_self ..)) mask []
        rw [List.append_nil, replaceAll_nil, List.append_nil] at hhit
        rw [hhit, maskAll_mask h.tail]
      · have htail : value ∈ values := by
          rcases List.mem_cons.mp hvalue with heq | htail
          · exact absurd heq.symm hv
          · exact htail
        have hfirst : ¬ v <:+: value :=
          fun hocc => hv ((List.pairwise_cons.mp horder).1 value htail hocc)
        rw [replaceAll_eq_self mask hfirst]
        exact ih h.tail (List.pairwise_cons.mp horder).2 htail

/-- The text after masking starts with the symbol the source starts with, or with a mask. -/
def StartsWith (mask : List α) (a : α) (s : List α) : Prop :=
  (∃ t, s = a :: t) ∨ mask <+: s

theorem startsWith_maskAll (h : Separated mask values) {a : α} {s : List α}
    (hs : StartsWith mask a s) : StartsWith mask a (maskAll mask values s) := by
  induction values generalizing s with
  | nil => exact hs
  | cons value values ih =>
      have hne := h.value_ne_nil value (List.mem_cons_self ..)
      rw [maskAll_cons]
      refine ih h.tail ?_
      rcases hs with ⟨t, rfl⟩ | ⟨t, rfl⟩
      · by_cases hit : value <+: a :: t
        · obtain ⟨t', ht'⟩ := hit
          rw [← ht', replaceAll_hit hne]
          exact Or.inr (List.prefix_append _ _)
        · rw [replaceAll_miss hit]
          exact Or.inl ⟨_, rfl⟩
      · have hcut := cleanCut_mask_left h t value (List.mem_cons_self ..)
        rw [replaceAll_append hne mask hcut,
          replaceAll_eq_self mask (h.not_infix_mask (List.mem_cons_self ..))]
        exact Or.inr (List.prefix_append _ _)

/-- Two non-empty texts masked separately never give one single mask. -/
theorem maskAll_append_maskAll_ne_mask (h : Separated mask values) {a : α} (ha : a ∉ mask)
    (x : List α) {y : List α} (hy : y ≠ []) (z : List α) :
    maskAll mask values (a :: x) ++ (maskAll mask values y ++ z) ≠ mask ++ z := by
  intro heq
  rcases startsWith_maskAll h (Or.inl ⟨x, rfl⟩ : StartsWith mask a (a :: x)) with
    ⟨t, ht⟩ | hpre
  · obtain ⟨b, m, hm⟩ := List.exists_cons_of_ne_nil h.mask_ne_nil
    rw [ht, hm] at heq
    simp only [List.cons_append, List.cons.injEq] at heq
    exact ha (by simp [hm, heq.1])
  · have hpos := List.length_pos_of_ne_nil (maskAll_ne_nil h.mask_ne_nil values hy)
    have hle := hpre.length_le
    have hlength := congrArg List.length heq
    simp only [List.length_append] at hlength
    omega

end Separated

end AnvilRun.Masking
