import Mathlib.Data.List.Infix

namespace AnvilRun.Replacement

universe u

variable {α : Type u} [DecidableEq α]

/-- Scanning state of `replaceAll`: the first argument counts the symbols of a match that
still have to be skipped. -/
def replaceFrom (p r : List α) : Nat → List α → List α
  | _, [] => []
  | k + 1, _ :: s => replaceFrom p r k s
  | 0, a :: s =>
      if p <+: a :: s then r ++ replaceFrom p r (p.length - 1) s
      else a :: replaceFrom p r 0 s

/-- Replace the leftmost non-overlapping occurrences of `p` by `r`. -/
def replaceAll (p r s : List α) : List α :=
  replaceFrom p r 0 s

/-- An occurrence of `p` starts inside `x` and ends inside `y`. -/
def Straddles (p x y : List α) : Prop :=
  ∃ u w, u ≠ [] ∧ w ≠ [] ∧ p = u ++ w ∧ u <:+ x ∧ w <+: y

theorem replaceFrom_eq_drop (p r : List α) (k : Nat) (s : List α) :
    replaceFrom p r k s = replaceAll p r (s.drop k) := by
  induction s generalizing k with
  | nil => simp [replaceFrom, replaceAll]
  | cons a s ih =>
      cases k with
      | zero => rfl
      | succ k => exact ih k

@[simp]
theorem replaceAll_nil (p r : List α) : replaceAll p r [] = [] := rfl

theorem replaceAll_hit {p : List α} (hp : p ≠ []) (r s : List α) :
    replaceAll p r (p ++ s) = r ++ replaceAll p r s := by
  obtain ⟨a, p, rfl⟩ := List.exists_cons_of_ne_nil hp
  have hpre : a :: p <+: a :: (p ++ s) := ⟨s, rfl⟩
  simp only [List.cons_append, replaceAll, replaceFrom, hpre, if_true, List.length_cons,
    Nat.add_sub_cancel]
  rw [replaceFrom_eq_drop, List.drop_left]
  rfl

theorem replaceAll_miss {p : List α} {a : α} {s : List α} (h : ¬ p <+: a :: s) (r : List α) :
    replaceAll p r (a :: s) = a :: replaceAll p r s := by
  simp [replaceAll, replaceFrom, h]

/-- The recursion of `replaceAll`: a text is empty, starts with a match, or starts with a
symbol that is copied. -/
theorem replaceAll_induction {p : List α} (hp : p ≠ []) {motive : List α → Prop}
    (nil : motive [])
    (hit : ∀ s, motive s → motive (p ++ s))
    (miss : ∀ a s, ¬ p <+: a :: s → motive s → motive (a :: s))
    (s : List α) : motive s := by
  generalize hn : s.length = n
  induction n using Nat.strong_induction_on generalizing s with
  | _ n ih =>
      cases s with
      | nil => exact nil
      | cons a s =>
          by_cases h : p <+: a :: s
          · obtain ⟨t, ht⟩ := h
            rw [← ht]
            have hlength : p.length + t.length = n := by
              rw [← List.length_append, ht, hn]
            have hpos := List.length_pos_of_ne_nil hp
            exact hit t (ih t.length (by omega) t rfl)
          · exact miss a s h (ih s.length (by simp at hn; omega) s rfl)

theorem replaceAll_ne_nil (p : List α) {r s : List α} (hr : r ≠ []) (hs : s ≠ []) :
    replaceAll p r s ≠ [] := by
  obtain ⟨a, t, rfl⟩ := List.exists_cons_of_ne_nil hs
  rw [replaceAll, replaceFrom]
  split
  · exact List.append_ne_nil_of_left_ne_nil hr _
  · exact List.cons_ne_nil a _

/-- A cut that no occurrence straddles splits the replacement. -/
theorem replaceAll_append {p : List α} (hp : p ≠ []) (r : List α) {x y : List α}
    (h : ¬ Straddles p x y) :
    replaceAll p r (x ++ y) = replaceAll p r x ++ replaceAll p r y := by
  induction x using replaceAll_induction hp with
  | nil => simp
  | hit s ih =>
      have hs : ¬ Straddles p s y := by
        rintro ⟨u, w, hu, hw, rfl, hus, hwy⟩
        exact h ⟨u, w, hu, hw, rfl, hus.trans (List.suffix_append _ _), hwy⟩
      rw [List.append_assoc, replaceAll_hit hp, replaceAll_hit hp, ih hs, List.append_assoc]
  | miss a s hmiss ih =>
      have hs : ¬ Straddles p s y := by
        rintro ⟨u, w, hu, hw, rfl, hus, hwy⟩
        exact h ⟨u, w, hu, hw, rfl, hus.trans (List.suffix_cons _ _), hwy⟩
      have hmissAppend : ¬ p <+: a :: (s ++ y) := by
        rintro ⟨t, ht⟩
        rw [← List.cons_append] at ht
        rcases List.append_eq_append_iff.mp ht with ⟨v, hv, -⟩ | ⟨w, hw, hy⟩
        · exact hmiss ⟨v, hv.symm⟩
        · cases w with
          | nil => exact hmiss ⟨[], by simpa using hw⟩
          | cons b w =>
              exact h ⟨a :: s, b :: w, by simp, by simp, hw, List.suffix_rfl, t, hy.symm⟩
      rw [List.cons_append, replaceAll_miss hmissAppend, replaceAll_miss hmiss, ih hs]
      rfl

theorem replaceAll_eq_self {p : List α} (r : List α) {s : List α}
    (h : ¬ p <:+: s) : replaceAll p r s = s := by
  induction s with
  | nil => rfl
  | cons a s ih =>
      have hmiss : ¬ p <+: a :: s := fun hpre => h hpre.isInfix
      have hs : ¬ p <:+: s := fun hocc => h (List.infix_cons hocc)
      rw [replaceAll_miss hmiss, ih hs]

section Transfer

/-! A text that shares no symbol with the replacement is found in the result only where it
already stood in the source. -/

variable {p r u : List α} (hp : p ≠ []) (hr : r ≠ [])

include hp hr

theorem replaceAll_eq_self_of_disjoint {s : List α} (hd : (replaceAll p r s).Disjoint r) :
    replaceAll p r s = s := by
  induction s using replaceAll_induction hp with
  | nil => rfl
  | hit s ih =>
      obtain ⟨c, r', rfl⟩ := List.exists_cons_of_ne_nil hr
      rw [replaceAll_hit hp] at hd
      exact absurd (List.mem_cons_self ..) (hd (by simp : c ∈ (c :: r') ++ _))
  | miss a s hmiss ih =>
      rw [replaceAll_miss hmiss] at hd ⊢
      rw [ih (fun b hb => hd (List.mem_cons_of_mem _ hb))]

theorem prefix_of_prefix_replaceAll (hd : u.Disjoint r) {s : List α}
    (h : u <+: replaceAll p r s) : u <+: s := by
  induction s using replaceAll_induction hp generalizing u with
  | nil => simpa using h
  | hit s ih =>
      obtain ⟨c, r', rfl⟩ := List.exists_cons_of_ne_nil hr
      rw [replaceAll_hit hp, List.cons_append, List.prefix_cons_iff] at h
      rcases h with rfl | ⟨t, rfl, -⟩
      · exact List.nil_prefix
      · exact absurd (List.mem_cons_self ..) (hd (List.mem_cons_self ..))
  | miss a s hmiss ih =>
      rw [replaceAll_miss hmiss, List.prefix_cons_iff] at h
      rcases h with rfl | ⟨t, rfl, ht⟩
      · exact List.nil_prefix
      · have hdt : t.Disjoint r := fun b hb => hd (List.mem_cons_of_mem _ hb)
        exact (List.cons_prefix_cons).mpr ⟨rfl, ih hdt ht⟩

theorem suffix_of_suffix_replaceAll (hd : u.Disjoint r) {s : List α}
    (h : u <:+ replaceAll p r s) : u <:+ s := by
  induction s using replaceAll_induction hp with
  | nil => simpa using h
  | hit s ih =>
      rw [replaceAll_hit hp] at h
      rcases List.suffix_or_suffix_of_suffix h (List.suffix_append r _) with hshort | hlong
      · exact (ih hshort).trans (List.suffix_append _ _)
      · obtain ⟨v, rfl⟩ := hlong
        have hv : v <:+ r := by
          obtain ⟨z, hz⟩ := h
          exact ⟨z, List.append_cancel_right (by simpa using hz)⟩
        have hvnil : v = [] := by
          cases v with
          | nil => rfl
          | cons b v =>
              exact absurd (hv.subset (List.mem_cons_self ..)) (hd (by simp : b ∈ b :: v ++ _))
        subst hvnil
        exact (ih List.suffix_rfl).trans (List.suffix_append _ _)
  | miss a s hmiss ih =>
      rw [replaceAll_miss hmiss, List.suffix_cons_iff] at h
      rcases h with rfl | h
      · rw [replaceAll_eq_self_of_disjoint hp hr
          (fun b hb => hd (List.mem_cons_of_mem _ hb) : (replaceAll p r s).Disjoint r)]
      · exact (ih h).trans (List.suffix_cons _ _)

omit [DecidableEq α] hp hr in
theorem infix_of_infix_mark_append {t : List α} (hu : u ≠ []) (hd : u.Disjoint r)
    (h : u <:+: r ++ t) : u <:+: t := by
  rcases List.infix_append_iff.mp h with hocc | hocc | ⟨v, w, rfl, hv, hw⟩
  · obtain ⟨a, u, rfl⟩ := List.exists_cons_of_ne_nil hu
    exact absurd (hocc.subset (List.mem_cons_self ..)) (hd (List.mem_cons_self ..))
  · exact hocc
  · cases v with
    | nil => exact hw.isInfix
    | cons b v =>
        exact absurd (hv.subset (List.mem_cons_self ..)) (hd (by simp : b ∈ b :: v ++ w))

theorem infix_of_infix_replaceAll (hu : u ≠ []) (hd : u.Disjoint r) {s : List α}
    (h : u <:+: replaceAll p r s) : u <:+: s := by
  induction s using replaceAll_induction hp with
  | nil => simpa using h
  | hit s ih =>
      rw [replaceAll_hit hp] at h
      exact (ih (infix_of_infix_mark_append hu hd h)).trans (List.suffix_append _ _).isInfix
  | miss a s hmiss ih =>
      have hpre := @prefix_of_prefix_replaceAll _ _ p r u hp hr hd (a :: s)
      rw [replaceAll_miss hmiss] at h hpre
      rcases List.infix_cons_iff.mp h with h | h
      · exact (hpre h).isInfix
      · exact List.infix_cons (ih h)

/-- After the replacement no occurrence of the pattern is left. -/
theorem not_infix_replaceAll (hd : p.Disjoint r) (s : List α) : ¬ p <:+: replaceAll p r s := by
  induction s using replaceAll_induction hp with
  | nil => simpa using hp
  | hit s ih =>
      rw [replaceAll_hit hp]
      exact fun h => ih (infix_of_infix_mark_append hp hd h)
  | miss a s hmiss ih =>
      have hpre := @prefix_of_prefix_replaceAll _ _ p r p hp hr hd (a :: s)
      rw [replaceAll_miss hmiss] at hpre ⊢
      rw [List.infix_cons_iff]
      rintro (h | h)
      · exact hmiss (hpre h)
      · exact ih h

end Transfer

end AnvilRun.Replacement
