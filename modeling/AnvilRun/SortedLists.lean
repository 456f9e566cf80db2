import Mathlib.Data.List.Nodup
import Mathlib.Data.List.Perm.Basic

namespace AnvilRun.SortedLists

open scoped List

variable {α : Type} {le : α → α → Bool} {l l' : List α} {x y : α}

/-- An order that may take different values for equal. -/
structure TotalPreorder (le : α → α → Bool) : Prop where
  total : ∀ x y, le x y = true ∨ le y x = true
  trans : ∀ x y z, le x y = true → le y z = true → le x z = true

/-- Two elements of a list stand in it one before the other. -/
theorem pair_sublist_or (hx : x ∈ l) (hy : y ∈ l) (hne : x ≠ y) : [x, y] <+ l ∨ [y, x] <+ l := by
  induction l with
  | nil => exact absurd hx List.not_mem_nil
  | cons z l ih =>
      rcases List.mem_cons.mp hx with rfl | hmem
      · have hy : y ∈ l := (List.mem_cons.mp hy).resolve_left hne.symm
        exact .inl (.cons_cons x (List.singleton_sublist.mpr hy))
      rcases List.mem_cons.mp hy with rfl | hmem'
      · exact .inr (.cons_cons y (List.singleton_sublist.mpr hmem))
      · exact (ih hmem hmem').imp (.cons z) (.cons z)

theorem not_pair_sublist (hnodup : l.Nodup) (h : [x, y] <+ l) : ¬ [y, x] <+ l := by
  induction l with
  | nil => exact absurd (h.subset List.mem_cons_self) List.not_mem_nil
  | cons z l ih =>
      rw [List.nodup_cons] at hnodup
      intro hback
      have hmem : ∀ {u v}, [u, v] <+ l → u ∈ l ∧ v ∈ l := fun hsub =>
        ⟨hsub.subset List.mem_cons_self,
          hsub.subset (List.mem_cons_of_mem _ List.mem_cons_self)⟩
      rcases List.sublist_cons_iff.mp h with hsub | ⟨r, hr, hsub⟩ <;>
        rcases List.sublist_cons_iff.mp hback with hsub' | ⟨r', hr', hsub'⟩
      · exact ih hnodup.2 hsub hsub'
      · obtain ⟨rfl, rfl⟩ := List.cons.inj hr'
        exact hnodup.1 (hmem hsub).2
      · obtain ⟨rfl, rfl⟩ := List.cons.inj hr
        exact hnodup.1 (hmem hsub').2
      · obtain ⟨rfl, rfl⟩ := List.cons.inj hr
        obtain ⟨rfl, rfl⟩ := List.cons.inj hr'
        exact hnodup.1 (List.singleton_sublist.mp hsub)

namespace TotalPreorder

theorem pairwise_mergeSort (h : TotalPreorder le) (l : List α) :
    (l.mergeSort le).Pairwise fun x y => le x y = true :=
  List.pairwise_mergeSort h.trans (fun x y => (Bool.or_eq_true _ _).mpr (h.total x y)) l

theorem pair_sublist_mergeSort (h : TotalPreorder le) (hle : le x y = true) (hsub : [x, y] <+ l) :
    [x, y] <+ l.mergeSort le :=
  List.pair_sublist_mergeSort h.trans (fun x y => (Bool.or_eq_true _ _).mpr (h.total x y)) hle hsub

/-- Elements that the order takes for equal keep their order. -/
theorem pair_sublist_of_mergeSort (h : TotalPreorder le) (hnodup : l.Nodup)
    (hback : le y x = true) (hsub : [x, y] <+ l.mergeSort le) : [x, y] <+ l := by
  have hperm := List.mergeSort_perm l le
  have hsorted : (l.mergeSort le).Nodup := hperm.nodup_iff.mpr hnodup
  have hne : x ≠ y := by
    rintro rfl
    exact List.nodup_iff_sublist.mp hsorted x hsub
  have hx : x ∈ l := hperm.subset (hsub.subset List.mem_cons_self)
  have hy : y ∈ l := hperm.subset (hsub.subset (List.mem_cons_of_mem _ List.mem_cons_self))
  refine (pair_sublist_or hx hy hne).resolve_right fun hother => ?_
  exact not_pair_sublist hsorted hsub (h.pair_sublist_mergeSort hback hother)

/-- Two orders of the same elements are sorted alike exactly when those that the order takes for
equal stand alike in both. -/
theorem mergeSort_eq_iff (h : TotalPreorder le) (hnodup : l.Nodup) (hperm : l' ~ l) :
    l'.mergeSort le = l.mergeSort le ↔
      ∀ x y, le x y = true → le y x = true → [x, y] <+ l' → [x, y] <+ l := by
  have hnodup' : l'.Nodup := hperm.nodup_iff.mpr hnodup
  constructor
  · intro heq x y hxy hyx hsub
    exact h.pair_sublist_of_mergeSort hnodup hyx (heq ▸ h.pair_sublist_mergeSort hxy hsub)
  · intro halike
    -- Sorting goes by the order, and among equal elements by their places in `l`.
    have hanti : ∀ x y, x ∈ l'.mergeSort le → y ∈ l.mergeSort le →
        le x y = true ∧ (le y x = true → [x, y] <+ l) →
          le y x = true ∧ (le x y = true → [y, x] <+ l) → x = y := by
      rintro x y - - ⟨hxy, hplace⟩ ⟨hyx, hplace'⟩
      exact absurd (hplace' hxy) (not_pair_sublist hnodup (hplace hyx))
    refine List.Perm.eq_of_pairwise hanti ?_ ?_
      (((List.mergeSort_perm l' le).trans hperm).trans (List.mergeSort_perm l le).symm)
    · refine List.pairwise_iff_forall_sublist.mpr fun {x y} hsub => ?_
      have hxy := (h.pairwise_mergeSort l').forall_sublist hsub
      exact ⟨hxy, fun hyx => halike x y hxy hyx (h.pair_sublist_of_mergeSort hnodup' hyx hsub)⟩
    · refine List.pairwise_iff_forall_sublist.mpr fun {x y} hsub => ?_
      exact ⟨(h.pairwise_mergeSort l).forall_sublist hsub,
        fun hyx => h.pair_sublist_of_mergeSort hnodup hyx hsub⟩

end TotalPreorder

end AnvilRun.SortedLists
