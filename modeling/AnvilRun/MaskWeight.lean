import AnvilRun.Masking

namespace AnvilRun.MaskWeight

open AnvilRun.Replacement
open AnvilRun.Masking

universe u

variable {α : Type u} [DecidableEq α]

/-- Scanning state of `occurrences`: the first argument counts the symbols of a match that still
have to be skipped. -/
def occurrencesFrom (p : List α) : Nat → List α → Nat
  | _, [] => 0
  | k + 1, _ :: s => occurrencesFrom p k s
  | 0, a :: s =>
      if p <+: a :: s then occurrencesFrom p (p.length - 1) s + 1 else occurrencesFrom p 0 s

/-- The number of leftmost non-overlapping occurrences. -/
def occurrences (p s : List α) : Nat :=
  occurrencesFrom p 0 s

/-- The values, each with the number of times that it is masked. -/
def maskCounts (mask : List α) : List (List α) → List α → List (List α × Nat)
  | [], _ => []
  | value :: values, s =>
      (value, occurrences value s) :: maskCounts mask values (replaceAll value mask s)

/-- The sum of a measure over all that is masked. -/
def maskedSum (measure : List α → Nat) (mask : List α) (values : List (List α)) (s : List α) :
    Nat :=
  (maskCounts mask values s).foldr (fun count total => measure count.1 * count.2 + total) 0

theorem occurrencesFrom_eq_drop (p : List α) (k : Nat) (s : List α) :
    occurrencesFrom p k s = occurrences p (s.drop k) := by
  induction s generalizing k with
  | nil => simp [occurrencesFrom, occurrences]
  | cons a s ih =>
      cases k with
      | zero => rfl
      | succ k => exact ih k

@[simp]
theorem occurrences_nil (p : List α) : occurrences p [] = 0 := rfl

theorem occurrences_hit {p : List α} (hp : p ≠ []) (s : List α) :
    occurrences p (p ++ s) = occurrences p s + 1 := by
  obtain ⟨a, p, rfl⟩ := List.exists_cons_of_ne_nil hp
  have hpre : a :: p <+: a :: (p ++ s) := ⟨s, rfl⟩
  simp only [List.cons_append, occurrences, occurrencesFrom, hpre, if_true, List.length_cons,
    Nat.add_sub_cancel]
  rw [occurrencesFrom_eq_drop, List.drop_left]
  rfl

theorem occurrences_miss {p : List α} {a : α} {s : List α} (h : ¬ p <+: a :: s) :
    occurrences p (a :: s) = occurrences p s := by
  simp [occurrences, occurrencesFrom, h]

@[simp]
theorem maskedSum_no_values (measure : List α → Nat) (mask s : List α) :
    maskedSum measure mask [] s = 0 := rfl

@[simp]
theorem maskedSum_cons (measure : List α → Nat) (mask value : List α) (values : List (List α))
    (s : List α) :
    maskedSum measure mask (value :: values) s =
      measure value * occurrences value s +
        maskedSum measure mask values (replaceAll value mask s) := by
  simp [maskedSum, maskCounts]

/-- Values that measure more sum up to more. -/
theorem maskedSum_mono {measure measure' : List α → Nat} {values : List (List α)}
    (h : ∀ value ∈ values, measure value ≤ measure' value) (mask s : List α) :
    maskedSum measure mask values s ≤ maskedSum measure' mask values s := by
  induction values generalizing s with
  | nil => exact Nat.le_refl 0
  | cons value values ih =>
      rw [List.forall_mem_cons] at h
      rw [maskedSum_cons, maskedSum_cons]
      exact Nat.add_le_add (Nat.mul_le_mul_right _ h.1) (ih h.2 _)

theorem maskedSum_const (n : Nat) (mask : List α) (values : List (List α)) (s : List α) :
    maskedSum (fun _ => n) mask values s = n * maskedSum (fun _ => 1) mask values s := by
  induction values generalizing s with
  | nil => rfl
  | cons value values ih =>
      rw [maskedSum_cons, maskedSum_cons, ih, Nat.mul_add, Nat.one_mul]

section Weight

variable {weight : List α → Nat} (hadd : ∀ x y, weight (x ++ y) = weight x + weight y)

include hadd

/-- Each replacement takes the weight of the pattern away and puts that of the replacement. -/
theorem weight_replaceAll {p : List α} (hp : p ≠ []) (r s : List α) :
    weight (replaceAll p r s) + weight p * occurrences p s =
      weight s + weight r * occurrences p s := by
  induction s using replaceAll_induction hp with
  | nil => simp
  | hit s ih =>
      rw [replaceAll_hit hp, occurrences_hit hp, hadd, hadd, Nat.mul_add, Nat.mul_add]
      omega
  | miss a s hmiss ih =>
      have hcons : ∀ t : List α, weight (a :: t) = weight [a] + weight t := fun t => hadd [a] t
      rw [replaceAll_miss hmiss, occurrences_miss hmiss, hcons, hcons s]
      omega

theorem weight_maskAll {values : List (List α)} (hvalues : ∀ value ∈ values, value ≠ [])
    (mask s : List α) :
    weight (maskAll mask values s) + maskedSum weight mask values s =
      weight s + weight mask * maskedSum (fun _ => 1) mask values s := by
  induction values generalizing s with
  | nil => simp
  | cons value values ih =>
      rw [List.forall_mem_cons] at hvalues
      have hfirst := weight_replaceAll hadd hvalues.1 mask s
      have hrest := ih hvalues.2 (replaceAll value mask s)
      rw [maskAll_cons, maskedSum_cons, maskedSum_cons, Nat.one_mul, Nat.mul_add]
      omega

/-- Masking values that are no lighter than the mask makes no text heavier. -/
theorem weight_maskAll_le {values : List (List α)} (hvalues : ∀ value ∈ values, value ≠ [])
    {mask : List α} (hmask : ∀ value ∈ values, weight mask ≤ weight value) (s : List α) :
    weight (maskAll mask values s) ≤ weight s := by
  have hweight := weight_maskAll hadd hvalues mask s
  have hsum := maskedSum_mono hmask mask s
  rw [maskedSum_const] at hsum
  omega

end Weight

end AnvilRun.MaskWeight
