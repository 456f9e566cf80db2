import Mathlib.Data.List.Dedup
import Mathlib.Data.List.Perm.Subperm

namespace AnvilRun.RecentWindow

open scoped List

variable {α : Type}

/-- The newest entries of a history, at most `size` of them. -/
def newest (size : Nat) (history : List α) : List α :=
  history.drop (history.length - size)

/-- Entries leave at the front until at most `size` are left. -/
def popFront (size : Nat) : List α → List α
  | [] => []
  | a :: as => if size < (a :: as).length then popFront size as else a :: as

theorem popFront_eq_newest (size : Nat) (as : List α) : popFront size as = newest size as := by
  induction as with
  | nil => exact List.drop_nil.symm
  | cons a as ih =>
      rw [popFront]
      by_cases h : size < (a :: as).length
      · have hcount : (a :: as).length - size = (as.length - size) + 1 := by
          rw [List.length_cons] at h ⊢
          omega
        rw [if_pos h, ih, newest, newest, hcount, List.drop_succ_cons]
      · rw [if_neg h, newest, Nat.sub_eq_zero_of_le (Nat.not_lt.mp h), List.drop_zero]

/-- The window moves on by one entry. -/
theorem popFront_newest_concat (size : Nat) (history : List α) (a : α) :
    popFront size (newest size history ++ [a]) = newest size (history ++ [a]) := by
  rw [popFront_eq_newest, newest, newest, newest]
  by_cases h : history.length ≤ size
  · rw [Nat.sub_eq_zero_of_le h, List.drop_zero]
  · have hlength : (history.drop (history.length - size) ++ [a]).length - size = 1 := by
      simp only [List.length_append, List.length_drop, List.length_singleton]
      omega
    have hcount : (history ++ [a]).length - size = (history.length - size) + 1 := by
      simp only [List.length_append, List.length_singleton]
      omega
    have hle : history.length - size + 1 ≤ (history ++ [a]).length := by
      simp only [List.length_append, List.length_singleton]
      omega
    have hfirst : history.drop (history.length - size) ++ [a]
        = (history ++ [a]).drop (history.length - size) := by
      rw [List.drop_append_of_le_length (by omega)]
    rw [hlength, hcount, hfirst, List.drop_drop]

/-- An entry with fewer than `size` others behind it is among the newest. -/
theorem mem_newest {size : Nat} {as bs : List α} {a : α} (h : bs.length < size) :
    a ∈ newest size (as ++ a :: bs) := by
  have hle : (as ++ a :: bs).length - size ≤ as.length := by
    simp only [List.length_append, List.length_cons]
    omega
  rw [newest, List.drop_append_of_le_length hle]
  exact List.mem_append_right _ List.mem_cons_self

variable [DecidableEq α]

/-- How many different others there have been since the first occurrence of an entry. -/
def othersSince (a : α) (history : List α) : Nat :=
  ((history.dropWhile (· ≠ a)).filter (· ≠ a)).dedup.length

theorem cons_sublist_dropWhile {a : α} {as history : List α} (h : a :: as <+ history) :
    a :: as <+ history.dropWhile (· ≠ a) := by
  induction history with
  | nil => exact absurd (List.sublist_nil.mp h) (List.cons_ne_nil a as)
  | cons b history ih =>
      by_cases hb : b = a
      · rw [List.dropWhile_cons_of_neg (by simp [hb])]
        exact h
      · rw [List.dropWhile_cons_of_pos (by simp [hb])]
        rcases List.sublist_cons_iff.mp h with h | ⟨rest, heq, -⟩
        · exact ih h
        · exact absurd (List.cons.inj heq).1.symm hb

/-- A record without repetitions of a part of the history keeps an entry in its window for as long
as few others have come since. -/
theorem mem_newest_of_othersSince {size : Nat} {record history : List α} {a : α}
    (hsublist : record <+ history) (hnodup : record.Nodup) (hmem : a ∈ record)
    (hfew : othersSince a history < size) : a ∈ newest size record := by
  obtain ⟨as, bs, rfl⟩ := List.append_of_mem hmem
  apply mem_newest
  have hbs : (a :: bs).Nodup := (List.nodup_append.mp hnodup).2.1
  rw [List.nodup_cons] at hbs
  have hrest : a :: bs <+ history.dropWhile (· ≠ a) :=
    cons_sublist_dropWhile ((List.sublist_append_right as (a :: bs)).trans hsublist)
  have hsubset : bs ⊆ ((history.dropWhile (· ≠ a)).filter (· ≠ a)).dedup := by
    intro b hb
    rw [List.mem_dedup, List.mem_filter]
    refine ⟨hrest.subset (List.mem_cons_of_mem a hb), ?_⟩
    have hne : b ≠ a := by
      rintro rfl
      exact hbs.1 hb
    simpa using hne
  have hlength := (List.subperm_of_subset hbs.2 hsubset).length_le
  exact Nat.lt_of_le_of_lt hlength hfew

end AnvilRun.RecentWindow
