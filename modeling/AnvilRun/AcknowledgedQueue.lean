import Mathlib.Data.List.Basic

namespace AnvilRun

/-- A queue of numbered entries. An acknowledgement takes out everything up to its number. -/
structure AcknowledgedQueue (α : Type) where
  entries : List α
  acknowledged : Nat
  last : Nat

namespace AcknowledgedQueue

variable {α : Type} (number : α → Nat)

def empty : AcknowledgedQueue α := ⟨[], 0, 0⟩

def append (queue : AcknowledgedQueue α) (a : α) : AcknowledgedQueue α :=
  { queue with
    entries := queue.entries ++ [a]
    last := number a }

def acknowledge (queue : AcknowledgedQueue α) (n : Nat) : AcknowledgedQueue α :=
  { queue with
    entries := queue.entries.filter (n < number ·)
    acknowledged := max queue.acknowledged n }

variable {number}

/-- The entries behind `n` are those behind `n` of the ones behind a smaller number. -/
theorem filter_filter_of_le {m n : Nat} (h : m ≤ n) (as : List α) :
    (as.filter (m < number ·)).filter (n < number ·) = as.filter (n < number ·) := by
  rw [List.filter_filter]
  apply List.filter_congr
  intro a _
  rw [Bool.eq_iff_iff, Bool.and_eq_true, decide_eq_true_eq, decide_eq_true_eq]
  constructor
  · exact fun h => h.1
  · intro hn
    exact ⟨hn, Nat.lt_of_le_of_lt h hn⟩

/-- An acknowledgement of what is acknowledged already changes nothing. -/
theorem acknowledge_of_le {queue : AcknowledgedQueue α} {n : Nat} (h : n ≤ queue.acknowledged)
    (hentries : ∀ a ∈ queue.entries, queue.acknowledged < number a) :
    queue.acknowledge number n = queue := by
  have hall : queue.entries.filter (n < number ·) = queue.entries := by
    apply List.filter_eq_self.mpr
    intro a ha
    exact decide_eq_true (Nat.lt_of_le_of_lt h (hentries a ha))
  rw [acknowledge, hall, Nat.max_eq_left h]

end AcknowledgedQueue

end AnvilRun
