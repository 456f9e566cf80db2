import Mathlib.Algebra.Order.Ring.Int
import Mathlib.Data.List.Basic
import Mathlib.Tactic.Linarith

namespace AnvilRun.FixedWindow

/-- Some events at their times, the first of which opens the window. -/
structure Window where
  start : Int
  later : List Int

def Window.times (window : Window) : List Int :=
  window.start :: window.later

/-- Each window holds at most `limit` events, all of them less than `width` behind its start, and
the next one starts when it is over. -/
structure Windowed (width : Int) (limit : Nat) (windows : List Window) : Prop where
  within : ∀ window ∈ windows, ∀ time ∈ window.later,
    window.start ≤ time ∧ time < window.start + width
  few : ∀ window ∈ windows, window.times.length ≤ limit
  apart : windows.Pairwise fun window next => window.start + width ≤ next.start

variable {width : Int} {limit : Nat} {windows : List Window} {window : Window}

theorem windowed_nil : Windowed width limit [] :=
  ⟨fun _ h => absurd h List.not_mem_nil, fun _ h => absurd h List.not_mem_nil, .nil⟩

theorem Windowed.of_append {others : List Window} (h : Windowed width limit (windows ++ others)) :
    Windowed width limit windows :=
  ⟨fun window hmem => h.within window (List.mem_append_left _ hmem),
    fun window hmem => h.few window (List.mem_append_left _ hmem),
    (List.pairwise_append.mp h.apart).1⟩

/-- A window behind the others. -/
theorem Windowed.append (h : Windowed width limit windows)
    (hwithin : ∀ time ∈ window.later, window.start ≤ time ∧ time < window.start + width)
    (hfew : window.times.length ≤ limit)
    (hapart : ∀ before ∈ windows, before.start + width ≤ window.start) :
    Windowed width limit (windows ++ [window]) where
  within := by
    intro other hmem
    rcases List.mem_append.mp hmem with hold | hnew
    · exact h.within other hold
    · obtain rfl := List.mem_singleton.mp hnew
      exact hwithin
  few := by
    intro other hmem
    rcases List.mem_append.mp hmem with hold | hnew
    · exact h.few other hold
    · obtain rfl := List.mem_singleton.mp hnew
      exact hfew
  apart := by
    refine List.pairwise_append.mpr ⟨h.apart, List.pairwise_singleton _ _, ?_⟩
    intro before hbefore next hnext
    obtain rfl := List.mem_singleton.mp hnext
    exact hapart before hbefore

theorem Windowed.last_apart (h : Windowed width limit (windows ++ [window])) :
    ∀ before ∈ windows, before.start + width ≤ window.start := fun before hbefore =>
  (List.pairwise_append.mp h.apart).2.2 before hbefore window (List.mem_singleton_self _)

/-! How many events fall into any interval -/

/-- The events in the interval of length `width` from `from'` on. -/
def inInterval (width start : Int) (time : Int) : Bool :=
  decide (start ≤ time) && decide (time < start + width)

/-- The window was open before the interval, or it opens in it. -/
def isEarly (width start : Int) (window : Window) : Bool :=
  decide (start - width < window.start) && decide (window.start < start)

def isLate (width start : Int) (window : Window) : Bool :=
  inInterval width start window.start

theorem length_le_one_of_apart (low : Int)
    (hapart : windows.Pairwise fun window next => window.start + width ≤ next.start)
    (hnear : ∀ window ∈ windows, low ≤ window.start ∧ window.start < low + width) :
    windows.length ≤ 1 := by
  match windows with
  | [] => exact Nat.zero_le _
  | [_] => exact le_rfl
  | first :: second :: _ =>
      have hnext := List.rel_of_pairwise_cons hapart (List.mem_cons_self ..)
      have hfirst := hnear first (List.mem_cons_self ..)
      have hsecond := hnear second (List.mem_cons_of_mem _ (List.mem_cons_self ..))
      omega

theorem countP_isLate_le (h : Windowed width limit windows) (start : Int) :
    windows.countP (isLate width start) ≤ 1 := by
  rw [List.countP_eq_length_filter]
  refine length_le_one_of_apart start (h.apart.sublist List.filter_sublist) ?_
  intro window hmem
  simpa [isLate, inInterval] using (List.mem_filter.mp hmem).2

theorem countP_isEarly_le (h : Windowed width limit windows) (start : Int) :
    windows.countP (isEarly width start) ≤ 1 := by
  rw [List.countP_eq_length_filter]
  refine length_le_one_of_apart (start - width + 1) (h.apart.sublist List.filter_sublist) ?_
  intro window hmem
  have hearly : start - width < window.start ∧ window.start < start := by
    simpa [isEarly] using (List.mem_filter.mp hmem).2
  omega

/-- What a window puts into the interval. The first event of an early window lies before it. -/
theorem countP_times_le (hwithin : ∀ time ∈ window.later,
      window.start ≤ time ∧ time < window.start + width)
    (hfew : window.times.length ≤ limit) (start : Int) :
    window.times.countP (inInterval width start) ≤
      (limit - 1) * (if isEarly width start window = true then 1 else 0) +
        limit * (if isLate width start window = true then 1 else 0) := by
  have hlength : window.later.length + 1 ≤ limit := hfew
  by_cases hlate : isLate width start window = true
  · rw [if_pos hlate, Nat.mul_one]
    exact List.countP_le_length.trans (hfew.trans (Nat.le_add_left _ _))
  · have hstart : ¬ inInterval width start window.start = true := hlate
    rw [Window.times, List.countP_cons_of_neg hstart]
    by_cases hearly : isEarly width start window = true
    · rw [if_pos hearly, Nat.mul_one]
      exact List.countP_le_length.trans (by omega)
    · -- the window is over before the interval, or starts behind it
      rw [List.countP_eq_zero.mpr]
      · exact Nat.zero_le _
      · intro time htime hin
        have hbounds := hwithin time htime
        simp only [isLate, isEarly, inInterval, Bool.and_eq_true, decide_eq_true_eq]
          at hlate hearly hin
        omega

theorem countP_flatMap_le (hwithin : ∀ window ∈ windows, ∀ time ∈ window.later,
      window.start ≤ time ∧ time < window.start + width)
    (hfew : ∀ window ∈ windows, window.times.length ≤ limit) (start : Int) :
    (windows.flatMap Window.times).countP (inInterval width start) ≤
      (limit - 1) * windows.countP (isEarly width start) +
        limit * windows.countP (isLate width start) := by
  induction windows with
  | nil => exact Nat.zero_le _
  | cons window windows ih =>
      obtain ⟨hhead, hwithin⟩ := List.forall_mem_cons.mp hwithin
      obtain ⟨hlength, hfew⟩ := List.forall_mem_cons.mp hfew
      rw [List.flatMap_cons, List.countP_append, List.countP_cons, List.countP_cons, Nat.mul_add,
        Nat.mul_add]
      have hwindow := countP_times_le hhead hlength start
      have hrest := ih hwithin hfew
      omega

/-- Fewer than twice as many events as a window may hold fall into any interval of its width. -/
theorem Windowed.countP_lt (h : Windowed width limit windows) (hlimit : 0 < limit) (start : Int) :
    (windows.flatMap Window.times).countP (inInterval width start) < 2 * limit := by
  have hcount := countP_flatMap_le h.within h.few start
  have hearly := Nat.mul_le_mul_left (limit - 1) (countP_isEarly_le h start)
  have hlate := Nat.mul_le_mul_left limit (countP_isLate_le h start)
  omega

end AnvilRun.FixedWindow
