namespace AnvilRun

/-- A system of states and steps. -/
structure TransitionSystem (State : Type) where
  init : State → Prop
  step : State → State → Prop

namespace TransitionSystem

variable {State : Type}

inductive Reachable (sys : TransitionSystem State) : State → Prop
  | init {s : State} (h : sys.init s) : Reachable sys s
  | step {s t : State} (hs : Reachable sys s) (h : sys.step s t) : Reachable sys t

/-- The system that takes only steps that meet a condition. -/
def restrict (sys : TransitionSystem State) (guard : State → State → Prop) :
    TransitionSystem State where
  init := sys.init
  step := fun s t => sys.step s t ∧ guard s t

/-- What holds at the start and is kept by the steps from reachable states holds throughout. -/
theorem Reachable.invariant {sys : TransitionSystem State} {p : State → Prop}
    (hinit : ∀ s, sys.init s → p s)
    (hstep : ∀ s t, sys.Reachable s → p s → sys.step s t → p t) {s : State}
    (hs : sys.Reachable s) : p s := by
  induction hs with
  | init h => exact hinit _ h
  | step hs h ih => exact hstep _ _ hs ih h

end TransitionSystem

/-! Runs of a machine whose next state is a function of the event -/

section Machine

open scoped List

variable {State Event : Type}

/-- A machine stays good throughout a run exactly when every step of the run meets a condition,
if the condition says of each step from a state with the invariant whether it leads to a good
state, and good steps keep the invariant. -/
theorem forall_prefix_iff {step : State → Event → State} {good invariant : State → Prop}
    {guard : State → Event → Prop} {start : State} (hstart : invariant start)
    (hgood : ∀ s, invariant s → good s)
    (hguard : ∀ s event, invariant s → (good (step s event) ↔ guard s event))
    (hstep : ∀ s event, invariant s → good (step s event) → invariant (step s event))
    (events : List Event) :
    (∀ before, before <+: events → good (before.foldl step start)) ↔
      ∀ before event, before ++ [event] <+: events → guard (before.foldl step start) event := by
  induction events generalizing start with
  | nil =>
      constructor
      · intro _ before event hbefore
        exact absurd (List.prefix_nil.mp hbefore) (by simp)
      · intro _ before hbefore
        rw [List.prefix_nil.mp hbefore]
        exact hgood _ hstart
  | cons first events ih =>
      constructor
      · intro h
        have hfirst : good (step start first) := h [first] ⟨events, rfl⟩
        have hrest := (ih (hstep _ _ hstart hfirst)).mp fun before hbefore =>
          h (first :: before) (List.cons_prefix_cons.mpr ⟨rfl, hbefore⟩)
        intro before event hbefore
        cases before with
        | nil =>
            obtain ⟨rfl, -⟩ := List.cons_prefix_cons.mp hbefore
            exact (hguard _ _ hstart).mp hfirst
        | cons _ before =>
            obtain ⟨rfl, htail⟩ := List.cons_prefix_cons.mp hbefore
            exact hrest before event htail
      · intro h
        have hfirst : good (step start first) :=
          (hguard _ _ hstart).mpr (h [] first (List.cons_prefix_cons.mpr ⟨rfl, List.nil_prefix⟩))
        have hrest := (ih (hstep _ _ hstart hfirst)).mpr fun before event hbefore =>
          h (first :: before) event (List.cons_prefix_cons.mpr ⟨rfl, hbefore⟩)
        intro before hbefore
        cases before with
        | nil => exact hgood _ hstart
        | cons _ before =>
            obtain ⟨rfl, htail⟩ := List.cons_prefix_cons.mp hbefore
            exact hrest before htail

end Machine

end AnvilRun
