import Mathlib.Data.List.Basic
import AnvilRun.TransitionSystem

namespace AnvilRun.ClientLogGateway

open scoped List

variable {TaskId : Type}

def maxSubscriptions : Nat := 8

/-- A subscriber of a task's log. Every call of `logs.subscribe` makes a new one. -/
structure Subscription (TaskId : Type) where
  taskId : TaskId
  subscriber : Nat
  deriving DecidableEq

/-- What a message handler waits for. -/
inductive Awaiting (TaskId : Type) where
  | authentication
  | access (taskId : TaskId)
  | history (taskId : TaskId)

/-- One socket: its entry in `states`, the `ClientState`, what `TaskLogsService` has registered
for it, and the handlers that are waiting. -/
structure State (TaskId : Type) where
  /-- `states` has the socket. -/
  recorded : Bool
  actor : Bool
  subscriptions : List (Subscription TaskId)
  subscribers : List (Subscription TaskId)
  created : Nat
  awaiting : List (Awaiting TaskId)

def initialState : State TaskId :=
  ⟨true, false, [], [], 0, []⟩

/-- A message with valid fields, or one that is refused. -/
inductive ClientMessage (TaskId : Type) where
  | auth
  | subscribe (taskId : TaskId)
  | unsubscribe (taskId : TaskId)
  | invalid

inductive Event (TaskId : Type) where
  | message (message : ClientMessage TaskId)
  /-- What the handler at this index waits for succeeds or fails. -/
  | settled (index : Nat) (succeeded : Bool)
  /-- The socket closes, or any other part of the gateway closes it. -/
  | closed

section Steps

variable [DecidableEq TaskId]

namespace State

/-- The function that `logs.subscribe` returned. -/
def unsubscribe (state : State TaskId) (subscription : Subscription TaskId) : State TaskId :=
  { state with subscribers := state.subscribers.filter (fun x => x ≠ subscription) }

def removeSubscription (state : State TaskId) (taskId : TaskId) : State TaskId :=
  match state.subscriptions.find? (fun x => x.taskId = taskId) with
  | none => state
  | some subscription =>
      { state.unsubscribe subscription with
        subscriptions := state.subscriptions.filter (fun x => x.taskId ≠ taskId) }

def clearSubscriptions (state : State TaskId) : State TaskId :=
  { state with
    subscribers := state.subscribers.filter (fun x => !state.subscriptions.contains x)
    subscriptions := [] }

/-- `remove`, which `close` calls first. -/
def remove (state : State TaskId) : State TaskId :=
  if state.recorded then { state.clearSubscriptions with recorded := false } else state

/-- The start of `subscribe`, up to the check of the access. -/
def subscribe (state : State TaskId) (taskId : TaskId) : State TaskId :=
  let state := state.removeSubscription taskId
  if maxSubscriptions ≤ state.subscriptions.length then state.remove
  else { state with awaiting := state.awaiting ++ [.access taskId] }

/-- The rest of `subscribe` up to the first read of the history. The map of subscriptions holds
one entry for a task. -/
def register (state : State TaskId) (taskId : TaskId) : State TaskId :=
  { state with
    subscribers := state.subscribers ++ [⟨taskId, state.created⟩]
    subscriptions :=
      state.subscriptions.filter (fun x => x.taskId ≠ taskId) ++ [⟨taskId, state.created⟩]
    created := state.created + 1
    awaiting := state.awaiting ++ [.history taskId] }

/-- `handleMessage` up to its first `await`. -/
def handleMessage (state : State TaskId) (message : ClientMessage TaskId) : State TaskId :=
  if state.recorded = false then state
  else if state.actor = false then
    match message with
    | .auth => { state with awaiting := state.awaiting ++ [.authentication] }
    | _ => state.remove
  else
    match message with
    | .subscribe taskId => state.subscribe taskId
    | .unsubscribe taskId => state.removeSubscription taskId
    | _ => state.remove

/-- How a handler goes on. Reading the history takes several steps, of which only a failure
changes the subscriptions. -/
def goOn (state : State TaskId) : Awaiting TaskId → Bool → State TaskId
  | .authentication, true => { state with actor := true }
  | .authentication, false => state.remove
  | .access taskId, true => state.register taskId
  | .access _, false => state.remove
  | .history _, true => state
  | .history taskId, false => (state.removeSubscription taskId).remove

def step (state : State TaskId) : Event TaskId → State TaskId
  | .message message => state.handleMessage message
  | .settled index succeeded =>
      match state.awaiting[index]? with
      | none => state
      | some awaiting =>
          goOn { state with awaiting := state.awaiting.eraseIdx index } awaiting succeeded
  | .closed => state.remove

end State

/-- The state behind a run of events, in any interleaving. -/
def run (events : List (Event TaskId)) : State TaskId :=
  events.foldl State.step initialState

end Steps

/-! Subscriptions that are kept track of -/

/-- The limit holds, every registered subscriber is one that `unsubscribe` and `remove` find, and
nothing is left when the socket is closed and no handler waits. -/
structure Sound (state : State TaskId) : Prop where
  limited : state.subscriptions.length ≤ maxSubscriptions
  tracked : ∀ x ∈ state.subscribers, state.recorded = true ∧ x ∈ state.subscriptions
  released : state.recorded = false → state.awaiting = [] → state.subscribers = []

/-- When the access to a task is granted, the socket is open, and has no subscription of this task
and fewer of others than the limit allows. -/
def Orderly (state : State TaskId) (event : Event TaskId) : Prop :=
  ∀ index taskId, event = .settled index true →
    state.awaiting[index]? = some (.access taskId) →
      state.recorded = true ∧ (∀ x ∈ state.subscriptions, x.taskId ≠ taskId) ∧
        state.subscriptions.length < maxSubscriptions

/-- Every entry of the map is registered and is the only one of its task, and later subscribers
will be others. -/
structure Linked (state : State TaskId) : Prop where
  sound : Sound state
  unique : ∀ x ∈ state.subscriptions, ∀ y ∈ state.subscriptions, x.taskId = y.taskId → x = y
  registered : ∀ x ∈ state.subscriptions, x ∈ state.subscribers
  fresh : ∀ x ∈ state.subscribers, x.subscriber < state.created

theorem sound_of_tracked {state : State TaskId}
    (hlimited : state.subscriptions.length ≤ maxSubscriptions)
    (htracked : ∀ x ∈ state.subscribers, state.recorded = true ∧ x ∈ state.subscriptions) :
    Sound state := by
  refine ⟨hlimited, htracked, fun hclosed _ => List.eq_nil_iff_forall_not_mem.mpr fun x hx => ?_⟩
  rw [(htracked x hx).1] at hclosed
  cases hclosed

theorem initialState_linked : Linked (initialState : State TaskId) :=
  ⟨sound_of_tracked (Nat.zero_le _) (fun _ hx => absurd hx List.not_mem_nil),
    fun _ hx => absurd hx List.not_mem_nil, fun _ hx => absurd hx List.not_mem_nil,
    fun _ hx => absurd hx List.not_mem_nil⟩

/-- What waits does not matter. -/
theorem Linked.await {state : State TaskId} (h : Linked state) (actor : Bool)
    (awaiting : List (Awaiting TaskId)) :
    Linked { state with actor := actor, awaiting := awaiting } :=
  ⟨sound_of_tracked h.sound.limited h.sound.tracked, h.unique, h.registered, h.fresh⟩

variable [DecidableEq TaskId]

theorem Linked.removeSubscription {state : State TaskId} (h : Linked state) (taskId : TaskId) :
    Linked (state.removeSubscription taskId) := by
  unfold State.removeSubscription
  split
  · exact h
  · rename_i found hfound
    have hmem : found ∈ state.subscriptions := List.mem_of_find?_eq_some hfound
    have htask : found.taskId = taskId := by simpa using List.find?_some hfound
    refine ⟨sound_of_tracked ?_ fun x hx => ?_, fun x hx y hy => ?_, fun x hx => ?_, fun x hx => ?_⟩
    · exact Nat.le_trans (List.length_filter_le _ _) h.sound.limited
    · obtain ⟨hx, hne⟩ := List.mem_filter.mp hx
      have hnotFound : x ≠ found := by simpa using hne
      obtain ⟨hrecorded, htracked⟩ := h.sound.tracked x hx
      refine ⟨hrecorded, List.mem_filter.mpr ⟨htracked, ?_⟩⟩
      simpa using fun hsame : x.taskId = taskId =>
        hnotFound (h.unique x htracked found hmem (hsame.trans htask.symm))
    · exact h.unique x (List.mem_filter.mp hx).1 y (List.mem_filter.mp hy).1
    · obtain ⟨hx, hne⟩ := List.mem_filter.mp hx
      refine List.mem_filter.mpr ⟨h.registered x hx, ?_⟩
      have hother : x.taskId ≠ taskId := by simpa using hne
      simpa using fun hsame : x = found => hother (hsame ▸ htask)
    · exact h.fresh x (List.mem_filter.mp hx).1

theorem Linked.remove {state : State TaskId} (h : Linked state) : Linked state.remove := by
  unfold State.remove
  split
  · -- every subscriber was in the map, so all of them are gone
    have hnone : state.clearSubscriptions.subscribers = [] := by
      refine List.filter_eq_nil_iff.mpr fun x hx => ?_
      simpa using (h.sound.tracked x hx).2
    refine ⟨sound_of_tracked (Nat.zero_le _) fun x hx => ?_, fun x hx => ?_, fun x hx => ?_,
      fun x hx => ?_⟩
    · exact absurd (hnone ▸ hx) List.not_mem_nil
    · exact absurd hx List.not_mem_nil
    · exact absurd hx List.not_mem_nil
    · exact absurd (hnone ▸ hx) List.not_mem_nil
  · exact h

theorem Linked.subscribe {state : State TaskId} (h : Linked state) (taskId : TaskId) :
    Linked (state.subscribe taskId) := by
  unfold State.subscribe
  dsimp only
  split
  · exact (h.removeSubscription taskId).remove
  · exact (h.removeSubscription taskId).await _ _

theorem Linked.handleMessage {state : State TaskId} (h : Linked state)
    (message : ClientMessage TaskId) : Linked (state.handleMessage message) := by
  unfold State.handleMessage
  split
  · exact h
  · split
    · cases message with
      | auth => exact h.await _ _
      | _ => exact h.remove
    · cases message with
      | subscribe taskId => exact h.subscribe taskId
      | unsubscribe taskId => exact h.removeSubscription taskId
      | _ => exact h.remove

/-- A new subscriber is tracked exactly when the grant finds the socket in order. -/
theorem Linked.register_iff {state : State TaskId} (h : Linked state) (taskId : TaskId) :
    Sound (state.register taskId) ↔
      state.recorded = true ∧ (∀ x ∈ state.subscriptions, x.taskId ≠ taskId) ∧
        state.subscriptions.length < maxSubscriptions := by
  constructor
  · intro hsound
    have hother : ∀ x ∈ state.subscriptions, x.taskId ≠ taskId := by
      intro x hx htask
      have hkept := (hsound.tracked x (List.mem_append_left _ (h.registered x hx))).2
      obtain hkept | hnew := List.mem_append.mp hkept
      · have hne : x.taskId ≠ taskId := by simpa using (List.mem_filter.mp hkept).2
        exact hne htask
      · have hfresh := h.fresh x (h.registered x hx)
        rw [List.mem_singleton.mp hnew] at hfresh
        exact absurd hfresh (Nat.lt_irrefl _)
    have hfilter : state.subscriptions.filter (fun x => x.taskId ≠ taskId) = state.subscriptions :=
      List.filter_eq_self.mpr fun x hx => by simpa using hother x hx
    have hlimited := hsound.limited
    refine ⟨(hsound.tracked ⟨taskId, state.created⟩ (List.mem_append_right _ ?_)).1, hother, ?_⟩
    · exact List.mem_singleton.mpr rfl
    · rw [State.register, hfilter, List.length_append, List.length_singleton] at hlimited
      exact hlimited
  · rintro ⟨hrecorded, hother, hroom⟩
    have hfilter : state.subscriptions.filter (fun x => x.taskId ≠ taskId) = state.subscriptions :=
      List.filter_eq_self.mpr fun x hx => by simpa using hother x hx
    refine sound_of_tracked ?_ fun x hx => ⟨hrecorded, ?_⟩
    · rw [State.register, hfilter, List.length_append, List.length_singleton]
      exact hroom
    · rw [State.register, hfilter]
      exact List.mem_append.mpr ((List.mem_append.mp hx).imp_left fun hold =>
        (h.sound.tracked x hold).2)

theorem Linked.register {state : State TaskId} (h : Linked state) {taskId : TaskId}
    (hsound : Sound (state.register taskId)) : Linked (state.register taskId) := by
  obtain ⟨-, hother, -⟩ := (h.register_iff taskId).mp hsound
  have hfilter : state.subscriptions.filter (fun x => x.taskId ≠ taskId) = state.subscriptions :=
    List.filter_eq_self.mpr fun x hx => by simpa using hother x hx
  refine ⟨hsound, fun x hx y hy htask => ?_, fun x hx => ?_, fun x hx => ?_⟩
  · rw [State.register, hfilter] at hx hy
    obtain hx | hx := List.mem_append.mp hx <;> obtain hy | hy := List.mem_append.mp hy
    · exact h.unique x hx y hy htask
    · rw [List.mem_singleton.mp hy] at htask
      exact absurd htask (hother x hx)
    · rw [List.mem_singleton.mp hx] at htask
      exact absurd htask.symm (hother y hy)
    · exact (List.mem_singleton.mp hx).trans (List.mem_singleton.mp hy).symm
  · rw [State.register, hfilter] at hx
    exact List.mem_append.mpr ((List.mem_append.mp hx).imp_left (h.registered x))
  · obtain hx | hx := List.mem_append.mp hx
    · exact Nat.lt_succ_of_lt (h.fresh x hx)
    · rw [List.mem_singleton.mp hx]
      exact Nat.lt_succ_self _

/-- A step keeps the subscribers linked exactly when it is orderly; it is unsound otherwise. -/
theorem Linked.step {state : State TaskId} (h : Linked state) (event : Event TaskId) :
    (Sound (state.step event) ↔ Orderly state event) ∧
      (Sound (state.step event) → Linked (state.step event)) := by
  have hkept : Linked (state.step event) → Orderly state event →
      (Sound (state.step event) ↔ Orderly state event) ∧
        (Sound (state.step event) → Linked (state.step event)) :=
    fun hlinked horderly => ⟨iff_of_true hlinked.sound horderly, fun _ => hlinked⟩
  cases event with
  | message message =>
      exact hkept (h.handleMessage message) fun _ _ hevent => nomatch hevent
  | closed => exact hkept h.remove fun _ _ hevent => nomatch hevent
  | settled index succeeded =>
      cases hawaiting : state.awaiting[index]? with
      | none =>
          refine hkept ?_ ?_
          · rw [State.step, hawaiting]
            exact h
          · rintro i taskId ⟨⟩ hsome
            cases hawaiting.symm.trans hsome
      | some awaiting =>
          have hrest := h.await state.actor (state.awaiting.eraseIdx index)
          have hstep : state.step (.settled index succeeded) =
              State.goOn { state with awaiting := state.awaiting.eraseIdx index }
                awaiting succeeded := by
            rw [State.step, hawaiting]
          have horderly : (∀ taskId, awaiting = .access taskId → succeeded = false) →
              Orderly state (.settled index succeeded) := by
            rintro hother i taskId ⟨⟩ hsome
            cases hawaiting.symm.trans hsome
            cases hother taskId rfl
          rw [hstep] at hkept ⊢
          cases awaiting with
          | authentication =>
              refine hkept ?_ (horderly fun _ hother => nomatch hother)
              cases succeeded with
              | true => exact hrest.await _ _
              | false => exact hrest.remove
          | history taskId =>
              refine hkept ?_ (horderly fun _ hother => nomatch hother)
              cases succeeded with
              | true => exact hrest
              | false => exact (hrest.removeSubscription taskId).remove
          | access taskId =>
              cases succeeded with
              | false => exact hkept hrest.remove (horderly fun _ _ => rfl)
              | true =>
                  refine ⟨(hrest.register_iff taskId).trans ?_, hrest.register⟩
                  constructor
                  · rintro hroom i other ⟨⟩ hsome
                    cases hawaiting.symm.trans hsome
                    exact hroom
                  · exact fun horderly => horderly index taskId rfl hawaiting

/-- In a run the bookkeeping is sound throughout exactly when every grant finds the socket in
order. -/
theorem sound_run_iff (events : List (Event TaskId)) :
    (∀ before, before <+: events → Sound (run before)) ↔
      ∀ before event, before ++ [event] <+: events → Orderly (run before) event :=
  forall_prefix_iff initialState_linked (fun _ h => h.sound) (fun _ event h => (h.step event).1)
    (fun _ event h => (h.step event).2) events

/-- Two subscriptions of one task, the second before the access of the first is checked. -/
def twoSubscriptions : List (Event String) :=
  [.message .auth, .settled 0 true,
    .message (.subscribe "0b8f6c9e-52a1-4c36-9d0e-7f3a1e5b2c4d"),
    .message (.subscribe "0b8f6c9e-52a1-4c36-9d0e-7f3a1e5b2c4d"),
    .settled 0 true, .settled 0 true, .settled 0 true, .settled 0 true, .closed]

/-- The first of the two subscribers stays registered when the socket is closed. -/
theorem twoSubscriptions_not_sound :
    (run twoSubscriptions).recorded = false ∧ (run twoSubscriptions).awaiting = [] ∧
      (run twoSubscriptions).subscribers ≠ [] ∧ ¬ Sound (run twoSubscriptions) := by
  have hclosed : (run twoSubscriptions).recorded = false := by decide
  have hfinished : (run twoSubscriptions).awaiting = [] := by rfl
  have hleft : (run twoSubscriptions).subscribers ≠ [] := by decide
  exact ⟨hclosed, hfinished, hleft, fun hsound => hleft (hsound.released hclosed hfinished)⟩

end AnvilRun.ClientLogGateway
