import AnvilRun.TaskInputService

namespace AnvilRun.TaskInputService

open AnvilRun.TaskDatabase

def Phase.pending : Phase → Bool
  | .lookup => true
  | .awaiting => true
  | .done _ => false

/-- What holds throughout a run. -/
structure Invariant (s : Service) : Prop where
  own : ∀ taskId key, s.controllers taskId = some key →
    (s.objects key).taskId = taskId ∧ key < s.created
  call_own : ∀ i call, s.calls i = some call → call.controller < s.created ∧
    (s.objects call.controller).taskId = call.taskId ∧
    (s.objects call.controller).busy = true ∧
    (s.objects call.controller).lastSentAt = call.startedAt
  call_started : ∀ i call, s.calls i = some call → i < s.started ∧ call.startedAt ≤ s.now
  call_canonical : ∀ i call, s.calls i = some call → canonicalId call.taskId = call.taskId
  one_per_controller : ∀ i j call call', s.calls i = some call → s.calls j = some call' →
    call.controller = call'.controller → i = j
  pending_current : ∀ i call key, s.calls i = some call → call.phase.pending = true →
    s.controllers call.taskId = some key → key = call.controller
  one_pending : ∀ i j call call', s.calls i = some call → s.calls j = some call' →
    call.phase.pending = true → call'.phase.pending = true → call.taskId = call'.taskId → i = j
  delivered_before : ∀ delivery ∈ s.deliveries, ∀ key,
    s.controllers delivery.task = some key →
    delivery.startedAt + minInputIntervalMs ≤ s.now ∨
      delivery.startedAt ≤ (s.objects key).lastSentAt
  lookup_after : ∀ i call, s.calls i = some call → call.phase = .lookup →
    ∀ delivery ∈ s.deliveries, delivery.task = call.taskId →
    delivery.startedAt + minInputIntervalMs ≤ call.startedAt
  delivery_times : ∀ delivery ∈ s.deliveries,
    delivery.startedAt ≤ delivery.handedAt ∧ delivery.handedAt ≤ s.now
  starts_apart : s.deliveries.Pairwise fun newer older => newer.task = older.task →
    older.startedAt + minInputIntervalMs ≤ newer.startedAt
  handed_apart : s.evenLookups = true → s.deliveries.Pairwise fun newer older =>
    newer.task = older.task → older.handedAt + minInputIntervalMs ≤ newer.handedAt

variable {s : Service}

/-- Nothing changes but that controllers are dropped. -/
theorem Invariant.fewer (h : Invariant s) {controllers : JsString → Option Nat}
    (stdinClosedTasks : JsString → Bool)
    (hsub : ∀ taskId key, controllers taskId = some key → s.controllers taskId = some key) :
    Invariant { s with controllers, stdinClosedTasks } where
  own taskId key hkey := h.own taskId key (hsub taskId key hkey)
  call_own := h.call_own
  call_started := h.call_started
  call_canonical := h.call_canonical
  one_per_controller := h.one_per_controller
  pending_current i call key hcall hpending hkey :=
    h.pending_current i call key hcall hpending (hsub _ key hkey)
  one_pending := h.one_pending
  delivered_before delivery hmem key hkey :=
    h.delivered_before delivery hmem key (hsub _ key hkey)
  lookup_after := h.lookup_after
  delivery_times := h.delivery_times
  starts_apart := h.starts_apart
  handed_apart := h.handed_apart

theorem update_none_some {controllers : JsString → Option Nat} {taskId taskId' : JsString}
    {key : Nat} (h : Function.update controllers taskId none taskId' = some key) :
    controllers taskId' = some key := by
  by_cases heq : taskId' = taskId
  · rw [heq, Function.update_self] at h
    cases h
  · rwa [Function.update_of_ne heq] at h

theorem update_some_cases {κ α : Type} [DecidableEq κ] {f : κ → Option α} {key key' : κ} {a b : α}
    (h : Function.update f key (some a) key' = some b) :
    (key' = key ∧ b = a) ∨ (key' ≠ key ∧ f key' = some b) := by
  by_cases heq : key' = key
  · rw [heq, Function.update_self] at h
    exact .inl ⟨heq, (Option.some.inj h).symm⟩
  · rw [Function.update_of_ne heq] at h
    exact .inr ⟨heq, h⟩

theorem Invariant.deleteController (h : Invariant s) (taskId : JsString) :
    Invariant (s.deleteController taskId) :=
  h.fewer s.stdinClosedTasks fun _ _ hkey => update_none_some hkey

theorem Invariant.clearTaskState (h : Invariant s) (taskId : JsString) :
    Invariant (s.clearTaskState taskId) :=
  h.fewer _ fun _ _ hkey => update_none_some hkey

theorem Invariant.expireController (h : Invariant s) (taskId : JsString) :
    Invariant (s.expireController taskId) := by
  rw [Service.expireController]
  split
  · split
    · exact h.deleteController taskId
    · exact h
  · exact h

theorem Invariant.release (h : Invariant s) (actorId socket : Nat) (taskId : JsString) :
    Invariant (s.release actorId socket taskId) := by
  rw [Service.release]
  split
  · exact (h.expireController taskId).deleteController taskId
  · exact h.expireController taskId

theorem Invariant.releaseTask (h : Invariant s) (socket : Nat) (taskId : JsString) :
    Invariant (s.releaseTask socket taskId) := by
  rw [Service.releaseTask]
  split
  · exact h.deleteController taskId
  · exact h

theorem Invariant.releaseSocket (h : Invariant s) (socket : Nat) :
    Invariant (s.releaseSocket socket) := by
  refine h.fewer s.stdinClosedTasks fun taskId key hkey => ?_
  split at hkey
  · cases hkey
  · exact hkey

theorem Invariant.tick (h : Invariant s) (ms : Nat) :
    Invariant { s with now := s.now + ms } where
  own := h.own
  call_own := h.call_own
  call_started i call hcall :=
    ⟨(h.call_started i call hcall).1,
      Nat.le_trans (h.call_started i call hcall).2 (Nat.le_add_right _ _)⟩
  call_canonical := h.call_canonical
  one_per_controller := h.one_per_controller
  pending_current := h.pending_current
  one_pending := h.one_pending
  delivered_before delivery hmem key hkey :=
    (h.delivered_before delivery hmem key hkey).imp
      (fun hle => Nat.le_trans hle (Nat.le_add_right _ _)) fun hle => hle
  lookup_after := h.lookup_after
  delivery_times delivery hmem :=
    ⟨(h.delivery_times delivery hmem).1,
      Nat.le_trans (h.delivery_times delivery hmem).2 (Nat.le_add_right _ _)⟩
  starts_apart := h.starts_apart
  handed_apart := h.handed_apart

/-- Another time of the last activity is of no consequence. -/
theorem Invariant.touch (h : Invariant s) (key lastActivityAt : Nat) :
    Invariant (s.setController key { s.objects key with lastActivityAt }) := by
  have hobject : ∀ k, ((s.setController key { s.objects key with lastActivityAt }).objects k).taskId
        = (s.objects k).taskId ∧
      ((s.setController key { s.objects key with lastActivityAt }).objects k).busy
        = (s.objects k).busy ∧
      ((s.setController key { s.objects key with lastActivityAt }).objects k).lastSentAt
        = (s.objects k).lastSentAt := by
    intro k
    by_cases hk : k = key
    · subst hk
      simp [Service.setController]
    · simp [Service.setController, Function.update_of_ne hk]
  constructor
  · intro taskId k hk
    rw [(hobject k).1]
    exact h.own taskId k hk
  · intro i call hcall
    rw [(hobject call.controller).1, (hobject call.controller).2.1, (hobject call.controller).2.2]
    exact h.call_own i call hcall
  · exact h.call_started
  · exact h.call_canonical
  · exact h.one_per_controller
  · exact h.pending_current
  · exact h.one_pending
  · intro delivery hmem k hk
    rw [(hobject k).2.2]
    exact h.delivered_before delivery hmem k hk
  · exact h.lookup_after
  · exact h.delivery_times
  · exact h.starts_apart
  · exact h.handed_apart

/-- No call for the task is pending, and its last message started long enough ago. -/
def Rested (s : Service) (taskId : JsString) : Prop :=
  (∀ i call, s.calls i = some call → call.phase.pending = true → call.taskId ≠ taskId) ∧
    ∀ delivery ∈ s.deliveries, delivery.task = taskId →
      delivery.startedAt + minInputIntervalMs ≤ s.now

theorem Invariant.createController (h : Invariant s) {taskId : JsString}
    (hrested : Rested s taskId) (socket actorId : Nat) :
    Invariant (s.createController taskId socket actorId) := by
  have hold : ∀ k, k < s.created →
      (s.createController taskId socket actorId).objects k = s.objects k := by
    intro k hk
    exact Function.update_of_ne (Nat.ne_of_lt hk) _ _
  have hkey : ∀ taskId' k, (s.createController taskId socket actorId).controllers taskId' = some k →
      (taskId' = taskId ∧ k = s.created) ∨ s.controllers taskId' = some k :=
    fun taskId' k hk => (update_some_cases hk).imp_right And.right
  have hself : (s.createController taskId socket actorId).objects s.created =
      { taskId
        socket
        actorId
        lastActivityAt := s.now
        lastSentAt := 0
        busy := false } := Function.update_self ..
  constructor
  · intro taskId' k hk
    rcases hkey taskId' k hk with ⟨rfl, rfl⟩ | hk
    · rw [hself]
      exact ⟨rfl, Nat.lt_succ_self _⟩
    · obtain ⟨howner, hlt⟩ := h.own taskId' k hk
      rw [hold k hlt]
      exact ⟨howner, Nat.lt_succ_of_lt hlt⟩
  · intro i call hcall
    obtain ⟨hlt, hrest⟩ := h.call_own i call hcall
    rw [hold call.controller hlt]
    exact ⟨Nat.lt_succ_of_lt hlt, hrest⟩
  · exact h.call_started
  · exact h.call_canonical
  · exact h.one_per_controller
  · intro i call k hcall hpending hk
    rcases hkey call.taskId k hk with ⟨heq, -⟩ | hk
    · exact absurd heq (hrested.1 i call hcall hpending)
    · exact h.pending_current i call k hcall hpending hk
  · exact h.one_pending
  · intro delivery hmem k hk
    rcases hkey delivery.task k hk with ⟨heq, -⟩ | hk
    · exact .inl (hrested.2 delivery hmem heq)
    · rw [hold k (h.own delivery.task k hk).2]
      exact h.delivered_before delivery hmem k hk
  · exact h.lookup_after
  · exact h.delivery_times
  · exact h.starts_apart
  · exact h.handed_apart

/-- What a call may start on. -/
structure MayStart (s : Service) (taskId : JsString) (key : Nat) : Prop where
  canonical : canonicalId taskId = taskId
  current : s.controllers taskId = some key
  idle : (s.objects key).busy = false
  rested : minInputIntervalMs ≤ s.now - (s.objects key).lastSentAt

theorem Invariant.startSend (h : Invariant s) {taskId : JsString} {key : Nat}
    (hstart : MayStart s taskId key) (inputId : JsString) :
    Invariant (s.startSend taskId inputId key) := by
  obtain ⟨howner, hlt⟩ := h.own taskId key hstart.current
  have hfree : ∀ i call, s.calls i = some call → call.controller ≠ key := by
    rintro i call hcall rfl
    have hbusy := (h.call_own i call hcall).2.2.1
    rw [hstart.idle] at hbusy
    exact Bool.false_ne_true hbusy
  have hnone : ∀ i call, s.calls i = some call → call.phase.pending = true →
      call.taskId ≠ taskId := by
    rintro i call hcall hpending rfl
    exact hfree i call hcall (h.pending_current i call key hcall hpending hstart.current).symm
  have hafter : ∀ delivery ∈ s.deliveries, delivery.task = taskId →
      delivery.startedAt + minInputIntervalMs ≤ s.now := by
    rintro delivery hmem rfl
    have hrested := hstart.rested
    rcases h.delivered_before delivery hmem key hstart.current with hle | hle
    · exact hle
    · rw [minInputIntervalMs] at hrested ⊢
      omega
  have hobject : ∀ k, k ≠ key → (s.startSend taskId inputId key).objects k = s.objects k :=
    fun k hk => Function.update_of_ne hk _ _
  have hself : (s.startSend taskId inputId key).objects key =
      { s.objects key with
        busy := true
        lastActivityAt := s.now
        lastSentAt := s.now } := Function.update_self ..
  have hcalls : ∀ i call, (s.startSend taskId inputId key).calls i = some call →
      (i = s.started ∧ call =
        { taskId
          inputId
          controller := key
          startedAt := s.now
          phase := .lookup }) ∨ (i ≠ s.started ∧ s.calls i = some call) :=
    fun i call hcall => update_some_cases hcall
  constructor
  · intro taskId' k hk
    have hold := h.own taskId' k hk
    by_cases heq : k = key
    · rw [heq, hself]
      rw [heq] at hold
      exact hold
    · rw [hobject k heq]
      exact hold
  · intro i call hcall
    rcases hcalls i call hcall with ⟨-, rfl⟩ | ⟨-, hcall⟩
    · rw [hself]
      exact ⟨hlt, howner, rfl, rfl⟩
    · rw [hobject call.controller (hfree i call hcall)]
      exact h.call_own i call hcall
  · intro i call hcall
    rcases hcalls i call hcall with ⟨rfl, rfl⟩ | ⟨-, hcall⟩
    · exact ⟨Nat.lt_succ_self _, Nat.le_refl _⟩
    · obtain ⟨hi, hle⟩ := h.call_started i call hcall
      exact ⟨Nat.lt_succ_of_lt hi, hle⟩
  · intro i call hcall
    rcases hcalls i call hcall with ⟨-, rfl⟩ | ⟨-, hcall⟩
    · exact hstart.canonical
    · exact h.call_canonical i call hcall
  · intro i j call call' hi hj heq
    rcases hcalls i call hi with ⟨rfl, rfl⟩ | ⟨-, hi⟩
    · rcases hcalls j call' hj with ⟨rfl, -⟩ | ⟨-, hj⟩
      · rfl
      · exact absurd heq.symm (hfree j call' hj)
    · rcases hcalls j call' hj with ⟨rfl, rfl⟩ | ⟨-, hj⟩
      · exact absurd heq (hfree i call hi)
      · exact h.one_per_controller i j call call' hi hj heq
  · intro i call k hcall hpending hk
    rcases hcalls i call hcall with ⟨-, rfl⟩ | ⟨-, hcall⟩
    · exact Option.some.inj (hk.symm.trans hstart.current)
    · exact h.pending_current i call k hcall hpending hk
  · intro i j call call' hi hj hpending hpending' heq
    rcases hcalls i call hi with ⟨rfl, rfl⟩ | ⟨-, hi⟩
    · rcases hcalls j call' hj with ⟨rfl, -⟩ | ⟨-, hj⟩
      · rfl
      · exact absurd heq.symm (hnone j call' hj hpending')
    · rcases hcalls j call' hj with ⟨rfl, rfl⟩ | ⟨-, hj⟩
      · exact absurd heq (hnone i call hi hpending)
      · exact h.one_pending i j call call' hi hj hpending hpending' heq
  · intro delivery hmem k hk
    by_cases heq : k = key
    · right
      rw [heq, hself]
      exact Nat.le_trans (h.delivery_times delivery hmem).1 (h.delivery_times delivery hmem).2
    · rw [hobject k heq]
      exact h.delivered_before delivery hmem k hk
  · intro i call hcall hphase delivery hmem htask
    rcases hcalls i call hcall with ⟨-, rfl⟩ | ⟨-, hcall⟩
    · exact hafter delivery hmem htask
    · exact h.lookup_after i call hcall hphase delivery hmem htask
  · exact h.delivery_times
  · exact h.starts_apart
  · exact h.handed_apart

theorem Invariant.setPhase (h : Invariant s) {i : Nat} {call : SendCall}
    (hcall : s.calls i = some call) {phase : Phase} (hlookup : phase ≠ .lookup)
    (hpending : call.phase.pending = true) : Invariant (s.setPhase i call phase) := by
  have hcalls : ∀ j call', (s.setPhase i call phase).calls j = some call' →
      (j = i ∧ call' = { call with phase }) ∨ (j ≠ i ∧ s.calls j = some call') :=
    fun j call' hj => update_some_cases hj
  -- what does not depend on the phase is as before
  have hsame : ∀ {p : Nat → SendCall → Prop}, (∀ j call', s.calls j = some call' → p j call') →
      (p i call → p i { call with phase }) →
      ∀ j call', (s.setPhase i call phase).calls j = some call' → p j call' := by
    intro p hp hphase j call' hj
    rcases hcalls j call' hj with ⟨rfl, rfl⟩ | ⟨-, hj⟩
    · exact hphase (hp j call hcall)
    · exact hp j call' hj
  constructor
  · exact h.own
  · exact hsame h.call_own fun hp => hp
  · exact hsame h.call_started fun hp => hp
  · exact hsame h.call_canonical fun hp => hp
  · intro j k call' call'' hj hk heq
    rcases hcalls j call' hj with ⟨rfl, rfl⟩ | ⟨-, hold⟩
    · rcases hcalls k call'' hk with ⟨rfl, -⟩ | ⟨-, hold⟩
      · rfl
      · exact h.one_per_controller j k call call'' hcall hold heq
    · rcases hcalls k call'' hk with ⟨rfl, rfl⟩ | ⟨-, hold'⟩
      · exact h.one_per_controller j k call' call hold hcall heq
      · exact h.one_per_controller j k call' call'' hold hold' heq
  · intro j call' key hj hpending' hkey
    rcases hcalls j call' hj with ⟨rfl, rfl⟩ | ⟨-, hj⟩
    · exact h.pending_current j call key hcall hpending hkey
    · exact h.pending_current j call' key hj hpending' hkey
  · intro j k call' call'' hj hk hpending' hpending'' heq
    rcases hcalls j call' hj with ⟨rfl, rfl⟩ | ⟨-, hold⟩
    · rcases hcalls k call'' hk with ⟨rfl, -⟩ | ⟨-, hold⟩
      · rfl
      · exact h.one_pending j k call call'' hcall hold hpending hpending'' heq
    · rcases hcalls k call'' hk with ⟨rfl, rfl⟩ | ⟨-, hold'⟩
      · exact h.one_pending j k call' call hold hcall hpending' hpending heq
      · exact h.one_pending j k call' call'' hold hold' hpending' hpending'' heq
  · exact h.delivered_before
  · intro j call' hj hphase
    rcases hcalls j call' hj with ⟨rfl, rfl⟩ | ⟨-, hj⟩
    · exact absurd hphase hlookup
    · exact h.lookup_after j call' hj hphase
  · exact h.delivery_times
  · exact h.starts_apart
  · exact h.handed_apart

/-- The newest message of a task comes behind all its others. -/
theorem handed_of_lastDelivery {deliveries : List Delivery} {task : Id} {last : Delivery}
    (hlast : deliveries.find? (fun delivery => delivery.task == task) = some last)
    (hapart : deliveries.Pairwise fun newer older => newer.task = older.task →
      older.handedAt + minInputIntervalMs ≤ newer.handedAt) :
    ∀ delivery ∈ deliveries, delivery.task = task → delivery.handedAt ≤ last.handedAt := by
  obtain ⟨htask, front, back, rfl, hfront⟩ := List.find?_eq_some_iff_append.mp hlast
  have htask : last.task = task := eq_of_beq htask
  intro delivery hmem hdelivery
  rcases List.mem_append.mp hmem with hmem | hmem
  · have hnot := hfront delivery hmem
    rw [hdelivery, beq_self_eq_true] at hnot
    exact absurd hnot (by decide)
  · rcases List.mem_cons.mp hmem with rfl | hmem
    · exact Nat.le_refl _
    · have hle := (List.pairwise_cons.mp (List.pairwise_append.mp hapart).2.1).1 delivery hmem
        (htask.trans hdelivery.symm)
      exact Nat.le_trans (Nat.le_add_right _ _) hle

theorem Invariant.handOver (h : Invariant s) {i : Nat} {call : SendCall}
    (hcall : s.calls i = some call) (hphase : call.phase = .lookup) :
    Invariant (s.handOver i call) := by
  have hpending : call.phase.pending = true := by
    rw [hphase]
    rfl
  have htask := h.call_canonical i call hcall
  have hset : Invariant (s.setPhase i call .awaiting) :=
    h.setPhase hcall Phase.noConfusion hpending
  have hcalls : ∀ j call', (s.handOver i call).calls j = some call' →
      (j = i ∧ call' = { call with phase := .awaiting }) ∨ (j ≠ i ∧ s.calls j = some call') :=
    fun j call' hj => update_some_cases hj
  refine ⟨hset.own, hset.call_own, hset.call_started, hset.call_canonical,
    hset.one_per_controller, hset.pending_current, hset.one_pending, ?_, ?_, ?_, ?_, ?_⟩
  · intro delivery hmem key hkey
    rcases List.mem_cons.mp hmem with rfl | hmem
    · right
      have hkey : s.controllers call.taskId = some key := htask ▸ hkey
      obtain rfl := h.pending_current i call key hcall hpending hkey
      exact Nat.le_of_eq (h.call_own i call hcall).2.2.2.symm
    · exact h.delivered_before delivery hmem key hkey
  · intro j call' hj hlookup delivery hmem hdelivery
    rcases hcalls j call' hj with ⟨rfl, rfl⟩ | ⟨hne, hj⟩
    · cases hlookup
    · rcases List.mem_cons.mp hmem with rfl | hmem
      · have hpending' : call'.phase.pending = true := by
          rw [hlookup]
          rfl
        exact absurd (h.one_pending j i call' call hj hcall hpending' hpending
          (hdelivery.symm.trans htask)) hne
      · exact h.lookup_after j call' hj hlookup delivery hmem hdelivery
  · intro delivery hmem
    rcases List.mem_cons.mp hmem with rfl | hmem
    · exact ⟨(h.call_started i call hcall).2, Nat.le_refl _⟩
    · exact h.delivery_times delivery hmem
  · refine List.pairwise_cons.mpr ⟨fun delivery hmem heq => ?_, h.starts_apart⟩
    exact h.lookup_after i call hcall hphase delivery hmem (heq.symm.trans htask)
  · intro heven
    obtain ⟨hbefore, hlookup⟩ := Bool.and_eq_true_iff.mp heven
    have hapart := h.handed_apart hbefore
    refine List.pairwise_cons.mpr ⟨fun delivery hmem heq => ?_, hapart⟩
    have heq : canonicalId call.taskId = delivery.task := heq
    cases hlast : s.lastDelivery (canonicalId call.taskId) with
    | none =>
        have hnot := List.find?_eq_none.mp hlast delivery hmem
        rw [heq, beq_self_eq_true] at hnot
        exact absurd rfl hnot
    | some last =>
        have hle := handed_of_lastDelivery hlast hapart delivery hmem heq.symm
        have hfound : s.deliveries.find? (fun delivery =>
            delivery.task == canonicalId call.taskId) = some last := hlast
        have hmemLast := List.mem_of_find?_eq_some hfound
        have hmatches : (last.task == canonicalId call.taskId) = true :=
          (List.find?_eq_some_iff_append.mp hfound).1
        have htaskLast := eq_of_beq hmatches
        have hafter := h.lookup_after i call hcall hphase last hmemLast (htaskLast.trans htask)
        have htimes := h.delivery_times last hmemLast
        have hstarted := (h.call_started i call hcall).2
        rw [Service.evenLookup, hlast, Option.all_some, Bool.or_eq_true, decide_eq_true_eq,
          decide_eq_true_eq] at hlookup
        show delivery.handedAt + minInputIntervalMs ≤ s.now
        rw [minInputIntervalMs] at hafter hlookup ⊢
        omega

/-- A call that ends frees its controller object. -/
theorem Invariant.endCall (h : Invariant s) {i : Nat} {call : SendCall}
    (hcall : s.calls i = some call) : Invariant (s.endCall i call) := by
  have hcalls : ∀ j call', Function.update s.calls i none j = some call' →
      s.calls j = some call' ∧ call'.controller ≠ call.controller := by
    intro j call' hj
    by_cases hji : j = i
    · rw [hji, Function.update_self] at hj
      cases hj
    · rw [Function.update_of_ne hji] at hj
      exact ⟨hj, fun heq => hji (h.one_per_controller j i call' call hj hcall heq)⟩
  have hobject : ∀ k, k ≠ call.controller →
      Function.update s.objects call.controller
        { s.objects call.controller with
          busy := false
          lastActivityAt := s.now } k = s.objects k :=
    fun k hk => Function.update_of_ne hk _ _
  have hkept : ∀ k,
      (Function.update s.objects call.controller
        { s.objects call.controller with
          busy := false
          lastActivityAt := s.now } k).taskId = (s.objects k).taskId ∧
      (Function.update s.objects call.controller
        { s.objects call.controller with
          busy := false
          lastActivityAt := s.now } k).lastSentAt = (s.objects k).lastSentAt := by
    intro k
    by_cases hk : k = call.controller
    · rw [hk, Function.update_self]
      exact ⟨rfl, rfl⟩
    · rw [hobject k hk]
      exact ⟨rfl, rfl⟩
  constructor
  · intro taskId k hk
    have hold := h.own taskId k hk
    exact ⟨(hkept k).1.trans hold.1, hold.2⟩
  · intro j call' hj
    obtain ⟨hold, hne⟩ := hcalls j call' hj
    show call'.controller < s.created ∧ (Function.update s.objects _ _ _).taskId = _ ∧
      (Function.update s.objects _ _ _).busy = true ∧ (Function.update s.objects _ _ _).lastSentAt = _
    rw [hobject call'.controller hne]
    exact h.call_own j call' hold
  · intro j call' hj
    exact h.call_started j call' (hcalls j call' hj).1
  · intro j call' hj
    exact h.call_canonical j call' (hcalls j call' hj).1
  · intro j k call' call'' hj hk heq
    exact h.one_per_controller j k call' call'' (hcalls j call' hj).1 (hcalls k call'' hk).1 heq
  · intro j call' key hj hpending hkey
    exact h.pending_current j call' key (hcalls j call' hj).1 hpending hkey
  · intro j k call' call'' hj hk hpending hpending' heq
    exact h.one_pending j k call' call'' (hcalls j call' hj).1 (hcalls k call'' hk).1 hpending
      hpending' heq
  · intro delivery hmem k hk
    show _ ∨ _ ≤ (Function.update s.objects _ _ k).lastSentAt
    rw [(hkept k).2]
    exact h.delivered_before delivery hmem k hk
  · intro j call' hj hphase
    exact h.lookup_after j call' (hcalls j call' hj).1 hphase
  · exact h.delivery_times
  · exact h.starts_apart
  · exact h.handed_apart

theorem Invariant.closeStdin (h : Invariant s) (call : SendCall) :
    Invariant (s.closeStdin call) := by
  refine h.fewer _ fun taskId key hkey => ?_
  split at hkey
  · exact update_none_some hkey
  · exact hkey

theorem Invariant.finish (h : Invariant s) (i : Nat) : Invariant (s.finish i) := by
  rw [Service.finish]
  split
  · exact h
  · rename_i call hcall
    split
    · split
      · exact (h.endCall hcall).closeStdin call
      · exact h.endCall hcall
    · exact h

theorem Invariant.resolve (h : Invariant s) (i : Nat) (code : Option TaskInputErrorCode) :
    Invariant (s.resolve i code) := by
  rw [Service.resolve]
  split
  · exact h
  · rename_i call hcall
    split
    · rename_i hphase
      exact h.setPhase hcall Phase.noConfusion (by rw [hphase]; rfl)
    · exact h

theorem Invariant.afterLookup (h : Invariant s) (i : Nat) (lookup : Service.Lookup) :
    Invariant (s.afterLookup i lookup) := by
  rw [Service.afterLookup]
  split
  · exact h
  · rename_i call hcall
    split
    · rename_i hphase
      have hpending : call.phase.pending = true := by
        rw [hphase]
        rfl
      split
      · exact h.setPhase hcall Phase.noConfusion hpending
      · split
        · exact h.setPhase hcall Phase.noConfusion hpending
        · exact h.handOver hcall hphase
    · exact h

theorem expireController_eq (s : Service) (taskId : JsString) :
    (s.expireController taskId).now = s.now ∧ (s.expireController taskId).calls = s.calls ∧
      (s.expireController taskId).deliveries = s.deliveries := by
  rw [Service.expireController]
  split
  · split
    · exact ⟨rfl, rfl, rfl⟩
    · exact ⟨rfl, rfl, rfl⟩
  · exact ⟨rfl, rfl, rfl⟩

/-- Task ids come as PostgreSQL writes them, and a controller is created only for a task that has
no send pending and whose last message started long enough ago. -/
def Spared (s : Service) : Event → Prop
  | .acquire _ _ taskId _ _ => canonicalId taskId = taskId ∧
      ((s.expireController taskId).controllers taskId = none → Rested s taskId)
  | .send _ _ taskId _ _ _ _ => canonicalId taskId = taskId
  | _ => True

theorem Invariant.acquire (h : Invariant s) (actorId socket : Nat) {taskId : JsString}
    (hrested : (s.expireController taskId).controllers taskId = none → Rested s taskId)
    (context : TaskInputContext) (connection : AgentConnection) :
    Invariant (s.acquire actorId socket taskId context connection) := by
  have hexpired := h.expireController taskId
  obtain ⟨hnow, hcalls, hdeliveries⟩ := expireController_eq s taskId
  rw [Service.acquire]
  split
  · split
    · rename_i hnone
      apply hexpired.createController
      have hrested := hrested hnone
      rw [Rested] at hrested ⊢
      rwa [hnow, hcalls, hdeliveries]
    · rename_i key _
      exact hexpired.touch key _
  · exact hexpired

theorem Invariant.send (h : Invariant s) (actorId socket : Nat) {taskId : JsString}
    (hcanonical : canonicalId taskId = taskId) (inputId text : JsString)
    (context : TaskInputContext) (connection : AgentConnection) :
    Invariant (s.send actorId socket taskId inputId text context connection).2 := by
  have hexpired := h.expireController taskId
  rw [Service.send]
  split
  · exact h
  · dsimp only
    split
    · exact hexpired.deleteController taskId
    · split
      · exact hexpired
      · rename_i key hkey
        split
        · exact hexpired
        · split
          · exact hexpired
          · split
            · exact hexpired
            · split
              · split
                · exact hexpired.deleteController taskId
                · exact hexpired
              · rename_i hidle hrested _
                exact hexpired.startSend
                  ⟨hcanonical, hkey, Bool.eq_false_iff.mpr hidle, Nat.not_lt.mp hrested⟩ inputId

theorem Invariant.after (h : Invariant s) {event : Event} (hspared : Spared s event) :
    Invariant (s.after event) := by
  cases event with
  | tick ms => exact h.tick ms
  | clearTaskState taskId => exact h.clearTaskState taskId
  | expire taskId => exact h.expireController taskId
  | acquire actorId socket taskId context connection =>
      exact h.acquire actorId socket hspared.2 context connection
  | release actorId socket taskId => exact h.release actorId socket taskId
  | releaseSocket socket => exact h.releaseSocket socket
  | releaseTask socket taskId => exact h.releaseTask socket taskId
  | send actorId socket taskId inputId text context connection =>
      exact h.send actorId socket hspared inputId text context connection
  | lookup i lookup => exact h.afterLookup i lookup
  | resolve i code => exact h.resolve i code
  | finish i => exact h.finish i

theorem invariant_new (h : s.IsNew) : Invariant s := by
  obtain ⟨hcontrollers, hcalls, hdeliveries, -⟩ := h
  have hcall : ∀ {i : Nat} {call : SendCall} {p : Prop}, s.calls i = some call → p := by
    intro i call p hcall
    rw [hcalls i] at hcall
    cases hcall
  have hdelivery : ∀ {delivery : Delivery} {p : Prop}, delivery ∈ s.deliveries → p := by
    intro delivery p hmem
    rw [hdeliveries] at hmem
    exact absurd hmem List.not_mem_nil
  constructor
  · intro taskId key hkey
    rw [hcontrollers taskId] at hkey
    cases hkey
  · exact fun _ _ h => hcall h
  · exact fun _ _ h => hcall h
  · exact fun _ _ h => hcall h
  · exact fun _ _ _ _ h => hcall h
  · exact fun _ _ _ h => hcall h
  · exact fun _ _ _ _ h => hcall h
  · exact fun _ h => hdelivery h
  · exact fun _ _ h => hcall h
  · exact fun _ h => hdelivery h
  · rw [hdeliveries]
    exact List.Pairwise.nil
  · rw [hdeliveries]
    exact fun _ => List.Pairwise.nil

theorem invariant_of_reachable (h : (system Spared).Reachable s) : Invariant s := by
  refine h.invariant ?_ ?_
  · intro s hs
    exact invariant_new hs
  · rintro s _ - hs ⟨event, hspared, rfl⟩
    exact hs.after hspared

/-- At most one message for a task is under way, and the messages for a task come apart: the calls
for them always, the messages themselves when the lookups were even. -/
structure OneAtATime (s : Service) : Prop where
  one_pending : ∀ i j call call', s.calls i = some call → s.calls j = some call' →
    canonicalId call.taskId = canonicalId call'.taskId →
    call.phase.pending = true → call'.phase.pending = true → i = j
  starts_apart : s.deliveries.Pairwise fun newer older => newer.task = older.task →
    older.startedAt + minInputIntervalMs ≤ newer.startedAt
  handed_apart : s.evenLookups = true → s.deliveries.Pairwise fun newer older =>
    newer.task = older.task → older.handedAt + minInputIntervalMs ≤ newer.handedAt

def started : Service where
  now := 1000
  controllers := fun _ => none
  objects := fun _ => ⟨[], 0, 0, 0, 0, false⟩
  created := 0
  stdinClosedTasks := fun _ => false
  calls := fun _ => none
  started := 0
  deliveries := []
  evenLookups := true

theorem started_isNew : started.IsNew :=
  ⟨fun _ => rfl, fun _ => rfl, rfl, rfl⟩

def runningTask : JsString :=
  .ofString "22222222-2222-4222-8222-222222222222"

def firstInput : JsString :=
  .ofString "33333333-3333-4333-8333-333333333333"

def secondInput : JsString :=
  .ofString "44444444-4444-4444-8444-444444444444"

def answer : JsString :=
  .ofString "yes"

def runningContext : TaskInputContext :=
  ⟨runningTask, true, .running, true, .online, some runningTask⟩

def connected : AgentConnection :=
  ⟨true, true⟩

def found : Service.Lookup :=
  ⟨some ⟨false, true, .running, some runningTask, true, .online⟩, connected, true, true⟩

def acquired : Service :=
  started.acquire 7 1 runningTask runningContext connected

def sentOnce : Service :=
  (acquired.send 7 1 runningTask firstInput answer runningContext connected).2.afterLookup 0 found

/-- While the first message waits for its acknowledgement, the input is released and acquired. -/
def acquiredAgain : Service :=
  (sentOnce.release 7 1 runningTask).acquire 7 1 runningTask runningContext connected

def sentTwice : Service :=
  (acquiredAgain.send 7 1 runningTask secondInput answer runningContext connected).2.afterLookup 1
    found

end AnvilRun.TaskInputService
