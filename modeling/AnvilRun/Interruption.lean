import AnvilRun.Effects

namespace AnvilRun

/-- What goes wrong in a call of the operating system, after it has got as far as `reached`. -/
inductive Fault where
  | error (reached : Nat)
  | crash (reached : Nat)

/-- Why a computation ends before it returns a value. -/
inductive Stop (ε : Type) where
  | failed (e : ε)
  | crashed
  deriving DecidableEq

/-- A state and what happens to the calls that are still to come. Behind the end of the list no
call goes wrong. -/
structure Faulty (σ : Type) where
  state : σ
  faults : List (Option Fault)

/-- A computation whose calls may fail and that may be cut off in or between them. -/
abbrev Interruptible (ε σ α : Type) : Type := Effect (Stop ε) (Faulty σ) α

namespace Interruptible

variable {ε δ σ τ α β : Type}

def fail (e : ε) : Interruptible ε σ α :=
  Effect.fail (.failed e)

def get : Interruptible ε σ σ :=
  fun s => (.ok s.state, s)

def modify (f : σ → σ) : Interruptible ε σ Unit :=
  Effect.modify fun s => { s with state := f s.state }

/-- A call of the operating system. `onError` and `onCrash` say what it leaves when it goes
wrong. -/
def call (effect : σ → σ) (onError onCrash : Nat → σ → σ) (e : ε) : Interruptible ε σ Unit :=
  fun s =>
    match s.faults with
    | [] => (.ok (), ⟨effect s.state, []⟩)
    | none :: faults => (.ok (), ⟨effect s.state, faults⟩)
    | some (.error reached) :: faults =>
        (.error (.failed e), ⟨onError reached s.state, faults⟩)
    | some (.crash reached) :: faults => (.error .crashed, ⟨onCrash reached s.state, faults⟩)

/-- A call that takes effect as a whole, or not at all when it fails. -/
def atomically (effect : σ → σ) (e : ε) : Interruptible ε σ Unit :=
  call effect (fun _ s => s) (fun reached s => if reached = 0 then s else effect s) e

/-- A call that changes nothing. -/
def inspect (e : ε) : Interruptible ε σ Unit :=
  atomically id e

/-- A write that may get only to a part of what it writes. -/
def write (put : List UInt8 → σ → σ) (bytes : List UInt8) (e : ε) : Interruptible ε σ Unit :=
  call (put bytes) (fun reached => put (bytes.take reached))
    (fun reached => put (bytes.take reached)) e

/-- Go on with the handler after a failure, but not after a crash. -/
def recover (x : Interruptible ε σ α) (handler : ε → Interruptible ε σ α) :
    Interruptible ε σ α :=
  Effect.recover x fun stop =>
    match stop with
    | .failed e => handler e
    | .crashed => Effect.fail .crashed

/-- Whether a time limit passes before a call is through. -/
def elapses : Interruptible ε σ Bool :=
  fun s =>
    match s.faults with
    | [] => (.ok false, s)
    | none :: faults => (.ok false, { s with faults })
    | some (.error _) :: faults => (.ok true, { s with faults })
    | some (.crash _) :: faults => (.error .crashed, { s with faults })

/-- One computation for each element. -/
def each (f : α → Interruptible ε σ Unit) : List α → Interruptible ε σ Unit
  | [] => pure ()
  | a :: items => do
      f a
      each f items

/-- What a computation on one part of a state leaves of the whole state. -/
def zoomed (write : τ → σ → σ) (wrap : δ → ε) (s : σ) :
    Except (Stop δ) α × Faulty τ → Except (Stop ε) α × Faulty σ
  | (.ok a, t) => (.ok a, ⟨write t.state s, t.faults⟩)
  | (.error (.failed e), t) => (.error (.failed (wrap e)), ⟨write t.state s, t.faults⟩)
  | (.error .crashed, t) => (.error .crashed, ⟨write t.state s, t.faults⟩)

/-- A computation on one part of a state, whose errors become errors of the whole. -/
def zoom (read : σ → τ) (write : τ → σ → σ) (wrap : δ → ε) (x : Interruptible δ τ α) :
    Interruptible ε σ α :=
  fun s => zoomed write wrap s.state (x ⟨read s.state, s.faults⟩)

/-- From the state `s` and whatever goes wrong, the computation ends as `ok` says, it fails as
`failed` says, or a crash leaves what `crashed` says. -/
def Ends (x : Interruptible ε σ α) (ok : α → σ → Prop) (failed : ε → σ → Prop)
    (crashed : σ → Prop) (s : σ) : Prop :=
  ∀ faults, Effect.Ends x (fun a t => ok a t.state)
    (fun stop t =>
      match stop with
      | .failed e => failed e t.state
      | .crashed => crashed t.state)
    ⟨s, faults⟩

variable {x : Interruptible ε σ α} {f : α → Interruptible ε σ β} {ok ok' : α → σ → Prop}
  {failed failed' : ε → σ → Prop} {crashed crashed' : σ → Prop} {s : σ}

theorem ends_pure {a : α} (h : ok a s) :
    Ends (pure a : Interruptible ε σ α) ok failed crashed s :=
  fun _ => h

theorem ends_fail {e : ε} (h : failed e s) :
    Ends (fail e : Interruptible ε σ α) ok failed crashed s :=
  fun _ => h

theorem ends_get {ok : σ → σ → Prop} (h : ok s s) :
    Ends (get : Interruptible ε σ σ) ok failed crashed s :=
  fun _ => h

theorem ends_modify {g : σ → σ} {ok : Unit → σ → Prop} (h : ok () (g s)) :
    Ends (modify g : Interruptible ε σ Unit) ok failed crashed s :=
  fun _ => h

theorem ends_bind {ok : β → σ → Prop}
    (h : Ends x (fun a => Ends (f a) ok failed crashed) failed crashed s) :
    Ends (x >>= f) ok failed crashed s := by
  intro faults
  apply Effect.ends_bind.mpr
  exact (h faults).imp (fun a t ht => ht t.faults) (fun _ _ ht => ht)

theorem ends_recover {handler : ε → Interruptible ε σ α}
    (h : Ends x ok (fun e => Ends (handler e) ok failed crashed) crashed s) :
    Ends (recover x handler) ok failed crashed s := by
  intro faults
  apply Effect.ends_recover.mpr
  refine (h faults).imp (fun _ _ ht => ht) fun stop t ht => ?_
  cases stop with
  | failed e => exact ht t.faults
  | crashed => exact ht

theorem ends_call {effect : σ → σ} {onError onCrash : Nat → σ → σ} {e : ε}
    {ok : Unit → σ → Prop} (hok : ok () (effect s))
    (hfailed : ∀ reached, failed e (onError reached s))
    (hcrashed : ∀ reached, crashed (onCrash reached s)) :
    Ends (call effect onError onCrash e) ok failed crashed s := by
  intro faults
  rcases faults with _ | ⟨_ | ⟨reached | reached⟩, faults⟩
  · exact hok
  · exact hok
  · exact hfailed reached
  · exact hcrashed reached

theorem ends_atomically {effect : σ → σ} {e : ε} {ok : Unit → σ → Prop} (hok : ok () (effect s))
    (hfailed : failed e s) (hbefore : crashed s) (hafter : crashed (effect s)) :
    Ends (atomically effect e) ok failed crashed s := by
  refine ends_call hok (fun _ => hfailed) fun reached => ?_
  by_cases h : reached = 0
  · rw [if_pos h]
    exact hbefore
  · rw [if_neg h]
    exact hafter

theorem ends_inspect {e : ε} {ok : Unit → σ → Prop} (hok : ok () s) (hfailed : failed e s)
    (hcrashed : crashed s) : Ends (inspect e) ok failed crashed s :=
  ends_atomically hok hfailed hcrashed hcrashed

theorem ends_write {put : List UInt8 → σ → σ} {bytes : List UInt8} {e : ε} {ok : Unit → σ → Prop}
    (hok : ok () (put bytes s)) (hfailed : ∀ n, failed e (put (bytes.take n) s))
    (hcrashed : ∀ n, crashed (put (bytes.take n) s)) :
    Ends (write put bytes e) ok failed crashed s :=
  ends_call hok hfailed hcrashed

/-- Weaker conditions hold as well. -/
theorem Ends.imp (h : Ends x ok failed crashed s) (hok : ∀ a t, ok a t → ok' a t)
    (hfailed : ∀ e t, failed e t → failed' e t) (hcrashed : ∀ t, crashed t → crashed' t) :
    Ends x ok' failed' crashed' s := by
  intro faults
  refine (h faults).imp (fun a t ht => hok a t.state ht) fun stop t ht => ?_
  cases stop with
  | failed e => exact hfailed e t.state ht
  | crashed => exact hcrashed t.state ht

/-- What holds in any case is a fact about the state that is left. -/
theorem Ends.run {p : σ → Prop} (h : Ends x (fun _ => p) (fun _ => p) p s)
    (faults : List (Option Fault)) : p (Effect.run x ⟨s, faults⟩).state := by
  apply (Effect.ends_run (x := x) (p := fun t => p t.state)).mp
  refine (h faults).imp (fun _ _ ht => ht) fun stop t ht => ?_
  cases stop with
  | failed e => exact ht
  | crashed => exact ht

/-- What each of the computations keeps, all of them keep. -/
theorem ends_each {f : α → Interruptible ε σ Unit} {p : σ → Prop} {items : List α}
    (hf : ∀ a ∈ items, ∀ s, p s → Ends (f a) (fun _ => p) failed crashed s) (h : p s) :
    Ends (each f items) (fun _ => p) failed crashed s := by
  induction items generalizing s with
  | nil => exact ends_pure h
  | cons a items ih =>
      have hrest : ∀ t, p t → Ends (each f items) (fun _ => p) failed crashed t :=
        fun t ht => ih (fun b hb => hf b (List.mem_cons_of_mem a hb)) ht
      apply ends_bind
      exact (hf a List.mem_cons_self s h).imp (fun _ t ht => hrest t ht) (fun _ _ ht => ht)
        (fun _ ht => ht)

/-! Relations that all steps of a computation respect, whatever goes wrong -/

section Leads

variable {r : σ → σ → Prop}

/-- The computation leads only to states that are related to the one it starts from. -/
def Leads (r : σ → σ → Prop) (x : Interruptible ε σ α) : Prop :=
  Effect.Keeps (fun s t => r s.state t.state) x

theorem leads_modify {g : σ → σ} (h : ∀ s, r s (g s)) :
    Leads r (modify g : Interruptible ε σ Unit) :=
  fun s => h s.state

theorem leads_call {effect : σ → σ} {onError onCrash : Nat → σ → σ} {e : ε}
    (heffect : ∀ s, r s (effect s)) (herror : ∀ reached s, r s (onError reached s))
    (hcrash : ∀ reached s, r s (onCrash reached s)) :
    Leads r (call effect onError onCrash e) := by
  rintro ⟨s, _ | ⟨_ | ⟨reached | reached⟩, faults⟩⟩
  · exact heffect s
  · exact heffect s
  · exact herror reached s
  · exact hcrash reached s

theorem leads_zoom {read : σ → τ} {write : τ → σ → σ} {wrap : δ → ε} {x : Interruptible δ τ α}
    (h : ∀ t s, r s (write t s)) : Leads r (zoom read write wrap x) := by
  intro s
  show r s.state (zoomed write wrap s.state (x ⟨read s.state, s.faults⟩)).2.state
  rcases x ⟨read s.state, s.faults⟩ with ⟨(e | _) | a, t⟩
  · exact h t.state s.state
  · exact h t.state s.state
  · exact h t.state s.state

section Refl

variable (hrefl : ∀ s, r s s)

include hrefl

theorem leads_pure (a : α) : Leads r (pure a : Interruptible ε σ α) :=
  Effect.keeps_pure (fun s => hrefl s.state) a

theorem leads_fail (e : ε) : Leads r (fail e : Interruptible ε σ α) :=
  fun s => hrefl s.state

theorem leads_get : Leads r (get : Interruptible ε σ σ) :=
  fun s => hrefl s.state

theorem leads_elapses : Leads r (elapses : Interruptible ε σ Bool) := by
  rintro ⟨s, _ | ⟨_ | ⟨reached | reached⟩, faults⟩⟩
  · exact hrefl s
  · exact hrefl s
  · exact hrefl s
  · exact hrefl s

theorem leads_onlyIf {p : Prop} [Decidable p] {x : Interruptible ε σ Unit} (hx : Leads r x) :
    Leads r (Effect.onlyIf p x) := by
  rw [Effect.onlyIf]
  split
  · exact hx
  · exact leads_pure hrefl ()

theorem leads_ifSome {value : Option α} {f : α → Interruptible ε σ Unit}
    (hf : ∀ a, Leads r (f a)) : Leads r (Effect.ifSome value f) := by
  cases value with
  | none => exact leads_pure hrefl ()
  | some a => exact hf a

end Refl

section Trans

variable (htrans : ∀ s t u, r s t → r t u → r s u)

include htrans

theorem Leads.bind (hx : Leads r x) (hf : ∀ a, Leads r (f a)) : Leads r (x >>= f) :=
  Effect.Keeps.bind (fun s t u => htrans s.state t.state u.state) hx hf

theorem Leads.recover {handler : ε → Interruptible ε σ α} (hrefl : ∀ s, r s s) (hx : Leads r x)
    (hhandler : ∀ e, Leads r (handler e)) : Leads r (recover x handler) := by
  refine Effect.Keeps.recover (fun s t u => htrans s.state t.state u.state) hx fun stop => ?_
  cases stop with
  | failed e => exact hhandler e
  | crashed => exact fun s => hrefl s.state

theorem leads_each {f : α → Interruptible ε σ Unit} (hrefl : ∀ s, r s s)
    (hf : ∀ a, Leads r (f a)) (items : List α) : Leads r (each f items) := by
  induction items with
  | nil => exact leads_pure hrefl ()
  | cons a items ih => exact Leads.bind htrans (hf a) fun _ => ih

end Trans

/-- What a computation keeps holds however it ends. -/
theorem Leads.ends (h : Leads r x) (s : σ) :
    Ends x (fun _ => r s) (fun _ => r s) (r s) s := by
  intro faults
  refine (Effect.Keeps.ends h ⟨s, faults⟩).imp (fun _ _ ht => ht) fun stop t ht => ?_
  cases stop with
  | failed e => exact ht
  | crashed => exact ht

end Leads

/-! Runs in which nothing goes wrong -/

/-- When no call goes wrong, the computation returns `a` and leaves the state `t`. -/
def Returns (x : Interruptible ε σ α) (s : σ) (a : α) (t : σ) : Prop :=
  x ⟨s, []⟩ = (.ok a, ⟨t, []⟩)

/-- When no call goes wrong, the computation fails with `e` and leaves the state `t`. -/
def Fails (x : Interruptible ε σ α) (s : σ) (e : ε) (t : σ) : Prop :=
  x ⟨s, []⟩ = (.error (.failed e), ⟨t, []⟩)

theorem returns_get (s : σ) : Returns (get : Interruptible ε σ σ) s s s := rfl

theorem returns_modify (g : σ → σ) (s : σ) :
    Returns (modify g : Interruptible ε σ Unit) s () (g s) := rfl

theorem returns_atomically (effect : σ → σ) (e : ε) (s : σ) :
    Returns (atomically effect e) s () (effect s) := rfl

theorem returns_inspect (e : ε) (s : σ) : Returns (inspect e : Interruptible ε σ Unit) s () s := rfl

theorem returns_write (put : List UInt8 → σ → σ) (bytes : List UInt8) (e : ε) (s : σ) :
    Returns (write put bytes e) s () (put bytes s) := rfl

theorem Returns.bind {a : α} {b : β} {t u : σ} (hx : Returns x s a t) (hf : Returns (f a) t b u) :
    Returns (x >>= f) s b u :=
  (Effect.bind_apply_ok hx).trans hf

theorem Returns.recover {handler : ε → Interruptible ε σ α} {a : α} {t : σ}
    (hx : Returns x s a t) : Returns (recover x handler) s a t :=
  Effect.recover_apply_ok hx

/-- When no call goes wrong, the computation returns, and what it leaves is as `post` says. -/
def Completes (x : Interruptible ε σ α) (post : α → σ → Prop) (s : σ) : Prop :=
  ∃ a t, Returns x s a t ∧ post a t

section Completes

variable {post post' : α → σ → Prop}

theorem completes_pure {a : α} (h : post a s) : Completes (pure a : Interruptible ε σ α) post s :=
  ⟨a, s, rfl, h⟩

theorem completes_get {post : σ → σ → Prop} (h : post s s) :
    Completes (get : Interruptible ε σ σ) post s :=
  ⟨s, s, returns_get s, h⟩

theorem completes_modify {g : σ → σ} {post : Unit → σ → Prop} (h : post () (g s)) :
    Completes (modify g : Interruptible ε σ Unit) post s :=
  ⟨(), g s, returns_modify g s, h⟩

theorem Completes.imp (h : Completes x post s) (himp : ∀ a t, post a t → post' a t) :
    Completes x post' s := by
  obtain ⟨a, t, ht, hpost⟩ := h
  exact ⟨a, t, ht, himp a t hpost⟩

theorem Completes.bind {post : β → σ → Prop} (h : Completes x (fun a => Completes (f a) post) s) :
    Completes (x >>= f) post s := by
  obtain ⟨a, t, ht, b, u, hu, hpost⟩ := h
  exact ⟨b, u, ht.bind hu, hpost⟩

theorem completes_onlyIf {p : Prop} [Decidable p] {x : Interruptible ε σ Unit}
    {post : Unit → σ → Prop} (hx : p → Completes x post s) (hnot : ¬ p → post () s) :
    Completes (Effect.onlyIf p x) post s := by
  rw [Effect.onlyIf]
  split
  · rename_i hp
    exact hx hp
  · rename_i hp
    exact completes_pure (hnot hp)

theorem Completes.recover {handler : ε → Interruptible ε σ α} (h : Completes x post s) :
    Completes (recover x handler) post s := by
  obtain ⟨a, t, ht, hpost⟩ := h
  exact ⟨a, t, ht.recover, hpost⟩

theorem Completes.zoom {read : σ → τ} {write : τ → σ → σ} {wrap : δ → ε}
    {x : Interruptible δ τ α}
    (h : Completes x (fun a t => post a (write t s)) (read s)) :
    Completes (zoom read write wrap x) post s := by
  obtain ⟨a, t, ht, hpost⟩ := h
  refine ⟨a, write t s, ?_, hpost⟩
  show zoomed write wrap s (x ⟨read s, []⟩) = _
  rw [show x ⟨read s, []⟩ = _ from ht]
  rfl

end Completes

/-! Runs in which one call goes wrong -/

/-- The first `k` calls go through, and the next one fails after it has got as far as
`reached`. -/
def failingAt (k reached : Nat) : List (Option Fault) :=
  List.replicate k none ++ [some (.error reached)]

/-- The computation makes `n` calls. It returns `a` and leaves the state `t` when all of them go
through, and when one of them fails, it fails with `e` in a state of which `left` holds. -/
structure Makes (x : Interruptible ε σ α) (s : σ) (n : Nat) (a : α) (t : σ) (e : ε)
    (left : σ → Prop) : Prop where
  returns : Returns x s a t
  goes_on : ∀ k reached, x ⟨s, failingAt (n + k) reached⟩ = (.ok a, ⟨t, failingAt k reached⟩)
  fails : ∀ k < n, ∀ reached, ∃ u,
    x ⟨s, failingAt k reached⟩ = (.error (.failed e), ⟨u, []⟩) ∧ left u

theorem call_failingAt_zero (effect : σ → σ) (onError onCrash : Nat → σ → σ) (e : ε) (s : σ)
    (reached : Nat) :
    call effect onError onCrash e ⟨s, failingAt 0 reached⟩
      = (.error (.failed e), ⟨onError reached s, []⟩) := rfl

theorem call_failingAt_succ (effect : σ → σ) (onError onCrash : Nat → σ → σ) (e : ε) (s : σ)
    (k reached : Nat) :
    call effect onError onCrash e ⟨s, failingAt (k + 1) reached⟩
      = (.ok (), ⟨effect s, failingAt k reached⟩) := rfl

variable {e : ε} {left : σ → Prop}

theorem makes_pure (a : α) : Makes (pure a : Interruptible ε σ α) s 0 a s e left :=
  ⟨rfl, fun k reached => by rw [Nat.zero_add]; rfl, fun _ hk => absurd hk (Nat.not_lt_zero _)⟩

theorem makes_get : Makes (get : Interruptible ε σ σ) s 0 s s e left :=
  ⟨rfl, fun k reached => by rw [Nat.zero_add]; rfl, fun _ hk => absurd hk (Nat.not_lt_zero _)⟩

theorem makes_atomically (effect : σ → σ) (h : left s) :
    Makes (atomically effect e) s 1 () (effect s) e left := by
  refine ⟨rfl, fun k reached => ?_, fun k hk reached => ?_⟩
  · rw [Nat.add_comm]
    exact call_failingAt_succ _ _ _ _ s k reached
  · obtain rfl : k = 0 := by omega
    exact ⟨s, call_failingAt_zero _ _ _ _ s reached, h⟩

theorem makes_inspect (h : left s) : Makes (inspect e) s 1 () s e left :=
  makes_atomically id h

theorem Makes.bind {a : α} {b : β} {t u : σ} {m n : Nat} (hx : Makes x s m a t e left)
    (hf : Makes (f a) t n b u e left) : Makes (x >>= f) s (m + n) b u e left := by
  refine ⟨hx.returns.bind hf.returns, fun k reached => ?_, fun k hk reached => ?_⟩
  · rw [Nat.add_assoc]
    exact (Effect.bind_apply_ok (hx.goes_on (n + k) reached)).trans (hf.goes_on k reached)
  · by_cases hlt : k < m
    · obtain ⟨v, hv, hleft⟩ := hx.fails k hlt reached
      exact ⟨v, Effect.bind_apply_error hv, hleft⟩
    · obtain ⟨j, rfl⟩ := Nat.exists_eq_add_of_le (Nat.le_of_not_lt hlt)
      obtain ⟨v, hv, hleft⟩ := hf.fails j (by omega) reached
      exact ⟨v, (Effect.bind_apply_ok (hx.goes_on j reached)).trans hv, hleft⟩

end Interruptible

end AnvilRun
