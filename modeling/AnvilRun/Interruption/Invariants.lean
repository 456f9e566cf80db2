import AnvilRun.Interruption

namespace AnvilRun.Interruptible

variable {ε δ σ τ α β : Type}
variable {x : Interruptible ε σ α} {f : α → Interruptible ε σ β} {s : σ}

theorem ends_zoom {read : σ → τ} {write : τ → σ → σ} {wrap : δ → ε} {x : Interruptible δ τ α}
    {ok : α → σ → Prop} {failed : ε → σ → Prop} {crashed : σ → Prop}
    (h : Ends x (fun a t => ok a (write t s)) (fun e t => failed (wrap e) (write t s))
      (fun t => crashed (write t s)) (read s)) :
    Ends (zoom read write wrap x) ok failed crashed s := by
  intro faults
  have hx := h faults
  rw [Effect.Ends] at hx ⊢
  rw [show zoom read write wrap x ⟨s, faults⟩ = zoomed write wrap s (x ⟨read s, faults⟩) from rfl]
  rcases hrun : x ⟨read s, faults⟩ with ⟨(e | _) | a, t⟩
  · rw [hrun] at hx
    exact hx
  · rw [hrun] at hx
    exact hx
  · rw [hrun] at hx
    exact hx

theorem ends_elapses {ok : Bool → σ → Prop} {failed : ε → σ → Prop} {crashed : σ → Prop}
    (hok : ∀ late, ok late s) (hcrashed : crashed s) :
    Ends (elapses : Interruptible ε σ Bool) ok failed crashed s := by
  rintro (_ | ⟨_ | ⟨reached | reached⟩, faults⟩)
  · exact hok false
  · exact hok false
  · exact hok true
  · exact hcrashed

/-- What each of the computations uses up is there for all of them. -/
theorem ends_each_down {f : α → Interruptible ε σ Unit} {p : Nat → σ → Prop} {k : Nat}
    {items : List α} {failed : ε → σ → Prop} {crashed : σ → Prop}
    (hf : ∀ a n s, k ≤ n → p (n + 1) s → Ends (f a) (fun _ => p n) failed crashed s)
    (h : p (items.length + k) s) : Ends (each f items) (fun _ => p k) failed crashed s := by
  induction items generalizing s with
  | nil =>
      rw [List.length_nil, Nat.zero_add] at h
      exact ends_pure h
  | cons a items ih =>
      rw [List.length_cons, Nat.add_right_comm] at h
      apply ends_bind
      exact (hf a _ s (Nat.le_add_left _ _) h).imp (fun _ t ht => ih ht) (fun _ _ ht => ht)
        fun _ ht => ht

/-! What holds however a computation ends -/

section Stays

variable {p : σ → Prop}

/-- From the state `s` the computation ends in a state with `p`, whatever goes wrong. -/
def Stays (p : σ → Prop) (x : Interruptible ε σ α) (s : σ) : Prop :=
  Ends x (fun _ => p) (fun _ => p) p s

theorem stays_pure {a : α} (h : p s) : Stays p (pure a : Interruptible ε σ α) s :=
  ends_pure h

theorem stays_fail {e : ε} (h : p s) : Stays p (fail e : Interruptible ε σ α) s :=
  ends_fail h

theorem stays_modify {g : σ → σ} (h : p (g s)) : Stays p (modify g : Interruptible ε σ Unit) s :=
  ends_modify h

theorem stays_inspect {e : ε} (h : p s) : Stays p (inspect e : Interruptible ε σ Unit) s :=
  ends_inspect h h h

theorem stays_atomically {effect : σ → σ} {e : ε} (h : p s) (heffect : p (effect s)) :
    Stays p (atomically effect e) s :=
  ends_atomically heffect h h heffect

theorem stays_write {put : List UInt8 → σ → σ} {bytes : List UInt8} {e : ε}
    (h : ∀ bytes, p (put bytes s)) : Stays p (write put bytes e) s :=
  ends_write (h bytes) (fun _ => h _) fun _ => h _

theorem Stays.bind (hx : Stays p x s) (hf : ∀ a t, p t → Stays p (f a) t) :
    Stays p (x >>= f) s :=
  ends_bind (Ends.imp hx hf (fun _ _ h => h) fun _ h => h)

theorem stays_get_bind {f : σ → Interruptible ε σ α} (h : Stays p (f s) s) :
    Stays p (get >>= f) s :=
  ends_bind (ends_get h)

theorem stays_modify_bind {g : σ → σ} {f : Unit → Interruptible ε σ α}
    (h : Stays p (f ()) (g s)) : Stays p (modify g >>= f) s :=
  ends_bind (ends_modify h)

theorem Stays.recover {handler : ε → Interruptible ε σ α} (hx : Stays p x s)
    (hhandler : ∀ e t, p t → Stays p (handler e) t) : Stays p (recover x handler) s :=
  ends_recover (Ends.imp hx (fun _ _ h => h) hhandler fun _ h => h)

theorem stays_onlyIf {c : Prop} [Decidable c] {x : Interruptible ε σ Unit}
    (hx : c → Stays p x s) (h : p s) : Stays p (Effect.onlyIf c x) s := by
  rw [Effect.onlyIf]
  split
  · rename_i hc
    exact hx hc
  · exact stays_pure h

theorem stays_ifSome {value : Option α} {f : α → Interruptible ε σ Unit}
    (hf : ∀ a, value = some a → Stays p (f a) s) (h : p s) : Stays p (Effect.ifSome value f) s := by
  cases value with
  | none => exact stays_pure h
  | some a => exact hf a rfl

theorem stays_each {f : α → Interruptible ε σ Unit} {items : List α}
    (hf : ∀ a t, p t → Stays p (f a) t) (h : p s) : Stays p (each f items) s :=
  ends_each (fun a _ => hf a) h

theorem stays_elapses (h : p s) : Stays p (elapses : Interruptible ε σ Bool) s :=
  ends_elapses (fun _ => h) h

theorem stays_zoom {read : σ → τ} {write : τ → σ → σ} {wrap : δ → ε} {x : Interruptible δ τ α}
    {q : τ → Prop} (hx : Stays q x (read s)) (h : ∀ t, q t → p (write t s)) :
    Stays p (zoom read write wrap x) s :=
  ends_zoom (Ends.imp hx (fun _ => h) (fun _ => h) h)

/-- Whatever a part of the state becomes. -/
theorem stays_zoom_any {read : σ → τ} {write : τ → σ → σ} {wrap : δ → ε}
    {x : Interruptible δ τ α} (h : ∀ t, p (write t s)) : Stays p (zoom read write wrap x) s :=
  stays_zoom (q := fun _ => True) (Leads.ends (r := fun _ _ => True) (fun _ => trivial) (read s))
    fun t _ => h t

end Stays

/-! What holds unless a computation is cut off, with the faults that are to come -/

section Holds

variable {p : σ → Prop} {s : Faulty σ}

def unlessCrashed (p : σ → Prop) : Stop ε → Faulty σ → Prop
  | .failed _, t => p t.state
  | .crashed, _ => True

/-- From the state `s` and with its faults the computation ends in a state with `p`, or a crash
cuts it off. -/
def Holds (p : σ → Prop) (x : Interruptible ε σ α) (s : Faulty σ) : Prop :=
  Effect.Ends x (fun _ t => p t.state) (unlessCrashed p) s

theorem Ends.holds {ok : α → σ → Prop} {failed : ε → σ → Prop} {crashed : σ → Prop}
    (h : Ends x ok failed crashed s.state) (hok : ∀ a t, ok a t → p t)
    (hfailed : ∀ e t, failed e t → p t) : Holds p x s := by
  refine (h s.faults).imp (fun a t ht => hok a t.state ht) fun stop t ht => ?_
  cases stop with
  | failed e => exact hfailed e t.state ht
  | crashed => exact trivial

theorem Stays.holds (h : Stays p x s.state) : Holds p x s :=
  Ends.holds h (fun _ _ ht => ht) fun _ _ ht => ht

theorem holds_bind (h : Effect.Ends x (fun a t => Holds p (f a) t) (unlessCrashed p) s) :
    Holds p (x >>= f) s :=
  Effect.ends_bind.mpr h

theorem Holds.bind (hx : Holds p x s) (hf : ∀ a t, p t → Stays p (f a) t) :
    Holds p (x >>= f) s :=
  holds_bind (Effect.Ends.imp hx (fun a t ht => (hf a t.state ht).holds) fun _ _ ht => ht)

theorem holds_zoom {read : σ → τ} {write : τ → σ → σ} {wrap : δ → ε} {x : Interruptible δ τ α}
    {q : τ → Prop} (hx : Holds q x ⟨read s.state, s.faults⟩)
    (h : ∀ t, q t → p (write t s.state)) : Holds p (zoom read write wrap x) s := by
  rw [Holds, Effect.Ends] at hx ⊢
  rw [show zoom read write wrap x s = zoomed write wrap s.state (x ⟨read s.state, s.faults⟩)
    from rfl]
  rcases hrun : x ⟨read s.state, s.faults⟩ with ⟨(e | _) | a, t⟩
  · rw [hrun] at hx
    exact h t.state hx
  · exact trivial
  · rw [hrun] at hx
    exact h t.state hx

end Holds

end AnvilRun.Interruptible
