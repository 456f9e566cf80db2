import Mathlib.Logic.Basic

namespace AnvilRun

/-- A computation that changes a state and may fail. What it has changed by then stays changed. -/
def Effect (ε σ α : Type) : Type := σ → Except ε α × σ

namespace Effect

variable {ε σ δ α β : Type}

instance : Monad (Effect ε σ) where
  pure a := fun s => (.ok a, s)
  bind x f := fun s =>
    match x s with
    | (.ok a, t) => f a t
    | (.error e, t) => (.error e, t)

def fail (e : ε) : Effect ε σ α :=
  fun s => (.error e, s)

def get : Effect ε σ σ :=
  fun s => (.ok s, s)

def modify (f : σ → σ) : Effect ε σ Unit :=
  fun s => (.ok (), f s)

/-- Go on with the handler after a failure, from the state that the failure left. -/
def recover (x : Effect ε σ α) (handler : ε → Effect ε σ α) : Effect ε σ α :=
  fun s =>
    match x s with
    | (.ok a, t) => (.ok a, t)
    | (.error e, t) => handler e t

/-- Go on only if `p` holds. -/
def check (p : Prop) [Decidable p] (e : ε) : Effect ε σ Unit :=
  if p then pure () else fail e

/-- The computation, if `p` holds. -/
def onlyIf (p : Prop) [Decidable p] (x : Effect ε σ Unit) : Effect ε σ Unit :=
  if p then x else pure ()

/-- The computation for the value, if there is one. -/
def ifSome (value : Option α) (f : α → Effect ε σ Unit) : Effect ε σ Unit :=
  match value with
  | some a => f a
  | none => pure ()

/-- A transaction on a part of the state: a failure rolls it back. -/
def transaction (read : σ → δ) (write : δ → σ → σ) (f : σ → δ → Except ε (α × δ)) :
    Effect ε σ α :=
  fun s =>
    match f s (read s) with
    | .ok (a, d) => (.ok a, write d s)
    | .error e => (.error e, s)

/-- The state that a computation leaves, whether it fails or not. -/
def run (x : Effect ε σ α) (s : σ) : σ :=
  (x s).2

/-- From the state `s` the computation ends as `ok` says, or it fails as `bad` says. -/
def Ends (x : Effect ε σ α) (ok : α → σ → Prop) (bad : ε → σ → Prop) (s : σ) : Prop :=
  match x s with
  | (.ok a, t) => ok a t
  | (.error e, t) => bad e t

variable {x : Effect ε σ α} {f : α → Effect ε σ β} {ok ok' : α → σ → Prop} {bad bad' : ε → σ → Prop}
  {s : σ}

@[simp]
theorem ends_pure {a : α} : Ends (pure a : Effect ε σ α) ok bad s ↔ ok a s := Iff.rfl

@[simp]
theorem ends_fail {e : ε} : Ends (fail e : Effect ε σ α) ok bad s ↔ bad e s := Iff.rfl

@[simp]
theorem ends_get {ok : σ → σ → Prop} : Ends (get : Effect ε σ σ) ok bad s ↔ ok s s := Iff.rfl

@[simp]
theorem ends_modify {g : σ → σ} {ok : Unit → σ → Prop} :
    Ends (modify g : Effect ε σ Unit) ok bad s ↔ ok () (g s) := Iff.rfl

theorem ends_bind {ok : β → σ → Prop} :
    Ends (x >>= f) ok bad s ↔ Ends x (fun a => Ends (f a) ok bad) bad s := by
  show (match (match x s with
    | (.ok a, t) => f a t
    | (.error e, t) => (.error e, t)) with
    | (.ok a, t) => ok a t
    | (.error e, t) => bad e t) ↔ _
  rw [Ends]
  rcases x s with ⟨e | a, t⟩
  · exact Iff.rfl
  · exact Iff.rfl

theorem ends_recover {handler : ε → Effect ε σ α} :
    Ends (recover x handler) ok bad s ↔ Ends x ok (fun e => Ends (handler e) ok bad) s := by
  rw [Ends, Ends, recover]
  rcases x s with ⟨e | a, t⟩
  · exact Iff.rfl
  · exact Iff.rfl

theorem ends_transaction {read : σ → δ} {write : δ → σ → σ} {f : σ → δ → Except ε (α × δ)} :
    Ends (transaction read write f) ok bad s ↔
      (∀ a d, f s (read s) = .ok (a, d) → ok a (write d s)) ∧
        ∀ e, f s (read s) = .error e → bad e s := by
  rw [Ends, transaction]
  rcases f s (read s) with e | ⟨a, d⟩
  · constructor
    · intro hbad
      refine ⟨fun a d h => ?_, fun e' h => ?_⟩
      · cases h
      · obtain rfl := Except.error.inj h
        exact hbad
    · intro h
      exact h.2 e rfl
  · constructor
    · intro hok
      refine ⟨fun a' d' h => ?_, fun e h => ?_⟩
      · obtain ⟨rfl, rfl⟩ := Prod.mk.inj (Except.ok.inj h)
        exact hok
      · cases h
    · intro h
      exact h.1 a d rfl

@[simp]
theorem run_pure {a : α} : (pure a : Effect ε σ α).run s = s := rfl

@[simp]
theorem run_fail {e : ε} : (fail e : Effect ε σ α).run s = s := rfl

@[simp]
theorem run_modify {g : σ → σ} : (modify g : Effect ε σ Unit).run s = g s := rfl

/-- A computation that looks at the state first. -/
@[simp]
theorem run_get_bind {g : σ → Effect ε σ α} : (get >>= g).run s = (g s).run s := rfl

@[simp]
theorem run_modify_bind {h : σ → σ} {g : Unit → Effect ε σ α} :
    (modify h >>= g).run s = (g ()).run (h s) := rfl

theorem bind_bind {γ : Type} {g : β → Effect ε σ γ} :
    (x >>= f) >>= g = x >>= fun a => f a >>= g := by
  funext s
  show (match (match x s with
    | (.ok a, t) => f a t
    | (.error e, t) => (.error e, t)) with
    | (.ok b, t) => g b t
    | (.error e, t) => (.error e, t)) = (match x s with
    | (.ok a, t) => (f a >>= g) t
    | (.error e, t) => (.error e, t))
  rcases x s with ⟨e | a, t⟩
  · rfl
  · rfl

/-! One step from a known state -/

theorem bind_apply_ok {a : α} {t : σ} (h : x s = (.ok a, t)) : (x >>= f) s = f a t := by
  show (match x s with
    | (.ok a, t) => f a t
    | (.error e, t) => (.error e, t)) = _
  rw [h]

theorem bind_apply_error {e : ε} {t : σ} (h : x s = (.error e, t)) :
    (x >>= f) s = (.error e, t) := by
  show (match x s with
    | (.ok a, t) => f a t
    | (.error e, t) => (.error e, t)) = _
  rw [h]

theorem modify_apply (g : σ → σ) (s : σ) : (modify g : Effect ε σ Unit) s = (.ok (), g s) := rfl

theorem onlyIf_modify_apply (p : Prop) [Decidable p] (g : σ → σ) (s : σ) :
    (onlyIf p (modify g) : Effect ε σ Unit) s = (.ok (), if p then g s else s) := by
  rw [onlyIf]
  split
  · rfl
  · rfl

theorem check_bind_apply {p : Prop} [Decidable p] {e : ε} {g : Unit → Effect ε σ α} (hp : p) :
    (check p e >>= g) s = g () s := by
  rw [check, if_pos hp]
  rfl

theorem check_bind_apply_error {p : Prop} [Decidable p] {e : ε} {g : Unit → Effect ε σ α}
    (hp : ¬ p) : (check p e >>= g) s = (.error e, s) := by
  rw [check, if_neg hp]
  rfl

theorem recover_apply_ok {handler : ε → Effect ε σ α} {a : α} {t : σ} (h : x s = (.ok a, t)) :
    recover x handler s = (.ok a, t) := by
  rw [recover, h]

theorem recover_apply_error {handler : ε → Effect ε σ α} {e : ε} {t : σ}
    (h : x s = (.error e, t)) : recover x handler s = handler e t := by
  rw [recover, h]

theorem transaction_apply_ok {read : σ → δ} {write : δ → σ → σ} {f : σ → δ → Except ε (α × δ)}
    {a : α} {d : δ} (h : f s (read s) = .ok (a, d)) :
    transaction read write f s = (.ok a, write d s) := by
  rw [transaction, h]

theorem transaction_apply_error {read : σ → δ} {write : δ → σ → σ}
    {f : σ → δ → Except ε (α × δ)} {e : ε} (h : f s (read s) = .error e) :
    transaction read write f s = (.error e, s) := by
  rw [transaction, h]

/-- Weaker conditions hold as well. -/
theorem Ends.imp (h : Ends x ok bad s) (hok : ∀ a t, ok a t → ok' a t)
    (hbad : ∀ e t, bad e t → bad' e t) : Ends x ok' bad' s := by
  unfold Ends at h ⊢
  generalize x s = result at h ⊢
  rcases result with ⟨e | a, t⟩
  · exact hbad e t h
  · exact hok a t h

theorem Ends.and (h : Ends x ok bad s) (h' : Ends x ok' bad' s) :
    Ends x (fun a t => ok a t ∧ ok' a t) (fun e t => bad e t ∧ bad' e t) s := by
  unfold Ends at h h' ⊢
  generalize x s = result at h h' ⊢
  rcases result with ⟨e | a, t⟩
  · exact ⟨h, h'⟩
  · exact ⟨h, h'⟩

/-- What holds in either case is a fact about the state that is left. -/
theorem ends_run {p : σ → Prop} : Ends x (fun _ => p) (fun _ => p) s ↔ p (x.run s) := by
  rw [Ends, run]
  rcases x s with ⟨e | a, t⟩
  · exact Iff.rfl
  · exact Iff.rfl

/-! Relations that all steps of a computation respect -/

/-- The computation leads only to states that are related to the one it starts from. -/
def Keeps (r : σ → σ → Prop) (x : Effect ε σ α) : Prop :=
  ∀ s, r s (x.run s)

variable {r : σ → σ → Prop}

theorem Keeps.ends (h : Keeps r x) (s : σ) : Ends x (fun _ => r s) (fun _ => r s) s :=
  ends_run.mpr (h s)

theorem keeps_pure (hrefl : ∀ s, r s s) (a : α) : Keeps r (pure a : Effect ε σ α) := hrefl

theorem keeps_get (hrefl : ∀ s, r s s) : Keeps r (get : Effect ε σ σ) := hrefl

theorem keeps_modify {g : σ → σ} (h : ∀ s, r s (g s)) : Keeps r (modify g : Effect ε σ Unit) := h

/-- What follows a check knows that it was passed. -/
theorem rel_run_check_bind {p : Prop} [Decidable p] {e : ε} {g : Unit → Effect ε σ α}
    (hrefl : ∀ s, r s s) (hg : p → r s ((g ()).run s)) : r s ((check p e >>= g).run s) := by
  by_cases hp : p
  · rw [check, if_pos hp]
    exact hg hp
  · rw [check, if_neg hp]
    exact hrefl s

theorem rel_run_onlyIf {p : Prop} [Decidable p] {x : Effect ε σ Unit} (hrefl : ∀ s, r s s)
    (hx : p → r s (x.run s)) : r s ((onlyIf p x).run s) := by
  rw [onlyIf]
  split
  · rename_i hp
    exact hx hp
  · exact hrefl s

theorem rel_run_ifSome {value : Option α} {f : α → Effect ε σ Unit} (hrefl : ∀ s, r s s)
    (hf : ∀ a, value = some a → r s ((f a).run s)) : r s ((ifSome value f).run s) := by
  cases value with
  | none => exact hrefl s
  | some a => exact hf a rfl

theorem keeps_transaction {read : σ → δ} {write : δ → σ → σ} {f : σ → δ → Except ε (α × δ)}
    (hrefl : ∀ s, r s s) (h : ∀ s a d, f s (read s) = .ok (a, d) → r s (write d s)) :
    Keeps r (transaction read write f) := by
  intro s
  apply ends_run.mp
  apply ends_transaction.mpr
  exact ⟨fun a d hf => h s a d hf, fun _ _ => hrefl s⟩

/-- The next computation starts from a state that the first one is related to. -/
theorem rel_run_bind (htrans : ∀ s t u, r s t → r t u → r s u) (hx : r s (x.run s))
    (hf : ∀ a t, r s t → r t ((f a).run t)) : r s ((x >>= f).run s) := by
  apply ends_run.mp
  apply ends_bind.mpr
  refine (ends_run.mpr hx).imp (fun a t hst => ?_) (fun _ _ hst => hst)
  exact ends_run.mpr (htrans s t _ hst (hf a t hst))

theorem rel_run_recover (htrans : ∀ s t u, r s t → r t u → r s u) {handler : ε → Effect ε σ α}
    (hx : r s (x.run s)) (hhandler : ∀ e t, r s t → r t ((handler e).run t)) :
    r s ((x.recover handler).run s) := by
  apply ends_run.mp
  apply ends_recover.mpr
  refine (ends_run.mpr hx).imp (fun _ _ hst => hst) (fun e t hst => ?_)
  exact ends_run.mpr (htrans s t _ hst (hhandler e t hst))

theorem Keeps.bind (htrans : ∀ s t u, r s t → r t u → r s u) (hx : Keeps r x)
    (hf : ∀ a, Keeps r (f a)) : Keeps r (x >>= f) :=
  fun s => rel_run_bind htrans (hx s) fun a t _ => hf a t

theorem Keeps.recover (htrans : ∀ s t u, r s t → r t u → r s u) {handler : ε → Effect ε σ α}
    (hx : Keeps r x) (hhandler : ∀ e, Keeps r (handler e)) : Keeps r (x.recover handler) :=
  fun s => rel_run_recover htrans (hx s) fun e t _ => hhandler e t

end Effect

end AnvilRun
