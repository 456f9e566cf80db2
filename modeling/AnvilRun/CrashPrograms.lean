namespace AnvilRun

/-- How a program ends: with a value, with an error, or because the process dies. -/
inductive Outcome (ε α : Type) where
  | ok (value : α)
  | error (error : ε)
  | crash

/-- A program over a state that survives a crash, as the ends and states it may come to. -/
def Program (σ ε α : Type) : Type :=
  σ → Outcome ε α → σ → Prop

namespace Program

variable {σ ε ε' α β : Type}

/-- One operation. When it does not complete, with an error or because of a crash, it may leave
other states behind. -/
def operation (completes : σ → α → σ → Prop) (stops : σ → σ → Prop) : Program σ ε α :=
  fun s outcome t =>
    match outcome with
    | .ok a => completes s a t
    | .error _ => stops s t
    | .crash => stops s t

/-- An operation that reads the state. -/
def read (returns : σ → α → Prop) : Program σ ε α :=
  operation (fun s a t => returns s a ∧ t = s) (fun s t => t = s)

def throw (error : ε) : Program σ ε α :=
  fun s outcome t => outcome = .error error ∧ t = s

instance : Monad (Program σ ε) where
  pure a := fun s outcome t => outcome = .ok a ∧ t = s
  bind p f := fun s outcome t =>
    (∃ a m, p s (.ok a) m ∧ f a m outcome t) ∨
      (∃ e, p s (.error e) t ∧ outcome = .error e) ∨ p s .crash t ∧ outcome = .crash

/-- Run a program and look at its error. -/
def attempt (p : Program σ ε α) : Program σ ε' (Except ε α) :=
  fun s outcome t =>
    (∃ a, p s (.ok a) t ∧ outcome = .ok (.ok a)) ∨
      (∃ e, p s (.error e) t ∧ outcome = .ok (.error e)) ∨ p s .crash t ∧ outcome = .crash

def mapError (f : ε → ε') (p : Program σ ε α) : Program σ ε' α :=
  fun s outcome t =>
    (∃ a, p s (.ok a) t ∧ outcome = .ok a) ∨
      (∃ e, p s (.error e) t ∧ outcome = .error (f e)) ∨ p s .crash t ∧ outcome = .crash

/-! Runs of a program -/

section Runs

variable {p : Program σ ε α} {f : α → Program σ ε β} {s m t : σ} {a : α}

theorem read_ok {returns : σ → α → Prop} (h : returns s a) :
    (read returns : Program σ ε α) s (.ok a) s :=
  ⟨h, rfl⟩

theorem pure_ok : (pure a : Program σ ε α) s (.ok a) s :=
  ⟨rfl, rfl⟩

theorem bind_ok {outcome : Outcome ε β} (hp : p s (.ok a) m) (hf : f a m outcome t) :
    (p >>= f) s outcome t :=
  .inl ⟨a, m, hp, hf⟩

theorem bind_crash (hp : p s .crash t) : (p >>= f) s .crash t :=
  .inr (.inr ⟨hp, rfl⟩)

theorem attempt_ok (hp : p s (.ok a) t) :
    (attempt p : Program σ ε' (Except ε α)) s (.ok (.ok a)) t :=
  .inl ⟨a, hp, rfl⟩

theorem mapError_ok {f : ε → ε'} (hp : p s (.ok a) t) : mapError f p s (.ok a) t :=
  .inl ⟨a, hp, rfl⟩

theorem mapError_crash {f : ε → ε'} (hp : p s .crash t) : mapError f p s .crash t :=
  .inr (.inr ⟨hp, rfl⟩)

end Runs

/-! Triples -/

/-- From a state with the precondition the program returns values with the postcondition, and
whenever it stops, by an error or a crash, the third condition holds. -/
structure Triple (pre : σ → Prop) (p : Program σ ε α) (post : α → σ → Prop)
    (stopped : σ → Prop) : Prop where
  returns : ∀ {s a t}, pre s → p s (.ok a) t → post a t
  fails : ∀ {s e t}, pre s → p s (.error e) t → stopped t
  crashes : ∀ {s t}, pre s → p s .crash t → stopped t

variable {pre pre' : σ → Prop} {p : Program σ ε α} {post post' : α → σ → Prop}
  {stopped stopped' : σ → Prop}

theorem Triple.weaken (h : Triple pre p post stopped) (hpre : ∀ s, pre' s → pre s)
    (hpost : ∀ a s, post a s → post' a s) (hstopped : ∀ s, stopped s → stopped' s) :
    Triple pre' p post' stopped' :=
  ⟨fun hs hp => hpost _ _ (h.returns (hpre _ hs) hp),
    fun hs hp => hstopped _ (h.fails (hpre _ hs) hp),
    fun hs hp => hstopped _ (h.crashes (hpre _ hs) hp)⟩

theorem triple_operation {completes : σ → α → σ → Prop} {stops : σ → σ → Prop}
    (hcompletes : ∀ s a t, pre s → completes s a t → post a t)
    (hstops : ∀ s t, pre s → stops s t → stopped t) :
    Triple pre (operation completes stops : Program σ ε α) post stopped :=
  ⟨fun hs hp => hcompletes _ _ _ hs hp, fun hs hp => hstops _ _ hs hp,
    fun hs hp => hstops _ _ hs hp⟩

theorem triple_read {returns : σ → α → Prop} (hpost : ∀ s a, pre s → returns s a → post a s)
    (hstopped : ∀ s, pre s → stopped s) :
    Triple pre (read returns : Program σ ε α) post stopped := by
  refine triple_operation ?_ ?_
  · rintro s a t hs ⟨hreturns, rfl⟩
    exact hpost _ _ hs hreturns
  · rintro s t hs rfl
    exact hstopped _ hs

theorem triple_pure {a : α} (h : ∀ s, pre s → post a s) :
    Triple pre (pure a : Program σ ε α) post stopped := by
  constructor
  · rintro s b t hs ⟨hb, rfl⟩
    cases hb
    exact h _ hs
  · rintro s e t hs ⟨he, -⟩
    cases he
  · rintro s t hs ⟨hcrash, -⟩
    cases hcrash

theorem triple_throw {e : ε} (h : ∀ s, pre s → stopped s) :
    Triple pre (throw e : Program σ ε α) post stopped := by
  constructor
  · rintro s a t hs ⟨ha, -⟩
    cases ha
  · rintro s e t hs ⟨-, rfl⟩
    exact h _ hs
  · rintro s t hs ⟨hcrash, -⟩
    cases hcrash

theorem triple_bind {f : α → Program σ ε β} {mid : α → σ → Prop} {post : β → σ → Prop}
    (hp : Triple pre p mid stopped) (hf : ∀ a, Triple (mid a) (f a) post stopped) :
    Triple pre (p >>= f) post stopped := by
  constructor
  · rintro s b t hs (⟨a, m, ha, hb⟩ | ⟨e, -, he⟩ | ⟨-, hcrash⟩)
    · exact (hf a).returns (hp.returns hs ha) hb
    · cases he
    · cases hcrash
  · rintro s e t hs (⟨a, m, ha, hb⟩ | ⟨e, he, -⟩ | ⟨-, hcrash⟩)
    · exact (hf a).fails (hp.returns hs ha) hb
    · exact hp.fails hs he
    · cases hcrash
  · rintro s t hs (⟨a, m, ha, hb⟩ | ⟨e, -, he⟩ | ⟨hcrash, -⟩)
    · exact (hf a).crashes (hp.returns hs ha) hb
    · cases he
    · exact hp.crashes hs hcrash

theorem triple_ite {condition : Bool} {q : Program σ ε α}
    (hp : condition = true → Triple pre p post stopped)
    (hq : condition = false → Triple pre q post stopped) :
    Triple pre (if condition then p else q) post stopped := by
  cases condition with
  | true => exact hp rfl
  | false => exact hq rfl

theorem triple_attempt {stopped' : σ → Prop} {post : Except ε α → σ → Prop}
    (h : Triple pre p (fun a => post (.ok a)) stopped)
    (herror : ∀ e s, stopped s → post (.error e) s) (hcrash : ∀ s, stopped s → stopped' s) :
    Triple pre (attempt p : Program σ ε' (Except ε α)) post stopped' := by
  constructor
  · rintro s result t hs (⟨a, ha, hresult⟩ | ⟨e, he, hresult⟩ | ⟨-, hresult⟩)
    · cases hresult
      exact h.returns hs ha
    · cases hresult
      exact herror e t (h.fails hs he)
    · cases hresult
  · rintro s e t hs (⟨a, -, hresult⟩ | ⟨e, -, hresult⟩ | ⟨-, hresult⟩) <;> cases hresult
  · rintro s t hs (⟨a, -, hresult⟩ | ⟨e, -, hresult⟩ | ⟨hstop, -⟩)
    · cases hresult
    · cases hresult
    · exact hcrash t (h.crashes hs hstop)

theorem triple_mapError {f : ε → ε'} (h : Triple pre p post stopped) :
    Triple pre (mapError f p) post stopped := by
  constructor
  · rintro s a t hs (⟨b, hb, hresult⟩ | ⟨e, -, hresult⟩ | ⟨-, hresult⟩)
    · cases hresult
      exact h.returns hs hb
    · cases hresult
    · cases hresult
  · rintro s e t hs (⟨b, -, hresult⟩ | ⟨e', he', -⟩ | ⟨-, hresult⟩)
    · cases hresult
    · exact h.fails hs he'
    · cases hresult
  · rintro s t hs (⟨b, -, hresult⟩ | ⟨e', -, hresult⟩ | ⟨hstop, -⟩)
    · cases hresult
    · cases hresult
    · exact h.crashes hs hstop

end Program

end AnvilRun
