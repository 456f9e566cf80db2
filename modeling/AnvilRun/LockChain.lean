import Mathlib.Order.Basic
import Mathlib.Tactic.SplitIfs

namespace AnvilRun

/-- What a turn does: it waits for the turn in front of it, runs, and is released. -/
inductive Turn.Stage where
  | waiting
  | inside
  | released
  deriving DecidableEq

structure Turn (Key : Type) where
  key : Key
  previous : Option Nat
  stage : Turn.Stage

/-- A lock for each key, made of promises: a turn waits for the one that came last when it was
asked for. The turns are numbered in the order in which they are asked for. -/
structure LockChain (Key : Type) where
  last : Key → Option Nat
  turn : Nat → Option (Turn Key)
  count : Nat

namespace LockChain

variable {Key : Type}

def empty : LockChain Key := ⟨fun _ => none, fun _ => none, 0⟩

def isReleased (l : LockChain Key) (n : Nat) : Bool :=
  match l.turn n with
  | some turn => turn.stage == .released
  | none => false

/-- Whether the promise that a turn waits for is resolved. -/
def admits (l : LockChain Key) (n : Nat) : Bool :=
  match l.turn n with
  | some ⟨_, none, .waiting⟩ => true
  | some ⟨_, some p, .waiting⟩ => l.isReleased p
  | _ => false

def setStage (l : LockChain Key) (n : Nat) (stage : Turn.Stage) : LockChain Key :=
  { l with turn := Function.update l.turn n ((l.turn n).map (fun turn => { turn with stage })) }

def enter (l : LockChain Key) (n : Nat) : LockChain Key :=
  l.setStage n .inside

/-- What the promises say about the order of the turns. -/
structure WellFormed (l : LockChain Key) : Prop where
  fresh {n : Nat} {turn : Turn Key} : l.turn n = some turn → n < l.count
  chain {i n : Nat} {before turn : Turn Key} : i < n → l.turn i = some before →
    l.turn n = some turn → before.key = turn.key → before.stage ≠ .released →
    ∃ p, turn.previous = some p ∧ i ≤ p
  same_key {n p : Nat} {turn : Turn Key} : l.turn n = some turn → turn.previous = some p →
    p < n ∧ ∃ before, l.turn p = some before ∧ before.key = turn.key
  front {i n : Nat} {before turn : Turn Key} : i < n → l.turn i = some before →
    l.turn n = some turn → before.key = turn.key → turn.stage ≠ .waiting →
    before.stage = .released
  last_open {key : Key} {n : Nat} : l.last key = some n →
    ∃ turn, l.turn n = some turn ∧ turn.key = key
  le_last {i : Nat} {turn : Turn Key} : l.turn i = some turn → turn.stage ≠ .released →
    ∃ n, l.last turn.key = some n ∧ i ≤ n

theorem wellFormed_empty : (empty : LockChain Key).WellFormed where
  fresh := nofun
  chain _ := nofun
  same_key := nofun
  front _ := nofun
  last_open := nofun
  le_last := nofun

variable {l : LockChain Key}

/-- Of two turns for one key that are inside, neither came first. -/
theorem WellFormed.exclusive (h : l.WellFormed) {i n : Nat} {turn turn' : Turn Key}
    (hi : l.turn i = some turn) (hn : l.turn n = some turn') (hkey : turn.key = turn'.key)
    (hinside : turn.stage = .inside) (hinside' : turn'.stage = .inside) : i = n := by
  rcases Nat.lt_trichotomy i n with hlt | heq | hlt
  · have := h.front hlt hi hn hkey (by simp [hinside'])
    simp [hinside] at this
  · exact heq
  · have := h.front hlt hn hi hkey.symm (by simp [hinside])
    simp [hinside'] at this

@[simp]
theorem setStage_turn (n : Nat) (stage : Turn.Stage) (i : Nat) :
    (l.setStage n stage).turn i =
      if i = n then (l.turn n).map (fun turn => { turn with stage }) else l.turn i :=
  Function.update_apply l.turn n _ i

@[simp]
theorem setStage_last (n : Nat) (stage : Turn.Stage) : (l.setStage n stage).last = l.last := rfl

@[simp]
theorem setStage_count (n : Nat) (stage : Turn.Stage) : (l.setStage n stage).count = l.count := rfl

/-- A turn after a step of the turn `n`. -/
theorem exists_of_setStage {n i : Nat} {stage : Turn.Stage} {turn : Turn Key}
    (h : (l.setStage n stage).turn i = some turn) : ∃ before, l.turn i = some before ∧
      turn.key = before.key ∧ turn.previous = before.previous ∧
      (i = n ∧ turn.stage = stage ∨ i ≠ n ∧ turn.stage = before.stage) := by
  rw [setStage_turn] at h
  split_ifs at h with hi
  · subst hi
    obtain ⟨before, hbefore, rfl⟩ := Option.map_eq_some_iff.mp h
    exact ⟨before, hbefore, rfl, rfl, Or.inl ⟨rfl, rfl⟩⟩
  · exact ⟨turn, h, rfl, rfl, Or.inr ⟨hi, rfl⟩⟩

theorem exists_setStage {n i : Nat} {turn : Turn Key} (stage : Turn.Stage)
    (h : l.turn i = some turn) :
    ∃ after, (l.setStage n stage).turn i = some after ∧ after.key = turn.key := by
  rw [setStage_turn]
  split_ifs with hi
  · subst hi
    exact ⟨{ turn with stage }, by rw [h]; rfl, rfl⟩
  · exact ⟨turn, h, rfl⟩

/-- The step of a turn that is open and has only released turns in front of it. -/
theorem WellFormed.setStage (h : l.WellFormed) {n : Nat} {stage : Turn.Stage} {turn : Turn Key}
    (hn : l.turn n = some turn) (hopen : turn.stage ≠ .released)
    (hfront : ∀ i before, i < n → l.turn i = some before → before.key = turn.key →
      before.stage = .released) : (l.setStage n stage).WellFormed := by
  have hold : ∀ {i : Nat} {after before : Turn Key}, l.turn i = some before →
      (i = n ∧ after.stage = stage ∨ i ≠ n ∧ after.stage = before.stage) →
      after.stage ≠ .released → before.stage ≠ .released := by
    rintro i after before hi (⟨rfl, -⟩ | ⟨-, hsame⟩) hafter
    · rw [hn] at hi
      rwa [← Option.some.inj hi]
    · rwa [← hsame]
  constructor
  case fresh =>
    intro i after hi
    obtain ⟨before, hbefore, -⟩ := exists_of_setStage hi
    exact h.fresh hbefore
  case chain =>
    intro i m x y hlt hi hm hkey hx
    obtain ⟨x', hx', hxkey, -, hxstage⟩ := exists_of_setStage hi
    obtain ⟨y', hy', hykey, hprevious, -⟩ := exists_of_setStage hm
    rw [hprevious]
    exact h.chain hlt hx' hy' (by rw [← hxkey, hkey, hykey]) (hold hx' hxstage hx)
  case same_key =>
    intro m p x hm hprevious
    obtain ⟨x', hx', hxkey, hsame, -⟩ := exists_of_setStage hm
    obtain ⟨hlt, before, hp, hkey⟩ := h.same_key hx' (hsame ▸ hprevious)
    obtain ⟨after, hafter, hafterKey⟩ := exists_setStage (n := n) stage hp
    exact ⟨hlt, after, hafter, by rw [hafterKey, hkey, hxkey]⟩
  case front =>
    intro i m x y hlt hi hm hkey hy
    obtain ⟨x', hx', hxkey, -, hxstage⟩ := exists_of_setStage hi
    obtain ⟨y', hy', hykey, -, hystage⟩ := exists_of_setStage hm
    have hkeys : x'.key = y'.key := by rw [← hxkey, hkey, hykey]
    rcases hystage with ⟨rfl, -⟩ | ⟨-, hsame⟩
    · rw [hn] at hy'
      obtain rfl := Option.some.inj hy'
      rcases hxstage with ⟨rfl, -⟩ | ⟨-, hxsame⟩
      · exact absurd hlt (Nat.lt_irrefl _)
      · rw [hxsame]
        exact hfront i x' hlt hx' hkeys
    · have hreleased := h.front hlt hx' hy' hkeys (hsame ▸ hy)
      rcases hxstage with ⟨rfl, -⟩ | ⟨-, hxsame⟩
      · rw [hn] at hx'
        exact absurd (Option.some.inj hx' ▸ hreleased) hopen
      · rw [hxsame, hreleased]
  case last_open =>
    intro key m hm
    obtain ⟨x, hx, hxkey⟩ := h.last_open hm
    obtain ⟨after, hafter, hkey⟩ := exists_setStage (n := n) stage hx
    exact ⟨after, hafter, hkey.trans hxkey⟩
  case le_last =>
    intro i x hi hx
    obtain ⟨x', hx', hxkey, -, hxstage⟩ := exists_of_setStage hi
    rw [hxkey]
    exact h.le_last hx' (hold hx' hxstage hx)

/-- A turn that may enter waits, and has only released turns in front of it. -/
theorem WellFormed.of_admits (h : l.WellFormed) {n : Nat} (hadmits : l.admits n = true) :
    ∃ turn, l.turn n = some turn ∧ turn.stage = .waiting ∧
      ∀ i before, i < n → l.turn i = some before → before.key = turn.key →
        before.stage = .released := by
  rw [admits] at hadmits
  split at hadmits
  case h_1 key hn =>
    refine ⟨_, hn, rfl, fun i before hlt hi hkey => ?_⟩
    by_contra hopen
    obtain ⟨p, hprevious, -⟩ := h.chain hlt hi hn hkey hopen
    simp at hprevious
  case h_2 key p hn =>
    refine ⟨_, hn, rfl, fun i before hlt hi hkey => ?_⟩
    obtain ⟨-, previous, hp, hsame⟩ := h.same_key hn rfl
    have hreleased : previous.stage = .released := by
      simpa [isReleased, hp] using hadmits
    by_contra hopen
    obtain ⟨q, hprevious, hle⟩ := h.chain hlt hi hn hkey hopen
    obtain rfl := Option.some.inj hprevious
    rcases Nat.eq_or_lt_of_le hle with rfl | hearlier
    · rw [hi] at hp
      exact hopen (Option.some.inj hp ▸ hreleased)
    · exact hopen (h.front hearlier hi hp (hkey.trans hsame.symm) (by simp [hreleased]))
  case h_3 => simp at hadmits

theorem WellFormed.enter (h : l.WellFormed) {n : Nat} (hadmits : l.admits n = true) :
    (l.enter n).WellFormed := by
  obtain ⟨turn, hn, hwaiting, hfront⟩ := h.of_admits hadmits
  exact h.setStage hn (by simp [hwaiting]) hfront

variable [DecidableEq Key]

def request (l : LockChain Key) (key : Key) : LockChain Key where
  last := Function.update l.last key (some l.count)
  turn := Function.update l.turn l.count (some ⟨key, l.last key, .waiting⟩)
  count := l.count + 1

/-- The last turn for a key takes its entry out of the map. -/
def release (l : LockChain Key) (key : Key) (n : Nat) : LockChain Key :=
  { l.setStage n .released with
    last := if l.last key = some n then Function.update l.last key none else l.last }

@[simp]
theorem request_turn (key : Key) (i : Nat) : (l.request key).turn i =
    if i = l.count then some ⟨key, l.last key, .waiting⟩ else l.turn i :=
  Function.update_apply l.turn l.count _ i

@[simp]
theorem release_turn (key : Key) (n i : Nat) :
    (l.release key n).turn i = (l.setStage n .released).turn i := rfl

theorem request_last (key other : Key) : (l.request key).last other =
    if other = key then some l.count else l.last other :=
  Function.update_apply l.last key _ other

theorem release_last (key other : Key) (n : Nat) : (l.release key n).last other =
    if l.last key = some n ∧ other = key then none else l.last other := by
  by_cases hlast : l.last key = some n
  · rw [release, if_pos hlast]
    simp [Function.update_apply, hlast]
  · rw [release, if_neg hlast]
    simp [hlast]

/-- The turn that a request adds, or one that was there. -/
theorem exists_of_request {key : Key} {i : Nat} {turn : Turn Key}
    (h : (l.request key).turn i = some turn) :
    i = l.count ∧ turn = ⟨key, l.last key, .waiting⟩ ∨ i ≠ l.count ∧ l.turn i = some turn := by
  rw [request_turn] at h
  split_ifs at h with hi
  · exact Or.inl ⟨hi, (Option.some.inj h).symm⟩
  · exact Or.inr ⟨hi, h⟩

theorem WellFormed.request_of_some (h : l.WellFormed) (key : Key) {i : Nat} {turn : Turn Key}
    (hi : l.turn i = some turn) : (l.request key).turn i = some turn := by
  rw [request_turn, if_neg (Nat.ne_of_lt (h.fresh hi)), hi]

theorem WellFormed.request (h : l.WellFormed) (key : Key) : (l.request key).WellFormed := by
  constructor
  case fresh =>
    intro i turn hi
    rcases exists_of_request hi with ⟨rfl, -⟩ | ⟨-, hi⟩
    · exact Nat.lt_succ_self _
    · exact Nat.lt_succ_of_lt (h.fresh hi)
  case chain =>
    intro i n before turn hlt hi hn hkey hopen
    rcases exists_of_request hn with ⟨rfl, rfl⟩ | ⟨-, hn⟩
    · rcases exists_of_request hi with ⟨rfl, -⟩ | ⟨-, hi⟩
      · exact absurd hlt (Nat.lt_irrefl _)
      · have hlast := h.le_last hi hopen
        rwa [hkey] at hlast
    · rcases exists_of_request hi with ⟨rfl, -⟩ | ⟨-, hi⟩
      · exact absurd (h.fresh hn) (Nat.lt_asymm hlt)
      · exact h.chain hlt hi hn hkey hopen
  case same_key =>
    intro n p turn hn hprevious
    rcases exists_of_request hn with ⟨rfl, rfl⟩ | ⟨-, hn⟩
    · obtain ⟨before, hp, hkey⟩ := h.last_open hprevious
      exact ⟨h.fresh hp, before, h.request_of_some key hp, hkey⟩
    · obtain ⟨hlt, before, hp, hkey⟩ := h.same_key hn hprevious
      exact ⟨hlt, before, h.request_of_some key hp, hkey⟩
  case front =>
    intro i n before turn hlt hi hn hkey hstage
    rcases exists_of_request hn with ⟨rfl, rfl⟩ | ⟨-, hn⟩
    · exact absurd rfl hstage
    · rcases exists_of_request hi with ⟨rfl, -⟩ | ⟨-, hi⟩
      · exact absurd (h.fresh hn) (Nat.lt_asymm hlt)
      · exact h.front hlt hi hn hkey hstage
  case last_open =>
    intro other n hn
    rw [request_last] at hn
    split_ifs at hn with hother
    · obtain rfl := Option.some.inj hn
      exact ⟨_, by rw [request_turn, if_pos rfl], hother.symm⟩
    · obtain ⟨turn, hturn, hkey⟩ := h.last_open hn
      exact ⟨turn, h.request_of_some key hturn, hkey⟩
  case le_last =>
    intro i turn hi hopen
    rw [request_last]
    rcases exists_of_request hi with ⟨rfl, rfl⟩ | ⟨-, hi⟩
    · exact ⟨l.count, if_pos rfl, Nat.le_refl _⟩
    · split_ifs with hkey
      · exact ⟨l.count, rfl, Nat.le_of_lt (h.fresh hi)⟩
      · exact h.le_last hi hopen

theorem WellFormed.release (h : l.WellFormed) {n : Nat} {turn : Turn Key}
    (hn : l.turn n = some turn) (hinside : turn.stage = .inside) :
    (l.release turn.key n).WellFormed := by
  have hfront : ∀ i before, i < n → l.turn i = some before → before.key = turn.key →
      before.stage = .released :=
    fun i before hlt hi hkey => h.front hlt hi hn hkey (by simp [hinside])
  have hreleased : (l.setStage n .released).WellFormed :=
    h.setStage hn (by simp [hinside]) hfront
  refine ⟨hreleased.fresh, hreleased.chain, hreleased.same_key, hreleased.front, ?_, ?_⟩
  · intro key m hm
    rw [release_last] at hm
    split_ifs at hm
    exact hreleased.last_open hm
  · intro i x hi hopen
    obtain ⟨m, hm, hle⟩ := hreleased.le_last hi hopen
    rw [release_last]
    split_ifs with hlast
    · obtain ⟨hlast, hkey⟩ := hlast
      rw [setStage_last, hkey, hlast] at hm
      obtain rfl := Option.some.inj hm
      obtain ⟨before, hbefore, hbeforeKey, -, hstage⟩ := exists_of_setStage hi
      rcases hstage with ⟨rfl, hstage⟩ | ⟨hne, hstage⟩
      · exact absurd hstage hopen
      · rw [hstage] at hopen
        exact absurd (hfront i before (Nat.lt_of_le_of_ne hle hne) hbefore
          (hbeforeKey.symm.trans hkey)) hopen
    · exact ⟨m, hm, hle⟩

end LockChain

end AnvilRun
