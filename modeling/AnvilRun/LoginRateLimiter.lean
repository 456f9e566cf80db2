import AnvilRun.FixedWindow
import AnvilRun.JsString
import AnvilRun.TransitionSystem
import Mathlib.Logic.Function.Basic

namespace AnvilRun.LoginRateLimiter

open AnvilRun.FixedWindow
open JsString

structure Bucket where
  startedAt : Int
  count : Nat
  deriving DecidableEq

structure AuthConfigValues where
  loginRateLimitWindowMs : Int
  loginRateLimitMax : Nat

/-- The map of the buckets. -/
abbrev Buckets : Type :=
  JsString → Option Bucket

def bucketKey (kind : String) (value : JsString) : JsString :=
  ofString kind ++ ofString ":" ++ value.take 256

def Bucket.isOver (config : AuthConfigValues) (now : Int) (bucket : Bucket) : Bool :=
  decide (config.loginRateLimitWindowMs ≤ now - bucket.startedAt)

/-- `isLimited`, and the map that it leaves. -/
def isLimited (config : AuthConfigValues) (now : Int) (key : JsString) (buckets : Buckets) :
    Bool × Buckets :=
  match buckets key with
  | none => (false, buckets)
  | some bucket =>
      if bucket.isOver config now then (false, Function.update buckets key none)
      else (decide (config.loginRateLimitMax ≤ bucket.count), buckets)

/-- The bucket of a key after a failure. -/
def bump (config : AuthConfigValues) (now : Int) : Option Bucket → Bucket
  | some current =>
      if current.isOver config now then ⟨now, 1⟩ else { current with count := current.count + 1 }
  | none => ⟨now, 1⟩

def increment (config : AuthConfigValues) (now : Int) (key : JsString) (buckets : Buckets) :
    Buckets :=
  Function.update buckets key (some (bump config now (buckets key)))

/-- An attempt to log in, with the normalized user name. -/
structure Attempt where
  ip : JsString
  username : JsString
  deriving DecidableEq

def Attempt.ipKey (attempt : Attempt) : JsString :=
  bucketKey "ip" attempt.ip

def Attempt.usernameKey (attempt : Attempt) : JsString :=
  bucketKey "username" attempt.username

/-- Whether `assertAllowed` lets the attempt pass, and the map that it leaves. -/
def assertAllowed (config : AuthConfigValues) (now : Int) (attempt : Attempt) (buckets : Buckets) :
    Bool × Buckets :=
  let ip := isLimited config now attempt.ipKey buckets
  if ip.1 then (false, ip.2)
  else
    let username := isLimited config now attempt.usernameKey ip.2
    (!username.1, username.2)

def recordFailure (config : AuthConfigValues) (now : Int) (attempt : Attempt) (buckets : Buckets) :
    Buckets :=
  increment config now attempt.usernameKey (increment config now attempt.ipKey buckets)

def recordSuccess (attempt : Attempt) (buckets : Buckets) : Buckets :=
  Function.update (Function.update buckets attempt.ipKey none) attempt.usernameKey none

def Attempt.uses (key : JsString) (attempt : Attempt) : Bool :=
  decide (attempt.ipKey = key) || decide (attempt.usernameKey = key)

/-! Attempts side by side -/

/-- The limiter with the attempts that it has let pass and that are not decided yet, and with the
times of the failures for each key since its last success. -/
structure State where
  buckets : Buckets
  now : Int
  pending : List Attempt
  failures : JsString → List Int

/-- What `AuthService.login` does with the limiter. The password is verified between two steps. -/
inductive Step (config : AuthConfigValues) : State → State → Prop
  | attempt {s : State} {now : Int} (attempt : Attempt) (hnow : s.now ≤ now) :
      Step config s
        { s with
          buckets := (assertAllowed config now attempt s.buckets).2
          now
          pending :=
            if (assertAllowed config now attempt s.buckets).1 then s.pending ++ [attempt]
            else s.pending }
  | failure {s : State} {now : Int} {attempt : Attempt} (hnow : s.now ≤ now)
      (hpending : attempt ∈ s.pending) :
      Step config s
        { s with
          buckets := recordFailure config now attempt s.buckets
          now
          pending := s.pending.erase attempt
          failures := fun key =>
            if attempt.uses key then s.failures key ++ [now] else s.failures key }
  | success {s : State} {now : Int} {attempt : Attempt} (hnow : s.now ≤ now)
      (hpending : attempt ∈ s.pending) :
      Step config s
        { s with
          buckets := recordSuccess attempt s.buckets
          now
          pending := s.pending.erase attempt
          failures := fun key => if attempt.uses key then [] else s.failures key }
  -- the database answers with an error
  | dropped {s : State} {attempt : Attempt} (hpending : attempt ∈ s.pending) :
      Step config s { s with pending := s.pending.erase attempt }

def logins (config : AuthConfigValues) : TransitionSystem State where
  init := fun s => s.buckets = (fun _ => none) ∧ s.pending = [] ∧ s.failures = fun _ => []
  step := Step config

def State.inFlight (key : JsString) (s : State) : Nat :=
  s.pending.countP (Attempt.uses key)

/-! One key -/

variable {config : AuthConfigValues} {now : Int} {key : JsString} {attempt : Attempt}
  {buckets : Buckets} {bucket : Bucket} {s t : State} {c : Nat}

theorem ipKey_ne_usernameKey (attempt other : Attempt) : attempt.ipKey ≠ other.usernameKey := by
  intro h
  have hip : ofString "ip" = [105, 112] := by decide
  have husername : ofString "username" = 117 :: (ofString "username").tail := by decide
  rw [Attempt.ipKey, Attempt.usernameKey, bucketKey, bucketKey, hip, husername] at h
  exact absurd (List.cons.inj h).1 (by decide)

theorem uses_eq_true :
    attempt.uses key = true ↔ attempt.ipKey = key ∨ attempt.usernameKey = key := by
  simp [Attempt.uses]

theorem recordFailure_apply (config : AuthConfigValues) (now : Int) (attempt : Attempt)
    (buckets : Buckets) (key : JsString) :
    recordFailure config now attempt buckets key =
      if attempt.uses key then some (bump config now (buckets key)) else buckets key := by
  have hne := ipKey_ne_usernameKey attempt attempt
  rw [recordFailure, increment, increment, Attempt.uses]
  by_cases husername : attempt.usernameKey = key
  · subst husername
    simp [Function.update_of_ne hne.symm]
  · rw [Function.update_of_ne (Ne.symm husername)]
    by_cases hip : attempt.ipKey = key
    · subst hip
      simp
    · simp [Function.update_of_ne (Ne.symm hip), hip, husername]

theorem recordSuccess_apply (attempt : Attempt) (buckets : Buckets) (key : JsString) :
    recordSuccess attempt buckets key = if attempt.uses key then none else buckets key := by
  rw [recordSuccess, Attempt.uses]
  by_cases husername : attempt.usernameKey = key
  · subst husername
    simp
  · rw [Function.update_of_ne (Ne.symm husername)]
    by_cases hip : attempt.ipKey = key
    · subst hip
      simp
    · simp [Function.update_of_ne (Ne.symm hip), hip, husername]

/-- A bucket is looked at: it stays, or it is over and goes. -/
def Seen (config : AuthConfigValues) (now : Int) (before after : Option Bucket) : Prop :=
  after = before ∨ after = none ∧ ∃ bucket, before = some bucket ∧ bucket.isOver config now = true

theorem Seen.trans {first second third : Option Bucket} (h : Seen config now first second)
    (h' : Seen config now second third) : Seen config now first third := by
  rcases h' with rfl | ⟨rfl, bucket, rfl, hover⟩
  · exact h
  · rcases h with hsame | ⟨hnone, -⟩
    · exact Or.inr ⟨rfl, bucket, hsame.symm, hover⟩
    · cases hnone

theorem seen_isLimited (config : AuthConfigValues) (now : Int) (other : JsString)
    (buckets : Buckets) (key : JsString) :
    Seen config now (buckets key) ((isLimited config now other buckets).2 key) := by
  rw [isLimited]
  split
  · exact Or.inl rfl
  · rename_i bucket hbucket
    split
    · rename_i hover
      by_cases hkey : key = other
      · subst hkey
        exact Or.inr ⟨Function.update_self .., bucket, hbucket, hover⟩
      · exact Or.inl (Function.update_of_ne hkey _ _)
    · exact Or.inl rfl

theorem isLimited_apply_ne {other : JsString} (h : key ≠ other) :
    (isLimited config now other buckets).2 key = buckets key := by
  rw [isLimited]
  split
  · rfl
  · split
    · exact Function.update_of_ne h _ _
    · rfl

/-- A key that is not limited has room. -/
theorem room_of_isLimited (h : (isLimited config now key buckets).1 = false)
    (hbucket : (isLimited config now key buckets).2 key = some bucket) :
    bucket.count < config.loginRateLimitMax := by
  cases hold : buckets key with
  | none =>
      rw [isLimited, hold] at hbucket
      exact absurd (hold.symm.trans hbucket) (by simp)
  | some old =>
      rw [isLimited, hold] at h hbucket
      cases hover : old.isOver config now with
      | true =>
          simp [hover] at hbucket
      | false =>
          simp only [hover, Bool.false_eq_true, if_false, hold, Option.some.injEq,
            decide_eq_false_iff_not, Nat.not_le] at h hbucket
          exact hbucket ▸ h

theorem seen_assertAllowed (config : AuthConfigValues) (now : Int) (attempt : Attempt)
    (buckets : Buckets) (key : JsString) :
    Seen config now (buckets key) ((assertAllowed config now attempt buckets).2 key) := by
  have hip := seen_isLimited config now attempt.ipKey buckets key
  rw [assertAllowed]
  dsimp only
  split
  · exact hip
  · exact hip.trans (seen_isLimited config now attempt.usernameKey _ key)

/-- An attempt passes only if both of its keys have room. -/
theorem room_of_assertAllowed (h : (assertAllowed config now attempt buckets).1 = true)
    (huses : attempt.uses key = true)
    (hbucket : (assertAllowed config now attempt buckets).2 key = some bucket) :
    bucket.count < config.loginRateLimitMax := by
  rw [assertAllowed] at h hbucket
  cases hip : (isLimited config now attempt.ipKey buckets).1 with
  | true =>
      simp [hip] at h
  | false =>
      simp only [hip, Bool.false_eq_true, if_false, Bool.not_eq_true'] at h hbucket
      rcases uses_eq_true.mp huses with rfl | rfl
      · rw [isLimited_apply_ne (ipKey_ne_usernameKey attempt attempt)] at hbucket
        exact room_of_isLimited hip hbucket
      · exact room_of_isLimited h hbucket

/-! The windows of a key -/

theorem isOver_mono {later : Int} (hnow : now ≤ later) (h : bucket.isOver config now = true) :
    bucket.isOver config later = true := by
  rw [Bucket.isOver, decide_eq_true_eq] at h ⊢
  omega

/-- The bucket belongs to the last window, and a window without a bucket is over. -/
def Tracks (config : AuthConfigValues) (now : Int) (windows : List Window) :
    Option Bucket → Prop
  | none => ∀ window ∈ windows, window.start + config.loginRateLimitWindowMs ≤ now
  | some bucket =>
      ∃ front last, windows = front ++ [last] ∧ last.start = bucket.startedAt ∧
        last.times.length = bucket.count

/-- What holds of a key with at most `c` attempts in flight. -/
structure Bounded (config : AuthConfigValues) (c : Nat) (key : JsString) (s : State) : Prop where
  few : s.inFlight key ≤ c
  room : ∀ bucket, s.buckets key = some bucket → bucket.isOver config s.now = false →
    bucket.count + s.inFlight key ≤ config.loginRateLimitMax - 1 + c
  windows : ∃ windows, s.failures key = windows.flatMap Window.times ∧
    Windowed config.loginRateLimitWindowMs (config.loginRateLimitMax - 1 + c) windows ∧
    (∀ window ∈ windows, window.start ≤ s.now) ∧ Tracks config s.now windows (s.buckets key)

theorem Tracks.seen {windows : List Window} {limit : Nat} {before after : Option Bucket}
    {later : Int} (h : Tracks config now windows before) (hseen : Seen config later before after)
    (hwindowed : Windowed config.loginRateLimitWindowMs limit windows)
    (hstarts : ∀ window ∈ windows, window.start ≤ now) (hnow : now ≤ later) :
    Tracks config later windows after := by
  rcases hseen with rfl | ⟨rfl, bucket, rfl, hover⟩
  · cases after with
    | none => exact fun window hmem => (h window hmem).trans hnow
    | some _ => exact h
  · obtain ⟨front, last, rfl, hlast, -⟩ := h
    rw [Bucket.isOver, decide_eq_true_eq, ← hlast] at hover
    intro window hmem
    rcases List.mem_append.mp hmem with hfront | hmem
    · have hapart := hwindowed.last_apart window hfront
      have hstart := hstarts last (List.mem_append_right _ (List.mem_singleton_self _))
      omega
    · obtain rfl := List.mem_singleton.mp hmem
      omega

/-- A failure goes into the window of its bucket, or it opens a window. -/
theorem Tracks.bump {windows : List Window} {limit : Nat} {current : Option Bucket} {later : Int}
    (h : Tracks config now windows current) (hnow : now ≤ later) (hlimit : 0 < limit)
    (hwindowed : Windowed config.loginRateLimitWindowMs limit windows)
    (hstarts : ∀ window ∈ windows, window.start ≤ now)
    (hroom : ∀ bucket, current = some bucket → bucket.isOver config later = false →
      bucket.count < limit) :
    ∃ windows', windows'.flatMap Window.times = windows.flatMap Window.times ++ [later] ∧
      Windowed config.loginRateLimitWindowMs limit windows' ∧
      (∀ window ∈ windows', window.start ≤ later) ∧
      Tracks config later windows' (some (LoginRateLimiter.bump config later current)) := by
  by_cases hlive : ∃ bucket, current = some bucket ∧ bucket.isOver config later = false
  · obtain ⟨bucket, rfl, hlive⟩ := hlive
    obtain ⟨front, last, rfl, hlast, hcount⟩ := h
    have hbefore := hroom bucket rfl hlive
    have hstart := hstarts last (List.mem_append_right _ (List.mem_singleton_self _))
    refine ⟨front ++ [⟨last.start, last.later ++ [later]⟩], by simp [Window.times], ?_, ?_, ?_⟩
    · refine hwindowed.of_append.append ?_ ?_ hwindowed.last_apart
      · intro time hmem
        rcases List.mem_append.mp hmem with hold | hnew
        · have hmem := List.mem_append_right front (List.mem_singleton_self last)
          exact hwindowed.within last hmem time hold
        · obtain rfl := List.mem_singleton.mp hnew
          simp only [Bucket.isOver, decide_eq_false_iff_not, Int.not_le] at hlive
          dsimp only
          omega
      · simp only [Window.times, List.length_cons, List.length_append, List.length_nil] at hcount ⊢
        omega
    · intro window hmem
      rcases List.mem_append.mp hmem with hfront | hmem
      · exact (hstarts window (List.mem_append_left _ hfront)).trans hnow
      · obtain rfl := List.mem_singleton.mp hmem
        exact hstart.trans hnow
    · rw [LoginRateLimiter.bump, hlive]
      refine ⟨front, _, rfl, hlast, ?_⟩
      simp only [Window.times, List.length_cons, List.length_append, List.length_nil] at hcount ⊢
      simpa using hcount
  · have hfree : Tracks config later windows none := by
      refine h.seen ?_ hwindowed hstarts hnow
      cases current with
      | none => exact Or.inl rfl
      | some bucket =>
          refine Or.inr ⟨rfl, bucket, rfl, ?_⟩
          simpa using not_exists.mp hlive bucket
    have hbump : LoginRateLimiter.bump config later current = ⟨later, 1⟩ := by
      rw [LoginRateLimiter.bump.eq_def]
      split
      · rename_i bucket
        rw [if_pos]
        simpa using not_exists.mp hlive bucket
      · rfl
    refine ⟨windows ++ [⟨later, []⟩], by simp [Window.times], ?_, ?_, ?_⟩
    · refine hwindowed.append ?_ hlimit hfree
      intro time hmem
      cases hmem
    · intro window hmem
      rcases List.mem_append.mp hmem with hold | hnew
      · exact (hstarts window hold).trans hnow
      · obtain rfl := List.mem_singleton.mp hnew
        exact le_rfl
    · rw [hbump]
      exact ⟨windows, _, rfl, rfl, rfl⟩

/-! Every run -/

theorem Bounded.room_of_live {later : Int} (h : Bounded config c key s) (hnow : s.now ≤ later)
    (hbucket : s.buckets key = some bucket) (hlive : bucket.isOver config later = false) :
    bucket.count + s.inFlight key ≤ config.loginRateLimitMax - 1 + c := by
  refine h.room bucket hbucket ?_
  by_contra hover
  rw [isOver_mono hnow (Bool.not_eq_false _ ▸ hover)] at hlive
  cases hlive

theorem Bounded.of_attempt {now : Int} (h : Bounded config c key s) (hnow : s.now ≤ now)
    (attempt : Attempt)
    (ht : t = { s with
      buckets := (assertAllowed config now attempt s.buckets).2
      now
      pending :=
        if (assertAllowed config now attempt s.buckets).1 then s.pending ++ [attempt]
        else s.pending })
    (hfew : t.inFlight key ≤ c) : Bounded config c key t := by
  have hseen := seen_assertAllowed config now attempt s.buckets key
  obtain ⟨windows, hfailures, hwindowed, hstarts, htracks⟩ := h.windows
  have hflight : t.inFlight key = s.inFlight key ∨
      (assertAllowed config now attempt s.buckets).1 = true ∧ attempt.uses key = true := by
    subst ht
    rw [State.inFlight, State.inFlight]
    dsimp only
    split
    · rename_i hallowed
      rw [List.countP_append, List.countP_singleton]
      split
      · rename_i huses
        exact Or.inr ⟨hallowed, huses⟩
      · exact Or.inl rfl
    · exact Or.inl rfl
  refine ⟨hfew, ?_, windows, ?_, hwindowed, ?_, ?_⟩
  · intro bucket hbucket hlive
    rcases hflight with hsame | ⟨hallowed, huses⟩
    · subst ht
      rw [hsame]
      rcases hseen with hkept | ⟨hgone, -⟩
      · exact h.room_of_live hnow (hkept.symm.trans hbucket) hlive
      · exact absurd (hgone.symm.trans hbucket) (by simp)
    · have hroom := room_of_assertAllowed hallowed huses (ht ▸ hbucket)
      omega
  · subst ht
    exact hfailures
  · subst ht
    exact fun window hmem => (hstarts window hmem).trans hnow
  · subst ht
    exact htracks.seen hseen hwindowed hstarts hnow

theorem countP_erase_of_mem (key : JsString) {pending : List Attempt} (h : attempt ∈ pending) :
    (pending.erase attempt).countP (Attempt.uses key) +
      (if attempt.uses key = true then 1 else 0) = pending.countP (Attempt.uses key) := by
  rw [(List.perm_cons_erase h).countP_eq, List.countP_cons]

theorem Bounded.of_failure {now : Int} (h : Bounded config c key s) (hnow : s.now ≤ now)
    (hpending : attempt ∈ s.pending)
    (ht : t = { s with
      buckets := recordFailure config now attempt s.buckets
      now
      pending := s.pending.erase attempt
      failures := fun key =>
        if attempt.uses key then s.failures key ++ [now] else s.failures key }) :
    Bounded config c key t := by
  obtain ⟨windows, hfailures, hwindowed, hstarts, htracks⟩ := h.windows
  have hflight : t.inFlight key + (if attempt.uses key = true then 1 else 0) = s.inFlight key := by
    rw [ht]
    exact countP_erase_of_mem key hpending
  have hfew := h.few
  have hafter : t.buckets key =
      if attempt.uses key then some (bump config now (s.buckets key)) else s.buckets key := by
    rw [ht]
    exact recordFailure_apply ..
  have htime : t.now = now := ht ▸ rfl
  have htimes : t.failures key =
      if attempt.uses key then s.failures key ++ [now] else s.failures key := by rw [ht]
  by_cases huses : attempt.uses key = true
  · rw [if_pos huses] at hflight hafter htimes
    refine ⟨by omega, ?_, ?_⟩
    · intro bucket hbucket hlive
      rw [hafter, Option.some.injEq] at hbucket
      subst hbucket
      cases hbefore : s.buckets key with
      | none =>
          rw [bump]
          dsimp only
          omega
      | some before =>
          rw [bump]
          split
          · dsimp only
            omega
          · rename_i hover
            have hroom := h.room_of_live hnow hbefore (Bool.not_eq_true _ ▸ hover)
            dsimp only
            omega
    · obtain ⟨windows', hflat, hwindowed', hstarts', htracks'⟩ :=
        htracks.bump hnow (by omega) hwindowed hstarts fun bucket hbucket hlive => by
          have hroom := h.room_of_live hnow hbucket hlive
          omega
      refine ⟨windows', ?_, hwindowed', htime ▸ hstarts', ?_⟩
      · rw [htimes, hflat, hfailures]
      · rw [htime, hafter]
        exact htracks'
  · rw [if_neg huses] at hflight hafter htimes
    refine ⟨by omega, ?_, windows, htimes.trans hfailures, hwindowed, ?_, ?_⟩
    · intro bucket hbucket hlive
      have hroom := h.room_of_live hnow (hafter.symm.trans hbucket) (htime ▸ hlive)
      omega
    · exact fun window hmem => htime ▸ (hstarts window hmem).trans hnow
    · rw [htime, hafter]
      exact htracks.seen (Or.inl rfl) hwindowed hstarts hnow

theorem Bounded.of_success {now : Int} (h : Bounded config c key s) (hnow : s.now ≤ now)
    (hpending : attempt ∈ s.pending)
    (ht : t = { s with
      buckets := recordSuccess attempt s.buckets
      now
      pending := s.pending.erase attempt
      failures := fun key => if attempt.uses key then [] else s.failures key }) :
    Bounded config c key t := by
  obtain ⟨windows, hfailures, hwindowed, hstarts, htracks⟩ := h.windows
  have hflight : t.inFlight key + (if attempt.uses key = true then 1 else 0) = s.inFlight key := by
    rw [ht]
    exact countP_erase_of_mem key hpending
  have hfew := h.few
  have hafter : t.buckets key = if attempt.uses key then none else s.buckets key := by
    rw [ht]
    exact recordSuccess_apply ..
  have htime : t.now = now := ht ▸ rfl
  have htimes : t.failures key = if attempt.uses key then [] else s.failures key := by rw [ht]
  by_cases huses : attempt.uses key = true
  · rw [if_pos huses] at hafter htimes
    refine ⟨by omega, ?_, [], htimes, windowed_nil, ?_, ?_⟩
    · intro bucket hbucket
      exact absurd (hafter.symm.trans hbucket) (by simp)
    · intro window hmem
      cases hmem
    · rw [hafter]
      intro window hmem
      cases hmem
  · rw [if_neg huses] at hflight hafter htimes
    refine ⟨by omega, ?_, windows, htimes.trans hfailures, hwindowed, ?_, ?_⟩
    · intro bucket hbucket hlive
      have hroom := h.room_of_live hnow (hafter.symm.trans hbucket) (htime ▸ hlive)
      omega
    · exact fun window hmem => htime ▸ (hstarts window hmem).trans hnow
    · rw [htime, hafter]
      exact htracks.seen (Or.inl rfl) hwindowed hstarts hnow

theorem Bounded.of_dropped (h : Bounded config c key s) (hpending : attempt ∈ s.pending) :
    Bounded config c key { s with pending := s.pending.erase attempt } := by
  have hflight := countP_erase_of_mem key hpending
  have hfew := h.few
  rw [State.inFlight] at hfew
  refine ⟨?_, ?_, h.windows⟩
  · rw [State.inFlight]
    dsimp only
    omega
  · intro bucket hbucket hlive
    have hroom := h.room bucket hbucket hlive
    rw [State.inFlight] at hroom ⊢
    dsimp only
    omega

def demoConfig : AuthConfigValues := ⟨1000, 2⟩

def demoAttempt : Attempt := ⟨ofString "10.0.0.1", ofString "alice"⟩

def demoStarted : State := ⟨fun _ => none, 0, [], fun _ => []⟩

def demoPending : State :=
  { demoStarted with
    buckets := (assertAllowed demoConfig 5 demoAttempt demoStarted.buckets).2
    now := 5
    pending := [demoAttempt] }

def demoFailed : State :=
  { demoPending with
    buckets := recordFailure demoConfig 6 demoAttempt demoPending.buckets
    now := 6
    pending := []
    failures := fun key => if demoAttempt.uses key then [6] else [] }

theorem reachable_demoFailed :
    ((logins demoConfig).restrict fun _ t => t.inFlight demoAttempt.usernameKey ≤ 1).Reachable
      demoFailed := by
  have hattempt : Step demoConfig demoStarted demoPending := .attempt demoAttempt (by decide)
  have hfailure : Step demoConfig demoPending demoFailed :=
    .failure (by decide) (List.mem_singleton_self demoAttempt)
  refine .step (.step (.init ⟨rfl, rfl, rfl⟩) ⟨hattempt, ?_⟩) ⟨hfailure, ?_⟩
  · decide
  · decide

end AnvilRun.LoginRateLimiter
