import AnvilRun.Fallible
import AnvilRun.Table
import AnvilRun.TransitionSystem

namespace AnvilRun.RefreshSessions

open Fallible

/-! Users, refresh tokens and logins -/

inductive UserRole where
  | admin | user
  deriving DecidableEq

inductive UserStatus where
  | active | disabled
  deriving DecidableEq

structure User where
  role : UserRole
  status : UserStatus
  tokenVersion : Nat

/-- A row of `RefreshToken` under its unique `tokenHash`. `login` is the login that the token
descends from, which the database does not store. -/
structure RefreshToken (UserId LoginId : Type) where
  userId : UserId
  expiresAt : Nat
  revokedAt : Option Nat
  login : LoginId

/-- A login that has read its user. `waiting` says that `create` has not made its session yet. -/
structure Login (UserId : Type) where
  userId : UserId
  expectedTokenVersion : Nat
  waiting : Bool

/-- What handed out a new refresh token. -/
inductive Session (UserId TokenHash LoginId : Type) where
  | created (userId : UserId) (login : LoginId)
  | rotated (userId : UserId) (login : LoginId) (tokenHash : TokenHash)

structure State (UserId TokenHash LoginId : Type) where
  users : Table UserId User
  refreshTokens : Table TokenHash (RefreshToken UserId LoginId)
  logins : Table LoginId (Login UserId)
  /-- All sessions so far, the last one at the end. -/
  sessions : List (Session UserId TokenHash LoginId)

inductive ApiException where
  | authInvalidCredentials | authAccountDisabled | authTokenExpired
  | resourceNotFound | validationFailed | internal

variable {UserId TokenHash LoginId : Type}

def Session.userId : Session UserId TokenHash LoginId → UserId
  | .created userId _ => userId
  | .rotated userId _ _ => userId

def Session.login : Session UserId TokenHash LoginId → LoginId
  | .created _ login => login
  | .rotated _ login _ => login

/-- The token that a session was made from. -/
def Session.rotatedFrom : Session UserId TokenHash LoginId → Option TokenHash
  | .created _ _ => none
  | .rotated _ _ tokenHash => some tokenHash

section Requests

variable [DecidableEq UserId] [DecidableEq TokenHash] [DecidableEq LoginId]

namespace State

/-- Set `revokedAt` on the rows that a condition selects and that are not revoked. -/
def revokeWhere (state : State UserId TokenHash LoginId)
    (selects : TokenHash → RefreshToken UserId LoginId → Bool) (now : Nat) :
    State UserId TokenHash LoginId :=
  { state with
    refreshTokens := state.refreshTokens.map (fun tokenHash token =>
      if selects tokenHash token && token.revokedAt.isNone then { token with revokedAt := some now }
      else token) }

/-- `AuthService.login` reads the user and refuses a disabled one. The password was right. -/
def login (state : State UserId TokenHash LoginId) (login : LoginId) (userId : UserId) :
    Except ApiException (State UserId TokenHash LoginId) := do
  let user ← require (state.users.row userId) .authInvalidCredentials
  ensure (user.status ≠ .disabled) .authAccountDisabled
  let logins ← require (state.logins.insert login ⟨userId, user.tokenVersion, true⟩) .internal
  return { state with logins := logins }

/-- The transaction of `create`, for the user and the version that a login has read. -/
def create (state : State UserId TokenHash LoginId) (login : LoginId) (tokenHash : TokenHash)
    (expiresAt : Nat) : Except ApiException (State UserId TokenHash LoginId) := do
  let read ← require (state.logins.row login) .internal
  ensure (read.waiting = true) .internal
  let current ← require (state.users.row read.userId) .authTokenExpired
  ensure (current.status ≠ .disabled) .authAccountDisabled
  ensure (current.tokenVersion = read.expectedTokenVersion) .authTokenExpired
  let refreshTokens ← require
    (state.refreshTokens.insert tokenHash ⟨read.userId, expiresAt, none, login⟩) .internal
  return { state with
    refreshTokens := refreshTokens
    logins := state.logins.modify login (fun read => { read with waiting := false })
    sessions := state.sessions ++ [.created read.userId login] }

/-- The transaction of `rotate`. The time was read before it. -/
def rotate (state : State UserId TokenHash LoginId) (tokenHash newTokenHash : TokenHash)
    (now expiresAt : Nat) : Except ApiException (State UserId TokenHash LoginId) := do
  let current ← require (state.refreshTokens.row tokenHash) .authTokenExpired
  let user ← require (state.users.row current.userId) .authTokenExpired
  ensure (current.revokedAt = none ∧ now < current.expiresAt) .authTokenExpired
  ensure (user.status ≠ .disabled) .authAccountDisabled
  let claimed := state.refreshTokens.modify tokenHash (fun token =>
    { token with revokedAt := some now })
  let refreshTokens ← require
    (claimed.insert newTokenHash ⟨current.userId, expiresAt, none, current.login⟩) .internal
  return { state with
    refreshTokens := refreshTokens
    sessions := state.sessions ++ [.rotated current.userId current.login tokenHash] }

/-- The update of `revoke`, which may come long after its read. -/
def revoke (state : State UserId TokenHash LoginId) (tokenHash : TokenHash) (now : Nat) :
    Except ApiException (State UserId TokenHash LoginId) :=
  return state.revokeWhere (fun other _ => other = tokenHash) now

/-- `revokeAllForUser`. -/
def revokeAllForUser (state : State UserId TokenHash LoginId) (userId : UserId) (now : Nat) :
    State UserId TokenHash LoginId :=
  state.revokeWhere (fun _ token => token.userId = userId) now

def activeAdmins (state : State UserId TokenHash LoginId) : Nat :=
  (state.users.entries.filter (fun entry =>
    entry.2.role = .admin && entry.2.status = .active)).length

def disableUser (state : State UserId TokenHash LoginId) (actorId userId : UserId) (now : Nat) :
    Except ApiException (State UserId TokenHash LoginId) := do
  ensure (actorId ≠ userId) .validationFailed
  let target ← require (state.users.row userId) .resourceNotFound
  if target.status = .disabled then return state
  else
    ensure (target.role = .admin → 1 < state.activeAdmins) .validationFailed
    let users := state.users.modify userId (fun user =>
      { user with status := .disabled, tokenVersion := user.tokenVersion + 1 })
    return { state with users := users }.revokeAllForUser userId now

def resetPassword (state : State UserId TokenHash LoginId) (userId : UserId) (now : Nat) :
    Except ApiException (State UserId TokenHash LoginId) := do
  let _ ← require (state.users.row userId) .resourceNotFound
  let users := state.users.modify userId (fun user =>
    { user with tokenVersion := user.tokenVersion + 1 })
  return { state with users := users }.revokeAllForUser userId now

def enableUser (state : State UserId TokenHash LoginId) (userId : UserId) :
    Except ApiException (State UserId TokenHash LoginId) := do
  let _ ← require (state.users.row userId) .resourceNotFound
  return { state with users := state.users.modify userId (fun user =>
    { user with status := .active }) }

end State

/-- One transaction, or one statement outside of a transaction. -/
inductive Request (UserId TokenHash LoginId : Type) where
  | login (login : LoginId) (userId : UserId)
  | create (login : LoginId) (tokenHash : TokenHash) (expiresAt : Nat)
  | rotate (tokenHash newTokenHash : TokenHash) (now expiresAt : Nat)
  | revoke (tokenHash : TokenHash) (now : Nat)
  | disableUser (actorId userId : UserId) (now : Nat)
  | resetPassword (userId : UserId) (now : Nat)
  | enableUser (userId : UserId)

namespace State

def execute (state : State UserId TokenHash LoginId) :
    Request UserId TokenHash LoginId → Except ApiException (State UserId TokenHash LoginId)
  | .login login userId => state.login login userId
  | .create login tokenHash expiresAt => state.create login tokenHash expiresAt
  | .rotate tokenHash newTokenHash now expiresAt => state.rotate tokenHash newTokenHash now expiresAt
  | .revoke tokenHash now => state.revoke tokenHash now
  | .disableUser actorId userId now => state.disableUser actorId userId now
  | .resetPassword userId now => state.resetPassword userId now
  | .enableUser userId => state.enableUser userId

/-- A request that fails rolls its transaction back. -/
def step (state : State UserId TokenHash LoginId) (request : Request UserId TokenHash LoginId) :
    State UserId TokenHash LoginId :=
  match state.execute request with
  | .ok next => next
  | .error _ => state

def run (state : State UserId TokenHash LoginId)
    (requests : List (Request UserId TokenHash LoginId)) : State UserId TokenHash LoginId :=
  requests.foldl step state

end State

end Requests

/-- Users without a session. -/
def initialState (users : Table UserId User) : State UserId TokenHash LoginId :=
  ⟨users, .empty, .empty, []⟩

/-! What a request does -/

/-- A request that hands out no session: it revokes tokens, and a user whom it disables has no
token and a new version then. -/
structure Update (s t : State UserId TokenHash LoginId) : Prop where
  logins : t.logins = s.logins
  sessions : t.sessions = s.sessions
  tokens_back : ∀ tokenHash token, t.refreshTokens.row tokenHash = some token →
    ∃ old, s.refreshTokens.row tokenHash = some old ∧ token.userId = old.userId ∧
      token.login = old.login ∧ (token.revokedAt = none → old.revokedAt = none)
  tokens_forth : ∀ tokenHash old, s.refreshTokens.row tokenHash = some old →
    ∃ token, t.refreshTokens.row tokenHash = some token ∧ token.login = old.login ∧
      (old.revokedAt ≠ none → token.revokedAt ≠ none)
  users : ∀ userId user, t.users.row userId = some user →
    ∃ old, s.users.row userId = some old ∧ old.tokenVersion ≤ user.tokenVersion ∧
      (user.status = .disabled → old.status = .disabled ∨ old.tokenVersion < user.tokenVersion ∧
        ∀ tokenHash token, t.refreshTokens.row tokenHash = some token → token.userId = userId →
          token.revokedAt ≠ none)

section Updates

variable {s : State UserId TokenHash LoginId}

theorem State.revokeWhere_row
    {selects : TokenHash → RefreshToken UserId LoginId → Bool} {now : Nat} {tokenHash : TokenHash}
    {token : RefreshToken UserId LoginId}
    (h : (s.revokeWhere selects now).refreshTokens.row tokenHash = some token) :
    ∃ old, s.refreshTokens.row tokenHash = some old ∧ token.userId = old.userId ∧
      token.login = old.login ∧
      (token.revokedAt = none → old.revokedAt = none ∧ selects tokenHash old = false) := by
  rw [State.revokeWhere, Table.map_row, Option.map_eq_some_iff] at h
  obtain ⟨old, hold, rfl⟩ := h
  refine ⟨old, hold, ?_⟩
  split
  · exact ⟨rfl, rfl, fun hrevoked => nomatch hrevoked⟩
  · rename_i hkept
    refine ⟨rfl, rfl, fun hrevoked => ⟨hrevoked, ?_⟩⟩
    simpa [hrevoked] using hkept

theorem State.revokeWhere_forth
    {selects : TokenHash → RefreshToken UserId LoginId → Bool} {now : Nat} {tokenHash : TokenHash}
    {old : RefreshToken UserId LoginId} (h : s.refreshTokens.row tokenHash = some old) :
    ∃ token, (s.revokeWhere selects now).refreshTokens.row tokenHash = some token ∧
      token.login = old.login ∧ (old.revokedAt ≠ none → token.revokedAt ≠ none) := by
  rw [State.revokeWhere, Table.map_row, h, Option.map_some]
  refine ⟨_, rfl, ?_⟩
  split
  · exact ⟨rfl, fun _ => Option.some_ne_none _⟩
  · exact ⟨rfl, id⟩

/-- Changing the users and revoking tokens is an update if a user who is disabled by it loses all
tokens and gets a new version. -/
theorem update_revokeWhere {users : Table UserId User}
    (selects : TokenHash → RefreshToken UserId LoginId → Bool) (now : Nat)
    (h : ∀ userId user, users.row userId = some user →
      ∃ old, s.users.row userId = some old ∧ old.tokenVersion ≤ user.tokenVersion ∧
        (user.status = .disabled → old.status = .disabled ∨
          old.tokenVersion < user.tokenVersion ∧
            ∀ tokenHash token, token.userId = userId → selects tokenHash token = true)) :
    Update s ({ s with users := users }.revokeWhere selects now) := by
  refine ⟨rfl, rfl, fun tokenHash token hrow => ?_, fun tokenHash old hrow => ?_,
    fun userId user huser => ?_⟩
  · obtain ⟨old, hold, huserId, hlogin, hrevoked⟩ := State.revokeWhere_row hrow
    exact ⟨old, hold, huserId, hlogin, fun hnone => (hrevoked hnone).1⟩
  · exact State.revokeWhere_forth hrow
  · obtain ⟨old, hold, hversion, hdisabled⟩ := h userId user huser
    refine ⟨old, hold, hversion, fun hstatus => (hdisabled hstatus).imp_right ?_⟩
    rintro ⟨hlt, hselects⟩
    refine ⟨hlt, fun tokenHash token hrow huserId hnone => ?_⟩
    obtain ⟨before, -, hsame, -, hrevoked⟩ := State.revokeWhere_row hrow
    have hselected := hselects tokenHash before (hsame.symm.trans huserId)
    rw [(hrevoked hnone).2] at hselected
    cases hselected

theorem Update.refl (s : State UserId TokenHash LoginId) : Update s s :=
  ⟨rfl, rfl, fun _ token h => ⟨token, h, rfl, rfl, id⟩, fun _ token h => ⟨token, h, rfl, id⟩,
    fun _ user h => ⟨user, h, Nat.le_refl _, .inl⟩⟩

end Updates

/-! Single use -/

/-- The tokens from which sessions were made. -/
def State.rotated (s : State UserId TokenHash LoginId) : List TokenHash :=
  s.sessions.filterMap Session.rotatedFrom

/-- No token is rotated twice, and a login has one live token at most. -/
structure SingleUse (s : State UserId TokenHash LoginId) : Prop where
  rotatedOnce : s.rotated.Nodup
  oneLive : ∀ now tokenHash other token otherToken,
    s.refreshTokens.row tokenHash = some token → s.refreshTokens.row other = some otherToken →
      token.revokedAt = none → now < token.expiresAt →
      otherToken.revokedAt = none → now < otherToken.expiresAt →
      token.login = otherToken.login → tokenHash = other

/-- What holds of the tables between two requests. -/
structure Consistent (s : State UserId TokenHash LoginId) : Prop where
  nodup : s.rotated.Nodup
  /-- A token from which a session was made is revoked. -/
  used : ∀ tokenHash ∈ s.rotated, ∃ token, s.refreshTokens.row tokenHash = some token ∧
    token.revokedAt ≠ none
  single : ∀ tokenHash other token otherToken,
    s.refreshTokens.row tokenHash = some token → s.refreshTokens.row other = some otherToken →
      token.revokedAt = none → otherToken.revokedAt = none → token.login = otherToken.login →
      tokenHash = other
  /-- A token descends from a login of its user, which has made its session. -/
  descends : ∀ tokenHash token, s.refreshTokens.row tokenHash = some token →
    ∃ read, s.logins.row token.login = some read ∧ read.userId = token.userId ∧
      read.waiting = false
  version : ∀ login read user, s.logins.row login = some read →
    s.users.row read.userId = some user → read.expectedTokenVersion ≤ user.tokenVersion
  /-- A disabled user has no token, and every login has read an earlier version. -/
  disabled : ∀ userId user, s.users.row userId = some user → user.status = .disabled →
    (∀ login read, s.logins.row login = some read → read.userId = userId →
      read.expectedTokenVersion < user.tokenVersion) ∧
    ∀ tokenHash token, s.refreshTokens.row tokenHash = some token → token.userId = userId →
      token.revokedAt ≠ none

theorem Consistent.singleUse {s : State UserId TokenHash LoginId} (h : Consistent s) :
    SingleUse s :=
  ⟨h.nodup, fun _ tokenHash other token otherToken htoken hother hrevoked _ hotherRevoked _ =>
    h.single tokenHash other token otherToken htoken hother hrevoked hotherRevoked⟩

theorem initialState_consistent (users : Table UserId User) :
    Consistent (initialState users : State UserId TokenHash LoginId) := by
  constructor
  · exact List.nodup_nil
  · exact fun _ hmem => absurd hmem List.not_mem_nil
  · exact fun _ _ _ _ hrow => nomatch hrow
  · exact fun _ _ hrow => nomatch hrow
  · exact fun _ _ _ hrow => nomatch hrow
  · exact fun _ _ _ _ => ⟨fun _ _ hrow => (nomatch hrow), fun _ _ hrow => nomatch hrow⟩

section Steps

variable {s : State UserId TokenHash LoginId}

theorem Consistent.login [DecidableEq LoginId] (h : Consistent s) {login : LoginId} {userId : UserId} {user : User}
    {logins : Table LoginId (Login UserId)} (huser : s.users.row userId = some user)
    (hactive : user.status ≠ .disabled)
    (hinsert : s.logins.insert login ⟨userId, user.tokenVersion, true⟩ = some logins) :
    Consistent { s with logins := logins } := by
  have hrow := Table.insert_row hinsert
  have hfresh := Table.insert_fresh hinsert
  refine ⟨h.nodup, h.used, h.single, fun tokenHash token htoken => ?_,
    fun other read reader hread hreader => ?_, fun other disabled hother hstatus => ⟨?_, ?_⟩⟩
  · obtain ⟨read, hread, hsame⟩ := h.descends tokenHash token htoken
    have hne : token.login ≠ login := fun heq => by
      rw [heq, hfresh] at hread
      cases hread
    exact ⟨read, by rw [hrow, if_neg hne, hread], hsame⟩
  · rw [hrow] at hread
    split at hread
    · obtain rfl := Option.some.inj hread
      rw [huser] at hreader
      obtain rfl := Option.some.inj hreader
      exact Nat.le_refl _
    · exact h.version other read reader hread hreader
  · intro otherLogin read hread hreader
    rw [hrow] at hread
    split at hread
    · obtain rfl := Option.some.inj hread
      subst hreader
      rw [huser] at hother
      obtain rfl := Option.some.inj hother
      exact absurd hstatus hactive
    · exact (h.disabled other disabled hother hstatus).1 otherLogin read hread hreader
  · exact (h.disabled other disabled hother hstatus).2

theorem Consistent.create [DecidableEq TokenHash] [DecidableEq LoginId] (h : Consistent s)
    {login : LoginId} {read : Login UserId} {user : User} {tokenHash : TokenHash} {expiresAt : Nat}
    {refreshTokens : Table TokenHash (RefreshToken UserId LoginId)}
    (hread : s.logins.row login = some read) (hwaiting : read.waiting = true)
    (huser : s.users.row read.userId = some user) (hactive : user.status ≠ .disabled)
    (hinsert : s.refreshTokens.insert tokenHash ⟨read.userId, expiresAt, none, login⟩ =
      some refreshTokens) :
    Consistent { s with
      refreshTokens := refreshTokens
      logins := s.logins.modify login (fun read => { read with waiting := false })
      sessions := s.sessions ++ [.created read.userId login] } := by
  have hrow := Table.insert_row hinsert
  have hfresh := Table.insert_fresh hinsert
  -- a login that waits has no token yet
  have hnone : ∀ other token, s.refreshTokens.row other = some token → token.login ≠ login := by
    intro other token htoken heq
    obtain ⟨made, hmade, -, hdone⟩ := h.descends other token htoken
    rw [heq, hread] at hmade
    obtain rfl := Option.some.inj hmade
    rw [hwaiting] at hdone
    cases hdone
  have hlogins : ∀ other made,
      (s.logins.modify login (fun read => { read with waiting := false })).row other = some made →
        ∃ before, s.logins.row other = some before ∧ made.userId = before.userId ∧
          made.expectedTokenVersion = before.expectedTokenVersion := by
    intro other made hmade
    rw [Table.modify_row] at hmade
    split at hmade
    · obtain ⟨before, hbefore, rfl⟩ := Option.map_eq_some_iff.mp hmade
      exact ⟨before, hbefore, rfl, rfl⟩
    · exact ⟨made, hmade, rfl, rfl⟩
  have hrotated : (s.sessions ++ [Session.created read.userId login]).filterMap
      Session.rotatedFrom = s.rotated := by
    rw [List.filterMap_append]
    exact List.append_nil _
  refine ⟨?_, ?_, ?_, ?_, ?_, ?_⟩
  · have hnodup := h.nodup
    rwa [← hrotated] at hnodup
  · intro other hmem
    have hold : other ∈ s.rotated := by
      rw [← hrotated]
      exact hmem
    obtain ⟨token, htoken, hrevoked⟩ := h.used other hold
    have hne : other ≠ tokenHash := fun heq => by
      rw [heq, hfresh] at htoken
      cases htoken
    exact ⟨token, by rw [hrow, if_neg hne, htoken], hrevoked⟩
  · intro first second firstToken secondToken hfirst hsecond hlive hlive' hsame
    rw [hrow] at hfirst hsecond
    split at hfirst <;> split at hsecond
    · rename_i heq heq'
      exact heq.trans heq'.symm
    · obtain rfl := Option.some.inj hfirst
      exact absurd hsame.symm (hnone second secondToken hsecond)
    · obtain rfl := Option.some.inj hsecond
      exact absurd hsame (hnone first firstToken hfirst)
    · exact h.single first second firstToken secondToken hfirst hsecond hlive hlive' hsame
  · intro other token htoken
    rw [hrow] at htoken
    split at htoken
    · obtain rfl := Option.some.inj htoken
      exact ⟨{ read with waiting := false }, by rw [Table.modify_row_self, hread, Option.map_some],
        rfl, rfl⟩
    · obtain ⟨made, hmade, hsame, hdone⟩ := h.descends other token htoken
      exact ⟨made, by rw [Table.modify_row_of_ne _ (hnone other token htoken), hmade], hsame, hdone⟩
  · intro other made reader hmade hreader
    obtain ⟨before, hbefore, huserId, hversion⟩ := hlogins other made hmade
    rw [hversion]
    exact h.version other before reader hbefore (huserId ▸ hreader)
  · intro other reader hreader hstatus
    obtain ⟨hlogin, hrevoked⟩ := h.disabled other reader hreader hstatus
    constructor
    · intro otherLogin made hmade hother
      obtain ⟨before, hbefore, huserId, hversion⟩ := hlogins otherLogin made hmade
      rw [hversion]
      exact hlogin otherLogin before hbefore (huserId.symm.trans hother)
    · intro otherHash token htoken huserId
      rw [hrow] at htoken
      split at htoken
      · obtain rfl := Option.some.inj htoken
        subst huserId
        rw [huser] at hreader
        obtain rfl := Option.some.inj hreader
        exact absurd hstatus hactive
      · exact hrevoked otherHash token htoken huserId

theorem Consistent.update {t : State UserId TokenHash LoginId} (h : Consistent s)
    (hupdate : Update s t) : Consistent t := by
  have hrotated : t.rotated = s.rotated :=
    congrArg (List.filterMap Session.rotatedFrom) hupdate.sessions
  refine ⟨?_, ?_, ?_, ?_, ?_, ?_⟩
  · exact hrotated ▸ h.nodup
  · intro tokenHash hmem
    obtain ⟨old, hold, hrevoked⟩ := h.used tokenHash (hrotated ▸ hmem)
    obtain ⟨token, htoken, -, hkept⟩ := hupdate.tokens_forth tokenHash old hold
    exact ⟨token, htoken, hkept hrevoked⟩
  · intro first second firstToken secondToken hfirst hsecond hlive hlive' hsame
    obtain ⟨old, hold, -, hlogin, hrevoked⟩ := hupdate.tokens_back first firstToken hfirst
    obtain ⟨old', hold', -, hlogin', hrevoked'⟩ := hupdate.tokens_back second secondToken hsecond
    exact h.single first second old old' hold hold' (hrevoked hlive) (hrevoked' hlive')
      (hlogin.symm.trans (hsame.trans hlogin'))
  · intro tokenHash token htoken
    obtain ⟨old, hold, huserId, hlogin, -⟩ := hupdate.tokens_back tokenHash token htoken
    rw [huserId, hlogin, hupdate.logins]
    exact h.descends tokenHash old hold
  · intro login read user hread huser
    rw [hupdate.logins] at hread
    obtain ⟨old, hold, hversion, -⟩ := hupdate.users read.userId user huser
    exact Nat.le_trans (h.version login read old hread hold) hversion
  · intro userId user huser hstatus
    obtain ⟨old, hold, hversion, hdisabled⟩ := hupdate.users userId user huser
    obtain hstatus | ⟨hlt, hrevoked⟩ := hdisabled hstatus
    · obtain ⟨hlogin, hrevoked⟩ := h.disabled userId old hold hstatus
      constructor
      · intro login read hread huserId
        rw [hupdate.logins] at hread
        exact Nat.lt_of_lt_of_le (hlogin login read hread huserId) hversion
      · intro tokenHash token htoken huserId hnone
        obtain ⟨before, hbefore, hsame, -, hkept⟩ := hupdate.tokens_back tokenHash token htoken
        exact hrevoked tokenHash before hbefore (hsame.symm.trans huserId) (hkept hnone)
    · refine ⟨fun login read hread huserId => ?_, hrevoked⟩
      rw [hupdate.logins] at hread
      subst huserId
      exact Nat.lt_of_le_of_lt (h.version login read old hread hold) hlt

theorem Consistent.rotate [DecidableEq TokenHash] (h : Consistent s)
    {tokenHash newTokenHash : TokenHash} {now expiresAt : Nat}
    {current : RefreshToken UserId LoginId} {user : User}
    {refreshTokens : Table TokenHash (RefreshToken UserId LoginId)}
    (hcurrent : s.refreshTokens.row tokenHash = some current) (hlive : current.revokedAt = none)
    (huser : s.users.row current.userId = some user) (hactive : user.status ≠ .disabled)
    (hinsert : (s.refreshTokens.modify tokenHash (fun token =>
      { token with revokedAt := some now })).insert newTokenHash
        ⟨current.userId, expiresAt, none, current.login⟩ = some refreshTokens) :
    Consistent { s with
      refreshTokens := refreshTokens
      sessions := s.sessions ++ [.rotated current.userId current.login tokenHash] } := by
  have hfresh := Table.insert_fresh hinsert
  have hother : newTokenHash ≠ tokenHash := by
    rintro rfl
    rw [Table.modify_row_self, hcurrent] at hfresh
    cases hfresh
  have hnew : refreshTokens.row newTokenHash =
      some ⟨current.userId, expiresAt, none, current.login⟩ := by
    rw [Table.insert_row hinsert, if_pos rfl]
  have hclaimed : refreshTokens.row tokenHash = some { current with revokedAt := some now } := by
    rw [Table.insert_row hinsert, if_neg hother.symm, Table.modify_row_self, hcurrent,
      Option.map_some]
  have hkept : ∀ other, other ≠ newTokenHash → other ≠ tokenHash →
      refreshTokens.row other = s.refreshTokens.row other := by
    intro other hne hne'
    rw [Table.insert_row hinsert, if_neg hne, Table.modify_row_of_ne _ hne']
  -- a token behind the step is the new one, the one that was claimed, or as it was
  have hcases : ∀ other token, refreshTokens.row other = some token →
      other = newTokenHash ∧ token = ⟨current.userId, expiresAt, none, current.login⟩ ∨
      other = tokenHash ∧ token = { current with revokedAt := some now } ∨
      other ≠ tokenHash ∧ s.refreshTokens.row other = some token := by
    intro other token htoken
    by_cases hne : other = newTokenHash
    · subst hne
      exact .inl ⟨rfl, Option.some.inj (htoken.symm.trans hnew)⟩
    · by_cases hne' : other = tokenHash
      · subst hne'
        exact .inr (.inl ⟨rfl, Option.some.inj (htoken.symm.trans hclaimed)⟩)
      · exact .inr (.inr ⟨hne', (hkept other hne hne').symm.trans htoken⟩)
  have hnotUsed : tokenHash ∉ s.rotated := by
    intro hmem
    obtain ⟨token, htoken, hrevoked⟩ := h.used tokenHash hmem
    rw [hcurrent] at htoken
    obtain rfl := Option.some.inj htoken
    exact hrevoked hlive
  have hrotated : (s.sessions ++ [Session.rotated current.userId current.login tokenHash]).filterMap
      Session.rotatedFrom = s.rotated ++ [tokenHash] := by
    rw [List.filterMap_append]
    rfl
  have hused : ∀ other ∈ s.rotated ++ [tokenHash],
      ∃ token, refreshTokens.row other = some token ∧ token.revokedAt ≠ none := by
    intro other hmem
    obtain hmem | hmem := List.mem_append.mp hmem
    · obtain ⟨token, htoken, hrevoked⟩ := h.used other hmem
      have hne' : other ≠ tokenHash := fun heq => hnotUsed (heq ▸ hmem)
      have hne : other ≠ newTokenHash := by
        rintro rfl
        rw [Table.modify_row_of_ne _ hne', htoken] at hfresh
        cases hfresh
      exact ⟨token, (hkept other hne hne').trans htoken, hrevoked⟩
    · obtain rfl := List.mem_singleton.mp hmem
      exact ⟨_, hclaimed, Option.some_ne_none _⟩
  refine ⟨?_, ?_, ?_, ?_, ?_, ?_⟩
  · have hnodup : (s.rotated ++ [tokenHash]).Nodup :=
      List.nodup_append.mpr ⟨h.nodup, by simp, fun a ha b hb heq =>
        hnotUsed (List.mem_singleton.mp hb ▸ heq ▸ ha)⟩
    rwa [← hrotated] at hnodup
  · intro other hmem
    refine hused other ?_
    rw [← hrotated]
    exact hmem
  · intro first second firstToken secondToken hfirst hsecond hlive' hlive'' hsame
    obtain ⟨rfl, rfl⟩ | ⟨rfl, rfl⟩ | ⟨hne, hfirst⟩ := hcases first firstToken hfirst
    · obtain ⟨rfl, rfl⟩ | ⟨rfl, rfl⟩ | ⟨hne, hsecond⟩ := hcases second secondToken hsecond
      · rfl
      · cases hlive''
      · exact absurd (h.single second tokenHash secondToken current hsecond hcurrent hlive'' hlive
          hsame.symm) hne
    · cases hlive'
    · obtain ⟨rfl, rfl⟩ | ⟨rfl, rfl⟩ | ⟨-, hsecond⟩ := hcases second secondToken hsecond
      · exact absurd (h.single first tokenHash firstToken current hfirst hcurrent hlive' hlive
          hsame) hne
      · cases hlive''
      · exact h.single first second firstToken secondToken hfirst hsecond hlive' hlive'' hsame
  · intro other token htoken
    obtain ⟨rfl, rfl⟩ | ⟨rfl, rfl⟩ | ⟨-, htoken⟩ := hcases other token htoken
    · exact h.descends tokenHash current hcurrent
    · exact h.descends _ current hcurrent
    · exact h.descends other token htoken
  · exact h.version
  · intro userId disabled hdisabled hstatus
    refine ⟨(h.disabled userId disabled hdisabled hstatus).1, fun other token htoken hsame => ?_⟩
    obtain ⟨rfl, rfl⟩ | ⟨rfl, rfl⟩ | ⟨-, htoken⟩ := hcases other token htoken
    · subst hsame
      rw [huser] at hdisabled
      obtain rfl := Option.some.inj hdisabled
      exact absurd hstatus hactive
    · exact Option.some_ne_none _
    · exact (h.disabled userId disabled hdisabled hstatus).2 other token htoken hsame

end Steps

variable [DecidableEq TokenHash] [DecidableEq LoginId]

/-- The four ways in which a request changes the state. -/
inductive Effect (s : State UserId TokenHash LoginId) : State UserId TokenHash LoginId → Prop
  | login {login : LoginId} {userId : UserId} {user : User} {logins : Table LoginId (Login UserId)}
      (huser : s.users.row userId = some user) (hactive : user.status ≠ .disabled)
      (hinsert : s.logins.insert login ⟨userId, user.tokenVersion, true⟩ = some logins) :
      Effect s { s with logins := logins }
  | create {login : LoginId} {read : Login UserId} {user : User} {tokenHash : TokenHash}
      {expiresAt : Nat} {refreshTokens : Table TokenHash (RefreshToken UserId LoginId)}
      (hread : s.logins.row login = some read) (hwaiting : read.waiting = true)
      (huser : s.users.row read.userId = some user) (hactive : user.status ≠ .disabled)
      (hversion : user.tokenVersion = read.expectedTokenVersion)
      (hinsert : s.refreshTokens.insert tokenHash ⟨read.userId, expiresAt, none, login⟩ =
        some refreshTokens) :
      Effect s { s with
        refreshTokens := refreshTokens
        logins := s.logins.modify login (fun read => { read with waiting := false })
        sessions := s.sessions ++ [.created read.userId login] }
  | rotate {tokenHash newTokenHash : TokenHash} {now expiresAt : Nat}
      {current : RefreshToken UserId LoginId} {user : User}
      {refreshTokens : Table TokenHash (RefreshToken UserId LoginId)}
      (hcurrent : s.refreshTokens.row tokenHash = some current)
      (hlive : current.revokedAt = none ∧ now < current.expiresAt)
      (huser : s.users.row current.userId = some user) (hactive : user.status ≠ .disabled)
      (hinsert : (s.refreshTokens.modify tokenHash (fun token =>
        { token with revokedAt := some now })).insert newTokenHash
          ⟨current.userId, expiresAt, none, current.login⟩ = some refreshTokens) :
      Effect s { s with
        refreshTokens := refreshTokens
        sessions := s.sessions ++ [.rotated current.userId current.login tokenHash] }
  | update {t : State UserId TokenHash LoginId} (h : Update s t) : Effect s t

theorem Consistent.effect {s t : State UserId TokenHash LoginId} (h : Consistent s)
    (heffect : Effect s t) : Consistent t := by
  cases heffect with
  | login huser hactive hinsert => exact h.login huser hactive hinsert
  | create hread hwaiting huser hactive _ hinsert =>
      exact h.create hread hwaiting huser hactive hinsert
  | rotate hcurrent hlive huser hactive hinsert =>
      exact h.rotate hcurrent hlive.1 huser hactive hinsert
  | update hupdate => exact h.update hupdate

/-! Revocation -/

/-- Some logins are over: they have read a version that is gone, and the tokens that descend from
them are revoked, among them some that were issued. -/
structure Sealed (ended : LoginId → Prop) (issued : TokenHash → Prop)
    (s : State UserId TokenHash LoginId) : Prop where
  logins : ∀ login, ended login → ∃ read, s.logins.row login = some read ∧
    ∀ user, s.users.row read.userId = some user → read.expectedTokenVersion < user.tokenVersion
  tokens : ∀ tokenHash token, s.refreshTokens.row tokenHash = some token → ended token.login →
    token.revokedAt ≠ none
  issued : ∀ tokenHash, issued tokenHash →
    ∃ token, s.refreshTokens.row tokenHash = some token ∧ ended token.login

/-- A session that descends from no login that is over, and was not made from an issued token. -/
def Session.IsNew (ended : LoginId → Prop) (issued : TokenHash → Prop)
    (session : Session UserId TokenHash LoginId) : Prop :=
  ¬ ended session.login ∧ ∀ tokenHash, issued tokenHash → session.rotatedFrom ≠ some tokenHash

theorem Sealed.effect {ended : LoginId → Prop} {issued : TokenHash → Prop}
    {s t : State UserId TokenHash LoginId} (h : Sealed ended issued s) (heffect : Effect s t) :
    Sealed ended issued t ∧
      ∃ later, t.sessions = s.sessions ++ later ∧ ∀ e ∈ later, e.IsNew ended issued := by
  cases heffect with
  | login huser hactive hinsert =>
      refine ⟨⟨fun other hover => ?_, h.tokens, h.issued⟩, [], (List.append_nil _).symm,
        fun _ hmem => absurd hmem List.not_mem_nil⟩
      obtain ⟨read, hread, hversion⟩ := h.logins other hover
      refine ⟨read, ?_, hversion⟩
      rw [Table.insert_row hinsert, if_neg, hread]
      rintro rfl
      rw [Table.insert_fresh hinsert] at hread
      cases hread
  | @create login read user tokenHash _ _ hread hwaiting huser hactive hversion hinsert =>
      have hopen : ¬ ended login := by
        intro hover
        obtain ⟨made, hmade, hlt⟩ := h.logins login hover
        obtain rfl := Option.some.inj (hread.symm.trans hmade)
        exact absurd hversion (Nat.ne_of_gt (hlt user huser))
      refine ⟨⟨fun other hover => ?_, fun other token htoken hover => ?_, fun other hissued => ?_⟩,
        [.created read.userId login], rfl, fun e he => ?_⟩
      · obtain ⟨made, hmade, hlt⟩ := h.logins other hover
        have hne : other ≠ login := fun heq => hopen (heq ▸ hover)
        exact ⟨made, by rw [Table.modify_row_of_ne _ hne, hmade], hlt⟩
      · rw [Table.insert_row hinsert] at htoken
        split at htoken
        · obtain rfl := Option.some.inj htoken
          exact absurd hover hopen
        · exact h.tokens other token htoken hover
      · obtain ⟨token, htoken, hover⟩ := h.issued other hissued
        refine ⟨token, ?_, hover⟩
        rw [Table.insert_row hinsert, if_neg, htoken]
        rintro rfl
        rw [Table.insert_fresh hinsert] at htoken
        cases htoken
      · obtain rfl := List.mem_singleton.mp he
        exact ⟨hopen, fun _ _ hnone => by cases hnone⟩
  | @rotate tokenHash newTokenHash now _ current _ _ hcurrent hlive huser hactive hinsert =>
      have hopen : ¬ ended current.login := fun hover =>
        h.tokens tokenHash current hcurrent hover hlive.1
      refine ⟨⟨h.logins, fun other token htoken hover => ?_, fun other hissued => ?_⟩,
        [.rotated current.userId current.login tokenHash], rfl, fun e he => ?_⟩
      · rw [Table.insert_row hinsert] at htoken
        split at htoken
        · obtain rfl := Option.some.inj htoken
          exact absurd hover hopen
        · rw [Table.modify_row] at htoken
          split at htoken
          · obtain ⟨old, -, rfl⟩ := Option.map_eq_some_iff.mp htoken
            exact Option.some_ne_none _
          · exact h.tokens other token htoken hover
      · obtain ⟨token, htoken, hover⟩ := h.issued other hissued
        have hne : other ≠ tokenHash := by
          rintro rfl
          obtain rfl := Option.some.inj (hcurrent.symm.trans htoken)
          exact hopen hover
        refine ⟨token, ?_, hover⟩
        rw [Table.insert_row hinsert, if_neg, Table.modify_row_of_ne _ hne, htoken]
        rintro rfl
        have hfresh := Table.insert_fresh hinsert
        rw [Table.modify_row_of_ne _ hne, htoken] at hfresh
        cases hfresh
      · obtain rfl := List.mem_singleton.mp he
        refine ⟨hopen, fun other hissued hsame => ?_⟩
        obtain ⟨token, htoken, hover⟩ := h.issued other hissued
        obtain rfl := Option.some.inj hsame
        obtain rfl := Option.some.inj (hcurrent.symm.trans htoken)
        exact hopen hover
  | update hupdate =>
      refine ⟨⟨fun login hover => ?_, fun tokenHash token htoken hover hnone => ?_,
        fun tokenHash hissued => ?_⟩, [], hupdate.sessions.trans (List.append_nil _).symm,
        fun _ hmem => absurd hmem List.not_mem_nil⟩
      · obtain ⟨read, hread, hlt⟩ := h.logins login hover
        refine ⟨read, by rw [hupdate.logins, hread], fun user huser => ?_⟩
        obtain ⟨old, hold, hversion, -⟩ := hupdate.users read.userId user huser
        exact Nat.lt_of_lt_of_le (hlt old hold) hversion
      · obtain ⟨old, hold, -, hlogin, hrevoked⟩ := hupdate.tokens_back tokenHash token htoken
        exact h.tokens tokenHash old hold (hlogin ▸ hover) (hrevoked hnone)
      · obtain ⟨old, hold, hover⟩ := h.issued tokenHash hissued
        obtain ⟨token, htoken, hlogin, -⟩ := hupdate.tokens_forth tokenHash old hold
        exact ⟨token, htoken, hlogin ▸ hover⟩

variable [DecidableEq UserId]

theorem State.execute_effect {s t : State UserId TokenHash LoginId}
    {request : Request UserId TokenHash LoginId} (h : s.execute request = .ok t) : Effect s t := by
  cases request with
  | login login userId =>
      simp only [State.execute, State.login, bind_eq_ok, require_eq_ok, ensure_eq_ok,
        pure_eq_ok] at h
      obtain ⟨user, huser, -, hactive, logins, hinsert, rfl⟩ := h
      exact .login huser hactive hinsert
  | create login tokenHash expiresAt =>
      simp only [State.execute, State.create, bind_eq_ok, require_eq_ok, ensure_eq_ok,
        pure_eq_ok] at h
      obtain ⟨read, hread, -, hwaiting, user, huser, -, hactive, -, hversion, refreshTokens,
        hinsert, rfl⟩ := h
      exact .create hread hwaiting huser hactive hversion hinsert
  | rotate tokenHash newTokenHash now expiresAt =>
      simp only [State.execute, State.rotate, bind_eq_ok, require_eq_ok, ensure_eq_ok,
        pure_eq_ok] at h
      obtain ⟨current, hcurrent, user, huser, -, hlive, -, hactive, refreshTokens, hinsert, rfl⟩ := h
      exact .rotate hcurrent hlive huser hactive hinsert
  | revoke tokenHash now =>
      obtain rfl := Except.ok.inj h
      exact .update (update_revokeWhere _ _ fun _ user huser =>
        ⟨user, huser, Nat.le_refl _, .inl⟩)
  | disableUser actorId userId now =>
      simp only [State.execute, State.disableUser, bind_eq_ok, require_eq_ok, ensure_eq_ok] at h
      obtain ⟨-, -, target, htarget, h⟩ := h
      split at h
      · obtain rfl := pure_eq_ok.mp h
        exact .update (.refl s)
      · simp only [bind_eq_ok, ensure_eq_ok, pure_eq_ok] at h
        obtain ⟨-, -, rfl⟩ := h
        refine .update (update_revokeWhere _ _ fun other user huser => ?_)
        rw [Table.modify_row] at huser
        split at huser
        · rename_i hother
          subst hother
          rw [htarget, Option.map_some, Option.some.injEq] at huser
          subst huser
          exact ⟨target, htarget, Nat.le_succ _, fun _ => .inr ⟨Nat.lt_succ_self _,
            fun _ token htoken => by simpa using htoken⟩⟩
        · exact ⟨user, huser, Nat.le_refl _, .inl⟩
  | resetPassword userId now =>
      simp only [State.execute, State.resetPassword, bind_eq_ok, require_eq_ok, pure_eq_ok] at h
      obtain ⟨target, htarget, rfl⟩ := h
      refine .update (update_revokeWhere _ _ fun other user huser => ?_)
      rw [Table.modify_row] at huser
      split at huser
      · rename_i hother
        subst hother
        rw [htarget, Option.map_some, Option.some.injEq] at huser
        subst huser
        exact ⟨target, htarget, Nat.le_succ _, .inl⟩
      · exact ⟨user, huser, Nat.le_refl _, .inl⟩
  | enableUser userId =>
      simp only [State.execute, State.enableUser, bind_eq_ok, require_eq_ok, pure_eq_ok] at h
      obtain ⟨target, htarget, rfl⟩ := h
      refine .update ⟨rfl, rfl, fun _ token hrow => ⟨token, hrow, rfl, rfl, id⟩,
        fun _ token hrow => ⟨token, hrow, rfl, id⟩, fun other user huser => ?_⟩
      rw [Table.modify_row] at huser
      split at huser
      · rename_i hother
        subst hother
        rw [htarget, Option.map_some, Option.some.injEq] at huser
        subst huser
        exact ⟨target, htarget, Nat.le_refl _, fun hstatus => by cases hstatus⟩
      · exact ⟨user, huser, Nat.le_refl _, .inl⟩

theorem Consistent.run {s : State UserId TokenHash LoginId} (h : Consistent s)
    (requests : List (Request UserId TokenHash LoginId)) : Consistent (s.run requests) := by
  induction requests generalizing s with
  | nil => exact h
  | cons request requests ih =>
      refine ih ?_
      unfold State.step
      split
      · rename_i next hnext
        exact h.effect (State.execute_effect hnext)
      · exact h

theorem Sealed.run {ended : LoginId → Prop} {issued : TokenHash → Prop}
    {s : State UserId TokenHash LoginId} (h : Sealed ended issued s)
    (requests : List (Request UserId TokenHash LoginId)) :
    Sealed ended issued (s.run requests) ∧
      ∃ later, (s.run requests).sessions = s.sessions ++ later ∧
        ∀ e ∈ later, e.IsNew ended issued := by
  induction requests generalizing s with
  | nil =>
      exact ⟨h, [], (List.append_nil _).symm, fun _ hmem => absurd hmem List.not_mem_nil⟩
  | cons request requests ih =>
      have hstep : Sealed ended issued (s.step request) ∧
          ∃ later, (s.step request).sessions = s.sessions ++ later ∧
            ∀ e ∈ later, e.IsNew ended issued := by
        unfold State.step
        split
        · rename_i next hnext
          exact h.effect (State.execute_effect hnext)
        · exact ⟨h, [], (List.append_nil _).symm, fun _ hmem => absurd hmem List.not_mem_nil⟩
      obtain ⟨hsealed, first, hfirst, hfirstNew⟩ := hstep
      obtain ⟨hfinal, later, hlater, hlaterNew⟩ := ih hsealed
      refine ⟨hfinal, first ++ later, ?_, fun e he => ?_⟩
      · rw [← List.append_assoc, ← hfirst]
        exact hlater
      · exact (List.mem_append.mp he).elim (hfirstNew e) (hlaterNew e)

/-- A request that ends all sessions of a user. -/
def Request.Invalidates (userId : UserId) : Request UserId TokenHash LoginId → Prop
  | .disableUser _ target _ => target = userId
  | .resetPassword target _ => target = userId
  | _ => False

/-- The logins that have read a user, and the tokens that the user got. -/
def State.hasRead (s : State UserId TokenHash LoginId) (userId : UserId) (login : LoginId) : Prop :=
  ∃ read, s.logins.row login = some read ∧ read.userId = userId

def State.wasIssued (s : State UserId TokenHash LoginId) (userId : UserId)
    (tokenHash : TokenHash) : Prop :=
  ∃ token, s.refreshTokens.row tokenHash = some token ∧ token.userId = userId

omit [DecidableEq TokenHash] [DecidableEq LoginId] in
/-- A new version and the revocation of all tokens end what the user has. -/
theorem Consistent.sealed_of_revokeAll {s : State UserId TokenHash LoginId} (h : Consistent s)
    {userId : UserId} {users : Table UserId User} (now : Nat)
    (husers : ∀ user, users.row userId = some user →
      ∃ old, s.users.row userId = some old ∧ old.tokenVersion < user.tokenVersion) :
    Sealed (s.hasRead userId) (s.wasIssued userId)
      ({ s with users := users }.revokeAllForUser userId now) := by
  refine ⟨fun login hread => ?_, fun tokenHash token htoken hread hnone => ?_,
    fun tokenHash hissued => ?_⟩
  · obtain ⟨read, hread, rfl⟩ := hread
    refine ⟨read, hread, fun user huser => ?_⟩
    obtain ⟨old, hold, hlt⟩ := husers user huser
    exact Nat.lt_of_le_of_lt (h.version login read old hread hold) hlt
  · obtain ⟨old, hold, -, hlogin, hkept⟩ := State.revokeWhere_row htoken
    obtain ⟨made, hmade, hsame, -⟩ := h.descends tokenHash old hold
    obtain ⟨read, hread, rfl⟩ := hread
    rw [hlogin] at hread
    obtain rfl := Option.some.inj (hmade.symm.trans hread)
    simpa [hsame] using (hkept hnone).2
  · obtain ⟨old, hold, rfl⟩ := hissued
    obtain ⟨made, hmade, hsame, -⟩ := h.descends tokenHash old hold
    obtain ⟨token, htoken, hlogin, -⟩ :=
      @State.revokeWhere_forth _ _ _ { s with users := users }
        (fun _ token => token.userId = old.userId) now _ _ hold
    exact ⟨token, htoken, made, hlogin ▸ hmade, hsame⟩

theorem Consistent.invalidate {s t : State UserId TokenHash LoginId} (h : Consistent s)
    {userId : UserId} {request : Request UserId TokenHash LoginId}
    (hinvalidates : request.Invalidates userId) (hexecute : s.execute request = .ok t) :
    Sealed (s.hasRead userId) (s.wasIssued userId) t := by
  cases request with
  | disableUser actorId target now =>
      obtain rfl : target = userId := hinvalidates
      simp only [State.execute, State.disableUser, bind_eq_ok, require_eq_ok, ensure_eq_ok]
        at hexecute
      obtain ⟨-, -, user, huser, hexecute⟩ := hexecute
      split at hexecute
      · -- the user was disabled before, so there was nothing left to end
        rename_i hstatus
        obtain rfl := pure_eq_ok.mp hexecute
        obtain ⟨hversion, hrevoked⟩ := h.disabled target user huser hstatus
        refine ⟨fun login hread => ?_, fun tokenHash token htoken hread => ?_,
          fun tokenHash hissued => ?_⟩
        · obtain ⟨read, hread, rfl⟩ := hread
          refine ⟨read, hread, fun other hother => ?_⟩
          obtain rfl := Option.some.inj (huser.symm.trans hother)
          exact hversion login read hread rfl
        · obtain ⟨made, hmade, hsame, -⟩ := h.descends tokenHash token htoken
          obtain ⟨read, hread, hreader⟩ := hread
          obtain rfl := Option.some.inj (hmade.symm.trans hread)
          exact hrevoked tokenHash token htoken (hsame.symm.trans hreader)
        · obtain ⟨token, htoken, huserId⟩ := hissued
          obtain ⟨made, hmade, hsame, -⟩ := h.descends tokenHash token htoken
          exact ⟨token, htoken, made, hmade, hsame.trans huserId⟩
      · simp only [bind_eq_ok, ensure_eq_ok, pure_eq_ok] at hexecute
        obtain ⟨-, -, rfl⟩ := hexecute
        refine h.sealed_of_revokeAll now fun other hother => ⟨user, huser, ?_⟩
        rw [Table.modify_row_self, huser, Option.map_some, Option.some.injEq] at hother
        subst hother
        exact Nat.lt_succ_self _
  | resetPassword target now =>
      obtain rfl : target = userId := hinvalidates
      simp only [State.execute, State.resetPassword, bind_eq_ok, require_eq_ok, pure_eq_ok]
        at hexecute
      obtain ⟨user, huser, rfl⟩ := hexecute
      refine h.sealed_of_revokeAll now fun other hother => ⟨user, huser, ?_⟩
      rw [Table.modify_row_self, huser, Option.map_some, Option.some.injEq] at hother
      subst hother
      exact Nat.lt_succ_self _
  | _ => exact hinvalidates.elim

/-- After a request that ends the sessions of a user no token issued before and no login that has
read the user before leads to a session: the tokens issued before are there and revoked, so is
every token that descends from such a login, and every later session is another one. -/
def RevocationComplete (s : State UserId TokenHash LoginId) : Prop :=
  ∀ (userId : UserId) (request : Request UserId TokenHash LoginId)
    (t : State UserId TokenHash LoginId), request.Invalidates userId → s.execute request = .ok t →
    ∀ requests : List (Request UserId TokenHash LoginId),
      (∀ tokenHash, s.wasIssued userId tokenHash →
        ∃ token, (t.run requests).refreshTokens.row tokenHash = some token ∧
          token.revokedAt ≠ none) ∧
      (∀ tokenHash token, (t.run requests).refreshTokens.row tokenHash = some token →
        s.hasRead userId token.login → token.revokedAt ≠ none) ∧
      ∃ later, (t.run requests).sessions = t.sessions ++ later ∧
        ∀ session ∈ later, session.IsNew (s.hasRead userId) (s.wasIssued userId)

theorem Consistent.revocationComplete {s : State UserId TokenHash LoginId} (h : Consistent s) :
    RevocationComplete s := by
  intro userId request t hinvalidates hexecute requests
  obtain ⟨hsealed, hlater⟩ := (h.invalidate hinvalidates hexecute).run requests
  refine ⟨fun tokenHash hissued => ?_, hsealed.tokens, hlater⟩
  obtain ⟨token, htoken, hover⟩ := hsealed.issued tokenHash hissued
  exact ⟨token, htoken, hsealed.tokens tokenHash token htoken hover⟩

/-- Whatever the order of the requests, a refresh token is used once, a login has one live token,
and what ends the sessions of a user ends them for good. -/
theorem singleUse_and_revocationComplete (users : Table UserId User)
    (requests : List (Request UserId TokenHash LoginId)) :
    SingleUse ((initialState users).run requests) ∧
      RevocationComplete ((initialState users).run requests) :=
  have h := (initialState_consistent users).run requests
  ⟨h.singleUse, h.revocationComplete⟩

end AnvilRun.RefreshSessions
