import AnvilRun.AccessTokens
import Mathlib.Logic.Relation

namespace AnvilRun.AccessControl

open AnvilRun.AccessTokens
open AnvilRun.Fallible
open AnvilRun.RefreshSessions

/-! Sessions with their access tokens -/

/-- The tables of the sessions, with what their access tokens say and the tokens themselves, each
under the number of its session. A session gets its token when its transaction is over. -/
structure Server (TokenHash LoginId : Type) where
  state : State JsString TokenHash LoginId
  grants : List AccessTokenInput
  issued : List (Nat × List Char)

variable {TokenHash LoginId : Type}

/-- What `create` or `rotate` has read for the access token. -/
def granted (state : State JsString TokenHash LoginId) :
    Request JsString TokenHash LoginId → Option AccessTokenInput
  | .create login _ _ => do
      let read ← state.logins.row login
      let user ← state.users.row read.userId
      return ⟨read.userId, user.role, user.tokenVersion⟩
  | .rotate tokenHash _ _ _ => do
      let token ← state.refreshTokens.row tokenHash
      let user ← state.users.row token.userId
      return ⟨token.userId, user.role, user.tokenVersion⟩
  | _ => none

section System

variable [DecidableEq TokenHash] [DecidableEq LoginId]

/-- One transaction, or the making of one token. -/
inductive Step (hmac : Hmac) (config : AuthConfigValues) :
    Server TokenHash LoginId → Server TokenHash LoginId → Prop
  | request {s : Server TokenHash LoginId} {state : State JsString TokenHash LoginId}
      (request : Request JsString TokenHash LoginId) (h : s.state.execute request = .ok state) :
      Step hmac config s
        { s with state, grants := s.grants ++ (granted s.state request).toList }
  | createUser {s : Server TokenHash LoginId} {users : Table JsString User} (userId : JsString)
      (role : UserRole) (h : s.state.users.insert userId ⟨role, .active, 0⟩ = some users) :
      Step hmac config s { s with state := { s.state with users } }
  | issue {s : Server TokenHash LoginId} {index now : Nat} {jti : JsString}
      {input : AccessTokenInput} (hgrant : s.grants[index]? = some input)
      (hversion : input.tokenVersion < 2 ^ 53)
      (hexp : now + config.accessTokenTtlSeconds < 2 ^ 53) (hjti : jti ≠ []) :
      Step hmac config s
        { s with issued := s.issued ++ [(index, issueAccessToken hmac config now jti input)] }

/-- The server from users without sessions on. -/
def accessSystem (hmac : Hmac) (config : AuthConfigValues) (users : Table JsString User) :
    TransitionSystem (Server TokenHash LoginId) where
  init := fun s => s = ⟨initialState users, [], []⟩
  step := Step hmac config

end System

/-! What becomes of the users -/

/-- Users stay, with their roles. Their versions grow, and do so when they are disabled. -/
def Advances (users users' : Table JsString User) : Prop :=
  ∀ userId user, users.row userId = some user →
    ∃ user', users'.row userId = some user' ∧ user'.role = user.role ∧
      user.tokenVersion ≤ user'.tokenVersion ∧
      (user'.status = .disabled →
        user.status = .disabled ∨ user.tokenVersion < user'.tokenVersion)

variable {users users' : Table JsString User} {userId : JsString} {user : User}

theorem Advances.refl (users : Table JsString User) : Advances users users :=
  fun _ user huser => ⟨user, huser, rfl, Nat.le_refl _, Or.inl⟩

theorem advances_modify {f : User → User}
    (hf : ∀ user, users.row userId = some user → (f user).role = user.role ∧
      user.tokenVersion ≤ (f user).tokenVersion ∧
      ((f user).status = .disabled →
        user.status = .disabled ∨ user.tokenVersion < (f user).tokenVersion)) :
    Advances users (users.modify userId f) := by
  intro other user huser
  rw [Table.modify_row]
  split
  · rename_i hother
    subst hother
    exact ⟨f user, by rw [huser, Option.map_some], hf user huser⟩
  · exact Advances.refl users other user huser

theorem advances_insert {key : JsString} {row : User} (h : users.insert key row = some users') :
    Advances users users' := by
  intro other user huser
  rw [Table.insert_row h]
  split
  · rename_i hother
    subst hother
    rw [Table.insert_fresh h] at huser
    cases huser
  · exact Advances.refl users other user huser

section Requests

variable [DecidableEq TokenHash] [DecidableEq LoginId]
  {s t : State JsString TokenHash LoginId} {request : Request JsString TokenHash LoginId}

/-- What a request can do to the users. -/
inductive Change (s : State JsString TokenHash LoginId) : Table JsString User → Prop
  | same : Change s s.users
  | disable {userId : JsString} {user : User} (huser : s.users.row userId = some user)
      (hadmin : user.role = .admin → 1 < s.activeAdmins) :
      Change s (s.users.modify userId fun user =>
        { user with status := .disabled, tokenVersion := user.tokenVersion + 1 })
  | reset (userId : JsString) :
      Change s (s.users.modify userId fun user =>
        { user with tokenVersion := user.tokenVersion + 1 })
  | enable (userId : JsString) :
      Change s (s.users.modify userId fun user => { user with status := .active })

theorem change_execute (h : s.execute request = .ok t) : Change s t.users := by
  cases request with
  | login login userId =>
      simp only [State.execute, State.login, bind_eq_ok, pure_eq_ok] at h
      obtain ⟨_, -, _, -, _, -, rfl⟩ := h
      exact .same
  | create login tokenHash expiresAt =>
      simp only [State.execute, State.create, bind_eq_ok, pure_eq_ok] at h
      obtain ⟨_, -, _, -, _, -, _, -, _, -, _, -, rfl⟩ := h
      exact .same
  | rotate tokenHash newTokenHash now expiresAt =>
      simp only [State.execute, State.rotate, bind_eq_ok, pure_eq_ok] at h
      obtain ⟨_, -, _, -, _, -, _, -, _, -, rfl⟩ := h
      exact .same
  | revoke tokenHash now =>
      obtain rfl := Except.ok.inj h
      exact .same
  | disableUser actorId userId now =>
      simp only [State.execute, State.disableUser, bind_eq_ok, require_eq_ok] at h
      obtain ⟨-, -, user, huser, h⟩ := h
      split at h
      · obtain rfl := pure_eq_ok.mp h
        exact .same
      · simp only [bind_eq_ok, ensure_eq_ok, pure_eq_ok] at h
        obtain ⟨-, hadmin, rfl⟩ := h
        exact .disable huser hadmin
  | resetPassword userId now =>
      simp only [State.execute, State.resetPassword, bind_eq_ok, pure_eq_ok] at h
      obtain ⟨_, -, rfl⟩ := h
      exact .reset userId
  | enableUser userId =>
      simp only [State.execute, State.enableUser, bind_eq_ok, pure_eq_ok] at h
      obtain ⟨_, -, rfl⟩ := h
      exact .enable userId

omit [DecidableEq TokenHash] [DecidableEq LoginId] in
theorem Change.advances (h : Change s users') : Advances s.users users' := by
  cases h with
  | same => exact .refl _
  | disable =>
      exact advances_modify fun user _ =>
        ⟨rfl, Nat.le_succ _, fun _ => Or.inr (Nat.lt_succ_self _)⟩
  | reset => exact advances_modify fun user _ => ⟨rfl, Nat.le_succ _, Or.inl⟩
  | enable =>
      exact advances_modify fun user _ => ⟨rfl, Nat.le_refl _, fun hstatus => by cases hstatus⟩

/-- A token is granted for a user who is there, and who is not disabled. -/
theorem granted_execute {grant : AccessTokenInput} (h : s.execute request = .ok t)
    (hgrant : granted s request = some grant) :
    ∃ user, t.users.row grant.userId = some user ∧ user.role = grant.role ∧
      user.tokenVersion = grant.tokenVersion ∧ user.status ≠ .disabled := by
  cases request with
  | create login tokenHash expiresAt =>
      simp only [State.execute, State.create, bind_eq_ok, require_eq_ok, ensure_eq_ok,
        pure_eq_ok] at h
      obtain ⟨read, hread, -, -, user, huser, -, hactive, -, -, -, -, rfl⟩ := h
      simp only [granted, hread, huser, Option.bind_eq_bind, Option.bind_some, Option.pure_def,
        Option.some.injEq] at hgrant
      subst hgrant
      exact ⟨user, huser, rfl, rfl, hactive⟩
  | rotate tokenHash newTokenHash now expiresAt =>
      simp only [State.execute, State.rotate, bind_eq_ok, require_eq_ok, ensure_eq_ok,
        pure_eq_ok] at h
      obtain ⟨token, htoken, user, huser, -, -, -, hactive, -, -, rfl⟩ := h
      simp only [granted, htoken, huser, Option.bind_eq_bind, Option.bind_some, Option.pure_def,
        Option.some.injEq] at hgrant
      subst hgrant
      exact ⟨user, huser, rfl, rfl, hactive⟩
  | login | revoke | disableUser | resetPassword | enableUser => cases hgrant

/-- What ends the sessions of a user raises his version, unless he is disabled already. -/
theorem raised_of_invalidates (hinvalidates : request.Invalidates userId)
    (h : s.execute request = .ok t) :
    granted s request = none ∧ ∃ old new, s.users.row userId = some old ∧
      t.users.row userId = some new ∧
      (old.tokenVersion < new.tokenVersion ∨ old.status = .disabled ∧ new = old) := by
  cases request with
  | disableUser actorId target now =>
      obtain rfl : target = userId := hinvalidates
      simp only [State.execute, State.disableUser, bind_eq_ok, require_eq_ok] at h
      obtain ⟨-, -, user, huser, h⟩ := h
      split at h
      · rename_i hstatus
        obtain rfl := pure_eq_ok.mp h
        exact ⟨rfl, user, user, huser, huser, Or.inr ⟨hstatus, rfl⟩⟩
      · simp only [bind_eq_ok, pure_eq_ok] at h
        obtain ⟨_, -, rfl⟩ := h
        refine ⟨rfl, user,
          { user with status := .disabled, tokenVersion := user.tokenVersion + 1 }, huser, ?_,
          Or.inl (Nat.lt_succ_self _)⟩
        exact (Table.modify_row_self _ _ _).trans (by rw [huser, Option.map_some])
  | resetPassword target now =>
      obtain rfl : target = userId := hinvalidates
      simp only [State.execute, State.resetPassword, bind_eq_ok, require_eq_ok, pure_eq_ok] at h
      obtain ⟨user, huser, rfl⟩ := h
      refine ⟨rfl, user, { user with tokenVersion := user.tokenVersion + 1 }, huser, ?_,
        Or.inl (Nat.lt_succ_self _)⟩
      exact (Table.modify_row_self _ _ _).trans (by rw [huser, Option.map_some])
  | login | create | rotate | revoke | enableUser => exact hinvalidates.elim

end Requests

/-! Tokens that have lost their version -/

/-- What is granted was read from the row of a user, and what is issued was granted. -/
structure Granted (hmac : Hmac) (config : AuthConfigValues) (s : Server TokenHash LoginId) :
    Prop where
  read : ∀ grant ∈ s.grants, ∃ user, s.state.users.row grant.userId = some user ∧
    grant.tokenVersion ≤ user.tokenVersion ∧
    (user.status = .disabled → grant.tokenVersion < user.tokenVersion)
  issued : ∀ index token, (index, token) ∈ s.issued → ∃ now jti input,
    s.grants[index]? = some input ∧ input.tokenVersion < 2 ^ 53 ∧
      now + config.accessTokenTtlSeconds < 2 ^ 53 ∧ jti ≠ [] ∧
      token = issueAccessToken hmac config now jti input

/-- The tokens of the user from the first `n` sessions carry an earlier version. -/
def Outdated (n : Nat) (userId : JsString) (s : Server TokenHash LoginId) : Prop :=
  n ≤ s.grants.length ∧ ∀ index grant, index < n → s.grants[index]? = some grant →
    grant.userId = userId → ∀ user, s.state.users.row userId = some user →
      grant.tokenVersion < user.tokenVersion

variable {hmac : Hmac} {config : AuthConfigValues} {s t u : Server TokenHash LoginId} {n : Nat}

theorem Granted.advance {state : State JsString TokenHash LoginId} (h : Granted hmac config s)
    (hadvances : Advances s.state.users state.users) {later : List AccessTokenInput}
    (hlater : ∀ grant ∈ later, ∃ user, state.users.row grant.userId = some user ∧
      user.tokenVersion = grant.tokenVersion ∧ user.status ≠ .disabled) :
    Granted hmac config { s with state, grants := s.grants ++ later } where
  read := by
    intro grant hgrant
    rcases List.mem_append.mp hgrant with hold | hnew
    · obtain ⟨user, huser, hversion, hdisabled⟩ := h.read grant hold
      obtain ⟨user', huser', -, hgrown, hraised⟩ := hadvances grant.userId user huser
      refine ⟨user', huser', hversion.trans hgrown, fun hstatus => ?_⟩
      rcases hraised hstatus with hbefore | hlt
      · exact (hdisabled hbefore).trans_le hgrown
      · exact hversion.trans_lt hlt
    · obtain ⟨user, huser, hversion, hactive⟩ := hlater grant hnew
      exact ⟨user, huser, hversion.ge, fun hstatus => absurd hstatus hactive⟩
  issued := by
    intro index token hissued
    obtain ⟨now, jti, input, hinput, hrest⟩ := h.issued index token hissued
    have hindex := (List.getElem?_eq_some_iff.mp hinput).1
    exact ⟨now, jti, input, (List.getElem?_append_left hindex).trans hinput, hrest⟩

theorem Outdated.advance {state : State JsString TokenHash LoginId} (h : Outdated n userId s)
    (hknown : ∀ (index : Nat) (grant : AccessTokenInput), s.grants[index]? = some grant →
      ∃ user, s.state.users.row grant.userId = some user)
    (hadvances : Advances s.state.users state.users) (later : List AccessTokenInput) :
    Outdated n userId { s with state, grants := s.grants ++ later } := by
  obtain ⟨hlength, hversions⟩ := h
  refine ⟨hlength.trans (by simp), fun index grant hindex hgrant howner user huser => ?_⟩
  rw [List.getElem?_append_left (hindex.trans_le hlength)] at hgrant
  obtain ⟨old, hold⟩ := hknown index grant hgrant
  subst howner
  obtain ⟨user', huser', -, hgrown, -⟩ := hadvances grant.userId old hold
  obtain rfl := Option.some.inj (huser.symm.trans huser')
  exact (hversions index grant hindex hgrant rfl old hold).trans_le hgrown

theorem Granted.known (h : Granted hmac config s) (index : Nat) (grant : AccessTokenInput)
    (hgrant : s.grants[index]? = some grant) :
    ∃ user, s.state.users.row grant.userId = some user := by
  obtain ⟨user, huser, -⟩ := h.read grant (List.mem_of_getElem? hgrant)
  exact ⟨user, huser⟩

section Runs

variable [DecidableEq TokenHash] [DecidableEq LoginId] {users : Table JsString User}

theorem Granted.step (h : Granted hmac config s) (hstep : Step hmac config s t) :
    Granted hmac config t := by
  cases hstep with
  | request request hexecute =>
      refine h.advance (change_execute hexecute).advances fun grant hgrant => ?_
      obtain ⟨user, huser, -, hversion, hactive⟩ :=
        granted_execute hexecute (Option.mem_toList.mp hgrant)
      exact ⟨user, huser, hversion, hactive⟩
  | createUser userId role hinsert =>
      have hnone := @Granted.advance _ _ _ _ _ { s.state with users := _ } h
        (advances_insert hinsert) [] fun _ hgrant => absurd hgrant List.not_mem_nil
      rwa [List.append_nil] at hnone
  | @issue index now jti input hgrant hversion hexp hjti =>
      refine ⟨h.read, fun other token hissued => ?_⟩
      rcases List.mem_append.mp hissued with hold | hnew
      · exact h.issued other token hold
      · obtain ⟨rfl, rfl⟩ := Prod.mk.inj (List.mem_singleton.mp hnew)
        exact ⟨now, jti, input, hgrant, hversion, hexp, hjti, rfl⟩

theorem granted_of_reachable (h : (accessSystem hmac config users).Reachable s) :
    Granted hmac config s := by
  refine h.invariant ?_ ?_
  · rintro s rfl
    exact ⟨fun _ hgrant => absurd hgrant List.not_mem_nil,
      fun _ _ hissued => absurd hissued List.not_mem_nil⟩
  · intro s t _ hgranted hstep
    exact hgranted.step hstep

theorem Outdated.step (h : Outdated n userId s) (hgranted : Granted hmac config s)
    (hstep : Step hmac config s t) : Outdated n userId t := by
  cases hstep with
  | request request hexecute => exact h.advance hgranted.known (change_execute hexecute).advances _
  | createUser _ role hinsert =>
      have hnone := @Outdated.advance _ _ _ _ _ { s.state with users := _ } h hgranted.known
        (advances_insert hinsert) []
      rwa [List.append_nil] at hnone
  | issue => exact h

theorem Outdated.run (h : Outdated n userId s) (hgranted : Granted hmac config s)
    (hrun : Relation.ReflTransGen (Step hmac config) s t) :
    Outdated n userId t ∧ Granted hmac config t := by
  induction hrun with
  | refl => exact ⟨h, hgranted⟩
  | tail _ hstep ih => exact ⟨ih.1.step ih.2 hstep, ih.2.step hstep⟩

/-- What ends the sessions of a user outdates their tokens. -/
theorem outdated_of_invalidates (hgranted : Granted hmac config s)
    {request : Request JsString TokenHash LoginId} {state : State JsString TokenHash LoginId}
    (hinvalidates : request.Invalidates userId) (h : s.state.execute request = .ok state) :
    Outdated s.grants.length userId { s with state } := by
  obtain ⟨-, old, new, hold, hnew, hraised⟩ := raised_of_invalidates hinvalidates h
  refine ⟨le_rfl, fun index grant _ hgrant howner user huser => ?_⟩
  subst howner
  obtain ⟨before, hbefore, hversion, hdisabled⟩ :=
    hgranted.read grant (List.mem_of_getElem? hgrant)
  obtain rfl := Option.some.inj (hbefore.symm.trans hold)
  obtain rfl := Option.some.inj (huser.symm.trans hnew)
  rcases hraised with hlt | ⟨hstatus, rfl⟩
  · exact hversion.trans_lt hlt
  · exact hdisabled hstatus

/-! Requests with a token -/

/-- Nobody but the server signs with its secret. -/
def OnlyServerSigns (hmac : Hmac) (config : AuthConfigValues) (s : Server TokenHash LoginId)
    (token : List Char) : Prop :=
  ∀ head body, token = signingInput head body ++
      '.' :: sign hmac (signingInput head body) config.accessTokenSecret →
    ∃ index, (index, token) ∈ s.issued

omit [DecidableEq TokenHash] [DecidableEq LoginId] in
/-- A request is admitted with a token that was issued for its user, who has the version of the
token and is not disabled. -/
theorem issued_of_canActivate {now : Int} {authorization : Option (List Char)}
    {user : AuthenticatedRequestUser} (hgranted : Granted hmac config s)
    (hsigned : ∀ token, bearerToken authorization = some token →
      OnlyServerSigns hmac config s token)
    (h : canActivate hmac config now s.state.users authorization = .ok user) :
    ∃ index token grant row, bearerToken authorization = some token ∧ (index, token) ∈ s.issued ∧
      s.grants[index]? = some grant ∧ grant.userId = user.id ∧
      s.state.users.row user.id = some row ∧ row.tokenVersion = grant.tokenVersion ∧
      row.role = user.role ∧ row.status ≠ .disabled := by
  simp only [canActivate, bind_eq_ok, require_eq_ok, ensure_eq_ok, pure_eq_ok] at h
  obtain ⟨token, htoken, claims, hclaims, row, hrow, -, hversion, -, hactive, rfl⟩ := h
  obtain ⟨head, body, -, htext, -⟩ := signed_of_verifyAccessToken hclaims
  obtain ⟨index, hissued⟩ := hsigned token htoken head body htext
  obtain ⟨made, jti, grant, hgrant, hbound, hexp, hjti, rfl⟩ := hgranted.issued index token hissued
  rw [verifyAccessToken_issueAccessToken hbound hexp hjti] at hclaims
  split at hclaims
  · obtain rfl := Except.ok.inj hclaims
    exact ⟨index, _, grant, row, htoken, hissued, hgrant, rfl, hrow, Int.ofNat_inj.mp hversion, rfl,
      hactive⟩
  · cases hclaims

end Runs

/-! There is an administrator -/

theorem nodup_entries (h : users.keys.Nodup) : (users.entries.map Prod.fst).Nodup := by
  rw [Table.entries, List.map_filterMap]
  refine h.filterMap fun key other found hkey hother => ?_
  simp only [Option.mem_def, Option.map_map, Option.map_eq_some_iff, Function.comp] at hkey hother
  obtain ⟨_, -, rfl⟩ := hkey
  obtain ⟨_, -, hsame⟩ := hother
  exact hsame.symm

theorem exists_other {entries : List (JsString × User)} (h : (entries.map Prod.fst).Nodup)
    (hlength : 1 < entries.length) (key : JsString) : ∃ entry ∈ entries, entry.1 ≠ key := by
  by_contra hall
  push Not at hall
  have hkeys : entries.map Prod.fst = List.replicate entries.length key :=
    List.eq_replicate_iff.mpr ⟨List.length_map _, by simpa using hall⟩
  rw [hkeys, List.nodup_replicate] at h
  exact absurd hlength (Nat.not_lt.mpr h)

/-- Some administrator is not disabled. -/
def Administered (users : Table JsString User) : Prop :=
  ∃ userId user, users.row userId = some user ∧ user.role = .admin ∧ user.status = .active

/-- Only an administrator who is not the last one is disabled. -/
theorem Change.administered {s : State JsString TokenHash LoginId} (h : Change s users')
    (hkeys : s.users.keys.Nodup) (hadministered : Administered s.users) :
    users'.keys.Nodup ∧ Administered users' := by
  obtain ⟨adminId, admin, hrow, hrole, hstatus⟩ := hadministered
  cases h with
  | same => exact ⟨hkeys, adminId, admin, hrow, hrole, hstatus⟩
  | @disable userId user huser hadmin =>
      refine ⟨hkeys, ?_⟩
      by_cases hsame : adminId = userId
      · -- another one is left
        subst hsame
        obtain rfl := Option.some.inj (hrow.symm.trans huser)
        obtain ⟨entry, hentry, hother⟩ := exists_other
          ((nodup_entries hkeys).sublist (List.filter_sublist.map Prod.fst)) (hadmin hrole) adminId
        rw [List.mem_filter, Bool.and_eq_true, decide_eq_true_eq, decide_eq_true_eq] at hentry
        refine ⟨entry.1, entry.2, ?_, hentry.2⟩
        rw [Table.modify_row_of_ne _ hother]
        exact Table.mem_entries.mp hentry.1
      · exact ⟨adminId, admin, by rw [Table.modify_row_of_ne _ hsame, hrow], hrole, hstatus⟩
  | reset userId =>
      refine ⟨hkeys, adminId, ?_⟩
      rw [Table.modify_row, hrow]
      split
      · exact ⟨_, rfl, hrole, hstatus⟩
      · exact ⟨_, rfl, hrole, hstatus⟩
  | enable userId =>
      refine ⟨hkeys, adminId, ?_⟩
      rw [Table.modify_row, hrow]
      split
      · exact ⟨_, rfl, hrole, rfl⟩
      · exact ⟨_, rfl, hrole, hstatus⟩

theorem administered_insert {key : JsString} {row : User} (h : users.insert key row = some users')
    (hkeys : users.keys.Nodup) (hadministered : Administered users) :
    users'.keys.Nodup ∧ Administered users' := by
  constructor
  · rw [Table.insert] at h
    split at h
    · rename_i hfree
      obtain rfl := Option.some.inj h
      refine List.nodup_append.mpr ⟨hkeys, List.nodup_singleton key, ?_⟩
      intro other hmem taken htaken
      rw [List.mem_singleton.mp htaken]
      rintro rfl
      obtain ⟨_, hrow⟩ := (users.mem_keys other).mp hmem
      rw [hfree] at hrow
      cases hrow
    · cases h
  · obtain ⟨adminId, admin, hrow, hrole, hstatus⟩ := hadministered
    refine ⟨adminId, admin, ?_, hrole, hstatus⟩
    rw [Table.insert_row h, if_neg, hrow]
    rintro rfl
    rw [Table.insert_fresh h] at hrow
    cases hrow

def demoUsers : Table JsString User := .single demoUserId ⟨.admin, .active, 0⟩

/-- The server after a request that succeeds. -/
def Server.after [DecidableEq TokenHash] [DecidableEq LoginId] (s : Server TokenHash LoginId)
    (request : Request JsString TokenHash LoginId) : Server TokenHash LoginId :=
  { s with
    state := s.state.step request
    grants := s.grants ++ (granted s.state request).toList }

theorem execute_of_isOk [DecidableEq TokenHash] [DecidableEq LoginId]
    {s : State JsString TokenHash LoginId} {request : Request JsString TokenHash LoginId}
    (h : (s.execute request).isOk = true) : s.execute request = .ok (s.step request) := by
  rw [State.step, eq_ok_value _ h]

theorem step_after [DecidableEq TokenHash] [DecidableEq LoginId] {s : Server TokenHash LoginId}
    {request : Request JsString TokenHash LoginId}
    (h : (s.state.execute request).isOk = true) : Step hmac config s (s.after request) :=
  .request request (execute_of_isOk h)

/-- The administrator has a session. -/
def demoServer : Server Nat Nat :=
  (Server.after ⟨initialState demoUsers, [], []⟩ (.login 0 demoUserId)).after (.create 0 0 1000000)

theorem reachable_demoServer : (accessSystem demoHmac demoConfig demoUsers).Reachable demoServer :=
  ((TransitionSystem.Reachable.init rfl).step (step_after (by decide))).step
    (step_after (by decide))

def demoReset : Request JsString Nat Nat := .resetPassword demoUserId 5

def demoResetServer : Server Nat Nat := { demoServer with state := demoServer.state.step demoReset }

/-- He logs in again. -/
def demoSecond : Server Nat Nat :=
  (demoResetServer.after (.login 1 demoUserId)).after (.create 1 1 1000000)

def demoToken : List Char :=
  issueAccessToken demoHmac demoConfig 1000 demoJti ⟨demoUserId, .admin, 1⟩

def demoFinal : Server Nat Nat :=
  { demoSecond with issued := demoSecond.issued ++ [(1, demoToken)] }

theorem run_demoFinal :
    Relation.ReflTransGen (Step demoHmac demoConfig) demoResetServer demoFinal := by
  have hlogin : Step demoHmac demoConfig demoResetServer
      (demoResetServer.after (.login 1 demoUserId)) := step_after (by decide)
  have hcreate : Step demoHmac demoConfig (demoResetServer.after (.login 1 demoUserId))
      demoSecond := step_after (by decide)
  have hissue : Step demoHmac demoConfig demoSecond demoFinal :=
    .issue (by decide) (by decide) (by decide) (by decide)
  exact .tail (.tail (.single hlogin) hcreate) hissue

def demoHeader : List Char := bearer ++ demoToken

theorem bearerToken_demoHeader : bearerToken (some demoHeader) = some demoToken := by
  decide +kernel

theorem canActivate_demoHeader :
    canActivate demoHmac demoConfig 1500 demoFinal.state.users (some demoHeader) =
      .ok ⟨demoUserId, .admin, .active, 1, demoJti⟩ := by
  have hverified : verifyAccessToken demoHmac demoConfig 1500 demoToken =
      .ok (claimsOf demoConfig 1000 demoJti ⟨demoUserId, .admin, 1⟩) :=
    (verifyAccessToken_issueAccessToken (by decide) (by decide) (by decide)).trans
      (if_pos ⟨by decide, by decide⟩)
  rw [canActivate, bearerToken_demoHeader]
  simp only [require, hverified, bind, Except.bind]
  rfl

end AnvilRun.AccessControl
