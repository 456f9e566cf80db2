import AnvilRun.StatusHistory

namespace AnvilRun.ClaimCache

open AnvilRun.AgentRegistry
open AnvilRun.ExecutionSlot
open AnvilRun.Fallible
open AnvilRun.TaskDatabase
open AnvilRun.TaskMoves
open AnvilRun.TaskOperations
open AnvilRun.TaskQueue
open AnvilRun.TaskRuns

def claimResultTtlMs : Int := 5 * 60000
def maxClaimResults : Nat := 256

/-- The text `agentId:messageId`. No id of an agent holds a colon. -/
abbrev ClaimKey := Id × JsString

/-- An assignment with the number of the dispatch that made it. -/
structure Dispatch where
  assignment : TaskAssignment
  number : Nat

/-- A value of `completedClaims`. -/
structure StoredClaim where
  result : Option Dispatch
  expiresAt : Time

/-- What has become of the promise of a claim. -/
inductive ClaimPhase where
  | running
  | committed (result : Option Dispatch)
  | failed
  | settled

/-- A value of `inFlightClaims`. -/
structure RunningClaim where
  requestedTaskId : Option JsString
  phase : ClaimPhase

/-- A call of `claim` that waits for `assignmentIsActive`. -/
structure Replay where
  agentId : Id
  dispatch : Dispatch

/-- The server as the claims see it. The last two fields number the dispatches: how many there
were, and the last one of each task. The code has no such fields. -/
structure ClaimState where
  db : Db
  completedClaims : List (ClaimKey × StoredClaim)
  inFlightClaims : ClaimKey → Option RunningClaim
  replays : List Replay
  dispatches : Nat
  lastDispatch : Id → Option Nat

/-- An assignment that a call of `claim` returns to its agent. -/
structure HandOut where
  agentId : Id
  assignment : TaskAssignment

/-- `completedClaims.set`: a key that is there keeps its place. -/
def setStored (claims : List (ClaimKey × StoredClaim)) (key : ClaimKey) (stored : StoredClaim) :
    List (ClaimKey × StoredClaim) :=
  if claims.any (fun entry => decide (entry.1 = key)) then
    claims.map (fun entry => if entry.1 = key then (key, stored) else entry)
  else claims ++ [(key, stored)]

def trimClaimResults (now : Time) (claims : List (ClaimKey × StoredClaim)) :
    List (ClaimKey × StoredClaim) :=
  let fresh := claims.filter (fun entry => decide (now < entry.2.expiresAt))
  fresh.drop (fresh.length - maxClaimResults)

def assignmentIsActive (db : Db) (agentId taskId : Id) : Bool :=
  match db.tasks.row taskId with
  | some task =>
      decide (task.agentId = agentId ∧ task.status = .dispatched) &&
        (db.agents.row task.agentId).any (fun agent => decide (agent.activeTaskId = some taskId))
  | none => false

namespace ClaimState

/-- The stored claim of a key, if it has not expired. -/
def fresh (s : ClaimState) (now : Time) (key : ClaimKey) : Option StoredClaim :=
  ((s.completedClaims.find? (fun entry => decide (entry.1 = key))).map Prod.snd).filter
    (fun stored => decide (now < stored.expiresAt))

/-- The part of `claim` in front of its first wait. -/
def call (s : ClaimState) (registry : Registry) (now : Time) (key : ClaimKey)
    (requestedTaskId : Option JsString) : ClaimState :=
  match s.fresh now key with
  | some stored =>
      match stored.result with
      | some dispatch => { s with replays := s.replays ++ [⟨key.1, dispatch⟩] }
      | none => s
  | none =>
      let s := { s with
        completedClaims := s.completedClaims.filter (fun entry => decide (entry.1 ≠ key)) }
      match s.inFlightClaims key with
      | some _ => s
      | none =>
          if registry.isReady key.1 then
            { s with
              inFlightClaims := Function.update s.inFlightClaims key
                (some ⟨requestedTaskId, .running⟩) }
          else s

def setPhase (s : ClaimState) (key : ClaimKey) (requestedTaskId : Option JsString)
    (phase : ClaimPhase) : ClaimState :=
  { s with
    inFlightClaims := Function.update s.inFlightClaims key (some ⟨requestedTaskId, phase⟩) }

@[simp]
theorem setPhase_db (s : ClaimState) (key : ClaimKey) (requested : Option JsString)
    (phase : ClaimPhase) : (s.setPhase key requested phase).db = s.db := rfl

@[simp]
theorem setPhase_dispatches (s : ClaimState) (key : ClaimKey) (requested : Option JsString)
    (phase : ClaimPhase) : (s.setPhase key requested phase).dispatches = s.dispatches := rfl

@[simp]
theorem setPhase_lastDispatch (s : ClaimState) (key : ClaimKey) (requested : Option JsString)
    (phase : ClaimPhase) : (s.setPhase key requested phase).lastDispatch = s.lastDispatch := rfl

/-- What `claimInTransaction` returns and leaves. -/
def transact (s : ClaimState) (env : Environment) (registry : Registry) (now : Time)
    (tokens : Nat → JsString) (agentId : Id) (requestedTaskId : Option JsString) :
    Except Failure (ClaimOutcome × Db) :=
  if requestedTaskId.any (fun id => !ValidationPrimitives.matchesUuid id) then
    .ok (⟨none, false, []⟩, s.db)
  else claimInTransaction env registry now tokens s.db agentId requestedTaskId

/-- The end of `claimInTransaction`. -/
def commit (s : ClaimState) (env : Environment) (registry : Registry) (now : Time)
    (tokens : Nat → JsString) (key : ClaimKey) : Option HandOut × ClaimState :=
  match s.inFlightClaims key with
  | some ⟨requested, .running⟩ =>
      match s.transact env registry now tokens key.1 requested with
      | .error _ => (none, s.setPhase key requested .failed)
      | .ok (outcome, db) =>
          match outcome.result with
          | none => (none, { s with db := db }.setPhase key requested (.committed none))
          | some assignment => (some ⟨key.1, assignment⟩, { s with
              db := db
              dispatches := s.dispatches + 1
              lastDispatch := Function.update s.lastDispatch assignment.taskId (some s.dispatches)
            }.setPhase key requested (.committed (some ⟨assignment, s.dispatches⟩)))
  | _ => (none, s)

/-- The callback behind `claimInTransaction`, which stores the result. -/
def settle (s : ClaimState) (now : Time) (key : ClaimKey) : ClaimState :=
  match s.inFlightClaims key with
  | some ⟨requested, .committed result⟩ =>
      { s with
        completedClaims := trimClaimResults now
          (setStored s.completedClaims key ⟨result, now + claimResultTtlMs⟩) }.setPhase key
        requested .settled
  | _ => s

/-- The callback behind that one, which forgets the promise. -/
def finish (s : ClaimState) (key : ClaimKey) : ClaimState :=
  match s.inFlightClaims key with
  | some ⟨_, .settled⟩ | some ⟨_, .failed⟩ =>
      { s with inFlightClaims := Function.update s.inFlightClaims key none }
  | _ => s

/-- The read that decides about a stored assignment. -/
def revalidate (s : ClaimState) (i : Nat) : Option HandOut × ClaimState :=
  match s.replays[i]? with
  | some replay =>
      (if assignmentIsActive s.db replay.agentId replay.dispatch.assignment.taskId then
        some ⟨replay.agentId, replay.dispatch.assignment⟩ else none,
        { s with replays := s.replays.eraseIdx i })
  | none => (none, s)

end ClaimState

/-- The steps of the server. Apart from the claims the database changes by the other operations. -/
inductive ClaimEvent where
  | call (registry : Registry) (now : Time) (key : ClaimKey) (requestedTaskId : Option JsString)
  | commit (registry : Registry) (now : Time) (tokens : Nat → JsString) (key : ClaimKey)
  | settle (now : Time) (key : ClaimKey)
  | finish (key : ClaimKey)
  | revalidate (i : Nat)
  | database (db : Db)

namespace ClaimEvent

/-- The assignment that is handed out, if there is one, and the state behind the step. -/
def perform (env : Environment) (s : ClaimState) : ClaimEvent → Option HandOut × ClaimState
  | call registry now key requested => (none, s.call registry now key requested)
  | commit registry now tokens key => s.commit env registry now tokens key
  | settle now key => (none, s.settle now key)
  | finish key => (none, s.finish key)
  | revalidate i => s.revalidate i
  | database db => (none, { s with db := db })

/-- Only the claims dispatch. -/
def Feasible (env : Environment) (s : ClaimState) : ClaimEvent → Prop
  | database db => TaskStep env (fun _ op => ¬ Dispatches op) s.db db
  | _ => True

/-- A stored assignment is asked for again only while its dispatch is the last one of its task. -/
def Latest (s : ClaimState) : ClaimEvent → Prop
  | revalidate i => ∀ replay, s.replays[i]? = some replay →
      s.lastDispatch replay.dispatch.assignment.taskId = some replay.dispatch.number
  | _ => True

end ClaimEvent

/-- The server from a database without tasks on, with no claim so far. -/
def claimRuns (env : Environment) (allowed : ClaimState → ClaimEvent → Prop) :
    TransitionSystem ClaimState where
  init := fun s => (∀ taskId, s.db.tasks.row taskId = none) ∧ s.completedClaims = [] ∧
    (∀ key, s.inFlightClaims key = none) ∧ s.replays = []
  step := fun s t => ∃ e : ClaimEvent, e.Feasible env s ∧ allowed s e ∧ t = (e.perform env s).2

/-- The task of the assignment is dispatched to the agent, in its slot, under the lease of the
assignment. -/
def Live (env : Environment) (db : Db) (handOut : HandOut) : Prop :=
  ∃ task agent, db.tasks.row handOut.assignment.taskId = some task ∧
    db.agents.row handOut.agentId = some agent ∧ task.agentId = handOut.agentId ∧
    task.status = .dispatched ∧ agent.activeTaskId = some handOut.assignment.taskId ∧
    task.leaseHash = some (env.hashToken handOut.assignment.leaseToken)

variable {env : Environment} {registry : Registry} {now : Time} {db db' db'' : Db}
  {agentId taskId : Id} {task task' : BuildTask} {s t : ClaimState}

/-! A dispatch lasts until the task leaves its status -/

/-- Every task that is dispatched now was dispatched before, under the same lease. -/
def DispatchKept (db db' : Db) : Prop :=
  ∀ taskId task', db'.tasks.row taskId = some task' → task'.status = .dispatched →
    ∃ task, db.tasks.row taskId = some task ∧ task.status = .dispatched ∧
      task.leaseHash = task'.leaseHash

theorem DispatchKept.of_tasks (h : db'.tasks = db.tasks) : DispatchKept db db' := by
  intro k t hk hstatus
  rw [h] at hk
  exact ⟨t, hk, hstatus, rfl⟩

theorem DispatchKept.trans (h : DispatchKept db db') (h' : DispatchKept db' db'') :
    DispatchKept db db'' := by
  intro k t hk hstatus
  obtain ⟨between, hbetween, hdispatched, hlease⟩ := h' k t hk hstatus
  obtain ⟨first, hfirst, hold, hsame⟩ := h k between hbetween hdispatched
  exact ⟨first, hfirst, hold, hsame.trans hlease⟩

theorem DispatchKept.change (h : TaskChange db db' taskId task task')
    (hnew : task'.status ≠ .dispatched) : DispatchKept db db' := by
  intro k t hk hstatus
  by_cases heq : k = taskId
  · rw [heq, h.after] at hk
    obtain rfl := Option.some.inj hk
    exact absurd hstatus hnew
  · rw [h.others k heq] at hk
    exact ⟨t, hk, hstatus, rfl⟩

theorem dispatchKept_of_move {careless : Prop} (h : Move agentId careless False db db') :
    DispatchKept db db' := by
  cases h with
  | status hrow howner hcan hnext hchange =>
      exact .change (taskChange_setStatus hrow) hnext
  | @task now _ taskId task set hrow howner hkept =>
      intro k t hk hstatus
      by_cases heq : k = taskId
      · rw [heq, (taskChange_updateTask hrow).after] at hk
        obtain rfl := Option.some.inj hk
        rw [heq]
        exact ⟨task, hrow, hstatus, hkept.leaseHash.symm⟩
      · rw [(taskChange_updateTask hrow).others k heq] at hk
        exact ⟨t, hk, hstatus, rfl⟩
  | agent => exact .of_tasks rfl
  | @create _ taskId task tasks source reason now hinsert howner hcanonical hcreated hrecovery =>
      intro k t hk hstatus
      change tasks.row k = some t at hk
      rw [Table.insert_row hinsert] at hk
      split at hk
      · obtain rfl := Option.some.inj hk
        rw [hcreated] at hstatus
        cases hstatus
      · exact ⟨t, hk, hstatus, rfl⟩

theorem dispatchKept_of_step (hids : CanonicalIds db)
    (h : TaskStep env (fun _ op => ¬ Dispatches op) db db') : DispatchKept db db' := by
  have hmoves : ∀ {agentId : Id} {careless : Prop} {last : Db},
      Moves agentId careless False db last → DispatchKept db last := by
    intro agentId careless last hmoves
    exact hmoves.invariant (.of_tasks rfl) fun s t hs hmove => hs.trans (dispatchKept_of_move hmove)
  cases h with
  | operation op hop hallowed =>
      obtain ⟨agentId, hrun⟩ := run_moves hids hop
      exact hmoves (hrun.mono id hallowed)
  | administer htasks hhistory => exact .of_tasks htasks
  | @updateTask now db taskId task set hrow hkept =>
      have hmove : Move task.agentId False False db (db.updateTask now taskId set) :=
        .task hrow rfl hkept
      exact hmoves (.single hmove)

/-! What a claim does -/

/-- The assignment of a claim is live, and no other task is dispatched by it. -/
structure Claimed (env : Environment) (agentId : Id) (outcome : ClaimOutcome) (db db' : Db) :
    Prop where
  live : ∀ assignment, outcome.result = some assignment → Live env db' ⟨agentId, assignment⟩
  kept : ∀ taskId task', db'.tasks.row taskId = some task' → task'.status = .dispatched →
    (∃ assignment, outcome.result = some assignment ∧ assignment.taskId = taskId) ∨
      ∃ task, db.tasks.row taskId = some task ∧ task.status = .dispatched ∧
        task.leaseHash = task'.leaseHash

theorem Claimed.nothing {outcome : ClaimOutcome} (hnone : outcome.result = none)
    (h : DispatchKept db db') : Claimed env agentId outcome db db' where
  live := by
    intro assignment hsome
    rw [hnone] at hsome
    cases hsome
  kept := fun k t hk hstatus => Or.inr (h k t hk hstatus)

theorem Claimed.after {outcome : ClaimOutcome} (h : DispatchKept db db')
    (h' : Claimed env agentId outcome db' db'') : Claimed env agentId outcome db db'' where
  live := h'.live
  kept := by
    intro k t hk hstatus
    rcases h'.kept k t hk hstatus with hnew | ⟨between, hbetween, hdispatched, hlease⟩
    · exact Or.inl hnew
    · obtain ⟨first, hfirst, hold, hsame⟩ := h k between hbetween hdispatched
      exact Or.inr ⟨first, hfirst, hold, hsame.trans hlease⟩

theorem failUndispatchable_dispatchKept {reason : JsString}
    (h : failUndispatchable now db taskId reason = .ok db')
    (hrow : db.tasks.row taskId = some task) (hqueued : task.status = .queued) :
    DispatchKept db db' := by
  simp only [failUndispatchable, bind_eq_ok] at h
  obtain ⟨between, hdispatched, hfailed⟩ := h
  rcases taskChange_transition hdispatched hrow with ⟨hsame, -⟩ | ⟨-, hfirst⟩
  · rw [hqueued] at hsame
    cases hsame
  rcases taskChange_transition hfailed hfirst.after with ⟨hsame, -⟩ | ⟨-, hsecond⟩
  · cases hsame
  · exact .change (hfirst.trans hsecond) BuildTaskStatus.noConfusion

theorem claimLoop_claimed {tokens : Nat → JsString} {agent : Agent} {requested : Option Id}
    {outcome : ClaimOutcome} (attempts : Nat) :
    ∀ (terminal : List Id) (db : Db), db.agents.row agentId = some agent →
      claimLoop env registry now tokens agentId agent requested attempts terminal db =
        .ok (outcome, db') → Claimed env agentId outcome db db' := by
  induction attempts with
  | zero =>
      intro terminal db hagent h
      obtain ⟨rfl, rfl⟩ := Prod.mk.inj (Except.ok.inj h)
      exact .nothing rfl (.of_tasks rfl)
  | succ attempts ih =>
      intro terminal db hagent h
      rw [claimLoop] at h
      split at h
      · obtain ⟨rfl, rfl⟩ := Prod.mk.inj (Except.ok.inj h)
        exact .nothing rfl (.of_tasks rfl)
      rename_i taskId task hfirst
      obtain ⟨hrow, howner, hqueued⟩ := SlotPreservation.firstQueued_row hfirst
      -- a task that cannot be dispatched is failed, and the loop goes on
      have hskip : ∀ {reason : JsString} {next : Db},
          failUndispatchable now db taskId reason = .ok next →
          claimLoop env registry now tokens agentId agent requested attempts
            (terminal ++ [taskId]) next = .ok (outcome, db') →
          Claimed env agentId outcome db db' := by
        intro reason next hfail hrest
        have hnext : next.agents.row agentId = some agent := by
          rw [SlotPreservation.failUndispatchable_agents hfail]
          exact hagent
        exact (ih _ _ hnext hrest).after (failUndispatchable_dispatchKept hfail hrow hqueued)
      simp only [bind_eq_ok, require_eq_ok] at h
      obtain ⟨project, -, template, -, h⟩ := h
      split at h
      · simp only [bind_eq_ok] at h
        obtain ⟨next, hfail, hrest⟩ := h
        exact hskip hfail hrest
      split at h
      · simp only [bind_eq_ok, pure_eq_ok, Prod.mk.injEq] at h
        obtain ⟨next, htransition, rfl, rfl⟩ := h
        rcases taskChange_transition htransition hrow with ⟨-, rfl⟩ | ⟨-, hchange⟩
        · exact .nothing rfl (.of_tasks rfl)
        · exact .nothing rfl (.change hchange BuildTaskStatus.noConfusion)
      split at h
      · simp only [bind_eq_ok] at h
        obtain ⟨next, hfail, hrest⟩ := h
        exact hskip hfail hrest
      · simp only [bind_eq_ok, pure_eq_ok, Prod.mk.injEq] at h
        obtain ⟨next, htransition, rfl, rfl⟩ := h
        rcases taskChange_transition htransition hrow with ⟨hsame, -⟩ | ⟨-, hchange⟩
        · rw [hqueued] at hsame
          cases hsame
        refine ⟨?_, ?_⟩
        · intro assignment hsome
          obtain rfl := Option.some.inj hsome
          have hslot : (next.setActiveTask agentId (some taskId)).agents.row agentId =
              some { agent with activeTaskId := some taskId } := by
            show (next.agents.modify agentId _).row agentId = _
            rw [Table.modify_row_self, hchange.agents, hagent]
            rfl
          exact ⟨_, _, hchange.after, hslot, howner, rfl, rfl, rfl⟩
        · intro k t hk hstatus
          change next.tasks.row k = some t at hk
          by_cases heq : k = taskId
          · exact Or.inl ⟨_, rfl, heq.symm⟩
          · rw [hchange.others k heq] at hk
            exact Or.inr ⟨t, hk, hstatus, rfl⟩

theorem claimInTransaction_claimed {tokens : Nat → JsString} {requested : Option JsString}
    {outcome : ClaimOutcome}
    (h : claimInTransaction env registry now tokens db agentId requested = .ok (outcome, db')) :
    Claimed env agentId outcome db db' := by
  simp only [claimInTransaction, bind_eq_ok, require_eq_ok, ensure_eq_ok] at h
  obtain ⟨agent, hagent, -, -, -, -, h⟩ := h
  split at h
  · obtain ⟨rfl, rfl⟩ := Prod.mk.inj (pure_eq_ok.mp h)
    exact .nothing rfl (.of_tasks rfl)
  · exact claimLoop_claimed _ _ _ hagent h

/-! The stored assignments -/

/-- The server may still return the assignment of the dispatch. -/
def Remembered (s : ClaimState) (dispatch : Dispatch) : Prop :=
  (∃ entry ∈ s.completedClaims, entry.2.result = some dispatch) ∨
    (∃ key requested, s.inFlightClaims key = some ⟨requested, .committed (some dispatch)⟩) ∨
    ∃ replay ∈ s.replays, replay.dispatch = dispatch

/-- The last dispatch of a task made its lease, as long as the task is dispatched. -/
def Current (env : Environment) (s : ClaimState) (dispatch : Dispatch) : Prop :=
  dispatch.number < s.dispatches ∧
    (s.lastDispatch dispatch.assignment.taskId = some dispatch.number →
      ∀ task, s.db.tasks.row dispatch.assignment.taskId = some task → task.status = .dispatched →
        task.leaseHash = some (env.hashToken dispatch.assignment.leaseToken))

structure ClaimInvariant (env : Environment) (s : ClaimState) : Prop where
  ids : CanonicalIds s.db
  current : ∀ dispatch, Remembered s dispatch → Current env s dispatch

theorem ClaimInvariant.forget (hinv : ClaimInvariant env s) (hdb : t.db = s.db)
    (hcount : t.dispatches = s.dispatches) (hlast : t.lastDispatch = s.lastDispatch)
    (h : ∀ dispatch, Remembered t dispatch → Remembered s dispatch) : ClaimInvariant env t where
  ids := by
    rw [hdb]
    exact hinv.ids
  current := by
    intro dispatch hmem
    rw [Current, hdb, hcount, hlast]
    exact hinv.current dispatch (h dispatch hmem)

theorem remembered_setPhase {key : ClaimKey} {requested : Option JsString} {phase : ClaimPhase}
    {dispatch : Dispatch} (h : Remembered (s.setPhase key requested phase) dispatch) :
    phase = .committed (some dispatch) ∨ Remembered s dispatch := by
  rcases h with hstored | ⟨k, other, hk⟩ | hreplay
  · exact Or.inr (Or.inl hstored)
  · change Function.update s.inFlightClaims key _ k = _ at hk
    by_cases heq : k = key
    · rw [heq, Function.update_self] at hk
      exact Or.inl (RunningClaim.mk.inj (Option.some.inj hk)).2
    · rw [Function.update_of_ne heq] at hk
      exact Or.inr (Or.inr (Or.inl ⟨k, other, hk⟩))
  · exact Or.inr (Or.inr (Or.inr hreplay))

theorem remembered_call {key : ClaimKey} {requested : Option JsString} {dispatch : Dispatch}
    (h : Remembered (s.call registry now key requested) dispatch) : Remembered s dispatch := by
  rw [ClaimState.call] at h
  split at h
  · rename_i stored hfresh
    split at h
    · rename_i found hfound
      rcases h with hstored | hrunning | ⟨replay, hreplay, rfl⟩
      · exact Or.inl hstored
      · exact Or.inr (Or.inl hrunning)
      · rcases List.mem_append.mp hreplay with hold | hnew
        · exact Or.inr (Or.inr ⟨replay, hold, rfl⟩)
        · obtain rfl := List.mem_singleton.mp hnew
          obtain ⟨entry, hentry, hstored⟩ := Option.map_eq_some_iff.mp
            (Option.filter_eq_some_iff.mp hfresh).1
          exact Or.inl ⟨entry, List.mem_of_find?_eq_some hentry, by rw [hstored, hfound]⟩
    · exact h
  · -- the stored claim is deleted, and a new one is started at most
    have hdeleted : ∀ {claims : ClaimKey → Option RunningClaim},
        (∀ k requested, claims k = some ⟨requested, .committed (some dispatch)⟩ →
          s.inFlightClaims k = some ⟨requested, .committed (some dispatch)⟩) →
        Remembered { s with
          completedClaims := s.completedClaims.filter (fun entry => decide (entry.1 ≠ key))
          inFlightClaims := claims } dispatch → Remembered s dispatch := by
      rintro claims hclaims (⟨entry, hentry, hresult⟩ | ⟨k, other, hk⟩ | hreplay)
      · exact Or.inl ⟨entry, (List.mem_filter.mp hentry).1, hresult⟩
      · exact Or.inr (Or.inl ⟨k, other, hclaims k other hk⟩)
      · exact Or.inr (Or.inr hreplay)
    dsimp only at h
    split at h
    · exact hdeleted (fun _ _ hk => hk) h
    split at h
    · refine hdeleted (fun k other hk => ?_) h
      by_cases heq : k = key
      · rw [heq, Function.update_self] at hk
        cases (RunningClaim.mk.inj (Option.some.inj hk)).2
      · rw [Function.update_of_ne heq] at hk
        exact hk
    · exact hdeleted (fun _ _ hk => hk) h

theorem mem_setStored {claims : List (ClaimKey × StoredClaim)} {key : ClaimKey}
    {stored : StoredClaim} {entry : ClaimKey × StoredClaim}
    (h : entry ∈ setStored claims key stored) : entry = (key, stored) ∨ entry ∈ claims := by
  rw [setStored] at h
  split at h
  · obtain ⟨old, hold, rfl⟩ := List.mem_map.mp h
    split
    · exact Or.inl rfl
    · exact Or.inr hold
  · rcases List.mem_append.mp h with hold | hnew
    · exact Or.inr hold
    · exact Or.inl (List.mem_singleton.mp hnew)

theorem mem_trimClaimResults {claims : List (ClaimKey × StoredClaim)}
    {entry : ClaimKey × StoredClaim} (h : entry ∈ trimClaimResults now claims) :
    entry ∈ claims := by
  unfold trimClaimResults at h
  have hfresh := List.mem_of_mem_drop h
  exact (List.mem_filter.mp hfresh).1

theorem remembered_settle {key : ClaimKey} {dispatch : Dispatch}
    (h : Remembered (s.settle now key) dispatch) : Remembered s dispatch := by
  rw [ClaimState.settle] at h
  split at h
  · rename_i requested result hrunning
    rcases remembered_setPhase h with hphase | hstored | hold
    · cases hphase
    · obtain ⟨entry, hentry, hresult⟩ := hstored
      dsimp only at hentry
      rcases mem_setStored (mem_trimClaimResults hentry) with rfl | hold
      · obtain rfl : result = some dispatch := hresult
        exact Or.inr (Or.inl ⟨key, requested, hrunning⟩)
      · exact Or.inl ⟨entry, hold, hresult⟩
    · exact Or.inr hold
  · exact h

theorem remembered_finish {key : ClaimKey} {dispatch : Dispatch}
    (h : Remembered (s.finish key) dispatch) : Remembered s dispatch := by
  have hforget : Remembered { s with
      inFlightClaims := Function.update s.inFlightClaims key none } dispatch →
      Remembered s dispatch := by
    rintro (hstored | ⟨k, requested, hk⟩ | hreplay)
    · exact Or.inl hstored
    · refine Or.inr (Or.inl ⟨k, requested, ?_⟩)
      change Function.update s.inFlightClaims key none k = _ at hk
      by_cases heq : k = key
      · rw [heq, Function.update_self] at hk
        cases hk
      · rw [Function.update_of_ne heq] at hk
        exact hk
    · exact Or.inr (Or.inr hreplay)
  rw [ClaimState.finish] at h
  split at h
  · exact hforget h
  · exact hforget h
  · exact h

theorem remembered_revalidate {i : Nat} {dispatch : Dispatch}
    (h : Remembered (s.revalidate i).2 dispatch) : Remembered s dispatch := by
  rw [ClaimState.revalidate] at h
  split at h
  · rcases h with hstored | hrunning | ⟨replay, hreplay, hsame⟩
    · exact Or.inl hstored
    · exact Or.inr (Or.inl hrunning)
    · exact Or.inr (Or.inr ⟨replay, List.mem_of_mem_eraseIdx hreplay, hsame⟩)
  · exact h

/-! The claims commit -/

/-- The result of a claim is live when it commits, and it is the last dispatch of its task then. -/
theorem transact_claimed {tokens : Nat → JsString} {requested : Option JsString}
    {outcome : ClaimOutcome}
    (h : s.transact env registry now tokens agentId requested = .ok (outcome, db')) :
    Claimed env agentId outcome s.db db' ∧ (CanonicalIds s.db → CanonicalIds db') := by
  rw [ClaimState.transact] at h
  split at h
  · obtain ⟨rfl, rfl⟩ := Prod.mk.inj (Except.ok.inj h)
    exact ⟨.nothing rfl (.of_tasks rfl), id⟩
  · refine ⟨claimInTransaction_claimed h, fun hids => ?_⟩
    have hmoves : Moves agentId True True s.db db' :=
      claimInTransaction_moves trivial h fun _ => trivial
    exact hmoves.invariant hids fun _ _ hids hmove => hmove.canonicalIds hids

theorem Current.dispatched {assignment : TaskAssignment} {dispatch : Dispatch}
    {outcome : ClaimOutcome} (hcurrent : Current env s dispatch)
    (hclaimed : Claimed env agentId outcome s.db db') (hresult : outcome.result = some assignment)
    (hdb : t.db = db') (hcount : t.dispatches = s.dispatches + 1)
    (hlast : t.lastDispatch =
      Function.update s.lastDispatch assignment.taskId (some s.dispatches)) :
    Current env t dispatch := by
  refine ⟨?_, ?_⟩
  · rw [hcount]
    exact hcurrent.1.trans (Nat.lt_succ_self _)
  · intro hlatest task hrow hstatus
    rw [hlast] at hlatest
    rw [hdb] at hrow
    by_cases heq : dispatch.assignment.taskId = assignment.taskId
    · -- a new dispatch of the same task has a later number
      rw [heq, Function.update_self] at hlatest
      exact absurd (Option.some.inj hlatest) hcurrent.1.ne'
    · rw [Function.update_of_ne heq] at hlatest
      rcases hclaimed.kept _ _ hrow hstatus with ⟨new, hnew, hid⟩ | ⟨old, hold, hdispatched, hlease⟩
      · obtain rfl : assignment = new := Option.some.inj (hresult.symm.trans hnew)
        exact absurd hid.symm heq
      · rw [← hlease]
        exact hcurrent.2 hlatest old hold hdispatched

theorem ClaimInvariant.commit (hinv : ClaimInvariant env s) (tokens : Nat → JsString)
    (key : ClaimKey) : ClaimInvariant env (s.commit env registry now tokens key).2 := by
  rw [ClaimState.commit]
  split
  case h_2 => exact hinv
  rename_i requested hrunning
  split
  · rename_i failure hfailure
    refine hinv.forget rfl rfl rfl fun dispatch h => ?_
    rcases remembered_setPhase h with hphase | hold
    · cases hphase
    · exact hold
  rename_i outcome db' hcommit
  obtain ⟨hclaimed, hids⟩ := transact_claimed hcommit
  split
  · rename_i hnone
    refine ⟨hids hinv.ids, fun dispatch h => ?_⟩
    rcases remembered_setPhase h with hphase | hold
    · cases hphase
    refine ⟨(hinv.current dispatch hold).1, fun hlatest task hrow hstatus => ?_⟩
    rcases hclaimed.kept _ _ hrow hstatus with ⟨new, hnew, -⟩ | ⟨old, hold', hdispatched, hlease⟩
    · rw [hnone] at hnew
      cases hnew
    · rw [← hlease]
      exact (hinv.current dispatch hold).2 hlatest old hold' hdispatched
  · rename_i assignment hresult
    refine ⟨hids hinv.ids, fun dispatch h => ?_⟩
    rcases remembered_setPhase h with hphase | hold
    · obtain rfl : (⟨assignment, s.dispatches⟩ : Dispatch) = dispatch :=
        Option.some.inj (ClaimPhase.committed.inj hphase)
      refine ⟨Nat.lt_succ_self _, fun _ task hrow _ => ?_⟩
      obtain ⟨row, -, hrow', -, -, -, -, hlease⟩ := hclaimed.live assignment hresult
      obtain rfl : row = task := Option.some.inj (hrow'.symm.trans hrow)
      exact hlease
    · exact Current.dispatched (hinv.current dispatch hold) hclaimed hresult rfl rfl rfl

theorem ClaimInvariant.perform (hinv : ClaimInvariant env s) {e : ClaimEvent}
    (hfeasible : e.Feasible env s) : ClaimInvariant env (e.perform env s).2 := by
  cases e with
  | call registry now key requested =>
      rw [ClaimEvent.perform]
      refine hinv.forget ?_ ?_ ?_ fun _ h => remembered_call h
      all_goals
        rw [ClaimState.call]
        split
        · split <;> rfl
        · dsimp only
          split
          · rfl
          · split <;> rfl
  | commit registry now tokens key => exact hinv.commit tokens key
  | settle now key =>
      rw [ClaimEvent.perform]
      refine hinv.forget ?_ ?_ ?_ fun _ h => remembered_settle h
      all_goals
        rw [ClaimState.settle]
        split
        · simp
        · rfl
  | finish key =>
      rw [ClaimEvent.perform]
      refine hinv.forget ?_ ?_ ?_ fun _ h => remembered_finish h
      all_goals
        rw [ClaimState.finish]
        split <;> rfl
  | revalidate i =>
      rw [ClaimEvent.perform]
      refine hinv.forget ?_ ?_ ?_ fun _ h => remembered_revalidate h
      all_goals
        rw [ClaimState.revalidate]
        split <;> rfl
  | database db =>
      have hstep : TaskStep env (fun _ op => ¬ Dispatches op) s.db db := hfeasible
      refine ⟨canonicalIds_of_step hinv.ids hstep, fun dispatch h => ?_⟩
      obtain ⟨hcount, hlease⟩ := hinv.current dispatch h
      refine ⟨hcount, fun hlatest task hrow hstatus => ?_⟩
      obtain ⟨old, hold, hdispatched, hsame⟩ :=
        dispatchKept_of_step hinv.ids hstep _ _ hrow hstatus
      rw [← hsame]
      exact hlease hlatest old hold hdispatched

theorem claimInvariant_of_reachable {allowed : ClaimState → ClaimEvent → Prop}
    (h : (claimRuns env allowed).Reachable s) : ClaimInvariant env s := by
  refine h.invariant ?_ ?_
  · rintro s ⟨hempty, hstored, hrunning, hreplays⟩
    refine ⟨fun taskId task hrow => ?_, fun dispatch hmem => ?_⟩
    · rw [hempty] at hrow
      cases hrow
    · rcases hmem with ⟨entry, hentry, -⟩ | ⟨key, requested, hkey⟩ | ⟨replay, hreplay, -⟩
      · rw [hstored] at hentry
        cases hentry
      · rw [hrunning] at hkey
        cases hkey
      · rw [hreplays] at hreplay
        cases hreplay
  · rintro s t - hinv ⟨e, hfeasible, -, rfl⟩
    exact hinv.perform hfeasible

theorem assignmentIsActive_eq_true (h : assignmentIsActive db agentId taskId = true) :
    ∃ task agent, db.tasks.row taskId = some task ∧ db.agents.row agentId = some agent ∧
      task.agentId = agentId ∧ task.status = .dispatched ∧ agent.activeTaskId = some taskId := by
  rw [assignmentIsActive] at h
  split at h
  · rename_i task hrow
    obtain ⟨hdispatched, hslot⟩ := Bool.and_eq_true_iff.mp h
    obtain ⟨howner, hstatus⟩ := of_decide_eq_true hdispatched
    obtain ⟨agent, hagent, hactive⟩ := (Option.any_eq_true _ _).mp hslot
    rw [howner] at hagent
    exact ⟨task, agent, hrow, hagent, howner, hstatus, of_decide_eq_true hactive⟩
  · cases h

theorem live_of_commit {tokens : Nat → JsString} {key : ClaimKey} {handOut : HandOut}
    (h : (s.commit env registry now tokens key).1 = some handOut) :
    Live env (s.commit env registry now tokens key).2.db handOut := by
  unfold ClaimState.commit at h ⊢
  split at h
  case h_2 => cases h
  rename_i requested hrunning
  split at h
  case h_1 => cases h
  rename_i outcome db' hcommit
  split at h
  case h_1 => cases h
  rename_i assignment hresult
  obtain rfl := Option.some.inj h
  rw [ClaimState.setPhase_db]
  exact (transact_claimed hcommit).1.live assignment hresult

/-- In every run in which a stored assignment is asked for again only while its dispatch is the
last one of its task, every assignment that a claim returns is live. -/
theorem live_of_handedOut
    (h : (claimRuns env ClaimEvent.Latest).Reachable s) {e : ClaimEvent}
    (hfeasible : e.Feasible env s) (hlatest : e.Latest s) {handOut : HandOut}
    (hreturn : (e.perform env s).1 = some handOut) :
    Live env (e.perform env s).2.db handOut := by
  have hinv := claimInvariant_of_reachable h
  cases e with
  | call registry now key requested => cases hreturn
  | settle now key => cases hreturn
  | finish key => cases hreturn
  | database db => cases hreturn
  | commit registry now tokens key => exact live_of_commit hreturn
  | revalidate i =>
      rw [ClaimEvent.perform, ClaimState.revalidate] at hreturn ⊢
      split at hreturn
      case h_2 => cases hreturn
      rename_i replay hreplay
      dsimp only at hreturn
      split at hreturn
      case isFalse => cases hreturn
      rename_i hactive
      obtain rfl := Option.some.inj hreturn
      obtain ⟨task, agent, hrow, hagent, howner, hstatus, hslot⟩ := assignmentIsActive_eq_true hactive
      have hstored : Remembered s replay.dispatch :=
        Or.inr (Or.inr ⟨replay, List.mem_of_getElem? hreplay, rfl⟩)
      have hlease := (hinv.current _ hstored).2 (hlatest replay hreplay) task hrow hstatus
      exact ⟨task, agent, hrow, hagent, howner, hstatus, hslot, hlease⟩

/-! A claim whose answer is asked for twice -/

/-- The server of `SlotSystem` after some steps, with one task in the queue at first. -/
def demoClaims (events : List ClaimEvent) : ClaimState :=
  events.foldl (fun s e => (e.perform SlotSystem.demoEnvironment s).2)
    ⟨StatusHistory.demoRun [StatusHistory.demoCreate], [], fun _ => none, [], 0, fun _ => none⟩

def demoKey (messageId : String) : ClaimKey :=
  (SlotSystem.demoAgentId, JsString.ofString messageId)

def demoCall (messageId : String) : ClaimEvent :=
  .call SlotSystem.demoRegistry 0 (demoKey messageId) none

def demoCommit (messageId leaseToken : String) : ClaimEvent :=
  .commit SlotSystem.demoRegistry 0 (fun _ => JsString.ofString leaseToken) (demoKey messageId)

def demoAnswered : List ClaimEvent :=
  [demoCall "m1", demoCommit "m1" "lease-1", .settle 0 (demoKey "m1"), .finish (demoKey "m1")]

/-- The task goes back to the queue, as its agent has not confirmed it. -/
def demoReclaimed : Db :=
  TaskOperation.run SlotSystem.demoEnvironment (demoClaims demoAnswered).db
    (.reclaimDispatch SlotSystem.demoRegistry 31000 SlotSystem.demoAgentId SlotSystem.demoTaskId)

theorem reachable_demoAnswered (allowed : ClaimState → ClaimEvent → Prop)
    (hallowed : ∀ s e, (∀ i, e ≠ .revalidate i) → allowed s e) :
    (claimRuns SlotSystem.demoEnvironment allowed).Reachable (demoClaims demoAnswered) := by
  have hinit : (claimRuns SlotSystem.demoEnvironment allowed).Reachable
      ⟨SlotSystem.demoDb, [], fun _ => none, [], 0, fun _ => none⟩ :=
    .init ⟨fun _ => rfl, rfl, fun _ => rfl, rfl⟩
  have hstep : ∀ {s : ClaimState} (e : ClaimEvent),
      (claimRuns SlotSystem.demoEnvironment allowed).Reachable s →
      e.Feasible SlotSystem.demoEnvironment s → (∀ i, e ≠ .revalidate i) →
      (claimRuns SlotSystem.demoEnvironment allowed).Reachable
        (e.perform SlotSystem.demoEnvironment s).2 :=
    fun _ hs hfeasible he => hs.step ⟨_, hfeasible, hallowed _ _ he, rfl⟩
  have hcreate : TaskStep SlotSystem.demoEnvironment (fun _ op => ¬ Dispatches op)
      SlotSystem.demoDb (StatusHistory.demoRun [StatusHistory.demoCreate]) := by
    refine .operation StatusHistory.demoCreate ?_ (fun h => h)
    show ValidationPrimitives.asciiLower SlotSystem.demoTaskId = SlotSystem.demoTaskId
    decide +kernel
  have hqueued := hstep (.database _) hinit hcreate (fun _ => ClaimEvent.noConfusion)
  have hcalled := hstep (demoCall "m1") hqueued trivial (fun _ => ClaimEvent.noConfusion)
  have hcommitted := hstep (demoCommit "m1" "lease-1") hcalled trivial
    (fun _ => ClaimEvent.noConfusion)
  have hsettled := hstep (.settle 0 (demoKey "m1")) hcommitted trivial
    (fun _ => ClaimEvent.noConfusion)
  exact hstep (.finish (demoKey "m1")) hsettled trivial (fun _ => ClaimEvent.noConfusion)

/-- The agent asks again for an answer that it has. -/
def demoAsked : ClaimState := demoClaims (demoAnswered ++ [demoCall "m1"])

/-- The answer is returned a second time, and it is live. -/
theorem live_replayed :
    ∃ handOut, ((ClaimEvent.revalidate 0).perform SlotSystem.demoEnvironment demoAsked).1 =
        some handOut ∧
      handOut.assignment.leaseToken = JsString.ofString "lease-1" ∧
      Live SlotSystem.demoEnvironment
        ((ClaimEvent.revalidate 0).perform SlotSystem.demoEnvironment demoAsked).2.db handOut := by
  have hreachable : (claimRuns SlotSystem.demoEnvironment ClaimEvent.Latest).Reachable
      demoAsked := by
    have hanswered := reachable_demoAnswered ClaimEvent.Latest (fun s e he => by
      cases e with
      | revalidate i => exact absurd rfl (he i)
      | _ => trivial)
    exact hanswered.step ⟨demoCall "m1", trivial, trivial, rfl⟩
  have hlatest : (ClaimEvent.revalidate 0).Latest demoAsked := by
    have hnumbers : (demoAsked.replays[0]?).map
        (fun replay => decide (demoAsked.lastDispatch
          replay.dispatch.assignment.taskId = some replay.dispatch.number)) = some true := by
      decide +kernel
    intro replay hreplay
    rw [hreplay] at hnumbers
    exact of_decide_eq_true (Option.some.inj hnumbers)
  have htoken : ((ClaimEvent.revalidate 0).perform SlotSystem.demoEnvironment
      demoAsked).1.map
        (fun handOut => handOut.assignment.leaseToken) = some (JsString.ofString "lease-1") := by
    decide +kernel
  have hfeasible : (ClaimEvent.revalidate 0).Feasible SlotSystem.demoEnvironment
      demoAsked := trivial
  obtain ⟨handOut, hreturn, htoken⟩ := Option.map_eq_some_iff.mp htoken
  exact ⟨handOut, hreturn, htoken, live_of_handedOut hreachable hfeasible hlatest hreturn⟩

/-- The task is dispatched again under a new lease, and the old answer is still returned. -/
theorem replayed_not_live :
    ∃ s, (claimRuns SlotSystem.demoEnvironment (fun _ _ => True)).Reachable s ∧
      ∃ handOut, ((ClaimEvent.revalidate 0).perform SlotSystem.demoEnvironment s).1 =
          some handOut ∧
        ¬ Live SlotSystem.demoEnvironment
          ((ClaimEvent.revalidate 0).perform SlotSystem.demoEnvironment s).2.db handOut := by
  let events := demoAnswered ++ [.database demoReclaimed, demoCall "m2",
    demoCommit "m2" "lease-2", demoCall "m1"]
  refine ⟨demoClaims events, ?_, ?_⟩
  · have hanswered := reachable_demoAnswered (fun _ _ => True) (fun _ _ _ => trivial)
    have hreclaim : TaskStep SlotSystem.demoEnvironment (fun _ op => ¬ Dispatches op)
        (demoClaims demoAnswered).db demoReclaimed := by
      refine .operation _ ?_ (fun h => h)
      have howner : ((demoClaims demoAnswered).db.tasks.row SlotSystem.demoTaskId).map
          BuildTask.agentId = some SlotSystem.demoAgentId := by decide +kernel
      exact Option.map_eq_some_iff.mp howner
    have hreclaimed := hanswered.step ⟨.database demoReclaimed, hreclaim, trivial, rfl⟩
    have hcalled := hreclaimed.step ⟨demoCall "m2", trivial, trivial, rfl⟩
    have hcommitted := hcalled.step ⟨demoCommit "m2" "lease-2", trivial, trivial, rfl⟩
    exact hcommitted.step ⟨demoCall "m1", trivial, trivial, rfl⟩
  · have hreturn : ((ClaimEvent.revalidate 0).perform SlotSystem.demoEnvironment
        (demoClaims events)).1.map
          (fun handOut => (handOut.assignment.taskId, handOut.assignment.leaseToken)) =
        some (SlotSystem.demoTaskId, JsString.ofString "lease-1") := by
      decide +kernel
    have hhash : (((ClaimEvent.revalidate 0).perform SlotSystem.demoEnvironment
        (demoClaims events)).2.db.tasks.row SlotSystem.demoTaskId).map BuildTask.leaseHash =
        some (some (JsString.ofString "hash of lease-2")) := by
      decide +kernel
    obtain ⟨handOut, hreturn, hfields⟩ := Option.map_eq_some_iff.mp hreturn
    obtain ⟨hid, htoken⟩ := Prod.mk.inj hfields
    refine ⟨handOut, hreturn, ?_⟩
    rintro ⟨task, agent, hrow, -, -, -, -, hlease⟩
    rw [hid] at hrow
    rw [hrow, Option.map_some, hlease, htoken] at hhash
    exact absurd (Option.some.inj (Option.some.inj hhash)) (by decide)

end AnvilRun.ClaimCache
