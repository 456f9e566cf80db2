import AnvilRun.SlotPointer
import AnvilRun.StatusHistory

namespace AnvilRun.ConnectionEndings

open AnvilRun.AgentGateway
open AnvilRun.AgentRegistry
open AnvilRun.TaskDatabase
open AnvilRun.TaskOperations
open AnvilRun.TaskQueue
open AnvilRun.TaskRuns

/-- Sockets are numbered in the order in which they are accepted. -/
abbrev Socket := Nat

/-- The entry of the agent in `AgentConnectionRegistry`. -/
structure RegisteredConnection where
  socket : Socket
  ready : Bool
  capabilities : List JsString
  deriving DecidableEq

/-- What a running `handleHello` does next. -/
inductive HelloPhase where
  | reconcile
  | update (decision : Option AgentRecoveryDecision)
  | onAgentReady

structure HelloRun where
  socket : Socket
  currentTask : Option AgentCurrentTask
  capabilities : List JsString
  phase : HelloPhase

/-- What the running end of a connection does next. -/
inductive Ending where
  | markOffline
  | listTasks
  | disconnectTasks (taskIds : List Id)
  deriving DecidableEq

/-- The gateway as one agent sees it: the entry in the registry, the sockets that have a state,
and the handlers that wait for the database. The last field has no counterpart in the code. It
records whether an ending has harmed the registered connection since its hello. -/
structure GatewayState where
  db : Db
  accepted : Nat
  current : Option RegisteredConnection
  states : List Socket
  hellos : List HelloRun
  endings : List Ending
  harmed : Prop

/-- The statuses that `onAgentDisconnected` looks for. -/
def disconnectedStatuses : List BuildTaskStatus :=
  [.queued, .dispatched, .preparing, .running, .uploading, .canceling]

/-- The tasks that `onAgentDisconnected` looks at, the oldest first. -/
def disconnectedTasks (db : Db) (agentId : Id) : List Id :=
  ((db.tasks.entries.filter (fun entry =>
    decide (entry.2.agentId = agentId) && disconnectedStatuses.contains entry.2.status)).mergeSort
      createdBefore).map Prod.fst

/-- The agent is set to offline, or a task of it is moved away from it. -/
def Harm (agentId : Id) (db db' : Db) : Prop :=
  (∃ agent agent', db.agents.row agentId = some agent ∧ db'.agents.row agentId = some agent' ∧
    agent.status ≠ .offline ∧ agent'.status = .offline) ∨
  ∃ taskId task task', db.tasks.row taskId = some task ∧ db'.tasks.row taskId = some task' ∧
    task.agentId = agentId ∧ task'.status ≠ task.status ∧
    (task'.status = .agentLost ∨ task'.status = .waitingAgent)

namespace GatewayState

/-- `isReady`, for a socket that is open. -/
def isReady (s : GatewayState) : Bool :=
  s.current.any RegisteredConnection.ready

def registry (s : GatewayState) (agentId : Id) : Registry :=
  fun id => if id = agentId then s.current.map (fun c => ⟨c.ready, true, c.capabilities⟩) else none

/-- `accept`. -/
def accept (s : GatewayState) : GatewayState :=
  { s with
    accepted := s.accepted + 1
    current := some ⟨s.accepted, false, []⟩
    states := s.accepted :: (match s.current with
      | some previous => s.states.erase previous.socket
      | none => s.states)
    harmed := False }

/-- The entry is removed, and the state of its socket if it is the given one. -/
def unregister (s : GatewayState) (socket : Socket) : GatewayState :=
  { s with
    current := if s.current.any (fun c => c.socket == socket) then none else s.current
    states := s.states.erase socket }

/-- `handleClose`, and `rejectConnection`: an ending starts if the socket was registered. -/
def handleClose (s : GatewayState) (socket : Socket) : GatewayState :=
  if s.current.any (fun c => c.socket == socket) then
    { s.unregister socket with endings := s.endings ++ [.markOffline] }
  else s.unregister socket

/-- The part of `sweep` for one socket whose heartbeat is late. It has a state, but whether it is
still registered is not looked at. -/
def sweep (s : GatewayState) (socket : Socket) : GatewayState :=
  if s.states.contains socket then
    { s.unregister socket with endings := s.endings ++ [.markOffline] }
  else s

/-- `revokeConnection`. -/
def revokeConnection (s : GatewayState) (markOffline : Bool) : GatewayState :=
  let ending := if markOffline then Ending.markOffline else .listTasks
  match s.current with
  | some c => { s.unregister c.socket with endings := s.endings ++ [ending] }
  | none => { s with endings := s.endings ++ [ending] }

/-- `disconnect` of the registry in front of `onAgentDisconnected`, after a cancellation timed
out. -/
def disconnect (s : GatewayState) : GatewayState :=
  { s with current := none, endings := s.endings ++ [.listTasks] }

/-- The start of `handleHello`, up to its transaction. -/
def handleHello (s : GatewayState) (agentId : Id) (socket : Socket)
    (currentTask : Option AgentCurrentTask) (capabilities : List JsString) : GatewayState :=
  if s.states.contains socket then
    if (s.db.agents.row agentId).any Agent.enabled then
      { s with hellos := s.hellos ++ [⟨socket, currentTask, capabilities, .reconcile⟩] }
    else s.handleClose socket
  else s

/-- `markReady`. -/
def markReady (s : GatewayState) (socket : Socket) (capabilities : List JsString) : GatewayState :=
  { s with
    current := s.current.map (fun c =>
      if c.socket = socket then { c with ready := true, capabilities := capabilities } else c) }

/-- The next part of a running `handleHello`. -/
def continueHello (s : GatewayState) (env : Environment) (now : Time)
    (durableLog : Id → Except Failure LogFileState) (agentId : Id) (i : Nat) : GatewayState :=
  match s.hellos[i]? with
  | none => s
  | some run =>
      let rest := { s with hellos := s.hellos.eraseIdx i }
      match run.phase with
      | .reconcile =>
          match reconcileAgentHello env now durableLog s.db agentId run.currentTask
              run.capabilities with
          | .error _ => rest
          | .ok (outcome, db) =>
              { s with db := db, hellos := s.hellos.set i { run with phase := .update outcome.decision } }
      | .update decision =>
          if (s.db.agents.row agentId).any Agent.enabled then
            { s with
              db := updateEnabledAgent s.db agentId (recordHello decision)
              hellos := s.hellos.set i { run with phase := .onAgentReady } }.markReady run.socket
                run.capabilities
          else rest.handleClose run.socket
      | .onAgentReady =>
          { rest with
            db := TaskOperation.run env s.db (.onAgentReady (s.registry agentId) now agentId) }

/-- The next part of a running end. The listed tasks follow one by one. -/
def continueEnding (s : GatewayState) (env : Environment) (now : Time) (agentId : Id) (i : Nat) :
    GatewayState :=
  let goOn := fun (taskIds : List Id) =>
    if taskIds.isEmpty then s.endings.eraseIdx i else s.endings.set i (.disconnectTasks taskIds)
  let write := fun (db : Db) (endings : List Ending) =>
    { s with
      db := db
      endings := endings
      harmed := s.harmed ∨ (s.isReady = true ∧ Harm agentId s.db db) }
  match s.endings[i]? with
  | none => s
  | some .markOffline => write (markOffline s.db agentId) (s.endings.set i .listTasks)
  | some .listTasks => { s with endings := goOn (disconnectedTasks s.db agentId) }
  | some (.disconnectTasks []) => { s with endings := goOn [] }
  | some (.disconnectTasks (taskId :: rest)) =>
      write (TaskOperation.run env s.db (.disconnectTask now agentId taskId)) (goOn rest)

end GatewayState

/-- The steps of the gateway, and those of everything else that writes to the database. -/
inductive GatewayEvent where
  | accept
  | close (socket : Socket)
  | sweep (socket : Socket)
  | revoke (markOffline : Bool)
  | disconnect
  | forget (socket : Socket)
  | hello (socket : Socket) (currentTask : Option AgentCurrentTask) (capabilities : List JsString)
  | continueHello (now : Time) (durableLog : Id → Except Failure LogFileState) (i : Nat)
  | continueEnding (now : Time) (i : Nat)
  | database (db : Db)

namespace GatewayEvent

def perform (env : Environment) (agentId : Id) (s : GatewayState) : GatewayEvent → GatewayState
  | accept => s.accept
  | close socket => s.handleClose socket
  | sweep socket => s.sweep socket
  | revoke markOffline => s.revokeConnection markOffline
  | disconnect => s.disconnect
  | forget socket => s.unregister socket
  | hello socket currentTask capabilities => s.handleHello agentId socket currentTask capabilities
  | continueHello now durableLog i => s.continueHello env now durableLog agentId i
  | continueEnding now i => s.continueEnding env now agentId i
  | database db => { s with db := db }

def Feasible (env : Environment) (s : GatewayState) : GatewayEvent → Prop
  | database db => TaskStep env anyOperation s.db db
  | _ => True

/-- A connection becomes ready only when all endings of earlier ones are over, and next to one that
is ready a sweep ends no other. -/
def Undisturbed (agentId : Id) (s : GatewayState) : GatewayEvent → Prop
  | continueHello _ _ i => ∀ run decision, s.hellos[i]? = some run → run.phase = .update decision →
      (s.db.agents.row agentId).any Agent.enabled = true →
      s.current.any (fun c => c.socket == run.socket) = true → s.endings = []
  | sweep socket => s.isReady = true → s.current.any (fun c => c.socket == socket) = true
  | _ => True

end GatewayEvent

/-- The gateway from its start on, with any database. -/
def gatewayRuns (env : Environment) (agentId : Id)
    (allowed : GatewayState → GatewayEvent → Prop) : TransitionSystem GatewayState where
  init := fun s => s.accepted = 0 ∧ s.current = none ∧ s.states = [] ∧ s.hellos = [] ∧
    s.endings = [] ∧ ¬ s.harmed
  step := fun s t => ∃ e : GatewayEvent, e.Feasible env s ∧ allowed s e ∧ t = e.perform env agentId s

variable {env : Environment} {agentId : Id} {s : GatewayState}

/-- Next to a connection that is ready no ending runs, and none has harmed it. -/
structure Calm (s : GatewayState) : Prop where
  endings : s.isReady = true → s.endings = []
  unharmed : s.current.isSome = true → ¬ s.harmed

theorem Calm.of_none (h : s.current = none) : Calm s where
  endings := by
    intro hready
    rw [GatewayState.isReady, h] at hready
    cases hready
  unharmed := by
    intro hsome
    rw [h] at hsome
    cases hsome

theorem current_unregister (s : GatewayState) (socket : Socket) :
    (s.unregister socket).current = none ∨ (s.unregister socket).current = s.current ∧
      s.current.any (fun c => c.socket == socket) = false := by
  rw [GatewayState.unregister]
  dsimp only
  split
  · exact Or.inl rfl
  · rename_i hother
    exact Or.inr ⟨rfl, Bool.eq_false_of_not_eq_true hother⟩

/-- Only a connection that is not ready, or the registered one, ends calmly. -/
theorem Calm.end (hcalm : Calm s) {socket : Socket}
    (h : s.isReady = true → s.current.any (fun c => c.socket == socket) = true)
    (endings : List Ending) : Calm { s.unregister socket with endings := endings } := by
  rcases current_unregister s socket with hnone | ⟨hsame, hother⟩
  · exact .of_none hnone
  · constructor
    · intro hready
      have hold : s.isReady = true := by
        rw [GatewayState.isReady, ← hsame]
        exact hready
      rw [h hold] at hother
      cases hother
    · intro hsome
      apply hcalm.unharmed
      rw [← hsame]
      exact hsome

theorem Calm.unregister (hcalm : Calm s) (socket : Socket) : Calm (s.unregister socket) := by
  rcases current_unregister s socket with hnone | ⟨hsame, -⟩
  · exact .of_none hnone
  · constructor
    · intro hready
      apply hcalm.endings
      rw [GatewayState.isReady, ← hsame]
      exact hready
    · intro hsome
      apply hcalm.unharmed
      rw [← hsame]
      exact hsome

theorem Calm.handleClose (hcalm : Calm s) (socket : Socket) : Calm (s.handleClose socket) := by
  rw [GatewayState.handleClose]
  split
  · rename_i hregistered
    exact hcalm.end (fun _ => hregistered) _
  · exact hcalm.unregister socket

theorem Calm.revokeConnection (hcalm : Calm s) (markOffline : Bool) :
    Calm (s.revokeConnection markOffline) := by
  rw [GatewayState.revokeConnection]
  split
  · rename_i c hcurrent
    refine hcalm.end (fun _ => ?_) _
    rw [hcurrent]
    exact beq_self_eq_true c.socket
  · rename_i hnone
    exact .of_none hnone

theorem Calm.handleHello (hcalm : Calm s) (socket : Socket)
    (currentTask : Option AgentCurrentTask) (capabilities : List JsString) :
    Calm (s.handleHello agentId socket currentTask capabilities) := by
  rw [GatewayState.handleHello]
  split
  · split
    · exact ⟨hcalm.endings, hcalm.unharmed⟩
    · exact hcalm.handleClose socket
  · exact hcalm

theorem isReady_markReady {socket : Socket} {capabilities : List JsString}
    (h : (s.markReady socket capabilities).isReady = true) :
    s.isReady = true ∨ s.current.any (fun c => c.socket == socket) = true := by
  rw [GatewayState.isReady, GatewayState.markReady] at h
  rw [GatewayState.isReady]
  cases hcurrent : s.current with
  | none =>
      rw [hcurrent] at h
      cases h
  | some c =>
      rw [hcurrent] at h
      dsimp only [Option.map_some, Option.any_some] at h
      split at h
      · rename_i hsocket
        exact Or.inr (beq_iff_eq.mpr hsocket)
      · exact Or.inl h

/-- A hello completes only while no ending runs. -/
theorem Calm.markReady (hcalm : Calm s) {socket : Socket} {capabilities : List JsString}
    (h : s.current.any (fun c => c.socket == socket) = true → s.endings = []) :
    Calm (s.markReady socket capabilities) where
  endings := by
    intro hready
    rcases isReady_markReady hready with hold | hregistered
    · exact hcalm.endings hold
    · exact h hregistered
  unharmed := by
    intro hsome
    apply hcalm.unharmed
    cases hcurrent : s.current with
    | none =>
        rw [GatewayState.markReady, hcurrent] at hsome
        exact hsome
    | some c => rfl

theorem Calm.continueHello {now : Time} {durableLog : Id → Except Failure LogFileState} {i : Nat}
    (hcalm : Calm s)
    (h : GatewayEvent.Undisturbed agentId s (.continueHello now durableLog i)) :
    Calm (s.continueHello env now durableLog agentId i) := by
  have hsame : ∀ (db : Db) (hellos : List HelloRun), Calm { s with db := db, hellos := hellos } :=
    fun _ _ => ⟨hcalm.endings, hcalm.unharmed⟩
  rw [GatewayState.continueHello]
  split
  · exact hcalm
  rename_i run hrun
  dsimp only
  split
  · split
    · exact hsame _ _
    · exact hsame _ _
  · rename_i decision hphase
    split
    · rename_i henabled
      exact (hsame _ _).markReady (h run decision hrun hphase henabled)
    · exact (hsame _ _).handleClose run.socket
  · exact hsame _ _

/-- An ending has nothing to do while the connection is ready. -/
theorem Calm.continueEnding {now : Time} {i : Nat} (hcalm : Calm s) :
    Calm (s.continueEnding env now agentId i) := by
  by_cases hready : s.isReady = true
  · rw [GatewayState.continueEnding, hcalm.endings hready]
    exact hcalm
  · have hwrite : ∀ (db : Db) (endings : List Ending), Calm { s with
        db := db, endings := endings,
        harmed := s.harmed ∨ (s.isReady = true ∧ Harm agentId s.db db) } := by
      intro db endings
      constructor
      · exact fun h => absurd h hready
      · rintro hsome (hold | ⟨hnow, -⟩)
        · exact hcalm.unharmed hsome hold
        · exact hready hnow
    have hkeep : ∀ endings : List Ending, Calm { s with endings := endings } :=
      fun _ => ⟨fun h => absurd h hready, hcalm.unharmed⟩
    rw [GatewayState.continueEnding]
    dsimp only
    split
    · exact hcalm
    · exact hwrite _ _
    · exact hkeep _
    · exact hkeep _
    · exact hwrite _ _

theorem Calm.perform (hcalm : Calm s) {e : GatewayEvent} (h : e.Undisturbed agentId s) :
    Calm (e.perform env agentId s) := by
  cases e with
  | accept =>
      constructor
      · intro hready
        cases hready
      · intro _ hharmed
        exact hharmed
  | close socket => exact hcalm.handleClose socket
  | sweep socket =>
      rw [GatewayEvent.perform, GatewayState.sweep]
      split
      · exact hcalm.end h _
      · exact hcalm
  | revoke markOffline => exact hcalm.revokeConnection markOffline
  | disconnect => exact .of_none rfl
  | forget socket => exact hcalm.unregister socket
  | hello socket currentTask capabilities => exact hcalm.handleHello socket currentTask capabilities
  | continueHello now durableLog i => exact hcalm.continueHello h
  | continueEnding now i => exact hcalm.continueEnding
  | database db => exact ⟨hcalm.endings, hcalm.unharmed⟩

theorem not_harm_self (agentId : Id) (db : Db) : ¬ Harm agentId db db := by
  rintro (⟨agent, agent', hagent, hagent', hold, hnew⟩ | ⟨k, task, task', hrow, hrow', -, hne, -⟩)
  · obtain rfl : agent = agent' := Option.some.inj (hagent.symm.trans hagent')
    exact hold hnew
  · obtain rfl : task = task' := Option.some.inj (hrow.symm.trans hrow')
    exact hne rfl

theorem harmed_continueEnding {now : Time} {i : Nat} (hready : s.isReady = true)
    (h : Harm agentId s.db (s.continueEnding env now agentId i).db) :
    (s.continueEnding env now agentId i).harmed := by
  rw [GatewayState.continueEnding] at h ⊢
  dsimp only at h ⊢
  split at h
  · exact absurd h (not_harm_self agentId s.db)
  · exact Or.inr ⟨hready, h⟩
  · exact absurd h (not_harm_self agentId s.db)
  · exact absurd h (not_harm_self agentId s.db)
  · exact Or.inr ⟨hready, h⟩

/-- The gateway of the server of `SlotSystem`, with one task in the queue, after some events. -/
def demoGateway (events : List GatewayEvent) : GatewayState :=
  events.foldl (fun s e => e.perform SlotSystem.demoEnvironment SlotSystem.demoAgentId s)
    ⟨StatusHistory.demoRun [StatusHistory.demoCreate], 0, none, [], [], [], False⟩

def demoContinue : GatewayEvent := .continueHello 0 (fun _ => .error .database) 0

/-- A connection whose hello is complete. -/
def demoConnected : List GatewayEvent :=
  [.accept, .hello 0 none [], demoContinue, demoContinue, demoContinue]

/-- The connection closes, and the next one says hello before the ending goes on. -/
def demoReconnected : List GatewayEvent :=
  demoConnected ++
    [.close 0, .accept, .hello 1 none [], demoContinue, demoContinue, demoContinue,
      .continueEnding 0 0, .continueEnding 0 0]

theorem reachable_start (allowed : GatewayState → GatewayEvent → Prop) :
    (gatewayRuns SlotSystem.demoEnvironment SlotSystem.demoAgentId allowed).Reachable
      (demoGateway []) :=
  .init ⟨rfl, rfl, rfl, rfl, rfl, fun h => h⟩

theorem reachable_event {allowed : GatewayState → GatewayEvent → Prop} {events : List GatewayEvent}
    (h : (gatewayRuns SlotSystem.demoEnvironment SlotSystem.demoAgentId allowed).Reachable
      (demoGateway events)) (e : GatewayEvent)
    (hfeasible : e.Feasible SlotSystem.demoEnvironment (demoGateway events))
    (hallowed : allowed (demoGateway events) e) :
    (gatewayRuns SlotSystem.demoEnvironment SlotSystem.demoAgentId allowed).Reachable
      (demoGateway (events ++ [e])) := by
  refine h.step ⟨e, hfeasible, hallowed, ?_⟩
  rw [demoGateway, demoGateway, List.foldl_append]
  rfl

/-- Any events of the gateway alone lead to a reachable state. -/
theorem reachable_demoGateway (events : List GatewayEvent)
    (h : ∀ e ∈ events, ∀ s, e.Feasible SlotSystem.demoEnvironment s) :
    (gatewayRuns SlotSystem.demoEnvironment SlotSystem.demoAgentId (fun _ _ => True)).Reachable
      (demoGateway events) := by
  induction events using List.reverseRecOn with
  | nil => exact reachable_start _
  | append_singleton events e ih =>
      refine reachable_event (ih fun e he => ?_) e (h e (by simp) _) trivial
      exact h e (List.mem_append_left _ he)

end AnvilRun.ConnectionEndings
