import AnvilRun.QueueEffects
import AnvilRun.StatusHistory

namespace AnvilRun.WakeUps

open AnvilRun.AgentRegistry
open AnvilRun.ExecutionSlot
open AnvilRun.Fallible
open AnvilRun.QueueEffects
open AnvilRun.TaskDatabase
open AnvilRun.TaskMoves
open AnvilRun.TaskOperations
open AnvilRun.TaskQueue
open AnvilRun.TasksService
open AnvilRun.ValidationPrimitives

/-- Sockets are numbered in the order in which they are accepted. -/
abbrev Socket := Nat

/-- A call that waits, with what it does next: `createTask` behind its check whether the agent is
ready, `handleHello` behind its updates, `onAgentReady`, and the three parts of
`notifyAvailable`. -/
inductive Pending where
  | create (request : CreateTaskRequest) (ready : Bool)
  | markReady (agentId : Id) (socket : Socket) (capabilities : List JsString)
  | onAgentReady (agentId : Id)
  | notifyAvailable (agentId : Id)
  | countQueued (agentId : Id)
  | sendAvailable (agentId : Id) (count : Nat)

/-- The agent that is about to be woken. -/
def Pending.agent : Pending → Option Id
  | create _ _ => none
  | markReady agentId _ _ | onAgentReady agentId | notifyAvailable agentId | countQueued agentId
  | sendAvailable agentId _ => some agentId

/-- The server with its connections and its calls. The last field has no counterpart in the code:
whether a `task.available` has been sent since the task entered the queue and the slot of its
agent became free. -/
structure WakeState where
  db : Db
  accepted : Nat
  connections : Id → Option (Socket × Connection)
  pending : List Pending
  announced : Id → Prop

namespace WakeState

def registry (s : WakeState) : Registry :=
  fun agentId => (s.connections agentId).map Prod.snd

/-- A task that enters the queue, or whose agent gets a free slot, has to be announced again. -/
def write (s : WakeState) (db : Db) (pending : List Pending) : WakeState :=
  { s with
    db := db
    pending := pending
    announced := fun taskId => s.announced taskId ∧ ∃ agentId, Queued s.db agentId taskId ∧
      (activeTask db agentId = none → activeTask s.db agentId = none) }

/-- The check of `createTask` whether the agent of the project is ready. -/
def isReadyFor (s : WakeState) (request : CreateTaskRequest) : Bool :=
  match s.db.projects.row request.projectId with
  | some project =>
      match s.db.templates.row project.buildTemplateId with
      | some template => s.registry.isReady template.agentId
      | none => false
  | none => false

def markReady (s : WakeState) (agentId : Id) (socket : Socket) (capabilities : List JsString) :
    Id → Option (Socket × Connection) :=
  match s.connections agentId with
  | some (current, connection) =>
      if current = socket then
        Function.update s.connections agentId
          (some (current, { connection with ready := true, capabilities := capabilities }))
      else s.connections
  | none => s.connections

/-- The next part of a call. -/
def continueCall (s : WakeState) (env : Environment) (now : Time) (i : Nat) : WakeState :=
  let rest := s.pending.eraseIdx i
  match s.pending[i]? with
  | none => s
  | some (.create request ready) =>
      match createTask env (fun _ => some ⟨ready, true, []⟩) now s.db request with
      | .ok (created, db) =>
          s.write db (rest ++
            ((db.tasks.row created).map (fun task => .notifyAvailable task.agentId)).toList)
      | .error _ => { s with pending := rest }
  | some (.markReady agentId socket capabilities) =>
      { s with
        connections := s.markReady agentId socket capabilities
        pending := s.pending.set i (.onAgentReady agentId) }
  | some (.onAgentReady agentId) =>
      match TaskQueue.onAgentReady s.registry now s.db agentId with
      | .ok (true, db) => s.write db (s.pending.set i (.notifyAvailable agentId))
      | .ok (false, db) => s.write db rest
      | .error _ => { s with pending := rest }
  | some (.notifyAvailable agentId) =>
      { s with
        pending := if s.registry.isReady agentId then s.pending.set i (.countQueued agentId)
          else rest }
  | some (.countQueued agentId) =>
      let count := (tasksInStatus s.db agentId .queued).length
      { s with
        pending := if count = 0 then rest else s.pending.set i (.sendAvailable agentId count) }
  | some (.sendAvailable agentId _) =>
      { s with
        pending := rest
        announced := fun taskId => s.announced taskId ∨
          (s.registry.isReady agentId = true ∧ Queued s.db agentId taskId) }

end WakeState

/-- What is called after the transaction of an operation. -/
def followUps (env : Environment) (db : Db) : TaskOperation → List Pending
  | .claim registry now tokens agentId requested =>
      match claimInTransaction env registry now tokens db agentId requested with
      | .ok (outcome, _) => if outcome.shouldNotify then [.notifyAvailable agentId] else []
      | .error _ => []
  | .reportPreparationFailure now agentId message =>
      match reportPreparationFailure env now db agentId message with
      | .ok _ => [.onAgentReady agentId]
      | .error _ => []
  | .reportTaskCanceled now agentId message =>
      match reportTaskCanceled env now db agentId message with
      | .ok _ => [.onAgentReady agentId]
      | .error _ => []
  | .completeTask now agentId message =>
      match ArtifactsService.completeTask env now db agentId message with
      | .ok _ => [.onAgentReady agentId]
      | .error _ => []
  | .failRejectedCompletion now agentId message =>
      match failRejectedCompletion env now db agentId message with
      | .ok (true, _) => [.onAgentReady agentId]
      | _ => []
  | .reclaimDispatch registry now agentId taskId =>
      match reclaimDispatch registry now db agentId taskId with
      | .ok (some .queued, _) => [.notifyAvailable agentId]
      | _ => []
  | .reclaimRecovery now agentId taskId =>
      match reclaimRecovery now db agentId taskId with
      | .ok (true, _) => [.notifyAvailable agentId]
      | _ => []
  | _ => []

/-- The steps of the server. `onAgentReady` may be called more often than it has to be. -/
inductive WakeEvent where
  | accept (agentId : Id)
  | closeSocket (agentId : Id)
  | unregister (agentId : Id)
  | checkReady (request : CreateTaskRequest)
  | hello (now : Time) (durableLog : Id → Except Failure LogFileState) (agentId : Id)
      (socket : Socket) (currentTask : Option AgentCurrentTask) (capabilities : List JsString)
  | callOnAgentReady (agentId : Id)
  | operation (op : TaskOperation)
  | updateTask (now : Time) (taskId : Id) (set : BuildTask → BuildTask)
  | administer (db : Db)
  | continueCall (now : Time) (i : Nat)

namespace WakeEvent

def perform (env : Environment) (s : WakeState) : WakeEvent → WakeState
  | accept agentId =>
      { s with
        accepted := s.accepted + 1
        connections := Function.update s.connections agentId
          (some (s.accepted, ⟨false, true, []⟩)) }
  | closeSocket agentId =>
      { s with
        connections := Function.update s.connections agentId ((s.connections agentId).map
          (fun entry => (entry.1, { entry.2 with isOpen := false }))) }
  | unregister agentId => { s with connections := Function.update s.connections agentId none }
  | checkReady request =>
      { s with pending := s.pending ++ [.create request (s.isReadyFor request)] }
  | hello now durableLog agentId socket currentTask capabilities =>
      match AgentGateway.hello env now durableLog s.db agentId currentTask capabilities with
      | .ok (_, db) => s.write db (s.pending ++ [.markReady agentId socket capabilities])
      | .error _ => s
  | callOnAgentReady agentId => { s with pending := s.pending ++ [.onAgentReady agentId] }
  | operation op => s.write (op.run env s.db) (s.pending ++ followUps env s.db op)
  | updateTask now taskId set => s.write (s.db.updateTask now taskId set) s.pending
  | administer db => s.write db s.pending
  | continueCall now i => s.continueCall env now i

/-- The operations that have events of their own are not performed as operations, the others see
the connections as they are, a hello is about an agent that is enabled, and outside of the
operations no slot is emptied. -/
def Feasible (s : WakeState) : WakeEvent → Prop
  | hello _ _ agentId _ _ _ => (s.db.agents.row agentId).any Agent.enabled = true
  | operation op => op.Feasible s.db ∧
      match op with
      | .createTask .. | .onAgentReady .. | .hello .. => False
      | .claim registry .. | .reconcileInterruptedTask registry .. | .reclaimDispatch registry .. =>
          registry = s.registry
      | _ => True
  | updateTask _ _ set =>
      ∀ task, (set task).interactiveInputEnabled = task.interactiveInputEnabled
  | administer db => db.tasks = s.db.tasks ∧
      ∀ agentId, activeTask db agentId = none → activeTask s.db agentId = none
  | _ => True

end WakeEvent

variable {env : Environment} {now : Time} {db : Db} {agentId taskId : Id} {s t : WakeState}

/-- `onAgentReady` is going to be called. -/
def WakePending (s : WakeState) (agentId : Id) : Prop :=
  (∃ socket capabilities, .markReady agentId socket capabilities ∈ s.pending) ∨
    .onAgentReady agentId ∈ s.pending

/-- A `task.available` is going to be sent. -/
def Announcing (s : WakeState) (agentId : Id) : Prop :=
  WakePending s agentId ∨ .notifyAvailable agentId ∈ s.pending ∨
    .countQueued agentId ∈ s.pending ∨ ∃ count, .sendAvailable agentId (count + 1) ∈ s.pending

/-- The connection of the agent is ready, the agent is enabled and online, and its slot is free. -/
def Idle (s : WakeState) (agentId : Id) : Prop :=
  s.registry.isReady agentId = true ∧ Available s.db agentId

/-- The agent is connected and online, and nothing is going to wake it. -/
def Unattended (s : WakeState) (agentId : Id) : Prop :=
  s.registry.isReady agentId = true ∧ Online s.db agentId ∧ ¬ WakePending s agentId

/-- The steps that leave no task behind: a task that was checked before the agent was ready is
created while the agent is not there or is going to be woken; the end of a connection takes no
task from an agent that is; a timeout frees a slot, and an agent comes online outside of a hello,
only if no task waits; and no slot is stale. -/
def Covered (s : WakeState) : WakeEvent → Prop
  | .continueCall _ i => ∀ request project template,
      s.pending[i]? = some (.create request false) → existingTask s.db request = none →
      s.db.projects.row request.projectId = some project →
      s.db.templates.row project.buildTemplateId = some template →
      Unattended s template.agentId → activeTask s.db template.agentId ≠ none ∨
        (template.interactiveInputEnabled &&
          !s.registry.hasCapability template.agentId taskInputCapability) = true
  | .operation (.disconnectTask _ agentId _) => ¬ Unattended s agentId
  | .operation (.reclaimDispatch _ _ agentId _) | .operation (.reclaimRecovery _ agentId _) =>
      Unattended s agentId → ∀ taskId, ¬ Waiting s.registry s.db agentId taskId
  | .operation (.requestCancellation _ _ taskId _) =>
      ∀ task, s.db.findTask taskId = some task → SlotFresh s.db task (asciiLower taskId)
  | .administer db => ∀ agentId, Available db agentId → ¬ Available s.db agentId →
      s.registry.isReady agentId = true → WakePending s agentId ∨
        (∀ taskId, ¬ Waiting s.registry s.db agentId taskId) ∧
          ∀ taskId, Queued s.db agentId taskId → s.announced taskId
  | _ => True

/-- The server from a database without tasks on. -/
def wakeRuns (env : Environment) (allowed : WakeState → WakeEvent → Prop) :
    TransitionSystem WakeState where
  init := fun s => (∀ taskId, s.db.tasks.row taskId = none) ∧
    (∀ agentId, s.connections agentId = none) ∧ s.pending = []
  step := fun s t => ∃ e : WakeEvent, e.Feasible s ∧ allowed s e ∧ t = e.perform env s

/-- If the agent is idle, it is going to be woken for its waiting tasks, and its queued tasks are
announced or going to be. -/
structure AttentiveTo (s : WakeState) (agentId : Id) : Prop where
  waiting : Idle s agentId → ∀ taskId, Waiting s.registry s.db agentId taskId →
    WakePending s agentId
  queued : Idle s agentId → ∀ taskId, Queued s.db agentId taskId →
    s.announced taskId ∨ Announcing s agentId

theorem AttentiveTo.of_wakePending (h : WakePending s agentId) : AttentiveTo s agentId :=
  ⟨fun _ _ _ => h, fun _ _ _ => Or.inr (Or.inl h)⟩

theorem AttentiveTo.of_not_idle (h : ¬ Idle s agentId) : AttentiveTo s agentId :=
  ⟨fun hidle => absurd hidle h, fun hidle => absurd hidle h⟩

/-- The calls of the agent are still pending. -/
def PendingKept (agentId : Id) (pending pending' : List Pending) : Prop :=
  ∀ p ∈ pending, p.agent = some agentId → p ∈ pending'

theorem WakePending.kept (h : WakePending s agentId)
    (hkept : PendingKept agentId s.pending t.pending) : WakePending t agentId := by
  rcases h with ⟨socket, capabilities, hmem⟩ | hmem
  · exact Or.inl ⟨socket, capabilities, hkept _ hmem rfl⟩
  · exact Or.inr (hkept _ hmem rfl)

theorem Announcing.kept (h : Announcing s agentId)
    (hkept : PendingKept agentId s.pending t.pending) : Announcing t agentId := by
  rcases h with hwake | hmem | hmem | ⟨count, hmem⟩
  · exact Or.inl (hwake.kept hkept)
  · exact Or.inr (Or.inl (hkept _ hmem rfl))
  · exact Or.inr (Or.inr (Or.inl (hkept _ hmem rfl)))
  · exact Or.inr (Or.inr (Or.inr ⟨count, hkept _ hmem rfl⟩))

theorem pendingKept_append (pending added : List Pending) :
    PendingKept agentId pending (pending ++ added) :=
  fun _ hmem _ => List.mem_append_left added hmem

/-- A call goes on without the others. -/
theorem mem_of_set_or_erase {p q r : Pending} {pending : List Pending} {i : Nat}
    (hi : pending[i]? = some p) (hq : q ∈ pending) (hne : q ≠ p) :
    q ∈ pending.set i r ∧ q ∈ pending.eraseIdx i := by
  obtain ⟨j, hj⟩ := List.mem_iff_getElem?.mp hq
  have hji : j ≠ i := by
    rintro rfl
    exact hne (Option.some.inj (hj.symm.trans hi))
  constructor
  · refine List.mem_iff_getElem?.mpr ⟨j, ?_⟩
    rw [List.getElem?_set_ne hji.symm]
    exact hj
  · exact List.mem_eraseIdx_iff_getElem?.mpr ⟨j, hji, hj⟩

theorem pendingKept_set {p r : Pending} {pending : List Pending} {i : Nat}
    (hi : pending[i]? = some p) (hp : p.agent ≠ some agentId) :
    PendingKept agentId pending (pending.set i r) := by
  intro q hq hagent
  refine (mem_of_set_or_erase hi hq ?_).1
  rintro rfl
  exact hp hagent

theorem pendingKept_erase {p : Pending} {pending : List Pending} {i : Nat}
    (hi : pending[i]? = some p) (hp : p.agent ≠ some agentId) :
    PendingKept agentId pending (pending.eraseIdx i) := by
  intro q hq hagent
  refine (@mem_of_set_or_erase p q p pending i hi hq ?_).2
  rintro rfl
  exact hp hagent

theorem registry_congr (h : t.connections agentId = s.connections agentId) :
    t.registry agentId = s.registry agentId := by
  rw [WakeState.registry, WakeState.registry, h]

theorem isReady_congr {r r' : Registry} (h : r agentId = r' agentId) :
    r.isReady agentId = r'.isReady agentId := by
  rw [Registry.isReady, Registry.isReady, h]

theorem waiting_congr {r r' : Registry} (h : r agentId = r' agentId)
    (hwaiting : Waiting r db agentId taskId) : Waiting r' db agentId taskId := by
  obtain ⟨task, hrow, howner, hstatus, hcapable⟩ := hwaiting
  refine ⟨task, hrow, howner, hstatus, ?_⟩
  rw [Registry.hasCapability, ← h]
  exact hcapable

/-- What leaves the connection, the tasks and the calls of an agent alone, or is quiet about
them. -/
theorem AttentiveTo.frame (h : AttentiveTo s agentId)
    (hconnection : t.connections agentId = s.connections agentId)
    (hquiet : Quiet s.registry agentId s.db t.db)
    (hannounced : Available t.db agentId → ∀ k, Queued s.db agentId k → s.announced k →
      t.announced k)
    (hkept : PendingKept agentId s.pending t.pending) : AttentiveTo t agentId := by
  have hregistry := registry_congr hconnection
  have hidle : Idle t agentId → Idle s agentId := by
    rintro ⟨hready, havailable⟩
    rw [isReady_congr hregistry] at hready
    exact ⟨hready, hquiet.available havailable⟩
  constructor
  · intro hnow k hwaiting
    exact (h.waiting (hidle hnow) k (hquiet.waiting k (waiting_congr hregistry hwaiting))).kept hkept
  · intro hnow k hqueued
    have hold := hquiet.queued k hqueued
    rcases h.queued (hidle hnow) k hold with hannounce | hcoming
    · exact Or.inl (hannounced hnow.2 k hold hannounce)
    · exact Or.inr (hcoming.kept hkept)

theorem activeTask_of_available (h : Available db agentId) : activeTask db agentId = none := by
  obtain ⟨agent, hagent, -, -, hfree⟩ := h
  rw [activeTask, hagent]
  exact hfree

/-- A quiet change of the database. -/
theorem AttentiveTo.write (h : AttentiveTo s agentId) {pending : List Pending}
    (hquiet : Quiet s.registry agentId s.db db) (hkept : PendingKept agentId s.pending pending) :
    AttentiveTo (s.write db pending) agentId := by
  refine h.frame rfl hquiet ?_ hkept
  intro havailable k hqueued hannounced
  refine ⟨hannounced, agentId, hqueued, fun _ => ?_⟩
  exact activeTask_of_available (hquiet.available havailable)

/-- A change of the calls alone. -/
theorem AttentiveTo.calls (h : AttentiveTo s agentId) {pending : List Pending}
    (hkept : PendingKept agentId s.pending pending) :
    AttentiveTo { s with pending := pending } agentId :=
  h.frame rfl .refl (fun _ _ _ hannounced => hannounced) hkept

/-- A change of the connection of another agent. -/
theorem AttentiveTo.connect (h : AttentiveTo s agentId)
    {connections : Id → Option (Socket × Connection)}
    (hsame : connections agentId = s.connections agentId) :
    AttentiveTo { s with connections := connections } agentId :=
  h.frame hsame .refl (fun _ _ _ hannounced => hannounced) fun _ hmem _ => hmem

/-- Without a connection that is ready nobody is idle. -/
theorem AttentiveTo.update (h : AttentiveTo s agentId) {owner : Id}
    {connection : Option (Socket × Connection)}
    (hclosed : ∀ entry, connection = some entry → (entry.2.ready && entry.2.isOpen) = false) :
    AttentiveTo { s with connections := Function.update s.connections owner connection }
      agentId := by
  by_cases hsame : agentId = owner
  · subst hsame
    apply AttentiveTo.of_not_idle
    rintro ⟨hready, -⟩
    rw [Registry.isReady, WakeState.registry] at hready
    dsimp only at hready
    rw [Function.update_self] at hready
    cases hentry : connection with
    | none =>
        rw [hentry] at hready
        cases hready
    | some entry =>
        rw [hentry] at hready
        exact Bool.false_ne_true ((hclosed entry hentry).symm.trans hready)
  · exact h.connect (Function.update_of_ne hsame _ _)

/-! The calls go on -/

theorem markReady_of_ne {owner : Id} {socket : Socket} {capabilities : List JsString}
    (hother : agentId ≠ owner) :
    s.markReady owner socket capabilities agentId = s.connections agentId := by
  have hsame : s.markReady owner socket capabilities = s.connections ∨ ∃ entry,
      s.markReady owner socket capabilities = Function.update s.connections owner entry := by
    rw [WakeState.markReady]
    split
    · split
      · exact Or.inr ⟨_, rfl⟩
      · exact Or.inl rfl
    · exact Or.inl rfl
  rcases hsame with hsame | ⟨entry, hsame⟩
  · rw [hsame]
  · rw [hsame, Function.update_of_ne hother]

theorem AttentiveTo.markReady (h : AttentiveTo s agentId) {owner : Id} {socket : Socket}
    {capabilities : List JsString} {i : Nat}
    (hi : s.pending[i]? = some (.markReady owner socket capabilities)) :
    AttentiveTo { s with
      connections := s.markReady owner socket capabilities
      pending := s.pending.set i (.onAgentReady owner) } agentId := by
  by_cases hsame : owner = agentId
  · subst hsame
    apply AttentiveTo.of_wakePending
    exact Or.inr (List.mem_set (List.getElem?_eq_some_iff.mp hi).1 _)
  · refine h.frame ?_ .refl (fun _ _ _ hannounced => hannounced) (pendingKept_set hi ?_)
    · exact markReady_of_ne (Ne.symm hsame)
    · intro heq
      exact hsame (Option.some.inj heq)

theorem AttentiveTo.onAgentReady (h : AttentiveTo s agentId) {owner : Id} {i : Nat}
    (hi : s.pending[i]? = some (.onAgentReady owner)) {ready : Bool}
    (hrun : TaskQueue.onAgentReady s.registry now s.db owner = .ok (ready, db)) :
    AttentiveTo (s.write db (if ready then s.pending.set i (.notifyAvailable owner)
      else s.pending.eraseIdx i)) agentId := by
  obtain ⟨ready', db', hrun', heffect⟩ := onAgentReady_effect s.registry now s.db owner
  obtain ⟨rfl, rfl⟩ := Prod.mk.inj (Except.ok.inj (hrun.symm.trans hrun'))
  by_cases hsame : owner = agentId
  · subst hsame
    rcases heffect with ⟨rfl, rfl, hbusy⟩ | ⟨rfl, hnone⟩
    · apply AttentiveTo.of_not_idle
      exact fun hidle => hbusy hidle.2
    · constructor
      · intro _ k hwaiting
        exact absurd hwaiting (hnone k)
      · intro _ k _
        refine Or.inr (Or.inr (Or.inl ?_))
        exact List.mem_set (List.getElem?_eq_some_iff.mp hi).1 _
  · have hother : (Pending.onAgentReady owner).agent ≠ some agentId :=
      fun heq => hsame (Option.some.inj heq)
    have hmoves : Moves owner True True s.db db := onAgentReady_moves hrun
    refine h.write (quiet_of_moves (Ne.symm hsame) hmoves) ?_
    split
    · exact pendingKept_set hi hother
    · exact pendingKept_erase hi hother

theorem length_tasksInStatus_pos (h : Queued db agentId taskId) :
    (tasksInStatus db agentId .queued).length ≠ 0 := by
  obtain ⟨task, hrow, howner, hstatus⟩ := h
  have hmem : (taskId, task) ∈ tasksInStatus db agentId .queued :=
    SlotPreservation.mem_tasksInStatus.mpr ⟨hrow, howner, hstatus⟩
  exact (List.length_pos_of_mem hmem).ne'

/-- A notification goes on to its next part, which announces the queued tasks as well. -/
theorem AttentiveTo.notify (h : AttentiveTo s agentId) {owner : Id} {p : Pending} {i : Nat}
    (hi : s.pending[i]? = some p) (howner : p.agent = some owner) {pending : List Pending}
    (hwake : ∀ q ∈ s.pending, q ≠ p → q ∈ pending)
    (hplain : (∀ socket capabilities, p ≠ .markReady owner socket capabilities) ∧
      p ≠ .onAgentReady owner)
    (hnext : Idle s owner → ∀ k, Queued s.db owner k → Announcing { s with pending := pending } owner) :
    AttentiveTo { s with pending := pending } agentId := by
  have hkept : owner ≠ agentId → PendingKept agentId s.pending pending := by
    intro hsame q hq hagent
    refine hwake q hq ?_
    rintro rfl
    exact hsame (Option.some.inj (howner.symm.trans hagent))
  by_cases hsame : owner = agentId
  · subst hsame
    constructor
    · intro hidle k hwaiting
      rcases h.waiting hidle k hwaiting with ⟨socket, capabilities, hmem⟩ | hmem
      · exact Or.inl ⟨socket, capabilities, hwake _ hmem (Ne.symm (hplain.1 socket capabilities))⟩
      · exact Or.inr (hwake _ hmem (Ne.symm hplain.2))
    · intro hidle k hqueued
      exact Or.inr (hnext hidle k hqueued)
  · exact h.calls (hkept hsame)

theorem AttentiveTo.send (h : AttentiveTo s agentId) {owner : Id} {count i : Nat}
    (hi : s.pending[i]? = some (.sendAvailable owner count)) :
    AttentiveTo { s with
      pending := s.pending.eraseIdx i
      announced := fun taskId => s.announced taskId ∨
        (s.registry.isReady owner = true ∧ Queued s.db owner taskId) } agentId := by
  by_cases hsame : owner = agentId
  · subst hsame
    have hwake : ∀ q ∈ s.pending, q ≠ .sendAvailable owner count → q ∈ s.pending.eraseIdx i :=
      fun q hq hne => (@mem_of_set_or_erase _ q q s.pending i hi hq hne).2
    constructor
    · intro hidle k hwaiting
      rcases h.waiting hidle k hwaiting with ⟨socket, capabilities, hmem⟩ | hmem
      · exact Or.inl ⟨socket, capabilities, hwake _ hmem Pending.noConfusion⟩
      · exact Or.inr (hwake _ hmem Pending.noConfusion)
    · intro hidle k hqueued
      exact Or.inl (Or.inr ⟨hidle.1, hqueued⟩)
  · refine h.frame rfl .refl (fun _ _ _ hannounced => Or.inl hannounced) ?_
    exact pendingKept_erase hi fun heq => hsame (Option.some.inj heq)

/-- A new task waits for its agent, or it is in the queue, and the agent is notified. -/
theorem AttentiveTo.create (h : AttentiveTo s agentId) {request : CreateTaskRequest}
    {ready : Bool} {created : Id} {i : Nat} (hi : s.pending[i]? = some (.create request ready))
    (hcovered : Covered s (.continueCall now i))
    (hrun : createTask env (fun _ => some ⟨ready, true, []⟩) now s.db request =
      .ok (created, db)) :
    AttentiveTo (s.write db (s.pending.eraseIdx i ++
      ((db.tasks.row created).map (fun task => .notifyAvailable task.agentId)).toList)) agentId := by
  have hkept : ∀ added : List Pending,
      PendingKept agentId s.pending (s.pending.eraseIdx i ++ added) := by
    intro added q hq hagent
    exact List.mem_append_left _ (pendingKept_erase hi (Option.some_ne_none _).symm q hq hagent)
  rcases createTask_effect hrun with rfl | ⟨project, template, task, hnew, hproject, htemplate,
    hagents, hfresh, hrow, hothers, howner, hinteractive, hstatus⟩
  · exact h.write .refl (hkept _)
  -- every other task is as before
  have hrows : ∀ {k : Id} {row : BuildTask}, db.tasks.row k = some row →
      k = created ∧ row = task ∨ s.db.tasks.row k = some row := by
    intro k row hk
    by_cases heq : k = created
    · subst heq
      exact Or.inl ⟨rfl, Option.some.inj (hk.symm.trans hrow)⟩
    · exact Or.inr ((hothers k heq).symm.trans hk)
  have hidle : ∀ {pending : List Pending}, Idle (s.write db pending) agentId → Idle s agentId := by
    rintro pending ⟨hready, agent, hagent, hfields⟩
    exact ⟨hready, agent, by rw [← hagents]; exact hagent, hfields⟩
  rw [hrow]
  constructor
  · rintro hnow k ⟨row, hk, hwaiting⟩
    rcases hrows hk with ⟨rfl, rfl⟩ | hold
    · obtain ⟨hagent, hwaits, hcapable⟩ := hwaiting
      by_cases hwake : WakePending s agentId
      · exact hwake.kept (hkept _)
      -- the agent was not ready at the check, and nothing will wake it
      obtain rfl : template.agentId = agentId := howner.symm.trans hagent
      have hunready : ready = false := by
        rw [hwaits] at hstatus
        cases ready with
        | false => rfl
        | true => cases hstatus
      rw [hunready] at hi
      obtain ⟨hready, havailable⟩ := hidle hnow
      rcases hcovered request project template hi hnew hproject htemplate
        ⟨hready, havailable.online, hwake⟩ with hbusy | hincapable
      · exact absurd (activeTask_of_available havailable) hbusy
      · rw [hinteractive] at hcapable
        exact absurd (hcapable.symm.trans hincapable) Bool.false_ne_true
    · exact (h.waiting (hidle hnow) k ⟨row, hold, hwaiting⟩).kept (hkept _)
  · rintro hnow k ⟨row, hk, hqueued⟩
    rcases hrows hk with ⟨rfl, rfl⟩ | hold
    · refine Or.inr (Or.inr (Or.inl (List.mem_append_right _ ?_)))
      rw [← hqueued.1]
      exact List.mem_singleton.mpr rfl
    · rcases h.queued (hidle hnow) k ⟨row, hold, hqueued⟩ with hannounced | hcoming
      · refine Or.inl ⟨hannounced, agentId, ⟨row, hold, hqueued⟩, fun _ => ?_⟩
        exact activeTask_of_available (hidle hnow).2
      · exact Or.inr (hcoming.kept (hkept _))

theorem AttentiveTo.continueCall (h : AttentiveTo s agentId) {i : Nat}
    (hcovered : Covered s (.continueCall now i)) :
    AttentiveTo (s.continueCall env now i) agentId := by
  rw [WakeState.continueCall]
  dsimp only
  split
  · exact h
  · rename_i request ready hi
    split
    · rename_i created db hrun
      exact h.create hi hcovered hrun
    · exact h.calls (pendingKept_erase hi (Option.some_ne_none _).symm)
  · rename_i owner socket capabilities hi
    exact h.markReady hi
  · rename_i owner hi
    split
    · rename_i db hrun
      exact h.onAgentReady hi hrun
    · rename_i db hrun
      exact h.onAgentReady hi hrun
    · rename_i failure hrun
      obtain ⟨ready, db, hok, -⟩ := onAgentReady_effect s.registry now s.db owner
      cases hrun.symm.trans hok
  · rename_i owner hi
    have hlt := (List.getElem?_eq_some_iff.mp hi).1
    refine h.notify hi rfl ?_ ⟨fun _ _ => Pending.noConfusion, Pending.noConfusion⟩ ?_
    · intro q hq hne
      split
      · exact (mem_of_set_or_erase hi hq hne).1
      · exact (@mem_of_set_or_erase _ q q s.pending i hi hq hne).2
    · rintro ⟨hready, -⟩ k -
      rw [if_pos hready]
      exact Or.inr (Or.inr (Or.inl (List.mem_set hlt _)))
  · rename_i owner hi
    have hlt := (List.getElem?_eq_some_iff.mp hi).1
    refine h.notify hi rfl ?_ ⟨fun _ _ => Pending.noConfusion, Pending.noConfusion⟩ ?_
    · intro q hq hne
      split
      · exact (@mem_of_set_or_erase _ q q s.pending i hi hq hne).2
      · exact (mem_of_set_or_erase hi hq hne).1
    · rintro - k hqueued
      have hcount := length_tasksInStatus_pos hqueued
      rw [if_neg hcount]
      obtain ⟨count, heq⟩ := Nat.exists_eq_succ_of_ne_zero hcount
      rw [heq]
      exact Or.inr (Or.inr (Or.inr ⟨count, List.mem_set hlt _⟩))
  · rename_i owner count hi
    exact h.send hi

/-! The operations -/

theorem AttentiveTo.operation (h : AttentiveTo s agentId) {op : TaskOperation}
    (hfeasible : (WakeEvent.operation op).Feasible s) (hcovered : Covered s (.operation op)) :
    AttentiveTo (s.write (op.run env s.db) (s.pending ++ followUps env s.db op)) agentId := by
  have hkept := @pendingKept_append agentId s.pending (followUps env s.db op)
  cases hperform : op.perform env s.db with
  | error failure =>
      have hrun : op.run env s.db = s.db := by rw [TaskOperation.run, hperform]
      rw [hrun]
      exact h.write .refl hkept
  | ok db =>
      have hrun : op.run env s.db = db := by rw [TaskOperation.run, hperform]
      rw [hrun]
      -- an operation on behalf of its agent is followed by a call that wakes this agent
      have hwoken : ∀ {owner : Id}, Moves owner True True s.db db →
          followUps env s.db op = [.onAgentReady owner] →
          AttentiveTo (s.write db (s.pending ++ followUps env s.db op)) agentId := by
        intro owner hmoves hfollow
        by_cases hsame : agentId = owner
        · subst hsame
          apply AttentiveTo.of_wakePending
          refine Or.inr (List.mem_append_right _ ?_)
          rw [hfollow]
          exact List.mem_singleton.mpr rfl
        · exact h.write (quiet_of_moves hsame hmoves) hkept
      have hnotified : ∀ {owner : Id}, Moves owner True True s.db db →
          followUps env s.db op = [.notifyAvailable owner] →
          (∀ k, Waiting s.registry db owner k → Waiting s.registry s.db owner k) →
          (Unattended s owner → ∀ k, ¬ Waiting s.registry s.db owner k) →
          (Online db owner → Online s.db owner) →
          AttentiveTo (s.write db (s.pending ++ followUps env s.db op)) agentId := by
        intro owner hmoves hfollow hwaits hnone honline
        by_cases hsame : agentId = owner
        · subst hsame
          constructor
          · rintro ⟨hready, havailable⟩ k hwaiting
            by_cases hwake : WakePending s agentId
            · exact hwake.kept hkept
            · exact absurd (hwaits k hwaiting)
                (hnone ⟨hready, honline havailable.online, hwake⟩ k)
          · intro _ k _
            refine Or.inr (Or.inr (Or.inl (List.mem_append_right _ ?_)))
            rw [hfollow]
            exact List.mem_singleton.mpr rfl
        · exact h.write (quiet_of_moves hsame hmoves) hkept
      cases op with
      | createTask registry now request => exact hfeasible.2.elim
      | onAgentReady registry now owner => exact hfeasible.2.elim
      | hello now durableLog owner current capabilities => exact hfeasible.2.elim
      | claim registry now tokens owner requested =>
          obtain ⟨-, rfl⟩ := hfeasible
          obtain ⟨⟨outcome, last⟩, hclaim, rfl⟩ := map_eq_ok.mp hperform
          exact h.write (claimInTransaction_quiet hclaim) hkept
      | accept now owner taskId leaseToken => exact h.write (accept_quiet hperform) hkept
      | reportTaskStatus now owner message =>
          exact h.write (reportTaskStatus_quiet hperform) hkept
      | reconcileInterruptedTask registry now owner taskId status =>
          exact h.write (reconcileInterruptedTask_quiet hperform) hkept
      | requestCancellation now tokens taskId reason =>
          obtain ⟨⟨outcome, last⟩, hcancel, rfl⟩ := map_eq_ok.mp hperform
          exact h.write (requestCancellation_quiet hcovered hcancel) hkept
      | reclaimCancellation now owner taskId =>
          obtain ⟨⟨given, last⟩, hreclaim, rfl⟩ := map_eq_ok.mp hperform
          exact h.write (reclaimCancellation_quiet hreclaim) hkept
      | reportPreparationFailure now owner message =>
          obtain ⟨⟨failed, last⟩, hreport, rfl⟩ := map_eq_ok.mp hperform
          exact hwoken (reportPreparationFailure_moves hreport) (by rw [followUps, hreport])
      | reportTaskCanceled now owner message =>
          obtain ⟨⟨canceled, last⟩, hreport, rfl⟩ := map_eq_ok.mp hperform
          exact hwoken (reportTaskCanceled_moves hreport) (by rw [followUps, hreport])
      | completeTask now owner message =>
          obtain ⟨⟨completed, last⟩, hcomplete, rfl⟩ := map_eq_ok.mp hperform
          exact hwoken (completeTask_moves hcomplete) (by rw [followUps, hcomplete])
      | failRejectedCompletion now owner message =>
          obtain ⟨⟨failed, last⟩, hfail, rfl⟩ := map_eq_ok.mp hperform
          rcases failRejectedCompletion_effect hfail with rfl | rfl
          · exact hwoken (failRejectedCompletion_moves hfail) (by rw [followUps, hfail])
          · exact h.write .refl hkept
      | disconnectTask now owner taskId =>
          obtain ⟨⟨preserved, last⟩, hdisconnect, rfl⟩ := map_eq_ok.mp hperform
          by_cases hsame : agentId = owner
          · subst hsame
            by_cases hwake : WakePending s agentId
            · exact .of_wakePending (hwake.kept hkept)
            · apply AttentiveTo.of_not_idle
              rintro ⟨hready, havailable⟩
              exact hcovered
                ⟨hready, disconnectTask_online hdisconnect havailable.online, hwake⟩
          · have hmoves : Moves owner True True s.db last := disconnectTask_moves hdisconnect
            exact h.write (quiet_of_moves hsame hmoves) hkept
      | reclaimDispatch registry now owner taskId =>
          obtain ⟨task, hrow, howner⟩ := hfeasible.1
          have hregistry : registry = s.registry := hfeasible.2
          subst hregistry
          obtain ⟨⟨result, last⟩, hreclaim, rfl⟩ := map_eq_ok.mp hperform
          have hmoves : Moves owner True True s.db last := reclaimDispatch_moves hrow howner hreclaim
          rcases reclaimDispatch_effect hreclaim with rfl | ⟨rfl, hwaits, honline⟩ | hoffline
          · exact h.write .refl hkept
          · exact hnotified hmoves (by rw [followUps, hreclaim]) hwaits hcovered honline
          · by_cases hsame : agentId = owner
            · subst hsame
              apply AttentiveTo.of_not_idle
              rintro ⟨hready, havailable⟩
              exact hoffline ⟨havailable.online, hready⟩
            · exact h.write (quiet_of_moves hsame hmoves) hkept
      | reclaimRecovery now owner taskId =>
          obtain ⟨task, hrow, howner⟩ := hfeasible.1
          obtain ⟨⟨given, last⟩, hreclaim, rfl⟩ := map_eq_ok.mp hperform
          have hmoves : Moves owner True True s.db last := reclaimRecovery_moves hrow howner hreclaim
          rcases @reclaimRecovery_effect s.registry _ _ _ _ _ _ hreclaim with
            rfl | ⟨rfl, hwaits, honline⟩
          · exact h.write .refl hkept
          · exact hnotified hmoves (by rw [followUps, hreclaim]) hwaits hcovered honline

theorem AttentiveTo.administer (h : AttentiveTo s agentId)
    (hfeasible : (WakeEvent.administer db).Feasible s) (hcovered : Covered s (.administer db)) :
    AttentiveTo (s.write db s.pending) agentId := by
  obtain ⟨htasks, hslots⟩ := hfeasible
  have hwaits : ∀ {k : Id}, Waiting s.registry db agentId k →
      Waiting s.registry s.db agentId k := by
    rintro k ⟨task, hrow, hwaiting⟩
    exact ⟨task, by rw [← htasks]; exact hrow, hwaiting⟩
  have hqueues : ∀ {k : Id}, Queued db agentId k → Queued s.db agentId k := by
    rintro k ⟨task, hrow, hqueued⟩
    exact ⟨task, by rw [← htasks]; exact hrow, hqueued⟩
  by_cases hbefore : Available s.db agentId
  · exact h.write (.agents htasks fun _ => hbefore) fun _ hmem _ => hmem
  · constructor
    · rintro ⟨hready, havailable⟩ k hwaiting
      rcases hcovered agentId havailable hbefore hready with hwake | ⟨hnone, -⟩
      · exact hwake.kept fun _ hmem _ => hmem
      · exact absurd (hwaits hwaiting) (hnone k)
    · rintro ⟨hready, havailable⟩ k hqueued
      rcases hcovered agentId havailable hbefore hready with hwake | ⟨-, hall⟩
      · exact Or.inr (Or.inl (hwake.kept fun _ hmem _ => hmem))
      · exact Or.inl ⟨hall k (hqueues hqueued), agentId, hqueues hqueued, hslots agentId⟩

theorem AttentiveTo.perform (h : AttentiveTo s agentId) {e : WakeEvent} (hfeasible : e.Feasible s)
    (hcovered : Covered s e) : AttentiveTo (e.perform env s) agentId := by
  cases e with
  | accept owner =>
      refine (h.update ?_).frame rfl .refl (fun _ _ _ => id) fun _ hmem _ => hmem
      rintro entry heq
      obtain rfl := Option.some.inj heq
      rfl
  | closeSocket owner =>
      refine h.update ?_
      rintro entry heq
      obtain ⟨old, -, rfl⟩ := Option.map_eq_some_iff.mp heq
      exact Bool.and_false _
  | unregister owner =>
      refine h.update ?_
      rintro entry heq
      cases heq
  | checkReady request => exact h.calls (pendingKept_append _ _)
  | hello now durableLog owner socket currentTask capabilities =>
      rw [WakeEvent.perform]
      split
      · rename_i outcome db hhello
        by_cases hsame : agentId = owner
        · subst hsame
          apply AttentiveTo.of_wakePending
          exact Or.inl ⟨socket, capabilities, List.mem_append_right _ (List.mem_singleton.mpr rfl)⟩
        · have hmoves : Moves owner True True s.db db := hello_moves hhello
          exact h.write (quiet_of_moves hsame hmoves) (pendingKept_append _ _)
      · exact h
  | callOnAgentReady owner => exact h.calls (pendingKept_append _ _)
  | operation op => exact h.operation hfeasible hcovered
  | updateTask now taskId set => exact h.write (quiet_updateTask hfeasible) fun _ hmem _ => hmem
  | administer db => exact h.administer hfeasible hcovered
  | continueCall now i => exact h.continueCall hcovered

theorem attentive_of_reachable (h : (wakeRuns env Covered).Reachable s) :
    ∀ agentId, AttentiveTo s agentId := by
  induction h with
  | init hinit =>
      intro agentId
      apply AttentiveTo.of_not_idle
      rintro ⟨hready, -⟩
      rw [Registry.isReady, WakeState.registry, hinit.2.1] at hready
      cases hready
  | step _ hstep ih =>
      intro agentId
      obtain ⟨e, hfeasible, hcovered, rfl⟩ := hstep
      exact (ih agentId).perform hfeasible hcovered

/-- In every run whose steps leave no task behind, whenever no call is pending and an agent is idle,
only tasks that its connection cannot do wait for it, and its queued tasks are announced. -/
theorem announced_of_reachable (h : (wakeRuns env Covered).Reachable s) (hdone : s.pending = [])
    (hidle : Idle s agentId) :
    (∀ taskId task, s.db.tasks.row taskId = some task → task.agentId = agentId →
      task.status = .waitingAgent → task.interactiveInputEnabled = true ∧
        s.registry.hasCapability agentId taskInputCapability = false) ∧
    ∀ taskId, Queued s.db agentId taskId → s.announced taskId := by
  obtain ⟨hwaiting, hqueued⟩ := attentive_of_reachable h agentId
  have hnowake : ¬ WakePending s agentId := by
    rw [WakePending, hdone]
    simp
  have hnoannounce : ¬ Announcing s agentId := by
    rw [Announcing, hdone]
    simp [hnowake]
  constructor
  · intro taskId task hrow howner hstatus
    have hincapable : (task.interactiveInputEnabled &&
        !s.registry.hasCapability agentId taskInputCapability) = true := by
      apply Bool.eq_true_of_not_eq_false
      intro hcapable
      exact hnowake (hwaiting hidle taskId ⟨task, hrow, howner, hstatus, hcapable⟩)
    obtain ⟨hinteractive, hlacking⟩ := Bool.and_eq_true_iff.mp hincapable
    exact ⟨hinteractive, by simpa using hlacking⟩
  · intro taskId hqueuedTask
    rcases hqueued hidle taskId hqueuedTask with hannounced | hcoming
    · exact hannounced
    · exact absurd hcoming hnoannounce

/-! A task that is created next to a hello -/

/-- The server of `SlotSystem` after some events. -/
def demoWakes (events : List WakeEvent) : WakeState :=
  events.foldl (fun s e => e.perform SlotSystem.demoEnvironment s)
    ⟨SlotSystem.demoDb, 0, fun _ => none, [], fun _ => False⟩

def demoHello : WakeEvent :=
  .hello 0 (fun _ => .error .database) SlotSystem.demoAgentId 0 none []

def demoConnect : List WakeEvent :=
  [.accept SlotSystem.demoAgentId, demoHello, .continueCall 0 0, .continueCall 0 0,
    .continueCall 0 0, .continueCall 0 0]

/-- The agent connects, and then the task is created. -/
def demoQueued : List WakeEvent :=
  demoConnect ++ [.checkReady SlotSystem.demoRequest, .continueCall 0 0, .continueCall 0 0,
    .continueCall 0 0, .continueCall 0 0]

/-- The agent connects between the check of `createTask` and its commit. -/
def demoMissed : List WakeEvent :=
  [.checkReady SlotSystem.demoRequest, .accept SlotSystem.demoAgentId, demoHello,
    .continueCall 0 1, .continueCall 0 1, .continueCall 0 1, .continueCall 0 1,
    .continueCall 0 0, .continueCall 0 0, .continueCall 0 0]

/-- The call does not create a task whose agent was not ready. -/
def notUnready : Pending → Bool
  | .create _ ready => ready
  | _ => true

theorem covered_continueCall {i : Nat} (h : (s.pending[i]?).all notUnready = true) :
    Covered s (.continueCall now i) := by
  intro request project template hi
  rw [hi] at h
  cases h

theorem reachable_event {allowed : WakeState → WakeEvent → Prop} {events : List WakeEvent}
    (h : (wakeRuns SlotSystem.demoEnvironment allowed).Reachable (demoWakes events)) (e : WakeEvent)
    (hfeasible : e.Feasible (demoWakes events)) (hallowed : allowed (demoWakes events) e) :
    (wakeRuns SlotSystem.demoEnvironment allowed).Reachable (demoWakes (events ++ [e])) := by
  refine h.step ⟨e, hfeasible, hallowed, ?_⟩
  rw [demoWakes, demoWakes, List.foldl_append]
  rfl

theorem idle_demo {events : List WakeEvent}
    (h : ((demoWakes events).registry.isReady SlotSystem.demoAgentId &&
      ((demoWakes events).db.agents.row SlotSystem.demoAgentId).any (fun agent =>
        decide (agent.enabled = true ∧ agent.status = .online ∧ agent.activeTaskId = none))) =
          true) : Idle (demoWakes events) SlotSystem.demoAgentId := by
  obtain ⟨hready, hagent⟩ := Bool.and_eq_true_iff.mp h
  obtain ⟨agent, hrow, hfields⟩ := (Option.any_eq_true _ _).mp hagent
  exact ⟨hready, agent, hrow, of_decide_eq_true hfields⟩

/-- The queued task has been announced when all calls are over. -/
theorem announced_queued :
    (demoWakes demoQueued).pending = [] ∧
      Queued (demoWakes demoQueued).db SlotSystem.demoAgentId SlotSystem.demoTaskId ∧
      (demoWakes demoQueued).announced SlotSystem.demoTaskId := by
  have hstart : (wakeRuns SlotSystem.demoEnvironment Covered).Reachable (demoWakes []) :=
    .init ⟨fun _ => rfl, fun _ => rfl, rfl⟩
  have haccepted := reachable_event hstart (.accept SlotSystem.demoAgentId) trivial trivial
  have hhello : demoHello.Feasible (demoWakes [.accept SlotSystem.demoAgentId]) := by
    show Option.any Agent.enabled _ = true
    decide +kernel
  have hsaid := reachable_event haccepted demoHello hhello trivial
  have hcall : ∀ {events : List WakeEvent},
      (wakeRuns SlotSystem.demoEnvironment Covered).Reachable (demoWakes events) →
      (((demoWakes events).pending[0]?).all notUnready) = true →
      (wakeRuns SlotSystem.demoEnvironment Covered).Reachable
        (demoWakes (events ++ [.continueCall 0 0])) :=
    fun h hready => reachable_event h _ trivial (covered_continueCall hready)
  have hready := hcall hsaid (by decide +kernel)
  have hpromoted := hcall hready (by decide +kernel)
  have hnotified := hcall hpromoted (by decide +kernel)
  have hcounted := hcall hnotified (by decide +kernel)
  have hchecked := reachable_event hcounted (.checkReady SlotSystem.demoRequest) trivial trivial
  have hcreated := hcall hchecked (by decide +kernel)
  have hnotifies := hcall hcreated (by decide +kernel)
  have hcounts := hcall hnotifies (by decide +kernel)
  have hsent := hcall hcounts (by decide +kernel)
  have hdone : (demoWakes demoQueued).pending = [] := by
    have hlength : (demoWakes demoQueued).pending.length = 0 := by decide +kernel
    exact List.eq_nil_of_length_eq_zero hlength
  have hidle := @idle_demo demoQueued (by decide +kernel)
  have hqueued : ((demoWakes demoQueued).db.tasks.row SlotSystem.demoTaskId).map
      (fun task => (task.agentId, task.status)) = some (SlotSystem.demoAgentId, .queued) := by
    decide +kernel
  obtain ⟨task, hrow, htask⟩ := Option.map_eq_some_iff.mp hqueued
  have hqueued : Queued (demoWakes demoQueued).db SlotSystem.demoAgentId SlotSystem.demoTaskId :=
    ⟨task, hrow, (Prod.mk.inj htask).1, (Prod.mk.inj htask).2⟩
  exact ⟨hdone, hqueued, (announced_of_reachable hsent hdone hidle).2 _ hqueued⟩

/-- The task waits for an agent that is there, and nobody will wake it. -/
theorem missed_waiting :
    (wakeRuns SlotSystem.demoEnvironment (fun _ _ => True)).Reachable (demoWakes demoMissed) ∧
      (demoWakes demoMissed).pending = [] ∧ Idle (demoWakes demoMissed) SlotSystem.demoAgentId ∧
      ∃ task, (demoWakes demoMissed).db.tasks.row SlotSystem.demoTaskId = some task ∧
        task.agentId = SlotSystem.demoAgentId ∧ task.status = .waitingAgent ∧
        task.interactiveInputEnabled = false := by
  refine ⟨?_, ?_, idle_demo (by decide +kernel), ?_⟩
  · have hstart : (wakeRuns SlotSystem.demoEnvironment (fun _ _ => True)).Reachable
        (demoWakes []) := .init ⟨fun _ => rfl, fun _ => rfl, rfl⟩
    have hchecked := reachable_event hstart (.checkReady SlotSystem.demoRequest) trivial trivial
    have haccepted := reachable_event hchecked (.accept SlotSystem.demoAgentId) trivial trivial
    have hhello : demoHello.Feasible
        (demoWakes [.checkReady SlotSystem.demoRequest, .accept SlotSystem.demoAgentId]) := by
      show Option.any Agent.enabled _ = true
      decide +kernel
    have hsaid := reachable_event haccepted demoHello hhello trivial
    have hcall : ∀ {events : List WakeEvent} (i : Nat),
        (wakeRuns SlotSystem.demoEnvironment (fun _ _ => True)).Reachable (demoWakes events) →
        (wakeRuns SlotSystem.demoEnvironment (fun _ _ => True)).Reachable
          (demoWakes (events ++ [.continueCall 0 i])) :=
      fun _ h => reachable_event h _ trivial trivial
    have hready := hcall 1 (hcall 1 (hcall 1 (hcall 1 hsaid)))
    exact hcall 0 (hcall 0 (hcall 0 hready))
  · have hlength : (demoWakes demoMissed).pending.length = 0 := by decide +kernel
    exact List.eq_nil_of_length_eq_zero hlength
  · have htask : ((demoWakes demoMissed).db.tasks.row SlotSystem.demoTaskId).map (fun task =>
        (task.agentId, task.status, task.interactiveInputEnabled)) =
        some (SlotSystem.demoAgentId, .waitingAgent, false) := by decide +kernel
    obtain ⟨task, hrow, hfields⟩ := Option.map_eq_some_iff.mp htask
    obtain ⟨howner, hrest⟩ := Prod.mk.inj hfields
    obtain ⟨hstatus, hinteractive⟩ := Prod.mk.inj hrest
    exact ⟨task, hrow, howner, hstatus, hinteractive⟩

end AnvilRun.WakeUps
