import AnvilRun.SlotSystem

namespace AnvilRun.SlotPointer

open AnvilRun.AgentGateway
open AnvilRun.ExecutionSlot
open AnvilRun.Fallible
open AnvilRun.SlotPreservation
open AnvilRun.SlotSystem
open AnvilRun.TaskDatabase
open AnvilRun.TaskQueue

/-- The update of an agent row that a message handler has still to make. -/
inductive PendingWrite where
  | heartbeat (activeTaskId : Option Id)
  | hello (decision : Option AgentRecoveryDecision)

namespace PendingWrite

def update : PendingWrite → Agent → Agent
  | heartbeat activeTaskId => recordHeartbeat activeTaskId
  | hello decision => recordHello decision

/-- What the update writes into the slot, if it writes there. -/
def slot : PendingWrite → Option (Option Id)
  | heartbeat activeTaskId => activeTaskId.map some
  | hello decision => some (slotOf decision)

end PendingWrite

/-- The database, and the message handlers between their reads and their updates. -/
structure SlotState where
  db : Db
  pending : List (Id × PendingWrite)

/-- The transactions of the server, with the two messages that write the slot of an agent outside
of them in two steps each. -/
inductive SlotStep (env : Environment) (allowed : Db → Id → PendingWrite → Prop) :
    SlotState → SlotState → Prop
  | operation {s : SlotState} {db : Db} (h : Operation env s.db db) :
      SlotStep env allowed s { s with db := db }
  | readHeartbeat {s : SlotState} (agentId : Id) (taskId : Option JsString) :
      SlotStep env allowed s { s with
        pending := s.pending ++ [(agentId, .heartbeat (validHeartbeatTask s.db agentId taskId))] }
  | reconcileHello {s : SlotState} {now : Time} {durableLog : Id → Except Failure LogFileState}
      {agentId : Id} {current : Option AgentCurrentTask} {capabilities : List JsString}
      {outcome : HelloOutcome} {db : Db}
      (h : reconcileAgentHello env now durableLog s.db agentId current capabilities =
        .ok (outcome, db)) :
      SlotStep env allowed s ⟨db, s.pending ++ [(agentId, .hello outcome.decision)]⟩
  | write {db : Db} {before after : List (Id × PendingWrite)} {agentId : Id} {write : PendingWrite}
      (hallowed : allowed db agentId write) :
      SlotStep env allowed ⟨db, before ++ (agentId, write) :: after⟩
        ⟨updateEnabledAgent db agentId write.update, before ++ after⟩

def slotRuns (env : Environment) (allowed : Db → Id → PendingWrite → Prop) :
    TransitionSystem SlotState where
  init := fun s => (taskSystem env).init s.db ∧ s.pending = []
  step := SlotStep env allowed

/-- The slot still holds what the update is about to write. -/
def Unmoved (db : Db) (agentId : Id) (write : PendingWrite) : Prop :=
  ∀ agent value, db.agents.row agentId = some agent → agent.enabled = true →
    write.slot = some value → agent.activeTaskId = value

/-- The slot of an agent is empty or names one of its tasks that occupies it, and it is not empty
while there is such a task. -/
def SlotPointers (db : Db) : Prop :=
  ∀ agentId agent, db.agents.row agentId = some agent →
    (∀ taskId, agent.activeTaskId = some taskId → ∃ task, db.tasks.row taskId = some task ∧
      task.agentId = agentId ∧ task.status.holdsSlot = true) ∧
    ∀ taskId task, db.tasks.row taskId = some task → task.agentId = agentId →
      task.status.holdsSlot = true → agent.activeTaskId ≠ none

variable {env : Environment} {db : Db} {agentId : Id} {agent : Agent} {write : PendingWrite}
  {s : SlotState}

/-- The update puts its value into the slot, or it leaves the slot alone. -/
theorem activeTaskId_update (write : PendingWrite) (agent : Agent) :
    (write.update agent).activeTaskId = write.slot.getD agent.activeTaskId := by
  cases write with
  | heartbeat activeTaskId =>
      cases activeTaskId with
      | none => rfl
      | some taskId => rfl
  | hello decision => rfl

theorem row_updateEnabledAgent {f : Agent → Agent} (k : Id) :
    (updateEnabledAgent db agentId f).agents.row k =
      if k = agentId then (db.agents.row k).map (fun agent => if agent.enabled then f agent else agent)
      else db.agents.row k :=
  Table.modify_row _ _ _ _

theorem slotPointers_of_invariant (hinv : SlotInvariant db) : SlotPointers db := by
  intro agentId agent hagent
  have hactive := activeTask_of_lockAgent hagent
  constructor
  · intro taskId hslot
    rw [← hactive] at hslot
    obtain ⟨task, hrow, howner, hheld⟩ := hinv.holds_of_activeTask hslot
    exact ⟨task, hrow, howner, hheld⟩
  · rintro taskId task hrow rfl hheld
    rw [← hactive, hinv.activeTask_of_holds hrow hheld]
    exact Option.some_ne_none _

/-- An update that finds in the slot what it writes changes no slot. -/
theorem slotInvariant_write (hinv : SlotInvariant db) (hunmoved : Unmoved db agentId write) :
    SlotInvariant (updateEnabledAgent db agentId write.update) := by
  refine hinv.stay rfl ?_
  intro k
  rw [activeTask, activeTask, row_updateEnabledAgent]
  split
  · rename_i hk
    subst hk
    cases hrow : db.agents.row k with
    | none => rfl
    | some agent =>
        rw [Option.map_some, Option.bind_some, Option.bind_some]
        split
        · rename_i henabled
          rw [activeTaskId_update]
          cases hslot : write.slot with
          | none => rfl
          | some value => exact (hunmoved agent value hrow henabled hslot).symm
        · rfl
  · rfl

/-- An update that finds another task in the slot, or none, breaks it. -/
theorem unmoved_of_slotPointers (hinv : SlotInvariant db)
    (h : SlotPointers (updateEnabledAgent db agentId write.update)) : Unmoved db agentId write := by
  intro agent value hrow henabled hslot
  have hrow' : (updateEnabledAgent db agentId write.update).agents.row agentId =
      some (write.update agent) := by
    rw [row_updateEnabledAgent, if_pos rfl, hrow, Option.map_some, if_pos henabled]
  obtain ⟨hpoints, hkept⟩ := h agentId _ hrow'
  rw [activeTaskId_update, hslot, Option.getD_some] at hpoints hkept
  rw [← activeTask_of_lockAgent hrow]
  -- the tasks are as before, so the task that holds the slot is the one in it
  cases value with
  | some taskId =>
      obtain ⟨task, htask, rfl, hheld⟩ := hpoints taskId rfl
      exact hinv.activeTask_of_holds htask hheld
  | none =>
      cases hactive : activeTask db agentId with
      | none => rfl
      | some taskId =>
          obtain ⟨task, htask, howner, hheld⟩ := hinv.holds_of_activeTask hactive
          exact absurd rfl (hkept taskId task htask howner hheld)

theorem SlotStep.slotInvariant {t : SlotState} (h : SlotStep env Unmoved s t)
    (hinv : SlotInvariant s.db) : SlotInvariant t.db := by
  cases h with
  | operation h => exact h.slotInvariant hinv
  | readHeartbeat agentId taskId => exact hinv
  | reconcileHello h => exact (reconcileAgentHello_reconciled hinv h).1
  | write hallowed => exact slotInvariant_write hinv hallowed

theorem slotInvariant_of_slotRuns (h : (slotRuns env Unmoved).Reachable s) :
    SlotInvariant s.db := by
  have hkeep : ∀ s t, (slotRuns env Unmoved).step s t → SlotInvariant s.db → SlotInvariant t.db :=
    fun s t hstep hinv => SlotStep.slotInvariant hstep hinv
  induction h with
  | init h => exact slotInvariant_of_init h.1
  | step _ hstep ih => exact hkeep _ _ hstep ih

/-- In every run in which each update of a heartbeat or a hello finds in the slot what it writes,
no slot is stale; and an update that does not find it leaves a stale slot. -/
theorem slotPointers_of_reachable (h : (slotRuns env Unmoved).Reachable s) :
    SlotPointers s.db ∧ ∀ agentId write, (agentId, write) ∈ s.pending →
      (SlotPointers (updateEnabledAgent s.db agentId write.update) ↔ Unmoved s.db agentId write) := by
  have hinv := slotInvariant_of_slotRuns h
  refine ⟨slotPointers_of_invariant hinv, ?_⟩
  intro agentId write _
  constructor
  · exact unmoved_of_slotPointers hinv
  · intro hunmoved
    exact slotPointers_of_invariant (slotInvariant_write hinv hunmoved)

/-! A heartbeat about a task that is dispatched -/

def demoHeartbeat : PendingWrite :=
  .heartbeat (validHeartbeatTask dispatchedDb demoAgentId (some demoTaskId))

theorem reachable_demoHeartbeat (allowed : Db → Id → PendingWrite → Prop) :
    (slotRuns demoEnvironment allowed).Reachable ⟨dispatchedDb, [(demoAgentId, demoHeartbeat)]⟩ := by
  have hinit : (slotRuns demoEnvironment allowed).Reachable ⟨demoDb, []⟩ := by
    refine .init ⟨⟨fun _ => rfl, fun agentId => ?_⟩, rfl⟩
    show ((if agentId = demoAgentId then some _ else none : Option Agent)).bind _ = none
    split <;> rfl
  have hqueued : (slotRuns demoEnvironment allowed).Reachable ⟨queuedDb, []⟩ :=
    hinit.step (.operation (.createTask (eq_ok_value _ createTask_demoDb)))
  have hdispatched : (slotRuns demoEnvironment allowed).Reachable ⟨dispatchedDb, []⟩ :=
    hqueued.step (.operation (.claim (eq_ok_value _ claim_queuedDb)))
  exact hdispatched.step (.readHeartbeat demoAgentId (some demoTaskId))

theorem activeTask_dispatchedDb : activeTask dispatchedDb demoAgentId = some demoTaskId := by
  decide +kernel

/-- The heartbeat writes the task that is in the slot. -/
theorem slotPointers_heartbeat :
    demoHeartbeat.slot = some (some demoTaskId) ∧
      SlotPointers (updateEnabledAgent dispatchedDb demoAgentId demoHeartbeat.update) := by
  have hslot : demoHeartbeat.slot = some (some demoTaskId) := by decide +kernel
  obtain ⟨-, hwrite⟩ := slotPointers_of_reachable (reachable_demoHeartbeat Unmoved)
  refine ⟨hslot, (hwrite demoAgentId demoHeartbeat (List.mem_singleton.mpr rfl)).mpr ?_⟩
  intro agent value hagent _ hvalue
  rw [hslot] at hvalue
  rw [← Option.some.inj hvalue, ← activeTask_of_lockAgent hagent]
  exact activeTask_dispatchedDb

theorem reclaim_dispatchedDb :
    (reclaimDispatch demoRegistry 31000 dispatchedDb demoAgentId demoTaskId).isOk = true := by
  decide +kernel

/-- The task goes back to the queue between the reads and the update of the heartbeat. -/
def demoStale : Db :=
  updateEnabledAgent (value _ reclaim_dispatchedDb).2 demoAgentId demoHeartbeat.update

/-- The slot names a task that is queued. -/
theorem heartbeat_not_slotPointers :
    (slotRuns demoEnvironment (fun _ _ _ => True)).Reachable ⟨demoStale, []⟩ ∧
      ¬ SlotPointers demoStale := by
  constructor
  · have hread := reachable_demoHeartbeat (fun _ _ _ => True)
    have hreclaimed := hread.step (.operation (.reclaimDispatch (eq_ok_value _ reclaim_dispatchedDb)))
    exact hreclaimed.step (@SlotStep.write _ _ _ [] [] demoAgentId demoHeartbeat trivial)
  · intro hpointers
    have hagent : (demoStale.agents.row demoAgentId).map Agent.activeTaskId =
        some (some demoTaskId) := by decide +kernel
    have htask : (demoStale.tasks.row demoTaskId).map (fun task => task.status.holdsSlot) =
        some false := by decide +kernel
    obtain ⟨agent, hrow, hslot⟩ := Option.map_eq_some_iff.mp hagent
    obtain ⟨task, htaskRow, -, hheld⟩ := (hpointers demoAgentId agent hrow).1 demoTaskId hslot
    rw [htaskRow, Option.map_some, hheld] at htask
    cases htask

end AnvilRun.SlotPointer
