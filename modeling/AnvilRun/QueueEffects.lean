import AnvilRun.TaskMoves

namespace AnvilRun.QueueEffects

open AnvilRun.AgentRegistry
open AnvilRun.ExecutionSlot
open AnvilRun.Fallible
open AnvilRun.TaskDatabase
open AnvilRun.TaskMoves
open AnvilRun.TaskQueue
open AnvilRun.TasksService
open AnvilRun.ValidationPrimitives

/-- The agent is enabled and online. -/
def Online (db : Db) (agentId : Id) : Prop :=
  ∃ agent, db.agents.row agentId = some agent ∧ agent.enabled = true ∧ agent.status = .online

/-- The agent is enabled and online, and its slot is free. -/
def Available (db : Db) (agentId : Id) : Prop :=
  ∃ agent, db.agents.row agentId = some agent ∧ agent.enabled = true ∧ agent.status = .online ∧
    agent.activeTaskId = none

/-- The task waits for the agent, and the connection of the agent can do it. -/
def WaitingRow (registry : Registry) (agentId : Id) (task : BuildTask) : Prop :=
  task.agentId = agentId ∧ task.status = .waitingAgent ∧
    (task.interactiveInputEnabled && !registry.hasCapability agentId taskInputCapability) = false

def QueuedRow (agentId : Id) (task : BuildTask) : Prop :=
  task.agentId = agentId ∧ task.status = .queued

def Waiting (registry : Registry) (db : Db) (agentId taskId : Id) : Prop :=
  ∃ task, db.tasks.row taskId = some task ∧ WaitingRow registry agentId task

def Queued (db : Db) (agentId taskId : Id) : Prop :=
  ∃ task, db.tasks.row taskId = some task ∧ QueuedRow agentId task

/-- No task of the agent begins to wait or enters the queue, and the agent does not become
available. -/
structure Quiet (registry : Registry) (agentId : Id) (db db' : Db) : Prop where
  available : Available db' agentId → Available db agentId
  waiting : ∀ taskId, Waiting registry db' agentId taskId → Waiting registry db agentId taskId
  queued : ∀ taskId, Queued db' agentId taskId → Queued db agentId taskId

variable {env : Environment} {registry : Registry} {now : Time} {db db' db'' : Db}
  {agentId taskId k : Id} {task task' : BuildTask}

theorem Available.online (h : Available db agentId) : Online db agentId := by
  obtain ⟨agent, hagent, henabled, honline, -⟩ := h
  exact ⟨agent, hagent, henabled, honline⟩

theorem Quiet.refl : Quiet registry agentId db db :=
  ⟨id, fun _ => id, fun _ => id⟩

theorem Quiet.trans (h : Quiet registry agentId db db') (h' : Quiet registry agentId db' db'') :
    Quiet registry agentId db db'' where
  available := h.available ∘ h'.available
  waiting := fun taskId => h.waiting taskId ∘ h'.waiting taskId
  queued := fun taskId => h.queued taskId ∘ h'.queued taskId

/-- Only the row that changes can begin to wait. -/
theorem waiting_of_change (h : TaskChange db db' taskId task task')
    (hrow : WaitingRow registry agentId task' → WaitingRow registry agentId task) :
    Waiting registry db' agentId k → Waiting registry db agentId k := by
  rintro ⟨row, hk, hwaiting⟩
  by_cases heq : k = taskId
  · subst heq
    rw [h.after] at hk
    obtain rfl := Option.some.inj hk
    exact ⟨task, h.before, hrow hwaiting⟩
  · rw [h.others k heq] at hk
    exact ⟨row, hk, hwaiting⟩

theorem queued_of_change (h : TaskChange db db' taskId task task')
    (hrow : QueuedRow agentId task' → QueuedRow agentId task) :
    Queued db' agentId k → Queued db agentId k := by
  rintro ⟨row, hk, hqueued⟩
  by_cases heq : k = taskId
  · subst heq
    rw [h.after] at hk
    obtain rfl := Option.some.inj hk
    exact ⟨task, h.before, hrow hqueued⟩
  · rw [h.others k heq] at hk
    exact ⟨row, hk, hqueued⟩

theorem Quiet.change (h : TaskChange db db' taskId task task')
    (hwaiting : WaitingRow registry agentId task' → WaitingRow registry agentId task)
    (hqueued : QueuedRow agentId task' → QueuedRow agentId task) :
    Quiet registry agentId db db' where
  available := by
    rintro ⟨agent, hagent, hfields⟩
    rw [h.agents] at hagent
    exact ⟨agent, hagent, hfields⟩
  waiting := fun _ => waiting_of_change h hwaiting
  queued := fun _ => queued_of_change h hqueued

/-- A change of the agents alone. -/
theorem Quiet.agents (htasks : db'.tasks = db.tasks)
    (h : Available db' agentId → Available db agentId) : Quiet registry agentId db db' where
  available := h
  waiting := by
    rintro k ⟨row, hk, hwaiting⟩
    rw [htasks] at hk
    exact ⟨row, hk, hwaiting⟩
  queued := by
    rintro k ⟨row, hk, hqueued⟩
    rw [htasks] at hk
    exact ⟨row, hk, hqueued⟩

/-- An update of an agent that it leaves unavailable, if it is the one that is looked at. -/
theorem quiet_setAgent {owner : Id} {f : Agent → Agent}
    (h : ∀ agent, (f agent).status = .online → (f agent).activeTaskId = none → False) :
    Quiet registry agentId db (db.setAgent owner f) := by
  refine .agents rfl ?_
  rintro ⟨agent, hagent, henabled, honline, hfree⟩
  change (db.agents.modify owner f).row agentId = some agent at hagent
  rw [Table.modify_row] at hagent
  split at hagent
  · obtain ⟨old, -, rfl⟩ := Option.map_eq_some_iff.mp hagent
    exact (h old honline hfree).elim
  · exact ⟨agent, hagent, henabled, honline, hfree⟩

/-- A transition to any status but those of the queue. -/
theorem quiet_transition {next : BuildTaskStatus} {source : TaskStatusSource}
    {reason : Option JsString} {data : TransitionData}
    (h : transition now db taskId next source reason data = .ok db')
    (hwaiting : next ≠ .waitingAgent) (hqueued : next ≠ .queued) :
    Quiet registry agentId db db' := by
  obtain ⟨task, hrow, -⟩ := transition_eq_ok.mp h
  rcases taskChange_transition h hrow with ⟨-, rfl⟩ | ⟨-, hchange⟩
  · exact .refl
  · exact .change hchange (fun h => absurd h.2.1 hwaiting) (fun h => absurd h.2 hqueued)

theorem quiet_updateTask {set : BuildTask → BuildTask}
    (hset : ∀ task, (set task).interactiveInputEnabled = task.interactiveInputEnabled) :
    Quiet registry agentId db (db.updateTask now taskId set) := by
  cases hrow : db.tasks.row taskId with
  | none =>
      have hsame : ∀ k, (db.updateTask now taskId set).tasks.row k = db.tasks.row k := by
        intro k
        show (db.tasks.modify taskId _).row k = _
        rw [Table.modify_row]
        split
        · rename_i heq
          rw [heq, hrow]
          rfl
        · rfl
      refine ⟨id, ?_, ?_⟩
      · rintro k ⟨row, hk, hwaiting⟩
        exact ⟨row, (hsame k).symm.trans hk, hwaiting⟩
      · rintro k ⟨row, hk, hqueued⟩
        exact ⟨row, (hsame k).symm.trans hk, hqueued⟩
  | some task =>
      refine .change (taskChange_updateTask hrow) (fun h => ?_) id
      refine ⟨h.1, h.2.1, ?_⟩
      rw [← hset task]
      exact h.2.2

/-- What is done on behalf of another agent. -/
theorem quiet_of_moves {careless dispatches : Prop} {owner : Id} (hother : agentId ≠ owner)
    (h : Moves owner careless dispatches db db') : Quiet registry agentId db db' := by
  induction h with
  | refl => exact .refl
  | @tail before last _ hmove ih =>
      refine ih.trans ?_
      cases hmove with
      | status hrow howner _ _ _ =>
          refine .change (taskChange_setStatus hrow) (fun h => ?_) (fun h => ?_)
          · exact absurd (h.1.symm.trans howner) hother
          · exact absurd (h.1.symm.trans howner) hother
      | task hrow howner _ =>
          refine .change (taskChange_updateTask hrow) (fun h => ?_) (fun h => ?_)
          · exact absurd (h.1.symm.trans howner) hother
          · exact absurd (h.1.symm.trans howner) hother
      | @agent _ f =>
          refine .agents rfl ?_
          rintro ⟨agent, hagent, hfields⟩
          refine ⟨agent, ?_, hfields⟩
          rw [← hagent]
          exact (Table.modify_row_of_ne _ hother f).symm
      | @create _ k task tasks source reason now hinsert howner hcanonical hcreated hrecovery =>
          have hold : ∀ {j : Id} {row : BuildTask}, tasks.row j = some row →
              row.agentId = agentId → before.tasks.row j = some row := by
            intro j row hj hrow
            rw [Table.insert_row hinsert] at hj
            split at hj
            · obtain rfl := Option.some.inj hj
              exact absurd (hrow.symm.trans howner) hother
            · exact hj
          refine ⟨id, ?_, ?_⟩
          · rintro j ⟨row, hj, hwaiting⟩
            exact ⟨row, hold hj hwaiting.1, hwaiting⟩
          · rintro j ⟨row, hj, hqueued⟩
            exact ⟨row, hold hj hqueued.1, hqueued⟩

/-! The operations that nothing is called after -/

theorem accept_quiet {taskId leaseToken : JsString} {owner : Id}
    (h : accept env now db owner taskId leaseToken = .ok db') :
    Quiet registry agentId db db' := by
  simp only [accept, bind_eq_ok, require_eq_ok, ensure_eq_ok] at h
  obtain ⟨agent, -, -, -, task, -, -, -, -, -, -, -, h⟩ := h
  split at h
  · obtain rfl := pure_eq_ok.mp h
    exact .refl
  · simp only [bind_eq_ok, ensure_eq_ok] at h
    obtain ⟨-, -, h⟩ := h
    exact quiet_transition h BuildTaskStatus.noConfusion BuildTaskStatus.noConfusion

theorem reportTaskStatus_quiet {owner : Id} {message : TaskStatusMessage}
    (h : reportTaskStatus env now db owner message = .ok db') :
    Quiet registry agentId db db' := by
  simp only [reportTaskStatus, bind_eq_ok, require_eq_ok, ensure_eq_ok] at h
  obtain ⟨agent, -, -, -, task, -, -, -, -, -, -, -, -, -, h⟩ := h
  split at h
  · obtain rfl := pure_eq_ok.mp h
    split
    · exact quiet_updateTask fun _ => rfl
    · exact .refl
  · simp only [bind_eq_ok, ensure_eq_ok] at h
    obtain ⟨-, hexpected, h⟩ := h
    refine quiet_transition h ?_ ?_
    · intro hstatus
      rw [hstatus] at hexpected
      cases hexpected
    · intro hstatus
      rw [hstatus] at hexpected
      cases hexpected

/-- The slot holds only a task that is in a status for it. -/
def SlotFresh (db : Db) (task : BuildTask) (taskId : Id) : Prop :=
  activeTask db task.agentId = some taskId → task.status.holdsSlot = true

theorem requestCancellation_quiet {tokens : Id → Option JsString} {taskId : JsString}
    {reason : Option JsString} {outcome : CancellationOutcome}
    (hfresh : ∀ task, db.findTask taskId = some task → SlotFresh db task (asciiLower taskId))
    (h : requestCancellation now tokens db taskId reason = .ok (outcome, db')) :
    Quiet registry agentId db db' := by
  simp only [requestCancellation, bind_eq_ok, require_eq_ok] at h
  obtain ⟨task, htask, agent, hagent, task', htask', h⟩ := h
  obtain rfl : task = task' := Option.some.inj (htask.symm.trans htask')
  have hslot : task.status.holdsSlot = false → agent.activeTaskId ≠ some (asciiLower taskId) := by
    intro hidle hactive
    rw [← activeTask_of_lockAgent hagent] at hactive
    exact Bool.false_ne_true (hidle.symm.trans (hfresh task htask hactive))
  split at h
  · exact (throw_eq_ok.mp h).elim
  split at h
  · rename_i hcanceled
    simp only [pure_eq_ok, Prod.mk.injEq] at h
    obtain ⟨-, rfl⟩ := h
    rw [if_neg (hslot (by rw [hcanceled]; rfl))]
    exact .refl
  split at h
  · rename_i hwaits
    have hidle : task.status.holdsSlot = false := by
      rcases hwaits with hstatus | hstatus | hstatus
      · rw [hstatus]
        rfl
      · rw [hstatus]
        rfl
      · rw [hstatus]
        rfl
    simp only [bind_eq_ok, pure_eq_ok, Prod.mk.injEq] at h
    obtain ⟨between, hcanceling, last, hcanceled, -, rfl⟩ := h
    rw [if_neg (hslot hidle)]
    exact (quiet_transition hcanceling BuildTaskStatus.noConfusion
      BuildTaskStatus.noConfusion).trans
        (quiet_transition hcanceled BuildTaskStatus.noConfusion BuildTaskStatus.noConfusion)
  · simp only [bind_eq_ok, ensure_eq_ok] at h
    obtain ⟨-, -, h⟩ := h
    split at h
    · simp only [bind_eq_ok, pure_eq_ok, Prod.mk.injEq] at h
      obtain ⟨last, hcanceling, -, rfl⟩ := h
      exact quiet_transition hcanceling BuildTaskStatus.noConfusion BuildTaskStatus.noConfusion
    · simp only [bind_eq_ok, pure_eq_ok, Prod.mk.injEq] at h
      obtain ⟨last, rfl, -, rfl⟩ := h
      split
      · exact quiet_updateTask fun _ => rfl
      · exact .refl

theorem reconcileInterruptedTask_quiet {registry' : Registry} {owner taskId : Id}
    {status : BuildTaskStatus}
    (h : reconcileInterruptedTask registry' now db owner taskId status = .ok db') :
    Quiet registry agentId db db' := by
  rw [reconcileInterruptedTask] at h
  split at h
  · obtain rfl := Except.ok.inj h
    exact .refl
  split at h
  · obtain rfl := Except.ok.inj h
    exact .refl
  split at h
  · obtain rfl := Except.ok.inj h
    exact .refl
  split at h
  · obtain rfl := Except.ok.inj h
    exact .refl
  simp only [bind_eq_ok, pure_eq_ok] at h
  obtain ⟨last, hlost, rfl⟩ := h
  refine (quiet_transition hlost BuildTaskStatus.noConfusion BuildTaskStatus.noConfusion).trans ?_
  split
  · exact .refl
  · exact quiet_setAgent fun _ honline _ => AgentStatus.noConfusion honline

theorem reclaimCancellation_quiet {owner taskId : Id} {given : Bool}
    (h : reclaimCancellation now db owner taskId = .ok (given, db')) :
    Quiet registry agentId db db' := by
  rw [reclaimCancellation.eq_def] at h
  dsimp only at h
  split at h
  · split at h
    · simp only [bind_eq_ok, pure_eq_ok, Prod.mk.injEq] at h
      obtain ⟨last, hfailed, -, rfl⟩ := h
      refine (quiet_transition hfailed BuildTaskStatus.noConfusion
        BuildTaskStatus.noConfusion).trans ?_
      split
      · exact quiet_setAgent fun _ honline _ => AgentStatus.noConfusion honline
      · exact .refl
    · obtain ⟨-, rfl⟩ := Prod.mk.inj (Except.ok.inj h)
      exact .refl
  · obtain ⟨-, rfl⟩ := Prod.mk.inj (Except.ok.inj h)
    exact .refl

theorem claimLoop_quiet {tokens : Nat → JsString} {owner : Id} {agent : Agent}
    {requested : Option Id} {outcome : ClaimOutcome} (attempts : Nat) :
    ∀ (terminal : List Id) (db : Db),
      claimLoop env registry now tokens owner agent requested attempts terminal db =
        .ok (outcome, db') → Quiet registry agentId db db' := by
  induction attempts with
  | zero =>
      intro terminal db h
      obtain ⟨-, rfl⟩ := Prod.mk.inj (Except.ok.inj h)
      exact .refl
  | succ attempts ih =>
      intro terminal db h
      rw [claimLoop] at h
      split at h
      · obtain ⟨-, rfl⟩ := Prod.mk.inj (Except.ok.inj h)
        exact .refl
      rename_i taskId task hfirst
      obtain ⟨hrow, howner, hqueued⟩ := SlotPreservation.firstQueued_row hfirst
      have hskip : ∀ {reason : JsString} {next : Db},
          failUndispatchable now db taskId reason = .ok next →
          claimLoop env registry now tokens owner agent requested attempts
            (terminal ++ [taskId]) next = .ok (outcome, db') → Quiet registry agentId db db' := by
        intro reason next hfail hrest
        simp only [failUndispatchable, bind_eq_ok] at hfail
        obtain ⟨between, hdispatched, hfailed⟩ := hfail
        exact ((quiet_transition hdispatched BuildTaskStatus.noConfusion
          BuildTaskStatus.noConfusion).trans (quiet_transition hfailed BuildTaskStatus.noConfusion
            BuildTaskStatus.noConfusion)).trans (ih _ _ hrest)
      simp only [bind_eq_ok, require_eq_ok] at h
      obtain ⟨project, -, template, -, h⟩ := h
      split at h
      · simp only [bind_eq_ok] at h
        obtain ⟨next, hfail, hrest⟩ := h
        exact hskip hfail hrest
      split at h
      · rename_i hincapable
        simp only [bind_eq_ok, pure_eq_ok, Prod.mk.injEq] at h
        obtain ⟨next, htransition, -, rfl⟩ := h
        rcases taskChange_transition htransition hrow with ⟨-, rfl⟩ | ⟨-, hchange⟩
        · exact .refl
        · refine .change hchange (fun hwaiting => ?_) (fun h => BuildTaskStatus.noConfusion h.2)
          -- the task waits for a connection that can do it
          obtain ⟨hagent, -, hcapable⟩ := hwaiting
          obtain rfl : owner = agentId := howner.symm.trans hagent
          exact absurd (hcapable.symm.trans hincapable) Bool.false_ne_true
      split at h
      · simp only [bind_eq_ok] at h
        obtain ⟨next, hfail, hrest⟩ := h
        exact hskip hfail hrest
      · simp only [bind_eq_ok, pure_eq_ok, Prod.mk.injEq] at h
        obtain ⟨next, htransition, -, rfl⟩ := h
        refine (quiet_transition htransition BuildTaskStatus.noConfusion
          BuildTaskStatus.noConfusion).trans (quiet_setAgent ?_)
        intro agent _ hfree
        cases hfree

theorem claimInTransaction_quiet {tokens : Nat → JsString} {owner : Id}
    {requested : Option JsString} {outcome : ClaimOutcome}
    (h : claimInTransaction env registry now tokens db owner requested = .ok (outcome, db')) :
    Quiet registry agentId db db' := by
  simp only [claimInTransaction, bind_eq_ok, require_eq_ok, ensure_eq_ok] at h
  obtain ⟨agent, -, -, -, -, -, h⟩ := h
  split at h
  · obtain ⟨-, rfl⟩ := Prod.mk.inj (pure_eq_ok.mp h)
    exact .refl
  · exact claimLoop_quiet _ _ _ h

/-! The operations that free a slot, or take a task from the queue -/

/-- The slot of an agent does not say whether it is online. -/
theorem Online.of_setActiveTask {owner : Id} {slot : Option Id}
    (h : Online (db.setActiveTask owner slot) agentId) : Online db agentId := by
  obtain ⟨agent, hagent, henabled, honline⟩ := h
  change (db.agents.modify owner _).row agentId = some agent at hagent
  rw [Table.modify_row] at hagent
  split at hagent
  · obtain ⟨old, hold, rfl⟩ := Option.map_eq_some_iff.mp hagent
    exact ⟨old, hold, henabled, honline⟩
  · exact ⟨agent, hagent, henabled, honline⟩

theorem Online.of_transition {next : BuildTaskStatus} {source : TaskStatusSource}
    {reason : Option JsString} {data : TransitionData}
    (h : transition now db taskId next source reason data = .ok db') (honline : Online db' agentId) :
    Online db agentId := by
  obtain ⟨agent, hagent, hfields⟩ := honline
  rw [transition_agents h] at hagent
  exact ⟨agent, hagent, hfields⟩

theorem waiting_of_transition {next : BuildTaskStatus} {source : TaskStatusSource}
    {reason : Option JsString} {data : TransitionData}
    (h : transition now db taskId next source reason data = .ok db')
    (hnext : next ≠ .waitingAgent) (hwaiting : Waiting registry db' agentId k) :
    Waiting registry db agentId k := by
  obtain ⟨task, hrow, -⟩ := transition_eq_ok.mp h
  rcases taskChange_transition h hrow with ⟨-, rfl⟩ | ⟨-, hchange⟩
  · exact hwaiting
  · exact waiting_of_change hchange (fun h => absurd h.2.1 hnext) hwaiting

theorem moveDispatchedToWaiting_online {reason : JsString}
    (h : moveDispatchedToWaiting now db taskId reason = .ok db') (honline : Online db' agentId) :
    Online db agentId := by
  simp only [moveDispatchedToWaiting, bind_eq_ok] at h
  obtain ⟨between, hqueued, hwaiting⟩ := h
  exact (honline.of_transition hwaiting).of_transition hqueued

/-- The end of a connection does not bring its agent online. -/
theorem disconnectTask_online {preserved : Bool}
    (h : disconnectTask now db agentId taskId = .ok (preserved, db')) (honline : Online db' k) :
    Online db k := by
  rw [disconnectTask] at h
  split at h
  · obtain ⟨-, rfl⟩ := Prod.mk.inj (Except.ok.inj h)
    exact honline
  split at h
  · obtain ⟨-, rfl⟩ := Prod.mk.inj (Except.ok.inj h)
    exact honline
  split at h
  · obtain ⟨-, rfl⟩ := Prod.mk.inj (Except.ok.inj h)
    exact honline
  split at h
  · simp only [bind_eq_ok, pure_eq_ok, Prod.mk.injEq] at h
    obtain ⟨last, htransition, -, rfl⟩ := h
    exact honline.of_transition htransition
  split at h
  · simp only [bind_eq_ok, pure_eq_ok, Prod.mk.injEq] at h
    obtain ⟨last, hmoved, -, rfl⟩ := h
    exact moveDispatchedToWaiting_online hmoved honline.of_setActiveTask
  split at h
  · simp only [bind_eq_ok, pure_eq_ok, Prod.mk.injEq] at h
    obtain ⟨last, htransition, -, rfl⟩ := h
    exact honline.of_transition htransition
  split at h
  · obtain ⟨-, rfl⟩ := Prod.mk.inj (Except.ok.inj h)
    exact honline
  · obtain ⟨-, rfl⟩ := Prod.mk.inj (Except.ok.inj h)
    exact honline

/-- A reclaimed dispatch goes back to the queue, or its agent is not there. -/
theorem reclaimDispatch_effect {result : Option BuildTaskStatus}
    (h : reclaimDispatch registry now db agentId taskId = .ok (result, db')) :
    db' = db ∨
      result = some .queued ∧ (∀ k, Waiting registry db' agentId k → Waiting registry db agentId k) ∧
        (Online db' agentId → Online db agentId) ∨
      ¬ (Online db' agentId ∧ registry.isReady agentId = true) := by
  rw [reclaimDispatch.eq_def] at h
  dsimp only at h
  split at h
  case h_2 =>
    obtain ⟨-, rfl⟩ := Prod.mk.inj (Except.ok.inj h)
    exact Or.inl rfl
  rename_i agent task hagent hrow
  split at h
  · obtain ⟨-, rfl⟩ := Prod.mk.inj (Except.ok.inj h)
    exact Or.inl rfl
  split at h
  · simp only [bind_eq_ok, pure_eq_ok, Prod.mk.injEq] at h
    obtain ⟨last, htransition, rfl, rfl⟩ := h
    refine Or.inr (Or.inl ⟨rfl, fun k hwaiting => ?_, fun honline => ?_⟩)
    · exact waiting_of_transition htransition BuildTaskStatus.noConfusion hwaiting
    · exact honline.of_setActiveTask.of_transition htransition
  · rename_i hoffline
    simp only [bind_eq_ok, pure_eq_ok, Prod.mk.injEq] at h
    obtain ⟨last, hmoved, -, rfl⟩ := h
    refine Or.inr (Or.inr ?_)
    rintro ⟨honline, hready⟩
    obtain ⟨agent', hagent', henabled, hstatus⟩ :=
      moveDispatchedToWaiting_online hmoved honline.of_setActiveTask
    obtain rfl : agent = agent' := Option.some.inj (hagent.symm.trans hagent')
    exact hoffline ⟨henabled, hstatus, hready⟩

theorem reclaimRecovery_effect {given : Bool}
    (h : reclaimRecovery now db agentId taskId = .ok (given, db')) :
    db' = db ∨
      given = true ∧ (∀ k, Waiting registry db' agentId k → Waiting registry db agentId k) ∧
        (Online db' agentId → Online db agentId) := by
  rw [reclaimRecovery.eq_def] at h
  split at h
  · split at h
    · simp only [bind_eq_ok, pure_eq_ok, Prod.mk.injEq] at h
      obtain ⟨last, htransition, rfl, rfl⟩ := h
      refine Or.inr ⟨rfl, fun k hwaiting => ?_, fun honline => ?_⟩
      · refine waiting_of_transition htransition BuildTaskStatus.noConfusion ?_
        split at hwaiting
        · exact hwaiting
        · exact hwaiting
      · refine Online.of_transition htransition ?_
        split at honline
        · exact honline.of_setActiveTask
        · exact honline
    · obtain ⟨-, rfl⟩ := Prod.mk.inj (Except.ok.inj h)
      exact Or.inl rfl
  · obtain ⟨-, rfl⟩ := Prod.mk.inj (Except.ok.inj h)
    exact Or.inl rfl

theorem failRejectedCompletion_effect {message : TaskCompletedMessage} {failed : Bool}
    (h : failRejectedCompletion env now db agentId message = .ok (failed, db')) :
    failed = true ∨ db' = db := by
  rw [failRejectedCompletion.eq_def] at h
  dsimp only at h
  split at h
  · split at h
    · simp only [bind_eq_ok, pure_eq_ok, Prod.mk.injEq] at h
      obtain ⟨last, -, rfl, -⟩ := h
      exact Or.inl rfl
    · obtain ⟨-, rfl⟩ := Prod.mk.inj (Except.ok.inj h)
      exact Or.inr rfl
  · obtain ⟨-, rfl⟩ := Prod.mk.inj (Except.ok.inj h)
    exact Or.inr rfl

/-- What the creation of a task leaves: one more task, in the queue if the agent was ready. -/
theorem createTask_effect {request : CreateTaskRequest} {created : Id}
    (h : createTask env registry now db request = .ok (created, db')) :
    db' = db ∨ ∃ project template task, existingTask db request = none ∧
      db.projects.row request.projectId = some project ∧
      db.templates.row project.buildTemplateId = some template ∧
      db'.agents = db.agents ∧ db.tasks.row created = none ∧ db'.tasks.row created = some task ∧
      (∀ k, k ≠ created → db'.tasks.row k = db.tasks.row k) ∧
      task.agentId = template.agentId ∧
      task.interactiveInputEnabled = template.interactiveInputEnabled ∧
      task.status = if registry.isReady template.agentId then .queued else .waitingAgent := by
  rw [createTask] at h
  split at h
  · obtain ⟨-, rfl⟩ := Prod.mk.inj (Except.ok.inj h)
    exact Or.inl rfl
  rename_i hnew
  simp only [bind_eq_ok, require_eq_ok, ensure_eq_ok, pure_eq_ok, Prod.mk.injEq] at h
  obtain ⟨project, hproject, -, -, template, htemplate, -, -, agent, -, -, -, schema, -, config, -,
    inputFiles, -, tasks, hinsert, next, hinitial, rfl, rfl⟩ := h
  refine Or.inr ⟨project, template, ?_⟩
  have hrow := (Table.insert_row hinsert request.newTaskId).trans (if_pos rfl)
  rw [createInitial, if_neg (by split <;> exact BuildTaskStatus.noConfusion)] at hinitial
  rcases taskChange_transition hinitial hrow with ⟨hsame, -⟩ | ⟨-, hchange⟩
  · split at hsame
    · cases hsame
    · cases hsame
  · refine ⟨_, hnew, hproject, htemplate, hchange.agents, Table.insert_fresh hinsert, hchange.after, ?_,
      rfl, rfl, rfl⟩
    intro k hk
    exact (hchange.others k hk).trans ((Table.insert_row hinsert k).trans (if_neg hk))

/-! The waiting tasks enter the queue -/

theorem transition_of_idle {next : BuildTaskStatus} {source : TaskStatusSource}
    {reason : Option JsString} {data : TransitionData} (hrow : db.tasks.row taskId = some task)
    (hcan : task.status.canTransition next = true) (hidle : next.holdsSlot = false) :
    transition now db taskId next source reason data =
      .ok (db.setStatus now taskId task.status next source reason data) := by
  refine transition_eq_ok.mpr ⟨task, hrow, Or.inr ⟨hcan, ?_, rfl⟩⟩
  rintro ⟨hheld, -⟩
  exact Bool.false_ne_true (hidle.symm.trans hheld)

/-- A task that `onAgentReady` found is still waiting, or in the queue already. -/
def StillWaiting (agentId : Id) (db : Db) (entry : Id × BuildTask) : Prop :=
  ∃ task, db.tasks.row entry.1 = some task ∧ task.agentId = agentId ∧
    (task.status = .waitingAgent ∨ task.status = .queued) ∧
    task.interactiveInputEnabled = entry.2.interactiveInputEnabled

theorem queued_setStatus {old : BuildTaskStatus} {source : TaskStatusSource}
    {reason : Option JsString} {data : TransitionData}
    (hset : ∀ task, (data.set task).interactiveInputEnabled = task.interactiveInputEnabled)
    (hrow : db.tasks.row taskId = some task) :
    (∀ other, StillWaiting agentId db other →
      StillWaiting agentId (db.setStatus now taskId old .queued source reason data) other) ∧
    ∀ k, Waiting registry (db.setStatus now taskId old .queued source reason data) agentId k →
      Waiting registry db agentId k ∧ taskId ≠ k := by
  have hchange : TaskChange db (db.setStatus now taskId old .queued source reason data) taskId task
      (data.write now .queued reason task) := taskChange_setStatus hrow
  constructor
  · rintro other ⟨row, hother, howner, hstatus, hsame⟩
    by_cases heq : other.1 = taskId
    · rw [heq] at hother
      obtain rfl : task = row := Option.some.inj (hrow.symm.trans hother)
      refine ⟨data.write now .queued reason task, ?_, howner, Or.inr rfl, (hset task).trans hsame⟩
      rw [heq]
      exact hchange.after
    · exact ⟨row, (hchange.others _ heq).trans hother, howner, hstatus, hsame⟩
  · intro k hwaiting
    refine ⟨waiting_of_change hchange (fun h => BuildTaskStatus.noConfusion h.2.1) hwaiting, ?_⟩
    rintro rfl
    obtain ⟨row, hrow', -, hstill, -⟩ := hwaiting
    obtain rfl := Option.some.inj (hchange.after.symm.trans hrow')
    cases hstill

theorem queueWaitingTask_ok {entry : Id × BuildTask} (h : StillWaiting agentId db entry) :
    ∃ db', queueWaitingTask registry now agentId db entry = .ok db' ∧
      (∀ other, StillWaiting agentId db other → StillWaiting agentId db' other) ∧
      ∀ k, Waiting registry db' agentId k → Waiting registry db agentId k ∧ entry.1 ≠ k := by
  obtain ⟨task, hrow, howner, hstatus, hinteractive⟩ := h
  rw [queueWaitingTask]
  split
  · rename_i hincapable
    refine ⟨db, rfl, fun _ => id, fun k hwaiting => ⟨hwaiting, ?_⟩⟩
    rintro rfl
    obtain ⟨row, hrow', -, -, hcapable⟩ := hwaiting
    obtain rfl : task = row := Option.some.inj (hrow.symm.trans hrow')
    rw [hinteractive, hincapable] at hcapable
    cases hcapable
  · rename_i hcapable
    rcases hstatus with hwaits | hqueued
    · have hcan : task.status.canTransition .queued = true := by
        rw [hwaits]
        rfl
      exact ⟨_, transition_of_idle hrow hcan rfl, queued_setStatus (fun _ => rfl) hrow⟩
    · refine ⟨db, transition_eq_ok.mpr ⟨task, hrow, Or.inl ⟨hqueued, rfl⟩⟩, fun _ => id, ?_⟩
      intro k hwaiting
      refine ⟨hwaiting, ?_⟩
      rintro rfl
      obtain ⟨row, hrow', -, hstill, -⟩ := hwaiting
      obtain rfl : task = row := Option.some.inj (hrow.symm.trans hrow')
      rw [hqueued] at hstill
      cases hstill

theorem queueWaitingTasks_ok (entries : List (Id × BuildTask)) :
    ∀ db, (∀ entry ∈ entries, StillWaiting agentId db entry) →
      ∃ db', entries.foldlM (queueWaitingTask registry now agentId) db = .ok db' ∧
        ∀ k, Waiting registry db' agentId k →
          Waiting registry db agentId k ∧ ∀ entry ∈ entries, entry.1 ≠ k := by
  induction entries with
  | nil =>
      intro db _
      refine ⟨db, rfl, fun k hwaiting => ⟨hwaiting, ?_⟩⟩
      intro entry hentry
      cases hentry
  | cons entry entries ih =>
      intro db h
      obtain ⟨next, hfirst, hstill, hleft⟩ :=
        @queueWaitingTask_ok registry now db agentId entry (h entry List.mem_cons_self)
      obtain ⟨last, hrest, hrestLeft⟩ :=
        ih next fun other hother => hstill other (h other (List.mem_cons_of_mem _ hother))
      refine ⟨last, ?_, fun k hwaiting => ?_⟩
      · rw [List.foldlM_cons, hfirst]
        exact hrest
      · obtain ⟨hbetween, hothers⟩ := hrestLeft k hwaiting
        obtain ⟨hold, hthis⟩ := hleft k hbetween
        refine ⟨hold, ?_⟩
        rintro other hother
        rcases List.mem_cons.mp hother with rfl | hmem
        · exact hthis
        · exact hothers other hmem

/-- `onAgentReady` never fails. No task that the connection can do waits for an available agent
after it. -/
theorem onAgentReady_effect (registry : Registry) (now : Time) (db : Db) (agentId : Id) :
    ∃ ready db', onAgentReady registry now db agentId = .ok (ready, db') ∧
      (ready = false ∧ db' = db ∧ ¬ Available db agentId ∨
        ready = true ∧ ∀ k, ¬ Waiting registry db' agentId k) := by
  rw [onAgentReady]
  split
  · rename_i hnone
    refine ⟨false, db, rfl, Or.inl ⟨rfl, rfl, ?_⟩⟩
    rintro ⟨agent, hagent, -⟩
    cases hnone.symm.trans hagent
  rename_i agent hagent
  split
  · rename_i hoffline
    refine ⟨false, db, rfl, Or.inl ⟨rfl, rfl, ?_⟩⟩
    rintro ⟨agent', hagent', henabled, honline, -⟩
    obtain rfl : agent = agent' := Option.some.inj (hagent.symm.trans hagent')
    rcases hoffline with hdisabled | hoffline
    · exact Bool.false_ne_true (hdisabled.symm.trans henabled)
    · exact hoffline honline
  split
  · rename_i hbusy
    refine ⟨false, db, rfl, Or.inl ⟨rfl, rfl, ?_⟩⟩
    rintro ⟨agent', hagent', -, -, hfree⟩
    obtain rfl : agent = agent' := Option.some.inj (hagent.symm.trans hagent')
    exact hbusy hfree
  · have hfound : ∀ entry ∈ tasksInStatus db agentId .waitingAgent,
        StillWaiting agentId db entry := by
      rintro ⟨k, task⟩ hentry
      obtain ⟨hrow, howner, hstatus⟩ := SlotPreservation.mem_tasksInStatus.mp hentry
      exact ⟨task, hrow, howner, Or.inl hstatus, rfl⟩
    obtain ⟨db', hrun, hleft⟩ := queueWaitingTasks_ok _ db hfound
    refine ⟨true, db', ?_, Or.inr ⟨rfl, ?_⟩⟩
    · rw [hrun]
      rfl
    · intro k hwaiting
      obtain ⟨⟨task, hrow, howner, hstatus, -⟩, hnone⟩ := hleft k hwaiting
      exact hnone (k, task) (SlotPreservation.mem_tasksInStatus.mpr ⟨hrow, howner, hstatus⟩) rfl

end AnvilRun.QueueEffects
