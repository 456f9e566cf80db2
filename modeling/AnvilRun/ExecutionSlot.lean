import AnvilRun.ExclusiveSlot
import AnvilRun.TaskDatabase

namespace AnvilRun.ExecutionSlot

open AnvilRun.ExclusiveSlot
open AnvilRun.TaskDatabase

/-- The task in the slot of an agent. -/
def activeTask (db : Db) (agentId : Id) : Option Id :=
  (db.agents.row agentId).bind Agent.activeTaskId

/-- The slots of the agents, as a database describes them. -/
def slots (db : Db) : Slots Id Id where
  active := activeTask db
  owner := fun taskId => (db.tasks.row taskId).map BuildTask.agentId
  holds := fun taskId => ∃ task, db.tasks.row taskId = some task ∧ task.status.holdsSlot = true

/-- A task has a lease as long as it holds a slot. -/
def LeaseKept (task : BuildTask) : Prop :=
  (task.status.holdsSlot = true → task.leaseHash ≠ none ∧ task.leaseExpiresAt ≠ none) ∧
    (task.status.holdsSlot = false → task.leaseHash = none)

structure SlotInvariant (db : Db) : Prop where
  consistent : (slots db).Consistent
  leases : ∀ taskId task, db.tasks.row taskId = some task → LeaseKept task

/-- Only the row of one task has changed, and not its agent. -/
structure TaskChange (db db' : Db) (taskId : Id) (task task' : BuildTask) : Prop where
  agents : db'.agents = db.agents
  before : db.tasks.row taskId = some task
  after : db'.tasks.row taskId = some task'
  others : ∀ k, k ≠ taskId → db'.tasks.row k = db.tasks.row k
  agentId : task'.agentId = task.agentId

variable {db db' db'' : Db} {taskId agentId : Id} {task task' task'' : BuildTask} {agent : Agent}

theorem TaskChange.trans (h : TaskChange db db' taskId task task')
    (h' : TaskChange db' db'' taskId task' task'') : TaskChange db db'' taskId task task'' where
  agents := h'.agents.trans h.agents
  before := h.before
  after := h'.after
  others := fun k hk => (h'.others k hk).trans (h.others k hk)
  agentId := h'.agentId.trans h.agentId

theorem taskChange_modify {f : BuildTask → BuildTask}
    (hrow : db.tasks.row taskId = some task) (hagentId : (f task).agentId = task.agentId)
    (hagents : db'.agents = db.agents) (htasks : db'.tasks = db.tasks.modify taskId f) :
    TaskChange db db' taskId task (f task) where
  agents := hagents
  before := hrow
  after := by rw [htasks, Table.modify_row_self, hrow, Option.map_some]
  others := fun k hk => by rw [htasks, Table.modify_row_of_ne _ hk]
  agentId := hagentId

theorem taskChange_updateTask {now : Time} {set : BuildTask → BuildTask}
    (hrow : db.tasks.row taskId = some task) :
    TaskChange db (db.updateTask now taskId set) taskId task
      { set task with status := task.status, agentId := task.agentId, updatedAt := now } :=
  @taskChange_modify db (db.updateTask now taskId set) taskId task (fun task => { set task with
    status := task.status, agentId := task.agentId, updatedAt := now }) hrow rfl rfl rfl

theorem taskChange_setStatus {now : Time} {old next : BuildTaskStatus} {source : TaskStatusSource}
    {reason : Option JsString} {data : TransitionData} (hrow : db.tasks.row taskId = some task) :
    TaskChange db (db.setStatus now taskId old next source reason data) taskId task
      (data.write now next reason task) :=
  taskChange_modify hrow rfl rfl rfl

/-- A transition changes its task, unless the task has the status already. -/
theorem taskChange_transition {now : Time} {next : BuildTaskStatus} {source : TaskStatusSource}
    {reason : Option JsString} {data : TransitionData}
    (h : transition now db taskId next source reason data = .ok db')
    (hrow : db.tasks.row taskId = some task) :
    task.status = next ∧ db' = db ∨
      task.status.canTransition next = true ∧
        TaskChange db db' taskId task (data.write now next reason task) := by
  obtain ⟨current, hcurrent, hstep⟩ := transition_eq_ok.mp h
  obtain rfl : task = current := Option.some.inj (hrow.symm.trans hcurrent)
  rcases hstep with hsame | ⟨hcan, -, rfl⟩
  · exact Or.inl hsame
  · exact Or.inr ⟨hcan, taskChange_setStatus hrow⟩

theorem transition_agents {now : Time} {next : BuildTaskStatus} {source : TaskStatusSource}
    {reason : Option JsString} {data : TransitionData}
    (h : transition now db taskId next source reason data = .ok db') : db'.agents = db.agents := by
  obtain ⟨task, hrow, -⟩ := transition_eq_ok.mp h
  rcases taskChange_transition h hrow with ⟨-, rfl⟩ | ⟨-, hchange⟩
  · rfl
  · exact hchange.agents

theorem activeTask_of_lockAgent (h : db.lockAgent agentId = some agent) :
    activeTask db agentId = agent.activeTaskId := by
  rw [Db.lockAgent] at h
  rw [activeTask, h, Option.bind_some]

theorem activeTask_setAgent (db : Db) (agentId k : Id) (f : Agent → Agent) :
    activeTask (db.setAgent agentId f) k =
      if k = agentId then ((db.agents.row k).map f).bind Agent.activeTaskId
      else activeTask db k := by
  rw [activeTask, Db.setAgent, Table.modify_row]
  split
  · rfl
  · rfl

theorem TaskChange.owner (h : TaskChange db db' taskId task task') (k : Id) :
    (slots db').owner k = (slots db).owner k := by
  show (db'.tasks.row k).map BuildTask.agentId = (db.tasks.row k).map BuildTask.agentId
  by_cases hk : k = taskId
  · rw [hk, h.after, h.before, Option.map_some, Option.map_some, h.agentId]
  · rw [h.others k hk]

theorem TaskChange.holds (h : TaskChange db db' taskId task task') (k : Id) (hk : k ≠ taskId) :
    (slots db').holds k ↔ (slots db).holds k := by
  show (∃ t, db'.tasks.row k = some t ∧ _) ↔ ∃ t, db.tasks.row k = some t ∧ _
  rw [h.others k hk]

theorem TaskChange.holds_after (h : TaskChange db db' taskId task task') :
    (slots db').holds taskId ↔ task'.status.holdsSlot = true := by
  constructor
  · rintro ⟨t, ht, hholds⟩
    obtain rfl := Option.some.inj (h.after.symm.trans ht)
    exact hholds
  · exact fun hholds => ⟨task', h.after, hholds⟩

theorem TaskChange.holds_before (h : TaskChange db db' taskId task task') :
    (slots db).holds taskId ↔ task.status.holdsSlot = true := by
  constructor
  · rintro ⟨t, ht, hholds⟩
    obtain rfl := Option.some.inj (h.before.symm.trans ht)
    exact hholds
  · exact fun hholds => ⟨task, h.before, hholds⟩

theorem TaskChange.active (h : TaskChange db db' taskId task task') (k : Id) :
    activeTask db' k = activeTask db k := by
  rw [activeTask, h.agents, activeTask]

theorem TaskChange.leases (h : TaskChange db db' taskId task task')
    (hinv : SlotInvariant db) (htask : LeaseKept task') (k : Id) (t : BuildTask)
    (ht : db'.tasks.row k = some t) : LeaseKept t := by
  by_cases hk : k = taskId
  · subst hk
    obtain rfl := Option.some.inj (h.after.symm.trans ht)
    exact htask
  · rw [h.others k hk] at ht
    exact hinv.leases k t ht

/-- A task that holds the slot is in it. -/
theorem SlotInvariant.activeTask_of_holds (hinv : SlotInvariant db)
    (hrow : db.tasks.row taskId = some task) (hholds : task.status.holdsSlot = true) :
    activeTask db task.agentId = some taskId := by
  refine (hinv.consistent task.agentId taskId).mpr ⟨?_, task, hrow, hholds⟩
  show (db.tasks.row taskId).map BuildTask.agentId = some task.agentId
  rw [hrow, Option.map_some]

/-- The task in a slot belongs to the agent and holds the slot. -/
theorem SlotInvariant.holds_of_activeTask (hinv : SlotInvariant db)
    (hactive : activeTask db agentId = some taskId) :
    ∃ task, db.tasks.row taskId = some task ∧ task.agentId = agentId ∧
      task.status.holdsSlot = true := by
  obtain ⟨howner, task, hrow, hholds⟩ := (hinv.consistent agentId taskId).mp hactive
  refine ⟨task, hrow, ?_, hholds⟩
  change (db.tasks.row taskId).map BuildTask.agentId = some agentId at howner
  rw [hrow, Option.map_some] at howner
  exact Option.some.inj howner

/-! What keeps the invariant -/

theorem SlotInvariant.stay (hinv : SlotInvariant db) (htasks : db'.tasks = db.tasks)
    (hactive : ∀ k, activeTask db' k = activeTask db k) : SlotInvariant db' where
  consistent := hinv.consistent.stays
    { active := hactive
      owner := fun k => by
        show (db'.tasks.row k).map BuildTask.agentId = (db.tasks.row k).map BuildTask.agentId
        rw [htasks]
      holds := fun k => by
        show (∃ t, db'.tasks.row k = some t ∧ _) ↔ ∃ t, db.tasks.row k = some t ∧ _
        rw [htasks] }
  leases := by
    rw [htasks]
    exact hinv.leases

theorem SlotInvariant.setAgent (hinv : SlotInvariant db) {f : Agent → Agent}
    (hf : ∀ agent, (f agent).activeTaskId = agent.activeTaskId) (agentId : Id) :
    SlotInvariant (db.setAgent agentId f) := by
  refine hinv.stay rfl fun k => ?_
  rw [activeTask_setAgent]
  split
  · rw [activeTask]
    cases db.agents.row k with
    | none => rfl
    | some agent => exact hf agent
  · rfl

theorem SlotInvariant.keep (hinv : SlotInvariant db) (h : TaskChange db db' taskId task task')
    (hholds : task'.status.holdsSlot = task.status.holdsSlot) (hlease : LeaseKept task') :
    SlotInvariant db' where
  consistent := hinv.consistent.stays
    { active := h.active
      owner := h.owner
      holds := fun k => by
        by_cases hk : k = taskId
        · rw [hk, h.holds_after, h.holds_before, hholds]
        · exact h.holds k hk }
  leases := h.leases hinv hlease

/-- The slot is left with the status that holds it. -/
theorem SlotInvariant.release (hinv : SlotInvariant db) (h : TaskChange db db' taskId task task')
    (hheld : task.status.holdsSlot = true) (hidle : task'.status.holdsSlot = false)
    (hlease : task'.leaseHash = none) {f : Agent → Agent}
    (hf : ∀ agent, (f agent).activeTaskId = none) :
    SlotInvariant (db'.setAgent task.agentId f) where
  consistent := hinv.consistent.releases
    { owned := by
        show (db.tasks.row taskId).map BuildTask.agentId = some task.agentId
        rw [h.before, Option.map_some]
      held := h.holds_before.mpr hheld
      points := by
        show activeTask (db'.setAgent task.agentId f) task.agentId = none
        rw [activeTask_setAgent, if_pos rfl]
        cases db'.agents.row task.agentId with
        | none => rfl
        | some agent => exact hf agent
      active := fun k hk => by
        show activeTask (db'.setAgent task.agentId f) k = activeTask db k
        rw [activeTask_setAgent, if_neg hk, h.active]
      owner := h.owner
      idle := fun hholds => by
        have := h.holds_after.mp hholds
        rw [hidle] at this
        exact Bool.false_ne_true this
      holds := h.holds }
  leases := h.leases hinv
    ⟨fun hholds => absurd (hidle.symm.trans hholds) Bool.false_ne_true, fun _ => hlease⟩

/-- The slot is taken with the status that holds it. -/
theorem SlotInvariant.acquire (hinv : SlotInvariant db) (h : TaskChange db db' taskId task task')
    (hagent : db.agents.row task.agentId = some agent) (hfree : agent.activeTaskId = none)
    (htaken : task'.status.holdsSlot = true) (hlease : LeaseKept task') :
    SlotInvariant (db'.setActiveTask task.agentId (some taskId)) where
  consistent := hinv.consistent.acquires
    { free := by
        show activeTask db task.agentId = none
        rw [activeTask, hagent, Option.bind_some, hfree]
      owned := by
        show (db.tasks.row taskId).map BuildTask.agentId = some task.agentId
        rw [h.before, Option.map_some]
      points := by
        show activeTask (db'.setActiveTask task.agentId (some taskId)) task.agentId = some taskId
        rw [Db.setActiveTask, activeTask_setAgent, if_pos rfl, h.agents, hagent]
        rfl
      active := fun k hk => by
        show activeTask (db'.setActiveTask task.agentId (some taskId)) k = activeTask db k
        rw [Db.setActiveTask, activeTask_setAgent, if_neg hk, h.active]
      owner := h.owner
      taken := h.holds_after.mpr htaken
      holds := h.holds }
  leases := h.leases hinv hlease

theorem SlotInvariant.updateTask (hinv : SlotInvariant db) {now : Time}
    (hrow : db.tasks.row taskId = some task) {set : BuildTask → BuildTask}
    (hhash : (set task).leaseHash = task.leaseHash)
    (hexpires : (set task).leaseExpiresAt = task.leaseExpiresAt) :
    SlotInvariant (db.updateTask now taskId set) := by
  have hlease : LeaseKept task := hinv.leases _ _ hrow
  refine hinv.keep (taskChange_updateTask hrow) rfl ⟨fun hheld => ?_, fun hidle => ?_⟩
  · show (set task).leaseHash ≠ none ∧ (set task).leaseExpiresAt ≠ none
    rw [hhash, hexpires]
    exact hlease.1 hheld
  · show (set task).leaseHash = none
    rw [hhash]
    exact hlease.2 hidle

/-- A new task does not hold a slot. -/
theorem SlotInvariant.register (hinv : SlotInvariant db) {tasks : Table Id BuildTask}
    (h : db.tasks.insert taskId task = some tasks) (hidle : task.status.holdsSlot = false)
    (hhash : task.leaseHash = none) : SlotInvariant { db with tasks := tasks } := by
  have hrow : ∀ k, tasks.row k = if k = taskId then some task else db.tasks.row k :=
    Table.insert_row h
  refine ⟨?_, ?_⟩
  · refine @Slots.Consistent.registers _ _ (slots db) (slots { db with tasks := tasks }) taskId
      hinv.consistent
      { fresh := ?_
        active := fun _ => rfl
        owner := fun k hk => ?_
        holds := fun k hk => ?_
        idle := ?_ }
    · show (db.tasks.row taskId).map BuildTask.agentId = none
      rw [Table.insert_fresh h]
      rfl
    · show (tasks.row k).map BuildTask.agentId = (db.tasks.row k).map BuildTask.agentId
      rw [hrow, if_neg hk]
    · show (∃ t, tasks.row k = some t ∧ _) ↔ ∃ t, db.tasks.row k = some t ∧ _
      rw [hrow, if_neg hk]
    · rintro ⟨t, ht, hheld⟩
      change tasks.row taskId = some t at ht
      rw [hrow, if_pos rfl] at ht
      obtain rfl := Option.some.inj ht
      exact absurd (hidle.symm.trans hheld) Bool.false_ne_true
  · intro k t ht
    change tasks.row k = some t at ht
    rw [hrow] at ht
    split at ht
    · obtain rfl := Option.some.inj ht
      exact ⟨fun hheld => absurd (hidle.symm.trans hheld) Bool.false_ne_true, fun _ => hhash⟩
    · exact hinv.leases k t ht

/-! Transitions -/

section Transition

variable {now : Time} {next : BuildTaskStatus} {source : TaskStatusSource}
  {reason : Option JsString} {data : TransitionData}

theorem SlotInvariant.transition_hold (hinv : SlotInvariant db)
    (h : transition now db taskId next source reason data = .ok db')
    (hrow : db.tasks.row taskId = some task) (hheld : task.status.holdsSlot = true)
    (hnext : next.holdsSlot = true) (hhash : (data.set task).leaseHash = task.leaseHash)
    (hexpires : (data.set task).leaseExpiresAt = task.leaseExpiresAt) : SlotInvariant db' := by
  rcases taskChange_transition h hrow with ⟨-, rfl⟩ | ⟨-, hchange⟩
  · exact hinv
  · refine hinv.keep hchange (hnext.trans hheld.symm) ⟨fun _ => ?_, fun hidle => ?_⟩
    · show (data.set task).leaseHash ≠ none ∧ (data.set task).leaseExpiresAt ≠ none
      rw [hhash, hexpires]
      exact (hinv.leases taskId task hrow).1 hheld
    · exact absurd (hidle.symm.trans hnext) Bool.false_ne_true

theorem SlotInvariant.transition_idle (hinv : SlotInvariant db)
    (h : transition now db taskId next source reason data = .ok db')
    (hrow : db.tasks.row taskId = some task) (hidle : task.status.holdsSlot = false)
    (hnext : next.holdsSlot = false) (hhash : (data.set task).leaseHash = none) :
    SlotInvariant db' := by
  rcases taskChange_transition h hrow with ⟨-, rfl⟩ | ⟨-, hchange⟩
  · exact hinv
  · refine hinv.keep hchange (hnext.trans hidle.symm) ⟨fun hheld => ?_, fun _ => hhash⟩
    exact absurd (hnext.symm.trans hheld) Bool.false_ne_true

theorem SlotInvariant.transition_release (hinv : SlotInvariant db)
    (h : transition now db taskId next source reason data = .ok db')
    (hrow : db.tasks.row taskId = some task) (hheld : task.status.holdsSlot = true)
    (hnext : next.holdsSlot = false) (hhash : (data.set task).leaseHash = none)
    {f : Agent → Agent} (hf : ∀ agent, (f agent).activeTaskId = none) :
    SlotInvariant (db'.setAgent task.agentId f) := by
  rcases taskChange_transition h hrow with ⟨hsame, -⟩ | ⟨-, hchange⟩
  · rw [hsame, hnext] at hheld
    exact absurd hheld Bool.false_ne_true
  · exact hinv.release hchange hheld hnext hhash hf

/-- Two transitions of one task that lead it out of the slot. -/
theorem SlotInvariant.transition_release_twice (hinv : SlotInvariant db) {between : Db}
    {next' : BuildTaskStatus} {source' : TaskStatusSource} {reason' : Option JsString}
    {data' : TransitionData}
    (h : transition now db taskId next source reason data = .ok between)
    (h' : transition now between taskId next' source' reason' data' = .ok db')
    (hrow : db.tasks.row taskId = some task) (hheld : task.status.holdsSlot = true)
    (hnext : next.holdsSlot = false) (hnext' : next'.holdsSlot = false)
    (hhash : (data.set task).leaseHash = none) (hhash' : ∀ task, (data'.set task).leaseHash = none)
    {f : Agent → Agent} (hf : ∀ agent, (f agent).activeTaskId = none) :
    SlotInvariant (db'.setAgent task.agentId f) := by
  rcases taskChange_transition h hrow with ⟨hsame, -⟩ | ⟨-, hchange⟩
  · rw [hsame, hnext] at hheld
    exact absurd hheld Bool.false_ne_true
  · rcases taskChange_transition h' hchange.after with ⟨-, rfl⟩ | ⟨-, hchange'⟩
    · exact hinv.release hchange hheld hnext hhash hf
    · exact hinv.release (hchange.trans hchange') hheld hnext' (hhash' _) hf

/-- Two transitions of one task that pass through the slot without taking it. -/
theorem SlotInvariant.transition_pass (hinv : SlotInvariant db) {between : Db}
    {next' : BuildTaskStatus} {source' : TaskStatusSource} {reason' : Option JsString}
    {data' : TransitionData}
    (h : transition now db taskId next source reason data = .ok between)
    (h' : transition now between taskId next' source' reason' data' = .ok db')
    (hrow : db.tasks.row taskId = some task) (hidle : task.status.holdsSlot = false)
    (hnext : next.holdsSlot = true) (hnext' : next'.holdsSlot = false)
    (hhash' : ∀ task, (data'.set task).leaseHash = none) : SlotInvariant db' := by
  rcases taskChange_transition h hrow with ⟨hsame, -⟩ | ⟨-, hchange⟩
  · rw [hsame, hnext] at hidle
    exact absurd hidle.symm Bool.false_ne_true
  · rcases taskChange_transition h' hchange.after with ⟨hsame, -⟩ | ⟨-, hchange'⟩
    · have hsame : next = next' := hsame
      rw [hsame, hnext'] at hnext
      exact absurd hnext Bool.false_ne_true
    · refine hinv.keep (hchange.trans hchange') (hnext'.trans hidle.symm)
        ⟨fun hheld => ?_, fun _ => hhash' _⟩
      exact absurd (hnext'.symm.trans hheld) Bool.false_ne_true

end Transition

end AnvilRun.ExecutionSlot
