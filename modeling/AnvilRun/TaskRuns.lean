import AnvilRun.TaskMoves

namespace AnvilRun.TaskRuns

open AnvilRun.ExecutionSlot
open AnvilRun.TaskDatabase
open AnvilRun.TaskMoves
open AnvilRun.TaskOperations
open AnvilRun.TaskQueue

/-- One step of the server: an operation that is allowed here, or a change of the rest of the
database, with the columns of a task that no invariant is about. -/
inductive TaskStep (env : Environment) (allowed : Db → TaskOperation → Prop) : Db → Db → Prop
  | operation {db : Db} (op : TaskOperation) (hop : op.Feasible db) (hallowed : allowed db op) :
      TaskStep env allowed db (op.run env db)
  | administer {db db' : Db} (htasks : db'.tasks = db.tasks) (hhistory : db'.history = db.history) :
      TaskStep env allowed db db'
  | updateTask {now : Time} {db : Db} {taskId : Id} {task : BuildTask} {set : BuildTask → BuildTask}
      (hrow : db.tasks.row taskId = some task) (hkept : RowKept task (set task)) :
      TaskStep env allowed db (db.updateTask now taskId set)

/-- The server from a database without tasks on. -/
def taskRuns (env : Environment) (allowed : Db → TaskOperation → Prop) : TransitionSystem Db where
  init := fun db => (∀ taskId, db.tasks.row taskId = none) ∧ db.history = []
  step := TaskStep env allowed

/-- Every operation is allowed. -/
def anyOperation : Db → TaskOperation → Prop := fun _ _ => True

variable {env : Environment} {allowed : Db → TaskOperation → Prop} {db db' : Db}

/-- A step of the server consists of moves, or it leaves the tasks and their history alone. -/
theorem TaskStep.moves (careless : Prop) (hids : CanonicalIds db)
    (hcareless : ∀ op, allowed db op → Careless env db op → careless)
    (h : TaskStep env allowed db db') :
    (∃ agentId, Moves agentId careless True db db') ∨
      db'.tasks = db.tasks ∧ db'.history = db.history := by
  cases h with
  | operation op hop hallowed =>
      obtain ⟨agentId, hmoves⟩ := run_moves hids hop
      refine Or.inl ⟨agentId, ?_⟩
      exact hmoves.mono (hcareless op hallowed) (fun _ => trivial)
  | administer htasks hhistory => exact Or.inr ⟨htasks, hhistory⟩
  | updateTask hrow hkept => exact Or.inl ⟨_, .single (.task hrow rfl hkept)⟩

theorem canonicalIds_of_step (hids : CanonicalIds db) (h : TaskStep env allowed db db') :
    CanonicalIds db' := by
  rcases h.moves True hids (fun _ _ _ => trivial) with ⟨agentId, hmoves⟩ | ⟨htasks, -⟩
  · exact hmoves.invariant hids fun s t hs hmove => hmove.canonicalIds hs
  · intro taskId task hrow
    rw [htasks] at hrow
    exact hids taskId task hrow

theorem canonicalIds_of_reachable (h : (taskRuns env allowed).Reachable db) : CanonicalIds db := by
  refine h.invariant ?_ ?_
  · intro s hinit taskId task hrow
    exact nomatch (hinit.1 taskId).symm.trans hrow
  · intro s t _ hids hstep
    exact canonicalIds_of_step hids hstep

/-- What the moves keep, and what is about the tasks and their history only, holds throughout. -/
theorem invariant_of_moves (careless : Prop) {p : Db → Prop}
    (hcareless : ∀ db op, allowed db op → Careless env db op → careless)
    (hinit : ∀ s, (taskRuns env allowed).init s → p s)
    (hmove : ∀ s t agentId, p s → Move agentId careless True s t → p t)
    (htasks : ∀ s t, p s → t.tasks = s.tasks → t.history = s.history → p t)
    (h : (taskRuns env allowed).Reachable db) : p db := by
  refine h.invariant hinit ?_
  intro s t hs hp hstep
  rcases TaskStep.moves careless (canonicalIds_of_reachable hs) (hcareless s) hstep with
    ⟨agentId, hmoves⟩ | ⟨hrows, hhistory⟩
  · exact hmoves.invariant hp fun s t hs hstep => hmove s t agentId hs hstep
  · exact htasks s t hp hrows hhistory

end AnvilRun.TaskRuns
