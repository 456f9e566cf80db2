import AnvilRun.SlotSystem
import AnvilRun.TaskRuns

namespace AnvilRun.StatusHistory

open AnvilRun.ExecutionSlot
open AnvilRun.TaskDatabase
open AnvilRun.TaskMoves
open AnvilRun.TaskOperations
open AnvilRun.TaskQueue
open AnvilRun.TaskRuns

/-- The rows of the history of a task, in the order of insertion. -/
def historyOf (db : Db) (taskId : Id) : List BuildTaskStatusHistory :=
  db.history.filter (fun entry => decide (entry.taskId = taskId))

/-- A history that leads from the creation of a task to a status. -/
inductive StatusPath : List BuildTaskStatusHistory → BuildTaskStatus → Prop
  | created {entry : BuildTaskStatusHistory} (hfrom : entry.fromStatus = none)
      (hto : entry.toStatus = .created) : StatusPath [entry] .created
  | step {entries : List BuildTaskStatusHistory} {status next : BuildTaskStatus}
      {entry : BuildTaskStatusHistory} (h : StatusPath entries status)
      (hfrom : entry.fromStatus = some status) (hto : entry.toStatus = next)
      (hcan : status.canTransition next = true) : StatusPath (entries ++ [entry]) next

/-- What the history has to be for a row of the tasks. -/
def Recorded (entries : List BuildTaskStatusHistory) : Option BuildTask → Prop
  | some task => StatusPath entries task.status
  | none => entries = []

/-- Every task has a history that leads to its status, and nothing else has one. -/
def HistoryInvariant (db : Db) : Prop :=
  ∀ taskId, Recorded (historyOf db taskId) (db.tasks.row taskId)

variable {env : Environment} {careless : Prop} {db db' : Db} {agentId taskId : Id}

theorem historyOf_append (db : Db) (entry : BuildTaskStatusHistory) (taskId : Id) :
    historyOf { db with history := db.history ++ [entry] } taskId =
      if entry.taskId = taskId then historyOf db taskId ++ [entry] else historyOf db taskId := by
  show (db.history ++ [entry]).filter _ = _
  rw [List.filter_append, historyOf]
  by_cases h : entry.taskId = taskId
  · rw [if_pos h, List.filter_cons_of_pos (by simpa using h), List.filter_nil]
  · rw [if_neg h, List.filter_cons_of_neg (by simpa using h), List.filter_nil, List.append_nil]

theorem HistoryInvariant.move (hinv : HistoryInvariant db) (h : Move agentId careless True db db') :
    HistoryInvariant db' := by
  intro k
  cases h with
  | @status now _ taskId task next source reason data hrow howner hcan hnext hchange =>
      have hhistory : historyOf (db.setStatus now taskId task.status next source reason data) k =
          _ := historyOf_append db ⟨taskId, some task.status, next, source, reason, now⟩ k
      rw [hhistory]
      show Recorded _ ((db.tasks.modify taskId _).row k)
      rw [Table.modify_row]
      by_cases hk : k = taskId
      · subst hk
        have hpath := hinv k
        rw [hrow] at hpath
        rw [if_pos rfl, if_pos rfl, hrow]
        exact .step hpath rfl rfl hcan
      · rw [if_neg (Ne.symm hk), if_neg hk]
        exact hinv k
  | @task now _ taskId task set hrow howner hkept =>
      show Recorded (historyOf db k) ((db.tasks.modify taskId _).row k)
      rw [Table.modify_row]
      split
      · cases hk : db.tasks.row k with
        | none =>
            have hpath := hinv k
            rw [hk] at hpath
            exact hpath
        | some row =>
            have hpath := hinv k
            rw [hk] at hpath
            exact hpath
      · exact hinv k
  | agent => exact hinv k
  | @create _ taskId task tasks source reason now hinsert howner hcanonical hcreated hrecovery =>
      show Recorded (historyOf { db with
        history := db.history ++ [⟨taskId, none, .created, source, reason, now⟩] } k) (tasks.row k)
      rw [historyOf_append, Table.insert_row hinsert]
      by_cases hk : k = taskId
      · subst hk
        have hempty := hinv k
        rw [Table.insert_fresh hinsert] at hempty
        have hempty : historyOf db k = [] := hempty
        rw [if_pos rfl, if_pos rfl, hempty]
        show StatusPath _ task.status
        rw [hcreated]
        exact .created rfl rfl
      · rw [if_neg (Ne.symm hk), if_neg hk]
        exact hinv k

theorem historyInvariant_of_reachable
    (h : (taskRuns env anyOperation).Reachable db) : HistoryInvariant db := by
  refine invariant_of_moves True (fun _ _ _ _ => trivial) ?_ ?_ ?_ h
  · rintro s ⟨hempty, hhistory⟩ taskId
    rw [hempty, historyOf, hhistory]
    rfl
  · intro s t agentId hinv hmove
    exact hinv.move hmove
  · intro s t hinv htasks hhistory taskId
    rw [htasks, historyOf, hhistory]
    exact hinv taskId

/-! The end of a task -/

/-- A task that has ended keeps its status. -/
def Ended (taskId : Id) (status : BuildTaskStatus) (db : Db) : Prop :=
  ∃ task, db.tasks.row taskId = some task ∧ task.status = status

theorem Ended.move {status : BuildTaskStatus} (hterminal : status.isTerminal = true)
    (h : Ended taskId status db) (hmove : Move agentId careless True db db') :
    Ended taskId status db' := by
  obtain ⟨ended, hended, hstatus⟩ := h
  cases hmove with
  | @status now _ k task next source reason data hrow howner hcan hnext hchange =>
      refine ⟨ended, ?_, hstatus⟩
      show (db.tasks.modify k _).row taskId = some ended
      rw [Table.modify_row_of_ne, hended]
      -- the task that moves has a status to go to
      rintro rfl
      obtain rfl : ended = task := Option.some.inj (hended.symm.trans hrow)
      rw [hstatus, BuildTaskStatus.canTransition,
        BuildTaskStatus.transitions_of_isTerminal hterminal] at hcan
      exact absurd hcan Bool.false_ne_true
  | @task now _ k task set hrow howner hkept =>
      by_cases hk : taskId = k
      · subst hk
        obtain rfl : ended = task := Option.some.inj (hended.symm.trans hrow)
        exact ⟨_, (taskChange_updateTask hrow).after, hstatus⟩
      · exact ⟨ended, ((taskChange_updateTask hrow).others taskId hk).trans hended, hstatus⟩
  | agent => exact ⟨ended, hended, hstatus⟩
  | @create _ k task tasks source reason now hinsert howner hcanonical hcreated hrecovery =>
      refine ⟨ended, ?_, hstatus⟩
      show tasks.row taskId = some ended
      rw [Table.insert_row hinsert, if_neg, hended]
      rintro rfl
      exact nomatch (Table.insert_fresh hinsert).symm.trans hended

theorem Ended.run {status : BuildTaskStatus} (hterminal : status.isTerminal = true)
    (hreachable : (taskRuns env anyOperation).Reachable db) (h : Ended taskId status db)
    (hrun : Relation.ReflTransGen (taskRuns env anyOperation).step db db') :
    (taskRuns env anyOperation).Reachable db' ∧ Ended taskId status db' := by
  induction hrun with
  | refl => exact ⟨hreachable, h⟩
  | tail _ hstep ih =>
      obtain ⟨hbetween, hended⟩ := ih
      refine ⟨hbetween.step hstep, ?_⟩
      rcases TaskStep.moves True (canonicalIds_of_reachable hbetween)
        (fun _ _ _ => trivial) hstep with ⟨agentId, hmoves⟩ | ⟨htasks, -⟩
      · exact hmoves.invariant hended fun s t hs hmove => hs.move hterminal hmove
      · obtain ⟨ended, hrow, hstatus⟩ := hended
        exact ⟨ended, by rw [htasks, hrow], hstatus⟩

/-- The history of a task is a path through the table of the transitions, from its creation to its
status; a task that has ended never moves again; and a transaction that throws leaves neither a
status nor a row of the history. -/
theorem statusHistory_of_reachable (h : (taskRuns env anyOperation).Reachable db) :
    (∀ taskId task, db.tasks.row taskId = some task →
      StatusPath (historyOf db taskId) task.status) ∧
    (∀ taskId, db.tasks.row taskId = none → historyOf db taskId = []) ∧
    (∀ taskId task, db.tasks.row taskId = some task → task.status.isTerminal = true →
      ∀ db', Relation.ReflTransGen (taskRuns env anyOperation).step db db' →
        ∃ task', db'.tasks.row taskId = some task' ∧ task'.status = task.status) ∧
    ∀ op error, TaskOperation.perform env db op = .error error →
      (TaskOperation.run env db op).tasks = db.tasks ∧
        (TaskOperation.run env db op).history = db.history := by
  have hinv := historyInvariant_of_reachable h
  refine ⟨?_, ?_, ?_, ?_⟩
  · intro taskId task hrow
    have hpath := hinv taskId
    rw [hrow] at hpath
    exact hpath
  · intro taskId hrow
    have hempty := hinv taskId
    rw [hrow] at hempty
    exact hempty
  · intro taskId task hrow hterminal db' hrun
    exact (Ended.run hterminal h ⟨task, hrow, rfl⟩ hrun).2
  · intro op error herror
    rw [TaskOperation.run, herror]
    exact ⟨rfl, rfl⟩

/-- The server after some operations on the database of `SlotSystem`. -/
def demoRun (ops : List TaskOperation) : Db :=
  ops.foldl (TaskOperation.run SlotSystem.demoEnvironment) SlotSystem.demoDb

def demoCreate : TaskOperation :=
  .createTask SlotSystem.demoRegistry 0 SlotSystem.demoRequest

def demoClaim : TaskOperation :=
  .claim SlotSystem.demoRegistry 0 (fun _ => SlotSystem.demoToken) SlotSystem.demoAgentId none

theorem reachable_demoDb (allowed : Db → TaskOperation → Prop) :
    (taskRuns SlotSystem.demoEnvironment allowed).Reachable SlotSystem.demoDb :=
  .init ⟨fun _ => rfl, rfl⟩

theorem reachable_demoCreate (allowed : Db → TaskOperation → Prop)
    (hallowed : allowed SlotSystem.demoDb demoCreate) :
    (taskRuns SlotSystem.demoEnvironment allowed).Reachable (demoRun [demoCreate]) := by
  refine (reachable_demoDb allowed).step (.operation demoCreate ?_ hallowed)
  show ValidationPrimitives.asciiLower SlotSystem.demoTaskId = SlotSystem.demoTaskId
  decide +kernel

/-- The history of a task that was created and claimed. -/
theorem statusHistory_dispatched :
    ∃ task, (demoRun [demoCreate, demoClaim]).tasks.row SlotSystem.demoTaskId = some task ∧
      task.status = .dispatched ∧
      StatusPath (historyOf (demoRun [demoCreate, demoClaim]) SlotSystem.demoTaskId) .dispatched := by
  have hcreated := reachable_demoCreate anyOperation trivial
  have hclaimed : (taskRuns SlotSystem.demoEnvironment anyOperation).Reachable
      (demoRun [demoCreate, demoClaim]) :=
    hcreated.step (.operation demoClaim trivial trivial)
  have hstatus : ((demoRun [demoCreate, demoClaim]).tasks.row SlotSystem.demoTaskId).map
      BuildTask.status = some .dispatched := by decide +kernel
  obtain ⟨task, hrow, htask⟩ := Option.map_eq_some_iff.mp hstatus
  have hpath := (statusHistory_of_reachable hclaimed).1 _ _ hrow
  rw [htask] at hpath
  exact ⟨task, hrow, htask, hpath⟩

end AnvilRun.StatusHistory
