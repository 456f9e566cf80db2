import AnvilRun.StatusHistory

namespace AnvilRun.RecoveryFields

open AnvilRun.ExecutionSlot
open AnvilRun.StatusHistory
open AnvilRun.TaskDatabase
open AnvilRun.TaskMoves
open AnvilRun.TaskOperations
open AnvilRun.TaskQueue
open AnvilRun.TaskRuns

/-- A task that has ended has an end and no lease, and the fields of the recovery are set exactly
while the agent is lost. -/
def WellFormed (task : BuildTask) : Prop :=
  (task.status.isTerminal = true →
    task.finishedAt ≠ none ∧ task.leaseHash = none ∧ task.leaseExpiresAt = none) ∧
  (task.status = .agentLost →
    task.recoveryStatus ≠ none ∧ task.agentLostAt ≠ none ∧ task.recoveryDeadlineAt ≠ none) ∧
  (task.status ≠ .agentLost → NotRecovering task)

/-- The agent was lost in the status that the task remembers. -/
def LostIn (db : Db) (taskId : Id) (task : BuildTask) : Prop :=
  task.status = .agentLost → ∃ entry, (historyOf db taskId).getLast? = some entry ∧
    entry.toStatus = .agentLost ∧ entry.fromStatus = task.recoveryStatus

/-- The fields of every task are well formed. -/
def FieldsInvariant (db : Db) : Prop :=
  ∀ taskId task, db.tasks.row taskId = some task → WellFormed task ∧ LostIn db taskId task

variable {env : Environment} {db db' : Db} {agentId taskId : Id} {task task' : BuildTask}

theorem not_terminal_lost {status : BuildTaskStatus} (h : status.isTerminal = true) :
    status ≠ .agentLost := by
  rintro rfl
  cases h

/-- A row stays well formed unless it is left carelessly. -/
theorem WellFormed.change (h : WellFormed task) (hchange : RowChange False task task') :
    WellFormed task' := by
  cases hchange with
  | progress hold hnew hopen hsame =>
      refine ⟨fun hterminal => ?_, fun hlost => absurd hlost hnew, fun _ => ?_⟩
      · exact absurd (hopen.symm.trans hterminal) Bool.false_ne_true
      · obtain ⟨hstatus, hat, hdeadline⟩ := h.2.2 hold
        exact ⟨hsame.recoveryStatus.trans hstatus, hsame.agentLostAt.trans hat,
          hsame.recoveryDeadlineAt.trans hdeadline⟩
  | lost hnew hstatus hat hdeadline =>
      refine ⟨fun hterminal => absurd hnew (not_terminal_lost hterminal), fun _ => ?_,
        fun hne => absurd hnew hne⟩
      exact ⟨by rw [hstatus]; exact Option.some_ne_none _, hat, hdeadline⟩
  | resumed hnew hopen hrecovery =>
      refine ⟨fun hterminal => ?_, fun hlost => absurd hlost hnew, fun _ => hrecovery⟩
      exact absurd (hopen.symm.trans hterminal) Bool.false_ne_true
  | finished hterminal hfinished hhash hexpires hrecovery =>
      refine ⟨fun _ => ⟨hfinished, hhash, hexpires⟩,
        fun hlost => absurd hlost (not_terminal_lost hterminal), fun _ => ?_⟩
      rcases hrecovery with hrecovery | ⟨hold, hstatus, hat, hdeadline⟩
      · exact hrecovery
      · obtain ⟨hstatus', hat', hdeadline'⟩ := h.2.2 hold
        exact ⟨hstatus.trans hstatus', hat.trans hat', hdeadline.trans hdeadline'⟩
  | undispatchable h => exact h.elim
  | cancelLost h => exact h.elim

/-- Only the loss of the agent makes a row lost, and it remembers the status. -/
theorem recoveryStatus_of_lost (hchange : RowChange False task task')
    (hlost : task'.status = .agentLost) : task'.recoveryStatus = some task.status := by
  cases hchange with
  | progress _ hnew _ _ => exact absurd hlost hnew
  | lost _ hstatus _ _ => exact hstatus
  | resumed hnew _ _ => exact absurd hlost hnew
  | finished hterminal _ _ _ _ => exact absurd hlost (not_terminal_lost hterminal)
  | undispatchable h => exact h.elim
  | cancelLost h => exact h.elim

theorem WellFormed.kept {now : Time} (h : WellFormed task) (hkept : RowKept task task') :
    WellFormed { task' with
      status := task.status, agentId := task.agentId, updatedAt := now } := by
  refine ⟨fun hterminal => ?_, fun hlost => ?_, fun hne => ?_⟩
  · obtain ⟨hfinished, hhash, hexpires⟩ := h.1 hterminal
    refine ⟨?_, hkept.leaseHash.trans hhash, hkept.leaseExpiresAt.trans hexpires⟩
    show task'.finishedAt ≠ none
    rw [hkept.finishedAt]
    exact hfinished
  · obtain ⟨hstatus, hat, hdeadline⟩ := h.2.1 hlost
    refine ⟨?_, ?_, ?_⟩
    · show task'.recoveryStatus ≠ none
      rw [hkept.recoveryStatus]
      exact hstatus
    · show task'.agentLostAt ≠ none
      rw [hkept.agentLostAt]
      exact hat
    · show task'.recoveryDeadlineAt ≠ none
      rw [hkept.recoveryDeadlineAt]
      exact hdeadline
  · obtain ⟨hstatus, hat, hdeadline⟩ := h.2.2 hne
    exact ⟨hkept.recoveryStatus.trans hstatus, hkept.agentLostAt.trans hat,
      hkept.recoveryDeadlineAt.trans hdeadline⟩

theorem FieldsInvariant.move (hinv : FieldsInvariant db) (h : Move agentId False True db db') :
    FieldsInvariant db' := by
  intro k t hk
  cases h with
  | @status now _ taskId task next source reason data hrow howner hcan hnext hchange =>
      have hhistory : historyOf (db.setStatus now taskId task.status next source reason data) k =
          _ := historyOf_append db ⟨taskId, some task.status, next, source, reason, now⟩ k
      change (db.tasks.modify taskId _).row k = some t at hk
      rw [Table.modify_row] at hk
      by_cases heq : k = taskId
      · subst heq
        rw [if_pos rfl, hrow] at hk
        obtain rfl := Option.some.inj hk
        refine ⟨(hinv k task hrow).1.change hchange, fun hlost => ?_⟩
        rw [hhistory, if_pos rfl]
        exact ⟨_, List.getLast?_concat, hlost, (recoveryStatus_of_lost hchange hlost).symm⟩
      · rw [if_neg heq] at hk
        refine ⟨(hinv k t hk).1, ?_⟩
        rw [LostIn, hhistory, if_neg (Ne.symm heq)]
        exact (hinv k t hk).2
  | @task now _ taskId task set hrow howner hkept =>
      change (db.tasks.modify taskId _).row k = some t at hk
      rw [Table.modify_row] at hk
      by_cases heq : k = taskId
      · subst heq
        rw [if_pos rfl, hrow] at hk
        obtain rfl := Option.some.inj hk
        refine ⟨(hinv k task hrow).1.kept hkept, fun hlost => ?_⟩
        obtain ⟨entry, hlast, hto, hfrom⟩ := (hinv k task hrow).2 hlost
        exact ⟨entry, hlast, hto, hfrom.trans hkept.recoveryStatus.symm⟩
      · rw [if_neg heq] at hk
        exact hinv k t hk
  | agent => exact hinv k t hk
  | @create _ taskId task tasks source reason now hinsert howner hcanonical hcreated hrecovery =>
      have hhistory := historyOf_append db ⟨taskId, none, .created, source, reason, now⟩ k
      change tasks.row k = some t at hk
      rw [Table.insert_row hinsert] at hk
      by_cases heq : k = taskId
      · rw [if_pos heq] at hk
        obtain rfl := Option.some.inj hk
        refine ⟨⟨fun hterminal => ?_, fun hlost => ?_, fun _ => hrecovery⟩, fun hlost => ?_⟩
        · rw [hcreated] at hterminal
          cases hterminal
        · rw [hcreated] at hlost
          cases hlost
        · rw [hcreated] at hlost
          cases hlost
      · rw [if_neg heq] at hk
        refine ⟨(hinv k t hk).1, ?_⟩
        show t.status = .agentLost → ∃ entry, (historyOf { db with
          history := db.history ++ [⟨taskId, none, .created, source, reason, now⟩] } k).getLast? =
            some entry ∧ _
        rw [hhistory, if_neg (Ne.symm heq)]
        exact (hinv k t hk).2

/-- The operations that leave no field behind. -/
def carefulOperation (env : Environment) : Db → TaskOperation → Prop :=
  fun db op => ¬ Careless env db op

/-- In every run without a claim of a task that cannot be dispatched, and without the cancellation
of a task whose agent is lost, the fields of all tasks are well formed. -/
theorem wellFormed_of_reachable (h : (taskRuns env (carefulOperation env)).Reachable db)
    (hrow : db.tasks.row taskId = some task) :
    (task.status.isTerminal = true →
      task.finishedAt ≠ none ∧ task.leaseHash = none ∧ task.leaseExpiresAt = none ∧
        NotRecovering task) ∧
    (task.recoveryStatus ≠ none ↔ task.status = .agentLost) ∧
    (task.agentLostAt ≠ none ↔ task.status = .agentLost) ∧
    (task.recoveryDeadlineAt ≠ none ↔ task.status = .agentLost) ∧
    LostIn db taskId task := by
  have hinv : FieldsInvariant db := by
    refine invariant_of_moves False (fun _ _ hcareful => hcareful) ?_ ?_ ?_ h
    · rintro s ⟨hempty, -⟩ k t hk
      exact nomatch (hempty k).symm.trans hk
    · intro s t agentId hinv hmove
      exact hinv.move hmove
    · intro s t hinv htasks hhistory k row hk
      rw [htasks] at hk
      refine ⟨(hinv k row hk).1, ?_⟩
      rw [LostIn, historyOf, hhistory]
      exact (hinv k row hk).2
  obtain ⟨⟨hend, hlost, hkept⟩, hlostIn⟩ := hinv taskId task hrow
  have hset : ∀ {α : Type} {field : Option α}, (task.status = .agentLost → field ≠ none) →
      (task.status ≠ .agentLost → field = none) → (field ≠ none ↔ task.status = .agentLost) := by
    intro α field hyes hno
    constructor
    · intro hfield
      by_contra hne
      exact hfield (hno hne)
    · exact hyes
  refine ⟨fun hterminal => ?_, ?_, ?_, ?_, hlostIn⟩
  · obtain ⟨hfinished, hhash, hexpires⟩ := hend hterminal
    exact ⟨hfinished, hhash, hexpires, hkept (not_terminal_lost hterminal)⟩
  · exact hset (fun h => (hlost h).1) (fun h => (hkept h).1)
  · exact hset (fun h => (hlost h).2.1) (fun h => (hkept h).2.1)
  · exact hset (fun h => (hlost h).2.2) (fun h => (hkept h).2.2)

def demoAccept : TaskOperation :=
  .accept 0 SlotSystem.demoAgentId SlotSystem.demoTaskId SlotSystem.demoToken

def demoDisconnect : TaskOperation :=
  .disconnectTask 0 SlotSystem.demoAgentId SlotSystem.demoTaskId

def demoCancel : TaskOperation :=
  .requestCancellation 0 (fun _ => none) SlotSystem.demoTaskId none

/-- A task that was canceled in the queue. -/
theorem wellFormed_canceled :
    ∃ task, (demoRun [demoCreate, demoCancel]).tasks.row SlotSystem.demoTaskId = some task ∧
      task.status = .canceled ∧ task.finishedAt ≠ none ∧ NotRecovering task := by
  have hcreated := reachable_demoCreate (carefulOperation SlotSystem.demoEnvironment)
    (fun hcareless => hcareless)
  have hqueued : ((demoRun [demoCreate]).findTask SlotSystem.demoTaskId).map BuildTask.status =
      some .queued := by decide +kernel
  have hcanceled : (taskRuns SlotSystem.demoEnvironment
      (carefulOperation SlotSystem.demoEnvironment)).Reachable
      (demoRun [demoCreate, demoCancel]) := by
    refine hcreated.step (.operation demoCancel trivial ?_)
    rintro ⟨task, hrow, hlost⟩
    rw [hrow, Option.map_some, hlost] at hqueued
    cases hqueued
  have hstatus : ((demoRun [demoCreate, demoCancel]).tasks.row SlotSystem.demoTaskId).map
      BuildTask.status = some .canceled := by decide +kernel
  obtain ⟨task, hrow, htask⟩ := Option.map_eq_some_iff.mp hstatus
  obtain ⟨hend, -⟩ := wellFormed_of_reachable hcanceled hrow
  obtain ⟨hfinished, -, -, hrecovery⟩ := hend (by rw [htask]; rfl)
  exact ⟨task, hrow, htask, hfinished, hrecovery⟩

/-- A task whose agent was lost keeps the fields of the recovery when it is canceled. -/
theorem canceling_not_wellFormed :
    (taskRuns SlotSystem.demoEnvironment anyOperation).Reachable
      (demoRun [demoCreate, demoClaim, demoAccept, demoDisconnect, demoCancel]) ∧
    ∃ task, (demoRun [demoCreate, demoClaim, demoAccept, demoDisconnect, demoCancel]).tasks.row
        SlotSystem.demoTaskId = some task ∧
      task.status = .canceling ∧ task.recoveryStatus = some .preparing ∧
      ¬ (task.recoveryStatus ≠ none ↔ task.status = .agentLost) := by
  refine ⟨?_, ?_⟩
  · have hcreated := reachable_demoCreate anyOperation trivial
    have hclaimed := hcreated.step (.operation demoClaim trivial trivial)
    have haccepted := hclaimed.step (.operation demoAccept trivial trivial)
    have hlost := haccepted.step (.operation demoDisconnect trivial trivial)
    exact hlost.step (.operation demoCancel trivial trivial)
  · have hfields : ((demoRun [demoCreate, demoClaim, demoAccept, demoDisconnect,
        demoCancel]).tasks.row SlotSystem.demoTaskId).map
          (fun task => (task.status, task.recoveryStatus)) =
        some (.canceling, some .preparing) := by decide +kernel
    obtain ⟨task, hrow, htask⟩ := Option.map_eq_some_iff.mp hfields
    obtain ⟨hstatus, hrecovery⟩ := Prod.mk.inj htask
    refine ⟨task, hrow, hstatus, hrecovery, fun hiff => ?_⟩
    rw [hstatus, hrecovery] at hiff
    cases hiff.mp (Option.some_ne_none _)

end AnvilRun.RecoveryFields
