import AnvilRun.AgentGateway
import AnvilRun.ExecutionSlot

namespace AnvilRun.SlotPreservation

open AnvilRun.AgentGateway
open AnvilRun.AgentRegistry
open AnvilRun.ArtifactsService
open AnvilRun.ExecutionSlot
open AnvilRun.Fallible
open AnvilRun.TaskDatabase
open AnvilRun.TaskQueue
open AnvilRun.TasksService
open AnvilRun.ValidationPrimitives

variable {env : Environment} {registry : Registry} {now : Time} {db db' : Db}
  {agentId taskId : Id}

theorem holdsSlot_of_isAgentExecutionPhase {status : BuildTaskStatus}
    (h : status.isAgentExecutionPhase = true) : status.holdsSlot = true := by
  cases status with
  | preparing | running | uploading => rfl
  | _ => exact absurd h (by simp [BuildTaskStatus.isAgentExecutionPhase])

theorem not_isTerminal_of_holdsSlot {status : BuildTaskStatus} (h : status.holdsSlot = true) :
    status.isTerminal = false := by
  cases status with
  | dispatched | preparing | running | uploading | canceling | agentLost => rfl
  | _ => exact absurd h (by simp [BuildTaskStatus.holdsSlot])

/-- The operations on a queue see only tasks of its agent in its status. -/
theorem mem_tasksInStatus {status : BuildTaskStatus} {entry : Id × BuildTask} :
    entry ∈ tasksInStatus db agentId status ↔
      db.tasks.row entry.1 = some entry.2 ∧ entry.2.agentId = agentId ∧
        entry.2.status = status := by
  rw [tasksInStatus, List.mem_mergeSort, List.mem_filter, decide_eq_true_eq]
  exact and_congr_left' Table.mem_entries

/-! Every operation keeps the slots -/

theorem moveDispatchedToWaiting_release (hinv : SlotInvariant db) {task : BuildTask}
    {reason : JsString} (h : moveDispatchedToWaiting now db taskId reason = .ok db')
    (hrow : db.tasks.row taskId = some task) (hheld : task.status.holdsSlot = true)
    {f : Agent → Agent} (hf : ∀ agent, (f agent).activeTaskId = none) :
    SlotInvariant (db'.setAgent task.agentId f) := by
  simp only [moveDispatchedToWaiting, bind_eq_ok] at h
  obtain ⟨between, hqueued, hwaiting⟩ := h
  exact hinv.transition_release_twice hqueued hwaiting hrow hheld rfl rfl rfl (fun _ => rfl) hf

theorem failUndispatchable_keep (hinv : SlotInvariant db) {task : BuildTask} {reason : JsString}
    (h : failUndispatchable now db taskId reason = .ok db')
    (hrow : db.tasks.row taskId = some task) (hidle : task.status.holdsSlot = false) :
    SlotInvariant db' := by
  simp only [failUndispatchable, bind_eq_ok] at h
  obtain ⟨between, hdispatched, hfailed⟩ := h
  exact hinv.transition_pass hdispatched hfailed hrow hidle rfl rfl (fun _ => rfl)

/-- The task in the slot can always be failed, and the slot is free then. -/
theorem failOrphanedTask_release (hinv : SlotInvariant db) {failed : Bool}
    (hactive : activeTask db agentId = some taskId)
    (h : failOrphanedTask now db taskId agentId = .ok (failed, db')) :
    SlotInvariant db' ∧ activeTask db' agentId = none := by
  obtain ⟨task, hrow, rfl, hheld⟩ := hinv.holds_of_activeTask hactive
  rw [failOrphanedTask, hrow] at h
  dsimp only at h
  rw [if_neg (by
    rw [not_or]
    exact ⟨fun hne => hne rfl, by simp [not_isTerminal_of_holdsSlot hheld]⟩)] at h
  simp only [bind_eq_ok, pure_eq_ok, Prod.mk.injEq] at h
  obtain ⟨between, htransition, -, rfl⟩ := h
  refine ⟨hinv.transition_release htransition hrow hheld rfl rfl (fun _ => rfl), ?_⟩
  rw [Db.setActiveTask, activeTask_setAgent, if_pos rfl]
  cases between.agents.row task.agentId with
  | none => rfl
  | some agent => rfl

/-- A task that is there and does not hold a slot. -/
def Idle (db : Db) (taskId : Id) : Prop :=
  ∃ task, db.tasks.row taskId = some task ∧ task.status.holdsSlot = false

theorem Idle.of_transition {k : Id} (hidle : Idle db k) {next : BuildTaskStatus}
    {source : TaskStatusSource} {reason : Option JsString} {data : TransitionData}
    (h : transition now db taskId next source reason data = .ok db')
    (hnext : next.holdsSlot = false) : Idle db' k := by
  obtain ⟨task, hrow, hstatus⟩ := hidle
  obtain ⟨current, hcurrent, -⟩ := transition_eq_ok.mp h
  rcases taskChange_transition h hcurrent with ⟨-, rfl⟩ | ⟨-, hchange⟩
  · exact ⟨task, hrow, hstatus⟩
  · by_cases hk : k = taskId
    · subst hk
      exact ⟨_, hchange.after, hnext⟩
    · exact ⟨task, (hchange.others k hk).trans hrow, hstatus⟩

theorem queueWaitingTasks_keep (entries : List (Id × BuildTask)) (hinv : SlotInvariant db)
    (hidle : ∀ entry ∈ entries, Idle db entry.1)
    (h : entries.foldlM (queueWaitingTask registry now agentId) db = .ok db') :
    SlotInvariant db' := by
  induction entries generalizing db with
  | nil =>
      obtain rfl := pure_eq_ok.mp h
      exact hinv
  | cons entry entries ih =>
      rw [List.foldlM_cons, bind_eq_ok] at h
      obtain ⟨next, hentry, hrest⟩ := h
      rw [queueWaitingTask] at hentry
      split at hentry
      · obtain rfl := Except.ok.inj hentry
        exact ih hinv (fun e he => hidle e (List.mem_cons_of_mem _ he)) hrest
      · obtain ⟨task, hrow, hstatus⟩ := hidle entry List.mem_cons_self
        refine ih ?_ (fun e he => ?_) hrest
        · exact hinv.transition_idle hentry hrow hstatus rfl ((hinv.leases _ _ hrow).2 hstatus)
        · exact (hidle e (List.mem_cons_of_mem _ he)).of_transition hentry rfl

theorem onAgentReady_keep (hinv : SlotInvariant db) {ready : Bool}
    (h : onAgentReady registry now db agentId = .ok (ready, db')) : SlotInvariant db' := by
  rw [onAgentReady] at h
  split at h
  · obtain ⟨-, rfl⟩ := Prod.mk.inj (Except.ok.inj h)
    exact hinv
  · split at h
    · obtain ⟨-, rfl⟩ := Prod.mk.inj (Except.ok.inj h)
      exact hinv
    · split at h
      · obtain ⟨-, rfl⟩ := Prod.mk.inj (Except.ok.inj h)
        exact hinv
      · simp only [bind_eq_ok, pure_eq_ok, Prod.mk.injEq] at h
        obtain ⟨next, hqueue, -, rfl⟩ := h
        refine queueWaitingTasks_keep _ hinv (fun entry hentry => ?_) hqueue
        obtain ⟨hrow, -, hstatus⟩ := mem_tasksInStatus.mp hentry
        exact ⟨_, hrow, by rw [hstatus]; rfl⟩

theorem disconnectTask_keep (hinv : SlotInvariant db) {preserved : Bool}
    (h : disconnectTask now db agentId taskId = .ok (preserved, db')) : SlotInvariant db' := by
  have hsame : ∀ {b : Bool}, (Except.ok (b, db) : Except Failure _) = .ok (preserved, db') →
      SlotInvariant db' := by
    intro b hb
    obtain ⟨-, rfl⟩ := Prod.mk.inj (Except.ok.inj hb)
    exact hinv
  rw [disconnectTask] at h
  split at h
  · exact hsame h
  rename_i agent hagent
  split at h
  · exact hsame h
  rename_i task hrow
  split at h
  · exact hsame h
  rename_i hbound
  obtain rfl : task.agentId = agentId := not_not.mp hbound
  split at h
  · -- a queued task waits for the agent again
    rename_i hqueued
    simp only [bind_eq_ok, pure_eq_ok, Prod.mk.injEq] at h
    obtain ⟨next, htransition, -, rfl⟩ := h
    have hidle : task.status.holdsSlot = false := by
      rw [hqueued]
      rfl
    exact hinv.transition_idle htransition hrow hidle rfl ((hinv.leases _ _ hrow).2 hidle)
  split at h
  · rename_i hdispatched
    simp only [bind_eq_ok, pure_eq_ok, Prod.mk.injEq] at h
    obtain ⟨next, hmove, -, rfl⟩ := h
    exact moveDispatchedToWaiting_release hinv hmove hrow (by rw [hdispatched.1]; rfl)
      (fun _ => rfl)
  split at h
  · rename_i hrunning
    simp only [bind_eq_ok, pure_eq_ok, Prod.mk.injEq] at h
    obtain ⟨next, htransition, -, rfl⟩ := h
    exact hinv.transition_hold htransition hrow (holdsSlot_of_isAgentExecutionPhase hrunning.1)
      rfl rfl rfl
  split at h
  · exact hsame h
  · exact hsame h

/-! The hello -/

/-- The slot that the gateway writes for a decision. -/
def slotOf (decision : Option AgentRecoveryDecision) : Option Id :=
  match decision with
  | some decision => if decision.action = .abandon then none else some decision.taskId
  | none => none

/-- The slot is as the gateway will write it. -/
def Reconciled (agentId : Id) (result : HelloOutcome × Db) : Prop :=
  SlotInvariant result.2 ∧ activeTask result.2 agentId = slotOf result.1.decision

theorem failAndAnswer_reconciled (hinv : SlotInvariant db)
    (hactive : activeTask db agentId = some taskId) {decision : Option AgentRecoveryDecision}
    (hdecision : slotOf decision = none) {result : HelloOutcome × Db}
    (h : failAndAnswer now db agentId taskId decision = .ok result) : Reconciled agentId result := by
  simp only [failAndAnswer, bind_eq_ok, pure_eq_ok] at h
  obtain ⟨⟨failed, next⟩, hfail, rfl⟩ := h
  obtain ⟨hkeep, hfree⟩ := failOrphanedTask_release hinv hactive hfail
  exact ⟨hkeep, hfree.trans hdecision.symm⟩

theorem failActive_reconciled (hinv : SlotInvariant db) {decision : Option AgentRecoveryDecision}
    (hdecision : slotOf decision = none) {result : HelloOutcome × Db}
    (h : failActive now db agentId (activeTask db agentId) decision = .ok result) :
    Reconciled agentId result := by
  rw [failActive.eq_def] at h
  split at h
  · rename_i active hactive
    exact failAndAnswer_reconciled hinv hactive hdecision h
  · rename_i hnone
    obtain rfl := Except.ok.inj h
    exact ⟨hinv, hnone.trans hdecision.symm⟩

theorem slotOf_abandon (current : Option AgentCurrentTask) (acknowledged : Nat) (reason : String) :
    slotOf (current.map (fun current => abandon current.taskId acknowledged reason)) = none := by
  cases current with
  | none => rfl
  | some current => rfl

theorem alignLogCursor_keep (hinv : SlotInvariant db) {task : BuildTask}
    (hrow : db.tasks.row taskId = some task) (log : LogFileState) :
    SlotInvariant (alignLogCursor now db taskId task log) ∧
      (∀ k, activeTask (alignLogCursor now db taskId task log) k = activeTask db k) ∧
      ∃ task', (alignLogCursor now db taskId task log).tasks.row taskId = some task' ∧
        task'.status = task.status ∧ task'.agentId = task.agentId := by
  rw [alignLogCursor]
  split
  · have hchange := @taskChange_updateTask db taskId task now (fun task => { task with
      lastLogSequence := log.lastSequence, logSize := log.size }) hrow
    have hlease : LeaseKept task := hinv.leases _ _ hrow
    exact ⟨hinv.keep hchange rfl ⟨hlease.1, hlease.2⟩, hchange.active, _, hchange.after, rfl, rfl⟩
  · exact ⟨hinv, fun _ => rfl, task, hrow, rfl, rfl⟩

theorem reconcileHeldTask_reconciled (hinv : SlotInvariant db) {task task' : BuildTask}
    (hrow : db.tasks.row taskId = some task') (hstatus : task'.status = task.status)
    (hactive : activeTask db agentId = some taskId) {current : AgentCurrentTask}
    {acknowledged : Nat} {result : HelloOutcome × Db}
    (h : reconcileHeldTask now db agentId taskId task current acknowledged = .ok result) :
    Reconciled agentId result := by
  rw [reconcileHeldTask] at h
  split at h
  · rename_i hlost
    split at h
    · rename_i recoveryStatus deadline _ _
      split at h
      · exact failAndAnswer_reconciled hinv hactive (slotOf_abandon (some ⟨taskId, [], .created⟩) _ _) h
      · rename_i hgood
        simp only [bind_eq_ok, pure_eq_ok] at h
        obtain ⟨next, htransition, rfl⟩ := h
        have hphase : recoveryStatus.isAgentExecutionPhase = true := by
          cases hphase : recoveryStatus.isAgentExecutionPhase
          · exact absurd (Or.inl hphase) hgood
          · rfl
        refine ⟨hinv.transition_hold htransition hrow ?_
          (holdsSlot_of_isAgentExecutionPhase hphase) rfl rfl, ?_⟩
        · rw [hstatus, hlost]
          rfl
        · show activeTask next agentId = some taskId
          rcases taskChange_transition htransition hrow with ⟨-, rfl⟩ | ⟨-, hchange⟩
          · exact hactive
          · rw [hchange.active, hactive]
    · exact failAndAnswer_reconciled hinv hactive (slotOf_abandon (some ⟨taskId, [], .created⟩) _ _) h
  · split at h
    · split at h
      · exact failAndAnswer_reconciled hinv hactive (slotOf_abandon (some ⟨taskId, [], .created⟩) _ _) h
      · obtain rfl := Except.ok.inj h
        exact ⟨hinv, hactive⟩
    · split at h
      · exact failAndAnswer_reconciled hinv hactive (slotOf_abandon (some ⟨taskId, [], .created⟩) _ _) h
      · obtain rfl := Except.ok.inj h
        exact ⟨hinv, hactive⟩

theorem reconcileFoundTask_reconciled (hinv : SlotInvariant db)
    {durableLog : Id → Except Failure LogFileState} {task : BuildTask}
    (hrow : db.tasks.row taskId = some task) {current : Option AgentCurrentTask}
    {capabilities : List JsString} {result : HelloOutcome × Db}
    (h : reconcileFoundTask env now durableLog db agentId (activeTask db agentId) taskId task current
      capabilities = .ok result) : Reconciled agentId result := by
  unfold reconcileFoundTask at h
  dsimp only at h
  split at h
  · exact failActive_reconciled hinv (slotOf_abandon _ _ _) h
  · rename_i hmatch
    have hactive : activeTask db agentId = some taskId := by
      by_contra hne
      exact hmatch (Or.inr (Or.inl hne))
    split at h
    · exact failAndAnswer_reconciled hinv hactive (slotOf_abandon _ _ _) h
    · split at h
      · exact failAndAnswer_reconciled hinv hactive rfl h
      · rename_i current
        split at h
        · exact failAndAnswer_reconciled hinv hactive (slotOf_abandon _ _ _) h
        · simp only [bind_eq_ok] at h
          obtain ⟨log, -, h⟩ := h
          obtain ⟨hkeep, hsame, task', hrow', hstatus, -⟩ := alignLogCursor_keep hinv hrow log
          exact reconcileHeldTask_reconciled hkeep hrow' hstatus ((hsame _).trans hactive) h

theorem reconcileAgentHello_reconciled (hinv : SlotInvariant db)
    {durableLog : Id → Except Failure LogFileState} {current : Option AgentCurrentTask}
    {capabilities : List JsString} {result : HelloOutcome × Db}
    (h : reconcileAgentHello env now durableLog db agentId current capabilities = .ok result) :
    Reconciled agentId result := by
  simp only [reconcileAgentHello, bind_eq_ok, require_eq_ok] at h
  obtain ⟨agent, hagent, h⟩ := h
  rw [← activeTask_of_lockAgent hagent] at h
  split at h
  · rename_i hnone
    obtain rfl := pure_eq_ok.mp h
    exact ⟨hinv, (Option.or_eq_none_iff.mp hnone).2⟩
  · split at h
    · exact failActive_reconciled hinv rfl h
    · split at h
      · exact failActive_reconciled hinv (slotOf_abandon _ _ _) h
      · rename_i task hrow
        exact reconcileFoundTask_reconciled hinv hrow h

theorem hello_keep (hinv : SlotInvariant db) {durableLog : Id → Except Failure LogFileState}
    {current : Option AgentCurrentTask} {capabilities : List JsString} {outcome : HelloOutcome}
    (h : hello env now durableLog db agentId current capabilities = .ok (outcome, db')) :
    SlotInvariant db' := by
  simp only [hello, bind_eq_ok, pure_eq_ok, Prod.mk.injEq] at h
  obtain ⟨result, hreconcile, -, rfl⟩ := h
  obtain ⟨hkeep, hslot⟩ := reconcileAgentHello_reconciled hinv hreconcile
  refine hkeep.stay rfl fun k => ?_
  rw [activeTask_setAgent]
  split
  · rename_i hk
    subst hk
    cases hrow : result.2.agents.row k with
    | none =>
        rw [activeTask, hrow]
        rfl
    | some agent =>
        rw [hslot]
        rfl
  · rfl

theorem reconcileInterruptedTask_keep (hinv : SlotInvariant db) {status : BuildTaskStatus}
    (hstatus : status.holdsSlot = true)
    (h : reconcileInterruptedTask registry now db agentId taskId status = .ok db') :
    SlotInvariant db' := by
  rw [reconcileInterruptedTask] at h
  split at h
  · obtain rfl := Except.ok.inj h
    exact hinv
  split at h
  · obtain rfl := Except.ok.inj h
    exact hinv
  split at h
  · obtain rfl := Except.ok.inj h
    exact hinv
  rename_i task hrow
  split at h
  · obtain rfl := Except.ok.inj h
    exact hinv
  rename_i hsame
  simp only [bind_eq_ok, pure_eq_ok] at h
  obtain ⟨next, htransition, rfl⟩ := h
  have hheld : task.status.holdsSlot = true := by
    rw [not_not.mp hsame, hstatus]
  have hkeep : SlotInvariant next := hinv.transition_hold htransition hrow hheld rfl rfl rfl
  split
  · exact hkeep
  · refine hkeep.setAgent ?_ agentId
    intro agent
    rfl

/-! Requests and reports -/

theorem requestCancellation_keep (hinv : SlotInvariant db) {tokens : Id → Option JsString}
    {taskId : JsString} {reason : Option JsString} {outcome : CancellationOutcome}
    (h : requestCancellation now tokens db taskId reason = .ok (outcome, db')) :
    SlotInvariant db' := by
  simp only [requestCancellation, bind_eq_ok, require_eq_ok] at h
  obtain ⟨task, hrow, agent, hagent, task', hrow', h⟩ := h
  obtain rfl : task = task' := Option.some.inj (hrow.symm.trans hrow')
  have hactive := activeTask_of_lockAgent hagent
  have hidle_of : task.status.holdsSlot = false → ¬ agent.activeTaskId = some (asciiLower taskId) := by
    intro hidle hpoints
    obtain ⟨task', hrow', -, hheld⟩ := hinv.holds_of_activeTask (hactive.trans hpoints)
    obtain rfl : task = task' := Option.some.inj (hrow.symm.trans hrow')
    exact absurd (hidle.symm.trans hheld) Bool.false_ne_true
  split at h
  · exact (throw_eq_ok.mp h).elim
  split at h
  · -- a canceled task is in no slot, so none is cleared
    rename_i hcanceled
    obtain ⟨-, rfl⟩ := Prod.mk.inj (pure_eq_ok.mp h)
    rw [if_neg (hidle_of (by rw [hcanceled]; rfl))]
    exact hinv
  split at h
  · rename_i hstatus
    have hidle : task.status.holdsSlot = false := by
      rcases hstatus with hstatus | hstatus | hstatus <;> rw [hstatus] <;> rfl
    simp only [bind_eq_ok, pure_eq_ok, Prod.mk.injEq] at h
    obtain ⟨between, hcanceling, next, hcanceled, -, rfl⟩ := h
    rw [if_neg (hidle_of hidle)]
    exact hinv.transition_pass hcanceling hcanceled hrow hidle rfl rfl (fun _ => rfl)
  · simp only [bind_eq_ok, ensure_eq_ok] at h
    obtain ⟨-, ⟨hpoints, -, -⟩, h⟩ := h
    obtain ⟨task', hrow', -, hheld⟩ := hinv.holds_of_activeTask (hactive.trans hpoints)
    obtain rfl : task = task' := Option.some.inj (hrow.symm.trans hrow')
    split at h
    · simp only [bind_eq_ok, pure_eq_ok, Prod.mk.injEq] at h
      obtain ⟨next, htransition, -, rfl⟩ := h
      exact hinv.transition_hold htransition hrow hheld rfl rfl rfl
    · simp only [bind_eq_ok, pure_eq_ok, Prod.mk.injEq] at h
      obtain ⟨next, rfl, -, rfl⟩ := h
      split
      · exact hinv.updateTask hrow rfl rfl
      · exact hinv

theorem reportTaskCanceled_keep (hinv : SlotInvariant db) {message : TaskCanceledMessage}
    {canceled : Bool} (h : reportTaskCanceled env now db agentId message = .ok (canceled, db')) :
    SlotInvariant db' := by
  simp only [reportTaskCanceled, bind_eq_ok, require_eq_ok, ensure_eq_ok] at h
  obtain ⟨agent, hagent, task, hrow, -, rfl, h⟩ := h
  split at h
  · simp only [bind_eq_ok, ensure_eq_ok, pure_eq_ok, Prod.mk.injEq] at h
    obtain ⟨-, -, -, rfl⟩ := h
    exact hinv
  · simp only [bind_eq_ok, ensure_eq_ok, pure_eq_ok, Prod.mk.injEq] at h
    obtain ⟨-, -, -, hstatus, next, htransition, -, rfl⟩ := h
    exact hinv.transition_release htransition hrow (by rw [hstatus]; rfl) rfl rfl (fun _ => rfl)

theorem accept_keep (hinv : SlotInvariant db) {taskId leaseToken : JsString}
    (h : accept env now db agentId taskId leaseToken = .ok db') : SlotInvariant db' := by
  simp only [accept, bind_eq_ok, require_eq_ok, ensure_eq_ok] at h
  obtain ⟨agent, hagent, -, -, found, -, -, ⟨-, hpoints⟩, -, -, -, -, h⟩ := h
  obtain ⟨task, hrow, -, hheld⟩ :=
    hinv.holds_of_activeTask ((activeTask_of_lockAgent hagent).trans hpoints)
  split at h
  · obtain rfl := pure_eq_ok.mp h
    exact hinv
  · simp only [bind_eq_ok, ensure_eq_ok] at h
    obtain ⟨-, -, htransition⟩ := h
    exact hinv.transition_hold htransition hrow hheld rfl rfl rfl

theorem reportTaskStatus_keep (hinv : SlotInvariant db) {message : TaskStatusMessage}
    (h : reportTaskStatus env now db agentId message = .ok db') : SlotInvariant db' := by
  simp only [reportTaskStatus, bind_eq_ok, require_eq_ok, ensure_eq_ok] at h
  obtain ⟨agent, hagent, -, -, task, hrow, -, ⟨-, hpoints⟩, -, -, -, -, -, -, h⟩ := h
  obtain ⟨task', hrow', -, hheld⟩ :=
    hinv.holds_of_activeTask ((activeTask_of_lockAgent hagent).trans hpoints)
  obtain rfl : task = task' := Option.some.inj (hrow.symm.trans hrow')
  split at h
  · obtain rfl := pure_eq_ok.mp h
    split
    · exact hinv.updateTask hrow rfl rfl
    · exact hinv
  · simp only [bind_eq_ok, ensure_eq_ok] at h
    obtain ⟨-, hexpected, htransition⟩ := h
    refine hinv.transition_hold htransition hrow hheld ?_ rfl rfl
    cases hnext : message.status with
    | running | uploading => rfl
    | _ =>
        rw [hnext] at hexpected
        cases hexpected

theorem reportPreparationFailure_keep (hinv : SlotInvariant db) {message : TaskFailedMessage}
    {failed : Bool} (h : reportPreparationFailure env now db agentId message = .ok (failed, db')) :
    SlotInvariant db' := by
  simp only [reportPreparationFailure, bind_eq_ok, require_eq_ok, ensure_eq_ok] at h
  obtain ⟨agent, hagent, -, -, task, hrow, -, rfl, h⟩ := h
  split at h
  · simp only [bind_eq_ok, ensure_eq_ok, pure_eq_ok, Prod.mk.injEq] at h
    obtain ⟨-, -, -, rfl⟩ := h
    exact hinv
  · simp only [bind_eq_ok, ensure_eq_ok, pure_eq_ok, Prod.mk.injEq] at h
    obtain ⟨-, hpoints, -, -, -, -, -, -, next, htransition, -, rfl⟩ := h
    obtain ⟨task', hrow', -, hheld⟩ :=
      hinv.holds_of_activeTask ((activeTask_of_lockAgent hagent).trans hpoints)
    obtain rfl : task = task' := Option.some.inj (hrow.symm.trans hrow')
    exact hinv.transition_release htransition hrow hheld rfl rfl (fun _ => rfl)

theorem failRejectedCompletion_keep (hinv : SlotInvariant db) {message : TaskCompletedMessage}
    {failed : Bool} (h : failRejectedCompletion env now db agentId message = .ok (failed, db')) :
    SlotInvariant db' := by
  rw [failRejectedCompletion] at h
  split at h
  · rename_i agent task hagent hrow
    dsimp only at h
    split at h
    · rename_i hmatch
      obtain ⟨rfl, hstatus, -⟩ := hmatch
      simp only [bind_eq_ok, pure_eq_ok, Prod.mk.injEq] at h
      obtain ⟨next, htransition, -, rfl⟩ := h
      exact hinv.transition_release htransition hrow (by rw [hstatus]; rfl) rfl rfl (fun _ => rfl)
    · obtain ⟨-, rfl⟩ := Prod.mk.inj (Except.ok.inj h)
      exact hinv
  · obtain ⟨-, rfl⟩ := Prod.mk.inj (Except.ok.inj h)
    exact hinv

theorem completeTask_keep (hinv : SlotInvariant db) {message : TaskCompletedMessage}
    {completed : Id} (h : completeTask env now db agentId message = .ok (completed, db')) :
    SlotInvariant db' := by
  simp only [completeTask, bind_eq_ok, require_eq_ok, ensure_eq_ok] at h
  obtain ⟨agent, hagent, -, -, task, hrow, -, rfl, h⟩ := h
  split at h
  · simp only [bind_eq_ok, ensure_eq_ok, pure_eq_ok, Prod.mk.injEq] at h
    obtain ⟨-, -, -, -, -, rfl⟩ := h
    exact hinv
  · simp only [bind_eq_ok, ensure_eq_ok, pure_eq_ok, Prod.mk.injEq] at h
    obtain ⟨-, hlease, -, -, next, htransition, -, rfl⟩ := h
    rw [leaseOfUploading, Bool.and_eq_true, Bool.and_eq_true, decide_eq_true_eq] at hlease
    exact hinv.transition_release htransition hrow (by rw [hlease.1.1.2]; rfl) rfl rfl (fun _ => rfl)

/-! The sweeps -/

theorem reclaimDispatch_keep (hinv : SlotInvariant db) {result : Option BuildTaskStatus}
    (h : reclaimDispatch registry now db agentId taskId = .ok (result, db')) :
    SlotInvariant db' := by
  rw [reclaimDispatch] at h
  split at h
  · rename_i agent task hagent hrow
    split at h
    · obtain ⟨-, rfl⟩ := Prod.mk.inj (Except.ok.inj h)
      exact hinv
    · rename_i hmatch
      obtain ⟨hpoints, -⟩ := not_or.mp hmatch
      obtain ⟨task', hrow', rfl, hheld⟩ :=
        hinv.holds_of_activeTask ((activeTask_of_lockAgent hagent).trans (not_not.mp hpoints))
      split at h
      · simp only [bind_eq_ok, pure_eq_ok, Prod.mk.injEq] at h
        obtain ⟨next, htransition, -, rfl⟩ := h
        exact hinv.transition_release htransition hrow' hheld rfl rfl (fun _ => rfl)
      · simp only [bind_eq_ok, pure_eq_ok, Prod.mk.injEq] at h
        obtain ⟨next, hmove, -, rfl⟩ := h
        exact moveDispatchedToWaiting_release hinv hmove hrow' hheld (fun _ => rfl)
  · obtain ⟨-, rfl⟩ := Prod.mk.inj (Except.ok.inj h)
    exact hinv

theorem reclaimCancellation_keep (hinv : SlotInvariant db) {task : BuildTask}
    (hrow : db.tasks.row taskId = some task) {given : Bool}
    (h : reclaimCancellation now db task.agentId taskId = .ok (given, db')) :
    SlotInvariant db' := by
  rw [reclaimCancellation, hrow] at h
  dsimp only at h
  split at h
  · rename_i agent found hagent hfound
    obtain rfl : task = found := Option.some.inj hfound
    split at h
    · rename_i hstatus
      have hheld : task.status.holdsSlot = true := by
        rw [hstatus.1]
        rfl
      have hpoints := hinv.activeTask_of_holds hrow hheld
      rw [activeTask_of_lockAgent hagent] at hpoints
      simp only [bind_eq_ok, pure_eq_ok, Prod.mk.injEq] at h
      obtain ⟨next, htransition, -, rfl⟩ := h
      rw [if_pos hpoints]
      exact hinv.transition_release htransition hrow hheld rfl rfl (fun _ => rfl)
    · obtain ⟨-, rfl⟩ := Prod.mk.inj (Except.ok.inj h)
      exact hinv
  · obtain ⟨-, rfl⟩ := Prod.mk.inj (Except.ok.inj h)
    exact hinv

theorem reclaimRecovery_keep (hinv : SlotInvariant db) {task : BuildTask}
    (hrow : db.tasks.row taskId = some task) {given : Bool}
    (h : reclaimRecovery now db task.agentId taskId = .ok (given, db')) : SlotInvariant db' := by
  rw [reclaimRecovery, hrow] at h
  split at h
  · rename_i agent found hagent hfound
    obtain rfl : task = found := Option.some.inj hfound
    split at h
    · rename_i hstatus
      have hheld : task.status.holdsSlot = true := by
        rw [hstatus.1]
        rfl
      have hpoints := hinv.activeTask_of_holds hrow hheld
      rw [activeTask_of_lockAgent hagent] at hpoints
      simp only [bind_eq_ok, pure_eq_ok, Prod.mk.injEq] at h
      obtain ⟨next, htransition, -, rfl⟩ := h
      rw [if_pos hpoints]
      exact hinv.transition_release htransition hrow hheld rfl rfl (fun _ => rfl)
    · obtain ⟨-, rfl⟩ := Prod.mk.inj (Except.ok.inj h)
      exact hinv
  · obtain ⟨-, rfl⟩ := Prod.mk.inj (Except.ok.inj h)
    exact hinv

/-! The claim -/

theorem firstQueued_row {requested : Option Id} {entry : Id × BuildTask}
    (h : firstQueued db agentId requested = some entry) :
    db.tasks.row entry.1 = some entry.2 ∧ entry.2.agentId = agentId ∧
      entry.2.status = .queued :=
  mem_tasksInStatus.mp (List.mem_of_mem_filter (List.mem_of_head? h))

/-- A task that cannot be dispatched passes through the slot, which stays as it is. -/
theorem failUndispatchable_agents {reason : JsString} {db : Db}
    (h : failUndispatchable now db taskId reason = .ok db') : db'.agents = db.agents := by
  simp only [failUndispatchable, bind_eq_ok] at h
  obtain ⟨between, hdispatched, hfailed⟩ := h
  exact (transition_agents hfailed).trans (transition_agents hdispatched)

theorem claimLoop_keep {tokens : Nat → JsString} {agent : Agent} {requested : Option Id}
    (hfree : agent.activeTaskId = none) {outcome : ClaimOutcome} (attempts : Nat) :
    ∀ (terminal : List Id) (db : Db), SlotInvariant db → db.agents.row agentId = some agent →
      claimLoop env registry now tokens agentId agent requested attempts terminal db =
        .ok (outcome, db') → SlotInvariant db' := by
  induction attempts with
  | zero =>
      intro terminal db hinv hagent h
      obtain ⟨-, rfl⟩ := Prod.mk.inj (Except.ok.inj h)
      exact hinv
  | succ attempts ih =>
      intro terminal db hinv hagent h
      rw [claimLoop] at h
      split at h
      · obtain ⟨-, rfl⟩ := Prod.mk.inj (Except.ok.inj h)
        exact hinv
      rename_i taskId task hfirst
      obtain ⟨hrow, rfl, hqueued⟩ := firstQueued_row hfirst
      have hidle : task.status.holdsSlot = false := by
        rw [hqueued]
        rfl
      -- after a task that was failed the loop goes on with a free slot
      have hskip : ∀ {reason : JsString} {next : Db},
          failUndispatchable now db taskId reason = .ok next →
          SlotInvariant next ∧ next.agents.row task.agentId = some agent := by
        intro reason next hfail
        exact ⟨failUndispatchable_keep hinv hfail hrow hidle,
          (congrArg (·.row task.agentId) (failUndispatchable_agents hfail)).trans hagent⟩
      simp only [bind_eq_ok, require_eq_ok] at h
      obtain ⟨project, -, template, -, h⟩ := h
      split at h
      · simp only [bind_eq_ok] at h
        obtain ⟨next, hfail, hrest⟩ := h
        exact ih _ _ (hskip hfail).1 (hskip hfail).2 hrest
      split at h
      · simp only [bind_eq_ok, pure_eq_ok, Prod.mk.injEq] at h
        obtain ⟨next, htransition, -, rfl⟩ := h
        exact hinv.transition_idle htransition hrow hidle rfl ((hinv.leases _ _ hrow).2 hidle)
      split at h
      · simp only [bind_eq_ok] at h
        obtain ⟨next, hfail, hrest⟩ := h
        exact ih _ _ (hskip hfail).1 (hskip hfail).2 hrest
      · simp only [bind_eq_ok, pure_eq_ok, Prod.mk.injEq] at h
        obtain ⟨next, htransition, -, rfl⟩ := h
        rcases taskChange_transition htransition hrow with ⟨hsame, -⟩ | ⟨-, hchange⟩
        · rw [hqueued] at hsame
          cases hsame
        · refine hinv.acquire hchange hagent hfree rfl ⟨fun _ => ⟨?_, ?_⟩, fun hidle => ?_⟩
          · exact Option.some_ne_none _
          · exact Option.some_ne_none _
          · cases hidle

theorem claimInTransaction_keep (hinv : SlotInvariant db) {tokens : Nat → JsString}
    {requested : Option JsString} {outcome : ClaimOutcome}
    (h : claimInTransaction env registry now tokens db agentId requested = .ok (outcome, db')) :
    SlotInvariant db' := by
  simp only [claimInTransaction, bind_eq_ok, require_eq_ok, ensure_eq_ok] at h
  obtain ⟨agent, hagent, -, -, -, -, h⟩ := h
  split at h
  · obtain ⟨-, rfl⟩ := Prod.mk.inj (pure_eq_ok.mp h)
    exact hinv
  · rename_i hfree
    exact claimLoop_keep (not_not.mp hfree) _ _ _ hinv hagent h

/-! The creation of a task -/

theorem createInitial_keep (hinv : SlotInvariant db) {task : BuildTask}
    (hrow : db.tasks.row taskId = some task) (hcreated : task.status = .created)
    (hhash : task.leaseHash = none) {next : BuildTaskStatus} (hnext : next.holdsSlot = false)
    {source : TaskStatusSource} {reason : Option JsString}
    (h : createInitial now db taskId next source reason = .ok db') : SlotInvariant db' := by
  have hinv' : SlotInvariant { db with history :=
      db.history ++ [⟨taskId, none, .created, source, reason, now⟩] } :=
    hinv.stay rfl (fun _ => rfl)
  rw [createInitial] at h
  split at h
  · obtain rfl := pure_eq_ok.mp h
    exact hinv'
  · exact hinv'.transition_idle h hrow (by rw [hcreated]; rfl) hnext hhash

theorem createTask_keep (hinv : SlotInvariant db) {request : CreateTaskRequest} {created : Id}
    (h : createTask env registry now db request = .ok (created, db')) : SlotInvariant db' := by
  rw [createTask] at h
  split at h
  · obtain ⟨-, rfl⟩ := Prod.mk.inj (Except.ok.inj h)
    exact hinv
  · simp only [bind_eq_ok, require_eq_ok, ensure_eq_ok, pure_eq_ok, Prod.mk.injEq] at h
    obtain ⟨project, -, -, -, template, -, -, -, agent, -, -, -, schema, -, config, -, inputFiles, -,
      tasks, hinsert, next, hinitial, -, rfl⟩ := h
    have hkeep := hinv.register hinsert rfl rfl
    have hrow := (Table.insert_row hinsert request.newTaskId).trans (if_pos rfl)
    exact createInitial_keep hkeep hrow rfl rfl (by split <;> rfl) hinitial

end AnvilRun.SlotPreservation
