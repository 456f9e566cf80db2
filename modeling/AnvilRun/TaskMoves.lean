import AnvilRun.SlotPreservation
import AnvilRun.TaskOperations
import Mathlib.Logic.Relation

namespace AnvilRun.TaskMoves

open AnvilRun.AgentGateway
open AnvilRun.AgentRegistry
open AnvilRun.ArtifactsService
open AnvilRun.ExecutionSlot
open AnvilRun.Fallible
open AnvilRun.TaskDatabase
open AnvilRun.TaskOperations
open AnvilRun.TaskQueue
open AnvilRun.TasksService
open AnvilRun.ValidationPrimitives

/-- The fields for the return of a lost agent are empty. -/
def NotRecovering (task : BuildTask) : Prop :=
  task.recoveryStatus = none ∧ task.agentLostAt = none ∧ task.recoveryDeadlineAt = none

/-- The fields of the end and of the recovery are the same. -/
structure SameEnd (task task' : BuildTask) : Prop where
  finishedAt : task'.finishedAt = task.finishedAt
  recoveryStatus : task'.recoveryStatus = task.recoveryStatus
  agentLostAt : task'.agentLostAt = task.agentLostAt
  recoveryDeadlineAt : task'.recoveryDeadlineAt = task.recoveryDeadlineAt

/-- What a transition can write into a row. The last two kinds leave fields behind that the
others take care of; they are possible only if `careless` holds. -/
inductive RowChange (careless : Prop) (task task' : BuildTask) : Prop
  | progress (hold : task.status ≠ .agentLost) (hnew : task'.status ≠ .agentLost)
      (hopen : task'.status.isTerminal = false) (hsame : SameEnd task task')
  | lost (hnew : task'.status = .agentLost) (hstatus : task'.recoveryStatus = some task.status)
      (hat : task'.agentLostAt ≠ none) (hdeadline : task'.recoveryDeadlineAt ≠ none)
  | resumed (hnew : task'.status ≠ .agentLost) (hopen : task'.status.isTerminal = false)
      (hrecovery : NotRecovering task')
  | finished (hterminal : task'.status.isTerminal = true) (hfinished : task'.finishedAt ≠ none)
      (hhash : task'.leaseHash = none) (hexpires : task'.leaseExpiresAt = none)
      (hrecovery : NotRecovering task' ∨ task.status ≠ .agentLost ∧
        task'.recoveryStatus = task.recoveryStatus ∧ task'.agentLostAt = task.agentLostAt ∧
        task'.recoveryDeadlineAt = task.recoveryDeadlineAt)
  | undispatchable (h : careless)
  | cancelLost (h : careless)

/-- The status and the fields that the invariants of tasks are about stay as they are. -/
structure RowKept (task task' : BuildTask) : Prop extends SameEnd task task' where
  leaseHash : task'.leaseHash = task.leaseHash
  leaseExpiresAt : task'.leaseExpiresAt = task.leaseExpiresAt

/-- One statement of a transaction on behalf of an agent. Only a claim dispatches. -/
inductive Move (agentId : Id) (careless dispatches : Prop) : Db → Db → Prop
  | status {now : Time} {db : Db} {taskId : Id} {task : BuildTask} {next : BuildTaskStatus}
      {source : TaskStatusSource} {reason : Option JsString} {data : TransitionData}
      (hrow : db.tasks.row taskId = some task) (howner : task.agentId = agentId)
      (hcan : task.status.canTransition next = true) (hnext : next = .dispatched → dispatches)
      (hchange : RowChange careless task (data.write now next reason task)) :
      Move agentId careless dispatches db (db.setStatus now taskId task.status next source reason data)
  | task {now : Time} {db : Db} {taskId : Id} {task : BuildTask} {set : BuildTask → BuildTask}
      (hrow : db.tasks.row taskId = some task) (howner : task.agentId = agentId)
      (hkept : RowKept task (set task)) : Move agentId careless dispatches db (db.updateTask now taskId set)
  | agent {db : Db} {f : Agent → Agent} : Move agentId careless dispatches db (db.setAgent agentId f)
  | create {db : Db} {taskId : Id} {task : BuildTask} {tasks : Table Id BuildTask}
      {source : TaskStatusSource} {reason : Option JsString} {now : Time}
      (hinsert : db.tasks.insert taskId task = some tasks) (howner : task.agentId = agentId)
      (hcanonical : asciiLower taskId = taskId) (hcreated : task.status = .created) (hrecovery : NotRecovering task) :
      Move agentId careless dispatches db { db with
        tasks := tasks
        history := db.history ++ [⟨taskId, none, .created, source, reason, now⟩] }

/-- The statements of a transaction. -/
abbrev Moves (agentId : Id) (careless dispatches : Prop) : Db → Db → Prop :=
  Relation.ReflTransGen (Move agentId careless dispatches)

variable {careless dispatches : Prop} {env : Environment} {registry : Registry} {now : Time} {db db' db'' : Db}
  {agentId taskId : Id} {task : BuildTask}

theorem RowChange.mono {careless' : Prop} (himp : careless → careless') {task task' : BuildTask}
    (h : RowChange careless task task') : RowChange careless' task task' := by
  cases h with
  | progress hold hnew hopen hsame => exact .progress hold hnew hopen hsame
  | lost hnew hstatus hat hdeadline => exact .lost hnew hstatus hat hdeadline
  | resumed hnew hopen hrecovery => exact .resumed hnew hopen hrecovery
  | finished hterminal hfinished hhash hexpires hrecovery =>
      exact .finished hterminal hfinished hhash hexpires hrecovery
  | undispatchable h => exact .undispatchable (himp h)
  | cancelLost h => exact .cancelLost (himp h)

theorem Move.mono {careless' dispatches' : Prop} (himp : careless → careless')
    (hdispatches : dispatches → dispatches')
    (h : Move agentId careless dispatches db db') : Move agentId careless' dispatches' db db' := by
  cases h with
  | status hrow howner hcan hnext hchange =>
      exact .status hrow howner hcan (hdispatches ∘ hnext) (hchange.mono himp)
  | task hrow howner hkept => exact .task hrow howner hkept
  | agent => exact .agent
  | create hinsert howner hcanonical hcreated hrecovery =>
      exact .create hinsert howner hcanonical hcreated hrecovery

theorem Moves.mono {careless' dispatches' : Prop} (himp : careless → careless')
    (hdispatches : dispatches → dispatches')
    (h : Moves agentId careless dispatches db db') : Moves agentId careless' dispatches' db db' := by
  induction h with
  | refl => exact .refl
  | tail _ hmove ih => exact ih.tail (hmove.mono himp hdispatches)

theorem Moves.agent (h : Moves agentId careless dispatches db db') (f : Agent → Agent) :
    Moves agentId careless dispatches db (db'.setAgent agentId f) :=
  h.tail .agent

/-- A transition is a move, unless the task has the status already. -/
theorem Moves.transition {next : BuildTaskStatus} {source : TaskStatusSource}
    {reason : Option JsString} {data : TransitionData}
    (h : transition now db taskId next source reason data = .ok db')
    (hrow : db.tasks.row taskId = some task) (howner : task.agentId = agentId)
    (hnext : next = .dispatched → dispatches) (hchange : task.status.canTransition next = true →
      RowChange careless task (data.write now next reason task)) :
    Moves agentId careless dispatches db db' := by
  obtain ⟨current, hcurrent, hstep⟩ := transition_eq_ok.mp h
  obtain rfl : task = current := Option.some.inj (hrow.symm.trans hcurrent)
  rcases hstep with ⟨-, rfl⟩ | ⟨hcan, -, rfl⟩
  · exact Relation.ReflTransGen.refl
  · exact Relation.ReflTransGen.single (.status hrow howner hcan hnext (hchange hcan))

/-- After a transition of a task it has the status. -/
theorem row_of_transition {next : BuildTaskStatus} {source : TaskStatusSource}
    {reason : Option JsString} {data : TransitionData}
    (h : transition now db taskId next source reason data = .ok db')
    (hrow : db.tasks.row taskId = some task) :
    ∃ task', db'.tasks.row taskId = some task' ∧ task'.agentId = task.agentId ∧
      task'.status = next := by
  rcases taskChange_transition h hrow with ⟨hsame, rfl⟩ | ⟨-, hchange⟩
  · exact ⟨task, hrow, rfl, hsame⟩
  · exact ⟨_, hchange.after, hchange.agentId, rfl⟩

/-- The ids of the tasks are written as the database writes them. -/
def CanonicalIds (db : Db) : Prop :=
  ∀ taskId task, db.tasks.row taskId = some task → asciiLower taskId = taskId

/-! Every operation consists of moves -/

/-- Only a few statuses lead to the queues, and that of a lost agent is none of them. -/
theorem not_lost_of_canTransition {status next : BuildTaskStatus}
    (hcan : status.canTransition next = true)
    (hnext : BuildTaskStatus.agentLost.canTransition next = false) : status ≠ .agentLost := by
  rintro rfl
  exact absurd (hnext.symm.trans hcan) Bool.false_ne_true

theorem moveDispatchedToWaiting_moves {reason : JsString}
    (h : moveDispatchedToWaiting now db taskId reason = .ok db')
    (hrow : db.tasks.row taskId = some task) (howner : task.agentId = agentId) :
    Moves agentId careless dispatches db db' := by
  simp only [moveDispatchedToWaiting, bind_eq_ok] at h
  obtain ⟨between, hqueued, hwaiting⟩ := h
  obtain ⟨task', hrow', howner', -⟩ := row_of_transition hqueued hrow
  refine (Moves.transition hqueued hrow howner BuildTaskStatus.noConfusion fun hcan => ?_).trans
    (Moves.transition hwaiting hrow' (howner'.trans howner) BuildTaskStatus.noConfusion fun hcan => ?_)
  · exact .progress (not_lost_of_canTransition hcan rfl) BuildTaskStatus.noConfusion rfl
      ⟨rfl, rfl, rfl, rfl⟩
  · exact .progress (not_lost_of_canTransition hcan rfl) BuildTaskStatus.noConfusion rfl
      ⟨rfl, rfl, rfl, rfl⟩

theorem failUndispatchable_moves (hcareless : careless) (hdispatches : dispatches) {reason : JsString}
    (h : failUndispatchable now db taskId reason = .ok db')
    (hrow : db.tasks.row taskId = some task) (howner : task.agentId = agentId) :
    Moves agentId careless dispatches db db' := by
  simp only [failUndispatchable, bind_eq_ok] at h
  obtain ⟨between, hdispatched, hfailed⟩ := h
  obtain ⟨task', hrow', howner', -⟩ := row_of_transition hdispatched hrow
  refine (Moves.transition hdispatched hrow howner (fun _ => hdispatches) fun _ => ?_).trans
    (Moves.transition hfailed hrow' (howner'.trans howner) BuildTaskStatus.noConfusion fun _ => ?_)
  · exact .undispatchable hcareless
  · exact .undispatchable hcareless

theorem failOrphanedTask_moves {failed : Bool}
    (h : failOrphanedTask now db taskId agentId = .ok (failed, db')) :
    Moves agentId careless dispatches db db' := by
  rw [failOrphanedTask] at h
  split at h
  · obtain ⟨-, rfl⟩ := Prod.mk.inj (Except.ok.inj h)
    exact .refl
  rename_i task hrow
  split at h
  · obtain ⟨-, rfl⟩ := Prod.mk.inj (Except.ok.inj h)
    exact .refl
  rename_i hopen
  obtain ⟨howner, -⟩ := not_or.mp hopen
  simp only [bind_eq_ok, pure_eq_ok, Prod.mk.injEq] at h
  obtain ⟨next, htransition, -, rfl⟩ := h
  refine (Moves.transition htransition hrow (not_not.mp howner) BuildTaskStatus.noConfusion fun _ => ?_).agent _
  exact .finished rfl (Option.some_ne_none _) rfl rfl (Or.inl ⟨rfl, rfl, rfl⟩)

theorem queueWaitingTasks_moves (entries : List (Id × BuildTask))
    (hentries : ∀ entry ∈ entries, ∃ task, db.tasks.row entry.1 = some task ∧
      task.agentId = agentId)
    (h : entries.foldlM (queueWaitingTask registry now agentId) db = .ok db') :
    Moves agentId careless dispatches db db' := by
  induction entries generalizing db with
  | nil =>
      obtain rfl := pure_eq_ok.mp h
      exact .refl
  | cons entry entries ih =>
      rw [List.foldlM_cons, bind_eq_ok] at h
      obtain ⟨next, hentry, hrest⟩ := h
      rw [queueWaitingTask] at hentry
      split at hentry
      · obtain rfl := Except.ok.inj hentry
        exact ih (fun e he => hentries e (List.mem_cons_of_mem _ he)) hrest
      · obtain ⟨task, hrow, howner⟩ := hentries entry List.mem_cons_self
        refine (Moves.transition hentry hrow howner BuildTaskStatus.noConfusion fun hcan => ?_).trans (ih (fun e he => ?_) hrest)
        · exact .progress (not_lost_of_canTransition hcan rfl) BuildTaskStatus.noConfusion rfl
            ⟨rfl, rfl, rfl, rfl⟩
        · obtain ⟨other, hother, howner'⟩ := hentries e (List.mem_cons_of_mem _ he)
          rcases taskChange_transition hentry hrow with ⟨-, rfl⟩ | ⟨-, hchange⟩
          · exact ⟨other, hother, howner'⟩
          · by_cases hk : e.1 = entry.1
            · rw [hk]
              exact ⟨_, hchange.after, hchange.agentId.trans howner⟩
            · exact ⟨other, (hchange.others _ hk).trans hother, howner'⟩

theorem onAgentReady_moves {ready : Bool}
    (h : onAgentReady registry now db agentId = .ok (ready, db')) :
    Moves agentId careless dispatches db db' := by
  rw [onAgentReady] at h
  split at h
  · obtain ⟨-, rfl⟩ := Prod.mk.inj (Except.ok.inj h)
    exact .refl
  split at h
  · obtain ⟨-, rfl⟩ := Prod.mk.inj (Except.ok.inj h)
    exact .refl
  split at h
  · obtain ⟨-, rfl⟩ := Prod.mk.inj (Except.ok.inj h)
    exact .refl
  simp only [bind_eq_ok, pure_eq_ok, Prod.mk.injEq] at h
  obtain ⟨next, hqueue, -, rfl⟩ := h
  refine queueWaitingTasks_moves _ (fun entry hentry => ?_) hqueue
  obtain ⟨hrow, howner, -⟩ := SlotPreservation.mem_tasksInStatus.mp hentry
  exact ⟨_, hrow, howner⟩

theorem not_dispatched_of_isAgentExecutionPhase {status : BuildTaskStatus}
    (h : status.isAgentExecutionPhase = true) : status ≠ .dispatched := by
  rintro rfl
  cases h

theorem not_lost_of_isAgentExecutionPhase {status : BuildTaskStatus}
    (h : status.isAgentExecutionPhase = true) : status ≠ .agentLost := by
  rintro rfl
  cases h

theorem disconnectTask_moves {preserved : Bool}
    (h : disconnectTask now db agentId taskId = .ok (preserved, db')) :
    Moves agentId careless dispatches db db' := by
  have hsame : ∀ {b : Bool}, (Except.ok (b, db) : Except Failure _) = .ok (preserved, db') →
      Moves agentId careless dispatches db db' := by
    intro b hb
    obtain ⟨-, rfl⟩ := Prod.mk.inj (Except.ok.inj hb)
    exact .refl
  rw [disconnectTask] at h
  split at h
  · exact hsame h
  split at h
  · exact hsame h
  rename_i task hrow
  split at h
  · exact hsame h
  rename_i hbound
  have howner : task.agentId = agentId := not_not.mp hbound
  split at h
  · rename_i hqueued
    simp only [bind_eq_ok, pure_eq_ok, Prod.mk.injEq] at h
    obtain ⟨next, htransition, -, rfl⟩ := h
    refine Moves.transition htransition hrow howner BuildTaskStatus.noConfusion fun hcan => ?_
    exact .progress (not_lost_of_canTransition hcan rfl) BuildTaskStatus.noConfusion rfl
      ⟨rfl, rfl, rfl, rfl⟩
  split at h
  · simp only [bind_eq_ok, pure_eq_ok, Prod.mk.injEq] at h
    obtain ⟨next, hmove, -, rfl⟩ := h
    exact (moveDispatchedToWaiting_moves hmove hrow howner).agent _
  split at h
  · simp only [bind_eq_ok, pure_eq_ok, Prod.mk.injEq] at h
    obtain ⟨next, htransition, -, rfl⟩ := h
    refine Moves.transition htransition hrow howner BuildTaskStatus.noConfusion fun _ => ?_
    exact .lost rfl rfl (Option.some_ne_none _) (Option.some_ne_none _)
  split at h
  · exact hsame h
  · exact hsame h

/-! The hello -/

theorem failAndAnswer_moves {decision : Option AgentRecoveryDecision} {result : HelloOutcome × Db}
    (h : failAndAnswer now db agentId taskId decision = .ok result) :
    Moves agentId careless dispatches db result.2 := by
  simp only [failAndAnswer, bind_eq_ok, pure_eq_ok] at h
  obtain ⟨⟨failed, next⟩, hfail, rfl⟩ := h
  exact failOrphanedTask_moves hfail

theorem failActive_moves {active : Option Id} {decision : Option AgentRecoveryDecision}
    {result : HelloOutcome × Db} (h : failActive now db agentId active decision = .ok result) :
    Moves agentId careless dispatches db result.2 := by
  cases active with
  | some taskId => exact failAndAnswer_moves h
  | none =>
      obtain rfl := Except.ok.inj h
      exact .refl

theorem reconcileHeldTask_moves {task' : BuildTask} (hrow : db.tasks.row taskId = some task')
    (howner : task'.agentId = agentId)
    {current : AgentCurrentTask} {acknowledged : Nat} {result : HelloOutcome × Db}
    (h : reconcileHeldTask now db agentId taskId task current acknowledged = .ok result) :
    Moves agentId careless dispatches db result.2 := by
  rw [reconcileHeldTask] at h
  split at h
  · split at h
    · split at h
      · exact failAndAnswer_moves h
      · rename_i recoveryStatus deadline _ _ hgood
        simp only [bind_eq_ok, pure_eq_ok] at h
        obtain ⟨next, htransition, rfl⟩ := h
        have hphase : recoveryStatus.isAgentExecutionPhase = true := by
          cases hphase : recoveryStatus.isAgentExecutionPhase
          · exact absurd (Or.inl hphase) hgood
          · rfl
        refine Moves.transition htransition hrow howner
          (fun h => absurd h (not_dispatched_of_isAgentExecutionPhase hphase)) fun _ => ?_
        refine .resumed (not_lost_of_isAgentExecutionPhase hphase) ?_ ⟨rfl, rfl, rfl⟩
        exact SlotPreservation.not_isTerminal_of_holdsSlot
          (SlotPreservation.holdsSlot_of_isAgentExecutionPhase hphase)
    · exact failAndAnswer_moves h
  split at h
  · split at h
    · exact failAndAnswer_moves h
    · obtain rfl := Except.ok.inj h
      exact .refl
  split at h
  · exact failAndAnswer_moves h
  · obtain rfl := Except.ok.inj h
    exact .refl

theorem alignLogCursor_moves (hrow : db.tasks.row taskId = some task)
    (howner : task.agentId = agentId) (log : LogFileState) :
    Moves agentId careless dispatches db (alignLogCursor now db taskId task log) := by
  rw [alignLogCursor]
  split
  · exact .single (.task hrow howner ⟨⟨rfl, rfl, rfl, rfl⟩, rfl, rfl⟩)
  · exact .refl

/-- The cursor leaves the agent and the status of the task as they are. -/
theorem alignLogCursor_row (now : Time) (hrow : db.tasks.row taskId = some task) (log : LogFileState) :
    ∃ task', (alignLogCursor now db taskId task log).tasks.row taskId = some task' ∧
      task'.status = task.status ∧ task'.agentId = task.agentId := by
  rw [alignLogCursor]
  split
  · exact ⟨_, (taskChange_updateTask hrow).after, rfl, rfl⟩
  · exact ⟨task, hrow, rfl, rfl⟩

theorem reconcileFoundTask_moves {durableLog : Id → Except Failure LogFileState}
    (hrow : db.tasks.row taskId = some task) {active : Option Id}
    {current : Option AgentCurrentTask} {capabilities : List JsString} {result : HelloOutcome × Db}
    (h : reconcileFoundTask env now durableLog db agentId active taskId task current capabilities
      = .ok result) : Moves agentId careless dispatches db result.2 := by
  unfold reconcileFoundTask at h
  dsimp only at h
  split at h
  · exact failActive_moves h
  rename_i hmatch
  have howner : task.agentId = agentId := not_not.mp (not_or.mp hmatch).1
  split at h
  · exact failAndAnswer_moves h
  split at h
  · exact failAndAnswer_moves h
  split at h
  · exact failAndAnswer_moves h
  simp only [bind_eq_ok] at h
  obtain ⟨log, -, h⟩ := h
  obtain ⟨task', hrow', -, howner'⟩ := alignLogCursor_row now hrow log
  exact (alignLogCursor_moves hrow howner log).trans
    (reconcileHeldTask_moves hrow' (howner'.trans howner) h)

theorem reconcileAgentHello_moves {durableLog : Id → Except Failure LogFileState}
    {current : Option AgentCurrentTask} {capabilities : List JsString} {result : HelloOutcome × Db}
    (h : reconcileAgentHello env now durableLog db agentId current capabilities = .ok result) :
    Moves agentId careless dispatches db result.2 := by
  simp only [reconcileAgentHello, bind_eq_ok, require_eq_ok] at h
  obtain ⟨agent, -, h⟩ := h
  split at h
  · obtain rfl := pure_eq_ok.mp h
    exact .refl
  split at h
  · exact failActive_moves h
  split at h
  · exact failActive_moves h
  · rename_i task hrow
    exact reconcileFoundTask_moves hrow h

theorem hello_moves {durableLog : Id → Except Failure LogFileState}
    {current : Option AgentCurrentTask} {capabilities : List JsString} {outcome : HelloOutcome}
    (h : hello env now durableLog db agentId current capabilities = .ok (outcome, db')) :
    Moves agentId careless dispatches db db' := by
  simp only [hello, bind_eq_ok, pure_eq_ok, Prod.mk.injEq] at h
  obtain ⟨result, hreconcile, -, rfl⟩ := h
  exact (reconcileAgentHello_moves hreconcile).agent _

theorem reconcileInterruptedTask_moves {status : BuildTaskStatus}
    (h : reconcileInterruptedTask registry now db agentId taskId status = .ok db')
    (howned : ∀ task, db.tasks.row taskId = some task → task.agentId = agentId) :
    Moves agentId careless dispatches db db' := by
  rw [reconcileInterruptedTask] at h
  split at h
  · obtain rfl := Except.ok.inj h
    exact .refl
  split at h
  · obtain rfl := Except.ok.inj h
    exact .refl
  split at h
  · obtain rfl := Except.ok.inj h
    exact .refl
  rename_i task hrow
  split at h
  · obtain rfl := Except.ok.inj h
    exact .refl
  rename_i hsame
  simp only [bind_eq_ok, pure_eq_ok] at h
  obtain ⟨next, htransition, rfl⟩ := h
  have hmoves : Moves agentId careless dispatches db next := by
    refine Moves.transition htransition hrow (howned task hrow) BuildTaskStatus.noConfusion fun _ => ?_
    refine .lost rfl ?_ (Option.some_ne_none _) (Option.some_ne_none _)
    rw [not_not.mp hsame]
    rfl
  split
  · exact hmoves
  · exact hmoves.agent _

/-! Requests and reports -/

/-- The cancellation of a task whose agent is lost leaves the fields of the recovery behind. -/
theorem requestCancellation_moves {tokens : Id → Option JsString} {taskId : JsString}
    {reason : Option JsString} {outcome : CancellationOutcome}
    (h : requestCancellation now tokens db taskId reason = .ok (outcome, db'))
    (hcareless : ∀ task, db.findTask taskId = some task → task.status = .agentLost → careless) :
    ∃ agentId, Moves agentId careless dispatches db db' := by
  simp only [requestCancellation, bind_eq_ok, require_eq_ok] at h
  obtain ⟨task, hrow, agent, hagent, task', hrow', h⟩ := h
  obtain rfl : task = task' := Option.some.inj (hrow.symm.trans hrow')
  refine ⟨task.agentId, ?_⟩
  split at h
  · exact (throw_eq_ok.mp h).elim
  split at h
  · obtain ⟨-, rfl⟩ := Prod.mk.inj (pure_eq_ok.mp h)
    split
    · exact .single .agent
    · exact .refl
  split at h
  · simp only [bind_eq_ok, pure_eq_ok, Prod.mk.injEq] at h
    obtain ⟨between, hcanceling, next, hcanceled, -, rfl⟩ := h
    obtain ⟨canceling, hrow'', howner, hstatus⟩ := row_of_transition hcanceling hrow
    rename_i hidle
    have hold : task.status ≠ .agentLost := by
      rcases hidle with hidle | hidle | hidle <;> rw [hidle] <;> exact BuildTaskStatus.noConfusion
    have hfirst : Moves task.agentId careless dispatches db between := by
      refine Moves.transition hcanceling hrow rfl BuildTaskStatus.noConfusion fun _ => ?_
      exact .progress hold BuildTaskStatus.noConfusion rfl ⟨rfl, rfl, rfl, rfl⟩
    have hmoves : Moves task.agentId careless dispatches db next := by
      refine hfirst.trans (Moves.transition hcanceled hrow'' howner BuildTaskStatus.noConfusion fun _ => ?_)
      refine .finished rfl (Option.some_ne_none _) rfl rfl (Or.inr ⟨?_, rfl, rfl, rfl⟩)
      rw [hstatus]
      exact BuildTaskStatus.noConfusion
    split
    · exact hmoves.agent _
    · exact hmoves
  · simp only [bind_eq_ok, ensure_eq_ok] at h
    obtain ⟨-, -, h⟩ := h
    split at h
    · simp only [bind_eq_ok, pure_eq_ok, Prod.mk.injEq] at h
      obtain ⟨next, htransition, -, rfl⟩ := h
      refine Moves.transition htransition hrow rfl BuildTaskStatus.noConfusion fun _ => ?_
      by_cases hlost : task.status = .agentLost
      · exact .cancelLost (hcareless task hrow hlost)
      · exact .progress hlost BuildTaskStatus.noConfusion rfl ⟨rfl, rfl, rfl, rfl⟩
    · simp only [bind_eq_ok, pure_eq_ok, Prod.mk.injEq] at h
      obtain ⟨next, rfl, -, rfl⟩ := h
      split
      · exact .single (.task hrow rfl ⟨⟨rfl, rfl, rfl, rfl⟩, rfl, rfl⟩)
      · exact .refl

/-- A report that ends a task leaves nothing of its lease. -/
theorem finished_of_status {status : BuildTaskStatus} {task' : BuildTask}
    (hstatus : task.status = status) (hold : status ≠ .agentLost)
    (hterminal : task'.status.isTerminal = true) (hfinished : task'.finishedAt ≠ none)
    (hhash : task'.leaseHash = none) (hexpires : task'.leaseExpiresAt = none)
    (hrecovery : task'.recoveryStatus = task.recoveryStatus)
    (hat : task'.agentLostAt = task.agentLostAt)
    (hdeadline : task'.recoveryDeadlineAt = task.recoveryDeadlineAt) :
    RowChange careless task task' := by
  refine .finished hterminal hfinished hhash hexpires (Or.inr ⟨?_, hrecovery, hat, hdeadline⟩)
  rw [hstatus]
  exact hold

theorem reportTaskCanceled_moves {message : TaskCanceledMessage} {canceled : Bool}
    (h : reportTaskCanceled env now db agentId message = .ok (canceled, db')) :
    Moves agentId careless dispatches db db' := by
  simp only [reportTaskCanceled, bind_eq_ok, require_eq_ok, ensure_eq_ok] at h
  obtain ⟨agent, -, task, hrow, -, howner, h⟩ := h
  split at h
  · simp only [bind_eq_ok, ensure_eq_ok, pure_eq_ok, Prod.mk.injEq] at h
    obtain ⟨-, -, -, rfl⟩ := h
    exact .refl
  · simp only [bind_eq_ok, ensure_eq_ok, pure_eq_ok, Prod.mk.injEq] at h
    obtain ⟨-, -, -, hstatus, next, htransition, -, rfl⟩ := h
    refine (Moves.transition htransition hrow howner BuildTaskStatus.noConfusion fun _ => ?_).agent _
    exact finished_of_status hstatus BuildTaskStatus.noConfusion rfl (Option.some_ne_none _) rfl rfl
      rfl rfl rfl

theorem accept_moves (hids : CanonicalIds db) {taskId leaseToken : JsString}
    (h : accept env now db agentId taskId leaseToken = .ok db') :
    Moves agentId careless dispatches db db' := by
  simp only [accept, bind_eq_ok, require_eq_ok, ensure_eq_ok] at h
  obtain ⟨agent, -, -, -, task, hfound, -, ⟨howner, -⟩, -, -, -, -, h⟩ := h
  split at h
  · obtain rfl := pure_eq_ok.mp h
    exact .refl
  simp only [bind_eq_ok, ensure_eq_ok] at h
  obtain ⟨-, hstatus, htransition⟩ := h
  obtain ⟨current, hrow, -⟩ := transition_eq_ok.mp htransition
  rw [Db.findTask, hids taskId current hrow] at hfound
  refine Moves.transition htransition hfound howner BuildTaskStatus.noConfusion fun _ => ?_
  refine .progress ?_ BuildTaskStatus.noConfusion rfl ⟨rfl, rfl, rfl, rfl⟩
  rw [hstatus]
  exact BuildTaskStatus.noConfusion

theorem reportTaskStatus_moves {message : TaskStatusMessage}
    (h : reportTaskStatus env now db agentId message = .ok db') :
    Moves agentId careless dispatches db db' := by
  simp only [reportTaskStatus, bind_eq_ok, require_eq_ok, ensure_eq_ok] at h
  obtain ⟨agent, -, -, -, task, hrow, -, ⟨howner, -⟩, -, -, -, -, -, -, h⟩ := h
  split at h
  · obtain rfl := pure_eq_ok.mp h
    split
    · exact .single (.task hrow howner ⟨⟨rfl, rfl, rfl, rfl⟩, rfl, rfl⟩)
    · exact .refl
  · simp only [bind_eq_ok, ensure_eq_ok] at h
    obtain ⟨-, hexpected, htransition⟩ := h
    have hphases : message.status.isAgentExecutionPhase = true ∧ task.status ≠ .agentLost := by
      cases hnext : message.status with
      | running | uploading =>
          rw [hnext] at hexpected
          rw [← Option.some.inj hexpected]
          exact ⟨rfl, BuildTaskStatus.noConfusion⟩
      | _ =>
          rw [hnext] at hexpected
          cases hexpected
    refine Moves.transition htransition hrow howner
      (fun h => absurd h (not_dispatched_of_isAgentExecutionPhase hphases.1)) fun _ => ?_
    exact .progress hphases.2 (not_lost_of_isAgentExecutionPhase hphases.1)
      (SlotPreservation.not_isTerminal_of_holdsSlot
        (SlotPreservation.holdsSlot_of_isAgentExecutionPhase hphases.1)) ⟨rfl, rfl, rfl, rfl⟩

theorem reportPreparationFailure_moves {message : TaskFailedMessage} {failed : Bool}
    (h : reportPreparationFailure env now db agentId message = .ok (failed, db')) :
    Moves agentId careless dispatches db db' := by
  simp only [reportPreparationFailure, bind_eq_ok, require_eq_ok, ensure_eq_ok] at h
  obtain ⟨agent, -, -, -, task, hrow, -, howner, h⟩ := h
  split at h
  · simp only [bind_eq_ok, ensure_eq_ok, pure_eq_ok, Prod.mk.injEq] at h
    obtain ⟨-, -, -, rfl⟩ := h
    exact .refl
  · simp only [bind_eq_ok, ensure_eq_ok, pure_eq_ok, Prod.mk.injEq] at h
    obtain ⟨-, -, -, -, -, -, -, hstatus, next, htransition, -, rfl⟩ := h
    refine (Moves.transition htransition hrow howner BuildTaskStatus.noConfusion fun _ => ?_).agent _
    rcases hstatus with hstatus | hstatus | hstatus | hstatus
    all_goals
      exact finished_of_status hstatus BuildTaskStatus.noConfusion rfl (Option.some_ne_none _) rfl
        rfl rfl rfl rfl

theorem failRejectedCompletion_moves {message : TaskCompletedMessage} {failed : Bool}
    (h : failRejectedCompletion env now db agentId message = .ok (failed, db')) :
    Moves agentId careless dispatches db db' := by
  rw [failRejectedCompletion] at h
  split at h
  · rename_i agent task hagent hrow
    dsimp only at h
    split at h
    · rename_i hmatch
      obtain ⟨howner, hstatus, -⟩ := hmatch
      simp only [bind_eq_ok, pure_eq_ok, Prod.mk.injEq] at h
      obtain ⟨next, htransition, -, rfl⟩ := h
      refine (Moves.transition htransition hrow howner BuildTaskStatus.noConfusion fun _ => ?_).agent _
      exact finished_of_status hstatus BuildTaskStatus.noConfusion rfl (Option.some_ne_none _) rfl
        rfl rfl rfl rfl
    · obtain ⟨-, rfl⟩ := Prod.mk.inj (Except.ok.inj h)
      exact .refl
  · obtain ⟨-, rfl⟩ := Prod.mk.inj (Except.ok.inj h)
    exact .refl

theorem completeTask_moves {message : TaskCompletedMessage} {completed : Id}
    (h : completeTask env now db agentId message = .ok (completed, db')) :
    Moves agentId careless dispatches db db' := by
  simp only [completeTask, bind_eq_ok, require_eq_ok, ensure_eq_ok] at h
  obtain ⟨agent, -, -, -, task, hrow, -, howner, h⟩ := h
  split at h
  · simp only [bind_eq_ok, ensure_eq_ok, pure_eq_ok, Prod.mk.injEq] at h
    obtain ⟨-, -, -, -, -, rfl⟩ := h
    exact .refl
  · simp only [bind_eq_ok, ensure_eq_ok, pure_eq_ok, Prod.mk.injEq] at h
    obtain ⟨-, hlease, -, -, next, htransition, -, rfl⟩ := h
    rw [leaseOfUploading, Bool.and_eq_true, Bool.and_eq_true, decide_eq_true_eq] at hlease
    refine (Moves.transition htransition hrow howner BuildTaskStatus.noConfusion fun _ => ?_).agent _
    exact finished_of_status hlease.1.1.2 BuildTaskStatus.noConfusion rfl (Option.some_ne_none _) rfl
      rfl rfl rfl rfl

/-! The sweeps -/

theorem reclaimDispatch_moves {result : Option BuildTaskStatus}
    (hrow : db.tasks.row taskId = some task) (howner : task.agentId = agentId)
    (h : reclaimDispatch registry now db agentId taskId = .ok (result, db')) :
    Moves agentId careless dispatches db db' := by
  rw [reclaimDispatch, hrow] at h
  split at h
  · rename_i agent found hagent hfound
    obtain rfl : task = found := Option.some.inj hfound
    split at h
    · obtain ⟨-, rfl⟩ := Prod.mk.inj (Except.ok.inj h)
      exact .refl
    split at h
    · simp only [bind_eq_ok, pure_eq_ok, Prod.mk.injEq] at h
      obtain ⟨next, htransition, -, rfl⟩ := h
      refine (Moves.transition htransition hrow howner BuildTaskStatus.noConfusion fun hcan => ?_).agent _
      exact .progress (not_lost_of_canTransition hcan rfl) BuildTaskStatus.noConfusion rfl
        ⟨rfl, rfl, rfl, rfl⟩
    · simp only [bind_eq_ok, pure_eq_ok, Prod.mk.injEq] at h
      obtain ⟨next, hmove, -, rfl⟩ := h
      exact (moveDispatchedToWaiting_moves hmove hrow howner).agent _
  · obtain ⟨-, rfl⟩ := Prod.mk.inj (Except.ok.inj h)
    exact .refl

theorem reclaimCancellation_moves {given : Bool} (hrow : db.tasks.row taskId = some task)
    (howner : task.agentId = agentId)
    (h : reclaimCancellation now db agentId taskId = .ok (given, db')) :
    Moves agentId careless dispatches db db' := by
  rw [reclaimCancellation, hrow] at h
  dsimp only at h
  split at h
  · rename_i agent found hagent hfound
    obtain rfl : task = found := Option.some.inj hfound
    split at h
    · rename_i hstatus
      simp only [bind_eq_ok, pure_eq_ok, Prod.mk.injEq] at h
      obtain ⟨next, htransition, -, rfl⟩ := h
      have hmoves : Moves agentId careless dispatches db next := by
        refine Moves.transition htransition hrow howner BuildTaskStatus.noConfusion fun _ => ?_
        exact finished_of_status hstatus.1 BuildTaskStatus.noConfusion rfl (Option.some_ne_none _)
          rfl rfl rfl rfl rfl
      split
      · exact hmoves.agent _
      · exact hmoves
    · obtain ⟨-, rfl⟩ := Prod.mk.inj (Except.ok.inj h)
      exact .refl
  · obtain ⟨-, rfl⟩ := Prod.mk.inj (Except.ok.inj h)
    exact .refl

theorem reclaimRecovery_moves {given : Bool} (hrow : db.tasks.row taskId = some task)
    (howner : task.agentId = agentId)
    (h : reclaimRecovery now db agentId taskId = .ok (given, db')) :
    Moves agentId careless dispatches db db' := by
  rw [reclaimRecovery, hrow] at h
  split at h
  · rename_i agent found hagent hfound
    obtain rfl : task = found := Option.some.inj hfound
    split at h
    · simp only [bind_eq_ok, pure_eq_ok, Prod.mk.injEq] at h
      obtain ⟨next, htransition, -, rfl⟩ := h
      have hmoves : Moves agentId careless dispatches db next := by
        refine Moves.transition htransition hrow howner BuildTaskStatus.noConfusion fun _ => ?_
        exact .finished rfl (Option.some_ne_none _) rfl rfl (Or.inl ⟨rfl, rfl, rfl⟩)
      split
      · exact hmoves.agent _
      · exact hmoves
    · obtain ⟨-, rfl⟩ := Prod.mk.inj (Except.ok.inj h)
      exact .refl
  · obtain ⟨-, rfl⟩ := Prod.mk.inj (Except.ok.inj h)
    exact .refl

/-! The claim -/

/-- An agent with a free slot claims a task that cannot be dispatched. -/
def ClaimFails (env : Environment) (registry : Registry) (now : Time) (token : JsString)
    (db : Db) (agentId : Id) (requestedTaskId : Option JsString) : Prop :=
  ∃ agent taskId task project template,
    db.lockAgent agentId = some agent ∧ agent.enabled = true ∧ agent.status = .online ∧
    registry.isReady agentId = true ∧ agent.activeTaskId = none ∧
    firstQueued db agentId (requestedTaskId.map asciiLower) = some (taskId, task) ∧
    db.projects.row task.projectId = some project ∧
    db.templates.row task.buildTemplateId = some template ∧
    (failureReason env agent project template task ≠ none ∨
      (task.interactiveInputEnabled && !registry.hasCapability agentId taskInputCapability) = false ∧
        env.validAssignment (assignmentFor env now token taskId task template) = false)

theorem claimLoop_moves (hdispatches : dispatches) {tokens : Nat → JsString} {agent : Agent} {requested : Option Id}
    {outcome : ClaimOutcome} (attempts : Nat) :
    ∀ (terminal : List Id) (db : Db),
      (∀ taskId task project template,
        firstQueued db agentId requested = some (taskId, task) →
        db.projects.row task.projectId = some project →
        db.templates.row task.buildTemplateId = some template →
        (failureReason env agent project template task ≠ none ∨
          (task.interactiveInputEnabled &&
            !registry.hasCapability agentId taskInputCapability) = false ∧
          env.validAssignment (assignmentFor env now (tokens (attempts - 1)) taskId task template)
            = false) → careless) →
      claimLoop env registry now tokens agentId agent requested attempts terminal db =
        .ok (outcome, db') → Moves agentId careless dispatches db db' := by
  induction attempts with
  | zero =>
      intro terminal db _ h
      obtain ⟨-, rfl⟩ := Prod.mk.inj (Except.ok.inj h)
      exact .refl
  | succ attempts ih =>
      intro terminal db hcareless h
      rw [claimLoop] at h
      split at h
      · obtain ⟨-, rfl⟩ := Prod.mk.inj (Except.ok.inj h)
        exact .refl
      rename_i taskId task hfirst
      obtain ⟨hrow, howner, hqueued⟩ := SlotPreservation.firstQueued_row hfirst
      have hold : task.status ≠ .agentLost := by
        rw [hqueued]
        exact BuildTaskStatus.noConfusion
      simp only [bind_eq_ok, require_eq_ok] at h
      obtain ⟨project, hproject, template, htemplate, h⟩ := h
      have hfails := hcareless taskId task project template hfirst hproject htemplate
      split at h
      · rename_i reason hreason
        have hdefect : careless := hfails (Or.inl (by rw [hreason]; exact Option.some_ne_none _))
        simp only [bind_eq_ok] at h
        obtain ⟨next, hfail, hrest⟩ := h
        exact (failUndispatchable_moves hdefect hdispatches hfail hrow howner).trans
          (ih _ _ (fun _ _ _ _ _ _ _ _ => hdefect) hrest)
      split at h
      · simp only [bind_eq_ok, pure_eq_ok, Prod.mk.injEq] at h
        obtain ⟨next, htransition, -, rfl⟩ := h
        refine Moves.transition htransition hrow howner BuildTaskStatus.noConfusion fun _ => ?_
        exact .progress hold BuildTaskStatus.noConfusion rfl ⟨rfl, rfl, rfl, rfl⟩
      rename_i hcapable
      split at h
      · rename_i hinvalid
        have hdefect : careless :=
          hfails (Or.inr ⟨Bool.eq_false_of_not_eq_true hcapable, hinvalid⟩)
        simp only [bind_eq_ok] at h
        obtain ⟨next, hfail, hrest⟩ := h
        exact (failUndispatchable_moves hdefect hdispatches hfail hrow howner).trans
          (ih _ _ (fun _ _ _ _ _ _ _ _ => hdefect) hrest)
      · simp only [bind_eq_ok, pure_eq_ok, Prod.mk.injEq] at h
        obtain ⟨next, htransition, -, rfl⟩ := h
        refine (Moves.transition htransition hrow howner (fun _ => hdispatches) fun _ => ?_).agent _
        exact .progress hold BuildTaskStatus.noConfusion rfl ⟨rfl, rfl, rfl, rfl⟩

theorem claimInTransaction_moves (hdispatches : dispatches) {tokens : Nat → JsString} {requested : Option JsString}
    {outcome : ClaimOutcome}
    (h : claimInTransaction env registry now tokens db agentId requested = .ok (outcome, db'))
    (hcareless : ClaimFails env registry now (tokens (maxClaimValidationSkips - 1)) db agentId
      requested → careless) : Moves agentId careless dispatches db db' := by
  simp only [claimInTransaction, bind_eq_ok, require_eq_ok, ensure_eq_ok] at h
  obtain ⟨agent, hagent, -, henabled, -, ⟨honline, hready⟩, h⟩ := h
  split at h
  · obtain ⟨-, rfl⟩ := Prod.mk.inj (pure_eq_ok.mp h)
    exact .refl
  · rename_i hfree
    refine claimLoop_moves hdispatches _ _ _ (fun taskId task project template hfirst hproject htemplate => ?_) h
    exact fun hfails => hcareless
      ⟨agent, taskId, task, project, template, hagent, henabled, honline, hready, not_not.mp hfree,
        hfirst, hproject, htemplate, hfails⟩

/-! The creation of a task -/

theorem createInitial_moves {tasks : Table Id BuildTask} {next : BuildTaskStatus}
    {source : TaskStatusSource} {reason : Option JsString}
    (hinsert : db.tasks.insert taskId task = some tasks) (hcanonical : asciiLower taskId = taskId)
    (hcreated : task.status = .created) (hrecovery : NotRecovering task)
    (hnext : next ≠ .agentLost) (hqueue : next ≠ .dispatched) (hopen : next.isTerminal = false)
    (h : createInitial now { db with tasks := tasks } taskId next source reason = .ok db') :
    Moves task.agentId careless dispatches db db' := by
  have hcreate : Moves task.agentId careless dispatches db { db with
      tasks := tasks, history := db.history ++ [⟨taskId, none, .created, source, reason, now⟩] } :=
    .single (.create hinsert rfl hcanonical hcreated hrecovery)
  rw [createInitial] at h
  split at h
  · obtain rfl := pure_eq_ok.mp h
    exact hcreate
  · have hrow : tasks.row taskId = some task := (Table.insert_row hinsert taskId).trans (if_pos rfl)
    refine hcreate.trans (Moves.transition h hrow rfl (fun hd => absurd hd hqueue) fun _ => ?_)
    refine .progress ?_ hnext hopen ⟨rfl, rfl, rfl, rfl⟩
    rw [hcreated]
    exact BuildTaskStatus.noConfusion

theorem createTask_moves {request : CreateTaskRequest} {created : Id}
    (hcanonical : asciiLower request.newTaskId = request.newTaskId)
    (h : createTask env registry now db request = .ok (created, db')) :
    ∃ agentId, Moves agentId careless dispatches db db' := by
  rw [createTask] at h
  split at h
  · obtain ⟨-, rfl⟩ := Prod.mk.inj (Except.ok.inj h)
    exact ⟨[], .refl⟩
  simp only [bind_eq_ok, require_eq_ok, ensure_eq_ok, pure_eq_ok, Prod.mk.injEq] at h
  obtain ⟨project, -, -, -, template, -, -, -, agent, -, -, -, schema, -, config, -, inputFiles, -,
    tasks, hinsert, next, hinitial, -, rfl⟩ := h
  refine ⟨template.agentId, createInitial_moves hinsert hcanonical rfl ⟨rfl, rfl, rfl⟩ ?_ ?_ ?_
    hinitial⟩
  · split <;> exact BuildTaskStatus.noConfusion
  · split <;> exact BuildTaskStatus.noConfusion
  · split <;> rfl

/-! The operations -/

/-- The operations that leave a row as no other operation does: the claim of a task that cannot be
dispatched, and the cancellation of a task whose agent is lost. -/
def Careless (env : Environment) (db : Db) : TaskOperation → Prop
  | .claim registry now tokens agentId requested =>
      ClaimFails env registry now (tokens (maxClaimValidationSkips - 1)) db agentId requested
  | .requestCancellation _ _ taskId _ =>
      ∃ task, db.findTask taskId = some task ∧ task.status = .agentLost
  | _ => False

/-- The operation that dispatches. -/
def Dispatches : TaskOperation → Prop
  | .claim .. => True
  | _ => False

theorem run_moves (hids : CanonicalIds db) {op : TaskOperation} (hop : op.Feasible db) :
    ∃ agentId, Moves agentId (Careless env db op) (Dispatches op) db (op.run env db) := by
  rw [TaskOperation.run]
  split
  · rename_i db' h
    cases op with
    | createTask registry now request =>
        obtain ⟨⟨created, next⟩, hrun, rfl⟩ := map_eq_ok.mp h
        exact createTask_moves hop hrun
    | claim registry now tokens agentId requested =>
        obtain ⟨⟨outcome, next⟩, hrun, rfl⟩ := map_eq_ok.mp h
        exact ⟨agentId, claimInTransaction_moves trivial hrun id⟩
    | accept now agentId taskId leaseToken => exact ⟨agentId, accept_moves hids h⟩
    | reportTaskStatus now agentId message => exact ⟨agentId, reportTaskStatus_moves h⟩
    | reportPreparationFailure now agentId message =>
        obtain ⟨⟨failed, next⟩, hrun, rfl⟩ := map_eq_ok.mp h
        exact ⟨agentId, reportPreparationFailure_moves hrun⟩
    | reportTaskCanceled now agentId message =>
        obtain ⟨⟨canceled, next⟩, hrun, rfl⟩ := map_eq_ok.mp h
        exact ⟨agentId, reportTaskCanceled_moves hrun⟩
    | completeTask now agentId message =>
        obtain ⟨⟨completed, next⟩, hrun, rfl⟩ := map_eq_ok.mp h
        exact ⟨agentId, completeTask_moves hrun⟩
    | failRejectedCompletion now agentId message =>
        obtain ⟨⟨failed, next⟩, hrun, rfl⟩ := map_eq_ok.mp h
        exact ⟨agentId, failRejectedCompletion_moves hrun⟩
    | requestCancellation now tokens taskId reason =>
        obtain ⟨⟨outcome, next⟩, hrun, rfl⟩ := map_eq_ok.mp h
        exact requestCancellation_moves hrun (fun task hrow hlost => ⟨task, hrow, hlost⟩)
    | onAgentReady registry now agentId =>
        obtain ⟨⟨ready, next⟩, hrun, rfl⟩ := map_eq_ok.mp h
        exact ⟨agentId, onAgentReady_moves hrun⟩
    | disconnectTask now agentId taskId =>
        obtain ⟨⟨preserved, next⟩, hrun, rfl⟩ := map_eq_ok.mp h
        exact ⟨agentId, disconnectTask_moves hrun⟩
    | hello now durableLog agentId current capabilities =>
        obtain ⟨⟨outcome, next⟩, hrun, rfl⟩ := map_eq_ok.mp h
        exact ⟨agentId, hello_moves hrun⟩
    | reconcileInterruptedTask registry now agentId taskId status =>
        obtain ⟨-, task, hrow, howner⟩ := hop
        refine ⟨agentId, reconcileInterruptedTask_moves h fun other hother => ?_⟩
        rw [← Option.some.inj (hrow.symm.trans hother)]
        exact howner
    | reclaimDispatch registry now agentId taskId =>
        obtain ⟨⟨result, next⟩, hrun, rfl⟩ := map_eq_ok.mp h
        obtain ⟨task, hrow, howner⟩ := hop
        exact ⟨agentId, reclaimDispatch_moves hrow howner hrun⟩
    | reclaimCancellation now agentId taskId =>
        obtain ⟨⟨given, next⟩, hrun, rfl⟩ := map_eq_ok.mp h
        obtain ⟨task, hrow, howner⟩ := hop
        exact ⟨agentId, reclaimCancellation_moves hrow howner hrun⟩
    | reclaimRecovery now agentId taskId =>
        obtain ⟨⟨given, next⟩, hrun, rfl⟩ := map_eq_ok.mp h
        obtain ⟨task, hrow, howner⟩ := hop
        exact ⟨agentId, reclaimRecovery_moves hrow howner hrun⟩
  · exact ⟨[], .refl⟩

/-! The ids stay canonical -/

theorem Move.canonicalIds (h : Move agentId careless dispatches db db') (hids : CanonicalIds db) :
    CanonicalIds db' := by
  intro k t hk
  cases h with
  | status hrow _ _ _ _ =>
      change (db.tasks.modify _ _).row k = some t at hk
      rw [Table.modify_row] at hk
      split at hk
      · rename_i heq
        rw [heq]
        exact hids _ _ hrow
      · exact hids k t hk
  | task hrow _ _ =>
      change (db.tasks.modify _ _).row k = some t at hk
      rw [Table.modify_row] at hk
      split at hk
      · rename_i heq
        rw [heq]
        exact hids _ _ hrow
      · exact hids k t hk
  | agent => exact hids k t hk
  | create hinsert _ hcanonical _ _ =>
      change Table.row _ k = some t at hk
      rw [Table.insert_row hinsert] at hk
      split at hk
      · rename_i heq
        rw [heq]
        exact hcanonical
      · exact hids k t hk

/-- What every move keeps, the moves of an operation keep. -/
theorem Moves.invariant {p : Db → Prop} (h : Moves agentId careless dispatches db db') (hp : p db)
    (hmove : ∀ s t, p s → Move agentId careless dispatches s t → p t) : p db' := by
  induction h with
  | refl => exact hp
  | tail _ hstep ih => exact hmove _ _ ih hstep

end AnvilRun.TaskMoves
