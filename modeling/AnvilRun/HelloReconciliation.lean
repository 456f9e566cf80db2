import AnvilRun.SlotSystem

namespace AnvilRun.HelloReconciliation

open AnvilRun.ExclusiveSlot
open AnvilRun.ExecutionSlot
open AnvilRun.Fallible
open AnvilRun.SlotPreservation
open AnvilRun.SlotSystem
open AnvilRun.TaskDatabase
open AnvilRun.TaskQueue
open AnvilRun.ValidationPrimitives

/-- What a decision to go on with a task, or to cancel it, takes for granted. -/
structure Deserves (env : Environment) (now : Time) (db : Db) (agentId : Id) (task : BuildTask)
    (current : AgentCurrentTask) (decision : AgentRecoveryDecision) : Prop where
  found : db.tasks.row (asciiLower current.taskId) = some task
  owner : task.agentId = agentId
  holds : task.status.holdsSlot = true
  active : activeTask db agentId = some (asciiLower current.taskId)
  token : task.leaseHash = some (env.hashToken current.leaseToken)
  lease : ∃ expires, task.leaseExpiresAt = some expires ∧
    (now < expires ∨ decision.action = .cancel ∧ ∃ requested,
      task.cancelRequestedAt = some requested ∧
        now - requested < cancellationConfirmationTimeoutMs)
  phase : decision.action = .resume → current.status = task.status ∨
    task.status = .agentLost ∧ task.recoveryStatus = some current.status ∧
      ∃ deadline, task.recoveryDeadlineAt = some deadline ∧ now < deadline

/-- Whatever held the slot of the agent is in a terminal status, and the slot is free. -/
def Released (db db' : Db) (agentId : Id) : Prop :=
  ∀ taskId task, db.tasks.row taskId = some task → task.agentId = agentId →
    task.status.holdsSlot = true →
    (∃ task', db'.tasks.row taskId = some task' ∧ task'.status.isTerminal = true) ∧
      activeTask db' agentId = none

/-- The answer to an `agent.hello` fits the database. -/
structure Sound (env : Environment) (now : Time) (db : Db) (agentId : Id)
    (currentTask : Option AgentCurrentTask) (result : HelloOutcome × Db) : Prop where
  answered : ∀ current, currentTask = some current → ∃ decision,
    result.1.decision = some decision ∧ asciiLower decision.taskId = asciiLower current.taskId
  deserved : ∀ decision, result.1.decision = some decision → decision.action ≠ .abandon →
    ∃ current task, currentTask = some current ∧
      Deserves env now db agentId task current decision
  released : (∀ decision, result.1.decision = some decision → decision.action = .abandon) →
    Released db result.2 agentId

variable {env : Environment} {now : Time} {db db' : Db} {agentId taskId : Id} {task : BuildTask}
  {currentTask : Option AgentCurrentTask} {current : AgentCurrentTask}
  {decision : Option AgentRecoveryDecision} {acknowledged : Nat}
  {durableLog : Id → Except Failure LogFileState} {capabilities : List JsString}

theorem canTransition_failed {status : BuildTaskStatus} (h : status.holdsSlot = true) :
    status.canTransition .failed = true := by
  cases status with
  | dispatched | preparing | running | uploading | canceling | agentLost => rfl
  | _ => cases h

theorem canTransition_recovery {status : BuildTaskStatus}
    (h : status.isAgentExecutionPhase = true) :
    BuildTaskStatus.agentLost.canTransition status = true := by
  cases status with
  | preparing | running | uploading => rfl
  | _ => cases h

/-! The slot of the agent -/

theorem exists_of_active (hslots : (slots db).Consistent)
    (hactive : activeTask db agentId = some taskId) :
    ∃ task, db.tasks.row taskId = some task ∧ task.agentId = agentId ∧
      task.status.holdsSlot = true := by
  obtain ⟨howner, task, hrow, hholds⟩ := (hslots agentId taskId).mp hactive
  change (db.tasks.row taskId).map BuildTask.agentId = some agentId at howner
  rw [hrow, Option.map_some] at howner
  exact ⟨task, hrow, Option.some.inj howner, hholds⟩

theorem active_of_holds (hslots : (slots db).Consistent) (hrow : db.tasks.row taskId = some task)
    (howner : task.agentId = agentId) (hholds : task.status.holdsSlot = true) :
    activeTask db agentId = some taskId := by
  refine (hslots agentId taskId).mpr ⟨?_, task, hrow, hholds⟩
  show (db.tasks.row taskId).map BuildTask.agentId = some agentId
  rw [hrow, Option.map_some, howner]

/-- The unique index has nothing against the task in the slot. -/
theorem slotTaken_of_active (hslots : (slots db).Consistent)
    (hactive : activeTask db agentId = some taskId) : db.slotTaken agentId taskId = false := by
  rw [Db.slotTaken, List.any_eq_false]
  rintro ⟨k, other⟩ hmem hholds
  rw [Bool.and_eq_true, decide_eq_true_eq] at hholds
  have hother := active_of_holds hslots (Table.mem_entries.mp hmem) hholds.1.2 hholds.2
  rw [hactive] at hother
  exact hholds.1.1 (Option.some.inj hother).symm

theorem released_of_active (hslots : (slots db).Consistent)
    (hactive : activeTask db agentId = some taskId)
    (hterminal : ∃ task', db'.tasks.row taskId = some task' ∧ task'.status.isTerminal = true)
    (hfree : activeTask db' agentId = none) : Released db db' agentId := by
  intro k task hrow howner hholds
  have hsame := active_of_holds hslots hrow howner hholds
  rw [hactive] at hsame
  rw [← Option.some.inj hsame]
  exact ⟨hterminal, hfree⟩

theorem released_of_free (hslots : (slots db).Consistent) (hfree : activeTask db agentId = none) :
    Released db db' agentId := by
  intro k task hrow howner hholds
  rw [active_of_holds hslots hrow howner hholds] at hfree
  cases hfree

/-! The task in the slot is failed -/

theorem transition_of_can {next : BuildTaskStatus} {source : TaskStatusSource}
    {reason : Option JsString} {data : TransitionData} (hrow : db.tasks.row taskId = some task)
    (hcan : task.status.canTransition next = true)
    (hfree : ¬ (next.holdsSlot ∧ db.slotTaken task.agentId taskId)) :
    transition now db taskId next source reason data =
      .ok (db.setStatus now taskId task.status next source reason data) :=
  transition_eq_ok.mpr ⟨task, hrow, Or.inr ⟨hcan, hfree, rfl⟩⟩

theorem terminal_setStatus (old : BuildTaskStatus) (source : TaskStatusSource)
    {reason : Option JsString} {data : TransitionData} (hrow : db.tasks.row taskId = some task) :
    ∃ task', (db.setStatus now taskId old .failed source reason data).tasks.row taskId =
      some task' ∧ task'.status.isTerminal = true := by
  have hchange := @taskChange_setStatus db taskId task now old .failed source reason data hrow
  exact ⟨_, hchange.after, rfl⟩

theorem activeTask_setActiveTask_none (db : Db) (agentId : Id) :
    activeTask (db.setActiveTask agentId none) agentId = none := by
  rw [Db.setActiveTask, activeTask_setAgent, if_pos rfl]
  cases db.agents.row agentId with
  | none => rfl
  | some agent => rfl

theorem failAndAnswer_active (hslots : (slots db).Consistent)
    (hactive : activeTask db agentId = some taskId) (decision : Option AgentRecoveryDecision) :
    ∃ db', failAndAnswer now db agentId taskId decision = .ok (⟨decision, none, [taskId]⟩, db') ∧
      Released db db' agentId := by
  obtain ⟨task, hrow, rfl, hholds⟩ := exists_of_active hslots hactive
  have hkept : ¬ (task.agentId ≠ task.agentId ∨ task.status.isTerminal = true) := by
    rw [not_isTerminal_of_holdsSlot hholds]
    simp
  have hfree : ¬ (BuildTaskStatus.failed.holdsSlot ∧ db.slotTaken task.agentId taskId) :=
    fun hnever => Bool.false_ne_true hnever.1
  rw [failAndAnswer, failOrphanedTask, hrow]
  dsimp only
  rw [if_neg hkept, transition_of_can hrow (canTransition_failed hholds) hfree]
  apply Exists.intro
  refine ⟨rfl, released_of_active hslots hactive (terminal_setStatus task.status .system hrow) ?_⟩
  exact activeTask_setActiveTask_none _ _

/-- When no decision to go on is made, whatever is in the slot is failed. -/
theorem failActive_spec (hslots : (slots db).Consistent) (decision : Option AgentRecoveryDecision) :
    ∃ outcome db', failActive now db agentId (activeTask db agentId) decision = .ok (outcome, db') ∧
      outcome.decision = decision ∧ Released db db' agentId := by
  cases hactive : activeTask db agentId with
  | none => exact ⟨_, _, rfl, rfl, released_of_free hslots hactive⟩
  | some taskId =>
      obtain ⟨db', hfail, hreleased⟩ := @failAndAnswer_active now _ _ _ hslots hactive decision
      exact ⟨_, db', hfail, rfl, hreleased⟩

/-! The answers -/

theorem sound_of_released {outcome : HelloOutcome} {reason : String}
    (hdecision : outcome.decision = currentTask.map (fun current =>
      abandon current.taskId acknowledged reason))
    (hreleased : Released db db' agentId) :
    Sound env now db agentId currentTask (outcome, db') where
  answered := by
    rintro current rfl
    exact ⟨_, hdecision, rfl⟩
  deserved := by
    intro decision hsome haction
    rw [hdecision, Option.map_eq_some_iff] at hsome
    obtain ⟨current, -, rfl⟩ := hsome
    exact absurd rfl haction
  released := fun _ => hreleased

/-- The cursor of the log has nothing to do with the slots. -/
theorem alignLogCursor_slots (hslots : (slots db).Consistent)
    (hrow : db.tasks.row taskId = some task) (log : LogFileState) :
    (slots (alignLogCursor now db taskId task log)).Consistent ∧
      activeTask (alignLogCursor now db taskId task log) agentId = activeTask db agentId ∧
      ∃ task', (alignLogCursor now db taskId task log).tasks.row taskId = some task' ∧
        task'.status = task.status ∧ task'.agentId = task.agentId := by
  rw [alignLogCursor]
  split
  · have hchange := @taskChange_updateTask db taskId task now (fun task => { task with
      lastLogSequence := log.lastSequence, logSize := log.size }) hrow
    have hstays : (slots db).Stays (slots (db.updateTask now taskId (fun task => { task with
        lastLogSequence := log.lastSequence, logSize := log.size }))) := by
      refine ⟨hchange.active, hchange.owner, fun k => ?_⟩
      by_cases hk : k = taskId
      · rw [hk, hchange.holds_after, hchange.holds_before]
      · exact hchange.holds k hk
    exact ⟨hslots.stays hstays, hchange.active agentId, _, hchange.after, rfl, rfl⟩
  · exact ⟨hslots, rfl, task, hrow, rfl, rfl⟩

/-- An answer to go on with the task in the slot. -/
theorem sound_of_deserves {decision : AgentRecoveryDecision} {outcome : HelloOutcome}
    (hdecision : outcome.decision = some decision) (haction : decision.action ≠ .abandon)
    (htask : decision.taskId = asciiLower current.taskId)
    (hdeserves : Deserves env now db agentId task current decision) :
    Sound env now db agentId (some current) (outcome, db') where
  answered := by
    intro reported hreported
    obtain rfl := Option.some.inj hreported
    exact ⟨decision, hdecision, by rw [htask, asciiLower_asciiLower]⟩
  deserved := by
    intro other hother _
    obtain rfl := Option.some.inj (hother.symm.trans hdecision)
    exact ⟨current, task, rfl, hdeserves⟩
  released := fun hall => absurd (hall decision hdecision) haction

/-- The answer to give up the task in the slot. -/
theorem sound_of_abandoned {db'' : Db} {outcome : HelloOutcome} {reason : String}
    (hdecision : outcome.decision =
      some (abandon (asciiLower current.taskId) acknowledged reason))
    (hreleased : Released db db'' agentId) :
    Sound env now db agentId (some current) (outcome, db'') where
  answered := by
    intro reported hreported
    obtain rfl := Option.some.inj hreported
    exact ⟨_, hdecision, asciiLower_asciiLower current.taskId⟩
  deserved := by
    intro decision hsome haction
    obtain rfl := Option.some.inj (hsome.symm.trans hdecision)
    exact absurd rfl haction
  released := fun _ => hreleased

/-- The task is in the slot, with a lease that counts and that the agent has the token of. -/
structure Held (env : Environment) (now : Time) (db : Db) (agentId : Id) (task : BuildTask)
    (current : AgentCurrentTask) : Prop where
  found : db.tasks.row (asciiLower current.taskId) = some task
  owner : task.agentId = agentId
  active : activeTask db agentId = some (asciiLower current.taskId)
  usable : leaseUsable now task = true
  token : env.verify current.leaseToken (task.leaseHash.getD []) = true

theorem Held.leaseHash (h : Held env now db agentId task current) :
    task.leaseHash = some (env.hashToken current.leaseToken) := by
  have husable := h.usable
  have htoken := h.token
  rw [leaseUsable, Bool.and_eq_true] at husable
  rw [Environment.verify, decide_eq_true_eq] at htoken
  cases hhash : task.leaseHash with
  | none => simp [truthy, hhash] at husable
  | some hash => rw [htoken, hhash, Option.getD_some]

/-- The lease has not expired, or the window for the cancellation has not. -/
theorem Held.lease (h : Held env now db agentId task current) :
    ∃ expires, task.leaseExpiresAt = some expires ∧
      (now < expires ∨ task.status = .canceling ∧ ∃ requested,
        task.cancelRequestedAt = some requested ∧
          now - requested < cancellationConfirmationTimeoutMs) := by
  have husable := h.usable
  rw [leaseUsable, Bool.and_eq_true] at husable
  obtain ⟨expires, hexpires, hlive⟩ := (Option.any_eq_true _ _).mp husable.2
  refine ⟨expires, hexpires, ?_⟩
  rw [Bool.or_eq_true, Bool.and_eq_true, decide_eq_true_eq, decide_eq_true_eq] at hlive
  refine hlive.imp_right fun ⟨hcanceling, hwindow⟩ => ⟨hcanceling, ?_⟩
  obtain ⟨requested, hrequested, hrecent⟩ := (Option.any_eq_true _ _).mp hwindow
  exact ⟨requested, hrequested, of_decide_eq_true hrecent⟩

theorem Held.holds (h : Held env now db agentId task current) (hslots : (slots db).Consistent) :
    task.status.holdsSlot = true := by
  obtain ⟨other, hrow, -, hholds⟩ := exists_of_active hslots h.active
  obtain rfl := Option.some.inj (h.found.symm.trans hrow)
  exact hholds

theorem Held.deserves (h : Held env now db agentId task current) (hslots : (slots db).Consistent)
    {decision : AgentRecoveryDecision}
    (hcancel : task.status = .canceling → decision.action = .cancel)
    (hphase : decision.action = .resume → current.status = task.status ∨
      task.status = .agentLost ∧ task.recoveryStatus = some current.status ∧
        ∃ deadline, task.recoveryDeadlineAt = some deadline ∧ now < deadline) :
    Deserves env now db agentId task current decision where
  found := h.found
  owner := h.owner
  holds := h.holds hslots
  active := h.active
  token := h.leaseHash
  lease := by
    obtain ⟨expires, hexpires, hlive⟩ := h.lease
    refine ⟨expires, hexpires, hlive.imp_right fun ⟨hcanceling, hwindow⟩ => ?_⟩
    exact ⟨hcancel hcanceling, hwindow⟩
  phase := hphase

/-- The part behind all checks of the lease gives a sound answer and never fails. -/
theorem Held.reconcile (h : Held env now db agentId task current) (hslots : (slots db).Consistent)
    {aligned : Db} (haligned : (slots aligned).Consistent)
    (hactive : activeTask aligned agentId = activeTask db agentId)
    (hrow : ∃ task', aligned.tasks.row (asciiLower current.taskId) = some task' ∧
      task'.status = task.status ∧ task'.agentId = task.agentId)
    (hreleased : ∀ db', Released aligned db' agentId → Released db db' agentId) :
    ∃ outcome db', reconcileHeldTask now aligned agentId (asciiLower current.taskId) task current
        acknowledged = .ok (outcome, db') ∧
      Sound env now db agentId (some current) (outcome, db') := by
  have hfail : ∀ reason : String, ∃ outcome db', failAndAnswer now aligned agentId
      (asciiLower current.taskId)
        (some (abandon (asciiLower current.taskId) acknowledged reason)) = .ok (outcome, db') ∧
      Sound env now db agentId (some current) (outcome, db') := fun reason => by
    obtain ⟨db', hok, hfreed⟩ := @failAndAnswer_active now _ _ _ haligned (hactive.trans h.active)
      (some (abandon (asciiLower current.taskId) acknowledged reason))
    exact ⟨_, db', hok, sound_of_abandoned rfl (hreleased db' hfreed)⟩
  rw [reconcileHeldTask]
  split
  · rename_i hlost
    split
    · rename_i recoveryStatus deadline hrecovery hdeadline
      split
      · exact hfail _
      · rename_i hgood
        simp only [not_or, Bool.not_eq_false, Int.not_le, ne_eq, not_not] at hgood
        obtain ⟨hphase, hlater, hsame⟩ := hgood
        obtain ⟨task', hrow', hstatus', howner'⟩ := hrow
        have hcan : task'.status.canTransition recoveryStatus = true := by
          rw [hstatus', hlost]
          exact canTransition_recovery hphase
        have hfree : ¬ (recoveryStatus.holdsSlot ∧
            aligned.slotTaken task'.agentId (asciiLower current.taskId)) := by
          rw [howner', h.owner, slotTaken_of_active haligned (hactive.trans h.active)]
          exact fun htaken => Bool.false_ne_true htaken.2
        rw [transition_of_can hrow' hcan hfree]
        apply Exists.intro
        apply Exists.intro
        refine ⟨rfl, sound_of_deserves rfl (fun haction => by cases haction) rfl
          (h.deserves hslots (fun hcanceling => ?_) fun _ => Or.inr ⟨hlost, ?_, deadline, hdeadline,
            hlater⟩)⟩
        · rw [hlost] at hcanceling
          cases hcanceling
        · rw [hsame, hrecovery]
    · exact hfail _
  · rename_i hlost
    split
    · rename_i hcanceling
      split
      · exact hfail _
      · exact ⟨_, _, rfl, sound_of_deserves rfl (fun haction => by cases haction) rfl
          (h.deserves hslots (fun _ => rfl) fun hresume => by cases hresume)⟩
    · rename_i hcanceling
      split
      · exact hfail _
      · rename_i hgood
        rw [not_or, not_not] at hgood
        exact ⟨_, _, rfl, sound_of_deserves rfl (fun haction => by cases haction) rfl
          (h.deserves hslots (fun hstatus => absurd hstatus hcanceling) fun _ => Or.inl hgood.2)⟩

/-- A task that the row of the log was set for is released if it is released from there. -/
theorem released_of_aligned (hslots : (slots db).Consistent)
    (hrow : db.tasks.row taskId = some task) (log : LogFileState)
    (h : Released (alignLogCursor now db taskId task log) db' agentId)
    (hactive : activeTask db agentId = some taskId) : Released db db' agentId := by
  intro k other hother howner hholds
  have hsame := active_of_holds hslots hother howner hholds
  rw [hactive] at hsame
  obtain rfl := Option.some.inj hsame
  obtain rfl := Option.some.inj (hrow.symm.trans hother)
  obtain ⟨-, -, task', hrow', hstatus, howner'⟩ :=
    @alignLogCursor_slots now _ agentId _ _ hslots hrow log
  exact h taskId task' hrow' (howner'.trans howner) (by rw [hstatus]; exact hholds)

/-- For a task that was found the answer is sound, and only the log can fail. -/
theorem reconcileFoundTask_spec (hslots : (slots db).Consistent)
    (hrow : db.tasks.row taskId = some task)
    (htask : ∀ current, currentTask = some current → asciiLower current.taskId = taskId) :
    (∃ outcome db', reconcileFoundTask env now durableLog db agentId (activeTask db agentId) taskId
        task currentTask capabilities = .ok (outcome, db') ∧
      Sound env now db agentId currentTask (outcome, db')) ∨
    currentTask.isSome = true ∧ (durableLog taskId).isOk = false ∧
      (reconcileFoundTask env now durableLog db agentId (activeTask db agentId) taskId task
        currentTask capabilities).isOk = false := by
  unfold reconcileFoundTask
  dsimp only
  split
  · obtain ⟨outcome, db', hok, hdecision, hreleased⟩ := @failActive_spec now _ agentId hslots
      (currentTask.map fun current =>
        abandon current.taskId 0 "Server could not match the Agent current task")
    exact Or.inl ⟨outcome, db', hok, sound_of_released hdecision hreleased⟩
  · rename_i hvalid
    simp only [not_or, ne_eq, not_not, Bool.not_eq_false] at hvalid
    obtain ⟨howner, hactive, husable⟩ := hvalid
    split
    · obtain ⟨db', hok, hreleased⟩ := @failAndAnswer_active now _ _ _ hslots hactive
        (currentTask.map fun current => abandon current.taskId 0
          "Agent does not support interactive task input (task-input-v1)")
      exact Or.inl ⟨_, db', hok, sound_of_released rfl hreleased⟩
    · split
      · obtain ⟨db', hok, hreleased⟩ := @failAndAnswer_active now _ _ _ hslots hactive none
        exact Or.inl ⟨_, db', hok, @sound_of_released env now db db' agentId none 0 _ ""
          rfl hreleased⟩
      · rename_i current
        split
        · obtain ⟨db', hok, hreleased⟩ := @failAndAnswer_active now _ _ _ hslots hactive
            (some (abandon current.taskId 0 "Agent task lease could not be verified"))
          exact Or.inl ⟨_, db', hok, @sound_of_released env now db db' agentId (some current) 0 _ _
            rfl hreleased⟩
        · rename_i hverified
          rw [Bool.not_eq_false] at hverified
          cases hlog : durableLog taskId with
          | error error => exact Or.inr ⟨rfl, rfl, rfl⟩
          | ok log =>
              left
              obtain rfl := htask current rfl
              have hheld : Held env now db agentId task current :=
                ⟨hrow, howner, hactive, husable, hverified⟩
              obtain ⟨hconsistent, hsame, hrow'⟩ :=
                @alignLogCursor_slots now _ agentId _ _ hslots hrow log
              exact hheld.reconcile hslots hconsistent hsame hrow' fun db' hreleased =>
                released_of_aligned hslots hrow log hreleased hactive

/-- For an agent that exists the answer is sound, and only the log can fail. -/
theorem reconcileAgentHello_spec {agent : Agent} (hslots : (slots db).Consistent)
    (hagent : db.lockAgent agentId = some agent)
    (huuid : ∀ current, currentTask = some current → matchesUuid current.taskId = true) :
    (∃ outcome db', reconcileAgentHello env now durableLog db agentId currentTask capabilities =
        .ok (outcome, db') ∧ Sound env now db agentId currentTask (outcome, db')) ∨
      (∃ current, currentTask = some current ∧
        (durableLog (asciiLower current.taskId)).isOk = false) ∧
      (reconcileAgentHello env now durableLog db agentId currentTask capabilities).isOk =
        false := by
  have hactive := activeTask_of_lockAgent hagent
  have hrequire : require (db.lockAgent agentId) (Failure.api .resourceNotFound) = .ok agent :=
    require_eq_ok.mpr hagent
  rw [reconcileAgentHello, hrequire]
  dsimp only [bind, Except.bind]
  rw [← hactive]
  split
  · rename_i hnone
    obtain ⟨hcurrent, hfree⟩ := Option.or_eq_none_iff.mp hnone
    obtain rfl := Option.map_eq_none_iff.mp hcurrent
    exact Or.inl ⟨_, _, rfl, @sound_of_released env now db db agentId none 0 _ "" rfl
      (released_of_free hslots hfree)⟩
  · rename_i taskId htaskId
    have htask : ∀ current, currentTask = some current → current.taskId = taskId := by
      rintro current rfl
      exact Option.some.inj htaskId
    split
    · -- only an id from the database can be malformed
      rename_i hmalformed
      have hcurrent : currentTask = none := by
        cases currentTask with
        | none => rfl
        | some current =>
            have hwell := huuid current rfl
            rw [htask current rfl, hmalformed] at hwell
            cases hwell
      rw [hcurrent]
      obtain ⟨outcome, db', hok, hdecision, hreleased⟩ :=
        @failActive_spec now _ agentId hslots none
      exact Or.inl ⟨outcome, db', hok, @sound_of_released env now db db' agentId none 0 _ ""
        hdecision hreleased⟩
    · split
      · obtain ⟨outcome, db', hok, hdecision, hreleased⟩ := @failActive_spec now _ agentId hslots
          (currentTask.map fun current =>
            abandon current.taskId 0 "Server could not match the Agent current task")
        exact Or.inl ⟨outcome, db', hok, sound_of_released hdecision hreleased⟩
      · rename_i task hrow
        have hspec := @reconcileFoundTask_spec env now _ agentId (asciiLower taskId) task
          currentTask durableLog capabilities hslots hrow
          fun current hcurrent => by rw [htask current hcurrent]
        rcases hspec with hsound | ⟨hsome, hlog, hfails⟩
        · exact .inl hsound
        · obtain ⟨current, hcurrent⟩ := Option.isSome_iff_exists.mp hsome
          rw [← htask current hcurrent] at hlog
          exact .inr ⟨⟨current, hcurrent, hlog⟩, hfails⟩

/-- The answer to an `agent.hello` is sound, and only a log that cannot be read makes it fail. -/
theorem reconcileAgentHello_sound (env : Environment) (now : Time)
    (durableLog : Id → Except Failure LogFileState) (db : Db) (agentId : Id)
    (currentTask : Option AgentCurrentTask) (capabilities : List JsString)
    (hslots : (slots db).Consistent)
    (huuid : ∀ current, currentTask = some current → matchesUuid current.taskId = true) :
    (∀ result, reconcileAgentHello env now durableLog db agentId currentTask capabilities =
        .ok result → Sound env now db agentId currentTask result) ∧
    ((db.lockAgent agentId).isSome = true →
      (∀ current, currentTask = some current →
        (durableLog (asciiLower current.taskId)).isOk = true) →
      (reconcileAgentHello env now durableLog db agentId currentTask capabilities).isOk =
        true) := by
  cases hagent : db.lockAgent agentId with
  | none =>
      constructor
      · intro result hresult
        rw [reconcileAgentHello, hagent] at hresult
        cases hresult
      · intro hsome
        cases hsome
  | some agent =>
      have hspec := @reconcileAgentHello_spec env now _ agentId currentTask durableLog capabilities
        _ hslots hagent huuid
      rcases hspec with ⟨outcome, db', hok, hsound⟩ | ⟨⟨current, hcurrent, hlog⟩, hfails⟩
      · rw [hok]
        exact ⟨fun result hresult => Except.ok.inj hresult ▸ hsound, fun _ _ => rfl⟩
      · constructor
        · intro result hresult
          rw [hresult] at hfails
          cases hfails
        · intro _ hall
          rw [hall current hcurrent] at hlog
          cases hlog

/-! An agent that reconnects with the task that it prepares -/

theorem accept_dispatchedDb :
    (accept demoEnvironment 0 dispatchedDb demoAgentId demoTaskId demoToken).isOk = true := by
  decide +kernel

def preparingDb : Db := value _ accept_dispatchedDb

theorem consistent_preparingDb : (slots preparingDb).Consistent :=
  (slotInvariant_of_reachable
    (reachable_dispatchedDb.step (.accept (eq_ok_value _ accept_dispatchedDb)))).consistent

def demoCurrentTask : AgentCurrentTask where
  taskId := demoTaskId
  leaseToken := demoToken
  status := .preparing

/-- The task is resumed with the token of its lease. -/
theorem reconcileAgentHello_preparingDb :
    ∃ outcome db', reconcileAgentHello demoEnvironment 0 (fun _ => .ok ⟨0, 0⟩) preparingDb
        demoAgentId (some demoCurrentTask) [] = .ok (outcome, db') ∧
      outcome.decision.map AgentRecoveryDecision.action = some .resume ∧
      ∃ task, preparingDb.tasks.row demoTaskId = some task ∧
        task.leaseHash = some (demoEnvironment.hashToken demoToken) := by
  have huuid : ∀ current, some demoCurrentTask = some current →
      matchesUuid current.taskId = true := by
    intro current hcurrent
    obtain rfl := Option.some.inj hcurrent
    decide +kernel
  obtain ⟨hsound, hworks⟩ := reconcileAgentHello_sound demoEnvironment 0 (fun _ => .ok ⟨0, 0⟩)
    preparingDb demoAgentId (some demoCurrentTask) [] consistent_preparingDb huuid
  have hok := hworks (by decide +kernel) fun _ _ => rfl
  have hresume : (value _ hok).1.decision.map AgentRecoveryDecision.action = some .resume := by
    decide +kernel +revert
  obtain ⟨decision, hdecision, haction⟩ := Option.map_eq_some_iff.mp hresume
  obtain ⟨current, task, hcurrent, hdeserves⟩ :=
    (hsound _ (eq_ok_value _ hok)).deserved decision hdecision (by rw [haction]; decide)
  obtain rfl := Option.some.inj hcurrent
  have hlower : asciiLower demoTaskId = demoTaskId := by decide +kernel
  exact ⟨_, _, eq_ok_value _ hok, hresume, task, hlower ▸ hdeserves.found, hdeserves.token⟩

end AnvilRun.HelloReconciliation
