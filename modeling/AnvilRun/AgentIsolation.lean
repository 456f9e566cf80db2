import AnvilRun.AgentMessages

namespace AnvilRun.AgentIsolation

open AnvilRun.AgentGateway
open AnvilRun.AgentMessages
open AnvilRun.ArtifactsService
open AnvilRun.Effect
open AnvilRun.Fallible
open AnvilRun.ServerRedactor
open AnvilRun.TaskDatabase
open AnvilRun.TaskLogStorage
open AnvilRun.TaskMoves
open AnvilRun.TaskQueue
open AnvilRun.ValidationPrimitives

/-- The task is one of the agent. -/
def BoundTo (db : Db) (agentId taskId : Id) : Prop :=
  ∃ task, db.tasks.row taskId = some task ∧ task.agentId = agentId

def artifactsOf (db : Db) (taskId : Id) : List Artifact :=
  db.artifacts.filter (fun artifact => decide (artifact.taskId = taskId))

/-- The rows of the agent and of its tasks are the same, and no task changes its agent. -/
structure RowsKept (agentId : Id) (db db' : Db) : Prop where
  agent : db'.agents.row agentId = db.agents.row agentId
  tasks : ∀ taskId task, task.agentId = agentId →
    (db'.tasks.row taskId = some task ↔ db.tasks.row taskId = some task)
  artifacts : ∀ taskId, BoundTo db agentId taskId → artifactsOf db' taskId = artifactsOf db taskId
  bound : ∀ owner taskId, BoundTo db owner taskId → BoundTo db' owner taskId
  canonical : CanonicalIds db → CanonicalIds db'

/-- The ids of tasks are in lower case, and a line of input waits for the agent of its task. -/
structure Consistent (s : Server) : Prop where
  canonical : CanonicalIds s.db
  inputs : ∀ inputId pending, s.pendingTaskInputs inputId = some pending →
    BoundTo s.db pending.agentId pending.taskId

/-- The server has the same for the agent and its tasks, except that the lease tokens of the tasks
in `lost` may be gone. -/
structure KeptFor (agentId : Id) (lost : Id → Prop) (s t : Server) : Prop where
  rows : RowsKept agentId s.db t.db
  logs : ∀ taskId, BoundTo s.db agentId taskId → t.logs taskId = s.logs taskId
  redactors : ∀ taskId, BoundTo s.db agentId taskId → t.redactors taskId = s.redactors taskId
  activeLeaseTokens : ∀ taskId, BoundTo s.db agentId taskId →
    t.activeLeaseTokens taskId = s.activeLeaseTokens taskId ∨
      lost taskId ∧ t.activeLeaseTokens taskId = none
  pendingTaskInputs : ∀ inputId pending, BoundTo s.db agentId pending.taskId →
    (t.pendingTaskInputs inputId = some pending ↔ s.pendingTaskInputs inputId = some pending)

/-- What every step of a handler for another agent does. -/
def Isolated (agentId : Id) (lost : Id → Prop) (s t : Server) : Prop :=
  Consistent s → Consistent t ∧ KeptFor agentId lost s t

variable {agentId other taskId : Id} {lost : Id → Prop} {db db' db'' : Db} {s t u : Server}
  {env : Environment} {occasion : Occasion} {now : Time}

theorem BoundTo.unique (h : BoundTo db agentId taskId) (h' : BoundTo db other taskId) :
    agentId = other := by
  obtain ⟨task, hrow, rfl⟩ := h
  obtain ⟨task', hrow', rfl⟩ := h'
  rw [Option.some.inj (hrow.symm.trans hrow')]

/-- An id in any spelling of a task of another agent is no task of the agent. -/
theorem not_boundTo_of_spelling (hids : CanonicalIds db) (hother : agentId ≠ other)
    {spelling : JsString} (h : BoundTo db other (asciiLower spelling)) :
    ¬ BoundTo db agentId spelling := by
  rintro ⟨task, hrow, howner⟩
  rw [hids spelling task hrow] at h
  exact hother (BoundTo.unique ⟨task, hrow, howner⟩ h)

/-! The rows -/

theorem RowsKept.refl : RowsKept agentId db db :=
  ⟨rfl, fun _ _ _ => Iff.rfl, fun _ _ => rfl, fun _ _ h => h, fun h => h⟩

theorem RowsKept.boundTo (h : RowsKept agentId db db') :
    BoundTo db' agentId taskId ↔ BoundTo db agentId taskId := by
  constructor
  · rintro ⟨task, hrow, howner⟩
    exact ⟨task, (h.tasks taskId task howner).mp hrow, howner⟩
  · exact h.bound agentId taskId

theorem RowsKept.trans (h : RowsKept agentId db db') (h' : RowsKept agentId db' db'') :
    RowsKept agentId db db'' where
  agent := h'.agent.trans h.agent
  tasks := fun k t howner => (h'.tasks k t howner).trans (h.tasks k t howner)
  artifacts := fun k hk => (h'.artifacts k (h.boundTo.mpr hk)).trans (h.artifacts k hk)
  bound := fun owner k hk => h'.bound owner k (h.bound owner k hk)
  canonical := fun hids => h'.canonical (h.canonical hids)

/-- A change of a row of another agent, which stays with its agent. -/
theorem rowsKept_modify (hother : agentId ≠ other) {task : BuildTask}
    (hrow : db.tasks.row taskId = some task) (howner : task.agentId = other)
    {f : BuildTask → BuildTask} (hf : ∀ task, (f task).agentId = task.agentId) :
    RowsKept agentId db { db with tasks := db.tasks.modify taskId f } where
  agent := rfl
  tasks := by
    intro k t ht
    show (db.tasks.modify taskId f).row k = some t ↔ _
    rw [Table.modify_row]
    split
    · rename_i hk
      subst hk
      rw [hrow]
      constructor
      · intro h
        apply absurd (ht.symm.trans _) hother
        rw [← Option.some.inj h, hf, howner]
      · intro h
        apply absurd (ht.symm.trans _) hother
        rw [← Option.some.inj h, howner]
    · exact Iff.rfl
  artifacts := fun _ _ => rfl
  bound := by
    rintro owner k ⟨t, ht, htowner⟩
    by_cases hk : k = taskId
    · subst hk
      exact ⟨f t, (Table.modify_row_self ..).trans (congrArg (Option.map f) ht), (hf t).trans htowner⟩
    · exact ⟨t, (Table.modify_row_of_ne _ hk _).trans ht, htowner⟩
  canonical := by
    intro hids k t hk
    change (db.tasks.modify taskId f).row k = some t at hk
    rw [Table.modify_row] at hk
    split at hk
    · rename_i heq
      rw [heq]
      exact hids _ _ hrow
    · exact hids k t hk

theorem RowsKept.of_tasks (hagents : db'.agents.row agentId = db.agents.row agentId)
    (htasks : db'.tasks = db.tasks)
    (hartifacts : ∀ taskId, BoundTo db agentId taskId → artifactsOf db' taskId = artifactsOf db taskId) :
    RowsKept agentId db db' where
  agent := hagents
  tasks := fun _ _ _ => by rw [htasks]
  artifacts := hartifacts
  bound := by
    rintro owner k ⟨t, ht, howner⟩
    exact ⟨t, by rwa [htasks], howner⟩
  canonical := by
    intro hids k t hk
    rw [htasks] at hk
    exact hids k t hk

theorem rowsKept_setAgent (hother : agentId ≠ other) (f : Agent → Agent) :
    RowsKept agentId db (db.setAgent other f) :=
  .of_tasks (Table.modify_row_of_ne _ hother f) rfl (fun _ _ => rfl)

theorem rowsKept_of_move {careless dispatches : Prop} (hother : agentId ≠ other)
    (h : Move other careless dispatches db db') : RowsKept agentId db db' := by
  cases h with
  | @status now _ taskId task next source reason data hrow howner _ _ _ =>
      have hwrite : RowsKept agentId db
          { db with tasks := db.tasks.modify taskId (data.write now next reason) } :=
        rowsKept_modify hother hrow howner fun _ => rfl
      exact hwrite.trans (.of_tasks rfl rfl fun _ _ => rfl)
  | task hrow howner _ => exact rowsKept_modify hother hrow howner fun _ => rfl
  | agent => exact rowsKept_setAgent hother _
  | create hinsert howner hcanonical _ _ =>
      have hfresh := Table.insert_fresh hinsert
      have hrow := Table.insert_row hinsert
      refine ⟨rfl, fun k t ht => ?_, fun _ _ => rfl, fun owner k hk => ?_, fun hids k t hk => ?_⟩
      · show Table.row _ k = some t ↔ _
        rw [hrow]
        split
        · rename_i hk
          rw [hk, hfresh]
          constructor
          · intro h
            obtain rfl := Option.some.inj h
            exact absurd (ht.symm.trans howner) hother
          · intro h
            cases h
        · exact Iff.rfl
      · obtain ⟨t, ht, htowner⟩ := hk
        refine ⟨t, ?_, htowner⟩
        show Table.row _ k = some t
        rw [hrow, if_neg, ht]
        rintro rfl
        rw [hfresh] at ht
        cases ht
      · change Table.row _ k = some t at hk
        rw [hrow] at hk
        split at hk
        · rename_i heq
          rw [heq]
          exact hcanonical
        · exact hids k t hk

/-- The operations on behalf of another agent leave the rows of the agent alone. -/
theorem rowsKept_of_moves (hother : agentId ≠ other) (h : Moves other True True db db') :
    RowsKept agentId db db' := by
  induction h with
  | refl => exact .refl
  | tail _ hmove ih => exact ih.trans (rowsKept_of_move hother hmove)

/-! The steps of the handlers -/

theorem KeptFor.refl : KeptFor agentId lost s s :=
  ⟨.refl, fun _ _ => rfl, fun _ _ => rfl, fun _ _ => Or.inl rfl, fun _ _ _ => Iff.rfl⟩

theorem KeptFor.trans (h : KeptFor agentId lost s t) (h' : KeptFor agentId lost t u) :
    KeptFor agentId lost s u where
  rows := h.rows.trans h'.rows
  logs := fun k hk => (h'.logs k (h.rows.boundTo.mpr hk)).trans (h.logs k hk)
  redactors := fun k hk => (h'.redactors k (h.rows.boundTo.mpr hk)).trans (h.redactors k hk)
  activeLeaseTokens := by
    intro k hk
    rcases h'.activeLeaseTokens k (h.rows.boundTo.mpr hk) with hsame | hgone
    · rw [hsame]
      exact h.activeLeaseTokens k hk
    · exact Or.inr hgone
  pendingTaskInputs := fun inputId pending hk =>
    (h'.pendingTaskInputs inputId pending (h.rows.boundTo.mpr hk)).trans
      (h.pendingTaskInputs inputId pending hk)

theorem isolated_refl (s : Server) : Isolated agentId lost s s :=
  fun hs => ⟨hs, .refl⟩

theorem isolated_trans (s t u : Server) (h : Isolated agentId lost s t)
    (h' : Isolated agentId lost t u) : Isolated agentId lost s u := by
  intro hs
  obtain ⟨ht, hst⟩ := h hs
  obtain ⟨hu, htu⟩ := h' ht
  exact ⟨hu, hst.trans htu⟩

/-- A step that leaves all of this alone. -/
theorem isolated_of_same (hdb : t.db = s.db) (hlogs : t.logs = s.logs)
    (hredactors : t.redactors = s.redactors) (htokens : t.activeLeaseTokens = s.activeLeaseTokens)
    (hinputs : t.pendingTaskInputs = s.pendingTaskInputs) : Isolated agentId lost s t := by
  intro hs
  refine ⟨⟨?_, ?_⟩, ?_, ?_, ?_, ?_, ?_⟩
  · rw [hdb]
    exact hs.canonical
  · rw [hdb, hinputs]
    exact hs.inputs
  · rw [hdb]
    exact .refl
  · exact fun k _ => by rw [hlogs]
  · exact fun k _ => by rw [hredactors]
  · exact fun k _ => Or.inl (by rw [htokens])
  · exact fun inputId pending _ => by rw [hinputs]

theorem isolated_setDb (h : Consistent s → RowsKept agentId s.db db') :
    Isolated agentId lost s (s.setDb db') := by
  intro hs
  have hrows := h hs
  refine ⟨⟨hrows.canonical hs.canonical, fun inputId pending hpending => ?_⟩, ⟨hrows, ?_, ?_, ?_, ?_⟩⟩
  · exact hrows.bound _ _ (hs.inputs inputId pending hpending)
  · exact fun _ _ => rfl
  · exact fun _ _ => rfl
  · exact fun _ _ => Or.inl rfl
  · exact fun _ _ _ => Iff.rfl

/-- A change of a map at an id that is no task of the agent. -/
theorem update_of_not_boundTo {α : Type} {f : Id → α} {a : α} {k : Id}
    (h : ¬ BoundTo db agentId taskId) (hk : BoundTo db agentId k) :
    Function.update f taskId a k = f k := by
  apply Function.update_of_ne
  rintro rfl
  exact h hk

theorem isolated_forgetLease (h : Consistent s → lost taskId ∨ ¬ BoundTo s.db agentId taskId) :
    Isolated agentId lost s (s.forgetLease taskId) := by
  intro hs
  refine ⟨⟨hs.canonical, hs.inputs⟩, ⟨.refl, fun _ _ => rfl, fun _ _ => rfl, fun k hk => ?_,
    fun _ _ _ => Iff.rfl⟩⟩
  rcases h hs with hlost | hfree
  · by_cases heq : k = taskId
    · subst heq
      exact Or.inr ⟨hlost, Function.update_self ..⟩
    · exact Or.inl (Function.update_of_ne heq ..)
  · exact Or.inl (update_of_not_boundTo hfree hk)

theorem isolated_setLease {leaseToken : JsString}
    (h : Consistent s → ¬ BoundTo s.db agentId taskId) :
    Isolated agentId lost s (s.setLease taskId leaseToken) := by
  intro hs
  exact ⟨⟨hs.canonical, hs.inputs⟩, ⟨.refl, fun _ _ => rfl, fun _ _ => rfl,
    fun k hk => Or.inl (update_of_not_boundTo (h hs) hk), fun _ _ _ => Iff.rfl⟩⟩

theorem isolated_dropInputs {drop : PendingTaskInput → Bool}
    (h : Consistent s → ∀ pending, BoundTo s.db agentId pending.taskId →
      BoundTo s.db pending.agentId pending.taskId → drop pending = false) :
    Isolated agentId lost s (s.dropInputs drop) := by
  intro hs
  refine ⟨⟨hs.canonical, fun inputId pending hpending => ?_⟩, ⟨.refl, fun _ _ => rfl, fun _ _ => rfl,
    fun _ _ => Or.inl rfl, fun inputId pending hk => ?_⟩⟩
  · exact hs.inputs inputId pending (Option.filter_eq_some_iff.mp hpending).1
  · show (s.pendingTaskInputs inputId).filter _ = some pending ↔ _
    rw [Option.filter_eq_some_iff]
    constructor
    · exact And.left
    · intro hpending
      refine ⟨hpending, ?_⟩
      rw [h hs pending hk (hs.inputs inputId pending hpending)]
      rfl

theorem isolated_finishTaskRuntime (h : Consistent s → ¬ BoundTo s.db agentId taskId) :
    Isolated agentId lost s (s.finishTaskRuntime taskId) := by
  refine isolated_trans _ _ _ (isolated_forgetLease fun hs => Or.inr (h hs))
    (isolated_dropInputs fun hs pending hk _ => decide_eq_false ?_)
  rintro rfl
  exact h ⟨hs.canonical, hs.inputs⟩ hk

theorem isolated_rejectPendingTaskInputs (hother : agentId ≠ other) :
    Isolated agentId lost s (s.rejectPendingTaskInputs other) := by
  refine isolated_dropInputs fun hs pending hk howner => decide_eq_false ?_
  rintro rfl
  exact hother (hk.unique howner)

theorem isolated_handleTaskInputAck (hother : agentId ≠ other) (message : TaskInputAckMessage) :
    Isolated agentId lost s (s.handleTaskInputAck other message) := by
  rw [Server.handleTaskInputAck]
  split
  · exact isolated_refl s
  rename_i pending hpending
  split
  · exact isolated_refl s
  rename_i hmatch
  obtain ⟨howner, -⟩ := not_or.mp hmatch
  split
  · exact isolated_refl s
  split
  · exact isolated_refl s
  intro hs
  have hfree : ¬ BoundTo s.db agentId pending.taskId := by
    intro hk
    apply hother
    rw [← not_not.mp howner]
    exact hk.unique (hs.inputs _ _ hpending)
  refine ⟨⟨hs.canonical, fun inputId found hfound => ?_⟩, ⟨.refl, fun _ _ => rfl, fun _ _ => rfl,
    fun _ _ => Or.inl rfl, fun inputId found hk => ?_⟩⟩
  · change Function.update _ _ _ _ = _ at hfound
    rw [Function.update_apply] at hfound
    split at hfound
    · cases hfound
    · exact hs.inputs inputId found hfound
  · show Function.update _ _ _ _ = _ ↔ _
    rw [Function.update_apply]
    split
    · rename_i hid
      rw [hid, hpending]
      constructor
      · intro h
        cases h
      · intro h
        obtain rfl := Option.some.inj h
        exact absurd hk hfree
    · exact Iff.rfl

/-! Transactions -/

theorem keeps_inTransaction {α : Type} {f : Server → Db → Except Failure (α × Db)}
    (h : ∀ s a db', Consistent s → f s s.db = .ok (a, db') → RowsKept agentId s.db db') :
    Keeps (Isolated agentId lost) (inTransaction f) :=
  keeps_transaction isolated_refl fun s a db' hf => isolated_setDb fun hs => h s a db' hs hf

/-- What follows a step knows that the step left the agent alone. -/
theorem isolated_bind {α β : Type} {x : Handler α} {f : α → Handler β}
    (hx : Isolated agentId lost s (x.run s))
    (hf : ∀ a t, KeptFor agentId lost s t → Isolated agentId lost t ((f a).run t)) :
    Isolated agentId lost s ((x >>= f).run s) := by
  intro hs
  have hends : Ends (x >>= f) (fun _ t => Consistent t ∧ KeptFor agentId lost s t)
      (fun _ t => Consistent t ∧ KeptFor agentId lost s t) s := by
    apply ends_bind.mpr
    have hfirst : Ends x (fun _ t => Consistent t ∧ KeptFor agentId lost s t)
        (fun _ t => Consistent t ∧ KeptFor agentId lost s t) s := ends_run.mpr (hx hs)
    refine hfirst.imp (fun a t hst => ?_) (fun _ _ hst => hst)
    obtain ⟨ht, hkept⟩ := hst
    obtain ⟨hu, hrest⟩ := hf a t hkept ht
    exact ends_run.mpr ⟨hu, hkept.trans hrest⟩
  exact ends_run.mp hends

/-- What follows a transaction starts from the rows that it wrote. -/
theorem isolated_transaction_bind {α β : Type} {f : Server → Db → Except Failure (α × Db)}
    {g : α → Handler β} (h : ∀ a db', f s s.db = .ok (a, db') → RowsKept agentId s.db db')
    (hg : ∀ a db', Consistent s → f s s.db = .ok (a, db') →
      Isolated agentId lost (s.setDb db') ((g a).run (s.setDb db'))) :
    Isolated agentId lost s ((inTransaction f >>= g).run s) := by
  apply ends_run.mp
  apply ends_bind.mpr
  apply ends_transaction.mpr
  refine ⟨fun a db' hf => ?_, fun _ _ => isolated_refl s⟩
  apply ends_run.mpr
  intro hs
  exact isolated_trans _ _ _ (isolated_setDb fun _ => h a db' hf) (hg a db' hs hf) hs

/-! The queue -/

theorem keeps_notifyAvailable : Keeps (Isolated agentId lost) (notifyAvailable other) := by
  apply keeps_modify
  intro s
  dsimp only
  split
  · exact isolated_refl s
  · rw [Server.notify]
    split
    · exact isolated_of_same rfl rfl rfl rfl rfl
    · exact isolated_refl s

theorem keeps_onAgentReady (hother : agentId ≠ other) :
    Keeps (Isolated agentId lost) (onAgentReady now other) := by
  apply Keeps.bind isolated_trans
  · apply keeps_inTransaction
    intro s ready db' _ h
    exact rowsKept_of_moves hother (onAgentReady_moves h)
  · exact fun ready s => rel_run_onlyIf isolated_refl fun _ => keeps_notifyAvailable s

theorem isolated_disconnectOne (hother : agentId ≠ other) (hbound : BoundTo s.db other taskId) :
    Isolated agentId lost s ((disconnectOne now other taskId).run s) := by
  apply rel_run_recover isolated_trans
  · have hrows : ∀ {preserved : Bool} {db' : Db}, disconnectTask now s.db other taskId =
        .ok (preserved, db') → RowsKept agentId s.db db' := fun h =>
      rowsKept_of_moves hother (disconnectTask_moves h)
    refine isolated_transaction_bind (fun _ _ h => hrows h) fun preserved db' _ h => ?_
    refine rel_run_onlyIf isolated_refl fun _ => isolated_forgetLease fun _ => Or.inr fun hk => ?_
    exact hother (hk.unique ((hrows h).bound _ _ hbound))
  · exact fun _ t _ => isolated_refl t

theorem isolated_disconnectTasks (hother : agentId ≠ other) (taskIds : List Id)
    (hbound : ∀ k ∈ taskIds, BoundTo s.db other k) :
    Isolated agentId lost s ((disconnectTasks now other taskIds).run s) := by
  induction taskIds generalizing s with
  | nil => exact isolated_refl s
  | cons taskId taskIds ih =>
      refine isolated_bind (isolated_disconnectOne hother (hbound taskId List.mem_cons_self)) ?_
      intro _ t hkept
      exact ih fun k hk => hkept.rows.bound _ _ (hbound k (List.mem_cons_of_mem _ hk))

theorem boundTo_of_mem_disconnectedTasks
    (h : taskId ∈ ConnectionEndings.disconnectedTasks db agentId) : BoundTo db agentId taskId := by
  obtain ⟨entry, hentry, rfl⟩ := List.mem_map.mp h
  obtain ⟨hmem, hfilter⟩ := List.mem_filter.mp (List.mem_mergeSort.mp hentry)
  rw [Bool.and_eq_true, decide_eq_true_eq] at hfilter
  exact ⟨entry.2, Table.mem_entries.mp hmem, hfilter.1⟩

theorem isolated_onAgentDisconnected (hother : agentId ≠ other) :
    Isolated agentId lost s ((onAgentDisconnected now other).run s) := by
  rw [onAgentDisconnected, run_modify_bind, run_get_bind]
  refine isolated_trans _ _ _ (isolated_rejectPendingTaskInputs hother) ?_
  exact isolated_disconnectTasks hother _ fun _ hk => boundTo_of_mem_disconnectedTasks hk

/-! What the transactions say about other tasks is about tasks of their agent -/

theorem boundTo_of_change {task task' : BuildTask} {owner k : Id}
    (h : ExecutionSlot.TaskChange db db' taskId task task') (hk : BoundTo db owner k) :
    BoundTo db' owner k := by
  obtain ⟨found, hrow, howner⟩ := hk
  by_cases heq : k = taskId
  · subst heq
    obtain rfl : found = task := Option.some.inj (hrow.symm.trans h.before)
    exact ⟨task', h.after, h.agentId.trans howner⟩
  · exact ⟨found, (h.others k heq).trans hrow, howner⟩

theorem boundTo_of_transition {next : BuildTaskStatus} {source : TaskStatusSource}
    {reason : Option JsString} {data : TransitionData} {owner k : Id}
    (h : transition now db taskId next source reason data = .ok db') (hk : BoundTo db owner k) :
    BoundTo db' owner k := by
  obtain ⟨current, hcurrent, -⟩ := transition_eq_ok.mp h
  rcases ExecutionSlot.taskChange_transition h hcurrent with ⟨-, rfl⟩ | ⟨-, hchange⟩
  · exact hk
  · exact boundTo_of_change hchange hk

/-- The tasks that a claim failed, and the one that it dispatched. -/
structure ClaimOwn (db : Db) (agentId : Id) (outcome : ClaimOutcome) : Prop where
  terminal : ∀ k ∈ outcome.terminalTaskIds, BoundTo db agentId k
  result : ∀ assignment, outcome.result = some assignment → BoundTo db agentId assignment.taskId

theorem ClaimOwn.nothing {outcome : ClaimOutcome} (hresult : outcome.result = none)
    (hterminal : ∀ k ∈ outcome.terminalTaskIds, BoundTo db agentId k) :
    ClaimOwn db agentId outcome where
  terminal := hterminal
  result := by
    intro assignment hsome
    rw [hresult] at hsome
    cases hsome

theorem claimLoop_own {registry : AgentRegistry.Registry} {tokens : Nat → JsString} {agent : Agent}
    {requested : Option Id} {outcome : ClaimOutcome} (attempts : Nat) :
    ∀ (terminal : List Id) (db : Db), (∀ k ∈ terminal, BoundTo db agentId k) →
      claimLoop env registry now tokens agentId agent requested attempts terminal db =
        .ok (outcome, db') → ClaimOwn db' agentId outcome := by
  induction attempts with
  | zero =>
      intro terminal db hterminal h
      obtain ⟨rfl, rfl⟩ := Prod.mk.inj (Except.ok.inj h)
      exact .nothing rfl hterminal
  | succ attempts ih =>
      intro terminal db hterminal h
      rw [claimLoop] at h
      split at h
      · obtain ⟨rfl, rfl⟩ := Prod.mk.inj (Except.ok.inj h)
        exact .nothing rfl hterminal
      rename_i taskId task hfirst
      obtain ⟨hrow, howner, -⟩ := SlotPreservation.firstQueued_row hfirst
      -- a task that cannot be dispatched joins the terminal ones
      have hskip : ∀ {reason : JsString} {next : Db},
          failUndispatchable now db taskId reason = .ok next →
          ∀ k ∈ terminal ++ [taskId], BoundTo next agentId k := by
        intro reason next hfail k hk
        simp only [failUndispatchable, bind_eq_ok] at hfail
        obtain ⟨between, hdispatched, hfailed⟩ := hfail
        apply boundTo_of_transition hfailed
        apply boundTo_of_transition hdispatched
        rcases List.mem_append.mp hk with hold | hnew
        · exact hterminal k hold
        · rw [List.mem_singleton.mp hnew]
          exact ⟨task, hrow, howner⟩
      simp only [bind_eq_ok, require_eq_ok] at h
      obtain ⟨project, -, template, -, h⟩ := h
      split at h
      · simp only [bind_eq_ok] at h
        obtain ⟨next, hfail, hrest⟩ := h
        exact ih _ _ (hskip hfail) hrest
      split at h
      · simp only [bind_eq_ok, pure_eq_ok, Prod.mk.injEq] at h
        obtain ⟨next, htransition, rfl, rfl⟩ := h
        exact .nothing rfl fun k hk => boundTo_of_transition htransition (hterminal k hk)
      split at h
      · simp only [bind_eq_ok] at h
        obtain ⟨next, hfail, hrest⟩ := h
        exact ih _ _ (hskip hfail) hrest
      · simp only [bind_eq_ok, pure_eq_ok, Prod.mk.injEq] at h
        obtain ⟨next, htransition, rfl, rfl⟩ := h
        have hafter : ∀ k, BoundTo db agentId k → BoundTo next agentId k :=
          fun k hk => boundTo_of_transition htransition hk
        refine ⟨fun k hk => hafter k (hterminal k hk), fun assignment hsome => ?_⟩
        obtain rfl := Option.some.inj hsome
        exact hafter taskId ⟨task, hrow, howner⟩

theorem claimInTransaction_own {registry : AgentRegistry.Registry} {tokens : Nat → JsString}
    {requested : Option JsString} {outcome : ClaimOutcome}
    (h : claimInTransaction env registry now tokens db agentId requested = .ok (outcome, db')) :
    ClaimOwn db' agentId outcome := by
  simp only [claimInTransaction, bind_eq_ok, require_eq_ok, ensure_eq_ok] at h
  obtain ⟨agent, -, -, -, -, -, h⟩ := h
  split at h
  · obtain ⟨rfl, rfl⟩ := Prod.mk.inj (pure_eq_ok.mp h)
    exact .nothing rfl fun _ hk => absurd hk List.not_mem_nil
  · exact claimLoop_own _ _ _ (fun _ hk => absurd hk List.not_mem_nil) h

/-- The tasks that a hello failed, and the one whose lease token it brings back. -/
structure HelloOwn (db : Db) (agentId : Id) (outcome : HelloOutcome) : Prop where
  terminal : ∀ k ∈ outcome.terminalTaskIds, BoundTo db agentId k
  restore : ∀ k token, outcome.leaseToRestore = some (k, token) → BoundTo db agentId k

theorem helloOwn_nothing {decision : Option AgentRecoveryDecision} :
    HelloOwn db agentId ⟨decision, none, []⟩ where
  terminal := fun _ hk => absurd hk List.not_mem_nil
  restore := by
    intro k token hsome
    cases hsome

theorem failAndAnswer_own {decision : Option AgentRecoveryDecision} {result : HelloOutcome × Db}
    (h : failAndAnswer now db agentId taskId decision = .ok result) :
    HelloOwn result.2 agentId result.1 := by
  simp only [failAndAnswer, bind_eq_ok, pure_eq_ok] at h
  obtain ⟨⟨failed, next⟩, hfail, rfl⟩ := h
  refine ⟨fun k hk => ?_, fun k token hsome => ?_⟩
  · dsimp only at hk
    split at hk
    · rename_i htrue
      obtain rfl := List.mem_singleton.mp hk
      obtain rfl : failed = true := htrue
      rw [failOrphanedTask] at hfail
      split at hfail
      · cases hfail
      rename_i task hrow
      split at hfail
      · cases hfail
      rename_i hopen
      simp only [bind_eq_ok, pure_eq_ok, Prod.mk.injEq] at hfail
      obtain ⟨between, htransition, -, rfl⟩ := hfail
      have hafter : BoundTo between agentId k :=
        boundTo_of_transition htransition ⟨task, hrow, not_not.mp (not_or.mp hopen).1⟩
      exact hafter
    · exact absurd hk List.not_mem_nil
  · cases hsome

theorem failActive_own {active : Option Id} {decision : Option AgentRecoveryDecision}
    {result : HelloOutcome × Db} (h : failActive now db agentId active decision = .ok result) :
    HelloOwn result.2 agentId result.1 := by
  cases active with
  | some active => exact failAndAnswer_own h
  | none =>
      obtain rfl := Except.ok.inj h
      exact helloOwn_nothing

theorem reconcileHeldTask_own {task : BuildTask} {current : AgentCurrentTask} {acknowledged : Nat}
    {result : HelloOutcome × Db} (hbound : BoundTo db agentId taskId)
    (h : reconcileHeldTask now db agentId taskId task current acknowledged = .ok result) :
    HelloOwn result.2 agentId result.1 := by
  have hrestore : ∀ {db' : Db} {decision : Option AgentRecoveryDecision}, BoundTo db' agentId taskId →
      HelloOwn db' agentId ⟨decision, some (taskId, current.leaseToken), []⟩ := by
    intro db' decision hbound'
    refine ⟨fun _ hk => absurd hk List.not_mem_nil, fun k token hsome => ?_⟩
    obtain ⟨rfl, -⟩ := Prod.mk.inj (Option.some.inj hsome)
    exact hbound'
  rw [reconcileHeldTask.eq_def] at h
  dsimp only at h
  split at h
  · split at h
    · split at h
      · exact failAndAnswer_own h
      · simp only [bind_eq_ok, pure_eq_ok] at h
        obtain ⟨next, htransition, rfl⟩ := h
        exact hrestore (boundTo_of_transition htransition hbound)
    · exact failAndAnswer_own h
  split at h
  · split at h
    · exact failAndAnswer_own h
    · obtain rfl := Except.ok.inj h
      exact hrestore hbound
  split at h
  · exact failAndAnswer_own h
  · obtain rfl := Except.ok.inj h
    exact hrestore hbound

theorem reconcileAgentHello_own {durableLog : Id → Except Failure LogFileState}
    {current : Option AgentCurrentTask} {capabilities : List JsString} {result : HelloOutcome × Db}
    (h : TaskQueue.reconcileAgentHello env now durableLog db agentId current capabilities =
      .ok result) : HelloOwn result.2 agentId result.1 := by
  simp only [TaskQueue.reconcileAgentHello, bind_eq_ok, require_eq_ok] at h
  obtain ⟨agent, -, h⟩ := h
  split at h
  · obtain rfl := pure_eq_ok.mp h
    exact helloOwn_nothing
  split at h
  · exact failActive_own h
  split at h
  · exact failActive_own h
  rename_i task hrow
  rw [reconcileFoundTask.eq_def] at h
  dsimp only at h
  split at h
  · exact failActive_own h
  rename_i hvalid
  have howner : task.agentId = agentId := by
    by_contra hne
    exact hvalid (Or.inl hne)
  split at h
  · exact failAndAnswer_own h
  split at h
  · exact failAndAnswer_own h
  split at h
  · exact failAndAnswer_own h
  simp only [bind_eq_ok] at h
  obtain ⟨log, -, h⟩ := h
  refine reconcileHeldTask_own ?_ h
  rw [alignLogCursor]
  split
  · exact boundTo_of_change (ExecutionSlot.taskChange_updateTask hrow) ⟨task, hrow, howner⟩
  · exact ⟨task, hrow, howner⟩

/-! The handlers of the queue -/

theorem not_boundTo (hother : agentId ≠ other) (h : BoundTo db other taskId) :
    ¬ BoundTo db agentId taskId :=
  fun hk => hother (hk.unique h)

theorem finishTasks_db (taskIds : List Id) (s : Server) : (s.finishTasks taskIds).db = s.db := by
  induction taskIds generalizing s with
  | nil => rfl
  | cons taskId taskIds ih => exact ih (s.finishTaskRuntime taskId)

theorem isolated_finishTasks (hother : agentId ≠ other) (taskIds : List Id)
    (h : ∀ k ∈ taskIds, BoundTo s.db other k) : Isolated agentId lost s (s.finishTasks taskIds) := by
  induction taskIds generalizing s with
  | nil => exact isolated_refl s
  | cons taskId taskIds ih =>
      refine isolated_trans _ _ _ (isolated_finishTaskRuntime fun _ =>
        not_boundTo hother (h taskId List.mem_cons_self)) (ih fun k hk => ?_)
      exact h k (List.mem_cons_of_mem _ hk)

theorem isolated_restoreLease (hother : agentId ≠ other) {lease : Option (Id × JsString)}
    (h : ∀ k token, lease = some (k, token) → BoundTo s.db other k) :
    Isolated agentId lost s (s.restoreLease lease) := by
  rcases lease with - | ⟨k, token⟩
  · exact isolated_refl s
  · exact isolated_setLease fun _ => not_boundTo hother (h k token rfl)

/-- What a claim does in memory for the tasks that it failed or dispatched. -/
theorem isolated_settleClaim {outcome : ClaimOutcome} (hother : agentId ≠ other)
    (hclaim : ClaimOwn s.db other outcome) :
    Isolated agentId lost s ((s.finishTasks outcome.terminalTaskIds).restoreLease
      (outcome.result.map (fun assignment => (assignment.taskId, assignment.leaseToken)))) := by
  refine isolated_trans _ _ _ (isolated_finishTasks hother _ hclaim.terminal) ?_
  apply isolated_restoreLease hother
  intro k token hsome
  obtain ⟨assignment, hresult, hpair⟩ := Option.map_eq_some_iff.mp hsome
  obtain ⟨rfl, -⟩ := Prod.mk.inj hpair
  rw [finishTasks_db]
  exact hclaim.result assignment hresult

theorem isolated_storeClaim (now : Time) (key : ClaimCache.ClaimKey) (result : Option TaskAssignment) :
    Isolated agentId lost s (s.storeClaim now key result) := by
  rw [Server.storeClaim]
  exact isolated_of_same rfl rfl rfl rfl rfl

theorem isolated_claim {messageId : JsString} {requested : Option JsString}
    (hother : agentId ≠ other) :
    Isolated agentId lost s ((claim env occasion other messageId requested).run s) := by
  rw [claim, run_get_bind]
  dsimp only
  split
  · exact isolated_refl s
  apply rel_run_check_bind isolated_refl
  intro _
  have hown : ∀ {outcome : ClaimOutcome} {db' : Db},
      (if requested.any (fun taskId => !matchesUuid taskId) then
        (.ok (⟨none, false, []⟩, s.db) : Except Failure (ClaimOutcome × Db))
      else claimInTransaction env s.registry occasion.now occasion.tokens s.db other requested) =
        .ok (outcome, db') → RowsKept agentId s.db db' ∧ ClaimOwn db' other outcome := by
    intro outcome db' h
    split at h
    · obtain ⟨rfl, rfl⟩ := Prod.mk.inj (Except.ok.inj h)
      exact ⟨.refl, .nothing rfl fun _ hk => absurd hk List.not_mem_nil⟩
    · refine ⟨rowsKept_of_moves hother ?_, claimInTransaction_own h⟩
      exact claimInTransaction_moves trivial h fun _ => trivial
  refine isolated_transaction_bind (fun _ _ h => (hown h).1) fun outcome db' _ h => ?_
  have hclaim := (hown h).2
  rw [run_modify_bind, run_modify_bind, run_modify_bind]
  refine isolated_trans _ _ _ (isolated_settleClaim hother hclaim) ?_
  refine isolated_trans _ _ _ (isolated_storeClaim occasion.now (other, messageId) outcome.result) ?_
  refine isolated_bind (rel_run_onlyIf isolated_refl fun _ => keeps_notifyAvailable _) ?_
  exact fun _ u _ => isolated_refl u

/-- A transaction without a result. -/
theorem rowsKept_of_map {x : Except Failure Db} {u : Unit}
    (h : (fun db => ((), db)) <$> x = .ok (u, db')) (hx : x = .ok db' → RowsKept agentId db db') :
    RowsKept agentId db db' := by
  obtain ⟨next, hnext, hpair⟩ := map_eq_ok.mp h
  obtain ⟨-, rfl⟩ := Prod.mk.inj hpair
  exact hx hnext

theorem keeps_accept {leaseToken : JsString} (hother : agentId ≠ other) :
    Keeps (Isolated agentId lost) (accept env now other taskId leaseToken) := by
  apply Keeps.bind isolated_trans (keeps_get isolated_refl)
  intro s t
  apply rel_run_check_bind isolated_refl
  intro _
  apply keeps_inTransaction
  intro t _ db' ht h
  refine rowsKept_of_map h fun haccept => ?_
  exact rowsKept_of_moves hother (accept_moves ht.canonical haccept)

theorem keeps_reportTaskStatus {message : TaskStatusMessage} (hother : agentId ≠ other) :
    Keeps (Isolated agentId lost) (reportTaskStatus env now other message) := by
  apply Keeps.bind isolated_trans (keeps_get isolated_refl)
  intro s t
  apply rel_run_check_bind isolated_refl
  intro _
  apply rel_run_check_bind isolated_refl
  intro _
  apply keeps_inTransaction
  intro t _ db' _ h
  refine rowsKept_of_map h fun hreport => ?_
  exact rowsKept_of_moves hother (reportTaskStatus_moves hreport)

/-- After a report about a task of the other agent the runtime of that task is finished, in
whatever spelling the message has. -/
theorem isolated_finishReported {spelling : JsString} (hother : agentId ≠ other)
    (hbound : BoundTo s.db other (asciiLower spelling)) :
    Isolated agentId lost s (s.finishTaskRuntime spelling) :=
  isolated_finishTaskRuntime fun hs => not_boundTo_of_spelling hs.canonical hother hbound

theorem reportPreparationFailure_own {message : TaskFailedMessage} {failed : Bool}
    (h : TaskQueue.reportPreparationFailure env now db agentId message = .ok (failed, db')) :
    BoundTo db agentId (asciiLower message.taskId) := by
  simp only [TaskQueue.reportPreparationFailure, bind_eq_ok, require_eq_ok, ensure_eq_ok] at h
  obtain ⟨agent, -, -, -, task, hrow, -, howner, -⟩ := h
  exact ⟨task, hrow, howner⟩

theorem reportTaskCanceled_own {message : TaskCanceledMessage} {canceled : Bool}
    (h : TaskQueue.reportTaskCanceled env now db agentId message = .ok (canceled, db')) :
    BoundTo db agentId (asciiLower message.taskId) := by
  simp only [TaskQueue.reportTaskCanceled, bind_eq_ok, require_eq_ok, ensure_eq_ok] at h
  obtain ⟨agent, -, task, hrow, -, howner, -⟩ := h
  exact ⟨task, hrow, howner⟩

theorem completeTask_own {message : TaskCompletedMessage} {completed : Id}
    (h : ArtifactsService.completeTask env now db agentId message = .ok (completed, db')) :
    BoundTo db agentId (asciiLower message.taskId) ∧ completed = asciiLower message.taskId := by
  simp only [ArtifactsService.completeTask, bind_eq_ok, require_eq_ok, ensure_eq_ok] at h
  obtain ⟨agent, -, -, -, task, hrow, -, howner, h⟩ := h
  refine ⟨⟨task, hrow, howner⟩, ?_⟩
  split at h
  · simp only [bind_eq_ok, ensure_eq_ok, pure_eq_ok, Prod.mk.injEq] at h
    obtain ⟨-, -, -, -, rfl, -⟩ := h
    rfl
  · simp only [bind_eq_ok, ensure_eq_ok, pure_eq_ok, Prod.mk.injEq] at h
    obtain ⟨-, -, -, -, next, -, rfl, -⟩ := h
    rfl

theorem failRejectedCompletion_own {message : TaskCompletedMessage}
    (h : TaskQueue.failRejectedCompletion env now db agentId message = .ok (true, db')) :
    BoundTo db agentId (asciiLower message.taskId) := by
  rw [TaskQueue.failRejectedCompletion] at h
  split at h
  · rename_i agent task hagent hrow
    dsimp only at h
    split at h
    · rename_i hmatch
      exact ⟨task, hrow, hmatch.1⟩
    · cases h
  · cases h

theorem keeps_reportPreparationFailure {message : TaskFailedMessage} (hother : agentId ≠ other) :
    Keeps (Isolated agentId lost) (reportPreparationFailure env now other message) := by
  apply Keeps.bind isolated_trans (keeps_get isolated_refl)
  intro s t
  apply rel_run_check_bind isolated_refl
  intro _
  apply rel_run_check_bind isolated_refl
  intro _
  apply rel_run_check_bind isolated_refl
  intro _
  have hrows : ∀ {failed : Bool} {db' : Db}, TaskQueue.reportPreparationFailure env now t.db other
      message = .ok (failed, db') → RowsKept agentId t.db db' := fun h =>
    rowsKept_of_moves hother (reportPreparationFailure_moves h)
  refine isolated_transaction_bind (fun _ _ h => hrows h) fun failed db' _ h => ?_
  have hfinish : Isolated agentId lost (t.setDb db')
      ((t.setDb db').finishTaskRuntime message.taskId) :=
    isolated_finishReported hother ((hrows h).bound _ _ (reportPreparationFailure_own h))
  exact isolated_trans _ _ _ hfinish
    (rel_run_onlyIf isolated_refl fun _ => keeps_onAgentReady hother _)

theorem keeps_reportTaskCanceled {message : TaskCanceledMessage} (hother : agentId ≠ other) :
    Keeps (Isolated agentId lost) (reportTaskCanceled env now other message) := by
  apply Keeps.bind isolated_trans (keeps_get isolated_refl)
  intro s t
  apply rel_run_check_bind isolated_refl
  intro _
  have hrows : ∀ {canceled : Bool} {db' : Db}, TaskQueue.reportTaskCanceled env now t.db other
      message = .ok (canceled, db') → RowsKept agentId t.db db' := fun h =>
    rowsKept_of_moves hother (reportTaskCanceled_moves h)
  refine isolated_transaction_bind (fun _ _ h => hrows h) fun canceled db' _ h => ?_
  have hfinish : Isolated agentId lost (t.setDb db')
      ((t.setDb db').finishTaskRuntime message.taskId) :=
    isolated_finishReported hother ((hrows h).bound _ _ (reportTaskCanceled_own h))
  exact isolated_trans _ _ _ hfinish
    (rel_run_onlyIf isolated_refl fun _ => keeps_onAgentReady hother _)

/-- Here the token of the task that the message names is lost, whoever the task belongs to. -/
theorem keeps_failRejectedCompletion {message : TaskCompletedMessage} (hother : agentId ≠ other)
    (hlost : matchesUuid message.taskId = true → lost message.taskId) :
    Keeps (Isolated agentId lost) (failRejectedCompletion env now other message) := by
  intro s
  rw [AgentMessages.failRejectedCompletion]
  split
  · exact isolated_refl s
  rename_i huuid
  have hrows : ∀ {failed : Bool} {db' : Db}, TaskQueue.failRejectedCompletion env now s.db other
      message = .ok (failed, db') → RowsKept agentId s.db db' := fun h =>
    rowsKept_of_moves hother (failRejectedCompletion_moves h)
  refine isolated_transaction_bind (fun _ _ h => hrows h) fun failed db' _ h => ?_
  split
  · rename_i hfailed
    rw [hfailed] at h
    have hfinish : Isolated agentId lost (s.setDb db')
        ((s.setDb db').finishTaskRuntime message.taskId) :=
      isolated_finishReported hother ((hrows h).bound _ _ (failRejectedCompletion_own h))
    exact isolated_trans _ _ _ hfinish (keeps_onAgentReady hother _)
  · exact isolated_forgetLease fun _ => Or.inl (hlost (Bool.eq_true_of_not_eq_false huuid))

/-! Logs and artifacts -/

theorem isolated_onLog {α : Type} {f : TaskLog → Except StorageError α × TaskLog} {k : JsString}
    (h : Consistent s → ¬ BoundTo s.db agentId k) :
    Isolated agentId lost s ((onLog k f).run s) := by
  intro hs
  exact ⟨⟨hs.canonical, hs.inputs⟩, ⟨.refl, fun _ hk => update_of_not_boundTo (h hs) hk,
    fun _ _ => rfl, fun _ _ => Or.inl rfl, fun _ _ _ => Iff.rfl⟩⟩

theorem isolated_setRedactor {redactor : ServerLogRedactor} (h : ¬ BoundTo s.db agentId taskId) :
    Isolated agentId lost s (s.setRedactor taskId redactor) := by
  intro hs
  exact ⟨⟨hs.canonical, hs.inputs⟩, ⟨.refl, fun _ _ => rfl,
    fun _ hk => update_of_not_boundTo h hk, fun _ _ => Or.inl rfl, fun _ _ _ => Iff.rfl⟩⟩

theorem isolated_setLogCursor {state : TaskLogFileState} (hother : agentId ≠ other)
    (hbound : BoundTo s.db other taskId) :
    Isolated agentId lost s ((updateDb (setLogCursor now taskId state)).run s) := by
  obtain ⟨task, hrow, howner⟩ := hbound
  exact isolated_setDb fun _ => rowsKept_modify hother hrow howner fun _ => rfl

theorem isolated_appendFromAgent {message : TaskLogMessage} (hother : agentId ≠ other) :
    Isolated agentId lost s ((appendFromAgent env occasion other message).run s) := by
  rw [appendFromAgent]
  apply rel_run_check_bind isolated_refl
  intro _
  rw [run_get_bind]
  dsimp only
  split
  · exact isolated_refl s
  rename_i task hrow
  apply rel_run_check_bind isolated_refl
  rintro ⟨howner, -⟩
  have hbound : BoundTo s.db other (asciiLower message.taskId) := ⟨task, hrow, howner⟩
  apply rel_run_check_bind isolated_refl
  intro _
  refine isolated_bind (isolated_onLog fun hs =>
    not_boundTo_of_spelling hs.canonical hother hbound) fun fileState t hst => ?_
  have ht := hst.rows.bound _ _ hbound
  refine isolated_bind (rel_run_onlyIf isolated_refl fun _ => isolated_setLogCursor hother ht)
    fun _ u htu => ?_
  have hu := htu.rows.bound _ _ ht
  split
  · exact isolated_refl u
  refine isolated_bind (isolated_setRedactor (not_boundTo hother hu)) fun _ v huv => ?_
  have hv := huv.rows.bound _ _ hu
  refine isolated_bind (isolated_onLog fun hs =>
    not_boundTo_of_spelling hs.canonical hother hv) fun nextOffset w hvw => ?_
  have hw := hvw.rows.bound _ _ hv
  exact isolated_bind (isolated_setLogCursor hother hw) fun _ u _ => isolated_refl u

theorem registerManifest_rowsKept {host : ArtifactHost} {message : TaskArtifactManifestMessage}
    {files : List ArtifactManifestEntry} {result : ManifestResult} (hother : agentId ≠ other)
    (h : ArtifactsService.registerManifest env host now db other message files =
      .ok (result, db')) : RowsKept agentId db db' := by
  simp only [ArtifactsService.registerManifest, bind_eq_ok, require_eq_ok, ensure_eq_ok] at h
  obtain ⟨agent, -, -, -, task, hrow, -, ⟨howner, -⟩, -, -, h⟩ := h
  have hbound : BoundTo db other (asciiLower message.taskId) := ⟨task, hrow, howner⟩
  split at h
  · simp only [bind_eq_ok, ensure_eq_ok, pure_eq_ok, Prod.mk.injEq] at h
    obtain ⟨-, -, -, rfl⟩ := h
    exact .refl
  · simp only [bind_eq_ok, pure_eq_ok, Prod.mk.injEq] at h
    obtain ⟨-, -, -, rfl⟩ := h
    refine .of_tasks rfl rfl fun k hk => ?_
    have hne : asciiLower message.taskId ≠ k := by
      rintro rfl
      exact not_boundTo hother hbound hk
    rw [artifactsOf, artifactsOf, List.filter_append, List.append_right_eq_self,
      List.filter_eq_nil_iff]
    intro artifact hartifact
    obtain ⟨file, -, rfl⟩ := List.mem_map.mp hartifact
    rw [decide_eq_true_eq]
    exact hne

theorem keeps_registerManifest {message : TaskArtifactManifestMessage} (hother : agentId ≠ other) :
    Keeps (Isolated agentId lost) (registerManifest env occasion other message) := by
  intro s
  apply rel_run_check_bind isolated_refl
  intro _
  split
  · exact isolated_refl s
  · refine keeps_inTransaction ?_ s
    intro t _ db' _ h
    exact registerManifest_rowsKept hother h

/-! The gateway -/

theorem isolated_send (message : ServerMessage) : Isolated agentId lost s (s.send message) := by
  rw [Server.send]
  split
  · exact isolated_of_same rfl rfl rfl rfl rfl
  · exact isolated_refl s

theorem isolated_safeClose : Isolated agentId lost s (s.safeClose other) :=
  isolated_of_same rfl rfl rfl rfl rfl

theorem isolated_rejectConnection (hother : agentId ≠ other) :
    Isolated agentId lost s ((rejectConnection now other).run s) := by
  rw [rejectConnection, run_get_bind, run_modify_bind]
  have hunregister : Isolated agentId lost s (s.unregister other) :=
    isolated_of_same rfl rfl rfl rfl rfl
  refine isolated_trans _ _ _ hunregister ?_
  refine isolated_bind (rel_run_onlyIf isolated_refl fun _ => ?_) fun _ t _ => isolated_safeClose
  refine isolated_bind ?_ fun _ t _ => isolated_onAgentDisconnected hother
  exact isolated_setDb fun _ => rowsKept_setAgent hother _

theorem helloLog_bound {current : Option AgentCurrentTask} {capabilities : List JsString}
    (h : helloLog env now db agentId current capabilities = some taskId) :
    BoundTo db agentId taskId := by
  unfold helloLog at h
  split at h
  · split at h
    · rename_i task hrow
      split at h
      · rename_i hmatch
        obtain rfl := Option.some.inj h
        exact ⟨task, hrow, hmatch.2.1⟩
      · cases h
    · cases h
  · cases h

theorem isolated_reconcileAgentHello {current : Option AgentCurrentTask}
    {capabilities : List JsString} (hother : agentId ≠ other) :
    Isolated agentId lost s
      ((AgentMessages.reconcileAgentHello env now other current capabilities).run s) := by
  rw [AgentMessages.reconcileAgentHello, run_get_bind]
  refine isolated_bind (rel_run_ifSome isolated_refl fun taskId hlog => ?_) fun _ t _ => ?_
  · refine isolated_bind (isolated_onLog fun _ => ?_) fun _ u _ => isolated_refl u
    exact not_boundTo hother (helloLog_bound hlog)
  · refine isolated_transaction_bind (fun _ _ h => ?_) fun outcome db' _ h => ?_
    · exact rowsKept_of_moves hother (reconcileAgentHello_moves h)
    have hown : HelloOwn db' other outcome := reconcileAgentHello_own h
    rw [run_modify_bind, run_modify_bind]
    have hrestored : ((t.setDb db').restoreLease outcome.leaseToRestore).db = db' := by
      rcases outcome.leaseToRestore with - | ⟨k, token⟩
      · rfl
      · rfl
    refine isolated_trans _ _ _ (isolated_restoreLease hother hown.restore) ?_
    apply isolated_finishTasks hother
    rw [hrestored]
    exact hown.terminal

theorem isolated_handleHello {message : AgentHelloMessage} (hother : agentId ≠ other) :
    Isolated agentId lost s ((handleHello env now other message).run s) := by
  rw [handleHello, run_get_bind]
  split
  · exact isolated_rejectConnection hother
  split
  · exact isolated_safeClose
  split
  · exact isolated_rejectConnection hother
  refine isolated_bind (isolated_reconcileAgentHello hother) fun decision t _ => ?_
  refine isolated_bind (isolated_setDb fun _ => rowsKept_setAgent hother _) fun _ u _ => ?_
  have hready : Isolated agentId lost u (u.markReady other (message.capabilities.getD [])) :=
    isolated_of_same rfl rfl rfl rfl rfl
  refine isolated_bind hready fun _ v _ => isolated_bind (isolated_send _) fun _ w _ => ?_
  refine isolated_bind (rel_run_ifSome isolated_refl fun _ _ => isolated_send _) fun _ x _ => ?_
  exact keeps_onAgentReady hother x

theorem isolated_handleHeartbeat {messageAgentId : JsString} {currentTaskId : Option JsString}
    (hother : agentId ≠ other) :
    Isolated agentId lost s ((handleHeartbeat now other messageAgentId currentTaskId).run s) := by
  rw [handleHeartbeat, run_get_bind]
  split
  · exact isolated_rejectConnection hother
  split
  · exact isolated_rejectConnection hother
  · exact isolated_setDb fun _ => rowsKept_setAgent hother _

theorem isolated_onApiException {α : Type} {x handler : Handler α}
    (hx : Isolated agentId lost s (x.run s)) (hhandler : Keeps (Isolated agentId lost) handler) :
    Isolated agentId lost s ((onApiException x handler).run s) := by
  refine rel_run_recover isolated_trans hx fun failure t _ => ?_
  cases failure with
  | api code => exact hhandler t
  | database => exact isolated_refl t

/-- The ids under which a message may delete a lease token of a task of another agent: that of a
completion. -/
def Names (message : AgentMessage) (taskId : Id) : Prop :=
  ∃ completed, message = .completed completed ∧ completed.taskId = taskId ∧
    matchesUuid taskId = true

theorem isolated_handleTaskMessage {message : AgentMessage} (hother : agentId ≠ other) :
    Isolated agentId (Names message) s ((handleTaskMessage env occasion other message).run s) := by
  have hdone : Keeps (Isolated agentId (Names message)) (pure () : Handler Unit) :=
    keeps_pure isolated_refl ()
  have hanswer : ∀ (reply : ServerMessage) (t : Server), Isolated agentId (Names message) t
      ((do modify (Server.send reply); onAgentReady occasion.now other : Handler Unit).run t) :=
    fun reply t => isolated_trans _ _ _ (isolated_send reply) (keeps_onAgentReady hother _)
  cases message with
  | claim id taskId =>
      refine isolated_onApiException ?_ hdone
      refine isolated_bind (isolated_claim hother) fun assignment t _ => ?_
      exact rel_run_ifSome isolated_refl fun _ _ => isolated_send _
  | accepted taskId leaseToken => exact isolated_onApiException (keeps_accept hother s) hdone
  | status message => exact isolated_onApiException (keeps_reportTaskStatus hother s) hdone
  | log message =>
      refine isolated_onApiException ?_ hdone
      exact isolated_bind (isolated_appendFromAgent hother) fun _ t _ => isolated_send _
  | artifactManifest message =>
      refine isolated_onApiException ?_ fun t => isolated_send _
      exact isolated_bind (keeps_registerManifest hother s) fun _ t _ => isolated_send _
  | completed message =>
      refine isolated_onApiException ?_ ?_
      · rw [AgentMessages.completeTask, bind_bind]
        apply rel_run_check_bind isolated_refl
        intro _
        have hrows : ∀ {taskId : Id} {db' : Db}, ArtifactsService.completeTask env occasion.now s.db
            other message = .ok (taskId, db') → RowsKept agentId s.db db' := fun h =>
          rowsKept_of_moves hother (completeTask_moves h)
        refine isolated_transaction_bind (fun _ _ h => hrows h) fun taskId db' _ h => ?_
        obtain ⟨hbound, rfl⟩ := completeTask_own h
        refine isolated_bind (isolated_finishTaskRuntime fun _ => ?_) fun _ t _ => ?_
        · exact not_boundTo hother ((hrows h).bound _ _ hbound)
        · exact isolated_bind (keeps_onAgentReady hother t) fun _ u _ => hanswer _ u
      · apply Keeps.bind isolated_trans
        · exact keeps_failRejectedCompletion hother fun huuid => ⟨message, rfl, rfl, huuid⟩
        · exact fun _ t => isolated_safeClose
  | failed message =>
      refine isolated_onApiException ?_ hdone
      exact isolated_bind (keeps_reportPreparationFailure hother s) fun _ t _ => hanswer _ t
  | canceled message =>
      refine isolated_onApiException ?_ hdone
      exact isolated_bind (keeps_reportTaskCanceled hother s) fun _ t _ => hanswer _ t
  | inputAck message => exact isolated_handleTaskInputAck hother message
  | hello message => exact isolated_safeClose
  | heartbeat messageAgentId currentTaskId => exact isolated_safeClose
  | invalid => exact isolated_safeClose

theorem Isolated.mono {lost' : Id → Prop} (h : Isolated agentId lost s t)
    (himp : ∀ k, lost k → lost' k) : Isolated agentId lost' s t := by
  intro hs
  obtain ⟨ht, hkept⟩ := h hs
  refine ⟨ht, hkept.rows, hkept.logs, hkept.redactors, fun k hk => ?_, hkept.pendingTaskInputs⟩
  rcases hkept.activeLeaseTokens k hk with hsame | ⟨hlost, hgone⟩
  · exact Or.inl hsame
  · exact Or.inr ⟨himp k hlost, hgone⟩

/-- The tasks whose lease token is lost if they belong to another agent. -/
def Threatens (s : Server) (message : AgentMessage) (taskId : Id) : Prop :=
  s.socket.known = true ∧ s.socket.helloReceived = true ∧ Names message taskId

theorem isolated_handleMessage (env : Environment) (occasion : Occasion) (message : AgentMessage)
    (hother : agentId ≠ other) :
    Isolated agentId (Threatens s message) s
      ((handleMessage env occasion other message).run s) := by
  rw [handleMessage, run_get_bind]
  split
  · exact isolated_refl s
  rename_i hknown
  refine rel_run_recover isolated_trans ?_ fun _ t _ => isolated_safeClose
  have htask : Isolated agentId (Threatens s message) s ((if s.socket.helloReceived = false then
      modify (Server.safeClose other) else handleTaskMessage env occasion other message).run s) := by
    split
    · exact isolated_safeClose
    · rename_i hhello
      refine (isolated_handleTaskMessage hother).mono fun k hk => ?_
      exact ⟨Bool.eq_true_of_not_eq_false hknown, Bool.eq_true_of_not_eq_false hhello, hk⟩
  cases message with
  | hello message => exact isolated_handleHello hother
  | heartbeat messageAgentId currentTaskId => exact isolated_handleHeartbeat hother
  | invalid => exact isolated_safeClose
  | claim id taskId => exact htask
  | accepted taskId leaseToken => exact htask
  | status message => exact htask
  | log message => exact htask
  | artifactManifest message => exact htask
  | completed message => exact htask
  | failed message => exact htask
  | canceled message => exact htask
  | inputAck message => exact htask

/-! A completion that names a task of another agent -/

theorem completeTask_rejects {task : BuildTask} {message : TaskCompletedMessage}
    (hrow : db.findTask message.taskId = some task) (howner : task.agentId ≠ other) :
    ∃ code, ArtifactsService.completeTask env now db other message = .error (.api code) := by
  rw [ArtifactsService.completeTask, hrow]
  cases db.lockAgent other with
  | none => exact ⟨_, rfl⟩
  | some agent =>
      by_cases henabled : agent.enabled = true ∧ agent.status = .online
      · refine ⟨.taskLeaseInvalid, ?_⟩
        simp [require, ensure, henabled, howner, bind, Except.bind]
      · refine ⟨.taskLeaseInvalid, ?_⟩
        simp [require, ensure, henabled, bind, Except.bind]

theorem failRejectedCompletion_ignores {task : BuildTask} {message : TaskCompletedMessage}
    (hrow : db.findTask message.taskId = some task) (howner : task.agentId ≠ other) :
    TaskQueue.failRejectedCompletion env now db other message = .ok (false, db) := by
  rw [TaskQueue.failRejectedCompletion, hrow]
  cases db.lockAgent other with
  | none => rfl
  | some agent => exact if_neg fun h => howner h.1

theorem handleMessage_completed_of_other {task : BuildTask} {message : TaskCompletedMessage}
    (hknown : s.socket.known = true) (hhello : s.socket.helloReceived = true)
    (huuid : matchesUuid message.taskId = true) (hrow : s.db.findTask message.taskId = some task)
    (howner : task.agentId ≠ other) :
    (handleMessage env occasion other (.completed message)).run s =
      (s.forgetLease message.taskId).safeClose other := by
  obtain ⟨code, hrejected⟩ : ∃ code, AgentMessages.completeTask env occasion.now other message s =
      (.error (.api code), s) := by
    rw [AgentMessages.completeTask]
    by_cases hvalid : validCompletion message = true
    · obtain ⟨code, hcode⟩ : ∃ code, ArtifactsService.completeTask env occasion.now s.db other
          message = .error (.api code) := completeTask_rejects hrow howner
      refine ⟨code, ?_⟩
      rw [check, if_pos hvalid]
      show inTransaction _ s = _
      rw [inTransaction]
      exact transaction_apply_error hcode
    · refine ⟨.validationFailed, ?_⟩
      rw [check, if_neg hvalid]
      rfl
  have hforgotten : AgentMessages.failRejectedCompletion env occasion.now other message s =
      (.ok (), s.forgetLease message.taskId) := by
    rw [AgentMessages.failRejectedCompletion, if_neg (by rw [huuid]; exact Bool.true_eq_false_eq_False)]
    have hignored : inTransaction (fun _ db => TaskQueue.failRejectedCompletion env occasion.now db
        other message) s = (.ok false, s) := by
      rw [inTransaction]
      exact transaction_apply_ok (failRejectedCompletion_ignores hrow howner)
    exact bind_apply_ok hignored
  have htask : handleTaskMessage env occasion other (.completed message) s =
      (.ok (), (s.forgetLease message.taskId).safeClose other) := by
    rw [handleTaskMessage, onApiException, recover_apply_error (bind_apply_error hrejected)]
    exact bind_apply_ok hforgotten
  rw [handleMessage, run_get_bind, if_neg (by rw [hknown]; exact Bool.true_eq_false_eq_False)]
  dsimp only
  rw [if_neg (by rw [hhello]; exact Bool.true_eq_false_eq_False), run, recover_apply_ok htask]

/-! Runs of messages -/

/-- No completion names a task of the agent that has a lease token. -/
def Spared (env : Environment) (agentId other : Id) : Server → List (Occasion × AgentMessage) → Prop
  | _, [] => True
  | s, (occasion, message) :: messages =>
      (∀ taskId, Threatens s message taskId → BoundTo s.db agentId taskId →
        s.activeLeaseTokens taskId = none) ∧
        Spared env agentId other ((handleMessage env occasion other message).run s) messages

/-- All that the server has for the agent and its tasks is the same. -/
abbrev Untouched (agentId : Id) (s t : Server) : Prop :=
  KeptFor agentId (fun _ => False) s t

theorem KeptFor.untouched (h : KeptFor agentId lost s t)
    (htokens : ∀ k, BoundTo s.db agentId k → t.activeLeaseTokens k = s.activeLeaseTokens k) :
    Untouched agentId s t :=
  ⟨h.rows, h.logs, h.redactors, fun k hk => Or.inl (htokens k hk), h.pendingTaskInputs⟩

theorem KeptFor.activeLeaseTokens_eq (h : Untouched agentId s t) {k : Id}
    (hk : BoundTo s.db agentId k) : t.activeLeaseTokens k = s.activeLeaseTokens k :=
  (h.activeLeaseTokens k hk).resolve_right fun hlost => hlost.1

/-- A token that is gone does not come back. -/
theorem KeptFor.gone (h : KeptFor agentId lost s t) {k : Id} (hk : BoundTo s.db agentId k)
    (hgone : s.activeLeaseTokens k = none) : t.activeLeaseTokens k = none := by
  rcases h.activeLeaseTokens k hk with hsame | ⟨-, hnone⟩
  · exact hsame.trans hgone
  · exact hnone

theorem isolated_handleMessages (env : Environment) (hother : agentId ≠ other)
    (messages : List (Occasion × AgentMessage)) (s : Server) :
    Isolated agentId (fun _ => True) s (handleMessages env other messages s) := by
  induction messages generalizing s with
  | nil => exact isolated_refl s
  | cons entry messages ih =>
      obtain ⟨occasion, message⟩ := entry
      have hstep : Isolated agentId (fun _ => True) s
          ((handleMessage env occasion other message).run s) :=
        (isolated_handleMessage env occasion message hother).mono fun _ _ => trivial
      exact isolated_trans _ _ _ hstep (ih _)

/-- What one message does to the lease tokens of the tasks of another agent. -/
theorem untouched_handleMessage_iff (env : Environment) (occasion : Occasion)
    (message : AgentMessage) (hother : agentId ≠ other) (hs : Consistent s) :
    Untouched agentId s ((handleMessage env occasion other message).run s) ↔
      ∀ taskId, Threatens s message taskId → BoundTo s.db agentId taskId →
        s.activeLeaseTokens taskId = none := by
  constructor
  · rintro h taskId ⟨hknown, hhello, completed, rfl, rfl, huuid⟩ hbound
    obtain ⟨task, hrow, howner⟩ := hbound
    have hfound : s.db.findTask completed.taskId = some task := by
      rw [Db.findTask, hs.canonical _ _ hrow]
      exact hrow
    have hne : task.agentId ≠ other := by
      rw [howner]
      exact hother
    rw [← h.activeLeaseTokens_eq ⟨task, hrow, howner⟩,
      handleMessage_completed_of_other hknown hhello huuid hfound hne]
    exact Function.update_self ..
  · intro h
    have hkept := (isolated_handleMessage env occasion message hother hs).2
    apply hkept.untouched
    intro k hk
    rcases hkept.activeLeaseTokens k hk with hsame | ⟨hthreat, hgone⟩
    · exact hsame
    · rw [hgone, h k hthreat hk]

def otherAgentId : Id := JsString.ofString "00000000-0000-4000-8000-00000000000b"

def claimedDb : Db :=
  StatusHistory.demoRun [StatusHistory.demoCreate, StatusHistory.demoClaim]

def demoServer : Server where
  db := { claimedDb with
    agents := (claimedDb.agents.insert otherAgentId ⟨true, .online, none⟩).getD .empty }
  registry := fun agentId =>
    if agentId = SlotSystem.demoAgentId ∨ agentId = otherAgentId then some ⟨true, true, []⟩ else none
  socket := ⟨true, true, true, true⟩
  completedClaims := []
  activeLeaseTokens := fun taskId =>
    if taskId = SlotSystem.demoTaskId then some SlotSystem.demoToken else none
  pendingTaskInputs := fun _ => none
  logs := fun _ => .empty
  redactors := fun _ => none
  sent := []
  notified := []

def demoOccasion : Occasion :=
  ⟨0, fun _ => SlotSystem.demoToken, ⟨fun _ _ => true, id, fun _ _ => .ok ()⟩, .completed⟩

/-- The other agent reports the failure of the task, with its lease token. -/
def demoFailure : AgentMessage :=
  .failed ⟨SlotSystem.demoTaskId, SlotSystem.demoToken, JsString.ofString "failed", none⟩

/-- The other agent reports that it has completed the task. -/
def demoCompletion : AgentMessage :=
  .completed ⟨SlotSystem.demoTaskId, JsString.ofString "not-the-lease-token", 0, 0, none, 1, 1⟩

theorem consistent_demoServer : Consistent demoServer where
  canonical := by
    have hclaimed : (TaskRuns.taskRuns SlotSystem.demoEnvironment TaskRuns.anyOperation).Reachable
        claimedDb :=
      (StatusHistory.reachable_demoCreate TaskRuns.anyOperation trivial).step
        (.operation StatusHistory.demoClaim trivial trivial)
    exact fun taskId task hrow => TaskRuns.canonicalIds_of_reachable hclaimed taskId task hrow
  inputs := by
    intro inputId pending hpending
    cases hpending

end AnvilRun.AgentIsolation
