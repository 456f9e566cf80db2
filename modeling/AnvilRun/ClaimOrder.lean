import AnvilRun.SlotSystem

/-! In which order the tasks of a queue are claimed -/

namespace AnvilRun.ClaimOrder

open AnvilRun.AgentRegistry
open AnvilRun.ExecutionSlot
open AnvilRun.Fallible
open AnvilRun.TaskDatabase
open AnvilRun.TaskQueue
open JsString

variable {env : Environment} {registry : Registry} {now : Time} {tokens : Nat → JsString}
  {db db' : Db} {agentId : Id} {agent : Agent} {entry other : Id × BuildTask}

/-! The order of the queue -/

theorem idLe_cons {u v : UInt16} {s t : Id} : idLe (u :: s) (v :: t) = true ↔
    u.toNat < v.toNat ∨ u.toNat = v.toNat ∧ idLe s t = true := by
  simp [idLe, UInt16.lt_iff_toNat_lt, UInt16.toNat_inj]

theorem idLe_total (x y : Id) : idLe x y = true ∨ idLe y x = true := by
  induction x generalizing y with
  | nil => exact Or.inl rfl
  | cons u s ih =>
      cases y with
      | nil => exact Or.inr rfl
      | cons v t =>
          rw [idLe_cons, idLe_cons]
          rcases lt_trichotomy u.toNat v.toNat with hlt | heq | hgt
          · exact Or.inl (Or.inl hlt)
          · exact (ih t).imp (fun h => Or.inr ⟨heq, h⟩) (fun h => Or.inr ⟨heq.symm, h⟩)
          · exact Or.inr (Or.inl hgt)

theorem idLe_antisymm {x y : Id} (h : idLe x y = true) (h' : idLe y x = true) : x = y := by
  induction x generalizing y with
  | nil =>
      cases y with
      | nil => rfl
      | cons v t => exact absurd h' Bool.false_ne_true
  | cons u s ih =>
      cases y with
      | nil => exact absurd h Bool.false_ne_true
      | cons v t =>
          rw [idLe_cons] at h h'
          rcases h with hlt | ⟨heq, hle⟩
          · omega
          · have hge : idLe t s = true := h'.elim (fun hgt => by omega) And.right
            rw [UInt16.toNat_inj.mp heq, ih hle hge]

theorem idLe_trans {x y z : Id} (h : idLe x y = true) (h' : idLe y z = true) :
    idLe x z = true := by
  induction x generalizing y z with
  | nil => rfl
  | cons u s ih =>
      cases y with
      | nil => exact absurd h Bool.false_ne_true
      | cons v t =>
          cases z with
          | nil => exact absurd h' Bool.false_ne_true
          | cons w r =>
              rw [idLe_cons] at h h' ⊢
              rcases h with hlt | ⟨heq, hle⟩
              · exact Or.inl (by omega)
              · exact h'.imp (by omega) fun h => ⟨heq.trans h.1, ih hle h.2⟩

theorem createdBefore_iff (x y : Id × BuildTask) :
    createdBefore x y = true ↔
      x.2.createdAt < y.2.createdAt ∨ x.2.createdAt = y.2.createdAt ∧ idLe x.1 y.1 = true := by
  simp [createdBefore]

theorem createdBefore_total (x y : Id × BuildTask) :
    createdBefore x y = true ∨ createdBefore y x = true := by
  rw [createdBefore_iff, createdBefore_iff]
  have hid := idLe_total x.1 y.1
  rcases lt_trichotomy x.2.createdAt y.2.createdAt with hlt | heq | hgt
  · exact Or.inl (Or.inl hlt)
  · exact hid.imp (fun h => Or.inr ⟨heq, h⟩) (fun h => Or.inr ⟨heq.symm, h⟩)
  · exact Or.inr (Or.inl hgt)

theorem createdBefore_trans {x y z : Id × BuildTask} (h : createdBefore x y = true)
    (h' : createdBefore y z = true) : createdBefore x z = true := by
  rw [createdBefore_iff] at h h' ⊢
  rcases h with hlt | ⟨heq, hle⟩
  · exact Or.inl (h'.elim hlt.trans fun h => hlt.trans_eq h.1)
  · rcases h' with hlt' | ⟨heq', hle'⟩
    · exact Or.inl (heq.trans_lt hlt')
    · exact Or.inr ⟨heq.trans heq', idLe_trans hle hle'⟩

theorem createdBefore_antisymm {x y : Id × BuildTask} (h : createdBefore x y = true)
    (h' : createdBefore y x = true) : x.1 = y.1 := by
  rw [createdBefore_iff] at h h'
  rcases h with hlt | ⟨heq, hle⟩
  · rcases h' with hgt | ⟨heq, -⟩
    · exact absurd hlt hgt.asymm
    · exact absurd hlt (heq ▸ lt_irrefl _)
  · rcases h' with hgt | ⟨-, hge⟩
    · exact absurd hgt (heq ▸ lt_irrefl _)
    · exact idLe_antisymm hle hge

/-- A task in the queue of an agent. -/
structure IsQueued (db : Db) (agentId : Id) (entry : Id × BuildTask) : Prop where
  row : db.tasks.row entry.1 = some entry.2
  owner : entry.2.agentId = agentId
  status : entry.2.status = .queued

theorem mem_queue_iff : entry ∈ tasksInStatus db agentId .queued ↔ IsQueued db agentId entry := by
  rw [SlotPreservation.mem_tasksInStatus]
  exact ⟨fun h => ⟨h.1, h.2.1, h.2.2⟩, fun h => ⟨h.row, h.owner, h.status⟩⟩

theorem IsQueued.ext (h : IsQueued db agentId entry) (h' : IsQueued db agentId other)
    (hid : entry.1 = other.1) : entry = other :=
  Prod.ext hid (Option.some.inj (h.row.symm.trans (hid ▸ h'.row)))

/-- A task that is claimed before another. -/
def Precedes (x y : Id × BuildTask) : Prop :=
  createdBefore x y = true ∧ x.1 ≠ y.1

theorem Precedes.asymm {x y : Id × BuildTask} (h : Precedes x y) : ¬ createdBefore y x = true :=
  fun h' => h.2 (createdBefore_antisymm h.1 h')

/-- The tasks in the queue, in the order of the claims. -/
structure IsQueue (db : Db) (agentId : Id) (queue : List (Id × BuildTask)) : Prop where
  mem_iff : ∀ entry, entry ∈ queue ↔ IsQueued db agentId entry
  pairwise : queue.Pairwise (fun x y => createdBefore x y = true)

theorem isQueue_tasksInStatus (db : Db) (agentId : Id) :
    IsQueue db agentId (tasksInStatus db agentId .queued) where
  mem_iff _ := mem_queue_iff
  pairwise :=
    @List.pairwise_mergeSort _ createdBefore (fun _ _ _ => createdBefore_trans)
      (fun x y => Bool.or_eq_true_iff.mpr (createdBefore_total x y)) _

theorem IsQueue.head_least {queue : List (Id × BuildTask)}
    (h : IsQueue db agentId (entry :: queue)) (hother : IsQueued db agentId other) :
    createdBefore entry other = true := by
  rcases List.mem_cons.mp ((h.mem_iff other).mpr hother) with rfl | hmem
  · exact (createdBefore_total other other).elim (fun h => h) (fun h => h)
  · exact (List.pairwise_cons.mp h.pairwise).1 other hmem

theorem IsQueue.head? {queue queue' : List (Id × BuildTask)} (h : IsQueue db agentId queue)
    (h' : IsQueue db agentId queue') : queue.head? = queue'.head? := by
  cases queue with
  | nil =>
      cases queue' with
      | nil => rfl
      | cons y ys =>
          exact absurd ((h.mem_iff y).mpr ((h'.mem_iff y).mp List.mem_cons_self)) List.not_mem_nil
  | cons x xs =>
      have hx := (h.mem_iff x).mp List.mem_cons_self
      cases queue' with
      | nil => exact absurd ((h'.mem_iff x).mpr hx) List.not_mem_nil
      | cons y ys =>
          have hy := (h'.mem_iff y).mp List.mem_cons_self
          have hid := createdBefore_antisymm (h.head_least hy) (h'.head_least hx)
          rw [List.head?_cons, List.head?_cons, hx.ext hy hid]

/-- The query finds the head of the queue. -/
theorem IsQueue.firstQueued {queue : List (Id × BuildTask)} (h : IsQueue db agentId queue) :
    firstQueued db agentId none = queue.head? := by
  rw [(h.head? (isQueue_tasksInStatus db agentId)), TaskQueue.firstQueued]
  exact congrArg List.head? (List.filter_eq_self.mpr fun _ _ => rfl)

/-- What is left of the queue when one of its tasks has left it. -/
theorem IsQueue.filter {queue : List (Id × BuildTask)} (h : IsQueue db agentId queue)
    {taskId : Id} (hothers : ∀ k, k ≠ taskId → db'.tasks.row k = db.tasks.row k)
    (hgone : ∀ task, db'.tasks.row taskId = some task → task.status ≠ .queued) :
    IsQueue db' agentId (queue.filter fun other => other.1 ≠ taskId) where
  mem_iff other := by
    rw [List.mem_filter, h.mem_iff, decide_eq_true_eq]
    constructor
    · rintro ⟨hother, hne⟩
      exact ⟨(hothers _ hne).trans hother.row, hother.owner, hother.status⟩
    · intro hother
      have hne : other.1 ≠ taskId := fun heq => hgone _ (heq ▸ hother.row) hother.status
      exact ⟨⟨(hothers _ hne).symm.trans hother.row, hother.owner, hother.status⟩, hne⟩
  pairwise := h.pairwise.filter _

/-! The checks of a task -/

/-- The data of a task pass every check of a dispatch with this lease token. -/
def IsDispatchable (env : Environment) (now : Time) (token : JsString) (agent : Agent) (db : Db)
    (entry : Id × BuildTask) : Prop :=
  ∃ project template, db.projects.row entry.2.projectId = some project ∧
    db.templates.row entry.2.buildTemplateId = some template ∧
    failureReason env agent project template entry.2 = none ∧
    env.validAssignment (assignmentFor env now token entry.1 entry.2 template) = true

/-- Some check refuses the data of a task. -/
def IsUndispatchable (env : Environment) (now : Time) (token : JsString) (agent : Agent) (db : Db)
    (entry : Id × BuildTask) : Prop :=
  ∃ project template, db.projects.row entry.2.projectId = some project ∧
    db.templates.row entry.2.buildTemplateId = some template ∧
    (failureReason env agent project template entry.2 ≠ none ∨
      env.validAssignment (assignmentFor env now token entry.1 entry.2 template) = false)

theorem IsUndispatchable.not_dispatchable {token : JsString}
    (h : IsUndispatchable env now token agent db entry) :
    ¬ IsDispatchable env now token agent db entry := by
  rintro ⟨project, template, hproject, htemplate, hreason, hvalid⟩
  obtain ⟨project', template', hproject', htemplate', hrefused⟩ := h
  obtain rfl := Option.some.inj (hproject.symm.trans hproject')
  obtain rfl := Option.some.inj (htemplate.symm.trans htemplate')
  rcases hrefused with hrefused | hrefused
  · exact hrefused hreason
  · exact Bool.false_ne_true (hrefused.symm.trans hvalid)

/-- The task asks for interactive input, and the agent has not announced it. -/
def lacksCapability (registry : Registry) (agentId : Id) (task : BuildTask) : Bool :=
  task.interactiveInputEnabled && !registry.hasCapability agentId taskInputCapability

/-- Whether the loop fails a task and goes on with the next one. -/
def refused (env : Environment) (registry : Registry) (now : Time) (token : JsString)
    (agentId : Id) (agent : Agent) (db : Db) (entry : Id × BuildTask) : Bool :=
  match db.projects.row entry.2.projectId, db.templates.row entry.2.buildTemplateId with
  | some project, some template =>
      (failureReason env agent project template entry.2).isSome ||
        (!lacksCapability registry agentId entry.2 &&
          !env.validAssignment (assignmentFor env now token entry.1 entry.2 template))
  | _, _ => false

theorem refused_eq {token : JsString} {project : Project} {template : BuildTemplate}
    (hproject : db.projects.row entry.2.projectId = some project)
    (htemplate : db.templates.row entry.2.buildTemplateId = some template) :
    refused env registry now token agentId agent db entry =
      ((failureReason env agent project template entry.2).isSome ||
        (!lacksCapability registry agentId entry.2 &&
          !env.validAssignment (assignmentFor env now token entry.1 entry.2 template))) := by
  rw [refused, hproject, htemplate]

/-- What a transition leaves besides the tasks. -/
theorem transition_catalog {taskId : Id} {next : BuildTaskStatus} {source : TaskStatusSource}
    {reason : Option JsString} {data : TransitionData}
    (h : transition now db taskId next source reason data = .ok db') :
    db'.projects = db.projects ∧ db'.templates = db.templates := by
  obtain ⟨task, -, ⟨-, rfl⟩ | ⟨-, -, rfl⟩⟩ := transition_eq_ok.mp h
  · exact ⟨rfl, rfl⟩
  · exact ⟨rfl, rfl⟩

theorem failUndispatchable_spec {reason : JsString} {next : Db}
    (hentry : IsQueued db agentId entry)
    (h : failUndispatchable now db entry.1 reason = .ok next) :
    ∃ failed, TaskChange db next entry.1 entry.2 failed ∧ failed.status = .failed ∧
      next.projects = db.projects ∧ next.templates = db.templates := by
  simp only [failUndispatchable, bind_eq_ok] at h
  obtain ⟨between, hdispatched, hfailed⟩ := h
  have hfirst := transition_catalog hdispatched
  have hsecond := transition_catalog hfailed
  rcases taskChange_transition hdispatched hentry.row with ⟨hsame, -⟩ | ⟨-, hchange⟩
  · rw [hentry.status] at hsame
    cases hsame
  rcases taskChange_transition hfailed hchange.after with ⟨hsame, -⟩ | ⟨-, hchange'⟩
  · cases hsame
  · exact ⟨_, hchange.trans hchange', rfl, hsecond.1.trans hfirst.1, hsecond.2.trans hfirst.2⟩

/-- What a round of the loop does with the head of the queue. -/
theorem claimLoop_round {attempts : Nat} {terminal : List Id} {outcome : ClaimOutcome}
    {queue : List (Id × BuildTask)} (hqueue : IsQueue db agentId (entry :: queue))
    (h : claimLoop env registry now tokens agentId agent none (attempts + 1) terminal db =
      .ok (outcome, db')) :
    ∃ project template, db.projects.row entry.2.projectId = some project ∧
      db.templates.row entry.2.buildTemplateId = some template ∧
      (refused env registry now (tokens attempts) agentId agent db entry = true ∧
          (∃ reason next, failUndispatchable now db entry.1 reason = .ok next ∧
            claimLoop env registry now tokens agentId agent none attempts
              (terminal ++ [entry.1]) next = .ok (outcome, db')) ∨
        refused env registry now (tokens attempts) agentId agent db entry = false ∧
          lacksCapability registry agentId entry.2 = true ∧
          (∃ reason, transition now db entry.1 .waitingAgent .system reason (.of id) = .ok db') ∧
          outcome = ⟨none, false, terminal⟩ ∨
        refused env registry now (tokens attempts) agentId agent db entry = false ∧
          lacksCapability registry agentId entry.2 = false ∧
          (∃ reason next, transition now db entry.1 .dispatched .server reason
              ⟨dispatchedTask env now (tokens attempts) template, some none⟩ = .ok next ∧
            db' = next.setActiveTask agentId (some entry.1)) ∧
          outcome = ⟨some (assignmentFor env now (tokens attempts) entry.1 entry.2 template), false,
            terminal⟩) := by
  rw [claimLoop, hqueue.firstQueued, List.head?_cons] at h
  simp only [bind_eq_ok, require_eq_ok] at h
  obtain ⟨project, hproject, template, htemplate, h⟩ := h
  refine ⟨project, template, hproject, htemplate, ?_⟩
  rw [refused_eq hproject htemplate]
  split at h
  · rename_i reason hreason
    obtain ⟨next, hfail, hrest⟩ := bind_eq_ok.mp h
    exact Or.inl ⟨by rw [hreason]; rfl, reason, next, hfail, hrest⟩
  rename_i hreason
  rw [hreason]
  split at h
  · rename_i hlacks
    simp only [bind_eq_ok, pure_eq_ok, Prod.mk.injEq] at h
    obtain ⟨next, htransition, rfl, rfl⟩ := h
    have hlacks : lacksCapability registry agentId entry.2 = true := hlacks
    exact Or.inr (Or.inl ⟨by rw [hlacks]; rfl, hlacks, ⟨_, htransition⟩, rfl⟩)
  rename_i hcapable
  have hcapable : lacksCapability registry agentId entry.2 = false :=
    Bool.not_eq_true _ ▸ hcapable
  rw [hcapable]
  split at h
  · rename_i hinvalid
    obtain ⟨next, hfail, hrest⟩ := bind_eq_ok.mp h
    exact Or.inl ⟨by rw [hinvalid]; rfl, _, next, hfail, hrest⟩
  · rename_i hvalid
    simp only [bind_eq_ok, pure_eq_ok, Prod.mk.injEq] at h
    obtain ⟨next, htransition, rfl, rfl⟩ := h
    have hvalid := (Bool.not_eq_false _).mp hvalid
    exact Or.inr (Or.inr ⟨by rw [hvalid]; rfl, rfl, ⟨_, next, htransition, rfl⟩, rfl⟩)

/-! First in, first out -/

/-- What a claim that dispatches a task has done to the tasks. -/
structure FirstInFirstOut (env : Environment) (now : Time) (tokens : Nat → JsString)
    (agent : Agent) (agentId : Id) (db db' : Db) (assignment : TaskAssignment)
    (task : BuildTask) : Prop where
  queued : IsQueued db agentId (assignment.taskId, task)
  dispatchable :
    IsDispatchable env now assignment.leaseToken agent db (assignment.taskId, task)
  dispatched : ∃ row, db'.tasks.row assignment.taskId = some row ∧ row.status = .dispatched
  earlier : ∀ other, IsQueued db agentId other → Precedes other (assignment.taskId, task) →
    (∃ attempt < maxClaimValidationSkips,
      IsUndispatchable env now (tokens attempt) agent db other) ∧
    ∃ row, db'.tasks.row other.1 = some row ∧ row.status = .failed
  others : ∀ id, id ≠ assignment.taskId →
    (∀ other, IsQueued db agentId other → other.1 = id →
      ¬ Precedes other (assignment.taskId, task)) →
    db'.tasks.row id = db.tasks.row id

/-- A task that is no worse than the dispatched one stands behind it. -/
theorem FirstInFirstOut.least {assignment : TaskAssignment} {task : BuildTask}
    (h : FirstInFirstOut env now tokens agent agentId db db' assignment task)
    (hother : IsQueued db agentId other)
    (hvalid : ∀ attempt < maxClaimValidationSkips,
      IsDispatchable env now (tokens attempt) agent db other) :
    createdBefore (assignment.taskId, task) other = true := by
  rcases createdBefore_total (assignment.taskId, task) other with hle | hle
  · exact hle
  by_cases hid : other.1 = assignment.taskId
  · have heq := hother.ext h.queued hid
    rw [← heq] at hle ⊢
    exact hle
  · obtain ⟨⟨attempt, hlt, hrefused⟩, -⟩ := h.earlier other hother ⟨hle, hid⟩
    exact absurd (hvalid attempt hlt) hrefused.not_dispatchable

theorem isUndispatchable_of_refused {token : JsString} {project : Project}
    {template : BuildTemplate} (hproject : db.projects.row entry.2.projectId = some project)
    (htemplate : db.templates.row entry.2.buildTemplateId = some template)
    (h : refused env registry now token agentId agent db entry = true) :
    IsUndispatchable env now token agent db entry := by
  refine ⟨project, template, hproject, htemplate, ?_⟩
  rw [refused_eq hproject htemplate, Bool.or_eq_true, Bool.and_eq_true] at h
  rcases h with hreason | ⟨-, hinvalid⟩
  · exact Or.inl fun hnone => by simp [hnone] at hreason
  · exact Or.inr (by simpa using hinvalid)

theorem isDispatchable_of_not_refused {token : JsString} {project : Project}
    {template : BuildTemplate} (hproject : db.projects.row entry.2.projectId = some project)
    (htemplate : db.templates.row entry.2.buildTemplateId = some template)
    (hcapable : lacksCapability registry agentId entry.2 = false)
    (h : refused env registry now token agentId agent db entry = false) :
    IsDispatchable env now token agent db entry := by
  refine ⟨project, template, hproject, htemplate, ?_⟩
  rw [refused_eq hproject htemplate, hcapable, Bool.or_eq_false_iff] at h
  exact ⟨by simpa using h.1, by simpa using h.2⟩

/-- The dispatch of the head of the queue. -/
theorem firstInFirstOut_of_dispatch {attempts : Nat} {queue : List (Id × BuildTask)}
    {template : BuildTemplate} {reason : Option JsString} {next : Db} {data : TransitionData}
    (hqueue : IsQueue db agentId (entry :: queue))
    (hdispatchable : IsDispatchable env now (tokens attempts) agent db entry)
    (h : transition now db entry.1 .dispatched .server reason data = .ok next) :
    FirstInFirstOut env now tokens agent agentId db (next.setActiveTask agentId (some entry.1))
      (assignmentFor env now (tokens attempts) entry.1 entry.2 template) entry.2 := by
  have hentry := (hqueue.mem_iff entry).mp List.mem_cons_self
  rcases taskChange_transition h hentry.row with ⟨hsame, -⟩ | ⟨-, hchange⟩
  · rw [hentry.status] at hsame
    cases hsame
  constructor
  · exact hentry
  · exact hdispatchable
  · exact ⟨_, hchange.after, rfl⟩
  · exact fun other hother hbefore => absurd (hqueue.head_least hother) hbefore.asymm
  · exact fun id hne _ => hchange.others id hne

/-- A round that fails the head of the queue. -/
theorem FirstInFirstOut.of_next {attempts : Nat} {next : Db} {failed task : BuildTask}
    {queue : List (Id × BuildTask)} {assignment : TaskAssignment}
    (hqueue : IsQueue db agentId (entry :: queue)) (hattempts : attempts < maxClaimValidationSkips)
    (hrefused : IsUndispatchable env now (tokens attempts) agent db entry)
    (hchange : TaskChange db next entry.1 entry.2 failed) (hfailed : failed.status = .failed)
    (hprojects : next.projects = db.projects) (htemplates : next.templates = db.templates)
    (h : FirstInFirstOut env now tokens agent agentId next db' assignment task) :
    FirstInFirstOut env now tokens agent agentId db db' assignment task := by
  have hentry := (hqueue.mem_iff entry).mp List.mem_cons_self
  -- the other tasks in the queue are the same before and after the round
  have hgone : ∀ other, IsQueued next agentId other → other.1 ≠ entry.1 := by
    intro other hother heq
    have hrow := heq ▸ hother.row
    rw [hchange.after] at hrow
    have hstatus := hother.status
    rw [← Option.some.inj hrow, hfailed] at hstatus
    cases hstatus
  have hqueued : ∀ other, other.1 ≠ entry.1 →
      (IsQueued next agentId other ↔ IsQueued db agentId other) := by
    intro other hne
    have hrow := hchange.others other.1 hne
    exact ⟨fun h => ⟨hrow.symm.trans h.row, h.owner, h.status⟩,
      fun h => ⟨hrow.trans h.row, h.owner, h.status⟩⟩
  have hne : assignment.taskId ≠ entry.1 := hgone _ h.queued
  have htask := (hqueued _ hne).mp h.queued
  have hstays : db'.tasks.row entry.1 = some failed := by
    rw [h.others entry.1 (Ne.symm hne) fun other hother hid => absurd hid (hgone other hother)]
    exact hchange.after
  constructor
  · exact htask
  · obtain ⟨project, template, hproject, htemplate, hrest⟩ := h.dispatchable
    exact ⟨project, template, hprojects ▸ hproject, htemplates ▸ htemplate, hrest⟩
  · exact h.dispatched
  · intro other hother hbefore
    by_cases hid : other.1 = entry.1
    · obtain rfl := hother.ext hentry hid
      exact ⟨⟨attempts, hattempts, hrefused⟩, failed, hstays, hfailed⟩
    · obtain ⟨⟨attempt, hlt, project, template, hproject, htemplate, hrest⟩, hrow⟩ :=
        h.earlier other ((hqueued other hid).mpr hother) hbefore
      exact ⟨⟨attempt, hlt, project, template, hprojects ▸ hproject, htemplates ▸ htemplate,
        hrest⟩, hrow⟩
  · intro id hid hbehind
    have hother : id ≠ entry.1 := by
      rintro rfl
      exact hbehind entry hentry rfl ⟨hqueue.head_least htask, hid⟩
    rw [h.others id hid fun other hqueuedNext heq =>
      hbehind other ((hqueued other (heq ▸ hother)).mp hqueuedNext) heq]
    exact hchange.others id hother

/-- The induction over the attempts: the loop fails at most one task in each. -/
theorem claimLoop_firstInFirstOut {outcome : ClaimOutcome} (attempts : Nat)
    (hattempts : attempts ≤ maxClaimValidationSkips) :
    ∀ (terminal : List Id) (db : Db) (queue : List (Id × BuildTask)),
      IsQueue db agentId queue →
      claimLoop env registry now tokens agentId agent none attempts terminal db =
        .ok (outcome, db') →
      outcome.terminalTaskIds.length ≤ terminal.length + attempts ∧
        ∀ assignment, outcome.result = some assignment →
          ∃ task, FirstInFirstOut env now tokens agent agentId db db' assignment task := by
  induction attempts with
  | zero =>
      intro terminal db queue hqueue h
      obtain ⟨rfl, rfl⟩ := Prod.mk.inj (Except.ok.inj h)
      exact ⟨Nat.le_refl _, fun _ hnone => by cases hnone⟩
  | succ attempts ih =>
      intro terminal db queue hqueue h
      cases queue with
      | nil =>
          rw [claimLoop, hqueue.firstQueued] at h
          obtain ⟨rfl, rfl⟩ := Prod.mk.inj (Except.ok.inj h)
          exact ⟨Nat.le_add_right _ _, fun _ hnone => by cases hnone⟩
      | cons entry queue =>
          have hentry := (hqueue.mem_iff entry).mp List.mem_cons_self
          obtain ⟨project, template, hproject, htemplate, hround⟩ := claimLoop_round hqueue h
          rcases hround with ⟨hrefused, reason, next, hfail, hrest⟩ | ⟨-, -, -, rfl⟩ |
            ⟨hpassed, hcapable, ⟨reason, next, htransition, rfl⟩, rfl⟩
          · obtain ⟨failed, hchange, hfailed, hprojects, htemplates⟩ :=
              failUndispatchable_spec hentry hfail
            have hnext := hqueue.filter hchange.others fun task htask => by
              rw [hchange.after] at htask
              rw [← Option.some.inj htask, hfailed]
              exact BuildTaskStatus.noConfusion
            obtain ⟨hlength, hresult⟩ := ih (by omega) _ _ _ hnext hrest
            refine ⟨?_, fun assignment hassignment => ?_⟩
            · rw [List.length_append, List.length_singleton] at hlength
              omega
            · obtain ⟨task, hfifo⟩ := hresult assignment hassignment
              exact ⟨task, .of_next hqueue hattempts
                (isUndispatchable_of_refused hproject htemplate hrefused) hchange hfailed hprojects
                htemplates hfifo⟩
          · exact ⟨Nat.le_add_right _ _, fun _ hnone => by cases hnone⟩
          · refine ⟨Nat.le_add_right _ _, fun assignment hassignment => ⟨entry.2, ?_⟩⟩
            obtain rfl := Option.some.inj hassignment
            exact firstInFirstOut_of_dispatch hqueue
              (isDispatchable_of_not_refused hproject htemplate hcapable hpassed) htransition

/-- A claim fails at most so many tasks, and what it dispatches is the first task of the queue
whose data are valid. -/
theorem claim_firstInFirstOut {outcome : ClaimOutcome}
    (h : claimInTransaction env registry now tokens db agentId none = .ok (outcome, db')) :
    outcome.terminalTaskIds.length ≤ maxClaimValidationSkips ∧
      ∀ assignment, outcome.result = some assignment →
        ∃ agent task, db.agents.row agentId = some agent ∧
          FirstInFirstOut env now tokens agent agentId db db' assignment task ∧
          ∀ other, IsQueued db agentId other →
            (∀ attempt < maxClaimValidationSkips,
              IsDispatchable env now (tokens attempt) agent db other) →
            createdBefore (assignment.taskId, task) other = true := by
  simp only [claimInTransaction, bind_eq_ok, require_eq_ok, ensure_eq_ok] at h
  obtain ⟨agent, hagent, -, -, -, -, h⟩ := h
  split at h
  · obtain ⟨rfl, rfl⟩ := Prod.mk.inj (pure_eq_ok.mp h)
    exact ⟨Nat.zero_le _, fun _ hnone => by cases hnone⟩
  · obtain ⟨hlength, hresult⟩ := claimLoop_firstInFirstOut _ (Nat.le_refl _) _ _ _
      (isQueue_tasksInStatus db agentId) h
    rw [List.length_nil, Nat.zero_add] at hlength
    refine ⟨hlength, fun assignment hassignment => ?_⟩
    obtain ⟨task, hfifo⟩ := hresult assignment hassignment
    exact ⟨agent, task, hagent, hfifo, fun other hother hvalid => hfifo.least hother hvalid⟩

/-! Two tasks in a queue -/

def demoQueuedTask (interactive : Bool) (createdAt : Time) : BuildTask where
  projectId := SlotSystem.demoProjectId
  buildTemplateId := SlotSystem.demoTemplateId
  agentId := SlotSystem.demoAgentId
  createdBy := ofString "00000000-0000-4000-8000-000000000004"
  status := .queued
  statusReason := none
  branch := ofString "main"
  config := .object []
  interactiveInputEnabled := interactive
  sourceCommit := none
  assignedArtifactDir := none
  recoveryStatus := none
  agentLostAt := none
  recoveryDeadlineAt := none
  creationIdempotencyKey := none
  exitCode := none
  queuedAt := some createdAt
  startedAt := none
  finishedAt := none
  cancelRequestedAt := none
  leaseHash := none
  leaseExpiresAt := none
  logSize := 0
  lastLogSequence := 0
  logLeaseHash := none
  logLeaseExpiresAt := none
  logSensitiveKeys := .array []
  artifactCount := 0
  artifactBytes := 0
  createdAt := createdAt
  updatedAt := createdAt
  inputFiles := []

def demoSecondId : Id := ofString "00000000-0000-4000-8000-000000000005"

/-- Two tasks, of which the first may ask for interactive input. -/
def demoTasks (interactive : Bool) : Table Id BuildTask where
  keys := [SlotSystem.demoTaskId, demoSecondId]
  row := fun id =>
    if id = SlotSystem.demoTaskId then some (demoQueuedTask interactive 1)
    else if id = demoSecondId then some (demoQueuedTask false 2)
    else none
  mem_keys := by
    intro id
    simp only [List.mem_cons, List.not_mem_nil, or_false]
    split_ifs with hfirst hsecond <;> simp [*]

def demoQueueDb (interactive : Bool) : Db :=
  { SlotSystem.demoDb with tasks := demoTasks interactive }

theorem isQueue_demoQueueDb (interactive : Bool) :
    IsQueue (demoQueueDb interactive) SlotSystem.demoAgentId
      [(SlotSystem.demoTaskId, demoQueuedTask interactive 1),
        (demoSecondId, demoQueuedTask false 2)] where
  mem_iff entry := by
    constructor
    · intro h
      rcases List.mem_pair.mp h with rfl | rfl
      · exact ⟨rfl, rfl, rfl⟩
      · exact ⟨rfl, rfl, rfl⟩
    · rintro ⟨hrow, -, -⟩
      change (if entry.1 = SlotSystem.demoTaskId then some (demoQueuedTask interactive 1)
        else if entry.1 = demoSecondId then some (demoQueuedTask false 2) else none) =
          some entry.2 at hrow
      split_ifs at hrow with hfirst hsecond
      · exact List.mem_pair.mpr (Or.inl (Prod.ext hfirst (Option.some.inj hrow).symm))
      · exact List.mem_pair.mpr (Or.inr (Prod.ext hsecond (Option.some.inj hrow).symm))
  pairwise := by
    refine List.pairwise_pair.mpr ?_
    cases interactive <;> decide

def demoAgent : Agent := ⟨true, .online, none⟩

theorem claim_eq_loop (interactive : Bool) :
    claimInTransaction SlotSystem.demoEnvironment SlotSystem.demoRegistry 3
        (fun _ => SlotSystem.demoToken) (demoQueueDb interactive) SlotSystem.demoAgentId none =
      claimLoop SlotSystem.demoEnvironment SlotSystem.demoRegistry 3
        (fun _ => SlotSystem.demoToken) SlotSystem.demoAgentId demoAgent none (31 + 1) []
        (demoQueueDb interactive) := by
  have hagent : (demoQueueDb interactive).lockAgent SlotSystem.demoAgentId = some demoAgent := rfl
  have hready : SlotSystem.demoRegistry.isReady SlotSystem.demoAgentId = true := rfl
  rw [claimInTransaction, hagent]
  simp [require, ensure, hready, demoAgent, maxClaimValidationSkips, bind, Except.bind]

set_option maxRecDepth 4000 in
/-- The claim ends at the first task, which is dispatched unless it asks for input. -/
theorem claim_demoQueueDb (interactive : Bool) :
    ∃ outcome db', claimInTransaction SlotSystem.demoEnvironment SlotSystem.demoRegistry 3
        (fun _ => SlotSystem.demoToken) (demoQueueDb interactive) SlotSystem.demoAgentId none =
          .ok (outcome, db') ∧
      outcome.result.isNone = interactive ∧ outcome.shouldNotify = false := by
  rw [claim_eq_loop, claimLoop, (isQueue_demoQueueDb interactive).firstQueued, List.head?_cons]
  cases interactive
  · exact ⟨_, _, rfl, rfl, rfl⟩
  · exact ⟨_, _, rfl, rfl, rfl⟩

/-- The first task is dispatched when it asks for nothing. -/
theorem demoClaim_firstInFirstOut :
    ∃ (outcome : ClaimOutcome) (db' : Db), outcome.result.isNone = false ∧
      outcome.terminalTaskIds.length ≤ maxClaimValidationSkips ∧
      ∀ assignment, outcome.result = some assignment →
        ∃ agent task, (demoQueueDb false).agents.row SlotSystem.demoAgentId = some agent ∧
          FirstInFirstOut SlotSystem.demoEnvironment 3 (fun _ => SlotSystem.demoToken) agent
            SlotSystem.demoAgentId (demoQueueDb false) db' assignment task ∧
          ∀ other, IsQueued (demoQueueDb false) SlotSystem.demoAgentId other →
            (∀ attempt < maxClaimValidationSkips,
              IsDispatchable SlotSystem.demoEnvironment 3 SlotSystem.demoToken agent
                (demoQueueDb false) other) →
            createdBefore (assignment.taskId, task) other = true :=
  let ⟨outcome, db', hclaim, hresult, _⟩ := claim_demoQueueDb false
  ⟨outcome, db', hresult, claim_firstInFirstOut hclaim⟩

/-! Tasks that a claim leaves in the queue -/

/-- The agent could run a task: its data are valid, and the agent can do what it asks for. -/
def CouldRun (env : Environment) (registry : Registry) (now : Time) (token : JsString)
    (agent : Agent) (agentId : Id) (db : Db) (entry : Id × BuildTask) : Prop :=
  IsDispatchable env now token agent db entry ∧ lacksCapability registry agentId entry.2 = false

/-- The first task of a queue that the loop does not fail, if it gets there. -/
def stopsAt (env : Environment) (registry : Registry) (now : Time) (tokens : Nat → JsString)
    (agentId : Id) (agent : Agent) (db : Db) :
    Nat → List (Id × BuildTask) → Option (Id × BuildTask)
  | 0, _ => none
  | _ + 1, [] => none
  | attempts + 1, entry :: queue =>
      if refused env registry now (tokens attempts) agentId agent db entry then
        stopsAt env registry now tokens agentId agent db attempts
          (queue.filter fun other => other.1 ≠ entry.1)
      else some entry

theorem refused_congr {token : JsString} {next : Db} (hprojects : next.projects = db.projects)
    (htemplates : next.templates = db.templates) :
    refused env registry now token agentId agent next =
      refused env registry now token agentId agent db := by
  funext entry
  rw [refused, refused, hprojects, htemplates]

theorem stopsAt_congr {next : Db} (hprojects : next.projects = db.projects)
    (htemplates : next.templates = db.templates) (attempts : Nat)
    (queue : List (Id × BuildTask)) :
    stopsAt env registry now tokens agentId agent next attempts queue =
      stopsAt env registry now tokens agentId agent db attempts queue := by
  induction attempts generalizing queue with
  | zero => rfl
  | succ attempts ih =>
      cases queue with
      | nil => rfl
      | cons entry queue =>
          rw [stopsAt, stopsAt, refused_congr hprojects htemplates, ih]

theorem mem_of_stopsAt {attempts : Nat} {queue : List (Id × BuildTask)}
    {blocker : Id × BuildTask}
    (h : stopsAt env registry now tokens agentId agent db attempts queue = some blocker) :
    blocker ∈ queue := by
  induction attempts generalizing queue with
  | zero => cases h
  | succ attempts ih =>
      cases queue with
      | nil => cases h
      | cons entry queue =>
          rw [stopsAt] at h
          split at h
          · exact List.mem_cons_of_mem _ (List.mem_of_mem_filter (ih h))
          · obtain rfl := Option.some.inj h
            exact List.mem_cons_self

/-- What is left in the queue by a claim without a result, and where the loop stopped. -/
structure Left (env : Environment) (registry : Registry) (now : Time) (tokens : Nat → JsString)
    (agent : Agent) (agentId : Id) (attempts : Nat) (queue : List (Id × BuildTask))
    (db db' : Db) : Prop where
  projects : db'.projects = db.projects
  templates : db'.templates = db.templates
  mem_iff : ∀ other, IsQueued db' agentId other ↔
    ∃ blocker, stopsAt env registry now tokens agentId agent db attempts queue = some blocker ∧
      IsQueued db agentId other ∧ Precedes blocker other

/-- The blocker leaves the queue, and the tasks behind it stay. -/
theorem left_of_blocker {attempts : Nat} {queue : List (Id × BuildTask)} {reason : Option JsString}
    (hqueue : IsQueue db agentId (entry :: queue))
    (hpassed : refused env registry now (tokens attempts) agentId agent db entry = false)
    (h : transition now db entry.1 .waitingAgent .system reason (.of id) = .ok db') :
    Left env registry now tokens agent agentId (attempts + 1) (entry :: queue) db db' := by
  have hentry := (hqueue.mem_iff entry).mp List.mem_cons_self
  obtain ⟨hprojects, htemplates⟩ := transition_catalog h
  rcases taskChange_transition h hentry.row with ⟨hsame, -⟩ | ⟨-, hchange⟩
  · rw [hentry.status] at hsame
    cases hsame
  refine ⟨hprojects, htemplates, fun other => ?_⟩
  rw [stopsAt, if_neg (by rw [hpassed]; exact Bool.false_ne_true)]
  have hleft := hqueue.filter hchange.others fun task htask => by
    rw [hchange.after] at htask
    rw [← Option.some.inj htask]
    exact BuildTaskStatus.noConfusion
  rw [← hleft.mem_iff, List.mem_filter, hqueue.mem_iff, decide_eq_true_eq]
  constructor
  · rintro ⟨hother, hne⟩
    exact ⟨entry, rfl, hother, hqueue.head_least hother, Ne.symm hne⟩
  · rintro ⟨blocker, hblocker, hother, hbehind⟩
    obtain rfl := Option.some.inj hblocker
    exact ⟨hother, Ne.symm hbehind.2⟩

/-- A round that fails the head of the queue. -/
theorem Left.of_next {attempts : Nat} {next : Db}
    {queue : List (Id × BuildTask)} (hqueue : IsQueue db agentId (entry :: queue))
    (hrefused : refused env registry now (tokens attempts) agentId agent db entry = true)
    (hprojects : next.projects = db.projects) (htemplates : next.templates = db.templates)
    (hnext : IsQueue next agentId ((entry :: queue).filter fun other => other.1 ≠ entry.1))
    (h : Left env registry now tokens agent agentId attempts
      ((entry :: queue).filter fun other => other.1 ≠ entry.1) next db') :
    Left env registry now tokens agent agentId (attempts + 1) (entry :: queue) db db' := by
  have htail : (entry :: queue).filter (fun other => other.1 ≠ entry.1) =
      queue.filter fun other => other.1 ≠ entry.1 := by
    simp
  refine ⟨h.projects.trans hprojects, h.templates.trans htemplates, fun other => ?_⟩
  rw [h.mem_iff, stopsAt, if_pos hrefused, stopsAt_congr hprojects htemplates, htail]
  refine exists_congr fun blocker => and_congr_right fun hblocker =>
    and_congr_left fun hbehind => ?_
  rw [← hnext.mem_iff, List.mem_filter, hqueue.mem_iff, decide_eq_true_eq]
  refine ⟨And.left, fun hother => ⟨hother, fun hid => hbehind.asymm ?_⟩⟩
  obtain rfl := hother.ext ((hqueue.mem_iff entry).mp List.mem_cons_self) hid
  have hmem := List.mem_of_mem_filter (mem_of_stopsAt hblocker)
  exact hqueue.head_least ((hqueue.mem_iff blocker).mp (List.mem_cons_of_mem _ hmem))

theorem claimLoop_left {outcome : ClaimOutcome} (attempts : Nat) :
    ∀ (terminal : List Id) (db : Db) (queue : List (Id × BuildTask)),
      IsQueue db agentId queue →
      claimLoop env registry now tokens agentId agent none attempts terminal db =
        .ok (outcome, db') → outcome.result = none → outcome.shouldNotify = false →
      Left env registry now tokens agent agentId attempts queue db db' := by
  induction attempts with
  | zero =>
      intro terminal db queue hqueue h hnone hquiet
      obtain ⟨rfl, rfl⟩ := Prod.mk.inj (Except.ok.inj h)
      cases hquiet
  | succ attempts ih =>
      intro terminal db queue hqueue h hnone hquiet
      cases queue with
      | nil =>
          rw [claimLoop, hqueue.firstQueued] at h
          obtain ⟨rfl, rfl⟩ := Prod.mk.inj (Except.ok.inj h)
          refine ⟨rfl, rfl, fun other => ?_⟩
          rw [← hqueue.mem_iff, stopsAt]
          simp
      | cons entry queue =>
          have hentry := (hqueue.mem_iff entry).mp List.mem_cons_self
          obtain ⟨project, template, -, -, hround⟩ := claimLoop_round hqueue h
          rcases hround with ⟨hrefused, reason, next, hfail, hrest⟩ |
            ⟨hpassed, -, ⟨reason, htransition⟩, rfl⟩ | ⟨-, -, -, rfl⟩
          · obtain ⟨failed, hchange, hfailed, hprojects, htemplates⟩ :=
              failUndispatchable_spec hentry hfail
            have hnext := hqueue.filter hchange.others fun task htask => by
              rw [hchange.after] at htask
              rw [← Option.some.inj htask, hfailed]
              exact BuildTaskStatus.noConfusion
            exact .of_next hqueue hrefused hprojects htemplates hnext
              (ih _ _ _ hnext hrest hnone hquiet)
          · exact left_of_blocker hqueue hpassed htransition
          · cases hnone

/-- A claim that leaves the agent without a task leaves a task that the agent could run, in the
queue, if and only if one stands behind the task at which the loop has stopped. -/
theorem not_stranded_iff {outcome : ClaimOutcome} (token : JsString)
    (hagent : db.agents.row agentId = some agent) (hfree : agent.activeTaskId = none)
    (h : claimInTransaction env registry now tokens db agentId none = .ok (outcome, db'))
    (hnone : outcome.result = none) (hquiet : outcome.shouldNotify = false) :
    (∀ other, IsQueued db' agentId other →
        ¬ CouldRun env registry now token agent agentId db' other) ↔
      ∀ blocker, stopsAt env registry now tokens agentId agent db maxClaimValidationSkips
          (tasksInStatus db agentId .queued) = some blocker →
        ∀ other, IsQueued db agentId other → Precedes blocker other →
          ¬ CouldRun env registry now token agent agentId db other := by
  simp only [claimInTransaction, bind_eq_ok, require_eq_ok, ensure_eq_ok] at h
  obtain ⟨locked, hlocked, -, -, -, -, h⟩ := h
  obtain rfl := Option.some.inj (hagent.symm.trans hlocked)
  rw [if_neg (not_not.mpr hfree)] at h
  have hleft := claimLoop_left _ _ _ _ (isQueue_tasksInStatus db agentId) h hnone hquiet
  have hcould : CouldRun env registry now token agent agentId db' =
      CouldRun env registry now token agent agentId db := by
    funext other
    rw [CouldRun, CouldRun, IsDispatchable, IsDispatchable, hleft.projects, hleft.templates]
  rw [hcould]
  constructor
  · intro hkept blocker hblocker other hother hbehind
    exact hkept other ((hleft.mem_iff other).mpr ⟨blocker, hblocker, hother, hbehind⟩)
  · intro hkept other hother
    obtain ⟨blocker, hblocker, hother, hbehind⟩ := (hleft.mem_iff other).mp hother
    exact hkept blocker hblocker other hother hbehind

/-- The loop stops at the first task, with the second behind it. -/
theorem demoClaim_stranded_iff :
    ∃ db', (∀ other, IsQueued db' SlotSystem.demoAgentId other →
        ¬ CouldRun SlotSystem.demoEnvironment SlotSystem.demoRegistry 3 SlotSystem.demoToken
          demoAgent SlotSystem.demoAgentId db' other) ↔
      ∀ blocker, stopsAt SlotSystem.demoEnvironment SlotSystem.demoRegistry 3
          (fun _ => SlotSystem.demoToken) SlotSystem.demoAgentId demoAgent (demoQueueDb true)
          maxClaimValidationSkips
          (tasksInStatus (demoQueueDb true) SlotSystem.demoAgentId .queued) = some blocker →
        ∀ other, IsQueued (demoQueueDb true) SlotSystem.demoAgentId other →
          Precedes blocker other →
          ¬ CouldRun SlotSystem.demoEnvironment SlotSystem.demoRegistry 3 SlotSystem.demoToken
            demoAgent SlotSystem.demoAgentId (demoQueueDb true) other :=
  let ⟨_, db', hclaim, hresult, hquiet⟩ := claim_demoQueueDb true
  ⟨db', not_stranded_iff SlotSystem.demoToken rfl rfl hclaim (Option.isNone_iff_eq_none.mp hresult)
    hquiet⟩

/-- A task that the agent cannot take hides one that it could run. -/
theorem demoClaim_strands :
    ∃ outcome db', claimInTransaction SlotSystem.demoEnvironment SlotSystem.demoRegistry 3
        (fun _ => SlotSystem.demoToken) (demoQueueDb true) SlotSystem.demoAgentId none =
          .ok (outcome, db') ∧
      outcome.result = none ∧ outcome.shouldNotify = false ∧
      ∃ other, IsQueued db' SlotSystem.demoAgentId other ∧
        CouldRun SlotSystem.demoEnvironment SlotSystem.demoRegistry 3 SlotSystem.demoToken
          demoAgent SlotSystem.demoAgentId db' other := by
  obtain ⟨outcome, db', hclaim, hresult, hquiet⟩ := claim_demoQueueDb true
  have hnone := Option.isNone_iff_eq_none.mp hresult
  have hqueue := isQueue_demoQueueDb true
  have hleft := claimLoop_left _ _ _ _ hqueue ((claim_eq_loop true).symm.trans hclaim) hnone hquiet
  have hsecond := (hqueue.mem_iff _).mp (List.mem_pair.mpr (Or.inr rfl))
  have hbehind : Precedes (SlotSystem.demoTaskId, demoQueuedTask true 1)
      (demoSecondId, demoQueuedTask false 2) := by
    constructor <;> decide
  refine ⟨outcome, db', hclaim, hnone, hquiet, (demoSecondId, demoQueuedTask false 2),
    (hleft.mem_iff _).mpr ⟨_, rfl, hsecond, hbehind⟩, ?_, rfl⟩
  refine ⟨SlotSystem.demoProject, SlotSystem.demoTemplate, ?_, ?_, rfl, rfl⟩
  · rw [hleft.projects]
    rfl
  · rw [hleft.templates]
    rfl

end AnvilRun.ClaimOrder
