import AnvilRun.AgentRuntime.ReportedSuccess

namespace AnvilRun.AgentRuntime

open AnvilRun.AgentContracts
open AnvilRun.AgentRedactor (Text SensitiveLogRedactor)
open AnvilRun.ArtifactScan (ArtifactManifest sendArtifactManifest)
open AnvilRun.AssignmentChecks (validateAssignment)
open AnvilRun.Execution (ExecutionEvent ExecutionResult)
open AnvilRun.Interruptible

def PendingTerminalResult.lease : PendingTerminalResult → Lease
  | .completed payload => payload.lease
  | .failed payload => payload.lease
  | .canceled payload => payload.lease

/-- How the cancellation of a task ends. -/
def ActiveTask.cancellation (task : ActiveTask) (answers : Answers) : BuildTaskStatus :=
  if answers.preparationWorkspace && task.workspace && !answers.released ||
      answers.preparationCleanupFailed then .failed
  else .canceled

/-- The kind of the result that an event may give to a task. -/
def ActiveTask.outcome (task : ActiveTask) (answers : Answers) : Event → Option BuildTaskStatus
  | .preparation event => if task.assignment.taskId = event.taskId then some .failed else none
  | .execution (.finished _) => some .failed
  | .artifactUpload (.ok ()) => some .succeeded
  | .artifactUpload (.error _) => some .failed
  | .artifactManifestAck payload =>
      if task.artifactManifest.any fun manifest => !payload.accepted ||
          payload.artifactCount != manifest.files.length ||
          payload.artifactBytes != manifest.totalBytes then some .failed
      else none
  | .cancel cancel => if task.isAddressed cancel then some (task.cancellation answers) else none
  | .connection (some payload) =>
      match payload.action with
      | .cancel => some (task.cancellation answers)
      | .resume | .abandon => none
  | _ => none

/-- The results of the lease that the agent has reported are all of this kind. -/
def Agent.HasReported (s : Agent) (lease : Lease) (status : BuildTaskStatus) : Prop :=
  ∀ result, .result result ∈ s.sent → result.lease = lease → result.status = status

/-- A task that has been reported may get another result only of the kind of the reported ones. -/
def MaySettle (p : Process) (turn : Turn) : Prop :=
  ∀ task status, p.agent.active = some task →
    task.outcome turn.outside.toAnswers turn.event = some status →
      p.agent.HasReported task.lease status

/-- Every report for the active task has the kind of its pending result. -/
def Agent.Agrees (s : Agent) : Prop :=
  ∀ task result, s.active = some task → .result result ∈ s.sent → result.lease = task.lease →
    ∃ pending, task.pendingResult = some pending ∧ pending.status = result.status

/-! Predicates that only results matter for -/

/-- Only the lease of the task, its result and the results that are sent matter for the
predicate. -/
structure Unmoved (P : Agent → Prop) : Prop where
  modify : ∀ s (g : ActiveTask → ActiveTask), P s →
    (∀ task, (g task).assignment = task.assignment ∧ (g task).pendingResult = task.pendingResult) →
      P { s with active := s.active.map g }
  emit : ∀ s entry, P s → P (s.emit entry)
  receiver : ∀ s listening, P s → P { s with executionReceiver := listening }
  push : ∀ s message, P s → (∀ result, message ≠ .result result) → P (s.push message)

/-- The agent whose task has a result. -/
def Agent.settled (result : PendingTerminalResult) (s : Agent) : Agent :=
  { s with active := s.active.map fun task => { task with pendingResult := some result } }

/-- The predicate holds on when the task gets a result of this kind, and when it is reported. -/
def Settles (P : Agent → Prop) (status : BuildTaskStatus) : Prop :=
  ∀ s task result, P s → s.active = some task → result.lease = task.lease →
    result.status = status → P (s.settled result) ∧ P ((s.settled result).push (.result result))

variable {settings : Settings} {host : Host} {answers : Answers} {outside : Surroundings}
  {p : Process} {s t : Agent} {task : ActiveTask} {status : BuildTaskStatus} {P : Agent → Prop}
  {leases : List Lease} {past : List Message} {may : BuildTaskStatus → Prop}

theorem Unmoved.send (hP : Unmoved P) (h : P s) {message : Message}
    (hmessage : ∀ result, message ≠ .result result) : Stays P (send message) s :=
  stays_send_of h (hP.push s message h hmessage)

theorem Unmoved.modifyTask (hP : Unmoved P) (h : P s) {g : ActiveTask → ActiveTask}
    (hg : ∀ task,
      (g task).assignment = task.assignment ∧ (g task).pendingResult = task.pendingResult) :
    Stays P (modifyTask g) s :=
  stays_modify (hP.modify s g h hg)

theorem Unmoved.sendLog (hP : Unmoved P) (h : P s) (lease : Lease) (entry : BufferedLogEntry) :
    Stays P (sendLogBestEffort (.log lease entry)) s := by
  have hsend : ∀ t, P t → Stays P (AgentRuntime.send (.log lease entry)) t :=
    fun t ht => hP.send ht fun _ heq => by cases heq
  refine Stays.bind (stays_elapses h) fun late t ht => ?_
  split
  · exact Stays.recover (hsend t ht) fun _ u hu => stays_pure hu
  · exact hsend t ht

theorem Unmoved.persistAndSendLog (hP : Unmoved P) (h : P s) (stream : LogStream) (chunk : Text) :
    Stays P (persistAndSendLog host answers stream chunk) s := by
  refine stays_withActive h fun task _ => stays_modify_bind (Stays.bind ?_ fun appended t ht => ?_)
  · exact stays_zoom_any fun logs => hP.modify _ _ (hP.emit s _ h) fun _ => ⟨rfl, rfl⟩
  · exact stays_onlyIf (fun _ => hP.sendLog ht _ _) ht

theorem Unmoved.persistExecutionOutput (hP : Unmoved P) (h : P s) (stream : LogStream)
    (chunk : Text) : Stays P (persistExecutionOutput host answers stream chunk) s := by
  refine stays_withActive h fun task _ => ?_
  refine Stays.bind (hP.modifyTask h fun task => ?_) fun _ t ht => ?_
  · cases stream with
    | stdout => exact ⟨rfl, rfl⟩
    | stderr => exact ⟨rfl, rfl⟩
  · exact stays_onlyIf (fun _ => hP.persistAndSendLog ht stream _) ht

theorem Unmoved.flushLogTails (hP : Unmoved P) (h : P s) :
    Stays P (flushLogTails host answers) s := by
  refine stays_withActive h fun task _ => ?_
  refine Stays.bind (hP.modifyTask h fun _ => ⟨rfl, rfl⟩) fun _ t ht => ?_
  exact stays_each (fun tail u hu => hP.persistExecutionOutput hu tail.1 tail.2) ht

theorem Unmoved.stopExecution (hP : Unmoved P) (h : P s) :
    Stays P (stopExecution host answers) s := by
  refine stays_get_bind (Stays.bind (stays_onlyIf (fun _ => ?_) h) fun _ t ht => ?_)
  · refine Stays.bind (Stays.recover ?_ fun _ u hu => stays_pure hu) fun _ t ht => ?_
    · exact stays_each (fun output u hu => hP.persistExecutionOutput hu output.1 output.2) h
    · exact stays_onlyIf (fun _ => hP.modifyTask ht fun _ => ⟨rfl, rfl⟩) ht
  · exact stays_modify_bind (hP.modifyTask (hP.receiver t false ht) fun _ => ⟨rfl, rfl⟩)

/-- The task gets a result, and the result is reported. -/
theorem Settles.report (hstatus : Settles P status) (h : P s) (htask : s.active = some task)
    {g : ActiveTask → ActiveTask} {result : PendingTerminalResult}
    (hg : g task = { task with pendingResult := some result }) (hlease : result.lease = task.lease)
    (hkind : result.status = status) :
    Stays P (do modifyTask g; send (.result result)) s := by
  obtain ⟨hsettled, hreported⟩ := hstatus s task result h htask hlease hkind
  have hmodified : { s with active := s.active.map g } = s.settled result := by
    rw [Agent.settled, htask, Option.map_some, Option.map_some, hg]
  refine stays_modify_bind ?_
  rw [hmodified]
  exact stays_send_of hsettled hreported

theorem Settles.failActiveTask (hfailed : Settles P .failed) (h : P s) (reason : String)
    (exitCode : Option Int) : Stays P (failActiveTask reason exitCode) s :=
  stays_withActive h fun _ htask => hfailed.report h htask rfl rfl rfl

theorem Settles.confirmCancellation (hcanceled : Settles P .canceled) (h : P s) :
    Stays P confirmCancellation s :=
  stays_withActive h fun _ htask => hcanceled.report h htask rfl rfl rfl

/-! Each handler of the task -/

theorem Unmoved.handleTaskCancel (hP : Unmoved P) (h : P s) {cancel : TaskCancelPayload}
    (hstatus : ∀ task, s.active = some task → task.isAddressed cancel = true →
      Settles P (task.cancellation answers)) :
    Stays P (handleTaskCancel host answers cancel) s := by
  refine stays_withActive h fun task htask => ?_
  split
  · exact stays_pure h
  · rename_i haddressed
    have hstatus := hstatus task htask (by simpa using haddressed)
    refine Stays.bind (hP.modifyTask h fun _ => ⟨rfl, rfl⟩) fun _ t ht => ?_
    split
    · rename_i hkept
      rw [ActiveTask.cancellation, hkept] at hstatus
      exact hstatus.failActiveTask ht _ _
    · rename_i hreleased
      rw [ActiveTask.cancellation, Bool.not_eq_true _ |>.mp hreleased, Bool.false_or] at hstatus
      refine Stays.bind (hP.modifyTask ht fun _ => ⟨rfl, rfl⟩) fun _ u hu => ?_
      refine Stays.bind (hP.stopExecution hu) fun _ u hu => ?_
      refine Stays.bind (hP.flushLogTails hu) fun _ u hu => ?_
      split
      · rename_i hcleanup
        rw [if_pos hcleanup] at hstatus
        exact hstatus.failActiveTask hu _ _
      · rename_i hcleanup
        rw [if_neg hcleanup] at hstatus
        exact hstatus.confirmCancellation hu

theorem Unmoved.sendManifest (hP : Unmoved P) (hfailed : Settles P .failed) (h : P s) :
    Stays P (sendManifest host answers) s := by
  refine stays_withActive h fun task _ => ?_
  split
  · exact stays_fail h
  · split
    · exact hfailed.failActiveTask h _ _
    · exact hP.send h fun _ heq => by cases heq

theorem Unmoved.reportArtifacts (hP : Unmoved P) (hfailed : Settles P .failed) (h : P s) :
    Stays P (reportArtifacts host answers) s := by
  refine stays_withActive h fun task _ => ?_
  split
  · exact stays_fail h
  · split
    · exact hfailed.failActiveTask h _ _
    · refine Stays.bind (hP.modifyTask h fun _ => ⟨rfl, rfl⟩) fun _ t ht => ?_
      split
      · exact hfailed.failActiveTask ht _ _
      · exact hP.send ht fun _ heq => by cases heq

theorem Unmoved.resumeArtifacts (hP : Unmoved P) (hfailed : Settles P .failed) (h : P s)
    (task : ActiveTask) : Stays P (resumeArtifacts host answers task) s := by
  rw [AgentRuntime.resumeArtifacts]
  split
  · exact hP.sendManifest hfailed h
  · split
    · exact stays_fail h
    · split
      · exact hfailed.failActiveTask h _ _
      · refine Stays.bind (hP.modifyTask h fun _ => ⟨rfl, rfl⟩) fun _ t ht => ?_
        exact hP.sendManifest hfailed ht

theorem Unmoved.reportResult (hP : Unmoved P) (hfailed : Settles P .failed) (h : P s)
    (result : ExecutionResult) : Stays P (reportResult host answers result) s := by
  rw [AgentRuntime.reportResult]
  split
  · exact hfailed.failActiveTask h _ _
  · split
    · exact hfailed.failActiveTask h _ _
    · split
      · refine Stays.bind (stays_withActive h fun _ _ => hP.send h fun _ heq => by cases heq) ?_
        exact fun _ t ht => hP.reportArtifacts hfailed ht
      · exact hfailed.failActiveTask h _ _
      · exact hfailed.failActiveTask h _ _

theorem Unmoved.handleExecutionEvent (hP : Unmoved P) (h : P s) {event : ExecutionEvent}
    (hfailed : ∀ result, event = .finished result → Settles P .failed) :
    Stays P (handleExecutionEvent host answers event) s := by
  cases event with
  | output stream chunk => exact hP.persistExecutionOutput h stream chunk
  | finished result =>
      refine stays_get_bind (Stays.bind (hP.modifyTask h fun _ => ⟨rfl, rfl⟩) fun _ t ht => ?_)
      refine stays_modify_bind (Stays.bind (stays_each (fun tail u hu => ?_)
        (hP.receiver t false ht)) fun _ u hu => ?_)
      · exact hP.persistAndSendLog hu tail.1 tail.2
      · exact hP.reportResult (hfailed result rfl) hu result

theorem Unmoved.handleArtifactManifestAck (hP : Unmoved P) (h : P s)
    {payload : TaskArtifactManifestAckPayload}
    (hfailed : ∀ task manifest, s.active = some task → task.artifactManifest = some manifest →
      (payload.accepted = false ∨ payload.artifactCount ≠ manifest.files.length ∨
        payload.artifactBytes ≠ manifest.totalBytes) → Settles P .failed) :
    Stays P (handleArtifactManifestAck payload) s := by
  refine stays_withActive h fun task htask => ?_
  split
  · exact stays_fail h
  · split
    · exact stays_fail h
    · rename_i manifest hmanifest
      split
      · rename_i hrejected
        exact (hfailed task manifest htask hmanifest hrejected).failActiveTask h _ _
      · exact hP.modifyTask h fun _ => ⟨rfl, rfl⟩

theorem Unmoved.handleArtifactUploadResult (hP : Unmoved P) (h : P s)
    {result : Except UploadError Unit}
    (hfailed : ∀ error, result = .error error → Settles P .failed)
    (hsucceeded : result = .ok () → Settles P .succeeded) :
    Stays P (handleArtifactUploadResult result) s := by
  refine stays_withActive h fun task htask => stays_modify_bind ?_
  have hmodified : P { s with
      active := s.active.map fun task => { task with artifactUpload := false } } :=
    hP.modify s _ h fun _ => ⟨rfl, rfl⟩
  cases result with
  | error error => exact (hfailed error rfl).failActiveTask hmodified _ _
  | ok _ =>
      dsimp only
      split
      · exact stays_fail hmodified
      · rename_i manifest hmanifest
        have hcurrent : s.active.map (fun task => { task with artifactUpload := false }) =
            some { task with artifactUpload := false } := by
          rw [htask, Option.map_some]
        exact (hsucceeded rfl).report hmodified hcurrent rfl rfl rfl

theorem Unmoved.acknowledgeLogs (hP : Unmoved P) (h : P s) (task : ActiveTask) (sequence : Nat) :
    Stays P (acknowledgeLogs host task sequence) s :=
  stays_zoom_any fun _ => hP.modify s _ h fun _ => ⟨rfl, rfl⟩

theorem Unmoved.handleLogAck (hP : Unmoved P) (h : P s) (payload : TaskLogAckPayload) :
    Stays P (handleLogAck host payload) s :=
  stays_withActive h fun task _ =>
    stays_onlyIf (fun _ => hP.acknowledgeLogs h task payload.acknowledgedSequence) h

theorem Unmoved.handleTaskInput (hP : Unmoved P) (h : P s) (sensitive : Option Text) :
    Stays P (handleTaskInput sensitive) s := by
  refine stays_withActive h fun task _ => ?_
  refine Stays.bind (stays_ifSome (fun value _ => ?_) h) fun _ t ht => stays_inspect ht
  exact hP.modifyTask h fun _ => ⟨rfl, rfl⟩

theorem Unmoved.replayLines (hP : Unmoved P) (h : P s) (task : ActiveTask)
    (lines : List (List UInt8)) : Stays P (replayLines host task lines) s := by
  induction lines generalizing s with
  | nil => exact stays_inspect h
  | cons line lines ih =>
      refine Stays.bind (stays_inspect h) fun _ t ht => ?_
      split
      · exact stays_fail ht
      · split
        · exact stays_fail ht
        · refine Stays.bind (stays_onlyIf (fun _ => ?_) ht) fun _ u hu => ih hu
          exact hP.send ht fun _ heq => by cases heq

theorem Unmoved.replayActiveLogs (hP : Unmoved P) (h : P s) : Stays P (replayActiveLogs host) s :=
  stays_withActive h fun task _ =>
    Stays.bind (stays_inspect h) fun _ _ ht => hP.replayLines ht task _

/-! The results of the active task -/

/-- What the agent knows about results. `past` has been sent, and `may` is what the reports for the
active task are. -/
structure Agreed (leases : List Lease) (past : List Message) (may : BuildTaskStatus → Prop)
    (s : Agent) : Prop where
  past : past ⊆ s.sent
  known : ∀ task, s.active = some task → task.lease ∈ leases
  reported : ∀ result, .result result ∈ s.sent → result.lease ∈ leases
  own : ∀ task result, s.active = some task → task.pendingResult = some result →
    result.lease = task.lease
  agrees : s.Agrees
  uniform : ∀ result result', .result result ∈ s.sent → .result result' ∈ s.sent →
    result.lease = result'.lease → result.status = result'.status
  may : ∀ task result, s.active = some task → .result result ∈ s.sent →
    result.lease = task.lease → may result.status

theorem Agreed.weaken (h : Agreed leases past may s) : Agreed leases past (fun _ => True) s :=
  { h with may := fun _ _ _ _ _ => trivial }

theorem Agreed.of_hasReported (h : Agreed leases past may s)
    (hreported : ∀ task, s.active = some task → s.HasReported task.lease status) :
    Agreed leases past (· = status) s :=
  { h with may := fun task result htask hsent hlease => hreported task htask result hsent hlease }

/-- Nothing has been reported for a task that has no result. -/
theorem Agreed.hasReported (h : Agreed leases past may s) (htask : s.active = some task)
    (hpending : task.pendingResult = none) : s.HasReported task.lease status := by
  intro result hsent hlease
  obtain ⟨pending, heq, -⟩ := h.agrees task result htask hsent hlease
  rw [hpending] at heq
  cases heq

theorem unmoved_agreed (leases : List Lease) (past : List Message)
    (may : BuildTaskStatus → Prop) : Unmoved (Agreed leases past may) := by
  constructor
  · intro s g h hg
    have hlease : ∀ task, (g task).lease = task.lease := by
      intro task
      rw [ActiveTask.lease, (hg task).1]
      rfl
    constructor
    · exact h.past
    · intro task htask
      obtain ⟨old, hold, rfl⟩ := Option.map_eq_some_iff.mp htask
      rw [hlease]
      exact h.known old hold
    · exact h.reported
    · intro task result htask hresult
      obtain ⟨old, hold, rfl⟩ := Option.map_eq_some_iff.mp htask
      rw [(hg old).2] at hresult
      rw [hlease]
      exact h.own old result hold hresult
    · intro task result htask hsent heq
      obtain ⟨old, hold, rfl⟩ := Option.map_eq_some_iff.mp htask
      rw [(hg old).2]
      rw [hlease] at heq
      exact h.agrees old result hold hsent heq
    · exact h.uniform
    · intro task result htask hsent heq
      obtain ⟨old, hold, rfl⟩ := Option.map_eq_some_iff.mp htask
      rw [hlease] at heq
      exact h.may old result hold hsent heq
  · exact fun s entry h => { h with }
  · exact fun s listening h => { h with }
  · intro s message h hmessage
    have hold : ∀ result, .result result ∈ (s.push message).sent → .result result ∈ s.sent := by
      intro result hsent
      rcases List.mem_append.mp hsent with hsent | hsent
      · exact hsent
      · exact absurd (List.mem_singleton.mp hsent).symm (hmessage result)
    exact { h with
      past := fun message hmem => List.mem_append_left _ (h.past hmem)
      reported := fun result hsent => h.reported result (hold result hsent)
      agrees := fun task result htask hsent => h.agrees task result htask (hold result hsent)
      uniform := fun result result' hsent hsent' =>
        h.uniform result result' (hold result hsent) (hold result' hsent')
      may := fun task result htask hsent => h.may task result htask (hold result hsent) }

/-- Its pending result may be reported once more. -/
theorem Agreed.push (h : Agreed leases past may s) (htask : s.active = some task)
    {result : PendingTerminalResult} (hresult : task.pendingResult = some result)
    (hmay : may result.status) : Agreed leases past may (s.push (.result result)) := by
  have hlease := h.own task result htask hresult
  have hsent : ∀ other, .result other ∈ (s.push (.result result)).sent →
      .result other ∈ s.sent ∨ other = result := by
    intro other hother
    refine (List.mem_append.mp hother).imp_right fun hother => ?_
    exact Message.result.inj (List.mem_singleton.mp hother)
  have hkind : ∀ other, .result other ∈ s.sent → other.lease = task.lease →
      result.status = other.status := by
    intro other hother heq
    obtain ⟨pending, hpending, hstatus⟩ := h.agrees task other htask hother heq
    obtain rfl := Option.some.inj (hresult.symm.trans hpending)
    exact hstatus
  refine ⟨fun message hmem => List.mem_append_left _ (h.past hmem), h.known,
    fun other hother => ?_, h.own, fun current other hcurrent hother heq => ?_,
    fun first second hfirst hsecond heq => ?_, fun current other hcurrent hother heq => ?_⟩
  · rcases hsent other hother with hother | rfl
    · exact h.reported other hother
    · rw [hlease]
      exact h.known task htask
  · rcases hsent other hother with hother | rfl
    · exact h.agrees current other hcurrent hother heq
    · obtain rfl := Option.some.inj (htask.symm.trans hcurrent)
      exact ⟨other, hresult, rfl⟩
  · rcases hsent first hfirst with hold | rfl
    · rcases hsent second hsecond with hold' | rfl
      · exact h.uniform first second hold hold' heq
      · exact (hkind first hold (heq.trans hlease)).symm
    · rcases hsent second hsecond with hold' | rfl
      · exact hkind second hold' (heq.symm.trans hlease)
      · rfl
  · rcases hsent other hother with hother | rfl
    · exact h.may current other hcurrent hother heq
    · exact hmay

theorem settles_agreed (leases : List Lease) (past : List Message) (status : BuildTaskStatus) :
    Settles (Agreed leases past (· = status)) status := by
  intro s task result h htask hlease hkind
  have hactive : (s.settled result).active = some { task with pendingResult := some result } := by
    rw [Agent.settled, htask, Option.map_some]
  have hsettled : Agreed leases past (· = status) (s.settled result) := by
    refine ⟨h.past, fun current hcurrent => ?_, h.reported, fun current other hcurrent hother => ?_,
      fun current other hcurrent hother heq => ?_, h.uniform,
      fun current other hcurrent hother heq => ?_⟩
    · obtain rfl := Option.some.inj (hactive.symm.trans hcurrent)
      exact h.known task htask
    · obtain rfl := Option.some.inj (hactive.symm.trans hcurrent)
      obtain rfl := Option.some.inj hother
      exact hlease
    · obtain rfl := Option.some.inj (hactive.symm.trans hcurrent)
      exact ⟨result, rfl, hkind.trans (h.may task other htask hother heq).symm⟩
    · obtain rfl := Option.some.inj (hactive.symm.trans hcurrent)
      exact h.may task other htask hother heq
  exact ⟨hsettled, hsettled.push hactive rfl hkind⟩

theorem stays_resendAgreed (h : Agreed leases past (fun _ => True) s) :
    Stays (Agreed leases past fun _ => True) resendPendingResult s :=
  stays_withActive h fun _ htask => stays_ifSome (fun _ hresult =>
    stays_send_of h (h.push htask hresult trivial)) h

/-! The process -/

/-- The reports of the agent agree with the result of its task. -/
def Agreeing (past : List Message) (p : Process) : Prop :=
  Agreed p.leases past (fun _ => True) p.agent

/-- What the reports for the active task are, besides. -/
def Reporting (past : List Message) (may : BuildTaskStatus → Prop) (p : Process) : Prop :=
  Agreed p.leases past may p.agent

theorem Reporting.agreeing (h : Reporting past may p) : Agreeing past p :=
  Agreed.weaken h

theorem Agreeing.reporting (h : Agreeing past p)
    (hreported : ∀ task, p.agent.active = some task → p.agent.HasReported task.lease status) :
    Reporting past (· = status) p :=
  Agreed.of_hasReported h hreported

/-- A handler of the task changes only the agent. -/
theorem stays_onReporting {action : Act}
    (haction : Stays (Agreed p.leases past may) action p.agent) :
    Stays (Reporting past may) (onAgent action) p :=
  stays_zoom haction fun _ hs => hs

theorem Agreed.drop (h : Agreed leases past may s) :
    Agreed leases past may { s with active := none } := by
  constructor
  · exact h.past
  · exact fun _ htask => by cases htask
  · exact h.reported
  · exact fun _ _ htask => by cases htask
  · exact fun _ _ htask => by cases htask
  · exact h.uniform
  · exact fun _ _ htask => by cases htask

theorem Agreeing.drop (h : Agreeing past p) : Agreeing past p.drop :=
  Agreed.drop h

theorem Agreeing.abandon (h : Agreeing past p) : Agreeing past p.abandon :=
  (unmoved_agreed _ _ _).receiver _ false (Agreed.drop h)

theorem Agreeing.restart (h : Agreeing past p) : Agreeing past p.restart :=
  h.abandon

theorem stays_agreeing {x : Routine Unit} (h : Stays (Reporting past may) x p) :
    Stays (Agreeing past) x p :=
  h.imp (fun _ _ => Reporting.agreeing) (fun _ _ => Reporting.agreeing) fun _ => Reporting.agreeing

theorem stays_onAgreeing {action : Act} (h : Agreeing past p)
    (hreported : ∀ task, p.agent.active = some task → p.agent.HasReported task.lease status)
    (haction : Agreed p.leases past (· = status) p.agent →
      Stays (Agreed p.leases past (· = status)) action p.agent) :
    Stays (Agreeing past) (onAgent action) p :=
  stays_agreeing (stays_onReporting (haction (h.reporting hreported)))

theorem stays_failReporting (h : Reporting past (· = .failed) p) (reason : String)
    (exitCode : Option Int) :
    Stays (Reporting past (· = .failed)) (onAgent (failActiveTask reason exitCode)) p :=
  stays_onReporting ((settles_agreed _ _ _).failActiveTask h reason exitCode)

theorem stays_startReporting (h : Reporting past (· = .failed) p) :
    Stays (Reporting past (· = .failed)) (startOrFail settings outside) p := by
  refine Stays.recover (stays_get_bind ?_) fun e q hq => stays_failReporting hq _ _
  split
  · exact stays_fail h
  · split
    · exact stays_fail h
    · rename_i task hactive _ _
      have hstarted : Reporting past (· = .failed) (p.start task.lease) := by
        have hlistening := (unmoved_agreed _ _ _).receiver _ true h
        exact (unmoved_agreed _ _ _).modify _ _ hlistening fun _ => ⟨rfl, rfl⟩
      refine stays_modify_bind (stays_onReporting ?_)
      exact (unmoved_agreed _ _ _).send hstarted fun _ heq => by cases heq

theorem Reporting.modifySource (h : Reporting past may p) (f : SourceSteps → SourceSteps) :
    Reporting past may { p with source := f p.source } :=
  h

theorem stays_prepareReporting (h : Reporting past (· = .failed) p) (remembers : Bool) :
    Stays (Reporting past (· = .failed)) (prepareSource settings outside remembers) p := by
  refine stays_get_bind ?_
  split
  · exact stays_failReporting h _ _
  · have h := h.modifySource fun source =>
      { source with artifactCleaned := source.artifactCleaned || remembers }
    refine stays_modify_bind ?_
    split
    · exact stays_failReporting h _ _
    · have h := h.modifySource fun source => { source with inputFilesDownloaded := true }
      refine stays_modify_bind ?_
      split
      · exact stays_failReporting h _ _
      · have h := h.modifySource fun source => { source with configWritten := true }
        exact stays_modify_bind (stays_startReporting h)

theorem stays_preparedReporting (h : Reporting past (· = .failed) p) (task : ActiveTask)
    (result : Except PreparationFailure PreparationResult) :
    Stays (Reporting past (· = .failed)) (handlePrepared settings outside task result) p := by
  cases result with
  | error failure =>
      refine stays_onReporting (Stays.bind ?_ fun _ t ht => ?_)
      · exact (unmoved_agreed _ _ _).modifyTask h fun _ => ⟨rfl, rfl⟩
      · exact (settles_agreed _ _ _).failActiveTask ht _ _
  | ok result =>
      rw [handlePrepared]
      split
      · exact stays_fail h
      · split
        · exact stays_failReporting h _ _
        · refine Stays.bind (stays_onReporting (Stays.bind ?_ fun _ t ht => ?_))
            fun _ q hq => stays_prepareReporting hq true
          · exact (unmoved_agreed _ _ _).modifyTask h fun _ => ⟨rfl, rfl⟩
          · exact (unmoved_agreed _ _ _).send ht fun _ heq => by cases heq

theorem stays_handlePreparationAgreeing (h : Agreeing past p) {event : PreparationEvent}
    (hreported : ∀ task, p.agent.active = some task → task.assignment.taskId = event.taskId →
      p.agent.HasReported task.lease .failed) :
    Stays (Agreeing past) (handlePreparationEvent settings outside event) p := by
  refine stays_withTask h fun task htask => stays_onlyIf (fun hevent => ?_) h
  have hreporting : Reporting past (· = .failed) p := by
    refine h.reporting fun current hcurrent => ?_
    obtain rfl := Option.some.inj (htask.symm.trans hcurrent)
    exact hreported task htask hevent
  have hmodified : Stays (Reporting past (· = .failed))
      (onAgent (modifyTask fun task => { task with preparation := false })) p :=
    stays_onReporting ((unmoved_agreed _ _ _).modifyTask hreporting fun _ => ⟨rfl, rfl⟩)
  exact stays_agreeing (Stays.bind hmodified fun _ q hq =>
    stays_preparedReporting hq task event.result)

theorem stays_handleResultAckAgreeing (h : Agreeing past p) (payload : TaskResultAckPayload) :
    Stays (Agreeing past) (handleResultAck payload) p := by
  refine stays_withTask h fun task _ => ?_
  split
  · exact stays_fail h
  · refine stays_ifSome (fun result _ => ?_) h
    split
    · exact stays_fail h
    · exact stays_modify h.drop

/-- The acknowledgement of logs leaves what the cancellation of the task depends on. -/
theorem stays_acknowledgeLogsFor (answers : Answers) (h : Agreed leases past may s)
    (htask : s.active = some task) (sequence : Nat) :
    Stays (fun t => Agreed leases past may t ∧ ∀ current, t.active = some current →
      current.cancellation answers = task.cancellation answers)
      (acknowledgeLogs host task sequence) s := by
  refine stays_zoom_any fun logs => ⟨(unmoved_agreed _ _ _).modify s _ h fun _ => ⟨rfl, rfl⟩, ?_⟩
  intro current hcurrent
  obtain ⟨old, hold, rfl⟩ := Option.map_eq_some_iff.mp hcurrent
  obtain rfl := Option.some.inj (htask.symm.trans hold)
  rfl

/-- The cancellation of a task by a recovery. -/
theorem stays_cancelRecovery (h : Agreed leases past (· = task.cancellation answers) s)
    (htask : s.active = some task) (sequence : Nat) (cancel : TaskCancelPayload) :
    Stays (Agreed leases past (· = task.cancellation answers)) (do
      acknowledgeLogs host task sequence
      handleTaskCancel host answers cancel) s := by
  refine ends_bind ((stays_acknowledgeLogsFor answers h htask sequence).imp (fun _ t ht => ?_)
    (fun _ _ ht => ht.1) fun _ ht => ht.1)
  refine (unmoved_agreed _ _ _).handleTaskCancel ht.1 fun current hcurrent _ => ?_
  rw [ht.2 current hcurrent]
  exact settles_agreed _ _ _

theorem stays_waitForRecoveryAgreeing (h : Agreeing past p) {message : Option TaskRecoveryPayload}
    (htask : p.agent.active = some task)
    (hreported : ∀ payload, message = some payload → payload.action = .cancel →
      p.agent.HasReported task.lease (task.cancellation outside.toAnswers)) :
    Stays (Agreeing past) (waitForRecovery settings outside message task) p := by
  cases message with
  | none => exact stays_fail h
  | some payload =>
      rw [waitForRecovery]
      split
      · exact stays_fail h
      · split
        · exact stays_modify_bind (stays_pure h.abandon)
        · exact stays_fail h
        · split
          · exact stays_fail h
          · refine Stays.bind ?_ fun _ q hq => stays_pure hq
            exact stays_onReporting ((unmoved_agreed _ _ _).acknowledgeLogs h task _)
        · exact stays_fail h
        · rename_i haction _
          split
          · exact stays_fail h
          · refine Stays.bind ?_ fun _ q hq => stays_pure hq
            refine stays_onAgreeing h (fun current hcurrent => ?_) fun hagreed =>
              stays_cancelRecovery hagreed htask _ _
            obtain rfl := Option.some.inj (htask.symm.trans hcurrent)
            exact hreported payload rfl haction

theorem stays_resumeAgreeing (h : Agreeing past p) (recovery : Option BuildTaskStatus) :
    Stays (Agreeing past) (resumeActiveTask settings outside recovery) p := by
  refine stays_withTask h fun task htask => stays_onlyIf (fun hpending => ?_) h
  have hreporting : Reporting past (· = .failed) p := by
    refine h.reporting fun current hcurrent => ?_
    obtain rfl := Option.some.inj (htask.symm.trans hcurrent)
    exact Agreed.hasReported h htask (Option.isNone_iff_eq_none.mp hpending)
  apply stays_agreeing
  split
  · refine stays_onlyIf (fun _ => stays_onReporting (Stays.bind ?_ fun _ t ht => ?_)) hreporting
    · exact stays_onlyIf
        (fun _ => (unmoved_agreed _ _ _).send hreporting fun _ heq => by cases heq) hreporting
    · exact (unmoved_agreed _ _ _).resumeArtifacts (settles_agreed _ _ _) ht task
  · refine stays_onlyIf (fun _ => stays_get_bind ?_) hreporting
    split
    · exact stays_startReporting hreporting
    · exact stays_prepareReporting hreporting false

theorem stays_connectAgreeing (h : Agreeing past p) {message : Option TaskRecoveryPayload}
    (hreported : ∀ task payload, p.agent.active = some task → message = some payload →
      payload.action = .cancel →
        p.agent.HasReported task.lease (task.cancellation outside.toAnswers)) :
    Stays (Agreeing past) (connectOnce settings outside message) p := by
  refine Stays.bind (stays_withTask h fun task htask => ?_) fun _ q hq => ?_
  · refine Stays.bind (stays_waitForRecoveryAgreeing h htask fun payload hmessage haction => ?_)
      fun status q hq => stays_resumeAgreeing hq status
    exact hreported task payload htask hmessage haction
  · refine Stays.bind (stays_onReporting (Stays.bind ?_ fun _ t ht => stays_resendAgreed ht))
      fun _ q hq => stays_modify hq
    exact (unmoved_agreed _ _ _).replayActiveLogs hq

theorem Agreeing.take (settings : Settings) {assignment : TaskAssignmentPayload}
    (h : Agreeing past p) (hfresh : leaseOf assignment ∉ p.leases) (logs : LogBuffer.Host) :
    Agreeing past (p.take (newTask settings assignment logs)) := by
  have hmem : ∀ {lease : Lease}, lease ∈ p.leases → lease ∈ p.leases ++ [leaseOf assignment] :=
    fun hlease => List.mem_append_left _ hlease
  have hagreed : Agreed p.leases past (fun _ => True) p.agent := h
  refine ⟨hagreed.past, fun task htask => ?_,
    fun result hsent => hmem (hagreed.reported result hsent),
    fun task result htask hresult => ?_, fun task result htask hsent hlease => ?_,
    hagreed.uniform, fun _ _ _ _ _ => trivial⟩
  · obtain rfl := Option.some.inj htask
    exact List.mem_append_right _ (List.mem_singleton_self _)
  · obtain rfl := Option.some.inj htask
    cases hresult
  · obtain rfl := Option.some.inj htask
    refine absurd (hagreed.reported result hsent) ?_
    rw [hlease]
    exact hfresh

theorem stays_handleAssignmentAgreeing {assignment : TaskAssignmentPayload} (h : Agreeing past p)
    (hfresh : leaseOf assignment ∉ p.leases) :
    Stays (Agreeing past) (handleAssignment settings outside assignment) p := by
  rw [handleAssignment]
  split
  · exact stays_fail h
  · refine stays_get_bind (stays_onlyIf (fun _ => ?_) h)
    have hopened : Stays (fun q => Agreeing past q ∧ q.leases = p.leases)
        (openLogBuffer settings assignment.taskId) p :=
      stays_zoom_any fun _ => ⟨h, rfl⟩
    refine ends_bind (hopened.imp (fun logs q hq => ?_) (fun _ _ hq => hq.1) fun _ hq => hq.1)
    have htaken := hq.1.take settings (by rw [hq.2]; exact hfresh) logs
    refine stays_modify_bind (ends_bind (ends_recover (ends_inspect ?_ ?_ htaken)))
    · exact stays_onReporting ((unmoved_agreed _ _ _).modifyTask htaken fun _ => ⟨rfl, rfl⟩)
    · exact ends_bind (ends_modify (ends_fail htaken.drop))

/-! Each turn and all runs -/

/-- A handler that gives the task a result only of the kind of the event. -/
theorem stays_onSettling {turn : Turn} {action : Act} (h : Agreeing past p)
    (hmay : MaySettle p turn)
    (haction : ∀ may : BuildTaskStatus → Prop, Agreed p.leases past may p.agent →
      (∀ task status, p.agent.active = some task →
        task.outcome turn.outside.toAnswers turn.event = some status →
          Settles (Agreed p.leases past may) status) →
      Stays (Agreed p.leases past may) action p.agent) :
    Stays (Agreeing past) (onAgent action) p := by
  cases hactive : p.agent.active with
  | none =>
      refine stays_onReporting (haction _ h fun task status htask => ?_)
      rw [hactive] at htask
      cases htask
  | some task =>
      cases houtcome : task.outcome turn.outside.toAnswers turn.event with
      | none =>
          refine stays_onReporting (haction _ h fun current status hcurrent heq => ?_)
          obtain rfl := Option.some.inj (hactive.symm.trans hcurrent)
          rw [houtcome] at heq
          cases heq
      | some status =>
          have hreported : ∀ current, p.agent.active = some current →
              p.agent.HasReported current.lease status := by
            intro current hcurrent
            obtain rfl := Option.some.inj (hactive.symm.trans hcurrent)
            exact hmay task status hactive houtcome
          refine stays_onAgreeing h hreported fun hagreed =>
            haction _ hagreed fun current other hcurrent heq => ?_
          obtain rfl := Option.some.inj (hactive.symm.trans hcurrent)
          obtain rfl := Option.some.inj (houtcome.symm.trans heq)
          exact settles_agreed _ _ _

theorem agreeing_after {turn : Turn}
    (h : Stays (Agreeing past) (handle settings turn.outside turn.event) p) :
    Agreeing past (p.after settings turn) := by
  have hends := h turn.faults
  rw [Effect.Ends] at hends
  rw [Process.after]
  rcases hrun : handle settings turn.outside turn.event ⟨p, turn.faults⟩ with ⟨(e | _) | a, t⟩
  · rw [hrun] at hends
    exact hends
  · rw [hrun] at hends
    exact Agreeing.restart hends
  · rw [hrun] at hends
    exact hends

theorem outcome_manifestAck {payload : TaskArtifactManifestAckPayload} {manifest : ArtifactManifest}
    (hmanifest : task.artifactManifest = some manifest)
    (hrejected : payload.accepted = false ∨ payload.artifactCount ≠ manifest.files.length ∨
      payload.artifactBytes ≠ manifest.totalBytes) :
    task.outcome answers (.artifactManifestAck payload) = some .failed := by
  refine if_pos ?_
  rw [hmanifest, Option.any_some, Bool.or_eq_true, Bool.or_eq_true, Bool.not_eq_true', bne_iff_ne,
    bne_iff_ne, or_assoc]
  exact hrejected

theorem outcome_connection {message : Option TaskRecoveryPayload} {payload : TaskRecoveryPayload}
    (hmessage : message = some payload) (haction : payload.action = .cancel) :
    task.outcome answers (.connection message) = some (task.cancellation answers) := by
  rw [hmessage, ActiveTask.outcome]
  split
  · rfl
  · rename_i hother
    cases haction.symm.trans hother
  · rename_i hother
    cases haction.symm.trans hother

/-- A turn keeps the reports of the task in agreement. -/
theorem Agreeing.after (h : Agreeing past p) {turn : Turn} (hawaits : p.awaits turn.event)
    (hmay : MaySettle p turn) : Agreeing past (p.after settings turn) := by
  obtain ⟨event, outside, faults⟩ := turn
  cases event with
  | assignment payload => exact agreeing_after (stays_handleAssignmentAgreeing h hawaits.2)
  | preparation event =>
      refine agreeing_after (stays_handlePreparationAgreeing h fun task htask hevent => ?_)
      exact hmay task .failed htask (if_pos hevent)
  | execution event =>
      cases event with
      | output stream chunk =>
          exact agreeing_after (stays_modify_bind (stays_onReporting
            ((unmoved_agreed _ _ _).persistExecutionOutput h stream chunk)))
      | finished result =>
          have hdelivered : Agreeing past (p.deliver (.finished result)) := h
          refine agreeing_after (stays_modify_bind (stays_onAgreeing hdelivered
            (fun task htask => hmay task .failed htask rfl) fun hagreed => ?_))
          exact (unmoved_agreed _ _ _).handleExecutionEvent hagreed fun _ _ => settles_agreed _ _ _
  | artifactUpload result =>
      cases result with
      | ok _ =>
          refine agreeing_after (stays_onAgreeing h
            (fun task htask => hmay task .succeeded htask rfl) fun hagreed => ?_)
          exact (unmoved_agreed _ _ _).handleArtifactUploadResult hagreed
            (fun _ heq => by cases heq) fun _ => settles_agreed _ _ _
      | error error =>
          refine agreeing_after (stays_onAgreeing h
            (fun task htask => hmay task .failed htask rfl) fun hagreed => ?_)
          exact (unmoved_agreed _ _ _).handleArtifactUploadResult hagreed
            (fun _ _ => settles_agreed _ _ _) fun heq => by cases heq
  | artifactManifestAck payload =>
      refine agreeing_after (stays_onSettling h hmay fun may hagreed hsettles => ?_)
      refine (unmoved_agreed _ _ _).handleArtifactManifestAck hagreed
        fun task manifest htask hmanifest hrejected => hsettles task .failed htask ?_
      exact outcome_manifestAck hmanifest hrejected
  | resultAck payload => exact agreeing_after (stays_handleResultAckAgreeing h payload)
  | logAck payload =>
      exact agreeing_after (stays_onReporting ((unmoved_agreed _ _ _).handleLogAck h payload))
  | cancel payload =>
      refine agreeing_after (stays_onSettling h hmay fun may hagreed hsettles => ?_)
      exact (unmoved_agreed _ _ _).handleTaskCancel hagreed
        fun task htask haddressed => hsettles task _ htask (if_pos haddressed)
  | input sensitive =>
      exact agreeing_after (stays_onReporting ((unmoved_agreed _ _ _).handleTaskInput h sensitive))
  | other => exact agreeing_after (stays_onReporting (stays_inspect h))
  | disconnected => exact agreeing_after (stays_modify h)
  | connection message =>
      refine agreeing_after (stays_connectAgreeing h fun task payload htask hmessage haction => ?_)
      exact hmay task _ htask (outcome_connection hmessage haction)
  | exit => exact agreeing_after (stays_modify h.restart)

theorem agreeing_of_isNew (h : p.IsNew) : Agreeing [] p := by
  rw [Agreeing, h.agent_eq]
  constructor
  · exact List.nil_subset _
  · exact fun _ htask => by cases htask
  · exact fun _ hsent => absurd hsent List.not_mem_nil
  · exact fun _ _ htask => by cases htask
  · exact fun _ _ htask => by cases htask
  · exact fun _ _ hsent => absurd hsent List.not_mem_nil
  · exact fun _ _ htask => by cases htask

/-- All that has been sent is past. -/
theorem Agreeing.now (h : Agreeing past p) : Agreeing p.agent.sent p :=
  Agreed.mk (List.Subset.refl _) (Agreed.known h) (Agreed.reported h) (Agreed.own h)
    (Agreed.agrees h) (Agreed.uniform h) (Agreed.may h)

end AnvilRun.AgentRuntime
