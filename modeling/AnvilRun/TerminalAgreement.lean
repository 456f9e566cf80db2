import AnvilRun.AgentRuntime.PendingResults
import AnvilRun.ResultAcks

namespace AnvilRun.TerminalAgreement

open AnvilRun.AgentContracts (TaskResultAckPayload)
open AnvilRun.AgentMessages
open AnvilRun.AgentRuntime (ActiveTask Agreeing MaySettle PendingTerminalResult Process Routine
  Settings handleResultAck)
open AnvilRun.Interruptible
open AnvilRun.ResultAcks
open AnvilRun.StatusHistory
open AnvilRun.TaskDatabase
open AnvilRun.TaskMoves
open AnvilRun.TaskQueue
open AnvilRun.TaskRuns
open AnvilRun.ValidationPrimitives

/-- The message of a result as the server reads it. -/
def resultMessage (finishedAt : Time) : PendingTerminalResult → AgentMessage
  | .completed payload => .completed
      { taskId := JsString.ofChars payload.lease.taskId
        leaseToken := JsString.ofChars payload.lease.token
        exitCode := payload.exitCode
        finishedAt
        sourceCommit := payload.sourceCommit.map JsString.ofChars
        artifactCount := payload.artifactCount
        artifactBytes := payload.artifactBytes }
  | .failed payload => .failed
      { taskId := JsString.ofChars payload.lease.taskId
        leaseToken := JsString.ofChars payload.lease.token
        reason := JsString.ofString payload.reason
        exitCode := payload.exitCode }
  | .canceled payload => .canceled
      { taskId := JsString.ofChars payload.lease.taskId
        leaseToken := JsString.ofChars payload.lease.token
        reason := some (JsString.ofString payload.reason) }

/-- Whether a message reports a result. -/
def isReport : AgentMessage → Bool
  | .completed _ | .failed _ | .canceled _ => true
  | _ => false

/-- An agent and the server, with the acknowledgements of results that the server has sent to it
and the reports that they answer. What is sent may be lost, and it may arrive at any time later. -/
structure System where
  agent : Process
  server : Server
  answers : List (PendingTerminalResult × JsString × BuildTaskStatus)

/-- The acknowledgements among the messages that answer a report. -/
def answersTo (result : PendingTerminalResult) (messages : List ServerMessage) :
    List (PendingTerminalResult × JsString × BuildTaskStatus) :=
  messages.filterMap fun message =>
    match message with
    | .resultAck taskId status => some (result, taskId, status)
    | _ => none

/-- What the rest of the server does to the database: an operation, or a message of another
agent. -/
inductive Elsewhere (env : Environment) : Db → Db → Prop
  | step {db db' : Db} (h : TaskStep env anyOperation db db') : Elsewhere env db db'
  | message (s : Server) (occasion : Occasion) (agentId : Id) (message : AgentMessage) :
      Elsewhere env s.db ((handleMessage env occasion agentId message).run s).db

/-- A turn of the agent, a message of the agent at the server, or something else on the server. The
agent gets only acknowledgements that the server has sent, and the server gets only reports that the
agent has sent. -/
inductive Step (settings : Settings) (env : Environment) (agentId : Id)
    (allowed : Process → AgentRuntime.Turn → Prop) : System → System → Prop
  | turn {s : System} (turn : AgentRuntime.Turn) (hawaits : s.agent.awaits turn.event)
      (hallowed : allowed s.agent turn)
      (hack : ∀ payload, turn.event = .resultAck payload →
        .resultAck (JsString.ofChars payload.taskId) payload.status ∈ s.server.sent) :
      Step settings env agentId allowed s { s with agent := s.agent.after settings turn }
  | report {s : System} {t : Server} (result : PendingTerminalResult) (finishedAt : Time)
      (occasion : Occasion) (hsent : .result result ∈ s.agent.agent.sent)
      (ht : t = (handleMessage env occasion agentId (resultMessage finishedAt result)).run
        s.server) :
      Step settings env agentId allowed s
        { s with
          server := t
          answers := s.answers ++ answersTo result (t.sent.drop s.server.sent.length) }
  | message {s : System} (message : AgentMessage) (occasion : Occasion)
      (hmessage : isReport message = false) :
      Step settings env agentId allowed s
        { s with server := (handleMessage env occasion agentId message).run s.server }
  | elsewhere {s : System} {t : Server} (hsent : t.sent = s.server.sent)
      (hdb : Elsewhere env s.server.db t.db) :
      Step settings env agentId allowed s { s with server := t }

structure IsNew (s : System) : Prop where
  agent : s.agent.IsNew
  tasks : ∀ taskId, s.server.db.tasks.row taskId = none
  sent : s.server.sent = []
  answers : s.answers = []

/-- The runs of an agent and the server. -/
def runs (settings : Settings) (env : Environment) (agentId : Id)
    (allowed : Process → AgentRuntime.Turn → Prop) : TransitionSystem System where
  init := IsNew
  step := Step settings env agentId allowed

/-- Every acknowledgement of a result has the status in which its task has ended. -/
structure Acknowledged (s : System) : Prop where
  canonical : CanonicalIds s.server.db
  ended : ∀ taskId status, .resultAck taskId status ∈ s.server.sent →
    status.isTerminal = true ∧ Ended (asciiLower taskId) status s.server.db

/-- Every answer has the status of the report that it answers, and the reports of the active task
agree with its result. -/
structure Answered (s : System) : Prop where
  agreeing : Agreeing s.agent.agent.sent s.agent
  canonical : CanonicalIds s.server.db
  answers : ∀ result taskId status, (result, taskId, status) ∈ s.answers →
    .result result ∈ s.agent.agent.sent ∧ status = result.status

variable {settings : Settings} {env : Environment} {agentId : Id}
  {allowed : Process → AgentRuntime.Turn → Prop} {s t : System} {db db' : Db} {task : ActiveTask}
  {payload : TaskResultAckPayload}

/-! Each step -/

theorem Elsewhere.keepsEnds (h : Elsewhere env db db') : KeepsEnds db db' := by
  cases h with
  | step h =>
      intro hids
      rcases h.moves True hids fun _ _ _ => trivial with ⟨agentId, hmoves⟩ | ⟨htasks, -⟩
      · exact keepsEnds_of_moves True True hmoves hids
      · exact keepsEnds_of_tasks htasks hids
  | message s occasion agentId message => exact (acknowledges_handleMessage _ _ _ _ _).1

/-- What the agent does to the server with a message. -/
theorem Acknowledged.message (h : Acknowledged s) (message : AgentMessage) (occasion : Occasion)
    (answers : List (PendingTerminalResult × JsString × BuildTaskStatus)) :
    Acknowledged
      { s with
        server := (handleMessage env occasion agentId message).run s.server
        answers } := by
  obtain ⟨hends, hreplies⟩ := acknowledges_handleMessage env occasion agentId message s.server
  obtain ⟨hcanonical, hkept⟩ := hends h.canonical
  obtain ⟨replies, hsent, hcommitted⟩ := hreplies h.canonical
  refine ⟨hcanonical, fun taskId status hmem => ?_⟩
  rw [hsent] at hmem
  rcases List.mem_append.mp hmem with hearlier | hreply
  · obtain ⟨hterminal, hended⟩ := h.ended taskId status hearlier
    exact ⟨hterminal, hkept _ status hterminal hended⟩
  · exact (hcommitted taskId status hreply).2

theorem Acknowledged.step (h : Acknowledged s) (hstep : Step settings env agentId allowed s t) :
    Acknowledged t := by
  cases hstep with
  | turn turn hawaits hallowed hack => exact ⟨h.canonical, h.ended⟩
  | report result finishedAt occasion hsent ht =>
      subst ht
      exact h.message _ occasion _
  | message message occasion hmessage => exact h.message message occasion s.answers
  | @elsewhere t hsent hdb =>
      obtain ⟨hcanonical, hkept⟩ := hdb.keepsEnds h.canonical
      refine ⟨hcanonical, fun taskId status hmem => ?_⟩
      rw [show ({ s with server := t } : System).server.sent = t.sent from rfl, hsent] at hmem
      obtain ⟨hterminal, hended⟩ := h.ended taskId status hmem
      exact ⟨hterminal, hkept _ status hterminal hended⟩

theorem acknowledged_of_reachable
    (h : (runs settings env agentId allowed).Reachable s) : Acknowledged s := by
  refine h.invariant (fun s hnew => ?_) fun _ _ _ hs hstep => hs.step hstep
  constructor
  · intro taskId task hrow
    rw [hnew.tasks] at hrow
    cases hrow
  · intro taskId status hmem
    rw [hnew.sent] at hmem
    exact absurd hmem List.not_mem_nil

/-- What the agent does with an acknowledgement of a result. -/
theorem handleResultAck_active {p : Process} {faults : List (Option Fault)}
    (htask : p.agent.active = some task) :
    handleResultAck payload ⟨p, faults⟩ =
      (if task.assignment.taskId ≠ payload.taskId then
        fail (.protocol "task.result.ack taskId did not match active task")
      else Effect.ifSome task.pendingResult fun result =>
        if payload.status ≠ result.status then
          fail (.protocol "task.result.ack status did not match pending result")
        else modify Process.drop : Routine Unit) ⟨p, faults⟩ := by
  have hget : handleResultAck payload ⟨p, faults⟩ =
      (Effect.ifSome p.agent.active fun task =>
        if task.assignment.taskId ≠ payload.taskId then
          fail (.protocol "task.result.ack taskId did not match active task")
        else Effect.ifSome task.pendingResult fun result =>
          if payload.status ≠ result.status then
            fail (.protocol "task.result.ack status did not match pending result")
          else modify Process.drop : Routine Unit) ⟨p, faults⟩ := rfl
  rw [hget, htask]
  rfl

/-- An acknowledgement makes the agent let go of its task only if the task has a result of the
acknowledged kind. -/
theorem result_of_dropped {p : Process} {turn : AgentRuntime.Turn}
    (hevent : turn.event = .resultAck payload)
    (htask : p.agent.active = some task)
    (hgone : (p.after settings turn).agent.active = none) :
    task.assignment.taskId = payload.taskId ∧
      ∃ result, task.pendingResult = some result ∧ result.status = payload.status := by
  obtain ⟨event, outside, faults⟩ := turn
  obtain rfl : event = .resultAck payload := hevent
  have hhandle : AgentRuntime.handle settings outside (.resultAck payload) ⟨p, faults⟩ =
      handleResultAck payload ⟨p, faults⟩ := rfl
  have hactive : p.agent.active ≠ none := by
    rw [htask]
    exact Option.some_ne_none task
  rw [Process.after] at hgone
  dsimp only at hgone
  rw [hhandle, handleResultAck_active htask] at hgone
  by_cases hid : task.assignment.taskId ≠ payload.taskId
  · rw [if_pos hid] at hgone
    exact absurd hgone hactive
  · rw [if_neg hid] at hgone
    refine ⟨not_not.mp hid, ?_⟩
    cases hresult : task.pendingResult with
    | none =>
        rw [hresult] at hgone
        exact absurd hgone hactive
    | some result =>
        rw [hresult, Effect.ifSome] at hgone
        by_cases hstatus : payload.status ≠ result.status
        · rw [if_pos hstatus] at hgone
          exact absurd hgone hactive
        · exact ⟨result, rfl, (not_not.mp hstatus).symm⟩

theorem dropped_of_result {p : Process} {turn : AgentRuntime.Turn} {result : PendingTerminalResult}
    (hevent : turn.event = .resultAck payload) (htask : p.agent.active = some task)
    (hid : task.assignment.taskId = payload.taskId) (hresult : task.pendingResult = some result)
    (hstatus : result.status = payload.status) : p.after settings turn = p.drop := by
  obtain ⟨event, outside, faults⟩ := turn
  obtain rfl : event = .resultAck payload := hevent
  have hhandle : AgentRuntime.handle settings outside (.resultAck payload) ⟨p, faults⟩ =
      handleResultAck payload ⟨p, faults⟩ := rfl
  rw [Process.after]
  dsimp only
  rw [hhandle, handleResultAck_active htask, if_neg (not_not.mpr hid), hresult, Effect.ifSome,
    if_neg (not_not.mpr hstatus.symm)]
  rfl

/-- In every run, each acknowledgement of a result that the server has sent has the status in which
its task has ended; and an acknowledgement makes the agent let go of its task only if the result
of the task is the status in which it has ended on the server. -/
theorem acknowledged_results (settings : Settings) (env : Environment) (agentId : Id) (s : System)
    (h : (runs settings env agentId fun _ _ => True).Reachable s) :
    (∀ taskId status, .resultAck taskId status ∈ s.server.sent →
      status.isTerminal = true ∧ Ended (asciiLower taskId) status s.server.db) ∧
    ∀ turn payload task, turn.event = .resultAck payload →
      .resultAck (JsString.ofChars payload.taskId) payload.status ∈ s.server.sent →
      s.agent.agent.active = some task → (s.agent.after settings turn).agent.active = none →
        ∃ result, task.pendingResult = some result ∧
          Ended (asciiLower (JsString.ofChars task.assignment.taskId)) result.status
            s.server.db := by
  have hacknowledged := acknowledged_of_reachable h
  refine ⟨hacknowledged.ended, fun turn payload task hevent hsent htask hgone => ?_⟩
  obtain ⟨hid, result, hresult, hstatus⟩ := result_of_dropped hevent htask hgone
  refine ⟨result, hresult, ?_⟩
  rw [hid, hstatus]
  exact (hacknowledged.ended _ _ hsent).2

/-! Runs in which no task that has been reported gets a result of another kind -/

theorem status_of_ackOf {result : PendingTerminalResult} {finishedAt : Time} {taskId : JsString}
    {status : BuildTaskStatus} (h : AckOf (resultMessage finishedAt result) taskId status) :
    status = result.status := by
  cases result with
  | completed payload => exact h.2
  | failed payload => exact h.2
  | canceled payload => exact h.2

theorem mem_answersTo {result : PendingTerminalResult} {messages : List ServerMessage}
    {answer : PendingTerminalResult × JsString × BuildTaskStatus}
    (h : answer ∈ answersTo result messages) :
    answer.1 = result ∧ .resultAck answer.2.1 answer.2.2 ∈ messages := by
  obtain ⟨message, hmessage, hanswer⟩ := List.mem_filterMap.mp h
  split at hanswer
  · obtain rfl := Option.some.inj hanswer
    exact ⟨rfl, hmessage⟩
  · cases hanswer

/-- What answers a report has its status. -/
theorem Answered.report (h : Answered s) (result : PendingTerminalResult) (finishedAt : Time)
    (occasion : Occasion) (hsent : .result result ∈ s.agent.agent.sent) (server : Server)
    (hserver : server = (handleMessage env occasion agentId (resultMessage finishedAt result)).run
      s.server) :
    Answered
      { s with
        server
        answers := s.answers ++ answersTo result (server.sent.drop s.server.sent.length) } := by
  subst hserver
  obtain ⟨hends, hreplies⟩ := acknowledges_handleMessage env occasion agentId
    (resultMessage finishedAt result) s.server
  obtain ⟨replies, hgrown, hcommitted⟩ := hreplies h.canonical
  refine ⟨h.agreeing, (hends h.canonical).1, fun answered taskId status hmem => ?_⟩
  rw [hgrown, List.drop_left] at hmem
  rcases List.mem_append.mp hmem with hearlier | hanswer
  · exact h.answers answered taskId status hearlier
  · obtain ⟨rfl, hreply⟩ := mem_answersTo hanswer
    exact ⟨hsent, status_of_ackOf (hcommitted taskId status hreply).1⟩

theorem Answered.step (h : Answered s) (hstep : Step settings env agentId MaySettle s t) :
    Answered t := by
  cases hstep with
  | turn turn hawaits hmay hack =>
      have hagreeing : Agreeing s.agent.agent.sent (s.agent.after settings turn) :=
        h.agreeing.after hawaits hmay
      refine ⟨hagreeing.now, h.canonical, fun result taskId status hmem => ?_⟩
      obtain ⟨hsent, hstatus⟩ := h.answers result taskId status hmem
      exact ⟨hagreeing.past hsent, hstatus⟩
  | report result finishedAt occasion hsent ht =>
      exact h.report result finishedAt occasion hsent _ ht
  | message message occasion hmessage =>
      obtain ⟨hends, -⟩ := acknowledges_handleMessage env occasion agentId message s.server
      exact ⟨h.agreeing, (hends h.canonical).1, h.answers⟩
  | elsewhere hsent hdb => exact ⟨h.agreeing, (hdb.keepsEnds h.canonical).1, h.answers⟩

theorem answered_of_reachable (h : (runs settings env agentId MaySettle).Reachable s) :
    Answered s := by
  refine h.invariant (fun s hnew => ?_) fun _ _ _ hs hstep => hs.step hstep
  refine ⟨(AgentRuntime.agreeing_of_isNew hnew.agent).now, fun taskId task hrow => ?_,
    fun result taskId status hmem => ?_⟩
  · rw [hnew.tasks] at hrow
    cases hrow
  · rw [hnew.answers] at hmem
    exact absurd hmem List.not_mem_nil

/-- In such a run all reports of one lease are of one kind, and what the server answers to a report
for the active task makes the agent let go of the task. -/
theorem settled_reports (settings : Settings) (env : Environment) (agentId : Id) (s : System)
    (h : (runs settings env agentId MaySettle).Reachable s) :
    (∀ result result', .result result ∈ s.agent.agent.sent → .result result' ∈ s.agent.agent.sent →
      result.lease = result'.lease → result.status = result'.status) ∧
    ∀ result taskId status task turn payload, (result, taskId, status) ∈ s.answers →
      s.agent.agent.active = some task → result.lease = task.lease →
      turn.event = .resultAck payload → payload.status = status →
      payload.taskId = task.assignment.taskId → s.agent.after settings turn = s.agent.drop := by
  have hanswered := answered_of_reachable h
  refine ⟨hanswered.agreeing.uniform, ?_⟩
  intro result taskId status task turn payload hanswer htask hlease hevent hpayload hid
  obtain ⟨hsent, hstatus⟩ := hanswered.answers result taskId status hanswer
  obtain ⟨pending, hpending, hkind⟩ :=
    hanswered.agreeing.agrees task result htask hsent hlease
  refine dropped_of_result hevent htask hid.symm hpending ?_
  rw [hkind, hpayload, hstatus]

/-! A task whose preparation fails -/

/-- The task of the server, as the agent gets it. -/
def demoAssignment : AgentContracts.TaskAssignmentPayload :=
  { AgentRuntime.demoAssignment with
    taskId := "00000000-0000-4000-8000-000000000001".toList }

def demoResult : PendingTerminalResult :=
  .failed ⟨AgentRuntime.leaseOf demoAssignment, "GIT_CLONE_FAILED" ++ ": " ++ "clone failed", none⟩

def demoClaim : TaskOperations.TaskOperation :=
  .claim SlotSystem.demoRegistry 0 (fun _ => JsString.ofChars demoAssignment.leaseToken)
    SlotSystem.demoAgentId none

def connectTurn : AgentRuntime.Turn := AgentRuntime.quiet (.connection none)

def assignTurn : AgentRuntime.Turn := AgentRuntime.quiet (.assignment demoAssignment)

def failTurn : AgentRuntime.Turn := AgentRuntime.quiet (.preparation
  ⟨demoAssignment.taskId, .error ⟨"GIT_CLONE_FAILED", "clone failed", false⟩⟩)

/-- The agent when it has reported the failure. -/
def failedAgent : Process :=
  [connectTurn, assignTurn, failTurn].foldl (Process.after AgentRuntime.demoSettings)
    AgentRuntime.newProcess

def serverWith (db : Db) : Server :=
  { AgentIsolation.demoServer with db }

/-- The server when it has dispatched the task, when the agent has accepted it, and when the failure
has arrived. -/
def dispatchedServer : Server :=
  serverWith (demoRun [demoCreate, demoClaim])

def acceptedServer : Server :=
  (handleMessage SlotSystem.demoEnvironment AgentIsolation.demoOccasion SlotSystem.demoAgentId
    (.accepted SlotSystem.demoTaskId (JsString.ofChars demoAssignment.leaseToken))).run
      dispatchedServer

def failedServer : Server :=
  (handleMessage SlotSystem.demoEnvironment AgentIsolation.demoOccasion SlotSystem.demoAgentId
    (resultMessage 0 demoResult)).run acceptedServer

def failedSystem : System where
  agent := failedAgent
  server := failedServer
  answers := answersTo demoResult (failedServer.sent.drop acceptedServer.sent.length)

def ackTurn : AgentRuntime.Turn :=
  AgentRuntime.quiet (.resultAck ⟨demoAssignment.taskId, .failed, []⟩)

theorem sent_failedAgent : failedAgent.agent.sent = [.result demoResult] := by
  rfl

theorem reachable_failedSystem (allowed : Process → AgentRuntime.Turn → Prop)
    (hallowed : ∀ p turn, p.agent.sent = [] → allowed p turn) :
    (runs AgentRuntime.demoSettings SlotSystem.demoEnvironment SlotSystem.demoAgentId
      allowed).Reachable failedSystem := by
  have hcanonical : asciiLower SlotSystem.demoTaskId = SlotSystem.demoTaskId := by
    decide
  have hsent : .result demoResult ∈ failedAgent.agent.sent := by
    rw [sent_failedAgent]
    exact List.mem_singleton_self _
  have hinit : (runs AgentRuntime.demoSettings SlotSystem.demoEnvironment SlotSystem.demoAgentId
      allowed).Reachable ⟨AgentRuntime.newProcess, serverWith SlotSystem.demoDb, []⟩ :=
    .init ⟨AgentRuntime.isNew_newProcess, fun _ => rfl, rfl, rfl⟩
  have hconnected := hinit.step (.turn connectTurn (by decide) (hallowed _ _ rfl)
    fun _ hevent => by cases hevent)
  have hcreated := hconnected.step (.elsewhere (t := serverWith (demoRun [demoCreate])) rfl
    (.step (.operation demoCreate hcanonical trivial)))
  have hdispatched := hcreated.step (.elsewhere (t := dispatchedServer) rfl
    (.step (.operation demoClaim trivial trivial)))
  have hassigned := hdispatched.step (.turn assignTurn (by decide) (hallowed _ _ rfl)
    fun _ hevent => by cases hevent)
  have haccepted := hassigned.step (.message (.accepted SlotSystem.demoTaskId
    (JsString.ofChars demoAssignment.leaseToken)) AgentIsolation.demoOccasion rfl)
  have hfailed := haccepted.step (.turn failTurn (by decide) (hallowed _ _ rfl)
    fun _ hevent => by cases hevent)
  exact hfailed.step (.report demoResult 0 AgentIsolation.demoOccasion hsent rfl)

def acknowledges (taskId : JsString) (status : BuildTaskStatus) : ServerMessage → Bool
  | .resultAck id acknowledged => decide (id = taskId) && decide (acknowledged = status)
  | _ => false

theorem mem_of_acknowledges {taskId : JsString} {status : BuildTaskStatus}
    {messages : List ServerMessage} (h : messages.any (acknowledges taskId status) = true) :
    .resultAck taskId status ∈ messages := by
  obtain ⟨message, hmessage, hack⟩ := List.any_eq_true.mp h
  unfold acknowledges at hack
  split at hack
  · rw [Bool.and_eq_true, decide_eq_true_eq, decide_eq_true_eq] at hack
    obtain ⟨rfl, rfl⟩ := hack
    exact hmessage
  · cases hack

/-- The server has acknowledged the failure, and the agent lets go of its task when it learns of
it. -/
theorem acknowledged_failedSystem :
    Ended (asciiLower SlotSystem.demoTaskId) .failed failedSystem.server.db ∧
    ∀ task, failedSystem.agent.agent.active = some task → ∃ result,
      task.pendingResult = some result ∧ Ended (asciiLower (JsString.ofChars
        task.assignment.taskId)) result.status failedSystem.server.db := by
  have hsent : .resultAck SlotSystem.demoTaskId .failed ∈ failedSystem.server.sent :=
    mem_of_acknowledges (by decide +kernel)
  have hgone : (failedSystem.agent.after AgentRuntime.demoSettings ackTurn).agent.active.isNone =
      true := by
    decide
  obtain ⟨hended, hdrops⟩ := acknowledged_results AgentRuntime.demoSettings
    SlotSystem.demoEnvironment SlotSystem.demoAgentId failedSystem
    (reachable_failedSystem _ fun _ _ _ => trivial)
  refine ⟨(hended _ _ hsent).2, fun task htask => ?_⟩
  exact hdrops ackTurn _ task rfl hsent htask (Option.isNone_iff_eq_none.mp hgone)

/-- The acknowledgement of the failure is not rejected. -/
theorem settled_failedSystem :
    failedSystem.agent.after AgentRuntime.demoSettings ackTurn = failedSystem.agent.drop := by
  have hactive : failedSystem.agent.agent.active.any (fun task =>
      decide (task.lease = AgentRuntime.leaseOf demoAssignment)) = true := by
    decide
  have hanswer : .resultAck SlotSystem.demoTaskId .failed ∈
      failedServer.sent.drop acceptedServer.sent.length :=
    mem_of_acknowledges (by decide +kernel)
  obtain ⟨task, htask, hlease⟩ := (Option.any_eq_true _ _).mp hactive
  have hlease : task.lease = AgentRuntime.leaseOf demoAssignment := of_decide_eq_true hlease
  refine (settled_reports AgentRuntime.demoSettings SlotSystem.demoEnvironment
    SlotSystem.demoAgentId failedSystem (reachable_failedSystem _ fun p turn hsent => ?_)).2
    demoResult SlotSystem.demoTaskId .failed task ackTurn _ ?_ htask hlease.symm rfl rfl ?_
  · intro task status _ _ result hmem
    rw [hsent] at hmem
    exact absurd hmem List.not_mem_nil
  · exact List.mem_filterMap.mpr ⟨_, hanswer, rfl⟩
  · exact (congrArg AgentRuntime.Lease.taskId hlease).symm

end AnvilRun.TerminalAgreement
