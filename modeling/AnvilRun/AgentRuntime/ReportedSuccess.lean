import AnvilRun.AgentRuntime.Process
import AnvilRun.AgentRuntime.Outputs
import AnvilRun.Interruption.Invariants
import AnvilRun.UnicodeText

namespace AnvilRun.AgentRuntime

open AnvilRun.AgentContracts
open AnvilRun.AgentRedactor (Text SensitiveLogRedactor)
open AnvilRun.ArtifactScan (ArtifactManifest TaskArtifactManifestPayload Stamp
  encodeArtifactManifestMessage sendArtifactManifest)
open AnvilRun.Execution (ExecutionEvent ExecutionResult)
open AnvilRun.Interruptible

/-- The result of a command that succeeded. -/
def Succeeds (result : ExecutionResult) : Prop :=
  result.exitCode = some 0 ∧ result.timedOut = false ∧ result.outputFailed = false

instance (result : ExecutionResult) : Decidable (Succeeds result) :=
  inferInstanceAs (Decidable (_ ∧ _))

/-- Messages that only a successful command may lead to: the status `UPLOADING`, the manifest of
the artifacts, and the report that the task is completed. -/
def Message.ReportsSuccess (lease : Lease) : Message → Prop
  | .status l reported _ => l = lease ∧ reported = .uploading
  | .log _ _ => False
  | .artifactManifest message => ∃ (stamp : Stamp) (payload : TaskArtifactManifestPayload),
      message = encodeArtifactManifestMessage stamp payload ∧
        ⟨payload.taskId, payload.leaseToken⟩ = lease
  | .result (.completed payload) => payload.lease = lease
  | .result (.failed _) => False
  | .result (.canceled _) => False

/-- A command of the lease has succeeded. -/
def Process.Earned (p : Process) (lease : Lease) : Prop :=
  ∃ result, (lease, result) ∈ p.delivered ∧ Succeeds result

structure ReportsTruthfully (p : Process) : Prop where
  success : ∀ message ∈ p.agent.sent, ∀ lease, message.ReportsSuccess lease → p.Earned lease
  failure : ∀ lease result, (lease, result) ∈ p.delivered → ¬ Succeeds result →
    ∀ payload : TaskCompletedPayload, payload.lease = lease →
      ¬ Message.result (.completed payload) ∈ p.agent.sent

/-- The agent when it has taken notice of the end of a command. -/
def Agent.ended (s : Agent) : Agent :=
  { s with
    active := s.active.map fun task =>
      { task.finishRedactors with
        execution := false
        commandCompleted := true }
    executionReceiver := false }

/-- The last texts of the command go to the log. -/
def persistTails (host : Host) (answers : Answers) (s : Agent) : Act :=
  each (fun tail => persistAndSendLog host answers tail.1 tail.2)
    ((s.active.map ActiveTask.tails).getD [])

/-- A success that is delivered is that of the command of the active task, and behind a failure
the last texts of the command are persisted and sent without an error. -/
def DeliversWell (settings : Settings) (p : Process) (turn : Turn) : Prop :=
  ∀ result, turn.event = .execution (.finished result) →
    if Succeeds result then ∀ task, p.agent.active = some task → p.command = some task.lease
    else ∀ e t, persistTails settings.host turn.outside.toAnswers p.agent
      ⟨p.agent.ended, turn.faults⟩ ≠ (.error (.failed e), t)

/-! What is true of the task -/

/-- When a task owes a report to the server. -/
def Owing (completed : Bool) (pending : Option PendingTerminalResult) : Prop :=
  completed = true ∧ pending = none

/-- `due` says when the command of the task has to have succeeded. -/
structure SoundTask (p : Process) (due : Bool → Option PendingTerminalResult → Prop)
    (task : ActiveTask) : Prop where
  known : task.lease ∈ p.leases
  manifest : task.artifactManifest.isSome = true → p.Earned task.lease
  pending : ∀ result, task.pendingResult = some result → ∀ lease,
    (Message.result result).ReportsSuccess lease → p.Earned lease
  earned : due task.commandCompleted task.pendingResult → p.Earned task.lease
  undelivered : task.preparation = true ∨ task.commandCompleted = false →
    ∀ result, (task.lease, result) ∉ p.delivered

structure Sound (p : Process) (due : Bool → Option PendingTerminalResult → Prop) (s : Agent) :
    Prop where
  sent : ∀ message ∈ s.sent, ∀ lease, message.ReportsSuccess lease → p.Earned lease
  task : ∀ task, s.active = some task → SoundTask p due task
  listening : s.executionReceiver = true → ∃ lease, p.command = some lease ∧ lease ∈ p.leases ∧
    ∀ result, (lease, result) ∉ p.delivered
  running : ∀ task, s.active = some task → s.executionReceiver = true →
    p.command = some task.lease → task.preparation = false

structure Truthful (p : Process) : Prop where
  sound : Sound p Owing p.agent
  unique : ∀ lease result result', (lease, result) ∈ p.delivered →
    (lease, result') ∈ p.delivered → result = result'
  known : ∀ lease result, (lease, result) ∈ p.delivered → lease ∈ p.leases

/-- A change of the task in what its reports do not depend on. -/
structure Calm (task task' : ActiveTask) : Prop where
  assignment_eq : task'.assignment = task.assignment
  manifest_eq : task'.artifactManifest = task.artifactManifest
  pending_eq : task'.pendingResult = task.pendingResult
  completed_eq : task'.commandCompleted = task.commandCompleted
  preparation : task'.preparation = true → task.preparation = true

variable {settings : Settings} {host : Host} {answers : Answers} {outside : Surroundings}
  {p q : Process} {due due' : Bool → Option PendingTerminalResult → Prop} {s t : Agent}
  {task : ActiveTask} {lease : Lease} {message : Message}

/-! Each handler of the task -/

theorem Calm.lease_eq {task' : ActiveTask} (h : Calm task task') : task'.lease = task.lease := by
  rw [ActiveTask.lease, h.assignment_eq]
  rfl

theorem Sound.weaken (h : Sound p due s)
    (hdue : ∀ completed pending, due' completed pending → due completed pending) :
    Sound p due' s :=
  { h with
    task := fun task htask =>
      { h.task task htask with earned := fun hd => (h.task task htask).earned (hdue _ _ hd) } }

theorem SoundTask.congr {task' : ActiveTask} (h : SoundTask p due task) (hcalm : Calm task task') :
    SoundTask p due task' := by
  have hlease := hcalm.lease_eq
  constructor
  · rw [hlease]
    exact h.known
  · rw [hcalm.manifest_eq, hlease]
    exact h.manifest
  · rw [hcalm.pending_eq]
    exact h.pending
  · rw [hcalm.completed_eq, hcalm.pending_eq, hlease]
    exact h.earned
  · rw [hcalm.completed_eq, hlease]
    exact fun hnew => h.undelivered (hnew.imp_left hcalm.preparation)

theorem Sound.modify {g : ActiveTask → ActiveTask} (h : Sound p due s)
    (hg : ∀ task, s.active = some task → SoundTask p due' (g task))
    (hrunning : ∀ task, s.active = some task →
      (g task).lease = task.lease ∧ ((g task).preparation = true → task.preparation = true)) :
    Sound p due' { s with active := s.active.map g } := by
  constructor
  · exact h.sent
  · intro task htask
    obtain ⟨old, hold, rfl⟩ := Option.map_eq_some_iff.mp htask
    exact hg old hold
  · exact h.listening
  · intro task htask hreceiver hcommand
    obtain ⟨old, hold, rfl⟩ := Option.map_eq_some_iff.mp htask
    rw [(hrunning old hold).1] at hcommand
    have hidle := h.running old hold hreceiver hcommand
    rw [← Bool.not_eq_true] at hidle ⊢
    exact fun hnew => hidle ((hrunning old hold).2 hnew)

theorem Sound.push (h : Sound p due s)
    (hmessage : ∀ lease, message.ReportsSuccess lease → p.Earned lease) :
    Sound p due (s.push message) := by
  refine { h with sent := fun m hm => ?_ }
  rcases List.mem_append.mp hm with hm | hm
  · exact h.sent m hm
  · obtain rfl := List.mem_singleton.mp hm
    exact hmessage

theorem Sound.silence (h : Sound p due s) : Sound p due { s with executionReceiver := false } :=
  { h with
    listening := fun hreceiver => Bool.noConfusion hreceiver
    running := fun _ _ hreceiver => Bool.noConfusion hreceiver }

theorem stays_withActive {P : Agent → Prop} {f : ActiveTask → Act} (h : P s)
    (hf : ∀ task, s.active = some task → Stays P (f task) s) : Stays P (withActive f) s :=
  stays_get_bind (stays_ifSome hf h)

theorem stays_send_of {P : Agent → Prop} (h : P s) (hpush : P (s.push message)) :
    Stays P (send message) s := by
  have hreached : ∀ reached : Nat, P (if reached = 0 then s else s.push message) := by
    intro reached
    split
    · exact h
    · exact hpush
  exact ends_call hpush hreached hreached

theorem stays_send (h : Sound p due s)
    (hmessage : ∀ lease, message.ReportsSuccess lease → p.Earned lease) :
    Stays (Sound p due) (send message) s :=
  stays_send_of h (h.push hmessage)

theorem stays_sendLog (h : Sound p due s) (lease : Lease) (entry : BufferedLogEntry) :
    Stays (Sound p due) (sendLogBestEffort (.log lease entry)) s := by
  have hsend : ∀ t, Sound p due t → Stays (Sound p due) (send (.log lease entry)) t :=
    fun t ht => stays_send ht fun _ hfalse => hfalse.elim
  refine Stays.bind (stays_elapses h) fun late t ht => ?_
  split
  · exact Stays.recover (hsend t ht) fun _ u hu => stays_pure hu
  · exact hsend t ht

theorem Sound.calm {g : ActiveTask → ActiveTask} (h : Sound p due s)
    (hg : ∀ task, Calm task (g task)) : Sound p due { s with active := s.active.map g } :=
  h.modify (fun task htask => (h.task task htask).congr (hg task)) fun task _ =>
    ⟨(hg task).lease_eq, (hg task).preparation⟩

theorem stays_calm {g : ActiveTask → ActiveTask} (h : Sound p due s)
    (hg : ∀ task, Calm task (g task)) : Stays (Sound p due) (modifyTask g) s :=
  stays_modify (h.calm hg)

theorem stays_persistAndSendLog (h : Sound p due s) (stream : LogStream) (chunk : Text) :
    Stays (Sound p due) (persistAndSendLog host answers stream chunk) s := by
  refine stays_withActive h fun task _ => stays_modify_bind ?_
  have hemit : Sound p due (s.emit (task.entry answers stream chunk)) := { h with }
  refine Stays.bind ?_ fun appended t ht => ?_
  · exact stays_zoom_any fun logs => hemit.calm fun _ => ⟨rfl, rfl, rfl, rfl, id⟩
  · exact stays_onlyIf (fun _ => stays_sendLog ht _ _) ht

theorem calm_setRedactor (task : ActiveTask) (stream : LogStream)
    (redactor : SensitiveLogRedactor) : Calm task (task.setRedactor stream redactor) := by
  cases stream with
  | stdout => exact ⟨rfl, rfl, rfl, rfl, id⟩
  | stderr => exact ⟨rfl, rfl, rfl, rfl, id⟩

theorem stays_persistExecutionOutput (h : Sound p due s) (stream : LogStream) (chunk : Text) :
    Stays (Sound p due) (persistExecutionOutput host answers stream chunk) s := by
  refine stays_withActive h fun task _ => ?_
  refine Stays.bind ?_ fun _ t ht => ?_
  · exact stays_calm h fun task => calm_setRedactor task stream _
  · exact stays_onlyIf (fun _ => stays_persistAndSendLog ht stream _) ht

theorem stays_flushLogTails (h : Sound p due s) :
    Stays (Sound p due) (flushLogTails host answers) s := by
  refine stays_withActive h fun task _ => ?_
  refine Stays.bind (stays_calm h fun _ => ⟨rfl, rfl, rfl, rfl, id⟩) fun _ t ht => ?_
  exact stays_each (fun tail u hu => stays_persistExecutionOutput hu tail.1 tail.2) ht

/-- A report that is no success settles what the task still owes. -/
theorem stays_report {result : ActiveTask → PendingTerminalResult} (h : Sound p due s)
    (hresult : ∀ task lease, ¬ (Message.result (result task)).ReportsSuccess lease) :
    Stays (Sound p Owing) (withActive fun task => do
      modifyTask fun task => { task with pendingResult := some (result task) }
      send (.result (result task))) s := by
  cases hactive : s.active with
  | none =>
      refine stays_get_bind ?_
      rw [hactive]
      exact stays_pure { h with task := fun task htask => by rw [hactive] at htask; cases htask }
  | some task =>
      refine stays_get_bind ?_
      rw [hactive]
      refine stays_modify_bind (stays_send (h.modify (fun task htask => ?_) fun _ _ => ⟨rfl, id⟩)
        fun lease hlease => (hresult task lease hlease).elim)
      refine { h.task task htask with pending := ?_, earned := ?_ }
      · intro r hr lease hlease
        obtain rfl := Option.some.inj hr
        exact (hresult task lease hlease).elim
      · rintro ⟨-, hnone⟩
        cases hnone

theorem stays_failActiveTask (h : Sound p due s) (reason : String) (exitCode : Option Int) :
    Stays (Sound p Owing) (failActiveTask reason exitCode) s :=
  stays_report h fun _ _ hfalse => hfalse

theorem stays_confirmCancellation (h : Sound p due s) :
    Stays (Sound p Owing) confirmCancellation s :=
  stays_report h fun _ _ hfalse => hfalse

theorem stays_stopExecution (h : Sound p due s) :
    Stays (Sound p due) (stopExecution host answers) s := by
  have hend : ∀ t, Sound p due t → Stays (Sound p due) (do
      modify fun s => { s with executionReceiver := false }
      modifyTask fun task => { task with execution := false } : Act) t :=
    fun t ht => stays_modify_bind (stays_calm ht.silence fun _ => ⟨rfl, rfl, rfl, rfl, id⟩)
  refine stays_get_bind (Stays.bind (stays_onlyIf (fun _ => ?_) h) fun _ t ht => hend t ht)
  refine Stays.bind (Stays.recover ?_ fun _ u hu => stays_pure hu) fun _ t ht => ?_
  · exact stays_each (fun output u hu => stays_persistExecutionOutput hu output.1 output.2) h
  · exact stays_onlyIf (fun _ => stays_calm ht fun _ => ⟨rfl, rfl, rfl, rfl, id⟩) ht

theorem stays_handleTaskCancel (h : Sound p Owing s) (cancel : TaskCancelPayload) :
    Stays (Sound p Owing) (handleTaskCancel host answers cancel) s := by
  refine stays_withActive h fun task _ => ?_
  split
  · exact stays_pure h
  · refine Stays.bind (stays_calm h fun _ => ⟨rfl, rfl, rfl, rfl, fun hnew => by cases hnew⟩)
      fun _ t ht => ?_
    split
    · exact stays_failActiveTask ht _ _
    · refine Stays.bind (stays_calm ht fun _ => ⟨rfl, rfl, rfl, rfl, id⟩) fun _ u hu => ?_
      refine Stays.bind (stays_stopExecution hu) fun _ u hu => ?_
      refine Stays.bind (stays_flushLogTails hu) fun _ u hu => ?_
      split
      · exact stays_failActiveTask hu _ _
      · exact stays_confirmCancellation hu

theorem encodeArtifactManifestMessage_inj {stamp stamp' : Stamp}
    {payload payload' : TaskArtifactManifestPayload}
    (h : encodeArtifactManifestMessage stamp payload =
      encodeArtifactManifestMessage stamp' payload') :
    payload.taskId = payload'.taskId ∧ payload.leaseToken = payload'.leaseToken := by
  simp only [encodeArtifactManifestMessage, ArtifactScan.payloadJson, ArtifactScan.jsonString,
    Json.object.injEq, List.cons.injEq, Prod.mk.injEq, Json.string.injEq,
    JsString.ofChars_injective.eq_iff, true_and, and_true] at h
  exact ⟨h.2.2.2.2.2.1, h.2.2.2.2.1⟩

theorem eq_lease_of_sent {toText : Json → List UInt8} {stamp : Stamp} {manifest : ArtifactManifest}
    {json : Json} (h : sendArtifactManifest toText stamp task.assignment manifest = .sent json)
    (hlease : (Message.artifactManifest json).ReportsSuccess lease) : lease = task.lease := by
  rw [sendArtifactManifest] at h
  split at h
  · cases h
  · obtain rfl := ArtifactScan.ManifestOutcome.sent.inj h
    obtain ⟨stamp', payload, heq, rfl⟩ := hlease
    obtain ⟨hid, htoken⟩ := encodeArtifactManifestMessage_inj heq
    rw [← hid, ← htoken]
    rfl

theorem stays_sendManifest (h : Sound p Owing s) :
    Stays (Sound p Owing) (sendManifest host answers) s := by
  refine stays_withActive h fun task htask => ?_
  split
  · exact stays_fail h
  · rename_i manifest hmanifest
    split
    · exact stays_failActiveTask h _ _
    · rename_i json hsent
      refine stays_send h fun lease hlease => ?_
      rw [eq_lease_of_sent hsent hlease]
      exact (h.task task htask).manifest (by rw [hmanifest]; rfl)

theorem Sound.setManifest (h : Sound p due s) (manifest : ArtifactManifest)
    (hearned : ∀ task, s.active = some task → p.Earned task.lease) :
    Sound p due { s with
      active := s.active.map fun task => { task with artifactManifest := some manifest } } := by
  refine h.modify (fun task htask => ?_) fun _ _ => ⟨rfl, id⟩
  exact { h.task task htask with manifest := fun _ => hearned task htask }

theorem stays_reportArtifacts (h : Sound p Owing s)
    (hearned : ∀ task, s.active = some task → p.Earned task.lease) :
    Stays (Sound p Owing) (reportArtifacts host answers) s := by
  refine stays_withActive h fun task htask => ?_
  split
  · exact stays_fail h
  · split
    · exact stays_failActiveTask h _ _
    · rename_i manifest hscanned
      refine Stays.bind (stays_modify (h.setManifest manifest hearned)) fun _ t ht => ?_
      split
      · exact stays_failActiveTask ht _ _
      · rename_i json hsent
        refine stays_send ht fun lease hlease => ?_
        rw [eq_lease_of_sent hsent hlease]
        exact hearned task htask

theorem stays_resumeArtifacts (h : Sound p Owing s)
    (hearned : ∀ task, s.active = some task → p.Earned task.lease) (task : ActiveTask) :
    Stays (Sound p Owing) (resumeArtifacts host answers task) s := by
  rw [resumeArtifacts]
  split
  · exact stays_sendManifest h
  · split
    · exact stays_fail h
    · split
      · exact stays_failActiveTask h _ _
      · rename_i manifest hscanned
        refine Stays.bind (stays_modify (h.setManifest manifest hearned)) fun _ t ht => ?_
        exact stays_sendManifest ht

theorem stays_handleArtifactManifestAck (h : Sound p Owing s)
    (payload : TaskArtifactManifestAckPayload) :
    Stays (Sound p Owing) (handleArtifactManifestAck payload) s := by
  refine stays_withActive h fun task _ => ?_
  split
  · exact stays_fail h
  · split
    · exact stays_fail h
    · split
      · exact stays_failActiveTask h _ _
      · exact stays_calm h fun _ => ⟨rfl, rfl, rfl, rfl, id⟩

theorem stays_handleArtifactUploadResult (h : Sound p Owing s) (result : Except UploadError Unit) :
    Stays (Sound p Owing) (handleArtifactUploadResult result) s := by
  refine stays_withActive h fun task htask => ?_
  refine Stays.bind (stays_calm h fun _ => ⟨rfl, rfl, rfl, rfl, id⟩) fun _ t ht => ?_
  split
  · exact stays_failActiveTask ht _ _
  · split
    · exact stays_fail ht
    · rename_i manifest hmanifest
      have hearned : p.Earned task.lease :=
        (h.task task htask).manifest (by rw [hmanifest]; rfl)
      refine Stays.bind (stays_modify (ht.modify (fun current hcurrent => ?_) fun _ _ => ⟨rfl, id⟩))
        fun _ u hu => ?_
      · refine { ht.task current hcurrent with pending := ?_, earned := ?_ }
        · intro r hr lease hlease
          obtain rfl := Option.some.inj hr
          obtain rfl : task.lease = lease := hlease
          exact hearned
        · rintro ⟨-, hnone⟩
          cases hnone
      · refine stays_send hu fun lease hlease => ?_
        obtain rfl : task.lease = lease := hlease
        exact hearned

theorem stays_acknowledgeLogs (h : Sound p Owing s) (task : ActiveTask) (sequence : Nat) :
    Stays (Sound p Owing) (acknowledgeLogs host task sequence) s :=
  stays_zoom_any fun _ => h.calm fun _ => ⟨rfl, rfl, rfl, rfl, id⟩

theorem stays_handleLogAck (h : Sound p Owing s) (payload : TaskLogAckPayload) :
    Stays (Sound p Owing) (handleLogAck host payload) s :=
  stays_withActive h fun task _ =>
    stays_onlyIf (fun _ => stays_acknowledgeLogs h task payload.acknowledgedSequence) h

theorem stays_handleTaskInput (h : Sound p Owing s) (sensitive : Option Text) :
    Stays (Sound p Owing) (handleTaskInput sensitive) s := by
  refine stays_withActive h fun task _ => ?_
  refine Stays.bind (stays_ifSome (fun value _ => ?_) h) fun _ t ht => stays_inspect ht
  exact stays_calm h fun _ => ⟨rfl, rfl, rfl, rfl, id⟩

theorem stays_replayLines (h : Sound p Owing s) (task : ActiveTask) (lines : List (List UInt8)) :
    Stays (Sound p Owing) (replayLines host task lines) s := by
  induction lines generalizing s with
  | nil => exact stays_inspect h
  | cons line lines ih =>
      refine Stays.bind (stays_inspect h) fun _ t ht => ?_
      split
      · exact stays_fail ht
      · split
        · exact stays_fail ht
        · refine Stays.bind (stays_onlyIf (fun _ => ?_) ht) fun _ u hu => ih hu
          exact stays_send ht fun _ hfalse => hfalse.elim

theorem stays_replayActiveLogs (h : Sound p Owing s) :
    Stays (Sound p Owing) (replayActiveLogs host) s :=
  stays_withActive h fun task _ =>
    Stays.bind (stays_inspect h) fun _ _ ht => stays_replayLines ht task _

theorem stays_resendPendingResult (h : Sound p Owing s) :
    Stays (Sound p Owing) resendPendingResult s := by
  refine stays_withActive h fun task htask => stays_ifSome (fun result hresult => ?_) h
  exact stays_send h ((h.task task htask).pending result hresult)

/-! The process -/

theorem Sound.congr (h : Sound p due s) (hdelivered : q.delivered = p.delivered)
    (hleases : q.leases = p.leases) (hcommand : q.command = p.command) : Sound q due s := by
  have hearned : ∀ lease, q.Earned lease ↔ p.Earned lease := by
    intro lease
    rw [Process.Earned, Process.Earned, hdelivered]
  constructor
  · intro message hm lease hlease
    exact (hearned lease).mpr (h.sent message hm lease hlease)
  · intro task htask
    have htask := h.task task htask
    constructor
    · rw [hleases]
      exact htask.known
    · exact fun hm => (hearned _).mpr (htask.manifest hm)
    · exact fun r hr lease hlease => (hearned _).mpr (htask.pending r hr lease hlease)
    · exact fun hdue => (hearned _).mpr (htask.earned hdue)
    · rw [hdelivered]
      exact htask.undelivered
  · rw [hcommand, hleases, hdelivered]
    exact h.listening
  · rw [hcommand]
    exact h.running

theorem Truthful.congr (h : Truthful p) (hsound : Sound p Owing q.agent)
    (hdelivered : q.delivered = p.delivered) (hleases : q.leases = p.leases)
    (hcommand : q.command = p.command) : Truthful q := by
  refine ⟨hsound.congr hdelivered hleases hcommand, ?_, ?_⟩
  · rw [hdelivered]
    exact h.unique
  · rw [hdelivered, hleases]
    exact h.known

theorem stays_onAgent {action : Act} (h : Truthful p)
    (haction : Stays (Sound p Owing) action p.agent) : Stays Truthful (onAgent action) p :=
  stays_zoom haction fun _ hs => h.congr hs rfl rfl rfl

theorem stays_withTask {P : Process → Prop} {f : ActiveTask → Routine Unit} (h : P p)
    (hf : ∀ task, p.agent.active = some task → Stays P (f task) p) : Stays P (withTask f) p :=
  stays_get_bind (stays_ifSome hf h)

theorem Truthful.modifySource (h : Truthful p) (f : SourceSteps → SourceSteps) :
    Truthful { p with source := f p.source } :=
  h.congr h.sound rfl rfl rfl

theorem Sound.inactive (h : Sound p due s) : Sound p due' { s with active := none } :=
  { h with
    task := fun _ htask => by cases htask
    running := fun _ htask => by cases htask }

theorem Truthful.drop (h : Truthful p) : Truthful p.drop :=
  h.congr h.sound.inactive rfl rfl rfl

theorem Truthful.abandon (h : Truthful p) : Truthful p.abandon :=
  h.congr h.sound.inactive.silence rfl rfl rfl

theorem Truthful.disconnect (h : Truthful p) : Truthful p.disconnect :=
  h.congr h.sound rfl rfl rfl

theorem Truthful.restart (h : Truthful p) : Truthful p.restart :=
  h.abandon.disconnect

/-- A task whose command may be started: no result of it has been delivered yet. -/
def Startable (p : Process) (s : Agent) : Prop :=
  ∀ task, s.active = some task →
    task.preparation = false ∧ ∀ result, (task.lease, result) ∉ p.delivered

theorem Truthful.start (h : Truthful p) (hactive : p.agent.active = some task)
    (hstart : Startable p p.agent) : Truthful (p.start task.lease) := by
  obtain ⟨hidle, hnone⟩ := hstart task hactive
  have hknown := (h.sound.task task hactive).known
  have hcalm : Sound p Owing { p.agent with active := p.agent.active.map fun task =>
      { task with
        execution := true
        executionCancel := true
        executionInput := task.assignment.interactiveInputEnabled } } :=
    h.sound.calm fun _ => ⟨rfl, rfl, rfl, rfl, id⟩
  refine ⟨?_, h.unique, h.known⟩
  refine ⟨hcalm.sent, ?_, fun _ => ⟨task.lease, rfl, hknown, hnone⟩, ?_⟩
  · exact fun current hcurrent => { hcalm.task current hcurrent with }
  · intro current hcurrent _ _
    obtain ⟨old, hold, rfl⟩ := Option.map_eq_some_iff.mp hcurrent
    rw [hactive] at hold
    obtain rfl := Option.some.inj hold
    exact hidle

theorem stays_startOrFail (h : Truthful p) (hstart : Startable p p.agent) :
    Stays Truthful (startOrFail settings outside) p := by
  refine Stays.recover (stays_get_bind ?_) fun e q hq =>
    stays_onAgent hq (stays_failActiveTask hq.sound _ _)
  split
  · exact stays_fail h
  · rename_i task hactive
    split
    · exact stays_fail h
    · have hstarted := h.start hactive hstart
      exact stays_modify_bind (stays_onAgent hstarted (stays_send hstarted.sound fun _ hlease => by
        cases hlease.2))

theorem stays_prepareSource (h : Truthful p) (hstart : Startable p p.agent) (remembers : Bool) :
    Stays Truthful (prepareSource settings outside remembers) p := by
  refine stays_get_bind ?_
  split
  · exact stays_onAgent h (stays_failActiveTask h.sound _ _)
  · have h := h.modifySource fun source =>
      { source with artifactCleaned := source.artifactCleaned || remembers }
    refine stays_modify_bind ?_
    split
    · exact stays_onAgent h (stays_failActiveTask h.sound _ _)
    · have h := h.modifySource fun source => { source with inputFilesDownloaded := true }
      refine stays_modify_bind ?_
      split
      · exact stays_onAgent h (stays_failActiveTask h.sound _ _)
      · have h := h.modifySource fun source => { source with configWritten := true }
        exact stays_modify_bind (stays_startOrFail h hstart)

theorem Startable.map {g : ActiveTask → ActiveTask} (h : Startable p s)
    (hlease : ∀ task, (g task).lease = task.lease)
    (hpreparation : ∀ task, (g task).preparation = task.preparation) :
    Startable p { s with active := s.active.map g } := by
  intro task htask
  obtain ⟨old, hold, rfl⟩ := Option.map_eq_some_iff.mp htask
  rw [hlease, hpreparation]
  exact h old hold

theorem stays_handlePrepared (h : Truthful p) (hstart : Startable p p.agent) (task : ActiveTask)
    (result : Except PreparationFailure PreparationResult) :
    Stays Truthful (handlePrepared settings outside task result) p := by
  cases result with
  | error failure =>
      refine stays_onAgent h (Stays.bind ?_ fun _ t ht => stays_failActiveTask ht _ _)
      exact stays_calm h.sound fun _ => ⟨rfl, rfl, rfl, rfl, id⟩
  | ok result =>
      rw [handlePrepared]
      split
      · exact stays_fail h
      · split
        · exact stays_onAgent h (stays_failActiveTask h.sound _ _)
        · refine ends_bind (Ends.imp (stays_zoom (p := fun q => Truthful q ∧ Startable q q.agent)
            (q := fun s => Sound p Owing s ∧ Startable p s) ?_ fun s hs => ?_) ?_ ?_ ?_)
          · refine Stays.bind (stays_modify ?_) fun _ t ht => stays_send_of ht ?_
            · exact ⟨h.sound.calm fun _ => ⟨rfl, rfl, rfl, rfl, id⟩,
                hstart.map (fun _ => rfl) fun _ => rfl⟩
            · refine ⟨ht.1.push fun lease hlease => ?_, ht.2⟩
              cases hlease.2
          · exact ⟨h.congr hs.1 rfl rfl rfl, hs.2⟩
          · exact fun _ q hq => stays_prepareSource hq.1 hq.2 true
          · exact fun _ _ hq => hq.1
          · exact fun _ hq => hq.1

theorem stays_handlePreparationEvent (h : Truthful p)
    (hpreparing : p.agent.active.any ActiveTask.preparation = true) (event : PreparationEvent) :
    Stays Truthful (handlePreparationEvent settings outside event) p := by
  refine stays_withTask h fun task hactive => stays_onlyIf (fun _ => ?_) h
  have hpreparation : task.preparation = true := by
    rwa [hactive] at hpreparing
  have hnone := (h.sound.task task hactive).undelivered (Or.inl hpreparation)
  have hcalm := h.sound.calm (g := fun task => { task with preparation := false })
    fun _ => ⟨rfl, rfl, rfl, rfl, fun hnew => by cases hnew⟩
  refine ends_bind (ends_zoom (ends_modify ?_))
  refine stays_handlePrepared (h.congr (q := p.setAgent _) hcalm rfl rfl rfl)
    (fun current hcurrent => ?_) task event.result
  obtain ⟨old, hold, rfl⟩ := Option.map_eq_some_iff.mp hcurrent
  rw [hactive] at hold
  obtain rfl := Option.some.inj hold
  exact ⟨rfl, hnone⟩

theorem stays_handleResultAck (h : Truthful p) (payload : TaskResultAckPayload) :
    Stays Truthful (handleResultAck payload) p := by
  refine stays_withTask h fun task _ => ?_
  split
  · exact stays_fail h
  · refine stays_ifSome (fun result _ => ?_) h
    split
    · exact stays_fail h
    · exact stays_modify h.drop

theorem stays_waitForRecovery (h : Truthful p) (message : Option TaskRecoveryPayload)
    (task : ActiveTask) : Stays Truthful (waitForRecovery settings outside message task) p := by
  cases message with
  | none => exact stays_fail h
  | some payload =>
      rw [waitForRecovery]
      split
      · exact stays_fail h
      · split
        · exact stays_modify_bind (stays_pure h.abandon)
        · exact stays_fail h
        · split
          · exact stays_fail h
          · refine Stays.bind ?_ fun _ q hq => stays_pure hq
            exact stays_onAgent h (stays_acknowledgeLogs h.sound task _)
        · exact stays_fail h
        · split
          · exact stays_fail h
          · refine Stays.bind (stays_onAgent h (Stays.bind ?_ ?_)) fun _ q hq => stays_pure hq
            · exact stays_acknowledgeLogs h.sound task _
            · exact fun _ t ht => stays_handleTaskCancel ht _

theorem stays_resumeActiveTask (h : Truthful p) (status : Option BuildTaskStatus) :
    Stays Truthful (resumeActiveTask settings outside status) p := by
  refine stays_withTask h fun task hactive => stays_onlyIf (fun hpending => ?_) h
  have htask := h.sound.task task hactive
  have hunique : ∀ current, p.agent.active = some current → current = task := by
    intro current hcurrent
    rw [hactive] at hcurrent
    exact (Option.some.inj hcurrent).symm
  split
  · rename_i hcompleted
    have hearned := htask.earned ⟨hcompleted, Option.isNone_iff_eq_none.mp hpending⟩
    refine stays_onlyIf (fun _ => stays_onAgent h ?_) h
    have hsent : Stays (fun s => Sound p Owing s ∧ s.active = p.agent.active)
        (Effect.onlyIf (status ≠ some .uploading)
          (send (.status task.lease .uploading task.sourceCommit))) p.agent := by
      refine stays_onlyIf (fun _ => stays_send_of ⟨h.sound, rfl⟩ ⟨h.sound.push ?_, rfl⟩)
        ⟨h.sound, rfl⟩
      rintro lease ⟨rfl, -⟩
      exact hearned
    refine ends_bind (hsent.imp (fun _ t ht => ?_) (fun _ _ ht => ht.1) fun _ ht => ht.1)
    refine stays_resumeArtifacts ht.1 (fun current hcurrent => ?_) task
    rw [ht.2] at hcurrent
    rw [hunique current hcurrent]
    exact hearned
  · rename_i hcompleted
    rw [Bool.not_eq_true] at hcompleted
    refine stays_onlyIf (fun hready => stays_get_bind ?_) h
    have hstart : Startable p p.agent := by
      intro current hcurrent
      rw [hunique current hcurrent]
      refine ⟨?_, htask.undelivered (Or.inr hcompleted)⟩
      simp only [readyToStart, Bool.and_eq_true, Bool.not_eq_true'] at hready
      exact hready.1.1.1.2
    split
    · exact stays_startOrFail h hstart
    · exact stays_prepareSource h hstart false

theorem stays_connectOnce (h : Truthful p) (message : Option TaskRecoveryPayload) :
    Stays Truthful (connectOnce settings outside message) p := by
  refine Stays.bind (stays_withTask h fun task _ => ?_) fun _ q hq => ?_
  · refine Stays.bind (stays_waitForRecovery h message task) fun status q hq => ?_
    exact stays_resumeActiveTask hq status
  · refine Stays.bind (stays_onAgent hq (Stays.bind (stays_replayActiveLogs hq.sound) ?_))
      fun _ q hq => ?_
    · exact fun _ t ht => stays_resendPendingResult ht
    · exact stays_modify (hq.congr hq.sound rfl rfl rfl)

theorem Truthful.take (settings : Settings) {assignment : TaskAssignmentPayload} (h : Truthful p)
    (hfresh : leaseOf assignment ∉ p.leases) (logs : LogBuffer.Host) :
    Truthful (p.take (newTask settings assignment logs)) := by
  have hmem : ∀ {lease : Lease}, lease ∈ p.leases → lease ∈ p.leases ++ [leaseOf assignment] :=
    fun hlease => List.mem_append_left _ hlease
  refine ⟨⟨h.sound.sent, ?_, ?_, ?_⟩, h.unique, fun lease result hd => hmem (h.known _ _ hd)⟩
  · intro task htask
    obtain rfl := Option.some.inj htask
    refine ⟨List.mem_append_right _ (List.mem_singleton_self _), ?_, ?_, ?_, ?_⟩
    · exact fun hsome => Bool.noConfusion hsome
    · exact fun result hresult => by cases hresult
    · exact fun howing => Bool.noConfusion howing.1
    · exact fun _ result hd => hfresh (h.known _ _ hd)
  · intro hreceiver
    obtain ⟨lease, hcommand, hknown, hnone⟩ := h.sound.listening hreceiver
    exact ⟨lease, hcommand, hmem hknown, hnone⟩
  · exact fun task htask _ _ => by
      obtain rfl := Option.some.inj htask
      rfl

theorem stays_handleAssignment {assignment : TaskAssignmentPayload} (h : Truthful p)
    (hfresh : leaseOf assignment ∉ p.leases) :
    Stays Truthful (handleAssignment settings outside assignment) p := by
  rw [handleAssignment]
  split
  · exact stays_fail h
  · refine stays_get_bind (stays_onlyIf (fun _ => ?_) h)
    have hopened : Stays (fun q => Truthful q ∧ q.leases = p.leases)
        (openLogBuffer settings assignment.taskId) p :=
      stays_zoom_any fun _ => ⟨h.congr h.sound rfl rfl rfl, rfl⟩
    refine ends_bind (hopened.imp (fun logs q hq => ?_) (fun _ _ hq => hq.1) fun _ hq => hq.1)
    have htaken := hq.1.take settings (by rw [hq.2]; exact hfresh) logs
    refine stays_modify_bind (ends_bind (ends_recover (ends_inspect ?_ ?_ htaken)))
    · refine stays_onAgent htaken (stays_modify { htaken.sound with task := ?_, running := ?_ })
      · intro task htask
        obtain rfl := Option.some.inj htask
        have hnew := htaken.sound.task _ rfl
        exact { hnew with undelivered := fun _ => hnew.undelivered (Or.inr rfl) }
      · intro task htask hreceiver hcommand
        obtain rfl := Option.some.inj htask
        obtain ⟨lease, hlease, hknown, -⟩ := hq.1.sound.listening hreceiver
        obtain rfl := Option.some.inj (hlease.symm.trans hcommand)
        rw [hq.2] at hknown
        exact absurd hknown hfresh
    · exact ends_bind (ends_modify (ends_fail htaken.drop))

/-! The end of a command -/

theorem Process.Earned.deliver (h : p.Earned lease) (event : ExecutionEvent) :
    (p.deliver event).Earned lease := by
  obtain ⟨result, hd, hsucceeds⟩ := h
  cases event with
  | output stream chunk => exact ⟨result, hd, hsucceeds⟩
  | finished _ => exact ⟨result, List.mem_append_left _ hd, hsucceeds⟩

/-- The end of the command that was started last. -/
theorem Truthful.ended (h : Truthful p) (hreceiver : p.agent.executionReceiver = true)
    (result : ExecutionResult) (due : Bool → Option PendingTerminalResult → Prop)
    (hdue : ∀ task, p.agent.active = some task → due true task.pendingResult →
      (p.deliver (.finished result)).Earned task.lease) :
    Sound (p.deliver (.finished result)) due p.agent.ended ∧
      ∀ s, Sound (p.deliver (.finished result)) Owing s →
        Truthful ((p.deliver (.finished result)).setAgent s) := by
  obtain ⟨lease, hcommand, hknown, hnone⟩ := h.sound.listening hreceiver
  have hdelivered : (p.deliver (.finished result)).delivered =
      p.delivered ++ [(lease, result)] := by
    rw [Process.deliver, hcommand]
    rfl
  constructor
  · refine ⟨fun message hm l hl => (h.sound.sent message hm l hl).deliver _, ?_, ?_, ?_⟩
    · intro task htask
      obtain ⟨old, hold, rfl⟩ := Option.map_eq_some_iff.mp htask
      have htask := h.sound.task old hold
      refine ⟨htask.known, fun hm => (htask.manifest hm).deliver _,
        fun r hr l hl => (htask.pending r hr l hl).deliver _, hdue old hold, ?_⟩
      rintro (hpreparation | hcompleted) r hd
      · rw [hdelivered, List.mem_append, List.mem_singleton] at hd
        rcases hd with hd | hd
        · exact htask.undelivered (Or.inl hpreparation) r hd
        · have hidle := h.sound.running old hold hreceiver
            (hcommand.trans (congrArg some (Prod.mk.inj hd).1.symm))
          exact Bool.false_ne_true (hidle.symm.trans hpreparation)
      · cases hcompleted
    · exact fun hlistening => Bool.noConfusion hlistening
    · exact fun _ _ hlistening => Bool.noConfusion hlistening
  · intro s hs
    refine ⟨hs.congr rfl rfl rfl, ?_, ?_⟩
    · intro l r r' hr hr'
      rw [Process.setAgent, hdelivered, List.mem_append, List.mem_singleton] at hr hr'
      rcases hr with hr | hr
      · rcases hr' with hr' | hr'
        · exact h.unique l r r' hr hr'
        · obtain ⟨rfl, rfl⟩ := Prod.mk.inj hr'
          exact absurd hr (hnone r)
      · obtain ⟨rfl, rfl⟩ := Prod.mk.inj hr
        rcases hr' with hr' | hr'
        · exact absurd hr' (hnone r')
        · exact (Prod.mk.inj hr').2.symm
    · intro l r hr
      rw [Process.setAgent, hdelivered, List.mem_append, List.mem_singleton] at hr
      rcases hr with hr | hr
      · exact h.known l r hr
      · obtain ⟨rfl, rfl⟩ := Prod.mk.inj hr
        exact hknown

theorem stays_persistTails (host : Host) (answers : Answers) (h : Sound p due s) (t : Agent) :
    Stays (Sound p due) (persistTails host answers t) s :=
  stays_each (fun tail _ hu => stays_persistAndSendLog hu tail.1 tail.2) h

theorem stays_reportFailure (host : Host) (answers : Answers) {result : ExecutionResult}
    (h : Sound p due s) (hfailed : ¬ Succeeds result) :
    Stays (Sound p Owing) (reportResult host answers result) s := by
  rw [reportResult]
  split
  · exact stays_failActiveTask h _ _
  · rename_i houtput
    split
    · exact stays_failActiveTask h _ _
    · rename_i htimed
      split
      · rename_i hcode
        rw [Bool.not_eq_true] at houtput htimed
        exact absurd ⟨hcode, htimed, houtput⟩ hfailed
      · exact stays_failActiveTask h _ _
      · exact stays_failActiveTask h _ _

theorem stays_reportSuccess {result : ExecutionResult} (h : Sound p (fun _ _ => True) s)
    (hsucceeds : Succeeds result) :
    Stays (Sound p Owing) (reportResult host answers result) s := by
  have howing : ∀ t, Sound p (fun _ _ => True) t → Sound p Owing t :=
    fun t ht => ht.weaken fun _ _ _ => trivial
  obtain ⟨hcode, htimed, houtput⟩ := hsucceeds
  rw [reportResult, houtput, htimed, if_neg Bool.false_ne_true, if_neg Bool.false_ne_true, hcode]
  have hstatus : Stays (Sound p (fun _ _ => True))
      (withActive fun task => send (.status task.lease .uploading task.sourceCommit)) s := by
    refine stays_withActive h fun task htask => stays_send h ?_
    rintro lease ⟨rfl, -⟩
    exact (h.task task htask).earned trivial
  refine ends_bind (hstatus.imp (fun _ t ht => ?_) (fun _ => howing) howing)
  exact stays_reportArtifacts (howing t ht) fun task htask => (ht.task task htask).earned trivial

/-! Each turn and all runs -/

theorem truthful_after {turn : Turn}
    (h : Stays Truthful (handle settings turn.outside turn.event) p) :
    Truthful (p.after settings turn) := by
  have hends := h turn.faults
  rw [Effect.Ends] at hends
  rw [Process.after]
  rcases hrun : handle settings turn.outside turn.event ⟨p, turn.faults⟩ with ⟨(e | _) | a, t⟩
  · rw [hrun] at hends
    exact Truthful.disconnect hends
  · rw [hrun] at hends
    exact Truthful.restart hends
  · rw [hrun] at hends
    exact hends

theorem stays_success (h : Truthful p) {result : ExecutionResult}
    (hreceiver : p.agent.executionReceiver = true) (hsucceeds : Succeeds result)
    (hown : ∀ task, p.agent.active = some task → p.command = some task.lease) :
    Stays Truthful (handle settings outside (.execution (.finished result))) p := by
  obtain ⟨hsound, hback⟩ :=
    h.ended hreceiver result (fun _ _ => True) fun task htask _ => by
      refine ⟨result, ?_, hsucceeds⟩
      rw [Process.deliver, hown task htask]
      exact List.mem_append_right _ (List.mem_singleton_self _)
  refine stays_modify_bind (stays_zoom
    (stays_get_bind (stays_modify_bind (stays_modify_bind ?_))) hback)
  have howing : ∀ t, Sound (p.deliver (.finished result)) (fun _ _ => True) t →
      Sound (p.deliver (.finished result)) Owing t := fun t ht => ht.weaken fun _ _ _ => trivial
  exact ends_bind ((stays_persistTails _ _ hsound p.agent).imp
    (fun _ t ht => stays_reportSuccess ht hsucceeds) (fun _ => howing) howing)

theorem truthful_failure (h : Truthful p) {result : ExecutionResult} {faults : List (Option Fault)}
    (hreceiver : p.agent.executionReceiver = true) (hfailed : ¬ Succeeds result)
    (htails : ∀ e t, persistTails settings.host outside.toAnswers p.agent
      ⟨p.agent.ended, faults⟩ ≠ (.error (.failed e), t)) :
    Truthful (p.after settings ⟨.execution (.finished result), outside, faults⟩) := by
  obtain ⟨hsound, hback⟩ := h.ended hreceiver result (fun _ _ => False) fun _ _ => False.elim
  have hpersisted := stays_persistTails settings.host outside.toAnswers hsound p.agent faults
  have hrun : handle settings outside (.execution (.finished result)) ⟨p, faults⟩ =
      zoomed Process.setAgent id (p.deliver (.finished result))
        ((persistTails settings.host outside.toAnswers p.agent >>= fun _ =>
          reportResult settings.host outside.toAnswers result) ⟨p.agent.ended, faults⟩) := rfl
  rw [Effect.Ends] at hpersisted
  rw [Process.after, hrun]
  rcases hpersist : persistTails settings.host outside.toAnswers p.agent ⟨p.agent.ended, faults⟩
    with ⟨(e | _) | a, t⟩
  · exact absurd hpersist (htails e t)
  · rw [hpersist] at hpersisted
    rw [Effect.bind_apply_error hpersist]
    have hgone := hback _ (Sound.inactive hpersisted).silence
    exact hgone.congr hgone.sound rfl rfl rfl
  · rw [hpersist] at hpersisted
    have hreport := stays_reportFailure settings.host outside.toAnswers hpersisted hfailed
      t.faults
    rw [Effect.Ends] at hreport
    rw [Effect.bind_apply_ok hpersist]
    rcases hlast : reportResult settings.host outside.toAnswers result ⟨t.state, t.faults⟩
      with ⟨(e | _) | b, u⟩
    · rw [hlast] at hreport
      exact (hback _ hreport).disconnect
    · rw [hlast] at hreport
      exact (hback _ hreport).restart
    · rw [hlast] at hreport
      exact hback _ hreport

theorem truthful_finished (h : Truthful p) {result : ExecutionResult}
    {faults : List (Option Fault)} (hreceiver : p.agent.executionReceiver = true)
    (hwell : DeliversWell settings p ⟨.execution (.finished result), outside, faults⟩) :
    Truthful (p.after settings ⟨.execution (.finished result), outside, faults⟩) := by
  have hwell := hwell result rfl
  split at hwell
  · rename_i hsucceeds
    exact truthful_after (stays_success h hreceiver hsucceeds hwell)
  · rename_i hfailed
    exact truthful_failure h hreceiver hfailed hwell

/-- Every turn keeps the books straight. -/
theorem Truthful.after (h : Truthful p) {turn : Turn} (hawaits : p.awaits turn.event)
    (hwell : DeliversWell settings p turn) : Truthful (p.after settings turn) := by
  obtain ⟨event, outside, faults⟩ := turn
  cases event with
  | assignment payload => exact truthful_after (stays_handleAssignment h hawaits.2)
  | preparation event => exact truthful_after (stays_handlePreparationEvent h hawaits.2 event)
  | execution event =>
      cases event with
      | output stream chunk =>
          exact truthful_after (stays_modify_bind
            (stays_onAgent h (stays_persistExecutionOutput h.sound stream chunk)))
      | finished result => exact truthful_finished h hawaits.2 hwell
  | artifactUpload result =>
      exact truthful_after (stays_onAgent h (stays_handleArtifactUploadResult h.sound result))
  | artifactManifestAck payload =>
      exact truthful_after (stays_onAgent h (stays_handleArtifactManifestAck h.sound payload))
  | resultAck payload => exact truthful_after (stays_handleResultAck h payload)
  | logAck payload =>
      exact truthful_after (stays_onAgent h (stays_handleLogAck h.sound payload))
  | cancel payload =>
      exact truthful_after (stays_onAgent h (stays_handleTaskCancel h.sound payload))
  | input sensitive =>
      exact truthful_after (stays_onAgent h (stays_handleTaskInput h.sound sensitive))
  | other => exact truthful_after (stays_onAgent h (stays_inspect h.sound))
  | disconnected => exact truthful_after (stays_modify h.disconnect)
  | connection message => exact truthful_after (stays_connectOnce h message)
  | exit => exact truthful_after (stays_modify h.restart)

theorem truthful_of_isNew (h : p.IsNew) : Truthful p := by
  have hdelivered : ∀ lease result, (lease, result) ∉ p.delivered := by
    rw [h.delivered_eq]
    exact fun _ _ hd => List.not_mem_nil hd
  refine ⟨?_, fun l r _ hr => absurd hr (hdelivered l r), fun l r hr => absurd hr (hdelivered l r)⟩
  rw [h.agent_eq]
  constructor
  · exact fun _ hm => absurd hm List.not_mem_nil
  · exact fun _ htask => by cases htask
  · exact fun hreceiver => Bool.noConfusion hreceiver
  · exact fun _ htask => by cases htask

theorem truthful_of_reachable (h : (runtime settings (DeliversWell settings)).Reachable p) :
    Truthful p := by
  refine h.invariant (fun _ => truthful_of_isNew) ?_
  rintro p q - htruthful ⟨turn, hawaits, hwell, rfl⟩
  exact htruthful.after hawaits hwell

theorem Truthful.reportsTruthfully (h : Truthful p) : ReportsTruthfully p := by
  constructor
  · exact h.sound.sent
  · rintro lease result hd hfailed payload rfl hsent
    obtain ⟨result', hd', hsucceeds⟩ := h.sound.sent _ hsent payload.lease rfl
    rw [h.unique _ _ _ hd hd'] at hfailed
    exact hfailed hsucceeds

/-- In every run that delivers its results well, success is reported only of a command that has
succeeded. -/
theorem reportsTruthfully_of_deliversWell (settings : Settings) (p : Process)
    (h : (runtime settings (DeliversWell settings)).Reachable p) : ReportsTruthfully p :=
  (truthful_of_reachable h).reportsTruthfully

/-! A build that fails -/

def demoSettings : Settings where
  host := demoHost
  checks :=
    { parsesUuid := fun _ => true
      parseRfc3339 := fun _ => some 3600000000000 }
  encode
    | .string text => '"' :: text ++ ['"']
    | _ => []
  agentId := demoAssignment.agentId
  logPath := ⟨true, false, false⟩
  logBufferMaxBytes := 1000000

def demoName : UnixPath.FileName :=
  ⟨[97], by decide, by decide, by decide, by decide, by decide⟩

/-- A directory with one file of four bytes. -/
def demoManifest : ArtifactManifest :=
  ⟨[⟨"a".toList, demoName, 4, []⟩], 4⟩

def demoSurroundings : Surroundings where
  toAnswers := { demoAnswers with scanned := .ok demoManifest }
  now := 0
  socketError := ""
  artifactCleaned := true
  downloadError := none
  configError := none
  startError := none

def newProcess : Process where
  agent := ⟨none, false, [], []⟩
  source := .none
  connected := false
  disks := fun _ => ⟨none, none⟩
  leases := []
  command := none
  delivered := []

/-- A task with a secret in its configuration. -/
def secretAssignment : TaskAssignmentPayload :=
  { demoAssignment with
    config := [("token".toList, .string "secret".toList)]
    sensitiveConfigKeys := ["token".toList] }

def quiet (event : Event) : Turn := ⟨event, demoSurroundings, []⟩

/-- The command prints three letters. -/
def runningTurns : List Turn :=
  [quiet (.connection none), quiet (.assignment secretAssignment),
    quiet (.preparation ⟨secretAssignment.taskId, .ok ⟨secretAssignment.taskId, []⟩⟩),
    quiet (.execution (.output .stdout "abc".toList))]

def failedResult : ExecutionResult := ⟨some 1, false, false⟩

/-- Then it fails, the connection is lost while the letters are sent, and the next connection goes
on with the task. -/
def failedTurns : List Turn :=
  runningTurns ++
    [⟨.execution (.finished failedResult), demoSurroundings,
        List.replicate 7 none ++ [some (.error 0)]⟩,
      quiet (.connection (some ⟨secretAssignment.taskId, .resume, some .running, 0, none, none⟩)),
      quiet (.artifactManifestAck ⟨secretAssignment.taskId, true, 1, 4⟩),
      quiet (.artifactUpload (.ok ()))]

def failedRun : Process :=
  failedTurns.foldl (Process.after demoSettings) newProcess

def Message.isCompleted : Message → Bool
  | .result (.completed _) => true
  | _ => false

theorem isNew_newProcess : newProcess.IsNew :=
  ⟨rfl, rfl, rfl, rfl, rfl⟩

/-- The agent reports that the task is completed, although its command has failed. -/
theorem not_reportsTruthfully :
    ¬ ∀ (settings : Settings) (p : Process),
      (runtime settings fun _ _ => True).Reachable p → ReportsTruthfully p := by
  intro h
  have htakes : newProcess.Takes demoSettings (fun _ _ => True) failedTurns := by
    decide +kernel
  have htruthful := h demoSettings failedRun (htakes.reachable (.init isNew_newProcess))
  have hdelivered : failedRun.delivered = [(leaseOf secretAssignment, failedResult)] := by
    decide +kernel
  have hsent : failedRun.agent.sent.any Message.isCompleted = true := by
    decide +kernel
  obtain ⟨message, hmessage, hcompleted⟩ := List.any_eq_true.mp hsent
  have hearned : ∀ lease, message.ReportsSuccess lease → False := by
    intro lease hlease
    obtain ⟨result, hresult, hsucceeds⟩ := htruthful.success message hmessage lease hlease
    rw [hdelivered, List.mem_singleton] at hresult
    obtain ⟨-, rfl⟩ := Prod.mk.inj hresult
    exact absurd hsucceeds (by decide)
  cases message with
  | result result =>
      cases result with
      | completed payload => exact hearned payload.lease rfl
      | failed payload => cases hcompleted
      | canceled payload => cases hcompleted
  | status lease status commit => cases hcompleted
  | log lease entry => cases hcompleted
  | artifactManifest json => cases hcompleted

/-- The same build, but its command succeeds, and nothing goes wrong. -/
def succeededTurns : List Turn :=
  runningTurns ++
    [quiet (.execution (.finished ⟨some 0, false, false⟩)),
      quiet (.artifactManifestAck ⟨secretAssignment.taskId, true, 1, 4⟩),
      quiet (.artifactUpload (.ok ()))]

def succeededRun : Process :=
  succeededTurns.foldl (Process.after demoSettings) newProcess

def deliversSuccess (p : Process) (turn : Turn) : Bool :=
  match turn.event with
  | .execution (.finished result) =>
      decide (Succeeds result) && p.agent.active.all fun task => p.command == some task.lease
  | _ => true

theorem deliversWell_of_success {turn : Turn} (h : deliversSuccess p turn = true) :
    DeliversWell settings p turn := by
  intro result hevent
  rw [deliversSuccess, hevent, Bool.and_eq_true, decide_eq_true_eq] at h
  rw [if_pos h.1]
  intro task htask
  have hcommand := h.2
  rw [htask] at hcommand
  exact eq_of_beq hcommand

theorem succeededRun_reportsTruthfully :
    succeededRun.agent.sent.any Message.isCompleted = true ∧ ReportsTruthfully succeededRun := by
  refine ⟨by decide +kernel, reportsTruthfully_of_deliversWell demoSettings succeededRun ?_⟩
  have htakes : newProcess.Takes demoSettings (fun p turn => deliversSuccess p turn = true)
      succeededTurns := by
    decide +kernel
  exact (htakes.imp fun _ _ => deliversWell_of_success).reachable (.init isNew_newProcess)

end AnvilRun.AgentRuntime
