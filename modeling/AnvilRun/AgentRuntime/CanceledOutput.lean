import AnvilRun.AgentRedactor.Flush
import AnvilRun.AgentRuntime.ChunkSizes

namespace AnvilRun.AgentRuntime

open AnvilRun.AgentContracts (TaskCancelPayload)
open AnvilRun.AgentRedactor
open AnvilRun.Effect (onlyIf)
open AnvilRun.Interruptible
open AnvilRun.LogBuffer (appendLogAndAdvance)
open AnvilRun.Masking

/-- The chunks of one stream. -/
def chunksOf (stream : LogStream) (outputs : List (LogStream × Text)) : List Text :=
  (outputs.filter fun output => output.1 = stream).map Prod.snd

/-- The text that the log has of a stream. -/
def textOf (stream : LogStream) (entries : List BufferedLogEntry) : Text :=
  (entries.filter fun entry => entry.stream = stream).flatMap BufferedLogEntry.chunk

/-- A redactor that has received a text, and what it has let out. A line typed into the terminal
adds a value. -/
inductive History : SensitiveLogRedactor → Text → Text → Prop
  | fresh {r : SensitiveLogRedactor} (h : r.pending = []) : History r [] []
  | output {r : SensitiveLogRedactor} {received text : Text} (h : History r received text)
      (chunk : Text) :
      History (r.redact chunk).2 (received ++ chunk) (text ++ (r.redact chunk).1)
  | typed {r : SensitiveLogRedactor} {received text : Text} (h : History r received text)
      (value : Text) : History (r.addSensitiveValue value) received text

/-- The log has all that was received, masked, and no redactor holds anything back. -/
structure KeepsOutput (received : LogStream → Text) (s : Agent) : Prop where
  text_eq : ∀ R, s.redactors = some R → ∀ stream,
    textOf stream s.emitted = redactText (received stream) (R stream).values
  pending_eq_nil : ∀ R, s.redactors = some R → ∀ stream, (R stream).pending = []

/-- What an output lets out of its redactor. -/
def passed (R : Redactors) (output : LogStream × Text) : List (LogStream × Text) :=
  if ((R output.1).redact output.2).1 = [] then []
  else [(output.1, ((R output.1).redact output.2).1)]

def letOut : Redactors → List (LogStream × Text) → List (LogStream × Text)
  | _, [] => []
  | R, output :: outputs => passed R output ++ letOut (feed R output) outputs

def feedAll (R : Redactors) (outputs : List (LogStream × Text)) : Redactors :=
  outputs.foldl feed R

/-- The redactors behind the tails, which went through them once more. -/
def flushAll (R : Redactors) : Redactors :=
  feedAll (finishAll R) (tailsOf R)

/-- What a cancellation gives to the log. -/
def canceledOutput (s : Agent) (task : ActiveTask) (answers : Answers)
    (cancel : TaskCancelPayload) : List (LogStream × Text) :=
  if stopsTask task answers cancel then
    letOut task.redactor (drained s answers) ++
      letOut (finishAll (feedAll task.redactor (drained s answers)))
        (tailsOf (feedAll task.redactor (drained s answers)))
  else []

def logEntry (answers : Answers) (logs : LogBuffer.Appender) (output : LogStream × Text) :
    BufferedLogEntry :=
  ⟨logs.nextSequence, output.1, output.2, answers.emittedAt logs.nextSequence,
    logs.nextSequence_le⟩

/-- The buffer takes an entry for each of the texts. -/
inductive Stored (format : LogBuffer.EntryFormat) (answers : Answers) :
    LogBuffer.Appender → List (LogStream × Text) → List BufferedLogEntry →
      LogBuffer.Appender → Prop
  | nil {logs : LogBuffer.Appender} : Stored format answers logs [] [] logs
  | cons {logs logs' logs'' : LogBuffer.Appender} {output : LogStream × Text}
      {outputs : List (LogStream × Text)} {entries : List BufferedLogEntry}
      (happend : Returns (appendLogAndAdvance format (logEntry answers logs output)) logs true
        logs')
      (hrest : Stored format answers logs' outputs entries logs'') :
      Stored format answers logs (output :: outputs) (logEntry answers logs output :: entries)
        logs''

/-- What the agent knows of the log of its task. -/
structure LogView where
  redactors : Redactors
  logs : LogBuffer.Appender
  emitted : List BufferedLogEntry

def Agent.logView (s : Agent) : Option LogView :=
  s.active.map fun task => ⟨task.redactor, task.logs, s.emitted⟩

variable {host : Host} {answers : Answers} {s t : Agent} {task : ActiveTask} {R : Redactors}
  {stream : LogStream} {chunk : Text} {outputs : List (LogStream × Text)}
  {cancel : TaskCancelPayload} {logs logs' : LogBuffer.Appender}
  {entries emitted : List BufferedLogEntry} {view : LogView}

/-! The text of each stream -/

theorem History.holdsBack {r : SensitiveLogRedactor} {received text : Text}
    (h : History r received text) (hpending : r.pending ≠ []) : HoldsBack r := by
  refine ⟨?_, hpending⟩
  have hnone : r.values = [] → r.pending = [] := by
    clear hpending
    induction h with
    | fresh h => exact fun _ => h
    | output h chunk ih =>
        intro hvalues
        rw [values_redact] at hvalues
        rw [SensitiveLogRedactor.redact, if_pos hvalues]
        exact ih hvalues
    | typed h value ih =>
        intro hvalues
        rw [pending_addSensitiveValue]
        exact ih (values_eq_nil_of_addSensitiveValue hvalues)
  exact fun hvalues => hpending (hnone hvalues)

theorem chunksOf_cons (stream : LogStream) (output : LogStream × Text)
    (outputs : List (LogStream × Text)) :
    chunksOf stream (output :: outputs) =
      (if output.1 = stream then [output.2] else []) ++ chunksOf stream outputs := by
  simp only [chunksOf, List.filter_cons, decide_eq_true_eq]
  split
  · rfl
  · rfl

theorem chunksOf_append (stream : LogStream) (xs ys : List (LogStream × Text)) :
    chunksOf stream (xs ++ ys) = chunksOf stream xs ++ chunksOf stream ys := by
  rw [chunksOf, List.filter_append, List.map_append]
  rfl

theorem feedAll_apply (R : Redactors) (outputs : List (LogStream × Text)) (stream : LogStream) :
    feedAll R outputs stream = (R stream).after (chunksOf stream outputs) := by
  induction outputs generalizing R with
  | nil => rfl
  | cons output outputs ih =>
      have hcons : feedAll R (output :: outputs) = feedAll (feed R output) outputs := rfl
      rw [hcons, ih, chunksOf_cons, feed]
      split
      · rename_i hstream
        subst hstream
        rw [Function.update_self]
        rfl
      · rename_i hstream
        rw [Function.update_of_ne (Ne.symm hstream)]
        rfl

theorem flatten_letOut (R : Redactors) (outputs : List (LogStream × Text)) (stream : LogStream) :
    (chunksOf stream (letOut R outputs)).flatten = (R stream).output (chunksOf stream outputs) := by
  induction outputs generalizing R with
  | nil => rfl
  | cons output outputs ih =>
      have hpassed : (chunksOf stream (passed R output)).flatten =
          if output.1 = stream then ((R output.1).redact output.2).1 else [] := by
        rw [passed]
        split
        · rename_i hnil
          rw [hnil, ite_self]
          rfl
        · rw [chunksOf_cons]
          split
          · exact List.append_nil _
          · rfl
      rw [letOut, chunksOf_append, List.flatten_append, ih, hpassed, chunksOf_cons, feed]
      split
      · rename_i hstream
        subst hstream
        rw [Function.update_self]
        rfl
      · rename_i hstream
        rw [Function.update_of_ne (Ne.symm hstream)]
        rfl

theorem chunksOf_filter (stream : LogStream) (outputs : List (LogStream × Text)) :
    chunksOf stream (outputs.filter fun output => !output.2.isEmpty) =
      (chunksOf stream outputs).filter fun chunk => !chunk.isEmpty := by
  rw [chunksOf, chunksOf, List.filter_map, List.filter_filter, List.filter_filter]
  apply congrArg (List.map Prod.snd)
  apply List.filter_congr
  exact fun output _ => Bool.and_comm _ _

theorem chunksOf_tailsOf (R : Redactors) (stream : LogStream) :
    chunksOf stream (tailsOf R) =
      if (R stream).finish.1 = [] then [] else [(R stream).finish.1] := by
  have hboth : chunksOf stream [(.stdout, (R .stdout).finish.1), (.stderr, (R .stderr).finish.1)] =
      [(R stream).finish.1] := by
    cases stream with
    | stdout => rfl
    | stderr => rfl
  rw [tailsOf, chunksOf_filter, hboth, List.filter_singleton]
  cases (R stream).finish.1 with
  | nil => rfl
  | cons c s => rfl

theorem flushAll_apply (R : Redactors) (stream : LogStream) :
    flushAll R stream =
      if (R stream).finish.1 = [] then (R stream).finish.2
      else ((R stream).finish.2.redact (R stream).finish.1).2 := by
  rw [flushAll, feedAll_apply, chunksOf_tailsOf, finishAll]
  split
  · rfl
  · rfl

/-- What the tails let out of a stream, and what stays behind of it, are its tail. -/
theorem flatten_letOut_tailsOf (R : Redactors) (stream : LogStream)
    (hsep : Separated redactedMarker (R stream).values) :
    (chunksOf stream (letOut (finishAll R) (tailsOf R))).flatten ++ (flushAll R stream).pending =
      (R stream).finish.1 := by
  rw [flatten_letOut, chunksOf_tailsOf, flushAll_apply, finishAll]
  split
  · rename_i hnil
    rw [hnil]
    rfl
  · have hflush := flush_append_pending hsep
    rw [SensitiveLogRedactor.output, SensitiveLogRedactor.output, List.append_nil]
    exact hflush

theorem holdsBack_flushAll (h : HoldsBack (R stream)) : HoldsBack (flushAll R stream) := by
  rw [flushAll_apply, if_neg (finish_ne_nil h.pending_ne_nil)]
  exact h.flush

/-! The view of the log through each step -/

theorem textOf_cons (stream : LogStream) (entry : BufferedLogEntry)
    (entries : List BufferedLogEntry) :
    textOf stream (entry :: entries) =
      (if entry.stream = stream then entry.chunk else []) ++ textOf stream entries := by
  simp only [textOf, List.filter_cons, decide_eq_true_eq]
  split
  · exact List.flatMap_cons
  · rfl

theorem textOf_append (stream : LogStream) (xs ys : List BufferedLogEntry) :
    textOf stream (xs ++ ys) = textOf stream xs ++ textOf stream ys := by
  rw [textOf, List.filter_append, List.flatMap_append]
  rfl

theorem Stored.textOf_eq {format : LogBuffer.EntryFormat}
    (h : Stored format answers logs outputs entries logs') (stream : LogStream) :
    textOf stream entries = (chunksOf stream outputs).flatten := by
  induction h with
  | nil => rfl
  | @cons logs logs' logs'' output outputs entries happend hrest ih =>
      rw [chunksOf_cons, List.flatten_append, ← ih, textOf_cons, logEntry]
      dsimp only
      split
      · rw [List.flatten_singleton]
      · rfl

/-- Entries for some texts, and then for others. -/
theorem Stored.split {format : LogBuffer.EntryFormat} {xs ys : List (LogStream × Text)}
    (h : Stored format answers logs (xs ++ ys) entries logs') :
    ∃ first between rest, Stored format answers logs xs first between ∧
      Stored format answers between ys rest logs' ∧ entries = first ++ rest := by
  induction xs generalizing logs entries with
  | nil => exact ⟨[], logs, entries, .nil, h, rfl⟩
  | cons output xs ih =>
      cases h with
      | cons happend hrest =>
          obtain ⟨first, between, rest, hfirst, hsecond, rfl⟩ := ih hrest
          exact ⟨_, between, rest, .cons happend hfirst, hsecond, rfl⟩

theorem exists_active_of_logView (h : s.logView = some view) :
    ∃ task, s.active = some task ∧ task.redactor = view.redactors ∧ task.logs = view.logs ∧
      s.emitted = view.emitted := by
  obtain ⟨task, hactive, rfl⟩ := Option.map_eq_some_iff.mp h
  exact ⟨task, hactive, rfl, rfl, rfl⟩

theorem logView_of_active (h : s.active = some task) :
    s.logView = some ⟨task.redactor, task.logs, s.emitted⟩ := by
  rw [Agent.logView, h]
  rfl

theorem completes_withActive {f : ActiveTask → Act} {post : Unit → Agent → Prop}
    (h : s.active = some task) (hf : Completes (f task) post s) :
    Completes (withActive f) post s := by
  obtain ⟨a, t, ht, hpost⟩ := hf
  exact ⟨a, t, (withActive_apply h []).trans ht, hpost⟩

theorem completes_modifyTask {g : ActiveTask → ActiveTask} {post : Unit → Agent → Prop}
    (hactive : s.active = some task)
    (h : post () { s with active := some (g task) }) : Completes (modifyTask g) post s := by
  apply completes_modify
  rw [hactive]
  exact h

/-- Changes of what is neither a redactor nor the buffer. -/
theorem completes_keepView {g : ActiveTask → ActiveTask} (h : s.logView = some view)
    (hredactor : ∀ task, (g task).redactor = task.redactor)
    (hlogs : ∀ task, (g task).logs = task.logs) :
    Completes (modifyTask g) (fun _ t => t.logView = some view) s := by
  obtain ⟨task, hactive, rfl⟩ := Option.map_eq_some_iff.mp h
  apply completes_modifyTask hactive
  rw [logView_of_active rfl, hredactor, hlogs]

theorem completes_send (message : Message) {post : Unit → Agent → Prop}
    (h : post () (s.push message)) : Completes (send message) post s :=
  ⟨(), _, rfl, h⟩

theorem completes_sendLogBestEffort (message : Message) {post : Unit → Agent → Prop}
    (h : post () (s.push message)) : Completes (sendLogBestEffort message) post s :=
  ⟨(), _, rfl, h⟩

theorem completes_persistAndSendLog (h : s.logView = some ⟨R, logs, emitted⟩)
    (happend : Returns (appendLogAndAdvance host.format (logEntry answers logs (stream, chunk))) logs
      true logs') :
    Completes (persistAndSendLog host answers stream chunk)
      (fun _ t => t.logView =
        some ⟨R, logs', emitted ++ [logEntry answers logs (stream, chunk)]⟩) s := by
  obtain ⟨task, hactive, rfl, rfl, rfl⟩ := exists_active_of_logView h
  refine completes_withActive hactive (Completes.bind (completes_modify ?_))
  refine Completes.bind (Completes.zoom ⟨true, logs', happend, ?_⟩)
  refine completes_onlyIf (fun _ => completes_sendLogBestEffort _ ?_) fun hnot => absurd rfl hnot
  rw [Agent.logView, Agent.push, Agent.setLogs, Agent.emit, hactive]
  rfl

theorem completes_persistExecutionOutput (h : s.logView = some ⟨R, logs, emitted⟩)
    (hstored : Stored host.format answers logs (passed R (stream, chunk)) entries logs') :
    Completes (persistExecutionOutput host answers stream chunk)
      (fun _ t => t.logView = some ⟨feed R (stream, chunk), logs', emitted ++ entries⟩) s := by
  obtain ⟨task, hactive, rfl, rfl, rfl⟩ := exists_active_of_logView h
  refine completes_withActive hactive (Completes.bind (completes_modifyTask hactive ?_))
  generalize hnext : task.setRedactor stream ((task.redactor stream).redact chunk).2 = next
  have hfed : ({ s with active := some next } : Agent).logView =
      some ⟨feed task.redactor (stream, chunk), task.logs, s.emitted⟩ := by
    rw [logView_of_active rfl, ← hnext, redactor_setRedactor]
    cases stream with
    | stdout => rfl
    | stderr => rfl
  rw [passed] at hstored
  apply completes_onlyIf
  · intro hne
    rw [if_neg hne] at hstored
    cases hstored with
    | cons happend hrest =>
        cases hrest with
        | nil => exact completes_persistAndSendLog hfed happend
  · intro hnil
    rw [not_not] at hnil
    rw [if_pos hnil] at hstored
    cases hstored with
    | nil =>
        rw [List.append_nil]
        exact hfed

theorem completes_outputs (h : s.logView = some ⟨R, logs, emitted⟩)
    (hstored : Stored host.format answers logs (letOut R outputs) entries logs') :
    Completes (each (fun output => persistExecutionOutput host answers output.1 output.2) outputs)
      (fun _ t => t.logView = some ⟨feedAll R outputs, logs', emitted ++ entries⟩) s := by
  induction outputs generalizing R s logs emitted entries with
  | nil =>
      cases hstored with
      | nil =>
          rw [List.append_nil]
          exact completes_pure h
  | cons output outputs ih =>
      obtain ⟨first, between, rest, hfirst, hrest, rfl⟩ := hstored.split
      refine Completes.bind ((completes_persistExecutionOutput h hfirst).imp fun _ t ht => ?_)
      rw [← List.append_assoc]
      exact ih ht hrest

theorem completes_stopExecution (h : s.logView = some ⟨R, logs, emitted⟩)
    (hstored : Stored host.format answers logs (letOut R (drained s answers)) entries logs') :
    Completes (stopExecution host answers)
      (fun _ t => t.logView = some ⟨feedAll R (drained s answers), logs', emitted ++ entries⟩)
      s := by
  have hend : ∀ t : Agent,
      t.logView = some ⟨feedAll R (drained s answers), logs', emitted ++ entries⟩ →
      Completes (do
        modify fun s => { s with executionReceiver := false }
        modifyTask fun task => { task with execution := false } : Act)
        (fun _ t => t.logView = some ⟨feedAll R (drained s answers), logs', emitted ++ entries⟩)
        t := by
    intro t ht
    refine Completes.bind (completes_modify ?_)
    exact completes_keepView (s := { t with executionReceiver := false }) ht (fun _ => rfl)
      fun _ => rfl
  refine Completes.bind (completes_get (Completes.bind (completes_onlyIf ?_ ?_)))
  · intro hreceiver
    have hdrained : drained s answers = answers.outputs := if_pos hreceiver
    rw [hdrained] at hstored hend ⊢
    refine Completes.bind (Completes.recover ?_)
    refine (completes_outputs h hstored).imp fun _ t ht => ?_
    refine completes_onlyIf (fun _ => ?_) fun _ => hend t ht
    refine Completes.imp (completes_keepView ht (fun _ => ?_) fun _ => ?_) fun _ u hu => hend u hu
    · rfl
    · rfl
  · intro hreceiver
    have hdrained : drained s answers = [] := if_neg hreceiver
    rw [hdrained] at hstored hend
    cases hstored with
    | nil =>
        rw [List.append_nil] at hend ⊢
        rw [hdrained]
        exact hend s h

theorem completes_flushLogTails (h : s.logView = some ⟨R, logs, emitted⟩)
    (hstored : Stored host.format answers logs (letOut (finishAll R) (tailsOf R)) entries logs') :
    Completes (flushLogTails host answers)
      (fun _ t => t.logView = some ⟨flushAll R, logs', emitted ++ entries⟩) s := by
  obtain ⟨task, hactive, rfl, rfl, rfl⟩ := exists_active_of_logView h
  refine completes_withActive hactive (Completes.bind (completes_modifyTask hactive ?_))
  refine completes_outputs ?_ hstored
  rw [logView_of_active rfl, redactor_finishRedactors]
  rfl

theorem completes_report (h : s.logView = some view) {result : ActiveTask → PendingTerminalResult} :
    Completes (withActive fun task => do
        modifyTask fun task => { task with pendingResult := some (result task) }
        send (.result (result task)))
      (fun _ t => t.logView = some view) s := by
  obtain ⟨task, hactive, rfl⟩ := Option.map_eq_some_iff.mp h
  refine completes_withActive hactive (Completes.bind (completes_modifyTask hactive ?_))
  exact completes_send _ rfl

/-- The redactors that a cancellation leaves. -/
def canceledRedactors (s : Agent) (task : ActiveTask) (answers : Answers)
    (cancel : TaskCancelPayload) : Redactors :=
  if stopsTask task answers cancel then flushAll (feedAll task.redactor (drained s answers))
  else task.redactor

theorem completes_stopTask (h : s.logView = some ⟨R, logs, emitted⟩)
    (hstored : Stored host.format answers logs
      (letOut R (drained s answers) ++ letOut (finishAll (feedAll R (drained s answers)))
        (tailsOf (feedAll R (drained s answers)))) entries logs') :
    Completes (stopTask host answers)
      (fun _ t => t.logView =
        some ⟨flushAll (feedAll R (drained s answers)), logs', emitted ++ entries⟩) s := by
  obtain ⟨first, between, rest, hfirst, hrest, rfl⟩ := hstored.split
  obtain ⟨task, hactive, rfl, rfl, rfl⟩ := exists_active_of_logView h
  refine Completes.bind (completes_modifyTask hactive (Completes.bind ?_))
  refine Completes.imp (completes_stopExecution (logView_of_active rfl) hfirst) fun _ t ht => ?_
  refine Completes.bind (Completes.imp (completes_flushLogTails ht hrest) fun _ u hu => ?_)
  rw [← List.append_assoc]
  split
  · exact completes_report hu
  · exact completes_report hu

/-- Every cancellation returns when all entries are stored. -/
theorem completes_handleTaskCancel (hactive : s.active = some task)
    (hstored : Stored host.format answers task.logs (canceledOutput s task answers cancel) entries
      logs') :
    Completes (handleTaskCancel host answers cancel)
      (fun _ t => t.logView =
        some ⟨canceledRedactors s task answers cancel, logs', s.emitted ++ entries⟩) s := by
  have hview := logView_of_active hactive
  have hidle : stopsTask task answers cancel = false → ∀ t : Agent,
      t.logView = some ⟨task.redactor, task.logs, s.emitted⟩ →
      t.logView = some ⟨canceledRedactors s task answers cancel, logs', s.emitted ++ entries⟩ := by
    intro hstops t ht
    rw [canceledOutput, hstops, if_neg Bool.false_ne_true] at hstored
    rw [canceledRedactors, hstops, if_neg Bool.false_ne_true]
    cases hstored with
    | nil =>
        rw [List.append_nil]
        exact ht
  refine completes_withActive hactive ?_
  split
  · rename_i haddressed
    refine completes_pure (hidle ?_ s hview)
    rw [stopsTask, haddressed, Bool.false_and]
  · rename_i haddressed
    rw [Bool.not_eq_false] at haddressed
    refine Completes.bind (completes_modifyTask hactive ?_)
    split
    · rename_i hreleased
      refine Completes.imp (@completes_report _ ⟨task.redactor, task.logs, s.emitted⟩ rfl _)
        fun _ t ht => hidle ?_ t ht
      rw [stopsTask, haddressed, hreleased]
      rfl
    · rename_i hreleased
      have hstops : stopsTask task answers cancel = true := by
        rw [stopsTask, haddressed, Bool.true_and, Bool.not_eq_true', ← Bool.not_eq_true]
        exact hreleased
      rw [canceledOutput, hstops, if_pos rfl] at hstored
      rw [canceledRedactors, hstops, if_pos rfl]
      exact completes_stopTask rfl hstored

/-! What a cancellation leaves behind -/

/-- The outputs that the agent receives while it cancels its task. -/
def receivedOutputs (s : Agent) (task : ActiveTask) (answers : Answers)
    (cancel : TaskCancelPayload) : List (LogStream × Text) :=
  if stopsTask task answers cancel then drained s answers else []

theorem holdsBack_canceledRedactors (h : HoldsBack (task.redactor stream)) :
    HoldsBack (canceledRedactors s task answers cancel stream) := by
  rw [canceledRedactors]
  split
  · apply holdsBack_flushAll
    rw [feedAll_apply]
    exact h.after _
  · exact h

/-- What is stored of a stream and what stays behind of it are all that the redactor makes of it. -/
theorem textOf_canceledOutput (hstops : stopsTask task answers cancel = true)
    (hstored : Stored host.format answers task.logs (canceledOutput s task answers cancel) entries
      logs') (hsep : Separated redactedMarker (task.redactor stream).values) :
    textOf stream entries ++ (canceledRedactors s task answers cancel stream).pending =
      (task.redactor stream).redactAll (chunksOf stream (drained s answers)) := by
  have hfed : (feedAll task.redactor (drained s answers) stream).values =
      (task.redactor stream).values := by
    rw [feedAll_apply, values_after]
  rw [← hfed] at hsep
  rw [hstored.textOf_eq, canceledOutput, canceledRedactors, hstops, if_pos rfl, if_pos rfl,
    chunksOf_append, List.flatten_append, List.append_assoc, flatten_letOut_tailsOf _ _ hsep,
    flatten_letOut, feedAll_apply, redactAll_eq_output]

/-- However an active task is canceled, what a redactor holds back is not in the log afterwards,
not even when everything succeeds. -/
theorem canceled_not_keepsOutput {received : LogStream → Text} (hactive : s.active = some task)
    (hhistory : ∀ stream,
      History (task.redactor stream) (received stream) (textOf stream s.emitted))
    (hpending : ∃ stream, (task.redactor stream).pending ≠ [])
    (hstored : Stored host.format answers task.logs (canceledOutput s task answers cancel) entries
      logs') :
    ∃ t, Returns (handleTaskCancel host answers cancel) s () t ∧ t.emitted = s.emitted ++ entries ∧
      ¬ KeepsOutput (fun stream => received stream ++
        (chunksOf stream (receivedOutputs s task answers cancel)).flatten) t ∧
      (stopsTask task answers cancel = true → ∀ stream,
        Separated redactedMarker (task.redactor stream).values →
        ∃ left, textOf stream t.emitted ++ left = textOf stream s.emitted ++
            (task.redactor stream).redactAll (chunksOf stream (drained s answers)) ∧
          ((task.redactor stream).pending ≠ [] → left ≠ [])) := by
  obtain ⟨_, t, hreturns, hview⟩ := completes_handleTaskCancel hactive hstored
  obtain ⟨after, hafter, hredactor, -, hemitted⟩ := exists_active_of_logView hview
  have hredactors : t.redactors = some (canceledRedactors s task answers cancel) := by
    rw [redactors_of_active hafter, hredactor]
  have hheld : ∀ stream, (task.redactor stream).pending ≠ [] →
      (canceledRedactors s task answers cancel stream).pending ≠ [] := fun stream hne =>
    (holdsBack_canceledRedactors ((hhistory stream).holdsBack hne)).pending_ne_nil
  refine ⟨t, hreturns, hemitted, fun hkeeps => ?_, fun hstops stream hsep => ?_⟩
  · obtain ⟨stream, hne⟩ := hpending
    exact hheld stream hne (hkeeps.pending_eq_nil _ hredactors stream)
  · refine ⟨(canceledRedactors s task answers cancel stream).pending, ?_, hheld stream⟩
    rw [hemitted, textOf_append, List.append_assoc, textOf_canceledOutput hstops hstored hsep]

/-! A command that has printed three letters -/

def secretRedactor : SensitiveLogRedactor :=
  .ofValues ["secret".toList]

/-- The letters wait for the rest of a secret. -/
def waitingRedactors : Redactors
  | .stdout => (secretRedactor.redact "abc".toList).2
  | .stderr => secretRedactor

def waitingText : LogStream → Text
  | .stdout => "abc".toList
  | .stderr => []

def demoCancel : TaskCancelPayload where
  taskId := demoAssignment.taskId
  leaseToken := demoAssignment.leaseToken
  requestedAt := "2026-01-01T00:00:01.000Z".toList
  reason := none

theorem history_waiting (stream : LogStream) :
    History (waitingRedactors stream) (waitingText stream)
      (textOf stream (demoAgent waitingRedactors).emitted) := by
  have hfresh : History secretRedactor [] [] := .fresh rfl
  cases stream with
  | stdout => exact hfresh.output "abc".toList
  | stderr => exact hfresh

theorem pending_waiting : (waitingRedactors .stdout).pending ≠ [] := by
  decide

theorem canceledOutput_waiting :
    canceledOutput (demoAgent waitingRedactors) (demoTask waitingRedactors) demoAnswers demoCancel =
      [] := by
  decide

/-- The letters are neither in the log nor let out when the task is canceled. -/
theorem demoTask_canceled : ∃ t,
    Returns (handleTaskCancel demoHost demoAnswers demoCancel) (demoAgent waitingRedactors) () t ∧
      t.emitted = [] ∧ ¬ KeepsOutput waitingText t := by
  obtain ⟨t, hreturns, hemitted, hnot, -⟩ := @canceled_not_keepsOutput demoHost demoAnswers
    (demoAgent waitingRedactors) (demoTask waitingRedactors) demoCancel _ _ waitingText rfl
    (fun stream => by rw [redactor_demoTask]; exact history_waiting stream)
    ⟨.stdout, by rw [redactor_demoTask]; exact pending_waiting⟩
    (by rw [canceledOutput_waiting]; exact .nil)
  refine ⟨t, hreturns, hemitted, fun hkeeps => hnot ?_⟩
  have hreceived : receivedOutputs (demoAgent waitingRedactors) (demoTask waitingRedactors)
      demoAnswers demoCancel = [] := by
    decide
  simpa [hreceived, chunksOf] using hkeeps

/-- Nothing is stored of them, although every entry could be. -/
theorem not_canceled_keepsOutput :
    ¬ ∀ (host : Host) (answers : Answers) (s : Agent) (task : ActiveTask)
      (cancel : TaskCancelPayload) (received : LogStream → Text)
      (entries : List BufferedLogEntry) (logs' : LogBuffer.Appender),
      s.active = some task →
      (∀ stream, History (task.redactor stream) (received stream) (textOf stream s.emitted)) →
      (∃ stream, (task.redactor stream).pending ≠ []) →
      Stored host.format answers task.logs (canceledOutput s task answers cancel) entries logs' →
      ∃ t, Returns (handleTaskCancel host answers cancel) s () t ∧
        KeepsOutput (fun stream => received stream ++
          (chunksOf stream (receivedOutputs s task answers cancel)).flatten) t := by
  intro h
  obtain ⟨t, hreturns, hkeeps⟩ := h demoHost demoAnswers (demoAgent waitingRedactors)
    (demoTask waitingRedactors) demoCancel waitingText [] demoLogs rfl
    (fun stream => by rw [redactor_demoTask]; exact history_waiting stream)
    ⟨.stdout, by rw [redactor_demoTask]; exact pending_waiting⟩
    (by rw [canceledOutput_waiting]; exact .nil)
  have hstate : t = (handleTaskCancel demoHost demoAnswers demoCancel
      ⟨demoAgent waitingRedactors, []⟩).2.state := by
    rw [Returns] at hreturns
    rw [hreturns]
  have hpending : t.active.map (fun task => task.stdoutLogRedactor.pending) =
      some "abc".toList := by
    rw [hstate]
    decide
  obtain ⟨task, hactive, htask⟩ := Option.map_eq_some_iff.mp hpending
  have hnil := hkeeps.pending_eq_nil _ (redactors_of_active hactive) .stdout
  have habc : "abc".toList = [] := htask.symm.trans hnil
  exact absurd habc (by decide)

end AnvilRun.AgentRuntime
