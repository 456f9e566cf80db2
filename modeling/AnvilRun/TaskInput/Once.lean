import AnvilRun.TaskInput

namespace AnvilRun.TaskInput

open scoped List
open AnvilRun.AgentRedactor (Text SensitiveLogRedactor)
open AnvilRun.AgentContracts (TaskInputPayload)
open AnvilRun.RecentWindow

def Handling.inputId : Handling → Text
  | .sending input => input.inputId
  | .awaiting input _ => input.inputId

/-- The ids of the lines that the child has got and may still get, in their order. -/
def State.handed (s : State) : List Text :=
  (s.written ++ s.child.current ++ s.channel).map ExecutionInput.inputId

def State.handlingIds (s : State) : List Text :=
  s.handling.toList.map Handling.inputId

/-- What holds throughout a run, for the record of the accepted ids. -/
structure Invariant (record : List Text) (s : State) : Prop where
  recent_eq : s.current.recentInputIds = newest recentInputLimit record
  record_nodup : record.Nodup
  delivered_eq : ∃ ids, s.delivered = ids ++ s.handlingIds ∧ record <+ ids
  handling_new : ∀ handling, s.handling = some handling → handling.inputId ∉ record
  written_nodup : (s.written.map ExecutionInput.inputId).Nodup
  handed_nodup : s.child.running = true → s.handed.Nodup
  handed_known : s.child.running = true → ∀ id ∈ s.handed, id ∈ record ∨ id ∈ s.overdue ∨
    ∃ input answer, s.handling = some (.awaiting input answer) ∧ input.inputId = id
  sending_new : s.child.running = true → ∀ input, s.handling = some (.sending input) →
    input.inputId ∉ s.handed
  failed_stopped : ∀ input, s.handling = some (.awaiting input (some false)) →
    s.child.running = false
  not_started : s.child = .notStarted → s.current.executionInput = false ∧
    s.handling = none ∧ s.channel = [] ∧ s.written = []
  interactive : s.current.executionInput = true → s.current.interactiveInputEnabled = true

variable {record : List Text} {s : State}

theorem Invariant.record_sublist (h : Invariant record s) : record <+ s.delivered := by
  obtain ⟨ids, heq, hrecord⟩ := h.delivered_eq
  rw [heq]
  exact hrecord.trans (List.sublist_append_left ids _)

/-! What an answer changes -/

/-- The call that waits has got an answer, or it is where it was. -/
def Answered (result : Bool) (handling handling' : Option Handling) : Prop :=
  handling' = handling ∨ ∃ input, handling = some (.awaiting input none) ∧
    handling' = some (.awaiting input (some result))

theorem answered_answer (s : State) (line : ExecutionInput) (result : Bool) :
    Answered result s.handling (s.answer line result).handling := by
  rw [State.answer]
  split
  · cases hhandling : s.handling with
    | none => exact .inl rfl
    | some handling =>
        rcases handling with input | ⟨input, _ | answer⟩
        · exact .inl rfl
        · exact .inr ⟨input, rfl, rfl⟩
        · exact .inl rfl
  · exact .inl rfl

theorem answer_eq (s : State) (line : ExecutionInput) (result : Bool) :
    s.answer line result = { s with handling := (s.answer line result).handling } := by
  rw [State.answer]
  split
  · rfl
  · rfl

theorem answer_current (s : State) (line : ExecutionInput) (result : Bool) :
    (s.answer line result).current = s.current := by
  rw [answer_eq]

theorem answer_delivered (s : State) (line : ExecutionInput) (result : Bool) :
    (s.answer line result).delivered = s.delivered := by
  rw [answer_eq]

theorem answer_overdue (s : State) (line : ExecutionInput) (result : Bool) :
    (s.answer line result).overdue = s.overdue := by
  rw [answer_eq]

theorem answers_eq (s : State) (lines : List ExecutionInput) :
    ∃ handling, lines.foldl (fun s line => s.answer line false) s = { s with handling } ∧
      Answered false s.handling handling := by
  induction lines generalizing s with
  | nil => exact ⟨s.handling, rfl, .inl rfl⟩
  | cons line lines ih =>
      obtain ⟨handling, heq, hanswered⟩ := ih (s.answer line false)
      refine ⟨handling, ?_, ?_⟩
      · rw [List.foldl_cons, heq, answer_eq]
      · rcases answered_answer s line false with hfirst | ⟨input, hnone, hfirst⟩
        · rw [hfirst] at hanswered
          exact hanswered
        · rcases hanswered with hsame | ⟨input', hagain, -⟩
          · exact .inr ⟨input, hnone, hsame.trans hfirst⟩
          · rw [hfirst] at hagain
            cases Option.some.inj hagain

theorem Answered.ids_eq {result : Bool} {handling handling' : Option Handling}
    (h : Answered result handling handling') :
    handling'.map Handling.inputId = handling.map Handling.inputId := by
  rcases h with rfl | ⟨input, rfl, rfl⟩
  · rfl
  · rfl

theorem Answered.sending {result : Bool} {handling handling' : Option Handling}
    (h : Answered result handling handling') {input : TaskInputPayload}
    (hsending : handling' = some (.sending input)) : handling = some (.sending input) := by
  rcases h with rfl | ⟨input', -, rfl⟩
  · exact hsending
  · cases Option.some.inj hsending

theorem Answered.awaiting {result : Bool} {handling handling' : Option Handling}
    (h : Answered result handling handling') {input : TaskInputPayload} {answer : Option Bool}
    (hawaiting : handling = some (.awaiting input answer)) :
    ∃ answer', handling' = some (.awaiting input answer') := by
  rcases h with rfl | ⟨input', hnone, rfl⟩
  · exact ⟨answer, hawaiting⟩
  · rw [hnone] at hawaiting
    cases hawaiting
    exact ⟨some result, rfl⟩

/-- A step of the child: the agent's side stays as it is, apart from an answer, and the lines that
the child has go on or are lost. -/
theorem Invariant.child_step (h : Invariant record s) {t : State} {result : Bool}
    (hcurrent : t.current = s.current) (hdelivered : t.delivered = s.delivered)
    (hoverdue : t.overdue = s.overdue) (hhandling : Answered result s.handling t.handling)
    (hwritten : (t.written.map ExecutionInput.inputId).Nodup)
    (hrunning : t.child.running = true → s.child.running = true ∧ t.handed = s.handed)
    (hstopped : result = false → t.child.running = false)
    (hstarted : t.child ≠ .notStarted) : Invariant record t := by
  constructor
  · rw [hcurrent]
    exact h.recent_eq
  · exact h.record_nodup
  · obtain ⟨ids, heq, hrecord⟩ := h.delivered_eq
    refine ⟨ids, ?_, hrecord⟩
    have hids : t.handlingIds = s.handlingIds := by
      have := hhandling.ids_eq
      rw [State.handlingIds, State.handlingIds, ← Option.toList_map, ← Option.toList_map, this]
    rw [hdelivered, heq, hids]
  · intro handling hsome
    have hids := hhandling.ids_eq
    rw [hsome] at hids
    obtain ⟨handling', hsome', hid⟩ := Option.map_eq_some_iff.mp hids.symm
    rw [← hid]
    exact h.handling_new handling' hsome'
  · exact hwritten
  · intro hrun
    rw [(hrunning hrun).2]
    exact h.handed_nodup (hrunning hrun).1
  · intro hrun id hid
    rw [(hrunning hrun).2] at hid
    rcases h.handed_known (hrunning hrun).1 id hid with hrecord | hover | ⟨input, answer, hin, heq⟩
    · exact .inl hrecord
    · rw [hoverdue]
      exact .inr (.inl hover)
    · obtain ⟨answer', hin'⟩ := hhandling.awaiting hin
      exact .inr (.inr ⟨input, answer', hin', heq⟩)
  · intro hrun input hsending
    rw [(hrunning hrun).2]
    exact h.sending_new (hrunning hrun).1 input (hhandling.sending hsending)
  · intro input hfailed
    rcases hhandling with hsame | ⟨input', -, hanswer⟩
    · rw [hsame] at hfailed
      have hstop := h.failed_stopped input hfailed
      by_contra hrun
      have := (hrunning (Bool.eq_true_of_not_eq_false hrun)).1
      rw [hstop] at this
      exact Bool.false_ne_true this
    · rw [hanswer] at hfailed
      cases hfailed
      exact hstopped rfl
  · exact fun hchild => absurd hchild hstarted
  · rw [hcurrent]
    exact h.interactive

/-- A line that is being written is not among the written ones, so it may join them. -/
theorem Invariant.write_nodup (h : Invariant record s) {line : ExecutionInput}
    (hchild : s.child = .writing line) :
    ((s.written ++ [line]).map ExecutionInput.inputId).Nodup := by
  have hhanded := h.handed_nodup (by rw [hchild]; rfl)
  rw [State.handed, hchild, List.map_append] at hhanded
  exact (List.nodup_append.mp hhanded).1

/-! Steps of the child -/

theorem invariant_take (h : Invariant record s) {line : ExecutionInput}
    {rest : List ExecutionInput} (hchild : s.child = .waiting)
    (hchannel : s.channel = line :: rest) : Invariant record (s.take line rest) := by
  have hhanded : (s.take line rest).handed = s.handed := by
    rw [State.handed, State.handed, hchild, hchannel]
    simp [State.take, Child.current]
  have hsame : Answered true s.handling s.handling := .inl rfl
  exact h.child_step rfl rfl rfl hsame h.written_nodup
    (fun _ => ⟨by rw [hchild]; rfl, hhanded⟩) (fun hfalse => absurd hfalse Bool.noConfusion)
    (by simp [State.take])

theorem invariant_finishWrite (h : Invariant record s) {line : ExecutionInput}
    (hchild : s.child = .writing line) : Invariant record (s.finishWrite line) := by
  have hhanded : (s.finishWrite line).handed = s.handed := by
    rw [State.handed, State.handed, State.finishWrite, answer_eq, hchild]
    simp [Child.current]
  exact h.child_step (answer_current s line true) (answer_delivered s line true)
    (answer_overdue s line true) (answered_answer s line true) (h.write_nodup hchild)
    (fun _ => ⟨by rw [hchild]; rfl, hhanded⟩) (fun hfalse => absurd hfalse Bool.noConfusion)
    (by simp [State.finishWrite])

theorem invariant_leave (h : Invariant record s) (whole : Bool) (hrunning : s.child.running = true) :
    Invariant record (s.leave whole) := by
  cases hchild : s.child with
  | writing line =>
      rw [State.leave, hchild]
      refine h.child_step (answer_current s line false) (answer_delivered s line false)
        (answer_overdue s line false) (answered_answer s line false) ?_
        (fun hrun => absurd hrun Bool.noConfusion) (fun _ => rfl) (by simp)
      cases whole with
      | true => exact h.write_nodup hchild
      | false => exact h.written_nodup
  | waiting =>
      rw [State.leave, hchild]
      have hsame : Answered false s.handling s.handling := .inl rfl
      exact h.child_step rfl rfl rfl hsame h.written_nodup
        (fun hrun => absurd hrun Bool.noConfusion) (fun _ => rfl) (by simp)
  | notStarted =>
      rw [hchild] at hrunning
      exact absurd hrunning Bool.noConfusion
  | leaving =>
      rw [hchild] at hrunning
      exact absurd hrunning Bool.noConfusion
  | gone =>
      rw [hchild] at hrunning
      exact absurd hrunning Bool.noConfusion

theorem invariant_dropReceiver (h : Invariant record s) : Invariant record s.dropReceiver := by
  obtain ⟨handling, heq, hanswered⟩ := answers_eq s s.channel
  rw [State.dropReceiver, heq]
  exact h.child_step rfl rfl rfl hanswered h.written_nodup
    (fun hrun => absurd hrun Bool.noConfusion) (fun _ => rfl) (by simp)

/-! Steps of the agent -/

/-- A message is answered without the child. -/
theorem Invariant.acknowledge_idle (h : Invariant record s) (hidle : s.handling = none)
    (input : TaskInputPayload) (now : Text) (accepted : Bool) (errorCode : Option String) :
    Invariant record
      ({ s with delivered := s.delivered ++ [input.inputId] }.acknowledge input now accepted
        errorCode) := by
  refine ⟨h.recent_eq, h.record_nodup, ⟨s.delivered ++ [input.inputId], ?_, ?_⟩, ?_,
    h.written_nodup, h.handed_nodup, ?_, ?_, ?_, ?_, h.interactive⟩
  · exact (List.append_nil _).symm
  · exact h.record_sublist.trans (List.sublist_append_left _ _)
  · intro handling hsome
    cases hsome
  · intro hrun id hid
    rcases h.handed_known hrun id hid with hrecord | hover | ⟨_, _, hin, -⟩
    · exact .inl hrecord
    · exact .inr (.inl hover)
    · rw [hidle] at hin
      cases hin
  · intro hrun input' hsending
    cases hsending
  · intro input' hfailed
    cases hfailed
  · intro hchild
    obtain ⟨hinput, -, hrest⟩ := h.not_started hchild
    exact ⟨hinput, rfl, hrest⟩

/-- A remembered id is found, as long as it is asked for in its window. -/
theorem Invariant.mem_recent (h : Invariant record s) {id : Text} (hid : id ∈ record)
    (hwindow : id ∈ s.delivered → othersSince id s.delivered < recentInputLimit) :
    id ∈ s.current.recentInputIds := by
  rw [h.recent_eq]
  exact mem_newest_of_othersSince h.record_sublist h.record_nodup hid
    (hwindow (h.record_sublist.subset hid))

theorem executionInput_addSensitiveValue (current : ActiveTask) (input : TaskInputPayload) :
    (current.addSensitiveValue input).executionInput = current.executionInput ∧
      (current.addSensitiveValue input).recentInputIds = current.recentInputIds ∧
      (current.addSensitiveValue input).interactiveInputEnabled
        = current.interactiveInputEnabled := by
  rw [ActiveTask.addSensitiveValue]
  split
  · exact ⟨rfl, rfl, rfl⟩
  · exact ⟨rfl, rfl, rfl⟩

/-- No message comes again when the wait for one with its id has run out before. -/
def NotOverdue (s : State) (input : TaskInputPayload) : Prop :=
  s.current.isAddressed input = true → input.inputId ∉ s.overdue

theorem invariant_deliver (h : Invariant record s) (hidle : s.handling = none)
    {input : TaskInputPayload} (hwindow : WithinWindow s input) (hnot : NotOverdue s input)
    (now : Text) : Invariant record (s.deliver input now) := by
  rw [State.deliver]
  split
  · exact h
  · rename_i haddressed
    have haddressed := Bool.eq_true_of_not_eq_false haddressed
    dsimp only
    split
    · exact h.acknowledge_idle hidle input now _ _
    · split
      · exact h.acknowledge_idle hidle input now _ _
      · split
        · exact h.acknowledge_idle hidle input now _ _
        · rename_i hinteractive hopen hrecent
          obtain ⟨hinput, hids, hmode⟩ := executionInput_addSensitiveValue s.current input
          have hnew : input.inputId ∉ record := 
            fun hid => hrecent (List.contains_iff_mem.mpr (h.mem_recent hid (hwindow haddressed)))
          refine ⟨hids.trans h.recent_eq, h.record_nodup,
            ⟨s.delivered, rfl, h.record_sublist⟩, ?_, h.written_nodup, h.handed_nodup, ?_, ?_, ?_,
            ?_, ?_⟩
          · intro handling hsome
            obtain rfl := Option.some.inj hsome
            exact hnew
          · intro hrun id hid
            rcases h.handed_known hrun id hid with hrecord | hover | ⟨_, _, hin, -⟩
            · exact .inl hrecord
            · exact .inr (.inl hover)
            · rw [hidle] at hin
              cases hin
          · intro hrun input' hsending hid
            cases hsending
            rcases h.handed_known hrun _ hid with hrecord | hover | ⟨_, _, hin, -⟩
            · exact hnew hrecord
            · exact hnot haddressed hover
            · rw [hidle] at hin
              cases hin
          · intro input' hfailed
            cases hfailed
          · intro hchild
            exact absurd (h.not_started hchild).1 hopen
          · intro hexecution
            exact hmode.trans (h.interactive (hinput.symm.trans hexecution))

theorem invariant_send (h : Invariant record s) {input : TaskInputPayload}
    (hhandling : s.handling = some (.sending input)) : Invariant record (s.send input) := by
  have hids : (s.send input).handlingIds = s.handlingIds := by
    rw [State.handlingIds, State.handlingIds, hhandling]
    rfl
  have hhanded : (s.send input).handed = s.handed ++ [input.inputId] := by
    simp [State.handed, State.send, executionInput]
  obtain ⟨ids, heq, hrecord⟩ := h.delivered_eq
  refine ⟨h.recent_eq, h.record_nodup, ⟨ids, ?_, hrecord⟩, ?_, h.written_nodup, ?_, ?_, ?_, ?_, ?_,
    h.interactive⟩
  · rw [hids]
    exact heq
  · intro handling hsome
    obtain rfl := Option.some.inj hsome
    exact h.handling_new (.sending input) hhandling
  · intro hrun
    rw [hhanded]
    refine List.nodup_append.mpr ⟨h.handed_nodup hrun, List.nodup_singleton _, ?_⟩
    intro id hid id' hid' hsame
    rw [List.mem_singleton.mp hid'] at hsame
    exact h.sending_new hrun input hhandling (hsame ▸ hid)
  · intro hrun id hid
    rw [hhanded] at hid
    rcases List.mem_append.mp hid with hid | hid
    · rcases h.handed_known hrun id hid with hrecord | hover | ⟨_, _, hin, -⟩
      · exact .inl hrecord
      · exact .inr (.inl hover)
      · rw [hhandling] at hin
        cases hin
    · exact .inr (.inr ⟨input, none, rfl, (List.mem_singleton.mp hid).symm⟩)
  · intro _ input' hsending
    cases hsending
  · intro input' hfailed
    cases hfailed
  · intro hchild
    have hnone := (h.not_started hchild).2.1
    rw [hhandling] at hnone
    cases hnone

/-- The end of a call whose line the child cannot write any more. -/
theorem invariant_finishRejected (h : Invariant record s) {handling : Handling}
    (hhandling : s.handling = some handling) (hstopped : s.child.running = false)
    (input : TaskInputPayload) (now : Text) : Invariant record (s.finishRejected input now) := by
  obtain ⟨ids, heq, hrecord⟩ := h.delivered_eq
  have hstop : ∀ {p : Prop}, s.child.running = true → p := by
    intro p hrun
    rw [hstopped] at hrun
    exact absurd hrun Bool.false_ne_true
  refine ⟨h.recent_eq, h.record_nodup, ⟨s.delivered, (List.append_nil _).symm, h.record_sublist⟩,
    ?_, h.written_nodup, fun hrun => hstop hrun, fun hrun => hstop hrun, fun hrun => hstop hrun,
    ?_, ?_, h.interactive⟩
  · intro handling hsome
    cases hsome
  · intro input' hfailed
    cases hfailed
  · intro hchild
    have hnone := (h.not_started hchild).2.1
    rw [hhandling] at hnone
    cases hnone

theorem invariant_finishAccepted (h : Invariant record s) {input : TaskInputPayload}
    (hhandling : s.handling = some (.awaiting input (some true))) (now : Text) :
    Invariant (record ++ [input.inputId]) (s.finishAccepted input now) := by
  obtain ⟨ids, heq, hrecord⟩ := h.delivered_eq
  have hids : s.handlingIds = [input.inputId] := by
    rw [State.handlingIds, hhandling]
    rfl
  rw [hids] at heq
  have hnew : input.inputId ∉ record := h.handling_new _ hhandling
  refine ⟨?_, ?_, ⟨s.delivered, (List.append_nil _).symm, ?_⟩, ?_, h.written_nodup, h.handed_nodup,
    ?_, ?_, ?_, ?_, h.interactive⟩
  · show popFront recentInputLimit (s.current.recentInputIds ++ [input.inputId]) = _
    rw [h.recent_eq, popFront_newest_concat]
  · refine List.nodup_append.mpr ⟨h.record_nodup, List.nodup_singleton _, ?_⟩
    intro id hid id' hid' hsame
    rw [List.mem_singleton.mp hid'] at hsame
    exact hnew (hsame ▸ hid)
  · rw [heq]
    exact hrecord.append (List.Sublist.refl _)
  · intro handling hsome
    cases hsome
  · intro hrun id hid
    rcases h.handed_known hrun id hid with hmem | hover | ⟨input', _, hin, hid'⟩
    · exact .inl (List.mem_append_left _ hmem)
    · exact .inr (.inl hover)
    · rw [hhandling] at hin
      cases hin
      exact .inl (List.mem_append_right _ (by simp [hid']))
  · intro _ input' hsending
    cases hsending
  · intro input' hfailed
    cases hfailed
  · intro hchild
    have hnone := (h.not_started hchild).2.1
    rw [hhandling] at hnone
    cases hnone

theorem current_abandon (child : Child) :
    child.abandon.current.map ExecutionInput.inputId = child.current.map ExecutionInput.inputId ∧
      child.abandon.running = child.running ∧
      (child.abandon = .notStarted → child = .notStarted) := by
  cases child with
  | writing line => exact ⟨rfl, rfl, fun h => absurd h (by simp [Child.abandon])⟩
  | notStarted => exact ⟨rfl, rfl, fun _ => rfl⟩
  | waiting => exact ⟨rfl, rfl, fun h => h⟩
  | leaving => exact ⟨rfl, rfl, fun h => h⟩
  | gone => exact ⟨rfl, rfl, fun h => h⟩

theorem invariant_giveUp (h : Invariant record s) {input : TaskInputPayload}
    (hhandling : s.handling = some (.awaiting input none)) (now : Text) :
    Invariant record (s.giveUp input now) := by
  obtain ⟨hcurrent, hrunning, hstart⟩ := current_abandon s.child
  have hhanded : (s.giveUp input now).handed = s.handed := by
    have hchannel : (s.channel.map ExecutionInput.abandon).map ExecutionInput.inputId
        = s.channel.map ExecutionInput.inputId := by
      rw [List.map_map]
      rfl
    rw [State.handed, State.handed, List.map_append, List.map_append, List.map_append,
      List.map_append]
    show s.written.map _ ++ s.child.abandon.current.map _
      ++ (s.channel.map ExecutionInput.abandon).map _ = _
    rw [hcurrent, hchannel]
  refine ⟨h.recent_eq, h.record_nodup, ⟨s.delivered, (List.append_nil _).symm, h.record_sublist⟩,
    ?_, h.written_nodup, ?_, ?_, ?_, ?_, ?_, h.interactive⟩
  · intro handling hsome
    cases hsome
  · intro hrun
    rw [hhanded]
    exact h.handed_nodup (hrunning.symm.trans hrun)
  · intro hrun id hid
    rw [hhanded] at hid
    have hknown := h.handed_known (hrunning.symm.trans hrun) id hid
    rcases hknown with hmem | hover | ⟨input', _, hin, hid'⟩
    · exact .inl hmem
    · exact .inr (.inl (List.mem_append_left _ hover))
    · rw [hhandling] at hin
      cases hin
      exact .inr (.inl (List.mem_append_right _ (by simp [hid'])))
  · intro _ input' hsending
    cases hsending
  · intro input' hfailed
    cases hfailed
  · intro hchild
    have hnone := (h.not_started (hstart hchild)).2.1
    rw [hhandling] at hnone
    cases hnone

theorem invariant_start (h : Invariant record s) (hchild : s.child = .notStarted) :
    Invariant record s.start := by
  obtain ⟨hinput, hidle, hchannel, hwritten⟩ := h.not_started hchild
  have hnone : ∀ {handling : Handling} {p : Prop}, s.handling = some handling → p := by
    intro handling p hsome
    rw [hidle] at hsome
    cases hsome
  rw [State.start]
  split
  · rename_i hinteractive
    have hhanded : State.handed
        { s with
          current := { s.current with executionInput := true }
          child := .waiting } = [] := by
      simp [State.handed, Child.current, hchannel, hwritten]
    refine ⟨h.recent_eq, h.record_nodup, h.delivered_eq, h.handling_new, h.written_nodup,
      fun _ => ?_, fun _ id hid => ?_, fun _ input hsending => hnone hsending,
      fun input hfailed => hnone hfailed, fun hstart => absurd hstart (by simp),
      fun _ => hinteractive⟩
    · rw [hhanded]
      exact List.nodup_nil
    · rw [hhanded] at hid
      exact absurd hid List.not_mem_nil
  · exact ⟨h.recent_eq, h.record_nodup, h.delivered_eq, h.handling_new, h.written_nodup,
      fun hrun => absurd hrun Bool.noConfusion, fun hrun => absurd hrun Bool.noConfusion,
      fun hrun => absurd hrun Bool.noConfusion, fun input hfailed => hnone hfailed,
      fun hstart => absurd hstart (by simp), h.interactive⟩

theorem invariant_closeInput (h : Invariant record s) : Invariant record s.closeInput :=
  ⟨h.recent_eq, h.record_nodup, h.delivered_eq, h.handling_new, h.written_nodup, h.handed_nodup,
    h.handed_known, h.sending_new, h.failed_stopped,
    fun hchild => ⟨rfl, (h.not_started hchild).2⟩, fun hopen => absurd hopen Bool.false_ne_true⟩

/-! Runs -/

theorem invariant_step (h : Invariant record s) {t : State} (hstep : Step NotOverdue s t) :
    ∃ record', Invariant record' t := by
  cases hstep with
  | start hchild => exact ⟨record, invariant_start h hchild⟩
  | deliver input now hidle hwindow hallowed =>
      exact ⟨record, invariant_deliver h hidle hwindow hallowed now⟩
  | send input hhandling => exact ⟨record, invariant_send h hhandling⟩
  | sendFails input now hhandling hgone =>
      have hstopped : s.child.running = false := by
        rw [hgone]
        rfl
      exact ⟨record, invariant_finishRejected h hhandling hstopped input now⟩
  | take line rest hchild hchannel => exact ⟨record, invariant_take h hchild hchannel⟩
  | finishWrite line hchild => exact ⟨record, invariant_finishWrite h hchild⟩
  | leave whole hchild => exact ⟨record, invariant_leave h whole hchild⟩
  | dropReceiver => exact ⟨record, invariant_dropReceiver h⟩
  | finishAccepted input now hhandling => exact ⟨_, invariant_finishAccepted h hhandling now⟩
  | finishRejected input now hhandling =>
      exact ⟨record, invariant_finishRejected h hhandling (h.failed_stopped input hhandling) input
        now⟩
  | giveUp input now hhandling => exact ⟨record, invariant_giveUp h hhandling now⟩
  | closeInput => exact ⟨record, invariant_closeInput h⟩

theorem invariant_new (h : IsNew s) : Invariant [] s := by
  obtain ⟨hinput, hrecent, hidle, hchannel, hchild, hwritten, -, hdelivered, -⟩ := h
  have hnone : ∀ {handling : Handling} {p : Prop}, s.handling = some handling → p := by
    intro handling p hsome
    rw [hidle] at hsome
    cases hsome
  have hstop : ∀ {p : Prop}, s.child.running = true → p := by
    intro p hrun
    rw [hchild] at hrun
    exact absurd hrun Bool.false_ne_true
  refine ⟨hrecent, List.nodup_nil, ⟨[], ?_, List.Sublist.refl _⟩, fun _ hsome => hnone hsome, ?_,
    fun hrun => hstop hrun, fun hrun => hstop hrun, fun hrun => hstop hrun,
    fun _ hfailed => hnone hfailed, fun _ => ⟨hinput, hidle, hchannel, hwritten⟩, fun hopen => ?_⟩
  · rw [hdelivered, State.handlingIds, hidle]
    rfl
  · rw [hwritten]
    exact List.nodup_nil
  · rw [hinput] at hopen
    exact absurd hopen Bool.false_ne_true

def Sound (s : State) : Prop :=
  ∃ record, Invariant record s

theorem sound_of_reachable (h : (system NotOverdue).Reachable s) : Sound s := by
  refine h.invariant ?_ ?_
  · intro s hs
    exact ⟨[], invariant_new hs⟩
  · rintro s t - ⟨record, hrecord⟩ hstep
    exact invariant_step hrecord hstep

/-- The command's input can still be written to. -/
def State.open (s : State) : Prop :=
  s.current.executionInput = true ∧ s.child.running = true

/-- No line is written twice, and a message for a line that has been written is acknowledged as
accepted while the input is open. -/
structure WritesOnce (s : State) : Prop where
  written_nodup : (s.written.map ExecutionInput.inputId).Nodup
  accepts_again : ∀ input now, s.handling = none → s.open →
    s.current.isAddressed input = true → WithinWindow s input → NotOverdue s input →
    input.inputId ∈ s.written.map ExecutionInput.inputId →
    (s.deliver input now).acks = s.acks ++
      [⟨s.current.taskId, s.current.leaseToken, input.inputId, true, now, none⟩]

def emptyRedactor : SensitiveLogRedactor :=
  ⟨[], [], fun _ h => absurd h List.not_mem_nil, List.Pairwise.nil⟩

/-- A new task whose command may be typed to. -/
def newTask : State where
  current :=
    { taskId := "task".toList
      leaseToken := "lease".toList
      stdoutLogRedactor := emptyRedactor
      stderrLogRedactor := emptyRedactor
      executionInput := false
      interactiveInputEnabled := true
      recentInputIds := [] }
  handling := none
  channel := []
  child := .notStarted
  written := []
  acks := []
  delivered := []
  overdue := []

def typed : TaskInputPayload :=
  ⟨"task".toList, "lease".toList, "input".toList, "yes".toList, false, true, []⟩

theorem newTask_isNew : IsNew newTask := ⟨rfl, rfl, rfl, rfl, rfl, rfl, rfl, rfl, rfl⟩

def typedOnce : State :=
  newTask.start.deliver typed []

/-- The child has the line, and the wait for it runs out. -/
def timedOut : State :=
  ((typedOnce.send typed).take (executionInput typed) []).giveUp typed []

/-- The line comes again, and the child writes both. -/
def typedTwice : State :=
  ((((timedOut.deliver typed []).send typed).finishWrite (executionInput typed).abandon).take
    (executionInput typed) []).finishWrite (executionInput typed)

end AnvilRun.TaskInput
