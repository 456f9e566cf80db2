import AnvilRun.TaskLogSubscription

namespace AnvilRun.TaskLogSubscription

open AnvilRun.TaskLogStorage
open AnvilRun.TaskLogCodec
open AnvilRun.TaskLogRoundTrip

/-- The entries with the offsets they have in a log, from the first one on. -/
def placed : Nat → List TaskLogEntry → List TaskLogBroadcastEvent
  | _, [] => []
  | offset, e :: entries =>
      ⟨offset, offset + (encodeEntry e).length, e⟩ ::
        placed (offset + (encodeEntry e).length) entries

@[simp]
theorem placed_nil (offset : Nat) : placed offset [] = [] := rfl

theorem placed_append (offset : Nat) (xs ys : List TaskLogEntry) :
    placed offset (xs ++ ys) = placed offset xs ++ placed (offset + (fileBytes xs).length) ys := by
  induction xs generalizing offset with
  | nil => simp
  | cons x xs ih =>
      simp only [List.cons_append, placed, ih, fileBytes_cons, List.length_append, Nat.add_assoc]

theorem length_fileBytes_append (xs ys : List TaskLogEntry) :
    (fileBytes (xs ++ ys)).length = (fileBytes xs).length + (fileBytes ys).length := by
  rw [fileBytes_append, List.length_append]

theorem placed_fileBytes_append (pre xs ys : List TaskLogEntry) :
    placed (fileBytes pre).length (xs ++ ys) =
      placed (fileBytes pre).length xs ++ placed (fileBytes (pre ++ xs)).length ys := by
  rw [placed_append, length_fileBytes_append]

theorem bounds_of_mem_placed {event : TaskLogBroadcastEvent} {entries : List TaskLogEntry}
    {offset : Nat} (h : event ∈ placed offset entries) :
    offset ≤ event.offset ∧ event.offset < event.nextOffset ∧
      event.nextOffset ≤ offset + (fileBytes entries).length := by
  induction entries generalizing offset with
  | nil => simp at h
  | cons e entries ih =>
      have hpos := length_encodeEntry_pos e
      rw [fileBytes_cons, List.length_append]
      rcases List.mem_cons.mp h with rfl | h
      · dsimp only
        omega
      · have := ih h
        omega

/-- An event of placed entries stands at the boundary behind those before it. -/
theorem exists_of_mem_placed {event : TaskLogBroadcastEvent} {pre post : List TaskLogEntry}
    (h : event ∈ placed (fileBytes pre).length post) :
    ∃ xs ys, post = xs ++ event.entry :: ys ∧ event.offset = (fileBytes (pre ++ xs)).length ∧
      event.nextOffset = (fileBytes (pre ++ xs ++ [event.entry])).length := by
  induction post generalizing pre with
  | nil => simp at h
  | cons e post ih =>
      have hnext : (fileBytes pre).length + (encodeEntry e).length
          = (fileBytes (pre ++ [e])).length := by
        rw [length_fileBytes_append, fileBytes_cons, fileBytes_nil, List.append_nil]
      rw [placed, hnext] at h
      rcases List.mem_cons.mp h with rfl | h
      · exact ⟨[], post, rfl, by simp, by simp⟩
      · obtain ⟨xs, ys, rfl, hoffset, hend⟩ := ih h
        refine ⟨e :: xs, ys, rfl, ?_, ?_⟩
        · rw [hoffset, List.append_assoc]
          rfl
        · rw [hend, List.append_assoc, List.append_assoc, List.append_assoc]
          rfl

/-- The events of the entries that are stored at or after an offset. -/
def storedFrom (offset : Nat) (stored : List TaskLogEntry) : List TaskLogBroadcastEvent :=
  (placed 0 stored).filter (fun event => decide (offset ≤ event.offset))

theorem storedFrom_boundary (pre post : List TaskLogEntry) :
    storedFrom (fileBytes pre).length (pre ++ post) = placed (fileBytes pre).length post := by
  rw [storedFrom, placed_append, List.filter_append, Nat.zero_add]
  have hpre : (placed 0 pre).filter (fun event => decide ((fileBytes pre).length ≤ event.offset))
      = [] := by
    rw [List.filter_eq_nil_iff]
    intro event hevent
    have := bounds_of_mem_placed hevent
    simp only [decide_eq_true_eq]
    omega
  have hpost : (placed (fileBytes pre).length post).filter
      (fun event => decide ((fileBytes pre).length ≤ event.offset))
      = placed (fileBytes pre).length post := by
    rw [List.filter_eq_self]
    intro event hevent
    exact decide_eq_true (bounds_of_mem_placed hevent).1
  rw [hpre, hpost, List.nil_append]

theorem map_entry_placed (offset : Nat) (entries : List TaskLogEntry) :
    (placed offset entries).map (fun event => event.entry) = entries := by
  induction entries generalizing offset with
  | nil => rfl
  | cons e entries ih => simp only [placed, List.map_cons, ih]

/-! The loops of the handler -/

/-- What a page holds in front of the target is sent. -/
theorem sendEntries_append {targetOffset cursor : Nat} (xs ys : List TaskLogEntry)
    (h : cursor + (fileBytes xs).length ≤ targetOffset) :
    sendEntries targetOffset (xs ++ ys) cursor =
      (placed cursor xs ++ (sendEntries targetOffset ys (cursor + (fileBytes xs).length)).1,
        (sendEntries targetOffset ys (cursor + (fileBytes xs).length)).2) := by
  induction xs generalizing cursor with
  | nil => simp
  | cons x xs ih =>
      have hpos := length_encodeEntry_pos x
      rw [fileBytes_cons, List.length_append] at h ⊢
      have hin : ¬ targetOffset ≤ cursor := by omega
      have hrest := @ih (cursor + (encodeEntry x).length) (by omega)
      simp only [List.cons_append, sendEntries, if_neg hin, hrest, placed, Nat.add_assoc]

theorem sendEntries_target (targetOffset : Nat) (entries : List TaskLogEntry) :
    sendEntries targetOffset entries targetOffset = ([], targetOffset) := by
  cases entries with
  | nil => rfl
  | cons e entries => rw [sendEntries, if_pos (Nat.le_refl _)]

theorem sendQueued_skip {events : List TaskLogBroadcastEvent} {cursor : Nat}
    (h : ∀ event ∈ events, event.offset < cursor) (rest : List TaskLogBroadcastEvent) :
    sendQueued (events ++ rest) cursor = sendQueued rest cursor := by
  induction events with
  | nil => rfl
  | cons event events ih =>
      have hskip : ¬ (cursor ≤ event.offset ∧ cursor < event.nextOffset) :=
        fun hsent => Nat.not_lt.mpr hsent.1 (h event (List.mem_cons_self ..))
      rw [List.cons_append, sendQueued, if_neg hskip]
      exact ih (fun other hother => h other (List.mem_cons_of_mem _ hother))

theorem sendQueued_placed (cursor : Nat) (entries : List TaskLogEntry) :
    sendQueued (placed cursor entries) cursor = placed cursor entries := by
  induction entries generalizing cursor with
  | nil => rfl
  | cons e entries ih =>
      have hsent : cursor ≤ cursor ∧ cursor < cursor + (encodeEntry e).length := by
        have := length_encodeEntry_pos e
        omega
      rw [placed, sendQueued, if_pos hsent, ih]

/-! The service -/

/-- A log whose cached state is that of its file. -/
theorem getState_cached {file : Option (List UInt8)} {entries : List TaskLogEntry}
    (hfile : file.getD [] = fileBytes entries) :
    TaskLogStorage.getState ⟨file, some (fullState entries)⟩ (some (fullState entries)) =
      .ok (fullState entries, ⟨file, some (fullState entries)⟩) := by
  have hsize : file.map List.length = some (fullState entries).size ∨
      file = none ∧ (fullState entries).size = 0 := by
    cases file with
    | none =>
        refine Or.inr ⟨rfl, ?_⟩
        rw [fullState, ← hfile]
        rfl
    | some bytes =>
        left
        rw [fullState, ← hfile]
        rfl
  rw [TaskLogStorage.getState]
  dsimp only
  rw [if_pos ⟨Or.inr rfl, hsize⟩]

theorem Finds.cached {file : Option (List UInt8)} {entries : List TaskLogEntry}
    (happended : Appended entries) (hfile : file.getD [] = fileBytes entries)
    (redactor : ServerRedactor.ServerLogRedactor) :
    Finds ⟨⟨file, some (fullState entries)⟩, fullState entries, redactor⟩ entries :=
  ⟨happended, file, getState_cached hfile, hfile⟩

variable {logs logs' : TaskLogs} {stored : List TaskLogEntry}

/-- What both calls of the service start with. -/
theorem Finds.getState (h : Finds logs stored) :
    ∃ file, logs.getState = .ok (fullState stored,
      ⟨⟨file, some (fullState stored)⟩, fullState stored, logs.redactor⟩) ∧
      file.getD [] = fileBytes stored := by
  obtain ⟨file, hfound, hfile⟩ := h.found
  refine ⟨file, ?_, hfile⟩
  rw [TaskLogs.getState, hfound]

/-- An entry that the storage takes fits the log. -/
theorem appended_of_append {file : Option (List UInt8)} {e : TaskLogEntry} {nextOffset : Nat}
    {log : TaskLog} (happended : Appended stored) (hfile : file.getD [] = fileBytes stored)
    (hsequence : e.sequence = stored.length + 1)
    (h : TaskLogStorage.append .completed ⟨file, some (fullState stored)⟩ e
      = (.ok nextOffset, log)) :
    Appended (stored ++ [e]) := by
  have hbytes : (⟨file, some (fullState stored)⟩ : TaskLog).bytes = fileBytes stored := hfile
  simp only [TaskLogStorage.append, currentState, appendAttempts, hbytes] at h
  simp only [fullState, hsequence, ne_eq, not_true_eq_false, if_false] at h
  split_ifs at h with hlarge hfull
  · simp at h
  · simp at h
  · refine ⟨contiguous_append.mpr ⟨happended.contiguous, ?_, trivial⟩, ?_, ?_⟩
    · rw [hsequence, Nat.zero_add]
    · intro x hx
      rcases List.mem_append.mp hx with hx | hx
      · exact happended.entrySize x hx
      · rw [List.mem_singleton.mp hx]
        exact Nat.not_lt.mp hlarge
    · rw [length_fileBytes_append, fileBytes_cons, fileBytes_nil, List.append_nil]
      omega

/-- What an append does: nothing, or it stores the entry of the payload and makes the event of it.
-/
theorem Finds.appendFromAgent (h : Finds logs stored) {payload : TaskLogPayload} {ack : Ack}
    {event : Option TaskLogBroadcastEvent}
    (happend : logs.appendFromAgent payload = some (ack, logs', event)) :
    event = none ∧ Finds logs' stored ∨
      payload.sequence = stored.length + 1 ∧
        event = some ⟨(fileBytes stored).length,
          (fileBytes (stored ++ [logs.entryOf payload])).length, logs.entryOf payload⟩ ∧
        Finds logs' (stored ++ [logs.entryOf payload]) := by
  obtain ⟨file, hstate, hfile⟩ := h.getState
  rw [TaskLogs.appendFromAgent, hstate] at happend
  dsimp only at happend
  split_ifs at happend with hchunk hsequence
  · cases happend
    exact Or.inl ⟨rfl, Finds.cached h.appended hfile logs.redactor⟩
  · right
    have hnumber : payload.sequence = stored.length + 1 := Decidable.not_not.mp hsequence
    have hentry : (⟨⟨file, some (fullState stored)⟩, fullState stored, logs.redactor⟩ :
        TaskLogs).entryOf payload = logs.entryOf payload := rfl
    rw [hentry] at happend
    cases hresult : TaskLogStorage.append .completed ⟨file, some (fullState stored)⟩
        (logs.entryOf payload) with
    | mk result log =>
      rw [hresult] at happend
      cases result with
      | error error => simp at happend
      | ok nextOffset =>
          have happended := appended_of_append h.appended hfile hnumber hresult
          have hholds : Holds ⟨file, some (fullState stored)⟩ stored := ⟨hfile, Or.inr rfl⟩
          have hstore := append_holds hholds happended (fun hnone => by simp at hnone)
          rw [hresult] at hstore
          simp only [Prod.mk.injEq, Except.ok.injEq] at hstore
          obtain ⟨rfl, rfl⟩ := hstore
          dsimp only at happend
          simp only [Option.some.injEq, Prod.mk.injEq] at happend
          obtain ⟨-, rfl, rfl⟩ := happend
          refine ⟨hnumber, rfl, ?_⟩
          have hrow : (⟨(fileBytes (stored ++ [logs.entryOf payload])).length, payload.sequence⟩ :
              TaskLogFileState) = fullState (stored ++ [logs.entryOf payload]) := by
            rw [fullState, hnumber, List.length_append, List.length_singleton]
          rw [hrow]
          exact Finds.cached happended rfl _

/-- A history page from the boundary behind `pre`. -/
theorem Finds.readHistory {pre post : List TaskLogEntry} (h : Finds logs (pre ++ post))
    (hclean : ∀ e ∈ post, CleanEntry e) {limit : Nat} (hpos : 0 < limit)
    (hlimit : limit ≤ JsNumber.maxSafeInteger) :
    ∃ logs', logs.readHistory (fileBytes pre).length limit =
      .ok (⟨(fileBytes pre).length, pageOf pre post limit⟩, logs') ∧ Finds logs' (pre ++ post) := by
  obtain ⟨file, hstate, hfile⟩ := h.getState
  have hholds : Holds ⟨file, some (fullState (pre ++ post))⟩ (pre ++ post) := ⟨hfile, Or.inr rfl⟩
  have hread := read_eq hholds h.appended (fun hnone => by simp at hnone) hclean hpos hlimit
  refine ⟨⟨⟨file, some (fullState (pre ++ post))⟩, fullState (pre ++ post), logs.redactor⟩, ?_,
    Finds.cached h.appended hfile logs.redactor⟩
  rw [TaskLogs.readHistory, hstate]
  dsimp only [bind, Except.bind]
  rw [hread]
  rfl

/-! The handler among appends -/

/-- How far the handler is. Behind the entries `pre` in front of the subscription come those it has
sent, those up to its target, and those behind the target; the queue holds those stored since the
subscription. -/
structure Catching (s : State) (pre sent todo more : List TaskLogEntry) : Prop where
  stored_eq : s.stored = pre ++ (sent ++ todo ++ more)
  sent_eq : s.sent = placed (fileBytes pre).length sent
  queued_eq : ∃ seen caught, sent ++ todo = seen ++ caught ∧
    s.queued = placed (fileBytes (pre ++ seen)).length (caught ++ more)

/-- What holds in each place of the handler. -/
inductive Delivers (pre : List TaskLogEntry) (s : State) : Prop
  | readingFirst {todo more : List TaskLogEntry}
      (hphase : s.phase = .readingFirst (fileBytes pre).length)
      (h : Catching s pre [] todo more) : Delivers pre s
  | gotFirst {todo more : List TaskLogEntry}
      (hphase : s.phase = .gotFirst ⟨(fileBytes pre).length, pageOf pre todo historyLimit⟩)
      (h : Catching s pre [] todo more) : Delivers pre s
  | reading {sent todo more : List TaskLogEntry}
      (hphase : s.phase =
        .reading (fileBytes (pre ++ sent)).length (fileBytes (pre ++ (sent ++ todo))).length)
      (htodo : todo ≠ []) (h : Catching s pre sent todo more) : Delivers pre s
  | got {sent todo known later : List TaskLogEntry}
      (hphase : s.phase =
        .got (fileBytes (pre ++ sent)).length (fileBytes (pre ++ (sent ++ todo))).length
          ⟨(fileBytes (pre ++ sent)).length, pageOf (pre ++ sent) (todo ++ known) historyLimit⟩)
      (htodo : todo ≠ []) (h : Catching s pre sent todo (known ++ later)) : Delivers pre s
  | live {post : List TaskLogEntry} (hphase : s.phase = .live) (hstored : s.stored = pre ++ post)
      (hsent : s.sent = placed (fileBytes pre).length post) : Delivers pre s

variable {s : State} {pre sent todo more : List TaskLogEntry}

/-- The switch to live delivery skips the queued events that history has covered. -/
theorem Catching.goLive (h : Catching s pre sent [] more) :
    Delivers pre (s.goLive (fileBytes (pre ++ sent)).length) := by
  obtain ⟨seen, caught, hsplit, hqueued⟩ := h.queued_eq
  rw [List.append_nil] at hsplit
  have hboundary : (fileBytes (pre ++ seen)).length + (fileBytes caught).length
      = (fileBytes (pre ++ sent)).length := by
    rw [hsplit, ← List.append_assoc, length_fileBytes_append (pre ++ seen)]
  have hskip : ∀ event ∈ placed (fileBytes (pre ++ seen)).length caught,
      event.offset < (fileBytes (pre ++ sent)).length := by
    intro event hevent
    have := bounds_of_mem_placed hevent
    omega
  have hstored := h.stored_eq
  rw [List.append_nil] at hstored
  refine @Delivers.live pre _ (sent ++ more) rfl hstored ?_
  change s.sent ++ sendQueued s.queued _ = _
  rw [hqueued, placed_append, hboundary, sendQueued_skip hskip, sendQueued_placed, h.sent_eq,
    placed_fileBytes_append]

/-- A page moves the entries it holds from those to do to those sent. -/
theorem Catching.take {page rest : List TaskLogEntry} (h : Catching s pre sent (page ++ rest) more)
    (phase : Phase) :
    Catching { s with
      phase
      sent := s.sent ++ placed (fileBytes (pre ++ sent)).length page }
      pre (sent ++ page) rest more := by
  refine ⟨?_, ?_, ?_⟩
  · rw [List.append_assoc sent]
    exact h.stored_eq
  · change s.sent ++ _ = _
    rw [h.sent_eq, placed_fileBytes_append]
  · rw [List.append_assoc]
    exact h.queued_eq

/-- Sending a page either ends in live delivery or leaves less to do. -/
theorem Catching.sendPage {page rest known : List TaskLogEntry} (h : Catching s pre sent todo more)
    (hpage : todo ++ known = page ++ rest) (hprogress : todo ≠ [] → page ≠ []) :
    let t := s.sendPage (fileBytes (pre ++ sent)).length (fileBytes (pre ++ (sent ++ todo))).length
      page
    Delivers pre t ∧ (t.phase = .live ∨ ∃ sent' todo', Catching t pre sent' todo' more ∧
      t.phase = .reading (fileBytes (pre ++ sent')).length
        (fileBytes (pre ++ (sent' ++ todo'))).length ∧
      todo' ≠ [] ∧ todo'.length < todo.length) := by
  have htarget : (fileBytes (pre ++ sent)).length + (fileBytes todo).length
      = (fileBytes (pre ++ (sent ++ todo))).length := by
    rw [← List.append_assoc, length_fileBytes_append (pre ++ sent)]
  rcases List.append_eq_append_iff.mp hpage with ⟨extra, rfl, -⟩ | ⟨left, rfl, -⟩
  · have hloop := sendEntries_append todo extra htarget.le
    rw [htarget, sendEntries_target, List.append_nil] at hloop
    have hnone : Catching s pre sent (todo ++ []) more := by rwa [List.append_nil]
    rw [State.sendPage, hloop]
    simp only [Nat.le_refl, if_true]
    exact ⟨(hnone.take s.phase).goLive, Or.inl rfl⟩
  · rw [length_fileBytes_append page, ← Nat.add_assoc] at htarget
    have hloop := @sendEntries_append (fileBytes (pre ++ (sent ++ (page ++ left)))).length
      (fileBytes (pre ++ sent)).length page [] (by omega)
    have hcursor : (fileBytes (pre ++ sent)).length + (fileBytes page).length
        = (fileBytes (pre ++ (sent ++ page))).length := by
      rw [← List.append_assoc, length_fileBytes_append (pre ++ sent)]
    rw [hcursor] at hloop htarget
    simp only [List.append_nil, sendEntries] at hloop
    rw [State.sendPage, hloop]
    dsimp only
    cases left with
    | nil =>
        rw [fileBytes_nil, List.length_nil, Nat.add_zero] at htarget
        rw [if_pos htarget.ge]
        exact ⟨(h.take s.phase).goLive, Or.inl rfl⟩
    | cons e left =>
        have hpos := length_encodeEntry_pos e
        rw [fileBytes_cons, List.length_append] at htarget
        have hshort : page ≠ [] := hprogress (by simp)
        rw [if_neg (by omega)]
        have hnext := h.take (.reading (fileBytes (pre ++ (sent ++ page))).length
          (fileBytes (pre ++ (sent ++ (page ++ e :: left)))).length)
        have hphase : Phase.reading (fileBytes (pre ++ (sent ++ page))).length
            (fileBytes (pre ++ (sent ++ (page ++ e :: left)))).length
            = .reading (fileBytes (pre ++ (sent ++ page))).length
              (fileBytes (pre ++ (sent ++ page ++ e :: left))).length := by
          rw [List.append_assoc sent]
        refine ⟨.reading hphase (by simp) hnext, Or.inr ⟨sent ++ page, e :: left, hnext, hphase,
          by simp, ?_⟩⟩
        have := List.length_pos_iff.mpr hshort
        rw [List.length_append]
        omega

@[simp]
theorem sendPage_stored (s : State) (cursor targetOffset : Nat) (entries : List TaskLogEntry) :
    (s.sendPage cursor targetOffset entries).stored = s.stored := by
  rw [State.sendPage]
  dsimp only
  split_ifs <;> rfl

@[simp]
theorem sendPage_start (s : State) (cursor targetOffset : Nat) (entries : List TaskLogEntry) :
    (s.sendPage cursor targetOffset entries).start = s.start := by
  rw [State.sendPage]
  dsimp only
  split_ifs <;> rfl

@[simp]
theorem sendPage_logs (s : State) (cursor targetOffset : Nat) (entries : List TaskLogEntry) :
    (s.sendPage cursor targetOffset entries).logs = s.logs := by
  rw [State.sendPage]
  dsimp only
  split_ifs <;> rfl

/-- The state of a subscription from the boundary behind `pre`. -/
structure Subscribed (pre : List TaskLogEntry) (s : State) : Prop where
  finds : Finds s.logs s.stored
  clean : ∃ post, s.stored = pre ++ post ∧ ∀ e ∈ post, CleanEntry e
  start_eq : s.start = (fileBytes pre).length
  delivers : Delivers pre s

theorem Subscribed.clean_of_eq (h : Subscribed pre s) {post : List TaskLogEntry}
    (hstored : s.stored = pre ++ post) : ∀ e ∈ post, CleanEntry e := by
  obtain ⟨post', hpost', hclean⟩ := h.clean
  rwa [List.append_cancel_left (hstored.symm.trans hpost')]

/-- A read of the handler returns the page behind what it has sent. -/
theorem Subscribed.readHistory (h : Subscribed pre s) (hcatching : Catching s pre sent todo more) :
    ∃ logs, s.logs.readHistory (fileBytes (pre ++ sent)).length historyLimit =
      .ok (⟨(fileBytes (pre ++ sent)).length, pageOf (pre ++ sent) (todo ++ more) historyLimit⟩,
        logs) ∧ Finds logs s.stored := by
  have hstored : s.stored = pre ++ sent ++ (todo ++ more) := by
    rw [hcatching.stored_eq]
    simp only [List.append_assoc]
  have hfinds := h.finds
  rw [hstored] at hfinds ⊢
  refine hfinds.readHistory (fun e he => ?_) (by decide) (by decide)
  exact h.clean_of_eq hcatching.stored_eq e (by
    rw [List.append_assoc]
    exact List.mem_append_right sent he)

/-- The page of the handler holds the entries behind what it has sent. -/
theorem Subscribed.page (h : Subscribed pre s) {known later : List TaskLogEntry}
    (hcatching : Catching s pre sent todo (known ++ later)) :
    ∃ rest, todo ++ known = (pageOf (pre ++ sent) (todo ++ known) historyLimit).entries ++ rest ∧
      (todo ≠ [] → (pageOf (pre ++ sent) (todo ++ known) historyLimit).entries ≠ []) ∧
      (todo ≠ [] → (fileBytes (pre ++ sent)).length <
        (pageOf (pre ++ sent) (todo ++ known) historyLimit).nextOffset) := by
  have happended := h.finds.appended
  have hstored : s.stored = pre ++ sent ++ (todo ++ known) ++ later := by
    rw [hcatching.stored_eq]
    simp only [List.append_assoc]
  rw [hstored] at happended
  obtain ⟨rest, hpage, hprogress, hnext⟩ :=
    exists_page (pre ++ sent) (todo ++ known) historyLimit happended.of_append
  have hshort : todo ≠ [] →
      (pageOf (pre ++ sent) (todo ++ known) historyLimit).entries ≠ [] :=
    fun htodo => hprogress (by simp [htodo])
  refine ⟨rest, hpage, hshort, fun htodo => ?_⟩
  have hpos := length_le_length_fileBytes
    (pageOf (pre ++ sent) (todo ++ known) historyLimit).entries
  have := List.length_pos_iff.mpr (hshort htodo)
  rw [hnext, length_fileBytes_append (pre ++ sent)]
  omega

/-- From a place in front of a page of the catch-up. -/
theorem Subscribed.advance_got (h : Subscribed pre s) {known later : List TaskLogEntry}
    (hphase : s.phase =
      .got (fileBytes (pre ++ sent)).length (fileBytes (pre ++ (sent ++ todo))).length
        ⟨(fileBytes (pre ++ sent)).length, pageOf (pre ++ sent) (todo ++ known) historyLimit⟩)
    (htodo : todo ≠ []) (hcatching : Catching s pre sent todo (known ++ later)) :
    s.advance = s.sendPage (fileBytes (pre ++ sent)).length
      (fileBytes (pre ++ (sent ++ todo))).length
      (pageOf (pre ++ sent) (todo ++ known) historyLimit).entries := by
  obtain ⟨rest, hpage, hshort, hnext⟩ := h.page hcatching
  have hprogress : ¬ ((pageOf (pre ++ sent) (todo ++ known) historyLimit).entries = [] ∨
      (pageOf (pre ++ sent) (todo ++ known) historyLimit).nextOffset ≤
        (fileBytes (pre ++ sent)).length) :=
    not_or.mpr ⟨hshort htodo, Nat.not_le.mpr (hnext htodo)⟩
  rw [State.advance, hphase]
  exact if_neg hprogress

/-- The first read sets the target behind all that is stored. -/
theorem Subscribed.advance_readingFirst (h : Subscribed pre s)
    (hphase : s.phase = .readingFirst (fileBytes pre).length)
    (hcatching : Catching s pre [] todo more) :
    ∃ logs, Finds logs s.stored ∧ Catching s.advance pre [] (todo ++ more) [] ∧
      s.advance = { s with
        logs
        phase := .gotFirst
          ⟨(fileBytes pre).length, pageOf pre (todo ++ more) historyLimit⟩ } := by
  obtain ⟨seen, caught, hsplit, hqueued⟩ := hcatching.queued_eq
  have hstored : s.stored = pre ++ ([] ++ (todo ++ more) ++ []) := by
    rw [hcatching.stored_eq, List.append_nil]
    rfl
  have hqueue : ∃ seen caught, [] ++ (todo ++ more) = seen ++ caught ∧
      s.queued = placed (fileBytes (pre ++ seen)).length (caught ++ []) := by
    refine ⟨seen, caught ++ more, ?_, ?_⟩
    · rw [← List.append_assoc seen, ← hsplit, List.append_assoc]
    · rw [hqueued, List.append_nil]
  obtain ⟨logs, hread, hfinds⟩ := h.readHistory ⟨hstored, hcatching.sent_eq, hqueue⟩
  rw [List.append_nil, List.append_nil] at hread
  have hadvance : s.advance = { s with
      logs
      phase := .gotFirst ⟨(fileBytes pre).length, pageOf pre (todo ++ more) historyLimit⟩ } := by
    rw [State.advance, hphase]
    dsimp only
    rw [hread]
  refine ⟨logs, hfinds, ?_, hadvance⟩
  rw [hadvance]
  exact ⟨hstored, hcatching.sent_eq, hqueue⟩

/-- From the place in front of the first page, which reaches up to its target. -/
theorem Subscribed.advance_gotFirst (h : Subscribed pre s)
    (hphase : s.phase = .gotFirst ⟨(fileBytes pre).length, pageOf pre todo historyLimit⟩)
    (hcatching : Catching s pre [] todo more) :
    ∃ rest, todo ++ [] = (pageOf pre todo historyLimit).entries ++ rest ∧
      (todo ≠ [] → (pageOf pre todo historyLimit).entries ≠ []) ∧
      s.advance = s.sendPage (fileBytes (pre ++ [])).length (fileBytes (pre ++ ([] ++ todo))).length
        (pageOf pre todo historyLimit).entries := by
  have hknown : Catching s pre [] todo ([] ++ more) := hcatching
  obtain ⟨rest, hpage, hshort, -⟩ := h.page hknown
  simp only [List.append_nil] at hpage hshort
  refine ⟨rest, by rwa [List.append_nil], hshort, ?_⟩
  rw [State.advance, hphase, List.append_nil]
  rfl

theorem Subscribed.sendPage (h : Subscribed pre s) {cursor targetOffset : Nat}
    {entries : List TaskLogEntry}
    (hdelivers : Delivers pre (s.sendPage cursor targetOffset entries)) :
    Subscribed pre (s.sendPage cursor targetOffset entries) := by
  refine ⟨?_, ?_, ?_, hdelivers⟩
  · simpa only [sendPage_logs, sendPage_stored] using h.finds
  · simpa only [sendPage_stored] using h.clean
  · simpa only [sendPage_start] using h.start_eq

/-- From a place in front of a read of the catch-up. -/
theorem Subscribed.advance_reading (h : Subscribed pre s)
    (hphase : s.phase =
      .reading (fileBytes (pre ++ sent)).length (fileBytes (pre ++ (sent ++ todo))).length)
    (hcatching : Catching s pre sent todo more) :
    ∃ logs, Finds logs s.stored ∧ s.advance = { s with
      logs
      phase := .got (fileBytes (pre ++ sent)).length (fileBytes (pre ++ (sent ++ todo))).length
        ⟨(fileBytes (pre ++ sent)).length,
          pageOf (pre ++ sent) (todo ++ more) historyLimit⟩ } := by
  obtain ⟨logs, hread, hfinds⟩ := h.readHistory hcatching
  refine ⟨logs, hfinds, ?_⟩
  rw [State.advance, hphase]
  dsimp only
  rw [hread]

theorem Subscribed.advance (h : Subscribed pre s) : Subscribed pre s.advance := by
  cases h.delivers with
  | @readingFirst todo more hphase hcatching =>
      obtain ⟨logs, hfinds, hcatching', hadvance⟩ := h.advance_readingFirst hphase hcatching
      rw [hadvance] at hcatching' ⊢
      exact ⟨hfinds, h.clean, h.start_eq, .gotFirst rfl hcatching'⟩
  | @gotFirst todo more hphase hcatching =>
      obtain ⟨rest, hpage, hshort, hsend⟩ := h.advance_gotFirst hphase hcatching
      rw [hsend]
      exact h.sendPage (hcatching.sendPage hpage hshort).1
  | @reading sent todo more hphase htodo hcatching =>
      obtain ⟨logs, hfinds, hadvance⟩ := h.advance_reading hphase hcatching
      rw [hadvance]
      refine ⟨hfinds, h.clean, h.start_eq, @Delivers.got pre _ sent todo more [] rfl htodo ?_⟩
      rw [List.append_nil]
      exact ⟨hcatching.stored_eq, hcatching.sent_eq, hcatching.queued_eq⟩
  | @got sent todo known later hphase htodo hcatching =>
      obtain ⟨rest, hpage, hshort, hnext⟩ := h.page hcatching
      rw [h.advance_got hphase htodo hcatching]
      exact h.sendPage (hcatching.sendPage hpage hshort).1
  | live hphase hstored hsent =>
      have hadvance : s.advance = s := by rw [State.advance, hphase]
      rwa [hadvance]

theorem Catching.append (h : Catching s pre sent todo more) (e : TaskLogEntry) (logs : TaskLogs)
    (phase : Phase) :
    Catching { s with
      logs
      phase
      stored := s.stored ++ [e]
      queued := s.queued ++ placed (fileBytes s.stored).length [e] }
      pre sent todo (more ++ [e]) := by
  refine ⟨?_, h.sent_eq, ?_⟩
  · change s.stored ++ [e] = _
    rw [h.stored_eq]
    simp only [List.append_assoc]
  · obtain ⟨seen, caught, hsplit, hqueued⟩ := h.queued_eq
    refine ⟨seen, caught, hsplit, ?_⟩
    change s.queued ++ placed _ [e] = _
    rw [hqueued, h.stored_eq, hsplit, ← List.append_assoc caught more [e],
      placed_fileBytes_append (pre ++ seen) (caught ++ more)]
    simp only [List.append_assoc]

/-- What the service knows of the log is nothing to the handler. -/
theorem Delivers.withLogs (h : Delivers pre s) (logs : TaskLogs) :
    Delivers pre { s with logs } := by
  cases h with
  | readingFirst hphase h =>
      exact .readingFirst hphase ⟨h.stored_eq, h.sent_eq, h.queued_eq⟩
  | gotFirst hphase h => exact .gotFirst hphase ⟨h.stored_eq, h.sent_eq, h.queued_eq⟩
  | reading hphase htodo h =>
      exact .reading hphase htodo ⟨h.stored_eq, h.sent_eq, h.queued_eq⟩
  | got hphase htodo h => exact .got hphase htodo ⟨h.stored_eq, h.sent_eq, h.queued_eq⟩
  | live hphase hstored hsent => exact .live hphase hstored hsent

/-- An entry that is stored reaches the subscriber. -/
theorem Delivers.append (h : Delivers pre s) (e : TaskLogEntry) (logs : TaskLogs) :
    Delivers pre ({ s with
      logs
      stored := s.stored ++ [e] }.deliver
        ⟨(fileBytes s.stored).length, (fileBytes (s.stored ++ [e])).length, e⟩) := by
  have hevent : [(⟨(fileBytes s.stored).length, (fileBytes (s.stored ++ [e])).length, e⟩ :
      TaskLogBroadcastEvent)] = placed (fileBytes s.stored).length [e] := by
    rw [placed, placed_nil, length_fileBytes_append, fileBytes_cons, fileBytes_nil, List.append_nil]
  cases h with
  | readingFirst hphase h =>
      simp only [State.deliver, hphase, hevent]
      exact .readingFirst rfl (h.append e logs _)
  | gotFirst hphase h =>
      simp only [State.deliver, hphase, hevent]
      exact .gotFirst rfl (h.append e logs _)
  | reading hphase htodo h =>
      simp only [State.deliver, hphase, hevent]
      exact .reading rfl htodo (h.append e logs _)
  | @got sent todo known later hphase htodo h =>
      simp only [State.deliver, hphase, hevent]
      refine @Delivers.got pre _ sent todo known (later ++ [e]) rfl htodo ?_
      rw [← List.append_assoc known]
      exact h.append e logs _
  | @live post hphase hstored hsent =>
      simp only [State.deliver, hphase, hevent]
      refine @Delivers.live pre _ (post ++ [e]) rfl ?_ ?_
      · rw [hstored, List.append_assoc]
      · rw [hsent, hstored, ← placed_fileBytes_append]

@[simp]
theorem deliver_logs (s : State) (event : TaskLogBroadcastEvent) :
    (s.deliver event).logs = s.logs := by
  rw [State.deliver]
  split <;> rfl

@[simp]
theorem deliver_stored (s : State) (event : TaskLogBroadcastEvent) :
    (s.deliver event).stored = s.stored := by
  rw [State.deliver]
  split <;> rfl

@[simp]
theorem deliver_start (s : State) (event : TaskLogBroadcastEvent) :
    (s.deliver event).start = s.start := by
  rw [State.deliver]
  split <;> rfl

@[simp]
theorem deliver_isIdle (s : State) (event : TaskLogBroadcastEvent) :
    (s.deliver event).phase.isIdle = s.phase.isIdle := by
  rw [State.deliver]
  split <;> simp [*]

/-- No entry that the subscription is to deliver holds a line separator that `JSON.stringify` leaves
in its line. -/
def Clean (s : State) : Event → Prop
  | .append payload => s.phase.isIdle = false → payload.sequence = s.stored.length + 1 →
      CleanEntry (s.logs.entryOf payload)
  | .subscribe offset => ∀ event ∈ storedFrom offset s.stored, CleanEntry event.entry
  | .advance => True

/-- What holds throughout a run. -/
structure Invariant (s : State) : Prop where
  finds : Finds s.logs s.stored
  subscribed : s.phase.isIdle = false → ∃ pre, Subscribed pre s

theorem Invariant.append (h : Invariant s) {payload : TaskLogPayload}
    (hpermits : s.Permits (.append payload)) (hclean : Clean s (.append payload)) :
    Invariant (s.append payload) := by
  obtain ⟨⟨ack, logs, event⟩, happend⟩ := Option.isSome_iff_exists.mp hpermits
  rcases h.finds.appendFromAgent happend with ⟨rfl, hfinds⟩ | ⟨hsequence, rfl, hfinds⟩
  · have hstate : s.append payload = { s with logs } := by rw [State.append, happend]
    rw [hstate]
    refine ⟨hfinds, fun hphase => ?_⟩
    obtain ⟨pre, hsub⟩ := h.subscribed hphase
    exact ⟨pre, hfinds, hsub.clean, hsub.start_eq, hsub.delivers.withLogs logs⟩
  · have hstate : s.append payload = { s with
        logs
        stored := s.stored ++ [s.logs.entryOf payload] }.deliver
          ⟨(fileBytes s.stored).length, (fileBytes (s.stored ++ [s.logs.entryOf payload])).length,
            s.logs.entryOf payload⟩ := by
      rw [State.append, happend]
    rw [hstate]
    refine ⟨by simpa only [deliver_logs, deliver_stored] using hfinds, fun hphase => ?_⟩
    rw [deliver_isIdle] at hphase
    obtain ⟨pre, hsub⟩ := h.subscribed hphase
    obtain ⟨post, hstored, hpost⟩ := hsub.clean
    refine ⟨pre, ?_, ⟨post ++ [s.logs.entryOf payload], ?_, ?_⟩, ?_,
      hsub.delivers.append (s.logs.entryOf payload) logs⟩
    · simpa only [deliver_logs, deliver_stored] using hfinds
    · rw [deliver_stored, hstored, List.append_assoc]
    · intro e he
      rcases List.mem_append.mp he with he | he
      · exact hpost e he
      · rw [List.mem_singleton.mp he]
        exact hclean hphase hsequence
    · rw [deliver_start]
      exact hsub.start_eq

theorem Invariant.subscribe (h : Invariant s) {offset : Nat}
    (hpermits : s.Permits (.subscribe offset)) (hclean : Clean s (.subscribe offset)) :
    Invariant (s.subscribe offset) := by
  obtain ⟨-, pre, post, hstored, rfl⟩ := hpermits
  refine ⟨h.finds, fun _ => ⟨pre, h.finds, ⟨post, hstored, fun e he => ?_⟩, rfl, ?_⟩⟩
  · rw [Clean, hstored, storedFrom_boundary] at hclean
    rw [← map_entry_placed (fileBytes pre).length post] at he
    obtain ⟨event, hevent, rfl⟩ := List.mem_map.mp he
    exact hclean event hevent
  · refine @Delivers.readingFirst pre _ post [] rfl ⟨?_, rfl, post, [], ?_, rfl⟩
    · rw [List.append_nil]
      exact hstored
    · rw [List.append_nil]
      rfl

theorem Invariant.advance (h : Invariant s) : Invariant s.advance := by
  cases hphase : s.phase.isIdle with
  | true =>
      have hadvance : s.advance = s := by
        rw [State.advance]
        cases hat : s.phase <;> simp_all [Phase.isIdle]
      rwa [hadvance]
  | false =>
      obtain ⟨pre, hsub⟩ := h.subscribed hphase
      exact ⟨hsub.advance.finds, fun _ => ⟨pre, hsub.advance⟩⟩

theorem invariant_of_reachable (hs : (system Clean).Reachable s) : Invariant s := by
  refine hs.invariant ?_ ?_
  · intro s hinit
    exact ⟨hinit.finds, fun hphase => by simp [hinit.idle] at hphase⟩
  · rintro s t - hinv ⟨event, hpermits, hclean, rfl⟩
    cases event with
    | append payload => exact hinv.append hpermits hclean
    | subscribe offset => exact hinv.subscribe hpermits hclean
    | advance => exact hinv.advance

/-! The end of the catch-up -/

theorem exists_live_of_advance (h : ∃ n, (State.advance^[n] s.advance).phase = .live) :
    ∃ n, (State.advance^[n] s).phase = .live := by
  obtain ⟨n, hn⟩ := h
  exact ⟨n + 1, hn⟩

/-- Every page leaves less to do. -/
theorem Subscribed.finishes_of_reading (n : Nat) (h : Subscribed pre s)
    (hphase : s.phase =
      .reading (fileBytes (pre ++ sent)).length (fileBytes (pre ++ (sent ++ todo))).length)
    (htodo : todo ≠ []) (hcatching : Catching s pre sent todo more) (hn : todo.length ≤ n) :
    ∃ n, (State.advance^[n] s).phase = .live := by
  induction n generalizing s sent todo more with
  | zero => exact absurd (List.length_eq_zero_iff.mp (Nat.le_zero.mp hn)) htodo
  | succ n ih =>
      obtain ⟨logs, -, hadvance⟩ := h.advance_reading hphase hcatching
      have hgot := h.advance
      have hcatching' : Catching s.advance pre sent todo (more ++ []) := by
        rw [hadvance, List.append_nil]
        exact ⟨hcatching.stored_eq, hcatching.sent_eq, hcatching.queued_eq⟩
      have hphase' : s.advance.phase = _ := congrArg State.phase hadvance
      obtain ⟨rest, hpage, hshort, -⟩ := hgot.page hcatching'
      obtain ⟨-, hsent⟩ := hcatching'.sendPage hpage hshort
      have hnext := hgot.advance
      rw [hgot.advance_got hphase' htodo hcatching'] at hnext
      refine exists_live_of_advance (exists_live_of_advance ?_)
      rw [hgot.advance_got hphase' htodo hcatching']
      rcases hsent with hlive | ⟨sent', todo', hcatching'', hphase'', htodo', hless⟩
      · exact ⟨0, hlive⟩
      · exact ih hnext hphase'' htodo' hcatching'' (by omega)

/-- What is behind a page is live delivery or a further read. -/
theorem Subscribed.finishes_of_sent (h : Subscribed pre s)
    (hsent : s.phase = .live ∨ ∃ sent' todo', Catching s pre sent' todo' more ∧
      s.phase = .reading (fileBytes (pre ++ sent')).length
        (fileBytes (pre ++ (sent' ++ todo'))).length ∧
      todo' ≠ [] ∧ todo'.length < todo.length) :
    ∃ n, (State.advance^[n] s).phase = .live := by
  rcases hsent with hlive | ⟨sent', todo', hcatching, hphase, htodo, -⟩
  · exact ⟨0, hlive⟩
  · exact h.finishes_of_reading todo'.length hphase htodo hcatching (Nat.le_refl _)

theorem Subscribed.finishes_of_gotFirst (h : Subscribed pre s)
    (hphase : s.phase = .gotFirst ⟨(fileBytes pre).length, pageOf pre todo historyLimit⟩)
    (hcatching : Catching s pre [] todo more) :
    ∃ n, (State.advance^[n] s).phase = .live := by
  obtain ⟨rest, hpage, hshort, hsend⟩ := h.advance_gotFirst hphase hcatching
  have hnext := h.advance
  refine exists_live_of_advance ?_
  rw [hsend] at hnext ⊢
  exact hnext.finishes_of_sent (hcatching.sendPage hpage hshort).2

/-- The handler gets to live delivery from every place. -/
theorem Subscribed.finishes (h : Subscribed pre s) :
    ∃ n, (State.advance^[n] s).phase = .live := by
  cases h.delivers with
  | readingFirst hphase hcatching =>
      obtain ⟨logs, -, hcatching', hadvance⟩ := h.advance_readingFirst hphase hcatching
      have hphase' : s.advance.phase = _ := congrArg State.phase hadvance
      exact exists_live_of_advance (h.advance.finishes_of_gotFirst hphase' hcatching')
  | gotFirst hphase hcatching => exact h.finishes_of_gotFirst hphase hcatching
  | reading hphase htodo hcatching =>
      exact h.finishes_of_reading _ hphase htodo hcatching (Nat.le_refl _)
  | got hphase htodo hcatching =>
      obtain ⟨rest, hpage, hshort, -⟩ := h.page hcatching
      have hnext := h.advance
      refine exists_live_of_advance ?_
      rw [h.advance_got hphase htodo hcatching] at hnext ⊢
      exact hnext.finishes_of_sent (hcatching.sendPage hpage hshort).2
  | live hphase _ _ => exact ⟨0, hphase⟩

@[simp]
theorem advance_stored (s : State) : s.advance.stored = s.stored := by
  rw [State.advance]
  repeat' split
  all_goals simp only [sendPage_stored]

@[simp]
theorem advance_start (s : State) : s.advance.start = s.start := by
  rw [State.advance]
  repeat' split
  all_goals simp only [sendPage_start]

theorem Subscribed.iterate (h : Subscribed pre s) (n : Nat) :
    Subscribed pre (State.advance^[n] s) ∧ (State.advance^[n] s).stored = s.stored ∧
      (State.advance^[n] s).start = s.start := by
  induction n generalizing s with
  | zero => exact ⟨h, rfl, rfl⟩
  | succ n ih =>
      obtain ⟨hnext, hstored, hstart⟩ := ih h.advance
      exact ⟨hnext, hstored.trans (advance_stored s), hstart.trans (advance_start s)⟩

/-! What the socket receives -/

theorem Subscribed.storedFrom_eq (h : Subscribed pre s) {post : List TaskLogEntry}
    (hstored : s.stored = pre ++ post) :
    storedFrom s.start s.stored = placed (fileBytes pre).length post := by
  rw [h.start_eq, hstored, storedFrom_boundary]

theorem Catching.sent_prefix (hcatching : Catching s pre sent todo more) (h : Subscribed pre s) :
    s.sent <+: storedFrom s.start s.stored := by
  rw [h.storedFrom_eq hcatching.stored_eq, hcatching.sent_eq, List.append_assoc,
    placed_fileBytes_append]
  exact List.prefix_append _ _

theorem Subscribed.sent_prefix (h : Subscribed pre s) :
    s.sent <+: storedFrom s.start s.stored := by
  cases h.delivers with
  | readingFirst _ hcatching => exact hcatching.sent_prefix h
  | gotFirst _ hcatching => exact hcatching.sent_prefix h
  | reading _ _ hcatching => exact hcatching.sent_prefix h
  | got _ _ hcatching => exact hcatching.sent_prefix h
  | live _ hstored hsent =>
      rw [h.storedFrom_eq hstored, hsent]

theorem Subscribed.sent_of_live (h : Subscribed pre s) (hlive : s.phase = .live) :
    s.sent = storedFrom s.start s.stored := by
  cases h.delivers with
  | readingFirst hphase _ => simp [hphase] at hlive
  | gotFirst hphase _ => simp [hphase] at hlive
  | reading hphase _ _ => simp [hphase] at hlive
  | got hphase _ _ => simp [hphase] at hlive
  | live _ hstored hsent => rw [h.storedFrom_eq hstored, hsent]

theorem Subscribed.not_closed (h : Subscribed pre s) : s.phase ≠ .closed := by
  cases h.delivers with
  | readingFirst hphase _ => simp [hphase]
  | gotFirst hphase _ => simp [hphase]
  | reading hphase _ _ => simp [hphase]
  | got hphase _ _ => simp [hphase]
  | live hphase _ _ => simp [hphase]

theorem pairwise_sequence_placed {last offset : Nat} {entries : List TaskLogEntry}
    (h : Contiguous last entries) :
    (placed offset entries).Pairwise (fun a b => a.entry.sequence < b.entry.sequence) := by
  induction entries generalizing last offset with
  | nil => exact .nil
  | cons e entries ih =>
      obtain ⟨he, hrest⟩ := h
      refine .cons (fun event hevent => ?_) (ih hrest)
      have hmem := List.mem_map_of_mem (f := fun event => event.entry) hevent
      rw [map_entry_placed] at hmem
      have := hrest.bounds _ hmem
      dsimp only
      omega

/-- The socket receives every entry stored at or after the start of its subscription once, in order
and with the offsets under which it can be read. -/
structure DeliversOnce (s : State) : Prop where
  open_socket : s.phase ≠ .closed
  holds : Finds s.logs s.stored
  sent_prefix : s.sent <+: storedFrom s.start s.stored
  sent_of_live : s.phase = .live → s.sent = storedFrom s.start s.stored
  gets_live : ∃ n, (State.advance^[n] s).phase = .live ∧
    (State.advance^[n] s).sent = storedFrom s.start s.stored
  in_order : (storedFrom s.start s.stored).Pairwise
    (fun a b => a.entry.sequence < b.entry.sequence)
  read_back : ∀ event ∈ storedFrom s.start s.stored, ∃ history logs,
    s.logs.readHistory event.offset 1 = .ok (history, logs) ∧
      history.page.entries = [event.entry] ∧ history.page.nextOffset = event.nextOffset

theorem Subscribed.read_back (h : Subscribed pre s) {event : TaskLogBroadcastEvent}
    (hevent : event ∈ storedFrom s.start s.stored) : ∃ history logs,
      s.logs.readHistory event.offset 1 = .ok (history, logs) ∧
        history.page.entries = [event.entry] ∧ history.page.nextOffset = event.nextOffset := by
  obtain ⟨post, hstored, hclean⟩ := h.clean
  rw [h.storedFrom_eq hstored] at hevent
  obtain ⟨before, behind, rfl, hoffset, hend⟩ := exists_of_mem_placed hevent
  have hfinds := h.finds
  rw [hstored, ← List.append_assoc] at hfinds
  obtain ⟨logs, hread, -⟩ := hfinds.readHistory
    (fun e he => hclean e (List.mem_append_right before he)) Nat.one_pos (by decide)
  obtain ⟨hentries, hnext⟩ := pageOf_one hfinds.appended
  rw [hoffset, hend]
  exact ⟨_, logs, hread, hentries, hnext⟩

theorem Subscribed.in_order (h : Subscribed pre s) : (storedFrom s.start s.stored).Pairwise
    (fun a b => a.entry.sequence < b.entry.sequence) := by
  obtain ⟨post, hstored, -⟩ := h.clean
  have hcontiguous := h.finds.appended.contiguous
  rw [hstored] at hcontiguous
  rw [h.storedFrom_eq hstored]
  exact pairwise_sequence_placed (contiguous_append.mp hcontiguous).2

/-- A subscription delivers once as long as no entry it is to deliver holds a line separator. -/
theorem subscription_delivers_once {s : State} (hs : (system Clean).Reachable s)
    (hphase : s.phase.isIdle = false) : DeliversOnce s := by
  obtain ⟨pre, h⟩ := (invariant_of_reachable hs).subscribed hphase
  refine ⟨h.not_closed, h.finds, h.sent_prefix, h.sent_of_live, ?_, h.in_order,
    fun event hevent => h.read_back hevent⟩
  obtain ⟨n, hlive⟩ := h.finishes
  obtain ⟨hlater, hstored, hstart⟩ := h.iterate n
  refine ⟨n, hlive, ?_⟩
  rw [hlater.sent_of_live hlive, hstored, hstart]

/-! A subscription to an empty log -/

def newLogs : TaskLogs := ⟨.empty, ⟨0, 0⟩, .ofValues []⟩

def newState : State := ⟨newLogs, .idle, [], [], [], 0⟩

theorem newState_isNew : IsNew newState := by
  have happended : Appended [] := ⟨trivial, by simp, by decide⟩
  exact ⟨rfl, happended, none, rfl, rfl⟩

def plainPayload : TaskLogPayload :=
  ⟨1, .stdout, JsString.ofString "hello", JsString.ofString "2026-01-01T00:00:00.000Z"⟩

def separatorPayload : TaskLogPayload :=
  ⟨1, .stdout, JsString.ofString "a\u2028b", JsString.ofString "2026-01-01T00:00:00.000Z"⟩

/-- The server with a subscription that has switched to live delivery. -/
def liveState : State := ((newState.subscribe 0).advance).advance

theorem liveState_reachable {allowed : State → Event → Prop}
    (hsubscribe : allowed newState (.subscribe 0)) (hadvance : ∀ s, allowed s .advance) :
    (system allowed).Reachable liveState := by
  have hpermits : newState.Permits (.subscribe 0) := ⟨rfl, [], [], rfl, rfl⟩
  have hsubscribed : (system allowed).Reachable (newState.subscribe 0) :=
    .step (.init newState_isNew) ⟨.subscribe 0, hpermits, hsubscribe, rfl⟩
  have hread : (system allowed).Reachable (newState.subscribe 0).advance :=
    .step hsubscribed ⟨.advance, trivial, hadvance _, rfl⟩
  exact .step hread ⟨.advance, trivial, hadvance _, rfl⟩

/-- The state with an entry delivered live. -/
def deliveredState : State := liveState.append plainPayload

/-- The result at a log that gets its first entry after the switch. -/
theorem deliveredState_delivers_once :
    DeliversOnce deliveredState ∧ deliveredState.sent.length = 1 := by
  have hclean : Clean liveState (.append plainPayload) := by
    intro _ _
    exact ⟨by decide +kernel, by decide +kernel⟩
  have hlive : (system Clean).Reachable liveState := by
    refine liveState_reachable ?_ (fun _ => trivial)
    intro event hevent
    simp [storedFrom, newState] at hevent
  have hpermits : liveState.Permits (.append plainPayload) := by
    change (liveState.logs.appendFromAgent plainPayload).isSome = true
    decide +kernel
  have hreachable : (system Clean).Reachable deliveredState :=
    .step hlive ⟨.append plainPayload, hpermits, hclean, rfl⟩
  exact ⟨subscription_delivers_once hreachable (by decide +kernel), by decide +kernel⟩

/-- The state with an entry delivered live that holds U+2028. -/
def separatorState : State := liveState.append separatorPayload

/-- The entry is not to be read back at the offset it was delivered with. -/
theorem separatorState_not_delivers_once :
    (system (fun _ _ => True)).Reachable separatorState ∧ ¬ DeliversOnce separatorState := by
  have hpermits : liveState.Permits (.append separatorPayload) := by
    change (liveState.logs.appendFromAgent separatorPayload).isSome = true
    decide +kernel
  have hreachable : (system (fun _ _ => True)).Reachable separatorState :=
    .step (liveState_reachable trivial (fun _ => trivial))
      ⟨.append separatorPayload, hpermits, trivial, rfl⟩
  refine ⟨hreachable, fun h => ?_⟩
  have hread : (separatorState.logs.readHistory 0 1).map (fun result => result.1.page.entries)
      = .ok [] := by
    decide +kernel
  have hsent : ∃ event, storedFrom separatorState.start separatorState.stored = [event] ∧
      event.offset = 0 := ⟨_, rfl, rfl⟩
  obtain ⟨event, hstored, hoffset⟩ := hsent
  obtain ⟨history, logs, hok, hentries, -⟩ := h.read_back event (by simp [hstored])
  rw [hoffset] at hok
  rw [hok] at hread
  simp [Except.map, hentries] at hread

end AnvilRun.TaskLogSubscription
