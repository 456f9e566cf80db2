import AnvilRun.TaskLogCodec

namespace AnvilRun.TaskLogRoundTrip

open AnvilRun.JsString
open AnvilRun.Lines
open AnvilRun.Json
open AnvilRun.TaskLogStorage
open AnvilRun.TaskLogCodec

/-- The bytes of a file that holds the entries. -/
def fileBytes (entries : List TaskLogEntry) : List UInt8 :=
  entries.flatMap encodeEntry

/-- The entries carry the sequence numbers that follow `last`. -/
def Contiguous : Nat → List TaskLogEntry → Prop
  | _, [] => True
  | last, e :: entries => e.sequence = last + 1 ∧ Contiguous (last + 1) entries

theorem contiguous_append {last : Nat} {xs ys : List TaskLogEntry} :
    Contiguous last (xs ++ ys) ↔ Contiguous last xs ∧ Contiguous (last + xs.length) ys := by
  induction xs generalizing last with
  | nil => simp [Contiguous]
  | cons x xs ih =>
      simp only [List.cons_append, Contiguous, ih, List.length_cons, and_assoc]
      rw [Nat.add_assoc, Nat.add_comm 1]

theorem Contiguous.bounds {last : Nat} {entries : List TaskLogEntry}
    (h : Contiguous last entries) : ∀ e ∈ entries,
      last < e.sequence ∧ e.sequence ≤ last + entries.length := by
  induction entries generalizing last with
  | nil => simp
  | cons x entries ih =>
      obtain ⟨hx, hrest⟩ := h
      intro e he
      rw [List.length_cons]
      rcases List.mem_cons.mp he with rfl | he
      · omega
      · have := ih hrest e he
        omega

@[simp]
theorem fileBytes_nil : fileBytes [] = [] := rfl

theorem fileBytes_append (xs ys : List TaskLogEntry) :
    fileBytes (xs ++ ys) = fileBytes xs ++ fileBytes ys :=
  List.flatMap_append

theorem fileBytes_cons (e : TaskLogEntry) (entries : List TaskLogEntry) :
    fileBytes (e :: entries) = encodeEntry e ++ fileBytes entries := rfl

theorem length_encodeEntry_pos (e : TaskLogEntry) : 0 < (encodeEntry e).length := by
  rw [← lineBytes_entryText, lineBytes]
  omega

theorem length_le_length_fileBytes (entries : List TaskLogEntry) :
    entries.length ≤ (fileBytes entries).length := by
  induction entries with
  | nil => rfl
  | cons e entries ih =>
      have := length_encodeEntry_pos e
      simp only [fileBytes_cons, List.length_append, List.length_cons]
      omega

theorem fileBytes_eq_nil {entries : List TaskLogEntry} (h : fileBytes entries = []) :
    entries = [] := by
  have := length_le_length_fileBytes entries
  rw [h] at this
  exact List.length_eq_zero_iff.mp (by simpa using this)

/-- The text the decoder makes of a file of entries. -/
def fileText (entries : List TaskLogEntry) : List Char :=
  entries.flatMap (fun e => entryText e ++ ['\n'])

theorem fileBytes_eq_encode (entries : List TaskLogEntry) :
    fileBytes entries = Utf8.encode (fileText entries) := by
  induction entries with
  | nil => rfl
  | cons e entries ih =>
      rw [fileBytes_cons, ih, encodeEntry, ← Utf8.encode_append]
      rfl

theorem decodeLossy_fileBytes_append (entries : List TaskLogEntry) (tail : List UInt8) :
    Utf8.decodeLossy (fileBytes entries ++ tail) = fileText entries ++ Utf8.decodeLossy tail := by
  rw [fileBytes_eq_encode, Utf8.decodeLossy_encode_append]

theorem decodeLossy_fileBytes (entries : List TaskLogEntry) :
    Utf8.decodeLossy (fileBytes entries) = fileText entries := by
  rw [fileBytes_eq_encode, Utf8.decodeLossy_encode]

/-- Clean entries are lines of their own. -/
theorem splitLines_fileText_append {entries : List TaskLogEntry} (h : ∀ e ∈ entries, CleanEntry e)
    (rest : List Char) :
    splitLines (fileText entries ++ rest) = entries.map entryText ++ splitLines rest := by
  induction entries with
  | nil => rfl
  | cons e entries ih =>
      have hline : ∀ c ∈ entryText e, isLineEnd c = false :=
        fun c hc => isLineEnd_of_mem_entryText (h e (List.mem_cons_self ..)) hc
      have htext : fileText (e :: entries) ++ rest
          = entryText e ++ '\n' :: (fileText entries ++ rest) := by
        simp [fileText]
      rw [htext, splitLines_line hline (by decide) (by decide),
        ih (fun x hx => h x (List.mem_cons_of_mem _ hx))]
      rfl

theorem splitLines_fileText {entries : List TaskLogEntry} (h : ∀ e ∈ entries, CleanEntry e) :
    splitLines (fileText entries) = entries.map entryText := by
  have hsplit := splitLines_fileText_append h []
  rwa [List.append_nil, show splitLines [] = [] from rfl, List.append_nil] at hsplit

/-- Entries that fit the numbers and sizes of a file: what is known of appended entries. -/
structure Appended (entries : List TaskLogEntry) : Prop where
  contiguous : Contiguous 0 entries
  entrySize : ∀ e ∈ entries, (encodeEntry e).length ≤ maxTaskLogChunkBytes + 2048
  fileSize : (fileBytes entries).length ≤ maxTaskLogFileBytes

theorem Appended.sequence_bounds {entries : List TaskLogEntry} (h : Appended entries) :
    ∀ e ∈ entries, 0 < e.sequence ∧ e.sequence ≤ JsNumber.maxSafeInteger := by
  intro e he
  have hbounds := h.contiguous.bounds e he
  have hlength := length_le_length_fileBytes entries
  have hsize := h.fileSize
  have hmax : maxTaskLogFileBytes ≤ JsNumber.maxSafeInteger := by decide
  omega

theorem Appended.of_append {xs ys : List TaskLogEntry} (h : Appended (xs ++ ys)) :
    Appended xs := by
  refine ⟨(contiguous_append.mp h.contiguous).1, fun e he => h.entrySize e (by simp [he]), ?_⟩
  have := h.fileSize
  rw [fileBytes_append, List.length_append] at this
  omega

/-! Recovery -/

/-- Recovery reads complete lines one by one. -/
theorem recoverLines_entries {entries : List TaskLogEntry} {size offset last : Nat}
    (hseq : Contiguous last entries)
    (hbounds : ∀ e ∈ entries, 0 < e.sequence ∧ e.sequence ≤ JsNumber.maxSafeInteger)
    (hsize : offset + (fileBytes entries).length ≤ size) (lines : List (List Char)) :
    recoverLines size (entries.map entryText ++ lines) ⟨offset, last⟩
      = recoverLines size lines ⟨offset + (fileBytes entries).length, last + entries.length⟩ := by
  induction entries generalizing offset last with
  | nil => rfl
  | cons e entries ih =>
      obtain ⟨he, hrest⟩ := hseq
      obtain ⟨hpos, hle⟩ := hbounds e (List.mem_cons_self ..)
      rw [fileBytes_cons, List.length_append] at hsize
      have hfits : ¬ (size < offset + (encodeEntry e).length ∨ entryText e = []) := by
        rintro (hlt | hnil)
        · omega
        · exact entryText_ne_nil e hnil
      have hnext := @ih (offset + (encodeEntry e).length) (last + 1) hrest
        (fun x hx => hbounds x (List.mem_cons_of_mem _ hx)) (by omega)
      rw [List.map_cons, List.cons_append, recoverLines, lineBytes_entryText, if_neg hfits,
        parseEntry_entryText hpos hle]
      simp only [he, ne_eq, not_true_eq_false, if_false]
      rw [hnext, fileBytes_cons, List.length_append, List.length_cons, Nat.add_assoc,
        Nat.add_assoc, Nat.add_comm 1]

/-- The state of a store that knows all of its entries. -/
def fullState (entries : List TaskLogEntry) : TaskLogFileState :=
  ⟨(fileBytes entries).length, entries.length⟩

theorem recoverLines_clean {entries : List TaskLogEntry} (h : Appended entries)
    (hclean : ∀ e ∈ entries, CleanEntry e) :
    recoverLines (fileBytes entries).length (splitLines (Utf8.decodeLossy (fileBytes entries)))
      ⟨0, 0⟩ = fullState entries := by
  have hread := recoverLines_entries h.contiguous h.sequence_bounds (Nat.zero_add _).le []
  rw [List.append_nil] at hread
  rw [decodeLossy_fileBytes, splitLines_fileText hclean, hread]
  simp [recoverLines, fullState]

/-- The log holds exactly these entries, and caches the state of the file or nothing. -/
structure Holds (log : TaskLog) (entries : List TaskLogEntry) : Prop where
  bytes : log.bytes = fileBytes entries
  state : log.state = none ∨ log.state = some (fullState entries)

theorem Holds.eq_nil_of_file_none {log : TaskLog} {entries : List TaskLogEntry}
    (h : Holds log entries) (hfile : log.file = none) : entries = [] := by
  have hbytes := h.bytes
  rw [TaskLog.bytes, hfile] at hbytes
  exact fileBytes_eq_nil hbytes.symm

theorem Holds.file_eq {log : TaskLog} {entries : List TaskLogEntry} (h : Holds log entries)
    {bytes : List UInt8} (hfile : log.file = some bytes) : bytes = fileBytes entries := by
  have hbytes := h.bytes
  rwa [TaskLog.bytes, hfile] at hbytes

theorem Holds.recover {log : TaskLog} {entries : List TaskLogEntry} (h : Holds log entries)
    (happended : Appended entries) (hclean : ∀ e ∈ entries, CleanEntry e) :
    recoverUnlocked log = .ok (fullState entries, ⟨log.file, some (fullState entries)⟩) := by
  rw [recoverUnlocked]
  cases hfile : log.file with
  | none =>
      rw [h.eq_nil_of_file_none hfile]
      rfl
  | some bytes =>
      obtain rfl := h.file_eq hfile
      have hsafe : ¬ JsNumber.maxSafeInteger < (fileBytes entries).length := by
        have := happended.fileSize
        have hmax : maxTaskLogFileBytes ≤ JsNumber.maxSafeInteger := by decide
        omega
      simp only [if_neg hsafe, recoverLines_clean happended hclean]
      simp [fullState]

theorem Holds.currentState {log : TaskLog} {entries : List TaskLogEntry} (h : Holds log entries)
    (happended : Appended entries)
    (hclean : log.state = none → ∀ e ∈ entries, CleanEntry e) :
    currentState log = .ok (fullState entries, ⟨log.file, some (fullState entries)⟩) := by
  rw [TaskLogStorage.currentState]
  rcases h.state with hstate | hstate
  · simp only [hstate]
    exact h.recover happended (hclean hstate)
  · simp only [hstate]
    rw [← hstate]

/-! Appending -/

def appendAll : TaskLog → List TaskLogEntry → Except StorageError TaskLog
  | log, [] => .ok log
  | log, e :: entries =>
      match append .completed log e with
      | (.error error, _) => .error error
      | (.ok _, log) => appendAll log entries

theorem append_holds {log : TaskLog} {entries : List TaskLogEntry} {e : TaskLogEntry}
    (h : Holds log entries) (happended : Appended (entries ++ [e]))
    (hknown : log.state = none → entries = []) :
    append .completed log e = (.ok (fileBytes (entries ++ [e])).length,
      ⟨some (fileBytes (entries ++ [e])), some (fullState (entries ++ [e]))⟩) := by
  have hcurrent := h.currentState happended.of_append
    (fun hnone => by rw [hknown hnone]; simp)
  have hsize := happended.entrySize e (by simp)
  have hfile := happended.fileSize
  have hsequence : e.sequence = entries.length + 1 := by
    have := (contiguous_append.mp happended.contiguous).2
    simpa using this.1
  rw [fileBytes_append, fileBytes_cons, fileBytes_nil, List.append_nil, List.length_append] at hfile
  have hfits : ¬ (maxTaskLogFileBytes < (fileBytes entries).length ∨
      maxTaskLogFileBytes < (fileBytes entries).length + (encodeEntry e).length) := by
    omega
  have hbytes : (⟨log.file, some (fullState entries)⟩ : TaskLog).bytes = fileBytes entries :=
    h.bytes
  simp only [append, hcurrent, if_neg (Nat.not_lt.mpr hsize), appendAttempts, hbytes]
  simp only [fullState, hsequence, ne_eq, not_true_eq_false, if_false, if_neg hfits]
  simp [fileBytes_append, fileBytes_cons]

theorem appendAll_holds {log : TaskLog} {pre post : List TaskLogEntry} (h : Holds log pre)
    (happended : Appended (pre ++ post)) (hknown : log.state = none → pre = []) :
    ∃ final, appendAll log post = .ok final ∧ Holds final (pre ++ post) := by
  induction post generalizing log pre with
  | nil => exact ⟨log, rfl, by rwa [List.append_nil]⟩
  | cons e post ih =>
      have hsplit : pre ++ e :: post = pre ++ [e] ++ post := by simp
      rw [hsplit] at happended ⊢
      have happend := append_holds h happended.of_append hknown
      have hnext : Holds ⟨some (fileBytes (pre ++ [e])), some (fullState (pre ++ [e]))⟩
          (pre ++ [e]) := ⟨rfl, Or.inr rfl⟩
      obtain ⟨final, hfinal, hholds⟩ := ih hnext happended (by simp)
      refine ⟨final, ?_, hholds⟩
      rw [appendAll, happend]
      exact hfinal

/-! Reading -/

/-- One page takes some of the entries that remain, at least one if there are any. -/
theorem readLines_entries {entries : List TaskLogEntry} {size limit offset consumed : Nat}
    (taken : List TaskLogEntry)
    (hbounds : ∀ e ∈ entries, 0 < e.sequence ∧ e.sequence ≤ JsNumber.maxSafeInteger)
    (hsize : offset + (fileBytes entries).length ≤ size) :
    ∃ page rest, entries = page ++ rest ∧ (taken = [] → entries ≠ [] → page ≠ []) ∧
      readLines size limit (entries.map entryText) ⟨taken, offset, consumed⟩
        = ⟨taken ++ page, offset + (fileBytes page).length,
            consumed + (fileBytes page).length⟩ := by
  induction entries generalizing taken offset consumed with
  | nil => exact ⟨[], [], rfl, fun _ h => h, by simp [readLines]⟩
  | cons e entries ih =>
      obtain ⟨hpos, hle⟩ := hbounds e (List.mem_cons_self ..)
      rw [fileBytes_cons, List.length_append] at hsize
      have hfits : ¬ size < offset + (encodeEntry e).length := by omega
      rw [List.map_cons, readLines]
      simp only [lineBytes_entryText, if_neg hfits, if_neg (entryText_ne_nil e),
        parseEntry_entryText hpos hle]
      split_ifs with hpage hfull
      · exact ⟨[], e :: entries, rfl, fun h => absurd h hpage.1, by simp⟩
      · exact ⟨[e], entries, rfl, fun _ _ => by simp, by simp [fileBytes_cons]⟩
      · obtain ⟨page, rest, rfl, -, hread⟩ := @ih (offset + (encodeEntry e).length)
          (consumed + (encodeEntry e).length) (taken ++ [e])
          (fun x hx => hbounds x (List.mem_cons_of_mem _ hx)) (by omega)
        refine ⟨e :: page, rest, rfl, fun _ _ => by simp, ?_⟩
        rw [hread, fileBytes_cons, List.length_append, Nat.add_assoc, Nat.add_assoc,
          List.append_assoc]
        rfl

theorem isRecordBoundary_fileBytes {entries : List TaskLogEntry} (hne : entries ≠ [])
    (rest : List UInt8) :
    isRecordBoundary (fileBytes entries ++ rest) (fileBytes entries).length = true := by
  obtain ⟨front, e, rfl⟩ : ∃ front e, entries = front ++ [e] :=
    ⟨_, _, (List.dropLast_concat_getLast hne).symm⟩
  have hbytes : fileBytes (front ++ [e])
      = fileBytes front ++ Utf8.encode (entryText e) ++ [0x0A] := by
    rw [fileBytes_append, fileBytes_cons, encodeEntry, Utf8.encode_append, fileBytes_nil,
      List.append_nil, List.append_assoc]
    rfl
  rw [hbytes, isRecordBoundary, List.length_append, List.length_singleton, Nat.add_sub_cancel,
    List.append_assoc, List.getElem?_append_right (Nat.le_refl _), Nat.sub_self]
  rfl

/-- The page that a read from the boundary behind `pre` returns. -/
def pageOf (pre post : List TaskLogEntry) (limit : Nat) : TaskLogReadResult :=
  let size := (fileBytes (pre ++ post)).length
  let state := readLines size (min limit maxTaskLogReadBytes) (post.map entryText)
    ⟨[], (fileBytes pre).length, 0⟩
  ⟨state.entries, state.nextOffset, size, decide (size ≤ state.nextOffset)⟩

theorem readFrom_entries {pre post : List TaskLogEntry} {limit : Nat}
    (happended : Appended (pre ++ post)) (hclean : ∀ e ∈ post, CleanEntry e) :
    readFrom (fileBytes (pre ++ post)) (fileBytes (pre ++ post)).length (fileBytes pre).length limit
      = .ok (pageOf pre post limit) := by
  have hlength : (fileBytes (pre ++ post)).length
      = (fileBytes pre).length + (fileBytes post).length := by
    rw [fileBytes_append, List.length_append]
  have hsafe : ¬ (JsNumber.maxSafeInteger < (fileBytes (pre ++ post)).length ∨
      (fileBytes (pre ++ post)).length < (fileBytes pre).length) := by
    have := happended.fileSize
    have hmax : maxTaskLogFileBytes ≤ JsNumber.maxSafeInteger := by decide
    omega
  have hboundary : (decide (0 < (fileBytes pre).length) &&
      !isRecordBoundary (fileBytes (pre ++ post)) (fileBytes pre).length) = false := by
    by_cases hpre : pre = []
    · simp [hpre]
    · rw [fileBytes_append, isRecordBoundary_fileBytes hpre]
      simp
  rw [readFrom, if_neg hsafe, hboundary, if_neg Bool.false_ne_true]
  by_cases hend : (fileBytes pre).length = (fileBytes (pre ++ post)).length
  · have hnil : fileBytes post = [] := List.length_eq_zero_iff.mp (by omega)
    obtain rfl := fileBytes_eq_nil hnil
    rw [if_pos hend, pageOf, ← hend, List.map_nil, readLines]
    simp only [Nat.le_refl, decide_true]
  · have hdrop : (fileBytes (pre ++ post)).drop (fileBytes pre).length = fileBytes post := by
      rw [fileBytes_append, List.drop_left]
    rw [if_neg hend, hdrop, decodeLossy_fileBytes, splitLines_fileText hclean]
    rfl

/-- A page takes the next of the entries behind its offset, at least one while there are any. -/
theorem exists_page (pre post : List TaskLogEntry) (limit : Nat)
    (happended : Appended (pre ++ post)) :
    ∃ rest, post = (pageOf pre post limit).entries ++ rest ∧
      (post ≠ [] → (pageOf pre post limit).entries ≠ []) ∧
      (pageOf pre post limit).nextOffset =
        (fileBytes (pre ++ (pageOf pre post limit).entries)).length := by
  have hlength : (fileBytes (pre ++ post)).length
      = (fileBytes pre).length + (fileBytes post).length := by
    rw [fileBytes_append, List.length_append]
  have hbounds : ∀ e ∈ post, 0 < e.sequence ∧ e.sequence ≤ JsNumber.maxSafeInteger :=
    fun e he => happended.sequence_bounds e (List.mem_append_right pre he)
  obtain ⟨page, rest, rfl, hprogress, hread⟩ :=
    @readLines_entries post (fileBytes (pre ++ post)).length (min limit maxTaskLogReadBytes)
      (fileBytes pre).length 0 [] hbounds (by omega)
  rw [pageOf]
  dsimp only
  rw [hread, List.nil_append]
  refine ⟨rest, rfl, hprogress rfl, ?_⟩
  rw [fileBytes_append, List.length_append]

/-- The shortest page is one entry. -/
theorem pageOf_one {pre post : List TaskLogEntry} {e : TaskLogEntry}
    (happended : Appended (pre ++ e :: post)) :
    (pageOf pre (e :: post) 1).entries = [e] ∧
      (pageOf pre (e :: post) 1).nextOffset = (fileBytes (pre ++ [e])).length := by
  obtain ⟨hpos, hle⟩ := happended.sequence_bounds e (by simp)
  have hlength : (fileBytes (pre ++ e :: post)).length =
      (fileBytes pre).length + (encodeEntry e).length + (fileBytes post).length := by
    rw [fileBytes_append, fileBytes_cons, List.length_append, List.length_append, Nat.add_assoc]
  have hfits : ¬ (fileBytes (pre ++ e :: post)).length <
      (fileBytes pre).length + (encodeEntry e).length := by omega
  have hone : min 1 maxTaskLogReadBytes ≤ 0 + (encodeEntry e).length :=
    Nat.le_trans (Nat.min_le_left _ _) (Nat.le_add_left_of_le (length_encodeEntry_pos e))
  rw [pageOf]
  dsimp only
  rw [List.map_cons, readLines]
  simp only [lineBytes_entryText, if_neg hfits, if_neg (entryText_ne_nil e),
    parseEntry_entryText hpos hle, ne_eq, not_true_eq_false, false_and, if_false, if_pos hone,
    List.nil_append, true_and]
  rw [fileBytes_append, fileBytes_cons, fileBytes_nil, List.append_nil, List.length_append]

/-- A read from the boundary behind `pre`. -/
theorem read_eq {log : TaskLog} {pre post : List TaskLogEntry} {limit : Nat}
    (h : Holds log (pre ++ post)) (happended : Appended (pre ++ post))
    (hknown : log.state = none → ∀ e ∈ pre ++ post, CleanEntry e)
    (hclean : ∀ e ∈ post, CleanEntry e) (hpos : 0 < limit)
    (hlimit : limit ≤ JsNumber.maxSafeInteger) :
    TaskLogStorage.read log (fileBytes pre).length limit =
      .ok (pageOf pre post limit, ⟨log.file, some (fullState (pre ++ post))⟩) := by
  have hcurrent := h.currentState happended hknown
  have hsafe : ¬ JsNumber.maxSafeInteger < (fileBytes pre).length := by
    have := happended.fileSize
    rw [fileBytes_append, List.length_append] at this
    have hmax : maxTaskLogFileBytes ≤ JsNumber.maxSafeInteger := by decide
    omega
  have hvalid : ¬ (JsNumber.maxSafeInteger < limit ∨ limit = 0) := by omega
  cases hfile : log.file with
  | none =>
      obtain ⟨rfl, rfl⟩ := List.append_eq_nil_iff.mp (h.eq_nil_of_file_none hfile)
      simp only [TaskLogStorage.read, if_neg hsafe, if_neg hvalid, hcurrent, hfile]
      rfl
  | some bytes =>
      obtain rfl := h.file_eq hfile
      simp only [TaskLogStorage.read, if_neg hsafe, if_neg hvalid, hcurrent, hfile]
      change (if (fileBytes (pre ++ post)).length ≠ (fullState (pre ++ post)).size then _ else _) = _
      rw [if_neg (by simp [fullState])]
      rw [readFrom_entries happended hclean]
      rfl

/-- A read from the boundary behind `pre` returns a page of the entries behind it, and the
boundary behind the page. -/
theorem read_entries {log : TaskLog} {pre post : List TaskLogEntry} {limit : Nat}
    (h : Holds log (pre ++ post)) (happended : Appended (pre ++ post))
    (hclean : ∀ e ∈ pre ++ post, CleanEntry e) (hpos : 0 < limit)
    (hlimit : limit ≤ JsNumber.maxSafeInteger) :
    ∃ page rest result final, post = page ++ rest ∧ (post ≠ [] → page ≠ []) ∧
      TaskLogStorage.read log (fileBytes pre).length limit = .ok (result, final) ∧ result.entries = page ∧
      result.nextOffset = (fileBytes (pre ++ page)).length ∧ Holds final (pre ++ post) := by
  have hread := read_eq h happended (fun _ => hclean)
    (fun e he => hclean e (List.mem_append_right pre he)) hpos hlimit
  obtain ⟨rest, hpost, hprogress, hoffset⟩ := exists_page pre post limit happended
  exact ⟨_, rest, _, _, hpost, hprogress, hread, rfl, hoffset, ⟨h.bytes, Or.inr rfl⟩⟩

/-- Reading on from `offset`, one page for each limit: every page takes the next of the
remaining entries, at least one while there are any, and the end is the end of the file. -/
def ReadsBack : TaskLog → List TaskLogEntry → Nat → List Nat → Prop
  | log, remaining, offset, [] => remaining = [] → offset = log.bytes.length
  | log, remaining, offset, limit :: limits =>
      (remaining = [] → offset = log.bytes.length) ∧
      ∃ result final rest, TaskLogStorage.read log offset limit = .ok (result, final) ∧
        remaining = result.entries ++ rest ∧ (remaining ≠ [] → result.entries ≠ []) ∧
        ReadsBack final rest result.nextOffset limits

theorem readsBack_entries {log : TaskLog} {pre post : List TaskLogEntry}
    (h : Holds log (pre ++ post)) (happended : Appended (pre ++ post))
    (hclean : ∀ e ∈ pre ++ post, CleanEntry e) {limits : List Nat}
    (hlimits : ∀ limit ∈ limits, 0 < limit ∧ limit ≤ JsNumber.maxSafeInteger) :
    ReadsBack log post (fileBytes pre).length limits := by
  have hend : post = [] → (fileBytes pre).length = log.bytes.length := by
    rintro rfl
    rw [h.bytes, List.append_nil]
  induction limits generalizing log pre post with
  | nil => exact hend
  | cons limit limits ih =>
      obtain ⟨hpos, hle⟩ := hlimits limit (List.mem_cons_self ..)
      obtain ⟨page, rest, result, final, rfl, hprogress, hread, rfl, hoffset, hfinal⟩ :=
        read_entries h happended hclean hpos hle
      have hsplit : pre ++ (result.entries ++ rest) = pre ++ result.entries ++ rest := by simp
      rw [hsplit] at happended hclean hfinal
      refine ⟨hend, result, final, rest, hread, rfl, hprogress, ?_⟩
      rw [hoffset]
      refine ih hfinal happended hclean (fun x hx => hlimits x (List.mem_cons_of_mem _ hx)) ?_
      rintro rfl
      rw [hfinal.bytes, List.append_nil]

/-- After a restart the whole log is recovered, and it can be read back page by page before and
after a restart. -/
structure RoundTrips (log : TaskLog) (entries : List TaskLogEntry) : Prop where
  recovers : ∃ recovered, recoverUnlocked log.restart
      = .ok (⟨log.bytes.length, entries.length⟩, recovered) ∧ recovered.bytes = log.bytes
  readsBack : ∀ limits, (∀ limit ∈ limits, 0 < limit ∧ limit ≤ JsNumber.maxSafeInteger) →
      ReadsBack log entries 0 limits ∧ ReadsBack log.restart entries 0 limits

theorem Holds.restart {log : TaskLog} {entries : List TaskLogEntry} (h : Holds log entries) :
    Holds log.restart entries :=
  ⟨h.bytes, Or.inl rfl⟩

theorem roundTrips_of_clean {log : TaskLog} {entries : List TaskLogEntry} (h : Holds log entries)
    (happended : Appended entries) (hclean : ∀ e ∈ entries, CleanEntry e) :
    RoundTrips log entries := by
  refine ⟨⟨⟨log.file, some (fullState entries)⟩, ?_, rfl⟩, fun limits hlimits => ⟨?_, ?_⟩⟩
  · rw [h.restart.recover happended hclean, h.bytes]
    rfl
  · exact @readsBack_entries log [] entries h happended hclean _ hlimits
  · exact @readsBack_entries log.restart [] entries h.restart happended hclean _ hlimits

/-! Where a separator is left in the text of an entry -/

theorem exists_first_separator {s : JsString} (h : ¬ FreeOfSeparators s) :
    ∃ pre u post, s = pre ++ u :: post ∧ FreeOfSeparators pre ∧ (u = 0x2028 ∨ u = 0x2029) := by
  induction s with
  | nil => exact absurd (by simp [FreeOfSeparators]) h
  | cons v s ih =>
      by_cases hv : v = 0x2028 ∨ v = 0x2029
      · exact ⟨[], v, s, rfl, by simp [FreeOfSeparators], hv⟩
      · have hne : v.toNat ≠ 0x2028 ∧ v.toNat ≠ 0x2029 :=
          ⟨fun heq => hv (Or.inl (UInt16.toNat_inj.mp heq)),
            fun heq => hv (Or.inr (UInt16.toNat_inj.mp heq))⟩
        have hs : ¬ FreeOfSeparators s := by
          intro hfree
          refine h (fun u hu => ?_)
          rcases List.mem_cons.mp hu with rfl | hu
          · exact hne
          · exact hfree u hu
        obtain ⟨pre, u, post, rfl, hpre, hu⟩ := ih hs
        refine ⟨v :: pre, u, post, rfl, fun w hw => ?_, hu⟩
        rcases List.mem_cons.mp hw with rfl | hw
        · exact hne
        · exact hpre w hw

/-- The text of a string with a separator in it: free text, a line end and the rest. -/
theorem quoteUnits_separator {s : JsString} (h : ¬ FreeOfSeparators s) :
    ∃ pre c rest, FreeOfSeparators pre ∧ isLineEnd c = true ∧ c ≠ '\r' ∧
      quoteUnits s = quoteUnits pre ++ c :: rest := by
  obtain ⟨pre, u, post, rfl, hpre, hu⟩ := exists_first_separator h
  have hunit : isHighSurrogate u = false ∧ isLowSurrogate u = false ∧
      quoteUnit u = [unitChar u] ∧ isLineEnd (unitChar u) = true ∧ unitChar u ≠ '\r' := by
    rcases hu with rfl | rfl <;> decide
  obtain ⟨hhigh, hlow, hquote, hend, hne⟩ := hunit
  refine ⟨pre, unitChar u, quoteUnits post, hpre, hend, hne, ?_⟩
  rw [quoteUnits_append hhigh hlow, hquote, List.append_assoc]
  rfl

theorem parse_of_parseMembers_none {s : List Char}
    (h : ∀ fuel, parseMembers (fuel + 5) ('"' :: s) = none) (hlength : 3 ≤ s.length) :
    Json.parse ('{' :: '"' :: s) = none := by
  obtain ⟨fuel, hfuel⟩ : ∃ fuel, ('{' :: '"' :: s).length = fuel + 5 :=
    ⟨s.length - 3, by simp; omega⟩
  rw [Json.parse, hfuel, parse_object, h fuel]
  rfl

theorem parse_cut_in_chunk {e : TaskLogEntry} (hle : e.sequence < 2 ^ 53) (s : JsString) :
    Json.parse (beforeChunk e ++ quoteUnits s) = none := by
  have htext : beforeChunk e ++ quoteUnits s = '{' :: (quote (JsString.ofString "sequence") ++
      ':' :: (natText e.sequence ++ ',' :: (quote (JsString.ofString "stream") ++
        ':' :: (quote (streamName e.stream) ++ ',' :: (quote (JsString.ofString "chunk") ++
          ':' :: '"' :: quoteUnits s))))) := by
    simp [beforeChunk]
  rw [htext, quote, List.cons_append, List.cons_append]
  refine parse_of_parseMembers_none (fun fuel => ?_) (by simp; omega)
  rw [← List.cons_append, ← List.cons_append, ← quote,
    parseMembers_comma (reads_natText hle) _ (fuel + 3),
    parseMembers_comma (reads_quote _) _ (fuel + 2), parseMembers_cut _ _ (fuel + 1)]
  rfl

theorem parse_cut_in_emittedAt {e : TaskLogEntry} (hle : e.sequence < 2 ^ 53) (s : JsString) :
    Json.parse (beforeEmittedAt e ++ quoteUnits s) = none := by
  have htext : beforeEmittedAt e ++ quoteUnits s = '{' :: (quote (JsString.ofString "sequence") ++
      ':' :: (natText e.sequence ++ ',' :: (quote (JsString.ofString "stream") ++
        ':' :: (quote (streamName e.stream) ++ ',' :: (quote (JsString.ofString "chunk") ++
          ':' :: (quote e.chunk ++ ',' :: (quote (JsString.ofString "emittedAt") ++
            ':' :: '"' :: quoteUnits s))))))) := by
    simp [beforeEmittedAt, beforeChunk, quote]
  rw [htext, quote, List.cons_append, List.cons_append]
  refine parse_of_parseMembers_none (fun fuel => ?_) (by simp; omega)
  rw [← List.cons_append, ← List.cons_append, ← quote,
    parseMembers_comma (reads_natText hle) _ (fuel + 3),
    parseMembers_comma (reads_quote _) _ (fuel + 2),
    parseMembers_comma (reads_quote _) _ (fuel + 1), parseMembers_cut _ _ fuel]
  rfl

/-- The first line of an entry with a separator in it is no entry. -/
theorem exists_fragment {e : TaskLogEntry} (hle : e.sequence < 2 ^ 53) (h : ¬ CleanEntry e) :
    ∃ fragment c rest, entryText e = fragment ++ c :: rest ∧
      (∀ d ∈ fragment, isLineEnd d = false) ∧ isLineEnd c = true ∧ c ≠ '\r' ∧
      parseEntry fragment = none := by
  by_cases hchunk : FreeOfSeparators e.chunk
  · obtain ⟨pre, c, rest, hpre, hend, hne, hquote⟩ :=
      quoteUnits_separator (fun hfree => h ⟨hchunk, hfree⟩)
    refine ⟨beforeEmittedAt e ++ quoteUnits pre, c, rest ++ ['"', '}'], ?_, ?_, hend, hne, ?_⟩
    · rw [entryText_eq, hquote]
      simp
    · intro d hd
      rcases List.mem_append.mp hd with hd | hd
      · exact isLineEnd_of_mem_beforeEmittedAt hchunk hd
      · exact isLineEnd_of_mem_quoteUnits hpre hd
    · rw [parseEntry, parse_cut_in_emittedAt hle]
      rfl
  · obtain ⟨pre, c, rest, hpre, hend, hne, hquote⟩ := quoteUnits_separator hchunk
    refine ⟨beforeChunk e ++ quoteUnits pre, c, rest ++ '"' :: ',' ::
      (quote (JsString.ofString "emittedAt") ++ [':', '"'] ++ quoteUnits e.emittedAt ++
        ['"', '}']), ?_, ?_, hend, hne, ?_⟩
    · rw [entryText_eq, beforeEmittedAt, hquote]
      simp
    · intro d hd
      rcases List.mem_append.mp hd with hd | hd
      · exact isLineEnd_of_mem_beforeChunk hd
      · exact isLineEnd_of_mem_quoteUnits hpre hd
    · rw [parseEntry, parse_cut_in_chunk hle]
      rfl

theorem exists_first_unclean {entries : List TaskLogEntry}
    (h : ¬ ∀ e ∈ entries, CleanEntry e) :
    ∃ pre e post, entries = pre ++ e :: post ∧ (∀ x ∈ pre, CleanEntry x) ∧ ¬ CleanEntry e := by
  induction entries with
  | nil => exact absurd (by simp) h
  | cons x entries ih =>
      by_cases hx : CleanEntry x
      · have hrest : ¬ ∀ e ∈ entries, CleanEntry e := by
          intro hall
          refine h (fun e he => ?_)
          rcases List.mem_cons.mp he with rfl | he
          · exact hx
          · exact hall e he
        obtain ⟨pre, e, post, rfl, hpre, he⟩ := ih hrest
        refine ⟨x :: pre, e, post, rfl, fun y hy => ?_, he⟩
        rcases List.mem_cons.mp hy with rfl | hy
        · exact hx
        · exact hpre y hy
      · exact ⟨[], x, entries, rfl, by simp, hx⟩

theorem recoverLines_stop {line : List Char} (h : parseEntry line = none) (size : Nat)
    (lines : List (List Char)) (state : TaskLogFileState) :
    recoverLines size (line :: lines) state = state := by
  rw [recoverLines, h]
  exact ite_self _

/-- Recovery stops in front of the first entry with a separator in it, whatever follows. -/
theorem recover_lastSequence_lt_append {entries : List TaskLogEntry} (happended : Appended entries)
    (h : ¬ ∀ e ∈ entries, CleanEntry e) (tail : List UInt8) :
    (recoverLines (fileBytes entries ++ tail).length
      (splitLines (Utf8.decodeLossy (fileBytes entries ++ tail))) ⟨0, 0⟩).lastSequence
      < entries.length := by
  obtain ⟨pre, e, post, rfl, hpre, he⟩ := exists_first_unclean h
  have hle : e.sequence < 2 ^ 53 := by
    have := (happended.sequence_bounds e (by simp)).2
    have hmax : JsNumber.maxSafeInteger < 2 ^ 53 := by decide
    omega
  obtain ⟨fragment, c, rest, htext, hfragment, hend, hne, hparse⟩ := exists_fragment hle he
  have hfile : fileText (pre ++ e :: post) ++ Utf8.decodeLossy tail = fileText pre ++
      (fragment ++ c :: (rest ++ '\n' :: (fileText post ++ Utf8.decodeLossy tail))) := by
    simp [fileText, htext]
  have hsize : 0 + (fileBytes pre).length ≤ (fileBytes (pre ++ e :: post) ++ tail).length := by
    rw [fileBytes_append, List.length_append, List.length_append]
    omega
  rw [decodeLossy_fileBytes_append, hfile, splitLines_fileText_append hpre,
    splitLines_line hfragment hne hend,
    recoverLines_entries happended.of_append.contiguous happended.of_append.sequence_bounds hsize,
    recoverLines_stop hparse]
  simp

/-- Recovery stops in front of the first entry with a separator in it. -/
theorem recover_lastSequence_lt {entries : List TaskLogEntry} (happended : Appended entries)
    (h : ¬ ∀ e ∈ entries, CleanEntry e) :
    (recoverLines (fileBytes entries).length
      (splitLines (Utf8.decodeLossy (fileBytes entries))) ⟨0, 0⟩).lastSequence
      < entries.length := by
  have hlt := recover_lastSequence_lt_append happended h []
  rwa [List.append_nil] at hlt

theorem clean_of_roundTrips {log : TaskLog} {entries : List TaskLogEntry} (h : Holds log entries)
    (happended : Appended entries) (htrip : RoundTrips log entries) :
    ∀ e ∈ entries, CleanEntry e := by
  by_contra hunclean
  have hlt := recover_lastSequence_lt happended hunclean
  obtain ⟨recovered, hrecover, -⟩ := htrip.recovers
  rw [recoverUnlocked] at hrecover
  cases hstored : log.restart.file with
  | none =>
      obtain rfl := h.restart.eq_nil_of_file_none hstored
      simp at hlt
  | some bytes =>
      obtain rfl := h.restart.file_eq hstored
      simp only [hstored] at hrecover
      split_ifs at hrecover
      simp only [Except.ok.injEq, Prod.mk.injEq] at hrecover
      rw [hrecover.1] at hlt
      exact lt_irrefl _ hlt

theorem appendAll_empty {entries : List TaskLogEntry} (happended : Appended entries) :
    ∃ log, appendAll .empty entries = .ok log ∧ Holds log entries := by
  have hempty : Holds TaskLog.empty [] := ⟨rfl, Or.inl rfl⟩
  exact appendAll_holds hempty happended (fun _ => rfl)

/-- Appended entries round trip exactly when none of them holds a line separator that
`JSON.stringify` leaves in its line. -/
theorem append_roundTrips_iff (entries : List TaskLogEntry) (hseq : Contiguous 0 entries)
    (hentry : ∀ e ∈ entries, (encodeEntry e).length ≤ maxTaskLogChunkBytes + 2048)
    (hfile : (fileBytes entries).length ≤ maxTaskLogFileBytes) :
    ∃ log, appendAll .empty entries = .ok log ∧
      (RoundTrips log entries ↔
        ∀ e ∈ entries, FreeOfSeparators e.chunk ∧ FreeOfSeparators e.emittedAt) := by
  have happended : Appended entries := ⟨hseq, hentry, hfile⟩
  obtain ⟨log, hlog, hholds⟩ := appendAll_empty happended
  exact ⟨log, hlog, clean_of_roundTrips hholds happended, roundTrips_of_clean hholds happended⟩

def plainEntry : TaskLogEntry :=
  ⟨1, .stdout, JsString.ofString "né \"1\"\r\n", JsString.ofString "2026-01-01T00:00:00.000Z"⟩

def separatorEntry : TaskLogEntry :=
  ⟨2, .stderr, JsString.ofString "a\u2028b", JsString.ofString "2026-01-01T00:00:01.000Z"⟩

/-- The result at a log of one entry. -/
theorem append_roundTrips_plainEntry :
    ∃ log, appendAll .empty [plainEntry] = .ok log ∧ RoundTrips log [plainEntry] := by
  obtain ⟨log, hlog, htrips⟩ :=
    append_roundTrips_iff [plainEntry] ⟨rfl, trivial⟩ (by decide +kernel) (by decide +kernel)
  exact ⟨log, hlog, htrips.mpr (by decide +kernel)⟩

/-- A stored U+2028 makes recovery drop its entry. -/
theorem separatorEntry_not_roundTrips :
    ∃ log, appendAll .empty [plainEntry, separatorEntry] = .ok log ∧
      ¬ RoundTrips log [plainEntry, separatorEntry] := by
  have happended : Appended [plainEntry, separatorEntry] :=
    ⟨⟨rfl, rfl, trivial⟩, by decide +kernel, by decide +kernel⟩
  obtain ⟨log, hlog, hholds⟩ := appendAll_empty happended
  refine ⟨log, hlog, fun htrip => ?_⟩
  have hclean := clean_of_roundTrips hholds happended htrip separatorEntry (by simp)
  exact absurd hclean.1 (by decide +kernel)

end AnvilRun.TaskLogRoundTrip
