import AnvilRun.LogBuffer
import Mathlib.Data.List.Chain

namespace AnvilRun.LogBuffer

open AnvilRun.AgentRedactor (Text)

/-! Bytes of a text -/

/-- The byte of a line end stands only for a line end. -/
theorem eq_newline_of_mem_encodeChar {c : Char} (h : (0x0A : UInt8) ∈ String.utf8EncodeChar c) :
    c = '\n' := by
  have hmem : ∃ b ∈ String.utf8EncodeChar c, b.toNat = 10 := ⟨_, h, rfl⟩
  obtain ⟨b, hb, hten⟩ := hmem
  simp only [String.utf8EncodeChar] at hb
  split at hb
  · rename_i hle
    rw [List.mem_singleton.mp hb, UInt8.toNat_ofNat'] at hten
    apply Char.ext
    apply UInt32.toNat_inj.mp
    show c.val.toNat = 10
    omega
  · split at hb
    · simp only [List.mem_cons, List.not_mem_nil, or_false] at hb
      rcases hb with rfl | rfl
      all_goals
        rw [UInt8.toNat_ofNat'] at hten
        omega
    · split at hb
      · simp only [List.mem_cons, List.not_mem_nil, or_false] at hb
        rcases hb with rfl | rfl | rfl
        all_goals
          rw [UInt8.toNat_ofNat'] at hten
          omega
      · simp only [List.mem_cons, List.not_mem_nil, or_false] at hb
        rcases hb with rfl | rfl | rfl | rfl
        all_goals
          rw [UInt8.toNat_ofNat'] at hten
          omega

theorem newline_not_mem_encode {s : Text} (h : '\n' ∉ s) : (0x0A : UInt8) ∉ Utf8.encode s := by
  intro hmem
  obtain ⟨c, hc, hbyte⟩ := List.mem_flatMap.mp hmem
  rw [eq_newline_of_mem_encodeChar hbyte] at hc
  exact h hc

theorem fromUtf8_encode (s : Text) : fromUtf8 (Utf8.encode s) = some s := by
  rw [fromUtf8, Utf8.decodeLossy_encode, if_pos rfl]

/-! Lines -/

theorem splitFrom_append {bytes : List UInt8} (h : (0x0A : UInt8) ∉ bytes)
    (line rest : List UInt8) : splitFrom line (bytes ++ rest) = splitFrom (line ++ bytes) rest := by
  induction bytes generalizing line with
  | nil => simp
  | cons b bytes ih =>
      have hb : b ≠ 0x0A := fun hb => h (hb ▸ List.mem_cons_self)
      have hbytes : (0x0A : UInt8) ∉ bytes := fun hmem => h (List.mem_cons_of_mem b hmem)
      rw [List.cons_append, splitFrom, if_neg hb, ih hbytes, List.append_assoc]
      rfl

/-- Bytes without a line end are the last line, if there are any. -/
theorem readLines_tail {tail : List UInt8} (h : (0x0A : UInt8) ∉ tail) :
    readLines tail = if tail.isEmpty then [] else [tail] := by
  have := splitFrom_append h [] []
  rw [List.append_nil, List.nil_append] at this
  rw [readLines, this, splitFrom]

theorem readLines_line {line : List UInt8} (h : (0x0A : UInt8) ∉ line) (rest : List UInt8) :
    readLines (line ++ 0x0A :: rest) = (line ++ [0x0A]) :: readLines rest := by
  rw [readLines, splitFrom_append h, splitFrom, if_pos rfl, List.nil_append]
  rfl

/-! Records -/

variable (format : EntryFormat)

theorem newline_not_mem_toVec (e : BufferedLogEntry) : (0x0A : UInt8) ∉ toVec format e :=
  newline_not_mem_encode (format.newline_not_mem e)

theorem getLast?_toVec (e : BufferedLogEntry) : (toVec format e).getLast? = some 0x7D := by
  obtain ⟨s, hs⟩ := List.getLast?_eq_some_iff.mp (format.getLast?_toText e)
  rw [toVec, hs, Utf8.encode_append]
  exact List.getLast?_append

theorem fromSlice_toVec (e : BufferedLogEntry) : fromSlice format (toVec format e) = some e := by
  rw [fromSlice, toVec, fromUtf8_encode]
  exact format.fromStr_toText e

/-- The line of an entry. -/
def record (e : BufferedLogEntry) : List UInt8 :=
  toVec format e ++ [0x0A]

def records (es : List BufferedLogEntry) : List UInt8 :=
  es.flatMap (record format)

@[simp]
theorem records_nil : records format [] = [] := rfl

@[simp]
theorem records_cons (e : BufferedLogEntry) (es : List BufferedLogEntry) :
    records format (e :: es) = record format e ++ records format es := rfl

@[simp]
theorem records_append (ds es : List BufferedLogEntry) :
    records format (ds ++ es) = records format ds ++ records format es :=
  List.flatMap_append

theorem length_record (e : BufferedLogEntry) :
    (record format e).length = (toVec format e).length + 1 := by
  simp [record]

theorem length_records_eq_zero {es : List BufferedLogEntry} :
    (records format es).length = 0 ↔ es = [] := by
  cases es with
  | nil => simp
  | cons e es => simp [length_record]

theorem getLast?_record (e : BufferedLogEntry) : (record format e).getLast? = some 0x0A :=
  List.getLast?_concat

theorem stripLineEnd_record (e : BufferedLogEntry) :
    stripLineEnd (record format e) = toVec format e := by
  have hlast : ¬ (toVec format e).getLast? = some 0x0D := by
    rw [getLast?_toVec]
    decide
  simp only [stripLineEnd, record, List.dropLast_concat]
  exact if_neg hlast

theorem readLines_records (es : List BufferedLogEntry) (rest : List UInt8) :
    readLines (records format es ++ rest) = es.map (record format) ++ readLines rest := by
  induction es with
  | nil => rfl
  | cons e es ih =>
      rw [records_cons, record, List.append_assoc, List.append_assoc, List.cons_append,
        List.nil_append, readLines_line (newline_not_mem_toVec format e), ih]
      rfl

/-! Runs of sequences -/

/-- The sequences go up by one from entry to entry, and none is zero. -/
def Contiguous (es : List BufferedLogEntry) : Prop :=
  es.IsChain (fun d e => e.sequence = d.sequence + 1) ∧ ∀ e ∈ es, 0 < e.sequence

theorem contiguous_nil : Contiguous [] :=
  ⟨.nil, fun _ h => absurd h List.not_mem_nil⟩

/-- The sequence of the last entry, or `last` if there is none. -/
def lastSequence (last : Nat) : List BufferedLogEntry → Nat
  | [] => last
  | e :: es => lastSequence e.sequence es

theorem lastSequence_append (last : Nat) (ds es : List BufferedLogEntry) :
    lastSequence last (ds ++ es) = lastSequence (lastSequence last ds) es := by
  induction ds generalizing last with
  | nil => rfl
  | cons d ds ih => exact ih d.sequence

theorem lastSequence_concat (last : Nat) (es : List BufferedLogEntry) (e : BufferedLogEntry) :
    lastSequence last (es ++ [e]) = e.sequence :=
  lastSequence_append last es [e]

theorem lastSequence_mem {es : List BufferedLogEntry} (h : es ≠ []) (last : Nat) :
    ∃ e ∈ es, lastSequence last es = e.sequence := by
  rw [← List.dropLast_append_getLast h, lastSequence_concat]
  exact ⟨es.getLast h, by simp, rfl⟩

theorem Contiguous.tail {e : BufferedLogEntry} {es : List BufferedLogEntry}
    (h : Contiguous (e :: es)) : Contiguous es :=
  ⟨h.1.tail, fun d hd => h.2 d (List.mem_cons_of_mem e hd)⟩

/-- All entries of a run come behind its first one. -/
theorem Contiguous.lt_of_mem {e : BufferedLogEntry} {es : List BufferedLogEntry}
    (h : Contiguous (e :: es)) : ∀ d ∈ es, e.sequence < d.sequence := by
  induction es generalizing e with
  | nil =>
      intro d hd
      exact absurd hd List.not_mem_nil
  | cons f es ih =>
      have hnext : f.sequence = e.sequence + 1 := by
        have := h.1
        rw [List.isChain_cons_cons] at this
        exact this.1
      intro d hd
      rcases List.mem_cons.mp hd with rfl | hd
      · omega
      · have := ih h.tail d hd
        omega

theorem Contiguous.le_lastSequence {es : List BufferedLogEntry} (h : Contiguous es) (last : Nat) :
    ∀ e ∈ es, e.sequence ≤ lastSequence last es := by
  induction es generalizing last with
  | nil =>
      intro e he
      exact absurd he List.not_mem_nil
  | cons f es ih =>
      intro e he
      rcases List.mem_cons.mp he with rfl | he
      · cases es with
        | nil => exact Nat.le_refl _
        | cons g es =>
            have hlt := h.lt_of_mem g List.mem_cons_self
            have hle := ih h.tail e.sequence g List.mem_cons_self
            exact Nat.le_of_lt (Nat.lt_of_lt_of_le hlt hle)
      · exact ih h.tail f.sequence e he

/-- A record that follows the last one carries the run on, unless the sequences are at their
end. -/
theorem Contiguous.concat {es : List BufferedLogEntry} (h : Contiguous es) {e : BufferedLogEntry}
    (hpos : 0 < e.sequence)
    (hnext : es ≠ [] → e.sequence = lastSequence 0 es + 1) : Contiguous (es ++ [e]) := by
  refine ⟨?_, fun d hd => ?_⟩
  · refine List.isChain_append.mpr ⟨h.1, .singleton e, fun d hd f hf => ?_⟩
    have hne : es ≠ [] := by
      rintro rfl
      exact absurd hd (by simp)
    obtain ⟨ds, rfl⟩ := List.getLast?_eq_some_iff.mp hd
    rw [lastSequence_concat] at hnext
    rw [List.head?_singleton] at hf
    obtain rfl := Option.some.inj hf
    exact hnext hne
  · rcases List.mem_append.mp hd with hd | hd
    · exact h.2 d hd
    · rw [List.mem_singleton.mp hd]
      exact hpos

/-- The entries behind an acknowledged one form a run again. -/
theorem Contiguous.filter {es : List BufferedLogEntry} (h : Contiguous es) (n : Nat) :
    Contiguous (es.filter (n < ·.sequence)) := by
  induction es with
  | nil => exact contiguous_nil
  | cons e es ih =>
      by_cases hn : n < e.sequence
      · have hall : (e :: es).filter (n < ·.sequence) = e :: es := by
          apply List.filter_eq_self.mpr
          intro d hd
          rcases List.mem_cons.mp hd with rfl | hd
          · exact decide_eq_true hn
          · exact decide_eq_true (Nat.lt_trans hn (h.lt_of_mem d hd))
        rw [hall]
        exact h
      · rw [List.filter_cons_of_neg (by simpa using hn)]
        exact ih h.tail

theorem Contiguous.lastSequence_filter {es : List BufferedLogEntry} (h : Contiguous es) {n : Nat}
    (hne : es.filter (n < ·.sequence) ≠ []) (last : Nat) :
    lastSequence last (es.filter (n < ·.sequence)) = lastSequence last es := by
  have hes : es ≠ [] := by
    rintro rfl
    exact hne rfl
  obtain ⟨d, hd⟩ := List.exists_mem_of_ne_nil _ hne
  obtain ⟨hmem, hlt⟩ := List.mem_filter.mp hd
  have hlast : n < (es.getLast hes).sequence := by
    have hle := h.le_lastSequence 0 d hmem
    have hlt := of_decide_eq_true hlt
    rw [← List.dropLast_append_getLast hes, lastSequence_concat] at hle
    omega
  have hkept : [es.getLast hes].filter (n < ·.sequence) = [es.getLast hes] := by
    simp [hlast]
  rw [← List.dropLast_append_getLast hes, List.filter_append, hkept, lastSequence_concat,
    lastSequence_concat]

/-! What the loops over the lines find -/

theorem follows_of_eq_succ {last : Nat} {e : BufferedLogEntry} (h : e.sequence = last + 1) :
    follows last e := by
  have := e.sequence_le
  refine ⟨by omega, fun _ => ?_⟩
  rw [saturatingAdd]
  omega

/-- Every entry may stand behind the one before it, and the first one behind `last`. -/
def Chained : Nat → List BufferedLogEntry → Prop
  | _, [] => True
  | last, e :: es => follows last e ∧ Chained e.sequence es

theorem follows_zero {e : BufferedLogEntry} (h : 0 < e.sequence) : follows 0 e :=
  ⟨by omega, fun hlt => absurd hlt (Nat.lt_irrefl 0)⟩

theorem chained_append {last : Nat} {ds es : List BufferedLogEntry} :
    Chained last (ds ++ es) ↔ Chained last ds ∧ Chained (lastSequence last ds) es := by
  induction ds generalizing last with
  | nil => simp [Chained, lastSequence]
  | cons d ds ih => rw [List.cons_append, Chained, Chained, ih, and_assoc]; rfl

theorem Contiguous.chained_of_follows {es : List BufferedLogEntry} (h : Contiguous es) {last : Nat}
    (hhead : ∀ e ∈ es.head?, follows last e) : Chained last es := by
  induction es generalizing last with
  | nil => trivial
  | cons e es ih =>
      refine ⟨hhead e rfl, ih h.tail fun f hf => follows_of_eq_succ ?_⟩
      cases es with
      | nil => exact absurd hf (by simp)
      | cons g es =>
          obtain rfl := Option.some.inj hf
          exact (List.isChain_cons_cons.mp h.1).1

theorem Contiguous.chained {es : List BufferedLogEntry} (h : Contiguous es) : Chained 0 es :=
  h.chained_of_follows fun e he => follows_zero (h.2 e (List.mem_of_mem_head? he))

/-- The recovery goes through all the records. -/
theorem recoverLines_records {es : List BufferedLogEntry} {last : Nat} (h : Chained last es)
    (lines : List (List UInt8)) (validBytes : Nat) :
    recoverLines format (es.map (record format) ++ lines) validBytes last
      = recoverLines format lines (validBytes + (records format es).length)
        (lastSequence last es) := by
  induction es generalizing last validBytes with
  | nil => rfl
  | cons e es ih =>
      have hfirst := h.1
      rw [List.map_cons, List.cons_append, recoverLines]
      simp only [getLast?_record, ne_eq, not_true_eq_false, if_false, stripLineEnd_record,
        fromSlice_toVec, hfirst, if_true]
      rw [ih h.2, records_cons, List.length_append, Nat.add_assoc]
      rfl

/-- Recovery finds the records in front of a torn line. -/
theorem recoverLines_eq {es : List BufferedLogEntry} (h : Chained 0 es) {tail : List UInt8}
    (htail : (0x0A : UInt8) ∉ tail) :
    recoverLines format (readLines (records format es ++ tail)) 0 0
      = ((records format es).length, lastSequence 0 es) := by
  rw [readLines_records, recoverLines_records format h, Nat.zero_add, readLines_tail htail]
  split
  · rfl
  · have hlast : tail.getLast? ≠ some 0x0A := fun hlast => htail (List.mem_of_getLast? hlast)
    rw [recoverLines, if_pos hlast]

theorem retainLines_records (n : Nat) (es : List BufferedLogEntry) :
    retainLines format n (es.map (record format))
      = some (records format (es.filter (n < ·.sequence))) := by
  induction es with
  | nil => rfl
  | cons e es ih =>
      rw [List.map_cons, retainLines]
      simp only [getLast?_record, ne_eq, not_true_eq_false, if_false, stripLineEnd_record,
        fromSlice_toVec, ih, Option.bind_eq_bind, Option.bind_some]
      by_cases hn : n < e.sequence
      · rw [if_pos hn, List.filter_cons_of_pos (by simpa using hn), records_cons, record,
          List.append_assoc]
        rfl
      · rw [if_neg hn, List.filter_cons_of_neg (by simpa using hn)]

theorem retainLines_eq (n : Nat) (es : List BufferedLogEntry) :
    retainLines format n (readLines (records format es))
      = some (records format (es.filter (n < ·.sequence))) := by
  have hlines := readLines_records format es []
  rw [List.append_nil] at hlines
  have hnil : readLines [] = [] := rfl
  rw [hlines, hnil, List.append_nil, retainLines_records]

/-- A reader takes off the line end and nothing else. -/
theorem trimEnd_toText (e : BufferedLogEntry) :
    trimEnd (format.toText e ++ ['\n']) = format.toText e := by
  obtain ⟨s, hs⟩ := List.getLast?_eq_some_iff.mp (format.getLast?_toText e)
  have hnewline : isWhitespace '\n' = true := by decide
  have hbrace : isWhitespace '}' = false := by decide
  rw [trimEnd, List.reverse_append, List.reverse_singleton, List.singleton_append,
    List.dropWhile_cons_of_pos hnewline, hs, List.reverse_append, List.reverse_singleton,
    List.singleton_append, List.dropWhile_cons_of_neg (by rw [hbrace]; exact Bool.false_ne_true),
    List.reverse_cons, List.reverse_reverse]

theorem fromUtf8_record (e : BufferedLogEntry) :
    fromUtf8 (record format e) = some (format.toText e ++ ['\n']) := by
  have hencode : record format e = Utf8.encode (format.toText e ++ ['\n']) := by
    rw [Utf8.encode_append]
    rfl
  rw [hencode, fromUtf8_encode]

theorem readEntries_records (es : List BufferedLogEntry) :
    readEntries format (es.map (record format)) = .ok es := by
  induction es with
  | nil => rfl
  | cons e es ih =>
      simp only [List.map_cons, readEntries, fromUtf8_record, trimEnd_toText, format.fromStr_toText,
        ih]
      rfl

theorem pendingEntries_records {disk : Disk} {es : List BufferedLogEntry}
    (h : disk.contents = records format es) : pendingEntries format disk = .ok es := by
  have hlines := readLines_records format es []
  rw [List.append_nil] at hlines
  have hnil : readLines [] = [] := rfl
  rw [pendingEntries, h, hlines, hnil, List.append_nil, readEntries_records]

end AnvilRun.LogBuffer
