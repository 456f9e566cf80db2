import AnvilRun.TaskLogStorage

namespace AnvilRun.TaskLogCodec

open AnvilRun.Lines
open AnvilRun.Json
open AnvilRun.TaskLogStorage

/-- No code unit is a line separator that `JSON.stringify` leaves as it is. -/
def FreeOfSeparators (s : JsString) : Prop :=
  ∀ u ∈ s, u.toNat ≠ 0x2028 ∧ u.toNat ≠ 0x2029

instance (s : JsString) : Decidable (FreeOfSeparators s) :=
  List.decidableBAll _ s

def CleanEntry (e : TaskLogEntry) : Prop :=
  FreeOfSeparators e.chunk ∧ FreeOfSeparators e.emittedAt

/-! Encoding one entry -/

theorem isLineEnd_eq_false {c : Char} (h10 : c.toNat ≠ 10) (h13 : c.toNat ≠ 13)
    (h2028 : c.toNat ≠ 0x2028) (h2029 : c.toNat ≠ 0x2029) : isLineEnd c = false := by
  have hne : ∀ d : Char, c.toNat ≠ d.toNat → (c == d) = false := by
    intro d hd
    exact beq_false_of_ne (char_ne_of_toNat_ne hd)
  simp [isLineEnd, hne '\n' h10, hne '\r' h13, hne '\u2028' h2028, hne '\u2029' h2029]

theorem isLineEnd_of_mem_quoteUnits {s : JsString} (hs : FreeOfSeparators s) {c : Char}
    (h : c ∈ quoteUnits s) : isLineEnd c = false := by
  rcases quotedChar_of_mem_quoteUnits h with ⟨hge, hlt⟩ | ⟨u, hu, hge, heq⟩ | hge
  · exact isLineEnd_eq_false (by omega) (by omega) (by omega) (by omega)
  · have := hs u hu
    exact isLineEnd_eq_false (by omega) (by omega) (by omega) (by omega)
  · exact isLineEnd_eq_false (by omega) (by omega) (by omega) (by omega)

theorem isLineEnd_of_mem_quote {s : JsString} (hs : FreeOfSeparators s) {c : Char}
    (h : c ∈ quote s) : isLineEnd c = false := by
  simp only [quote, List.cons_append, List.mem_cons, List.mem_append, List.not_mem_nil,
    or_false] at h
  rcases h with rfl | h | rfl
  · decide
  · exact isLineEnd_of_mem_quoteUnits hs h
  · decide

theorem isLineEnd_of_mem_natText {n : Nat} {c : Char} (h : c ∈ natText n) :
    isLineEnd c = false := by
  have hdigit := isDigit_of_mem_natText n c h
  simp only [Char.isDigit, ge_iff_le, Bool.and_eq_true, decide_eq_true_eq,
    UInt32.le_iff_toNat_le] at hdigit
  obtain ⟨hge, hle⟩ := hdigit
  change 48 ≤ c.toNat at hge
  change c.toNat ≤ 57 at hle
  exact isLineEnd_eq_false (by omega) (by omega) (by omega) (by omega)

/-- The text of an entry up to the opening quote of its chunk. -/
def beforeChunk (e : TaskLogEntry) : List Char :=
  '{' :: (quote (JsString.ofString "sequence") ++ ':' :: (natText e.sequence ++ ',' ::
    (quote (JsString.ofString "stream") ++ ':' :: (quote (streamName e.stream) ++ ',' ::
      (quote (JsString.ofString "chunk") ++ [':', '"'])))))

/-- The text of an entry up to the opening quote of its time. -/
def beforeEmittedAt (e : TaskLogEntry) : List Char :=
  beforeChunk e ++ quoteUnits e.chunk ++ '"' :: ',' ::
    (quote (JsString.ofString "emittedAt") ++ [':', '"'])

theorem entryText_eq (e : TaskLogEntry) :
    entryText e = beforeEmittedAt e ++ quoteUnits e.emittedAt ++ ['"', '}'] := by
  simp [entryText, beforeEmittedAt, beforeChunk, quote]

theorem entryText_ne_nil (e : TaskLogEntry) : entryText e ≠ [] := by
  simp [entryText]

theorem isLineEnd_of_mem_beforeChunk {e : TaskLogEntry} {c : Char} (h : c ∈ beforeChunk e) :
    isLineEnd c = false := by
  have hstream : FreeOfSeparators (streamName e.stream) := by
    cases e.stream <;> decide +kernel
  simp only [beforeChunk, List.mem_cons, List.mem_append, List.not_mem_nil, or_false] at h
  rcases h with rfl | h | rfl | h | rfl | h | rfl | h | rfl | h | rfl | rfl
  any_goals decide
  · exact isLineEnd_of_mem_quote (by decide +kernel) h
  · exact isLineEnd_of_mem_natText h
  · exact isLineEnd_of_mem_quote (by decide +kernel) h
  · exact isLineEnd_of_mem_quote hstream h
  · exact isLineEnd_of_mem_quote (by decide +kernel) h

theorem isLineEnd_of_mem_beforeEmittedAt {e : TaskLogEntry} (he : FreeOfSeparators e.chunk)
    {c : Char} (h : c ∈ beforeEmittedAt e) : isLineEnd c = false := by
  simp only [beforeEmittedAt, List.mem_cons, List.mem_append, List.not_mem_nil, or_false] at h
  rcases h with (h | h) | rfl | rfl | h | rfl | rfl
  any_goals decide
  · exact isLineEnd_of_mem_beforeChunk h
  · exact isLineEnd_of_mem_quoteUnits he h
  · exact isLineEnd_of_mem_quote (by decide +kernel) h

theorem isLineEnd_of_mem_entryText {e : TaskLogEntry} (he : CleanEntry e) {c : Char}
    (h : c ∈ entryText e) : isLineEnd c = false := by
  simp only [entryText_eq, List.mem_cons, List.mem_append, List.not_mem_nil, or_false] at h
  rcases h with (h | h) | rfl | rfl
  any_goals decide
  · exact isLineEnd_of_mem_beforeEmittedAt he.1 h
  · exact isLineEnd_of_mem_quoteUnits he.2 h

theorem lineBytes_entryText (e : TaskLogEntry) :
    lineBytes (entryText e) = (encodeEntry e).length := by
  rw [lineBytes, encodeEntry, Utf8.encode_append, List.length_append]
  rfl

/-! Decoding one entry -/

theorem reads_streamName (stream : LogStream) :
    asStream (some (.string (streamName stream))) = some stream := by
  cases stream <;> decide

theorem asSequence_ofNat {n : Nat} (hpos : 0 < n) (hle : n ≤ JsNumber.maxSafeInteger) :
    asSequence (some (.number (JsNumber.ofNat n))) = some n := by
  have hsafe : (JsNumber.finite (n : Rat)).isSafeInteger = true := by
    rw [show JsNumber.finite (n : Rat) = JsNumber.ofNat n from rfl, JsNumber.isSafeInteger_ofNat]
    exact decide_eq_true hle
  have hrat : (0 : Rat) < n := by exact_mod_cast hpos
  simp [asSequence, JsNumber.ofNat, hsafe, hrat]

/-- The members of an entry, as `JSON.parse` returns them. -/
def entryMembers (e : TaskLogEntry) : List (JsString × Json) :=
  [(JsString.ofString "sequence", .number (JsNumber.ofNat e.sequence)),
    (JsString.ofString "stream", .string (streamName e.stream)),
    (JsString.ofString "chunk", .string e.chunk),
    (JsString.ofString "emittedAt", .string e.emittedAt)]

theorem parse_entryText {e : TaskLogEntry} (hle : e.sequence < 2 ^ 53) :
    Json.parse (entryText e) = some (.object (entryMembers e)) := by
  obtain ⟨fuel, hfuel⟩ : ∃ fuel, (entryText e).length = fuel + 5 := by
    refine ⟨(entryText e).length - 5, ?_⟩
    have : 5 ≤ (entryText e).length := by
      simp [entryText, quote]
      omega
    omega
  have hmembers : parseMembers (fuel + 5) (entryText e).tail = some (entryMembers e, []) := by
    rw [entryText, List.tail_cons,
      parseMembers_comma (reads_natText hle) _ (fuel + 3),
      parseMembers_comma (reads_quote _) _ (fuel + 2),
      parseMembers_comma (reads_quote _) _ (fuel + 1),
      parseMembers_brace (reads_quote _) _ fuel]
    rfl
  have hobject := parse_object (fuel + 5) (entryText e).tail.tail
  have htext : '{' :: '"' :: (entryText e).tail.tail = entryText e := by
    simp [entryText, quote]
  have htail : '"' :: (entryText e).tail.tail = (entryText e).tail := by
    rw [← htext]
    rfl
  rw [htext, htail, hmembers] at hobject
  simp only [Json.parse, hfuel, hobject]
  rfl

theorem asEntry_entryMembers {e : TaskLogEntry} (hpos : 0 < e.sequence)
    (hle : e.sequence ≤ JsNumber.maxSafeInteger) :
    asEntry (.object (entryMembers e)) = some e := by
  have hsequence : (Json.object (entryMembers e)).member? (JsString.ofString "sequence")
      = some (.number (JsNumber.ofNat e.sequence)) := rfl
  have hstream : (Json.object (entryMembers e)).member? (JsString.ofString "stream")
      = some (.string (streamName e.stream)) := rfl
  have hchunk : (Json.object (entryMembers e)).member? (JsString.ofString "chunk")
      = some (.string e.chunk) := rfl
  have hemittedAt : (Json.object (entryMembers e)).member? (JsString.ofString "emittedAt")
      = some (.string e.emittedAt) := rfl
  simp only [asEntry, hsequence, hstream, hchunk, hemittedAt, asSequence_ofNat hpos hle,
    reads_streamName, asText]
  rfl

theorem parseEntry_entryText {e : TaskLogEntry} (hpos : 0 < e.sequence)
    (hle : e.sequence ≤ JsNumber.maxSafeInteger) : parseEntry (entryText e) = some e := by
  have hlt : e.sequence < 2 ^ 53 := by
    have : JsNumber.maxSafeInteger < 2 ^ 53 := by decide
    omega
  rw [parseEntry, parse_entryText hlt]
  exact asEntry_entryMembers hpos hle

end AnvilRun.TaskLogCodec
