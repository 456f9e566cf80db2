import AnvilRun.JsonRoundTrip
import AnvilRun.LogBuffer
import AnvilRun.UnicodeText

namespace AnvilRun.LogBuffer

open AnvilRun.AgentRedactor (Text)
open AnvilRun.Json
open AnvilRun.JsString

/-! The lines that the derived implementations write -/

def sequenceKey : Text := "\x7b\"sequence\":".toList
def streamKey : Text := ",\"stream\":\"".toList
def chunkKey : Text := ",\"chunk\":\"".toList
def emittedAtKey : Text := ",\"emittedAt\":\"".toList

def streamText : LogStream → Text
  | .stdout => "stdout\"".toList
  | .stderr => "stderr\"".toList

/-- The inside of a string literal. -/
def escapeText (s : Text) : Text :=
  quoteUnits (ofChars s)

def toText (e : BufferedLogEntry) : Text :=
  sequenceKey ++ (natText e.sequence ++ (streamKey ++ (streamText e.stream ++ (chunkKey ++
    (escapeText e.chunk ++ '"' :: (emittedAtKey ++ (escapeText e.emittedAt ++ ['"', '}'])))))))

def readStream (s : Text) : Option (LogStream × Text) :=
  match parseWord (streamText .stdout) s with
  | some rest => some (.stdout, rest)
  | none => do some (.stderr, ← parseWord (streamText .stderr) s)

/-- A string literal behind its opening quote, and the text behind its closing quote. -/
def readString (s : Text) : Option (Text × Text) := do
  let units ← parseUnits s
  some (← toChars? units.1, units.2)

def readLine (s : Text) : Option BufferedLogEntry := do
  let s ← parseWord sequenceKey s
  let sequence := digitsValue (s.takeWhile Char.isDigit)
  let s ← parseWord streamKey (s.dropWhile Char.isDigit)
  let (stream, s) ← readStream s
  let s ← parseWord chunkKey s
  let (chunk, s) ← readString s
  let s ← parseWord emittedAtKey s
  let (emittedAt, _) ← readString s
  if h : sequence ≤ u64Max then some ⟨sequence, stream, chunk, emittedAt, h⟩ else none

theorem parseWord_append (word rest : Text) : parseWord word (word ++ rest) = some rest := by
  rw [parseWord, if_pos (List.isPrefixOf_iff_prefix.mpr (List.prefix_append word rest)),
    List.drop_left]

theorem readStream_append (stream : LogStream) (rest : Text) :
    readStream (streamText stream ++ rest) = some (stream, rest) := by
  cases stream with
  | stdout =>
      rw [readStream, parseWord_append]
  | stderr =>
      have hnot : parseWord (streamText .stdout) (streamText .stderr ++ rest) = none := rfl
      rw [readStream, hnot, parseWord_append]
      rfl

theorem readString_append (s rest : Text) :
    readString (escapeText s ++ '"' :: rest) = some (s, rest) := by
  simp only [readString, escapeText, parseUnits_quote, Option.bind_eq_bind, Option.bind_some,
    toChars?_ofChars]

theorem readLine_toText (e : BufferedLogEntry) : readLine (toText e) = some e := by
  have hdigits : ∀ s : Text, (natText e.sequence ++ (streamKey ++ s)).takeWhile Char.isDigit
        = natText e.sequence ∧
      (natText e.sequence ++ (streamKey ++ s)).dropWhile Char.isDigit = streamKey ++ s := by
    intro s
    refine span_digits (isDigit_of_mem_natText e.sequence) (.inr ⟨',', streamKey.tail ++ s, ?_, .inl rfl⟩)
    rfl
  have hvalue : digitsValue (natText e.sequence) = e.sequence := Nat.ofDigitChars_ten_toDigits
  simp only [readLine, toText, parseWord_append, Option.bind_eq_bind, Option.bind_some,
    (hdigits _).1, (hdigits _).2, hvalue, readStream_append, readString_append]
  exact dif_pos e.sequence_le

theorem newline_not_mem_escapeText (s : Text) : '\n' ∉ escapeText s := by
  intro h
  have hnat : '\n'.toNat = 10 := rfl
  rcases quotedChar_of_mem_quoteUnits h with ⟨hge, -⟩ | ⟨u, -, hge, heq⟩ | hge
  · omega
  · omega
  · omega

theorem newline_not_mem_toText (e : BufferedLogEntry) : '\n' ∉ toText e := by
  intro h
  have hnat : '\n' ∉ natText e.sequence := by
    intro hmem
    exact absurd (isDigit_of_mem_natText e.sequence _ hmem) (by decide)
  have hstream : '\n' ∉ streamText e.stream := by
    cases e.stream
    all_goals decide
  simp only [toText, List.mem_append, List.mem_cons] at h
  rcases h with h | h | h | h | h | h | h | h | h | h
  · exact absurd h (by decide)
  · exact hnat h
  · exact absurd h (by decide)
  · exact hstream h
  · exact absurd h (by decide)
  · exact newline_not_mem_escapeText e.chunk h
  · exact absurd h (by decide)
  · exact absurd h (by decide)
  · exact newline_not_mem_escapeText e.emittedAt h
  · exact absurd h (by decide)

theorem getLast?_toText (e : BufferedLogEntry) : (toText e).getLast? = some '}' := by
  simp only [toText, List.getLast?_append, List.getLast?_cons]
  rfl

/-- The format of the agent: one JSON object a line, its members in the order of the fields. -/
def ndjson : EntryFormat where
  toText := toText
  fromStr := readLine
  fromStr_toText := readLine_toText
  newline_not_mem := newline_not_mem_toText
  getLast?_toText := getLast?_toText

end AnvilRun.LogBuffer
