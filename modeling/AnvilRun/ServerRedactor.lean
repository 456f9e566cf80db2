import AnvilRun.HoldBack
import AnvilRun.JsString
import AnvilRun.LogStream
import Mathlib.Data.List.Dedup

namespace AnvilRun.ServerRedactor

open AnvilRun.Replacement
open AnvilRun.Masking
open AnvilRun.HoldBack

def mask : JsString := JsString.ofString "[REDACTED]"

/-- The redactor of one task. Its values are never empty and stand longest first; a stream
without an entry in the pending map holds nothing back. -/
structure ServerLogRedactor where
  values : List JsString
  pending : LogStream → JsString
  values_ne_nil : ∀ value ∈ values, value ≠ []
  values_sorted : values.Pairwise (fun v w => w.length ≤ v.length)

/-- `new Set(values)`: the distinct values in the order of their first occurrence. -/
def distinct (values : List JsString) : List JsString :=
  values.reverse.dedup.reverse

theorem mem_distinct {value : JsString} {values : List JsString} :
    value ∈ distinct values ↔ value ∈ values := by
  simp [distinct]

/-- The constructor: distinct values, sorted by `(left, right) => right.length - left.length`. -/
def ServerLogRedactor.ofValues (values : List JsString) : ServerLogRedactor where
  values := longestFirst List.length
    (distinct (values.filter (fun value => decide (0 < value.length))))
  pending := fun _ => []
  values_ne_nil := by
    intro value hvalue
    have hmem := mem_distinct.mp (mem_longestFirst.mp hvalue)
    exact List.ne_nil_of_length_pos (by simpa using (List.mem_filter.mp hmem).2)
  values_sorted := longestFirst_sorted List.length _

def ServerLogRedactor.replace (r : ServerLogRedactor) (value : JsString) : JsString :=
  maskAll mask r.values value

/-- How much of the end of `combined` may be the start of a value. -/
def holdLength (values : List JsString) (combined : JsString) : Nat :=
  values.foldl (fun hold value =>
    (List.range' 1 (min (value.length - 1) combined.length)).foldl (fun hold length =>
      if value.take length <:+ combined then max hold length else hold) hold) 0

def ServerLogRedactor.setPending (r : ServerLogRedactor) (stream : LogStream)
    (text : JsString) : ServerLogRedactor :=
  { r with pending := Function.update r.pending stream text }

def ServerLogRedactor.redact (r : ServerLogRedactor) (stream : LogStream) (chunk : JsString) :
    JsString × ServerLogRedactor :=
  let combined := r.pending stream ++ chunk
  let cleared := r.setPending stream []
  if r.values = [] then (chunk, cleared)
  else if r.replace combined ≠ combined then (r.replace combined, cleared)
  else
    let hold := holdLength r.values combined
    if hold = 0 then (combined, cleared)
    else
      (r.replace (combined.take (combined.length - hold)),
        r.setPending stream (combined.drop (combined.length - hold)))

/-- The chunks returned for the chunks of a log, in order. -/
def ServerLogRedactor.redactAll (r : ServerLogRedactor) :
    List (LogStream × JsString) → List (LogStream × JsString) × ServerLogRedactor
  | [] => ([], r)
  | (stream, chunk) :: log =>
      let masked := r.redact stream chunk
      let rest := masked.2.redactAll log
      ((stream, masked.1) :: rest.1, rest.2)

/-- The text of one stream of a log. -/
def streamText (stream : LogStream) : List (LogStream × JsString) → JsString
  | [] => []
  | (s, chunk) :: log => if s = stream then chunk ++ streamText stream log else streamText stream log

/-- All the text of one stream that leaves the redactor, with what it holds back at the end
masked as well. -/
def ServerLogRedactor.output (r : ServerLogRedactor) (stream : LogStream)
    (log : List (LogStream × JsString)) : JsString :=
  streamText stream (r.redactAll log).1 ++
    (r.redactAll log).2.replace ((r.redactAll log).2.pending stream)

theorem mem_range'_min {n length : Nat} (value : JsString) :
    length ∈ List.range' 1 (min (value.length - 1) n) ↔
      1 ≤ length ∧ length < value.length ∧ length ≤ n := by
  rw [List.mem_range'_1]
  omega

/-- `holdLength` measures the longest border. -/
theorem holdLength_isMax (values : List JsString) (combined : JsString) :
    IsMax 0 (fun n => ∃ u, Border values combined u ∧ n = u.length)
      (holdLength values combined) := by
  refine (isMax_foldl _ _ (fun a value => isMax_foldl _ _ (fun a n => isMax_ite a n _)
    (List.range' 1 (min (value.length - 1) combined.length)) a) values 0).congr (fun n => ?_)
  constructor
  · rintro ⟨value, hvalue, m, hm, hsuffix, rfl⟩
    obtain ⟨hpos, hlt, -⟩ := (mem_range'_min value).mp hm
    have hlength : (value.take n).length = n := by
      rw [List.length_take]
      omega
    refine ⟨value.take n, ⟨?_, hsuffix, value, hvalue, value.drop n, ?_, ?_⟩, hlength.symm⟩
    · exact List.ne_nil_of_length_pos (by omega)
    · exact List.ne_nil_of_length_pos (by rw [List.length_drop]; omega)
    · exact (List.take_append_drop n value).symm
  · rintro ⟨u, ⟨hu, hsuffix, value, hvalue, w, hw, rfl⟩, rfl⟩
    have hupos := List.length_pos_of_ne_nil hu
    have hwpos := List.length_pos_of_ne_nil hw
    refine ⟨u ++ w, hvalue, u.length, (mem_range'_min _).mpr ⟨hupos, ?_, hsuffix.length_le⟩,
      ?_, rfl⟩
    · rw [List.length_append]
      omega
    · rwa [List.take_left]

theorem suffixWeight_length : SuffixWeight (List.length : JsString → Nat) :=
  ⟨rfl, fun _ _ hu hle => hu.eq_of_length_le hle⟩

/-- One call of `redact` masks a part `x` of the text it has and holds the rest `y`. The cut
is clean for all that may follow, unless the text held a complete value. -/
theorem redact_spec (r : ServerLogRedactor) (hsep : Separated mask r.values)
    (stream : LogStream) (chunk : JsString) (hempty : r.values = [] → r.pending stream = []) :
    ∃ x y, r.pending stream ++ chunk = x ++ y ∧
      r.redact stream chunk = (r.replace x, r.setPending stream y) ∧
      (r.values = [] → y = []) ∧
      ((y = [] ∧ r.replace x ≠ x) ∨ ∀ later, CleanCut r.values x (y ++ later)) := by
  by_cases hvalues : r.values = []
  · refine ⟨chunk, [], by simp [hempty hvalues], ?_, fun _ => rfl, Or.inr fun later v hv => ?_⟩
    · simp [ServerLogRedactor.redact, ServerLogRedactor.replace, hvalues]
    · simp [hvalues] at hv
  · by_cases hmasked : r.replace (r.pending stream ++ chunk) ≠ r.pending stream ++ chunk
    · refine ⟨r.pending stream ++ chunk, [], (List.append_nil _).symm, ?_, fun _ => rfl,
        Or.inl ⟨rfl, hmasked⟩⟩
      simp only [ServerLogRedactor.redact, hvalues, if_false, hmasked, if_true, ne_eq,
        not_false_eq_true]
    · have hsame : r.replace (r.pending stream ++ chunk) = r.pending stream ++ chunk :=
        not_not.mp hmasked
      have hfree : ∀ value ∈ r.values, ¬ value <:+: r.pending stream ++ chunk := by
        intro value hvalue
        rw [← hsame]
        exact not_infix_maskAll hsep hvalue _
      obtain ⟨o, ho, hhold⟩ := exists_longestBorder suffixWeight_length
        (holdLength_isMax r.values (r.pending stream ++ chunk))
      obtain ⟨x, hx⟩ := ho.suffix
      refine ⟨x, o, hx.symm, ?_, fun h => absurd h hvalues, Or.inr ?_⟩
      · simp only [ServerLogRedactor.redact, hvalues, if_false, hmasked, ← hhold]
        cases o with
        | nil =>
            rw [List.append_nil] at hx
            rw [← hx] at hsame
            simp [hsame, ← hx]
        | cons a o =>
            have hlength : (r.pending stream ++ chunk).length - (a :: o).length = x.length := by
              rw [← hx, List.length_append]
              omega
            rw [hlength, ← hx, List.take_left, List.drop_left]
            simp
      · rw [← hx] at ho hfree
        exact fun later => ho.cleanCut hfree later

/-- No value straddles the end of a chunk of the stream behind which nothing is held because
the text up to it contains a complete value. -/
def NoLateStraddle (r : ServerLogRedactor) (stream : LogStream) :
    List (LogStream × JsString) → Prop
  | [] => True
  | (s, chunk) :: log =>
      (s = stream → r.replace (r.pending s ++ chunk) ≠ r.pending s ++ chunk →
        CleanCut r.values (r.pending s ++ chunk) (streamText stream log)) ∧
      NoLateStraddle (r.redact s chunk).2 stream log

@[simp]
theorem setPending_values (r : ServerLogRedactor) (stream : LogStream) (text : JsString) :
    (r.setPending stream text).values = r.values := rfl

@[simp]
theorem setPending_replace (r : ServerLogRedactor) (stream : LogStream) (text value : JsString) :
    (r.setPending stream text).replace value = r.replace value := rfl

@[simp]
theorem setPending_pending_self (r : ServerLogRedactor) (stream : LogStream) (text : JsString) :
    (r.setPending stream text).pending stream = text :=
  Function.update_self ..

theorem setPending_pending_of_ne (r : ServerLogRedactor) {s stream : LogStream}
    (h : s ≠ stream) (text : JsString) :
    (r.setPending s text).pending stream = r.pending stream :=
  Function.update_of_ne h.symm ..

theorem redactAll_values (r : ServerLogRedactor) (log : List (LogStream × JsString)) :
    (r.redactAll log).2.values = r.values := by
  induction log generalizing r with
  | nil => rfl
  | cons entry log ih =>
      obtain ⟨s, chunk⟩ := entry
      have hvalues : (r.redact s chunk).2.values = r.values := by
        simp only [ServerLogRedactor.redact]
        split_ifs <;> rfl
      exact (ih _).trans hvalues

theorem output_eq_of_noLateStraddle (r : ServerLogRedactor) (hsep : Separated mask r.values)
    (hempty : r.values = [] → ∀ s, r.pending s = []) (stream : LogStream)
    (log : List (LogStream × JsString)) (hlog : NoLateStraddle r stream log) :
    r.output stream log = r.replace (r.pending stream ++ streamText stream log) := by
  induction log generalizing r with
  | nil => simp [ServerLogRedactor.output, ServerLogRedactor.redactAll, streamText]
  | cons entry log ih =>
      obtain ⟨s, chunk⟩ := entry
      obtain ⟨x, y, hxy, hredact, hnil, hcut⟩ :=
        redact_spec r hsep s chunk (fun h => hempty h s)
      have hnext : (r.setPending s y).values = [] →
          ∀ t, (r.setPending s y).pending t = [] := by
        intro hvalues t
        by_cases ht : s = t
        · subst ht
          rw [setPending_pending_self]
          exact hnil hvalues
        · rw [setPending_pending_of_ne r ht]
          exact hempty hvalues t
      obtain ⟨hfirst, hrest⟩ := hlog
      rw [hredact] at hrest
      have hout := ih (r.setPending s y) hsep hnext hrest
      simp only [ServerLogRedactor.output] at hout
      simp only [ServerLogRedactor.output, ServerLogRedactor.redactAll, hredact, streamText]
      by_cases hs : s = stream
      · subst hs
        have hclean : CleanCut r.values x (y ++ streamText s log) := by
          rcases hcut with ⟨rfl, hmasked⟩ | hclean
          · rw [List.append_nil] at hxy
            rw [List.nil_append, ← hxy]
            exact hfirst rfl (hxy ▸ hmasked)
          · exact hclean _
        rw [if_pos rfl, if_pos rfl, List.append_assoc, hout, ← List.append_assoc, hxy,
          List.append_assoc, setPending_pending_self]
        exact (maskAll_append hsep hclean).symm
      · rw [if_neg hs, if_neg hs, hout, setPending_pending_of_ne r hs]
        rfl

/-- For this log the redactor returns what masking the whole stream gives, and no value is
left in it. -/
def OutputMasked (r : ServerLogRedactor) (stream : LogStream)
    (log : List (LogStream × JsString)) : Prop :=
  r.output stream log = r.replace (streamText stream log) ∧
    ∀ value ∈ r.values, ¬ value <:+: r.output stream log

theorem outputMasked_of_noLateStraddle (r : ServerLogRedactor)
    (hfresh : ∀ stream, r.pending stream = []) (hsep : Separated mask r.values)
    {stream : LogStream} {log : List (LogStream × JsString)}
    (hlog : NoLateStraddle r stream log) : OutputMasked r stream log := by
  have hout := output_eq_of_noLateStraddle r hsep (fun _ => hfresh) stream log hlog
  rw [hfresh, List.nil_append] at hout
  refine ⟨hout, fun value hvalue => ?_⟩
  rw [hout]
  exact not_infix_maskAll hsep hvalue _

theorem noLateStraddle_of_length_one (r : ServerLogRedactor)
    (hone : ∀ value ∈ r.values, value.length = 1) (stream : LogStream)
    (log : List (LogStream × JsString)) : NoLateStraddle r stream log := by
  induction log generalizing r with
  | nil => trivial
  | cons entry log ih =>
      obtain ⟨s, chunk⟩ := entry
      have hvalues := redactAll_values r [(s, chunk)]
      refine ⟨?_, ih _ (fun value hvalue => hone value (hvalues ▸ hvalue))⟩
      rintro - - value hvalue ⟨u, w, hu, hw, rfl, -, -⟩
      have hlength := hone _ hvalue
      have hupos := List.length_pos_of_ne_nil hu
      have hwpos := List.length_pos_of_ne_nil hw
      rw [List.length_append] at hlength
      omega

/-- The log that shows a value `v` slipping through: a first chunk with `v`, a symbol no value
has and the start of `v` again, then a chunk with the rest of `v`. -/
def straddlingLog (stream : LogStream) (a : UInt16) (v : JsString) :
    List (LogStream × JsString) :=
  [(stream, a :: v ++ 91 :: [a]), (stream, v)]

theorem not_outputMasked_straddlingLog (r : ServerLogRedactor)
    (hfresh : ∀ stream, r.pending stream = []) (hsep : Separated mask r.values)
    {a : UInt16} {v : JsString} (hvalue : a :: v ∈ r.values) (hv : v ≠ []) (stream : LogStream) :
    ¬ OutputMasked r stream (straddlingLog stream a v) := by
  rintro ⟨hout, -⟩
  have hvalues : r.values ≠ [] := List.ne_nil_of_mem hvalue
  have hbracket : ∀ value ∈ r.values, (91 : UInt16) ∉ value := by
    intro value hmem h91
    exact hsep.value_disjoint value hmem h91 (by decide)
  have hwhole : r.replace (a :: v) = mask :=
    maskAll_self hsep (r.values_sorted.imp (fun hle hocc => hocc.eq_of_length_le hle)) hvalue
  have hsplit : ∀ z, r.replace (a :: v ++ 91 :: z) = mask ++ 91 :: r.replace z := by
    intro z
    exact hwhole ▸ maskAll_append_separator hsep hbracket (a :: v) z
  -- the first chunk holds a complete value, so it is returned whole and nothing is held
  have hmasked : r.replace (a :: v ++ 91 :: [a]) ≠ a :: v ++ 91 :: [a] := by
    intro hsame
    refine not_infix_maskAll hsep hvalue (a :: v ++ 91 :: [a]) ?_
    rw [ServerLogRedactor.replace] at hsame
    rw [hsame]
    exact (List.prefix_append _ _).isInfix
  have hfirst : r.redact stream (a :: v ++ 91 :: [a]) =
      (mask ++ 91 :: r.replace [a], r.setPending stream []) := by
    rw [hsplit] at hmasked
    simp only [ServerLogRedactor.redact, hvalues, if_false, hfresh, List.nil_append, hsplit]
    rw [if_pos hmasked]
  have hsecond := output_eq_of_noLateStraddle (r.setPending stream []) hsep
    (fun h => absurd h hvalues) stream [(stream, v)] (by
      refine ⟨fun _ _ value _ => ?_, trivial⟩
      rintro ⟨u, w, -, hw, -, -, hwy⟩
      exact hw (List.prefix_nil.mp hwy))
  rw [setPending_pending_self, List.nil_append, setPending_replace] at hsecond
  have hwholeText : streamText stream (straddlingLog stream a v) = a :: v ++ 91 :: (a :: v) := by
    simp [straddlingLog, streamText]
  have houtput : r.output stream (straddlingLog stream a v)
      = mask ++ 91 :: (r.replace [a] ++ r.replace v) := by
    have hstep : r.output stream (straddlingLog stream a v) = mask ++ 91 :: r.replace [a] ++
        (r.setPending stream []).output stream [(stream, v)] := by
      rw [straddlingLog]
      simp only [ServerLogRedactor.output, ServerLogRedactor.redactAll, hfirst, streamText,
        if_true, List.append_assoc]
    rw [hstep, hsecond]
    simp [streamText]
  rw [houtput, hwholeText, hsplit, hwhole] at hout
  have hrest := List.cons.inj (List.append_cancel_left hout)
  have ha : a ∉ mask := hsep.value_disjoint _ hvalue (List.mem_cons_self ..)
  exact maskAll_append_maskAll_ne_mask hsep ha [] hv [] (by simpa [ServerLogRedactor.replace] using hrest.2)

/-- Redaction in chunks is masking the whole stream as long as no value straddles the end of a
chunk whose text holds a complete value. It is so for every log exactly when all values are
single code units. -/
theorem output_chunkIndependent (r : ServerLogRedactor)
    (hfresh : ∀ stream, r.pending stream = [])
    (hdisjoint : ∀ value ∈ r.values, SharesNoSymbol mask value) :
    (∀ stream log, NoLateStraddle r stream log → OutputMasked r stream log) ∧
      ((∀ stream log, OutputMasked r stream log) ↔ ∀ value ∈ r.values, value.length = 1) := by
  have hsep : Separated mask r.values :=
    ⟨by decide, r.values_ne_nil, fun value hvalue a ha => hdisjoint value hvalue a ha⟩
  have hrun : ∀ stream log, NoLateStraddle r stream log → OutputMasked r stream log :=
    fun _ _ hlog => outputMasked_of_noLateStraddle r hfresh hsep hlog
  refine ⟨hrun, fun hall value hvalue => ?_, fun hone stream log => ?_⟩
  · obtain ⟨a, v, rfl⟩ := List.exists_cons_of_ne_nil (r.values_ne_nil value hvalue)
    cases v with
    | nil => rfl
    | cons b v =>
        exact absurd (hall .stdout _)
          (not_outputMasked_straddlingLog r hfresh hsep hvalue (by simp) .stdout)
  · exact hrun stream log (noLateStraddle_of_length_one r hone stream log)

/-- The result at a redactor with one value of a single unit. -/
theorem output_chunkIndependent_single :
    OutputMasked (.ofValues [JsString.ofString "7"]) .stdout
      [(.stdout, JsString.ofString "pin 7"), (.stdout, JsString.ofString "7 done")] :=
  (output_chunkIndependent _ (fun _ => rfl) (by decide)).2.mpr (by decide) .stdout _

/-- A value that starts in a chunk with a complete value in it is stored in clear. -/
theorem output_secret_not_masked :
    ¬ OutputMasked (.ofValues [JsString.ofString "hunter"]) .stdout
      [(.stdout, JsString.ofString "pw=hunter again hun"), (.stdout, JsString.ofString "ter")] := by
  intro h
  exact h.2 (JsString.ofString "hunter") (by decide) (by decide)

end AnvilRun.ServerRedactor
