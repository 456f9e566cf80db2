import AnvilRun.Json
import Mathlib.Tactic.IntervalCases

namespace AnvilRun.Json

open JsString

theorem hexValue_hexDigit {n : Nat} (h : n < 16) : hexValue (hexDigit n) = some n := by
  interval_cases n <;> decide

theorem hexUnit_hexDigit (u : UInt16) :
    hexUnit (hexDigit (u.toNat / 0x1000)) (hexDigit (u.toNat / 0x100 % 0x10))
      (hexDigit (u.toNat / 0x10 % 0x10)) (hexDigit (u.toNat % 0x10)) = some u := by
  have hlt := u.toNat_lt
  have hsum : u.toNat / 0x1000 * 0x1000 + u.toNat / 0x100 % 0x10 * 0x100
      + u.toNat / 0x10 % 0x10 * 0x10 + u.toNat % 0x10 = u.toNat := by
    omega
  rw [hexUnit, hexValue_hexDigit (by omega), hexValue_hexDigit (by omega),
    hexValue_hexDigit (by omega), hexValue_hexDigit (by omega)]
  simp only [Option.bind_eq_bind, Option.bind_some]
  rw [hsum, UInt16.ofNat_toNat]

theorem parseUnits_close (rest : List Char) : parseUnits ('"' :: rest) = some ([], rest) := by
  rw [parseUnits.eq_def]
  rfl

theorem parseUnits_char {c : Char} (hquote : c ≠ '"') (hslash : c ≠ '\\') (hge : ¬ c < ' ')
    (rest : List Char) :
    parseUnits (c :: rest) = (parseUnits rest).map (fun r => (encodeChar c ++ r.1, r.2)) := by
  rw [parseUnits.eq_def]
  simp only [if_neg hquote, if_neg hslash, if_neg hge]
  cases parseUnits rest <;> rfl

theorem parseUnits_unicodeEscape (u : UInt16) (rest : List Char) :
    parseUnits (unicodeEscape u ++ rest) = (parseUnits rest).map (fun r => (u :: r.1, r.2)) := by
  change (hexUnit _ _ _ _ >>= fun v => parseUnits rest >>= fun r => some (v :: r.1, r.2)) = _
  rw [hexUnit_hexDigit]
  cases parseUnits rest <;> rfl

theorem parseUnits_letterEscape {e : Char} {u : UInt16} (he : e ≠ 'u')
    (hu : escapedUnit e = some u) (rest : List Char) :
    parseUnits ('\\' :: e :: rest) = (parseUnits rest).map (fun r => (u :: r.1, r.2)) := by
  rw [parseUnits.eq_def]
  simp only [Char.reduceEq, if_false, if_true, he, hu, Option.bind_eq_bind, Option.bind_some]
  cases parseUnits rest <;> rfl

theorem char_ne_of_toNat_ne {c d : Char} (h : c.toNat ≠ d.toNat) : c ≠ d := by
  rintro rfl
  exact h rfl

theorem toNat_ne_of_ne {u : UInt16} {n : Nat} (h : u ≠ UInt16.ofNat n) :
    u.toNat ≠ n := by
  intro heq
  exact h (by rw [← heq, UInt16.ofNat_toNat])

theorem parseUnits_quoteUnit (u : UInt16) (rest : List Char) :
    parseUnits (quoteUnit u ++ rest) = (parseUnits rest).map (fun r => (u :: r.1, r.2)) := by
  unfold quoteUnit
  split_ifs with hquote hslash h8 h12 h10 h13 h9 hescape
  · exact parseUnits_letterEscape (by decide) (by rw [hquote]; rfl) rest
  · exact parseUnits_letterEscape (by decide) (by rw [hslash]; rfl) rest
  · exact parseUnits_letterEscape (by decide) (by rw [h8]; rfl) rest
  · exact parseUnits_letterEscape (by decide) (by rw [h12]; rfl) rest
  · exact parseUnits_letterEscape (by decide) (by rw [h10]; rfl) rest
  · exact parseUnits_letterEscape (by decide) (by rw [h13]; rfl) rest
  · exact parseUnits_letterEscape (by decide) (by rw [h9]; rfl) rest
  · exact parseUnits_unicodeEscape u rest
  · simp only [Bool.or_eq_true, decide_eq_true_eq, not_or, Bool.not_eq_true] at hescape
    obtain ⟨⟨hge, hhigh⟩, hlow⟩ := hescape
    have hnat := toNat_unitChar hhigh hlow
    have hge : 32 ≤ u.toNat := by simpa using UInt16.le_iff_toNat_le.mp (UInt16.not_lt.mp hge)
    have hspace : ¬ unitChar u < ' ' := by
      rw [Char.lt_def, UInt32.lt_iff_toNat_lt]
      change ¬ (unitChar u).toNat < 32
      omega
    have hne34 : unitChar u ≠ '"' := by
      refine char_ne_of_toNat_ne ?_
      rw [hnat]
      exact toNat_ne_of_ne hquote
    have hne92 : unitChar u ≠ '\\' := by
      refine char_ne_of_toNat_ne ?_
      rw [hnat]
      exact toNat_ne_of_ne hslash
    rw [List.singleton_append, parseUnits_char hne34 hne92 hspace, encodeChar_unitChar hhigh hlow]
    rfl

theorem parseUnits_pairChar {u v : UInt16} (hhigh : isHighSurrogate u = true)
    (hlow : isLowSurrogate v = true) (rest : List Char) :
    parseUnits (pairChar u v :: rest) = (parseUnits rest).map (fun r => (u :: v :: r.1, r.2)) := by
  have hnat := toNat_pairChar hhigh hlow
  have hspace : ¬ pairChar u v < ' ' := by
    rw [Char.lt_def, UInt32.lt_iff_toNat_lt]
    change ¬ (pairChar u v).toNat < 32
    omega
  have hne34 : pairChar u v ≠ '"' := by
    refine char_ne_of_toNat_ne ?_
    rw [hnat]
    change _ ≠ 34
    omega
  have hne92 : pairChar u v ≠ '\\' := by
    refine char_ne_of_toNat_ne ?_
    rw [hnat]
    change _ ≠ 92
    omega
  rw [parseUnits_char hne34 hne92 hspace, encodeChar_pairChar hhigh hlow]
  rfl

/-- Reading the text of units gives the units back. -/
theorem parseUnits_quoteUnits (s : JsString) (rest : List Char) :
    parseUnits (quoteUnits s ++ rest) = (parseUnits rest).map (fun r => (s ++ r.1, r.2)) := by
  fun_induction quoteUnits s with
  | case1 => simp
  | case2 u => exact parseUnits_quoteUnit u rest
  | case3 u v s hpair ih =>
      simp only [Bool.and_eq_true] at hpair
      rw [List.cons_append, parseUnits_pairChar hpair.1 hpair.2, ih, Option.map_map]
      rfl
  | case4 u v s hpair ih =>
      rw [List.append_assoc, parseUnits_quoteUnit, ih, Option.map_map]
      rfl

theorem parseUnits_quote (s : JsString) (rest : List Char) :
    parseUnits (quoteUnits s ++ '"' :: rest) = some (s, rest) := by
  rw [parseUnits_quoteUnits, parseUnits_close]
  simp

/-- A string literal that is cut off cannot be read. -/
theorem parseUnits_cut (s : JsString) : parseUnits (quoteUnits s) = none := by
  have h := parseUnits_quoteUnits s []
  rw [List.append_nil] at h
  rw [h]
  rfl

/-- A unit that is no surrogate separates the texts on its two sides. -/
theorem quoteUnits_append {u : UInt16} (hhigh : isHighSurrogate u = false)
    (hlow : isLowSurrogate u = false) (s t : JsString) :
    quoteUnits (s ++ u :: t) = quoteUnits s ++ quoteUnit u ++ quoteUnits t := by
  have hsingle : quoteUnits (u :: t) = quoteUnit u ++ quoteUnits t := by
    cases t with
    | nil => simp [quoteUnits]
    | cons v t => simp [quoteUnits, hhigh]
  fun_induction quoteUnits s with
  | case1 => simpa using hsingle
  | case2 v => simp [quoteUnits, hlow, hsingle]
  | case3 v w s hpair ih => simp [quoteUnits, hpair, ih]
  | case4 v w s hpair ih =>
      simp only [List.cons_append] at ih
      simp [quoteUnits, hpair, ih]

/-- What a character of the text of some units is: printable ASCII, one of the units, or the
character of a surrogate pair. -/
def QuotedChar (s : JsString) (c : Char) : Prop :=
  (32 ≤ c.toNat ∧ c.toNat < 127) ∨ (∃ u ∈ s, 32 ≤ u.toNat ∧ u.toNat = c.toNat) ∨
    0x10000 ≤ c.toNat

theorem QuotedChar.mono {s t : JsString} (hst : ∀ u ∈ s, u ∈ t) {c : Char}
    (h : QuotedChar s c) : QuotedChar t c := by
  rcases h with h | ⟨u, hu, h⟩ | h
  · exact Or.inl h
  · exact Or.inr (Or.inl ⟨u, hst u hu, h⟩)
  · exact Or.inr (Or.inr h)

theorem hexDigit_printable {n : Nat} (h : n < 16) :
    32 ≤ (hexDigit n).toNat ∧ (hexDigit n).toNat < 127 := by
  interval_cases n <;> decide

theorem quotedChar_of_mem_unicodeEscape {c : Char} {u : UInt16} (h : c ∈ unicodeEscape u) :
    32 ≤ c.toNat ∧ c.toNat < 127 := by
  have hlt := u.toNat_lt
  simp only [unicodeEscape, List.mem_cons, List.not_mem_nil, or_false] at h
  rcases h with rfl | rfl | rfl | rfl | rfl | rfl
  · decide
  · decide
  · exact hexDigit_printable (by omega)
  · exact hexDigit_printable (by omega)
  · exact hexDigit_printable (by omega)
  · exact hexDigit_printable (by omega)

theorem quotedChar_of_mem_quoteUnit {c : Char} {u : UInt16} (h : c ∈ quoteUnit u) :
    QuotedChar [u] c := by
  have hpair : ∀ a b : Char, 32 ≤ a.toNat ∧ a.toNat < 127 → 32 ≤ b.toNat ∧ b.toNat < 127 →
      c ∈ [a, b] → QuotedChar [u] c := by
    intro a b ha hb hc
    simp only [List.mem_cons, List.not_mem_nil, or_false] at hc
    rcases hc with rfl | rfl
    · exact Or.inl ha
    · exact Or.inl hb
  unfold quoteUnit at h
  split_ifs at h with hquote hslash h8 h12 h10 h13 h9 hescape
  · exact hpair _ _ (by decide) (by decide) h
  · exact hpair _ _ (by decide) (by decide) h
  · exact hpair _ _ (by decide) (by decide) h
  · exact hpair _ _ (by decide) (by decide) h
  · exact hpair _ _ (by decide) (by decide) h
  · exact hpair _ _ (by decide) (by decide) h
  · exact hpair _ _ (by decide) (by decide) h
  · exact Or.inl (quotedChar_of_mem_unicodeEscape h)
  · simp only [Bool.or_eq_true, decide_eq_true_eq, not_or, Bool.not_eq_true] at hescape
    obtain ⟨⟨hge, hhigh⟩, hlow⟩ := hescape
    have hge : 32 ≤ u.toNat := by simpa using UInt16.le_iff_toNat_le.mp (UInt16.not_lt.mp hge)
    have hnat := toNat_unitChar hhigh hlow
    rw [List.mem_singleton.mp h]
    exact Or.inr (Or.inl ⟨u, List.mem_singleton_self u, hge, hnat.symm⟩)

theorem quotedChar_of_mem_quoteUnits {c : Char} {s : JsString} (h : c ∈ quoteUnits s) :
    QuotedChar s c := by
  fun_induction quoteUnits s with
  | case1 => simp at h
  | case2 u => exact quotedChar_of_mem_quoteUnit h
  | case3 u v s hpair ih =>
      rcases List.mem_cons.mp h with hc | h
      · simp only [Bool.and_eq_true] at hpair
        have hge : 0x10000 ≤ c.toNat := by
          rw [hc, toNat_pairChar hpair.1 hpair.2, Nat.add_assoc]
          exact Nat.le_add_right _ _
        exact Or.inr (Or.inr hge)
      · exact (ih h).mono (fun w hw => List.mem_cons_of_mem _ (List.mem_cons_of_mem _ hw))
  | case4 u v s hpair ih =>
      rcases List.mem_append.mp h with h | h
      · exact (quotedChar_of_mem_quoteUnit h).mono (by simp)
      · exact (ih h).mono (fun w hw => List.mem_cons_of_mem _ hw)

/-- What follows a value inside a document. -/
def Delimited (rest : List Char) : Prop :=
  rest = [] ∨ ∃ c t, rest = c :: t ∧ (c = ',' ∨ c = '}' ∨ c = ']')

theorem Delimited.head_not_digit {rest : List Char} (h : Delimited rest) :
    rest.takeWhile Char.isDigit = [] ∧ rest.dropWhile Char.isDigit = rest := by
  rcases h with rfl | ⟨c, t, rfl, rfl | rfl | rfl⟩ <;> exact ⟨rfl, rfl⟩

theorem Delimited.parseFraction {rest : List Char} (h : Delimited rest) :
    parseFraction rest = some ([], rest) := by
  rcases h with rfl | ⟨c, t, rfl, rfl | rfl | rfl⟩ <;> rfl

theorem Delimited.parseExponent {rest : List Char} (h : Delimited rest) :
    parseExponent rest = some (0, rest) := by
  rcases h with rfl | ⟨c, t, rfl, rfl | rfl | rfl⟩ <;> rfl

theorem span_digits {digits rest : List Char} (hdigits : ∀ c ∈ digits, c.isDigit = true)
    (hrest : Delimited rest) :
    (digits ++ rest).takeWhile Char.isDigit = digits ∧
      (digits ++ rest).dropWhile Char.isDigit = rest := by
  induction digits with
  | nil => exact hrest.head_not_digit
  | cons c digits ih =>
      obtain ⟨htake, hdrop⟩ := ih (fun d hd => hdigits d (List.mem_cons_of_mem _ hd))
      have hc := hdigits c (List.mem_cons_self ..)
      exact ⟨by simp [hc, htake], by simp [hc, hdrop]⟩

theorem head_natText {n : Nat} (hn : 0 < n) : (natText n).head? ≠ some '0' := by
  induction n using Nat.strong_induction_on with
  | _ n ih =>
      by_cases hlt : n < 10
      · rw [natText, Nat.toDigits_of_lt_base hlt]
        interval_cases n <;> decide
      · have hquotient := ih (n / 10) (by omega) (by omega)
        rw [natText] at hquotient ⊢
        have hne : Nat.toDigits 10 (n / 10) ≠ [] := Nat.toDigits_ne_nil
        obtain ⟨d, digits, hdigits⟩ := List.exists_cons_of_ne_nil hne
        rw [Nat.toDigits_of_base_le (by decide) (by omega), hdigits]
        rw [hdigits] at hquotient
        exact hquotient

theorem isDigit_of_mem_natText (n : Nat) : ∀ c ∈ natText n, c.isDigit = true :=
  fun _ h => Nat.isDigit_of_mem_toDigits (by decide) (by decide) h

theorem parseMagnitude_natText {n : Nat} (hn : n < 2 ^ 53) {rest : List Char}
    (hrest : Delimited rest) :
    parseMagnitude false (natText n ++ rest) = some (JsNumber.ofNat n, rest) := by
  obtain ⟨htake, hdrop⟩ := span_digits (isDigit_of_mem_natText n) hrest
  have hvalue : digitsValue (natText n) = n := Nat.ofDigitChars_ten_toDigits
  have hguard : ((natText n).isEmpty ||
      ((natText n).head? == some '0' && decide (1 < (natText n).length))) = false := by
    have hne : natText n ≠ [] := Nat.toDigits_ne_nil
    rcases Nat.eq_zero_or_pos n with rfl | hpos
    · rfl
    · simp [hne, head_natText hpos]
  have hnumber : JsNumber.ofDecimal false n 0 = JsNumber.ofNat n := by
    simpa [JsNumber.ofDecimal] using JsNumber.nearestDouble_nat hn
  simp only [parseMagnitude, htake, hdrop, hguard, hrest.parseFraction, hrest.parseExponent,
    Option.bind_eq_bind, Option.bind_some, List.append_nil, hvalue, List.length_nil,
    Nat.cast_zero, Int.sub_zero, hnumber, Bool.false_eq_true, if_false]

/-- `text` is read as `v` wherever a value may stand. -/
def Reads (text : List Char) (v : Json) : Prop :=
  ∀ fuel rest, Delimited rest → parseValue (fuel + 1) (text ++ rest) = some (v, rest)

theorem reads_quote (s : JsString) : Reads (quote s) (string s) := by
  intro fuel rest _
  have hskip : skipSpace (quote s ++ rest) = '"' :: (quoteUnits s ++ '"' :: rest) := by
    simp [quote, skipSpace, isSpace]
  rw [parseValue, hskip]
  simp only [if_true, parseUnits_quote]
  rfl

theorem reads_natText {n : Nat} (hn : n < 2 ^ 53) :
    Reads (natText n) (number (JsNumber.ofNat n)) := by
  intro fuel rest hrest
  have hnil : natText n ≠ [] := Nat.toDigits_ne_nil
  obtain ⟨c, digits, hdigits⟩ := List.exists_cons_of_ne_nil hnil
  have hc : c.isDigit = true := isDigit_of_mem_natText n c (by rw [hdigits]; simp)
  have hne : ∀ d : Char, d.isDigit = false → c ≠ d := by
    rintro d hd rfl
    simp [hc] at hd
  have hspace : isSpace c = false := by
    simp [isSpace, hne ' ' (by decide), hne '\t' (by decide), hne '\n' (by decide),
      hne '\r' (by decide)]
  have hskip : skipSpace (natText n ++ rest) = c :: (digits ++ rest) := by
    simp [hdigits, skipSpace, hspace]
  have hnumber : parseNumber (c :: (digits ++ rest)) = some (JsNumber.ofNat n, rest) := by
    have hminus := hne '-' (by decide)
    rw [parseNumber.eq_2 _ (by
      intro s hs
      exact hminus (List.cons.inj hs).1)]
    rw [← List.cons_append, ← hdigits]
    exact parseMagnitude_natText hn hrest
  rw [parseValue, hskip]
  simp only [if_neg (hne '"' (by decide)), if_neg (hne '{' (by decide)),
    if_neg (hne '[' (by decide)), if_neg (hne 't' (by decide)), if_neg (hne 'f' (by decide)),
    if_neg (hne 'n' (by decide)), hnumber]
  rfl

theorem skipSpace_of_delimiter {c : Char} (hc : isSpace c = false) (s : List Char) :
    skipSpace (c :: s) = c :: s := by
  simp [skipSpace, hc]

/-- A member that is read leaves the members behind its comma. -/
theorem parseMembers_comma {text : List Char} {v : Json} (h : Reads text v) (key : JsString)
    (fuel : Nat) (s : List Char) :
    parseMembers (fuel + 2) (quote key ++ ':' :: (text ++ ',' :: s))
      = (parseMembers (fuel + 1) s).map (fun r => ((key, v) :: r.1, r.2)) := by
  have hvalue := h fuel (',' :: s) (Or.inr ⟨',', s, rfl, Or.inl rfl⟩)
  have hskip : skipSpace (quote key ++ ':' :: (text ++ ',' :: s))
      = '"' :: (quoteUnits key ++ '"' :: ':' :: (text ++ ',' :: s)) := by
    simp [quote, skipSpace, isSpace]
  rw [parseMembers, hskip]
  simp only [parseUnits_quote, Option.bind_eq_bind, Option.bind_some]
  rw [skipSpace_of_delimiter (by decide)]
  simp only [hvalue, Option.bind_some]
  rw [skipSpace_of_delimiter (by decide)]
  change (parseMembers (fuel + 1) s).bind _ = _
  cases parseMembers (fuel + 1) s <;> rfl

theorem parseMembers_brace {text : List Char} {v : Json} (h : Reads text v) (key : JsString)
    (fuel : Nat) (s : List Char) :
    parseMembers (fuel + 2) (quote key ++ ':' :: (text ++ '}' :: s)) = some ([(key, v)], s) := by
  have hvalue := h fuel ('}' :: s) (Or.inr ⟨'}', s, rfl, Or.inr (Or.inl rfl)⟩)
  have hskip : skipSpace (quote key ++ ':' :: (text ++ '}' :: s))
      = '"' :: (quoteUnits key ++ '"' :: ':' :: (text ++ '}' :: s)) := by
    simp [quote, skipSpace, isSpace]
  rw [parseMembers, hskip]
  simp only [parseUnits_quote, Option.bind_eq_bind, Option.bind_some]
  rw [skipSpace_of_delimiter (by decide)]
  simp only [hvalue, Option.bind_some]
  rw [skipSpace_of_delimiter (by decide)]
  rfl

/-- A member whose string is cut off cannot be read. -/
theorem parseMembers_cut (key s : JsString) (fuel : Nat) :
    parseMembers (fuel + 2) (quote key ++ ':' :: '"' :: quoteUnits s) = none := by
  have hskip : skipSpace (quote key ++ ':' :: '"' :: quoteUnits s)
      = '"' :: (quoteUnits key ++ '"' :: ':' :: '"' :: quoteUnits s) := by
    simp [quote, skipSpace, isSpace]
  have hvalue : parseValue (fuel + 1) ('"' :: quoteUnits s) = none := by
    rw [parseValue, skipSpace_of_delimiter (by decide)]
    simp only [if_true, parseUnits_cut]
    rfl
  rw [parseMembers, hskip]
  simp only [parseUnits_quote, Option.bind_eq_bind, Option.bind_some]
  rw [skipSpace_of_delimiter (by decide)]
  simp only [hvalue, Option.bind_none]

/-- The text of an object with at least one member, given the texts of its members. -/
theorem parse_object (fuel : Nat) (s : List Char) :
    parseValue (fuel + 1) ('{' :: '"' :: s)
      = (parseMembers fuel ('"' :: s)).map (fun r => (object r.1, r.2)) := by
  rw [parseValue, skipSpace_of_delimiter (by decide)]
  simp only [Char.reduceEq, if_false, if_true]
  rw [skipSpace_of_delimiter (by decide)]
  change (parseMembers fuel ('"' :: s)).bind _ = _
  cases parseMembers fuel ('"' :: s) <;> rfl

end AnvilRun.Json
