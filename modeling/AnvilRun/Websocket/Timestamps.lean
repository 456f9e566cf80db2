import AnvilRun.Decimals
import AnvilRun.TextUnits
import AnvilRun.Websocket.TextChecks
import Mathlib.Data.List.GetD

namespace AnvilRun.Websocket

open AnvilRun.AgentContracts
open AnvilRun.Decimals
open AnvilRun.ValidationPrimitives
open JsString

/-! What a timestamp denotes -/

/-- A leap year of the Gregorian calendar. -/
def IsLeap (year : Nat) : Prop :=
  4 ∣ year ∧ (100 ∣ year → 400 ∣ year)

instance (year : Nat) : Decidable (IsLeap year) :=
  inferInstanceAs (Decidable (4 ∣ year ∧ (100 ∣ year → 400 ∣ year)))

/-- The lengths of the months from January on. -/
def monthLengths (year : Nat) : List Nat :=
  [31, if IsLeap year then 29 else 28, 31, 30, 31, 30, 31, 31, 30, 31, 30, 31]

/-- A date of the Gregorian calendar in a year of four digits. -/
structure CalendarDate where
  year : Nat
  month : Nat
  day : Nat
  year_lt : year < 10000
  month_pos : 1 ≤ month
  month_le : month ≤ 12
  day_pos : 1 ≤ day
  day_le : day ≤ (monthLengths year).getD (month - 1) 0

/-- A date and a time of the day, with the digits of a fraction of the second. -/
structure UtcTime where
  date : CalendarDate
  hour : Nat
  minute : Nat
  second : Nat
  fraction : List Nat
  hour_le : hour ≤ 23
  minute_le : minute ≤ 59
  second_le : second ≤ 59
  fraction_length : fraction.length ≤ 9
  fraction_digits : ∀ digit ∈ fraction, digit < 10

/-- An optional fraction and the letter of UTC. -/
def fractionCodes (fraction : List Nat) : List Nat :=
  (if fraction = [] then [] else 46 :: fraction.map digitCode) ++ [90]

/-- `YYYY-MM-DDThh:mm:ss`, the fraction and `Z`, as character codes. -/
def UtcTime.codes (t : UtcTime) : List Nat :=
  decimal 4 t.date.year ++ 45 :: decimal 2 t.date.month ++ 45 :: decimal 2 t.date.day ++
    84 :: decimal 2 t.hour ++ 58 :: decimal 2 t.minute ++ 58 :: decimal 2 t.second ++
    fractionCodes t.fraction

def UtcTime.text (t : UtcTime) : List Char :=
  t.codes.map Char.ofNat

/-! The calendar -/

theorem isLeapYear_iff (year : Nat) : isLeapYear year = true ↔ IsLeap year := by
  rw [isLeapYear, IsLeap, decide_eq_true_eq]
  omega

theorem daysInMonth_eq_getD {year month : Nat} (hlow : 1 ≤ month) (hhigh : month ≤ 12) :
    ValidationPrimitives.daysInMonth year month = (monthLengths year).getD (month - 1) 0 := by
  unfold ValidationPrimitives.daysInMonth monthLengths
  simp only [isLeapYear_iff]
  interval_cases month
  all_goals rfl

theorem isValidCalendarDate_iff {year month day : Nat} :
    isValidCalendarDate year month day = true ↔
      1 ≤ month ∧ month ≤ 12 ∧ 1 ≤ day ∧ day ≤ (monthLengths year).getD (month - 1) 0 := by
  rw [isValidCalendarDate, decide_eq_true_eq]
  constructor
  · rintro ⟨hlow, hhigh, hpos, hle⟩
    rw [daysInMonth_eq_getD hlow hhigh] at hle
    exact ⟨hlow, hhigh, hpos, hle⟩
  · rintro ⟨hlow, hhigh, hpos, hle⟩
    rw [← daysInMonth_eq_getD hlow hhigh] at hle
    exact ⟨hlow, hhigh, hpos, hle⟩

theorem getD_monthLengths_le (year index : Nat) : (monthLengths year).getD index 0 ≤ 31 := by
  by_cases hindex : index < 12
  · unfold monthLengths
    interval_cases index
    all_goals simp only [List.getD_cons_zero, List.getD_cons_succ]
    all_goals grind
  · rw [List.getD_eq_default]
    · exact Nat.zero_le 31
    · exact not_lt.mp hindex

/-! Texts in ASCII by their codes -/

section Codes

variable {codes : List Nat} (hascii : ∀ code ∈ codes, code < 128)

include hascii

theorem map_toNat_ofNat : (codes.map Char.ofNat).map Char.toNat = codes := by
  rw [List.map_map]
  conv_rhs => rw [← List.map_id codes]
  apply List.map_congr_left
  intro code hmem
  have hlt := hascii code hmem
  have hvalid : code.isValidChar := Or.inl (by omega)
  rw [Function.comp_apply, Char.ofNat, dif_pos hvalid]
  rfl

theorem ascii_of_codes : ∀ c ∈ codes.map Char.ofNat, c.toNat < 128 := by
  intro c hc
  apply hascii
  rw [← map_toNat_ofNat hascii]
  exact List.mem_map_of_mem hc

theorem ofChars_codes : ofChars (codes.map Char.ofNat) = codes.map UInt16.ofNat := by
  have hunits : (codes.map Char.ofNat).map (fun c => UInt16.ofNat c.toNat) =
      ((codes.map Char.ofNat).map Char.toNat).map UInt16.ofNat := by
    simp only [List.map_map]
    rfl
  rw [ofChars_ascii (ascii_of_codes hascii), hunits, map_toNat_ofNat hascii]

theorem encode_codes : Utf8.encode (codes.map Char.ofNat) = codes.map UInt8.ofNat := by
  have hbytes : (codes.map Char.ofNat).map (fun c => UInt8.ofNat c.toNat) =
      ((codes.map Char.ofNat).map Char.toNat).map UInt8.ofNat := by
    simp only [List.map_map]
    rfl
  rw [encode_chars_ascii (ascii_of_codes hascii), hbytes, map_toNat_ofNat hascii]

end Codes

theorem fractionCodes_ascii {fraction : List Nat} (h : ∀ digit ∈ fraction, digit < 10) :
    ∀ code ∈ fractionCodes fraction, code < 128 := by
  rw [fractionCodes, List.forall_mem_append, List.forall_mem_singleton]
  refine ⟨?_, by decide⟩
  split
  · exact List.forall_mem_nil _
  · rw [List.forall_mem_cons, List.forall_mem_map]
    refine ⟨by decide, fun digit hdigit => ?_⟩
    have hlt := h digit hdigit
    rw [digitCode]
    omega

theorem decimal_ascii (width n : Nat) : ∀ code ∈ decimal width n, code < 128 := by
  intro code hcode
  have hdigit := (isDecimal_decimal width n).digits code hcode
  simp only [IsDigitCode] at hdigit
  omega

theorem UtcTime.codes_ascii (t : UtcTime) : ∀ code ∈ t.codes, code < 128 := by
  simp only [UtcTime.codes, List.forall_mem_append, List.forall_mem_cons]
  have hfraction := fractionCodes_ascii t.fraction_digits
  have hdecimal := decimal_ascii
  grind

/-- Up to nine digits between a dot and the last letter. -/
theorem exists_fraction {codes : List Nat} (hne : codes ≠ []) (hle : codes.length ≤ 9)
    (hdigits : ∀ code ∈ codes, IsDigitCode code) :
    ∃ fraction : List Nat, fraction.length ≤ 9 ∧ (∀ digit ∈ fraction, digit < 10) ∧
      fractionCodes fraction = 46 :: codes ++ [90] := by
  have hcodes : (codes.map fun code => code - 48).map digitCode = codes := by
    rw [List.map_map]
    conv_rhs => rw [← List.map_id codes]
    exact List.map_congr_left fun code hcode => digitCode_sub (hdigits code hcode)
  refine ⟨codes.map fun code => code - 48, ?_, ?_, ?_⟩
  · rw [List.length_map]
    exact hle
  · rw [List.forall_mem_map]
    intro code hcode
    have hcode := hdigits code hcode
    simp only [IsDigitCode] at hcode
    omega
  · rw [fractionCodes, if_neg (by rw [List.map_eq_nil_iff]; exact hne), hcodes]

/-! What the digits of a text denote -/

/-- The parts of a text with the shape of a timestamp. -/
structure IsoShape (codes year month day hour minute second fraction : List Nat) : Prop where
  codes_eq : codes = year ++ 45 :: month ++ 45 :: day ++ 84 :: hour ++ 58 :: minute ++
    58 :: second ++ fractionCodes fraction
  year : IsDecimal 4 year
  month : IsDecimal 2 month
  day : IsDecimal 2 day
  hour : IsDecimal 2 hour
  minute : IsDecimal 2 minute
  second : IsDecimal 2 second
  fraction_length : fraction.length ≤ 9
  fraction_digits : ∀ digit ∈ fraction, digit < 10

/-- A text of the right shape, with a date and a time that exist, denotes them. -/
theorem IsoShape.exists_utcTime {codes year month day hour minute second fraction : List Nat}
    (h : IsoShape codes year month day hour minute second fraction)
    (hdate : isValidCalendarDate (decimalValue year) (decimalValue month) (decimalValue day) = true)
    (htime : decimalValue hour ≤ 23 ∧ decimalValue minute ≤ 59 ∧ decimalValue second ≤ 59) :
    ∃ t : UtcTime, t.codes = codes := by
  obtain ⟨rfl, hyear, hmonth, hday, hhour, hminute, hsecond, hlength, hdigits⟩ := h
  obtain ⟨hlow, hhigh, hpos, hle⟩ := isValidCalendarDate_iff.mp hdate
  refine ⟨⟨⟨decimalValue year, decimalValue month, decimalValue day, hyear.decimalValue_lt, hlow,
    hhigh, hpos, hle⟩, decimalValue hour, decimalValue minute, decimalValue second, fraction,
    htime.1, htime.2.1, htime.2.2, hlength, hdigits⟩, ?_⟩
  simp only [UtcTime.codes, hyear.decimal_decimalValue, hmonth.decimal_decimalValue,
    hday.decimal_decimalValue, hhour.decimal_decimalValue, hminute.decimal_decimalValue,
    hsecond.decimal_decimalValue]

/-! The pattern over code units -/

theorem digitsNumber_eq (digits : JsString) :
    digitsNumber digits = decimalValue (digits.map UInt16.toNat) := by
  rw [digitsNumber, decimalValue, List.foldl_map]

theorem isDecimal_of_digitUnits {units : JsString} {width : Nat} (hlength : units.length = width)
    (h : ∀ u ∈ units, isDigitUnit u = true) : IsDecimal width (units.map UInt16.toNat) where
  length := by rw [List.length_map, hlength]
  digits := List.forall_mem_map.mpr fun u hu => digit_bounds (h u hu)

theorem fraction_of_matchesFraction (h : matchesFraction s = true) :
    ∃ fraction : List Nat, fraction.length ≤ 9 ∧ (∀ digit ∈ fraction, digit < 10) ∧
      s.map UInt16.toNat = fractionCodes fraction := by
  cases s with
  | nil => cases h
  | cons v rest =>
      simp only [matchesFraction, Bool.or_eq_true, Bool.and_eq_true, beq_iff_eq,
        decide_eq_true_eq] at h
      rcases h with ⟨rfl, hempty⟩ | ⟨⟨⟨⟨rfl, hlast⟩, hpos⟩, hle⟩, hdigits⟩
      · refine ⟨[], Nat.zero_le 9, List.forall_mem_nil _, ?_⟩
        rw [List.isEmpty_iff.mp hempty]
        rfl
      · have hrest : rest.dropLast ++ [90] = rest :=
          List.dropLast_append_getLast? 90 (by rw [hlast]; rfl)
        have hdecimal := isDecimal_of_digitUnits rfl (List.all_eq_true.mp hdigits)
        obtain ⟨fraction, hlength, hlt, hcodes⟩ := exists_fraction
          (List.ne_nil_of_length_pos (by rw [hdecimal.length]; exact hpos))
          (by rw [hdecimal.length]; exact hle) hdecimal.digits
        refine ⟨fraction, hlength, hlt, ?_⟩
        rw [hcodes]
        conv_lhs => rw [← hrest]
        simp

/-- The groups of the pattern are the parts of the text. -/
theorem isoShape_of_isoGroups {year month day hour minute second : Nat}
    (h : isoGroups s = some (year, month, day, hour, minute, second)) :
    ∃ years months days hours minutes seconds fraction,
      IsoShape (s.map UInt16.toNat) years months days hours minutes seconds fraction ∧
      decimalValue years = year ∧ decimalValue months = month ∧ decimalValue days = day ∧
      decimalValue hours = hour ∧ decimalValue minutes = minute ∧
      decimalValue seconds = second := by
  unfold isoGroups at h
  split at h
  swap
  · cases h
  rename_i y1 y2 y3 y4 s1 m1 m2 s2 d1 d2 s3 h1 h2 s4 n1 n2 s5 e1 e2 rest
  split at h
  swap
  · cases h
  rename_i hshape
  simp only [Bool.and_eq_true, beq_iff_eq] at hshape
  obtain ⟨⟨hdigits, ⟨⟨⟨rfl, rfl⟩, rfl⟩, rfl⟩, rfl⟩, hfraction⟩ := hshape
  simp only [Option.some.injEq, Prod.mk.injEq, digitsNumber_eq] at h
  obtain ⟨hyear, hmonth, hday, hhour, hminute, hsecond⟩ := h
  obtain ⟨fraction, hlength, hlt, hcodes⟩ := fraction_of_matchesFraction hfraction
  have hdigits : ∀ u ∈ [y1, y2, y3, y4] ++ [m1, m2] ++ [d1, d2] ++ [h1, h2] ++ [n1, n2] ++ [e1, e2],
      isDigitUnit u = true := List.all_eq_true.mp hdigits
  simp only [List.forall_mem_append] at hdigits
  obtain ⟨⟨⟨⟨⟨hyears, hmonths⟩, hdays⟩, hhours⟩, hminutes⟩, hseconds⟩ := hdigits
  refine ⟨_, _, _, _, _, _, fraction, ⟨?_, isDecimal_of_digitUnits rfl hyears,
    isDecimal_of_digitUnits rfl hmonths, isDecimal_of_digitUnits rfl hdays,
    isDecimal_of_digitUnits rfl hhours, isDecimal_of_digitUnits rfl hminutes,
    isDecimal_of_digitUnits rfl hseconds, hlength, hlt⟩, hyear, hmonth, hday, hhour, hminute,
    hsecond⟩
  rw [← hcodes]
  rfl

theorem exists_utcTime_of_isIso8601UtcString (h : isIso8601UtcString s = true) :
    ∃ t : UtcTime, s = ofChars t.text := by
  rw [isIso8601UtcString] at h
  split at h
  swap
  · cases h
  rename_i hgroups
  obtain ⟨hdate, htime⟩ := Bool.and_eq_true_iff.mp h
  obtain ⟨years, months, days, hours, minutes, seconds, fraction, hshape, rfl, rfl, rfl, rfl, rfl,
    rfl⟩ := isoShape_of_isoGroups hgroups
  obtain ⟨t, ht⟩ := hshape.exists_utcTime hdate (of_decide_eq_true htime)
  refine ⟨t, ?_⟩
  rw [UtcTime.text, ofChars_codes t.codes_ascii, ht, List.map_map]
  conv_lhs => rw [← List.map_id s]
  exact List.map_congr_left fun u _ => UInt16.ofNat_toNat.symm

/-! Every time is matched -/

theorem isDigitUnit_ofNat {code : Nat} (h : IsDigitCode code) :
    isDigitUnit (UInt16.ofNat code) = true := by
  simp only [IsDigitCode] at h
  simp only [isDigitUnit, decide_eq_true_eq, UInt16.le_iff_toNat_le, UInt16.reduceToNat,
    UInt16.toNat_ofNat']
  omega

theorem toNat_units {codes : List Nat} (hascii : ∀ code ∈ codes, code < 128) :
    (codes.map UInt16.ofNat).map UInt16.toNat = codes := by
  rw [List.map_map]
  conv_rhs => rw [← List.map_id codes]
  apply List.map_congr_left
  intro code hcode
  have hlt := hascii code hcode
  rw [Function.comp_apply, UInt16.toNat_ofNat']
  exact Nat.mod_eq_of_lt (by omega)

theorem matchesFraction_codes {fraction : List Nat} (hle : fraction.length ≤ 9)
    (hdigits : ∀ digit ∈ fraction, digit < 10) :
    matchesFraction ((fractionCodes fraction).map UInt16.ofNat) = true := by
  by_cases hnil : fraction = []
  · rw [hnil]
    rfl
  · have hpos : 1 ≤ fraction.length := List.length_pos_iff.mpr hnil
    have hunits : (fractionCodes fraction).map UInt16.ofNat =
        46 :: ((fraction.map digitCode).map UInt16.ofNat ++ [90]) := by
      rw [fractionCodes, if_neg hnil, List.map_append]
      rfl
    have hall : ((fraction.map digitCode).map UInt16.ofNat).all isDigitUnit = true := by
      rw [List.all_eq_true, List.forall_mem_map, List.forall_mem_map]
      exact fun digit hdigit => isDigitUnit_ofNat (isDigitCode_digitCode (hdigits digit hdigit))
    rw [hunits, matchesFraction, List.getLast?_concat, List.dropLast_concat, hall, List.length_map,
      List.length_map, decide_eq_true hpos, decide_eq_true hle]
    rfl

/-- The pattern takes groups of digits with the right lengths. -/
theorem isoGroups_append {year month day hour minute second rest : JsString}
    (hyear : year.length = 4) (hmonth : month.length = 2) (hday : day.length = 2)
    (hhour : hour.length = 2) (hminute : minute.length = 2) (hsecond : second.length = 2)
    (hdigits : (year ++ month ++ day ++ hour ++ minute ++ second).all isDigitUnit = true)
    (hrest : matchesFraction rest = true) :
    isoGroups (year ++ 45 :: month ++ 45 :: day ++ 84 :: hour ++ 58 :: minute ++ 58 :: second ++
      rest) = some (digitsNumber year, digitsNumber month, digitsNumber day, digitsNumber hour,
        digitsNumber minute, digitsNumber second) := by
  obtain ⟨y1, y2, y3, y4, rfl⟩ := List.length_eq_four.mp hyear
  obtain ⟨m1, m2, rfl⟩ := List.length_eq_two.mp hmonth
  obtain ⟨d1, d2, rfl⟩ := List.length_eq_two.mp hday
  obtain ⟨h1, h2, rfl⟩ := List.length_eq_two.mp hhour
  obtain ⟨n1, n2, rfl⟩ := List.length_eq_two.mp hminute
  obtain ⟨e1, e2, rfl⟩ := List.length_eq_two.mp hsecond
  have hdigits : [y1, y2, y3, y4, m1, m2, d1, d2, h1, h2, n1, n2, e1, e2].all isDigitUnit =
    true := hdigits
  simp only [List.cons_append, List.nil_append, isoGroups, hdigits, hrest, beq_self_eq_true,
    Bool.and_true, if_true]

theorem digitsNumber_decimal {width n : Nat} (h : n < 10 ^ width) :
    digitsNumber ((decimal width n).map UInt16.ofNat) = n := by
  rw [digitsNumber_eq, toNat_units (decimal_ascii width n), decimalValue_decimal h]

theorem isIso8601UtcString_of_isoGroups {year month day hour minute second : Nat}
    (hgroups : isoGroups s = some (year, month, day, hour, minute, second))
    (hdate : isValidCalendarDate year month day = true)
    (htime : hour ≤ 23 ∧ minute ≤ 59 ∧ second ≤ 59) : isIso8601UtcString s = true := by
  rw [isIso8601UtcString, hgroups]
  exact Bool.and_eq_true_iff.mpr ⟨hdate, decide_eq_true htime⟩

theorem isIso8601UtcString_text (t : UtcTime) : isIso8601UtcString (ofChars t.text) = true := by
  have hdigits : ∀ width n, ((decimal width n).map UInt16.ofNat).all isDigitUnit = true := by
    intro width n
    rw [List.all_eq_true, List.forall_mem_map]
    exact fun code hcode => isDigitUnit_ofNat ((isDecimal_decimal width n).digits code hcode)
  have hlength : ∀ width n, ((decimal width n).map UInt16.ofNat).length = width := by
    intro width n
    rw [List.length_map, (isDecimal_decimal width n).length]
  have hgroups := isoGroups_append (hlength 4 t.date.year) (hlength 2 t.date.month)
    (hlength 2 t.date.day) (hlength 2 t.hour) (hlength 2 t.minute) (hlength 2 t.second)
    (by simp only [List.all_append, hdigits, Bool.and_self])
    (matchesFraction_codes t.fraction_length t.fraction_digits)
  have hday := t.date.day_le.trans (getD_monthLengths_le _ _)
  have hmonth := t.date.month_le
  have htime := And.intro t.hour_le (And.intro t.minute_le t.second_le)
  rw [digitsNumber_decimal t.date.year_lt, digitsNumber_decimal (by omega),
    digitsNumber_decimal (by omega), digitsNumber_decimal (by omega),
    digitsNumber_decimal (by omega), digitsNumber_decimal (by omega)] at hgroups
  have hunits : ofChars t.text = t.codes.map UInt16.ofNat := ofChars_codes t.codes_ascii
  simp only [UtcTime.codes, List.map_append, List.map_cons] at hunits
  rw [hunits]
  exact isIso8601UtcString_of_isoGroups hgroups (isValidCalendarDate_iff.mpr
    ⟨t.date.month_pos, t.date.month_le, t.date.day_pos, t.date.day_le⟩) htime

/-! What the bytes of a text denote -/

section Bytes

variable {bytes : List UInt8}

theorem drop_eq_byteAt {index : Nat} (h : index < bytes.length) :
    bytes.drop index = byteAt bytes index :: bytes.drop (index + 1) := by
  rw [List.drop_eq_getElem_cons h, byteAt, List.getD_eq_getElem _ _ h]

theorem take_eq_byteAt {count : Nat} (h : count ≤ bytes.length) :
    bytes.take count = (List.range count).map (byteAt bytes) := by
  apply List.ext_getElem
  · rw [List.length_take, List.length_map, List.length_range, Nat.min_eq_left h]
  · intro index htake hrange
    have hindex : index < bytes.length := by
      rw [List.length_take] at htake
      omega
    rw [List.getElem_take, List.getElem_map, List.getElem_range, byteAt,
      List.getD_eq_getElem _ _ hindex]

theorem isDigitCode_of_isAsciiDigit {b : UInt8} (h : isAsciiDigit b = true) :
    IsDigitCode b.toNat := by
  simpa only [IsDigitCode, isAsciiDigit, decide_eq_true_eq, UInt8.le_iff_toNat_le,
    UInt8.reduceToNat] using h

theorem fraction_of_validFraction (hlength : 20 ≤ bytes.length) (h : validFraction bytes = true) :
    ∃ fraction : List Nat, fraction.length ≤ 9 ∧ (∀ digit ∈ fraction, digit < 10) ∧
      (bytes.drop 19).map UInt8.toNat = fractionCodes fraction := by
  rw [drop_eq_byteAt (by omega)]
  rw [validFraction] at h
  split at h
  · rename_i heq
    refine ⟨[], Nat.zero_le 9, List.forall_mem_nil _, ?_⟩
    rw [List.drop_eq_nil_of_le (by omega), beq_iff_eq.mp h]
    rfl
  · simp only [Bool.and_eq_true, beq_iff_eq, decide_eq_true_eq] at h
    obtain ⟨⟨⟨hdot, hlast⟩, hpos, hle⟩, hdigits⟩ := h
    have hcount : ((bytes.drop 20).take (bytes.length - 21)).length = bytes.length - 21 := by
      rw [List.length_take, List.length_drop]
      omega
    have hend : bytes.drop 20 = (bytes.drop 20).take (bytes.length - 21) ++ [90] := by
      have hindex : 20 + (bytes.length - 21) = bytes.length - 1 := by omega
      have hnil : bytes.drop (bytes.length - 1 + 1) = [] := List.drop_eq_nil_of_le (by omega)
      conv_lhs => rw [← List.take_append_drop (bytes.length - 21) (bytes.drop 20)]
      rw [List.drop_drop, hindex, @drop_eq_byteAt bytes (bytes.length - 1) (by omega), hlast, hnil]
    generalize (bytes.drop 20).take (bytes.length - 21) = digits at hdigits hcount hend
    obtain ⟨fraction, hlength, hlt, hcodes⟩ := @exists_fraction (digits.map UInt8.toNat)
      (List.ne_nil_of_length_pos (by rw [List.length_map]; omega))
      (by rw [List.length_map]; omega)
      (List.forall_mem_map.mpr fun b hb =>
        isDigitCode_of_isAsciiDigit (List.all_eq_true.mp hdigits b hb))
    refine ⟨fraction, hlength, hlt, ?_⟩
    rw [hcodes, hdot, hend, List.map_cons, List.map_append]
    rfl

/-- The parts of a text by the indices of their bytes. -/
theorem isoShape_of_bytes (hlength : 20 ≤ bytes.length)
    (hseparators : byteAt bytes 4 = 45 ∧ byteAt bytes 7 = 45 ∧ byteAt bytes 10 = 84 ∧
      byteAt bytes 13 = 58 ∧ byteAt bytes 16 = 58)
    (hfraction : validFraction bytes = true)
    (hdigits : ∀ index ∈ [0, 1, 2, 3, 5, 6, 8, 9, 11, 12, 14, 15, 17, 18],
      isAsciiDigit (byteAt bytes index) = true) :
    ∃ fraction, IsoShape (bytes.map UInt8.toNat)
      ([0, 1, 2, 3].map fun index => (byteAt bytes index).toNat)
      ([5, 6].map fun index => (byteAt bytes index).toNat)
      ([8, 9].map fun index => (byteAt bytes index).toNat)
      ([11, 12].map fun index => (byteAt bytes index).toNat)
      ([14, 15].map fun index => (byteAt bytes index).toNat)
      ([17, 18].map fun index => (byteAt bytes index).toNat) fraction := by
  obtain ⟨fraction, hle, hlt, hcodes⟩ := fraction_of_validFraction hlength hfraction
  obtain ⟨h4, h7, h10, h13, h16⟩ := hseparators
  have hpart : ∀ indices : List Nat,
      (∀ index ∈ indices, index ∈ [0, 1, 2, 3, 5, 6, 8, 9, 11, 12, 14, 15, 17, 18]) →
      IsDecimal indices.length (indices.map fun index => (byteAt bytes index).toNat) := by
    intro indices hindices
    refine ⟨List.length_map _, List.forall_mem_map.mpr fun index hindex => ?_⟩
    exact isDigitCode_of_isAsciiDigit (hdigits index (hindices index hindex))
  refine ⟨fraction, ⟨?_, hpart [0, 1, 2, 3] (by decide), hpart [5, 6] (by decide),
    hpart [8, 9] (by decide), hpart [11, 12] (by decide), hpart [14, 15] (by decide),
    hpart [17, 18] (by decide), hle, hlt⟩⟩
  have hfirst : bytes.take 19 = (List.range 19).map (byteAt bytes) :=
    take_eq_byteAt (by omega)
  have hrange : List.range 19 =
      [0, 1, 2, 3, 4, 5, 6, 7, 8, 9, 10, 11, 12, 13, 14, 15, 16, 17, 18] := rfl
  rw [← List.take_append_drop 19 bytes, List.map_append, hcodes, List.take_append_drop, hfirst,
    hrange]
  simp only [List.map_cons, List.map_nil, h4, h7, h10, h13, h16]
  rfl

theorem month_of_daysInMonth {year month : Nat} (h : 0 < AgentContracts.daysInMonth year month) :
    1 ≤ month ∧ month ≤ 12 := by
  unfold AgentContracts.daysInMonth at h
  simp only [List.contains_cons, List.contains_nil, Bool.or_false, Bool.or_eq_true,
    beq_iff_eq] at h
  split at h
  · omega
  · split at h
    · omega
    · split at h
      · omega
      · omega

end Bytes

theorem exists_utcTime_of_validIso8601Utc (h : validIso8601Utc cs = true) :
    ∃ t : UtcTime, cs = t.text := by
  simp only [validIso8601Utc, Bool.and_eq_true, decide_eq_true_eq, beq_iff_eq] at h
  obtain ⟨⟨⟨⟨hlength, ⟨⟨⟨h4, h7⟩, h10⟩, h13⟩, h16⟩, hfraction⟩, hdigits⟩, hdate⟩ := h
  have hdigits := List.all_eq_true.mp hdigits
  obtain ⟨fraction, hshape⟩ :=
    isoShape_of_bytes hlength ⟨h4, h7, h10, h13, h16⟩ hfraction hdigits
  have hdigit : ∀ index ∈ [0, 1, 2, 3, 5, 6, 8, 9, 11, 12, 14, 15, 17, 18],
      decimalDigit (byteAt (Utf8.encode cs) index) = (byteAt (Utf8.encode cs) index).toNat - 48 :=
    fun index hindex => if_pos (hdigits index hindex)
  simp only [List.forall_mem_cons] at hdigit
  simp only [hdigit] at hdate
  obtain ⟨hmonth, hpos, hle, htime⟩ := hdate
  obtain ⟨hlow, hhigh⟩ := month_of_daysInMonth hmonth
  rw [daysInMonth_eq hlow hhigh] at hle
  obtain ⟨t, ht⟩ := hshape.exists_utcTime
    (by
      simp only [List.map_cons, List.map_nil, decimalValue_two, decimalValue_four]
      exact decide_eq_true ⟨hlow, hhigh, hpos, hle⟩)
    (by
      simp only [List.map_cons, List.map_nil, decimalValue_two]
      exact htime)
  refine ⟨t, ?_⟩
  have hbytes : Utf8.encode t.text = Utf8.encode cs := by
    rw [UtcTime.text, encode_codes t.codes_ascii, ht, List.map_map]
    conv_rhs => rw [← List.map_id (Utf8.encode cs)]
    exact List.map_congr_left fun b _ => UInt8.ofNat_toNat
  rw [← Utf8.decodeLossy_encode cs, ← hbytes, Utf8.decodeLossy_encode]

/-- Both checks of a timestamp take exactly the texts of the times that exist. -/
theorem timestamps_agree (s : JsString) (cs : List Char) :
    (isIso8601UtcString s = true ↔ ∃ t : UtcTime, s = ofChars t.text) ∧
      (validIso8601Utc cs = true ↔ ∃ t : UtcTime, cs = t.text) ∧
      isIso8601UtcString (ofChars cs) = validIso8601Utc cs := by
  have hweb : ∀ s, isIso8601UtcString s = true ↔ ∃ t : UtcTime, s = ofChars t.text := by
    intro s
    constructor
    · exact exists_utcTime_of_isIso8601UtcString
    · rintro ⟨t, rfl⟩
      exact isIso8601UtcString_text t
  have hagent : validIso8601Utc cs = true ↔ ∃ t : UtcTime, cs = t.text := by
    constructor
    · exact exists_utcTime_of_validIso8601Utc
    · rintro ⟨t, rfl⟩
      exact validIso8601Utc_of_matches (isIso8601UtcString_text t)
  refine ⟨hweb s, hagent, ?_⟩
  rw [Bool.eq_iff_iff, hweb, hagent]
  exact exists_congr fun t => ofChars_injective.eq_iff

end AnvilRun.Websocket
