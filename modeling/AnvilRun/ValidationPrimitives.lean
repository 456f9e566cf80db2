import AnvilRun.Json

namespace AnvilRun.ValidationPrimitives

open JsString

/-- A compiled `RegExp` without flags. -/
structure CompiledRegExp where
  source : JsString
  test : JsString → Bool

/-- The parts of the JavaScript library that stay abstract: compiling a regular expression
(nothing stands for a syntax error), lower case, and the text of a number. -/
structure JsRuntime where
  regExp : JsString → Option CompiledRegExp
  toLowerCase : JsString → JsString
  numberToString : JsNumber → JsString

def isDigitUnit (u : UInt16) : Bool :=
  decide (48 ≤ u ∧ u ≤ 57)

def isLetterUnit (u : UInt16) : Bool :=
  decide (65 ≤ u ∧ u ≤ 90) || decide (97 ≤ u ∧ u ≤ 122)

def isControlUnit (u : UInt16) : Bool :=
  decide (u ≤ 0x1f) || decide (0x7f ≤ u ∧ u ≤ 0x9f) || u == 0x2028 || u == 0x2029

def isHexUnit (u : UInt16) : Bool :=
  isDigitUnit u || decide (97 ≤ u ∧ u ≤ 102)

/-- A text with its ASCII letters in lower case. -/
def asciiLower (s : JsString) : JsString :=
  s.map (fun u => if 65 ≤ u ∧ u ≤ 90 then u + 32 else u)

theorem asciiLower_asciiLower (s : JsString) : asciiLower (asciiLower s) = asciiLower s := by
  unfold asciiLower
  rw [List.map_map]
  apply List.map_congr_left
  intro u _
  dsimp only [Function.comp_apply]
  split
  · rename_i hupper
    apply if_neg
    rintro ⟨-, hle⟩
    simp only [UInt16.le_iff_toNat_le, UInt16.toNat_add, UInt16.reduceToNat] at hupper hle
    omega
  · rfl

/-- `UUID_PATTERN`, which takes letters in either case. -/
def matchesUuid (s : JsString) : Bool :=
  s.length == 36 &&
    (asciiLower s).zipIdx.all (fun unit =>
      if unit.2 = 8 ∨ unit.2 = 13 ∨ unit.2 = 18 ∨ unit.2 = 23 then unit.1 == 45
      else if unit.2 = 14 then decide (49 ≤ unit.1 ∧ unit.1 ≤ 53)
      else if unit.2 = 19 then unit.1 == 56 || unit.1 == 57 || unit.1 == 97 || unit.1 == 98
      else isHexUnit unit.1)

/-- All the characters looked for lie below U+10000, so code units do for code points. -/
def containsControlCharacters (value : JsString) : Bool :=
  value.any isControlUnit

def looksLikeMarkup : JsString → Bool
  | u :: v :: s =>
      (u == 60 && (v == 47 || v == 33 || v == 63 || isLetterUnit v)) || looksLikeMarkup (v :: s)
  | _ => false

def isPlainText : Json → Bool
  | .string s => !containsControlCharacters s && !looksLikeMarkup s
  | _ => false

/-- White space and line ends as `String.prototype.trim` knows them. -/
def isTrimmed (u : UInt16) : Bool :=
  decide (9 ≤ u ∧ u ≤ 13) || u == 0x20 || u == 0xa0 || u == 0x1680 ||
    decide (0x2000 ≤ u ∧ u ≤ 0x200a) || u == 0x2028 || u == 0x2029 || u == 0x202f ||
    u == 0x205f || u == 0x3000 || u == 0xfeff

def isNonEmptyPlainText : Json → Bool
  | .string s => isPlainText (.string s) && s.any (fun u => !isTrimmed u)
  | _ => false

def isLeapYear (year : Nat) : Bool :=
  decide ((year % 4 = 0 ∧ year % 100 ≠ 0) ∨ year % 400 = 0)

def daysInMonth (year month : Nat) : Nat :=
  if month = 2 then
    if isLeapYear year then 29 else 28
  else if month = 4 ∨ month = 6 ∨ month = 9 ∨ month = 11 then 30 else 31

def isValidCalendarDate (year month day : Nat) : Bool :=
  decide (1 ≤ month ∧ month ≤ 12 ∧ 1 ≤ day ∧ day ≤ daysInMonth year month)

/-- The number a run of decimal digits stands for. -/
def digitsNumber (digits : JsString) : Nat :=
  digits.foldl (fun n u => n * 10 + (u.toNat - 48)) 0

/-- `CALENDAR_DATE_PATTERN`: the three groups of digits. -/
def calendarDateGroups : JsString → Option (Nat × Nat × Nat)
  | [y1, y2, y3, y4, s1, m1, m2, s2, d1, d2] =>
      if [y1, y2, y3, y4, m1, m2, d1, d2].all isDigitUnit && s1 == 45 && s2 == 45 then
        some (digitsNumber [y1, y2, y3, y4], digitsNumber [m1, m2], digitsNumber [d1, d2])
      else none
  | _ => none

def isCalendarDateString : Json → Bool
  | .string s =>
      match calendarDateGroups s with
      | some (year, month, day) => isValidCalendarDate year month day
      | none => false
  | _ => false

/-- `Object.keys`, in the order of the text. -/
def objectKeys : Json → List JsString
  | .object members => (members.map Prod.fst).eraseDups
  | _ => []

def findUnknownProperties (value : Json) (allowed : List JsString) : List JsString :=
  (objectKeys value).filter (fun key => !allowed.contains key)

/-- `String(n)` for a natural number. -/
def natToString (n : Nat) : JsString :=
  ofChars (Json.natText n)

def describeValueType : Option Json → JsString
  | none => ofString "undefined"
  | some .null => ofString "null"
  | some (.array items) => ofString "array(length=" ++ natToString items.length ++ ofString ")"
  | some (.string s) => ofString "string(length=" ++ natToString s.length ++ ofString ")"
  | some (.object _) => ofString "object"
  | some (.number _) => ofString "number"
  | some (.bool _) => ofString "boolean"

def tokenEchoLimit : Nat := 64

def describeToken (value : Option Json) : JsString :=
  match value with
  | some (.string s) =>
      if s.length ≤ tokenEchoLimit ∧ containsControlCharacters s = false then
        ofChars (Json.quote s)
      else describeValueType value
  | _ => describeValueType value

/-- A part of an issue's path: a property or an index. -/
inductive PathSegment where
  | name (property : JsString)
  | index (i : Nat)
  deriving DecidableEq

end AnvilRun.ValidationPrimitives
