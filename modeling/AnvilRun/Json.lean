import AnvilRun.JsNumber
import AnvilRun.JsString

namespace AnvilRun

open JsString

/-- A JSON value as `JSON.parse` builds it. Members stand in the order of the text; of two
members with one name the later counts. -/
inductive Json where
  | null
  | bool (value : Bool)
  | number (value : JsNumber)
  | string (value : JsString)
  | array (items : List Json)
  | object (members : List (JsString × Json))

namespace Json

/-- The value of a member, and nothing for values that are no objects. -/
def member? (key : JsString) : Json → Option Json
  | object members => (members.reverse.find? (fun m => m.1 = key)).map Prod.snd
  | _ => none

/-! `JSON.stringify` -/

def hexDigit (n : Nat) : Char :=
  if n < 10 then Char.ofNat (48 + n) else Char.ofNat (87 + n)

/-- The escape of a code unit by its number. -/
def unicodeEscape (u : UInt16) : List Char :=
  ['\\', 'u', hexDigit (u.toNat / 0x1000), hexDigit (u.toNat / 0x100 % 0x10),
    hexDigit (u.toNat / 0x10 % 0x10), hexDigit (u.toNat % 0x10)]

/-- The text of a code unit that is not part of a surrogate pair. The line separators U+2028
and U+2029 are not escaped. -/
def quoteUnit (u : UInt16) : List Char :=
  if u = 34 then ['\\', '"']
  else if u = 92 then ['\\', '\\']
  else if u = 8 then ['\\', 'b']
  else if u = 12 then ['\\', 'f']
  else if u = 10 then ['\\', 'n']
  else if u = 13 then ['\\', 'r']
  else if u = 9 then ['\\', 't']
  else if u < 32 || isHighSurrogate u || isLowSurrogate u then unicodeEscape u
  else [unitChar u]

def quoteUnits : JsString → List Char
  | [] => []
  | [u] => quoteUnit u
  | u :: v :: s =>
      if isHighSurrogate u && isLowSurrogate v then pairChar u v :: quoteUnits s
      else quoteUnit u ++ quoteUnits (v :: s)

/-- `JSON.stringify` of a string. -/
def quote (s : JsString) : List Char :=
  '"' :: quoteUnits s ++ ['"']

/-- `JSON.stringify` of an integer that is no greater than `2 ^ 53 - 1`. -/
def natText (n : Nat) : List Char :=
  Nat.toDigits 10 n

/-! `JSON.parse` -/

def isSpace (c : Char) : Bool :=
  c == ' ' || c == '\t' || c == '\n' || c == '\r'

def skipSpace (s : List Char) : List Char :=
  s.dropWhile isSpace

def hexValue (c : Char) : Option Nat :=
  if '0' ≤ c ∧ c ≤ '9' then some (c.toNat - 48)
  else if 'a' ≤ c ∧ c ≤ 'f' then some (c.toNat - 87)
  else if 'A' ≤ c ∧ c ≤ 'F' then some (c.toNat - 55)
  else none

def hexUnit (a b c d : Char) : Option UInt16 := do
  let a ← hexValue a
  let b ← hexValue b
  let c ← hexValue c
  let d ← hexValue d
  some (UInt16.ofNat (a * 0x1000 + b * 0x100 + c * 0x10 + d))

/-- The unit a one-letter escape stands for. -/
def escapedUnit (c : Char) : Option UInt16 :=
  if c = '"' then some 34
  else if c = '\\' then some 92
  else if c = '/' then some 47
  else if c = 'b' then some 8
  else if c = 'f' then some 12
  else if c = 'n' then some 10
  else if c = 'r' then some 13
  else if c = 't' then some 9
  else none

/-- The units of a string literal behind its opening quote, and the text behind it. -/
def parseUnits : List Char → Option (JsString × List Char)
  | [] => none
  | c :: s =>
      if c = '"' then some ([], s)
      else if c = '\\' then
        match s with
        | [] => none
        | e :: s =>
            if e = 'u' then
              match s with
              | a :: b :: c :: d :: s => do
                  let u ← hexUnit a b c d
                  let rest ← parseUnits s
                  some (u :: rest.1, rest.2)
              | _ => none
            else do
              let u ← escapedUnit e
              let rest ← parseUnits s
              some (u :: rest.1, rest.2)
      else if c < ' ' then none
      else do
        let rest ← parseUnits s
        some (encodeChar c ++ rest.1, rest.2)

def digitsValue (digits : List Char) : Nat :=
  Nat.ofDigitChars 10 digits 0

/-- The fraction of a number: its digits, and nothing without a point. -/
def parseFraction : List Char → Option (List Char × List Char)
  | '.' :: s => if (s.takeWhile Char.isDigit).isEmpty then none
      else some (s.takeWhile Char.isDigit, s.dropWhile Char.isDigit)
  | s => some ([], s)

def parseExponentDigits (negative : Bool) (s : List Char) : Option (Int × List Char) :=
  if (s.takeWhile Char.isDigit).isEmpty then none
  else
    let n : Int := digitsValue (s.takeWhile Char.isDigit)
    some (if negative then -n else n, s.dropWhile Char.isDigit)

def parseExponent : List Char → Option (Int × List Char)
  | c :: s =>
      if c = 'e' ∨ c = 'E' then
        match s with
        | '-' :: s => parseExponentDigits true s
        | '+' :: s => parseExponentDigits false s
        | s => parseExponentDigits false s
      else some (0, c :: s)
  | [] => some (0, [])

/-- A number without its sign. -/
def parseMagnitude (negative : Bool) (s : List Char) : Option (JsNumber × List Char) := do
  let integer := s.takeWhile Char.isDigit
  -- no number is empty, and only `0` itself starts with a zero
  if integer.isEmpty || (integer.head? == some '0' && decide (1 < integer.length)) then none
  else
    let fraction ← parseFraction (s.dropWhile Char.isDigit)
    let exponent ← parseExponent fraction.2
    some (JsNumber.ofDecimal negative (digitsValue (integer ++ fraction.1))
      (exponent.1 - fraction.1.length), exponent.2)

def parseNumber : List Char → Option (JsNumber × List Char)
  | '-' :: s => parseMagnitude true s
  | s => parseMagnitude false s

/-- Drop a fixed word. -/
def parseWord (word s : List Char) : Option (List Char) :=
  if word.isPrefixOf s then some (s.drop word.length) else none

mutual

/-- A value and the text behind it. The first argument bounds the nesting and the number of
items; the length of the text is enough. -/
def parseValue : Nat → List Char → Option (Json × List Char)
  | 0, _ => none
  | fuel + 1, s =>
      match skipSpace s with
      | [] => none
      | c :: s =>
          if c = '"' then do
            let text ← parseUnits s
            some (string text.1, text.2)
          else if c = '{' then
            match skipSpace s with
            | '}' :: s => some (object [], s)
            | s => do
                let members ← parseMembers fuel s
                some (object members.1, members.2)
          else if c = '[' then
            match skipSpace s with
            | ']' :: s => some (array [], s)
            | s => do
                let items ← parseItems fuel s
                some (array items.1, items.2)
          else if c = 't' then do
            let s ← parseWord ['r', 'u', 'e'] s
            some (bool true, s)
          else if c = 'f' then do
            let s ← parseWord ['a', 'l', 's', 'e'] s
            some (bool false, s)
          else if c = 'n' then do
            let s ← parseWord ['u', 'l', 'l'] s
            some (null, s)
          else do
            let n ← parseNumber (c :: s)
            some (number n.1, n.2)

/-- One or more items up to the closing bracket. -/
def parseItems : Nat → List Char → Option (List Json × List Char)
  | 0, _ => none
  | fuel + 1, s => do
      let item ← parseValue fuel s
      match skipSpace item.2 with
      | ',' :: s => do
          let rest ← parseItems fuel s
          some (item.1 :: rest.1, rest.2)
      | ']' :: s => some ([item.1], s)
      | _ => none

/-- One or more members up to the closing brace. -/
def parseMembers : Nat → List Char → Option (List (JsString × Json) × List Char)
  | 0, _ => none
  | fuel + 1, s =>
      match skipSpace s with
      | '"' :: s => do
          let key ← parseUnits s
          match skipSpace key.2 with
          | ':' :: s => do
              let value ← parseValue fuel s
              match skipSpace value.2 with
              | ',' :: s => do
                  let rest ← parseMembers fuel s
                  some ((key.1, value.1) :: rest.1, rest.2)
              | '}' :: s => some ([(key.1, value.1)], s)
              | _ => none
          | _ => none
      | _ => none

end

/-- `JSON.parse`; no value stands for a syntax error. -/
def parse (s : List Char) : Option Json := do
  let value ← parseValue (s.length + 1) s
  if (skipSpace value.2).isEmpty then some value.1 else none

end Json

end AnvilRun
