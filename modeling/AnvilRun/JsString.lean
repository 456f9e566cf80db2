import Mathlib.Data.String.Defs

namespace AnvilRun

/-- A JavaScript string: its UTF-16 code units, lone surrogates included. -/
abbrev JsString := List UInt16

namespace JsString

/-- The code units of one Unicode scalar value. -/
def encodeChar (c : Char) : JsString :=
  if c.toNat < 0x10000 then [UInt16.ofNat c.toNat]
  else [UInt16.ofNat (0xD800 + (c.toNat - 0x10000) / 0x400),
    UInt16.ofNat (0xDC00 + (c.toNat - 0x10000) % 0x400)]

def ofChars (s : List Char) : JsString :=
  s.flatMap encodeChar

/-- A string literal of the source. -/
def ofString (s : String) : JsString :=
  ofChars s.toList

def isHighSurrogate (u : UInt16) : Bool :=
  decide (0xD800 ≤ u.toNat ∧ u.toNat < 0xDC00)

def isLowSurrogate (u : UInt16) : Bool :=
  decide (0xDC00 ≤ u.toNat ∧ u.toNat < 0xE000)

/-- The scalar value of a surrogate pair. -/
def pairChar (high low : UInt16) : Char :=
  Char.ofNat (0x10000 + (high.toNat - 0xD800) * 0x400 + (low.toNat - 0xDC00))

/-- The scalar value of a code unit that is no surrogate. -/
def unitChar (u : UInt16) : Char :=
  Char.ofNat u.toNat

/-- The scalar values of a string; nothing for a string with a lone surrogate. -/
def toChars? : JsString → Option (List Char)
  | [] => some []
  | [u] => if isHighSurrogate u || isLowSurrogate u then none else some [unitChar u]
  | u :: v :: s =>
      if isHighSurrogate u && isLowSurrogate v then (toChars? s).map (pairChar u v :: ·)
      else if isHighSurrogate u || isLowSurrogate u then none
      else (toChars? (v :: s)).map (unitChar u :: ·)

/-- The number of code points. A lone surrogate counts as one. -/
def codePoints : JsString → Nat
  | [] => 0
  | [_] => 1
  | u :: v :: s =>
      if isHighSurrogate u && isLowSurrogate v then codePoints s + 1 else codePoints (v :: s) + 1

/-- The number of bytes in UTF-8, where U+FFFD stands for a lone surrogate. -/
def utf8Length : JsString → Nat
  | [] => 0
  | [u] => if u.toNat < 0x80 then 1 else if u.toNat < 0x800 then 2 else 3
  | u :: v :: s =>
      if isHighSurrogate u && isLowSurrogate v then 4 + utf8Length s
      else (if u.toNat < 0x80 then 1 else if u.toNat < 0x800 then 2 else 3) + utf8Length (v :: s)

theorem toNat_unitChar {u : UInt16} (hhigh : isHighSurrogate u = false)
    (hlow : isLowSurrogate u = false) : (unitChar u).toNat = u.toNat := by
  have hlt := u.toNat_lt
  simp only [isHighSurrogate, isLowSurrogate, decide_eq_false_iff_not] at hhigh hlow
  have hvalid : u.toNat.isValidChar := by
    simp only [Nat.isValidChar]
    omega
  rw [unitChar, Char.ofNat, dif_pos hvalid]
  rfl

theorem toNat_pairChar {high low : UInt16} (hhigh : isHighSurrogate high = true)
    (hlow : isLowSurrogate low = true) :
    (pairChar high low).toNat
      = 0x10000 + (high.toNat - 0xD800) * 0x400 + (low.toNat - 0xDC00) := by
  simp only [isHighSurrogate, isLowSurrogate, decide_eq_true_eq] at hhigh hlow
  have hvalid : (0x10000 + (high.toNat - 0xD800) * 0x400 + (low.toNat - 0xDC00)).isValidChar := by
    simp only [Nat.isValidChar]
    omega
  rw [pairChar, Char.ofNat, dif_pos hvalid]
  rfl

theorem encodeChar_unitChar {u : UInt16} (hhigh : isHighSurrogate u = false)
    (hlow : isLowSurrogate u = false) : encodeChar (unitChar u) = [u] := by
  have hlt := u.toNat_lt
  rw [encodeChar, toNat_unitChar hhigh hlow, if_pos (by omega), UInt16.ofNat_toNat]

theorem encodeChar_pairChar {high low : UInt16} (hhigh : isHighSurrogate high = true)
    (hlow : isLowSurrogate low = true) : encodeChar (pairChar high low) = [high, low] := by
  rw [encodeChar, toNat_pairChar hhigh hlow, if_neg (by omega)]
  simp only [isHighSurrogate, isLowSurrogate, decide_eq_true_eq] at hhigh hlow
  have hfirst : 0xD800 + (0x10000 + (high.toNat - 0xD800) * 0x400 + (low.toNat - 0xDC00)
      - 0x10000) / 0x400 = high.toNat := by
    omega
  have hsecond : 0xDC00 + (0x10000 + (high.toNat - 0xD800) * 0x400 + (low.toNat - 0xDC00)
      - 0x10000) % 0x400 = low.toNat := by
    omega
  rw [hfirst, hsecond, UInt16.ofNat_toNat, UInt16.ofNat_toNat]

end JsString

end AnvilRun
