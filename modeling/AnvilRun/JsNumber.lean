import Mathlib.Data.Rat.Defs
import Mathlib.Data.Nat.Log
import Mathlib.Algebra.Order.Field.Rat
import Mathlib.Tactic.NormNum

namespace AnvilRun

/-- A JavaScript number. A finite double is the rational it stands for; the two zeros are one. -/
inductive JsNumber where
  | nan
  | infinity (negative : Bool)
  | finite (value : Rat)
  deriving DecidableEq

namespace JsNumber

/-- Nearest integer to `p / q`, ties to even. -/
def roundHalfEven (p q : Nat) : Nat :=
  if 2 * (p % q) < q then p / q
  else if q < 2 * (p % q) then p / q + 1
  else if p / q % 2 = 0 then p / q else p / q + 1

/-- `num / den` divided by `2 ^ e`, as a fraction. -/
def scaled (num den : Nat) (e : Int) : Nat × Nat :=
  if 0 ≤ e then (num, den * 2 ^ e.toNat) else (num * 2 ^ (-e).toNat, den)

/-- The exponent of the last mantissa bit of the double nearest to `num / den`. -/
def mantissaExponent (num den : Nat) : Int :=
  let k : Int := Nat.log2 num - Nat.log2 den
  let s := scaled num den k
  let k := if s.1 < s.2 then k - 1 else k
  max (k - 52) (-1074)

/-- The double nearest to `num / den`. -/
def nearestDouble (negative : Bool) (num den : Nat) : JsNumber :=
  if num = 0 then .finite 0
  else
    let e := mantissaExponent num den
    let s := scaled num den e
    let m := roundHalfEven s.1 s.2
    let value := if 0 ≤ e then ((m * 2 ^ e.toNat : Nat) : Rat) else mkRat m (2 ^ (-e).toNat)
    if 2 ^ 1024 ≤ value then .infinity negative
    else .finite (if negative then -value else value)

/-- The number a decimal literal `digits * 10 ^ exponent` stands for. -/
def ofDecimal (negative : Bool) (digits : Nat) (exponent : Int) : JsNumber :=
  if 0 ≤ exponent then nearestDouble negative (digits * 10 ^ exponent.toNat) 1
  else nearestDouble negative digits (10 ^ (-exponent).toNat)

def ofNat (n : Nat) : JsNumber :=
  .finite n

def maxSafeInteger : Nat := 2 ^ 53 - 1

/-- `Number.isSafeInteger`. -/
def isSafeInteger : JsNumber → Bool
  | .finite q => decide (q.den = 1 ∧ q.num.natAbs ≤ maxSafeInteger)
  | _ => false

/-! Arithmetic, rounded to the nearest double -/

def ofRat (q : Rat) : JsNumber :=
  nearestDouble (decide (q < 0)) q.num.natAbs q.den

def sub : JsNumber → JsNumber → JsNumber
  | finite p, finite q => ofRat (p - q)
  | nan, _ => nan
  | _, nan => nan
  | infinity a, infinity b => if a = b then nan else infinity a
  | infinity a, finite _ => infinity a
  | finite _, infinity b => infinity (!b)

/-- Division by a number that is not zero. -/
def div : JsNumber → JsNumber → JsNumber
  | finite p, finite q => ofRat (p / q)
  | nan, _ => nan
  | _, nan => nan
  | infinity _, infinity _ => nan
  | infinity a, finite q => infinity (a ^^ decide (q < 0))
  | finite _, infinity _ => finite 0

/-- `Math.round`: to the nearest integer, halves upwards. -/
def round : JsNumber → JsNumber
  | finite q => finite (q + 1 / 2).floor
  | n => n

/-- `Math.abs`. -/
def abs : JsNumber → JsNumber
  | finite q => finite |q|
  | infinity _ => infinity false
  | nan => nan

/-- The operator `<`. -/
def lt : JsNumber → JsNumber → Bool
  | finite p, finite q => decide (p < q)
  | infinity a, finite _ => a
  | finite _, infinity b => !b
  | infinity a, infinity b => a && !b
  | _, _ => false

theorem mantissaExponent_nat {n : Nat} (hn : n ≠ 0) (hlt : n < 2 ^ 53) :
    mantissaExponent n 1 = (Nat.log2 n : Int) - 52 := by
  have hlog : Nat.log2 n < 53 := (Nat.log2_lt hn).mpr hlt
  have hself : 2 ^ Nat.log2 n ≤ n := Nat.log2_self_le hn
  have hone : Nat.log2 1 = 0 := by decide
  have hscaled : scaled n 1 (Nat.log2 n : Int) = (n, 2 ^ Nat.log2 n) := by
    simp [scaled]
  simp only [mantissaExponent, hone, Nat.cast_zero, Int.sub_zero, hscaled]
  rw [if_neg (by omega)]
  omega

/-- Every integer below `2 ^ 53` is a double. -/
theorem nearestDouble_nat {n : Nat} (hlt : n < 2 ^ 53) :
    nearestDouble false n 1 = ofNat n := by
  by_cases hn : n = 0
  · subst hn
    rfl
  · have hlog : Nat.log2 n < 53 := (Nat.log2_lt hn).mpr hlt
    obtain ⟨t, ht⟩ : ∃ t : Nat, (Nat.log2 n : Int) - 52 = -(t : Int) := ⟨52 - Nat.log2 n, by omega⟩
    have hround : ∀ p, roundHalfEven p 1 = p := by
      intro p
      simp [roundHalfEven, Nat.mod_one]
    have hsmall : ¬ (2 : Rat) ^ 1024 ≤ (n : Rat) := by
      have hpow : (n : Rat) < 2 ^ 53 := by exact_mod_cast hlt
      have hle : (2 : Rat) ^ 53 ≤ 2 ^ 1024 := 
        pow_le_pow_right₀ (by norm_num) (by norm_num)
      exact not_le_of_gt (hpow.trans_le hle)
    have hvalue : mkRat (n * 2 ^ t : Nat) (2 ^ t) = (n : Rat) := by
      have hne : ((2 : Rat) ^ t) ≠ 0 := pow_ne_zero _ (by norm_num)
      rw [Rat.mkRat_eq_div, Int.cast_natCast, Nat.cast_mul, Nat.cast_pow, Nat.cast_ofNat]
      exact mul_div_cancel_right₀ _ hne
    simp only [nearestDouble, if_neg hn, mantissaExponent_nat hn hlt, ht, scaled]
    by_cases hzero : 0 ≤ -(t : Int)
    · obtain rfl : t = 0 := by omega
      simp [hround, hsmall, ofNat]
    · simp only [if_neg hzero, neg_neg, Int.toNat_natCast, hround, hvalue, if_neg hsmall]
      rfl

theorem isSafeInteger_ofNat {n : Nat} : isSafeInteger (ofNat n) = decide (n ≤ maxSafeInteger) := by
  simp [isSafeInteger, ofNat]

end JsNumber

end AnvilRun
