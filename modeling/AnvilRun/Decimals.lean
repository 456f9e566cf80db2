import Mathlib.Algebra.Group.Nat.Defs
import Mathlib.Data.List.Induction

namespace AnvilRun.Decimals

/-- The character code of a decimal digit. -/
def digitCode (digit : Nat) : Nat :=
  48 + digit

def IsDigitCode (code : Nat) : Prop :=
  48 ≤ code ∧ code ≤ 57

/-- The last digits of a number, as many as the width says. -/
def decimal : Nat → Nat → List Nat
  | 0, _ => []
  | width + 1, n => decimal width (n / 10) ++ [digitCode (n % 10)]

/-- The number that a run of digits stands for. -/
def decimalValue (codes : List Nat) : Nat :=
  codes.foldl (fun n code => n * 10 + (code - 48)) 0

/-- A run of digits of a given width. -/
structure IsDecimal (width : Nat) (codes : List Nat) : Prop where
  length : codes.length = width
  digits : ∀ code ∈ codes, IsDigitCode code

variable {codes : List Nat} {code digit width n : Nat}

theorem isDigitCode_digitCode (h : digit < 10) : IsDigitCode (digitCode digit) := by
  simp only [IsDigitCode, digitCode]
  omega

theorem digitCode_sub (h : IsDigitCode code) : digitCode (code - 48) = code :=
  Nat.add_sub_of_le h.1

@[simp]
theorem decimalValue_nil : decimalValue [] = 0 := rfl

@[simp]
theorem decimalValue_concat (codes : List Nat) (code : Nat) :
    decimalValue (codes ++ [code]) = decimalValue codes * 10 + (code - 48) := by
  simp [decimalValue]

theorem decimalValue_two (a b : Nat) : decimalValue [a, b] = (a - 48) * 10 + (b - 48) := by
  simp [decimalValue]

theorem decimalValue_four (a b c d : Nat) :
    decimalValue [a, b, c, d] = (a - 48) * 1000 + (b - 48) * 100 + (c - 48) * 10 + (d - 48) := by
  simp only [decimalValue, List.foldl_cons, List.foldl_nil]
  omega

theorem decimalValue_decimal (h : n < 10 ^ width) : decimalValue (decimal width n) = n := by
  induction width generalizing n with
  | zero => simp only [decimal, decimalValue_nil]; omega
  | succ width ih =>
      rw [decimal, decimalValue_concat, ih (by omega), digitCode, Nat.add_sub_cancel_left]
      exact Nat.div_add_mod' n 10

theorem isDecimal_decimal (width n : Nat) : IsDecimal width (decimal width n) := by
  induction width generalizing n with
  | zero => exact ⟨rfl, List.forall_mem_nil _⟩
  | succ width ih =>
      constructor
      · rw [decimal, List.length_append, (ih (n / 10)).length]
        rfl
      · rw [decimal, List.forall_mem_append, List.forall_mem_singleton]
        exact ⟨(ih (n / 10)).digits, isDigitCode_digitCode (Nat.mod_lt n (by omega))⟩

/-- A run of digits is the number it stands for, written with its width. -/
theorem IsDecimal.decimal_decimalValue (h : IsDecimal width codes) :
    decimal width (decimalValue codes) = codes := by
  obtain ⟨rfl, hdigits⟩ := h
  induction codes using List.reverseRecOn with
  | nil => rfl
  | append_singleton codes code ih =>
      rw [List.forall_mem_append, List.forall_mem_singleton] at hdigits
      have hcode := hdigits.2
      simp only [IsDigitCode] at hcode
      have hdiv : (decimalValue codes * 10 + (code - 48)) / 10 = decimalValue codes := by omega
      have hmod : (decimalValue codes * 10 + (code - 48)) % 10 = code - 48 := by omega
      rw [List.length_append, List.length_singleton, decimal, decimalValue_concat, hdiv, hmod,
        ih hdigits.1, digitCode_sub hdigits.2]

theorem IsDecimal.decimalValue_lt (h : IsDecimal width codes) :
    decimalValue codes < 10 ^ width := by
  obtain ⟨rfl, hdigits⟩ := h
  induction codes using List.reverseRecOn with
  | nil => exact Nat.one_pos
  | append_singleton codes code ih =>
      rw [List.forall_mem_append, List.forall_mem_singleton] at hdigits
      have hlt := ih hdigits.1
      have hcode := hdigits.2.2
      rw [List.length_append, List.length_singleton, decimalValue_concat, Nat.pow_succ]
      omega

end AnvilRun.Decimals
