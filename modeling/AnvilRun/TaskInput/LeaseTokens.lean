import AnvilRun.TaskInput
import Mathlib.Data.List.GetD

namespace AnvilRun.TaskInput

open AnvilRun.AgentContracts
open AnvilRun.Fallible

/-- `right` is `left` with some zero bytes behind it, 256 of them or a multiple of that. -/
def ZerosAppended (left right : List UInt8) : Prop :=
  ∃ n, 0 < n ∧ right = left ++ List.replicate (256 * n) 0

variable {left right : List UInt8}

/-! What the accumulator collects -/

theorem or_eq_zero {a b : UInt8} : a ||| b = 0 ↔ a = 0 ∧ b = 0 := by
  simp only [← UInt8.toNat_inj, UInt8.toNat_or, UInt8.toNat_zero]
  exact Nat.or_eq_zero_iff

theorem foldl_or_eq_zero (start : UInt8) (f : Nat → UInt8) (indices : List Nat) :
    indices.foldl (fun difference index => difference ||| f index) start = 0 ↔
      start = 0 ∧ ∀ index ∈ indices, f index = 0 := by
  induction indices generalizing start with
  | nil => simp
  | cons index indices ih =>
      rw [List.foldl_cons, ih, or_eq_zero, List.forall_mem_cons, and_assoc]

/-- Only the low byte of the lengths is compared. -/
theorem lengthDifference_eq_zero (m n : Nat) : UInt8.ofNat (m ^^^ n) = 0 ↔ m % 256 = n % 256 := by
  rw [UInt8.ofNat_xor, UInt8.xor_eq_zero_iff, ← UInt8.toNat_inj, UInt8.toNat_ofNat',
    UInt8.toNat_ofNat']

theorem constantTimeEqual_iff (left right : List UInt8) :
    constantTimeEqual left right = true ↔
      left.length % 256 = right.length % 256 ∧ ∀ index, left.getD index 0 = right.getD index 0 := by
  rw [constantTimeEqual, beq_iff_eq, foldl_or_eq_zero, lengthDifference_eq_zero]
  refine and_congr_right fun _ => ?_
  simp only [List.mem_range, UInt8.xor_eq_zero_iff]
  constructor
  · intro h index
    by_cases hindex : index < max left.length right.length
    · exact h index hindex
    · rw [not_lt, max_le_iff] at hindex
      rw [List.getD_eq_default _ _ hindex.1, List.getD_eq_default _ _ hindex.2]
  · exact fun h index _ => h index

/-! Strings that are taken for equal -/

theorem eq_append_zeros (hle : left.length ≤ right.length)
    (h : ∀ index, left.getD index 0 = right.getD index 0) :
    right = left ++ List.replicate (right.length - left.length) 0 := by
  apply List.ext_getElem
  · rw [List.length_append, List.length_replicate, Nat.add_sub_cancel' hle]
  · intro index hright happend
    have hbyte := h index
    rw [List.getD_eq_getElem _ _ hright] at hbyte
    by_cases hindex : index < left.length
    · rw [List.getElem_append_left hindex, ← hbyte, List.getD_eq_getElem _ _ hindex]
    · have hbehind := not_lt.mp hindex
      rw [List.getElem_append_right hbehind, List.getElem_replicate, ← hbyte,
        List.getD_eq_default _ _ hbehind]

/-- Of two strings that are taken for equal the longer one goes on with zero bytes. -/
theorem eq_or_zerosAppended (hle : left.length ≤ right.length)
    (h : constantTimeEqual left right = true) : left = right ∨ ZerosAppended left right := by
  obtain ⟨hlengths, hbytes⟩ := (constantTimeEqual_iff left right).mp h
  have hright := eq_append_zeros hle hbytes
  have hmultiple : right.length - left.length = 256 * ((right.length - left.length) / 256) := by
    omega
  rcases Nat.eq_zero_or_pos ((right.length - left.length) / 256) with hzero | hpos
  · left
    rw [hmultiple, hzero, Nat.mul_zero, List.replicate_zero, List.append_nil] at hright
    exact hright.symm
  · right
    refine ⟨_, hpos, ?_⟩
    rw [← hmultiple]
    exact hright

theorem constantTimeEqual_comm (left right : List UInt8) :
    constantTimeEqual left right = constantTimeEqual right left := by
  rw [Bool.eq_iff_iff, constantTimeEqual_iff, constantTimeEqual_iff]
  exact and_congr eq_comm (forall_congr' fun _ => eq_comm)

theorem constantTimeEqual_self (bytes : List UInt8) : constantTimeEqual bytes bytes = true :=
  (constantTimeEqual_iff bytes bytes).mpr ⟨rfl, fun _ => rfl⟩

theorem ZerosAppended.taken (h : ZerosAppended left right) :
    constantTimeEqual left right = true ∧ left ≠ right := by
  obtain ⟨n, hpos, rfl⟩ := h
  constructor
  · rw [constantTimeEqual_iff, List.length_append, List.length_replicate, Nat.add_mul_mod_self_left]
    refine ⟨rfl, fun index => ?_⟩
    by_cases hindex : index < left.length
    · rw [List.getD_append _ _ _ _ hindex]
    · rw [List.getD_append_right _ _ _ _ (not_lt.mp hindex),
        List.getD_eq_default _ _ (not_lt.mp hindex), List.getD_eq_getElem?_getD,
        List.getElem?_getD_replicate_default_eq]
  · intro heq
    have hlength := congrArg List.length heq
    rw [List.length_append, List.length_replicate] at hlength
    omega

/-- The comparison is right but for strings of which one is the other with a multiple of 256 zero
bytes behind it. -/
theorem constantTimeEqual_correct_iff (left right : List UInt8) :
    (constantTimeEqual left right = true ↔ left = right) ↔
      ¬ ZerosAppended left right ∧ ¬ ZerosAppended right left := by
  constructor
  · intro h
    constructor
    · intro hzeros
      exact hzeros.taken.2 (h.mp hzeros.taken.1)
    · intro hzeros
      rw [constantTimeEqual_comm] at h
      exact hzeros.taken.2 (h.mp hzeros.taken.1).symm
  · rintro ⟨hleft, hright⟩
    constructor
    · intro htaken
      rcases Nat.le_total left.length right.length with hle | hle
      · exact (eq_or_zerosAppended hle htaken).resolve_right hleft
      · rw [constantTimeEqual_comm] at htaken
        exact ((eq_or_zerosAppended hle htaken).resolve_right hright).symm
    · rintro rfl
      exact constantTimeEqual_self left

/-- The empty string is taken for a string of 256 zero bytes. -/
theorem not_constantTimeEqual_correct :
    ¬ ∀ left right : List UInt8, constantTimeEqual left right = true ↔ left = right := by
  intro h
  have htaken : constantTimeEqual [] (List.replicate 256 0) = true := by
    decide +kernel
  have hequal := (h [] (List.replicate 256 0)).mp htaken
  cases hequal

/-! The tokens that the agent compares -/

theorem zero_not_mem_of_validLease {token : List Char} (h : validLease token = .ok ()) :
    (0 : UInt8) ∉ Utf8.encode token := by
  intro hzero
  obtain ⟨-, -, hbytes⟩ := ensure_eq_ok.mp h
  have hbyte := List.all_eq_true.mp hbytes 0 hzero
  exact absurd hbyte (by decide)

theorem not_zerosAppended (h : (0 : UInt8) ∉ right) : ¬ ZerosAppended left right := by
  rintro ⟨n, hpos, rfl⟩
  refine h (List.mem_append_right left ?_)
  rw [List.mem_replicate]
  exact ⟨by omega, rfl⟩

/-- Tokens that have passed the check of the protocol are told apart. -/
theorem constantTimeEqual_leaseTokens {left right : List Char} (hleft : validLease left = .ok ())
    (hright : validLease right = .ok ()) :
    constantTimeEqual (Utf8.encode left) (Utf8.encode right) = true ↔ left = right := by
  have hequal := constantTimeEqual_correct_iff (Utf8.encode left) (Utf8.encode right)
  rw [hequal.mpr ⟨not_zerosAppended (zero_not_mem_of_validLease hright),
    not_zerosAppended (zero_not_mem_of_validLease hleft)⟩]
  constructor
  · intro h
    rw [← Utf8.decodeLossy_encode left, h, Utf8.decodeLossy_encode]
  · rintro rfl
    rfl

end AnvilRun.TaskInput
