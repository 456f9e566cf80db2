import Mathlib.Algebra.CharP.Two
import Mathlib.Algebra.Field.ZMod
import Mathlib.Algebra.Polynomial.Div
import Mathlib.Algebra.Polynomial.Monic
import Mathlib.Data.BitVec

/-! Cyclic redundancy checks with reflected registers -/

namespace AnvilRun.Crc

open Polynomial

variable {w : Nat}

/-- The polynomial of a register, whose lowest bit is the highest coefficient. -/
noncomputable def toPoly (r : BitVec w) : (ZMod 2)[X] :=
  ∑ i ∈ Finset.range w, if r.getLsbD i then X ^ (w - 1 - i) else 0

/-- The polynomial of a message, whose first bit is the highest coefficient. -/
noncomputable def message : List Bool → (ZMod 2)[X]
  | [] => 0
  | b :: bits => (if b then X ^ bits.length else 0) + message bits

/-- The generator whose lower coefficients are those of a register. -/
noncomputable def generator (poly : BitVec w) : (ZMod 2)[X] :=
  X ^ w + toPoly poly

/-- The register after one more bit of a message. -/
def step (poly r : BitVec w) (b : Bool) : BitVec w :=
  if r.getLsbD 0 ^^ b then (r >>> 1) ^^^ poly else r >>> 1

def run (poly r : BitVec w) (bits : List Bool) : BitVec w :=
  bits.foldl (step poly) r

theorem run_append (poly r : BitVec w) (bits bits' : List Bool) :
    run poly r (bits ++ bits') = run poly (run poly r bits) bits' :=
  List.foldl_append

theorem toPoly_xor (r s : BitVec w) : toPoly (r ^^^ s) = toPoly r + toPoly s := by
  rw [toPoly, toPoly, toPoly, ← Finset.sum_add_distrib]
  refine Finset.sum_congr rfl fun i _ => ?_
  rw [BitVec.getLsbD_xor]
  cases r.getLsbD i <;> cases s.getLsbD i <;> simp [CharTwo.add_self_eq_zero]

/-- A shift to the right is a product with `X`, the lowest bit apart. -/
theorem X_mul_toPoly (hw : 0 < w) (r : BitVec w) :
    X * toPoly r = toPoly (r >>> 1) + if r.getLsbD 0 then X ^ w else 0 := by
  obtain ⟨n, rfl⟩ : ∃ n, w = n + 1 := ⟨w - 1, by omega⟩
  rw [toPoly, toPoly, Finset.sum_range_succ', Finset.sum_range_succ, mul_add, Finset.mul_sum]
  have hlast : (r >>> 1).getLsbD n = false := by
    rw [BitVec.getLsbD_ushiftRight]
    exact BitVec.getLsbD_of_ge r _ (by omega)
  rw [hlast]
  simp only [Bool.false_eq_true, if_false, add_zero]
  congr 1
  · refine Finset.sum_congr rfl fun i hi => ?_
    have hi := Finset.mem_range.mp hi
    rw [BitVec.getLsbD_ushiftRight, Nat.add_comm 1 i]
    have hexp : n + 1 - 1 - i = n + 1 - 1 - (i + 1) + 1 := by omega
    split_ifs with hbit
    · rw [hexp, pow_succ']
    · rw [mul_zero]
  · split_ifs with hbit
    · rw [← pow_succ']
      congr 1
    · rw [mul_zero]

theorem degree_toPoly_lt (r : BitVec w) : (toPoly r).degree < w := by
  rw [toPoly]
  refine (degree_sum_le _ _).trans_lt ((Finset.sup_lt_iff (WithBot.bot_lt_coe w)).mpr ?_)
  intro i hi
  have hi := Finset.mem_range.mp hi
  split_ifs with hbit
  · rw [degree_X_pow]
    exact Nat.cast_lt.mpr (by omega)
  · rw [degree_zero]
    exact WithBot.bot_lt_coe w

theorem generator_monic (poly : BitVec w) : (generator poly).Monic :=
  monic_X_pow_add (degree_toPoly_lt poly)

theorem degree_generator (poly : BitVec w) : (generator poly).degree = w := by
  rw [generator, degree_add_eq_left_of_degree_lt]
  · exact degree_X_pow w
  · rw [degree_X_pow]
    exact degree_toPoly_lt poly

/-- One step up to a multiple of the generator. -/
theorem exists_step (hw : 0 < w) (poly r : BitVec w) (b : Bool) :
    ∃ q, X * toPoly r + (if b then X ^ w else 0) = toPoly (step poly r b) + generator poly * q := by
  rw [X_mul_toPoly hw, step]
  have hcancel : toPoly (r >>> 1) + X ^ w =
      toPoly ((r >>> 1) ^^^ poly) + generator poly * 1 := by
    rw [mul_one, generator, toPoly_xor, add_assoc, add_left_comm (toPoly poly),
      CharTwo.add_self_eq_zero, add_zero]
  cases r.getLsbD 0 <;> cases b
  · exact ⟨0, by simp⟩
  · exact ⟨1, by simpa using hcancel⟩
  · exact ⟨1, by simpa using hcancel⟩
  · exact ⟨0, by simp [add_assoc, CharTwo.add_self_eq_zero]⟩

/-- The register holds the remainder of what it started with and the message. -/
theorem exists_run (hw : 0 < w) (poly r : BitVec w) (bits : List Bool) :
    ∃ q, X ^ bits.length * toPoly r + X ^ w * message bits =
      toPoly (run poly r bits) + generator poly * q := by
  induction bits generalizing r with
  | nil => exact ⟨0, by simp [run, message]⟩
  | cons b bits ih =>
      obtain ⟨p, hp⟩ := exists_step hw poly r b
      obtain ⟨q, hq⟩ := ih (step poly r b)
      refine ⟨X ^ bits.length * p + q, ?_⟩
      have hrun : run poly r (b :: bits) = run poly (step poly r b) bits := rfl
      calc X ^ (b :: bits).length * toPoly r + X ^ w * message (b :: bits)
          = X ^ bits.length * (X * toPoly r + if b then X ^ w else 0) + X ^ w * message bits := by
            rw [message, List.length_cons, pow_succ]
            cases b <;> simp <;> ring
        _ = (X ^ bits.length * toPoly (step poly r b) + X ^ w * message bits) +
              generator poly * (X ^ bits.length * p) := by
            rw [hp]
            ring
        _ = toPoly (run poly r (b :: bits)) + generator poly * (X ^ bits.length * p + q) := by
            rw [hq, hrun]
            ring

theorem toPoly_run (hw : 0 < w) (poly r : BitVec w) (bits : List Bool) :
    toPoly (run poly r bits) =
      (X ^ bits.length * toPoly r + X ^ w * message bits) %ₘ generator poly := by
  obtain ⟨q, hq⟩ := exists_run hw poly r bits
  refine ((div_modByMonic_unique q _ (generator_monic poly) ⟨hq.symm, ?_⟩).2).symm
  rw [degree_generator]
  exact degree_toPoly_lt _

/-- The checksum of a message: the remainder of the message behind `w` ones, with all bits turned
over. -/
def IsChecksum (poly : BitVec w) (bits : List Bool) (checksum : BitVec w) : Prop :=
  toPoly (~~~ checksum) =
    (X ^ bits.length * toPoly (BitVec.allOnes w) + X ^ w * message bits) %ₘ generator poly

theorem coeff_toPoly (r : BitVec w) {i : Nat} (hi : i < w) :
    (toPoly r).coeff (w - 1 - i) = if r.getLsbD i then 1 else 0 := by
  rw [toPoly, finsetSum_coeff, Finset.sum_eq_single_of_mem i (Finset.mem_range.mpr hi)]
  · split_ifs <;> simp
  · intro j hj hne
    have hj := Finset.mem_range.mp hj
    have hexp : w - 1 - i ≠ w - 1 - j := by omega
    split_ifs
    · rw [coeff_X_pow, if_neg hexp]
    · rw [coeff_zero]

theorem toPoly_injective : Function.Injective (toPoly : BitVec w → (ZMod 2)[X]) := by
  intro r s h
  refine BitVec.eq_of_getLsbD_eq fun i hi => ?_
  have hcoeff := congrArg (fun p => p.coeff (w - 1 - i)) h
  simp only [coeff_toPoly _ hi] at hcoeff
  cases hr : r.getLsbD i <;> cases hs : s.getLsbD i <;> simp_all

theorem IsChecksum.unique {poly : BitVec w} {bits : List Bool} {c c' : BitVec w}
    (h : IsChecksum poly bits c) (h' : IsChecksum poly bits c') : c = c' :=
  BitVec.not_inj.mp (toPoly_injective (h.trans h'.symm))

theorem isChecksum_run (hw : 0 < w) (poly : BitVec w) (bits : List Bool) :
    IsChecksum poly bits (~~~ run poly (BitVec.allOnes w) bits) := by
  rw [IsChecksum, BitVec.not_not, toPoly_run hw]

/-! Several bits at once -/

/-- The register with the first bits of a message in its lowest places. -/
def ofBits : List Bool → BitVec w
  | [] => 0
  | b :: bits => (ofBits bits <<< 1) ^^^ (if b then 1 else 0)

/-- The register after `n` bits that are zero. -/
def shift (poly : BitVec w) (n : Nat) (r : BitVec w) : BitVec w :=
  (fun r => step poly r false)^[n] r

theorem getLsbD_ofBits (bits : List Bool) (i : Nat) :
    (ofBits bits : BitVec w).getLsbD i = (decide (i < w) && bits.getD i false) := by
  induction bits generalizing i with
  | nil => simp [ofBits]
  | cons b bits ih =>
      rw [ofBits, BitVec.getLsbD_xor, BitVec.getLsbD_shiftLeft]
      cases i with
      | zero => cases b <;> simp
      | succ i =>
          have hone : (if b then 1 else 0 : BitVec w).getLsbD (i + 1) = false := by
            cases b <;> simp
          rw [hone, Nat.add_sub_cancel, ih]
          by_cases hi : i + 1 < w
          · have hlt : i < w := by omega
            simp [hi, hlt]
          · simp [hi]

/-- A bit of the message may be put into the lowest place first. -/
theorem step_xor_ofBits (poly r : BitVec w) (b : Bool) {bits : List Bool}
    (hw : bits.length < w) :
    step poly r b ^^^ ofBits bits = step poly (r ^^^ ofBits (b :: bits)) false := by
  have hlow : (r ^^^ ofBits (b :: bits)).getLsbD 0 = (r.getLsbD 0 ^^ b) := by
    rw [BitVec.getLsbD_xor, getLsbD_ofBits]
    have : 0 < w := by omega
    simp [this]
  have hrest : (r ^^^ ofBits (b :: bits)) >>> 1 = (r >>> 1) ^^^ ofBits bits := by
    refine BitVec.eq_of_getLsbD_eq fun i hi => ?_
    rw [BitVec.getLsbD_ushiftRight, BitVec.getLsbD_xor, BitVec.getLsbD_xor,
      BitVec.getLsbD_ushiftRight, getLsbD_ofBits, getLsbD_ofBits, Nat.add_comm 1 i]
    by_cases hlt : i + 1 < w
    · simp [hlt, hi]
    · have hnone : bits.length ≤ i := by omega
      simp [hlt, hnone]
  rw [step, step, hlow, hrest, Bool.xor_false]
  split_ifs
  · rw [BitVec.xor_assoc, BitVec.xor_comm poly, BitVec.xor_assoc]
  · rfl

/-- Bits may be put into the register before it is shifted. -/
theorem run_eq_shift (poly r : BitVec w) {bits : List Bool} (hw : bits.length ≤ w) :
    run poly r bits = shift poly bits.length (r ^^^ ofBits bits) := by
  induction bits generalizing r with
  | nil => simp [run, shift, ofBits]
  | cons b bits ih =>
      have hlength : bits.length < w := hw
      calc run poly r (b :: bits)
          = run poly (step poly r b) bits := rfl
        _ = shift poly bits.length (step poly (r ^^^ ofBits (b :: bits)) false) := by
            rw [ih _ hlength.le, step_xor_ofBits poly r b hlength]
        _ = shift poly (b :: bits).length (r ^^^ ofBits (b :: bits)) := rfl

end AnvilRun.Crc
