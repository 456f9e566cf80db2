import AnvilRun.ArtifactArchive
import AnvilRun.Crc

namespace AnvilRun.ArtifactArchive

/-- The bits of a byte, the lowest first. -/
def byteBits (byte : UInt8) : List Bool :=
  (List.range 8).map byte.toBitVec.getLsbD

def contentBits (content : Buffer) : List Bool :=
  content.flatMap byteBits

/-- The standard generator, without its highest coefficient. -/
def crc32Generator : BitVec 32 := 0xedb88320

def crc32 (content : Buffer) : BitVec 32 :=
  ~~~ Crc.run crc32Generator (BitVec.allOnes 32) (contentBits content)

theorem isChecksum_crc32 (content : Buffer) :
    Crc.IsChecksum crc32Generator (contentBits content) (crc32 content) :=
  Crc.isChecksum_run (by decide) crc32Generator (contentBits content)

theorem crc32Bit_eq (value : BitVec 32) :
    crc32Bit value = Crc.step crc32Generator value false := by
  have hlow : value &&& 1 ≠ 0 ↔ value.getLsbD 0 = true := by
    rw [← BitVec.toNat_ne_iff_ne, BitVec.toNat_and, BitVec.getLsbD, Nat.testBit_zero]
    simp
  rw [crc32Bit, Crc.step, Bool.xor_false]
  cases hbit : value.getLsbD 0
  · have hzero : ¬ value &&& 1 ≠ 0 := by rw [hlow, hbit]; decide
    rw [if_neg hzero, if_neg Bool.false_ne_true]
    exact BitVec.xor_zero
  · rw [if_pos (hlow.mpr hbit), if_pos rfl]
    rfl

theorem length_byteBits (byte : UInt8) : (byteBits byte).length = 8 := by
  rw [byteBits, List.length_map, List.length_range]

theorem ofBits_byteBits (byte : UInt8) :
    Crc.ofBits (byteBits byte) = byte.toBitVec.zeroExtend 32 := by
  refine BitVec.eq_of_getLsbD_eq fun i hi => ?_
  rw [Crc.getLsbD_ofBits, BitVec.zeroExtend, BitVec.getLsbD_setWidth]
  by_cases h : i < 8
  · simp [byteBits, h]
  · have hnone : byte.toBitVec.getLsbD i = false := BitVec.getLsbD_of_ge _ _ (by omega)
    simp [byteBits, h, hnone]

theorem crc32Byte_eq (value : BitVec 32) (byte : UInt8) :
    crc32Byte value byte = Crc.run crc32Generator value (byteBits byte) := by
  have hlength : (byteBits byte).length ≤ 32 := by
    rw [length_byteBits]
    decide
  rw [Crc.run_eq_shift _ _ hlength, ofBits_byteBits, length_byteBits, crc32Byte, Crc.shift]
  exact congrArg (fun f => f^[8] _) (funext crc32Bit_eq)

theorem foldl_crc32Byte (value : BitVec 32) (chunk : Buffer) :
    chunk.foldl crc32Byte value = Crc.run crc32Generator value (contentBits chunk) := by
  induction chunk generalizing value with
  | nil => rfl
  | cons byte chunk ih =>
      rw [List.foldl_cons, ih, crc32Byte_eq, contentBits, contentBits, List.flatMap_cons,
        Crc.run_append]

theorem crc32Update_eq (crc : BitVec 32) (chunk : Buffer) :
    crc32Update crc chunk = ~~~ Crc.run crc32Generator (~~~ crc) (contentBits chunk) := by
  have hones : (0xffffffff : BitVec 32) = BitVec.allOnes 32 := by decide
  rw [crc32Update, hones, BitVec.xor_allOnes, BitVec.xor_allOnes, foldl_crc32Byte]

example : crc32Update 0 [0x31, 0x32, 0x33, 0x34, 0x35, 0x36, 0x37, 0x38, 0x39] = 0xcbf43926 := by
  decide +kernel

/-- How the content is cut into chunks does not matter. -/
theorem readChunks_eq (chunks : List Buffer) (crc : BitVec 32) (size : Nat) :
    readChunks chunks (crc, size) =
      (~~~ Crc.run crc32Generator (~~~ crc) (contentBits chunks.flatten),
        size + chunks.flatten.length) := by
  induction chunks generalizing crc size with
  | nil => simp [readChunks, contentBits, Crc.run]
  | cons chunk chunks ih =>
      rw [readChunks, ih, crc32Update_eq, BitVec.not_not, ← Crc.run_append, List.flatten_cons,
        List.length_append, Nat.add_assoc]
      simp only [contentBits, List.flatMap_append]

theorem readChunks_zero (chunks : List Buffer) :
    readChunks chunks (0, 0) = (crc32 chunks.flatten, chunks.flatten.length) := by
  rw [readChunks_eq, Nat.zero_add]
  rfl

end AnvilRun.ArtifactArchive
