import Mathlib.Data.String.Defs
import Mathlib.Data.List.Basic

namespace AnvilRun.Utf8

def encode (s : List Char) : List UInt8 :=
  s.flatMap String.utf8EncodeChar

def isContinuation (b : UInt8) : Bool :=
  decide (0x80 ≤ b ∧ b ≤ 0xBF)

/-- Whether `b₁` may follow the leading byte `b₀` of a sequence of three or four bytes. -/
def isSecondByte (b₀ b₁ : UInt8) : Bool :=
  if b₀ = 0xE0 then decide (0xA0 ≤ b₁ ∧ b₁ ≤ 0xBF)
  else if b₀ = 0xED then decide (0x80 ≤ b₁ ∧ b₁ ≤ 0x9F)
  else if b₀ = 0xF0 then decide (0x90 ≤ b₁ ∧ b₁ ≤ 0xBF)
  else if b₀ = 0xF4 then decide (0x80 ≤ b₁ ∧ b₁ ≤ 0x8F)
  else isContinuation b₁

/-- How many bytes one replacement character stands for: the longest prefix of an ill-formed
text that could still start a character, or one byte. -/
def maximalSubpart (b₀ : UInt8) : List UInt8 → Nat
  | [] => 1
  | b₁ :: rest =>
      if decide (0xE0 ≤ b₀ ∧ b₀ ≤ 0xF4) && isSecondByte b₀ b₁ then
        match rest with
        | [] => 2
        | b₂ :: _ => if decide (0xF0 ≤ b₀) && isContinuation b₂ then 3 else 2
      else 1

theorem maximalSubpart_pair (b₀ b₁ : UInt8) :
    maximalSubpart b₀ [b₁] =
      if decide (0xE0 ≤ b₀ ∧ b₀ ≤ 0xF4) && isSecondByte b₀ b₁ then 2 else 1 :=
  rfl

theorem maximalSubpart_cons_cons (b₀ b₁ b₂ : UInt8) (rest : List UInt8) :
    maximalSubpart b₀ (b₁ :: b₂ :: rest) =
      if decide (0xE0 ≤ b₀ ∧ b₀ ≤ 0xF4) && isSecondByte b₀ b₁ then
        if decide (0xF0 ≤ b₀) && isContinuation b₂ then 3 else 2
      else 1 :=
  rfl

/-- The first character of a non-empty text and the number of bytes it takes. -/
def decodeStep (b : UInt8) (bytes : List UInt8) : Char × Nat :=
  match (b :: bytes).toByteArray.utf8DecodeChar? 0 with
  | some c => (c, c.utf8Size)
  | none => ('\uFFFD', maximalSubpart b bytes)

/-- Scanning state of `decodeLossy`: the first argument counts the bytes of the last character
that still have to be skipped. -/
def decodeFrom : Nat → List UInt8 → List Char
  | _, [] => []
  | k + 1, _ :: bytes => decodeFrom k bytes
  | 0, b :: bytes => (decodeStep b bytes).1 :: decodeFrom ((decodeStep b bytes).2 - 1) bytes

/-- Decoding that puts a replacement character for ill-formed parts. -/
def decodeLossy (bytes : List UInt8) : List Char :=
  decodeFrom 0 bytes

theorem decodeFrom_eq_drop (k : Nat) (bytes : List UInt8) :
    decodeFrom k bytes = decodeLossy (bytes.drop k) := by
  induction bytes generalizing k with
  | nil => simp [decodeFrom, decodeLossy]
  | cons b bytes ih =>
      cases k with
      | zero => rfl
      | succ k => exact ih k

theorem decodeLossy_encodeChar (c : Char) (bytes : List UInt8) :
    decodeLossy (String.utf8EncodeChar c ++ bytes) = c :: decodeLossy bytes := by
  have hlength := String.length_utf8EncodeChar c
  have hdecode : (String.utf8EncodeChar c ++ bytes).toByteArray.utf8DecodeChar? 0 = some c := by
    rw [List.toByteArray_append]
    exact ByteArray.utf8DecodeChar?_utf8EncodeChar_append
  obtain ⟨b, t, ht⟩ := List.exists_cons_of_ne_nil
    (List.ne_nil_of_length_pos (hlength ▸ c.utf8Size_pos))
  rw [ht, List.cons_append] at hdecode ⊢
  have hdrop : (t ++ bytes).drop (c.utf8Size - 1) = bytes := by
    rw [← hlength, ht, List.length_cons, Nat.add_sub_cancel, List.drop_left]
  rw [decodeLossy, decodeFrom]
  simp only [decodeStep, hdecode]
  rw [decodeFrom_eq_drop, hdrop]

theorem encode_cons (c : Char) (s : List Char) :
    encode (c :: s) = String.utf8EncodeChar c ++ encode s :=
  List.flatMap_cons

theorem decodeLossy_encode_append (s : List Char) (bytes : List UInt8) :
    decodeLossy (encode s ++ bytes) = s ++ decodeLossy bytes := by
  induction s with
  | nil => rfl
  | cons c s ih =>
      rw [encode_cons, List.append_assoc, decodeLossy_encodeChar, ih, List.cons_append]

theorem decodeLossy_encode (s : List Char) : decodeLossy (encode s) = s := by
  have hdecode := decodeLossy_encode_append s []
  rw [List.append_nil] at hdecode
  exact hdecode.trans (List.append_nil s)

theorem encode_append (s t : List Char) : encode (s ++ t) = encode s ++ encode t :=
  List.flatMap_append

end AnvilRun.Utf8
