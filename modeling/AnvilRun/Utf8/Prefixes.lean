import AnvilRun.Utf8.Reads

namespace AnvilRun.Utf8

variable {b : UInt8} {c : Char} {t x y bytes : List UInt8}

/-! Decoding makes no text shorter -/

theorem maximalSubpart_le (b : UInt8) (bytes : List UInt8) : maximalSubpart b bytes ≤ 3 := by
  rcases bytes with _ | ⟨b₁, _ | ⟨b₂, rest⟩⟩
  · exact Nat.le_of_ble_eq_true rfl
  · rw [maximalSubpart_pair]
    split <;> decide
  · rw [maximalSubpart_cons_cons]
    split
    · split <;> decide
    · decide

theorem stepLength_le (b : UInt8) (bytes : List UInt8) :
    stepLength b bytes ≤ (decodeStep b bytes).1.utf8Size := by
  rw [← decodeStep_snd, decodeStep]
  split
  · exact Nat.le_refl _
  · exact maximalSubpart_le b bytes

theorem length_le_length_encode_decodeLossy (bytes : List UInt8) :
    bytes.length ≤ (encode (decodeLossy bytes)).length := by
  induction hlength : bytes.length using Nat.strongRecOn generalizing bytes with
  | ind n ih =>
      rcases bytes with _ | ⟨b, bytes⟩
      · rw [← hlength]
        exact Nat.zero_le _
      · have hstep := stepLength_le b bytes
        have hrest := ih (bytes.drop (goesOnFor [b] bytes)).length
          (by rw [← hlength, List.length_cons, List.length_drop]; omega) _ rfl
        rw [decodeLossy_cons, encode_cons, List.length_append, String.length_utf8EncodeChar,
          ← hlength, List.length_cons]
        rw [stepLength] at hstep
        rw [List.length_drop] at hrest
        omega

theorem maximalSubpart_pos (b : UInt8) (bytes : List UInt8) : 0 < maximalSubpart b bytes := by
  rcases bytes with _ | ⟨b₁, _ | ⟨b₂, rest⟩⟩
  · exact Nat.one_pos
  · rw [maximalSubpart_pair]
    split <;> decide
  · rw [maximalSubpart_cons_cons]
    split
    · split <;> decide
    · decide

theorem le_stepLength (b : UInt8) (bytes : List UInt8) :
    (decodeStep b bytes).1.utf8Size ≤ 3 * stepLength b bytes := by
  rw [← decodeStep_snd, decodeStep]
  split
  · exact Nat.le_mul_of_pos_left _ (Nat.succ_pos 2)
  · exact Nat.mul_le_mul_left 3 (maximalSubpart_pos b bytes)

/-- At the worst every byte is decoded to a replacement character. -/
theorem length_encode_decodeLossy_le (bytes : List UInt8) :
    (encode (decodeLossy bytes)).length ≤ 3 * bytes.length := by
  induction hlength : bytes.length using Nat.strongRecOn generalizing bytes with
  | ind n ih =>
      rcases bytes with _ | ⟨b, bytes⟩
      · exact Nat.zero_le _
      · have hstep := le_stepLength b bytes
        have hgoes := goesOnFor_le [b] bytes
        have hrest := ih (bytes.drop (goesOnFor [b] bytes)).length
          (by rw [← hlength, List.length_cons, List.length_drop]; omega) _ rfl
        rw [decodeLossy_cons, encode_cons, List.length_append, String.length_utf8EncodeChar,
          ← hlength, List.length_cons]
        rw [stepLength] at hstep
        rw [List.length_drop] at hrest
        omega

/-! Decoding a text that was cut off -/

theorem goesOnFor_of_append (h : goesOnFor t (x ++ y) = (x ++ y).length) :
    goesOnFor t x = x.length := by
  induction x generalizing t with
  | nil => rfl
  | cons b x ih =>
      rw [List.cons_append, goesOnFor] at h
      split at h
      · rename_i hgoes
        rw [goesOnFor_cons hgoes, ih (Nat.succ.inj h), List.length_cons]
      · cases h

theorem utf8DecodeChar?_utf8EncodeChar (c : Char) (rest : List UInt8) :
    (String.utf8EncodeChar c ++ rest).toByteArray.utf8DecodeChar? 0 = some c := by
  rw [List.toByteArray_append]
  exact ByteArray.utf8DecodeChar?_utf8EncodeChar_append

/-- The start of a character is decoded to one replacement character. -/
theorem decodeLossy_start {start rest : List UInt8}
    (hchar : String.utf8EncodeChar c = start ++ rest) (hstart : start ≠ []) (hrest : rest ≠ []) :
    decodeLossy start = ['\uFFFD'] := by
  obtain ⟨b, bytes, rfl⟩ := List.exists_cons_of_ne_nil hstart
  have hwhole := utf8DecodeChar?_utf8EncodeChar c []
  rw [List.append_nil, hchar, List.cons_append] at hwhole
  have hall : goesOnFor [b] (bytes ++ rest) = (bytes ++ rest).length := by
    have hlength := String.length_utf8EncodeChar c
    have hstep := stepLength_of_startsWithChar hwhole
    rw [hchar, List.cons_append, List.length_cons, ← hstep, stepLength] at hlength
    exact (Nat.succ.inj hlength).symm
  have hnone : (b :: bytes).toByteArray.utf8DecodeChar? 0 = none := by
    cases hsome : (b :: bytes).toByteArray.utf8DecodeChar? 0 with
    | none => rfl
    | some d =>
        obtain ⟨more, hmore⟩ := exists_rest hsome
        have hsame : some d = some c := by
          rw [← utf8DecodeChar?_utf8EncodeChar d (more ++ rest), ← List.append_assoc, ← hmore,
            List.cons_append, hwhole]
        obtain rfl := Option.some.inj hsame
        have hlength := congrArg List.length hchar
        rw [hmore, List.append_assoc, List.length_append, List.length_append] at hlength
        have hpos := List.length_pos_of_ne_nil hrest
        omega
  rw [decodeLossy_cons, goesOnFor_of_append hall, List.drop_length, decodeLossy_nil, decodeStep,
    hnone]

/-- What is decoded of a text whose end is missing stands in front of its last character, apart
from a replacement character for the cut. -/
theorem mem_decodeLossy_take {s : List Char} {n : Nat} (h : n < (encode s).length)
    (hc : c ∈ decodeLossy ((encode s).take n)) : c = '\uFFFD' ∨ c ∈ s.dropLast := by
  induction s generalizing n with
  | nil => exact absurd h (Nat.not_lt_zero n)
  | cons d s ih =>
      rw [encode_cons] at h hc
      rw [List.length_append] at h
      by_cases hle : (String.utf8EncodeChar d).length ≤ n
      · have hlt : n - (String.utf8EncodeChar d).length < (encode s).length := by omega
        have hne : s ≠ [] := by
          rintro rfl
          exact absurd hlt (Nat.not_lt_zero _)
        rw [List.take_append, List.take_of_length_le hle, decodeLossy_encodeChar] at hc
        rw [List.dropLast_cons_of_ne_nil hne]
        rcases List.mem_cons.mp hc with rfl | hc
        · exact Or.inr (List.mem_cons_self ..)
        · exact (ih hlt hc).imp_right (List.mem_cons_of_mem d)
      · rw [List.take_append_of_le_length (by omega)] at hc
        by_cases hzero : (String.utf8EncodeChar d).take n = []
        · rw [hzero] at hc
          cases hc
        · have hrest : (String.utf8EncodeChar d).drop n ≠ [] := by
            rw [ne_eq, List.drop_eq_nil_iff]
            exact hle
          rw [decodeLossy_start (List.take_append_drop n _).symm hzero hrest] at hc
          exact Or.inl (List.mem_singleton.mp hc)

end AnvilRun.Utf8
