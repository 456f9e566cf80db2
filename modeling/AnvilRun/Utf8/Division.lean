import AnvilRun.Utf8

namespace AnvilRun.Utf8

open ByteArray.utf8DecodeChar?

variable {b₀ b₁ b₂ b₃ : UInt8} {t x y bytes rest : List UInt8}

/-- Whether `b` goes on with the character that the bytes `t` are the start of. -/
def goesOn : List UInt8 → UInt8 → Bool
  | [b₀], b₁ =>
      decide (0xC2 ≤ b₀ ∧ b₀ ≤ 0xDF) && isContinuation b₁ ||
        decide (0xE0 ≤ b₀ ∧ b₀ ≤ 0xF4) && isSecondByte b₀ b₁
  | [b₀, b₁], b₂ =>
      decide (0xE0 ≤ b₀ ∧ b₀ ≤ 0xF4) && isSecondByte b₀ b₁ && isContinuation b₂
  | [b₀, b₁, b₂], b₃ =>
      decide (0xF0 ≤ b₀ ∧ b₀ ≤ 0xF4) && isSecondByte b₀ b₁ && isContinuation b₂ &&
        isContinuation b₃
  | _, _ => false

/-- Whether the first text ends within a character that the second one goes on with. -/
def Splits (x y : List UInt8) : Prop :=
  ∃ t b, t <:+ x ∧ y.head? = some b ∧ goesOn t b = true

/-- How many of the bytes go on with the character that the bytes `t` are the start of. -/
def goesOnFor (t : List UInt8) : List UInt8 → Nat
  | [] => 0
  | b :: bytes => if goesOn t b then goesOnFor (t ++ [b]) bytes + 1 else 0

/-- How many bytes the first character takes, or the replacement that stands for it. -/
def stepLength (b₀ : UInt8) (bytes : List UInt8) : Nat :=
  goesOnFor [b₀] bytes + 1

theorem goesOnFor_cons (h : goesOn t b₀ = true) :
    goesOnFor t (b₀ :: bytes) = goesOnFor (t ++ [b₀]) bytes + 1 := by
  rw [goesOnFor, if_pos h]

/-- Nothing goes on when the next byte does not. -/
theorem goesOnFor_eq_zero (h : ∀ b rest, bytes = b :: rest → goesOn t b ≠ true) :
    goesOnFor t bytes = 0 := by
  cases bytes with
  | nil => rfl
  | cons b rest => rw [goesOnFor, if_neg (h b rest rfl)]

/-! The bytes of a character -/

theorem forall_byte {p : UInt8 → Prop} (h : ∀ n : Fin 256, p (UInt8.ofNat n.val)) (b : UInt8) :
    p b := by
  simpa using h ⟨b.toNat, b.toNat_lt⟩

theorem isInvalidContinuationByte_eq (b : UInt8) :
    isInvalidContinuationByte b = !isContinuation b := by
  revert b
  exact forall_byte (by decide +kernel)

/-- What the masks of a first byte tell apart. -/
theorem and_masks (b : UInt8) :
    (b &&& 0x80 == 0) = decide (b < 0x80) ∧
      (b &&& 0xE0 == 0xC0) = decide (0xC0 ≤ b ∧ b ≤ 0xDF) ∧
      (b &&& 0xF0 == 0xE0) = decide (0xE0 ≤ b ∧ b ≤ 0xEF) ∧
      (b &&& 0xF8 == 0xF0) = decide (0xF0 ≤ b ∧ b ≤ 0xF7) := by
  revert b
  exact forall_byte (by decide +kernel)

theorem parseFirstByte_eq (b : UInt8) :
    parseFirstByte b =
      if b < 0x80 then .done
      else if 0xC0 ≤ b ∧ b ≤ 0xDF then .oneMore
      else if 0xE0 ≤ b ∧ b ≤ 0xEF then .twoMore
      else if 0xF0 ≤ b ∧ b ≤ 0xF7 then .threeMore
      else .invalid := by
  obtain ⟨hone, htwo, hthree, hfour⟩ := and_masks b
  simp only [parseFirstByte, hone, htwo, hthree, hfour, decide_eq_true_eq]

theorem toNat_assemble₂Unchecked (w x : UInt8) :
    (assemble₂Unchecked w x).toNat = 64 * (w.toNat % 32) + x.toNat % 64 := by
  have hw : w.toNat % 32 < 32 := Nat.mod_lt _ (by decide)
  have hx : x.toNat % 64 < 64 := Nat.mod_lt _ (by decide)
  simp only [assemble₂Unchecked, UInt32.toNat_or, UInt32.toNat_shiftLeft, UInt8.toNat_toUInt32,
    UInt8.toNat_and, UInt8.reduceToNat, UInt32.reduceToNat, Nat.reduceMod]
  rw [Nat.and_two_pow_sub_one_eq_mod _ 5, Nat.and_two_pow_sub_one_eq_mod _ 6, Nat.shiftLeft_eq,
    Nat.mod_eq_of_lt (b := 2 ^ 32) (by omega), Nat.mul_comm _ (2 ^ _),
    ← Nat.two_pow_add_eq_or_of_lt (by omega)]

theorem toNat_assemble₃Unchecked (w x y : UInt8) :
    (assemble₃Unchecked w x y).toNat =
      4096 * (w.toNat % 16) + 64 * (x.toNat % 64) + y.toNat % 64 := by
  have hw : w.toNat % 16 < 16 := Nat.mod_lt _ (by decide)
  have hx : x.toNat % 64 < 64 := Nat.mod_lt _ (by decide)
  have hy : y.toNat % 64 < 64 := Nat.mod_lt _ (by decide)
  simp only [assemble₃Unchecked, UInt32.toNat_or, UInt32.toNat_shiftLeft, UInt8.toNat_toUInt32,
    UInt8.toNat_and, UInt8.reduceToNat, UInt32.reduceToNat, Nat.reduceMod]
  rw [Nat.and_two_pow_sub_one_eq_mod _ 4, Nat.and_two_pow_sub_one_eq_mod x.toNat 6,
    Nat.and_two_pow_sub_one_eq_mod y.toNat 6, Nat.shiftLeft_eq, Nat.shiftLeft_eq,
    Nat.mod_eq_of_lt (b := 2 ^ 32) (by omega), Nat.mod_eq_of_lt (b := 2 ^ 32) (by omega),
    Nat.mul_comm _ (2 ^ 12), Nat.mul_comm _ (2 ^ 6), Nat.or_assoc,
    ← Nat.two_pow_add_eq_or_of_lt (b := y.toNat % 64) (by omega),
    ← Nat.two_pow_add_eq_or_of_lt (by omega)]
  omega

theorem toNat_assemble₄Unchecked (w x y z : UInt8) :
    (assemble₄Unchecked w x y z).toNat =
      262144 * (w.toNat % 8) + 4096 * (x.toNat % 64) + 64 * (y.toNat % 64) + z.toNat % 64 := by
  have hw : w.toNat % 8 < 8 := Nat.mod_lt _ (by decide)
  have hx : x.toNat % 64 < 64 := Nat.mod_lt _ (by decide)
  have hy : y.toNat % 64 < 64 := Nat.mod_lt _ (by decide)
  have hz : z.toNat % 64 < 64 := Nat.mod_lt _ (by decide)
  simp only [assemble₄Unchecked, UInt32.toNat_or, UInt32.toNat_shiftLeft, UInt8.toNat_toUInt32,
    UInt8.toNat_and, UInt8.reduceToNat, UInt32.reduceToNat, Nat.reduceMod]
  rw [Nat.and_two_pow_sub_one_eq_mod _ 3, Nat.and_two_pow_sub_one_eq_mod x.toNat 6,
    Nat.and_two_pow_sub_one_eq_mod y.toNat 6, Nat.and_two_pow_sub_one_eq_mod z.toNat 6,
    Nat.shiftLeft_eq, Nat.shiftLeft_eq, Nat.shiftLeft_eq,
    Nat.mod_eq_of_lt (b := 2 ^ 32) (by omega), Nat.mod_eq_of_lt (b := 2 ^ 32) (by omega),
    Nat.mod_eq_of_lt (b := 2 ^ 32) (by omega),
    Nat.mul_comm _ (2 ^ 18), Nat.mul_comm _ (2 ^ 12), Nat.mul_comm _ (2 ^ 6), Nat.or_assoc,
    Nat.or_assoc, ← Nat.two_pow_add_eq_or_of_lt (b := z.toNat % 64) (by omega),
    ← Nat.two_pow_add_eq_or_of_lt (b := 2 ^ 6 * (y.toNat % 2 ^ 6) + z.toNat % 64) (by omega),
    ← Nat.two_pow_add_eq_or_of_lt (by omega)]
  omega

/-- The tests on bytes as comparisons of numbers. -/
theorem isContinuation_iff (b : UInt8) :
    isContinuation b = true ↔ 0x80 ≤ b.toNat ∧ b.toNat ≤ 0xBF := by
  simp only [isContinuation, decide_eq_true_eq, UInt8.le_iff_toNat_le, UInt8.reduceToNat]

theorem isSecondByte_iff (b₀ b₁ : UInt8) :
    isSecondByte b₀ b₁ = true ↔
      0x80 ≤ b₁.toNat ∧ b₁.toNat ≤ 0xBF ∧ (b₀.toNat = 0xE0 → 0xA0 ≤ b₁.toNat) ∧
        (b₀.toNat = 0xED → b₁.toNat ≤ 0x9F) ∧ (b₀.toNat = 0xF0 → 0x90 ≤ b₁.toNat) ∧
        (b₀.toNat = 0xF4 → b₁.toNat ≤ 0x8F) := by
  simp only [isSecondByte, ← UInt8.toNat_inj, UInt8.reduceToNat]
  split
  · simp only [decide_eq_true_eq, UInt8.le_iff_toNat_le, UInt8.reduceToNat]
    omega
  split
  · simp only [decide_eq_true_eq, UInt8.le_iff_toNat_le, UInt8.reduceToNat]
    omega
  split
  · simp only [decide_eq_true_eq, UInt8.le_iff_toNat_le, UInt8.reduceToNat]
    omega
  split
  · simp only [decide_eq_true_eq, UInt8.le_iff_toNat_le, UInt8.reduceToNat]
    omega
  · rw [isContinuation_iff]
    omega

theorem verify₂_iff (h : 0xC0 ≤ b₀.toNat ∧ b₀.toNat ≤ 0xDF) :
    verify₂ b₀ b₁ = true ↔ goesOn [b₀] b₁ = true := by
  by_cases hb₁ : isContinuation b₁ = true
  · have hbound := (isContinuation_iff b₁).mp hb₁
    simp only [verify₂, isInvalidContinuationByte_eq, goesOn, hb₁, Bool.not_true, Bool.and_true,
      Bool.or_eq_true, Bool.and_eq_true, decide_eq_true_eq, UInt8.le_iff_toNat_le,
      UInt32.le_iff_toNat_le, UInt8.reduceToNat, UInt32.reduceToNat, toNat_assemble₂Unchecked,
      Bool.false_eq_true, if_false]
    omega
  · have hsecond : ¬ isSecondByte b₀ b₁ = true := by
      intro hsecond
      rw [isSecondByte_iff] at hsecond
      exact hb₁ ((isContinuation_iff b₁).mpr ⟨hsecond.1, hsecond.2.1⟩)
    simp [verify₂, isInvalidContinuationByte_eq, goesOn, hb₁, hsecond]

theorem verify₃_iff (h : 0xE0 ≤ b₀.toNat ∧ b₀.toNat ≤ 0xEF) :
    verify₃ b₀ b₁ b₂ = true ↔ goesOn [b₀, b₁] b₂ = true := by
  by_cases hb : isContinuation b₁ = true ∧ isContinuation b₂ = true
  · have hbound₁ := (isContinuation_iff b₁).mp hb.1
    have hbound₂ := (isContinuation_iff b₂).mp hb.2
    simp only [verify₃, isInvalidContinuationByte_eq, goesOn, hb.1, hb.2, Bool.not_true,
      Bool.and_true, Bool.or_self, Bool.and_eq_true, decide_eq_true_eq, UInt8.le_iff_toNat_le,
      UInt32.le_iff_toNat_le, UInt32.lt_iff_toNat_lt, UInt8.reduceToNat, UInt32.reduceToNat,
      toNat_assemble₃Unchecked, isSecondByte_iff, Bool.false_eq_true, if_false]
    omega
  · have hno : ¬ (isSecondByte b₀ b₁ = true ∧ isContinuation b₂ = true) := by
      rintro ⟨hsecond, hb₂⟩
      rw [isSecondByte_iff] at hsecond
      exact hb ⟨(isContinuation_iff b₁).mpr ⟨hsecond.1, hsecond.2.1⟩, hb₂⟩
    constructor
    · intro hverify
      refine absurd ?_ hb
      simp only [verify₃, isInvalidContinuationByte_eq] at hverify
      split at hverify
      · cases hverify
      · rename_i hcont
        simpa using hcont
    · intro hgoes
      simp only [goesOn, Bool.and_eq_true] at hgoes
      exact absurd ⟨hgoes.1.2, hgoes.2⟩ hno

theorem verify₄_iff (h : 0xF0 ≤ b₀.toNat ∧ b₀.toNat ≤ 0xF7) :
    verify₄ b₀ b₁ b₂ b₃ = true ↔ goesOn [b₀, b₁, b₂] b₃ = true := by
  by_cases hb : isContinuation b₁ = true ∧ isContinuation b₂ = true ∧ isContinuation b₃ = true
  · have hbound₁ := (isContinuation_iff b₁).mp hb.1
    have hbound₂ := (isContinuation_iff b₂).mp hb.2.1
    have hbound₃ := (isContinuation_iff b₃).mp hb.2.2
    simp only [verify₄, isInvalidContinuationByte_eq, goesOn, hb.1, hb.2.1, hb.2.2, Bool.not_true,
      Bool.and_true, Bool.or_self, Bool.and_eq_true, decide_eq_true_eq, UInt8.le_iff_toNat_le,
      UInt32.le_iff_toNat_le, UInt8.reduceToNat, UInt32.reduceToNat, toNat_assemble₄Unchecked,
      isSecondByte_iff, Bool.false_eq_true, if_false]
    omega
  · constructor
    · intro hverify
      refine absurd ?_ hb
      simp only [verify₄, isInvalidContinuationByte_eq] at hverify
      split at hverify
      · cases hverify
      · rename_i hcont
        simpa [and_assoc] using hcont
    · intro hgoes
      simp only [goesOn, Bool.and_eq_true, isSecondByte_iff] at hgoes
      obtain ⟨⟨⟨-, hsecond⟩, hb₂⟩, hb₃⟩ := hgoes
      exact absurd ⟨(isContinuation_iff b₁).mpr ⟨hsecond.1, hsecond.2.1⟩, hb₂, hb₃⟩ hb

/-- Whether the bytes start with a character, by the table of well-formed sequences. -/
def startsWithChar (b₀ : UInt8) (bytes : List UInt8) : Prop :=
  b₀.toNat < 0x80 ∨
    (∃ b₁ rest, bytes = b₁ :: rest ∧ b₀.toNat ≤ 0xDF ∧ goesOn [b₀] b₁ = true) ∨
    (∃ b₁ b₂ rest, bytes = b₁ :: b₂ :: rest ∧ b₀.toNat ≤ 0xEF ∧ goesOn [b₀, b₁] b₂ = true) ∨
    ∃ b₁ b₂ b₃ rest, bytes = b₁ :: b₂ :: b₃ :: rest ∧ goesOn [b₀, b₁, b₂] b₃ = true

theorem le_of_goesOn₁ (h : goesOn [b₀] b₁ = true) : 0xC2 ≤ b₀.toNat := by
  simp only [goesOn, Bool.or_eq_true, Bool.and_eq_true, decide_eq_true_eq,
    UInt8.le_iff_toNat_le, UInt8.reduceToNat] at h
  omega

theorem le_of_goesOn₂ (h : goesOn [b₀, b₁] b₂ = true) : 0xE0 ≤ b₀.toNat := by
  simp only [goesOn, Bool.and_eq_true, decide_eq_true_eq, UInt8.le_iff_toNat_le,
    UInt8.reduceToNat] at h
  omega

theorem le_of_goesOn₃ (h : goesOn [b₀, b₁, b₂] b₃ = true) : 0xF0 ≤ b₀.toNat ∧ b₀.toNat ≤ 0xF4 := by
  simp only [goesOn, Bool.and_eq_true, decide_eq_true_eq, UInt8.le_iff_toNat_le,
    UInt8.reduceToNat] at h
  omega

theorem isSome_utf8DecodeChar?_iff :
    ((b₀ :: bytes).toByteArray.utf8DecodeChar? 0).isSome = true ↔ startsWithChar b₀ bytes := by
  rw [← ByteArray.validateUTF8At_eq_isSome_utf8DecodeChar?, ByteArray.validateUTF8At]
  have hsize : 0 < (b₀ :: bytes).toByteArray.size := by simp
  rw [dif_pos hsize]
  have hfirst : (b₀ :: bytes).toByteArray[0] = b₀ := by simp
  have hparse := parseFirstByte_eq b₀
  simp only [UInt8.lt_iff_toNat_lt, UInt8.le_iff_toNat_le, UInt8.reduceToNat] at hparse
  have hrange := b₀.toNat_lt
  split
  · rename_i h
    rw [hfirst, hparse] at h
    split_ifs at h
    refine iff_of_false (by simp) ?_
    rintro (hlt | ⟨b₁, rest, -, hle, hgoes⟩ | ⟨b₁, b₂, rest, -, hle, hgoes⟩ |
      ⟨b₁, b₂, b₃, rest, -, hgoes⟩)
    · omega
    · have := le_of_goesOn₁ hgoes
      omega
    · have := le_of_goesOn₂ hgoes
      omega
    · have := le_of_goesOn₃ hgoes
      omega
  · rename_i h
    rw [hfirst, hparse] at h
    split_ifs at h with hlt
    exact iff_of_true rfl (.inl hlt)
  · rename_i h
    rw [hfirst, hparse] at h
    split_ifs at h with hlt htwo
    have hno₂ : ∀ b₁ b₂, goesOn [b₀, b₁] b₂ ≠ true := fun _ _ hgoes => by
      have := le_of_goesOn₂ hgoes
      omega
    have hno₃ : ∀ b₁ b₂ b₃, goesOn [b₀, b₁, b₂] b₃ ≠ true := fun _ _ _ hgoes => by
      have := le_of_goesOn₃ hgoes
      omega
    rcases bytes with _ | ⟨b₁, rest⟩
    · simp [startsWithChar, hlt]
    · simp [startsWithChar, hlt, htwo, hno₂, hno₃, verify₂_iff htwo]
  · rename_i h
    rw [hfirst, hparse] at h
    split_ifs at h with hlt htwo hthree
    have hle : ¬ b₀.toNat ≤ 0xDF := by omega
    have hno₃ : ∀ b₁ b₂ b₃, goesOn [b₀, b₁, b₂] b₃ ≠ true := fun _ _ _ hgoes => by
      have := le_of_goesOn₃ hgoes
      omega
    rcases bytes with _ | ⟨b₁, _ | ⟨b₂, rest⟩⟩
    · simp [startsWithChar, hlt]
    · simp [startsWithChar, hlt, hle]
    · simp [startsWithChar, hlt, hle, hthree, hno₃, verify₃_iff hthree]
  · rename_i h
    rw [hfirst, hparse] at h
    split_ifs at h with hlt htwo hthree hfour
    have hle : ¬ b₀.toNat ≤ 0xDF := by omega
    have hle₂ : ¬ b₀.toNat ≤ 0xEF := by omega
    rcases bytes with _ | ⟨b₁, _ | ⟨b₂, _ | ⟨b₃, rest⟩⟩⟩
    · simp [startsWithChar, hlt]
    · simp [startsWithChar, hlt, hle]
    · simp [startsWithChar, hlt, hle, hle₂]
    · simp [startsWithChar, hlt, hle, hle₂, verify₄_iff hfour]

theorem exists_rest {c : Char} (h : (b₀ :: bytes).toByteArray.utf8DecodeChar? 0 = some c) :
    ∃ rest, b₀ :: bytes = String.utf8EncodeChar c ++ rest := by
  obtain ⟨rest, hrest⟩ := ByteArray.exists_of_utf8DecodeChar?_eq_some h
  refine ⟨rest.data.toList, ?_⟩
  have hdata := congrArg (fun b : ByteArray => b.data.toList) hrest
  simpa using hdata

/-- The leading byte tells how long a character is. -/
theorem head_utf8EncodeChar {c : Char} (h : String.utf8EncodeChar c ++ rest = b₀ :: bytes) :
    c.utf8Size = 1 ∧ b₀.toNat < 0x80 ∨ c.utf8Size = 2 ∧ 0x80 ≤ b₀.toNat ∧ b₀.toNat ≤ 0xDF ∨
      c.utf8Size = 3 ∧ 0xE0 ≤ b₀.toNat ∧ b₀.toNat ≤ 0xEF ∨ c.utf8Size = 4 ∧ 0xF0 ≤ b₀.toNat := by
  rcases Char.utf8Size_eq c with hsize | hsize | hsize | hsize
  · rw [String.utf8EncodeChar_eq_singleton hsize] at h
    have hval := Char.utf8Size_eq_one_iff.mp hsize
    refine .inl ⟨hsize, ?_⟩
    rw [← (List.cons.inj h).1, UInt32.toNat_toUInt8]
    rw [UInt32.le_iff_toNat_le] at hval
    exact Nat.lt_of_le_of_lt (Nat.mod_le _ _) (Nat.lt_succ_of_le hval)
  · have hbyte : ∀ v : UInt8, 0x80 ≤ (v &&& 0x1F ||| 0xC0).toNat ∧
        (v &&& 0x1F ||| 0xC0).toNat ≤ 0xDF := forall_byte (by decide +kernel)
    rw [String.utf8EncodeChar_eq_cons_cons hsize] at h
    exact .inr (.inl ⟨hsize, (List.cons.inj h).1 ▸ hbyte _⟩)
  · have hbyte : ∀ v : UInt8, 0xE0 ≤ (v &&& 0x0F ||| 0xE0).toNat ∧
        (v &&& 0x0F ||| 0xE0).toNat ≤ 0xEF := forall_byte (by decide +kernel)
    rw [String.utf8EncodeChar_eq_cons_cons_cons hsize] at h
    exact .inr (.inr (.inl ⟨hsize, (List.cons.inj h).1 ▸ hbyte _⟩))
  · have hbyte : ∀ v : UInt8, 0xF0 ≤ (v &&& 0x07 ||| 0xF0).toNat :=
      forall_byte (by decide +kernel)
    rw [String.utf8EncodeChar_eq_cons_cons_cons_cons hsize] at h
    exact .inr (.inr (.inr ⟨hsize, (List.cons.inj h).1 ▸ hbyte _⟩))

theorem goesOn₁_of_goesOn₂ (h : goesOn [b₀, b₁] b₂ = true) : goesOn [b₀] b₁ = true := by
  simp only [goesOn, Bool.or_eq_true, Bool.and_eq_true] at h ⊢
  exact .inr h.1

theorem goesOn₂_of_goesOn₃ (h : goesOn [b₀, b₁, b₂] b₃ = true) : goesOn [b₀, b₁] b₂ = true := by
  have hlead := le_of_goesOn₃ h
  simp only [goesOn, Bool.and_eq_true, decide_eq_true_eq, UInt8.le_iff_toNat_le,
    UInt8.reduceToNat] at h ⊢
  exact ⟨⟨by omega, h.1.1.2⟩, h.1.2⟩

theorem stepLength_of_startsWithChar {c : Char}
    (h : (b₀ :: bytes).toByteArray.utf8DecodeChar? 0 = some c) :
    stepLength b₀ bytes = c.utf8Size := by
  obtain ⟨rest, hrest⟩ := exists_rest h
  have hsize := head_utf8EncodeChar hrest.symm
  have hstarts : startsWithChar b₀ bytes := isSome_utf8DecodeChar?_iff.mp (by rw [h]; rfl)
  rw [stepLength]
  rcases hstarts with hlt | ⟨b₁, rest, rfl, hle, hgoes⟩ | ⟨b₁, b₂, rest, rfl, hle, hgoes⟩ |
    ⟨b₁, b₂, b₃, rest, rfl, hgoes⟩
  · have hstop : goesOnFor [b₀] bytes = 0 := by
      refine goesOnFor_eq_zero fun b₁ rest _ hgoes => ?_
      have := le_of_goesOn₁ hgoes
      omega
    omega
  · have hlow := le_of_goesOn₁ hgoes
    have hstop : goesOnFor [b₀, b₁] rest = 0 := by
      refine goesOnFor_eq_zero fun b₂ rest _ hgoes₂ => ?_
      have := le_of_goesOn₂ hgoes₂
      omega
    rw [goesOnFor_cons hgoes, List.singleton_append, hstop]
    omega
  · have hlow := le_of_goesOn₂ hgoes
    have hstop : goesOnFor [b₀, b₁, b₂] rest = 0 := by
      refine goesOnFor_eq_zero fun b₃ rest _ hgoes₃ => ?_
      have := le_of_goesOn₃ hgoes₃
      omega
    rw [goesOnFor_cons (goesOn₁_of_goesOn₂ hgoes), List.singleton_append, goesOnFor_cons hgoes,
      List.cons_append, List.singleton_append, hstop]
    omega
  · have hlow := le_of_goesOn₃ hgoes
    have hgoes₂ := goesOn₂_of_goesOn₃ hgoes
    have hstop : goesOnFor [b₀, b₁, b₂, b₃] rest = 0 :=
      goesOnFor_eq_zero fun b rest _ hgoes₄ => by cases hgoes₄
    rw [goesOnFor_cons (goesOn₁_of_goesOn₂ hgoes₂), List.singleton_append, goesOnFor_cons hgoes₂,
      List.cons_append, List.singleton_append, goesOnFor_cons hgoes, List.cons_append,
      List.cons_append, List.singleton_append, hstop]
    omega

theorem stepLength_of_not_startsWithChar (h : ¬ startsWithChar b₀ bytes) :
    stepLength b₀ bytes = maximalSubpart b₀ bytes := by
  rcases bytes with _ | ⟨b₁, rest⟩
  · rfl
  have hfirst : goesOn [b₀] b₁ = (decide (0xE0 ≤ b₀ ∧ b₀ ≤ 0xF4) && isSecondByte b₀ b₁) := by
    have hno : (decide (0xC2 ≤ b₀ ∧ b₀ ≤ 0xDF) && isContinuation b₁) = false := by
      rw [Bool.eq_false_iff]
      intro htwo
      refine h (.inr (.inl ⟨b₁, rest, rfl, ?_, ?_⟩))
      · simp only [Bool.and_eq_true, decide_eq_true_eq, UInt8.le_iff_toNat_le,
          UInt8.reduceToNat] at htwo
        exact htwo.1.2
      · rw [goesOn, htwo, Bool.true_or]
    rw [goesOn, hno, Bool.false_or]
  rw [stepLength, goesOnFor, hfirst, List.singleton_append]
  rcases rest with _ | ⟨b₂, rest⟩
  · rw [maximalSubpart_pair]
    split <;> rfl
  rw [maximalSubpart_cons_cons]
  split
  · rename_i hsecond
    have hgoes₂ : goesOn [b₀, b₁] b₂ = isContinuation b₂ := by
      rw [goesOn, hsecond, Bool.true_and]
    by_cases hcont : isContinuation b₂ = true
    · have hlead : 0xF0 ≤ b₀ := by
        by_contra hlt
        rw [UInt8.not_le, UInt8.lt_iff_toNat_lt] at hlt
        exact h (.inr (.inr (.inl ⟨b₁, b₂, rest, rfl, Nat.le_of_lt_succ hlt,
          hgoes₂.trans hcont⟩)))
      have hstop : goesOnFor [b₀, b₁, b₂] rest = 0 := by
        refine goesOnFor_eq_zero fun b₃ rest' hrest hgoes₃ => ?_
        exact h (.inr (.inr (.inr ⟨b₁, b₂, b₃, rest', by rw [hrest], hgoes₃⟩)))
      rw [goesOnFor_cons (hgoes₂.trans hcont), List.cons_append, List.singleton_append, hstop,
        if_pos (by rw [hcont, decide_eq_true hlead]; rfl)]
    · rw [goesOnFor, if_neg (fun hgoes => hcont (hgoes₂.symm.trans hgoes)),
        if_neg (by simp [hcont])]
  · rfl

theorem decodeStep_snd (b₀ : UInt8) (bytes : List UInt8) :
    (decodeStep b₀ bytes).2 = stepLength b₀ bytes := by
  rw [decodeStep]
  split
  · rename_i c hsome
    exact (stepLength_of_startsWithChar hsome).symm
  · rename_i hnone
    refine (stepLength_of_not_startsWithChar fun hstarts => ?_).symm
    rw [← isSome_utf8DecodeChar?_iff, hnone] at hstarts
    cases hstarts

end AnvilRun.Utf8
