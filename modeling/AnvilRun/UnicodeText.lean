import AnvilRun.Utf8
import AnvilRun.JsString

namespace AnvilRun.JsString

/-! The two readings of a text: its scalar values and its UTF-16 code units -/

variable {c : Char} {cs ds : List Char} {s t : JsString} {u : UInt16}

theorem toNat_char_lt (c : Char) : c.toNat < 0x110000 := by
  have hvalid : c.toNat < 0xd800 ∨ 0xdfff < c.toNat ∧ c.toNat < 0x110000 := c.valid
  omega

theorem char_not_surrogate (c : Char) : c.toNat < 0xd800 ∨ 0xdfff < c.toNat := by
  have hvalid : c.toNat < 0xd800 ∨ 0xdfff < c.toNat ∧ c.toNat < 0x110000 := c.valid
  omega

theorem char_ext {d : Char} (h : c.toNat = d.toNat) : c = d :=
  Char.toNat_inj.mp h

theorem encodeChar_of_lt (h : c.toNat < 0x10000) : encodeChar c = [UInt16.ofNat c.toNat] :=
  if_pos h

theorem toNat_unit (h : c.toNat < 0x10000) : (UInt16.ofNat c.toNat).toNat = c.toNat := by
  rw [UInt16.toNat_ofNat']
  exact Nat.mod_eq_of_lt h

theorem unit_not_surrogate (h : c.toNat < 0x10000) :
    isHighSurrogate (UInt16.ofNat c.toNat) = false ∧
      isLowSurrogate (UInt16.ofNat c.toNat) = false := by
  have hvalid := char_not_surrogate c
  simp only [isHighSurrogate, isLowSurrogate, toNat_unit h, decide_eq_false_iff_not]
  omega

/-- The two units of a character that has two. -/
theorem exists_pair (h : ¬ c.toNat < 0x10000) :
    ∃ high low, encodeChar c = [high, low] ∧ isHighSurrogate high = true ∧
      isLowSurrogate low = true ∧ pairChar high low = c := by
  have hlt := toNat_char_lt c
  have hhigh : (UInt16.ofNat (0xD800 + (c.toNat - 0x10000) / 0x400)).toNat =
      0xD800 + (c.toNat - 0x10000) / 0x400 := by
    rw [UInt16.toNat_ofNat']
    omega
  have hlow : (UInt16.ofNat (0xDC00 + (c.toNat - 0x10000) % 0x400)).toNat =
      0xDC00 + (c.toNat - 0x10000) % 0x400 := by
    rw [UInt16.toNat_ofNat']
    omega
  refine ⟨_, _, if_neg h, ?_, ?_, ?_⟩
  · rw [isHighSurrogate, hhigh, decide_eq_true_eq]
    omega
  · rw [isLowSurrogate, hlow, decide_eq_true_eq]
    omega
  · apply char_ext
    rw [toNat_pairChar, hhigh, hlow]
    · omega
    · rw [isHighSurrogate, hhigh, decide_eq_true_eq]
      omega
    · rw [isLowSurrogate, hlow, decide_eq_true_eq]
      omega

theorem unitChar_unit (h : c.toNat < 0x10000) : unitChar (UInt16.ofNat c.toNat) = c := by
  obtain ⟨hhigh, hlow⟩ := unit_not_surrogate h
  apply char_ext
  rw [toNat_unitChar hhigh hlow, toNat_unit h]

theorem toChars?_unit (hhigh : isHighSurrogate u = false) (hlow : isLowSurrogate u = false)
    (s : JsString) : toChars? (u :: s) = (toChars? s).map (unitChar u :: ·) := by
  cases s with
  | nil => simp [toChars?, hhigh, hlow]
  | cons v s => simp [toChars?, hhigh, hlow]

theorem toChars?_encodeChar (c : Char) (s : JsString) :
    toChars? (encodeChar c ++ s) = (toChars? s).map (c :: ·) := by
  by_cases h : c.toNat < 0x10000
  · obtain ⟨hhigh, hlow⟩ := unit_not_surrogate h
    rw [encodeChar_of_lt h]
    show toChars? (UInt16.ofNat c.toNat :: s) = _
    rw [toChars?_unit hhigh hlow, unitChar_unit h]
  · obtain ⟨high, low, hpair, hhigh, hlow, hchar⟩ := exists_pair h
    rw [hpair]
    show toChars? (high :: low :: s) = _
    rw [toChars?, hhigh, hlow, hchar]
    rfl

theorem ofChars_cons (c : Char) (cs : List Char) : ofChars (c :: cs) = encodeChar c ++ ofChars cs :=
  List.flatMap_cons

theorem toChars?_ofChars (cs : List Char) : toChars? (ofChars cs) = some cs := by
  induction cs with
  | nil => rfl
  | cons c cs ih => rw [ofChars_cons, toChars?_encodeChar, ih, Option.map_some]

theorem ofChars_injective : Function.Injective ofChars := by
  intro cs ds h
  have hsome : some cs = some ds := by
    rw [← toChars?_ofChars, ← toChars?_ofChars, h]
  exact Option.some.inj hsome

/-- A text without lone surrogates is that of its scalar values. -/
theorem eq_ofChars_of_toChars? (h : toChars? s = some cs) : s = ofChars cs := by
  induction s using toChars?.induct generalizing cs with
  | case1 =>
      obtain rfl := Option.some.inj h
      rfl
  | case2 u hsurrogate =>
      rw [toChars?, if_pos hsurrogate] at h
      cases h
  | case3 u hsurrogate =>
      rw [toChars?, if_neg hsurrogate] at h
      obtain rfl := Option.some.inj h
      simp only [Bool.or_eq_true, not_or, Bool.not_eq_true] at hsurrogate
      rw [ofChars_cons, encodeChar_unitChar hsurrogate.1 hsurrogate.2]
      rfl
  | case4 u v s hpair ih =>
      rw [toChars?, if_pos hpair] at h
      obtain ⟨ds, hds, rfl⟩ := Option.map_eq_some_iff.mp h
      simp only [Bool.and_eq_true] at hpair
      rw [ofChars_cons, encodeChar_pairChar hpair.1 hpair.2, ← ih hds]
      rfl
  | case5 u v s hpair hsurrogate =>
      rw [toChars?, if_neg hpair, if_pos hsurrogate] at h
      cases h
  | case6 u v s hpair hsurrogate ih =>
      rw [toChars?, if_neg hpair, if_neg hsurrogate] at h
      obtain ⟨ds, hds, rfl⟩ := Option.map_eq_some_iff.mp h
      simp only [Bool.or_eq_true, not_or, Bool.not_eq_true] at hsurrogate
      rw [ofChars_cons, encodeChar_unitChar hsurrogate.1 hsurrogate.2, ← ih hds]
      rfl

/-! ASCII -/

theorem encodeChar_ascii (h : c.toNat < 128) : encodeChar c = [UInt16.ofNat c.toNat] :=
  encodeChar_of_lt (by omega)

/-- No unit of a character beyond ASCII is one of ASCII. -/
theorem le_of_mem_encodeChar (h : ¬ c.toNat < 128) (hu : u ∈ encodeChar c) : 128 ≤ u.toNat := by
  by_cases hlt : c.toNat < 0x10000
  · rw [encodeChar_of_lt hlt, List.mem_singleton] at hu
    rw [hu, toNat_unit hlt]
    omega
  · obtain ⟨high, low, hpair, hhigh, hlow, -⟩ := exists_pair hlt
    simp only [isHighSurrogate, isLowSurrogate, decide_eq_true_eq] at hhigh hlow
    rw [hpair] at hu
    rcases List.mem_pair.mp hu with rfl | rfl
    · omega
    · omega

/-- The characters of a text whose units are all in ASCII. -/
theorem toChars?_ascii (h : ∀ u ∈ s, u.toNat < 128) : toChars? s = some (s.map unitChar) := by
  induction s with
  | nil => rfl
  | cons u s ih =>
      have hu := h u List.mem_cons_self
      have hhigh : isHighSurrogate u = false := by
        rw [isHighSurrogate, decide_eq_false_iff_not]
        omega
      have hlow : isLowSurrogate u = false := by
        rw [isLowSurrogate, decide_eq_false_iff_not]
        omega
      rw [toChars?_unit hhigh hlow, ih fun v hv => h v (List.mem_cons_of_mem u hv)]
      rfl

theorem toNat_unitChar_ascii (h : u.toNat < 128) : (unitChar u).toNat = u.toNat := by
  apply toNat_unitChar
  · rw [isHighSurrogate, decide_eq_false_iff_not]
    omega
  · rw [isLowSurrogate, decide_eq_false_iff_not]
    omega

/-- The bytes of such a text are its units. -/
theorem encode_ascii (h : ∀ u ∈ s, u.toNat < 128) :
    Utf8.encode (s.map unitChar) = s.map UInt16.toUInt8 := by
  induction s with
  | nil => rfl
  | cons u s ih =>
      have hu := h u List.mem_cons_self
      have hchar : String.utf8EncodeChar (unitChar u) = [u.toUInt8] := by
        have hbyte : UInt8.ofNat u.toNat = u.toUInt8 := by
          apply UInt8.toNat_inj.mp
          rw [UInt8.toNat_ofNat', UInt16.toNat_toUInt8]
        have hval : (unitChar u).val.toNat = u.toNat := toNat_unitChar_ascii hu
        simp only [String.utf8EncodeChar, hval, hbyte]
        exact if_pos (by omega)
      rw [List.map_cons, List.map_cons, Utf8.encode, List.flatMap_cons, hchar]
      exact congrArg (u.toUInt8 :: ·) (ih fun v hv => h v (List.mem_cons_of_mem u hv))

/-! The number of bytes -/

theorem utf8Length_cons (hhigh : isHighSurrogate u = false) (s : JsString) :
    utf8Length (u :: s) =
      (if u.toNat < 0x80 then 1 else if u.toNat < 0x800 then 2 else 3) + utf8Length s := by
  cases s with
  | nil => rw [utf8Length, utf8Length, Nat.add_zero]
  | cons v s => simp [utf8Length, hhigh]

theorem utf8Length_encodeChar (c : Char) (s : JsString) :
    utf8Length (encodeChar c ++ s) = c.utf8Size + utf8Length s := by
  by_cases h : c.toNat < 0x10000
  · rw [encodeChar_of_lt h]
    show utf8Length (UInt16.ofNat c.toNat :: s) = _
    rw [utf8Length_cons (unit_not_surrogate h).1, toNat_unit h, Char.utf8Size]
    simp only [UInt32.le_iff_toNat_le]
    show _ = (if c.toNat ≤ 127 then 1 else if c.toNat ≤ 2047 then 2 else
      if c.toNat ≤ 65535 then 3 else 4) + utf8Length s
    grind
  · obtain ⟨high, low, hpair, hhigh, hlow, -⟩ := exists_pair h
    rw [hpair]
    show utf8Length (high :: low :: s) = _
    have hsize : c.utf8Size = 4 := by
      rw [Char.utf8Size]
      simp only [UInt32.le_iff_toNat_le]
      show (if c.toNat ≤ 127 then 1 else if c.toNat ≤ 2047 then 2 else
        if c.toNat ≤ 65535 then 3 else 4) = 4
      grind
    rw [utf8Length, hhigh, hlow, hsize]
    rfl

theorem utf8Length_ofChars (cs : List Char) :
    utf8Length (ofChars cs) = (Utf8.encode cs).length := by
  induction cs with
  | nil => rfl
  | cons c cs ih =>
      have hbytes : Utf8.encode (c :: cs) = String.utf8EncodeChar c ++ Utf8.encode cs :=
        List.flatMap_cons
      rw [ofChars_cons, utf8Length_encodeChar, ih, hbytes, List.length_append,
        String.length_utf8EncodeChar]

end AnvilRun.JsString
