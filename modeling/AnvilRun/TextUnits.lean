import AnvilRun.UnicodeText
import AnvilRun.UnixPath

namespace AnvilRun.JsString

open AnvilRun.UnixPath

/-! The same questions asked of the characters, the code units and the bytes of a text -/

variable {c a : Char} {cs : List Char} {u : UInt16} {b : UInt8}

theorem any_ofChars {p : UInt16 → Bool} {q : Char → Bool}
    (h : ∀ c ∈ cs, (encodeChar c).any p = q c) : (ofChars cs).any p = cs.any q := by
  induction cs with
  | nil => rfl
  | cons c cs ih =>
      rw [ofChars_cons, List.any_append, List.any_cons, h c List.mem_cons_self,
        ih fun d hd => h d (List.mem_cons_of_mem c hd)]

theorem mem_encodeChar_ascii (ha : a.toNat < 128) :
    UInt16.ofNat a.toNat ∈ encodeChar c ↔ c = a := by
  by_cases hc : c.toNat < 128
  · rw [encodeChar_ascii hc, List.mem_singleton, ← UInt16.toNat_inj, toNat_unit (by omega),
      toNat_unit (by omega)]
    exact ⟨fun h => char_ext h.symm, fun h => h ▸ rfl⟩
  · refine iff_of_false (fun hmem => ?_) ?_
    · have hle := le_of_mem_encodeChar hc hmem
      rw [toNat_unit (by omega)] at hle
      omega
    · rintro rfl
      exact hc ha

theorem mem_ofChars_ascii (ha : a.toNat < 128) :
    UInt16.ofNat a.toNat ∈ ofChars cs ↔ a ∈ cs := by
  rw [ofChars, List.mem_flatMap]
  constructor
  · rintro ⟨c, hc, hmem⟩
    exact (mem_encodeChar_ascii ha).mp hmem ▸ hc
  · intro hmem
    exact ⟨a, hmem, (mem_encodeChar_ascii ha).mpr rfl⟩

theorem exists_char_of_mem (hu : u ∈ ofChars cs) (hlt : u.toNat < 128) :
    ∃ c ∈ cs, c.toNat = u.toNat := by
  obtain ⟨c, hc, hmem⟩ := List.mem_flatMap.mp hu
  refine ⟨c, hc, ?_⟩
  by_cases hascii : c.toNat < 128
  · rw [encodeChar_ascii hascii, List.mem_singleton] at hmem
    rw [hmem, toNat_unit (by omega)]
  · have hle := le_of_mem_encodeChar hascii hmem
    omega

theorem splitOn_ofChars (ha : a.toNat < 128) :
    (ofChars cs).splitOn (UInt16.ofNat a.toNat) = (cs.splitOn a).map ofChars :=
  splitOn_flatMap (encodeChar_ascii ha) (fun _ hne hmem => hne ((mem_encodeChar_ascii ha).mp hmem))
    cs

theorem ofChars_eq_nil : ofChars cs = [] ↔ cs = [] :=
  ⟨fun h => ofChars_injective (h : ofChars cs = ofChars []), fun h => h ▸ rfl⟩

/-! Bytes -/

theorem utf8EncodeChar_ascii (h : c.toNat < 128) :
    String.utf8EncodeChar c = [UInt8.ofNat c.toNat] := by
  have hval : c.val.toNat = c.toNat := rfl
  simp only [String.utf8EncodeChar, hval]
  exact if_pos (by omega)

theorem le_of_mem_utf8EncodeChar (h : ¬ c.toNat < 128) (hb : b ∈ String.utf8EncodeChar c) :
    128 ≤ b.toNat := by
  have hval : c.val.toNat = c.toNat := rfl
  have hbyte : ∀ {n : Nat}, b = UInt8.ofNat n → 128 ≤ n → n < 256 → 128 ≤ b.toNat := by
    rintro n rfl hle hlt
    rw [UInt8.toNat_ofNat']
    omega
  simp only [String.utf8EncodeChar, hval] at hb
  rw [if_neg (by omega)] at hb
  split at hb
  · simp only [List.mem_cons, List.not_mem_nil, or_false] at hb
    rcases hb with hb | hb
    · exact hbyte hb (by omega) (by omega)
    · exact hbyte hb (by omega) (by omega)
  · split at hb
    · simp only [List.mem_cons, List.not_mem_nil, or_false] at hb
      rcases hb with hb | hb | hb
      · exact hbyte hb (by omega) (by omega)
      · exact hbyte hb (by omega) (by omega)
      · exact hbyte hb (by omega) (by omega)
    · simp only [List.mem_cons, List.not_mem_nil, or_false] at hb
      rcases hb with hb | hb | hb | hb
      · exact hbyte hb (by omega) (by omega)
      · exact hbyte hb (by omega) (by omega)
      · exact hbyte hb (by omega) (by omega)
      · exact hbyte hb (by omega) (by omega)

theorem mem_utf8EncodeChar_ascii (ha : a.toNat < 128) :
    UInt8.ofNat a.toNat ∈ String.utf8EncodeChar c ↔ c = a := by
  have hbyte : ∀ {d : Char}, d.toNat < 128 → (UInt8.ofNat d.toNat).toNat = d.toNat := by
    intro d hd
    rw [UInt8.toNat_ofNat']
    omega
  by_cases hc : c.toNat < 128
  · rw [utf8EncodeChar_ascii hc, List.mem_singleton, ← UInt8.toNat_inj, hbyte ha, hbyte hc]
    exact ⟨fun h => char_ext h.symm, fun h => h ▸ rfl⟩
  · refine iff_of_false (fun hmem => ?_) ?_
    · have hle := le_of_mem_utf8EncodeChar hc hmem
      rw [hbyte ha] at hle
      omega
    · rintro rfl
      exact hc ha

theorem splitOn_encode (ha : a.toNat < 128) :
    (Utf8.encode cs).splitOn (UInt8.ofNat a.toNat) = (cs.splitOn a).map Utf8.encode :=
  splitOn_flatMap (utf8EncodeChar_ascii ha)
    (fun _ hne hmem => hne ((mem_utf8EncodeChar_ascii ha).mp hmem)) cs

/-! Texts in ASCII -/

theorem ascii_of_encode (h : ∀ b ∈ Utf8.encode cs, b.toNat < 128) : ∀ c ∈ cs, c.toNat < 128 := by
  intro c hc
  by_contra hnot
  have hpos : 0 < (String.utf8EncodeChar c).length := by
    rw [String.length_utf8EncodeChar]
    exact c.utf8Size_pos
  obtain ⟨b, hb⟩ := List.exists_mem_of_length_pos hpos
  have hle := le_of_mem_utf8EncodeChar hnot hb
  have hlt := h b (List.mem_flatMap.mpr ⟨c, hc, hb⟩)
  omega

theorem ofChars_ascii (h : ∀ c ∈ cs, c.toNat < 128) :
    ofChars cs = cs.map (fun c => UInt16.ofNat c.toNat) := by
  induction cs with
  | nil => rfl
  | cons c cs ih =>
      rw [ofChars_cons, encodeChar_ascii (h c List.mem_cons_self),
        ih fun d hd => h d (List.mem_cons_of_mem c hd)]
      rfl

theorem encode_chars_ascii (h : ∀ c ∈ cs, c.toNat < 128) :
    Utf8.encode cs = cs.map (fun c => UInt8.ofNat c.toNat) := by
  induction cs with
  | nil => rfl
  | cons c cs ih =>
      rw [Utf8.encode, List.flatMap_cons, utf8EncodeChar_ascii (h c List.mem_cons_self)]
      exact congrArg _ (ih fun d hd => h d (List.mem_cons_of_mem c hd))

/-! Lengths -/

theorem codePoints_cons (hhigh : isHighSurrogate u = false) (s : JsString) :
    codePoints (u :: s) = codePoints s + 1 := by
  cases s with
  | nil => rfl
  | cons v s => simp [codePoints, hhigh]

theorem codePoints_ofChars (cs : List Char) : codePoints (ofChars cs) = cs.length := by
  induction cs with
  | nil => rfl
  | cons c cs ih =>
      rw [ofChars_cons, List.length_cons, ← ih]
      by_cases h : c.toNat < 0x10000
      · rw [encodeChar_of_lt h]
        exact codePoints_cons (unit_not_surrogate h).1 _
      · obtain ⟨high, low, hpair, hhigh, hlow, -⟩ := exists_pair h
        rw [hpair]
        show codePoints (high :: low :: ofChars cs) = _
        rw [codePoints, hhigh, hlow]
        rfl

theorem length_ofChars_le (cs : List Char) : (ofChars cs).length ≤ 2 * cs.length := by
  induction cs with
  | nil => exact Nat.le_refl _
  | cons c cs ih =>
      have hchar : (encodeChar c).length ≤ 2 := by
        rw [encodeChar]
        split
        · exact Nat.le_succ 1
        · exact Nat.le_refl 2
      rw [ofChars_cons, List.length_append, List.length_cons]
      omega

end AnvilRun.JsString
