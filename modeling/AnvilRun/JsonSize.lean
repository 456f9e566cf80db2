import AnvilRun.JsonRoundTrip
import AnvilRun.TextUnits

namespace AnvilRun.Json

open JsString

/-- How many bytes of JSON text a code unit takes that is not part of a surrogate pair. -/
def escapedUnitLength (u : UInt16) : Nat :=
  if u = 34 || u = 92 || u = 8 || u = 12 || u = 10 || u = 13 || u = 9 then 2
  else if u < 32 || isHighSurrogate u || isLowSurrogate u then 6
  else if u < 0x80 then 1
  else if u < 0x800 then 2
  else 3

/-- How many bytes of JSON text a string takes without its quotes. -/
def escapedLength : JsString → Nat
  | [] => 0
  | [u] => escapedUnitLength u
  | u :: v :: s =>
      if isHighSurrogate u && isLowSurrogate v then 4 + escapedLength s
      else escapedUnitLength u + escapedLength (v :: s)

theorem length_encode_append (s t : List Char) :
    (Utf8.encode (s ++ t)).length = (Utf8.encode s).length + (Utf8.encode t).length := by
  rw [Utf8.encode_append, List.length_append]

theorem length_encode_singleton (c : Char) : (Utf8.encode [c]).length = c.utf8Size := by
  rw [Utf8.encode, List.flatMap_singleton, String.length_utf8EncodeChar]

theorem length_encode_cons (c : Char) (s : List Char) :
    (Utf8.encode (c :: s)).length = c.utf8Size + (Utf8.encode s).length := by
  rw [← List.singleton_append, length_encode_append, length_encode_singleton]

theorem utf8Size_ascii {c : Char} (h : c.toNat < 128) : c.utf8Size = 1 := by
  rw [← length_encode_singleton, encode_chars_ascii (by simpa using h), List.length_map]
  rfl

theorem length_encode_ascii {s : List Char} (h : ∀ c ∈ s, c.toNat < 128) :
    (Utf8.encode s).length = s.length := by
  rw [encode_chars_ascii h, List.length_map]

theorem toNat_hexDigit_lt {n : Nat} (h : n < 16) : (hexDigit n).toNat < 128 := by
  have hall : ∀ n : Fin 16, (hexDigit n).toNat < 128 := by decide
  exact hall ⟨n, h⟩

theorem length_encode_unicodeEscape (u : UInt16) :
    (Utf8.encode (unicodeEscape u)).length = 6 := by
  have hlt := u.toNat_lt
  rw [length_encode_ascii]
  · rfl
  · intro c hc
    simp only [unicodeEscape, List.mem_cons, List.not_mem_nil, or_false] at hc
    rcases hc with rfl | rfl | rfl | rfl | rfl | rfl
    · decide
    · decide
    · exact toNat_hexDigit_lt (by omega)
    · exact toNat_hexDigit_lt (by omega)
    · exact toNat_hexDigit_lt (by omega)
    · exact toNat_hexDigit_lt (by omega)

theorem utf8Size_unitChar {u : UInt16} (hhigh : isHighSurrogate u = false)
    (hlow : isLowSurrogate u = false) :
    (unitChar u).utf8Size = if u < 0x80 then 1 else if u < 0x800 then 2 else 3 := by
  have hone := utf8Length_encodeChar (unitChar u) []
  rw [encodeChar_unitChar hhigh hlow] at hone
  have hsize : (unitChar u).utf8Size = utf8Length [u] := hone.symm
  rw [hsize, utf8Length]
  simp only [UInt16.lt_iff_toNat_lt, UInt16.reduceToNat]

theorem utf8Size_pairChar {u v : UInt16} (hu : isHighSurrogate u = true)
    (hv : isLowSurrogate v = true) : (pairChar u v).utf8Size = 4 := by
  have hpair := utf8Length_encodeChar (pairChar u v) []
  rw [encodeChar_pairChar hu hv] at hpair
  simpa [utf8Length, hu, hv] using hpair.symm

theorem length_encode_quoteUnit (u : UInt16) :
    (Utf8.encode (quoteUnit u)).length = escapedUnitLength u := by
  rw [escapedUnitLength]
  split
  · rename_i hshort
    simp only [Bool.or_eq_true, decide_eq_true_eq, or_assoc] at hshort
    rcases hshort with rfl | rfl | rfl | rfl | rfl | rfl | rfl
    all_goals rfl
  · rename_i hshort
    simp only [Bool.or_eq_true, decide_eq_true_eq, not_or] at hshort
    obtain ⟨⟨⟨⟨⟨⟨h34, h92⟩, h8⟩, h12⟩, h10⟩, h13⟩, h9⟩ := hshort
    rw [quoteUnit, if_neg h34, if_neg h92, if_neg h8, if_neg h12, if_neg h10, if_neg h13,
      if_neg h9]
    split
    · exact length_encode_unicodeEscape u
    · rename_i hplain
      simp only [Bool.or_eq_true, not_or, Bool.not_eq_true] at hplain
      rw [length_encode_singleton]
      exact utf8Size_unitChar hplain.1.2 hplain.2

theorem length_encode_quoteUnits (s : JsString) :
    (Utf8.encode (quoteUnits s)).length = escapedLength s := by
  induction s using quoteUnits.induct with
  | case1 => rfl
  | case2 u => rw [quoteUnits, escapedLength, length_encode_quoteUnit]
  | case3 u v s hpair ih =>
      rw [Bool.and_eq_true] at hpair
      rw [quoteUnits, escapedLength, hpair.1, hpair.2, Bool.and_self, if_pos rfl, if_pos rfl,
        length_encode_cons, utf8Size_pairChar hpair.1 hpair.2, ih]
  | case4 u v s hpair ih =>
      rw [quoteUnits, escapedLength, if_neg hpair, if_neg hpair, length_encode_append,
        length_encode_quoteUnit, ih]

theorem length_encode_quote (s : JsString) :
    (Utf8.encode (quote s)).length = escapedLength s + 2 := by
  rw [quote, List.cons_append, length_encode_cons, length_encode_append,
    length_encode_quoteUnits, length_encode_singleton]
  show 1 + (escapedLength s + 1) = _
  omega

theorem length_encode_natText (n : Nat) :
    (Utf8.encode (natText n)).length = (natText n).length := by
  refine length_encode_ascii fun c hc => ?_
  have hdigit := isDigit_of_mem_natText n c hc
  rw [Char.isDigit, Bool.and_eq_true, decide_eq_true_eq, decide_eq_true_eq] at hdigit
  have hle : c.toNat ≤ 57 := hdigit.2
  omega

theorem escapedLength_cons {u : UInt16} (h : isHighSurrogate u = false) (s : JsString) :
    escapedLength (u :: s) = escapedUnitLength u + escapedLength s := by
  cases s with
  | nil => rfl
  | cons v s =>
      rw [escapedLength, h, Bool.false_and, if_neg Bool.false_ne_true]

theorem escapedLength_replicate {u : UInt16} (h : isHighSurrogate u = false) (n : Nat) :
    escapedLength (List.replicate n u) = n * escapedUnitLength u := by
  induction n with
  | zero => rw [Nat.zero_mul]; rfl
  | succ n ih =>
      rw [List.replicate_succ, escapedLength_cons h, ih, Nat.succ_mul, Nat.add_comm]

end AnvilRun.Json
