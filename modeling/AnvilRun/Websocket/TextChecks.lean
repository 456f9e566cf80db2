import AnvilRun.UnicodeText
import AnvilRun.Websocket.AgentContracts
import AnvilRun.Websocket.Validate
import Mathlib.Tactic.IntervalCases

namespace AnvilRun.Websocket

open AnvilRun.AgentContracts
open AnvilRun.Fallible
open AnvilRun.ValidationPrimitives
open JsString

variable {s : JsString} {cs : List Char} {u : UInt16}

/-! Units and bytes -/

theorem toNat_byte (h : u.toNat < 128) : u.toUInt8.toNat = u.toNat := by
  rw [UInt16.toNat_toUInt8]
  omega

/-- The bytes of a text in ASCII. -/
theorem encode_of_ascii (h : ∀ u ∈ s, u.toNat < 128) (hcs : s = ofChars cs) :
    Utf8.encode cs = s.map UInt16.toUInt8 := by
  have hchars : some cs = some (s.map unitChar) := by
    rw [← toChars?_ascii h, hcs, toChars?_ofChars]
  rw [Option.some.inj hchars, encode_ascii h]

theorem digit_bounds (h : isDigitUnit u = true) : 48 ≤ u.toNat ∧ u.toNat ≤ 57 := by
  simpa only [isDigitUnit, decide_eq_true_eq, UInt16.le_iff_toNat_le, UInt16.reduceToNat] using h

theorem letter_bounds (h : isLetterUnit u = true) :
    65 ≤ u.toNat ∧ u.toNat ≤ 90 ∨ 97 ≤ u.toNat ∧ u.toNat ≤ 122 := by
  simpa only [isLetterUnit, Bool.or_eq_true, decide_eq_true_eq, UInt16.le_iff_toNat_le,
    UInt16.reduceToNat] using h

/-! Identifiers -/

theorem idByte_of_protocolUnit (h : isProtocolUnit u = true) :
    u.toNat < 128 ∧ isIdByte u.toUInt8 = true := by
  simp only [isProtocolUnit, Bool.or_eq_true, beq_iff_eq] at h
  have hcases : (65 ≤ u.toNat ∧ u.toNat ≤ 90 ∨ 97 ≤ u.toNat ∧ u.toNat ≤ 122) ∨
      (48 ≤ u.toNat ∧ u.toNat ≤ 57) ∨ u.toNat = 95 ∨ u.toNat = 45 := by
    rcases h with ((h | h) | rfl) | rfl
    · exact Or.inl (letter_bounds h)
    · exact Or.inr (Or.inl (digit_bounds h))
    · exact Or.inr (Or.inr (Or.inl rfl))
    · exact Or.inr (Or.inr (Or.inr rfl))
  have hlt : u.toNat < 128 := by omega
  refine ⟨hlt, ?_⟩
  simp only [isIdByte, isAsciiAlphanumeric, Bool.or_eq_true, decide_eq_true_eq, beq_iff_eq,
    UInt8.le_iff_toNat_le, ← UInt8.toNat_inj, toNat_byte hlt, UInt8.reduceToNat]
  omega

theorem bytes_of_protocolUnits (h : s.all isProtocolUnit = true) (hcs : s = ofChars cs) :
    Utf8.encode cs = s.map UInt16.toUInt8 ∧ (s.map UInt16.toUInt8).all isIdByte = true := by
  have hunits := List.all_eq_true.mp h
  refine ⟨encode_of_ascii (fun u hu => (idByte_of_protocolUnit (hunits u hu)).1) hcs, ?_⟩
  apply List.all_eq_true.mpr
  intro b hb
  obtain ⟨u, hu, rfl⟩ := List.mem_map.mp hb
  exact (idByte_of_protocolUnit (hunits u hu)).2

theorem validId_of_matches (h : matchesProtocolId (ofChars cs) = true) (field : String) :
    validId cs field = .ok () := by
  simp only [matchesProtocolId, Bool.and_eq_true, decide_eq_true_eq] at h
  obtain ⟨⟨hpos, hle⟩, hall⟩ := h
  obtain ⟨hbytes, hid⟩ := bytes_of_protocolUnits hall rfl
  rw [validId, hbytes]
  apply ensure_eq_ok.mpr
  refine ⟨?_, ?_, hid⟩
  · intro hnil
    rw [List.map_eq_nil_iff.mp hnil] at hpos
    cases hpos
  · rw [List.length_map]
    exact hle

theorem validLease_of_matches (h : matchesLeaseToken (ofChars cs) = true) :
    validLease cs = .ok () := by
  simp only [matchesLeaseToken, Bool.and_eq_true, decide_eq_true_eq] at h
  obtain ⟨⟨hge, hle⟩, hall⟩ := h
  obtain ⟨hbytes, hid⟩ := bytes_of_protocolUnits hall rfl
  rw [validLease, hbytes]
  apply ensure_eq_ok.mpr
  rw [List.length_map]
  exact ⟨hge, hle, hid⟩

/-! Timestamps -/

theorem digit_byte (h : isDigitUnit u = true) :
    isAsciiDigit u.toUInt8 = true ∧ decimalDigit u.toUInt8 = u.toNat - 48 := by
  have hbounds := digit_bounds h
  have hlt : u.toNat < 128 := by omega
  have hdigit : isAsciiDigit u.toUInt8 = true := by
    simp only [isAsciiDigit, decide_eq_true_eq, UInt8.le_iff_toNat_le, toNat_byte hlt,
      UInt8.reduceToNat]
    exact hbounds
  refine ⟨hdigit, ?_⟩
  rw [decimalDigit, if_pos hdigit, toNat_byte hlt]

theorem daysInMonth_eq {year month : Nat} (hlow : 1 ≤ month) (hhigh : month ≤ 12) :
    AgentContracts.daysInMonth year month = ValidationPrimitives.daysInMonth year month := by
  unfold AgentContracts.daysInMonth ValidationPrimitives.daysInMonth isLeapYear
  interval_cases month
  all_goals rfl

theorem daysInMonth_pos (year month : Nat) : 0 < ValidationPrimitives.daysInMonth year month := by
  unfold ValidationPrimitives.daysInMonth
  split
  · split
    · exact Nat.succ_pos _
    · exact Nat.succ_pos _
  · split
    · exact Nat.succ_pos _
    · exact Nat.succ_pos _

theorem ascii_of_matchesFraction (h : matchesFraction s = true) : ∀ u ∈ s, u.toNat < 128 := by
  cases s with
  | nil => cases h
  | cons v rest =>
      simp only [matchesFraction, Bool.or_eq_true, Bool.and_eq_true, beq_iff_eq] at h
      rcases h with ⟨rfl, hempty⟩ | ⟨⟨⟨⟨rfl, hlast⟩, -⟩, -⟩, hdigits⟩
      · intro u hu
        rw [List.isEmpty_iff.mp hempty] at hu
        obtain rfl := List.mem_singleton.mp hu
        decide
      · intro u hu
        rcases List.mem_cons.mp hu with rfl | hu
        · decide
        · have hrest : rest.dropLast ++ [90] = rest :=
            List.dropLast_append_getLast? 90 (by rw [hlast]; rfl)
          rw [← hrest] at hu
          rcases List.mem_append.mp hu with hu | hu
          · have hbounds := digit_bounds (List.all_eq_true.mp hdigits u hu)
            omega
          · obtain rfl := List.mem_singleton.mp hu
            decide

theorem byteAt_append (l m : List UInt8) (i : Nat) : byteAt (l ++ m) (l.length + i) = byteAt m i := by
  rw [byteAt, byteAt, List.getD_eq_getElem?_getD, List.getD_eq_getElem?_getD,
    List.getElem?_append_right (Nat.le_add_right _ _), Nat.add_sub_cancel_left]

/-- The end of a timestamp as bytes, behind nineteen others. -/
theorem validFraction_of_matches {bytes : List UInt8} (hlength : bytes.length = 19)
    (h : matchesFraction s = true) :
    20 ≤ (bytes ++ s.map UInt16.toUInt8).length ∧
      validFraction (bytes ++ s.map UInt16.toUInt8) = true := by
  have hat : ∀ i, byteAt (bytes ++ s.map UInt16.toUInt8) (19 + i) =
      byteAt (s.map UInt16.toUInt8) i := by
    intro i
    rw [← hlength, byteAt_append]
  cases s with
  | nil => cases h
  | cons v rest =>
      have hlen : (bytes ++ (v :: rest).map UInt16.toUInt8).length = 20 + rest.length := by
        rw [List.length_append, List.length_map, List.length_cons, hlength]
        omega
      refine ⟨by omega, ?_⟩
      have hfirst : byteAt (bytes ++ (v :: rest).map UInt16.toUInt8) 19 = v.toUInt8 := hat 0
      simp only [matchesFraction, Bool.or_eq_true, Bool.and_eq_true, beq_iff_eq,
        decide_eq_true_eq] at h
      rcases h with ⟨rfl, hempty⟩ | ⟨⟨⟨⟨rfl, hlast⟩, hpos⟩, hle⟩, hdigits⟩
      · rw [List.isEmpty_iff.mp hempty] at hlen hfirst ⊢
        rw [validFraction, if_pos (by rw [hlen]; rfl), hfirst]
        rfl
      · have hrest : rest.dropLast ++ [90] = rest :=
          List.dropLast_append_getLast? 90 (by rw [hlast]; rfl)
        have hcount : rest.length = rest.dropLast.length + 1 := by
          rw [← hrest, List.length_append, List.dropLast_concat]
          rfl
        have hz : byteAt (bytes ++ (46 :: rest).map UInt16.toUInt8) (20 + rest.length - 1) = 90 := by
          have hindex : 20 + rest.length - 1 = 19 + (rest.dropLast.length + 1) := by omega
          have hmap : (46 :: rest).map UInt16.toUInt8 =
              (46 :: rest.dropLast).map UInt16.toUInt8 ++ [(90 : UInt16).toUInt8] := by
            rw [← List.map_singleton, ← List.map_append, List.cons_append, hrest]
          have hend : rest.dropLast.length + 1 =
              ((46 :: rest.dropLast).map UInt16.toUInt8).length + 0 := by
            rw [List.length_map, List.length_cons]
          rw [hindex, hat, hmap, hend, byteAt_append]
          rfl
        have htake : ((bytes ++ (46 :: rest).map UInt16.toUInt8).drop 20).take
            (20 + rest.length - 21) = rest.dropLast.map UInt16.toUInt8 := by
          have hsplit : bytes ++ (46 :: rest).map UInt16.toUInt8 =
              (bytes ++ [(46 : UInt16).toUInt8]) ++ rest.map UInt16.toUInt8 := by
            rw [List.map_cons, List.append_assoc]
            rfl
          have hnum : 20 + rest.length - 21 = (rest.dropLast.map UInt16.toUInt8).length := by
            rw [List.length_map]
            omega
          rw [hsplit, List.drop_left' (by rw [List.length_append, hlength]; rfl), hnum]
          have hmap : rest.map UInt16.toUInt8 =
              rest.dropLast.map UInt16.toUInt8 ++ [(90 : UInt16).toUInt8] := by
            rw [← List.map_singleton, ← List.map_append, hrest]
          rw [hmap, List.take_left]
        rw [validFraction, hlen, if_neg (by omega), hfirst, hz]
        dsimp only
        rw [htake]
        simp only [Bool.and_eq_true, decide_eq_true_eq, beq_iff_eq]
        refine ⟨⟨⟨rfl, trivial⟩, by omega⟩, ?_⟩
        apply List.all_eq_true.mpr
        intro b hb
        obtain ⟨u, hu, rfl⟩ := List.mem_map.mp hb
        exact (digit_byte (List.all_eq_true.mp hdigits u hu)).1

theorem validIso8601Utc_of_matches (h : isIso8601UtcString (ofChars cs) = true) :
    validIso8601Utc cs = true := by
  rw [isIso8601UtcString] at h
  split at h
  swap
  · cases h
  rename_i year month day hour minute second hgroups
  obtain ⟨hdate, htime⟩ := Bool.and_eq_true_iff.mp h
  unfold isoGroups at hgroups
  split at hgroups
  swap
  · cases hgroups
  rename_i y1 y2 y3 y4 s1 m1 m2 s2 d1 d2 s3 h1 h2 s4 n1 n2 s5 e1 e2 rest htext
  split at hgroups
  swap
  · cases hgroups
  rename_i hshape
  simp only [Bool.and_eq_true, beq_iff_eq] at hshape
  obtain ⟨⟨hdigits, ⟨⟨⟨rfl, rfl⟩, rfl⟩, rfl⟩, rfl⟩, hfraction⟩ := hshape
  simp only [Option.some.injEq, Prod.mk.injEq, digitsNumber, List.foldl_cons, List.foldl_nil,
    Nat.zero_mul, Nat.zero_add] at hgroups
  obtain ⟨rfl, rfl, rfl, rfl, rfl, rfl⟩ := hgroups
  simp only [isValidCalendarDate, decide_eq_true_eq] at hdate htime
  obtain ⟨hlow, hhigh, hday, hdays⟩ := hdate
  have hdigit := List.all_eq_true.mp hdigits
  simp only [List.mem_cons, forall_eq_or_imp, List.not_mem_nil] at hdigit
  obtain ⟨hy1, hy2, hy3, hy4, hm1, hm2, hd1, hd2, hh1, hh2, hn1, hn2, he1, he2, -⟩ := hdigit
  have hbytes : Utf8.encode cs = [y1, y2, y3, y4, 45, m1, m2, 45, d1, d2, 84, h1, h2, 58, n1, n2,
      58, e1, e2].map UInt16.toUInt8 ++ rest.map UInt16.toUInt8 := by
    rw [← List.map_append]
    apply encode_of_ascii _ htext.symm
    intro u hu
    have hsplit : u ∈ [y1, y2, y3, y4, 45, m1, m2, 45, d1, d2, 84, h1, h2, 58, n1, n2, 58, e1,
        e2] ++ rest := hu
    rcases List.mem_append.mp hsplit with hu | hu
    · have hdigitOr : isDigitUnit u = true ∨ u = 45 ∨ u = 84 ∨ u = 58 := by
        simp only [List.mem_cons, List.not_mem_nil, or_false] at hu
        grind
      rcases hdigitOr with hdigit | rfl | rfl | rfl
      · have hbounds := digit_bounds hdigit
        omega
      all_goals decide
    · exact ascii_of_matchesFraction hfraction u hu
  obtain ⟨hlength, hend⟩ := @validFraction_of_matches rest
    ([y1, y2, y3, y4, 45, m1, m2, 45, d1, d2, 84, h1, h2, 58, n1, n2, 58, e1, e2].map
      UInt16.toUInt8) rfl hfraction
  have hmonth := @daysInMonth_eq ((((y1.toNat - 48) * 10 + (y2.toNat - 48)) * 10 +
    (y3.toNat - 48)) * 10 + (y4.toNat - 48)) _ hlow hhigh
  have hpos := daysInMonth_pos ((((y1.toNat - 48) * 10 + (y2.toNat - 48)) * 10 +
    (y3.toNat - 48)) * 10 + (y4.toNat - 48)) ((m1.toNat - 48) * 10 + (m2.toNat - 48))
  have hyear : (y1.toNat - 48) * 1000 + (y2.toNat - 48) * 100 + (y3.toNat - 48) * 10 +
      (y4.toNat - 48) = (((y1.toNat - 48) * 10 + (y2.toNat - 48)) * 10 + (y3.toNat - 48)) * 10 +
        (y4.toNat - 48) := by
    omega
  rw [validIso8601Utc, hbytes]
  simp only [Bool.and_eq_true, decide_eq_true_eq]
  refine ⟨⟨⟨⟨hlength, ⟨⟨⟨rfl, rfl⟩, rfl⟩, rfl⟩, rfl⟩, hend⟩, ?_⟩, ?_⟩
  · simp only [List.all_cons, List.all_nil, Bool.and_eq_true, and_true]
    exact ⟨(digit_byte hy1).1, (digit_byte hy2).1, (digit_byte hy3).1, (digit_byte hy4).1,
      (digit_byte hm1).1, (digit_byte hm2).1, (digit_byte hd1).1, (digit_byte hd2).1,
      (digit_byte hh1).1, (digit_byte hh2).1, (digit_byte hn1).1, (digit_byte hn2).1,
      (digit_byte he1).1, (digit_byte he2).1⟩
  · show 0 < AgentContracts.daysInMonth (decimalDigit y1.toUInt8 * 1000 +
      decimalDigit y2.toUInt8 * 100 + decimalDigit y3.toUInt8 * 10 + decimalDigit y4.toUInt8)
      (decimalDigit m1.toUInt8 * 10 + decimalDigit m2.toUInt8) ∧
      1 ≤ decimalDigit d1.toUInt8 * 10 + decimalDigit d2.toUInt8 ∧
      decimalDigit d1.toUInt8 * 10 + decimalDigit d2.toUInt8 ≤
        AgentContracts.daysInMonth (decimalDigit y1.toUInt8 * 1000 +
          decimalDigit y2.toUInt8 * 100 + decimalDigit y3.toUInt8 * 10 + decimalDigit y4.toUInt8)
          (decimalDigit m1.toUInt8 * 10 + decimalDigit m2.toUInt8) ∧
      decimalDigit h1.toUInt8 * 10 + decimalDigit h2.toUInt8 ≤ 23 ∧
      decimalDigit n1.toUInt8 * 10 + decimalDigit n2.toUInt8 ≤ 59 ∧
      decimalDigit e1.toUInt8 * 10 + decimalDigit e2.toUInt8 ≤ 59
    rw [(digit_byte hy1).2, (digit_byte hy2).2, (digit_byte hy3).2, (digit_byte hy4).2,
      (digit_byte hm1).2, (digit_byte hm2).2, (digit_byte hd1).2, (digit_byte hd2).2,
      (digit_byte hh1).2, (digit_byte hh2).2, (digit_byte hn1).2, (digit_byte hn2).2,
      (digit_byte he1).2, (digit_byte he2).2, hyear, hmonth]
    exact ⟨hpos, hday, hdays, htime⟩

theorem validTimestamp_of_matches (h : isIso8601UtcString (ofChars cs) = true) (field : String) :
    validTimestamp cs field = .ok () :=
  ensure_eq_ok.mpr (validIso8601Utc_of_matches h)

/-! Identifiers of inputs -/

/-- What `matchesUuid` asks of the unit with an index. -/
def UuidUnit (u : UInt16) (index : Nat) : Prop :=
  if isUuidDash index then u.toNat = 45
  else if index = 14 then 49 ≤ u.toNat ∧ u.toNat ≤ 53
  else if index = 19 then
    56 ≤ u.toNat ∧ u.toNat ≤ 57 ∨ 97 ≤ u.toNat ∧ u.toNat ≤ 98 ∨ 65 ≤ u.toNat ∧ u.toNat ≤ 66
  else 48 ≤ u.toNat ∧ u.toNat ≤ 57 ∨ 65 ≤ u.toNat ∧ u.toNat ≤ 70 ∨ 97 ≤ u.toNat ∧ u.toNat ≤ 102

theorem uuidUnit_of_matches (h : matchesUuid s = true) :
    s.length = 36 ∧ ∀ i (hi : i < s.length), UuidUnit s[i] i := by
  simp only [matchesUuid, Bool.and_eq_true, beq_iff_eq] at h
  obtain ⟨hlength, hall⟩ := h
  refine ⟨hlength, fun i hi => ?_⟩
  have hget : (asciiLower s)[i]? = some (if 65 ≤ s[i] ∧ s[i] ≤ 90 then s[i] + 32 else s[i]) := by
    rw [asciiLower, List.getElem?_map, List.getElem?_eq_getElem hi]
    rfl
  generalize s[i] = u at hget ⊢
  have hmem : ((if 65 ≤ u ∧ u ≤ 90 then u + 32 else u), i) ∈ (asciiLower s).zipIdx :=
    List.mem_zipIdx_iff_getElem?.mpr hget
  have hunit := List.all_eq_true.mp hall _ hmem
  have hlower : (if 65 ≤ u ∧ u ≤ 90 then u + 32 else u).toNat =
      if 65 ≤ u.toNat ∧ u.toNat ≤ 90 then u.toNat + 32 else u.toNat := by
    simp only [UInt16.le_iff_toNat_le, UInt16.reduceToNat]
    split
    · rw [UInt16.toNat_add]
      show (u.toNat + 32) % 65536 = _
      omega
    · rfl
  dsimp only at hunit
  clear hget hmem
  generalize (if 65 ≤ u ∧ u ≤ 90 then u + 32 else u) = v at hunit hlower
  rw [UuidUnit]
  simp only [isUuidDash, List.contains_cons, List.contains_nil, Bool.or_false, Bool.or_eq_true,
    beq_iff_eq]
  split at hunit
  · rename_i hdash
    rw [beq_iff_eq, ← UInt16.toNat_inj] at hunit
    rw [if_pos hdash]
    have h45 : (45 : UInt16).toNat = 45 := rfl
    grind
  · rename_i hdash
    rw [if_neg hdash]
    split at hunit
    · rename_i hversion
      rw [if_pos hversion]
      simp only [decide_eq_true_eq, UInt16.le_iff_toNat_le, UInt16.reduceToNat] at hunit
      grind
    · rename_i hversion
      rw [if_neg hversion]
      split at hunit
      · rename_i hvariant
        rw [if_pos hvariant]
        simp only [Bool.or_eq_true, beq_iff_eq, ← UInt16.toNat_inj, UInt16.reduceToNat] at hunit
        grind
      · rename_i hvariant
        rw [if_neg hvariant]
        simp only [isHexUnit, isDigitUnit, Bool.or_eq_true, decide_eq_true_eq,
          UInt16.le_iff_toNat_le, UInt16.reduceToNat] at hunit
        grind

theorem UuidUnit.lt {i : Nat} (h : UuidUnit u i) : u.toNat < 128 := by
  rw [UuidUnit] at h
  grind

theorem validUuid_of_matches (h : matchesUuid (ofChars cs) = true) (field : String) :
    validUuid cs field = .ok () := by
  obtain ⟨hlength, hunits⟩ := uuidUnit_of_matches h
  have hascii : ∀ u ∈ ofChars cs, u.toNat < 128 := by
    intro u hu
    obtain ⟨i, hi, rfl⟩ := List.getElem_of_mem hu
    exact (hunits i hi).lt
  have hbytes := encode_of_ascii hascii rfl
  have hat : ∀ i, i < 36 → ∃ u, byteAt (Utf8.encode cs) i = u.toUInt8 ∧
      (u.toUInt8).toNat = u.toNat ∧ UuidUnit u i := by
    intro i hi
    have hi' : i < (ofChars cs).length := by omega
    refine ⟨(ofChars cs)[i], ?_, toNat_byte (hunits i hi').lt, hunits i hi'⟩
    rw [hbytes, byteAt, List.getD_eq_getElem?_getD, List.getElem?_map,
      List.getElem?_eq_getElem hi']
    rfl
  rw [validUuid]
  apply ensure_eq_ok.mpr
  refine ⟨?_, ?_, ?_, ?_, ?_⟩
  · rw [hbytes, List.length_map, hlength]
  · apply List.all_eq_true.mpr
    intro i hi
    have hlt : i < 36 := by
      simp only [List.mem_cons, List.not_mem_nil, or_false] at hi
      omega
    obtain ⟨u, hbyte, hnat, hu⟩ := hat i hlt
    have hdash : isUuidDash i = true := List.contains_iff_mem.mpr hi
    rw [UuidUnit, if_pos hdash] at hu
    rw [hbyte, beq_iff_eq, ← UInt8.toNat_inj, hnat, hu]
    rfl
  · apply List.all_eq_true.mpr
    rintro ⟨b, i⟩ hmem
    have hget : (Utf8.encode cs)[i]? = some b := List.mem_zipIdx_iff_getElem?.mp hmem
    have hlt : i < 36 := by
      have hlt := (List.getElem?_eq_some_iff.mp hget).1
      rw [hbytes, List.length_map] at hlt
      omega
    obtain ⟨u, hbyte, hnat, hu⟩ := hat i hlt
    rw [byteAt, List.getD_eq_getElem?_getD, hget] at hbyte
    have hb : b = u.toUInt8 := hbyte
    rw [UuidUnit] at hu
    simp only [Bool.or_eq_true, isAsciiHexdigit, decide_eq_true_eq, UInt8.le_iff_toNat_le,
      UInt8.reduceToNat, hb, hnat]
    grind
  · obtain ⟨u, hbyte, hnat, hu⟩ := hat 14 (by decide)
    rw [UuidUnit, if_neg (by decide), if_pos rfl] at hu
    rw [hbyte, UInt8.le_iff_toNat_le, UInt8.le_iff_toNat_le, hnat]
    exact hu
  · obtain ⟨u, hbyte, hnat, hu⟩ := hat 19 (by decide)
    rw [UuidUnit, if_neg (by decide), if_neg (by decide), if_pos rfl] at hu
    simp only [hbyte, UInt8.le_iff_toNat_le, hnat]
    exact hu

/-! The text of an input -/

theorem validTaskInputText_of_matches (h : taskInputText (ofChars cs) = true) :
    validTaskInputText cs = .ok () := by
  simp only [taskInputText, tooLong, Bool.and_eq_true, Bool.not_eq_true', decide_eq_false_iff_not,
    not_lt] at h
  obtain ⟨hlength, hcontrol⟩ := h
  rw [utf8Length_ofChars] at hlength
  apply ensure_eq_ok.mpr
  refine ⟨hlength, fun hany => ?_⟩
  obtain ⟨c, hc, hbad⟩ := List.any_eq_true.mp hany
  rw [decide_eq_true_eq] at hbad
  have hlt : c.toNat < 0x10000 := by omega
  have hmem : UInt16.ofNat c.toNat ∈ ofChars cs := by
    apply List.mem_flatMap.mpr
    refine ⟨c, hc, ?_⟩
    rw [encodeChar_of_lt hlt]
    exact List.mem_singleton_self _
  have hunit := List.any_eq_false.mp hcontrol _ hmem
  apply hunit
  simp only [decide_eq_true_eq, UInt16.lt_iff_toNat_lt, UInt16.le_iff_toNat_le, toNat_unit hlt,
    UInt16.reduceToNat]
  exact hbad

end AnvilRun.Websocket
