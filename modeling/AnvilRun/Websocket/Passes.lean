import AnvilRun.TextUnits
import AnvilRun.Websocket.TextChecks

namespace AnvilRun.Websocket

open AnvilRun.Form
open AnvilRun.ValidationPrimitives
open JsString

/-! When the checks of properties find nothing -/

variable {value : JsValue} {key : String} {path : Path} {s : JsString}

/-- A string that is not empty passes a check of required text. -/
theorem stringProperty_nil_iff {plain : Bool} (h : value.property (ofString key) = .string s) :
    stringProperty value key path true plain = [] ↔
      s ≠ [] ∧ (plain = true → isPlainText s = true) := by
  rw [stringProperty, h]
  simp only [JsValue.isUndefined, Bool.false_and, Bool.false_eq_true, if_false, issueUnless_eq_nil,
    stringWith, Bool.and_eq_true, Bool.not_eq_true', List.isEmpty_eq_false_iff, Bool.or_eq_true]
  cases plain with
  | true => simp
  | false => simp

theorem idProperty_nil_iff (h : value.property (ofString key) = .string s) :
    idProperty value key path false = [] ↔ matchesProtocolId s = true := by
  rw [idProperty, h, Bool.false_and, if_neg Bool.false_ne_true, issueUnless_eq_nil]
  rfl

theorem leaseProperty_nil_iff (h : value.property (ofString "leaseToken") = .string s) :
    leaseProperty value path = [] ↔ matchesLeaseToken s = true := by
  rw [leaseProperty, h, issueUnless_eq_nil]
  rfl

theorem relativePathProperty_nil_iff (h : value.property (ofString key) = .string s) :
    relativePathProperty value key path = [] ↔ s ≠ [] ∧ isSafeRelativePath s = true := by
  rw [relativePathProperty, List.append_eq_nil_iff, stringProperty_nil_iff h, h, issueUnless_eq_nil]
  simp only [JsValue.isUndefined, Bool.false_or, stringWith, isSafeRelativePath, Bool.and_eq_true]
  tauto

theorem sha256Property_nil_iff {message : String}
    (h : value.property (ofString "sha256") = .string s) :
    sha256Property value path message = [] ↔ matchesSha256 s = true := by
  rw [sha256Property, h, issueUnless_eq_nil]
  rfl

theorem isNonNegativeInteger_natCast (n : Nat) :
    isNonNegativeInteger (.number (.finite n)) = decide (n ≤ JsNumber.maxSafeInteger) := by
  have hsafe : isInteger (.number (.finite n)) = decide (n ≤ JsNumber.maxSafeInteger) :=
    JsNumber.isSafeInteger_ofNat
  rw [isNonNegativeInteger, hsafe, decide_eq_true (Nat.cast_nonneg n), Bool.and_true]

theorem nonNegativeInteger_nil_iff {n : Nat}
    (h : value.property (ofString key) = .number (.finite n)) :
    nonNegativeInteger value key path true = [] ↔ n ≤ JsNumber.maxSafeInteger := by
  rw [nonNegativeInteger, h, Bool.not_true, Bool.and_false, if_neg Bool.false_ne_true,
    issueUnless_eq_nil, isNonNegativeInteger_natCast, decide_eq_true_eq]

theorem eachItem_nil_iff {items : List (Option JsValue)} {check : Nat → JsValue → Issues} :
    eachItem items check = [] ↔
      ∀ i item, items[i]? = some (some item) → check i item = [] := by
  rw [eachItem, List.flatMap_eq_nil_iff]
  constructor
  · intro h i item hitem
    exact h (some item, i) (List.mk_mem_zipIdx_iff_getElem?.mpr hitem)
  · rintro h ⟨item, i⟩ hmem
    cases item with
    | none => rfl
    | some item => exact h i item (List.mk_mem_zipIdx_iff_getElem?.mp hmem)

/-- An envelope in which all but the payload is known to pass. -/
structure EnvelopeValid (input : JsValue) : Prop where
  object : isPlainObject input = true
  known : unknownProperties input protocolEnvelopeProperties [] = []
  id : idProperty input "id" [] false = []
  type : ((serverMessageType? (input.property (ofString "type"))).isSome ||
    (agentMessageType? (input.property (ofString "type"))).isSome) = true
  timestamp : stringWith isIso8601UtcString (input.property (ofString "timestamp")) = true
  protocolVersion :
    isSupportedProtocolVersion (input.property (ofString "protocolVersion")) = true
  payload : isPlainObject (input.property (ofString "payload")) = true

theorem EnvelopeValid.validate_iff {input : JsValue} (h : EnvelopeValid input) :
    validateProtocolMessage input = .ok input ↔
      typedPayload (input.property (ofString "type")) (input.property (ofString "payload")) = [] := by
  rw [validateProtocolMessage, h.object, if_neg (by exact Bool.noConfusion)]
  simp only [h.known, h.id, h.type, h.timestamp, h.protocolVersion, h.payload, issueUnless,
    objectValue, if_true, List.nil_append]
  split
  · rename_i hissues
    exact iff_of_true rfl hissues
  · rename_i hissues
    exact iff_of_false nofun hissues

/-! Identifiers that the agent takes pass -/

section Identifiers

open AnvilRun.AgentContracts
open AnvilRun.Fallible

variable {cs : List Char}

theorem isIdByte_iff {b : UInt8} :
    isIdByte b = true ↔ (48 ≤ b.toNat ∧ b.toNat ≤ 57) ∨ (65 ≤ b.toNat ∧ b.toNat ≤ 90) ∨
      (97 ≤ b.toNat ∧ b.toNat ≤ 122) ∨ b.toNat = 95 ∨ b.toNat = 45 := by
  simp only [isIdByte, isAsciiAlphanumeric, Bool.or_eq_true, decide_eq_true_eq, beq_iff_eq,
    UInt8.le_iff_toNat_le, ← UInt8.toNat_inj, UInt8.reduceToNat, or_assoc]

theorem isProtocolUnit_iff {u : UInt16} :
    isProtocolUnit u = true ↔ (65 ≤ u.toNat ∧ u.toNat ≤ 90) ∨ (97 ≤ u.toNat ∧ u.toNat ≤ 122) ∨
      (48 ≤ u.toNat ∧ u.toNat ≤ 57) ∨ u.toNat = 95 ∨ u.toNat = 45 := by
  simp only [isProtocolUnit, isLetterUnit, isDigitUnit, Bool.or_eq_true, decide_eq_true_eq,
    beq_iff_eq, UInt16.le_iff_toNat_le, ← UInt16.toNat_inj, UInt16.reduceToNat, or_assoc]

/-- The units of a text whose bytes are those of an identifier. -/
theorem protocolUnits_of_idBytes (h : (Utf8.encode cs).all isIdByte = true) :
    (ofChars cs).length = (Utf8.encode cs).length ∧ (ofChars cs).all isProtocolUnit = true := by
  have hbytes := List.all_eq_true.mp h
  have hascii : ∀ c ∈ cs, c.toNat < 128 := by
    refine ascii_of_encode fun b hb => ?_
    have hid := isIdByte_iff.mp (hbytes b hb)
    omega
  rw [encode_chars_ascii hascii] at hbytes ⊢
  rw [ofChars_ascii hascii]
  refine ⟨by rw [List.length_map, List.length_map], List.all_eq_true.mpr fun u hu => ?_⟩
  obtain ⟨c, hc, rfl⟩ := List.mem_map.mp hu
  have hlt := hascii c hc
  have hid := isIdByte_iff.mp (hbytes _ (List.mem_map_of_mem hc))
  have hbyte : (UInt8.ofNat c.toNat).toNat = c.toNat := by
    rw [UInt8.toNat_ofNat']
    omega
  rw [hbyte] at hid
  rw [isProtocolUnit_iff, toNat_unit (by omega)]
  omega

theorem matchesProtocolId_of_validId {field : String} (h : validId cs field = .ok ()) :
    matchesProtocolId (ofChars cs) = true := by
  obtain ⟨hne, hle, hall⟩ := ensure_eq_ok.mp h
  obtain ⟨hlength, hunits⟩ := protocolUnits_of_idBytes hall
  have hpos : 1 ≤ (Utf8.encode cs).length := List.length_pos_of_ne_nil hne
  rw [matchesProtocolId, hlength, hunits, decide_eq_true hle, decide_eq_true hpos]
  rfl

theorem matchesLeaseToken_of_validLease (h : validLease cs = .ok ()) :
    matchesLeaseToken (ofChars cs) = true := by
  obtain ⟨hge, hle, hall⟩ := ensure_eq_ok.mp h
  obtain ⟨hlength, hunits⟩ := protocolUnits_of_idBytes hall
  rw [matchesLeaseToken, hlength, hunits, decide_eq_true hle, decide_eq_true hge]
  rfl

theorem matchesProtocolId_of_uuid {s : JsString} (h : matchesUuid s = true) :
    matchesProtocolId s = true := by
  obtain ⟨hlength, hunits⟩ := uuidUnit_of_matches h
  have hall : s.all isProtocolUnit = true := by
    apply List.all_eq_true.mpr
    intro u hu
    obtain ⟨i, hi, rfl⟩ := List.mem_iff_getElem.mp hu
    have hunit := hunits i hi
    rw [isProtocolUnit_iff]
    rw [UuidUnit] at hunit
    grind
  rw [matchesProtocolId, hlength, hall]
  rfl

end Identifiers

/-! The characters of texts and paths that pass -/

theorem isControlUnit_iff {u : UInt16} :
    isControlUnit u = true ↔ u.toNat ≤ 0x1f ∨ 0x7f ≤ u.toNat ∧ u.toNat ≤ 0x9f ∨
      u.toNat = 0x2028 ∨ u.toNat = 0x2029 := by
  simp only [isControlUnit, Bool.or_eq_true, decide_eq_true_eq, beq_iff_eq,
    UInt16.le_iff_toNat_le, ← UInt16.toNat_inj, UInt16.reduceToNat, or_assoc]

/-- Whether a character is none of those that the protocol bars from its texts. -/
def isProtocolChar (c : Char) : Bool :=
  !decide (c.toNat ≤ 0x1f ∨ 0x7f ≤ c.toNat ∧ c.toNat ≤ 0x9f ∨ c.toNat = 0x2028 ∨ c.toNat = 0x2029)

theorem any_isControlUnit_encodeChar (c : Char) :
    (encodeChar c).any isControlUnit = !isProtocolChar c := by
  rw [Bool.eq_iff_iff, isProtocolChar, Bool.not_not, decide_eq_true_eq]
  by_cases h : c.toNat < 0x10000
  · rw [encodeChar_of_lt h, List.any_cons, List.any_nil, Bool.or_false, isControlUnit_iff,
      toNat_unit h]
  · refine iff_of_false (fun hany => ?_) (by omega)
    obtain ⟨high, low, hpair, hhigh, hlow, -⟩ := exists_pair h
    simp only [isHighSurrogate, isLowSurrogate, decide_eq_true_eq] at hhigh hlow
    rw [hpair, List.any_cons, List.any_cons, List.any_nil, Bool.or_false, Bool.or_eq_true,
      isControlUnit_iff, isControlUnit_iff] at hany
    omega

theorem isPlainText_ofChars {cs : List Char} :
    isPlainText (ofChars cs) = true ↔
      cs.all isProtocolChar = true ∧ looksLikeMarkup (ofChars cs) = false := by
  have hcontrol : containsControlCharacters (ofChars cs) = !cs.all isProtocolChar := by
    rw [containsControlCharacters, any_ofChars fun c _ => any_isControlUnit_encodeChar c,
      List.not_all_eq_any_not]
  rw [isPlainText, hcontrol, Bool.not_not, Bool.and_eq_true, Bool.not_eq_true']

/-- A path that starts with the separator has an empty part. -/
theorem nil_mem_splitOn_of_head? {α : Type} [DecidableEq α] {a : α} {l : List α}
    (h : l.head? = some a) : [] ∈ l.splitOn a := by
  obtain ⟨rest, rfl⟩ := List.head?_eq_some_iff.mp h
  rw [List.splitOn_cons_eq_if_modifyHead, if_pos (beq_self_eq_true a)]
  exact List.mem_cons_self

theorem ofChars_eq_dot {cs : List Char} : ofChars cs = [46] ↔ cs = ['.'] := by
  have hdot : ofChars ['.'] = [46] := by decide
  rw [← hdot, ofChars_injective.eq_iff]

theorem ofChars_eq_dots {cs : List Char} : ofChars cs = [46, 46] ↔ cs = ['.', '.'] := by
  have hdots : ofChars ['.', '.'] = [46, 46] := by decide
  rw [← hdots, ofChars_injective.eq_iff]

/-- Whether a part of a path names something. -/
def isNamedPart (part : List Char) : Bool :=
  !part.isEmpty && part != ['.'] && part != ['.', '.']

theorem isSafeRelativePath_ofChars {cs : List Char} :
    isSafeRelativePath (ofChars cs) = true ↔
      isPlainText (ofChars cs) = true ∧ '\\' ∉ cs ∧ ':' ∉ cs ∧
        (cs.splitOn '/').all isNamedPart = true := by
  have hbackslash : (ofChars cs).contains 92 = true ↔ '\\' ∈ cs := by
    rw [List.contains_iff_mem]
    exact mem_ofChars_ascii (a := '\\') (by decide)
  have hcolon : (ofChars cs).contains 58 = true ↔ ':' ∈ cs := by
    rw [List.contains_iff_mem]
    exact mem_ofChars_ascii (a := ':') (by decide)
  have hparts : ((ofChars cs).splitOn 47).all
        (fun part => !part.isEmpty && part != [46] && part != [46, 46]) = true ↔
      (cs.splitOn '/').all isNamedPart = true := by
    have hsplit : (ofChars cs).splitOn 47 = (cs.splitOn '/').map ofChars :=
      splitOn_ofChars (a := '/') (by decide)
    rw [hsplit, List.all_map, List.all_eq_true, List.all_eq_true]
    refine forall₂_congr fun part _ => ?_
    simp only [Function.comp_apply, isNamedPart, Bool.and_eq_true, Bool.not_eq_true',
      List.isEmpty_eq_false_iff, bne_iff_ne, ne_eq, ofChars_eq_nil, ofChars_eq_dot,
      ofChars_eq_dots]
  simp only [isSafeRelativePath, Bool.and_eq_true, Bool.not_eq_true', ← Bool.not_eq_true, hbackslash,
    hcolon, hparts, beq_iff_eq]
  constructor
  · rintro ⟨⟨⟨⟨⟨hplain, -⟩, -⟩, hbackslash⟩, hcolon⟩, hnamed⟩
    exact ⟨hplain, hbackslash, hcolon, hnamed⟩
  · rintro ⟨hplain, hno, hcolon, hnamed⟩
    refine ⟨⟨⟨⟨⟨hplain, fun hhead => ?_⟩, fun hhead => ?_⟩, hno⟩, hcolon⟩, hnamed⟩
    · have hempty := List.all_eq_true.mp (hparts.mpr hnamed) [] (nil_mem_splitOn_of_head? hhead)
      cases hempty
    · exact hno (hbackslash.mp (List.contains_iff_mem.mpr (List.mem_of_mem_head? hhead)))

end AnvilRun.Websocket
