import AnvilRun.Websocket.GitUrl

namespace AnvilRun.Websocket

open AnvilRun.AgentContracts
open AnvilRun.Fallible
open AnvilRun.ValidationPrimitives
open JsString

/-- What the agent reads from `JSON.stringify` of the value. -/
def received (value : JsValue) : Option Value :=
  value.toJson.bind Value.ofJson

/-! Values by what the agent reads from them -/

def text (s : List Char) : JsValue :=
  .string (ofChars s)

def whole (n : Nat) : JsValue :=
  .number (.ofNat n)

/-- The value of a property that may be missing. -/
def maybe {α : Type} (f : α → JsValue) : Option α → JsValue
  | some a => f a
  | none => .undefined

/-- The properties of an object by the names of the source. -/
def prop (value : JsValue) (name : String) : JsValue :=
  value.property (ofString name)

variable {α : Type} {value : JsValue} {fields : List (List Char × Value)} {w : Value}

/-! The fields that the agent reads -/

/-- The fields are those of the object that was sent. -/
structure Fields (value : JsValue) (fields : List (List Char × Value)) : Prop where
  lookup_eq : ∀ name, lookup fields name = received (prop value name)
  received_of_written : ∀ name doc, (prop value name).toJson = some doc →
    ∃ w, Value.ofJson doc = some w
  known : ∀ field ∈ fields, ofChars field.1 ∈ value.objectKeys

theorem forall₂_of_ofMembers {members : List (JsString × Json)}
    (h : Value.ofMembers members = some fields) :
    List.Forall₂ (fun m f => m.1 = ofChars f.1 ∧ Value.ofJson m.2 = some f.2) members fields := by
  induction members generalizing fields with
  | nil =>
      obtain rfl := Option.some.inj h
      exact .nil
  | cons member members ih =>
      obtain ⟨key, doc⟩ := member
      simp only [Value.ofMembers, Option.bind_eq_bind, Option.bind_eq_some_iff] at h
      obtain ⟨name, hname, w, hw, rest, hrest, heq⟩ := h
      obtain rfl := Option.some.inj heq
      exact .cons ⟨eq_ofChars_of_toChars? hname, hw⟩ (ih hrest)

theorem exists_right {β : Type} {r : α → β → Prop} {as : List α} {bs : List β}
    (h : List.Forall₂ r as bs) : (∀ a ∈ as, ∃ b ∈ bs, r a b) ∧ ∀ b ∈ bs, ∃ a ∈ as, r a b := by
  induction h with
  | nil =>
      constructor
      · intro a ha
        cases ha
      · intro b hb
        cases hb
  | cons hab _ ih =>
      constructor
      · intro a ha
        rcases List.mem_cons.mp ha with rfl | ha
        · exact ⟨_, List.mem_cons_self, hab⟩
        · obtain ⟨b, hb, hr⟩ := ih.1 a ha
          exact ⟨b, List.mem_cons_of_mem _ hb, hr⟩
      · intro b hb
        rcases List.mem_cons.mp hb with rfl | hb
        · exact ⟨_, List.mem_cons_self, hab⟩
        · obtain ⟨a, ha, hr⟩ := ih.2 b hb
          exact ⟨a, List.mem_cons_of_mem _ ha, hr⟩

/-- What an object is received as. -/
theorem exists_fields (hobject : isPlainObject value = true) (h : received value = some w) :
    ∃ fields, w = .object fields ∧ Fields value fields := by
  cases value with
  | object keys property =>
      rw [received, JsValue.toJson, Option.bind_some, Value.ofJson] at h
      obtain ⟨fields, hmembers, rfl⟩ := Option.map_eq_some_iff.mp h
      obtain ⟨hforth, hback⟩ := exists_right (forall₂_of_ofMembers hmembers)
      have hwritten : ∀ key ∈ keys, ∀ doc, (property key).toJson = some doc →
          ∃ field ∈ fields, key = ofChars field.1 ∧ Value.ofJson doc = some field.2 := by
        intro key hkey doc hdoc
        apply hforth (key, doc)
        exact List.mem_filterMap.mpr ⟨key, hkey, by rw [hdoc]; rfl⟩
      have hfield : ∀ field ∈ fields, ∃ key ∈ keys, ∃ doc, (property key).toJson = some doc ∧
          key = ofChars field.1 ∧ Value.ofJson doc = some field.2 := by
        intro field hmem
        obtain ⟨⟨key, doc⟩, hmember, hkey, hdoc⟩ := hback field hmem
        obtain ⟨key', hkey', hmap⟩ := List.mem_filterMap.mp hmember
        obtain ⟨doc', hdoc', heq⟩ := Option.map_eq_some_iff.mp hmap
        obtain ⟨rfl, rfl⟩ := Prod.mk.inj heq
        exact ⟨key', hkey', doc', hdoc', hkey, hdoc⟩
      refine ⟨fields, rfl, ?_, ?_, ?_⟩
      · intro name
        rw [lookup, prop, JsValue.property]
        cases hfind : fields.reverse.find? (fun field => decide (field.1 = name.toList)) with
        | some field =>
            have hname : field.1 = name.toList := by
              simpa only [decide_eq_true_eq] using List.find?_some hfind
            obtain ⟨key, hkey, doc, hdoc, hchars, hw⟩ :=
              hfield field (List.mem_reverse.mp (List.mem_of_find?_eq_some hfind))
            have hstring : key = ofString name := by
              rw [hchars, hname]
              rfl
            rw [← hstring, if_pos hkey, received, hdoc]
            exact hw.symm
        | none =>
            show none = received _
            split
            · rename_i hkey
              cases hdoc : (property (ofString name)).toJson with
              | none => rw [received, hdoc]; rfl
              | some doc =>
                  obtain ⟨field, hmem, hchars, -⟩ := hwritten _ hkey doc hdoc
                  have hname : field.1 = name.toList := (ofChars_injective hchars).symm
                  have hnot := List.find?_eq_none.mp hfind field (List.mem_reverse.mpr hmem)
                  exact absurd (decide_eq_true hname) hnot
            · rfl
      · intro name doc hdoc
        rw [prop, JsValue.property] at hdoc
        split at hdoc
        · rename_i hkey
          obtain ⟨field, -, -, hw⟩ := hwritten _ hkey doc hdoc
          exact ⟨field.2, hw⟩
        · cases hdoc
      · intro field hmem
        obtain ⟨key, hkey, -, -, hchars, -⟩ := hfield field hmem
        rw [← hchars]
        exact hkey
  | _ => cases hobject

theorem unknownProperties_eq_nil {known : List String} {path : Path} :
    unknownProperties value known path = [] ↔
      ∀ key ∈ value.objectKeys, ∃ name ∈ known, ofString name = key := by
  rw [unknownProperties, List.map_eq_nil_iff, List.filter_eq_nil_iff]
  apply forall₂_congr
  intro key _
  rw [Bool.not_eq_true', Bool.not_eq_false, List.any_eq_true]
  simp only [decide_eq_true_eq]

/-- No field is unknown to the agent that the server knows. -/
theorem Fields.structFields {known : List String} {path : Path} (h : Fields value fields)
    (hknown : unknownProperties value known path = []) :
    structFields known (.object fields) = .ok fields := by
  rw [AgentContracts.structFields, if_pos]
  apply List.all_eq_true.mpr
  intro field hmem
  obtain ⟨name, hname, heq⟩ := unknownProperties_eq_nil.mp hknown _ (h.known field hmem)
  apply List.any_eq_true.mpr
  exact ⟨name, hname, decide_eq_true (ofChars_injective heq)⟩

/-! One field after the other -/

variable {name : String} {p : JsString → Bool}

theorem Fields.exists_received (h : Fields value fields) {doc : Json}
    (hdoc : (prop value name).toJson = some doc) :
    ∃ w, Value.ofJson doc = some w ∧ lookup fields name = some w := by
  obtain ⟨w, hw⟩ := h.received_of_written name doc hdoc
  refine ⟨w, hw, ?_⟩
  rw [h.lookup_eq, received, hdoc]
  exact hw

theorem requiredField_of_lookup {deserialize : Value → Result α}
    (h : lookup fields name = some w) : requiredField deserialize fields name = deserialize w := by
  rw [requiredField, h]
  rfl

/-- A property that is a string. -/
theorem Fields.received_string (h : Fields value fields) {s : JsString}
    (hvalue : prop value name = .string s) :
    ∃ cs, s = ofChars cs ∧ lookup fields name = some (.string cs) := by
  have hdoc : (prop value name).toJson = some (.string s) := by
    rw [hvalue]
    rfl
  obtain ⟨w, hw, hlookup⟩ := h.exists_received hdoc
  rw [Value.ofJson] at hw
  obtain ⟨cs, hcs, rfl⟩ := Option.map_eq_some_iff.mp hw
  exact ⟨cs, eq_ofChars_of_toChars? hcs, hlookup⟩

theorem Fields.string (h : Fields value fields) (hp : stringWith p (prop value name) = true) :
    ∃ s, prop value name = text s ∧ p (ofChars s) = true ∧
      requiredField AgentContracts.string fields name = .ok s := by
  cases hvalue : prop value name with
  | string s =>
      obtain ⟨cs, rfl, hlookup⟩ := h.received_string hvalue
      rw [hvalue] at hp
      refine ⟨cs, rfl, hp, ?_⟩
      exact requiredField_of_lookup hlookup
  | _ => rw [hvalue] at hp; cases hp

theorem Fields.undefined (h : Fields value fields) (hvalue : prop value name = .undefined) :
    lookup fields name = none := by
  rw [h.lookup_eq, hvalue]
  rfl

theorem Fields.optionalString (h : Fields value fields)
    (hp : ((prop value name).isUndefined || stringWith p (prop value name)) = true) :
    ∃ s, prop value name = maybe text s ∧ s.all (fun s => p (ofChars s)) = true ∧
      optionalField AgentContracts.string fields name = .ok s := by
  cases hvalue : prop value name with
  | undefined =>
      refine ⟨none, rfl, rfl, ?_⟩
      rw [optionalField, h.undefined hvalue]
  | string s =>
      obtain ⟨cs, rfl, hlookup⟩ := h.received_string hvalue
      rw [hvalue] at hp
      refine ⟨some cs, rfl, hp, ?_⟩
      rw [optionalField, hlookup]
      rfl
  | _ => rw [hvalue] at hp; cases hp

/-- A safe integer that is not negative is a natural number. -/
theorem exists_whole {v : JsValue} (h : isNonNegativeInteger v = true) :
    ∃ n, v = whole n ∧ n ≤ AgentContracts.maxSafeInteger ∧
      v.toJson = some (.number (.finite n)) ∧ AgentContracts.u64 (.number (n : Rat)) = .ok n := by
  cases v with
  | number x =>
      cases x with
      | finite q =>
          simp only [isNonNegativeInteger, isInteger, JsNumber.isSafeInteger, Bool.and_eq_true,
            decide_eq_true_eq] at h
          obtain ⟨⟨hden, hle⟩, hnonneg⟩ := h
          have hnum : 0 ≤ q.num := Rat.num_nonneg.mpr hnonneg
          have hq : q = (q.num.toNat : Rat) := by
            have hcast : ((q.num.toNat : Int) : Rat) = (q.num.toNat : Rat) := Int.cast_natCast _
            rw [← hcast, Int.toNat_of_nonneg hnum]
            exact (Rat.den_eq_one_iff q).mp hden |>.symm
          have hmax : q.num.toNat ≤ AgentContracts.maxSafeInteger := by
            have hsafe : JsNumber.maxSafeInteger = 9007199254740991 := by decide
            rw [hsafe] at hle
            show q.num.toNat ≤ 9007199254740991
            omega
          generalize q.num.toNat = n at hq hmax
          subst hq
          refine ⟨n, rfl, hmax, rfl, ?_⟩
          rw [AgentContracts.u64, Rat.den_natCast, Rat.num_natCast, if_pos, Int.toNat_natCast]
          have hlt : n ≤ 9007199254740991 := hmax
          exact ⟨rfl, by omega, by omega⟩
      | _ => cases h
  | _ => cases h

theorem Fields.received_whole (h : Fields value fields) {n : Nat}
    (hdoc : (prop value name).toJson = some (.number (.finite n))) :
    lookup fields name = some (.number (n : Rat)) := by
  obtain ⟨w, hw, hlookup⟩ := h.exists_received hdoc
  rw [Value.ofJson] at hw
  rw [hlookup, ← hw]

theorem Fields.u64 (h : Fields value fields) (hp : isNonNegativeInteger (prop value name) = true) :
    ∃ n, prop value name = whole n ∧ n ≤ AgentContracts.maxSafeInteger ∧
      requiredField AgentContracts.u64 fields name = .ok n := by
  obtain ⟨n, hwhole, hle, hdoc, hn⟩ := exists_whole hp
  refine ⟨n, hwhole, hle, ?_⟩
  rw [requiredField_of_lookup (h.received_whole hdoc), hn]

theorem Fields.optionalU64 (h : Fields value fields)
    (hp : (prop value name).isUndefined = true ∨ isNonNegativeInteger (prop value name) = true) :
    ∃ n, prop value name = maybe whole n ∧
      optionalField AgentContracts.u64 fields name = .ok n := by
  rcases hp with hundefined | hp
  · cases hvalue : prop value name with
    | undefined =>
        refine ⟨none, rfl, ?_⟩
        rw [optionalField, h.undefined hvalue]
    | _ => rw [hvalue] at hundefined; cases hundefined
  · obtain ⟨n, hwhole, hle, hdoc, hn⟩ := exists_whole hp
    refine ⟨some n, hwhole, ?_⟩
    rw [optionalField, h.received_whole hdoc]
    show some <$> AgentContracts.u64 (.number n) = _
    rw [hn]
    rfl

theorem Fields.boolean (h : Fields value fields) (hp : isBoolean (prop value name) = true) :
    ∃ b, prop value name = .bool b ∧ requiredField AgentContracts.boolean fields name = .ok b := by
  cases hvalue : prop value name with
  | bool b =>
      have hdoc : (prop value name).toJson = some (.bool b) := by
        rw [hvalue]
        rfl
      obtain ⟨w, hw, hlookup⟩ := h.exists_received hdoc
      rw [Value.ofJson] at hw
      refine ⟨b, rfl, ?_⟩
      rw [requiredField_of_lookup hlookup, ← Option.some.inj hw]
      rfl
  | _ => rw [hvalue] at hp; cases hp

/-! Enums -/

/-- The variants have the names that are allowed. -/
def Names (all : List α) (nameOf : α → String) (allowed : List String) : Prop :=
  ∀ n ∈ allowed, (all.find? (fun a => decide ((nameOf a).toList = n.toList))).map nameOf = some n

theorem Names.variant {all : List α} {nameOf : α → String} {allowed : List String}
    (hnames : Names all nameOf allowed) {v : JsValue} (hp : isMemberOf allowed v = true) :
    ∃ n ∈ allowed, v = text n.toList ∧ ∃ a, nameOf a = n ∧
      AgentContracts.variant all nameOf (.string n.toList) = .ok a := by
  cases v with
  | string s =>
      obtain ⟨n, hn, hs⟩ := List.any_eq_true.mp hp
      obtain ⟨a, hfind, hname⟩ := Option.map_eq_some_iff.mp (hnames n hn)
      refine ⟨n, hn, congrArg JsValue.string (of_decide_eq_true hs).symm, a, hname, ?_⟩
      show require (all.find? (fun a => decide ((nameOf a).toList = n.toList))) _ = _
      rw [hfind]
      rfl
  | _ => cases hp

theorem Fields.variant (h : Fields value fields) {all : List α} {nameOf : α → String}
    {allowed : List String} (hnames : Names all nameOf allowed)
    (hp : isMemberOf allowed (prop value name) = true) :
    ∃ a, prop value name = text (nameOf a).toList ∧ nameOf a ∈ allowed ∧
      requiredField (AgentContracts.variant all nameOf) fields name = .ok a := by
  obtain ⟨n, hn, hvalue, a, rfl, hvariant⟩ := hnames.variant hp
  obtain ⟨cs, hcs, hlookup⟩ := h.received_string hvalue
  obtain rfl := ofChars_injective hcs
  exact ⟨a, hvalue, hn, (requiredField_of_lookup hlookup).trans hvariant⟩

theorem Fields.optionalVariant (h : Fields value fields) {all : List α} {nameOf : α → String}
    {allowed : List String} (hnames : Names all nameOf allowed)
    (hp : (prop value name).isUndefined = true ∨ isMemberOf allowed (prop value name) = true) :
    ∃ a, prop value name = maybe (fun a => text (nameOf a).toList) a ∧
      (∀ b ∈ a, nameOf b ∈ allowed) ∧ ((prop value name).isUndefined = a.isNone) ∧
      optionalField (AgentContracts.variant all nameOf) fields name = .ok a := by
  rcases hp with hundefined | hp
  · cases hvalue : prop value name with
    | undefined =>
        refine ⟨none, rfl, fun b hb => absurd hb (Option.not_mem_none b), rfl, ?_⟩
        rw [optionalField, h.undefined hvalue]
    | _ => rw [hvalue] at hundefined; cases hundefined
  · obtain ⟨n, hn, hvalue, a, rfl, hvariant⟩ := hnames.variant hp
    obtain ⟨cs, hcs, hlookup⟩ := h.received_string hvalue
    obtain rfl := ofChars_injective hcs
    refine ⟨some a, hvalue, ?_, by rw [hvalue]; rfl, ?_⟩
    · intro b hb
      obtain rfl := Option.mem_some_iff.mp hb
      exact hn
    · rw [optionalField, hlookup]
      show some <$> AgentContracts.variant all nameOf _ = _
      rw [hvariant]
      rfl

/-! Objects and arrays -/

theorem exists_doc_of_object {v : JsValue} (h : isPlainObject v = true) :
    ∃ doc, v.toJson = some doc := by
  cases v with
  | object keys value => exact ⟨_, rfl⟩
  | _ => cases h

theorem Fields.object (h : Fields value fields) (hobject : isPlainObject (prop value name) = true) :
    ∃ sub, received (prop value name) = some (.object sub) ∧
      lookup fields name = some (.object sub) ∧ Fields (prop value name) sub := by
  obtain ⟨doc, hdoc⟩ := exists_doc_of_object hobject
  obtain ⟨w, hw, hlookup⟩ := h.exists_received hdoc
  have hreceived : received (prop value name) = some w := by
    rw [received, hdoc]
    exact hw
  obtain ⟨sub, rfl, hsub⟩ := exists_fields hobject hreceived
  exact ⟨sub, hreceived, hlookup, hsub⟩

theorem forall₂_of_ofItems {items : List (Option JsValue)} {ws : List Value}
    (h : Value.ofItems (JsValue.itemsToJson items) = some ws) :
    List.Forall₂ (fun item w => Value.ofJson ((JsValue.itemToJson item).getD .null) = some w)
      items ws := by
  induction items generalizing ws with
  | nil =>
      obtain rfl := Option.some.inj h
      exact .nil
  | cons item items ih =>
      simp only [JsValue.itemsToJson, Value.ofItems, Option.bind_eq_bind,
        Option.bind_eq_some_iff] at h
      obtain ⟨w, hw, rest, hrest, heq⟩ := h
      obtain rfl := Option.some.inj heq
      exact .cons hw (ih hrest)

theorem Fields.array (h : Fields value fields) {items : List (Option JsValue)}
    (hvalue : prop value name = .array items) :
    ∃ ws, lookup fields name = some (.array ws) ∧
      List.Forall₂ (fun item w => Value.ofJson ((JsValue.itemToJson item).getD .null) = some w)
        items ws := by
  have hdoc : (prop value name).toJson = some (.array (JsValue.itemsToJson items)) := by
    rw [hvalue]
    rfl
  obtain ⟨w, hw, hlookup⟩ := h.exists_received hdoc
  rw [Value.ofJson] at hw
  obtain ⟨ws, hws, rfl⟩ := Option.map_eq_some_iff.mp hw
  exact ⟨ws, hlookup, forall₂_of_ofItems hws⟩

/-- An array without gaps is read item by item. -/
theorem mapM_of_items {items : List (Option JsValue)} {ws : List Value}
    {deserialize : Value → Result α} {r : JsValue → α → Prop}
    (hitems : List.Forall₂
      (fun item w => Value.ofJson ((JsValue.itemToJson item).getD .null) = some w) items ws)
    (hsome : items.all Option.isSome = true)
    (heach : ∀ v, some v ∈ items → ∃ doc, v.toJson = some doc ∧
      ∀ w, Value.ofJson doc = some w → ∃ a, deserialize w = .ok a ∧ r v a) :
    ∃ as, ws.mapM deserialize = .ok as ∧
      List.Forall₂ (fun item a => ∃ v, item = some v ∧ r v a) items as := by
  induction hitems with
  | nil => exact ⟨[], rfl, .nil⟩
  | @cons item w items ws hw _ ih =>
      obtain ⟨hitem, hrest⟩ := Bool.and_eq_true_iff.mp hsome
      obtain ⟨v, rfl⟩ := Option.isSome_iff_exists.mp hitem
      obtain ⟨as, has, hagree⟩ := ih hrest fun v hv => heach v (List.mem_cons_of_mem _ hv)
      obtain ⟨doc, hdoc, hread⟩ := heach v List.mem_cons_self
      rw [JsValue.itemToJson, hdoc] at hw
      obtain ⟨a, ha, hr⟩ := hread w hw
      refine ⟨a :: as, ?_, .cons ⟨v, rfl, hr⟩ hagree⟩
      rw [List.mapM_cons, ha, has]
      rfl

/-- A gap of an array is read as `null`. -/
theorem mapM_of_gap {items : List (Option JsValue)} {ws : List Value}
    {deserialize : Value → Result α}
    (hitems : List.Forall₂
      (fun item w => Value.ofJson ((JsValue.itemToJson item).getD .null) = some w) items ws)
    (hgap : items.all Option.isSome = false) (hnull : ∀ a, deserialize .null ≠ .ok a)
    (as : List α) : ws.mapM deserialize ≠ .ok as := by
  induction hitems generalizing as with
  | nil => cases hgap
  | @cons item w items ws hw _ ih =>
      intro h
      simp only [List.mapM_cons, bind_eq_ok] at h
      obtain ⟨a, ha, rest, hrest, -⟩ := h
      cases item with
      | none =>
          obtain rfl := Option.some.inj hw
          exact hnull a ha
      | some v => exact ih hgap rest hrest

/-- Whether all items of an array are set. -/
def withoutGaps : JsValue → Bool
  | .array items => items.all Option.isSome
  | _ => true

theorem Fields.strings (h : Fields value fields)
    (hp : everyItem (stringWith p) (prop value name) = true) :
    (withoutGaps (prop value name) = true → ∃ as : List (List Char),
      prop value name = .array (as.map (fun s => some (text s))) ∧
        requiredField (vec AgentContracts.string) fields name = .ok as) ∧
      (withoutGaps (prop value name) = false → ∀ as,
        requiredField (vec AgentContracts.string) fields name ≠ .ok as) := by
  cases hvalue : prop value name with
  | array items =>
      obtain ⟨ws, hlookup, hitems⟩ := h.array hvalue
      rw [requiredField_of_lookup hlookup]
      rw [hvalue] at hp
      constructor
      · intro hsome
        have heach : ∀ v, some v ∈ items → ∃ doc, v.toJson = some doc ∧
            ∀ w, Value.ofJson doc = some w →
              ∃ s, AgentContracts.string w = .ok s ∧ v = text s := by
          intro v hv
          have hv' := List.all_eq_true.mp hp (some v) hv
          cases v with
          | string s =>
              refine ⟨_, rfl, fun w hw => ?_⟩
              rw [Value.ofJson] at hw
              obtain ⟨cs, hcs, rfl⟩ := Option.map_eq_some_iff.mp hw
              exact ⟨cs, rfl, congrArg JsValue.string (eq_ofChars_of_toChars? hcs)⟩
          | _ => cases hv'
        obtain ⟨as, has, hagree⟩ := mapM_of_items hitems hsome heach
        refine ⟨as, congrArg JsValue.array ?_, has⟩
        clear has heach hitems hsome hp hvalue
        induction hagree with
        | nil => rfl
        | cons hitem _ ih =>
            obtain ⟨v, rfl, rfl⟩ := hitem
            rw [ih]
            rfl
      · intro hgap as
        apply mapM_of_gap hitems hgap
        intro a ha
        cases ha
  | _ => rw [hvalue] at hp; cases hp

/-! What it means that the server finds nothing -/

variable {path : Path} {rest : Issues}

theorem stringProperty_eq_nil {plain : Bool} (h : stringProperty value name path true plain = []) :
    stringWith (fun s => !s.isEmpty && (!plain || isPlainText s)) (prop value name) = true := by
  rw [stringProperty, Bool.not_true, Bool.and_false, if_neg Bool.false_ne_true] at h
  exact issueUnless_eq_nil.mp h

theorem optionalText_eq_nil (h : optionalText value name path = []) :
    ((prop value name).isUndefined || stringWith isPlainText (prop value name)) = true :=
  issueUnless_eq_nil.mp h

theorem idProperty_eq_nil (h : idProperty value name path false = []) :
    stringWith matchesProtocolId (prop value name) = true := by
  rw [idProperty, Bool.false_and, if_neg Bool.false_ne_true] at h
  exact issueUnless_eq_nil.mp h

theorem leaseProperty_eq_nil (h : leaseProperty value path = []) :
    stringWith matchesLeaseToken (prop value "leaseToken") = true :=
  issueUnless_eq_nil.mp h

theorem timeProperty_eq_nil (h : timeProperty value name path = []) :
    stringWith isIso8601UtcString (prop value name) = true :=
  issueUnless_eq_nil.mp h

theorem positiveInteger_eq_nil (h : positiveInteger value name path = []) :
    isNonNegativeInteger (prop value name) = true := by
  have hp : isPositiveInteger (prop value name) = true := issueUnless_eq_nil.mp h
  cases hvalue : prop value name with
  | number n =>
      rw [hvalue] at hp
      cases n with
      | finite q => exact (Bool.and_eq_true_iff.mp hp).1
      | _ => cases hp
  | _ => rw [hvalue] at hp; cases hp

theorem nonNegativeInteger_eq_nil (h : nonNegativeInteger value name path true = []) :
    isNonNegativeInteger (prop value name) = true := by
  rw [nonNegativeInteger, Bool.not_true, Bool.and_false, if_neg Bool.false_ne_true] at h
  exact issueUnless_eq_nil.mp h

theorem nonNegativeInteger_optional_eq_nil (h : nonNegativeInteger value name path false = []) :
    (prop value name).isUndefined = true ∨ isNonNegativeInteger (prop value name) = true := by
  rw [nonNegativeInteger, Bool.not_false, Bool.and_true] at h
  split at h
  · rename_i hundefined
    exact Or.inl hundefined
  · exact Or.inr (issueUnless_eq_nil.mp h)

theorem relativePathProperty_eq_nil (h : relativePathProperty value name path = []) :
    stringWith (fun s => !s.isEmpty && (!true || isPlainText s)) (prop value name) = true :=
  stringProperty_eq_nil (List.append_eq_nil_iff.mp h).1

theorem stringArray_eq_nil (h : stringArray value name path = []) :
    everyItem (stringWith (fun s => !s.isEmpty)) (prop value name) = true :=
  issueUnless_eq_nil.mp h

theorem booleanProperty_eq_nil (h : booleanProperty value name path = []) :
    isBoolean (prop value name) = true :=
  issueUnless_eq_nil.mp h

theorem objectValue_eq_nil (h : objectValue value path rest = []) :
    isPlainObject value = true ∧ rest = [] := by
  rw [objectValue] at h
  split at h
  · rename_i hobject
    exact ⟨hobject, h⟩
  · cases h

/-- The fields of an object that the server has checked. -/
theorem exists_checked_fields {known : List String}
    (h : objectValue value path (unknownProperties value known path ++ rest) = [])
    (hw : received value = some w) :
    rest = [] ∧ ∃ fields, structFields known w = .ok fields ∧ Fields value fields := by
  obtain ⟨hobject, hinside⟩ := objectValue_eq_nil h
  obtain ⟨hknown, hrest⟩ := List.append_eq_nil_iff.mp hinside
  obtain ⟨fields, rfl, hfields⟩ := exists_fields hobject hw
  exact ⟨hrest, fields, hfields.structFields hknown, hfields⟩

end AnvilRun.Websocket
