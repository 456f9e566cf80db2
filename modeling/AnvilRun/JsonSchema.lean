import AnvilRun.ValidationPrimitives

namespace AnvilRun

open AnvilRun.ValidationPrimitives
open JsString

/-- Two values are the same for a JSON Schema, whatever the order of the members. -/
inductive Json.Same : Json → Json → Prop
  | null : Same .null .null
  | bool (value : Bool) : Same (.bool value) (.bool value)
  | number (value : JsNumber) : Same (.number value) (.number value)
  | string (value : JsString) : Same (.string value) (.string value)
  | array {items items' : List Json} (h : List.Forall₂ Same items items') :
      Same (.array items) (.array items')
  | object {members members' : List (JsString × Json)}
      (hkeys : ∀ key, ((Json.object members).member? key).isSome =
        ((Json.object members').member? key).isSome)
      (hvalues : ∀ key value value', (Json.object members).member? key = some value →
        (Json.object members').member? key = some value' → Same value value') :
      Same (.object members) (.object members')

namespace JsonSchema

/-- The values of the keyword `type`. -/
inductive SimpleType where
  | string | number | integer | boolean | object | array
  deriving DecidableEq

/-- A schema of Draft 2020-12: one keyword, or a schema object with all its keywords. The name of
a definition stands for the path of `$ref`. -/
inductive Schema (Name : Type) where
  | ref (name : Name)
  | type (types : List SimpleType)
  | const (value : Json)
  | pattern (regExp : CompiledRegExp)
  | minLength (least : Nat)
  | maxLength (most : Nat)
  | minimum (least : Rat)
  | maximum (most : Rat)
  | exclusiveMinimum (bound : Rat)
  | minItems (least : Nat)
  | maxItems (most : Nat)
  | uniqueItems
  | items (schema : Schema Name)
  | required (names : List JsString)
  /-- `properties` with `additionalProperties: false`. -/
  | closed (properties : List (JsString × Schema Name))
  | oneOf (schemas : List (Schema Name))
  | all (keywords : List (Schema Name))

variable {Name : Type}

/-- No JSON number is infinite. -/
def SimpleType.Has : SimpleType → Json → Prop
  | .string, .string _ => True
  | .number, .number (.finite _) => True
  | .integer, .number (.finite q) => q.den = 1
  | .boolean, .bool _ => True
  | .object, .object _ => True
  | .array, .array _ => True
  | _, _ => False

mutual

/-- The definitions that a schema refers to. -/
def Schema.refs : Schema Name → List Name
  | .ref name => [name]
  | .items schema => schema.refs
  | .closed properties => refsOfProperties properties
  | .oneOf schemas => refsOfAll schemas
  | .all keywords => refsOfAll keywords
  | _ => []

def refsOfProperties : List (JsString × Schema Name) → List Name
  | [] => []
  | (_, schema) :: properties => schema.refs ++ refsOfProperties properties

def refsOfAll : List (Schema Name) → List Name
  | [] => []
  | schema :: schemas => schema.refs ++ refsOfAll schemas

end

mutual

/-- The value is valid against the schema, where `refer` says which values are valid against a
definition. A keyword for values of one type says nothing about the others. -/
def Schema.Valid (refer : Name → Json → Prop) : Schema Name → Json → Prop
  | .ref name, value => refer name value
  | .type types, value => ∃ type ∈ types, type.Has value
  | .const expected, value => expected.Same value
  | .pattern regExp, value => ∀ s, value = .string s → regExp.test s = true
  | .minLength least, value => ∀ s, value = .string s → least ≤ codePoints s
  | .maxLength most, value => ∀ s, value = .string s → codePoints s ≤ most
  | .minimum least, value => ∀ q, value = .number (.finite q) → least ≤ q
  | .maximum most, value => ∀ q, value = .number (.finite q) → q ≤ most
  | .exclusiveMinimum bound, value => ∀ q, value = .number (.finite q) → bound < q
  | .minItems least, value => ∀ items, value = .array items → least ≤ items.length
  | .maxItems most, value => ∀ items, value = .array items → items.length ≤ most
  | .uniqueItems, value =>
      ∀ items, value = .array items → items.Pairwise (fun item item' => ¬ item.Same item')
  | .items schema, value => ∀ items, value = .array items → ∀ item ∈ items, schema.Valid refer item
  | .required names, value =>
      ∀ members, value = .object members → ∀ name ∈ names, (value.member? name).isSome
  | .closed properties, value =>
      ∀ members, value = .object members →
        (∀ key, (value.member? key).isSome → key ∈ properties.map Prod.fst) ∧
          ValidProperties refer properties value
  | .oneOf schemas, value => ValidOne refer schemas value
  | .all keywords, value => ValidAll refer keywords value

/-- Every member with a schema is valid against it. -/
def ValidProperties (refer : Name → Json → Prop) : List (JsString × Schema Name) → Json → Prop
  | [], _ => True
  | (key, schema) :: properties, value =>
      (∀ v, value.member? key = some v → schema.Valid refer v) ∧
        ValidProperties refer properties value

/-- The value is valid against exactly one of the schemas. -/
def ValidOne (refer : Name → Json → Prop) : List (Schema Name) → Json → Prop
  | [], _ => False
  | schema :: schemas, value =>
      schema.Valid refer value ∧ ValidNone refer schemas value ∨
        ¬ schema.Valid refer value ∧ ValidOne refer schemas value

def ValidNone (refer : Name → Json → Prop) : List (Schema Name) → Json → Prop
  | [], _ => True
  | schema :: schemas, value => ¬ schema.Valid refer value ∧ ValidNone refer schemas value

def ValidAll (refer : Name → Json → Prop) : List (Schema Name) → Json → Prop
  | [], _ => True
  | schema :: schemas, value => schema.Valid refer value ∧ ValidAll refer schemas value

end

/-- A schema with its definitions, which refer to each other without a cycle. -/
structure Document (Name : Type) where
  root : Schema Name
  defs : Name → Schema Name
  rank : Name → Nat
  acyclic : ∀ name, ∀ other ∈ (defs name).refs, rank other < rank name

/-- The values that are valid against a definition, as far as references of this depth go. -/
def Document.resolve (doc : Document Name) : Nat → Name → Json → Prop
  | 0, _, _ => False
  | depth + 1, name, value => (doc.defs name).Valid (doc.resolve depth) value

/-- The value is valid against the definition. -/
def Document.ValidDef (doc : Document Name) (name : Name) (value : Json) : Prop :=
  doc.resolve (doc.rank name + 1) name value

def Document.Valid (doc : Document Name) (value : Json) : Prop :=
  doc.root.Valid doc.ValidDef value

/-! What a schema says depends on its references only -/

mutual

theorem Schema.valid_congr {refer refer' : Name → Json → Prop} :
    ∀ (schema : Schema Name) (value : Json),
      (∀ name ∈ schema.refs, ∀ v, refer name v ↔ refer' name v) →
        (schema.Valid refer value ↔ schema.Valid refer' value)
  | .ref name, value, h => by
      simp only [Schema.Valid]
      exact h name (by simp [Schema.refs]) value
  | .items schema, value, h => by
      simp only [Schema.Valid]
      refine forall_congr' fun items => imp_congr_right fun _ => ?_
      exact forall_congr' fun item => imp_congr_right fun _ => schema.valid_congr item h
  | .closed properties, value, h => by
      simp only [Schema.Valid]
      refine forall_congr' fun _ => imp_congr_right fun _ => and_congr_right fun _ => ?_
      exact validProperties_congr properties value h
  | .oneOf schemas, value, h => by
      simp only [Schema.Valid]
      exact validOne_congr schemas value h
  | .all keywords, value, h => by
      simp only [Schema.Valid]
      exact validAll_congr keywords value h
  | .type _, _, _ | .const _, _, _ | .pattern _, _, _ | .minLength _, _, _ | .maxLength _, _, _
  | .minimum _, _, _ | .maximum _, _, _ | .exclusiveMinimum _, _, _ | .minItems _, _, _
  | .maxItems _, _, _ | .uniqueItems, _, _ | .required _, _, _ => by
      simp only [Schema.Valid]

theorem validProperties_congr {refer refer' : Name → Json → Prop} :
    ∀ (properties : List (JsString × Schema Name)) (value : Json),
      (∀ name ∈ refsOfProperties properties, ∀ v, refer name v ↔ refer' name v) →
        (ValidProperties refer properties value ↔ ValidProperties refer' properties value)
  | [], _, _ => by simp only [ValidProperties]
  | (key, schema) :: properties, value, h => by
      simp only [refsOfProperties, List.mem_append] at h
      simp only [ValidProperties]
      refine and_congr (forall_congr' fun v => imp_congr_right fun _ => ?_) ?_
      · exact schema.valid_congr v fun name hname => h name (Or.inl hname)
      · exact validProperties_congr properties value fun name hname => h name (Or.inr hname)

theorem validOne_congr {refer refer' : Name → Json → Prop} :
    ∀ (schemas : List (Schema Name)) (value : Json),
      (∀ name ∈ refsOfAll schemas, ∀ v, refer name v ↔ refer' name v) →
        (ValidOne refer schemas value ↔ ValidOne refer' schemas value)
  | [], _, _ => by simp only [ValidOne]
  | schema :: schemas, value, h => by
      simp only [refsOfAll, List.mem_append] at h
      have hschema := schema.valid_congr value fun name hname => h name (Or.inl hname)
      have hnone := validNone_congr schemas value fun name hname => h name (Or.inr hname)
      have hone := validOne_congr schemas value fun name hname => h name (Or.inr hname)
      simp only [ValidOne, hschema, hnone, hone]

theorem validNone_congr {refer refer' : Name → Json → Prop} :
    ∀ (schemas : List (Schema Name)) (value : Json),
      (∀ name ∈ refsOfAll schemas, ∀ v, refer name v ↔ refer' name v) →
        (ValidNone refer schemas value ↔ ValidNone refer' schemas value)
  | [], _, _ => by simp only [ValidNone]
  | schema :: schemas, value, h => by
      simp only [refsOfAll, List.mem_append] at h
      have hschema := schema.valid_congr value fun name hname => h name (Or.inl hname)
      have hnone := validNone_congr schemas value fun name hname => h name (Or.inr hname)
      simp only [ValidNone, hschema, hnone]

theorem validAll_congr {refer refer' : Name → Json → Prop} :
    ∀ (schemas : List (Schema Name)) (value : Json),
      (∀ name ∈ refsOfAll schemas, ∀ v, refer name v ↔ refer' name v) →
        (ValidAll refer schemas value ↔ ValidAll refer' schemas value)
  | [], _, _ => by simp only [ValidAll]
  | schema :: schemas, value, h => by
      simp only [refsOfAll, List.mem_append] at h
      have hschema := schema.valid_congr value fun name hname => h name (Or.inl hname)
      have hall := validAll_congr schemas value fun name hname => h name (Or.inr hname)
      simp only [ValidAll, hschema, hall]

end

namespace Document

variable (doc : Document Name)

/-- Deeper references than the rank of a definition change nothing. -/
theorem resolve_congr {depth depth' : Nat} {name : Name} (hdepth : doc.rank name < depth)
    (hdepth' : doc.rank name < depth') (value : Json) :
    doc.resolve depth name value ↔ doc.resolve depth' name value := by
  induction depth generalizing depth' name value with
  | zero => exact absurd hdepth (Nat.not_lt_zero _)
  | succ depth ih =>
      cases depth' with
      | zero => exact absurd hdepth' (Nat.not_lt_zero _)
      | succ depth' =>
          rw [resolve, resolve]
          apply Schema.valid_congr
          intro other hother v
          have hrank := doc.acyclic name other hother
          exact ih (by omega) (by omega) v

/-- So a definition means what it says. -/
theorem validDef_iff (name : Name) (value : Json) :
    doc.ValidDef name value ↔ (doc.defs name).Valid doc.ValidDef value := by
  rw [ValidDef, resolve]
  apply Schema.valid_congr
  intro other hother v
  exact doc.resolve_congr (doc.acyclic name other hother) (Nat.lt_succ_self _) v

end Document

/-! Rules for the keywords -/

variable {refer : Name → Json → Prop} {value : Json}

/-- Of schemas that exclude each other, exactly one holds as soon as one does. -/
theorem validOne_iff {schemas : List (Schema Name)}
    (hexclusive : schemas.Pairwise fun schema schema' =>
      schema.Valid refer value → ¬ schema'.Valid refer value) :
    ValidOne refer schemas value ↔ ∃ schema ∈ schemas, schema.Valid refer value := by
  induction schemas with
  | nil => simp [ValidOne]
  | cons schema schemas ih =>
      rw [List.pairwise_cons] at hexclusive
      obtain ⟨hfirst, hrest⟩ := hexclusive
      simp only [ValidOne, ih hrest, List.mem_cons, exists_eq_or_imp]
      have hnone : schema.Valid refer value → ValidNone refer schemas value := by
        intro hvalid
        have hothers := fun schema' h => hfirst schema' h hvalid
        clear ih hrest hfirst
        induction schemas with
        | nil => trivial
        | cons schema' schemas ih =>
            refine ⟨hothers schema' List.mem_cons_self, ih fun other hother => ?_⟩
            exact hothers other (List.mem_cons_of_mem _ hother)
      constructor
      · rintro (⟨hvalid, -⟩ | ⟨-, hexists⟩)
        · exact Or.inl hvalid
        · exact Or.inr hexists
      · rintro (hvalid | hexists)
        · exact Or.inl ⟨hvalid, hnone hvalid⟩
        · refine Or.inr ⟨fun hvalid => ?_, hexists⟩
          obtain ⟨schema', hmem, hvalid'⟩ := hexists
          exact hfirst schema' hmem hvalid hvalid'

/-- The value is that of the keyword. -/
@[simp]
theorem same_string {s : JsString} : (Json.string s).Same value ↔ value = .string s := by
  constructor
  · rintro ⟨⟩
    rfl
  · rintro rfl
    exact .string s

@[simp]
theorem same_bool {b : Bool} : (Json.bool b).Same value ↔ value = .bool b := by
  constructor
  · rintro ⟨⟩
    rfl
  · rintro rfl
    exact .bool b

@[simp]
theorem same_number {n : JsNumber} : (Json.number n).Same value ↔ value = .number n := by
  constructor
  · rintro ⟨⟩
    rfl
  · rintro rfl
    exact .number n

@[simp]
theorem has_string : SimpleType.string.Has value ↔ ∃ s, value = .string s := by
  cases value <;> simp [SimpleType.Has]

@[simp]
theorem has_number : SimpleType.number.Has value ↔ ∃ q, value = .number (.finite q) := by
  rcases value with _ | _ | ⟨_ | _ | _⟩ | _ | _ | _ <;> simp [SimpleType.Has]

@[simp]
theorem has_integer :
    SimpleType.integer.Has value ↔ ∃ q, value = .number (.finite q) ∧ q.den = 1 := by
  rcases value with _ | _ | ⟨_ | _ | _⟩ | _ | _ | _ <;> simp [SimpleType.Has]

@[simp]
theorem has_boolean : SimpleType.boolean.Has value ↔ ∃ b, value = .bool b := by
  cases value <;> simp [SimpleType.Has]

@[simp]
theorem has_object : SimpleType.object.Has value ↔ ∃ members, value = .object members := by
  cases value <;> simp [SimpleType.Has]

@[simp]
theorem has_array : SimpleType.array.Has value ↔ ∃ items, value = .array items := by
  cases value <;> simp [SimpleType.Has]

@[simp]
theorem valid_type {type : SimpleType} :
    (Schema.type [type] : Schema Name).Valid refer value ↔ type.Has value := by
  simp [Schema.Valid]

@[simp]
theorem valid_all {keywords : List (Schema Name)} :
    (Schema.all keywords).Valid refer value ↔
      ∀ keyword ∈ keywords, keyword.Valid refer value := by
  rw [Schema.Valid]
  induction keywords with
  | nil => simp [ValidAll]
  | cons keyword keywords ih => simp [ValidAll, ih]

/-- A schema object that starts with a type. -/
theorem valid_of_type {type : SimpleType} {keywords : List (Schema Name)} :
    (Schema.all (.type [type] :: keywords)).Valid refer value ↔
      type.Has value ∧ ∀ keyword ∈ keywords, keyword.Valid refer value := by
  rw [valid_all, List.forall_mem_cons, valid_type]

theorem valid_text {keywords : List (Schema Name)} :
    (Schema.all (.type [.string] :: keywords)).Valid refer value ↔
      ∃ s, value = .string s ∧ ∀ keyword ∈ keywords, keyword.Valid refer (.string s) := by
  rw [valid_of_type, has_string]
  constructor
  · rintro ⟨⟨s, rfl⟩, hkeywords⟩
    exact ⟨s, rfl, hkeywords⟩
  · rintro ⟨s, rfl, hkeywords⟩
    exact ⟨⟨s, rfl⟩, hkeywords⟩

theorem valid_array {keywords : List (Schema Name)} :
    (Schema.all (.type [.array] :: keywords)).Valid refer value ↔
      ∃ items, value = .array items ∧ ∀ keyword ∈ keywords, keyword.Valid refer (.array items) := by
  rw [valid_of_type, has_array]
  constructor
  · rintro ⟨⟨items, rfl⟩, hkeywords⟩
    exact ⟨items, rfl, hkeywords⟩
  · rintro ⟨items, rfl, hkeywords⟩
    exact ⟨⟨items, rfl⟩, hkeywords⟩

/-- An object with the properties of the schema and no others. -/
theorem valid_closedObject {names : List JsString} {properties : List (JsString × Schema Name)} :
    (Schema.all [.type [.object], .required names, .closed properties]).Valid refer value ↔
      (∃ members, value = .object members) ∧ (∀ name ∈ names, (value.member? name).isSome) ∧
        (∀ key, (value.member? key).isSome → key ∈ properties.map Prod.fst) ∧
        ValidProperties refer properties value := by
  rw [valid_of_type, has_object]
  simp only [List.forall_mem_cons, Schema.Valid]
  constructor
  · rintro ⟨⟨members, rfl⟩, hrequired, hclosed, -⟩
    exact ⟨⟨members, rfl⟩, hrequired members rfl, hclosed members rfl⟩
  · rintro ⟨hobject, hrequired, hclosed⟩
    refine ⟨hobject, fun _ _ => hrequired, fun _ _ => hclosed, ?_⟩
    exact fun _ h => absurd h List.not_mem_nil

theorem validProperties_append (properties properties' : List (JsString × Schema Name)) :
    ValidProperties refer (properties ++ properties') value ↔
      ValidProperties refer properties value ∧ ValidProperties refer properties' value := by
  induction properties with
  | nil => simp [ValidProperties]
  | cons property properties ih => simp [ValidProperties, ih, and_assoc]

end JsonSchema

end AnvilRun
