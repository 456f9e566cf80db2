import AnvilRun.FormSchema.Defaults
import AnvilRun.FormSchema.PublishedSchema

namespace AnvilRun.PublishedSchema

open AnvilRun.Form
open AnvilRun.JsonSchema
open AnvilRun.ValidationPrimitives
open JsString

/-- The codes of `x-runtimeOnlyRules`. -/
def runtimeOnlyCodes : List FormSchemaIssueCode :=
  [.fieldNameDuplicate, .defaultValueNotAllowed, .optionValueDuplicate, .constraintRangeInvalid,
    .constraintInvalid, .defaultValueConstraintViolation, .fieldLabelInvalid, .propertyTypeInvalid,
    .optionLabelInvalid, .schemaLayoutMixed, .fieldTypeUnknown]

/-- How the issues that a check finds go together with what the published schema says: without
issues the value is valid up to what `rest` says, and in a valid value only issues that are left
to the validator are found. -/
structure Agrees (issues : List FormSchemaIssue) (valid rest : Prop) : Prop where
  accepted : issues = [] → (valid ↔ rest)
  rejected : valid → ∀ issue ∈ issues, issue.code ∈ runtimeOnlyCodes

abbrev ValidDef : SchemaDef → Json → Prop := formSchemaJsonSchema.ValidDef

/-- A property that is there is valid. -/
def PropertyValid (field : Json) (property : String) (schema : Schema SchemaDef) : Prop :=
  ∀ value, field.member? (ofString property) = some value → schema.Valid ValidDef value

variable {rt : JsRuntime} {field value : Json} {index : Nat} {seenNames : List (JsString × Nat)}
  {context : FormSchemaIssueContext} {issues issues' : List FormSchemaIssue}
  {valid valid' rest rest' : Prop}

/-! Checks one after the other -/

theorem Agrees.nil : Agrees [] True True :=
  ⟨fun _ => Iff.rfl, fun _ _ h => absurd h List.not_mem_nil⟩

theorem Agrees.append (h : Agrees issues valid rest) (h' : Agrees issues' valid' rest') :
    Agrees (issues ++ issues') (valid ∧ valid') (rest ∧ rest') where
  accepted := by
    intro hnil
    rw [List.append_eq_nil_iff] at hnil
    exact and_congr (h.accepted hnil.1) (h'.accepted hnil.2)
  rejected := by
    rintro ⟨hvalid, hvalid'⟩ issue hmem
    rcases List.mem_append.mp hmem with hmem | hmem
    · exact h.rejected hvalid issue hmem
    · exact h'.rejected hvalid' issue hmem

theorem Agrees.congr (h : Agrees issues valid rest) (hvalid : valid' ↔ valid)
    (hrest : rest' ↔ rest) : Agrees issues valid' rest' where
  accepted := fun hnil => hvalid.trans ((h.accepted hnil).trans hrest.symm)
  rejected := fun hvalid' => h.rejected (hvalid.mp hvalid')

theorem Agrees.and (h : Agrees issues valid True) (h' : Agrees issues' valid' True) :
    Agrees (issues ++ issues') (valid ∧ valid') True :=
  (h.append h').congr Iff.rfl (and_self_iff).symm

/-- The schema says all that the check is about. -/
theorem Agrees.of_iff (h : issues = [] ↔ valid) : Agrees issues valid True where
  accepted := fun hnil => iff_of_true (h.mp hnil) trivial
  rejected := by
    intro hvalid issue hmem
    rw [h.mpr hvalid] at hmem
    exact absurd hmem List.not_mem_nil

/-- All issues of the check are left to the validator. -/
theorem Agrees.of_codes (hvalid : issues = [] → valid)
    (hcodes : ∀ issue ∈ issues, issue.code ∈ runtimeOnlyCodes) : Agrees issues valid True where
  accepted := fun hnil => iff_of_true (hvalid hnil) trivial
  rejected := fun _ => hcodes

/-- One issue that the schema does not exclude. -/
theorem Agrees.of_issue {issue : FormSchemaIssue} (hcode : issue.code ∈ runtimeOnlyCodes) :
    Agrees [issue] valid True :=
  .of_codes (fun hnil => absurd hnil (List.cons_ne_nil _ _)) (by simpa using hcode)

theorem Agrees.snoc {issue : FormSchemaIssue} (h : Agrees issues valid True)
    (hcode : issue.code ∈ runtimeOnlyCodes) : Agrees (issues ++ [issue]) valid True :=
  (h.and (Agrees.of_issue hcode)).congr (iff_of_eq (and_true valid)).symm Iff.rfl

/-- The issues of the children of a tab, seen from the template. -/
theorem Agrees.children (h : Agrees issues valid rest) (tab : Nat) :
    Agrees (issues.map (childIssue tab)) valid rest where
  accepted := fun hnil => h.accepted (List.map_eq_nil_iff.mp hnil)
  rejected := by
    intro hvalid issue hmem
    obtain ⟨original, horiginal, rfl⟩ := List.mem_map.mp hmem
    exact h.rejected hvalid original horiginal

/-! The definitions -/

theorem validDef_iff (name : SchemaDef) (value : Json) :
    ValidDef name value ↔ (schemaDefs name).Valid ValidDef value :=
  formSchemaJsonSchema.validDef_iff name value

theorem validDef_fieldName :
    ValidDef .fieldName value ↔ ∃ s, value = .string s ∧ matchesFormFieldName s = true := by
  rw [validDef_iff, schemaDefs, fieldName, valid_text]
  simp [Schema.Valid]

theorem validDef_fieldLabel :
    ValidDef .fieldLabel value ↔ ∃ s, value = .string s ∧ 1 ≤ codePoints s := by
  rw [validDef_iff, schemaDefs, fieldLabel, valid_text]
  simp [Schema.Valid]

theorem validDef_plainText : ValidDef .plainText value ↔ ∃ s, value = .string s := by
  rw [validDef_iff, schemaDefs, plainText, valid_type, has_string]

theorem validDef_optionValue :
    ValidDef .optionValue value ↔ (asOptionValue (some value)).isSome := by
  rw [validDef_iff, schemaDefs, optionValueDef]
  simp only [Schema.Valid, List.mem_cons, List.not_mem_nil, or_false, exists_eq_or_imp,
    exists_eq_left, has_string, has_number]
  rcases value with _ | _ | ⟨_ | _ | _⟩ | _ | _ | _ <;> simp [asOptionValue]

/-- The known properties are those that an object has. -/
theorem findUnknownProperties_eq_nil {allowed : List JsString} :
    findUnknownProperties value allowed = [] ↔
      ∀ key, (value.member? key).isSome → key ∈ allowed := by
  have hkeys : ∀ key, key ∈ objectKeys value ↔ (value.member? key).isSome := by
    intro key
    cases value with
    | object members =>
        simp only [objectKeys, List.mem_eraseDups, Json.member?, Option.isSome_map,
          List.find?_isSome, List.mem_reverse, decide_eq_true_eq, List.mem_map]
    | _ => simp [objectKeys, Json.member?]
  simp only [findUnknownProperties, List.filter_eq_nil_iff, hkeys]
  simp

theorem isPlainObject_iff : isPlainObject value = true ↔ ∃ members, value = .object members := by
  cases value <;> simp [isPlainObject]

theorem valid_nodeSchema {type : JsString} {required : List JsString}
    {properties : List (JsString × Schema SchemaDef)} :
    (nodeSchema type required properties).Valid ValidDef field ↔
      isPlainObject field = true ∧ (∀ name ∈ required, (field.member? name).isSome) ∧
        findUnknownProperties field (ofString "type" :: properties.map Prod.fst) = [] ∧
        (∀ v, field.member? (ofString "type") = some v → v = .string type) ∧
        ValidProperties ValidDef properties field := by
  rw [findUnknownProperties_eq_nil, isPlainObject_iff, nodeSchema, valid_closedObject]
  simp only [List.map_cons, ValidProperties, Schema.Valid, same_string]

/-! The checks of a field -/

theorem codePoints_pos {s : JsString} (h : s ≠ []) : 1 ≤ codePoints s := by
  induction s using codePoints.induct with
  | case1 => exact absurd rfl h
  | case2 u => simp [codePoints]
  | case3 u v s hpair ih => simp [codePoints, hpair]
  | case4 u v s hpair ih => simp [codePoints, hpair]

theorem codePoints_le_length (s : JsString) : codePoints s ≤ s.length := by
  induction s using codePoints.induct with
  | case1 => simp [codePoints]
  | case2 u => simp [codePoints]
  | case3 u v s hpair ih =>
      simp only [codePoints, hpair, if_true, List.length_cons]
      omega
  | case4 u v s hpair ih =>
      simp only [codePoints, hpair, Bool.false_eq_true, if_false, List.length_cons] at ih ⊢
      omega

/-- What the schema says about a property that has to be there. -/
def RequiredValid (field : Json) (property : String) (schema : Schema SchemaDef) : Prop :=
  (field.member? (ofString property)).isSome ∧ PropertyValid field property schema

theorem requiredValid_iff {property : String} {schema : Schema SchemaDef} :
    RequiredValid field property schema ↔
      ∃ v, prop field property = some v ∧ schema.Valid ValidDef v := by
  rw [RequiredValid, PropertyValid, prop, Option.isSome_iff_exists]
  constructor
  · rintro ⟨⟨v, hv⟩, hvalid⟩
    exact ⟨v, hv, hvalid v hv⟩
  · rintro ⟨v, hv, hvalid⟩
    refine ⟨⟨v, hv⟩, fun other hother => ?_⟩
    rw [← Option.some.inj (hv.symm.trans hother)]
    exact hvalid

/-- A check that reads one property. -/
theorem propertyValid_iff {property : String} {schema : Schema SchemaDef} :
    PropertyValid field property schema ↔
      prop field property = none ∨ ∃ v, prop field property = some v ∧ schema.Valid ValidDef v := by
  rw [PropertyValid, prop]
  cases field.member? (ofString property) with
  | none => simp
  | some v => simp

theorem asString_eq_some {v : Option Json} {s : JsString} :
    asString v = some s ↔ v = some (.string s) := by
  rcases v with _ | _ | _ | _ | _ | _ | _ <;> simp [asString]

theorem agrees_validateFieldName :
    Agrees (validateFieldName field index seenNames).2.2
      (RequiredValid field "name" (.ref .fieldName)) True := by
  refine ⟨fun hnil => iff_of_true ?_ trivial, fun hvalid issue hmem => ?_⟩
  · obtain ⟨name, hname, hmatches, -⟩ := validateFieldName_accepted hnil
    rw [requiredValid_iff]
    refine ⟨.string name, asString_eq_some.mp hname, ?_⟩
    rw [Schema.Valid, validDef_fieldName]
    exact ⟨name, rfl, hmatches⟩
  · obtain ⟨v, hv, hvalid⟩ := requiredValid_iff.mp hvalid
    rw [Schema.Valid, validDef_fieldName] at hvalid
    obtain ⟨name, rfl, hmatches⟩ := hvalid
    rw [validateFieldName, hv] at hmem
    simp only [asString, hmatches, Bool.true_eq_false, if_false] at hmem
    split at hmem
    · obtain rfl := List.mem_singleton.mp hmem
      simp [runtimeOnlyCodes, propertyIssue]
    · exact absurd hmem List.not_mem_nil

theorem agrees_validateFieldLabel :
    Agrees (validateFieldLabel field index context)
      (RequiredValid field "label" (.ref .fieldLabel)) True := by
  simp only [requiredValid_iff, Schema.Valid, validDef_fieldLabel, validateFieldLabel]
  cases hlabel : asString (prop field "label") with
  | none =>
      refine .of_iff (iff_of_false (List.cons_ne_nil _ _) ?_)
      rintro ⟨v, hv, s, rfl, -⟩
      rw [asString_eq_some.mpr hv] at hlabel
      cases hlabel
  | some s =>
      refine .of_codes (fun hnil => ⟨_, asString_eq_some.mp hlabel, s, rfl, ?_⟩)
        fun issue hmem => ?_
      · apply codePoints_pos
        rintro rfl
        cases hnil
      · dsimp only at hmem
        split at hmem
        · exact absurd hmem List.not_mem_nil
        · obtain rfl := List.mem_singleton.mp hmem
          simp [runtimeOnlyCodes, propertyIssue]

theorem agrees_validateOptionalBoolean (property : String) :
    Agrees (validateOptionalBoolean field index context property)
      (PropertyValid field property (.type [.boolean])) True := by
  apply Agrees.of_iff
  rw [propertyValid_iff, validateOptionalBoolean]
  cases prop field property with
  | none => simp
  | some v => cases v <;> simp

theorem valid_of_isPlainText (h : isPlainText value = true) :
    (Schema.ref SchemaDef.plainText).Valid ValidDef value := by
  rw [Schema.Valid, validDef_plainText]
  cases value with
  | string s => exact ⟨s, rfl⟩
  | _ => cases h

theorem agrees_validateOptionalText (property : String) :
    Agrees (validateOptionalText field index context property)
      (PropertyValid field property (.ref .plainText)) True := by
  rw [propertyValid_iff, validateOptionalText]
  cases prop field property with
  | none => exact .of_iff (by simp)
  | some v =>
      dsimp only
      split
      · rename_i htext
        exact .of_iff (iff_of_true rfl (Or.inr ⟨v, rfl, valid_of_isPlainText htext⟩))
      · exact .of_issue (by simp [runtimeOnlyCodes, propertyIssue])

theorem agrees_validateCommonOptionalProperties :
    Agrees (validateCommonOptionalProperties field index context)
      ((PropertyValid field "required" (.type [.boolean]) ∧
        PropertyValid field "disabled" (.type [.boolean]) ∧
        PropertyValid field "sensitive" (.type [.boolean])) ∧
        PropertyValid field "placeholder" (.ref .plainText) ∧
        PropertyValid field "description" (.ref .plainText)) True := by
  rw [validateCommonOptionalProperties]
  simp only [List.flatMap_cons, List.flatMap_nil, List.append_nil]
  refine .and (.and ?_ (.and ?_ ?_)) (.and ?_ ?_)
  · exact agrees_validateOptionalBoolean "required"
  · exact agrees_validateOptionalBoolean "disabled"
  · exact agrees_validateOptionalBoolean "sensitive"
  · exact agrees_validateOptionalText "placeholder"
  · exact agrees_validateOptionalText "description"

theorem agrees_validateUnknownProperties {type : FormFieldType} :
    Agrees (validateUnknownProperties field type index context)
      (findUnknownProperties field (formFieldAllowedProperties type) = []) True := by
  apply Agrees.of_iff
  rw [validateUnknownProperties, List.map_eq_nil_iff]

/-! The constraints -/

theorem agrees_readOptionalNumber {property : String} {rule : OptionalNumberRule}
    {schema : Schema SchemaDef}
    (hschema : ∀ q, (rule.integer = true → (JsNumber.finite q).isSafeInteger = true) →
      rule.accepts q = true → schema.Valid ValidDef (.number (.finite q))) :
    Agrees (readOptionalNumber rt field property index context rule).2
      (PropertyValid field property schema) True := by
  rw [propertyValid_iff, readOptionalNumber]
  cases prop field property with
  | none => exact .of_iff (by simp)
  | some v =>
      dsimp only
      cases hnumber : asFiniteNumber (some v) with
      | none => exact .of_issue (by simp [runtimeOnlyCodes, propertyIssue])
      | some q =>
          obtain rfl : v = .number (.finite q) := by
            rcases v with _ | _ | ⟨_ | _ | _⟩ | _ | _ | _ <;> simp [asFiniteNumber] at hnumber
            rw [hnumber]
          dsimp only
          split
          · exact .of_issue (by simp [runtimeOnlyCodes, propertyIssue])
          · rename_i hgood
            refine .of_iff (iff_of_true rfl (Or.inr ⟨_, rfl, hschema q ?_ ?_⟩))
            · intro hinteger
              simp [hinteger] at hgood
              exact hgood.1
            · simp at hgood
              exact hgood.2

theorem agrees_validateRange {lower upper : String} {low high : Option Rat} :
    Agrees (validateRange rt lower upper low high index context) True True := by
  unfold validateRange
  split
  · split
    · exact .of_issue (by simp [runtimeOnlyCodes, propertyIssue])
    · exact .nil
  · exact .nil

theorem valid_nonNegativeLength {q : Rat} (hinteger : (JsNumber.finite q).isSafeInteger = true)
    (hpos : 0 ≤ q) : nonNegativeLength.Valid ValidDef (.number (.finite q)) := by
  rw [nonNegativeLength, valid_of_type, has_integer]
  simp only [JsNumber.isSafeInteger, decide_eq_true_eq] at hinteger
  refine ⟨⟨q, rfl, hinteger.1⟩, ?_⟩
  simp [Schema.Valid, hpos]

theorem agrees_validateLengthConstraints :
    Agrees (validateLengthConstraints rt field index context).2
      ((PropertyValid field "minLength" nonNegativeLength ∧
        PropertyValid field "maxLength" nonNegativeLength) ∧ True) True := by
  have hlength : ∀ q, (nonNegativeInteger.integer = true →
      (JsNumber.finite q).isSafeInteger = true) → nonNegativeInteger.accepts q = true →
      nonNegativeLength.Valid ValidDef (.number (.finite q)) := fun q hinteger haccepts =>
    valid_nonNegativeLength (hinteger rfl) (of_decide_eq_true haccepts)
  exact .and (.and (agrees_readOptionalNumber hlength) (agrees_readOptionalNumber hlength))
    agrees_validateRange

theorem agrees_validateNumberConstraints :
    Agrees (validateNumberConstraints rt field index context).2
      (((PropertyValid field "min" (.type [.number]) ∧
        PropertyValid field "max" (.type [.number])) ∧
        PropertyValid field "step" (.all [.type [.number], .exclusiveMinimum 0])) ∧ True) True := by
  refine .and (.and (.and ?_ ?_) ?_) agrees_validateRange
  · exact agrees_readOptionalNumber fun q _ _ => by simp
  · exact agrees_readOptionalNumber fun q _ _ => by simp
  · apply agrees_readOptionalNumber
    intro q _ haccepts
    have hpos : 0 < q := of_decide_eq_true haccepts
    rw [valid_of_type, has_number]
    simp [Schema.Valid, hpos]

/-- A text whose length in code units is bounded. -/
theorem valid_maxLength {s : JsString} {most : Nat} (h : s.length ≤ most) :
    (Schema.all [.type [.string], .maxLength most] : Schema SchemaDef).Valid ValidDef
      (.string s) := by
  have hlength := (codePoints_le_length s).trans h
  rw [valid_text]
  simp [Schema.Valid, hlength]

theorem agrees_validatePatternConstraint :
    Agrees (validatePatternConstraint rt field index context).2
      (PropertyValid field "pattern"
        (.all [.type [.string], .maxLength formFieldPatternMaxLength])) True := by
  rw [propertyValid_iff, validatePatternConstraint]
  cases prop field "pattern" with
  | none => exact .of_iff (by simp)
  | some v =>
      cases v with
      | string s =>
          dsimp only
          split
          · exact .of_issue (by simp [runtimeOnlyCodes, propertyIssue])
          · rename_i hlength
            split
            · refine .of_iff (iff_of_true rfl (Or.inr ⟨_, rfl, ?_⟩))
              exact valid_maxLength (Nat.le_of_not_lt hlength)
            · exact .of_issue (by simp [runtimeOnlyCodes, propertyIssue])
      | _ => exact .of_issue (by simp [runtimeOnlyCodes, propertyIssue])

theorem agrees_validateSensitiveConstraint :
    Agrees (validateSensitiveConstraint field index context)
      (prop field "sensitive" ≠ some (.bool false)) True := by
  apply Agrees.of_iff
  rw [validateSensitiveConstraint]
  split
  · rename_i hfalse
    simp [hfalse]
  · rename_i hother
    exact iff_of_true rfl hother

/-! Files -/

theorem valid_of_validateExtensions {extensionIndex : Nat} {seen : List JsString}
    {values : List Json}
    (h : validateExtensions rt index context extensionIndex seen values = []) :
    (∀ v ∈ values, (Schema.all [.type [.string], .pattern extensionPattern]).Valid ValidDef v) ∧
      values.Pairwise (fun v w => ¬ v.Same w) ∧
      ∀ v ∈ values, ∀ s, v = .string s → rt.toLowerCase s ∉ seen := by
  induction values generalizing extensionIndex seen with
  | nil => simp
  | cons v values ih =>
      cases v with
      | string s =>
          simp only [validateExtensions, asString] at h
          split at h
          · rename_i hgood
            simp only [Bool.and_eq_true, Bool.not_eq_true', List.contains_eq_mem,
              decide_eq_false_iff_not] at hgood
            obtain ⟨hvalid, hpairwise, hnew⟩ := ih h
            simp only [List.forall_mem_cons, List.pairwise_cons]
            refine ⟨⟨?_, hvalid⟩, ⟨fun w hw hsame => ?_, hpairwise⟩, fun s' hs' => ?_,
              fun w hw s' hs' hmem => ?_⟩
            · rw [valid_text]
              simp [Schema.Valid, extensionPattern, hgood.1]
            · exact hnew w hw s (same_string.mp hsame) List.mem_cons_self
            · cases hs'
              exact hgood.2
            · exact hnew w hw s' hs' (List.mem_cons_of_mem _ hmem)
          · exact absurd h (List.cons_ne_nil _ _)
      | _ => exact absurd h (List.cons_ne_nil _ _)

theorem code_of_validateExtensions {extensionIndex : Nat} {seen : List JsString}
    {values : List Json} :
    ∀ issue ∈ validateExtensions rt index context extensionIndex seen values,
      issue.code ∈ runtimeOnlyCodes := by
  induction values generalizing extensionIndex seen with
  | nil => exact fun _ h => absurd h List.not_mem_nil
  | cons v values ih =>
      have hextension : (validateExtensions.extensionIssue index context extensionIndex).code ∈
          runtimeOnlyCodes := by
        simp [runtimeOnlyCodes, validateExtensions.extensionIssue]
      rw [validateExtensions]
      split
      · split
        · exact ih
        · exact List.forall_mem_cons.mpr ⟨hextension, ih⟩
      · exact List.forall_mem_cons.mpr ⟨hextension, ih⟩

theorem agrees_validateAllowedExtensions :
    Agrees (validateAllowedExtensions rt field index context)
      (RequiredValid field "allowedExtensions" (.all [.type [.array], .minItems 1, .maxItems 16,
        .uniqueItems, .items (.all [.type [.string], .pattern extensionPattern])])) True := by
  have hlength : (validateAllowedExtensions.lengthIssue index context).code ∈ runtimeOnlyCodes := by
    simp [runtimeOnlyCodes, validateAllowedExtensions.lengthIssue, propertyIssue]
  rw [requiredValid_iff, validateAllowedExtensions]
  split
  · rename_i items hitems
    split
    · exact .of_issue hlength
    · rename_i hbounds
      refine .of_codes (fun hnil => ?_) code_of_validateExtensions
      obtain ⟨hvalid, hpairwise, -⟩ := valid_of_validateExtensions hnil
      refine ⟨_, hitems, ?_⟩
      rw [valid_array]
      refine ⟨items, rfl, ?_⟩
      simp only [List.forall_mem_cons, Schema.Valid, Json.array.injEq, forall_eq']
      exact ⟨by omega, by omega, hpairwise, hvalid, fun _ h => absurd h List.not_mem_nil⟩
  · exact .of_issue hlength

theorem agrees_validateFileNamePattern :
    Agrees (validateFileNamePattern rt field index context)
      (PropertyValid field "fileNamePattern"
        (.all [.type [.string], .maxLength formFileNamePatternMaxLength])) True := by
  rw [propertyValid_iff, validateFileNamePattern]
  cases prop field "fileNamePattern" with
  | none => exact .of_iff (by simp)
  | some v =>
      cases v with
      | string s =>
          dsimp only
          split
          · exact .of_issue (by simp [runtimeOnlyCodes, propertyIssue])
          · rename_i hlength
            split
            · exact .of_issue (by simp [runtimeOnlyCodes, propertyIssue])
            · split
              · exact .of_issue (by simp [runtimeOnlyCodes, propertyIssue])
              · refine .of_iff (iff_of_true rfl (Or.inr ⟨_, rfl, ?_⟩))
                exact valid_maxLength (Nat.le_of_not_lt hlength)
      | _ => exact .of_issue (by simp [runtimeOnlyCodes, propertyIssue])

theorem agrees_validateFileConstraints :
    Agrees (validateFileConstraints rt field index context)
      ((RequiredValid field "allowedExtensions" (.all [.type [.array], .minItems 1, .maxItems 16,
        .uniqueItems, .items (.all [.type [.string], .pattern extensionPattern])]) ∧
        PropertyValid field "fileNamePattern"
          (.all [.type [.string], .maxLength formFileNamePatternMaxLength])) ∧
        PropertyValid field "maxSizeBytes"
          (.all [.type [.integer], .minimum 1, .maximum formFileHardMaxBytes])) True := by
  refine .and (.and agrees_validateAllowedExtensions agrees_validateFileNamePattern) ?_
  apply agrees_readOptionalNumber
  intro q hinteger haccepts
  have hbounds : 1 ≤ q ∧ q ≤ formFileHardMaxBytes := of_decide_eq_true haccepts
  have hden := hinteger rfl
  simp only [JsNumber.isSafeInteger, decide_eq_true_eq] at hden
  rw [valid_of_type, has_integer]
  refine ⟨⟨q, rfl, hden.1⟩, ?_⟩
  simp [Schema.Valid, hbounds]

/-! Options -/

/-- Equal objects have equal members. -/
theorem same_member {value' : Json} (h : value.Same value') {key : JsString} {v : Json}
    (hv : value.member? key = some v) : ∃ v', value'.member? key = some v' ∧ v.Same v' := by
  cases h with
  | object hkeys hvalues =>
      have hsome := hkeys key
      rw [hv, Option.isSome_some, eq_comm, Option.isSome_iff_exists] at hsome
      obtain ⟨v', hv'⟩ := hsome
      exact ⟨v', hv', hvalues key v v' hv hv'⟩
  | _ => cases hv

/-- Two values of options are the same for a JSON Schema only if they are equal. -/
theorem eq_of_same {value' : Json} (h : value.Same value')
    (hvalue : (asOptionValue (some value)).isSome) : value' = value := by
  rcases value with _ | _ | ⟨_ | _ | _⟩ | _ | _ | _ <;> simp_all [asOptionValue]

theorem validDef_option :
    ValidDef .option value ↔ isPlainObject value = true ∧
      findUnknownProperties value [ofString "label", ofString "value"] = [] ∧
      (∃ s, prop value "label" = some (.string s) ∧ 1 ≤ codePoints s) ∧
      (asOptionValue (prop value "value")).isSome := by
  have hlabel : (∃ s, prop value "label" = some (.string s) ∧ 1 ≤ codePoints s) ↔
      RequiredValid value "label" (.all [.type [.string], .minLength 1]) := by
    rw [requiredValid_iff]
    constructor
    · rintro ⟨s, hs, hlength⟩
      exact ⟨_, hs, valid_text.mpr ⟨s, rfl, by simpa [Schema.Valid] using hlength⟩⟩
    · rintro ⟨v, hv, hvalid⟩
      obtain ⟨s, rfl, hlength⟩ := valid_text.mp hvalid
      exact ⟨s, hv, by simpa [Schema.Valid] using hlength⟩
  have hvalue : (asOptionValue (prop value "value")).isSome ↔
      RequiredValid value "value" (.ref .optionValue) := by
    rw [requiredValid_iff]
    simp only [Schema.Valid, validDef_optionValue]
    cases prop value "value" with
    | none => simp [asOptionValue]
    | some v => simp
  rw [hlabel, hvalue, validDef_iff, schemaDefs, option, valid_closedObject, isPlainObject_iff,
    findUnknownProperties_eq_nil]
  simp only [RequiredValid, PropertyValid, List.map_cons, List.map_nil, List.forall_mem_cons,
    ValidProperties]
  constructor
  · rintro ⟨hobject, ⟨hhasLabel, hhasValue, -⟩, hknown, hlabel, hvalue, -⟩
    exact ⟨hobject, hknown, ⟨hhasLabel, hlabel⟩, hhasValue, hvalue⟩
  · rintro ⟨hobject, hknown, ⟨hhasLabel, hlabel⟩, hhasValue, hvalue⟩
    refine ⟨hobject, ⟨hhasLabel, hhasValue, ?_⟩, hknown, hlabel, hvalue, trivial⟩
    exact fun _ h => absurd h List.not_mem_nil

theorem agrees_optionLabel {path : List PathSegment} :
    Agrees (if isNonEmptyPlainText ((prop value "label").getD .null) then [] else
        [⟨.optionLabelInvalid, path, ofString "选项 label 必须是非空纯文本，不允许空白串、控制字符或 HTML/XML 标签",
          context⟩])
      (∃ s, prop value "label" = some (.string s) ∧ 1 ≤ codePoints s) True := by
  split
  · rename_i htext
    refine .of_iff (iff_of_true rfl ?_)
    rcases hlabel : prop value "label" with _ | _ | _ | _ | s | _ | _ <;> rw [hlabel] at htext
    case some.string =>
      refine ⟨s, rfl, codePoints_pos ?_⟩
      rintro rfl
      cases htext
    all_goals cases htext
  · exact .of_issue (by simp [runtimeOnlyCodes])

theorem agrees_validateOption {optionIndex : Nat} {seenValues : List (FormFieldOptionValue × Nat)} :
    Agrees (validateOption index optionIndex context seenValues value).2 (ValidDef .option value)
      True := by
  rw [validDef_option, validateOption]
  split
  · rename_i hobject
    exact .of_iff (iff_of_false (List.cons_ne_nil _ _) (by simp [hobject]))
  · rename_i hobject
    dsimp only
    cases asOptionValue (prop value "value") with
    | none => exact .of_iff (iff_of_false (by simp) (by simp))
    | some v =>
        have hvalid : (isPlainObject value = true ∧
            findUnknownProperties value [ofString "label", ofString "value"] = [] ∧
            (∃ s, prop value "label" = some (.string s) ∧ 1 ≤ codePoints s) ∧
            (some v).isSome) ↔
            findUnknownProperties value [ofString "label", ofString "value"] = [] ∧
              ∃ s, prop value "label" = some (.string s) ∧ 1 ≤ codePoints s := by
          simp [hobject]
        refine Agrees.congr ?_ hvalid Iff.rfl
        dsimp only
        split
        · refine .snoc (.and (.of_iff List.map_eq_nil_iff) agrees_optionLabel) ?_
          simp [runtimeOnlyCodes]
        · exact .and (.of_iff List.map_eq_nil_iff) agrees_optionLabel

/-- The value of an option without issues is a new one. -/
theorem validateOption_fresh {optionIndex : Nat} {seenValues : List (FormFieldOptionValue × Nat)}
    {v : FormFieldOptionValue} (hvalue : asOptionValue (prop value "value") = some v)
    (h : (validateOption index optionIndex context seenValues value).2 = []) :
    v ∉ seenValues.map Prod.fst := by
  rw [validateOption] at h
  split at h
  · exact absurd h (List.cons_ne_nil _ _)
  · rw [hvalue] at h
    dsimp only at h
    split at h
    · exact absurd (List.append_eq_nil_iff.mp h).2 (List.cons_ne_nil _ _)
    · rename_i hnew
      intro hmem
      obtain ⟨seen, hseen, rfl⟩ := List.mem_map.mp hmem
      simpa using List.find?_eq_none.mp hnew seen hseen

theorem agrees_validateOptionsFrom {optionIndex : Nat}
    {seenValues : List (FormFieldOptionValue × Nat)} {options : List Json} :
    Agrees (validateOptionsFrom index context optionIndex seenValues options).2
      (∀ option ∈ options, ValidDef .option option) True := by
  induction options generalizing optionIndex seenValues with
  | nil => exact Agrees.nil.congr (by simp) Iff.rfl
  | cons option options ih =>
      have hoption : Agrees (validateOption index optionIndex context seenValues option).2
          (ValidDef .option option) True := agrees_validateOption
      rw [validateOptionsFrom, List.forall_mem_cons]
      split
      · rename_i v issues hchecked
        rw [hchecked] at hoption
        exact hoption.and ih
      · rename_i issues hchecked
        rw [hchecked] at hoption
        exact hoption.and ih

/-- The options of a list without issues are distinct. -/
theorem distinct_of_validateOptionsFrom {optionIndex : Nat}
    {seenValues : List (FormFieldOptionValue × Nat)} {options : List Json}
    (h : (validateOptionsFrom index context optionIndex seenValues options).2 = []) :
    options.Pairwise (fun option option' => ¬ option.Same option') ∧
      ∀ option ∈ options, ∀ v, asOptionValue (prop option "value") = some v →
        v ∉ seenValues.map Prod.fst := by
  induction options generalizing optionIndex seenValues with
  | nil => simp
  | cons option options ih =>
      rw [validateOptionsFrom] at h
      have hoption : (validateOption index optionIndex context seenValues option).2 = [] := by
        split at h
        · rename_i v issues hchecked
          rw [hchecked]
          exact (List.append_eq_nil_iff.mp h).1
        · rename_i issues hchecked
          rw [hchecked]
          exact (List.append_eq_nil_iff.mp h).1
      obtain ⟨v, hread, hvalue⟩ := validateOption_accepted hoption
      have hchecked : validateOption index optionIndex context seenValues option = (some v, []) :=
        Prod.ext hread hoption
      rw [hchecked] at h
      obtain ⟨hpairwise, hfresh⟩ := ih h
      rw [List.pairwise_cons, List.forall_mem_cons]
      refine ⟨⟨fun other hother hsame => ?_, hpairwise⟩, fun w hw => ?_,
        fun other hother w hw => ?_⟩
      · cases hr : prop option "value" with
        | none =>
            rw [hr] at hvalue
            cases hvalue
        | some r =>
            obtain ⟨r', hr', hequal⟩ := same_member hsame hr
            rw [hr] at hvalue
            rw [← eq_of_same hequal (by simp [hvalue])] at hvalue
            exact hfresh other hother v ((congrArg asOptionValue hr').trans hvalue)
              List.mem_cons_self
      · exact validateOption_fresh hw hoption
      · intro hmem
        exact hfresh other hother w hw (List.mem_cons_of_mem _ hmem)

theorem validDef_options :
    ValidDef .options value ↔ ∃ items, value = .array items ∧ 1 ≤ items.length ∧
      items.Pairwise (fun option option' => ¬ option.Same option') ∧
      ∀ option ∈ items, ValidDef .option option := by
  rw [validDef_iff, schemaDefs, options, valid_array]
  simp [Schema.Valid]

theorem agrees_validateOptions :
    Agrees (validateOptions field index context).2 (RequiredValid field "options" (.ref .options))
      True := by
  rw [requiredValid_iff]
  simp only [Schema.Valid, validDef_options]
  unfold validateOptions
  split
  · exact .of_iff (iff_of_false (List.cons_ne_nil _ _) (by simp [*]))
  · exact .of_iff (iff_of_false (List.cons_ne_nil _ _) (by simp [*]))
  · rename_i option options hoptions
    have hchecked : Agrees (validateOptionsFrom index context 0 [] (option :: options)).2
        (∀ item ∈ option :: options, ValidDef .option item) True := agrees_validateOptionsFrom
    refine ⟨fun hnil => iff_of_true ?_ trivial, fun hvalid => ?_⟩
    · refine ⟨_, hoptions, _, rfl, Nat.succ_pos _, ?_, (hchecked.accepted hnil).mpr trivial⟩
      exact (distinct_of_validateOptionsFrom hnil).1
    · obtain ⟨v, hv, items, rfl, -, -, hitems⟩ := hvalid
      rw [hoptions] at hv
      obtain rfl := Json.array.inj (Option.some.inj hv)
      exact hchecked.rejected hitems
  · rename_i raw hempty hcons hraw
    refine .of_iff (iff_of_false (List.cons_ne_nil _ _) ?_)
    rintro ⟨v, hv, items, rfl, hlength, -⟩
    cases items with
    | nil => exact absurd hlength (Nat.not_succ_le_zero _)
    | cons option options => exact hcons option options (Option.some.inj (hraw.symm.trans hv))

/-! The default value -/

theorem agrees_textDefault {type : FormFieldType} {constraints : FieldConstraints}
    (htype : type = .input ∨ type = .textarea ∨ type = .password) :
    Agrees (validateDefaultValue rt field type index context constraints)
      (PropertyValid field "defaultValue" (.type [.string])) True := by
  rw [propertyValid_iff, validateDefaultValue]
  cases prop field "defaultValue" with
  | none => exact .of_iff (by simp)
  | some v =>
      have hcodes : ∀ s context, ∀ issue ∈
          validateStringDefaultAgainstConstraints rt s index context constraints,
          issue.code ∈ runtimeOnlyCodes := by
        intro s context issue hmem
        simp only [validateStringDefaultAgainstConstraints, List.mem_append] at hmem
        rcases hmem with (hmem | hmem) | hmem
        all_goals
          split at hmem
          · split at hmem <;> simp at hmem
            rw [hmem]
            simp [runtimeOnlyCodes, defaultIssue, propertyIssue]
          · exact absurd hmem List.not_mem_nil
      rcases htype with rfl | rfl | rfl
      all_goals
        cases v with
        | string s => exact .of_codes (fun _ => by simp) (hcodes s _)
        | _ => exact .of_iff (by simp)

theorem agrees_dateDefault {constraints : FieldConstraints} :
    Agrees (validateDefaultValue rt field .date index context constraints)
      (PropertyValid field "defaultValue" (.all [.type [.string], .pattern datePattern])) True := by
  rw [propertyValid_iff, validateDefaultValue]
  cases prop field "defaultValue" with
  | none => exact .of_iff (by simp)
  | some v =>
      cases v with
      | string s =>
          dsimp only
          split
          · rename_i hdate
            refine .of_iff (iff_of_true rfl (Or.inr ⟨_, rfl, ?_⟩))
            have hgroups : (calendarDateGroups s).isSome := by
              rw [isCalendarDateString] at hdate
              split at hdate
              · simp [*]
              · cases hdate
            rw [valid_text]
            simp [Schema.Valid, datePattern, hgroups]
          · exact .of_issue (by simp [runtimeOnlyCodes, defaultIssue, propertyIssue])
      | _ =>
          refine .of_iff (iff_of_false (List.cons_ne_nil _ _) ?_)
          simp only [valid_text]
          simp

theorem agrees_numberDefault {constraints : FieldConstraints} :
    Agrees (validateDefaultValue rt field .number index context constraints)
      (PropertyValid field "defaultValue" (.type [.number])) True := by
  rw [propertyValid_iff, validateDefaultValue]
  cases prop field "defaultValue" with
  | none => exact .of_iff (by simp)
  | some v =>
      rcases v with _ | _ | ⟨_ | _ | q⟩ | _ | _ | _
      case number.finite =>
        refine .of_codes (fun _ => by simp) fun issue hmem => ?_
        simp only [asFiniteNumber, validateDefaultNumber, List.mem_append] at hmem
        rcases hmem with hmem | hmem
        all_goals
          split at hmem
          · split at hmem <;> simp at hmem
            rw [hmem]
            simp [runtimeOnlyCodes, defaultIssue, propertyIssue]
          · exact absurd hmem List.not_mem_nil
      all_goals exact .of_iff (by simp [asFiniteNumber])

theorem agrees_switchDefault {constraints : FieldConstraints} :
    Agrees (validateDefaultValue rt field .switch index context constraints)
      (PropertyValid field "defaultValue" (.type [.boolean])) True := by
  rw [propertyValid_iff, validateDefaultValue]
  apply Agrees.of_iff
  cases prop field "defaultValue" with
  | none => simp
  | some v => cases v <;> simp

theorem code_of_assertDefaultValueInOptions {v : FormFieldOptionValue} {path : List PathSegment}
    {constraints : FieldConstraints} :
    ∀ issue ∈ assertDefaultValueInOptions v value path context constraints,
      issue.code ∈ runtimeOnlyCodes := by
  intro issue hmem
  rw [assertDefaultValueInOptions] at hmem
  split at hmem
  · exact absurd hmem List.not_mem_nil
  · split at hmem <;> simp at hmem
    simp [hmem, runtimeOnlyCodes]

theorem agrees_optionDefault {type : FormFieldType} {constraints : FieldConstraints}
    (htype : type = .select ∨ type = .radio) :
    Agrees (validateDefaultValue rt field type index context constraints)
      (PropertyValid field "defaultValue" (.ref .optionValue)) True := by
  rw [propertyValid_iff, validateDefaultValue]
  simp only [Schema.Valid, validDef_optionValue]
  cases prop field "defaultValue" with
  | none => exact .of_iff (by simp)
  | some v =>
      rcases htype with rfl | rfl
      all_goals
        dsimp only
        cases hoption : asOptionValue (some v) with
        | none => exact .of_iff (iff_of_false (List.cons_ne_nil _ _) (by simp [hoption]))
        | some optionValue =>
            exact .of_codes (fun _ => by simp [hoption]) code_of_assertDefaultValueInOptions

theorem valid_checkboxDefault :
    (Schema.all [.type [.array], .uniqueItems, .items (.ref .optionValue)]).Valid ValidDef value ↔
      ∃ items, value = .array items ∧ items.Pairwise (fun item item' => ¬ item.Same item') ∧
        ∀ item ∈ items, (asOptionValue (some item)).isSome := by
  rw [valid_array]
  simp [Schema.Valid, validDef_optionValue]

/-- Values of options are unique for a JSON Schema when no two of them are equal. -/
theorem pairwise_iff_nodup {items : List Json}
    (h : ∀ item ∈ items, (asOptionValue (some item)).isSome) :
    items.Pairwise (fun item item' => ¬ item.Same item') ↔ items.Nodup := by
  apply List.Pairwise.iff_of_mem
  intro item item' hitem _
  refine not_congr ⟨fun hsame => (eq_of_same hsame (h item hitem)).symm, ?_⟩
  rintro rfl
  have hoption := h item hitem
  rcases item with _ | _ | ⟨_ | _ | _⟩ | _ | _ | _ <;> simp [asOptionValue] at hoption ⊢

theorem agrees_checkboxDefault {constraints : FieldConstraints} :
    Agrees (validateDefaultValue rt field .checkbox index context constraints)
      (PropertyValid field "defaultValue"
        (.all [.type [.array], .uniqueItems, .items (.ref .optionValue)]))
      (∀ items, prop field "defaultValue" = some (.array items) → items.Nodup) := by
  rw [propertyValid_iff, validateDefaultValue]
  simp only [valid_checkboxDefault]
  cases prop field "defaultValue" with
  | none => exact ⟨fun _ => by simp, fun _ _ h => absurd h List.not_mem_nil⟩
  | some v =>
      cases v with
      | array items =>
          refine ⟨fun hnil => ?_, fun hvalid issue hmem => ?_⟩
          · have hoptions : ∀ item ∈ items, (asOptionValue (some item)).isSome := by
              intro item hitem
              obtain ⟨i, hi⟩ := List.mem_iff_getElem?.mp hitem
              have hmem : (item, i) ∈ items.zipIdx := List.mem_zipIdx_iff_getElem?.mpr hi
              have hchecked := List.flatMap_eq_nil_iff.mp hnil _ hmem
              cases hoption : asOptionValue (some item) with
              | none =>
                  simp only [validateDefaultItem, hoption] at hchecked
                  exact absurd hchecked (List.cons_ne_nil _ _)
              | some optionValue => rfl
            constructor
            · rintro (hnone | ⟨w, hw, items', rfl, hpairwise, -⟩) other hother
              · cases hnone
              · cases hw
                cases hother
                exact (pairwise_iff_nodup hoptions).mp hpairwise
            · intro hnodup
              refine Or.inr ⟨_, rfl, items, rfl, ?_, hoptions⟩
              exact (pairwise_iff_nodup hoptions).mpr (hnodup items rfl)
          · obtain hnone | ⟨w, hw, items', rfl, -, hoptions⟩ := hvalid
            · cases hnone
            · cases hw
              obtain ⟨⟨item, i⟩, hitem, hissue⟩ := List.mem_flatMap.mp hmem
              obtain ⟨optionValue, hoption⟩ :=
                Option.isSome_iff_exists.mp (hoptions item (List.fst_mem_of_mem_zipIdx hitem))
              simp only [validateDefaultItem, hoption] at hissue
              exact code_of_assertDefaultValueInOptions issue hissue
      | _ => exact ⟨fun hnil => absurd hnil (List.cons_ne_nil _ _), by simp⟩

theorem agrees_fileDefault {constraints : FieldConstraints} :
    Agrees (validateDefaultValue rt field .file index context constraints)
      (prop field "defaultValue" = none) True := by
  rw [validateDefaultValue]
  apply Agrees.of_iff
  cases prop field "defaultValue" with
  | none => simp
  | some v => simp

end AnvilRun.PublishedSchema
