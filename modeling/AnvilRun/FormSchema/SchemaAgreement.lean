import AnvilRun.FormSchema.SchemaChecks

namespace AnvilRun.PublishedSchema

open AnvilRun.Form
open AnvilRun.JsonSchema
open AnvilRun.ValidationPrimitives
open JsString

variable {rt : JsRuntime} {field : Json} {index : Nat} {seenNames : List (JsString × Nat)}
  {context : FormSchemaIssueContext}

/-! Whole fields -/

/-- What the schema says about the properties of a type, apart from the default value. -/
def ConstraintsValid (field : Json) : FormFieldType → Prop
  | .input => (PropertyValid field "minLength" nonNegativeLength ∧
      PropertyValid field "maxLength" nonNegativeLength) ∧
      PropertyValid field "pattern" (.all [.type [.string], .maxLength formFieldPatternMaxLength])
  | .textarea => PropertyValid field "minLength" nonNegativeLength ∧
      PropertyValid field "maxLength" nonNegativeLength
  | .number => (PropertyValid field "min" (.type [.number]) ∧
      PropertyValid field "max" (.type [.number])) ∧
      PropertyValid field "step" (.all [.type [.number], .exclusiveMinimum 0])
  | .select | .radio | .checkbox => RequiredValid field "options" (.ref .options)
  | .password => prop field "sensitive" ≠ some (.bool false)
  | .switch | .date => True
  | .file => (RequiredValid field "allowedExtensions" (.all [.type [.array], .minItems 1,
      .maxItems 16, .uniqueItems, .items (.all [.type [.string], .pattern extensionPattern])]) ∧
      PropertyValid field "fileNamePattern"
        (.all [.type [.string], .maxLength formFileNamePatternMaxLength])) ∧
      PropertyValid field "maxSizeBytes"
        (.all [.type [.integer], .minimum 1, .maximum formFileHardMaxBytes])

theorem agrees_validateConstraints (type : FormFieldType) :
    Agrees (validateConstraints rt field type index context).2 (ConstraintsValid field type)
      True := by
  cases type with
  | input =>
      exact (agrees_validateLengthConstraints.and agrees_validatePatternConstraint).congr
        (by simp [ConstraintsValid]) Iff.rfl
  | textarea => exact agrees_validateLengthConstraints.congr (by simp [ConstraintsValid]) Iff.rfl
  | number => exact agrees_validateNumberConstraints.congr (by simp [ConstraintsValid]) Iff.rfl
  | select | radio | checkbox => exact agrees_validateOptions
  | password => exact agrees_validateSensitiveConstraint
  | switch | date => exact .nil
  | file => exact agrees_validateFileConstraints

/-- What the schema says about the default value. -/
def DefaultValid (field : Json) : FormFieldType → Prop
  | .input | .textarea | .password => PropertyValid field "defaultValue" (.type [.string])
  | .date => PropertyValid field "defaultValue" (.all [.type [.string], .pattern datePattern])
  | .number => PropertyValid field "defaultValue" (.type [.number])
  | .switch => PropertyValid field "defaultValue" (.type [.boolean])
  | .select | .radio => PropertyValid field "defaultValue" (.ref .optionValue)
  | .checkbox => PropertyValid field "defaultValue"
      (.all [.type [.array], .uniqueItems, .items (.ref .optionValue)])
  | .file => prop field "defaultValue" = none

/-- No option is selected twice by the default. -/
def DistinctDefault (field : Json) (type : FormFieldType) : Prop :=
  type = .checkbox → ∀ items, prop field "defaultValue" = some (.array items) → items.Nodup

theorem agrees_validateDefaultValue (type : FormFieldType) {constraints : FieldConstraints} :
    Agrees (validateDefaultValue rt field type index context constraints) (DefaultValid field type)
      (DistinctDefault field type) := by
  have htrue : type ≠ .checkbox → (DistinctDefault field type ↔ True) := fun hne =>
    iff_true_intro fun heq => absurd heq hne
  cases type with
  | input => exact (agrees_textDefault (Or.inl rfl)).congr Iff.rfl (htrue (by decide))
  | textarea => exact (agrees_textDefault (Or.inr (Or.inl rfl))).congr Iff.rfl (htrue (by decide))
  | password => exact (agrees_textDefault (Or.inr (Or.inr rfl))).congr Iff.rfl (htrue (by decide))
  | date => exact agrees_dateDefault.congr Iff.rfl (htrue (by decide))
  | number => exact agrees_numberDefault.congr Iff.rfl (htrue (by decide))
  | switch => exact agrees_switchDefault.congr Iff.rfl (htrue (by decide))
  | select => exact (agrees_optionDefault (Or.inl rfl)).congr Iff.rfl (htrue (by decide))
  | radio => exact (agrees_optionDefault (Or.inr rfl)).congr Iff.rfl (htrue (by decide))
  | checkbox => exact agrees_checkboxDefault.congr Iff.rfl (by simp [DistinctDefault])
  | file => exact agrees_fileDefault.congr Iff.rfl (htrue (by decide))

/-- What the schema says about the optional properties that all controls have. -/
def OptionalValid (field : Json) : Prop :=
  (PropertyValid field "required" (.type [.boolean]) ∧
    PropertyValid field "disabled" (.type [.boolean]) ∧
    PropertyValid field "sensitive" (.type [.boolean])) ∧
    PropertyValid field "placeholder" (.ref .plainText) ∧
    PropertyValid field "description" (.ref .plainText)

theorem required_iff (names : List JsString) :
    (∀ name ∈ requiredProperties ++ names, (field.member? name).isSome) ↔
      (field.member? (ofString "type")).isSome ∧ (field.member? (ofString "name")).isSome ∧
        (field.member? (ofString "label")).isSome ∧
        ∀ name ∈ names, (field.member? name).isSome := by
  rw [requiredProperties, List.map_cons, List.map_cons, List.map_cons, List.map_nil]
  simp only [List.cons_append, List.nil_append, List.forall_mem_cons]

theorem type_iff {text : JsString} :
    (field.member? (ofString "type")).isSome ∧
      (∀ v, field.member? (ofString "type") = some v → v = .string text) ↔
      prop field "type" = some (.string text) := by
  rw [prop]
  cases field.member? (ofString "type") with
  | none => simp
  | some v => simp

/-- The schema of a control, with the properties that only it has. -/
theorem valid_control {text : JsString} {names : List JsString} (allowed : List JsString)
    {sensitive : Schema SchemaDef} {properties : List (JsString × Schema SchemaDef)}
    (hallowed : allowed.Perm
      (ofString "type" :: (propertiesWith sensitive ++ properties).map Prod.fst)) :
    (nodeSchema text (requiredProperties ++ names) (propertiesWith sensitive ++ properties)).Valid
        ValidDef field ↔
      isPlainObject field = true ∧ prop field "type" = some (.string text) ∧
        (RequiredValid field "name" (.ref .fieldName) ∧
          RequiredValid field "label" (.ref .fieldLabel) ∧
          (PropertyValid field "required" (.type [.boolean]) ∧
            PropertyValid field "disabled" (.type [.boolean]) ∧
            PropertyValid field "sensitive" sensitive) ∧
          PropertyValid field "placeholder" (.ref .plainText) ∧
          PropertyValid field "description" (.ref .plainText)) ∧
        findUnknownProperties field allowed = [] ∧
        (∀ name ∈ names, (field.member? name).isSome) ∧
        ValidProperties ValidDef properties field := by
  have hknown : findUnknownProperties field allowed = [] ↔ findUnknownProperties field
      (ofString "type" :: (propertiesWith sensitive ++ properties).map Prod.fst) = [] := by
    simp only [findUnknownProperties_eq_nil, hallowed.mem_iff]
  rw [valid_nodeSchema, hknown, required_iff, validProperties_append, ← type_iff, propertiesWith]
  simp only [ValidProperties, RequiredValid]
  constructor
  · rintro ⟨hobject, ⟨htype, hname, hlabel, hnames⟩, hall, hconst, ⟨hnameValid, hlabelValid,
      hrequired, hplaceholder, hdescription, hdisabled, hsensitive, -⟩, hproperties⟩
    exact ⟨hobject, ⟨htype, hconst⟩, ⟨⟨hname, hnameValid⟩, ⟨hlabel, hlabelValid⟩,
      ⟨hrequired, hdisabled, hsensitive⟩, hplaceholder, hdescription⟩, hall, hnames, hproperties⟩
  · rintro ⟨hobject, ⟨htype, hconst⟩, ⟨⟨hname, hnameValid⟩, ⟨hlabel, hlabelValid⟩,
      ⟨hrequired, hdisabled, hsensitive⟩, hplaceholder, hdescription⟩, hall, hnames, hproperties⟩
    exact ⟨hobject, ⟨htype, hname, hlabel, hnames⟩, hall, hconst, ⟨hnameValid, hlabelValid,
      hrequired, hplaceholder, hdescription, hdisabled, hsensitive, trivial⟩, hproperties⟩

/-- What the schema says about a field of a type. -/
def ControlValid (field : Json) (type : FormFieldType) : Prop :=
  isPlainObject field = true ∧ prop field "type" = some (.string type.text) ∧
    (RequiredValid field "name" (.ref .fieldName) ∧ RequiredValid field "label" (.ref .fieldLabel) ∧
      OptionalValid field) ∧
    findUnknownProperties field (formFieldAllowedProperties type) = [] ∧
    ConstraintsValid field type ∧ DefaultValid field type

theorem validProperties_cons {property : String} {schema : Schema SchemaDef}
    {properties : List (JsString × Schema SchemaDef)} :
    ValidProperties ValidDef ((ofString property, schema) :: properties) field ↔
      PropertyValid field property schema ∧ ValidProperties ValidDef properties field := Iff.rfl

theorem validProperties_nil : ValidProperties ValidDef [] field ↔ True := Iff.rfl

/-- A control whose schema says what its constraints and its default say. -/
theorem controlValid_iff {type : FormFieldType} {names : List JsString}
    {properties : List (JsString × Schema SchemaDef)}
    (hallowed : (formFieldAllowedProperties type).Perm
      (ofString "type" :: (commonProperties ++ properties).map Prod.fst))
    (hproperties : (∀ name ∈ names, (field.member? name).isSome) ∧
      ValidProperties ValidDef properties field ↔
        ConstraintsValid field type ∧ DefaultValid field type) :
    (nodeSchema type.text (requiredProperties ++ names) (commonProperties ++ properties)).Valid
      ValidDef field ↔ ControlValid field type := by
  rw [commonProperties, valid_control _ hallowed, hproperties]
  exact Iff.rfl

theorem valid_optionControl (type : FormFieldType) {schema : Schema SchemaDef}
    (hallowed : (formFieldAllowedProperties type).Perm (ofString "type" :: (commonProperties ++
      [(ofString "defaultValue", schema), (ofString "options", .ref .options)]).map Prod.fst))
    (hconstraints : ConstraintsValid field type = RequiredValid field "options" (.ref .options))
    (hdefault : DefaultValid field type = PropertyValid field "defaultValue" schema) :
    (nodeSchema type.text (requiredProperties ++ [ofString "options"]) (commonProperties ++
      [(ofString "defaultValue", schema), (ofString "options", .ref .options)])).Valid
      ValidDef field ↔ ControlValid field type := by
  apply controlValid_iff hallowed
  rw [hconstraints, hdefault, RequiredValid, validProperties_cons, validProperties_cons,
    validProperties_nil, List.forall_mem_singleton]
  constructor
  · rintro ⟨hsome, hdefault, hoptions, -⟩
    exact ⟨⟨hsome, hoptions⟩, hdefault⟩
  · rintro ⟨⟨hsome, hoptions⟩, hdefault⟩
    exact ⟨hsome, hdefault, hoptions, trivial⟩

/-- A control that needs no more than the common properties. -/
theorem valid_plainControl (type : FormFieldType)
    {properties : List (JsString × Schema SchemaDef)}
    (hallowed : (formFieldAllowedProperties type).Perm
      (ofString "type" :: (commonProperties ++ properties).map Prod.fst))
    (hproperties : ValidProperties ValidDef properties field ↔
        ConstraintsValid field type ∧ DefaultValid field type) :
    (nodeSchema type.text requiredProperties (commonProperties ++ properties)).Valid ValidDef
      field ↔ ControlValid field type := by
  rw [← List.append_nil requiredProperties]
  apply controlValid_iff hallowed
  rw [hproperties]
  exact and_iff_right fun _ h => absurd h List.not_mem_nil

theorem valid_inputField : inputField.Valid ValidDef field ↔ ControlValid field .input := by
  rw [inputField]
  apply valid_plainControl .input (by decide)
  simp only [ConstraintsValid, DefaultValid, validProperties_cons, validProperties_nil]
  constructor
  · rintro ⟨hdefault, hmin, hmax, hpattern, -⟩
    exact ⟨⟨⟨hmin, hmax⟩, hpattern⟩, hdefault⟩
  · rintro ⟨⟨⟨hmin, hmax⟩, hpattern⟩, hdefault⟩
    exact ⟨hdefault, hmin, hmax, hpattern, trivial⟩

theorem valid_textareaField :
    textareaField.Valid ValidDef field ↔ ControlValid field .textarea := by
  rw [textareaField]
  apply valid_plainControl .textarea (by decide)
  simp only [ConstraintsValid, DefaultValid, validProperties_cons, validProperties_nil]
  constructor
  · rintro ⟨hdefault, hmin, hmax, -⟩
    exact ⟨⟨hmin, hmax⟩, hdefault⟩
  · rintro ⟨⟨hmin, hmax⟩, hdefault⟩
    exact ⟨hdefault, hmin, hmax, trivial⟩

theorem valid_numberField : numberField.Valid ValidDef field ↔ ControlValid field .number := by
  rw [numberField]
  apply valid_plainControl .number (by decide)
  simp only [ConstraintsValid, DefaultValid, validProperties_cons, validProperties_nil]
  constructor
  · rintro ⟨hdefault, hmin, hmax, hstep, -⟩
    exact ⟨⟨⟨hmin, hmax⟩, hstep⟩, hdefault⟩
  · rintro ⟨⟨⟨hmin, hmax⟩, hstep⟩, hdefault⟩
    exact ⟨hdefault, hmin, hmax, hstep, trivial⟩

theorem valid_switchField : switchField.Valid ValidDef field ↔ ControlValid field .switch := by
  rw [switchField]
  apply valid_plainControl .switch (by decide)
  simp only [ConstraintsValid, DefaultValid, validProperties_cons, validProperties_nil]
  exact and_comm

theorem valid_dateField : dateField.Valid ValidDef field ↔ ControlValid field .date := by
  rw [dateField]
  apply valid_plainControl .date (by decide)
  simp only [ConstraintsValid, DefaultValid, validProperties_cons, validProperties_nil]
  exact and_comm

/-- Where `sensitive` has to be true, it is a boolean that is not false. -/
theorem sensitive_iff :
    PropertyValid field "sensitive" (.const (.bool true)) ↔
      PropertyValid field "sensitive" (.type [.boolean]) ∧
        prop field "sensitive" ≠ some (.bool false) := by
  rw [propertyValid_iff, propertyValid_iff]
  cases prop field "sensitive" with
  | none => simp
  | some v => cases v <;> simp [Schema.Valid]

theorem valid_passwordField :
    passwordField.Valid ValidDef field ↔ ControlValid field .password := by
  rw [passwordField, ← List.append_nil requiredProperties,
    valid_control (formFieldAllowedProperties .password) (by decide),
    sensitive_iff, validProperties_cons, validProperties_nil]
  simp only [ControlValid, OptionalValid, ConstraintsValid, DefaultValid, FormFieldType.text]
  constructor
  · rintro ⟨hobject, htype, ⟨hname, hlabel, ⟨hrequired, hdisabled, hsensitive, hnotFalse⟩,
      htexts⟩, hknown, -, hdefault, -⟩
    exact ⟨hobject, htype, ⟨hname, hlabel, ⟨hrequired, hdisabled, hsensitive⟩, htexts⟩, hknown,
      hnotFalse, hdefault⟩
  · rintro ⟨hobject, htype, ⟨hname, hlabel, ⟨hrequired, hdisabled, hsensitive⟩, htexts⟩, hknown,
      hnotFalse, hdefault⟩
    refine ⟨hobject, htype, ⟨hname, hlabel, ⟨hrequired, hdisabled, hsensitive, hnotFalse⟩, htexts⟩,
      hknown, ?_, hdefault, trivial⟩
    exact fun _ h => absurd h List.not_mem_nil

theorem propertyValid_of_none {property : String} {schema : Schema SchemaDef}
    (h : prop field property = none) : PropertyValid field property schema :=
  propertyValid_iff.mpr (Or.inl h)

theorem valid_fileField : fileField.Valid ValidDef field ↔ ControlValid field .file := by
  have hknown : findUnknownProperties field (ofString "type" :: List.map Prod.fst
      [(ofString "name", Schema.ref SchemaDef.fieldName), (ofString "label", .ref .fieldLabel),
        (ofString "required", .type [.boolean]), (ofString "description", .ref .plainText),
        (ofString "allowedExtensions", .all [.type [.array], .minItems 1, .maxItems 16,
          .uniqueItems, .items (.all [.type [.string], .pattern extensionPattern])]),
        (ofString "fileNamePattern",
          .all [.type [.string], .maxLength formFileNamePatternMaxLength]),
        (ofString "maxSizeBytes",
          .all [.type [.integer], .minimum 1, .maximum formFileHardMaxBytes])]) = [] ↔
      findUnknownProperties field (formFieldAllowedProperties .file) = [] := Iff.rfl
  rw [fileField, valid_nodeSchema, required_iff, hknown]
  simp only [validProperties_cons, validProperties_nil, ControlValid, OptionalValid,
    ConstraintsValid, DefaultValid, FormFieldType.text, RequiredValid, ← type_iff,
    List.forall_mem_singleton]
  constructor
  · rintro ⟨hobject, ⟨htype, hname, hlabel, hextensions⟩, hknown, hconst, hnameValid, hlabelValid,
      hrequired, hdescription, hextensionsValid, hpattern, hsize, -⟩
    have habsent : ∀ property,
        (formFieldAllowedProperties .file).contains (ofString property) = false →
          prop field property = none := fun property => prop_eq_none_of_known hknown
    refine ⟨hobject, ⟨htype, hconst⟩, ⟨⟨hname, hnameValid⟩, ⟨hlabel, hlabelValid⟩,
      ⟨hrequired, ?_, ?_⟩, ?_, hdescription⟩, hknown,
      ⟨⟨⟨hextensions, hextensionsValid⟩, hpattern⟩, hsize⟩, ?_⟩
    · exact propertyValid_of_none (habsent "disabled" rfl)
    · exact propertyValid_of_none (habsent "sensitive" rfl)
    · exact propertyValid_of_none (habsent "placeholder" rfl)
    · exact habsent "defaultValue" rfl
  · rintro ⟨hobject, ⟨htype, hconst⟩, ⟨⟨hname, hnameValid⟩, ⟨hlabel, hlabelValid⟩, ⟨hrequired, -⟩,
      -, hdescription⟩, hknown, ⟨⟨⟨hextensions, hextensionsValid⟩, hpattern⟩, hsize⟩, -⟩
    exact ⟨hobject, ⟨htype, hname, hlabel, hextensions⟩, hknown, hconst, hnameValid, hlabelValid,
      hrequired, hdescription, hextensionsValid, hpattern, hsize, trivial⟩

theorem valid_schemaDefOf (type : FormFieldType) :
    ValidDef (schemaDefOf type) field ↔ ControlValid field type := by
  rw [validDef_iff]
  cases type with
  | input => exact valid_inputField
  | textarea => exact valid_textareaField
  | number => exact valid_numberField
  | select => exact valid_optionControl .select (by decide) rfl rfl
  | radio => exact valid_optionControl .radio (by decide) rfl rfl
  | checkbox => exact valid_optionControl .checkbox (by decide) rfl rfl
  | switch => exact valid_switchField
  | date => exact valid_dateField
  | password => exact valid_passwordField
  | file => exact valid_fileField

theorem asFormFieldType_text (type : FormFieldType) :
    asFormFieldType (some (.string type.text)) = some type := by
  cases type <;> rfl

theorem type_of_asFormFieldType {v : Option Json} {type : FormFieldType}
    (h : asFormFieldType v = some type) : v = some (.string type.text) := by
  simp only [asFormFieldType, Option.bind_eq_bind, Option.bind_eq_some_iff] at h
  obtain ⟨s, hs, hfind⟩ := h
  have htext := List.find?_some hfind
  rw [decide_eq_true_eq] at htext
  rw [asString_eq_some.mp hs, htext]

theorem ControlValid.asFormFieldType {type : FormFieldType} (h : ControlValid field type) :
    asFormFieldType (prop field "type") = some type := by
  rw [h.2.1, asFormFieldType_text]

theorem ControlValid.type_ne_tab {type : FormFieldType} (h : ControlValid field type) :
    prop field "type" ≠ some (.string (ofString "tab")) := by
  intro htab
  have htype := h.asFormFieldType
  have hnone : Form.asFormFieldType (some (.string (ofString "tab"))) = none := rfl
  rw [htab, hnone] at htype
  cases htype

/-- The schemas of the controls exclude each other. -/
theorem validDef_formField :
    ValidDef .formField field ↔ ∃ type, ControlValid field type := by
  have hlist : schemaDefs .formField =
      .oneOf (formFieldTypes.map fun type => .ref (schemaDefOf type)) := rfl
  rw [validDef_iff, hlist, Schema.Valid, validOne_iff]
  · simp only [List.mem_map, exists_exists_and_eq_and, Schema.Valid, valid_schemaDefOf]
    refine exists_congr fun type => and_iff_right ?_
    cases type <;> decide
  · rw [List.pairwise_map]
    have hnodup : formFieldTypes.Nodup := by decide
    refine hnodup.imp fun hne hvalid hvalid' => hne ?_
    rw [Schema.Valid, valid_schemaDefOf] at hvalid hvalid'
    exact Option.some.inj (hvalid.asFormFieldType.symm.trans hvalid'.asFormFieldType)

/-- No option is selected twice by the default of the field, if it is a checkbox. -/
def DistinctField (field : Json) : Prop :=
  ∀ type, asFormFieldType (prop field "type") = some type → DistinctDefault field type

theorem agrees_validateField :
    Agrees (validateField rt field index seenNames).2 (ValidDef .formField field)
      (DistinctField field) := by
  rw [validDef_formField, validateField]
  split
  · rename_i hobject
    refine ⟨fun hnil => absurd hnil (List.cons_ne_nil _ _), ?_⟩
    rintro ⟨type, hvalid⟩
    exact absurd (hobject.symm.trans hvalid.1) Bool.false_ne_true
  · rename_i hobject
    cases htype : asFormFieldType (prop field "type") with
    | none =>
        refine ⟨fun hnil => ?_, ?_⟩
        · have htypeIssues : (validateFieldType field index).2 = [] := by
            dsimp only at hnil
            split at hnil <;> simp only [List.append_eq_nil_iff] at hnil <;> grind
          obtain ⟨type, hsome, -⟩ := validateFieldType_accepted htypeIssues
          rw [htype] at hsome
          cases hsome
        · rintro ⟨type, hvalid⟩
          rw [hvalid.asFormFieldType] at htype
          cases htype
    | some type =>
        have htypeChecked : validateFieldType field index = (some type, []) := by
          rw [validateFieldType, type_of_asFormFieldType htype]
          simp only [asFormFieldType_text]
        have hvalid : (∃ type, ControlValid field type) ↔
            (((((True ∧ RequiredValid field "name" (.ref .fieldName)) ∧
              RequiredValid field "label" (.ref .fieldLabel)) ∧ OptionalValid field) ∧
              findUnknownProperties field (formFieldAllowedProperties type) = []) ∧
              ConstraintsValid field type) ∧ DefaultValid field type := by
          constructor
          · rintro ⟨other, hcontrol⟩
            obtain rfl : other = type := Option.some.inj (hcontrol.asFormFieldType.symm.trans htype)
            obtain ⟨-, -, ⟨hname, hlabel, hoptional⟩, hknown, hconstraints, hdefault⟩ := hcontrol
            exact ⟨⟨⟨⟨⟨⟨trivial, hname⟩, hlabel⟩, hoptional⟩, hknown⟩, hconstraints⟩, hdefault⟩
          · rintro ⟨⟨⟨⟨⟨⟨-, hname⟩, hlabel⟩, hoptional⟩, hknown⟩, hconstraints⟩, hdefault⟩
            exact ⟨type, by simpa using hobject, type_of_asFormFieldType htype,
              ⟨hname, hlabel, hoptional⟩, hknown, hconstraints, hdefault⟩
        have hdistinct : DistinctField field ↔ True ∧ DistinctDefault field type := by
          rw [true_and, DistinctField, htype]
          simp
        rw [htypeChecked]
        refine Agrees.congr (.append ?_ (agrees_validateDefaultValue type)) hvalid hdistinct
        refine .and (.and (.and (.and (.and .nil ?_) ?_) ?_) ?_) (agrees_validateConstraints type)
        · exact agrees_validateFieldName
        · exact agrees_validateFieldLabel
        · exact agrees_validateCommonOptionalProperties
        · exact agrees_validateUnknownProperties

/-! Tabs and templates -/

theorem agrees_validateFieldsFrom {fields : List Json} :
    Agrees (validateFieldsFrom rt index seenNames fields)
      (∀ field ∈ fields, ValidDef .formField field) (∀ field ∈ fields, DistinctField field) := by
  induction fields generalizing index seenNames with
  | nil => exact Agrees.nil.congr (by simp) (by simp)
  | cons field fields ih =>
      rw [validateFieldsFrom, List.forall_mem_cons, List.forall_mem_cons]
      exact agrees_validateField.append ih

/-- The children of a tab are an array with at least one field. -/
theorem requiredValid_children :
    RequiredValid field "children" (.all [.type [.array], .minItems 1, .items (.ref .formField)]) ↔
      asArray (prop field "children") ≠ [] ∧
        ∀ child ∈ asArray (prop field "children"), ValidDef .formField child := by
  rw [requiredValid_iff]
  simp only [valid_array]
  rcases prop field "children" with _ | _ | _ | _ | _ | items | _
  case some.array => simp [Schema.Valid, asArray, Nat.one_le_iff_ne_zero]
  all_goals simp [asArray]

theorem validDef_tabNode :
    ValidDef .tabNode field ↔ isPlainObject field = true ∧
      prop field "type" = some (.string (ofString "tab")) ∧
      (((RequiredValid field "name" (.ref .fieldName) ∧
        RequiredValid field "label" (.ref .fieldLabel)) ∧
        PropertyValid field "description" (.ref .plainText)) ∧
        findUnknownProperties field (["type", "name", "label", "description", "children"].map
          ofString) = []) ∧
      asArray (prop field "children") ≠ [] ∧
        ∀ child ∈ asArray (prop field "children"), ValidDef .formField child := by
  have hrequired : (∀ name ∈ ["type", "name", "label", "children"].map ofString,
      (field.member? name).isSome) ↔ _ := required_iff [ofString "children"]
  have hknown : findUnknownProperties field (ofString "type" :: List.map Prod.fst
      [(ofString "name", Schema.ref SchemaDef.fieldName), (ofString "label", .ref .fieldLabel),
        (ofString "description", .ref .plainText),
        (ofString "children", .all [.type [.array], .minItems 1, .items (.ref .formField)])]) = [] ↔
      findUnknownProperties field (["type", "name", "label", "description", "children"].map
        ofString) = [] := Iff.rfl
  rw [← requiredValid_children, validDef_iff, schemaDefs, tabNode, valid_nodeSchema, hrequired,
    hknown]
  simp only [validProperties_cons, validProperties_nil, RequiredValid, ← type_iff,
    List.forall_mem_singleton]
  constructor
  · rintro ⟨hobject, ⟨htype, hname, hlabel, hchildren⟩, hknown, hconst, hnameValid, hlabelValid,
      hdescription, hchildrenValid, -⟩
    exact ⟨hobject, ⟨htype, hconst⟩, ⟨⟨⟨⟨hname, hnameValid⟩, hlabel, hlabelValid⟩, hdescription⟩,
      hknown⟩, hchildren, hchildrenValid⟩
  · rintro ⟨hobject, ⟨htype, hconst⟩, ⟨⟨⟨⟨hname, hnameValid⟩, hlabel, hlabelValid⟩, hdescription⟩,
      hknown⟩, hchildren, hchildrenValid⟩
    exact ⟨hobject, ⟨htype, hname, hlabel, hchildren⟩, hknown, hconst, hnameValid, hlabelValid,
      hdescription, hchildrenValid, trivial⟩

theorem isTab_iff : isTab field = true ↔ prop field "type" = some (.string (ofString "tab")) := by
  rw [isTab]
  rcases prop field "type" with _ | _ | _ | _ | s | _ | _ <;> simp

/-- No field is a tab, so that the two schemas of a node exclude each other. -/
theorem validDef_formNode :
    ValidDef .formNode field ↔
      isTab field = false ∧ ValidDef .formField field ∨
        isTab field = true ∧ ValidDef .tabNode field := by
  have hexclusive : ValidDef .formField field → ¬ ValidDef .tabNode field := by
    rw [validDef_formField, validDef_tabNode]
    rintro ⟨type, hcontrol⟩ ⟨-, htab, -⟩
    exact hcontrol.type_ne_tab htab
  have htab : ValidDef .tabNode field → isTab field = true := by
    rw [validDef_tabNode, isTab_iff]
    exact fun h => h.2.1
  have hfield : ValidDef .formField field → isTab field = false := by
    rw [validDef_formField, ← Bool.not_eq_true, isTab_iff]
    rintro ⟨type, hcontrol⟩
    exact hcontrol.type_ne_tab
  rw [validDef_iff, schemaDefs, formNode, Schema.Valid, validOne_iff]
  · simp only [List.mem_cons, List.not_mem_nil, or_false, exists_eq_or_imp, exists_eq_left,
      Schema.Valid]
    exact or_congr (iff_and_self.mpr hfield) (iff_and_self.mpr htab)
  · simpa [Schema.Valid] using hexclusive

theorem agrees_validateTab (htab : isTab field = true) :
    Agrees (validateTab rt field index seenNames).2 (ValidDef .tabNode field)
      (∀ child ∈ asArray (prop field "children"), DistinctField child) := by
  rw [validDef_tabNode, validateTab]
  split
  · rename_i hobject
    refine ⟨fun hnil => absurd hnil (List.cons_ne_nil _ _), ?_⟩
    exact fun hvalid => absurd (hobject.symm.trans hvalid.1) Bool.false_ne_true
  · rename_i hobject
    have hvalid : (isPlainObject field = true ∧
        prop field "type" = some (.string (ofString "tab")) ∧
        (((RequiredValid field "name" (.ref .fieldName) ∧
          RequiredValid field "label" (.ref .fieldLabel)) ∧
          PropertyValid field "description" (.ref .plainText)) ∧
          findUnknownProperties field (["type", "name", "label", "description", "children"].map
            ofString) = []) ∧
        asArray (prop field "children") ≠ [] ∧
          ∀ child ∈ asArray (prop field "children"), ValidDef .formField child) ↔ _ :=
      (and_iff_right (by simpa using hobject)).trans (and_iff_right (isTab_iff.mp htab))
    refine Agrees.congr (.append (.and (.and (.and ?_ ?_) ?_) ?_) ?_) hvalid
      (iff_of_eq (true_and _)).symm
    · exact agrees_validateFieldName
    · exact agrees_validateFieldLabel
    · rw [propertyValid_iff]
      cases prop field "description" with
      | none => exact .of_iff (by simp)
      | some v =>
          dsimp only
          split
          · rename_i htext
            exact .of_iff (iff_of_true rfl (Or.inr ⟨v, rfl, valid_of_isPlainText htext⟩))
          · exact .of_issue (by simp [runtimeOnlyCodes, propertyIssue])
    · exact .of_iff List.map_eq_nil_iff
    · split
      · rename_i hnone
        exact ⟨fun hnil => absurd hnil (List.cons_ne_nil _ _), fun h => absurd hnone h.1⟩
      · rename_i hchildren
        exact (agrees_validateFieldsFrom.children index).congr (and_iff_right hchildren) Iff.rfl

theorem agrees_validateTabsFrom {tabs : List Json} (htabs : ∀ tab ∈ tabs, isTab tab = true) :
    Agrees (validateTabsFrom rt index seenNames tabs) (∀ tab ∈ tabs, ValidDef .formNode tab)
      (∀ tab ∈ tabs, ∀ child ∈ asArray (prop tab "children"), DistinctField child) := by
  induction tabs generalizing index seenNames with
  | nil => exact Agrees.nil.congr (by simp) (by simp)
  | cons tab tabs ih =>
      rw [List.forall_mem_cons] at htabs
      rw [validateTabsFrom, List.forall_mem_cons, List.forall_mem_cons]
      refine .append ?_ (ih htabs.2)
      exact (agrees_validateTab htabs.1).congr (by simp [validDef_formNode, htabs.1]) Iff.rfl

theorem valid_iff {input : Json} :
    formSchemaJsonSchema.Valid input ↔
      ∃ fields, input = .array fields ∧ ∀ field ∈ fields, ValidDef .formNode field := by
  rw [Document.Valid, formSchemaJsonSchema, valid_array]
  simp only [List.forall_mem_singleton, Schema.Valid, Json.array.injEq, forall_eq']
  exact Iff.rfl

/-- What an accepted field says about its default. -/
theorem distinctField_iff {f : FormField} (h : toFormField field = some f) :
    DistinctField field ↔ (normalizeField f).DefaultDistinct := by
  obtain ⟨htype, -⟩ := toFormField_eq_some h
  rw [DistinctField, htype, FormField.DefaultDistinct, (readsField_normalize h).defaultValue,
    normalizeField_type]
  constructor
  · exact fun hdistinct items hcheckbox hitems => hdistinct f.type rfl hcheckbox items hitems
  · rintro hdistinct type ⟨⟩ hcheckbox items hitems
    exact hdistinct items hcheckbox hitems

theorem distinctFields_iff {fields : List Json}
    (h : validateFieldsFrom rt index seenNames fields = []) :
    (∀ field ∈ fields, DistinctField field) ↔
      ∀ f ∈ (fields.filterMap toFormField).map normalizeField, f.DefaultDistinct := by
  have hread : ∀ field ∈ fields, ∃ f, toFormField field = some f := by
    intro field hfield
    have hmem := List.mem_map_of_mem (f := toFormField) hfield
    rw [← filterMap_toFormField h] at hmem
    obtain ⟨f, -, hf⟩ := List.mem_map.mp hmem
    exact ⟨f, hf.symm⟩
  simp only [List.mem_map, List.mem_filterMap]
  constructor
  · rintro hdistinct - ⟨f, ⟨field, hfield, hf⟩, rfl⟩
    exact (distinctField_iff hf).mp (hdistinct field hfield)
  · intro hdistinct field hfield
    obtain ⟨f, hf⟩ := hread field hfield
    exact (distinctField_iff hf).mpr (hdistinct _ ⟨f, ⟨field, hfield, hf⟩, rfl⟩)

/-- The children of a tab without issues have none. -/
theorem children_of_validateTab (h : (validateTab rt field index seenNames).2 = []) :
    validateFieldsFrom rt 0 [] (asArray (prop field "children")) = [] ∧
      ∃ node, toTabFormNode field = some node := by
  obtain ⟨node, hnode, -⟩ := validateTab_accepted h
  refine ⟨?_, node, hnode⟩
  rw [validateTab] at h
  split at h
  · exact absurd h (List.cons_ne_nil _ _)
  · have hchildren := (List.append_eq_nil_iff.mp h).2
    split at hchildren
    · exact absurd hchildren (List.cons_ne_nil _ _)
    · exact List.map_eq_nil_iff.mp hchildren

theorem children_of_validateTabsFrom {tabs : List Json}
    (h : validateTabsFrom rt index seenNames tabs = []) :
    ∀ tab ∈ tabs, validateFieldsFrom rt 0 [] (asArray (prop tab "children")) = [] ∧
      ∃ node, toTabFormNode tab = some node := by
  induction tabs generalizing index seenNames with
  | nil => exact fun _ h => absurd h List.not_mem_nil
  | cons tab tabs ih =>
      rw [validateTabsFrom, List.append_eq_nil_iff] at h
      rw [List.forall_mem_cons]
      exact ⟨children_of_validateTab h.1, ih h.2⟩

theorem children_of_toTabFormNode {node : TabFormNode} (h : toTabFormNode field = some node) :
    node.children = (asArray (prop field "children")).filterMap toFormField := by
  simp only [toTabFormNode, Option.bind_eq_bind, Option.bind_eq_some_iff, Option.some.injEq] at h
  obtain ⟨name, -, rfl⟩ := h
  rfl

theorem distinctTabs_iff {tabs : List Json} (h : validateTabsFrom rt index seenNames tabs = []) :
    (∀ tab ∈ tabs, ∀ child ∈ asArray (prop tab "children"), DistinctField child) ↔
      ∀ node ∈ (tabs.filterMap toTabFormNode).map TabFormNode.normalize, ∀ f ∈ node.children,
        f.DefaultDistinct := by
  have hchildren := children_of_validateTabsFrom h
  simp only [List.mem_map, List.mem_filterMap]
  constructor
  · rintro hdistinct - ⟨node, ⟨tab, htab, hnode⟩, rfl⟩
    rw [TabFormNode.normalize, children_of_toTabFormNode hnode]
    exact (distinctFields_iff (hchildren tab htab).1).mp (hdistinct tab htab)
  · intro hdistinct tab htab
    obtain ⟨hnil, node, hnode⟩ := hchildren tab htab
    have hnodes := hdistinct _ ⟨node, ⟨tab, htab, hnode⟩, rfl⟩
    rw [TabFormNode.normalize, children_of_toTabFormNode hnode] at hnodes
    exact (distinctFields_iff hnil).mpr hnodes

theorem forall_flat_iff {fields : List FormField} {p : FormField → Prop} :
    (∀ leaf ∈ listFormFields (.flat fields), p leaf.field) ↔ ∀ f ∈ fields, p f := by
  rw [listFormFields, List.forall_mem_map]

theorem forall_tabs_iff {nodes : List TabFormNode} {p : FormField → Prop} :
    (∀ leaf ∈ listFormFields (.tabs nodes), p leaf.field) ↔
      ∀ node ∈ nodes, ∀ f ∈ node.children, p f := by
  rw [listFormFields, List.forall_mem_flatMap]
  simp only [List.forall_mem_map]

/-- A template of fields only. -/
theorem valid_flat {fields : List Json} (h : ∀ field ∈ fields, isTab field = false) :
    formSchemaJsonSchema.Valid (.array fields) ↔ ∀ field ∈ fields, ValidDef .formField field := by
  rw [valid_iff]
  simp only [Json.array.injEq, exists_eq_left']
  refine forall₂_congr fun field hfield => ?_
  simp [validDef_formNode, h field hfield]

theorem valid_tabs {tabs : List Json} :
    formSchemaJsonSchema.Valid (.array tabs) ↔ ∀ tab ∈ tabs, ValidDef .formNode tab := by
  rw [valid_iff]
  simp only [Json.array.injEq, exists_eq_left']

/-- Where tabs and fields are not mixed, one tab makes all of them tabs. -/
theorem isTab_of_not_mixed {fields : List Json}
    (hlayout : ¬ (0 < (fields.filter isTab).length ∧
      (fields.filter isTab).length ≠ fields.length))
    (hsome : 0 < (fields.filter isTab).length) : ∀ field ∈ fields, isTab field = true := by
  rw [← List.length_filter_eq_length_iff]
  by_contra hne
  exact hlayout ⟨hsome, hne⟩

/-- A template that the validator accepts is valid against the published schema, unless a checkbox
starts with an option selected twice. -/
theorem published_iff {input : Json} {schema : FormSchema}
    (h : validateFormSchema rt input = .ok schema) :
    formSchemaJsonSchema.Valid input ↔
      ∀ leaf ∈ listFormFields schema, leaf.field.DefaultDistinct := by
  unfold validateFormSchema at h
  split at h
  · rename_i fields
    dsimp only at h
    split at h
    · cases h
    · rename_i hlayout
      split at h
      · rename_i hsome
        have htabs := isTab_of_not_mixed hlayout hsome
        split at h
        · rename_i hissues
          obtain rfl := Except.ok.inj h
          rw [valid_tabs, (agrees_validateTabsFrom htabs).accepted hissues,
            distinctTabs_iff hissues, forall_tabs_iff]
        · cases h
      · rename_i hnone
        have hflat : ∀ field ∈ fields, isTab field = false := by
          simpa using hnone
        split at h
        · rename_i hissues
          obtain rfl := Except.ok.inj h
          rw [valid_flat hflat, agrees_validateFieldsFrom.accepted hissues,
            distinctFields_iff hissues, forall_flat_iff]
        · cases h
  · cases h

/-- A template whose checkbox starts with one option selected twice. -/
def twiceTemplate : Json :=
  .array [.object [
    (ofString "type", .string (ofString "checkbox")),
    (ofString "name", .string (ofString "targets")),
    (ofString "label", .string (ofString "Targets")),
    (ofString "options", .array [.object [
      (ofString "label", .string (ofString "Linux")),
      (ofString "value", .string (ofString "linux"))]]),
    (ofString "defaultValue",
      .array [.string (ofString "linux"), .string (ofString "linux")])]]

def twiceField : FormField where
  type := .checkbox
  name := ofString "targets"
  defaultValue := some (.array [.string (ofString "linux"), .string (ofString "linux")])
  required := false
  disabled := false
  sensitive := none
  minLength := none
  maxLength := none
  min := none
  max := none
  step := none
  pattern := none
  options := [.text (ofString "linux")]
  allowedExtensions := []
  fileNamePattern := none
  maxSizeBytes := none

/-- The result at that template. -/
theorem published_twiceTemplate :
    formSchemaJsonSchema.Valid twiceTemplate ↔
      ∀ leaf ∈ listFormFields (.flat [twiceField]), leaf.field.DefaultDistinct :=
  published_iff (show validateFormSchema noLibrary twiceTemplate = _ from rfl)

/-- A template that is valid against the published schema is rejected only for what the schema
leaves to the validator. -/
theorem code_of_published {input : Json} (hvalid : formSchemaJsonSchema.Valid input)
    {issues : List FormSchemaIssue} (h : validateFormSchema rt input = .error issues) :
    ∀ issue ∈ issues, issue.code ∈ runtimeOnlyCodes := by
  obtain ⟨fields, rfl, hnodes⟩ := valid_iff.mp hvalid
  unfold validateFormSchema at h
  dsimp only at h
  split at h
  · obtain rfl := Except.error.inj h
    simp [runtimeOnlyCodes]
  · rename_i hlayout
    split at h
    · rename_i hsome
      have htabs := isTab_of_not_mixed hlayout hsome
      split at h
      · cases h
      · obtain rfl := Except.error.inj h
        exact (agrees_validateTabsFrom htabs).rejected hnodes
    · rename_i hnone
      have hflat : ∀ field ∈ fields, isTab field = false := by
        simpa using hnone
      split at h
      · cases h
      · obtain rfl := Except.error.inj h
        exact agrees_validateFieldsFrom.rejected ((valid_flat hflat).mp hvalid)

/-- A number between 3 and 2. -/
def rangeField : Json :=
  .object [
    (ofString "type", .string (ofString "number")),
    (ofString "name", .string (ofString "workers")),
    (ofString "label", .string (ofString "Workers")),
    (ofString "min", .number (.finite 3)),
    (ofString "max", .number (.finite 2))]

theorem controlValid_rangeField : ControlValid rangeField .number := by
  have hname : RequiredValid rangeField "name" (.ref .fieldName) := by
    rw [requiredValid_iff]
    refine ⟨.string (ofString "workers"), rfl, ?_⟩
    rw [Schema.Valid, validDef_fieldName]
    exact ⟨_, rfl, by decide⟩
  have hlabel : RequiredValid rangeField "label" (.ref .fieldLabel) := by
    rw [requiredValid_iff]
    refine ⟨.string (ofString "Workers"), rfl, ?_⟩
    rw [Schema.Valid, validDef_fieldLabel]
    exact ⟨_, rfl, by decide⟩
  have hbound : ∀ property q, prop rangeField property = some (.number (.finite q)) →
      PropertyValid rangeField property (.type [.number]) := by
    intro property q hq
    rw [propertyValid_iff, hq]
    exact Or.inr ⟨_, rfl, by simp⟩
  refine ⟨rfl, rfl, ⟨hname, hlabel, ⟨?_, ?_, ?_⟩, ?_, ?_⟩, by decide, ⟨⟨?_, ?_⟩, ?_⟩, ?_⟩
  · exact propertyValid_of_none rfl
  · exact propertyValid_of_none rfl
  · exact propertyValid_of_none rfl
  · exact propertyValid_of_none rfl
  · exact propertyValid_of_none rfl
  · exact hbound "min" 3 rfl
  · exact hbound "max" 2 rfl
  · exact propertyValid_of_none rfl
  · exact propertyValid_of_none rfl

theorem valid_rangeTemplate : formSchemaJsonSchema.Valid (.array [rangeField]) := by
  have hflat : ∀ field ∈ [rangeField], isTab field = false := by
    rw [List.forall_mem_singleton]
    rfl
  rw [valid_flat hflat, List.forall_mem_singleton, validDef_formField]
  exact ⟨.number, controlValid_rangeField⟩

/-- The result at that template, which the validator rejects. -/
theorem code_rangeTemplate :
    ∃ issues, validateFormSchema noLibrary (.array [rangeField]) = .error issues ∧
      ∀ issue ∈ issues, issue.code ∈ runtimeOnlyCodes :=
  ⟨_, rfl, code_of_published valid_rangeTemplate rfl⟩

end AnvilRun.PublishedSchema
