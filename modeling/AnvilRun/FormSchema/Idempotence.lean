import AnvilRun.FormSchema.EffectiveConfig

namespace AnvilRun.Form.Objects

open AnvilRun.ValidationPrimitives
open JsString

/-! Validating a result once more -/

theorem Value.isObjectLike_toJson (value : Value) :
    (Value.json value.toJson).isObjectLike = value.isObjectLike := by
  cases value <;> rfl

/-- Only checkboxes and files take arrays and objects, and they take nothing else. -/
theorem isObjectLike_of_ok {rt : JsRuntime} {field : FormField} {value stored : Value}
    (h : validateFieldValue rt field value = .ok stored) :
    value.isObjectLike = true ↔ field.type = .checkbox ∨ field.type = .file := by
  have hjson : ∃ json, Form.validateFieldValue rt field value.toJson = .ok json := by
    unfold validateFieldValue at h
    split at h
    · cases h
    · cases hchecked : Form.validateFieldValue rt field value.toJson with
      | error issues =>
          rw [hchecked] at h
          cases h
      | ok json => exact ⟨json, rfl⟩
  obtain ⟨json, hjson⟩ := hjson
  rw [← Value.isObjectLike_toJson]
  cases htype : field.type <;> simp only [Form.validateFieldValue, htype] at hjson <;>
    cases hvalue : value.toJson <;>
    simp_all [validateTextValue, validateNumberValue, validateOptionValue, validateCheckboxValue,
      validateFileValue, isPlainObject, asOptionValue, isCalendarDateString, Value.isObjectLike]

/-- What the validator of templates promises about the default of a field. -/
structure SoundDefault (rt : JsRuntime) (field : FormField) : Prop where
  ne_null : field.defaultValue ≠ some .null
  usable : ∀ d, field.defaultValue = some d →
    ((∃ v, Form.validateFieldValue rt field d = .ok v) ↔
      field.DefaultOnStep ∧ field.DefaultDistinct)
  file : field.type = .file → field.defaultValue = none

theorem soundDefault_of_accepted {rt : JsRuntime} {field : Json} {formField : FormField}
    {index : Nat} {context : FormSchemaIssueContext}
    (h : AcceptedField rt field formField index context) :
    SoundDefault rt (normalizeField formField) := by
  have hreads := readsField_normalize h.read
  refine ⟨h.defaultValue_ne_null, fun d hd => ?_, fun hfile => ?_⟩
  · exact h.default_iff (hreads.defaultValue.symm.trans hd)
  · have hdefault := h.defaultValue
    rw [normalizeField_type] at hfile
    unfold validateDefaultValue at hdefault
    rw [hreads.defaultValue]
    cases hprop : prop field "defaultValue" with
    | none => rfl
    | some d => simp [hprop, hfile] at hdefault

section Leaf

variable {rt : JsRuntime} {input : Value} {fields : List FormField}

/-- The default of a field is checked like any other value. -/
theorem SoundDefault.outcome {field : FormField} (h : SoundDefault rt field) {d : Json}
    (hd : field.defaultValue = some d) (hstep : field.DefaultOnStep)
    (hdistinct : field.DefaultDistinct) :
    validateFieldValue rt field (.json d) = .ok (.json d) := by
  obtain ⟨v, hv⟩ := (h.usable d hd).mpr ⟨hstep, hdistinct⟩
  rw [validateFieldValue_json, hv]
  rfl

theorem fieldOutcome_of_candidate {field : FormField} {value : Value}
    (hcandidate : candidateOf field input = some value) (hnull : value ≠ .json .null)
    (hvalue : validateFieldValue rt field value = .ok value) :
    fieldOutcome rt input field = .ok (some value) := by
  unfold fieldOutcome
  rw [hcandidate]
  split
  · rename_i hnone
    cases hnone
  · rename_i hsome
    exact absurd (Option.some.inj hsome) hnull
  · rename_i candidate _ hsome
    cases hsome
    rw [hvalue]
    rfl

/-- What the input of a field has to be like for its result to be stable. A `null` must not hide
a default. A value for `__proto__` is not kept: it must not be an object or an array, it must not
be required, and the default that takes its place must be a value of the field. -/
structure StableField (field : FormField) (input : Value) : Prop where
  null : field.name ≠ protoKey → field.disabled = false →
    input.ownMember? field.name = some (.json .null) → field.defaultValue = none
  missing : field.name = protoKey → field.defaultValue = none → field.required = false
  default : field.name = protoKey → field.defaultValue ≠ none →
    field.type ≠ .checkbox ∧ field.DefaultOnStep
  object : field.name = protoKey → field.disabled = false →
    field.type = .checkbox ∨ field.type = .file →
    input.ownMember? field.name = none ∨ input.ownMember? field.name = some (.json .null)

theorem leaf_prototype (hstrict : isStrictJsonObject input = true) :
    (evaluateLeafConfig rt fields input).value.prototype = none ↔
      ∀ field ∈ fields, field.name = protoKey → ∀ value,
        fieldOutcome rt input field = .ok (some value) → value.isObjectLike = false := by
  rw [evaluateLeafConfig_value hstrict, BuiltObject.assignAll_prototype]
  constructor
  · rintro ⟨-, h⟩ field hfield hproto value houtcome
    exact h (field.name, value)
      (List.mem_filterMap.mpr ⟨field, hfield, fieldPair_eq_some.mpr ⟨rfl, houtcome⟩⟩) hproto
  · intro h
    refine ⟨rfl, fun pair hpair hproto => ?_⟩
    obtain ⟨field, hfield, hsome⟩ := List.mem_filterMap.mp hpair
    obtain ⟨hname, houtcome⟩ := fieldPair_eq_some.mp hsome
    exact h field hfield (hname.symm.trans hproto) pair.2 houtcome

theorem isStrictJsonObject_toValue (object : BuiltObject) :
    isStrictJsonObject object.toValue = true ↔ object.prototype = none := by
  rw [BuiltObject.toValue, isStrictJsonObject, Option.isNone_iff_eq_none]

/-- A candidate from an own member, unless the field is disabled. -/
theorem candidateOf_enabled {field : FormField} (h : field.disabled = false) :
    candidateOf field input =
      (input.ownMember? field.name).or (field.defaultValue.map .json) := by
  rw [candidateOf, h]
  rfl

theorem candidateOf_disabled {field : FormField} (h : field.disabled = true) :
    candidateOf field input = field.defaultValue.map .json := by
  rw [candidateOf, h]
  rfl

/-- Without an own member the default counts, whether the field is disabled or not. -/
theorem candidateOf_missing {field : FormField} (h : input.ownMember? field.name = none) :
    candidateOf field input = field.defaultValue.map .json := by
  rw [candidateOf, h]
  split <;> rfl

/-- A default is found again when the second pass has no own member for it. -/
theorem outcome_of_default {field : FormField} (hsound : SoundDefault rt field) {d : Json}
    (hd : field.defaultValue = some d) (hown : input.ownMember? field.name = none)
    {outcome : Option Value} (houtcome : fieldOutcome rt input field = .ok outcome) :
    outcome = some (.json d) ∧ validateFieldValue rt field (.json d) = .ok (.json d) := by
  have hcandidate : candidateOf field input = some (.json d) := by
    rw [candidateOf_missing hown, hd, Option.map_some]
  cases outcome with
  | none =>
      obtain hnone | hnull := (fieldOutcome_eq_none.mp houtcome).1
      · cases hcandidate.symm.trans hnone
      · cases hcandidate.symm.trans hnull
        exact absurd hd hsound.ne_null
  | some value =>
      obtain ⟨hsome, -, hvalue⟩ := fieldOutcome_eq_some houtcome
      cases hcandidate.symm.trans hsome
      exact ⟨rfl, hvalue⟩

variable (rt) in
/-- A first pass leaves no own property for `__proto__`. -/
theorem leaf_own_proto (hnodup : (fields.map FormField.name).Nodup)
    (hstrict : isStrictJsonObject input = true) {field : FormField} (hfield : field ∈ fields)
    (hproto : field.name = protoKey) :
    (evaluateLeafConfig rt fields input).value.toValue.ownMember? field.name = none := by
  cases hvalue : (evaluateLeafConfig rt fields input).value.toValue.ownMember? field.name with
  | none => rfl
  | some value =>
      exact absurd hproto ((evaluateLeafConfig_ownMember? hnodup hstrict hfield).mp hvalue).1

theorem leaf_own_none (hnodup : (fields.map FormField.name).Nodup)
    (hstrict : isStrictJsonObject input = true) {field : FormField} (hfield : field ∈ fields)
    (houtcome : fieldOutcome rt input field = .ok none) :
    (evaluateLeafConfig rt fields input).value.toValue.ownMember? field.name = none := by
  cases hvalue : (evaluateLeafConfig rt fields input).value.toValue.ownMember? field.name with
  | none => rfl
  | some value =>
      cases houtcome.symm.trans
        ((evaluateLeafConfig_ownMember? hnodup hstrict hfield).mp hvalue).2

/-- A field whose result is the same in a second pass has a stable input. -/
theorem stableField_of_idempotent (hnodup : (fields.map FormField.name).Nodup)
    (h : (evaluateLeafConfig rt fields input).issues = [])
    (hsecond : (evaluateLeafConfig rt fields
      (evaluateLeafConfig rt fields input).value.toValue).issues = [])
    (hsame : (evaluateLeafConfig rt fields
      (evaluateLeafConfig rt fields input).value.toValue).value =
        (evaluateLeafConfig rt fields input).value)
    {field : FormField} (hfield : field ∈ fields) (hsound : SoundDefault rt field) :
    StableField field input := by
  obtain ⟨hstrict, hok⟩ := evaluateLeafConfig_issues.mp h
  obtain ⟨hstrict', hok'⟩ := evaluateLeafConfig_issues.mp hsecond
  have hprototype := (isStrictJsonObject_toValue _).mp hstrict'
  obtain ⟨outcome, houtcome⟩ := hok field hfield
  obtain ⟨outcome', houtcome'⟩ := hok' field hfield
  constructor
  · intro hname henabled hown
    have hcandidate : candidateOf field input = some (.json .null) := by
      rw [candidateOf_enabled henabled, hown, Option.some_or]
    have hnone : fieldOutcome rt input field = .ok none := by
      cases outcome with
      | none => exact houtcome
      | some value =>
          obtain ⟨hsome, hnull, -⟩ := fieldOutcome_eq_some houtcome
          cases hcandidate.symm.trans hsome
          exact absurd rfl hnull
    have hmissing := leaf_own_none hnodup hstrict hfield hnone
    cases hd : field.defaultValue with
    | none => rfl
    | some d =>
        obtain ⟨rfl, -⟩ := outcome_of_default hsound hd hmissing houtcome'
        have hfilled := (evaluateLeafConfig_ownMember? hnodup hstrict' hfield).mpr
          ⟨hname, houtcome'⟩
        rw [hsame, hmissing] at hfilled
        cases hfilled
  · intro hname hd
    have hcandidate := candidateOf_missing (leaf_own_proto rt hnodup hstrict hfield hname)
    rw [hd, Option.map_none] at hcandidate
    cases outcome' with
    | none => exact (fieldOutcome_eq_none.mp houtcome').2
    | some value => cases hcandidate.symm.trans (fieldOutcome_eq_some houtcome').1
  · intro hname hdefault
    obtain ⟨d, hd⟩ := Option.ne_none_iff_exists'.mp hdefault
    obtain ⟨rfl, hvalue⟩ := outcome_of_default hsound hd
      (leaf_own_proto rt hnodup hstrict hfield hname) houtcome'
    constructor
    · intro hcheckbox
      have hlike := (isObjectLike_of_ok hvalue).mpr (.inl hcheckbox)
      rw [← hsame] at hprototype
      rw [(leaf_prototype hstrict').mp hprototype field hfield hname _ houtcome'] at hlike
      cases hlike
    · rw [validateFieldValue_json] at hvalue
      cases hchecked : Form.validateFieldValue rt field d with
      | error issues =>
          rw [hchecked] at hvalue
          cases hvalue
      | ok v => exact ((hsound.usable d hd).mp ⟨v, hchecked⟩).1
  · intro hname henabled htype
    cases hown : input.ownMember? field.name with
    | none => exact .inl rfl
    | some value =>
        have hcandidate : candidateOf field input = some value := by
          rw [candidateOf_enabled henabled, hown, Option.some_or]
        cases outcome with
        | none =>
            obtain hnone | hnull := (fieldOutcome_eq_none.mp houtcome).1
            · cases hcandidate.symm.trans hnone
            · exact .inr (hcandidate.symm.trans hnull)
        | some assigned =>
            obtain ⟨-, -, hvalue⟩ := fieldOutcome_eq_some houtcome
            have hlike := (isObjectLike_of_ok hvalue).mpr htype
            rw [(leaf_prototype hstrict).mp hprototype field hfield hname _ houtcome] at hlike
            cases hlike

/-- With stable inputs the first pass leaves the prototype alone. -/
theorem prototype_of_stable (h : (evaluateLeafConfig rt fields input).issues = [])
    (hsound : ∀ field ∈ fields, SoundDefault rt field)
    (hstable : ∀ field ∈ fields, StableField field input) :
    (evaluateLeafConfig rt fields input).value.prototype = none := by
  obtain ⟨hstrict, -⟩ := evaluateLeafConfig_issues.mp h
  rw [leaf_prototype hstrict]
  intro field hfield hname value houtcome
  obtain ⟨hcandidate, hnull, hvalue⟩ := fieldOutcome_eq_some houtcome
  rw [← Bool.not_eq_true]
  intro hlike
  have htype := (isObjectLike_of_ok hvalue).mp hlike
  -- a field of these types has no default here
  have hd : field.defaultValue = none := by
    by_contra hdefault
    obtain hcheckbox | hfile := htype
    · exact ((hstable field hfield).default hname hdefault).1 hcheckbox
    · exact hdefault ((hsound field hfield).file hfile)
  cases hdisabled : field.disabled with
  | true =>
      rw [candidateOf_disabled hdisabled, hd] at hcandidate
      cases hcandidate
  | false =>
      rw [candidateOf_enabled hdisabled, hd, Option.map_none, Option.or_none] at hcandidate
      obtain hnone | hsome := (hstable field hfield).object hname hdisabled htype
      · cases hcandidate.symm.trans hnone
      · cases hcandidate.symm.trans hsome
        exact hnull rfl

/-- A second pass finds for a field what the first one found. -/
theorem outcome_of_stable (hnodup : (fields.map FormField.name).Nodup)
    (hstrict : isStrictJsonObject input = true) {field : FormField} (hfield : field ∈ fields)
    (hname : field.name ≠ protoKey) (hstable : StableField field input)
    {outcome : Option Value} (houtcome : fieldOutcome rt input field = .ok outcome) :
    fieldOutcome rt (evaluateLeafConfig rt fields input).value.toValue field = .ok outcome := by
  cases outcome with
  | none =>
      have hmissing := leaf_own_none hnodup hstrict hfield houtcome
      obtain ⟨hcandidate, hrequired⟩ := fieldOutcome_eq_none.mp houtcome
      refine fieldOutcome_eq_none.mpr ⟨?_, hrequired⟩
      rw [candidateOf_missing hmissing]
      cases hdisabled : field.disabled with
      | true => rwa [candidateOf_disabled hdisabled] at hcandidate
      | false =>
          rw [candidateOf_enabled hdisabled] at hcandidate
          cases hown : input.ownMember? field.name with
          | none => rwa [hown, Option.none_or] at hcandidate
          | some value =>
              rw [hown, Option.some_or] at hcandidate
              obtain hnone | hnull := hcandidate
              · cases hnone
              · rw [hstable.null hname hdisabled (hown.trans hnull)]
                exact .inl rfl
  | some value =>
      obtain ⟨hcandidate, hnull, hvalue⟩ := fieldOutcome_eq_some houtcome
      refine fieldOutcome_of_candidate ?_ hnull hvalue
      cases hdisabled : field.disabled with
      | true =>
          rw [candidateOf_disabled hdisabled] at hcandidate ⊢
          exact hcandidate
      | false =>
          rw [candidateOf_enabled hdisabled,
            (evaluateLeafConfig_ownMember? hnodup hstrict hfield).mpr ⟨hname, houtcome⟩,
            Option.some_or]

variable (rt) in
/-- What a second pass finds for `__proto__`. -/
theorem proto_outcome_of_stable (hnodup : (fields.map FormField.name).Nodup)
    (hstrict : isStrictJsonObject input = true) {field : FormField} (hfield : field ∈ fields)
    (hname : field.name = protoKey) (hsound : SoundDefault rt field)
    (hstable : StableField field input) :
    ∃ outcome, fieldOutcome rt (evaluateLeafConfig rt fields input).value.toValue field =
        .ok outcome ∧ ∀ value, outcome = some value → value.isObjectLike = false := by
  have hcandidate := candidateOf_missing (leaf_own_proto rt hnodup hstrict hfield hname)
  cases hd : field.defaultValue with
  | none =>
      rw [hd, Option.map_none] at hcandidate
      refine ⟨none, fieldOutcome_eq_none.mpr ⟨.inl hcandidate, hstable.missing hname hd⟩, ?_⟩
      exact fun value hvalue => nomatch hvalue
  | some d =>
      obtain ⟨hcheckbox, hstep⟩ := hstable.default hname (by simp [hd])
      have hvalue := hsound.outcome hd hstep fun items heq => absurd heq hcheckbox
      rw [hd, Option.map_some] at hcandidate
      refine ⟨some (.json d), fieldOutcome_of_candidate hcandidate ?_ hvalue, ?_⟩
      · rintro ⟨⟩
        exact hsound.ne_null hd
      · rintro value ⟨⟩
        rw [← Bool.not_eq_true]
        intro hlike
        obtain htype | htype := (isObjectLike_of_ok hvalue).mp hlike
        · exact hcheckbox htype
        · cases (hsound.file htype).symm.trans hd

/-- Whether the fields of an object, or of a tab, come out of a second pass as they came out of
the first one. -/
theorem leaf_idempotent_iff (hnodup : (fields.map FormField.name).Nodup)
    (hsound : ∀ field ∈ fields, SoundDefault rt field)
    (h : (evaluateLeafConfig rt fields input).issues = []) :
    ((evaluateLeafConfig rt fields
        (evaluateLeafConfig rt fields input).value.toValue).issues = [] ∧
      (evaluateLeafConfig rt fields
        (evaluateLeafConfig rt fields input).value.toValue).value =
          (evaluateLeafConfig rt fields input).value) ↔
      ∀ field ∈ fields, StableField field input := by
  constructor
  · rintro ⟨hsecond, hsame⟩ field hfield
    exact stableField_of_idempotent hnodup h hsecond hsame hfield (hsound field hfield)
  · intro hstable
    obtain ⟨hstrict, hok⟩ := evaluateLeafConfig_issues.mp h
    have hprototype := prototype_of_stable h hsound hstable
    have hstrict' := (isStrictJsonObject_toValue _).mpr hprototype
    have hissues : (evaluateLeafConfig rt fields
        (evaluateLeafConfig rt fields input).value.toValue).issues = [] := by
      refine evaluateLeafConfig_issues.mpr ⟨hstrict', fun field hfield => ?_⟩
      by_cases hname : field.name = protoKey
      · obtain ⟨outcome, houtcome, -⟩ := proto_outcome_of_stable rt hnodup hstrict hfield hname
          (hsound field hfield) (hstable field hfield)
        exact ⟨outcome, houtcome⟩
      · obtain ⟨outcome, houtcome⟩ := hok field hfield
        exact ⟨outcome, outcome_of_stable hnodup hstrict hfield hname (hstable field hfield)
          houtcome⟩
    refine ⟨hissues, ?_⟩
    have hprototype' := (leaf_prototype hstrict').mpr fun field hfield hname value houtcome => by
      obtain ⟨outcome, hfound, hlike⟩ := proto_outcome_of_stable rt hnodup hstrict hfield
        hname (hsound field hfield) (hstable field hfield)
      exact hlike value (Except.ok.inj (hfound.symm.trans houtcome))
    have hmembers : (evaluateLeafConfig rt fields
        (evaluateLeafConfig rt fields input).value.toValue).value.members =
          (evaluateLeafConfig rt fields input).value.members := by
      rw [evaluateLeafConfig_value hstrict', BuiltObject.members_of_empty (fieldPairs_nodup hnodup)]
      rw [evaluateLeafConfig_value hstrict, BuiltObject.members_of_empty (fieldPairs_nodup hnodup),
        ← evaluateLeafConfig_value hstrict, List.filter_filterMap, List.filter_filterMap]
      refine List.filterMap_congr fun field hfield => ?_
      by_cases hname : field.name = protoKey
      · have hdropped : ∀ value, (fieldPair rt value field).filter
            (fun pair => pair.1 ≠ protoKey) = none := by
          intro value
          rw [Option.filter_eq_none_iff]
          intro pair hpair
          simp [(fieldPair_eq_some.mp hpair).1, hname]
        rw [hdropped, hdropped]
      · obtain ⟨outcome, houtcome⟩ := hok field hfield
        rw [fieldPair, fieldPair, houtcome,
          outcome_of_stable hnodup hstrict hfield hname (hstable field hfield) houtcome]
    calc (evaluateLeafConfig rt fields (evaluateLeafConfig rt fields input).value.toValue).value
        = ⟨(evaluateLeafConfig rt fields input).value.members, none⟩ := by
          rw [← hmembers, ← hprototype']
      _ = (evaluateLeafConfig rt fields input).value := by rw [← hprototype]

end Leaf

/-! Whole configurations -/

/-- The condition on the inputs of all fields. No tab may be called `__proto__`, since its object
would become the prototype of the result. -/
def Stable : FormSchema → Value → Prop
  | .flat fields, x => ∀ field ∈ fields, StableField field x
  | .tabs nodes, x => ∀ node ∈ nodes, node.name ≠ protoKey ∧
      ∀ field ∈ node.children, StableField field (tabInput node x)

theorem BuiltObject.toValue_inj {a b : BuiltObject} : a.toValue = b.toValue ↔ a = b := by
  constructor
  · intro h
    cases a
    cases b
    cases h
    rfl
  · exact congrArg BuiltObject.toValue

theorem validateAgain_iff {rt : JsRuntime} {schema : FormSchema} {object : BuiltObject} :
    validateFormConfigValues rt schema object.toValue = .ok object.toValue ↔
      (evaluateConfig rt schema object.toValue).issues = [] ∧
        (evaluateConfig rt schema object.toValue).value = object := by
  rw [validateFormConfigValues_eq_ok, BuiltObject.toValue_inj]

section Tabs

variable {rt : JsRuntime} {input : Value} {nodes : List TabFormNode}

/-- The objects of the tabs are assigned, so a tab called `__proto__` changes the prototype. -/
theorem tabs_prototype (hstrict : isStrictJsonObject input = true) :
    (evaluateConfig rt (.tabs nodes) input).value.prototype = none ↔
      ∀ node ∈ nodes, node.name ≠ protoKey := by
  rw [evaluateTabs_value hstrict, BuiltObject.assignAll_prototype, List.forall_mem_map]
  constructor
  · exact fun h node hnode hproto => Bool.noConfusion (h.2 node hnode hproto)
  · exact fun h => ⟨rfl, fun node hnode hproto => absurd hproto (h node hnode)⟩

/-- The second pass reads for a tab what the first one built. -/
theorem tabInput_built (hnodup : (nodes.map TabFormNode.name).Nodup)
    (hstrict : isStrictJsonObject input = true) {node : TabFormNode} (hnode : node ∈ nodes)
    (hname : node.name ≠ protoKey) :
    tabInput node (evaluateConfig rt (.tabs nodes) input).value.toValue =
      (evaluateLeafConfig rt node.children (tabInput node input)).value.toValue := by
  rw [tabInput, evaluateTabs_ownMember? hnodup hstrict hnode, if_neg hname, Option.getD_some]

theorem tabs_idempotent_iff (hnodup : (nodes.map TabFormNode.name).Nodup)
    (hfields : ∀ node ∈ nodes, (node.children.map FormField.name).Nodup)
    (hsound : ∀ node ∈ nodes, ∀ field ∈ node.children, SoundDefault rt field)
    (h : (evaluateConfig rt (.tabs nodes) input).issues = []) :
    ((evaluateConfig rt (.tabs nodes)
        (evaluateConfig rt (.tabs nodes) input).value.toValue).issues = [] ∧
      (evaluateConfig rt (.tabs nodes)
        (evaluateConfig rt (.tabs nodes) input).value.toValue).value =
          (evaluateConfig rt (.tabs nodes) input).value) ↔
      Stable (.tabs nodes) input := by
  obtain ⟨hstrict, hchildren⟩ := evaluateTabs_issues.mp h
  constructor
  · rintro ⟨hsecond, hsame⟩ node hnode
    obtain ⟨hstrict', hchildren'⟩ := evaluateTabs_issues.mp hsecond
    have hprototype := (isStrictJsonObject_toValue _).mp hstrict'
    have hname := (tabs_prototype hstrict).mp hprototype node hnode
    have hinput := @tabInput_built rt input nodes hnodup hstrict node hnode hname
    refine ⟨hname, (leaf_idempotent_iff (hfields node hnode) (hsound node hnode)
      (hchildren node hnode)).mp ⟨?_, ?_⟩⟩
    · rw [← hinput]
      exact hchildren' node hnode
    · have hread := @evaluateTabs_ownMember? rt
        (evaluateConfig rt (.tabs nodes) input).value.toValue nodes hnodup hstrict' node hnode
      rw [hsame, evaluateTabs_ownMember? hnodup hstrict hnode, if_neg hname, if_neg hname,
        hinput] at hread
      exact BuiltObject.toValue_inj.mp (Option.some.inj hread).symm
  · intro hstable
    have hprototype := (@tabs_prototype rt input nodes hstrict).mpr fun node hnode =>
      (hstable node hnode).1
    have hstrict' := (isStrictJsonObject_toValue _).mpr hprototype
    have htab : ∀ node ∈ nodes,
        (evaluateLeafConfig rt node.children (tabInput node
          (evaluateConfig rt (.tabs nodes) input).value.toValue)).issues = [] ∧
        (evaluateLeafConfig rt node.children (tabInput node
          (evaluateConfig rt (.tabs nodes) input).value.toValue)).value =
            (evaluateLeafConfig rt node.children (tabInput node input)).value := by
      intro node hnode
      rw [tabInput_built hnodup hstrict hnode (hstable node hnode).1]
      exact (leaf_idempotent_iff (hfields node hnode) (hsound node hnode)
        (hchildren node hnode)).mpr (hstable node hnode).2
    refine ⟨evaluateTabs_issues.mpr ⟨hstrict', fun node hnode => (htab node hnode).1⟩, ?_⟩
    rw [evaluateTabs_value hstrict', evaluateTabs_value hstrict]
    congr 1
    refine List.map_congr_left fun node hnode => ?_
    rw [tabPair, tabPair, ← evaluateTabs_value hstrict, (htab node hnode).2]

end Tabs

/-- A result comes out of a second validation as it is exactly when the input was stable. -/
theorem idempotent_iff {rt : JsRuntime} {template : Json} {schema : FormSchema} {x v : Value}
    (hschema : Form.validateFormSchema rt template = .ok schema)
    (hvalues : validateFormConfigValues rt schema x = .ok v) :
    validateFormConfigValues rt schema v = .ok v ↔ Stable schema x := by
  have haccepted := accepted_of_validateFormSchema hschema
  have hsound : ∀ leaf ∈ listFormFields schema, SoundDefault rt leaf.field := by
    intro leaf hleaf
    obtain ⟨field, formField, index, context, hfield, hformField⟩ := haccepted.field hleaf
    rw [hformField]
    exact soundDefault_of_accepted hfield
  obtain ⟨hissues, rfl⟩ := validateFormConfigValues_eq_ok.mp hvalues
  rw [validateAgain_iff]
  cases schema with
  | flat fields =>
      exact leaf_idempotent_iff haccepted.nodup
        (fun f hf => hsound ⟨f, [f.name]⟩ (List.mem_map_of_mem hf)) hissues
  | tabs nodes =>
      refine tabs_idempotent_iff haccepted.2 (fun node hnode => (haccepted.1 node hnode).nodup)
        (fun node hnode f hf => hsound ⟨f, [node.name, f.name]⟩ ?_) hissues
      exact List.mem_flatMap.mpr ⟨node, hnode, List.mem_map_of_mem hf⟩

/-- The text of a template whose only field may be left out and then has a default. -/
def optionalTemplate : Json :=
  .array [.object [
    (ofString "type", .string (ofString "input")),
    (ofString "name", .string (ofString "branch")),
    (ofString "label", .string (ofString "Branch")),
    (ofString "defaultValue", .string (ofString "main"))]]

def optionalField : FormField where
  type := .input
  name := ofString "branch"
  defaultValue := some (.string (ofString "main"))
  required := false
  disabled := false
  sensitive := none
  minLength := none
  maxLength := none
  min := none
  max := none
  step := none
  pattern := none
  options := []
  allowedExtensions := []
  fileNamePattern := none
  maxSizeBytes := none

/-- A configuration that clears the field. -/
def clearedConfig : Value :=
  .json (.object [(ofString "branch", .null)])

/-- The result at that template. -/
theorem clearedConfig_iff :
    validateFormConfigValues noLibrary (.flat [optionalField]) (.object [] none) =
        .ok (.object [] none) ↔
      Stable (.flat [optionalField]) clearedConfig :=
  idempotent_iff (show Form.validateFormSchema noLibrary optionalTemplate = _ from rfl) rfl

/-- The first validation drops the `null`, the second one fills in the default. -/
theorem clearedConfig_not_idempotent :
    Form.validateFormSchema noLibrary optionalTemplate = .ok (.flat [optionalField]) ∧
      validateFormConfigValues noLibrary (.flat [optionalField]) clearedConfig =
        .ok (.object [] none) ∧
      validateFormConfigValues noLibrary (.flat [optionalField]) (.object [] none) =
        .ok (.object [(ofString "branch", .json (.string (ofString "main")))] none) ∧
      validateFormConfigValues noLibrary (.flat [optionalField]) (.object [] none) ≠
        .ok (.object [] none) := by
  refine ⟨rfl, rfl, rfl, fun hsame => ?_⟩
  have hfilled : validateFormConfigValues noLibrary (.flat [optionalField]) (.object [] none) =
      .ok (.object [(ofString "branch", .json (.string (ofString "main")))] none) := rfl
  cases hfilled.symm.trans hsame

end AnvilRun.Form.Objects
