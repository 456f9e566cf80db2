import Mathlib.Data.List.Nodup
import AnvilRun.FormSchema.Objects

namespace AnvilRun.Form.Objects

open AnvilRun.ValidationPrimitives
open JsString

/-! What a run of assignments leaves -/

/-- One assignment after the other. -/
def BuiltObject.assignAll (object : BuiltObject) (pairs : List (JsString × Value)) : BuiltObject :=
  pairs.foldl (fun object pair => object.assign pair.1 pair.2) object

theorem BuiltObject.assignAll_cons (object : BuiltObject) (pair : JsString × Value)
    (pairs : List (JsString × Value)) :
    object.assignAll (pair :: pairs) = (object.assign pair.1 pair.2).assignAll pairs :=
  rfl

/-- Distinct names become members in their order, except for `__proto__`. -/
theorem BuiltObject.assignAll_members {object : BuiltObject} {pairs : List (JsString × Value)}
    (hnodup : (pairs.map Prod.fst).Nodup)
    (hfresh : ∀ pair ∈ pairs, pair.1 ∉ object.members.map Prod.fst) :
    (object.assignAll pairs).members =
      object.members ++ pairs.filter (fun pair => pair.1 ≠ protoKey) := by
  induction pairs generalizing object with
  | nil => simp [BuiltObject.assignAll]
  | cons pair pairs ih =>
      rw [List.map_cons, List.nodup_cons] at hnodup
      rw [List.forall_mem_cons] at hfresh
      have hany : object.members.any (fun m => m.1 = pair.1) = false := by
        rw [List.any_eq_false]
        intro m hm hsame
        exact hfresh.1 (by simpa using ⟨m.2, (of_decide_eq_true hsame) ▸ hm⟩)
      have hmembers : (object.assign pair.1 pair.2).members =
          object.members ++ [pair].filter (fun pair => pair.1 ≠ protoKey) := by
        rw [BuiltObject.members_assign, hany]
        by_cases hproto : pair.1 = protoKey <;> simp [hproto]
      rw [BuiltObject.assignAll_cons, ih hnodup.2, hmembers, List.append_assoc,
        ← List.filter_append, List.singleton_append]
      intro other hother hmem
      rw [hmembers, List.map_append, List.mem_append] at hmem
      obtain hmem | hmem := hmem
      · exact hfresh.2 other hother hmem
      · obtain ⟨same, hsame, hname⟩ := List.mem_map.mp hmem
        obtain rfl : same = pair := List.mem_singleton.mp (List.mem_filter.mp hsame).1
        exact hnodup.1 (List.mem_map.mpr ⟨other, hother, hname.symm⟩)

theorem BuiltObject.assignAll_prototype {object : BuiltObject}
    {pairs : List (JsString × Value)} :
    (object.assignAll pairs).prototype = none ↔
      object.prototype = none ∧
        ∀ pair ∈ pairs, pair.1 = protoKey → pair.2.isObjectLike = false := by
  induction pairs generalizing object with
  | nil => simp [BuiltObject.assignAll]
  | cons pair pairs ih =>
      have hassign : (object.assign pair.1 pair.2).prototype = none ↔
          object.prototype = none ∧ (pair.1 = protoKey → pair.2.isObjectLike = false) := by
        rw [BuiltObject.assign]
        by_cases hproto : pair.1 = protoKey
        · cases hlike : pair.2.isObjectLike <;> simp [hproto]
        · rw [if_neg hproto]
          split_ifs <;> simp [hproto]
      rw [BuiltObject.assignAll_cons, ih, hassign, List.forall_mem_cons, and_assoc]

/-- What is built from distinct names. -/
theorem BuiltObject.members_of_empty {pairs : List (JsString × Value)}
    (hnodup : (pairs.map Prod.fst).Nodup) :
    (BuiltObject.empty.assignAll pairs).members = pairs.filter (fun pair => pair.1 ≠ protoKey) :=
  (BuiltObject.assignAll_members hnodup (fun _ _ => List.not_mem_nil)).trans (List.nil_append _)

/-- Reading a member back. -/
theorem find?_of_nodup {pairs : List (JsString × Value)} (hnodup : (pairs.map Prod.fst).Nodup)
    {pair : JsString × Value} (hpair : pair ∈ pairs) :
    pairs.find? (fun m => m.1 = pair.1) = some pair := by
  induction pairs with
  | nil => exact absurd hpair List.not_mem_nil
  | cons first pairs ih =>
      rw [List.map_cons, List.nodup_cons] at hnodup
      rw [List.mem_cons] at hpair
      obtain rfl | hpair := hpair
      · simp
      · have hne : first.1 ≠ pair.1 := fun hsame =>
          hnodup.1 (hsame ▸ List.mem_map_of_mem hpair)
        rw [List.find?_cons_of_neg (by simpa using hne)]
        exact ih hnodup.2 hpair

theorem BuiltObject.ownMember?_assignAll {pairs : List (JsString × Value)}
    (hnodup : (pairs.map Prod.fst).Nodup) {name : JsString} {value : Value} :
    (BuiltObject.empty.assignAll pairs).toValue.ownMember? name = some value ↔
      name ≠ protoKey ∧ (name, value) ∈ pairs := by
  have hmembers := BuiltObject.members_of_empty hnodup
  rw [BuiltObject.toValue, Value.ownMember?, hmembers, Option.map_eq_some_iff]
  constructor
  · rintro ⟨pair, hfind, rfl⟩
    have hmem := List.mem_filter.mp (List.mem_of_find?_eq_some hfind)
    obtain rfl : pair.1 = name := by simpa using List.find?_some hfind
    exact ⟨by simpa using hmem.2, hmem.1⟩
  · rintro ⟨hproto, hpair⟩
    have hnodup' : ((pairs.filter (fun pair => pair.1 ≠ protoKey)).map Prod.fst).Nodup :=
      hnodup.sublist (List.filter_sublist.map _)
    exact ⟨(name, value), find?_of_nodup hnodup'
      (List.mem_filter.mpr ⟨hpair, by simpa using hproto⟩), rfl⟩

/-! What the loop over the fields builds -/

section Leaf

variable {rt : JsRuntime} {input : Value} {fields : List FormField}

theorem validateFieldValue_eq_ok {field : FormField} {value stored : Value}
    (h : validateFieldValue rt field value = .ok stored) : stored = value := by
  unfold validateFieldValue at h
  split at h
  · cases h
  · cases hchecked : Form.validateFieldValue rt field value.toJson <;> rw [hchecked] at h
    · cases h
    · exact (Except.ok.inj h).symm

theorem fieldOutcome_ne_error_nil (field : FormField) :
    fieldOutcome rt input field ≠ .error [] := by
  have hvalue : ∀ value, (validateFieldValue rt field value).map some ≠ .error [] := by
    intro value
    unfold validateFieldValue
    split
    · exact fun h => nomatch h
    · obtain hok | ⟨issue, rest, herror⟩ := validateFieldValue_cases rt field value.toJson
      · rw [hok]
        exact fun h => nomatch h
      · rw [herror]
        exact fun h => nomatch h
  unfold fieldOutcome
  split
  · split <;> exact fun h => nomatch h
  · split <;> exact fun h => nomatch h
  · exact hvalue _

/-- The assignment that the loop makes for a field. -/
def fieldPair (rt : JsRuntime) (input : Value) (field : FormField) : Option (JsString × Value) :=
  match fieldOutcome rt input field with
  | .ok (some value) => some (field.name, value)
  | _ => none

/-- The issues that the loop adds for a field. -/
def fieldIssues (rt : JsRuntime) (input : Value) (field : FormField) : List FormConfigIssue :=
  match fieldOutcome rt input field with
  | .ok _ => []
  | .error issues => issues

theorem foldl_evaluateField (evaluation : Evaluation) :
    fields.foldl (evaluateField rt input) evaluation =
      ⟨evaluation.value.assignAll (fields.filterMap (fieldPair rt input)),
        evaluation.issues ++ fields.flatMap (fieldIssues rt input)⟩ := by
  induction fields generalizing evaluation with
  | nil => simp [BuiltObject.assignAll]
  | cons field fields ih =>
      rw [List.foldl_cons, ih, List.filterMap_cons, List.flatMap_cons]
      simp only [evaluateField, fieldPair, fieldIssues]
      cases fieldOutcome rt input field with
      | error issues => simp
      | ok value =>
          cases value with
          | none => simp
          | some value => simp [BuiltObject.assignAll_cons]

theorem evaluateLeafConfig_issues :
    (evaluateLeafConfig rt fields input).issues = [] ↔
      isStrictJsonObject input = true ∧
        ∀ field ∈ fields, ∃ outcome, fieldOutcome rt input field = .ok outcome := by
  rw [evaluateLeafConfig]
  cases hstrict : isStrictJsonObject input with
  | false => simp [notObjectEvaluation, Form.notObjectEvaluation]
  | true =>
      rw [if_neg (by simp), foldl_evaluateField]
      simp only [List.nil_append, List.flatMap_eq_nil_iff, true_and]
      refine forall₂_congr fun field _ => ?_
      rw [fieldIssues]
      cases houtcome : fieldOutcome rt input field with
      | ok outcome => simp
      | error issues =>
          have hne : issues ≠ [] := fun hnil => fieldOutcome_ne_error_nil field (hnil ▸ houtcome)
          simp [hne]

theorem evaluateLeafConfig_value (h : isStrictJsonObject input = true) :
    (evaluateLeafConfig rt fields input).value =
      BuiltObject.empty.assignAll (fields.filterMap (fieldPair rt input)) := by
  rw [evaluateLeafConfig, h, if_neg (by simp), foldl_evaluateField]

theorem fieldPair_eq_some {field : FormField} {pair : JsString × Value} :
    fieldPair rt input field = some pair ↔
      pair.1 = field.name ∧ fieldOutcome rt input field = .ok (some pair.2) := by
  rw [fieldPair]
  split
  · rename_i value houtcome
    rw [houtcome]
    constructor
    · intro h
      cases h
      exact ⟨rfl, rfl⟩
    · rintro ⟨hname, hvalue⟩
      cases hvalue
      exact congrArg some (Prod.ext hname.symm rfl)
  · rename_i hnone
    constructor
    · intro h
      cases h
    · exact fun h => absurd h.2 (hnone _)

theorem fieldPairs_nodup (h : (fields.map FormField.name).Nodup) :
    ((fields.filterMap (fieldPair rt input)).map Prod.fst).Nodup := by
  induction fields with
  | nil => simp
  | cons field fields ih =>
      rw [List.map_cons, List.nodup_cons] at h
      rw [List.filterMap_cons]
      split
      · exact ih h.2
      · rename_i pair hpair
        rw [List.map_cons, List.nodup_cons]
        refine ⟨fun hmem => ?_, ih h.2⟩
        obtain ⟨other, hother, hname⟩ := List.mem_map.mp hmem
        obtain ⟨f, hf, hfpair⟩ := List.mem_filterMap.mp hother
        refine h.1 (List.mem_map.mpr ⟨f, hf, ?_⟩)
        rw [← (fieldPair_eq_some.mp hfpair).1, hname, (fieldPair_eq_some.mp hpair).1]

/-- The own property that the result has for a field. -/
theorem evaluateLeafConfig_ownMember? (hnodup : (fields.map FormField.name).Nodup)
    (hstrict : isStrictJsonObject input = true) {field : FormField} (hfield : field ∈ fields)
    {value : Value} :
    (evaluateLeafConfig rt fields input).value.toValue.ownMember? field.name = some value ↔
      field.name ≠ protoKey ∧ fieldOutcome rt input field = .ok (some value) := by
  rw [evaluateLeafConfig_value hstrict, BuiltObject.ownMember?_assignAll (fieldPairs_nodup hnodup),
    List.mem_filterMap]
  refine and_congr_right fun _ => ?_
  constructor
  · rintro ⟨other, hother, hpair⟩
    obtain ⟨hname, houtcome⟩ := fieldPair_eq_some.mp hpair
    obtain rfl : other = field := List.inj_on_of_nodup_map hnodup hother hfield hname.symm
    exact houtcome
  · exact fun houtcome => ⟨field, hfield, fieldPair_eq_some.mpr ⟨rfl, houtcome⟩⟩

theorem evaluateLeafConfig_ownKeys (hnodup : (fields.map FormField.name).Nodup)
    (hstrict : isStrictJsonObject input = true) {key : JsString}
    (hkey : key ∈ (evaluateLeafConfig rt fields input).value.toValue.ownKeys) :
    ∃ field ∈ fields, field.name = key := by
  rw [evaluateLeafConfig_value hstrict, BuiltObject.toValue, Value.ownKeys,
    BuiltObject.members_of_empty (fieldPairs_nodup hnodup)] at hkey
  obtain ⟨pair, hpair, rfl⟩ := List.mem_map.mp hkey
  obtain ⟨field, hfield, hsome⟩ := List.mem_filterMap.mp (List.mem_filter.mp hpair).1
  exact ⟨field, hfield, (fieldPair_eq_some.mp hsome).1.symm⟩

/-! Sound configurations -/

/-- The own properties of an object are what its fields allow. -/
structure SoundFields (rt : JsRuntime) (fields : List FormField) (object : Value) : Prop where
  declared : ∀ key ∈ object.ownKeys, ∃ field ∈ fields, field.name = key
  required : ∀ field ∈ fields, field.required = true →
    ∃ value, object.ownMember? field.name = some value ∧ value ≠ .json .null
  satisfied : ∀ field ∈ fields, ∀ value, object.ownMember? field.name = some value →
    ∃ stored, validateFieldValue rt field value = .ok stored
  disabled : ∀ field ∈ fields, field.disabled = true →
    object.ownMember? field.name = field.defaultValue.map .json

/-- A value that is assigned went through its check, and is not `null`. -/
theorem fieldOutcome_eq_some {field : FormField} {value : Value}
    (h : fieldOutcome rt input field = .ok (some value)) :
    candidateOf field input = some value ∧ value ≠ .json .null ∧
      validateFieldValue rt field value = .ok value := by
  unfold fieldOutcome at h
  split at h
  · split at h <;> cases h
  · split at h <;> cases h
  · rename_i candidate hnull hcandidate
    cases hchecked : validateFieldValue rt field candidate <;> rw [hchecked] at h
    · cases h
    · cases h
      obtain rfl := validateFieldValue_eq_ok hchecked
      exact ⟨hcandidate, hnull, hchecked⟩

/-- Nothing is assigned for a field without a candidate, and the field is not required. -/
theorem fieldOutcome_eq_none {field : FormField} :
    fieldOutcome rt input field = .ok none ↔
      (candidateOf field input = none ∨ candidateOf field input = some (.json .null)) ∧
        field.required = false := by
  unfold fieldOutcome
  split
  · rename_i hcandidate
    cases field.required <;> simp [hcandidate]
  · rename_i hcandidate
    cases field.required <;> simp [hcandidate]
  · rename_i candidate hnull hcandidate
    have hne : candidate ≠ .json .null := hnull
    cases validateFieldValue rt field candidate <;> simp [hcandidate, hne, Except.map]

/-- The object that the loop builds is sound unless a field named `__proto__` has to be in it. -/
theorem soundFields_iff (hnodup : (fields.map FormField.name).Nodup)
    (hnull : ∀ field ∈ fields, field.defaultValue ≠ some .null)
    (h : (evaluateLeafConfig rt fields input).issues = []) :
    SoundFields rt fields (evaluateLeafConfig rt fields input).value.toValue ↔
      ∀ field ∈ fields, field.name = protoKey →
        field.required = false ∧ (field.disabled = true → field.defaultValue = none) := by
  obtain ⟨hstrict, hok⟩ := evaluateLeafConfig_issues.mp h
  have hown : ∀ field ∈ fields, field.name = protoKey →
      (evaluateLeafConfig rt fields input).value.toValue.ownMember? field.name = none := by
    intro field hfield hproto
    cases hvalue : (evaluateLeafConfig rt fields input).value.toValue.ownMember? field.name with
    | none => rfl
    | some value =>
        exact absurd hproto
          ((evaluateLeafConfig_ownMember? hnodup hstrict hfield).mp hvalue).1
  constructor
  · intro hsound field hfield hproto
    constructor
    · cases hrequired : field.required with
      | false => rfl
      | true =>
          obtain ⟨value, hvalue, -⟩ := hsound.required field hfield hrequired
          rw [hown field hfield hproto] at hvalue
          cases hvalue
    · intro hdisabled
      have hdefault := hsound.disabled field hfield hdisabled
      rw [hown field hfield hproto] at hdefault
      exact Option.map_eq_none_iff.mp hdefault.symm
  · intro hcondition
    constructor
    · exact fun key hkey => evaluateLeafConfig_ownKeys hnodup hstrict hkey
    · intro field hfield hrequired
      have hproto : field.name ≠ protoKey := fun hproto =>
        absurd (hcondition field hfield hproto).1 (by simp [hrequired])
      obtain ⟨outcome, houtcome⟩ := hok field hfield
      cases outcome with
      | none => exact absurd (fieldOutcome_eq_none.mp houtcome).2 (by simp [hrequired])
      | some value =>
          exact ⟨value,
            (evaluateLeafConfig_ownMember? hnodup hstrict hfield).mpr ⟨hproto, houtcome⟩,
            (fieldOutcome_eq_some houtcome).2.1⟩
    · intro field hfield value hvalue
      have houtcome := ((evaluateLeafConfig_ownMember? hnodup hstrict hfield).mp hvalue).2
      exact ⟨value, (fieldOutcome_eq_some houtcome).2.2⟩
    · intro field hfield hdisabled
      by_cases hproto : field.name = protoKey
      · rw [hown field hfield hproto, (hcondition field hfield hproto).2 hdisabled, Option.map_none]
      · have hcandidate : candidateOf field input = field.defaultValue.map .json :=
          if_pos hdisabled
        obtain ⟨outcome, houtcome⟩ := hok field hfield
        cases outcome with
        | none =>
            have hdefault : field.defaultValue = none := by
              obtain hnone | hsome := hcandidate ▸ (fieldOutcome_eq_none.mp houtcome).1
              · exact Option.map_eq_none_iff.mp hnone
              · obtain ⟨d, hd, hjson⟩ := Option.map_eq_some_iff.mp hsome
                cases hjson
                exact absurd hd (hnull field hfield)
            cases hvalue :
                (evaluateLeafConfig rt fields input).value.toValue.ownMember? field.name with
            | none => rw [hdefault, Option.map_none]
            | some value =>
                have := ((evaluateLeafConfig_ownMember? hnodup hstrict hfield).mp hvalue).2
                cases houtcome.symm.trans this
        | some value =>
            rw [(evaluateLeafConfig_ownMember? hnodup hstrict hfield).mpr ⟨hproto, houtcome⟩,
              ← hcandidate, (fieldOutcome_eq_some houtcome).1]

end Leaf

/-! Templates with tabs -/

section Tabs

variable {rt : JsRuntime} {input : Value} {nodes : List TabFormNode}

/-- The assignment that the loop makes for a tab. -/
def tabPair (rt : JsRuntime) (input : Value) (node : TabFormNode) : JsString × Value :=
  (node.name, (evaluateLeafConfig rt node.children (tabInput node input)).value.toValue)

theorem foldl_evaluateTab (evaluation : Evaluation) :
    nodes.foldl (evaluateTab rt input) evaluation =
      ⟨evaluation.value.assignAll (nodes.map (tabPair rt input)),
        evaluation.issues ++ nodes.flatMap (fun node =>
          (evaluateLeafConfig rt node.children (tabInput node input)).issues.map
            (prefixIssue node.name))⟩ := by
  induction nodes generalizing evaluation with
  | nil => simp [BuiltObject.assignAll]
  | cons node nodes ih =>
      rw [List.foldl_cons, ih, List.map_cons, List.flatMap_cons, BuiltObject.assignAll_cons,
        ← List.append_assoc]
      rfl

theorem evaluateTabs_issues :
    (evaluateConfig rt (.tabs nodes) input).issues = [] ↔
      isStrictJsonObject input = true ∧ ∀ node ∈ nodes,
        (evaluateLeafConfig rt node.children (tabInput node input)).issues = [] := by
  rw [evaluateConfig]
  cases hstrict : isStrictJsonObject input with
  | false => simp [notObjectEvaluation, Form.notObjectEvaluation]
  | true =>
      rw [if_neg (by simp), foldl_evaluateTab]
      simp

theorem evaluateTabs_value (h : isStrictJsonObject input = true) :
    (evaluateConfig rt (.tabs nodes) input).value =
      BuiltObject.empty.assignAll (nodes.map (tabPair rt input)) := by
  rw [evaluateConfig, h, if_neg (by simp), foldl_evaluateTab]

theorem tabPairs_nodup (h : (nodes.map TabFormNode.name).Nodup) :
    ((nodes.map (tabPair rt input)).map Prod.fst).Nodup := by
  rwa [List.map_map]

/-- The own property that the result has for a tab. -/
theorem evaluateTabs_ownMember? (hnodup : (nodes.map TabFormNode.name).Nodup)
    (hstrict : isStrictJsonObject input = true) {node : TabFormNode} (hnode : node ∈ nodes) :
    (evaluateConfig rt (.tabs nodes) input).value.toValue.ownMember? node.name =
      if node.name = protoKey then none
      else some (evaluateLeafConfig rt node.children (tabInput node input)).value.toValue := by
  rw [evaluateTabs_value hstrict]
  split
  · rename_i hproto
    cases hvalue : (BuiltObject.empty.assignAll
        (nodes.map (tabPair rt input))).toValue.ownMember? node.name with
    | none => rfl
    | some value =>
        exact absurd hproto ((BuiltObject.ownMember?_assignAll (tabPairs_nodup hnodup)).mp hvalue).1
  · rename_i hproto
    exact (BuiltObject.ownMember?_assignAll (tabPairs_nodup hnodup)).mpr
      ⟨hproto, List.mem_map.mpr ⟨node, hnode, rfl⟩⟩

theorem evaluateTabs_ownKeys (hnodup : (nodes.map TabFormNode.name).Nodup)
    (hstrict : isStrictJsonObject input = true) {key : JsString}
    (hkey : key ∈ (evaluateConfig rt (.tabs nodes) input).value.toValue.ownKeys) :
    ∃ node ∈ nodes, node.name = key := by
  rw [evaluateTabs_value hstrict, BuiltObject.toValue, Value.ownKeys,
    BuiltObject.members_of_empty (tabPairs_nodup hnodup)] at hkey
  obtain ⟨pair, hpair, rfl⟩ := List.mem_map.mp hkey
  obtain ⟨node, hnode, rfl⟩ := List.mem_map.mp (List.mem_filter.mp hpair).1
  exact ⟨node, hnode, rfl⟩

end Tabs

theorem validateFormConfigValues_eq_ok {rt : JsRuntime} {schema : FormSchema} {input v : Value} :
    validateFormConfigValues rt schema input = .ok v ↔
      (evaluateConfig rt schema input).issues = [] ∧
        (evaluateConfig rt schema input).value.toValue = v := by
  rw [validateFormConfigValues]
  cases evaluateConfig rt schema input with
  | mk object issues => cases issues <;> simp

/-! Sound effective configurations -/

/-- The own properties of a configuration, and of the object of each tab, are what the template
allows. A tab without an object has no properties. -/
def Sound (rt : JsRuntime) : FormSchema → Value → Prop
  | .flat fields, v => SoundFields rt fields v
  | .tabs nodes, v => (∀ key ∈ v.ownKeys, ∃ node ∈ nodes, node.name = key) ∧
      ∀ node ∈ nodes, SoundFields rt node.children (tabInput node v)

theorem soundFields_empty {rt : JsRuntime} {fields : List FormField} :
    SoundFields rt fields (.json (.object [])) ↔ ∀ field ∈ fields,
      field.required = false ∧ (field.disabled = true → field.defaultValue = none) := by
  constructor
  · intro h field hfield
    constructor
    · cases hrequired : field.required with
      | false => rfl
      | true =>
          obtain ⟨value, hvalue, -⟩ := h.required field hfield hrequired
          cases hvalue
    · exact fun hdisabled => Option.map_eq_none_iff.mp (h.disabled field hfield hdisabled).symm
  · intro h
    constructor
    · exact fun key hkey => absurd hkey List.not_mem_nil
    · exact fun field hfield hrequired => absurd (h field hfield).1 (by simp [hrequired])
    · exact fun field hfield value hvalue => nomatch hvalue
    · intro field hfield hdisabled
      rw [(h field hfield).2 hdisabled]
      rfl

/-- The result of a validation is sound exactly when the template has no field that must be set,
by a required value or by the default of a disabled field, behind the name `__proto__`. -/
theorem sound_iff {rt : JsRuntime} {template : Json} {schema : FormSchema} {x v : Value}
    (hschema : Form.validateFormSchema rt template = .ok schema)
    (hvalues : validateFormConfigValues rt schema x = .ok v) :
    Sound rt schema v ↔ ∀ leaf ∈ listFormFields schema, protoKey ∈ leaf.path →
      leaf.field.required = false ∧
        (leaf.field.disabled = true → leaf.field.defaultValue = none) := by
  have haccepted := accepted_of_validateFormSchema hschema
  have hnull : ∀ leaf ∈ listFormFields schema, leaf.field.defaultValue ≠ some .null := by
    intro leaf hleaf
    obtain ⟨field, formField, index, context, hfield, hformField⟩ := haccepted.field hleaf
    rw [hformField]
    exact hfield.defaultValue_ne_null
  obtain ⟨hissues, rfl⟩ := validateFormConfigValues_eq_ok.mp hvalues
  cases schema with
  | flat fields =>
      have hleaf : ∀ f ∈ fields, (⟨f, [f.name]⟩ : FormFieldPath) ∈ listFormFields (.flat fields) :=
        fun f hf => List.mem_map_of_mem hf
      refine (soundFields_iff haccepted.nodup (fun f hf => hnull _ (hleaf f hf)) hissues).trans ?_
      constructor
      · intro h leaf hmem hproto
        obtain ⟨f, hf, rfl⟩ := List.mem_map.mp hmem
        exact h f hf (List.mem_singleton.mp hproto).symm
      · exact fun h f hf hproto => h _ (hleaf f hf) (List.mem_singleton.mpr hproto.symm)
  | tabs nodes =>
      have hleaf : ∀ node ∈ nodes, ∀ f ∈ node.children,
          (⟨f, [node.name, f.name]⟩ : FormFieldPath) ∈ listFormFields (.tabs nodes) :=
        fun node hnode f hf => List.mem_flatMap.mpr ⟨node, hnode, List.mem_map_of_mem hf⟩
      obtain ⟨hstrict, hchildren⟩ := evaluateTabs_issues.mp hissues
      have hkeys := fun key hkey => @evaluateTabs_ownKeys rt x nodes haccepted.2 hstrict key hkey
      have htab : ∀ node ∈ nodes,
          SoundFields rt node.children
              (tabInput node (evaluateConfig rt (.tabs nodes) x).value.toValue) ↔
            ∀ field ∈ node.children, node.name = protoKey ∨ field.name = protoKey →
              field.required = false ∧ (field.disabled = true → field.defaultValue = none) := by
        intro node hnode
        rw [tabInput, evaluateTabs_ownMember? haccepted.2 hstrict hnode]
        by_cases hproto : node.name = protoKey
        · rw [if_pos hproto, Option.getD_none, soundFields_empty]
          simp [hproto]
        · rw [if_neg hproto, Option.getD_some, soundFields_iff (haccepted.1 node hnode).nodup
            (fun f hf => hnull _ (hleaf node hnode f hf)) (hchildren node hnode)]
          simp [hproto]
      constructor
      · rintro ⟨-, hsound⟩ leaf hmem hproto
        obtain ⟨node, hnode, hchild⟩ := List.mem_flatMap.mp hmem
        obtain ⟨f, hf, rfl⟩ := List.mem_map.mp hchild
        refine (htab node hnode).mp (hsound node hnode) f hf ?_
        simpa [eq_comm] using hproto
      · intro h
        refine ⟨hkeys, fun node hnode => (htab node hnode).mpr fun f hf hproto => ?_⟩
        refine h _ (hleaf node hnode f hf) ?_
        simpa [eq_comm] using hproto

/-- The text of a template whose only field has to be set and is called `__proto__`. -/
def protoTemplate : Json :=
  .array [.object [
    (ofString "type", .string (ofString "input")),
    (ofString "name", .string (ofString "__proto__")),
    (ofString "label", .string (ofString "Prototype")),
    (ofString "required", .bool true)]]

def protoField : FormField where
  type := .input
  name := ofString "__proto__"
  defaultValue := none
  required := true
  disabled := false
  sensitive := none
  minLength := none
  maxLength := none
  min := none
  max := none
  step := none
  pattern := none
  options := []
  allowedExtensions := []
  fileNamePattern := none
  maxSizeBytes := none

/-- What `JSON.parse` makes of a configuration that sets the field. -/
def protoConfig : Value :=
  .json (.object [(ofString "__proto__", .string (ofString "a"))])

/-- The result at that template. -/
theorem sound_protoTemplate_iff :
    Sound noLibrary (.flat [protoField]) (.object [] none) ↔
      ∀ leaf ∈ listFormFields (.flat [protoField]), protoKey ∈ leaf.path →
        leaf.field.required = false ∧
          (leaf.field.disabled = true → leaf.field.defaultValue = none) :=
  sound_iff (show Form.validateFormSchema noLibrary protoTemplate = _ from rfl)
    (show validateFormConfigValues noLibrary (.flat [protoField]) protoConfig = _ from rfl)

/-- The configuration is accepted, and its required value is gone. -/
theorem protoConfig_not_sound :
    Form.validateFormSchema noLibrary protoTemplate = .ok (.flat [protoField]) ∧
      validateFormConfigValues noLibrary (.flat [protoField]) protoConfig =
        .ok (.object [] none) ∧
      ¬ Sound noLibrary (.flat [protoField]) (.object [] none) := by
  refine ⟨rfl, rfl, fun hsound => ?_⟩
  obtain ⟨value, hvalue, -⟩ := hsound.required protoField List.mem_cons_self rfl
  cases hvalue

end AnvilRun.Form.Objects
