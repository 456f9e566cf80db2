import AnvilRun.FormSchema.EffectiveConfig
import AnvilRun.Websocket.Validate

namespace AnvilRun.Form.Objects

open AnvilRun.ValidationPrimitives
open AnvilRun.Websocket (configObject configValue isFileValue)
open JsString

/-- What a reader of own properties sees of a configuration. -/
def Value.toJsValue (value : Value) : JsValue :=
  JsValue.ofJson value.toJson

/-! The properties of the values of a document -/

theorem ofMembers_eq (members : List (JsString × Json)) :
    JsValue.ofMembers members = members.map (fun m => (m.1, JsValue.ofJson m.2)) := by
  induction members with
  | nil => rfl
  | cons m members ih => rw [JsValue.ofMembers, ih, List.map_cons]

theorem ofItems_eq (items : List Json) :
    JsValue.ofItems items = items.map (fun item => some (JsValue.ofJson item)) := by
  induction items with
  | nil => rfl
  | cons item items ih => rw [JsValue.ofItems, ih, List.map_cons]

theorem objectKeys_ofJson (value : Json) :
    (JsValue.ofJson value).objectKeys = objectKeys value := by
  cases value with
  | object members =>
      rw [JsValue.ofJson, JsValue.ofProperties, JsValue.objectKeys, ofMembers_eq, List.map_map]
      rfl
  | _ => rfl

theorem find?_ofMembers (members : List (JsString × Json)) (key : JsString) :
    (JsValue.ofMembers members).reverse.find? (fun m => m.1 = key) =
      (members.reverse.find? (fun m => m.1 = key)).map (fun m => (m.1, JsValue.ofJson m.2)) := by
  rw [ofMembers_eq, ← List.map_reverse, List.find?_map]
  rfl

/-- Of the members with one name the last counts. -/
theorem property_ofJson (value : Json) (key : JsString) :
    (JsValue.ofJson value).property key =
      ((value.member? key).map JsValue.ofJson).getD .undefined := by
  cases value with
  | object members =>
      rw [JsValue.ofJson, JsValue.ofProperties, JsValue.property, find?_ofMembers, Json.member?]
      split
      · rw [Option.map_map, Option.map_map]
        rfl
      · rename_i hkey
        have hnone : members.reverse.find? (fun m => m.1 = key) = none := by
          rw [List.find?_eq_none]
          intro m hm hsame
          refine hkey (List.mem_eraseDups.mpr ?_)
          rw [ofMembers_eq, List.map_map]
          exact List.mem_map.mpr ⟨m, List.mem_reverse.mp hm, of_decide_eq_true hsame⟩
        rw [hnone]
        rfl
  | _ => rfl

theorem exists_member {members : List (JsString × Json)} {key : JsString}
    (hkey : key ∈ (JsValue.ofJson (.object members)).objectKeys) :
    ∃ m ∈ members, m.1 = key ∧
      (JsValue.ofJson (.object members)).property key = JsValue.ofJson m.2 := by
  rw [objectKeys_ofJson, objectKeys, List.mem_eraseDups] at hkey
  obtain ⟨m, hm, hname⟩ := List.mem_map.mp hkey
  rw [property_ofJson, Json.member?]
  cases hfind : members.reverse.find? (fun m => m.1 = key) with
  | none =>
      have hnot := List.find?_eq_none.mp hfind m (List.mem_reverse.mpr hm)
      exact absurd (decide_eq_true hname) hnot
  | some found =>
      exact ⟨found, List.mem_reverse.mp (List.mem_of_find?_eq_some hfind),
        by simpa using List.find?_some hfind, rfl⟩

/-! What the protocol asks of the members of an object -/

/-- A member that may stand in an object, with some levels of objects below it. -/
def PassesAt (levels : Nat) (member : JsString × Json) : Prop :=
  matchesFormFieldName member.1 = true ∧ configValue levels (JsValue.ofJson member.2) = true

theorem configValue_succ {levels : Nat} {object : JsValue}
    (hobject : Websocket.isPlainObject object = true)
    (h : ∀ key ∈ object.objectKeys,
      matchesFormFieldName key = true ∧ configValue levels (object.property key) = true) :
    configValue (levels + 1) object = true := by
  cases object with
  | object keys value =>
      rw [configValue, Bool.or_eq_true]
      right
      rw [List.all_eq_true]
      intro key hkey
      have hpasses := h key hkey
      rw [JsValue.property, if_pos hkey] at hpasses
      exact Bool.and_eq_true_iff.mpr hpasses
  | _ => cases hobject

theorem configValue_object {levels : Nat} {members : List (JsString × Json)}
    (h : ∀ m ∈ members, PassesAt levels m) :
    configValue (levels + 1) (JsValue.ofJson (.object members)) = true := by
  apply configValue_succ
  · rfl
  · intro key hkey
    obtain ⟨m, hm, rfl, hvalue⟩ := exists_member hkey
    rw [hvalue]
    exact h m hm

theorem configObject_object {members : List (JsString × Json)} (h : ∀ m ∈ members, PassesAt 2 m)
    (path : Websocket.Path) : configObject (JsValue.ofJson (.object members)) path = [] := by
  rw [configObject, Websocket.objectValue, if_pos (by rfl), List.flatMap_eq_nil_iff]
  intro key hkey
  obtain ⟨m, hm, rfl, hvalue⟩ := exists_member hkey
  rw [Websocket.issueUnless_eq_nil, hvalue, Bool.and_eq_true]
  exact h m hm

/-! The values that the checks of the fields let through -/

theorem configValue_of_asOptionValue {value : Json} {option : FormFieldOptionValue}
    (h : asOptionValue (some value) = some option) :
    Websocket.isString (JsValue.ofJson value) = true ∨
      Websocket.isFiniteNumber (JsValue.ofJson value) = true := by
  unfold asOptionValue at h
  split at h
  · rename_i hvalue
    cases hvalue
    exact .inl rfl
  · rename_i hvalue
    cases hvalue
    exact .inr rfl
  · cases h

theorem configValue_of_scalar {value : JsValue}
    (h : Websocket.isString value = true ∨ Websocket.isFiniteNumber value = true) (levels : Nat) :
    configValue levels value = true := by
  cases value with
  | string s => simp [configValue]
  | number n => simpa [configValue, Websocket.isString] using h
  | _ => simp [Websocket.isString, Websocket.isFiniteNumber] at h

theorem exists_asOptionValue {field : FormField} {value : Json} {items : List Json}
    {index : Nat} {values : List FormFieldOptionValue}
    (h : validateCheckboxItems field value index values items = []) :
    ∀ item ∈ items, ∃ option, asOptionValue (some item) = some option := by
  induction items generalizing index values with
  | nil => exact List.forall_mem_nil _
  | cons item items ih =>
      rw [validateCheckboxItems] at h
      split at h
      · cases h
      · rename_i option hoption
        rw [List.forall_mem_cons]
        refine ⟨⟨option, hoption⟩, ?_⟩
        split at h
        · cases h
        · split at h
          · cases h
          · exact ih h

theorem isFileValue_of_isFileConfigValue {rt : JsRuntime} {field : FormField} {value : Json}
    (h : isFileConfigValue rt field value = true) : isFileValue (JsValue.ofJson value) = true := by
  simp only [isFileConfigValue, prop, Bool.and_eq_true, beq_iff_eq] at h
  obtain ⟨hkeys, h⟩ := h
  split at h
  · rename_i fileId fileName size sha256 hfileId hfileName hsize hsha256
    simp only [Bool.and_eq_true] at h
    obtain ⟨⟨-, hdigest⟩, hfinite⟩ := h
    cases size with
    | finite q =>
        rw [isFileValue, objectKeys_ofJson, hkeys, property_ofJson, property_ofJson,
          property_ofJson, property_ofJson, hfileId, hfileName, hsize, hsha256]
        exact hdigest
    | _ => cases hfinite
  · cases h

theorem configValue_of_isFileValue {value : JsValue}
    (hobject : Websocket.isPlainObject value = true) (h : isFileValue value = true)
    (levels : Nat) : configValue levels value = true := by
  cases value with
  | object keys value =>
      cases levels with
      | zero => rw [configValue, h, Bool.true_or]
      | succ levels => rw [configValue, h, Bool.true_or]
  | _ => cases hobject

theorem checkedValue_eq_ok {value stored : Json} {issues : List FormConfigIssue}
    (h : checkedValue value issues = .ok stored) : issues = [] := by
  cases issues with
  | nil => rfl
  | cons issue issues => cases h

theorem configValue_of_validateFieldValue {rt : JsRuntime} {field : FormField}
    {value stored : Json} (h : Form.validateFieldValue rt field value = .ok stored)
    (levels : Nat) : configValue levels (JsValue.ofJson value) = true := by
  have htext : validateTextValue rt field value = .ok stored →
      configValue levels (JsValue.ofJson value) = true := by
    intro h
    unfold validateTextValue at h
    split at h
    · exact configValue_of_scalar (.inl rfl) levels
    · cases h
  have hoption : validateOptionValue field value = .ok stored →
      configValue levels (JsValue.ofJson value) = true := by
    intro h
    unfold validateOptionValue at h
    split at h
    · cases h
    · rename_i hsome
      exact configValue_of_scalar (configValue_of_asOptionValue hsome) levels
  cases htype : field.type <;> simp only [Form.validateFieldValue, htype] at h
  case input | textarea | password => exact htext h
  case select | radio => exact hoption h
  case number =>
    unfold validateNumberValue at h
    split at h
    · exact configValue_of_scalar (.inr rfl) levels
    · cases h
  case checkbox =>
    unfold validateCheckboxValue at h
    split at h
    · rename_i items
      have hitems := exists_asOptionValue (checkedValue_eq_ok h)
      rw [JsValue.ofJson, configValue, ofItems_eq, List.all_map, List.all_eq_true]
      intro item hitem
      obtain ⟨option, hoption⟩ := hitems item hitem
      exact Bool.or_eq_true_iff.mpr (configValue_of_asOptionValue hoption)
    · cases h
  case switch =>
    split at h
    · simp [JsValue.ofJson, configValue]
    · cases h
  case date =>
    split at h
    · rename_i hdate
      cases value with
      | string s => exact configValue_of_scalar (.inl rfl) levels
      | _ => cases hdate
    · cases h
  case file =>
    unfold validateFileValue at h
    split at h
    · cases h
    · split at h
      · rename_i hobject hfile
        have hvalue := isFileValue_of_isFileConfigValue hfile
        cases value with
        | object members => exact configValue_of_isFileValue rfl hvalue levels
        | _ => exact absurd rfl hobject
      · cases h

/-! What the evaluator returns -/

section Leaf

variable {rt : JsRuntime} {input : Value} {fields : List FormField}

theorem passesAt_of_fieldOutcome {field : FormField} {value : Value}
    (hname : matchesFormFieldName field.name = true)
    (h : fieldOutcome rt input field = .ok (some value)) (levels : Nat) :
    PassesAt levels (field.name, value.toJson) := by
  obtain ⟨-, -, hchecked⟩ := fieldOutcome_eq_some h
  refine ⟨hname, ?_⟩
  unfold validateFieldValue at hchecked
  split at hchecked
  · cases hchecked
  · cases hjson : Form.validateFieldValue rt field value.toJson with
    | ok stored => exact configValue_of_validateFieldValue hjson levels
    | error issues =>
        rw [hjson] at hchecked
        cases hchecked

/-- The members of a built object are among the assignments it was built from. -/
theorem toJson_assignAll {pairs : List (JsString × Value)} (hnodup : (pairs.map Prod.fst).Nodup)
    {levels : Nat} (h : ∀ pair ∈ pairs, PassesAt levels (pair.1, pair.2.toJson)) :
    ∃ members, (BuiltObject.empty.assignAll pairs).toValue.toJson = .object members ∧
      ∀ m ∈ members, PassesAt levels m := by
  refine ⟨_, rfl, ?_⟩
  rw [membersToJson_eq, BuiltObject.members_of_empty hnodup, List.forall_mem_map]
  exact fun pair hpair => h pair (List.mem_filter.mp hpair).1

theorem evaluateLeafConfig_passes (haccepted : AcceptedFields rt fields)
    (hissues : (evaluateLeafConfig rt fields input).issues = []) (levels : Nat) :
    ∃ members, (evaluateLeafConfig rt fields input).value.toValue.toJson = .object members ∧
      ∀ m ∈ members, PassesAt levels m := by
  rw [evaluateLeafConfig_value (evaluateLeafConfig_issues.mp hissues).1]
  apply toJson_assignAll (fieldPairs_nodup haccepted.nodup)
  intro pair hpair
  obtain ⟨field, hfield, hsome⟩ := List.mem_filterMap.mp hpair
  obtain ⟨hname, houtcome⟩ := fieldPair_eq_some.mp hsome
  obtain ⟨_, formField, _, _, hchecked, rfl⟩ := haccepted.accepted field hfield
  rw [hname]
  refine passesAt_of_fieldOutcome ?_ houtcome levels
  rw [normalizeField_name]
  exact hchecked.name

end Leaf

/-- A configuration that the form validator returns passes the protocol. -/
theorem configObject_of_validateFormConfigValues {rt : JsRuntime} {template : Json}
    {schema : FormSchema} {x v : Value}
    (hschema : Form.validateFormSchema rt template = .ok schema)
    (hvalues : validateFormConfigValues rt schema x = .ok v) (path : Websocket.Path) :
    configObject v.toJsValue path = [] := by
  have haccepted := accepted_of_validateFormSchema hschema
  obtain ⟨hissues, rfl⟩ := validateFormConfigValues_eq_ok.mp hvalues
  cases schema with
  | flat fields =>
      obtain ⟨members, hmembers, hpasses⟩ := evaluateLeafConfig_passes haccepted hissues 2
      rw [Value.toJsValue, evaluateConfig, hmembers]
      exact configObject_object hpasses path
  | tabs nodes =>
      obtain ⟨hstrict, hchildren⟩ := evaluateTabs_issues.mp hissues
      have htabs : ∀ pair ∈ nodes.map (tabPair rt x), PassesAt 2 (pair.1, pair.2.toJson) := by
        rw [List.forall_mem_map]
        intro node hnode
        obtain ⟨members, hmembers, hpasses⟩ :=
          evaluateLeafConfig_passes (haccepted.1 node hnode) (hchildren node hnode) 1
        refine ⟨tabName_of_validateFormSchema hschema hnode, ?_⟩
        rw [tabPair, hmembers]
        exact configValue_object hpasses
      obtain ⟨members, hmembers, hpasses⟩ :=
        toJson_assignAll (tabPairs_nodup haccepted.2) htabs
      rw [Value.toJsValue, evaluateTabs_value hstrict, hmembers]
      exact configObject_object hpasses path

/-- The text of a template with a file below a tab. -/
def tabTemplate : Json :=
  .array [.object [
    (ofString "type", .string (ofString "tab")),
    (ofString "name", .string (ofString "build")),
    (ofString "label", .string (ofString "Build")),
    (ofString "children", .array [.object [
      (ofString "type", .string (ofString "file")),
      (ofString "name", .string (ofString "archive")),
      (ofString "label", .string (ofString "Archive")),
      (ofString "allowedExtensions", .array [.string (ofString ".zip")])]])]]

def archiveField : FormField where
  type := .file
  name := ofString "archive"
  defaultValue := none
  required := false
  disabled := false
  sensitive := none
  minLength := none
  maxLength := none
  min := none
  max := none
  step := none
  pattern := none
  options := []
  allowedExtensions := [ofString ".zip"]
  fileNamePattern := none
  maxSizeBytes := none

def archiveValue : Json :=
  .object [
    (ofString "fileId", .string (ofString "00000000-0000-4000-8000-000000000000")),
    (ofString "fileName", .string (ofString "a.zip")),
    (ofString "size", .number (.finite 0)),
    (ofString "sha256", .string (List.replicate 64 48))]

def tabConfig : Json :=
  .object [(ofString "build", .object [(ofString "archive", archiveValue)])]

/-- The result at that template, with a file in the configuration. -/
theorem configObject_tabConfig :
    validateFormConfigValues noLibrary (.tabs [⟨ofString "build", [archiveField]⟩])
      (.json tabConfig) = .ok (.object
        [(ofString "build", .object [(ofString "archive", .json archiveValue)] none)] none) ∧
      configObject (Value.object
        [(ofString "build", .object [(ofString "archive", .json archiveValue)] none)]
          none).toJsValue [] = [] :=
  have hvalues : validateFormConfigValues noLibrary (.tabs [⟨ofString "build", [archiveField]⟩])
      (.json tabConfig) = .ok (.object
        [(ofString "build", .object [(ofString "archive", .json archiveValue)] none)] none) := rfl
  ⟨hvalues, configObject_of_validateFormConfigValues
    (show Form.validateFormSchema noLibrary tabTemplate = _ from rfl) hvalues []⟩

end AnvilRun.Form.Objects
