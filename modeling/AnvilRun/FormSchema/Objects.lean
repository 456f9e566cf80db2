import AnvilRun.FormSchema.Defaults

namespace AnvilRun.Form.Objects

open AnvilRun.ValidationPrimitives
open JsString

/-! Values in memory -/

/-- What `JSON.parse` makes, or an object that the evaluator builds. Such an object inherits from
`Object.prototype` until a value is assigned to its `__proto__`. -/
inductive Value where
  | json (value : Json)
  | object (members : List (JsString × Value)) (prototype : Option Value)

def protoKey : JsString := ofString "__proto__"

mutual

/-- What `JSON.stringify` sees of a value: the own members. -/
def Value.toJson : Value → Json
  | .json value => value
  | .object members _ => .object (membersToJson members)

def membersToJson : List (JsString × Value) → List (JsString × Json)
  | [] => []
  | (name, value) :: members => (name, value.toJson) :: membersToJson members

end

/-- Reading an own property; no inherited one is ever read. -/
def Value.ownMember? (key : JsString) : Value → Option Value
  | .json value => (value.member? key).map .json
  | .object members _ => (members.find? (fun m => m.1 = key)).map Prod.snd

def Value.ownKeys : Value → List JsString
  | .json value => objectKeys value
  | .object members _ => members.map Prod.fst

/-- `JSON.parse` never changes a prototype, also not for a member `__proto__`. -/
def isStrictJsonObject : Value → Bool
  | .json value => isPlainObject value
  | .object _ prototype => prototype.isNone

/-- Whether `typeof value` is `object`, for values other than `null`. -/
def Value.isObjectLike : Value → Bool
  | .json (.array _) => true
  | .json (.object _) => true
  | .json _ => false
  | .object _ _ => true

/-- An object that the evaluator builds. -/
structure BuiltObject where
  members : List (JsString × Value)
  prototype : Option Value

def BuiltObject.empty : BuiltObject := ⟨[], none⟩

def BuiltObject.toValue (object : BuiltObject) : Value :=
  .object object.members object.prototype

/-- `object[name] = value` for a value other than `null`. The setter of `__proto__` takes objects
and ignores primitive values. -/
def BuiltObject.assign (object : BuiltObject) (name : JsString) (value : Value) : BuiltObject :=
  if name = protoKey then
    if value.isObjectLike then { object with prototype := some value } else object
  else if object.members.any (fun m => m.1 = name) then
    { object with members := object.members.map (fun m => if m.1 = name then (name, value) else m) }
  else { object with members := object.members ++ [(name, value)] }

/-! The evaluator -/

/-- The checks read own members only, which `toJson` keeps; that of a file also asks for the
prototype. The value that is returned is the one that was checked. -/
def validateFieldValue (rt : JsRuntime) (field : FormField) (value : Value) :
    Except (List FormConfigIssue) Value :=
  if field.type = .file ∧ isStrictJsonObject value = false then
    .error [fieldTypeIssue field value.toJson]
  else (Form.validateFieldValue rt field value.toJson).map (fun _ => value)

structure Evaluation where
  value : BuiltObject
  issues : List FormConfigIssue

def notObjectEvaluation (input : Value) : Evaluation :=
  ⟨.empty, (Form.notObjectEvaluation input.toJson).issues⟩

def candidateOf (field : FormField) (input : Value) : Option Value :=
  if field.disabled then field.defaultValue.map .json
  else (input.ownMember? field.name).or (field.defaultValue.map .json)

/-- What the loop finds for a field: a value to assign, nothing, or issues. -/
def fieldOutcome (rt : JsRuntime) (input : Value) (field : FormField) :
    Except (List FormConfigIssue) (Option Value) :=
  match candidateOf field input with
  | none => if field.required then .error [requiredIssue field none] else .ok none
  | some (.json .null) =>
      if field.required then .error [requiredIssue field (some .null)] else .ok none
  | some candidate => (validateFieldValue rt field candidate).map some

/-- The step of the loop over the fields. -/
def evaluateField (rt : JsRuntime) (input : Value) (evaluation : Evaluation) (field : FormField) :
    Evaluation :=
  match fieldOutcome rt input field with
  | .ok none => evaluation
  | .ok (some value) => { evaluation with value := evaluation.value.assign field.name value }
  | .error issues => { evaluation with issues := evaluation.issues ++ issues }

def evaluateLeafConfig (rt : JsRuntime) (schema : List FormField) (input : Value) : Evaluation :=
  if isStrictJsonObject input = false then notObjectEvaluation input
  else schema.foldl (evaluateField rt input) ⟨.empty, []⟩

/-- What a configuration says about a tab. -/
def tabInput (tab : TabFormNode) (input : Value) : Value :=
  (input.ownMember? tab.name).getD (.json (.object []))

/-- The step of the loop over the tabs. -/
def evaluateTab (rt : JsRuntime) (input : Value) (evaluation : Evaluation) (tab : TabFormNode) :
    Evaluation :=
  let checked := evaluateLeafConfig rt tab.children (tabInput tab input)
  ⟨evaluation.value.assign tab.name checked.value.toValue,
    evaluation.issues ++ checked.issues.map (prefixIssue tab.name)⟩

def evaluateConfig (rt : JsRuntime) (schema : FormSchema) (input : Value) : Evaluation :=
  match schema with
  | .flat fields => evaluateLeafConfig rt fields input
  | .tabs nodes =>
      if isStrictJsonObject input = false then notObjectEvaluation input
      else nodes.foldl (evaluateTab rt input) ⟨.empty, []⟩

def validateFormConfigValues (rt : JsRuntime) (schema : FormSchema) (input : Value) :
    Except (List FormConfigIssue) Value :=
  match evaluateConfig rt schema input with
  | ⟨object, []⟩ => .ok object.toValue
  | ⟨_, issues⟩ => .error issues

/-! The own members of what is built are those of the evaluator of JSON values -/

theorem membersToJson_eq (members : List (JsString × Value)) :
    membersToJson members = members.map (fun m => (m.1, m.2.toJson)) := by
  induction members with
  | nil => rfl
  | cons m members ih => rw [membersToJson, ih, List.map_cons]

theorem BuiltObject.members_assign (object : BuiltObject) (name : JsString) (value : Value) :
    (object.assign name value).members =
      if name = protoKey then object.members
      else if object.members.any (fun m => m.1 = name) then
        object.members.map (fun m => if m.1 = name then (name, value) else m)
      else object.members ++ [(name, value)] := by
  unfold BuiltObject.assign
  split_ifs <;> rfl

theorem BuiltObject.assign_toJson (object : BuiltObject) (name : JsString) (value : Value) :
    membersToJson (object.assign name value).members =
      setMember (membersToJson object.members) name value.toJson := by
  have hany : (object.members.map (fun m => (m.1, m.2.toJson))).any (fun m => m.1 = name) =
      object.members.any (fun m => m.1 = name) := by
    rw [List.any_map]
    rfl
  have hset : ∀ members json, setMember members name json =
      if name = protoKey then members
      else if members.any (fun m => m.1 = name) then
        members.map (fun m => if m.1 = name then (name, json) else m)
      else members ++ [(name, json)] := fun _ _ => rfl
  rw [hset]
  simp only [membersToJson_eq, BuiltObject.members_assign, hany]
  by_cases hname : name = protoKey
  · simp only [if_pos hname]
  · simp only [if_neg hname]
    by_cases hpresent : object.members.any (fun m => m.1 = name) = true
    · simp only [if_pos hpresent, List.map_map]
      congr 1
      funext m
      by_cases hm : m.1 = name <;> simp [hm]
    · simp only [hpresent, Bool.false_eq_true, if_false, List.map_append, List.map_cons,
        List.map_nil]

theorem validateFieldValue_json (rt : JsRuntime) (field : FormField) (value : Json) :
    validateFieldValue rt field (.json value) =
      (Form.validateFieldValue rt field value).map (fun _ => .json value) := by
  rw [validateFieldValue]
  split
  · rename_i hfile
    have hobject : isPlainObject value = false := hfile.2
    simp [Form.validateFieldValue, hfile.1, validateFileValue, hobject, Except.map, Value.toJson]
  · rfl

theorem checkedValue_cases (value : Json) (issues : List FormConfigIssue) :
    checkedValue value issues = .ok value ∨
      ∃ issue rest, checkedValue value issues = .error (issue :: rest) := by
  cases issues with
  | nil => exact .inl rfl
  | cons issue rest => exact .inr ⟨issue, rest, rfl⟩

/-- A check stores the value as it was, or it finds something. -/
theorem validateFieldValue_cases (rt : JsRuntime) (field : FormField) (value : Json) :
    Form.validateFieldValue rt field value = .ok value ∨
      ∃ issue rest, Form.validateFieldValue rt field value = .error (issue :: rest) := by
  have htext : validateTextValue rt field value = .ok value ∨
      ∃ issue rest, validateTextValue rt field value = .error (issue :: rest) := by
    unfold validateTextValue
    split
    · exact checkedValue_cases _ _
    · exact .inr ⟨_, _, rfl⟩
  have hoption : validateOptionValue field value = .ok value ∨
      ∃ issue rest, validateOptionValue field value = .error (issue :: rest) := by
    unfold validateOptionValue
    split
    · exact .inr ⟨_, _, rfl⟩
    · split
      · exact .inl rfl
      · exact .inr ⟨_, _, rfl⟩
  cases htype : field.type <;> simp only [Form.validateFieldValue, htype]
  case input | textarea | password => exact htext
  case select | radio => exact hoption
  case number =>
    unfold validateNumberValue
    split
    · exact checkedValue_cases _ _
    · exact .inr ⟨_, _, rfl⟩
  case checkbox =>
    unfold validateCheckboxValue
    split
    · exact checkedValue_cases _ _
    · exact .inr ⟨_, _, rfl⟩
  case switch =>
    split
    · exact .inl rfl
    · exact .inr ⟨_, _, rfl⟩
  case date =>
    split
    · exact .inl rfl
    · exact .inr ⟨_, _, rfl⟩
  case file =>
    unfold validateFileValue
    split
    · exact .inr ⟨_, _, rfl⟩
    · split
      · exact .inl rfl
      · exact .inr ⟨_, _, rfl⟩

theorem validateFieldValue_value {rt : JsRuntime} {field : FormField} {value stored : Json}
    (h : Form.validateFieldValue rt field value = .ok stored) : stored = value := by
  obtain hok | ⟨issue, rest, herror⟩ := validateFieldValue_cases rt field value
  · exact Except.ok.inj (h.symm.trans hok)
  · cases h.symm.trans herror

/-- A configuration in memory and the JSON value that it is written as. -/
def Evaluation.Matches (evaluation : Evaluation) (written : Form.Evaluation) : Prop :=
  membersToJson evaluation.value.members = written.value ∧ evaluation.issues = written.issues

theorem evaluateField_matches {rt : JsRuntime} {input : Json} {evaluation : Evaluation}
    {written : Form.Evaluation} (h : evaluation.Matches written) (field : FormField) :
    (evaluateField rt (.json input) evaluation field).Matches
      (Form.evaluateField rt input written field) := by
  have hcandidate : candidateOf field (.json input) =
      (Form.candidateOf field input).map .json := by
    unfold candidateOf Form.candidateOf
    split
    · rfl
    · rw [Value.ownMember?]
      cases input.member? field.name <;> rfl
  rw [evaluateField, Form.evaluateField, fieldOutcome, hcandidate]
  cases Form.candidateOf field input with
  | none =>
      cases hrequired : field.required with
      | true => exact ⟨h.1, congrArg (· ++ _) h.2⟩
      | false => exact h
  | some candidate =>
      have hvalue : ∀ stored, Form.validateFieldValue rt field candidate = .ok stored →
          membersToJson (evaluation.value.assign field.name (.json candidate)).members =
            setMember written.value field.name stored := by
        intro stored hstored
        rw [BuiltObject.assign_toJson, h.1, validateFieldValue_value hstored, Value.toJson]
      rw [Option.map_some]
      cases candidate with
      | null =>
          cases hrequired : field.required with
          | true => exact ⟨h.1, congrArg (· ++ _) h.2⟩
          | false => exact h
      | _ =>
          simp only [validateFieldValue_json]
          cases hchecked : Form.validateFieldValue rt field _ with
          | ok stored => exact ⟨hvalue stored hchecked, h.2⟩
          | error issues => exact ⟨h.1, congrArg (· ++ _) h.2⟩

theorem evaluateLeafConfig_matches (rt : JsRuntime) (schema : List FormField) (input : Json) :
    (evaluateLeafConfig rt schema (.json input)).Matches
      (Form.evaluateLeafConfig rt schema input) := by
  have hfold : ∀ (evaluation : Evaluation) (written : Form.Evaluation),
      evaluation.Matches written →
      (schema.foldl (evaluateField rt (.json input)) evaluation).Matches
        (schema.foldl (Form.evaluateField rt input) written) := by
    induction schema with
    | nil => exact fun _ _ h => h
    | cons field schema ih => exact fun _ _ h => ih _ _ (evaluateField_matches h field)
  rw [evaluateLeafConfig, Form.evaluateLeafConfig, isStrictJsonObject]
  cases hobject : isPlainObject input with
  | false => exact ⟨rfl, rfl⟩
  | true => exact hfold ⟨.empty, []⟩ ⟨[], []⟩ ⟨rfl, rfl⟩

theorem evaluateConfig_matches (rt : JsRuntime) (schema : FormSchema) (input : Json) :
    (evaluateConfig rt schema (.json input)).Matches (Form.evaluateConfig rt schema input) := by
  cases schema with
  | flat fields => exact evaluateLeafConfig_matches rt fields input
  | tabs nodes =>
      have hfold : ∀ (evaluation : Evaluation) (written : Form.Evaluation),
          evaluation.Matches written →
          (nodes.foldl (evaluateTab rt (.json input)) evaluation).Matches
            (nodes.foldl (Form.evaluateTab rt input) written) := by
        induction nodes with
        | nil => exact fun _ _ h => h
        | cons node nodes ih =>
            intro evaluation written h
            refine ih _ _ ?_
            have htab : tabInput node (.json input) =
                .json ((input.member? node.name).getD (.object [])) := by
              rw [tabInput, Value.ownMember?]
              cases input.member? node.name <;> rfl
            obtain ⟨hvalue, hissues⟩ := evaluateLeafConfig_matches rt node.children
              ((input.member? node.name).getD (.object []))
            rw [evaluateTab, Form.evaluateTab, htab]
            constructor
            · rw [BuiltObject.assign_toJson, h.1, BuiltObject.toValue, Value.toJson, hvalue]
            · rw [h.2, hissues]
      rw [evaluateConfig, Form.evaluateConfig, isStrictJsonObject]
      cases hobject : isPlainObject input with
      | false => exact ⟨rfl, rfl⟩
      | true => exact hfold ⟨.empty, []⟩ ⟨[], []⟩ ⟨rfl, rfl⟩

/-- What the evaluator makes of a JSON value, written as JSON. -/
theorem validateFormConfigValues_toJson (rt : JsRuntime) (schema : FormSchema) (input : Json) :
    (validateFormConfigValues rt schema (.json input)).map Value.toJson =
      Form.validateFormConfigValues rt schema input := by
  obtain ⟨hvalue, hissues⟩ := evaluateConfig_matches rt schema input
  unfold validateFormConfigValues Form.validateFormConfigValues
  cases hbuilt : evaluateConfig rt schema (.json input) with
  | mk object issues =>
      cases hwritten : Form.evaluateConfig rt schema input with
      | mk members writtenIssues =>
          rw [hbuilt, hwritten] at hvalue hissues
          obtain rfl : issues = writtenIssues := hissues
          cases issues with
          | nil =>
              obtain rfl : membersToJson object.members = members := hvalue
              rfl
          | cons issue issues => rfl

end AnvilRun.Form.Objects
