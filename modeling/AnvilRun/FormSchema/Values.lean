import AnvilRun.FormSchema.Validate

namespace AnvilRun.Form

open AnvilRun.ValidationPrimitives
open JsString

/-! The issues of a configuration -/

inductive FormConfigIssueCode where
  | configNotObject | fieldRequired | fieldTypeInvalid | fieldOptionNotAllowed
  | fieldConstraintInvalid | fieldDateInvalid | fieldDuplicateValue
  deriving DecidableEq

structure FormConfigIssue where
  code : FormConfigIssueCode
  path : List PathSegment
  message : JsString
  fieldName : Option JsString
  expected : JsString
  actual : JsString
  deriving DecidableEq

/-- A value of a field, or the issues with it. -/
abbrev CheckedValue := Except (List FormConfigIssue) Json

def FormField.expectedFieldType (field : FormField) : JsString :=
  match field.type with
  | .input | .textarea | .password | .date => ofString "string"
  | .number => ofString "finite number"
  | .select | .radio => ofString "string or finite number in options"
  | .checkbox => ofString "array of string or finite number option values"
  | .switch => ofString "boolean"
  | .file => ofString "uploaded file reference"

def valueIssue (field : FormField) (code : FormConfigIssueCode) (message expected : JsString)
    (actual : Json) (path : List PathSegment) : FormConfigIssue :=
  ⟨code, path, message, some field.name, expected, describeValueType (some actual)⟩

/-- The message that starts with the name of the field. -/
def fieldMessage (field : FormField) (text : String) : JsString :=
  ofString "字段 " ++ field.name ++ ofString text

def fieldTypeIssue (field : FormField) (value : Json) : FormConfigIssue :=
  valueIssue field .fieldTypeInvalid (fieldMessage field " 的值类型不符合模板")
    field.expectedFieldType value [.name field.name]

def isAllowedOption (field : FormField) (value : FormFieldOptionValue) : Bool :=
  field.options.contains value

/-! Files -/

def matchesSha256 (s : JsString) : Bool :=
  s.length == 64 && s.all isHexUnit

def fileMatchesField (rt : JsRuntime) (field : FormField) (fileName : JsString) (size : Rat) :
    Bool :=
  let lower := rt.toLowerCase fileName
  let extensionAllowed := field.allowedExtensions.any (fun extension =>
    (rt.toLowerCase extension).isSuffixOf lower)
  let nameAllowed :=
    match field.fileNamePattern with
    | some pattern =>
        -- an empty pattern is no pattern
        if pattern.isEmpty then true
        else
          match rt.regExp (wholeFileNamePattern pattern) with
          | some regExp => regExp.test fileName
          | none => false
    | none => true
  extensionAllowed && nameAllowed && decide (0 ≤ size) &&
    decide (size ≤ field.maxSizeBytes.getD formFileDefaultMaxBytes)

def isFileConfigValue (rt : JsRuntime) (field : FormField) (value : Json) : Bool :=
  (objectKeys value).length == 4 &&
    match prop value "fileId", prop value "fileName", prop value "size", prop value "sha256" with
    | some (.string fileId), some (.string fileName), some (.number size), some (.string sha256) =>
        matchesUuid fileId && !fileName.isEmpty && size.isSafeInteger && matchesSha256 sha256 &&
          match size with
          | .finite q => fileMatchesField rt field fileName q
          | _ => false
    | _, _, _, _ => false

def validateFileValue (rt : JsRuntime) (field : FormField) (value : Json) : CheckedValue :=
  if isPlainObject value = false then .error [fieldTypeIssue field value]
  else if isFileConfigValue rt field value then .ok value
  else .error [valueIssue field .fieldConstraintInvalid
    (fieldMessage field " 的文件引用或文件约束无效") field.expectedFieldType value
    [.name field.name]]

/-! The other types -/

/-- The value when no issue was found. -/
def checkedValue (value : Json) : List FormConfigIssue → CheckedValue
  | [] => .ok value
  | issues => .error issues

def validateTextValue (rt : JsRuntime) (field : FormField) (value : Json) : CheckedValue :=
  match value with
  | .string s =>
      let issue := fun text expected =>
        [valueIssue field .fieldConstraintInvalid (fieldMessage field text) expected value
          [.name field.name]]
      checkedValue value (
        (match field.minLength with
          | some minLength =>
              if (s.length : Rat) < minLength then
                issue " 的长度小于模板要求"
                  (ofString "length >= " ++ rt.numberToString (.finite minLength))
              else []
          | none => []) ++
        (match field.maxLength with
          | some maxLength =>
              if maxLength < (s.length : Rat) then
                issue " 的长度超过模板限制"
                  (ofString "length <= " ++ rt.numberToString (.finite maxLength))
              else []
          | none => []) ++
        (match field.pattern with
          | some pattern =>
              if ((rt.regExp pattern).map (fun regExp => regExp.test s)).getD false then []
              else issue " 不匹配模板正则约束" (ofString "pattern")
          | none => []))
  | _ => .error [fieldTypeIssue field value]

/-- Whether `value` is `base` plus a multiple of `step`, as the double arithmetic of the check
sees it. -/
def matchesStep (value base step : Rat) : Bool :=
  let quotient := JsNumber.div (JsNumber.sub (.finite value) (.finite base)) (.finite step)
  !JsNumber.lt (JsNumber.ofDecimal false 1 (-9))
    (JsNumber.abs (JsNumber.sub quotient quotient.round))

def validateNumberValue (rt : JsRuntime) (field : FormField) (value : Json) : CheckedValue :=
  match value with
  | .number (.finite q) =>
      let issue := fun text expected bound =>
        [valueIssue field .fieldConstraintInvalid (fieldMessage field text)
          (ofString expected ++ rt.numberToString (.finite bound)) value [.name field.name]]
      checkedValue value (
        (match field.min with
          | some min => if q < min then issue " 小于模板最小值" "value >= " min else []
          | none => []) ++
        (match field.max with
          | some max => if max < q then issue " 大于模板最大值" "value <= " max else []
          | none => []) ++
        (match field.step with
          | some step =>
              if matchesStep q (field.min.getD 0) step then []
              else issue " 不符合模板步长" "step=" step
          | none => []))
  | _ => .error [fieldTypeIssue field value]

def optionNotAllowedIssue (field : FormField) (text : String) (value : Json)
    (path : List PathSegment) : FormConfigIssue :=
  valueIssue field .fieldOptionNotAllowed (fieldMessage field text)
    (ofString "declared option value") value path

def validateOptionValue (field : FormField) (value : Json) : CheckedValue :=
  match asOptionValue (some value) with
  | none => .error [fieldTypeIssue field value]
  | some optionValue =>
      if isAllowedOption field optionValue then .ok value
      else .error [optionNotAllowedIssue field " 的值不在模板 options 中" value [.name field.name]]

/-- The check of the items behind those in `values`, which are chosen already. -/
def validateCheckboxItems (field : FormField) (value : Json) :
    Nat → List FormFieldOptionValue → List Json → List FormConfigIssue
  | _, _, [] => []
  | index, values, item :: items =>
      let path := [.name field.name, .index index]
      match asOptionValue (some item) with
      | none =>
          valueIssue field .fieldTypeInvalid (fieldMessage field " 的选中值类型不符合模板")
            (ofString "string or finite number") item path ::
              validateCheckboxItems field value (index + 1) values items
      | some optionValue =>
          if values.contains optionValue then
            valueIssue field .fieldDuplicateValue (fieldMessage field " 不能包含重复选项")
              (ofString "unique option values") value path ::
                validateCheckboxItems field value (index + 1) values items
          else if isAllowedOption field optionValue = false then
            optionNotAllowedIssue field " 的选中值不在模板 options 中" item path ::
              validateCheckboxItems field value (index + 1) values items
          else validateCheckboxItems field value (index + 1) (values ++ [optionValue]) items

def validateCheckboxValue (field : FormField) (value : Json) : CheckedValue :=
  match value with
  | .array items => checkedValue value (validateCheckboxItems field value 0 [] items)
  | _ => .error [fieldTypeIssue field value]

def validateFieldValue (rt : JsRuntime) (field : FormField) (value : Json) : CheckedValue :=
  match field.type with
  | .input | .textarea | .password => validateTextValue rt field value
  | .number => validateNumberValue rt field value
  | .select | .radio => validateOptionValue field value
  | .checkbox => validateCheckboxValue field value
  | .switch =>
      match value with
      | .bool _ => .ok value
      | _ => .error [fieldTypeIssue field value]
  | .date =>
      if isCalendarDateString value then .ok value
      else .error [valueIssue field .fieldDateInvalid
        (fieldMessage field " 必须是合法的 YYYY-MM-DD 日期") (ofString "YYYY-MM-DD calendar date")
        value [.name field.name]]
  | .file => validateFileValue rt field value

/-! Whole configurations -/

/-- The own members that `object[name] = value` leaves. Assigning to `__proto__` makes no
member. -/
def setMember (members : List (JsString × Json)) (name : JsString) (value : Json) :
    List (JsString × Json) :=
  if name = ofString "__proto__" then members
  else if members.any (fun m => m.1 = name) then
    members.map (fun m => if m.1 = name then (name, value) else m)
  else members ++ [(name, value)]

structure Evaluation where
  value : List (JsString × Json)
  issues : List FormConfigIssue

def notObjectEvaluation (input : Json) : Evaluation :=
  ⟨[], [⟨.configNotObject, [], ofString "项目配置必须是普通 JSON 对象", none, ofString "object",
    describeValueType (some input)⟩]⟩

/-- What the input says about a field; a disabled field is its default. -/
def candidateOf (field : FormField) (input : Json) : Option Json :=
  if field.disabled then field.defaultValue
  else (input.member? field.name).or field.defaultValue

def requiredIssue (field : FormField) (candidate : Option Json) : FormConfigIssue :=
  ⟨.fieldRequired, [.name field.name],
    ofString "必填字段 " ++ field.name ++ ofString " 未提供值", some field.name,
    field.expectedFieldType, describeValueType candidate⟩

/-- The step of the loop over the fields. -/
def evaluateField (rt : JsRuntime) (input : Json) (evaluation : Evaluation) (field : FormField) :
    Evaluation :=
  match candidateOf field input with
  | none =>
      if field.required then
        { evaluation with issues := evaluation.issues ++ [requiredIssue field none] }
      else evaluation
  | some .null =>
      if field.required then
        { evaluation with issues := evaluation.issues ++ [requiredIssue field (some .null)] }
      else evaluation
  | some candidate =>
      match validateFieldValue rt field candidate with
      | .ok value => { evaluation with value := setMember evaluation.value field.name value }
      | .error issues => { evaluation with issues := evaluation.issues ++ issues }

def evaluateLeafConfig (rt : JsRuntime) (schema : List FormField) (input : Json) : Evaluation :=
  if isPlainObject input = false then notObjectEvaluation input
  else schema.foldl (evaluateField rt input) ⟨[], []⟩

def prefixIssue (segment : JsString) (issue : FormConfigIssue) : FormConfigIssue :=
  { issue with path := .name segment :: issue.path }

/-- The step of the loop over the tabs. -/
def evaluateTab (rt : JsRuntime) (input : Json) (evaluation : Evaluation) (tab : TabFormNode) :
    Evaluation :=
  let checked := evaluateLeafConfig rt tab.children
    ((input.member? tab.name).getD (.object []))
  ⟨setMember evaluation.value tab.name (.object checked.value),
    evaluation.issues ++ checked.issues.map (prefixIssue tab.name)⟩

def evaluateConfig (rt : JsRuntime) (schema : FormSchema) (input : Json) : Evaluation :=
  match schema with
  | .flat fields => evaluateLeafConfig rt fields input
  | .tabs nodes =>
      if isPlainObject input = false then notObjectEvaluation input
      else nodes.foldl (evaluateTab rt input) ⟨[], []⟩

def validateFormConfigValues (rt : JsRuntime) (schema : FormSchema) (input : Json) :
    Except (List FormConfigIssue) Json :=
  match evaluateConfig rt schema input with
  | ⟨value, []⟩ => .ok (.object value)
  | ⟨_, issues⟩ => .error issues

end AnvilRun.Form
