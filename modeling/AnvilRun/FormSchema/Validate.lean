import AnvilRun.FormSchema.FieldTypes

namespace AnvilRun.Form

open AnvilRun.ValidationPrimitives
open JsString

/-! The issues of a template -/

inductive FormSchemaIssueCode where
  | schemaNotArray | schemaLayoutMixed | tabChildrenInvalid
  | fieldNotObject | fieldTypeMissing | fieldTypeUnknown
  | fieldNameMissing | fieldNameInvalid | fieldNameDuplicate
  | fieldLabelMissing | fieldLabelInvalid
  | unknownProperty | propertyTypeInvalid
  | constraintInvalid | constraintRangeInvalid
  | defaultValueTypeInvalid | defaultValueNotAllowed | defaultValueConstraintViolation
  | optionsMissing | optionsNotArray | optionsEmpty
  | optionNotObject | optionUnknownProperty | optionLabelInvalid | optionValueInvalid
  | optionValueDuplicate
  | sensitiveRequired
  deriving DecidableEq

structure FormSchemaIssueContext where
  fieldIndex : Option Nat
  fieldName : Option JsString
  property : Option JsString
  deriving DecidableEq

structure FormSchemaIssue where
  code : FormSchemaIssueCode
  path : List PathSegment
  message : JsString
  context : FormSchemaIssueContext
  deriving DecidableEq

def FormSchemaIssueContext.withProperty (context : FormSchemaIssueContext) (property : JsString) :
    FormSchemaIssueContext :=
  { context with property := some property }

/-- An issue with a property of the field with this index. -/
def propertyIssue (code : FormSchemaIssueCode) (index : Nat) (property message : JsString)
    (context : FormSchemaIssueContext) : FormSchemaIssue :=
  ⟨code, [.index index, .name property], message, context.withProperty property⟩

/-! Reading properties -/

def isPlainObject : Json → Bool
  | .object _ => true
  | _ => false

def prop (field : Json) (property : String) : Option Json :=
  field.member? (ofString property)

def asString : Option Json → Option JsString
  | some (.string s) => some s
  | _ => none

def asBoolean : Option Json → Option Bool
  | some (.bool b) => some b
  | _ => none

def asFiniteNumber : Option Json → Option Rat
  | some (.number (.finite q)) => some q
  | _ => none

def asArray : Option Json → List Json
  | some (.array items) => items
  | _ => []

/-- A string or a finite number. -/
def asOptionValue : Option Json → Option FormFieldOptionValue
  | some (.string s) => some (.text s)
  | some (.number (.finite q)) => some (.number q)
  | _ => none

def asFormFieldType (value : Option Json) : Option FormFieldType := do
  let s ← asString value
  formFieldTypes.find? (fun t => t.text = s)

/-- The field that an accepted object stands for. -/
def toFormField (field : Json) : Option FormField := do
  let type ← asFormFieldType (prop field "type")
  let name ← asString (prop field "name")
  some {
    type := type
    name := name
    defaultValue := prop field "defaultValue"
    required := asBoolean (prop field "required") == some true
    disabled := asBoolean (prop field "disabled") == some true
    sensitive := asBoolean (prop field "sensitive")
    minLength := asFiniteNumber (prop field "minLength")
    maxLength := asFiniteNumber (prop field "maxLength")
    min := asFiniteNumber (prop field "min")
    max := asFiniteNumber (prop field "max")
    step := asFiniteNumber (prop field "step")
    pattern := asString (prop field "pattern")
    options := (asArray (prop field "options")).filterMap (fun option =>
      asOptionValue (prop option "value"))
    allowedExtensions := (asArray (prop field "allowedExtensions")).filterMap (fun extension =>
      asString (some extension))
    fileNamePattern := asString (prop field "fileNamePattern")
    maxSizeBytes := asFiniteNumber (prop field "maxSizeBytes") }

def toTabFormNode (tab : Json) : Option TabFormNode := do
  let name ← asString (prop tab "name")
  some ⟨name, (asArray (prop tab "children")).filterMap toFormField⟩

/-- A password is sensitive unless its template says more. -/
def normalizeField (field : FormField) : FormField :=
  if field.type = .password ∧ field.sensitive = none then { field with sensitive := some true }
  else field

/-! The validator. Every function returns the issues that it pushes. -/

def validateFieldType (field : Json) (index : Nat) :
    Option FormFieldType × List FormSchemaIssue :=
  match prop field "type" with
  | none =>
      (none, [propertyIssue .fieldTypeMissing index (ofString "type") (ofString "缺少 type")
        ⟨some index, none, none⟩])
  | some raw =>
      match asFormFieldType (some raw) with
      | none =>
          (none, [propertyIssue .fieldTypeUnknown index (ofString "type")
            (ofString "type 必须属于 [" ++
              List.intercalate (ofString ", ") (formFieldTypes.map FormFieldType.text) ++
              ofString "]，实际收到 " ++ describeToken (some raw))
            ⟨some index, none, none⟩])
      | some type => (some type, [])

/-- The name is `none` when it is no valid name; a duplicate is returned and not recorded. -/
def validateFieldName (field : Json) (index : Nat) (seenNames : List (JsString × Nat)) :
    Option JsString × List (JsString × Nat) × List FormSchemaIssue :=
  let context : FormSchemaIssueContext := ⟨some index, none, none⟩
  match asString (prop field "name") with
  | none =>
      (none, seenNames, [propertyIssue .fieldNameMissing index (ofString "name")
        (ofString "缺少 name 或 name 不是字符串，实际收到 " ++ describeValueType (prop field "name"))
        context])
  | some raw =>
      if matchesFormFieldName raw = false then
        (none, seenNames, [propertyIssue .fieldNameInvalid index (ofString "name")
          (ofString "name 必须匹配 " ++ formFieldNamePatternSource ++ ofString "（长度 1–" ++
            natToString formFieldNameMaxLength ++ ofString "），实际收到 " ++
            describeToken (some (.string raw)))
          context])
      else
        match seenNames.find? (fun seen => seen.1 = raw) with
        | some first =>
            (some raw, seenNames, [propertyIssue .fieldNameDuplicate index (ofString "name")
              (ofString "name " ++ describeToken (some (.string raw)) ++ ofString " 与下标 " ++
                natToString first.2 ++ ofString " 的字段重复，同一模板内必须唯一")
              { context with fieldName := some raw }])
        | none => (some raw, (raw, index) :: seenNames, [])

def validateFieldLabel (field : Json) (index : Nat) (context : FormSchemaIssueContext) :
    List FormSchemaIssue :=
  match asString (prop field "label") with
  | none =>
      [propertyIssue .fieldLabelMissing index (ofString "label")
        (ofString "缺少 label 或 label 不是字符串，实际收到 " ++
          describeValueType (prop field "label")) context]
  | some raw =>
      if isNonEmptyPlainText (.string raw) then []
      else [propertyIssue .fieldLabelInvalid index (ofString "label")
        (ofString "label 必须是非空纯文本，不允许空白串、控制字符或 HTML/XML 标签") context]

def validateOptionalBoolean (field : Json) (index : Nat) (context : FormSchemaIssueContext)
    (property : String) : List FormSchemaIssue :=
  match prop field property with
  | none => []
  | some (.bool _) => []
  | some raw =>
      [propertyIssue .propertyTypeInvalid index (ofString property)
        (ofString property ++ ofString " 必须是布尔值，实际收到 " ++ describeValueType (some raw))
        context]

def validateOptionalText (field : Json) (index : Nat) (context : FormSchemaIssueContext)
    (property : String) : List FormSchemaIssue :=
  match prop field property with
  | none => []
  | some raw =>
      if isPlainText raw then []
      else [propertyIssue .propertyTypeInvalid index (ofString property)
        (ofString property ++ ofString " 必须是纯文本字符串，不允许控制字符或 HTML/XML 标签") context]

def validateCommonOptionalProperties (field : Json) (index : Nat)
    (context : FormSchemaIssueContext) : List FormSchemaIssue :=
  ["required", "disabled", "sensitive"].flatMap (validateOptionalBoolean field index context) ++
    ["placeholder", "description"].flatMap (validateOptionalText field index context)

def validateUnknownProperties (field : Json) (type : FormFieldType) (index : Nat)
    (context : FormSchemaIssueContext) : List FormSchemaIssue :=
  let allowed := formFieldAllowedProperties type
  (findUnknownProperties field allowed).map (fun property =>
    propertyIssue .unknownProperty index property
      (ofString "控件 " ++ type.text ++ ofString " 不允许属性 " ++
        describeToken (some (.string property)) ++ ofString "；允许的属性为 [" ++
        List.intercalate (ofString ", ") allowed ++ ofString "]")
      context)

/-- What the constraints of a field say, for the check of its default value. -/
structure FieldConstraints where
  minLength : Option Rat
  maxLength : Option Rat
  min : Option Rat
  max : Option Rat
  pattern : Option CompiledRegExp
  optionValues : Option (List FormFieldOptionValue)

def FieldConstraints.empty : FieldConstraints := ⟨none, none, none, none, none, none⟩

/-- The rule that `readOptionalNumber` checks. -/
structure OptionalNumberRule where
  integer : Bool
  accepts : Rat → Bool
  requirement : JsString

/-- The rule of a number that only has to be finite. -/
def OptionalNumberRule.none : OptionalNumberRule :=
  ⟨false, fun _ => true, ofString "取值非法"⟩

def readOptionalNumber (rt : JsRuntime) (field : Json) (property : String) (index : Nat)
    (context : FormSchemaIssueContext) (rule : OptionalNumberRule) :
    Option Rat × List FormSchemaIssue :=
  match prop field property with
  | .none => (.none, [])
  | some raw =>
      match asFiniteNumber (some raw) with
      | .none =>
          (.none, [propertyIssue .propertyTypeInvalid index (ofString property)
            (ofString property ++ ofString " 必须是有限数字，实际收到 " ++ describeValueType (some raw))
            context])
      | some q =>
          if (rule.integer && !(JsNumber.finite q).isSafeInteger) || !rule.accepts q then
            (.none, [propertyIssue .constraintInvalid index (ofString property)
              (ofString property ++ ofString " " ++ rule.requirement ++ ofString "，实际收到 " ++
                rt.numberToString (.finite q)) context])
          else (some q, [])

/-- The issue of two bounds that leave nothing between them. -/
def validateRange (rt : JsRuntime) (lower upper : String) (low high : Option Rat) (index : Nat)
    (context : FormSchemaIssueContext) : List FormSchemaIssue :=
  match low, high with
  | some low, some high =>
      if high < low then
        [propertyIssue .constraintRangeInvalid index (ofString lower)
          (ofString lower ++ ofString " (" ++ rt.numberToString (.finite low) ++
            ofString ") 不能大于 " ++ ofString upper ++ ofString " (" ++
            rt.numberToString (.finite high) ++ ofString ")") context]
      else []
  | _, _ => []

def nonNegativeInteger : OptionalNumberRule :=
  ⟨true, fun q => decide (0 ≤ q), ofString "必须是非负整数"⟩

def validateLengthConstraints (rt : JsRuntime) (field : Json) (index : Nat)
    (context : FormSchemaIssueContext) : FieldConstraints × List FormSchemaIssue :=
  let minLength := readOptionalNumber rt field "minLength" index context nonNegativeInteger
  let maxLength := readOptionalNumber rt field "maxLength" index context nonNegativeInteger
  ({ FieldConstraints.empty with minLength := minLength.1, maxLength := maxLength.1 },
    minLength.2 ++ maxLength.2 ++
      validateRange rt "minLength" "maxLength" minLength.1 maxLength.1 index context)

def validateNumberConstraints (rt : JsRuntime) (field : Json) (index : Nat)
    (context : FormSchemaIssueContext) : FieldConstraints × List FormSchemaIssue :=
  let min := readOptionalNumber rt field "min" index context .none
  let max := readOptionalNumber rt field "max" index context .none
  let step := readOptionalNumber rt field "step" index context
    ⟨false, fun q => decide (0 < q), ofString "必须是正数"⟩
  ({ FieldConstraints.empty with min := min.1, max := max.1 },
    min.2 ++ max.2 ++ step.2 ++ validateRange rt "min" "max" min.1 max.1 index context)

def validatePatternConstraint (rt : JsRuntime) (field : Json) (index : Nat)
    (context : FormSchemaIssueContext) : Option CompiledRegExp × List FormSchemaIssue :=
  match prop field "pattern" with
  | none => (none, [])
  | some (.string raw) =>
      if formFieldPatternMaxLength < raw.length then
        (none, [propertyIssue .constraintInvalid index (ofString "pattern")
          (ofString "pattern 长度不能超过 " ++ natToString formFieldPatternMaxLength ++
            ofString "，实际长度 " ++ natToString raw.length) context])
      else
        match rt.regExp raw with
        | some regExp => (some regExp, [])
        | none =>
            (none, [propertyIssue .constraintInvalid index (ofString "pattern")
              (ofString "pattern 不是合法的正则表达式") context])
  | some raw =>
      (none, [propertyIssue .propertyTypeInvalid index (ofString "pattern")
        (ofString "pattern 必须是字符串，实际收到 " ++ describeValueType (some raw)) context])

def validateSensitiveConstraint (field : Json) (index : Nat) (context : FormSchemaIssueContext) :
    List FormSchemaIssue :=
  match prop field "sensitive" with
  | some (.bool false) =>
      [propertyIssue .sensitiveRequired index (ofString "sensitive")
        (ofString "password 字段必须保持 sensitive: true，不允许显式关闭遮蔽") context]
  | _ => []

/-- `/\\[1-9]/`. -/
def hasBackReference : JsString → Bool
  | u :: v :: s => (u == 92 && decide (49 ≤ v ∧ v ≤ 57)) || hasBackReference (v :: s)
  | _ => false

/-- `/\(\?(?:[=!]|<[=!])/`. -/
def hasLookaround : JsString → Bool
  | u :: s =>
      (u == 40 && (match s with
        | 63 :: 61 :: _ => true
        | 63 :: 33 :: _ => true
        | 63 :: 60 :: 61 :: _ => true
        | 63 :: 60 :: 33 :: _ => true
        | _ => false)) || hasLookaround s
  | [] => false

/-- `\d+(?:,\d*)?\x7d` at the start of the text. -/
def startsWithCounts (s : JsString) : Bool :=
  match s.takeWhile isDigitUnit, s.dropWhile isDigitUnit with
  | _ :: _, 125 :: _ => true
  | _ :: _, 44 :: rest => (rest.dropWhile isDigitUnit).head? == some 125
  | _, _ => false

/-- `(?:\*|\+|\x7b\d+(?:,\d*)?\x7d)` somewhere in the text. -/
def hasQuantifier : JsString → Bool
  | u :: s => u == 42 || u == 43 || (u == 123 && startsWithCounts s) || hasQuantifier s
  | [] => false

/-- A group with a quantifier in it that is quantified again, as in `(a+)+`. -/
def hasNestedQuantifier : JsString → Bool
  | u :: s =>
      (u == 40 && hasQuantifier (s.takeWhile (fun v => v != 41)) &&
        (match s.dropWhile (fun v => v != 41) with
          | _ :: v :: _ => v == 42 || v == 43 || v == 123
          | _ => false)) || hasNestedQuantifier s
  | [] => false

def unsafeFileNamePattern (pattern : JsString) : Bool :=
  hasBackReference pattern || hasLookaround pattern || hasNestedQuantifier pattern

/-- The text of the regular expression that a whole file name has to match. -/
def wholeFileNamePattern (pattern : JsString) : JsString :=
  ofString "^(?:" ++ pattern ++ ofString ")$"

/-- The check of one extension; the extensions before it are there in lower case. -/
def validateExtensions (rt : JsRuntime) (index : Nat) (context : FormSchemaIssueContext) :
    Nat → List JsString → List Json → List FormSchemaIssue
  | _, _, [] => []
  | extensionIndex, seen, value :: values =>
      match asString (some value) with
      | some extension =>
          if matchesFormFileExtension extension && !seen.contains (rt.toLowerCase extension) then
            validateExtensions rt index context (extensionIndex + 1)
              (rt.toLowerCase extension :: seen) values
          else
            extensionIssue extensionIndex ::
              validateExtensions rt index context (extensionIndex + 1) seen values
      | none =>
          extensionIssue extensionIndex ::
            validateExtensions rt index context (extensionIndex + 1) seen values
where
  extensionIssue (extensionIndex : Nat) : FormSchemaIssue :=
    ⟨.constraintInvalid,
      [.index index, .name (ofString "allowedExtensions"), .index extensionIndex],
      ofString "文件扩展名必须合法且不能重复", context.withProperty (ofString "allowedExtensions")⟩

def validateAllowedExtensions (rt : JsRuntime) (field : Json) (index : Nat)
    (context : FormSchemaIssueContext) : List FormSchemaIssue :=
  match prop field "allowedExtensions" with
  | some (.array items) =>
      if items.length < 1 ∨ 16 < items.length then [lengthIssue]
      else validateExtensions rt index context 0 [] items
  | _ => [lengthIssue]
where
  lengthIssue : FormSchemaIssue :=
    propertyIssue .constraintInvalid index (ofString "allowedExtensions")
      (ofString "allowedExtensions 必须是包含 1–16 项的数组") context

def validateFileNamePattern (rt : JsRuntime) (field : Json) (index : Nat)
    (context : FormSchemaIssueContext) : List FormSchemaIssue :=
  match prop field "fileNamePattern" with
  | none => []
  | some (.string pattern) =>
      if formFileNamePatternMaxLength < pattern.length then
        [propertyIssue .constraintInvalid index (ofString "fileNamePattern")
          (ofString "fileNamePattern 长度不能超过 " ++ natToString formFileNamePatternMaxLength)
          context]
      else if unsafeFileNamePattern pattern then
        [propertyIssue .constraintInvalid index (ofString "fileNamePattern")
          (ofString "fileNamePattern 包含高风险正则结构") context]
      else if (rt.regExp (wholeFileNamePattern pattern)).isNone then
        [propertyIssue .constraintInvalid index (ofString "fileNamePattern")
          (ofString "fileNamePattern 不是合法的正则表达式") context]
      else []
  | some _ =>
      [propertyIssue .propertyTypeInvalid index (ofString "fileNamePattern")
        (ofString "fileNamePattern 必须是字符串") context]

def validateFileConstraints (rt : JsRuntime) (field : Json) (index : Nat)
    (context : FormSchemaIssueContext) : List FormSchemaIssue :=
  validateAllowedExtensions rt field index context ++
    validateFileNamePattern rt field index context ++
    (readOptionalNumber rt field "maxSizeBytes" index context
      ⟨true, fun q => decide (1 ≤ q ∧ q ≤ formFileHardMaxBytes),
        ofString "必须是 1–" ++ natToString formFileHardMaxBytes ++ ofString " 的安全整数"⟩).2

/-- The check of one option; `seenValues` holds the values before it with their indices. -/
def validateOption (index optionIndex : Nat) (context : FormSchemaIssueContext)
    (seenValues : List (FormFieldOptionValue × Nat)) (option : Json) :
    Option FormFieldOptionValue × List FormSchemaIssue :=
  let path := [.index index, .name (ofString "options"), .index optionIndex]
  let optionsContext := context.withProperty (ofString "options")
  if isPlainObject option = false then
    (none, [⟨.optionNotObject, path,
      ofString "选项必须是对象，实际收到 " ++ describeValueType (some option), optionsContext⟩])
  else
    let allowed := [ofString "label", ofString "value"]
    let unknown := (findUnknownProperties option allowed).map (fun property =>
      (⟨.optionUnknownProperty, path ++ [.name property],
        ofString "选项不允许属性 " ++ describeToken (some (.string property)) ++
          ofString "；允许的属性为 [" ++ List.intercalate (ofString ", ") allowed ++ ofString "]",
        context.withProperty property⟩ : FormSchemaIssue))
    let label :=
      if isNonEmptyPlainText ((prop option "label").getD .null) then []
      else [(⟨.optionLabelInvalid, path ++ [.name (ofString "label")],
        ofString "选项 label 必须是非空纯文本，不允许空白串、控制字符或 HTML/XML 标签",
        optionsContext⟩ : FormSchemaIssue)]
    match asOptionValue (prop option "value") with
    | none =>
        (none, unknown ++ label ++ [⟨.optionValueInvalid, path ++ [.name (ofString "value")],
          ofString "选项 value 必须是字符串或有限数字，实际收到 " ++
            describeValueType (prop option "value"), optionsContext⟩])
    | some value =>
        match seenValues.find? (fun seen => seen.1 = value) with
        | some first =>
            (none, unknown ++ label ++
              [⟨.optionValueDuplicate, path ++ [.name (ofString "value")],
                ofString "选项 value 与下标 " ++ natToString first.2 ++
                  ofString " 的选项重复，同一控件内必须唯一", optionsContext⟩])
        | none => (some value, unknown ++ label)

def validateOptionsFrom (index : Nat) (context : FormSchemaIssueContext) :
    Nat → List (FormFieldOptionValue × Nat) → List Json →
      List FormFieldOptionValue × List FormSchemaIssue
  | _, _, [] => ([], [])
  | optionIndex, seenValues, option :: options =>
      match validateOption index optionIndex context seenValues option with
      | (some value, issues) =>
          let rest := validateOptionsFrom index context (optionIndex + 1)
            ((value, optionIndex) :: seenValues) options
          (value :: rest.1, issues ++ rest.2)
      | (none, issues) =>
          let rest := validateOptionsFrom index context (optionIndex + 1) seenValues options
          (rest.1, issues ++ rest.2)

/-- The values of the options, unless some option has an issue. -/
def validateOptions (field : Json) (index : Nat) (context : FormSchemaIssueContext) :
    Option (List FormFieldOptionValue) × List FormSchemaIssue :=
  match prop field "options" with
  | none =>
      (none, [propertyIssue .optionsMissing index (ofString "options")
        (ofString "select / radio / checkbox 必须提供 options") context])
  | some (.array []) =>
      (none, [propertyIssue .optionsEmpty index (ofString "options")
        (ofString "options 不能为空数组") context])
  | some (.array (option :: options)) =>
      let checked := validateOptionsFrom index context 0 [] (option :: options)
      (if checked.2.isEmpty then some checked.1 else none, checked.2)
  | some raw =>
      (none, [propertyIssue .optionsNotArray index (ofString "options")
        (ofString "options 必须是数组，实际收到 " ++ describeValueType (some raw)) context])

def validateConstraints (rt : JsRuntime) (field : Json) (type : FormFieldType) (index : Nat)
    (context : FormSchemaIssueContext) : FieldConstraints × List FormSchemaIssue :=
  match type with
  | .input =>
      let length := validateLengthConstraints rt field index context
      let pattern := validatePatternConstraint rt field index context
      ({ length.1 with pattern := pattern.1 }, length.2 ++ pattern.2)
  | .textarea => validateLengthConstraints rt field index context
  | .number => validateNumberConstraints rt field index context
  | .select | .radio | .checkbox =>
      let options := validateOptions field index context
      ({ FieldConstraints.empty with optionValues := options.1 }, options.2)
  | .password => (.empty, validateSensitiveConstraint field index context)
  | .switch | .date => (.empty, [])
  | .file => (.empty, validateFileConstraints rt field index context)

/-! The default value -/

/-- An issue with the default value itself. -/
def defaultIssue (code : FormSchemaIssueCode) (index : Nat) (message : JsString)
    (context : FormSchemaIssueContext) : FormSchemaIssue :=
  propertyIssue code index (ofString "defaultValue") message context

def defaultTypeIssue (type : FormFieldType) (expected : String) (value : Json) (index : Nat)
    (context : FormSchemaIssueContext) : FormSchemaIssue :=
  defaultIssue .defaultValueTypeInvalid index
    (ofString "控件 " ++ type.text ++ ofString " 的 defaultValue 必须是 " ++ ofString expected ++
      ofString "，实际收到 " ++ describeValueType (some value)) context

def validateStringDefaultAgainstConstraints (rt : JsRuntime) (value : JsString) (index : Nat)
    (context : FormSchemaIssueContext) (constraints : FieldConstraints) : List FormSchemaIssue :=
  let violation := fun message =>
    [defaultIssue .defaultValueConstraintViolation index message context]
  let lengthText := ofString "defaultValue 长度 " ++ natToString value.length
  (match constraints.minLength with
    | some minLength =>
        if (value.length : Rat) < minLength then
          violation (lengthText ++ ofString " 小于 minLength (" ++
            rt.numberToString (.finite minLength) ++ ofString ")")
        else []
    | none => []) ++
  (match constraints.maxLength with
    | some maxLength =>
        if maxLength < (value.length : Rat) then
          violation (lengthText ++ ofString " 大于 maxLength (" ++
            rt.numberToString (.finite maxLength) ++ ofString ")")
        else []
    | none => []) ++
  (match constraints.pattern with
    | some pattern =>
        if pattern.test value then []
        else violation (ofString "defaultValue 不匹配 pattern " ++
          describeToken (some (.string pattern.source)))
    | none => [])

def assertDefaultValueInOptions (value : FormFieldOptionValue) (raw : Json)
    (path : List PathSegment) (context : FormSchemaIssueContext) (constraints : FieldConstraints) :
    List FormSchemaIssue :=
  match constraints.optionValues with
  | none => []
  | some optionValues =>
      if optionValues.contains value then []
      else [⟨.defaultValueNotAllowed, path,
        ofString "defaultValue 必须是 options 中声明的取值之一（区分字符串与数字），实际收到 " ++
          describeToken (some raw), context⟩]

/-- The check of one item of a checkbox default. -/
def validateDefaultItem (index itemIndex : Nat) (context : FormSchemaIssueContext)
    (constraints : FieldConstraints) (item : Json) : List FormSchemaIssue :=
  let path := [.index index, .name (ofString "defaultValue"), .index itemIndex]
  match asOptionValue (some item) with
  | none =>
      [⟨.defaultValueTypeInvalid, path,
        ofString "checkbox 的 defaultValue 元素必须是字符串或有限数字，实际收到 " ++
          describeValueType (some item), context⟩]
  | some value => assertDefaultValueInOptions value item path context constraints

def validateDefaultNumber (rt : JsRuntime) (value : Rat) (index : Nat)
    (context : FormSchemaIssueContext) (constraints : FieldConstraints) : List FormSchemaIssue :=
  let violation := fun (relation : String) (bound : Rat) =>
    [defaultIssue .defaultValueConstraintViolation index
      (ofString "defaultValue (" ++ rt.numberToString (.finite value) ++ ofString relation ++
        rt.numberToString (.finite bound) ++ ofString ")") context]
  (match constraints.min with
    | some min => if value < min then violation ") 小于 min (" min else []
    | none => []) ++
  (match constraints.max with
    | some max => if max < value then violation ") 大于 max (" max else []
    | none => [])

def validateDefaultValue (rt : JsRuntime) (field : Json) (type : FormFieldType) (index : Nat)
    (context : FormSchemaIssueContext) (constraints : FieldConstraints) : List FormSchemaIssue :=
  let context := context.withProperty (ofString "defaultValue")
  match prop field "defaultValue" with
  | none => []
  | some value =>
      match type with
      | .input | .textarea | .password =>
          match value with
          | .string s => validateStringDefaultAgainstConstraints rt s index context constraints
          | _ => [defaultTypeIssue type "string" value index context]
      | .date =>
          match value with
          | .string s =>
              if isCalendarDateString (.string s) then []
              else [defaultIssue .defaultValueConstraintViolation index
                (ofString "date 的 defaultValue 必须是合法的 YYYY-MM-DD 日期") context]
          | _ => [defaultTypeIssue type "string" value index context]
      | .file => [defaultTypeIssue type "不可设置默认值" value index context]
      | .number =>
          match asFiniteNumber (some value) with
          | some q => validateDefaultNumber rt q index context constraints
          | none => [defaultTypeIssue type "number" value index context]
      | .switch =>
          match value with
          | .bool _ => []
          | _ => [defaultTypeIssue type "boolean" value index context]
      | .select | .radio =>
          match asOptionValue (some value) with
          | some optionValue =>
              assertDefaultValueInOptions optionValue value
                [.index index, .name (ofString "defaultValue")] context constraints
          | none => [defaultTypeIssue type "string 或 number" value index context]
      | .checkbox =>
          match value with
          | .array items =>
              items.zipIdx.flatMap (fun item =>
                validateDefaultItem index item.2 context constraints item.1)
          | _ => [defaultTypeIssue type "(string | number)[]" value index context]

/-! Fields, tabs and the template -/

/-- The names seen so far, and the issues of the field. -/
def validateField (rt : JsRuntime) (field : Json) (index : Nat)
    (seenNames : List (JsString × Nat)) : List (JsString × Nat) × List FormSchemaIssue :=
  if isPlainObject field = false then
    (seenNames, [⟨.fieldNotObject, [.index index],
      ofString "字段必须是对象，实际收到 " ++ describeValueType (some field),
      ⟨some index, none, none⟩⟩])
  else
    let type := validateFieldType field index
    let name := validateFieldName field index seenNames
    let context : FormSchemaIssueContext := ⟨some index, name.1, none⟩
    let common := type.2 ++ name.2.2 ++ validateFieldLabel field index context ++
      validateCommonOptionalProperties field index context
    match type.1 with
    | none => (name.2.1, common)
    | some type =>
        let constraints := validateConstraints rt field type index context
        (name.2.1, common ++ validateUnknownProperties field type index context ++
          constraints.2 ++ validateDefaultValue rt field type index context constraints.1)

def validateFieldsFrom (rt : JsRuntime) :
    Nat → List (JsString × Nat) → List Json → List FormSchemaIssue
  | _, _, [] => []
  | index, seenNames, field :: fields =>
      let checked := validateField rt field index seenNames
      checked.2 ++ validateFieldsFrom rt (index + 1) checked.1 fields

/-- An issue of a child field, seen from the template. -/
def childIssue (index : Nat) (issue : FormSchemaIssue) : FormSchemaIssue :=
  { issue with path := .index index :: .name (ofString "children") :: issue.path }

def validateTab (rt : JsRuntime) (value : Json) (index : Nat)
    (seenNames : List (JsString × Nat)) : List (JsString × Nat) × List FormSchemaIssue :=
  if isPlainObject value = false then
    (seenNames, [⟨.fieldNotObject, [.index index], ofString "tab 必须是对象",
      ⟨some index, none, none⟩⟩])
  else
    let name := validateFieldName value index seenNames
    let context : FormSchemaIssueContext := ⟨some index, name.1, none⟩
    let description :=
      match prop value "description" with
      | none => []
      | some raw =>
          if isPlainText raw then []
          else [propertyIssue .propertyTypeInvalid index (ofString "description")
            (ofString "description 必须是纯文本字符串") context]
    let unknown := (findUnknownProperties value
        (["type", "name", "label", "description", "children"].map ofString)).map (fun property =>
      propertyIssue .unknownProperty index property
        (ofString "tab 不允许属性 " ++ describeToken (some (.string property))) context)
    let children :=
      match asArray (prop value "children") with
      | [] => [propertyIssue .tabChildrenInvalid index (ofString "children")
          (ofString "tab.children 必须是至少包含一个普通字段的数组") context]
      | fields => (validateFieldsFrom rt 0 [] fields).map (childIssue index)
    (name.2.1, name.2.2 ++ validateFieldLabel value index context ++ description ++ unknown ++
      children)

def validateTabsFrom (rt : JsRuntime) :
    Nat → List (JsString × Nat) → List Json → List FormSchemaIssue
  | _, _, [] => []
  | index, seenNames, tab :: tabs =>
      let checked := validateTab rt tab index seenNames
      checked.2 ++ validateTabsFrom rt (index + 1) checked.1 tabs

def isTab (node : Json) : Bool :=
  match prop node "type" with
  | some (.string s) => s == ofString "tab"
  | _ => false

def TabFormNode.normalize (tab : TabFormNode) : TabFormNode :=
  { tab with children := tab.children.map normalizeField }

/-- The normalised template, or all issues that were found. -/
def validateFormSchema (rt : JsRuntime) (input : Json) : Except (List FormSchemaIssue) FormSchema :=
  match input with
  | .array fields =>
      let tabCount := (fields.filter isTab).length
      if 0 < tabCount ∧ tabCount ≠ fields.length then
        .error [⟨.schemaLayoutMixed, [],
          ofString "模板顶层不能混用 tab 与普通字段；请全部使用 tab，或继续使用扁平字段数组",
          ⟨none, none, none⟩⟩]
      else if 0 < tabCount then
        match validateTabsFrom rt 0 [] fields with
        | [] => .ok (.tabs ((fields.filterMap toTabFormNode).map TabFormNode.normalize))
        | issues => .error issues
      else
        match validateFieldsFrom rt 0 [] fields with
        | [] => .ok (.flat ((fields.filterMap toFormField).map normalizeField))
        | issues => .error issues
  | _ =>
      .error [⟨.schemaNotArray, [],
        ofString "模板顶层必须是数组，实际收到 " ++ describeValueType (some input),
        ⟨none, none, none⟩⟩]

/-- An object without issues is a field. -/
theorem exists_toFormField {rt : JsRuntime} {field : Json} {index : Nat}
    {seenNames : List (JsString × Nat)} (h : (validateField rt field index seenNames).2 = []) :
    ∃ formField, toFormField field = some formField := by
  rw [validateField] at h
  split at h
  · exact absurd h (List.cons_ne_nil _ _)
  · have hcommon : (validateFieldType field index).2 = [] ∧
        (validateFieldName field index seenNames).2.2 = [] := by
      dsimp only at h
      split at h <;> simp only [List.append_eq_nil_iff] at h <;> grind
    obtain ⟨type, htype⟩ : ∃ type, asFormFieldType (prop field "type") = some type := by
      have htype := hcommon.1
      rw [validateFieldType] at htype
      split at htype
      · exact absurd htype (List.cons_ne_nil _ _)
      · rename_i raw hraw
        split at htype
        · exact absurd htype (List.cons_ne_nil _ _)
        · rename_i type hsome
          exact ⟨type, hraw ▸ hsome⟩
    obtain ⟨name, hname⟩ : ∃ name, asString (prop field "name") = some name := by
      have hname := hcommon.2
      rw [validateFieldName] at hname
      dsimp only at hname
      split at hname
      · exact absurd hname (List.cons_ne_nil _ _)
      · rename_i name hsome
        exact ⟨name, hsome⟩
    simp only [toFormField, htype, hname, Option.bind_eq_bind, Option.bind_some]
    exact ⟨_, rfl⟩

/-- So no field is left out of an accepted template. -/
theorem filterMap_toFormField {rt : JsRuntime} {fields : List Json} {index : Nat}
    {seenNames : List (JsString × Nat)} (h : validateFieldsFrom rt index seenNames fields = []) :
    (fields.filterMap toFormField).map some = fields.map toFormField := by
  induction fields generalizing index seenNames with
  | nil => rfl
  | cons field fields ih =>
      rw [validateFieldsFrom, List.append_eq_nil_iff] at h
      obtain ⟨formField, hfield⟩ := exists_toFormField h.1
      rw [List.filterMap_cons_some hfield, List.map_cons, List.map_cons, ih h.2, hfield]

end AnvilRun.Form
