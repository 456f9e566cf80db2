import AnvilRun.ValidationPrimitives

namespace AnvilRun.Form

open AnvilRun.ValidationPrimitives
open JsString

inductive FormFieldType where
  | input | textarea | number | select | radio | checkbox | switch | date | password | file
  deriving DecidableEq

def formFieldTypes : List FormFieldType :=
  [.input, .textarea, .number, .select, .radio, .checkbox, .switch, .date, .password, .file]

def FormFieldType.text : FormFieldType → JsString
  | .input => ofString "input"
  | .textarea => ofString "textarea"
  | .number => ofString "number"
  | .select => ofString "select"
  | .radio => ofString "radio"
  | .checkbox => ofString "checkbox"
  | .switch => ofString "switch"
  | .date => ofString "date"
  | .password => ofString "password"
  | .file => ofString "file"

def formFileDefaultMaxBytes : Nat := 256 * 1024 * 1024
def formFileHardMaxBytes : Nat := 2 * 1024 * 1024 * 1024
def formFileNamePatternMaxLength : Nat := 256
def formFieldNameMaxLength : Nat := 64
def formFieldPatternMaxLength : Nat := 512

/-- `FORM_FILE_EXTENSION_PATTERN`. -/
def matchesFormFileExtension : JsString → Bool
  | u :: v :: s =>
      u == 46 && (isLetterUnit v || isDigitUnit v) && decide (s.length ≤ 31) &&
        s.all (fun w => isLetterUnit w || isDigitUnit w || w == 46 || w == 95 || w == 43 || w == 45)
  | _ => false

/-- `FORM_FIELD_NAME_PATTERN`. -/
def matchesFormFieldName : JsString → Bool
  | u :: s =>
      (isLetterUnit u || u == 95) && decide (s.length ≤ 63) &&
        s.all (fun w => isLetterUnit w || isDigitUnit w || w == 95 || w == 46 || w == 45)
  | [] => false

/-- The source text of `FORM_FIELD_NAME_PATTERN`. -/
def formFieldNamePatternSource : JsString :=
  ofString "^[A-Za-z_][A-Za-z0-9_.-]\x7b0,63\x7d$"

inductive FormFieldOptionValue where
  | text (value : JsString)
  | number (value : Rat)
  deriving DecidableEq

/-- A leaf field, with the properties that the validators of configurations read. -/
structure FormField where
  type : FormFieldType
  name : JsString
  defaultValue : Option Json
  required : Bool
  disabled : Bool
  sensitive : Option Bool
  minLength : Option Rat
  maxLength : Option Rat
  min : Option Rat
  max : Option Rat
  step : Option Rat
  pattern : Option JsString
  options : List FormFieldOptionValue
  allowedExtensions : List JsString
  fileNamePattern : Option JsString
  maxSizeBytes : Option Rat

structure TabFormNode where
  name : JsString
  children : List FormField

/-- A template: fields only, or tabs only. -/
inductive FormSchema where
  | flat (fields : List FormField)
  | tabs (nodes : List TabFormNode)

structure FormFieldPath where
  field : FormField
  path : List JsString

/-- All leaf fields with their paths in a configuration. -/
def listFormFields : FormSchema → List FormFieldPath
  | .flat fields => fields.map (fun field => ⟨field, [field.name]⟩)
  | .tabs nodes =>
      nodes.flatMap (fun node =>
        node.children.map (fun field => ⟨field, [node.name, field.name]⟩))

def isSensitiveFormField (field : FormField) : Bool :=
  field.sensitive.getD (decide (field.type = .password))

def listSensitiveFormFieldNames (schema : FormSchema) : List JsString :=
  ((listFormFields schema).filter (fun leaf => isSensitiveFormField leaf.field)).map
    (fun leaf => leaf.field.name)

def formFieldCommonProperties : List JsString :=
  ["type", "name", "label", "defaultValue", "required", "placeholder", "description", "disabled",
    "sensitive"].map ofString

def formFieldAllowedProperties : FormFieldType → List JsString
  | .input => formFieldCommonProperties ++ ["minLength", "maxLength", "pattern"].map ofString
  | .textarea => formFieldCommonProperties ++ ["minLength", "maxLength"].map ofString
  | .number => formFieldCommonProperties ++ ["min", "max", "step"].map ofString
  | .select => formFieldCommonProperties ++ ["options"].map ofString
  | .radio => formFieldCommonProperties ++ ["options"].map ofString
  | .checkbox => formFieldCommonProperties ++ ["options"].map ofString
  | .switch => formFieldCommonProperties
  | .date => formFieldCommonProperties
  | .password => formFieldCommonProperties
  | .file =>
      ["type", "name", "label", "required", "description", "allowedExtensions", "fileNamePattern",
        "maxSizeBytes"].map ofString

end AnvilRun.Form
