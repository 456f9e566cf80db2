import AnvilRun.FormSchema.FieldTypes
import AnvilRun.JsonSchema

namespace AnvilRun.PublishedSchema

open AnvilRun.Form
open AnvilRun.JsonSchema
open AnvilRun.ValidationPrimitives
open JsString

/-- The names of `$defs`. -/
inductive SchemaDef where
  | fieldName | fieldLabel | plainText | optionValue | option | options | formNode | formField
  | tabNode | inputField | textareaField | numberField | selectField | radioField | checkboxField
  | switchField | dateField | passwordField | fileField
  deriving DecidableEq

/-- `OPTION_VALUE_DEF`. -/
def optionValueDef : Schema SchemaDef := .type [.string, .number]

/-- `COMMON_PROPERTIES`, with what a control says about `sensitive`. -/
def propertiesWith (sensitive : Schema SchemaDef) : List (JsString × Schema SchemaDef) :=
  [(ofString "name", .ref .fieldName), (ofString "label", .ref .fieldLabel),
    (ofString "required", .type [.boolean]), (ofString "placeholder", .ref .plainText),
    (ofString "description", .ref .plainText), (ofString "disabled", .type [.boolean]),
    (ofString "sensitive", sensitive)]

def commonProperties : List (JsString × Schema SchemaDef) := propertiesWith (.type [.boolean])

/-- `REQUIRED_PROPERTIES`. -/
def requiredProperties : List JsString := ["type", "name", "label"].map ofString

/-- The schema of objects whose `type` is fixed. -/
def nodeSchema (type : JsString) (required : List JsString)
    (properties : List (JsString × Schema SchemaDef)) : Schema SchemaDef :=
  .all [.type [.object], .required required,
    .closed ((ofString "type", .const (.string type)) :: properties)]

def fieldName : Schema SchemaDef :=
  .all [.type [.string], .pattern ⟨formFieldNamePatternSource, matchesFormFieldName⟩]

def fieldLabel : Schema SchemaDef := .all [.type [.string], .minLength 1]

def plainText : Schema SchemaDef := .type [.string]

def option : Schema SchemaDef :=
  .all [.type [.object], .required (["label", "value"].map ofString),
    .closed [(ofString "label", .all [.type [.string], .minLength 1]),
      (ofString "value", .ref .optionValue)]]

def options : Schema SchemaDef :=
  .all [.type [.array], .minItems 1, .uniqueItems, .items (.ref .option)]

def formNode : Schema SchemaDef := .oneOf [.ref .formField, .ref .tabNode]

def formField : Schema SchemaDef :=
  .oneOf [.ref .inputField, .ref .textareaField, .ref .numberField, .ref .selectField,
    .ref .radioField, .ref .checkboxField, .ref .switchField, .ref .dateField, .ref .passwordField,
    .ref .fileField]

def tabNode : Schema SchemaDef :=
  nodeSchema (ofString "tab") (["type", "name", "label", "children"].map ofString)
    [(ofString "name", .ref .fieldName), (ofString "label", .ref .fieldLabel),
      (ofString "description", .ref .plainText),
      (ofString "children", .all [.type [.array], .minItems 1, .items (.ref .formField)])]

/-- A length in the schemas of texts. -/
def nonNegativeLength : Schema SchemaDef := .all [.type [.integer], .minimum 0]

def inputField : Schema SchemaDef :=
  nodeSchema (ofString "input") requiredProperties (commonProperties ++
    [(ofString "defaultValue", .type [.string]), (ofString "minLength", nonNegativeLength),
      (ofString "maxLength", nonNegativeLength),
      (ofString "pattern", .all [.type [.string], .maxLength formFieldPatternMaxLength])])

def textareaField : Schema SchemaDef :=
  nodeSchema (ofString "textarea") requiredProperties (commonProperties ++
    [(ofString "defaultValue", .type [.string]), (ofString "minLength", nonNegativeLength),
      (ofString "maxLength", nonNegativeLength)])

def numberField : Schema SchemaDef :=
  nodeSchema (ofString "number") requiredProperties (commonProperties ++
    [(ofString "defaultValue", .type [.number]), (ofString "min", .type [.number]),
      (ofString "max", .type [.number]),
      (ofString "step", .all [.type [.number], .exclusiveMinimum 0])])

def selectField : Schema SchemaDef :=
  nodeSchema (ofString "select") (requiredProperties ++ [ofString "options"]) (commonProperties ++
    [(ofString "defaultValue", .ref .optionValue), (ofString "options", .ref .options)])

def radioField : Schema SchemaDef :=
  nodeSchema (ofString "radio") (requiredProperties ++ [ofString "options"]) (commonProperties ++
    [(ofString "defaultValue", .ref .optionValue), (ofString "options", .ref .options)])

def checkboxField : Schema SchemaDef :=
  nodeSchema (ofString "checkbox") (requiredProperties ++ [ofString "options"]) (commonProperties ++
    [(ofString "defaultValue", .all [.type [.array], .uniqueItems, .items (.ref .optionValue)]),
      (ofString "options", .ref .options)])

def switchField : Schema SchemaDef :=
  nodeSchema (ofString "switch") requiredProperties (commonProperties ++
    [(ofString "defaultValue", .type [.boolean])])

/-- The pattern of a date. -/
def datePattern : CompiledRegExp :=
  ⟨ofString "^\\d\x7b4\x7d-\\d\x7b2\x7d-\\d\x7b2\x7d$", fun s => (calendarDateGroups s).isSome⟩

def dateField : Schema SchemaDef :=
  nodeSchema (ofString "date") requiredProperties (commonProperties ++
    [(ofString "defaultValue", .all [.type [.string], .pattern datePattern])])

def passwordField : Schema SchemaDef :=
  nodeSchema (ofString "password") requiredProperties (propertiesWith (.const (.bool true)) ++
    [(ofString "defaultValue", .type [.string])])

/-- The pattern of a file extension. -/
def extensionPattern : CompiledRegExp :=
  ⟨ofString "^\\.[A-Za-z0-9][A-Za-z0-9._+-]\x7b0,31\x7d$", matchesFormFileExtension⟩

def fileField : Schema SchemaDef :=
  nodeSchema (ofString "file") (requiredProperties ++ [ofString "allowedExtensions"])
    [(ofString "name", .ref .fieldName), (ofString "label", .ref .fieldLabel),
      (ofString "required", .type [.boolean]), (ofString "description", .ref .plainText),
      (ofString "allowedExtensions", .all [.type [.array], .minItems 1, .maxItems 16, .uniqueItems,
        .items (.all [.type [.string], .pattern extensionPattern])]),
      (ofString "fileNamePattern",
        .all [.type [.string], .maxLength formFileNamePatternMaxLength]),
      (ofString "maxSizeBytes",
        .all [.type [.integer], .minimum 1, .maximum formFileHardMaxBytes])]

/-- `$defs`. -/
def schemaDefs : SchemaDef → Schema SchemaDef
  | .fieldName => fieldName
  | .fieldLabel => fieldLabel
  | .plainText => plainText
  | .optionValue => optionValueDef
  | .option => option
  | .options => options
  | .formNode => formNode
  | .formField => formField
  | .tabNode => tabNode
  | .inputField => inputField
  | .textareaField => textareaField
  | .numberField => numberField
  | .selectField => selectField
  | .radioField => radioField
  | .checkboxField => checkboxField
  | .switchField => switchField
  | .dateField => dateField
  | .passwordField => passwordField
  | .fileField => fileField

/-- How deep the references of a definition go. -/
def SchemaDef.rank : SchemaDef → Nat
  | .fieldName | .fieldLabel | .plainText | .optionValue => 0
  | .option => 1
  | .options => 2
  | .formField => 4
  | .tabNode => 5
  | .formNode => 6
  | _ => 3

theorem schemaDefs_acyclic (name : SchemaDef) :
    ∀ other ∈ (schemaDefs name).refs, other.rank < name.rank := by
  cases name <;> decide

/-- `FORM_SCHEMA_JSON_SCHEMA`. -/
def formSchemaJsonSchema : Document SchemaDef where
  root := .all [.type [.array], .items (.ref .formNode)]
  defs := schemaDefs
  rank := SchemaDef.rank
  acyclic := schemaDefs_acyclic

/-- The schema of the fields of a type. -/
def schemaDefOf : FormFieldType → SchemaDef
  | .input => .inputField
  | .textarea => .textareaField
  | .number => .numberField
  | .select => .selectField
  | .radio => .radioField
  | .checkbox => .checkboxField
  | .switch => .switchField
  | .date => .dateField
  | .password => .passwordField
  | .file => .fileField

end AnvilRun.PublishedSchema
