import AnvilRun.FormSchema.Values

namespace AnvilRun.Form

open AnvilRun.ValidationPrimitives
open JsString

/-! What an accepted template says about its fields -/

/-- The object that was read as `formField` went through every check of a field. -/
structure AcceptedField (rt : JsRuntime) (field : Json) (formField : FormField) (index : Nat)
    (context : FormSchemaIssueContext) : Prop where
  read : toFormField field = some formField
  name : matchesFormFieldName formField.name = true
  known : findUnknownProperties field (formFieldAllowedProperties formField.type) = []
  constraints : (validateConstraints rt field formField.type index context).2 = []
  defaultValue : validateDefaultValue rt field formField.type index context
    (validateConstraints rt field formField.type index context).1 = []

/-- A name without issues is well formed, new and recorded. -/
theorem validateFieldName_accepted {field : Json} {index : Nat}
    {seenNames : List (JsString × Nat)} (h : (validateFieldName field index seenNames).2.2 = []) :
    ∃ name, asString (prop field "name") = some name ∧ matchesFormFieldName name = true ∧
      name ∉ seenNames.map Prod.fst ∧
      (validateFieldName field index seenNames).2.1 = (name, index) :: seenNames := by
  rw [validateFieldName] at h ⊢
  dsimp only at h ⊢
  split at h
  · exact absurd h (List.cons_ne_nil _ _)
  · rename_i name hname
    split at h
    · exact absurd h (List.cons_ne_nil _ _)
    · rename_i hmatches
      split at h
      · exact absurd h (List.cons_ne_nil _ _)
      · rename_i hnew
        refine ⟨name, hname, by simpa using hmatches, ?_, ?_⟩
        · intro hseen
          obtain ⟨seen, hmem, rfl⟩ := List.mem_map.mp hseen
          simpa using List.find?_eq_none.mp hnew seen hmem
        · simp [hmatches]

/-- The type that a field object without issues states. -/
theorem validateFieldType_accepted {field : Json} {index : Nat}
    (h : (validateFieldType field index).2 = []) :
    ∃ type, asFormFieldType (prop field "type") = some type ∧
      (validateFieldType field index).1 = some type := by
  rw [validateFieldType] at h ⊢
  split at h
  · exact absurd h (List.cons_ne_nil _ _)
  · rename_i raw hraw
    split at h
    · exact absurd h (List.cons_ne_nil _ _)
    · rename_i type htype
      exact ⟨type, hraw ▸ htype, rfl⟩

theorem toFormField_eq_some {field : Json} {formField : FormField}
    (h : toFormField field = some formField) :
    asFormFieldType (prop field "type") = some formField.type ∧
      asString (prop field "name") = some formField.name := by
  simp only [toFormField, Option.bind_eq_bind, Option.bind_eq_some_iff, Option.some.injEq] at h
  obtain ⟨type, htype, name, hname, rfl⟩ := h
  exact ⟨htype, hname⟩

/-- An object without issues is an accepted field with a name that was not seen before. -/
theorem validateField_accepted {rt : JsRuntime} {field : Json} {index : Nat}
    {seenNames : List (JsString × Nat)} (h : (validateField rt field index seenNames).2 = []) :
    ∃ formField context, AcceptedField rt field formField index context ∧
      formField.name ∉ seenNames.map Prod.fst ∧
      (validateField rt field index seenNames).1 = (formField.name, index) :: seenNames := by
  obtain ⟨formField, hread⟩ := exists_toFormField h
  obtain ⟨hformType, hformName⟩ := toFormField_eq_some hread
  rw [validateField] at h ⊢
  split at h
  · exact absurd h (List.cons_ne_nil _ _)
  · rename_i hobject
    rw [if_neg hobject]
    dsimp only at h ⊢
    have hcommon : (validateFieldType field index).2 = [] ∧
        (validateFieldName field index seenNames).2.2 = [] := by
      split at h <;> simp only [List.append_eq_nil_iff] at h <;> grind
    obtain ⟨type, htype, htypeRead⟩ := validateFieldType_accepted hcommon.1
    obtain ⟨name, hname, hmatches, hnew, hseen⟩ := validateFieldName_accepted hcommon.2
    obtain rfl : type = formField.type := Option.some.inj (htype.symm.trans hformType)
    obtain rfl : name = formField.name := Option.some.inj (hname.symm.trans hformName)
    simp only [htypeRead, List.append_eq_nil_iff] at h ⊢
    obtain ⟨⟨⟨_, hknown⟩, hconstraints⟩, hdefault⟩ := h
    refine ⟨formField, _, ⟨hread, hmatches, ?_, hconstraints, hdefault⟩, hnew, hseen⟩
    simpa [validateUnknownProperties] using hknown

/-- The names of the fields, with the indices that the validator records. -/
theorem validateFieldsFrom_accepted {rt : JsRuntime} {fields : List Json} {index : Nat}
    {seenNames : List (JsString × Nat)} (h : validateFieldsFrom rt index seenNames fields = []) :
    (∀ formField ∈ fields.filterMap toFormField,
      ∃ field i context, AcceptedField rt field formField i context) ∧
    ((fields.filterMap toFormField).map FormField.name).Nodup ∧
    ∀ formField ∈ fields.filterMap toFormField, formField.name ∉ seenNames.map Prod.fst := by
  induction fields generalizing index seenNames with
  | nil => simp
  | cons field fields ih =>
      rw [validateFieldsFrom, List.append_eq_nil_iff] at h
      obtain ⟨hfield, hfields⟩ := h
      obtain ⟨formField, context, haccepted, hnew, hseen⟩ := validateField_accepted hfield
      rw [hseen] at hfields
      obtain ⟨hall, hnodup, hfresh⟩ := ih hfields
      rw [List.filterMap_cons_some haccepted.read]
      refine ⟨?_, ?_, ?_⟩
      · simp only [List.forall_mem_cons]
        exact ⟨⟨field, index, context, haccepted⟩, hall⟩
      · rw [List.map_cons, List.nodup_cons]
        refine ⟨fun hmem => ?_, hnodup⟩
        obtain ⟨other, hother, hname⟩ := List.mem_map.mp hmem
        exact hfresh other hother (by simp [hname])
      · simp only [List.forall_mem_cons]
        refine ⟨hnew, fun other hother hmem => hfresh other hother ?_⟩
        rw [List.map_cons]
        exact List.mem_cons_of_mem _ hmem

/-- The fields of an accepted template, or of a tab of one. -/
structure AcceptedFields (rt : JsRuntime) (fields : List FormField) : Prop where
  accepted : ∀ f ∈ fields, ∃ field formField index context,
    AcceptedField rt field formField index context ∧ f = normalizeField formField
  nodup : (fields.map FormField.name).Nodup

/-- The fields and tabs of an accepted template. -/
def FormSchema.Accepted (rt : JsRuntime) : FormSchema → Prop
  | .flat fields => AcceptedFields rt fields
  | .tabs nodes => (∀ node ∈ nodes, AcceptedFields rt node.children) ∧
      (nodes.map TabFormNode.name).Nodup

theorem normalizeField_eq (field : FormField) :
    ∃ sensitive, normalizeField field = { field with sensitive := sensitive } := by
  unfold normalizeField
  split
  · exact ⟨some true, rfl⟩
  · exact ⟨field.sensitive, rfl⟩

@[simp] theorem normalizeField_name (field : FormField) :
    (normalizeField field).name = field.name := by
  obtain ⟨sensitive, h⟩ := normalizeField_eq field
  rw [h]

theorem acceptedFields_of_validate {rt : JsRuntime} {fields : List Json} {index : Nat}
    {seenNames : List (JsString × Nat)} (h : validateFieldsFrom rt index seenNames fields = []) :
    AcceptedFields rt ((fields.filterMap toFormField).map normalizeField) := by
  obtain ⟨hall, hnodup, -⟩ := validateFieldsFrom_accepted h
  constructor
  · intro f hf
    obtain ⟨formField, hmem, rfl⟩ := List.mem_map.mp hf
    obtain ⟨field, i, context, haccepted⟩ := hall formField hmem
    exact ⟨field, formField, i, context, haccepted, rfl⟩
  · have hnames : FormField.name ∘ normalizeField = FormField.name :=
      funext normalizeField_name
    rwa [List.map_map, hnames]

/-- A tab without issues has accepted fields and a name that was not seen before. -/
theorem validateTab_accepted {rt : JsRuntime} {tab : Json} {index : Nat}
    {seenNames : List (JsString × Nat)} (h : (validateTab rt tab index seenNames).2 = []) :
    ∃ node, toTabFormNode tab = some node ∧ AcceptedFields rt node.normalize.children ∧
      matchesFormFieldName node.name = true ∧ node.name ∉ seenNames.map Prod.fst ∧
      (validateTab rt tab index seenNames).1 = (node.name, index) :: seenNames := by
  rw [validateTab] at h ⊢
  split at h
  · exact absurd h (List.cons_ne_nil _ _)
  · rename_i hobject
    rw [if_neg hobject]
    simp only [List.append_eq_nil_iff] at h
    obtain ⟨⟨⟨⟨hname, -⟩, -⟩, -⟩, hchildren⟩ := h
    obtain ⟨name, hread, hmatches, hnew, hseen⟩ := validateFieldName_accepted hname
    refine ⟨⟨name, (asArray (prop tab "children")).filterMap toFormField⟩, ?_, ?_, hmatches, hnew,
      hseen⟩
    · simp [toTabFormNode, hread]
    · have hfields : validateFieldsFrom rt 0 [] (asArray (prop tab "children")) = [] := by
        split at hchildren
        · exact absurd hchildren (List.cons_ne_nil _ _)
        · simpa using hchildren
      exact acceptedFields_of_validate hfields

theorem validateTabsFrom_accepted {rt : JsRuntime} {tabs : List Json} {index : Nat}
    {seenNames : List (JsString × Nat)} (h : validateTabsFrom rt index seenNames tabs = []) :
    (∀ node ∈ tabs.filterMap toTabFormNode,
      AcceptedFields rt node.normalize.children ∧ matchesFormFieldName node.name = true) ∧
    ((tabs.filterMap toTabFormNode).map TabFormNode.name).Nodup ∧
    ∀ node ∈ tabs.filterMap toTabFormNode, node.name ∉ seenNames.map Prod.fst := by
  induction tabs generalizing index seenNames with
  | nil => simp
  | cons tab tabs ih =>
      rw [validateTabsFrom, List.append_eq_nil_iff] at h
      obtain ⟨htab, htabs⟩ := h
      obtain ⟨node, hread, hchildren, hmatches, hnew, hseen⟩ := validateTab_accepted htab
      rw [hseen] at htabs
      obtain ⟨hall, hnodup, hfresh⟩ := ih htabs
      rw [List.filterMap_cons_some hread]
      refine ⟨?_, ?_, ?_⟩
      · simp only [List.forall_mem_cons]
        exact ⟨⟨hchildren, hmatches⟩, hall⟩
      · rw [List.map_cons, List.nodup_cons]
        refine ⟨fun hmem => ?_, hnodup⟩
        obtain ⟨other, hother, hname⟩ := List.mem_map.mp hmem
        exact hfresh other hother (by simp [hname])
      · simp only [List.forall_mem_cons]
        refine ⟨hnew, fun other hother hmem => hfresh other hother ?_⟩
        rw [List.map_cons]
        exact List.mem_cons_of_mem _ hmem

/-- A template is returned as it was read, field by field or tab by tab. -/
theorem exists_of_validateFormSchema {rt : JsRuntime} {input : Json} {schema : FormSchema}
    (h : validateFormSchema rt input = .ok schema) :
    (∃ fields, validateFieldsFrom rt 0 [] fields = [] ∧
      schema = .flat ((fields.filterMap toFormField).map normalizeField)) ∨
    ∃ tabs, validateTabsFrom rt 0 [] tabs = [] ∧
      schema = .tabs ((tabs.filterMap toTabFormNode).map TabFormNode.normalize) := by
  unfold validateFormSchema at h
  split at h
  · rename_i fields
    dsimp only at h
    split at h
    · cases h
    · split at h
      · split at h
        · rename_i hissues
          exact .inr ⟨fields, hissues, (Except.ok.inj h).symm⟩
        · cases h
      · split at h
        · rename_i hissues
          exact .inl ⟨fields, hissues, (Except.ok.inj h).symm⟩
        · cases h
  · cases h

/-- Every template that the validator returns is an accepted one. -/
theorem accepted_of_validateFormSchema {rt : JsRuntime} {input : Json} {schema : FormSchema}
    (h : validateFormSchema rt input = .ok schema) : schema.Accepted rt := by
  rcases exists_of_validateFormSchema h with ⟨fields, hissues, rfl⟩ | ⟨tabs, hissues, rfl⟩
  · exact acceptedFields_of_validate hissues
  · obtain ⟨hall, hnodup, -⟩ := validateTabsFrom_accepted hissues
    constructor
    · intro normalized hmem
      obtain ⟨node, hnode, rfl⟩ := List.mem_map.mp hmem
      exact (hall node hnode).1
    · rwa [List.map_map]

/-- The tabs of a template have names of the same form as its fields. -/
theorem tabName_of_validateFormSchema {rt : JsRuntime} {input : Json} {nodes : List TabFormNode}
    (h : validateFormSchema rt input = .ok (.tabs nodes)) {node : TabFormNode}
    (hnode : node ∈ nodes) : matchesFormFieldName node.name = true := by
  rcases exists_of_validateFormSchema h with ⟨fields, -, hschema⟩ | ⟨tabs, hissues, hschema⟩
  · cases hschema
  · cases hschema
    obtain ⟨tab, htab, rfl⟩ := List.mem_map.mp hnode
    exact ((validateTabsFrom_accepted hissues).1 tab htab).2

theorem FormSchema.Accepted.field {rt : JsRuntime} {schema : FormSchema}
    (h : schema.Accepted rt) {leaf : FormFieldPath} (hleaf : leaf ∈ listFormFields schema) :
    ∃ field formField index context,
      AcceptedField rt field formField index context ∧ leaf.field = normalizeField formField := by
  cases schema with
  | flat fields =>
      obtain ⟨f, hf, rfl⟩ := List.mem_map.mp hleaf
      exact h.accepted f hf
  | tabs nodes =>
      obtain ⟨node, hnode, hmem⟩ := List.mem_flatMap.mp hleaf
      obtain ⟨f, hf, rfl⟩ := List.mem_map.mp hmem
      exact (h.1 node hnode).accepted f hf

end AnvilRun.Form
