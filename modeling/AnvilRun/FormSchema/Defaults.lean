import AnvilRun.FormSchema.Accepted

namespace AnvilRun.Form

open AnvilRun.ValidationPrimitives
open JsString

/-! The two validators read the same constraints -/

theorem readOptionalNumber_accepted {rt : JsRuntime} {field : Json} {property : String}
    {index : Nat} {context : FormSchemaIssueContext} {rule : OptionalNumberRule}
    (h : (readOptionalNumber rt field property index context rule).2 = []) :
    (readOptionalNumber rt field property index context rule).1 =
      asFiniteNumber (prop field property) := by
  unfold readOptionalNumber at h ⊢
  cases hprop : prop field property with
  | none => rfl
  | some raw =>
      rw [hprop] at h
      dsimp only at h ⊢
      cases hnumber : asFiniteNumber (some raw) with
      | none => rfl
      | some q =>
          rw [hnumber] at h
          dsimp only at h ⊢
          split at h
          · exact absurd h (List.cons_ne_nil _ _)
          · rename_i hrule
            rw [if_neg hrule]

theorem validatePatternConstraint_accepted {rt : JsRuntime} {field : Json} {index : Nat}
    {context : FormSchemaIssueContext} (h : (validatePatternConstraint rt field index context).2 = []) :
    (validatePatternConstraint rt field index context).1.map some =
      (asString (prop field "pattern")).map rt.regExp := by
  unfold validatePatternConstraint at h ⊢
  split
  · rename_i hprop
    simp [hprop, asString]
  · rename_i raw hprop
    simp only [hprop, asString, Option.map_some] at h ⊢
    split at h
    · exact absurd h (List.cons_ne_nil _ _)
    · rename_i hlength
      rw [if_neg hlength]
      split at h
      · rename_i regExp hregExp
        simp [hregExp]
      · exact absurd h (List.cons_ne_nil _ _)
  · rename_i raw hstring hprop
    simp [hprop] at h

theorem validateOption_accepted {index optionIndex : Nat} {context : FormSchemaIssueContext}
    {seenValues : List (FormFieldOptionValue × Nat)} {option : Json}
    (h : (validateOption index optionIndex context seenValues option).2 = []) :
    ∃ value, (validateOption index optionIndex context seenValues option).1 = some value ∧
      asOptionValue (prop option "value") = some value := by
  unfold validateOption at h ⊢
  dsimp only at h ⊢
  split at h
  · exact absurd h (List.cons_ne_nil _ _)
  · rename_i hobject
    rw [if_neg hobject]
    split at h
    · simp at h
    · rename_i value hvalue
      split at h
      · simp at h
      · rename_i hnew
        exact ⟨value, rfl, hvalue⟩

theorem validateOptionsFrom_accepted {index optionIndex : Nat} {context : FormSchemaIssueContext}
    {seenValues : List (FormFieldOptionValue × Nat)} {options : List Json}
    (h : (validateOptionsFrom index context optionIndex seenValues options).2 = []) :
    (validateOptionsFrom index context optionIndex seenValues options).1 =
      options.filterMap (fun option => asOptionValue (prop option "value")) := by
  induction options generalizing optionIndex seenValues with
  | nil => rfl
  | cons option options ih =>
      rw [validateOptionsFrom] at h ⊢
      cases hoption : validateOption index optionIndex context seenValues option with
      | mk read issues =>
          have hissues : issues = [] := by
            rw [hoption] at h
            cases read <;> exact (List.append_eq_nil_iff.mp h).1
          obtain ⟨value, hread, hvalue⟩ := validateOption_accepted (by rw [hoption]; exact hissues)
          rw [hoption] at hread h
          obtain rfl : read = some value := hread
          simp only [List.filterMap_cons, hvalue]
          exact congrArg (value :: ·) (ih (List.append_eq_nil_iff.mp h).2)

theorem validateOptions_accepted {field : Json} {index : Nat} {context : FormSchemaIssueContext}
    (h : (validateOptions field index context).2 = []) :
    (validateOptions field index context).1 =
      some ((asArray (prop field "options")).filterMap (fun option =>
        asOptionValue (prop option "value"))) := by
  unfold validateOptions at h ⊢
  split
  · rename_i hprop
    simp [hprop] at h
  · rename_i hprop
    simp [hprop] at h
  · rename_i option options hprop
    simp only [hprop] at h ⊢
    rw [h, validateOptionsFrom_accepted h]
    rfl
  · rename_i raw hnil hcons hprop
    simp [hprop] at h

/-- A property that the type does not allow is absent. -/
theorem prop_eq_none_of_known {field : Json} {allowed : List JsString} {property : String}
    (h : findUnknownProperties field allowed = [])
    (hproperty : allowed.contains (ofString property) = false) : prop field property = none := by
  cases hprop : prop field property with
  | none => rfl
  | some value =>
      cases field with
      | object members =>
          obtain ⟨member, hfind, -⟩ := Option.map_eq_some_iff.mp hprop
          have hname : member.1 = ofString property := by simpa using List.find?_some hfind
          have hmem : member ∈ members := by simpa using List.mem_of_find?_eq_some hfind
          have hkey : ofString property ∈ objectKeys (.object members) := by
            rw [objectKeys, List.mem_eraseDups, ← hname]
            exact List.mem_map_of_mem hmem
          have := List.filter_eq_nil_iff.mp h _ hkey
          rw [hproperty] at this
          exact absurd rfl this
      | _ => cases hprop

/-! The two checks of a default value -/

theorem checkedValue_eq_ok {value : Json} {issues : List FormConfigIssue} :
    (∃ v, checkedValue value issues = .ok v) ↔ issues = [] := by
  cases issues <;> simp [checkedValue]

theorem validateTextValue_ok {rt : JsRuntime} {f : FormField} {s : JsString} :
    (∃ v, validateTextValue rt f (.string s) = .ok v) ↔
      (∀ minLength, f.minLength = some minLength → ¬ (s.length : Rat) < minLength) ∧
      (∀ maxLength, f.maxLength = some maxLength → ¬ maxLength < (s.length : Rat)) ∧
      (∀ pattern, f.pattern = some pattern →
        ∃ regExp, rt.regExp pattern = some regExp ∧ regExp.test s = true) := by
  simp only [validateTextValue, checkedValue_eq_ok, List.append_eq_nil_iff]
  rw [and_assoc]
  refine and_congr ?_ (and_congr ?_ ?_)
  · cases f.minLength <;> simp
  · cases f.maxLength <;> simp
  · cases hpattern : f.pattern with
    | none => simp
    | some pattern => cases hregExp : rt.regExp pattern <;> simp [hregExp]

theorem validateStringDefault_accepted {rt : JsRuntime} {s : JsString} {index : Nat}
    {context : FormSchemaIssueContext} {constraints : FieldConstraints} :
    validateStringDefaultAgainstConstraints rt s index context constraints = [] ↔
      (∀ minLength, constraints.minLength = some minLength → ¬ (s.length : Rat) < minLength) ∧
      (∀ maxLength, constraints.maxLength = some maxLength → ¬ maxLength < (s.length : Rat)) ∧
      (∀ regExp, constraints.pattern = some regExp → regExp.test s = true) := by
  simp only [validateStringDefaultAgainstConstraints, List.append_eq_nil_iff]
  rw [and_assoc]
  refine and_congr ?_ (and_congr ?_ ?_)
  · cases constraints.minLength <;> simp
  · cases constraints.maxLength <;> simp
  · cases constraints.pattern <;> simp

/-- A text that is a default within the constraints is a value of the field. -/
theorem textValue_of_default {rt : JsRuntime} {f : FormField} {s : JsString} {index : Nat}
    {context : FormSchemaIssueContext} {constraints : FieldConstraints}
    (hmin : constraints.minLength = f.minLength) (hmax : constraints.maxLength = f.maxLength)
    (hpattern : constraints.pattern.map some = f.pattern.map rt.regExp)
    (h : validateStringDefaultAgainstConstraints rt s index context constraints = []) :
    ∃ v, validateTextValue rt f (.string s) = .ok v := by
  rw [validateStringDefault_accepted, hmin, hmax] at h
  rw [validateTextValue_ok]
  refine ⟨h.1, h.2.1, fun pattern hsome => ?_⟩
  rw [hsome, Option.map_some, Option.map_eq_some_iff] at hpattern
  obtain ⟨regExp, hregExp, hcompiled⟩ := hpattern
  exact ⟨regExp, hcompiled.symm, h.2.2 regExp hregExp⟩

/-- A number field's default, if there is one, is its base plus a multiple of its step. -/
def FormField.DefaultOnStep (f : FormField) : Prop :=
  ∀ q step, f.type = .number → f.defaultValue = some (.number (.finite q)) → f.step = some step →
    matchesStep q (f.min.getD 0) step = true

/-- A checkbox field's default, if there is one, selects nothing twice. -/
def FormField.DefaultDistinct (f : FormField) : Prop :=
  ∀ items, f.type = .checkbox → f.defaultValue = some (.array items) → items.Nodup

theorem validateNumberValue_ok {rt : JsRuntime} {f : FormField} {q : Rat} :
    (∃ v, validateNumberValue rt f (.number (.finite q)) = .ok v) ↔
      (∀ min, f.min = some min → ¬ q < min) ∧ (∀ max, f.max = some max → ¬ max < q) ∧
      (∀ step, f.step = some step → matchesStep q (f.min.getD 0) step = true) := by
  simp only [validateNumberValue, checkedValue_eq_ok, List.append_eq_nil_iff]
  rw [and_assoc]
  refine and_congr ?_ (and_congr ?_ ?_)
  · cases f.min <;> simp
  · cases f.max <;> simp
  · cases f.step <;> simp

theorem validateDefaultNumber_accepted {rt : JsRuntime} {q : Rat} {index : Nat}
    {context : FormSchemaIssueContext} {constraints : FieldConstraints} :
    validateDefaultNumber rt q index context constraints = [] ↔
      (∀ min, constraints.min = some min → ¬ q < min) ∧
      (∀ max, constraints.max = some max → ¬ max < q) := by
  simp only [validateDefaultNumber, List.append_eq_nil_iff]
  refine and_congr ?_ ?_
  · cases constraints.min <;> simp
  · cases constraints.max <;> simp

/-! Checkboxes -/

theorem asOptionValue_inj {a b : Json} {value : FormFieldOptionValue}
    (ha : asOptionValue (some a) = some value) (hb : asOptionValue (some b) = some value) :
    a = b := by
  unfold asOptionValue at ha hb
  split at ha <;> split at hb <;> cases ha <;> cases hb <;> simp_all

/-- Items that are options, none of them chosen yet. -/
theorem validateCheckboxItems_eq_nil {f : FormField} {value : Json} {index : Nat}
    {values : List FormFieldOptionValue} {items : List Json}
    (h : ∀ item ∈ items, ∃ v, asOptionValue (some item) = some v ∧ isAllowedOption f v = true) :
    validateCheckboxItems f value index values items = [] ↔
      items.Nodup ∧ ∀ item ∈ items, ∀ v, asOptionValue (some item) = some v → v ∉ values := by
  induction items generalizing index values with
  | nil => simp [validateCheckboxItems]
  | cons item items ih =>
      rw [List.forall_mem_cons] at h
      obtain ⟨⟨v, hv, hallowed⟩, hitems⟩ := h
      rw [validateCheckboxItems]
      simp only [hv, hallowed, Bool.true_eq_false, if_false, List.nodup_cons, List.forall_mem_cons,
        Option.some.injEq, forall_eq']
      by_cases hchosen : values.contains v = true
      · rw [if_pos hchosen]
        have hmem : v ∈ values := by simpa using hchosen
        simp [hmem]
      · rw [if_neg hchosen, ih hitems]
        have hmem : v ∉ values := by simpa using hchosen
        constructor
        · rintro ⟨hnodup, hfresh⟩
          refine ⟨⟨fun hagain => ?_, hnodup⟩, hmem, fun other hother w hw hw' => ?_⟩
          · exact hfresh item hagain v hv (by simp)
          · exact hfresh other hother w hw (by simp [hw'])
        · rintro ⟨⟨hnew, hnodup⟩, -, hfresh⟩
          refine ⟨hnodup, fun other hother w hw => ?_⟩
          simp only [List.mem_append, List.mem_singleton, not_or]
          refine ⟨hfresh other hother w hw, fun hsame => hnew ?_⟩
          rw [asOptionValue_inj hv (hsame ▸ hw)]
          exact hother

/-! Whole fields -/

/-- What the normalised field holds of the object it was read from. -/
structure ReadsField (f : FormField) (field : Json) : Prop where
  defaultValue : f.defaultValue = prop field "defaultValue"
  minLength : f.minLength = asFiniteNumber (prop field "minLength")
  maxLength : f.maxLength = asFiniteNumber (prop field "maxLength")
  min : f.min = asFiniteNumber (prop field "min")
  max : f.max = asFiniteNumber (prop field "max")
  pattern : f.pattern = asString (prop field "pattern")
  options : f.options = (asArray (prop field "options")).filterMap (fun option =>
    asOptionValue (prop option "value"))

theorem readsField_normalize {field : Json} {formField : FormField}
    (h : toFormField field = some formField) : ReadsField (normalizeField formField) field := by
  obtain ⟨sensitive, hnormalize⟩ := normalizeField_eq formField
  simp only [toFormField, Option.bind_eq_bind, Option.bind_eq_some_iff, Option.some.injEq] at h
  obtain ⟨type, -, name, -, rfl⟩ := h
  rw [hnormalize]
  constructor <;> rfl

theorem normalizeField_type (field : FormField) : (normalizeField field).type = field.type := by
  obtain ⟨sensitive, h⟩ := normalizeField_eq field
  rw [h]

section Field

variable {rt : JsRuntime} {field : Json} {formField : FormField} {index : Nat}
  {context : FormSchemaIssueContext}

/-- The constraints on a text field's default are those on its values. -/
theorem AcceptedField.textConstraints (h : AcceptedField rt field formField index context)
    (htype : formField.type = .input ∨ formField.type = .textarea ∨ formField.type = .password) :
    (validateConstraints rt field formField.type index context).1.minLength =
        asFiniteNumber (prop field "minLength") ∧
      (validateConstraints rt field formField.type index context).1.maxLength =
        asFiniteNumber (prop field "maxLength") ∧
      (validateConstraints rt field formField.type index context).1.pattern.map some =
        (asString (prop field "pattern")).map rt.regExp := by
  have hconstraints := h.constraints
  have hknown := h.known
  obtain htype | htype | htype := htype
  · rw [htype] at hconstraints ⊢
    simp only [validateConstraints, validateLengthConstraints, List.append_eq_nil_iff]
      at hconstraints ⊢
    exact ⟨readOptionalNumber_accepted hconstraints.1.1.1,
      readOptionalNumber_accepted hconstraints.1.1.2,
      validatePatternConstraint_accepted hconstraints.2⟩
  · rw [htype] at hconstraints hknown ⊢
    simp only [validateConstraints, validateLengthConstraints, List.append_eq_nil_iff]
      at hconstraints ⊢
    have hpattern : prop field "pattern" = none := prop_eq_none_of_known hknown (by decide)
    refine ⟨readOptionalNumber_accepted hconstraints.1.1,
      readOptionalNumber_accepted hconstraints.1.2, ?_⟩
    rw [hpattern]
    rfl
  · -- a password has no constraints, and its object has none of the properties
    rw [htype] at hknown ⊢
    have hmin : prop field "minLength" = none := prop_eq_none_of_known hknown (by decide)
    have hmax : prop field "maxLength" = none := prop_eq_none_of_known hknown (by decide)
    have hpattern : prop field "pattern" = none := prop_eq_none_of_known hknown (by decide)
    rw [hmin, hmax, hpattern]
    exact ⟨rfl, rfl, rfl⟩

theorem AcceptedField.numberConstraints (h : AcceptedField rt field formField index context)
    (htype : formField.type = .number) :
    (validateConstraints rt field formField.type index context).1.min =
        asFiniteNumber (prop field "min") ∧
      (validateConstraints rt field formField.type index context).1.max =
        asFiniteNumber (prop field "max") := by
  have hconstraints := h.constraints
  rw [htype] at hconstraints ⊢
  simp only [validateConstraints, validateNumberConstraints, List.append_eq_nil_iff]
    at hconstraints ⊢
  exact ⟨readOptionalNumber_accepted hconstraints.1.1.1,
    readOptionalNumber_accepted hconstraints.1.1.2⟩

theorem AcceptedField.optionConstraints (h : AcceptedField rt field formField index context)
    (htype : formField.type = .select ∨ formField.type = .radio ∨ formField.type = .checkbox) :
    (validateConstraints rt field formField.type index context).1.optionValues =
      some ((asArray (prop field "options")).filterMap (fun option =>
        asOptionValue (prop option "value"))) := by
  have hconstraints := h.constraints
  obtain htype | htype | htype := htype <;>
  · rw [htype] at hconstraints ⊢
    exact validateOptions_accepted hconstraints

theorem AcceptedField.text_default (h : AcceptedField rt field formField index context)
    (htype : formField.type = .input ∨ formField.type = .textarea ∨ formField.type = .password)
    {d : Json} (hd : prop field "defaultValue" = some d) :
    ∃ v, validateFieldValue rt (normalizeField formField) d = .ok v := by
  have hreads := readsField_normalize h.read
  have hfieldType := normalizeField_type formField
  obtain ⟨hmin, hmax, hpattern⟩ := h.textConstraints htype
  have hdefault := h.defaultValue
  rw [← hreads.minLength] at hmin
  rw [← hreads.maxLength] at hmax
  rw [← hreads.pattern] at hpattern
  obtain ⟨s, rfl, hs⟩ : ∃ s, d = .string s ∧ validateStringDefaultAgainstConstraints rt s index
      (context.withProperty (ofString "defaultValue"))
      (validateConstraints rt field formField.type index context).1 = [] := by
    unfold validateDefaultValue at hdefault
    obtain htype | htype | htype := htype <;>
    · simp only [hd, htype] at hdefault ⊢
      cases d with
      | string s => exact ⟨s, rfl, hdefault⟩
      | _ => exact absurd hdefault (List.cons_ne_nil _ _)
  have hvalue := textValue_of_default hmin hmax hpattern hs
  unfold validateFieldValue
  obtain htype | htype | htype := htype <;>
  · rw [hfieldType, htype]
    exact hvalue

theorem AcceptedField.number_default_iff (h : AcceptedField rt field formField index context)
    (htype : formField.type = .number) {d : Json} (hd : prop field "defaultValue" = some d) :
    (∃ v, validateFieldValue rt (normalizeField formField) d = .ok v) ↔
      (normalizeField formField).DefaultOnStep := by
  have hreads := readsField_normalize h.read
  have hfieldType := (normalizeField_type formField).trans htype
  obtain ⟨hmin, hmax⟩ := h.numberConstraints htype
  have hdefault := h.defaultValue
  unfold validateDefaultValue at hdefault
  rw [hd, htype] at hdefault
  dsimp only at hdefault
  cases hnumber : asFiniteNumber (some d) with
  | none => simp [hnumber] at hdefault
  | some q =>
      obtain rfl : d = .number (.finite q) := by
        unfold asFiniteNumber at hnumber
        split at hnumber
        · rename_i q' hq
          cases hnumber
          exact Option.some.inj hq
        · cases hnumber
      rw [htype] at hmin hmax
      rw [hnumber] at hdefault
      dsimp only at hdefault
      rw [validateDefaultNumber_accepted, hmin, hmax, ← hreads.min, ← hreads.max] at hdefault
      have hvalue : validateFieldValue rt (normalizeField formField) (.number (.finite q)) =
          validateNumberValue rt (normalizeField formField) (.number (.finite q)) := by
        unfold validateFieldValue
        rw [hfieldType]
      rw [hvalue, validateNumberValue_ok]
      constructor
      · rintro ⟨-, -, hstep⟩ q' step - hdefault' hsome
        rw [hreads.defaultValue, hd] at hdefault'
        cases hdefault'
        exact hstep step hsome
      · intro honStep
        exact ⟨hdefault.1, hdefault.2, fun step hsome =>
          honStep q step hfieldType (hreads.defaultValue.trans hd) hsome⟩

/-- A default item without issues is one of the options. -/
theorem assertDefaultValueInOptions_accepted {value : FormFieldOptionValue} {raw : Json}
    {path : List PathSegment} {constraints : FieldConstraints} {f : FormField}
    (hoptions : constraints.optionValues = some f.options)
    (h : assertDefaultValueInOptions value raw path context constraints = []) :
    isAllowedOption f value = true := by
  rw [assertDefaultValueInOptions, hoptions] at h
  dsimp only at h
  split at h
  · assumption
  · exact absurd h (List.cons_ne_nil _ _)

theorem AcceptedField.option_default (h : AcceptedField rt field formField index context)
    (htype : formField.type = .select ∨ formField.type = .radio) {d : Json}
    (hd : prop field "defaultValue" = some d) :
    ∃ v, validateFieldValue rt (normalizeField formField) d = .ok v := by
  have hreads := readsField_normalize h.read
  have hfieldType := normalizeField_type formField
  have hoptions := h.optionConstraints (htype.elim .inl (fun hradio => .inr (.inl hradio)))
  rw [← hreads.options] at hoptions
  have hdefault := h.defaultValue
  obtain ⟨value, hvalue, hallowed⟩ : ∃ value, asOptionValue (some d) = some value ∧
      isAllowedOption (normalizeField formField) value = true := by
    unfold validateDefaultValue at hdefault
    cases hvalue : asOptionValue (some d) with
    | none => obtain htype | htype := htype <;> simp [hd, htype, hvalue] at hdefault
    | some value =>
        have hissues : assertDefaultValueInOptions value d
            [.index index, .name (ofString "defaultValue")]
            (context.withProperty (ofString "defaultValue"))
            (validateConstraints rt field formField.type index context).1 = [] := by
          obtain htype | htype := htype <;> simpa only [hd, htype, hvalue] using hdefault
        exact ⟨value, rfl, assertDefaultValueInOptions_accepted hoptions hissues⟩
  have hok : validateOptionValue (normalizeField formField) d = .ok d := by
    rw [validateOptionValue, hvalue]
    exact if_pos hallowed
  refine ⟨d, ?_⟩
  unfold validateFieldValue
  obtain htype | htype := htype <;>
  · rw [hfieldType, htype]
    exact hok

theorem AcceptedField.checkbox_default_iff (h : AcceptedField rt field formField index context)
    (htype : formField.type = .checkbox) {d : Json} (hd : prop field "defaultValue" = some d) :
    (∃ v, validateFieldValue rt (normalizeField formField) d = .ok v) ↔
      (normalizeField formField).DefaultDistinct := by
  have hreads := readsField_normalize h.read
  have hfieldType := (normalizeField_type formField).trans htype
  have hoptions := h.optionConstraints (.inr (.inr htype))
  rw [← hreads.options] at hoptions
  have hdefault := h.defaultValue
  unfold validateDefaultValue at hdefault
  rw [hd] at hdefault
  simp only [htype] at hdefault
  cases d with
  | array items =>
      have hallowed : ∀ item ∈ items, ∃ v, asOptionValue (some item) = some v ∧
          isAllowedOption (normalizeField formField) v = true := by
        intro item hitem
        obtain ⟨i, hi⟩ := List.mem_iff_getElem?.mp hitem
        have hissues := List.flatMap_eq_nil_iff.mp hdefault (item, i)
          (List.mem_zipIdx_iff_getElem?.mpr hi)
        rw [validateDefaultItem] at hissues
        dsimp only at hissues
        cases hvalue : asOptionValue (some item) with
        | none => simp [hvalue] at hissues
        | some v =>
            rw [hvalue] at hissues
            rw [htype] at hoptions
            exact ⟨v, rfl, assertDefaultValueInOptions_accepted hoptions hissues⟩
      have hvalue : validateFieldValue rt (normalizeField formField) (.array items) =
          checkedValue (.array items)
            (validateCheckboxItems (normalizeField formField) (.array items) 0 [] items) := by
        unfold validateFieldValue
        rw [hfieldType]
        rfl
      rw [hvalue, checkedValue_eq_ok, validateCheckboxItems_eq_nil hallowed]
      constructor
      · rintro ⟨hnodup, -⟩ items' - hitems
        rw [hreads.defaultValue, hd] at hitems
        cases hitems
        exact hnodup
      · intro hdistinct
        exact ⟨hdistinct items hfieldType (hreads.defaultValue.trans hd),
          fun item _ v _ => List.not_mem_nil⟩
  | _ => exact absurd hdefault (List.cons_ne_nil _ _)

/-- The default of an accepted field is a value of the field unless it is off the step or selects
an option twice. -/
theorem AcceptedField.default_iff (h : AcceptedField rt field formField index context) {d : Json}
    (hd : prop field "defaultValue" = some d) :
    (∃ v, validateFieldValue rt (normalizeField formField) d = .ok v) ↔
      (normalizeField formField).DefaultOnStep ∧ (normalizeField formField).DefaultDistinct := by
  have hfieldType := normalizeField_type formField
  have honStep : formField.type ≠ .number → (normalizeField formField).DefaultOnStep :=
    fun hne _ _ heq => absurd (hfieldType.symm.trans heq) hne
  have hdistinct : formField.type ≠ .checkbox → (normalizeField formField).DefaultDistinct :=
    fun hne _ heq => absurd (hfieldType.symm.trans heq) hne
  have hdefault := h.defaultValue
  cases htype : formField.type with
  | number => simp [h.number_default_iff htype hd, hdistinct (by simp [htype])]
  | checkbox => simp [h.checkbox_default_iff htype hd, honStep (by simp [htype])]
  | input | textarea | password =>
      simp [h.text_default (by simp [htype]) hd, honStep (by simp [htype]),
        hdistinct (by simp [htype])]
  | select | radio =>
      simp [h.option_default (by simp [htype]) hd, honStep (by simp [htype]),
        hdistinct (by simp [htype])]
  | switch =>
      unfold validateDefaultValue at hdefault
      simp only [hd, htype] at hdefault
      unfold validateFieldValue
      rw [hfieldType, htype]
      cases d with
      | bool b => simp [honStep (by simp [htype]), hdistinct (by simp [htype])]
      | _ => exact absurd hdefault (List.cons_ne_nil _ _)
  | date =>
      unfold validateDefaultValue at hdefault
      simp only [hd, htype] at hdefault
      unfold validateFieldValue
      rw [hfieldType, htype]
      cases d with
      | string s =>
          dsimp only at hdefault ⊢
          split at hdefault
          · rename_i hdate
            simp [hdate, honStep (by simp [htype]), hdistinct (by simp [htype])]
          · exact absurd hdefault (List.cons_ne_nil _ _)
      | _ => exact absurd hdefault (List.cons_ne_nil _ _)
  | file =>
      unfold validateDefaultValue at hdefault
      simp [hd, htype] at hdefault

end Field

/-! The empty configuration -/

/-- An issue with a required field that has no default. -/
def FormSchema.MissingRequired (schema : FormSchema) (issue : FormConfigIssue) : Prop :=
  ∃ leaf ∈ listFormFields schema, leaf.field.required = true ∧ leaf.field.defaultValue = none ∧
    issue.code = .fieldRequired ∧ issue.path = leaf.path.map .name

/-- Every default is a value of its field, and the empty configuration lacks nothing but required
fields without a default. -/
def FormSchema.DefaultsUsable (rt : JsRuntime) (schema : FormSchema) : Prop :=
  (∀ leaf ∈ listFormFields schema, ∀ d, leaf.field.defaultValue = some d → d ≠ .null →
    ∃ v, validateFieldValue rt leaf.field d = .ok v) ∧
  ∀ issue ∈ (evaluateConfig rt schema (.object [])).issues, schema.MissingRequired issue

/-- What the step of the loop adds for a field of the empty configuration, when the defaults are
values of their fields. -/
theorem evaluateField_empty {rt : JsRuntime} {f : FormField} {evaluation : Evaluation}
    (hnull : f.defaultValue ≠ some .null)
    (hdefault : ∀ d, f.defaultValue = some d → ∃ v, validateFieldValue rt f d = .ok v)
    {issue : FormConfigIssue}
    (h : issue ∈ (evaluateField rt (.object []) evaluation f).issues) :
    issue ∈ evaluation.issues ∨ f.required = true ∧ f.defaultValue = none ∧
      issue.code = .fieldRequired ∧ issue.path = [.name f.name] := by
  have hcandidate : candidateOf f (.object []) = f.defaultValue := by
    unfold candidateOf
    split <;> rfl
  rw [evaluateField, hcandidate] at h
  cases hd : f.defaultValue with
  | none =>
      rw [hd] at h
      dsimp only at h
      split at h
      · rename_i hrequired
        rw [List.mem_append, List.mem_singleton] at h
        exact h.imp id fun hissue => by simp [hissue, hrequired, requiredIssue]
      · exact .inl h
  | some d =>
      obtain ⟨v, hv⟩ := hdefault d hd
      rw [hd] at h
      cases d with
      | null => exact absurd hd hnull
      | _ =>
          simp only [hv] at h
          exact .inl h

theorem evaluateLeafConfig_empty {rt : JsRuntime} {fields : List FormField}
    (hnull : ∀ f ∈ fields, f.defaultValue ≠ some .null)
    (hdefault : ∀ f ∈ fields, ∀ d, f.defaultValue = some d →
      ∃ v, validateFieldValue rt f d = .ok v) {issue : FormConfigIssue}
    (h : issue ∈ (evaluateLeafConfig rt fields (.object [])).issues) :
    ∃ f ∈ fields, f.required = true ∧ f.defaultValue = none ∧
      issue.code = .fieldRequired ∧ issue.path = [.name f.name] := by
  have hfold : ∀ evaluation : Evaluation,
      issue ∈ (fields.foldl (evaluateField rt (.object [])) evaluation).issues →
      issue ∈ evaluation.issues ∨ ∃ f ∈ fields, f.required = true ∧ f.defaultValue = none ∧
        issue.code = .fieldRequired ∧ issue.path = [.name f.name] := by
    clear h
    induction fields with
    | nil => exact fun _ hissue => .inl hissue
    | cons f fields ih =>
        rw [List.forall_mem_cons] at hnull hdefault
        intro evaluation hissue
        obtain hhead | ⟨g, hg, hmissing⟩ := ih hnull.2 hdefault.2 _ hissue
        · obtain hbefore | hmissing := evaluateField_empty hnull.1 hdefault.1 hhead
          · exact .inl hbefore
          · exact .inr ⟨f, List.mem_cons_self, hmissing⟩
        · exact .inr ⟨g, List.mem_cons_of_mem _ hg, hmissing⟩
  obtain hnil | hmissing := hfold ⟨[], []⟩ h
  · exact absurd hnil List.not_mem_nil
  · exact hmissing

theorem evaluateTabs_empty {rt : JsRuntime} {nodes : List TabFormNode}
    (hnull : ∀ node ∈ nodes, ∀ f ∈ node.children, f.defaultValue ≠ some .null)
    (hdefault : ∀ node ∈ nodes, ∀ f ∈ node.children, ∀ d, f.defaultValue = some d →
      ∃ v, validateFieldValue rt f d = .ok v) {issue : FormConfigIssue}
    (h : issue ∈ (evaluateConfig rt (.tabs nodes) (.object [])).issues) :
    ∃ node ∈ nodes, ∃ f ∈ node.children, f.required = true ∧ f.defaultValue = none ∧
      issue.code = .fieldRequired ∧ issue.path = [.name node.name, .name f.name] := by
  have hfold : ∀ evaluation : Evaluation,
      issue ∈ (nodes.foldl (evaluateTab rt (.object [])) evaluation).issues →
      issue ∈ evaluation.issues ∨
        ∃ node ∈ nodes, ∃ f ∈ node.children, f.required = true ∧ f.defaultValue = none ∧
          issue.code = .fieldRequired ∧ issue.path = [.name node.name, .name f.name] := by
    clear h
    induction nodes with
    | nil => exact fun _ hissue => .inl hissue
    | cons node nodes ih =>
        rw [List.forall_mem_cons] at hnull hdefault
        intro evaluation hissue
        obtain hhead | ⟨other, hother, hmissing⟩ := ih hnull.2 hdefault.2 _ hissue
        · obtain hbefore | hchild := List.mem_append.mp hhead
          · exact .inl hbefore
          · obtain ⟨child, hmem, rfl⟩ := List.mem_map.mp hchild
            obtain ⟨f, hf, hrequired, hnone, hcode, hpath⟩ :=
              evaluateLeafConfig_empty hnull.1 hdefault.1 hmem
            refine .inr ⟨node, List.mem_cons_self, f, hf, hrequired, hnone, hcode, ?_⟩
            rw [prefixIssue, hpath]
        · exact .inr ⟨other, List.mem_cons_of_mem _ hother, hmissing⟩
  obtain hnil | hmissing := hfold ⟨[], []⟩ h
  · exact absurd hnil List.not_mem_nil
  · exact hmissing

theorem AcceptedField.defaultValue_ne_null {rt : JsRuntime} {field : Json} {formField : FormField}
    {index : Nat} {context : FormSchemaIssueContext}
    (h : AcceptedField rt field formField index context) :
    (normalizeField formField).defaultValue ≠ some .null := by
  have hdefault := h.defaultValue
  rw [(readsField_normalize h.read).defaultValue]
  intro hnull
  unfold validateDefaultValue at hdefault
  rw [hnull] at hdefault
  cases htype : formField.type <;> simp [htype, asFiniteNumber, asOptionValue] at hdefault

/-- So the defaults of an accepted template are usable exactly when every number starts on its
step and no checkbox starts with an option selected twice. -/
theorem defaultsUsable_iff {rt : JsRuntime} {input : Json} {schema : FormSchema}
    (h : validateFormSchema rt input = .ok schema) :
    schema.DefaultsUsable rt ↔
      ∀ leaf ∈ listFormFields schema, leaf.field.DefaultOnStep ∧ leaf.field.DefaultDistinct := by
  have haccepted := accepted_of_validateFormSchema h
  have hnull : ∀ leaf ∈ listFormFields schema, leaf.field.defaultValue ≠ some .null := by
    intro leaf hleaf
    obtain ⟨field, formField, index, context, hfield, hformField⟩ := haccepted.field hleaf
    rw [hformField]
    exact hfield.defaultValue_ne_null
  have hdefault : ∀ leaf ∈ listFormFields schema, ∀ d, leaf.field.defaultValue = some d →
      ((∃ v, validateFieldValue rt leaf.field d = .ok v) ↔
        leaf.field.DefaultOnStep ∧ leaf.field.DefaultDistinct) := by
    intro leaf hleaf d hd
    obtain ⟨field, formField, index, context, hfield, hformField⟩ := haccepted.field hleaf
    rw [hformField] at hd ⊢
    exact hfield.default_iff ((readsField_normalize hfield.read).defaultValue.symm.trans hd)
  constructor
  · rintro ⟨husable, -⟩ leaf hleaf
    cases hd : leaf.field.defaultValue with
    | none =>
        constructor
        · intro q step _ hsome
          rw [hd] at hsome
          cases hsome
        · intro items _ hsome
          rw [hd] at hsome
          cases hsome
    | some d =>
        refine (hdefault leaf hleaf d hd).mp (husable leaf hleaf d hd ?_)
        rintro rfl
        exact hnull leaf hleaf hd
  · intro hcondition
    have husable : ∀ leaf ∈ listFormFields schema, ∀ d, leaf.field.defaultValue = some d →
        ∃ v, validateFieldValue rt leaf.field d = .ok v := fun leaf hleaf d hd =>
      (hdefault leaf hleaf d hd).mpr (hcondition leaf hleaf)
    refine ⟨fun leaf hleaf d hd _ => husable leaf hleaf d hd, fun issue hissue => ?_⟩
    cases schema with
    | flat fields =>
        have hleaf : ∀ f ∈ fields, (⟨f, [f.name]⟩ : FormFieldPath) ∈ listFormFields (.flat fields) :=
          fun f hf => List.mem_map_of_mem hf
        obtain ⟨f, hf, hrequired, hnone, hcode, hpath⟩ := evaluateLeafConfig_empty
          (fun f hf => hnull _ (hleaf f hf)) (fun f hf => husable _ (hleaf f hf)) hissue
        exact ⟨_, hleaf f hf, hrequired, hnone, hcode, hpath⟩
    | tabs nodes =>
        have hleaf : ∀ node ∈ nodes, ∀ f ∈ node.children,
            (⟨f, [node.name, f.name]⟩ : FormFieldPath) ∈ listFormFields (.tabs nodes) :=
          fun node hnode f hf =>
            List.mem_flatMap.mpr ⟨node, hnode, List.mem_map_of_mem hf⟩
        obtain ⟨node, hnode, f, hf, hrequired, hnone, hcode, hpath⟩ := evaluateTabs_empty
          (fun node hnode f hf => hnull _ (hleaf node hnode f hf))
          (fun node hnode f hf => husable _ (hleaf node hnode f hf)) hissue
        exact ⟨_, hleaf node hnode f hf, hrequired, hnone, hcode, hpath⟩

/-- A library that the template below does not call. -/
def noLibrary : JsRuntime where
  regExp := fun _ => none
  toLowerCase := id
  numberToString := fun _ => []

/-- The text of a template with one number, which starts between two steps. -/
def stepTemplate : Json :=
  .array [.object [
    (ofString "type", .string (ofString "number")),
    (ofString "name", .string (ofString "workers")),
    (ofString "label", .string (ofString "Workers")),
    (ofString "step", .number (.finite 2)),
    (ofString "defaultValue", .number (.finite 3))]]

def stepField : FormField where
  type := .number
  name := ofString "workers"
  defaultValue := some (.number (.finite 3))
  required := false
  disabled := false
  sensitive := none
  minLength := none
  maxLength := none
  min := none
  max := none
  step := some 2
  pattern := none
  options := []
  allowedExtensions := []
  fileNamePattern := none
  maxSizeBytes := none

/-- The result at that template. -/
theorem defaultsUsable_stepTemplate :
    (FormSchema.flat [stepField]).DefaultsUsable noLibrary ↔
      ∀ leaf ∈ listFormFields (.flat [stepField]),
        leaf.field.DefaultOnStep ∧ leaf.field.DefaultDistinct :=
  defaultsUsable_iff (show validateFormSchema noLibrary stepTemplate = _ from rfl)

/-- The template is accepted, and its default is no value of its field. -/
theorem stepTemplate_not_usable :
    validateFormSchema noLibrary stepTemplate = .ok (.flat [stepField]) ∧
      ¬ (FormSchema.flat [stepField]).DefaultsUsable noLibrary := by
  refine ⟨rfl, fun husable => ?_⟩
  obtain ⟨v, hv⟩ := husable.1 ⟨stepField, [stepField.name]⟩ List.mem_cons_self
    (.number (.finite 3)) rfl Json.noConfusion
  have hnumber : ∀ value, validateFieldValue noLibrary stepField value =
      validateNumberValue noLibrary stepField value := fun _ => rfl
  rw [hnumber] at hv
  have hstep := (validateNumberValue_ok.mp ⟨v, hv⟩).2.2 2 rfl
  have hsub : JsNumber.sub (.finite 3) (.finite 0) = .finite 3 := by decide +kernel
  have hquotient : JsNumber.div (.finite 3) (.finite 2) = .finite (3 / 2) := by decide +kernel
  have hround : JsNumber.round (.finite (3 / 2)) = .finite 2 := by decide +kernel
  have hfraction : JsNumber.abs (JsNumber.sub (.finite (3 / 2)) (.finite 2)) = .finite (1 / 2) := by
    decide +kernel
  have hlarge : JsNumber.lt (JsNumber.ofDecimal false 1 (-9)) (.finite (1 / 2)) = true := by
    decide +kernel
  have hoff : matchesStep 3 0 2 = false := by
    simp only [matchesStep, hsub, hquotient, hround, hfraction, hlarge, Bool.not_true]
  exact absurd (hoff.symm.trans hstep) Bool.false_ne_true

end AnvilRun.Form
