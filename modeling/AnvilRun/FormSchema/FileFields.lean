import AnvilRun.FormSchema.Idempotence

namespace AnvilRun.Form

open AnvilRun.ValidationPrimitives
open JsString

/-! Reading and writing along a path -/

/-- The value of own properties along a path. -/
def ownValueAt : Json → List JsString → Option Json
  | value, [] => some value
  | value, key :: path => (value.member? key).bind (fun child => ownValueAt child path)

/-- What reading a property of a parsed document finds: a value of the document, a function of
`Object.prototype`, or that object itself. -/
inductive Found where
  | json (value : Json)
  | function
  | objectPrototype

def objectPrototypeFunctions : List JsString :=
  ["constructor", "__defineGetter__", "__defineSetter__", "hasOwnProperty", "__lookupGetter__",
    "__lookupSetter__", "isPrototypeOf", "propertyIsEnumerable", "toString", "valueOf",
    "toLocaleString"].map ofString

/-- What an object without an own property inherits. -/
def inheritedProperty (key : JsString) : Option Found :=
  if key = Objects.protoKey then some .objectPrototype
  else if objectPrototypeFunctions.contains key then some .function
  else none

/-- Reading a property of an object that is no array; other values have none here. -/
def Found.property (key : JsString) : Found → Option Found
  | .json (.object members) =>
      match Json.member? key (.object members) with
      | some value => some (.json value)
      | none => inheritedProperty key
  | .objectPrototype =>
      if key = Objects.protoKey then some (.json .null)
      else if objectPrototypeFunctions.contains key then some .function
      else none
  | _ => none

/-- `valueAtPath`. -/
def valueAtPath : Found → List JsString → Option Found
  | current, [] => some current
  | current, segment :: path =>
      (current.property segment).bind (fun child => valueAtPath child path)

/-- `current[leaf] = value`. Without an own property `__proto__` only changes the prototype. -/
def assignMember (members : List (JsString × Json)) (key : JsString) (value : Json) :
    List (JsString × Json) :=
  if members.any (fun m => m.1 = key) then
    members.map (fun m => if m.1 = key then (key, value) else m)
  else if key = Objects.protoKey then members
  else members ++ [(key, value)]

/-- `setValueAtPath`, along objects of the document. -/
def setValueAtPath : Json → List JsString → Json → Json
  | .object members, [leaf], value => .object (assignMember members leaf value)
  | .object members, segment :: path, value =>
      match Json.member? segment (.object members) with
      | some (.object children) =>
          .object (assignMember members segment (setValueAtPath (.object children) path value))
      | _ => .object members
  | root, _, _ => root

/-- The name that a path has in `fieldName` of a file. -/
def joinPath (path : List JsString) : JsString :=
  (path.intersperse (ofString "/")).flatten

theorem valueAtPath_of_ownValueAt {root value : Json} {path : List JsString}
    (h : ownValueAt root path = some value) :
    valueAtPath (.json root) path = some (.json value) := by
  induction path generalizing root with
  | nil =>
      cases h
      rfl
  | cons key path ih =>
      obtain ⟨child, hchild, hrest⟩ := Option.bind_eq_some_iff.mp h
      cases root with
      | object members =>
          rw [valueAtPath, Found.property, hchild]
          exact ih hrest
      | _ => cases hchild

theorem member?_eq_none_of_any {members : List (JsString × Json)} {key : JsString}
    (h : members.any (fun m => m.1 = key) = false) :
    Json.member? key (.object members) = none := by
  rw [Json.member?, Option.map_eq_none_iff, List.find?_eq_none]
  intro m hm
  rw [List.any_eq_false] at h
  exact h m (List.mem_reverse.mp hm)

theorem member?_replace {members : List (JsString × Json)} {key other : JsString} {value : Json} :
    Json.member? other
        (.object (members.map (fun m => if m.1 = key then (key, value) else m))) =
      if other = key then (Json.member? other (.object members)).map (fun _ => value)
      else Json.member? other (.object members) := by
  rw [Json.member?, Json.member?, ← List.map_reverse]
  induction members.reverse with
  | nil => simp
  | cons m rest ih =>
      rw [List.map_cons]
      by_cases hm : m.1 = other
      · by_cases hkey : other = key
        · simp [hm, hkey]
        · simp [hm, hkey]
      · have hne : ¬ (if m.1 = key then (key, value) else m).1 = other := by
          by_cases hkey : m.1 = key
          · rw [if_pos hkey]
            exact fun h => hm (hkey.trans h)
          · rw [if_neg hkey]
            exact hm
        rw [List.find?_cons_of_neg (by simpa using hne), List.find?_cons_of_neg (by simpa using hm)]
        exact ih

theorem any_of_member? {members : List (JsString × Json)} {key : JsString} {value : Json}
    (h : Json.member? key (.object members) = some value) :
    members.any (fun m => m.1 = key) = true := by
  cases hany : members.any (fun m => m.1 = key) with
  | true => rfl
  | false =>
      rw [member?_eq_none_of_any hany] at h
      cases h

theorem member?_assignMember_of_ne {members : List (JsString × Json)} {key other : JsString}
    {value : Json} (hne : other ≠ key) :
    Json.member? other (.object (assignMember members key value)) =
      Json.member? other (.object members) := by
  unfold assignMember
  split
  · rw [member?_replace, if_neg hne]
  · split
    · rfl
    · rw [Json.member?, Json.member?, List.reverse_append, List.reverse_singleton,
        List.singleton_append, List.find?_cons_of_neg (by simpa using Ne.symm hne)]

/-- An own property has the value that was assigned to it. -/
theorem member?_assignMember {members : List (JsString × Json)} {key : JsString} {value old : Json}
    (h : Json.member? key (.object members) = some old) :
    Json.member? key (.object (assignMember members key value)) = some value := by
  rw [assignMember, if_pos (any_of_member? h), member?_replace, if_pos rfl, h, Option.map_some]

theorem eq_of_member?_assignMember {members : List (JsString × Json)} {key : JsString}
    {value found : Json}
    (h : Json.member? key (.object (assignMember members key value)) = some found) :
    found = value := by
  cases hold : Json.member? key (.object members) with
  | some old =>
      rw [member?_assignMember hold] at h
      exact (Option.some.inj h).symm
  | none =>
      unfold assignMember at h
      split at h
      · rw [member?_replace, if_pos rfl, hold] at h
        cases h
      · split at h
        · rw [hold] at h
          cases h
        · rw [Json.member?, List.reverse_append, List.reverse_singleton, List.singleton_append,
            List.find?_cons_of_pos (by simp)] at h
          exact (Option.some.inj h).symm

/-- A value that stands where a value was written is that value. -/
theorem ownValueAt_setValueAtPath {root value found : Json} {path : List JsString}
    (hpath : path ≠ []) (h : ownValueAt (setValueAtPath root path value) path = some found) :
    found = value := by
  induction path generalizing root with
  | nil => exact absurd rfl hpath
  | cons segment path ih =>
      obtain ⟨child, hchild, hrest⟩ := Option.bind_eq_some_iff.mp h
      cases root with
      | object members =>
          cases path with
          | nil =>
              obtain rfl := Option.some.inj hrest
              exact eq_of_member?_assignMember hchild
          | cons next path =>
              rw [setValueAtPath.eq_def] at hchild
              dsimp only at hchild
              split at hchild
              · obtain rfl := eq_of_member?_assignMember hchild
                exact ih (List.cons_ne_nil _ _) hrest
              · rename_i hnone
                obtain ⟨grandchild, hgrandchild, -⟩ := Option.bind_eq_some_iff.mp hrest
                cases child with
                | object children => exact absurd hchild (hnone children)
                | _ => cases hgrandchild
      | _ => cases hchild

/-- Writing leaves what stands on another path of the same length. -/
theorem ownValueAt_setValueAtPath_of_ne {root value : Json} {path other : List JsString}
    (hne : other ≠ path) (hlength : other.length = path.length) :
    ownValueAt (setValueAtPath root path value) other = ownValueAt root other := by
  induction path generalizing root other with
  | nil => exact absurd (List.length_eq_zero_iff.mp hlength) hne
  | cons segment path ih =>
      cases other with
      | nil => cases hlength
      | cons first other =>
          have hlength' : other.length = path.length := Nat.succ.inj hlength
          cases root with
          | object members =>
              cases path with
              | nil =>
                  obtain rfl := List.length_eq_zero_iff.mp hlength'
                  have hfirst : first ≠ segment := fun h => hne (h ▸ rfl)
                  rw [setValueAtPath, ownValueAt, ownValueAt, member?_assignMember_of_ne hfirst]
              | cons next path =>
                  rw [setValueAtPath.eq_def]
                  dsimp only
                  split
                  · rename_i children hchild
                    by_cases hfirst : first = segment
                    · subst hfirst
                      have hrest : other ≠ next :: path := fun h => hne (h ▸ rfl)
                      rw [ownValueAt, ownValueAt, member?_assignMember hchild, hchild]
                      exact ih hrest hlength'
                    · rw [ownValueAt, ownValueAt, member?_assignMember_of_ne hfirst]
                  · rfl
          | _ => rfl

/-! The paths of the fields -/

theorem listFormFields_path_ne_nil {schema : FormSchema} {leaf : FormFieldPath}
    (hleaf : leaf ∈ listFormFields schema) : leaf.path ≠ [] := by
  cases schema with
  | flat fields =>
      obtain ⟨field, -, rfl⟩ := List.mem_map.mp hleaf
      exact List.cons_ne_nil _ _
  | tabs nodes =>
      obtain ⟨node, -, hmem⟩ := List.mem_flatMap.mp hleaf
      obtain ⟨field, -, rfl⟩ := List.mem_map.mp hmem
      exact List.cons_ne_nil _ _

theorem listFormFields_path_length {schema : FormSchema} {leaf other : FormFieldPath}
    (hleaf : leaf ∈ listFormFields schema) (hother : other ∈ listFormFields schema) :
    leaf.path.length = other.path.length := by
  cases schema with
  | flat fields =>
      obtain ⟨field, -, rfl⟩ := List.mem_map.mp hleaf
      obtain ⟨otherField, -, rfl⟩ := List.mem_map.mp hother
      rfl
  | tabs nodes =>
      obtain ⟨node, -, hmem⟩ := List.mem_flatMap.mp hleaf
      obtain ⟨field, -, rfl⟩ := List.mem_map.mp hmem
      obtain ⟨otherNode, -, hotherMem⟩ := List.mem_flatMap.mp hother
      obtain ⟨otherField, -, rfl⟩ := List.mem_map.mp hotherMem
      rfl

/-- Fields of an accepted template have different paths. -/
theorem listFormFields_paths_nodup {rt : JsRuntime} {schema : FormSchema}
    (h : schema.Accepted rt) : ((listFormFields schema).map FormFieldPath.path).Nodup := by
  have hfields : ∀ {fields : List FormField} (path : JsString → List JsString),
      Function.Injective path → (fields.map FormField.name).Nodup →
        (fields.map (fun field => path field.name)).Nodup := by
    intro fields path hpath hnodup
    have hmap := hnodup.map hpath
    rwa [List.map_map] at hmap
  cases schema with
  | flat fields =>
      rw [listFormFields, List.map_map]
      exact hfields (fun name => [name]) (fun _ _ hname => by simpa using hname) h.nodup
  | tabs nodes =>
      obtain ⟨hnodes, hnames⟩ := h
      rw [listFormFields, List.map_flatMap]
      have hpairwise : nodes.Pairwise (fun node other => node.name ≠ other.name) :=
        List.pairwise_map.mp hnames
      refine List.nodup_flatMap.mpr ⟨fun node hnode => ?_, hpairwise.imp fun {node other} hne => ?_⟩
      · rw [List.map_map]
        exact hfields (fun name => [node.name, name]) (fun _ _ hname => by simpa using hname)
          (hnodes node hnode).nodup
      · intro path hpath hother
        simp only [List.map_map, List.mem_map, Function.comp_apply] at hpath hother
        obtain ⟨field, -, rfl⟩ := hpath
        obtain ⟨otherField, -, hsame⟩ := hother
        exact hne (List.cons.inj hsame).1.symm

/-! File fields of a configuration that was validated -/

theorem mem_of_member? {members : List (JsString × Json)} {key : JsString} {value : Json}
    (h : Json.member? key (.object members) = some value) : (key, value) ∈ members := by
  obtain ⟨m, hm, rfl⟩ := Option.map_eq_some_iff.mp h
  have hkey : m.1 = key := by simpa using List.find?_some hm
  exact hkey ▸ List.mem_reverse.mp (List.mem_of_find?_eq_some hm)

theorem mem_setMember {members : List (JsString × Json)} {key : JsString} {value : Json}
    {m : JsString × Json} (h : m ∈ setMember members key value) : m ∈ members ∨ m = (key, value) := by
  unfold setMember at h
  split at h
  · exact .inl h
  · split at h
    · obtain ⟨old, hold, rfl⟩ := List.mem_map.mp h
      split
      · exact .inr rfl
      · exact .inl hold
    · rw [List.mem_append, List.mem_singleton] at h
      exact h

section Evaluation

variable {rt : JsRuntime} {input : Json}

/-- A member of a result is what the input or a default says about a field. -/
def FromField (fields : List FormField) (input : Json) (m : JsString × Json) : Prop :=
  ∃ field ∈ fields, m.1 = field.name ∧ candidateOf field input = some m.2 ∧ m.2 ≠ .null

theorem mem_evaluateField {evaluation : Evaluation} {field : FormField} {m : JsString × Json}
    (h : m ∈ (evaluateField rt input evaluation field).value) :
    m ∈ evaluation.value ∨
      m.1 = field.name ∧ candidateOf field input = some m.2 ∧ m.2 ≠ .null := by
  unfold evaluateField at h
  split at h
  · split at h <;> exact .inl h
  · split at h <;> exact .inl h
  · rename_i candidate hnull hcandidate
    split at h
    · rename_i stored hstored
      obtain rfl := Objects.validateFieldValue_value hstored
      obtain hold | rfl := mem_setMember h
      · exact .inl hold
      · exact .inr ⟨rfl, hcandidate, hnull⟩
    · exact .inl h

theorem mem_evaluateLeafConfig {fields : List FormField} {m : JsString × Json}
    (h : m ∈ (evaluateLeafConfig rt fields input).value) : FromField fields input m := by
  have hfold : ∀ (rest : List FormField) (evaluation : Evaluation), (∀ f ∈ rest, f ∈ fields) →
      (∀ m ∈ evaluation.value, FromField fields input m) →
      ∀ m ∈ (rest.foldl (evaluateField rt input) evaluation).value, FromField fields input m := by
    intro rest
    induction rest with
    | nil => exact fun _ _ hall => hall
    | cons field rest ih =>
        intro evaluation hfields hall
        rw [List.forall_mem_cons] at hfields
        refine ih _ hfields.2 fun m hm => ?_
        obtain hold | hnew := mem_evaluateField hm
        · exact hall m hold
        · exact ⟨field, hfields.1, hnew⟩
  unfold evaluateLeafConfig at h
  split at h
  · exact absurd h List.not_mem_nil
  · exact hfold fields ⟨[], []⟩ (fun _ hf => hf) (fun _ hm => absurd hm List.not_mem_nil) m h

theorem mem_evaluateTabs {nodes : List TabFormNode} {m : JsString × Json}
    (h : m ∈ (evaluateConfig rt (.tabs nodes) input).value) :
    ∃ node ∈ nodes, m.1 = node.name ∧ m.2 = .object (evaluateLeafConfig rt node.children
      ((input.member? node.name).getD (.object []))).value := by
  have hfold : ∀ (rest : List TabFormNode) (evaluation : Evaluation),
      (m ∈ (rest.foldl (evaluateTab rt input) evaluation).value) → m ∈ evaluation.value ∨
        ∃ node ∈ rest, m.1 = node.name ∧ m.2 = .object (evaluateLeafConfig rt node.children
          ((input.member? node.name).getD (.object []))).value := by
    intro rest
    induction rest with
    | nil => exact fun _ hm => .inl hm
    | cons node rest ih =>
        intro evaluation hm
        obtain hold | ⟨other, hother, hsame⟩ := ih _ hm
        · obtain hold | rfl := mem_setMember hold
          · exact .inl hold
          · exact .inr ⟨node, List.mem_cons_self, rfl, rfl⟩
        · exact .inr ⟨other, List.mem_cons_of_mem _ hother, hsame⟩
  unfold evaluateConfig at h
  dsimp only at h
  split at h
  · exact absurd h List.not_mem_nil
  · obtain hnil | hnode := hfold nodes ⟨[], []⟩ h
    · exact absurd hnil List.not_mem_nil
    · exact hnode

/-- Only the input says something about a file field, which has no default. -/
theorem member?_of_candidateOf {field : FormField} {value : Json}
    (hdefault : field.defaultValue = none) (h : candidateOf field input = some value) :
    input.member? field.name = some value := by
  unfold candidateOf at h
  rw [hdefault, Option.or_none] at h
  split at h
  · cases h
  · exact h

end Evaluation

theorem FormSchema.Accepted.defaultValue_of_file {rt : JsRuntime} {schema : FormSchema}
    (h : schema.Accepted rt) {leaf : FormFieldPath} (hleaf : leaf ∈ listFormFields schema)
    (hfile : leaf.field.type = .file) : leaf.field.defaultValue = none := by
  obtain ⟨field, formField, index, context, haccepted, heq⟩ := h.field hleaf
  rw [heq] at hfile ⊢
  exact (Objects.soundDefault_of_accepted haccepted).file hfile

theorem evaluateLeafConfig_file {rt : JsRuntime} {fields : List FormField} {input value : Json}
    (hnodup : (fields.map FormField.name).Nodup) {field : FormField} (hfield : field ∈ fields)
    (hdefault : field.defaultValue = none)
    (h : Json.member? field.name (.object (evaluateLeafConfig rt fields input).value) =
      some value) :
    value ≠ .null ∧ input.member? field.name = some value := by
  obtain ⟨other, hother, hname, hcandidate, hnull⟩ := mem_evaluateLeafConfig (mem_of_member? h)
  obtain rfl : field = other := List.inj_on_of_nodup_map hnodup hfield hother hname
  exact ⟨hnull, member?_of_candidateOf hdefault hcandidate⟩

/-- What a validated configuration has at a file field stands there in the input. -/
theorem ownValueAt_of_validate {rt : JsRuntime} {schema : FormSchema} {input config value : Json}
    (hschema : schema.Accepted rt) (h : validateFormConfigValues rt schema input = .ok config)
    {leaf : FormFieldPath} (hleaf : leaf ∈ listFormFields schema)
    (hfile : leaf.field.type = .file) (hvalue : ownValueAt config leaf.path = some value) :
    value ≠ .null ∧ ownValueAt input leaf.path = some value := by
  have hdefault := hschema.defaultValue_of_file hleaf hfile
  obtain rfl : .object (evaluateConfig rt schema input).value = config := by
    unfold validateFormConfigValues at h
    split at h
    · rename_i members hmembers
      rw [hmembers]
      exact Except.ok.inj h
    · cases h
  cases schema with
  | flat fields =>
      obtain ⟨field, hfield, rfl⟩ := List.mem_map.mp hleaf
      obtain ⟨child, hchild, hrest⟩ := Option.bind_eq_some_iff.mp hvalue
      cases hrest
      obtain ⟨hnull, hinput⟩ := evaluateLeafConfig_file hschema.nodup hfield hdefault hchild
      exact ⟨hnull, by rw [ownValueAt, hinput]; rfl⟩
  | tabs nodes =>
      obtain ⟨node, hnode, hmem⟩ := List.mem_flatMap.mp hleaf
      obtain ⟨field, hfield, rfl⟩ := List.mem_map.mp hmem
      obtain ⟨tab, htab, hrest⟩ := Option.bind_eq_some_iff.mp hvalue
      obtain ⟨child, hchild, hlast⟩ := Option.bind_eq_some_iff.mp hrest
      cases hlast
      obtain ⟨other, hother, hname, rfl⟩ := mem_evaluateTabs (mem_of_member? htab)
      obtain rfl : node = other := List.inj_on_of_nodup_map hschema.2 hnode hother hname
      obtain ⟨hnull, hinput⟩ :=
        evaluateLeafConfig_file (hschema.1 node hnode).nodup hfield hdefault hchild
      refine ⟨hnull, ?_⟩
      cases htabInput : input.member? node.name with
      | none =>
          rw [htabInput] at hinput
          cases hinput
      | some tabInput =>
          rw [htabInput, Option.getD_some] at hinput
          simp only [ownValueAt, htabInput, Option.bind_some, hinput]

end AnvilRun.Form
