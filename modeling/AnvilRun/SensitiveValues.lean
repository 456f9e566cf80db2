import AnvilRun.AgentRedactor
import AnvilRun.FormSchema.Values
import AnvilRun.ServerRedactor

namespace AnvilRun.SensitiveValues

open AnvilRun.AgentRedactor
open AnvilRun.Form
open AnvilRun.Masking
open AnvilRun.ServerRedactor
open AnvilRun.ValidationPrimitives

/-- The members of an object by name, at the place of their first and with the value of their
last occurrence. -/
def ownMembers {α : Type} (members : List (JsString × α)) : List (JsString × α) :=
  members.foldl (fun own m =>
    if own.any (fun o => o.1 = m.1) then own.map (fun o => if o.1 = m.1 then m else o)
    else own ++ [m]) []

/-! The agent -/

/-- The order of UTF-8 texts. -/
def textLe : Text → Text → Bool
  | [], _ => true
  | _ :: _, [] => false
  | c :: s, d :: t => decide (c < d) || (c == d && textLe s t)

mutual

/-- A value that `serde_json` receives as `JSON.stringify` wrote it: without lone surrogates. -/
def isReceived : Json → Bool
  | .string s => s.toChars?.isSome
  | .array items => areReceived items
  | .object members => membersReceived members
  | _ => true

def areReceived : List Json → Bool
  | [] => true
  | item :: items => isReceived item && areReceived items

def membersReceived : List (JsString × Json) → Bool
  | [] => true
  | m :: members => m.1.toChars?.isSome && isReceived m.2 && membersReceived members

end

/-- The text that a received string is on the agent. -/
def receivedText (s : JsString) : Text :=
  s.toChars?.getD []

/-- `serde_json::Map` is ordered by its keys. -/
def mapValues {α : Type} (members : List (JsString × α)) : List α :=
  ((ownMembers members).mergeSort (fun m n => textLe (receivedText m.1) (receivedText n.1))).map
    Prod.snd

mutual

/-- The texts a config value may be printed as. `encode` is `serde_json::to_string` of a
number. -/
def collectSensitiveRepresentations (encode : JsNumber → Text) : Json → List Text
  | .string s => [receivedText s, Json.quote s]
  | .array items => collectItems encode items
  | .object members => (mapValues (collectMembers encode members)).flatten
  | .null => []
  | .number n => [encode n]
  | .bool true => ["true".toList]
  | .bool false => ["false".toList]

def collectItems (encode : JsNumber → Text) : List Json → List Text
  | [] => []
  | item :: items => collectSensitiveRepresentations encode item ++ collectItems encode items

def collectMembers (encode : JsNumber → Text) : List (JsString × Json) → List (JsString × List Text)
  | [] => []
  | m :: members =>
      (m.1, collectSensitiveRepresentations encode m.2) :: collectMembers encode members

end

/-- What `SensitiveLogRedactor::new` collects: the representations of the values under the keys
at the top of the configuration. -/
def collectedUnder {α : Type} (representations : Json → List α) (config : Json)
    (keys : List JsString) : List α :=
  keys.flatMap (fun key => ((config.member? key).map representations).getD [])

/-- `SensitiveLogRedactor::new`. -/
def agentRedactor (encode : JsNumber → Text) (config : Json) (sensitiveConfigKeys : List JsString) :
    SensitiveLogRedactor :=
  .ofValues (collectedUnder (collectSensitiveRepresentations encode) config sensitiveConfigKeys)

/-! The server -/

mutual

def sensitiveRepresentations (rt : JsRuntime) : Json → List JsString
  | .string s => if 0 < s.length then [s] else []
  | .number n => [rt.numberToString n]
  | .bool true => [JsString.ofString "true"]
  | .bool false => [JsString.ofString "false"]
  | .array items => representationsOfItems rt items
  | .object members => ((ownMembers (representationsOfMembers rt members)).map Prod.snd).flatten
  | .null => []

def representationsOfItems (rt : JsRuntime) : List Json → List JsString
  | [] => []
  | item :: items => sensitiveRepresentations rt item ++ representationsOfItems rt items

def representationsOfMembers (rt : JsRuntime) :
    List (JsString × Json) → List (JsString × List JsString)
  | [] => []
  | m :: members => (m.1, sensitiveRepresentations rt m.2) :: representationsOfMembers rt members

end

/-- The columns of a task that `redactorFor` reads. -/
structure LogTask where
  formSchema : Json
  logSensitiveKeys : Json
  config : Json

def snapshotKeys (task : LogTask) : List JsString :=
  (asArray (some task.logSensitiveKeys)).filterMap (fun value => asString (some value))

def redactorKeys (rt : JsRuntime) (task : LogTask) : List JsString :=
  let schemaKeys :=
    match validateFormSchema rt task.formSchema with
    | .ok schema => listSensitiveFormFieldNames schema
    | .error _ => []
  distinct (schemaKeys ++ snapshotKeys task)

def redactorFor (rt : JsRuntime) (task : LogTask) : ServerLogRedactor :=
  .ofValues (collectedUnder (sensitiveRepresentations rt) task.config (redactorKeys rt task))

/-! What the two redactors have to cover -/

/-- The value at a path of member names. -/
def valueAt : List JsString → Json → Option Json
  | [], v => some v
  | name :: path, v => (v.member? name).bind (valueAt path)

/-- A non-empty string that a configuration has at the path of a sensitive field. -/
def SensitiveString (schema : FormSchema) (v : Json) (s : JsString) : Prop :=
  s ≠ [] ∧ ∃ leaf ∈ listFormFields schema, isSensitiveFormField leaf.field = true ∧
    valueAt leaf.path v = some (.string s)

/-- The log columns of a task as `claimInTransaction` leaves them. -/
def assignedTask (rawSchema : Json) (schema : FormSchema) (v : Json) : LogTask where
  formSchema := rawSchema
  logSensitiveKeys := .array ((listSensitiveFormFieldNames schema).map Json.string)
  config := v

/-- Both redactors mask every sensitive string of the configuration. -/
def Covered (rt : JsRuntime) (encode : JsNumber → Text) (rawSchema : Json) (schema : FormSchema)
    (v : Json) : Prop :=
  ∀ s, SensitiveString schema v s →
    (isReceived v = true → receivedText s ∈
      (agentRedactor encode v (listSensitiveFormFieldNames schema)).values) ∧
    s ∈ (redactorFor rt (assignedTask rawSchema schema v)).values

/-- A text is found in the values of a tab that has the name of a sensitive field. -/
def UnderSensitiveTab {α : Type} (representations : Json → List α) (nodes : List TabFormNode)
    (v : Json) (text : α) : Prop :=
  ∃ node ∈ nodes, node.name ∈ listSensitiveFormFieldNames (.tabs nodes) ∧
    ∃ tabValue, v.member? node.name = some tabValue ∧ text ∈ representations tabValue

/-- When the two redactors cover a configuration: always without tabs; with tabs, only if the
sensitive strings are found under tabs that are named like sensitive fields. -/
def CoverageCondition (rt : JsRuntime) (encode : JsNumber → Text) (v : Json) : FormSchema → Prop
  | .flat _ => True
  | .tabs nodes =>
      ∀ s, SensitiveString (.tabs nodes) v s →
        (isReceived v = true →
          UnderSensitiveTab (collectSensitiveRepresentations encode) nodes v (receivedText s)) ∧
        UnderSensitiveTab (sensitiveRepresentations rt) nodes v s

theorem mem_collectedUnder {α : Type} {representations : Json → List α} {config : Json}
    {keys : List JsString} {text : α} :
    text ∈ collectedUnder representations config keys ↔
      ∃ key ∈ keys, ∃ value, config.member? key = some value ∧ text ∈ representations value := by
  simp only [collectedUnder, List.mem_flatMap]
  constructor
  · rintro ⟨key, hkey, htext⟩
    cases hvalue : config.member? key with
    | none => simp [hvalue] at htext
    | some value => exact ⟨key, hkey, value, hvalue, by simpa [hvalue] using htext⟩
  · rintro ⟨key, hkey, value, hvalue, htext⟩
    exact ⟨key, hkey, by simpa [hvalue] using htext⟩

theorem mem_ofValues_agent {text : Text} {collected : List Text} :
    text ∈ (SensitiveLogRedactor.ofValues collected).values ↔ text ≠ [] ∧ text ∈ collected := by
  simp only [SensitiveLogRedactor.ofValues, mem_dedup, sortByLength, mem_longestFirst,
    List.mem_filter, decide_eq_true_eq]
  exact and_comm

theorem mem_ofValues_server {text : JsString} {values : List JsString} :
    text ∈ (ServerLogRedactor.ofValues values).values ↔ text ≠ [] ∧ text ∈ values := by
  simp only [ServerLogRedactor.ofValues, mem_longestFirst, mem_distinct, List.mem_filter,
    decide_eq_true_eq, List.length_pos_iff]
  exact and_comm

/-- The server looks under the names that the template has. -/
theorem mem_redactorKeys (rt : JsRuntime) {rawSchema : Json} {schema : FormSchema}
    (hschema : validateFormSchema rt rawSchema = .ok schema) (v : Json) (key : JsString) :
    key ∈ redactorKeys rt (assignedTask rawSchema schema v) ↔
      key ∈ listSensitiveFormFieldNames schema := by
  have hsnapshot : snapshotKeys (assignedTask rawSchema schema v)
      = listSensitiveFormFieldNames schema := by
    simp only [snapshotKeys, assignedTask, asArray, List.filterMap_map]
    exact List.filterMap_some
  simp only [redactorKeys, hsnapshot, mem_distinct, List.mem_append]
  rw [show (assignedTask rawSchema schema v).formSchema = rawSchema from rfl, hschema]
  exact or_self_iff

theorem member?_mem {members : List (JsString × Json)} {key : JsString} {value : Json}
    (h : (Json.object members).member? key = some value) : (key, value) ∈ members := by
  simp only [Json.member?, Option.map_eq_some_iff] at h
  obtain ⟨m, hfind, rfl⟩ := h
  have hname : m.1 = key := by simpa using List.find?_some hfind
  have hmem := List.mem_of_find?_eq_some hfind
  rw [List.mem_reverse] at hmem
  exact hname ▸ hmem

theorem isReceived_of_mem {members : List (JsString × Json)} {m : JsString × Json}
    (hmembers : membersReceived members = true) (hm : m ∈ members) : isReceived m.2 = true := by
  induction members with
  | nil => exact absurd hm List.not_mem_nil
  | cons n members ih =>
      simp only [membersReceived, Bool.and_eq_true] at hmembers
      rcases List.mem_cons.mp hm with rfl | hm
      · exact hmembers.1.2
      · exact ih hmembers.2 hm

theorem isReceived_valueAt {path : List JsString} {v w : Json} (hv : isReceived v = true)
    (hw : valueAt path v = some w) : isReceived w = true := by
  induction path generalizing v with
  | nil =>
      obtain rfl : v = w := Option.some.inj hw
      exact hv
  | cons name path ih =>
      obtain ⟨u, hu, hw⟩ := Option.bind_eq_some_iff.mp hw
      refine ih ?_ hw
      cases v with
      | object members =>
          rw [isReceived] at hv
          exact isReceived_of_mem hv (member?_mem hu)
      | _ => exact absurd hu (by simp [Json.member?])

theorem receivedText_ne_nil {s : JsString} (hs : s ≠ [])
    (hreceived : isReceived (.string s) = true) : receivedText s ≠ [] := by
  obtain ⟨text, htext⟩ := Option.isSome_iff_exists.mp (by simpa [isReceived] using hreceived)
  rw [receivedText, htext, Option.getD_some]
  rintro rfl
  unfold JsString.toChars? at htext
  split at htext
  · exact hs rfl
  · split at htext <;> simp at htext
  · split at htext
    · simp at htext
    · split at htext <;> simp at htext

/-- Where the agent's redactor finds a sensitive string. -/
theorem mem_agentRedactor {encode : JsNumber → Text} {schema : FormSchema} {v : Json}
    {s : JsString} (hs : SensitiveString schema v s) (hreceived : isReceived v = true)
    (keys : List JsString) :
    receivedText s ∈ (agentRedactor encode v keys).values ↔
      ∃ key ∈ keys, ∃ value, v.member? key = some value ∧
        receivedText s ∈ collectSensitiveRepresentations encode value := by
  obtain ⟨hne, leaf, -, -, hvalue⟩ := hs
  have htext := receivedText_ne_nil hne (isReceived_valueAt hreceived hvalue)
  rw [agentRedactor, mem_ofValues_agent, mem_collectedUnder]
  exact and_iff_right htext

/-- Where the server's redactor finds a sensitive string. -/
theorem mem_redactorFor {rt : JsRuntime} {rawSchema : Json} {schema : FormSchema} {v : Json}
    {s : JsString} (hschema : validateFormSchema rt rawSchema = .ok schema)
    (hs : SensitiveString schema v s) :
    s ∈ (redactorFor rt (assignedTask rawSchema schema v)).values ↔
      ∃ key ∈ listSensitiveFormFieldNames schema, ∃ value, v.member? key = some value ∧
        s ∈ sensitiveRepresentations rt value := by
  rw [redactorFor, mem_ofValues_server, mem_collectedUnder]
  simp only [mem_redactorKeys rt hschema]
  exact and_iff_right hs.1

theorem covered_flat {rt : JsRuntime} {encode : JsNumber → Text} {rawSchema : Json}
    {fields : List FormField} (hschema : validateFormSchema rt rawSchema = .ok (.flat fields))
    (v : Json) : Covered rt encode rawSchema (.flat fields) v := by
  intro s hs
  obtain ⟨hne, leaf, hleaf, hsensitive, hvalue⟩ := hs
  obtain ⟨field, hfield, rfl⟩ := List.mem_map.mp hleaf
  have hkey : field.name ∈ listSensitiveFormFieldNames (.flat fields) :=
    List.mem_map.mpr ⟨_, List.mem_filter.mpr ⟨hleaf, hsensitive⟩, rfl⟩
  -- without tabs a path is the name under which both redactors look
  have hmember : v.member? field.name = some (.string s) := by
    obtain ⟨w, hw, hws⟩ := Option.bind_eq_some_iff.mp hvalue
    rw [hw]
    exact hws
  have hs : SensitiveString (.flat fields) v s := ⟨hne, _, hleaf, hsensitive, hvalue⟩
  constructor
  · intro hreceived
    refine (mem_agentRedactor hs hreceived _).mpr ⟨_, hkey, _, hmember, ?_⟩
    rw [collectSensitiveRepresentations]
    exact List.mem_cons_self
  · refine (mem_redactorFor hschema hs).mpr ⟨_, hkey, _, hmember, ?_⟩
    rw [sensitiveRepresentations, if_pos (List.length_pos_iff.mpr hne)]
    exact List.mem_singleton.mpr rfl

theorem setMember_names {members : List (JsString × Json)} {name : JsString} {value : Json}
    {m : JsString × Json} (hm : m ∈ setMember members name value) :
    m.1 = name ∨ ∃ n ∈ members, n.1 = m.1 := by
  rw [setMember] at hm
  split at hm
  · exact Or.inr ⟨m, hm, rfl⟩
  · split at hm
    · obtain ⟨n, hn, rfl⟩ := List.mem_map.mp hm
      split
      · exact Or.inl rfl
      · exact Or.inr ⟨n, hn, rfl⟩
    · rcases List.mem_append.mp hm with hm | hm
      · exact Or.inr ⟨m, hm, rfl⟩
      · exact Or.inl (by rw [List.mem_singleton.mp hm])

/-- A configuration with tabs has members for tabs only. -/
theorem evaluateTabs_names (rt : JsRuntime) (input : Json) (nodes : List TabFormNode)
    (evaluation : Evaluation) {m : JsString × Json}
    (hm : m ∈ (nodes.foldl (evaluateTab rt input) evaluation).value) :
    (∃ node ∈ nodes, node.name = m.1) ∨ ∃ n ∈ evaluation.value, n.1 = m.1 := by
  induction nodes generalizing evaluation with
  | nil => exact Or.inr ⟨m, hm, rfl⟩
  | cons node nodes ih =>
      rcases ih _ hm with ⟨other, hother, hname⟩ | ⟨n, hn, hname⟩
      · exact Or.inl ⟨other, List.mem_cons_of_mem _ hother, hname⟩
      · rcases setMember_names hn with hnode | ⟨k, hk, hkn⟩
        · exact Or.inl ⟨node, List.mem_cons_self, by rw [← hname, hnode]⟩
        · exact Or.inr ⟨k, hk, by rw [hkn, hname]⟩

theorem exists_tab_of_member? {rt : JsRuntime} {nodes : List TabFormNode} {input v value : Json}
    (hvalues : validateFormConfigValues rt (.tabs nodes) input = .ok v) {key : JsString}
    (hmember : v.member? key = some value) : ∃ node ∈ nodes, node.name = key := by
  rw [validateFormConfigValues] at hvalues
  split at hvalues
  case h_2 => exact absurd hvalues (by simp)
  case h_1 members hevaluation =>
      obtain rfl := Except.ok.inj hvalues
      rw [evaluateConfig] at hevaluation
      have hmem := member?_mem hmember
      split at hevaluation
      · obtain ⟨rfl, -⟩ := Evaluation.mk.inj hevaluation
        exact absurd hmem List.not_mem_nil
      · rw [show members = (nodes.foldl (evaluateTab rt input) ⟨[], []⟩).value by
          rw [hevaluation]] at hmem
        rcases evaluateTabs_names rt input nodes _ hmem with hnode | ⟨n, hn, -⟩
        · exact hnode
        · exact absurd hn List.not_mem_nil

/-- With tabs, looking under the names of the sensitive fields finds tabs that are named like
one. -/
theorem underSensitiveTab_iff {α : Type} {rt : JsRuntime} {nodes : List TabFormNode}
    {input v : Json} (hvalues : validateFormConfigValues rt (.tabs nodes) input = .ok v)
    {representations : Json → List α} {text : α} :
    UnderSensitiveTab representations nodes v text ↔
      ∃ key ∈ listSensitiveFormFieldNames (.tabs nodes), ∃ value, v.member? key = some value ∧
        text ∈ representations value := by
  constructor
  · rintro ⟨node, -, hkey, value, hmember, htext⟩
    exact ⟨node.name, hkey, value, hmember, htext⟩
  · rintro ⟨key, hkey, value, hmember, htext⟩
    obtain ⟨node, hnode, rfl⟩ := exists_tab_of_member? hvalues hmember
    exact ⟨node, hnode, hkey, value, hmember, htext⟩

/-- With tabs none of which is named like a sensitive field, nothing sensitive is covered. -/
theorem not_covered_of_distinctNames {rt : JsRuntime} {encode : JsNumber → Text} {rawSchema : Json}
    {nodes : List TabFormNode} {input v : Json}
    (hschema : validateFormSchema rt rawSchema = .ok (.tabs nodes))
    (hvalues : validateFormConfigValues rt (.tabs nodes) input = .ok v)
    (hnames : ∀ node ∈ nodes, node.name ∉ listSensitiveFormFieldNames (.tabs nodes))
    {s : JsString} (hs : SensitiveString (.tabs nodes) v s) :
    ¬ Covered rt encode rawSchema (.tabs nodes) v := by
  intro hcovered
  have hserver := (mem_redactorFor hschema hs).mp (hcovered s hs).2
  obtain ⟨node, hnode, hkey, -⟩ := (underSensitiveTab_iff hvalues).mpr hserver
  exact hnames node hnode hkey

/-- Both redactors cover the sensitive values of a configuration exactly when its template has
no tabs, or the tabs that happen to be named like sensitive fields hold all of them. -/
theorem covered_iff (rt : JsRuntime) (encode : JsNumber → Text) {rawSchema : Json}
    {schema : FormSchema} (input : Json) {v : Json} (hschema : validateFormSchema rt rawSchema = .ok schema)
    (hvalues : validateFormConfigValues rt schema input = .ok v) :
    Covered rt encode rawSchema schema v ↔ CoverageCondition rt encode v schema := by
  cases schema with
  | flat fields => exact iff_of_true (covered_flat hschema v) trivial
  | tabs nodes =>
      refine forall_congr' fun s => forall_congr' fun hs => ?_
      refine and_congr (forall_congr' fun hreceived => ?_) ?_
      · exact (mem_agentRedactor hs hreceived _).trans (underSensitiveTab_iff hvalues).symm
      · exact (mem_redactorFor hschema hs).trans (underSensitiveTab_iff hvalues).symm

/-- A library that the templates below do not call. -/
def unusedRuntime : JsRuntime where
  regExp := fun _ => none
  toLowerCase := id
  numberToString := fun _ => []

/-- The text of a template with one password. -/
def passwordTemplate : Json :=
  .array [.object [
    (JsString.ofString "type", .string (JsString.ofString "password")),
    (JsString.ofString "name", .string (JsString.ofString "pw")),
    (JsString.ofString "label", .string (JsString.ofString "Password"))]]

/-- The same password in a tab. -/
def tabTemplate : Json :=
  .array [.object [
    (JsString.ofString "type", .string (JsString.ofString "tab")),
    (JsString.ofString "name", .string (JsString.ofString "main")),
    (JsString.ofString "label", .string (JsString.ofString "Main")),
    (JsString.ofString "children", passwordTemplate)]]

def passwordField : FormField where
  type := .password
  name := JsString.ofString "pw"
  defaultValue := none
  required := false
  disabled := false
  sensitive := some true
  minLength := none
  maxLength := none
  min := none
  max := none
  step := none
  pattern := none
  options := []
  allowedExtensions := []
  fileNamePattern := none
  maxSizeBytes := none

def passwordConfig : Json :=
  .object [(JsString.ofString "pw", .string (JsString.ofString "hunter2"))]

def tabConfig : Json :=
  .object [(JsString.ofString "main", passwordConfig)]

/-- The result at a flat template with a password. -/
theorem covered_passwordTemplate :
    Covered unusedRuntime (fun _ => []) passwordTemplate (.flat [passwordField]) passwordConfig :=
  (covered_iff unusedRuntime (fun _ => []) passwordConfig rfl rfl).mpr trivial

/-- A password in a tab is masked by neither redactor. -/
theorem tabPassword_not_covered :
    validateFormSchema unusedRuntime tabTemplate
        = .ok (.tabs [⟨JsString.ofString "main", [passwordField]⟩]) ∧
      validateFormConfigValues unusedRuntime
        (.tabs [⟨JsString.ofString "main", [passwordField]⟩]) tabConfig = .ok tabConfig ∧
      ¬ Covered unusedRuntime (fun _ => []) tabTemplate
        (.tabs [⟨JsString.ofString "main", [passwordField]⟩]) tabConfig := by
  have hschema : validateFormSchema unusedRuntime tabTemplate
      = .ok (.tabs [⟨JsString.ofString "main", [passwordField]⟩]) := rfl
  have hvalues : validateFormConfigValues unusedRuntime
      (.tabs [⟨JsString.ofString "main", [passwordField]⟩]) tabConfig = .ok tabConfig := rfl
  refine ⟨hschema, hvalues, ?_⟩
  have hsensitive : SensitiveString (.tabs [⟨JsString.ofString "main", [passwordField]⟩]) tabConfig
      (JsString.ofString "hunter2") :=
    ⟨by decide, ⟨passwordField, [JsString.ofString "main", JsString.ofString "pw"]⟩,
      List.mem_singleton.mpr rfl, rfl, rfl⟩
  exact not_covered_of_distinctNames hschema hvalues (by decide) hsensitive

end AnvilRun.SensitiveValues
