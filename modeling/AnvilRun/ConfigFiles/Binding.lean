import AnvilRun.ConfigFiles
import AnvilRun.FormSchema.Defaults

namespace AnvilRun.ConfigFiles

open Fallible
open Form
open JsString

variable {Uuid : Type}

/-! What stored file values name -/

/-- A value of a file field that stands for one of these uploads. -/
def Names (server : Server Uuid) (uploads : Table Uuid (Upload Uuid)) (templateId : Uuid)
    (fileIds : List Uuid) (path : List JsString) (value : Json) : Prop :=
  ∃ id ∈ fileIds, ∃ file, uploads.row id = some file ∧ file.buildTemplateId = templateId ∧
    file.fieldName = joinPath path ∧ value = publicValue server id file

/-- The file fields that the loop has gone through stand for uploads. -/
def NamesAll (server : Server Uuid) (uploads : Table Uuid (Upload Uuid)) (templateId : Uuid)
    (fileIds : List Uuid) (leaves : List FormFieldPath) (config : Json) : Prop :=
  ∀ leaf ∈ leaves, leaf.field.type = .file → ∀ value, ownValueAt config leaf.path = some value →
    value ≠ .null → Names server uploads templateId fileIds leaf.path value

/-- What a transaction that saves a configuration has found so far. -/
def SaveStage.Names (server : Server Uuid) (uploads : Table Uuid (Upload Uuid))
    (templateId : Uuid) (schema : FormSchema) : SaveStage Uuid → Prop
  | .canonicalizing remaining next fileIds => ∃ before,
      listFormFields schema = before ++ remaining ∧
        NamesAll server uploads templateId fileIds before next
  | .canonicalized config fileIds | .written config fileIds | .bound config fileIds
  | .reconciled config fileIds _ _ =>
      NamesAll server uploads templateId fileIds (listFormFields schema) config

/-- The part of the state of a saving transaction that other transactions cannot change. -/
structure Save.Sound (server : Server Uuid) (state : State Uuid) (save : Save Uuid) : Prop where
  template : ∃ template, server.buildTemplates save.buildTemplateId = some template ∧
    validateFormSchema server.rt template.formSchema = .ok save.schema
  project : save.isNew = false → ∃ project, state.projects.row save.projectId = some project ∧
    project.buildTemplateId = save.buildTemplateId
  names : save.stage.Names server state.uploads save.buildTemplateId save.schema

/-- A row of a file that belongs to no other project. -/
def IsFree (state : State Uuid) (projectId id : Uuid) : Prop :=
  ∃ file, state.configFiles.row id = some file ∧
    (file.projectId = none ∨ file.projectId = some projectId)

/-- The rows that a transaction has locked are not those of other projects. -/
def Transaction.Sound (server : Server Uuid) (state : State Uuid) : Transaction Uuid → Prop
  | .save s => s.Sound server state ∧
      ∀ id ∈ s.stage.lockedFiles, IsFree state s.projectId id
  | .task _ => True

/-- A file value that stands for a row of the project. -/
def IsBound (server : Server Uuid) (state : State Uuid) (projectId templateId : Uuid)
    (path : List JsString) (value : Json) : Prop :=
  ∃ id file, state.configFiles.row id = some file ∧ file.projectId = some projectId ∧
    file.buildTemplateId = templateId ∧ file.fieldName = joinPath path ∧
    value = publicValue server id file.toUpload

/-- The file values of a project stand for rows of the project. -/
def Project.Bound (server : Server Uuid) (state : State Uuid) (projectId : Uuid)
    (project : Project Uuid) : Prop :=
  ∀ template schema, server.buildTemplates project.buildTemplateId = some template →
    validateFormSchema server.rt template.formSchema = .ok schema →
    ∀ leaf ∈ listFormFields schema, leaf.field.type = .file →
      ∀ value, ownValueAt project.config leaf.path = some value → value ≠ .null →
        IsBound server state projectId project.buildTemplateId leaf.path value

/-- What holds between two steps of any transactions. -/
structure Consistent (server : Server Uuid) (state : State Uuid) : Prop where
  uploads : ∀ id file, state.configFiles.row id = some file →
    state.uploads.row id = some file.toUpload
  projects : ∀ projectId project, state.projects.row projectId = some project →
    project.Bound server state projectId
  transactions : ∀ tx transaction, state.transactions.row tx = some transaction →
    transaction.Sound server state
  locks : ∀ tx other transaction otherTransaction,
    state.transactions.row tx = some transaction →
    state.transactions.row other = some otherTransaction → tx ≠ other →
    ∀ id ∈ transaction.lockedFiles, id ∉ otherTransaction.lockedFiles

theorem Names.mono {server : Server Uuid} {uploads later : Table Uuid (Upload Uuid)}
    {templateId : Uuid} {fileIds moreIds : List Uuid} {path : List JsString} {value : Json}
    (h : Names server uploads templateId fileIds path value)
    (huploads : ∀ id file, uploads.row id = some file → later.row id = some file)
    (hids : ∀ id ∈ fileIds, id ∈ moreIds) :
    Names server later templateId moreIds path value := by
  obtain ⟨id, hid, file, hfile, hrest⟩ := h
  exact ⟨id, hids id hid, file, huploads id file hfile, hrest⟩

theorem SaveStage.Names.mono {server : Server Uuid} {uploads later : Table Uuid (Upload Uuid)}
    {templateId : Uuid} {schema : FormSchema} {stage : SaveStage Uuid}
    (h : stage.Names server uploads templateId schema)
    (huploads : ∀ id file, uploads.row id = some file → later.row id = some file) :
    stage.Names server later templateId schema := by
  have hall : ∀ {fileIds leaves config},
      NamesAll server uploads templateId fileIds leaves config →
        NamesAll server later templateId fileIds leaves config :=
    fun hnames leaf hleaf hfile value hvalue hnull =>
      (hnames leaf hleaf hfile value hvalue hnull).mono huploads fun _ hid => hid
  cases stage with
  | canonicalizing remaining next fileIds =>
      obtain ⟨before, hbefore, hnames⟩ := h
      exact ⟨before, hbefore, hall hnames⟩
  | canonicalized | written | bound | reconciled => exact hall h

theorem Save.Sound.mono {server : Server Uuid} {s t : State Uuid} {save : Save Uuid}
    (h : save.Sound server s)
    (huploads : ∀ id file, s.uploads.row id = some file → t.uploads.row id = some file)
    (hprojects : ∀ id project, s.projects.row id = some project →
      ∃ later, t.projects.row id = some later ∧
        later.buildTemplateId = project.buildTemplateId) : save.Sound server t := by
  refine ⟨h.template, fun hnew => ?_, h.names.mono huploads⟩
  obtain ⟨project, hproject, htemplate⟩ := h.project hnew
  obtain ⟨later, hlater, hsame⟩ := hprojects _ _ hproject
  exact ⟨later, hlater, hsame.trans htemplate⟩

theorem Transaction.Sound.congr {server : Server Uuid} {s t : State Uuid}
    {transaction : Transaction Uuid} (h : transaction.Sound server s)
    (hprojects : t.projects = s.projects) (hfiles : t.configFiles = s.configFiles)
    (huploads : t.uploads = s.uploads) : transaction.Sound server t := by
  cases transaction with
  | task => trivial
  | save save =>
      refine ⟨h.1.mono (fun _ _ hrow => huploads ▸ hrow) fun _ project hrow =>
        ⟨project, hprojects ▸ hrow, rfl⟩, fun id hid => ?_⟩
      obtain ⟨file, hfile, hfree⟩ := h.2 id hid
      exact ⟨file, hfiles ▸ hfile, hfree⟩

/-- The files that stand behind a project are the same ones when their rows are. -/
theorem Project.Bound.mono {server : Server Uuid} {s t : State Uuid} {projectId : Uuid}
    {project : Project Uuid}
    (h : project.Bound server s projectId)
    (hfiles : ∀ id file, s.configFiles.row id = some file → file.projectId = some projectId →
      t.configFiles.row id = some file) : project.Bound server t projectId := by
  intro template schema htemplate hschema leaf hleaf htype value hvalue hnull
  obtain ⟨id, file, hfile, hproject, hrest⟩ :=
    h template schema htemplate hschema leaf hleaf htype value hvalue hnull
  exact ⟨id, file, hfiles id file hfile hproject, hproject, hrest⟩

/-- Task inputs, the cleanup and the files on disk do not matter here. -/
theorem Consistent.congr {server : Server Uuid} {s t : State Uuid} (h : Consistent server s)
    (hprojects : t.projects = s.projects) (hfiles : t.configFiles = s.configFiles)
    (huploads : t.uploads = s.uploads) (htransactions : t.transactions = s.transactions) :
    Consistent server t := by
  constructor
  · rw [hfiles, huploads]
    exact h.uploads
  · intro projectId project hproject
    rw [hprojects] at hproject
    exact (h.projects projectId project hproject).mono fun _ _ hfile _ => hfiles ▸ hfile
  · intro tx transaction hrow
    rw [htransactions] at hrow
    exact (h.transactions tx transaction hrow).congr hprojects hfiles huploads
  · rw [htransactions]
    exact h.locks

theorem NamesAll.validate {server : Server Uuid} {schema : FormSchema} {templateId : Uuid} {next config : Json}
    {fileIds : List Uuid} {uploads : Table Uuid (Upload Uuid)}
    (h : NamesAll server uploads templateId fileIds (listFormFields schema) next)
    (hschema : schema.Accepted server.rt)
    (hconfig : validateFormConfigValues server.rt schema next = .ok config) :
    NamesAll server uploads templateId fileIds (listFormFields schema) config := by
  intro leaf hleaf htype value hvalue _
  obtain ⟨hnull, hnext⟩ := ownValueAt_of_validate hschema hconfig hleaf htype hvalue
  exact h leaf hleaf htype value hnext hnull

section Steps

variable [DecidableEq Uuid] {server : Server Uuid} {s t : State Uuid}

/-! Canonical configurations -/

theorem acceptsReference_spec {ownerId templateId : Uuid} {projectId : Option Uuid} {now : Nat}
    {leaf : FormFieldPath} {file : ConfigFile Uuid}
    (h : acceptsReference server ownerId projectId templateId now leaf file = true) :
    file.buildTemplateId = templateId ∧ file.fieldName = joinPath leaf.path := by
  simp only [acceptsReference, Bool.and_eq_true, decide_eq_true_eq, beq_iff_eq] at h
  exact ⟨h.1.1.1.2, h.1.1.2⟩

/-- The result of one round: the field is left alone, or it gets the value of a row. -/
theorem canonicalizeField_cases {configFiles : Table Uuid (ConfigFile Uuid)}
    {ownerId templateId : Uuid} {projectId : Option Uuid} {now : Nat} {leaf : FormFieldPath}
    {next next' : Json} {fileIds fileIds' : List Uuid}
    (h : canonicalizeField server configFiles ownerId projectId templateId now leaf next fileIds =
      .ok (next', fileIds')) :
    (next' = next ∧ fileIds' = fileIds ∧ (leaf.field.type = .file →
      ∀ value, ownValueAt next leaf.path = some value → value = .null)) ∨
    ∃ id file, configFiles.row id = some file ∧ file.buildTemplateId = templateId ∧
      file.fieldName = joinPath leaf.path ∧ fileIds' = fileIds ++ [id] ∧
      next' = setValueAtPath next leaf.path (publicValue server id file.toUpload) := by
  unfold canonicalizeField at h
  split at h
  · rename_i htype
    cases h
    exact .inl ⟨rfl, rfl, fun hfile => absurd hfile htype⟩
  · split at h
    · rename_i hnone
      cases h
      refine .inl ⟨rfl, rfl, fun _ value hvalue => ?_⟩
      rw [valueAtPath_of_ownValueAt hvalue] at hnone
      cases hnone
    · rename_i hnull
      cases h
      refine .inl ⟨rfl, rfl, fun _ value hvalue => ?_⟩
      rw [valueAtPath_of_ownValueAt hvalue] at hnull
      cases hnull
      rfl
    · simp only [bind_eq_ok, ensure_eq_ok, require_eq_ok, pure_eq_ok] at h
      obtain ⟨-, -, id, -, file, hfile, -, haccepts, hresult⟩ := h
      cases hresult
      obtain ⟨htemplate, hfieldName⟩ := acceptsReference_spec haccepts
      exact .inr ⟨id, file, hfile, htemplate, hfieldName, rfl, rfl⟩

theorem NamesAll.canonicalizeField {schema : FormSchema} {before remaining : List FormFieldPath}
    {leaf : FormFieldPath} {ownerId templateId : Uuid} {projectId : Option Uuid} {now : Nat}
    {next next' : Json} {fileIds fileIds' : List Uuid}
    (h : NamesAll server s.uploads templateId fileIds before next) (hs : Consistent server s)
    (hschema : schema.Accepted server.rt)
    (hleaves : listFormFields schema = before ++ leaf :: remaining)
    (hnext : canonicalizeField server s.configFiles ownerId projectId templateId now leaf next
      fileIds = .ok (next', fileIds')) :
    NamesAll server s.uploads templateId fileIds' (before ++ [leaf]) next' := by
  have hpaths := listFormFields_paths_nodup hschema
  rw [hleaves, List.map_append, List.map_cons, List.nodup_append] at hpaths
  have hleaf : leaf ∈ listFormFields schema := by
    rw [hleaves]
    exact List.mem_append_right _ List.mem_cons_self
  obtain ⟨rfl, rfl, hnull⟩ | ⟨id, file, hfile, htemplate, hfieldName, rfl, rfl⟩ :=
    canonicalizeField_cases hnext
  · intro other hother htype value hvalue hne
    rw [List.mem_append, List.mem_singleton] at hother
    obtain hother | rfl := hother
    · exact h other hother htype value hvalue hne
    · exact absurd (hnull htype value hvalue) hne
  · intro other hother htype value hvalue hne
    rw [List.mem_append, List.mem_singleton] at hother
    obtain hother | rfl := hother
    · -- an earlier field has another path, so its value is as it was
      have hpath : other.path ≠ leaf.path :=
        hpaths.2.2 _ (List.mem_map_of_mem hother) _ List.mem_cons_self
      have hmem : other ∈ listFormFields schema := by
        rw [hleaves]
        exact List.mem_append_left _ hother
      rw [ownValueAt_setValueAtPath_of_ne hpath (listFormFields_path_length hmem hleaf)] at hvalue
      exact (h other hother htype value hvalue hne).mono (fun _ _ hrow => hrow)
        fun _ hid => List.mem_append_left _ hid
    · exact ⟨id, List.mem_append_right _ List.mem_cons_self, file.toUpload,
        hs.uploads id file hfile, htemplate, hfieldName,
        ownValueAt_setValueAtPath (listFormFields_path_ne_nil hleaf) hvalue⟩

/-! Locks -/

theorem lockedByOther_eq_false {tx id : Uuid} :
    s.lockedByOther tx id = false ↔ ∀ other transaction,
      s.transactions.row other = some transaction → other ≠ tx → id ∉ transaction.lockedFiles := by
  rw [State.lockedByOther, List.any_eq_false]
  constructor
  · intro h other transaction hrow hne hid
    have := h (other, transaction) (Table.mem_entries.mpr hrow)
    simp [hne, hid] at this
  · rintro h ⟨other, transaction⟩ hentry
    have := h other transaction (Table.mem_entries.mp hentry)
    simpa using this

theorem isDeletable_locked {id tx : Uuid} {transaction : Transaction Uuid}
    (h : s.isDeletable id = true) (hrow : s.transactions.row tx = some transaction) :
    id ∉ transaction.lockedFiles := by
  rw [State.isDeletable, Bool.not_eq_true', List.any_eq_false] at h
  have := h (tx, transaction) (Table.mem_entries.mpr hrow)
  intro hid
  simp [hid] at this

/-- A step that changes no row of a project or a file: it opens a transaction, takes one further
or closes one. -/
theorem Consistent.transactions_step (h : Consistent server s)
    (hprojects : t.projects = s.projects) (hfiles : t.configFiles = s.configFiles)
    (huploads : t.uploads = s.uploads) (tx : Uuid)
    (hothers : ∀ other transaction, t.transactions.row other = some transaction → other ≠ tx →
      s.transactions.row other = some transaction)
    (htx : ∀ transaction, t.transactions.row tx = some transaction →
      transaction.Sound server s ∧ ∀ id ∈ transaction.lockedFiles, s.lockedByOther tx id = false) :
    Consistent server t := by
  constructor
  · rw [hfiles, huploads]
    exact h.uploads
  · intro projectId project hproject
    rw [hprojects] at hproject
    exact (h.projects projectId project hproject).mono fun _ _ hfile _ => hfiles ▸ hfile
  · intro other transaction hrow
    by_cases hother : other = tx
    · subst hother
      exact (htx transaction hrow).1.congr hprojects hfiles huploads
    · exact (h.transactions other transaction (hothers _ _ hrow hother)).congr hprojects hfiles
        huploads
  · intro first other transaction otherTransaction hfirst hother hne id hid hotherId
    by_cases htxFirst : first = tx
    · subst htxFirst
      have hlocked := lockedByOther_eq_false.mp ((htx transaction hfirst).2 id hid)
      exact hlocked other otherTransaction (hothers _ _ hother hne.symm) hne.symm hotherId
    · by_cases htxOther : other = tx
      · subst htxOther
        have hlocked := lockedByOther_eq_false.mp ((htx otherTransaction hother).2 id hotherId)
        exact hlocked first transaction (hothers _ _ hfirst hne) hne hid
      · exact h.locks first other transaction otherTransaction (hothers _ _ hfirst htxFirst)
          (hothers _ _ hother htxOther) hne id hid hotherId

theorem Consistent.erase (h : Consistent server s) (tx : Uuid) :
    Consistent server { s with transactions := s.transactions.erase tx } := by
  refine h.transactions_step rfl rfl rfl tx (fun other transaction hrow hne => ?_) ?_
  · rwa [Table.erase_row, if_neg hne] at hrow
  · intro transaction hrow
    rw [Table.erase_row, if_pos rfl] at hrow
    cases hrow

theorem Consistent.proceed (h : Consistent server s) {tx : Uuid}
    {transaction : Except ApiException (Transaction Uuid)}
    (hok : ∀ later, transaction = .ok later → later.Sound server s ∧
      ∀ id ∈ later.lockedFiles, s.lockedByOther tx id = false) :
    Consistent server (s.proceed tx transaction) := by
  cases transaction with
  | error e => exact h.erase tx
  | ok later =>
      refine h.transactions_step rfl rfl rfl tx (fun other transaction hrow hne => ?_) ?_
      · rwa [State.proceed, Table.modify_row_of_ne _ hne] at hrow
      · intro transaction hrow
        rw [State.proceed, Table.modify_row_self, Option.map_eq_some_iff] at hrow
        obtain ⟨_, -, rfl⟩ := hrow
        exact hok later rfl

/-- A transaction starts without locks. -/
theorem Consistent.start (h : Consistent server s) {tx : Uuid}
    {transaction : Except ApiException (Transaction Uuid)}
    (hok : ∀ first, transaction = .ok first → first.Sound server s ∧ first.lockedFiles = [])
    (hnext : s.start tx transaction = some t) : Consistent server t := by
  cases transaction with
  | error e =>
      cases hnext
      exact h
  | ok first =>
      obtain ⟨transactions, hinsert, rfl⟩ := Option.map_eq_some_iff.mp hnext
      obtain ⟨hsound, hlocked⟩ := hok first rfl
      refine h.transactions_step rfl rfl rfl tx (fun other transaction hrow hne => ?_) ?_
      · rwa [Table.insert_row hinsert, if_neg hne] at hrow
      · intro transaction hrow
        rw [Table.insert_row hinsert, if_pos rfl] at hrow
        cases hrow
        refine ⟨hsound, fun id hid => ?_⟩
        rw [hlocked] at hid
        exact absurd hid List.not_mem_nil

/-! The steps of a transaction that saves a configuration -/

theorem mapError_eq_ok {ε ε' α : Type} {x : Except ε α} {f : ε → ε'} {a : α} :
    x.mapError f = .ok a ↔ x = .ok a := by
  cases x <;> simp [Except.mapError]

omit [DecidableEq Uuid] in
/-- A first step has the fields of an accepted template before it. -/
theorem Save.sound_first {actor : Actor Uuid} {projectId templateId : Uuid} {isNew : Bool}
    {template : BuildTemplate} {schema : FormSchema} {next : Json}
    (htemplate : server.buildTemplates templateId = some template)
    (hschema : validateFormSchema server.rt template.formSchema = .ok schema)
    (hproject : isNew = false → ∃ project, s.projects.row projectId = some project ∧
      project.buildTemplateId = templateId) :
    Save.Sound server s ⟨actor, projectId, isNew, templateId, schema,
      .canonicalizing (listFormFields schema) next []⟩ :=
  ⟨⟨template, htemplate, hschema⟩, hproject, [], rfl, fun _ hleaf => absurd hleaf List.not_mem_nil⟩

theorem Consistent.createProject (h : Consistent server s) {tx projectId templateId : Uuid}
    {actor : Actor Uuid} {input : Json}
    (hnext : s.createProject server tx actor projectId templateId input = some t) :
    Consistent server t := by
  refine h.start (fun first hfirst => ?_) hnext
  simp only [bind_eq_ok, require_eq_ok, ensure_eq_ok, mapError_eq_ok, pure_eq_ok] at hfirst
  obtain ⟨template, htemplate, -, -, schema, hschema, next, -, rfl⟩ := hfirst
  exact ⟨⟨Save.sound_first htemplate hschema (fun hnew => by cases hnew),
    fun _ hid => absurd hid List.not_mem_nil⟩, rfl⟩

theorem Consistent.saveProjectConfig (h : Consistent server s) {tx projectId : Uuid}
    {actor : Actor Uuid} {input : Json}
    (hnext : s.saveProjectConfig server tx actor projectId input = some t) :
    Consistent server t := by
  refine h.start (fun first hfirst => ?_) hnext
  simp only [State.findProject, bind_eq_ok, require_eq_ok, ensure_eq_ok, mapError_eq_ok,
    pure_eq_ok] at hfirst
  obtain ⟨_, ⟨project, hproject, -, -, rfl⟩, template, htemplate, schema, hschema, next, -, rfl⟩ :=
    hfirst
  exact ⟨⟨Save.sound_first htemplate hschema fun _ => ⟨_, hproject, rfl⟩,
    fun _ hid => absurd hid List.not_mem_nil⟩, rfl⟩

theorem Consistent.createTask (h : Consistent server s) {tx projectId : Uuid}
    {actor : Actor Uuid} (hnext : s.createTask server tx actor projectId = some t) :
    Consistent server t := by
  refine h.start (fun first hfirst => ?_) hnext
  simp only [bind_eq_ok, require_eq_ok, ensure_eq_ok, mapError_eq_ok, pure_eq_ok] at hfirst
  obtain ⟨project, -, template, -, -, -, -, -, schema, -, config, -, rfl⟩ := hfirst
  exact ⟨trivial, rfl⟩

/-- A saving transaction goes on: its new stage names uploads, and the rows that it locks now are
free. -/
theorem Consistent.proceedSave (h : Consistent server s) {tx : Uuid} {save : Save Uuid}
    {stage : Except ApiException (SaveStage Uuid)} (hsave : save.Sound server s)
    (hstage : ∀ later, stage = .ok later →
      later.Names server s.uploads save.buildTemplateId save.schema ∧
      ∀ id ∈ later.lockedFiles, IsFree s save.projectId id ∧ s.lockedByOther tx id = false) :
    Consistent server (s.proceedSave tx save stage) := by
  refine h.proceed fun later hlater => ?_
  cases stage with
  | error e => cases hlater
  | ok stage =>
      cases hlater
      obtain ⟨hnames, hlocked⟩ := hstage stage rfl
      exact ⟨⟨⟨hsave.template, hsave.project, hnames⟩, fun id hid => (hlocked id hid).1⟩,
        fun id hid => (hlocked id hid).2⟩

omit [DecidableEq Uuid] in
theorem SaveStage.Names.remaining {uploads : Table Uuid (Upload Uuid)} {templateId : Uuid}
    {schema : FormSchema} {next : Json} {fileIds : List Uuid}
    (h : (SaveStage.canonicalizing [] next fileIds).Names server uploads templateId schema) :
    NamesAll server uploads templateId fileIds (listFormFields schema) next := by
  obtain ⟨before, hbefore, hnames⟩ := h
  rw [List.append_nil] at hbefore
  rwa [hbefore]

/-- All rows were changed when as many rows were changed as there are identifiers. -/
theorem isFree_of_bindableFiles {ownerId projectId : Uuid} {fileIds : List Uuid}
    (h : (bindableFiles s.configFiles ownerId projectId fileIds).length = fileIds.dedup.length) :
    ∀ id ∈ fileIds, IsFree s projectId id := by
  intro id hid
  have hbindable := List.length_filter_eq_length_iff.mp h id (List.mem_dedup.mpr hid)
  obtain ⟨file, hfile, hbind⟩ := (Option.any_eq_true ..).mp hbindable
  rw [isBindable, decide_eq_true_eq] at hbind
  exact ⟨file, hfile, hbind.imp_left And.right⟩

theorem isFree_of_detachableFiles {projectId : Uuid} {fileIds : List Uuid} :
    ∀ id ∈ detachableFiles s.configFiles projectId fileIds,
      ∃ file, s.configFiles.row id = some file ∧ file.projectId = some projectId := by
  intro id hid
  obtain ⟨entry, hentry, rfl⟩ := List.mem_map.mp hid
  obtain ⟨hmem, hselected⟩ := List.mem_filter.mp hentry
  rw [Bool.and_eq_true, decide_eq_true_eq] at hselected
  exact ⟨entry.2, Table.mem_entries.mp hmem, hselected.1⟩

theorem any_lockedByOther_eq_false {tx : Uuid} {ids : List Uuid}
    (h : ids.any (s.lockedByOther tx) = false) : ∀ id ∈ ids, s.lockedByOther tx id = false :=
  fun id hid => by simpa using List.any_eq_false.mp h id hid

theorem commitFile_toUpload (projectId : Uuid) (fileIds detached : List Uuid) (detachedAt : Nat)
    (id : Uuid) (file : ConfigFile Uuid) :
    (commitFile projectId fileIds detached detachedAt id file).toUpload = file.toUpload := by
  unfold commitFile
  split_ifs <;> rfl

theorem commitFile_of_mem {projectId : Uuid} {fileIds detached : List Uuid} {detachedAt : Nat}
    {id : Uuid} (hid : id ∈ fileIds) (file : ConfigFile Uuid) :
    (commitFile projectId fileIds detached detachedAt id file).projectId = some projectId := by
  rw [commitFile, if_pos (List.contains_iff_mem.mpr hid)]

theorem commitFile_of_not_mem {projectId : Uuid} {fileIds detached : List Uuid} {detachedAt : Nat}
    {id : Uuid} (hid : id ∉ fileIds ++ detached) (file : ConfigFile Uuid) :
    commitFile projectId fileIds detached detachedAt id file = file := by
  rw [List.mem_append, not_or] at hid
  rw [commitFile, if_neg (by simpa using hid.1), if_neg (by simpa using hid.2)]

/-- After a commit the project has its new configuration, and the rows that it locked belong to
the project or to nobody. -/
theorem Consistent.commit (h : Consistent server s) {tx : Uuid} {save : Save Uuid}
    {config : Json} {fileIds detached : List Uuid} {detachedAt : Nat}
    (hrow : s.transactions.row tx = some (.save save))
    (hstage : save.stage = .reconciled config fileIds detached detachedAt)
    (hprojects : ∃ project, t.projects.row save.projectId = some project ∧
      project.buildTemplateId = save.buildTemplateId ∧ project.config = config)
    (hothers : ∀ id, id ≠ save.projectId → t.projects.row id = s.projects.row id)
    (hold : ∀ id project, s.projects.row id = some project →
      ∃ later, t.projects.row id = some later ∧ later.buildTemplateId = project.buildTemplateId)
    (hfiles : t.configFiles =
      s.configFiles.map (commitFile save.projectId fileIds detached detachedAt))
    (huploads : t.uploads = s.uploads) (htransactions : t.transactions = s.transactions.erase tx) :
    Consistent server t := by
  obtain ⟨hsound, hfree⟩ := h.transactions tx _ hrow
  have hlockedFiles : save.stage.lockedFiles = fileIds ++ detached := by rw [hstage]; rfl
  rw [hlockedFiles] at hfree
  have hsame : ∀ id file, s.configFiles.row id = some file → id ∉ fileIds ++ detached →
      t.configFiles.row id = some file := by
    intro id file hfile hid
    rw [hfiles, Table.map_row, hfile, Option.map_some, commitFile_of_not_mem hid]
  have htx : ∀ other transaction, t.transactions.row other = some transaction →
      other ≠ tx ∧ s.transactions.row other = some transaction := by
    intro other transaction hother
    rw [htransactions, Table.erase_row] at hother
    split at hother
    · cases hother
    · rename_i hne
      exact ⟨hne, hother⟩
  constructor
  · intro id file hfile
    rw [hfiles, Table.map_row, Option.map_eq_some_iff] at hfile
    obtain ⟨before, hbefore, rfl⟩ := hfile
    rw [huploads, commitFile_toUpload]
    exact h.uploads id before hbefore
  · intro projectId project hproject
    by_cases hsaved : projectId = save.projectId
    · subst hsaved
      obtain ⟨later, hlater, htemplateId, hconfig⟩ := hprojects
      obtain rfl : later = project := Option.some.inj (hlater.symm.trans hproject)
      intro template schema htemplate hschema leaf hleaf htype value hvalue hnull
      obtain ⟨savedTemplate, hsavedTemplate, hsavedSchema⟩ := hsound.template
      rw [htemplateId, hsavedTemplate] at htemplate
      cases htemplate
      obtain rfl : save.schema = schema := Except.ok.inj (hsavedSchema.symm.trans hschema)
      have hnames := hsound.names
      rw [hstage] at hnames
      obtain ⟨id, hid, file, hfile, hfileTemplate, hfieldName, rfl⟩ :=
        hnames leaf hleaf htype value (hconfig ▸ hvalue) hnull
      obtain ⟨before, hbefore, -⟩ := hfree id (List.mem_append_left _ hid)
      obtain rfl : before.toUpload = file :=
        Option.some.inj ((h.uploads id before hbefore).symm.trans hfile)
      refine ⟨id, commitFile save.projectId fileIds detached detachedAt id before, ?_,
        commitFile_of_mem hid before, ?_, ?_, ?_⟩
      · rw [hfiles, Table.map_row, hbefore, Option.map_some]
      · rw [commitFile_toUpload, hfileTemplate, htemplateId]
      · rw [commitFile_toUpload, hfieldName]
      · rw [commitFile_toUpload]
    · rw [hothers projectId hsaved] at hproject
      refine (h.projects projectId project hproject).mono fun id file hfile howner => ?_
      refine hsame id file hfile fun hid => ?_
      -- a row that was locked belongs to the project of the transaction or to none
      obtain ⟨found, hfound, hnone | hsome⟩ := hfree id hid
      · rw [hfile] at hfound
        cases hfound
        rw [howner] at hnone
        cases hnone
      · rw [hfile] at hfound
        cases hfound
        rw [howner] at hsome
        exact hsaved (Option.some.inj hsome)
  · intro other transaction hother
    obtain ⟨hne, hother⟩ := htx other transaction hother
    have hbefore := h.transactions other transaction hother
    cases transaction with
    | task => trivial
    | save otherSave =>
        refine ⟨hbefore.1.mono (fun _ _ hupload => huploads ▸ hupload) hold, fun id hid => ?_⟩
        obtain ⟨file, hfile, hfileFree⟩ := hbefore.2 id hid
        have hnot : id ∉ fileIds ++ detached := fun hmem =>
          h.locks other tx _ _ hother hrow hne id hid
            (by rw [Transaction.lockedFiles, hlockedFiles]; exact hmem)
        exact ⟨file, hsame id file hfile hnot, hfileFree⟩
  · intro first other transaction otherTransaction hfirst hother hne
    exact h.locks first other transaction otherTransaction (htx _ _ hfirst).2 (htx _ _ hother).2 hne

theorem Consistent.saveStep (h : Consistent server s) {tx : Uuid} {save : Save Uuid} {now : Nat}
    (hrow : s.transactions.row tx = some (.save save))
    (hnext : s.saveStep server tx save now = some t) : Consistent server t := by
  obtain ⟨hsound, hfree⟩ := h.transactions tx _ hrow
  obtain ⟨template, htemplate, hschema⟩ := hsound.template
  have haccepted := accepted_of_validateFormSchema hschema
  have hnames := hsound.names
  unfold State.saveStep at hnext
  split at hnext
  · rename_i leaf remaining next fileIds hstage
    cases hnext
    refine h.proceedSave hsound fun later hlater => ?_
    simp only [bind_eq_ok, pure_eq_ok] at hlater
    obtain ⟨⟨next', fileIds'⟩, hfield, rfl⟩ := hlater
    rw [hstage] at hnames
    obtain ⟨before, hbefore, hall⟩ := hnames
    refine ⟨⟨before ++ [leaf], ?_, hall.canonicalizeField h haccepted hbefore hfield⟩,
      fun _ hid => absurd hid List.not_mem_nil⟩
    rw [List.append_assoc, List.singleton_append, hbefore]
  · rename_i next fileIds hstage
    cases hnext
    refine h.proceedSave hsound fun later hlater => ?_
    simp only [bind_eq_ok, mapError_eq_ok, pure_eq_ok] at hlater
    obtain ⟨config, hconfig, rfl⟩ := hlater
    rw [hstage] at hnames
    exact ⟨hnames.remaining.validate haccepted hconfig, fun _ hid => absurd hid List.not_mem_nil⟩
  · rename_i config fileIds hstage
    rw [hstage] at hnames
    split at hnext
    · cases hnext
    · cases hnext
      refine h.proceedSave hsound fun later hlater => ?_
      cases hlater
      exact ⟨hnames, fun _ hid => absurd hid List.not_mem_nil⟩
  · rename_i config fileIds hstage
    rw [hstage] at hnames
    split at hnext
    · cases hnext
    · rename_i hunlocked
      cases hnext
      refine h.proceedSave hsound fun later hlater => ?_
      simp only [bind_eq_ok, ensure_eq_ok, pure_eq_ok] at hlater
      obtain ⟨-, hlength, rfl⟩ := hlater
      exact ⟨hnames, fun id hid => ⟨isFree_of_bindableFiles hlength id hid,
        any_lockedByOther_eq_false (Bool.eq_false_iff.mpr hunlocked) id hid⟩⟩
  · rename_i config fileIds hstage
    rw [hstage] at hnames
    dsimp only at hnext
    split at hnext
    · cases hnext
    · rename_i hunlocked
      cases hnext
      refine h.proceedSave hsound fun later hlater => ?_
      cases hlater
      refine ⟨hnames, fun id hid => ?_⟩
      rw [SaveStage.lockedFiles, List.mem_append] at hid
      obtain hid | hid := hid
      · refine ⟨hfree id (by rw [hstage]; exact hid), lockedByOther_eq_false.mpr ?_⟩
        exact fun other transaction hother hne => h.locks tx other _ _ hrow hother hne.symm id
          (by rw [Transaction.lockedFiles, hstage]; exact hid)
      · obtain ⟨file, hfile, howner⟩ := isFree_of_detachableFiles id hid
        exact ⟨⟨file, hfile, .inr howner⟩,
          any_lockedByOther_eq_false (Bool.eq_false_iff.mpr hunlocked) id hid⟩
  · rename_i config fileIds detached detachedAt hstage
    simp only [Option.bind_eq_bind, Option.bind_eq_some_iff, Option.pure_def,
      Option.some.injEq] at hnext
    obtain ⟨projects, hprojects, rfl⟩ := hnext
    unfold State.commitProject at hprojects
    split at hprojects
    · have hinsert := Table.insert_row hprojects
      refine h.commit hrow hstage ⟨_, (hinsert _).trans (if_pos rfl), rfl, rfl⟩
        (fun id hne => (hinsert id).trans (if_neg hne)) (fun id project hproject => ?_) rfl rfl rfl
      have hne : id ≠ save.projectId := by
        rintro rfl
        rw [Table.insert_fresh hprojects] at hproject
        cases hproject
      exact ⟨project, (hinsert id).trans ((if_neg hne).trans hproject), rfl⟩
    · rename_i hold
      obtain rfl := Option.some.inj hprojects
      obtain ⟨project, hproject, hsame⟩ := hsound.project (by simpa using hold)
      have hmodified : (s.projects.modify save.projectId fun project =>
          { project with config := config }).row save.projectId =
            some { project with config := config } := by
        rw [Table.modify_row_self, hproject, Option.map_some]
      refine h.commit hrow hstage ⟨_, hmodified, hsame, rfl⟩
        (fun id hne => Table.modify_row_of_ne _ hne _) (fun id found hfound => ?_) rfl rfl rfl
      by_cases hid : id = save.projectId
      · subst hid
        obtain rfl : project = found := Option.some.inj (hproject.symm.trans hfound)
        exact ⟨_, hmodified, rfl⟩
      · exact ⟨found, (Table.modify_row_of_ne _ hid _).trans hfound, rfl⟩

/-! The other steps -/

theorem Consistent.taskStep (h : Consistent server s) (tx : Uuid) (task : TaskCreation Uuid) :
    Consistent server (s.taskStep server tx task) := by
  unfold State.taskStep
  split
  · refine h.proceed fun later hlater => ?_
    simp only [bind_eq_ok, pure_eq_ok] at hlater
    obtain ⟨inputs, -, rfl⟩ := hlater
    exact ⟨trivial, fun _ hid => absurd hid List.not_mem_nil⟩
  · exact (h.erase tx).congr rfl rfl rfl rfl

theorem Consistent.upload (h : Consistent server s) {id : Uuid} {file : Upload Uuid} {now : Nat}
    (hnext : s.upload server id file now = some t) : Consistent server t := by
  unfold State.upload at hnext
  split at hnext
  · cases hnext
    exact h
  · simp only [Option.bind_eq_bind, Option.bind_eq_some_iff, Option.pure_def,
      Option.some.injEq] at hnext
    obtain ⟨uploads, huploads, configFiles, hfiles, rfl⟩ := hnext
    have hkept : ∀ other found, s.configFiles.row other = some found →
        configFiles.row other = some found := by
      intro other found hfound
      rw [Table.insert_row hfiles, if_neg, hfound]
      rintro rfl
      rw [Table.insert_fresh hfiles] at hfound
      cases hfound
    have huploadsKept : ∀ other found, s.uploads.row other = some found →
        uploads.row other = some found := by
      intro other found hfound
      rw [Table.insert_row huploads, if_neg, hfound]
      rintro rfl
      rw [Table.insert_fresh huploads] at hfound
      cases hfound
    constructor
    · intro other found hfound
      rw [Table.insert_row hfiles] at hfound
      split at hfound
      · rename_i hid
        cases hfound
        rw [Table.insert_row huploads, if_pos hid]
      · exact huploadsKept other _ (h.uploads other found hfound)
    · intro projectId project hproject
      exact (h.projects projectId project hproject).mono fun other found hfound _ =>
        hkept other found hfound
    · intro tx transaction hrow
      have hbefore := h.transactions tx transaction hrow
      cases transaction with
      | task => trivial
      | save save =>
          refine ⟨hbefore.1.mono huploadsKept fun _ project hproject =>
            ⟨project, hproject, rfl⟩, fun other hother => ?_⟩
          obtain ⟨found, hfound, hfree⟩ := hbefore.2 other hother
          exact ⟨found, hkept other found hfound, hfree⟩
    · exact h.locks

/-- Deleting a row that belongs to no project and is not locked. -/
theorem Consistent.eraseFile (h : Consistent server s) {id : Uuid}
    (hdeletable : s.isDeletable id = true)
    (hunbound : ∀ file, s.configFiles.row id = some file → file.projectId = none)
    (hprojects : t.projects = s.projects) (hfiles : t.configFiles = s.configFiles.erase id)
    (huploads : t.uploads = s.uploads) (htransactions : t.transactions = s.transactions) :
    Consistent server t := by
  have hkept : ∀ other file, s.configFiles.row other = some file → other ≠ id →
      t.configFiles.row other = some file := by
    intro other file hfile hne
    rw [hfiles, Table.erase_row, if_neg hne, hfile]
  constructor
  · intro other file hfile
    rw [hfiles, Table.erase_row] at hfile
    split at hfile
    · cases hfile
    · rw [huploads]
      exact h.uploads other file hfile
  · intro projectId project hproject
    rw [hprojects] at hproject
    refine (h.projects projectId project hproject).mono fun other file hfile howner => ?_
    refine hkept other file hfile ?_
    rintro rfl
    rw [hunbound file hfile] at howner
    cases howner
  · intro tx transaction hrow
    rw [htransactions] at hrow
    have hbefore := h.transactions tx transaction hrow
    cases transaction with
    | task => trivial
    | save save =>
        refine ⟨hbefore.1.mono (fun _ _ hupload => huploads ▸ hupload) fun _ project hproject =>
          ⟨project, hprojects ▸ hproject, rfl⟩, fun other hother => ?_⟩
        obtain ⟨file, hfile, hfree⟩ := hbefore.2 other hother
        refine ⟨file, hkept other file hfile ?_, hfree⟩
        rintro rfl
        exact isDeletable_locked hdeletable hrow hother
  · rw [htransactions]
    exact h.locks

theorem Consistent.deleteRow (h : Consistent server s) {sweep : Uuid} {succeeds : Bool}
    (hnext : s.deleteRow sweep succeeds = some t) : Consistent server t := by
  unfold State.deleteRow at hnext
  split at hnext
  · rename_i id rows hsweep
    dsimp only at hnext
    split at hnext
    · split at hnext
      · cases hnext
      · rename_i hdeletable
        split at hnext
        · rename_i hguard
          cases hnext
          have hdel : s.isDeletable id = true := by simpa using hdeletable
          refine h.eraseFile hdel ?_ rfl rfl rfl rfl
          intro file hfile
          rw [hfile, Bool.and_eq_true] at hguard
          exact Option.isNone_iff_eq_none.mp hguard.1
        · cases hnext
          exact h.congr rfl rfl rfl rfl
    · cases hnext
      exact h.congr rfl rfl rfl rfl
  · cases hnext

theorem Consistent.advance (h : Consistent server s) {tx : Uuid} {now : Nat}
    (hnext : s.advance server tx now = some t) : Consistent server t := by
  unfold State.advance at hnext
  split at hnext
  · rename_i save hrow
    exact h.saveStep hrow hnext
  · cases hnext
    exact h.taskStep _ _
  · cases hnext

theorem Consistent.selectExpired (h : Consistent server s) {sweep : Uuid} {ids : List Uuid}
    {now : Nat} (hnext : s.selectExpired sweep ids now = some t) : Consistent server t := by
  unfold State.selectExpired at hnext
  split at hnext
  · obtain ⟨sweeps, -, rfl⟩ := Option.map_eq_some_iff.mp hnext
    exact h.congr rfl rfl rfl rfl
  · cases hnext

theorem Consistent.removeFile (h : Consistent server s) {sweep : Uuid} {succeeds : Bool}
    (hnext : s.removeFile sweep succeeds = some t) : Consistent server t := by
  unfold State.removeFile at hnext
  split at hnext
  · cases hnext
    exact h.congr rfl rfl rfl rfl
  · cases hnext

theorem Consistent.next (h : Consistent server s) {event : Event Uuid}
    (hnext : s.next server event = some t) : Consistent server t := by
  cases event with
  | upload => exact h.upload hnext
  | createProject => exact h.createProject hnext
  | saveProjectConfig => exact h.saveProjectConfig hnext
  | createTask => exact h.createTask hnext
  | advance => exact h.advance hnext
  | rollback tx =>
      cases hnext
      exact h.erase tx
  | selectExpired => exact h.selectExpired hnext
  | removeFile => exact h.removeFile hnext
  | deleteRow => exact h.deleteRow hnext

omit [DecidableEq Uuid] in
theorem initialState_consistent (server : Server Uuid) : Consistent server initialState := by
  constructor
  · exact fun _ _ h => by cases h
  · exact fun _ _ h => by cases h
  · exact fun _ _ h => by cases h
  · exact fun _ _ _ _ h => by cases h

theorem consistent_of_reachable (h : (system server).Reachable s) : Consistent server s := by
  refine h.invariant (fun s hs => ?_) fun s t _ hs hstep => ?_
  · cases hs
    exact initialState_consistent server
  · obtain ⟨event, hnext⟩ := hstep
    exact hs.next hnext

/-! The binding of files to projects -/

/-- The configuration of a project has the file at one of its file fields. -/
def UsesFile (server : Server Uuid) (state : State Uuid) (projectId id : Uuid) : Prop :=
  ∃ project template schema leaf value fileId,
    state.projects.row projectId = some project ∧
    server.buildTemplates project.buildTemplateId = some template ∧
    validateFormSchema server.rt template.formSchema = .ok schema ∧
    leaf ∈ listFormFields schema ∧ leaf.field.type = .file ∧
    ownValueAt project.config leaf.path = some value ∧
    value.member? (ofString "fileId") = some (.string fileId) ∧
    server.parseUuid fileId = some id

/-- Every file value of a project stands for a row that is bound to it, and no row is used by two
projects. -/
structure BindingSound (server : Server Uuid) (state : State Uuid) : Prop where
  bound : ∀ projectId project, state.projects.row projectId = some project →
    project.Bound server state projectId
  exclusive : ∀ projectId other id, UsesFile server state projectId id →
    UsesFile server state other id → projectId = other

omit [DecidableEq Uuid] in
theorem publicValue_fileId (id : Uuid) (file : Upload Uuid) :
    (publicValue server id file).member? (ofString "fileId") =
      some (.string (server.formatUuid id)) :=
  rfl

omit [DecidableEq Uuid] in
theorem Consistent.usesFile (h : Consistent server s) {projectId id : Uuid}
    (huses : UsesFile server s projectId id) :
    ∃ file, s.configFiles.row id = some file ∧ file.projectId = some projectId := by
  obtain ⟨project, template, schema, leaf, value, fileId, hproject, htemplate, hschema, hleaf,
    htype, hvalue, hfileId, hparse⟩ := huses
  have hnull : value ≠ .null := by
    rintro rfl
    cases hfileId
  obtain ⟨found, file, hfile, howner, -, -, rfl⟩ :=
    h.projects projectId project hproject template schema htemplate hschema leaf hleaf htype value
      hvalue hnull
  rw [publicValue_fileId, Option.some.injEq, Json.string.injEq] at hfileId
  rw [← hfileId, server.parse_format, Option.some.injEq] at hparse
  exact ⟨file, hparse ▸ hfile, howner⟩

theorem bindingSound_of_reachable (h : (system server).Reachable s) : BindingSound server s := by
  have hs := consistent_of_reachable h
  refine ⟨hs.projects, fun projectId other id huses hother => ?_⟩
  obtain ⟨file, hfile, howner⟩ := hs.usesFile huses
  obtain ⟨otherFile, hotherFile, hotherOwner⟩ := hs.usesFile hother
  rw [hfile] at hotherFile
  cases hotherFile
  exact Option.some.inj (howner.symm.trans hotherOwner)

end Steps

/-! A template with one file -/

def sampleTemplate : Json :=
  .array [.object [
    (ofString "type", .string (ofString "file")),
    (ofString "name", .string (ofString "settings")),
    (ofString "label", .string (ofString "Settings")),
    (ofString "allowedExtensions", .array [.string (ofString ".json")])]]

def sampleUuid : JsString := ofString "3f2b8c1d-5a7e-4c90-8b1f-6d2e9a0c4b57"

/-- One user, one template, one project and one file. -/
def sampleServer : Server Unit where
  rt := noLibrary
  buildTemplates := fun _ => some ⟨true, true, sampleTemplate⟩
  uploadMaxBytes := 1000
  parseUuid := fun s => if s = sampleUuid then some () else none
  formatUuid := fun _ => sampleUuid
  parse_format := fun _ => if_pos rfl

def sampleFile : Upload Unit where
  ownerId := ()
  buildTemplateId := ()
  fieldName := ofString "settings"
  originalName := ofString "app.json"
  size := 2
  sha256 := ofString "44136fa355b3678a1146ad16f7e8649e94fb4fc21fe77e8310c060f61caaff8a"

def sampleConfig : Json :=
  .object [(ofString "settings", publicValue sampleServer () sampleFile)]

/-- A project takes an upload that is about to expire. -/
def sampleEvents : List (Event Unit) :=
  [.upload () sampleFile 0, .createProject () ⟨(), false⟩ () () sampleConfig,
    .advance () 86399999, .advance () 86399999, .advance () 86399999,
    .advance () 86400001, .advance () 86400001, .advance () 86400001]

theorem eq_of_asString {value : Option Json} {text : JsString} (h : asString value = some text) :
    value = some (.string text) := by
  unfold asString at h
  split at h
  · cases h
    rfl
  · cases h

theorem bindingSound_sampleEvents :
    ∃ s, initialState.run sampleServer sampleEvents = some s ∧
      UsesFile sampleServer s () () ∧ BindingSound sampleServer s := by
  have hrun : (initialState.run sampleServer sampleEvents).any (fun s =>
      (s.projects.row ()).any (fun project =>
        (ownValueAt project.config [ofString "settings"]).any (fun value =>
          asString (value.member? (ofString "fileId")) == some sampleUuid))) = true := by
    decide +kernel
  obtain ⟨s, hs, huses⟩ := (Option.any_eq_true ..).mp hrun
  refine ⟨s, hs, ?_, bindingSound_of_reachable (reachable_of_run (.init rfl) hs)⟩
  obtain ⟨project, hproject, hconfig⟩ := (Option.any_eq_true ..).mp huses
  obtain ⟨value, hvalue, hfileId⟩ := (Option.any_eq_true ..).mp hconfig
  exact ⟨project, _, _, _, value, sampleUuid, hproject, rfl, rfl, List.mem_cons_self, rfl, hvalue,
    eq_of_asString (beq_iff_eq.mp hfileId), sampleServer.parse_format ()⟩

end AnvilRun.ConfigFiles
