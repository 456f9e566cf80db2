import Mathlib.Data.List.Dedup
import AnvilRun.Fallible
import AnvilRun.FormSchema.FileFields
import AnvilRun.Table
import AnvilRun.TransitionSystem

namespace AnvilRun.ConfigFiles

open Fallible
open Form
open JsString
open ValidationPrimitives

/-! The tables -/

/-- What an upload records about its file, once and for all. -/
structure Upload (Uuid : Type) where
  ownerId : Uuid
  buildTemplateId : Uuid
  fieldName : JsString
  originalName : JsString
  size : Nat
  sha256 : JsString

structure ConfigFile (Uuid : Type) extends Upload Uuid where
  projectId : Option Uuid
  expiresAt : Option Nat

structure Project (Uuid : Type) where
  ownerId : Uuid
  buildTemplateId : Uuid
  config : Json

structure BuildTemplate where
  enabled : Bool
  agentEnabled : Bool
  formSchema : Json

structure BuildTaskInputFile (Uuid : Type) where
  configFileId : Uuid
  fieldName : JsString
  targetRelativePath : JsString
  originalName : JsString
  size : Nat
  sha256 : JsString

structure Actor (Uuid : Type) where
  id : Uuid
  isAdmin : Bool

inductive ApiException where
  | configFileInvalid | configFileTooLarge | configFileReferenceInvalid
  | projectConfigInvalid | buildTemplateInvalid | agentDisabled | resourceNotFound

/-- The templates, the library, and how the database reads and writes a UUID. -/
structure Server (Uuid : Type) where
  rt : JsRuntime
  buildTemplates : Uuid → Option BuildTemplate
  uploadMaxBytes : Nat
  parseUuid : JsString → Option Uuid
  formatUuid : Uuid → JsString
  parse_format : ∀ id, parseUuid (formatUuid id) = some id

/-! Transactions that are open -/

/-- How far a transaction that saves a configuration is. -/
inductive SaveStage (Uuid : Type) where
  | canonicalizing (remaining : List FormFieldPath) (next : Json) (fileIds : List Uuid)
  | canonicalized (config : Json) (fileIds : List Uuid)
  /-- The project is written, and its row is locked unless it is new. -/
  | written (config : Json) (fileIds : List Uuid)
  | bound (config : Json) (fileIds : List Uuid)
  | reconciled (config : Json) (fileIds detached : List Uuid) (detachedAt : Nat)

/-- `createProject` or `saveProjectConfig`. -/
structure Save (Uuid : Type) where
  actor : Actor Uuid
  projectId : Uuid
  isNew : Bool
  buildTemplateId : Uuid
  schema : FormSchema
  stage : SaveStage Uuid

/-- `createTask`, with the inputs that it has written. -/
structure TaskCreation (Uuid : Type) where
  projectId : Uuid
  buildTemplateId : Uuid
  config : Json
  remaining : List FormFieldPath
  inputs : List (BuildTaskInputFile Uuid)

inductive Transaction (Uuid : Type) where
  | save (save : Save Uuid)
  | task (task : TaskCreation Uuid)

/-- A run of `cleanupExpired`: the rows that it still has to process, and whether it has already
removed the file of the first one. -/
structure Sweep (Uuid : Type) where
  rows : List Uuid
  fileRemoved : Bool

/-- What is committed, the transactions that are open, the runs of the cleanup and the files on
disk. `uploads` are all uploads so far: a UUID is never given twice. -/
structure State (Uuid : Type) where
  projects : Table Uuid (Project Uuid)
  configFiles : Table Uuid (ConfigFile Uuid)
  taskInputs : List (BuildTaskInputFile Uuid)
  transactions : Table Uuid (Transaction Uuid)
  sweeps : Table Uuid (Sweep Uuid)
  stored : Uuid → Bool
  uploads : Table Uuid (Upload Uuid)

variable {Uuid : Type}

def initialState : State Uuid where
  projects := .empty
  configFiles := .empty
  taskInputs := []
  transactions := .empty
  sweeps := .empty
  stored := fun _ => false
  uploads := .empty

def dayMilliseconds : Nat := 24 * 60 * 60 * 1000

/-- `Number.MAX_SAFE_INTEGER`. -/
def maxSafeInteger : Nat := 9007199254740991

/-! `ConfigFilesService` -/

/-- `UUID` of the service, which only asks for 36 hexadecimal digits and hyphens. -/
def matchesFileId (s : JsString) : Bool :=
  s.length == 36 && (asciiLower s).all (fun u => isHexUnit u || u == 45)

/-- `RESERVED`: a device name of Windows, alone or before a dot. -/
def isReservedName (s : JsString) : Bool :=
  let lower := asciiLower s
  let isDevice := fun device : JsString =>
    device.isPrefixOf lower &&
      ((lower.drop device.length).isEmpty || (lower.drop device.length).head? == some 46)
  (["con", "prn", "aux", "nul"].any (fun device => isDevice (ofString device))) ||
    (["com", "lpt"].any (fun device =>
      (["1", "2", "3", "4", "5", "6", "7", "8", "9"].any (fun digit =>
        isDevice (ofString device ++ ofString digit)))))

/-- `safeName`. The base name of a text without a slash is the text. -/
def safeName (s : JsString) : Bool :=
  s != ofString "." && s != ofString ".." && !s.contains 47 && !s.contains 92 &&
    s.all (fun u => decide (32 ≤ u) && u != 127) && decide (utf8Length s ≤ 255) &&
    !isReservedName s

/-- `publicValue`. -/
def publicValue (server : Server Uuid) (id : Uuid) (file : Upload Uuid) : Json :=
  .object [(ofString "fileId", .string (server.formatUuid id)),
    (ofString "fileName", .string file.originalName),
    (ofString "size", .number (.finite file.size)),
    (ofString "sha256", .string file.sha256)]

/-- The file field that `upload` looks for. -/
def fileFieldNamed (schema : FormSchema) (fieldName : JsString) : Option FormField :=
  match (listFormFields schema).find? (fun leaf => joinPath leaf.path == fieldName) with
  | some leaf => if leaf.field.type = .file then some leaf.field else none
  | none => none

/-- The checks of `upload`, for a body that has the declared length. -/
def checkUpload (server : Server Uuid) (file : Upload Uuid) : Except ApiException Unit := do
  ensure (safeName file.originalName = true) .configFileInvalid
  let template ← require (server.buildTemplates file.buildTemplateId) .configFileInvalid
  let schema ← (validateFormSchema server.rt template.formSchema).mapError
    (fun _ => .configFileInvalid)
  let field ← require (fileFieldNamed schema file.fieldName) .configFileInvalid
  ensure (template.enabled = true) .configFileInvalid
  ensure (file.size ≤ maxSafeInteger) .configFileInvalid
  ensure ((file.size : Rat) ≤ min (field.maxSizeBytes.getD formFileDefaultMaxBytes)
    server.uploadMaxBytes) .configFileTooLarge
  ensure (fileMatchesField server.rt field file.originalName file.size = true) .configFileInvalid

/-- The text of `fileId` in a candidate, or the empty text. -/
def fileIdOf : Found → JsString
  | .json (.object members) =>
      match Json.member? (ofString "fileId") (.object members) with
      | some (.string fileId) => fileId
      | _ => []
  | _ => []

section Requests

variable [DecidableEq Uuid]

/-- Whether the row that was found may be used for a field. `projectId` is none for a new
project. -/
def acceptsReference (server : Server Uuid) (ownerId : Uuid) (projectId : Option Uuid)
    (templateId : Uuid) (now : Nat) (leaf : FormFieldPath) (file : ConfigFile Uuid) : Bool :=
  let attachedToCurrentProject := decide (projectId ≠ none ∧ file.projectId = projectId)
  let validPendingOwner := decide (file.projectId = none ∧ file.ownerId = ownerId)
  (attachedToCurrentProject || validPendingOwner) &&
    decide (file.buildTemplateId = templateId) && file.fieldName == joinPath leaf.path &&
    (file.projectId.isSome || file.expiresAt.any (fun expiresAt => now < expiresAt)) &&
    fileMatchesField server.rt leaf.field file.originalName file.size

/-- One round of the loop of `canonicalizeConfig`: the next configuration and the files so far. -/
def canonicalizeField (server : Server Uuid) (configFiles : Table Uuid (ConfigFile Uuid))
    (ownerId : Uuid) (projectId : Option Uuid) (templateId : Uuid) (now : Nat)
    (leaf : FormFieldPath) (next : Json) (fileIds : List Uuid) :
    Except ApiException (Json × List Uuid) :=
  if leaf.field.type ≠ .file then return (next, fileIds)
  else
    match valueAtPath (.json next) leaf.path with
    | none | some (.json .null) => return (next, fileIds)
    | some candidate => do
        let fileId := fileIdOf candidate
        ensure (matchesFileId fileId = true) .configFileReferenceInvalid
        let id ← require (server.parseUuid fileId) .configFileReferenceInvalid
        let file ← require (configFiles.row id) .configFileReferenceInvalid
        ensure (acceptsReference server ownerId projectId templateId now leaf file = true)
          .configFileReferenceInvalid
        return (setValueAtPath next leaf.path (publicValue server id file.toUpload),
          fileIds ++ [id])

/-- The condition of the update of `bindFiles`. -/
def isBindable (ownerId projectId : Uuid) (file : ConfigFile Uuid) : Bool :=
  decide (file.ownerId = ownerId ∧ file.projectId = none ∨ file.projectId = some projectId)

/-- The rows that the update of `bindFiles` changes. -/
def bindableFiles (configFiles : Table Uuid (ConfigFile Uuid)) (ownerId projectId : Uuid)
    (fileIds : List Uuid) : List Uuid :=
  fileIds.dedup.filter (fun id => (configFiles.row id).any (isBindable ownerId projectId))

/-- The rows that the second update of `reconcileProjectFiles` changes. -/
def detachableFiles (configFiles : Table Uuid (ConfigFile Uuid)) (projectId : Uuid)
    (fileIds : List Uuid) : List Uuid :=
  (configFiles.entries.filter (fun entry =>
    decide (entry.2.projectId = some projectId) && !fileIds.contains entry.1)).map Prod.fst

/-- The row of a file after the commit of a transaction that has bound and detached files. -/
def commitFile (projectId : Uuid) (fileIds detached : List Uuid) (detachedAt : Nat) (id : Uuid)
    (file : ConfigFile Uuid) : ConfigFile Uuid :=
  if fileIds.contains id then { file with projectId := some projectId, expiresAt := none }
  else if detached.contains id then
    { file with projectId := none, expiresAt := some (detachedAt + dayMilliseconds) }
  else file

/-! Locks -/

/-- The rows of files that a transaction has changed. -/
def SaveStage.lockedFiles : SaveStage Uuid → List Uuid
  | .bound _ fileIds => fileIds
  | .reconciled _ fileIds detached _ => fileIds ++ detached
  | _ => []

def Transaction.lockedFiles : Transaction Uuid → List Uuid
  | .save s => s.stage.lockedFiles
  | .task _ => []

/-- The row of a project that a transaction has changed. -/
def Transaction.lockedProject : Transaction Uuid → Option Uuid
  | .save s =>
      match s.stage with
      | .canonicalizing .. | .canonicalized .. => none
      | _ => if s.isNew then none else some s.projectId
  | .task _ => none

/-- The rows that foreign keys of new inputs keep from being deleted. -/
def Transaction.referencedFiles : Transaction Uuid → List Uuid
  | .save _ => []
  | .task t => t.inputs.map BuildTaskInputFile.configFileId

namespace State

def lockedByOther (state : State Uuid) (tx id : Uuid) : Bool :=
  state.transactions.entries.any (fun entry =>
    decide (entry.1 ≠ tx) && entry.2.lockedFiles.contains id)

def projectLockedByOther (state : State Uuid) (tx projectId : Uuid) : Bool :=
  state.transactions.entries.any (fun entry =>
    decide (entry.1 ≠ tx) && decide (entry.2.lockedProject = some projectId))

/-- A row that can be deleted now. -/
def isDeletable (state : State Uuid) (id : Uuid) : Bool :=
  !state.transactions.entries.any (fun entry =>
    entry.2.lockedFiles.contains id || entry.2.referencedFiles.contains id)

/-- Whether a task has the file among its inputs. -/
def isTaskInput (state : State Uuid) (id : Uuid) : Bool :=
  state.taskInputs.any (fun input => input.configFileId = id)

/-! The steps -/

/-- A new transaction, with the first query behind it. -/
def start (state : State Uuid) (tx : Uuid) (transaction : Except ApiException (Transaction Uuid)) :
    Option (State Uuid) :=
  match transaction with
  | .ok transaction =>
      (state.transactions.insert tx transaction).map
        (fun transactions => { state with transactions := transactions })
  | .error _ => some state

/-- The transaction goes on, or an exception rolls it back. -/
def proceed (state : State Uuid) (tx : Uuid)
    (transaction : Except ApiException (Transaction Uuid)) : State Uuid :=
  match transaction with
  | .ok transaction =>
      { state with transactions := state.transactions.modify tx (fun _ => transaction) }
  | .error _ => { state with transactions := state.transactions.erase tx }

def proceedSave (state : State Uuid) (tx : Uuid) (save : Save Uuid)
    (stage : Except ApiException (SaveStage Uuid)) : State Uuid :=
  state.proceed tx (stage.map (fun stage => .save { save with stage := stage }))

/-- `upload`, with the file and its row as one step: no other step sees the file alone. -/
def upload (server : Server Uuid) (state : State Uuid) (id : Uuid) (file : Upload Uuid)
    (now : Nat) : Option (State Uuid) :=
  match checkUpload server file with
  | .error _ => some state
  | .ok () => do
      let uploads ← state.uploads.insert id file
      let configFiles ← state.configFiles.insert id
        { file with projectId := none, expiresAt := some (now + dayMilliseconds) }
      return { state with
        uploads := uploads
        configFiles := configFiles
        stored := fun other => if other = id then true else state.stored other }

/-- The object that `canonicalizeConfig` starts from. -/
def copyOf (input : Json) : Except ApiException Json :=
  if isPlainObject input then .ok input else .error .projectConfigInvalid

/-- The first query of `createProject`. -/
def createProject (server : Server Uuid) (state : State Uuid) (tx : Uuid) (actor : Actor Uuid)
    (projectId templateId : Uuid) (input : Json) : Option (State Uuid) :=
  state.start tx (do
    let template ← require (server.buildTemplates templateId) .resourceNotFound
    ensure (template.enabled = true) .buildTemplateInvalid
    let schema ← (validateFormSchema server.rt template.formSchema).mapError
      (fun _ => .buildTemplateInvalid)
    let next ← copyOf input
    return .save ⟨actor, projectId, true, templateId, schema,
      .canonicalizing (listFormFields schema) next []⟩)

/-- `projectScope`. -/
def findProject (state : State Uuid) (actor : Actor Uuid) (projectId : Uuid) :
    Except ApiException (Project Uuid) := do
  let project ← require (state.projects.row projectId) .resourceNotFound
  ensure (actor.isAdmin = true ∨ project.ownerId = actor.id) .resourceNotFound
  return project

/-- The first query of `saveProjectConfig`. -/
def saveProjectConfig (server : Server Uuid) (state : State Uuid) (tx : Uuid) (actor : Actor Uuid)
    (projectId : Uuid) (input : Json) : Option (State Uuid) :=
  state.start tx (do
    let project ← state.findProject actor projectId
    let template ← require (server.buildTemplates project.buildTemplateId) .resourceNotFound
    let schema ← (validateFormSchema server.rt template.formSchema).mapError
      (fun _ => .buildTemplateInvalid)
    let next ← copyOf input
    return .save ⟨actor, projectId, false, project.buildTemplateId, schema,
      .canonicalizing (listFormFields schema) next []⟩)

/-- The project that a transaction has written, once it is committed. -/
def commitProject (state : State Uuid) (save : Save Uuid) (config : Json) :
    Option (Table Uuid (Project Uuid)) :=
  if save.isNew then
    state.projects.insert save.projectId ⟨save.actor.id, save.buildTemplateId, config⟩
  else some (state.projects.modify save.projectId (fun project => { project with config := config }))

/-- The next step of a transaction that saves a configuration; none when it has to wait. -/
def saveStep (server : Server Uuid) (state : State Uuid) (tx : Uuid) (save : Save Uuid)
    (now : Nat) : Option (State Uuid) :=
  match save.stage with
  | .canonicalizing (leaf :: remaining) next fileIds =>
      some (state.proceedSave tx save (do
        let (next, fileIds) ← canonicalizeField server state.configFiles save.actor.id
          (if save.isNew then none else some save.projectId) save.buildTemplateId now leaf next
          fileIds
        return .canonicalizing remaining next fileIds))
  | .canonicalizing [] next fileIds =>
      some (state.proceedSave tx save (do
        let config ← (validateFormConfigValues server.rt save.schema next).mapError
          (fun _ => .projectConfigInvalid)
        return .canonicalized config fileIds))
  | .canonicalized config fileIds =>
      if save.isNew = false ∧ state.projectLockedByOther tx save.projectId = true then none
      else some (state.proceedSave tx save (.ok (.written config fileIds)))
  | .written config fileIds =>
      if fileIds.any (state.lockedByOther tx) then none
      else some (state.proceedSave tx save (do
        let changed := bindableFiles state.configFiles save.actor.id save.projectId fileIds
        ensure (changed.length = fileIds.dedup.length) .configFileReferenceInvalid
        return .bound config fileIds))
  | .bound config fileIds =>
      let detached := detachableFiles state.configFiles save.projectId fileIds
      if detached.any (state.lockedByOther tx) then none
      else some (state.proceedSave tx save (.ok (.reconciled config fileIds detached now)))
  | .reconciled config fileIds detached detachedAt => do
      let projects ← state.commitProject save config
      return { state with
        projects := projects
        configFiles := state.configFiles.map
          (commitFile save.projectId fileIds detached detachedAt)
        transactions := state.transactions.erase tx }

/-- The first queries of the transaction of `createTask`. -/
def createTask (server : Server Uuid) (state : State Uuid) (tx : Uuid) (actor : Actor Uuid)
    (projectId : Uuid) : Option (State Uuid) :=
  state.start tx (do
    let project ← state.findProject actor projectId
    let template ← require (server.buildTemplates project.buildTemplateId) .resourceNotFound
    ensure (template.enabled = true) .buildTemplateInvalid
    ensure (template.agentEnabled = true) .agentDisabled
    let schema ← (validateFormSchema server.rt template.formSchema).mapError
      (fun _ => .buildTemplateInvalid)
    let config ← (validateFormConfigValues server.rt schema project.config).mapError
      (fun _ => .projectConfigInvalid)
    return .task ⟨projectId, project.buildTemplateId, config,
      (listFormFields schema).filter (fun leaf => leaf.field.type = .file), []⟩)

/-- The value of a file field in the configuration of a task, when it has a member `fileId`. -/
def fileReference (config : Json) (path : List JsString) : Option JsString :=
  match ownValueAt config path with
  | some (.object members) =>
      (Json.member? (ofString "fileId") (.object members)).map (fun fileId =>
        match fileId with
        | .string s => s
        | _ => [])
  | _ => none

/-- One round of the loop over the file fields of a task. -/
def createInput (server : Server Uuid) (state : State Uuid) (task : TaskCreation Uuid)
    (path : List JsString) : Except ApiException (List (BuildTaskInputFile Uuid)) :=
  match fileReference task.config path with
  | none => return []
  | some fileId => do
      ensure (fileId ≠ []) .configFileReferenceInvalid
      let id ← require (server.parseUuid fileId) .configFileReferenceInvalid
      let file ← require (state.configFiles.row id) .configFileReferenceInvalid
      ensure (file.projectId = some task.projectId ∧
        file.buildTemplateId = task.buildTemplateId ∧ file.fieldName = joinPath path)
        .configFileReferenceInvalid
      return [⟨id, joinPath path,
        ofString ".anvilrun/inputs/" ++ joinPath path ++ ofString "/" ++ file.originalName,
        file.originalName, file.size, file.sha256⟩]

/-- The next step of a transaction that creates a task; the last one is its commit. -/
def taskStep (server : Server Uuid) (state : State Uuid) (tx : Uuid) (task : TaskCreation Uuid) :
    State Uuid :=
  match task.remaining with
  | leaf :: remaining =>
      state.proceed tx (do
        let inputs ← state.createInput server task leaf.path
        return .task { task with remaining := remaining, inputs := task.inputs ++ inputs })
  | [] =>
      { state with
        taskInputs := state.taskInputs ++ task.inputs
        transactions := state.transactions.erase tx }

/-- The next step of a transaction. -/
def advance (server : Server Uuid) (state : State Uuid) (tx : Uuid) (now : Nat) :
    Option (State Uuid) :=
  match state.transactions.row tx with
  | some (.save save) => state.saveStep server tx save now
  | some (.task task) => some (state.taskStep server tx task)
  | none => none

/-- What `cleanupExpired` selects. -/
def isExpired (state : State Uuid) (now : Nat) (id : Uuid) : Bool :=
  (state.configFiles.row id).any (fun file =>
    file.projectId.isNone && file.expiresAt.any (fun expiresAt => expiresAt < now)) &&
    !state.isTaskInput id

/-- The query of `cleanupExpired`, for any 100 of the rows. -/
def selectExpired (state : State Uuid) (sweep : Uuid) (ids : List Uuid) (now : Nat) :
    Option (State Uuid) :=
  if ids.length ≤ 100 ∧ ids.Nodup ∧ ids.all (state.isExpired now) = true then
    (state.sweeps.insert sweep ⟨ids, false⟩).map (fun sweeps => { state with sweeps := sweeps })
  else none

/-- `fs.rm` of the first row, whose failure is ignored. -/
def removeFile (state : State Uuid) (sweep : Uuid) (succeeds : Bool) : Option (State Uuid) :=
  match state.sweeps.row sweep with
  | some ⟨id :: rows, false⟩ =>
      some { state with
        stored := fun other => if succeeds = true ∧ other = id then false else state.stored other
        sweeps := state.sweeps.modify sweep (fun _ => ⟨id :: rows, true⟩) }
  | _ => none

/-- `deleteMany` of the first row, whose failure is ignored too. -/
def deleteRow (state : State Uuid) (sweep : Uuid) (succeeds : Bool) : Option (State Uuid) :=
  match state.sweeps.row sweep with
  | some ⟨id :: rows, true⟩ =>
      let next := { state with sweeps := state.sweeps.modify sweep (fun _ => ⟨rows, false⟩) }
      if succeeds then
        if state.isDeletable id = false then none
        else if (state.configFiles.row id).any (fun file => file.projectId.isNone) &&
            !state.isTaskInput id then
          some { next with configFiles := state.configFiles.erase id }
        else some next
      else some next
  | _ => none

end State

/-- What may happen next. -/
inductive Event (Uuid : Type) where
  | upload (id : Uuid) (file : Upload Uuid) (now : Nat)
  | createProject (tx : Uuid) (actor : Actor Uuid) (projectId templateId : Uuid) (input : Json)
  | saveProjectConfig (tx : Uuid) (actor : Actor Uuid) (projectId : Uuid) (input : Json)
  | createTask (tx : Uuid) (actor : Actor Uuid) (projectId : Uuid)
  | advance (tx : Uuid) (now : Nat)
  /-- A transaction fails: by a deadlock, a timeout or a lost connection. -/
  | rollback (tx : Uuid)
  | selectExpired (sweep : Uuid) (ids : List Uuid) (now : Nat)
  | removeFile (sweep : Uuid) (succeeds : Bool)
  | deleteRow (sweep : Uuid) (succeeds : Bool)

/-- The state after an event, if the event can happen. -/
def State.next (server : Server Uuid) (state : State Uuid) : Event Uuid → Option (State Uuid)
  | .upload id file now => state.upload server id file now
  | .createProject tx actor projectId templateId input =>
      state.createProject server tx actor projectId templateId input
  | .saveProjectConfig tx actor projectId input =>
      state.saveProjectConfig server tx actor projectId input
  | .createTask tx actor projectId => state.createTask server tx actor projectId
  | .advance tx now => state.advance server tx now
  | .rollback tx => some { state with transactions := state.transactions.erase tx }
  | .selectExpired sweep ids now => state.selectExpired sweep ids now
  | .removeFile sweep succeeds => state.removeFile sweep succeeds
  | .deleteRow sweep succeeds => state.deleteRow sweep succeeds

/-- The server, its database and its files, in any order of events. -/
def system (server : Server Uuid) : TransitionSystem (State Uuid) where
  init := fun state => state = initialState
  step := fun state after => ∃ event, state.next server event = some after

/-- A run of events that can all happen. -/
def State.run (server : Server Uuid) (state : State Uuid) (events : List (Event Uuid)) :
    Option (State Uuid) :=
  events.foldlM (State.next server) state

theorem State.run_cons {server : Server Uuid} {s t : State Uuid} {event : Event Uuid}
    (h : s.next server event = some t) (events : List (Event Uuid)) :
    s.run server (event :: events) = t.run server events := by
  rw [State.run, List.foldlM_cons, h, Option.bind_eq_bind, Option.bind_some, State.run]

theorem reachable_of_run {server : Server Uuid} {s t : State Uuid} {events : List (Event Uuid)}
    (hs : (system server).Reachable s) (h : s.run server events = some t) :
    (system server).Reachable t := by
  induction events generalizing s with
  | nil =>
      cases h
      exact hs
  | cons event events ih =>
      rw [State.run, List.foldlM_cons, Option.bind_eq_bind, Option.bind_eq_some_iff] at h
      obtain ⟨m, hm, hrest⟩ := h
      exact ih (.step hs ⟨event, hm⟩) hrest

end Requests

end AnvilRun.ConfigFiles
