import AnvilRun.ArtifactsService
import AnvilRun.LockChain
import AnvilRun.TransitionSystem

namespace AnvilRun.ArtifactUploads

open AnvilRun.ArtifactsService
open AnvilRun.Fallible
open AnvilRun.TaskDatabase
open AnvilRun.TaskQueue
open AnvilRun.ValidationPrimitives
open JsString

/-- What the service asks of its surroundings. `sha256` is the digest in lower case hexadecimals. -/
structure Host where
  environment : Environment
  artifacts : ArtifactHost
  sha256 : List UInt8 → JsString

/-- The place of a file: the directory of a task and a path in it, as the file system tells them
apart. -/
abbrev Place := JsString × JsString

def Host.place (host : Host) (directory relativePath : JsString) : Place :=
  (host.artifacts.identityPath directory, host.artifacts.identityPath relativePath)

/-- The database, and the regular files below the root. -/
structure Store where
  db : Db
  files : Place → Option (List UInt8)

/-- Whether a file has the size and the digest of an artifact. -/
def Host.Matches (host : Host) (artifact : Artifact) (content : List UInt8) : Prop :=
  content.length = artifact.size ∧ host.sha256 content = artifact.sha256

namespace Store

def write (store : Store) (place : Place) (content : List UInt8) : Store :=
  { store with files := Function.update store.files place (some content) }

def append (store : Store) (place : Place) (chunk : List UInt8) : Store :=
  { store with files :=
      Function.update store.files place ((store.files place).map (fun content => content ++ chunk)) }

def remove (store : Store) (place : Place) : Store :=
  { store with files := Function.update store.files place none }

/-- `fs.rm` with `force`, whose errors are dropped. -/
def tryRemove (store : Store) (place : Place) (removed : Bool) : Store :=
  if removed then store.remove place else store

/-- The artifacts with an upload time at those that a condition picks. -/
def markWhere (store : Store) (now : Time) (picked : Artifact → Bool) : Store :=
  { store with db := { store.db with
      artifacts := store.db.artifacts.map (fun row =>
        if picked row then { row with uploadedAt := some now } else row) } }

def isRowOf (artifact row : Artifact) : Bool :=
  row.taskId == artifact.taskId && row.relativePath == artifact.relativePath

/-- `artifact.update`. -/
def update (store : Store) (artifact : Artifact) (now : Time) : Store :=
  store.markWhere now (isRowOf artifact)

/-- `artifact.updateMany` where there is no upload time. -/
def restore (store : Store) (artifact : Artifact) (now : Time) : Store :=
  store.markWhere now (fun row => isRowOf artifact row && row.uploadedAt.isNone)

end Store

/-- The artifacts of a task. -/
def Store.rows (store : Store) (taskId : Id) : List Artifact :=
  store.db.artifacts.filter (fun row => decide (row.taskId = taskId))

/-! `uploadFromAgent` -/

/-- The lookup of an artifact, with its checks. -/
def findUpload (env : Environment) (now : Time) (db : Db) (taskId leaseToken relativePath : JsString) :
    Except Failure Artifact := do
  let id := asciiLower taskId
  let artifact ← require (db.artifacts.find? (fun row =>
    row.taskId == id && row.relativePath == relativePath)) (.api .resourceNotFound)
  let task ← require (db.tasks.row id) .database
  let agent ← require (db.agents.row task.agentId) .database
  ensure (agent.enabled ∧ agent.status = .online) (.api .taskLeaseInvalid)
  ensure (leaseOfUploading env now agent id task leaseToken) (.api .taskLeaseInvalid)
  return artifact

/-- Where a call is: in front of its turn, inside with what it knows, and behind its turn. The file
called `temporary` is one next to the final one. -/
inductive Progress where
  | waiting
  | looking
  | found (artifact : Artifact)
  | prepared (artifact : Artifact)
  | existing (artifact : Artifact)
  | verified (artifact : Artifact)
  | absent (artifact : Artifact)
  | writing (artifact : Artifact) (temporary : JsString) (body : List UInt8)
  | closed (artifact : Artifact) (temporary : JsString)
  | measured (artifact : Artifact) (temporary : JsString)
  | clear (artifact : Artifact) (temporary : JsString)
  | moved (artifact : Artifact) (temporary : JsString)
  | cleaning (temporary : JsString) (moved : Bool)
  | removing
  | leaving
  | done

structure Upload where
  taskId : JsString
  leaseToken : JsString
  relativePath : JsString
  progress : Progress

def Upload.key (upload : Upload) : JsString :=
  upload.taskId ++ 58 :: upload.relativePath

def Upload.finalPlace (host : Host) (upload : Upload) : Place :=
  host.place upload.taskId upload.relativePath

def Upload.temporaryPlace (host : Host) (upload : Upload) (temporary : JsString) : Place :=
  host.place upload.taskId temporary

/-- What is told apart of the steps of a call: the opening of a temporary file, and an update of a
row that is committed although the call gets an error. -/
inductive Action where
  | goOn
  | openTemporary (temporary : JsString)
  | loseUpdate

/-- The steps of a call inside its turn. Whatever it awaits may fail, and a check that throws is such
a failure. -/
inductive Upload.Step (host : Host) (store : Store) (upload : Upload) :
    Action → Store → Progress → Prop
  | look {now : Time} {artifact : Artifact} (hprogress : upload.progress = .looking)
      (hfound : findUpload host.environment now store.db upload.taskId upload.leaseToken
        upload.relativePath = .ok artifact) :
      Step host store upload .goOn store (.found artifact)
  | prepare {artifact : Artifact} (hprogress : upload.progress = .found artifact) :
      Step host store upload .goOn store (.prepared artifact)
  -- an artifact that has been uploaded is only compared with its file
  | compare {artifact : Artifact} (hprogress : upload.progress = .prepared artifact)
      (huploaded : artifact.uploadedAt ≠ none) : Step host store upload .goOn store .leaving
  | existing {artifact : Artifact} (hprogress : upload.progress = .prepared artifact)
      (hnew : artifact.uploadedAt = none)
      (hfile : store.files (upload.finalPlace host) ≠ none) :
      Step host store upload .goOn store (.existing artifact)
  | absent {artifact : Artifact} (hprogress : upload.progress = .prepared artifact)
      (hnew : artifact.uploadedAt = none)
      (hfile : store.files (upload.finalPlace host) = none) :
      Step host store upload .goOn store (.absent artifact)
  | hash {artifact : Artifact} {content : List UInt8}
      (hprogress : upload.progress = .existing artifact)
      (hfile : store.files (upload.finalPlace host) = some content)
      (hmatches : host.Matches artifact content) :
      Step host store upload .goOn store (.verified artifact)
  | restore {artifact : Artifact} (now : Time) (hprogress : upload.progress = .verified artifact) :
      Step host store upload .goOn (store.restore artifact now) .leaving
  | openNew {artifact : Artifact} {suffix : JsString}
      (hprogress : upload.progress = .absent artifact)
      (hfile : store.files (upload.temporaryPlace host
        (upload.relativePath ++ ofString ".tmp-" ++ suffix)) = none) :
      Step host store upload
        (.openTemporary (upload.relativePath ++ ofString ".tmp-" ++ suffix))
        (store.write (upload.temporaryPlace host
          (upload.relativePath ++ ofString ".tmp-" ++ suffix)) [])
        (.writing artifact (upload.relativePath ++ ofString ".tmp-" ++ suffix) [])
  | openExisting {artifact : Artifact} {suffix : JsString}
      (hprogress : upload.progress = .absent artifact) :
      Step host store upload
        (.openTemporary (upload.relativePath ++ ofString ".tmp-" ++ suffix)) store
        (.cleaning (upload.relativePath ++ ofString ".tmp-" ++ suffix) false)
  | write {artifact : Artifact} {temporary : JsString} {body : List UInt8} (chunk : List UInt8)
      (hprogress : upload.progress = .writing artifact temporary body)
      (hsize : (body ++ chunk).length ≤ artifact.size ∧ (body ++ chunk).length ≤ maxArtifactBytes) :
      Step host store upload .goOn (store.append (upload.temporaryPlace host temporary) chunk)
        (.writing artifact temporary (body ++ chunk))
  | writeFailed {artifact : Artifact} {temporary : JsString} {body : List UInt8}
      (written : List UInt8) (hprogress : upload.progress = .writing artifact temporary body) :
      Step host store upload .goOn (store.append (upload.temporaryPlace host temporary) written)
        (.cleaning temporary false)
  | close {artifact : Artifact} {temporary : JsString} {body : List UInt8}
      (hprogress : upload.progress = .writing artifact temporary body)
      (hmatches : host.Matches artifact body) :
      Step host store upload .goOn store (.closed artifact temporary)
  | measure {artifact : Artifact} {temporary : JsString} {content : List UInt8}
      (hprogress : upload.progress = .closed artifact temporary)
      (hfile : store.files (upload.temporaryPlace host temporary) = some content)
      (hsize : content.length = artifact.size) :
      Step host store upload .goOn store (.measured artifact temporary)
  | check {artifact : Artifact} {temporary : JsString}
      (hprogress : upload.progress = .measured artifact temporary)
      (hfile : store.files (upload.finalPlace host) = none) :
      Step host store upload .goOn store (.clear artifact temporary)
  | rename {artifact : Artifact} {temporary : JsString} {content : List UInt8}
      (hprogress : upload.progress = .clear artifact temporary)
      (hfile : store.files (upload.temporaryPlace host temporary) = some content) :
      Step host store upload .goOn
        ((store.remove (upload.temporaryPlace host temporary)).write (upload.finalPlace host) content)
        (.moved artifact temporary)
  | update {artifact : Artifact} {temporary : JsString} (now : Time)
      (hprogress : upload.progress = .moved artifact temporary) :
      Step host store upload .goOn (store.update artifact now) .leaving
  | updateLost {artifact : Artifact} {temporary : JsString} (now : Time)
      (hprogress : upload.progress = .moved artifact temporary) :
      Step host store upload .loseUpdate (store.update artifact now) (.cleaning temporary true)
  | fail {artifact : Artifact} (hprogress : upload.progress = .looking ∨
        upload.progress = .found artifact ∨ upload.progress = .prepared artifact ∨
        upload.progress = .existing artifact ∨ upload.progress = .verified artifact ∨
        upload.progress = .absent artifact) :
      Step host store upload .goOn store .leaving
  | failWritten {artifact : Artifact} {temporary : JsString}
      (hprogress : (∃ body, upload.progress = .writing artifact temporary body) ∨
        upload.progress = .closed artifact temporary ∨
        upload.progress = .measured artifact temporary ∨
        upload.progress = .clear artifact temporary) :
      Step host store upload .goOn store (.cleaning temporary false)
  | failMoved {artifact : Artifact} {temporary : JsString}
      (hprogress : upload.progress = .moved artifact temporary) :
      Step host store upload .goOn store (.cleaning temporary true)
  | removeTemporary {temporary : JsString} {moved : Bool} (removed : Bool)
      (hprogress : upload.progress = .cleaning temporary moved) :
      Step host store upload .goOn
        (store.tryRemove (upload.temporaryPlace host temporary) removed)
        (if moved then .removing else .leaving)
  | removeFinal (removed : Bool) (hprogress : upload.progress = .removing) :
      Step host store upload .goOn (store.tryRemove (upload.finalPlace host) removed) .leaving

/-! The steps for one lease -/

/-- `registerManifest`, with the files it accepts. -/
def registerFromAgent (host : Host) (now : Time) (db : Db) (agentId : Id)
    (message : TaskArtifactManifestMessage) :
    Except Failure (List ArtifactManifestEntry × ManifestResult × Db) := do
  ensure (matchesUuid message.taskId) (.api .taskLeaseInvalid)
  let files ← validateManifest host.artifacts message
  let (result, db) ←
    registerManifest host.environment host.artifacts now db agentId message files
  return (files, result, db)

/-- `completeTask`. -/
def completeFromAgent (host : Host) (now : Time) (db : Db) (agentId : Id)
    (message : TaskCompletedMessage) : Except Failure (Id × Db) := do
  ensure (validCompletion message) (.api .validationFailed)
  completeTask host.environment now db agentId message

/-- The server. `accepted` is the manifest that it accepted last for the task. -/
structure State where
  store : Store
  locks : LockChain JsString
  uploads : Nat → Option Upload
  accepted : Option (List ArtifactManifestEntry)

def State.setUpload (s : State) (n : Nat) (upload : Upload) (progress : Progress) : State :=
  { s with uploads := Function.update s.uploads n (some { upload with progress }) }

inductive Event where
  | register (message : TaskArtifactManifestMessage)
  | complete (message : TaskCompletedMessage)
  | upload (taskId : JsString)
  | enter (n : Nat)
  | act (n : Nat) (action : Action)
  | leave (n : Nat)

/-- The steps of the calls for the task, whose id a call may spell in any case. A registration meets
directories that can be made or not. Nothing stands for a call that is refused or rolled back. -/
inductive State.Step (host : Host) (taskId : Id) (s : State) : Event → State → Prop
  | register {now : Time} {agentId : Id} {message : TaskArtifactManifestMessage}
      {files : List ArtifactManifestEntry} {result : ManifestResult} {db : Db}
      (prepareTaskDirectory : Id → List ArtifactManifestEntry → Except Failure Unit)
      (htask : asciiLower message.taskId = taskId)
      (h : registerFromAgent
        { host with artifacts := { host.artifacts with prepareTaskDirectory } } now s.store.db agentId
          message = .ok (files, result, db)) :
      Step host taskId s (.register message)
        { s with store := { s.store with db }, accepted := some files }
  | complete {now : Time} {agentId : Id} {message : TaskCompletedMessage} {id : Id} {db : Db}
      (htask : asciiLower message.taskId = taskId)
      (h : completeFromAgent host now s.store.db agentId message = .ok (id, db)) :
      Step host taskId s (.complete message) { s with store := { s.store with db } }
  | upload {spelled leaseToken relativePath : JsString} (htask : asciiLower spelled = taskId)
      (huuid : matchesUuid spelled = true)
      (hpath : validateRelativePath relativePath = .ok relativePath) :
      Step host taskId s (.upload spelled)
        { s with
          locks := s.locks.request (Upload.mk spelled leaseToken relativePath .waiting).key
          uploads := Function.update s.uploads s.locks.count
            (some ⟨spelled, leaseToken, relativePath, .waiting⟩) }
  | enter {n : Nat} {upload : Upload} (hupload : s.uploads n = some upload)
      (hadmits : s.locks.admits n = true) :
      Step host taskId s (.enter n)
        { s.setUpload n upload .looking with locks := s.locks.enter n }
  | act {n : Nat} {upload : Upload} {action : Action} {store : Store} {progress : Progress}
      (hupload : s.uploads n = some upload)
      (hstep : upload.Step host s.store action store progress) :
      Step host taskId s (.act n action) { s.setUpload n upload progress with store }
  | leave {n : Nat} {upload : Upload} (hupload : s.uploads n = some upload)
      (hprogress : upload.progress = .leaving) :
      Step host taskId s (.leave n)
        { s.setUpload n upload .done with locks := s.locks.release upload.key n }

/-- The place that `download` and `archive` read an artifact from. -/
def Host.storedPlace (host : Host) (artifact : Artifact) : Place :=
  host.place artifact.taskId artifact.relativePath

/-- The server before the first manifest of the task, whatever files there are. -/
structure IsNew (taskId : Id) (s : State) : Prop where
  canonical : asciiLower taskId = taskId
  rows_eq : s.store.rows taskId = []
  unfinished : ∀ task, s.store.db.tasks.row taskId = some task → task.status ≠ .succeeded
  locks_eq : s.locks = .empty
  uploads_eq : ∀ n, s.uploads n = none

/-- All runs whose steps meet a condition on the state they start from. -/
def system (host : Host) (taskId : Id) (allowed : State → Event → Prop) :
    TransitionSystem State where
  init := IsNew taskId
  step := fun s t => ∃ event, s.Step host taskId event t ∧ allowed s event

end AnvilRun.ArtifactUploads
