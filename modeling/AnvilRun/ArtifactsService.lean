import AnvilRun.TaskQueue

namespace AnvilRun.ArtifactsService

open AnvilRun.Fallible
open AnvilRun.TaskDatabase
open AnvilRun.TaskQueue
open AnvilRun.ValidationPrimitives
open JsString

def totalSize : List Artifact → Nat
  | [] => 0
  | artifact :: artifacts => artifact.size + totalSize artifacts

/-! `registerManifest` -/

def maxArtifactBytes : Nat := 2 * 1024 * 1024 * 1024
def maxArtifactFiles : Nat := 65535

structure ArtifactManifestEntry where
  relativePath : JsString
  size : Nat
  sha256 : JsString
  deriving DecidableEq

structure TaskArtifactManifestMessage where
  taskId : JsString
  leaseToken : JsString
  artifactDir : JsString
  totalBytes : Nat
  files : List ArtifactManifestEntry
  deriving DecidableEq

/-- What the host decides: the order of `localeCompare`, the text by which it tells paths apart,
and whether the directories for the files of a task can be made. -/
structure ArtifactHost where
  localeLe : JsString → JsString → Bool
  identityPath : JsString → JsString
  prepareTaskDirectory : Id → List ArtifactManifestEntry → Except Failure Unit

/-- `value.split('/')`. -/
def splitPath (path : JsString) : List JsString :=
  path.splitOn 47

/-- All the characters looked for lie below U+10000, so code units do for code points. -/
def hasControlUnit (value : JsString) : Bool :=
  value.any fun u => decide (u < 32) || u == 127

/-- Whether the path starts with the letter of a drive. -/
def startsWithDrive : JsString → Bool
  | u :: v :: _ => isLetterUnit u && v == 58
  | _ => false

def isSha256 (s : JsString) : Bool :=
  s.length == 64 && s.all (fun u => isHexUnit u)

def validateRelativePath (value : JsString) : Except Failure JsString := do
  let parts := splitPath value
  let fileName := parts.getLastD []
  ensure (value ≠ [] ∧ value.length ≤ 2048) (.api .artifactInvalidPath)
  ensure (¬ (value.head? = some 47 ∨ value.head? = some 92 ∨ startsWithDrive value ∨ 92 ∈ value ∨
    hasControlUnit value)) (.api .artifactInvalidPath)
  ensure (parts.all (fun part => part ≠ [] ∧ part ≠ [46] ∧ part ≠ [46, 46] ∧ 58 ∉ part))
    (.api .artifactInvalidPath)
  ensure (0 < codePoints fileName ∧ codePoints fileName ≤ 512) (.api .artifactInvalidPath)
  return value

/-- The loop of `validateManifest` over the files. -/
def validateFiles (host : ArtifactHost) (seen : List JsString) (sum : Nat) :
    List ArtifactManifestEntry → Except Failure Nat
  | [] => .ok sum
  | item :: files => do
      let relativePath ← validateRelativePath item.relativePath
      let identityPath := host.identityPath relativePath
      ensure (identityPath ∉ seen ∧ item.size ≤ JsNumber.maxSafeInteger ∧ isSha256 item.sha256)
        (.api .validationFailed)
      ensure (sum + item.size ≤ maxArtifactBytes) (.api .artifactSizeLimitExceeded)
      validateFiles host (identityPath :: seen) (sum + item.size) files

theorem validateFiles_cons (host : ArtifactHost) (seen : List JsString) (sum : Nat)
    (item : ArtifactManifestEntry) (files : List ArtifactManifestEntry) :
    validateFiles host seen sum (item :: files) = (do
      let relativePath ← validateRelativePath item.relativePath
      let identityPath := host.identityPath relativePath
      ensure (identityPath ∉ seen ∧ item.size ≤ JsNumber.maxSafeInteger ∧ isSha256 item.sha256)
        (.api .validationFailed)
      ensure (sum + item.size ≤ maxArtifactBytes) (.api .artifactSizeLimitExceeded)
      validateFiles host (identityPath :: seen) (sum + item.size) files) := rfl

/-- `validateManifest`: the files in the order of their paths. -/
def validateManifest (host : ArtifactHost) (message : TaskArtifactManifestMessage) :
    Except Failure (List ArtifactManifestEntry) := do
  ensure (message.artifactDir ≠ [] ∧ message.artifactDir.length ≤ 1024 ∧
    message.artifactDir.all (fun u => 32 ≤ u) ∧ message.files ≠ [] ∧
    message.files.length ≤ maxArtifactFiles ∧ message.totalBytes ≤ maxArtifactBytes)
    (.api .validationFailed)
  let sum ← validateFiles host [] 0 message.files
  ensure (sum = message.totalBytes) (.api .validationFailed)
  return message.files.mergeSort (fun x y => host.localeLe x.relativePath y.relativePath)

/-- A row whose size is beyond `safeNumber`, which throws there, is in no manifest. -/
def manifestMatches (host : ArtifactHost) (existing : List Artifact)
    (files : List ArtifactManifestEntry) : Bool :=
  decide (((existing.map (fun item =>
    ArtifactManifestEntry.mk item.relativePath item.size item.sha256)).mergeSort
      (fun x y => host.localeLe x.relativePath y.relativePath)) = files)

/-- The row of a file that is still to be uploaded. -/
def artifactRow (taskId : Id) (file : ArtifactManifestEntry) : Artifact where
  taskId := taskId
  relativePath := file.relativePath
  fileName := (splitPath file.relativePath).getLastD []
  size := file.size
  sha256 := file.sha256
  storagePath := taskId ++ 47 :: file.relativePath
  uploadedAt := none

structure ManifestResult where
  taskId : JsString
  accepted : Bool
  artifactCount : Nat
  artifactBytes : Nat
  deriving DecidableEq

/-- `assertLease` for a task that has to be uploading. -/
def leaseOfUploading (env : Environment) (now : Time) (agent : Agent) (taskId : Id)
    (task : BuildTask) (token : JsString) : Bool :=
  decide (agent.activeTaskId = some taskId ∧ task.status = .uploading) && leaseLive now task &&
    leaseOpens env task token

/-- The transaction of `registerManifest`. -/
def registerManifest (env : Environment) (host : ArtifactHost) (now : Time) (db : Db) (agentId : Id)
    (message : TaskArtifactManifestMessage) (files : List ArtifactManifestEntry) :
    Except Failure (ManifestResult × Db) := do
  let agent ← require (db.lockAgent agentId) (.api .taskLeaseInvalid)
  ensure (agent.enabled ∧ agent.status = .online) (.api .taskLeaseInvalid)
  let task ← require (db.findTask message.taskId) (.api .taskLeaseInvalid)
  let taskId := asciiLower message.taskId
  ensure (task.agentId = agentId ∧
    leaseOfUploading env now agent taskId task message.leaseToken) (.api .taskLeaseInvalid)
  ensure (task.assignedArtifactDir = some message.artifactDir) (.api .validationFailed)
  let existing := db.artifacts.filter (fun artifact => decide (artifact.taskId = taskId))
  if existing ≠ [] then
    ensure (manifestMatches host existing files) (.api .taskInvalidState)
    return (⟨taskId, true, existing.length, totalSize existing⟩, db)
  else
    host.prepareTaskDirectory taskId files
    return (⟨taskId, true, files.length, message.totalBytes⟩,
      { db with artifacts := db.artifacts ++ files.map (artifactRow taskId) })

/-! `completeTask` -/

/-- The check of `completeTask` in front of its transaction. -/
def validCompletion (message : TaskCompletedMessage) : Bool :=
  matchesUuid message.taskId && decide (message.exitCode = 0)

/-- The transaction of `completeTask`. -/
def completeTask (env : Environment) (now : Time) (db : Db) (agentId : Id)
    (message : TaskCompletedMessage) : Except Failure (Id × Db) := do
  let agent ← require (db.lockAgent agentId) (.api .taskLeaseInvalid)
  ensure (agent.enabled ∧ agent.status = .online) (.api .taskLeaseInvalid)
  let task ← require (db.findTask message.taskId) (.api .taskLeaseInvalid)
  let taskId := asciiLower message.taskId
  ensure (task.agentId = agentId) (.api .taskLeaseInvalid)
  if task.status = .succeeded then
    ensure (logLeaseOpens env now task message.leaseToken) (.api .taskLeaseInvalid)
    ensure (task.artifactCount = message.artifactCount ∧
      task.artifactBytes = message.artifactBytes) (.api .taskInvalidState)
    return (taskId, db)
  else
    ensure (leaseOfUploading env now agent taskId task message.leaseToken) (.api .taskLeaseInvalid)
    let files := db.artifacts.filter (fun artifact => decide (artifact.taskId = taskId))
    ensure (files ≠ [] ∧ files.all (fun file => file.uploadedAt.isSome) ∧
      files.length = message.artifactCount ∧ totalSize files = message.artifactBytes)
      (.api .taskInvalidState)
    let db ← transition now db taskId .succeeded .agent
      (some (ofString "Agent uploaded all declared artifacts"))
      ⟨fun task => { writeSourceCommit message.sourceCommit (withoutLease task) with
        exitCode := some 0
        finishedAt := some message.finishedAt
        artifactCount := files.length
        artifactBytes := totalSize files }, some none⟩
    return (taskId, db.setActiveTask agentId none)

end AnvilRun.ArtifactsService
