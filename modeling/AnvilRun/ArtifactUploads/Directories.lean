import AnvilRun.ArtifactUploads
import AnvilRun.FileTree

namespace AnvilRun.ArtifactUploads

open AnvilRun.ArtifactsService
open AnvilRun.Fallible
open AnvilRun.FileTree (Node Listing)
open AnvilRun.TaskDatabase
open AnvilRun.TaskQueue
open AnvilRun.ValidationPrimitives
open JsString

/-- The database, and what is below the root of the artifacts. -/
structure Storage where
  db : Db
  tree : Listing Place

/-- The directories on the way to a file of a task, from the one of the task on. -/
def directories (relativePath : JsString) : List JsString :=
  (splitPath relativePath).dropLast.inits.map fun segments => [47].intercalate segments

/-- Whether the path from the root to a target leads out of it. -/
def leavesRoot (relativeTarget : JsString) : Bool :=
  [46, 46].isPrefixOf relativeTarget || relativeTarget.head? == some 47 ||
    relativeTarget.head? == some 92 || startsWithDrive relativeTarget ||
    (relativeTarget.splitOnP fun u => u == 47 || u == 92).any
      fun part => part == [46] || part == [46, 46]

/-- `safeStoredPath` with `createParents`: the place of the file, and the tree with the directories
on the way to it. -/
def safeStoredPath (host : Host) (tree : Listing Place) (taskId relativePath : JsString) :
    Except Failure (Place × Listing Place) := do
  ensure (matchesUuid taskId) (.api .artifactInvalidPath)
  let tree ← tree.makeDirectories (.api .artifactInvalidPath)
    ((directories relativePath).map (host.place taskId))
  ensure (leavesRoot (taskId ++ 47 :: relativePath) = false) (.api .artifactInvalidPath)
  ensure (tree (host.place taskId relativePath) ≠ some .directory) (.api .artifactInvalidPath)
  return (host.place taskId relativePath, tree)

/-- `prepareTaskDirectory`. -/
def prepareTaskDirectory (host : Host) (tree : Listing Place) (taskId : Id) :
    List ArtifactManifestEntry → Except Failure (Listing Place)
  | [] => .ok tree
  | file :: files => do
      let (_, tree) ← safeStoredPath host tree taskId file.relativePath
      prepareTaskDirectory host tree taskId files

/-- `registerManifest` on a tree of directories, which a task without artifacts gets its own in. -/
def registerInTree (host : Host) (now : Time) (storage : Storage) (agentId : Id)
    (message : TaskArtifactManifestMessage) : Except Failure (ManifestResult × Storage) := do
  let taskId := asciiLower message.taskId
  let prepare := fun taskId files =>
    (prepareTaskDirectory host storage.tree taskId files).map fun _ => ()
  let (files, result, db) ← registerFromAgent
    { host with artifacts := { host.artifacts with prepareTaskDirectory := prepare } } now
    storage.db agentId message
  if storage.db.artifacts.any (fun artifact => artifact.taskId == taskId) then
    return (result, { storage with db })
  else do
    let tree ← prepareTaskDirectory host storage.tree taskId files
    return (result, ⟨db, tree⟩)

/-- What the loop over the request has received once the body has come in whole. -/
def receive (artifact : Artifact) (body : List UInt8) :
    List (List UInt8) → Except Failure (List UInt8)
  | [] => .ok body
  | chunk :: chunks => do
      ensure ((body ++ chunk).length ≤ artifact.size ∧ (body ++ chunk).length ≤ maxArtifactBytes)
        (.api .artifactSizeLimitExceeded)
      receive artifact (body ++ chunk) chunks

/-- The database with an upload time at an artifact. -/
def markUploaded (db : Db) (artifact : Artifact) (now : Time) : Db :=
  { db with artifacts := db.artifacts.map fun row =>
      if Store.isRowOf artifact row then { row with uploadedAt := some now } else row }

/-- The part of `uploadFromAgent` that writes a file which is not there yet, first next to its
place. -/
def writeFile (host : Host) (now : Time) (db : Db) (tree : Listing Place) (artifact : Artifact)
    (final temporary : Place) (chunks : List (List UInt8)) : Except Failure Storage := do
  ensure (tree temporary = none) (.api .validationFailed)
  let body ← receive artifact [] chunks
  ensure (body.length = artifact.size ∧ host.sha256 body = artifact.sha256)
    (.api .validationFailed)
  let tree := tree.put temporary (some (.file body))
  ensure (tree final = none) (.api .validationFailed)
  return ⟨markUploaded db artifact now, (tree.put temporary none).put final (some (.file body))⟩

/-- `uploadFromAgent` on a tree of directories, where all calls of the file system succeed unless a
file is in the way of a directory or there is something at the place of a new file. What a call that
fails leaves behind is not told. -/
def uploadInTree (host : Host) (now : Time) (storage : Storage)
    (taskId leaseToken relativePath suffix : JsString) (chunks : List (List UInt8)) :
    Except Failure Storage := do
  ensure (matchesUuid taskId) (.api .taskLeaseInvalid)
  let relativePath ← validateRelativePath relativePath
  let artifact ← findUpload host.environment now storage.db taskId leaseToken relativePath
  let (final, tree) ← safeStoredPath host storage.tree taskId relativePath
  match tree final with
  | some .directory => throw (.api .artifactInvalidPath)
  | some (.file content) =>
      ensure (content.length = artifact.size ∧ host.sha256 content = artifact.sha256)
        (.api .validationFailed)
      return ⟨if artifact.uploadedAt = none then markUploaded storage.db artifact now
        else storage.db, tree⟩
  | none =>
      ensure (artifact.uploadedAt = none) (.api .resourceNotFound)
      writeFile host now storage.db tree artifact final
        (host.place taskId (relativePath ++ ofString ".tmp-" ++ suffix)) chunks

end AnvilRun.ArtifactUploads
