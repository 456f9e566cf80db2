import AnvilRun.AssignmentChecks
import AnvilRun.JsValue

namespace AnvilRun.ArtifactScan

open AnvilRun.AgentContracts
open AnvilRun.AssignmentChecks
open AnvilRun.Fallible
open AnvilRun.UnixPath
open JsString

def maxArtifactBytes : Nat := 2 * 1024 * 1024 * 1024

inductive ArtifactError where
  | scanInvalid | scanUnsafe | scanChanged | sizeLimit
  deriving DecidableEq

/-! The file system -/

inductive FileType where
  | file | dir | symlink | other
  deriving DecidableEq

/-- What `symlink_metadata` finds. -/
structure Metadata where
  fileType : FileType
  len : Nat

/-- An entry of a directory: what `symlink_metadata` finds, the bytes that can be read from it, and
the length that `metadata` finds after that. Nothing stands for a call that fails. -/
structure DirEntry where
  name : FileName
  metadata : Option Metadata
  contents : Option (List UInt8)
  finalLen : Option Nat

/-- What `read_dir` lists, with nothing for an entry that cannot be read. The names differ. -/
structure Directory where
  entries : List (Option DirEntry)
  names_nodup : ((entries.filterMap id).map (fun entry => entry.name.bytes)).Nodup

/-- The tree under the source path, where the paths are relative to it. -/
structure SourceTree where
  symlinkMetadata : List Component → Option Metadata
  readDir : List Component → Option Directory

/-- The digest of SHA-256, which has 32 bytes. -/
structure Sha256 where
  digest : List UInt8 → List UInt8
  length_digest : ∀ data, (digest data).length = 32

/-! The names of files -/

/-- `OsStr::to_str`. -/
def toStr (bytes : List UInt8) : Option (List Char) :=
  let s := Utf8.decodeLossy bytes
  if Utf8.encode s = bytes then some s else none

/-- `Path::extension`, for a path of one component. -/
def extension (name : List UInt8) : Option (List UInt8) :=
  match name.reverse.dropWhile (fun b => b != 46) with
  | _ :: _ :: _ => some (name.reverse.takeWhile (fun b => b != 46)).reverse
  | _ => none

def isZipFile (name : FileName) : Bool :=
  ((extension name.bytes).bind toStr).any fun ext => ext.map Char.toLower == "zip".toList

def pathPart : Component → Except ArtifactError (List Char)
  | .normal value => do
      let value ← require (toStr value) .scanUnsafe
      ensure (value ≠ [] ∧ ¬ value.any isControl) .scanUnsafe
      return value
  | _ => .error .scanUnsafe

def relativePath (path : List UInt8) : Except ArtifactError (List Char) := do
  let parts ← (components path).mapM pathPart
  ensure (parts ≠ []) .scanUnsafe
  return ['/'].intercalate parts

def validateRelativePath (value : List Char) : Except ArtifactError Unit :=
  ensure (value ≠ [] ∧ '\\' ∉ value ∧ '\x00' ∉ value ∧ value.head? ≠ some '/' ∧
    value.head? ≠ some '\\' ∧ ':' ∉ value ∧ ¬ value.any isControl ∧
    (components (Utf8.encode value)).all Component.isNormal) .scanInvalid

/-! The scan -/

def hexDigit (n : Nat) : Char :=
  if n < 10 then Char.ofNat (48 + n) else Char.ofNat (87 + n)

/-- `format!("{:x}")` of a digest. -/
def lowerHex (bytes : List UInt8) : List Char :=
  bytes.flatMap fun b => [hexDigit (b.toNat / 16), hexDigit (b.toNat % 16)]

/-- The size of a file, and its digest. -/
def hashFile (sha256 : Sha256) (entry : DirEntry) (expectedSize : Nat) :
    Except ArtifactError (Nat × List Char) := do
  let contents ← require entry.contents .scanInvalid
  ensure (contents.length < 2 ^ 64) .sizeLimit
  ensure (contents.length = expectedSize) .scanChanged
  let finalSize ← require entry.finalLen .scanChanged
  ensure (finalSize = contents.length) .scanChanged
  return (contents.length, lowerHex (sha256.digest contents))

/-- A file of a manifest. Its path is the one under the scanned directory. -/
structure ScannedArtifact where
  relativePath : List Char
  path : FileName
  size : Nat
  sha256 : List Char
  deriving DecidableEq

structure ArtifactManifest where
  files : List ScannedArtifact
  totalBytes : Nat
  deriving DecidableEq

/-- What the scan makes of an entry that is a ZIP file. `entry.path()` is the scanned directory
joined with the name of the entry, and `strip_prefix` takes the directory off again. -/
def scanEntry (sha256 : Sha256) (entry : DirEntry) (totalBytes : Nat) :
    Except ArtifactError ScannedArtifact := do
  let metadata ← require entry.metadata .scanInvalid
  ensure (metadata.fileType ≠ .symlink) .scanUnsafe
  ensure (metadata.fileType = .file) .scanUnsafe
  let relativePath ← relativePath entry.name.bytes
  let scanned ← hashFile sha256 entry metadata.len
  ensure (totalBytes + scanned.1 < 2 ^ 64) .sizeLimit
  ensure (totalBytes + scanned.1 ≤ maxArtifactBytes) .sizeLimit
  return ⟨relativePath, entry.name, scanned.1, scanned.2⟩

/-- The loop of `scan_directory`, with the files so far and their bytes. -/
def scanDirectory (sha256 : Sha256) :
    List (Option DirEntry) → List ScannedArtifact → Nat → Except ArtifactError ArtifactManifest
  | [], files, totalBytes => .ok ⟨files, totalBytes⟩
  | none :: _, _, _ => .error .scanInvalid
  | some entry :: entries, files, totalBytes =>
      if isZipFile entry.name then do
        let scanned ← scanEntry sha256 entry totalBytes
        scanDirectory sha256 entries (files ++ [scanned]) (totalBytes + scanned.size)
      else scanDirectory sha256 entries files totalBytes

/-- The loop of `reject_unsafe_path` over the components, behind those that are passed. -/
def rejectUnsafePath (tree : SourceTree) :
    List Component → List Component → Except ArtifactError Unit
  | _, [] => .ok ()
  | current, component :: rest => do
      ensure (component.isNormal) .scanUnsafe
      let current := current ++ [component]
      let metadata ← require (tree.symlinkMetadata current) .scanInvalid
      ensure (metadata.fileType ≠ .symlink) .scanUnsafe
      rejectUnsafePath tree current rest

/-- The order of strings, by their bytes. -/
def pathLe (left right : ScannedArtifact) : Bool :=
  decide (Utf8.encode left.relativePath ≤ Utf8.encode right.relativePath)

def scanArtifacts (sha256 : Sha256) (tree : SourceTree) (artifactDir : List Char) :
    Except ArtifactError ArtifactManifest := do
  validateRelativePath artifactDir
  let root := components (Utf8.encode artifactDir)
  rejectUnsafePath tree [] root
  let metadata ← require (tree.symlinkMetadata root) .scanInvalid
  ensure (metadata.fileType = .dir) .scanInvalid
  let directory ← require (tree.readDir root) .scanInvalid
  let manifest ← scanDirectory sha256 directory.entries [] 0
  ensure (manifest.files ≠ []) .scanInvalid
  return ⟨manifest.files.mergeSort pathLe, manifest.totalBytes⟩

/-! The message -/

structure ArtifactManifestEntry where
  relativePath : List Char
  size : Nat
  sha256 : List Char

structure TaskArtifactManifestPayload where
  taskId : List Char
  leaseToken : List Char
  artifactDir : List Char
  totalBytes : Nat
  files : List ArtifactManifestEntry

def ArtifactManifest.entries (manifest : ArtifactManifest) : List ArtifactManifestEntry :=
  manifest.files.map fun file => ⟨file.relativePath, file.size, file.sha256⟩

def buildArtifactManifestPayload (task : TaskAssignmentPayload) (manifest : ArtifactManifest) :
    TaskArtifactManifestPayload :=
  ⟨task.taskId, task.leaseToken, task.artifactDir, manifest.totalBytes, manifest.entries⟩

/-- The id and the time of a message, by `Uuid::new_v4` and `utc_now`. -/
structure Stamp where
  id : List Char
  timestamp : List Char

def jsonString (s : List Char) : Json :=
  .string (ofChars s)

def jsonNat (n : Nat) : Json :=
  .number (.finite n)

/-- What `derive(Serialize)` makes of a file. -/
def entryJson (entry : ArtifactManifestEntry) : Json :=
  .object
    [(ofString "relativePath", jsonString entry.relativePath),
      (ofString "sha256", jsonString entry.sha256),
      (ofString "size", jsonNat entry.size)]

def payloadJson (payload : TaskArtifactManifestPayload) : Json :=
  .object
    [(ofString "artifactDir", jsonString payload.artifactDir),
      (ofString "files", .array (payload.files.map entryJson)),
      (ofString "leaseToken", jsonString payload.leaseToken),
      (ofString "taskId", jsonString payload.taskId),
      (ofString "totalBytes", jsonNat payload.totalBytes)]

/-- `encode_envelope` for a manifest. -/
def encodeArtifactManifestMessage (stamp : Stamp) (payload : TaskArtifactManifestPayload) : Json :=
  .object
    [(ofString "id", jsonString stamp.id),
      (ofString "type", jsonString "task.artifact-manifest".toList),
      (ofString "timestamp", jsonString stamp.timestamp),
      (ofString "protocolVersion", jsonNat 1),
      (ofString "payload", payloadJson payload)]

def maxAgentWsMessageBytes : Nat := 1024 * 1024

inductive ManifestOutcome where
  | sent (message : Json)
  | tooLarge

/-- `send_artifact_manifest`, with the text that `serde_json` writes for a message. A message that
is too large fails the task. -/
def sendArtifactManifest (toText : Json → List UInt8) (stamp : Stamp) (task : TaskAssignmentPayload)
    (manifest : ArtifactManifest) : ManifestOutcome :=
  let message := encodeArtifactManifestMessage stamp (buildArtifactManifestPayload task manifest)
  if maxAgentWsMessageBytes < (toText message).length then .tooLarge else .sent message

end AnvilRun.ArtifactScan
