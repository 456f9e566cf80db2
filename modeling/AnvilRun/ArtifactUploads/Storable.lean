import AnvilRun.ArtifactUploads.Directories
import AnvilRun.ArtifactUploads.Manifests
import Mathlib.Algebra.Order.BigOperators.Group.List

namespace AnvilRun.ArtifactUploads

open AnvilRun.ArtifactsService
open AnvilRun.Fallible
open AnvilRun.FileTree (Node Listing)
open AnvilRun.TaskDatabase
open AnvilRun.TaskQueue
open AnvilRun.ValidationPrimitives
open JsString

variable {host : Host} {tree tree' : Listing Place} {taskId relativePath : JsString} {place : Place}

/-! The place of a file -/

theorem unit_of_matchesUuid (h : matchesUuid taskId = true) :
    ∀ u ∈ taskId, u ≠ 47 ∧ u ≠ 92 ∧ u ≠ 46 ∧ u ≠ 58 := by
  intro u hu
  obtain ⟨i, hi, rfl⟩ := List.mem_iff_getElem.mp hu
  have hunit := (Websocket.uuidUnit_of_matches h).2 i hi
  simp only [ne_eq, ← UInt16.toNat_inj, UInt16.reduceToNat]
  rw [Websocket.UuidUnit] at hunit
  split_ifs at hunit <;> omega

theorem length_of_matchesUuid (h : matchesUuid taskId = true) : taskId.length = 36 :=
  (Websocket.uuidUnit_of_matches h).1

theorem splitOnP_eq_splitOn {s : JsString} (h : 92 ∉ s) :
    (s.splitOnP fun u => u == 47 || u == 92) = s.splitOn 47 := by
  rw [List.splitOn_eq_splitOnP]
  induction s with
  | nil => rfl
  | cons u s ih =>
      rw [List.mem_cons, not_or] at h
      have hu : (u == 92) = false := beq_eq_false_iff_ne.mpr (Ne.symm h.1)
      rw [List.splitOnP_cons_eq_if_modifyHead,
        List.splitOnP_cons_eq_if_modifyHead, ih h.2, hu, Bool.or_false]

/-- What `validateRelativePath` promises of the parts of a path. -/
theorem validateRelativePath_parts
    (h : validateRelativePath relativePath = .ok relativePath) :
    92 ∉ relativePath ∧ ∀ part ∈ splitPath relativePath, part ≠ [46] ∧ part ≠ [46, 46] := by
  simp only [validateRelativePath, bind_eq_ok, ensure_eq_ok] at h
  obtain ⟨-, -, -, hbarred, -, hparts, -⟩ := h
  refine ⟨fun hmem => hbarred (.inr (.inr (.inr (.inl hmem)))), fun part hpart => ?_⟩
  have hall := List.all_eq_true.mp hparts part hpart
  rw [decide_eq_true_eq] at hall
  exact ⟨hall.2.1, hall.2.2.1⟩

/-- The place of a file of a task is below the root. -/
theorem leavesRoot_eq_false (huuid : matchesUuid taskId = true)
    (hpath : validateRelativePath relativePath = .ok relativePath) :
    leavesRoot (taskId ++ 47 :: relativePath) = false := by
  have hunits := unit_of_matchesUuid huuid
  obtain ⟨hbackslash, hparts⟩ := validateRelativePath_parts hpath
  obtain ⟨u, v, rest, rfl⟩ : ∃ u v rest, taskId = u :: v :: rest := by
    have hlength := length_of_matchesUuid huuid
    rcases taskId with _ | ⟨u, _ | ⟨v, rest⟩⟩
    · cases hlength
    · cases hlength
    · exact ⟨u, v, rest, rfl⟩
  have hu := hunits u List.mem_cons_self
  have hv := hunits v (List.mem_cons_of_mem u List.mem_cons_self)
  have hsplit : ((u :: v :: rest) ++ 47 :: relativePath).splitOnP (fun u => u == 47 || u == 92) =
      (u :: v :: rest) :: splitPath relativePath := by
    rw [List.splitOnP_append_cons_of_forall_mem (fun w hw => ?_) 47 rfl,
      splitOnP_eq_splitOn hbackslash, splitPath]
    rw [Bool.or_eq_false_iff, beq_eq_false_iff_ne, beq_eq_false_iff_ne]
    exact ⟨(hunits w hw).1, (hunits w hw).2.1⟩
  have hany : (splitPath relativePath).any (fun part => part == [46] || part == [46, 46]) =
      false := by
    rw [List.any_eq_false]
    intro part hmem
    rw [Bool.or_eq_true, beq_iff_eq, beq_iff_eq, not_or]
    exact hparts part hmem
  have hprefix : [46, 46].isPrefixOf (u :: v :: rest ++ 47 :: relativePath) = false := by
    rw [List.cons_append, List.isPrefixOf, beq_eq_false_iff_ne.mpr (Ne.symm hu.2.2.1),
      Bool.false_and]
  have hhead : (u :: v :: rest ++ 47 :: relativePath).head? = some u := rfl
  have hslash : (some u == some 47) = false := by simpa using hu.1
  have hback : (some u == some 92) = false := by simpa using hu.2.1
  have hdrive : startsWithDrive (u :: v :: rest ++ 47 :: relativePath) = false := by
    rw [List.cons_append, List.cons_append, startsWithDrive, beq_eq_false_iff_ne.mpr hv.2.2.2,
      Bool.and_false]
  have hfirst : (u :: v :: rest == [46] || u :: v :: rest == [46, 46]) = false := by
    rw [Bool.or_eq_false_iff, beq_eq_false_iff_ne, beq_eq_false_iff_ne]
    exact ⟨fun heq => hu.2.2.1 (List.cons.inj heq).1, fun heq => hu.2.2.1 (List.cons.inj heq).1⟩
  rw [leavesRoot, hsplit, List.any_cons, hany, hprefix, hhead, hslash, hback, hdrive, hfirst]
  rfl

/-- The places of the directories on the way to a file. -/
def onTheWay (host : Host) (taskId relativePath : JsString) : List Place :=
  (directories relativePath).map (host.place taskId)

theorem safeStoredPath_eq_ok (huuid : matchesUuid taskId = true)
    (hpath : validateRelativePath relativePath = .ok relativePath) :
    safeStoredPath host tree taskId relativePath = .ok (place, tree') ↔
      (∀ place ∈ onTheWay host taskId relativePath, ∀ content,
          tree place ≠ some (.file content)) ∧
        tree' (host.place taskId relativePath) ≠ some .directory ∧
        place = host.place taskId relativePath ∧
        tree' = tree.withDirectories (onTheWay host taskId relativePath) := by
  simp only [safeStoredPath, bind_eq_ok, ensure_eq_ok, pure_eq_ok,
    FileTree.Listing.makeDirectories_eq_ok, leavesRoot_eq_false huuid hpath, huuid, onTheWay,
    Prod.mk.injEq]
  constructor
  · rintro ⟨-, -, _, ⟨hfree, rfl⟩, -, -, -, htarget, rfl, rfl⟩
    exact ⟨hfree, htarget, rfl, rfl⟩
  · rintro ⟨hfree, htarget, rfl, rfl⟩
    exact ⟨(), trivial, _, ⟨hfree, rfl⟩, (), trivial, (), htarget, rfl, rfl⟩

/-! The directories of a manifest -/

variable {files : List ArtifactManifestEntry}

/-- No file of a manifest is at the place of a directory on the way to one of its files. -/
def Storable (host : ArtifactHost) (files : List ArtifactManifestEntry) : Prop :=
  ∀ x ∈ files, ∀ y ∈ files, ∀ directory ∈ directories y.relativePath,
    host.identityPath x.relativePath ≠ host.identityPath directory

theorem place_inj {path path' : JsString} :
    host.place taskId path = host.place taskId path' ↔
      host.artifacts.identityPath path = host.artifacts.identityPath path' := by
  simp [Host.place]

theorem Storable.not_mem_onTheWay (h : Storable host.artifacts files) {x y : ArtifactManifestEntry}
    (hx : x ∈ files) (hy : y ∈ files) :
    host.place taskId x.relativePath ∉ onTheWay host taskId y.relativePath := by
  intro hmem
  obtain ⟨directory, hdirectory, hplace⟩ := List.mem_map.mp hmem
  exact h x hx y hy directory hdirectory (place_inj.mp hplace).symm

def allDirectories (host : Host) (taskId : Id) (files : List ArtifactManifestEntry) : List Place :=
  files.flatMap fun file => onTheWay host taskId file.relativePath

theorem prepareTaskDirectory_of_free (huuid : matchesUuid taskId = true)
    (hpaths : ∀ file ∈ files, validateRelativePath file.relativePath = .ok file.relativePath)
    (hfree : ∀ file ∈ files, ∀ other ∈ files,
      host.place taskId file.relativePath ∉ onTheWay host taskId other.relativePath)
    (hfiles : ∀ path content, tree (host.place taskId path) ≠ some (.file content))
    (hdirectories : ∀ file ∈ files,
      tree (host.place taskId file.relativePath) ≠ some .directory) :
    prepareTaskDirectory host tree taskId files =
      .ok (tree.withDirectories (allDirectories host taskId files)) := by
  induction files generalizing tree with
  | nil =>
      rw [prepareTaskDirectory, allDirectories, List.flatMap_nil,
        FileTree.Listing.withDirectories_nil]
  | cons file files ih =>
      have hway : ∀ place ∈ onTheWay host taskId file.relativePath, ∀ content,
          tree place ≠ some (.file content) := by
        intro place hmem content
        obtain ⟨directory, -, rfl⟩ := List.mem_map.mp hmem
        exact hfiles directory content
      have hkept : ∀ other ∈ file :: files,
          tree.withDirectories (onTheWay host taskId file.relativePath)
              (host.place taskId other.relativePath) =
            tree (host.place taskId other.relativePath) := fun other hother =>
        FileTree.Listing.withDirectories_of_not_mem (hfree other hother file List.mem_cons_self)
      have hstep : safeStoredPath host tree taskId file.relativePath =
          .ok (host.place taskId file.relativePath,
            tree.withDirectories (onTheWay host taskId file.relativePath)) := by
        refine (safeStoredPath_eq_ok huuid (hpaths file List.mem_cons_self)).mpr
          ⟨hway, ?_, rfl, rfl⟩
        rw [hkept file List.mem_cons_self]
        exact hdirectories file List.mem_cons_self
      rw [List.forall_mem_cons] at hpaths
      have hrest := @ih (tree.withDirectories (onTheWay host taskId file.relativePath))
        hpaths.2
        (fun x hx y hy => hfree x (List.mem_cons_of_mem file hx) y (List.mem_cons_of_mem file hy))
        (fun path content => by
          by_cases hmem : host.place taskId path ∈ onTheWay host taskId file.relativePath
          · rw [FileTree.Listing.withDirectories_of_mem hmem]
            simp
          · rw [FileTree.Listing.withDirectories_of_not_mem hmem]
            exact hfiles path content)
        (fun other hother => by
          rw [hkept other (List.mem_cons_of_mem file hother)]
          exact hdirectories other (List.mem_cons_of_mem file hother))
      rw [prepareTaskDirectory, hstep]
      refine hrest.trans ?_
      rw [FileTree.Listing.withDirectories_append, allDirectories, allDirectories,
        List.flatMap_cons]

theorem safeStoredPath_directory (h : safeStoredPath host tree taskId relativePath =
    .ok (place, tree')) :
    (∀ other, tree other = some .directory → tree' other = some .directory) ∧
      (∀ other ∈ onTheWay host taskId relativePath, tree' other = some .directory) ∧
      tree' (host.place taskId relativePath) ≠ some .directory ∧
      place = host.place taskId relativePath := by
  simp only [safeStoredPath, bind_eq_ok, ensure_eq_ok, pure_eq_ok,
    FileTree.Listing.makeDirectories_eq_ok, Prod.mk.injEq] at h
  obtain ⟨-, -, _, ⟨-, rfl⟩, -, -, -, htarget, rfl, rfl⟩ := h
  exact ⟨fun _ => FileTree.Listing.withDirectories_directory,
    fun _ => FileTree.Listing.withDirectories_of_mem, htarget, rfl⟩

theorem prepareTaskDirectory_directory
    (h : prepareTaskDirectory host tree taskId files = .ok tree') :
    (∀ other, tree other = some .directory → tree' other = some .directory) ∧
      ∀ other ∈ allDirectories host taskId files, tree' other = some .directory := by
  induction files generalizing tree with
  | nil =>
      obtain rfl := Except.ok.inj h
      exact ⟨fun _ h => h, fun _ hmem => absurd hmem List.not_mem_nil⟩
  | cons file files ih =>
      rw [prepareTaskDirectory] at h
      obtain ⟨⟨place, made⟩, hmade, h⟩ := bind_eq_ok.mp h
      obtain ⟨hkept, hway, -, -⟩ := safeStoredPath_directory hmade
      obtain ⟨hlater, hrest⟩ := ih h
      refine ⟨fun other hother => hlater other (hkept other hother), fun other hmem => ?_⟩
      rw [allDirectories, List.flatMap_cons, List.mem_append] at hmem
      exact hmem.elim (fun hmem => hlater other (hway other hmem)) (hrest other)

/-! One upload -/

variable {storage storage' : Storage} {now : Time} {leaseToken suffix : JsString}
  {chunks : List (List UInt8)} {artifact : Artifact}

theorem receive_of_le (body : List UInt8)
    (h : (body ++ chunks.flatten).length ≤ artifact.size ∧
      (body ++ chunks.flatten).length ≤ maxArtifactBytes) :
    receive artifact body chunks = .ok (body ++ chunks.flatten) := by
  induction chunks generalizing body with
  | nil => rw [receive, List.flatten_nil, List.append_nil]
  | cons chunk chunks ih =>
      rw [List.flatten_cons, ← List.append_assoc] at h ⊢
      have hlength : (body ++ chunk).length ≤ (body ++ chunk ++ chunks.flatten).length :=
        (List.prefix_append (body ++ chunk) chunks.flatten).length_le
      rw [receive]
      exact bind_eq_ok.mpr ⟨(), ensure_eq_ok.mpr ⟨hlength.trans h.1, hlength.trans h.2⟩,
        ih (body ++ chunk) h⟩

theorem writeFile_of_free (now : Time) (db : Db) {final temporary : Place} (hne : final ≠ temporary)
    (htemporary : tree temporary = none) (hfinal : tree final = none)
    (hmatches : host.Matches artifact chunks.flatten) (hle : artifact.size ≤ maxArtifactBytes) :
    writeFile host now db tree artifact final temporary chunks =
      .ok ⟨markUploaded db artifact now, tree.put final (some (.file chunks.flatten))⟩ := by
  have hreceive : receive artifact [] chunks = .ok chunks.flatten :=
    receive_of_le [] ⟨hmatches.1.le, hmatches.1.le.trans hle⟩
  have hclear : tree.put temporary (some (.file chunks.flatten)) final = none := by
    rw [FileTree.Listing.put_of_ne hne, hfinal]
  simp only [writeFile, bind_eq_ok, ensure_eq_ok, pure_eq_ok]
  exact ⟨(), htemporary, _, hreceive, (), hmatches, (), hclear,
    by rw [FileTree.Listing.put_put_none htemporary]⟩

theorem uploadInTree_of_free (huuid : matchesUuid taskId = true)
    (hpath : validateRelativePath relativePath = .ok relativePath)
    (hfound : findUpload host.environment now storage.db taskId leaseToken relativePath =
      .ok artifact)
    (hnew : artifact.uploadedAt = none)
    (hway : ∀ place ∈ onTheWay host taskId relativePath, storage.tree place = some .directory)
    (hfinal : storage.tree (host.place taskId relativePath) = none)
    (hne : host.artifacts.identityPath (relativePath ++ ofString ".tmp-" ++ suffix) ≠
      host.artifacts.identityPath relativePath)
    (htemporary : storage.tree
      (host.place taskId (relativePath ++ ofString ".tmp-" ++ suffix)) = none)
    (hmatches : host.Matches artifact chunks.flatten) (hle : artifact.size ≤ maxArtifactBytes) :
    uploadInTree host now storage taskId leaseToken relativePath suffix chunks =
      .ok ⟨markUploaded storage.db artifact now,
        storage.tree.put (host.place taskId relativePath) (some (.file chunks.flatten))⟩ := by
  have hsafe : safeStoredPath host storage.tree taskId relativePath =
      .ok (host.place taskId relativePath, storage.tree) := by
    refine (safeStoredPath_eq_ok huuid hpath).mpr ⟨fun place hmem => ?_, ?_, rfl, ?_⟩
    · simp [hway place hmem]
    · simp [hfinal]
    · exact (FileTree.Listing.withDirectories_eq_self hway).symm
  have hwrite := writeFile_of_free now storage.db
    (fun heq => hne (place_inj.mp heq).symm) htemporary hfinal hmatches hle
  simp only [uploadInTree, bind_eq_ok, ensure_eq_ok]
  refine ⟨(), huuid, _, hpath, _, hfound, _, hsafe, ?_⟩
  simp only [hfinal]
  exact bind_eq_ok.mpr ⟨(), ensure_eq_ok.mpr hnew, hwrite⟩

/-- An upload takes no directory away, and has none at its place. -/
theorem uploadInTree_directory
    (h : uploadInTree host now storage taskId leaseToken relativePath suffix chunks =
      .ok storage') :
    (∀ place, storage.tree place = some .directory → storage'.tree place = some .directory) ∧
      storage.tree (host.place taskId relativePath) ≠ some .directory := by
  have hpath : ∀ {path}, validateRelativePath relativePath = .ok path → path = relativePath :=
    fun h => by
      simp only [validateRelativePath, bind_eq_ok, pure_eq_ok] at h
      obtain ⟨-, -, -, -, -, -, -, -, rfl⟩ := h
      rfl
  simp only [uploadInTree, bind_eq_ok, ensure_eq_ok] at h
  obtain ⟨-, -, path, hvalid, artifact, -, ⟨final, tree⟩, hsafe, h⟩ := h
  obtain rfl := hpath hvalid
  obtain ⟨hkept, -, htarget, rfl⟩ := safeStoredPath_directory hsafe
  refine ⟨fun place hplace => ?_, fun hdirectory => htarget (hkept _ hdirectory)⟩
  have hstays := hkept place hplace
  dsimp only at h
  split at h
  · cases h
  · simp only [bind_eq_ok, pure_eq_ok] at h
    obtain ⟨-, -, rfl⟩ := h
    exact hstays
  · rename_i hfinal
    simp only [writeFile, bind_eq_ok, ensure_eq_ok, pure_eq_ok] at h
    obtain ⟨-, -, -, htemporary, body, -, -, -, -, -, rfl⟩ := h
    have hne : place ≠ host.place taskId path := by
      rintro rfl
      exact absurd (hstays.symm.trans hfinal) (by simp)
    dsimp only
    rwa [FileTree.Listing.put_put_none htemporary, FileTree.Listing.put_of_ne hne]

/-! A manifest and the uploads of its files -/

/-- The call that uploads a file of a manifest. -/
structure FileUpload where
  entry : ArtifactManifestEntry
  chunks : List (List UInt8)
  suffix : JsString
  now : Time

def uploadAll (host : Host) (taskId leaseToken : JsString) (storage : Storage) :
    List FileUpload → Except Failure Storage
  | [] => .ok storage
  | upload :: uploads => do
      let storage ← uploadInTree host upload.now storage taskId leaseToken
        upload.entry.relativePath upload.suffix upload.chunks
      uploadAll host taskId leaseToken storage uploads

/-- What an agent sends for the artifacts of a task. -/
structure Delivery where
  agentId : Id
  taskId : Id
  message : TaskArtifactManifestMessage
  registeredAt : Time
  uploads : List FileUpload
  completion : TaskCompletedMessage
  completedAt : Time

namespace Delivery

/-- The manifest is accepted, every upload succeeds and leaves those before it as they are, and the
task is completed. -/
def Succeeds (host : Host) (storage : Storage) (delivery : Delivery) : Prop :=
  ∃ result registered stored db,
    registerInTree host delivery.registeredAt storage delivery.agentId delivery.message =
        .ok (result, registered) ∧
      uploadAll host delivery.taskId delivery.message.leaseToken registered delivery.uploads =
        .ok stored ∧
      (∀ done rest, delivery.uploads = done ++ rest → ∃ reached,
        uploadAll host delivery.taskId delivery.message.leaseToken registered done = .ok reached ∧
          ∀ upload ∈ done, reached.tree (host.place delivery.taskId upload.entry.relativePath) =
            some (.file upload.chunks.flatten)) ∧
      completeFromAgent host delivery.completedAt stored.db delivery.agentId delivery.completion =
        .ok (delivery.taskId, db)

/-- The agent holds the task, which has no artifacts and no directory yet, and sends an accepted
manifest and the files that it declares in some order. No temporary name is one of theirs. -/
structure Sound (host : Host) (storage : Storage) (files : List ArtifactManifestEntry)
    (delivery : Delivery) (agent : Agent) (task : BuildTask) : Prop where
  canonical : asciiLower delivery.taskId = delivery.taskId
  uuid : matchesUuid delivery.taskId = true
  agent_row : storage.db.agents.row delivery.agentId = some agent
  agent_ready : agent.enabled = true ∧ agent.status = .online
  agent_task : agent.activeTaskId = some delivery.taskId
  task_row : storage.db.tasks.row delivery.taskId = some task
  task_agent : task.agentId = delivery.agentId
  task_status : task.status = .uploading
  lease : leaseOpens host.environment task delivery.message.leaseToken = true
  live : ∀ now ∈ delivery.registeredAt :: delivery.completedAt ::
    delivery.uploads.map FileUpload.now, leaseLive now task = true
  no_rows : ∀ row ∈ storage.db.artifacts, row.taskId ≠ delivery.taskId
  empty : ∀ path, storage.tree (host.place delivery.taskId path) = none
  spelled : asciiLower delivery.message.taskId = delivery.taskId
  accepted : validateManifest host.artifacts delivery.message = .ok files
  artifactDir : task.assignedArtifactDir = some delivery.message.artifactDir
  order : (delivery.uploads.map FileUpload.entry).Perm delivery.message.files
  declared : ∀ upload ∈ delivery.uploads, upload.chunks.flatten.length = upload.entry.size ∧
    host.sha256 upload.chunks.flatten = upload.entry.sha256
  temporary : ∀ upload ∈ delivery.uploads, ∀ file ∈ delivery.message.files,
    ∀ path ∈ file.relativePath :: directories file.relativePath,
      host.artifacts.identityPath (upload.entry.relativePath ++ ofString ".tmp-" ++ upload.suffix) ≠
        host.artifacts.identityPath path
  completed : delivery.completion.taskId = delivery.taskId ∧ delivery.completion.exitCode = 0 ∧
    delivery.completion.leaseToken = delivery.message.leaseToken ∧
    delivery.completion.artifactCount = delivery.message.files.length ∧
    delivery.completion.artifactBytes = delivery.message.totalBytes

end Delivery

/-- Uploads take no directory away. -/
theorem uploadAll_directory {uploads : List FileUpload}
    (h : uploadAll host taskId leaseToken storage uploads = .ok storage') (place : Place)
    (hplace : storage.tree place = some .directory) : storage'.tree place = some .directory := by
  induction uploads generalizing storage with
  | nil =>
      obtain rfl := Except.ok.inj h
      exact hplace
  | cons upload uploads ih =>
      obtain ⟨reached, hreached, h⟩ := bind_eq_ok.mp h
      exact ih h ((uploadInTree_directory hreached).1 place hplace)

theorem uploadAll_append (uploads later : List FileUpload) :
    uploadAll host taskId leaseToken storage (uploads ++ later) = (do
      let storage ← uploadAll host taskId leaseToken storage uploads
      uploadAll host taskId leaseToken storage later) := by
  induction uploads generalizing storage with
  | nil => rfl
  | cons upload uploads ih =>
      rw [List.cons_append, uploadAll, uploadAll, bind_assoc]
      exact congrArg _ (funext fun storage => ih)

/-- Every upload that succeeds is of a file at whose place there was no directory at the start. -/
theorem uploadAll_target {uploads : List FileUpload}
    (h : uploadAll host taskId leaseToken storage uploads = .ok storage') :
    ∀ upload ∈ uploads,
      storage.tree (host.place taskId upload.entry.relativePath) ≠ some .directory := by
  intro upload hmem hdirectory
  obtain ⟨done, later, rfl⟩ := List.append_of_mem hmem
  rw [uploadAll_append] at h
  obtain ⟨reached, hreached, h⟩ := bind_eq_ok.mp h
  obtain ⟨_, hupload, -⟩ := bind_eq_ok.mp h
  exact (uploadInTree_directory hupload).2 (uploadAll_directory hreached _ hdirectory)

/-! The registration -/

theorem filter_eq_nil_of_no_rows {db : Db} (h : ∀ row ∈ db.artifacts, row.taskId ≠ taskId) :
    db.artifacts.filter (fun row => decide (row.taskId = taskId)) = [] :=
  List.filter_eq_nil_iff.mpr fun row hmem => by simpa using h row hmem

theorem any_eq_false_of_no_rows {db : Db} (h : ∀ row ∈ db.artifacts, row.taskId ≠ taskId) :
    db.artifacts.any (fun row => row.taskId == taskId) = false :=
  List.any_eq_false.mpr fun row hmem => by simpa using h row hmem

/-- `validateManifest` does not touch the file system. -/
theorem validateManifest_congr {artifacts artifacts' : ArtifactHost}
    {message : TaskArtifactManifestMessage}
    (h : validateManifest artifacts message = .ok files)
    (hidentity : artifacts'.identityPath = artifacts.identityPath)
    (hlocale : artifacts'.localeLe = artifacts.localeLe) :
    validateManifest artifacts' message = .ok files := by
  simp only [validateManifest, bind_eq_ok, pure_eq_ok] at h ⊢
  obtain ⟨_, hchecks, sum, hfiles, _, hsum, hsorted⟩ := h
  rw [ArtifactScan.validateFiles_ok_iff artifacts message.files [] (Nat.zero_le _)] at hfiles
  refine ⟨(), hchecks, sum, ?_, (), hsum, by rw [hlocale, hsorted]⟩
  rw [ArtifactScan.validateFiles_ok_iff artifacts' message.files [] (Nat.zero_le _), hidentity]
  exact hfiles

namespace Delivery

variable {delivery : Delivery} {agent : Agent} {task : BuildTask}

theorem Sound.leaseOfUploading (h : delivery.Sound host storage files agent task) {now : Time}
    (hnow : now ∈ delivery.registeredAt :: delivery.completedAt ::
      delivery.uploads.map FileUpload.now) :
    leaseOfUploading host.environment now agent delivery.taskId task
      delivery.message.leaseToken = true := by
  rw [ArtifactsService.leaseOfUploading, h.live now hnow, h.lease]
  simp [h.agent_task, h.task_status]

theorem Sound.perm (h : delivery.Sound host storage files agent task) :
    files.Perm delivery.message.files := by
  rw [(ValidManifest.of_ok h.accepted).sorted]
  exact List.mergeSort_perm _ _

theorem Sound.valid (h : delivery.Sound host storage files agent task) :
    ∀ file ∈ files, ArtifactScan.ServiceFile file := fun file hmem =>
  (ValidManifest.of_ok h.accepted).valid file (h.perm.subset hmem)

theorem Sound.nodup (h : delivery.Sound host storage files agent task) :
    (files.map fun file => host.artifacts.identityPath file.relativePath).Nodup :=
  ((h.perm.map _).nodup_iff).mpr (ValidManifest.of_ok h.accepted).nodup

/-- The database with the rows of the manifest. -/
def rowsAdded (db : Db) (taskId : Id) (files : List ArtifactManifestEntry) : Db :=
  { db with artifacts := db.artifacts ++ files.map (artifactRow taskId) }

theorem matchesUuid_of_asciiLower {spelled : JsString} (h : asciiLower spelled = taskId)
    (huuid : matchesUuid taskId = true) : matchesUuid spelled = true := by
  have hlength : taskId.length = spelled.length := by rw [← h, asciiLower, List.length_map]
  have hlower : asciiLower taskId = asciiLower spelled := by rw [← h, asciiLower_asciiLower]
  rwa [matchesUuid, ← hlower, ← hlength]

theorem registerFromAgent_of_prepared (h : delivery.Sound host storage files agent task)
    (prepare : Id → List ArtifactManifestEntry → Except Failure Unit)
    (hprepare : prepare delivery.taskId files = .ok ()) :
    registerFromAgent
        { host with artifacts := { host.artifacts with prepareTaskDirectory := prepare } }
        delivery.registeredAt storage.db delivery.agentId delivery.message =
      .ok (files, ⟨delivery.taskId, true, files.length, delivery.message.totalBytes⟩,
        rowsAdded storage.db delivery.taskId files) := by
  have huuid := matchesUuid_of_asciiLower h.spelled h.uuid
  have hvalid : validateManifest { host.artifacts with prepareTaskDirectory := prepare }
      delivery.message = .ok files := validateManifest_congr h.accepted rfl rfl
  have hlease := h.leaseOfUploading List.mem_cons_self
  simp only [registerFromAgent, registerManifest, bind_eq_ok, require_eq_ok, ensure_eq_ok,
    pure_eq_ok, Db.lockAgent, Db.findTask, h.spelled, huuid, filter_eq_nil_of_no_rows h.no_rows]
  refine ⟨(), trivial, files, hvalid,
    (⟨delivery.taskId, true, files.length, delivery.message.totalBytes⟩,
      rowsAdded storage.db delivery.taskId files),
    ⟨agent, h.agent_row, (), h.agent_ready, task, h.task_row, (), ⟨h.task_agent, hlease⟩, (),
      h.artifactDir, ?_⟩, rfl⟩
  rw [if_neg (by simp), hprepare]
  rfl

theorem registerInTree_of_storable (h : delivery.Sound host storage files agent task)
    (hstorable : Storable host.artifacts files) :
    registerInTree host delivery.registeredAt storage delivery.agentId delivery.message =
      .ok (⟨delivery.taskId, true, files.length, delivery.message.totalBytes⟩,
        ⟨rowsAdded storage.db delivery.taskId files,
          storage.tree.withDirectories (allDirectories host delivery.taskId files)⟩) := by
  have hprepare : prepareTaskDirectory host storage.tree delivery.taskId files =
      .ok (storage.tree.withDirectories (allDirectories host delivery.taskId files)) := by
    refine prepareTaskDirectory_of_free h.uuid (fun file hmem => (h.valid file hmem).path)
      (fun x hx y hy => hstorable.not_mem_onTheWay hx hy) (fun path content => ?_)
      (fun file _ => ?_)
    · simp [h.empty path]
    · simp [h.empty file.relativePath]
  have hanswer := registerFromAgent_of_prepared h
    (fun taskId files => (prepareTaskDirectory host storage.tree taskId files).map fun _ => ())
    (by rw [hprepare]; rfl)
  rw [registerInTree, hanswer, h.spelled]
  refine bind_eq_ok.mpr ⟨_, rfl, ?_⟩
  dsimp only
  rw [any_eq_false_of_no_rows h.no_rows, if_neg Bool.false_ne_true, hprepare]
  rfl

/-- A registration that succeeds has made the directories for all files. -/
theorem registerInTree_directory (h : delivery.Sound host storage files agent task)
    {result : ManifestResult}
    (hregister : registerInTree host delivery.registeredAt storage delivery.agentId
      delivery.message = .ok (result, storage')) :
    ∀ place ∈ allDirectories host delivery.taskId files,
      storage'.tree place = some .directory := by
  simp only [registerInTree, bind_eq_ok, h.spelled] at hregister
  obtain ⟨⟨accepted, answer, db⟩, hanswer, hregister⟩ := hregister
  have haccepted : accepted = files := by
    simp only [registerFromAgent, bind_eq_ok, pure_eq_ok, Prod.mk.injEq] at hanswer
    obtain ⟨-, -, valid, hvalid, -, -, rfl, -⟩ := hanswer
    have hsame : validateManifest host.artifacts delivery.message = .ok valid :=
      validateManifest_congr hvalid rfl rfl
    rw [h.accepted] at hsame
    exact (Except.ok.inj hsame).symm
  dsimp only at hregister
  rw [any_eq_false_of_no_rows h.no_rows, if_neg Bool.false_ne_true, haccepted] at hregister
  obtain ⟨tree, htree, hregister⟩ := bind_eq_ok.mp hregister
  obtain ⟨-, rfl⟩ := Prod.mk.inj (Except.ok.inj hregister)
  exact (prepareTaskDirectory_directory htree).2

theorem Succeeds.storable (hsucceeds : delivery.Succeeds host storage)
    (h : delivery.Sound host storage files agent task) :
    Storable host.artifacts delivery.message.files := by
  obtain ⟨result, registered, stored, db, hregister, hupload, -, -⟩ := hsucceeds
  intro x hx y hy directory hdirectory hidentity
  obtain ⟨upload, hmem, rfl⟩ := List.mem_map.mp (h.order.symm.subset hx)
  refine uploadAll_target hupload upload hmem ?_
  rw [place_inj.mpr hidentity]
  refine registerInTree_directory h hregister _ ?_
  exact List.mem_flatMap.mpr ⟨y, h.perm.symm.subset hy, List.mem_map_of_mem hdirectory⟩

end Delivery

/-! The rows while the files come in -/

/-- The row of a file of a manifest with the upload time it has got. -/
def markedRow (taskId : Id) (marks : ArtifactManifestEntry → Option Time)
    (file : ArtifactManifestEntry) : Artifact :=
  { artifactRow taskId file with uploadedAt := marks file }

variable {marks : ArtifactManifestEntry → Option Time} {rows : List Artifact}
  {file : ArtifactManifestEntry}

theorem find_markedRow (marks : ArtifactManifestEntry → Option Time)
    (hothers : ∀ row ∈ rows, row.taskId ≠ taskId)
    (hnodup : (files.map ArtifactManifestEntry.relativePath).Nodup) (hfile : file ∈ files) :
    (rows ++ files.map (markedRow taskId marks)).find?
        (fun row => row.taskId == taskId && row.relativePath == file.relativePath) =
      some (markedRow taskId marks file) := by
  have hnone : rows.find?
      (fun row => row.taskId == taskId && row.relativePath == file.relativePath) = none := by
    rw [List.find?_eq_none]
    intro row hmem
    simp [hothers row hmem]
  have hself : (fun row : Artifact => row.taskId == taskId && row.relativePath == file.relativePath)
      (markedRow taskId marks file) = true := by
    simp [markedRow, artifactRow]
  rw [List.find?_append, hnone, Option.none_or]
  cases hfind : (files.map (markedRow taskId marks)).find?
      (fun row => row.taskId == taskId && row.relativePath == file.relativePath) with
  | none =>
      exact absurd hself (List.find?_eq_none.mp hfind _ (List.mem_map_of_mem hfile))
  | some row =>
      obtain ⟨other, hother, rfl⟩ := List.mem_map.mp (List.mem_of_find?_eq_some hfind)
      have hpath := List.find?_some hfind
      simp only [Bool.and_eq_true, beq_iff_eq] at hpath
      rw [List.inj_on_of_nodup_map hnodup hother hfile hpath.2]

theorem markUploaded_markedRow {db : Db} (hothers : ∀ row ∈ rows, row.taskId ≠ taskId)
    (hnodup : (files.map ArtifactManifestEntry.relativePath).Nodup) (hfile : file ∈ files)
    (hrows : db.artifacts = rows ++ files.map (markedRow taskId marks)) (now : Time) :
    (markUploaded db (markedRow taskId marks file) now).artifacts =
      rows ++ files.map (markedRow taskId (Function.update marks file (some now))) := by
  refine (congrArg (List.map _) hrows).trans ?_
  rw [List.map_append, List.map_map]
  refine congrArg₂ (· ++ ·) ?_ ?_
  · refine (List.map_congr_left fun row hmem => if_neg ?_).trans (List.map_id' rows)
    simpa [Store.isRowOf, markedRow, artifactRow] using fun htask => absurd htask (hothers row hmem)
  · refine List.map_congr_left fun other hother => ?_
    rw [Function.comp_apply]
    by_cases hsame : other = file
    · rw [hsame, if_pos (by simp [Store.isRowOf]), markedRow, markedRow, Function.update_self]
    · have hpath : other.relativePath ≠ file.relativePath := fun hpath =>
        hsame (List.inj_on_of_nodup_map hnodup hother hfile hpath)
      rw [if_neg (by simp [Store.isRowOf, markedRow, artifactRow, hpath]), markedRow, markedRow,
        Function.update_of_ne hsame]

/-! The storage while the files come in -/

/-- The storage once some files of a manifest are in. -/
structure Stored (host : Host) (taskId : Id) (files : List ArtifactManifestEntry) (db : Db)
    (done : List FileUpload) (reached : Storage) : Prop where
  directory : ∀ place ∈ allDirectories host taskId files, reached.tree place = some .directory
  written : ∀ upload ∈ done, reached.tree (host.place taskId upload.entry.relativePath) =
    some (.file upload.chunks.flatten)
  free : ∀ path, host.place taskId path ∉ allDirectories host taskId files →
    (∀ upload ∈ done, host.place taskId path ≠ host.place taskId upload.entry.relativePath) →
      reached.tree (host.place taskId path) = none
  agents_eq : reached.db.agents = db.agents
  tasks_eq : reached.db.tasks = db.tasks
  rows_eq : ∃ marks : ArtifactManifestEntry → Option Time,
    reached.db.artifacts = db.artifacts ++ files.map (markedRow taskId marks) ∧
      ∀ file ∈ files, (marks file).isSome = true ↔ file ∈ done.map FileUpload.entry

namespace Delivery

variable {delivery : Delivery} {agent : Agent} {task : BuildTask} {done : List FileUpload}
  {upload : FileUpload} {reached : Storage}

theorem Sound.mem_files (h : delivery.Sound host storage files agent task)
    (hupload : upload ∈ delivery.uploads) : upload.entry ∈ files :=
  h.perm.symm.subset (h.order.subset (List.mem_map_of_mem hupload))

theorem Sound.nodup_paths (h : delivery.Sound host storage files agent task) :
    (files.map ArtifactManifestEntry.relativePath).Nodup := by
  have hnodup := h.nodup
  rw [← Function.comp_def host.artifacts.identityPath, ← List.map_map] at hnodup
  exact .of_map _ hnodup

theorem Sound.nodup_uploads (h : delivery.Sound host storage files agent task) :
    (delivery.uploads.map fun upload =>
      host.place delivery.taskId upload.entry.relativePath).Nodup := by
  have hplaces : (files.map fun file => host.place delivery.taskId file.relativePath).Nodup := by
    refine List.Nodup.of_map Prod.snd ?_
    rw [List.map_map]
    exact h.nodup
  have hperm := (h.order.trans h.perm.symm).map
    fun file => host.place delivery.taskId file.relativePath
  rw [List.map_map] at hperm
  exact hperm.nodup_iff.mpr hplaces

/-- The storage right after the registration. -/
theorem Sound.stored_nil (h : delivery.Sound host storage files agent task) :
    Stored host delivery.taskId files storage.db []
      ⟨rowsAdded storage.db delivery.taskId files,
        storage.tree.withDirectories (allDirectories host delivery.taskId files)⟩ where
  directory place := FileTree.Listing.withDirectories_of_mem
  written upload hmem := absurd hmem List.not_mem_nil
  free path hmem _ := by
    dsimp only
    rw [FileTree.Listing.withDirectories_of_not_mem hmem]
    exact h.empty path
  agents_eq := rfl
  tasks_eq := rfl
  rows_eq := ⟨fun _ => none, rfl, by simp⟩

theorem Sound.findUpload (h : delivery.Sound host storage files agent task)
    (hstored : Stored host delivery.taskId files storage.db done reached)
    (hupload : upload ∈ delivery.uploads)
    {marks : ArtifactManifestEntry → Option Time}
    (hrows : reached.db.artifacts =
      storage.db.artifacts ++ files.map (markedRow delivery.taskId marks)) :
    findUpload host.environment upload.now reached.db delivery.taskId delivery.message.leaseToken
      upload.entry.relativePath = .ok (markedRow delivery.taskId marks upload.entry) := by
  have hrow := find_markedRow marks h.no_rows h.nodup_paths (h.mem_files hupload)
  have hlease := h.leaseOfUploading (List.mem_cons_of_mem _ (List.mem_cons_of_mem _
    (List.mem_map_of_mem hupload)))
  simp only [ArtifactUploads.findUpload, bind_eq_ok, require_eq_ok, ensure_eq_ok, pure_eq_ok,
    h.canonical, hrows, hstored.agents_eq, hstored.tasks_eq]
  exact ⟨_, hrow, task, h.task_row, agent, by rw [h.task_agent, h.agent_row], (), h.agent_ready,
    (), hlease, rfl⟩

/-- An upload of a file that is not in yet succeeds, and the file is in. -/
theorem Sound.uploadInTree (h : delivery.Sound host storage files agent task)
    (hstorable : Storable host.artifacts files)
    (hstored : Stored host delivery.taskId files storage.db done reached)
    (hupload : upload ∈ delivery.uploads)
    (hnew : ∀ other ∈ done, host.place delivery.taskId upload.entry.relativePath ≠
      host.place delivery.taskId other.entry.relativePath)
    (hdone : ∀ other ∈ done, other ∈ delivery.uploads) :
    ∃ next, uploadInTree host upload.now reached delivery.taskId delivery.message.leaseToken
        upload.entry.relativePath upload.suffix upload.chunks = .ok next ∧
      Stored host delivery.taskId files storage.db (done ++ [upload]) next := by
  obtain ⟨marks, hrows, hmarks⟩ := hstored.rows_eq
  have hfile := h.mem_files hupload
  have hvalid := h.valid upload.entry hfile
  have hnotDirectory : host.place delivery.taskId upload.entry.relativePath ∉
      allDirectories host delivery.taskId files := by
    intro hmem
    obtain ⟨other, hother, hmem⟩ := List.mem_flatMap.mp hmem
    exact hstorable.not_mem_onTheWay hfile hother hmem
  have htemporary : ∀ file ∈ files, ∀ path ∈ file.relativePath :: directories file.relativePath,
      host.place delivery.taskId
          (upload.entry.relativePath ++ ofString ".tmp-" ++ upload.suffix) ≠
        host.place delivery.taskId path := fun file hmem path hpath heq =>
    h.temporary upload hupload file (h.perm.subset hmem) path hpath (place_inj.mp heq)
  have hunmarked : marks upload.entry = none := by
    rw [← Option.not_isSome_iff_eq_none, hmarks upload.entry hfile]
    intro hmem
    obtain ⟨other, hother, heq⟩ := List.mem_map.mp hmem
    exact hnew other hother (by rw [heq])
  have hfree := hstored.free _ hnotDirectory hnew
  have hfreeTemporary : reached.tree (host.place delivery.taskId
      (upload.entry.relativePath ++ ofString ".tmp-" ++ upload.suffix)) = none := by
    refine hstored.free _ (fun hmem => ?_) (fun other hother => ?_)
    · obtain ⟨file, hmem, hway⟩ := List.mem_flatMap.mp hmem
      obtain ⟨directory, hdirectory, heq⟩ := List.mem_map.mp hway
      exact htemporary file hmem directory (List.mem_cons_of_mem _ hdirectory) heq.symm
    · exact htemporary other.entry (h.mem_files (hdone other hother)) _ List.mem_cons_self
  have hsize : upload.entry.size ≤ maxArtifactBytes := by
    have hall := ValidManifest.of_ok h.accepted
    refine le_trans ?_ hall.size_le
    exact List.single_le_sum (fun _ _ => Nat.zero_le _) _
      (List.mem_map_of_mem (h.perm.subset hfile))
  have hdirectory : ∀ place ∈ onTheWay host delivery.taskId upload.entry.relativePath,
      reached.tree place = some .directory := fun place hmem =>
    hstored.directory place (List.mem_flatMap.mpr ⟨upload.entry, hfile, hmem⟩)
  refine ⟨_, uploadInTree_of_free h.uuid hvalid.path (h.findUpload hstored hupload hrows) hunmarked
    hdirectory hfree (fun heq => htemporary upload.entry hfile _ List.mem_cons_self
      (place_inj.mpr heq)) hfreeTemporary (h.declared upload hupload) hsize, ?_⟩
  constructor
  case directory =>
    intro place hmem
    dsimp only
    rw [FileTree.Listing.put_of_ne]
    · exact hstored.directory place hmem
    · rintro rfl
      exact hnotDirectory hmem
  case written =>
    intro other hother
    dsimp only
    rcases List.mem_append.mp hother with hother | hother
    · rw [FileTree.Listing.put_of_ne (hnew other hother).symm]
      exact hstored.written other hother
    · rw [List.mem_singleton.mp hother, FileTree.Listing.put_self]
  case free =>
    intro path hmem hpath
    dsimp only
    rw [FileTree.Listing.put_of_ne (hpath upload (List.mem_append_right _ List.mem_cons_self))]
    exact hstored.free path hmem fun other hother => hpath other (List.mem_append_left _ hother)
  case agents_eq => exact hstored.agents_eq
  case tasks_eq => exact hstored.tasks_eq
  case rows_eq =>
    refine ⟨Function.update marks upload.entry (some upload.now),
      markUploaded_markedRow h.no_rows h.nodup_paths hfile hrows upload.now, fun file hmem => ?_⟩
    rw [List.map_append, List.mem_append]
    by_cases hsame : file = upload.entry
    · rw [hsame, Function.update_self]
      simp
    · rw [Function.update_of_ne hsame, hmarks file hmem]
      simp [hsame]

/-- Uploads of files that are not in yet succeed, and the files are in. -/
theorem Sound.uploadAll (h : delivery.Sound host storage files agent task)
    (hstorable : Storable host.artifacts files) (uploads : List FileUpload) :
    ∀ {done reached}, Stored host delivery.taskId files storage.db done reached →
      (∀ upload ∈ done ++ uploads, upload ∈ delivery.uploads) →
      ((done ++ uploads).map fun upload =>
        host.place delivery.taskId upload.entry.relativePath).Nodup →
      ∃ stored, uploadAll host delivery.taskId delivery.message.leaseToken reached uploads =
          .ok stored ∧
        Stored host delivery.taskId files storage.db (done ++ uploads) stored := by
  induction uploads with
  | nil =>
      intro done reached hstored _ _
      exact ⟨reached, rfl, by rwa [List.append_nil]⟩
  | cons upload uploads ih =>
      intro done reached hstored hmem hnodup
      have hnew : ∀ other ∈ done, host.place delivery.taskId upload.entry.relativePath ≠
          host.place delivery.taskId other.entry.relativePath := by
        intro other hother heq
        rw [List.map_append, List.nodup_append] at hnodup
        exact hnodup.2.2 _ (List.mem_map_of_mem hother) _
          (List.mem_map_of_mem List.mem_cons_self) heq.symm
      obtain ⟨next, hnext, hstored'⟩ := h.uploadInTree hstorable hstored
        (hmem upload (List.mem_append_right _ List.mem_cons_self)) hnew
        (fun other hother => hmem other (List.mem_append_left _ hother))
      rw [List.append_cons] at hmem hnodup
      obtain ⟨stored, hrest, hstored⟩ := ih hstored' hmem hnodup
      refine ⟨stored, bind_eq_ok.mpr ⟨next, hnext, hrest⟩, ?_⟩
      rwa [List.append_cons]

theorem totalSize_markedRow (marks : ArtifactManifestEntry → Option Time) :
    totalSize (files.map (markedRow taskId marks)) = ArtifactScan.entriesSize files := by
  induction files with
  | nil => rfl
  | cons file files ih =>
      rw [List.map_cons, totalSize, ih, ArtifactScan.entriesSize, ArtifactScan.entriesSize,
        List.map_cons, List.sum_cons]
      rfl

/-- With all files in, the task is completed. -/
theorem Sound.complete (h : delivery.Sound host storage files agent task)
    (hstored : Stored host delivery.taskId files storage.db delivery.uploads reached) :
    ∃ db, completeFromAgent host delivery.completedAt reached.db delivery.agentId
      delivery.completion = .ok (delivery.taskId, db) := by
  obtain ⟨marks, hrows, hmarks⟩ := hstored.rows_eq
  obtain ⟨hname, hexit, htoken, hcount, hbytes⟩ := h.completed
  have hlease := h.leaseOfUploading (List.mem_cons_of_mem _ List.mem_cons_self)
  have hfilter : reached.db.artifacts.filter
      (fun row => decide (row.taskId = delivery.taskId)) =
        files.map (markedRow delivery.taskId marks) := by
    rw [hrows, List.filter_append, filter_eq_nil_of_no_rows h.no_rows, List.nil_append,
      List.filter_eq_self]
    intro row hmem
    obtain ⟨file, -, rfl⟩ := List.mem_map.mp hmem
    exact decide_eq_true rfl
  have hvalid := ValidManifest.of_ok h.accepted
  have hne : files ≠ [] := fun hnil => hvalid.ne_nil (List.nil_perm.mp (hnil ▸ h.perm))
  have hall : (files.map (markedRow delivery.taskId marks)).all
      (fun row => row.uploadedAt.isSome) = true := by
    rw [List.all_map, List.all_eq_true]
    intro file hmem
    exact (hmarks file hmem).mpr (h.order.symm.subset (h.perm.subset hmem))
  have hsize : totalSize (files.map (markedRow delivery.taskId marks)) =
      delivery.completion.artifactBytes := by
    rw [totalSize_markedRow, hbytes, ← hvalid.size_eq]
    exact (h.perm.map _).sum_eq
  have hlength : (files.map (markedRow delivery.taskId marks)).length =
      delivery.completion.artifactCount := by
    rw [List.length_map, h.perm.length_eq, hcount]
  have hstatus : task.status ≠ .succeeded := by simp [h.task_status]
  simp only [completeFromAgent, validCompletion, completeTask, bind_eq_ok, require_eq_ok,
    ensure_eq_ok, Db.lockAgent, Db.findTask, hname, h.canonical, hexit, htoken,
    hstored.agents_eq, hstored.tasks_eq, h.uuid, decide_true, Bool.and_true]
  apply Exists.intro
  refine ⟨(), trivial, agent, h.agent_row, (), h.agent_ready, task, h.task_row, (),
    h.task_agent, ?_⟩
  rw [if_neg hstatus]
  simp only [bind_eq_ok, ensure_eq_ok, hfilter]
  refine ⟨(), hlease, (), ⟨by simpa using hne, hall, hlength, hsize⟩, _,
    transition_eq_ok.mpr ⟨task, ?_, .inr ⟨?_, ?_, rfl⟩⟩, rfl⟩
  · rw [hstored.tasks_eq, h.task_row]
  · rw [h.task_status]
    rfl
  · rintro ⟨hslot, -⟩
    cases hslot

end Delivery

/-- The files of an accepted manifest can be uploaded in a given order exactly when none of them is
at the place of a directory on the way to another. -/
theorem delivery_succeeds_iff {delivery : Delivery} {agent : Agent} {task : BuildTask}
    (h : delivery.Sound host storage files agent task) :
    delivery.Succeeds host storage ↔ Storable host.artifacts delivery.message.files := by
  refine ⟨fun hsucceeds => hsucceeds.storable h, fun hstorable => ?_⟩
  have hfiles : Storable host.artifacts files := fun x hx y hy =>
    hstorable x (h.perm.subset hx) y (h.perm.subset hy)
  have hnodup := h.nodup_uploads
  obtain ⟨stored, hall, hstored⟩ := h.uploadAll hfiles delivery.uploads h.stored_nil
    (fun upload hmem => hmem) hnodup
  obtain ⟨db, hcomplete⟩ := h.complete hstored
  refine ⟨_, _, stored, db, Delivery.registerInTree_of_storable h hfiles, hall,
    fun done rest heq => ?_, hcomplete⟩
  rw [heq, List.map_append] at hnodup
  obtain ⟨reached, hreached, hstored'⟩ := h.uploadAll hfiles done h.stored_nil
    (fun upload hmem => by rw [heq]; exact List.mem_append_left rest hmem)
    (List.nodup_append.mp hnodup).1
  exact ⟨reached, hreached, hstored'.written⟩

/-! Files with the same content -/

open AnvilRun.SlotSystem

def unixHost : Host :=
  { demoHost with artifacts := ArtifactScan.unixHost }

def newStorage : Storage :=
  ⟨uploadDb, fun _ => none⟩

def helloFile (path : String) : ArtifactManifestEntry :=
  ⟨ofString path, 5, demoDigest⟩

def helloDelivery (files : List ArtifactManifestEntry) : Delivery where
  agentId := demoAgentId
  taskId := uploadId
  message := { demoManifest with totalBytes := 5 * files.length, files }
  registeredAt := 0
  uploads := files.map fun file => ⟨file, [demoBytes], ofString "1-0-a", 0⟩
  completion := { demoCompletion with
    artifactCount := files.length
    artifactBytes := 5 * files.length }
  completedAt := 0

theorem helloDelivery_sound (files : List ArtifactManifestEntry)
    (hsorted : files.Pairwise fun x y => fileLe ArtifactScan.unixHost x y = true)
    (hfiles : ∀ file ∈ files, file.size = 5 ∧ file.sha256 = demoDigest)
    (hvalid : validateManifest ArtifactScan.unixHost (helloDelivery files).message =
      .ok (files.mergeSort (fileLe ArtifactScan.unixHost)))
    (htemporary : ∀ file ∈ files, ∀ other ∈ files,
      ∀ path ∈ other.relativePath :: directories other.relativePath,
        file.relativePath ++ ofString ".tmp-" ++ ofString "1-0-a" ≠ path) :
    (helloDelivery files).Sound unixHost newStorage files ⟨true, .online, some uploadId⟩
      uploadingTask where
  canonical := by
    show asciiLower uploadId = uploadId
    decide
  uuid := by
    show matchesUuid uploadId = true
    decide
  agent_row := by
    show (if demoAgentId = demoAgentId then some _ else none) = _
    exact if_pos rfl
  agent_ready := ⟨rfl, rfl⟩
  agent_task := rfl
  task_row := by
    show (if uploadId = uploadId then some uploadingTask else none) = _
    exact if_pos rfl
  task_agent := rfl
  task_status := rfl
  lease := by
    show leaseOpens demoEnvironment uploadingTask demoToken = true
    decide
  live now hnow := by
    have hzero : now = 0 := by
      simp only [helloDelivery, List.map_map, List.mem_cons, List.mem_map] at hnow
      obtain rfl | rfl | ⟨file, -, rfl⟩ := hnow <;> rfl
    rw [hzero]
    decide
  no_rows row hmem := absurd hmem List.not_mem_nil
  empty path := rfl
  spelled := by
    show asciiLower uploadId = uploadId
    decide
  accepted := by rwa [List.mergeSort_of_pairwise hsorted] at hvalid
  artifactDir := rfl
  order := by
    rw [helloDelivery, List.map_map]
    exact .of_eq (List.map_id files)
  declared upload hmem := by
    obtain ⟨file, hfile, rfl⟩ := List.mem_map.mp hmem
    obtain ⟨hsize, hdigest⟩ := hfiles file hfile
    dsimp only
    rw [hsize, hdigest]
    decide
  temporary upload hmem other hother path hpath := by
    obtain ⟨file, hfile, rfl⟩ := List.mem_map.mp hmem
    exact htemporary file hfile other hother path hpath
  completed := ⟨rfl, rfl, rfl, rfl, rfl⟩

theorem helloDelivery_succeeds :
    (helloDelivery [helloFile "app.txt", helloFile "doc/a.txt"]).Succeeds unixHost newStorage := by
  refine (delivery_succeeds_iff (helloDelivery_sound _ (by decide) (by decide) rfl
    (by decide))).mpr ?_
  unfold Storable
  decide

/-- A file called as the directory of another one. -/
theorem helloDelivery_not_succeeds :
    ¬ ∀ (host : Host) (storage : Storage) (files : List ArtifactManifestEntry)
      (delivery : Delivery) (agent : Agent) (task : BuildTask),
      delivery.Sound host storage files agent task → delivery.Succeeds host storage := by
  intro h
  have hsound := helloDelivery_sound [helloFile "app", helloFile "app/a.txt"] (by decide)
    (by decide) rfl (by decide)
  have hstorable := (h _ _ _ _ _ _ hsound).storable hsound
  revert hstorable
  unfold Storable
  decide

end AnvilRun.ArtifactUploads
