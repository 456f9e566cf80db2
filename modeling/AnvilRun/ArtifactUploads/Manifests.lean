import AnvilRun.ArtifactUploads.Integrity
import AnvilRun.SortedLists

namespace AnvilRun.ArtifactUploads

open scoped List

open AnvilRun.ArtifactsService
open AnvilRun.Fallible
open AnvilRun.SortedLists (TotalPreorder)

variable {host : ArtifactHost} {message : TaskArtifactManifestMessage}
  {files : List ArtifactManifestEntry}

/-- The order in which `validateManifest` and `manifestMatches` put files. -/
def fileLe (host : ArtifactHost) (x y : ArtifactManifestEntry) : Bool :=
  host.localeLe x.relativePath y.relativePath

theorem TotalPreorder.fileLe (h : TotalPreorder host.localeLe) : TotalPreorder (fileLe host) where
  total x y := h.total x.relativePath y.relativePath
  trans x y z := h.trans x.relativePath y.relativePath z.relativePath

/-- What `validateManifest` promises of a manifest it accepts. -/
structure ValidManifest (host : ArtifactHost) (message : TaskArtifactManifestMessage)
    (files : List ArtifactManifestEntry) : Prop where
  valid : ∀ item ∈ message.files, ArtifactScan.ServiceFile item
  nodup : (message.files.map fun item => host.identityPath item.relativePath).Nodup
  ne_nil : message.files ≠ []
  size_le : ArtifactScan.entriesSize message.files ≤ maxArtifactBytes
  size_eq : ArtifactScan.entriesSize message.files = message.totalBytes
  sorted : files = message.files.mergeSort (fileLe host)

theorem ValidManifest.of_ok (h : validateManifest host message = .ok files) :
    ValidManifest host message files := by
  simp only [validateManifest, bind_eq_ok, ensure_eq_ok, pure_eq_ok] at h
  obtain ⟨-, ⟨-, -, -, hne, -, -⟩, sum, hfiles, -, hsum, rfl⟩ := h
  obtain ⟨hitems, hnodup, hle, htotal⟩ := (ArtifactScan.validateFiles_ok_iff host message.files []
    (Nat.zero_le _) sum).mp hfiles
  rw [Nat.zero_add] at hle htotal
  exact ⟨fun item hmem => (hitems item hmem).1, hnodup, hne, hle, htotal.symm.trans hsum, rfl⟩

theorem manifestMatches_iff (existing : List TaskDatabase.Artifact) :
    manifestMatches host existing files = true ↔
      (existing.map manifestEntry).mergeSort (fileLe host) = files :=
  decide_eq_true_iff

/-- The rows of a manifest are recognised exactly when the paths that the order takes for equal
stand in the rows as they stand in the manifest. -/
theorem manifestMatches_perm_iff (horder : TotalPreorder host.localeLe)
    (hvalid : validateManifest host message = .ok files) (existing : List TaskDatabase.Artifact) :
    (manifestMatches host existing files = true ↔
        (existing.map manifestEntry).Perm message.files) ↔
      ((existing.map manifestEntry).Perm message.files → ∀ x y,
        host.localeLe x.relativePath y.relativePath = true →
        host.localeLe y.relativePath x.relativePath = true →
          [x, y] <+ existing.map manifestEntry → [x, y] <+ message.files) := by
  obtain ⟨-, hnodup, -, -, -, rfl⟩ := ValidManifest.of_ok hvalid
  have hsort : (existing.map manifestEntry).Perm message.files →
      ((existing.map manifestEntry).mergeSort (fileLe host) =
          message.files.mergeSort (fileLe host) ↔
        ∀ x y, host.localeLe x.relativePath y.relativePath = true →
          host.localeLe y.relativePath x.relativePath = true →
            [x, y] <+ existing.map manifestEntry → [x, y] <+ message.files) :=
    (TotalPreorder.fileLe horder).mergeSort_eq_iff (.of_map _ hnodup)
  rw [manifestMatches_iff]
  constructor
  · exact fun h hperm => (hsort hperm).mp (h.mpr hperm)
  · refine fun h => ⟨fun heq => ?_, fun hperm => (hsort hperm).mpr (h hperm)⟩
    exact ((List.mergeSort_perm _ (fileLe host)).symm.trans (.of_eq heq)).trans
      (List.mergeSort_perm _ _)

theorem totalPreorder_of_key (key : JsString → JsString) :
    TotalPreorder fun x y => decide (key x ≤ key y) where
  total x y := by
    rw [decide_eq_true_eq, decide_eq_true_eq]
    exact List.le_total _ _
  trans x y z := by
    rw [decide_eq_true_eq, decide_eq_true_eq, decide_eq_true_eq]
    exact List.le_trans

def zeros : JsString :=
  List.replicate 64 48

def messageOf (files : List ArtifactManifestEntry) : TaskArtifactManifestMessage :=
  ⟨[], [], [0x64], 0, files⟩

/-- Two empty files, `a` and `b`. -/
def plainPair : List ArtifactManifestEntry :=
  [⟨[0x61], 0, zeros⟩, ⟨[0x62], 0, zeros⟩]

theorem manifestMatches_plainPair :
    manifestMatches ArtifactScan.unixHost (plainPair.reverse.map (artifactRow [])) plainPair =
        true ↔
      ((plainPair.reverse.map (artifactRow [])).map manifestEntry).Perm plainPair := by
  have hsorted : plainPair.mergeSort (fileLe ArtifactScan.unixHost) = plainPair :=
    List.mergeSort_of_pairwise (by decide)
  have hvalid : validateManifest ArtifactScan.unixHost (messageOf plainPair) =
      .ok (plainPair.mergeSort (fileLe ArtifactScan.unixHost)) := rfl
  rw [hsorted] at hvalid
  refine (manifestMatches_perm_iff (totalPreorder_of_key id) hvalid _).mpr
    fun _ x y hxy hyx hsub => ?_
  have hpath : x.relativePath = y.relativePath :=
    List.le_antisymm (of_decide_eq_true hxy) (of_decide_eq_true hyx)
  have hx : x ∈ plainPair.reverse := hsub.subset List.mem_cons_self
  have hy : y ∈ plainPair.reverse := hsub.subset (List.mem_cons_of_mem x List.mem_cons_self)
  have hentry : x = y := List.inj_on_of_nodup_map (f := ArtifactManifestEntry.relativePath)
    (l := plainPair.reverse) (by decide) hx hy hpath
  have hnodup : plainPair.reverse.Nodup := by decide
  exact absurd (hentry ▸ hsub) (List.nodup_iff_sublist.mp hnodup x)

/-- A text with one character for a letter and the accent that follows it. -/
def composed : JsString → JsString
  | 0x65 :: 0x301 :: units => 0xE9 :: composed units
  | unit :: units => unit :: composed units
  | [] => []

/-- A server on Unix that compares texts by their characters. -/
def composingHost : ArtifactHost where
  localeLe := fun left right => decide (composed left ≤ composed right)
  identityPath := fun path => path
  prepareTaskDirectory := fun _ _ => .ok ()

/-- Two files whose names are one text to a reader. -/
def accentedPair : List ArtifactManifestEntry :=
  [⟨[0x65, 0x301], 0, zeros⟩, ⟨[0xE9], 0, zeros⟩]

/-- The rows of an accepted manifest, read in the other order. -/
theorem manifestMatches_accentedPair :
    ¬ ∀ (host : ArtifactHost) (message : TaskArtifactManifestMessage)
      (files : List ArtifactManifestEntry) (existing : List TaskDatabase.Artifact),
      TotalPreorder host.localeLe → validateManifest host message = .ok files →
        (manifestMatches host existing files = true ↔
          (existing.map manifestEntry).Perm message.files) := by
  intro h
  have hsorted : accentedPair.mergeSort (fileLe composingHost) = accentedPair :=
    List.mergeSort_of_pairwise (by decide)
  have hvalid : validateManifest composingHost (messageOf accentedPair) =
      .ok (accentedPair.mergeSort (fileLe composingHost)) := rfl
  rw [hsorted] at hvalid
  have hmatches := h composingHost (messageOf accentedPair) accentedPair
    (accentedPair.reverse.map (artifactRow [])) (totalPreorder_of_key composed) hvalid
  have hrows : (accentedPair.reverse.map (artifactRow [])).map manifestEntry =
      accentedPair.reverse := rfl
  rw [manifestMatches_iff, hrows, List.mergeSort_of_pairwise (by decide)] at hmatches
  exact absurd (hmatches.mpr (List.reverse_perm accentedPair)) (by decide)

end AnvilRun.ArtifactUploads
