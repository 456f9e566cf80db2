import AnvilRun.ArtifactScan.Accepted
import AnvilRun.ArtifactUploads
import AnvilRun.SlotSystem
import Mathlib.Data.List.Nodup

namespace AnvilRun.ArtifactUploads

open AnvilRun.ArtifactsService
open AnvilRun.Fallible
open AnvilRun.TaskDatabase
open AnvilRun.TaskQueue
open AnvilRun.ValidationPrimitives

/-- The name of the temporary file of a call that may be there. -/
def Progress.temporary : Progress → Option JsString
  | .writing _ temporary _ | .closed _ temporary | .measured _ temporary | .clear _ temporary
  | .moved _ temporary | .cleaning temporary _ => some temporary
  | _ => none

def Progress.stage : Progress → Turn.Stage
  | .waiting => .waiting
  | .done => .released
  | _ => .inside

def HasRow (rows : List Artifact) (path : JsString) : Prop :=
  ∃ row ∈ rows, row.relativePath = path

/-- The artifact that a call has found is the row of its path, upload time apart. -/
def Known (rows : List Artifact) (taskId : Id) (path : JsString) (artifact : Artifact) : Prop :=
  artifact.taskId = taskId ∧ artifact.relativePath = path ∧
    ∃ row ∈ rows, row.relativePath = path ∧ row.size = artifact.size ∧ row.sha256 = artifact.sha256

def Unmarked (rows : List Artifact) (path : JsString) : Prop :=
  ∀ row ∈ rows, row.relativePath = path → row.uploadedAt = none

/-- Whether there is a file with the size and the digest of an artifact. -/
def Store.Holds (store : Store) (host : Host) (place : Place) (artifact : Artifact) : Prop :=
  ∃ content, store.files place = some content ∧ host.Matches artifact content

/-- What a call relies on. -/
def Upload.Sound (host : Host) (store : Store) (rows : List Artifact) (upload : Upload) : Prop :=
  match upload.progress with
  | .waiting | .looking | .leaving | .done => True
  | .found artifact | .prepared artifact =>
      Known rows upload.taskId upload.relativePath artifact ∧
        (artifact.uploadedAt = none → Unmarked rows upload.relativePath)
  | .existing artifact | .absent artifact =>
      Known rows upload.taskId upload.relativePath artifact ∧ Unmarked rows upload.relativePath
  | .verified artifact | .moved artifact _ =>
      Known rows upload.taskId upload.relativePath artifact ∧ Unmarked rows upload.relativePath ∧
        store.Holds host (upload.finalPlace host) artifact
  | .writing artifact temporary body =>
      Known rows upload.taskId upload.relativePath artifact ∧ Unmarked rows upload.relativePath ∧
        store.files (upload.temporaryPlace host temporary) = some body
  | .closed artifact temporary | .measured artifact temporary | .clear artifact temporary =>
      Known rows upload.taskId upload.relativePath artifact ∧ Unmarked rows upload.relativePath ∧
        store.Holds host (upload.temporaryPlace host temporary) artifact
  | .cleaning _ moved => HasRow rows upload.relativePath ∧
      (moved = true → Unmarked rows upload.relativePath)
  | .removing => HasRow rows upload.relativePath ∧ Unmarked rows upload.relativePath

/-- What a step changes of the rows: some get an upload time. -/
def MarksAt (path : JsString) (rows rows' : List Artifact) : Prop :=
  ∃ f : Artifact → Artifact, rows' = rows.map f ∧ ∀ row, f row = row ∨
    row.relativePath = path ∧ ∃ now, f row = { row with uploadedAt := some now }

/-- What the manifest says of a row. -/
def manifestEntry (row : Artifact) : ArtifactManifestEntry :=
  ⟨row.relativePath, row.size, row.sha256⟩

variable {host : Host} {store store' : Store} {rows rows' : List Artifact} {path other : JsString}
  {taskId : Id} {artifact : Artifact}

theorem marksAt_refl : MarksAt path rows rows :=
  ⟨id, (List.map_id rows).symm, fun _ => Or.inl rfl⟩

theorem MarksAt.relativePath_eq {f : Artifact → Artifact}
    (hf : ∀ row, f row = row ∨
      row.relativePath = path ∧ ∃ now, f row = { row with uploadedAt := some now })
    (row : Artifact) : (f row).relativePath = row.relativePath := by
  rcases hf row with hrow | ⟨-, now, hrow⟩ <;> rw [hrow]

theorem MarksAt.known (h : MarksAt path rows rows') (hknown : Known rows taskId other artifact) :
    Known rows' taskId other artifact := by
  obtain ⟨f, rfl, hf⟩ := h
  obtain ⟨htask, hpath, row, hmem, hrow, hsize, hsha⟩ := hknown
  refine ⟨htask, hpath, f row, List.mem_map_of_mem hmem, ?_⟩
  rcases hf row with hsame | ⟨-, now, hsame⟩ <;> rw [hsame] <;> exact ⟨hrow, hsize, hsha⟩

theorem MarksAt.hasRow (h : MarksAt path rows rows') (hrow : HasRow rows other) :
    HasRow rows' other := by
  obtain ⟨f, rfl, hf⟩ := h
  obtain ⟨row, hmem, hpath⟩ := hrow
  exact ⟨f row, List.mem_map_of_mem hmem, (MarksAt.relativePath_eq hf row).trans hpath⟩

theorem MarksAt.unmarked (h : MarksAt path rows rows') (hne : other ≠ path)
    (hunmarked : Unmarked rows other) : Unmarked rows' other := by
  obtain ⟨f, rfl, hf⟩ := h
  intro row' hmem hpath
  obtain ⟨row, hrow, rfl⟩ := List.mem_map.mp hmem
  rw [MarksAt.relativePath_eq hf] at hpath
  rcases hf row with hsame | ⟨hmarked, -⟩
  · rw [hsame]
    exact hunmarked row hrow hpath
  · exact absurd (hpath.symm.trans hmarked) hne

theorem MarksAt.mem_of_ne (h : MarksAt path rows rows') {row : Artifact} (hrow : row ∈ rows')
    (hne : row.relativePath ≠ path) : row ∈ rows := by
  obtain ⟨f, rfl, hf⟩ := h
  obtain ⟨row, hmem, rfl⟩ := List.mem_map.mp hrow
  rw [MarksAt.relativePath_eq hf] at hne
  rcases hf row with hsame | ⟨hpath, -⟩
  · rwa [hsame]
  · exact absurd hpath hne

theorem MarksAt.eq_nil (h : MarksAt path rows rows') (hnil : rows = []) : rows' = [] := by
  obtain ⟨f, rfl, -⟩ := h
  rw [hnil, List.map_nil]

theorem MarksAt.ne_nil (h : MarksAt path rows rows') (hne : rows ≠ []) : rows' ≠ [] := by
  obtain ⟨f, rfl, -⟩ := h
  simpa using hne

theorem MarksAt.all_marked (h : MarksAt path rows rows')
    (hall : ∀ row ∈ rows, row.uploadedAt ≠ none) : ∀ row ∈ rows', row.uploadedAt ≠ none := by
  obtain ⟨f, rfl, hf⟩ := h
  intro row' hrow'
  obtain ⟨row, hrow, rfl⟩ := List.mem_map.mp hrow'
  rcases hf row with hsame | ⟨-, now, hsame⟩
  · rw [hsame]
    exact hall row hrow
  · rw [hsame]
    simp

theorem MarksAt.map_manifestEntry (h : MarksAt path rows rows') :
    rows'.map manifestEntry = rows.map manifestEntry := by
  obtain ⟨f, rfl, hf⟩ := h
  rw [List.map_map]
  refine List.map_congr_left fun row _ => ?_
  rw [Function.comp_apply]
  rcases hf row with hsame | ⟨-, now, hsame⟩
  · rw [hsame]
  · rw [hsame]
    rfl

theorem Known.hasRow (h : Known rows taskId other artifact) : HasRow rows other := by
  obtain ⟨-, -, row, hmem, hpath, -⟩ := h
  exact ⟨row, hmem, hpath⟩

/-- Rows whose paths the file system tells apart. -/
def Apart (host : Host) (rows : List Artifact) : Prop :=
  (rows.map (fun row => host.artifacts.identityPath row.relativePath)).Nodup

theorem Apart.eq_of_identity (h : Apart host rows) {row row' : Artifact} (hrow : row ∈ rows)
    (hrow' : row' ∈ rows) (hpath : host.artifacts.identityPath row.relativePath =
      host.artifacts.identityPath row'.relativePath) : row = row' :=
  List.inj_on_of_nodup_map h hrow hrow' hpath

/-- Paths of rows that differ are different files. -/
theorem Apart.place_ne (h : Apart host rows) (hrow : HasRow rows path) (hother : HasRow rows other)
    (hne : other ≠ path) (directory : JsString) :
    host.place directory other ≠ host.place directory path := by
  obtain ⟨row, hmem, rfl⟩ := hrow
  obtain ⟨row', hmem', rfl⟩ := hother
  intro hplace
  exact hne (congrArg Artifact.relativePath
    (h.eq_of_identity hmem' hmem (Prod.mk.inj hplace).2))

theorem MarksAt.apart (h : MarksAt path rows rows') (hapart : Apart host rows) :
    Apart host rows' := by
  obtain ⟨f, rfl, hf⟩ := h
  rw [Apart] at hapart ⊢
  rw [List.map_map]
  simpa only [Function.comp_def, MarksAt.relativePath_eq hf] using hapart

/-- A row with the path of a found artifact has its size and digest. -/
theorem Known.matches_iff (hknown : Known rows taskId path artifact) (hapart : Apart host rows)
    {row : Artifact} (hrow : row ∈ rows) (hpath : row.relativePath = path)
    (content : List UInt8) : host.Matches row content ↔ host.Matches artifact content := by
  obtain ⟨-, -, known, hmem, hknownPath, hsize, hsha⟩ := hknown
  obtain rfl := hapart.eq_of_identity hrow hmem (by rw [hpath, hknownPath])
  rw [Host.Matches, Host.Matches, hsize, hsha]

/-! One step of a call -/

/-- Names that a step of a call may write to besides the final one. -/
def IsTemporary (progress progress' : Progress) (temporary : JsString) : Prop :=
  progress.temporary = some temporary ∨ progress'.temporary = some temporary

/-- What a step of a call does to what the other calls see. -/
structure Effect (host : Host) (taskId : Id) (upload : Upload) (progress : Progress)
    (store store' : Store) : Prop where
  rows : MarksAt upload.relativePath (store.rows taskId) (store'.rows taskId)
  tasks : store'.db.tasks = store.db.tasks
  files : ∀ place, store'.files place = store.files place ∨
    HasRow (store.rows taskId) upload.relativePath ∧ (place = upload.finalPlace host ∨
      ∃ temporary, IsTemporary upload.progress progress temporary ∧
        place = upload.temporaryPlace host temporary)
  sound : Upload.Sound host store' (store'.rows taskId) { upload with progress }
  own : ∀ row ∈ store'.rows taskId, row.relativePath = upload.relativePath → row.uploadedAt ≠ none →
    store'.Holds host (upload.finalPlace host) row

theorem rows_markWhere {now : Time} {picked : Artifact → Bool} (taskId : Id) :
    (store.markWhere now picked).rows taskId = (store.rows taskId).map (fun row =>
      if picked row then { row with uploadedAt := some now } else row) := by
  rw [Store.rows, Store.markWhere, Store.rows, List.filter_map]
  congr 2
  funext row
  simp only [Function.comp_apply]
  split_ifs <;> rfl

theorem marksAt_markWhere {now : Time} {picked : Artifact → Bool}
    (hpicked : ∀ row, picked row = true → row.relativePath = path) (taskId : Id) :
    MarksAt path (store.rows taskId) ((store.markWhere now picked).rows taskId) := by
  refine ⟨_, rows_markWhere taskId, fun row => ?_⟩
  split_ifs with h
  · exact Or.inr ⟨hpicked row h, now, rfl⟩
  · exact Or.inl rfl

theorem relativePath_of_isRowOf {row : Artifact} (h : Store.isRowOf artifact row = true) :
    row.relativePath = artifact.relativePath := by
  rw [Store.isRowOf, Bool.and_eq_true, beq_iff_eq, beq_iff_eq] at h
  exact h.2

theorem findUpload_known {env : Environment} {now : Time} {leaseToken relativePath : JsString}
    (hcanonical : asciiLower taskId = taskId)
    (h : findUpload env now store.db taskId leaseToken relativePath = .ok artifact) :
    artifact ∈ store.rows taskId ∧ artifact.relativePath = relativePath := by
  simp only [findUpload, bind_eq_ok, require_eq_ok, pure_eq_ok] at h
  obtain ⟨found, hfind, -, -, -, -, -, -, -, -, rfl⟩ := h
  have hrow := List.find?_some hfind
  rw [Bool.and_eq_true, beq_iff_eq, beq_iff_eq, hcanonical] at hrow
  exact ⟨List.mem_filter.mpr ⟨List.mem_of_find?_eq_some hfind, decide_eq_true hrow.1⟩, hrow.2⟩

/-- What is known in front of a step of a call. -/
structure Before (host : Host) (taskId : Id) (upload : Upload) (store : Store) : Prop where
  task : upload.taskId = taskId
  canonical : asciiLower taskId = taskId
  apart : Apart host (store.rows taskId)
  uploaded : ∀ row ∈ store.rows taskId, row.uploadedAt ≠ none →
    store.Holds host (host.place taskId row.relativePath) row
  sound : Upload.Sound host store (store.rows taskId) upload

variable {upload : Upload} {progress : Progress} {temporary : JsString}

theorem Before.own (h : Before host taskId upload store) :
    ∀ row ∈ store.rows taskId, row.relativePath = upload.relativePath → row.uploadedAt ≠ none →
      store.Holds host (upload.finalPlace host) row := by
  intro row hrow hpath hmarked
  have huploaded := h.uploaded row hrow hmarked
  rwa [hpath, ← h.task] at huploaded

/-- A step that changes nothing but the place of the call. -/
theorem Before.effect_same (h : Before host taskId upload store)
    (hsound : Upload.Sound host store (store.rows taskId) { upload with progress }) :
    Effect host taskId upload progress store store :=
  ⟨marksAt_refl, rfl, fun _ => Or.inl rfl, hsound, h.own⟩

/-- A step that writes to the temporary file. -/
theorem Before.effect_temporary (h : Before host taskId upload store)
    (hrow : HasRow (store.rows taskId) upload.relativePath)
    (hfresh : ∀ row ∈ store.rows taskId,
      host.artifacts.identityPath row.relativePath ≠ host.artifacts.identityPath temporary)
    (htemporary : IsTemporary upload.progress progress temporary) (hdb : store'.db = store.db)
    (hfiles : ∀ place, place ≠ upload.temporaryPlace host temporary →
      store'.files place = store.files place)
    (hsound : Upload.Sound host store' (store.rows taskId) { upload with progress }) :
    Effect host taskId upload progress store store' := by
  have hrows : store'.rows taskId = store.rows taskId := by rw [Store.rows, hdb, Store.rows]
  have hfinal : upload.finalPlace host ≠ upload.temporaryPlace host temporary := by
    obtain ⟨row, hmem, hpath⟩ := hrow
    intro hplace
    exact hfresh row hmem (hpath ▸ (Prod.mk.inj hplace).2)
  refine ⟨hrows ▸ marksAt_refl, congrArg Db.tasks hdb, fun place => ?_, hrows ▸ hsound, ?_⟩
  · by_cases hplace : place = upload.temporaryPlace host temporary
    · exact Or.inr ⟨hrow, Or.inr ⟨temporary, htemporary, hplace⟩⟩
    · exact Or.inl (hfiles place hplace)
  · intro row hmem hpath hmarked
    rw [hrows] at hmem
    obtain ⟨content, hfile, hmatches⟩ := h.own row hmem hpath hmarked
    exact ⟨content, by rw [hfiles _ hfinal, hfile], hmatches⟩

/-- A step that writes to the final file of an artifact without an upload time. -/
theorem effect_final (hrow : HasRow (store.rows taskId) upload.relativePath)
    (hunmarked : Unmarked (store.rows taskId) upload.relativePath) (hdb : store'.db = store.db)
    (hfiles : ∀ place, place ≠ upload.finalPlace host → store'.files place = store.files place ∨
      ∃ temporary, IsTemporary upload.progress progress temporary ∧
        place = upload.temporaryPlace host temporary)
    (hsound : Upload.Sound host store' (store.rows taskId) { upload with progress }) :
    Effect host taskId upload progress store store' := by
  have hrows : store'.rows taskId = store.rows taskId := by rw [Store.rows, hdb, Store.rows]
  refine ⟨hrows ▸ marksAt_refl, congrArg Db.tasks hdb, fun place => ?_, hrows ▸ hsound, ?_⟩
  · by_cases hplace : place = upload.finalPlace host
    · exact Or.inr ⟨hrow, Or.inl hplace⟩
    · exact (hfiles place hplace).imp_right fun htemporary => ⟨hrow, Or.inr htemporary⟩
  · intro row hmem hpath hmarked
    rw [hrows] at hmem
    exact absurd (hunmarked row hmem hpath) hmarked

theorem tryRemove_files {place : Place} {removed : Bool} (other : Place) (hne : other ≠ place) :
    (store.tryRemove place removed).files other = store.files other := by
  cases removed with
  | false => rfl
  | true => exact Function.update_of_ne hne _ _

theorem tryRemove_db (place : Place) (removed : Bool) :
    (store.tryRemove place removed).db = store.db := by
  cases removed <;> rfl

/-- A step that gives rows of the path an upload time once the file is there. -/
theorem Before.effect_mark (h : Before host taskId upload store) {now : Time}
    {picked : Artifact → Bool} (hknown : Known (store.rows taskId) upload.taskId upload.relativePath
      artifact) (hfile : store.Holds host (upload.finalPlace host) artifact)
    (hpicked : ∀ row, picked row = true → row.relativePath = upload.relativePath) :
    Effect host taskId upload .leaving store (store.markWhere now picked) := by
  have hmarks := @marksAt_markWhere store _ now picked hpicked taskId
  refine ⟨hmarks, rfl, fun _ => Or.inl rfl, trivial, ?_⟩
  intro row hmem hpath _
  obtain ⟨content, hcontent, hmatches⟩ := hfile
  exact ⟨content, hcontent,
    ((hmarks.known hknown).matches_iff (hmarks.apart h.apart) hmem hpath content).mpr hmatches⟩

theorem Upload.Step.effect {action : Action} (h : upload.Step host store action store' progress)
    (hlost : action ≠ .loseUpdate) (hbefore : Before host taskId upload store)
    (hfresh : ∀ temporary, IsTemporary upload.progress progress temporary →
      ∀ row ∈ store.rows taskId,
        host.artifacts.identityPath row.relativePath ≠ host.artifacts.identityPath temporary) :
    Effect host taskId upload progress store store' := by
  have hsound := hbefore.sound
  rw [Upload.Sound] at hsound
  cases h with
  | @look now artifact hprogress hfound =>
      rw [hbefore.task] at hfound
      obtain ⟨hmem, hpath⟩ := findUpload_known hbefore.canonical hfound
      have hrow : artifact.taskId = upload.taskId := by
        rw [hbefore.task]
        exact of_decide_eq_true (List.mem_filter.mp hmem).2
      refine hbefore.effect_same ⟨⟨hrow, hpath, artifact, hmem, hpath, rfl, rfl⟩, ?_⟩
      intro hnew row hmem' hpath'
      rwa [hbefore.apart.eq_of_identity hmem' hmem (by rw [hpath', hpath])]
  | prepare hprogress =>
      rw [hprogress] at hsound
      exact hbefore.effect_same hsound
  | compare hprogress huploaded => exact hbefore.effect_same trivial
  | existing hprogress hnew hfile =>
      rw [hprogress] at hsound
      exact hbefore.effect_same ⟨hsound.1, hsound.2 hnew⟩
  | absent hprogress hnew hfile =>
      rw [hprogress] at hsound
      exact hbefore.effect_same ⟨hsound.1, hsound.2 hnew⟩
  | hash hprogress hfile hmatches =>
      rw [hprogress] at hsound
      exact hbefore.effect_same ⟨hsound.1, hsound.2, _, hfile, hmatches⟩
  | restore now hprogress =>
      rw [hprogress] at hsound
      obtain ⟨hknown, -, hfile⟩ := hsound
      refine hbefore.effect_mark hknown hfile (fun row hrow => ?_)
      rw [Bool.and_eq_true] at hrow
      exact (relativePath_of_isRowOf hrow.1).trans hknown.2.1
  | @openNew artifact suffix hprogress hfile =>
      rw [hprogress] at hsound
      refine hbefore.effect_temporary hsound.1.hasRow (hfresh _ (Or.inr rfl)) (Or.inr rfl) rfl
        (fun place hplace => Function.update_of_ne hplace _ _) ⟨hsound.1, hsound.2, ?_⟩
      exact Function.update_self _ _ _
  | openExisting hprogress =>
      rw [hprogress] at hsound
      exact hbefore.effect_same ⟨hsound.1.hasRow, fun h => nomatch h⟩
  | write chunk hprogress hsize =>
      rw [hprogress] at hsound
      refine hbefore.effect_temporary hsound.1.hasRow (hfresh _ (Or.inr rfl)) (Or.inr rfl) rfl
        (fun place hplace => Function.update_of_ne hplace _ _) ⟨hsound.1, hsound.2.1, ?_⟩
      exact (Function.update_self _ _ _).trans (congrArg (Option.map _) hsound.2.2)
  | writeFailed written hprogress =>
      rw [hprogress] at hsound
      exact hbefore.effect_temporary hsound.1.hasRow (hfresh _ (Or.inr rfl)) (Or.inr rfl) rfl
        (fun place hplace => Function.update_of_ne hplace _ _)
        ⟨hsound.1.hasRow, fun h => nomatch h⟩
  | close hprogress hmatches =>
      rw [hprogress] at hsound
      exact hbefore.effect_same ⟨hsound.1, hsound.2.1, _, hsound.2.2, hmatches⟩
  | measure hprogress hfile hsize =>
      rw [hprogress] at hsound
      exact hbefore.effect_same hsound
  | check hprogress hfile =>
      rw [hprogress] at hsound
      exact hbefore.effect_same hsound
  | @rename artifact temporary content hprogress hfile =>
      rw [hprogress] at hsound
      obtain ⟨hknown, hunmarked, content, hcontent, hmatches⟩ := hsound
      obtain rfl := Option.some.inj (hfile.symm.trans hcontent)
      refine effect_final hknown.hasRow hunmarked rfl (fun place hplace => ?_)
        ⟨hknown, hunmarked, _, Function.update_self _ _ _, hmatches⟩
      by_cases htemporary : place = upload.temporaryPlace host temporary
      · exact Or.inr ⟨temporary, Or.inr rfl, htemporary⟩
      · left
        exact (Function.update_of_ne hplace _ _).trans (Function.update_of_ne htemporary _ _)
  | update now hprogress =>
      rw [hprogress] at hsound
      obtain ⟨hknown, -, hfile⟩ := hsound
      exact hbefore.effect_mark hknown hfile
        (fun row hrow => (relativePath_of_isRowOf hrow).trans hknown.2.1)
  | updateLost now hprogress => exact absurd rfl hlost
  | fail hprogress => exact hbefore.effect_same trivial
  | failWritten hprogress =>
      have hrow : HasRow (store.rows taskId) upload.relativePath := by
        rcases hprogress with ⟨body, hprogress⟩ | hprogress | hprogress | hprogress <;>
          rw [hprogress] at hsound <;> exact hsound.1.hasRow
      exact hbefore.effect_same ⟨hrow, fun h => nomatch h⟩
  | failMoved hprogress =>
      rw [hprogress] at hsound
      exact hbefore.effect_same ⟨hsound.1.hasRow, fun _ => hsound.2.1⟩
  | @removeTemporary temporary moved removed hprogress =>
      rw [hprogress] at hsound
      have htemporary : upload.progress.temporary = some temporary := by rw [hprogress]; rfl
      refine hbefore.effect_temporary hsound.1 (hfresh _ (Or.inl htemporary)) (Or.inl htemporary)
        (tryRemove_db _ removed) (fun place hplace => tryRemove_files place hplace) ?_
      cases moved with
      | false => trivial
      | true => exact ⟨hsound.1, hsound.2 rfl⟩
  | removeFinal removed hprogress =>
      rw [hprogress] at hsound
      exact effect_final hsound.1 hsound.2 (tryRemove_db _ removed)
        (fun place hplace => Or.inl (tryRemove_files place hplace)) trivial

/-- A step of a call leaves the files of the other artifacts. -/
theorem Effect.files_row (heffect : Effect host taskId upload progress store store')
    (htask : upload.taskId = taskId) (hapart : Apart host (store.rows taskId))
    (hfresh : ∀ temporary, IsTemporary upload.progress progress temporary →
      ∀ row ∈ store.rows taskId,
        host.artifacts.identityPath row.relativePath ≠ host.artifacts.identityPath temporary)
    {row : Artifact} (hrow : row ∈ store.rows taskId)
    (hne : row.relativePath ≠ upload.relativePath) :
    store'.files (host.place taskId row.relativePath) =
      store.files (host.place taskId row.relativePath) := by
  rcases heffect.files (host.place taskId row.relativePath) with
    hsame | ⟨hother, hplace | ⟨temporary, htemporary, hplace⟩⟩
  · exact hsame
  · rw [Upload.finalPlace, htask] at hplace
    exact absurd hplace (hapart.place_ne hother ⟨row, hrow, rfl⟩ hne _)
  · exact absurd (Prod.mk.inj hplace).2 (hfresh temporary htemporary row hrow)

/-- A step of a call leaves what a call for another path relies on. -/
theorem Effect.frame (heffect : Effect host taskId upload progress store store') {call : Upload}
    (htask : upload.taskId = taskId) (hcall : call.taskId = taskId) (hne : call.relativePath ≠ upload.relativePath)
    (hapart : Apart host (store.rows taskId))
    (hfresh : ∀ temporary, IsTemporary upload.progress progress temporary →
      ∀ row ∈ store.rows taskId,
        host.artifacts.identityPath row.relativePath ≠ host.artifacts.identityPath temporary)
    (hcallFresh : ∀ temporary, call.progress.temporary = some temporary →
      (∀ row ∈ store.rows taskId,
        host.artifacts.identityPath row.relativePath ≠ host.artifacts.identityPath temporary) ∧
      ∀ temporary', IsTemporary upload.progress progress temporary' →
        host.artifacts.identityPath temporary ≠ host.artifacts.identityPath temporary')
    (hsound : Upload.Sound host store (store.rows taskId) call) :
    Upload.Sound host store' (store'.rows taskId) call := by
  have hfinal : HasRow (store.rows taskId) call.relativePath →
      store'.files (call.finalPlace host) = store.files (call.finalPlace host) := by
    rintro ⟨row, hrow, hpath⟩
    rw [Upload.finalPlace, hcall, ← hpath]
    exact heffect.files_row htask hapart hfresh hrow (hpath ▸ hne)
  have htemporary : ∀ temporary, call.progress.temporary = some temporary →
      store'.files (call.temporaryPlace host temporary) =
        store.files (call.temporaryPlace host temporary) := by
    intro temporary hcallTemporary
    obtain ⟨hrows, hothers⟩ := hcallFresh temporary hcallTemporary
    rcases heffect.files (call.temporaryPlace host temporary) with
      hsame | ⟨⟨row, hmem, hpath⟩, hplace | ⟨temporary', htemporary', hplace⟩⟩
    · exact hsame
    · exact absurd (hpath ▸ (Prod.mk.inj hplace).2.symm) (hrows row hmem)
    · exact absurd (Prod.mk.inj hplace).2 (hothers temporary' htemporary')
  have hmarks := heffect.rows
  cases hprogress : call.progress <;> rw [Upload.Sound, hprogress] at hsound <;>
    rw [Upload.Sound, hprogress]
  case waiting | looking | leaving | done => trivial
  case found artifact | prepared artifact =>
    exact ⟨hmarks.known hsound.1, fun hnew => hmarks.unmarked hne (hsound.2 hnew)⟩
  case existing artifact | absent artifact =>
    exact ⟨hmarks.known hsound.1, hmarks.unmarked hne hsound.2⟩
  case verified artifact | moved artifact temporary =>
    refine ⟨hmarks.known hsound.1, hmarks.unmarked hne hsound.2.1, ?_⟩
    rw [Store.Holds, hfinal hsound.1.hasRow]
    exact hsound.2.2
  case writing artifact temporary body =>
    refine ⟨hmarks.known hsound.1, hmarks.unmarked hne hsound.2.1, ?_⟩
    rw [htemporary temporary (by rw [hprogress]; rfl)]
    exact hsound.2.2
  case closed artifact temporary | measured artifact temporary | clear artifact temporary =>
    refine ⟨hmarks.known hsound.1, hmarks.unmarked hne hsound.2.1, ?_⟩
    rw [Store.Holds, htemporary temporary (by rw [hprogress]; rfl)]
    exact hsound.2.2
  case cleaning temporary moved =>
    exact ⟨hmarks.hasRow hsound.1, fun hmoved => hmarks.unmarked hne (hsound.2 hmoved)⟩
  case removing => exact ⟨hmarks.hasRow hsound.1, hmarks.unmarked hne hsound.2⟩

/-! The invariant -/

/-- A condition on the steps: every upload spells the id of the task as it is stored, no update of a
row is committed whose call gets an error, and the name of a temporary file is neither the path of an
artifact nor the name of the temporary file of another call. -/
def Orderly (host : Host) (taskId : Id) (s : State) : Event → Prop
  | .upload spelled => spelled = taskId
  | .act _ .loseUpdate => False
  | .act n (.openTemporary temporary) =>
      (∀ row ∈ s.store.rows taskId,
        host.artifacts.identityPath row.relativePath ≠ host.artifacts.identityPath temporary) ∧
      ∀ m call temporary', m ≠ n → s.uploads m = some call →
        call.progress.temporary = some temporary' →
        host.artifacts.identityPath temporary' ≠ host.artifacts.identityPath temporary
  | _ => True

structure Invariant (host : Host) (taskId : Id) (s : State) : Prop where
  canonical : asciiLower taskId = taskId
  locks : s.locks.WellFormed
  spelled : ∀ n upload, s.uploads n = some upload → upload.taskId = taskId
  turns : ∀ n upload, s.uploads n = some upload → ∃ turn, s.locks.turn n = some turn ∧
    turn.key = upload.key ∧ turn.stage = upload.progress.stage
  apart : Apart host (s.store.rows taskId)
  uploaded : ∀ row ∈ s.store.rows taskId, row.uploadedAt ≠ none →
    s.store.Holds host (host.place taskId row.relativePath) row
  sound : ∀ n upload, s.uploads n = some upload →
    Upload.Sound host s.store (s.store.rows taskId) upload
  fresh : ∀ n upload temporary, s.uploads n = some upload →
    upload.progress.temporary = some temporary → ∀ row ∈ s.store.rows taskId,
      host.artifacts.identityPath row.relativePath ≠ host.artifacts.identityPath temporary
  apart_temporary : ∀ n m upload call temporary temporary', m ≠ n → s.uploads n = some upload →
    s.uploads m = some call → upload.progress.temporary = some temporary →
    call.progress.temporary = some temporary' →
    host.artifacts.identityPath temporary' ≠ host.artifacts.identityPath temporary
  manifest : s.store.rows taskId = [] ∨ ∃ files, s.accepted = some files ∧
    ((s.store.rows taskId).map manifestEntry).Perm files
  succeeded : ∀ task, s.store.db.tasks.row taskId = some task → task.status = .succeeded →
    s.store.rows taskId ≠ [] ∧ ∀ row ∈ s.store.rows taskId, row.uploadedAt ≠ none

variable {s t : State} {n : Nat} {action : Action}

theorem Upload.Step.inside (h : upload.Step host store action store' progress) :
    upload.progress.stage = .inside ∧ progress.stage = .inside := by
  cases h with
  | fail hprogress =>
      rcases hprogress with h | h | h | h | h | h <;> rw [h] <;> exact ⟨rfl, rfl⟩
  | failWritten hprogress =>
      rcases hprogress with ⟨body, h⟩ | h | h | h <;> rw [h] <;> exact ⟨rfl, rfl⟩
  | @removeTemporary temporary moved removed hprogress =>
      rw [hprogress]
      cases moved <;> exact ⟨rfl, rfl⟩
  | _ => simp_all [Progress.stage]

/-- A step keeps the name of the temporary file, or opens it. -/
theorem Upload.Step.temporary_cases (h : upload.Step host store action store' progress)
    (htemporary : progress.temporary = some temporary) :
    upload.progress.temporary = some temporary ∨ action = .openTemporary temporary := by
  cases h with
  | failWritten hprogress =>
      rcases hprogress with ⟨body, h⟩ | h | h | h <;> rw [h] <;> exact Or.inl htemporary
  | @removeTemporary temporary moved removed hprogress =>
      cases moved <;> simp [Progress.temporary] at htemporary
  | openNew hprogress hfile =>
      right
      rw [← Option.some.inj htemporary]
  | openExisting hprogress =>
      right
      rw [← Option.some.inj htemporary]
  | _ => simp_all [Progress.temporary]

theorem exists_of_setUpload {m : Nat} {call : Upload}
    (h : (s.setUpload n upload progress).uploads m = some call) :
    m = n ∧ call = { upload with progress } ∨ m ≠ n ∧ s.uploads m = some call := by
  dsimp only [State.setUpload] at h
  rw [Function.update_apply] at h
  split_ifs at h with hm
  · exact Or.inl ⟨hm, (Option.some.inj h).symm⟩
  · exact Or.inr ⟨hm, h⟩

theorem Upload.sound_of_not_inside (h : upload.progress.stage ≠ .inside) :
    Upload.Sound host store rows upload := by
  rw [Upload.Sound]
  cases hprogress : upload.progress <;> simp_all [Progress.stage]

/-- Calls inside their turns are for different paths. -/
theorem Invariant.path_ne (h : Invariant host taskId s) {m : Nat} {call : Upload} (hne : m ≠ n)
    (hupload : s.uploads n = some upload) (hcall : s.uploads m = some call)
    (hinside : upload.progress.stage = .inside) (hcallInside : call.progress.stage = .inside) :
    call.relativePath ≠ upload.relativePath := by
  intro hpath
  obtain ⟨turn, hn, hkey, hstage⟩ := h.turns n upload hupload
  obtain ⟨turn', hm, hkey', hstage'⟩ := h.turns m call hcall
  refine hne (h.locks.exclusive hm hn ?_ (hstage'.trans hcallInside) (hstage.trans hinside))
  rw [hkey, hkey', Upload.key, Upload.key, hpath, h.spelled m call hcall,
    h.spelled n upload hupload]

theorem Invariant.before (h : Invariant host taskId s) (hupload : s.uploads n = some upload) :
    Before host taskId upload s.store :=
  ⟨h.spelled n upload hupload, h.canonical, h.apart, h.uploaded, h.sound n upload hupload⟩

theorem Invariant.act (h : Invariant host taskId s) (hupload : s.uploads n = some upload)
    (hstep : upload.Step host s.store action store' progress)
    (horderly : Orderly host taskId s (.act n action)) :
    Invariant host taskId { s.setUpload n upload progress with store := store' } := by
  have hlost : action ≠ .loseUpdate := by
    rintro rfl
    exact horderly
  have hfresh : ∀ temporary, IsTemporary upload.progress progress temporary →
      ∀ row ∈ s.store.rows taskId,
        host.artifacts.identityPath row.relativePath ≠ host.artifacts.identityPath temporary := by
    rintro temporary (hold | hnew)
    · exact h.fresh n upload temporary hupload hold
    · rcases hstep.temporary_cases hnew with hold | rfl
      · exact h.fresh n upload temporary hupload hold
      · exact horderly.1
  have happart : ∀ m call temporary temporary', m ≠ n → s.uploads m = some call →
      IsTemporary upload.progress progress temporary → call.progress.temporary = some temporary' →
      host.artifacts.identityPath temporary' ≠ host.artifacts.identityPath temporary := by
    rintro m call temporary temporary' hne hcall (hold | hnew) htemporary'
    · exact h.apart_temporary n m upload call temporary temporary' hne hupload hcall hold htemporary'
    · rcases hstep.temporary_cases hnew with hold | rfl
      · exact h.apart_temporary n m upload call temporary temporary' hne hupload hcall hold
          htemporary'
      · exact horderly.2 m call temporary' hne hcall htemporary'
  have heffect := hstep.effect hlost (h.before hupload) hfresh
  obtain ⟨hinside, hinside'⟩ := hstep.inside
  obtain ⟨f, hrows, hf⟩ := heffect.rows
  have hpath : ∀ row, (f row).relativePath = row.relativePath := MarksAt.relativePath_eq hf
  constructor
  case canonical => exact h.canonical
  case locks => exact h.locks
  case spelled =>
    intro m call hcall
    rcases exists_of_setUpload hcall with ⟨rfl, rfl⟩ | ⟨-, hcall⟩
    · exact h.spelled m upload hupload
    · exact h.spelled m call hcall
  case turns =>
    intro m call hcall
    rcases exists_of_setUpload hcall with ⟨rfl, rfl⟩ | ⟨-, hcall⟩
    · obtain ⟨turn, hm, hkey, hstage⟩ := h.turns m upload hupload
      exact ⟨turn, hm, hkey, hstage.trans (hinside.trans hinside'.symm)⟩
    · exact h.turns m call hcall
  case apart => exact heffect.rows.apart h.apart
  case uploaded =>
    intro row hrow hmarked
    by_cases hown : row.relativePath = upload.relativePath
    · have hfile := heffect.own row hrow hown hmarked
      rwa [Upload.finalPlace, h.spelled n upload hupload, ← hown] at hfile
    · have hold := heffect.rows.mem_of_ne hrow hown
      rw [Store.Holds, heffect.files_row (h.spelled n upload hupload) h.apart hfresh hold hown]
      exact h.uploaded row hold hmarked
  case sound =>
    intro m call hcall
    rcases exists_of_setUpload hcall with ⟨rfl, rfl⟩ | ⟨hne, hcall⟩
    · exact heffect.sound
    · by_cases hcallInside : call.progress.stage = .inside
      · exact heffect.frame (h.spelled n upload hupload) (h.spelled m call hcall)
          (h.path_ne hne hupload hcall hinside hcallInside) h.apart hfresh
          (fun temporary htemporary => ⟨h.fresh m call temporary hcall htemporary,
            fun temporary' hown => happart m call temporary' temporary hne hcall hown htemporary⟩)
          (h.sound m call hcall)
      · exact Upload.sound_of_not_inside hcallInside
  case fresh =>
    intro m call temporary hcall htemporary row' hrow'
    dsimp only at hrow'
    rw [hrows] at hrow'
    obtain ⟨row, hrow, rfl⟩ := List.mem_map.mp hrow'
    rw [hpath]
    rcases exists_of_setUpload hcall with ⟨rfl, rfl⟩ | ⟨-, hcall⟩
    · exact hfresh temporary (Or.inr htemporary) row hrow
    · exact h.fresh m call temporary hcall htemporary row hrow
  case apart_temporary =>
    intro m m' call call' temporary temporary' hne hcall hcall' htemporary htemporary'
    rcases exists_of_setUpload hcall with ⟨rfl, rfl⟩ | ⟨hm, hold⟩
    · rcases exists_of_setUpload hcall' with ⟨rfl, -⟩ | ⟨-, hold'⟩
      · exact absurd rfl hne
      · exact happart m' call' temporary temporary' hne hold' (Or.inr htemporary) htemporary'
    · rcases exists_of_setUpload hcall' with ⟨rfl, rfl⟩ | ⟨-, hold'⟩
      · exact (happart m call temporary' temporary hm hold (Or.inr htemporary') htemporary).symm
      · exact h.apart_temporary m m' call call' temporary temporary' hne hold hold' htemporary
          htemporary'
  case manifest =>
    rcases h.manifest with hnone | hsome
    · left
      exact heffect.rows.eq_nil hnone
    · right
      dsimp only
      rwa [heffect.rows.map_manifestEntry]
  case succeeded =>
    intro task htask hstatus
    dsimp only at htask
    rw [heffect.tasks] at htask
    obtain ⟨hne, hall⟩ := h.succeeded task htask hstatus
    exact ⟨heffect.rows.ne_nil hne, heffect.rows.all_marked hall⟩

/-! Registration and completion -/

theorem rows_artifactRow (hnone : store.rows taskId = []) (files : List ArtifactManifestEntry) :
    ({ store with db := { store.db with
      artifacts := store.db.artifacts ++ files.map (artifactRow taskId) } } : Store).rows taskId =
      files.map (artifactRow taskId) := by
  have hnew : (files.map (artifactRow taskId)).filter (fun row => decide (row.taskId = taskId)) =
      files.map (artifactRow taskId) := by
    rw [List.filter_eq_self]
    intro row hrow
    obtain ⟨file, -, rfl⟩ := List.mem_map.mp hrow
    exact decide_eq_true rfl
  rw [Store.rows, List.filter_append, hnew]
  exact (congrArg (fun rows => rows ++ _) hnone).trans (List.nil_append _)

theorem apart_artifactRow {files : List ArtifactManifestEntry}
    {message : TaskArtifactManifestMessage}
    (h : validateManifest host.artifacts message = .ok files) :
    Apart host (files.map (artifactRow taskId)) := by
  simp only [validateManifest, bind_eq_ok, ensure_eq_ok, pure_eq_ok] at h
  obtain ⟨-, -, sum, hfiles, -, -, rfl⟩ := h
  have hnodup := ((ArtifactScan.validateFiles_ok_iff host.artifacts message.files []
    (Nat.zero_le _) sum).mp hfiles).2.1
  have hsorted : (message.files.mergeSort fun x y =>
      host.artifacts.localeLe x.relativePath y.relativePath).Perm message.files :=
    List.mergeSort_perm _ _
  rw [Apart, List.map_map]
  exact ((hsorted.map _).nodup_iff).mpr hnodup

/-- What an accepted manifest does to the rows of the task. -/
theorem registerFromAgent_rows {host' : Host} {now : Time} {db : Db} {agentId : Id}
    {message : TaskArtifactManifestMessage} {files : List ArtifactManifestEntry}
    {result : ManifestResult} (htask : asciiLower message.taskId = taskId)
    (h : registerFromAgent host' now store.db agentId message = .ok (files, result, db)) :
    validateManifest host'.artifacts message = .ok files ∧ db.tasks = store.db.tasks ∧
      (∃ task, store.db.tasks.row taskId = some task ∧ task.status = .uploading) ∧
      (store.rows taskId = [] ∧ db = { store.db with
          artifacts := store.db.artifacts ++ files.map (artifactRow taskId) } ∨
        store.rows taskId ≠ [] ∧ db = store.db ∧
          ((store.rows taskId).map manifestEntry).Perm files) := by
  simp only [registerFromAgent, registerManifest, bind_eq_ok, require_eq_ok, ensure_eq_ok,
    pure_eq_ok, Prod.mk.injEq] at h
  obtain ⟨-, -, accepted, hfiles, answer, hanswer, rfl, rfl, rfl⟩ := h
  obtain ⟨agent, -, -, -, task, hrow, -, ⟨-, hlease⟩, -, -, hanswer⟩ := hanswer
  rw [leaseOfUploading, Bool.and_eq_true, Bool.and_eq_true, decide_eq_true_eq] at hlease
  rw [Db.findTask, htask] at hrow
  refine ⟨hfiles, ?_⟩
  rw [htask] at hanswer
  split_ifs at hanswer with hexisting
  · simp only [bind_eq_ok, ensure_eq_ok, pure_eq_ok] at hanswer
    obtain ⟨-, hmatches, rfl⟩ := hanswer
    refine ⟨rfl, ⟨task, hrow, hlease.1.1.2⟩, Or.inr ⟨hexisting, rfl, ?_⟩⟩
    rw [manifestMatches, decide_eq_true_eq] at hmatches
    rw [← hmatches]
    exact (List.mergeSort_perm _ _).symm
  · simp only [bind_eq_ok, pure_eq_ok] at hanswer
    obtain ⟨-, -, rfl⟩ := hanswer
    have hnone : store.rows taskId = [] := Decidable.not_not.mp hexisting
    exact ⟨rfl, ⟨task, hrow, hlease.1.1.2⟩, Or.inl ⟨hnone, rfl⟩⟩

/-- Without rows no call has got past its lookup. -/
theorem Upload.sound_of_no_rows (h : Upload.Sound host store [] upload)
    (store' : Store) (rows' : List Artifact) : Upload.Sound host store' rows' upload ∧
      upload.progress.temporary = none := by
  have hnone : ∀ {path : JsString}, ¬ HasRow [] path := by
    rintro path ⟨row, hmem, -⟩
    exact List.not_mem_nil hmem
  cases hprogress : upload.progress <;> rw [Upload.Sound, hprogress] at h <;>
    rw [Upload.Sound, hprogress]
  case waiting | looking | leaving | done => exact ⟨trivial, rfl⟩
  case cleaning temporary moved => exact absurd h.1 hnone
  case removing => exact absurd h.1 hnone
  all_goals exact absurd h.1.hasRow hnone

theorem Invariant.register (h : Invariant host taskId s) {host' : Host} {now : Time} {db : Db}
    {agentId : Id} {message : TaskArtifactManifestMessage} {files : List ArtifactManifestEntry}
    {result : ManifestResult} (htask : asciiLower message.taskId = taskId)
    (hregister : registerFromAgent host' now s.store.db agentId message = .ok (files, result, db))
    (hidentity : host'.artifacts.identityPath = host.artifacts.identityPath) :
    Invariant host taskId
      { s with store := { s.store with db }, accepted := some files } := by
  obtain ⟨hfiles, htasks, ⟨task, hrow, hstatus⟩, ⟨hnone, hdb⟩ | ⟨hsome, rfl, hperm⟩⟩ :=
    registerFromAgent_rows htask hregister
  · have hrows : ({ s.store with db } : Store).rows taskId = files.map (artifactRow taskId) := by
      rw [hdb]
      exact rows_artifactRow hnone files
    have hidle : ∀ n upload, s.uploads n = some upload →
        Upload.Sound host { s.store with db } (({ s.store with db } : Store).rows taskId) upload ∧
          upload.progress.temporary = none :=
      fun n upload hupload =>
        Upload.sound_of_no_rows (hnone ▸ h.sound n upload hupload) _ _
    have hmarked : ∀ row ∈ ({ s.store with db } : Store).rows taskId, row.uploadedAt = none := by
      intro row hmem
      rw [hrows] at hmem
      obtain ⟨file, -, rfl⟩ := List.mem_map.mp hmem
      rfl
    have hapart : Apart host' (files.map (artifactRow taskId)) := apart_artifactRow hfiles
    refine ⟨h.canonical, h.locks, h.spelled, h.turns, ?_, ?_, fun n upload hupload =>
      (hidle n upload hupload).1, ?_, ?_, Or.inr ⟨files, rfl, ?_⟩, ?_⟩
    · rw [Apart, hidentity] at hapart
      dsimp only
      rwa [Apart, hrows]
    · exact fun row hmem hne => absurd (hmarked row hmem) hne
    · intro n upload temporary hupload htemporary
      rw [(hidle n upload hupload).2] at htemporary
      exact nomatch htemporary
    · intro n m upload call temporary temporary' hne hupload hcall htemporary
      rw [(hidle n upload hupload).2] at htemporary
      exact nomatch htemporary
    · dsimp only
      rw [hrows, List.map_map]
      exact List.Perm.of_eq (List.map_id files)
    · intro other hother hsucceeded
      dsimp only at hother
      rw [htasks, hrow] at hother
      rw [← Option.some.inj hother, hstatus] at hsucceeded
      exact nomatch hsucceeded
  · exact ⟨h.canonical, h.locks, h.spelled, h.turns, h.apart, h.uploaded, h.sound, h.fresh,
      h.apart_temporary, Or.inr ⟨files, rfl, hperm⟩, h.succeeded⟩

/-- What a completion changes: the row of the task, once all artifacts have an upload time. -/
theorem completeFromAgent_rows {now : Time} {db : Db} {agentId id : Id}
    {message : TaskCompletedMessage} (htask : asciiLower message.taskId = taskId)
    (h : completeFromAgent host now store.db agentId message = .ok (id, db)) :
    db = store.db ∨ db.artifacts = store.db.artifacts ∧ store.rows taskId ≠ [] ∧
      ∀ row ∈ store.rows taskId, row.uploadedAt ≠ none := by
  simp only [completeFromAgent, completeTask, bind_eq_ok, require_eq_ok, ensure_eq_ok] at h
  obtain ⟨-, -, agent, -, -, -, task, hrow, -, -, h⟩ := h
  split at h
  · simp only [bind_eq_ok, ensure_eq_ok, pure_eq_ok, Prod.mk.injEq] at h
    obtain ⟨-, -, -, -, -, rfl⟩ := h
    exact Or.inl rfl
  · simp only [bind_eq_ok, ensure_eq_ok, pure_eq_ok, Prod.mk.injEq] at h
    obtain ⟨-, -, -, ⟨hne, hall, -, -⟩, next, htransition, -, rfl⟩ := h
    rw [htask] at hne hall
    refine Or.inr ⟨?_, hne, fun row hmem hnone => ?_⟩
    · obtain ⟨current, -, ⟨-, rfl⟩ | ⟨-, -, rfl⟩⟩ := transition_eq_ok.mp htransition <;> rfl
    · have := List.all_eq_true.mp hall row hmem
      simp [hnone] at this

theorem Invariant.complete (h : Invariant host taskId s) {now : Time} {db : Db} {agentId id : Id}
    {message : TaskCompletedMessage} (htask : asciiLower message.taskId = taskId)
    (hcomplete : completeFromAgent host now s.store.db agentId message = .ok (id, db)) :
    Invariant host taskId { s with store := { s.store with db } } := by
  rcases completeFromAgent_rows htask hcomplete with rfl | ⟨hartifacts, hne, hall⟩
  · exact h
  · have hrows : ({ s.store with db } : Store).rows taskId = s.store.rows taskId := by
      rw [Store.rows, hartifacts, Store.rows]
    have hsound : ∀ n upload, s.uploads n = some upload →
        Upload.Sound host { s.store with db } (({ s.store with db } : Store).rows taskId) upload := by
      intro n upload hupload
      rw [hrows]
      exact h.sound n upload hupload
    refine ⟨h.canonical, h.locks, h.spelled, h.turns, hrows ▸ h.apart, ?_, hsound, ?_,
      h.apart_temporary, ?_, fun _ _ _ => ?_⟩
    · dsimp only
      rw [hrows]
      exact h.uploaded
    · dsimp only
      rw [hrows]
      exact h.fresh
    · dsimp only
      rw [hrows]
      exact h.manifest
    · dsimp only
      rw [hrows]
      exact ⟨hne, hall⟩

/-! The turns -/

theorem Invariant.request (h : Invariant host taskId s) {leaseToken relativePath : JsString} :
    Invariant host taskId { s with
      locks := s.locks.request (Upload.mk taskId leaseToken relativePath .waiting).key
      uploads := Function.update s.uploads s.locks.count
        (some ⟨taskId, leaseToken, relativePath, .waiting⟩) } := by
  have hcases : ∀ {m : Nat} {call : Upload},
      Function.update s.uploads s.locks.count
        (some ⟨taskId, leaseToken, relativePath, .waiting⟩) m = some call →
      m = s.locks.count ∧ call = ⟨taskId, leaseToken, relativePath, .waiting⟩ ∨
        m ≠ s.locks.count ∧ s.uploads m = some call := by
    intro m call hcall
    rw [Function.update_apply] at hcall
    split_ifs at hcall with hm
    · exact Or.inl ⟨hm, (Option.some.inj hcall).symm⟩
    · exact Or.inr ⟨hm, hcall⟩
  refine ⟨h.canonical, h.locks.request _, ?_, ?_, h.apart, h.uploaded, ?_, ?_, ?_, h.manifest,
    h.succeeded⟩
  · intro m call hcall
    rcases hcases hcall with ⟨-, rfl⟩ | ⟨-, hcall⟩
    · rfl
    · exact h.spelled m call hcall
  · intro m call hcall
    rcases hcases hcall with ⟨rfl, rfl⟩ | ⟨hm, hcall⟩
    · exact ⟨_, by rw [LockChain.request_turn, if_pos rfl], rfl, rfl⟩
    · obtain ⟨turn, hturn, hkey, hstage⟩ := h.turns m call hcall
      exact ⟨turn, by rw [LockChain.request_turn, if_neg hm, hturn], hkey, hstage⟩
  · intro m call hcall
    rcases hcases hcall with ⟨-, rfl⟩ | ⟨-, hcall⟩
    · trivial
    · exact h.sound m call hcall
  · intro m call temporary hcall htemporary
    rcases hcases hcall with ⟨-, rfl⟩ | ⟨-, hcall⟩
    · exact nomatch htemporary
    · exact h.fresh m call temporary hcall htemporary
  · intro m m' call call' temporary temporary' hne hcall hcall' htemporary htemporary'
    rcases hcases hcall with ⟨-, rfl⟩ | ⟨-, hcall⟩
    · exact nomatch htemporary
    rcases hcases hcall' with ⟨-, rfl⟩ | ⟨-, hcall'⟩
    · exact nomatch htemporary'
    · exact h.apart_temporary m m' call call' temporary temporary' hne hcall hcall' htemporary
        htemporary'

/-- A call that takes or ends its turn relies on nothing. -/
theorem Invariant.turn (h : Invariant host taskId s) (hupload : s.uploads n = some upload)
    {locks : LockChain JsString} (hlocks : locks.WellFormed)
    (hstage : progress.stage ≠ upload.progress.stage)
    (hidle : progress = .looking ∨ progress = .done)
    (hturn : ∀ m, locks.turn m = (s.locks.setStage n progress.stage).turn m) :
    Invariant host taskId { s.setUpload n upload progress with locks } := by
  have htemporary : ({ upload with progress } : Upload).progress.temporary = none := by
    rcases hidle with rfl | rfl <;> rfl
  have hsound : Upload.Sound host s.store (s.store.rows taskId) { upload with progress } := by
    rcases hidle with rfl | rfl <;> trivial
  refine ⟨h.canonical, hlocks, ?_, ?_, h.apart, h.uploaded, ?_, ?_, ?_, h.manifest, h.succeeded⟩
  · intro m call hcall
    rcases exists_of_setUpload hcall with ⟨rfl, rfl⟩ | ⟨-, hcall⟩
    · exact h.spelled m upload hupload
    · exact h.spelled m call hcall
  · intro m call hcall
    dsimp only
    rw [hturn m, LockChain.setStage_turn]
    rcases exists_of_setUpload hcall with ⟨rfl, rfl⟩ | ⟨hm, hcall⟩
    · obtain ⟨turn, hold, hkey, -⟩ := h.turns m upload hupload
      exact ⟨{ turn with stage := progress.stage }, by rw [if_pos rfl, hold]; rfl, hkey, rfl⟩
    · obtain ⟨turn, hold, hkey, hsame⟩ := h.turns m call hcall
      exact ⟨turn, by rw [if_neg hm, hold], hkey, hsame⟩
  · intro m call hcall
    rcases exists_of_setUpload hcall with ⟨rfl, rfl⟩ | ⟨-, hcall⟩
    · exact hsound
    · exact h.sound m call hcall
  · intro m call temporary hcall hname
    rcases exists_of_setUpload hcall with ⟨rfl, rfl⟩ | ⟨-, hcall⟩
    · exact absurd (htemporary.symm.trans hname) nofun
    · exact h.fresh m call temporary hcall hname
  · intro m m' call call' temporary temporary' hne hcall hcall' hname hname'
    rcases exists_of_setUpload hcall with ⟨rfl, rfl⟩ | ⟨-, hold⟩
    · exact absurd (htemporary.symm.trans hname) nofun
    rcases exists_of_setUpload hcall' with ⟨rfl, rfl⟩ | ⟨-, hold'⟩
    · exact absurd (htemporary.symm.trans hname') nofun
    · exact h.apart_temporary m m' call call' temporary temporary' hne hold hold' hname hname'

theorem Invariant.step (h : Invariant host taskId s) {event : Event}
    (hstep : s.Step host taskId event t) (horderly : Orderly host taskId s event) :
    Invariant host taskId t := by
  cases hstep with
  | register prepareTaskDirectory htask hregister => exact h.register htask hregister rfl
  | complete htask hcomplete => exact h.complete htask hcomplete
  | upload htask huuid hpath =>
      obtain rfl := horderly
      exact h.request
  | @enter n upload hupload hadmits =>
      obtain ⟨turn, hturn, -, hstage⟩ := h.turns n upload hupload
      obtain ⟨turn', hturn', hwaiting, -⟩ := h.locks.of_admits hadmits
      obtain rfl := Option.some.inj (hturn.symm.trans hturn')
      refine h.turn hupload (h.locks.enter hadmits) ?_ (Or.inl rfl) (fun _ => rfl)
      rw [← hstage, hwaiting]
      exact nofun
  | act hupload hstep => exact h.act hupload hstep horderly
  | @leave n upload hupload hprogress =>
      obtain ⟨turn, hturn, hkey, hstage⟩ := h.turns n upload hupload
      rw [hprogress] at hstage
      refine h.turn hupload ?_ ?_ (Or.inr rfl) (fun _ => rfl)
      · rw [← hkey]
        exact h.locks.release hturn hstage
      · rw [hprogress]
        exact nofun

theorem IsNew.invariant (h : IsNew taskId s) : Invariant host taskId s where
  canonical := h.canonical
  locks := h.locks_eq ▸ LockChain.wellFormed_empty
  spelled n upload hupload := nomatch (h.uploads_eq n).symm.trans hupload
  turns n upload hupload := nomatch (h.uploads_eq n).symm.trans hupload
  apart := by
    rw [Apart, h.rows_eq]
    exact List.nodup_nil
  uploaded := by
    rw [h.rows_eq]
    exact nofun
  sound n upload hupload := nomatch (h.uploads_eq n).symm.trans hupload
  fresh n upload _ hupload := nomatch (h.uploads_eq n).symm.trans hupload
  apart_temporary n _ upload _ _ _ _ hupload := nomatch (h.uploads_eq n).symm.trans hupload
  manifest := Or.inl h.rows_eq
  succeeded task htask hstatus := absurd hstatus (h.unfinished task htask)

theorem invariant_of_reachable
    (hs : (system host taskId (Orderly host taskId)).Reachable s) : Invariant host taskId s := by
  refine hs.invariant ?_ ?_
  · exact fun s hinit => hinit.invariant
  · rintro s t - hinv ⟨event, hstep, horderly⟩
    exact hinv.step hstep horderly

/-- An uploaded artifact has its bytes, and a task that succeeded has all of its manifest uploaded. -/
structure Intact (host : Host) (taskId : Id) (s : State) : Prop where
  uploaded : ∀ row ∈ s.store.rows taskId, row.uploadedAt ≠ none →
    s.store.Holds host (host.storedPlace row) row
  succeeded : ∀ task, s.store.db.tasks.row taskId = some task → task.status = .succeeded →
    ∃ files, s.accepted = some files ∧ (s.store.rows taskId).length = files.length ∧
      ((s.store.rows taskId).map manifestEntry).Perm files ∧
      ∀ row ∈ s.store.rows taskId, row.uploadedAt ≠ none

/-- Artifacts are intact in every orderly run. -/
theorem artifacts_intact (hs : (system host taskId (Orderly host taskId)).Reachable s) :
    Intact host taskId s := by
  have h := invariant_of_reachable hs
  constructor
  · intro row hmem hmarked
    rw [Host.storedPlace, of_decide_eq_true (List.mem_filter.mp hmem).2]
    exact h.uploaded row hmem hmarked
  · intro task htask hstatus
    obtain ⟨hne, hall⟩ := h.succeeded task htask hstatus
    obtain ⟨files, haccepted, hperm⟩ := h.manifest.resolve_left hne
    have hlength := hperm.length_eq
    rw [List.length_map] at hlength
    exact ⟨files, haccepted, hlength, hperm, hall⟩

/-! A task with one artifact -/

open AnvilRun.SlotSystem
open JsString

def uploadId : Id := ofString "abcdef00-0000-4000-8000-00000000000a"

/-- The id in the spelling with upper case letters. -/
def upperId : JsString := ofString "ABCDEF00-0000-4000-8000-00000000000A"

def demoBytes : List UInt8 := [104, 101, 108, 108, 111]

def demoDigest : JsString :=
  ofString "2cf24dba5fb0a30e26e83b2ac5b9e29e1b161e5c1fa7425e73043362938b9824"

def demoHost : Host where
  environment := demoEnvironment
  artifacts := ⟨fun _ _ => true, id, fun _ _ => .ok ()⟩
  sha256 := fun content => if content = demoBytes then demoDigest else []

def demoEntry : ArtifactManifestEntry := ⟨ofString "app.txt", 5, demoDigest⟩

def demoManifest : TaskArtifactManifestMessage where
  taskId := uploadId
  leaseToken := demoToken
  artifactDir := ofString "out"
  totalBytes := 5
  files := [demoEntry]

def uploadingTask : BuildTask :=
  { TasksService.newTask 0 { demoRequest with newTaskId := uploadId } demoProject demoTemplate
      (.object []) true [] with
    status := .uploading
    assignedArtifactDir := some (ofString "out")
    leaseHash := some (demoEnvironment.hashToken demoToken)
    leaseExpiresAt := some 60000 }

def uploadDb : Db :=
  { demoDb with
    agents := .single demoAgentId ⟨true, .online, some uploadId⟩
    tasks := .single uploadId uploadingTask }

def startState : State := ⟨⟨uploadDb, fun _ => none⟩, .empty, fun _ => none, none⟩

theorem startState_isNew : IsNew uploadId startState := by
  refine ⟨by decide, rfl, fun task htask => ?_, rfl, fun _ => rfl⟩
  have hrow : uploadDb.tasks.row uploadId = some uploadingTask := by
    show (if uploadId = uploadId then some uploadingTask else none) = _
    exact if_pos rfl
  rw [← Option.some.inj (hrow.symm.trans htask)]
  exact nofun

def demoArtifact : Artifact := artifactRow uploadId demoEntry

/-- The database once the manifest is accepted. -/
def registeredDb : Db := { uploadDb with artifacts := [demoArtifact] }

theorem register_uploadDb : registerFromAgent demoHost 0 uploadDb demoAgentId demoManifest =
    .ok ([demoEntry], ⟨uploadId, true, 1, 5⟩, registeredDb) := by
  have hanswer : (registerFromAgent demoHost 0 uploadDb demoAgentId demoManifest).map
      (fun answer => (answer.1, answer.2.1)) = .ok ([demoEntry], ⟨uploadId, true, 1, 5⟩) := by
    decide +kernel
  cases h : registerFromAgent demoHost 0 uploadDb demoAgentId demoManifest with
  | error error =>
      rw [h] at hanswer
      exact nomatch hanswer
  | ok answer =>
      obtain ⟨files, result, db⟩ := answer
      rw [h] at hanswer
      obtain ⟨rfl, rfl⟩ := Prod.mk.inj (Except.ok.inj hanswer)
      have htask : asciiLower demoManifest.taskId = uploadId := by decide
      obtain ⟨-, -, -, ⟨-, rfl⟩ | ⟨hsome, -⟩⟩ :=
        @registerFromAgent_rows ⟨uploadDb, fun _ => none⟩ _ _ _ _ _ _ _ _ htask h
      · rfl
      · exact absurd rfl hsome

theorem findUpload_registeredDb : findUpload demoEnvironment 0 registeredDb uploadId demoToken
    demoEntry.relativePath = .ok demoArtifact := by
  decide

/-- The call that uploads the artifact under one spelling of the id. -/
def demoUpload (spelled : JsString) (progress : Progress) : Upload :=
  ⟨spelled, demoToken, demoEntry.relativePath, progress⟩

def demoTemporary : JsString := demoEntry.relativePath ++ ofString ".tmp-" ++ ofString "1-0-a"

/-- The server with the call inside its turn. -/
def insideState (spelled : JsString) (progress : Progress) (store : Store) : State where
  store := store
  locks := (LockChain.empty.request (demoUpload spelled progress).key).enter 0
  uploads := Function.update (fun _ => none) 0 (some (demoUpload spelled progress))
  accepted := some [demoEntry]

theorem insideState_act {spelled : JsString} {progress progress' : Progress}
    {store store' : Store} {action : Action} {allowed : State → Event → Prop}
    (hs : (system demoHost uploadId allowed).Reachable (insideState spelled progress store))
    (hstep : (demoUpload spelled progress).Step demoHost store action store' progress')
    (hallowed : allowed (insideState spelled progress store) (.act 0 action)) :
    (system demoHost uploadId allowed).Reachable (insideState spelled progress' store') := by
  have hnext := hs.step
    ⟨_, @State.Step.act _ _ _ 0 (demoUpload spelled progress) _ _ _ rfl hstep, hallowed⟩
  have huploads : Function.update (insideState spelled progress store).uploads 0
      (some { demoUpload spelled progress with progress := progress' }) =
        (insideState spelled progress' store').uploads :=
    Function.update_idem ..
  rw [State.setUpload, huploads] at hnext
  exact hnext

/-- A step that no condition is on. -/
def Event.isPlain : Event → Bool
  | .upload _ => false
  | .act _ .goOn => true
  | .act _ _ => false
  | _ => true

def registeredStore : Store := ⟨registeredDb, fun _ => none⟩

theorem reachable_looking {spelled : JsString} (hspelled : asciiLower spelled = uploadId)
    (huuid : matchesUuid spelled = true) {allowed : State → Event → Prop}
    (hplain : ∀ s event, event.isPlain = true → allowed s event)
    (hupload : ∀ s, allowed s (.upload spelled)) :
    (system demoHost uploadId allowed).Reachable
      (insideState spelled .looking registeredStore) := by
  have hstart : (system demoHost uploadId allowed).Reachable startState := .init startState_isNew
  have hregistered := hstart.step
    ⟨_, .register demoHost.artifacts.prepareTaskDirectory (by decide) register_uploadDb,
      hplain _ _ rfl⟩
  have hpath : validateRelativePath demoEntry.relativePath = .ok demoEntry.relativePath := by
    decide
  have hwaiting := hregistered.step
    ⟨_, @State.Step.upload _ _ _ _ demoToken _ hspelled huuid hpath, hupload _⟩
  have hlooking := hwaiting.step
    ⟨_, @State.Step.enter _ _ _ 0 (demoUpload spelled .waiting) rfl rfl, hplain _ _ rfl⟩
  have huploads : Function.update (Function.update startState.uploads startState.locks.count
      (some (demoUpload spelled .waiting))) 0 (some (demoUpload spelled .looking)) =
        (insideState spelled .looking registeredStore).uploads :=
    Function.update_idem ..
  have hstate : insideState spelled .looking registeredStore =
      ⟨registeredStore, (LockChain.empty.request (demoUpload spelled .waiting).key).enter 0,
        Function.update (Function.update startState.uploads startState.locks.count
          (some (demoUpload spelled .waiting))) 0 (some (demoUpload spelled .looking)),
        some [demoEntry]⟩ := by
    rw [huploads]
    rfl
  rw [hstate]
  exact hlooking

/-- The store with the bytes at the final place of the call. -/
def movedStore (spelled : JsString) : Store :=
  let temporary := (spelled, demoTemporary)
  (((registeredStore.write temporary []).append temporary demoBytes).remove temporary).write
    (spelled, demoEntry.relativePath) demoBytes

/-- A run of one upload, up to its row update. -/
theorem reachable_uploaded {spelled : JsString} (hspelled : asciiLower spelled = uploadId)
    (huuid : matchesUuid spelled = true) {allowed : State → Event → Prop}
    (hplain : ∀ s event, event.isPlain = true → allowed s event)
    (hupload : ∀ s, allowed s (.upload spelled))
    (hopen : allowed (insideState spelled (.absent demoArtifact) registeredStore)
      (.act 0 (.openTemporary demoTemporary))) :
    (system demoHost uploadId allowed).Reachable
      (insideState spelled .leaving ((movedStore spelled).update demoArtifact 0)) := by
  have hlooking := reachable_looking hspelled huuid hplain hupload
  have hfind : findUpload demoEnvironment 0 registeredDb spelled demoToken demoEntry.relativePath =
      .ok demoArtifact := by
    rw [findUpload, hspelled]
    exact findUpload_registeredDb
  have hmatches : demoHost.Matches demoArtifact demoBytes := ⟨rfl, by decide⟩
  have hfound := insideState_act hlooking (.look rfl hfind) (hplain _ _ rfl)
  have hprepared := insideState_act hfound (.prepare rfl) (hplain _ _ rfl)
  have habsent := insideState_act hprepared (.absent rfl rfl rfl) (hplain _ _ rfl)
  have hwriting := insideState_act habsent
    (@Upload.Step.openNew _ _ _ demoArtifact (ofString "1-0-a") rfl rfl) hopen
  have hwritten := insideState_act hwriting
    (.write demoBytes rfl (by decide)) (hplain _ _ rfl)
  have hclosed := insideState_act hwritten (.close rfl hmatches) (hplain _ _ rfl)
  have hfile : ((registeredStore.write (spelled, demoTemporary) []).append
      (spelled, demoTemporary) demoBytes).files (spelled, demoTemporary) = some demoBytes := by
    simp [Store.append, Store.write]
  have hfinal : ((registeredStore.write (spelled, demoTemporary) []).append
      (spelled, demoTemporary) demoBytes).files (spelled, demoEntry.relativePath) = none := by
    have hpaths : demoEntry.relativePath ≠ demoTemporary := by decide
    have hne : (spelled, demoEntry.relativePath) ≠ (spelled, demoTemporary) :=
      fun h => hpaths (Prod.mk.inj h).2
    simp [Store.append, Store.write, hne, registeredStore]
  have hmeasured := insideState_act hclosed (.measure rfl hfile rfl) (hplain _ _ rfl)
  have hclear := insideState_act hmeasured (.check rfl hfinal) (hplain _ _ rfl)
  have hmoved := insideState_act hclear (.rename rfl hfile) (hplain _ _ rfl)
  exact insideState_act hmoved (.update 0 rfl) (hplain _ _ rfl)

def demoCompletion : TaskCompletedMessage where
  taskId := uploadId
  leaseToken := demoToken
  exitCode := 0
  finishedAt := 0
  sourceCommit := none
  artifactCount := 1
  artifactBytes := 5

theorem complete_uploaded : (completeFromAgent demoHost 0
    ((movedStore uploadId).update demoArtifact 0).db demoAgentId demoCompletion).isOk = true := by
  decide

/-- The server once the task has succeeded. -/
def succeededState : State :=
  { insideState uploadId .leaving ((movedStore uploadId).update demoArtifact 0) with
    store := { (movedStore uploadId).update demoArtifact 0 with
      db := (value _ complete_uploaded).2 } }

/-- The result at a task that has uploaded its artifact and succeeded. -/
theorem succeededState_intact : Intact demoHost uploadId succeededState ∧
    (succeededState.store.rows uploadId).map Artifact.uploadedAt = [some 0] ∧
    (succeededState.store.db.tasks.row uploadId).map BuildTask.status = some .succeeded := by
  have hplain : ∀ s event, event.isPlain = true → Orderly demoHost uploadId s event := by
    intro s event hplain
    cases event with
    | upload spelled => exact nomatch hplain
    | act n action =>
        cases action with
        | goOn => trivial
        | openTemporary temporary => exact nomatch hplain
        | loseUpdate => exact nomatch hplain
    | _ => trivial
  have hopen : Orderly demoHost uploadId
      (insideState uploadId (.absent demoArtifact) registeredStore)
      (.act 0 (.openTemporary demoTemporary)) := by
    refine ⟨by decide, fun m call temporary hm hcall => ?_⟩
    have hnone : (insideState uploadId (.absent demoArtifact) registeredStore).uploads m = none := by
      dsimp only [insideState]
      rw [Function.update_of_ne hm]
    exact nomatch hnone.symm.trans hcall
  have huploaded := reachable_uploaded (by decide) (by decide) hplain
    (fun _ => rfl) hopen
  have hreachable : (system demoHost uploadId (Orderly demoHost uploadId)).Reachable
      succeededState :=
    huploaded.step ⟨_, .complete (by decide) (eq_ok_value _ complete_uploaded), trivial⟩
  exact ⟨artifacts_intact hreachable, by decide, by decide⟩

/-- The server once an upload under the other spelling has marked the row. -/
def upperState : State :=
  insideState upperId .leaving ((movedStore upperId).update demoArtifact 0)

/-- The file of that upload is not where the artifact is read from. -/
theorem upperState_not_intact :
    (system demoHost uploadId (fun _ _ => True)).Reachable upperState ∧
      ¬ Intact demoHost uploadId upperState := by
  have hreachable : (system demoHost uploadId (fun _ _ => True)).Reachable upperState :=
    reachable_uploaded (by decide) (by decide) (fun _ _ _ => trivial)
      (fun _ => trivial) trivial
  have hrows : upperState.store.rows uploadId = [{ demoArtifact with uploadedAt := some 0 }] := by
    decide
  have hnone : upperState.store.files
      (demoHost.storedPlace { demoArtifact with uploadedAt := some 0 }) = none := by
    decide
  refine ⟨hreachable, fun h => ?_⟩
  obtain ⟨content, hfile, -⟩ := h.uploaded { demoArtifact with uploadedAt := some 0 }
    (by rw [hrows]; exact List.mem_singleton_self _) (Option.some_ne_none _)
  rw [hnone] at hfile
  exact Option.some_ne_none _ hfile.symm

end AnvilRun.ArtifactUploads
