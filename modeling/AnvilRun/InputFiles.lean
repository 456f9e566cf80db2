import AnvilRun.AssignmentChecks
import AnvilRun.LinkedFiles

namespace AnvilRun.InputFiles

open AnvilRun.AgentContracts (TaskInputFileAssignment Value)
open AnvilRun.Fallible
open AnvilRun.LinkedFiles
open AnvilRun.UnixPath
open Interruptible

inductive InputFileError where
  | download | integrity | path
  deriving DecidableEq

def InputFileError.message : InputFileError → String
  | .download => "CONFIG_FILE_DOWNLOAD_FAILED"
  | .integrity => "CONFIG_FILE_HASH_MISMATCH"
  | .path => "CONFIG_FILE_PATH_INVALID"

/-! The configuration -/

/-- A `serde_json::Map`, in which the last member of a name counts. -/
abbrev Members : Type :=
  List (List Char × Value)

def getMember (members : Members) (key : List Char) : Option Value :=
  (members.reverse.find? (fun member => member.1 = key)).map Prod.snd

/-- `Map::insert`. -/
def insertMember (members : Members) (key : List Char) (value : Value) : Members :=
  members.filter (fun member => member.1 ≠ key) ++ [(key, value)]

def insertSegments (value : Value) :
    List (List Char) → Members → Except InputFileError Members
  | [], _ => .error .path
  | [leaf], target => if leaf = [] then .error .path else .ok (insertMember target leaf value)
  | head :: tail, target =>
      if head = [] then .error .path
      else
        match getMember target head with
        | some (.object nested) => do
            let nested ← insertSegments value tail nested
            return insertMember target head (.object nested)
        | _ => .error .path

def insertConfigValue (target : Members) (path : List Char) (value : Value) :
    Except InputFileError Members :=
  insertSegments value (path.splitOn '/') target

/-! The files -/

/-- Where a file goes below the source, and whether the path ends in its name. -/
structure Target where
  dirs : List (List UInt8)
  name : List UInt8
  endsInName : Bool

def nameOf : Component → Option (List UInt8)
  | .normal name => some name
  | _ => none

/-- The empty path is the source itself, whose parent is not below it. -/
def target? (path : List Char) : Option Target :=
  let bytes := Utf8.encode path
  if path.contains '\\' || path.contains ':' || !(components bytes).all Component.isNormal then none
  else
    match ((components bytes).filterMap nameOf).getLast? with
    | none => none
    | some name =>
        some ⟨((components bytes).filterMap nameOf).dropLast, name,
          ((segments bytes).getLast?.bind component?).isSome⟩

/-- `Path::file_stem`: what stands before the last dot, unless that is nothing. -/
def fileStem (name : List UInt8) : List UInt8 :=
  let before := (name.reverse.dropWhile (fun b => b ≠ 46)).tail.reverse
  if before = [] then name else before

/-- `with_extension("anvilrun-part")`. -/
def Target.temporary (target : Target) : List UInt8 :=
  fileStem target.name ++ Utf8.encode ".anvilrun-part".toList

/-- The parts of the URL of the server that are read here. -/
structure Url where
  scheme : List Char
  authority : List Char
  path : List Char
  query : Option (List Char)

structure Response where
  status : Nat
  contentLength : Option Nat
  /-- An error of the stream is a chunk that is not there. -/
  chunks : List (Option (List UInt8))

/-- What stands outside of the program: how the server answers a request with a bearer token, and
the digest in hexadecimal digits. -/
structure Environment where
  server : Url
  taskId : List Char
  lease : List Char
  send : Url → List Char → Option Response
  sha256 : List UInt8 → List Char

def httpScheme (scheme : List Char) : Option (List Char) :=
  if scheme = "ws".toList ∨ scheme = "http".toList then some "http".toList
  else if scheme = "wss".toList ∨ scheme = "https".toList then some "https".toList
  else none

/-- `trim_end_matches('/')`. -/
def trimSlashes (path : List Char) : List Char :=
  (path.reverse.dropWhile (fun c => c == '/')).reverse

def contentUrl (env : Environment) (item : TaskInputFileAssignment) : Option Url := do
  let scheme ← httpScheme env.server.scheme
  return ⟨scheme, env.server.authority,
    trimSlashes env.server.path ++ "/api/agent/tasks/".toList ++ env.taskId ++
      "/input-files/".toList ++ item.fileId ++ "/content".toList, none⟩

/-- The chunks of the answer, whose length in its header is the one of the file. -/
def fetch (env : Environment) (item : TaskInputFileAssignment) :
    Except InputFileError (List (Option (List UInt8))) := do
  let url ← require (contentUrl env item) .download
  let response ← require (env.send url env.lease) .download
  ensure (200 ≤ response.status ∧ response.status < 300) .download
  ensure (response.contentLength.all (fun size => size = item.size)) .integrity
  return response.chunks

abbrev Files : Type :=
  LinkedFiles.Tree (List UInt8)

/-- Writes the chunks to the open file, and returns the bytes that have gone into the hash. -/
def writeChunks (item : TaskInputFileAssignment) (place : Place (List UInt8)) :
    List (Option (List UInt8)) → List UInt8 → Interruptible InputFileError Files (List UInt8)
  | [], received => pure received
  | none :: _, _ => fail .download
  | some chunk :: chunks, received =>
      let size := received.length + chunk.length
      if 2 ^ 64 ≤ size ∨ item.size < size then fail .integrity
      else do
        write (fun bytes files => files.append place bytes) chunk .path
        writeChunks item place chunks (received ++ chunk)

/-- `let _ = tokio::fs::remove_file(&temporary)`. -/
def discard (source : Place (List UInt8)) (target : Target) :
    Interruptible InputFileError Files Unit :=
  recover (removeFile .path source target.dirs target.temporary) fun _ => pure ()

/-- The file replaces what is at its place. No call takes a path that ends behind the name. -/
def moveIntoPlace (source : Place (List UInt8)) (target : Target) :
    Interruptible InputFileError Files Unit :=
  if target.endsInName then do
    let found ← tryExists source target.dirs target.name
    Effect.onlyIf (found = true) (removeFile .path source target.dirs target.name)
    rename .path source target.dirs target.temporary target.name
  else fail .path

def materialize (env : Environment) (source : Place (List UInt8)) (target : Target)
    (item : TaskInputFileAssignment) (chunks : List (Option (List UInt8))) :
    Interruptible InputFileError Files Unit := do
  discard source target
  let place ← createNew .path source target.dirs target.temporary
  let received ← recover
    (do
      let received ← writeChunks item place chunks []
      inspect .path
      return received)
    (fun error => do
      discard source target
      fail error)
  if received.length ≠ item.size ∨ env.sha256 received ≠ item.sha256 then do
    discard source target
    fail .integrity
  else moveIntoPlace source target

/-- What the configuration says about a file. -/
def metadata (item : TaskInputFileAssignment) : Value :=
  .object [("fileId".toList, .string item.fileId), ("fileName".toList, .string item.fileName),
    ("size".toList, .number item.size), ("sha256".toList, .string item.sha256),
    ("path".toList, .string item.targetRelativePath)]

def downloadInputFile (env : Environment) (source : Place (List UInt8))
    (item : TaskInputFileAssignment) (config : Members) :
    Interruptible InputFileError Files Members :=
  match target? item.targetRelativePath with
  | none => fail .path
  | some target => do
      createDirAll .path source target.dirs
      rejectLinks .path source target.dirs
      inspect .download
      match fetch env item with
      | .error error => fail error
      | .ok chunks => do
          materialize env source target item chunks
          match insertConfigValue config item.fieldName (metadata item) with
          | .error error => fail error
          | .ok config => return config

def downloadInputFiles (env : Environment) (source : Place (List UInt8)) :
    List TaskInputFileAssignment → Members → Interruptible InputFileError Files Members
  | [], config => pure config
  | item :: files, config => do
      let config ← downloadInputFile env source item config
      downloadInputFiles env source files config

/-! What is in the configuration -/

def valueAt : List (List Char) → Value → Option Value
  | [], value => some value
  | key :: keys, .object members => (getMember members key).bind (valueAt keys)
  | _ :: _, _ => none

/-- Neither path leads through the other. -/
def Apart (path other : List (List Char)) : Prop :=
  ¬ path <+: other ∧ ¬ other <+: path

variable {members members' : Members} {key other head : List Char} {value : Value}
  {path tail : List (List Char)}

@[simp]
theorem getMember_insertMember : getMember (insertMember members key value) key = some value := by
  simp [getMember, insertMember]

theorem getMember_insertMember_of_ne (h : other ≠ key) :
    getMember (insertMember members key value) other = getMember members other := by
  rw [getMember, getMember, insertMember, List.reverse_append, List.reverse_singleton,
    List.singleton_append, List.find?_cons_of_neg (by simpa using h.symm), ← List.filter_reverse,
    List.find?_filter]
  congr 1
  apply congrArg (fun p => List.find? p members.reverse)
  funext member
  by_cases hmember : member.1 = other
  · simp [hmember, h]
  · simp [hmember]

/-- The insertion changes the member of the first segment. -/
theorem insertSegments_cons (h : insertSegments value (head :: tail) members = .ok members') :
    ∃ inserted, members' = insertMember members head inserted ∧
      (tail = [] ∧ inserted = value ∨ ∃ nested nested',
        getMember members head = some (.object nested) ∧
        insertSegments value tail nested = .ok nested' ∧ inserted = .object nested') := by
  cases tail with
  | nil =>
      rw [insertSegments] at h
      split at h
      · cases h
      · exact ⟨value, (Except.ok.inj h).symm, Or.inl ⟨rfl, rfl⟩⟩
  | cons second tail =>
      unfold insertSegments at h
      split at h
      · cases h
      · split at h
        · rename_i nested hnested
          obtain ⟨nested', hinsert, hmembers⟩ := bind_eq_ok.mp h
          exact ⟨_, (Except.ok.inj hmembers).symm, Or.inr ⟨nested, nested', hnested, hinsert, rfl⟩⟩
        · cases h

theorem valueAt_insertSegments (h : insertSegments value path members = .ok members') :
    valueAt path (.object members') = some value := by
  induction path generalizing members members' with
  | nil => cases h
  | cons head tail ih =>
      obtain ⟨inserted, rfl, ⟨rfl, rfl⟩ | ⟨nested, nested', -, hinsert, rfl⟩⟩ :=
        insertSegments_cons h
      · rw [valueAt, getMember_insertMember]
        rfl
      · rw [valueAt, getMember_insertMember]
        exact ih hinsert

/-- What neither leads to the value nor is part of it stays. -/
theorem valueAt_insertSegments_of_apart {other : List (List Char)}
    (h : insertSegments value path members = .ok members') (hapart : Apart path other) :
    valueAt other (.object members') = valueAt other (.object members) := by
  induction path generalizing members members' other with
  | nil => exact absurd List.nil_prefix hapart.1
  | cons head tail ih =>
      obtain ⟨inserted, rfl, hinserted⟩ := insertSegments_cons h
      cases other with
      | nil => exact absurd List.nil_prefix hapart.2
      | cons key rest =>
          rw [valueAt, valueAt]
          by_cases hkey : key = head
          · subst hkey
            have hrest : Apart tail rest :=
              ⟨fun hprefix => hapart.1 (List.cons_prefix_cons.mpr ⟨rfl, hprefix⟩),
                fun hprefix => hapart.2 (List.cons_prefix_cons.mpr ⟨rfl, hprefix⟩)⟩
            rcases hinserted with ⟨rfl, -⟩ | ⟨nested, nested', hnested, hinsert, rfl⟩
            · exact absurd List.nil_prefix hrest.1
            · rw [getMember_insertMember, hnested]
              exact ih hinsert hrest
          · rw [getMember_insertMember_of_ne hkey]

/-! What is in the files -/

/-- A file with the assigned size and digest. -/
def Verified (env : Environment) (item : TaskInputFileAssignment)
    (node : Option (Node (List UInt8))) : Prop :=
  ∃ content, node = some (.file content) ∧ content.length = item.size ∧
    env.sha256 content = item.sha256

def Target.place (source : Place (List UInt8)) (target : Target) : Place (List UInt8) :=
  source ++ target.dirs ++ [target.name]

def Target.temporaryPlace (source : Place (List UInt8)) (target : Target) : Place (List UInt8) :=
  source ++ target.dirs ++ [target.temporary]

/-- What the work on one file may leave. -/
structure Left (env : Environment) (source : Place (List UInt8)) (target : Target)
    (item : TaskInputFileAssignment) (s t : Files) : Prop where
  others : ∀ place, place ≠ target.place source → place ≠ target.temporaryPlace source →
    GrewAt s t place
  target : target.place source ≠ target.temporaryPlace source →
    GrewAt s t (target.place source) ∨ t (target.place source) = none ∨
      Verified env item (t (target.place source))

variable {env : Environment} {source : Place (List UInt8)} {target : Target}
  {item : TaskInputFileAssignment} {s t u : Files} {content received : List UInt8}
  {chunks : List (Option (List UInt8))}

theorem Left.of_grew (h : ∀ place, GrewAt s t place) : Left env source target item s t :=
  ⟨fun place _ _ => h place, fun _ => Or.inl (h _)⟩

theorem Left.of_sameBut (h : SameBut (target.temporaryPlace source) s t) :
    Left env source target item s t :=
  ⟨fun place _ hne => Or.inl (h place hne), fun hne => Or.inl (Or.inl (h _ hne))⟩

theorem Left.after_grew (hgrew : ∀ place, GrewAt s t place) (h : Left env source target item t u) :
    Left env source target item s u := by
  refine ⟨fun place hne hne' => (hgrew place).trans (h.others place hne hne'), fun hne => ?_⟩
  rcases h.target hne with hmore | hrest
  · exact Or.inl ((hgrew _).trans hmore)
  · exact Or.inr hrest

theorem Left.after_sameBut (hsame : SameBut (target.temporaryPlace source) s t)
    (h : Left env source target item t u) : Left env source target item s u := by
  refine ⟨fun place hne hne' => ?_, fun hne => ?_⟩
  · rw [GrewAt, ← hsame place hne']
    exact h.others place hne hne'
  · rw [GrewAt, ← hsame _ hne]
    exact h.target hne

theorem ends_writeChunks (item : TaskInputFileAssignment) {place : Place (List UInt8)}
    (chunks : List (Option (List UInt8))) (h : s place = some (.file received)) :
    Ends (writeChunks item place chunks received)
      (fun received' t => SameBut place s t ∧ t place = some (.file received'))
      (fun _ t => SameBut place s t) (fun t => SameBut place s t) s := by
  induction chunks generalizing s received with
  | nil => exact ends_pure ⟨.refl place s, h⟩
  | cons chunk chunks ih =>
      cases chunk with
      | none => exact ends_fail (.refl place s)
      | some chunk =>
          rw [writeChunks]
          split
          · exact ends_fail (.refl place s)
          · have hsame := sameBut_append place s chunk
            refine ends_bind (ends_write ?_ (fun _ => sameBut_append _ _ _) fun _ => ?_)
            · exact (ih (append_file h)).imp (fun _ _ h => ⟨hsame.trans h.1, h.2⟩)
                (fun _ _ h => hsame.trans h) fun _ h => hsame.trans h
            · exact sameBut_append _ _ _

theorem ends_discard (h : IsDirs s source target.dirs) :
    Ends (discard source target) (fun _ t => SameBut (target.temporaryPlace source) s t)
      (fun _ t => SameBut (target.temporaryPlace source) s t)
      (fun t => SameBut (target.temporaryPlace source) s t) s := by
  refine ends_recover
    ((ends_removeFile h InputFileError.path target.temporary).imp ?_ ?_ ?_)
  · rintro _ t rfl
    exact sameBut_put _ _ _
  · rintro _ t rfl
    exact ends_pure (.refl _ _)
  · rintro t (rfl | rfl)
    · exact .refl _ _
    · exact sameBut_put _ _ _

theorem ends_discard_fail {α : Type} {error : InputFileError}
    {ok : α → Files → Prop} (hdirs : IsDirs s source target.dirs) :
    Ends (discard source target >>= fun _ => (fail error : Interruptible InputFileError Files α)) ok
      (fun _ t => SameBut (target.temporaryPlace source) s t)
      (fun t => SameBut (target.temporaryPlace source) s t) s := by
  apply ends_bind
  refine (ends_discard hdirs).imp ?_ (fun _ _ h => h) fun _ h => h
  exact fun _ t ht => ends_fail ht

/-- The old file may be gone by the time of the last call. -/
theorem left_of_removed (h : t = s ∨ t = s.put (target.place source) none) :
    Left env source target item s t := by
  rcases h with rfl | rfl
  · exact .of_grew fun _ => Or.inl rfl
  · exact ⟨fun place hne _ => Or.inl (Tree.put_of_ne hne), fun _ => Or.inr (Or.inl Tree.put_self)⟩

theorem placed_of_renamed {moved : List UInt8}
    (hfile : s (target.temporaryPlace source) = some (.file content))
    (hlength : content.length = item.size) (hsha256 : env.sha256 content = item.sha256)
    (h : t = s ∨ t = s.put (target.place source) none)
    (hmoved : t (target.temporaryPlace source) = some (.file moved))
    (hu : u = (t.put (target.temporaryPlace source) none).put (target.place source)
      (some (.file moved))) :
    Left env source target item s u ∧ Verified env item (u (target.place source)) := by
  -- a temporary file in the place of the target would be gone with the old file
  have hcontent : moved = content := by
    have hsame : t (target.temporaryPlace source) = s (target.temporaryPlace source) := by
      rcases h with rfl | rfl
      · rfl
      · apply Tree.put_of_ne
        intro hplace
        rw [hplace, Tree.put_self] at hmoved
        cases hmoved
    simpa using hmoved.symm.trans (hsame.trans hfile)
  subst hcontent hu
  have hverified : Verified env item (((t.put (target.temporaryPlace source) none).put
      (target.place source) (some (.file moved))) (target.place source)) :=
    ⟨moved, Tree.put_self, hlength, hsha256⟩
  refine ⟨⟨fun place hne hne' => Or.inl ?_, fun _ => Or.inr (Or.inr hverified)⟩, hverified⟩
  rw [Tree.put_of_ne hne, Tree.put_of_ne hne']
  rcases h with rfl | rfl
  · rfl
  · exact Tree.put_of_ne hne

theorem ends_moveIntoPlace (hdirs : IsDirs s source target.dirs)
    (hfile : s (target.temporaryPlace source) = some (.file content))
    (hlength : content.length = item.size) (hsha256 : env.sha256 content = item.sha256) :
    Ends (moveIntoPlace source target)
      (fun _ t => Left env source target item s t ∧ Verified env item (t (target.place source)))
      (fun _ t => Left env source target item s t) (fun t => Left env source target item s t)
      s := by
  have hrename : ∀ t, t = s ∨ t = s.put (target.place source) none →
      Ends (rename InputFileError.path source target.dirs target.temporary target.name)
        (fun _ t => Left env source target item s t ∧ Verified env item (t (target.place source)))
        (fun _ t => Left env source target item s t) (fun t => Left env source target item s t)
        t := by
    intro t ht
    have hdirs' : IsDirs t source target.dirs := by
      rcases ht with rfl | rfl
      · exact hdirs
      · exact hdirs.of_sameBut (sameBut_put _ _ _)
    refine (ends_rename hdirs' InputFileError.path target.temporary target.name).imp ?_ ?_ ?_
    · rintro _ u ⟨moved, hmoved, hu⟩
      exact placed_of_renamed hfile hlength hsha256 ht hmoved hu
    · rintro _ u rfl
      exact left_of_removed ht
    · rintro u (rfl | ⟨moved, hmoved, hu⟩)
      · exact left_of_removed ht
      · exact (placed_of_renamed hfile hlength hsha256 ht hmoved hu).1
  rw [moveIntoPlace]
  split
  · refine ends_bind ((ends_tryExists source target.dirs target.name s).imp ?_ ?_ ?_)
    · rintro found t rfl
      apply ends_bind
      rw [Effect.onlyIf]
      split
      · refine (ends_removeFile hdirs InputFileError.path target.name).imp ?_ ?_ ?_
        · exact fun _ t ht => hrename t (Or.inr ht)
        · exact fun _ t ht => left_of_removed (Or.inl ht)
        · exact fun t ht => left_of_removed ht
      · exact ends_pure (hrename t (Or.inl rfl))
    · exact fun _ t ht => left_of_removed (Or.inl ht)
    · exact fun t ht => left_of_removed (Or.inl ht)
  · exact ends_fail (left_of_removed (Or.inl rfl))

theorem ends_materialize (hdirs : IsDirs s source target.dirs)
    (chunks : List (Option (List UInt8))) :
    Ends (materialize env source target item chunks)
      (fun _ t => Left env source target item s t ∧ Verified env item (t (target.place source)))
      (fun _ t => Left env source target item s t) (fun t => Left env source target item s t)
      s := by
  have hleft : ∀ t, SameBut (target.temporaryPlace source) s t →
      Left env source target item s t := fun _ => .of_sameBut
  rw [materialize]
  apply ends_bind
  refine (ends_discard hdirs).imp ?_ (fun _ => hleft) hleft
  intro _ s₁ hs₁
  apply ends_bind
  refine (ends_createNew (hdirs.of_sameBut hs₁) InputFileError.path target.temporary).imp ?_ ?_ ?_
  · rintro _ s₂ ⟨rfl, rfl⟩
    have hs₂ := hs₁.trans (sameBut_put (target.temporaryPlace source) s₁ (some (.file [])))
    apply ends_bind
    apply ends_recover
    apply ends_bind
    refine (ends_writeChunks item chunks Tree.put_self).imp ?_ ?_ ?_
    · rintro received s₃ ⟨hs₃, hfile⟩
      have hs₃ := hs₂.trans hs₃
      have hdirs₃ := hdirs.of_sameBut hs₃
      refine ends_bind (ends_inspect ?_ ?_ (hleft _ hs₃))
      · apply ends_pure
        split
        · exact (ends_discard_fail hdirs₃).imp (fun _ _ h => h)
            (fun _ t ht => hleft t (hs₃.trans ht)) fun t ht => hleft t (hs₃.trans ht)
        · rename_i hverified
          obtain ⟨hlength, hsha256⟩ := not_or.mp hverified
          refine (ends_moveIntoPlace hdirs₃ hfile (not_not.mp hlength) (not_not.mp hsha256)).imp
            ?_ ?_ ?_
          · exact fun _ t ht => ⟨ht.1.after_sameBut hs₃, ht.2⟩
          · exact fun _ t ht => ht.after_sameBut hs₃
          · exact fun t ht => ht.after_sameBut hs₃
      · exact (ends_discard_fail hdirs₃).imp (fun _ _ h => h)
          (fun _ t ht => hleft t (hs₃.trans ht)) fun t ht => hleft t (hs₃.trans ht)
    · intro _ s₃ hs₃
      have hs₃ := hs₂.trans hs₃
      exact (ends_discard_fail (hdirs.of_sameBut hs₃)).imp (fun _ _ h => h)
        (fun _ t ht => hleft t (hs₃.trans ht)) fun t ht => hleft t (hs₃.trans ht)
    · exact fun t ht => hleft _ (hs₂.trans ht)
  · rintro _ t rfl
    exact hleft _ hs₁
  · exact fun t ht => hleft _ (hs₁.trans ht)

/-! All files of a task -/

def targetPlace? (source : Place (List UInt8)) (item : TaskInputFileAssignment) :
    Option (Place (List UInt8)) :=
  (target? item.targetRelativePath).map (Target.place source)

def temporaryPlace? (source : Place (List UInt8)) (item : TaskInputFileAssignment) :
    Option (Place (List UInt8)) :=
  (target? item.targetRelativePath).map (Target.temporaryPlace source)

def fieldPath (item : TaskInputFileAssignment) : List (List Char) :=
  item.fieldName.splitOn '/'

/-- Apart from the temporary files and new directories, only targets change, and a target that has
changed is free or has the content of one of its files. -/
def Changes (env : Environment) (source : Place (List UInt8)) (files : List TaskInputFileAssignment)
    (s t : Files) : Prop :=
  ∀ place, (∀ item ∈ files, temporaryPlace? source item ≠ some place) →
    GrewAt s t place ∨ ∃ item ∈ files, targetPlace? source item = some place ∧
      (t place = none ∨ Verified env item (t place))

/-- The file is at its target. -/
def Received (env : Environment) (source : Place (List UInt8)) (item : TaskInputFileAssignment)
    (t : Files) : Prop :=
  ∃ place, targetPlace? source item = some place ∧ Verified env item (t place)

/-- A later file can take the place of an earlier one as its target or for its temporary file, and a
later field can be the same, or a part of the other. -/
structure Downloaded (env : Environment) (source : Place (List UInt8))
    (files : List TaskInputFileAssignment) (config config' : Members) (t : Files) : Prop where
  received : ∀ item after, item :: after <:+ files →
    (∀ later ∈ after, targetPlace? source later ≠ targetPlace? source item ∧
      temporaryPlace? source later ≠ targetPlace? source item) → Received env source item t
  configured : ∀ item after, item :: after <:+ files →
    (∀ later ∈ after, Apart (fieldPath later) (fieldPath item)) →
      valueAt (fieldPath item) (.object config') = some (metadata item)
  others : ∀ path, (∀ item ∈ files, Apart (fieldPath item) path) →
    valueAt path (.object config') = valueAt path (.object config)

variable {files : List TaskInputFileAssignment} {config config' config'' : Members}

theorem Left.changes (htarget : target? item.targetRelativePath = some target)
    (h : Left env source target item s t) : Changes env source [item] s t := by
  intro place hplace
  have htemporary : place ≠ target.temporaryPlace source := by
    rintro rfl
    exact hplace item (List.mem_singleton_self item) (by rw [temporaryPlace?, htarget]; rfl)
  by_cases hsame : place = target.place source
  · subst hsame
    refine (h.target htemporary).imp id fun hrest => ⟨item, List.mem_singleton_self item, ?_, hrest⟩
    rw [targetPlace?, htarget]
    rfl
  · exact Or.inl (h.others place hsame htemporary)

theorem ends_downloadInputFile (env : Environment) (source : Place (List UInt8))
    (item : TaskInputFileAssignment) (config : Members) (s : Files) :
    Ends (downloadInputFile env source item config)
      (fun config' t => Changes env source [item] s t ∧ Received env source item t ∧
        insertSegments (metadata item) (fieldPath item) config = .ok config')
      (fun _ t => Changes env source [item] s t) (fun t => Changes env source [item] s t) s := by
  rw [downloadInputFile]
  split
  · exact ends_fail fun _ _ => Or.inl (Or.inl rfl)
  · rename_i target htarget
    have hgrew : ∀ t, (∀ place, GrewAt s t place) → Changes env source [item] s t :=
      fun t h => (Left.of_grew h).changes htarget
    apply ends_bind
    refine (ends_createDirAll InputFileError.path source target.dirs s).imp ?_ (fun _ => hgrew)
      hgrew
    intro _ s₁ hs₁
    apply ends_bind
    refine (ends_rejectLinks InputFileError.path source target.dirs s₁).imp ?_ ?_ ?_
    · rintro _ t ⟨rfl, hdirs⟩
      refine ends_bind (ends_inspect ?_ (hgrew _ hs₁) (hgrew _ hs₁))
      split
      · exact ends_fail (hgrew _ hs₁)
      · rename_i chunks _
        apply ends_bind
        refine (ends_materialize hdirs chunks).imp ?_ ?_ ?_
        · rintro _ u ⟨hleft, hverified⟩
          have hchanges := (hleft.after_grew hs₁).changes htarget
          split
          · exact ends_fail hchanges
          · rename_i config' hinsert
            refine ends_pure ⟨hchanges, ⟨target.place source, ?_, hverified⟩, hinsert⟩
            rw [targetPlace?, htarget]
            rfl
        · exact fun _ u hleft => (hleft.after_grew hs₁).changes htarget
        · exact fun u hleft => (hleft.after_grew hs₁).changes htarget
    · rintro _ t rfl
      exact hgrew _ hs₁
    · rintro t rfl
      exact hgrew _ hs₁

/-- A file that is at its target stays, unless a later one takes its place. -/
theorem eq_of_grewAt {place : Place (List UInt8)} (h : GrewAt s t place)
    (hverified : Verified env item (s place)) : t place = s place := by
  obtain ⟨content, hfile, -⟩ := hverified
  rcases h with hsame | ⟨hfree, -⟩
  · exact hsame
  · exact absurd (hfree.symm.trans hfile) (by simp)

theorem Changes.cons (h : Changes env source [item] s t) (hreceived : Received env source item t)
    (hrest : Changes env source files t u) : Changes env source (item :: files) s u := by
  intro place hplace
  obtain ⟨hhead, htail⟩ := List.forall_mem_cons.mp hplace
  rcases hrest place htail with hgrew | ⟨later, hmem, hlater⟩
  · rcases h place (by simpa using hhead) with hgrew' | ⟨_, hmem, htarget, -⟩
    · exact Or.inl (hgrew'.trans hgrew)
    · obtain rfl := List.mem_singleton.mp hmem
      obtain ⟨place', htarget', hverified⟩ := hreceived
      obtain rfl := Option.some.inj (htarget.symm.trans htarget')
      refine Or.inr ⟨_, List.mem_cons_self, htarget, Or.inr ?_⟩
      rwa [eq_of_grewAt hgrew hverified]
  · exact Or.inr ⟨later, List.mem_cons_of_mem _ hmem, hlater⟩

theorem Changes.cons_of_stopped (h : Changes env source [item] s t) :
    Changes env source (item :: files) s t := by
  intro place hplace
  refine (h place (by simpa using hplace item List.mem_cons_self)).imp id ?_
  rintro ⟨_, hmem, hrest⟩
  obtain rfl := List.mem_singleton.mp hmem
  exact ⟨_, List.mem_cons_self, hrest⟩

theorem Downloaded.cons (hreceived : Received env source item t)
    (hinsert : insertSegments (metadata item) (fieldPath item) config = .ok config')
    (hchanges : Changes env source files t u)
    (hrest : Downloaded env source files config' config'' u) :
    Downloaded env source (item :: files) config config'' u where
  received := by
    intro other after hsuffix hlater
    rcases List.suffix_cons_iff.mp hsuffix with heq | hsuffix
    · obtain ⟨rfl, rfl⟩ := List.cons.inj heq
      obtain ⟨place, htarget, hverified⟩ := hreceived
      refine ⟨place, htarget, ?_⟩
      rcases hchanges place fun later hmem => htarget ▸ (hlater later hmem).2 with
        hgrew | ⟨later, hmem, hsame, -⟩
      · rwa [eq_of_grewAt hgrew hverified]
      · exact absurd (hsame.trans htarget.symm) (hlater later hmem).1
    · exact hrest.received other after hsuffix hlater
  configured := by
    intro other after hsuffix hlater
    rcases List.suffix_cons_iff.mp hsuffix with heq | hsuffix
    · obtain ⟨rfl, rfl⟩ := List.cons.inj heq
      rw [hrest.others _ hlater]
      exact valueAt_insertSegments hinsert
    · exact hrest.configured other after hsuffix hlater
  others := by
    intro path hapart
    obtain ⟨hhead, htail⟩ := List.forall_mem_cons.mp hapart
    rw [hrest.others path htail]
    exact valueAt_insertSegments_of_apart hinsert hhead

/-- However the download of the files ends, no link leads it to another file: apart from temporary
files and new directories only targets change, and whatever is new at a target has the size and the
digest of a file for it. If it returns, the files are at their targets and the configuration says
so. -/
theorem downloaded_of_downloadInputFiles (env : Environment) (source : Place (List UInt8))
    (files : List TaskInputFileAssignment) (config : Members) (s : Files) :
    Ends (downloadInputFiles env source files config)
      (fun config' t => Changes env source files s t ∧
        Downloaded env source files config config' t)
      (fun _ t => Changes env source files s t) (fun t => Changes env source files s t) s := by
  induction files generalizing config s with
  | nil =>
      refine ends_pure ⟨fun _ _ => Or.inl (Or.inl rfl), ?_, ?_, fun _ _ => rfl⟩
      · exact fun _ _ hsuffix => absurd (List.suffix_nil.mp hsuffix) (by simp)
      · exact fun _ _ hsuffix => absurd (List.suffix_nil.mp hsuffix) (by simp)
  | cons item files ih =>
      rw [downloadInputFiles]
      apply ends_bind
      refine (ends_downloadInputFile env source item config s).imp ?_ ?_ ?_
      · rintro config' t ⟨hchanges, hreceived, hinsert⟩
        refine (ih config' t).imp ?_ ?_ ?_
        · exact fun config'' u h => ⟨hchanges.cons hreceived h.1, .cons hreceived hinsert h.1 h.2⟩
        · exact fun _ u h => hchanges.cons hreceived h
        · exact fun u h => hchanges.cons hreceived h
      · exact fun _ t h => h.cons_of_stopped
      · exact fun t h => h.cons_of_stopped

end AnvilRun.InputFiles
