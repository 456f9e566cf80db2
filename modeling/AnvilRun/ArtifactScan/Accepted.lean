import AnvilRun.ArtifactScan
import AnvilRun.ArtifactsService
import AnvilRun.Websocket.Fields
import AnvilRun.Websocket.Passes

namespace AnvilRun.ArtifactScan

open AnvilRun.AgentContracts
open AnvilRun.AssignmentChecks
open AnvilRun.Fallible
open AnvilRun.UnixPath
open AnvilRun.ValidationPrimitives
open AnvilRun.Websocket
open JsString

/-! The names that pass -/

def isLineSeparator (c : Char) : Bool :=
  c.toNat == 0x2028 || c.toNat == 0x2029

/-- No line separator, and nothing that looks like markup. -/
def isPortableText (s : List Char) : Bool :=
  !s.any isLineSeparator && !looksLikeMarkup (ofChars s)

def isPortableName (name : List Char) : Bool :=
  isPortableText name && !name.contains '\\' && !name.contains ':' && decide (name.length ≤ 512)

/-- The path is written without empty segments and dots. -/
def isPortableDir (artifactDir : List Char) : Bool :=
  isPortableText artifactDir &&
    (artifactDir.splitOn '/').all (fun segment => !segment.isEmpty && segment != ['.']) &&
    decide ((ofChars artifactDir).length ≤ 1024)

theorem isPlainText_of_no_control {s : List Char} (h : s.any isControl = false) :
    Websocket.isPlainText (ofChars s) = isPortableText s := by
  have hchars : s.all isProtocolChar = !s.any isLineSeparator := by
    rw [Bool.eq_iff_iff, List.all_eq_true, Bool.not_eq_true', List.any_eq_false]
    refine forall₂_congr fun c hc => ?_
    have hcontrol := List.any_eq_false.mp h c hc
    simp only [isControl, Bool.or_eq_true, decide_eq_true_eq] at hcontrol
    simp only [isProtocolChar, isLineSeparator, Bool.not_eq_true', decide_eq_false_iff_not,
      Bool.or_eq_true, beq_iff_eq]
    omega
  rw [Bool.eq_iff_iff, isPlainText_ofChars, hchars, isPortableText, Bool.and_eq_true,
    Bool.not_eq_true', Bool.not_eq_true']

/-! What a scan finds -/

/-- The file of a manifest that comes from an entry. -/
structure IsFileOf (entry : DirEntry) (file : ScannedArtifact) : Prop where
  name_eq : toStr entry.name.bytes = some file.relativePath
  no_control : file.relativePath.any isControl = false
  sha256_eq : ∃ digest : List UInt8, digest.length = 32 ∧ file.sha256 = lowerHex digest

theorem relativePath_name {name : FileName} {path : List Char}
    (h : relativePath name.bytes = .ok path) :
    toStr name.bytes = some path ∧ path.any isControl = false := by
  rw [relativePath, name.components_eq] at h
  simp only [List.mapM_cons, List.mapM_nil, pathPart, bind_eq_ok, require_eq_ok, ensure_eq_ok,
    pure_eq_ok] at h
  obtain ⟨parts, ⟨part, ⟨text, htext, -, hchecks, rfl⟩, -, rfl, rfl⟩, -, -, rfl⟩ := h
  have hjoin : ['/'].intercalate [text] = text := List.append_nil text
  rw [hjoin]
  exact ⟨htext, Bool.eq_false_iff.mpr hchecks.2⟩

theorem scanEntry_spec {sha256 : Sha256} {entry : DirEntry} {totalBytes : Nat}
    {file : ScannedArtifact} (h : scanEntry sha256 entry totalBytes = .ok file) :
    IsFileOf entry file ∧ totalBytes + file.size ≤ maxArtifactBytes := by
  simp only [scanEntry, hashFile, bind_eq_ok, require_eq_ok, ensure_eq_ok, pure_eq_ok] at h
  obtain ⟨metadata, -, -, -, -, -, path, hpath, scanned, hscanned, -, -, -, hbytes, rfl⟩ := h
  obtain ⟨contents, -, -, -, -, -, finalSize, -, -, -, rfl⟩ := hscanned
  obtain ⟨hname, hcontrol⟩ := relativePath_name hpath
  exact ⟨⟨hname, hcontrol, sha256.digest contents, sha256.length_digest contents, rfl⟩, hbytes⟩

def totalSize (files : List ScannedArtifact) : Nat :=
  (files.map ScannedArtifact.size).sum

/-- The ZIP files among the entries. -/
def zipEntries (entries : List (Option DirEntry)) : List DirEntry :=
  (entries.filterMap id).filter (fun entry => isZipFile entry.name)

theorem scanDirectory_spec {sha256 : Sha256} {entries : List (Option DirEntry)}
    {files : List ScannedArtifact} {totalBytes : Nat} {manifest : ArtifactManifest}
    (hbytes : totalBytes ≤ maxArtifactBytes)
    (h : scanDirectory sha256 entries files totalBytes = .ok manifest) :
    ∃ more, manifest.files = files ++ more ∧ List.Forall₂ IsFileOf (zipEntries entries) more ∧
      manifest.totalBytes = totalBytes + totalSize more ∧
      manifest.totalBytes ≤ maxArtifactBytes := by
  induction entries generalizing files totalBytes with
  | nil =>
      obtain rfl := Except.ok.inj h
      exact ⟨[], (List.append_nil files).symm, .nil, rfl, hbytes⟩
  | cons entry entries ih =>
      cases entry with
      | none => cases h
      | some entry =>
          rw [scanDirectory] at h
          split at h
          · rename_i hzip
            obtain ⟨scanned, hscanned, h⟩ := bind_eq_ok.mp h
            obtain ⟨hfile, hle⟩ := scanEntry_spec hscanned
            obtain ⟨more, hfiles, hmore, htotal, hmax⟩ := ih hle h
            have hentries : zipEntries (some entry :: entries) = entry :: zipEntries entries :=
              List.filter_cons_of_pos hzip
            refine ⟨scanned :: more, ?_, ?_, ?_, hmax⟩
            · rw [hfiles, List.append_assoc, List.singleton_append]
            · rw [hentries]
              exact .cons hfile hmore
            · rw [htotal, totalSize, totalSize, List.map_cons, List.sum_cons, Nat.add_assoc]
          · rename_i hzip
            have hentries : zipEntries (some entry :: entries) = zipEntries entries :=
              List.filter_cons_of_neg hzip
            rw [hentries]
            exact ih hbytes h

/-- The names of the ZIP files in the artifact directory. -/
def zipNames (tree : SourceTree) (artifactDir : List Char) : List (List Char) :=
  match tree.readDir (components (Utf8.encode artifactDir)) with
  | some directory =>
      (zipEntries directory.entries).filterMap (fun entry => toStr entry.name.bytes)
  | none => []

theorem names_of_forall₂ {entries : List DirEntry} {files : List ScannedArtifact}
    (h : List.Forall₂ IsFileOf entries files) :
    entries.filterMap (fun entry => toStr entry.name.bytes) =
      files.map ScannedArtifact.relativePath := by
  induction h with
  | nil => rfl
  | cons hfile _ ih =>
      rw [List.filterMap_cons, hfile.name_eq, ih, List.map_cons]

/-- What a successful scan has made sure of. -/
structure ScanFacts (tree : SourceTree) (artifactDir : List Char) (manifest : ArtifactManifest) :
    Prop where
  dir_valid : validateRelativePath artifactDir = .ok ()
  files_ne_nil : manifest.files ≠ []
  names_perm : (manifest.files.map ScannedArtifact.relativePath).Perm (zipNames tree artifactDir)
  file_valid : ∀ file ∈ manifest.files, ∃ entry, IsFileOf entry file
  total_eq : manifest.totalBytes = totalSize manifest.files
  total_le : manifest.totalBytes ≤ maxArtifactBytes

theorem scanArtifacts_spec {sha256 : Sha256} {tree : SourceTree} {artifactDir : List Char}
    {manifest : ArtifactManifest} (h : scanArtifacts sha256 tree artifactDir = .ok manifest) :
    ScanFacts tree artifactDir manifest := by
  simp only [scanArtifacts, bind_eq_ok, require_eq_ok, ensure_eq_ok, pure_eq_ok] at h
  obtain ⟨_, hvalid, _, -, metadata, -, _, -, directory, hdirectory, scanned, hscan, _, hfiles, rfl⟩ :=
    h
  obtain ⟨files, heq, hforall, htotal, hle⟩ := scanDirectory_spec (Nat.zero_le _) hscan
  rw [List.nil_append] at heq
  subst heq
  have hperm := List.mergeSort_perm scanned.files pathLe
  constructor
  · exact hvalid
  · exact fun hnil => hfiles (List.perm_nil.mp (hnil ▸ hperm.symm))
  · rw [zipNames, hdirectory]
    dsimp only
    rw [names_of_forall₂ hforall]
    exact hperm.map _
  · intro file hmem
    obtain ⟨entry, -, hfile⟩ := (exists_right hforall).2 file (hperm.mem_iff.mp hmem)
    exact ⟨entry, hfile⟩
  · rw [htotal, Nat.zero_add, totalSize, totalSize]
    exact ((hperm.map _).sum_nat).symm
  · exact hle

/-! What the server reads -/

def readText : JsValue → Option JsString
  | .string s => some s
  | _ => none

def readNat : JsValue → Option Nat
  | .number (.finite q) => if q.den = 1 ∧ 0 ≤ q.num then some q.num.toNat else none
  | _ => none

def readEntry (value : JsValue) : Option ArtifactsService.ArtifactManifestEntry := do
  let relativePath ← readText (value.property (ofString "relativePath"))
  let size ← readNat (value.property (ofString "size"))
  let sha256 ← readText (value.property (ofString "sha256"))
  return ⟨relativePath, size, sha256⟩

def readEntries : JsValue → Option (List ArtifactsService.ArtifactManifestEntry)
  | .array items => items.mapM (fun item => item.bind readEntry)
  | _ => none

/-- The payload of a manifest, as `validateManifest` reads it. -/
def readManifest (payload : JsValue) : Option ArtifactsService.TaskArtifactManifestMessage := do
  let taskId ← readText (payload.property (ofString "taskId"))
  let leaseToken ← readText (payload.property (ofString "leaseToken"))
  let artifactDir ← readText (payload.property (ofString "artifactDir"))
  let totalBytes ← readNat (payload.property (ofString "totalBytes"))
  let files ← readEntries (payload.property (ofString "files"))
  return ⟨taskId, leaseToken, artifactDir, totalBytes, files⟩

/-- Whether a message passes the protocol and the service. -/
def ServerAccepts (host : ArtifactsService.ArtifactHost) (message : JsValue) : Prop :=
  validateProtocolMessage message = .ok message ∧
    ∃ manifest files, readManifest (message.property (ofString "payload")) = some manifest ∧
      ArtifactsService.validateManifest host manifest = .ok files

def serverEntry (entry : ArtifactManifestEntry) : ArtifactsService.ArtifactManifestEntry :=
  ⟨ofChars entry.relativePath, entry.size, ofChars entry.sha256⟩

def serverMessage (payload : TaskArtifactManifestPayload) :
    ArtifactsService.TaskArtifactManifestMessage :=
  ⟨ofChars payload.taskId, ofChars payload.leaseToken, ofChars payload.artifactDir,
    payload.totalBytes, payload.files.map serverEntry⟩

theorem ofItems_map {α : Type} (f : α → Json) (l : List α) :
    JsValue.ofItems (l.map f) = l.map (fun a => some (JsValue.ofJson (f a))) := by
  induction l with
  | nil => rfl
  | cons a l ih => rw [List.map_cons, JsValue.ofItems, ih, List.map_cons]

theorem readNat_natCast (n : Nat) : readNat (.number (.finite n)) = some n := by
  have hnat : (n : Rat).den = 1 ∧ 0 ≤ (n : Rat).num := ⟨Rat.den_natCast n, Int.natCast_nonneg n⟩
  rw [readNat, if_pos hnat]
  rfl

theorem readEntries_map (entries : List ArtifactManifestEntry) :
    (entries.map (fun entry => some (JsValue.ofJson (entryJson entry)))).mapM
      (fun item => item.bind readEntry) = some (entries.map serverEntry) := by
  induction entries with
  | nil => rfl
  | cons entry entries ih =>
      have hentry : readEntry (JsValue.ofJson (entryJson entry)) = some (serverEntry entry) := by
        show ((readNat (.number (.finite entry.size))).bind fun size =>
          some (ArtifactsService.ArtifactManifestEntry.mk _ size _)) = _
        rw [readNat_natCast]
        rfl
      rw [List.map_cons, List.mapM_cons, Option.bind_some, hentry, ih]
      rfl

theorem readManifest_payload (payload : TaskArtifactManifestPayload) :
    readManifest (JsValue.ofJson (payloadJson payload)) = some (serverMessage payload) := by
  have hfiles : readEntries ((JsValue.ofJson (payloadJson payload)).property (ofString "files")) =
      some (payload.files.map serverEntry) := by
    show readEntries (.array (JsValue.ofItems (payload.files.map entryJson))) = _
    rw [ofItems_map]
    exact readEntries_map payload.files
  have htotal : readNat ((JsValue.ofJson (payloadJson payload)).property (ofString "totalBytes")) =
      some payload.totalBytes := readNat_natCast payload.totalBytes
  rw [readManifest, hfiles, htotal]
  rfl

/-! The protocol -/

theorem artifactFile_nil_iff (path : Path) (index : Nat) (entry : ArtifactManifestEntry) :
    artifactFile path index (JsValue.ofJson (entryJson entry)) = [] ↔
      (ofChars entry.relativePath ≠ [] ∧ isSafeRelativePath (ofChars entry.relativePath) = true) ∧
        entry.size ≤ JsNumber.maxSafeInteger ∧ matchesSha256 (ofChars entry.sha256) = true := by
  have hpath : (JsValue.ofJson (entryJson entry)).property (ofString "relativePath") =
      .string (ofChars entry.relativePath) := rfl
  have hsize : (JsValue.ofJson (entryJson entry)).property (ofString "size") =
      .number (.finite entry.size) := rfl
  have hsha : (JsValue.ofJson (entryJson entry)).property (ofString "sha256") =
      .string (ofChars entry.sha256) := rfl
  have hknown : unknownProperties (JsValue.ofJson (entryJson entry))
      ["relativePath", "size", "sha256"] (path ++ [.index index]) = [] := rfl
  have hobject : isPlainObject (JsValue.ofJson (entryJson entry)) = true := rfl
  simp only [artifactFile, objectValue, hobject, if_true, hknown, List.nil_append,
    List.append_eq_nil_iff, relativePathProperty_nil_iff hpath, nonNegativeInteger_nil_iff hsize,
    sha256Property_nil_iff hsha, and_assoc]

/-- What the protocol asks of the payload. -/
structure ProtocolValid (payload : TaskArtifactManifestPayload) : Prop where
  taskId : matchesProtocolId (ofChars payload.taskId) = true
  leaseToken : matchesLeaseToken (ofChars payload.leaseToken) = true
  artifactDir : ofChars payload.artifactDir ≠ [] ∧
    isSafeRelativePath (ofChars payload.artifactDir) = true
  totalBytes : payload.totalBytes ≤ JsNumber.maxSafeInteger
  files : ∀ entry ∈ payload.files,
    (ofChars entry.relativePath ≠ [] ∧ isSafeRelativePath (ofChars entry.relativePath) = true) ∧
      entry.size ≤ JsNumber.maxSafeInteger ∧ matchesSha256 (ofChars entry.sha256) = true

theorem artifactFiles_nil_iff (path : Path) (entries : List ArtifactManifestEntry) :
    artifactFiles (JsValue.ofJson (.array (entries.map entryJson))) path = [] ↔
      ∀ entry ∈ entries,
        (ofChars entry.relativePath ≠ [] ∧ isSafeRelativePath (ofChars entry.relativePath) = true) ∧
          entry.size ≤ JsNumber.maxSafeInteger ∧ matchesSha256 (ofChars entry.sha256) = true := by
  rw [JsValue.ofJson, ofItems_map, artifactFiles, eachItem_nil_iff]
  constructor
  · intro h entry hmem
    obtain ⟨i, hi, rfl⟩ := List.mem_iff_getElem.mp hmem
    refine (artifactFile_nil_iff path i _).mp (h i _ ?_)
    rw [List.getElem?_map, List.getElem?_eq_getElem hi]
    rfl
  · intro h i item hitem
    rw [List.getElem?_map] at hitem
    obtain ⟨entry, hentry, heq⟩ := Option.map_eq_some_iff.mp hitem
    obtain rfl := Option.some.inj heq
    exact (artifactFile_nil_iff path i entry).mpr (h entry (List.mem_of_getElem? hentry))

theorem agentPayload_nil_iff (payload : TaskArtifactManifestPayload) (path : Path) :
    agentPayload .taskArtifactManifest (JsValue.ofJson (payloadJson payload)) path = [] ↔
      ProtocolValid payload := by
  have htask : (JsValue.ofJson (payloadJson payload)).property (ofString "taskId") =
      .string (ofChars payload.taskId) := rfl
  have hlease : (JsValue.ofJson (payloadJson payload)).property (ofString "leaseToken") =
      .string (ofChars payload.leaseToken) := rfl
  have hdir : (JsValue.ofJson (payloadJson payload)).property (ofString "artifactDir") =
      .string (ofChars payload.artifactDir) := rfl
  have htotal : (JsValue.ofJson (payloadJson payload)).property (ofString "totalBytes") =
      .number (.finite payload.totalBytes) := rfl
  have hfiles : (JsValue.ofJson (payloadJson payload)).property (ofString "files") =
      JsValue.ofJson (.array (payload.files.map entryJson)) := rfl
  have hknown : unknownProperties (JsValue.ofJson (payloadJson payload))
      (agentPayloadProperties .taskArtifactManifest) path = [] := rfl
  have hobject : isPlainObject (JsValue.ofJson (payloadJson payload)) = true := rfl
  simp only [agentPayload, objectValue, hobject, if_true, hknown, List.nil_append, taskLease,
    List.append_eq_nil_iff, idProperty_nil_iff htask, leaseProperty_nil_iff hlease,
    relativePathProperty_nil_iff hdir, nonNegativeInteger_nil_iff htotal, hfiles,
    artifactFiles_nil_iff]
  constructor
  · rintro ⟨⟨⟨⟨htask, hlease⟩, hdir⟩, htotal⟩, hfiles⟩
    exact ⟨htask, hlease, hdir, htotal, hfiles⟩
  · rintro ⟨htask, hlease, hdir, htotal, hfiles⟩
    exact ⟨⟨⟨⟨htask, hlease⟩, hdir⟩, htotal⟩, hfiles⟩

theorem validateProtocolMessage_ok_iff {stamp : Stamp}
    (hid : matchesProtocolId (ofChars stamp.id) = true)
    (htime : isIso8601UtcString (ofChars stamp.timestamp) = true)
    (payload : TaskArtifactManifestPayload) :
    validateProtocolMessage (JsValue.ofJson (encodeArtifactManifestMessage stamp payload)) =
        .ok (JsValue.ofJson (encodeArtifactManifestMessage stamp payload)) ↔
      ProtocolValid payload := by
  have henvelope : EnvelopeValid
      (JsValue.ofJson (encodeArtifactManifestMessage stamp payload)) := by
    refine ⟨rfl, rfl, ?_, rfl, htime, ?_, rfl⟩
    · exact (idProperty_nil_iff rfl).mpr hid
    · exact decide_eq_true (congrArg JsNumber.finite Nat.cast_one)
  rw [henvelope.validate_iff]
  exact agentPayload_nil_iff payload _

/-! The service -/

section Service

open ArtifactsService (ArtifactHost)

theorem servicePath_eq {value path : JsString}
    (h : ArtifactsService.validateRelativePath value = .ok path) : path = value := by
  simp only [ArtifactsService.validateRelativePath, bind_eq_ok, pure_eq_ok] at h
  obtain ⟨-, -, -, -, -, -, -, -, rfl⟩ := h
  rfl

/-- What the loop over the files asks of one of them. -/
structure ServiceFile (item : ArtifactsService.ArtifactManifestEntry) : Prop where
  path : ArtifactsService.validateRelativePath item.relativePath = .ok item.relativePath
  size : item.size ≤ JsNumber.maxSafeInteger
  sha256 : ArtifactsService.isSha256 item.sha256 = true

def entriesSize (files : List ArtifactsService.ArtifactManifestEntry) : Nat :=
  (files.map ArtifactsService.ArtifactManifestEntry.size).sum

theorem validateFiles_ok_iff (host : ArtifactHost)
    (files : List ArtifactsService.ArtifactManifestEntry) (seen : List JsString) {sum : Nat}
    (hsum : sum ≤ ArtifactsService.maxArtifactBytes) (result : Nat) :
    ArtifactsService.validateFiles host seen sum files = .ok result ↔
      (∀ item ∈ files, ServiceFile item ∧ host.identityPath item.relativePath ∉ seen) ∧
        (files.map (fun item => host.identityPath item.relativePath)).Nodup ∧
        sum + entriesSize files ≤ ArtifactsService.maxArtifactBytes ∧
        result = sum + entriesSize files := by
  induction files generalizing seen sum with
  | nil =>
      constructor
      · intro h
        exact ⟨nofun, List.nodup_nil, hsum, (Except.ok.inj h).symm⟩
      · exact fun h => congrArg Except.ok h.2.2.2.symm
  | cons item files ih =>
      have hsize : entriesSize (item :: files) = item.size + entriesSize files := List.sum_cons
      rw [hsize, ArtifactsService.validateFiles_cons, List.map_cons, List.nodup_cons]
      simp only [bind_eq_ok, ensure_eq_ok]
      constructor
      · rintro ⟨path, hpath, -, ⟨hfresh, hsafe, hsha⟩, -, hle, hrest⟩
        obtain rfl := servicePath_eq hpath
        obtain ⟨hfiles, hnodup, htotal, rfl⟩ := (ih _ hle).mp hrest
        refine ⟨?_, ⟨?_, hnodup⟩, by omega, by omega⟩
        · intro other hmem
          rcases List.mem_cons.mp hmem with rfl | hmem
          · exact ⟨⟨hpath, hsafe, hsha⟩, hfresh⟩
          · exact ⟨(hfiles other hmem).1, fun hin => (hfiles other hmem).2 (.tail _ hin)⟩
        · intro hin
          obtain ⟨other, hother, heq⟩ := List.mem_map.mp hin
          exact (hfiles other hother).2 (heq ▸ List.mem_cons_self)
      · rintro ⟨hfiles, ⟨hfirst, hnodup⟩, htotal, rfl⟩
        obtain ⟨⟨hpath, hsafe, hsha⟩, hfresh⟩ := hfiles item List.mem_cons_self
        refine ⟨_, hpath, (), ⟨hfresh, hsafe, hsha⟩, (), by omega, ?_⟩
        refine (ih _ (by omega)).mpr ⟨?_, hnodup, by omega, by omega⟩
        intro other hmem
        refine ⟨(hfiles other (.tail _ hmem)).1, fun hin => ?_⟩
        rcases List.mem_cons.mp hin with heq | hin
        · exact hfirst (heq ▸ List.mem_map_of_mem hmem)
        · exact (hfiles other (.tail _ hmem)).2 hin

/-! The path of a file -/

/-- What is known of the name of a scanned file. -/
structure IsName (name : List Char) : Prop where
  no_slash : '/' ∉ name
  named : isNamedPart name = true
  no_control : name.any isControl = false

theorem IsFileOf.isName {entry : DirEntry} {file : ScannedArtifact} (h : IsFileOf entry file) :
    IsName file.relativePath := by
  have hbytes : Utf8.encode file.relativePath = entry.name.bytes := by
    have hname := h.name_eq
    simp only [toStr] at hname
    split at hname
    · rename_i hencode
      exact Option.some.inj hname ▸ hencode
    · cases hname
  constructor
  · intro hslash
    apply entry.name.no_slash
    rw [← hbytes, Utf8.encode, List.mem_flatMap]
    exact ⟨'/', hslash, (mem_utf8EncodeChar_ascii (a := '/') (by decide)).mpr rfl⟩
  · simp only [isNamedPart, Bool.and_eq_true, Bool.not_eq_true', List.isEmpty_eq_false_iff,
      bne_iff_ne]
    refine ⟨⟨?_, ?_⟩, ?_⟩
    · intro hnil
      rw [hnil] at hbytes
      exact entry.name.ne_nil hbytes.symm
    · intro hdot
      rw [hdot] at hbytes
      exact entry.name.ne_dot (hbytes.symm.trans (by decide))
    · intro hdots
      rw [hdots] at hbytes
      exact entry.name.ne_dots (hbytes.symm.trans (by decide))
  · exact h.no_control

variable {name : List Char}

theorem hasControlUnit_of_no_control {s : List Char} (h : s.any isControl = false) :
    ArtifactsService.hasControlUnit (ofChars s) = false := by
  apply List.any_eq_false.mpr
  intro u hu hcontrol
  have hbounds : u.toNat < 32 ∨ u.toNat = 127 := by
    simpa only [Bool.or_eq_true, decide_eq_true_eq, beq_iff_eq, UInt16.lt_iff_toNat_lt,
      ← UInt16.toNat_inj, UInt16.reduceToNat] using hcontrol
  obtain ⟨c, hc, hcu⟩ := exists_char_of_mem hu (by omega)
  have hnot := List.any_eq_false.mp h c hc
  simp only [isControl, Bool.or_eq_true, decide_eq_true_eq] at hnot
  omega

theorem IsName.units (h : IsName name) :
    ofChars name ≠ [] ∧ (ofChars name).splitOn 47 = [ofChars name] := by
  refine ⟨fun hnil => ?_, ?_⟩
  · have hnamed := h.named
    rw [ofChars_eq_nil.mp hnil] at hnamed
    cases hnamed
  · have hsplit : (ofChars name).splitOn 47 = (name.splitOn '/').map ofChars :=
      splitOn_ofChars (a := '/') (by decide)
    rw [List.splitOn_eq_singleton h.no_slash] at hsplit
    exact hsplit

theorem not_startsWithDrive {s : JsString} (h : 58 ∉ s) :
    ArtifactsService.startsWithDrive s = false := by
  cases s with
  | nil => rfl
  | cons u s =>
      cases s with
      | nil => rfl
      | cons v s =>
          have hv : (v == 58) = false := by
            rw [beq_eq_false_iff_ne]
            rintro rfl
            exact h (.tail _ List.mem_cons_self)
          rw [ArtifactsService.startsWithDrive, hv, Bool.and_false]

/-- Without the characters that both rules bar, the service only asks for the length. -/
theorem servicePath_iff (h : IsName name) (hbackslash : 92 ∉ ofChars name)
    (hcolon : 58 ∉ ofChars name) :
    ArtifactsService.validateRelativePath (ofChars name) = .ok (ofChars name) ↔
      name.length ≤ 512 := by
  obtain ⟨hne, hunits⟩ := h.units
  have hlength := length_ofChars_le name
  have hpoints : codePoints (([ofChars name]).getLastD []) = name.length := codePoints_ofChars name
  have hpos : 0 < name.length := List.length_pos_of_ne_nil fun hnil => hne (hnil ▸ rfl)
  have hbarred : ¬ ((ofChars name).head? = some 47 ∨ (ofChars name).head? = some 92 ∨
      ArtifactsService.startsWithDrive (ofChars name) ∨ 92 ∈ ofChars name ∨
      ArtifactsService.hasControlUnit (ofChars name)) := by
    rintro (hhead | hhead | hdrive | hmem | hcontrol)
    · have hempty := nil_mem_splitOn_of_head? hhead
      rw [hunits, List.mem_singleton] at hempty
      exact hne hempty.symm
    · exact hbackslash (List.mem_of_mem_head? hhead)
    · rw [not_startsWithDrive hcolon] at hdrive
      cases hdrive
    · exact hbackslash hmem
    · rw [hasControlUnit_of_no_control h.no_control] at hcontrol
      cases hcontrol
  have hpart : ([ofChars name]).all
      (fun part => part ≠ [] ∧ part ≠ [46] ∧ part ≠ [46, 46] ∧ 58 ∉ part) = true := by
    have hnamed := h.named
    simp only [isNamedPart, Bool.and_eq_true, bne_iff_ne] at hnamed
    rw [List.all_cons, List.all_nil, Bool.and_true, decide_eq_true_eq]
    exact ⟨hne, fun hdot => hnamed.1.2 (ofChars_eq_dot.mp hdot),
      fun hdots => hnamed.2 (ofChars_eq_dots.mp hdots), hcolon⟩
  simp only [ArtifactsService.validateRelativePath, ArtifactsService.splitPath, hunits, bind_eq_ok,
    ensure_eq_ok, pure_eq_ok, hpoints]
  constructor
  · rintro ⟨-, -, -, -, -, -, -, hle, -⟩
    exact hle.2
  · intro hle
    exact ⟨(), ⟨hne, by omega⟩, (), hbarred, (), hpart, (), ⟨hpos, hle⟩, trivial⟩

/-- The rules of the protocol and of the service together. -/
theorem path_accepted_iff (h : IsName name) :
    ((ofChars name ≠ [] ∧ isSafeRelativePath (ofChars name) = true) ∧
        ArtifactsService.validateRelativePath (ofChars name) = .ok (ofChars name)) ↔
      isPortableName name = true := by
  have hbackslash : (92 : UInt16) ∈ ofChars name ↔ '\\' ∈ name :=
    mem_ofChars_ascii (a := '\\') (by decide)
  have hcolon : (58 : UInt16) ∈ ofChars name ↔ ':' ∈ name :=
    mem_ofChars_ascii (a := ':') (by decide)
  have hprotocol : isSafeRelativePath (ofChars name) = true ↔
      isPortableText name = true ∧ '\\' ∉ name ∧ ':' ∉ name := by
    rw [isSafeRelativePath_ofChars, isPlainText_of_no_control h.no_control,
      List.splitOn_eq_singleton h.no_slash, List.all_cons, List.all_nil, Bool.and_true]
    exact ⟨fun hall => ⟨hall.1, hall.2.1, hall.2.2.1⟩,
      fun hall => ⟨hall.1, hall.2.1, hall.2.2, h.named⟩⟩
  rw [hprotocol, isPortableName]
  simp only [Bool.and_eq_true, Bool.not_eq_true', decide_eq_true_eq, ← Bool.not_eq_true,
    List.contains_iff_mem]
  constructor
  · rintro ⟨⟨-, htext, hb, hc⟩, hservice⟩
    exact ⟨⟨⟨htext, hb⟩, hc⟩,
      (servicePath_iff h (mt hbackslash.mp hb) (mt hcolon.mp hc)).mp hservice⟩
  · rintro ⟨⟨⟨htext, hb⟩, hc⟩, hle⟩
    exact ⟨⟨h.units.1, htext, hb, hc⟩,
      (servicePath_iff h (mt hbackslash.mp hb) (mt hcolon.mp hc)).mpr hle⟩

/-! The artifact directory -/

/-- The rules for the artifact directory, of which the service has its own. -/
structure DirAccepted (artifactDir : List Char) : Prop where
  protocol : ofChars artifactDir ≠ [] ∧ isSafeRelativePath (ofChars artifactDir) = true
  service : (ofChars artifactDir).length ≤ 1024

theorem dirAccepted_iff {artifactDir : List Char}
    (h : validateRelativePath artifactDir = .ok ()) :
    DirAccepted artifactDir ↔ isPortableDir artifactDir = true := by
  obtain ⟨hne, hbackslash, -, -, -, hcolon, hcontrol, hnormal⟩ := ensure_eq_ok.mp h
  have hsegments : segments (Utf8.encode artifactDir) =
      (artifactDir.splitOn '/').map Utf8.encode := splitOn_encode (a := '/') (by decide)
  have hdots : ∀ part ∈ artifactDir.splitOn '/', part ≠ ['.', '.'] := by
    rintro part hmem rfl
    refine (all_isNormal_iff.mp hnormal).2.2 (Utf8.encode ['.', '.']) ?_ (by decide)
    rw [hsegments]
    exact List.mem_map_of_mem hmem
  have hnamed : (artifactDir.splitOn '/').all isNamedPart =
      (artifactDir.splitOn '/').all (fun segment => !segment.isEmpty && segment != ['.']) := by
    rw [Bool.eq_iff_iff, List.all_eq_true, List.all_eq_true]
    refine forall₂_congr fun part hmem => ?_
    rw [isNamedPart, bne_iff_ne.mpr (hdots part hmem), Bool.and_true]
  have hprotocol : (ofChars artifactDir ≠ [] ∧ isSafeRelativePath (ofChars artifactDir) = true) ↔
      isPortableText artifactDir = true ∧
        (artifactDir.splitOn '/').all (fun segment => !segment.isEmpty && segment != ['.']) = true := by
    rw [isSafeRelativePath_ofChars, isPlainText_of_no_control (Bool.eq_false_iff.mpr hcontrol),
      hnamed]
    exact ⟨fun hall => ⟨hall.2.1, hall.2.2.2.2⟩,
      fun hall => ⟨mt ofChars_eq_nil.mp hne, hall.1, hbackslash, hcolon, hall.2⟩⟩
  rw [isPortableDir, Bool.and_eq_true, Bool.and_eq_true, ← hprotocol, decide_eq_true_eq]
  exact ⟨fun hdir => ⟨hdir.protocol, hdir.service⟩, fun hdir => ⟨hdir.1, hdir.2⟩⟩

/-! The digest -/

theorem hexDigit_ok : (List.range 16).all (fun n =>
    decide ((encodeChar (hexDigit n)).length = 1) && (encodeChar (hexDigit n)).all isHexUnit) =
      true := by decide

theorem encode_hexDigit {n : Nat} (h : n < 16) :
    (encodeChar (hexDigit n)).length = 1 ∧ (encodeChar (hexDigit n)).all isHexUnit = true := by
  have hdigit := List.all_eq_true.mp hexDigit_ok n (List.mem_range.mpr h)
  rwa [Bool.and_eq_true, decide_eq_true_eq] at hdigit

theorem ofChars_lowerHex (bytes : List UInt8) :
    (ofChars (lowerHex bytes)).length = 2 * bytes.length ∧
      (ofChars (lowerHex bytes)).all isHexUnit = true := by
  induction bytes with
  | nil => exact ⟨rfl, rfl⟩
  | cons b bytes ih =>
      have hb := b.toNat_lt
      obtain ⟨hlength, hall⟩ := encode_hexDigit (n := b.toNat / 16) (by omega)
      obtain ⟨hlength', hall'⟩ := encode_hexDigit (n := b.toNat % 16) (by omega)
      have hcons : ofChars (lowerHex (b :: bytes)) = encodeChar (hexDigit (b.toNat / 16)) ++
          (encodeChar (hexDigit (b.toNat % 16)) ++ ofChars (lowerHex bytes)) := rfl
      rw [hcons, List.length_append, List.length_append, List.all_append, List.all_append, hlength,
        hlength', hall, hall', ih.1, ih.2, List.length_cons]
      exact ⟨by omega, rfl⟩

theorem IsFileOf.sha256_matches {entry : DirEntry} {file : ScannedArtifact}
    (h : IsFileOf entry file) : matchesSha256 (ofChars file.sha256) = true := by
  obtain ⟨digest, hdigest, hsha⟩ := h.sha256_eq
  obtain ⟨hlength, hall⟩ := ofChars_lowerHex digest
  rw [hsha, matchesSha256, hlength, hdigest, hall]
  rfl

/-! Manifests -/

variable {host : ArtifactHost} {task : TaskAssignmentPayload} {tree : SourceTree}
  {manifest : ArtifactManifest}

theorem units_ge_of_no_control {s : List Char} (h : s.any isControl = false) :
    (ofChars s).all (fun u => 32 ≤ u) = true := by
  have hunits := List.any_eq_false.mp (hasControlUnit_of_no_control h)
  apply List.all_eq_true.mpr
  intro u hu
  have hnot := hunits u hu
  rw [Bool.or_eq_true, not_or, decide_eq_true_eq, UInt16.not_lt] at hnot
  exact decide_eq_true hnot.1

theorem entriesSize_eq (manifest : ArtifactManifest) :
    entriesSize (manifest.entries.map serverEntry) = totalSize manifest.files := by
  rw [entriesSize, totalSize, ArtifactManifest.entries, List.map_map, List.map_map]
  rfl

theorem size_le_totalSize {files : List ScannedArtifact} {file : ScannedArtifact}
    (h : file ∈ files) : file.size ≤ totalSize files := by
  induction files with
  | nil => cases h
  | cons first files ih =>
      have hcons : totalSize (first :: files) = first.size + totalSize files := List.sum_cons
      rcases List.mem_cons.mp h with rfl | hmem
      · omega
      · have hle := ih hmem
        omega

/-- What the service asks for beyond what a scan has made sure of. -/
theorem validateManifest_ok_iff (h : ScanFacts tree task.artifactDir manifest)
    (hcount : manifest.files.length ≤ ArtifactsService.maxArtifactFiles) :
    (∃ files, ArtifactsService.validateManifest host
        (serverMessage (buildArtifactManifestPayload task manifest)) = .ok files) ↔
      (ofChars task.artifactDir).length ≤ 1024 ∧
        (∀ file ∈ manifest.files,
          ArtifactsService.validateRelativePath (ofChars file.relativePath) =
            .ok (ofChars file.relativePath)) ∧
        (manifest.files.map (fun file => host.identityPath (ofChars file.relativePath))).Nodup := by
  obtain ⟨hne, -, -, -, -, -, hcontrol, -⟩ := ensure_eq_ok.mp h.dir_valid
  have hunits := units_ge_of_no_control (Bool.eq_false_iff.mpr hcontrol)
  have hbytes := h.total_le
  have htotal := h.total_eq
  have hsize := entriesSize_eq manifest
  have hmax : maxArtifactBytes ≤ JsNumber.maxSafeInteger := by decide
  have hfile : ∀ file ∈ manifest.files,
      (ServiceFile (serverEntry ⟨file.relativePath, file.size, file.sha256⟩) ↔
        ArtifactsService.validateRelativePath (ofChars file.relativePath) =
          .ok (ofChars file.relativePath)) := by
    intro file hmem
    obtain ⟨entry, hentry⟩ := h.file_valid file hmem
    have hsmall := size_le_totalSize hmem
    exact ⟨fun hservice => hservice.path,
      fun hpath => ⟨hpath, show file.size ≤ _ by omega, hentry.sha256_matches⟩⟩
  have hpaths : (manifest.entries.map serverEntry).map (fun item => host.identityPath item.relativePath) =
      manifest.files.map (fun file => host.identityPath (ofChars file.relativePath)) := by
    rw [ArtifactManifest.entries, List.map_map, List.map_map]
    rfl
  have hitems : (∀ item ∈ manifest.entries.map serverEntry,
        ServiceFile item ∧ host.identityPath item.relativePath ∉ ([] : List JsString)) ↔
      ∀ file ∈ manifest.files, ArtifactsService.validateRelativePath (ofChars file.relativePath) =
        .ok (ofChars file.relativePath) := by
    rw [ArtifactManifest.entries, List.map_map, List.forall_mem_map]
    refine forall₂_congr fun file hmem => ?_
    exact (and_iff_left List.not_mem_nil).trans (hfile file hmem)
  have hloop := validateFiles_ok_iff host (manifest.entries.map serverEntry) []
    (Nat.zero_le ArtifactsService.maxArtifactBytes)
  rw [hpaths, hitems, hsize, Nat.zero_add] at hloop
  have hentries : manifest.entries.map serverEntry ≠ [] := by
    rw [ArtifactManifest.entries, List.map_map]
    exact mt List.map_eq_nil_iff.mp h.files_ne_nil
  have hlength : (manifest.entries.map serverEntry).length = manifest.files.length := by
    rw [ArtifactManifest.entries, List.length_map, List.length_map]
  constructor
  · rintro ⟨files, hvalidate⟩
    obtain ⟨_, hchecks, hvalidate⟩ := bind_eq_ok.mp hvalidate
    obtain ⟨sum, hsum, -⟩ := bind_eq_ok.mp hvalidate
    obtain ⟨hvalid, hnodup, -⟩ := (hloop sum).mp hsum
    exact ⟨(ensure_eq_ok.mp hchecks).2.1, hvalid, hnodup⟩
  · rintro ⟨hdir, hvalid, hnodup⟩
    refine ⟨_, bind_eq_ok.mpr ⟨(), ensure_eq_ok.mpr ?_, bind_eq_ok.mpr
      ⟨totalSize manifest.files, (hloop _).mpr ⟨hvalid, hnodup, htotal ▸ hbytes, rfl⟩,
        bind_eq_ok.mpr ⟨(), ensure_eq_ok.mpr htotal.symm, rfl⟩⟩⟩⟩
    exact ⟨mt ofChars_eq_nil.mp hne, hdir, hunits, hentries, hlength ▸ hcount, hbytes⟩

theorem protocolValid_iff (htask : validTask task.taskId task.leaseToken = .ok ())
    (h : ScanFacts tree task.artifactDir manifest) :
    ProtocolValid (buildArtifactManifestPayload task manifest) ↔
      (ofChars task.artifactDir ≠ [] ∧ isSafeRelativePath (ofChars task.artifactDir) = true) ∧
        ∀ file ∈ manifest.files, ofChars file.relativePath ≠ [] ∧
          isSafeRelativePath (ofChars file.relativePath) = true := by
  obtain ⟨_, hid, hlease⟩ := bind_eq_ok.mp htask
  have hmax : maxArtifactBytes ≤ JsNumber.maxSafeInteger := by decide
  have hbytes := h.total_le
  have htotal := h.total_eq
  constructor
  · intro hvalid
    refine ⟨hvalid.artifactDir, fun file hmem => ?_⟩
    exact (hvalid.files _ (List.mem_map_of_mem hmem)).1
  · rintro ⟨hdir, hfiles⟩
    constructor
    · exact matchesProtocolId_of_validId hid
    · exact matchesLeaseToken_of_validLease hlease
    · exact hdir
    · exact Nat.le_trans hbytes hmax
    · intro entry hmem
      obtain ⟨file, hfile, rfl⟩ := List.mem_map.mp hmem
      obtain ⟨source, hsource⟩ := h.file_valid file hfile
      have hsmall := size_le_totalSize hfile
      exact ⟨hfiles file hfile, show file.size ≤ _ by omega, hsource.sha256_matches⟩

/-- The artifact directory and the names in it that the server takes. -/
structure IsPortable (host : ArtifactHost) (tree : SourceTree) (artifactDir : List Char) : Prop where
  dir : isPortableDir artifactDir = true
  names : ∀ name ∈ zipNames tree artifactDir, isPortableName name = true
  distinct : ((zipNames tree artifactDir).map (fun name => host.identityPath (ofChars name))).Nodup

theorem manifest_accepted_iff (host : ArtifactHost) (agentHost : AgentHost) (sha256 : Sha256)
    (tree : SourceTree) (toText : Json → List UInt8) (now : Int) (agentId : List Char)
    (value : Value) (task : TaskAssignmentPayload) (manifest : ArtifactManifest) (stamp : Stamp)
    (message : Json) (haccepted : Accepts agentHost now agentId value task)
    (hscan : scanArtifacts sha256 tree task.artifactDir = .ok manifest)
    (hcount : manifest.files.length ≤ ArtifactsService.maxArtifactFiles)
    (hsent : sendArtifactManifest toText stamp task manifest = .sent message)
    (hid : matchesUuid (ofChars stamp.id) = true)
    (htime : isIso8601UtcString (ofChars stamp.timestamp) = true) :
    ServerAccepts host (JsValue.ofJson message) ↔ IsPortable host tree task.artifactDir := by
  have hfacts := scanArtifacts_spec hscan
  have hmessage : message =
      encodeArtifactManifestMessage stamp (buildArtifactManifestPayload task manifest) := by
    simp only [sendArtifactManifest] at hsent
    split at hsent
    · cases hsent
    · exact (ManifestOutcome.sent.inj hsent).symm
  have hdir := dirAccepted_iff hfacts.dir_valid
  have hnames := hfacts.names_perm
  have hname : ∀ file ∈ manifest.files, IsName file.relativePath := by
    intro file hmem
    obtain ⟨entry, hentry⟩ := hfacts.file_valid file hmem
    exact hentry.isName
  have hdistinct : (manifest.files.map (fun file =>
        host.identityPath (ofChars file.relativePath))).Nodup ↔
      ((zipNames tree task.artifactDir).map (fun name =>
        host.identityPath (ofChars name))).Nodup := by
    rw [← (hnames.map _).nodup_iff, List.map_map]
    rfl
  have hservice : (∃ read files, readManifest
        ((JsValue.ofJson message).property (ofString "payload")) = some read ∧
        ArtifactsService.validateManifest host read = .ok files) ↔
      ∃ files, ArtifactsService.validateManifest host
        (serverMessage (buildArtifactManifestPayload task manifest)) = .ok files := by
    have hread : readManifest ((JsValue.ofJson message).property (ofString "payload")) =
        some (serverMessage (buildArtifactManifestPayload task manifest)) := by
      rw [hmessage]
      exact readManifest_payload _
    rw [hread]
    constructor
    · rintro ⟨read, files, hsome, hvalidate⟩
      obtain rfl := Option.some.inj hsome
      exact ⟨files, hvalidate⟩
    · rintro ⟨files, hvalidate⟩
      exact ⟨_, files, rfl, hvalidate⟩
  rw [ServerAccepts, hservice, validateManifest_ok_iff hfacts hcount, hmessage,
    validateProtocolMessage_ok_iff (matchesProtocolId_of_uuid hid) htime,
    protocolValid_iff haccepted.checked.1 hfacts]
  constructor
  · rintro ⟨⟨hprotocol, hsafe⟩, hlength, hservice, hnodup⟩
    refine ⟨hdir.mp ⟨hprotocol, hlength⟩, fun name hmem => ?_, hdistinct.mp hnodup⟩
    obtain ⟨file, hfile, rfl⟩ := List.mem_map.mp (hnames.mem_iff.mpr hmem)
    exact (path_accepted_iff (hname file hfile)).mp ⟨hsafe file hfile, hservice file hfile⟩
  · intro h
    obtain ⟨hprotocol, hlength⟩ := hdir.mpr h.dir
    have hpaths : ∀ file ∈ manifest.files, _ := fun file hfile =>
      (path_accepted_iff (hname file hfile)).mpr
        (h.names _ (hnames.mem_iff.mp (List.mem_map_of_mem hfile)))
    exact ⟨⟨hprotocol, fun file hfile => (hpaths file hfile).1⟩, hlength,
      fun file hfile => (hpaths file hfile).2, hdistinct.mpr h.distinct⟩

/-! Two builds with one output each -/

mutual

/-- The text that `serde_json` writes for a document of texts and whole numbers. -/
def compact : Json → List Char
  | .null => "null".toList
  | .bool b => (if b then "true" else "false").toList
  | .number (.finite q) => Json.natText q.num.toNat
  | .number _ => "null".toList
  | .string s => Json.quote s
  | .array items => '[' :: compactItems items ++ [']']
  | .object members => '\x7b' :: compactMembers members ++ ['\x7d']

def compactItems : List Json → List Char
  | [] => []
  | [item] => compact item
  | item :: items => compact item ++ ',' :: compactItems items

def compactMembers : List (JsString × Json) → List Char
  | [] => []
  | [(name, value)] => Json.quote name ++ ':' :: compact value
  | (name, value) :: members =>
      Json.quote name ++ ':' :: compact value ++ ',' :: compactMembers members

end

def compactText (message : Json) : List UInt8 :=
  Utf8.encode (compact message)

/-- What the other crates say of the texts of `assigned`. -/
def crates : AgentHost where
  parsesUuid := fun _ => true
  parseRfc3339 := fun _ => some 1767225600000

/-- The digest of the empty file. -/
def sha256OfEmpty : Sha256 where
  digest := fun _ =>
    [0xe3, 0xb0, 0xc4, 0x42, 0x98, 0xfc, 0x1c, 0x14, 0x9a, 0xfb, 0xf4, 0xc8, 0x99, 0x6f, 0xb9, 0x24,
      0x27, 0xae, 0x41, 0xe4, 0x64, 0x9b, 0x93, 0x4c, 0xa4, 0x95, 0x99, 0x1b, 0x78, 0x52, 0xb8, 0x55]
  length_digest := fun _ => rfl

def assigned : TaskAssignmentPayload where
  taskId := "22222222-2222-4222-8222-222222222222".toList
  leaseToken := "lease-token-0001".toList
  leaseExpiresAt := "2026-01-01T00:00:00.000Z".toList
  agentId := "11111111-1111-4111-8111-111111111111".toList
  projectId := "33333333-3333-4333-8333-333333333333".toList
  buildTemplateId := "44444444-4444-4444-8444-444444444444".toList
  git := ⟨"https://host/app.git".toList, "main".toList⟩
  command := "make".toList
  artifactDir := "dist".toList
  timeoutSeconds := 60
  config := []
  inputFiles := []
  sensitiveConfigKeys := []
  interactiveInputEnabled := false

def textValue (s : String) : Value :=
  .string s.toList

def assignedPayload : Value :=
  .object
    [("taskId".toList, .string assigned.taskId),
      ("leaseToken".toList, .string assigned.leaseToken),
      ("leaseExpiresAt".toList, .string assigned.leaseExpiresAt),
      ("agentId".toList, .string assigned.agentId),
      ("projectId".toList, .string assigned.projectId),
      ("buildTemplateId".toList, .string assigned.buildTemplateId),
      ("git".toList,
        .object [("url".toList, .string assigned.git.url),
          ("branch".toList, .string assigned.git.branch)]),
      ("command".toList, .string assigned.command),
      ("artifactDir".toList, .string assigned.artifactDir),
      ("timeoutSeconds".toList, .number 60),
      ("config".toList, .object []),
      ("inputFiles".toList, .array []),
      ("sensitiveConfigKeys".toList, .array []),
      ("interactiveInputEnabled".toList, .bool false)]

def assignedMessage : Value :=
  .object
    [("id".toList, textValue "55555555-5555-4555-8555-555555555555"),
      ("type".toList, textValue "task.assignment"),
      ("timestamp".toList, textValue "2025-12-31T23:59:00.000Z"),
      ("protocolVersion".toList, .number 1),
      ("payload".toList, assignedPayload)]

theorem assigned_accepted :
    Accepts crates 1767225540000 assigned.agentId assignedMessage assigned :=
  ⟨⟨_, _, _, _, _⟩, rfl, rfl, rfl⟩

def emptyFile (name : FileName) : DirEntry :=
  ⟨name, some ⟨.file, 0⟩, some [], some 0⟩

/-- A tree with one empty file in its artifact directory. -/
def outputTree (name : FileName) : SourceTree where
  symlinkMetadata := fun _ => some ⟨.dir, 4096⟩
  readDir := fun _ => some ⟨[some (emptyFile name)],
    List.nodup_cons.mpr ⟨List.not_mem_nil, List.nodup_nil⟩⟩

def plainName : FileName :=
  ⟨Utf8.encode "app.zip".toList, by decide, by decide, by decide, by decide, by decide⟩

def colonName : FileName :=
  ⟨Utf8.encode "app:1.zip".toList, by decide, by decide, by decide, by decide, by decide⟩

def manifestOf (name : FileName) (path : String) : ArtifactManifest :=
  ⟨[⟨path.toList, name, 0, lowerHex (sha256OfEmpty.digest [])⟩], 0⟩

def stamp : Stamp :=
  ⟨"66666666-6666-4666-8666-666666666666".toList, "2025-12-31T23:59:30.000Z".toList⟩

/-- A server on Unix. -/
def unixHost : ArtifactHost where
  localeLe := fun left right => decide (left ≤ right)
  identityPath := fun path => path
  prepareTaskDirectory := fun _ _ => .ok ()

def sentFor (name : FileName) (path : String) : Json :=
  encodeArtifactManifestMessage stamp (buildArtifactManifestPayload assigned (manifestOf name path))

theorem send_of_fits {toText : Json → List UInt8} {stamp : Stamp} {task : TaskAssignmentPayload}
    {manifest : ArtifactManifest} {message : Json}
    (hmessage : message =
      encodeArtifactManifestMessage stamp (buildArtifactManifestPayload task manifest))
    (h : (toText message).length ≤ maxAgentWsMessageBytes) :
    sendArtifactManifest toText stamp task manifest = .sent message := by
  subst hmessage
  exact if_neg (Nat.not_lt.mpr h)

theorem plainName_accepted :
    ServerAccepts unixHost (JsValue.ofJson (sentFor plainName "app.zip")) := by
  refine (manifest_accepted_iff unixHost crates sha256OfEmpty (outputTree plainName) compactText
    1767225540000 assigned.agentId assignedMessage assigned (manifestOf plainName "app.zip") stamp
    (sentFor plainName "app.zip") assigned_accepted (by decide +kernel) (by decide)
    (send_of_fits rfl (by decide +kernel)) (by decide +kernel) (by decide +kernel)).mpr
    ⟨by decide +kernel, ?_, ?_⟩
  · decide +kernel
  · decide +kernel

/-- A name with a colon, which the agent takes and the protocol does not. -/
theorem colonName_not_accepted :
    Accepts crates 1767225540000 assigned.agentId assignedMessage assigned ∧
      scanArtifacts sha256OfEmpty (outputTree colonName) assigned.artifactDir =
        .ok (manifestOf colonName "app:1.zip") ∧
      sendArtifactManifest compactText stamp assigned (manifestOf colonName "app:1.zip") =
        .sent (sentFor colonName "app:1.zip") ∧
      ¬ ServerAccepts unixHost (JsValue.ofJson (sentFor colonName "app:1.zip")) := by
  refine ⟨assigned_accepted, by decide +kernel,
    send_of_fits rfl (by decide +kernel), fun haccepts => ?_⟩
  have hvalid := (validateProtocolMessage_ok_iff (by decide +kernel) (by decide +kernel) _).mp
    haccepts.1
  have hsafe := (hvalid.files _ List.mem_cons_self).1.2
  exact absurd hsafe (by decide +kernel)

end Service

end AnvilRun.ArtifactScan
