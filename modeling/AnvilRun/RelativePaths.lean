import AnvilRun.ArtifactScan
import AnvilRun.UnixPath.Join
import AnvilRun.Websocket.Passes

namespace AnvilRun.RelativePaths

open AnvilRun.ArtifactScan (validateRelativePath)
open AnvilRun.AssignmentChecks (safeRelativePath)
open AnvilRun.Fallible
open AnvilRun.UnixPath
open AnvilRun.Websocket
open JsString

/-- `GitError::CleanFailed`. -/
structure CleanFailed where
  diagnostic : String
  deriving DecidableEq

/-- `clean_args`. -/
def cleanArgs (sourcePath : List UInt8) (artifactDir : List Char) :
    Except CleanFailed (List (List UInt8)) := do
  let path := Utf8.encode artifactDir
  ensure (artifactDir ≠ [] ∧ '\\' ∉ artifactDir ∧ isAbsolute path = false ∧
    (components path).all Component.isNormal) ⟨"artifact directory path is invalid"⟩
  return [Utf8.encode "-C".toList, sourcePath, Utf8.encode "clean".toList,
    Utf8.encode "-fdx".toList, Utf8.encode "--".toList, path]

/-- The path starts at the root, leads to a parent directory, or has a backslash. -/
def Escapes (path : List Char) : Prop :=
  path.head? = some '/' ∨ ['.', '.'] ∈ path.splitOn '/' ∨ '\\' ∈ path

/-- The same for any string of JavaScript. -/
def EscapesUnits (path : JsString) : Prop :=
  path.head? = some 47 ∨ [46, 46] ∈ path.splitOn 47 ∨ 92 ∈ path

/-- One of the checks of the agent passes. -/
def AgentAccepts (path : List Char) : Prop :=
  safeRelativePath path = true ∨ (∃ sourcePath args, cleanArgs sourcePath path = .ok args) ∨
    validateRelativePath path = .ok ()

variable {path : List Char}

/-! The bytes of a path -/

theorem encode_inj {s t : List Char} (h : Utf8.encode s = Utf8.encode t) : s = t := by
  rw [← Utf8.decodeLossy_encode s, h, Utf8.decodeLossy_encode]

theorem segments_encode (path : List Char) :
    segments (Utf8.encode path) = (path.splitOn '/').map Utf8.encode :=
  splitOn_encode (a := '/') (by decide)

theorem mem_segments_encode {part : List Char} :
    Utf8.encode part ∈ segments (Utf8.encode path) ↔ part ∈ path.splitOn '/' := by
  rw [segments_encode, List.mem_map]
  constructor
  · rintro ⟨other, hother, heq⟩
    rwa [← encode_inj heq]
  · exact fun hmem => ⟨part, hmem, rfl⟩

/-- An absolute path starts with an empty segment. -/
theorem nil_mem_of_isAbsolute (h : isAbsolute (Utf8.encode path) = true) :
    [] ∈ path.splitOn '/' := by
  have hnil : Utf8.encode [] ∈ segments (Utf8.encode path) :=
    nil_mem_splitOn_of_head? (beq_iff_eq.mp h)
  exact mem_segments_encode.mp hnil

theorem isAbsolute_of_head? (h : path.head? = some '/') :
    isAbsolute (Utf8.encode path) = true := by
  obtain ⟨rest, rfl⟩ := List.head?_eq_some_iff.mp h
  rfl

/-! What passes the checks -/

theorem cleanArgs_eq_ok {sourcePath : List UInt8} {args : List (List UInt8)} :
    cleanArgs sourcePath path = .ok args ↔
      (path ≠ [] ∧ '\\' ∉ path ∧ isAbsolute (Utf8.encode path) = false ∧
        (components (Utf8.encode path)).all Component.isNormal = true) ∧
      args = [Utf8.encode "-C".toList, sourcePath, Utf8.encode "clean".toList,
        Utf8.encode "-fdx".toList, Utf8.encode "--".toList, Utf8.encode path] := by
  rw [cleanArgs, bind_eq_ok]
  constructor
  · rintro ⟨_, hchecks, hargs⟩
    exact ⟨ensure_eq_ok.mp hchecks, (Except.ok.inj hargs).symm⟩
  · rintro ⟨hchecks, rfl⟩
    exact ⟨(), ensure_eq_ok.mpr hchecks, rfl⟩

/-- Each check of the agent asks for components that are names. -/
theorem AgentAccepts.checked (h : AgentAccepts path) :
    '\\' ∉ path ∧ (components (Utf8.encode path)).all Component.isNormal = true := by
  rcases h with h | ⟨sourcePath, args, h⟩ | h
  · simp only [safeRelativePath, Bool.and_eq_true, Bool.not_eq_true', List.contains_eq_mem,
      decide_eq_false_iff_not] at h
    exact ⟨h.1.2, h.2⟩
  · obtain ⟨⟨-, hbackslash, -, hnormal⟩, -⟩ := cleanArgs_eq_ok.mp h
    exact ⟨hbackslash, hnormal⟩
  · obtain ⟨-, hbackslash, -, -, -, -, -, hnormal⟩ := ensure_eq_ok.mp h
    exact ⟨hbackslash, hnormal⟩

theorem AgentAccepts.not_escapes (h : AgentAccepts path) : ¬ Escapes path := by
  obtain ⟨hbackslash, hnormal⟩ := h.checked
  obtain ⟨hrelative, -, hdots⟩ := all_isNormal_iff.mp hnormal
  rintro (hslash | hparent | hmem)
  · exact Bool.false_ne_true (hrelative.symm.trans (isAbsolute_of_head? hslash))
  · exact hdots _ (mem_segments_encode.mpr hparent) rfl
  · exact hbackslash hmem

theorem not_escapesUnits {path : JsString} (h : isSafeRelativePath path = true) :
    ¬ EscapesUnits path := by
  simp only [isSafeRelativePath, Bool.and_eq_true, Bool.not_eq_true', ← Bool.not_eq_true,
    beq_iff_eq, List.contains_iff_mem] at h
  obtain ⟨⟨⟨⟨⟨-, hslash⟩, -⟩, hbackslash⟩, -⟩, hparts⟩ := h
  rintro (hhead | hparent | hmem)
  · exact hslash hhead
  · exact absurd (List.all_eq_true.mp hparts _ hparent) (by decide)
  · exact hbackslash hmem

/-- The parts of a path that the protocol takes are names, as bytes as well. -/
theorem all_isNormal_of_isSafeRelativePath (h : isSafeRelativePath (ofChars path) = true) :
    (components (Utf8.encode path)).all Component.isNormal = true := by
  obtain ⟨-, -, -, hparts⟩ := isSafeRelativePath_ofChars.mp h
  have hnamed : ∀ part ∈ path.splitOn '/', part ≠ [] ∧ part ≠ ['.'] ∧ part ≠ ['.', '.'] := by
    intro part hpart
    have hpart := List.all_eq_true.mp hparts part hpart
    simpa only [isNamedPart, Bool.and_eq_true, Bool.not_eq_true', List.isEmpty_eq_false_iff,
      bne_iff_ne, and_assoc] using hpart
  refine all_isNormal_iff.mpr ⟨?_, fun hhead => ?_, fun segment hmem hdots => ?_⟩
  · by_contra habsolute
    exact (hnamed [] (nil_mem_of_isAbsolute (Bool.eq_true_of_not_eq_false habsolute))).1 rfl
  · have hdot : Utf8.encode ['.'] ∈ segments (Utf8.encode path) := List.mem_of_mem_head? hhead
    exact (hnamed ['.'] (mem_segments_encode.mp hdot)).2.1 rfl
  · subst hdots
    have hparent : Utf8.encode ['.', '.'] ∈ segments (Utf8.encode path) := hmem
    exact (hnamed ['.', '.'] (mem_segments_encode.mp hparent)).2.2 rfl

theorem ne_nil_of_isSafeRelativePath (h : isSafeRelativePath (ofChars path) = true) :
    path ≠ [] := by
  rintro rfl
  exact absurd h (by decide)

/-- What the protocol takes the agent takes. -/
theorem accepted_of_isSafeRelativePath (h : isSafeRelativePath (ofChars path) = true) :
    safeRelativePath path = true ∧ ∀ sourcePath, ∃ args, cleanArgs sourcePath path = .ok args := by
  have hnormal := all_isNormal_of_isSafeRelativePath h
  have hrelative := (all_isNormal_iff.mp hnormal).1
  obtain ⟨-, hbackslash, -, -⟩ := isSafeRelativePath_ofChars.mp h
  constructor
  · rw [safeRelativePath, hrelative, hnormal, List.contains_eq_mem, decide_eq_false hbackslash]
    rfl
  · intro sourcePath
    have hne := ne_nil_of_isSafeRelativePath h
    exact ⟨_, cleanArgs_eq_ok.mpr ⟨⟨hne, hbackslash, hrelative, hnormal⟩, rfl⟩⟩

theorem AgentAccepts.liesUnder (h : AgentAccepts path) (root : List UInt8) :
    LiesUnder root (join root (Utf8.encode path)) :=
  liesUnder_join h.checked.2

/-- The paths that the protocol takes the agent takes, what the agent takes stays below every root,
and no check takes a path that leads out. -/
theorem relativePaths_contained (path : List Char) (units : JsString) (root : List UInt8) :
    (isSafeRelativePath (ofChars path) = true → safeRelativePath path = true ∧
      ∀ sourcePath, ∃ args, cleanArgs sourcePath path = .ok args) ∧
    (AgentAccepts path →
      LiesUnder root (join root (Utf8.encode path)) ∧ ¬ Escapes path) ∧
    (isSafeRelativePath units = true → ¬ EscapesUnits units) :=
  ⟨accepted_of_isSafeRelativePath, fun h => ⟨h.liesUnder root, h.not_escapes⟩, not_escapesUnits⟩

end AnvilRun.RelativePaths
