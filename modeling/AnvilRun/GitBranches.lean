import AnvilRun.AssignmentChecks
import AnvilRun.Fallible
import AnvilRun.JsValue
import AnvilRun.Preparation
import AnvilRun.TaskQueue

namespace AnvilRun.GitBranches

open AnvilRun.AgentRedactor (Text)
open AnvilRun.Fallible
open AnvilRun.Preparation
open AnvilRun.ValidationPrimitives
open AssignmentChecks (isControl)
open JsString
open LogBuffer (isWhitespace)

/-! The branch of a project -/

/-- `requiredText` of the requests for projects. -/
def requiredText (value : JsValue) (maximum : Nat) (field : String) : Except String JsString :=
  match value with
  | .string text =>
      if codePoints (TaskQueue.trim text) < 1 ||
          decide (maximum < codePoints (TaskQueue.trim text)) ||
          containsControlCharacters (TaskQueue.trim text) then
        .error (field ++ " is invalid")
      else .ok (TaskQueue.trim text)
  | _ => .error (field ++ " must be a string")

def branch (value : JsValue) : Except String JsString :=
  requiredText value 512 "branch"

/-! Git -/

def isHexDigit (c : Char) : Bool :=
  "0123456789abcdef".toList.contains c

structure Commit where
  digits : Text
  length_eq : digits.length = 40 ∨ digits.length = 64
  hex : digits.all isHexDigit = true

/-- The references of a repository, with the commits that they come to. -/
structure Remote where
  branches : Text → Option Commit
  tags : Text → Option Commit

/-- Git, and the repositories that it reaches. -/
structure Git where
  remotes : Text → Option Remote
  verifies : Checkout → Bool
  cloneStderr : Text → Text → List UInt8
  fetchStderr : Text → Text → List UInt8

/-- What `clone --branch` checks out: a branch, or else a tag of the name. -/
def Git.cloned (git : Git) (url branch : Text) : Option Commit :=
  (git.remotes url).bind fun remote => (remote.branches branch).or (remote.tags branch)

/-- What `fetch` of `+refs/heads/<branch>:refs/remotes/origin/<branch>` stores. -/
def Git.fetched (git : Git) (url branch : Text) : Option Commit :=
  (git.remotes url).bind fun remote => remote.branches branch

/-- What git writes when a repository lacks a branch. -/
def Git.Documented (git : Git) : Prop :=
  ∀ url remote branch, git.remotes url = some remote → remote.branches branch = none →
    Utf8.encode "fatal: couldn't find remote ref ".toList <+: git.fetchStderr url branch

/-! `GitClient` -/

def maxDiagnosticBytes : Nat := 512

def sanitizedDiagnostic (stderr : List UInt8) : Text :=
  ((Utf8.decodeLossy (stderr.take maxDiagnosticBytes)).filter fun c => !isControl c).take
    maxDiagnosticBytes

def toAsciiLowercase (s : Text) : Text :=
  s.map Char.toLower

def contains (s : Text) (pattern : String) : Bool :=
  decide (pattern.toList <:+: s)

def isBranchMissing (lower : Text) : Bool :=
  contains lower "remote branch" && contains lower "not found" ||
    contains lower "couldn't find remote ref"

def isAuthFailure (lower : Text) : Bool :=
  contains lower "authentication failed" || contains lower "could not read username" ||
    contains lower "permission denied" || contains lower "access denied" || contains lower "403"

def repositoryDiagnostic (lower : Text) : Bool :=
  contains lower "not a git repository" ||
    contains lower "does not appear to be a git repository" ||
    contains lower "no such remote" || contains lower "bad object" ||
    contains lower "invalid object" || contains lower "object file" && contains lower "empty"

/-- The error of `clone_repository`. -/
def classifyCloneFailure (stderr : List UInt8) : GitError :=
  let lower := toAsciiLowercase (sanitizedDiagnostic stderr)
  if isBranchMissing lower || contains lower "pathspec" && contains lower "did not match" then
    .branchNotFound
  else if isAuthFailure lower then .authFailed
  else .cloneFailed

def classifyFetchFailure (stderr : List UInt8) : GitError :=
  let lower := toAsciiLowercase (sanitizedDiagnostic stderr)
  if isBranchMissing lower || contains lower "could not find remote ref" then .branchNotFound
  else if isAuthFailure lower then .authFailed
  else if repositoryDiagnostic lower then .repositoryInvalid
  else .fetchFailed

def startsWith (s : Text) (pattern : String) : Bool :=
  pattern.toList.isPrefixOf s

def endsWith (s : Text) (pattern : String) : Bool :=
  pattern.toList.isSuffixOf s

def validBranchName (branch : Text) : Bool :=
  !branch.isEmpty && !branch.any (fun c => isControl c || isWhitespace c) &&
    !startsWith branch "-" && !startsWith branch "/" && !endsWith branch "/" &&
    !endsWith branch "." && !endsWith (toAsciiLowercase branch) ".lock" &&
    !contains branch ".." && !contains branch "@\x7b" &&
    !branch.any (fun c => "~^:?*[\\".toList.contains c)

/-- A clone that succeeds leaves a new checkout. -/
def cloneRepository (git : Git) (url branch : Text) : Except GitError Checkout :=
  match git.cloned url branch with
  | some commit => .ok ⟨true, some url, some commit.digits⟩
  | none => .error (classifyCloneFailure (git.cloneStderr url branch))

/-- The fetch goes to the origin of the checkout, and the reference that it stores is checked
out. -/
def fetchAndCheckout (git : Git) (checkout : Checkout) (branch : Text) :
    Except GitError Checkout := do
  ensure (validBranchName branch = true) .branchNotFound
  let origin ← require checkout.origin .fetchFailed
  match git.fetched origin branch with
  | some commit => .ok { checkout with head := some commit.digits }
  | none => .error (classifyFetchFailure (git.fetchStderr origin branch))

def isAsciiHexdigit (c : Char) : Bool :=
  "0123456789abcdefABCDEF".toList.contains c

def revParse (checkout : Checkout) : Except GitError Text := do
  let head ← require checkout.head .commitInvalid
  let value := toAsciiLowercase (trim head)
  ensure (((Utf8.encode value).length = 40 ∨ (Utf8.encode value).length = 64) ∧
    value.all isAsciiHexdigit = true) .commitInvalid
  return value

/-! `prepare_task_inner`, when nothing else fails -/

/-- The source that a task finds, if it can be used again. -/
def reusable (env : Environment) (git : Git) (disk : Disk) (url : Text) : Option Checkout :=
  disk.source.filter fun checkout => cacheMatches env disk url && git.verifies checkout

/-- The part under `result`. -/
def checkoutSource (git : Git) (url branch : Text) (source : Option Checkout) :
    Except GitError (Text × Checkout) := do
  let checkout ← match source with
    | none => cloneRepository git url branch
    | some checkout => fetchAndCheckout git checkout branch
  let commit ← revParse checkout
  return (commit, checkout)

/-- The cache that a preparation leaves. -/
def recorded (env : Environment) (url : Text) (checkout : Checkout) : Disk :=
  ⟨some checkout, some (env.urlFingerprint url ++ ['\n'])⟩

/-- The source commit, and the cache for the next task. -/
def prepareTaskInner (env : Environment) (git : Git) (disk : Disk) (url branch : Text) :
    Except PreparationFailure (Text × Disk) :=
  match checkoutSource git url branch (reusable env git disk url) with
  | .ok (commit, checkout) =>
      .ok (commit, if (reusable env git disk url).isSome then { disk with source := some checkout }
        else recorded env url checkout)
  | .error error =>
      if isRepositoryInvalid error then
        match checkoutSource git url branch none with
        | .ok (commit, checkout) => .ok (commit, recorded env url checkout)
        | .error error => .error (.git error)
      else .error (.git error)

/-! What the commands answer -/

variable {env : Environment} {git : Git} {url branch : Text} {disk : Disk} {checkout : Checkout}

theorem hexDigit_char {c : Char} (h : isHexDigit c = true) :
    isWhitespace c = false ∧ c.toLower = c ∧ isAsciiHexdigit c = true ∧ c.utf8Size = 1 := by
  have hall : "0123456789abcdef".toList.all (fun c => decide (isWhitespace c = false ∧
      c.toLower = c ∧ isAsciiHexdigit c = true ∧ c.utf8Size = 1)) = true := rfl
  exact of_decide_eq_true (List.all_eq_true.mp hall c (List.contains_iff_mem.mp h))

theorem trim_of_no_whitespace {s : Text} (h : ∀ c ∈ s, isWhitespace c = false) : trim s = s := by
  have hkeeps : ∀ {s : Text}, (∀ c ∈ s, isWhitespace c = false) → s.dropWhile isWhitespace = s := by
    intro s hs
    cases s with
    | nil => rfl
    | cons c s => exact List.dropWhile_cons_of_neg (by simp [hs c List.mem_cons_self])
  rw [trim, hkeeps h, LogBuffer.trimEnd, hkeeps fun c hc => h c (List.mem_reverse.mp hc),
    List.reverse_reverse]

theorem length_encode_hex {s : Text} (h : ∀ c ∈ s, isHexDigit c = true) :
    (Utf8.encode s).length = s.length := by
  induction s with
  | nil => rfl
  | cons c s ih =>
      rw [List.forall_mem_cons] at h
      rw [Utf8.encode, List.flatMap_cons, List.length_append, String.length_utf8EncodeChar,
        (hexDigit_char h.1).2.2.2, ← Utf8.encode, ih h.2, List.length_cons, Nat.add_comm]

theorem revParse_commit {commit : Commit} (hhead : checkout.head = some commit.digits) :
    revParse checkout = .ok commit.digits := by
  have hdigits : ∀ c ∈ commit.digits, isHexDigit c = true := List.all_eq_true.mp commit.hex
  have hlower : toAsciiLowercase (trim commit.digits) = commit.digits := by
    rw [trim_of_no_whitespace fun c hc => (hexDigit_char (hdigits c hc)).1, toAsciiLowercase]
    exact (List.map_congr_left fun c hc => (hexDigit_char (hdigits c hc)).2.1).trans
      (List.map_id' _)
  have hall : commit.digits.all isAsciiHexdigit = true :=
    List.all_eq_true.mpr fun c hc => (hexDigit_char (hdigits c hc)).2.2.1
  simp only [revParse, bind_eq_ok, require_eq_ok, ensure_eq_ok, pure_eq_ok]
  refine ⟨_, hhead, (), ?_, hlower⟩
  rw [hlower, length_encode_hex hdigits]
  exact ⟨commit.length_eq, hall⟩

theorem decodeLossy_encode_append (s : Text) (bytes : List UInt8) :
    Utf8.decodeLossy (Utf8.encode s ++ bytes) = s ++ Utf8.decodeLossy bytes := by
  induction s with
  | nil => rfl
  | cons c s ih =>
      rw [Utf8.encode, List.flatMap_cons, List.append_assoc, Utf8.decodeLossy_encodeChar]
      exact congrArg _ ih

/-- A branch that is missing is told from a repository that is broken. -/
theorem classifyFetchFailure_missing {stderr : List UInt8}
    (h : Utf8.encode "fatal: couldn't find remote ref ".toList <+: stderr) :
    classifyFetchFailure stderr = .branchNotFound := by
  obtain ⟨rest, rfl⟩ := h
  have hcap : (Utf8.encode "fatal: couldn't find remote ref ".toList ++ rest).take
      maxDiagnosticBytes = Utf8.encode "fatal: couldn't find remote ref ".toList ++
        rest.take (maxDiagnosticBytes - 32) := List.take_append
  have hplain : "fatal: couldn't find remote ref ".toList.filter (fun c => !isControl c) =
      "fatal: couldn't find remote ref ".toList := rfl
  have htext : ∃ text, toAsciiLowercase (sanitizedDiagnostic
      (Utf8.encode "fatal: couldn't find remote ref ".toList ++ rest)) =
        "fatal: couldn't find remote ref ".toList ++ text := by
    rw [sanitizedDiagnostic, hcap, decodeLossy_encode_append, List.filter_append, hplain,
      toAsciiLowercase, List.take_append, List.map_append]
    exact ⟨_, rfl⟩
  obtain ⟨text, htext⟩ := htext
  have hmissing : contains ("fatal: couldn't find remote ref ".toList ++ text)
      "couldn't find remote ref" = true :=
    decide_eq_true ⟨"fatal: ".toList, ' ' :: text, rfl⟩
  rw [classifyFetchFailure, htext, isBranchMissing, hmissing, Bool.or_true, Bool.true_or]
  rfl

/-! The two ways to a source -/

/-- The source commit of a preparation that succeeds. -/
def sourceCommit (result : Except PreparationFailure (Text × Disk)) : Option Text :=
  (result.map Prod.fst).toOption

/-- A cache of a URL with nothing lost. -/
def Intact (env : Environment) (git : Git) (disk : Disk) (url : Text) : Prop :=
  cacheMatches env disk url = true ∧ ∃ checkout, disk.source = some checkout ∧
    checkout.origin = some url ∧ git.verifies checkout = true

theorem checkoutSource_cloned {commit : Commit} (h : git.cloned url branch = some commit) :
    checkoutSource git url branch none =
      .ok (commit.digits, ⟨true, some url, some commit.digits⟩) := by
  simp only [checkoutSource, cloneRepository, h, bind_eq_ok, pure_eq_ok]
  exact ⟨_, rfl, _, revParse_commit rfl, rfl⟩

theorem checkoutSource_not_cloned (h : git.cloned url branch = none) :
    ∃ error, checkoutSource git url branch none = .error error := by
  rw [checkoutSource, cloneRepository, h]
  exact ⟨_, rfl⟩

theorem checkoutSource_fetched {commit : Commit} (horigin : checkout.origin = some url)
    (hvalid : validBranchName branch = true) (h : git.fetched url branch = some commit) :
    checkoutSource git url branch (some checkout) =
      .ok (commit.digits, { checkout with head := some commit.digits }) := by
  simp only [checkoutSource, fetchAndCheckout, bind_eq_ok, ensure_eq_ok, require_eq_ok, pure_eq_ok]
  refine ⟨_, ⟨(), hvalid, url, horigin, ?_⟩, _, revParse_commit rfl, rfl⟩
  rw [h]

/-- A fetch that fails gives up, or its repository cannot be reached. -/
theorem checkoutSource_not_fetched (hgit : git.Documented) (horigin : checkout.origin = some url)
    (h : validBranchName branch = false ∨ git.fetched url branch = none) :
    ∃ error, checkoutSource git url branch (some checkout) = .error error ∧
      (isRepositoryInvalid error = true → git.cloned url branch = none) := by
  cases hvalid : validBranchName branch with
  | false =>
      refine ⟨.branchNotFound, ?_, fun herror => by cases herror⟩
      rw [checkoutSource, fetchAndCheckout, ensure, if_neg (by simp [hvalid])]
      rfl
  | true =>
      have hfetched : git.fetched url branch = none := h.resolve_left (by simp [hvalid])
      refine ⟨classifyFetchFailure (git.fetchStderr url branch), ?_, fun herror => ?_⟩
      · rw [checkoutSource, fetchAndCheckout, ensure, if_pos hvalid, horigin, require]
        simp only [bind, Except.bind, hfetched]
      · cases hremote : git.remotes url with
        | none => rw [Git.cloned, hremote, Option.bind_none]
        | some remote =>
            rw [Git.fetched, hremote, Option.bind_some] at hfetched
            rw [classifyFetchFailure_missing (hgit url remote branch hremote hfetched)] at herror
            cases herror

/-- On an empty cache the branch or the tag is cloned. -/
theorem sourceCommit_empty :
    sourceCommit (prepareTaskInner env git ⟨none, none⟩ url branch) =
      (git.cloned url branch).map Commit.digits := by
  have hempty : reusable env git ⟨none, none⟩ url = none := rfl
  rw [prepareTaskInner, hempty]
  cases hcloned : git.cloned url branch with
  | some commit =>
      rw [checkoutSource_cloned hcloned]
      rfl
  | none =>
      obtain ⟨error, herror⟩ := checkoutSource_not_cloned hcloned
      simp only [herror]
      split <;> rfl

/-- On an intact cache the branch is fetched, if its name passes. -/
theorem sourceCommit_intact (hgit : git.Documented) (hcache : Intact env git disk url) :
    sourceCommit (prepareTaskInner env git disk url branch) =
      if validBranchName branch then (git.fetched url branch).map Commit.digits else none := by
  obtain ⟨hmatches, checkout, hsource, horigin, hverifies⟩ := hcache
  have hreusable : reusable env git disk url = some checkout := by
    rw [reusable, hsource, Option.filter_some, hmatches, hverifies]
    rfl
  have hfails : validBranchName branch = false ∨ git.fetched url branch = none →
      sourceCommit (prepareTaskInner env git disk url branch) = none := by
    intro h
    obtain ⟨error, herror, hclone⟩ := checkoutSource_not_fetched hgit horigin h
    rw [prepareTaskInner, hreusable]
    simp only [herror]
    split
    · rename_i hinvalid
      obtain ⟨error', herror'⟩ := checkoutSource_not_cloned (hclone hinvalid)
      simp only [herror']
      rfl
    · rfl
  cases hvalid : validBranchName branch with
  | false =>
      rw [hfails (.inl hvalid)]
      rfl
  | true =>
      cases hfetched : git.fetched url branch with
      | none =>
          rw [hfails (.inr hfetched)]
          rfl
      | some commit =>
          rw [prepareTaskInner, hreusable, checkoutSource_fetched horigin hvalid hfetched]
          rfl

theorem rebuildSource_run (disk : Disk) : rebuildSource env disk (.ok ()) ⟨none, none⟩ := by
  have hremove : removeSource env disk (.ok ()) { disk with source := none } := rfl
  have hremoveFingerprint :
      removeFingerprint { disk with source := none } (.ok ()) ⟨none, none⟩ := rfl
  exact Program.bind_ok (Program.read_ok (a := ()) trivial)
    (Program.bind_ok hremove hremoveFingerprint)

theorem recordUrl_run (url : Text) (checkout : Checkout) :
    recordUrl env url ⟨some checkout, none⟩ (.ok ()) (recorded env url checkout) :=
  Program.bind_ok (Program.read_ok (a := ()) trivial) rfl

theorem checkoutSource_run {cloneRequired : Bool} {before after : Disk} {commit : Text}
    (hupdate : (if cloneRequired then Preparation.cloneRepository url
      else Preparation.fetchAndCheckout) before (.ok ()) after)
    (hhead : ∃ checkout, after.source = some checkout ∧ checkout.head = some commit) :
    Preparation.checkoutSource url cloneRequired before (.ok commit) after :=
  Program.bind_ok hupdate (Program.read_ok hhead)

/-- What comes before the checkout succeeds. -/
theorem prepareTaskInner_start (cloneRequired : Bool) {ready after : Disk} {commit : Text}
    (hneeds : needsClone env url disk (.ok cloneRequired) disk)
    (hrebuild : rebuildIfRequired env cloneRequired disk (.ok ()) ready)
    (hcheckout : Preparation.checkoutSource url cloneRequired ready (.ok commit) after)
    {final : Disk} (hrecord : recordIfRequired env url cloneRequired after (.ok ()) final) :
    Preparation.prepareTaskInner env url disk (.ok commit) final :=
  Program.bind_ok (Program.mapError_ok (Program.read_ok (a := ()) trivial)) <|
    Program.bind_ok (Program.mapError_ok (Program.read_ok (a := ()) trivial)) <|
      Program.bind_ok (Program.mapError_ok (Program.read_ok (a := ()) trivial)) <|
        Program.bind_ok hneeds <| Program.bind_ok (Program.mapError_ok hrebuild) <|
          Program.bind_ok (Program.attempt_ok hcheckout) <|
            Program.bind_ok (Program.mapError_ok hrecord) Program.pure_ok

theorem rebuildOnce_run (url : Text) (commit : Text) (disk : Disk) :
    rebuildOnce env url disk (.ok commit) (recorded env url ⟨true, some url, some commit⟩) :=
  Program.bind_ok (Program.mapError_ok (rebuildSource_run disk)) <|
    Program.bind_ok (a := ()) (Program.mapError_ok ⟨commit, rfl⟩) <|
      Program.bind_ok (Program.mapError_ok (Program.read_ok ⟨_, rfl, rfl⟩)) <|
        Program.bind_ok (Program.mapError_ok (recordUrl_run url _)) Program.pure_ok

theorem checkoutSource_clone_ok {result : Text × Checkout}
    (h : checkoutSource git url branch none = .ok result) :
    result.2 = ⟨true, some url, some result.1⟩ := by
  cases hcloned : git.cloned url branch with
  | some commit =>
      rw [checkoutSource_cloned hcloned] at h
      obtain rfl := Except.ok.inj h
      rfl
  | none =>
      obtain ⟨error, herror⟩ := checkoutSource_not_cloned hcloned
      rw [herror] at h
      cases h

theorem checkoutSource_fetch_ok {result : Text × Checkout}
    (h : checkoutSource git url branch (some checkout) = .ok result) :
    result.2 = { checkout with head := some result.1 } := by
  simp only [checkoutSource, fetchAndCheckout, bind_eq_ok, require_eq_ok, pure_eq_ok] at h
  obtain ⟨fetched, ⟨-, -, origin, -, hfetched⟩, commit, hcommit, rfl⟩ := h
  split at hfetched
  · obtain rfl := Except.ok.inj hfetched
    rw [revParse_commit rfl] at hcommit
    rw [Except.ok.inj hcommit]
  · cases hfetched

/-- A cache that matches may be verified. -/
theorem needsClone_run (hmatches : cacheMatches env disk url = true) :
    needsClone env url disk (.ok false) disk := by
  refine Program.bind_ok (a := true) (Program.mapError_ok (Program.read_ok fun _ => hmatches)) ?_
  exact Program.bind_ok (Program.attempt_ok (Program.read_ok (a := ()) trivial)) Program.pure_ok

/-- The repository becomes corrupt behind the first check. -/
theorem prepareTaskInner_rebuild (hneeds : needsClone env url disk (.ok false) disk)
    {commit : Text} {final : Disk} (hrebuild : rebuildOnce env url disk (.ok commit) final) :
    Preparation.prepareTaskInner env url disk (.ok commit) final := by
  have hcheckout : Preparation.checkoutSource url false disk (.error .repositoryInvalid) disk :=
    .inr (.inl ⟨.repositoryInvalid, .inl rfl, rfl⟩)
  refine Program.bind_ok (Program.mapError_ok (Program.read_ok (a := ()) trivial)) ?_
  refine Program.bind_ok (Program.mapError_ok (Program.read_ok (a := ()) trivial)) ?_
  refine Program.bind_ok (Program.mapError_ok (Program.read_ok (a := ()) trivial)) ?_
  refine Program.bind_ok hneeds ?_
  refine Program.bind_ok (Program.mapError_ok Program.pure_ok) ?_
  refine Program.bind_ok (.inr (.inl ⟨_, hcheckout, rfl⟩)) ?_
  exact hrebuild

/-- A preparation that succeeds is one that the programs of `Preparation` allow. -/
theorem prepareTaskInner_run {commit : Text} {after : Disk}
    (h : prepareTaskInner env git disk url branch = .ok (commit, after)) :
    Preparation.prepareTaskInner env url disk (.ok commit) after := by
  rw [prepareTaskInner] at h
  cases hreusable : reusable env git disk url with
  | none =>
      rw [hreusable] at h
      cases hcheckout : checkoutSource git url branch none with
      | ok result =>
          have hsource := checkoutSource_clone_ok hcheckout
          simp only [hcheckout] at h
          obtain ⟨rfl, rfl⟩ := Prod.mk.inj (Except.ok.inj h)
          rw [hsource]
          exact prepareTaskInner_start true (needsClone_ok_true disk)
            (rebuildSource_run disk) (checkoutSource_run ⟨result.1, rfl⟩ ⟨_, rfl, rfl⟩)
            (recordUrl_run url _)
      | error error =>
          simp only [hcheckout] at h
          split at h <;> cases h
  | some checkout =>
      rw [hreusable] at h
      obtain ⟨hsource, hfound⟩ := Option.filter_eq_some_iff.mp hreusable
      rw [Bool.and_eq_true] at hfound
      have hneeds := needsClone_run hfound.1
      cases hcheckout : checkoutSource git url branch (some checkout) with
      | ok result =>
          have hsame := checkoutSource_fetch_ok hcheckout
          simp only [hcheckout] at h
          obtain ⟨rfl, rfl⟩ := Prod.mk.inj (Except.ok.inj h)
          rw [hsame]
          exact prepareTaskInner_start false hneeds Program.pure_ok
            (checkoutSource_run ⟨checkout, some result.1, hsource, rfl⟩ ⟨_, rfl, rfl⟩)
            Program.pure_ok
      | error error =>
          simp only [hcheckout] at h
          split at h
          · cases hclone : checkoutSource git url branch none with
            | ok result =>
                have hcloned := checkoutSource_clone_ok hclone
                simp only [hclone] at h
                obtain ⟨rfl, rfl⟩ := Prod.mk.inj (Except.ok.inj h)
                rw [hcloned]
                exact prepareTaskInner_rebuild hneeds (rebuildOnce_run url result.1 disk)
            | error error =>
                simp only [hclone] at h
                cases h
          · cases h

/-- Preparations keep what fingerprints promise, so a cache that matches has its URL. -/
theorem intact_of_reachable {urls : Set Text} (henv : env.Regular urls) (hurl : url ∈ urls)
    (hdisk : (runs env urls).Reachable disk) (hmatches : cacheMatches env disk url = true)
    (hverifies : ∀ checkout, disk.source = some checkout → git.verifies checkout = true) :
    Intact env git disk url := by
  obtain ⟨checkout, hsource, horigin⟩ :=
    (recorded_of_reachable henv hdisk).originIs henv hurl hmatches
  exact ⟨hmatches, checkout, hsource, horigin, hverifies checkout hsource⟩

/-! A repository with a branch and a tag -/

def sampleCommit : Commit where
  digits := List.replicate 40 'a'
  length_eq := .inl (List.length_replicate ..)
  hex := by decide

def sampleRemote : Remote where
  branches := fun name => if name = "main".toList then some sampleCommit else none
  tags := fun name => if name = "v1.0".toList then some sampleCommit else none

def sampleGit : Git where
  remotes := fun url => if url = oldUrl then some sampleRemote else none
  verifies := fun checkout => checkout.gitDir
  cloneStderr := fun _ branch =>
    Utf8.encode ("fatal: Remote branch ".toList ++ branch ++
      " not found in upstream origin\n".toList)
  fetchStderr := fun _ branch =>
    Utf8.encode ("fatal: couldn't find remote ref ".toList ++
      ("refs/heads/".toList ++ branch ++ ['\n']))

theorem sampleGit_documented : sampleGit.Documented := by
  intro url remote branch _ _
  show _ <+: Utf8.encode (_ ++ _)
  rw [Utf8.encode_append]
  exact List.prefix_append _ _

def sampleCache : Disk :=
  cloned (keepingRemovals sampleFingerprint) oldUrl sampleCommit.digits

theorem sampleCache_intact :
    Intact (keepingRemovals sampleFingerprint) sampleGit sampleCache oldUrl :=
  ⟨by decide, _, rfl, rfl, rfl⟩

end AnvilRun.GitBranches
