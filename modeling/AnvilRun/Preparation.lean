import AnvilRun.CrashPrograms
import AnvilRun.LogBuffer
import AnvilRun.TransitionSystem

namespace AnvilRun.Preparation

open AnvilRun.AgentRedactor (Text)
open LogBuffer (isWhitespace trimEnd)
open Program

/-! The directory of a project -/

/-- What `source` holds of a repository. `origin` is the URL in the configuration in `.git`, and
`head` the commit that `HEAD` names. -/
structure Checkout where
  /-- `.git` is a directory. -/
  gitDir : Bool
  origin : Option Text
  head : Option Text

/-- `source` is none when it is no directory, and `fingerprint` is the text of
`.build-agent-url.sha256` when that is a file. -/
structure Disk where
  source : Option Checkout
  fingerprint : Option Text

inductive WorkspaceError where
  | invalid | notWritable | pathEscape | alreadyExists | cleanupRefused | projectBusy
  | insufficientDiskSpace

inductive GitError where
  | unavailable | repositoryInvalid | cloneFailed | fetchFailed | checkoutFailed | cleanFailed
  | branchNotFound | authFailed | timeout | canceled | commitInvalid

inductive PreparationFailure where
  | workspace (error : WorkspaceError)
  | git (error : GitError)

/-- What stands outside of the program: the digest of a URL in hexadecimal digits, and what a
removal of `source` that stops on the way may leave in its place. -/
structure Environment where
  urlFingerprint : Text → Text
  interrupted : Disk → Option Checkout → Prop

/-- A removal deletes files and directories, in any order. -/
structure Remains (before after : Checkout) : Prop where
  gitDir : after.gitDir = true → before.gitDir = true
  origin : after.origin = none ∨ after.gitDir = true ∧ after.origin = before.origin
  head : after.head = none ∨ after.head = before.head

/-- A removal that stops leaves what it has not deleted yet. -/
def removalLeaves (disk : Disk) (left : Option Checkout) : Prop :=
  ∀ after, left = some after → ∃ before, disk.source = some before ∧ Remains before after

/-- With a fingerprint in place, a removal leaves no `.git` that has lost its origin. -/
def KeepsOrigin (disk : Disk) (left : Option Checkout) : Prop :=
  ∀ before after, disk.fingerprint ≠ none → disk.source = some before → left = some after →
    after.gitDir = true → after.origin = before.origin

/-! The workspace -/

/-- `str::trim`. -/
def trim (s : Text) : Text :=
  trimEnd (s.dropWhile isWhitespace)

variable (env : Environment)

/-- Whether `cache_matches_url` finds everything that it looks for. -/
def cacheMatches (disk : Disk) (url : Text) : Bool :=
  match disk.source, disk.fingerprint with
  | some checkout, some actual => checkout.gitDir && trim actual == env.urlFingerprint url
  | _, _ => false

/-- A file that cannot be read counts as a cache that does not match. -/
def cacheMatchesUrl (url : Text) : Program Disk WorkspaceError Bool :=
  read (fun disk found => found = true → cacheMatches env disk url = true)

/-- `remove_entry_if_present` for `source`. -/
def removeSource : Program Disk WorkspaceError Unit :=
  operation (fun s _ t => t = { s with source := none }) (fun s t =>
    t = s ∨ ∃ left, env.interrupted s left ∧ t = { s with source := left })

/-- `remove_entry_if_present` for the fingerprint. -/
def removeFingerprint : Program Disk WorkspaceError Unit :=
  operation (fun s _ t => t = { s with fingerprint := none })
    (fun s t => t = s ∨ t = { s with fingerprint := none })

/-- The checks of the directory of the project. -/
def verifyProjectDir : Program Disk WorkspaceError Unit :=
  read (fun _ _ => True)

def rebuildSource : Program Disk WorkspaceError Unit := do
  verifyProjectDir
  removeSource env
  removeFingerprint

/-- `safe_write` writes another file and renames it, so it leaves the old or the new text. -/
def recordUrl (url : Text) : Program Disk WorkspaceError Unit := do
  verifyProjectDir
  operation (fun s _ t => t = { s with fingerprint := some (env.urlFingerprint url ++ ['\n']) })
    (fun s t => t = s ∨ t = { s with fingerprint := some (env.urlFingerprint url ++ ['\n']) })

def preflight : Program Disk WorkspaceError Unit :=
  read (fun _ _ => True)

/-- `open_project` makes and locks the directory of the project and leaves what is in it. -/
def openProject : Program Disk WorkspaceError Unit :=
  read (fun _ _ => True)

/-! Git -/

def checkAvailable : Program Disk GitError Unit :=
  read (fun _ _ => True)

def verifyRepository : Program Disk GitError Unit :=
  read (fun _ _ => True)

/-- A clone that completes has its URL as its origin; one that fails or is killed leaves any
directory. -/
def cloneRepository (url : Text) : Program Disk GitError Unit :=
  operation (fun s _ t => ∃ head, t = { s with source := some ⟨true, some url, some head⟩ })
    (fun s t => ∃ source, t = { s with source := source })

/-- Fetching and checking out change what `HEAD` names and keep the origin, also when they fail. -/
def fetchAndCheckout : Program Disk GitError Unit :=
  operation (fun s _ t => ∃ checkout head, s.source = some checkout ∧
      t = { s with source := some { checkout with head := head } })
    (fun s t => t = s ∨ ∃ checkout head, s.source = some checkout ∧
      t = { s with source := some { checkout with head := head } })

def revParse : Program Disk GitError Text :=
  read (fun disk commit => ∃ checkout, disk.source = some checkout ∧ checkout.head = some commit)

/-! The preparation of a task -/

/-- The part of `prepare_task_inner` under `result`. -/
def checkoutSource (url : Text) (cloneRequired : Bool) : Program Disk GitError Text := do
  (if cloneRequired then cloneRepository url else fetchAndCheckout)
  revParse

def isRepositoryInvalid : GitError → Bool
  | .repositoryInvalid => true
  | _ => false

/-- Whether the source has to be cloned. -/
def needsClone (url : Text) : Program Disk PreparationFailure Bool := do
  let found ← mapError .workspace (cacheMatchesUrl env url)
  if found then
    match ← attempt verifyRepository with
    | .ok () => return false
    | .error error =>
        if isRepositoryInvalid error then return true else throw (.git error)
  else return true

def rebuildIfRequired (cloneRequired : Bool) : Program Disk WorkspaceError Unit :=
  if cloneRequired then rebuildSource env else pure ()

def recordIfRequired (url : Text) (cloneRequired : Bool) : Program Disk WorkspaceError Unit :=
  if cloneRequired then recordUrl env url else pure ()

/-- What `prepare_task_inner` does when the repository became corrupt behind the first check. -/
def rebuildOnce (url : Text) : Program Disk PreparationFailure Text := do
  mapError .workspace (rebuildSource env)
  mapError .git (cloneRepository url)
  let sourceCommit ← mapError .git revParse
  mapError .workspace (recordUrl env url)
  return sourceCommit

/-- `prepare_task_inner`; the result is the source commit. -/
def prepareTaskInner (url : Text) : Program Disk PreparationFailure Text := do
  mapError .workspace preflight
  mapError .git checkAvailable
  mapError .workspace openProject
  let cloneRequired ← needsClone env url
  mapError .workspace (rebuildIfRequired env cloneRequired)
  match ← attempt (checkoutSource url cloneRequired) with
  | .ok sourceCommit =>
      mapError .workspace (recordIfRequired env url cloneRequired)
      return sourceCommit
  | .error error =>
      if isRepositoryInvalid error then rebuildOnce env url else throw (.git error)

/-! What every program keeps -/

/-- A `.git` next to a fingerprint has the origin that the fingerprint was recorded for. -/
def Recorded (urls : Set Text) (disk : Disk) : Prop :=
  ∀ text checkout, disk.fingerprint = some text → disk.source = some checkout →
    checkout.gitDir = true →
      ∃ url ∈ urls, text = env.urlFingerprint url ++ ['\n'] ∧ checkout.origin = some url

variable {env} {urls : Set Text} {url : Text}

theorem recorded_of_fingerprint_none {disk : Disk} (h : disk.fingerprint = none) :
    Recorded env urls disk := by
  intro text checkout hfingerprint
  rw [h] at hfingerprint
  cases hfingerprint

theorem recorded_of_source_none {disk : Disk} (h : disk.source = none) :
    Recorded env urls disk := by
  intro text checkout _ hsource
  rw [h] at hsource
  cases hsource

/-- A source that is as before, apart from its `HEAD`. -/
theorem Recorded.setHead {disk : Disk} {checkout : Checkout} {head : Option Text}
    (h : Recorded env urls disk) (hsource : disk.source = some checkout) :
    Recorded env urls { disk with source := some { checkout with head := head } } := by
  intro text after hfingerprint hafter hgit
  cases hafter
  exact h text checkout hfingerprint hsource hgit

/-- The checkout has an origin. -/
def OriginIs (url : Text) (disk : Disk) : Prop :=
  ∃ checkout, disk.source = some checkout ∧ checkout.origin = some url

/-- The checkout has an origin and a `HEAD`. -/
def CheckedOut (url commit : Text) (disk : Disk) : Prop :=
  ∃ checkout, disk.source = some checkout ∧ checkout.origin = some url ∧
    checkout.head = some commit

/-- What the environment promises: digests have no white space and are different for the URLs in
use, and a removal that stops keeps the origin that a fingerprint stands for. -/
structure Environment.Regular (env : Environment) (urls : Set Text) : Prop where
  digits : ∀ url ∈ urls, ∀ c ∈ env.urlFingerprint url, isWhitespace c = false
  collisionFree : Set.InjOn env.urlFingerprint urls
  interrupted : ∀ disk left, env.interrupted disk left →
    removalLeaves disk left ∧ KeepsOrigin disk left

theorem dropWhile_append_of_none {s t : Text} (hs : ∀ c ∈ s, isWhitespace c = false)
    (hne : s ≠ []) : (s ++ t).dropWhile isWhitespace = s ++ t := by
  cases s with
  | nil => exact absurd rfl hne
  | cons c s =>
      have hc := hs c (List.mem_cons_self ..)
      rw [List.cons_append, List.dropWhile_cons_of_neg (by rw [hc]; decide)]

theorem trimEnd_append_newline {s : Text} (hs : ∀ c ∈ s, isWhitespace c = false) :
    trimEnd (s ++ ['\n']) = s := by
  have hnewline : isWhitespace '\n' = true := by decide
  have hreverse : ∀ c ∈ s.reverse, isWhitespace c = false := fun c hc =>
    hs c (List.mem_reverse.mp hc)
  rw [trimEnd, List.reverse_append, List.reverse_singleton, List.singleton_append,
    List.dropWhile_cons_of_pos hnewline]
  cases hs' : s.reverse with
  | nil => rw [List.dropWhile_nil, ← hs', List.reverse_reverse]
  | cons c rest =>
      have hc := hreverse c (by rw [hs']; exact List.mem_cons_self ..)
      rw [List.dropWhile_cons_of_neg (by rw [hc]; decide), ← hs', List.reverse_reverse]

theorem trim_append_newline {s : Text} (hs : ∀ c ∈ s, isWhitespace c = false) :
    trim (s ++ ['\n']) = s := by
  cases s with
  | nil => decide
  | cons c rest =>
      rw [trim, dropWhile_append_of_none hs (List.cons_ne_nil c rest), trimEnd_append_newline hs]

/-- A cache that matches a URL has that origin. -/
theorem Recorded.originIs {disk : Disk} (h : Recorded env urls disk) (henv : env.Regular urls)
    (hurl : url ∈ urls) (hmatches : cacheMatches env disk url = true) : OriginIs url disk := by
  obtain ⟨source, fingerprint⟩ := disk
  cases source with
  | none => cases hmatches
  | some checkout =>
      cases fingerprint with
      | none => cases hmatches
      | some text =>
          obtain ⟨hgit, htrim⟩ := Bool.and_eq_true_iff.mp hmatches
          obtain ⟨recorded, hrecorded, rfl, horigin⟩ := h text checkout rfl rfl hgit
          rw [beq_iff_eq, trim_append_newline (henv.digits recorded hrecorded)] at htrim
          rw [henv.collisionFree hrecorded hurl htrim] at horigin
          exact ⟨checkout, rfl, horigin⟩

theorem triple_removeSource (henv : env.Regular urls) :
    Triple (Recorded env urls) (removeSource env) (fun _ disk => disk.source = none)
      (Recorded env urls) := by
  refine triple_operation ?_ ?_
  · rintro s _ _ _ rfl
    rfl
  · rintro s t hs (rfl | ⟨left, hleft, rfl⟩)
    · exact hs
    · obtain ⟨hleaves, hkeeps⟩ := henv.interrupted s left hleft
      intro text after hfingerprint hafter hgit
      obtain ⟨before, hbefore, hremains⟩ := hleaves after hafter
      obtain ⟨url, hurl, htext, horigin⟩ :=
        hs text before hfingerprint hbefore (hremains.gitDir hgit)
      have hsame := hkeeps before after (by rw [hfingerprint]; exact Option.some_ne_none _) hbefore
        hafter hgit
      exact ⟨url, hurl, htext, hsame.trans horigin⟩

theorem triple_removeFingerprint :
    Triple (fun disk => disk.source = none) removeFingerprint
      (fun _ disk => disk.fingerprint = none) (Recorded env urls) := by
  refine triple_operation ?_ ?_
  · rintro s _ _ _ rfl
    rfl
  · rintro s t hs (rfl | rfl)
    · exact recorded_of_source_none hs
    · exact recorded_of_fingerprint_none rfl

theorem triple_rebuildSource (henv : env.Regular urls) :
    Triple (Recorded env urls) (rebuildSource env) (fun _ disk => disk.fingerprint = none)
      (Recorded env urls) :=
  triple_bind (triple_read (fun _ _ hs _ => hs) fun _ hs => hs) fun _ =>
    triple_bind (triple_removeSource henv) fun _ => triple_removeFingerprint

/-- Without a fingerprint a clone may leave anything. -/
theorem triple_cloneRepository :
    Triple (fun disk => disk.fingerprint = none) (cloneRepository url)
      (fun _ disk => OriginIs url disk ∧ Recorded env urls disk) (Recorded env urls) := by
  refine triple_operation ?_ ?_
  · rintro s _ _ hs ⟨head, rfl⟩
    exact ⟨⟨_, rfl, rfl⟩, recorded_of_fingerprint_none hs⟩
  · rintro s _ hs ⟨source, rfl⟩
    exact recorded_of_fingerprint_none hs

theorem triple_fetchAndCheckout :
    Triple (fun disk => OriginIs url disk ∧ Recorded env urls disk) fetchAndCheckout
      (fun _ disk => OriginIs url disk ∧ Recorded env urls disk) (Recorded env urls) := by
  refine triple_operation ?_ ?_
  · rintro s _ _ ⟨⟨checkout, hcheckout, horigin⟩, hs⟩ ⟨found, head, hfound, rfl⟩
    rw [hcheckout] at hfound
    cases hfound
    exact ⟨⟨_, rfl, horigin⟩, hs.setHead hcheckout⟩
  · rintro s _ ⟨-, hs⟩ (rfl | ⟨found, head, hfound, rfl⟩)
    · exact hs
    · exact hs.setHead hfound

theorem triple_revParse :
    Triple (fun disk => OriginIs url disk ∧ Recorded env urls disk) revParse
      (fun commit disk => CheckedOut url commit disk ∧ Recorded env urls disk)
      (Recorded env urls) := by
  refine triple_read ?_ fun _ hs => hs.2
  rintro s commit ⟨⟨checkout, hcheckout, horigin⟩, hs⟩ ⟨found, hfound, hhead⟩
  rw [hcheckout] at hfound
  cases hfound
  exact ⟨⟨checkout, hcheckout, horigin, hhead⟩, hs⟩

/-- The fingerprint is written next to a checkout of its URL. -/
theorem triple_recordUrl (hurl : url ∈ urls) {commit : Text} :
    Triple (fun disk => CheckedOut url commit disk ∧ Recorded env urls disk) (recordUrl env url)
      (fun _ disk => CheckedOut url commit disk ∧ Recorded env urls disk)
      (Recorded env urls) := by
  have hwritten : ∀ disk, CheckedOut url commit disk → Recorded env urls
      { disk with fingerprint := some (env.urlFingerprint url ++ ['\n']) } := by
    rintro disk ⟨checkout, hcheckout, horigin, -⟩ text found hfingerprint hfound -
    rw [hcheckout] at hfound
    cases hfound
    cases hfingerprint
    exact ⟨url, hurl, rfl, horigin⟩
  refine triple_bind (triple_read (fun _ _ hs _ => hs) fun _ hs => hs.2) fun _ => ?_
  refine triple_operation ?_ ?_
  · rintro s _ _ ⟨hcheckedOut, -⟩ rfl
    exact ⟨hcheckedOut, hwritten s hcheckedOut⟩
  · rintro s _ ⟨hcheckedOut, hs⟩ (rfl | rfl)
    · exact hs
    · exact hwritten s hcheckedOut

/-- What holds before the checkout: a source that has to be cloned has no fingerprint, and one that
is used again has the URL. -/
def Ready (env : Environment) (urls : Set Text) (url : Text) (cloneRequired : Bool)
    (disk : Disk) : Prop :=
  Recorded env urls disk ∧ if cloneRequired then disk.fingerprint = none else OriginIs url disk

theorem triple_checkoutSource {cloneRequired : Bool} :
    Triple (Ready env urls url cloneRequired) (checkoutSource url cloneRequired)
      (fun commit disk => CheckedOut url commit disk ∧ Recorded env urls disk)
      (Recorded env urls) := by
  have hupdate : Triple (Ready env urls url cloneRequired)
      (if cloneRequired then cloneRepository url else fetchAndCheckout)
      (fun _ disk => OriginIs url disk ∧ Recorded env urls disk) (Recorded env urls) := by
    refine triple_ite ?_ ?_
    · rintro rfl
      exact triple_cloneRepository.weaken (fun _ hs => hs.2) (fun _ _ h => h) fun _ h => h
    · rintro rfl
      exact triple_fetchAndCheckout.weaken (fun _ hs => ⟨hs.2, hs.1⟩) (fun _ _ h => h) fun _ h => h
  exact triple_bind hupdate fun _ => triple_revParse

theorem triple_needsClone (henv : env.Regular urls) (hurl : url ∈ urls) :
    Triple (Recorded env urls) (needsClone env url)
      (fun cloneRequired disk => Recorded env urls disk ∧
        (cloneRequired = false → OriginIs url disk)) (Recorded env urls) := by
  have hcache : Triple (Recorded env urls)
      (mapError PreparationFailure.workspace (cacheMatchesUrl env url))
      (fun found disk => Recorded env urls disk ∧ (found = true → OriginIs url disk))
      (Recorded env urls) :=
    triple_mapError (triple_read
      (fun s _ hs hfound => ⟨hs, fun h => hs.originIs henv hurl (hfound h)⟩) fun _ hs => hs)
  refine triple_bind hcache fun found => triple_ite ?_ ?_
  · rintro rfl
    have hverify : Triple (fun disk => Recorded env urls disk ∧ (true = true → OriginIs url disk))
        verifyRepository
        (fun _ disk => Recorded env urls disk ∧ OriginIs url disk)
        (fun disk => Recorded env urls disk ∧ OriginIs url disk) :=
      triple_read (fun _ _ hs _ => ⟨hs.1, hs.2 rfl⟩) fun _ hs => ⟨hs.1, hs.2 rfl⟩
    have hattempt : Triple (fun disk => Recorded env urls disk ∧ (true = true → OriginIs url disk))
        (attempt verifyRepository : Program Disk PreparationFailure _)
        (fun _ disk => Recorded env urls disk ∧ OriginIs url disk) (Recorded env urls) :=
      triple_attempt hverify (fun _ _ h => h) fun _ h => h.1
    refine triple_bind hattempt fun result => ?_
    cases result with
    | ok => exact triple_pure fun _ hs => ⟨hs.1, fun _ => hs.2⟩
    | error error =>
        refine triple_ite ?_ ?_
        · exact fun _ => triple_pure fun _ hs => ⟨hs.1, fun h => by cases h⟩
        · exact fun _ => triple_throw fun _ hs => hs.1
  · exact fun _ => triple_pure fun _ hs => ⟨hs.1, fun h => by cases h⟩

theorem triple_rebuildIfRequired (henv : env.Regular urls) {cloneRequired : Bool} :
    Triple (fun disk => Recorded env urls disk ∧ (cloneRequired = false → OriginIs url disk))
      (rebuildIfRequired env cloneRequired) (fun _ => Ready env urls url cloneRequired)
      (Recorded env urls) := by
  cases cloneRequired with
  | true =>
      exact (triple_rebuildSource henv).weaken (fun _ hs => hs.1)
        (fun _ _ hs => ⟨recorded_of_fingerprint_none hs, hs⟩) fun _ hs => hs
  | false => exact triple_pure fun _ hs => ⟨hs.1, hs.2 rfl⟩

theorem triple_recordIfRequired (hurl : url ∈ urls) {commit : Text} {cloneRequired : Bool} :
    Triple (fun disk => CheckedOut url commit disk ∧ Recorded env urls disk)
      (recordIfRequired env url cloneRequired)
      (fun _ disk => CheckedOut url commit disk ∧ Recorded env urls disk)
      (Recorded env urls) :=
  triple_ite (fun _ => triple_recordUrl hurl) fun _ => triple_pure fun _ hs => hs

theorem triple_rebuildOnce (henv : env.Regular urls) (hurl : url ∈ urls) :
    Triple (Recorded env urls) (rebuildOnce env url)
      (fun commit disk => CheckedOut url commit disk ∧ Recorded env urls disk)
      (Recorded env urls) :=
  triple_bind (triple_mapError (triple_rebuildSource henv)) fun _ =>
    triple_bind (triple_mapError triple_cloneRepository) fun _ =>
      triple_bind (triple_mapError triple_revParse) fun _ =>
        triple_bind (triple_mapError (triple_recordUrl hurl)) fun _ => triple_pure fun _ hs => hs

/-- A preparation that succeeds leaves the checkout that it reports, and however it ends, what
fingerprints promise stays true. -/
theorem triple_prepareTaskInner (henv : env.Regular urls) (hurl : url ∈ urls) :
    Triple (Recorded env urls) (prepareTaskInner env url)
      (fun commit disk => CheckedOut url commit disk ∧ Recorded env urls disk)
      (Recorded env urls) := by
  have hread : ∀ {ε : Type} {f : ε → PreparationFailure},
      Triple (Recorded env urls) (mapError f (read fun _ (_ : Unit) => True))
        (fun _ => Recorded env urls) (Recorded env urls) :=
    triple_mapError (triple_read (fun _ _ hs _ => hs) fun _ hs => hs)
  refine triple_bind hread fun _ => triple_bind hread fun _ => triple_bind hread fun _ => ?_
  refine triple_bind (triple_needsClone henv hurl) fun cloneRequired => ?_
  refine triple_bind (triple_mapError (triple_rebuildIfRequired henv)) fun _ => ?_
  have hcheckout : Triple (Ready env urls url cloneRequired)
      (attempt (checkoutSource url cloneRequired) : Program Disk PreparationFailure _)
      (fun result disk => Recorded env urls disk ∧
        ∀ commit, result = .ok commit → CheckedOut url commit disk) (Recorded env urls) := by
    refine triple_attempt (triple_checkoutSource.weaken (fun _ h => h) ?_ fun _ h => h) ?_
      fun _ h => h
    · rintro commit disk ⟨hcheckedOut, hs⟩
      exact ⟨hs, fun _ hcommit => by cases hcommit; exact hcheckedOut⟩
    · exact fun _ _ hs => ⟨hs, fun _ h => by cases h⟩
  refine triple_bind hcheckout fun result => ?_
  cases result with
  | ok commit =>
      refine (triple_bind (triple_mapError (triple_recordIfRequired hurl)) fun _ =>
        triple_pure fun _ hs => hs).weaken ?_ (fun _ _ h => h) fun _ h => h
      exact fun _ hs => ⟨hs.2 commit rfl, hs.1⟩
  | error error =>
      refine triple_ite (fun _ => ?_) fun _ => triple_throw fun _ hs => hs.1
      exact (triple_rebuildOnce henv hurl).weaken (fun _ hs => hs.1) (fun _ _ h => h) fun _ h => h

/-! The runs of a project -/

/-- Preparations of one project, one after the other: a project is locked while a run is in
progress, and builds leave `.git` and the fingerprint alone. -/
def runs (env : Environment) (urls : Set Text) : TransitionSystem Disk where
  init := fun disk => disk = ⟨none, none⟩
  step := fun disk after => ∃ url ∈ urls, ∃ outcome, prepareTaskInner env url disk outcome after

theorem recorded_of_reachable (henv : env.Regular urls) {disk : Disk}
    (hdisk : (runs env urls).Reachable disk) : Recorded env urls disk := by
  refine hdisk.invariant (p := Recorded env urls) ?_ ?_
  · rintro s rfl
    exact recorded_of_fingerprint_none rfl
  · rintro s t - hs ⟨url, hurl, outcome, hrun⟩
    have htriple := triple_prepareTaskInner henv hurl
    cases outcome with
    | ok commit => exact (htriple.returns hs hrun).2
    | error error => exact htriple.fails hs hrun
    | crash => exact htriple.crashes hs hrun

/-- The caches of a project are sound: one that matches a URL has its origin, and a preparation
from here that succeeds leaves a checkout of its URL at the commit that it reports. -/
def Sound (env : Environment) (urls : Set Text) (disk : Disk) : Prop :=
  (∀ url ∈ urls, cacheMatches env disk url = true → OriginIs url disk) ∧
    ∀ url ∈ urls, ∀ commit after, prepareTaskInner env url disk (.ok commit) after →
      CheckedOut url commit after

/-- Removals that may stop anywhere. -/
def removals (urlFingerprint : Text → Text) : Environment :=
  ⟨urlFingerprint, removalLeaves⟩

/-- Removals that never stop at a `.git` without the origin that a fingerprint stands for. -/
def keepingRemovals (urlFingerprint : Text → Text) : Environment :=
  ⟨urlFingerprint, fun disk left => removalLeaves disk left ∧ KeepsOrigin disk left⟩

theorem keepingRemovals_sound {urlFingerprint : Text → Text} {urls : Set Text}
    (hdigits : ∀ url ∈ urls, ∀ c ∈ urlFingerprint url, isWhitespace c = false)
    (hcollisionFree : Set.InjOn urlFingerprint urls) {disk : Disk}
    (hdisk : (runs (keepingRemovals urlFingerprint) urls).Reachable disk) :
    Sound (keepingRemovals urlFingerprint) urls disk := by
  have henv : (keepingRemovals urlFingerprint).Regular urls :=
    ⟨hdigits, hcollisionFree, fun _ _ h => h⟩
  have hs := recorded_of_reachable henv hdisk
  constructor
  · exact fun _ hurl hmatches => hs.originIs henv hurl hmatches
  · exact fun _ hurl _ _ hrun => ((triple_prepareTaskInner henv hurl).returns hs hrun).1

/-- Any other removal that stops leaves a cache that is not sound. -/
theorem not_sound_of_not_keepsOrigin {disk : Disk} {left : Option Checkout}
    (h : Recorded env urls disk) (henv : ∀ url ∈ urls, ∀ c ∈ env.urlFingerprint url,
      isWhitespace c = false)
    (hleaves : removalLeaves disk left) (hkeeps : ¬ KeepsOrigin disk left) :
    ¬ Sound env urls { disk with source := left } := by
  rintro ⟨hmatches, -⟩
  refine hkeeps fun before after hfingerprint hbefore hafter hgit => ?_
  obtain ⟨text, htext⟩ := Option.ne_none_iff_exists'.mp hfingerprint
  obtain ⟨found, hfound, hremains⟩ := hleaves after hafter
  rw [hbefore] at hfound
  cases hfound
  obtain ⟨url, hurl, rfl, horigin⟩ := h text before htext hbefore (hremains.gitDir hgit)
  have hcache : cacheMatches env { disk with source := left } url = true := by
    rw [cacheMatches, hafter, htext]
    exact Bool.and_eq_true_iff.mpr
      ⟨hgit, beq_iff_eq.mpr (trim_append_newline (henv url hurl))⟩
  obtain ⟨checkout, hcheckout, hurl⟩ := hmatches url hurl hcache
  rw [hafter] at hcheckout
  cases hcheckout
  rw [hurl, horigin]

/-! Runs that exist -/

/-- What the preparation of a URL in an empty directory may leave. -/
def cloned (env : Environment) (url commit : Text) : Disk :=
  ⟨some ⟨true, some url, some commit⟩, some (env.urlFingerprint url ++ ['\n'])⟩

/-- Whether the cache matches or not, reading it may fail. -/
theorem needsClone_ok_true (disk : Disk) : needsClone env url disk (.ok true) disk :=
  bind_ok (mapError_ok (read_ok (a := false) fun hfound => by cases hfound)) pure_ok

/-- A directory without a checkout can be prepared. -/
theorem prepareTaskInner_clones (env : Environment) (url commit : Text) :
    prepareTaskInner env url ⟨none, none⟩ (.ok commit) (cloned env url commit) := by
  refine bind_ok (mapError_ok (read_ok (a := ()) trivial)) ?_
  refine bind_ok (mapError_ok (read_ok (a := ()) trivial)) ?_
  refine bind_ok (mapError_ok (read_ok (a := ()) trivial)) ?_
  refine bind_ok (needsClone_ok_true _) ?_
  have hrebuild : rebuildSource env ⟨none, none⟩ (.ok ()) ⟨none, none⟩ :=
    have hremove : removeSource env ⟨none, none⟩ (.ok ()) ⟨none, none⟩ := rfl
    have hremoveFingerprint : removeFingerprint ⟨none, none⟩ (.ok ()) ⟨none, none⟩ := rfl
    bind_ok (read_ok (a := ()) trivial) (bind_ok hremove hremoveFingerprint)
  refine bind_ok (mapError_ok hrebuild) ?_
  have hcheckout : checkoutSource url true ⟨none, none⟩ (.ok commit)
      ⟨some ⟨true, some url, some commit⟩, none⟩ :=
    bind_ok (a := ()) ⟨commit, rfl⟩ (read_ok ⟨_, rfl, rfl⟩)
  refine bind_ok (attempt_ok hcheckout) ?_
  have hrecord : recordUrl env url ⟨some ⟨true, some url, some commit⟩, none⟩ (.ok ())
      (cloned env url commit) :=
    bind_ok (read_ok (a := ()) trivial) rfl
  exact bind_ok (mapError_ok hrecord) pure_ok

/-- The process may die while it removes the checkout of another URL. -/
theorem prepareTaskInner_interrupted {disk : Disk} {left : Option Checkout}
    (hleft : env.interrupted disk left) :
    prepareTaskInner env url disk .crash { disk with source := left } := by
  refine bind_ok (mapError_ok (read_ok (a := ()) trivial)) ?_
  refine bind_ok (mapError_ok (read_ok (a := ()) trivial)) ?_
  refine bind_ok (mapError_ok (read_ok (a := ()) trivial)) ?_
  refine bind_ok (needsClone_ok_true _) ?_
  have hrebuild : rebuildSource env disk .crash { disk with source := left } :=
    bind_ok (read_ok (a := ()) trivial) (bind_crash (.inr ⟨left, hleft, rfl⟩))
  exact bind_crash (mapError_crash hrebuild)

/-! Two repositories -/

def oldUrl : Text := "https://example.test/old.git".toList

def newUrl : Text := "https://example.test/new.git".toList

/-- The SHA-256 digests of the two URLs. -/
def sampleFingerprint (url : Text) : Text :=
  if url = oldUrl then "7d81a8c783d7a281fe2894e9e35d58732de3bf34b5d2a4b39d31be87c6e8b7a3".toList
  else "abe75f989ea1f40435afadf04f10451bc85e72658a911c90d04835ff0994108e".toList

theorem sampleFingerprint_digits (url : Text) :
    ∀ c ∈ sampleFingerprint url, isWhitespace c = false := by
  have hall : (sampleFingerprint url).all (fun c => !isWhitespace c) = true := by
    rw [sampleFingerprint]
    split <;> rfl
  intro c hc
  simpa using List.all_eq_true.mp hall c hc

theorem sampleFingerprint_injOn : Set.InjOn sampleFingerprint {oldUrl, newUrl} := by
  rintro _ (rfl | rfl) _ (rfl | rfl) h
  · rfl
  · exact absurd h (by decide)
  · exact absurd h (by decide)
  · rfl

theorem keepingRemovals_sound_cloned :
    Sound (keepingRemovals sampleFingerprint) {oldUrl, newUrl}
      (cloned (keepingRemovals sampleFingerprint) oldUrl "5e1c".toList) :=
  keepingRemovals_sound (fun url _ => sampleFingerprint_digits url) sampleFingerprint_injOn
    (.step (.init rfl) ⟨oldUrl, .inl rfl, _, prepareTaskInner_clones _ _ _⟩)

/-- The process dies after it removed `.git/config`: the cache still matches. -/
theorem interruptedRebuild_not_sound :
    ∃ disk, (runs (removals sampleFingerprint) {oldUrl, newUrl}).Reachable disk ∧
      cacheMatches (removals sampleFingerprint) disk oldUrl = true ∧ ¬ OriginIs oldUrl disk := by
  have hcloned : (runs (removals sampleFingerprint) {oldUrl, newUrl}).Reachable
      (cloned (removals sampleFingerprint) oldUrl "5e1c".toList) :=
    .step (.init rfl) ⟨oldUrl, .inl rfl, _, prepareTaskInner_clones _ _ _⟩
  have hleaves : removalLeaves (cloned (removals sampleFingerprint) oldUrl "5e1c".toList)
      (some ⟨true, none, some "5e1c".toList⟩) := by
    intro after hafter
    cases hafter
    exact ⟨_, rfl, fun _ => rfl, .inl rfl, .inr rfl⟩
  refine ⟨_, .step hcloned ⟨newUrl, .inr rfl, .crash,
    prepareTaskInner_interrupted hleaves⟩, by decide, ?_⟩
  rintro ⟨checkout, hcheckout, horigin⟩
  cases hcheckout
  cases horigin

end AnvilRun.Preparation
