import AnvilRun.Interruption.Invariants
import Mathlib.Data.List.Basic
import Mathlib.Logic.Function.Basic

namespace AnvilRun.LinkedFiles

open Interruptible

variable {ν ε α : Type}

/-- Where a symbolic link leads. A step without a name goes up. -/
structure Link (ν : Type) where
  absolute : Bool
  steps : List (Option ν)
  deriving DecidableEq

inductive Node (ν : Type) where
  | directory
  | file (content : List UInt8)
  | link (target : Link ν)
  deriving DecidableEq

/-- A place is the way to it from the root, through directories only. -/
abbrev Place (ν : Type) : Type :=
  List ν

abbrev Tree (ν : Type) : Type :=
  Place ν → Option (Node ν)

/-! Paths that may lead through links -/

/-- The walk along a path from a place, where `follow` goes on behind a link. -/
def walk (tree : Tree ν) (follow : Place ν → List (Option ν) → Option (Place ν)) :
    Place ν → List (Option ν) → Option (Place ν)
  | here, [] => some here
  | here, none :: steps => walk tree follow here.dropLast steps
  | here, some name :: steps =>
      match tree (here ++ [name]) with
      | some .directory => walk tree follow (here ++ [name]) steps
      | some (.file _) => if steps.isEmpty then some (here ++ [name]) else none
      | some (.link target) =>
          follow (if target.absolute then [] else here) (target.steps ++ steps)
      | none => none

/-- The place that a path leads to, if it leads anywhere through no more links than `links`. -/
def resolve (tree : Tree ν) : Nat → Place ν → List (Option ν) → Option (Place ν)
  | 0 => walk tree fun _ _ => none
  | links + 1 => walk tree (resolve tree links)

variable {e : ε} {tree tree' tree'' : Tree ν} {root here place other : Place ν}
  {dirs names : List ν} {name : ν} {node : Option (Node ν)}

/-- The names lead from directory to directory. -/
def IsDirs (tree : Tree ν) : Place ν → List ν → Prop
  | _, [] => True
  | here, name :: names =>
      tree (here ++ [name]) = some .directory ∧ IsDirs tree (here ++ [name]) names

theorem walk_of_isDirs (follow : Place ν → List (Option ν) → Option (Place ν))
    (h : IsDirs tree here names) :
    walk tree follow here (names.map some) = some (here ++ names) := by
  induction names generalizing here with
  | nil =>
      rw [List.append_nil]
      rfl
  | cons name names ih =>
      obtain ⟨hdirectory, hrest⟩ := h
      rw [List.map_cons, walk, hdirectory]
      refine (ih hrest).trans ?_
      rw [List.append_assoc]
      rfl

theorem IsDirs.of_same (h : IsDirs tree here names)
    (hsame : ∀ other, other.length ≤ (here ++ names).length → tree' other = tree other) :
    IsDirs tree' here names := by
  induction names generalizing here with
  | nil => trivial
  | cons name names ih =>
      have hlength : (here ++ name :: names).length = (here ++ [name] ++ names).length := by simp
      refine ⟨(hsame _ ?_).trans h.1, ih h.2 ?_⟩
      · simp
      · rw [← hlength]
        exact hsame

/-! What becomes of a tree -/

/-- A place is as before, or there is a new directory. -/
def GrewAt (tree tree' : Tree ν) (place : Place ν) : Prop :=
  tree' place = tree place ∨ tree place = none ∧ tree' place = some .directory

def SameBut (place : Place ν) (tree tree' : Tree ν) : Prop :=
  ∀ other, other ≠ place → tree' other = tree other

theorem GrewAt.trans (h : GrewAt tree tree' place) (h' : GrewAt tree' tree'' place) :
    GrewAt tree tree'' place := by
  rcases h with hsame | ⟨hfree, hmade⟩
  · rw [GrewAt, ← hsame]
    exact h'
  · rcases h' with hsame' | ⟨hfree', -⟩
    · exact Or.inr ⟨hfree, hsame'.trans hmade⟩
    · exact absurd (hfree'.symm.trans hmade) (by simp)

theorem SameBut.refl (place : Place ν) (tree : Tree ν) : SameBut place tree tree := fun _ _ => rfl

theorem SameBut.trans (h : SameBut place tree tree') (h' : SameBut place tree' tree'') :
    SameBut place tree tree'' := fun other hne => (h' other hne).trans (h other hne)

theorem IsDirs.of_sameBut (h : IsDirs tree root dirs)
    (hsame : SameBut (root ++ dirs ++ [name]) tree tree') : IsDirs tree' root dirs := by
  refine h.of_same fun other hlength => hsame other ?_
  rintro rfl
  simp only [List.length_append, List.length_cons, List.length_nil] at hlength
  omega

/-! Entries -/

variable [DecidableEq ν]

/-- The most links that a path may lead through. -/
def maxLinks : Nat := 40

/-- The place of an entry. Links are followed on the way to its directory. -/
def locate (tree : Tree ν) (root : Place ν) (dirs : List ν) (name : ν) : Option (Place ν) :=
  match resolve tree maxLinks root (dirs.map some) with
  | some place => if tree place = some .directory then some (place ++ [name]) else none
  | none => none

/-- `try_exists`, which follows a link at the end as well. -/
def leadsToEntry (tree : Tree ν) (root : Place ν) (dirs : List ν) (name : ν) : Bool :=
  (resolve tree maxLinks root ((dirs ++ [name]).map some)).isSome

def Tree.put (tree : Tree ν) (place : Place ν) (node : Option (Node ν)) : Tree ν :=
  Function.update tree place node

/-! Calls of the operating system -/

/-- `create_dir_all`: the directories that are missing on the way. -/
def createDirAll (e : ε) : Place ν → List ν → Interruptible ε (Tree ν) Unit
  | _, [] => pure ()
  | here, name :: names => do
      let tree ← get
      match tree (here ++ [name]) with
      | some .directory => createDirAll e (here ++ [name]) names
      | some (.file _) => fail e
      | some (.link _) =>
          match resolve tree maxLinks here [some name] with
          | some place =>
              if tree place = some .directory then createDirAll e place names else fail e
          | none => fail e
      | none => do
          atomically (fun tree => tree.put (here ++ [name]) (some .directory)) e
          createDirAll e (here ++ [name]) names

/-- Looks at each directory on the way, and fails at one that is a link or a file. -/
def rejectLinks (e : ε) : Place ν → List ν → Interruptible ε (Tree ν) Unit
  | _, [] => pure ()
  | here, name :: names => do
      inspect e
      let tree ← get
      if tree (here ++ [name]) = some .directory then rejectLinks e (here ++ [name]) names
      else fail e

/-- Removes a file or a link. -/
def removeFile (e : ε) (root : Place ν) (dirs : List ν) (name : ν) :
    Interruptible ε (Tree ν) Unit := do
  let tree ← get
  match locate tree root dirs name with
  | some place =>
      match tree place with
      | none | some .directory => fail e
      | some (.file _) | some (.link _) => atomically (fun tree => tree.put place none) e
  | none => fail e

/-- Makes a file that is not there yet, and opens it. -/
def createNew (e : ε) (root : Place ν) (dirs : List ν) (name : ν) :
    Interruptible ε (Tree ν) (Place ν) := do
  let tree ← get
  match locate tree root dirs name with
  | some place =>
      if tree place = none then do
        atomically (fun tree => tree.put place (some (.file []))) e
        return place
      else fail e
  | none => fail e

/-- The file with more at its end. -/
def Tree.append (place : Place ν) (bytes : List UInt8) (tree : Tree ν) : Tree ν :=
  match tree place with
  | some (.file content) => tree.put place (some (.file (content ++ bytes)))
  | _ => tree

/-- Whether there is something, as far as the call can tell. -/
def tryExists (root : Place ν) (dirs : List ν) (name : ν) : Interruptible ε (Tree ν) Bool := do
  let tree ← get
  let late ← elapses
  return leadsToEntry tree root dirs name && !late

/-- Moves a file onto another entry of the same directory, which must not be a directory. -/
def rename (e : ε) (root : Place ν) (dirs : List ν) (source target : ν) :
    Interruptible ε (Tree ν) Unit := do
  let tree ← get
  match locate tree root dirs source, locate tree root dirs target with
  | some source, some target =>
      match tree source, tree target with
      | some (.file _), some .directory => fail e
      | some (.file content), _ =>
          atomically (fun tree => (tree.put source none).put target (some (.file content))) e
      | _, _ => fail e
  | _, _ => fail e

/-! What the calls leave -/

@[simp]
theorem Tree.put_self : tree.put place node place = node := by
  rw [put, Function.update_self]

theorem Tree.put_of_ne (h : other ≠ place) : tree.put place node other = tree other := by
  rw [put, Function.update_of_ne h]

theorem sameBut_put (place : Place ν) (tree : Tree ν) (node : Option (Node ν)) :
    SameBut place tree (tree.put place node) := fun _ hne => Tree.put_of_ne hne

theorem sameBut_append (place : Place ν) (tree : Tree ν) (bytes : List UInt8) :
    SameBut place tree (tree.append place bytes) := by
  rw [Tree.append]
  split
  · exact sameBut_put place tree _
  · exact .refl place tree

theorem append_file {content bytes : List UInt8} (h : tree place = some (.file content)) :
    tree.append place bytes place = some (.file (content ++ bytes)) := by
  rw [Tree.append, h]
  exact Tree.put_self

theorem grewAt_makeDirectory (h : tree place = none) (other : Place ν) :
    GrewAt tree (tree.put place (some .directory)) other := by
  by_cases hne : other = place
  · rw [hne]
    exact Or.inr ⟨h, Tree.put_self⟩
  · exact Or.inl (Tree.put_of_ne hne)

/-- Only directories are made, and only where nothing was. -/
theorem ends_createDirAll (e : ε) (here : Place ν) (names : List ν) (tree : Tree ν) :
    Ends (createDirAll e here names) (fun _ tree' => ∀ place, GrewAt tree tree' place)
      (fun _ tree' => ∀ place, GrewAt tree tree' place)
      (fun tree' => ∀ place, GrewAt tree tree' place) tree := by
  induction names generalizing here tree with
  | nil => exact ends_pure fun _ => Or.inl rfl
  | cons name names ih =>
      rw [createDirAll]
      apply ends_bind
      apply ends_get
      split
      · exact ih _ _
      · exact ends_fail fun _ => Or.inl rfl
      · split
        · split
          · exact ih _ _
          · exact ends_fail fun _ => Or.inl rfl
        · exact ends_fail fun _ => Or.inl rfl
      · rename_i hfree
        have hmade := grewAt_makeDirectory hfree
        apply ends_bind
        apply ends_atomically
        · exact (ih _ _).imp (fun _ _ h place => (hmade place).trans (h place))
            (fun _ _ h place => (hmade place).trans (h place))
            (fun _ h place => (hmade place).trans (h place))
        · exact fun _ => Or.inl rfl
        · exact fun _ => Or.inl rfl
        · exact hmade

theorem ends_rejectLinks (e : ε) (here : Place ν) (names : List ν) (tree : Tree ν) :
    Ends (rejectLinks e here names) (fun _ tree' => tree' = tree ∧ IsDirs tree here names)
      (fun _ tree' => tree' = tree) (fun tree' => tree' = tree) tree := by
  induction names generalizing here with
  | nil => exact ends_pure ⟨rfl, trivial⟩
  | cons name names ih =>
      rw [rejectLinks]
      refine ends_bind (ends_inspect ?_ rfl rfl)
      refine ends_bind (ends_get ?_)
      split
      · rename_i hdirectory
        exact (ih _).imp (fun _ _ h => ⟨h.1, hdirectory, h.2⟩) (fun _ _ h => h) fun _ h => h
      · exact ends_fail rfl

/-- Without links a path leads to where it says. -/
theorem locate_of_isDirs (h : IsDirs tree root dirs)
    (hplace : locate tree root dirs name = some place) : place = root ++ dirs ++ [name] := by
  have hresolve : resolve tree maxLinks root (dirs.map some) = some (root ++ dirs) :=
    walk_of_isDirs _ h
  rw [locate, hresolve] at hplace
  dsimp only at hplace
  split at hplace
  · exact (Option.some.inj hplace).symm
  · cases hplace

omit [DecidableEq ν] in
theorem ends_tryExists (root : Place ν) (dirs : List ν) (name : ν) (tree : Tree ν) :
    Ends (tryExists root dirs name : Interruptible ε (Tree ν) Bool) (fun _ tree' => tree' = tree)
      (fun _ tree' => tree' = tree) (fun tree' => tree' = tree) tree := by
  refine ends_bind (ends_get ?_)
  exact ends_bind (ends_elapses (fun _ => ends_pure rfl) rfl)

section Entry

variable (h : IsDirs tree root dirs)

include h

theorem ends_removeFile (e : ε) (name : ν) :
    Ends (removeFile e root dirs name)
      (fun _ tree' => tree' = tree.put (root ++ dirs ++ [name]) none)
      (fun _ tree' => tree' = tree)
      (fun tree' => tree' = tree ∨ tree' = tree.put (root ++ dirs ++ [name]) none) tree := by
  rw [removeFile]
  refine ends_bind (ends_get ?_)
  split
  · rename_i place hplace
    obtain rfl := locate_of_isDirs h hplace
    split
    · exact ends_fail rfl
    · exact ends_fail rfl
    · exact ends_atomically rfl rfl (Or.inl rfl) (Or.inr rfl)
    · exact ends_atomically rfl rfl (Or.inl rfl) (Or.inr rfl)
  · exact ends_fail rfl

theorem ends_createNew (e : ε) (name : ν) :
    Ends (createNew e root dirs name)
      (fun place tree' => place = root ++ dirs ++ [name] ∧
        tree' = tree.put (root ++ dirs ++ [name]) (some (.file [])))
      (fun _ tree' => tree' = tree)
      (fun tree' => SameBut (root ++ dirs ++ [name]) tree tree') tree := by
  rw [createNew]
  refine ends_bind (ends_get ?_)
  split
  · rename_i place hplace
    obtain rfl := locate_of_isDirs h hplace
    split
    · refine ends_bind (ends_atomically ?_ rfl (.refl _ _) (sameBut_put _ _ _))
      exact ends_pure ⟨rfl, rfl⟩
    · exact ends_fail rfl
  · exact ends_fail rfl

theorem ends_rename (e : ε) (source target : ν) :
    Ends (rename e root dirs source target)
      (fun _ tree' => ∃ content, tree (root ++ dirs ++ [source]) = some (.file content) ∧
        tree' = (tree.put (root ++ dirs ++ [source]) none).put (root ++ dirs ++ [target])
          (some (.file content)))
      (fun _ tree' => tree' = tree)
      (fun tree' => tree' = tree ∨ ∃ content,
        tree (root ++ dirs ++ [source]) = some (.file content) ∧
        tree' = (tree.put (root ++ dirs ++ [source]) none).put (root ++ dirs ++ [target])
          (some (.file content))) tree := by
  rw [rename]
  refine ends_bind (ends_get ?_)
  split
  · rename_i sourcePlace targetPlace hsource htarget
    obtain rfl := locate_of_isDirs h hsource
    obtain rfl := locate_of_isDirs h htarget
    split
    · exact ends_fail rfl
    · rename_i content hfile _
      exact ends_atomically ⟨content, hfile, rfl⟩ rfl (Or.inl rfl) (Or.inr ⟨content, hfile, rfl⟩)
    · exact ends_fail rfl
  · exact ends_fail rfl

end Entry

end AnvilRun.LinkedFiles
