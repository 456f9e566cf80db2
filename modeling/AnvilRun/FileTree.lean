import Mathlib.Data.List.Basic
import Mathlib.Logic.Function.Basic

namespace AnvilRun.FileTree

variable {π ε : Type}

/-- What is at a place of a file system. -/
inductive Node where
  | directory
  | file (content : List UInt8)
  deriving DecidableEq

/-- The nodes by their places. -/
abbrev Listing (π : Type) : Type :=
  π → Option Node

namespace Listing

variable [DecidableEq π] {tree tree' : Listing π} {places : List π} {place other : π} {error : ε}
  {node : Option Node}

def put (tree : Listing π) (place : π) (node : Option Node) : Listing π :=
  Function.update tree place node

@[simp]
theorem put_self : tree.put place node place = node := by
  rw [put, Function.update_self]

@[simp]
theorem put_of_ne (h : other ≠ place) : tree.put place node other = tree other := by
  rw [put, Function.update_of_ne h]

/-- What is put at a free place and taken away again leaves no trace. -/
theorem put_put_none (h : tree place = none) : (tree.put place node).put place none = tree := by
  rw [put, put, Function.update_idem, ← h, Function.update_eq_self]

/-- Makes the directories that are not there yet, unless a file is at the place of one. -/
def makeDirectories (tree : Listing π) (error : ε) : List π → Except ε (Listing π)
  | [] => .ok tree
  | place :: places =>
      match tree place with
      | some .directory => makeDirectories tree error places
      | some (.file _) => .error error
      | none => makeDirectories (tree.put place (some .directory)) error places

/-- The tree with directories at the places. -/
def withDirectories (tree : Listing π) (places : List π) : Listing π := fun place =>
  if places.contains place then some .directory else tree place

theorem withDirectories_of_mem (h : place ∈ places) :
    tree.withDirectories places place = some .directory :=
  if_pos (List.contains_iff_mem.mpr h)

theorem withDirectories_of_not_mem (h : place ∉ places) :
    tree.withDirectories places place = tree place :=
  if_neg fun hmem => h (List.contains_iff_mem.mp hmem)

theorem withDirectories_nil (tree : Listing π) : tree.withDirectories [] = tree :=
  funext fun _ => withDirectories_of_not_mem List.not_mem_nil

theorem withDirectories_cons (tree : Listing π) (place : π) (places : List π) :
    tree.withDirectories (place :: places) =
      (tree.put place (some .directory)).withDirectories places := by
  funext other
  by_cases hmem : other ∈ places
  · rw [withDirectories_of_mem hmem, withDirectories_of_mem (List.mem_cons_of_mem place hmem)]
  · rw [withDirectories_of_not_mem hmem]
    by_cases hsame : other = place
    · rw [hsame, put_self, withDirectories_of_mem List.mem_cons_self]
    · rw [put_of_ne hsame, withDirectories_of_not_mem
        (fun hcons => (List.mem_cons.mp hcons).elim hsame hmem)]

theorem withDirectories_append (tree : Listing π) (places others : List π) :
    (tree.withDirectories places).withDirectories others =
      tree.withDirectories (places ++ others) := by
  induction places generalizing tree with
  | nil => rw [withDirectories_nil, List.nil_append]
  | cons place places ih =>
      rw [withDirectories_cons, ih, List.cons_append, withDirectories_cons]

theorem withDirectories_eq_self (h : ∀ place ∈ places, tree place = some .directory) :
    tree.withDirectories places = tree := by
  funext place
  by_cases hmem : place ∈ places
  · rw [withDirectories_of_mem hmem, h place hmem]
  · exact withDirectories_of_not_mem hmem

/-- Directories stay when more are made. -/
theorem withDirectories_directory (h : tree place = some .directory) :
    tree.withDirectories places place = some .directory := by
  by_cases hmem : place ∈ places
  · exact withDirectories_of_mem hmem
  · rwa [withDirectories_of_not_mem hmem]

theorem put_directory (h : tree place = some .directory) :
    tree.put place (some .directory) = tree := by
  rw [put, ← h, Function.update_eq_self]

theorem ne_file_put (h : ∀ content, tree place ≠ some (.file content)) :
    (∀ content, tree.put place (some .directory) other ≠ some (.file content)) ↔
      ∀ content, tree other ≠ some (.file content) := by
  by_cases hsame : other = place
  · simp [hsame, h]
  · rw [put_of_ne hsame]

/-- The directories can be made exactly when no file is in the way. -/
theorem makeDirectories_eq_ok :
    tree.makeDirectories error places = .ok tree' ↔
      (∀ place ∈ places, ∀ content, tree place ≠ some (.file content)) ∧
        tree' = tree.withDirectories places := by
  induction places generalizing tree with
  | nil =>
      rw [makeDirectories, withDirectories_nil]
      simp [eq_comm]
  | cons place places ih =>
      rw [makeDirectories, withDirectories_cons, List.forall_mem_cons]
      split
      · rename_i hnode
        rw [ih, put_directory hnode]
        simp [hnode]
      · rename_i content hnode
        simp [hnode]
      · rename_i hnode
        have hno : ∀ content, tree place ≠ some (.file content) := by simp [hnode]
        rw [ih]
        simp [ne_file_put hno, hnode]

end Listing

end AnvilRun.FileTree
