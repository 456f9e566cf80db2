import Mathlib.Data.List.Basic

namespace AnvilRun.UnixPath

/-! Splitting a text -/

section Split

variable {α β : Type} [DecidableEq α] [DecidableEq β]

theorem splitOn_append_of_not_mem {b : β} {xs : List β} (h : b ∉ xs) (l : List β) :
    (xs ++ l).splitOn b = (l.splitOn b).modifyHead (xs ++ ·) := by
  induction xs with
  | nil =>
      obtain ⟨part, parts, hparts⟩ := List.exists_cons_of_ne_nil (List.splitOn_ne_nil b l)
      rw [List.nil_append, hparts]
      rfl
  | cons x xs ih =>
      obtain ⟨hx, hxs⟩ := not_or.mp (fun hor => h (List.mem_cons.mpr hor))
      have hne : ¬ (x == b) = true := by
        rw [beq_iff_eq]
        exact fun heq => hx heq.symm
      obtain ⟨part, parts, hparts⟩ := List.exists_cons_of_ne_nil (List.splitOn_ne_nil b l)
      rw [List.cons_append, List.splitOn_cons_eq_if_modifyHead, if_neg hne, ih hxs, hparts]
      rfl

/-- A separator that is written as one unit, and no part of another character, splits the units
where it splits the characters. -/
theorem splitOn_flatMap {f : α → List β} {a : α} {b : β} (ha : f a = [b])
    (hf : ∀ x, x ≠ a → b ∉ f x) (l : List α) :
    (l.flatMap f).splitOn b = (l.splitOn a).map (List.flatMap f) := by
  induction l with
  | nil => rfl
  | cons x l ih =>
      rw [List.flatMap_cons, List.splitOn_cons_eq_if_modifyHead]
      by_cases hx : x = a
      · rw [hx, ha, if_pos (beq_self_eq_true a), List.singleton_append,
          List.splitOn_cons_eq_if_modifyHead, if_pos (beq_self_eq_true b), ih]
        rfl
      · rw [if_neg (by rwa [beq_iff_eq]), splitOn_append_of_not_mem (hf x hx), ih]
        obtain ⟨part, parts, hparts⟩ := List.exists_cons_of_ne_nil (List.splitOn_ne_nil a l)
        rw [hparts, List.map_cons, List.modifyHead_cons, List.modifyHead_cons, List.map_cons,
          List.flatMap_cons]

end Split

/-! The components of a path -/

inductive Component where
  | rootDir | curDir | parentDir
  | normal (name : List UInt8)
  deriving DecidableEq

def Component.isNormal : Component → Bool
  | .normal _ => true
  | _ => false

def segments (path : List UInt8) : List (List UInt8) :=
  path.splitOn 47

def isAbsolute (path : List UInt8) : Bool :=
  path.head? == some 47

/-- Empty segments and dots are passed over. -/
def component? (segment : List UInt8) : Option Component :=
  if segment = [] ∨ segment = [46] then none
  else if segment = [46, 46] then some .parentDir
  else some (.normal segment)

/-- A dot counts only at the start of a relative path. -/
def leading (path : List UInt8) : List Component :=
  if isAbsolute path then [.rootDir]
  else if (segments path).head? = some [46] then [.curDir]
  else []

def components (path : List UInt8) : List Component :=
  leading path ++ (segments path).filterMap component?

/-- The name of an entry of a directory. -/
structure FileName where
  bytes : List UInt8
  ne_nil : bytes ≠ []
  ne_dot : bytes ≠ [46]
  ne_dots : bytes ≠ [46, 46]
  no_slash : 47 ∉ bytes
  no_nul : 0 ∉ bytes
  deriving DecidableEq

theorem FileName.components_eq (name : FileName) :
    components name.bytes = [.normal name.bytes] := by
  have hsegments : segments name.bytes = [name.bytes] := List.splitOn_eq_singleton name.no_slash
  have hrelative : isAbsolute name.bytes = false := by
    rw [isAbsolute, beq_eq_false_iff_ne]
    exact fun hhead => name.no_slash (List.mem_of_mem_head? hhead)
  have hleading : leading name.bytes = [] := by
    rw [leading, hrelative, if_neg Bool.false_ne_true, hsegments, List.head?_cons, if_neg]
    exact fun heq => name.ne_dot (Option.some.inj heq)
  have hcomponent : component? name.bytes = some (.normal name.bytes) := by
    rw [component?, if_neg (not_or.mpr ⟨name.ne_nil, name.ne_dot⟩), if_neg name.ne_dots]
  rw [components, hleading, hsegments, List.nil_append, List.filterMap_cons, hcomponent]
  rfl

theorem isNormal_component? {segment : List UInt8} :
    (component? segment).all Component.isNormal = true ↔ segment ≠ [46, 46] := by
  rw [component?]
  split
  · rename_i hskip
    refine iff_of_true rfl ?_
    rintro rfl
    rcases hskip with h | h
    · cases h
    · cases h
  · split
    · rename_i hdots
      exact iff_of_false Bool.false_ne_true (fun hne => hne hdots)
    · rename_i hdots
      exact iff_of_true rfl hdots

theorem all_isNormal_iff {path : List UInt8} :
    (components path).all Component.isNormal = true ↔
      isAbsolute path = false ∧ (segments path).head? ≠ some [46] ∧
        ∀ segment ∈ segments path, segment ≠ [46, 46] := by
  have hsegments : ((segments path).filterMap component?).all Component.isNormal = true ↔
      ∀ segment ∈ segments path, segment ≠ [46, 46] := by
    rw [List.all_eq_true]
    constructor
    · intro h segment hmem
      apply isNormal_component?.mp
      cases hcomponent : component? segment with
      | none => rfl
      | some component => exact h component (List.mem_filterMap.mpr ⟨segment, hmem, hcomponent⟩)
    · intro h component hmem
      obtain ⟨segment, hsegment, hcomponent⟩ := List.mem_filterMap.mp hmem
      have hnormal := isNormal_component?.mpr (h segment hsegment)
      rwa [hcomponent] at hnormal
  have hleading : (leading path).all Component.isNormal = true ↔
      isAbsolute path = false ∧ (segments path).head? ≠ some [46] := by
    rw [leading]
    split
    · rename_i habsolute
      exact iff_of_false Bool.false_ne_true
        (fun h => Bool.false_ne_true (h.1.symm.trans habsolute))
    · rename_i habsolute
      split
      · rename_i hdot
        exact iff_of_false Bool.false_ne_true (fun h => h.2 hdot)
      · rename_i hdot
        exact iff_of_true rfl ⟨Bool.eq_false_iff.mpr habsolute, hdot⟩
  rw [components, List.all_append, Bool.and_eq_true, hleading, hsegments, and_assoc]

end AnvilRun.UnixPath
