import AnvilRun.UnixPath

namespace AnvilRun.UnixPath

/-- `Path::join`. -/
def join (root path : List UInt8) : List UInt8 :=
  if isAbsolute path then path
  else if root = [] ∨ root.getLast? = some 47 then root ++ path
  else root ++ 47 :: path

/-- One component on the way to the normalized form, whose last component stands first here. There
is nothing above the root. -/
def normalizeStep (reached : List Component) : Component → List Component
  | .curDir => reached
  | .parentDir =>
      match reached with
      | .normal _ :: above => above
      | .rootDir :: _ => reached
      | _ => .parentDir :: reached
  | .rootDir => .rootDir :: reached
  | .normal name => .normal name :: reached

/-- The components of a path without dots, and without what a parent directory takes back. -/
def normalize (path : List UInt8) : List Component :=
  ((components path).foldl normalizeStep []).reverse

def LiesUnder (root path : List UInt8) : Prop :=
  normalize root <+: normalize path

instance (root path : List UInt8) : Decidable (LiesUnder root path) :=
  inferInstanceAs (Decidable (normalize root <+: normalize path))

variable {root path : List UInt8}

theorem segments_append_slash (root path : List UInt8) :
    segments (root ++ 47 :: path) = segments root ++ segments path :=
  List.splitOn_append_cons_self root path

theorem head?_segments_append (root : List UInt8) (rest : List (List UInt8)) :
    (segments root ++ rest).head? = (segments root).head? := by
  obtain ⟨segment, others, h⟩ := List.exists_cons_of_ne_nil (List.splitOn_ne_nil 47 root)
  rw [segments, h]
  rfl

theorem head?_append_slash (root path : List UInt8) :
    (root ++ 47 :: path).head? = (root ++ [47]).head? := by
  cases root with
  | nil => rfl
  | cons b root => rfl

/-- A path of names only adds its components to those in front of it. -/
theorem components_append_slash (root : List UInt8)
    (h : (components path).all Component.isNormal = true) :
    components (root ++ 47 :: path) = components (root ++ [47]) ++ components path := by
  obtain ⟨habsolute, hdot, -⟩ := all_isNormal_iff.mp h
  have hleading : leading path = [] := by
    rw [leading, if_neg (by rw [habsolute]; exact Bool.false_ne_true), if_neg hdot]
  have hslash : segments (root ++ [47]) = segments root ++ [[]] := segments_append_slash root []
  have hskipped : [[]].filterMap component? = [] := rfl
  rw [components, components, components, leading, leading, isAbsolute, isAbsolute,
    head?_append_slash, segments_append_slash, hslash, head?_segments_append,
    head?_segments_append, hleading, List.filterMap_append, List.filterMap_append, hskipped,
    List.append_nil, List.nil_append, List.append_assoc]

theorem components_slash (hroot : root ≠ []) : components (root ++ [47]) = components root := by
  have hslash : segments (root ++ [47]) = segments root ++ [[]] := segments_append_slash root []
  have hskipped : [[]].filterMap component? = [] := rfl
  rw [components, components, leading, leading, isAbsolute, isAbsolute,
    List.head?_append_of_ne_nil _ hroot, hslash, head?_segments_append, List.filterMap_append,
    hskipped, List.append_nil]

theorem components_join (h : (components path).all Component.isNormal = true) :
    components (join root path) = components root ++ components path := by
  have habsolute := (all_isNormal_iff.mp h).1
  rw [join, if_neg (by rw [habsolute]; exact Bool.false_ne_true)]
  split
  · rename_i hends
    rcases hends with rfl | hends
    · rfl
    · obtain ⟨front, rfl⟩ := List.getLast?_eq_some_iff.mp hends
      rw [List.append_assoc, List.singleton_append]
      exact components_append_slash front h
  · rename_i hroot
    rw [components_append_slash root h, components_slash fun hnil => hroot (.inl hnil)]

theorem foldl_normalizeStep (names reached : List Component)
    (h : names.all Component.isNormal = true) :
    names.foldl normalizeStep reached = names.reverse ++ reached := by
  induction names generalizing reached with
  | nil => rfl
  | cons component names ih =>
      rw [List.all_cons, Bool.and_eq_true] at h
      rw [List.foldl_cons, ih _ h.2, List.reverse_cons, List.append_assoc, List.singleton_append]
      cases component with
      | normal name => rfl
      | rootDir => cases h.1
      | curDir => cases h.1
      | parentDir => cases h.1

theorem normalize_join (h : (components path).all Component.isNormal = true) :
    normalize (join root path) = normalize root ++ components path := by
  rw [normalize, components_join h, List.foldl_append, foldl_normalizeStep _ _ h,
    List.reverse_append, List.reverse_reverse, normalize]

theorem liesUnder_join (h : (components path).all Component.isNormal = true) :
    LiesUnder root (join root path) := by
  rw [LiesUnder, normalize_join h]
  exact List.prefix_append _ _

end AnvilRun.UnixPath
