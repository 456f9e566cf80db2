import AnvilRun.HoldBack
import Mathlib.Data.String.Defs

namespace AnvilRun.AgentRedactor

open AnvilRun.Replacement
open AnvilRun.Masking
open AnvilRun.HoldBack

/-- A Rust string: the characters that its UTF-8 bytes encode. -/
abbrev Text := List Char

/-- `str::len`: the number of UTF-8 bytes. -/
def byteLen : Text → Nat
  | [] => 0
  | c :: s => c.utf8Size + byteLen s

/-- `str::is_char_boundary`. -/
def isCharBoundary : Text → Nat → Bool
  | _, 0 => true
  | [], _ + 1 => false
  | c :: s, n => decide (c.utf8Size ≤ n) && isCharBoundary s (n - c.utf8Size)

/-- `&s[..n]` and `&s[n..]` for a character boundary `n`. -/
def splitAtByte : Text → Nat → Text × Text
  | s, 0 => ([], s)
  | [], _ + 1 => ([], [])
  | c :: s, n + 1 =>
      let rest := splitAtByte s (n + 1 - c.utf8Size)
      (c :: rest.1, rest.2)

/-- `str::char_indices`: the byte offset of every character. -/
def charIndices : Text → List Nat
  | [] => []
  | c :: s => 0 :: (charIndices s).map (c.utf8Size + ·)

/-- The loop that moves a cut back to a character boundary. -/
def floorCharBoundary (s : Text) : Nat → Nat
  | 0 => 0
  | n + 1 => if isCharBoundary s (n + 1) then n + 1 else floorCharBoundary s n

def redactedMarker : Text := "[REDACTED]".toList

def redactText (text : Text) (values : List Text) : Text :=
  maskAll redactedMarker values text

/-- The redactor of one output stream. Its values are never empty and stand longest first. -/
structure SensitiveLogRedactor where
  values : List Text
  pending : Text
  values_ne_nil : ∀ value ∈ values, value ≠ []
  values_sorted : values.Pairwise (fun v w => byteLen w ≤ byteLen v)
  deriving DecidableEq

/-- `sort_by_key(|value| Reverse(value.len()))`. -/
def sortByLength (values : List Text) : List Text :=
  longestFirst byteLen values

/-- `Vec::dedup`: drop a value equal to the one kept before it. -/
def dedup : List Text → List Text
  | [] => []
  | [v] => [v]
  | v :: w :: values => if v = w then dedup (w :: values) else v :: dedup (w :: values)

theorem dedup_sublist (values : List Text) : (dedup values).Sublist values := by
  fun_induction dedup values with
  | case1 => exact List.Sublist.refl _
  | case2 v => exact List.Sublist.refl _
  | case3 v values ih => exact ih.trans (List.sublist_cons_self _ _)
  | case4 v w values hne ih => exact ih.cons_cons v

theorem mem_dedup {value : Text} {values : List Text} :
    value ∈ dedup values ↔ value ∈ values := by
  fun_induction dedup values with
  | case1 => rfl
  | case2 v => rfl
  | case3 v values ih => simp [ih]
  | case4 v w values hne ih => simp [ih]

/-- The redactor over collected values: empty ones are dropped, the rest sorted and
deduplicated. -/
def SensitiveLogRedactor.ofValues (collected : List Text) : SensitiveLogRedactor where
  values := dedup (sortByLength (collected.filter (fun value => decide (value ≠ []))))
  pending := []
  values_ne_nil := by
    intro value hvalue
    have hmem := mem_longestFirst.mp (mem_dedup.mp hvalue)
    simpa using (List.mem_filter.mp hmem).2
  values_sorted := (longestFirst_sorted byteLen _).sublist (dedup_sublist _)

/-- The end of the longest proper value prefix that ends `safePrefix`, in bytes. -/
def overlapLen (values : List Text) (safePrefix : Text) : Nat :=
  values.foldl (fun overlap value =>
    ((charIndices value).drop 1).foldl (fun overlap prefixLen =>
      if prefixLen < byteLen value ∧ prefixLen ≤ byteLen safePrefix ∧
          (splitAtByte value prefixLen).1 <:+ safePrefix
      then max overlap prefixLen
      else overlap) overlap) 0

def maxValueLen (values : List Text) : Nat :=
  (values.map byteLen).foldl max 0

/-- Where `redact` cuts the text it has: what stands before is masked and returned. -/
def processEnd (values : List Text) (combined : Text) : Nat :=
  let split := floorCharBoundary combined (byteLen combined - maxValueLen values)
  split - overlapLen values (splitAtByte combined split).1

def SensitiveLogRedactor.redact (r : SensitiveLogRedactor) (chunk : Text) :
    Text × SensitiveLogRedactor :=
  if r.values = [] then (chunk, r)
  else
    let combined := r.pending ++ chunk
    if byteLen combined ≤ maxValueLen r.values then ([], { r with pending := combined })
    else
      let cut := splitAtByte combined (processEnd r.values combined)
      (redactText cut.1 r.values, { r with pending := cut.2 })

/-- A line typed into the command's terminal becomes a value as well. -/
def SensitiveLogRedactor.addSensitiveValue (r : SensitiveLogRedactor) (value : Text) :
    SensitiveLogRedactor :=
  if h : value = [] ∨ value ∈ r.values then r
  else
    { r with
      values := sortByLength (r.values ++ [value])
      values_ne_nil := by
        intro v hv
        rcases List.mem_append.mp (mem_longestFirst.mp hv) with hv | hv
        · exact r.values_ne_nil v hv
        · rw [List.mem_singleton.mp hv]
          exact fun hnil => h (Or.inl hnil)
      values_sorted := longestFirst_sorted byteLen _ }

def SensitiveLogRedactor.finish (r : SensitiveLogRedactor) : Text × SensitiveLogRedactor :=
  (redactText r.pending r.values, { r with pending := [] })

/-- Everything that leaves the redactor when the chunks are fed in order and the stream is
then finished. -/
def SensitiveLogRedactor.redactAll (r : SensitiveLogRedactor) : List Text → Text
  | [] => r.finish.1
  | chunk :: chunks => (r.redact chunk).1 ++ (r.redact chunk).2.redactAll chunks

@[simp]
theorem byteLen_append (x y : Text) : byteLen (x ++ y) = byteLen x + byteLen y := by
  induction x with
  | nil => simp [byteLen]
  | cons c x ih => simp [byteLen, ih, Nat.add_assoc]

theorem byteLen_pos {s : Text} (hs : s ≠ []) : 0 < byteLen s := by
  obtain ⟨c, s, rfl⟩ := List.exists_cons_of_ne_nil hs
  have hc := c.utf8Size_pos
  simp only [byteLen]
  omega

theorem eq_of_infix_of_byteLen_le {u s : Text} (hu : u <:+: s) (hle : byteLen s ≤ byteLen u) :
    u = s := by
  obtain ⟨x, y, rfl⟩ := hu
  simp only [byteLen_append] at hle
  have hx : x = [] := by
    by_contra hne
    have := byteLen_pos hne
    omega
  have hy : y = [] := by
    by_contra hne
    have := byteLen_pos hne
    omega
  simp [hx, hy]

theorem suffixWeight_byteLen : SuffixWeight byteLen :=
  ⟨rfl, fun _ _ hu hle => eq_of_infix_of_byteLen_le hu.isInfix hle⟩

theorem splitAtByte_append (x y : Text) : splitAtByte (x ++ y) (byteLen x) = (x, y) := by
  induction x with
  | nil => cases y <;> rfl
  | cons c x ih =>
      have hc := c.utf8Size_pos
      obtain ⟨n, hn⟩ : ∃ n, byteLen (c :: x) = n + 1 := ⟨byteLen (c :: x) - 1, by
        simp only [byteLen]
        omega⟩
      have hx : n + 1 - c.utf8Size = byteLen x := by
        rw [← hn]
        simp only [byteLen]
        omega
      rw [hn, List.cons_append, splitAtByte, hx, ih]

theorem exists_cut_of_isCharBoundary {s : Text} {n : Nat} (h : isCharBoundary s n = true) :
    ∃ x y, s = x ++ y ∧ byteLen x = n := by
  fun_induction isCharBoundary s n with
  | case1 s => exact ⟨[], s, rfl, rfl⟩
  | case2 n => simp at h
  | case3 c s n hn ih =>
      simp only [Bool.and_eq_true, decide_eq_true_eq] at h
      obtain ⟨x, y, rfl, hx⟩ := ih h.2
      refine ⟨c :: x, y, rfl, ?_⟩
      simp only [byteLen] at hx ⊢
      omega

theorem exists_cut_floorCharBoundary (s : Text) (n : Nat) :
    ∃ x y, s = x ++ y ∧ byteLen x = floorCharBoundary s n ∧ byteLen x ≤ n := by
  induction n with
  | zero => exact ⟨[], s, rfl, rfl, le_rfl⟩
  | succ n ih =>
      by_cases h : isCharBoundary s (n + 1) = true
      · obtain ⟨x, y, hs, hx⟩ := exists_cut_of_isCharBoundary h
        exact ⟨x, y, hs, by simp [floorCharBoundary, h, hx], hx.le⟩
      · obtain ⟨x, y, hs, hx, hle⟩ := ih
        exact ⟨x, y, hs, by simp [floorCharBoundary, h, hx], by omega⟩

theorem isCharBoundary_append (x y : Text) : isCharBoundary (x ++ y) (byteLen x) = true := by
  induction x with
  | nil => cases y <;> rfl
  | cons c x ih =>
      have hc := c.utf8Size_pos
      have hsplit : byteLen (c :: x) = c.utf8Size + byteLen x := rfl
      obtain ⟨n, hn⟩ : ∃ n, byteLen (c :: x) = n + 1 :=
        ⟨byteLen (c :: x) - 1, by omega⟩
      have hx : n + 1 - c.utf8Size = byteLen x := by omega
      rw [hn, List.cons_append, isCharBoundary, hx, ih]
      · simp
        omega
      · omega

theorem floorCharBoundary_append (x y : Text) :
    floorCharBoundary (x ++ y) (byteLen x) = byteLen x := by
  cases hn : byteLen x with
  | zero => rfl
  | succ n =>
      have := isCharBoundary_append x y
      rw [hn] at this
      simp [floorCharBoundary, this]

theorem le_floorCharBoundary {s : Text} {m n : Nat} (h : isCharBoundary s m = true) (hle : m ≤ n) :
    m ≤ floorCharBoundary s n := by
  induction n with
  | zero => exact hle
  | succ n ih =>
      rw [floorCharBoundary]
      split
      · exact hle
      · rename_i hnot
        refine ih (Nat.le_of_lt_succ (Nat.lt_of_le_of_ne hle ?_))
        rintro rfl
        exact hnot h

/-- A cut is moved back by less than one character. -/
theorem le_floorCharBoundary_add {s : Text} {n : Nat} (h : n ≤ byteLen s) :
    n ≤ floorCharBoundary s n + 3 := by
  have hcut : ∀ (s : Text) (n : Nat), n ≤ byteLen s →
      ∃ x y, s = x ++ y ∧ byteLen x ≤ n ∧ n ≤ byteLen x + 3 := by
    intro s
    induction s with
    | nil =>
        intro n hn
        exact ⟨[], [], rfl, Nat.zero_le _, Nat.le_add_right_of_le hn⟩
    | cons c s ih =>
        intro n hn
        have hc := c.utf8Size_le_four
        by_cases hlt : n < c.utf8Size
        · exact ⟨[], c :: s, rfl, Nat.zero_le _, by simp only [byteLen]; omega⟩
        · simp only [byteLen] at hn
          obtain ⟨x, y, rfl, hle, hclose⟩ := ih (n - c.utf8Size) (by omega)
          refine ⟨c :: x, y, rfl, ?_, ?_⟩
          all_goals
            simp only [byteLen]
            omega
  obtain ⟨x, y, rfl, hle, hclose⟩ := hcut s n h
  have hfloor := le_floorCharBoundary (isCharBoundary_append x y) hle
  omega

theorem mem_charIndices {n : Nat} {s : Text} :
    n ∈ charIndices s ↔ ∃ u w, w ≠ [] ∧ s = u ++ w ∧ n = byteLen u := by
  induction s generalizing n with
  | nil =>
      simp only [charIndices, List.not_mem_nil, false_iff]
      rintro ⟨u, w, hw, hs, -⟩
      exact hw (List.append_eq_nil_iff.mp hs.symm).2
  | cons c s ih =>
      simp only [charIndices, List.mem_cons, List.mem_map, ih]
      constructor
      · rintro (rfl | ⟨m, ⟨u, w, hw, rfl, rfl⟩, rfl⟩)
        · exact ⟨[], c :: s, by simp, rfl, rfl⟩
        · exact ⟨c :: u, w, hw, rfl, rfl⟩
      · rintro ⟨u, w, hw, hs, rfl⟩
        cases u with
        | nil => exact Or.inl rfl
        | cons d u =>
            simp only [List.cons_append, List.cons.injEq] at hs
            exact Or.inr ⟨byteLen u, ⟨u, w, hw, hs.2, rfl⟩, by rw [hs.1]; rfl⟩

theorem mem_charIndices_skip {n : Nat} {s : Text} :
    n ∈ (charIndices s).drop 1 ↔ ∃ u w, u ≠ [] ∧ w ≠ [] ∧ s = u ++ w ∧ n = byteLen u := by
  cases s with
  | nil =>
      simp only [charIndices, List.drop_nil, List.not_mem_nil, false_iff]
      rintro ⟨u, w, hu, -, hs, -⟩
      exact hu (List.append_eq_nil_iff.mp hs.symm).1
  | cons c s =>
      simp only [charIndices, List.drop_succ_cons, List.drop_zero, List.mem_map, mem_charIndices]
      constructor
      · rintro ⟨m, ⟨u, w, hw, rfl, rfl⟩, rfl⟩
        exact ⟨c :: u, w, by simp, hw, rfl, rfl⟩
      · rintro ⟨u, w, hu, hw, hs, rfl⟩
        obtain ⟨d, u, rfl⟩ := List.exists_cons_of_ne_nil hu
        simp only [List.cons_append, List.cons.injEq] at hs
        exact ⟨byteLen u, ⟨u, w, hw, hs.2, rfl⟩, by rw [hs.1]; rfl⟩

/-- `overlapLen` measures the longest border. -/
theorem overlapLen_isMax (values : List Text) (safePrefix : Text) :
    IsMax 0 (fun n => ∃ u, Border values safePrefix u ∧ n = byteLen u)
      (overlapLen values safePrefix) := by
  refine (isMax_foldl _ _ (fun a value => isMax_foldl _ _ (fun a n => isMax_ite a n _)
    ((charIndices value).drop 1) a) values 0).congr (fun n => ?_)
  constructor
  · rintro ⟨value, hvalue, m, hm, ⟨-, -, hsuffix⟩, rfl⟩
    obtain ⟨u, w, hu, hw, rfl, rfl⟩ := mem_charIndices_skip.mp hm
    rw [splitAtByte_append] at hsuffix
    exact ⟨u, ⟨hu, hsuffix, _, hvalue, w, hw, rfl⟩, rfl⟩
  · rintro ⟨u, ⟨hu, hsuffix, value, hvalue, w, hw, rfl⟩, rfl⟩
    refine ⟨u ++ w, hvalue, byteLen u, mem_charIndices_skip.mpr ⟨u, w, hu, hw, rfl, rfl⟩,
      ⟨?_, ?_, ?_⟩, rfl⟩
    · have := byteLen_pos hw
      rw [byteLen_append]
      omega
    · obtain ⟨x, rfl⟩ := hsuffix
      rw [byteLen_append]
      omega
    · rwa [splitAtByte_append]

theorem byteLen_le_maxValueLen {values : List Text} {value : Text} (h : value ∈ values) :
    byteLen value ≤ maxValueLen values := by
  have hmax : ∀ (l : List Nat) (a : Nat), a ≤ l.foldl max a ∧ ∀ n ∈ l, n ≤ l.foldl max a := by
    intro l
    induction l with
    | nil => simp
    | cons m l ih =>
        intro a
        obtain ⟨hinit, hle⟩ := ih (max a m)
        refine ⟨by simp only [List.foldl_cons]; omega, fun n hn => ?_⟩
        rcases List.mem_cons.mp hn with rfl | hn
        · simp only [List.foldl_cons]
          omega
        · exact hle n hn
  exact (hmax _ 0).2 _ (List.mem_map_of_mem h)

/-- The cut of a flushing `redact`: behind it come the longest border of the text checked and
at least as many bytes as the longest value has. -/
def FlushCut (values : List Text) (x y : Text) : Prop :=
  ∃ o rest, y = o ++ rest ∧ LongestBorder values (x ++ o) o ∧
    ∀ value ∈ values, byteLen value ≤ byteLen rest

/-- The three parts of a text that is flushed: what is masked, the longest border, and the bytes
behind the safe prefix. -/
theorem exists_processEnd {values : List Text} {combined : Text}
    (hlong : maxValueLen values < byteLen combined) :
    ∃ x o rest, combined = x ++ (o ++ rest) ∧
      splitAtByte combined (processEnd values combined) = (x, o ++ rest) ∧
      LongestBorder values (x ++ o) o ∧ maxValueLen values ≤ byteLen rest ∧
      byteLen rest ≤ maxValueLen values + 3 := by
  obtain ⟨safe, rest, hcombined, hsafe, hle⟩ :=
    exists_cut_floorCharBoundary combined (byteLen combined - maxValueLen values)
  have hclose := @le_floorCharBoundary_add combined _
    (Nat.sub_le (byteLen combined) (maxValueLen values))
  obtain ⟨o, ho, hoverlap⟩ :=
    exists_longestBorder suffixWeight_byteLen (overlapLen_isMax values safe)
  obtain ⟨x, rfl⟩ := ho.suffix
  have hend : processEnd values combined = byteLen x := by
    simp only [processEnd]
    rw [← hsafe, hcombined, splitAtByte_append, ← hoverlap, byteLen_append]
    omega
  have hlength := congrArg byteLen hcombined
  rw [byteLen_append] at hlength
  refine ⟨x, o, rest, by rw [hcombined, List.append_assoc], ?_, ho, by omega, by omega⟩
  rw [hend, hcombined, List.append_assoc, splitAtByte_append]

theorem splitAtByte_processEnd {values : List Text} {combined : Text}
    (hlong : maxValueLen values < byteLen combined) :
    ∃ x y, combined = x ++ y ∧ splitAtByte combined (processEnd values combined) = (x, y) ∧
      FlushCut values x y := by
  obtain ⟨x, o, rest, hcombined, hsplit, ho, hrest, -⟩ := exists_processEnd hlong
  exact ⟨x, o ++ rest, hcombined, hsplit, o, rest, rfl, ho,
    fun value hvalue => (byteLen_le_maxValueLen hvalue).trans hrest⟩

/-- One call of `redact` masks a part `x` of the text it has and keeps the rest `y`. -/
theorem redact_spec (r : SensitiveLogRedactor) (hempty : r.values = [] → r.pending = [])
    (chunk : Text) :
    ∃ x y, r.pending ++ chunk = x ++ y ∧
      r.redact chunk = (redactText x r.values, { r with pending := y }) ∧
      (r.values = [] ∧ y = [] ∨ r.values ≠ [] ∧ (x = [] ∨ FlushCut r.values x y)) := by
  by_cases hvalues : r.values = []
  · refine ⟨chunk, [], by simp [hempty hvalues], ?_, Or.inl ⟨hvalues, rfl⟩⟩
    rcases r with ⟨values, pending, hne, hsorted⟩
    obtain rfl : values = [] := hvalues
    obtain rfl : pending = [] := hempty rfl
    simp [SensitiveLogRedactor.redact, redactText]
  · by_cases hshort : byteLen (r.pending ++ chunk) ≤ maxValueLen r.values
    · refine ⟨[], r.pending ++ chunk, rfl, ?_, Or.inr ⟨hvalues, Or.inl rfl⟩⟩
      simp only [SensitiveLogRedactor.redact, hvalues, if_false, hshort, if_true]
      simp [redactText]
    · obtain ⟨x, y, hcombined, hsplit, hcut⟩ := splitAtByte_processEnd (Nat.lt_of_not_le hshort)
      refine ⟨x, y, hcombined, ?_, Or.inr ⟨hvalues, Or.inr hcut⟩⟩
      simp only [SensitiveLogRedactor.redact, hvalues, if_false, hshort, hsplit]

/-- A value starts with `s` and goes on after it. -/
def ProperValuePrefix (values : List Text) (s : Text) : Prop :=
  ∃ z ∈ values, z ≠ s ∧ s <+: z

instance (values : List Text) (s : Text) : Decidable (ProperValuePrefix values s) :=
  inferInstanceAs (Decidable (∃ z ∈ values, z ≠ s ∧ s <+: z))

/-- No flush can end inside a value: whenever a value `v` ends with a proper value prefix,
running on to the end of that other value `w` still leaves a proper prefix of some value. -/
def FlushSafe (values : List Text) : Prop :=
  ∀ v ∈ values, ∀ w ∈ values, ∀ k < w.length, 0 < k → k < v.length → w.take k <:+ v →
    ProperValuePrefix values (v ++ (w.take (w.length - 1)).drop k)

instance (values : List Text) : Decidable (FlushSafe values) :=
  inferInstanceAs (Decidable (∀ v ∈ values, ∀ w ∈ values, ∀ k < w.length, 0 < k →
    k < v.length → w.take k <:+ v →
      ProperValuePrefix values (v ++ (w.take (w.length - 1)).drop k)))

/-- However the text is cut into chunks, the redactor returns what masking the whole text
gives, and no value is left in it. -/
def ChunkIndependent (r : SensitiveLogRedactor) : Prop :=
  ∀ chunks : List Text, r.redactAll chunks = redactText chunks.flatten r.values ∧
    ∀ value ∈ r.values, ¬ value <:+: r.redactAll chunks

theorem FlushCut.cleanCut {values : List Text} (hsafe : FlushSafe values) {x y : Text}
    (h : FlushCut values x y) (later : Text) : CleanCut values x (y ++ later) := by
  obtain ⟨o, rest, rfl, ho, -⟩ := h
  rintro value hvalue ⟨u, w, hu, hw, rfl, hux, hwy⟩
  rw [List.append_assoc] at hwy
  obtain ⟨o', rfl⟩ := ho.ends_inside hvalue hu hux hwy
  -- the border `w ++ o'` starts a value `w ++ o' ++ t`, whose prefix `w` ends `u ++ w`
  rcases ho.border with hnil | ⟨-, -, z, hz, t, ht, rfl⟩
  · exact hw (List.append_eq_nil_iff.mp hnil).1
  · have hupos := List.length_pos_of_ne_nil hu
    have hwpos := List.length_pos_of_ne_nil hw
    have htpos := List.length_pos_of_ne_nil ht
    obtain ⟨z', hz', hne, t', hlonger⟩ := hsafe (u ++ w) hvalue (w ++ o' ++ t) hz w.length
      (by simp; omega) hwpos (by simp; omega)
      (by rw [List.append_assoc, List.take_left]; exact List.suffix_append u w)
    have ht' : t' ≠ [] := by
      rintro rfl
      exact hne (by rw [← hlonger, List.append_nil])
    -- so `u ++ w ++ o'` is a border too, and longer than the longest one
    obtain ⟨s, hs⟩ : ∃ s, z' = u ++ w ++ o' ++ (s ++ t') := by
      obtain ⟨t₀, c, rfl⟩ : ∃ t₀ c, t = t₀ ++ [c] := ⟨_, _, (List.dropLast_concat_getLast ht).symm⟩
      refine ⟨t₀, ?_⟩
      have htake : (w ++ o' ++ (t₀ ++ [c])).take ((w ++ o' ++ (t₀ ++ [c])).length - 1)
          = w ++ (o' ++ t₀) := by
        rw [← List.append_assoc, List.length_append, List.length_singleton, Nat.add_sub_cancel,
          List.take_left, List.append_assoc]
      rw [← hlonger, htake, List.drop_left]
      simp
    have hborder : Border values (x ++ (w ++ o')) (u ++ w ++ o') := by
      refine ⟨by simp [hu], ?_, z', hz', s ++ t', by simp [ht'], hs⟩
      obtain ⟨x', rfl⟩ := hux
      exact ⟨x', by simp⟩
    have hlength := (ho.longest _ hborder).length_le
    simp only [List.length_append] at hlength
    omega

theorem redactAll_eq_of_flushSafe (r : SensitiveLogRedactor)
    (hsep : Separated redactedMarker r.values) (hsafe : FlushSafe r.values)
    (hempty : r.values = [] → r.pending = []) (chunks : List Text) :
    r.redactAll chunks = redactText (r.pending ++ chunks.flatten) r.values := by
  induction chunks generalizing r with
  | nil => simp [SensitiveLogRedactor.redactAll, SensitiveLogRedactor.finish]
  | cons chunk chunks ih =>
      obtain ⟨x, y, hxy, hredact, hcut⟩ := redact_spec r hempty chunk
      have hclean : CleanCut r.values x (y ++ chunks.flatten) := by
        rcases hcut with ⟨hvalues, -⟩ | ⟨-, rfl | hcut⟩
        · intro value hvalue
          simp [hvalues] at hvalue
        · rintro value - ⟨u, w, hu, -, -, hux, -⟩
          exact hu (List.suffix_nil.mp hux)
        · exact hcut.cleanCut hsafe _
      have hnext : r.values = [] → y = [] := by
        intro hvalues
        rcases hcut with ⟨-, hy⟩ | ⟨hne, -⟩
        · exact hy
        · exact absurd hvalues hne
      have hrest := ih { r with pending := y } hsep hsafe hnext
      rw [SensitiveLogRedactor.redactAll, hredact, List.flatten_cons, ← List.append_assoc, hxy,
        List.append_assoc, hrest]
      exact (maskAll_append hsep hclean).symm

theorem chunkIndependent_of_flushSafe (r : SensitiveLogRedactor) (hfresh : r.pending = [])
    (hsep : Separated redactedMarker r.values) (hsafe : FlushSafe r.values) :
    ChunkIndependent r := by
  intro chunks
  have hall : r.redactAll chunks = redactText chunks.flatten r.values := by
    rw [redactAll_eq_of_flushSafe r hsep hsafe (fun _ => hfresh), hfresh, List.nil_append]
  refine ⟨hall, fun value hvalue => ?_⟩
  rw [hall]
  exact not_infix_maskAll hsep hvalue _

theorem redactText_value (r : SensitiveLogRedactor) (hsep : Separated redactedMarker r.values)
    {value : Text} (hvalue : value ∈ r.values) :
    redactText value r.values = redactedMarker :=
  maskAll_self hsep
    (r.values_sorted.imp (fun hle hocc => eq_of_infix_of_byteLen_le hocc hle)) hvalue

/-- The text that shows a value `v` being cut: `v` itself, then as many `[` as the longest
value has bytes, so that everything behind `v` is held back. -/
def flushedText (values : List Text) (v : Text) : Text :=
  v ++ List.replicate (maxValueLen values) '['

theorem byteLen_padding (n : Nat) : byteLen (List.replicate n '[') = n := by
  induction n with
  | zero => rfl
  | succ n ih =>
      rw [List.replicate_succ, byteLen]
      change 1 + byteLen (List.replicate n '[') = n + 1
      rw [ih, Nat.add_comm]

/-- A value that ends with a proper value prefix, and is no proper value prefix itself, is cut
in two by the flush right behind it. -/
theorem not_chunkIndependent_of_border (r : SensitiveLogRedactor) (hfresh : r.pending = [])
    (hsep : Separated redactedMarker r.values) {v u : Text} (hv : v ∈ r.values)
    (hborder : Border r.values v u) (hself : ¬ Border r.values v v) :
    ¬ ChunkIndependent r := by
  intro hindependent
  have hpad : ∀ a ∈ List.replicate (maxValueLen r.values) '[', ∀ value ∈ r.values, a ∉ value := by
    intro a ha value hvalue hmem
    rw [List.eq_of_mem_replicate ha] at hmem
    exact hsep.value_disjoint value hvalue hmem (by decide)
  obtain ⟨o, ho, hoverlap⟩ :=
    exists_longestBorder suffixWeight_byteLen (overlapLen_isMax r.values v)
  obtain ⟨x, hx⟩ := ho.suffix
  have hone : o ≠ [] := by
    rintro rfl
    exact hborder.1 (List.suffix_nil.mp (ho.longest u hborder))
  have hxne : x ≠ [] := by
    rintro rfl
    rcases ho.border with hnil | hproper
    · exact hone hnil
    · rw [List.nil_append] at hx
      exact hself (hx ▸ hproper)
  have hvalues : r.values ≠ [] := List.ne_nil_of_mem hv
  have hlen : byteLen (flushedText r.values v) = byteLen v + maxValueLen r.values := by
    rw [flushedText, byteLen_append, byteLen_padding]
  have hvpos := byteLen_pos (r.values_ne_nil v hv)
  have hend : processEnd r.values (flushedText r.values v) = byteLen x := by
    have hsplit := byteLen_append x o
    rw [hx, hoverlap] at hsplit
    simp only [processEnd]
    rw [hlen, Nat.add_sub_cancel, flushedText, floorCharBoundary_append, splitAtByte_append,
      hsplit, Nat.add_sub_cancel]
  have hcut : splitAtByte (flushedText r.values v) (byteLen x)
      = (x, o ++ List.replicate (maxValueLen r.values) '[') := by
    rw [flushedText, ← hx, List.append_assoc, splitAtByte_append]
  have hredact : r.redact (flushedText r.values v) = (redactText x r.values,
      { r with pending := o ++ List.replicate (maxValueLen r.values) '[' }) := by
    have hlong : ¬ byteLen (flushedText r.values v) ≤ maxValueLen r.values := by omega
    simp only [SensitiveLogRedactor.redact, hvalues, if_false, hfresh, List.nil_append, hlong,
      hend, hcut]
  have hall := (hindependent [flushedText r.values v]).1
  rw [SensitiveLogRedactor.redactAll, hredact, SensitiveLogRedactor.redactAll,
    List.flatten_singleton, flushedText] at hall
  simp only [SensitiveLogRedactor.finish, redactText] at hall
  have hmasked : maskAll redactedMarker r.values v = redactedMarker :=
    redactText_value r hsep hv
  rw [maskAll_append_padding hsep hpad, maskAll_append_padding hsep hpad, hmasked] at hall
  obtain ⟨c, x, rfl⟩ := List.exists_cons_of_ne_nil hxne
  have hc : c ∉ redactedMarker := hsep.value_disjoint v hv (by simp [← hx])
  exact maskAll_append_maskAll_ne_mask hsep hc x hone _ hall

/-- No value is a proper prefix of another one. -/
def PrefixFree (values : List Text) : Prop :=
  ∀ v ∈ values, ∀ w ∈ values, v <+: w → v = w

theorem flushSafe_of_chunkIndependent (r : SensitiveLogRedactor) (hfresh : r.pending = [])
    (hsep : Separated redactedMarker r.values) (hprefixFree : PrefixFree r.values)
    (h : ChunkIndependent r) : FlushSafe r.values := by
  intro v hv w hw k hkw hk hkv hsuffix
  have hborder : Border r.values v (w.take k) := by
    refine ⟨?_, hsuffix, w, hw, w.drop k, ?_, (List.take_append_drop k w).symm⟩
    · exact List.ne_nil_of_length_pos (by rw [List.length_take]; omega)
    · exact List.ne_nil_of_length_pos (by rw [List.length_drop]; omega)
  have hself : ¬ Border r.values v v := by
    rintro ⟨-, -, z, hz, t, ht, rfl⟩
    have hvz := hprefixFree v hv _ hz (List.prefix_append v t)
    exact ht (List.self_eq_append_right.mp hvz)
  exact absurd h (not_chunkIndependent_of_border r hfresh hsep hv hborder hself)

/-- Redaction in chunks is masking the whole text when no flush can end inside a value; where
no value is a prefix of another one it is so only then. -/
theorem redactAll_chunkIndependent (r : SensitiveLogRedactor) (hfresh : r.pending = [])
    (hdisjoint : ∀ value ∈ r.values, SharesNoSymbol redactedMarker value) :
    (FlushSafe r.values → ChunkIndependent r) ∧
      (PrefixFree r.values → (ChunkIndependent r ↔ FlushSafe r.values)) := by
  have hsep : Separated redactedMarker r.values :=
    ⟨by decide, r.values_ne_nil, fun value hvalue c hc => hdisjoint value hvalue c hc⟩
  have hsafe := chunkIndependent_of_flushSafe r hfresh hsep
  exact ⟨hsafe, fun hprefixFree =>
    ⟨flushSafe_of_chunkIndependent r hfresh hsep hprefixFree, hsafe⟩⟩

/-- Two values without overlaps, held by a redactor to which the result applies. -/
theorem redactAll_chunkIndependent_wordlist :
    ChunkIndependent (.ofValues ["hunter".toList, "wordlist".toList]) := by
  exact (redactAll_chunkIndependent _ rfl (by decide)).1 (by decide)

/-- A value that ends as it begins is printed in full. -/
theorem redactAll_abab_not_chunkIndependent :
    ¬ ChunkIndependent (.ofValues ["abab".toList, "\"abab\"".toList]) ∧
      "abab".toList <:+:
        (SensitiveLogRedactor.ofValues ["abab".toList, "\"abab\"".toList]).redactAll
          ["password: abab".toList, " again".toList] := by
  refine ⟨fun h => absurd (h ["password: abab".toList, " again".toList]).1 (by decide), by decide⟩

end AnvilRun.AgentRedactor
