import Mathlib.Logic.Basic
import Mathlib.Data.List.Basic

namespace AnvilRun

/-- The rows of a database table by their key. The keys stand in the order of insertion. -/
structure Table (Key Row : Type) where
  keys : List Key
  row : Key → Option Row
  mem_keys : ∀ key, key ∈ keys ↔ ∃ r, row key = some r

namespace Table

variable {Key Row : Type}

def empty : Table Key Row where
  keys := []
  row := fun _ => none
  mem_keys := by
    intro key
    simp

/-- All rows with their keys. -/
def entries (t : Table Key Row) : List (Key × Row) :=
  t.keys.filterMap (fun key => (t.row key).map (key, ·))

@[simp]
theorem empty_row (key : Key) : (empty : Table Key Row).row key = none := rfl

theorem mem_entries {t : Table Key Row} {key : Key} {r : Row} :
    (key, r) ∈ t.entries ↔ t.row key = some r := by
  rw [entries, List.mem_filterMap]
  constructor
  · rintro ⟨k, -, h⟩
    obtain ⟨r', hr', hpair⟩ := Option.map_eq_some_iff.mp h
    obtain ⟨rfl, rfl⟩ := Prod.mk.inj hpair
    exact hr'
  · intro h
    exact ⟨key, (t.mem_keys key).mpr ⟨r, h⟩, by rw [h]; rfl⟩

/-- Change every row. -/
def map (t : Table Key Row) (f : Key → Row → Row) : Table Key Row where
  keys := t.keys
  row := fun key => (t.row key).map (f key)
  mem_keys := by
    intro key
    rw [t.mem_keys]
    simp

@[simp]
theorem map_row (t : Table Key Row) (f : Key → Row → Row) (key : Key) :
    (t.map f).row key = (t.row key).map (f key) := rfl

variable [DecidableEq Key]

/-- The table with one row. -/
def single (key : Key) (r : Row) : Table Key Row where
  keys := [key]
  row := fun k => if k = key then some r else none
  mem_keys := by
    intro k
    rw [List.mem_singleton]
    by_cases hk : k = key
    · simp [hk]
    · simp [hk]

/-- Change the row with this key, if there is one. -/
def modify (t : Table Key Row) (key : Key) (f : Row → Row) : Table Key Row where
  keys := t.keys
  row := fun k => if k = key then (t.row k).map f else t.row k
  mem_keys := by
    intro k
    rw [t.mem_keys]
    split
    · simp
    · rfl

/-- Add a row; nothing if the key is taken. -/
def insert (t : Table Key Row) (key : Key) (r : Row) : Option (Table Key Row) :=
  if h : t.row key = none then
    some {
      keys := t.keys ++ [key]
      row := fun k => if k = key then some r else t.row k
      mem_keys := by
        intro k
        rw [List.mem_append, List.mem_singleton, t.mem_keys]
        by_cases hk : k = key
        · subst hk
          simp [h]
        · simp [hk] }
  else none

/-- Delete the row with this key, if there is one. -/
def erase (t : Table Key Row) (key : Key) : Table Key Row where
  keys := t.keys.filter (fun k => k ≠ key)
  row := fun k => if k = key then none else t.row k
  mem_keys := by
    intro k
    rw [List.mem_filter, t.mem_keys]
    by_cases hk : k = key
    · simp [hk]
    · simp [hk]

theorem modify_row (t : Table Key Row) (key k : Key) (f : Row → Row) :
    (t.modify key f).row k = if k = key then (t.row k).map f else t.row k := rfl

@[simp]
theorem modify_row_self (t : Table Key Row) (key : Key) (f : Row → Row) :
    (t.modify key f).row key = (t.row key).map f := by
  rw [modify_row, if_pos rfl]

theorem modify_row_of_ne (t : Table Key Row) {key k : Key} (h : k ≠ key) (f : Row → Row) :
    (t.modify key f).row k = t.row k := by
  rw [modify_row, if_neg h]

theorem erase_row (t : Table Key Row) (key k : Key) :
    (t.erase key).row k = if k = key then none else t.row k := rfl

theorem insert_row {t t' : Table Key Row} {key : Key} {r : Row} (h : t.insert key r = some t')
    (k : Key) : t'.row k = if k = key then some r else t.row k := by
  rw [insert] at h
  split at h
  · obtain rfl := Option.some.inj h
    rfl
  · exact absurd h (by simp)

theorem insert_fresh {t t' : Table Key Row} {key : Key} {r : Row} (h : t.insert key r = some t') :
    t.row key = none := by
  rw [insert] at h
  split at h
  · assumption
  · exact absurd h (by simp)

end Table

end AnvilRun
