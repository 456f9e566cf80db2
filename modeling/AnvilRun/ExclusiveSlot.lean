namespace AnvilRun.ExclusiveSlot

variable {Owner Item : Type}

/-- Owners with one slot each. An owner points to the item in its slot, an item belongs to at
most one owner, and an item itself says whether it holds the slot of its owner. -/
structure Slots (Owner Item : Type) where
  active : Owner → Option Item
  owner : Item → Option Owner
  holds : Item → Prop

namespace Slots

/-- The pointers and the items agree. -/
def Consistent (s : Slots Owner Item) : Prop :=
  ∀ o i, s.active o = some i ↔ s.owner i = some o ∧ s.holds i

/-- Nothing that counts for the slots has changed. -/
structure Stays (s t : Slots Owner Item) : Prop where
  active : ∀ o, t.active o = s.active o
  owner : ∀ i, t.owner i = s.owner i
  holds : ∀ i, t.holds i ↔ s.holds i

/-- A new item came that does not hold a slot. -/
structure Registers (s t : Slots Owner Item) (i : Item) : Prop where
  fresh : s.owner i = none
  active : ∀ o, t.active o = s.active o
  owner : ∀ j, j ≠ i → t.owner j = s.owner j
  holds : ∀ j, j ≠ i → (t.holds j ↔ s.holds j)
  idle : ¬ t.holds i

/-- An owner with a free slot took one of its items. -/
structure Acquires (s t : Slots Owner Item) (o : Owner) (i : Item) : Prop where
  free : s.active o = none
  owned : s.owner i = some o
  points : t.active o = some i
  active : ∀ p, p ≠ o → t.active p = s.active p
  owner : ∀ j, t.owner j = s.owner j
  taken : t.holds i
  holds : ∀ j, j ≠ i → (t.holds j ↔ s.holds j)

/-- An owner let go of an item that held its slot. -/
structure Releases (s t : Slots Owner Item) (o : Owner) (i : Item) : Prop where
  owned : s.owner i = some o
  held : s.holds i
  points : t.active o = none
  active : ∀ p, p ≠ o → t.active p = s.active p
  owner : ∀ j, t.owner j = s.owner j
  idle : ¬ t.holds i
  holds : ∀ j, j ≠ i → (t.holds j ↔ s.holds j)

variable {s t : Slots Owner Item} {o : Owner} {i j : Item}

theorem Consistent.stays (hs : s.Consistent) (h : Stays s t) : t.Consistent := by
  intro o i
  rw [h.active, h.owner, h.holds]
  exact hs o i

/-- At most one item holds the slot of an owner. -/
theorem Consistent.unique (hs : s.Consistent) (hi : s.owner i = some o) (hholds : s.holds i)
    (hj : s.owner j = some o) (hholds' : s.holds j) : i = j := by
  have hactive := (hs o i).mpr ⟨hi, hholds⟩
  rw [(hs o j).mpr ⟨hj, hholds'⟩] at hactive
  exact (Option.some.inj hactive).symm

theorem Consistent.registers (hs : s.Consistent) (h : Registers s t i) : t.Consistent := by
  intro o j
  by_cases hj : j = i
  · subst hj
    rw [h.active, hs, h.fresh]
    constructor
    · exact fun hfresh => nomatch hfresh.1
    · exact fun hidle => absurd hidle.2 h.idle
  · rw [h.active, h.owner j hj, h.holds j hj]
    exact hs o j

theorem Consistent.acquires (hs : s.Consistent) (h : Acquires s t o i) : t.Consistent := by
  intro p j
  by_cases hp : p = o
  · subst hp
    rw [h.points, h.owner]
    constructor
    · intro hij
      obtain rfl := Option.some.inj hij
      exact ⟨h.owned, h.taken⟩
    · rintro ⟨howner, hholds⟩
      by_cases hj : j = i
      · rw [hj]
      · -- the slot was free, so no other item of the owner held it
        have := (hs p j).mpr ⟨howner, (h.holds j hj).mp hholds⟩
        rw [h.free] at this
        exact nomatch this
  · rw [h.active p hp, h.owner, hs]
    by_cases hj : j = i
    · subst hj
      rw [h.owned]
      constructor
      · exact fun hother => absurd (Option.some.inj hother.1).symm hp
      · exact fun hother => absurd (Option.some.inj hother.1).symm hp
    · rw [h.holds j hj]

theorem Consistent.releases (hs : s.Consistent) (h : Releases s t o i) : t.Consistent := by
  intro p j
  by_cases hp : p = o
  · subst hp
    rw [h.points, h.owner]
    constructor
    · exact fun hnone => nomatch hnone
    · rintro ⟨howner, hholds⟩
      by_cases hj : j = i
      · subst hj
        exact absurd hholds h.idle
      · exact absurd (hs.unique howner ((h.holds j hj).mp hholds) h.owned h.held) hj
  · rw [h.active p hp, h.owner, hs]
    by_cases hj : j = i
    · subst hj
      rw [h.owned]
      constructor
      · exact fun hother => absurd (Option.some.inj hother.1).symm hp
      · exact fun hother => absurd (Option.some.inj hother.1).symm hp
    · rw [h.holds j hj]

end Slots

end AnvilRun.ExclusiveSlot
