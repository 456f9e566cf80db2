import AnvilRun.ConfigFiles.Binding

namespace AnvilRun.ConfigFiles

open Fallible

variable {Uuid : Type}

/-! Rows in use and files that are to be removed -/

/-- The rows whose files a run of the cleanup has still to remove. -/
def Sweep.toRemove (sweep : Sweep Uuid) : List Uuid :=
  if sweep.fileRemoved then sweep.rows.tail else sweep.rows

section Cleanup

variable [DecidableEq Uuid] {server : Server Uuid} {s t : State Uuid}

/-- The row is bound to a project or an input of a task. -/
def State.isInUse (state : State Uuid) (id : Uuid) : Bool :=
  (state.configFiles.row id).any (fun file => file.projectId.isSome || state.isTaskInput id)

def State.isToRemove (state : State Uuid) (id : Uuid) : Bool :=
  state.sweeps.entries.any (fun entry => entry.2.toRemove.contains id)

/-- The cleanup has left all rows in use their files. -/
def FilesKept (state : State Uuid) : Prop :=
  ∀ id, state.isInUse id = true → state.stored id = true

/-- A step that takes a row in use only when no run of the cleanup has removed its file or has
still to remove it. -/
def TakesKeptFiles (state after : State Uuid) : Prop :=
  ∀ id, after.isInUse id = true → state.isInUse id = false →
    state.stored id = true ∧ state.isToRemove id = false

theorem isToRemove_iff {id : Uuid} :
    s.isToRemove id = true ↔ ∃ sweep r, s.sweeps.row sweep = some r ∧ id ∈ r.toRemove := by
  rw [State.isToRemove, List.any_eq_true]
  constructor
  · rintro ⟨⟨sweep, r⟩, hentry, hid⟩
    exact ⟨sweep, r, Table.mem_entries.mp hentry, List.contains_iff_mem.mp hid⟩
  · rintro ⟨sweep, r, hrow, hid⟩
    exact ⟨(sweep, r), Table.mem_entries.mpr hrow, List.contains_iff_mem.mpr hid⟩

/-! What a step does to the files on disk and the runs of the cleanup -/

/-- No file goes, and no row gets to be removed. -/
structure LeavesFiles (s t : State Uuid) : Prop where
  stored : ∀ id, s.stored id = true → t.stored id = true
  toRemove : ∀ id, t.isToRemove id = true → s.isToRemove id = true

theorem LeavesFiles.of_eq (hsweeps : t.sweeps = s.sweeps)
    (hstored : ∀ id, s.stored id = true → t.stored id = true) : LeavesFiles s t :=
  ⟨hstored, fun id h => by rwa [State.isToRemove, hsweeps] at h⟩

/-- The steps of transactions do nothing to either. -/
structure SameFiles (s t : State Uuid) : Prop where
  sweeps : t.sweeps = s.sweeps
  stored : t.stored = s.stored

theorem SameFiles.leavesFiles (h : SameFiles s t) : LeavesFiles s t :=
  .of_eq h.sweeps fun _ hid => h.stored ▸ hid

theorem SameFiles.start {tx : Uuid} {transaction : Except ApiException (Transaction Uuid)}
    (h : s.start tx transaction = some t) : SameFiles s t := by
  unfold State.start at h
  split at h
  · obtain ⟨transactions, -, rfl⟩ := Option.map_eq_some_iff.mp h
    exact ⟨rfl, rfl⟩
  · cases h
    exact ⟨rfl, rfl⟩

theorem SameFiles.proceed (s : State Uuid) (tx : Uuid)
    (transaction : Except ApiException (Transaction Uuid)) :
    SameFiles s (s.proceed tx transaction) := by
  unfold State.proceed
  split <;> exact ⟨rfl, rfl⟩

theorem SameFiles.saveStep {tx : Uuid} {save : Save Uuid} {now : Nat}
    (h : s.saveStep server tx save now = some t) : SameFiles s t := by
  unfold State.saveStep at h
  split at h
  · cases h
    exact .proceed ..
  · cases h
    exact .proceed ..
  · split at h
    · cases h
    · cases h
      exact .proceed ..
  · split at h
    · cases h
    · cases h
      exact .proceed ..
  · dsimp only at h
    split at h
    · cases h
    · cases h
      exact .proceed ..
  · simp only [Option.bind_eq_bind, Option.bind_eq_some_iff, Option.pure_def,
      Option.some.injEq] at h
    obtain ⟨projects, -, rfl⟩ := h
    exact ⟨rfl, rfl⟩

theorem SameFiles.advance {tx : Uuid} {now : Nat} (h : s.advance server tx now = some t) :
    SameFiles s t := by
  unfold State.advance at h
  split at h
  · exact .saveStep h
  · cases h
    unfold State.taskStep
    split
    · exact .proceed ..
    · exact ⟨rfl, rfl⟩
  · cases h

theorem LeavesFiles.upload {id : Uuid} {file : Upload Uuid} {now : Nat}
    (h : s.upload server id file now = some t) : LeavesFiles s t := by
  unfold State.upload at h
  split at h
  · cases h
    exact .of_eq rfl fun _ hid => hid
  · simp only [Option.bind_eq_bind, Option.bind_eq_some_iff, Option.pure_def,
      Option.some.injEq] at h
    obtain ⟨uploads, -, configFiles, -, rfl⟩ := h
    refine .of_eq rfl fun other hother => ?_
    dsimp only
    split
    · rfl
    · exact hother

/-- A run of the cleanup goes on with fewer files to remove. -/
theorem toRemove_modify {sweep : Uuid} {before after : Sweep Uuid} {id : Uuid}
    (hrow : s.sweeps.row sweep = some before)
    (hsub : ∀ id ∈ after.toRemove, id ∈ before.toRemove)
    (hsweeps : t.sweeps = s.sweeps.modify sweep (fun _ => after))
    (h : t.isToRemove id = true) : s.isToRemove id = true := by
  obtain ⟨other, r, hother, hid⟩ := isToRemove_iff.mp h
  rw [hsweeps, Table.modify_row] at hother
  split at hother
  · obtain ⟨_, -, rfl⟩ := Option.map_eq_some_iff.mp hother
    exact isToRemove_iff.mpr ⟨sweep, before, hrow, hsub id hid⟩
  · exact isToRemove_iff.mpr ⟨other, r, hother, hid⟩

theorem LeavesFiles.deleteRow {sweep : Uuid} {succeeds : Bool}
    (h : s.deleteRow sweep succeeds = some t) : LeavesFiles s t := by
  unfold State.deleteRow at h
  split at h
  · rename_i id rows hrow
    have hsub : ∀ other ∈ (⟨rows, false⟩ : Sweep Uuid).toRemove,
        other ∈ (⟨id :: rows, true⟩ : Sweep Uuid).toRemove := fun _ hother => hother
    have hleaves : ∀ {u : State Uuid}, u.sweeps = s.sweeps.modify sweep (fun _ => ⟨rows, false⟩) →
        u.stored = s.stored → LeavesFiles s u :=
      fun hsweeps hstored => ⟨fun _ hid => hstored ▸ hid, fun _ =>
        toRemove_modify hrow hsub hsweeps⟩
    dsimp only at h
    split at h
    · split at h
      · cases h
      · split at h <;> cases h <;> exact hleaves rfl rfl
    · cases h
      exact hleaves rfl rfl
  · cases h

/-- A file that goes was to be removed. -/
theorem removeFile_cases {sweep : Uuid} {succeeds : Bool}
    (h : s.removeFile sweep succeeds = some t) :
    (∀ id, s.stored id = true → t.stored id = false → s.isToRemove id = true) ∧
      ∀ id, t.isToRemove id = true → s.isToRemove id = true := by
  unfold State.removeFile at h
  split at h
  · rename_i first rows hrow
    cases h
    refine ⟨fun id hstored hgone => ?_, fun id => toRemove_modify hrow ?_ rfl⟩
    · dsimp only at hgone
      split at hgone
      · rename_i hfirst
        exact isToRemove_iff.mpr ⟨sweep, _, hrow, hfirst.2 ▸ List.mem_cons_self⟩
      · rw [hstored] at hgone
        cases hgone
    · exact fun _ hid => List.mem_cons_of_mem _ hid
  · cases h

/-- A row that is selected is not in use. -/
theorem selectExpired_cases {sweep : Uuid} {ids : List Uuid} {now : Nat}
    (h : s.selectExpired sweep ids now = some t) :
    t.stored = s.stored ∧
      ∀ id, t.isToRemove id = true → s.isToRemove id = true ∨ t.isInUse id = false := by
  unfold State.selectExpired at h
  split at h
  · rename_i hselected
    obtain ⟨sweeps, hinsert, rfl⟩ := Option.map_eq_some_iff.mp h
    refine ⟨rfl, fun id hid => ?_⟩
    obtain ⟨other, r, hother, hmem⟩ := isToRemove_iff.mp hid
    dsimp only at hother
    rw [Table.insert_row hinsert] at hother
    split at hother
    · cases hother
      have hexpired := List.all_eq_true.mp hselected.2.2 id hmem
      rw [State.isExpired, Bool.and_eq_true, Bool.not_eq_true'] at hexpired
      obtain ⟨file, hfile, hpending⟩ := (Option.any_eq_true ..).mp hexpired.1
      rw [Bool.and_eq_true, Option.isNone_iff_eq_none] at hpending
      refine .inr ?_
      rw [State.isInUse, hfile]
      simp [hpending.1, State.isTaskInput] at hexpired ⊢
      exact hexpired.2
    · exact .inl (isToRemove_iff.mpr ⟨other, r, hother, hmem⟩)
  · cases h

/-- A file goes only when it was to be removed, and only rows that are not in use get to be
removed. -/
theorem next_cases {event : Event Uuid} (h : s.next server event = some t) :
    (∀ id, s.stored id = true → t.stored id = false → s.isToRemove id = true) ∧
      ∀ id, t.isToRemove id = true → s.isToRemove id = true ∨ t.isInUse id = false := by
  have hleaves : LeavesFiles s t →
      (∀ id, s.stored id = true → t.stored id = false → s.isToRemove id = true) ∧
        ∀ id, t.isToRemove id = true → s.isToRemove id = true ∨ t.isInUse id = false := by
    refine fun hs => ⟨fun id hstored hgone => ?_, fun id hid => .inl (hs.toRemove id hid)⟩
    rw [hs.stored id hstored] at hgone
    cases hgone
  cases event with
  | upload => exact hleaves (.upload h)
  | createProject => exact hleaves (SameFiles.start h).leavesFiles
  | saveProjectConfig => exact hleaves (SameFiles.start h).leavesFiles
  | createTask => exact hleaves (SameFiles.start h).leavesFiles
  | advance => exact hleaves (SameFiles.advance h).leavesFiles
  | rollback tx =>
      cases h
      exact hleaves (.of_eq rfl fun _ hid => hid)
  | selectExpired =>
      obtain ⟨hstored, hremove⟩ := selectExpired_cases h
      refine ⟨fun id hid hgone => ?_, hremove⟩
      rw [hstored, hid] at hgone
      cases hgone
  | removeFile =>
      obtain ⟨hstored, hremove⟩ := removeFile_cases h
      exact ⟨hstored, fun id hid => .inl (hremove id hid)⟩
  | deleteRow => exact hleaves (.deleteRow h)

/-! Runs that take only rows whose files are kept -/

/-- The rows in use have their files, and no run of the cleanup is about to remove one. -/
def FilesSafe (state : State Uuid) : Prop :=
  ∀ id, state.isInUse id = true → state.stored id = true ∧ state.isToRemove id = false

theorem FilesSafe.next {event : Event Uuid} (hs : FilesSafe s)
    (h : s.next server event = some t) (htakes : TakesKeptFiles s t) : FilesSafe t := by
  intro id hid
  obtain ⟨hstored, hremove⟩ := next_cases h
  have hbefore : s.stored id = true ∧ s.isToRemove id = false := by
    cases huse : s.isInUse id with
    | true => exact hs id huse
    | false => exact htakes id hid huse
  constructor
  · cases hgone : t.stored id with
    | true => rfl
    | false => exact absurd (hstored id hbefore.1 hgone) (by simp [hbefore.2])
  · cases hpending : t.isToRemove id with
    | false => rfl
    | true =>
        obtain hpending | hunused := hremove id hpending
        · exact absurd hpending (by simp [hbefore.2])
        · exact absurd hid (by simp [hunused])

theorem next_removeFile (server : Server Uuid) {sweep first : Uuid} {rows : List Uuid}
    (hrow : s.sweeps.row sweep = some ⟨first :: rows, false⟩) (succeeds : Bool) :
    ∃ t, s.next server (.removeFile sweep succeeds) = some t ∧
      t.sweeps.row sweep = some ⟨first :: rows, true⟩ ∧ (∀ id, t.isInUse id = s.isInUse id) ∧
      (succeeds = true → t.stored first = false) := by
  rw [State.next, State.removeFile, hrow]
  refine ⟨_, rfl, ?_, fun _ => rfl, fun hsucceeds => if_pos ⟨hsucceeds, rfl⟩⟩
  rw [Table.modify_row_self, hrow, Option.map_some]

/-- The deletion of a row may fail. -/
theorem next_deleteRow (server : Server Uuid) {sweep first : Uuid} {rows : List Uuid}
    (hrow : s.sweeps.row sweep = some ⟨first :: rows, true⟩) :
    ∃ t, s.next server (.deleteRow sweep false) = some t ∧
      t.sweeps.row sweep = some ⟨rows, false⟩ ∧ ∀ id, t.isInUse id = s.isInUse id := by
  rw [State.next, State.deleteRow, hrow]
  refine ⟨_, rfl, ?_, fun _ => rfl⟩
  dsimp only
  rw [Table.modify_row_self, hrow, Option.map_some]

/-- A run of the cleanup can go on until it has removed a file. -/
theorem run_removeFile (server : Server Uuid) {sweep id : Uuid} {rows : List Uuid}
    (hrow : s.sweeps.row sweep = some ⟨rows, false⟩) (hid : id ∈ rows)
    (huse : s.isInUse id = true) :
    ∃ events t, s.run server events = some t ∧ t.isInUse id = true ∧ t.stored id = false := by
  induction rows generalizing s with
  | nil => exact absurd hid List.not_mem_nil
  | cons first rows ih =>
      obtain rfl | hrest := List.mem_cons.mp hid
      · obtain ⟨t, hnext, -, hsame, hgone⟩ := next_removeFile server hrow true
        exact ⟨[.removeFile sweep true], t, State.run_cons hnext [], (hsame id).trans huse,
          hgone rfl⟩
      · -- the removal and the deletion of the first row fail
        obtain ⟨m, hremove, hremoved, hremoveUse, -⟩ := next_removeFile server hrow false
        obtain ⟨n, hdelete, hdeleted, hdeleteUse⟩ := next_deleteRow server hremoved
        obtain ⟨events, t, hrun, ht⟩ :=
          ih hdeleted hrest ((hdeleteUse id).trans ((hremoveUse id).trans huse))
        refine ⟨.removeFile sweep false :: .deleteRow sweep false :: events, t, ?_, ht⟩
        rw [State.run_cons hremove, State.run_cons hdelete, hrun]

/-- A commit that takes another row in use leads to a row in use without its file. -/
theorem exists_not_filesKept {tx : Uuid} {now : Nat} (h : s.advance server tx now = some t)
    (htakes : ¬ TakesKeptFiles s t) : ∃ events u, t.run server events = some u ∧ ¬ FilesKept u := by
  obtain ⟨hsweeps, hstored⟩ := SameFiles.advance h
  simp only [TakesKeptFiles, not_forall] at htakes
  obtain ⟨id, huse, -, hlost⟩ := htakes
  have hlose : ∀ {u : State Uuid}, u.isInUse id = true → u.stored id = false → ¬ FilesKept u := by
    intro u huse hgone hkept
    rw [hkept id huse] at hgone
    cases hgone
  cases hfile : t.stored id with
  | false => exact ⟨[], t, rfl, hlose huse hfile⟩
  | true =>
      have hremove : t.isToRemove id = true := by
        rw [hstored] at hfile
        rw [State.isToRemove, hsweeps]
        simpa [hfile, State.isToRemove] using hlost
      obtain ⟨sweep, ⟨rows, fileRemoved⟩, hrow, hid⟩ := isToRemove_iff.mp hremove
      cases fileRemoved with
      | false =>
          obtain ⟨events, u, hrun, hinUse, hgone⟩ := run_removeFile server hrow hid huse
          exact ⟨events, u, hrun, hlose hinUse hgone⟩
      | true =>
          cases rows with
          | nil => exact absurd hid List.not_mem_nil
          | cons first rows =>
              obtain ⟨m, hdelete, hdeleted, hsame⟩ := next_deleteRow server hrow
              obtain ⟨events, u, hrun, hinUse, hgone⟩ :=
                run_removeFile server hdeleted hid ((hsame id).trans huse)
              exact ⟨.deleteRow sweep false :: events, u,
                (State.run_cons hdelete events).trans hrun, hlose hinUse hgone⟩

end Cleanup

/-! The upload that is about to expire -/

/-- A step of the one file that takes it in use only while it is kept. -/
def keptNext (s : State Unit) (event : Event Unit) : Option (State Unit) :=
  (s.next sampleServer event).filter (fun t =>
    !t.isInUse () || s.isInUse () || s.stored () && !s.isToRemove ())

theorem reachable_of_keptNext {events : List (Event Unit)} {s t : State Unit}
    (hs : ((system sampleServer).restrict TakesKeptFiles).Reachable s)
    (h : events.foldlM keptNext s = some t) :
    ((system sampleServer).restrict TakesKeptFiles).Reachable t := by
  induction events generalizing s with
  | nil =>
      cases h
      exact hs
  | cons event events ih =>
      rw [List.foldlM_cons, Option.bind_eq_bind, Option.bind_eq_some_iff] at h
      obtain ⟨m, hm, hrest⟩ := h
      obtain ⟨hnext, hkept⟩ := Option.filter_eq_some_iff.mp hm
      refine ih (.step hs ⟨⟨event, hnext⟩, fun id huse hunused => ?_⟩) hrest
      obtain rfl : id = () := rfl
      simpa [huse, hunused] using hkept

/-- The same transaction, and a cleanup that starts when the upload has just expired. -/
def sweptEvents : List (Event Unit) :=
  [.upload () sampleFile 0, .createProject () ⟨(), false⟩ () () sampleConfig,
    .advance () 86399999, .advance () 86399999, .advance () 86399999,
    .selectExpired () [()] 86400001,
    .advance () 86400001, .advance () 86400001, .advance () 86400001, .removeFile () true]

end AnvilRun.ConfigFiles
