import AnvilRun.Utf8.Division
import Mathlib.Data.List.Chain

namespace AnvilRun.Utf8

open scoped List

variable {b c : UInt8} {t x y bytes rest : List UInt8} {reads : List (List UInt8)}

theorem goesOnFor_le (t bytes : List UInt8) : goesOnFor t bytes ≤ bytes.length := by
  induction bytes generalizing t with
  | nil => exact Nat.le_refl 0
  | cons b bytes ih =>
      rw [goesOnFor]
      split
      · exact Nat.succ_le_succ (ih (t ++ [b]))
      · exact Nat.zero_le _

theorem goesOnFor_append
    (h : goesOnFor t bytes = bytes.length → ∀ b, y.head? = some b → goesOn (t ++ bytes) b ≠ true) :
    goesOnFor t (bytes ++ y) = goesOnFor t bytes := by
  induction bytes generalizing t with
  | nil =>
      refine goesOnFor_eq_zero fun b rest hy => ?_
      have hstop := h rfl b (by rw [← List.nil_append y, hy, List.head?_cons])
      rwa [List.append_nil] at hstop
  | cons b bytes ih =>
      rw [List.cons_append, goesOnFor, goesOnFor]
      split
      · rename_i hgoes
        rw [ih fun hall c hc => ?_]
        rw [List.append_assoc]
        exact h (by rw [goesOnFor_cons hgoes, hall, List.length_cons]) c hc
      · rfl

/-! What one decoding step reads -/

theorem decodeLossy_nil : decodeLossy [] = [] :=
  rfl

theorem decodeLossy_cons (b : UInt8) (bytes : List UInt8) :
    decodeLossy (b :: bytes) =
      (decodeStep b bytes).1 :: decodeLossy (bytes.drop (goesOnFor [b] bytes)) := by
  rw [decodeLossy, decodeFrom, decodeFrom_eq_drop, decodeStep_snd, stepLength,
    Nat.add_sub_cancel]

theorem decodeStep_fst_append (h : goesOnFor [b] (bytes ++ y) = goesOnFor [b] bytes) :
    (decodeStep b (bytes ++ y)).1 = (decodeStep b bytes).1 := by
  have hlong : ∀ {c rest}, b :: bytes = String.utf8EncodeChar c ++ rest →
      (b :: (bytes ++ y)).toByteArray.utf8DecodeChar? 0 = some c := fun {c rest} hbytes => by
    rw [← List.cons_append, hbytes, List.append_assoc, List.toByteArray_append]
    exact ByteArray.utf8DecodeChar?_utf8EncodeChar_append
  cases hshort : (b :: bytes).toByteArray.utf8DecodeChar? 0 with
  | some c =>
      obtain ⟨rest, hrest⟩ := exists_rest hshort
      simp only [decodeStep, hshort, hlong hrest]
  | none =>
      cases hdecode : (b :: (bytes ++ y)).toByteArray.utf8DecodeChar? 0 with
      | none => simp only [decodeStep, hshort, hdecode]
      | some c =>
          obtain ⟨rest, hrest⟩ := exists_rest hdecode
          have hsize : (String.utf8EncodeChar c).length ≤ (b :: bytes).length := by
            rw [String.length_utf8EncodeChar, ← stepLength_of_startsWithChar hdecode, stepLength, h,
              List.length_cons]
            exact Nat.succ_le_succ (goesOnFor_le [b] bytes)
          have hprefix : String.utf8EncodeChar c <+: b :: bytes :=
            List.prefix_of_prefix_length_le ⟨rest, hrest.symm⟩ ⟨y, List.cons_append⟩ hsize
          obtain ⟨rest', hrest'⟩ := hprefix
          rw [← hrest', List.toByteArray_append,
            ByteArray.utf8DecodeChar?_utf8EncodeChar_append] at hshort
          cases hshort

/-! Decoding two texts apart -/

theorem Splits.of_suffix (h : Splits t y) (hsuffix : t <:+ x) : Splits x y := by
  obtain ⟨s, b, hs, hy, hgoes⟩ := h
  exact ⟨s, b, hs.trans hsuffix, hy, hgoes⟩

theorem not_splits_nil (x : List UInt8) : ¬ Splits x [] := by
  rintro ⟨t, b, -, hb, -⟩
  cases hb

theorem decodeLossy_append (h : ¬ Splits x y) :
    decodeLossy (x ++ y) = decodeLossy x ++ decodeLossy y := by
  induction hlength : x.length using Nat.strongRecOn generalizing x with
  | ind n ih =>
      rcases x with _ | ⟨b, bytes⟩
      · rfl
      have hgoes : goesOnFor [b] (bytes ++ y) = goesOnFor [b] bytes :=
        goesOnFor_append fun _ c hc hgoes => h ⟨b :: bytes, c, List.suffix_rfl, hc, hgoes⟩
      have hle := goesOnFor_le [b] bytes
      have hrest : decodeLossy (bytes.drop (goesOnFor [b] bytes) ++ y) =
          decodeLossy (bytes.drop (goesOnFor [b] bytes)) ++ decodeLossy y := by
        refine ih _ ?_ (fun hsplits => h (hsplits.of_suffix ?_)) rfl
        · rw [← hlength, List.length_cons, List.length_drop]
          omega
        · exact (List.drop_suffix _ _).trans (List.suffix_cons b bytes)
      rw [List.cons_append, decodeLossy_cons, decodeLossy_cons, hgoes,
        decodeStep_fst_append hgoes, List.drop_append_of_le_length hle, hrest, List.cons_append]

theorem isContinuation_of_goesOn (h : goesOn t b = true) : isContinuation b = true := by
  have hsecond : ∀ b₀, isSecondByte b₀ b = true → isContinuation b = true := fun b₀ hsecond => by
    rw [isSecondByte_iff] at hsecond
    exact (isContinuation_iff b).mpr ⟨hsecond.1, hsecond.2.1⟩
  rcases t with _ | ⟨b₀, _ | ⟨b₁, _ | ⟨b₂, _ | ⟨b₃, t⟩⟩⟩⟩
  · cases h
  · simp only [goesOn, Bool.or_eq_true, Bool.and_eq_true] at h
    exact h.elim And.right (fun h => hsecond b₀ h.2)
  · simp only [goesOn, Bool.and_eq_true] at h
    exact h.2
  · simp only [goesOn, Bool.and_eq_true] at h
    exact h.2
  · cases h

/-- A byte that goes on with a character is the start of none. -/
theorem goesOnFor_of_isContinuation (h : isContinuation b = true) : goesOnFor [b] bytes = 0 := by
  refine goesOnFor_eq_zero fun c _ _ hgoes => ?_
  have hlead := le_of_goesOn₁ hgoes
  have hcont := (isContinuation_iff b).mp h
  omega

/-- Bytes that only go on with a character are decoded one by one when it is cut off. -/
theorem length_decodeLossy_drop (t bytes : List UInt8) :
    (decodeLossy bytes).length =
      goesOnFor t bytes + (decodeLossy (bytes.drop (goesOnFor t bytes))).length := by
  induction bytes generalizing t with
  | nil => rfl
  | cons b bytes ih =>
      rw [goesOnFor]
      split
      · rename_i hgoes
        rw [decodeLossy_cons, goesOnFor_of_isContinuation (isContinuation_of_goesOn hgoes),
          List.drop_zero, List.length_cons, ih (t ++ [b]), List.drop_succ_cons]
        omega
      · rw [List.drop_zero, Nat.zero_add]

theorem goesOnFor_append_of_all (h : goesOnFor t x = x.length) :
    goesOnFor t (x ++ y) = x.length + goesOnFor (t ++ x) y := by
  induction x generalizing t with
  | nil => rw [List.nil_append, List.append_nil, List.length_nil, Nat.zero_add]
  | cons b x ih =>
      rw [goesOnFor] at h
      split at h
      · rename_i hgoes
        rw [List.cons_append, goesOnFor_cons hgoes, ih (Nat.succ.inj h), List.append_assoc,
          List.singleton_append, List.length_cons]
        omega
      · cases h

theorem exists_of_goesOn (h : goesOn t b = true) :
    ∃ b₀ t', t = b₀ :: t' ∧ isContinuation b₀ = false ∧ goesOnFor [b₀] t' = t'.length := by
  have hlead : ∀ {b₀ b₁}, goesOn [b₀] b₁ = true → isContinuation b₀ = false := fun hgoes => by
    rw [Bool.eq_false_iff]
    intro hcont
    have hlow := le_of_goesOn₁ hgoes
    have hhigh := (isContinuation_iff _).mp hcont
    omega
  rcases t with _ | ⟨b₀, _ | ⟨b₁, _ | ⟨b₂, _ | ⟨b₃, t⟩⟩⟩⟩
  · cases h
  · exact ⟨b₀, [], rfl, hlead h, rfl⟩
  · have hfirst := goesOn₁_of_goesOn₂ h
    exact ⟨b₀, [b₁], rfl, hlead hfirst, goesOnFor_cons hfirst⟩
  · have hsecond := goesOn₂_of_goesOn₃ h
    have hfirst := goesOn₁_of_goesOn₂ hsecond
    refine ⟨b₀, [b₁, b₂], rfl, hlead hfirst, ?_⟩
    rw [goesOnFor_cons hfirst, List.singleton_append, goesOnFor_cons hsecond]
    rfl
  · cases h

/-- A cut within a character costs at least one replacement character more. -/
theorem length_decodeLossy_lt (h : Splits x y) :
    (decodeLossy (x ++ y)).length < (decodeLossy x).length + (decodeLossy y).length := by
  obtain ⟨t, b, ⟨s, rfl⟩, hy, hgoes⟩ := h
  obtain ⟨b₀, t', rfl, hlead, hall⟩ := exists_of_goesOn hgoes
  have hcut : ∀ z, ¬ Splits s (b₀ :: z) := by
    rintro z ⟨u, c, -, hc, hgoes⟩
    rw [List.head?_cons, Option.some.injEq] at hc
    rw [← hc] at hgoes
    exact Bool.false_ne_true (hlead.symm.trans (isContinuation_of_goesOn hgoes))
  obtain ⟨rest, rfl⟩ : ∃ rest, y = b :: rest := List.head?_eq_some_iff.mp hy
  rw [List.append_assoc, List.cons_append, decodeLossy_append (hcut _),
    decodeLossy_append (hcut _), decodeLossy_cons, decodeLossy_cons, hall, List.drop_length,
    goesOnFor_append_of_all hall, List.singleton_append, List.drop_length_add_append,
    length_decodeLossy_drop (b₀ :: t') (b :: rest), goesOnFor_cons hgoes]
  simp only [List.length_append, List.length_cons, decodeLossy_nil, List.length_nil]
  omega

theorem length_decodeLossy_append_le (x y : List UInt8) :
    (decodeLossy (x ++ y)).length ≤ (decodeLossy x).length + (decodeLossy y).length := by
  by_cases h : Splits x y
  · exact Nat.le_of_lt (length_decodeLossy_lt h)
  · exact Nat.le_of_eq (by rw [decodeLossy_append h, List.length_append])

theorem length_decodeLossy_flatten_le (reads : List (List UInt8)) :
    (decodeLossy reads.flatten).length ≤ (reads.flatMap decodeLossy).length := by
  induction reads with
  | nil => exact Nat.le_refl 0
  | cons x reads ih =>
      rw [List.flatten_cons, List.flatMap_cons, List.length_append]
      have hle := length_decodeLossy_append_le x reads.flatten
      omega

/-- Decoding read by read gives the decoding of the whole exactly when no read ends within a
character that the next one goes on with. -/
theorem flatMap_decodeLossy_iff (hreads : ∀ x ∈ reads, x ≠ []) :
    reads.flatMap decodeLossy = decodeLossy reads.flatten ↔
      reads.IsChain (fun x y => ¬ Splits x y) := by
  induction reads with
  | nil => exact iff_of_true rfl .nil
  | cons x reads ih =>
      rw [List.forall_mem_cons] at hreads
      have hhead : ∀ y ∈ reads.head?, Splits x reads.flatten ↔ Splits x y := by
        intro y hy
        obtain ⟨rest, rfl⟩ := List.head?_eq_some_iff.mp hy
        obtain ⟨b, bytes, rfl⟩ :=
          List.exists_cons_of_ne_nil (hreads.2 y List.mem_cons_self)
        rfl
      rw [List.isChain_cons, ← ih hreads.2, List.flatten_cons, List.flatMap_cons]
      constructor
      · intro heq
        have hle := length_decodeLossy_flatten_le reads
        have hwhole : ¬ Splits x reads.flatten := fun hsplits => by
          have hlt := length_decodeLossy_lt hsplits
          rw [← heq, List.length_append] at hlt
          omega
        rw [decodeLossy_append hwhole] at heq
        exact ⟨fun y hy => (hhead y hy).not.mp hwhole, List.append_cancel_left heq⟩
      · rintro ⟨hchain, heq⟩
        have hwhole : ¬ Splits x reads.flatten := by
          cases hhd : reads.head? with
          | none =>
              rw [List.head?_eq_none_iff.mp hhd]
              exact not_splits_nil x
          | some y => exact (hhead y hhd).not.mpr (hchain y hhd)
        rw [decodeLossy_append hwhole, heq]

end AnvilRun.Utf8
