import AnvilRun.Websocket.TextChecks

namespace AnvilRun.Websocket

open AnvilRun.AgentContracts
open AnvilRun.ValidationPrimitives
open JsString

/-- The text before the first `://` and the text behind it. -/
def splitUrl : JsString → Option (JsString × JsString)
  | [] => none
  | u :: s =>
      if [58, 47, 47].isPrefixOf (u :: s) then some ([], (u :: s).drop 3)
      else (splitUrl s).map (fun parts => (u :: parts.1, parts.2))

/-- The scheme of a URL, as the regular expression of `gitSource` takes it. -/
def isScheme (s : JsString) : Bool :=
  s.head?.any isLetterUnit && s.all isSchemeUnit

/-- User information that the regular expression does not see, since what comes before it is no
scheme. -/
def hidesUserInfo (url : JsString) : Bool :=
  match splitUrl url with
  | some (scheme, rest) =>
      !isScheme scheme && (rest.takeWhile (fun u => !endsAuthority u)).contains 64
  | none => false

variable {s t a b : JsString} {c : Char} {cs : List Char} {u : UInt16}

/-! Splitting -/

theorem eq_of_splitUrl (h : splitUrl s = some (a, b)) : s = a ++ [58, 47, 47] ++ b := by
  induction s generalizing a with
  | nil => cases h
  | cons u s ih =>
      rw [splitUrl] at h
      split at h
      · rename_i hprefix
        obtain ⟨rfl, rfl⟩ := Prod.mk.inj (Option.some.inj h)
        obtain ⟨rest, hrest⟩ := List.isPrefixOf_iff_prefix.mp hprefix
        rw [← hrest]
        rfl
      · obtain ⟨⟨a', b'⟩, hsplit, heq⟩ := Option.map_eq_some_iff.mp h
        obtain ⟨rfl, rfl⟩ := Prod.mk.inj heq
        rw [ih hsplit]
        rfl

theorem splitUrl_append (h : 58 ∉ a) (t : JsString) :
    splitUrl (a ++ t) = (splitUrl t).map (fun parts => (a ++ parts.1, parts.2)) := by
  induction a with
  | nil =>
      rw [List.nil_append]
      exact Option.map_id'.symm
  | cons u a ih =>
      have hu : u ≠ 58 := fun heq => h (heq ▸ List.mem_cons_self)
      have hprefix : ¬ [58, 47, 47].isPrefixOf (u :: (a ++ t)) = true := by
        rw [List.isPrefixOf_iff_prefix]
        rintro ⟨rest, hrest⟩
        exact hu (List.cons.inj hrest).1.symm
      rw [List.cons_append, splitUrl, if_neg hprefix, ih fun hmem => h (List.mem_cons_of_mem u hmem),
        Option.map_map]
      rfl

theorem not_colon_of_schemeUnit (h : isSchemeUnit u = true) : u ≠ 58 := by
  rintro rfl
  revert h
  decide

theorem not_mem_of_all_scheme (h : a.all isSchemeUnit = true) : 58 ∉ a :=
  fun hmem => not_colon_of_schemeUnit (List.all_eq_true.mp h 58 hmem) rfl

/-- The groups of the regular expression, from the first `://` on. -/
theorem gitUrlUserInfo_eq (s : JsString) :
    gitUrlUserInfo s =
      (splitUrl s).bind (fun parts =>
        if isScheme parts.1 then
          (beforeLast 64 (parts.2.takeWhile (fun u => !endsAuthority u))).map
            (fun userInfo => (parts.1, userInfo))
        else none) := by
  have hparts : s.takeWhile isSchemeUnit ++ s.dropWhile isSchemeUnit = s :=
    List.takeWhile_append_dropWhile
  have hall : (s.takeWhile isSchemeUnit).all isSchemeUnit = true := List.all_takeWhile
  rw [gitUrlUserInfo]
  by_cases hmatch : ((s.takeWhile isSchemeUnit).head?.any isLetterUnit &&
      [58, 47, 47].isPrefixOf (s.dropWhile isSchemeUnit)) = true
  · obtain ⟨hletter, hprefix⟩ := Bool.and_eq_true_iff.mp hmatch
    obtain ⟨rest, hrest⟩ := List.isPrefixOf_iff_prefix.mp hprefix
    have hsplit : splitUrl s = some (s.takeWhile isSchemeUnit, rest) := by
      rw [← hrest] at hparts
      have h := splitUrl_append (not_mem_of_all_scheme hall) ([58, 47, 47] ++ rest)
      rw [hparts] at h
      rw [h]
      show some (_ ++ [], rest) = _
      rw [List.append_nil]
    have hscheme : isScheme (s.takeWhile isSchemeUnit) = true := by
      rw [isScheme, hletter, hall]
      rfl
    rw [if_pos hmatch, hsplit, Option.bind_some, if_pos hscheme, ← hrest]
    rfl
  · rw [if_neg hmatch]
    cases hsplit : splitUrl s with
    | none => rfl
    | some parts =>
        obtain ⟨a, b⟩ := parts
        rw [Option.bind_some, if_neg]
        intro hscheme
        obtain ⟨hletter, hunits⟩ := Bool.and_eq_true_iff.mp hscheme
        apply hmatch
        have heq : s = a ++ (58 :: 47 :: 47 :: b) := by
          rw [eq_of_splitUrl hsplit, List.append_assoc]
          rfl
        have htake : s.takeWhile isSchemeUnit = a := by
          rw [heq, List.takeWhile_append_of_pos (List.all_eq_true.mp hunits)]
          rw [List.takeWhile_cons_of_neg (by decide), List.append_nil]
        have hdrop : s.dropWhile isSchemeUnit = 58 :: 47 :: 47 :: b := by
          rw [heq, List.dropWhile_append_of_pos (List.all_eq_true.mp hunits)]
          exact List.dropWhile_cons_of_neg (by decide)
        rw [htake, hdrop, hletter]
        rfl

/-! From units to characters -/

/-- A unit of ASCII occurs in the units of its own character only. -/
theorem eq_of_mem_encodeChar (hu : u.toNat < 128) (h : u ∈ encodeChar c) : c.toNat = u.toNat := by
  by_cases hc : c.toNat < 128
  · rw [encodeChar_ascii hc, List.mem_singleton] at h
    rw [h, toNat_unit (by omega)]
  · have hge := le_of_mem_encodeChar hc h
    omega

theorem not_mem_encodeChar {d : Char} (hd : d.toNat < 128) (h : c ≠ d) :
    UInt16.ofNat d.toNat ∉ encodeChar c := by
  intro hmem
  have hunit : (UInt16.ofNat d.toNat).toNat = d.toNat := toNat_unit (by omega)
  apply h
  apply char_ext
  rw [eq_of_mem_encodeChar (by omega) hmem, hunit]

/-- The first unit of a text, if it is one of ASCII, is its first character. -/
theorem exists_of_cons_eq_ofChars (hu : u.toNat < 128) (h : u :: t = ofChars cs) :
    ∃ c ds, cs = c :: ds ∧ c.toNat = u.toNat ∧ t = ofChars ds := by
  cases cs with
  | nil => cases h
  | cons c ds =>
      rw [ofChars_cons] at h
      have hmem : u ∈ encodeChar c := by
        by_cases hlt : c.toNat < 0x10000
        · rw [encodeChar_of_lt hlt] at h ⊢
          rw [(List.cons.inj h).1]
          exact List.mem_singleton_self _
        · obtain ⟨high, low, hpair, -⟩ := exists_pair hlt
          rw [hpair] at h ⊢
          rw [(List.cons.inj h).1]
          exact List.mem_cons_self
      have hc := eq_of_mem_encodeChar hu hmem
      refine ⟨c, ds, rfl, hc, ?_⟩
      rw [encodeChar_ascii (by omega)] at h
      exact (List.cons.inj h).2

theorem splitUrl_ofChars (cs : List Char) :
    splitUrl (ofChars cs) = (splitScheme cs).map (Prod.map ofChars ofChars) := by
  induction cs with
  | nil => rfl
  | cons c cs ih =>
      rw [splitScheme]
      split
      · rename_i hprefix
        obtain ⟨rest, hrest⟩ := List.isPrefixOf_iff_prefix.mp hprefix
        rw [← hrest]
        rfl
      · rename_i hprefix
        have hrest : splitUrl (ofChars (c :: cs)) =
            (splitUrl (ofChars cs)).map (fun parts => (encodeChar c ++ parts.1, parts.2)) := by
          by_cases hc : c = ':'
          · subst hc
            have hnot : ¬ [58, 47, 47].isPrefixOf (58 :: ofChars cs) = true := by
              rw [List.isPrefixOf_iff_prefix]
              rintro ⟨rest, heq⟩
              obtain ⟨d, ds, rfl, hd, htail⟩ := exists_of_cons_eq_ofChars (by decide)
                (List.cons.inj heq).2
              obtain ⟨e, es, rfl, he, -⟩ := exists_of_cons_eq_ofChars (by decide) htail
              apply hprefix
              have hslash : d = '/' := char_ext hd
              have hslash' : e = '/' := char_ext he
              rw [hslash, hslash']
              rfl
            show splitUrl (58 :: ofChars cs) = _
            rw [splitUrl, if_neg hnot]
            rfl
          · rw [ofChars_cons]
            exact splitUrl_append (not_mem_encodeChar (by decide) hc) _
        rw [hrest, ih, Option.map_map, Option.map_map]
        rfl

def isAuthorityEnd (c : Char) : Bool :=
  ['/', '?', '#'].contains c

theorem endsAuthority_iff : endsAuthority u = true ↔ u.toNat = 47 ∨ u.toNat = 63 ∨ u.toNat = 35 := by
  simp only [endsAuthority, Bool.or_eq_true, beq_iff_eq, ← UInt16.toNat_inj, UInt16.reduceToNat]
  omega

theorem isAuthorityEnd_iff : isAuthorityEnd c = true ↔ c.toNat = 47 ∨ c.toNat = 63 ∨ c.toNat = 35 := by
  rw [isAuthorityEnd, List.contains_iff_mem]
  simp only [List.mem_cons, List.not_mem_nil, or_false, ← Char.toNat_inj]
  exact Iff.rfl

theorem authority_ofChars (cs : List Char) :
    (ofChars cs).takeWhile (fun u => !endsAuthority u) =
      ofChars (cs.takeWhile (fun c => !isAuthorityEnd c)) := by
  induction cs with
  | nil => rfl
  | cons c cs ih =>
      rw [ofChars_cons]
      by_cases hend : isAuthorityEnd c = true
      · have hnat := isAuthorityEnd_iff.mp hend
        have hunit : endsAuthority (UInt16.ofNat c.toNat) = true := by
          rw [endsAuthority_iff, toNat_unit (by omega)]
          exact hnat
        rw [encodeChar_ascii (by omega), List.takeWhile_cons_of_neg (by rw [hend]; decide)]
        exact List.takeWhile_cons_of_neg (by rw [hunit]; decide)
      · have hunits : ∀ u ∈ encodeChar c, (!endsAuthority u) = true := by
          intro u hu
          rw [Bool.not_eq_true']
          by_contra hne
          have hnat := endsAuthority_iff.mp (Bool.eq_true_of_not_eq_false hne)
          apply hend
          rw [isAuthorityEnd_iff, eq_of_mem_encodeChar (by omega) hu]
          exact hnat
        rw [List.takeWhile_append_of_pos hunits, ih,
          List.takeWhile_cons_of_pos (by rw [Bool.not_eq_true', Bool.eq_false_of_not_eq_true hend]),
          ofChars_cons]

theorem beforeLast_append {α : Type} [DecidableEq α] {x : α} {l : List α} (h : x ∉ l) (m : List α) :
    beforeLast x (l ++ m) = (beforeLast x m).map (l ++ ·) := by
  induction l with
  | nil => exact Option.map_id'.symm
  | cons y l ih =>
      rw [List.cons_append, beforeLast, ih fun hmem => h (List.mem_cons_of_mem y hmem)]
      cases beforeLast x m with
      | some init => rfl
      | none =>
          have hne : y ≠ x := by
            rintro rfl
            exact h List.mem_cons_self
          exact if_neg hne

theorem isSome_beforeLast {α : Type} [DecidableEq α] {x : α} (l : List α) :
    (beforeLast x l).isSome = l.contains x := by
  induction l with
  | nil => rfl
  | cons y l ih =>
      rw [beforeLast, List.contains_cons, ← ih]
      cases beforeLast x l with
      | some init => exact (Bool.or_true _).symm
      | none =>
          by_cases heq : y = x
          · subst heq
            simp
          · simp [heq, Ne.symm heq]

theorem beforeLast_ofChars (cs : List Char) :
    beforeLast 64 (ofChars cs) = (beforeAt cs).map ofChars := by
  induction cs with
  | nil => rfl
  | cons c cs ih =>
      rw [ofChars_cons, beforeAt]
      by_cases hc : c = '@'
      · subst hc
        show beforeLast 64 (64 :: ofChars cs) = _
        rw [beforeLast, ih]
        cases beforeAt cs with
        | some init => rfl
        | none => rfl
      · have hnot : (64 : UInt16) ∉ encodeChar c :=
          not_mem_encodeChar (show ('@').toNat < 128 by decide) hc
        rw [beforeLast_append hnot, ih]
        cases beforeAt cs with
        | some init => rfl
        | none => rw [if_neg hc]; rfl

theorem asciiLower_append (s t : JsString) : asciiLower (s ++ t) = asciiLower s ++ asciiLower t :=
  List.map_append

theorem toNat_toLower (c : Char) :
    c.toLower.toNat = if 65 ≤ c.toNat ∧ c.toNat ≤ 90 then c.toNat + 32 else c.toNat := by
  have hiff : (c.val ≥ 'A'.val ∧ c.val ≤ 'Z'.val) ↔ 65 ≤ c.toNat ∧ c.toNat ≤ 90 := by
    rw [ge_iff_le, UInt32.le_iff_toNat_le, UInt32.le_iff_toNat_le]
    exact Iff.rfl
  by_cases h : 65 ≤ c.toNat ∧ c.toNat ≤ 90
  · have hupper : c.toLower = _ := dif_pos (hiff.mpr h)
    rw [hupper, if_pos h]
    show (c.val + 32).toNat = c.val.toNat + 32
    have hle : c.val.toNat ≤ 90 := h.2
    rw [UInt32.toNat_add]
    show (c.val.toNat + 32) % 4294967296 = _
    omega
  · have hother : c.toLower = c := dif_neg fun h' => h (hiff.mp h')
    rw [hother, if_neg h]

theorem asciiLower_encodeChar (c : Char) : asciiLower (encodeChar c) = encodeChar c.toLower := by
  have hlower := toNat_toLower c
  have hunit : ∀ u : UInt16, (65 ≤ u ∧ u ≤ 90) ↔ 65 ≤ u.toNat ∧ u.toNat ≤ 90 := by
    intro u
    rw [UInt16.le_iff_toNat_le, UInt16.le_iff_toNat_le]
    exact Iff.rfl
  by_cases h : 65 ≤ c.toNat ∧ c.toNat ≤ 90
  · rw [if_pos h] at hlower
    rw [encodeChar_ascii (by omega), encodeChar_ascii (by omega), hlower, asciiLower, List.map_singleton,
      if_pos ((hunit _).mpr (by rw [toNat_unit (by omega)]; exact h)), UInt16.ofNat_add]
    rfl
  · rw [if_neg h] at hlower
    rw [char_ext hlower, asciiLower]
    apply (List.map_congr_left _).trans (List.map_id _)
    intro u hu
    apply if_neg
    intro hle
    have hnat := (hunit u).mp hle
    have hc := eq_of_mem_encodeChar (by omega) hu
    exact h (by rw [hc]; exact hnat)

theorem asciiLower_ofChars (cs : List Char) :
    asciiLower (ofChars cs) = ofChars (cs.map Char.toLower) := by
  induction cs with
  | nil => rfl
  | cons c cs ih =>
      rw [ofChars_cons, asciiLower_append, ih, asciiLower_encodeChar, List.map_cons, ofChars_cons]

/-! The two checks -/

theorem beq_ofChars (cs ds : List Char) : (ofChars cs == ofChars ds) = (cs == ds) := by
  by_cases h : cs = ds
  · subst h
    rw [beq_self_eq_true, beq_self_eq_true]
  · rw [beq_eq_false_iff_ne.mpr h, beq_eq_false_iff_ne]
    exact fun heq => h (ofChars_injective heq)

theorem isLetterUnit_of_lower {v : UInt16} (hlower : (if 65 ≤ u ∧ u ≤ 90 then u + 32 else u) = v)
    (hlow : 97 ≤ v) (hhigh : v ≤ 122) : isLetterUnit u = true := by
  rw [isLetterUnit, Bool.or_eq_true, decide_eq_true_eq, decide_eq_true_eq]
  by_cases h : 65 ≤ u ∧ u ≤ 90
  · exact Or.inl h
  · rw [if_neg h] at hlower
    rw [hlower]
    exact Or.inr ⟨hlow, hhigh⟩

/-- What is `ssh` up to the case of its letters is a scheme. -/
theorem isScheme_of_ssh (h : asciiLower s = ofString "ssh") : isScheme s = true := by
  have hletters : ∀ u ∈ s, isLetterUnit u = true := by
    intro u hu
    have hmem : (if 65 ≤ u ∧ u ≤ 90 then u + 32 else u) ∈ ofString "ssh" := by
      rw [← h, asciiLower]
      exact List.mem_map_of_mem hu
    have hssh : (ofString "ssh").all (fun v => decide (97 ≤ v ∧ v ≤ 122)) = true := by decide
    have hbounds := of_decide_eq_true (List.all_eq_true.mp hssh _ hmem)
    exact isLetterUnit_of_lower rfl hbounds.1 hbounds.2
  have hall : s.all isSchemeUnit = true := by
    apply List.all_eq_true.mpr
    intro u hu
    rw [isSchemeUnit, hletters u hu]
    rfl
  rw [isScheme, hall, Bool.and_true]
  cases s with
  | nil => cases h
  | cons u s => exact hletters u List.mem_cons_self

/-- The agent forbids what the server forbids, and the user information that the server does not
see. -/
theorem gitUrlHasForbiddenUserInfo_eq (url : List Char) :
    gitUrlHasForbiddenUserInfo url =
      (!gitCredentialsAllowed (ofChars url) || hidesUserInfo (ofChars url)) := by
  rw [gitUrlHasForbiddenUserInfo, gitCredentialsAllowed, hidesUserInfo, gitUrlUserInfo_eq,
    splitUrl_ofChars]
  cases splitScheme url with
  | none => rfl
  | some parts =>
      obtain ⟨scheme, rest⟩ := parts
      have hrest : (ofChars rest).takeWhile (fun u => !endsAuthority u) =
          ofChars (rest.takeWhile (fun c => !(['/', '?', '#'].contains c))) :=
        authority_ofChars rest
      have hcontains (authority : List Char) :
          (ofChars authority).contains 64 = (beforeAt authority).isSome := by
        rw [← isSome_beforeLast, beforeLast_ofChars, Option.isSome_map]
      simp only [Option.map_some, Option.bind_some, Prod.map, hrest, beforeLast_ofChars, hcontains]
      cases beforeAt (rest.takeWhile (fun c => !(['/', '?', '#'].contains c))) with
      | none =>
          cases isScheme (ofChars scheme) with
          | false => rfl
          | true => rfl
      | some userInfo =>
          by_cases hscheme : isScheme (ofChars scheme) = true
          · rw [if_pos hscheme, hscheme]
            show _ = (!(asciiLower (ofChars scheme) == ofChars "ssh".toList &&
              ofChars userInfo == ofChars "git".toList) || false)
            rw [asciiLower_ofChars, beq_ofChars, beq_ofChars, Bool.or_false]
          · have hssh : (scheme.map Char.toLower == "ssh".toList) = false := by
              rw [beq_eq_false_iff_ne]
              intro heq
              apply hscheme
              apply isScheme_of_ssh
              rw [asciiLower_ofChars, heq]
              rfl
            rw [if_neg hscheme, Bool.eq_false_of_not_eq_true hscheme, hssh]
            rfl

end AnvilRun.Websocket
