import AnvilRun.JsonRoundTrip
import Mathlib.Data.List.Forall2

namespace AnvilRun.Json

/-- `JSON.stringify` of the members of an object, given the texts of their values, up to the closing
brace. -/
def membersText : List (JsString × List Char) → List Char
  | [] => ['}']
  | [member] => quote member.1 ++ ':' :: (member.2 ++ ['}'])
  | member :: members => quote member.1 ++ ':' :: (member.2 ++ ',' :: membersText members)

def objectText (members : List (JsString × List Char)) : List Char :=
  '{' :: membersText members

/-- The text of a member is read as its value. -/
def ReadsMember (member : JsString × List Char) (value : JsString × Json) : Prop :=
  member.1 = value.1 ∧ Reads member.2 value.2

variable {member : JsString × List Char} {members : List (JsString × List Char)}
  {values : List (JsString × Json)}

theorem parseMembers_membersText (hne : members ≠ [])
    (h : List.Forall₂ ReadsMember members values) (fuel : Nat) :
    parseMembers (fuel + members.length + 1) (membersText members) = some (values, []) := by
  fun_induction membersText members generalizing values fuel with
  | case1 => exact absurd rfl hne
  | case2 member =>
      obtain _ | ⟨⟨hkey, hreads⟩, hrest⟩ := h
      cases hrest
      rw [List.length_singleton, parseMembers_brace hreads, hkey]
  | case3 member members hmembers ih =>
      obtain _ | ⟨⟨hkey, hreads⟩, hrest⟩ := h
      have hne' : members ≠ [] := fun hnil => hmembers hnil
      have hfuel : fuel + (members.length + 1) + 1 = fuel + members.length + 2 := rfl
      rw [List.length_cons, hfuel, parseMembers_comma hreads, ih hne' hrest, hkey]
      rfl

theorem length_membersText (members : List (JsString × List Char)) :
    members.length < (membersText members).length := by
  fun_induction membersText members with
  | case1 => exact Nat.zero_lt_one
  | case2 member => simp [quote]
  | case3 member members hmembers ih =>
      simp only [List.length_cons, List.length_append]
      omega

theorem membersText_eq (hne : members ≠ []) : ∃ text, membersText members = '"' :: text := by
  fun_cases membersText members with
  | case1 => exact absurd rfl hne
  | case2 member => exact ⟨_, rfl⟩
  | case3 member members hmembers => exact ⟨_, rfl⟩

/-- The text of an object is read as the object. -/
theorem parse_objectText (hne : members ≠ []) (h : List.Forall₂ ReadsMember members values) :
    parse (objectText members) = some (.object values) := by
  obtain ⟨text, htext⟩ := membersText_eq hne
  obtain ⟨fuel, hfuel⟩ := Nat.exists_eq_add_of_lt (length_membersText members)
  have hlength : (objectText members).length = fuel + 1 + members.length + 1 := by
    rw [objectText, List.length_cons, hfuel]
    omega
  have hobject := parse_object (fuel + 1 + members.length + 1) text
  rw [← htext, parseMembers_membersText hne h] at hobject
  rw [parse, hlength, objectText, hobject]
  rfl

end AnvilRun.Json
