import LedgerWire.Json.Basic

namespace LedgerWire.Json

/-!
The members of JSON objects: what placing one does to every lookup, and that placing members of
different keys only puts them in order.
-/

variable {members : List (String × Json)} {key other : String} {value : Json}

@[simp] theorem lookup_nil (key : String) : lookup [] key = none := rfl

theorem lookup_cons (member : String × Json) (rest : List (String × Json)) (key : String) :
    lookup (member :: rest) key = if key = member.1 then some member.2 else lookup rest key := by
  obtain ⟨name, value⟩ := member
  by_cases here : key = name
  · simp [lookup, here]
  · have apart : (key == name) = false := beq_eq_false_iff_ne.mpr here
    simp [lookup, List.lookup_cons, apart, here]

@[simp] theorem lookup_place (members : List (String × Json)) (key : String) (value : Json)
    (other : String) :
    lookup (place key value members) other =
      if other = key then some value else lookup members other := by
  induction members with
  | nil => rw [place, lookup_cons]
  | cons member rest ih =>
      rw [place]
      split
      · rw [lookup_cons]
      · split
        · rename_i same
          rw [lookup_cons, lookup_cons, same]
          split
          · rfl
          · rfl
        · rename_i apart
          rw [lookup_cons, ih, lookup_cons]
          by_cases here : other = key
          · rw [if_pos here, if_pos here, if_neg (fun same => apart (here.symm.trans same))]
          · rw [if_neg here, if_neg here]

/-- A member of a new key is added. -/
theorem place_perm (absent : ∀ member ∈ members, member.1 ≠ key) :
    (place key value members).Perm ((key, value) :: members) := by
  induction members with
  | nil => exact List.Perm.refl _
  | cons member rest ih =>
      have others := ih fun member found => absent member (List.mem_cons_of_mem _ found)
      rw [place]
      split
      · exact List.Perm.refl _
      · rw [if_neg fun same => absent member List.mem_cons_self same.symm]
        exact (others.cons member).trans (List.Perm.swap _ _ rest)

/-- Placing members of different keys, one after another, only changes their order. -/
theorem foldl_place_perm (placed : List (String × Json))
    (distinct : (placed ++ members).Pairwise fun left right => left.1 ≠ right.1) :
    (members.foldl (fun placed member => place member.1 member.2 placed) placed).Perm
      (placed ++ members) := by
  induction members generalizing placed with
  | nil => simp
  | cons member rest ih =>
      obtain ⟨_, _, apart⟩ := List.pairwise_append.mp distinct
      have added : (place member.1 member.2 placed).Perm (member :: placed) :=
        place_perm fun earlier found => apart earlier found member List.mem_cons_self
      have moved : (place member.1 member.2 placed ++ rest).Perm (placed ++ member :: rest) :=
        (added.append_right rest).trans List.perm_middle.symm
      have symmetric : ∀ {left right : String × Json}, left.1 ≠ right.1 → right.1 ≠ left.1 :=
        Ne.symm
      exact (ih _ ((moved.pairwise_iff symmetric).mpr distinct)).trans moved

theorem ofMembers_perm (distinct : members.Pairwise fun left right => left.1 ≠ right.1) :
    ∃ placed, ofMembers members = .object placed ∧ placed.Perm members :=
  ⟨_, rfl, foldl_place_perm [] distinct⟩

end LedgerWire.Json
