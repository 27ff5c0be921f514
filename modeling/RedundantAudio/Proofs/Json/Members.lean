import RedundantAudio.Proofs.Json.Grammar

/-!
# Members of Objects

An object is a list of members, and whoever reads a message off it asks for one key
at a time. An answer needs the key to be there exactly once (`uniqueMember`), so it
does not depend on the order of the members, nor on members with other keys.

The grammar has members whose key stands for no text. One of them is enough to spoil
the object, and without any the object has just the members that are written.

## Main definitions

* `named`: A member with the key that it has.

## Theorems

* `objectOf_map_named`, `objectOf_of_mem`: The object with some members.
* `uniqueMember_of_perm`: Order and other members make no difference.
-/

namespace RedundantAudio

namespace Json

/-! ### Keys -/

/-- A member with the key that it has. -/
def named (m : String × Value) : Option String × Value :=
  (some m.1, m.2)

theorem named_injective : Function.Injective named := by
  rintro ⟨k, v⟩ ⟨k', v'⟩ h
  cases h
  rfl

theorem keyed_map_named (members : List (String × Value)) :
    keyed (members.map named) = some members := by
  induction members with
  | nil => rfl
  | cons m members ih =>
      rw [List.map_cons, named, keyed, ih]
      rfl

theorem objectOf_map_named (members : List (String × Value)) :
    objectOf (members.map named) = .object members := by
  rw [objectOf, keyed_map_named]
  rfl

/-- If one key stands for no text, then there is no object. One such key is enough, wherever
    it stands and whatever the other members are. -/
theorem objectOf_of_mem {members : List (Option String × Value)} {m : Option String × Value}
    (hm : m ∈ members) (hkey : m.1 = none) : objectOf members = .broken := by
  have hkeyed : keyed members = none := by
    induction members with
    | nil => cases hm
    | cons first members ih =>
        rcases List.mem_cons.mp hm with rfl | hm
        · rw [keyed, hkey]
          rfl
        · rw [keyed, ih hm]
          cases first.1 <;> rfl
  rw [objectOf, hkeyed]
  rfl

/-- If no key is broken, the members are members with texts for keys. -/
theorem exists_named {members : List (Option String × Value)}
    (h : ∀ m ∈ members, m.1.isSome = true) :
    ∃ others : List (String × Value), members = others.map named := by
  induction members with
  | nil => exact ⟨[], rfl⟩
  | cons m members ih =>
      rcases Option.isSome_iff_exists.mp (h m List.mem_cons_self) with ⟨key, hkey⟩
      rcases ih fun m hm => h m (List.mem_cons_of_mem _ hm) with ⟨others, rfl⟩
      refine ⟨(key, m.2) :: others, ?_⟩
      rw [List.map_cons, named, ← hkey]

/-! ### Asking for a key -/

/-- A key is answered exactly if one member has it: neither none nor several will do. The
    members with the key are told by a filter, which can be followed when members change
    their places. -/
theorem uniqueMember_eq_some_iff {key : String} {members : List (String × Value)} {v : Value} :
    uniqueMember key members = some v ↔
      members.filter (fun m => decide (m.1 = key)) = [(key, v)] := by
  constructor
  · intro h
    rw [uniqueMember] at h
    split at h
    · next m hfilter =>
        have hkey : m.1 = key := by
          have hmem : m ∈ members.filter fun m => decide (m.1 = key) := by
            rw [hfilter]
            exact List.mem_singleton_self m
          exact of_decide_eq_true (List.mem_filter.mp hmem).2
        rw [hfilter, ← hkey, ← Option.some.inj h]
    · cases h
  · intro h
    rw [uniqueMember, h]

/-- Members with other keys make no difference, and neither does the order. -/
theorem uniqueMember_of_perm {key : String} {own others arranged : List (String × Value)}
    {v : Value} (hperm : arranged.Perm (own ++ others)) (hown : uniqueMember key own = some v)
    (hothers : ∀ m ∈ others, m.1 ≠ key) : uniqueMember key arranged = some v := by
  rw [uniqueMember_eq_some_iff] at hown ⊢
  have hnone : others.filter (fun m => decide (m.1 = key)) = [] :=
    List.filter_eq_nil_iff.mpr fun m hm h => hothers m hm (of_decide_eq_true h)
  have hfilter := hperm.filter fun m => decide (m.1 = key)
  rw [List.filter_append, hown, hnone, List.append_nil] at hfilter
  exact List.perm_singleton.mp hfilter

theorem membersPlain_eq_all (depth : Nat) (members : List (String × Value)) :
    Value.membersPlain depth members = members.all fun m => m.2.isPlain depth := by
  induction members with
  | nil => rfl
  | cons m members ih => rw [Value.membersPlain, ih, List.all_cons]

end Json

end RedundantAudio
