import Mathlib.Data.List.Induction
import Mathlib.Data.List.ReduceOption
import Mathlib.Data.Set.Card
import RedundantAudio.Proofs.Loss.Ring

/-!
# A Ring as a Queue

A ring that is written to, asked and cleared in any order holds the times that
were added last, less those that were removed. `Remembered` says so of the
operations alone: a time was among the last few to be added, and since it was
added for the last time it was not removed. Removing a time leaves a hole where it
stood, so it gives no other time a longer life, and a time lives for as many
additions as the ring has slots.

That is so as long as a time is only added while the ring does not hold it.
Otherwise it stands in two slots, and removing it clears one of them. One thing
holds even then: what happens to one time never matters to another, because each
slot that holds the other time is found, cleared and overwritten all the same.
`Alike` compares two rings in this one respect.

## Main definitions

* `Operation`, `perform`, `after`: What is done with a ring.
* `addsFresh`: A time is only added while the ring does not hold it.
* `Remembered`: A time was added recently and not removed since.
* `entries`: All that was ever written, with holes.
* `Alike`: Two rings agree about a time.
* `IsQueue`: A ring is a bounded queue with holes.

## Theorems

* `withdraw_eq`: Removing a time tells whether it was there.
* `faithful_after`: A ring is the end of what was written, without repetitions.
* `mem_entries_iff`: What the end of all that was written holds.
* `contains_after_iff`: What a ring holds.
* `survives_iff`: How long a time is held.
* `contains_after_remove`: Removing a time does not matter to another one.
* `queue_with_holes`: A ring is a queue as long as no time is added while it is held.
-/

namespace RedundantAudio

namespace Loss

namespace Window

/-- What can be done with a ring. -/
inductive Operation
  | add (time : UInt32)
  | contains (time : UInt32)
  | remove (time : UInt32)
  deriving DecidableEq, Repr

/-- The ring behind an operation, and the answer if there is one. -/
def perform (w : Window) : Operation → Window × Option Bool
  | .add time => (w.add time, none)
  | .contains time => (w, some (w.contains time))
  | .remove time => ((w.withdraw time).1, some (w.withdraw time).2)

/-- The ring behind some operations. -/
def after (w : Window) (operations : List Operation) : Window :=
  operations.foldl (fun w operation => (w.perform operation).1) w

/-- A time is not added while the ring holds it. -/
def admits (w : Window) : Operation → Bool
  | .add time => !w.contains time
  | .contains _ | .remove _ => true

/-- No time is ever added while the ring holds it. -/
def addsFresh (w : Window) : List Operation → Bool
  | [] => true
  | operation :: operations =>
    w.admits operation && (w.perform operation).1.addsFresh operations

/-- The time that an operation adds, if it adds one. -/
def Operation.added : Operation → Option UInt32
  | add time => some time
  | contains _ | remove _ => none

/-- The times that are added, one after the other. -/
def additions (operations : List Operation) : List UInt32 :=
  operations.filterMap Operation.added

/-- A time is among the last few that were added, and it was not removed since it
    was added for the last time. -/
def Remembered (count : Nat) (operations : List Operation) (time : UInt32) : Prop :=
  ∃ before since, operations = before ++ .add time :: since ∧ .add time ∉ since ∧
    .remove time ∉ since ∧ (additions since).length < count

theorem clearFirst_of_not_mem {time : UInt32} {slots : List (Option UInt32)}
    (h : some time ∉ slots) : clearFirst time slots = slots := by
  rw [clearFirst_eq_map time slots (by rw [List.count_eq_zero.mpr h]; exact Nat.zero_le 1),
    map_cleared time slots h]

/-- If a slot was found to clear, the time stood there, and the slots are those that
    clearing leaves. -/
theorem clearFound_eq_some {time : UInt32} {slots found : List (Option UInt32)}
    (h : clearFound time slots = some found) :
    some time ∈ slots ∧ found = clearFirst time slots := by
  rw [clearFound_eq] at h
  split at h
  · next hin => exact ⟨List.contains_iff_mem.mp hin, (Option.some.inj h).symm⟩
  · cases h

theorem clearFound_eq_none {time : UInt32} {slots : List (Option UInt32)}
    (h : clearFound time slots = none) : some time ∉ slots := by
  rw [clearFound_eq] at h
  split at h
  · cases h
  · next hout => exact fun hin => hout (List.contains_iff_mem.mpr hin)

/-- What removing a time answers is whether the ring held it. The two are computed in one
    pass over the slots, the newer half first, and this takes them apart. -/
theorem withdraw_eq (w : Window) (time : UInt32) :
    w.withdraw time = (w.remove time, w.contains time) := by
  rw [withdraw]
  split
  · -- The time stands in the newer half, and the older one is not looked at.
    next newer hnewer =>
    rcases clearFound_eq_some hnewer with ⟨hin, rfl⟩
    have hcontains := w.contains_iff time |>.mpr (List.mem_append_right _ hin)
    rw [remove, if_pos (List.contains_iff_mem.mpr hin), hcontains]
  · next hnewer =>
    -- It does not stand there, so the older half decides.
    have hout := fun hin => clearFound_eq_none hnewer (List.contains_iff_mem.mp hin)
    rw [remove, if_neg hout]
    split
    · next older holder =>
      rcases clearFound_eq_some holder with ⟨hin, rfl⟩
      rw [w.contains_iff time |>.mpr (List.mem_append_left _ hin)]
    · next holder =>
      have hcontains : w.contains time = false := by
        rw [← Bool.not_eq_true, contains_iff, slots, List.mem_append, not_or]
        exact ⟨clearFound_eq_none holder, clearFound_eq_none hnewer⟩
      simp only [hcontains, clearFirst_of_not_mem (clearFound_eq_none holder)]

variable {w w' : Window} {operation : Operation} {operations later : List Operation}
  {time other : UInt32} {count : Nat}

theorem perform_remove : (w.perform (.remove time)).1 = w.remove time := by
  rw [perform, withdraw_eq]

theorem after_concat :
    w.after (operations ++ [operation]) = ((w.after operations).perform operation).1 :=
  List.foldl_concat _ _ _ _

theorem after_append : w.after (operations ++ later) = (w.after operations).after later :=
  List.foldl_append

/-- No time is added while it is held, if that is so in each of two parts, the second one
    from where the first one ends. -/
theorem addsFresh_append :
    w.addsFresh (operations ++ later)
      = (w.addsFresh operations && (w.after operations).addsFresh later) := by
  induction operations generalizing w with
  | nil => rfl
  | cons operation operations ih =>
      rw [List.cons_append, addsFresh, addsFresh, ih, Bool.and_assoc]
      rfl

/-! ### Recent additions -/

theorem length_additions_append :
    (additions (operations ++ later)).length
      = (additions operations).length + (additions later).length := by
  rw [additions, List.filterMap_append, List.length_append]
  rfl

/-- One more operation adds the time, removes it or makes it a bit older. Only an addition
    takes a place from the times before it, so that lookups and removals do not make
    anything older. -/
theorem remembered_concat :
    Remembered count (operations ++ [operation]) time ↔
      operation = .add time ∧ 0 < count ∨
        operation ≠ .add time ∧ operation ≠ .remove time ∧
          Remembered (count - (additions [operation]).length) operations time := by
  constructor
  · rintro ⟨before, since, heq, hadd, hremove, hlength⟩
    -- Either the last operation is the addition itself, or it comes since.
    rcases List.eq_nil_or_concat since with rfl | ⟨since, last, rfl⟩
    · exact Or.inl ⟨(List.append_inj' heq rfl).2 |> List.singleton_inj.mp, hlength⟩
    · rw [List.concat_eq_append] at heq hadd hremove hlength
      rw [← List.cons_append, ← List.append_assoc] at heq
      rw [length_additions_append] at hlength
      rcases List.append_inj' heq rfl with ⟨rfl, hlast⟩
      rw [List.singleton_inj] at hlast
      subst hlast
      rw [List.mem_append, List.mem_singleton, not_or] at hadd hremove
      exact Or.inr ⟨Ne.symm hadd.2, Ne.symm hremove.2, before, since, rfl, hadd.1, hremove.1,
        Nat.lt_sub_of_add_lt hlength⟩
  · rintro (⟨rfl, hpos⟩ | ⟨hadd, hremove, before, since, rfl, hadds, hremoves, hlength⟩)
    · exact ⟨operations, [], rfl, List.not_mem_nil, List.not_mem_nil, hpos⟩
    · refine ⟨before, since ++ [operation], ?_, ?_, ?_, ?_⟩
      · rw [List.append_assoc, List.cons_append]
      · rw [List.mem_append, List.mem_singleton, not_or]
        exact ⟨hadds, Ne.symm hadd⟩
      · rw [List.mem_append, List.mem_singleton, not_or]
        exact ⟨hremoves, Ne.symm hremove⟩
      · rw [length_additions_append]
        exact Nat.add_lt_of_lt_sub hlength

theorem not_remembered_nil : ¬ Remembered count [] time := by
  rintro ⟨before, since, heq, _⟩
  exact List.append_ne_nil_of_right_ne_nil before (List.cons_ne_nil _ _) heq.symm

/-- What is not removed is remembered, also if it was added again. It is enough that few
    additions came since, of whatever times. -/
theorem remembered_of_not_removed (before since : List Operation)
    (hremove : .remove time ∉ since) (hlength : (additions since).length < count) :
    Remembered count (before ++ .add time :: since) time := by
  -- By induction on what came since, as an addition of the same time starts anew.
  induction since using List.reverseRecOn generalizing count with
  | nil => exact remembered_concat.mpr (Or.inl ⟨rfl, hlength⟩)
  | append_singleton since operation ih =>
      rw [List.mem_append, List.mem_singleton, not_or] at hremove
      rw [length_additions_append] at hlength
      rw [← List.cons_append, ← List.append_assoc, remembered_concat]
      by_cases hadd : operation = .add time
      · exact Or.inl ⟨hadd, by omega⟩
      · exact Or.inr ⟨hadd, Ne.symm hremove.2, ih hremove.1 (by omega)⟩

/-! ### All that was written -/

/-- What an operation does to all that was written to a ring: a removal leaves
    holes. -/
def record (entries : List (Option UInt32)) : Operation → List (Option UInt32)
  | .add time => entries ++ [some time]
  | .contains _ => entries
  | .remove time => entries.map (cleared time)

/-- All that was written to a ring, with holes where something was removed. -/
def entries (operations : List Operation) : List (Option UInt32) :=
  operations.foldl record []

theorem entries_concat :
    entries (operations ++ [operation]) = record (entries operations) operation :=
  List.foldl_concat _ _ _ _

/-- A slot holds a time behind a removal, if it held it before and the removal was of
    another one. -/
theorem cleared_eq_some {slot : Option UInt32} :
    cleared other slot = some time ↔ other ≠ time ∧ slot = some time := by
  rw [cleared]
  by_cases h : slot = some other
  · rw [if_pos h, h]
    exact iff_of_false (Option.some_ne_none time).symm fun hne => hne.1 (Option.some.inj hne.2)
  · rw [if_neg h]
    exact ⟨fun heq => ⟨fun hother => h (hother ▸ heq), heq⟩, And.right⟩

/-- The end of what was written holds what is remembered. This is where a ring that keeps
    the last slots meets the history of its operations. -/
theorem mem_entries_iff :
    some time ∈ (entries operations).drop ((entries operations).length - count) ↔
      Remembered count operations time := by
  induction operations using List.reverseRecOn generalizing count with
  | nil =>
      exact iff_of_false (fun h => List.not_mem_nil (List.mem_of_mem_drop h)) not_remembered_nil
  | append_singleton operations operation ih =>
      rw [entries_concat, remembered_concat, ← ih]
      cases operation with
      | add other =>
          change some time ∈ (entries operations ++ [some other]).drop
              ((entries operations ++ [some other]).length - count) ↔
            Operation.add other = .add time ∧ 0 < count ∨
              Operation.add other ≠ .add time ∧ Operation.add other ≠ .remove time ∧
                some time ∈ (entries operations).drop ((entries operations).length - (count - 1))
          -- None of the written slots is looked at, or one fewer than before the addition.
          rcases count with _ | count
          · rw [Nat.sub_zero, Nat.zero_sub, Nat.sub_zero, List.drop_length, List.drop_length]
            exact iff_of_false List.not_mem_nil fun h =>
              h.elim (fun h => Nat.lt_irrefl 0 h.2) fun h => List.not_mem_nil h.2.2
          · rw [List.length_append, List.length_singleton, Nat.add_sub_add_right,
              Nat.add_sub_cancel, List.drop_append_of_le_length (Nat.sub_le _ _), List.mem_append,
              List.mem_singleton, Option.some.injEq]
            by_cases h : other = time
            · exact iff_of_true (Or.inr h.symm) (Or.inl ⟨congrArg _ h, Nat.succ_pos count⟩)
            · rw [or_iff_left (Ne.symm h), or_iff_right fun hadd => h (Operation.add.inj hadd.1)]
              exact ⟨fun hin => ⟨fun heq => h (Operation.add.inj heq), nofun, hin⟩,
                fun hin => hin.2.2⟩
      | contains other =>
          rw [or_iff_right fun h => Operation.noConfusion h.1]
          exact ⟨fun h => ⟨nofun, nofun, h⟩, fun h => h.2.2⟩
      | remove other =>
          rw [or_iff_right fun h => Operation.noConfusion h.1, record, List.length_map,
            ← List.map_drop, List.mem_map]
          -- A removal leaves a hole where its time stood, and keeps all other slots in
          -- place.
          constructor
          · rintro ⟨slot, hin, hslot⟩
            rcases cleared_eq_some.mp hslot with ⟨hne, rfl⟩
            exact ⟨nofun, fun heq => hne (Operation.remove.inj heq), hin⟩
          · rintro ⟨_, hne, hin⟩
            exact ⟨some time, hin, cleared_eq_some.mpr ⟨fun heq => hne (congrArg _ heq), rfl⟩⟩

/-! ### What a ring holds -/

/-- A ring is the end of what was written, without repetitions. -/
structure Faithful (size : Nat) (w : Window) (writes : List (Option UInt32)) : Prop where
  slots_eq : w.slots = written size writes
  count_le_one : ∀ time, w.slots.count (some time) ≤ 1

/-- A ring that was just made is faithful to a history in which nothing was written. -/
theorem faithful_empty (capacity : Nat) : Faithful (max capacity 1) (empty capacity) [] where
  slots_eq := (List.append_nil _).trans (written_nil _).symm
  count_le_one time := by
    -- All of its slots are empty, and there is at least one.
    have hout : some time ∉ (empty capacity).slots := by
      rw [show (empty capacity).slots = _ from List.append_nil _]
      exact fun hin => nomatch (List.mem_replicate.mp hin).2
    rw [List.count_eq_zero.mpr hout]
    exact Nat.zero_le 1

variable {size : Nat} {writes : List (Option UInt32)}

/-- Adding a time that is not held keeps a ring faithful: it pushes out what was written
    longest ago, and the time stands in it only once. -/
theorem Faithful.add (hsize : 0 < size) (h : Faithful size w writes)
    (hfresh : w.contains time = false) : Faithful size (w.add time) (writes ++ [some time]) where
  slots_eq := slots_add_written size hsize w time writes h.slots_eq
  count_le_one other := by
    have htail := w.slots.tail_sublist.count_le (some other)
    rw [slots_add, List.count_append, List.count_singleton]
    by_cases hother : time = other
    · -- Nowhere else, for it was not held.
      have hout : some time ∉ w.slots := by
        rw [← contains_iff, hfresh]
        exact Bool.false_ne_true
      rw [← hother, List.count_eq_zero.mpr hout] at htail
      rw [← hother, beq_self_eq_true, if_pos rfl]
      omega
    · rw [if_neg fun heq => hother (Option.some.inj (eq_of_beq heq))]
      exact le_trans htail (h.count_le_one other)

/-- Removing a time keeps a ring faithful. As the time stands in one slot at most, clearing
    the first one clears them all. -/
theorem Faithful.remove (h : Faithful size w writes) :
    Faithful size (w.remove time) (writes.map (cleared time)) where
  slots_eq := by
    rw [slots_remove w time (h.count_le_one time), h.slots_eq, map_written size _ rfl]
  count_le_one other := by
    rw [slots_remove w time (h.count_le_one time), List.count, List.countP_map]
    refine le_trans (List.countP_mono_left fun slot _ hslot => ?_) (h.count_le_one other)
    rw [Function.comp_apply, beq_iff_eq] at hslot
    rw [beq_iff_eq]
    exact (cleared_eq_some.mp hslot).2

/-- Behind any operations that add no time twice, a ring is faithful to all that was
    written. By induction from the back, with an equation for each operation. -/
theorem faithful_after {capacity : Nat} (h : (empty capacity).addsFresh operations = true) :
    Faithful (max capacity 1) ((empty capacity).after operations) (entries operations) := by
  induction operations using List.reverseRecOn with
  | nil => exact faithful_empty capacity
  | append_singleton operations operation ih =>
      rw [addsFresh_append, Bool.and_eq_true, addsFresh, Bool.and_eq_true] at h
      have hbefore := ih h.1
      rw [after_concat, entries_concat]
      cases operation with
      | add time =>
          exact hbefore.add (Nat.lt_of_lt_of_le Nat.one_pos (le_max_right capacity 1))
            (Bool.eq_false_of_not_eq_true' h.2.1)
      -- Asking changes neither the ring nor what was written.
      | contains time => exact hbefore
      | remove time =>
          rw [perform_remove]
          exact hbefore.remove

theorem contains_after_iff {capacity : Nat} (h : (empty capacity).addsFresh operations = true)
    (time : UInt32) : ((empty capacity).after operations).contains time = true ↔
      Remembered (max capacity 1) operations time := by
  rw [contains_iff, (faithful_after h).slots_eq, mem_written, mem_entries_iff]

/-- The size of a ring is the number of different times that it holds, since none stands
    there twice. -/
theorem Faithful.size_eq_ncard (h : Faithful size w writes) :
    w.size = {time | w.contains time = true}.ncard := by
  have hnodup : w.slots.reduceOption.Nodup := by
    rw [List.nodup_iff_count_le_one]
    intro time
    rw [List.reduceOption, List.count_filterMap]
    exact h.count_le_one time
  -- The times held are those that stand in the slots, taken as a set.
  have hset : {time | w.contains time = true} = (w.slots.reduceOption.toFinset : Set UInt32) := by
    ext time
    rw [Set.mem_ofPred_eq, contains_iff, Finset.mem_coe, List.mem_toFinset,
      List.reduceOption_mem_iff]
  rw [hset, Set.ncard_coe_finset, List.toFinset_card_of_nodup hnodup, List.reduceOption_length_eq,
    Window.size, List.countP_eq_length_filter]

/-- A ring never holds more times than it has slots. -/
theorem Faithful.size_le (h : Faithful size w writes) : w.size ≤ size := by
  refine le_trans List.countP_le_length ?_
  rw [h.slots_eq, length_written]

/-- An added time lives for as many additions as the ring has slots, its own
    included, unless it is removed. -/
theorem survives_iff {capacity : Nat}
    (h : (empty capacity).addsFresh (operations ++ .add time :: later) = true)
    (hremove : .remove time ∉ later) (hlength : (additions later).length ≤ max capacity 1) :
    ((empty capacity).after (operations ++ .add time :: later)).contains time = true ↔
      (additions later).length < max capacity 1 := by
  rw [contains_after_iff h]
  refine ⟨?_, remembered_of_not_removed operations later hremove⟩
  rintro ⟨before, since, heq, hadd, _, hcount⟩
  -- The last addition of the time is this one, or one that came while it was held.
  rcases List.append_eq_append_iff.mp heq with ⟨between, rfl, hlater⟩ | ⟨between, _, hsince⟩
  · rcases List.append_eq_cons_iff.mp hlater.symm with ⟨_, hlater⟩ | ⟨between, rfl, rfl⟩
    · rwa [(List.cons.inj hlater).2] at hcount
    · rw [← List.cons_append, ← List.append_assoc, addsFresh_append, Bool.and_eq_true, addsFresh,
        Bool.and_eq_true] at h
      -- It came again while the first one was still held, which is not allowed.
      have hcount : (additions between).length + 1 ≤ max capacity 1 := by
        rw [length_additions_append] at hlength
        exact le_trans (Nat.add_le_add_left (Nat.succ_le_succ (Nat.zero_le _)) _) hlength
      have hheld := (contains_after_iff h.1 time).mpr
        (remembered_of_not_removed operations between
          (fun hin => hremove (List.mem_append_left _ hin)) hcount)
      rw [admits, hheld] at h
      exact absurd h.2.1 Bool.false_ne_true
  · rcases List.append_eq_cons_iff.mp hsince.symm with ⟨_, hlater⟩ | ⟨between, _, rfl⟩
    · rwa [(List.cons.inj hlater).2]
    · exact absurd (List.mem_append_right _ List.mem_cons_self) hadd

/-! ### One time and another -/

/-- A slot as far as one time is concerned. -/
def concerning (time : UInt32) (slot : Option UInt32) : Option UInt32 :=
  if slot = some time then slot else none

/-- Two rings agree about a time: it stands in the same slots. -/
def Alike (time : UInt32) (w w' : Window) : Prop :=
  w.newer.map (concerning time) = w'.newer.map (concerning time) ∧
    w.older.map (concerning time) = w'.older.map (concerning time)

/-- Leaving out all other times does not affect whether this one is held. -/
theorem mem_map_concerning {slots : List (Option UInt32)} :
    some time ∈ slots.map (concerning time) ↔ some time ∈ slots := by
  rw [List.mem_map]
  constructor
  · rintro ⟨slot, hin, hslot⟩
    rw [concerning] at hslot
    split at hslot
    · rwa [← hslot]
    · cases hslot
  · exact fun hin => ⟨some time, hin, if_pos rfl⟩

/-- Clearing a time, and leaving out all other ones, can be done in either order. Thus a
    ring can be followed for one time at a time, with the slots of all others taken for
    empty. -/
theorem clearFirst_map_concerning (slots : List (Option UInt32)) :
    (clearFirst time slots).map (concerning time)
      = clearFirst time (slots.map (concerning time)) := by
  induction slots with
  | nil => rfl
  | cons slot slots ih =>
      rw [clearFirst, List.map_cons, clearFirst, concerning]
      by_cases h : slot = some time
      · rw [if_pos h, if_pos h, if_pos h]
        rfl
      · rw [if_neg h, if_neg h, if_neg (Option.some_ne_none time).symm, List.map_cons, concerning,
          if_neg h, ih]

/-- Clearing another time does not matter to this one. -/
theorem map_concerning_clearFirst (h : other ≠ time) (slots : List (Option UInt32)) :
    (clearFirst other slots).map (concerning time) = slots.map (concerning time) := by
  induction slots with
  | nil => rfl
  | cons slot slots ih =>
      rw [clearFirst]
      -- The slot that is cleared held the other time, which is left out anyway.
      by_cases heq : slot = some other
      · rw [if_pos heq, List.map_cons, List.map_cons, heq, concerning, concerning,
          if_neg (Option.some_ne_none time).symm, if_neg fun hsome => h (Option.some.inj hsome)]
      · rw [if_neg heq, List.map_cons, List.map_cons, ih]

namespace Alike

theorem contains_eq (h : Alike time w w') : w.contains time = w'.contains time := by
  rw [Bool.eq_iff_iff, contains_iff, contains_iff, ← mem_map_concerning, slots, List.map_append,
    h.1, h.2, ← List.map_append, mem_map_concerning]
  rfl

/-- Rings that agree go on to agree when the same time is added to both, whether or not it
    is the one that they agree about. Their halves have the same lengths, so both are turned
    round by the same additions. -/
theorem add (h : Alike time w w') (added : UInt32) : Alike time (w.add added) (w'.add added) := by
  rcases w with ⟨newer, older, hne⟩
  rcases w' with ⟨newer', older', hne'⟩
  rcases h with ⟨hnewer, holder⟩
  have hconcat : (newer ++ [some added]).map (concerning time)
      = (newer' ++ [some added]).map (concerning time) := by
    rw [List.map_append, List.map_append, hnewer]
  -- The halves of both rings are of the same lengths, so both turn round or neither does.
  rcases older with _ | ⟨slot, _ | ⟨next, rest⟩⟩
  · exact absurd rfl hne
  · rcases older' with _ | ⟨slot', _ | ⟨next', rest'⟩⟩
    · exact absurd rfl hne'
    · exact ⟨rfl, hconcat⟩
    · cases (List.cons.inj holder).2
  · rcases older' with _ | ⟨slot', _ | ⟨next', rest'⟩⟩
    · exact absurd rfl hne'
    · cases (List.cons.inj holder).2
    · exact ⟨hconcat, (List.cons.inj holder).2⟩

theorem remove_other (h : other ≠ time) (w : Window) : Alike time (w.remove other) w := by
  rw [remove]
  split
  · exact ⟨map_concerning_clearFirst h _, rfl⟩
  · exact ⟨rfl, map_concerning_clearFirst h _⟩

/-- Rings that agree about a time still do when it is removed from both. -/
theorem remove_same (h : Alike time w w') : Alike time (w.remove time) (w'.remove time) := by
  -- Both rings find it in the same half.
  have hnewer : w.newer.contains (some time) = w'.newer.contains (some time) := by
    rw [Bool.eq_iff_iff, List.contains_iff_mem, List.contains_iff_mem, ← mem_map_concerning, h.1,
      mem_map_concerning]
  rw [remove, remove, ← hnewer]
  split
  · exact ⟨by rw [clearFirst_map_concerning, h.1, clearFirst_map_concerning], h.2⟩
  · exact ⟨h.1, by rw [clearFirst_map_concerning, h.2, clearFirst_map_concerning]⟩

/-- Rings that agree about a time go on to agree, whatever is removed from both. -/
theorem remove (h : Alike time w w') (other : UInt32) :
    Alike time (w.remove other) (w'.remove other) := by
  by_cases hother : other = time
  · rw [hother]
    exact h.remove_same
  · have hw := remove_other hother w
    have hw' := remove_other hother w'
    exact ⟨hw.1.trans (h.1.trans hw'.1.symm), hw.2.trans (h.2.trans hw'.2.symm)⟩

/-- Whatever is done to two rings that agree about a time, they go on to agree, by induction
    on the operations. -/
theorem after (h : Alike time w w') (operations : List Operation) :
    Alike time (w.after operations) (w'.after operations) := by
  induction operations using List.reverseRecOn with
  | nil => exact h
  | append_singleton operations operation ih =>
      rw [after_concat, after_concat]
      cases operation with
      | add other => exact ih.add other
      | contains other => exact ih
      | remove other =>
          rw [perform_remove, perform_remove]
          exact ih.remove other

end Alike

/-- Removing a time does not matter to another one, now or later. It leaves a hole where it
    stood, and does not move the others forward. -/
theorem contains_after_remove (w : Window) (hne : other ≠ time)
    (operations later : List Operation) :
    (w.after (operations ++ .remove time :: later)).contains other
      = (w.after (operations ++ later)).contains other := by
  -- At the removal the two runs agree about the other time, and then they go on alike.
  have hstep : Alike other ((w.after operations).after [.remove time]) (w.after operations) := by
    rw [show [Operation.remove time] = [] ++ [.remove time] from rfl, after_concat, perform_remove]
    exact Alike.remove_other (Ne.symm hne) _
  rw [← List.singleton_append, ← List.append_assoc, after_append, after_append, after_append]
  exact (hstep.after later).contains_eq

/-! ### The queue -/

/-- What a ring has in common with a queue of the times that were added last, with
    holes where times were removed. A ring without slots has one. -/
structure IsQueue (capacity : Nat) (operations : List Operation) : Prop where
  /-- It holds the times that were added last, less those removed since. -/
  holds : ∀ time, ((empty capacity).after operations).contains time = true ↔
    Remembered (max capacity 1) operations time
  /-- Removing a time answers whether it was held. -/
  answers : ∀ time, (((empty capacity).after operations).perform (.remove time)).2
    = some (((empty capacity).after operations).contains time)
  /-- Removing a time does not matter to another one, now or later. -/
  separates : ∀ time other, other ≠ time → ∀ later,
    ((empty capacity).after (operations ++ .remove time :: later)).contains other
      = ((empty capacity).after (operations ++ later)).contains other
  /-- Its size is the number of times that it holds. -/
  counts : ((empty capacity).after operations).size
    = {time | ((empty capacity).after operations).contains time = true}.ncard
  /-- It never holds more than there are slots. -/
  bounded : ((empty capacity).after operations).size ≤ max capacity 1
  /-- A time that is added next and not removed is held until as many others were
      added as there are slots. -/
  survives : ∀ time later,
    (empty capacity).addsFresh (operations ++ .add time :: later) = true →
    .remove time ∉ later → (additions later).length ≤ max capacity 1 →
    (((empty capacity).after (operations ++ .add time :: later)).contains time = true ↔
      (additions later).length < max capacity 1)

/-- A ring is a queue with holes, as long as no time is added while it is held. A time that
    is added twice would take two slots, and removing it would clear only one. -/
theorem queue_with_holes (capacity : Nat) (operations : List Operation)
    (h : (empty capacity).addsFresh operations = true) : IsQueue capacity operations where
  holds := contains_after_iff h
  answers time := by rw [perform, withdraw_eq]
  separates _ _ hne later := contains_after_remove _ hne operations later
  counts := (faithful_after h).size_eq_ncard
  bounded := (faithful_after h).size_le
  survives _ _ := survives_iff

/-- The hole where 20 was removed is of no use to 10, which leaves when 30 comes. A queue
    that closed its gaps would have kept it, since 10 and 30 fit into two slots. -/
theorem queue_with_holes_pair :
    (empty 2).addsFresh [.add 10, .add 20, .remove 20] = true ∧
      (empty 2).addsFresh [.add 10, .add 20, .remove 20, .add 30, .contains 10, .add 20] = true ∧
      ((empty 2).after [.add 10, .add 20, .remove 20, .add 30]).contains 10 = false ∧
      IsQueue 2 [.add 10, .add 20, .remove 20] ∧
      (((empty 2).after [.add 10, .add 20, .remove 20, .add 30, .contains 10, .add 20]).contains 30
        = true ↔ (additions [.contains 10, .add 20]).length < 2) :=
  have h := queue_with_holes 2 [.add 10, .add 20, .remove 20] (by decide)
  ⟨by decide, by decide, by decide, h,
    h.survives 30 [.contains 10, .add 20] (by decide) (by decide) (by decide)⟩

end Window

end Loss

end RedundantAudio
