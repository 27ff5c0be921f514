import Mathlib.Data.List.Nodup
import RedundantAudio.Loss.Window
import RedundantAudio.Proofs.Red.Timeline

/-!
# What a Ring Remembers

A ring of recent times is a list of all that was ever written to it, of which
only the end is left. `written` is that end, padded with the empty slots that
the ring began with, and every operation of a ring is an equation about it.

The writes are best told apart by what they were written for, not by the time
that was written: two of them may be for the same time. `Recent` says that one
of the last few entries of a list is a given one, and `mem_written_map` is the
bridge from there to a time that the ring holds.

Clearing a slot is kept simple by asking for one thing: that the time stands
in one slot at most. Then it makes no difference which slot the ring finds
first.

## Main definitions

* `written`: The slots of a ring after some writes.
* `Recent`: An entry is among the last of a list.

## Theorems

* `slots_add`, `slots_remove`: The operations on slots.
* `contains_add`, `contains_remove`: Nothing else comes to be held.
* `countP_remove`: One slot less.
* `written_concat`: One more write.
* `mem_written`, `mem_written_map`: Which times a ring holds.
* `written_map_congr`: Only the recent entries matter.
* `recent_of_bounded`, `not_recent`: How long an entry is recent.
-/

namespace RedundantAudio

namespace Loss

namespace Window

theorem contains_iff (w : Window) (time : UInt32) :
    w.contains time = true ↔ some time ∈ w.slots := by
  rw [contains, List.contains_iff_mem]

theorem slots_empty (capacity : Nat) (h : 0 < capacity) :
    (empty capacity).slots = List.replicate capacity none := by
  have hmax : max capacity 1 = capacity := max_eq_left h
  change List.replicate (max capacity 1) none ++ [] = _
  rw [hmax, List.append_nil]

/-- An added time takes the place of the one written longest ago. How a ring is kept in two
    halves does not show from here on. -/
theorem slots_add (w : Window) (time : UInt32) :
    (w.add time).slots = w.slots.tail ++ [some time] := by
  rcases w with ⟨newer, older, hne⟩
  -- An add takes a slot off the older half, which is renewed when it runs out.
  match older, hne with
  | [], hne => exact absurd rfl hne
  | [slot], _ =>
      change (newer ++ [some time]) ++ [] = _
      rw [List.append_nil]
      rfl
  | _ :: next :: rest, _ => exact (List.append_assoc (next :: rest) newer [some time]).symm

theorem contains_add {w : Window} {time time' : UInt32}
    (h : (w.add time').contains time = true) : w.contains time = true ∨ time' = time := by
  rw [contains_iff, slots_add, List.mem_append, List.mem_singleton] at h
  rw [contains_iff]
  exact h.imp List.mem_of_mem_tail fun heq => (Option.some.inj heq).symm

/-- A slot without a time, if it held that time. -/
def cleared (time : UInt32) (slot : Option UInt32) : Option UInt32 :=
  if slot = some time then none else slot

/-- Clearing a time that stands in no slot leaves all slots as they are. -/
theorem map_cleared (time : UInt32) (slots : List (Option UInt32)) (h : some time ∉ slots) :
    slots.map (cleared time) = slots := by
  have hkeep : ∀ slot ∈ slots, cleared time slot = slot := by
    intro slot hslot
    rw [cleared, if_neg]
    rintro rfl
    exact h hslot
  rw [List.map_congr_left hkeep, List.map_id']

/-- Where a time stands in one slot at most, clearing the first one is clearing them all. In
    this form it goes through lists of writes. -/
theorem clearFirst_eq_map (time : UInt32) (slots : List (Option UInt32))
    (h : slots.count (some time) ≤ 1) : clearFirst time slots = slots.map (cleared time) := by
  induction slots with
  | nil => rfl
  | cons slot slots ih =>
      rw [List.count_cons] at h
      rw [clearFirst, List.map_cons, cleared]
      by_cases heq : slot = some time
      · -- The time stood here, so it stands nowhere else.
        have hrest : some time ∉ slots := by
          rw [← List.count_eq_zero]
          rw [if_pos (beq_iff_eq.mpr heq)] at h
          omega
        rw [if_pos heq, if_pos heq, map_cleared time slots hrest]
      · rw [if_neg heq, if_neg heq, ih (by omega)]

/-- Clearing a slot does not bring any time in. -/
theorem mem_clearFirst {time time' : UInt32} {slots : List (Option UInt32)}
    (h : some time ∈ clearFirst time' slots) : some time ∈ slots := by
  induction slots with
  | nil => exact h
  | cons slot slots ih =>
      rw [clearFirst] at h
      -- The slot that is cleared holds no time, and those behind it stay.
      by_cases heq : slot = some time'
      · rw [if_pos heq] at h
        rcases List.mem_cons.mp h with hnone | hin
        · cases hnone
        · exact List.mem_cons_of_mem slot hin
      · rw [if_neg heq] at h
        rcases List.mem_cons.mp h with hslot | hin
        · rw [hslot]
          exact List.mem_cons_self
        · exact List.mem_cons_of_mem slot (ih hin)

theorem contains_remove {w : Window} {time time' : UInt32}
    (h : (w.remove time').contains time = true) : w.contains time = true := by
  rw [contains_iff, slots, List.mem_append] at h ⊢
  rw [remove] at h
  split at h
  · exact h.imp id mem_clearFirst
  · exact h.imp mem_clearFirst id

/-- Removing a time that stands in one slot clears that slot. The ring keeps its slots in
    two halves and searches them in turn; as slots that were written one after the other
    this does not show. -/
theorem slots_remove (w : Window) (time : UInt32) (h : w.slots.count (some time) ≤ 1) :
    (w.remove time).slots = w.slots.map (cleared time) := by
  rw [slots, List.count_append] at h
  rw [remove, slots, slots, List.map_append]
  -- The time stands in one of the two halves, if at all, and the other half is left as it
  -- is.
  by_cases hnewer : some time ∈ w.newer
  · have hpos := List.count_pos_iff.mpr hnewer
    have holder : some time ∉ w.older := by
      rw [← List.count_eq_zero]
      omega
    rw [if_pos (List.contains_iff_mem.mpr hnewer), map_cleared time w.older holder,
      ← clearFirst_eq_map time w.newer (by omega)]
  · rw [if_neg (fun hin => hnewer (List.contains_iff_mem.mp hin)), map_cleared time w.newer hnewer,
      ← clearFirst_eq_map time w.older (by omega)]

/-- Clearing a time that stands in some slot takes one off the slots that are counted, if
    the time counts and an empty slot does not. -/
theorem countP_clearFirst {p : Option UInt32 → Bool} {time : UInt32} (hnone : p none = false)
    (hsome : p (some time) = true) {slots : List (Option UInt32)} (h : some time ∈ slots) :
    (clearFirst time slots).countP p + 1 = slots.countP p := by
  induction slots with
  | nil => exact absurd h List.not_mem_nil
  | cons slot slots ih =>
      rw [clearFirst]
      by_cases heq : slot = some time
      · rw [if_pos heq, List.countP_cons_of_neg (by rw [hnone]; exact Bool.false_ne_true), heq,
          List.countP_cons_of_pos hsome]
      · -- The time stands further back.
        have hrest := ih ((List.mem_cons.mp h).resolve_left fun hslot => heq hslot.symm)
        rw [if_neg heq, List.countP_cons, List.countP_cons]
        omega

/-- Removing a time that is held takes one slot off those that are counted, if the time
    counts and an empty slot does not. Only one slot that holds the time is emptied, so the
    count goes down by one and no further. -/
theorem countP_remove {p : Option UInt32 → Bool} {time : UInt32} (hnone : p none = false)
    (hsome : p (some time) = true) {w : Window} (h : w.contains time = true) :
    (w.remove time).slots.countP p + 1 = w.slots.countP p := by
  rw [contains_iff, slots, List.mem_append] at h
  -- Only the half that is cleared has to be counted again.
  by_cases hnewer : some time ∈ w.newer
  · have hslots : (w.remove time).slots = w.older ++ clearFirst time w.newer := by
      rw [remove, if_pos (List.contains_iff_mem.mpr hnewer)]
      rfl
    have hcount := countP_clearFirst hnone hsome hnewer
    rw [hslots, slots, List.countP_append, List.countP_append]
    omega
  · have hslots : (w.remove time).slots = clearFirst time w.older ++ w.newer := by
      rw [remove, if_neg fun hin => hnewer (List.contains_iff_mem.mp hin)]
      rfl
    have hcount := countP_clearFirst hnone hsome (h.resolve_right hnewer)
    rw [hslots, slots, List.countP_append, List.countP_append]
    omega

end Window

/-- The slots of a ring of some size after some writes, the oldest first. -/
def written (size : Nat) (writes : List (Option UInt32)) : List (Option UInt32) :=
  (List.replicate size none ++ writes).drop writes.length

theorem written_nil (size : Nat) : written size [] = List.replicate size none := by
  rw [written, List.append_nil]
  rfl

theorem length_written (size : Nat) (writes : List (Option UInt32)) :
    (written size writes).length = size := by
  rw [written, List.length_drop, List.length_append, List.length_replicate, Nat.add_sub_cancel]

/-- One more write takes the place of the first slot. -/
theorem written_concat (size : Nat) (hsize : 0 < size) (writes : List (Option UInt32))
    (slot : Option UInt32) :
    written size (writes ++ [slot]) = (written size writes).tail ++ [slot] := by
  have hle : writes.length + 1 ≤ (List.replicate size none ++ writes).length := by
    rw [List.length_append, List.length_replicate]
    omega
  rw [written, written, List.tail_drop, ← List.append_assoc, List.length_append,
    List.length_singleton, List.drop_append_of_le_length hle]

theorem slots_add_written (size : Nat) (hsize : 0 < size) (w : Window) (time : UInt32)
    (writes : List (Option UInt32)) (h : w.slots = written size writes) :
    (w.add time).slots = written size (writes ++ [some time]) := by
  rw [w.slots_add, h, written_concat size hsize]

/-- What is done to every slot of a ring is done to every write, as long as it leaves empty
    slots empty. -/
theorem map_written (size : Nat) (f : Option UInt32 → Option UInt32) (hf : f none = none)
    (writes : List (Option UInt32)) :
    (written size writes).map f = written size (writes.map f) := by
  rw [written, written, List.map_drop, List.map_append, List.map_replicate, hf, List.length_map]

/-- An entry is among the last few of a list. -/
def Recent (count : Nat) (l : List Nat) (n : Nat) : Prop :=
  ∃ before after, l = before ++ n :: after ∧ after.length < count

theorem Recent.mem {count : Nat} {l : List Nat} {n : Nat} (h : Recent count l n) : n ∈ l := by
  rcases h with ⟨before, after, rfl, _⟩
  exact List.mem_append_right _ List.mem_cons_self

theorem nodup_concat {l : List Nat} {n : Nat} (hl : l.Nodup) (hn : n ∉ l) : (l ++ [n]).Nodup := by
  rw [← List.concat_eq_append]
  exact hl.concat hn

/-- Behind one more entry, that one is recent, and those are that were recent among one
    fewer. By this the history of a ring can be followed from its end, one addition at a
    time. -/
theorem recent_concat (count : Nat) (l : List Nat) (n m : Nat) :
    Recent (count + 1) (l ++ [n]) m ↔ m = n ∨ Recent count l m := by
  constructor
  · rintro ⟨before, after, heq, hlength⟩
    -- Either the entry is the last one, or it was there before.
    rcases List.eq_nil_or_concat after with rfl | ⟨after', last, rfl⟩
    · left
      have hlast := congrArg List.getLast? heq
      rw [List.getLast?_concat, List.getLast?_concat] at hlast
      exact (Option.some.inj hlast).symm
    · right
      rw [List.concat_eq_append, ← List.cons_append, ← List.append_assoc] at heq
      rw [List.concat_eq_append, List.length_append, List.length_singleton] at hlength
      exact ⟨before, after', (List.append_inj' heq rfl).1, by omega⟩
  · rintro (rfl | ⟨before, after, rfl, hlength⟩)
    · exact ⟨l, [], rfl, Nat.succ_pos count⟩
    · refine ⟨before, after ++ [n], ?_, ?_⟩
      · rw [List.append_assoc, List.cons_append]
      · rw [List.length_append, List.length_singleton]
        omega

/-- The last few entries of a list are its end. The definition tells what came behind an
    entry, and this tells how many were dropped in front of it, which is what a ring does. -/
theorem recent_iff (count : Nat) (l : List Nat) (n : Nat) :
    Recent count l n ↔ n ∈ l.drop (l.length - count) := by
  constructor
  · rintro ⟨before, after, rfl, hlength⟩
    have hle : (before ++ n :: after).length - count ≤ before.length := by
      rw [List.length_append, List.length_cons]
      omega
    rw [List.drop_append_of_le_length hle]
    exact List.mem_append_right _ List.mem_cons_self
  · -- Where the end splits, the whole list splits in front of it.
    intro hmem
    rcases List.append_of_mem hmem with ⟨before, after, hdrop⟩
    refine ⟨l.take (l.length - count) ++ before, after, ?_, ?_⟩
    · rw [List.append_assoc, ← hdrop, List.take_append_drop]
    · have hlength := congrArg List.length hdrop
      rw [List.length_drop, List.length_append, List.length_cons] at hlength
      omega

/-- An entry is recent while all others come soon enough behind it. Entries
    may be out of order by `spread`. -/
theorem recent_of_bounded (count spread bound : Nat) (l : List Nat) (n : Nat) (hnodup : l.Nodup)
    (horder : l.Pairwise fun a b => a ≤ b + spread) (hbound : ∀ m ∈ l, m < bound) (hmem : n ∈ l)
    (hcount : bound + spread ≤ n + count) : Recent count l n := by
  rcases List.append_of_mem hmem with ⟨before, after, rfl⟩
  -- Whatever stands behind the entry is within the bounds, and no two are equal.
  have hbehind := (List.pairwise_append.mp horder).2.1
  rw [List.pairwise_cons] at hbehind
  have hle := Red.length_le_of_within (n :: after) (n - spread) count
    (List.nodup_append.mp hnodup).2.1 fun m hm => by
      have hlt := hbound m (List.mem_append_right _ hm)
      rcases List.mem_cons.mp hm with rfl | hafter
      · omega
      · have hspread := hbehind.1 m hafter
        omega
  exact ⟨before, after, rfl, hle⟩

/-- An entry is recent no more once enough others have come behind it. The list need not be
    increasing: it is enough that none of the others can stand in front of the entry, which
    is so when they are greater by more than entries are ever out of order. -/
theorem not_recent (count spread : Nat) (l later : List Nat) (n : Nat)
    (horder : l.Pairwise fun a b => a ≤ b + spread) (hnodup : later.Nodup)
    (hlater : ∀ m ∈ later, m ∈ l ∧ n + spread < m) (hcount : count ≤ later.length) :
    ¬ Recent count l n := by
  rintro ⟨before, after, rfl, hlength⟩
  have hbefore := (List.pairwise_append.mp horder).2.2
  -- None of the others can stand before the entry.
  have hsub : later ⊆ after := by
    intro m hm
    rcases hlater m hm with ⟨hin, hlt⟩
    rcases List.mem_append.mp hin with hold | hrest
    · have hle := hbefore m hold n List.mem_cons_self
      omega
    · rcases List.mem_cons.mp hrest with rfl | hafter
      · omega
      · exact hafter
  have hle := (List.subperm_of_subset hnodup hsub).length_le
  omega

theorem written_eq (size : Nat) (writes : List (Option UInt32)) :
    written size writes
      = List.replicate (size - writes.length) none ++ writes.drop (writes.length - size) := by
  rw [written, List.drop_append, List.drop_replicate, List.length_replicate]

theorem mem_written {size : Nat} {writes : List (Option UInt32)} {time : UInt32} :
    some time ∈ written size writes ↔ some time ∈ writes.drop (writes.length - size) := by
  rw [written_eq, List.mem_append, or_iff_right]
  exact fun hin => nomatch (List.mem_replicate.mp hin).2

theorem mem_written_map (size : Nat) (f : Nat → Option UInt32) (l : List Nat) (time : UInt32) :
    some time ∈ written size (l.map f) ↔ ∃ n, Recent size l n ∧ f n = some time := by
  rw [mem_written, List.length_map, ← List.map_drop, List.mem_map]
  simp only [recent_iff]

theorem written_map_congr (size : Nat) (f g : Nat → Option UInt32) (l : List Nat)
    (h : ∀ n, Recent size l n → f n = g n) : written size (l.map f) = written size (l.map g) := by
  have hrecent : (l.drop (l.length - size)).map f = (l.drop (l.length - size)).map g :=
    List.map_congr_left fun n hn => h n ((recent_iff size l n).mpr hn)
  rw [written_eq, written_eq, List.length_map, List.length_map, ← List.map_drop, ← List.map_drop,
    hrecent]

/-- A time that only one entry was written for stands in one slot at most. Older entries
    with the same time do no harm, if they have left the ring. -/
theorem count_written_le_one (size : Nat) (f : Nat → Option UInt32) (l : List Nat) (time : UInt32)
    (m : Nat) (hnodup : l.Nodup) (h : ∀ n, Recent size l n → f n = some time → n = m) :
    (written size (l.map f)).count (some time) ≤ 1 := by
  have hempty : (List.replicate (size - (l.map f).length) (none : Option UInt32)).count (some time)
      = 0 := List.count_eq_zero.mpr fun hin => by cases (List.mem_replicate.mp hin).2
  -- The slots with this time were written for `m`, and `m` was written once.
  have hone : (l.drop (l.length - size)).count m ≤ 1 :=
    List.nodup_iff_count_le_one.mp (hnodup.sublist (List.drop_sublist _ _)) m
  rw [written_eq, List.count_append, hempty, Nat.zero_add, List.length_map, ← List.map_drop,
    List.count, List.countP_map]
  refine le_trans (List.countP_mono_left fun n hn hf => ?_) hone
  rw [Function.comp_apply, beq_iff_eq] at hf
  rw [beq_iff_eq]
  exact h n ((recent_iff size l n).mpr hn) hf

/-- Removing a time that was written for one entry clears what was written for
    that entry. -/
theorem slots_remove_written {size : Nat} {f : Nat → Option UInt32} {l : List Nat} {w : Window}
    (h : w.slots = written size (l.map f)) (time : UInt32) (m : Nat) (hnodup : l.Nodup)
    (hone : ∀ n, Recent size l n → f n = some time → n = m) :
    (w.remove time).slots = written size (l.map fun n => Window.cleared time (f n)) := by
  -- With the time in one slot at most, the removal clears every slot that holds it.
  have hcount : w.slots.count (some time) ≤ 1 := by
    rw [h]
    exact count_written_le_one size f l time m hnodup hone
  rw [w.slots_remove time hcount, h, map_written size _ rfl, List.map_map]
  rfl

end Loss

end RedundantAudio
