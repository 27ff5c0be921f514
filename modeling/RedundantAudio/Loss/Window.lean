/-!
# Recent Timestamps

A ring of the media times seen last. Adding to a full ring overwrites the
slot written longest ago, and removing a time leaves its slot empty without
moving any other, so an entry lives for exactly as many additions as the ring
has slots, however many entries beside it are removed.

The ring is kept as the two runs of slots that the write position separates:
`older` from that position to the end, `newer` from the start up to it. Read
one after the other, oldest slot first, they are the slots in the order of
their last writing, so every operation is an operation on lists and no index
is ever taken modulo the capacity. The write position always points at a
slot, which is what `older_ne_nil` says.

A time may stand in several slots when it is added while it is still there.
Removal then clears the first one from the start of the ring.

## Main definitions

* `Window`: The ring.
* `Window.add`, `Window.contains`, `Window.remove`: Its operations.
* `Window.withdraw`: Removes a time and tells whether it was there.
* `Window.slots`: The slots, the one written longest ago first.
-/

namespace RedundantAudio

namespace Loss

/-- A ring of recent media times. -/
structure Window where
  /-- The slots from the start of the ring up to the write position. -/
  newer : List (Option UInt32)
  /-- The slots from the write position to the end of the ring. -/
  older : List (Option UInt32)
  /-- The write position points at a slot. -/
  older_ne_nil : older ≠ []
  deriving DecidableEq, Repr

namespace Window

/-- An empty ring. A ring has at least one slot. -/
def empty (capacity : Nat) : Window where
  newer := []
  older := List.replicate (max capacity 1) none
  older_ne_nil := by simp

/-- The slots, the one written longest ago first. -/
def slots (w : Window) : List (Option UInt32) :=
  w.older ++ w.newer

/-- The number of slots. -/
def capacity (w : Window) : Nat :=
  w.slots.length

/-- The number of times in the ring. -/
def size (w : Window) : Nat :=
  w.slots.countP Option.isSome

/-- Whether the ring holds a time. -/
def contains (w : Window) (time : UInt32) : Bool :=
  w.slots.contains (some time)

/-- Writes a time at the write position and moves on, back to the start when
    the end is reached. -/
def add (w : Window) (time : UInt32) : Window :=
  match w.older with
  | _ :: next :: rest =>
    { newer := w.newer ++ [some time], older := next :: rest, older_ne_nil := by simp }
  | _ => { newer := [], older := w.newer ++ [some time], older_ne_nil := by simp }

/-- Empties the first slot that holds a time. -/
def clearFirst (time : UInt32) : List (Option UInt32) → List (Option UInt32)
  | [] => []
  | slot :: slots =>
    if slot = some time then none :: slots else slot :: clearFirst time slots

theorem length_clearFirst (time : UInt32) (slots : List (Option UInt32)) :
    (clearFirst time slots).length = slots.length := by
  induction slots with
  | nil => rfl
  | cons slot slots ih => by_cases h : slot = some time <;> simp [clearFirst, h, ih]

/-- Empties the first slot from the start of the ring that holds a time.
    Nothing happens when there is none. -/
def remove (w : Window) (time : UInt32) : Window :=
  if w.newer.contains (some time) then
    { w with newer := clearFirst time w.newer }
  else
    { w with
      older := clearFirst time w.older
      older_ne_nil := by
        intro h
        have := length_clearFirst time w.older
        rw [h] at this
        exact w.older_ne_nil (List.length_eq_zero_iff.mp this.symm) }

/-- The slots with the first one that holds a time emptied, if one does. -/
def clearFound (time : UInt32) : List (Option UInt32) → Option (List (Option UInt32))
  | [] => none
  | slot :: slots =>
    if slot = some time then some (none :: slots) else (clearFound time slots).map (slot :: ·)

theorem clearFound_eq (time : UInt32) (slots : List (Option UInt32)) :
    clearFound time slots
      = if slots.contains (some time) then some (clearFirst time slots) else none := by
  induction slots with
  | nil => rfl
  | cons slot slots ih =>
    rw [clearFound, clearFirst, ih, List.contains_cons]
    by_cases h : slot = some time
    · rw [if_pos h, if_pos h, h, beq_self_eq_true, Bool.true_or, if_pos rfl]
    · rw [if_neg h, if_neg h, beq_false_of_ne (Ne.symm h), Bool.false_or]
      split <;> rfl

theorem clearFound_ne_nil {time : UInt32} {slots found : List (Option UInt32)}
    (h : clearFound time slots = some found) (hne : slots ≠ []) : found ≠ [] := by
  rw [clearFound_eq] at h
  split at h
  · rw [← Option.some.inj h]
    intro hnil
    have := length_clearFirst time slots
    rw [hnil] at this
    exact hne (List.length_eq_zero_iff.mp this.symm)
  · cases h

/-- Removes a time, and tells whether the ring held it. The slots are searched
    once. -/
def withdraw (w : Window) (time : UInt32) : Window × Bool :=
  match clearFound time w.newer with
  | some newer => ({ w with newer := newer }, true)
  | none =>
    match h : clearFound time w.older with
    | some older =>
      ({ w with older := older, older_ne_nil := clearFound_ne_nil h w.older_ne_nil }, true)
    | none => (w, false)

end Window

end Loss

end RedundantAudio
