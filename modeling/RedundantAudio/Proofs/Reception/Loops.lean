import RedundantAudio.Proofs.Reception.Turns

/-!
# The Loops of Playout

Slots are played one at a time, in two loops. One goes on until few enough slots
are pending, and one until nothing can be played. How many turns that takes is
known in advance, which is what `drain` and `flush` are built on; but it is known
only if every turn plays a slot, and that is not what the first loop asks for.
It asks how many slots are left. A queue that does not know its media time plays
nothing, and if too many slots are pending in it then the loop goes on for good.

So the loops are here as what they are, a condition and a turn, and a finite
derivation is a loop that ends. `drains_iff` says when that is. It always is
during a push, because the queue has seen the frame by then, and `pushes_push`
says that a push with these loops in it is the push of the library.

## Main definitions

* `Playout.playNext`: Plays one slot.
* `Drains`, `Empties`: The loops, for as many turns as they take.
* `Pushes`: A push with these loops.

## Theorems

* `drains_iff`: When the first loop ends, and how.
* `empties_flush`: The second loop always ends.
* `pushes_push`: A push always ends.
-/

namespace RedundantAudio

namespace Reception

namespace Playout

/-- Plays the slot at the front, if there is one and its media time is known. -/
def playNext (p : Playout) : Option (Playout × List Event) :=
  match p.next, p.slots with
  | some timestamp, slot :: slots =>
    some ({ p with next := some (timestamp + slotSamples), slots },
      playSlot timestamp slot slots)
  | _, _ => none

/-- The loop that plays slots while more than so many are pending. A turn in
    which nothing can be played changes nothing, and the loop goes on. -/
inductive Drains (keep : Nat) : Playout → List Event → Playout → Prop
  | done (p : Playout) (h : p.slots.length ≤ keep) : Drains keep p [] p
  | turn (p q : Playout) (events later : List Event) (last : Playout)
      (h : keep < p.slots.length) (hplay : p.playNext = some (q, events))
      (hrest : Drains keep q later last) : Drains keep p (events ++ later) last
  | idle (p : Playout) (later : List Event) (last : Playout) (h : keep < p.slots.length)
      (hplay : p.playNext = none) (hrest : Drains keep p later last) : Drains keep p later last

/-- The loop that plays slots as long as one can be played. -/
inductive Empties : Playout → List Event → Playout → Prop
  | done (p : Playout) (h : p.playNext = none) : Empties p [] p
  | turn (p q : Playout) (events later : List Event) (last : Playout)
      (hplay : p.playNext = some (q, events)) (hrest : Empties q later last) :
      Empties p (events ++ later) last

/-- What comes of a push, with the loops that it runs. -/
inductive Pushes (p : Playout) (received : Received) : List Event → Playout → Prop
  | restart (distance : Nat) (behind : Bool) (played later : List Event) (flushed last : Playout)
      (hplace : p.place received.frame = .restart distance behind)
      (hflush : Empties (p.known received.frame) played flushed)
      (hdrain : Drains p.config.delay
        ({ flushed with next := some received.frame.timestamp }.file received 0).1 later last) :
      Pushes p received
        (.restarted received.frame.ssrc received.frame.timestamp distance behind :: (played
          ++ (({ flushed with next := some received.frame.timestamp }.file received 0).2 ++ later)))
        last
  | late (hplace : p.place received.frame = .late) :
      Pushes p received [.late received.frame.sequence received.frame.timestamp]
        (p.known received.frame)
  | slot (index : Nat) (later : List Event) (last : Playout)
      (hplace : p.place received.frame = .slot index)
      (hdrain : Drains p.config.delay ((p.known received.frame).file received index).1 later
        last) :
      Pushes p received (((p.known received.frame).file received index).2 ++ later) last

theorem playNext_cons (p : Playout) (timestamp : UInt32) (slot : Slot) (slots : List Slot)
    (hnext : p.next = some timestamp) (hslots : p.slots = slot :: slots) :
    p.playNext = some ({ p with next := some (timestamp + slotSamples), slots },
      playSlot timestamp slot slots) := by
  simp only [playNext, hnext, hslots]

theorem playNext_none (p : Playout) (h : p.next = none) : p.playNext = none := by
  simp only [playNext, h]

theorem playNext_nil (p : Playout) (h : p.slots = []) : p.playNext = none := by
  unfold playNext
  split
  · next _ _ _ hslots => rw [h] at hslots; cases hslots
  · rfl

/-- A turn of a loop is a turn of the reckoning: what is left to be played, is
    played from the queue behind it. -/
theorem drain_cons (p : Playout) (keep : Nat) (timestamp : UInt32) (slot : Slot)
    (slots : List Slot) (hnext : p.next = some timestamp) (hslots : p.slots = slot :: slots)
    (hkeep : keep ≤ slots.length) :
    p.drain keep
      = ((({ p with next := some (timestamp + slotSamples), slots } : Playout).drain keep).1,
          playSlot timestamp slot slots
            ++ (({ p with next := some (timestamp + slotSamples), slots } : Playout).drain
              keep).2) := by
  have hcount : (slot :: slots).length - keep = slots.length - keep + 1 := by
    rw [List.length_cons]
    omega
  simp only [drain, hnext, hslots, hcount, playFront_cons]

/-- Where few enough slots are pending, none is played. -/
theorem drain_of_le (p : Playout) (keep : Nat) (h : p.slots.length ≤ keep) :
    p.drain keep = (p, []) := by
  unfold drain
  cases hnext : p.next with
  | none => rfl
  | some timestamp =>
      simp only [Nat.sub_eq_zero_of_le h, playFront_zero]
      rw [← hnext]

/-- The loop does what the reckoning says, when it is known what media time is next. It
    stops on any queue: each turn takes the front slot off, and it ends when so many are
    left as are to be kept. -/
theorem drains_drain (keep : Nat) (slots : List Slot) :
    ∀ (p : Playout) (timestamp : UInt32), p.next = some timestamp → p.slots = slots →
      Drains keep p (p.drain keep).2 (p.drain keep).1 := by
  -- By induction on the slots that are pending, one of which is played in a turn.
  induction slots with
  | nil =>
      intro p timestamp _ hslots
      have hle : p.slots.length ≤ keep := by
        rw [hslots]
        exact Nat.zero_le _
      rw [drain_of_le p keep hle]
      exact .done p hle
  | cons slot slots ih =>
      intro p timestamp hnext hslots
      by_cases hle : p.slots.length ≤ keep
      · rw [drain_of_le p keep hle]
        exact .done p hle
      · -- There is a turn to take, and behind it one slot less is pending.
        have hkeep : keep ≤ slots.length := by
          rw [hslots, List.length_cons] at hle
          omega
        rw [drain_cons p keep timestamp slot slots hnext hslots hkeep]
        exact .turn p _ _ _ _ (Nat.lt_of_not_le hle)
          (playNext_cons p timestamp slot slots hnext hslots) (ih _ _ rfl rfl)

/-- Without a media time, nothing can be played. The loop then ends only where there is
    nothing to do. -/
theorem not_drains_idle {keep : Nat} {p last : Playout} {events : List Event}
    (h : Drains keep p events last) (hnext : p.next = none) : p.slots.length ≤ keep := by
  induction h with
  | done p h => exact h
  | turn p q events later last _ hplay _ _ =>
      rw [playNext_none p hnext] at hplay
      cases hplay
  | idle p later last _ _ _ ih => exact ih hnext

/-- The loop ends exactly if there is nothing to play, or it is known when to
    play it. -/
theorem drains_iff (keep : Nat) (p : Playout) :
    (∃ events last, Drains keep p events last) ↔ p.slots.length ≤ keep ∨ p.next.isSome := by
  constructor
  · rintro ⟨events, last, h⟩
    cases hnext : p.next with
    | none => exact Or.inl (not_drains_idle h hnext)
    | some timestamp => exact Or.inr rfl
  · rintro (hle | hnext)
    · exact ⟨[], p, .done p hle⟩
    · -- With a media time, `drains_drain` gives the run.
      rcases Option.isSome_iff_exists.mp hnext with ⟨timestamp, hnext⟩
      exact ⟨_, _, drains_drain keep p.slots p timestamp hnext rfl⟩

/-- Playing as long as a slot can be played is draining the queue down to none, by induction
    on the slots that are pending. -/
theorem empties_drain (slots : List Slot) :
    ∀ (p : Playout) (timestamp : UInt32), p.next = some timestamp → p.slots = slots →
      Empties p (p.drain 0).2 (p.drain 0).1 := by
  induction slots with
  | nil =>
      intro p timestamp _ hslots
      rw [drain_of_le p 0 (by rw [hslots]; exact Nat.le_refl 0)]
      exact .done p (playNext_nil p hslots)
  | cons slot slots ih =>
      intro p timestamp hnext hslots
      rw [drain_cons p 0 timestamp slot slots hnext hslots (Nat.zero_le _)]
      exact .turn p _ _ _ _ (playNext_cons p timestamp slot slots hnext hslots) (ih _ _ rfl rfl)

/-- A flush plays everything that can be played. It always ends. -/
theorem empties_flush (p : Playout) : Empties p p.flush.2 p.flush.1 := by
  cases hnext : p.next with
  | none =>
      -- Nothing can be played, and nothing is.
      have hflush : p.flush = (p, []) := by
        simp only [flush, drain, hnext]
      rw [hflush]
      exact .done p (playNext_none p hnext)
  | some timestamp => exact empties_drain p.slots p timestamp hnext rfl

/-- The media time is known when a frame is filed, so the loop ends. -/
theorem drains_enqueue (p : Playout) (received : Received) (index : Nat) (timestamp : UInt32)
    (hnext : p.next = some timestamp) :
    ∃ later, Drains p.config.delay (p.file received index).1 later (p.enqueue received index).1 ∧
      (p.enqueue received index).2 = (p.file received index).2 ++ later :=
  ⟨_, drains_drain _ _ (p.file received index).1 timestamp hnext rfl, rfl⟩

theorem config_drain (p : Playout) (keep : Nat) : (p.drain keep).1.config = p.config := by
  unfold drain
  split <;> rfl

/-- A push ends on any queue, and does what the library says. Where playout begins anew it
    runs two loops, one that empties the queue and one that drains it again behind the
    frame. -/
theorem pushes_push (p : Playout) (received : Received) :
    Pushes p received (p.push received).2 (p.push received).1 := by
  cases hplace : p.place received.frame with
  | restart distance behind =>
      -- The queue that is drained behind a restart keeps as many slots as the one before.
      have hconfig : ((p.known received.frame).renewed received.frame.timestamp).config
          = p.config := config_drain (p.known received.frame) 0
      rcases drains_enqueue ((p.known received.frame).renewed received.frame.timestamp) received 0
        received.frame.timestamp rfl with ⟨later, hdrain, hevents⟩
      rw [hconfig] at hdrain
      rw [push_restart p received distance behind hplace, hevents]
      exact .restart distance behind _ later _ _ hplace (empties_flush _) hdrain
  | late =>
      rw [push_late p received hplace]
      exact .late hplace
  | slot index =>
      rcases drains_enqueue (p.known received.frame) received index _ rfl with
        ⟨later, hdrain, hevents⟩
      rw [push_slot p received index hplace, hevents]
      exact .slot index later _ hplace hdrain

end Playout

end Reception

end RedundantAudio
