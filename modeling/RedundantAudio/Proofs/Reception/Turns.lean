import RedundantAudio.Reception.Playout

/-!
# What a Push Does

Pushing a frame is one of three things. The frame is discarded as late; or it
is filed and slots are played; or everything that is pending is played first,
and the frame is filed into the empty queue that is left. The equations here
say so once, each under the placement that leads to it, and no proof behind
this module opens `push` again.

## Main definitions

* `Playout.known`: The queue once a frame has been seen.
* `Playout.renewed`: The queue that begins anew at a media time.

## Theorems

* `push_restart`, `push_late`, `push_slot`: What comes of a frame.
-/

namespace RedundantAudio

namespace Reception

namespace Playout

/-- The queue once a frame has been seen: it belongs to the stream of the frame,
    and begins at the frame if there was none before. -/
def known (p : Playout) (frame : Rtp.Frame) : Playout :=
  { p with ssrc := some frame.ssrc, next := some (p.next.getD frame.timestamp) }

/-- The queue that is left when everything is played, at another media time. -/
def renewed (p : Playout) (timestamp : UInt32) : Playout :=
  { p.flush.1 with next := some timestamp }

/-- Playing slots from the front: one is played at its media time, and the others are played
    one slot later. -/
theorem playFront_cons (n : Nat) (timestamp : UInt32) (slot : Slot) (slots : List Slot) :
    playFront (n + 1) timestamp (slot :: slots)
      = ((playFront n (timestamp + slotSamples) slots).1,
          (playFront n (timestamp + slotSamples) slots).2.1,
          playSlot timestamp slot slots ++ (playFront n (timestamp + slotSamples) slots).2.2) :=
  rfl

theorem playFront_zero (timestamp : UInt32) (slots : List Slot) :
    playFront 0 timestamp slots = (timestamp, slots, []) := by
  cases slots <;> rfl

theorem slotDistance_self (timestamp : UInt32) :
    slotDistance timestamp timestamp = (0, false) := by
  rw [slotDistance, UInt32.sub_self]
  rfl

/-- A frame that is filed is as many slots ahead of the first one, and not behind it. The
    place says no more than its index, and this is what the index means. -/
theorem distance_of_place_slot (p : Playout) (frame : Rtp.Frame) (index : Nat)
    (h : p.place frame = .slot index) :
    slotDistance frame.timestamp (p.next.getD frame.timestamp) = (index, false) := by
  rw [place] at h
  rcases hdistance : slotDistance frame.timestamp (p.next.getD frame.timestamp) with
    ⟨distance, behind⟩
  simp only [hdistance] at h
  -- Neither a frame that is late nor one that is too far ahead is filed.
  split at h
  · cases h
  · split at h
    · cases h
    · cases h
      -- Slot zero is the only one that could be behind, and it is not.
      cases behind with
      | false => rfl
      | true => contradiction

/-- A frame that is too far away restarts the queue: what is pending is played, and the
    frame is filed in a queue that begins with it. -/
theorem push_restart (p : Playout) (received : Received) (distance : Nat) (behind : Bool)
    (h : p.place received.frame = .restart distance behind) :
    p.push received
      = ((((p.known received.frame).renewed received.frame.timestamp).enqueue received 0).1,
          .restarted received.frame.ssrc received.frame.timestamp distance behind
            :: ((p.known received.frame).flush.2
              ++ (((p.known received.frame).renewed received.frame.timestamp).enqueue
                received 0).2)) := by
  rw [push, h]
  rfl

theorem push_late (p : Playout) (received : Received) (h : p.place received.frame = .late) :
    p.push received
      = (p.known received.frame, [.late received.frame.sequence received.frame.timestamp]) := by
  rw [push, h]
  rfl

/-- Any other frame is filed as many slots ahead as it is. -/
theorem push_slot (p : Playout) (received : Received) (index : Nat)
    (h : p.place received.frame = .slot index) :
    p.push received = (p.known received.frame).enqueue received index := by
  rw [push, h]
  rfl

end Playout

end Reception

end RedundantAudio
