import RedundantAudio.Proofs.Loss.Reports
import RedundantAudio.Proofs.Reception.Separation

/-!
# The Accounts of a Receiver

What a frame does to a receiver, it does to the tracker of its stream. If it can be
taken apart, its packet is accounted for, and the report that may be due is closed in the
same breath; `receive_of_decodes` has both in one equation, since whether a report
is due does not depend on the packet. Otherwise nothing happens at all.

Two things hold of every receiver, whatever it was given. Its streams are in order, so
that a tracker has one place, and what is put there again changes nothing. And all
trackers are tuned in the same way.

## Main definitions

* `Receiver.Reachable`: The receivers that come about.

## Theorems

* `Streams.insert_of_find`: A tracker that is in its place already.
* `Reachable.ordered`, `Reachable.tuned`: What holds of every receiver.
* `receive_of_decodes`, `trackerFor_receive`: What a frame does to the accounts.
* `closed_isSome_iff`: When a frame closes a report.
-/

namespace RedundantAudio

namespace Reception

theorem Streams.mem_of_find {streams : Streams} {ssrc : UInt32} {tracker : Loss.Tracker}
    (h : streams.find ssrc = some tracker) : (ssrc, tracker) ∈ streams := by
  rcases List.lookup_eq_some_iff.mp h with ⟨before, after, rfl, _⟩
  exact List.mem_append_right before List.mem_cons_self

/-- Nothing changes when a tracker is put where it is. That needs the list to be in order,
    since the search stops at the first entry that is greater. -/
theorem Streams.insert_of_find {streams : Streams} {ssrc : UInt32} {tracker : Loss.Tracker}
    (hordered : streams.Ordered) (h : streams.find ssrc = some tracker) :
    streams.insert ssrc tracker = streams := by
  induction streams with
  | nil => cases h
  | cons entry streams ih =>
      rcases entry with ⟨other, t⟩
      have hrest := List.pairwise_cons.mp hordered
      by_cases hsame : ssrc = other
      · subst hsame
        rw [find, List.lookup_cons_self, Option.some.injEq] at h
        rw [insert, if_neg (UInt32.lt_irrefl ssrc), if_pos rfl, h]
      · rw [find_cons_of_ne hsame] at h
        -- It is further on, so it is greater than the first.
        have hgt : other < ssrc := hrest.1 _ (mem_of_find h)
        rw [insert, if_neg (UInt32.not_lt.mpr (UInt32.le_of_lt hgt)), if_neg hsame,
          ih hrest.2 h]

namespace Receiver

/-- The receivers that come about: they take frames and messages, and their payload
    types are set. -/
inductive Reachable : Receiver → Prop
  | new (opusType redType : UInt8) (config : Loss.TrackerConfig) :
      Reachable (new opusType redType config)
  | receive (r : Receiver) (frame : Rtp.Frame) (h : Reachable r) : Reachable (r.receive frame).1
  | handle (r : Receiver) (message : Control) (h : Reachable r) : Reachable (r.handle message)
  | setTypes (r : Receiver) (opusType redType : UInt8) (h : Reachable r) :
      Reachable (r.setTypes opusType redType)

theorem accounts_handle (r : Receiver) (message : Control) :
    (r.handle message).streams = r.streams ∧ (r.handle message).config = r.config := by
  cases message <;> exact ⟨rfl, rfl⟩

/-- However a receiver came about, its streams are in order. -/
theorem Reachable.ordered {r : Receiver} (h : Reachable r) : r.streams.Ordered := by
  induction h with
  | new opusType redType config => exact List.Pairwise.nil
  | receive r frame _ ih => exact r.ordered_receive frame ih
  | handle r message _ ih =>
      rw [(r.accounts_handle message).1]
      exact ih
  | setTypes r opusType redType _ ih => exact ih

theorem config_receive (r : Receiver) (frame : Rtp.Frame) :
    (r.receive frame).1.config = r.config := by
  rw [receive_fst]
  rcases r.account_cases frame with ⟨_, haccount⟩ | ⟨_, haccount⟩ <;> rw [haccount]

/-- Every tracker is tuned as its receiver says, also one that is not there yet and would be
    made for a new stream. So the limits that a tracker goes by can be read off its
    receiver, whatever it has heard before. -/
theorem Reachable.tuned {r : Receiver} (h : Reachable r) :
    ∀ ssrc, (r.trackerFor ssrc).config = r.config := by
  induction h with
  | new opusType redType config =>
      intro ssrc
      rfl
  | receive r frame _ ih =>
      intro ssrc
      rw [config_receive, receive_fst]
      rcases r.account_cases frame with ⟨_, haccount⟩ | ⟨_, haccount⟩
      · rw [haccount]
        exact ih ssrc
      · rw [haccount, trackerFor]
        -- Only the tracker of the frame is another one, and accounting leaves its tuning.
        by_cases hsame : ssrc = frame.ssrc
        · rw [hsame, Streams.find_insert, Option.getD_some, Loss.Tracker.report_fst,
            Loss.Tracker.reported, Loss.Tracker.config_countPacket]
          exact ih frame.ssrc
        · rw [Streams.find_insert_of_ne hsame]
          exact ih ssrc
  | handle r message _ ih =>
      intro ssrc
      rw [trackerFor, (r.accounts_handle message).1, (r.accounts_handle message).2]
      exact ih ssrc
  | setTypes r opusType redType _ ih => exact ih

section Frame

variable {r : Receiver} {frame : Rtp.Frame}

/-- A stream that has just been accounted for: its tracker has counted the packet and
    remembers the report, if one was due, and the stream is the last one heard. -/
theorem receive_of_decodes (hdecodes : r.decodes frame = true) :
    (r.receive frame).1
      = { r with
          streams := r.streams.insert frame.ssrc
            (((r.trackerFor frame.ssrc).countPacket frame.sequence (r.blocksOf frame)).reported
              (if (r.trackerFor frame.ssrc).reportDue frame.timestamp then some frame.timestamp
                else (r.trackerFor frame.ssrc).lastReport))
          lastSsrc := some frame.ssrc } := by
  rcases r.account_cases frame with ⟨hno, _⟩ | ⟨_, haccount⟩
  · exact absurd (hno.symm.trans hdecodes) Bool.false_ne_true
  · rw [receive_fst, haccount, Loss.Tracker.report_fst, Loss.Tracker.reportDue_countPacket,
      Loss.Tracker.lastReport_countPacket]

theorem trackerFor_receive (hdecodes : r.decodes frame = true) :
    (r.receive frame).1.trackerFor frame.ssrc
      = ((r.trackerFor frame.ssrc).countPacket frame.sequence (r.blocksOf frame)).reported
          (if (r.trackerFor frame.ssrc).reportDue frame.timestamp then some frame.timestamp
            else (r.trackerFor frame.ssrc).lastReport) := by
  rw [receive_of_decodes hdecodes, trackerFor]
  exact congrArg (Option.getD · _) (Streams.find_insert _ _ _)

theorem find_receive_of_ne {other : UInt32} (h : other ≠ frame.ssrc) :
    (r.receive frame).1.streams.find other = r.streams.find other := by
  rw [receive_fst]
  rcases r.account_cases frame with ⟨_, haccount⟩ | ⟨_, haccount⟩
  · rw [haccount]
  · rw [haccount]
    exact Streams.find_insert_of_ne h

/-- A report is closed exactly if the frame can be taken apart and one is due. Whether one
    is due can be asked of the tracker before the frame. -/
theorem closed_isSome_iff :
    (r.turn frame).closed.isSome = true ↔
      r.decodes frame = true ∧ (r.trackerFor frame.ssrc).reportDue frame.timestamp = true := by
  -- A frame that cannot be taken apart is not accounted for at all.
  rcases r.account_cases frame with ⟨hno, haccount⟩ | ⟨hdecodes, haccount⟩
  · simp only [turn, haccount, Option.isSome_none, Bool.false_eq_true, hno, false_and]
  · rw [turn, haccount, hdecodes, Loss.Tracker.report, Loss.Tracker.reportDue_countPacket]
    by_cases hdue : (r.trackerFor frame.ssrc).reportDue frame.timestamp = true
    · simp only [hdue, if_true, Option.isSome_some, and_self]
    · simp only [hdue, Bool.false_eq_true, if_false, Option.isSome_none, and_false]

theorem handed_eq_closed (hsize : isOversize frame = false) :
    (r.turn frame).handed = (r.turn frame).closed := by
  have hreceived : (r.turn frame).received
      = some ⟨frame, r.blocksOf frame, (r.turn frame).closed⟩ :=
    if_neg (by rw [hsize]; exact Bool.false_ne_true)
  rw [Turn.handed, hreceived, Option.bind_some]

end Frame

end Receiver

end Reception

end RedundantAudio
