import RedundantAudio.Proofs.Loss.Repeats
import RedundantAudio.Proofs.Reception.Accounting

/-!
# Frames That Are Dropped

A frame that is too large is dropped, and nothing of it goes on. Its size is looked
at last, though, and by then the frame has been taken apart and accounted for. So a
dropped frame leaves the accounts as it found them only if it could not be taken apart,
or if it has nothing to say to them. In any other case its packet counts as
one that arrived, its blocks are credited, and if it is time for a report then that is
closed. The report is not handed on with a frame that is not, and the next one is due
an interval later.

What a packet without anything to say is, `countPacket_eq_self_iff` tells of a tracker.
Here it remains to put the tracker back where it was.

## Theorems

* `find_of_idle`: A packet without anything to say belongs to a stream on the list.
* `receive_eq_self_iff`: When a frame leaves everything as it is.
* `dropped_frame_accounts`: What a dropped frame does to the accounts.
* `dropped_frame_closes_report`: A report that is lost.
-/

namespace RedundantAudio

namespace Reception

namespace Receiver

section Frame

variable {r : Receiver} {frame : Rtp.Frame}

/-- A tracker that has accounted for some packet is on the list. -/
theorem find_of_idle
    (h : (r.trackerFor frame.ssrc).accepts frame.sequence = false ∨
      Loss.Known (r.trackerFor frame.ssrc) frame.sequence frame.timestamp) :
    r.streams.find frame.ssrc = some (r.trackerFor frame.ssrc) := by
  cases hfind : r.streams.find frame.ssrc with
  | some t => rw [trackerFor, hfind, Option.getD_some]
  | none =>
      -- A new tracker refuses nothing and knows nothing.
      rw [trackerFor, hfind] at h
      rcases h with hno | ⟨newest, hnewest, _⟩
      · cases hno
      · cases hnewest

/-- A frame leaves a receiver as it is exactly if it cannot be taken apart, or it is of
    the stream that was accounted for last, closes no report and brings nothing
    that is not known. The time of the last report may also stay the same when one is
    closed, namely at that very time, if the interval between reports is zero. -/
theorem receive_eq_self_iff (hr : r.Reachable) :
    (r.receive frame).1 = r ↔ r.decodes frame = false ∨
      r.lastSsrc = some frame.ssrc ∧
        ((r.trackerFor frame.ssrc).reportDue frame.timestamp = true →
          (r.trackerFor frame.ssrc).lastReport = some frame.timestamp) ∧
        ((r.trackerFor frame.ssrc).accepts frame.sequence = false ∨
          Loss.Known (r.trackerFor frame.ssrc) frame.sequence frame.timestamp) ∧
        ((r.trackerFor frame.ssrc).counters.lost = 0 ∨ ∀ block ∈ r.blocksOf frame,
          Loss.Exhausted (r.trackerFor frame.ssrc) frame.sequence block) := by
  rcases r.blocksOf_cases frame with
    ⟨hno, hblocks⟩ | ⟨hdecodes, redundant, primary, hblocks, hredundant, hlast, htime⟩
  · rw [receive_fst, account, hblocks]
    exact iff_of_true rfl (Or.inl hno)
  -- What the tracker does with the packet is known; the rest is about the receiver.
  have hiff := Loss.countPacket_eq_self_iff (r.trackerFor frame.ssrc) frame.sequence
    hredundant hlast
  rw [← hblocks, htime] at hiff
  rw [or_iff_right fun hno => Bool.false_ne_true (hno.symm.trans hdecodes), ← hiff]
  -- If nothing has changed, then no part has; and the parts are the stream heard last, the
  -- time of the report and the accounts.
  constructor
  · intro heq
    have htracker := trackerFor_receive hdecodes
    rw [heq] at htracker
    have hreport := congrArg Loss.Tracker.lastReport htracker
    refine ⟨?_, fun hdue => ?_, ?_⟩
    · rw [← heq, receive_of_decodes hdecodes]
    · rw [hreport, if_pos hdue]
      rfl
    · exact Loss.Tracker.eq_of_reported htracker (Loss.Tracker.lastReport_countPacket _ _ _)
  · rintro ⟨hstream, hdue, hcounted⟩
    -- A tracker that is put where it was changes nothing, so it has to be there.
    have hfind := find_of_idle (hiff.mp hcounted).1
    have hreport : (if (r.trackerFor frame.ssrc).reportDue frame.timestamp
        then some frame.timestamp else (r.trackerFor frame.ssrc).lastReport)
          = (r.trackerFor frame.ssrc).lastReport := by
      split
      case isTrue h => exact (hdue h).symm
      case isFalse => rfl
    rw [receive_of_decodes hdecodes, hcounted, hreport, ← hstream]
    exact congrArg (fun streams => { r with streams })
      (Streams.insert_of_find hr.ordered hfind)

end Frame

/-- A frame that is too large is not handed on, but whatever it does to the accounts it does
    all the same. It leaves everything as it is exactly if `receive_eq_self_iff` says so.
    Otherwise its stream becomes the one accounted for last, and has its packet on the
    books as one that arrived. A report is closed when it is due and handed to nobody, and
    then none is due until another interval has passed. -/
theorem dropped_frame_accounts {r : Receiver} (hr : r.Reachable) (frame : Rtp.Frame)
    (hsize : isOversize frame = true) :
    let t := r.trackerFor frame.ssrc
    let after := (r.receive frame).1
    (r.receive frame).2 = none ∧
      (after = r ↔ r.decodes frame = false ∨
        r.lastSsrc = some frame.ssrc ∧
          (t.reportDue frame.timestamp = true → t.lastReport = some frame.timestamp) ∧
          (t.accepts frame.sequence = false ∨ Loss.Known t frame.sequence frame.timestamp) ∧
          (t.counters.lost = 0 ∨
            ∀ block ∈ r.blocksOf frame, Loss.Exhausted t frame.sequence block)) ∧
      (∀ other, other ≠ frame.ssrc → after.streams.find other = r.streams.find other) ∧
      (r.decodes frame = true → after.lastSsrc = some frame.ssrc ∧
        Loss.Agrees (after.trackerFor frame.ssrc)
          (t.countPrimary frame.sequence frame.timestamp)) ∧
      ((r.turn frame).closed.isSome = true ↔
        r.decodes frame = true ∧ t.reportDue frame.timestamp = true) ∧
      ((r.turn frame).closed.isSome = true → ∀ time,
        (after.trackerFor frame.ssrc).reportDue time
          = decide (r.config.reportInterval ≤ time - frame.timestamp)) := by
  intro t after
  refine ⟨if_pos hsize, receive_eq_self_iff hr, fun other => find_receive_of_ne,
    fun hdecodes => ⟨?_, ?_⟩, closed_isSome_iff, fun hclosed time => ?_⟩
  · simp only [after, receive_of_decodes hdecodes]
  · -- Credits leave the books of primaries alone, so the primary is all that counts.
    rcases r.blocksOf_cases frame with
      ⟨hno, _⟩ | ⟨_, redundant, primary, hblocks, hredundant, hlast, htime⟩
    · exact absurd (hno.symm.trans hdecodes) Bool.false_ne_true
    · have hagrees := Loss.agrees_countPacket t frame.sequence hredundant hlast
      rw [← hblocks, htime] at hagrees
      simp only [after, trackerFor_receive hdecodes]
      exact ⟨hagrees.config_eq, hagrees.newest_eq, hagrees.primaries_eq, hagrees.expected_eq,
        hagrees.lost_eq⟩
  · -- The report that was closed is remembered, though nobody gets it.
    rcases closed_isSome_iff.mp hclosed with ⟨hdecodes, hdue⟩
    simp only [after, trackerFor_receive hdecodes, hdue, if_true]
    rw [Loss.Tracker.reportDue, Loss.Tracker.reported, Loss.Tracker.config_countPacket,
      hr.tuned frame.ssrc]

/-- A packet of one byte, in a frame that is one byte too large. -/
def oversizeFrame (sequence : UInt16) (timestamp : UInt32) : Rtp.Frame where
  sequence := sequence
  timestamp := timestamp
  ssrc := 9
  payloadType := 63
  payload := 111 :: List.replicate 1000 8

/-- A frame that is dropped closes the report that is due after five seconds, and the frame
    behind it closes none. So that report reaches no one, though its frame was accounted
    for. -/
theorem dropped_frame_closes_report :
    let r := ((new 111 63 {}).receive (plainFrame 9 0 [111, 8])).1
    let after := (r.receive (oversizeFrame 250 240000)).1
    (r.receive (oversizeFrame 250 240000)).2 = none ∧
      (r.turn (oversizeFrame 250 240000)).closed.isSome = true ∧
      after.lastSsrc = some 9 ∧
      (after.turn (plainFrame 9 251 [111, 8])).closed = none := by
  intro r after
  have hr : r.Reachable := .receive _ _ (.new 111 63 {})
  have hsize : isOversize (oversizeFrame 250 240000) = true := by decide +kernel
  have hdecodes : r.decodes (oversizeFrame 250 240000) = true := by decide +kernel
  rcases dropped_frame_accounts hr (oversizeFrame 250 240000) hsize with
    ⟨hnone, _, _, hstream, hclosed, hnext⟩
  have hlost := hclosed.mpr ⟨hdecodes, by decide⟩
  refine ⟨hnone, hlost, (hstream hdecodes).1, Option.not_isSome_iff_eq_none.mp fun hyes => ?_⟩
  have hdue := (closed_isSome_iff.mp hyes).2
  have hnot := hnext hlost (plainFrame 9 251 [111, 8]).timestamp
  exact absurd (hdue.symm.trans hnot) (by decide)

end Receiver

end Reception

end RedundantAudio
