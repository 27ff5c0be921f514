import Mathlib.Data.List.Basic
import Mathlib.Data.List.Induction
import RedundantAudio.Proofs.Reception.Hearing
import RedundantAudio.Proofs.Red.Grammar

/-!
# Streams Kept Apart

A receiver is given the frames of all streams in the order in which they come,
and keeps all trackers in one list. What it says about one stream is nevertheless
what it would say if no other stream existed: neither a frame of another stream
nor one that cannot be taken apart comes near the tracker, its rings or the time
of its last report.

So there are two runs to compare, one with all frames and one with the frames
that concern the stream. They are kept in step by the tracker of the stream
alone: a frame that is left out of the second run does not touch it in the first,
and a frame that is in both does the same to it.

That a stream is in the list at all is due to a frame of its own, and the list
stays in order whatever is put in.

## Main definitions

* `Receiver.decodes`, `Receiver.concerns`: The frames that are accounted for.
* `Receiver.receiveAll`: A receiver after some frames.
* `Turn`, `Receiver.turns`: What becomes of a frame, and of some frames.

## Theorems

* `Streams.find_insert_of_ne`: A stream is not disturbed by another one.
* `Streams.ordered_insert`: The streams stay in order.
* `Receiver.account_cases`: What becomes of the accounts.
* `Receiver.follows_own`, `Receiver.follows_other`: The two runs stay in step.
* `Receiver.streams_separate`: A stream is accounted for by itself.
-/

namespace RedundantAudio

namespace Reception

namespace Streams

variable {ssrc other : UInt32} {tracker : Loss.Tracker} {streams : Streams}

/-- The streams are in increasing order, and none is there twice. -/
def Ordered (streams : Streams) : Prop :=
  streams.Pairwise fun a b => a.1 < b.1

theorem find_cons_of_ne (h : ssrc ≠ other) :
    find ((other, tracker) :: streams) ssrc = streams.find ssrc := by
  rw [find, List.lookup_cons, beq_eq_false_iff_ne.mpr h]
  rfl

/-- A stream is not disturbed by what is put in for another one. -/
theorem find_insert_of_ne (h : ssrc ≠ other) :
    (streams.insert other tracker).find ssrc = streams.find ssrc := by
  induction streams with
  | nil => exact find_cons_of_ne h
  | cons entry streams ih =>
      rcases entry with ⟨key, t⟩
      rw [insert]
      split
      · exact find_cons_of_ne h
      · split
        · next heq =>
          rw [find_cons_of_ne h, find_cons_of_ne (heq ▸ h)]
        · -- The search stops at the stream, or goes on behind the entry.
          by_cases hkey : ssrc = key
          · rw [hkey, find, find, List.lookup_cons_self, List.lookup_cons_self]
          · rw [find_cons_of_ne hkey, find_cons_of_ne hkey, ih]

/-- The streams on a list are those before and the one that is put in. -/
theorem mem_keys_insert (x : UInt32) :
    x ∈ (streams.insert ssrc tracker).map Prod.fst ↔ x = ssrc ∨ x ∈ streams.map Prod.fst := by
  induction streams with
  | nil => exact List.mem_cons
  | cons entry streams ih =>
      rcases entry with ⟨key, t⟩
      rw [insert]
      split
      · exact List.mem_cons
      · split
        · next heq =>
          rw [List.map_cons, List.map_cons, List.mem_cons, List.mem_cons, heq, or_self_left]
        · rw [List.map_cons, List.map_cons, List.mem_cons, List.mem_cons, ih, or_left_comm]

/-- The streams stay in order when one is put in. That order is by their identifiers, so it
    says nothing about which of them was heard first. -/
theorem ordered_insert (h : streams.Ordered) : (streams.insert ssrc tracker).Ordered := by
  induction streams with
  | nil => exact List.pairwise_singleton _ _
  | cons entry streams ih =>
      rcases entry with ⟨key, t⟩
      have hrest := List.pairwise_cons.mp h
      rw [insert]
      split
      · next hlt =>
        refine List.pairwise_cons.mpr ⟨fun e he => ?_, h⟩
        rcases List.mem_cons.mp he with rfl | he
        · exact hlt
        · exact UInt32.lt_trans hlt (hrest.1 e he)
      · next hnlt =>
        split
        · next heq => exact List.pairwise_cons.mpr ⟨heq ▸ hrest.1, hrest.2⟩
        · next hne =>
          refine List.pairwise_cons.mpr ⟨fun e he => ?_, ih hrest.2⟩
          -- Whatever is behind the first was there, or is the one that was put in.
          rcases (mem_keys_insert e.1).mp (List.mem_map_of_mem he) with hnew | hold
          · rw [hnew]
            exact UInt32.lt_of_le_of_ne (UInt32.not_lt.mp hnlt) fun heq => hne heq.symm
          · rcases List.mem_map.mp hold with ⟨e', he', heq⟩
            rw [← heq]
            exact hrest.1 e' he'

/-- In an ordered list every entry is found, since no stream is there twice. A search by
    itself would only find the first entry of a stream. -/
theorem find_of_mem (h : streams.Ordered) (hin : (ssrc, tracker) ∈ streams) :
    streams.find ssrc = some tracker := by
  induction streams with
  | nil => cases hin
  | cons entry streams ih =>
      rcases entry with ⟨key, t⟩
      have hrest := List.pairwise_cons.mp h
      rcases List.mem_cons.mp hin with heq | hin
      · cases heq
        exact List.lookup_cons_self
      · have hne : ssrc ≠ key := fun heq =>
          UInt32.lt_irrefl key (heq ▸ hrest.1 (ssrc, tracker) hin)
        rw [find_cons_of_ne hne, ih hrest.2 hin]

end Streams

/-- What becomes of a frame. -/
structure Turn where
  /-- The frame. -/
  frame : Rtp.Frame
  /-- What is handed on. -/
  received : Option Received
  /-- The report that the frame closes, whether or not the frame goes on. -/
  closed : Option Loss.Report
  deriving DecidableEq, Repr

/-- The report that is handed on. -/
def Turn.handed (turn : Turn) : Option Loss.Report :=
  turn.received.bind (·.report)

namespace Receiver

variable (r : Receiver)

/-- A frame is a redundant packet, by its type, and can be taken apart. -/
def decodes (frame : Rtp.Frame) : Bool :=
  frame.payloadType = r.redType && (Red.decode frame.timestamp frame.payload r.opusType).isOk

/-- A frame is accounted for, to the credit of a stream. -/
def concerns (ssrc : UInt32) (frame : Rtp.Frame) : Bool :=
  frame.ssrc = ssrc && r.decodes frame

/-- A receiver after some frames. -/
def receiveAll (frames : List Rtp.Frame) : Receiver :=
  frames.foldl (fun r frame => (r.receive frame).1) r

/-- What becomes of a frame. -/
def turn (frame : Rtp.Frame) : Turn where
  frame := frame
  received := (r.receive frame).2
  closed := (r.account frame (r.blocksOf frame)).2

/-- What becomes of some frames, one after the other. -/
def turns : Receiver → List Rtp.Frame → List Turn
  | _, [] => []
  | r, frame :: frames => r.turn frame :: turns (r.receive frame).1 frames

theorem decodes_congr {r q : Receiver} (hopus : r.opusType = q.opusType)
    (hred : r.redType = q.redType) : r.decodes = q.decodes := by
  funext frame
  rw [decodes, decodes, hopus, hred]

theorem blocksOf_congr {r q : Receiver} (hopus : r.opusType = q.opusType)
    (hred : r.redType = q.redType) (frame : Rtp.Frame) : r.blocksOf frame = q.blocksOf frame := by
  rw [blocksOf, blocksOf, takeApart, takeApart, hopus, hred]

/-- A frame that can be taken apart has a primary block, which is the last one and of the
    same media time. Any other frame has no blocks, so no tracker hears of it. -/
theorem blocksOf_cases (frame : Rtp.Frame) :
    r.decodes frame = false ∧ r.blocksOf frame = [] ∨
      r.decodes frame = true ∧ ∃ redundant primary,
        r.blocksOf frame = redundant ++ [primary] ∧
          (∀ block ∈ redundant, block.isLast = false) ∧ primary.isLast = true ∧
          primary.timestamp = frame.timestamp := by
  rw [blocksOf, takeApart, decodes]
  by_cases htype : frame.payloadType = r.redType
  · rw [if_pos htype, decide_eq_true htype, Bool.true_and]
    cases hdecode : Red.decode frame.timestamp frame.payload r.opusType with
    | error error => exact Or.inl ⟨rfl, rfl⟩
    | ok blocks =>
        -- A payload that is accepted was announced block by block, with the primary last.
        cases (Red.decode_eq_iff _ _ _ _).mp hdecode with
        | accepted redundant primary hcarriable _ _ =>
            refine Or.inr ⟨rfl, redundant.map heard,
              heard (Red.primaryBlock frame.timestamp r.opusType primary), ?_, ?_, rfl, rfl⟩
            · exact List.map_append
            · intro block hblock
              rcases List.mem_map.mp hblock with ⟨carried, hcarried, rfl⟩
              exact (hcarriable carried hcarried).isLast_eq
  · rw [if_neg htype, decide_eq_false htype]
    exact Or.inl ⟨rfl, rfl⟩

/-! ### One frame -/

theorem receive_fst (frame : Rtp.Frame) :
    (r.receive frame).1 = (r.account frame (r.blocksOf frame)).1 :=
  rfl

/-- A frame that can be taken apart is accounted for to the credit of its stream, and
    any other frame leaves the accounts as they are. -/
theorem account_cases (frame : Rtp.Frame) :
    r.decodes frame = false ∧ r.account frame (r.blocksOf frame) = (r, none) ∨
      r.decodes frame = true ∧
        r.account frame (r.blocksOf frame)
          = ({ r with
                streams := r.streams.insert frame.ssrc
                  (((r.trackerFor frame.ssrc).countPacket frame.sequence (r.blocksOf frame)).report
                    frame.timestamp frame.ssrc).1
                lastSsrc := some frame.ssrc },
              (((r.trackerFor frame.ssrc).countPacket frame.sequence (r.blocksOf frame)).report
                frame.timestamp frame.ssrc).2) := by
  rcases r.blocksOf_cases frame with
    ⟨hdecodes, hblocks⟩ | ⟨hdecodes, redundant, primary, hblocks, _, _, htime⟩
  · rw [hblocks]
    exact Or.inl ⟨hdecodes, rfl⟩
  · -- The report is asked for at the time of the last block, which is that of the frame.
    rw [account, hblocks, List.getLast?_concat, ← htime]
    exact Or.inr ⟨hdecodes, rfl⟩

theorem ssrc_of_report {tracker : Loss.Tracker} {timestamp ssrc : UInt32} {report : Loss.Report}
    (h : (tracker.report timestamp ssrc).2 = some report) : report.ssrc = ssrc := by
  rw [Loss.Tracker.report] at h
  split at h
  · cases h
    rfl
  · cases h

/-- A report is closed by a frame of its own stream. -/
theorem of_closed {frame : Rtp.Frame} {report : Loss.Report}
    (h : (r.turn frame).closed = some report) :
    report.ssrc = frame.ssrc ∧ r.decodes frame = true := by
  rcases r.account_cases frame with ⟨_, haccount⟩ | ⟨hdecodes, haccount⟩
  · rw [turn, haccount] at h
    cases h
  · rw [turn, haccount] at h
    exact ⟨ssrc_of_report h, hdecodes⟩

/-- What is handed on is the report that was closed, unless the frame is dropped. -/
theorem closed_of_handed {frame : Rtp.Frame} {report : Loss.Report}
    (h : (r.turn frame).handed = some report) : (r.turn frame).closed = some report := by
  by_cases hsize : isOversize frame = true
  · have hnone : (r.turn frame).received = none := if_pos hsize
    rw [Turn.handed, hnone] at h
    cases h
  · have hsome : (r.turn frame).received
        = some ⟨frame, r.blocksOf frame, (r.turn frame).closed⟩ := if_neg hsize
    rw [Turn.handed, hsome] at h
    exact h

/-- A receiver is followed by another one that attends to a single stream: they are tuned
    alike and have the same tracker for it. -/
structure Follows (ssrc : UInt32) (r q : Receiver) : Prop where
  opusType_eq : r.opusType = q.opusType
  redType_eq : r.redType = q.redType
  config_eq : r.config = q.config
  find_eq : r.streams.find ssrc = q.streams.find ssrc
  lastSsrc_eq : r.lastSsrc = some ssrc → q.lastSsrc = some ssrc

/-- A frame of the stream is the same to both. They agree on the payload types and on the
    tracker, and nothing else has a say in what becomes of it. -/
theorem follows_own {r q : Receiver} {frame : Rtp.Frame} (h : Follows frame.ssrc r q) :
    r.turn frame = q.turn frame ∧
      Follows frame.ssrc (r.receive frame).1 (q.receive frame).1 := by
  have hblocks := blocksOf_congr h.opusType_eq h.redType_eq frame
  have htracker : r.trackerFor frame.ssrc = q.trackerFor frame.ssrc := by
    rw [trackerFor, trackerFor, h.find_eq, h.config_eq]
  simp only [turn, receive, account, hblocks, htracker]
  cases (q.blocksOf frame).getLast? with
  | none => exact ⟨rfl, h⟩
  | some primary =>
      exact ⟨rfl, h.opusType_eq, h.redType_eq, h.config_eq,
        (Streams.find_insert _ _ _).trans (Streams.find_insert _ _ _).symm, fun _ => rfl⟩

/-- A frame that does not concern the stream need not reach the other one. It is of another
    stream or cannot be taken apart, and in both cases the tracker of the stream stays as it
    is. -/
theorem follows_other {ssrc : UInt32} {r q : Receiver} {frame : Rtp.Frame}
    (h : Follows ssrc r q) (hother : r.concerns ssrc frame = false) :
    Follows ssrc (r.receive frame).1 q := by
  rw [receive_fst]
  rcases r.account_cases frame with ⟨_, haccount⟩ | ⟨hdecodes, haccount⟩
  · rw [haccount]
    exact h
  · -- The frame can be taken apart, so if it does not concern the stream, it is of another
    -- one.
    have hne : ssrc ≠ frame.ssrc := by
      rintro rfl
      rw [concerns, hdecodes, decide_eq_true rfl] at hother
      cases hother
    rw [haccount]
    exact ⟨h.opusType_eq, h.redType_eq, h.config_eq,
      (Streams.find_insert_of_ne hne).trans h.find_eq,
      fun hlast => absurd (Option.some.inj hlast).symm hne⟩

theorem Follows.counters_eq {ssrc : UInt32} {r q : Receiver} (h : Follows ssrc r q)
    (hlast : r.lastSsrc = some ssrc) : r.counters = q.counters := by
  rw [counters, counters, hlast, h.lastSsrc_eq hlast, Option.bind_some, Option.bind_some, h.find_eq]

/-- A stream gets into the list by a frame of its own. -/
theorem mem_keys_receive (ssrc : UInt32) (frame : Rtp.Frame) :
    ssrc ∈ (r.receive frame).1.streams.map Prod.fst ↔
      ssrc ∈ r.streams.map Prod.fst ∨ r.concerns ssrc frame = true := by
  rw [receive_fst, concerns, Bool.and_eq_true, decide_eq_true_eq]
  rcases r.account_cases frame with ⟨hdecodes, haccount⟩ | ⟨hdecodes, haccount⟩
  · rw [haccount, hdecodes]
    exact ⟨Or.inl, fun h => h.resolve_right fun hno => Bool.false_eq_true.mp hno.2⟩
  · rw [haccount, Streams.mem_keys_insert, or_comm, hdecodes, and_iff_left rfl, eq_comm]

/-- A frame keeps the streams in order. -/
theorem ordered_receive (frame : Rtp.Frame) (h : r.streams.Ordered) :
    (r.receive frame).1.streams.Ordered := by
  rw [receive_fst]
  rcases r.account_cases frame with ⟨_, haccount⟩ | ⟨_, haccount⟩
  · rw [haccount]
    exact h
  · rw [haccount]
    exact Streams.ordered_insert h

/-! ### All frames -/

theorem receiveAll_concat (frames : List Rtp.Frame) (frame : Rtp.Frame) :
    r.receiveAll (frames ++ [frame]) = ((r.receiveAll frames).receive frame).1 :=
  List.foldl_concat _ _ _ _

/-- What becomes of one more frame depends on the receiver behind the others. -/
theorem turns_concat (frames : List Rtp.Frame) (frame : Rtp.Frame) : ∀ r : Receiver,
    r.turns (frames ++ [frame]) = r.turns frames ++ [(r.receiveAll frames).turn frame] := by
  induction frames with
  | nil =>
      intro r
      rfl
  | cons first frames ih =>
      intro r
      rw [List.cons_append, turns, ih, turns, List.cons_append]
      rfl

/-- Frames do not change what a receiver is tuned to. -/
theorem types_receiveAll (frames : List Rtp.Frame) :
    (r.receiveAll frames).opusType = r.opusType ∧ (r.receiveAll frames).redType = r.redType := by
  induction frames using List.reverseRecOn with
  | nil => exact ⟨rfl, rfl⟩
  | append_singleton frames frame ih =>
      have htypes := (r.receiveAll frames).types_receive frame
      rw [receiveAll_concat]
      exact ⟨htypes.1.trans ih.1, htypes.2.trans ih.2⟩

theorem decodes_receiveAll (frames : List Rtp.Frame) :
    (r.receiveAll frames).decodes = r.decodes :=
  decodes_congr (r.types_receiveAll frames).1 (r.types_receiveAll frames).2

theorem concerns_receiveAll (frames : List Rtp.Frame) (ssrc : UInt32) (frame : Rtp.Frame) :
    (r.receiveAll frames).concerns ssrc frame = r.concerns ssrc frame := by
  rw [concerns, concerns, decodes_receiveAll]

/-- A receiver that is given all frames, and one that is given those of a stream, are in
    step about the stream and do the same with its frames. It takes two cases in each step:
    the frame is given to both, or to the first alone. -/
theorem follows_receiveAll (ssrc : UInt32) (frames : List Rtp.Frame) :
    Follows ssrc (r.receiveAll frames) (r.receiveAll (frames.filter (r.concerns ssrc))) ∧
      ((r.turns frames).filter fun turn => r.concerns ssrc turn.frame)
        = r.turns (frames.filter (r.concerns ssrc)) := by
  induction frames using List.reverseRecOn with
  | nil => exact ⟨⟨rfl, rfl, rfl, rfl, id⟩, rfl⟩
  | append_singleton frames frame ih =>
      rw [List.filter_append, turns_concat, List.filter_append, ih.2, receiveAll_concat]
      have hframe : ((r.receiveAll frames).turn frame).frame = frame := rfl
      -- The second run is given the last frame or it is not.
      cases hown : r.concerns ssrc frame with
      | true =>
          obtain rfl : frame.ssrc = ssrc := by
            rw [concerns, Bool.and_eq_true, decide_eq_true_eq] at hown
            exact hown.1
          rcases follows_own ih.1 with ⟨hturn, hnext⟩
          simp only [List.filter_cons, List.filter_nil, hframe, hown, if_true]
          rw [receiveAll_concat, turns_concat, hturn]
          exact ⟨hnext, rfl⟩
      | false =>
          simp only [List.filter_cons, List.filter_nil, hframe, hown, Bool.false_eq_true, if_false,
            List.append_nil, and_true]
          exact follows_other ih.1 ((r.concerns_receiveAll frames ssrc frame).trans hown)

/-- The streams that are accounted for are in order, and each of them is there because of
    a frame of its own. -/
theorem streams_receiveAll (hordered : r.streams.Ordered) (frames : List Rtp.Frame) :
    (r.receiveAll frames).streams.Ordered ∧
      (∀ ssrc, ssrc ∈ (r.receiveAll frames).streams.map Prod.fst ↔
        ssrc ∈ r.streams.map Prod.fst ∨ ∃ frame ∈ frames, r.concerns ssrc frame = true) := by
  induction frames using List.reverseRecOn with
  | nil =>
      refine ⟨hordered, fun ssrc => ?_⟩
      simp only [receiveAll, List.foldl_nil, List.not_mem_nil, false_and, exists_false, or_false]
  | append_singleton frames frame ih =>
      rw [receiveAll_concat]
      refine ⟨ordered_receive _ frame ih.1, fun ssrc => ?_⟩
      -- A stream was there before, or comes in with this frame.
      rw [mem_keys_receive, ih.2 ssrc, concerns_receiveAll, or_assoc]
      simp only [List.mem_append, List.mem_singleton, or_and_right, exists_or, exists_eq_left]

/-- The reports that are about a stream come with the frames of that stream. So it comes to
    the same whether the reports are picked from all of them or the frames are picked first. -/
theorem filter_reports (ssrc : UInt32) (report : Turn → Option Loss.Report) (turns : List Turn)
    (h : ∀ turn ∈ turns, ∀ found, report turn = some found →
      found.ssrc = turn.frame.ssrc ∧ r.decodes turn.frame = true) :
    ((turns.filterMap report).filter fun found => found.ssrc = ssrc)
      = (turns.filter fun turn => r.concerns ssrc turn.frame).filterMap report := by
  induction turns with
  | nil => rfl
  | cons turn turns ih =>
      have hrest := ih fun other hin => h other (List.mem_cons_of_mem turn hin)
      -- A report is picked by the same test as its frame.
      cases hreport : report turn with
      | none =>
          rw [List.filterMap_cons_none hreport, hrest, List.filter_cons]
          split
          · rw [List.filterMap_cons_none hreport]
          · rfl
      | some found =>
          rcases h turn List.mem_cons_self found hreport with ⟨hssrc, hdecodes⟩
          rw [List.filterMap_cons_some hreport, List.filter_cons, List.filter_cons, hrest, concerns,
            hdecodes, Bool.and_true, hssrc]
          split
          · rw [List.filterMap_cons_some hreport]
          · rfl

/-- What becomes of a frame is what some receiver makes of it that takes the same frames
    apart. -/
theorem of_mem_turns {turn : Turn} (frames : List Rtp.Frame) :
    ∀ r : Receiver, turn ∈ r.turns frames →
      ∃ q : Receiver, q.decodes = r.decodes ∧ turn = q.turn turn.frame := by
  induction frames with
  | nil =>
      intro r h
      cases h
  | cons frame frames ih =>
      intro r h
      rcases List.mem_cons.mp h with rfl | h
      · exact ⟨r, rfl, rfl⟩
      · rcases ih _ h with ⟨q, hq, heq⟩
        have htypes := r.types_receive frame
        exact ⟨q, hq.trans (decodes_congr htypes.1 htypes.2), heq⟩

/-- Whatever frames a receiver is given, a stream is accounted for as if only those
    of its frames had come that can be taken apart: with the same tracker, and the same
    answer and report to each of these frames. No report about it comes otherwise. The
    streams that are reported are those with such a frame, each of them once, in increasing
    order. -/
theorem streams_separate (opusType redType : UInt8) (config : Loss.TrackerConfig)
    (frames : List Rtp.Frame) :
    let r := Receiver.new opusType redType config
    (∀ ssrc, let own := frames.filter (r.concerns ssrc)
      (r.receiveAll frames).streams.find ssrc = (r.receiveAll own).streams.find ssrc ∧
      (r.receiveAll frames).snapshot ssrc = (r.receiveAll own).snapshot ssrc ∧
      ((r.receiveAll frames).lastSsrc = some ssrc →
        (r.receiveAll frames).counters = (r.receiveAll own).counters) ∧
      ((r.turns frames).filter fun turn => r.concerns ssrc turn.frame) = r.turns own ∧
      (((r.turns frames).filterMap Turn.closed).filter fun report => report.ssrc = ssrc)
        = (r.turns own).filterMap Turn.closed ∧
      (((r.turns frames).filterMap Turn.handed).filter fun report => report.ssrc = ssrc)
        = (r.turns own).filterMap Turn.handed) ∧
    ((r.receiveAll frames).streams.reports.map Loss.Report.ssrc).Pairwise (· < ·) ∧
    (∀ ssrc, ssrc ∈ (r.receiveAll frames).streams.reports.map Loss.Report.ssrc ↔
      ∃ frame ∈ frames, r.concerns ssrc frame = true) ∧
    ∀ report ∈ (r.receiveAll frames).streams.reports,
      (r.receiveAll frames).snapshot report.ssrc = some report := by
  intro r
  -- A report names the stream of its frame, so to pick reports is to pick frames.
  have hclosed : ∀ turn ∈ r.turns frames, ∀ report, turn.closed = some report →
      report.ssrc = turn.frame.ssrc ∧ r.decodes turn.frame = true := by
    intro turn hin report hreport
    rcases of_mem_turns frames r hin with ⟨q, hdecodes, heq⟩
    rw [← hdecodes]
    exact q.of_closed (heq ▸ hreport)
  have hhanded : ∀ turn ∈ r.turns frames, ∀ report, turn.handed = some report →
      report.ssrc = turn.frame.ssrc ∧ r.decodes turn.frame = true := by
    intro turn hin report hreport
    rcases of_mem_turns frames r hin with ⟨q, _, heq⟩
    have hclose := q.closed_of_handed (heq ▸ hreport)
    exact hclosed turn hin report (heq ▸ hclose)
  have hkeys : (r.receiveAll frames).streams.reports.map Loss.Report.ssrc
      = (r.receiveAll frames).streams.map Prod.fst := by
    rw [Streams.reports, List.map_map]
    rfl
  rcases r.streams_receiveAll List.Pairwise.nil frames with ⟨hordered, hmem⟩
  refine ⟨fun ssrc => ?_, ?_, fun ssrc => ?_, ?_⟩
  · -- One stream: both receivers are in step about it, so all that is said of it agrees.
    rcases r.follows_receiveAll ssrc frames with ⟨hfollows, hturns⟩
    refine ⟨hfollows.find_eq, ?_, hfollows.counters_eq, hturns, ?_, ?_⟩
    · rw [snapshot, snapshot, hfollows.find_eq]
    · rw [r.filter_reports ssrc _ _ hclosed, hturns]
    · rw [r.filter_reports ssrc _ _ hhanded, hturns]
  · rw [hkeys]
    exact List.pairwise_map.mpr hordered
  · rw [hkeys, hmem ssrc]
    exact or_iff_right List.not_mem_nil
  · -- A report on the list is the snapshot of its stream, as each stream is found there.
    intro report hin
    rcases List.mem_map.mp hin with ⟨⟨ssrc, tracker⟩, hentry, rfl⟩
    rw [snapshot]
    exact congrArg _ (Streams.find_of_mem hordered hentry)

/-- A frame of a stream whose payload begins with the header of a primary block. -/
def plainFrame (ssrc : UInt32) (sequence : UInt16) (payload : Bytes) : Rtp.Frame where
  sequence := sequence
  timestamp := 960 * sequence.toUInt32
  ssrc := ssrc
  payloadType := 63
  payload := payload

/-- Two streams in turn, and in between a frame that breaks off in a header. -/
def twoStreams : List Rtp.Frame :=
  [plainFrame 9 1 [111, 8], plainFrame 4 7 [111, 8], plainFrame 9 2 [239, 0],
    plainFrame 9 4 [111, 8], plainFrame 4 8 [111, 8]]

/-- Each of the two is accounted for by itself. The losses of stream 9 do not show in the
    counters of the stream that was heard last, and the reports come in the order of the
    identifiers. -/
theorem separate_twoStreams :
    let r := Receiver.new 111 63 {}
    (r.receiveAll twoStreams).snapshot 9 = some ⟨9, ⟨2, 4, 0, 0⟩⟩ ∧
      (r.receiveAll twoStreams).counters = ⟨0, 2, 0, 0⟩ ∧
      (r.receiveAll twoStreams).streams.reports.map Loss.Report.ssrc = [4, 9] := by
  intro r
  rcases streams_separate 111 63 {} twoStreams with ⟨hstreams, _, _, _⟩
  rcases hstreams 9 with ⟨_, hsnapshot, _⟩
  rcases hstreams 4 with ⟨_, _, hcounters, _⟩
  exact ⟨hsnapshot.trans (by decide), (hcounters (by decide)).trans (by decide), by decide⟩

end Receiver

end Reception

end RedundantAudio
