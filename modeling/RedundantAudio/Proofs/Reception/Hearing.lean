import RedundantAudio.Proofs.Red.Packet
import RedundantAudio.Reception.Receiver

/-!
# What a Receiver Hears in a Packet

A receiver takes a redundant packet apart and marks each block that carries
correction data. For a packet that an encoder has written, nothing can go
wrong on the way: the blocks are there, in order, with nothing added but the
mark, and neither the packet nor any part of it is given up.

## Main definitions

* `heard`: A block with its mark.

## Theorems

* `takeApart_packetBytes`: A packet is taken apart into what went into it.
* `receive_of_takeApart`: A packet that can be taken apart is handed on.
* `types_receive`: The payload types stay as they are.
* `Streams.find_insert`: A stream keeps its tracker.
-/

namespace RedundantAudio

namespace Reception

/-- A tracker that is put in is found again. The list is in order of the streams, so it goes
    in front of a greater one, in place of its own, or further on. -/
theorem Streams.find_insert (streams : Streams) (ssrc : UInt32) (tracker : Loss.Tracker) :
    (streams.insert ssrc tracker).find ssrc = some tracker := by
  have hself : (ssrc == ssrc) = true := beq_self_eq_true ssrc
  induction streams with
  | nil => exact List.lookup_cons_self
  | cons entry streams ih =>
      rcases entry with ⟨other, t⟩
      rw [Streams.insert]
      -- The entry goes in front of a greater one, in place of its own, or further on.
      split
      · exact List.lookup_cons_self
      · split
        · exact List.lookup_cons_self
        · next hne =>
          have hother : (ssrc == other) = false := beq_eq_false_iff_ne.mpr hne
          rw [Streams.find, List.lookup_cons, hother]
          exact ih

namespace Receiver

/-- A block as a receiver sees it, which knows whether it carries correction data. -/
def heard (block : Red.Block) : Red.Block :=
  { block with hasFec := Opus.hasFec block.payload }

/-- A packet of a sender is taken apart into the blocks that the sender put in, each marked
    with whether it carries correction data. The types of both have to agree as far as they
    are sent. -/
theorem takeApart_packetBytes (r : Receiver) (frame : Rtp.Frame) (payloadType : UInt8)
    (blocks : List (UInt32 × Bytes)) (primary : Bytes)
    (hred : frame.payloadType = r.redType)
    (hopus : Red.wireType payloadType = Red.wireType r.opusType)
    (hpayload : frame.payload = Red.packetBytes payloadType blocks primary)
    (hprimary : primary ≠ [])
    (hfits : ∀ block ∈ blocks, block.1 < Red.offsetBound ∧ block.2.length < Red.blockBound) :
    r.takeApart frame
      = some (.ok (blocks.map (heard ∘ Red.redundantBlock frame.timestamp payloadType)
          ++ [heard (Red.primaryBlock frame.timestamp payloadType primary)])) := by
  rw [takeApart, if_pos hred, hpayload,
    Red.decode_packetBytes frame.timestamp r.opusType payloadType blocks primary hopus hprimary
      hfits]
  simp only [Except.map, List.map_append, List.map_map, List.map_cons, List.map_nil]
  rfl

/-- A frame that can be taken apart, and is not too large, is handed on with its blocks and
    with a report if one was closed. -/
theorem receive_of_takeApart (r : Receiver) (frame : Rtp.Frame) (blocks : List Red.Block)
    (hapart : r.takeApart frame = some (.ok blocks))
    (hsize : frame.payload.length ≤ Red.payloadLimit) :
    (r.receive frame).2 = some ⟨frame, blocks, (r.account frame blocks).2⟩ := by
  have hblocks : r.blocksOf frame = blocks := by
    rw [blocksOf, hapart]
  have hover : isOversize frame = false := by
    rw [isOversize]
    exact decide_eq_false (Nat.not_lt.mpr hsize)
  simp only [receive, hblocks, hover]
  rfl

/-- A frame does not change what a receiver is tuned to. -/
theorem types_receive (r : Receiver) (frame : Rtp.Frame) :
    (r.receive frame).1.opusType = r.opusType ∧ (r.receive frame).1.redType = r.redType := by
  simp only [receive, account]
  cases (r.blocksOf frame).getLast? with
  | none => exact ⟨rfl, rfl⟩
  | some primary => exact ⟨rfl, rfl⟩

end Receiver

end Reception

end RedundantAudio
