import RedundantAudio.Proofs.Loss.Joining
import RedundantAudio.Proofs.Loss.Reports
import RedundantAudio.Proofs.Reception.LossyStream
import RedundantAudio.Proofs.Redundancy.Provenance

/-!
# Accounting for What an Encoder Sends

The laws about losses are told of a `Loss.Stream`, whose packets carry packets
by number. An encoder knows no numbers: it looks up media times in its history,
and may be told to carry more or fewer encodings, or none, between any two
frames. Where it is given a frame in every interval its packets make up such a
stream all the same, since whatever it finds in its history was sent, and an age
in samples is a number of packets.

A receiver keeps one tracker for the stream and hands it the blocks of each
packet, so it counts as the stream is tracked. Reports come in between, and touch
nothing but the time of the last one.

With that, the accounts of a receiver that joins such a stream at any packet are
those of `Loss.recoveries_le`.

## Main definitions

* `Broadcast`: What goes into an encoder.
* `Broadcast.Regular`: There is a frame in every interval, and all are sent.
* `Broadcast.stream`: The stream that comes out.
* `Broadcast.hears`: A receiver that has heard some packets of it.
* `spoken`: A source of voice that goes into an encoder.

## Theorems

* `Broadcast.Regular.exists_back`: A packet carries packets from two to five
  intervals back.
* `Broadcast.Regular.takeApart_sent`: What a receiver finds in a packet.
* `Broadcast.counters_hears`: A receiver counts as the stream is tracked.
* `joined_recoveries`: The recoveries that a receiver counts, and its losses.
* `regular_spoken`: Voice makes a regular broadcast.
* `joined_chatter`: Nine recoveries and eight losses.
-/

namespace RedundantAudio

namespace Reception

open Redundancy (Encoder Entry)

/-- What goes into an encoder: frames, and messages before each. -/
structure Broadcast where
  /-- The sequence number of the first packet. -/
  sequence : UInt16
  /-- The media time of the first packet. -/
  start : UInt32
  /-- The identity of the stream. -/
  ssrc : UInt32
  /-- The type of Opus encodings. -/
  opusType : UInt8
  /-- The type of redundant packets. -/
  redType : UInt8
  /-- What the encoder is told before a frame. -/
  messages : Nat → List Control
  /-- The frames. -/
  frame : Nat → Rtp.Frame

namespace Broadcast

variable (b : Broadcast)

/-- The encoder that is about to send a frame. -/
def sender : Nat → Encoder
  | 0 => ({} : Encoder).handleAll (b.messages 0)
  | n + 1 => ((sender n).send (b.frame n)).1.handleAll (b.messages (n + 1))

/-- The packet that goes out for a frame. -/
def sent (n : Nat) : Option Rtp.Frame :=
  ((b.sender n).send (b.frame n)).2.frame

/-- A receiver that has heard some of the packets. -/
def hears (arrivals : List Nat) : Receiver :=
  (arrivals.filterMap b.sent).foldl (fun r frame => (r.receive frame).1)
    (.new b.opusType b.redType {})

/-- There is a frame in every interval, and each becomes a redundant packet of
    the types that the receiver knows. -/
structure Regular : Prop where
  sequence_eq : ∀ n, (b.frame n).sequence = b.sequence + .ofNat n
  timestamp_eq : ∀ n, (b.frame n).timestamp = Red.packetTime b.start n
  ssrc_eq : ∀ n, (b.frame n).ssrc = b.ssrc
  opusType_eq : ∀ n, (b.sender n).opusType = Red.wireType b.opusType
  redType_eq : ∀ n, (b.sender n).redType = Red.wireType b.redType
  encoded : ∀ n, ∃ out count, ((b.sender n).send (b.frame n)).2 = .encoded out count

/-- The primary encoding of a packet. -/
def primary (n : Nat) : Bytes :=
  match (b.sender n).primaryOf (b.frame n) with
  | some (.ok primary) => primary
  | _ => []

/-- The entries of the history that a packet carries. -/
def entries (n : Nat) : List Entry :=
  (b.sender n).select (Red.packetTime b.start n) (b.primary n).length

/-- The numbers of the packets that a packet carries. -/
def carried (n : Nat) : List Nat :=
  (b.entries n).map fun entry => n - Encoder.age (Red.packetTime b.start n) entry / 960

/-- The encoding that a packet carries for another one. -/
def copy (n m : Nat) : Bytes :=
  match (b.entries n).find? fun entry => entry.timestamp = Red.packetTime b.start m with
  | some entry => entry.payload
  | none => []

/-- The block of a packet that carries another one, or itself. -/
def block (n m : Nat) : Red.Block :=
  if m = n then
    Receiver.heard (Red.primaryBlock (Red.packetTime b.start n) (b.sender n).opusType (b.primary n))
  else
    Receiver.heard (Red.redundantBlock (Red.packetTime b.start n) (b.sender n).opusType
      (Red.packetTime b.start n - Red.packetTime b.start m, b.copy n m))

/-! ### The sender -/

theorem sound_sender (n : Nat) : (b.sender n).Sound := by
  induction n with
  | zero => exact Encoder.sound_handleAll _ Encoder.sound_default _
  | succ n ih => exact Encoder.sound_handleAll _ (Encoder.sound_step _ ih (.frame (b.frame n))) _

/-- No two entries of a packet have the same media time, so the encoding carried for a
    packet can be looked up by its time. -/
theorem copy_of_mem (n : Nat) (entry : Entry) (hin : entry ∈ b.entries n) (m : Nat)
    (hm : entry.timestamp = Red.packetTime b.start m) : b.copy n m = entry.payload := by
  -- Entries are in the order of their ages, and equal times would be equal ages.
  have hnodup : ((b.entries n).map fun entry => entry.timestamp).Nodup := by
    refine List.Pairwise.map _ (fun x y hlt heq => ?_)
      (Encoder.pairwise_select _ (b.sound_sender n) (Red.packetTime b.start n) (b.primary n).length)
    rw [Encoder.age, Encoder.age, heq] at hlt
    exact lt_irrefl _ hlt
  rw [Broadcast.copy]
  cases hfind : (b.entries n).find? fun entry => entry.timestamp = Red.packetTime b.start m with
  | none => exact absurd (decide_eq_true hm) (List.find?_eq_none.mp hfind entry hin)
  | some found =>
      have htime : found.timestamp = Red.packetTime b.start m := by
        simpa only [decide_eq_true_eq] using List.find?_some hfind
      rw [List.inj_on_of_nodup_map hnodup (List.mem_of_find?_eq_some hfind) hin
        (htime.trans hm.symm)]

namespace Regular

variable {b} (h : b.Regular)

include h

/-- What is sent for a frame: its own encoding fits, and the payload is made of that and of
    what the history has for it. -/
theorem sent_eq (n : Nat) :
    (b.sender n).primaryOf (b.frame n) = some (.ok (b.primary n)) ∧
      Encoder.fits (b.primary n) = true ∧
      b.sent n = some { b.frame n with
        payload := (b.sender n).packetOf (Red.packetTime b.start n) (b.primary n)
        payloadType := (b.sender n).redType } := by
  rcases h.encoded n with ⟨out, count, hsend⟩
  rcases Encoder.primary_of_encoded _ (b.sound_sender n) _ _ _ hsend with
    ⟨primary, hprimary, hfits, rfl⟩
  have heq : b.primary n = primary := by
    rw [Broadcast.primary, hprimary]
  rw [heq, Broadcast.sent, hsend, ← h.timestamp_eq n]
  exact ⟨hprimary, hfits, rfl⟩

/-- The history holds what was sent, by induction on the frames: an update adds the frame
    just sent, and messages add nothing. All media times in it are thus known by the numbers
    of frames. -/
theorem timestamp_of_mem_history (n : Nat) :
    ∀ entry ∈ (b.sender n).history.entries,
      ∃ m, m < n ∧ entry.timestamp = Red.packetTime b.start m := by
  induction n with
  | zero =>
      intro entry hin
      rw [sender, Encoder.history_handleAll] at hin
      exact absurd hin List.not_mem_nil
  | succ n ih =>
      intro entry hin
      have hprimary := h.sent_eq n
      rw [sender, Encoder.history_handleAll, Encoder.send_eq _ (b.sound_sender n) _ _ hprimary.1
        hprimary.2.1] at hin
      -- An entry was there before, or it is the frame just sent.
      rcases Encoder.mem_update _ _ _ _ entry hin with hold | ⟨_, rfl⟩
      · rcases ih entry hold with ⟨m, hm, htime⟩
        exact ⟨m, by omega, htime⟩
      · exact ⟨n, Nat.lt_succ_self n, h.timestamp_eq n⟩

/-- Whatever a packet carries was sent two to five intervals before. An age is a difference
    of media times, which wrap: it may be less than the number of frames says, but never
    more, so whatever is asked for by its age has been sent. -/
theorem exists_back (n : Nat) (entry : Entry) (hin : entry ∈ b.entries n) :
    ∃ k, 2 ≤ k ∧ k ≤ 5 ∧ k ≤ n ∧ Encoder.age (Red.packetTime b.start n) entry = 960 * k ∧
      entry.timestamp = Red.packetTime b.start (n - k) := by
  rcases Encoder.mem_select _ (b.sound_sender n) _ _ entry hin with ⟨hmem, hage⟩
  rcases h.timestamp_of_mem_history n entry hmem with ⟨m, hm, htime⟩
  -- The history is asked for four ages only.
  have hk : ∃ k, 2 ≤ k ∧ k ≤ 5 ∧ Encoder.age (Red.packetTime b.start n) entry = 960 * k := by
    rcases hage with hage | hage | hage | hage
    · exact ⟨2, by omega, by omega, hage⟩
    · exact ⟨3, by omega, by omega, hage⟩
    · exact ⟨4, by omega, by omega, hage⟩
    · exact ⟨5, by omega, by omega, hage⟩
  rcases hk with ⟨k, hlow, hhigh, hage'⟩
  -- An age may have wrapped, but it never exceeds the distance.
  have hle : k ≤ n := by
    rw [Encoder.age, htime, Red.packetTime_sub b.start m n (le_of_lt hm), UInt32.toNat_ofNat']
      at hage'
    have hmod := Nat.mod_le (960 * (n - m)) (2 ^ 32)
    omega
  refine ⟨k, hlow, hhigh, hle, hage', ?_⟩
  have hback := Red.toNat_packetTime_sub b.start (n - k) n (Nat.sub_le n k) (by omega)
  rw [Encoder.age] at hage'
  have hsame : (Red.packetTime b.start n - entry.timestamp).toNat
      = (Red.packetTime b.start n - Red.packetTime b.start (n - k)).toNat := by
    rw [hage', hback]
    omega
  exact (UInt32.sub_right_inj _).mp (UInt32.toNat_inj.mp hsame)

/-- The number of a packet that is carried. -/
theorem of_mem_carried (n m : Nat) (hm : m ∈ b.carried n) : m + 2 ≤ n ∧ n ≤ m + 5 := by
  rcases List.mem_map.mp hm with ⟨entry, hin, rfl⟩
  rcases h.exists_back n entry hin with ⟨k, hlow, hhigh, hle, hage, _⟩
  -- The number of a packet is read off the age of its entry, in whole intervals.
  rw [hage, Nat.mul_div_cancel_left k (by omega)]
  omega

end Regular

/-- The stream that an encoder sends. -/
def stream (h : b.Regular) : Loss.Stream where
  sequence := b.sequence
  start := b.start
  carried := b.carried
  block := b.block
  carried_lt n m hm := by
    have hback := h.of_mem_carried n m hm
    omega
  carried_near n m hm := (h.of_mem_carried n m hm).2
  isLast_own n := by
    rw [block, if_pos rfl]
    rfl
  isLast_carried n m hm := by
    have hback := h.of_mem_carried n m hm
    rw [block, if_neg (by omega)]
    rfl
  timestamp_own n := by
    rw [block, if_pos rfl]
    rfl
  timestamp_carried n m hm := by
    have hback := h.of_mem_carried n m hm
    rw [block, if_neg (by omega)]
    change Red.packetTime b.start n - (Red.packetTime b.start n - Red.packetTime b.start m) = _
    grind

/-! ### The receiver -/

namespace Regular

variable {b} (h : b.Regular)

/-- The blocks of a packet, as a receiver marks them. The stream carries packets by their
    numbers, and the encoder selects entries of its history; here the two are the same
    blocks. -/
theorem blocks_eq (n : Nat) :
    (b.stream h).blocks n
      = (b.entries n).map (Encoder.entryBlock (Red.packetTime b.start n) (b.sender n).opusType)
        ++ [Receiver.heard (Red.primaryBlock (Red.packetTime b.start n) (b.sender n).opusType
          (b.primary n))] := by
  have hown : b.block n n = Receiver.heard (Red.primaryBlock (Red.packetTime b.start n)
      (b.sender n).opusType (b.primary n)) := if_pos rfl
  -- Each entry of the history is the only one of its packet.
  have hcarried : (b.carried n).map (b.block n)
      = (b.entries n).map
          (Encoder.entryBlock (Red.packetTime b.start n) (b.sender n).opusType) := by
    rw [carried, List.map_map]
    refine List.map_congr_left fun entry hin => ?_
    rcases h.exists_back n entry hin with ⟨k, hlow, _, hle, hage, htime⟩
    have hk : n - Encoder.age (Red.packetTime b.start n) entry / 960 = n - k := by
      rw [hage, Nat.mul_div_cancel_left k (by omega)]
    rw [Function.comp_apply, hk, block, if_neg (by omega), b.copy_of_mem n entry hin _ htime,
      ← htime]
    rfl
  change (b.carried n ++ [n]).map (b.block n) = _
  rw [List.map_append, hcarried, List.map_singleton, hown]

/-- What a receiver finds in a packet is what the stream says of it. The types of blocks
    have seven bits on the wire, so a receiver has to look for what is left of the
    broadcast's. -/
theorem takeApart_sent (n : Nat) (r : Receiver) (hopus : r.opusType = Red.wireType b.opusType)
    (hred : r.redType = Red.wireType b.redType) :
    ∃ frame, b.sent n = some frame ∧ frame.sequence = (b.stream h).sequenceOf n ∧
      frame.ssrc = b.ssrc ∧ r.takeApart frame = some (.ok ((b.stream h).blocks n)) := by
  rcases h.sent_eq n with ⟨_, hfits, hsent⟩
  have happart := Encoder.takeApart_packetOf (b.sender n) (b.sound_sender n) (b.frame n)
    (b.primary n) hfits r (hopus.trans (h.opusType_eq n).symm) (hred.trans (h.redType_eq n).symm)
  refine ⟨_, hsent, h.sequence_eq n, h.ssrc_eq n, ?_⟩
  simp only [h.timestamp_eq n] at happart ⊢
  rw [h.blocks_eq n]
  exact happart

end Regular

/-! ### A receiver that joins -/

section Attuned

variable {b} (h : b.Regular)

/-- The accounts of a receiver that has heard some of the packets. -/
structure Attuned (arrivals : List Nat) (r : Receiver) : Prop where
  opusType_eq : r.opusType = Red.wireType b.opusType
  redType_eq : r.redType = Red.wireType b.redType
  tracker_eq : ∃ last, r.trackerFor b.ssrc = ((b.stream h).track arrivals).reported last

/-- A packet is accounted for as the stream is tracked. With this, what is proved of a
    tracker that is given the packets of a stream holds of a receiver that is given their
    frames. -/
theorem attuned_receive {arrivals : List Nat} {r : Receiver} (hr : Attuned h arrivals r) (n : Nat) :
    ∃ frame, b.sent n = some frame ∧ Attuned h (arrivals ++ [n]) (r.receive frame).1 ∧
      (r.receive frame).1.counters = ((b.stream h).track (arrivals ++ [n])).counters := by
  rcases h.takeApart_sent n r hr.opusType_eq hr.redType_eq with
    ⟨frame, hsent, hsequence, hssrc, happart⟩
  rcases hr.tracker_eq with ⟨last, htracker⟩
  have hblocks : r.blocksOf frame = (b.stream h).blocks n := by
    rw [Receiver.blocksOf, happart]
  have hgetLast : ((b.stream h).blocks n).getLast? = some (b.block n n) := by
    rw [Loss.Stream.blocks, List.map_append]
    exact List.getLast?_concat
  -- The tracker takes the blocks, and may report.
  have hcount : (r.trackerFor frame.ssrc).countPacket frame.sequence ((b.stream h).blocks n)
      = ((b.stream h).track (arrivals ++ [n])).reported last := by
    rw [hssrc, htracker, Loss.Tracker.countPacket_reported, hsequence, Loss.Stream.track_concat]
    rfl
  rcases Loss.Tracker.exists_report (((b.stream h).track (arrivals ++ [n])).reported last)
    (b.block n n).timestamp frame.ssrc with ⟨last', hreport⟩
  -- Only the tracker and the stream heard last are other than before.
  have hreceive : (r.receive frame).1
      = { r with
          streams := r.streams.insert b.ssrc (((b.stream h).track (arrivals ++ [n])).reported last')
          lastSsrc := some b.ssrc } := by
    simp only [Receiver.receive, Receiver.account, hblocks, hgetLast, hcount, hreport]
    rw [hssrc]
    rfl
  refine ⟨frame, hsent, ⟨(r.types_receive frame).1.trans hr.opusType_eq,
    (r.types_receive frame).2.trans hr.redType_eq, last', ?_⟩, ?_⟩
  · rw [hreceive, Receiver.trackerFor, Streams.find_insert, Option.getD_some]
  · rw [hreceive, Receiver.counters, Option.bind_some, Streams.find_insert]
    rfl

/-- A receiver that hears packets of the broadcast in any order, and with any gaps, keeps
    the accounts that the stream is tracked with. -/
theorem attuned_hears (arrivals : List Nat) : Attuned h arrivals (b.hears arrivals) := by
  -- By induction from the back, as the receiver has heard what came first.
  induction arrivals using List.reverseRecOn with
  | nil => exact ⟨rfl, rfl, none, rfl⟩
  | append_singleton arrivals n ih =>
      rcases attuned_receive h ih n with ⟨frame, hsent, hnext, _⟩
      rw [hears, List.filterMap_append, List.filterMap_cons, hsent, List.filterMap_nil,
        List.foldl_concat]
      exact hnext

/-- A receiver that has heard something counts as the stream is tracked. -/
theorem counters_hears {arrivals : List Nat} {newest : Nat}
    (hlast : arrivals.getLast? = some newest) :
    (b.hears arrivals).counters = ((b.stream h).track arrivals).counters := by
  -- There has to be a last packet, because counters are those of the stream heard last.
  rcases List.getLast?_eq_some_iff.mp hlast with ⟨before, rfl⟩
  rcases attuned_receive h (attuned_hears h before) newest with ⟨frame, hsent, _, hcounters⟩
  rw [hears, List.filterMap_append, List.filterMap_cons, hsent, List.filterMap_nil,
    List.foldl_concat]
  exact hcounters

end Attuned

end Broadcast

/-- A receiver hears a stream from any packet on, and any of the packets that
    follow. It counts every packet that is missing as lost, and may count more
    recoveries than that: at most four, and no more than packets from before the
    first were asked for once one was lost. Those are all credited. -/
theorem joined_recoveries (b : Broadcast) (h : b.Regular) (arrivals : List Nat)
    (first newest : Nat) (horder : Red.InOrder 32767 arrivals)
    (hhead : arrivals.head? = some first) (hlast : arrivals.getLast? = some newest) :
    (∀ n, (∀ m ∈ (b.stream h).carried n, m + 2 ≤ n ∧ n ≤ m + 5) ∧
      ∃ frame, b.sent n = some frame ∧ frame.sequence = (b.stream h).sequenceOf n ∧
        frame.ssrc = b.ssrc ∧
        (Receiver.new b.opusType b.redType {}).takeApart frame
          = some (.ok ((b.stream h).blocks n))) ∧
      (b.hears arrivals).counters = ((b.stream h).track arrivals).counters ∧
      (b.hears arrivals).counters.lost = Loss.missing arrivals first newest ∧
      (∃ undue : List Nat, undue.Nodup ∧
        (∀ p ∈ undue, p ≤ first ∧ (b.stream h).AskedFor arrivals first p) ∧ undue.length ≤ 4 ∧
        (b.hears arrivals).counters.recoveredRed + (b.hears arrivals).counters.recoveredFec
          ≤ (b.hears arrivals).counters.lost + undue.length) ∧
      (∀ p, (b.stream h).GrantedFor arrivals p → p ≤ newest ∧ ∀ m ∈ arrivals, p ≠ m + 1) ∧
      ∀ p ≤ first, (b.stream h).GrantedFor arrivals p ↔
        (b.stream h).AskedFor arrivals first p := by
  -- The receiver adds nothing of its own, so the bound is that of the tracker.
  have hcounters := Broadcast.counters_hears h hlast
  refine ⟨fun n => ⟨h.of_mem_carried n, h.takeApart_sent n _ rfl rfl⟩, hcounters, ?_⟩
  rw [hcounters]
  exact Loss.recoveries_le (b.stream h) arrivals first newest horder hhead hlast

/-! ### Voice -/

section Spoken

variable (s : Redundancy.Source) (opus red level : UInt8)

/-- A source of voice behind the messages that set an encoder up. -/
def spoken : Broadcast where
  sequence := s.sequence
  start := s.start
  ssrc := s.ssrc
  opusType := opus
  redType := red
  messages
    | 0 => Concealment.setUp opus red level
    | _ + 1 => []
  frame := s.frame (Red.wireType opus)

/-- The encoder of spoken frames is the one whose steps are known from voice. -/
theorem sender_spoken (hs : s.Voiced) (n : Nat) :
    (spoken s opus red level).sender n = s.coder (Concealment.encoder opus red level) n := by
  induction n with
  | zero => rfl
  | succ n ih =>
      have hsend := s.send_coder hs _ (Concealment.sound_encoder opus red level) rfl n
      rw [Broadcast.sender, ih]
      exact congrArg Prod.fst hsend

/-- Voice makes a regular broadcast. -/
theorem regular_spoken (hs : s.Voiced) : (spoken s opus red level).Regular where
  sequence_eq _ := rfl
  timestamp_eq _ := rfl
  ssrc_eq _ := rfl
  opusType_eq n := by
    rw [sender_spoken s opus red level hs]
    rfl
  redType_eq n := by
    rw [sender_spoken s opus red level hs]
    rfl
  encoded n := by
    have hsend := s.send_coder hs _ (Concealment.sound_encoder opus red level) rfl n
    rw [sender_spoken s opus red level hs]
    exact ⟨_, _, congrArg Prod.snd hsend⟩

end Spoken

/-- A receiver that begins with packet 2 counts nine recoveries and eight losses, two of
    which nothing makes good. Three credits are for packets from before: for packets 0 and
    1, and for the one in front of packet 0, which was never sent. -/
theorem joined_chatter :
    ((spoken Concealment.chatter 111 63 2).hears [2, 4, 12]).counters = ⟨8, 11, 3, 6⟩ ∧
      ∃ h : (spoken Concealment.chatter 111 63 2).Regular,
        ∀ p ≤ 2, ((spoken Concealment.chatter 111 63 2).stream h).GrantedFor [2, 4, 12] p := by
  have h := regular_spoken Concealment.chatter 111 63 2 Concealment.voiced_chatter
  rcases joined_recoveries (spoken Concealment.chatter 111 63 2) h [2, 4, 12] 2 12
    (by unfold Red.InOrder; decide) rfl rfl with ⟨_, _, _, _, _, hgranted⟩
  refine ⟨rfl, h, fun p hp => (hgranted p hp).mpr ?_⟩
  -- Packet 4 carries packets 2 and 0, and all three can correct the one before.
  have hcredits : ((spoken Concealment.chatter 111 63 2).stream h).credits 4
      = [.fec 4, .red 2, .fec 2, .red 0, .fec 0] := rfl
  refine ⟨[2], 4, [12], rfl, by decide, ?_⟩
  rw [hcredits]
  rcases p with _ | _ | _ | p
  · exact ⟨.fec 0, by decide, rfl⟩
  · exact ⟨.red 0, by decide, rfl⟩
  · exact ⟨.fec 2, by decide, rfl⟩
  · omega

end Reception

end RedundantAudio
