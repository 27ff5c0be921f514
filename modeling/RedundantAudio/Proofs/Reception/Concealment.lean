import RedundantAudio.Proofs.Reception.Hearing
import RedundantAudio.Proofs.Reception.Listening
import RedundantAudio.Proofs.Reception.Slots
import RedundantAudio.Proofs.Redundancy.Regular

/-!
# Playing a Regular Stream With Losses

Packets of a regular stream arrive in order, some of them not at all, and the
slots are played with the usual delay. What a slot holds is a function of the
packets that have arrived (`holds`), and filing one more packet leads to the
same function of one more packet. So the queue is known at every moment, and
what is left is to look at it when the turn of a slot comes.

That turn comes three packets late. The nearer copy of a slot travels two
packets behind it and is always in time. The farther copy travels four behind,
and is in time only when nothing arrives in between that makes it the slot's
turn. `fate` says so in terms of all the packets that arrive, those still to
come included, and `slotEvents_holds` is where the two ways to look at it meet.

Fifty losses in a row are as many as playout takes without a restart: the
first slot of the queue is two behind the newest packet, the next packet is at
most fifty-one ahead of it, and a distance of fifty-three is what a queue of
three slots allows.

## Main definitions

* `heardPacket`: A packet as a receiver hands it on.
* `holds`: What a slot holds once some packets have arrived.
* `fate`: Where the audio of a slot comes from.
* `playedSlot`: The slot that is played.
* `playing`: The queue once some packets have arrived.

## Theorems

* `receive_packet`: A receiver hands on every packet.
* `filed_heardPacket`: Filing a packet.
* `slotEvents_holds`: What is played when the turn of a slot comes.
* `push_packet`: A packet that arrives.
* `events_run`: Everything that happens until the end.
-/

namespace RedundantAudio

namespace Reception

namespace Concealment

/-! ### What is heard -/

/-- The block in which a packet carries an older one. -/
def copyBlock (s : Redundancy.Source) (e : Redundancy.Encoder) (n m : Nat) : Red.Block :=
  Receiver.heard (Red.redundantBlock (Red.packetTime s.start n) e.opusType
    (Red.packetTime s.start n - Red.packetTime s.start m, s.payload m))

/-- The block in which a packet carries itself. -/
def ownBlock (s : Redundancy.Source) (e : Redundancy.Encoder) (n : Nat) : Red.Block :=
  Receiver.heard (Red.primaryBlock (Red.packetTime s.start n) e.opusType (s.payload n))

/-- A packet as a receiver hands it on. -/
def heardPacket (s : Redundancy.Source) (e : Redundancy.Encoder) (n : Nat)
    (report : Option Loss.Report) : Received where
  frame := s.packet e n
  blocks := (Redundancy.repeats e.level.toNat n).map (copyBlock s e n) ++ [ownBlock s e n]
  report := report

variable (s : Redundancy.Source) (e : Redundancy.Encoder)

theorem timestamp_copyBlock (n m : Nat) :
    (copyBlock s e n m).timestamp = Red.packetTime s.start m := by
  change Red.packetTime s.start n - (Red.packetTime s.start n - Red.packetTime s.start m) = _
  grind

/-- A receiver of the same types hands on every packet of a stream of voice, taken apart
    into the packet itself and its copies. A report may come with it, which has no say in
    what is played. -/
theorem receive_packet (hs : s.Voiced) (he : e.Sound) (hon : e.enabled = true) (r : Receiver)
    (hopus : r.opusType = e.opusType) (hred : r.redType = e.redType) (n : Nat) :
    ∃ report, (r.receive (s.packet e n)).2 = some (heardPacket s e n report) := by
  have hsound : (s.coder e n).Sound := { he with }
  have hcarried := s.carried_coder hs e he hon n
  have hsendable := (s.coder e n).sendable_select (Red.packetTime s.start n) (s.payload n)
    (s.fits_payload hs n)
  have hheaders := (s.coder e n).announceable_select hsound (Red.packetTime s.start n) (s.payload n)
    (s.fits_payload hs n)
  rw [hcarried] at hsendable hheaders
  -- The payload is what was put together, so it comes apart into the same blocks.
  have happart := r.takeApart_packetBytes (s.packet e n) e.opusType (s.copies e.level.toNat n)
    (s.payload n) hred.symm (by rw [hopus]) rfl (hs.ne_nil n) hheaders
  rw [Redundancy.Source.copies, List.map_map] at happart
  -- Whatever was selected fits, so the frame is not too large.
  have hsize : (s.packet e n).payload.length ≤ Red.payloadLimit := by
    change (Red.packetBytes _ _ _).length ≤ _
    rw [Red.length_packetBytes]
    exact hsendable.size_le
  exact ⟨_, r.receive_of_takeApart _ _ happart hsize⟩

/-- The redundant blocks of a packet are its copies. -/
theorem redundant_heardPacket (n : Nat) (report : Option Loss.Report) :
    ((heardPacket s e n report).blocks.filter fun b => !b.isLast)
      = (Redundancy.repeats e.level.toNat n).map (copyBlock s e n) := by
  have hcopies : ∀ b ∈ (Redundancy.repeats e.level.toNat n).map (copyBlock s e n),
      (!b.isLast) = true :=
    List.forall_mem_map.mpr fun m _ => rfl
  rw [heardPacket, List.filter_append, List.filter_eq_self.mpr hcopies]
  exact List.append_nil _

theorem primary_heardPacket (n : Nat) (report : Option Loss.Report) :
    (heardPacket s e n report).primaryPayload = s.payload n ∧
      (heardPacket s e n report).primaryHasFec = Opus.hasFec (s.payload n) := by
  rw [Received.primaryPayload, Received.primaryHasFec, heardPacket, List.getLast?_concat]
  exact ⟨rfl, rfl⟩

/-! ### What the slots hold -/

/-- What a slot holds once some packets have arrived. -/
def holds (arrivals : List Nat) (n : Nat) : Slot :=
  if n ∈ arrivals then
    .primary (s.sequence + .ofNat n) (s.payload n) (Opus.hasFec (s.payload n))
  else if ∃ m ∈ arrivals, n ∈ Redundancy.repeats e.level.toNat m then .redundant (s.payload n)
  else .missing

/-- The number of a block in a packet, by its age. -/
def number (n : Nat) (b : Red.Block) : Nat :=
  n - (Red.packetTime s.start n - b.timestamp).toNat / 960

theorem number_copyBlock (he : e.Sound) (n m : Nat)
    (hm : m ∈ Redundancy.repeats e.level.toNat n) : number s n (copyBlock s e n m) = m := by
  rw [Redundancy.mem_repeats _ _ _ he.level_le] at hm
  rw [number, timestamp_copyBlock, Red.toNat_packetTime_sub s.start m n (by omega) (by omega),
    Nat.mul_div_cancel_left _ (by decide)]
  omega

/-- A packet carries one copy of each packet that it carries. So it does not matter that
    playout takes the first block that it finds for a slot. -/
theorem find_copyBlock (he : e.Sound) (n j : Nat) :
    ((Redundancy.repeats e.level.toNat n).map (copyBlock s e n)).find?
        (fun b => number s n b = j)
      = if j ∈ Redundancy.repeats e.level.toNat n then some (copyBlock s e n j) else none := by
  have hnumber := number_copyBlock s e he n
  -- A block found is a copy of the packet that was looked for, as copies have different
  -- numbers.
  cases hfind : ((Redundancy.repeats e.level.toNat n).map (copyBlock s e n)).find?
      (fun b => number s n b = j) with
  | some b =>
      rcases List.mem_map.mp (List.mem_of_find?_eq_some hfind) with ⟨m, hm, rfl⟩
      have hj := List.find?_some hfind
      rw [decide_eq_true_eq, hnumber m hm] at hj
      rw [← hj, if_pos hm]
  | none =>
      rw [if_neg]
      intro hj
      have hnone := List.find?_eq_none.mp hfind _ (List.mem_map_of_mem hj)
      exact hnone (decide_eq_true (hnumber j hj))

/-- Filing a packet leads from what the slots hold to what they hold next. Its own slot
    takes the packet, and the slots of the packets that it carries take copies where nothing
    better is there. -/
theorem filed_heardPacket (he : e.Sound) (arrivals : List Nat) (n : Nat)
    (report : Option Loss.Report) :
    Playout.filed (number s n) (holds s e arrivals) (heardPacket s e n report) n
      = holds s e (arrivals ++ [n]) := by
  funext j
  rw [Playout.filed, redundant_heardPacket, (primary_heardPacket s e n report).1,
    (primary_heardPacket s e n report).2, Playout.refill, find_copyBlock s e he]
  have hframe : (heardPacket s e n report).frame.sequence = s.sequence + .ofNat n := rfl
  have hpayload : (copyBlock s e n j).payload = s.payload j := rfl
  have hcopies : (∃ m ∈ arrivals ++ [n], j ∈ Redundancy.repeats e.level.toNat m) ↔
      (∃ m ∈ arrivals, j ∈ Redundancy.repeats e.level.toNat m) ∨
        j ∈ Redundancy.repeats e.level.toNat n := by
    simp only [List.mem_append, List.mem_singleton, or_and_right, exists_or, exists_eq_left]
  have hlist : j ∈ arrivals ++ [n] ↔ j ∈ arrivals ∨ j = n := by
    rw [List.mem_append, List.mem_singleton]
  rw [hframe, holds, holds]
  -- The slot of the packet, a slot that was known before, and one that a copy may fill.
  by_cases hj : j = n
  · rw [if_pos hj, if_neg Slot.noConfusion, if_pos (hlist.mpr (Or.inr hj)), hj]
  by_cases harrived : j ∈ arrivals
  · rw [if_neg hj, if_pos harrived, if_neg Slot.noConfusion,
      if_pos (hlist.mpr (Or.inl harrived))]
  rw [if_neg hj, if_neg harrived, if_neg fun h => (hlist.mp h).elim harrived hj]
  by_cases hheld : ∃ m ∈ arrivals, j ∈ Redundancy.repeats e.level.toNat m
  · rw [if_pos hheld, if_neg Slot.noConfusion, if_pos (hcopies.mpr (Or.inl hheld))]
  rw [if_neg hheld, if_pos rfl]
  by_cases hcopy : j ∈ Redundancy.repeats e.level.toNat n
  · rw [if_pos hcopy, if_pos (hcopies.mpr (Or.inr hcopy))]
    exact congrArg Slot.redundant hpayload
  · rw [if_neg hcopy, if_neg fun h => (hcopies.mp h).elim hheld hcopy]

/-! ### What is played -/

variable (packet : Nat → Opus.Packet)

/-- Where the audio of a slot comes from when some packets arrive. -/
def fate (level : Nat) (arrivals : List Nat) (n : Nat) : Origin :=
  if n ∈ arrivals then .primary
  else if n + 2 ∈ arrivals ∨ (level = 2 ∧ n + 3 ∉ arrivals ∧ n + 4 ∈ arrivals) then .red
  else if n + 1 ∈ arrivals ∧ Opus.hasFec (s.payload (n + 1)) = true then .fec
  else .plc

/-- How many samples there are in a slot, given what the packets decode to. -/
def duration (n : Nat) : Origin → Nat
  | .primary | .red => (packet n).samples
  | .fec | .plc => Opus.concealedSamples

/-- The slot that is played when some packets arrive. -/
def playedSlot (level : Nat) (arrivals : List Nat) (n : Nat) : Played where
  timestamp := Red.packetTime s.start n
  origin := fate s level arrivals n
  samples := duration packet n (fate s level arrivals n)

theorem decodedSamples_payload (hs : s.Voiced)
    (hparse : ∀ n, Opus.Packet.parse (s.payload n) false = .ok (packet n)) (n : Nat) :
    Opus.decodedSamples (s.payload n) = .ok (packet n).samples := by
  have hne : (s.payload n).isEmpty = false := List.isEmpty_eq_false_iff.mpr (hs.ne_nil n)
  rw [Opus.decodedSamples, hne, hparse n]
  rfl

theorem fecSamples_payload (hs : s.Voiced)
    (hparse : ∀ n, Opus.Packet.parse (s.payload n) false = .ok (packet n)) (n : Nat) :
    Opus.fecSamples (s.payload n) = .ok Opus.concealedSamples := by
  have hne : (s.payload n).isEmpty = false := List.isEmpty_eq_false_iff.mpr (hs.ne_nil n)
  rw [Opus.fecSamples, hne, hparse n]
  rfl

/-- What a slot falls back to when neither it nor a copy is there. Correction data is taken
    from the packet in the next slot only, and not from a copy of it. -/
theorem conceal_holds (hs : s.Voiced)
    (hparse : ∀ n, Opus.Packet.parse (s.payload n) false = .ok (packet n))
    (arrivals : List Nat) (bound n : Nat) (hbound : ∀ m ∈ arrivals, m < bound) :
    Playout.conceal (Red.packetTime s.start n)
        (Playout.view (holds s e arrivals) (n + 1) bound)
      = [.played ⟨Red.packetTime s.start n,
          if n + 1 ∈ arrivals ∧ Opus.hasFec (s.payload (n + 1)) = true then .fec else .plc,
          Opus.concealedSamples⟩] := by
  -- The slot behind is the only one that can help.
  by_cases hin : n + 1 < bound
  · rw [Playout.view_cons _ _ _ hin, holds]
    by_cases hnext : n + 1 ∈ arrivals
    · rw [if_pos hnext]
      -- The next packet is there, and may or may not have correction data.
      cases hfec : Opus.hasFec (s.payload (n + 1)) with
      | true =>
          rw [Playout.conceal, fecSamples_payload s packet hs hparse, if_pos ⟨hnext, rfl⟩]
      | false =>
          rw [if_neg fun h => Bool.noConfusion h.2]
          rfl
    · have hplc : ¬ (n + 1 ∈ arrivals ∧ Opus.hasFec (s.payload (n + 1)) = true) :=
        fun h => hnext h.1
      rw [if_neg hnext, if_neg hplc]
      split <;> rfl
  · have hview : Playout.view (holds s e arrivals) (n + 1) bound = [] :=
      List.length_eq_zero_iff.mp (by rw [Playout.length_view]; omega)
    rw [hview, if_neg fun h => hin (hbound _ h.1)]
    rfl

/-- A slot is played once its turn comes. By then, every packet up to the one
    that carries the nearer copy of it has arrived, if it arrives at all, and
    the farther copy is in time only when it is the packet that makes it the
    slot's turn. -/
theorem slotEvents_holds (hs : s.Voiced) (he : e.Sound)
    (hparse : ∀ n, Opus.Packet.parse (s.payload n) false = .ok (packet n))
    (hlevel : 1 ≤ e.level.toNat) (heard arrivals : List Nat) (bound n : Nat)
    (hbound : ∀ m ∈ heard, m < bound)
    (hnear : ∀ m, m ≤ n + 2 → (m ∈ heard ↔ m ∈ arrivals))
    (hfar : n + 4 ∈ heard ↔ n + 3 ∉ arrivals ∧ n + 4 ∈ arrivals) :
    Playout.slotEvents s.start (holds s e heard) bound n
      = [.played (playedSlot s packet e.level.toNat arrivals n)] := by
  -- Only the packets two and four intervals behind carry this one.
  have hcopy : (∃ m ∈ heard, n ∈ Redundancy.repeats e.level.toNat m) ↔
      n + 2 ∈ arrivals ∨ (e.level.toNat = 2 ∧ n + 3 ∉ arrivals ∧ n + 4 ∈ arrivals) := by
    have hlimit := he.level_le
    rw [← hfar, ← hnear (n + 2) (by omega)]
    constructor
    · rintro ⟨m, hm, hcarried⟩
      rw [Redundancy.mem_repeats _ _ _ he.level_le] at hcarried
      rcases hcarried with ⟨_, rfl⟩ | ⟨htwo, rfl⟩
      · exact Or.inl hm
      · exact Or.inr ⟨htwo, hm⟩
    · rintro (hm | ⟨htwo, hm⟩)
      · refine ⟨n + 2, hm, ?_⟩
        rw [Redundancy.mem_repeats _ _ _ he.level_le]
        exact Or.inl ⟨hlevel, rfl⟩
      · refine ⟨n + 4, hm, ?_⟩
        rw [Redundancy.mem_repeats _ _ _ he.level_le]
        exact Or.inr ⟨htwo, rfl⟩
  have hown := hnear n (by omega)
  have hnext := hnear (n + 1) (by omega)
  have hconceal := conceal_holds s e packet hs hparse heard bound n hbound
  rw [Playout.slotEvents, playedSlot, fate, holds]
  -- Playout looks for audio in this order, and so does `fate`.
  by_cases harrived : n ∈ arrivals
  · rw [if_pos (hown.mpr harrived), if_pos harrived, Playout.playSlot,
      decodedSamples_payload s packet hs hparse]
    rfl
  rw [if_neg fun h => harrived (hown.mp h), if_neg harrived]
  by_cases hred : n + 2 ∈ arrivals ∨ (e.level.toNat = 2 ∧ n + 3 ∉ arrivals ∧ n + 4 ∈ arrivals)
  · rw [if_pos (hcopy.mpr hred), if_pos hred, Playout.playSlot,
      decodedSamples_payload s packet hs hparse]
    rfl
  rw [if_neg fun h => hred (hcopy.mp h), if_neg hred, Playout.playSlot, hconceal]
  by_cases hfec : n + 1 ∈ arrivals ∧ Opus.hasFec (s.payload (n + 1)) = true
  · rw [if_pos hfec, if_pos ⟨hnext.mpr hfec.1, hfec.2⟩]
    rfl
  · rw [if_neg hfec, if_neg fun h => hfec ⟨hnext.mp h.1, h.2⟩]
    rfl

/-! ### Runs -/

/-- The queue once some packets have arrived, the last of them `newest`. -/
def playing (arrivals : List Nat) (newest : Nat) : Playout :=
  Playout.queue {} s.ssrc s.start (holds s e arrivals) (newest - 2) (newest + 1)

/-- Slots ahead of the newest packet are missing: it brings nothing newer than itself. So a
    new packet always finds its slot free, and the slots it has jumped over empty. -/
theorem holds_ahead (he : e.Sound) (arrivals : List Nat) (newest n : Nat)
    (hpast : ∀ m ∈ arrivals, m ≤ newest) (hn : newest < n) : holds s e arrivals n = .missing := by
  have hown : n ∉ arrivals := fun h => absurd (hpast n h) (by omega)
  -- Copies are older than the packet that carries them.
  have hcopy : ¬ ∃ m ∈ arrivals, n ∈ Redundancy.repeats e.level.toNat m := by
    rintro ⟨m, hm, hcarried⟩
    have hle := hpast m hm
    rw [Redundancy.mem_repeats _ _ _ he.level_le] at hcarried
    omega
  rw [holds, if_neg hown, if_neg hcopy]

/-- The copies in a packet are for slots near the window, so their distances are read
    rightly. -/
theorem near_heardPacket (he : e.Sound) (first n : Nat) (report : Option Loss.Report)
    (hfirst : first ≤ n) (hn : n < first + 2 ^ 20) :
    Playout.Near s.start first (number s n) (heardPacket s e n report) := by
  intro b hb hlast
  rw [heardPacket, List.mem_append, List.mem_singleton] at hb
  rcases hb with hcopy | rfl
  · rcases List.mem_map.mp hcopy with ⟨m, hm, rfl⟩
    rw [number_copyBlock s e he n m hm, timestamp_copyBlock]
    rw [Redundancy.mem_repeats _ _ _ he.level_le] at hm
    exact ⟨rfl, by omega, by omega⟩
  · exact absurd hlast Bool.noConfusion

/-- The first packet starts the queue, and nothing is played yet. -/
theorem push_first_packet (he : e.Sound) (report : Option Loss.Report) :
    ({} : Playout).push (heardPacket s e 0 report) = (playing s e [0] 0, []) := by
  have hnone : ∀ m ∈ ([] : List Nat), m ≤ 0 := fun m hm => absurd hm List.not_mem_nil
  have hmissing : ∀ j, holds s e [] j = .missing := by
    intro j
    rw [holds, if_neg List.not_mem_nil, if_neg]
    rintro ⟨m, hm, _⟩
    exact List.not_mem_nil hm
  rw [Playout.push_first {} s.ssrc s.start (holds s e []) (heardPacket s e 0 report) 0 rfl rfl,
    Playout.enqueue_queue {} s.ssrc s.start (holds s e []) 0 0 (number s 0) _ 0 (le_refl 0)
      (le_refl 0) (fun j _ => hmissing j) (by rw [hmissing]; rfl)
      (near_heardPacket s e he 0 0 report (le_refl 0) (by omega)),
    filed_heardPacket s e he]
  rfl

/-- A further packet is filed in its slot, and those slots are played whose turn has come. A
    gap of up to fifty packets does not restart the queue, so just those slots are played
    that are more than two behind the packet. -/
theorem push_packet (he : e.Sound) (arrivals : List Nat) (newest n : Nat)
    (hpast : ∀ m ∈ arrivals, m ≤ newest) (hn : newest < n) (hgap : n ≤ newest + 51)
    (report : Option Loss.Report) :
    (playing s e arrivals newest).push (heardPacket s e n report)
      = (playing s e (arrivals ++ [n]) n,
          (List.range' (newest - 2) (n - 2 - (newest - 2))).flatMap
            (Playout.slotEvents s.start (holds s e (arrivals ++ [n])) (n + 1))) := by
  have hbound : max (newest + 1) (n + 1) = n + 1 := by omega
  have hfirst : max (newest - 2) (n + 1 - 3) = n - 2 := by omega
  have hcount : n + 1 - 3 - (newest - 2) = n - 2 - (newest - 2) := by omega
  have hdelay : ({} : PlayoutConfig).delay = 3 := rfl
  have hmissing := holds_ahead s e he arrivals newest
  -- The gap is within what is concealed, however few slots are pending.
  have hahead : n - (newest - 2) ≤ max (newest + 1 - (newest - 2)) ({} : PlayoutConfig).delay
      + ({} : PlayoutConfig).maxConcealed := by
    change _ ≤ max _ 3 + 50
    omega
  rw [playing, Playout.push_queue {} s.ssrc s.start _ _ _ _ n (by omega) rfl rfl (by omega) hahead,
    Playout.enqueue_queue {} s.ssrc s.start _ _ _ (number s n) _ n (by omega) (by omega)
      (fun j hj => hmissing j hpast (by omega)) (by rw [hmissing n hpast hn]; rfl)
      (near_heardPacket s e he _ n report (by omega) (by omega)),
    filed_heardPacket s e he, hbound, hdelay, hfirst, hcount]
  rfl

/-- What is played when a packet arrives is what is said of it by all the packets that
    arrive, those to come included. The packet four ahead of a slot can help only where the
    one three ahead is missing, as the slot is played by whichever of the two is the first
    to come. -/
theorem played_by_push (hs : s.Voiced) (he : e.Sound)
    (hparse : ∀ n, Opus.Packet.parse (s.payload n) false = .ok (packet n))
    (hlevel : 1 ≤ e.level.toNat) (heard later : List Nat) (newest n : Nat)
    (hpast : ∀ m ∈ heard, m ≤ newest) (hn : newest < n) (hlater : ∀ m ∈ later, n < m) :
    (List.range' (newest - 2) (n - 2 - (newest - 2))).flatMap
        (Playout.slotEvents s.start (holds s e (heard ++ [n])) (n + 1))
      = (List.range' (newest - 2) (n - 2 - (newest - 2))).map fun k =>
          .played (playedSlot s packet e.level.toNat (heard ++ n :: later) k) := by
  rw [List.map_eq_flatMap]
  refine List.flatMap_congr fun k hk => ?_
  rw [List.mem_range'_1] at hk
  -- All packets up to `n` have been heard, and all others are later than `n`.
  have hmem : ∀ m, m ∈ heard ++ n :: later ↔ m ∈ heard ++ [n] ∨ m ∈ later := by
    intro m
    rw [← List.mem_append, List.append_assoc, List.singleton_append]
  have hlist : ∀ m, m ∈ heard ++ [n] ↔ m ∈ heard ∨ m = n := by
    intro m
    rw [List.mem_append, List.mem_singleton]
  -- Each of the slots meets what `slotEvents_holds` asks of the packets heard so far.
  refine slotEvents_holds s e packet hs he hparse hlevel _ _ _ k ?_ ?_ ?_
  · intro m hm
    rcases (hlist m).mp hm with hold | rfl
    · have hle := hpast m hold
      omega
    · omega
  · intro m hm
    rw [hmem]
    exact ⟨Or.inl, fun h => h.resolve_right fun hin => absurd (hlater m hin) (by omega)⟩
  · -- Of the packets so far only the newest is that far ahead.
    have hnew : ∀ m, k + 3 ≤ m → (m ∈ heard ++ [n] ↔ m = n) := by
      intro m hm
      rw [hlist]
      exact ⟨fun h => h.resolve_left fun hin => absurd (hpast m hin) (by omega), Or.inr⟩
    rw [hmem, hmem, hnew (k + 4) (by omega), hnew (k + 3) (by omega)]
    constructor
    · intro hfar
      refine ⟨not_or.mpr ⟨by omega, fun hin => absurd (hlater _ hin) (by omega)⟩, Or.inl hfar⟩
    · rintro ⟨hnot, hfar | hin⟩
      · exact hfar
      · have hlt := hlater _ hin
        rw [not_or] at hnot
        omega

/-- At the end, the slots that are left are played. No more packets come, so what has
    arrived decides. -/
theorem played_by_flush (hs : s.Voiced) (he : e.Sound)
    (hparse : ∀ n, Opus.Packet.parse (s.payload n) false = .ok (packet n))
    (hlevel : 1 ≤ e.level.toNat) (arrivals : List Nat) (newest : Nat)
    (hpast : ∀ m ∈ arrivals, m ≤ newest) :
    (playing s e arrivals newest).flush.2
      = (List.range' (newest - 2) (newest + 1 - (newest - 2))).map fun k =>
          .played (playedSlot s packet e.level.toNat arrivals k) := by
  rw [playing, Playout.flush_queue {} s.ssrc s.start _ _ _ (by omega), List.map_eq_flatMap]
  refine List.flatMap_congr fun k hk => ?_
  rw [List.mem_range'_1] at hk
  -- The last three slots are left, and nothing has come that far ahead of them.
  have hnone : ∀ m, k + 3 ≤ m → m ∉ arrivals := fun m hm hin =>
    absurd (hpast m hin) (by omega)
  refine slotEvents_holds s e packet hs he hparse hlevel _ _ _ k ?_ (fun m _ => Iff.rfl) ?_
  · intro m hm
    exact Nat.lt_succ_of_le (hpast m hm)
  · exact ⟨fun h => absurd h (hnone _ (by omega)), fun h => h.2⟩

/-- A listener that is tuned to an encoder. -/
def Tuned (l : Listener) : Prop :=
  l.receiver.opusType = e.opusType ∧ l.receiver.redType = e.redType

/-- A tuned listener takes a packet, pushes it into its queue and stays tuned. -/
theorem handle_packet (hs : s.Voiced) (he : e.Sound) (hon : e.enabled = true) (l : Listener)
    (hl : Tuned e l) (n : Nat) :
    ∃ report, Tuned e (l.handle (s.packet e n)).1 ∧
      (l.handle (s.packet e n)).1.playout
        = (l.playout.push (heardPacket s e n report)).1 ∧
      (l.handle (s.packet e n)).2.events = (l.playout.push (heardPacket s e n report)).2 := by
  rcases receive_packet s e hs he hon l.receiver hl.1 hl.2 n with ⟨report, hreceive⟩
  have htypes := l.receiver.types_receive (s.packet e n)
  refine ⟨report, ?_⟩
  rw [Listener.handle_received l _ _ hreceive]
  exact ⟨⟨htypes.1.trans hl.1, htypes.2.trans hl.2⟩, rfl, rfl⟩

/-- What is played while the rest of the packets arrive and the stream ends, by induction on
    those that are still to come. The slots from the last three on are always left to be
    played, and the invariant is that the queue is the one `playing` describes. -/
theorem events_run (hs : s.Voiced) (he : e.Sound) (hon : e.enabled = true)
    (hparse : ∀ n, Opus.Packet.parse (s.payload n) false = .ok (packet n))
    (hlevel : 1 ≤ e.level.toNat) (last : Nat) (later : List Nat) :
    ∀ (l : Listener) (earlier : List Nat) (newest : Nat), Tuned e l →
      l.playout = playing s e (earlier ++ [newest]) newest →
      Red.InOrder 51 (earlier ++ newest :: later) → (newest :: later).getLast? = some last →
      (l.run ((later.map fun n => .frame (s.packet e n)) ++ [.flush])).2.flatMap (·.events)
        = (List.range' (newest - 2) (last + 1 - (newest - 2))).map fun k =>
            .played (playedSlot s packet e.level.toNat (earlier ++ newest :: later) k) := by
  induction later with
  | nil =>
      intro l earlier newest _ hplayout horder hlast
      have hpast : ∀ m ∈ earlier ++ [newest], m ≤ newest := horder.le_newest
      have heq : newest = last := Option.some.inj hlast
      -- Nothing more arrives, and what is left in the queue is played.
      have hflush := played_by_flush s e packet hs he hparse hlevel _ newest hpast
      rw [← heq, ← hflush, ← hplayout]
      exact List.append_nil _
  | cons n later ih =>
      intro l earlier newest hl hplayout horder hlast
      have hpast : ∀ m ∈ earlier ++ [newest], m ≤ newest := horder.le_newest
      have hnext := horder.next
      rcases handle_packet s e hs he hon l hl n with ⟨report, htuned, hqueue, hevents⟩
      rw [hplayout, push_packet s e he _ newest n hpast hnext.1 hnext.2] at hqueue hevents
      have hlist : earlier ++ newest :: n :: later = (earlier ++ [newest]) ++ n :: later := by
        rw [List.append_assoc, List.singleton_append]
      rw [hlist] at horder ⊢
      rw [List.getLast?_cons_cons] at hlast
      have hrest := ih (l.handle (s.packet e n)).1 (earlier ++ [newest]) n htuned hqueue horder
        hlast
      -- The packet is pushed, and the induction goes on from the queue behind it.
      rw [List.map_cons, List.cons_append, Listener.run, Listener.step]
      simp only [List.flatMap_cons]
      rw [hevents, hrest, played_by_push s e packet hs he hparse hlevel _ later newest n hpast
        hnext.1 horder.split.2, ← List.map_append]
      have hle : n ≤ last := horder.le_last
        (by rw [List.getLast?_append, hlast, Option.some_or]) n
        (List.mem_append_right _ List.mem_cons_self)
      have hsplit : newest - 2 + (n - 2 - (newest - 2)) = n - 2 := by omega
      -- The slots whose turn has come, and then those of the packets to come.
      have hcount : last + 1 - (newest - 2)
          = (n - 2 - (newest - 2)) + (last + 1 - (n - 2)) := by omega
      rw [hcount, ← List.range'_append_1, hsplit]

end Concealment

end Reception

end RedundantAudio
