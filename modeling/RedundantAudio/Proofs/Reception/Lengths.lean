import RedundantAudio.Proofs.Red.Timeline
import RedundantAudio.Proofs.Reception.Conservation
import RedundantAudio.Proofs.Reception.Continuity

/-!
# How Long a Slot Is

Slots follow each other every 20 ms, and a slot is as long as what is played in it.
Where all encodings are of one interval, so are the slots that are played from them, and
concealment never yields more or less. But a frame may be without an encoding, and
so may a redundant block. Nothing keeps such an encoding out of the queue, and decoding
it yields the longest packet there is, which is six intervals. So that slot is too
long, and in a recording everything behind it comes 100 ms later than its media time says.

A slot that is too long is traced back to its frame by an invariant of the queue: what a
slot holds is of one interval, or it is nothing and came with a frame that was
pushed, as its own encoding or in a redundant block. In the other direction
frames are counted. Those without an encoding that come neither late nor twice
are pending or were played, and every one that was played makes a slot too long.

## Main definitions

* `OneInterval`: An encoding of one interval, or no encoding.
* `Regular`: A frame with such encodings only.
* `Blank`: A frame that comes without an encoding for a slot.
* `Held`: What may be in a slot.
* `Slot.length`: How long a slot is by what it holds.
* `Playout.Stocked`: A queue with such slots only.
* `Playout.filings`: The frames that are filed.

## Theorems

* `played_of_held`: How long a slot is.
* `stocked_push`, `stocked_run`: What is in the queue.
* `samples_flush`: How long the slots are that are pending.
* `push_yields`, `run_yields`: The frames that are filed, by the samples they yield.
* `slot_lengths`: The lengths of the slots of a run.
* `slot_lengths_blanks`: Two slots that are too long.
-/

namespace RedundantAudio

namespace Reception

/-- An encoding of one interval, unless there is none. -/
def OneInterval (payload : Bytes) : Prop :=
  payload ≠ [] → ∃ packet, Opus.Packet.parse payload false = .ok packet ∧ packet.samples = 960

/-- A frame whose encoding and whose redundant blocks are of one interval or empty. -/
structure Regular (received : Received) : Prop where
  primary : OneInterval received.primaryPayload
  redundant : ∀ b ∈ received.blocks, b.isLast = false → OneInterval b.payload

/-- A media time belongs to the slot that begins at another one. -/
def InSlot (timestamp start : UInt32) : Prop :=
  (timestamp - start).toNat < 960

/-- A frame comes without an encoding for the slot at a media time, either of its own or
    redundant. -/
inductive Blank (received : Received) (start : UInt32) : Origin → Prop
  | primary (hpayload : received.primaryPayload = [])
      (hslot : InSlot received.frame.timestamp start) : Blank received start .primary
  | red (b : Red.Block) (hb : b ∈ received.blocks) (hredundant : b.isLast = false)
      (hpayload : b.payload = []) (hslot : InSlot b.timestamp start) : Blank received start .red

/-- What is in the slot at a media time, by the frames that there were: an encoding of one
    interval, or else there was a frame without one. -/
def Held (pushed : Received → Prop) (start : UInt32) : Slot → Prop
  | .missing => True
  | .redundant payload =>
    OneInterval payload ∧ (payload = [] → ∃ received, pushed received ∧ Blank received start .red)
  | .primary _ payload _ => OneInterval payload ∧
    (payload = [] → ∃ received, pushed received ∧ Blank received start .primary)

/-- How long a slot that was played is, and why: one interval, or six if there was a frame
    without an encoding for it. -/
def Measured (pushed : Received → Prop) (slot : Played) : Prop :=
  slot.samples = 960 ∨ slot.samples = 5760 ∧
    ∃ received, pushed received ∧ Blank received slot.timestamp slot.origin

theorem OneInterval.decodedSamples {payload : Bytes} (h : OneInterval payload)
    (hpayload : payload ≠ []) : Opus.decodedSamples payload = .ok 960 := by
  rcases h hpayload with ⟨packet, hparse, hsamples⟩
  rw [Opus.decodedSamples, if_neg (by simpa using hpayload), hparse, ← hsamples]

/-- Whether decoding an encoding yields so many samples. -/
def yields (n : Nat) (payload : Bytes) : Bool :=
  (Opus.decodedSamples payload).toOption = some n

/-- Whether a slot holds its own encoding, and that yields so many samples. -/
def Slot.yields (n : Nat) : Slot → Bool
  | primary _ payload _ => Reception.yields n payload
  | _ => false

/-- Whether a slot was played from its own encoding, and so many samples long. -/
def Event.yields (n : Nat) : Event → Bool
  | played slot => slot.origin = .primary && slot.samples = n
  | _ => false

/-- Whether a slot holds an encoding that is empty. -/
def Slot.isBlank : Slot → Bool
  | primary _ payload _ | redundant payload => payload.isEmpty
  | missing => false

/-- How many samples a slot yields when encodings are of one interval or empty. -/
def Slot.length (slot : Slot) : Nat :=
  if slot.isBlank then 5760 else 960

theorem OneInterval.yields_longest {payload : Bytes} (h : OneInterval payload) :
    Reception.yields 5760 payload = payload.isEmpty := by
  by_cases hpayload : payload = []
  · subst hpayload
    rfl
  · rw [Reception.yields, h.decodedSamples hpayload, List.isEmpty_eq_false_iff.mpr hpayload]
    rfl

namespace Playout

/-! ### What is played -/

/-- A slot that is concealed is one interval long, from whatever it is concealed. Correction
    data and concealment alike are asked for one interval, and yield just that. -/
theorem played_conceal (timestamp : UInt32) (following : List Slot) :
    ∃ origin, (conceal timestamp following).filterMap Event.played?
      = [⟨timestamp, origin, 960⟩] := by
  unfold conceal
  split
  · split
    next n hfec =>
      -- Correction data yields one interval, whatever it is taken from.
      have hn : n = 960 := by
        unfold Opus.fecSamples at hfec
        split at hfec
        · exact (Except.ok.inj hfec).symm
        · split at hfec
          · exact (Except.ok.inj hfec).symm
          · cases hfec
      exact ⟨.fec, by rw [hn]; rfl⟩
    next => exact ⟨.plc, rfl⟩
  · exact ⟨.plc, rfl⟩

/-- A slot is one interval long, unless it is played from an encoding that is empty. Such an
    encoding is concealed by the decoder itself, which fills all the room that it is given. -/
theorem played_of_held {pushed : Received → Prop} {timestamp : UInt32} {slot : Slot}
    (following : List Slot) (h : Held pushed timestamp slot) :
    ∃ played, (playSlot timestamp slot following).filterMap Event.played? = [played] ∧
      played.samples = slot.length ∧ Measured pushed played := by
  cases slot with
  | missing =>
      rcases played_conceal timestamp following with ⟨origin, hplayed⟩
      exact ⟨_, hplayed, rfl, Or.inl rfl⟩
  | redundant payload =>
      by_cases hpayload : payload = []
      · -- An empty encoding decodes to the longest packet, and that is what is played.
        subst hpayload
        exact ⟨⟨timestamp, .red, 5760⟩, rfl, rfl, Or.inr ⟨rfl, h.2 rfl⟩⟩
      · refine ⟨⟨timestamp, .red, 960⟩, ?_, ?_, Or.inl rfl⟩
        · simp only [playSlot, h.1.decodedSamples hpayload]
          rfl
        · simp only [Slot.length, Slot.isBlank, List.isEmpty_iff, hpayload, if_false]
  | primary sequence payload hasFec =>
      by_cases hpayload : payload = []
      · subst hpayload
        exact ⟨⟨timestamp, .primary, 5760⟩, rfl, rfl, Or.inr ⟨rfl, h.2 rfl⟩⟩
      · refine ⟨⟨timestamp, .primary, 960⟩, ?_, ?_, Or.inl rfl⟩
        · simp only [playSlot, h.1.decodedSamples hpayload]
          rfl
        · simp only [Slot.length, Slot.isBlank, List.isEmpty_iff, hpayload, if_false]

/-- Slots that hold what they may, the first of them at a media time. -/
def HeldAll (pushed : Received → Prop) (start : UInt32) (slots : List Slot) : Prop :=
  ∀ i slot, slots[i]? = some slot → Held pushed (Red.packetTime start i) slot

/-- The slots of a queue hold what they may, wherever the queue stands if it does not know
    its media time yet. -/
def Stocked (pushed : Received → Prop) (p : Playout) : Prop :=
  ∀ start, p.next.getD start = start → HeldAll pushed start p.slots

section Held

variable {pushed : Received → Prop} {start : UInt32} {slots : List Slot}

theorem HeldAll.head {slot : Slot} (h : HeldAll pushed start (slot :: slots)) :
    Held pushed start slot := by
  have hslot := h 0 slot rfl
  have htime : Red.packetTime start 0 = start := UInt32.add_zero start
  rwa [htime] at hslot

/-- The other slots hold what they may one slot later. -/
theorem HeldAll.tail {slot : Slot} (h : HeldAll pushed start (slot :: slots)) :
    HeldAll pushed (start + slotSamples) slots := by
  intro i other hother
  have hslot := h (i + 1) other hother
  -- The places are counted from the second slot, and so is the media time.
  have htime : Red.packetTime (start + slotSamples) i = Red.packetTime start (i + 1) := by
    rw [Red.packetTime_succ, Red.packetTime, Red.packetTime, slotSamples]
    grind
  rwa [htime]

/-- A slot may be set to what it may hold, and the others stay. -/
theorem heldAll_set {slot : Slot} (h : HeldAll pushed start slots) (i : Nat)
    (hslot : Held pushed (Red.packetTime start i) slot) :
    HeldAll pushed start (slots.set i slot) := by
  intro j other hother
  by_cases hj : i = j
  · subst hj
    have heq : other = slot := by
      rw [List.getElem?_set_self'] at hother
      cases hold : slots[i]? with
      | none => simp only [hold, Option.map_eq_map, Option.map_none, reduceCtorEq] at hother
      | some old => simpa [hold, eq_comm] using hother
    rw [heq]
    exact hslot
  · rw [List.getElem?_set_ne hj] at hother
    exact h j other hother

/-- A queue that is extended holds what it may, since a missing slot may stand anywhere. -/
theorem heldAll_extend (h : HeldAll pushed start slots) (index : Nat) :
    HeldAll pushed start (extend slots index) := by
  intro i slot hslot
  rw [extend, List.getElem?_append] at hslot
  split at hslot
  · exact h i slot hslot
  · -- Whatever was added is missing.
    rw [List.getElem?_replicate] at hslot
    split at hslot
    · cases hslot
      trivial
    · cases hslot

/-- The slot whose index is the distance of a media time is the one it belongs to. Times
    between two slots belong to the earlier one, as the distance is rounded down. -/
theorem inSlot_of_distance {timestamp : UInt32} {index : Nat}
    (h : slotDistance timestamp start = (index, false)) :
    InSlot timestamp (Red.packetTime start index) := by
  rw [slotDistance] at h
  split at h
  · cases h
    -- The distance in samples is that many whole slots and a rest of less than one.
    have hforward : timestamp - start = .ofNat (960 * ((timestamp - start).toNat / 960))
        + .ofNat ((timestamp - start).toNat % 960) := by
      rw [← UInt32.ofNat_add, Nat.div_add_mod, UInt32.ofNat_toNat]
    have hback : timestamp - Red.packetTime start ((timestamp - start).toNat / 960)
        = .ofNat ((timestamp - start).toNat % 960) := by
      rw [Red.packetTime]
      grind
    change (timestamp - Red.packetTime start ((timestamp - start).toNat / 960)).toNat < 960
    rw [hback, UInt32.toNat_ofNat']
    omega
  · cases h

/-- Slots that are played from the front are measured, each as long as what it held, and
    what is left holds what it may. By induction on the number of slots. -/
theorem heldAll_playFront (n : Nat) :
    ∀ (start : UInt32) (slots : List Slot), HeldAll pushed start slots →
      (∀ played ∈ (playFront n start slots).2.2.filterMap Event.played?,
          Measured pushed played) ∧
        ((playFront n start slots).2.2.filterMap Event.played?).map Played.samples
          = (slots.take n).map Slot.length ∧
        HeldAll pushed (playFront n start slots).1 (playFront n start slots).2.1 := by
  induction n with
  | zero =>
      intro start slots h
      rw [playFront_zero]
      exact ⟨List.forall_mem_nil _, rfl, h⟩
  | succ n ih =>
      intro start slots h
      cases slots with
      | nil => exact ⟨List.forall_mem_nil _, rfl, h⟩
      | cons slot slots =>
          -- The front slot is measured by what it holds, and the others by induction, one
          -- interval on.
          rcases played_of_held slots h.head with ⟨played, hplayed, hsamples, hmeasured⟩
          rcases ih (start + slotSamples) slots h.tail with ⟨hrest, hlengths, hleft⟩
          rw [playFront_cons, List.filterMap_append, hplayed, List.take_succ_cons, List.map_cons,
            ← hsamples, ← hlengths]
          exact ⟨List.forall_mem_cons.mpr ⟨hmeasured, hrest⟩, rfl, hleft⟩

/-- Where the media time of a queue is known, the slots have to be looked at for that one
    only. -/
theorem stocked_of_heldAll {p : Playout} (hnext : p.next = some start)
    (h : HeldAll pushed start p.slots) : Stocked pushed p := by
  intro other hother
  rw [hnext, Option.getD_some] at hother
  rwa [← hother]

/-- Draining a queue plays slots that are measured, and leaves it stocked. A queue without a
    media time plays nothing and stays as it is. -/
theorem stocked_drain {p : Playout} (h : Stocked pushed p) (keep : Nat) :
    (∀ played ∈ (p.drain keep).2.filterMap Event.played?, Measured pushed played) ∧
      Stocked pushed (p.drain keep).1 := by
  cases hnext : p.next with
  | none =>
      simp only [drain, hnext]
      exact ⟨List.forall_mem_nil _, h⟩
  | some start =>
      have hslots : HeldAll pushed start p.slots := h start (by rw [hnext, Option.getD_some])
      rcases heldAll_playFront (p.slots.length - keep) start p.slots hslots with
        ⟨hplayed, _, hleft⟩
      simp only [drain, hnext]
      exact ⟨hplayed, stocked_of_heldAll rfl hleft⟩

/-- Each slot that is pending is as long as what it holds. -/
theorem samples_flush {p : Playout} {config : PlayoutConfig} (h : Stocked pushed p)
    (htidy : Tidy config p) :
    (p.flush.2.filterMap Event.played?).map Played.samples = p.slots.map Slot.length := by
  cases hnext : p.next with
  | none =>
      simp only [flush, drain, hnext, htidy.slots_of_next hnext]
      rfl
  | some start =>
      have hslots : HeldAll pushed start p.slots := h start (by rw [hnext, Option.getD_some])
      have hlengths := (heldAll_playFront (p.slots.length - 0) start p.slots hslots).2.1
      simp only [flush, drain, hnext]
      rw [hlengths, Nat.sub_zero, List.take_length]

/-! ### What a frame puts into the queue -/

variable {received : Received} (hpushed : pushed received) (hregular : Regular received)

include hpushed hregular

/-- Redundant blocks of a regular frame leave every slot with what it may hold. An empty one
    may, for then the frame came without an encoding for that slot. -/
theorem heldAll_fill (h : HeldAll pushed start slots) :
    HeldAll pushed start (fill start received.blocks slots) := by
  rw [fill_eq]
  refine List.foldlRecOn _ _ h fun slots hslots b hmem => ?_
  rw [List.mem_filter, Bool.not_eq_true'] at hmem
  rcases hmem with ⟨hb, hredundant⟩
  rw [fillOne]
  rcases hdistance : slotDistance b.timestamp start with ⟨index, behind⟩
  dsimp only
  split
  next hfree =>
    -- The block falls into its slot.
    simp only [Bool.and_eq_true, Bool.not_eq_true'] at hfree
    rw [hfree.1] at hdistance
    refine heldAll_set hslots index ⟨hregular.redundant b hb hredundant, fun hpayload => ?_⟩
    exact ⟨received, hpushed, .red b hb hredundant hpayload (inSlot_of_distance hdistance)⟩
  next => exact hslots

/-- Filing a regular frame leaves every slot with what it may hold. Its own slot takes the
    frame, unless it is taken, and those that were missing may take a copy. -/
theorem heldAll_file {p : Playout} {index : Nat} (h : HeldAll pushed start p.slots)
    (hnext : p.next = some start)
    (hslot : InSlot received.frame.timestamp (Red.packetTime start index)) :
    HeldAll pushed start (p.file received index).1.slots := by
  have hslots : HeldAll pushed start
      (if ((extend p.slots index)[index]?).any Slot.isPrimary then extend p.slots index
        else (extend p.slots index).set index (.primary received.frame.sequence
          received.primaryPayload received.primaryHasFec)) := by
    -- The slot of the frame was taken, or the frame goes there.
    split
    · exact heldAll_extend h index
    · refine heldAll_set (heldAll_extend h index) index ⟨hregular.primary, fun hpayload => ?_⟩
      exact ⟨received, hpushed, .primary hpayload hslot⟩
  simp only [file, hnext, Option.getD_some]
  exact heldAll_fill hpushed hregular hslots

/-- Filing a regular frame, and playing what is then too much, keeps a queue stocked. -/
theorem stocked_enqueue {p : Playout} {index : Nat} (h : HeldAll pushed start p.slots)
    (hnext : p.next = some start)
    (hslot : InSlot received.frame.timestamp (Red.packetTime start index)) :
    (∀ played ∈ (p.enqueue received index).2.filterMap Event.played?, Measured pushed played) ∧
      Stocked pushed (p.enqueue received index).1 := by
  have hfiled := heldAll_file hpushed hregular h hnext hslot
  have hdrained := stocked_drain (p := (p.file received index).1)
    (stocked_of_heldAll hnext hfiled) p.config.delay
  simp only [enqueue, List.filterMap_append, played_file, List.nil_append]
  exact hdrained

/-- Pushing a regular frame keeps a queue stocked, and what is played is measured. The frame
    may begin a queue, join one or restart one, and in the last case all that was pending is
    played. -/
theorem stocked_push {p : Playout} (h : Stocked pushed p) :
    (∀ played ∈ (p.push received).2.filterMap Event.played?, Measured pushed played) ∧
      Stocked pushed (p.push received).1 := by
  have hknown : HeldAll pushed (p.next.getD received.frame.timestamp)
      (p.known received.frame).slots := h _ (p.next_getD_getD _)
  cases hplace : p.place received.frame with
  | restart distance behind =>
      rcases stocked_drain (stocked_of_heldAll rfl hknown) 0 with ⟨hflushed, _⟩
      -- Everything was played, so the queue that begins with the frame is empty.
      have hslots : HeldAll pushed received.frame.timestamp
          ((p.known received.frame).renewed received.frame.timestamp).slots := by
        have hpending := pending_drain (p.known received.frame) 0 _ rfl
        have hempty : (p.known received.frame).flush.1.slots = [] :=
          List.length_eq_zero_iff.mp (Nat.le_zero.mp hpending)
        rw [renewed, hempty]
        exact fun i slot hslot => absurd hslot (by simp)
      have hself : InSlot received.frame.timestamp (Red.packetTime received.frame.timestamp 0) :=
        inSlot_of_distance (slotDistance_self _)
      rcases stocked_enqueue hpushed hregular hslots rfl hself with ⟨hplayed, hstocked⟩
      rw [push_restart p received distance behind hplace]
      refine ⟨?_, hstocked⟩
      rw [List.filterMap_cons_none rfl, List.filterMap_append]
      exact List.forall_mem_append.mpr ⟨hflushed, hplayed⟩
  | late =>
      rw [push_late p received hplace]
      exact ⟨List.forall_mem_nil _, stocked_of_heldAll rfl hknown⟩
  | slot index =>
      have hslot := inSlot_of_distance (distance_of_place_slot p received.frame index hplace)
      rw [push_slot p received index hplace]
      exact stocked_enqueue hpushed hregular hknown rfl hslot

end Held

/-- Along a run of regular frames, every slot that is played is measured, by induction on
    the inputs with the queue stocked between them. -/
theorem stocked_run {pushed : Received → Prop} (inputs : List Input)
    (hinputs : ∀ received, .push received ∈ inputs → pushed received ∧ Regular received) :
    ∀ p : Playout, Stocked pushed p →
      (∀ played ∈ (p.run inputs).2.filterMap Event.played?, Measured pushed played) ∧
        Stocked pushed (p.run inputs).1 := by
  induction inputs with
  | nil =>
      intro p h
      exact ⟨List.forall_mem_nil _, h⟩
  | cons input inputs ih =>
      intro p h
      -- An input is a flush, which only drains, or a push of one of the regular frames.
      have hstep : (∀ played ∈ (p.step input).2.filterMap Event.played?, Measured pushed played) ∧
          Stocked pushed (p.step input).1 := by
        cases input with
        | flush => exact stocked_drain h 0
        | push received =>
            rcases hinputs received List.mem_cons_self with ⟨hpushed, hregular⟩
            exact stocked_push hpushed hregular h
      rcases ih (fun received h => hinputs received (List.mem_cons_of_mem _ h)) _ hstep.2 with
        ⟨hlater, hstocked⟩
      rw [run_cons, List.filterMap_append]
      exact ⟨List.forall_mem_append.mpr ⟨hstep.1, hlater⟩, hstocked⟩

/-! ### The frames that are filed -/

/-- The frames of a run that are filed, which are those that come neither late nor twice. -/
def filings (p : Playout) : List Input → List Received
  | [] => []
  | .flush :: inputs => p.flush.1.filings inputs
  | .push received :: inputs =>
    if (p.push received).2.any Event.discards then (p.push received).1.filings inputs
    else received :: (p.push received).1.filings inputs

/-- Frames that are filed were pushed. -/
theorem of_mem_filings {received : Received} (inputs : List Input) :
    ∀ p : Playout, received ∈ p.filings inputs → .push received ∈ inputs := by
  induction inputs with
  | nil =>
      intro p h
      cases h
  | cons input inputs ih =>
      intro p h
      cases input with
      | flush => exact List.mem_cons_of_mem _ (ih _ h)
      | push other =>
          rw [filings] at h
          -- A frame that is discarded is not filed, and any other one is the first of the
          -- filings.
          split at h
          · exact List.mem_cons_of_mem _ (ih _ h)
          · rcases List.mem_cons.mp h with rfl | h
            · exact List.mem_cons_self
            · exact List.mem_cons_of_mem _ (ih _ h)

/-- The primaries that yield so many samples are a kind: each comes to one slot of that
    length when its own slot is played. -/
theorem settling_yields (n : Nat) : Settling (Event.yields n) (Slot.yields n) := by
  refine ⟨fun event h => ?_, fun slot h => ?_,
    fun timestamp sequence payload hasFec following => ?_⟩
  · cases event with
    | played slot =>
        rw [Event.yields, Bool.and_eq_true] at h
        exact h.1
    | _ => cases h
  · cases slot with
    | primary sequence payload hasFec => rfl
    | _ => cases h
  · -- A primary is decoded, and then its slot is as long as it yields, or it cannot be
    -- decoded.
    simp only [playSlot]
    split
    next m hdecoded =>
      simp only [List.countP_cons, List.countP_nil, Event.yields, decide_true, Bool.true_and,
        decide_eq_true_eq, zero_add, Slot.yields, yields, Except.toOption, hdecoded,
        Option.some.injEq]
    next hdecoded =>
      simp only [Event.yields, Bool.false_eq_true, not_false_eq_true, List.countP_cons_of_neg,
        reduceCtorEq, decide_false, Bool.false_and, List.countP_nil, Slot.yields, yields,
        Except.toOption, hdecoded]

/-- A frame that is filed is pending or was played, with the samples it yields. One that is
    late or a duplicate adds to neither side, and the event that says so tells the two cases
    apart. -/
theorem push_yields (p : Playout) (received : Received) (n : Nat) :
    (p.push received).2.countP (Event.yields n)
        + (p.push received).1.slots.countP (Slot.yields n)
      = p.slots.countP (Slot.yields n)
        + if (p.push received).2.any Event.discards then 0
          else [received.primaryPayload].countP (yields n) := by
  rw [push_balance (settling_yields n), ← List.isSome_find?]
  cases hdiscards : (p.push received).2.find? Event.discards with
  | none => rfl
  | some event =>
      cases event with
      | late sequence timestamp => rfl
      | duplicate sequence timestamp => rfl
      | _ => cases List.find?_some hdiscards

/-- Along a run, slots that were played so long or will be are as many as frames were filed
    that yield so much. Copies do not enter here, since only slots that are played from
    their own encoding are counted. -/
theorem run_yields (n : Nat) (inputs : List Input) :
    ∀ p : Playout, (p.run inputs).2.countP (Event.yields n)
        + (p.run inputs).1.slots.countP (Slot.yields n)
      = p.slots.countP (Slot.yields n)
        + ((p.filings inputs).map Received.primaryPayload).countP (yields n) := by
  induction inputs with
  | nil =>
      intro p
      exact Nat.add_comm _ _
  | cons input inputs ih =>
      intro p
      have hrest := ih (p.step input).1
      rw [run_cons, List.countP_append]
      cases input with
      | flush =>
          have hplayed := drain_conserves (settling_yields n) p 0
          simp only [step, flush, filings] at hrest ⊢
          omega
      | push received =>
          have hpushed := push_yields p received n
          simp only [step, filings] at hrest ⊢
          -- A frame that comes late or twice is not filed, and adds nothing to either side.
          by_cases hdiscards : (p.push received).2.any Event.discards = true
          · rw [if_pos hdiscards] at hpushed ⊢
            omega
          · rw [if_neg hdiscards] at hpushed ⊢
            rw [List.map_cons, countP_cons_eq]
            omega

/-! ### All slots of a run -/

/-- All samples together, when each slot is one interval or six: one for every slot, and
    five more for every slot that is too long. -/
theorem samplesIn_eq (events : List Event)
    (h : ∀ slot ∈ events.filterMap Event.played?, slot.samples = 960 ∨ slot.samples = 5760) :
    Recording.samplesIn events = 960 * (events.filterMap Event.played?).length
      + 4800 * (events.filterMap Event.played?).countP (·.samples = 5760) := by
  induction events with
  | nil => rfl
  | cons event events ih =>
      have hcons : Recording.samplesIn (event :: events)
          = Recording.added event + Recording.samplesIn events := rfl
      cases hplayed : event.played? with
      | none =>
          rw [List.filterMap_cons_none hplayed] at h ⊢
          rw [hcons, Recording.added, hplayed, ih h]
          exact Nat.zero_add _
      | some slot =>
          rw [List.filterMap_cons_some hplayed, List.forall_mem_cons] at h
          -- In either case the slot is one interval long, with five more if it is too long.
          have hslot : slot.samples = 960 + 4800 * if slot.samples = 5760 then 1 else 0 := by
            rcases h.1 with hslot | hslot <;> rw [hslot] <;> rfl
          rw [List.filterMap_cons_some hplayed, hcons, Recording.added, hplayed, ih h.2,
            List.length_cons, List.countP_cons]
          simp only [decide_eq_true_eq]
          omega

/-- To count events of a length is to count slots of that length. -/
theorem countP_yields (n : Nat) (events : List Event) :
    events.countP (Event.yields n)
      = (events.filterMap Event.played?).countP
        (fun slot => slot.origin = .primary && slot.samples = n) := by
  rw [List.countP_filterMap]
  refine List.countP_congr fun event _ => ?_
  cases event <;>
    simp only [Event.yields, Bool.false_eq_true, Bool.and_eq_true, decide_eq_true_eq,
      Event.played?, Option.map_some, Option.map_none, Option.getD_some, Option.getD_none]

/-- Where every encoding that is not empty is of one interval, a slot is one interval long
    as well, or else it is six intervals long, and then a frame was pushed without an encoding
    for it. A recording is as long as all slots together, so each that is too long moves
    what is behind it by 100 ms. And frames without an encoding of their own do make slots
    too long: as many were played so, or are pending, as were filed. A slot that is pending
    is as long as its encoding, its own or redundant, will make it. -/
theorem slot_lengths (config : PlayoutConfig) (inputs : List Input)
    (hregular : ∀ received, .push received ∈ inputs → Regular received) :
    let playout : Playout := { config }
    let p := (playout.run inputs).1
    let events := (playout.run inputs).2
    let slots := events.filterMap Event.played?
    (∀ slot ∈ slots, slot.samples = 960 ∨ slot.samples = 5760 ∧
        ∃ received, .push received ∈ inputs ∧ Blank received slot.timestamp slot.origin) ∧
      (({} : Recording).write events).bind Recording.finish
        = .ok (960 * slots.length + 4800 * slots.countP (·.samples = 5760)) ∧
      slots.countP (fun slot => slot.origin = .primary && slot.samples = 5760)
          + p.slots.countP (fun slot => slot.isPrimary && slot.isBlank)
        = (playout.filings inputs).countP (·.primaryPayload.isEmpty) ∧
      (p.flush.2.filterMap Event.played?).map Played.samples = p.slots.map Slot.length := by
  intro playout p events slots
  have hempty : Stocked (fun received => .push received ∈ inputs) playout :=
    fun start _ i slot hslot => nomatch hslot
  rcases stocked_run inputs (fun received h => ⟨h, hregular received h⟩) playout hempty with
    ⟨hmeasured, hstocked⟩
  have hyields := run_yields 5760 inputs playout
  have htidy : Tidy config p :=
    tidy_run config inputs playout ⟨rfl, Nat.zero_le _, fun _ => rfl, fun _ => rfl⟩
  refine ⟨hmeasured, ?_, ?_, samples_flush hstocked htidy⟩
  · have hsamples := samplesIn_eq events fun slot hslot => (hmeasured slot hslot).imp_right (·.1)
    rw [← hsamples, ← Nat.zero_add (Recording.samplesIn events)]
    rfl
  · -- For a primary that is pending, to yield the longest packet is to be empty.
    have hpending : p.slots.countP (Slot.yields 5760)
        = p.slots.countP fun slot => slot.isPrimary && slot.isBlank := by
      refine List.countP_congr fun slot hslot => ?_
      rcases List.getElem?_of_mem hslot with ⟨i, hi⟩
      have hheld := hstocked (p.next.getD 0) (p.next_getD_getD 0) i slot hi
      cases slot with
      | primary sequence payload hasFec =>
          rw [Slot.yields, Slot.isBlank, Slot.isPrimary, hheld.1.yields_longest, Bool.true_and]
      | _ => rfl
    -- The same goes for a primary that was filed.
    have hfilings : ((playout.filings inputs).map Received.primaryPayload).countP (yields 5760)
        = (playout.filings inputs).countP (·.primaryPayload.isEmpty) := by
      rw [List.countP_map]
      refine List.countP_congr fun received hreceived => ?_
      have hframe := hregular received (of_mem_filings inputs playout hreceived)
      rw [Function.comp_apply, hframe.primary.yields_longest]
    rw [countP_yields, hpending, hfilings] at hyields
    exact hyields.trans (Nat.zero_add _)

/-- A frame without an encoding. -/
def blankFrame : Received where
  frame := { sequence := 0, timestamp := 0, ssrc := 9, payloadType := 111, payload := [] }
  blocks := []
  report := none

/-- The frame two intervals behind it, with an empty block for the interval between. -/
def blankBehind : Received where
  frame := { sequence := 2, timestamp := 1920, ssrc := 9, payloadType := 63,
             payload := [0xEF, 0x0F, 0x00, 0x00, 0x6F, 0x08] }
  blocks := [⟨false, 111, 960, 960, [], false⟩, ⟨true, 111, 0, 1920, [0x08], false⟩]
  report := none

/-- Three slots of 260 ms altogether, from two frames as a receiver hands them on. The first
    is empty, and so is the copy that the other one brings; only the last slot is as long as
    it should be. -/
theorem slot_lengths_blanks :
    let inputs := [Input.push blankFrame, .push blankBehind, .flush]
    let events := (({} : Playout).run inputs).2
    (((Receiver.new 111 63 {}).receive blankBehind.frame).2.map Received.blocks
        = some blankBehind.blocks) ∧
      events.filterMap Event.played?
        = [⟨0, .primary, 5760⟩, ⟨960, .red, 5760⟩, ⟨1920, .primary, 960⟩] ∧
      (({} : Recording).write events).bind Recording.finish = .ok 12480 := by
  intro inputs events
  have hbyte : OneInterval [0x08] := fun _ => ⟨_, by rfl, by decide⟩
  have hnone : OneInterval [] := fun h => absurd rfl h
  have hregular : ∀ received, .push received ∈ inputs → Regular received := by
    intro received h
    simp only [inputs, List.mem_cons, Input.push.injEq, reduceCtorEq, List.not_mem_nil,
      or_false] at h
    rcases h with rfl | rfl
    · exact ⟨hnone, List.forall_mem_nil _⟩
    · refine ⟨hbyte, fun b hb _ => ?_⟩
      simp only [blankBehind, List.mem_cons, List.not_mem_nil, or_false] at hb
      rcases hb with rfl | rfl
      · exact hnone
      · exact hbyte
  rcases slot_lengths {} inputs hregular with ⟨_, hrecording, _, _⟩
  exact ⟨by decide, by decide, hrecording.trans (by decide)⟩

end Playout

end Reception

end RedundantAudio
