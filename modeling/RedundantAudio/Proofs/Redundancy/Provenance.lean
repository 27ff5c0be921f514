import RedundantAudio.Proofs.Reception.Hearing
import RedundantAudio.Proofs.Redundancy.Selection
import RedundantAudio.Proofs.Rtp.Frame

/-!
# Where a Redundant Block Comes From

A receiver plays a redundant block in place of a packet that was lost, so it
matters that the block is that packet. What carries the proof is one fact
about the history: whatever a run leaves in it was a primary of that run, at
the media time under which it is kept (`mem_history_run`). Media time may run
backwards, repeat or wrap, and the history may be cleared on the way; none of
it makes up an entry.

The rest is the way of a packet from the encoder to the receiver. The
selection says which entries a packet carries and how old they are, the wire
gives back what was written, and the offsets in the headers are ages, so the
receiver computes the media times that the entries were kept under.

## Main definitions

* `SentBefore`: An encoding that a run has sent as a primary.
* `Faithful`: What a receiver finds in a packet.
* `entryBlock`: The block that an entry becomes.
* `voicedInputs`: A run to look at.

## Theorems

* `primary_of_encoded`: The packet behind an outcome.
* `mem_history_run`: The history holds only what was sent.
* `sentBefore_select`: So does the selection of a packet.
* `pairwise_entryBlocks`: The blocks of a packet are strides apart.
* `faithful_select`: The selection of a packet is faithful.
* `redundant_blocks_faithful`: A packet is received as it was meant.
* `faithful_behind_voicedInputs`: Such a packet behind four frames of voice.
-/

namespace RedundantAudio

namespace Redundancy

namespace Encoder

/-- Nothing but a frame with a fitting primary becomes a packet, and then the packet is the
    frame with other contents and another type. So what is proved of `packetOf` holds of
    whatever an encoder sends. -/
theorem primary_of_encoded (e : Encoder) (hs : e.Sound) (frame out : Rtp.Frame) (count : Nat)
    (hsend : (e.send frame).2 = .encoded out count) :
    ∃ primary, e.primaryOf frame = some (.ok primary) ∧ fits primary = true ∧
      out = { frame with
        payload := e.packetOf frame.timestamp primary
        payloadType := e.redType } := by
  rcases send_cases e frame with ⟨primary, hprimary, hfits⟩ | hpass
  · rw [send_eq e hs frame primary hprimary hfits] at hsend
    simp only [Outcome.encoded.injEq] at hsend
    exact ⟨primary, hprimary, hfits, hsend.1.symm⟩
  · -- A frame that is passed on is not encoded.
    rw [hpass] at hsend
    exact absurd hsend (pass_ne_encoded frame out count)

/-- An encoding that a run has sent as the primary of a packet, at some media
    time, because it is worth repeating. -/
def SentBefore (e : Encoder) (inputs : List Input) (entry : Entry) : Prop :=
  ∃ before frame after out count,
    inputs = before ++ .frame frame :: after ∧
    ((e.run before).1.send frame).2 = .encoded out count ∧
    (e.run before).1.primaryOf frame = some (.ok entry.payload) ∧
    frame.timestamp = entry.timestamp ∧
    Opus.isImportant entry.payload = true

/-- A run that starts an input earlier has sent no less. The encoder that sent the encoding
    is the same one, reached over one more input. -/
theorem SentBefore.cons {e : Encoder} {inputs : List Input} {entry : Entry} (input : Input)
    (h : SentBefore (e.step input).1 inputs entry) : SentBefore e (input :: inputs) entry := by
  rcases h with ⟨before, frame, after, out, count, rfl, hsend, hprimary, htime, himp⟩
  exact ⟨input :: before, frame, after, out, count, rfl, hsend, hprimary, htime, himp⟩

/-- What is in the history after a frame was there before it, or is the frame itself, if
    that was worth repeating. -/
theorem mem_update (h : History) (timestamp : UInt32) (payload : Bytes) (important : Bool)
    (entry : Entry) (hmem : entry ∈ (h.update timestamp payload important).entries) :
    entry ∈ h.entries ∨ important = true ∧ entry = ⟨timestamp, payload⟩ := by
  -- Dropping old entries makes up no new ones.
  have hyoung : ∀ x ∈ h.youngEnough timestamp, x ∈ h.entries := fun x hx =>
    (List.dropWhile_sublist _).subset hx
  simp only [History.update] at hmem
  cases important with
  | false => exact Or.inl (hyoung entry hmem)
  | true =>
      simp only [Bool.not_true, Bool.false_eq_true, if_false] at hmem
      -- Entries are cleared on a crossing of the clock, and then only the new one is left.
      split at hmem
      · exact Or.inr ⟨rfl, List.mem_singleton.mp hmem⟩
      · rcases List.mem_append.mp hmem with hold | hnew
        · exact Or.inl (hyoung entry hold)
        · exact Or.inr ⟨rfl, List.mem_singleton.mp hnew⟩

/-- One input puts no encoding into the history but one that it sends. The inputs behind it
    are of no account; they are there so that the step is that of a run. -/
theorem mem_history_step (e : Encoder) (hs : e.Sound) (input : Input) (inputs : List Input)
    (entry : Entry) (hmem : entry ∈ (e.step input).1.history.entries) :
    entry ∈ e.history.entries ∨ SentBefore e (input :: inputs) entry := by
  cases input with
  | control message =>
      left
      -- No message touches the history.
      cases message <;> exact hmem
  | frame frame =>
      change entry ∈ (e.send frame).1.history.entries at hmem
      rcases send_cases e frame with ⟨primary, hprimary, hfits⟩ | hpass
      · have hsend := send_eq e hs frame primary hprimary hfits
        rw [hsend] at hmem
        rcases mem_update e.history frame.timestamp primary _ entry hmem with hold | ⟨himp, rfl⟩
        · exact Or.inl hold
        · right
          -- The frame is the first of the run, sent by the encoder that the run starts
          -- with.
          exact ⟨[], frame, inputs, _, _, rfl, congrArg Prod.snd hsend, hprimary, rfl, himp⟩
      · rw [hpass] at hmem
        exact Or.inl hmem

/-- What is in the history after a run was there before it, or was sent in it. The history
    is therefore no source of encodings of its own. -/
theorem mem_history_run (inputs : List Input) (entry : Entry) :
    ∀ e : Encoder, e.Sound → entry ∈ (e.run inputs).1.history.entries →
      entry ∈ e.history.entries ∨ SentBefore e inputs entry := by
  induction inputs with
  | nil =>
      intro e _ hmem
      exact Or.inl hmem
  | cons input inputs ih =>
      intro e hs hmem
      rcases ih (e.step input).1 (sound_step e hs input) hmem with hstep | hsent
      · exact mem_history_step e hs input inputs entry hstep
      · exact Or.inr (hsent.cons input)

/-- What a receiver finds in the packet that a frame became, after a run of
    inputs: the primary encoding as it went in, and beside it only encodings
    that the run has sent before. -/
structure Faithful (inputs : List Input) (frame : Rtp.Frame) (primary : Bytes)
    (redundant : List Red.Block) (last : Red.Block) : Prop where
  /-- The primary block is the encoding, at the time of the frame. -/
  isLast_last : last.isLast = true
  payload_last : last.payload = primary
  timestamp_last : last.timestamp = frame.timestamp
  /-- Every other block is an encoding sent before, at the time it says. -/
  isLast_redundant : ∀ b ∈ redundant, b.isLast = false
  timestamp_redundant : ∀ b ∈ redundant, b.timestamp = frame.timestamp - b.offset.toUInt32
  sent : ∀ b ∈ redundant, SentBefore {} inputs ⟨b.timestamp, b.payload⟩
  /-- Blocks are two or three, or four or five packets old, oldest first. -/
  offset : ∀ b ∈ redundant,
    (b.offset = 1920 ∨ b.offset = 2880) ∨ (b.offset = 3840 ∨ b.offset = 4800)
  offset_decreasing : redundant.Pairwise fun a b => b.offset < a.offset
  near_le_one : redundant.countP (fun b => b.offset = 1920 ∨ b.offset = 2880) ≤ 1
  far_le_one : redundant.countP (fun b => b.offset = 3840 ∨ b.offset = 4800) ≤ 1
  /-- There are as many as the level allows, and none while redundancy is off. -/
  length_le : redundant.length ≤ min (({} : Encoder).run inputs).1.level.toNat 2
  disabled : (({} : Encoder).run inputs).1.enabled = false → redundant = []

/-- If no two of a kind can stand in the order of the list, there is at most one of them. -/
theorem countP_le_one_of_pairwise {α : Type} {R : α → α → Prop} {p : α → Bool} {l : List α}
    (hl : l.Pairwise R) (hp : ∀ x y, p x = true → p y = true → ¬ R x y) : l.countP p ≤ 1 := by
  rw [List.countP_eq_length_filter]
  have hfilter := hl.filter p
  have hall : ∀ x ∈ l.filter p, p x = true := fun x hx => (List.mem_filter.mp hx).2
  -- Two elements would be related, the first to the second.
  cases hf : l.filter p with
  | nil => exact Nat.zero_le _
  | cons x xs =>
      cases xs with
      | nil => exact le_refl 1
      | cons y ys =>
          rw [hf] at hfilter hall
          have hxy : R x y := List.rel_of_pairwise_cons hfilter List.mem_cons_self
          exact absurd hxy (hp x y (hall x List.mem_cons_self)
            (hall y (List.mem_cons_of_mem _ List.mem_cons_self)))

/-- Where each block is a stride older than the next, no two of them have
    offsets from the same stride. -/
theorem countP_offset_le_one (blocks : List Red.Block)
    (h : blocks.Pairwise fun a b => b.offset.toNat / 1920 < a.offset.toNat / 1920)
    (m n : UInt16) (i : Nat) (hm : m.toNat / 1920 = i) (hn : n.toNat / 1920 = i) :
    blocks.countP (fun b => b.offset = m ∨ b.offset = n) ≤ 1 := by
  have hstride : ∀ b : Red.Block,
      decide (b.offset = m ∨ b.offset = n) = true → b.offset.toNat / 1920 = i := by
    intro b hb
    rcases of_decide_eq_true hb with hoffset | hoffset
    · rw [hoffset, hm]
    · rw [hoffset, hn]
  refine countP_le_one_of_pairwise h fun x y hx hy => ?_
  rw [hstride x hx, hstride y hy]
  exact lt_irrefl i

/-- The block that an entry becomes in a packet. -/
def entryBlock (timestamp : UInt32) (payloadType : UInt8) (entry : Entry) : Red.Block :=
  Reception.Receiver.heard
    (Red.redundantBlock timestamp payloadType (timestamp - entry.timestamp, entry.payload))

theorem toNat_offset_entryBlock (timestamp : UInt32) (payloadType : UInt8) (entry : Entry)
    (h : age timestamp entry < 65536) :
    (entryBlock timestamp payloadType entry).offset.toNat = age timestamp entry := by
  change (timestamp - entry.timestamp).toUInt16.toNat = _
  rw [UInt32.toNat_toUInt16]
  exact Nat.mod_eq_of_lt h

/-- Taking the age off the time of the packet gives the time of the entry. -/
theorem timestamp_entryBlock (timestamp : UInt32) (payloadType : UInt8) (entry : Entry) :
    (entryBlock timestamp payloadType entry).timestamp = entry.timestamp := by
  change timestamp - (timestamp - entry.timestamp) = entry.timestamp
  grind

/-- What is selected is at most five packets old, so that its offset is its age. -/
theorem offset_selected (e : Encoder) (hs : e.Sound) (timestamp : UInt32) (size : Nat)
    (payloadType : UInt8) (entry : Entry) (hin : entry ∈ e.select timestamp size) :
    (entryBlock timestamp payloadType entry).offset.toNat = age timestamp entry := by
  have hage := (mem_select e hs timestamp size entry hin).2
  exact toNat_offset_entryBlock _ _ _ (by omega)

/-- The offset in a header is no narrower than the age of what is selected. -/
theorem toUInt32_offset_selected (e : Encoder) (hs : e.Sound) (timestamp : UInt32) (size : Nat)
    (payloadType : UInt8) (entry : Entry) (hin : entry ∈ e.select timestamp size) :
    (entryBlock timestamp payloadType entry).offset.toUInt32 = timestamp - entry.timestamp := by
  have hoffset := offset_selected e hs timestamp size payloadType entry hin
  rw [← UInt32.toNat_inj, UInt16.toNat_toUInt32, hoffset]
  rfl

/-- The blocks of what is selected come a stride apart, as the entries do: offsets are ages,
    and strides of entries are told by their ages. -/
theorem pairwise_entryBlocks (e : Encoder) (hs : e.Sound) (timestamp : UInt32) (size : Nat)
    (payloadType : UInt8) :
    ((e.select timestamp size).map (entryBlock timestamp payloadType)).Pairwise
      fun a b => b.offset.toNat / 1920 < a.offset.toNat / 1920 := by
  rw [List.pairwise_map]
  refine List.Pairwise.imp_of_mem (fun hx hy hxy => ?_) (pairwise_select e hs timestamp size)
  rw [offset_selected e hs timestamp size payloadType _ hx,
    offset_selected e hs timestamp size payloadType _ hy]
  exact hxy

/-- A fresh encoder has an empty history, so whatever a run selects was sent in
    that run. -/
theorem sentBefore_select (inputs : List Input) (timestamp : UInt32) (size : Nat) :
    ∀ entry ∈ (({} : Encoder).run inputs).1.select timestamp size,
      SentBefore {} inputs entry := by
  intro entry hin
  have hmem := (mem_select _ (sound_run {} sound_default inputs) timestamp size entry hin).1
  rcases mem_history_run inputs entry {} sound_default hmem with hfresh | hsent
  · exact absurd hfresh List.not_mem_nil
  · exact hsent

/-- The blocks that stand for a selection are faithful. Each part is a fact about selected
    entries, carried over to blocks, whose times and offsets are those of the entries. -/
theorem faithful_select (inputs : List Input) (frame : Rtp.Frame) (primary : Bytes) :
    Faithful inputs frame primary
      (((({} : Encoder).run inputs).1.select frame.timestamp primary.length).map
        (entryBlock frame.timestamp (({} : Encoder).run inputs).1.opusType))
      (Reception.Receiver.heard
        (Red.primaryBlock frame.timestamp (({} : Encoder).run inputs).1.opusType primary)) := by
  have hs := sound_run {} sound_default inputs
  have hsent := sentBefore_select inputs frame.timestamp primary.length
  set e := (({} : Encoder).run inputs).1
  have hpair := pairwise_entryBlocks e hs frame.timestamp primary.length e.opusType
  have hlevel := hs.level_le
  have hlength := length_select_le e frame.timestamp primary.length
  exact
    { isLast_last := rfl
      payload_last := rfl
      timestamp_last := rfl
      isLast_redundant := List.forall_mem_map.mpr fun entry _ => rfl
      timestamp_redundant := by
        refine List.forall_mem_map.mpr fun entry hin => ?_
        rw [toUInt32_offset_selected e hs frame.timestamp primary.length _ entry hin]
        rfl
      sent := by
        refine List.forall_mem_map.mpr fun entry hin => ?_
        rw [timestamp_entryBlock]
        exact hsent entry hin
      offset := by
        refine List.forall_mem_map.mpr fun entry hin => ?_
        have hage := (mem_select e hs frame.timestamp primary.length entry hin).2
        rw [← or_assoc,
          ← offset_selected e hs frame.timestamp primary.length e.opusType entry hin] at hage
        simp only [← UInt16.toNat_inj]
        exact hage
      offset_decreasing := by
        refine hpair.imp fun hlt => ?_
        rw [UInt16.lt_iff_toNat_lt]
        exact lt_of_not_ge fun hle => absurd (Nat.div_le_div_right hle) (Nat.not_le.mpr hlt)
      near_le_one := countP_offset_le_one _ hpair 1920 2880 1 rfl rfl
      far_le_one := countP_offset_le_one _ hpair 3840 4800 2 rfl rfl
      length_le := by
        rw [List.length_map]
        -- While redundancy is off, the active level is none, whatever level is set.
        rw [activeLevel] at hlength
        split at hlength
        · exact le_min hlength (hlength.trans hlevel)
        · exact le_min (hlength.trans (Nat.zero_le _)) (hlength.trans (Nat.zero_le _))
      disabled := by
        intro hoff
        rw [select_eq, hoff]
        rfl }

/-- The packet of a primary encoding is taken apart into what was selected and
    the encoding itself. -/
theorem takeApart_packetOf (e : Encoder) (hs : e.Sound) (frame : Rtp.Frame) (primary : Bytes)
    (hfits : fits primary = true) (r : Reception.Receiver) (hopus : r.opusType = e.opusType)
    (hred : r.redType = e.redType) :
    r.takeApart { frame with
        payload := e.packetOf frame.timestamp primary
        payloadType := e.redType }
      = some (.ok ((e.select frame.timestamp primary.length).map
          (entryBlock frame.timestamp e.opusType)
        ++ [Reception.Receiver.heard (Red.primaryBlock frame.timestamp e.opusType primary)])) := by
  -- What was selected fits and can be announced, so the bytes come apart as they were put
  -- together.
  have happart := r.takeApart_packetBytes
    { frame with payload := e.packetOf frame.timestamp primary, payloadType := e.redType }
    e.opusType (e.carried frame.timestamp primary.length) primary hred.symm (by rw [hopus]) rfl
    (sendable_select e frame.timestamp primary hfits).ne_nil
    (announceable_select e hs frame.timestamp primary hfits)
  rw [carried, List.map_map] at happart
  exact happart

/-- Whatever an encoder has been through since it was new, a receiver of the same types
    reads from its packet the primary as it went in, and besides it only encodings that were
    sent before, each at the time it belongs to and as old as a stride allows. The receiver
    may have any other state: what a packet holds does not depend on what it has received. -/
theorem redundant_blocks_faithful (inputs : List Input) (frame out : Rtp.Frame) (count : Nat)
    (r : Reception.Receiver) (hopus : r.opusType = (({} : Encoder).run inputs).1.opusType)
    (hred : r.redType = (({} : Encoder).run inputs).1.redType)
    (hsend : ((({} : Encoder).run inputs).1.send frame).2 = .encoded out count) :
    ∃ primary redundant last report,
      (({} : Encoder).run inputs).1.primaryOf frame = some (.ok primary) ∧
      Rtp.Frame.ofBytes out.toBytes = .ok out ∧
      r.takeApart out = some (.ok (redundant ++ [last])) ∧
      (r.receive out).2 = some ⟨out, redundant ++ [last], report⟩ ∧
      Faithful inputs frame primary redundant last := by
  have hs := sound_run {} sound_default inputs
  have hfaith := faithful_select inputs frame
  set e := (({} : Encoder).run inputs).1
  rcases primary_of_encoded e hs frame out count hsend with ⟨primary, hprimary, hfits, rfl⟩
  have hsendable := sendable_select e frame.timestamp primary hfits
  -- Ages and sizes are within what a header can say.
  have hnear : ∀ block ∈ e.carried frame.timestamp primary.length, block.1 < Red.offsetBound := by
    rw [← encodable_select e hs]
    exact fun block hblock => Red.lt_of_mem_encodable _ _ block hblock
  -- The bytes are read by the decoder, and no choice of the encoder is repeated.
  have happart := r.takeApart_packetBytes
    { frame with payload := e.packetOf frame.timestamp primary, payloadType := e.redType }
    e.opusType (e.carried frame.timestamp primary.length) primary hred.symm (by rw [hopus]) rfl
    hsendable.ne_nil fun block hblock =>
      ⟨hnear block hblock, hsendable.block_length_lt block hblock⟩
  rw [carried, List.map_map] at happart
  have hsize : (e.packetOf frame.timestamp primary).length ≤ Red.payloadLimit := by
    rw [packetOf, Red.length_packetBytes]
    exact hsendable.size_le
  exact ⟨primary, _, _, _, hprimary, Rtp.Frame.ofBytes_toBytes _ hs.redType_lt, happart,
    r.receive_of_takeApart _ _ happart hsize, hfaith primary⟩

/-- A frame of voice, told from others by its number. -/
def voiced (n : Nat) : Rtp.Frame where
  sequence := .ofNat n
  timestamp := .ofNat (960 * n)
  ssrc := 7
  payloadType := 111
  payload := [0x08, 0x80, .ofNat n]

/-- Four frames of voice behind the messages that set an encoder up. -/
def voicedInputs : List Input :=
  [.control (.opusPayloadType 111), .control (.redPayloadType 63), .control (.redundancyLevel 2),
    .frame (voiced 0), .frame (voiced 1), .frame (voiced 2), .frame (voiced 3)]

/-- The fifth frame of voice is sent with two encodings, those of the third frame and the
    first, and they are faithful. -/
theorem faithful_behind_voicedInputs :
    ∃ out primary redundant last report,
      ((({} : Encoder).run voicedInputs).1.send (voiced 4)).2 = .encoded out 2 ∧
      ((Reception.Receiver.new 111 63 {}).receive out).2
        = some ⟨out, redundant ++ [last], report⟩ ∧
      Faithful voicedInputs (voiced 4) primary redundant last := by
  have hsend : ((({} : Encoder).run voicedInputs).1.send (voiced 4)).2 = .encoded _ 2 := rfl
  rcases redundant_blocks_faithful voicedInputs (voiced 4) _ 2 (Reception.Receiver.new 111 63 {})
    rfl rfl hsend with ⟨primary, redundant, last, report, _, _, _, hreceive, hfaithful⟩
  exact ⟨_, primary, redundant, last, report, hsend, hreceive, hfaithful⟩

end Encoder

end Redundancy

end RedundantAudio
