import RedundantAudio.Proofs.Redundancy.Wrapping

/-!
# What the Counters of an Encoder Add Up To

An encoder counts while it works, and it counts early: the encodings that go
along with a primary are counted when they are handed over, before the packet
is built and before its size is checked. A receiver counts something else, the
blocks that it finds. The two agree because nothing that was handed over is
left out of the packet, and because no packet is refused once it is built.

`Grown` says how the counters of a process change over some calls, in terms of
what came out of these calls and nothing else. One call is a case analysis of
its outcome, and calls behind one another add up, so a run needs no further
argument.

## Main definitions

* `Call`: A frame, and the encoder that is given it.
* `calls`: The calls of a run.
* `counted`: The metrics behind a run.
* `redundantIn`: The redundant blocks that are found in a packet.
* `Grown`: How counters have grown over some calls.

## Theorems

* `outcomes_run`: A run gives back what its calls come to.
* `redundantIn_packetOf`: What was selected for a packet is found in it.
* `grown_step`: A call counts what came out of it.
* `grown_counted`: So does a run.
* `counters_add_up`: What the counters say of a whole run.
-/

namespace RedundantAudio

namespace Redundancy

namespace Encoder

/-- A frame, and the encoder that is given it. -/
structure Call where
  /-- The encoder. -/
  encoder : Encoder
  /-- The frame. -/
  frame : Rtp.Frame

/-- The redundant blocks that are found in a packet, if the type of bare frames
    is known. There are none in what cannot be taken apart. -/
def redundantIn (opusType : UInt8) (packet : Rtp.Frame) : List Red.Block :=
  match Red.decode packet.timestamp packet.payload opusType with
  | .ok blocks => blocks.filter fun b => !b.isLast
  | .error _ => []

namespace Call

variable (c : Call)

/-- What becomes of the frame. -/
def outcome : Outcome :=
  (c.encoder.send c.frame).2

/-- The redundant packet that the frame becomes, if it becomes one. -/
def packet : Option Rtp.Frame :=
  match c.outcome with
  | .encoded out _ => some out
  | .passed _ => none
  | .dropped => none

/-- The redundant blocks in that packet. -/
def blocks : List Red.Block :=
  match c.packet with
  | some out => redundantIn c.encoder.opusType out
  | none => []

end Call

/-- The redundant packets that come out of some calls, in order. -/
def packets (calls : List Call) : List Rtp.Frame :=
  calls.filterMap Call.packet

/-- The calls of a run. -/
def calls (e : Encoder) : List Input → List Call
  | [] => []
  | .frame frame :: inputs => ⟨e, frame⟩ :: (e.send frame).1.calls inputs
  | .control message :: inputs => (e.handle message).calls inputs

/-- The metrics behind a run. -/
def counted (e : Encoder) (m : Metrics) : List Input → Metrics
  | [] => m
  | input :: inputs => (e.step input).1.counted (e.count m input) inputs

/-- The frames among the inputs of an encoder. -/
def frames (inputs : List Input) : List Rtp.Frame :=
  inputs.filterMap fun
    | .frame frame => some frame
    | .control _ => none

/-- The calls of a run are for its frames, in order, and messages are no calls. -/
theorem frames_calls (inputs : List Input) :
    ∀ e : Encoder, (e.calls inputs).map Call.frame = frames inputs := by
  induction inputs with
  | nil =>
      intro e
      rfl
  | cons input inputs ih =>
      intro e
      cases input with
      | frame frame => exact congrArg (frame :: ·) (ih _)
      | control message => exact ih _

/-- What comes out of the calls is what comes out of the run. So the calls can stand for the
    run, each with the encoder that it was made of. -/
theorem outcomes_run (inputs : List Input) :
    ∀ e : Encoder, (e.run inputs).2 = (e.calls inputs).map Call.outcome := by
  induction inputs with
  | nil =>
      intro e
      rfl
  | cons input inputs ih =>
      intro e
      cases input with
      | frame frame => exact congrArg ((e.send frame).2 :: ·) (ih _)
      | control message => exact ih _

/-- What was selected for a packet is what is found in it. -/
theorem redundantIn_packetOf (e : Encoder) (hs : e.Sound) (frame : Rtp.Frame) (primary : Bytes)
    (hfits : fits primary = true) :
    ∃ blocks,
      Red.decode frame.timestamp (e.packetOf frame.timestamp primary) e.opusType = .ok blocks ∧
      (blocks.filter fun b => !b.isLast).length
        = (e.select frame.timestamp primary.length).length := by
  have hdecode := Red.decode_packetBytes frame.timestamp e.opusType e.opusType
    (e.carried frame.timestamp primary.length) primary rfl
    (sendable_select e frame.timestamp primary hfits).ne_nil
    (announceable_select e hs frame.timestamp primary hfits)
  refine ⟨_, hdecode, ?_⟩
  -- Only the primary block, at the end, is not redundant.
  have hall : ∀ b ∈ (e.carried frame.timestamp primary.length).map
      (Red.redundantBlock frame.timestamp e.opusType), (!b.isLast) = true :=
    List.forall_mem_map.mpr fun _ _ => rfl
  rw [List.filter_append, List.filter_eq_self.mpr hall, List.filter_cons_of_neg Bool.false_ne_true,
    List.filter_nil, List.append_nil, List.length_map, carried, List.length_map]

/-- How the counters have grown over some calls. -/
structure Grown (calls : List Call) (m m' : Metrics) : Prop where
  redFramesEncoded :
    m'.redFramesEncoded = m.redFramesEncoded + (packets calls).length
  passthroughFrames :
    m'.passthroughFrames + (packets calls).length = m.passthroughFrames + calls.length
  oversizeFramesDropped :
    m'.oversizeFramesDropped
      = m.oversizeFramesDropped + calls.countP fun c => c.outcome.frame = none
  redPayload_count :
    m'.redPayload.count = m.redPayload.count + (packets calls).length
  redPayload_sum :
    m'.redPayload.sum
      = m.redPayload.sum + ((packets calls).map fun out => out.payload.length).sum
  redundantBlocksSent :
    m'.redundantBlocksSent = m.redundantBlocksSent + (calls.flatMap Call.blocks).length

theorem Grown.refl (m : Metrics) : Grown [] m m where
  redFramesEncoded := rfl
  passthroughFrames := rfl
  oversizeFramesDropped := rfl
  redPayload_count := rfl
  redPayload_sum := rfl
  redundantBlocksSent := rfl

/-- Calls behind one another add up. This is what lets the counters of a run be told call by
    call. -/
theorem Grown.append {before after : List Call} {m m' m'' : Metrics} (h : Grown before m m')
    (h' : Grown after m' m'') : Grown (before ++ after) m m'' := by
  have hpackets : packets (before ++ after) = packets before ++ packets after :=
    List.filterMap_append
  refine ⟨?_, ?_, ?_, ?_, ?_, ?_⟩
  · rw [h'.redFramesEncoded, h.redFramesEncoded, hpackets, List.length_append, Nat.add_assoc]
  · have hfirst := h.passthroughFrames
    have hlast := h'.passthroughFrames
    rw [hpackets, List.length_append, List.length_append]
    omega
  · rw [h'.oversizeFramesDropped, h.oversizeFramesDropped, List.countP_append, Nat.add_assoc]
  · rw [h'.redPayload_count, h.redPayload_count, hpackets, List.length_append, Nat.add_assoc]
  · rw [h'.redPayload_sum, h.redPayload_sum, hpackets, List.map_append, List.sum_append,
      Nat.add_assoc]
  · rw [h'.redundantBlocksSent, h.redundantBlocksSent, List.flatMap_append, List.length_append,
      Nat.add_assoc]

/-- A message changes no counter. -/
theorem grown_control (e : Encoder) (m : Metrics) (message : Control) :
    Grown [] m (e.count m (.control message)) := by
  cases message with
  | opusPayloadType _ => exact .refl m
  | redPayloadType _ => exact .refl m
  | redundancyLevel _ => exact { Grown.refl m with }
  | enable => exact { Grown.refl m with }
  | disable => exact { Grown.refl m with }

/-- A call that makes no packet counts as passed through, and as one too large if its
    frame goes nowhere. The counters of packets stay as they were, and rightly so: there
    is no packet and hence no block of one. -/
theorem grown_of_no_packet (c : Call) (m : Metrics) (hnone : c.packet = none) :
    Grown [c] m (countOutcome m c.outcome) := by
  have hpackets : packets [c] = [] := List.filterMap_cons_none hnone
  have hblocks : [c].flatMap Call.blocks = [] := by
    rw [List.flatMap_singleton, Call.blocks, hnone]
  -- Both kinds of outcome count as passed through, and only one of them as too large.
  have hcounted : ∃ large, [c].countP (fun c => c.outcome.frame = none) = large ∧
      countOutcome m c.outcome = { m with
        passthroughFrames := m.passthroughFrames + 1
        oversizeFramesDropped := m.oversizeFramesDropped + large } := by
    rw [List.countP_singleton]
    cases houtcome : c.outcome with
    | encoded out count =>
        rw [Call.packet, houtcome] at hnone
        exact absurd hnone (Option.some_ne_none out)
    | passed frame => exact ⟨0, rfl, rfl⟩
    | dropped => exact ⟨1, rfl, rfl⟩
  rcases hcounted with ⟨large, hlarge, hcounted⟩
  rw [hcounted]
  exact {
    redFramesEncoded := by rw [hpackets]; rfl
    passthroughFrames := by rw [hpackets]; rfl
    oversizeFramesDropped := by rw [hlarge]
    redPayload_count := by rw [hpackets]; rfl
    redPayload_sum := by rw [hpackets]; rfl
    redundantBlocksSent := by rw [hblocks]; rfl }

/-- A call that makes a packet counts its size, and the encodings that were handed over.
    Whether these are the blocks of the packet is not for the counting to know, so it is
    asked for here. -/
theorem grown_of_packet (c : Call) (m : Metrics) (out : Rtp.Frame) (count : Nat)
    (houtcome : c.outcome = .encoded out count) (hcount : c.blocks.length = count) :
    Grown [c] m (countOutcome m c.outcome) := by
  -- The call brings one packet, with so many blocks, and drops no frame.
  have hpacket : c.packet = some out := by rw [Call.packet, houtcome]
  have hpackets : packets [c] = [out] := List.filterMap_cons_some hpacket
  have hblocks : ([c].flatMap Call.blocks).length = count := by
    rw [List.flatMap_singleton, hcount]
  have hdropped : [c].countP (fun c => c.outcome.frame = none) = 0 := by
    rw [List.countP_singleton, houtcome]
    rfl
  rw [houtcome]
  exact {
    redFramesEncoded := by rw [hpackets]; rfl
    passthroughFrames := by rw [hpackets]; rfl
    oversizeFramesDropped := by rw [hdropped]; rfl
    redPayload_count := by rw [hpackets]; rfl
    redPayload_sum := by rw [hpackets]; rfl
    redundantBlocksSent := by rw [hblocks]; rfl }

/-- A frame that is passed on becomes no packet, whether it fits or not. -/
theorem packet_of_pass (e : Encoder) (frame : Rtp.Frame) (hpass : e.send frame = (e, pass frame)) :
    Call.packet ⟨e, frame⟩ = none := by
  have houtcome : Call.outcome ⟨e, frame⟩ = pass frame := congrArg Prod.snd hpass
  rw [Call.packet, houtcome]
  cases hout : pass frame with
  | encoded out count => exact absurd hout (pass_ne_encoded frame out count)
  | passed _ => rfl
  | dropped => rfl

/-- The encodings that were handed over for a packet are the blocks that are found in
    it, so counting the ones is counting the others. -/
theorem grown_encoded (e : Encoder) (hs : e.Sound) (m : Metrics) (frame : Rtp.Frame)
    (primary : Bytes) (hprimary : e.primaryOf frame = some (.ok primary))
    (hfits : fits primary = true) : Grown [⟨e, frame⟩] m (e.count m (.frame frame)) := by
  have houtcome : Call.outcome ⟨e, frame⟩ = _ :=
    congrArg Prod.snd (send_eq e hs frame primary hprimary hfits)
  refine grown_of_packet ⟨e, frame⟩ m _ _ houtcome ?_
  rcases redundantIn_packetOf e hs frame primary hfits with ⟨blocks, hdecode, hlength⟩
  simp only [Call.blocks, Call.packet, houtcome, redundantIn, hdecode, hlength]

/-- What an input adds to the counters is right for the calls that it makes, of which there
    is one for a frame and none for a message. -/
theorem grown_step (e : Encoder) (hs : e.Sound) (m : Metrics) (input : Input) :
    Grown (e.calls [input]) m (e.count m input) := by
  cases input with
  | control message => exact grown_control e m message
  | frame frame =>
      rcases send_cases e frame with ⟨primary, hprimary, hfits⟩ | hpass
      · exact grown_encoded e hs m frame primary hprimary hfits
      · exact grown_of_no_packet ⟨e, frame⟩ m (packet_of_pass e frame hpass)

theorem calls_cons (e : Encoder) (input : Input) (inputs : List Input) :
    e.calls (input :: inputs) = e.calls [input] ++ (e.step input).1.calls inputs := by
  cases input <;> rfl

/-- The counters grow as they should over a whole run: each step does its part, and parts
    add up. The encoder has to be sound at the start only, since steps keep it so. -/
theorem grown_counted (inputs : List Input) :
    ∀ (e : Encoder) (m : Metrics), e.Sound → Grown (e.calls inputs) m (e.counted m inputs) := by
  induction inputs with
  | nil =>
      intro e m _
      exact .refl m
  | cons input inputs ih =>
      intro e m hs
      rw [calls_cons]
      exact (grown_step e hs m input).append (ih _ _ (sound_step e hs input))

/-- Every call of a run is made of a sound encoder, if the run starts with one. -/
theorem sound_of_mem_calls (c : Call) (inputs : List Input) :
    ∀ e : Encoder, e.Sound → c ∈ e.calls inputs → c.encoder.Sound := by
  induction inputs with
  | nil =>
      intro e _ hmem
      exact absurd hmem List.not_mem_nil
  | cons input inputs ih =>
      intro e hs hmem
      rw [calls_cons, List.mem_append] at hmem
      -- The call is the first of the run, or belongs to the rest of it.
      rcases hmem with hfirst | hrest
      · cases input with
        | frame frame =>
            rw [List.mem_singleton.mp hfirst]
            exact hs
        | control message => exact absurd hfirst List.not_mem_nil
      · exact ih _ (sound_step e hs input) hrest

/-- A packet is within the limit of the transport, and can be taken apart. Both are said of
    the packet itself, so that its blocks can be counted by what a receiver finds in it. -/
theorem sendable_packet (c : Call) (hs : c.encoder.Sound) (out : Rtp.Frame)
    (hpacket : c.packet = some out) :
    out.payload.length ≤ 1000 ∧
      ∃ blocks, Red.decode out.timestamp out.payload c.encoder.opusType = .ok blocks := by
  cases houtcome : c.outcome with
  | encoded frame count =>
      -- A packet is the packet of a primary that fits, and for these both parts are known.
      rcases primary_of_encoded c.encoder hs c.frame frame count houtcome with
        ⟨primary, _, hfits, rfl⟩
      simp only [Call.packet, houtcome, Option.some.injEq] at hpacket
      subst hpacket
      rcases redundantIn_packetOf c.encoder hs c.frame primary hfits with ⟨blocks, hdecode, _⟩
      exact ⟨length_packetOf_le c.encoder c.frame.timestamp primary hfits, blocks, hdecode⟩
  | passed frame => simp only [Call.packet, houtcome, reduceCtorEq] at hpacket
  | dropped => simp only [Call.packet, houtcome, reduceCtorEq] at hpacket

/-- Whatever an encoder has been sent and told since it was new, its counters
    say what came out: each call counts as a packet or as passed through, the
    sizes are those of the packets, and as many encodings were counted as there
    are redundant blocks in them. -/
theorem counters_add_up (inputs : List Input) :
    let calls := ({} : Encoder).calls inputs
    let m := ({} : Encoder).counted {} inputs
    calls.map Call.frame = frames inputs ∧
      calls.map Call.outcome = (({} : Encoder).run inputs).2 ∧
      m.redFramesEncoded + m.passthroughFrames = calls.length ∧
      m.oversizeFramesDropped = calls.countP (fun c => c.outcome.frame = none) ∧
      m.redFramesEncoded = (packets calls).length ∧
      m.redPayload.count = m.redFramesEncoded ∧
      m.redPayload.sum = ((packets calls).map fun out => out.payload.length).sum ∧
      (∀ c ∈ calls, ∀ out, c.packet = some out → out.payload.length ≤ 1000 ∧
        ∃ blocks, Red.decode out.timestamp out.payload c.encoder.opusType = .ok blocks) ∧
      m.redundantBlocksSent = (calls.flatMap Call.blocks).length := by
  intro calls m
  -- The counters of a new encoder start at zero, so growth is all there is.
  have hgrown : Grown calls {} m := grown_counted inputs {} {} sound_default
  have hencoded : m.redFramesEncoded = (packets calls).length :=
    hgrown.redFramesEncoded.trans (Nat.zero_add _)
  have hpassed : m.passthroughFrames + (packets calls).length = calls.length :=
    hgrown.passthroughFrames.trans (Nat.zero_add _)
  refine ⟨frames_calls inputs {}, (outcomes_run inputs {}).symm, ?_, ?_, hencoded, ?_, ?_, ?_, ?_⟩
  · rw [hencoded, Nat.add_comm]
    exact hpassed
  · exact hgrown.oversizeFramesDropped.trans (Nat.zero_add _)
  · rw [hencoded]
    exact hgrown.redPayload_count.trans (Nat.zero_add _)
  · exact hgrown.redPayload_sum.trans (Nat.zero_add _)
  · exact fun c hc out hout =>
      sendable_packet c (sound_of_mem_calls c inputs {} sound_default hc) out hout
  · exact hgrown.redundantBlocksSent.trans (Nat.zero_add _)

/-- Two of four frames of voice travel a second time. -/
example :
    let m := ({} : Encoder).counted {} voicedInputs
    (m.redFramesEncoded, m.redundantBlocksSent, m.redPayload.sum) = (4, 2, 30) := by
  decide +kernel

end Encoder

end Redundancy

end RedundantAudio
