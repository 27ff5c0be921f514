import Mathlib.Data.Nat.PSub
import RedundantAudio.Proofs.Redundancy.Provenance

/-!
# Wrapped or Left Alone

A frame that comes to an encoder either leaves as a redundant packet or is none
of the encoder's business. Which of the two it is depends on the encoding in
it: there has to be one, it must not be empty, and it must leave room for its
own header. Nothing that happens later can change that decision. The encodings
that were selected to go along are not a reason to give up on a packet, since
each was weighed against the room that the ones before it had left.

Room is a natural number here, and taking too much from it would go unnoticed.
So the selection is told once more as `select?`, which pays for every encoding out
of a budget and has no result once it overdraws. That never happens, and
`select?_eq` says so for any encoding that can be a primary. For a larger one it
does happen, unless redundancy is off, so the size has to be checked before.

Where the encoding comes from makes no difference either. A redundant packet
that another encoder has built holds its primary unchanged, whatever stands
beside it, and wrapping it again is the same as wrapping that primary.

## Main definitions

* `Holds`: The encoding in a frame.
* `select?`: The selection, out of a budget that must not be overdrawn.
* `upstream`, `truncated`: Two packets to look at.
* `crowd`: More encodings than an encoder carries.

## Theorems

* `primaryPayload_eq_ok_iff`: The primary is the last block.
* `primaryPayload_packetBytes`: It is read back from the packet it was put in.
* `holds_iff`: The encoding in a frame is what the encoder takes out of it.
* `select?_eq`, `select?_eq_none`: When the budget suffices.
* `send_eq_pass`: A frame without an encoding that fits leaves no trace.
* `send_wraps_or_passes`: What becomes of a frame.
* `send_rewraps`: Wrapping a packet again is wrapping its primary.
-/

namespace RedundantAudio

namespace Red

/-- The primary of a packet is what its last block carries, and there is one whenever the
    packet can be taken apart. The reader has an error for a packet without blocks, which
    never comes up since there is always a last block. -/
theorem primaryPayload_eq_ok_iff (timestamp : UInt32) (data : Bytes) (expected : UInt8)
    (primary : Bytes) :
    primaryPayload timestamp data expected = .ok primary ↔
      ∃ redundant last, decode timestamp data expected = .ok (redundant ++ [last]) ∧
        last.payload = primary := by
  unfold primaryPayload
  cases hdecode : decode timestamp data expected with
  | error error =>
      simp only [bind, Except.bind, reduceCtorEq, false_and, exists_false]
  | ok blocks =>
      simp only [bind, Except.bind, Except.ok.injEq]
      rcases List.eq_nil_or_concat blocks with rfl | ⟨redundant, last, rfl⟩
      · simp only [List.getLast?_nil, throw, throwThe, MonadExceptOf.throw, reduceCtorEq,
          List.nil_eq, List.append_eq_nil_iff, List.cons_ne_self, and_false, false_and,
          exists_false]
      · rw [List.concat_eq_append, List.getLast?_concat]
        constructor
        · intro h
          exact ⟨redundant, last, rfl, Except.ok.inj h⟩
        · rintro ⟨redundant', last', heq, rfl⟩
          -- Both lists end in the same block.
          rw [List.singleton_inj.mp (List.append_inj' heq rfl).2]
          rfl

/-- Of a packet that was laid out from blocks that fit their headers, the primary is read
    back. -/
theorem primaryPayload_packetBytes (timestamp : UInt32) (payloadType : UInt8)
    (blocks : List (UInt32 × Bytes)) (primary : Bytes) (hprimary : primary ≠ [])
    (hfits : ∀ block ∈ blocks, block.1 < offsetBound ∧ block.2.length < blockBound) :
    primaryPayload timestamp (packetBytes payloadType blocks primary) payloadType
      = .ok primary := by
  rw [primaryPayload_eq_ok_iff]
  exact ⟨_, _, decode_packetBytes timestamp payloadType payloadType blocks primary rfl hprimary
    hfits, rfl⟩

/-- The primary of a packet does not depend on what was put beside it. -/
theorem primaryPayload_encode (timestamp : UInt32) (primary : Bytes)
    (redundant : List (UInt32 × Bytes)) (payloadType : UInt8) (packet : Bytes)
    (h : encode timestamp primary redundant payloadType = .ok packet) :
    primaryPayload timestamp packet payloadType = .ok primary := by
  rcases (encode_eq_ok_iff _ _ _ _ _).mp h with ⟨hsend, rfl⟩
  refine primaryPayload_packetBytes timestamp payloadType _ primary hsend.ne_nil ?_
  intro block hblock
  exact ⟨lt_of_mem_encodable timestamp redundant block hblock,
    hsend.block_length_lt block hblock⟩

end Red

namespace Redundancy

namespace Encoder

/-- The encoding in a frame: all of its payload if that is bare Opus, and the
    last block of it if that is a redundant packet. -/
inductive Holds (e : Encoder) (frame : Rtp.Frame) : Bytes → Prop
  | bare (htype : frame.payloadType = e.opusType) : Holds e frame frame.payload
  | packed (hopus : frame.payloadType ≠ e.opusType) (hred : frame.payloadType = e.redType)
      (redundant : List Red.Block) (last : Red.Block)
      (hdecode : Red.decode frame.timestamp frame.payload e.opusType
        = .ok (redundant ++ [last])) :
      Holds e frame last.payload

/-- The description of what a frame holds, and the function that looks for it, agree. The
    type of bare frames has precedence, so if an encoder is told to use one type for both,
    nothing is taken for a packet. -/
theorem holds_iff (e : Encoder) (frame : Rtp.Frame) (primary : Bytes) :
    e.Holds frame primary ↔ e.primaryOf frame = some (.ok primary) := by
  unfold primaryOf
  constructor
  · intro h
    cases h with
    | bare htype => rw [if_pos htype]
    | packed hopus hred redundant last hdecode =>
        rw [if_neg hopus, if_pos hred, Option.some.injEq, Red.primaryPayload_eq_ok_iff]
        exact ⟨redundant, last, hdecode, rfl⟩
  · intro h
    -- The type of bare Opus is asked for first, which matters if both types are the same.
    by_cases hopus : frame.payloadType = e.opusType
    · simp only [if_pos hopus, Option.some.injEq, Except.ok.injEq] at h
      rw [← h]
      exact Holds.bare hopus
    · rw [if_neg hopus] at h
      by_cases hred : frame.payloadType = e.redType
      · rw [if_pos hred, Option.some.injEq, Red.primaryPayload_eq_ok_iff] at h
        rcases h with ⟨redundant, last, hdecode, rfl⟩
        exact Holds.packed hopus hred redundant last hdecode
      · rw [if_neg hred] at h
        cases h

/-- A primary that can be one has between 1 and 999 bytes, as one byte goes to its header. -/
theorem fits_iff (primary : Bytes) :
    fits primary = true ↔ 1 ≤ primary.length ∧ primary.length ≤ 999 := by
  unfold fits
  rw [Bool.and_eq_true, Bool.not_eq_true', List.isEmpty_eq_false_iff, decide_eq_true_eq,
    ← List.length_pos_iff]
  change 0 < primary.length ∧ primary.length < 1000 ↔ _
  omega

/-! ### Room is never overdrawn -/

/-- The walk of `selectFrom`, paying for each entry out of the room. -/
def selectFrom? (h : History) (timestamp : UInt32) :
    (count : Nat) → (candidate : UInt32) → (room : Nat) → Option (List Entry)
  | 0, _, _ => some []
  | count + 1, candidate, room =>
    if timestamp - candidate ≥ Red.offsetBound then some []
    else
      match candidateEntry h candidate with
      | none => selectFrom? h timestamp count (candidate - stride) room
      | some entry =>
        let needed := Red.headerBytes + entry.payload.length
        if room < needed then some []
        else do
          let left ← room.psub needed
          let entries ← selectFrom? h timestamp count (candidate - stride) left
          return entry :: entries

/-- The older encodings that a packet carries, paid for out of the limit on
    payloads. First in line are the primary and its header. -/
def select? (e : Encoder) (timestamp : UInt32) (primarySize : Nat) : Option (List Entry) :=
  if e.enabled then do
    let left ← Red.payloadLimit.psub primarySize
    let room ← left.psub Red.primaryHeaderBytes
    let entries ← selectFrom? e.history timestamp e.level.toNat (timestamp - stride) room
    return entries.reverse
  else some []

/-- The walk never takes more out of the room than there is, wherever it starts. An entry is
    paid for only after it was seen to fit, which is what the checked subtraction asks for. -/
theorem selectFrom?_eq (h : History) (timestamp : UInt32) :
    ∀ (count : Nat) (candidate : UInt32) (room : Nat),
      selectFrom? h timestamp count candidate room
        = some (selectFrom h timestamp count candidate room) := by
  intro count
  induction count with
  | zero =>
      intro candidate room
      rfl
  | succ count ih =>
      intro candidate room
      unfold selectFrom? selectFrom
      by_cases hold : timestamp - candidate ≥ Red.offsetBound
      · rw [if_pos hold, if_pos hold]
      · rw [if_neg hold, if_neg hold]
        cases candidateEntry h candidate with
        | none => exact ih _ _
        | some entry =>
            -- An entry that is paid for is one that fits.
            by_cases hroom : room < Red.headerBytes + entry.payload.length
            · simp only [if_pos hroom]
            · simp only [if_neg hroom, Nat.psub_eq_sub (Nat.not_lt.mp hroom), ih]
              rfl

/-- The budget holds from the limit on payloads to the last entry, if the primary is not too
    large. -/
theorem select?_eq (e : Encoder) (timestamp : UInt32) (primarySize : Nat)
    (h : primarySize ≤ 999) :
    e.select? timestamp primarySize = some (e.select timestamp primarySize) := by
  unfold select? select
  by_cases hon : e.enabled = true
  · -- The limit leaves room for the primary and for one byte more, its header.
    have hprimary : primarySize ≤ Red.payloadLimit := by
      change primarySize ≤ 1000
      omega
    have hheader : Red.primaryHeaderBytes ≤ Red.payloadLimit - primarySize := by
      change 1 ≤ 1000 - primarySize
      omega
    rw [if_pos hon, if_pos hon, Nat.psub_eq_sub hprimary]
    simp only [Option.bind_eq_bind, Option.bind_some, Nat.psub_eq_sub hheader, selectFrom?_eq]
    rfl
  · rw [if_neg hon, if_neg hon]

/-- Without the check on its size, a primary could overdraw the room before anything is
    selected. This is the one subtraction that the selection does not guard itself, and it
    is why an encoder asks for the size of a primary first. -/
theorem select?_eq_none (e : Encoder) (timestamp : UInt32) (primarySize : Nat) :
    e.select? timestamp primarySize = none ↔ e.enabled = true ∧ 1000 ≤ primarySize := by
  by_cases hsize : primarySize ≤ 999
  · rw [select?_eq e timestamp primarySize hsize]
    exact iff_of_false (Option.some_ne_none _) (by omega)
  · unfold select?
    by_cases hon : e.enabled = true
    · rw [if_pos hon, and_iff_right hon]
      refine iff_of_true ?_ (by omega)
      cases hleft : Red.payloadLimit.psub primarySize with
      | none => rfl
      | some left =>
          -- Exactly the header is too much.
          have hsum : left + primarySize = 1000 := Nat.psub_eq_some.mp hleft
          have hheader : left.psub Red.primaryHeaderBytes = none := by
            rw [Nat.psub_eq_none]
            change left < 1
            omega
          simp only [Option.bind_eq_bind, Option.bind_some, hheader, Option.bind_none]
    · rw [if_neg hon]
      exact iff_of_false (Option.some_ne_none _) fun h => hon h.1

/-! ### What becomes of a frame -/

/-- A packet is never larger than a payload may be. -/
theorem length_packetOf_le (e : Encoder) (timestamp : UInt32) (primary : Bytes)
    (hfits : fits primary = true) : (e.packetOf timestamp primary).length ≤ 1000 := by
  rw [packetOf, Red.length_packetBytes]
  exact (sendable_select e timestamp primary hfits).size_le

theorem primaryPayload_packetOf (e : Encoder) (hs : e.Sound) (timestamp : UInt32)
    (primary : Bytes) (hfits : fits primary = true) :
    Red.primaryPayload timestamp (e.packetOf timestamp primary) e.opusType = .ok primary :=
  Red.primaryPayload_packetBytes timestamp e.opusType _ primary
    (sendable_select e timestamp primary hfits).ne_nil
    (announceable_select e hs timestamp primary hfits)

theorem send_eq_pass (e : Encoder) (frame : Rtp.Frame)
    (h : ∀ primary, e.primaryOf frame = some (.ok primary) → ¬ fits primary = true) :
    e.send frame = (e, pass frame) := by
  rcases send_cases e frame with ⟨primary, hprimary, hfits⟩ | hpass
  · exact absurd hfits (h primary hprimary)
  · exact hpass

theorem pass_eq (frame : Rtp.Frame) :
    pass frame = if frame.payload.length ≤ 1000 then .passed frame else .dropped := by
  unfold pass
  change (if frame.payload.length > 1000 then _ else _) = _
  by_cases h : frame.payload.length ≤ 1000
  · rw [if_neg (by omega), if_pos h]
  · rw [if_pos (by omega), if_neg h]

/-- Whatever an encoder has been sent and told before, a frame with an encoding
    of 1 to 999 bytes becomes a redundant packet of at most 1000: the budget for
    older encodings is not overdrawn, and building the packet does not fail. Any
    other frame goes on as it came, or nowhere if it is larger than that, and
    the encoder is the same as before. -/
theorem send_wraps_or_passes (inputs : List Input) (frame : Rtp.Frame) :
    let e := (({} : Encoder).run inputs).1
    (∀ primary, e.Holds frame primary → 1 ≤ primary.length → primary.length ≤ 999 →
      ∃ entries packet,
        e.select? frame.timestamp primary.length = some entries ∧
        Red.encode frame.timestamp primary
            (entries.map fun entry => (entry.timestamp, entry.payload)) e.opusType = .ok packet ∧
        packet.length ≤ 1000 ∧
        e.send frame = (e.recorded frame.timestamp primary,
          .encoded { frame with payload := packet, payloadType := e.redType } entries.length)) ∧
    ((∀ primary, e.Holds frame primary → ¬ (1 ≤ primary.length ∧ primary.length ≤ 999)) →
      (e.send frame).1 = e ∧
        (e.send frame).2 = if frame.payload.length ≤ 1000 then .passed frame else .dropped) := by
  have hs := sound_run {} sound_default inputs
  set e := (({} : Encoder).run inputs).1
  refine ⟨fun primary hholds hpos hle => ?_, fun hnone => ?_⟩
  · have hfits := (fits_iff primary).mpr ⟨hpos, hle⟩
    have hprimary := (holds_iff e frame primary).mp hholds
    exact ⟨_, _, select?_eq e frame.timestamp primary.length hle,
      encode_select e hs frame.timestamp primary hfits,
      length_packetOf_le e frame.timestamp primary hfits, send_eq e hs frame primary hprimary hfits⟩
  · -- No primary was found that fits, so nothing is recorded either.
    have hpass := send_eq_pass e frame fun primary hprimary hfits =>
      hnone primary ((holds_iff e frame primary).mpr hprimary) ((fits_iff primary).mp hfits)
    rw [hpass, ← pass_eq]
    exact ⟨rfl, rfl⟩

/-- A packet of another encoder, which carries a packet of 20 ms ago. -/
def upstream : Rtp.Frame where
  sequence := 4
  timestamp := 3840
  ssrc := 7
  payloadType := 63
  payload := [0xEF, 0x0F, 0x00, 0x02, 0x6F, 0x08, 0x00, 0x08, 0x80, 0x04]

/-- The same packet, cut off in the first header. -/
def truncated : Rtp.Frame :=
  { upstream with payload := [0xEF, 0x0F] }

/-- The packet of another encoder is wrapped once more, and goes on with the
    encodings of this one's history. The broken packet goes on as it is. -/
theorem send_upstream_and_truncated :
    let e := (({} : Encoder).run voicedInputs).1
    (e.Holds upstream [0x08, 0x80, 0x04] ∧ ∃ entries packet,
      e.select? 3840 3 = some entries ∧ packet.length ≤ 1000 ∧
      (e.send upstream).2 = .encoded { upstream with payload := packet } entries.length) ∧
    (∀ primary, ¬ e.Holds truncated primary) ∧ e.send truncated = (e, .passed truncated) := by
  intro e
  have hholds : e.Holds upstream [0x08, 0x80, 0x04] :=
    .packed (by decide +kernel) (by decide +kernel) [⟨false, 111, 960, 2880, [0x08, 0x00], false⟩]
      ⟨true, 111, 0, 3840, [0x08, 0x80, 0x04], false⟩ (by decide +kernel)
  have hnone : ∀ primary, ¬ e.Holds truncated primary := by
    intro primary h
    rw [holds_iff] at h
    have htruncated : e.primaryOf truncated = some (.error (.truncatedHeader 0)) := by
      decide +kernel
    rw [htruncated] at h
    cases h
  rcases (send_wraps_or_passes voicedInputs upstream).1 _ hholds (by decide) (by decide) with
    ⟨entries, packet, hselect, _, hsize, hsend⟩
  have hpass := (send_wraps_or_passes voicedInputs truncated).2 fun primary h =>
    absurd h (hnone primary)
  exact ⟨⟨hholds, entries, packet, hselect, hsize, congrArg Prod.snd hsend⟩, hnone,
    Prod.ext hpass.1 hpass.2⟩

/-! ### Packets that were wrapped before -/

theorem primaryOf_packed (e : Encoder) (htypes : e.opusType ≠ e.redType) (frame : Rtp.Frame)
    (htype : frame.payloadType = e.redType) :
    e.primaryOf frame = some (Red.primaryPayload frame.timestamp frame.payload e.opusType) := by
  unfold primaryOf
  rw [if_neg fun h => htypes (h.symm.trans htype), if_pos htype]

/-- An encoder that is given a redundant packet comes to what it would have come to with the
    primary alone, and so does its state. Packets do not nest, however many encodings the
    first one carries. The two types have to differ, or the packet is taken for bare Opus. -/
theorem send_rewraps (inputs : List Input) (sequence : UInt16) (timestamp ssrc : UInt32)
    (primary : Bytes) (redundant : List (UInt32 × Bytes)) (packet : Bytes) :
    let e := (({} : Encoder).run inputs).1
    e.opusType ≠ e.redType → Red.encode timestamp primary redundant e.opusType = .ok packet →
      e.send ⟨sequence, timestamp, ssrc, e.redType, packet⟩
          = e.send ⟨sequence, timestamp, ssrc, e.opusType, primary⟩ ∧
        ∃ out count, (e.send ⟨sequence, timestamp, ssrc, e.redType, packet⟩).2
            = .encoded out count ∧
          Red.primaryPayload timestamp out.payload e.opusType = .ok primary := by
  intro e htypes hpacket
  have hs : e.Sound := sound_run {} sound_default inputs
  have hsendable := ((Red.encode_eq_ok_iff _ _ _ _ _).mp hpacket).1
  -- A primary that went into a packet once goes into another one.
  have hfits : fits primary = true := by
    have hlt : primary.length < 1000 := hsendable.length_lt
    rw [fits_iff]
    exact ⟨List.length_pos_iff.mpr hsendable.ne_nil, by omega⟩
  have hpacked : e.primaryOf ⟨sequence, timestamp, ssrc, e.redType, packet⟩
      = some (.ok primary) := by
    rw [primaryOf_packed e htypes _ rfl,
      Red.primaryPayload_encode timestamp primary redundant _ packet hpacket]
  have hbare : e.primaryOf ⟨sequence, timestamp, ssrc, e.opusType, primary⟩
      = some (.ok primary) := if_pos rfl
  -- From here on only the primary is of account, and it is the same.
  rw [send_eq e hs _ primary hpacked hfits, send_eq e hs _ primary hbare hfits]
  exact ⟨rfl, _, _, rfl, primaryPayload_packetOf e hs timestamp primary hfits⟩

/-- Three encodings, more than an encoder carries itself, and one that is too
    old to be announced. -/
def crowd : List (UInt32 × Bytes) :=
  [(3840 - 16384, [0x08]), (960, [0x08, 0x80, 0x01]), (1920, []), (2880, [0x08, 0x00])]

/-- A packet that carries three encodings comes to what its primary alone comes to. One of
    its encodings is empty, and a fourth was too old to be put into it. -/
theorem send_rewraps_crowd :
    let e := (({} : Encoder).run voicedInputs).1
    e.opusType ≠ e.redType ∧ ∃ packet,
      Red.encode 3840 [0x08, 0x80, 0x04] crowd e.opusType = .ok packet ∧
      e.send ⟨4, 3840, 7, e.redType, packet⟩
        = e.send ⟨4, 3840, 7, e.opusType, [0x08, 0x80, 0x04]⟩ := by
  intro e
  have htypes : e.opusType ≠ e.redType := by decide +kernel
  have hpacket : Red.encode 3840 [0x08, 0x80, 0x04] crowd e.opusType = .ok _ := rfl
  exact ⟨htypes, _, hpacket,
    (send_rewraps voicedInputs 4 3840 7 [0x08, 0x80, 0x04] crowd _ htypes hpacket).1⟩

end Encoder

end Redundancy

end RedundantAudio
