import RedundantAudio.Proofs.Opus.Heads
import RedundantAudio.Proofs.Opus.Layout

/-!
# What the Flags Say About a Packet

The flags of a packet stand in the heads of its frames, and the frames are
where the reader of the packet says. So the flags can be told apart from all
other bits of a byte string, and what is read from a packet depends on them in
just one way each: voice on the VAD bits, correction data on the LBRR bits of
the first frame.

A head is asked for only where a frame has a first byte. The readers pass over
a head that is missing, which would go unnoticed, so they are told once more
as `voiceActivity?` and `hasFec?`, which have no result then. That never
happens, since the frames of a packet lie within it.

Frames lie behind the fields that the reader of packets looks at. Changing
flags therefore leaves the packet as it is (`parse_of_front`), and from there
on it is a matter of single bits.

## Main definitions

* `voiceActivity?`, `hasFec?`: The readers, without a result where a head is
  missing.
* `SilkPacket`, `WithoutSilk`: A byte string is a packet with a SILK layer, or
  has none that could be read.
* `Sets`: A frame has a bit set in its head.
* `HasBitAt`: A byte string has a flag at some place.
* `DiffersIn`: Two byte strings differ in flags of one kind alone.

## Theorems

* `in_range_frames`, `payloadOffset_le_of_mem_frames`: Where frames lie.
* `parse_of_front`: A packet is known by what stands in front of its frames.
* `voiceActivity?_eq`, `hasFec?_eq`: No head is missing.
* `SilkPacket.voiceActivity_eq_active_iff`, `SilkPacket.hasFec_iff`: What the
  flags of a packet say.
* `DiffersIn.silkPacket`, `DiffersIn.sets_iff`: Changing flags of one kind keeps
  the frames of a packet, and its flags of the other kind.
* `voiceActivity_eq_active_iff`, `hasFec_eq_true_iff`: The same for any byte
  string.
* `flags_read_exactly`: All that is read from a byte string, and what it does
  not depend on.
-/

namespace RedundantAudio

namespace Opus

/-! ### Where frames lie -/

theorem in_range_frames {data : Bytes} {p : Packet} (h : Packet.parse data false = .ok p) :
    ∀ a ∈ p.frames, a.1 + a.2 ≤ data.length := by
  rcases (parse_undelimited_iff data p).mp h with ⟨f, rfl, rfl⟩
  intro a ha
  have hrange := in_range_offsetsFrom _ _ a ha
  rw [← f.length_packet, Packet.length]
  omega

/-- No frame begins before the first one does. -/
theorem le_of_mem_offsetsFrom :
    ∀ (sizes : List Nat) (start : Nat), ∀ offset ∈ offsetsFrom start sizes, start ≤ offset := by
  intro sizes
  induction sizes with
  | nil =>
      intro start
      exact List.forall_mem_nil _
  | cons size sizes ih =>
      intro start
      refine List.forall_mem_cons.mpr ⟨le_refl start, fun offset hmem => ?_⟩
      exact (Nat.le_add_right start size).trans (ih (start + size) offset hmem)

/-- Frames lie behind the fields, so that their heads are no part of what says where they
    lie. -/
theorem payloadOffset_le_of_mem_frames (p : Packet) :
    ∀ a ∈ p.frames, p.payloadOffset ≤ a.1 :=
  fun _ ha => le_of_mem_offsetsFrom _ _ _ (List.of_mem_zip ha).1

theorem frames_ne_nil {data : Bytes} {p : Packet} (h : Packet.parse data false = .ok p) :
    p.frames ≠ [] := by
  rcases (parse_undelimited_iff data p).mp h with ⟨f, rfl, rfl⟩
  obtain ⟨a, frames, hframes⟩ := List.exists_cons_of_ne_nil f.framed.frames_ne_nil
  simp only [Packet.frames, Packet.frameOffsets, Framing.packet, hframes, List.map_cons,
    offsetsFrom, List.zip_cons_cons, ne_eq, reduceCtorEq, not_false_eq_true]

theorem exists_cons_of_parse {data : Bytes} {p : Packet} (h : Packet.parse data false = .ok p) :
    ∃ rest, data = p.toc.byte :: rest ∧ 0 < p.payloadOffset := by
  rcases (parse_undelimited_iff data p).mp h with ⟨f, rfl, rfl⟩
  refine ⟨_, rfl, ?_⟩
  change 0 < 1 + f.fields.length
  omega

/-- Bytes of the same number behind the same fields are framed alike. The reader of fields
    is exact, so the fields that it found are a prefix of both, and the rest of either can
    be cut into frames of the same sizes. No frame is looked into. -/
theorem parse_of_front {data data' : Bytes} {p : Packet} (h : Packet.parse data false = .ok p)
    (hlength : data'.length = data.length)
    (hfront : data'.take p.payloadOffset = data.take p.payloadOffset) :
    Packet.parse data' false = .ok p := by
  cases data with
  | nil => cases h
  | cons b rest =>
      rcases (parse_cons_undelimited b rest p).mp h with ⟨d, sizes, hread, hsizes, rfl⟩
      rcases announced_of_read ⟨b⟩ rest d hread with
        ⟨fields, ending, rfl, hending, hgiven, hannounced⟩
      rcases (undelimitedSizes_eq_ok_iff d _ sizes hannounced.count_pos fun _ => hgiven).mp hsizes
        with ⟨last, hsmall, rfl, htotal⟩
      have hoffset : (b :: (fields ++ (d.body ++ ending))).length - d.padding - d.body.length
          = 1 + fields.length := by
        simp only [List.length_cons, List.length_append, hending]
        omega
      rw [hoffset] at hfront ⊢
      -- The front, up to the offset of the payload, is the first byte and the fields.
      have htake : (b :: (fields ++ (d.body ++ ending))).take (1 + fields.length)
          = b :: fields := by
        rw [Nat.add_comm, List.take_succ_cons, List.take_left]
      have hbehind := List.take_append_drop (1 + fields.length) data'
      rw [hfront, htake] at hbehind
      generalize data'.drop (1 + fields.length) = behind at hbehind
      subst hbehind
      -- What stands behind the fields is as long as before, and is cut at the same place.
      simp only [List.length_cons, List.length_append] at hlength
      rcases hannounced.exists_framing hsmall (behind.take d.body.length)
        (behind.drop d.body.length) (by rw [htotal, List.length_take]; omega)
        (by rw [List.length_drop]; omega) with ⟨f, htoc, rfl, hframes, hpadding, hfound, _⟩
      have hbytes : f.bytes = b :: f.fields ++ behind := by
        rw [Framing.bytes, htoc, hframes, hpadding, List.take_append_drop, List.cons_append]
      have hpacket : f.packet = ⟨⟨b⟩, d.sizes last, 1 + f.fields.length, d.padding⟩ := by
        rw [Framing.packet, htoc, hfound, hpadding, List.length_drop]
        congr 1
        omega
      rw [← hbytes, f.parse_bytes, hpacket]

/-! ### Reading where there is something to read -/

/-- Whether the head of some frame passes a test, one frame after the other,
    if no head is missing. -/
def anyHead? (test : UInt8 → Bool) (data : Bytes) : List (Nat × Nat) → Option Bool
  | [] => some false
  | (offset, size) :: frames =>
    if size = 0 then anyHead? test data frames
    else data[offset]?.bind fun head =>
      if test head then some true else anyHead? test data frames

/-- Reads the VAD bits of every frame, if no head is missing. -/
def voiceActivity? (data : Bytes) : Option VoiceActivity :=
  match data with
  | [] => some .inactive
  | b :: _ =>
    let toc : Toc := ⟨b⟩
    if toc.isCeltOnly || toc.silkFrames = 0 then some .unknown
    else
      match Packet.parse data false with
      | .error _ => some .unknown
      | .ok packet =>
        (anyHead? toc.hasVoiceBit data packet.frames).map fun voice =>
          if voice then .active else .inactive

/-- Reads the LBRR bits of the first frame, if its head is not missing. -/
def hasFec? (data : Bytes) : Option Bool :=
  match data with
  | [] => some false
  | b :: _ =>
    let toc : Toc := ⟨b⟩
    if toc.isCeltOnly then some false
    else
      match Packet.parse data false with
      | .error _ => some false
      | .ok packet =>
        match packet.frames with
        | [] => some false
        | (offset, size) :: _ =>
          if size ≤ 1 || toc.silkFrames = 0 then some false
          else data[offset]?.map toc.hasFecBit

/-- Where all frames are in range, the checked walk finds every head that it looks for, and
    comes to what the plain one does. The plain one collects the heads first and would leave
    out one that is missing without a word, so this says that it never does. -/
theorem anyHead?_eq (test : UInt8 → Bool) (data : Bytes) :
    ∀ frames : List (Nat × Nat), (∀ a ∈ frames, a.1 + a.2 ≤ data.length) →
      anyHead? test data frames
        = some ((frames.filterMap fun (offset, size) =>
            if size = 0 then none else data[offset]?).any test) := by
  intro frames
  induction frames with
  | nil =>
      intro _
      rfl
  | cons a frames ih =>
      obtain ⟨offset, size⟩ := a
      intro hrange
      have hrest := ih fun a ha => hrange a (List.mem_cons_of_mem _ ha)
      rw [anyHead?]
      by_cases hsize : size = 0
      · simp only [hsize, if_true, hrest, List.filterMap_cons]
      · have hfits : offset + size ≤ data.length := hrange (offset, size) List.mem_cons_self
        -- A frame that is not empty has a first byte.
        have hhead : data[offset]? = some data[offset] := List.getElem?_eq_getElem (by omega)
        simp only [hsize, if_false, hrest, hhead, Option.bind_some, List.filterMap_cons,
          List.any_cons]
        cases test data[offset] with
        | true => rfl
        | false => rfl

/-- No head is missing where the VAD bits are read. A frame without bytes has no head, and
    is left out before its head is asked for. -/
theorem voiceActivity?_eq (data : Bytes) : voiceActivity? data = some (voiceActivity data) := by
  cases data with
  | nil => rfl
  | cons b rest =>
      simp only [voiceActivity?, voiceActivity]
      split
      · rfl
      · cases hparse : Packet.parse (b :: rest) false with
        | error error => rfl
        | ok p =>
            have hheads : anyHead? (Toc.hasVoiceBit ⟨b⟩) (b :: rest) p.frames
                = some ((p.frameHeads (b :: rest)).any (Toc.hasVoiceBit ⟨b⟩)) :=
              anyHead?_eq _ _ _ (in_range_frames hparse)
            simp only [hheads, Option.map_some]

/-- No head is missing where the LBRR bits are read. Only the first frame is asked, and only
    if it has two bytes or more, so its head is there whenever the frame is in range. -/
theorem hasFec?_eq (data : Bytes) : hasFec? data = some (hasFec data) := by
  cases data with
  | nil => rfl
  | cons b rest =>
      simp only [hasFec?, hasFec]
      split
      · rfl
      · cases hparse : Packet.parse (b :: rest) false with
        | error error => rfl
        | ok p =>
            have hrange := in_range_frames hparse
            dsimp only
            cases hframes : p.frames with
            | nil => rfl
            | cons a frames =>
                obtain ⟨offset, size⟩ := a
                have hfits : offset + size ≤ (b :: rest).length :=
                  hrange (offset, size) (by rw [hframes]; exact List.mem_cons_self)
                dsimp only
                by_cases hsize : size ≤ 1
                · -- A first frame that is too short is given up before its head is read.
                  have hnot : ¬ size > 1 := Nat.not_lt.mpr hsize
                  simp only [hsize, hnot, decide_true, decide_false, Bool.true_or, Bool.false_and,
                    if_true]
                  split <;> rfl
                · -- The first frame is in range, and so is its head.
                  have hhead : (b :: rest)[offset]? = some (b :: rest)[offset] :=
                    List.getElem?_eq_getElem (by omega)
                  have hlong : size > 1 := Nat.lt_of_not_le hsize
                  simp only [hhead, hsize, hlong, decide_true, decide_false, Bool.true_and,
                    Bool.false_or, Option.map_some, decide_eq_true_eq]
                  by_cases hcount : Toc.silkFrames ⟨b⟩ = 0
                  · simp only [hcount, if_true, bne_self_eq_false, Bool.false_and]
                  · simp only [hcount, if_false, bne_iff_ne.mpr hcount, Bool.true_and]

/-! ### What the flags say -/

/-- The bytes are a packet with a SILK layer. -/
structure SilkPacket (data : Bytes) (p : Packet) : Prop where
  parse_eq : Packet.parse data false = .ok p
  silk : p.toc.isCeltOnly = false

/-- There is a first byte, but no SILK layer that could be read behind it. -/
def WithoutSilk (data : Bytes) : Prop :=
  ∃ b rest, data = b :: rest ∧
    (Toc.isCeltOnly ⟨b⟩ = true ∨ ∃ error, Packet.parse data false = .error error)

/-- A frame has a bit of a kind set in its head. -/
def Sets (kind : Nat → Prop) (data : Bytes) (a : Nat × Nat) : Prop :=
  ∃ head, data[a.1]? = some head ∧ ∃ i, kind i ∧ bitAt head i = true

/-- Bytes are none at all, or have no SILK layer to read, or are a packet with one. Only in
    the last case do the flags say anything, so every result about them is told in these
    three. -/
theorem silkPacket_cases (data : Bytes) :
    data = [] ∨ WithoutSilk data ∨ ∃ p, SilkPacket data p := by
  cases data with
  | nil => exact Or.inl rfl
  | cons b rest =>
      refine Or.inr ?_
      cases hcelt : Toc.isCeltOnly ⟨b⟩ with
      | true => exact Or.inl ⟨b, rest, rfl, Or.inl hcelt⟩
      | false =>
          cases hparse : Packet.parse (b :: rest) false with
          | error error => exact Or.inl ⟨b, rest, rfl, Or.inr ⟨error, hparse⟩⟩
          | ok p =>
              -- The packet begins with this byte, so it has a SILK layer.
              rcases exists_cons_of_parse hparse with ⟨rest', hdata, _⟩
              cases hdata
              exact Or.inr ⟨p, hparse, hcelt⟩

namespace WithoutSilk

variable {data : Bytes}

theorem voiceActivity_eq (h : WithoutSilk data) : voiceActivity data = .unknown := by
  rcases h with ⟨b, rest, rfl, hcelt | ⟨error, herror⟩⟩
  · simp only [voiceActivity, hcelt, Bool.true_or, if_true]
  · simp only [voiceActivity, herror, ite_self]

theorem hasFec_eq (h : WithoutSilk data) : hasFec data = false := by
  rcases h with ⟨b, rest, rfl, hcelt | ⟨error, herror⟩⟩
  · simp only [hasFec, hcelt, if_true]
  · simp only [hasFec, herror, ite_self]

end WithoutSilk

namespace SilkPacket

variable {data : Bytes} {p : Packet}

/-- Bytes are read as one packet at most. -/
theorem unique (h : SilkPacket data p) {q : Packet} (h' : SilkPacket data q) : q = p := by
  have hboth := h'.parse_eq.symm.trans h.parse_eq
  rwa [Except.ok.injEq] at hboth

/-- With a SILK layer there are SILK frames, so readers do not stop for want of them. -/
theorem silkFrames_ne_zero (h : SilkPacket data p) : p.toc.silkFrames ≠ 0 := by
  intro hzero
  have hn := p.toc.silkFrames_bounds h.silk
  rw [hzero] at hn
  exact absurd hn.1 (by decide)

/-- For a packet with a SILK layer, there is voice or there is none, by the VAD bits of all
    frames together. -/
theorem voiceActivity_eq (h : SilkPacket data p) :
    voiceActivity data
      = if (p.frameHeads data).any p.toc.hasVoiceBit then .active else .inactive := by
  rcases exists_cons_of_parse h.parse_eq with ⟨rest, rfl, _⟩
  simp only [voiceActivity, h.silk, h.parse_eq, h.silkFrames_ne_zero, decide_false, Bool.or_false,
    Bool.false_eq_true, if_false]

/-- There is voice exactly if some frame that is not empty has a VAD bit set in its head.
    The heads of empty frames are not their own: at that place stands the next frame, or
    padding. -/
theorem voiceActivity_eq_active_iff (h : SilkPacket data p) :
    voiceActivity data = .active ↔ ∃ a ∈ p.frames, 0 < a.2 ∧ Sets p.toc.IsVad data a := by
  -- The reader asks for a head with a bit that is set, and heads are those of frames that
  -- are not empty.
  have hany : voiceActivity data = .active ↔
      ∃ head ∈ p.frameHeads data, p.toc.hasVoiceBit head = true := by
    rw [h.voiceActivity_eq, ← List.any_eq_true]
    split
    · next hvoice => exact ⟨fun _ => hvoice, fun _ => rfl⟩
    · next hvoice => exact ⟨fun hfalse => (nomatch hfalse), fun hfalse => absurd hfalse hvoice⟩
  rw [hany]
  simp only [Packet.frameHeads, List.mem_filterMap, p.toc.hasVoiceBit_iff h.silk, Sets]
  constructor
  · rintro ⟨head, ⟨a, ha, hhead⟩, hset⟩
    by_cases hsize : a.2 = 0
    · rw [if_pos hsize] at hhead
      cases hhead
    · rw [if_neg hsize] at hhead
      exact ⟨a, ha, Nat.pos_of_ne_zero hsize, head, hhead, hset⟩
  · rintro ⟨a, ha, hsize, head, hhead, hset⟩
    exact ⟨head, ⟨a, ha, by rw [if_neg (Nat.ne_of_gt hsize)]; exact hhead⟩, hset⟩

/-- With a SILK layer, the answer is never that nothing is known. -/
theorem voiceActivity_ne_unknown (h : SilkPacket data p) : voiceActivity data ≠ .unknown := by
  rw [h.voiceActivity_eq]
  split <;> exact fun hfalse => nomatch hfalse

/-- There is no voice exactly if no frame that is not empty has a VAD bit set. -/
theorem voiceActivity_eq_inactive_iff (h : SilkPacket data p) :
    voiceActivity data = .inactive ↔ ∀ a ∈ p.frames, 0 < a.2 → ¬ Sets p.toc.IsVad data a := by
  have hiff : voiceActivity data = .inactive ↔ ¬ voiceActivity data = .active := by
    have hknown := h.voiceActivity_ne_unknown
    cases hvoice : voiceActivity data with
    | inactive => exact ⟨fun _ hfalse => (nomatch hfalse), fun _ => rfl⟩
    | active => exact ⟨fun hfalse => (nomatch hfalse), fun hfalse => absurd rfl hfalse⟩
    | unknown => exact absurd hvoice hknown
  rw [hiff, h.voiceActivity_eq_active_iff]
  push Not
  rfl

/-- There is correction data exactly if the first frame has two bytes or more and an LBRR
    bit set in its head. No other frame is looked at, as correction data is about the frame
    before the packet. -/
theorem hasFec_iff (h : SilkPacket data p) :
    hasFec data = true ↔
      ∃ a, p.frames.head? = some a ∧ 2 ≤ a.2 ∧ Sets p.toc.IsLbrr data a := by
  obtain ⟨⟨offset, size⟩, frames, hframes⟩ :=
    List.exists_cons_of_ne_nil (frames_ne_nil h.parse_eq)
  have hcount := bne_iff_ne.mpr h.silkFrames_ne_zero
  have hparse := h.parse_eq
  rcases exists_cons_of_parse hparse with ⟨rest, rfl, _⟩
  -- The reader looks at the first frame of the packet, whose place is known.
  have hread : hasFec (p.toc.byte :: rest) = true ↔
      ∃ head, (p.toc.byte :: rest)[offset]? = some head ∧ 2 ≤ size ∧
        p.toc.hasFecBit head = true := by
    simp only [hasFec, h.silk, hparse, hframes, Bool.false_eq_true, if_false]
    cases (p.toc.byte :: rest)[offset]? with
    | none => exact ⟨fun hfalse => (nomatch hfalse), fun ⟨_, hfalse, _⟩ => nomatch hfalse⟩
    | some head =>
        simp only [hcount, Bool.and_true, Bool.and_eq_true, decide_eq_true_eq, Option.some.injEq,
          exists_eq_left', gt_iff_lt, Nat.lt_iff_add_one_le]
  rw [hread, hframes]
  simp only [p.toc.hasFecBit_iff h.silk, List.head?_cons, Option.some.injEq, exists_eq_left', Sets]
  constructor
  · rintro ⟨head, hhead, hsize, hset⟩
    exact ⟨hsize, head, hhead, hset⟩
  · rintro ⟨hsize, head, hhead, hset⟩
    exact ⟨head, hhead, hsize, hset⟩

end SilkPacket

/-! ### Changing flags -/

/-- There is a flag of a kind at a place, in one bit of a byte. -/
def HasBitAt (kind : Toc → Nat → Prop) (data : Bytes) (place i : Nat) : Prop :=
  ∃ p, SilkPacket data p ∧ ∃ size, 0 < size ∧ (place, size) ∈ p.frames ∧ kind p.toc i

/-- Two byte strings are the same but for flags of one kind. -/
structure DiffersIn (kind : Toc → Nat → Prop) (data data' : Bytes) : Prop where
  length_eq : data'.length = data.length
  bit_eq : ∀ (place i : Nat) (head head' : UInt8), i < 8 → ¬ HasBitAt kind data place i →
    data[place]? = some head → data'[place]? = some head' → bitAt head' i = bitAt head i

namespace DiffersIn

variable {kind : Toc → Nat → Prop} {data data' : Bytes} {p : Packet}

/-- A place without flags is as it was. -/
theorem getElem?_eq (h : DiffersIn kind data data') (place : Nat)
    (hnone : ∀ i, ¬ HasBitAt kind data place i) : data'[place]? = data[place]? := by
  by_cases hplace : place < data.length
  · have hplace' : place < data'.length := h.length_eq ▸ hplace
    rw [List.getElem?_eq_getElem hplace, List.getElem?_eq_getElem hplace', Option.some.injEq]
    exact eq_of_bitAt fun i hi => h.bit_eq place i _ _ hi (hnone i)
      (List.getElem?_eq_getElem hplace) (List.getElem?_eq_getElem hplace')
  · have hplace' : data'.length ≤ place := by
      rw [h.length_eq]
      exact Nat.le_of_not_lt hplace
    rw [List.getElem?_eq_none hplace', List.getElem?_eq_none (Nat.le_of_not_lt hplace)]

theorem eq_of_no_packet (h : DiffersIn kind data data') (hnone : ¬ ∃ p, SilkPacket data p) :
    data' = data :=
  List.ext_getElem? fun place => h.getElem?_eq place fun _ ⟨p, hp, _⟩ => hnone ⟨p, hp⟩

/-- A packet keeps its frames. -/
theorem silkPacket (h : DiffersIn kind data data') (hp : SilkPacket data p) :
    SilkPacket data' p := by
  refine ⟨parse_of_front hp.parse_eq h.length_eq (List.ext_getElem? fun place => ?_), hp.silk⟩
  rw [List.getElem?_take, List.getElem?_take]
  split
  · next hplace =>
      refine h.getElem?_eq place ?_
      -- Frames lie behind the fields.
      rintro i ⟨q, hq, size, -, hframe, -⟩
      have hbehind := payloadOffset_le_of_mem_frames q _ hframe
      rw [hp.unique hq] at hbehind
      exact absurd hplace (Nat.not_lt.mpr hbehind)
  · rfl

/-- Flags of another kind are as they were. A frame is found at the same place in both
    packets, and the bits that may differ in its head are not among those that are asked
    for. -/
theorem sets_iff (h : DiffersIn kind data data') (hp : SilkPacket data p) (other : Nat → Prop)
    (hother : ∀ i, other i → i < 8 ∧ ¬ kind p.toc i) {a : Nat × Nat} (ha : a ∈ p.frames)
    (hsize : 0 < a.2) : Sets other data' a ↔ Sets other data a := by
  have hfits : a.1 + a.2 ≤ data.length := in_range_frames hp.parse_eq a ha
  have hbound : a.1 < data.length := by omega
  have hbound' : a.1 < data'.length := h.length_eq ▸ hbound
  have hplace : data[a.1]? = some data[a.1] := List.getElem?_eq_getElem hbound
  have hplace' : data'[a.1]? = some data'[a.1] := List.getElem?_eq_getElem hbound'
  -- A bit of another kind is none of those that may differ.
  have hbit : ∀ i, other i → bitAt data'[a.1] i = bitAt data[a.1] i := by
    intro i hi
    refine h.bit_eq a.1 i _ _ (hother i hi).1 ?_ hplace hplace'
    rintro ⟨q, hq, _, _, _, hkind⟩
    rw [hp.unique hq] at hkind
    exact (hother i hi).2 hkind
  simp only [Sets, hplace, hplace', Option.some.injEq, exists_eq_left']
  exact exists_congr fun i => and_congr_right fun hi => by rw [hbit i hi]

/-- LBRR bits have no say in voice activity. The two kinds of bits have different places,
    and both packets have the same frames, so what is read from the VAD bits is the same. -/
theorem voiceActivity_eq (h : DiffersIn Toc.IsLbrr data data') :
    voiceActivity data' = voiceActivity data := by
  by_cases hpacket : ∃ p, SilkPacket data p
  · rcases hpacket with ⟨p, hp⟩
    have hp' := h.silkPacket hp
    -- VAD bits are not among those that were changed.
    have hsets : ∀ a ∈ p.frames, 0 < a.2 →
        (Sets p.toc.IsVad data' a ↔ Sets p.toc.IsVad data a) := fun a ha hsize =>
      h.sets_iff hp p.toc.IsVad (fun i hi => ⟨hi.lt hp.silk, hi.not_isLbrr⟩) ha hsize
    cases hvoice : voiceActivity data with
    | active =>
        rcases hp.voiceActivity_eq_active_iff.mp hvoice with ⟨a, ha, hsize, hset⟩
        exact hp'.voiceActivity_eq_active_iff.mpr ⟨a, ha, hsize, (hsets a ha hsize).mpr hset⟩
    | inactive =>
        have hnone := hp.voiceActivity_eq_inactive_iff.mp hvoice
        exact hp'.voiceActivity_eq_inactive_iff.mpr fun a ha hsize hset =>
          hnone a ha hsize ((hsets a ha hsize).mp hset)
    | unknown => exact absurd hvoice hp.voiceActivity_ne_unknown
  · rw [h.eq_of_no_packet hpacket]

/-- Nor have they in whether a packet is worth repeating. -/
theorem isImportant_eq (h : DiffersIn Toc.IsLbrr data data') :
    isImportant data' = isImportant data := by
  by_cases hpacket : ∃ p, SilkPacket data p
  · rcases hpacket with ⟨p, hp⟩
    have hvoice := h.voiceActivity_eq
    -- Both begin with the first byte of the packet, which is in no frame.
    rcases exists_cons_of_parse hp.parse_eq with ⟨rest, rfl, _⟩
    rcases exists_cons_of_parse (h.silkPacket hp).parse_eq with ⟨rest', rfl, _⟩
    simp only [isImportant, hvoice]
  · rw [h.eq_of_no_packet hpacket]

/-- VAD bits have no say in correction data. -/
theorem hasFec_eq (h : DiffersIn Toc.IsVad data data') : hasFec data' = hasFec data := by
  by_cases hpacket : ∃ p, SilkPacket data p
  · rcases hpacket with ⟨p, hp⟩
    rw [Bool.eq_iff_iff, (h.silkPacket hp).hasFec_iff, hp.hasFec_iff]
    refine exists_congr fun a => and_congr_right fun hfirst => and_congr_right fun hsize => ?_
    exact h.sets_iff hp p.toc.IsLbrr (fun i hi => ⟨hi.lt hp.silk, fun hvad => hvad.not_isLbrr hi⟩)
      (List.mem_of_head? hfirst) (Nat.lt_of_lt_of_le Nat.zero_lt_two hsize)
  · rw [h.eq_of_no_packet hpacket]

/-- Bits of one kind may be changed in the head of a first frame that stands right behind
    the first byte. This is a way to give examples; the general statements know nothing of
    it. -/
theorem of_head {b head head' : UInt8} {rest : Bytes} {size : Nat}
    (hp : SilkPacket (b :: head :: rest) p) (hsize : 0 < size) (hframe : (1, size) ∈ p.frames)
    (hbits : ∀ i < 8, ¬ kind p.toc i → bitAt head' i = bitAt head i) :
    DiffersIn kind (b :: head :: rest) (b :: head' :: rest) := by
  refine ⟨rfl, fun place i x x' hi hnone hx hx' => ?_⟩
  -- Only the second byte differs, which is the head of the frame.
  match place with
  | 0 =>
      cases hx
      cases hx'
      rfl
  | 1 =>
      cases hx
      cases hx'
      exact hbits i hi fun hkind => hnone ⟨p, hp, size, hsize, hframe, hkind⟩
  | place + 2 =>
      have hsame := hx.symm.trans hx'
      rw [Option.some.injEq] at hsame
      rw [hsame]

end DiffersIn

/-! ### Any byte string -/

section Readings

variable (data : Bytes)

theorem voiceActivity_eq_unknown_iff : voiceActivity data = .unknown ↔ WithoutSilk data := by
  refine ⟨fun hvoice => ?_, WithoutSilk.voiceActivity_eq⟩
  rcases silkPacket_cases data with rfl | hwithout | ⟨p, hp⟩
  · cases hvoice
  · exact hwithout
  · exact absurd hvoice hp.voiceActivity_ne_unknown

/-- Bytes are found to have voice exactly if they are a packet with a VAD bit set. -/
theorem voiceActivity_eq_active_iff :
    voiceActivity data = .active ↔
      ∃ p, SilkPacket data p ∧ ∃ a ∈ p.frames, 0 < a.2 ∧ Sets p.toc.IsVad data a := by
  refine ⟨fun hvoice => ?_, fun ⟨p, hp, hset⟩ => hp.voiceActivity_eq_active_iff.mpr hset⟩
  rcases silkPacket_cases data with rfl | hwithout | ⟨p, hp⟩
  · cases hvoice
  · rw [hwithout.voiceActivity_eq] at hvoice
    cases hvoice
  · exact ⟨p, hp, hp.voiceActivity_eq_active_iff.mp hvoice⟩

/-- Bytes are found to have no voice if there are none, or if they are a packet with a SILK
    layer and no VAD bit set. -/
theorem voiceActivity_eq_inactive_iff :
    voiceActivity data = .inactive ↔ data = [] ∨
      ∃ p, SilkPacket data p ∧ ∀ a ∈ p.frames, 0 < a.2 → ¬ Sets p.toc.IsVad data a := by
  constructor
  · intro hvoice
    rcases silkPacket_cases data with rfl | hwithout | ⟨p, hp⟩
    · exact Or.inl rfl
    · rw [hwithout.voiceActivity_eq] at hvoice
      cases hvoice
    · exact Or.inr ⟨p, hp, hp.voiceActivity_eq_inactive_iff.mp hvoice⟩
  · rintro (rfl | ⟨p, hp, hnone⟩)
    · rfl
    · exact hp.voiceActivity_eq_inactive_iff.mpr hnone

/-- Bytes are found to have correction data exactly if they are a packet with an LBRR bit
    set in its first frame. -/
theorem hasFec_eq_true_iff :
    hasFec data = true ↔
      ∃ p, SilkPacket data p ∧
        ∃ a, p.frames.head? = some a ∧ 2 ≤ a.2 ∧ Sets p.toc.IsLbrr data a := by
  refine ⟨fun hfec => ?_, fun ⟨p, hp, hset⟩ => hp.hasFec_iff.mpr hset⟩
  rcases silkPacket_cases data with rfl | hwithout | ⟨p, hp⟩
  · cases hfec
  · rw [hwithout.hasFec_eq] at hfec
    cases hfec
  · exact ⟨p, hp, hp.hasFec_iff.mp hfec⟩

end Readings

/-- Flags are read from any byte string without a head missing, they say what the bits at
    their places say, and flags of one kind have no say in what is read from the other. The
    places are those of the SILK layer, whose frames are of 20 ms but for one, and there are
    few enough of them for all flags to stand in the first byte of a frame. -/
theorem flags_read_exactly (data : Bytes) :
    (voiceActivity? data = some (voiceActivity data) ∧ hasFec? data = some (hasFec data)) ∧
    (∀ p, SilkPacket data p →
      (((p.toc.samplesPerFrame 48000 = 480 ∨ p.toc.samplesPerFrame 48000 = 960) ∧
          p.toc.silkFrames = 1) ∨
        (p.toc.samplesPerFrame 48000 = 1920 ∧ p.toc.silkFrames = 2) ∨
        (p.toc.samplesPerFrame 48000 = 2880 ∧ p.toc.silkFrames = 3)) ∧
      ∀ i, p.toc.IsVad i ∨ p.toc.IsLbrr i → i < 8) ∧
    (voiceActivity data = .unknown ↔ WithoutSilk data) ∧
    (voiceActivity data = .active ↔
      ∃ p, SilkPacket data p ∧ ∃ a ∈ p.frames, 0 < a.2 ∧ Sets p.toc.IsVad data a) ∧
    (voiceActivity data = .inactive ↔ data = [] ∨
      ∃ p, SilkPacket data p ∧ ∀ a ∈ p.frames, 0 < a.2 → ¬ Sets p.toc.IsVad data a) ∧
    (hasFec data = true ↔
      ∃ p, SilkPacket data p ∧
        ∃ a, p.frames.head? = some a ∧ 2 ≤ a.2 ∧ Sets p.toc.IsLbrr data a) ∧
    ∀ data',
      (DiffersIn Toc.IsLbrr data data' →
        voiceActivity data' = voiceActivity data ∧ isImportant data' = isImportant data) ∧
      (DiffersIn Toc.IsVad data data' → hasFec data' = hasFec data) := by
  refine ⟨⟨voiceActivity?_eq data, hasFec?_eq data⟩, fun p hp => ?_,
    voiceActivity_eq_unknown_iff data, voiceActivity_eq_active_iff data,
    voiceActivity_eq_inactive_iff data, hasFec_eq_true_iff data, fun data' => ⟨fun h => ?_, ?_⟩⟩
  · refine ⟨p.toc.silkFrames_cases hp.silk, ?_⟩
    -- Both kinds of bits come first in the head of a frame, so the first byte has them all.
    rintro i (hvad | hlbrr)
    · exact hvad.lt hp.silk
    · exact hlbrr.lt hp.silk
  · exact ⟨h.voiceActivity_eq, h.isImportant_eq⟩
  · exact DiffersIn.hasFec_eq

/-- A stereo packet of one frame of 40 ms, with the mid channel's LBRR bit set. The side
    channel's takes its place without a word about voice, and VAD bits of the side channel
    are set without a word about correction data. -/
theorem stereo_flags_read :
    SilkPacket [0x14, 0x20, 0x00] ⟨⟨0x14⟩, [2], 1, 0⟩ ∧
      (DiffersIn Toc.IsLbrr [0x14, 0x20, 0x00] [0x14, 0x04, 0x00] ∧
        voiceActivity [0x14, 0x04, 0x00] = voiceActivity [0x14, 0x20, 0x00] ∧
        isImportant [0x14, 0x04, 0x00] = isImportant [0x14, 0x20, 0x00]) ∧
      DiffersIn Toc.IsVad [0x14, 0x20, 0x00] [0x14, 0x38, 0x00] ∧
      hasFec [0x14, 0x38, 0x00] = hasFec [0x14, 0x20, 0x00] ∧
      hasFec [0x14, 0x20, 0x00] = true ∧ voiceActivity [0x14, 0x38, 0x00] = .active := by
  have hp : SilkPacket [0x14, 0x20, 0x00] ⟨⟨0x14⟩, [2], 1, 0⟩ := ⟨by decide, by decide⟩
  have hlbrr : DiffersIn Toc.IsLbrr [0x14, 0x20, 0x00] [0x14, 0x04, 0x00] :=
    .of_head hp Nat.zero_lt_two (by decide) (by decide)
  have hvad : DiffersIn Toc.IsVad [0x14, 0x20, 0x00] [0x14, 0x38, 0x00] :=
    .of_head hp Nat.zero_lt_two (by decide) (by decide)
  have hread := (flags_read_exactly [0x14, 0x20, 0x00]).2.2.2.2.2.2
  exact ⟨hp, ⟨hlbrr, (hread _).1 hlbrr⟩, hvad, (hread _).2 hvad, by decide, by decide⟩

end Opus

end RedundantAudio
