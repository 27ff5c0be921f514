import RedundantAudio.Proofs.Red.Headers

/-!
# Redundant Packets Read Back

Taking a packet apart gives back what was put into it. All headers come before
all bodies, so a body is found only by adding up lengths; and an encoding too old
for the age field is left out on the way in.

The bytes of a packet are named first: `blockBytes` says what they are for a
list of blocks, and `packetBytes` for a list of encodings with their ages.
`encode_eq_ok_iff` then says that building a packet succeeds exactly on what is
`Sendable` and yields those bytes, and `decode_blockBytes` that taking them
apart yields the blocks again. Neither side has to be unfolded after that.

## Main definitions

* `blockHeader`: What the header of a redundant encoding says.
* `packetBytes`: The bytes of a packet.
* `redundantBlock`, `primaryBlock`: The blocks that encodings become.
* `Sendable`: What makes a packet.
* `kept`: The encodings that are young enough.
* `Block.Carriable`: What makes a redundant block.
* `blockBytes`: The bytes that blocks stand in.

## Theorems

* `encode_eq_ok_iff`: When building succeeds, and what it yields.
* `encodable_eq_kept`: The encodings that a packet keeps, with their ages.
* `cutBlocks_payloads`: The bodies are cut where they were joined.
* `decode_headers`: Behind the headers, lengths decide.
* `decode_blockBytes`: Blocks are taken out of the bytes they stand in.
* `decode_packetBytes`: A packet is taken apart into what it was built from.
* `length_packetBytes`: The size of a packet.
* `decode_encode`: Building and taking apart, on any encodings.
-/

namespace RedundantAudio

namespace Red

/-- What the header of a redundant block says, given the age and the encoding. -/
def blockHeader (payloadType : UInt8) (block : UInt32 × Bytes) : Header :=
  ⟨wireType payloadType, block.1.toUInt16, .ofNat block.2.length⟩

/-- The bytes of a packet with these redundant encodings, each with its age,
    and this primary one. -/
def packetBytes (payloadType : UInt8) (blocks : List (UInt32 × Bytes)) (primary : Bytes) : Bytes :=
  (blocks.map (blockHeader payloadType)).flatMap Header.toBytes ++ [wireType payloadType]
    ++ blocks.flatMap Prod.snd ++ primary

/-- The block that a redundant encoding of some age becomes. -/
def redundantBlock (timestamp : UInt32) (payloadType : UInt8) (block : UInt32 × Bytes) :
    Block where
  isLast := false
  payloadType := wireType payloadType
  offset := block.1.toUInt16
  timestamp := timestamp - block.1
  payload := block.2
  hasFec := false

/-- The block that a primary encoding becomes. -/
def primaryBlock (timestamp : UInt32) (payloadType : UInt8) (primary : Bytes) : Block where
  isLast := true
  payloadType := wireType payloadType
  offset := 0
  timestamp := timestamp
  payload := primary
  hasFec := false

/-- What makes a packet: a primary encoding that is there and not too large,
    redundant encodings that each fit a length field, and all of them together
    within what the transport takes. -/
structure Sendable (primary : Bytes) (blocks : List (UInt32 × Bytes)) : Prop where
  ne_nil : primary ≠ []
  length_lt : primary.length < payloadLimit
  block_length_lt : ∀ block ∈ blocks, block.2.length < blockBound
  size_le : packetSize primary blocks ≤ payloadLimit

/-- A packet is built exactly from what is sendable, and it is the bytes of these blocks.
    What is too old for a header counts neither in the checks nor in the packet. The checks
    come in a fixed order, and each that fails denies one part of being sendable. -/
theorem encode_eq_ok_iff (timestamp : UInt32) (primary : Bytes)
    (redundant : List (UInt32 × Bytes)) (payloadType : UInt8) (packet : Bytes) :
    encode timestamp primary redundant payloadType = .ok packet ↔
      Sendable primary (encodable timestamp redundant) ∧
        packet = packetBytes payloadType (encodable timestamp redundant) primary := by
  have hfind : ∀ blocks : List (UInt32 × Bytes),
      (blocks.find? fun block => block.2.length ≥ blockBound) = none ↔
        ∀ block ∈ blocks, block.2.length < blockBound := by
    intro blocks
    simp only [List.find?_eq_none, decide_eq_true_eq, Nat.not_le]
  unfold encode
  simp only [bind, Except.bind, pure, Except.pure, throw, throwThe, MonadExceptOf.throw]
  -- Each check that fails denies one part of being sendable.
  by_cases hempty : primary.isEmpty = true
  · rw [if_pos hempty]
    refine iff_of_false (by simp only [reduceCtorEq, not_false_eq_true]) fun h => h.1.ne_nil ?_
    exact List.isEmpty_iff.mp hempty
  rw [if_neg hempty]
  by_cases hlarge : (decide (primary.length ≥ blockBound) || decide (primary.length ≥ payloadLimit))
      = true
  · rw [if_pos hlarge]
    refine iff_of_false (by simp only [reduceCtorEq, not_false_eq_true]) fun h => ?_
    have hlt : primary.length < 1000 := h.1.length_lt
    rcases (Bool.or_eq_true _ _).mp hlarge with hge | hge
    · have hge : primary.length ≥ 1024 := of_decide_eq_true hge
      omega
    · have hge : primary.length ≥ 1000 := of_decide_eq_true hge
      omega
  rw [if_neg hlarge]
  cases hblocks : (encodable timestamp redundant).find? fun block =>
      decide (block.2.length ≥ blockBound) with
  | some block =>
      refine iff_of_false (by simp only [reduceCtorEq, not_false_eq_true]) fun h => ?_
      rw [(hfind _).mpr h.1.block_length_lt] at hblocks
      simp only [reduceCtorEq] at hblocks
  | none =>
      by_cases hsize : packetSize primary (encodable timestamp redundant) > payloadLimit
      · simp only [if_pos hsize]
        refine iff_of_false (by simp only [reduceCtorEq, not_false_eq_true]) fun h => ?_
        exact absurd h.1.size_le (Nat.not_le.mpr hsize)
      · simp only [if_neg hsize, Except.ok.injEq]
        have hsend : Sendable primary (encodable timestamp redundant) := by
          refine ⟨fun h => hempty (List.isEmpty_iff.mpr h), ?_, (hfind _).mp hblocks,
            Nat.not_lt.mp hsize⟩
          simp only [Bool.or_eq_true, decide_eq_true_eq, not_or] at hlarge
          exact Nat.not_le.mp hlarge.2
        rw [packetBytes, List.flatMap_map]
        exact ⟨fun h => ⟨hsend, h.symm⟩, fun h => h.2.symm⟩

/-- The redundant encodings that are young enough for the offset field, each
    with its media time. -/
def kept (timestamp : UInt32) (redundant : List (UInt32 × Bytes)) : List (UInt32 × Bytes) :=
  redundant.filter fun r => (timestamp - r.1).toNat < 16384

/-- Building leaves out what is too old, and tells the others by their age. The two are done
    in one pass there, and apart here, so that what is left out can be said without ages. -/
theorem encodable_eq_kept (timestamp : UInt32) (redundant : List (UInt32 × Bytes)) :
    encodable timestamp redundant
      = (kept timestamp redundant).map fun r => (timestamp - r.1, r.2) := by
  rw [encodable, kept, ← List.filterMap_eq_map, List.filterMap_filter]
  congr 1
  funext r
  by_cases hage : timestamp - r.1 < offsetBound
  · exact (if_pos hage).trans
      (if_pos (decide_eq_true (UInt32.lt_iff_toNat_lt.mp hage))).symm
  · exact (if_neg hage).trans
      (if_neg fun h => hage (UInt32.lt_iff_toNat_lt.mpr (of_decide_eq_true h))).symm

theorem lt_of_mem_encodable (timestamp : UInt32) (redundant : List (UInt32 × Bytes))
    (block : UInt32 × Bytes) (h : block ∈ encodable timestamp redundant) :
    block.1 < offsetBound := by
  rw [encodable_eq_kept, List.mem_map] at h
  rcases h with ⟨r, hr, rfl⟩
  exact UInt32.lt_iff_toNat_lt.mpr (of_decide_eq_true (List.mem_filter.mp hr).2)

theorem encodable_eq_map (timestamp : UInt32) (redundant : List (UInt32 × Bytes))
    (h : ∀ r ∈ redundant, timestamp - r.1 < offsetBound) :
    encodable timestamp redundant = redundant.map fun r => (timestamp - r.1, r.2) := by
  have hall : kept timestamp redundant = redundant :=
    List.filter_eq_self.mpr fun r hr => decide_eq_true (UInt32.lt_iff_toNat_lt.mp (h r hr))
  rw [encodable_eq_kept, hall]

/-! ### Cutting blocks out -/

/-- A redundant block that a packet of some media time can carry: its type, its
    age and its length fit a header, and its own media time is what the age
    says. -/
structure Block.Carriable (timestamp : UInt32) (b : Block) : Prop where
  isLast_eq : b.isLast = false
  payloadType_lt : b.payloadType.toNat < 128
  offset_lt : b.offset.toNat < 16384
  length_lt : b.payload.length < 1024
  timestamp_eq : b.timestamp = timestamp - b.offset.toUInt32
  hasFec_eq : b.hasFec = false

/-- The header that announces a redundant block. -/
def Block.header (b : Block) : Header :=
  ⟨b.payloadType, b.offset, .ofNat b.payload.length⟩

theorem Block.Carriable.toNat_length {timestamp : UInt32} {b : Block} (h : b.Carriable timestamp) :
    b.header.length.toNat = b.payload.length := by
  have hlength := h.length_lt
  rw [Block.header, UInt16.toNat_ofNat']
  exact Nat.mod_eq_of_lt (by omega)

theorem Block.Carriable.fits_header {timestamp : UInt32} {b : Block} (h : b.Carriable timestamp) :
    b.header.Fits where
  payloadType_lt := h.payloadType_lt
  offset_lt := h.offset_lt
  length_lt := by
    rw [h.toNat_length]
    exact h.length_lt

theorem Block.Carriable.eq_mk {timestamp : UInt32} {b : Block} (h : b.Carriable timestamp) :
    b = ⟨false, b.payloadType, b.offset, timestamp - b.offset.toUInt32, b.payload, false⟩ := by
  cases b
  rw [Block.mk.injEq]
  exact ⟨h.isLast_eq, rfl, rfl, h.timestamp_eq, rfl, h.hasFec_eq⟩

/-- The bytes of a packet with these redundant blocks and this primary
    encoding. -/
def blockBytes (payloadType : UInt8) (redundant : List Block) (primary : Bytes) : Bytes :=
  (redundant.map Block.header).flatMap Header.toBytes ++ [wireType payloadType]
    ++ redundant.flatMap Block.payload ++ primary

/-- A packet is the bytes of the blocks that its encodings become. Their media times go into
    the blocks only, so any will do. -/
theorem packetBytes_eq (timestamp : UInt32) (payloadType : UInt8) (blocks : List (UInt32 × Bytes))
    (primary : Bytes) :
    packetBytes payloadType blocks primary
      = blockBytes payloadType (blocks.map (redundantBlock timestamp payloadType)) primary := by
  simp only [packetBytes, blockBytes, List.flatMap_map]
  rfl

theorem total_lengths (timestamp : UInt32) (redundant : List Block)
    (hcarriable : ∀ b ∈ redundant, b.Carriable timestamp) :
    Wire.total ((redundant.map Block.header).map fun h => h.length.toNat)
      = (redundant.flatMap Block.payload).length := by
  rw [List.flatMap_def, ← Wire.total_map_length, List.map_map, List.map_map]
  exact congrArg Wire.total (List.map_congr_left fun b hb => (hcarriable b hb).toNat_length)

/-- Blocks are cut where they were joined. The lengths in the headers are those of the
    payloads, so each cut comes out at a joint, and what is left behind the last is the
    primary. -/
theorem cutBlocks_payloads (timestamp : UInt32) (payloadType : UInt8) (primary : Bytes) :
    ∀ redundant : List Block, (∀ b ∈ redundant, b.Carriable timestamp) →
      cutBlocks timestamp (wireType payloadType) (redundant.map Block.header)
          (redundant.flatMap Block.payload ++ primary)
        = redundant ++ [primaryBlock timestamp payloadType primary] := by
  intro redundant
  induction redundant with
  | nil =>
      intro _
      rfl
  | cons b redundant ih =>
      -- The header has the length of the payload that comes first.
      intro hcarriable
      have hb := hcarriable b List.mem_cons_self
      have hrest := ih fun b' hb' => hcarriable b' (List.mem_cons_of_mem b hb')
      have hlength : b.header.length.toNat = b.payload.length := hb.toNat_length
      rw [List.map_cons, List.flatMap_cons, List.append_assoc, cutBlocks, hlength, List.take_left,
        List.drop_left, hrest, List.cons_append]
      exact congrArg (· :: _) hb.eq_mk.symm

/-- What comes of a packet once all its headers are read depends on the lengths
    that they announce. -/
theorem decode_headers (timestamp : UInt32) (expected : UInt8) (headers : List Header)
    (body : Bytes) (hfits : ∀ h ∈ headers, h.Fits) :
    decode timestamp (headers.flatMap Header.toBytes ++ wireType expected :: body) expected
      = if body.length ≤ Wire.total (headers.map fun h => h.length.toNat) then
          .error .blockLengthOverrun
        else .ok (cutBlocks timestamp (wireType expected) headers body) := by
  unfold decode
  rw [readHeaders_toBytes expected expected body rfl headers 0 hfits]
  simp only [bind, Except.bind, pure, Except.pure]
  split <;> rfl

/-- The bytes of carriable blocks and a primary are taken apart into them. -/
theorem decode_blockBytes (timestamp : UInt32) (expected : UInt8) (redundant : List Block)
    (primary : Bytes) (hcarriable : ∀ b ∈ redundant, b.Carriable timestamp)
    (hprimary : primary ≠ []) :
    decode timestamp (blockBytes expected redundant primary) expected
      = .ok (redundant ++ [primaryBlock timestamp expected primary]) := by
  have hheaders : ∀ h ∈ redundant.map Block.header, h.Fits :=
    List.forall_mem_map.mpr fun b hb => (hcarriable b hb).fits_header
  -- There is a primary, so the lengths leave something over.
  have hroom : ¬ (redundant.flatMap Block.payload ++ primary).length
      ≤ Wire.total ((redundant.map Block.header).map fun h => h.length.toNat) := by
    have := List.length_pos_iff.mpr hprimary
    rw [total_lengths timestamp redundant hcarriable, List.length_append]
    omega
  rw [blockBytes, List.append_assoc, List.append_assoc, List.singleton_append,
    decode_headers timestamp expected _ _ hheaders, if_neg hroom,
    cutBlocks_payloads timestamp expected primary redundant hcarriable]

/-- An encoding that is young and short becomes a block that can be carried. Its age goes
    through a field of 14 bits, and its length through one of 10. -/
theorem carriable_redundantBlock (timestamp : UInt32) (payloadType : UInt8)
    (block : UInt32 × Bytes) (hage : block.1 < offsetBound)
    (hlength : block.2.length < blockBound) :
    (redundantBlock timestamp payloadType block).Carriable timestamp := by
  have hage : block.1.toNat < 16384 := UInt32.lt_iff_toNat_lt.mp hage
  -- The age fits the field that it goes through.
  have hoffset : block.1.toUInt16.toUInt32 = block.1 := by
    rw [← UInt32.toNat_inj, UInt16.toNat_toUInt32, UInt32.toNat_toUInt16]
    exact Nat.mod_eq_of_lt (by omega)
  refine ⟨rfl, wireType_lt payloadType, ?_, hlength, ?_, rfl⟩
  · change block.1.toUInt16.toNat < 16384
    rw [UInt32.toNat_toUInt16]
    omega
  · change timestamp - block.1 = timestamp - block.1.toUInt16.toUInt32
    rw [hoffset]

/-- A packet is taken apart into the blocks that its encodings become, if the type that is
    expected is the same on the wire. -/
theorem decode_packetBytes (timestamp : UInt32) (expected payloadType : UInt8)
    (blocks : List (UInt32 × Bytes)) (primary : Bytes)
    (hpt : wireType payloadType = wireType expected) (hprimary : primary ≠ [])
    (hfits : ∀ block ∈ blocks, block.1 < offsetBound ∧ block.2.length < blockBound) :
    decode timestamp (packetBytes payloadType blocks primary) expected
      = .ok (blocks.map (redundantBlock timestamp payloadType)
          ++ [primaryBlock timestamp payloadType primary]) := by
  have hcarriable : ∀ b ∈ blocks.map (redundantBlock timestamp payloadType),
      b.Carriable timestamp :=
    List.forall_mem_map.mpr fun block hblock =>
      carriable_redundantBlock timestamp payloadType block (hfits block hblock).1
        (hfits block hblock).2
  rw [packetBytes_eq timestamp, primaryBlock, blockBytes, hpt, ← blockBytes]
  exact decode_blockBytes timestamp expected _ primary hcarriable hprimary

/-- The size that is checked before a packet is built is the size that it has. So no packet
    is built that turns out to be too large. -/
theorem length_packetBytes (payloadType : UInt8) (blocks : List (UInt32 × Bytes))
    (primary : Bytes) :
    (packetBytes payloadType blocks primary).length = packetSize primary blocks := by
  induction blocks with
  | nil =>
      simp only [packetBytes, packetSize, List.map_nil, List.flatMap_nil, List.nil_append,
        List.append_nil, List.length_append, List.length_singleton, Wire.total,
        primaryHeaderBytes]
      omega
  | cons block blocks ih =>
      simp only [packetBytes, packetSize, List.map_cons, List.flatMap_cons, List.length_append,
        Wire.total, Header.toBytes, Wire.be16, List.length_cons,
        List.length_nil, headerBytes, primaryHeaderBytes] at ih ⊢
      omega

/-! ### The round trip -/

theorem packetSize_encodable (timestamp : UInt32) (primary : Bytes)
    (redundant : List (UInt32 × Bytes)) :
    packetSize primary (encodable timestamp redundant)
      = 1 + primary.length + ((kept timestamp redundant).map fun r => 4 + r.2.length).sum := by
  rw [packetSize, encodable_eq_kept, List.map_map, Wire.total_eq_sum]
  rfl

/-- What it takes to build a packet, said of the encodings that are kept. In these terms it
    can be checked before their ages are computed, and it is the condition that a caller
    sees. -/
theorem sendable_encodable_iff (timestamp : UInt32) (primary : Bytes)
    (redundant : List (UInt32 × Bytes)) :
    Sendable primary (encodable timestamp redundant) ↔
      (1 ≤ primary.length ∧ primary.length ≤ 999) ∧
        (∀ r ∈ kept timestamp redundant, r.2.length < 1024) ∧
        1 + primary.length + ((kept timestamp redundant).map fun r => 4 + r.2.length).sum
          ≤ 1000 := by
  -- Ages differ from media times, but the encodings are the same.
  have hlengths : (∀ block ∈ encodable timestamp redundant, block.2.length < blockBound) ↔
      ∀ r ∈ kept timestamp redundant, r.2.length < 1024 := by
    rw [encodable_eq_kept]
    exact List.forall_mem_map
  rw [← packetSize_encodable]
  constructor
  · intro h
    have hpos := List.length_pos_iff.mpr h.ne_nil
    have hlt : primary.length < 1000 := h.length_lt
    exact ⟨⟨hpos, by omega⟩, hlengths.mp h.block_length_lt, h.size_le⟩
  · rintro ⟨⟨hpos, hle⟩, hshort, hsize⟩
    exact ⟨List.length_pos_iff.mp hpos, Nat.lt_succ_of_le hle, hlengths.mpr hshort, hsize⟩

theorem toNat_toUInt16_kept (timestamp : UInt32) (redundant : List (UInt32 × Bytes)) :
    ∀ r ∈ kept timestamp redundant,
      (timestamp - r.1).toUInt16.toNat = (timestamp - r.1).toNat := by
  intro r hr
  have hage : (timestamp - r.1).toNat < 16384 := of_decide_eq_true (List.mem_filter.mp hr).2
  rw [UInt32.toNat_toUInt16]
  exact Nat.mod_eq_of_lt (by omega)

/-- A packet is built exactly when the primary encoding and those that are kept fit, it has
    the size they add up to, and it is taken apart into them again, each with its age and
    its media time. Encodings that are too old for a header are left out and not an error. -/
theorem decode_encode (timestamp : UInt32) (primary : Bytes) (redundant : List (UInt32 × Bytes))
    (payloadType : UInt8) :
    ((∃ packet, encode timestamp primary redundant payloadType = .ok packet) ↔
        (1 ≤ primary.length ∧ primary.length ≤ 999) ∧
          (∀ r ∈ kept timestamp redundant, r.2.length < 1024) ∧
          1 + primary.length + ((kept timestamp redundant).map fun r => 4 + r.2.length).sum
            ≤ 1000) ∧
      ∀ packet, encode timestamp primary redundant payloadType = .ok packet →
        packet.length
            = 1 + primary.length + ((kept timestamp redundant).map fun r => 4 + r.2.length).sum ∧
          decode timestamp packet payloadType
            = .ok ((kept timestamp redundant).map (fun r =>
                  ⟨false, payloadType &&& 0x7F, (timestamp - r.1).toUInt16, r.1, r.2, false⟩)
                ++ [⟨true, payloadType &&& 0x7F, 0, timestamp, primary, false⟩]) ∧
          ∀ r ∈ kept timestamp redundant,
            (timestamp - r.1).toUInt16.toNat = (timestamp - r.1).toNat := by
  have hencode := encode_eq_ok_iff timestamp primary redundant payloadType
  refine ⟨?_, fun packet hpacket => ?_⟩
  · rw [← sendable_encodable_iff]
    exact ⟨fun ⟨packet, h⟩ => ((hencode packet).mp h).1, fun h => ⟨_, (hencode _).mpr ⟨h, rfl⟩⟩⟩
  rcases (hencode packet).mp hpacket with ⟨hsend, rfl⟩
  refine ⟨?_, ?_, toNat_toUInt16_kept timestamp redundant⟩
  · rw [length_packetBytes, packetSize_encodable]
  · rw [decode_packetBytes timestamp payloadType payloadType _ primary rfl hsend.ne_nil
      fun block hblock => ⟨lt_of_mem_encodable timestamp redundant block hblock,
        hsend.block_length_lt block hblock⟩, encodable_eq_kept, List.map_map]
    -- An encoding of some age gets back the media time that it was given with.
    have hblock : ∀ r : UInt32 × Bytes,
        redundantBlock timestamp payloadType (timestamp - r.1, r.2)
          = ⟨false, payloadType &&& 0x7F, (timestamp - r.1).toUInt16, r.1, r.2, false⟩ := by
      intro r
      have htime : timestamp - (timestamp - r.1) = r.1 := by grind
      rw [redundantBlock, htime]
      rfl
    simp only [Function.comp_def, hblock]
    rfl

/-- An encoding that is too old for a packet, and one from before media time wrapped. The
    type has its top bit set, which the wire does not carry. -/
theorem decode_encode_wrapped :
    ∃ packet, encode 500 [7, 8] [(500 - 16384, [1]), (500 - 1920, [2, 3])] 239 = .ok packet ∧
      packet.length = 9 ∧
      decode 500 packet 239
        = .ok [⟨false, 111, 1920, 500 - 1920, [2, 3], false⟩,
            ⟨true, 111, 0, 500, [7, 8], false⟩] := by
  have h := decode_encode 500 [7, 8] [(500 - 16384, [1]), (500 - 1920, [2, 3])] 239
  rcases h.1.mpr (by decide) with ⟨packet, hpacket⟩
  exact ⟨packet, hpacket, (h.2 packet hpacket).1, (h.2 packet hpacket).2.1⟩

end Red

end RedundantAudio
