import RedundantAudio.Proofs.Red.Cursor

/-!
# The Grammar of Redundant Packets

Which bytes are a packet, and what is wrong with the others. The headers of
redundant blocks are told from the last one by a flag, so any bytes begin with
as many complete ones as there are, and then stop in one of three ways: nothing
is left, a header breaks off, or the last header stands there. `Announces` says
what stands before the stop, and `exists_announces` that there always is one.

`Verdict` is the grammar, with one constructor for packets and one for each
way to fail. None of them mentions the reader. That the reader always comes to
a verdict, and to no other than the one that the bytes deserve, are two short
case analyses, one over the stop and one over the verdict; `decode_eq_iff` is
both.

A packet is written only once: whatever the reader accepts is written back as
it was, so nothing in it is skipped. The builder writes it too, unless the
packet is larger than what the transport takes or mixes payload types, neither
of which the reader minds.

## Main definitions

* `Announces`: Complete headers, and what stands behind them.
* `Stop`: How headers end.
* `Verdict`: What some bytes are.

## Theorems

* `exists_announces`: Any bytes begin with headers, up to a stop.
* `exists_carriable`: Lengths that leave something over cut blocks out.
* `exists_verdict`: Any bytes are given a verdict.
* `Verdict.decode_eq`: The reader comes to it.
* `decode_eq_iff`: A verdict is what the reader comes to.
* `encode_carriable`: Blocks of one type are built into the bytes they stand in.
* `decode_accepts_grammar`: Reading is in range, follows the grammar, and is
  undone by building.
-/

namespace RedundantAudio

namespace Red

/-- The bytes begin with the complete headers of some redundant blocks, and
    others stand behind them. -/
structure Announces (data : Bytes) (headers : List Header) (rest : Bytes) : Prop where
  fits : ∀ h ∈ headers, h.Fits
  eq_append : data = headers.flatMap Header.toBytes ++ rest

/-- The bytes behind which no complete header of a redundant block stands. -/
inductive Stop : Bytes → Prop
  | consumed : Stop []
  | truncated (a : UInt8) (rest : Bytes) (hflag : a &&& 0x80 ≠ 0) (hshort : rest.length < 3) :
      Stop (a :: rest)
  | last (a : UInt8) (rest : Bytes) (hflag : a &&& 0x80 = 0) : Stop (a :: rest)

/-- What some bytes are, when one type is expected of the primary block. -/
inductive Verdict (timestamp : UInt32) (expected : UInt8) (data : Bytes) :
    Except Error (List Block) → Prop
  /-- A packet: headers, the byte of the expected type, the redundant encodings
      and a primary one. -/
  | accepted (redundant : List Block) (primary : Bytes)
      (hcarriable : ∀ b ∈ redundant, b.Carriable timestamp) (hprimary : primary ≠ [])
      (hdata : data = blockBytes expected redundant primary) :
      Verdict timestamp expected data
        (.ok (redundant ++ [primaryBlock timestamp expected primary]))
  /-- A flag announces one more header, and fewer than four bytes are left. -/
  | truncated (headers : List Header) (a : UInt8) (rest : Bytes)
      (h : Announces data headers (a :: rest)) (hflag : a &&& 0x80 ≠ 0)
      (hshort : (a :: rest).length < headerBytes) :
      Verdict timestamp expected data (.error (.truncatedHeader (headerBytes * headers.length)))
  /-- There are complete headers of redundant blocks, and nothing else. -/
  | consumed (headers : List Header) (h : Announces data headers []) :
      Verdict timestamp expected data (.error .missingPrimaryBlock)
  /-- The last header says another type. -/
  | mistyped (headers : List Header) (a : UInt8) (rest : Bytes)
      (h : Announces data headers (a :: rest)) (hflag : a &&& 0x80 = 0)
      (htype : a ≠ wireType expected) :
      Verdict timestamp expected data (.error (.unexpectedPayloadType (wireType expected) a))
  /-- The headers, with the lengths they announce, leave no byte over. -/
  | overrun (headers : List Header) (body : Bytes)
      (h : Announces data headers (wireType expected :: body))
      (hlength : data.length ≤ headerBytes * headers.length + primaryHeaderBytes
        + Wire.total (headers.map fun h => h.length.toNat)) :
      Verdict timestamp expected data (.error .blockLengthOverrun)

theorem announces_nil (data : Bytes) : Announces data [] data :=
  ⟨List.forall_mem_nil _, rfl⟩

/-- The walk over headers goes on until it is stopped. Whatever the bytes are, they begin
    with some complete headers, perhaps none, behind which no further one stands. By
    recursion on the bytes, four at a time. -/
theorem exists_announces (data : Bytes) :
    ∃ headers rest, Announces data headers rest ∧ Stop rest := by
  match data with
  | [] => exact ⟨[], [], announces_nil [], .consumed⟩
  | a :: rest =>
      by_cases hflag : a &&& 0x80 = 0
      · exact ⟨[], a :: rest, announces_nil _, .last a rest hflag⟩
      match rest with
      | [] => exact ⟨[], _, announces_nil _, .truncated a [] hflag (Nat.succ_pos 2)⟩
      | [b] =>
          exact ⟨[], _, announces_nil _,
            .truncated a [b] hflag (Nat.lt_add_right 1 (Nat.lt_succ_self 1))⟩
      | [b, c] => exact ⟨[], _, announces_nil _, .truncated a [b, c] hflag (Nat.lt_succ_self 2)⟩
      | b :: c :: d :: rest =>
          -- Four bytes are a header, and the walk goes on behind them.
          rcases exists_announces rest with ⟨headers, stop, ⟨hfits, hrest⟩, hstop⟩
          refine ⟨Header.ofBytes a b c d :: headers, stop, ⟨?_, ?_⟩, hstop⟩
          · exact List.forall_mem_cons.mpr ⟨Header.fits_ofBytes a b c d, hfits⟩
          · rw [List.flatMap_cons, Header.toBytes_ofBytes a b c d hflag, List.append_assoc, ← hrest]
            rfl

section Announced

variable (timestamp : UInt32) (expected : UInt8) {data rest : Bytes} {headers : List Header}

theorem Announces.length_eq (h : Announces data headers rest) :
    data.length = headerBytes * headers.length + rest.length := by
  rw [h.eq_append, List.length_append, length_headers]

/-- What is wrong behind complete headers is wrong with the packet. -/
theorem Announces.decode_eq_error (h : Announces data headers rest) (error : Error)
    (hrest : readHeaders expected (headerBytes * headers.length) rest = .error error) :
    decode timestamp data expected = .error error := by
  unfold decode
  rw [h.eq_append, readHeaders_append expected rest headers 0 h.fits, Nat.zero_add, hrest]
  rfl

/-- Lengths that leave something over cut blocks out of the bytes behind the headers. The
    blocks take their type and offset from the headers, which fit by the way they were read,
    and their payloads from the bytes. -/
theorem exists_carriable : ∀ (headers : List Header) (body : Bytes), (∀ h ∈ headers, h.Fits) →
    Wire.total (headers.map fun h => h.length.toNat) < body.length →
    ∃ (redundant : List Block) (primary : Bytes), (∀ b ∈ redundant, b.Carriable timestamp) ∧
      primary ≠ [] ∧ redundant.map Block.header = headers ∧
      redundant.flatMap Block.payload ++ primary = body := by
  intro headers
  induction headers with
  | nil =>
      intro body _ hroom
      exact ⟨[], body, List.forall_mem_nil _, List.length_pos_iff.mp hroom, rfl, rfl⟩
  | cons h headers ih =>
      intro body hfits hroom
      rw [List.map_cons, Wire.total] at hroom
      have hh := hfits h List.mem_cons_self
      -- The first block is cut off, and the others are cut from what remains.
      rcases ih (body.drop h.length.toNat) (fun h' hh' => hfits h' (List.mem_cons_of_mem h hh'))
        (by rw [List.length_drop]; omega) with ⟨redundant, primary, hcarriable, hne, hmap, hbody⟩
      have htake : (body.take h.length.toNat).length = h.length.toNat := by
        rw [List.length_take]
        omega
      refine ⟨⟨false, h.payloadType, h.offset, timestamp - h.offset.toUInt32,
        body.take h.length.toNat, false⟩ :: redundant, primary, ?_, hne, ?_, ?_⟩
      · refine List.forall_mem_cons.mpr ⟨⟨rfl, hh.payloadType_lt, hh.offset_lt, ?_, rfl, rfl⟩,
          hcarriable⟩
        exact htake.trans_lt hh.length_lt
      · rw [List.map_cons, hmap, Block.header, htake, UInt16.ofNat_toNat]
      · rw [List.flatMap_cons, List.append_assoc, hbody, List.take_append_drop]

/-- Headers that end with the expected type are those of a packet, or announce more than
    there is. Which of the two it is depends on whether a byte is left for the primary. -/
theorem Announces.verdict_of_last (body : Bytes)
    (h : Announces data headers (wireType expected :: body)) :
    ∃ result, Verdict timestamp expected data result := by
  have hlength := h.length_eq
  rw [List.length_cons] at hlength
  by_cases hroom : Wire.total (headers.map fun h => h.length.toNat) < body.length
  · rcases exists_carriable timestamp headers body h.fits hroom with
      ⟨redundant, primary, hcarriable, hne, hmap, hbody⟩
    refine ⟨_, .accepted redundant primary hcarriable hne ?_⟩
    -- The blocks have these headers and these payloads, so the bytes are those of their
    -- packet.
    rw [h.eq_append, blockBytes, hmap, ← hbody, List.append_assoc, List.append_assoc,
      List.singleton_append]
  · refine ⟨_, .overrun headers body h ?_⟩
    change _ ≤ _ + 1 + _
    omega

end Announced

/-- Any bytes are something, according to how their headers end. As the reader agrees with
    every verdict, it is known in this way what it does with any bytes. -/
theorem exists_verdict (timestamp : UInt32) (expected : UInt8) (data : Bytes) :
    ∃ result, Verdict timestamp expected data result := by
  rcases exists_announces data with ⟨headers, rest, h, hstop⟩
  cases hstop with
  | consumed => exact ⟨_, .consumed headers h⟩
  | truncated a rest hflag hshort =>
      exact ⟨_, .truncated headers a rest h hflag (Nat.succ_lt_succ hshort)⟩
  | last a rest hflag =>
      -- The primary is of the expected type, or it is not.
      by_cases htype : a = wireType expected
      · rw [htype] at h
        exact h.verdict_of_last timestamp expected rest
      · exact ⟨_, .mistyped headers a rest h hflag htype⟩

/-- The reader finds out what the bytes are. Each kind of verdict is one way through the
    reader: the headers that stand in front are read first, and what stops them is what the
    reader comes upon next. -/
theorem Verdict.decode_eq {timestamp : UInt32} {expected : UInt8} {data : Bytes}
    {result : Except Error (List Block)} (h : Verdict timestamp expected data result) :
    decode timestamp data expected = result := by
  cases h with
  | accepted redundant primary hcarriable hprimary hdata =>
      rw [hdata]
      exact decode_blockBytes timestamp expected redundant primary hcarriable hprimary
  | truncated headers a rest h hflag hshort =>
      exact h.decode_eq_error timestamp expected _
        (readHeaders_truncated expected _ a rest hflag (Nat.lt_of_succ_lt_succ hshort))
  | consumed headers h => exact h.decode_eq_error timestamp expected _ (by rw [readHeaders])
  | mistyped headers a rest h hflag htype =>
      -- Without the flag the byte is the type itself.
      have ha : wireType a = a := wireType_of_lt a ((Wire.and_flag_eq_zero a).mp hflag)
      refine h.decode_eq_error timestamp expected _ ?_
      rw [readHeaders_last expected _ a rest hflag, ha, if_neg htype]
  | overrun headers body h hlength =>
      have hlen := h.length_eq
      rw [List.length_cons] at hlen
      change _ ≤ _ + 1 + _ at hlength
      rw [h.eq_append, decode_headers timestamp expected headers body h.fits, if_pos (by omega)]

/-- The reader comes to the verdict and to no other, so there is exactly one. -/
theorem decode_eq_iff (timestamp : UInt32) (expected : UInt8) (data : Bytes)
    (result : Except Error (List Block)) :
    decode timestamp data expected = result ↔ Verdict timestamp expected data result := by
  -- There is a verdict, and the reader comes to every verdict that there is.
  rcases exists_verdict timestamp expected data with ⟨found, hfound⟩
  refine ⟨fun h => ?_, Verdict.decode_eq⟩
  rw [← h, hfound.decode_eq]
  exact hfound

/-! ### Building what was read -/

theorem Block.Carriable.age_eq {timestamp : UInt32} {b : Block} (h : b.Carriable timestamp) :
    timestamp - b.timestamp = b.offset.toUInt32 := by
  rw [h.timestamp_eq]
  grind

theorem Block.Carriable.age_lt {timestamp : UInt32} {b : Block} (h : b.Carriable timestamp) :
    timestamp - b.timestamp < offsetBound := by
  rw [h.age_eq, UInt32.lt_iff_toNat_lt, UInt16.toNat_toUInt32]
  exact h.offset_lt

theorem Block.Carriable.redundantBlock_eq {timestamp : UInt32} {payloadType : UInt8} {b : Block}
    (h : b.Carriable timestamp) (htype : b.payloadType = wireType payloadType) :
    redundantBlock timestamp payloadType (timestamp - b.timestamp, b.payload) = b := by
  have hoffset : b.offset.toUInt32.toUInt16 = b.offset := UInt16.toUInt16_toUInt32 b.offset
  rw [redundantBlock, h.age_eq, hoffset, ← htype]
  exact h.eq_mk.symm

/-- Blocks of one type are built into the bytes that they stand in. They are young enough
    not to be left out, their headers are written as they were read, and the checks on sizes
    are implied by the one on the whole packet. -/
theorem encode_carriable (timestamp : UInt32) (payloadType : UInt8) (redundant : List Block)
    (primary : Bytes) (hcarriable : ∀ b ∈ redundant, b.Carriable timestamp)
    (hprimary : primary ≠ []) (htype : ∀ b ∈ redundant, b.payloadType = wireType payloadType)
    (hsize : (blockBytes payloadType redundant primary).length ≤ payloadLimit) :
    encode timestamp primary (redundant.map fun b => (b.timestamp, b.payload)) payloadType
      = .ok (blockBytes payloadType redundant primary) := by
  -- What was read is young enough to be kept, and its headers come out the same.
  have hyoung : ∀ r ∈ redundant.map fun b => (b.timestamp, b.payload),
      timestamp - r.1 < offsetBound :=
    List.forall_mem_map.mpr fun b hb => (hcarriable b hb).age_lt
  have hblocks : encodable timestamp (redundant.map fun b => (b.timestamp, b.payload))
      = redundant.map fun b => (timestamp - b.timestamp, b.payload) := by
    rw [encodable_eq_map timestamp _ hyoung, List.map_map]
    rfl
  have hbytes : packetBytes payloadType
        (redundant.map fun b => (timestamp - b.timestamp, b.payload)) primary
      = blockBytes payloadType redundant primary := by
    rw [packetBytes_eq timestamp, List.map_map]
    congr 1
    exact (List.map_congr_left fun b hb =>
      (hcarriable b hb).redundantBlock_eq (htype b hb)).trans (List.map_id' redundant)
  rw [← hbytes, length_packetBytes] at hsize
  rw [encode_eq_ok_iff, hblocks]
  refine ⟨⟨hprimary, ?_, ?_, hsize⟩, hbytes.symm⟩
  · -- The header of the primary block takes one byte of what there is.
    refine Nat.lt_of_lt_of_le ?_ hsize
    rw [packetSize, primaryHeaderBytes]
    omega
  · exact List.forall_mem_map.mpr fun b hb => (hcarriable b hb).length_lt

/-- Reading is in range and follows the grammar, on any bytes; and what was read is built
    into the same bytes again, as far as building goes: a writer gives all blocks one type,
    and keeps packets below a limit that a reader does not know of. -/
theorem decode_accepts_grammar (timestamp : UInt32) (expected : UInt8) (data : Bytes) :
    Cursor.decode timestamp data expected = some (decode timestamp data expected) ∧
      (∀ result, decode timestamp data expected = result ↔
        Verdict timestamp expected data result) ∧
      ∀ redundant primary, decode timestamp data expected = .ok (redundant ++ [primary]) →
        data = blockBytes expected redundant primary.payload ∧
        ((∀ b ∈ redundant, b.payloadType = wireType expected) → data.length ≤ 1000 →
          encode timestamp primary.payload (redundant.map fun b => (b.timestamp, b.payload))
            expected = .ok data) := by
  refine ⟨Cursor.decode_eq timestamp data expected, decode_eq_iff timestamp expected data, ?_⟩
  intro redundant primary hdecode
  generalize hblocks : redundant ++ [primary] = blocks at hdecode
  -- Only a packet is read without an error, so there is one verdict to consider.
  cases (decode_eq_iff timestamp expected data _).mp hdecode with
  | accepted redundant' payload hcarriable hprimary hdata =>
      rcases List.append_inj' hblocks rfl with ⟨rfl, hlast⟩
      rw [List.singleton_inj] at hlast
      subst hlast
      refine ⟨hdata, fun htype hsize => ?_⟩
      rw [hdata] at hsize ⊢
      exact encode_carriable timestamp expected redundant payload hcarriable hprimary htype hsize

/-- A packet of two blocks, read and built again. The age of the first one is 1920 samples
    and wraps, as the packet is from soon after the clock began. -/
theorem decode_accepts_grammar_two_blocks :
    encode 500 [7, 8] [(500 - 1920, [2, 3])] 111
      = .ok [0xEF, 0x1E, 0x00, 0x02, 0x6F, 2, 3, 7, 8] := by
  have hread := (decode_accepts_grammar 500 111 [0xEF, 0x1E, 0x00, 0x02, 0x6F, 2, 3, 7, 8]).2.2
    [⟨false, 111, 1920, 500 - 1920, [2, 3], false⟩] ⟨true, 111, 0, 500, [7, 8], false⟩ (by rfl)
  exact hread.2 (by decide) (by decide)

end Red

end RedundantAudio
