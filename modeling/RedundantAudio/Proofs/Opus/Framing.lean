import Mathlib.Data.List.SplitLengths
import RedundantAudio.Proofs.Opus.Division

/-!
# Framed Packets

A `Framing` is a packet seen from outside: a TOC byte, fields, frames and
padding that go together. It is written in two ways. `Framing.bytes` is the
packet alone, and `Framing.delimitedBytes` has the size of the last frame
between the fields and the frames, so that whatever follows can be told from
the packet. Either way the packet that a reader should report is known,
`Framing.packet` and `Framing.delimitedPacket`.

The reader finds exactly these. In one direction the fields are read in front
of the frames, and the size of the last frame comes out as what is left, or as
what the delimiter says. In the other direction there are no frames yet, only
sizes, and the frames are cut out of the bytes that are there.

## Main definitions

* `Framing`: Fields, frames and padding that go together.
* `Framing.bytes`, `Framing.packet`: The packet alone, and what is reported.
* `Framing.delimitedBytes`, `Framing.delimitedPacket`: The same, with a
  delimiter.

## Theorems

* `undelimitedSizes_eq_ok_iff`, `delimitedSizes_eq_ok_iff`: The two ways of
  learning the size of the last frame.
* `parse_undelimited_iff`, `parse_delimited_iff`: A packet is read exactly from
  the bytes that frame it.
-/

namespace RedundantAudio

namespace Opus

/-! ### The size of the last frame -/

theorem total_replicate (count size : Nat) :
    Wire.total (List.replicate count size) = count * size := by
  rw [Wire.total_eq_sum, List.sum_replicate_nat]

theorem Division.total_sizes (d : Division) (last : Nat) :
    Wire.total (d.sizes last)
      = if d.equal then d.count * last else Wire.total d.given + last := by
  unfold Division.sizes
  split
  · exact total_replicate d.count last
  · rw [Wire.total_eq_sum, Wire.total_eq_sum, List.sum_append, List.sum_singleton]

/-- The size of the last frame is the last of the sizes. There is one, since a packet
    without frames is refused. -/
theorem Division.getLast?_sizes (d : Division) (last : Nat) (hpos : 0 < d.count) :
    (d.sizes last).getLast? = some last := by
  unfold Division.sizes
  split
  · rw [List.getLast?_replicate, if_neg (by omega)]
  · exact List.getLast?_concat

/-- Without a delimiter, the frames take up all of the body. So the size of the last one is
    found by a division if they are of one size, and by a subtraction otherwise; both are
    told by the same equation, and the reader's checks are what makes it solvable. -/
theorem undelimitedSizes_eq_ok_iff (d : Division) (code : FrameCountCode) (sizes : List Nat)
    (hpos : 0 < d.count) (hgiven : d.equal = false → Wire.total d.given ≤ d.body.length) :
    d.undelimitedSizes code = .ok sizes ↔
      ∃ last, last ≤ maxFrameBytes ∧ sizes = d.sizes last ∧
        Wire.total sizes = d.body.length := by
  simp only [Division.undelimitedSizes, ite_bind_eq_ok_iff, refusal_eq_ok_iff]
  have hsizes (last : Nat) : (pure (if d.equal = true then List.replicate d.count last
      else d.given ++ [last]) : Except PacketError (List Nat)) = .ok sizes
        ↔ sizes = d.sizes last := by
    simp only [pure, Except.pure, Except.ok.injEq, Division.sizes]
    exact eq_comm
  -- All that is left to see is which size the last frame is given.
  have hlast (last : Nat) : (if d.equal = true then d.equalSize code else pure d.lastSize)
      = .ok last ↔ Wire.total (d.sizes last) = d.body.length := by
    rw [d.total_sizes last]
    cases hequal : d.equal with
    | true =>
        simp only [if_true, Division.equalSize]
        -- Frames of one size have to share the body without a remainder.
        by_cases hdvd : d.body.length % d.count = 0
        · rw [if_pos hdvd, Except.ok.injEq, Nat.div_eq_iff_eq_mul_right hpos
            (Nat.dvd_of_mod_eq_zero hdvd), eq_comm]
        · rw [if_neg hdvd]
          refine ⟨fun h => ?_, fun h => ?_⟩
          · split at h <;> cases h
          · rw [← h, Nat.mul_mod_right] at hdvd
            exact absurd rfl hdvd
    | false =>
        -- The last frame is given what is left, and its size is the difference only if the
        -- others do fit.
        have hroom := hgiven hequal
        simp only [Bool.false_eq_true, if_false, pure, Except.pure, Except.ok.injEq,
          Division.lastSize]
        omega
  simp only [hsizes, hlast, Nat.not_lt]
  constructor
  · rintro ⟨last, htotal, hsmall, rfl⟩
    exact ⟨last, hsmall, rfl, htotal⟩
  · rintro ⟨last, hsmall, rfl, htotal⟩
    exact ⟨last, htotal, hsmall, rfl⟩

/-- With a delimiter, the frames have to fit behind it. The size of the last one is read and
    not computed, and what is left over belongs to somebody else. The reader checks the room
    in several places, and together these checks come to one inequality. -/
theorem delimitedSizes_eq_ok_iff (d : Division) (sizes : List Nat) (body : Bytes)
    (hpos : 0 < d.count) :
    d.delimitedSizes = .ok (sizes, body) ↔
      ∃ last, last ≤ maxFrameBytes ∧ sizes = d.sizes last ∧ d.body = sizeBytes last ++ body ∧
        Wire.total sizes ≤ body.length := by
  -- The delimiter takes up something itself, which leaves that much less for the frames.
  have hused (last : Nat) : 0 < (sizeBytes last).length := by
    rw [length_sizeBytes]
    split <;> exact Nat.succ_pos _
  simp only [Division.delimitedSizes, bind_eq_ok_iff, Prod.exists, takeSize_eq_ok_iff]
  cases hequal : d.equal with
  | true =>
      simp only [if_true, refusal_eq_ok_iff, pure, Except.pure, Except.ok.injEq, Prod.mk.injEq,
        Nat.not_lt]
      constructor
      · rintro ⟨last, _, ⟨hbody, hsmall, _⟩, hroom, rfl, rfl⟩
        refine ⟨last, hsmall, ?_, hbody, ?_⟩
        · rw [Division.sizes, if_pos hequal]
        · rw [total_replicate, Nat.mul_comm]
          exact hroom
      · rintro ⟨last, hsmall, rfl, hbody, hroom⟩
        rw [Division.total_sizes, if_pos hequal] at hroom
        -- One frame fits if all of them do.
        have hone : last ≤ d.count * last := Nat.le_mul_of_pos_left last hpos
        refine ⟨last, body, ⟨hbody, hsmall, hone.trans hroom⟩, ?_, ?_, rfl⟩
        · rwa [Nat.mul_comm]
        · rw [Division.sizes, if_pos hequal]
  | false =>
      simp only [Bool.false_eq_true, if_false, refusal_eq_ok_iff, pure, Except.pure,
        Except.ok.injEq, Prod.mk.injEq, Nat.not_lt]
      have hlastSize : d.lastSize = d.body.length - Wire.total d.given := rfl
      constructor
      · rintro ⟨last, _, ⟨hbody, hsmall, _⟩, hroom, rfl, rfl⟩
        have hlength := congrArg List.length hbody
        have hmore := hused last
        rw [List.length_append] at hlength
        refine ⟨last, hsmall, ?_, hbody, ?_⟩
        · rw [Division.sizes, hequal]
          rfl
        · rw [Wire.total_eq_sum, List.sum_append, List.sum_singleton, ← Wire.total_eq_sum]
          omega
      · rintro ⟨last, hsmall, rfl, hbody, hroom⟩
        have hlength := congrArg List.length hbody
        rw [List.length_append] at hlength
        rw [Division.total_sizes, hequal, if_neg Bool.false_ne_true] at hroom
        refine ⟨last, body, ⟨hbody, hsmall, by omega⟩, by omega, ?_, rfl⟩
        rw [Division.sizes, hequal]
        rfl

/-! ### Packets from outside -/

/-- Fields, frames and padding that go together behind a TOC byte. -/
structure Framing where
  toc : Toc
  fields : Bytes
  frames : List Bytes
  padding : Bytes
  framed : Framed toc fields frames padding
  small : ∀ a ∈ frames, a.length ≤ maxFrameBytes

namespace Framing

/-- The size of the last frame. -/
def lastSize (f : Framing) : Nat :=
  (f.frames.getLast f.framed.frames_ne_nil).length

/-- The packet alone. -/
def bytes (f : Framing) : Bytes :=
  f.toc.byte :: (f.fields ++ (f.frames.flatten ++ f.padding))

/-- The packet with the size of its last frame in front of the frames. -/
def delimitedBytes (f : Framing) : Bytes :=
  f.toc.byte :: (f.fields ++ (sizeBytes f.lastSize ++ (f.frames.flatten ++ f.padding)))

/-- What a reader should report of the packet alone. -/
def packet (f : Framing) : Packet where
  toc := f.toc
  frameSizes := f.frames.map List.length
  payloadOffset := 1 + f.fields.length
  padding := f.padding.length

/-- What a reader should report of the packet with a delimiter. -/
def delimitedPacket (f : Framing) : Packet :=
  { f.packet with payloadOffset := 1 + f.fields.length + (sizeBytes f.lastSize).length }

theorem getLast?_sizes (f : Framing) : (f.frames.map List.length).getLast? = some f.lastSize := by
  rw [List.getLast?_map, List.getLast?_eq_some_getLast f.framed.frames_ne_nil]
  rfl

theorem total_sizes (f : Framing) :
    Wire.total (f.frames.map List.length) = f.frames.flatten.length :=
  Wire.total_map_length f.frames

end Framing

/-- Bytes are cut into pieces of given sizes. -/
theorem exists_pieces (sizes : List Nat) (bytes : Bytes) (h : Wire.total sizes = bytes.length) :
    ∃ pieces : List Bytes, pieces.map List.length = sizes ∧ pieces.flatten = bytes := by
  rw [Wire.total_eq_sum] at h
  exact ⟨sizes.splitLengths bytes, List.map_splitLengths_length bytes sizes (le_of_eq h),
    List.flatten_splitLengths bytes sizes (le_of_eq h.symm)⟩

/-- No frame is too large, if the last one is not. The sizes that are given cannot say more
    than the limit. -/
theorem Announced.sizes_small {toc : Toc} {fields : Bytes} {d : Division} {last : Nat}
    (h : Announced toc fields d) (hsmall : last ≤ maxFrameBytes) :
    ∀ size ∈ d.sizes last, size ≤ maxFrameBytes := by
  intro size hsize
  unfold Division.sizes at hsize
  split at hsize
  · rw [List.eq_of_mem_replicate hsize]
    exact hsmall
  · rcases List.mem_append.mp hsize with hfirst | hlast
    · exact h.given_small size hfirst
    · rw [List.mem_singleton.mp hlast]
      exact hsmall

/-- Bytes of the sizes that were announced are a packet. They are cut into pieces of these
    sizes, which are frames by what the fields announce, and the last size is the last
    one's. -/
theorem Announced.exists_framing {toc : Toc} {fields : Bytes} {d : Division} {last : Nat}
    (h : Announced toc fields d) (hsmall : last ≤ maxFrameBytes) (body padding : Bytes)
    (hbody : Wire.total (d.sizes last) = body.length) (hpadding : padding.length = d.padding) :
    ∃ f : Framing, f.toc = toc ∧ f.fields = fields ∧ f.frames.flatten = body ∧
      f.padding = padding ∧ f.frames.map List.length = d.sizes last ∧ f.lastSize = last := by
  -- The body is cut as the sizes say.
  rcases exists_pieces (d.sizes last) body hbody with ⟨frames, hsizes, hflatten⟩
  have hframes (a : Bytes) (ha : a ∈ frames) : a.length ≤ maxFrameBytes := by
    refine h.sizes_small hsmall _ ?_
    rw [← hsizes]
    exact List.mem_map_of_mem ha
  let f : Framing := ⟨toc, fields, frames, padding, h.framed frames padding last hsizes hpadding,
    hframes⟩
  refine ⟨f, rfl, rfl, hflatten, rfl, hsizes, ?_⟩
  have hlast := f.getLast?_sizes
  rw [show f.frames.map List.length = d.sizes last from hsizes, d.getLast?_sizes last h.count_pos,
    Option.some.injEq] at hlast
  exact hlast.symm

/-! ### Reading -/

/-- Reading without a delimiter is reading the fields and then dividing the body among the
    frames. The offset of the payload is what is left of the packet without body and
    padding. -/
theorem parse_cons_undelimited (b : UInt8) (rest : Bytes) (p : Packet) :
    Packet.parse (b :: rest) false = .ok p ↔
      ∃ d sizes, Division.read ⟨b⟩ rest = .ok d ∧
        d.undelimitedSizes (Toc.frameCountCode ⟨b⟩) = .ok sizes ∧
        p = ⟨⟨b⟩, sizes, (b :: rest).length - d.padding - d.body.length, d.padding⟩ := by
  simp only [Packet.parse, bind_eq_ok_iff, Bool.false_eq_true, if_false]
  constructor
  · rintro ⟨d, hread, ⟨sizes, body⟩, hsizes, hp⟩
    -- Without a delimiter nothing but the sizes is read from the body.
    cases hfound : d.undelimitedSizes (Toc.frameCountCode ⟨b⟩) with
    | error error =>
        rw [hfound] at hsizes
        cases hsizes
    | ok found =>
        rw [hfound] at hsizes
        cases hsizes
        cases hp
        exact ⟨d, _, hread, hfound, rfl⟩
  · rintro ⟨d, sizes, hread, hsizes, rfl⟩
    refine ⟨d, hread, (sizes, d.body), ?_, rfl⟩
    rw [hsizes]
    rfl

/-- With a delimiter it is the same, but for the body, which begins behind the delimiter. -/
theorem parse_cons_delimited (b : UInt8) (rest : Bytes) (p : Packet) :
    Packet.parse (b :: rest) true = .ok p ↔
      ∃ d sizes body, Division.read ⟨b⟩ rest = .ok d ∧ d.delimitedSizes = .ok (sizes, body) ∧
        p = ⟨⟨b⟩, sizes, (b :: rest).length - d.padding - body.length, d.padding⟩ := by
  simp only [Packet.parse, bind_eq_ok_iff, if_true]
  constructor
  · rintro ⟨d, hread, ⟨sizes, body⟩, hsizes, hp⟩
    cases hp
    exact ⟨d, sizes, body, hread, hsizes, rfl⟩
  · rintro ⟨d, sizes, body, hread, hsizes, rfl⟩
    exact ⟨d, hread, (sizes, body), hsizes, rfl⟩

/-- What was framed is read, and reported as it was framed. The fields are read whatever the
    frames are, and then the sizes of the frames are the only solution for the body. -/
theorem Framing.parse_bytes (f : Framing) : Packet.parse f.bytes false = .ok f.packet := by
  rcases read_framed f.framed f.small f.frames.flatten f.padding (le_refl _) rfl with
    ⟨d, last, hread, hpadding, hbody, hpos, hsizes⟩
  have htotal := f.total_sizes
  have hlast : last ≤ maxFrameBytes := by
    have hmem : last ∈ f.frames.map List.length := by
      rw [hsizes]
      exact List.mem_of_getLast? (d.getLast?_sizes last hpos)
    rcases List.mem_map.mp hmem with ⟨a, ha, rfl⟩
    exact f.small a ha
  -- The sizes that are given are those of frames, and all frames together are the body.
  have hgiven (hequal : d.equal = false) : Wire.total d.given ≤ d.body.length := by
    rw [hsizes, d.total_sizes, hequal, if_neg Bool.false_ne_true] at htotal
    rw [hbody]
    omega
  refine (parse_cons_undelimited _ _ _).mpr ⟨d, f.frames.map List.length, hread, ?_, ?_⟩
  · refine (undelimitedSizes_eq_ok_iff d _ _ hpos hgiven).mpr ⟨last, hlast, hsizes, ?_⟩
    rw [htotal, hbody]
  · have hoffset : f.bytes.length - d.padding - d.body.length = 1 + f.fields.length := by
      simp only [bytes, List.length_cons, List.length_append, hpadding, hbody]
      omega
    rw [← Framing.bytes, hoffset, hpadding]
    rfl

/-- A packet alone is read exactly from the bytes that frame it. In one direction the fields
    that were read announce frames and the body is cut into them; in the other, the reader
    is run on what was framed. -/
theorem parse_undelimited_iff (data : Bytes) (p : Packet) :
    Packet.parse data false = .ok p ↔ ∃ f : Framing, f.bytes = data ∧ f.packet = p := by
  constructor
  · intro h
    cases data with
    | nil => cases h
    | cons b rest =>
        rcases (parse_cons_undelimited b rest p).mp h with ⟨d, sizes, hread, hsizes, rfl⟩
        -- The bytes that were read as fields announce frames of certain sizes, and the body
        -- can be cut into such frames.
        rcases announced_of_read ⟨b⟩ rest d hread with
          ⟨fields, ending, rfl, hending, hgiven, hannounced⟩
        rcases (undelimitedSizes_eq_ok_iff d _ sizes hannounced.count_pos fun _ => hgiven).mp hsizes
          with ⟨last, hsmall, rfl, htotal⟩
        rcases hannounced.exists_framing hsmall d.body ending htotal hending with
          ⟨f, htoc, rfl, hframes, rfl, hfound, _⟩
        have hbytes : f.bytes = b :: (f.fields ++ (d.body ++ f.padding)) := by
          rw [Framing.bytes, htoc, hframes]
        refine ⟨f, hbytes, ?_⟩
        have hoffset : (b :: (f.fields ++ (d.body ++ f.padding))).length - d.padding - d.body.length
            = 1 + f.fields.length := by
          simp only [List.length_cons, List.length_append, hending]
          omega
        rw [hoffset, Framing.packet, htoc, hfound, hending]
  · rintro ⟨f, rfl, rfl⟩
    exact f.parse_bytes

/-- With the delimiter put in, what was framed is read from the front of any longer input.
    The reader sets the padding aside at the end of the input, where it need not be; but
    only its amount is used, so any bytes of that number stand for it. -/
theorem Framing.parse_delimitedBytes (f : Framing) (rest : Bytes) :
    Packet.parse (f.delimitedBytes ++ rest) true = .ok f.delimitedPacket := by
  -- The padding is not what ends the input, but as many bytes are set aside.
  obtain ⟨behind, ending, hsplit, hending⟩ : ∃ behind ending,
      f.padding ++ rest = behind ++ ending ∧ ending.length = f.padding.length :=
    ⟨(f.padding ++ rest).take rest.length, (f.padding ++ rest).drop rest.length,
      (List.take_append_drop _ _).symm, by
        rw [List.length_drop, List.length_append, Nat.add_sub_cancel]⟩
  have hrest : f.delimitedBytes ++ rest = f.toc.byte ::
      (f.fields ++ ((sizeBytes f.lastSize ++ (f.frames.flatten ++ behind)) ++ ending)) := by
    simp only [delimitedBytes, List.cons_append, List.append_assoc, hsplit]
  rcases read_framed f.framed f.small (sizeBytes f.lastSize ++ (f.frames.flatten ++ behind)) ending
    (by simp only [List.length_append]; omega) hending with
    ⟨d, last, hread, hpadding, hbody, hpos, hsizes⟩
  -- The reader has found the sizes of the frames, so its last size is that of the last
  -- frame.
  have hlast : f.lastSize = last := by
    have hfound := f.getLast?_sizes
    rw [hsizes, d.getLast?_sizes last hpos, Option.some.injEq] at hfound
    exact hfound.symm
  rw [hrest]
  refine (parse_cons_delimited _ _ _).mpr
    ⟨d, f.frames.map List.length, f.frames.flatten ++ behind, hread, ?_, ?_⟩
  · refine (delimitedSizes_eq_ok_iff d _ _ hpos).mpr ⟨f.lastSize, ?_, ?_, hbody, ?_⟩
    · exact f.small _ (List.getLast_mem f.framed.frames_ne_nil)
    · rw [hsizes, hlast]
    · rw [f.total_sizes, List.length_append]
      exact Nat.le_add_right _ _
  · rw [← hrest, hpadding, delimitedPacket, packet]
    have hlength := congrArg List.length hsplit
    simp only [List.length_append] at hlength
    have hoffset : (f.delimitedBytes ++ rest).length - f.padding.length
        - (f.frames.flatten ++ behind).length
        = 1 + f.fields.length + (sizeBytes f.lastSize).length := by
      simp only [delimitedBytes, List.length_cons, List.length_append]
      omega
    rw [hoffset]

/-- A packet with a delimiter is read exactly from the bytes that frame it, whatever follows
    them. Where the packet ends is not told by the input but by the sizes, so the framing is
    made of as many bytes as these say and the rest is left over. -/
theorem parse_delimited_iff (data : Bytes) (p : Packet) :
    Packet.parse data true = .ok p ↔
      ∃ (f : Framing) (rest : Bytes), f.delimitedBytes ++ rest = data ∧ f.delimitedPacket = p := by
  constructor
  · intro h
    cases data with
    | nil => cases h
    | cons b rest =>
        rcases (parse_cons_delimited b rest p).mp h with ⟨d, sizes, body, hread, hsizes, rfl⟩
        rcases announced_of_read ⟨b⟩ rest d hread with
          ⟨fields, ending, rfl, hending, _, hannounced⟩
        rcases (delimitedSizes_eq_ok_iff d sizes body hannounced.count_pos).mp hsizes with
          ⟨last, hsmall, rfl, hbody, hroom⟩
        -- Behind the delimiter stand the frames, then the padding, then other bytes.
        have hframes : ((body ++ ending).take (Wire.total (d.sizes last))).length
            = Wire.total (d.sizes last) := by
          rw [List.length_take, List.length_append]
          omega
        have hpadding : (((body ++ ending).drop (Wire.total (d.sizes last))).take
            d.padding).length = d.padding := by
          rw [List.length_take, List.length_drop, List.length_append]
          omega
        rcases hannounced.exists_framing hsmall _ _ hframes.symm hpadding with
          ⟨f, htoc, rfl, hflatten, hpad, hfound, hlast⟩
        have hbytes : f.delimitedBytes
            ++ ((body ++ ending).drop (Wire.total (d.sizes last))).drop d.padding
            = b :: (f.fields ++ (d.body ++ ending)) := by
          simp only [Framing.delimitedBytes, htoc, hlast, hflatten, hpad, hbody, List.cons_append,
            List.append_assoc, List.take_append_drop]
        refine ⟨f, _, hbytes, ?_⟩
        have hoffset : (b :: (f.fields ++ (d.body ++ ending))).length - d.padding - body.length
            = 1 + f.fields.length + (sizeBytes last).length := by
          simp only [List.length_cons, List.length_append, hbody, hending]
          omega
        rw [hoffset, Framing.delimitedPacket, Framing.packet, htoc, hfound, hpad, hpadding, hlast]
  · rintro ⟨f, rest, rfl, rfl⟩
    exact f.parse_delimitedBytes rest

end Opus

end RedundantAudio
