import RedundantAudio.Proofs.Wire.Fields
import RedundantAudio.Rtp.Frame

/-!
# RTP Packets Read Back

A frame survives the wire. The packet that `toBytes` writes has no padding, no
extension, no contributing sources and no marker, so `ofBytes` reads the same
five fields out of it that were written. The one thing the wire can lose is
the eighth bit of a payload type, and a frame whose payload type has seven
bits has nothing to lose.

The other way round a packet can lose more. What a frame does not keep, the
contributing sources, their number and the marker, is not there any more when
the frame is written again, and everything else is. `plain` takes these out of
a packet without reading it. It is what reading and writing come to, and what
there is to say about doing so twice, or about a packet that has none of them,
is said about `plain`.

Whether a packet is read at all is decided in steps, and how long the header
has to be is known only when some of them are done. `Readable` asks for all of
it at once.

## Main definitions

* `firstByte`, `typeByte`, `sourceCount`: What stands in front of a header.
* `Readable`: What a packet has to be like.
* `plain`: A packet without sources and marker.

## Theorems

* `ofBytes_toBytes`: A frame is read back as it was written.
* `readable_iff`: A packet is read if it is readable.
* `toBytes_of_ofBytes`: Written again, it is plain.
* `plain_eq_self_iff`: Which packets are plain.
* `read_and_rebuilt`: Reading, writing, and both.
-/

namespace RedundantAudio

namespace Rtp

namespace Frame

/-- A frame that is written is read as it was. A type of seven bits leaves the marker clear. -/
theorem ofBytes_toBytes (f : Frame) (h : f.payloadType.toNat < 128) :
    ofBytes f.toBytes = .ok f := by
  -- Once for the writer, and once for the reader.
  have htype : (f.payloadType &&& 0x7F) &&& 0x7F = f.payloadType := by
    rw [← UInt8.toNat_inj, Wire.toNat_and_low7, Wire.toNat_and_low7]
    omega
  simp only [toBytes, Wire.be16, Wire.be32, List.cons_append, List.nil_append, ofBytes]
  rw [htype, Wire.ofBe16_be16, Wire.ofBe32_be32, Wire.ofBe32_be32]
  rfl

/-! ### Packets -/

/-- The byte with the version, the flags for padding and extension, and the
    number of contributing sources. -/
def firstByte (data : Bytes) : UInt8 :=
  data.getD 0 0

/-- The byte with the marker and the payload type. -/
def typeByte (data : Bytes) : UInt8 :=
  data.getD 1 0

/-- The number of contributing sources. -/
def sourceCount (data : Bytes) : Nat :=
  (firstByte data &&& 0x0F).toNat

/-- What a packet has to be like to be read: it is of version 2, has neither
    padding nor extension, and is as long as its header. -/
structure Readable (data : Bytes) : Prop where
  fixed_le : 12 ≤ data.length
  version_eq : firstByte data >>> 6 = 2
  flags_eq : firstByte data &&& 0x30 = 0
  sources_le : 12 + 4 * sourceCount data ≤ data.length

/-- A packet without its contributing sources, without their number, and without
    the marker. -/
def plain (data : Bytes) : Bytes :=
  [firstByte data &&& 0xF0, typeByte data &&& 0x7F]
    ++ (data.drop 2).take 10 ++ data.drop (12 + 4 * sourceCount data)

section Header

variable (b0 b1 s0 s1 t0 t1 t2 t3 r0 r1 r2 r3 : UInt8) (rest : Bytes)

/-- To be readable, with the bytes of the fixed header laid out. -/
theorem readable_cons :
    Readable (b0 :: b1 :: s0 :: s1 :: t0 :: t1 :: t2 :: t3 :: r0 :: r1 :: r2 :: r3 :: rest) ↔
      b0 >>> 6 = version ∧ b0 &&& 0x30 = 0 ∧ 4 * (b0 &&& 0x0F).toNat ≤ rest.length := by
  constructor
  · rintro ⟨_, hversion, hflags, hsources⟩
    simp only [sourceCount, firstByte, List.getD_cons_zero, List.length_cons] at hsources
    exact ⟨hversion, hflags, by omega⟩
  · rintro ⟨hversion, hflags, hsources⟩
    refine ⟨?_, hversion, hflags, ?_⟩
    · simp only [List.length_cons]
      omega
    · simp only [sourceCount, firstByte, List.getD_cons_zero, List.length_cons]
      omega

/-- What the reader makes of a fixed header and the bytes behind it. Contributing sources
    are passed over, and the marker is not kept. -/
theorem ofBytes_cons_eq_ok_iff (f : Frame) :
    ofBytes (b0 :: b1 :: s0 :: s1 :: t0 :: t1 :: t2 :: t3 :: r0 :: r1 :: r2 :: r3 :: rest) = .ok f ↔
      (b0 >>> 6 = version ∧ b0 &&& 0x30 = 0 ∧ 4 * (b0 &&& 0x0F).toNat ≤ rest.length) ∧
        ⟨Wire.ofBe16 s0 s1, Wire.ofBe32 t0 t1 t2 t3, Wire.ofBe32 r0 r1 r2 r3, b1 &&& 0x7F,
          rest.drop (4 * (b0 &&& 0x0F).toNat)⟩ = f := by
  simp only [ofBytes]
  -- One case for each check that fails, and the last for none.
  split_ifs with hversion hflags hsources
  · exact iff_of_false (fun h => nomatch h) fun h => hversion h.1.1
  · exact iff_of_false (fun h => nomatch h) fun h => hflags h.1.2.1
  · exact iff_of_false (fun h => nomatch h) fun h => absurd hsources (Nat.not_lt.mpr h.1.2.2)
  · rw [Except.ok.injEq, iff_and_self]
    exact fun _ => ⟨not_not.mp hversion, not_not.mp hflags, Nat.le_of_not_lt hsources⟩

end Header

theorem exists_fixed_header {data : Bytes} (h : 12 ≤ data.length) :
    ∃ b0 b1 s0 s1 t0 t1 t2 t3 r0 r1 r2 r3 rest,
      data = b0 :: b1 :: s0 :: s1 :: t0 :: t1 :: t2 :: t3 :: r0 :: r1 :: r2 :: r3 :: rest := by
  match data, h with
  | b0 :: b1 :: s0 :: s1 :: t0 :: t1 :: t2 :: t3 :: r0 :: r1 :: r2 :: r3 :: rest, _ =>
      exact ⟨b0, b1, s0, s1, t0, t1, t2, t3, r0, r1, r2, r3, rest, rfl⟩

theorem ofBytes_of_short {data : Bytes} (h : data.length < 12) :
    ofBytes data = .error (.tooSmall data.length) := by
  unfold ofBytes
  split
  · simp only [List.length_cons] at h
    omega
  · rfl

/-- A packet is read if it is readable, and every other one is refused. -/
theorem readable_iff (data : Bytes) : (∃ f, ofBytes data = .ok f) ↔ Readable data := by
  by_cases hfixed : 12 ≤ data.length
  · -- Each condition is one of the checks that the reader makes.
    obtain ⟨b0, b1, s0, s1, t0, t1, t2, t3, r0, r1, r2, r3, rest, rfl⟩ := exists_fixed_header hfixed
    simp only [readable_cons, ofBytes_cons_eq_ok_iff, exists_and_left, exists_eq', and_true]
  · rw [ofBytes_of_short (Nat.lt_of_not_le hfixed)]
    exact iff_of_false (fun ⟨_, h⟩ => nomatch h) fun h => hfixed h.fixed_le

/-- What version 2 leaves of the first byte, if there are no flags in it. -/
theorem firstByte_and (b : UInt8) (hversion : b >>> 6 = version) (hflags : b &&& 0x30 = 0) :
    b &&& 0xF0 = 0x80 := by
  rw [← UInt8.toNat_inj, UInt8.toNat_shiftRight] at hversion
  rw [← UInt8.toNat_inj, Wire.toNat_and_mask b 0x30 2 4 rfl] at hflags
  rw [← UInt8.toNat_inj, Wire.toNat_and_mask b 0xF0 4 4 rfl]
  change b.toNat >>> 6 = 2 at hversion
  change b.toNat / 16 % 4 * 16 = 0 at hflags
  change b.toNat / 16 % 16 * 16 = 128
  rw [Nat.shiftRight_eq_div_pow] at hversion
  omega

/-- A packet that is read and written again is plain. The marker and the list of sources are
    not kept by the frame, so they are gone, and everything else is where it was. -/
theorem toBytes_of_ofBytes {data : Bytes} {f : Frame} (h : ofBytes data = .ok f) :
    f.toBytes = plain data := by
  obtain ⟨b0, b1, s0, s1, t0, t1, t2, t3, r0, r1, r2, r3, rest, rfl⟩ :=
    exists_fixed_header ((readable_iff data).mp ⟨f, h⟩).fixed_le
  rcases (ofBytes_cons_eq_ok_iff _ _ _ _ _ _ _ _ _ _ _ _ _ f).mp h with
    ⟨⟨hversion, hflags, _⟩, rfl⟩
  have htype : (b1 &&& 0x7F) &&& 0x7F = b1 &&& 0x7F := by
    rw [← UInt8.toNat_inj, Wire.toNat_and_low7, Wire.toNat_and_low7, Nat.mod_mod]
  -- Behind the fixed header, the sources come first and then the payload.
  have hdrop : (b0 :: b1 :: s0 :: s1 :: t0 :: t1 :: t2 :: t3 :: r0 :: r1 :: r2 :: r3 :: rest).drop
      (12 + 4 * (b0 &&& 0x0F).toNat) = rest.drop (4 * (b0 &&& 0x0F).toNat) := by
    rw [← List.drop_drop]
    rfl
  rw [toBytes, htype, Wire.be16_ofBe16, Wire.be32_ofBe32, Wire.be32_ofBe32, plain, sourceCount,
    firstByte, typeByte, List.getD_cons_zero, firstByte_and b0 hversion hflags, hdrop]
  rfl

/-- Whatever is read has a type of seven bits, so it can be written and read again. -/
theorem payloadType_lt_of_ofBytes {data : Bytes} {f : Frame} (h : ofBytes data = .ok f) :
    f.payloadType.toNat < 128 := by
  obtain ⟨b0, b1, s0, s1, t0, t1, t2, t3, r0, r1, r2, r3, rest, rfl⟩ :=
    exists_fixed_header ((readable_iff data).mp ⟨f, h⟩).fixed_le
  rcases (ofBytes_cons_eq_ok_iff _ _ _ _ _ _ _ _ _ _ _ _ _ f).mp h with ⟨_, rfl⟩
  change (b1 &&& 0x7F).toNat < 128
  rw [Wire.toNat_and_low7]
  exact Nat.mod_lt _ (by decide)

/-- The packets that are plain already have no source and no marker. A readable packet has
    no other flags in its first byte, so that a single value is left for it. -/
theorem plain_eq_self_iff {data : Bytes} (h : Readable data) :
    plain data = data ↔ firstByte data = 0x80 ∧ typeByte data &&& 0x80 = 0 := by
  obtain ⟨b0, b1, s0, s1, t0, t1, t2, t3, r0, r1, r2, r3, rest, rfl⟩ :=
    exists_fixed_header h.fixed_le
  rcases (readable_cons _ _ _ _ _ _ _ _ _ _ _ _ _).mp h with ⟨hversion, hflags, _⟩
  -- To take the marker off changes nothing where there is none.
  have htype : b1 &&& 0x7F = b1 ↔ b1 &&& 0x80 = 0 := by
    have hlt := b1.toNat_lt
    rw [Wire.and_flag_eq_zero, ← UInt8.toNat_inj, Wire.toNat_and_low7]
    omega
  simp only [plain, sourceCount, firstByte, typeByte, List.getD_cons_zero, List.getD_cons_succ,
    firstByte_and b0 hversion hflags]
  constructor
  · intro hplain
    injection hplain with hfirst hsecond
    injection hsecond with hsecond _
    exact ⟨hfirst.symm, htype.mp hsecond⟩
  · rintro ⟨rfl, hmarker⟩
    rw [htype.mpr hmarker]
    rfl

/-- A frame with a payload type of seven bits survives being written and read.
    A packet is read if it is as long as the header that it says it has, and that
    header is of version 2 and has no flags. Written again it has lost its
    sources, their number and its marker, and nothing else; to do so again
    changes nothing, and a packet that had none of them is the same as before. -/
theorem read_and_rebuilt :
    (∀ f : Frame, f.payloadType.toNat < 128 → ofBytes f.toBytes = .ok f) ∧
      ∀ data : Bytes, ((∃ f, ofBytes data = .ok f) ↔ Readable data) ∧
        ∀ f, ofBytes data = .ok f →
          f.toBytes = plain data ∧ ofBytes f.toBytes = .ok f ∧
            (f.toBytes = data ↔ firstByte data = 0x80 ∧ typeByte data &&& 0x80 = 0) := by
  refine ⟨ofBytes_toBytes, fun data => ⟨readable_iff data, fun f h => ?_⟩⟩
  have hplain := toBytes_of_ofBytes h
  refine ⟨hplain, ofBytes_toBytes f (payloadType_lt_of_ofBytes h), ?_⟩
  rw [hplain]
  exact plain_eq_self_iff ((readable_iff data).mp ⟨f, h⟩)

/-- A packet with a marker and two sources, one of which is 0xDEADBEEF. -/
def mixedDown : Bytes :=
  [0x82, 0xEF, 0, 7, 0, 0, 3, 0xC0, 0, 0, 0, 9, 0xDE, 0xAD, 0xBE, 0xEF, 0, 0, 0, 1, 5, 6]

/-- It is read, and is plain when it is written again. The sources and the marker are gone,
    the payload has moved up, and a second reading gives the same frame. -/
theorem read_and_rebuilt_mixedDown :
    (∃ f, ofBytes mixedDown = .ok f ∧ f.payload = [5, 6] ∧
      f.toBytes = [0x80, 0x6F, 0, 7, 0, 0, 3, 0xC0, 0, 0, 0, 9, 5, 6] ∧
      ofBytes f.toBytes = .ok f ∧ f.toBytes ≠ mixedDown) ∧
    ofBytes (toBytes ⟨7, 960, 9, 111, [5, 6]⟩) = .ok ⟨7, 960, 9, 111, [5, 6]⟩ := by
  have hread : ofBytes mixedDown = .ok ⟨7, 960, 9, 111, [5, 6]⟩ := by decide +kernel
  rcases (read_and_rebuilt.2 mixedDown).2 _ hread with ⟨hplain, hagain, hsame⟩
  refine ⟨⟨_, hread, rfl, hplain, hagain, fun h => ?_⟩, read_and_rebuilt.1 _ (by decide)⟩
  exact absurd (hsame.mp h).1 (by decide)

end Frame

end Rtp

end RedundantAudio
