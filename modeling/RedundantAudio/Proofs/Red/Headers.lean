import RedundantAudio.Proofs.Wire.Fields
import RedundantAudio.Red.Packet

/-!
# The Headers of Redundant Packets

The header of a redundant block squeezes an age of fourteen bits and a length of
ten into three bytes, with one byte shared between the two. Numbers that fit
their fields are read back from those bytes.

It is the other direction that makes the reader invertible, and not only right on
what the builder wrote: four bytes with the flag set are the header of exactly
one redundant block. So headers can be treated as the bytes they are, and
`readHeaders_eq_ok_iff` says which bytes are read as which headers.

## Main definitions

* `Header.Fits`: A header whose numbers fit their fields.

## Theorems

* `wireType_wireType`: Cutting a payload type to seven bits twice is once.
* `Header.exists_toBytes`: A header is read back from its four bytes.
* `Header.fits_ofBytes`: Any four bytes are read as numbers that fit.
* `Header.toBytes_ofBytes`: Four bytes are written back as they were read.
* `readHeaders_append`: Headers are read one by one, whatever follows.
* `readHeaders_eq_ok_iff`: All headers are read, exactly from their bytes.
-/

namespace RedundantAudio

namespace Red

theorem wireType_lt (payloadType : UInt8) : (wireType payloadType).toNat < 128 := by
  rw [wireType, Wire.toNat_and_low7]
  omega

theorem wireType_of_lt (payloadType : UInt8) (h : payloadType.toNat < 128) :
    wireType payloadType = payloadType := by
  rw [← UInt8.toNat_inj, wireType, Wire.toNat_and_low7]
  omega

theorem wireType_wireType (payloadType : UInt8) :
    wireType (wireType payloadType) = wireType payloadType :=
  wireType_of_lt _ (wireType_lt payloadType)

/-- A header whose numbers fit the fields they have on the wire. -/
structure Header.Fits (h : Header) : Prop where
  payloadType_lt : h.payloadType.toNat < 128
  offset_lt : h.offset.toNat < 16384
  length_lt : h.length.toNat < 1024

/-- Offset and length share a field of sixteen bits: fourteen of them are the offset, and
    two are the top of the length. As long as both fit, they do not touch. -/
theorem Header.toNat_shared (h : Header) (hf : h.Fits) :
    ((h.offset <<< 2) ||| (h.length >>> 8)).toNat = 4 * h.offset.toNat + h.length.toNat / 256 := by
  have ho := hf.offset_lt
  have hl := hf.length_lt
  -- The shifted offset has its two low bits free.
  have hor : h.offset.toNat <<< 2 ||| h.length.toNat / 256
      = h.offset.toNat <<< 2 + h.length.toNat / 256 :=
    (Nat.shiftLeft_add_eq_or_of_lt (by omega) _).symm
  simp only [UInt16.toNat_or, UInt16.toNat_shiftLeft, UInt16.toNat_shiftRight]
  rw [show (8 : UInt16).toNat % 16 = 8 from rfl, show (2 : UInt16).toNat % 16 = 2 from rfl,
    Nat.shiftRight_eq_div_pow]
  simp only [Nat.shiftLeft_eq] at hor ⊢
  rw [Nat.mod_eq_of_lt (by omega), hor]
  omega

/-- A header that fits is written in four bytes, the first of them with the flag for more,
    and is read from them again. Offset and length share the two bytes in the middle, so
    each of them is put together from two pieces. -/
theorem Header.exists_toBytes (h : Header) (hf : h.Fits) :
    ∃ a b c d, h.toBytes = [a, b, c, d] ∧ a &&& 0x80 ≠ 0 ∧ Header.ofBytes a b c d = h := by
  have hp := hf.payloadType_lt
  have ho := hf.offset_lt
  have hl := hf.length_lt
  have hw := h.toNat_shared hf
  set w := (h.offset <<< 2) ||| (h.length >>> 8) with hwdef
  -- `w` is the field that offset and length share.
  refine ⟨0x80 ||| h.payloadType, (w >>> 8).toUInt8, w.toUInt8, h.length.toUInt8, rfl, ?_, ?_⟩
  · rw [Ne, Wire.and_flag_eq_zero, Wire.toNat_flag_or _ hp]
    omega
  · have htype : wireType (0x80 ||| h.payloadType) = h.payloadType := by
      rw [← UInt8.toNat_inj, wireType, Wire.toNat_and_low7, Wire.toNat_flag_or _ hp]
      omega
    have hoffset : Wire.ofBe16 (w >>> 8).toUInt8 w.toUInt8 >>> 2 = h.offset := by
      rw [Wire.ofBe16_be16, ← UInt16.toNat_inj, UInt16.toNat_shiftRight, hw,
        show (2 : UInt16).toNat % 16 = 2 from rfl, Nat.shiftRight_eq_div_pow]
      omega
    have hlength : ((w.toUInt8 &&& 0x03).toUInt16 <<< 8) ||| h.length.toUInt8.toUInt16
        = h.length := by
      have hlow : (w.toUInt8 &&& 0x03).toNat = h.length.toNat / 256 := by
        rw [UInt8.toNat_and, UInt16.toNat_toUInt8, hw]
        exact (Nat.and_two_pow_sub_one_eq_mod _ 2).trans (by omega)
      have hread := Wire.toNat_ofBe16 (w.toUInt8 &&& 0x03) h.length.toUInt8
      rw [hlow, UInt16.toNat_toUInt8] at hread
      rw [← UInt16.toNat_inj]
      exact hread.trans (by omega)
    simp only [Header.ofBytes, htype, hoffset, hlength]

theorem Header.length_toBytes (h : Header) : h.toBytes.length = headerBytes :=
  rfl

theorem length_headers (headers : List Header) :
    (headers.flatMap Header.toBytes).length = headerBytes * headers.length := by
  rw [List.length_flatMap, List.map_congr_left fun h _ => h.length_toBytes, List.map_const',
    List.sum_replicate_nat, Nat.mul_comm]

theorem Header.toNat_ofBytes_offset (a b c d : UInt8) :
    (Header.ofBytes a b c d).offset.toNat = (256 * b.toNat + c.toNat) / 4 := by
  rw [Header.ofBytes, UInt16.toNat_shiftRight, Wire.toNat_ofBe16,
    show (2 : UInt16).toNat % 16 = 2 from rfl, Nat.shiftRight_eq_div_pow]

theorem Header.toNat_ofBytes_length (a b c d : UInt8) :
    (Header.ofBytes a b c d).length.toNat = 256 * (c.toNat % 4) + d.toNat := by
  have hlow : (c &&& 0x03).toNat = c.toNat % 4 := by
    rw [UInt8.toNat_and]
    exact Nat.and_two_pow_sub_one_eq_mod c.toNat 2
  rw [← hlow]
  exact Wire.toNat_ofBe16 (c &&& 0x03) d

/-- Whatever four bytes a header is read from, its numbers fit their fields. -/
theorem Header.fits_ofBytes (a b c d : UInt8) : (Header.ofBytes a b c d).Fits := by
  have hb := b.toNat_lt
  have hc := c.toNat_lt
  have hd := d.toNat_lt
  -- Sixteen bits over four are fourteen, and two bits before eight are ten.
  refine ⟨wireType_lt a, ?_, ?_⟩
  · rw [Header.toNat_ofBytes_offset]
    omega
  · rw [Header.toNat_ofBytes_length]
    omega

/-- No other header is read from these bytes: it is written as they are. All 32 bits of a
    header mean something, so that a packet that is read can be rebuilt to the letter. -/
theorem Header.toBytes_ofBytes (a b c d : UInt8) (hflag : a &&& 0x80 ≠ 0) :
    (Header.ofBytes a b c d).toBytes = [a, b, c, d] := by
  have hw := Header.toNat_shared _ (Header.fits_ofBytes a b c d)
  have ha := a.toNat_lt
  have hb := b.toNat_lt
  have hc := c.toNat_lt
  have hd := d.toNat_lt
  have hlength := Header.toNat_ofBytes_length a b c d
  rw [Header.toNat_ofBytes_offset, hlength] at hw
  rw [Ne, Wire.and_flag_eq_zero, Nat.not_lt] at hflag
  have htype : 0x80 ||| (Header.ofBytes a b c d).payloadType = a := by
    change 0x80 ||| wireType a = a
    rw [← UInt8.toNat_inj, Wire.toNat_flag_or _ (wireType_lt a), wireType, Wire.toNat_and_low7]
    omega
  rw [Header.toBytes, htype, Wire.be16]
  -- The shared field is the second byte and the third, whole.
  set w := ((Header.ofBytes a b c d).offset <<< 2) ||| ((Header.ofBytes a b c d).length >>> 8)
  have hhigh : (w >>> 8).toUInt8 = b := by
    rw [← UInt8.toNat_inj, UInt16.toNat_toUInt8, UInt16.toNat_shiftRight, hw,
      show (8 : UInt16).toNat % 16 = 8 from rfl, Nat.shiftRight_eq_div_pow]
    omega
  have hlow : w.toUInt8 = c := by
    rw [← UInt8.toNat_inj, UInt16.toNat_toUInt8, hw]
    omega
  have hlast : (Header.ofBytes a b c d).length.toUInt8 = d := by
    rw [← UInt8.toNat_inj, UInt16.toNat_toUInt8, hlength]
    omega
  rw [hhigh, hlow, hlast]
  rfl

theorem readHeaders_more (expected : UInt8) (position : Nat) (a b c d : UInt8) (rest : Bytes)
    (hflag : a &&& 0x80 ≠ 0) :
    readHeaders expected position (a :: b :: c :: d :: rest)
      = (readHeaders expected (position + headerBytes) rest).map
          fun (later, body) => (Header.ofBytes a b c d :: later, body) := by
  rw [readHeaders, if_neg hflag]
  cases readHeaders expected (position + headerBytes) rest <;> rfl

theorem readHeaders_last (expected : UInt8) (position : Nat) (a : UInt8) (rest : Bytes)
    (hflag : a &&& 0x80 = 0) :
    readHeaders expected position (a :: rest)
      = if wireType a = wireType expected then .ok ([], rest)
        else .error (.unexpectedPayloadType (wireType expected) (wireType a)) := by
  unfold readHeaders
  rw [if_pos hflag]

/-- A flag with fewer than three bytes behind it announces a header that is not there. -/
theorem readHeaders_truncated (expected : UInt8) (position : Nat) (a : UInt8) (rest : Bytes)
    (hflag : a &&& 0x80 ≠ 0) (hshort : rest.length < 3) :
    readHeaders expected position (a :: rest) = .error (.truncatedHeader position) := by
  unfold readHeaders
  rw [if_neg hflag]
  match rest, hshort with
  | [], _ => rfl
  | [_], _ => rfl
  | [_, _], _ => rfl

/-- Headers that stand before other bytes are read first, and the reading goes on behind
    them. The position is carried along only for the sake of the error that tells where a
    header was cut off. -/
theorem readHeaders_append (expected : UInt8) (rest : Bytes) :
    ∀ (headers : List Header) (position : Nat), (∀ h ∈ headers, h.Fits) →
      readHeaders expected position (headers.flatMap Header.toBytes ++ rest)
        = (readHeaders expected (position + headerBytes * headers.length) rest).map
            fun (later, body) => (headers ++ later, body) := by
  intro headers
  induction headers with
  | nil =>
      intro position _
      rw [List.flatMap_nil, List.nil_append, List.length_nil, Nat.mul_zero, Nat.add_zero]
      cases readHeaders expected position rest <;> rfl
  | cons h headers ih =>
      intro position hfits
      rcases h.exists_toBytes (hfits h List.mem_cons_self) with ⟨a, b, c, d, hbytes, hflag, hread⟩
      -- A header that is not the last has four bytes, so the others begin four bytes on.
      have hrest := ih (position + headerBytes) fun h' hh => hfits h' (List.mem_cons_of_mem _ hh)
      have hposition : position + headerBytes * (h :: headers).length
          = position + headerBytes + headerBytes * headers.length := by
        rw [List.length_cons, Nat.mul_succ]
        omega
      have hcons : (h :: headers).flatMap Header.toBytes ++ rest
          = a :: b :: c :: d :: (headers.flatMap Header.toBytes ++ rest) := by
        rw [List.flatMap_cons, hbytes, List.append_assoc]
        rfl
      rw [hcons, readHeaders_more expected position a b c d _ hflag, hrest, hread, hposition]
      cases readHeaders expected (position + headerBytes + headerBytes * headers.length) rest <;>
        rfl

/-- The headers of a packet are read up to the last one, and what follows that is the body. -/
theorem readHeaders_toBytes (expected payloadType : UInt8) (body : Bytes)
    (hpt : wireType payloadType = wireType expected) (headers : List Header) (position : Nat)
    (hfits : ∀ h ∈ headers, h.Fits) :
    readHeaders expected position (headers.flatMap Header.toBytes ++ wireType payloadType :: body)
      = .ok (headers, body) := by
  -- The last header has its top bit clear, and ends the list.
  have hflag : wireType payloadType &&& 0x80 = 0 :=
    (Wire.and_flag_eq_zero _).mpr (wireType_lt payloadType)
  rw [readHeaders_append expected _ headers position hfits,
    readHeaders_last expected _ _ body hflag, if_pos (by rw [wireType_wireType, hpt])]
  simp only [Except.map, List.append_nil]

/-- Headers are read exactly from their bytes, followed by the one byte that ends them. From
    left to right by the recursion of the reader, since what it returns is built up on the
    way back. -/
theorem readHeaders_eq_ok_iff (expected : UInt8) (position : Nat) (data : Bytes)
    (headers : List Header) (body : Bytes) :
    readHeaders expected position data = .ok (headers, body) ↔
      (∀ h ∈ headers, h.Fits) ∧
        data = headers.flatMap Header.toBytes ++ wireType expected :: body := by
  constructor
  · fun_induction readHeaders expected position data generalizing headers with
    | case1 position => simp only [reduceCtorEq, false_implies]
    | case2 position a rest hflag htype =>
        intro h
        rw [Except.ok.injEq, Prod.mk.injEq] at h
        rcases h with ⟨rfl, rfl⟩
        rw [wireType_of_lt a ((Wire.and_flag_eq_zero a).mp hflag)] at htype
        exact ⟨List.forall_mem_nil _, by rw [htype]; rfl⟩
    | case3 position a rest hflag htype => simp only [reduceCtorEq, false_implies]
    | case4 position a hflag b c d rest ih =>
        intro h
        -- The headers behind this one have to be read as well.
        cases hlater : readHeaders expected (position + headerBytes) rest with
        | error error =>
            rw [hlater] at h
            simp only [bind, Except.bind, reduceCtorEq] at h
        | ok result =>
            rcases result with ⟨later, body'⟩
            rw [hlater] at h ih
            simp only [bind, Except.bind, pure, Except.pure, Except.ok.injEq, Prod.mk.injEq] at h
            rcases h with ⟨rfl, rfl⟩
            rcases ih later rfl with ⟨hfits, hrest⟩
            refine ⟨List.forall_mem_cons.mpr ⟨Header.fits_ofBytes a b c d, hfits⟩, ?_⟩
            rw [List.flatMap_cons, Header.toBytes_ofBytes a b c d hflag, List.append_assoc, ← hrest]
            rfl
    | case5 position a rest hflag hshort => simp only [reduceCtorEq, false_implies]
  · rintro ⟨hfits, rfl⟩
    exact readHeaders_toBytes expected expected body rfl headers position hfits

end Red

end RedundantAudio
