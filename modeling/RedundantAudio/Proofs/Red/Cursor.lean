import RedundantAudio.Proofs.Red.Packet

/-!
# Reading with a Cursor

A packet can be taken apart in place, without lists of what is left of it: a
position walks over the headers, a sum of its own keeps account of what they
announce, and the bodies are slices between positions. That is how memory is
read, and what makes it delicate is that nothing but the sum stands between
the last header and a slice beyond the end.

Here every access asks whether it is in range, and the whole reading has no
result as soon as one is not. `decode_eq` says that this never happens, on any
bytes, and that the reading in place gives what `Red.decode` does. The sum
accounts for the bytes up to the position and for all bodies announced, so the
one comparison at the last header covers every slice behind it.

## Main definitions

* `slice`: Some bytes from a position on.
* `walk`: The headers, and where they end.
* `cutAt`: The blocks behind them.
* `decode`: A packet taken apart in place.

## Theorems

* `walk_eq`: The walk reads the headers, and keeps account of them.
* `cutAt_eq`: The slices are in range, if the account says so.
* `decode_eq`: No access is out of range.
-/

namespace RedundantAudio

namespace Red

namespace Cursor

/-- So many bytes from a position on, if they are there. -/
def slice (data : Bytes) (position length : Nat) : Option Bytes :=
  if position + length ≤ data.length then some ((data.drop position).take length) else none

/-- Walks over the headers from a position on. What the headers before it
    amount to, with their bodies, is accounted for. -/
def walk (data : Bytes) (expected : UInt8) (position accounted : Nat) :
    Option (Except Error (List Header × Nat)) :=
  if position < data.length then do
    let a ← data[position]?
    if a &&& 0x80 = 0 then
      if wireType a ≠ wireType expected then
        return .error (.unexpectedPayloadType (wireType expected) (wireType a))
      else if data.length ≤ accounted + primaryHeaderBytes then
        return .error .blockLengthOverrun
      else return .ok ([], position + primaryHeaderBytes)
    else if data.length - position < headerBytes then
      return .error (.truncatedHeader position)
    else
      let b ← data[position + 1]?
      let c ← data[position + 2]?
      let d ← data[position + 3]?
      let header := Header.ofBytes a b c d
      let later ← walk data expected (position + headerBytes)
        (accounted + headerBytes + header.length.toNat)
      return later.map fun (headers, stop) => (header :: headers, stop)
  else return .error .missingPrimaryBlock
termination_by data.length - position
decreasing_by
  change data.length - (position + 4) < data.length - position
  omega

/-- Cuts the blocks out from a position on, and takes the rest as the
    primary. -/
def cutAt (data : Bytes) (timestamp : UInt32) (payloadType : UInt8) :
    (position : Nat) → List Header → Option (List Block)
  | position, [] => do
    let payload ← slice data position (data.length - position)
    return [{ isLast := true, payloadType, offset := 0, timestamp, payload, hasFec := false }]
  | position, h :: headers => do
    let payload ← slice data position h.length.toNat
    let blocks ← cutAt data timestamp payloadType (position + h.length.toNat) headers
    return { isLast := false
             payloadType := h.payloadType
             offset := h.offset
             timestamp := timestamp - h.offset.toUInt32
             payload
             hasFec := false } :: blocks

/-- Takes a packet apart in place. -/
def decode (timestamp : UInt32) (data : Bytes) (expected : UInt8) :
    Option (Except Error (List Block)) := do
  match ← walk data expected 0 0 with
  | .error error => return .error error
  | .ok (headers, position) =>
    let blocks ← cutAt data timestamp (wireType expected) position headers
    return .ok blocks

theorem slice_eq (data : Bytes) (position length : Nat)
    (h : position + length ≤ data.length) :
    slice data position length = some ((data.drop position).take length) :=
  if_pos h

/-- What the walk finds, told by what is left of the packet. -/
def found (data : Bytes) (accounted : Nat) :
    Except Error (List Header × Bytes) → Except Error (List Header × Nat)
  | .error error => .error error
  | .ok (headers, body) =>
    if data.length ≤ accounted + headerBytes * headers.length
        + Wire.total (headers.map fun h => h.length.toNat) + primaryHeaderBytes then
      .error .blockLengthOverrun
    else .ok (headers, data.length - body.length)

/-- One more header adds itself and its body to the account. The cursor keeps a running sum
    where the reader compares lengths in the end, and this is the step of that comparison. -/
theorem found_more (data : Bytes) (accounted : Nat) (header : Header)
    (later : Except Error (List Header × Bytes)) :
    (found data (accounted + headerBytes + header.length.toNat) later).map
        (fun (headers, stop) => (header :: headers, stop))
      = found data accounted do
          let (headers, body) ← later
          return (header :: headers, body) := by
  cases later with
  | error error => rfl
  | ok result =>
      rcases result with ⟨headers, body⟩
      -- The first header and its block may be counted before the others or together with
      -- them.
      have haccount : accounted + headerBytes + header.length.toNat
            + headerBytes * headers.length + Wire.total (headers.map fun h => h.length.toNat)
          = accounted + headerBytes * (header :: headers).length
            + Wire.total ((header :: headers).map fun h => h.length.toNat) := by
        rw [List.length_cons, List.map_cons, Wire.total, Nat.mul_succ]
        omega
      simp only [found, haccount, bind, Except.bind, pure, Except.pure]
      split <;> rfl

/-- Where bytes are left behind a position, an access to one of them is in
    range. -/
theorem getElem?_of_drop {data rest : Bytes} {position : Nat} (h : data.drop position = rest)
    (i : Nat) : data[position + i]? = rest[i]? := by
  rw [← h, List.getElem?_drop]

/-- At a header, the checked walk finds what the reader of headers finds in the bytes that
    are left, for whatever was accounted for so far. By the recursion of the reader: each of
    its cases is one branch of the walk. -/
theorem walk_eq (data : Bytes) (expected : UInt8) (position : Nat) (rest : Bytes) :
    ∀ accounted, data.drop position = rest → position + rest.length = data.length →
      walk data expected position accounted
        = some (found data accounted (readHeaders expected position rest)) := by
  fun_induction readHeaders expected position rest with
  | case1 position =>
      intro accounted _ hlength
      -- No byte is left, so the walk is past the end.
      have hend : ¬ position < data.length := by
        rw [List.length_nil] at hlength
        omega
      rw [walk, if_neg hend]
      rfl
  | case2 position a rest hflag htype =>
      intro accounted hrest hlength
      have ha : data[position]? = some a := getElem?_of_drop hrest 0
      rw [List.length_cons] at hlength
      -- The walk stops where the bytes behind the last header begin.
      have hstop : position + primaryHeaderBytes = data.length - rest.length := by
        change position + 1 = _
        omega
      rw [walk, if_pos (by omega), ha]
      simp only [Option.bind_eq_bind, Option.bind_some, hflag, if_true, htype, ne_eq,
        not_true_eq_false, if_false, found, List.length_nil, Nat.mul_zero, Nat.add_zero,
        List.map_nil, Wire.total, hstop]
      split <;> rfl
  | case3 position a rest hflag htype =>
      intro accounted hrest hlength
      have ha : data[position]? = some a := getElem?_of_drop hrest 0
      rw [List.length_cons] at hlength
      rw [walk, if_pos (by omega), ha]
      simp only [Option.bind_eq_bind, Option.bind_some, hflag, if_true, htype, ne_eq,
        not_false_eq_true, found]
      rfl
  | case4 position a hflag b c d rest ih =>
      -- The accesses to a whole header are in range, as its bytes are there.
      intro accounted hrest hlength
      have ha : data[position]? = some a := getElem?_of_drop hrest 0
      have hb : data[position + 1]? = some b := getElem?_of_drop hrest 1
      have hc : data[position + 2]? = some c := getElem?_of_drop hrest 2
      have hd : data[position + 3]? = some d := getElem?_of_drop hrest 3
      have hrest' : data.drop (position + headerBytes) = rest := by
        rw [← List.drop_drop, hrest]
        rfl
      simp only [List.length_cons] at hlength
      have henough : ¬ data.length - position < headerBytes := by
        change ¬ _ < 4
        omega
      have hlater := ih (accounted + headerBytes + (Header.ofBytes a b c d).length.toNat) hrest' (by
        change position + 4 + _ = _
        omega)
      rw [walk, if_pos (by omega), ha]
      simp only [Option.bind_eq_bind, Option.bind_some, hflag, if_false, henough, hb, hc, hd,
        hlater]
      exact congrArg some (found_more data accounted _ _)
  | case5 position a rest hflag hshort =>
      -- Only the first byte of the header is read before the walk gives up.
      intro accounted hrest hlength
      have ha : data[position]? = some a := getElem?_of_drop hrest 0
      have hbroken : data.length - position < headerBytes := by
        change _ < 4
        rw [List.length_cons] at hlength
        have hfew : rest.length < 3 := by
          rcases rest with _ | ⟨b, _ | ⟨c, _ | ⟨d, rest⟩⟩⟩
          · exact Nat.succ_pos 2
          · exact Nat.lt_add_right 1 (Nat.lt_succ_self 1)
          · exact Nat.lt_succ_self 2
          · exact (hshort b c d rest rfl).elim
        omega
      rw [List.length_cons] at hlength
      rw [walk, if_pos (by omega), ha]
      simp only [Option.bind_eq_bind, Option.bind_some, hflag, if_false, hbroken, if_true, found]
      rfl

/-- Where the announced lengths are in range, the blocks are cut out in place as they are
    from the bytes that are left. The reader cuts from a list that it shortens; positions in
    the packet are what has been cut off so far. -/
theorem cutAt_eq (data : Bytes) (timestamp : UInt32) (payloadType : UInt8) :
    ∀ (headers : List Header) (position : Nat),
      position + Wire.total (headers.map fun h => h.length.toNat) ≤ data.length →
      cutAt data timestamp payloadType position headers
        = some (cutBlocks timestamp payloadType headers (data.drop position)) := by
  intro headers
  induction headers with
  | nil =>
      intro position hroom
      rw [List.map_nil, Wire.total, Nat.add_zero] at hroom
      -- The primary is everything from its position to the end.
      have hall : (data.drop position).take (data.length - position) = data.drop position := by
        rw [← List.length_drop, List.take_length]
      rw [cutAt, slice_eq data position _ (by omega), hall]
      rfl
  | cons h headers ih =>
      intro position hroom
      rw [List.map_cons, Wire.total] at hroom
      rw [cutAt, slice_eq data position _ (by omega), ih (position + h.length.toNat) (by omega),
        cutBlocks, List.drop_drop]
      rfl

/-- On any bytes, no access is out of range, and the bytes are taken apart as without a
    cursor. The walk does not fail as it asks for the room before each access, and the
    cutting does not since the walk has compared the sum of all lengths with the packet. -/
theorem decode_eq (timestamp : UInt32) (data : Bytes) (expected : UInt8) :
    decode timestamp data expected = some (Red.decode timestamp data expected) := by
  have hwalk := walk_eq data expected 0 data 0 rfl (Nat.zero_add _)
  rw [decode, hwalk]
  unfold Red.decode
  cases hread : readHeaders expected 0 data with
  | error error => rfl
  | ok result =>
      rcases result with ⟨headers, body⟩
      have hdata := ((readHeaders_eq_ok_iff expected 0 data headers body).mp hread).2
      have hlength : data.length = headerBytes * headers.length + 1 + body.length := by
        rw [hdata, List.length_append, length_headers, List.length_cons]
        omega
      have hbody : data.drop (data.length - body.length) = body := by
        -- In front of the body stand the headers and the one byte that ends them.
        have hstop : data.length - body.length
            = (headers.flatMap Header.toBytes ++ [wireType expected]).length := by
          rw [List.length_append, length_headers, hlength, List.length_singleton]
          omega
        rw [hstop, hdata, List.append_cons _ _ body, List.drop_left]
      -- The sum at the last header says the same as the length of what is left.
      have haccount : data.length ≤ 0 + headerBytes * headers.length
            + Wire.total (headers.map fun h => h.length.toNat) + primaryHeaderBytes ↔
          body.length ≤ Wire.total (headers.map fun h => h.length.toNat) := by
        rw [hlength]
        change _ ≤ _ + 1 ↔ _
        omega
      simp only [found, haccount, Option.bind_some, bind, Except.bind, pure,
        Except.pure]
      by_cases hroom : body.length ≤ Wire.total (headers.map fun h => h.length.toNat)
      · simp only [if_pos hroom]
        rfl
      · have hcut := cutAt_eq data timestamp (wireType expected) headers
          (data.length - body.length) (by omega)
        rw [hbody] at hcut
        simp only [if_neg hroom, hcut, Option.bind_some]

end Cursor

end Red

end RedundantAudio
