import RedundantAudio.Proofs.Opus.Layout

/-!
# Packets in a Stream

A packet alone ends where its bytes end, so several of them cannot stand behind
each other. With the size of the last frame in front of the frames they can:
the reader then knows where the packet ends, and looks at nothing behind that.

The two ways of writing a packet differ by the delimiter and by nothing else.
Putting it in turns a packet that stands alone into one that can be followed by
anything, and taking it out turns it back. Since both readers are known by what
they accept, neither of them has to be looked at here: it is enough that the
same `Framing` is written in both ways.

## Theorems

* `offsetsFrom_add`: Frames that begin later lie later.
* `length_delimitedPacket`: The packet ends where it says.
* `delimiting_agrees`: A delimiter is put in and taken out.
-/

namespace RedundantAudio

namespace Opus

/-- Frames that begin so much later are all that much further on. -/
theorem offsetsFrom_add (shift : Nat) :
    ∀ (sizes : List Nat) (start : Nat),
      offsetsFrom (start + shift) sizes = (offsetsFrom start sizes).map (· + shift) := by
  intro sizes
  induction sizes with
  | nil =>
      intro start
      rfl
  | cons size sizes ih =>
      intro start
      rw [offsetsFrom, offsetsFrom, List.map_cons, ← ih, Nat.add_right_comm]

namespace Framing

theorem length_delimitedPacket (f : Framing) :
    f.delimitedPacket.length = f.delimitedBytes.length := by
  simp only [Packet.length, delimitedPacket, packet, f.total_sizes, delimitedBytes,
    List.length_cons, List.length_append]
  omega

/-- In front of the payload stand the TOC byte and the fields. This is where a delimiter is
    put in. -/
theorem take_bytes (f : Framing) :
    f.bytes.take f.packet.payloadOffset = f.toc.byte :: f.fields := by
  rw [packet, Nat.add_comm, bytes, ← List.cons_append, ← List.length_cons (a := f.toc.byte)]
  exact List.take_left

theorem drop_bytes (f : Framing) :
    f.bytes.drop f.packet.payloadOffset = f.frames.flatten ++ f.padding := by
  rw [packet, Nat.add_comm, bytes, ← List.cons_append, ← List.length_cons (a := f.toc.byte)]
  exact List.drop_left

/-- The delimiter is read as the size of the last frame. -/
theorem decodeSize_delimiter (f : Framing) :
    decodeSize (sizeBytes f.lastSize) = some (f.lastSize, (sizeBytes f.lastSize).length) := by
  have hsmall := f.small _ (List.getLast_mem f.framed.frames_ne_nil)
  have hread := decodeSize_sizeBytes f.lastSize [] hsmall
  rwa [List.append_nil] at hread

end Framing

/-- With a delimiter put in, a packet that stands alone can be followed by anything; and a
    packet that can be followed by anything stands alone when its delimiter is taken out.
    Both readings are of one framing, whose frames the delimiter does not touch: it only
    moves them on by its own length, and tells where the packet ends. -/
theorem delimiting_agrees (data : Bytes) (p : Packet) :
    (Packet.parse data false = .ok p →
      ∃ last, p.frameSizes.getLast? = some last ∧
        decodeSize (sizeBytes last) = some (last, (sizeBytes last).length) ∧
        ∀ rest, ∃ q,
          Packet.parse (data.take p.payloadOffset ++ sizeBytes last
            ++ data.drop p.payloadOffset ++ rest) true = .ok q ∧
          q.frameSizes = p.frameSizes ∧
          q.payloadOffset = p.payloadOffset + (sizeBytes last).length ∧
          q.frameOffsets = p.frameOffsets.map (· + (sizeBytes last).length) ∧
          q.length = data.length + (sizeBytes last).length) ∧
    (Packet.parse data true = .ok p →
      p.length ≤ data.length ∧
      (∀ rest, Packet.parse (data.take p.length ++ rest) true = .ok p) ∧
      ∃ last front behind, p.frameSizes.getLast? = some last ∧
        decodeSize (sizeBytes last) = some (last, (sizeBytes last).length) ∧
        data.take p.length = front ++ sizeBytes last ++ behind ∧
        p.payloadOffset = front.length + (sizeBytes last).length ∧
        ∃ q, Packet.parse (front ++ behind) false = .ok q ∧ q.frameSizes = p.frameSizes) := by
  constructor
  · intro h
    rcases (parse_undelimited_iff data p).mp h with ⟨f, rfl, rfl⟩
    refine ⟨f.lastSize, f.getLast?_sizes, f.decodeSize_delimiter, fun rest => ?_⟩
    -- Put in front of the payload, the delimiter makes the delimited bytes.
    have hbytes : f.bytes.take f.packet.payloadOffset ++ sizeBytes f.lastSize
        ++ f.bytes.drop f.packet.payloadOffset ++ rest = f.delimitedBytes ++ rest := by
      rw [f.take_bytes, f.drop_bytes, Framing.delimitedBytes]
      simp only [List.cons_append, List.append_assoc]
    refine ⟨f.delimitedPacket, ?_, rfl, rfl, offsetsFrom_add _ _ _, ?_⟩
    · rw [hbytes]
      exact f.parse_delimitedBytes rest
    · rw [f.length_delimitedPacket, Framing.delimitedBytes, Framing.bytes]
      simp only [List.length_cons, List.length_append]
      omega
  · intro h
    rcases (parse_delimited_iff data p).mp h with ⟨f, rest, rfl, rfl⟩
    have hlength := f.length_delimitedPacket
    -- What was read is a framing, so the packet ends where its bytes do.
    have htake : (f.delimitedBytes ++ rest).take f.delimitedPacket.length = f.delimitedBytes := by
      rw [hlength]
      exact List.take_left
    refine ⟨?_, fun rest' => ?_, f.lastSize, f.toc.byte :: f.fields, f.frames.flatten ++ f.padding,
      f.getLast?_sizes, f.decodeSize_delimiter, ?_, ?_, f.packet, f.parse_bytes, rfl⟩
    · rw [hlength, List.length_append]
      exact Nat.le_add_right _ _
    · rw [htake]
      exact f.parse_delimitedBytes rest'
    · rw [htake, Framing.delimitedBytes, List.append_assoc]
      rfl
    · rw [List.length_cons, Framing.delimitedPacket, Nat.add_comm 1]

/-- The padded packet, alone and in a stream. Its last frame has three bytes, which is what
    the delimiter says in front of the frames, and three bytes of something else may follow. -/
theorem padded_delimited :
    Packet.parse [0x0B, 0xC3, 2, 1, 2, 0xA0, 0xB0, 0xB1, 0xC0, 0xC1, 0xC2, 0, 0] false
        = .ok paddedFraming.packet ∧
      (∃ q, Packet.parse
          [0x0B, 0xC3, 2, 1, 2, 3, 0xA0, 0xB0, 0xB1, 0xC0, 0xC1, 0xC2, 0, 0, 7, 7, 7] true
            = .ok q ∧ q.frameSizes = [1, 2, 3] ∧ q.length = 14) ∧
      ∀ rest, Packet.parse
        ([0x0B, 0xC3, 2, 1, 2, 3, 0xA0, 0xB0, 0xB1, 0xC0, 0xC1, 0xC2, 0, 0] ++ rest) true
          = .ok paddedFraming.delimitedPacket := by
  have halone : Packet.parse [0x0B, 0xC3, 2, 1, 2, 0xA0, 0xB0, 0xB1, 0xC0, 0xC1, 0xC2, 0, 0] false
      = .ok paddedFraming.packet := paddedFraming.parse_bytes
  have hfollowed : Packet.parse
      [0x0B, 0xC3, 2, 1, 2, 3, 0xA0, 0xB0, 0xB1, 0xC0, 0xC1, 0xC2, 0, 0, 7] true
        = .ok paddedFraming.delimitedPacket := paddedFraming.parse_delimitedBytes [7]
  rcases (delimiting_agrees _ _).1 halone with ⟨last, hlast, _, hput⟩
  cases hlast
  rcases hput [7, 7, 7] with ⟨q, hread, hsizes, _, _, hlength⟩
  exact ⟨halone, ⟨q, hread, hsizes, hlength⟩, ((delimiting_agrees _ _).2 hfollowed).2.1⟩

end Opus

end RedundantAudio
