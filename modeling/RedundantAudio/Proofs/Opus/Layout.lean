import RedundantAudio.Proofs.Opus.Framing

/-!
# Where Frames Lie

A packet reports the sizes of its frames and the place of the first one. The
other places are sums, so consecutive frames touch. What has to be shown is
that the bytes at these places are the frames that the packet was framed from,
and that they end where the padding begins.

That comes down to one induction over the frames. What stands in front of the
first frame is arbitrary, and grows by a frame at each turn.

## Theorems

* `slices_offsetsFrom`: The bytes at consecutive places are the pieces.
* `isChain_offsetsFrom`: Each piece begins where the one before it ends.
* `in_range_offsetsFrom`: All pieces lie within their sum.
* `parse_accepts_framing`: Reading follows the grammar and reports its frames.
-/

namespace RedundantAudio

namespace Opus

/-- Cut out of the packet at the offsets that are told, the frames are what they were. What
    stands in front of them grows along the list, which is why it is general. -/
theorem slices_offsetsFrom (behind : Bytes) :
    ∀ (frames : List Bytes) (front : Bytes),
      ((offsetsFrom front.length (frames.map List.length)).zip (frames.map List.length)).map
        (fun a => ((front ++ (frames.flatten ++ behind)).drop a.1).take a.2) = frames := by
  intro frames
  induction frames with
  | nil =>
      intro front
      rfl
  | cons a frames ih =>
      intro front
      -- The first frame joins what stands in front of the others.
      have hrest := ih (front ++ a)
      rw [List.length_append, List.append_assoc] at hrest
      simp only [List.map_cons, offsetsFrom, List.zip_cons_cons, List.flatten_cons,
        List.append_assoc, List.drop_left, List.take_left]
      rw [hrest]

/-- Each frame begins where the one before ends. -/
theorem isChain_offsetsFrom :
    ∀ (sizes : List Nat) (start : Nat),
      ((offsetsFrom start sizes).zip sizes).IsChain fun a b => b.1 = a.1 + a.2 := by
  intro sizes
  induction sizes with
  | nil =>
      intro start
      exact .nil
  | cons size sizes ih =>
      intro start
      cases sizes with
      | nil => exact .singleton _
      | cons next sizes => exact .cons_cons rfl (ih (start + size))

/-- No frame reaches beyond the sum of their sizes. So it is enough to know that the sum
    fits into the packet, and no frame has to be looked at alone. -/
theorem in_range_offsetsFrom :
    ∀ (sizes : List Nat) (start : Nat), ∀ a ∈ (offsetsFrom start sizes).zip sizes,
      a.1 + a.2 ≤ start + Wire.total sizes := by
  intro sizes
  induction sizes with
  | nil =>
      intro start
      exact List.forall_mem_nil _
  | cons size sizes ih =>
      intro start
      simp only [offsetsFrom, List.zip_cons_cons, Wire.total]
      refine List.forall_mem_cons.mpr ⟨by omega, fun a ha => ?_⟩
      have hrest := ih (start + size) a ha
      omega

theorem Framing.length_packet (f : Framing) : f.packet.length = f.bytes.length := by
  simp only [Packet.length, packet, f.total_sizes, bytes, List.length_cons, List.length_append]
  omega

theorem Framing.head?_frameOffsets (f : Framing) :
    f.packet.frameOffsets.head? = some f.packet.payloadOffset := by
  -- There is a first frame, as there is at least one.
  obtain ⟨a, frames, hframes⟩ := List.exists_cons_of_ne_nil f.framed.frames_ne_nil
  simp only [Packet.frameOffsets, packet, hframes, List.map_cons, offsetsFrom, List.head?_cons]

theorem Framing.slices (f : Framing) :
    f.packet.frames.map (fun a => (f.bytes.drop a.1).take a.2) = f.frames := by
  -- In front of the frames stand the TOC byte and the fields.
  have hslices := slices_offsetsFrom f.padding f.frames (f.toc.byte :: f.fields)
  rw [List.length_cons, Nat.add_comm] at hslices
  exact hslices

/-- Reading accepts the packets of the grammar and no others, and reports where their frames
    are: the first one behind the fields, each of the others where the one before it ends,
    and the padding behind the last. Cut out there, the frames are those of the grammar. -/
theorem parse_accepts_framing (data : Bytes) (p : Packet) :
    (Packet.parse data false = .ok p ↔ ∃ f : Framing, f.bytes = data ∧ f.packet = p) ∧
      ∀ f : Framing, f.bytes = data → f.packet = p →
        p.frames.map (fun a => (data.drop a.1).take a.2) = f.frames ∧
        p.frameOffsets.head? = some p.payloadOffset ∧
        p.frames.IsChain (fun a b => b.1 = a.1 + a.2) ∧
        (∀ a ∈ p.frames, a.1 + a.2 ≤ data.length) ∧
        p.payloadOffset + Wire.total p.frameSizes + p.padding = p.length ∧
        p.length = data.length := by
  refine ⟨parse_undelimited_iff data p, ?_⟩
  rintro f rfl rfl
  have hlength := f.length_packet
  refine ⟨f.slices, f.head?_frameOffsets, isChain_offsetsFrom _ _, fun a ha => ?_, rfl, hlength⟩
  -- The frames end where the padding begins, which is no later than the packet ends.
  have hrange := in_range_offsetsFrom _ _ a ha
  rw [← hlength, Packet.length]
  omega

/-- Three frames of 20 ms and different sizes, with two bytes of padding. -/
def paddedFraming : Framing where
  toc := ⟨0x0B⟩
  fields := [0xC3, 2, 1, 2]
  frames := [[0xA0], [0xB0, 0xB1], [0xC0, 0xC1, 0xC2]]
  padding := [0, 0]
  framed := .countedSized 0xC3 [2] [[0xA0], [0xB0, 0xB1]] [0xC0, 0xC1, 0xC2] [0, 0] (by decide)
    ⟨by decide, by decide, by decide⟩ (by decide) (.last 2 (by decide))
  small := by decide

/-- The padded packet is read, and its frames are where it says. The two bytes at its end
    are part of the packet, but of no frame. -/
theorem padded_accepted :
    Packet.parse [0x0B, 0xC3, 2, 1, 2, 0xA0, 0xB0, 0xB1, 0xC0, 0xC1, 0xC2, 0, 0] false
        = .ok paddedFraming.packet ∧
      paddedFraming.packet.frames = [(5, 1), (6, 2), (8, 3)] ∧
      paddedFraming.packet.frames.map (fun a => (paddedFraming.bytes.drop a.1).take a.2)
        = [[0xA0], [0xB0, 0xB1], [0xC0, 0xC1, 0xC2]] := by
  have h := parse_accepts_framing
    [0x0B, 0xC3, 2, 1, 2, 0xA0, 0xB0, 0xB1, 0xC0, 0xC1, 0xC2, 0, 0] paddedFraming.packet
  exact ⟨h.1.mpr ⟨paddedFraming, rfl, rfl⟩, rfl, (h.2 paddedFraming rfl rfl).1⟩

end Opus

end RedundantAudio
