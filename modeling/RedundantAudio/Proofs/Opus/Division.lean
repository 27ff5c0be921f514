import Mathlib.Tactic.IntervalCases
import RedundantAudio.Proofs.Opus.Fields

/-!
# The Grammar of Framing

What may stand between the TOC byte and the frames, and which frames may follow
it. `Framed` has one constructor for each way of dividing a packet, with the
packets that carry a count byte told apart by whether their frames have one
size. It speaks of fields, frames and padding as bytes and says nothing about
how any of them is found.

The reader finds the fields first and has no frames to look at yet. What it
knows then is a `Division`, and all that the fields leave open is the size of
the last frame: `Division.sizes` gives the size of every frame from it. So the
reader's half of the grammar is about all frames of those sizes at once
(`Announced`), and the other half is about given frames whose sizes come out of
the division that is read (`read_framed`).

Both halves read the fields in front of any bytes that are long enough. The
packet that ends with its padding and the one that is followed by others are
then two cases of the same thing.

## Main definitions

* `Counted`: A count byte that allows a number of frames.
* `PaddingField`: The bytes that announce padding.
* `Framed`: The fields in front of some frames, and the padding behind them.
* `Division.sizes`: The size of every frame, given that of the last one.
* `Announced`: What fields say about all frames that may follow them.

## Theorems

* `samplesPerFrame_le`: No frame is longer than 60 ms.
* `announced_of_read`: What is read was announced in front.
* `read_framed`: The fields in front of frames are read.
-/

namespace RedundantAudio

namespace Opus

/-- A count byte that says so many frames, which are not too many for the
    duration of each. -/
structure Counted (toc : Toc) (countByte : UInt8) (count : Nat) : Prop where
  count_eq : countByte.toNat % 64 = count
  one_le : 1 ≤ count
  duration_le : count * (toc.samplesPerFrame 48000).toNat ≤ 5760

/-- The bytes that announce padding. There are none if the count byte says that
    there is no padding. -/
def PaddingField (countByte : UInt8) (counts : Bytes) (padding : Nat) : Prop :=
  if countByte &&& 0x40 = 0 then counts = [] ∧ padding = 0 else PaddingCounts counts padding

/-- The fields that stand between the TOC byte and some frames, with padding
    behind those. -/
inductive Framed (toc : Toc) : (fields : Bytes) → (frames : List Bytes) → (padding : Bytes) → Prop
  /-- One frame. -/
  | one (a : Bytes) (hcode : toc.frameCountCode = .one) : Framed toc [] [a] []
  /-- Two frames of one size. -/
  | twoEqual (a b : Bytes) (hcode : toc.frameCountCode = .twoEqual)
      (hequal : a.length = b.length) : Framed toc [] [a, b] []
  /-- The size of the first of two frames. -/
  | twoSized (a b : Bytes) (hcode : toc.frameCountCode = .twoSized) :
      Framed toc (sizeBytes a.length) [a, b] []
  /-- A count byte, for frames of one size. -/
  | countedEqual (countByte : UInt8) (counts : Bytes) (frames : List Bytes) (padding : Bytes)
      (size : Nat) (hcode : toc.frameCountCode = .counted)
      (hcount : Counted toc countByte frames.length) (hflag : countByte &&& 0x80 = 0)
      (hpadding : PaddingField countByte counts padding.length)
      (hequal : ∀ a ∈ frames, a.length = size) :
      Framed toc (countByte :: counts) frames padding
  /-- A count byte, and the sizes of all frames but the last one. -/
  | countedSized (countByte : UInt8) (counts : Bytes) (frames : List Bytes) (last padding : Bytes)
      (hcode : toc.frameCountCode = .counted)
      (hcount : Counted toc countByte (frames ++ [last]).length)
      (hflag : countByte &&& 0x80 ≠ 0)
      (hpadding : PaddingField countByte counts padding.length) :
      Framed toc (countByte :: (counts ++ frames.flatMap fun a => sizeBytes a.length))
        (frames ++ [last]) padding

/-- There are frames in every packet. -/
theorem Framed.frames_ne_nil {toc : Toc} {fields : Bytes} {frames : List Bytes} {padding : Bytes}
    (h : Framed toc fields frames padding) : frames ≠ [] := by
  cases h with
  | one a hcode => exact List.cons_ne_nil _ _
  | twoEqual a b hcode hequal => exact List.cons_ne_nil _ _
  | twoSized a b hcode => exact List.cons_ne_nil _ _
  | countedEqual countByte counts frames padding size hcode hcount =>
      exact List.length_pos_iff.mp hcount.one_le
  | countedSized => exact List.concat_ne_nil _ _

/-! ### Durations -/

theorem durationIndex_lt (t : Toc) : t.durationIndex < 4 :=
  Nat.mod_lt _ (Nat.succ_pos 3)

/-- No frame is longer than 60 ms. There are four durations for each kind of coding and few
    kinds, so they are gone through, with the rate put in. -/
theorem samplesPerFrame_le (t : Toc) : (t.samplesPerFrame 48000).toNat ≤ 2880 := by
  have hindex := durationIndex_lt t
  have hrate : (48000 : UInt32).toNat = 48000 := rfl
  rw [Toc.samplesPerFrame, hrate]
  generalize t.durationIndex = k at hindex
  -- Four durations for each of the two modes that have so many.
  have hcelt : (UInt32.ofNat (48000 * Nat.pow 2 k / 400)).toNat ≤ 2880 := by
    interval_cases k <;> decide
  have hsilk (hk : k ≠ 3) : (UInt32.ofNat (48000 * Nat.pow 2 k / 100)).toNat ≤ 2880 := by
    have hlow : k < 3 := by omega
    interval_cases k <;> decide
  split
  · exact hcelt
  · split
    · split <;> decide
    · split
      · decide
      · next hk => exact hsilk hk

/-- The duration of all frames is told without wrapping. The reader multiplies in 32 bits,
    and the count comes from six bits of a byte, so the product is small. -/
theorem duration_le_iff (toc : Toc) (count : Nat) (h : count < 64) :
    ¬ toc.samplesPerFrame 48000 * .ofNat count > maxPacketSamples ↔
      count * (toc.samplesPerFrame 48000).toNat ≤ 5760 := by
  have hone := samplesPerFrame_le toc
  have hcount : (UInt32.ofNat count).toNat = count :=
    UInt32.toNat_ofNat_of_lt' (by change _ < 4294967296; omega)
  -- At most 63 frames of at most 60 ms stay far below the range of a counter.
  have hproduct : count * (toc.samplesPerFrame 48000).toNat ≤ 63 * 2880 :=
    Nat.mul_le_mul (by omega) hone
  rw [gt_iff_lt, UInt32.lt_iff_toNat_lt, UInt32.toNat_mul, hcount, Nat.mul_comm,
    Nat.mod_eq_of_lt (by omega)]
  exact Nat.not_lt

/-! ### Reading the fields -/

/-- The padding that is read is what a chain of counts says, or none where the flag is not
    set. It has to fit behind the counts, which is what makes the body in front of it well
    defined. -/
theorem padding_eq_ok_iff (countByte : UInt8) (data : Bytes) (padding : Nat) (rest : Bytes) :
    (if (countByte &&& 0x40 != 0) = true then readPadding 0 data else pure (0, data))
        = .ok (padding, rest) ↔
      ∃ counts, PaddingField countByte counts padding ∧ data = counts ++ rest ∧
        padding ≤ rest.length := by
  simp only [PaddingField]
  by_cases hflag : countByte &&& 0x40 = 0
  · -- There is nothing to read, and nothing is read.
    simp only [hflag, bne_self_eq_false, Bool.false_eq_true, if_false, if_true]
    constructor
    · intro h
      cases h
      exact ⟨[], ⟨rfl, rfl⟩, rfl, Nat.zero_le _⟩
    · rintro ⟨counts, ⟨rfl, rfl⟩, rfl, _⟩
      rfl
  · have hset : (countByte &&& 0x40 != 0) = true := bne_iff_ne.mpr hflag
    simp only [hset, if_true, hflag, if_false]
    exact readPadding_eq_ok_iff data padding rest

theorem take_sub_length (front ending : Bytes) :
    (front ++ ending).take ((front ++ ending).length - ending.length) = front := by
  rw [List.length_append, Nat.add_sub_cancel, List.take_left]

/-- What a count byte and the fields behind it are read as. The padding is set aside first,
    so that the sizes are read in front of it; what is left between counts and padding is
    the body, or begins with the sizes. All checks of the reader come back as conditions. -/
theorem readCounted_eq_ok_iff (toc : Toc) (countByte : UInt8) (rest : Bytes) (d : Division) :
    Division.readCounted toc (countByte :: rest) = .ok d ↔
      Counted toc countByte d.count ∧
        ∃ counts front ending, PaddingField countByte counts d.padding ∧
          rest = counts ++ (front ++ ending) ∧ ending.length = d.padding ∧
          if countByte &&& 0x80 = 0 then d.equal = true ∧ d.given = [] ∧ d.body = front
          else d.equal = false ∧ takeSizes (d.count - 1) front = .ok (d.given, d.body) ∧
            Wire.total d.given ≤ d.body.length := by
  have hlt : countByte.toNat % 64 < 64 := Nat.mod_lt _ (Nat.succ_pos 63)
  simp only [Division.readCounted, refusal_eq_ok_iff, ite_bind_eq_ok_iff, padding_eq_ok_iff,
    duration_le_iff toc _ hlt, Prod.exists]
  constructor
  · rintro ⟨hzero, hduration, padding, behind, ⟨counts, hpadding, rfl, hroom⟩, hread⟩
    -- What lies behind the counts ends with the padding.
    obtain ⟨front, ending, rfl, rfl⟩ :
        ∃ front ending, behind = front ++ ending ∧ ending.length = padding :=
      ⟨behind.take (behind.length - padding), behind.drop (behind.length - padding),
        (List.take_append_drop _ _).symm, by rw [List.length_drop]; omega⟩
    rw [take_sub_length] at hread
    by_cases hflag : countByte &&& 0x80 = 0
    · simp only [if_pos hflag] at hread ⊢
      cases hread
      exact ⟨⟨rfl, Nat.pos_of_ne_zero hzero, hduration⟩, counts, front, ending, hpadding, rfl, rfl,
        rfl, rfl, rfl⟩
    · simp only [if_neg hflag, bind_eq_ok_iff, refusal_eq_ok_iff, Prod.exists] at hread ⊢
      rcases hread with ⟨given, body, hsizes, hleft, hread⟩
      cases hread
      exact ⟨⟨rfl, Nat.pos_of_ne_zero hzero, hduration⟩, counts, front, ending, hpadding, rfl, rfl,
        rfl, hsizes, Nat.le_of_not_lt hleft⟩
  · rintro ⟨⟨hcount, hpos, hduration⟩, counts, front, ending, hpadding, rfl, hending, hread⟩
    rw [hcount]
    refine ⟨Nat.ne_of_gt hpos, hduration, d.padding, front ++ ending,
      ⟨counts, hpadding, rfl, ?_⟩, ?_⟩
    · rw [List.length_append, hending]
      exact Nat.le_add_left _ _
    · rw [← hending, take_sub_length, hending]
      by_cases hflag : countByte &&& 0x80 = 0
      · rw [if_pos hflag] at hread ⊢
        rcases hread with ⟨hequal, hgiven, hbody⟩
        rw [← hequal, ← hgiven, ← hbody]
        rfl
      · simp only [if_neg hflag, bind_eq_ok_iff, refusal_eq_ok_iff, Prod.exists] at hread ⊢
        rcases hread with ⟨hequal, hsizes, hleft⟩
        refine ⟨d.given, d.body, hsizes, Nat.not_lt.mpr hleft, ?_⟩
        rw [← hequal]
        rfl

/-- The size of every frame, given that of the last one. -/
def Division.sizes (d : Division) (last : Nat) : List Nat :=
  if d.equal then List.replicate d.count last else d.given ++ [last]

/-- What fields say about the frames that may follow them. Whatever the last
    frame is like, frames of the sizes that this leads to are framed by these
    fields. -/
structure Announced (toc : Toc) (fields : Bytes) (d : Division) : Prop where
  count_pos : 0 < d.count
  given_small : ∀ size ∈ d.given, size ≤ maxFrameBytes
  framed : ∀ (frames : List Bytes) (padding : Bytes) (last : Nat),
    frames.map List.length = d.sizes last → padding.length = d.padding →
      Framed toc fields frames padding

/-- Fields with a count byte that were read announce frames. Which of the two forms they
    have is told by a flag, and each form is one constructor of the grammar. Nothing has
    been said about the last frame yet, so any frames of the announced sizes will do. -/
theorem announced_of_readCounted (toc : Toc) (countByte : UInt8) (rest : Bytes) (d : Division)
    (hcode : toc.frameCountCode = .counted)
    (h : Division.readCounted toc (countByte :: rest) = .ok d) :
    ∃ fields ending, countByte :: rest = fields ++ (d.body ++ ending) ∧
      ending.length = d.padding ∧ Wire.total d.given ≤ d.body.length ∧
      Announced toc fields d := by
  rcases (readCounted_eq_ok_iff toc countByte rest d).mp h with
    ⟨hcount, counts, behind, ending, hpadding, rfl, hending, hread⟩
  by_cases hflag : countByte &&& 0x80 = 0
  · rw [if_pos hflag] at hread
    rcases hread with ⟨hequal, hgiven, rfl⟩
    refine ⟨countByte :: counts, ending, rfl, hending, ?_, hcount.one_le, ?_, ?_⟩
    · rw [hgiven]
      exact Nat.zero_le _
    · rw [hgiven]
      exact List.forall_mem_nil _
    · intro frames padding last hframes hlength
      rw [Division.sizes, if_pos hequal] at hframes
      -- Whoever provides frames of these sizes provides as many as were counted.
      have hnumber : frames.length = d.count := by
        rw [← List.length_map List.length, hframes, List.length_replicate]
      refine .countedEqual countByte counts frames padding last hcode ?_ hflag ?_ ?_
      · rwa [hnumber]
      · rwa [hlength]
      · intro a ha
        have hmem : a.length ∈ frames.map List.length := List.mem_map_of_mem ha
        rw [hframes] at hmem
        exact List.eq_of_mem_replicate hmem
  · rw [if_neg hflag] at hread
    rcases hread with ⟨hequal, hsizes, hleft⟩
    rcases eq_append_of_takeSizes _ _ _ _ hsizes with ⟨hgiven, hsmall, rfl⟩
    refine ⟨countByte :: (counts ++ d.given.flatMap sizeBytes), ending, ?_, hending, hleft,
      hcount.one_le, hsmall, ?_⟩
    · simp only [List.cons_append, List.append_assoc]
    · intro frames padding last hframes hlength
      rw [Division.sizes, if_neg (by rw [hequal]; exact Bool.false_ne_true)] at hframes
      -- The frames are those whose sizes are given, and one more.
      rcases List.map_eq_append_iff.mp hframes with ⟨init, end', rfl, hinit, hend⟩
      rcases List.map_eq_singleton_iff.mp hend with ⟨a, rfl, _⟩
      have hfields : d.given.flatMap sizeBytes = init.flatMap fun a => sizeBytes a.length := by
        rw [← hinit, List.flatMap_map]
      have hone := hcount.one_le
      have hnumber : (init ++ [a]).length = d.count := by
        rw [List.length_append, List.length_singleton, ← List.length_map List.length, hinit, hgiven]
        omega
      rw [hfields]
      refine .countedSized countByte counts init a padding hcode ?_ hflag ?_
      · rwa [hnumber]
      · rwa [hlength]

/-- Whatever is read in front of some bytes, fields that announce it stand there. One case
    for each of the four codes: two of them have no field at all, one has a size, and one
    has a count byte. Together with `read_framed` this makes the reader of fields exact. -/
theorem announced_of_read (toc : Toc) (data : Bytes) (d : Division)
    (h : Division.read toc data = .ok d) :
    ∃ fields ending, data = fields ++ (d.body ++ ending) ∧ ending.length = d.padding ∧
      Wire.total d.given ≤ d.body.length ∧ Announced toc fields d := by
  rw [Division.read] at h
  cases hcode : toc.frameCountCode with
  | one =>
      simp only [hcode] at h
      cases h
      refine ⟨[], [], (List.append_nil data).symm, rfl, Nat.zero_le _, Nat.succ_pos 0,
        List.forall_mem_nil _, ?_⟩
      intro frames padding last hframes hlength
      rcases List.map_eq_singleton_iff.mp hframes with ⟨a, rfl, _⟩
      rw [List.length_eq_zero_iff.mp hlength]
      exact .one a hcode
  | twoEqual =>
      simp only [hcode] at h
      cases h
      refine ⟨[], [], (List.append_nil data).symm, rfl, Nat.zero_le _, Nat.succ_pos 1,
        List.forall_mem_nil _, ?_⟩
      intro frames padding last hframes hlength
      rcases List.map_eq_cons_iff.mp hframes with ⟨a, frames', rfl, ha, hframes'⟩
      rcases List.map_eq_singleton_iff.mp hframes' with ⟨b, rfl, hb⟩
      rw [List.length_eq_zero_iff.mp hlength]
      exact .twoEqual a b hcode (ha.trans hb.symm)
  | twoSized =>
      simp only [hcode, bind_eq_ok_iff, Prod.exists] at h
      rcases h with ⟨size, body, hsize, h⟩
      cases h
      -- Only one size is read, and the other frame gets what is left.
      rcases (takeSize_eq_ok_iff _ _ _).mp hsize with ⟨rfl, hsmall, hfits⟩
      refine ⟨sizeBytes size, [], ?_, rfl, hfits, Nat.succ_pos 1,
        List.forall_mem_singleton.mpr hsmall, ?_⟩
      · rw [List.append_nil]
      · intro frames padding last hframes hlength
        rcases List.map_eq_cons_iff.mp hframes with ⟨a, frames', rfl, rfl, hframes'⟩
        rcases List.map_eq_singleton_iff.mp hframes' with ⟨b, rfl, _⟩
        rw [List.length_eq_zero_iff.mp hlength]
        exact .twoSized a b hcode
  | counted =>
      simp only [hcode] at h
      cases data with
      | nil => cases h
      | cons countByte rest => exact announced_of_readCounted toc countByte rest d hcode h

/-- The fields in front of frames are read, whatever bytes stand in the place of the frames,
    if there are as many. The reader of fields never looks into the body but to see that the
    frames could be there, so this holds for a body with a delimiter in front as well. -/
theorem read_framed {toc : Toc} {fields : Bytes} {frames : List Bytes} {padding : Bytes}
    (h : Framed toc fields frames padding) (hsmall : ∀ a ∈ frames, a.length ≤ maxFrameBytes)
    (body ending : Bytes) (hroom : frames.flatten.length ≤ body.length)
    (hending : ending.length = padding.length) :
    ∃ d last, Division.read toc (fields ++ (body ++ ending)) = .ok d ∧
      d.padding = padding.length ∧ d.body = body ∧ 0 < d.count ∧
      frames.map List.length = d.sizes last := by
  cases h with
  | one a hcode =>
      -- Without a count byte there is no padding, and nothing follows the body.
      have hnothing : ending = [] := List.length_eq_zero_iff.mp hending
      have hread : Division.read toc body = .ok ⟨1, false, [], 0, body⟩ := by
        simp only [Division.read, hcode]
      rw [hnothing, List.append_nil, List.nil_append]
      exact ⟨_, a.length, hread, rfl, rfl, Nat.succ_pos 0, rfl⟩
  | twoEqual a b hcode hequal =>
      have hnothing : ending = [] := List.length_eq_zero_iff.mp hending
      have hread : Division.read toc body = .ok ⟨2, true, [], 0, body⟩ := by
        simp only [Division.read, hcode]
      have hsizes : [a, b].map List.length = List.replicate 2 a.length := by
        rw [List.map_cons, List.map_cons, ← hequal]
        rfl
      rw [hnothing, List.append_nil, List.nil_append]
      exact ⟨_, a.length, hread, rfl, rfl, Nat.succ_pos 1, hsizes⟩
  | twoSized a b hcode =>
      have hnothing : ending = [] := List.length_eq_zero_iff.mp hending
      -- The reader checks that the first frame could stand behind its size.
      have hfits : a.length ≤ body.length := by
        rw [List.flatten_cons, List.length_append] at hroom
        omega
      have hsize : takeSize (sizeBytes a.length ++ body) = .ok (a.length, body) :=
        (takeSize_eq_ok_iff _ _ _).mpr ⟨rfl, hsmall a List.mem_cons_self, hfits⟩
      have hread : Division.read toc (sizeBytes a.length ++ body)
          = .ok ⟨2, false, [a.length], 0, body⟩ := by
        simp only [Division.read, hcode, hsize]
        rfl
      rw [hnothing, List.append_nil]
      exact ⟨_, b.length, hread, rfl, rfl, Nat.succ_pos 1, rfl⟩
  | countedEqual countByte counts _ _ size hcode hcount hflag hpadding hequal =>
      -- Behind the counts of padding there is nothing to read, as no size is given.
      have hread : Division.readCounted toc (countByte :: (counts ++ (body ++ ending)))
          = .ok ⟨frames.length, true, [], padding.length, body⟩ := by
        refine (readCounted_eq_ok_iff toc countByte _ _).mpr
          ⟨hcount, counts, body, ending, hpadding, rfl, hending, ?_⟩
        rw [if_pos hflag]
        exact ⟨rfl, rfl, rfl⟩
      have hsizes : frames.map List.length = List.replicate frames.length size :=
        List.eq_replicate_iff.mpr ⟨List.length_map _, List.forall_mem_map.mpr hequal⟩
      simp only [Division.read, hcode, List.cons_append]
      exact ⟨_, size, hread, rfl, rfl, hcount.one_le, hsizes⟩
  | countedSized countByte counts frames last _ hcode hcount hflag hpadding =>
      -- All frames but the last one have their sizes in front, and would fit as well.
      have hgiven : Wire.total (frames.map List.length) ≤ body.length := by
        rw [Wire.total_map_length]
        rw [List.flatten_append, List.length_append] at hroom
        omega
      have hsizes : takeSizes frames.length ((frames.flatMap fun a => sizeBytes a.length) ++ body)
          = .ok (frames.map List.length, body) := by
        have hread := takeSizes_append body (frames.map List.length)
          (List.forall_mem_map.mpr fun a ha => hsmall a (List.mem_append_left _ ha)) hgiven
        rwa [List.length_map, List.flatMap_map] at hread
      have hfewer : (frames ++ [last]).length - 1 = frames.length := by
        rw [List.length_append, List.length_singleton, Nat.add_sub_cancel]
      have hread : Division.readCounted toc (countByte ::
          (counts ++ (((frames.flatMap fun a => sizeBytes a.length) ++ body) ++ ending)))
          = .ok ⟨(frames ++ [last]).length, false, frames.map List.length, padding.length,
              body⟩ := by
        refine (readCounted_eq_ok_iff toc countByte _ _).mpr
          ⟨hcount, counts, _, ending, hpadding, rfl, hending, ?_⟩
        rw [if_neg hflag, hfewer]
        exact ⟨rfl, hsizes, hgiven⟩
      simp only [Division.read, hcode, List.cons_append, List.append_assoc] at hread ⊢
      exact ⟨_, last.length, hread, rfl, rfl, hcount.one_le, List.map_append⟩

end Opus

end RedundantAudio
