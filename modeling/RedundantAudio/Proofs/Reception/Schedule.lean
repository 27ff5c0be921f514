import RedundantAudio.Proofs.Reception.Continuity
import RedundantAudio.Proofs.Reception.Slots

/-!
# The Schedule of Playout

What playout does with the frames of one stream can be told without a queue, whatever the
order they arrive in. The newest frame and the delay say which slot is next, and every slot
before that one has been played. A frame from before it is late. Any other is filed, and a slot that
is due is played from the best that was filed for it by then.

A slot has a number here, and the frames that were filed are a list. The queue is what
this list has for the slots from the next one on (`contents`), so that filing a frame
only makes the list longer. There is one limit to it. A queue does not know numbers, and
tells from a media time on which side a frame is; so a frame has to be less than half the
range of media times from the slot that is next, and so has a block from its frame. A
frame that is farther ahead seems to be late, and this is what `far_frame_late` is about.

The numbers may begin anywhere, as there may be frames from before the first one to arrive.

## Main definitions

* `Arrival`: A frame that arrives for a slot.
* `bound`, `due`: The slot behind the newest, and the one to be played next.
* `kept`: The frames that do not come too late.
* `contents`: What the slots hold.
* `verdict`: Whether a frame is discarded.
* `shown`: What is played in a slot.
* `WithinReach`: Arrivals that media times tell apart.

## Theorems

* `contents_concat`, `contents_concat_taken`: A frame more.
* `slotEvents_contents`: What is played in a slot.
* `push_playing`: A frame that is in time.
* `push_kept`, `push_after`: What any frame does.
* `timestamps_run`: What has been played.
* `playout_schedule`: What happens when a frame arrives.
* `schedule_shuffled`: Slots of all four kinds.
* `far_frame_late`: A frame that is too far ahead.
-/

namespace RedundantAudio

namespace Reception

/-- A frame that arrives for the slot with a number. -/
structure Arrival where
  /-- The number of the slot. -/
  slot : Nat
  /-- The frame. -/
  received : Received

namespace Arrival

/-- The number of the slot that a block of the frame is for. -/
def blockSlot (a : Arrival) (b : Red.Block) : Nat :=
  a.slot - (a.received.frame.timestamp - b.timestamp).toNat / 960

/-- The redundant blocks of the frame, with the slots that they are for. -/
def copies (a : Arrival) : List (Nat × Red.Block) :=
  (a.received.blocks.filter fun b => !b.isLast).map fun b => (a.blockSlot b, b)

/-- The frame is of a stream, and at the media time of its slot. Its encodings can be
    parsed, and its redundant blocks are for its own slot or slots before that, by less than half
    the range of media times. -/
structure Fits (ssrc start : UInt32) (a : Arrival) : Prop where
  ssrc_eq : a.received.frame.ssrc = ssrc
  timestamp_eq : a.received.frame.timestamp = Red.packetTime start a.slot
  primary : ∃ packet, Opus.Packet.parse a.received.primaryPayload false = .ok packet
  redundant : ∀ b ∈ a.received.blocks, b.isLast = false →
    (∃ packet, Opus.Packet.parse b.payload false = .ok packet) ∧
      ∃ n ≤ a.slot, 960 * (a.slot - n) < 2 ^ 31 ∧ b.timestamp = Red.packetTime start n

end Arrival

/-- The slot behind the newest one that a frame arrived for. -/
def bound (first : Nat) (arrivals : List Arrival) : Nat :=
  arrivals.foldl (fun bound a => max bound (a.slot + 1)) first

/-- The slot to be played next. -/
def due (delay first : Nat) (arrivals : List Arrival) : Nat :=
  max first (bound first arrivals - delay)

/-- The frames that do not come too late. -/
def kept (delay first : Nat) (arrivals : List Arrival) : List Arrival :=
  arrivals.foldl (fun frames a => if a.slot < due delay first frames then frames
    else frames ++ [a]) []

/-- The first frame for a slot. -/
def ownFrame (frames : List Arrival) (n : Nat) : Option Arrival :=
  frames.find? (·.slot = n)

/-- The first redundant block for a slot. -/
def firstCopy (frames : List Arrival) (n : Nat) : Option Red.Block :=
  ((frames.flatMap Arrival.copies).find? (·.1 = n)).map Prod.snd

/-- What a slot holds once some frames were filed. -/
def contents (frames : List Arrival) (n : Nat) : Slot :=
  match ownFrame frames n, firstCopy frames n with
  | some a, _ =>
    .primary a.received.frame.sequence a.received.primaryPayload a.received.primaryHasFec
  | none, some b => .redundant b.payload
  | none, none => .missing

/-- What is told of a frame that is discarded, behind the arrivals before it: that it is late,
    or that there was a frame for its slot. -/
def verdict (delay first : Nat) (before : List Arrival) (a : Arrival) : List Event :=
  if a.slot < due delay first before then
    [.late a.received.frame.sequence a.received.frame.timestamp]
  else if (ownFrame (kept delay first before) a.slot).isSome then
    [.duplicate a.received.frame.sequence a.received.frame.timestamp]
  else []

/-- The samples that an encoding is decoded to. -/
def samplesOf (payload : Bytes) : Nat :=
  match Opus.Packet.parse payload false with
  | .ok packet => packet.samples
  | .error _ => 0

/-- What is played in a slot: the frame that arrived for it, or else the first redundant block
    among the frames that were filed, or else the correction data of the next frame, or else
    concealment. -/
def shown (start : UInt32) (arrivals frames : List Arrival) (n : Nat) : Played :=
  match ownFrame arrivals n, firstCopy frames n, ownFrame arrivals (n + 1) with
  | some a, _, _ => ⟨Red.packetTime start n, .primary, samplesOf a.received.primaryPayload⟩
  | none, some b, _ => ⟨Red.packetTime start n, .red, samplesOf b.payload⟩
  | none, none, some a =>
    if a.received.primaryHasFec then ⟨Red.packetTime start n, .fec, 960⟩
    else ⟨Red.packetTime start n, .plc, 960⟩
  | none, none, none => ⟨Red.packetTime start n, .plc, 960⟩

/-- What happens when a frame arrives behind others: it may be discarded, and then the slots
    are played that have become due. -/
def response (delay first : Nat) (start : UInt32) (before : List Arrival) (a : Arrival) :
    List Event :=
  verdict delay first before a
    ++ (List.range' (due delay first before)
        (due delay first (before ++ [a]) - due delay first before)).map
      fun n => .played (shown start (before ++ [a]) (kept delay first (before ++ [a])) n)

/-! ### Frames that were filed -/

section Frames

variable (delay first : Nat) (arrivals frames : List Arrival) (a : Arrival)

theorem bound_concat : bound first (arrivals ++ [a]) = max (bound first arrivals) (a.slot + 1) :=
  List.foldl_concat _ _ _ _

theorem first_le_bound : first ≤ bound first arrivals := by
  induction arrivals using List.reverseRecOn with
  | nil => exact le_refl first
  | append_singleton arrivals a ih =>
      rw [bound_concat]
      exact ih.trans (le_max_left _ _)

theorem due_le_bound : due delay first arrivals ≤ bound first arrivals :=
  max_le (first_le_bound first arrivals) (Nat.sub_le _ _)

/-- Another frame never takes back a slot that was due. -/
theorem due_le_due_concat : due delay first arrivals ≤ due delay first (arrivals ++ [a]) := by
  rw [due, due, bound_concat]
  omega

theorem due_nil : due delay first [] = first :=
  max_eq_left (Nat.sub_le _ _)

/-- No slot becomes due when a frame is late. -/
theorem due_concat_of_late (h : a.slot < due delay first arrivals) :
    due delay first (arrivals ++ [a]) = due delay first arrivals := by
  have hle := due_le_bound delay first arrivals
  -- A late frame is behind the newest slot, so that one stays.
  have hbound : bound first (arrivals ++ [a]) = bound first arrivals := by
    rw [bound_concat]
    omega
  rw [due, due, hbound]

/-- No frame arrives for a slot behind the newest. -/
theorem slot_lt_bound : ∀ a ∈ arrivals, a.slot < bound first arrivals := by
  induction arrivals using List.reverseRecOn with
  | nil => exact List.forall_mem_nil _
  | append_singleton arrivals a ih =>
      intro b hb
      rw [bound_concat]
      rcases List.mem_append.mp hb with hb | hb
      · exact (ih b hb).trans_le (le_max_left _ _)
      · rw [List.mem_singleton.mp hb]
        exact Nat.lt_of_succ_le (le_max_right _ _)

/-- Another frame is kept unless it comes too late, which is judged by those kept so far. -/
theorem kept_concat :
    kept delay first (arrivals ++ [a])
      = if a.slot < due delay first (kept delay first arrivals) then kept delay first arrivals
        else kept delay first arrivals ++ [a] :=
  List.foldl_concat _ _ _ _

/-- A frame that comes too late does not change which slot is the newest. -/
theorem bound_kept : bound first (kept delay first arrivals) = bound first arrivals := by
  induction arrivals using List.reverseRecOn with
  | nil => rfl
  | append_singleton arrivals a ih =>
      have hle := due_le_bound delay first (kept delay first arrivals)
      rw [kept_concat, bound_concat, ← ih]
      split
      · omega
      · exact bound_concat first _ a

/-- Nor does it change which slot is next. Hence lateness can be judged by all frames that
    arrived, as `verdict` does. -/
theorem due_kept : due delay first (kept delay first arrivals) = due delay first arrivals := by
  rw [due, due, bound_kept]

/-- The frames that are kept are among those that arrived. -/
theorem mem_of_mem_kept : ∀ a ∈ kept delay first arrivals, a ∈ arrivals := by
  induction arrivals using List.reverseRecOn with
  | nil => exact List.forall_mem_nil _
  | append_singleton arrivals a ih =>
      intro b hb
      rw [kept_concat] at hb
      split at hb
      · exact List.mem_append_left _ (ih b hb)
      · exact (List.mem_append.mp hb).elim (fun h => List.mem_append_left _ (ih b h))
          (List.mem_append_right _)

/-- Another frame is the first one for its slot if none was before. -/
theorem ownFrame_concat (n : Nat) :
    ownFrame (frames ++ [a]) n
      = (ownFrame frames n).or (if a.slot = n then some a else none) := by
  rw [ownFrame, List.find?_append, ownFrame]
  by_cases h : a.slot = n
  · simp only [h, decide_true, List.find?_cons_of_pos, Option.or_some, if_true]
  · simp only [h, decide_false, Bool.false_eq_true, not_false_eq_true, List.find?_cons_of_neg,
      List.find?_nil, Option.or_none, if_false]

/-- Its redundant blocks come behind those of all earlier frames. -/
theorem firstCopy_concat (n : Nat) :
    firstCopy (frames ++ [a]) n
      = (firstCopy frames n).or
          ((a.received.blocks.filter fun b => !b.isLast).find? fun b => a.blockSlot b = n) := by
  rw [firstCopy, List.flatMap_append, List.find?_append, Option.map_or, firstCopy,
    List.flatMap_singleton, Arrival.copies, List.find?_map, Option.map_map]
  congr 1
  exact congrFun Option.map_id _

/-- All frames for a slot that has not been played are in time. So the frame that the slot
    is played from can be looked for among all that arrived. -/
theorem ownFrame_kept (n : Nat) (hn : due delay first arrivals ≤ n) :
    ownFrame (kept delay first (arrivals ++ [a])) n = ownFrame (arrivals ++ [a]) n := by
  -- One frame at a time: a late one is not kept, and was not for a slot still to be played.
  have hstep : ∀ arrivals a, due delay first arrivals ≤ n →
      ownFrame (kept delay first arrivals) n = ownFrame arrivals n →
      ownFrame (kept delay first (arrivals ++ [a])) n = ownFrame (arrivals ++ [a]) n := by
    intro arrivals a hn hbefore
    rw [kept_concat, due_kept, ownFrame_concat, ← hbefore]
    split
    next hlate => rw [if_neg (by omega), Option.or_none]
    next => rw [ownFrame_concat]
  refine hstep arrivals a hn ?_
  induction arrivals using List.reverseRecOn with
  | nil => rfl
  | append_singleton arrivals b ih =>
      have hbefore := (due_le_due_concat delay first arrivals b).trans hn
      exact hstep arrivals b hbefore (ih hbefore)

theorem shown_kept (start : UInt32) (n : Nat) (hn : due delay first arrivals ≤ n) :
    shown start (kept delay first (arrivals ++ [a])) (kept delay first (arrivals ++ [a])) n
      = shown start (arrivals ++ [a]) (kept delay first (arrivals ++ [a])) n := by
  rw [shown, shown, ownFrame_kept delay first arrivals a n hn,
    ownFrame_kept delay first arrivals a (n + 1) (by omega)]

end Frames

/-! ### What the slots hold -/

section Contents

variable {frames : List Arrival} {a : Arrival}

theorem isPrimary_contents (n : Nat) :
    (contents frames n).isPrimary = (ownFrame frames n).isSome := by
  unfold contents
  cases ownFrame frames n with
  | some a => rfl
  | none => cases firstCopy frames n <;> rfl

/-- Nothing is filed beyond the newest frame. Its copies are of earlier slots, so it brings
    nothing there either. -/
theorem contents_ahead (first n : Nat) (hn : bound first frames ≤ n) :
    contents frames n = .missing := by
  have hown : ownFrame frames n = none := by
    refine List.find?_eq_none.mpr fun a ha => ?_
    have hlt := slot_lt_bound first frames a ha
    simp only [decide_eq_true_eq]
    omega
  have hcopy : firstCopy frames n = none := by
    refine Option.map_eq_none_iff.mpr (List.find?_eq_none.mpr fun entry hentry => ?_)
    rcases List.mem_flatMap.mp hentry with ⟨a, ha, hentry⟩
    rcases List.mem_map.mp hentry with ⟨b, _, rfl⟩
    -- A block is for the slot of its frame at most.
    have hlt := slot_lt_bound first frames a ha
    have hle : a.blockSlot b ≤ a.slot := Nat.sub_le _ _
    simp only [decide_eq_true_eq]
    omega
  rw [contents, hown, hcopy]

/-- Another frame brings its redundant blocks to the slots that are missing. A slot with a
    frame of its own keeps it, and one with a copy keeps the copy that came first. -/
theorem contents_concat_of_own (n : Nat)
    (hown : ownFrame (frames ++ [a]) n = ownFrame frames n) :
    contents (frames ++ [a]) n
      = Playout.refill a.blockSlot (contents frames) (a.received.blocks.filter fun b => !b.isLast)
          n := by
  rw [Playout.refill, contents, contents, hown, firstCopy_concat]
  -- A primary is not replaced, nor is an earlier copy; a missing slot takes the first
  -- block.
  cases ownFrame frames n with
  | some a => rfl
  | none =>
      cases firstCopy frames n with
      | some b => rfl
      | none =>
          rw [Option.none_or, if_pos rfl]
          cases (a.received.blocks.filter fun b => !b.isLast).find? fun b => a.blockSlot b = n <;>
            rfl

/-- A frame that comes twice. Its slot is taken, but the copies that it carries may still
    find theirs missing. -/
theorem contents_concat_taken (htaken : (ownFrame frames a.slot).isSome = true) :
    contents (frames ++ [a])
      = Playout.refill a.blockSlot (contents frames)
          (a.received.blocks.filter fun b => !b.isLast) := by
  funext n
  refine contents_concat_of_own n ?_
  rw [ownFrame_concat]
  by_cases hn : a.slot = n
  · subst hn
    rcases Option.isSome_iff_exists.mp htaken with ⟨own, hown⟩
    rw [hown, Option.some_or]
  · rw [if_neg hn, Option.or_none]

/-- A frame that is the first for its slot. It takes the slot even from a copy, and its own
    copies then fill slots that are missing. -/
theorem contents_concat (hfresh : ownFrame frames a.slot = none) :
    contents (frames ++ [a]) = Playout.filed a.blockSlot (contents frames) a.received a.slot := by
  funext n
  by_cases hn : n = a.slot
  · subst hn
    rw [contents, ownFrame_concat, hfresh, if_pos rfl, Option.none_or]
    simp only [Playout.filed, Playout.refill, if_true, if_false, reduceCtorEq]
  · have hown : ownFrame (frames ++ [a]) n = ownFrame frames n := by
      rw [ownFrame_concat, if_neg (Ne.symm hn), Option.or_none]
    rw [contents_concat_of_own n hown, Playout.filed, Playout.refill, Playout.refill, if_neg hn]

end Contents

/-! ### What is played -/

/-- An encoding that can be parsed is decoded as long as it is, and its correction data to
    one interval. An empty one cannot be parsed, so the special case does not apply. -/
theorem decodedSamples_of_parse {payload : Bytes}
    (h : ∃ packet, Opus.Packet.parse payload false = .ok packet) :
    Opus.decodedSamples payload = .ok (samplesOf payload) ∧ Opus.fecSamples payload = .ok 960 := by
  rcases h with ⟨packet, hparse⟩
  cases payload with
  | nil => cases hparse
  | cons byte payload =>
      simp only [Opus.decodedSamples, Opus.fecSamples, samplesOf, hparse, List.isEmpty_cons,
        Bool.false_eq_true, if_false]
      exact ⟨trivial, rfl⟩

/-- Concealment looks at the next slot only, whether or not that is in the window. Beyond
    the window nothing is filed, which comes to the same as a slot that is missing. -/
theorem conceal_view (timestamp : UInt32) (content : Nat → Slot) (first bound : Nat)
    (hmissing : bound ≤ first → content first = .missing) :
    Playout.conceal timestamp (Playout.view content first bound)
      = Playout.conceal timestamp [content first] := by
  by_cases hin : first < bound
  · rw [Playout.view_cons content first bound hin]
    unfold Playout.conceal
    cases content first with
    | primary sequence payload hasFec => cases hasFec <;> rfl
    | _ => rfl
  · have hempty : Playout.view content first bound = [] :=
      List.length_eq_zero_iff.mp (by rw [Playout.length_view]; omega)
    rw [hempty, hmissing (by omega)]
    rfl

section Shown

variable {ssrc start : UInt32} {frames : List Arrival} (hfits : ∀ a ∈ frames, a.Fits ssrc start)

include hfits

theorem parse_ownFrame {n : Nat} {a : Arrival} (h : ownFrame frames n = some a) :
    ∃ packet, Opus.Packet.parse a.received.primaryPayload false = .ok packet :=
  (hfits a (List.mem_of_find?_eq_some h)).primary

theorem parse_firstCopy {n : Nat} {b : Red.Block} (h : firstCopy frames n = some b) :
    ∃ packet, Opus.Packet.parse b.payload false = .ok packet := by
  rcases Option.map_eq_some_iff.mp h with ⟨entry, hfind, rfl⟩
  rcases List.mem_flatMap.mp (List.mem_of_find?_eq_some hfind) with ⟨a, ha, hentry⟩
  rcases List.mem_map.mp hentry with ⟨b, hb, rfl⟩
  rw [List.mem_filter, Bool.not_eq_true'] at hb
  exact ((hfits a ha).redundant b hb.1 hb.2).1

/-- A slot is played from the best that was filed for it. That is its own frame, then a
    copy, and then the correction data of the frame in the next slot; with none of them it
    is concealed. -/
theorem slotEvents_contents (first n : Nat) :
    Playout.slotEvents start (contents frames) (bound first frames) n
      = [.played (shown start frames frames n)] := by
  have hahead : bound first frames ≤ n + 1 → contents frames (n + 1) = .missing :=
    contents_ahead first (n + 1)
  rw [Playout.slotEvents, contents, shown]
  -- The cases are those of `shown`: own frame, copy, and then the frame of the next slot.
  cases hown : ownFrame frames n with
  | some a =>
      have hparse := decodedSamples_of_parse (parse_ownFrame hfits hown)
      simp only [Playout.playSlot, hparse.1]
  | none =>
      cases hcopy : firstCopy frames n with
      | some b =>
          have hparse := decodedSamples_of_parse (parse_firstCopy hfits hcopy)
          simp only [Playout.playSlot, hparse.1]
      | none =>
          simp only [Playout.playSlot]
          -- Only the next slot is looked at, where the window may have ended.
          rw [conceal_view _ _ _ _ hahead, contents]
          cases hnext : ownFrame frames (n + 1) with
          | none => cases firstCopy frames (n + 1) <;> rfl
          | some a =>
              have hparse := decodedSamples_of_parse (parse_ownFrame hfits hnext)
              cases hfec : a.received.primaryHasFec <;>
                simp only [Playout.conceal, hparse.2, hfec] <;> rfl

end Shown

/-! ### One frame -/

/-- What playout is given when some frames arrive. -/
def pushes (arrivals : List Arrival) : List Playout.Input :=
  arrivals.map fun a => .push a.received

section Playing

variable (config : PlayoutConfig) (ssrc start : UInt32) (first : Nat)

/-- The queue once some frames were filed. -/
def playing (frames : List Arrival) : Playout :=
  Playout.queue config ssrc start (contents frames) (due config.delay first frames)
    (bound first frames)

variable {ssrc start} {frames : List Arrival} {a : Arrival} (hfits : a.Fits ssrc start)

include hfits

theorem known_playing :
    (playing config ssrc start first frames).known a.received.frame
      = playing config ssrc start first frames := by
  rw [Playout.known, hfits.ssrc_eq]
  rfl

/-- A frame that is near enough is late if it is behind the next slot, unless playout begins
    anew at it. Near enough means within half the range of media times, on either side. -/
theorem place_playing
    (hbehind : 960 * (due config.delay first frames - a.slot) < 2 ^ 31)
    (hahead : 960 * (a.slot - due config.delay first frames) < 2 ^ 31)
    (hsteady : (playing config ssrc start first frames).restarts (.push a.received) = false) :
    (playing config ssrc start first frames).place a.received.frame
      = if a.slot < due config.delay first frames then .late
        else .slot (a.slot - due config.delay first frames) := by
  -- As playout does not begin anew, all that counts is on which side the frame is.
  have hplace : ∀ distance behind,
      Playout.slotDistance a.received.frame.timestamp
        (Red.packetTime start (due config.delay first frames)) = (distance, behind) →
      (playing config ssrc start first frames).place a.received.frame
        = if behind then .late else .slot distance := by
    intro distance behind hdistance
    rw [Playout.restarts] at hsteady
    simp only [Playout.place, playing, Playout.queue, Option.getD_some, hdistance, hfits.ssrc_eq,
      Option.any_some, bne_self_eq_false, Bool.false_or] at hsteady ⊢
    split
    next hfar => simp only [hfar, if_true, Bool.true_eq_false] at hsteady
    next => rfl
  rw [hfits.timestamp_eq] at hplace
  by_cases hlate : a.slot < due config.delay first frames
  · rw [hplace _ _ (Playout.slotDistance_behind start _ _ hlate hbehind), if_pos hlate, if_pos rfl]
  · rw [hplace _ _ (Playout.slotDistance_ahead start _ _ (by omega) hahead), if_neg hlate,
      if_neg Bool.false_ne_true]

/-- The redundant blocks of a frame in time are for slots near the next one, so filing finds
    their places. -/
theorem near_playing (hle : due config.delay first frames ≤ a.slot)
    (hahead : 960 * (a.slot - due config.delay first frames) < 2 ^ 31) :
    Playout.Near start (due config.delay first frames) a.blockSlot a.received := by
  intro b hb hredundant
  rcases (hfits.redundant b hb hredundant).2 with ⟨n, hn, hnear, htime⟩
  -- The age of a block gives the slot it is for.
  have hslot : a.blockSlot b = n := by
    rw [Arrival.blockSlot, hfits.timestamp_eq, htime,
      Red.toNat_packetTime_sub start n a.slot hn (by omega), Nat.mul_div_cancel_left _ (by omega)]
    omega
  rw [hslot]
  exact ⟨htime, by omega, by omega⟩

/-- A frame that is in time joins the frames that were filed, and the slots that are due by
    then are played. If one was filed for the same slot before, that is noted, and only the
    copies in the frame are of use. -/
theorem push_playing (hframes : ∀ a ∈ frames, a.Fits ssrc start)
    (hle : due config.delay first frames ≤ a.slot)
    (hahead : 960 * (a.slot - due config.delay first frames) < 2 ^ 31)
    (hsteady : (playing config ssrc start first frames).restarts (.push a.received) = false) :
    (playing config ssrc start first frames).push a.received
      = (playing config ssrc start first (frames ++ [a]),
          (if (ownFrame frames a.slot).isSome then
            [.duplicate a.received.frame.sequence a.received.frame.timestamp] else [])
          ++ (List.range' (due config.delay first frames)
              (due config.delay first (frames ++ [a]) - due config.delay first frames)).map
            fun n => .played (shown start (frames ++ [a]) (frames ++ [a]) n)) := by
  have hplace := place_playing config first hfits (by omega) hahead hsteady
  rw [if_neg (by omega)] at hplace
  have hnear := near_playing config first hfits hle hahead
  have hall : ∀ b ∈ frames ++ [a], b.Fits ssrc start :=
    List.forall_mem_append.mpr ⟨hframes, List.forall_mem_singleton.mpr hfits⟩
  -- The slot that is next, and how many are played until then.
  have hnext : max (due config.delay first frames)
      (max (bound first frames) (a.slot + 1) - config.delay)
        = due config.delay first (frames ++ [a]) := by
    rw [due, due, bound_concat]
    omega
  have hcount : max (bound first frames) (a.slot + 1) - config.delay
      - due config.delay first frames
        = due config.delay first (frames ++ [a]) - due config.delay first frames := by
    omega
  have hplayed : ∀ l : List Nat, l.flatMap (Playout.slotEvents start (contents (frames ++ [a]))
      (bound first (frames ++ [a])))
        = l.map fun n => .played (shown start (frames ++ [a]) (frames ++ [a]) n) := by
    intro l
    rw [funext (slotEvents_contents hall first), List.map_eq_flatMap]
  rw [Playout.push_slot _ _ _ hplace, known_playing config first hfits]
  -- The slot of the frame is free, or it is taken by an earlier frame.
  cases hown : ownFrame frames a.slot with
  | none =>
      have hfresh : (contents frames a.slot).isPrimary = false := by
        rw [isPrimary_contents, hown, Option.isSome_none]
      rw [playing, Playout.enqueue_queue config ssrc start (contents frames) _ _ a.blockSlot
        a.received a.slot (due_le_bound config.delay first frames) hle
        (contents_ahead first) hfresh hnear, ← contents_concat hown, hnext, hcount,
        ← bound_concat, hplayed]
      rfl
  | some own =>
      have htaken : (contents frames a.slot).isPrimary = true := by
        rw [isPrimary_contents, hown, Option.isSome_some]
      have hcontents := contents_concat_taken (Option.isSome_of_eq_some hown)
      rw [playing, Playout.enqueue_queue_taken config ssrc start (contents frames) _ _ a.blockSlot
        a.received a.slot (due_le_bound config.delay first frames) hle
        (contents_ahead first) htaken hnear, ← hcontents, hnext, hcount, ← bound_concat, hplayed]
      rfl

/-- The first frame finds an empty queue, which might as well know its slot already. -/
theorem push_first_playing (hfirst : a.slot = first) :
    ({ config } : Playout).push a.received
      = (playing config ssrc start first []).push a.received := by
  have hdue := due_nil config.delay first
  have hbound : bound first [] = first := rfl
  have htime := hfits.timestamp_eq
  rw [hfirst] at htime
  rw [Playout.push_first config ssrc start (contents []) a.received first htime hfits.ssrc_eq,
    playing, hdue, hbound, Playout.push_queue config ssrc start (contents []) first first a.received
      first (le_refl first) htime hfits.ssrc_eq (by omega) (by omega)]

end Playing

theorem timestamp_shown (start : UInt32) (arrivals frames : List Arrival) (n : Nat) :
    (shown start arrivals frames n).timestamp = Red.packetTime start n := by
  unfold shown
  split <;> first | rfl | (split <;> rfl)

/-! ### All frames -/

/-- Frames that arrive in any order, each of them less than half the range of media times from
    the slot to be played next, and none of them so far away that playout begins anew. The
    slots are numbered from that of the first one. -/
structure WithinReach (config : PlayoutConfig) (ssrc start : UInt32) (first : Nat)
    (arrivals : List Arrival) : Prop where
  first_eq : ∀ a ∈ arrivals.head?, a.slot = first
  fits : ∀ a ∈ arrivals, a.Fits ssrc start
  near : ∀ before a after, arrivals = before ++ a :: after →
    960 * (due config.delay first before - a.slot) < 2 ^ 31 ∧
      960 * (a.slot - due config.delay first before) < 2 ^ 31
  steady : ∀ event ∈ (({ config } : Playout).run (pushes arrivals)).2, event.restartedAt? = none

theorem pushes_concat (arrivals : List Arrival) (a : Arrival) :
    pushes (arrivals ++ [a]) = pushes arrivals ++ [.push a.received] :=
  List.map_append

section Run

variable {config : PlayoutConfig} {ssrc start : UInt32} {first : Nat} {arrivals : List Arrival}
  {a : Arrival}

theorem withinReach_nil : WithinReach config ssrc start first [] :=
  ⟨fun _ h => absurd h (Option.not_mem_none _), List.forall_mem_nil _,
    fun _ _ _ h => absurd h.symm (by simp), List.forall_mem_nil _⟩

/-- Without the last one, frames are still within reach. -/
theorem WithinReach.of_concat (h : WithinReach config ssrc start first (arrivals ++ [a])) :
    WithinReach config ssrc start first arrivals := by
  refine ⟨fun b hb => h.first_eq b ?_, fun b hb => h.fits b (List.mem_append_left _ hb),
    (Red.forall_split_concat_iff.mp h.near).1, fun event hevent => h.steady event ?_⟩
  · rw [List.head?_append, Option.mem_def.mp hb, Option.some_or]
    exact rfl
  · rw [pushes_concat, Playout.run_concat]
    exact List.mem_append_left _ hevent

/-- One more frame is within reach, if it fits, is near the next slot, and does not make
    playout begin anew. -/
theorem WithinReach.concat (h : WithinReach config ssrc start first arrivals)
    (hfirst : arrivals = [] → a.slot = first) (hfits : a.Fits ssrc start)
    (hnear : 960 * (due config.delay first arrivals - a.slot) < 2 ^ 31 ∧
      960 * (a.slot - due config.delay first arrivals) < 2 ^ 31)
    (hsteady : ∀ event ∈ ((({ config } : Playout).run (pushes arrivals)).1.push a.received).2,
      event.restartedAt? = none) :
    WithinReach config ssrc start first (arrivals ++ [a]) := by
  refine ⟨fun b hb => ?_, List.forall_mem_append.mpr ⟨h.fits, List.forall_mem_singleton.mpr hfits⟩,
    Red.forall_split_concat_iff.mpr ⟨h.near, hnear⟩, ?_⟩
  · -- The frame may be the first, or another one was.
    cases arrivals with
    | nil =>
        cases hb
        exact hfirst rfl
    | cons first arrivals => exact h.first_eq b hb
  · rw [pushes_concat, Playout.run_concat]
    exact List.forall_mem_append.mpr ⟨h.steady, hsteady⟩

/-- Up to any frame, those within reach are within reach. -/
theorem WithinReach.of_append {before after : List Arrival}
    (h : WithinReach config ssrc start first (before ++ a :: after)) :
    WithinReach config ssrc start first (before ++ [a]) := by
  induction after using List.reverseRecOn with
  | nil => exact h
  | append_singleton after b ih =>
      rw [← List.cons_append, ← List.append_assoc] at h
      exact ih h.of_concat

/-- Playout does not begin anew at the last frame, also in a queue that does the same with
    it. If it did, an event would tell of it, and there is none. -/
theorem WithinReach.restarts_eq_false {p : Playout}
    (h : WithinReach config ssrc start first (arrivals ++ [a]))
    (hpush : (({ config } : Playout).run (pushes arrivals)).1.push a.received
      = p.push a.received) :
    p.restarts (.push a.received) = false := by
  refine Bool.eq_false_iff.mpr fun hrestarts => ?_
  -- If it did, there would be an event to tell of it.
  have htime := Playout.restartedAt_push p a.received hrestarts
  have hnone : (p.push a.received).2.filterMap Event.restartedAt? = [] := by
    refine List.filterMap_eq_nil_iff.mpr fun event hevent => h.steady event ?_
    rw [← hpush] at hevent
    rw [pushes_concat, Playout.run_concat]
    exact List.mem_append_right _ hevent
  rw [hnone] at htime
  cases htime

/-- What a frame does behind those that were filed. It is discarded as late, or joins them,
    and the queue depends only on the frames that joined. -/
theorem push_kept (hfits : ∀ b ∈ arrivals ++ [a], b.Fits ssrc start)
    (hbehind : 960 * (due config.delay first arrivals - a.slot) < 2 ^ 31)
    (hahead : 960 * (a.slot - due config.delay first arrivals) < 2 ^ 31)
    (hsteady : (playing config ssrc start first (kept config.delay first arrivals)).restarts
      (.push a.received) = false) :
    (playing config ssrc start first (kept config.delay first arrivals)).push a.received
      = (playing config ssrc start first (kept config.delay first (arrivals ++ [a])),
          response config.delay first start arrivals a) := by
  have ha : a.Fits ssrc start := hfits a (List.mem_append_right _ List.mem_cons_self)
  have hframes : ∀ b ∈ kept config.delay first arrivals, b.Fits ssrc start := fun b hb =>
    hfits b (List.mem_append_left _ (mem_of_mem_kept config.delay first arrivals b hb))
  rw [← due_kept] at hbehind hahead
  -- The limits are about the slot that is next, which kept frames agree on.
  by_cases hlate : a.slot < due config.delay first arrivals
  · have hplace := place_playing config first ha hbehind hahead hsteady
    rw [due_kept, if_pos hlate] at hplace
    rw [Playout.push_late _ _ hplace, known_playing config first ha, response,
      due_concat_of_late config.delay first arrivals a hlate, Nat.sub_self, verdict,
      if_pos hlate, kept_concat, due_kept, if_pos hlate]
    rfl
  · have hkept : kept config.delay first (arrivals ++ [a])
        = kept config.delay first arrivals ++ [a] := by
      rw [kept_concat, due_kept, if_neg hlate]
    have hdue := due_kept config.delay first (arrivals ++ [a])
    have hle : due config.delay first (kept config.delay first arrivals) ≤ a.slot := by
      rw [due_kept]
      omega
    rw [push_playing config first ha hframes hle hahead hsteady, ← hkept, hdue, due_kept, response,
      verdict, if_neg hlate]
    rw [List.map_congr_left fun n hn => congrArg Event.played
      (shown_kept config.delay first arrivals a start n (List.mem_range'_1.mp hn).1)]

/-- What a frame does behind others, by induction on those. The invariant is that the queue
    is what the kept frames leave; the first frame finds another one, in which it does the
    same. -/
theorem push_after (before : List Arrival) : ∀ a,
    WithinReach config ssrc start first (before ++ [a]) →
      (({ config } : Playout).run (pushes before)).1.push a.received
        = (playing config ssrc start first (kept config.delay first (before ++ [a])),
            response config.delay first start before a) := by
  induction before using List.reverseRecOn with
  | nil =>
      intro a h
      -- The first frame meets an empty queue, which does the same as one that stands at its
      -- slot.
      have hpush : (({ config } : Playout).run (pushes [])).1.push a.received
          = (playing config ssrc start first (kept config.delay first [])).push a.received :=
        push_first_playing config first (h.fits a List.mem_cons_self) (h.first_eq a rfl)
      have hnear := h.near [] a [] rfl
      exact hpush.trans (push_kept h.fits hnear.1 hnear.2 (h.restarts_eq_false hpush))
  | append_singleton before b ih =>
      intro a h
      -- Behind other frames the queue stands where the last of them has left it.
      have hstate : (({ config } : Playout).run (pushes (before ++ [b]))).1
          = playing config ssrc start first (kept config.delay first (before ++ [b])) := by
        rw [pushes_concat, Playout.run_concat]
        exact congrArg Prod.fst (ih b h.of_concat)
      have hpush : (({ config } : Playout).run (pushes (before ++ [b]))).1.push a.received
          = (playing config ssrc start first
            (kept config.delay first (before ++ [b]))).push a.received := by
        rw [hstate]
      have hnear := h.near (before ++ [b]) a [] rfl
      exact hpush.trans (push_kept h.fits hnear.1 hnear.2 (h.restarts_eq_false hpush))

/-- Of the response to a frame, the slots that became due are played. -/
theorem played_response (delay : Nat) (before : List Arrival) :
    (response delay first start before a).filterMap Event.played?
      = (List.range' (due delay first before)
          (due delay first (before ++ [a]) - due delay first before)).map
        (shown start (before ++ [a]) (kept delay first (before ++ [a]))) := by
  have hverdict : (verdict delay first before a).filterMap Event.played? = [] := by
    unfold verdict
    split
    · rfl
    · split <;> rfl
  rw [response, List.filterMap_append, hverdict, List.nil_append, List.filterMap_map]
  exact congrFun List.filterMap_eq_map _

/-- The slots that were played are those before the next one, in order. There are no gaps
    among them, and none is played twice, however the frames were reordered. -/
theorem timestamps_run (arrivals : List Arrival)
    (h : WithinReach config ssrc start first arrivals) :
    ((({ config } : Playout).run (pushes arrivals)).2.filterMap Event.played?).map
        Played.timestamp
      = (List.range' first (due config.delay first arrivals - first)).map
        (Red.packetTime start) := by
  induction arrivals using List.reverseRecOn with
  | nil =>
      rw [due_nil, Nat.sub_self]
      rfl
  | append_singleton arrivals a ih =>
      have hpush := congrArg Prod.snd (push_after arrivals a h)
      have hle := due_le_due_concat config.delay first arrivals a
      have hfirst : first ≤ due config.delay first arrivals := le_max_left _ _
      -- The slots that were played before, and those that became due with the last frame.
      have hrange : due config.delay first (arrivals ++ [a]) - first
          = (due config.delay first arrivals - first)
            + (due config.delay first (arrivals ++ [a]) - due config.delay first arrivals) := by
        omega
      have hnext : first + (due config.delay first arrivals - first)
          = due config.delay first arrivals := by
        omega
      rw [pushes_concat, Playout.run_concat, List.filterMap_append, List.map_append,
        ih h.of_concat, Playout.step, hpush, played_response, List.map_map, hrange,
        ← List.range'_append_1, hnext, List.map_append]
      exact congrArg _ (List.map_congr_left fun n _ => timestamp_shown start _ _ n)

end Run

/-- What happens when a frame arrives, wherever it does in a run. The frame is late if its slot
    was played, and comes twice if one that was not late arrived for it before. Then the slots
    are played that are due by now, in order; these are the ones from the delay behind the
    newest frame before to the delay behind the newest frame now, and `shown` says
    what each of them is played from. What is left pending are the slots up to the newest
    frame, and what has been played by then are all those before. -/
theorem playout_schedule (config : PlayoutConfig) (ssrc start : UInt32) (first : Nat)
    (arrivals : List Arrival) (h : WithinReach config ssrc start first arrivals) :
    ∀ before a after, arrivals = before ++ a :: after →
      let p := (({ config } : Playout).run (pushes before)).1
      let all := before ++ [a]
      let last := due config.delay first before
      let next := due config.delay first all
      (p.push a.received).2
          = verdict config.delay first before a
            ++ (List.range' last (next - last)).map
              (fun n => .played (shown start all (kept config.delay first all) n)) ∧
        (p.push a.received).1.pending = bound first all - next ∧
        ((({ config } : Playout).run (pushes all)).2.filterMap Event.played?).map Played.timestamp
          = (List.range' first (next - first)).map (Red.packetTime start) := by
  rintro before a after rfl p all last next
  -- The push is known as a whole, and what is pending is the rest of its window.
  have hpush := push_after before a h.of_append
  refine ⟨congrArg Prod.snd hpush, ?_, timestamps_run all h.of_append⟩
  rw [hpush, Playout.pending, playing, Playout.queue, Playout.length_view, bound_kept, due_kept]

/-- A frame that arrives for a slot, with a redundant block for the slot before. -/
def doubled (slot : Nat) : Arrival where
  slot := slot
  received :=
    { frame := { sequence := .ofNat slot, timestamp := Red.packetTime 0 slot, ssrc := 9,
                 payloadType := 63, payload := [] }
      blocks := [⟨false, 111, 960, Red.packetTime 0 (slot - 1), [0x08], false⟩,
        ⟨true, 111, 0, Red.packetTime 0 slot, [0x08], false⟩]
      report := none }

/-- A frame that arrives for a slot, with an encoding that corrects the one before. -/
def correcting (slot : Nat) : Arrival where
  slot := slot
  received :=
    { frame := { sequence := .ofNat slot, timestamp := Red.packetTime 0 slot, ssrc := 9,
                 payloadType := 111, payload := [0x08, 0xC0, 0x01] }
      blocks := []
      report := none }

theorem fits_doubled (slot : Nat) : (doubled slot).Fits 9 0 := by
  have hbyte : ∃ packet, Opus.Packet.parse [0x08] false = .ok packet := ⟨_, rfl⟩
  refine ⟨rfl, rfl, hbyte, fun b hb _ => ?_⟩
  simp only [doubled, List.mem_cons, List.not_mem_nil, or_false] at hb
  rcases hb with rfl | rfl
  · exact ⟨hbyte, slot - 1, Nat.sub_le _ _, by change 960 * (slot - (slot - 1)) < _; omega, rfl⟩
  · exact ⟨hbyte, slot, le_refl slot, by change 960 * (slot - slot) < _; omega, rfl⟩

theorem fits_correcting (slot : Nat) : (correcting slot).Fits 9 0 :=
  ⟨rfl, rfl, ⟨_, rfl⟩, List.forall_mem_nil _⟩

/-- Two slots are missing when one is played from each kind, and a frame comes twice before.
    The frame that arrives last makes three slots due at once, and is pending itself. -/
theorem schedule_shuffled :
    let config : PlayoutConfig := { delay := 1 }
    let before := [doubled 2, doubled 4, doubled 4]
    let p := (({ config } : Playout).run (pushes before)).1
    WithinReach config 9 0 2 (before ++ [correcting 7]) ∧
      (({ config } : Playout).run (pushes before)).2
        = [.played ⟨1920, .primary, 960⟩, .played ⟨2880, .red, 960⟩, .duplicate 4 3840] ∧
      (p.push (correcting 7).received).2
        = [.played ⟨3840, .primary, 960⟩, .played ⟨4800, .plc, 960⟩, .played ⟨5760, .fec, 960⟩] ∧
      (p.push (correcting 7).received).1.pending = 1 := by
  intro config before p
  have hone : WithinReach config 9 0 2 ([] ++ [doubled 2]) :=
    withinReach_nil.concat (fun _ => rfl) (fits_doubled 2) (by decide) (by decide)
  have htwo : WithinReach config 9 0 2 ([doubled 2] ++ [doubled 4]) :=
    hone.concat (fun h => by cases h) (fits_doubled 4) (by decide) (by decide)
  have hthree : WithinReach config 9 0 2 ([doubled 2, doubled 4] ++ [doubled 4]) :=
    htwo.concat (fun h => by cases h) (fits_doubled 4) (by decide) (by decide)
  have hreach : WithinReach config 9 0 2 (before ++ [correcting 7]) :=
    hthree.concat (fun h => by cases h) (fits_correcting 7) (by decide) (by decide)
  rcases playout_schedule config 9 0 2 _ hreach before (correcting 7) [] rfl with
    ⟨hevents, hpending, _⟩
  exact ⟨hreach, by decide, hevents.trans (by decide), hpending.trans (by decide)⟩

/-- A frame that is half the range of media times ahead is late, though the delay is long enough
    for it and no slot has been played. And a frame that comes again when its slot was played is
    late, too, and does not count as one that comes twice. -/
theorem far_frame_late :
    let config : PlayoutConfig := { delay := 3000000 }
    let p := (({ config } : Playout).run (pushes [correcting 0])).1
    let q := (({ config := { delay := 0 } } : Playout).run (pushes [correcting 0])).1
    (correcting 0).Fits 9 0 ∧ (correcting 2236963).Fits 9 0 ∧
      due config.delay 0 [correcting 0] = 0 ∧
      bound 0 [correcting 0, correcting 2236963]
        - due config.delay 0 [correcting 0, correcting 2236963] = 2236964 ∧
      (p.push (correcting 2236963).received).2 = [.late 8739 2147484480] ∧
      (p.push (correcting 2236963).received).1.pending = 1 ∧
      due 0 0 [correcting 0] = 1 ∧
      (q.push (correcting 0).received).2 = [.late 0 0] := by
  refine ⟨fits_correcting 0, fits_correcting 2236963, by decide, by decide, ?_, ?_, by decide,
    by decide⟩
  · decide +kernel
  · decide +kernel

end Reception

end RedundantAudio
