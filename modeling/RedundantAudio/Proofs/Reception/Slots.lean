import RedundantAudio.Proofs.Red.Timeline
import RedundantAudio.Reception.Playout

/-!
# Playout by Slot Numbers

The queue of slots is a list that starts at some media time, and a frame finds
its slot by a difference of media times. In a stream of regular packets a slot
has a number, and the whole queue is one function from numbers to contents,
seen through a window: `queue` is that view, and each operation on a queue is
an equation between views. What was played is then the contents of the numbers
that left the window, in order.

Filing a frame changes the contents twice. Its own slot takes the primary, and
every slot in the window that is still missing takes the first block that the
frame carries for it (`refill`).

## Main definitions

* `view`: The contents of the slots in a window.
* `queue`: The queue that shows a window.
* `refill`: The contents after redundant blocks.
* `filed`: The contents after a frame.
* `slotEvents`: What happens when a slot is played.

## Theorems

* `slotDistance_ahead`, `slotDistance_behind`: Distances are numbers of slots.
* `fill_view`: Redundant blocks find their slots.
* `file_queue`, `drain_queue`, `enqueue_queue`: The operations on a view.
* `file_queue_taken`, `enqueue_queue_taken`: A frame that comes twice.
* `push_queue`, `push_first`: A frame that does not restart playout.
-/

namespace RedundantAudio

namespace Reception

namespace Playout

/-! ### Distances -/

/-- A packet that is ahead by less than half the range of media times is as many slots ahead
    as intervals. -/
theorem slotDistance_ahead (start : UInt32) (m n : Nat) (h : n ≤ m)
    (hnear : 960 * (m - n) < 2 ^ 31) :
    slotDistance (Red.packetTime start m) (Red.packetTime start n) = (m - n, false) := by
  rw [slotDistance, Red.toNat_packetTime_sub start n m h (by omega)]
  change (if 960 * (m - n) < 2 ^ 31 then (960 * (m - n) / 960, false) else _) = _
  rw [if_pos hnear, Nat.mul_div_cancel_left _ (by decide)]

/-- A packet that is behind by less than half the range is as many slots behind. -/
theorem slotDistance_behind (start : UInt32) (m n : Nat) (h : m < n)
    (hnear : 960 * (n - m) < 2 ^ 31) :
    slotDistance (Red.packetTime start m) (Red.packetTime start n) = (n - m, true) := by
  have hfar : ¬ 2 ^ 32 - 960 * (n - m) < 2 ^ 31 := by omega
  -- The difference has wrapped, and is read as a distance from the other end.
  have hback : 2 ^ 32 - (2 ^ 32 - 960 * (n - m)) = 960 * (n - m) := by omega
  rw [slotDistance, Red.toNat_packetTime_sub_ahead start m n h (by omega)]
  change (if 2 ^ 32 - 960 * (n - m) < 2 ^ 31 then _
    else ((2 ^ 32 - (2 ^ 32 - 960 * (n - m))) / 960, true)) = _
  rw [if_neg hfar, hback, Nat.mul_div_cancel_left _ (by decide)]

/-! ### Windows -/

/-- The contents of the slots from one number up to another. -/
def view (content : Nat → Slot) (first bound : Nat) : List Slot :=
  (List.range' first (bound - first)).map content

theorem length_view (content : Nat → Slot) (first bound : Nat) :
    (view content first bound).length = bound - first := by
  rw [view, List.length_map, List.length_range']

theorem getElem?_view (content : Nat → Slot) (first bound i : Nat) :
    (view content first bound)[i]?
      = if first + i < bound then some (content (first + i)) else none := by
  rw [view, List.getElem?_map]
  by_cases h : first + i < bound
  · rw [if_pos h, List.getElem?_range' (by omega), Option.map_some, Nat.one_mul]
  · rw [if_neg h, List.getElem?_eq_none (by rw [List.length_range']; omega), Option.map_none]

theorem view_congr (content content' : Nat → Slot) (first bound : Nat)
    (h : ∀ n, first ≤ n → n < bound → content n = content' n) :
    view content first bound = view content' first bound := by
  refine List.map_congr_left fun n hn => ?_
  rw [List.mem_range'_1] at hn
  exact h n hn.1 (by omega)

theorem view_cons (content : Nat → Slot) (first bound : Nat) (h : first < bound) :
    view content first bound = content first :: view content (first + 1) bound := by
  have hsucc : bound - first = bound - (first + 1) + 1 := by omega
  rw [view, hsucc, List.range'_succ, List.map_cons]
  rfl

/-- Extending a window so that it reaches a slot shows more of the same contents, for all
    that lies beyond is missing. -/
theorem extend_view (content : Nat → Slot) (first bound n : Nat) (hn : first ≤ n)
    (hbound : first ≤ bound) (hmissing : ∀ j, bound ≤ j → content j = .missing) :
    extend (view content first bound) (n - first) = view content first (max bound (n + 1)) := by
  refine List.ext_getElem? fun i => ?_
  rw [extend, List.getElem?_append, length_view, getElem?_view, getElem?_view,
    List.getElem?_replicate]
  -- Slot by slot: what the window shows stays, and what is added is missing anyway.
  by_cases hold : first + i < bound
  · rw [if_pos (by omega), if_pos hold, if_pos (by omega)]
  · rw [if_neg (by omega)]
    by_cases hnew : first + i < max bound (n + 1)
    · rw [if_pos (by omega), if_pos hnew, hmissing _ (by omega)]
    · rw [if_neg (by omega), if_neg hnew]

/-- Setting a slot of a window changes the contents there. A slot beyond the window is not
    set, and the window does not show that its contents would be different. -/
theorem set_view (content : Nat → Slot) (first bound n : Nat) (slot : Slot) (hn : first ≤ n) :
    (view content first bound).set (n - first) slot
      = view (fun j => if j = n then slot else content j) first bound := by
  refine List.ext_getElem? fun i => ?_
  rw [List.getElem?_set, getElem?_view, getElem?_view, length_view]
  -- Slot by slot, it is the one that was set or another one.
  by_cases hi : n - first = i
  · have hslot : first + i = n := by omega
    rw [if_pos hi, if_pos hslot, hslot]
    by_cases hin : n < bound
    · rw [if_pos (by omega), if_pos hin]
    · rw [if_neg (by omega), if_neg hin]
  · have hslot : first + i ≠ n := by omega
    rw [if_neg hi, if_neg hslot]

/-! ### Redundant blocks -/

/-- The contents after redundant blocks, each of them for the slot that
    `number` gives. A slot takes the first that comes for it, and only while
    it is missing. -/
def refill (number : Red.Block → Nat) (content : Nat → Slot) (blocks : List Red.Block)
    (n : Nat) : Slot :=
  if content n = .missing then
    match blocks.find? fun b => number b = n with
    | some b => .redundant b.payload
    | none => .missing
  else content n

/-- The first of some blocks takes its slot, and what is left for the others are the
    contents behind it. That it goes first makes it win over later blocks for the same slot. -/
theorem refill_cons (number : Red.Block → Nat) (content : Nat → Slot) (b : Red.Block)
    (blocks : List Red.Block) (n : Nat) :
    refill number content (b :: blocks) n
      = refill number (fun j => if j = number b ∧ content j = .missing
          then .redundant b.payload else content j) blocks n := by
  -- A block that does not come for this slot may as well not be there.
  have hother : ¬ (n = number b ∧ content n = .missing) →
      refill number content (b :: blocks) n = refill number content blocks n := by
    intro hnot
    rw [refill, refill]
    by_cases hmissing : content n = .missing
    · have hb : decide (number b = n) = false :=
        decide_eq_false fun h => hnot ⟨h.symm, hmissing⟩
      rw [if_pos hmissing, if_pos hmissing, List.find?_cons, hb]
    · rw [if_neg hmissing, if_neg hmissing]
  -- If the block comes for this slot, it is the first that does.
  by_cases hfirst : n = number b ∧ content n = .missing
  · have hb : decide (number b = n) = true := decide_eq_true hfirst.1.symm
    rw [refill, refill, if_pos hfirst.2, List.find?_cons, hb, if_pos hfirst,
      if_neg Slot.noConfusion]
  · rw [hother hfirst, refill, refill, if_neg hfirst]

/-- Fills one slot that is still missing. -/
def fillOne (base : UInt32) (slots : List Slot) (b : Red.Block) : List Slot :=
  let (index, behind) := slotDistance b.timestamp base
  if !behind && slots[index]? = some .missing then slots.set index (.redundant b.payload)
  else slots

/-- Filling goes through the redundant blocks one by one, so it is a fold over them. -/
theorem fill_eq (base : UInt32) (blocks : List Red.Block) (slots : List Slot) :
    fill base blocks slots = (blocks.filter fun b => !b.isLast).foldl (fillOne base) slots :=
  rfl

/-- A block finds the slot with its number, if that is in the window and missing. It is
    found by its media time, so it must be within half the range of times from the start of
    the window. -/
theorem fillOne_view (start : UInt32) (content : Nat → Slot) (first bound n : Nat)
    (b : Red.Block) (htime : b.timestamp = Red.packetTime start n)
    (hn : 960 * (n - first) < 2 ^ 31) (hfirst : 960 * (first - n) < 2 ^ 31) :
    fillOne (Red.packetTime start first) (view content first bound) b
      = view (fun j => if j = n ∧ content j = .missing then .redundant b.payload else content j)
          first bound := by
  rw [fillOne, htime]
  by_cases hle : first ≤ n
  · have hindex : first + (n - first) = n := by omega
    simp only [slotDistance_ahead start n first hle hn, Bool.not_false, Bool.true_and,
      getElem?_view, hindex, decide_eq_true_eq]
    -- The slot may lie beyond the window, or be taken.
    by_cases hfree : (if n < bound then some (content n) else none) = some .missing
    · have hmissing : content n = .missing := by
        by_cases hin : n < bound
        · rw [if_pos hin] at hfree
          exact Option.some.inj hfree
        · rw [if_neg hin] at hfree
          cases hfree
      rw [if_pos hfree, set_view _ _ _ _ _ hle]
      refine view_congr _ _ _ _ fun j _ _ => ?_
      by_cases hj : j = n
      · rw [if_pos hj, if_pos ⟨hj, hj ▸ hmissing⟩]
      · rw [if_neg hj, if_neg fun h => hj h.1]
    · rw [if_neg hfree]
      -- The slot is taken, or the window does not show it, so nothing changes in the
      -- window.
      refine view_congr _ _ _ _ fun j _ hin => ?_
      rw [if_neg]
      rintro ⟨rfl, hmissing⟩
      rw [if_pos hin, hmissing] at hfree
      exact hfree rfl
  · -- The slot has been played already.
    simp only [slotDistance_behind start n first (by omega) hfirst, Bool.not_true, Bool.false_and,
      Bool.false_eq_true, if_false]
    refine view_congr _ _ _ _ fun j hj _ => ?_
    rw [if_neg fun h => by omega]

/-- Redundant blocks fill the slots that they name, as far as a window shows them and they
    are missing. Blocks for slots that were played already are passed over. -/
theorem fill_view (start : UInt32) (number : Red.Block → Nat) (blocks : List Red.Block)
    (first bound : Nat) (content : Nat → Slot)
    (hnumber : ∀ b ∈ blocks, b.isLast = false →
      b.timestamp = Red.packetTime start (number b) ∧
        960 * (number b - first) < 2 ^ 31 ∧ 960 * (first - number b) < 2 ^ 31) :
    fill (Red.packetTime start first) blocks (view content first bound)
      = view (refill number content (blocks.filter fun b => !b.isLast)) first bound := by
  have hall : ∀ b ∈ blocks.filter fun b => !b.isLast,
      b.timestamp = Red.packetTime start (number b) ∧
        960 * (number b - first) < 2 ^ 31 ∧ 960 * (first - number b) < 2 ^ 31 := by
    intro b hb
    rw [List.mem_filter, Bool.not_eq_true'] at hb
    exact hnumber b hb.1 hb.2
  rw [fill_eq]
  -- By induction on the redundant blocks, each of which changes the contents.
  revert hall
  generalize (blocks.filter fun b => !b.isLast) = l
  intro hall
  induction l generalizing content with
  | nil =>
      refine view_congr _ _ _ _ fun n _ _ => ?_
      rw [refill]
      by_cases h : content n = .missing
      · rw [if_pos h, h, List.find?_nil]
      · rw [if_neg h]
  | cons b l ih =>
      rcases hall b List.mem_cons_self with ⟨htime, hlo, hhi⟩
      have hone := fillOne_view start content first bound (number b) b htime hlo hhi
      rw [List.foldl_cons, hone, ih _ fun b' hb' => hall b' (List.mem_cons_of_mem b hb')]
      exact view_congr _ _ _ _ fun n _ _ => (refill_cons number content b l n).symm

/-! ### Operations -/

/-- The queue that shows a window of a stream. -/
def queue (config : PlayoutConfig) (ssrc start : UInt32) (content : Nat → Slot)
    (first bound : Nat) : Playout where
  config := config
  ssrc := some ssrc
  next := some (Red.packetTime start first)
  slots := view content first bound

/-- The contents after a frame for a slot, with the redundant blocks in it. -/
def filed (number : Red.Block → Nat) (content : Nat → Slot) (received : Received) (n : Nat) :
    Nat → Slot :=
  refill number
    (fun j => if j = n then
        .primary received.frame.sequence received.primaryPayload received.primaryHasFec
      else content j)
    (received.blocks.filter fun b => !b.isLast)

/-- What happens when a slot of a window is played. -/
def slotEvents (start : UInt32) (content : Nat → Slot) (bound n : Nat) : List Event :=
  playSlot (Red.packetTime start n) (content n) (view content (n + 1) bound)

section Queue

variable (config : PlayoutConfig) (ssrc start : UInt32) (content : Nat → Slot) (first bound : Nat)

/-- Playing from the front of a window leads on to a later one, one interval of media time
    for every slot. What each slot plays depends on the contents alone, and not on where the
    window began. -/
theorem playFront_view (count : Nat) :
    ∀ first, first + count ≤ bound →
      playFront count (Red.packetTime start first) (view content first bound)
        = (Red.packetTime start (first + count), view content (first + count) bound,
            (List.range' first count).flatMap (slotEvents start content bound)) := by
  induction count with
  | zero =>
      intro first _
      rw [playFront, List.range'_zero, List.flatMap_nil, Nat.add_zero]
      exact fun _ _ _ h => absurd h (Nat.succ_ne_zero _).symm
  | succ count ih =>
      intro first hle
      -- The next slot is one interval later, and that is how media time is counted.
      have hnext : Red.packetTime start first + slotSamples = Red.packetTime start (first + 1) :=
        (Red.packetTime_succ start first).symm
      have hsum : first + 1 + count = first + (count + 1) := by omega
      rw [view_cons content first bound (by omega), playFront, hnext, ih (first + 1) (by omega),
        hsum, List.range'_succ, List.flatMap_cons]
      rfl

/-- Draining a queue plays all slots but the last few, in order. -/
theorem drain_queue (keep : Nat) (hfirst : first ≤ bound) :
    (queue config ssrc start content first bound).drain keep
      = (queue config ssrc start content (max first (bound - keep)) bound,
          (List.range' first (bound - keep - first)).flatMap (slotEvents start content bound)) := by
  have hcount : bound - first - keep = bound - keep - first := by omega
  have hnext : first + (bound - keep - first) = max first (bound - keep) := by omega
  simp only [drain, queue, length_view, hcount,
    playFront_view start content bound (bound - keep - first) first (by omega), hnext]

theorem flush_queue (hfirst : first ≤ bound) :
    (queue config ssrc start content first bound).flush
      = (queue config ssrc start content bound bound,
          (List.range' first (bound - first)).flatMap (slotEvents start content bound)) := by
  rw [flush, drain_queue config ssrc start content first bound 0 hfirst, Nat.sub_zero,
    max_eq_right hfirst]

/-- The redundant blocks of a frame name slots near the window, which is to say less than
    half the range of media times away. -/
def Near (number : Red.Block → Nat) (received : Received) : Prop :=
  ∀ b ∈ received.blocks, b.isLast = false →
    b.timestamp = Red.packetTime start (number b) ∧
      960 * (number b - first) < 2 ^ 31 ∧ 960 * (first - number b) < 2 ^ 31

variable (number : Red.Block → Nat) (received : Received) (n : Nat)

/-- A frame whose slot is free is filed there, and its redundant blocks in theirs. The
    window is extended as far as the slot, and what it has not shown before is missing. -/
theorem file_queue (hfirst : first ≤ bound) (hn : first ≤ n)
    (hmissing : ∀ j, bound ≤ j → content j = .missing) (hfresh : (content n).isPrimary = false)
    (hnear : Near start first number received) :
    (queue config ssrc start content first bound).file received (n - first)
      = (queue config ssrc start (filed number content received n) first (max bound (n + 1)),
          []) := by
  have hindex : first + (n - first) = n := by omega
  have hin : n < max bound (n + 1) := by omega
  -- The window reaches the slot by now.
  have htaken : ((view content first (max bound (n + 1)))[n - first]?).any Slot.isPrimary
      = false := by
    rw [getElem?_view, hindex, if_pos hin]
    exact hfresh
  simp only [file, queue, extend_view content first bound n hn hfirst hmissing, htaken,
    Bool.false_eq_true, if_false, Option.getD_some, set_view content _ _ _ _ hn,
    fill_view start number received.blocks first _ _ hnear]
  rfl

/-- A frame whose slot is free is filed, and whatever is then too much is played. -/
theorem enqueue_queue (hfirst : first ≤ bound) (hn : first ≤ n)
    (hmissing : ∀ j, bound ≤ j → content j = .missing) (hfresh : (content n).isPrimary = false)
    (hnear : Near start first number received) :
    (queue config ssrc start content first bound).enqueue received (n - first)
      = (queue config ssrc start (filed number content received n)
            (max first (max bound (n + 1) - config.delay)) (max bound (n + 1)),
          (List.range' first (max bound (n + 1) - config.delay - first)).flatMap
            (slotEvents start (filed number content received n) (max bound (n + 1)))) := by
  have hconfig : (queue config ssrc start (filed number content received n) first
      (max bound (n + 1))).config = config := rfl
  simp only [enqueue, file_queue config ssrc start content first bound number received n hfirst hn
    hmissing hfresh hnear, hconfig]
  rw [drain_queue config ssrc start _ first (max bound (n + 1)) config.delay (by omega),
    List.nil_append]

/-- A frame that comes twice leaves its slot alone, but its redundant blocks are filed. The
    event that is returned counts it as a duplicate, even if a block of it was of use. -/
theorem file_queue_taken (hfirst : first ≤ bound) (hn : first ≤ n)
    (hmissing : ∀ j, bound ≤ j → content j = .missing) (htaken : (content n).isPrimary = true)
    (hnear : Near start first number received) :
    (queue config ssrc start content first bound).file received (n - first)
      = (queue config ssrc start
            (refill number content (received.blocks.filter fun b => !b.isLast)) first
            (max bound (n + 1)),
          [.duplicate received.frame.sequence received.frame.timestamp]) := by
  have hindex : first + (n - first) = n := by omega
  have hin : n < max bound (n + 1) := by omega
  -- The window reaches the slot by now, and shows that it is taken.
  have hshown : ((view content first (max bound (n + 1)))[n - first]?).any Slot.isPrimary
      = true := by
    rw [getElem?_view, hindex, if_pos hin]
    exact htaken
  simp only [file, queue, extend_view content first bound n hn hfirst hmissing, hshown, if_true,
    Option.getD_some, fill_view start number received.blocks first _ _ hnear]

theorem enqueue_queue_taken (hfirst : first ≤ bound) (hn : first ≤ n)
    (hmissing : ∀ j, bound ≤ j → content j = .missing) (htaken : (content n).isPrimary = true)
    (hnear : Near start first number received) :
    (queue config ssrc start content first bound).enqueue received (n - first)
      = (queue config ssrc start
            (refill number content (received.blocks.filter fun b => !b.isLast))
            (max first (max bound (n + 1) - config.delay)) (max bound (n + 1)),
          .duplicate received.frame.sequence received.frame.timestamp ::
            (List.range' first (max bound (n + 1) - config.delay - first)).flatMap
              (slotEvents start
                (refill number content (received.blocks.filter fun b => !b.isLast))
                (max bound (n + 1)))) := by
  -- Filing leaves the delay alone, so the queue is drained by the one that it had.
  have hconfig : (queue config ssrc start
      (refill number content (received.blocks.filter fun b => !b.isLast)) first
      (max bound (n + 1))).config = config := rfl
  simp only [enqueue, file_queue_taken config ssrc start content first bound number received n
    hfirst hn hmissing htaken hnear, hconfig]
  rw [drain_queue config ssrc start _ first (max bound (n + 1)) config.delay (by omega),
    List.singleton_append]

/-- A frame that is not too far ahead is filed. -/
theorem push_queue (hn : first ≤ n)
    (htime : received.frame.timestamp = Red.packetTime start n)
    (hssrc : received.frame.ssrc = ssrc) (hdistance : 960 * (n - first) < 2 ^ 31)
    (hahead : n - first ≤ max (bound - first) config.delay + config.maxConcealed) :
    (queue config ssrc start content first bound).push received
      = (queue config ssrc start content first bound).enqueue received (n - first) := by
  have hplace : (queue config ssrc start content first bound).place received.frame
      = .slot (n - first) := by
    have hclose : ¬ n - first > max (bound - first) config.delay + config.maxConcealed := by omega
    simp only [place, queue, Option.getD_some, htime, slotDistance_ahead start n first hn hdistance,
      length_view, hssrc, Option.any_some, bne_self_eq_false, Bool.false_or, decide_eq_true_eq,
      if_neg hclose, Bool.false_eq_true, if_false]
  rw [push, hplace]
  simp only [queue, Option.getD_some, hssrc]

/-- The first frame finds its slot at the front of an empty queue. Such a queue has no media
    time yet and takes that of the frame, so it may be thought to stand at its slot from the
    start. -/
theorem push_first (htime : received.frame.timestamp = Red.packetTime start n)
    (hssrc : received.frame.ssrc = ssrc) :
    ({ config } : Playout).push received
      = (queue config ssrc start content n n).enqueue received (n - n) := by
  have hplace : ({ config } : Playout).place received.frame = .slot 0 := by
    -- There is no slot to measure from, so the frame is measured from itself.
    have hzero : slotDistance received.frame.timestamp received.frame.timestamp = (0, false) := by
      rw [htime, slotDistance_ahead start n n (le_refl n) (by omega), Nat.sub_self]
    simp only [place, Option.getD_none, hzero]
    rfl
  have hview : view content n n = [] := by
    rw [view, Nat.sub_self]
    rfl
  rw [push, hplace]
  simp only [queue, hview, Option.getD_none, htime, hssrc, Nat.sub_self]

end Queue

end Playout

end Reception

end RedundantAudio
