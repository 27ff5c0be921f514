import Mathlib.Data.List.ReduceOption
import Mathlib.Data.Nat.PSub
import RedundantAudio.Proofs.Loss.Stream

/-!
# Credits and Their Counters

A tracker counts the credits that it has given, and keeps the media times of
the latest ones in two rings, so that it can take a credit back when its packet
turns up after all. Rings forget, and counters do not. So there are never more
times in a ring than its counter says, and that is what a credit that is taken
back relies on: it was given, so there is one to take off. For this to hold, a
time must not stand twice in the rings, or the second of its credits would be
taken back as well. Nothing is asked of the caller. Sequence numbers may jump,
media times may be made up, the operations may come in any order, and the rings
may have any size.

The counters are natural numbers, and one that is taken off from zero stays
zero without a word. Therefore the accounts are told a second time, by
operations that have no result when a recovery is taken off from zero. They
always have one, and it is the one of the accounts.

How many packets are lost is another matter. Those that are taken off need not
have been counted. But a loss is only ever counted together with a packet that
was expected, and the packet that arrived behind it was expected as well.

## Main definitions

* `Window.times`: The times that a ring holds.
* `Call`, `Tracker.callAll`: What a tracker is called for, in any order.
* `takeRed`, `takeFec`: One credit taken back.
* `Balanced`: The rings of credits and their counters.
* `Counted`: The packets that were expected and those that are lost.
* `Tracker.callAll?`: The same calls, where no recovery is taken off from zero.

## Theorems

* `callAll_induction`: What every operation preserves holds behind all calls.
* `balanced_callAll`, `counted_callAll`: The accounts behind any calls.
* `callAll?_eq`: No recovery is taken off from zero.
* `isSome_newest_callAll`: Whether there was a primary so far.
* `credits_in_step`: What holds of a tracker, whatever it is called for.
-/

namespace RedundantAudio

namespace Loss

namespace Window

/-- The times that a ring holds, the one written longest ago first. -/
def times (w : Window) : List UInt32 :=
  w.slots.reduceOption

/-- The times of a ring are its slots without the empty ones. A time therefore stands among
    them as often as in the slots, where the lemmas about rings count. -/
theorem count_times (w : Window) (time : UInt32) :
    w.times.count time = w.slots.count (some time) := by
  unfold times List.reduceOption
  rw [List.count, List.countP_filterMap, List.count]
  -- Both sides count over the slots, so each slot is looked at on its own.
  refine List.countP_congr fun slot _ => ?_
  cases slot with
  | none => simp
  | some time' => simp

/-- A ring that was just made has nothing but empty slots, and it has at least one even when
    it was asked for none. -/
theorem eq_none_of_mem_empty {capacity : Nat} {slot : Option UInt32}
    (h : slot ∈ (empty capacity).slots) : slot = none := by
  -- A ring without slots is one with a single slot.
  change slot ∈ List.replicate (max capacity 1) none ++ [] at h
  rw [List.append_nil] at h
  exact (List.mem_replicate.mp h).2

theorem count_empty (capacity : Nat) (time : UInt32) :
    (empty capacity).slots.count (some time) = 0 := by
  rw [List.count_eq_zero]
  intro h
  cases eq_none_of_mem_empty h

theorem size_empty (capacity : Nat) : (empty capacity).size = 0 := by
  unfold size
  rw [List.countP_eq_zero]
  intro slot hslot
  rw [eq_none_of_mem_empty hslot]
  exact Bool.false_ne_true

/-- Adding a time to a ring adds one to how often that time stands there. It is only a
    bound, as the slot that goes to make room may have held the same time. -/
theorem count_add_le (w : Window) (time time' : UInt32) :
    (w.add time).slots.count (some time')
      ≤ w.slots.count (some time') + if time = time' then 1 else 0 := by
  have htail := (List.tail_sublist w.slots).count_le (some time')
  rw [slots_add, List.count_append, List.count_singleton]
  by_cases h : time = time'
  · rw [if_pos h, if_pos (beq_iff_eq.mpr (congrArg some h))]
    omega
  · rw [if_neg h, if_neg fun heq => h (Option.some.inj (beq_iff_eq.mp heq))]
    omega

/-- A time that stands in neither of two rings may be added to one of them. -/
theorem count_add_le_one {w v : Window} {time : UInt32}
    (hone : ∀ time', w.slots.count (some time') + v.slots.count (some time') ≤ 1)
    (hnone : w.slots.count (some time) + v.slots.count (some time) = 0) (time' : UInt32) :
    (w.add time).slots.count (some time') + v.slots.count (some time') ≤ 1 := by
  have hadd := w.count_add_le time time'
  have hle := hone time'
  by_cases heq : time = time'
  · rw [if_pos heq] at hadd
    rw [heq] at hnone
    omega
  · rw [if_neg heq] at hadd
    omega

/-- A ring grows by at most one time when one is added. When it is full it does not grow at
    all, while its counter does. -/
theorem size_add_le (w : Window) (time : UInt32) : (w.add time).size ≤ w.size + 1 := by
  unfold size
  rw [slots_add, List.countP_append, List.countP_singleton]
  exact Nat.add_le_add (List.tail_sublist w.slots).countP_le (le_refl 1)

/-- Clearing a slot does not make a time stand there more often. -/
theorem count_clearFirst_le (time time' : UInt32) (slots : List (Option UInt32)) :
    (clearFirst time slots).count (some time') ≤ slots.count (some time') := by
  induction slots with
  | nil => exact le_refl _
  | cons slot slots ih =>
      unfold clearFirst
      by_cases h : slot = some time
      · -- Here is the slot that is cleared, and the rest is left as it is.
        rw [if_pos h, List.count_cons_of_ne (by simp)]
        exact List.count_le_count_cons
      · -- This slot stays, so the claim about the rest carries over.
        rw [if_neg h, List.count_cons, List.count_cons]
        omega

/-- Whatever time is taken out of a ring, no time stands there more often than before. -/
theorem count_remove_le (w : Window) (time time' : UInt32) :
    (w.remove time).slots.count (some time') ≤ w.slots.count (some time') := by
  unfold remove
  -- The newer times are searched first, and the older ones only behind them.
  split
  · simp only [slots, List.count_append]
    exact Nat.add_le_add_left (count_clearFirst_le time time' w.newer) _
  · simp only [slots, List.count_append]
    exact Nat.add_le_add_right (count_clearFirst_le time time' w.older) _

section Held

variable {w : Window} {time : UInt32} (h : w.contains time = true)

include h

theorem count_remove : (w.remove time).slots.count (some time) + 1 = w.slots.count (some time) :=
  countP_remove (p := (· == some time)) rfl (beq_self_eq_true _) h

/-- A ring that a time is taken out of holds one time less. With `size_pos`, this is how a
    counter can follow its ring down. -/
theorem size_remove : (w.remove time).size + 1 = w.size :=
  countP_remove rfl rfl h

theorem size_pos : 0 < w.size := by
  rw [← size_remove h]
  exact Nat.succ_pos _

end Held

theorem count_eq_zero {w : Window} {time : UInt32} (h : w.contains time = false) :
    w.slots.count (some time) = 0 := by
  rw [List.count_eq_zero, ← contains_iff, h]
  exact Bool.false_ne_true

end Window

/-! ### Calls in any order -/

/-- What a tracker is called for. -/
inductive Call
  /-- A primary encoding. -/
  | primary (sequence : UInt16) (time : UInt32)
  /-- A redundant block. -/
  | red (time : UInt32)
  /-- The correction data of an encoding. -/
  | fec (time : UInt32)
  /-- All blocks of a packet. -/
  | packet (sequence : UInt16) (blocks : List Red.Block)
  deriving DecidableEq, Repr

/-- Whether a call is for a primary encoding, alone or in a packet. -/
def Call.bringsPrimary : Call → Bool
  | .primary _ _ => true
  | .red _ => false
  | .fec _ => false
  | .packet _ blocks => blocks.any Red.Block.isLast

namespace Tracker

/-- The tracker after one call. -/
def call (t : Tracker) : Call → Tracker
  | .primary sequence time => t.countPrimary sequence time
  | .red time => t.creditRed time
  | .fec time => t.creditFec time
  | .packet sequence blocks => t.countPacket sequence blocks

/-- The tracker after some calls. -/
def callAll (t : Tracker) (calls : List Call) : Tracker :=
  calls.foldl call t

end Tracker

section Induction

variable {P : Tracker → Prop}
  (hprimary : ∀ t sequence time, P t → P (t.countPrimary sequence time))
  (hred : ∀ t time, P t → P (t.creditRed time))
  (hfec : ∀ t time, P t → P (t.creditFec time))

include hprimary hred hfec

/-- A block is a chain of the three operations, so what each of them preserves is preserved
    by a block. The order of the chain depends on the block, and this lemma is the only
    place where it has to be taken apart. -/
theorem countBlock_induction (t : Tracker) (sequence : UInt16) (block : Red.Block) (h : P t) :
    P (t.countBlock sequence block) := by
  -- Correction data comes last, whatever the block itself was counted as.
  have hcorrect : ∀ t, P t → P (if block.hasFec then t.creditFec block.timestamp else t) := by
    intro t ht
    by_cases hhas : block.hasFec = true
    · rw [if_pos hhas]
      exact hfec t _ ht
    · rw [if_neg hhas]
      exact ht
  unfold Tracker.countBlock
  -- A primary that is too far behind skips the whole block, its correction data included.
  by_cases hskip : (block.isLast && !t.accepts sequence) = true
  · rw [if_pos hskip]
    exact h
  · rw [if_neg hskip]
    by_cases hlast : block.isLast = true
    · simp only [if_pos hlast]
      exact hcorrect _ (hprimary t sequence _ h)
    · simp only [if_neg hlast]
      exact hcorrect _ (hred t _ h)

/-- What the three operations preserve is preserved by every call, as a packet is only a
    chain of blocks. -/
theorem call_induction (t : Tracker) (c : Call) (h : P t) : P (t.call c) := by
  cases c with
  | primary sequence time => exact hprimary t sequence time h
  | red time => exact hred t time h
  | fec time => exact hfec t time h
  | packet sequence blocks =>
      exact List.foldlRecOn _ _ h fun t ht block _ =>
        countBlock_induction hprimary hred hfec t sequence block ht

/-- What each operation preserves holds behind all calls, and between the blocks
    of a packet. -/
theorem callAll_induction (t : Tracker) (calls : List Call) (h : P t) : P (t.callAll calls) :=
  List.foldlRecOn _ _ h fun t ht c _ => call_induction hprimary hred hfec t c ht

end Induction

/-- What can become of a primary: it is the first, it is passed over, it comes late, or it
    is ahead by some packets. Passing over stands for packets that are too far behind and
    for those that are known, since both leave the tracker as it is. -/
theorem countPrimary_cases (t : Tracker) (sequence : UInt16) (time : UInt32) :
    t.newest = none ∧ t.countPrimary sequence time = t.countFirst sequence time ∨
    t.newest ≠ none ∧ (t.countPrimary sequence time = t ∨
      t.countPrimary sequence time = t.countLate time ∨
      ∃ distance, 0 < distance ∧
        t.countPrimary sequence time = t.countAhead sequence time distance) := by
  unfold Tracker.countPrimary
  cases hnewest : t.newest with
  | none => exact Or.inl ⟨rfl, rfl⟩
  | some newest =>
      refine Or.inr ⟨Option.some_ne_none newest, ?_⟩
      dsimp only
      -- The branches, in the order in which they are tried: too far behind, behind, the
      -- newest packet once more, and ahead.
      split
      · exact Or.inl rfl
      split
      · exact Or.inr (Or.inl rfl)
      split
      · exact Or.inl rfl
      · exact Or.inr (Or.inr ⟨_, by omega, rfl⟩)

/-! ### Credits -/

/-- The credit to redundancy for a media time is taken back, if there is one. -/
def takeRed (t : Tracker) (time : UInt32) : Tracker :=
  if t.redCredits.contains time then
    { t with
      counters.recoveredRed := t.counters.recoveredRed - 1
      redCredits := t.redCredits.remove time }
  else t

/-- The credit to correction data for a media time is taken back, if there is
    one. -/
def takeFec (t : Tracker) (time : UInt32) : Tracker :=
  if t.fecCredits.contains time then
    { t with
      counters.recoveredFec := t.counters.recoveredFec - 1
      fecCredits := t.fecCredits.remove time }
  else t

/-- A credit to redundancy is given, unless there is one. -/
def giveRed (t : Tracker) (time : UInt32) : Tracker :=
  if t.redCredits.contains time then t
  else
    { t with
      counters.recoveredRed := t.counters.recoveredRed + 1
      redCredits := t.redCredits.add time }

/-- Taking back the credits for a time is one step for each ring. The steps can be told one
    behind the other because neither looks at what the other changes. -/
theorem takeBackCredits_eq (t : Tracker) (time : UInt32) :
    t.takeBackCredits time = takeFec (takeRed t time) time :=
  rfl

/-- It makes no difference to correction data what redundancy is credited with. -/
theorem takeFec_red (t : Tracker) (time : UInt32) (recovered : Nat) (credits : Window) :
    takeFec { t with counters.recoveredRed := recovered, redCredits := credits } time
      = { takeFec t time with
          counters.recoveredRed := recovered
          redCredits := credits } := by
  unfold takeFec
  dsimp only
  split <;> rfl

theorem redCredits_takeFec (t : Tracker) (time : UInt32) :
    (takeFec t time).redCredits = t.redCredits := by
  unfold takeFec
  split <;> rfl

/-- A redundant block first gives its own credit, and then takes back that of correction
    data for the same time. So one packet is never recovered twice. -/
theorem creditRed_eq (t : Tracker) (time : UInt32) :
    t.creditRed time
      = if t.counters.lost = 0 || t.primaries.contains time then t
        else takeFec (giveRed t time) time :=
  rfl

/-- No time stands twice in the rings of credits, be it in one or in both, and
    neither ring holds more times than its counter says. -/
structure Balanced (t : Tracker) : Prop where
  count_le_one : ∀ time,
    t.redCredits.slots.count (some time) + t.fecCredits.slots.count (some time) ≤ 1
  red_size_le : t.redCredits.size ≤ t.counters.recoveredRed
  fec_size_le : t.fecCredits.size ≤ t.counters.recoveredFec

/-- A fresh tracker is in balance, since its rings are empty and its counters are zero. -/
theorem balanced_ofConfig (config : TrackerConfig) : Balanced (.ofConfig config) := by
  refine ⟨fun time => ?_, Nat.le_of_eq (Window.size_empty _), Nat.le_of_eq (Window.size_empty _)⟩
  change (Window.empty config.windowSize).slots.count (some time)
    + (Window.empty config.windowSize).slots.count (some time) ≤ 1
  rw [Window.count_empty]
  exact Nat.zero_le 1

section Credits

variable {t : Tracker} (h : Balanced t) (time : UInt32)

include h

/-- When a credit to redundancy is taken back, ring and counter go down together. Otherwise
    the counter could fall below what the ring still holds. -/
theorem balanced_takeRed : Balanced (takeRed t time) := by
  unfold takeRed
  by_cases hred : t.redCredits.contains time = true
  · -- Without `size_remove` the counter could fall below the ring, as it is taken off
    -- whatever the ring holds.
    have hsize : (t.redCredits.remove time).size ≤ t.counters.recoveredRed - 1 := by
      have hremove := Window.size_remove hred
      have hle := h.red_size_le
      omega
    rw [if_pos hred]
    refine ⟨fun time' => ?_, hsize, h.fec_size_le⟩
    exact (Nat.add_le_add_right (Window.count_remove_le _ time time') _).trans
      (h.count_le_one time')
  · rw [if_neg hred]
    exact h

/-- When a credit to correction data is taken back, ring and counter go down together. -/
theorem balanced_takeFec : Balanced (takeFec t time) := by
  unfold takeFec
  by_cases hfec : t.fecCredits.contains time = true
  · -- The counter follows its ring, as in `balanced_takeRed`.
    have hsize : (t.fecCredits.remove time).size ≤ t.counters.recoveredFec - 1 := by
      have hremove := Window.size_remove hfec
      have hle := h.fec_size_le
      omega
    rw [if_pos hfec]
    refine ⟨fun time' => ?_, h.red_size_le, hsize⟩
    exact (Nat.add_le_add_left (Window.count_remove_le _ time time') _).trans
      (h.count_le_one time')
  · rw [if_neg hfec]
    exact h

/-- A late primary keeps the accounts in balance when it takes back the credits for its
    time. -/
theorem balanced_takeBackCredits : Balanced (t.takeBackCredits time) := by
  rw [takeBackCredits_eq]
  exact balanced_takeFec (balanced_takeRed h time) time

/-- When a credit to correction data is taken back, no other one is left for the
    time. -/
theorem count_takeFec : (takeFec t time).fecCredits.slots.count (some time) = 0 := by
  unfold takeFec
  by_cases hfec : t.fecCredits.contains time = true
  · have hone := h.count_le_one time
    have hcount := Window.count_remove hfec
    rw [if_pos hfec]
    change (t.fecCredits.remove time).slots.count (some time) = 0
    omega
  · rw [if_neg hfec]
    exact Window.count_eq_zero (Bool.not_eq_true _ ▸ hfec)

/-- A redundant block keeps the accounts in balance. The credit that it replaces has to be
    gone from the other ring, or its time would stand in both. -/
theorem balanced_creditRed : Balanced (t.creditRed time) := by
  rw [creditRed_eq]
  split
  · exact h
  -- The rings are in balance all along when the credit is given behind the other
  -- one has been taken back.
  have hback := balanced_takeFec h time
  have hnone := count_takeFec h time
  unfold giveRed
  by_cases hred : t.redCredits.contains time = true
  · rw [if_pos hred]
    exact hback
  · rw [if_neg hred]
    have habsent := Window.count_eq_zero ((Bool.not_eq_true _).mp hred)
    have hone := hback.count_le_one
    rw [redCredits_takeFec] at hone
    rw [takeFec_red]
    refine ⟨?_, ?_, hback.fec_size_le⟩
    · exact Window.count_add_le_one hone (by rw [habsent, hnone])
    · exact (t.redCredits.size_add_le time).trans (Nat.succ_le_succ h.red_size_le)

/-- Correction data keeps the accounts in balance. It is given a credit only for a time that
    stands in neither ring, so that it stands in one of them behind it. -/
theorem balanced_creditFec : Balanced (t.creditFec time) := by
  unfold Tracker.creditFec
  dsimp only
  split
  · exact h
  · -- The credit is new, and the guard says that neither ring holds its time.
    rename_i hnew
    simp only [Bool.or_eq_true, decide_eq_true_eq, not_or, Bool.not_eq_true] at hnew
    have hred := Window.count_eq_zero hnew.1.2
    have hfec := Window.count_eq_zero hnew.2
    refine ⟨fun time' => ?_, h.red_size_le, ?_⟩
    · -- The rings change places, since it is the second one that is added to.
      have hone : ∀ time, t.fecCredits.slots.count (some time)
          + t.redCredits.slots.count (some time) ≤ 1 := by
        intro time
        rw [Nat.add_comm]
        exact h.count_le_one time
      rw [Nat.add_comm]
      exact Window.count_add_le_one hone (by rw [hfec, hred]) time'
    · exact (t.fecCredits.size_add_le _).trans (Nat.succ_le_succ h.fec_size_le)

/-- A primary keeps the accounts in balance. Only a late one touches the credits, and it
    does nothing but take them back. -/
theorem balanced_countPrimary (sequence : UInt16) : Balanced (t.countPrimary sequence time) := by
  rcases countPrimary_cases t sequence time with
    ⟨_, heq⟩ | ⟨_, heq | heq | ⟨distance, _, heq⟩⟩
  · rw [heq]
    exact ⟨h.count_le_one, h.red_size_le, h.fec_size_le⟩
  · rw [heq]
    exact h
  · rw [heq]
    -- A late primary: the loss that it takes off is no part of the balance.
    unfold Tracker.countLate
    split
    · exact h
    · refine balanced_takeBackCredits ?_ time
      exact ⟨h.count_le_one, h.red_size_le, h.fec_size_le⟩
  · rw [heq]
    exact ⟨h.count_le_one, h.red_size_le, h.fec_size_le⟩

end Credits

theorem balanced_countBlock {t : Tracker} (h : Balanced t) (sequence : UInt16)
    (block : Red.Block) : Balanced (t.countBlock sequence block) :=
  countBlock_induction (P := Balanced)
    (fun _ sequence time h => balanced_countPrimary h time sequence)
    (fun _ time h => balanced_creditRed h time) (fun _ time h => balanced_creditFec h time)
    t sequence block h

/-- Every call keeps the accounts in balance, with no condition on its sequence number or on
    its media times. -/
theorem balanced_call {t : Tracker} (h : Balanced t) (c : Call) : Balanced (t.call c) :=
  call_induction (P := Balanced)
    (fun _ sequence time h => balanced_countPrimary h time sequence)
    (fun _ time h => balanced_creditRed h time) (fun _ time h => balanced_creditFec h time)
    t c h

/-- The accounts are in balance behind any calls, by induction on the calls. -/
theorem balanced_callAll {t : Tracker} (h : Balanced t) (calls : List Call) :
    Balanced (t.callAll calls) :=
  List.foldlRecOn _ _ h fun _ ht c _ => balanced_call ht c

theorem Balanced.nodup {t : Tracker} (h : Balanced t) :
    (t.redCredits.times ++ t.fecCredits.times).Nodup := by
  rw [List.nodup_iff_count_le_one]
  intro time
  rw [List.count_append, Window.count_times, Window.count_times]
  exact h.count_le_one time

/-! ### Recoveries are never taken off from zero -/

/-- A credit to redundancy is taken back, if one is counted. -/
def takeRed? (t : Tracker) (time : UInt32) : Option Tracker :=
  if t.redCredits.contains time then do
    let recovered ← t.counters.recoveredRed.ppred
    return { t with
      counters.recoveredRed := recovered
      redCredits := t.redCredits.remove time }
  else some t

/-- A credit to correction data is taken back, if one is counted. -/
def takeFec? (t : Tracker) (time : UInt32) : Option Tracker :=
  if t.fecCredits.contains time then do
    let recovered ← t.counters.recoveredFec.ppred
    return { t with
      counters.recoveredFec := recovered
      fecCredits := t.fecCredits.remove time }
  else some t

namespace Tracker

def takeBackCredits? (t : Tracker) (time : UInt32) : Option Tracker := do
  takeFec? (← takeRed? t time) time

def countLate? (t : Tracker) (time : UInt32) : Option Tracker :=
  if t.primaries.contains time then some t
  else
    { t with
      counters.lost := t.counters.lost - 1
      primaries := t.primaries.add time }.takeBackCredits? time

def countPrimary? (t : Tracker) (sequence : UInt16) (time : UInt32) : Option Tracker :=
  match t.newest with
  | none => some (t.countFirst sequence time)
  | some newest =>
    let distance := sequenceDistance sequence newest
    if !t.accepts sequence then some t
    else if distance < 0 then t.countLate? time
    else if distance = 0 then some t
    else some (t.countAhead sequence time distance.toNat)

def creditRed? (t : Tracker) (time : UInt32) : Option Tracker :=
  if t.counters.lost = 0 || t.primaries.contains time then some t
  else takeFec? (giveRed t time) time

def countBlock? (t : Tracker) (sequence : UInt16) (block : Red.Block) : Option Tracker :=
  if block.isLast && !t.accepts sequence then some t
  else
    let counted :=
      if block.isLast then t.countPrimary? sequence block.timestamp
      else t.creditRed? block.timestamp
    counted.map fun t => if block.hasFec then t.creditFec block.timestamp else t

/-- One call, unless it takes a recovery off from zero. -/
def call? (t : Tracker) : Call → Option Tracker
  | .primary sequence time => t.countPrimary? sequence time
  | .red time => t.creditRed? time
  | .fec time => some (t.creditFec time)
  | .packet sequence blocks =>
    blocks.reverse.foldlM (fun t block => t.countBlock? sequence block) t

/-- Some calls, none of which takes a recovery off from zero. -/
def callAll? (t : Tracker) (calls : List Call) : Option Tracker :=
  calls.foldlM call? t

end Tracker

section Checked

variable {t : Tracker}

/-- Taking back a credit to redundancy always succeeds where the ring is no larger than its
    counter. -/
theorem takeRed?_eq (h : t.redCredits.size ≤ t.counters.recoveredRed) (time : UInt32) :
    takeRed? t time = some (takeRed t time) := by
  unfold takeRed? takeRed
  by_cases hred : t.redCredits.contains time = true
  · -- A credit that is held was counted.
    have hpos := Window.size_pos hred
    rw [if_pos hred, if_pos hred, Nat.ppred_eq_pred (by omega)]
    rfl
  · rw [if_neg hred, if_neg hred]

/-- Taking back a credit to correction data always succeeds where the ring is no larger than
    its counter. -/
theorem takeFec?_eq (h : t.fecCredits.size ≤ t.counters.recoveredFec) (time : UInt32) :
    takeFec? t time = some (takeFec t time) := by
  unfold takeFec? takeFec
  by_cases hfec : t.fecCredits.contains time = true
  · -- A credit that is held was counted, as for redundancy.
    have hpos := Window.size_pos hfec
    rw [if_pos hfec, if_pos hfec, Nat.ppred_eq_pred (by omega)]
    rfl
  · rw [if_neg hfec, if_neg hfec]

/-- Both credits can be taken back while the accounts are in balance. The first step must
    leave them so for the second. -/
theorem takeBackCredits?_eq (h : Balanced t) (time : UInt32) :
    t.takeBackCredits? time = some (t.takeBackCredits time) := by
  unfold Tracker.takeBackCredits?
  rw [takeRed?_eq h.red_size_le, takeBackCredits_eq]
  exact takeFec?_eq (balanced_takeRed h time).fec_size_le time

/-- A primary never takes a recovery off from zero while the accounts are in balance. Only a
    late one takes anything off. -/
theorem countPrimary?_eq (h : Balanced t) (sequence : UInt16) (time : UInt32) :
    t.countPrimary? sequence time = some (t.countPrimary sequence time) := by
  have hlate : t.countLate? time = some (t.countLate time) := by
    unfold Tracker.countLate? Tracker.countLate
    split
    · rfl
    · refine takeBackCredits?_eq ?_ time
      exact ⟨h.count_le_one, h.red_size_le, h.fec_size_le⟩
  unfold Tracker.countPrimary? Tracker.countPrimary
  -- The two functions branch alike, and differ at a late primary only.
  cases t.newest with
  | none => rfl
  | some newest =>
      dsimp only
      rw [hlate, apply_ite some, apply_ite some, apply_ite some]

/-- A redundant block never takes a recovery off from zero while the accounts are in
    balance, although it takes back a credit to correction data. -/
theorem creditRed?_eq (h : Balanced t) (time : UInt32) :
    t.creditRed? time = some (t.creditRed time) := by
  -- A credit to redundancy leaves the other ring and its counter alone.
  have hgive : (giveRed t time).fecCredits.size ≤ (giveRed t time).counters.recoveredFec := by
    unfold giveRed
    split
    · exact h.fec_size_le
    · exact h.fec_size_le
  unfold Tracker.creditRed?
  rw [takeFec?_eq hgive, creditRed_eq, apply_ite some]

/-- A block never takes a recovery off from zero while the accounts are in balance. -/
theorem countBlock?_eq (h : Balanced t) (sequence : UInt16) (block : Red.Block) :
    t.countBlock? sequence block = some (t.countBlock sequence block) := by
  unfold Tracker.countBlock? Tracker.countBlock
  rw [countPrimary?_eq h, creditRed?_eq h, ← apply_ite some]
  dsimp only [Option.map_some]
  rw [← apply_ite some]

/-- A chain of operations succeeds, if each one does while the accounts are in
    balance and leaves them so. -/
theorem foldlM_eq_some {α : Type} {f : Tracker → α → Tracker} {f? : Tracker → α → Option Tracker}
    (hbalanced : ∀ t x, Balanced t → Balanced (f t x))
    (hsome : ∀ t x, Balanced t → f? t x = some (f t x)) (l : List α) :
    ∀ t, Balanced t → l.foldlM f? t = some (l.foldl f t) := by
  induction l with
  | nil =>
      intro t _
      rfl
  | cons x l ih =>
      intro t h
      -- The first operation succeeds, and what it leaves is in balance again.
      rw [List.foldlM_cons, hsome t x h]
      exact ih (f t x) (hbalanced t x h)

/-- A call never takes a recovery off from zero while the accounts are in balance. -/
theorem call?_eq (h : Balanced t) (c : Call) : t.call? c = some (t.call c) := by
  cases c with
  | primary sequence time => exact countPrimary?_eq h sequence time
  | red time => exact creditRed?_eq h time
  -- Correction data only adds, so there is nothing to check.
  | fec time => rfl
  | packet sequence blocks =>
      exact foldlM_eq_some (fun _ block ht => balanced_countBlock ht sequence block)
        (fun _ block ht => countBlock?_eq ht sequence block) blocks.reverse t h

/-- No call takes a recovery off from zero, in whatever order they come. The checked
    operations agree with the plain ones all along. -/
theorem callAll?_eq (h : Balanced t) (calls : List Call) :
    t.callAll? calls = some (t.callAll calls) :=
  foldlM_eq_some (fun _ c ht => balanced_call ht c) (fun _ c ht => call?_eq ht c) calls t h

end Checked

/-! ### Losses -/

/-- Nothing is counted before the first primary. Behind it, fewer packets are lost
    than were expected. -/
structure Counted (t : Tracker) : Prop where
  counters_eq : t.newest = none → t.counters = {}
  lost_lt : t.newest ≠ none → t.counters.lost < t.counters.expected

section Losses

variable {t : Tracker}

/-- Behind the first primary, it is enough to compare the losses with the packets that were
    expected. -/
theorem counted_of_newest (hnewest : t.newest ≠ none)
    (hlt : t.counters.lost < t.counters.expected) : Counted t :=
  ⟨fun hnone => absurd hnone hnewest, fun _ => hlt⟩

/-- Credits leave losses and expected packets alone. Before the first primary nothing is
    lost, so that no credit is given at all. -/
theorem counted_credit {t' : Tracker} (h : Counted t) (hidle : t.counters.lost = 0 → t' = t)
    (hagrees : Agrees t' t) : Counted t' := by
  -- Before the first primary the counters must not move, and behind it the comparison is
  -- between two that do not.
  by_cases hnewest : t.newest = none
  · rw [hidle (congrArg Counters.lost (h.counters_eq hnewest))]
    exact h
  · refine counted_of_newest ?_ ?_
    · rw [hagrees.newest_eq]
      exact hnewest
    · rw [hagrees.lost_eq, hagrees.expected_eq]
      exact h.lost_lt hnewest

/-- A primary keeps the losses below the packets that were expected. Every one that is ahead
    is expected itself, on top of those that it is ahead by, and only the latter are added
    to the losses. -/
theorem counted_countPrimary (h : Counted t) (sequence : UInt16) (time : UInt32) :
    Counted (t.countPrimary sequence time) := by
  rcases countPrimary_cases t sequence time with
    ⟨hnone, heq⟩ | ⟨hsome, heq | heq | ⟨distance, hpos, heq⟩⟩
  · -- Nothing was lost before the first primary, which is expected itself.
    have hlost : t.counters.lost = 0 := congrArg Counters.lost (h.counters_eq hnone)
    rw [heq]
    exact counted_of_newest (Option.some_ne_none sequence) (hlost ▸ Nat.one_pos)
  · rw [heq]
    exact h
  · rw [heq]
    unfold Tracker.countLate
    split
    · exact h
    · -- A late primary takes off one loss at most, and none when nothing is lost.
      have hagrees := agrees_takeBackCredits { t with
        counters.lost := t.counters.lost - 1
        primaries := t.primaries.add time } time
      refine counted_of_newest ?_ ?_
      · rw [hagrees.newest_eq]
        exact hsome
      · rw [hagrees.lost_eq, hagrees.expected_eq]
        exact (Nat.sub_le _ 1).trans_lt (h.lost_lt hsome)
  · -- All packets but the last are lost, and all of them were expected.
    have hlt := h.lost_lt hsome
    rw [heq]
    refine counted_of_newest (Option.some_ne_none sequence) ?_
    change t.counters.lost + (distance - 1) < t.counters.expected + distance
    omega

theorem counted_callAll (h : Counted t) (calls : List Call) : Counted (t.callAll calls) :=
  callAll_induction (P := Counted) (fun _ sequence time ht => counted_countPrimary ht sequence time)
    (fun t time ht => counted_credit ht (fun hlost => creditRed_idle t time (Or.inl hlost))
      (agrees_creditRed t time))
    (fun t time ht => counted_credit ht (fun hlost => creditFec_idle t time (Or.inl hlost))
      (agrees_creditFec t time))
    t calls h

/-! ### Whether there was a primary -/

/-- Behind a primary there is a newest packet, even when the primary itself was passed over:
    then there was one before. -/
theorem isSome_newest_countPrimary (sequence : UInt16) (time : UInt32) :
    (t.countPrimary sequence time).newest.isSome = true := by
  rw [Option.isSome_iff_ne_none]
  rcases countPrimary_cases t sequence time with
    ⟨_, heq⟩ | ⟨hsome, heq | heq | ⟨distance, _, heq⟩⟩
  · rw [heq]
    exact Option.some_ne_none sequence
  · rw [heq]
    exact hsome
  · rw [heq]
    -- A late primary leaves the newest packet as it is.
    unfold Tracker.countLate
    split
    · exact hsome
    · rw [(agrees_takeBackCredits _ time).newest_eq]
      exact hsome
  · rw [heq]
    exact Option.some_ne_none sequence

/-- A block brings a newest packet exactly when it is a primary. One that is too far behind
    is no exception, since there must be a packet that it is behind, and redundant blocks
    only ever give credits. -/
theorem isSome_newest_countBlock (t : Tracker) (sequence : UInt16) (block : Red.Block) :
    (t.countBlock sequence block).newest.isSome = (t.newest.isSome || block.isLast) := by
  -- Correction data does not touch the newest packet.
  have hcorrect : ∀ t : Tracker, (if block.hasFec then t.creditFec block.timestamp else t).newest
      = t.newest := by
    intro t
    split
    · exact (agrees_creditFec t block.timestamp).newest_eq
    · rfl
  unfold Tracker.countBlock
  cases hlast : block.isLast with
  | false =>
      simp only [Bool.false_and, Bool.false_eq_true, if_false, Bool.or_false]
      rw [hcorrect, (agrees_creditRed t block.timestamp).newest_eq]
  | true =>
      rw [Bool.true_and, Bool.or_true]
      cases haccepts : t.accepts sequence with
      | true =>
          simp only [Bool.not_true, Bool.false_eq_true, if_false, if_true]
          rw [hcorrect, isSome_newest_countPrimary]
      | false =>
          -- What is too far behind is behind another primary.
          rw [Bool.not_false, if_pos rfl, Option.isSome_iff_ne_none]
          intro hnone
          rw [Tracker.accepts, Tracker.tooFarBehind, hnone, Option.isNone_none] at haccepts
          cases haccepts

/-- If each operation brings a newest packet exactly when it should, then a chain of them
    does when one of them should. -/
theorem isSome_newest_foldl {α : Type} {f : Tracker → α → Tracker} {brings : α → Bool}
    (h : ∀ t x, (f t x).newest.isSome = (t.newest.isSome || brings x)) (l : List α) :
    ∀ t, (l.foldl f t).newest.isSome = (t.newest.isSome || l.any brings) := by
  induction l with
  | nil =>
      intro t
      rw [List.any_nil, Bool.or_false]
      rfl
  | cons x l ih =>
      intro t
      -- What the first operation brings is what the others start with.
      rw [List.foldl_cons, ih, h, List.any_cons, Bool.or_assoc]

/-- A call brings a newest packet exactly when it brings a primary. A credit by itself does
    not, as it says nothing of where the stream stands. -/
theorem isSome_newest_call (t : Tracker) (c : Call) :
    (t.call c).newest.isSome = (t.newest.isSome || c.bringsPrimary) := by
  cases c with
  | primary sequence time =>
      rw [Call.bringsPrimary, Bool.or_true]
      exact isSome_newest_countPrimary sequence time
  | red time =>
      rw [Call.bringsPrimary, Bool.or_false]
      exact congrArg Option.isSome (agrees_creditRed t time).newest_eq
  | fec time =>
      rw [Call.bringsPrimary, Bool.or_false]
      exact congrArg Option.isSome (agrees_creditFec t time).newest_eq
  | packet sequence blocks =>
      rw [Call.bringsPrimary, ← List.any_reverse]
      exact isSome_newest_foldl (fun t block => isSome_newest_countBlock t sequence block) _ t

/-- There is a newest packet behind some calls exactly when there was one before, or when
    one of the calls brought a primary. -/
theorem isSome_newest_callAll (t : Tracker) (calls : List Call) :
    (t.callAll calls).newest.isSome = (t.newest.isSome || calls.any Call.bringsPrimary) :=
  isSome_newest_foldl isSome_newest_call calls t

end Losses

/-- Whatever a tracker is called for, no time stands twice in its rings of credits,
    and neither ring holds more times than were counted as recovered, so that
    no recovery is ever taken off from zero. All counters are zero until the
    first primary, and from then on fewer packets are lost than were expected. -/
theorem credits_in_step (config : TrackerConfig) (calls : List Call) :
    let t := (Tracker.ofConfig config).callAll calls
    (t.redCredits.times ++ t.fecCredits.times).Nodup ∧
      t.redCredits.size ≤ t.counters.recoveredRed ∧
      t.fecCredits.size ≤ t.counters.recoveredFec ∧
      (Tracker.ofConfig config).callAll? calls = some t ∧
      if calls.any Call.bringsPrimary then t.counters.lost < t.counters.expected
      else t.counters = {} := by
  intro t
  -- Two invariants carry the result, and both hold of a fresh tracker.
  have hstart := balanced_ofConfig config
  have hbalanced : Balanced t := balanced_callAll hstart calls
  have hcounted : Counted t := counted_callAll ⟨fun _ => rfl, fun h => absurd rfl h⟩ calls
  have hnewest : t.newest.isSome = calls.any Call.bringsPrimary :=
    isSome_newest_callAll (.ofConfig config) calls
  refine ⟨hbalanced.nodup, hbalanced.red_size_le, hbalanced.fec_size_le, callAll?_eq hstart calls,
    ?_⟩
  -- Which half of `Counted` applies depends on whether there is a newest packet.
  by_cases hprimary : calls.any Call.bringsPrimary = true
  · rw [if_pos hprimary]
    rw [hprimary, Option.isSome_iff_ne_none] at hnewest
    exact hcounted.lost_lt hnewest
  · rw [if_neg hprimary]
    rw [(Bool.not_eq_true _).mp hprimary, Option.isSome_eq_false_iff, Option.isNone_iff_eq_none]
      at hnewest
    exact hcounted.counters_eq hnewest

end Loss

end RedundantAudio
