import RedundantAudio.Proofs.Loss.Stragglers

/-!
# Packets That Change Nothing

A packet is accounted for in two parts: first its primary, and then the credits
that it asks for, with its own correction data and with its redundant blocks. A
primary has nothing to say if it is refused or known, and a credit if there are
no losses or nothing is left to credit.

A packet changes nothing exactly if no part of it has anything to say. One half
of that is plain. For the other half, a part must not undo what another one did.
Credits do not undo each other, since they only go forward. Nor do they undo the
primary, because one that is neither refused nor known leaves its mark where no
credit comes: it is the newest from then on, or it is written to the ring of
primaries.

## Main definitions

* `Known`: A primary that has been accounted for, as far as a tracker can tell.
* `Exhausted`: Nothing is left to credit for a block of a packet.

## Theorems

* `countPrimary_of_neg`, `countPrimary_of_pos`: What becomes of a primary that is accepted.
* `countPrimary_known`, `countPrimary_unknown`: Whether it leaves a mark.
* `agrees_countPacket`: Only credits come behind the primary.
* `countPacket_eq_self_iff`: When a packet changes nothing.
-/

namespace RedundantAudio

namespace Loss

/-- A primary that has been accounted for, as far as a tracker can tell: it is the
    newest, or it is behind that and its media time is on record. -/
def Known (t : Tracker) (sequence : UInt16) (time : UInt32) : Prop :=
  ∃ newest, t.newest = some newest ∧
    (sequence = newest ∨ sequenceDistance sequence newest < 0 ∧ t.primaries.contains time = true)

/-- Nothing is left to credit for a block of a packet. The primary asks for a credit
    only if it is not refused. -/
def Exhausted (t : Tracker) (sequence : UInt16) (block : Red.Block) : Prop :=
  if block.isLast then
    t.accepts sequence = true → block.hasFec = true → FecSettled t block.timestamp
  else Settled t block

/-- Sequence numbers are at distance zero only from themselves, since the distance is read
    off their difference. -/
theorem sequenceDistance_eq_zero_iff (sequence newest : UInt16) :
    sequenceDistance sequence newest = 0 ↔ sequence = newest := by
  have hlt := (sequence - newest).toNat_lt
  have hsub : (sequence - newest).toNat = 0 ↔ sequence = newest := by
    rw [← UInt16.toNat_zero, UInt16.toNat_inj, UInt16.sub_eq_iff_eq_add, UInt16.zero_add]
  rw [sequenceDistance, ← hsub]
  split <;> omega

section Packet

variable {t : Tracker} {sequence : UInt16} {time : UInt32}

theorem countPrimary_of_neg {newest : UInt16} (hnewest : t.newest = some newest)
    (haccepts : t.accepts sequence = true) (hbehind : sequenceDistance sequence newest < 0) :
    t.countPrimary sequence time = t.countLate time := by
  simp only [Tracker.countPrimary, hnewest, haccepts, hbehind, Bool.not_true, Bool.false_eq_true,
    if_false, if_true]

/-- An accepted primary ahead of the newest is counted as ahead by their distance. -/
theorem countPrimary_of_pos {newest : UInt16} (hnewest : t.newest = some newest)
    (haccepts : t.accepts sequence = true) (hahead : 0 < sequenceDistance sequence newest) :
    t.countPrimary sequence time
      = t.countAhead sequence time (sequenceDistance sequence newest).toNat := by
  have hbehind : ¬ sequenceDistance sequence newest < 0 := by omega
  have hzero : ¬ sequenceDistance sequence newest = 0 := by omega
  simp only [Tracker.countPrimary, hnewest, haccepts, Bool.not_true, Bool.false_eq_true, if_false,
    if_neg hbehind, if_neg hzero]

/-- A primary that is known changes nothing. One that is refused does not either, so in
    both of the ways to be known it only has to be looked at when it is accepted. -/
theorem countPrimary_known (h : Known t sequence time) : t.countPrimary sequence time = t := by
  cases haccepts : t.accepts sequence with
  | false => exact countPrimary_rejected time haccepts
  | true =>
      -- It is the newest once more, or a late one that is on record.
      rcases h with ⟨newest, hnewest, rfl | ⟨hbehind, hrecord⟩⟩
      · have hzero := (sequenceDistance_eq_zero_iff sequence sequence).mpr rfl
        simp only [Tracker.countPrimary, hnewest, haccepts, hzero, Bool.not_true,
          Bool.false_eq_true, Int.lt_irrefl, if_false, if_true]
      · rw [countPrimary_of_neg hnewest haccepts hbehind, Tracker.countLate, if_pos hrecord]

/-- A primary that is neither refused nor known leaves its mark, and it leaves it where no
    credit comes: it is the newest from then on, or it is on record. So the blocks in front
    of it cannot undo what it has changed. -/
theorem countPrimary_unknown (haccepts : t.accepts sequence = true)
    (h : ¬ Known t sequence time) :
    (t.countPrimary sequence time).newest ≠ t.newest ∨
      (t.countPrimary sequence time).primaries ≠ t.primaries := by
  -- The first primary is the newest from then on.
  cases hnewest : t.newest with
  | none =>
      left
      rw [Tracker.countPrimary, hnewest]
      exact Option.some_ne_none sequence
  | some newest =>
      have hne : sequence ≠ newest := fun heq => h ⟨newest, hnewest, Or.inl heq⟩
      have hzero := mt (sequenceDistance_eq_zero_iff sequence newest).mp hne
      rcases Int.lt_or_gt_of_ne hzero with hbehind | hahead
      · -- It is not on record, and then it is.
        have hrecord : ¬ t.primaries.contains time = true := fun hin =>
          h ⟨newest, hnewest, Or.inr ⟨hbehind, hin⟩⟩
        have hadded : (t.countPrimary sequence time).primaries = t.primaries.add time := by
          rw [countPrimary_of_neg hnewest haccepts hbehind, Tracker.countLate, if_neg hrecord]
          exact (agrees_takeBackCredits _ time).primaries_eq
        right
        intro hsame
        rw [← hsame, hadded, Window.contains_iff, Window.slots_add] at hrecord
        exact hrecord (List.mem_append_right _ (List.mem_singleton_self _))
      · -- A packet that is ahead is the newest from then on, and another one was.
        left
        rw [countPrimary_of_pos hnewest haccepts hahead, ← hnewest]
        exact fun hsame => hne (Option.some.inj (hsame.trans hnewest))

variable {redundant : List Red.Block} {primary : Red.Block}

theorem countPacket_concat (hredundant : ∀ block ∈ redundant, block.isLast = false) :
    t.countPacket sequence (redundant ++ [primary])
      = redundant.reverse.foldl creditBlock (t.countBlock sequence primary) := by
  rw [Tracker.countPacket, List.reverse_append, List.reverse_singleton, List.singleton_append,
    List.foldl_cons]
  refine List.foldl_ext _ _ _ fun t' block hblock => ?_
  exact countBlock_redundant sequence (hredundant block (List.mem_reverse.mp hblock))

theorem countBlock_primary (hlast : primary.isLast = true) (haccepts : t.accepts sequence = true) :
    t.countBlock sequence primary
      = if primary.hasFec then
          (t.countPrimary sequence primary.timestamp).creditFec primary.timestamp
        else t.countPrimary sequence primary.timestamp := by
  simp only [Tracker.countBlock, hlast, haccepts, Bool.not_true, Bool.and_false,
    Bool.false_eq_true, if_false, if_true]

/-- Correction data leaves the accounts of primaries as the primary itself left them. If
    that was refused, there is nothing to leave. -/
theorem agrees_countBlock_primary (hlast : primary.isLast = true) :
    Agrees (t.countBlock sequence primary) (t.countPrimary sequence primary.timestamp) := by
  cases haccepts : t.accepts sequence with
  | false =>
      rw [countPrimary_rejected _ haccepts]
      simp only [Tracker.countBlock, hlast, haccepts, Bool.not_false, Bool.and_self, if_true]
      exact .rfl
  | true =>
      rw [countBlock_primary hlast haccepts]
      split
      · exact agrees_creditFec _ primary.timestamp
      · exact .rfl

theorem agrees_countPacket (t : Tracker) (sequence : UInt16)
    (hredundant : ∀ block ∈ redundant, block.isLast = false)
    (hlast : primary.isLast = true) :
    Agrees (t.countPacket sequence (redundant ++ [primary]))
      (t.countPrimary sequence primary.timestamp) := by
  rw [countPacket_concat hredundant]
  exact (agrees_creditBlocks _ _).trans (agrees_countBlock_primary hlast)

/-- The primary block of a packet that is refused or known is as good as its correction
    data, which count unless it is refused. -/
theorem advances_countBlock (hlast : primary.isLast = true)
    (hidle : t.accepts sequence = false ∨ Known t sequence primary.timestamp) :
    Advances (t.counters.lost = 0 ∨ Exhausted t sequence primary) t
      (t.countBlock sequence primary) := by
  rw [Exhausted, if_pos hlast]
  cases haccepts : t.accepts sequence with
  | false =>
      -- A primary that is refused asks for nothing.
      refine Or.inl ⟨Or.inr fun hno => absurd hno Bool.false_ne_true, ?_⟩
      simp only [Tracker.countBlock, hlast, haccepts, Bool.not_false, Bool.and_self, if_true]
  | true =>
      -- One that is known changes nothing by itself, so its correction data is all there
      -- is.
      have hknown := hidle.resolve_left fun hno => absurd (haccepts.symm.trans hno) (by decide)
      rw [countBlock_primary hlast haccepts, countPrimary_known hknown]
      split
      case isTrue hfec =>
        simpa only [hfec, forall_const] using advances_creditFec t primary.timestamp
      case isFalse hfec =>
        exact Or.inl ⟨Or.inr fun _ hyes => absurd hyes hfec, rfl⟩

/-- A packet changes nothing exactly if its primary is refused or known, and there are no
    losses or nothing is left to credit for any of its blocks. One direction is not plain: a
    packet could have changed something and changed it back, which is ruled out as credits
    only go forward. -/
theorem countPacket_eq_self_iff (t : Tracker) (sequence : UInt16)
    (hredundant : ∀ block ∈ redundant, block.isLast = false)
    (hlast : primary.isLast = true) :
    t.countPacket sequence (redundant ++ [primary]) = t ↔
      (t.accepts sequence = false ∨ Known t sequence primary.timestamp) ∧
        (t.counters.lost = 0 ∨
          ∀ block ∈ redundant ++ [primary], Exhausted t sequence block) := by
  by_cases hidle : t.accepts sequence = false ∨ Known t sequence primary.timestamp
  · -- No credit of the packet can be undone by another one, so nothing has changed in the
    -- end only if nothing has changed on the way.
    have hboth := (advances_countBlock hlast hidle).trans
      (advances_creditBlocks redundant.reverse _) fun hsame => by rw [hsame]
    have hblocks : (∀ block ∈ redundant ++ [primary], Exhausted t sequence block) ↔
        Exhausted t sequence primary ∧ ∀ block ∈ redundant.reverse, Settled t block := by
      rw [List.forall_mem_append, List.forall_mem_singleton, and_comm]
      refine and_congr_right fun _ => ?_
      simp only [List.mem_reverse]
      refine forall₂_congr fun block hblock => ?_
      rw [Exhausted, hredundant block hblock]
      exact Iff.rfl
    rw [← or_and_left] at hboth
    rw [countPacket_concat hredundant, hboth.eq_iff, hblocks, and_iff_right hidle]
  · refine iff_of_false (fun hsame => ?_) fun hboth => hidle hboth.1
    rw [not_or, Bool.not_eq_false] at hidle
    have hagrees := agrees_countPacket t sequence hredundant hlast
    rw [hsame] at hagrees
    -- What the primary leaves its mark on would have to be as before.
    rcases countPrimary_unknown hidle.1 hidle.2 with hnewest | hprimaries
    · exact hnewest hagrees.newest_eq.symm
    · exact hprimaries hagrees.primaries_eq.symm

end Packet

end Loss

end RedundantAudio
