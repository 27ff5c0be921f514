import Mathlib.Data.Prod.Lex
import RedundantAudio.Proofs.Loss.Grants

/-!
# What a Straggler Still Brings

A packet that is too far behind the newest is not accounted for, and its loss
stays a loss. That goes for its primary, which is passed over with its correction
data. The packets that it repeats are another matter: they are lost as well, for
all that is known, and its redundant blocks are credited like those of any other
packet.

So a straggler is the same as its redundant blocks, and what there is to say is
when these change nothing. It takes that none of them does so by itself, because
what one credit does is not undone by the next. To see this, the credits are
ranked. One to redundancy raises a count that no credit lowers. If the count
stays, it may still clear a time from the ring of corrections, and lower the
count of those. But that time is credited to redundancy, and does not come back
to the ring. All that is left are credits to correction data, which raise their
own count.

## Main definitions

* `creditBlock`: What a redundant block asks for.
* `Settled`: Nothing is left to credit for a redundant block.
* `rank`, `Advances`: How far the credits have come.
* `AsksFor`: Which media times a redundant block asks for.

## Theorems

* `advances_creditRed`, `advances_creditFec`: A credit is idle or goes forward.
* `advances_creditBlocks`: When redundant blocks change nothing.
* `countPacket_straggler`: A straggler is its redundant blocks.
* `straggler_credits`: What a straggler changes.
* `credited_creditBlocks`: Which times come to be credited.
* `straggler_alone`, `straggler_repeats_lost`: One that is ignored and one that is
  not.
-/

namespace RedundantAudio

namespace Loss

/-- The tracker after a redundant block: its packet is credited, and the one
    before it if there is correction data for it. -/
def creditBlock (t : Tracker) (block : Red.Block) : Tracker :=
  if block.hasFec then (t.creditRed block.timestamp).creditFec block.timestamp
  else t.creditRed block.timestamp

/-- A packet has arrived, or is credited to redundancy and to nothing else. -/
def RedSettled (t : Tracker) (time : UInt32) : Prop :=
  t.primaries.contains time = true ∨
    t.redCredits.contains time = true ∧ t.fecCredits.contains time = false

/-- The packet before has arrived or is credited. -/
def FecSettled (t : Tracker) (time : UInt32) : Prop :=
  t.primaries.contains (time - t.config.packetizationTime) = true ∨
    t.redCredits.contains (time - t.config.packetizationTime) = true ∨
    t.fecCredits.contains (time - t.config.packetizationTime) = true

/-- Nothing is left to credit for a redundant block. -/
def Settled (t : Tracker) (block : Red.Block) : Prop :=
  RedSettled t block.timestamp ∧ (block.hasFec = true → FecSettled t block.timestamp)

/-! ### No credit is undone -/

/-- How many slots of the ring of corrections hold a time that is credited to
    redundancy as well. -/
def overlap (t : Tracker) : Nat :=
  t.fecCredits.slots.countP (Option.any t.redCredits.contains)

/-- How far the credits of a tracker have come. -/
def rank (t : Tracker) : Nat ×ₗ (Natᵒᵈ ×ₗ Nat) :=
  toLex (t.counters.recoveredRed, toLex (.toDual (overlap t), t.counters.recoveredFec))

/-- A credit to redundancy more is a step forward, whatever else is lost by it. That is why
    it comes first. -/
theorem lt_rank_of_red {t t' : Tracker}
    (h : t.counters.recoveredRed < t'.counters.recoveredRed) : rank t < rank t' :=
  Prod.Lex.toLex_lt_toLex.mpr (Or.inl h)

/-- Where redundancy gains nothing, a slot cleared from the ring of corrections is a step
    forward, though a recovery is taken back with it. -/
theorem lt_rank_of_overlap {t t' : Tracker}
    (hred : t.counters.recoveredRed = t'.counters.recoveredRed) (h : overlap t' < overlap t) :
    rank t < rank t' :=
  Prod.Lex.toLex_lt_toLex.mpr (Or.inr ⟨hred, Prod.Lex.toLex_lt_toLex.mpr (Or.inl h)⟩)

/-- Where neither redundancy gains nor the overlap grows, a credit to correction data more
    is a step forward. -/
theorem lt_rank_of_fec {t t' : Tracker}
    (hred : t.counters.recoveredRed = t'.counters.recoveredRed) (hle : overlap t' ≤ overlap t)
    (h : t.counters.recoveredFec < t'.counters.recoveredFec) : rank t < rank t' := by
  refine Prod.Lex.toLex_lt_toLex.mpr (Or.inr ⟨hred, Prod.Lex.toLex_lt_toLex.mpr ?_⟩)
  -- A smaller overlap decides by itself, and an equal one leaves it to the count.
  rcases Nat.lt_or_eq_of_le hle with hlt | heq
  · exact Or.inl hlt
  · exact Or.inr ⟨congrArg OrderDual.toDual heq.symm, h⟩

/-- A tracker is the same as before, if there was nothing to do, and has gone
    forward otherwise. -/
def Advances (idle : Prop) (t t' : Tracker) : Prop :=
  idle ∧ t' = t ∨ ¬ idle ∧ rank t < rank t'

theorem Advances.le {idle : Prop} {t t' : Tracker} (h : Advances idle t t') :
    rank t ≤ rank t' := by
  rcases h with ⟨_, rfl⟩ | ⟨_, hlt⟩
  · exact le_refl _
  · exact le_of_lt hlt

theorem Advances.trans {idle idle' idle'' : Prop} {t t' t'' : Tracker} (h : Advances idle t t')
    (h' : Advances idle' t' t'') (hsame : t' = t → (idle' ↔ idle'')) :
    Advances (idle ∧ idle'') t t'' := by
  rcases h with ⟨hidle, rfl⟩ | ⟨hbusy, hlt⟩
  · rw [Advances, and_iff_right hidle, ← hsame rfl]
    exact h'
  · exact Or.inr ⟨fun hboth => hbusy hboth.1, hlt.trans_le h'.le⟩

/-- A tracker is the same as before exactly if there was nothing to do. It cannot come back
    to where it was, as it goes forward whenever there is something. -/
theorem Advances.eq_iff {idle : Prop} {t t' : Tracker} (h : Advances idle t t') :
    t' = t ↔ idle := by
  rcases h with ⟨hidle, heq⟩ | ⟨hbusy, hlt⟩
  · exact iff_of_true heq hidle
  · refine iff_of_false (fun heq => ?_) hbusy
    rw [heq] at hlt
    exact lt_irrefl _ hlt

/-- A credit to redundancy goes forward, unless it is idle. Either it adds to the
    recoveries, or it clears a time that both rings hold from the ring of corrections, and
    the rank is made so that both count as progress. -/
theorem lt_rank_creditRed {t : Tracker} {time : UInt32} (hlost : t.counters.lost ≠ 0)
    (h : ¬ RedSettled t time) : rank t < rank (t.creditRed time) := by
  rw [RedSettled, not_or, Bool.not_eq_true] at h
  cases hred : t.redCredits.contains time with
  | false =>
      rw [creditRed_new t time hlost h.1 hred]
      exact lt_rank_of_red (Nat.lt_succ_self _)
  | true =>
      -- All it can do is to clear the time from the ring of corrections.
      have hfec : t.fecCredits.contains time = true :=
        (Bool.not_eq_false _).mp fun hfec => h.2 ⟨hred, hfec⟩
      have hclear : t.creditRed time
          = { t with
              counters.recoveredFec := t.counters.recoveredFec - 1
              fecCredits := t.fecCredits.remove time } := by
        simp only [Tracker.creditRed, h.1, hred, hfec, decide_eq_false hlost, Bool.or_self,
          Bool.false_eq_true, if_false, if_true]
      have hcount := Window.countP_remove (p := Option.any t.redCredits.contains) rfl hred hfec
      rw [hclear]
      exact lt_rank_of_overlap rfl (Nat.lt_of_lt_of_eq (Nat.lt_succ_self _) hcount)

/-- A credit to redundancy is idle while nothing is lost or its packet is settled, and
    otherwise goes forward. -/
theorem advances_creditRed (t : Tracker) (time : UInt32) :
    Advances (t.counters.lost = 0 ∨ RedSettled t time) t (t.creditRed time) := by
  by_cases h : t.counters.lost = 0 ∨ RedSettled t time
  · refine Or.inl ⟨h, ?_⟩
    rcases h with hlost | hprimary | ⟨hred, hfec⟩
    · exact creditRed_idle t time (Or.inl hlost)
    · exact creditRed_idle t time (Or.inr hprimary)
    · exact creditRed_again t time hred hfec
  · exact Or.inr ⟨h, lt_rank_creditRed (fun hlost => h (Or.inl hlost)) fun hred => h (Or.inr hred)⟩

/-- A credit to correction data goes forward, unless it is idle. -/
theorem lt_rank_creditFec {t : Tracker} {time : UInt32} (hlost : t.counters.lost ≠ 0)
    (h : ¬ FecSettled t time) : rank t < rank (t.creditFec time) := by
  rw [FecSettled, not_or, not_or, Bool.not_eq_true, Bool.not_eq_true, Bool.not_eq_true] at h
  rw [creditFec_new t time hlost h.1 h.2.1 h.2.2]
  refine lt_rank_of_fec rfl ?_ (Nat.lt_succ_self _)
  -- The new time is not credited to redundancy, and it may push out one that is.
  rw [overlap, overlap, Window.slots_add, List.countP_append, List.countP_singleton]
  simp only [Option.any_some, h.2.1, Bool.false_eq_true, if_false, Nat.add_zero]
  exact (List.tail_sublist _).countP_le

/-- A credit to correction data is idle while nothing is lost or its packet is settled, and
    otherwise goes forward. -/
theorem advances_creditFec (t : Tracker) (time : UInt32) :
    Advances (t.counters.lost = 0 ∨ FecSettled t time) t (t.creditFec time) := by
  by_cases h : t.counters.lost = 0 ∨ FecSettled t time
  · exact Or.inl ⟨h, creditFec_idle t time h⟩
  · exact Or.inr ⟨h, lt_rank_creditFec (fun hlost => h (Or.inl hlost)) fun hfec => h (Or.inr hfec)⟩

/-- A redundant block changes nothing exactly if nothing is left to credit for
    it. -/
theorem advances_creditBlock (t : Tracker) (block : Red.Block) :
    Advances (t.counters.lost = 0 ∨ Settled t block) t (creditBlock t block) := by
  have hred := advances_creditRed t block.timestamp
  rw [creditBlock, Settled]
  -- Correction data is asked for only where the block has some.
  split
  case isTrue hfec =>
    have hboth := hred.trans (advances_creditFec _ block.timestamp) fun hsame => by rw [hsame]
    rw [← or_and_left] at hboth
    rwa [forall_prop_of_true hfec]
  case isFalse hfec =>
    rwa [and_iff_left fun hyes => absurd hyes hfec]

/-- A chain of redundant blocks changes nothing exactly if there is nothing to credit for
    any of them, by induction on the blocks. It could not do so in the end by undoing at one
    block what it did at another. -/
theorem advances_creditBlocks (blocks : List Red.Block) : ∀ t : Tracker,
    Advances (t.counters.lost = 0 ∨ ∀ block ∈ blocks, Settled t block) t
      (blocks.foldl creditBlock t) := by
  induction blocks with
  | nil =>
      intro t
      exact Or.inl ⟨Or.inr fun _ hblock => absurd hblock List.not_mem_nil, rfl⟩
  | cons block blocks ih =>
      intro t
      have hboth := (advances_creditBlock t block).trans (ih _) fun hsame => by rw [hsame]
      rw [← or_and_left] at hboth
      rwa [List.forall_mem_cons]

/-! ### A packet that is too far behind -/

theorem agrees_creditBlock (t : Tracker) (block : Red.Block) : Agrees (creditBlock t block) t := by
  rw [creditBlock]
  split
  · exact (agrees_creditFec _ _).trans (agrees_creditRed t _)
  · exact agrees_creditRed t _

/-- Several redundant blocks leave the accounts of primaries as they are, since each of them
    only gives credits. -/
theorem agrees_creditBlocks (blocks : List Red.Block) :
    ∀ t : Tracker, Agrees (blocks.foldl creditBlock t) t := by
  induction blocks with
  | nil =>
      intro t
      exact .rfl
  | cons block blocks ih =>
      intro t
      exact (ih (creditBlock t block)).trans (agrees_creditBlock t block)

/-- A redundant block asks for a media time to be credited: that of the packet
    it repeats, or with correction data that of the packet before. -/
def AsksFor (interval : UInt32) (block : Red.Block) (time : UInt32) : Prop :=
  block.timestamp = time ∨ block.hasFec = true ∧ block.timestamp - interval = time

/-- What is credited behind a redundant block was credited before, or the block asks for it
    and it is not on record. A block may ask twice, for the packet that it repeats and for
    the one in front of that. -/
theorem credited_creditBlock {t : Tracker} {block : Red.Block} {time : UInt32}
    (h : Credited (creditBlock t block) time) :
    Credited t time ∨
      AsksFor t.config.packetizationTime block time ∧ t.primaries.contains time = false := by
  -- This is what the credit to redundancy does, alone or in front of the other one.
  have hred : ∀ time', Credited (t.creditRed block.timestamp) time' → Credited t time' ∨
      AsksFor t.config.packetizationTime block time' ∧ t.primaries.contains time' = false := by
    intro time' hcredited
    rcases credited_creditRed hcredited with hold | ⟨rfl, hprimary⟩
    · exact Or.inl hold
    · exact Or.inr ⟨Or.inl rfl, hprimary⟩
  rw [creditBlock] at h
  split at h
  case isTrue hfec =>
    have hagrees := agrees_creditRed t block.timestamp
    rcases credited_creditFec h with hold | ⟨rfl, hprimary⟩
    · exact hred time hold
    · rw [hagrees.primaries_eq, hagrees.config_eq] at hprimary
      rw [hagrees.config_eq]
      exact Or.inr ⟨Or.inr ⟨hfec, rfl⟩, hprimary⟩
  case isFalse => exact hred time h

/-- What is credited was credited before, or is asked for by one of the blocks and not on
    record. The record is that of the tracker in front of all blocks, as none of them writes
    to it. -/
theorem credited_creditBlocks (blocks : List Red.Block) :
    ∀ {t : Tracker} {time : UInt32}, Credited (blocks.foldl creditBlock t) time →
      Credited t time ∨ t.primaries.contains time = false ∧
        ∃ block ∈ blocks, AsksFor t.config.packetizationTime block time := by
  induction blocks with
  | nil =>
      intro t time h
      exact Or.inl h
  | cons block blocks ih =>
      intro t time h
      have hagrees := agrees_creditBlock t block
      -- What the later blocks ask for is judged by the tracker behind the first one, which
      -- has the same primaries on record.
      rcases ih h with hold | ⟨hprimary, block', hblock', hasks⟩
      · rcases credited_creditBlock hold with hold | ⟨hasks, hprimary⟩
        · exact Or.inl hold
        · exact Or.inr ⟨hprimary, block, List.mem_cons_self, hasks⟩
      · rw [hagrees.primaries_eq] at hprimary
        rw [hagrees.config_eq] at hasks
        exact Or.inr ⟨hprimary, block', List.mem_cons_of_mem block hblock', hasks⟩

theorem countBlock_redundant (sequence : UInt16) {t : Tracker} {block : Red.Block}
    (h : block.isLast = false) : t.countBlock sequence block = creditBlock t block := by
  rw [Tracker.countBlock, h]
  rfl

/-- A packet that is too far behind is as good as its redundant blocks. They are given their
    credits in the order in which the packet has them from its end, as they are for any
    other packet, and only the primary is left out. -/
theorem countPacket_straggler (sequence : UInt16) (blocks : List Red.Block) {t : Tracker}
    (h : t.accepts sequence = false) :
    t.countPacket sequence blocks
      = (blocks.filter fun block => !block.isLast).reverse.foldl creditBlock t := by
  rw [Tracker.countPacket, ← List.filter_reverse]
  -- By induction on the blocks in the order in which they are handled.
  generalize blocks.reverse = handled
  induction handled generalizing t with
  | nil => rfl
  | cons block handled ih =>
      rw [List.foldl_cons, List.filter_cons]
      cases hlast : block.isLast with
      -- The primary is passed over, and its correction data with it.
      | true =>
          have hskip : t.countBlock sequence block = t := by
            rw [Tracker.countBlock, hlast, h]
            rfl
          rw [hskip]
          exact ih h
      | false =>
          -- A credit does not bring the packet any nearer.
          have hagrees := agrees_creditBlock t block
          have hstill : (creditBlock t block).accepts sequence = false := by
            rw [← h, Tracker.accepts, Tracker.tooFarBehind, hagrees.newest_eq, hagrees.config_eq]
            rfl
          rw [countBlock_redundant sequence hlast]
          exact ih hstill

/-- A packet that is too far behind leaves the losses as they are, and the
    primaries on record. Its own primary is passed over with its correction data,
    and its redundant blocks are credited, the newest first. Whatever they are
    credited with is not on record, and something changes exactly if there are
    losses and something is left to credit for one of the blocks. -/
theorem straggler_credits (t : Tracker) (sequence : UInt16) (blocks : List Red.Block)
    (h : t.accepts sequence = false) :
    t.countPacket sequence blocks
        = (blocks.filter fun block => !block.isLast).reverse.foldl creditBlock t ∧
      Agrees (t.countPacket sequence blocks) t ∧
      (∀ time, Credited (t.countPacket sequence blocks) time → Credited t time ∨
        t.primaries.contains time = false ∧ ∃ block ∈ blocks, block.isLast = false ∧
          AsksFor t.config.packetizationTime block time) ∧
      (t.countPacket sequence blocks = t ↔
        t.counters.lost = 0 ∨ ∀ block ∈ blocks, block.isLast = false → Settled t block) := by
  have heq := countPacket_straggler sequence blocks h
  have hiff := (advances_creditBlocks (blocks.filter fun block => !block.isLast).reverse t).eq_iff
  -- The order in which the blocks are handled does not matter to what is said of all.
  have hmem : ∀ block, block ∈ (blocks.filter fun block => !block.isLast).reverse ↔
      block ∈ blocks ∧ block.isLast = false := by
    intro block
    rw [List.mem_reverse, List.mem_filter, Bool.not_eq_true']
  simp only [hmem, and_imp] at hiff
  rw [heq]
  refine ⟨rfl, agrees_creditBlocks _ t, fun time hcredited => ?_, hiff⟩
  rcases credited_creditBlocks _ hcredited with hold | ⟨hprimary, block, hblock, hasks⟩
  · exact Or.inl hold
  · exact Or.inr ⟨hprimary, block, ((hmem block).mp hblock).1, ((hmem block).mp hblock).2, hasks⟩

/-- Packet 2 comes too late behind packet 19 and carries nothing but itself, with correction
    data for packet 1, which is lost. It is ignored: correction data beside a primary is
    passed over together with it. -/
theorem straggler_alone :
    (Stream.plain (fun _ => 0) true).track [0, 19, 2]
      = (Stream.plain (fun _ => 0) true).track [0, 19] := by
  have hblocks : (Stream.plain (fun _ => 0) true).blocks 2
      = [(Stream.plain (fun _ => 0) true).block 2 2] := rfl
  have hrefused : ((Stream.plain (fun _ => 0) true).track [0, 19]).accepts
      ((Stream.plain (fun _ => 0) true).sequenceOf 2) = false := by decide
  have hcredits := straggler_credits _ _ ((Stream.plain (fun _ => 0) true).blocks 2) hrefused
  refine hcredits.2.2.2.mpr (Or.inr fun block hblock hlast => ?_)
  rw [hblocks, List.mem_singleton] at hblock
  rw [hblock] at hlast
  cases hlast

/-- When packet 2 comes too late and repeats packet 1, it is not ignored: packet 1 is
    credited to redundancy. The counters of packets lost and expected stay as they were, so
    only the primary has been passed over. -/
theorem straggler_repeats_lost :
    ((Stream.plain (fun n => if n = 2 then 1 else 0) false).track [0, 19]).accepts
        ((Stream.plain (fun n => if n = 2 then 1 else 0) false).sequenceOf 2) = false ∧
      ((Stream.plain (fun n => if n = 2 then 1 else 0) false).track [0, 19]).counters
        = { lost := 18, expected := 20, recoveredRed := 0, recoveredFec := 0 } ∧
      ((Stream.plain (fun n => if n = 2 then 1 else 0) false).track [0, 19, 2]).counters
        = { lost := 18, expected := 20, recoveredRed := 1, recoveredFec := 0 } := by
  decide

end Loss

end RedundantAudio
