import RedundantAudio.Loss.Tracker
import RedundantAudio.Proofs.Loss.Ring

/-!
# Accounting for a Regular Stream

A tracker sees sequence numbers and media times, both of which wrap. For a
stream that numbers its packets, what it does with a packet falls into two
parts that are worth keeping apart. The primary is counted, which concerns
how many packets there should be and how many are missing. Then the packet
asks for *credits*, one after the other: its blocks vouch for packets that may
be lost, by repeating them or by correcting them. A credit never touches the
first part of the accounts, and counting a primary that is ahead never touches
the second.

`Tracked` is the first part for packets that arrive in order, and is as good
as it can be: the ring of primaries holds the last packets that arrived, and
the losses are the packets that are missing. The gap between two packets has
to stay below half the range of sequence numbers, or the newer one looks like
the older one.

## Main definitions

* `Credit`, `Credit.Protects`: What a block asks for, and for which packet.
* `Stream`: A stream that numbers its packets.
* `Stream.credits`: What the blocks of a packet ask for, in order.
* `Stream.receive`, `Stream.track`: The tracker after one packet, and after
  some.
* `Agrees`: Two trackers agree on everything but credits.
* `Tracked`: The accounts of primaries.
* `missing`: How many packets did not arrive.
* `Stream.plain`: A stream without audio.

## Theorems

* `Stream.receive_eq`: A packet is a primary and its credits.
* `creditRed_new`, `creditFec_new`: A credit that is given.
* `agrees_credit`: A credit does not touch the accounts of primaries.
* `Stream.track_induction`: Induction over packets that arrive in order.
* `tracked_track`: The accounts of packets that arrive in order.
* `Tracked.contains_iff`: Which primaries are on record.
* `length_add_missing`: Packets that are here and packets that are missing.
* `Tracked.lost_eq_missing`: How many packets are lost.
-/

namespace RedundantAudio

namespace Loss

/-- What a block asks for, with the number of its packet: that the packet be
    counted as repeated, or the packet before it as corrected. -/
inductive Credit
  | red (n : Nat)
  | fec (n : Nat)
  deriving DecidableEq, Repr

/-- The packet that a credit is for. The correction data of packet 0 is for
    none. -/
def Credit.Protects (c : Credit) (m : Nat) : Prop :=
  c = .red m ∨ c = .fec (m + 1)

/-- A stream that sends a packet in every interval, in which packets carry
    older ones from no more than five intervals back. -/
structure Stream where
  /-- The sequence number of the first packet. -/
  sequence : UInt16
  /-- The media time of the first packet. -/
  start : UInt32
  /-- The numbers of the packets that a packet carries. -/
  carried : Nat → List Nat
  /-- The block of a packet that carries, for a packet that it carries or for
      itself. -/
  block : Nat → Nat → Red.Block
  carried_lt : ∀ n, ∀ m ∈ carried n, m < n
  carried_near : ∀ n, ∀ m ∈ carried n, n ≤ m + 5
  isLast_own : ∀ n, (block n n).isLast = true
  isLast_carried : ∀ n, ∀ m ∈ carried n, (block n m).isLast = false
  timestamp_own : ∀ n, (block n n).timestamp = Red.packetTime start n
  timestamp_carried : ∀ n, ∀ m ∈ carried n, (block n m).timestamp = Red.packetTime start m

namespace Stream

variable (s : Stream)

/-- The sequence number of a packet. -/
def sequenceOf (n : Nat) : UInt16 :=
  s.sequence + .ofNat n

/-- The media time of a packet. -/
def time (n : Nat) : UInt32 :=
  Red.packetTime s.start n

/-- The blocks of a packet, its own last. -/
def blocks (n : Nat) : List Red.Block :=
  (s.carried n ++ [n]).map (s.block n)

/-- The tracker after one more packet. -/
def receive (t : Tracker) (n : Nat) : Tracker :=
  t.countPacket (s.sequenceOf n) (s.blocks n)

/-- A fresh tracker after some packets. -/
def track (arrivals : List Nat) : Tracker :=
  arrivals.foldl s.receive (.ofConfig {})

/-- Receiving one more packet is one more step of the tracker, so that runs can be followed
    from the front. -/
theorem track_concat (arrivals : List Nat) (n : Nat) :
    s.track (arrivals ++ [n]) = s.receive (s.track arrivals) n :=
  List.foldl_concat _ _ _ _

/-- The tracker after a credit was asked for. -/
def credit (t : Tracker) : Credit → Tracker
  | .red n => t.creditRed (s.time n)
  | .fec n => t.creditFec (s.time n)

/-- What the correction data of a block asks for, if there is any. -/
def corrections (n m : Nat) : List Credit :=
  if (s.block n m).hasFec then [.fec m] else []

/-- What the blocks of a packet ask for, the newest block first. -/
def credits (n : Nat) : List Credit :=
  s.corrections n n ++ (s.carried n).reverse.flatMap fun m => .red m :: s.corrections n m

theorem mem_corrections (n m k : Nat) :
    .fec k ∈ s.corrections n m ↔ k = m ∧ (s.block n m).hasFec = true := by
  rw [corrections]
  by_cases h : (s.block n m).hasFec = true
  · rw [if_pos h, List.mem_singleton, Credit.fec.injEq, and_iff_left h]
  · rw [if_neg h]
    exact ⟨fun hin => absurd hin List.not_mem_nil, fun hk => absurd hk.2 h⟩

/-- Correction data never asks that a packet be counted as repeated. -/
theorem red_not_mem_corrections (n m k : Nat) : .red k ∉ s.corrections n m := by
  rw [corrections]
  split
  · exact fun hin => Credit.noConfusion (List.mem_singleton.mp hin)
  · exact List.not_mem_nil

/-- A packet asks that another be counted as repeated exactly if it carries it. Correction
    data never asks for this, not even that of the packet itself. -/
theorem red_mem_credits (n m : Nat) : .red m ∈ s.credits n ↔ m ∈ s.carried n := by
  rw [credits, List.mem_append, or_iff_right (s.red_not_mem_corrections n n m), List.mem_flatMap]
  -- A carried packet brings one such credit, and its correction data brings none.
  constructor
  · rintro ⟨k, hk, hin⟩
    rcases List.mem_cons.mp hin with heq | hin
    · rw [Credit.red.inj heq]
      exact List.mem_reverse.mp hk
    · exact absurd hin (s.red_not_mem_corrections n k m)
  · exact fun hm => ⟨m, List.mem_reverse.mpr hm, List.mem_cons_self⟩

/-- A packet asks for what correction data covers exactly where one of its own blocks has
    some: its primary, or a packet that it carries. -/
theorem fec_mem_credits (n m : Nat) :
    .fec m ∈ s.credits n ↔ (m = n ∨ m ∈ s.carried n) ∧ (s.block n m).hasFec = true := by
  rw [credits, List.mem_append, mem_corrections, List.mem_flatMap]
  constructor
  · -- The credit comes from the primary or from one of the carried blocks.
    rintro (⟨rfl, hfec⟩ | ⟨k, hk, hin⟩)
    · exact ⟨Or.inl rfl, hfec⟩
    · rcases List.mem_cons.mp hin with heq | hin
      · cases heq
      · rcases (s.mem_corrections n k m).mp hin with ⟨rfl, hfec⟩
        exact ⟨Or.inr (List.mem_reverse.mp hk), hfec⟩
  · rintro ⟨rfl | hm, hfec⟩
    · exact Or.inl ⟨rfl, hfec⟩
    · exact Or.inr ⟨m, List.mem_reverse.mpr hm,
        List.mem_cons_of_mem _ ((s.mem_corrections n m m).mpr ⟨rfl, hfec⟩)⟩

/-- A packet that asks for a credit comes soon after the packet it is for. Redundancy
    reaches five intervals back, and correction data one further. -/
theorem near_of_protects {n m : Nat} (c : Credit) (hc : c.Protects m)
    (hasked : c ∈ s.credits n) : m < n ∧ n ≤ m + 6 := by
  rcases hc with rfl | rfl
  · rw [s.red_mem_credits] at hasked
    have hlt := s.carried_lt n m hasked
    have hnear := s.carried_near n m hasked
    omega
  · -- The correction data of a packet covers the one before it, hence the sixth.
    rw [s.fec_mem_credits] at hasked
    rcases hasked.1 with rfl | hcarried
    · omega
    · have hlt := s.carried_lt n _ hcarried
      have hnear := s.carried_near n _ hcarried
      omega

/-- A redundant block does nothing but ask for its credits, first for the packet that it
    carries, and then for the one before. -/
theorem countBlock_carried (t : Tracker) (n m : Nat) (hm : m ∈ s.carried n) :
    t.countBlock (s.sequenceOf n) (s.block n m)
      = (Credit.red m :: s.corrections n m).foldl s.credit t := by
  rw [Tracker.countBlock, s.isLast_carried n m hm, s.timestamp_carried n m hm, corrections]
  by_cases h : (s.block n m).hasFec = true
  · rw [if_pos h, if_pos h]
    rfl
  · rw [if_neg h, if_neg h]
    rfl

/-- The last block of an accepted packet counts the primary, and only then asks for what its
    correction data covers. -/
theorem countBlock_own (t : Tracker) (n : Nat) (haccepts : t.accepts (s.sequenceOf n) = true) :
    t.countBlock (s.sequenceOf n) (s.block n n)
      = (s.corrections n n).foldl s.credit (t.countPrimary (s.sequenceOf n) (s.time n)) := by
  rw [Tracker.countBlock, s.isLast_own n, haccepts, s.timestamp_own n, corrections]
  by_cases h : (s.block n n).hasFec = true
  · rw [if_pos h, if_pos h]
    rfl
  · rw [if_neg h, if_neg h]
    rfl

/-- A packet counts its primary first, and then asks for its credits. The tracker gives them
    block by block, from the newest to the oldest, and this is the order of the list of
    credits. -/
theorem receive_eq (t : Tracker) (n : Nat) (haccepts : t.accepts (s.sequenceOf n) = true) :
    s.receive t n
      = (s.credits n).foldl s.credit (t.countPrimary (s.sequenceOf n) (s.time n)) := by
  -- By induction on the packets that it carries, the newest first.
  have hcarried : ∀ (l : List Nat) (t : Tracker), (∀ m ∈ l, m ∈ s.carried n) →
      (l.map (s.block n)).foldl (fun t block => t.countBlock (s.sequenceOf n) block) t
        = (l.flatMap fun m => .red m :: s.corrections n m).foldl s.credit t := by
    intro l
    -- The tracker walks from the newest block to the oldest, and so do the credits.
    induction l with
    | nil =>
        intro t _
        rfl
    | cons m l ih =>
        intro t hl
        rw [List.map_cons, List.foldl_cons, List.flatMap_cons, List.foldl_append,
          s.countBlock_carried t n m (hl m List.mem_cons_self)]
        exact ih _ fun k hk => hl k (List.mem_cons_of_mem m hk)
  rw [receive, Tracker.countPacket, blocks, ← List.map_reverse, List.reverse_append,
    List.reverse_singleton, List.singleton_append, List.map_cons, List.foldl_cons,
    s.countBlock_own t n haccepts, credits, List.foldl_append]
  exact hcarried _ _ fun m hm => List.mem_reverse.mp hm

/-! ### Sequence numbers -/

/-- A packet that is ahead by less than half the range of sequence numbers is read as ahead
    by that many, even where the numbers wrap. -/
theorem sequenceDistance_ahead (m n : Nat) (h : m ≤ n) (hn : n ≤ m + 32767) :
    sequenceDistance (s.sequenceOf n) (s.sequenceOf m) = (n - m : Nat) := by
  have hsum : n = m + (n - m) := by omega
  -- The numbers may wrap between the two, but their difference does not.
  have hback : s.sequenceOf n - s.sequenceOf m = .ofNat (n - m) := by
    rw [sequenceOf, sequenceOf]
    conv => lhs; rw [hsum, UInt16.ofNat_add]
    grind
  have hlt : n - m < 32768 := by omega
  rw [sequenceDistance, hback, UInt16.toNat_ofNat', Nat.mod_eq_of_lt (by omega)]
  exact if_pos hlt

/-- A packet that is behind by less than half the range of sequence numbers is read as
    behind by that many. From further away than half the range it would be taken for one
    that is ahead. -/
theorem sequenceDistance_behind (m n : Nat) (h : m < n) (hn : n ≤ m + 32767) :
    sequenceDistance (s.sequenceOf m) (s.sequenceOf n) = -((n - m : Nat) : Int) := by
  have hsum : n = m + (n - m) := by omega
  have hback : s.sequenceOf m - s.sequenceOf n = -.ofNat (n - m) := by
    rw [sequenceOf, sequenceOf]
    conv => lhs; rw [hsum, UInt16.ofNat_add]
    grind
  have hlt : n - m < 2 ^ 16 := by omega
  -- The difference has wrapped, and is read as negative.
  have hnat : (-UInt16.ofNat (n - m)).toNat = 65536 - (n - m) := by
    have hpos : 65536 - (n - m) < 65536 := by omega
    rw [UInt16.toNat_neg, UInt16.toNat_ofNat', Nat.mod_eq_of_lt hlt]
    exact Nat.mod_eq_of_lt hpos
  have hfar : ¬ 65536 - (n - m) < 32768 := by omega
  rw [sequenceDistance, hback, hnat]
  change (if 65536 - (n - m) < 32768 then _ else _) = _
  rw [if_neg hfar]
  omega

end Stream

/-! ### Asking for a credit -/

/-- No credit to redundancy is given while nothing is lost, or for a packet whose primary is
    on record. -/
theorem creditRed_idle (t : Tracker) (time : UInt32)
    (h : t.counters.lost = 0 ∨ t.primaries.contains time = true) : t.creditRed time = t := by
  rw [Tracker.creditRed, if_pos]
  rcases h with h | h
  · rw [Bool.or_eq_true, decide_eq_true_eq]
    exact Or.inl h
  · rw [h, Bool.or_true]

/-- Asking twice changes nothing, unless the first credit was given to
    correction data. -/
theorem creditRed_again (t : Tracker) (time : UInt32) (hred : t.redCredits.contains time = true)
    (hfec : t.fecCredits.contains time = false) : t.creditRed time = t := by
  simp only [Tracker.creditRed, hred, hfec, if_true, Bool.false_eq_true, if_false, ite_self]

/-- Asking again for a credit that was given does not count another recovery. A credit to
    correction data may still be taken back on the way. -/
theorem creditRed_held (t : Tracker) (time : UInt32) (hred : t.redCredits.contains time = true) :
    (t.creditRed time).counters.recoveredRed = t.counters.recoveredRed := by
  simp only [Tracker.creditRed, hred, if_true]
  split
  · rfl
  · split <;> rfl

/-- What a new credit to redundancy does to the accounts: one more recovery, and one less to
    correction data if that had the credit before. -/
theorem creditRed_new (t : Tracker) (time : UInt32) (hlost : t.counters.lost ≠ 0)
    (hprimary : t.primaries.contains time = false) (hred : t.redCredits.contains time = false) :
    t.creditRed time
      = { t with
          counters.recoveredRed := t.counters.recoveredRed + 1
          counters.recoveredFec :=
            if t.fecCredits.contains time then t.counters.recoveredFec - 1
            else t.counters.recoveredFec
          redCredits := t.redCredits.add time
          fecCredits :=
            if t.fecCredits.contains time then t.fecCredits.remove time else t.fecCredits } := by
  simp only [Tracker.creditRed, hprimary, hred, decide_eq_false hlost, Bool.or_self,
    Bool.false_eq_true, if_false]
  -- Only the credit of correction data is left to branch on.
  cases t.fecCredits.contains time with
  | true => rfl
  | false => rfl

/-- No credit to correction data is given while nothing is lost, or for a packet that is on
    record or was already recovered in either way. -/
theorem creditFec_idle (t : Tracker) (time : UInt32)
    (h : t.counters.lost = 0 ∨ t.primaries.contains (time - t.config.packetizationTime) = true ∨
      t.redCredits.contains (time - t.config.packetizationTime) = true ∨
      t.fecCredits.contains (time - t.config.packetizationTime) = true) :
    t.creditFec time = t := by
  simp only [Tracker.creditFec]
  rw [if_pos]
  simp only [Bool.or_eq_true, decide_eq_true_eq]
  -- The guard lists the same four reasons in another order.
  tauto

/-- What a new credit to correction data does to the accounts. It is for the packet one
    interval before the one that the data came with. -/
theorem creditFec_new (t : Tracker) (time : UInt32) (hlost : t.counters.lost ≠ 0)
    (hprimary : t.primaries.contains (time - t.config.packetizationTime) = false)
    (hred : t.redCredits.contains (time - t.config.packetizationTime) = false)
    (hfec : t.fecCredits.contains (time - t.config.packetizationTime) = false) :
    t.creditFec time
      = { t with
          counters.recoveredFec := t.counters.recoveredFec + 1
          fecCredits := t.fecCredits.add (time - t.config.packetizationTime) } := by
  simp only [Tracker.creditFec, hprimary, hred, hfec, decide_eq_false hlost, Bool.or_self,
    Bool.false_eq_true, if_false]

/-- One interval before a packet is the packet before it, for the interval that the default
    configuration has. -/
theorem time_sub_interval (s : Stream) (m : Nat) :
    s.time (m + 1) - ({} : TrackerConfig).packetizationTime = s.time m := by
  have hsucc := Red.packetTime_succ s.start m
  change Red.packetTime s.start (m + 1) - Red.packetInterval = Red.packetTime s.start m
  rw [hsucc]
  grind

/-! ### Two parts of the accounts -/

/-- Two trackers agree on everything but credits. -/
structure Agrees (t t' : Tracker) : Prop where
  config_eq : t.config = t'.config
  newest_eq : t.newest = t'.newest
  primaries_eq : t.primaries = t'.primaries
  expected_eq : t.counters.expected = t'.counters.expected
  lost_eq : t.counters.lost = t'.counters.lost

theorem Agrees.rfl {t : Tracker} : Agrees t t :=
  ⟨Eq.refl _, Eq.refl _, Eq.refl _, Eq.refl _, Eq.refl _⟩

theorem Agrees.trans {t t' t'' : Tracker} (h : Agrees t t') (h' : Agrees t' t'') : Agrees t t'' :=
  ⟨h.config_eq.trans h'.config_eq, h.newest_eq.trans h'.newest_eq,
    h.primaries_eq.trans h'.primaries_eq, h.expected_eq.trans h'.expected_eq,
    h.lost_eq.trans h'.lost_eq⟩

theorem agrees_creditRed (t : Tracker) (time : UInt32) : Agrees (t.creditRed time) t := by
  simp only [Tracker.creditRed]
  -- Whichever way it goes, only the rings of credits and their counters move.
  split
  · exact .rfl
  · split <;> split <;> exact ⟨Eq.refl _, Eq.refl _, Eq.refl _, Eq.refl _, Eq.refl _⟩

theorem agrees_creditFec (t : Tracker) (time : UInt32) : Agrees (t.creditFec time) t := by
  simp only [Tracker.creditFec]
  split
  · exact .rfl
  · exact ⟨Eq.refl _, Eq.refl _, Eq.refl _, Eq.refl _, Eq.refl _⟩

/-- Credits that are taken back change nothing but credits. The loss that a late primary
    takes off is counted before. -/
theorem agrees_takeBackCredits (t : Tracker) (time : UInt32) :
    Agrees (t.takeBackCredits time) t := by
  simp only [Tracker.takeBackCredits]
  split <;> split <;> exact ⟨Eq.refl _, Eq.refl _, Eq.refl _, Eq.refl _, Eq.refl _⟩

theorem agrees_credit (s : Stream) (t : Tracker) (c : Credit) : Agrees (s.credit t c) t := by
  cases c with
  | red n => exact agrees_creditRed t (s.time n)
  | fec n => exact agrees_creditFec t (s.time n)

/-- The credits of a whole packet leave the accounts of primaries alone, by induction on the
    credits. So losses can be followed without looking at any of them. -/
theorem agrees_credits (s : Stream) (credits : List Credit) :
    ∀ t : Tracker, Agrees (credits.foldl s.credit t) t := by
  induction credits with
  | nil =>
      intro t
      exact .rfl
  | cons c credits ih =>
      intro t
      exact (ih (s.credit t c)).trans (agrees_credit s t c)

/-- The accounts of primaries when packets have arrived in order, from `first`
    to `newest`. -/
structure Tracked (s : Stream) (arrivals : List Nat) (first newest : Nat) (t : Tracker) : Prop where
  config_eq : t.config = {}
  newest_eq : t.newest = some (s.sequenceOf newest)
  primaries_eq : t.primaries.slots = written 21 (arrivals.map fun n => some (s.time n))
  expected_eq : t.counters.expected + first = newest + 1
  lost_eq : t.counters.lost + arrivals.length + first = newest + 1

/-- The accounts of primaries depend on what credits do not touch, so they carry over to any
    tracker that agrees. -/
theorem Tracked.congr {s : Stream} {arrivals : List Nat} {first newest : Nat} {t t' : Tracker}
    (h : Tracked s arrivals first newest t) (ha : Agrees t' t) :
    Tracked s arrivals first newest t' where
  config_eq := ha.config_eq.trans h.config_eq
  newest_eq := ha.newest_eq.trans h.newest_eq
  primaries_eq := by rw [ha.primaries_eq, h.primaries_eq]
  expected_eq := by rw [ha.expected_eq, h.expected_eq]
  lost_eq := by rw [ha.lost_eq, h.lost_eq]

/-- The first packet to arrive. -/
theorem countPrimary_first (s : Stream) (n : Nat) :
    (Tracker.ofConfig {}).accepts (s.sequenceOf n) = true ∧
      Tracked s [n] n n ((Tracker.ofConfig {}).countPrimary (s.sequenceOf n) (s.time n)) := by
  -- The ring of primaries starts out with nothing written.
  have hempty : (Window.empty 21).slots = written 21 [] := by
    rw [Window.slots_empty 21 (by omega), written_nil]
  exact ⟨rfl, rfl, rfl, slots_add_written 21 (by omega) _ _ [] hempty, Nat.add_comm 1 n,
    Nat.add_comm 1 n⟩

/-- The accounts behind the first packet, its credits included: nothing is lost, and it is
    expected itself. -/
theorem tracked_receive_first (s : Stream) (n : Nat) :
    Tracked s [n] n n (s.receive (.ofConfig {}) n) := by
  have hfirst := countPrimary_first s n
  rw [s.receive_eq _ n hfirst.1]
  exact hfirst.2.congr (agrees_credits s _ _)

/-- A packet that is ahead of the newest one, by less than half the range of
    sequence numbers. -/
theorem countPrimary_ahead (s : Stream) (m n : Nat) (t : Tracker)
    (hnewest : t.newest = some (s.sequenceOf m)) (hn : m < n) (hgap : n ≤ m + 32767) :
    t.accepts (s.sequenceOf n) = true ∧
      t.countPrimary (s.sequenceOf n) (s.time n)
        = t.countAhead (s.sequenceOf n) (s.time n) (n - m) := by
  have hdistance := s.sequenceDistance_ahead m n (le_of_lt hn) hgap
  have haccepts : t.accepts (s.sequenceOf n) = true := by
    -- Nothing that is ahead can be too far behind.
    have hnear : ¬ ((n - m : Nat) : Int) < -(t.config.maxOutOfOrderDistance.toNat : Int) := by omega
    simp only [Tracker.accepts, Tracker.tooFarBehind, hnewest, hdistance, if_neg hnear,
      Option.isNone_none]
  have hnot : ¬ ((n - m : Nat) : Int) < 0 := by omega
  have hzero : ¬ ((n - m : Nat) : Int) = 0 := by omega
  refine ⟨haccepts, ?_⟩
  simp only [Tracker.countPrimary, hnewest, haccepts, hdistance, if_neg hnot, if_neg hzero,
    Bool.not_true, Bool.false_eq_true, if_false, Int.toNat_natCast]

/-- A packet that is not accounted for changes nothing. -/
theorem countPrimary_rejected {t : Tracker} {sequence : UInt16} (time : UInt32)
    (h : t.accepts sequence = false) : t.countPrimary sequence time = t := by
  rw [Tracker.countPrimary]
  cases hnewest : t.newest with
  -- Without a newest packet there is nothing to be behind of, so it is accepted.
  | none =>
      rw [Tracker.accepts, Tracker.tooFarBehind, hnewest, Option.isNone_none] at h
      cases h
  | some newest =>
      simp only [h, Bool.not_false, if_true]

/-- A packet that is behind the newest one is accounted for up to a distance of sixteen, and
    then as a late one. Further back it is not accounted for at all. -/
theorem countPrimary_behind (s : Stream) (newest late : Nat) (t : Tracker)
    (hconfig : t.config = {}) (hnewest : t.newest = some (s.sequenceOf newest))
    (hlt : late < newest) (hgap : newest ≤ late + 32767) :
    (t.accepts (s.sequenceOf late) = true ↔ newest ≤ late + 16) ∧
      (newest ≤ late + 16 →
        t.countPrimary (s.sequenceOf late) (s.time late) = t.countLate (s.time late)) := by
  have hdistance := s.sequenceDistance_behind late newest hlt hgap
  -- The limit comes from the configuration, and it is compared without wrapping.
  have hlimit : t.config.maxOutOfOrderDistance.toNat = 16 := by
    rw [hconfig]
    rfl
  have haccepts : t.accepts (s.sequenceOf late) = true ↔ newest ≤ late + 16 := by
    simp only [Tracker.accepts, Tracker.tooFarBehind, hnewest, hdistance, hlimit]
    split
    · refine iff_of_false (by simp only [Option.isNone_some, Bool.false_eq_true,
        not_false_eq_true]) ?_
      omega
    · refine iff_of_true Option.isNone_none ?_
      omega
  refine ⟨haccepts, fun hnear => ?_⟩
  have hbehind : (-((newest - late : Nat) : Int)) < 0 := by omega
  simp only [Tracker.countPrimary, hnewest, haccepts.mpr hnear, hdistance, if_pos hbehind,
    Bool.not_true, Bool.false_eq_true, if_false]

/-- A packet that is ahead keeps the accounts: all packets up to it are expected, and those
    that it is ahead by are lost. It is written to the ring behind those that arrived before
    it. -/
theorem tracked_countAhead (s : Stream) (arrivals : List Nat) (first m n : Nat) (t : Tracker)
    (h : Tracked s arrivals first m t) (hn : m < n) :
    Tracked s (arrivals ++ [n]) first n (t.countAhead (s.sequenceOf n) (s.time n) (n - m)) where
  config_eq := h.config_eq
  newest_eq := rfl
  primaries_eq := by
    rw [List.map_append]
    exact slots_add_written 21 (by omega) _ _ _ h.primaries_eq
  expected_eq := by
    have hexpected := h.expected_eq
    change t.counters.expected + (n - m) + first = n + 1
    omega
  lost_eq := by
    -- One packet more has arrived, and so one loss less than was expected.
    have hlost := h.lost_eq
    rw [List.length_append, List.length_singleton]
    change t.counters.lost + (n - m - 1) + _ + first = n + 1
    omega

/-- What there is to know about the accounts of primaries when packets arrive
    in order. Every packet is accepted, and there is something to say both
    before and after it asks for its credits. -/
theorem tracked_receive (s : Stream) (arrivals : List Nat) (first m n : Nat) (t : Tracker)
    (h : Tracked s arrivals first m t) (hn : m < n) (hgap : n ≤ m + 32767) :
    s.receive t n
        = (s.credits n).foldl s.credit (t.countAhead (s.sequenceOf n) (s.time n) (n - m)) ∧
      Tracked s (arrivals ++ [n]) first n (s.receive t n) := by
  have hahead := countPrimary_ahead s m n t h.newest_eq hn hgap
  have heq := s.receive_eq t n hahead.1
  rw [hahead.2] at heq
  refine ⟨heq, ?_⟩
  rw [heq]
  -- The credits come behind the primary and leave its accounts alone.
  exact (tracked_countAhead s arrivals first m n t h hn).congr (agrees_credits s _ _)

/-- What holds for the first packet that arrives, and goes on to hold with every packet that
    is ahead, holds for all packets that arrive in order. All results about streams that
    lose packets but do not reorder them go through this. -/
theorem Stream.track_induction (s : Stream) (first : Nat) (P : List Nat → Nat → Tracker → Prop)
    (hstart : P [first] first (s.receive (.ofConfig {}) first))
    (hstep : ∀ before m n, Red.InOrder 32767 (before ++ [n]) → before.head? = some first →
      before.getLast? = some m → P before m (s.track before) →
      P (before ++ [n]) n (s.receive (s.track before) n)) (arrivals : List Nat) :
    ∀ newest, Red.InOrder 32767 arrivals → arrivals.head? = some first →
      arrivals.getLast? = some newest → P arrivals newest (s.track arrivals) := by
  -- By induction from the back, as the tracker has seen what came first.
  induction arrivals using List.reverseRecOn with
  | nil =>
      intro newest _ hhead _
      cases hhead
  | append_singleton before n ih =>
      intro newest horder hhead hlast
      rw [List.getLast?_concat, Option.some.injEq] at hlast
      rw [← hlast, s.track_concat]
      cases hm : before.getLast? with
      | none =>
          obtain rfl : before = [] := List.getLast?_eq_none_iff.mp hm
          obtain rfl : n = first := Option.some.inj hhead
          exact hstart
      | some m =>
          have hhead' := Red.head?_of_concat hhead hm
          exact hstep before m n horder hhead' hm (ih m (horder.init hm).1 hhead' hm)

/-- Behind any packets that arrived in order, the tracker has these accounts of primaries. -/
theorem tracked_track (s : Stream) (arrivals : List Nat) (first newest : Nat)
    (horder : Red.InOrder 32767 arrivals) (hhead : arrivals.head? = some first)
    (hlast : arrivals.getLast? = some newest) :
    Tracked s arrivals first newest (s.track arrivals) := by
  refine s.track_induction first (fun arrivals newest t => Tracked s arrivals first newest t)
    (tracked_receive_first s first) (fun before m n horder _ hm h => ?_) arrivals newest horder
    hhead hlast
  rcases horder.init hm with ⟨_, hn, hgap⟩
  exact (tracked_receive s before first m n _ h hn hgap).2

/-- The packets that a ring can hold are too close together for two of them to
    share a media time. -/
theorem recent_time_inj (s : Stream) {arrivals : List Nat} {newest m n : Nat}
    (horder : Red.InOrder 32767 arrivals) (hlast : arrivals.getLast? = some newest)
    (hm : m ≤ newest) (hnear : newest ≤ m + 2 ^ 25) (hn : Recent 21 arrivals n) :
    s.time n = s.time m ↔ n = m := by
  have hle := horder.le_last hlast n hn.mem
  -- Of 21 packets in order, with gaps below half the range of sequence numbers, the media
  -- times span less than a lap.
  rcases hn with ⟨before, after, rfl, hlength⟩
  have hlast' : (n :: after).getLast? = some newest := by
    rwa [List.getLast?_append_of_ne_nil _ (List.cons_ne_nil n after)] at hlast
  have hspan := horder.last_le after hlast'
  exact Red.packetTime_inj s.start n m (by omega) (by omega)

/-- Of the packets that were just sent, those are on record that arrived. The ring has 21
    slots, so it answers for the newest packet and the 20 in front of it; further back it
    may have forgotten some, or take one for a namesake. -/
theorem Tracked.contains_iff {s : Stream} {arrivals : List Nat} {first newest : Nat} {t : Tracker}
    (h : Tracked s arrivals first newest t) (horder : Red.InOrder 32767 arrivals)
    (hlast : arrivals.getLast? = some newest) (m : Nat) (hm : m ≤ newest)
    (hnear : newest ≤ m + 20) : t.primaries.contains (s.time m) = true ↔ m ∈ arrivals := by
  rw [Window.contains_iff, h.primaries_eq, mem_written_map]
  -- A time on record is that of a recent packet, and no other recent one shares it.
  -- Conversely, what arrived so lately has not been pushed out.
  constructor
  · rintro ⟨n, hn, htime⟩
    rw [Option.some.injEq, recent_time_inj s horder hlast hm (by omega) hn] at htime
    rw [← htime]
    exact hn.mem
  · intro hmem
    have hpair := horder.pairwise
    have hrecent := recent_of_bounded 21 0 (newest + 1) arrivals m
      (hpair.imp fun hlt => ne_of_lt hlt) (hpair.imp fun hlt => le_of_lt hlt)
      (fun n hn => Nat.lt_succ_of_le (horder.le_last hlast n hn)) hmem (by omega)
    exact ⟨m, hrecent, rfl⟩

/-- How many packets are missing, of those between the first that arrived and
    the newest. -/
def missing (arrivals : List Nat) (first newest : Nat) : Nat :=
  (List.range' first (newest - first)).countP fun m => m ∉ arrivals

/-- One packet that is missing is enough for a loss, and credits are given only while there
    is one. -/
theorem missing_ne_zero {arrivals : List Nat} {first newest : Nat} (m : Nat) (hfirst : first ≤ m)
    (hm : m < newest) (hmissing : m ∉ arrivals) : missing arrivals first newest ≠ 0 := by
  rw [missing, ← Nat.pos_iff_ne_zero, List.countP_pos_iff]
  refine ⟨m, ?_, decide_eq_true hmissing⟩
  rw [List.mem_range'_1]
  omega

/-- Every packet from the first to the newest is either here or missing. The sum is written
    without a subtraction, so that it can be used for streams that begin at any packet. -/
theorem length_add_missing {l : List Nat} {first newest : Nat} (hnodup : l.Nodup)
    (hwithin : ∀ m ∈ l, first ≤ m ∧ m ≤ newest) (hin : newest ∈ l) :
    l.length + missing l first newest + first = newest + 1 := by
  have hordered : first ≤ newest := (hwithin newest hin).1
  -- The packets that arrived are those of the whole range that are in the list.
  have hlength := Red.length_eq_countP l (List.range' first (newest - first + 1))
    (fun m => m ∈ l) hnodup List.nodup_range' fun m => by
      rw [decide_eq_true_eq, List.mem_range'_1]
      refine ⟨fun hm => ⟨?_, hm⟩, fun hm => hm.2⟩
      have hm' := hwithin m hm
      omega
  have hrest := List.length_eq_countP_add_countP (fun m => decide (m ∈ l))
    (l := List.range' first (newest - first))
  -- The newest one is taken off the range, as it is not missing.
  rw [List.range'_1_concat, Nat.add_sub_cancel' hordered, List.countP_append,
    List.countP_singleton, decide_eq_true hin] at hlength
  simp only [decide_eq_true_eq, List.length_range', if_true] at hrest hlength
  rw [missing]
  omega

/-- The losses are the packets that are missing. The accounts say how many there are, and
    here it is said which. -/
theorem Tracked.lost_eq_missing {s : Stream} {arrivals : List Nat} {first newest : Nat}
    {t : Tracker} (h : Tracked s arrivals first newest t) (horder : Red.InOrder 32767 arrivals)
    (hhead : arrivals.head? = some first) (hlast : arrivals.getLast? = some newest) :
    t.counters.lost = missing arrivals first newest := by
  have hsum := length_add_missing (horder.pairwise.imp fun hlt => ne_of_lt hlt)
    (fun m hm => ⟨horder.first_le hhead m hm, horder.le_last hlast m hm⟩)
    (List.mem_of_getLast? hlast)
  have hlost := h.lost_eq
  omega

/-- A stream of empty packets that starts at zero. A packet carries the one
    that lies `back` intervals before it, if that is possible at all. Either no
    packet has correction data or all but the first. -/
def Stream.plain (back : Nat → Nat) (fec : Bool) : Stream where
  sequence := 0
  start := 0
  carried n := if 0 < back n ∧ back n ≤ 5 ∧ back n ≤ n then [n - back n] else []
  block n m :=
    { isLast := m = n
      payloadType := 111
      offset := .ofNat (960 * (n - m))
      timestamp := Red.packetTime 0 m
      payload := []
      hasFec := fec && m != 0 }
  carried_lt n m hm := by
    split at hm
    · rw [List.mem_singleton.mp hm]
      omega
    · exact absurd hm List.not_mem_nil
  carried_near n m hm := by
    split at hm
    · rw [List.mem_singleton.mp hm]
      omega
    · exact absurd hm List.not_mem_nil
  isLast_own _ := decide_eq_true rfl
  isLast_carried n m hm := by
    refine decide_eq_false fun heq => ?_
    split at hm
    · have hback := List.mem_singleton.mp hm
      omega
    · exact absurd hm List.not_mem_nil
  timestamp_own _ := rfl
  timestamp_carried _ _ _ := rfl

theorem Stream.carried_plain_zero (back : Nat → Nat) (fec : Bool) (n : Nat) (h : back n = 0) :
    (Stream.plain back fec).carried n = [] := by
  refine if_neg ?_
  omega

end Loss

end RedundantAudio
