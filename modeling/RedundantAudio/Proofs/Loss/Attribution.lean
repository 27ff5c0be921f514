import Mathlib.Data.List.Range
import RedundantAudio.Proofs.Loss.Ledger

/-!
# What the Loss Counters Say

When the packets of a stream arrive in order, the counters of a tracker are
what one would count by looking at the whole stream from outside: how many
packets there should be, how many did not arrive, how many of those a later
packet repeats, and how many of the rest can be corrected. All the ledger has
to add to that is arithmetic.

There is one reservation. The rings of a tracker hold media times and let them
stand until they are overwritten, so in a stream that runs for more than
`2 ^ 26` packets a lost packet can find its own time credited already, to a
namesake from long ago. `namesake_not_credited` is such a stream, with hardly
any losses that are made good; where there are enough of them, or the stream
is shorter, the time of the namesake is gone (`renewed_of_le`).

## Main definitions

* `paired`, `sparse`: Two streams to look at.

## Theorems

* `recovery_attribution`: What the counters say.
* `paired_attribution`: Nine packets of which four arrive.
* `renewed_of_le`: Short streams have no namesakes.
* `namesake_not_credited`: A stream that has one.
-/

namespace RedundantAudio

namespace Loss

/-- Every packet that does not arrive has one of the other three fates. The fates exclude
    each other, so the packets that are missing from a list can be counted by adding up
    three numbers, whatever is in the list. -/
theorem countP_fates (s : Stream) (arrivals l : List Nat) :
    l.countP (fun m => m ∉ arrivals)
      = l.countP (fun m => s.fate arrivals m = .red) + l.countP (fun m => s.fate arrivals m = .fec)
        + l.countP (fun m => s.fate arrivals m = .lost) := by
  have harrived : ∀ m, m ∈ arrivals ↔ s.fate arrivals m = .arrived := by
    intro m
    rw [Stream.fate]
    by_cases h : m ∈ arrivals
    · rw [if_pos h]
      exact ⟨fun _ => rfl, fun _ => h⟩
    · rw [if_neg h]
      refine ⟨fun hin => absurd hin h, fun heq => ?_⟩
      split at heq
      · cases heq
      · split at heq <;> cases heq
  -- With four fates instead of two, it is enough to count packet by packet.
  simp only [harrived]
  induction l with
  | nil => rfl
  | cons m l ih =>
      simp only [List.countP_cons, ih]
      cases s.fate arrivals m <;> simp only [reduceCtorEq, decide_true, decide_false,
        not_true_eq_false, not_false_eq_true, if_true, if_false, Bool.false_eq_true] <;> omega

/-- At the end of a run, the packets that were credited as repeated are the lost
    ones that are repeated. -/
theorem Ledger.mem_reds_iff_fate {s : Stream} {arrivals : List Nat} {bound : Nat}
    {done : List Credit} {reds fecs : List Nat} {t : Tracker}
    (h : Ledger s arrivals bound done reds fecs t) (hend : ∀ n ∈ arrivals, n < bound) (m : Nat) :
    m ∈ reds ↔ s.fate arrivals m = .red := by
  rw [h.mem_reds, Stream.fate_eq_red_iff]
  refine and_congr_right fun _ => ⟨fun hdone => h.sound _ hdone, ?_⟩
  rintro ⟨n, hn, hc⟩
  exact h.complete n hn (hend n hn) _ hc

/-- At the end of a run, the packets that are credited as corrected still are the lost ones
    that can be corrected and are not repeated. The list itself keeps those that came to be
    repeated later, so it has to be filtered before it is compared with the fates. -/
theorem Ledger.mem_fecs_iff_fate {s : Stream} {arrivals : List Nat} {bound : Nat}
    {done : List Credit} {reds fecs : List Nat} {t : Tracker}
    (h : Ledger s arrivals bound done reds fecs t) (hend : ∀ n ∈ arrivals, n < bound) (m : Nat) :
    m ∈ fecs.filter (· ∉ reds) ↔ s.fate arrivals m = .fec := by
  rw [List.mem_filter, decide_eq_true_eq, h.mem_reds_iff_fate hend]
  constructor
  · rintro ⟨hm, hnot⟩
    rcases h.mem_fecs m hm with ⟨hmissing, hdone⟩
    refine Stream.fate_eq_fec_iff.mpr ⟨hmissing, fun hasked => ?_, h.sound _ hdone⟩
    exact hnot (Stream.fate_eq_red_iff.mpr ⟨hmissing, hasked⟩)
  · -- A packet that can be corrected is on one of the lists, and not on the first.
    intro hfate
    have hnot : s.fate arrivals m ≠ .red := by
      rw [hfate]
      exact Fate.noConfusion
    rcases Stream.fate_eq_fec_iff.mp hfate with ⟨hmissing, _, n, hn, hc⟩
    have heither := h.mem_either m hmissing (h.complete n hn (hend n hn) _ hc)
    exact ⟨heither.resolve_right fun hm => hnot ((h.mem_reds_iff_fate hend m).mp hm), hnot⟩

/-- A list of credited packets is as long as there are packets of that fate. No packet is
    listed twice, and the newest packet is out of the question because it has arrived. -/
theorem length_eq_countP_fate (s : Stream) (arrivals l : List Nat) (newest : Nat) (f : Fate)
    (hl : l.Nodup) (hnewest : newest ∈ arrivals) (hlt : ∀ m ∈ l, m < newest + 1)
    (hlost : f ≠ .arrived) (hfate : ∀ m, m ∈ l ↔ s.fate arrivals m = f) :
    l.length = (List.range newest).countP (fun m => s.fate arrivals m = f) := by
  refine Red.length_eq_countP l _ _ hl List.nodup_range fun m => ?_
  rw [decide_eq_true_eq, ← hfate, List.mem_range]
  refine ⟨fun hm => ⟨lt_of_le_of_ne (Nat.le_of_lt_succ (hlt m hm)) ?_, hm⟩, fun hm => hm.2⟩
  -- The newest packet has arrived, and so has another fate.
  rintro rfl
  have hsame := (hfate m).mp hm
  rw [Stream.fate, if_pos hnewest] at hsame
  exact hlost hsame.symm

/-- The counts of a tracker are exact when packets arrive in order from packet 0 on: what
    was expected, what is lost, what was made good by redundancy and by correction data
    alone, and what remains. `Renewed` keeps two packets with the same media time from being
    taken for each other. -/
theorem recovery_attribution (s : Stream) (arrivals : List Nat) (newest : Nat)
    (hfirst : ∀ n, (s.block n 0).hasFec = false) (hrenewed : s.Renewed arrivals)
    (horder : Red.InOrder 32767 arrivals) (hhead : arrivals.head? = some 0)
    (hlast : arrivals.getLast? = some newest) :
    (s.track arrivals).counters.expected = newest + 1 ∧
      (s.track arrivals).counters.lost = (List.range newest).countP (fun m => m ∉ arrivals) ∧
      (s.track arrivals).counters.recoveredRed
        = (List.range newest).countP (fun m => s.fate arrivals m = .red) ∧
      (s.track arrivals).counters.recoveredFec
        = (List.range newest).countP (fun m => s.fate arrivals m = .fec) ∧
      (s.track arrivals).counters.unrecovered
        = (List.range newest).countP (fun m => s.fate arrivals m = .lost) := by
  have htracked := tracked_track s arrivals 0 newest horder hhead hlast
  have hnewest : newest ∈ arrivals := List.mem_of_getLast? hlast
  have hlost : (s.track arrivals).counters.lost
      = (List.range newest).countP (fun m => m ∉ arrivals) := by
    rw [htracked.lost_eq_missing horder hhead hlast, missing, Nat.sub_zero,
      List.range_eq_range']
  -- The ledger of the whole run: every packet that arrived has asked for its credits.
  rcases List.getLast?_eq_some_iff.mp hlast with ⟨before, hbefore⟩
  rcases ledger_track s arrivals hrenewed hfirst horder hhead before newest [] hbefore with
    ⟨done, reds, fecs, h⟩
  rw [← hbefore] at h
  have hend : ∀ n ∈ arrivals, n < newest + 1 := fun n hn =>
    Nat.lt_succ_of_le (horder.le_last hlast n hn)
  -- The lists of the ledger and the fates name the same packets.
  have hred : (s.track arrivals).counters.recoveredRed
      = (List.range newest).countP (fun m => s.fate arrivals m = .red) := by
    rw [h.red_count]
    exact length_eq_countP_fate s arrivals reds newest .red h.nodup_reds hnewest h.reds_lt
      Fate.noConfusion (h.mem_reds_iff_fate hend)
  have hfec : (s.track arrivals).counters.recoveredFec
      = (List.range newest).countP (fun m => s.fate arrivals m = .fec) := by
    rw [h.fec_count]
    exact length_eq_countP_fate s arrivals _ newest .fec (h.nodup_fecs.filter _) hnewest
      (fun m hm => h.fecs_lt m (List.mem_of_mem_filter hm)) Fate.noConfusion
      (h.mem_fecs_iff_fate hend)
  refine ⟨htracked.expected_eq, hlost, hred, hfec, ?_⟩
  have hfates := countP_fates s arrivals (List.range newest)
  rw [Counters.unrecovered, hlost, hred, hfec]
  omega

/-- In a stream that is not longer than the media times are, no packet has a namesake. So
    nothing has to come between two packets of one media time, and the condition on the
    rings holds of itself. -/
theorem renewed_of_le (s : Stream) (arrivals : List Nat) (h : ∀ n ∈ arrivals, n ≤ 2 ^ 26) :
    s.Renewed arrivals := by
  have hbelow : ∀ m, s.Recovered arrivals m → m < 2 ^ 26 := by
    intro m hm
    -- Whatever makes a packet good arrives behind it.
    have hasked : ∃ n ∈ arrivals, ∃ c : Credit, c.Protects m ∧ c ∈ s.credits n := by
      rcases hm with hred | hfec
      · rcases (Stream.fate_eq_red_iff.mp hred).2 with ⟨n, hn, hc⟩
        exact ⟨n, hn, _, Or.inl rfl, hc⟩
      · rcases (Stream.fate_eq_fec_iff.mp hfec).2.2 with ⟨n, hn, hc⟩
        exact ⟨n, hn, _, Or.inr rfl, hc⟩
    rcases hasked with ⟨n, hn, c, hc, hin⟩
    exact lt_of_lt_of_le (Stream.near_of_protects s c hc hin).1 (h n hn)
  intro m n hlt htime hm hn
  have hmod := (Red.packetTime_eq_iff s.start m n).mp htime
  have hmlt := hbelow m hm
  have hnlt := hbelow n hn
  omega

/-- Every packet carries the one two intervals before it. -/
def paired : Stream :=
  .plain (fun _ => 2) true

/-- Packets 1 and 6 are repeated, 5 and 7 are corrected, and 4 is gone. All five are lost,
    so the counters add up, and one packet is left that nothing makes good. -/
theorem paired_attribution :
    (paired.track [0, 2, 3, 8]).counters = ⟨5, 9, 2, 2⟩ ∧
      (paired.track [0, 2, 3, 8]).counters.unrecovered = 1 := by
  rcases recovery_attribution paired [0, 2, 3, 8] 8 (fun _ => rfl)
    (renewed_of_le paired _ (by decide)) (by unfold Red.InOrder; decide) rfl rfl with
    ⟨hexpected, hlost, hred, hfec, hunrecovered⟩
  refine ⟨?_, hunrecovered.trans (by decide)⟩
  cases hcounters : (paired.track [0, 2, 3, 8]).counters with
  | mk lost expected recoveredRed recoveredFec =>
      rw [hcounters] at hexpected hlost hred hfec
      simp only at hexpected hlost hred hfec
      rw [hexpected, hlost, hred, hfec]
      decide

/-! ### Namesakes -/

/-- A stream in which only two packets carry another one, and these two others
    have the same media time. -/
def sparse : Stream :=
  .plain (fun n => if n = 2 ∨ n = 2 ^ 26 + 2 then 1 else 0) false

/-- Packets that carry nothing, about as far apart as packets can be. -/
def bare : List Nat :=
  (List.range 2048).map fun k => 2 + 32766 * (k + 1)

/-- Packets 1 and `2 ^ 26 + 1` are lost, and the packets behind them arrive. -/
def sparseArrivals : List Nat :=
  [0, 2] ++ bare ++ [2 ^ 26 + 2]

/-- The sparse stream arrives in order, with every gap below half the range of sequence
    numbers, although it spans a whole lap of media times. -/
theorem inOrder_sparseArrivals : Red.InOrder 32766 sparseArrivals := by
  -- The middle part is regular; where the parts meet, the gaps are computed.
  have hbare : Red.InOrder 32766 bare := by
    rw [Red.InOrder, bare, List.isChain_map, List.isChain_range]
    intro k _
    omega
  have hhead : bare.head? = some 32768 := by
    rw [bare, List.head?_map, List.head?_range]
    rfl
  have hlast : bare.getLast? = some 67104770 := by
    rw [bare, List.getLast?_map, List.getLast?_range]
    rfl
  have hstart : Red.InOrder 32766 ([0, 2] ++ bare) := by
    refine List.isChain_append.mpr ⟨by decide, hbare, ?_⟩
    rw [hhead]
    decide
  refine List.isChain_append.mpr ⟨hstart, List.IsChain.singleton _, ?_⟩
  rw [List.getLast?_append, hlast]
  decide

theorem credits_sparse (n : Nat) (h : n ≠ 2) (h' : n ≠ 2 ^ 26 + 2) : sparse.credits n = [] := by
  have hcarried : sparse.carried n = [] :=
    Stream.carried_plain_zero _ _ n (if_neg (not_or.mpr ⟨h, h'⟩))
  rw [Stream.credits, hcarried]
  rfl

/-- Packets that ask for nothing leave the credits as they are. So the ring still holds what
    was credited a lap ago: it forgets by being written to and not by the time that passes. -/
theorem credits_track_append (s : Stream) (before : List Nat) (later : List Nat)
    (hhead : before.head? = some 0) :
    Red.InOrder 32767 (before ++ later) → (∀ n ∈ later, s.credits n = []) →
      (s.track (before ++ later)).redCredits = (s.track before).redCredits ∧
        (s.track (before ++ later)).counters.recoveredRed
          = (s.track before).counters.recoveredRed := by
  -- By induction from the back, with the accounts of primaries at each packet.
  induction later using List.reverseRecOn with
  | nil =>
      intro _ _
      rw [List.append_nil]
      exact ⟨rfl, rfl⟩
  | append_singleton later n ih =>
      intro horder hbare
      rw [← List.append_assoc] at horder ⊢
      have hhead' : (before ++ later).head? = some 0 := by
        rw [List.head?_append, hhead, Option.some_or]
      cases hm : (before ++ later).getLast? with
      | none =>
          rw [List.getLast?_eq_none_iff.mp hm] at hhead'
          cases hhead'
      | some m =>
          rcases horder.init hm with ⟨hbefore, hn, hgap⟩
          have htracked := tracked_track s (before ++ later) 0 m hbefore hhead' hm
          have hreceive := (tracked_receive s _ 0 m n _ htracked hn hgap).1
          have hprev := ih hbefore fun k hk => hbare k (List.mem_append_left _ hk)
          rw [s.track_concat, hreceive, hbare n (List.mem_append_right _ List.mem_cons_self)]
          exact hprev

/-- A packet that only repeats one whose media time is on record adds nothing. -/
theorem recoveredRed_receive_held (s : Stream) (before : List Nat) (k m n : Nat) (t : Tracker)
    (h : Tracked s before 0 k t) (hn : k < n) (hgap : n ≤ k + 32767)
    (hasked : s.credits n = [.red m]) (hheld : t.redCredits.contains (s.time m) = true) :
    (s.receive t n).counters.recoveredRed = t.counters.recoveredRed := by
  rw [(tracked_receive s before 0 k n t h hn hgap).1, hasked]
  exact creditRed_held (t.countAhead (s.sequenceOf n) (s.time n) (n - k)) (s.time m) hheld

/-- The packets of the sparse stream: the first, the two that carry another one, and the
    bare ones between them. -/
theorem mem_sparseArrivals (n : Nat) :
    n ∈ sparseArrivals ↔ n = 0 ∨ n = 2 ∨ n ∈ bare ∨ n = 2 ^ 26 + 2 := by
  rw [sparseArrivals, List.mem_append, List.mem_append, List.mem_cons, List.mem_singleton,
    List.mem_singleton, or_assoc, or_assoc]

theorem of_mem_bare {n : Nat} (h : n ∈ bare) : n % 32766 = 2 ∧ 32768 ≤ n ∧ n ≤ 67104770 := by
  rcases List.mem_map.mp h with ⟨k, hk, rfl⟩
  rw [List.mem_range] at hk
  omega

/-- Only one recovery is counted, for packet 1. When its namesake is asked for a lap later,
    the time is on the ring already, and the tracker takes the one for the other. -/
theorem recoveredRed_sparse : (sparse.track sparseArrivals).counters.recoveredRed = 1 := by
  have horder := inOrder_sparseArrivals.mono (by omega : 32766 ≤ 32767)
  have hbefore : Red.InOrder 32767 ([0, 2] ++ bare) := List.IsChain.left_of_append horder
  have hlast : ([0, 2] ++ bare).getLast? = some 67104770 := by
    rw [List.getLast?_append, bare, List.getLast?_map, List.getLast?_range]
    rfl
  have hcredits := credits_track_append sparse [0, 2] bare rfl hbefore fun n hn => by
    have hrange := of_mem_bare hn
    exact credits_sparse n (by omega) (by omega)
  have htracked := tracked_track sparse _ 0 _ hbefore rfl hlast
  have htrack : sparse.track sparseArrivals
      = sparse.receive (sparse.track ([0, 2] ++ bare)) (2 ^ 26 + 2) :=
    List.foldl_concat _ _ _ _
  -- The time of packet 1 is still on the ring when its namesake is asked for.
  have hheld : (sparse.track ([0, 2] ++ bare)).redCredits.contains (sparse.time (2 ^ 26 + 1))
      = true := by
    rw [hcredits.1]
    decide
  rw [htrack, recoveredRed_receive_held sparse _ _ (2 ^ 26 + 1) (2 ^ 26 + 2) _ htracked (by omega)
    (by omega) (by decide) hheld, hcredits.2]
  decide

/-- Two lost packets are repeated by packets that arrive. They are 1 and the one that has
    the same media time, so the sum of the fates is at least two. -/
theorem two_le_countP_sparse :
    2 ≤ (List.range (2 ^ 26 + 2)).countP (fun m => sparse.fate sparseArrivals m = .red) := by
  have hfate : ∀ m, (m = 1 ∨ m = 2 ^ 26 + 1) →
      m < 2 ^ 26 + 2 ∧ sparse.fate sparseArrivals m = .red := by
    intro m hm
    rw [Stream.fate_eq_red_iff, mem_sparseArrivals]
    refine ⟨by omega, ?_, ?_⟩
    · rintro (h | h | h | h)
      · omega
      · omega
      · have hrange := of_mem_bare h
        omega
      · omega
    rcases hm with rfl | rfl
    · exact ⟨2, (mem_sparseArrivals 2).mpr (by omega), by decide⟩
    · exact ⟨2 ^ 26 + 2, (mem_sparseArrivals _).mpr (Or.inr (Or.inr (Or.inr rfl))), by decide⟩
  -- The range is too long to be computed with, so its bound is made a variable.
  generalize 2 ^ 26 + 2 = bound at hfate ⊢
  have hsub : [1, 2 ^ 26 + 1] ⊆ (List.range bound).filter
      (fun m => sparse.fate sparseArrivals m = .red) := by
    intro m hm
    rw [List.mem_filter, List.mem_range, decide_eq_true_eq]
    exact hfate m (by simpa only [List.mem_cons, List.not_mem_nil, or_false] using hm)
  rw [List.countP_eq_length_filter]
  exact (List.subperm_of_subset (by decide) hsub).length_le

/-- The second of two lost packets with the same media time is not credited,
    although a packet that arrives repeats it: the ring of repeated packets
    still holds that time from the first. -/
theorem namesake_not_credited :
    Red.InOrder 32766 sparseArrivals ∧ sparseArrivals.head? = some 0 ∧
      sparseArrivals.getLast? = some (2 ^ 26 + 2) ∧
      (∀ n m, (sparse.block n m).hasFec = false) ∧
      (sparse.track sparseArrivals).counters.recoveredRed
        ≠ (List.range (2 ^ 26 + 2)).countP (fun m => sparse.fate sparseArrivals m = .red) := by
  have hone := recoveredRed_sparse
  -- One was credited, and two should have been.
  have htwo := two_le_countP_sparse
  refine ⟨inOrder_sparseArrivals, rfl, List.getLast?_concat, fun _ _ => rfl, ?_⟩
  omega

end Loss

end RedundantAudio
