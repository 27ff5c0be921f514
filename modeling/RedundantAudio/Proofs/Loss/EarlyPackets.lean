import RedundantAudio.Proofs.Loss.Entries

/-!
# Packets From Before the First

The first packet that comes need not be the first that was sent. One from before
it that comes later is behind the newest and not on record, which is all that
the tracker asks before it strikes out a loss. Yet no loss was ever counted for
it: the count begins with the packet that came first.

If there are no losses, nothing is struck out. Otherwise the loss of some other
packet is, and it is not made up for: the count comes to as many losses less as
there were early packets, but for those that found no loss to strike out. So
what is counted is between the packets that are missing and so many fewer.

## Main definitions

* `earlyOf`: How many packets came from before the first.

## Theorems

* `missing_congr`: Early packets are not among those that can be missing.
* `length_add_missing_early`: Places that are taken and places that are not.
* `overdraft_le_early`: Only early packets are in excess.
* `lost_add_early`: The losses that are counted.
* `early_packet_accounted`: What becomes of a packet from before the first.
* `early_packet_hides_loss`: A packet that is lost and not counted.
-/

namespace RedundantAudio

namespace Loss

/-- How many of some packets were sent before the first that came. -/
def earlyOf (first : Nat) (noted : List Nat) : Nat :=
  noted.countP (· < first)

theorem length_eq_early_add (first : Nat) (noted : List Nat) :
    noted.length = earlyOf first noted + (noted.filter (first ≤ ·)).length := by
  have hsplit := noted.length_eq_countP_add_countP (· < first)
  simp only [decide_eq_true_eq, not_lt] at hsplit
  rw [earlyOf, ← List.countP_eq_length_filter]
  exact hsplit

theorem missing_congr {noted noted' : List Nat} {first newest : Nat}
    (h : ∀ m, first ≤ m → (m ∈ noted ↔ m ∈ noted')) :
    missing noted first newest = missing noted' first newest := by
  refine List.countP_congr fun m hm => ?_
  rw [List.mem_range'_1] at hm
  rw [decide_eq_true_eq, decide_eq_true_eq, h m hm.1]

/-- Every place from the first packet to the newest is taken or missing, and the
    early packets take none of them. -/
theorem length_add_missing_early {noted : List Nat} {first newest : Nat} (hnodup : noted.Nodup)
    (hle : ∀ m ∈ noted, m ≤ newest) (hin : newest ∈ noted) (hfirst : first ≤ newest) :
    noted.length + missing noted first newest + first = newest + 1 + earlyOf first noted := by
  -- Without the early packets, the rule for lists that start at the first one applies.
  have hrest := length_add_missing (hnodup.filter (first ≤ ·)) (fun m hm => by
    rw [List.mem_filter, decide_eq_true_eq] at hm
    exact ⟨hm.2, hle m hm.1⟩) (List.mem_filter.mpr ⟨hin, decide_eq_true hfirst⟩)
  have hmissing : missing (noted.filter (first ≤ ·)) first newest = missing noted first newest :=
    missing_congr fun m hm => by rw [List.mem_filter, decide_eq_true hm, and_iff_left rfl]
  have hsplit := length_eq_early_add first noted
  omega

/-- There are no more packets than places from the first one on, early ones apart. -/
theorem length_le_early {noted : List Nat} (first : Nat) (hnodup : noted.Nodup) :
    noted.length ≤ earlyOf first noted + (newestOf noted + 1 - first) := by
  have hrest := Red.length_le_of_within (noted.filter (first ≤ ·)) first
    (newestOf noted + 1 - first) (hnodup.filter _) fun m hm => by
      rw [List.mem_filter, decide_eq_true_eq] at hm
      have hle := le_newestOf noted m hm.1
      omega
  have hsplit := length_eq_early_add first noted
  omega

/-- Only packets from before the first are in excess of the places that there
    are. -/
theorem overdraft_le_early (first : Nat) (noted : List Nat) (hnodup : noted.Nodup) :
    overdraft first noted ≤ earlyOf first noted := by
  -- By induction from the back, since the excess is counted entry by entry.
  induction noted using List.reverseRecOn with
  | nil => exact (overdraft_nil first).le
  | append_singleton noted n ih =>
      have hlength := length_le_early first hnodup
      have hmono : earlyOf first noted ≤ earlyOf first (noted ++ [n]) :=
        (List.sublist_append_left noted [n]).countP_le
      rw [newestOf_concat, List.length_append, List.length_singleton] at hlength
      -- The excess is at its highest either before or with the latest entry.
      rw [overdraft_concat]
      refine max_le ((ih (List.nodup_append.mp hnodup).1).trans hmono) ?_
      omega

/-- When every packet comes once, the losses and the packets from before the
    first are as many as the packets that are missing and those that found no
    loss to strike out. -/
theorem lost_add_early (start : UInt32) {arrivals : List Nat} {first : Nat}
    (h : Followable arrivals) (hnodup : arrivals.Nodup) (hhead : arrivals.head? = some first) :
    (recordAll start arrivals).counters.lost + earlyOf first (entries arrivals)
      = missing (entries arrivals) first (newestOf arrivals)
        + overdraft first (entries arrivals) := by
  have hentered := entered_recordAll start h hhead
  have hlength := length_add_missing_early (hnodup.sublist (sublist_entries arrivals))
    hentered.onRecord.le_newest hentered.onRecord.newest_mem hentered.first_le
  have hexpected := hentered.expected_eq
  have hlost := hentered.lost_eq
  omega

/-- When every packet comes once, a packet from before the first one that came
    strikes out a loss if there is any, though none was counted for it: the same
    packets are missing as before. The losses that are counted are the missing
    packets less the early ones, but for early ones that found nothing to strike
    out. -/
theorem early_packet_accounted (start : UInt32) (arrivals : List Nat) (first n : Nat)
    (h : Followable arrivals) (hnodup : arrivals.Nodup) (hhead : arrivals.head? = some first)
    (hnew : n ∉ arrivals) (hearly : n < first) (hnear : newestOf arrivals ≤ n + 16) :
    (recordAll start arrivals).accepts (.ofNat n) = true ∧
      recordAll start (arrivals ++ [n])
        = { recordAll start arrivals with
            counters.lost := (recordAll start arrivals).counters.lost - 1
            primaries := (recordAll start arrivals).primaries.add (Red.packetTime start n) } ∧
      missing (entries (arrivals ++ [n])) first (newestOf (arrivals ++ [n]))
        = missing (entries arrivals) first (newestOf arrivals) ∧
      (recordAll start arrivals).counters.expected + first = newestOf arrivals + 1 ∧
      (recordAll start arrivals).counters.lost + earlyOf first (entries arrivals)
        = missing (entries arrivals) first (newestOf arrivals)
          + overdraft first (entries arrivals) ∧
      (recordAll start arrivals).counters.lost
        ≤ missing (entries arrivals) first (newestOf arrivals) := by
  have hentered := entered_recordAll start h hhead
  have hold : n ∉ entries arrivals := fun hin => hnew ((sublist_entries arrivals).subset hin)
  have hunrecent : ¬ Recent 21 (entries arrivals) n := fun hrecent => hold hrecent.mem
  -- It was sent before the first, and the newest was not.
  have hlt : n < newestOf arrivals := hearly.trans_le hentered.first_le
  rcases hentered.onRecord.late hlt hnear hunrecent with ⟨hyes, heq, _⟩
  have hlost := lost_add_early start h hnodup hhead
  have hover := overdraft_le_early first _ (hnodup.sublist (sublist_entries arrivals))
  refine ⟨hyes, (recordAll_concat start arrivals n).trans heq, ?_, hentered.expected_eq, hlost,
    by omega⟩
  rw [newestOf_concat, max_eq_left (le_of_lt hlt), entries_concat, enter,
    if_pos ⟨by rw [newestOf_entries]; exact hnear, hunrecent⟩]
  -- It is written to the ring, but it is none of those that could be missing.
  refine missing_congr fun m hm => ?_
  rw [List.mem_append, List.mem_singleton, or_iff_left (by omega)]

/-- Packet 11 never comes. Packet 9 does, behind two that were sent later, and now nothing
    seems to be lost: the tracker takes 9 for one of those it has missed since the first
    packet, though it was sent before that one. -/
theorem early_packet_hides_loss :
    (recordAll 0 [10, 12]).counters.lost = 1 ∧ (recordAll 0 [10, 12, 9]).counters.lost = 0 ∧
      missing (entries [10, 12, 9]) 10 12 = 1 := by
  have hfollow : Followable [10, 12] := followable_of_le (List.cons_ne_nil _ _) (by decide)
  have hearly := early_packet_accounted 0 [10, 12] 10 9 hfollow (by decide) rfl (by decide)
    (by decide) (by decide)
  have hlost : (recordAll 0 [10, 12]).counters.lost = 1 := by decide
  have hmissing : missing (entries [10, 12, 9]) 10 12 = missing (entries [10, 12]) 10 12 :=
    hearly.2.2.1
  refine ⟨hlost, ?_, hmissing.trans (by decide)⟩
  have hnext : (recordAll 0 [10, 12, 9]).counters.lost
      = (recordAll 0 [10, 12]).counters.lost - 1 := congrArg (·.counters.lost) hearly.2.1
  rw [hnext, hlost]

end Loss

end RedundantAudio
