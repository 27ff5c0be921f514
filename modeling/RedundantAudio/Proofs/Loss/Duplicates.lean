import RedundantAudio.Proofs.Loss.Entries

/-!
# A Packet That Comes Again

A packet that was accounted for and comes again should change nothing, and the
newest one never does: the distance to it is zero. Any other is known by its
media time alone, so it takes the ring to tell it from a packet that was lost.

The ring has a slot for each packet from sixteen behind the newest on, and for
five more. That is enough while packets come in order, and it is not when they
overtake each other: of thirty-two packets that can come behind one and still
find it near the newest, each takes a slot. Then the packet is on the ring no
more, is taken for a late one, and a loss is struck out that is still a loss.

When this happens can be said exactly, and it takes twenty-one different packets
to bring it about. A packet is safe while it is as far behind the newest as
there are slots to spare for the disorder among those that were written, which
is four packets behind whatever the disorder.

## Theorems

* `mem_entries_of_accepts`: What is accounted for was written to the ring.
* `duplicate_remembered`: What becomes of a packet that comes again.
* `duplicate_forgotten_behind`: One that comes again five packets behind.
-/

namespace RedundantAudio

namespace Loss

/-- What is accounted for is written to the ring, if it is not there. It stays among all
    that was ever written, whatever comes behind it: the history only grows, even where the
    ring forgets. -/
theorem mem_entries_of_accepts (start : UInt32) {before after : List Nat} {n : Nat}
    (h : Followable (before ++ n :: after))
    (haccepts : (recordAll start before).accepts (.ofNat n) = true) :
    n ∈ entries (before ++ n :: after) := by
  have hn : n ∈ entries (before ++ [n]) := by
    rw [entries_concat]
    refine mem_enter ?_
    rw [newestOf_entries]
    rcases (h.of_append after).last with rfl | ⟨hbefore, hbehind, _⟩
    · exact Nat.zero_le _
    · -- It would have been refused from any further behind.
      refine Nat.not_lt.mp fun hfar => ?_
      rw [((onRecord_recordAll start hbefore).refused hfar hbehind).1] at haccepts
      cases haccepts
  -- Later packets only append.
  have hprefix := prefix_entries (before ++ [n]) after
  rw [List.append_assoc, List.singleton_append] at hprefix
  exact hprefix.subset hn

/-- A packet that was written to the ring at any time, and is still near the newest. Coming
    again it changes nothing, if the ring has kept it, and is taken for a late one
    otherwise. -/
theorem OnRecord.duplicate {start : UInt32} {newest n : Nat} {noted : List Nat} {t : Tracker}
    (h : OnRecord start newest noted t) (hspaced : Spaced 21 noted)
    (horder : noted.Pairwise fun a b => a ≤ b + 16) (hn : n ∈ noted) (hnear : newest ≤ n + 16) :
    t.accepts (.ofNat n) = true ∧ (record start t n = t ↔ Recent 21 noted n) ∧
      (¬ Recent 21 noted n →
        record start t n
          = { t with
              counters.lost := t.counters.lost - 1
              primaries := t.primaries.add (Red.packetTime start n) }) := by
  have hle := h.le_newest n hn
  -- Of the four cases only two remain for a packet near the newest that was written.
  rcases h.call hspaced horder (n := n) (by omega) (by omega) with
    ⟨hfar, _⟩ | ⟨_, hrecent, hyes, hsame⟩ | ⟨hlt, _⟩ | ⟨_, _, hold, hyes, heq, _⟩
  · omega
  · exact ⟨hyes, iff_of_true hsame hrecent, fun hold => absurd hrecent hold⟩
  · omega
  · refine ⟨hyes, iff_of_false (fun hsame => hold ?_) hold, fun _ => heq⟩
    -- What is written as new would have been there before.
    have hprimaries : t.primaries.add (Red.packetTime start n) = t.primaries :=
      congrArg Tracker.primaries (heq.symm.trans hsame)
    rw [← h.contains_iff hle hnear, Window.contains_iff, ← hprimaries, Window.slots_add]
    exact List.mem_append_right _ (List.mem_singleton_self _)

/-- A packet that was accounted for and is still near the newest is accepted
    when it comes again. It changes nothing exactly if it is among the last
    twenty-one that were written to the ring. Otherwise it is taken for a late
    one, and twenty-one different packets were written behind it. It is safe
    while the disorder among those that were written leaves room for it, and
    four packets behind the newest at any rate. -/
theorem duplicate_remembered (start : UInt32) (arrivals before after : List Nat) (n : Nat)
    (h : Followable arrivals) (hsplit : arrivals = before ++ n :: after)
    (haccepts : (recordAll start before).accepts (.ofNat n) = true)
    (hnear : newestOf arrivals ≤ n + 16) :
    (recordAll start arrivals).accepts (.ofNat n) = true ∧
      (record start (recordAll start arrivals) n = recordAll start arrivals ↔
        Recent 21 (entries arrivals) n) ∧
      (¬ Recent 21 (entries arrivals) n →
        record start (recordAll start arrivals) n
            = { recordAll start arrivals with
                counters.lost := (recordAll start arrivals).counters.lost - 1
                primaries :=
                  (recordAll start arrivals).primaries.add (Red.packetTime start n) } ∧
          ∃ earlier others rest, entries arrivals = earlier ++ n :: (others ++ rest) ∧
            others.length = 21 ∧ (n :: others).Nodup) ∧
      (∀ spread, ((entries arrivals).Pairwise fun a b => a ≤ b + spread) →
        newestOf arrivals + spread ≤ n + 20 →
        record start (recordAll start arrivals) n = recordAll start arrivals) ∧
      (newestOf arrivals ≤ n + 4 →
        record start (recordAll start arrivals) n = recordAll start arrivals) := by
  have hspaced := spaced_entries arrivals
  have horder := pairwise_entries arrivals
  have hmem : n ∈ entries arrivals := by
    rw [hsplit]
    exact mem_entries_of_accepts start (hsplit ▸ h) haccepts
  have hrecord := onRecord_recordAll start h
  rcases hrecord.duplicate hspaced horder hmem hnear with ⟨hyes, hiff, hlate⟩
  -- The less disorder there is, the fewer entries can stand behind this one.
  have hroom : ∀ spread, ((entries arrivals).Pairwise fun a b => a ≤ b + spread) →
      newestOf arrivals + spread ≤ n + 20 →
      record start (recordAll start arrivals) n = recordAll start arrivals :=
    fun spread hspread hcount => hiff.mpr (recent_of_spaced 21 spread (newestOf arrivals + 1)
      (entries arrivals) n hspaced hspread
      (fun m hm => Nat.lt_succ_of_le (hrecord.le_newest m hm)) hmem (by omega))
  exact ⟨hyes, hiff, fun hold => ⟨hlate hold, hspaced.pushed hmem hold⟩, hroom,
    fun hclose => hroom 16 horder (by omega)⟩

/-- Packet 18 comes ahead of those before it and again behind the newest. All
    that came in between were written to the ring, so it strikes out the loss of
    packet 1, which never came. -/
theorem duplicate_forgotten_behind :
    (recordAll 0 ([0, 18] ++ (List.range' 2 16 ++ List.range' 19 5))).counters.lost = 1 ∧
      (record 0 (recordAll 0 ([0, 18] ++ (List.range' 2 16 ++ List.range' 19 5)))
        18).counters.lost = 0 := by
  have hfollow : Followable ([0, 18] ++ (List.range' 2 16 ++ List.range' 19 5)) :=
    followable_of_le (List.cons_ne_nil _ _) (by decide)
  have hlost : (recordAll 0 ([0, 18] ++ (List.range' 2 16 ++ List.range' 19 5))).counters.lost
      = 1 := by decide +kernel
  have hagain := duplicate_remembered 0 _ [0] (List.range' 2 16 ++ List.range' 19 5) 18 hfollow rfl
    (by decide) (by decide)
  have hforgotten : ¬ Recent 21 (entries ([0, 18] ++ (List.range' 2 16 ++ List.range' 19 5))) 18 :=
    by decide +kernel
  refine ⟨hlost, ?_⟩
  rw [(hagain.2.2.1 hforgotten).1]
  exact congrArg (· - 1) hlost

end Loss

end RedundantAudio
