import RedundantAudio.Proofs.Loss.Grants

/-!
# What a Late Packet Is Credited With

A packet that comes late may vouch for packets that have come in the meantime,
and no credit is due for those. The tracker sees to it by means of the ring of
primaries: it denies a credit when the primary is on record. The ring has
room for twenty-one packets, and one of them is the late packet itself, whose
primary is counted before it asks for anything. So a packet that arrived is
still on record if fewer than twenty others arrived behind it.

That is not always enough. A packet may be late by sixteen, and vouch for
packets that lie up to five further back, or up to six by correction data.
With nothing lost in between, the ring would have to hold twenty-two packets
besides the late one. `late_credits` says exactly when a credit is
given. It follows that nothing goes wrong up to a delay of fourteen, and that
beyond it one other packet has to be missing for something to go wrong, as in
`late_credits_slow`.

## Main definitions

* `Stream.caught`: The tracker when the late primary has been counted.
* `Stream.Undue`: A credit is given for a packet that has arrived.
* `Caught`: The accounts of primaries at that point.

## Theorems

* `countPrimary_late`: The late primary.
* `Caught.contains_iff`: Which primaries are on record.
* `Caught.granted_iff`: Which credits are given.
* `Caught.undue`, `Caught.of_undue`: When one is given that should not be.
* `late_credits`: What a late packet is credited with.
* `late_credits_slow`: A credit for a packet that has arrived.
-/

namespace RedundantAudio

namespace Loss

/-- An entry of an increasing list is recent when few entries are greater. What arrives in
    order is written in order, so whether the ring still knows a packet can be said by
    counting. -/
theorem recent_iff_countP (count : Nat) (l : List Nat) (n : Nat) (hl : l.Pairwise (· < ·)) :
    Recent count l n ↔ n ∈ l ∧ l.countP (fun k => n < k) < count := by
  -- In an increasing list, what stands behind an entry is what is greater.
  have hcount : ∀ before after, l = before ++ n :: after →
      l.countP (fun k => n < k) = after.length := by
    rintro before after rfl
    have hpair := List.pairwise_append.mp hl
    have hbefore : before.countP (fun k => n < k) = 0 := by
      rw [List.countP_eq_zero]
      intro k hk
      have hlt := hpair.2.2 k hk n List.mem_cons_self
      rw [decide_eq_true_eq]
      omega
    have hafter : after.countP (fun k => n < k) = after.length := by
      rw [List.countP_eq_length]
      intro k hk
      exact decide_eq_true ((List.pairwise_cons.mp hpair.2.1).1 k hk)
    have hself : decide (n < n) = false := decide_eq_false (lt_irrefl n)
    rw [List.countP_append, hbefore, Nat.zero_add, List.countP_cons, hafter, hself]
    rfl
  -- Both directions now compare the number of greater entries with the limit.
  constructor
  · intro h
    rcases h with ⟨before, after, heq, hlength⟩
    rw [hcount before after heq, heq]
    exact ⟨List.mem_append_right _ List.mem_cons_self, hlength⟩
  · rintro ⟨hmem, hlt⟩
    rcases List.append_of_mem hmem with ⟨before, after, heq⟩
    rw [hcount before after heq] at hlt
    exact ⟨before, after, heq, hlt⟩

namespace Stream

variable (s : Stream)

/-- The tracker when packets have arrived in order, and then the primary of a
    late one has been counted. -/
def caught (arrivals : List Nat) (late : Nat) : Tracker :=
  (s.track arrivals).countPrimary (s.sequenceOf late) (s.time late)

/-- Of the credits that a tracker is asked for, in order, one is given for a
    packet that has arrived. -/
def Undue (arrived : List Nat) (t : Tracker) (asked : List Credit) : Prop :=
  ∃ before c after m, asked = before ++ c :: after ∧ s.Granted (before.foldl s.credit t) c ∧
    c.Protects m ∧ m ∈ arrived

end Stream

/-- The accounts of primaries when packets have arrived in order, and then the
    primary of a late one has been counted. -/
structure Caught (s : Stream) (arrivals : List Nat) (first newest late : Nat) (t : Tracker) :
    Prop where
  config_eq : t.config = {}
  primaries_eq : t.primaries.slots
    = written 21 ((arrivals ++ [late]).map fun n => some (s.time n))
  lost_eq : t.counters.lost = missing arrivals first newest - 1

/-- The accounts behind a late primary carry over to any tracker that agrees, so they last
    while credits are given. -/
theorem Caught.congr {s : Stream} {arrivals : List Nat} {first newest late : Nat} {t t' : Tracker}
    (h : Caught s arrivals first newest late t) (ha : Agrees t' t) :
    Caught s arrivals first newest late t' where
  config_eq := ha.config_eq.trans h.config_eq
  primaries_eq := by rw [ha.primaries_eq, h.primaries_eq]
  lost_eq := ha.lost_eq.trans h.lost_eq

section Late

variable (s : Stream) {arrivals : List Nat} {first newest late : Nat} {t : Tracker}

/-- A packet that is late, but not by more than sixteen, is taken off the losses. It is
    written to the ring, and no packet becomes credited by it: what it takes back, if
    anything, is a credit that was given for itself. -/
theorem countPrimary_late (h : Tracked s arrivals first newest t)
    (horder : Red.InOrder 32767 arrivals) (hhead : arrivals.head? = some first)
    (hlast : arrivals.getLast? = some newest) (hlate : late ∉ arrivals) (hlt : late < newest)
    (hnear : newest ≤ late + 16) :
    t.accepts (s.sequenceOf late) = true ∧
      Caught s arrivals first newest late (t.countPrimary (s.sequenceOf late) (s.time late)) ∧
      ∀ time, Credited (t.countPrimary (s.sequenceOf late) (s.time late)) time →
        Credited t time := by
  rcases countPrimary_behind s newest late t h.config_eq h.newest_eq hlt (by omega) with
    ⟨haccepts, hbehind⟩
  -- The late packet is near enough for the ring to tell that it has not arrived.
  have hunseen : t.primaries.contains (s.time late) = false :=
    Bool.eq_false_iff.mpr fun hin =>
      hlate ((h.contains_iff horder hlast late (le_of_lt hlt) (by omega)).mp hin)
  have hcount : t.countPrimary (s.sequenceOf late) (s.time late)
      = { t with
          counters.lost := t.counters.lost - 1
          primaries := t.primaries.add (s.time late) }.takeBackCredits (s.time late) := by
    rw [hbehind hnear, Tracker.countLate, hunseen]
    rfl
  rw [hcount]
  refine ⟨haccepts.mpr hnear, ?_, fun time hcredited =>
    (credited_takeBackCredits hcredited).imp id id⟩
  -- What is taken back in credits leaves the accounts of primaries alone.
  have hagrees := agrees_takeBackCredits { t with
    counters.lost := t.counters.lost - 1
    primaries := t.primaries.add (s.time late) } (s.time late)
  refine ⟨hagrees.config_eq.trans h.config_eq, ?_, ?_⟩
  · have hadd := slots_add_written 21 (by omega) t.primaries (s.time late) _ h.primaries_eq
    rw [List.map_append]
    exact (congrArg Window.slots hagrees.primaries_eq).trans hadd
  · rw [← h.lost_eq_missing horder hhead hlast]
    exact hagrees.lost_eq

/-- Of the packets that a late packet can vouch for, those are on record that are among the
    last twenty before it, and the late packet itself, which has taken the slot of one that
    would otherwise be known. -/
theorem Caught.contains_iff (h : Caught s arrivals first newest late t)
    (horder : Red.InOrder 32767 arrivals) (hlast : arrivals.getLast? = some newest)
    (hlt : late < newest) (hnear : newest ≤ late + 16) (m : Nat) (hm : m ≤ newest)
    (hmn : newest ≤ m + 2 ^ 25) :
    t.primaries.contains (s.time m) = true ↔
      m = late ∨ m ∈ arrivals ∧ arrivals.countP (fun k => m < k) < 20 := by
  rw [Window.contains_iff, h.primaries_eq, mem_written_map,
    ← recent_iff_countP 20 arrivals m horder.pairwise]
  simp only [recent_concat, Option.some.injEq]
  -- A time on record is that of the late packet or of a recent one, and near the newest no
  -- two packets share a time.
  constructor
  · rintro ⟨n, rfl | hn, htime⟩
    · exact Or.inl ((Red.packetTime_inj s.start n m (by omega) (by omega)).mp htime).symm
    · rcases hn with ⟨before, after, heq, hlength⟩
      have hn' : Recent 21 arrivals n := ⟨before, after, heq, by omega⟩
      rw [recent_time_inj s horder hlast hm hmn hn'] at htime
      rw [← htime]
      exact Or.inr ⟨before, after, heq, hlength⟩
  · rintro (rfl | hn)
    · exact ⟨m, Or.inl rfl, rfl⟩
    · exact ⟨m, Or.inr hn, rfl⟩

/-- No packet has arrived that was sent just before its media time came round again. That is
    the time which the correction data of packet 0 asks for. -/
theorem Caught.contains_wrap (h : Caught s arrivals first newest late t)
    (horder : Red.InOrder 32767 arrivals) (hlast : arrivals.getLast? = some newest)
    (hnewest : newest < 2 ^ 25) (hlt : late < newest) :
    t.primaries.contains (s.time (2 ^ 26 - 1)) = false := by
  refine Bool.eq_false_iff.mpr fun hin => ?_
  rw [Window.contains_iff, h.primaries_eq, mem_written_map] at hin
  rcases hin with ⟨m, hm, htime⟩
  rw [Option.some.injEq] at htime
  have hmod := (Red.packetTime_eq_iff s.start m (2 ^ 26 - 1)).mp htime
  -- Both the packets in order and the late one are much younger than a lap.
  rcases List.mem_append.mp hm.mem with hold | hnew
  · have hle := horder.le_last hlast m hold
    omega
  · have hle := List.mem_singleton.mp hnew
    omega

/-- A credit that the late packet asks for is given exactly when another
    packet is missing, it has not been given before, and it is not for a packet
    that the ring of primaries still knows. -/
theorem Caught.granted_iff (h : Caught s arrivals first newest late t)
    (horder : Red.InOrder 32767 arrivals) (hlast : arrivals.getLast? = some newest)
    (hlt : late < newest) (hnear : newest ≤ late + 16) (c : Credit) (hc : c ∈ s.credits late) :
    s.Granted t c ↔
      1 < missing arrivals first newest ∧ ¬ s.Held t c ∧
        ∀ m, c.Protects m → m ∈ arrivals → 20 ≤ arrivals.countP (fun k => m < k) := by
  -- The late packet is no longer missing, so there has to be another one.
  have hlost : t.counters.lost ≠ 0 ↔ 1 < missing arrivals first newest := by
    rw [h.lost_eq]
    omega
  have hprimary : t.primaries.contains (s.creditTime c) = false ↔
      ∀ m, c.Protects m → m ∈ arrivals → 20 ≤ arrivals.countP (fun k => m < k) := by
    rcases Stream.protects_or c with ⟨m, hm⟩ | rfl
    · have hrange := s.near_of_protects c hm hc
      rw [s.creditTime_eq hm, ← Bool.not_eq_true,
        h.contains_iff s horder hlast hlt hnear m (by omega) (by omega),
        or_iff_right (by omega : m ≠ late), not_and, not_lt]
      refine ⟨fun hgone k hk hin => ?_, fun hall => hall m hm⟩
      rw [← Stream.protects_inj hm hk] at hin ⊢
      exact hgone hin
    · -- Packet 0 is carried, so that the stream has only just begun.
      have hsmall : late ≤ 5 := by
        rcases ((s.fec_mem_credits late 0).mp hc).1 with hzero | hcarried
        · omega
        · exact (s.carried_near late 0 hcarried).trans (by omega)
      rw [s.creditTime_fec_zero]
      refine ⟨fun _ m hm => ?_, fun _ => h.contains_wrap s horder hlast (by omega) hlt⟩
      rcases hm with hred | hfec
      · cases hred
      · cases hfec
  rw [s.granted_iff t h.config_eq c, hlost, hprimary]
  tauto

/-- A credit is given for a packet that is not on record any more, if another packet is
    missing and no ring of credits holds the time of this one. The packet may ask for the
    same one twice, by its copy and by correction data, and it is the first of the two that
    is given. -/
theorem Caught.undue (h : Caught s arrivals first newest late t)
    (horder : Red.InOrder 32767 arrivals) (hlast : arrivals.getLast? = some newest)
    (hlt : late < newest) (hnear : newest ≤ late + 16)
    (hmissing : 1 < missing arrivals first newest) (m : Nat) (hm : m ∈ arrivals)
    (hgone : 20 ≤ arrivals.countP (fun k => m < k)) (c : Credit)
    (hc : c ∈ s.credits late) (hprotects : c.Protects m) (hfree : ¬ Credited t (s.time m)) :
    s.Undue arrivals t (s.credits late) := by
  have hm' := s.near_of_protects c hprotects hc
  -- The first credit for this packet is the one that is given.
  have hfound : ((s.credits late).find? fun c => s.creditTime c = s.time m).isSome := by
    rw [List.find?_isSome]
    exact ⟨c, hc, decide_eq_true (s.creditTime_eq hprotects)⟩
  rcases Option.isSome_iff_exists.mp hfound with ⟨c', hfirst⟩
  rcases List.find?_eq_some_iff_append.mp hfirst with ⟨htime, before, after, heq, hbefore⟩
  rw [decide_eq_true_eq] at htime
  have hc' : c' ∈ s.credits late := by
    rw [heq]
    exact List.mem_append_right _ List.mem_cons_self
  -- No other packet that can be asked for has this time, so the first credit for the time
  -- is one for the packet.
  have hprotects' : c'.Protects m := by
    rcases Stream.protects_or c' with ⟨k, hk⟩ | rfl
    · have hk' := s.near_of_protects c' hk hc'
      rw [s.creditTime_eq hk] at htime
      rwa [(Red.packetTime_inj s.start k m (by omega) (by omega)).mp htime] at hk
    · rw [s.creditTime_fec_zero] at htime
      have hmod := (Red.packetTime_eq_iff s.start (2 ^ 26 - 1) m).mp htime
      rcases ((s.fec_mem_credits late 0).mp hc').1 with hzero | hcarried
      · omega
      · have hzero := s.carried_near late 0 hcarried
        omega
  -- None of the earlier credits was for this time, so it is still free.
  have hfree' : ¬ s.Held (before.foldl s.credit t) c' := by
    intro hheld
    have hcredited := s.held_credited hheld
    rw [htime] at hcredited
    rcases s.credited_foldl before h.config_eq hcredited with hold | ⟨k, hk, hsame, _⟩
    · exact hfree hold
    · have hother := hbefore k hk
      rw [hsame, decide_eq_true rfl] at hother
      cases hother
  refine ⟨before, c', after, m, heq, ?_, hprotects', hm⟩
  have hcaught := h.congr (agrees_credits s before t)
  rw [hcaught.granted_iff s horder hlast hlt hnear c' hc']
  refine ⟨hmissing, hfree', fun k hk _ => ?_⟩
  rwa [← Stream.protects_inj hprotects' hk]

/-- Nothing else makes a credit for a packet that has arrived. Another packet must be
    missing, and the one that is credited must have left the ring. -/
theorem Caught.of_undue (h : Caught s arrivals first newest late t)
    (horder : Red.InOrder 32767 arrivals) (hlast : arrivals.getLast? = some newest)
    (hlt : late < newest) (hnear : newest ≤ late + 16)
    (hundue : s.Undue (late :: arrivals) t (s.credits late)) :
    1 < missing arrivals first newest ∧
      ∃ m ∈ arrivals, 20 ≤ arrivals.countP (fun k => m < k) ∧
        ∃ c ∈ s.credits late, c.Protects m := by
  rcases hundue with ⟨before, c, after, m, heq, hgiven, hprotects, hm⟩
  have hc : c ∈ s.credits late := by
    rw [heq]
    exact List.mem_append_right _ List.mem_cons_self
  have hcaught := h.congr (agrees_credits s before t)
  rcases (hcaught.granted_iff s horder hlast hlt hnear c hc).mp hgiven with ⟨hmissing, _, hgone⟩
  -- A packet does not vouch for itself.
  have hrange := s.near_of_protects c hprotects hc
  have harrived : m ∈ arrivals := (List.mem_cons.mp hm).resolve_left (by omega)
  exact ⟨hmissing, m, harrived, hgone m hprotects harrived, c, hc, hprotects⟩

/-- The packets that arrived behind another one, and the late packet, fit
    between that one and the newest. -/
theorem countP_later_lt (horder : Red.InOrder 32767 arrivals)
    (hlast : arrivals.getLast? = some newest) (hlate : late ∉ arrivals) (hlt : late < newest)
    (m : Nat) (hm : m < late) : arrivals.countP (fun k => m < k) + m < newest := by
  -- The late packet takes one of the places.
  have hnodup : (late :: arrivals.filter fun k => m < k).Nodup := by
    refine List.nodup_cons.mpr ⟨fun hin => hlate (List.mem_filter.mp hin).1, ?_⟩
    exact (horder.pairwise.imp fun hlt => ne_of_lt hlt).filter _
  -- All of these lie behind the packet and not behind the newest.
  have hle := Red.length_le_of_within _ (m + 1) (newest - m) hnodup fun k hk => by
    rcases List.mem_cons.mp hk with rfl | hin
    · omega
    · rcases List.mem_filter.mp hin with ⟨hin, hgt⟩
      have hgt' := of_decide_eq_true hgt
      have hle := horder.le_last hlast k hin
      omega
  rw [List.length_cons, ← List.countP_eq_length_filter] at hle
  omega

end Late

/-- What a late packet is credited with, and when that is wrong: if another
    packet is missing, and it asks on behalf of a packet that arrived twenty or
    more packets ago. -/
theorem late_credits (s : Stream) (arrivals : List Nat) (first newest late : Nat)
    (horder : Red.InOrder 32767 arrivals) (hhead : arrivals.head? = some first)
    (hlast : arrivals.getLast? = some newest) (hlate : late ∉ arrivals) (hlt : late < newest)
    (hnear : newest ≤ late + 16) :
    s.receive (s.track arrivals) late
        = (s.credits late).foldl s.credit (s.caught arrivals late) ∧
      (∀ before c after, s.credits late = before ++ c :: after →
        (s.Granted (before.foldl s.credit (s.caught arrivals late)) c ↔
          1 < missing arrivals first newest ∧
            ¬ s.Held (before.foldl s.credit (s.caught arrivals late)) c ∧
            ∀ m, c.Protects m → m ∈ arrivals → 20 ≤ arrivals.countP (fun k => m < k))) ∧
      (newest + 1 < 2 ^ 26 →
        (s.Undue (late :: arrivals) (s.caught arrivals late) (s.credits late) ↔
          1 < missing arrivals first newest ∧
            ∃ m ∈ arrivals, 20 ≤ arrivals.countP (fun k => m < k) ∧
              ∃ c ∈ s.credits late, c.Protects m)) ∧
      (newest ≤ late + 14 →
        ¬ s.Undue (late :: arrivals) (s.caught arrivals late) (s.credits late)) := by
  have htracked := tracked_track s arrivals first newest horder hhead hlast
  rcases countPrimary_late s htracked horder hhead hlast hlate hlt hnear with
    ⟨haccepts, hcaught, hcredited⟩
  refine ⟨s.receive_eq _ late haccepts, ?_, fun hshort => ⟨?_, ?_⟩, ?_⟩
  · intro before c after heq
    refine (hcaught.congr (agrees_credits s before _)).granted_iff s horder hlast hlt hnear c ?_
    rw [heq]
    exact List.mem_append_right _ List.mem_cons_self
  · exact hcaught.of_undue s horder hlast hlt hnear
  · -- Within the first lap, no ring of credits can hold the time of a packet that arrived,
    -- and so nothing keeps the credit from being given.
    rintro ⟨hmissing, m, hm, hgone, c, hc, hprotects⟩
    have hfree : ¬ Credited (s.caught arrivals late) (s.time m) := fun hheld =>
      (s.onlyMissing_track arrivals first newest horder hhead hlast).not_credited hshort m hm
        (horder.le_last hlast m hm) (hcredited _ hheld)
    rcases hcaught.undue s horder hlast hlt hnear hmissing m hm hgone c hc hprotects hfree with
      ⟨before, c', after, n, heq, hgiven, hprotects', hn⟩
    exact ⟨before, c', after, n, heq, hgiven, hprotects', List.mem_cons_of_mem late hn⟩
  · -- Too few packets fit behind one that is at most six further back.
    intro hprompt hundue
    rcases (hcaught.of_undue s horder hlast hlt hnear hundue).2 with ⟨m, _, hgone, c, hc, hprotects⟩
    have hrange := s.near_of_protects c hprotects hc
    have hfew := countP_later_lt horder hlast hlate hlt m hrange.1
    omega

/-- Packet 14 carries packet 9, and is the only packet to carry one. -/
def slow : Stream :=
  .plain (fun n => if n = 14 then 5 else 0) false

/-- All packets up to 30, save for two. Packet 14 is late, and packet 1 is lost. -/
def slowArrivals : List Nat :=
  (List.range 31).filter fun n => n ≠ 1 ∧ n ≠ 14

/-- Packet 9 has arrived, and yet packet 14 is credited with it. Since then 21 others were
    written to the ring, the late one included, and packet 1, which is missing, keeps the
    losses above zero. -/
theorem late_credits_slow :
    9 ∈ slowArrivals ∧
      slow.Undue (14 :: slowArrivals) (slow.caught slowArrivals 14) (slow.credits 14) ∧
      (slow.receive (slow.track slowArrivals) 14).counters = ⟨1, 31, 1, 0⟩ := by
  have h := late_credits slow slowArrivals 0 30 14 (by unfold Red.InOrder; decide) rfl rfl
    (by decide) (by omega) (by omega)
  have hasked : ∃ c ∈ slow.credits 14, c.Protects 9 := ⟨.red 9, by decide, Or.inl rfl⟩
  exact ⟨by decide, (h.2.2.1 (by decide)).mpr ⟨by decide, 9, by decide, by decide, hasked⟩,
    by decide +kernel⟩

end Loss

end RedundantAudio
