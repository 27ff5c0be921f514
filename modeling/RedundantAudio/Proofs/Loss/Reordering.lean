import RedundantAudio.Proofs.Loss.Grants

/-!
# Losses When Packets Overtake Each Other

A gap in the sequence numbers counts as lost, and a packet from within the gap
that comes after all takes one off again. For that to be exact, the tracker
has to know which packets it has counted, and all it has is sixteen bits of
their numbers and a ring of twenty-one wrapping media times.

It is exact all the same, for packets in any order and any number of laps,
as long as each packet is sent once and comes within half the range of sequence
numbers around the newest. Two things make it so. A packet is accounted for
up to a distance of sixteen, and the packets that the ring holds are all from
so close behind the newest that no two of them share a media time. So a packet
that is accounted for is always told from those that were, and each takes one
place among those between the first and the newest.

What was written to the ring is kept beside the tracker as a list, and `OnRecord`
is what holds of it, whether packets come once or more often. When each comes
once, these are the packets that are accounted for, and `Reordered` is `Tracked`
for that list, with what it takes to go on.

## Main definitions

* `Stream.silent`: A stream in which no packet asks for a credit.
* `newestOf`: The newest of some packets.
* `Placeable`: Packets that a tracker can place.
* `recordAll`, `answers`: The tracker after some primaries, and what it said.
* `OnRecord`: What was written to the ring of primaries.
* `Reordered`: The accounts of primaries that come in any order.

## Theorems

* `OnRecord.contains_iff`: A packet is told from all others while it is recent.
* `OnRecord.ahead`, `OnRecord.late`, `OnRecord.refused`: One packet.
* `Reordered.lost_pos`: There is a loss to take off.
* `reordered_recordAll`: A run.
* `losses_exact`: The losses are the packets that were not accounted for.
-/

namespace RedundantAudio

namespace Loss

/-- A stream that numbers its packets from zero, and in which no packet asks for
    a credit. -/
def Stream.silent (start : UInt32) : Stream where
  sequence := 0
  start := start
  carried _ := []
  block n m :=
    { isLast := Nat.beq m n
      payloadType := 111
      offset := 0
      timestamp := Red.packetTime start m
      payload := []
      hasFec := false }
  carried_lt _ _ hm := absurd hm List.not_mem_nil
  carried_near _ _ hm := absurd hm List.not_mem_nil
  isLast_own n := Nat.beq_refl n
  isLast_carried _ _ hm := absurd hm List.not_mem_nil
  timestamp_own _ := rfl
  timestamp_carried _ _ _ := rfl

theorem sequenceOf_silent (start : UInt32) (n : Nat) :
    (Stream.silent start).sequenceOf n = .ofNat n :=
  UInt16.zero_add _

/-- The newest of some packets. -/
def newestOf (arrivals : List Nat) : Nat :=
  arrivals.foldl max 0

theorem newestOf_concat (arrivals : List Nat) (n : Nat) :
    newestOf (arrivals ++ [n]) = max (newestOf arrivals) n :=
  List.foldl_concat _ _ _ _

/-- Packets that a tracker can place, from the first one on: none comes twice
    or was sent before the first, and each is within half the range of sequence
    numbers around the newest that came before it. -/
inductive Placeable (first : Nat) : List Nat → Prop
  | first : Placeable first [first]
  | next (before : List Nat) (n : Nat) (hbefore : Placeable first before) (hnew : n ∉ before)
      (hfirst : first ≤ n) (hbehind : newestOf before < n + 32768)
      (hahead : n ≤ newestOf before + 32767) : Placeable first (before ++ [n])

/-- The last of some packets that a tracker can place is the first one of all, or it is new,
    and near enough to the newest before it. -/
theorem Placeable.last {first : Nat} {before : List Nat} {n : Nat}
    (h : Placeable first (before ++ [n])) :
    before = [] ∧ n = first ∨
      Placeable first before ∧ n ∉ before ∧ first ≤ n ∧ newestOf before < n + 32768 ∧
        n ≤ newestOf before + 32767 := by
  -- The list is named, as its last packet is not what the cases are made of.
  generalize hall : before ++ [n] = all at h
  cases h with
  | first =>
      rcases List.append_eq_singleton_iff.mp hall with ⟨hnil, hlast⟩ | ⟨_, hlast⟩
      · exact Or.inl ⟨hnil, List.singleton_inj.mp hlast⟩
      · cases hlast
  | next before' n' hbefore hnew hfirst hbehind hahead =>
      rcases List.append_inj' hall rfl with ⟨rfl, hlast⟩
      rw [List.singleton_inj.mp hlast]
      exact Or.inr ⟨hbefore, hnew, hfirst, hbehind, hahead⟩

/-- Up to any of its packets, a list that a tracker can place is one that it can place. -/
theorem Placeable.of_append {first : Nat} {before : List Nat} {n : Nat} (after : List Nat) :
    Placeable first (before ++ n :: after) → Placeable first (before ++ [n]) := by
  induction after using List.reverseRecOn with
  | nil => exact id
  | append_singleton after m ih =>
      intro h
      rw [← List.cons_append, ← List.append_assoc] at h
      rcases h.last with ⟨hnil, _⟩ | ⟨hbefore, _⟩
      · cases (List.append_eq_nil_iff.mp hnil).2
      · exact ih hbefore

/-- The tracker after one more primary, of the packet with a number. -/
def record (start : UInt32) (t : Tracker) (n : Nat) : Tracker :=
  t.countPrimary (.ofNat n) (Red.packetTime start n)

/-- A fresh tracker after some primaries. -/
def recordAll (start : UInt32) (arrivals : List Nat) : Tracker :=
  arrivals.foldl (record start) (.ofConfig {})

/-- What a tracker answers to some primaries: whether it accounts for them. -/
def answers (start : UInt32) : Tracker → List Nat → List Bool
  | _, [] => []
  | t, n :: arrivals => t.accepts (.ofNat n) :: answers start (record start t n) arrivals

theorem recordAll_concat (start : UInt32) (arrivals : List Nat) (n : Nat) :
    recordAll start (arrivals ++ [n]) = record start (recordAll start arrivals) n :=
  List.foldl_concat _ _ _ _

/-- The answer to one more primary comes last, and it is the one that the tracker gives
    behind the others. -/
theorem answers_concat (start : UInt32) (arrivals : List Nat) (n : Nat) : ∀ t : Tracker,
    answers start t (arrivals ++ [n])
      = answers start t arrivals ++ [(arrivals.foldl (record start) t).accepts (.ofNat n)] := by
  induction arrivals with
  | nil =>
      intro t
      rfl
  | cons m arrivals ih =>
      intro t
      rw [List.cons_append, answers, ih, answers, List.foldl_cons, List.cons_append]

/-- What a tracker knows of the primaries that it was given: `noted` are those
    written to its ring, and no credits are given. The longer ago one of them
    was written, the further it may be behind the newest. -/
structure OnRecord (start : UInt32) (newest : Nat) (noted : List Nat) (t : Tracker) : Prop where
  config_eq : t.config = {}
  newest_eq : t.newest = some (.ofNat newest)
  primaries_eq : t.primaries.slots
    = written 21 (noted.map fun n => some (Red.packetTime start n))
  le_newest : ∀ n ∈ noted, n ≤ newest
  near : ∀ count n, Recent (count + 1) noted n → newest ≤ n + 16 + 32767 * count
  not_credited : ∀ time, ¬ Credited t time
  newest_mem : newest ∈ noted

/-- A late primary that is not on record, when there are no credits to take
    back. -/
theorem countLate_new (t : Tracker) (time : UInt32) (hunseen : t.primaries.contains time = false)
    (hfree : ¬ Credited t time) :
    t.countLate time
      = { t with
          counters.lost := t.counters.lost - 1
          primaries := t.primaries.add time } := by
  rw [Credited, not_or, Bool.not_eq_true, Bool.not_eq_true] at hfree
  simp only [Tracker.countLate, hunseen, Tracker.takeBackCredits, hfree.1, hfree.2,
    Bool.false_eq_true, if_false]

section Record

variable {start : UInt32} {newest : Nat} {noted : List Nat} {t : Tracker}

/-- One more packet keeps the others near enough, if it is near itself. Each packet moves
    the newest on by less than half the range, so that an entry drifts away by that much for
    every one written behind it. -/
theorem OnRecord.near_concat (h : OnRecord start newest noted t) (n newest' : Nat)
    (hstep : newest' ≤ newest + 32767) (hn : newest' ≤ n + 16) :
    ∀ count m, Recent (count + 1) (noted ++ [n]) m → newest' ≤ m + 16 + 32767 * count := by
  intro count m hm
  rcases (recent_concat count noted n m).mp hm with rfl | hold
  · omega
  · cases count with
    | zero =>
        rcases hold with ⟨_, after, _, hlength⟩
        exact absurd hlength (Nat.not_lt_zero _)
    | succ count =>
        -- It was near among one packet fewer, and the newest has moved by a gap at most.
        have hle := h.near count m hold
        rw [Nat.mul_succ, ← Nat.add_assoc]
        exact hstep.trans (Nat.add_le_add_right hle 32767)

/-- A packet is on record while it is recent: the ring holds none of its
    namesakes. -/
theorem OnRecord.contains_iff (h : OnRecord start newest noted t) {n : Nat} (hle : n ≤ newest)
    (hnear : newest ≤ n + 16) :
    t.primaries.contains (Red.packetTime start n) = true ↔ Recent 21 noted n := by
  rw [Window.contains_iff, h.primaries_eq, mem_written_map]
  constructor
  · rintro ⟨m, hm, htime⟩
    -- Twenty gaps are far less than a lap of media time.
    have hclose := h.near 20 m hm
    have hle' := h.le_newest m hm.mem
    rw [Option.some.injEq] at htime
    obtain rfl := (Red.packetTime_inj start m n (by omega) (by omega)).mp htime
    exact hm
  · exact fun hn => ⟨n, hn, rfl⟩

/-- A packet from far behind the newest is refused, and changes nothing. -/
theorem OnRecord.refused (h : OnRecord start newest noted t) {n : Nat} (hfar : n + 16 < newest)
    (hgap : newest < n + 32768) : t.accepts (.ofNat n) = false ∧ record start t n = t := by
  have hbehind := countPrimary_behind (.silent start) newest n t h.config_eq
    (by rw [h.newest_eq, sequenceOf_silent]) (by omega) (by omega)
  rw [sequenceOf_silent] at hbehind
  -- Sixteen packets behind is the limit, and this one lies further back.
  have hno : t.accepts (.ofNat n) = false :=
    Bool.eq_false_iff.mpr fun hyes => absurd (hbehind.1.mp hyes) (by omega)
  exact ⟨hno, countPrimary_rejected _ hno⟩

/-- A packet that is ahead of the newest is accepted, becomes the newest and is written to
    the ring. So the ring holds the same packets as before and one more, until it runs out
    of slots. -/
theorem OnRecord.ahead (h : OnRecord start newest noted t) {n : Nat} (hlt : newest < n)
    (hgap : n ≤ newest + 32767) :
    t.accepts (.ofNat n) = true ∧
      record start t n = t.countAhead (.ofNat n) (Red.packetTime start n) (n - newest) ∧
      OnRecord start n (noted ++ [n]) (record start t n) := by
  have hahead := countPrimary_ahead (.silent start) newest n t
    (by rw [h.newest_eq, sequenceOf_silent]) hlt hgap
  rw [sequenceOf_silent] at hahead
  have hrecord : record start t n
      = t.countAhead (.ofNat n) (Red.packetTime start n) (n - newest) := hahead.2
  refine ⟨hahead.1, hrecord, ?_⟩
  rw [hrecord]
  -- The ring gets one more entry, and all others are now behind a newer packet.
  refine ⟨h.config_eq, rfl, ?_, fun m hm => ?_, h.near_concat n n hgap (by omega),
    h.not_credited, List.mem_append_right _ (List.mem_singleton_self n)⟩
  · rw [List.map_append]
    exact slots_add_written 21 (by omega) _ _ _ h.primaries_eq
  · rcases List.mem_append.mp hm with hold | hnew
    · exact (h.le_newest m hold).trans (le_of_lt hlt)
    · exact le_of_eq (List.mem_singleton.mp hnew)

/-- A packet from not far behind the newest that is not on record is accepted. It takes one
    off the losses, and is written to the ring behind packets newer than itself. -/
theorem OnRecord.late (h : OnRecord start newest noted t) {n : Nat} (hlt : n < newest)
    (hnear : newest ≤ n + 16) (hnew : ¬ Recent 21 noted n) :
    t.accepts (.ofNat n) = true ∧
      record start t n
        = { t with
            counters.lost := t.counters.lost - 1
            primaries := t.primaries.add (Red.packetTime start n) } ∧
      OnRecord start newest (noted ++ [n]) (record start t n) := by
  have hbehind := countPrimary_behind (.silent start) newest n t h.config_eq
    (by rw [h.newest_eq, sequenceOf_silent]) hlt (by omega)
  rw [sequenceOf_silent] at hbehind
  -- Its time is not in the ring, or it would pass for a duplicate.
  have hunseen : t.primaries.contains (Red.packetTime start n) = false :=
    Bool.eq_false_iff.mpr fun hin => hnew ((h.contains_iff (le_of_lt hlt) hnear).mp hin)
  have hrecord := (hbehind.2 hnear).trans (countLate_new t _ hunseen (h.not_credited _))
  refine ⟨hbehind.1.mpr hnear, hrecord, ?_⟩
  change OnRecord start newest (noted ++ [n]) (t.countPrimary _ ((Stream.silent start).time n))
  rw [hrecord]
  refine ⟨h.config_eq, h.newest_eq, ?_, fun m hm => ?_, h.near_concat n newest (by omega) hnear,
    h.not_credited, List.mem_append_left _ h.newest_mem⟩
  · rw [List.map_append]
    exact slots_add_written 21 (by omega) _ _ _ h.primaries_eq
  · rcases List.mem_append.mp hm with hold | hin
    · exact h.le_newest m hold
    · rw [List.mem_singleton.mp hin]
      exact le_of_lt hlt

end Record

/-- The accounts of primaries in any order: `counted` are those that are
    accounted for, and no credits are given. The longer ago one of them came,
    the further it may be behind the newest. -/
structure Reordered (start : UInt32) (first newest : Nat) (counted : List Nat) (t : Tracker) :
    Prop where
  tracked : Tracked (.silent start) counted first newest t
  nodup : counted.Nodup
  within : ∀ n ∈ counted, first ≤ n ∧ n ≤ newest
  near : ∀ count n, Recent (count + 1) counted n → newest ≤ n + 16 + 32767 * count
  not_credited : ∀ time, ¬ Credited t time
  newest_mem : newest ∈ counted

section Step

variable {start : UInt32} {first newest : Nat} {counted : List Nat} {t : Tracker}

/-- As long as every packet that is accounted for is noted, the accounts contain what is
    known of the ring. -/
theorem Reordered.onRecord (h : Reordered start first newest counted t) :
    OnRecord start newest counted t where
  config_eq := h.tracked.config_eq
  newest_eq := by rw [h.tracked.newest_eq, sequenceOf_silent]
  primaries_eq := h.tracked.primaries_eq
  le_newest n hn := (h.within n hn).2
  near := h.near
  not_credited := h.not_credited
  newest_mem := h.newest_mem

/-- One more packet that is accounted for, ahead or late. What the step has to show is that
    the two counters keep their sums. -/
theorem Reordered.concat (h : Reordered start first newest counted t) {n newest' : Nat}
    {t' : Tracker} (hn : n ∉ counted) (hfirst : first ≤ n)
    (hrecord : OnRecord start newest' (counted ++ [n]) t')
    (hexpected : t'.counters.expected + first = newest' + 1)
    (hlost : t'.counters.lost + (counted ++ [n]).length + first = newest' + 1) :
    Reordered start first newest' (counted ++ [n]) t' where
  tracked := ⟨hrecord.config_eq, by rw [hrecord.newest_eq, sequenceOf_silent],
    hrecord.primaries_eq, hexpected, hlost⟩
  nodup := nodup_concat h.nodup hn
  within m hm := by
    refine ⟨?_, hrecord.le_newest m hm⟩
    rcases List.mem_append.mp hm with hold | hnew
    · exact (h.within m hold).1
    · rw [List.mem_singleton.mp hnew]
      exact hfirst
  near := hrecord.near
  not_credited := hrecord.not_credited
  newest_mem := hrecord.newest_mem

/-- While a packet between the first and the newest is not accounted for, there
    is a loss. -/
theorem Reordered.lost_pos (h : Reordered start first newest counted t) {n : Nat}
    (hn : n ∉ counted) (hfirst : first ≤ n) (hlt : n < newest) : 0 < t.counters.lost := by
  -- Otherwise there would be more packets than places between the two.
  have hlength := Red.length_le_of_within (n :: counted) first (newest + 1 - first)
    (List.nodup_cons.mpr ⟨hn, h.nodup⟩) fun m hm => by
      rcases List.mem_cons.mp hm with rfl | hin
      · omega
      · have hm' := h.within m hin
        omega
  -- The sum that the losses keep leaves room for at least one.
  have hlost := h.tracked.lost_eq
  rw [List.length_cons] at hlength
  omega

/-- The first packet starts the accounts: it is expected, and nothing is lost. It is also
    the only one that is on record. -/
theorem reordered_first (start : UInt32) (first : Nat) :
    Reordered start first first [first] (record start (.ofConfig {}) first) := by
  have htracked := (countPrimary_first (.silent start) first).2
  rw [sequenceOf_silent] at htracked
  refine ⟨htracked, List.nodup_singleton first, fun n hn => ?_, fun count n hn => ?_,
    not_credited_ofConfig, List.mem_singleton_self first⟩
  · rw [List.mem_singleton.mp hn]
    exact ⟨le_refl first, le_refl first⟩
  · rw [List.mem_singleton.mp hn.mem]
    omega

/-- A packet that is ahead of the newest keeps the accounts. The packets in between are
    counted as lost. -/
theorem Reordered.ahead (h : Reordered start first newest counted t) {n : Nat}
    (hlt : newest < n) (hgap : n ≤ newest + 32767) (hfirst : first ≤ n) :
    t.accepts (.ofNat n) = true ∧
      Reordered start first n (counted ++ [n]) (record start t n) := by
  rcases h.onRecord.ahead hlt hgap with ⟨hyes, heq, hrecord⟩
  -- It is ahead of all that were counted, so it is none of them.
  have hnew : n ∉ counted := fun hin => absurd (h.within n hin).2 (Nat.not_le.mpr hlt)
  have hexpected := h.tracked.expected_eq
  have hlost := h.tracked.lost_eq
  refine ⟨hyes, h.concat hnew hfirst hrecord ?_ ?_⟩
  · rw [heq]
    change t.counters.expected + (n - newest) + first = n + 1
    omega
  · rw [heq, List.length_append, List.length_singleton]
    change t.counters.lost + (n - newest - 1) + _ + first = n + 1
    omega

/-- A packet from not far behind the newest keeps the accounts. There is a loss to take off
    for it, because it was counted as lost when a newer one came. -/
theorem Reordered.late (h : Reordered start first newest counted t) {n : Nat}
    (hn : n ∉ counted) (hlt : n < newest) (hnear : newest ≤ n + 16) (hfirst : first ≤ n) :
    t.accepts (.ofNat n) = true ∧
      Reordered start first newest (counted ++ [n]) (record start t n) := by
  rcases h.onRecord.late hlt hnear (fun hrecent => hn hrecent.mem) with ⟨hyes, heq, hrecord⟩
  have hlost_pos := h.lost_pos hn hfirst hlt
  have hlost := h.tracked.lost_eq
  refine ⟨hyes, h.concat hn hfirst hrecord ?_ ?_⟩
  · rw [heq]
    exact h.tracked.expected_eq
  · rw [heq, List.length_append, List.length_singleton]
    change t.counters.lost - 1 + _ + first = newest + 1
    omega

/-- A packet is accounted for, unless it is too far behind. In the first case it has been
    accepted, and in the second one it has been refused and changed nothing. -/
theorem Reordered.call (h : Reordered start first newest counted t) {n : Nat}
    (hn : n ∉ counted) (hfirst : first ≤ n) (hbehind : newest < n + 32768)
    (hahead : n ≤ newest + 32767) :
    (newest ≤ n + 16 ∧ t.accepts (.ofNat n) = true ∧
        Reordered start first (max newest n) (counted ++ [n]) (record start t n)) ∨
      n + 16 < newest ∧ t.accepts (.ofNat n) = false ∧ record start t n = t ∧
        max newest n = newest := by
  -- The packet is behind the newest, is that one, or is ahead of it.
  rcases lt_trichotomy n newest with hlt | rfl | hlt
  · rw [max_eq_left (le_of_lt hlt)]
    by_cases hnear : newest ≤ n + 16
    · exact Or.inl ⟨hnear, h.late hn hlt hnear hfirst⟩
    · have hfar := Nat.not_le.mp hnear
      have hno := h.onRecord.refused hfar hbehind
      exact Or.inr ⟨hfar, hno.1, hno.2, rfl⟩
  · -- The newest has been counted, and no packet comes twice.
    exact absurd h.newest_mem hn
  · rw [max_eq_right (le_of_lt hlt)]
    exact Or.inl ⟨by omega, h.ahead hlt hahead hfirst⟩

end Step

/-- Where the tracker stands after packets that it can place. The packets that are accounted
    for are as many as it has said so of, which is how the answers of all calls come into
    the sum. -/
theorem reordered_recordAll (start : UInt32) (first : Nat) {arrivals : List Nat}
    (h : Placeable first arrivals) :
    ∃ counted, Reordered start first (newestOf arrivals) counted (recordAll start arrivals) ∧
      (∀ n ∈ counted, n ∈ arrivals) ∧
      (answers start (.ofConfig {}) arrivals).count true = counted.length := by
  induction h with
  | first =>
      have hnewest : newestOf [first] = first := Nat.zero_max first
      rw [hnewest]
      exact ⟨[first], reordered_first start first, fun _ hn => hn, rfl⟩
  | next before n hbefore hnew hfirst hbehind hahead ih =>
      rcases ih with ⟨counted, hreordered, hsub, hcount⟩
      have hn : n ∉ counted := fun hin => hnew (hsub n hin)
      have hsub' : ∀ m ∈ counted ++ [n], m ∈ before ++ [n] := by
        intro m hm
        rw [List.mem_append] at hm ⊢
        exact hm.imp (hsub m) id
      have hcount' : (answers start (.ofConfig {}) (before ++ [n])).count true
          = counted.length + [(recordAll start before).accepts (.ofNat n)].count true := by
        rw [answers_concat, List.count_append, hcount]
        rfl
      rw [recordAll_concat, newestOf_concat, hcount']
      -- The packet is ahead of the newest, not far behind it, or too far.
      rcases hreordered.call hn hfirst hbehind hahead with
        ⟨_, hyes, hnext⟩ | ⟨_, hno, hsame, hnewest⟩
      · rw [hyes]
        refine ⟨counted ++ [n], hnext, hsub', ?_⟩
        rw [List.length_append]
        rfl
      · rw [hno, hsame, hnewest]
        exact ⟨counted, hreordered, fun m hm => List.mem_append_left _ (hsub m hm), rfl⟩

/-- On packets that a tracker can place, in any order, it refuses exactly those
    that are more than sixteen behind the newest, and they change nothing. After
    each packet the counts are exact. Where one is taken off the losses there is
    one, and no recovery is ever taken off. -/
theorem losses_exact (start : UInt32) (first : Nat) (arrivals : List Nat)
    (h : Placeable first arrivals) (before after : List Nat) (n : Nat)
    (hsplit : arrivals = before ++ n :: after) :
    ((recordAll start before).accepts (.ofNat n) = false ↔ n + 16 < newestOf before) ∧
      ((recordAll start before).accepts (.ofNat n) = false →
        recordAll start (before ++ [n]) = recordAll start before) ∧
      (recordAll start (before ++ [n])).counters.expected + first
        = newestOf (before ++ [n]) + 1 ∧
      (recordAll start (before ++ [n])).counters.lost
          + (answers start (.ofConfig {}) (before ++ [n])).count true
        = (recordAll start (before ++ [n])).counters.expected ∧
      ((recordAll start before).accepts (.ofNat n) = true → n < newestOf before →
        (recordAll start (before ++ [n])).counters.lost + 1
          = (recordAll start before).counters.lost) ∧
      ∀ time, ¬ Credited (recordAll start before) time := by
  have hplace : Placeable first (before ++ [n]) := (hsplit ▸ h).of_append
  rcases reordered_recordAll start first hplace with ⟨counted', hafter, _, hcount⟩
  have hexpected := hafter.tracked.expected_eq
  have hlost := hafter.tracked.lost_eq
  -- That the sums hold behind the packet needs no look at the packet itself.
  have hexact : (recordAll start (before ++ [n])).counters.lost
        + (answers start (.ofConfig {}) (before ++ [n])).count true
      = (recordAll start (before ++ [n])).counters.expected := by omega
  -- The first packet has no newest before it; any other one is a call.
  rcases hplace.last with ⟨rfl, rfl⟩ | ⟨hbefore, hnew, hfirst, hbehind, hahead⟩
  · have hyes : (recordAll start []).accepts (.ofNat n) = true := rfl
    rw [hyes]
    exact ⟨iff_of_false Bool.true_eq_false.mp (Nat.not_lt_zero _),
      fun hno => (Bool.true_eq_false.mp hno).elim, hexpected, hexact,
      fun _ hlt => absurd hlt (Nat.not_lt_zero _), not_credited_ofConfig⟩
  rcases reordered_recordAll start first hbefore with ⟨counted, hreordered, hsub, _⟩
  have hn : n ∉ counted := fun hin => hnew (hsub n hin)
  have hlost' := hreordered.tracked.lost_eq
  have hconcat := recordAll_concat start before n
  -- Either the packet is accounted for, or it is refused.
  rcases hreordered.call hn hfirst hbehind hahead with
    ⟨hnear, hyes, hnext⟩ | ⟨hfar, hno, hsame, _⟩
  · refine ⟨iff_of_false (by rw [hyes]; exact Bool.true_eq_false.mp) (by omega),
      fun hno => ?_, hexpected, hexact, fun _ hlt => ?_, hreordered.not_credited⟩
    · rw [hyes] at hno
      cases hno
    · have hnext_lost := hnext.tracked.lost_eq
      rw [← hconcat, max_eq_left (le_of_lt hlt), List.length_append, List.length_singleton]
        at hnext_lost
      omega
  · rw [hno]
    exact ⟨iff_of_true rfl hfar, fun _ => hconcat.trans hsame, hexpected, hexact,
      fun hyes => (Bool.false_eq_true.mp hyes).elim, hreordered.not_credited⟩

/-- Four packets around the end of the range of sequence numbers, where media time wraps as
    well. One of them is too far behind, and one is late. The counters go on as if neither
    had wrapped. -/
theorem losses_exact_lap :
    (recordAll 4232058496 [65520, 65540]).accepts (.ofNat 65522) = false ∧
      (recordAll 4232058496 [65520, 65540, 65522, 65530]).counters.expected = 21 ∧
      (recordAll 4232058496 [65520, 65540, 65522, 65530]).counters.lost = 18 := by
  have hplace : Placeable 65520 [65520, 65540, 65522, 65530] :=
    .next [65520, 65540, 65522] 65530
      (.next [65520, 65540] 65522
        (.next [65520] 65540 .first (by decide) (by decide) (by decide) (by decide))
        (by decide) (by decide) (by decide) (by decide))
      (by decide) (by decide) (by decide) (by decide)
  have hfar := losses_exact 4232058496 65520 _ hplace [65520, 65540] [65530] 65522 rfl
  have hlate := losses_exact 4232058496 65520 _ hplace [65520, 65540, 65522] [] 65530 rfl
  have hanswers : (answers 4232058496 (.ofConfig {}) [65520, 65540, 65522, 65530]).count true = 3 :=
    by decide
  have hexpected : (recordAll 4232058496 [65520, 65540, 65522, 65530]).counters.expected + 65520
      = 65540 + 1 := hlate.2.2.1
  have hexact := hlate.2.2.2.1
  rw [List.cons_append, List.cons_append, List.cons_append, List.nil_append, hanswers] at hexact
  refine ⟨hfar.1.mpr (by decide), ?_⟩
  generalize (recordAll 4232058496 [65520, 65540, 65522, 65530]).counters = counters at *
  have heq : counters.expected = 21 := Nat.add_right_cancel hexpected
  exact ⟨heq, Nat.add_right_cancel (hexact.trans heq)⟩

end Loss

end RedundantAudio
