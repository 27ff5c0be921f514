import Mathlib.Data.List.Infix
import RedundantAudio.Proofs.Loss.Reordering

/-!
# What the Ring of Primaries Is Given

A tracker writes a primary to its ring if it accounts for it and does not find
it there. When packets come in any order and more than once, what it writes can
be said without the tracker: `entries` is a fold over the numbers of the packets
that came, and remembers no times and no sequence numbers.

The same packet may be written again, but not soon. Any stretch of entries that
is short enough to be on the ring together has no packet twice, and that is how
long an entry lasts: whatever pushes it out is twenty-one different packets, all
of them from around the newest.

The losses are counted down for every late packet that is written, also for one
that was never counted as lost. The count stops at zero, and what it should have
gone below is gone for good. `overdraft` is how much that is.

## Main definitions

* `Followable`: Packets that a tracker can place, in any order and number.
* `entries`: What is written to the ring.
* `Spaced`: No packet comes twice in a short stretch.
* `overdraft`: The losses that could not be taken off.
* `Entered`: The accounts of primaries that may come more than once.

## Theorems

* `spaced_entries`, `pairwise_entries`: The order of the entries.
* `recent_of_spaced`: How long an entry is recent.
* `OnRecord.call`: What becomes of a packet.
* `entered_recordAll`: A run.
-/

namespace RedundantAudio

namespace Loss

/-- Packets that a tracker can place: each is within half the range of sequence
    numbers around the newest that came before it. They may come in any order,
    and more than once. -/
inductive Followable : List Nat → Prop
  | first (n : Nat) : Followable [n]
  | next (before : List Nat) (n : Nat) (hbefore : Followable before)
      (hbehind : newestOf before < n + 32768) (hahead : n ≤ newestOf before + 32767) :
      Followable (before ++ [n])

/-- What can be said of the packet that came last: it is the only one, or it can be placed
    behind those before it. Induction on packets goes from the back here, since the newest
    so far is what a packet is placed by. -/
theorem Followable.last {before : List Nat} {n : Nat} (h : Followable (before ++ [n])) :
    before = [] ∨
      Followable before ∧ newestOf before < n + 32768 ∧ n ≤ newestOf before + 32767 := by
  generalize hall : before ++ [n] = all at h
  cases h with
  | first m =>
      rcases List.append_eq_singleton_iff.mp hall with ⟨hnil, _⟩ | ⟨_, hlast⟩
      · exact Or.inl hnil
      · cases hlast
  | next before' n' hbefore hbehind hahead =>
      rcases List.append_inj' hall rfl with ⟨rfl, hlast⟩
      rw [List.singleton_inj.mp hlast]
      exact Or.inr ⟨hbefore, hbehind, hahead⟩

/-- Packets that can be placed can be placed as far as any one of them. -/
theorem Followable.of_append {before : List Nat} {n : Nat} (after : List Nat) :
    Followable (before ++ n :: after) → Followable (before ++ [n]) := by
  induction after using List.reverseRecOn with
  | nil => exact id
  | append_singleton after m ih =>
      intro h
      rw [← List.cons_append, ← List.append_assoc] at h
      rcases h.last with hnil | ⟨hbefore, _⟩
      · cases (List.append_eq_nil_iff.mp hnil).2
      · exact ih hbefore

theorem Followable.exists_head {arrivals : List Nat} (h : Followable arrivals) :
    ∃ first, arrivals.head? = some first := by
  cases h with
  | first n => exact ⟨n, rfl⟩
  | next before n => exact Option.isSome_iff_exists.mp (List.isSome_head?.mpr (by simp))

/-- No packet is ahead of the newest. -/
theorem le_newestOf (arrivals : List Nat) : ∀ n ∈ arrivals, n ≤ newestOf arrivals := by
  induction arrivals using List.reverseRecOn with
  | nil =>
      intro n hn
      exact absurd hn List.not_mem_nil
  | append_singleton arrivals m ih =>
      intro n hn
      rw [newestOf_concat]
      rcases List.mem_append.mp hn with hold | hnew
      · exact (ih n hold).trans (le_max_left _ _)
      · rw [List.mem_singleton.mp hnew]
        exact le_max_right _ _

/-- What no packet is ahead of, the newest is not ahead of either. -/
theorem newestOf_le {arrivals : List Nat} {bound : Nat} (h : ∀ n ∈ arrivals, n ≤ bound) :
    newestOf arrivals ≤ bound := by
  induction arrivals using List.reverseRecOn with
  | nil => exact Nat.zero_le bound
  | append_singleton arrivals m ih =>
      rw [newestOf_concat]
      -- The newest of all is the newest of the others or the last one.
      exact max_le (ih fun n hn => h n (List.mem_append_left _ hn))
        (h m (List.mem_append_right _ (List.mem_singleton_self m)))

/-- Packets from within half a range of sequence numbers come in any order. No two of them
    are further apart than a tracker can tell, so there is nothing that depends on which
    came first. -/
theorem followable_of_le {arrivals : List Nat} (hne : arrivals ≠ [])
    (h : ∀ n ∈ arrivals, n ≤ 32767) : Followable arrivals := by
  induction arrivals using List.reverseRecOn with
  | nil => exact absurd rfl hne
  | append_singleton arrivals n ih =>
      have hold : ∀ m ∈ arrivals, m ≤ 32767 := fun m hm => h m (List.mem_append_left _ hm)
      have hn := h n (List.mem_append_right _ (List.mem_singleton_self n))
      rcases eq_or_ne arrivals [] with rfl | hne'
      · exact Followable.first n
      · have hnewest := newestOf_le hold
        exact Followable.next arrivals n (ih hne' hold) (by omega) (by omega)

instance (count : Nat) (l : List Nat) (n : Nat) : Decidable (Recent count l n) :=
  decidable_of_iff _ (recent_iff count l n).symm

/-- One more packet is written, unless it is too far behind or was written
    lately. -/
def enter (noted : List Nat) (n : Nat) : List Nat :=
  if newestOf noted ≤ n + 16 ∧ ¬ Recent 21 noted n then noted ++ [n] else noted

/-- What is written to the ring of primaries, the latest last. -/
def entries (arrivals : List Nat) : List Nat :=
  arrivals.foldl enter []

theorem entries_concat (arrivals : List Nat) (n : Nat) :
    entries (arrivals ++ [n]) = enter (entries arrivals) n :=
  List.foldl_concat _ _ _ _

/-- Nothing that was written is ever taken back, so what was written before is a beginning
    of what is written later. -/
theorem prefix_enter (noted : List Nat) (n : Nat) : noted <+: enter noted n := by
  rw [enter]
  split
  · exact List.prefix_append noted [n]
  · exact List.prefix_refl noted

theorem prefix_entries (before after : List Nat) :
    entries before <+: entries (before ++ after) := by
  induction after using List.reverseRecOn with
  | nil => rw [List.append_nil]
  | append_singleton after n ih =>
      rw [← List.append_assoc, entries_concat]
      exact ih.trans (prefix_enter _ n)

theorem mem_enter {noted : List Nat} {n : Nat} (h : newestOf noted ≤ n + 16) :
    n ∈ enter noted n := by
  by_cases hrecent : Recent 21 noted n
  · exact (prefix_enter noted n).subset hrecent.mem
  · rw [enter, if_pos ⟨h, hrecent⟩]
    exact List.mem_append_right _ (List.mem_singleton_self n)

/-- What is not written is never the newest, so it does not matter whether the newest is
    looked for among all packets or among those on the ring. -/
theorem newestOf_entries (arrivals : List Nat) :
    newestOf (entries arrivals) = newestOf arrivals := by
  induction arrivals using List.reverseRecOn with
  | nil => rfl
  | append_singleton arrivals n ih =>
      rw [entries_concat, enter, newestOf_concat, ← ih]
      split
      case isTrue => exact newestOf_concat _ n
      case isFalse h =>
        -- A packet that is left out is behind: it is too far behind, or on the ring
        -- already.
        refine (max_eq_left ?_).symm
        rcases not_and_or.mp h with hfar | hrecent
        · omega
        · exact le_newestOf _ n (not_not.mp hrecent).mem

/-- Only packets that came are written, in their order. In particular nothing is written
    that did not come. -/
theorem sublist_entries (arrivals : List Nat) : (entries arrivals).Sublist arrivals := by
  induction arrivals using List.reverseRecOn with
  | nil => exact List.Sublist.refl []
  | append_singleton arrivals n ih =>
      rw [entries_concat, enter]
      -- The last packet is written or left out.
      split
      · exact ih.append (List.Sublist.refl [n])
      · exact ih.trans (List.sublist_append_left arrivals [n])

/-- Nothing is written that is far behind what was written before. Entries are not in order,
    but they are nearly so, and this is all that is asked of their order from here on. -/
theorem pairwise_entries (arrivals : List Nat) :
    (entries arrivals).Pairwise fun a b => a ≤ b + 16 := by
  induction arrivals using List.reverseRecOn with
  | nil => exact List.Pairwise.nil
  | append_singleton arrivals n ih =>
      rw [entries_concat, enter]
      split
      case isTrue h =>
        refine List.pairwise_append.mpr ⟨ih, List.pairwise_singleton _ n, fun a ha b hb => ?_⟩
        rw [List.mem_singleton.mp hb]
        exact (le_newestOf _ a ha).trans h.1
      case isFalse => exact ih

/-- No packet comes twice within so many others. -/
def Spaced (count : Nat) (l : List Nat) : Prop :=
  ∀ stretch, stretch <:+: l → stretch.length ≤ count + 1 → stretch.Nodup

/-- An entry that is not among the last ones can be added. Only stretches that end with it
    are new, and what is in front of it in such a stretch is among the last ones. -/
theorem Spaced.concat {count : Nat} {l : List Nat} {n : Nat} (h : Spaced count l)
    (hn : ¬ Recent count l n) : Spaced count (l ++ [n]) := by
  intro stretch hinfix hlength
  rcases List.infix_concat_iff.mp hinfix with hsuffix | hold
  · rcases List.suffix_concat_iff.mp hsuffix with rfl | ⟨rest, rfl, hrest⟩
    · exact List.nodup_nil
    · -- The stretch ends with the new entry, which is not in the rest of it.
      rw [List.length_append, List.length_singleton] at hlength
      refine nodup_concat (h rest hrest.isInfix (by omega)) fun hin => hn ?_
      rcases hrest with ⟨earlier, rfl⟩
      rcases List.append_of_mem hin with ⟨before, after, rfl⟩
      rw [List.length_append, List.length_cons] at hlength
      exact ⟨earlier ++ before, after, (List.append_assoc _ _ _).symm, by omega⟩
  · exact h stretch hold hlength

/-- What is on the ring at one time has no packet twice, and neither has that with the entry
    that it pushed out. An entry is looked up before it is written, so this is kept by the
    very question that the tracker asks. -/
theorem spaced_entries (arrivals : List Nat) : Spaced 21 (entries arrivals) := by
  induction arrivals using List.reverseRecOn with
  | nil =>
      intro stretch hinfix _
      rw [List.infix_nil.mp hinfix]
      exact List.nodup_nil
  | append_singleton arrivals n ih =>
      rw [entries_concat, enter]
      split
      case isTrue h => exact ih.concat h.2
      case isFalse => exact ih

/-- An entry that is recent no more has been followed by others, no two of them equal. These
    are what counts: there are as many as the ring has slots, and so many different packets
    take up room among the sequence numbers. -/
theorem Spaced.pushed {count : Nat} {l : List Nat} {n : Nat} (h : Spaced count l) (hn : n ∈ l)
    (hold : ¬ Recent count l n) :
    ∃ earlier others rest, l = earlier ++ n :: (others ++ rest) ∧ others.length = count ∧
      (n :: others).Nodup := by
  rcases List.append_of_mem hn with ⟨earlier, later, rfl⟩
  have hlength : (later.take count).length = count := by
    rw [List.length_take]
    exact min_eq_left (Nat.not_lt.mp fun hlt => hold ⟨earlier, later, rfl, hlt⟩)
  have heq : earlier ++ n :: later
      = earlier ++ n :: (later.take count ++ later.drop count) := by
    rw [List.take_append_drop]
  -- The entry and those behind it make a stretch that is just short enough.
  refine ⟨earlier, later.take count, later.drop count, heq, hlength, h _ ?_ ?_⟩
  · exact ⟨earlier, later.drop count, by rw [heq, List.append_assoc, List.cons_append]⟩
  · rw [List.length_cons, hlength]

/-- An entry is recent while all others come soon enough behind it, also if there are some
    that come again. Entries may be out of order by `spread`. The argument is a count: what
    has pushed the entry out is different packets from between it and the bound, and there
    are not that many. -/
theorem recent_of_spaced (count spread bound : Nat) (l : List Nat) (n : Nat)
    (hspaced : Spaced count l) (horder : l.Pairwise fun a b => a ≤ b + spread)
    (hbound : ∀ m ∈ l, m < bound) (hmem : n ∈ l) (hcount : bound + spread ≤ n + count) :
    Recent count l n := by
  by_contra hold
  rcases hspaced.pushed hmem hold with ⟨earlier, others, rest, rfl, hlength, hnodup⟩
  have hbehind := (List.pairwise_cons.mp (List.pairwise_append.mp horder).2.1).1
  -- There is no room for that many of them.
  have hle := Red.length_le_of_within (n :: others) (n - spread) count hnodup fun m hm => by
    rcases List.mem_cons.mp hm with rfl | hother
    · have hlt := hbound m (List.mem_append_right _ List.mem_cons_self)
      omega
    · have hin : m ∈ others ++ rest := List.mem_append_left _ hother
      have hlt := hbound m (List.mem_append_right _ (List.mem_cons_of_mem n hin))
      have hspread := hbehind m hin
      omega
  rw [List.length_cons] at hle
  omega

/-- How many more packets were written at any time than there are from the
    first one to the newest. -/
def overdraft (first : Nat) (noted : List Nat) : Nat :=
  (noted.inits.map fun before => before.length - (newestOf before + 1 - first)).foldl max 0

theorem overdraft_nil (first : Nat) : overdraft first [] = 0 :=
  Nat.max_eq_left (Nat.zero_sub _).le

/-- One more packet overdraws if there are then more packets than there is room for, and if
    that is more than was ever overdrawn before. What was once overdrawn stays so. -/
theorem overdraft_concat (first : Nat) (noted : List Nat) (n : Nat) :
    overdraft first (noted ++ [n])
      = max (overdraft first noted) (noted.length + 1 - (max (newestOf noted) n + 1 - first)) := by
  have hinits : (noted ++ [n]).inits = noted.inits ++ [noted ++ [n]] := List.inits_append noted [n]
  rw [overdraft, hinits, List.map_append, List.map_singleton, List.foldl_concat, newestOf_concat,
    List.length_append, List.length_singleton]
  rfl

section Step

variable {start : UInt32} {newest : Nat} {noted : List Nat} {t : Tracker}

/-- A packet that is still on record. It is accepted, and nothing becomes of it: behind the
    newest it is found on the ring, and the newest itself is known by its number. -/
theorem OnRecord.again (h : OnRecord start newest noted t) {n : Nat} (hnear : newest ≤ n + 16)
    (hrecent : Recent 21 noted n) : t.accepts (.ofNat n) = true ∧ record start t n = t := by
  have hle := h.le_newest n hrecent.mem
  rcases Nat.lt_or_eq_of_le hle with hlt | rfl
  · have hbehind := countPrimary_behind (.silent start) newest n t h.config_eq
      (by rw [h.newest_eq, sequenceOf_silent]) hlt (by omega)
    rw [sequenceOf_silent] at hbehind
    refine ⟨hbehind.1.mpr hnear, (hbehind.2 hnear).trans ?_⟩
    rw [Tracker.countLate]
    exact if_pos ((h.contains_iff hle hnear).mpr hrecent)
  · -- The newest itself is not even looked up.
    have hdistance := (Stream.silent start).sequenceDistance_ahead n n (le_refl n) (by omega)
    rw [sequenceOf_silent, Nat.sub_self] at hdistance
    have hlimit : t.config.maxOutOfOrderDistance.toNat = 16 := by
      rw [h.config_eq]
      rfl
    have hyes : t.accepts (.ofNat n) = true := by
      simp only [Tracker.accepts, Tracker.tooFarBehind, h.newest_eq, hdistance, hlimit]
      rfl
    refine ⟨hyes, ?_⟩
    simp only [record, Tracker.countPrimary, h.newest_eq, hyes, hdistance]
    rfl

/-- What becomes of a packet: it is too far behind, on record already, ahead of the newest,
    or late. Everything that is known of a tracker that is given packets in any order is
    read off these four cases, so each of them says in full what the tracker is afterwards. -/
theorem OnRecord.call (h : OnRecord start newest noted t) (hspaced : Spaced 21 noted)
    (horder : noted.Pairwise fun a b => a ≤ b + 16) {n : Nat} (hbehind : newest < n + 32768)
    (hahead : n ≤ newest + 32767) :
    (n + 16 < newest ∧ t.accepts (.ofNat n) = false ∧ record start t n = t) ∨
      (newest ≤ n + 16 ∧ Recent 21 noted n ∧ t.accepts (.ofNat n) = true ∧
        record start t n = t) ∨
      (newest < n ∧ ¬ Recent 21 noted n ∧ t.accepts (.ofNat n) = true ∧
        record start t n = t.countAhead (.ofNat n) (Red.packetTime start n) (n - newest) ∧
        OnRecord start n (noted ++ [n]) (record start t n)) ∨
      n < newest ∧ newest ≤ n + 16 ∧ ¬ Recent 21 noted n ∧ t.accepts (.ofNat n) = true ∧
        record start t n
          = { t with
              counters.lost := t.counters.lost - 1
              primaries := t.primaries.add (Red.packetTime start n) } ∧
        OnRecord start newest (noted ++ [n]) (record start t n) := by
  by_cases hfar : n + 16 < newest
  · exact Or.inl ⟨hfar, h.refused hfar hbehind⟩
  have hnear := Nat.not_lt.mp hfar
  by_cases hrecent : Recent 21 noted n
  · exact Or.inr (Or.inl ⟨hnear, hrecent, h.again hnear hrecent⟩)
  -- What is not on record lies on one side of the newest.
  rcases lt_trichotomy n newest with hlt | rfl | hlt
  · exact Or.inr (Or.inr (Or.inr ⟨hlt, hnear, hrecent, h.late hlt hnear hrecent⟩))
  · -- The newest is always on record.
    exact absurd (recent_of_spaced 21 16 (n + 1) noted n hspaced horder
      (fun m hm => Nat.lt_succ_of_le (h.le_newest m hm)) h.newest_mem (by omega)) hrecent
  · exact Or.inr (Or.inr (Or.inl ⟨hlt, hrecent, h.ahead hlt hahead⟩))

end Step

/-- The accounts of primaries in any order, of which some may come again. -/
structure Entered (start : UInt32) (first : Nat) (arrivals : List Nat) (t : Tracker) : Prop where
  onRecord : OnRecord start (newestOf arrivals) (entries arrivals) t
  first_le : first ≤ newestOf arrivals
  expected_eq : t.counters.expected + first = newestOf arrivals + 1
  lost_eq : t.counters.lost + (entries arrivals).length
    = t.counters.expected + overdraft first (entries arrivals)

/-- The first packet is written, and there is nothing yet that could be lost. So there is no
    overdraft either, and both sums begin in balance. -/
theorem entered_first (start : UInt32) (first : Nat) :
    Entered start first [first] (record start (.ofConfig {}) first) := by
  have hrecord := (reordered_first start first).onRecord
  have hnewest : newestOf [first] = first := Nat.zero_max first
  have hover : overdraft first [first] = 0 := by
    have hconcat := overdraft_concat first [] first
    rw [List.nil_append, overdraft_nil, newestOf, List.foldl_nil, List.length_nil] at hconcat
    omega
  refine ⟨hnewest.symm ▸ hrecord, le_of_eq hnewest.symm, ?_, ?_⟩
  · rw [hnewest]
    exact Nat.add_comm 1 first
  · change 0 + 1 = 1 + overdraft first [first]
    rw [hover]

section Next

variable {start : UInt32} {first n : Nat} {arrivals : List Nat} {t t' : Tracker}

/-- A packet that is not written changes no account. It cannot be the newest, for the newest
    is always written. -/
theorem Entered.skip (h : Entered start first arrivals t) (hle : n ≤ newestOf arrivals)
    (hskip : entries (arrivals ++ [n]) = entries arrivals) :
    Entered start first (arrivals ++ [n]) t := by
  have hnewest : newestOf (arrivals ++ [n]) = newestOf arrivals := by
    rw [newestOf_concat, max_eq_left hle]
  constructor
  · rw [hnewest, hskip]
    exact h.onRecord
  · rw [hnewest]
    exact h.first_le
  · rw [hnewest]
    exact h.expected_eq
  · rw [hskip]
    exact h.lost_eq

/-- A packet that is written. Both cases in which one is are put in the same terms, those of
    the counters before and after, so that the accounts have to be balanced only once. -/
theorem Entered.write (h : Entered start first arrivals t)
    (hnear : newestOf arrivals ≤ n + 16) (hnew : ¬ Recent 21 (entries arrivals) n)
    (hrecord : OnRecord start (max (newestOf arrivals) n) (entries arrivals ++ [n]) t')
    (hexpected : t'.counters.expected + newestOf arrivals
      = t.counters.expected + max (newestOf arrivals) n)
    (hlost : t'.counters.lost = t.counters.lost + (n - newestOf arrivals) - 1) :
    Entered start first (arrivals ++ [n]) t' := by
  have hentries : entries (arrivals ++ [n]) = entries arrivals ++ [n] := by
    rw [entries_concat, enter, newestOf_entries, if_pos ⟨hnear, hnew⟩]
  have hexpected' := h.expected_eq
  have hfirst := h.first_le
  have hlost' := h.lost_eq
  constructor
  · rw [newestOf_concat, hentries]
    exact hrecord
  · rw [newestOf_concat]
    exact le_trans hfirst (le_max_left _ _)
  · rw [newestOf_concat]
    omega
  · -- Where there is no loss left to take off, the overdraft grows by one instead.
    rw [hentries, overdraft_concat, newestOf_entries, List.length_append, List.length_singleton]
    omega

/-- One more packet keeps the accounts, whatever becomes of it. The ring alone decides which
    of the four cases applies, so a packet that has left it is written and taken off the
    losses again. -/
theorem Entered.next (h : Entered start first arrivals t)
    (hbehind : newestOf arrivals < n + 32768) (hahead : n ≤ newestOf arrivals + 32767) :
    Entered start first (arrivals ++ [n]) (record start t n) := by
  -- Too far behind, on record, ahead of the newest, or late.
  rcases h.onRecord.call (spaced_entries arrivals) (pairwise_entries arrivals) hbehind hahead with
    ⟨hfar, _, hsame⟩ | ⟨_, hrecent, _, hsame⟩ | ⟨hlt, hnew, _, heq, hrecord⟩ |
      ⟨hlt, hnear, hnew, _, heq, hrecord⟩
  · rw [hsame]
    refine h.skip (by omega) ?_
    rw [entries_concat, enter, newestOf_entries, if_neg fun hboth => absurd hboth.1 (by omega)]
  · rw [hsame]
    refine h.skip (h.onRecord.le_newest n hrecent.mem) ?_
    rw [entries_concat, enter, if_neg fun hboth => hboth.2 hrecent]
  · -- Ahead of the newest, what lies between becomes lost and the packet itself does not.
    have hmax := max_eq_right (le_of_lt hlt)
    refine h.write (by omega) hnew (by rw [hmax]; exact hrecord) ?_ ?_
    · rw [heq, hmax]
      change t.counters.expected + (n - newestOf arrivals) + newestOf arrivals = _
      omega
    · rw [heq]
      change t.counters.lost + (n - newestOf arrivals - 1) = _
      omega
  · -- A late packet takes off one loss, if there is one.
    have hmax := max_eq_left (le_of_lt hlt)
    refine h.write hnear hnew (by rw [hmax]; exact hrecord) ?_ ?_
    · rw [heq, hmax]
    · rw [heq, Nat.sub_eq_zero_of_le (le_of_lt hlt)]
      rfl

end Next

/-- Where the tracker stands after packets that it can place, of which some may come again.
    The induction is on the packets from the back, and the first of all stays what it was. -/
theorem entered_recordAll (start : UInt32) {arrivals : List Nat} {first : Nat}
    (h : Followable arrivals) (hhead : arrivals.head? = some first) :
    Entered start first arrivals (recordAll start arrivals) := by
  induction h with
  | first n =>
      obtain rfl : n = first := Option.some.inj hhead
      exact entered_first start n
  | next before n hbefore hbehind hahead ih =>
      rcases hbefore.exists_head with ⟨first', hfirst'⟩
      rw [List.head?_append, hfirst', Option.some_or, Option.some.injEq] at hhead
      rw [recordAll_concat]
      exact (ih (hhead ▸ hfirst')).next hbehind hahead

theorem onRecord_recordAll (start : UInt32) {arrivals : List Nat} (h : Followable arrivals) :
    OnRecord start (newestOf arrivals) (entries arrivals) (recordAll start arrivals) := by
  rcases h.exists_head with ⟨first, hfirst⟩
  exact (entered_recordAll start h hfirst).onRecord

end Loss

end RedundantAudio
