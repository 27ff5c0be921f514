import RedundantAudio.Proofs.Loss.Stream

/-!
# Who Was Credited

A tracker keeps two numbers and two rings about the packets that were made
good. Behind them stand two lists that it does not keep: the packets that were
credited as repeated, and those that were credited as corrected, each in the
order of the credits. `Ledger` ties the tracker to these lists, and says of
them what is wanted: a lost packet is on the first list as soon as a block
has asked for it, and on the second only if correction data has.

All of it rests on what the rings still know when a packet asks. A packet asks
for others that are at most six intervals old, and in that time few others can
have been credited, so whoever was credited before is still there. The
trouble is the other way round. A ring knows media times, and in a stream of
more than `2 ^ 26` packets two of them can have the same one. The ring then
takes the packet for one that was credited before, unless enough credits came
in between to push that one out. `Stream.Renewed` asks for just that.

## Main definitions

* `Fate`, `Stream.fate`: What becomes of a packet.
* `Stream.Renewed`: No ring holds the namesake of a packet.
* `Ledger`: The credits of a tracker, told by the packets they were given for.
* `Ready`: What a tracker knows when a packet asks for credits.

## Theorems

* `Ledger.contains_red_iff`, `Ledger.contains_fec_iff`: What the rings know.
* `Ledger.creditRed`, `Ledger.creditFec`: One credit.
* `credits_run`: The credits of a packet.
* `ledger_track`: The credits of a run.
-/

namespace RedundantAudio

namespace Loss

/-- What becomes of a packet. -/
inductive Fate
  /-- It arrives. -/
  | arrived
  /-- It is lost, and a packet that arrives repeats it. -/
  | red
  /-- It is lost and never repeated, but the packet behind it arrives in some
      packet, with correction data. -/
  | fec
  /-- It is lost, and nothing makes it good. -/
  | lost
  deriving DecidableEq, Repr

namespace Stream

variable (s : Stream)

/-- What becomes of a packet when some packets arrive. -/
def fate (arrivals : List Nat) (m : Nat) : Fate :=
  if m ∈ arrivals then .arrived
  else if ∃ n ∈ arrivals, m ∈ s.carried n then .red
  else if ∃ n ∈ arrivals, (m + 1 = n ∨ m + 1 ∈ s.carried n) ∧ (s.block n (m + 1)).hasFec = true
    then .fec
  else .lost

/-- A packet is lost and made good. -/
def Recovered (arrivals : List Nat) (m : Nat) : Prop :=
  s.fate arrivals m = .red ∨ s.fate arrivals m = .fec

/-- Between two packets that are made good and have the same media time, at
    least as many others are made good as a ring has slots, in the way of the
    earlier one. Five packets next to either of the two do not count. -/
def Renewed (arrivals : List Nat) : Prop :=
  ∀ m n, m < n → s.time m = s.time n → s.Recovered arrivals m → s.Recovered arrivals n →
    21 ≤ (List.range n).countP fun k =>
      m + 6 ≤ k ∧ k + 6 ≤ n ∧ s.fate arrivals k = s.fate arrivals m

variable {s} {arrivals : List Nat} {m : Nat}

/-- A packet counts as repeated if it is lost and a packet that arrives asks for a credit to
    redundancy for it. -/
theorem fate_eq_red_iff :
    s.fate arrivals m = .red ↔ m ∉ arrivals ∧ ∃ n ∈ arrivals, .red m ∈ s.credits n := by
  simp only [s.red_mem_credits]
  rw [fate]
  -- The cases are tried in the order of the definition.
  by_cases harrived : m ∈ arrivals
  · rw [if_pos harrived]
    exact ⟨fun h => Fate.noConfusion h, fun h => absurd harrived h.1⟩
  rw [if_neg harrived]
  by_cases hred : ∃ n ∈ arrivals, m ∈ s.carried n
  · rw [if_pos hred]
    exact ⟨fun _ => ⟨harrived, hred⟩, fun _ => rfl⟩
  rw [if_neg hred]
  refine ⟨fun h => ?_, fun h => absurd h.2 hred⟩
  split at h <;> cases h

/-- A packet counts as corrected if it is lost, never repeated, and a packet that arrives
    asks for a credit to correction data for it. Being repeated comes first, as for a
    tracker. -/
theorem fate_eq_fec_iff :
    s.fate arrivals m = .fec ↔ m ∉ arrivals ∧ (¬ ∃ n ∈ arrivals, .red m ∈ s.credits n) ∧
      ∃ n ∈ arrivals, .fec (m + 1) ∈ s.credits n := by
  simp only [s.red_mem_credits, s.fec_mem_credits]
  rw [fate]
  -- The cases are tried in the order of the definition.
  by_cases harrived : m ∈ arrivals
  · rw [if_pos harrived]
    exact ⟨fun h => Fate.noConfusion h, fun h => absurd harrived h.1⟩
  rw [if_neg harrived]
  by_cases hred : ∃ n ∈ arrivals, m ∈ s.carried n
  · rw [if_pos hred]
    exact ⟨fun h => Fate.noConfusion h, fun h => absurd hred h.2.1⟩
  rw [if_neg hred]
  by_cases hfec : ∃ n ∈ arrivals,
      (m + 1 = n ∨ m + 1 ∈ s.carried n) ∧ (s.block n (m + 1)).hasFec = true
  · rw [if_pos hfec]
    exact ⟨fun _ => ⟨harrived, hred, hfec⟩, fun _ => rfl⟩
  · rw [if_neg hfec]
    exact ⟨fun h => Fate.noConfusion h, fun h => absurd h.2.2 hfec⟩

/-- Whoever is asked to be made good, and is lost, is made good. It does not matter which
    mechanism asked, since being repeated takes precedence. -/
theorem recovered_of_asked (hm : m ∉ arrivals) (c : Credit)
    (hc : c.Protects m) (hasked : ∃ n ∈ arrivals, c ∈ s.credits n) :
    s.Recovered arrivals m := by
  by_cases hred : ∃ n ∈ arrivals, .red m ∈ s.credits n
  · exact Or.inl (fate_eq_red_iff.mpr ⟨hm, hred⟩)
  · rcases hc with rfl | rfl
    · exact absurd hasked hred
    · exact Or.inr (fate_eq_fec_iff.mpr ⟨hm, hred, hasked⟩)

end Stream

/-- What is written to the ring of corrected packets: those that came to be
    repeated as well have been cleared. -/
def fecSlot (s : Stream) (reds : List Nat) (m : Nat) : Option UInt32 :=
  if m ∈ reds then none else some (s.time m)

/-- The credits of a tracker, told by the packets they were given for. So many
    credits have been asked for, by packets before `bound` and possibly by
    that packet; `reds` and `fecs` are the packets that were credited, in
    order. -/
structure Ledger (s : Stream) (arrivals : List Nat) (bound : Nat) (done : List Credit)
    (reds fecs : List Nat) (t : Tracker) : Prop where
  sound : ∀ c ∈ done, ∃ n ∈ arrivals, c ∈ s.credits n
  complete : ∀ n ∈ arrivals, n < bound → ∀ c ∈ s.credits n, c ∈ done
  mem_reds : ∀ m, m ∈ reds ↔ m ∉ arrivals ∧ .red m ∈ done
  mem_fecs : ∀ m ∈ fecs, m ∉ arrivals ∧ .fec (m + 1) ∈ done
  mem_either : ∀ m, m ∉ arrivals → .fec (m + 1) ∈ done → m ∈ fecs ∨ m ∈ reds
  nodup_reds : reds.Nodup
  nodup_fecs : fecs.Nodup
  order_reds : reds.Pairwise fun a b => a ≤ b + 5
  order_fecs : fecs.Pairwise fun a b => a ≤ b + 5
  reds_lt : ∀ m ∈ reds, m < bound
  fecs_lt : ∀ m ∈ fecs, m < bound
  red_slots : t.redCredits.slots = written 21 (reds.map fun m => some (s.time m))
  fec_slots : t.fecCredits.slots = written 21 (fecs.map (fecSlot s reds))
  red_count : t.counters.recoveredRed = reds.length
  fec_count : t.counters.recoveredFec = (fecs.filter (· ∉ reds)).length

namespace Ledger

variable {s : Stream} {arrivals : List Nat} {bound : Nat} {done : List Credit}
  {reds fecs : List Nat} {t : Tracker}

/-- What was asked by packets before the bound is done. A packet asks at most six intervals
    behind the one it asks for, hence the margin. -/
theorem done_of_asked (h : Ledger s arrivals bound done reds fecs t) (m : Nat) (c : Credit)
    (hc : c.Protects m) (hm : m + 6 < bound)
    (hasked : ∃ n ∈ arrivals, c ∈ s.credits n) : c ∈ done := by
  rcases hasked with ⟨n, hn, hin⟩
  have hnear := s.near_of_protects c hc hin
  exact h.complete n hn (by omega) c hin

/-- The numbers that renew a ring between two packets, as a list without repetitions, which
    is the form in which a ring is shown to have forgotten. -/
theorem exists_later (hrenewed : s.Renewed arrivals) {m q : Nat} (hlt : q < m)
    (htime : s.time q = s.time m) (hq : s.Recovered arrivals q) (hm : s.Recovered arrivals m) :
    ∃ later : List Nat, later.Nodup ∧ 21 ≤ later.length ∧
      ∀ k ∈ later, q + 6 ≤ k ∧ k + 6 ≤ m ∧ s.fate arrivals k = s.fate arrivals q := by
  refine ⟨(List.range m).filter fun k =>
    q + 6 ≤ k ∧ k + 6 ≤ m ∧ s.fate arrivals k = s.fate arrivals q,
    List.nodup_range.filter _, ?_, ?_⟩
  · rw [← List.countP_eq_length_filter]
    exact hrenewed q m hlt htime hq hm
  · intro k hk
    exact of_decide_eq_true (List.mem_filter.mp hk).2

/-- Among packets so close behind it, no packet ahead shares the media time of another one.
    Two packets that do are a whole lap of media times apart. -/
theorem lt_of_time_eq {m q : Nat} (htime : s.time q = s.time m) (hq : q < bound)
    (hm : bound ≤ m + 6) (hne : q ≠ m) : q + 2 ^ 26 ≤ m := by
  have hmod := (Red.packetTime_eq_iff s.start q m).mp htime
  omega

/-- A packet that is asked for shares its media time with no other one that
    the ring of repeated packets still holds. -/
theorem recent_red_inj (h : Ledger s arrivals bound done reds fecs t)
    (hrenewed : s.Renewed arrivals) {m q : Nat} (hm : bound ≤ m + 6) (hbound : m < bound)
    (hrecovered : s.Recovered arrivals m) (hq : Recent 21 reds q)
    (htime : s.time q = s.time m) : q = m := by
  by_contra hne
  -- A namesake lies a whole lap back, and enough credits have been given since.
  have hfar := lt_of_time_eq htime (h.reds_lt q hq.mem) hm hne
  rcases (h.mem_reds q).mp hq.mem with ⟨hlost, hdone⟩
  have hfate : s.fate arrivals q = .red :=
    Stream.fate_eq_red_iff.mpr ⟨hlost, h.sound _ hdone⟩
  rcases exists_later hrenewed (by omega) htime (Or.inl hfate) hrecovered with
    ⟨later, hnodup, hcount, hlater⟩
  refine not_recent 21 5 reds later q h.order_reds hnodup (fun k hk => ?_) hcount hq
  rcases hlater k hk with ⟨hlo, hhi, hsame⟩
  rw [hfate, Stream.fate_eq_red_iff] at hsame
  have hkdone := h.done_of_asked k _ (Or.inl rfl) (by omega) hsame.2
  exact ⟨(h.mem_reds k).mpr ⟨hsame.1, hkdone⟩, by omega⟩

/-- A packet that is asked for shares its media time with no other one whose slot the ring
    of corrected packets still holds and has not cleared. This is what `Stream.Renewed` is
    for: enough other packets came in between to push a namesake out. -/
theorem recent_fec_inj (h : Ledger s arrivals bound done reds fecs t)
    (hrenewed : s.Renewed arrivals) {m q : Nat} (hm : bound ≤ m + 6) (hbound : m < bound)
    (hrecovered : s.Recovered arrivals m) (hq : Recent 21 fecs q) (hred : q ∉ reds)
    (htime : s.time q = s.time m) : q = m := by
  by_contra hne
  -- As for repeated packets, the namesake lies a whole lap back.
  have hfar := lt_of_time_eq htime (h.fecs_lt q hq.mem) hm hne
  rcases h.mem_fecs q hq.mem with ⟨hlost, hdone⟩
  -- A packet so far back is asked for no more, so what is not repeated by now never is.
  have hnever : ∀ k, k ∉ arrivals → k + 6 < bound → k ∉ reds →
      ¬ ∃ n ∈ arrivals, .red k ∈ s.credits n := fun k hk hkb hkr hasked =>
    hkr ((h.mem_reds k).mpr ⟨hk, h.done_of_asked k _ (Or.inl rfl) hkb hasked⟩)
  -- It was corrected and is not repeated, and no more packets will ask for it.
  have hfate : s.fate arrivals q = .fec :=
    Stream.fate_eq_fec_iff.mpr ⟨hlost, hnever q hlost (by omega) hred, h.sound _ hdone⟩
  rcases exists_later hrenewed (by omega) htime (Or.inr hfate) hrecovered with
    ⟨later, hnodup, hcount, hlater⟩
  refine not_recent 21 5 fecs later q h.order_fecs hnodup (fun k hk => ?_) hcount hq
  rcases hlater k hk with ⟨hlo, hhi, hsame⟩
  rw [hfate, Stream.fate_eq_fec_iff] at hsame
  rcases hsame with ⟨hklost, hknever, hkasked⟩
  have hkdone := h.done_of_asked k _ (Or.inr rfl) (by omega) hkasked
  refine ⟨(h.mem_either k hklost hkdone).resolve_right fun hkred => ?_, by omega⟩
  exact hknever (h.sound _ ((h.mem_reds k).mp hkred).2)

/-- The ring of repeated packets answers for a packet that is just asked for, and it answers
    by number, although it holds nothing but times. -/
theorem contains_red_iff (h : Ledger s arrivals bound done reds fecs t)
    (hrenewed : s.Renewed arrivals) {m : Nat} (hm : bound ≤ m + 6) (hbound : m < bound)
    (hrecovered : s.Recovered arrivals m) :
    t.redCredits.contains (s.time m) = true ↔ m ∈ reds := by
  rw [Window.contains_iff, h.red_slots, mem_written_map]
  constructor
  · rintro ⟨q, hq, htime⟩
    rw [Option.some.injEq] at htime
    rw [← h.recent_red_inj hrenewed hm hbound hrecovered hq htime]
    exact hq.mem
  · -- The entries of the last six packets are among the last 21.
    intro hmem
    exact ⟨m, recent_of_bounded 21 5 bound reds m h.nodup_reds h.order_reds h.reds_lt hmem
      (by omega), rfl⟩

/-- The ring of corrected packets answers for a packet that is just asked for, leaving out
    those that came to be repeated. A packet that was corrected so lately is still among the
    slots, and only its own credit to redundancy can have cleared it. -/
theorem contains_fec_iff (h : Ledger s arrivals bound done reds fecs t)
    (hrenewed : s.Renewed arrivals) {m : Nat} (hm : bound ≤ m + 6) (hbound : m < bound)
    (hrecovered : s.Recovered arrivals m) :
    t.fecCredits.contains (s.time m) = true ↔ m ∈ fecs ∧ m ∉ reds := by
  rw [Window.contains_iff, h.fec_slots, mem_written_map]
  constructor
  · rintro ⟨q, hq, hslot⟩
    rw [fecSlot] at hslot
    -- A slot that was cleared answers for no time at all.
    by_cases hred : q ∈ reds
    · rw [if_pos hred] at hslot
      cases hslot
    · rw [if_neg hred, Option.some.injEq] at hslot
      rw [← h.recent_fec_inj hrenewed hm hbound hrecovered hq hred hslot]
      exact ⟨hq.mem, hred⟩
  · rintro ⟨hmem, hred⟩
    exact ⟨m, recent_of_bounded 21 5 bound fecs m h.nodup_fecs h.order_fecs h.fecs_lt hmem
      (by omega), if_neg hred⟩

end Ledger

/-- What a tracker knows of the primaries that a packet vouches for, by the
    time it asks for credits. -/
structure Ready (s : Stream) (arrivals : List Nat) (bound : Nat) (t : Tracker) : Prop where
  config_eq : t.config = {}
  contains_iff : ∀ m, m < bound → bound ≤ m + 6 →
    (t.primaries.contains (s.time m) = true ↔ m ∈ arrivals)
  lost_ne_zero : ∀ m, m < bound → m ∉ arrivals → t.counters.lost ≠ 0

/-- What a tracker knows of primaries does not change while it gives credits. -/
theorem Ready.congr {s : Stream} {arrivals : List Nat} {bound : Nat} {t t' : Tracker}
    (h : Ready s arrivals bound t) (ha : Agrees t' t) : Ready s arrivals bound t' where
  config_eq := ha.config_eq.trans h.config_eq
  contains_iff := by
    rw [ha.primaries_eq]
    exact h.contains_iff
  lost_ne_zero := by
    rw [ha.lost_eq]
    exact h.lost_ne_zero

namespace Ledger

variable {s : Stream} {arrivals : List Nat} {bound : Nat} {done : List Credit}
  {reds fecs : List Nat} {t : Tracker}

/-- One more credit that is asked for: all that are done were asked for by a packet that
    arrives. -/
theorem sound_concat (h : Ledger s arrivals bound done reds fecs t) (c : Credit)
    (hasked : ∃ n ∈ arrivals, c ∈ s.credits n) :
    ∀ c' ∈ done ++ [c], ∃ n ∈ arrivals, c' ∈ s.credits n := by
  intro c' hc'
  rcases List.mem_append.mp hc' with hold | hnew
  · exact h.sound c' hold
  · rw [List.mem_singleton.mp hnew]
    exact hasked

/-- One more credit that is asked for: none of the earlier ones is forgotten. -/
theorem complete_concat (h : Ledger s arrivals bound done reds fecs t) (c : Credit) :
    ∀ n ∈ arrivals, n < bound → ∀ c' ∈ s.credits n, c' ∈ done ++ [c] := by
  intro n hn hlt c' hc'
  exact List.mem_append_left _ (h.complete n hn hlt c' hc')

/-- One more credit that is asked for: the packets that are corrected still have one to
    show. -/
theorem mem_fecs_concat (h : Ledger s arrivals bound done reds fecs t) (c : Credit) :
    ∀ m ∈ fecs, m ∉ arrivals ∧ .fec (m + 1) ∈ done ++ [c] := by
  intro m hm
  exact ⟨(h.mem_fecs m hm).1, List.mem_append_left _ (h.mem_fecs m hm).2⟩

/-- A credit that is not given, since there is nothing to make good or it is made good
    already. It counts as done all the same, so the lists have to account for it: the packet
    has arrived, or is on one of them. -/
theorem idle (h : Ledger s arrivals bound done reds fecs t) (c : Credit)
    (hasked : ∃ n ∈ arrivals, c ∈ s.credits n)
    (hred : ∀ m, c = .red m → m ∉ arrivals → m ∈ reds)
    (hfec : ∀ m, c = .fec (m + 1) → m ∉ arrivals → m ∈ fecs ∨ m ∈ reds) :
    Ledger s arrivals bound (done ++ [c]) reds fecs t :=
  { h with
    sound := h.sound_concat c hasked
    complete := h.complete_concat c
    -- Nothing is added to the list, so the new credit has to be for a packet that has
    -- arrived or that stands there already.
    mem_reds := by
      intro m
      constructor
      · intro hm
        rcases (h.mem_reds m).mp hm with ⟨hlost, hdone⟩
        exact ⟨hlost, List.mem_append_left _ hdone⟩
      · rintro ⟨hlost, hdone⟩
        rcases List.mem_append.mp hdone with hold | hnew
        · exact (h.mem_reds m).mpr ⟨hlost, hold⟩
        · exact hred m (List.mem_singleton.mp hnew).symm hlost
    mem_fecs := h.mem_fecs_concat c
    mem_either := by
      intro m hlost hdone
      rcases List.mem_append.mp hdone with hold | hnew
      · exact h.mem_either m hlost hold
      · exact hfec m (List.mem_singleton.mp hnew).symm hlost }

/-- Entries that come in together with their packet keep the order. They are for packets at
    most six intervals back, so none is more than five behind another. -/
theorem order_concat {l : List Nat} {m : Nat} (horder : l.Pairwise fun a b => a ≤ b + 5)
    (hlt : ∀ a ∈ l, a < bound) (hm : bound ≤ m + 6) :
    (l ++ [m]).Pairwise fun a b => a ≤ b + 5 := by
  refine List.pairwise_append.mpr ⟨horder, List.pairwise_singleton _ _, fun a ha b hb => ?_⟩
  have hle := hlt a ha
  rw [List.mem_singleton.mp hb]
  omega

theorem lt_concat {l : List Nat} {m : Nat} (hlt : ∀ a ∈ l, a < bound) (hm : m < bound) :
    ∀ a ∈ l ++ [m], a < bound := by
  intro a ha
  rcases List.mem_append.mp ha with hold | hnew
  · exact hlt a hold
  · rw [List.mem_singleton.mp hnew]
    exact hm

/-- A packet that is repeated is corrected no more. That takes one off the count of those
    that are only corrected, if it was among them. -/
theorem length_filter_concat (hnodup : fecs.Nodup) (m : Nat) (hred : m ∉ reds) :
    (fecs.filter (· ∉ reds ++ [m])).length
      = (fecs.filter (· ∉ reds)).length - if m ∈ fecs then 1 else 0 := by
  -- The packet leaves the list, if it was on it.
  have hfilter : fecs.filter (· ∉ reds ++ [m]) = (fecs.filter (· ∉ reds)).erase m := by
    rw [(hnodup.filter _).erase_eq_filter, List.filter_filter]
    refine List.filter_congr fun k _ => ?_
    rw [Bool.eq_iff_iff, Bool.and_eq_true, decide_eq_true_eq, decide_eq_true_eq, bne_iff_ne,
      List.mem_append, List.mem_singleton, not_or, and_comm]
  have hmem : m ∈ fecs.filter (· ∉ reds) ↔ m ∈ fecs := by
    rw [List.mem_filter, decide_eq_true_eq, and_iff_left hred]
  rw [hfilter]
  by_cases hfec : m ∈ fecs
  · rw [if_pos hfec, List.length_erase_of_mem (hmem.mpr hfec)]
  · rw [if_neg hfec, List.erase_of_not_mem fun h => hfec (hmem.mp h), Nat.sub_zero]

/-- Clearing the time of a packet clears the slot of that packet, and no other slot that
    still counts. Slots of packets that were repeated are empty already, so it does no harm
    that one of them may have had the same time. -/
theorem fecSlot_cleared (h : Ledger s arrivals bound done reds fecs t)
    (hrenewed : s.Renewed arrivals) {m : Nat} (hm : bound ≤ m + 6) (hbound : m < bound)
    (hrecovered : s.Recovered arrivals m) {q : Nat} (hq : Recent 21 fecs q) :
    Window.cleared (s.time m) (fecSlot s reds q) = fecSlot s (reds ++ [m]) q := by
  rw [fecSlot, fecSlot, Window.cleared]
  by_cases hred : q ∈ reds
  · rw [if_pos hred, if_pos (List.mem_append_left _ hred), ite_self]
  rw [if_neg hred]
  by_cases hq' : q = m
  · rw [hq', if_pos rfl, if_pos (List.mem_append_right _ List.mem_cons_self)]
  -- Another packet with this time would be a namesake that the ring still holds.
  have hother : ¬ (some (s.time q) = some (s.time m)) := by
    intro hsame
    exact hq' (h.recent_fec_inj hrenewed hm hbound hrecovered hq hred (Option.some.inj hsame))
  have hnot : q ∉ reds ++ [m] := by
    rw [List.mem_append, List.mem_singleton]
    exact not_or.mpr ⟨hred, hq'⟩
  rw [if_neg hother, if_neg hnot]

/-- The ring of corrected packets, when a packet comes to be repeated: its slot is cleared
    if there is one, and all others are written as they were. The tracker looks before it
    removes, and this comes to the same as removing at once. -/
theorem fec_slots_concat (h : Ledger s arrivals bound done reds fecs t)
    (hrenewed : s.Renewed arrivals) {m : Nat} (hm : bound ≤ m + 6) (hbound : m < bound)
    (hrecovered : s.Recovered arrivals m) :
    (if t.fecCredits.contains (s.time m) then t.fecCredits.remove (s.time m)
      else t.fecCredits).slots = written 21 (fecs.map (fecSlot s (reds ++ [m]))) := by
  have hslots : (if t.fecCredits.contains (s.time m) then t.fecCredits.remove (s.time m)
      else t.fecCredits).slots
        = written 21 (fecs.map fun q => Window.cleared (s.time m) (fecSlot s reds q)) := by
    by_cases hin : t.fecCredits.contains (s.time m) = true
    · rw [if_pos hin]
      -- The ring holds the time, and the slot to clear can only be that of the packet.
      refine slots_remove_written h.fec_slots _ m h.nodup_fecs fun q hq hslot => ?_
      rw [fecSlot] at hslot
      by_cases hred : q ∈ reds
      · rw [if_pos hred] at hslot
        cases hslot
      · rw [if_neg hred, Option.some.injEq] at hslot
        exact h.recent_fec_inj hrenewed hm hbound hrecovered hq hred hslot
    · -- The ring does not hold the time, so clearing it everywhere clears nothing.
      have hkeep := Window.map_cleared (s.time m) t.fecCredits.slots fun hmem =>
        hin ((Window.contains_iff _ _).mpr hmem)
      rw [if_neg hin, ← hkeep, h.fec_slots, map_written 21 _ rfl, List.map_map]
      rfl
  rw [hslots]
  exact written_map_congr 21 _ _ _ fun q hq => h.fecSlot_cleared hrenewed hm hbound hrecovered hq

/-- A new entry for a packet that is repeated. If it was corrected before, it stays on that
    list, but no longer counts there. -/
theorem giveRed (h : Ledger s arrivals bound done reds fecs t) (hrenewed : s.Renewed arrivals)
    (hbound : bound ∈ arrivals) (m : Nat) (hasked : .red m ∈ s.credits bound) (hlost : m ∉ arrivals)
    (hmem : m ∉ reds) :
    Ledger s arrivals bound (done ++ [.red m]) (reds ++ [m]) fecs
      { t with
        counters.recoveredRed := t.counters.recoveredRed + 1
        counters.recoveredFec :=
          if t.fecCredits.contains (s.time m) then t.counters.recoveredFec - 1
          else t.counters.recoveredFec
        redCredits := t.redCredits.add (s.time m)
        fecCredits :=
          if t.fecCredits.contains (s.time m) then t.fecCredits.remove (s.time m)
          else t.fecCredits } := by
  have hnear := s.near_of_protects _ (Or.inl rfl) hasked
  have hrecovered := Stream.recovered_of_asked hlost _ (Or.inl rfl) ⟨bound, hbound, hasked⟩
  -- That ring is asked by number as well, to tell whether the packet still counts there.
  have hfecs := h.contains_fec_iff hrenewed hnear.2 hnear.1 hrecovered
  exact
    { sound := h.sound_concat _ ⟨bound, hbound, hasked⟩
      complete := h.complete_concat _
      mem_reds := by
        intro k
        simp only [List.mem_append, List.mem_singleton, h.mem_reds k, Credit.red.injEq]
        constructor
        · rintro (⟨hlost, hdone⟩ | rfl)
          · exact ⟨hlost, Or.inl hdone⟩
          · exact ⟨hlost, Or.inr rfl⟩
        · rintro ⟨hlost, hdone | rfl⟩
          · exact Or.inl ⟨hlost, hdone⟩
          · exact Or.inr rfl
      mem_fecs := h.mem_fecs_concat _
      mem_either := by
        intro k hlost hdone
        rcases List.mem_append.mp hdone with hold | hnew
        · exact (h.mem_either k hlost hold).imp id (List.mem_append_left _)
        · exact Credit.noConfusion (List.mem_singleton.mp hnew)
      nodup_reds := nodup_concat h.nodup_reds hmem
      nodup_fecs := h.nodup_fecs
      order_reds := order_concat h.order_reds h.reds_lt hnear.2
      order_fecs := h.order_fecs
      reds_lt := lt_concat h.reds_lt hnear.1
      fecs_lt := h.fecs_lt
      red_slots := by
        rw [List.map_append]
        exact slots_add_written 21 (by omega) _ _ _ h.red_slots
      fec_slots := h.fec_slots_concat hrenewed hnear.2 hnear.1 hrecovered
      red_count := by
        rw [List.length_append, List.length_singleton, ← h.red_count]
      fec_count := by
        rw [length_filter_concat h.nodup_fecs m hmem, ← h.fec_count]
        by_cases hfec : m ∈ fecs
        · rw [if_pos hfec]
          exact if_pos (hfecs.mpr ⟨hfec, hmem⟩)
        · rw [if_neg hfec]
          exact if_neg fun hin => hfec (hfecs.mp hin).1 }

/-- A new entry for a packet that is corrected. It is on neither list so far, and the ring
    gets one slot more, which no credit to redundancy has cleared. -/
theorem giveFec (h : Ledger s arrivals bound done reds fecs t) (hbound : bound ∈ arrivals) (m : Nat)
    (hasked : .fec (m + 1) ∈ s.credits bound) (hlost : m ∉ arrivals) (hred : m ∉ reds)
    (hfec : m ∉ fecs) :
    Ledger s arrivals bound (done ++ [.fec (m + 1)]) reds (fecs ++ [m])
      { t with
        counters.recoveredFec := t.counters.recoveredFec + 1
        fecCredits := t.fecCredits.add (s.time m) } := by
  have hnear := s.near_of_protects _ (Or.inr rfl) hasked
  exact
    { sound := h.sound_concat _ ⟨bound, hbound, hasked⟩
      complete := h.complete_concat _
      mem_reds := by
        intro k
        simp only [h.mem_reds k, List.mem_append, List.mem_singleton, reduceCtorEq, or_false]
      mem_fecs := by
        intro k hk
        rcases List.mem_append.mp hk with hold | hnew
        · exact h.mem_fecs_concat _ k hold
        · rw [List.mem_singleton.mp hnew]
          exact ⟨hlost, List.mem_append_right _ List.mem_cons_self⟩
      mem_either := by
        intro k hmissing hdone
        rcases List.mem_append.mp hdone with hold | hnew
        · exact (h.mem_either k hmissing hold).imp (List.mem_append_left _) id
        · obtain rfl : k = m := Nat.succ.inj (Credit.fec.inj (List.mem_singleton.mp hnew))
          exact Or.inl (List.mem_append_right _ List.mem_cons_self)
      nodup_reds := h.nodup_reds
      nodup_fecs := nodup_concat h.nodup_fecs hfec
      order_reds := h.order_reds
      order_fecs := order_concat h.order_fecs h.fecs_lt hnear.2
      reds_lt := h.reds_lt
      fecs_lt := lt_concat h.fecs_lt hnear.1
      red_slots := h.red_slots
      -- The packet is not repeated, so its slot is written with its time.
      fec_slots := by
        have hslot : fecSlot s reds m = some (s.time m) := if_neg hred
        rw [List.map_append, List.map_singleton, hslot]
        exact slots_add_written 21 (by omega) _ _ _ h.fec_slots
      red_count := h.red_count
      fec_count := by
        rw [List.filter_append, List.length_append, ← h.fec_count, List.filter_singleton,
          decide_eq_true hred]
        rfl }

/-- A credit to redundancy, which takes the place of one to correction data. The tracker
    asks its rings for a media time and the ledger its lists for a packet; for a packet that
    is asked for just now the answers are the same. -/
theorem creditRed (h : Ledger s arrivals bound done reds fecs t) (hready : Ready s arrivals bound t)
    (hrenewed : s.Renewed arrivals) (hbound : bound ∈ arrivals) (m : Nat)
    (hasked : .red m ∈ s.credits bound) :
    ∃ reds', Ledger s arrivals bound (done ++ [.red m]) reds' fecs (s.credit t (.red m)) := by
  have hnear := s.near_of_protects _ (Or.inl rfl) hasked
  have hprimary := hready.contains_iff m hnear.1 hnear.2
  change ∃ reds', Ledger s arrivals bound _ reds' fecs (t.creditRed (s.time m))
  -- Three cases: the packet arrived, it was credited before, or it is credited now.
  by_cases harrived : m ∈ arrivals
  · rw [creditRed_idle t _ (Or.inr (hprimary.mpr harrived))]
    exact ⟨reds, h.idle _ ⟨bound, hbound, hasked⟩
      (fun k hk hlost => absurd ((Credit.red.inj hk) ▸ harrived) hlost)
      (fun k hk => Credit.noConfusion hk)⟩
  have hrecovered := Stream.recovered_of_asked harrived _ (Or.inl rfl) ⟨bound, hbound, hasked⟩
  have hcontains := h.contains_red_iff hrenewed hnear.2 hnear.1 hrecovered
  have hfecs := h.contains_fec_iff hrenewed hnear.2 hnear.1 hrecovered
  by_cases hmem : m ∈ reds
  · -- The credit to redundancy has taken the other one back already.
    have hnofec : t.fecCredits.contains (s.time m) = false :=
      Bool.eq_false_iff.mpr fun hin => (hfecs.mp hin).2 hmem
    rw [creditRed_again t _ (hcontains.mpr hmem) hnofec]
    exact ⟨reds, h.idle _ ⟨bound, hbound, hasked⟩
      (fun k hk _ => (Credit.red.inj hk) ▸ hmem) (fun k hk => Credit.noConfusion hk)⟩
  · -- The ring does not know the packet, so a new credit is given.
    rw [creditRed_new t _ (hready.lost_ne_zero m hnear.1 harrived)
      (Bool.eq_false_iff.mpr fun hin => harrived (hprimary.mp hin))
      (Bool.eq_false_iff.mpr fun hin => hmem (hcontains.mp hin))]
    exact ⟨reds ++ [m], h.giveRed hrenewed hbound m hasked harrived hmem⟩

/-- A credit to correction data. It is denied to a packet that has arrived or was made good
    before, by whichever mechanism, so the first list stays as it is. -/
theorem creditFec (h : Ledger s arrivals bound done reds fecs t) (hready : Ready s arrivals bound t)
    (hrenewed : s.Renewed arrivals) (hbound : bound ∈ arrivals) (m : Nat)
    (hasked : .fec (m + 1) ∈ s.credits bound) :
    ∃ fecs', Ledger s arrivals bound (done ++ [.fec (m + 1)]) reds fecs'
      (s.credit t (.fec (m + 1))) := by
  have hnear := s.near_of_protects _ (Or.inr rfl) hasked
  have hprimary := hready.contains_iff m hnear.1 hnear.2
  have htime : s.time (m + 1) - t.config.packetizationTime = s.time m := by
    rw [hready.config_eq]
    exact time_sub_interval s m
  change ∃ fecs', Ledger s arrivals bound _ reds fecs' (t.creditFec (s.time (m + 1)))
  -- There are three reasons not to give the credit, and none of them adds an entry.
  have hidle : m ∈ arrivals ∨ m ∈ fecs ∨ m ∈ reds →
      Ledger s arrivals bound (done ++ [.fec (m + 1)]) reds fecs t := by
    intro hm
    refine h.idle _ ⟨bound, hbound, hasked⟩ (fun k hk => Credit.noConfusion hk)
      (fun k hk hlost => ?_)
    obtain rfl : m = k := Nat.succ.inj (Credit.fec.inj hk)
    exact hm.resolve_left hlost
  by_cases harrived : m ∈ arrivals
  · rw [creditFec_idle t _ (by rw [htime]; exact Or.inr (Or.inl (hprimary.mpr harrived)))]
    exact ⟨fecs, hidle (Or.inl harrived)⟩
  have hrecovered := Stream.recovered_of_asked harrived _ (Or.inr rfl) ⟨bound, hbound, hasked⟩
  have hcontains := h.contains_red_iff hrenewed hnear.2 hnear.1 hrecovered
  have hfecs := h.contains_fec_iff hrenewed hnear.2 hnear.1 hrecovered
  by_cases hred : m ∈ reds
  · rw [creditFec_idle t _
      (by rw [htime]; exact Or.inr (Or.inr (Or.inl (hcontains.mpr hred))))]
    exact ⟨fecs, hidle (Or.inr (Or.inr hred))⟩
  by_cases hfec : m ∈ fecs
  · rw [creditFec_idle t _
      (by rw [htime]; exact Or.inr (Or.inr (Or.inr (hfecs.mpr ⟨hfec, hred⟩))))]
    exact ⟨fecs, hidle (Or.inr (Or.inl hfec))⟩
  · -- Neither ring knows the packet, so a new credit is given.
    rw [creditFec_new t _ (hready.lost_ne_zero m hnear.1 harrived)
      (by rw [htime]; exact Bool.eq_false_iff.mpr fun hin => harrived (hprimary.mp hin))
      (by rw [htime]; exact Bool.eq_false_iff.mpr fun hin => hred (hcontains.mp hin))
      (by rw [htime]; exact Bool.eq_false_iff.mpr fun hin => hfec (hfecs.mp hin).1), htime]
    exact ⟨fecs ++ [m], h.giveFec hbound m hasked harrived hred hfec⟩

end Ledger

/-! ### Packets -/

/-- The credits of one packet go on the ledger one by one, by induction on those that are
    still to be asked for. Between them a tracker stays ready, as credits leave the accounts
    of primaries alone. -/
theorem credits_run {s : Stream} {arrivals : List Nat} {bound : Nat}
    (hrenewed : s.Renewed arrivals) (hbound : bound ∈ arrivals)
    (hfirst : ∀ n, (s.block n 0).hasFec = false) (rest : List Credit) :
    ∀ (done : List Credit) (reds fecs : List Nat) (t : Tracker),
      (∀ c ∈ rest, c ∈ s.credits bound) → Ledger s arrivals bound done reds fecs t →
      Ready s arrivals bound t →
      ∃ reds' fecs', Ledger s arrivals bound (done ++ rest) reds' fecs'
        (rest.foldl s.credit t) := by
  induction rest with
  | nil =>
      intro done reds fecs t _ h _
      rw [List.append_nil]
      exact ⟨reds, fecs, h⟩
  | cons c rest ih =>
      intro done reds fecs t hasked h hready
      have hc := hasked c List.mem_cons_self
      have hrest := fun c' hc' => hasked c' (List.mem_cons_of_mem c hc')
      have hnext := hready.congr (agrees_credit s t c)
      rw [List.foldl_cons, ← List.singleton_append, ← List.append_assoc]
      cases c with
      | red m =>
          rcases h.creditRed hready hrenewed hbound m hc with ⟨reds', h'⟩
          exact ih _ reds' fecs _ hrest h' hnext
      | fec m =>
          cases m with
          | zero =>
              -- There is no packet before packet 0, and it is taken to have no correction
              -- data.
              rw [s.fec_mem_credits, hfirst bound] at hc
              exact absurd hc.2 Bool.false_ne_true
          | succ m =>
              rcases h.creditFec hready hrenewed hbound m hc with ⟨fecs', h'⟩
              exact ih _ reds fecs' _ hrest h' hnext

/-- The ledger does not change when a primary is counted. Only the bound moves on, to a
    packet all of whose predecessors are done. -/
theorem Ledger.advance {s : Stream} {arrivals : List Nat} {bound : Nat} {done : List Credit}
    {reds fecs : List Nat} {t : Tracker} (h : Ledger s arrivals bound done reds fecs t)
    (bound' : Nat) (t' : Tracker) (hle : bound ≤ bound')
    (hcomplete : ∀ n ∈ arrivals, n < bound' → ∀ c ∈ s.credits n, c ∈ done)
    (hred : t'.redCredits = t.redCredits) (hfec : t'.fecCredits = t.fecCredits)
    (hreds : t'.counters.recoveredRed = t.counters.recoveredRed)
    (hfecs : t'.counters.recoveredFec = t.counters.recoveredFec) :
    Ledger s arrivals bound' done reds fecs t' :=
  { h with
    complete := hcomplete
    reds_lt := fun m hm => lt_of_lt_of_le (h.reds_lt m hm) hle
    fecs_lt := fun m hm => lt_of_lt_of_le (h.fecs_lt m hm) hle
    red_slots := by rw [hred, h.red_slots]
    fec_slots := by rw [hfec, h.fec_slots]
    red_count := by rw [hreds, h.red_count]
    fec_count := by rw [hfecs, h.fec_count] }

/-- A tracker is ready for the credits of a packet whose primary it has just
    counted. -/
theorem ready_of_tracked {s : Stream} {before after : List Nat} {n : Nat} {t : Tracker}
    (horder : Red.InOrder 32767 (before ++ n :: after)) (hhead : (before ++ [n]).head? = some 0)
    (h : Tracked s (before ++ [n]) 0 n t) : Ready s (before ++ n :: after) n t := by
  have hprefix : Red.InOrder 32767 (before ++ [n]) := by
    rw [← List.singleton_append, ← List.append_assoc] at horder
    exact List.IsChain.left_of_append horder
  -- Packets that arrive later lie ahead of it, so they do not matter for the ones before
  -- it.
  have hmem : ∀ m, m < n → (m ∈ before ++ [n] ↔ m ∈ before ++ n :: after) := by
    intro m hm
    rw [← List.singleton_append (l := after), ← List.append_assoc,
      List.mem_append (s := before ++ [n]),
      or_iff_left fun hin => absurd (horder.split.2 m hin) (by omega)]
  refine ⟨h.config_eq, fun m hm hnear => ?_, fun m hm hlost => ?_⟩
  · rw [h.contains_iff hprefix List.getLast?_concat m (le_of_lt hm) (by omega), hmem m hm]
  · rw [h.lost_eq_missing hprefix hhead List.getLast?_concat]
    exact missing_ne_zero m (Nat.zero_le m) hm fun hin => hlost ((hmem m hm).mp hin)

/-- Packet 0 asks for nothing: there is no earlier packet to carry, and its correction data
    is for none. -/
theorem credits_zero (s : Stream) (hfirst : ∀ n, (s.block n 0).hasFec = false) :
    s.credits 0 = [] := by
  have hcarried : s.carried 0 = [] :=
    List.eq_nil_iff_forall_not_mem.mpr fun m hm => Nat.not_lt_zero m (s.carried_lt 0 m hm)
  rw [Stream.credits, Stream.corrections, hfirst 0, hcarried]
  rfl

/-- The ledger is empty when only the first packet has arrived. Nothing is lost yet, so
    whatever that packet asks for is denied, and there is no packet that could have been
    lost before it. -/
theorem ledger_first (s : Stream) (arrivals : List Nat)
    (hfirst : ∀ n, (s.block n 0).hasFec = false) :
    Ledger s arrivals 1 [] [] [] (s.track [0]) := by
  have htrack : s.track [0]
      = (Tracker.ofConfig {}).countPrimary (s.sequenceOf 0) (s.time 0) := by
    -- Packet 0 asks for nothing: it carries no other, and is without correction data.
    change s.receive (.ofConfig {}) 0 = _
    rw [s.receive_eq _ 0 (countPrimary_first s 0).1, credits_zero s hfirst]
    rfl
  have hempty : (Window.empty 21).slots = written 21 [] := by
    rw [Window.slots_empty 21 (by omega), written_nil]
  rw [htrack]
  exact
    { sound := fun c hc => absurd hc List.not_mem_nil
      complete := by
        intro n _ hn c hc
        -- Only packet 0 is done with, and it has asked for no credit.
        obtain rfl : n = 0 := by omega
        rw [credits_zero s hfirst] at hc
        exact hc
      mem_reds := fun m =>
        ⟨fun hm => absurd hm List.not_mem_nil, fun hm => absurd hm.2 List.not_mem_nil⟩
      mem_fecs := fun m hm => absurd hm List.not_mem_nil
      mem_either := fun m _ hdone => absurd hdone List.not_mem_nil
      nodup_reds := List.nodup_nil
      nodup_fecs := List.nodup_nil
      order_reds := List.Pairwise.nil
      order_fecs := List.Pairwise.nil
      reds_lt := fun m hm => absurd hm List.not_mem_nil
      fecs_lt := fun m hm => absurd hm List.not_mem_nil
      red_slots := hempty
      fec_slots := hempty
      red_count := rfl
      fec_count := rfl }

/-- One more packet is taken in, and all its credits go on the ledger. Its primary is
    counted first, which touches neither the lists nor the rings of credits. -/
theorem ledger_next {s : Stream} {before after : List Nat} {m n : Nat} {done : List Credit}
    {reds fecs : List Nat} (hrenewed : s.Renewed (before ++ m :: n :: after))
    (hfirst : ∀ n, (s.block n 0).hasFec = false)
    (horder : Red.InOrder 32767 (before ++ m :: n :: after))
    (hhead : (before ++ [m]).head? = some 0)
    (h : Ledger s (before ++ m :: n :: after) (m + 1) done reds fecs (s.track (before ++ [m]))) :
    ∃ done reds fecs, Ledger s (before ++ m :: n :: after) (n + 1) done reds fecs
      (s.track (before ++ [m] ++ [n])) := by
  have hlist : before ++ m :: n :: after = (before ++ [m]) ++ n :: after := by
    rw [List.append_assoc, List.singleton_append]
  have hsplit : Red.InOrder 32767 ((before ++ [m]) ++ n :: after) := hlist ▸ horder
  have hnext := horder.next
  have hbetween := horder.between
  have hhead' : (before ++ [m] ++ [n]).head? = some 0 := by
    rw [List.head?_append, hhead, Option.some_or]
  have htracked := tracked_track s (before ++ [m]) 0 m (List.IsChain.left_of_append hsplit) hhead
    List.getLast?_concat
  have hreceive := (tracked_receive s _ 0 m n _ htracked hnext.1 hnext.2).1
  -- By the time it asks for credits, its own primary has been counted.
  have hready := ready_of_tracked hsplit hhead' (tracked_countAhead s _ 0 m n _ htracked hnext.1)
  have hbound : n ∈ before ++ m :: n :: after := by
    rw [hlist]
    exact List.mem_append_right _ List.mem_cons_self
  rw [← hlist] at hready
  -- The primary is counted, the credits are given one by one, and then the packet is done with.
  have hstart := h.advance n ((s.track (before ++ [m])).countAhead (s.sequenceOf n) (s.time n)
    (n - m)) hnext.1 (fun k hk hlt => h.complete k hk (hbetween k hk hlt)) rfl rfl rfl rfl
  rcases credits_run hrenewed hbound hfirst (s.credits n) done reds fecs _ (fun c hc => hc)
    hstart hready with ⟨reds', fecs', hend⟩
  refine ⟨done ++ s.credits n, reds', fecs', ?_⟩
  rw [s.track_concat, hreceive]
  refine hend.advance (n + 1) _ (Nat.le_succ n) (fun k hk hlt c hc => ?_) rfl rfl rfl rfl
  rcases Nat.lt_succ_iff_lt_or_eq.mp hlt with hold | rfl
  · exact hend.complete k hk hold c hc
  · exact List.mem_append_right _ hc

/-- Once a packet has been taken in, the ledger is what all packets up to it asked for. The
    packets that are still to come matter too, since a lost packet may be asked for again by
    any of them. -/
theorem ledger_track (s : Stream) (arrivals : List Nat) (hrenewed : s.Renewed arrivals)
    (hfirst : ∀ n, (s.block n 0).hasFec = false) (horder : Red.InOrder 32767 arrivals)
    (hhead : arrivals.head? = some 0) (before : List Nat) :
    ∀ (n : Nat) (after : List Nat), arrivals = before ++ n :: after →
      ∃ done reds fecs, Ledger s arrivals (n + 1) done reds fecs (s.track (before ++ [n])) := by
  -- By induction on the packets before it, the last one first, as the tracker has taken
  -- them in.
  induction before using List.reverseRecOn with
  | nil =>
      intro n after harrivals
      rw [harrivals] at hhead
      obtain rfl : n = 0 := Option.some.inj hhead
      exact ⟨[], [], [], ledger_first s arrivals hfirst⟩
  | append_singleton before m ih =>
      intro n after harrivals
      have hlist : arrivals = before ++ m :: n :: after := by
        rw [harrivals, List.append_assoc, List.singleton_append]
      rcases ih m (n :: after) hlist with ⟨done, reds, fecs, h⟩
      have hhead' : (before ++ [m]).head? = some 0 := by
        rw [hlist, List.head?_append] at hhead
        rw [List.head?_append]
        exact hhead
      rw [hlist] at h hrenewed horder ⊢
      exact ledger_next hrenewed hfirst horder hhead' h

end Loss

end RedundantAudio
