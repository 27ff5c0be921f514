import RedundantAudio.Proofs.Loss.Grants
import RedundantAudio.Proofs.Loss.Ledger

/-!
# Joining a Stream That Is Under Way

A receiver may hear a stream from any packet on. What was sent before that is
not lost, since it was never expected; but packets carry older ones, and the
first few that arrive ask for credits on behalf of packets from before the
first. The tracker denies a credit while nothing is lost. From the first loss
on it gives those credits as well, and counts more packets as made good than
it has lost.

How many more can be said exactly. A packet asks for others that are at most
six intervals old, and a loss puts the packet that reveals it two behind the
first, so there are four packets before the first that can be credited. All
other credits are for packets that are counted as lost, and none is counted
twice: `recoveries_le` is the bound, and `grantedFor_iff` says when it is not
the losses alone.

As in `Ledger`, lists stand behind the rings. Here nothing is asked of the
stream, so a ring may take a packet for a namesake that was credited a whole lap
ago. That can only deny a credit, or take one back. `Book` makes do with what
holds all the same.

Credits are told by *places*: the place of a packet is the number of the packet
behind it, so that the packet before packet 0, which correction data may be
for, has one as well.

## Main definitions

* `Credit.place`: The place that a credit is for.
* `Stream.counted`: The tracker when the primary of a packet is counted.
* `Stream.GrantedFor`: A credit is given for a place.
* `Stream.AskedFor`: A credit is asked for after a loss.
* `Kept`: What a list of credits keeps to.
* `Book`: The credits of a tracker, whatever it takes for a namesake.

## Theorems

* `Book.giveRed`, `Book.takeOver`, `Book.giveFec`: A credit that is given.
* `Book.credit`: A credit that is asked for.
* `book_track`: The credits of a run.
* `Stream.GrantedFor.absent`: A credit is for a packet that has not arrived.
* `grantedFor_iff`: When a credit is for a packet from before the first.
* `recoveries_le`: How many more recoveries there are than losses.
-/

namespace RedundantAudio

namespace Loss

/-- The place that a credit is for: the number of the packet behind the one
    that is to be made good. -/
def Credit.place : Credit → Nat
  | .red m => m + 1
  | .fec m => m

namespace Stream

variable (s : Stream)

/-- The media time of the packet at a place. -/
def placeTime (p : Nat) : UInt32 :=
  s.time p - Red.packetInterval

/-- The media time that a credit is kept under is the time of its place, whichever mechanism
    asks for it. -/
theorem creditTime_eq_placeTime (c : Credit) : s.creditTime c = s.placeTime c.place := by
  cases c with
  | red m => exact (time_sub_interval s m).symm
  | fec m => rfl

theorem placeTime_eq_iff (p q : Nat) :
    s.placeTime p = s.placeTime q ↔ p % 2 ^ 26 = q % 2 ^ 26 := by
  rw [placeTime, placeTime, UInt32.sub_left_inj]
  exact Red.packetTime_eq_iff s.start p q

/-- A packet asks for places right before it, or for the one that is its own: the correction
    data of its primary is for the packet before. -/
theorem near_of_place {n : Nat} {c : Credit} (hasked : c ∈ s.credits n) :
    c.place ≤ n ∧ n ≤ c.place + 5 := by
  cases c with
  | red m =>
      -- A credit to redundancy is for a packet that is carried, which is at most six
      -- packets old.
      have hcarried := (s.red_mem_credits n m).mp hasked
      have hlt := s.carried_lt n m hcarried
      have hnear := s.carried_near n m hcarried
      change m + 1 ≤ n ∧ n ≤ m + 1 + 5
      omega
  | fec m =>
      change m ≤ n ∧ n ≤ m + 5
      rcases ((s.fec_mem_credits n m).mp hasked).1 with rfl | hcarried
      · omega
      · have hlt := s.carried_lt n m hcarried
        have hnear := s.carried_near n m hcarried
        omega

/-- The tracker when packets have arrived, and then the primary of another one
    has been counted. -/
def counted (before : List Nat) (n : Nat) : Tracker :=
  (s.track before).countPrimary (s.sequenceOf n) (s.time n)

/-- While packets arrive, a credit is given for a place. -/
def GrantedFor (arrivals : List Nat) (p : Nat) : Prop :=
  ∃ before n after asked c later, arrivals = before ++ n :: after ∧
    s.credits n = asked ++ c :: later ∧
    s.Granted (asked.foldl s.credit (s.counted before n)) c ∧ c.place = p

/-- While packets arrive, a credit is asked for on behalf of a place, at a
    moment when packets are missing. -/
def AskedFor (arrivals : List Nat) (first p : Nat) : Prop :=
  ∃ before n after, arrivals = before ++ n :: after ∧ missing (before ++ [n]) first n ≠ 0 ∧
    ∃ c ∈ s.credits n, c.place = p

/-- A credit that is given remains so when more packets arrive, even if it is taken back
    later on. -/
theorem GrantedFor.append {s : Stream} {arrivals : List Nat} {p : Nat}
    (h : s.GrantedFor arrivals p) (more : List Nat) : s.GrantedFor (arrivals ++ more) p := by
  rcases h with ⟨before, n, after, asked, c, later, rfl, hcredits, hgiven, hplace⟩
  refine ⟨before, n, after ++ more, asked, c, later, ?_, hcredits, hgiven, hplace⟩
  rw [List.append_assoc, List.cons_append]

end Stream

/-! ### Lists of credits -/

/-- The places of some credits in the order in which they were given, by
    packets up to a bound. -/
structure Kept (bound : Nat) (places : List Nat) : Prop where
  nodup : places.Nodup
  order : places.Pairwise fun p q => p ≤ q + 5
  le_bound : ∀ p ∈ places, p ≤ bound

namespace Kept

variable {bound : Nat} {places : List Nat}

theorem nil (bound : Nat) : Kept bound [] :=
  ⟨List.nodup_nil, List.Pairwise.nil, List.forall_mem_nil _⟩

theorem mono (h : Kept bound places) {bound' : Nat} (hle : bound ≤ bound') : Kept bound' places :=
  { h with le_bound := fun p hp => (h.le_bound p hp).trans hle }

/-- A new place keeps to the order, because a packet reaches only five places back. -/
theorem concat (h : Kept bound places) {p : Nat} (hp : p ∉ places) (hle : p ≤ bound)
    (hnear : bound ≤ p + 5) : Kept bound (places ++ [p]) where
  nodup := nodup_concat h.nodup hp
  order := Ledger.order_concat h.order (fun q hq => Nat.lt_succ_of_le (h.le_bound q hq))
    (Nat.succ_le_succ hnear)
  le_bound := List.forall_mem_append.mpr ⟨h.le_bound, List.forall_mem_singleton.mpr hle⟩

/-- A place that can still be asked for is among the last ones. -/
theorem recent (h : Kept bound places) {p : Nat} (hp : p ∈ places) (hnear : bound ≤ p + 5) :
    Recent 21 places p :=
  recent_of_bounded 21 5 (bound + 1) places p h.nodup h.order
    (fun q hq => Nat.lt_succ_of_le (h.le_bound q hq)) hp (by omega)

end Kept

/-- What is written to the ring of corrected packets: the slots that were
    cleared are empty. -/
def placeSlot (s : Stream) (cleared : List Nat) (p : Nat) : Option UInt32 :=
  if p ∈ cleared then none else some (s.placeTime p)

theorem placeSlot_eq_some {s : Stream} {cleared : List Nat} {p : Nat} {time : UInt32} :
    placeSlot s cleared p = some time ↔ p ∉ cleared ∧ s.placeTime p = time := by
  rw [placeSlot]
  by_cases hp : p ∈ cleared
  · rw [if_pos hp]
    exact iff_of_false (fun heq => by cases heq) fun hno => hno.1 hp
  · rw [if_neg hp, Option.some.injEq, and_iff_right hp]

/-- The credits of a tracker: `reds` and `fecs` are the places of all that were
    ever given, and those that were taken back from correction data are on
    `cleared`. -/
structure Book (s : Stream) (given : Nat → Prop) (bound : Nat) (reds fecs cleared : List Nat)
    (t : Tracker) : Prop where
  config_eq : t.config = {}
  given_red : ∀ p ∈ reds, given p
  given_fec : ∀ p ∈ fecs, given p
  kept_reds : Kept bound reds
  kept_fecs : Kept bound fecs
  red_slots : t.redCredits.slots = written 21 (reds.map fun p => some (s.placeTime p))
  fec_slots : t.fecCredits.slots = written 21 (fecs.map (placeSlot s cleared))
  /-- The slots of a ring hold different times, and no time is on both. -/
  fec_inj : ∀ p q, Recent 21 fecs p → Recent 21 fecs q → p ∉ cleared → q ∉ cleared →
    s.placeTime p = s.placeTime q → p = q
  apart : ∀ time, t.redCredits.contains time = true → t.fecCredits.contains time = false
  /-- A credit is cleared in favour of its own place or of a namesake. -/
  cleared_or : ∀ p ∈ cleared, p ∈ reds ∨ p + 2 ^ 26 ≤ bound
  cleared_of_both : ∀ p ∈ reds, p ∈ fecs → p ∈ cleared
  red_count : t.counters.recoveredRed = reds.length
  fec_count : t.counters.recoveredFec = (fecs.filter (· ∉ cleared)).length

namespace Book

variable {s : Stream} {given : Nat → Prop} {bound : Nat} {reds fecs cleared : List Nat}
  {t : Tracker}

/-- The ring of repeated packets holds a time if one of the last 21 places on the list has
    it. Which one it is, the ring does not tell. -/
theorem contains_red_iff (h : Book s given bound reds fecs cleared t) (time : UInt32) :
    t.redCredits.contains time = true ↔ ∃ p, Recent 21 reds p ∧ s.placeTime p = time := by
  rw [Window.contains_iff, h.red_slots, mem_written_map]
  simp only [Option.some.injEq]

/-- The ring of corrected packets holds a time if one of the last 21 places on that list has
    it and was not cleared. -/
theorem contains_fec_iff (h : Book s given bound reds fecs cleared t) (time : UInt32) :
    t.fecCredits.contains time = true ↔
      ∃ p, Recent 21 fecs p ∧ p ∉ cleared ∧ s.placeTime p = time := by
  rw [Window.contains_iff, h.fec_slots, mem_written_map]
  simp only [placeSlot_eq_some]

/-- A place that can be asked for, and is not on the ring of repeated packets,
    was never repeated. -/
theorem not_mem_reds (h : Book s given bound reds fecs cleared t) {p : Nat}
    (hnear : bound ≤ p + 5) (hno : t.redCredits.contains (s.placeTime p) = false) : p ∉ reds := by
  intro hp
  have hyes := (h.contains_red_iff _).mpr ⟨p, h.kept_reds.recent hp hnear, rfl⟩
  rw [hno] at hyes
  cases hyes

/-- If it was corrected, and is not on that ring, the credit was taken back. -/
theorem mem_cleared (h : Book s given bound reds fecs cleared t) {p : Nat}
    (hnear : bound ≤ p + 5) (hno : t.fecCredits.contains (s.placeTime p) = false)
    (hp : p ∈ fecs) : p ∈ cleared := by
  by_contra hcleared
  have hyes := (h.contains_fec_iff _).mpr ⟨p, h.kept_fecs.recent hp hnear, hcleared, rfl⟩
  rw [hno] at hyes
  cases hyes

/-- A place that can be asked for was not cleared for a namesake. -/
theorem mem_reds_of_cleared (h : Book s given bound reds fecs cleared t) {p : Nat}
    (hnear : bound ≤ p + 5) (hp : p ∈ cleared) : p ∈ reds := by
  rcases h.cleared_or p hp with hred | hold
  · exact hred
  · -- A lap ago is further back than a packet can ask for.
    omega

/-- The slot of a corrected packet is cleared, and no other one. Removing a time empties one
    slot that holds it, and there is no other: the slots of the ring hold different times,
    even where two places share one, since the second was not written while the first was
    held. -/
theorem slots_remove (h : Book s given bound reds fecs cleared t) {q : Nat}
    (hq : Recent 21 fecs q) (hcleared : q ∉ cleared) :
    (t.fecCredits.remove (s.placeTime q)).slots
      = written 21 (fecs.map (placeSlot s (cleared ++ [q]))) := by
  -- The times on the ring are all different, so only one slot can match.
  have hother : ∀ p, Recent 21 fecs p → p ∉ cleared → s.placeTime p = s.placeTime q → p = q :=
    fun p hp hpc htime => h.fec_inj p q hp hq hpc hcleared htime
  rw [slots_remove_written h.fec_slots _ q h.kept_fecs.nodup fun p hp hslot =>
    hother p hp (placeSlot_eq_some.mp hslot).1 (placeSlot_eq_some.mp hslot).2]
  refine written_map_congr 21 _ _ _ fun p hp => ?_
  by_cases hpc : p ∈ cleared
  · rw [placeSlot, placeSlot, if_pos hpc, if_pos (List.mem_append_left _ hpc), Window.cleared,
      ite_self]
  rw [placeSlot, placeSlot, if_neg hpc, Window.cleared]
  by_cases hpq : p = q
  · rw [hpq, if_pos rfl, if_pos (List.mem_append_right _ List.mem_cons_self)]
  · have htime : ¬ some (s.placeTime p) = some (s.placeTime q) := fun heq =>
      hpq (hother p hp hpc (Option.some.inj heq))
    have hnot : p ∉ cleared ++ [q] := by
      rw [List.mem_append, List.mem_singleton]
      exact not_or.mpr ⟨hpc, hpq⟩
    rw [if_neg htime, if_neg hnot]

/-- With the slot, its time is gone from the ring, since it was not on it twice. All other
    times stay. -/
theorem contains_remove (h : Book s given bound reds fecs cleared t) {q : Nat}
    (hq : Recent 21 fecs q) (hqc : q ∉ cleared) {time : UInt32}
    (hin : (t.fecCredits.remove (s.placeTime q)).contains time = true) :
    t.fecCredits.contains time = true ∧ time ≠ s.placeTime q := by
  refine ⟨Window.contains_remove hin, ?_⟩
  rintro rfl
  rw [Window.contains_iff, h.slots_remove hq hqc, mem_written_map] at hin
  rcases hin with ⟨p, hp, hslot⟩
  rw [placeSlot_eq_some, List.mem_append, List.mem_singleton, not_or] at hslot
  exact hslot.1.2 (h.fec_inj p q hp hq hslot.1.1 hqc hslot.2)

/-- A repeated packet takes a slot. -/
theorem red_slots_concat (h : Book s given bound reds fecs cleared t) (p : Nat) :
    (t.redCredits.add (s.placeTime p)).slots
      = written 21 ((reds ++ [p]).map fun p => some (s.placeTime p)) := by
  rw [List.map_append]
  exact slots_add_written 21 (by omega) _ _ _ h.red_slots

theorem red_count_concat (h : Book s given bound reds fecs cleared t) (p : Nat) :
    t.counters.recoveredRed + 1 = (reds ++ [p]).length := by
  rw [List.length_append, List.length_singleton, h.red_count]

/-- What is on the ring of repeated packets was there, or is the new time. -/
theorem apart_add (h : Book s given bound reds fecs cleared t) {p : Nat} {time : UInt32}
    (hin : (t.redCredits.add (s.placeTime p)).contains time = true) :
    t.fecCredits.contains time = false ∨ time = s.placeTime p :=
  (Window.contains_add hin).imp (h.apart time) Eq.symm

/-- A credit to redundancy, for a time that correction data has none for. The first list
    grows by the place, and what has to be shown anew is that its times are still different
    on the ring and that the two rings have none in common. -/
theorem giveRed (h : Book s given bound reds fecs cleared t) {p : Nat} (hle : p ≤ bound)
    (hnear : bound ≤ p + 5) (hgiven : given p)
    (hred : t.redCredits.contains (s.placeTime p) = false)
    (hfec : t.fecCredits.contains (s.placeTime p) = false) :
    Book s given bound (reds ++ [p]) fecs cleared
      { t with
        counters.recoveredRed := t.counters.recoveredRed + 1
        redCredits := t.redCredits.add (s.placeTime p) } :=
  { h with
    given_red := List.forall_mem_append.mpr ⟨h.given_red, List.forall_mem_singleton.mpr hgiven⟩
    kept_reds := h.kept_reds.concat (h.not_mem_reds hnear hred) hle hnear
    red_slots := h.red_slots_concat p
    -- The new time is the only one that could now be on both rings.
    apart := by
      intro time hin
      rcases h.apart_add hin with hold | rfl
      · exact hold
      · exact hfec
    cleared_or := fun a ha => (h.cleared_or a ha).imp (List.mem_append_left _) id
    cleared_of_both := List.forall_mem_append.mpr
      ⟨h.cleared_of_both, List.forall_mem_singleton.mpr (h.mem_cleared hnear hfec)⟩
    red_count := h.red_count_concat p }

/-- A credit to redundancy, for a time that correction data has one for: that one is taken
    back, whichever place it was given for. The place that loses its credit goes on the list
    of those that are cleared, so the sum of the two counters stays as it was. -/
theorem takeOver (h : Book s given bound reds fecs cleared t) {p q : Nat} (hle : p ≤ bound)
    (hnear : bound ≤ p + 5) (hgiven : given p)
    (hred : t.redCredits.contains (s.placeTime p) = false) (hq : Recent 21 fecs q)
    (hqc : q ∉ cleared) (htime : s.placeTime q = s.placeTime p) :
    Book s given bound (reds ++ [p]) fecs (cleared ++ [q])
      { t with
        counters.recoveredRed := t.counters.recoveredRed + 1
        counters.recoveredFec := t.counters.recoveredFec - 1
        redCredits := t.redCredits.add (s.placeTime p)
        fecCredits := t.fecCredits.remove (s.placeTime p) } where
  config_eq := h.config_eq
  given_red := List.forall_mem_append.mpr ⟨h.given_red, List.forall_mem_singleton.mpr hgiven⟩
  given_fec := h.given_fec
  kept_reds := h.kept_reds.concat (h.not_mem_reds hnear hred) hle hnear
  kept_fecs := h.kept_fecs
  red_slots := h.red_slots_concat p
  fec_slots := htime ▸ h.slots_remove hq hqc
  fec_inj a b ha hb hac hbc :=
    h.fec_inj a b ha hb (fun hin => hac (List.mem_append_left _ hin))
      fun hin => hbc (List.mem_append_left _ hin)
  -- The new time was on the other ring, and is cleared there.
  apart := by
    intro time hin
    refine Bool.eq_false_iff.mpr fun hout => ?_
    rcases h.contains_remove hq hqc (htime ▸ hout) with ⟨hstill, hne⟩
    rcases h.apart_add hin with hold | rfl
    · rw [hold] at hstill
      cases hstill
    · exact hne htime.symm
  cleared_or := by
    -- If the credit was for another place, that one is a lap away.
    have hqor : q ∈ reds ++ [p] ∨ q + 2 ^ 26 ≤ bound := by
      by_cases hqp : q = p
      · exact Or.inl (hqp ▸ List.mem_append_right _ List.mem_cons_self)
      · have hmod := (s.placeTime_eq_iff q p).mp htime
        have hqle := h.kept_fecs.le_bound q hq.mem
        right
        omega
    exact List.forall_mem_append.mpr
      ⟨fun a ha => (h.cleared_or a ha).imp (List.mem_append_left _) id,
        List.forall_mem_singleton.mpr hqor⟩
  -- If the new place was corrected as well, the credit that is cleared is its own.
  cleared_of_both := by
    have hp : p ∈ fecs → p ∈ cleared ++ [q] := by
      intro hpfec
      by_cases hpc : p ∈ cleared
      · exact List.mem_append_left _ hpc
      · have hpq := h.fec_inj p q (h.kept_fecs.recent hpfec hnear) hq hpc hqc htime.symm
        exact List.mem_append_right _ (List.mem_singleton.mpr hpq)
    exact List.forall_mem_append.mpr
      ⟨fun a ha hafec => List.mem_append_left _ (h.cleared_of_both a ha hafec),
        List.forall_mem_singleton.mpr hp⟩
  red_count := h.red_count_concat p
  fec_count := by
    rw [Ledger.length_filter_concat h.kept_fecs.nodup q hqc, if_pos hq.mem, ← h.fec_count]

/-- A credit to correction data. Neither ring may hold the time, so the second list grows by
    the place. It cannot be one of those that were cleared: these went to redundancy, which
    has no credit for this time. -/
theorem giveFec (h : Book s given bound reds fecs cleared t) {p : Nat} (hle : p ≤ bound)
    (hnear : bound ≤ p + 5) (hgiven : given p)
    (hred : t.redCredits.contains (s.placeTime p) = false)
    (hfec : t.fecCredits.contains (s.placeTime p) = false) :
    Book s given bound reds (fecs ++ [p]) cleared
      { t with
        counters.recoveredFec := t.counters.recoveredFec + 1
        fecCredits := t.fecCredits.add (s.placeTime p) } := by
  -- A credit that was taken back went to redundancy, which has none here.
  have hnotred := h.not_mem_reds hnear hred
  have hnotcleared : p ∉ cleared := fun hin => hnotred (h.mem_reds_of_cleared hnear hin)
  have hnew : p ∉ fecs := fun hin => hnotcleared (h.mem_cleared hnear hfec hin)
  -- The new time was not on the ring.
  have hfree : ∀ q, Recent 20 fecs q → q ∉ cleared → s.placeTime q ≠ s.placeTime p := by
    rintro q ⟨before, after, heq, hlength⟩ hqc htime
    rw [(h.contains_fec_iff _).mpr ⟨q, ⟨before, after, heq, by omega⟩, hqc, htime⟩] at hfec
    cases hfec
  exact
    { h with
      given_fec := List.forall_mem_append.mpr
        ⟨h.given_fec, List.forall_mem_singleton.mpr hgiven⟩
      kept_fecs := h.kept_fecs.concat hnew hle hnear
      fec_slots := by
        have hslot : placeSlot s cleared p = some (s.placeTime p) := if_neg hnotcleared
        rw [List.map_append, List.map_singleton, hslot]
        exact slots_add_written 21 (by omega) _ _ _ h.fec_slots
      -- Two of the last 21 are two of the last 20, or one of them is the new one.
      fec_inj := by
        intro a b ha hb hac hbc htime
        rcases (recent_concat 20 fecs p a).mp ha with rfl | haold
        · rcases (recent_concat 20 fecs a b).mp hb with rfl | hbold
          · rfl
          · exact absurd htime.symm (hfree b hbold hbc)
        · rcases (recent_concat 20 fecs p b).mp hb with rfl | hbold
          · exact absurd htime (hfree a haold hac)
          · rcases haold with ⟨before, after, heq, hlength⟩
            rcases hbold with ⟨before', after', heq', hlength'⟩
            exact h.fec_inj a b ⟨before, after, heq, by omega⟩
              ⟨before', after', heq', by omega⟩ hac hbc htime
      -- The new time was on neither ring before.
      apart := by
        intro time hin
        refine Bool.eq_false_iff.mpr fun hout => ?_
        rcases Window.contains_add hout with hold | rfl
        · rw [h.apart time hin] at hold
          cases hold
        · rw [hred] at hin
          cases hin
      cleared_of_both := by
        intro a ha hafec
        rcases List.mem_append.mp hafec with hold | hnew
        · exact h.cleared_of_both a ha hold
        · rw [List.mem_singleton.mp hnew] at ha
          exact absurd ha hnotred
      fec_count := by
        rw [List.filter_append, List.length_append, ← h.fec_count, List.filter_singleton,
          decide_eq_true hnotcleared]
        rfl }

/-- A credit that is not given leaves the tracker as it is. Redundancy would
    take over from correction data, but never finds both to have the same
    time. -/
theorem credit_of_not_granted (h : Book s given bound reds fecs cleared t) (c : Credit)
    (hno : ¬ s.Granted t c) : s.credit t c = t := by
  rw [s.granted_iff t h.config_eq c] at hno
  -- Nothing is lost, or the packet is on record, or the credit is held already.
  by_cases hidle : t.counters.lost = 0 ∨ t.primaries.contains (s.creditTime c) = true
  · cases c with
    | red m => exact creditRed_idle t _ hidle
    | fec m =>
        refine creditFec_idle t _ ?_
        rw [h.config_eq]
        exact hidle.imp id Or.inl
  rw [not_or, Bool.not_eq_true] at hidle
  -- All that is left is that the credit has been given before.
  have hheld : s.Held t c := by
    by_contra hfree
    exact hno ⟨hidle.1, hidle.2, hfree⟩
  cases c with
  | red m => exact creditRed_again t _ hheld (h.apart _ hheld)
  | fec m =>
      refine creditFec_idle t _ (Or.inr (Or.inr ?_))
      rw [h.config_eq]
      exact hheld

/-- A credit that is asked for, by a packet that may ask for it. Whether or not it is given,
    there are lists that stand behind the rings as before; where it is not given, they are
    the same ones. -/
theorem credit (h : Book s given bound reds fecs cleared t) (c : Credit) (hle : c.place ≤ bound)
    (hnear : bound ≤ c.place + 5) (hgiven : s.Granted t c → given c.place) :
    ∃ reds' fecs' cleared', Book s given bound reds' fecs' cleared' (s.credit t c) := by
  by_cases hgranted : s.Granted t c
  · rcases (s.granted_iff t h.config_eq c).mp hgranted with ⟨hlost, hprimary, hheld⟩
    have hdue := hgiven hgranted
    cases c with
    | red m =>
        have htime : s.time m = s.placeTime (m + 1) := s.creditTime_eq_placeTime (.red m)
        have hred : t.redCredits.contains (s.time m) = false := Bool.eq_false_iff.mpr hheld
        rw [htime] at hred
        change t.primaries.contains (s.time m) = false at hprimary
        change ∃ reds' fecs' cleared', Book s given bound _ _ _ (t.creditRed (s.time m))
        rw [creditRed_new t _ hlost hprimary (htime ▸ hred), htime]
        -- Correction data may have a credit for this time, though not for this place.
        cases hfec : t.fecCredits.contains (s.placeTime (m + 1)) with
        | true =>
            rcases (h.contains_fec_iff _).mp hfec with ⟨q, hq, hqc, hplace⟩
            exact ⟨reds ++ [m + 1], fecs, cleared ++ [q],
              h.takeOver hle hnear hdue hred hq hqc hplace⟩
        | false => exact ⟨reds ++ [m + 1], fecs, cleared, h.giveRed hle hnear hdue hred hfec⟩
    | fec m =>
        have htime : s.time m - t.config.packetizationTime = s.placeTime m := by
          rw [h.config_eq]
          rfl
        rw [Stream.Held, Credited, not_or, Bool.not_eq_true, Bool.not_eq_true] at hheld
        have hgive := h.giveFec hle hnear hdue hheld.1 hheld.2
        change ∃ reds' fecs' cleared', Book s given bound _ _ _ (t.creditFec (s.time m))
        rw [creditFec_new t _ hlost (htime ▸ hprimary) (htime ▸ hheld.1) (htime ▸ hheld.2), htime]
        exact ⟨reds, fecs ++ [m], cleared, hgive⟩
  · rw [h.credit_of_not_granted c hgranted]
    exact ⟨reds, fecs, cleared, h⟩

/-- Another primary has been counted, which touches no credit. The bound moves on, and more
    credits than before may be given for. -/
theorem advance (h : Book s given bound reds fecs cleared t) (given' : Nat → Prop)
    (hgiven : ∀ p, given p → given' p) (n : Nat) (hle : bound ≤ n) (sequence : UInt16)
    (time : UInt32) (distance : Nat) :
    Book s given' n reds fecs cleared (t.countAhead sequence time distance) :=
  { h with
    given_red := fun p hp => hgiven p (h.given_red p hp)
    given_fec := fun p hp => hgiven p (h.given_fec p hp)
    kept_reds := h.kept_reds.mono hle
    kept_fecs := h.kept_fecs.mono hle
    cleared_or := fun p hp => (h.cleared_or p hp).imp id fun hold => hold.trans hle }

/-- The first primary has been counted: the books are empty, as no credit was asked for yet.
    This holds whatever packet it is, since none of the ones before it is expected. -/
theorem first (s : Stream) (given : Nat → Prop) (n : Nat) :
    Book s given n [] [] [] (s.counted [] n) where
  config_eq := rfl
  given_red := List.forall_mem_nil _
  given_fec := List.forall_mem_nil _
  kept_reds := Kept.nil n
  kept_fecs := Kept.nil n
  red_slots := (Window.slots_empty 21 (by omega)).trans (written_nil 21).symm
  fec_slots := (Window.slots_empty 21 (by omega)).trans (written_nil 21).symm
  fec_inj _ _ ha := absurd ha.mem List.not_mem_nil
  apart time hin := absurd (Or.inl hin) (not_credited_ofConfig time)
  cleared_or := List.forall_mem_nil _
  cleared_of_both := List.forall_mem_nil _
  red_count := rfl
  fec_count := rfl

end Book

/-! ### Packets -/

section Packets

variable (s : Stream)

/-- The accounts of primaries when the primary of a packet is counted. The credits of the
    packet are then given one after the other, from a tracker whose losses do not change any
    more. -/
theorem tracked_counted (before : List Nat) (n : Nat) {first : Nat}
    (horder : Red.InOrder 32767 (before ++ [n])) (hhead : (before ++ [n]).head? = some first) :
    Tracked s (before ++ [n]) first n (s.counted before n) ∧
      s.receive (s.track before) n = (s.credits n).foldl s.credit (s.counted before n) := by
  -- The first packet is counted by a branch of its own.
  cases hm : before.getLast? with
  | none =>
      obtain rfl : before = [] := List.getLast?_eq_none_iff.mp hm
      obtain rfl : n = first := Option.some.inj hhead
      have hfirst := countPrimary_first s n
      exact ⟨hfirst.2, s.receive_eq _ n hfirst.1⟩
  | some m =>
      have hhead' := Red.head?_of_concat hhead hm
      rcases horder.init hm with ⟨hbefore, hlt, hgap⟩
      have htracked := tracked_track s before first m hbefore hhead' hm
      have hahead := countPrimary_ahead s m n _ htracked.newest_eq hlt hgap
      have hcounted := tracked_countAhead s before first m n _ htracked hlt
      rw [← hahead.2] at hcounted
      exact ⟨hcounted, s.receive_eq _ n hahead.1⟩

/-- What is on the books when a packet has asked for some of its credits, by induction on
    the credits in the order in which it asks. -/
theorem book_credits (before : List Nat) (n : Nat) {reds fecs cleared : List Nat}
    (h : Book s (s.GrantedFor (before ++ [n])) n reds fecs cleared (s.counted before n))
    (asked : List Credit) :
    ∀ later, s.credits n = asked ++ later →
      ∃ reds' fecs' cleared', Book s (s.GrantedFor (before ++ [n])) n reds' fecs' cleared'
        (asked.foldl s.credit (s.counted before n)) := by
  induction asked using List.reverseRecOn with
  | nil =>
      intro later _
      exact ⟨reds, fecs, cleared, h⟩
  | append_singleton asked c ih =>
      intro later hcredits
      rw [← List.append_cons] at hcredits
      rcases ih (c :: later) hcredits with ⟨reds', fecs', cleared', h'⟩
      have hc : c ∈ s.credits n := by
        rw [hcredits]
        exact List.mem_append_right _ List.mem_cons_self
      -- The packet that asks is near the place, so the entry keeps to the order.
      have hnear := s.near_of_place hc
      rw [List.foldl_concat]
      exact h'.credit c hnear.1 hnear.2 fun hgranted =>
        ⟨before, n, [], asked, c, later, rfl, hcredits, hgranted, rfl⟩

/-- What is on the books when the primary of a packet is counted. A packet that is ahead
    leaves the rings of credits alone, so only the bound moves on. -/
theorem book_counted {before : List Nat} {first m n : Nat} {reds fecs cleared : List Nat}
    (horder : Red.InOrder 32767 (before ++ [n])) (hhead : before.head? = some first)
    (hm : before.getLast? = some m)
    (h : Book s (s.GrantedFor before) m reds fecs cleared (s.track before)) :
    Book s (s.GrantedFor (before ++ [n])) n reds fecs cleared (s.counted before n) := by
  rcases horder.init hm with ⟨hbefore, hlt, hgap⟩
  have htracked := tracked_track s before first m hbefore hhead hm
  have hahead := countPrimary_ahead s m n _ htracked.newest_eq hlt hgap
  rw [Stream.counted, hahead.2]
  exact h.advance _ (fun p hp => hp.append [n]) n (le_of_lt hlt) _ _ _

/-- What is on the books when packets have arrived in order, by induction on the packets.
    Every entry is a credit that was given to some packet on the way, so the lists can later
    be compared with what the stream has asked for. -/
theorem book_track (arrivals : List Nat) (first newest : Nat)
    (horder : Red.InOrder 32767 arrivals) (hhead : arrivals.head? = some first)
    (hlast : arrivals.getLast? = some newest) :
    ∃ reds fecs cleared,
      Book s (s.GrantedFor arrivals) newest reds fecs cleared (s.track arrivals) := by
  refine s.track_induction first (fun arrivals newest t => ∃ reds fecs cleared,
    Book s (s.GrantedFor arrivals) newest reds fecs cleared t) ?_
    (fun before m n horder hhead hm ih => ?_) arrivals newest horder hhead hlast
  · have hreceive := (tracked_counted s [] first (List.IsChain.singleton first) rfl).2
    change s.receive (.ofConfig {}) first = _ at hreceive
    rw [hreceive]
    exact book_credits s [] first (Book.first s _ first) _ [] (List.append_nil _).symm
  · rcases ih with ⟨reds, fecs, cleared, h⟩
    have hhead' : (before ++ [n]).head? = some first := by
      rw [List.head?_append, hhead, Option.some_or]
    -- A further packet counts its primary, and then asks for all of its credits.
    rw [(tracked_counted s before n horder hhead').2]
    exact book_credits s before n (book_counted s horder hhead hm h) _ [] (List.append_nil _).symm

/-- What is on the books when the packet that has arrived last has asked for
    some of its credits. -/
theorem book_asked {before : List Nat} {first n : Nat}
    (horder : Red.InOrder 32767 (before ++ [n])) (hhead : (before ++ [n]).head? = some first)
    {asked later : List Credit} (hcredits : s.credits n = asked ++ later) :
    ∃ reds fecs cleared, Book s (s.GrantedFor (before ++ [n])) n reds fecs cleared
      (asked.foldl s.credit (s.counted before n)) := by
  -- The books before this packet are those of the earlier ones, if there are any.
  cases hm : before.getLast? with
  | none =>
      obtain rfl : before = [] := List.getLast?_eq_none_iff.mp hm
      exact book_credits s [] n (Book.first s _ n) asked later hcredits
  | some m =>
      have hhead' := Red.head?_of_concat hhead hm
      rcases book_track s before first m (horder.init hm).1 hhead' hm with
        ⟨reds, fecs, cleared, h⟩
      exact book_credits s before n (book_counted s horder hhead' hm h) asked later hcredits

/-- Of the places that a packet can ask for, those are on record whose packet has arrived.
    This holds for places before the first packet as well, and for the one before packet 0,
    whose time is that of no packet nearby. -/
theorem Tracked.contains_place_iff {s : Stream} {arrivals : List Nat} {first newest : Nat}
    {t : Tracker} (h : Tracked s arrivals first newest t) (horder : Red.InOrder 32767 arrivals)
    (hlast : arrivals.getLast? = some newest) (p : Nat) (hp : p ≤ newest)
    (hnear : newest ≤ p + 5) :
    t.primaries.contains (s.placeTime p) = true ↔ ∃ m ∈ arrivals, p = m + 1 := by
  cases p with
  | zero =>
      refine iff_of_false (fun hin => ?_) fun ⟨m, _, hm⟩ => absurd hm (Nat.succ_ne_zero m).symm
      -- The time before the stream is a lap away from all others.
      rw [Window.contains_iff, h.primaries_eq, mem_written_map] at hin
      rcases hin with ⟨n, hn, htime⟩
      have hle := horder.le_last hlast n hn.mem
      have hplace : s.time n = s.placeTime (n + 1) := s.creditTime_eq_placeTime (.red n)
      rw [Option.some.injEq, hplace, s.placeTime_eq_iff] at htime
      omega
  | succ m =>
      have hplace : s.time m = s.placeTime (m + 1) := s.creditTime_eq_placeTime (.red m)
      -- Behind the start, a place is that of a packet, for which `contains_iff` answers.
      rw [← hplace, h.contains_iff horder hlast m (by omega) (by omega)]
      constructor
      · exact fun hm => ⟨m, hm, rfl⟩
      · rintro ⟨k, hk, heq⟩
        rw [Nat.succ.inj heq]
        exact hk

/-- A credit is given exactly when a packet is missing, the packet that it is
    for has not arrived, and it has not been given before. -/
theorem granted_counted_iff {before : List Nat} {first n : Nat}
    (horder : Red.InOrder 32767 (before ++ [n])) (hhead : (before ++ [n]).head? = some first)
    (asked : List Credit) {c : Credit} (hc : c ∈ s.credits n) :
    s.Granted (asked.foldl s.credit (s.counted before n)) c ↔
      missing (before ++ [n]) first n ≠ 0 ∧ (∀ m ∈ before ++ [n], c.place ≠ m + 1) ∧
        ¬ s.Held (asked.foldl s.credit (s.counted before n)) c := by
  have hlast : (before ++ [n]).getLast? = some n := List.getLast?_concat
  have hnear := s.near_of_place hc
  have htracked := (tracked_counted s before n horder hhead).1.congr
    (agrees_credits s asked (s.counted before n))
  rw [s.granted_iff _ htracked.config_eq c, htracked.lost_eq_missing horder hhead hlast,
    s.creditTime_eq_placeTime, ← Bool.not_eq_true,
    htracked.contains_place_iff horder hlast c.place hnear.1 hnear.2]
  simp only [not_exists, not_and, ne_eq]

/-- The packet that reveals a loss is at least two behind the first. Hence it cannot reach
    all five places before the first one. -/
theorem lt_of_missing {arrivals : List Nat} {first newest : Nat} (hfirst : first ∈ arrivals)
    (hmissing : missing arrivals first newest ≠ 0) : first + 2 ≤ newest := by
  rw [missing, ← Nat.pos_iff_ne_zero, List.countP_pos_iff] at hmissing
  rcases hmissing with ⟨m, hm, hlost⟩
  rw [List.mem_range'_1] at hm
  -- The first packet has arrived, so what is missing lies between the two.
  have hne : m ≠ first := fun heq => of_decide_eq_true hlost (heq ▸ hfirst)
  omega

end Packets

/-! ### Who is credited -/

section Credited

variable {s : Stream} {arrivals : List Nat} {first newest p : Nat}

/-- A place that is asked for after a loss lies right before the packet that
    asks, which is at least two behind the first. -/
theorem Stream.AskedFor.near (h : s.AskedFor arrivals first p)
    (hhead : arrivals.head? = some first) : first ≤ p + 3 := by
  rcases h with ⟨before, n, after, rfl, hmissing, c, hc, rfl⟩
  have hnear := s.near_of_place hc
  rw [Red.head?_append_cons] at hhead
  have hfirst : first ∈ before ++ [n] := List.mem_of_head? hhead
  have hlt := lt_of_missing hfirst hmissing
  omega

/-- A credit that is given was asked for after a loss, and is for a packet that never
    arrives. For it is asked for by a packet behind the missing one, and none arrives late
    when they arrive in order. -/
theorem Stream.GrantedFor.absent (h : s.GrantedFor arrivals p)
    (horder : Red.InOrder 32767 arrivals) (hhead : arrivals.head? = some first) :
    s.AskedFor arrivals first p ∧ ∀ m ∈ arrivals, p ≠ m + 1 := by
  rcases h with ⟨before, n, after, asked, c, later, rfl, hcredits, hgranted, rfl⟩
  -- The credit is one of those of packet `n`, which has arrived among the others.
  have hc : c ∈ s.credits n := by
    rw [hcredits]
    exact List.mem_append_right _ List.mem_cons_self
  have hnear := s.near_of_place hc
  have hafter := horder.split.2
  rw [Red.head?_append_cons] at hhead
  rw [List.append_cons] at horder
  have hbefore : Red.InOrder 32767 (before ++ [n]) := List.IsChain.left_of_append horder
  rcases (granted_counted_iff s hbefore hhead asked hc).mp hgranted with ⟨hmissing, habsent, _⟩
  refine ⟨⟨before, n, after, rfl, hmissing, c, hc, rfl⟩, fun m hm heq => ?_⟩
  rw [List.append_cons, List.mem_append] at hm
  -- A packet that arrived before was not on record, and those to come are newer.
  rcases hm with hold | hnew
  · exact habsent m hold heq
  · have hlt := hafter m hnew
    omega

/-- For packets from before the first, every credit is given that is asked for after a loss.
    These are asked for by the first few packets only, when the rings are too young to hold
    the time of another place. -/
theorem grantedFor_iff (horder : Red.InOrder 32767 arrivals) (hhead : arrivals.head? = some first)
    (hp : p ≤ first) : s.GrantedFor arrivals p ↔ s.AskedFor arrivals first p := by
  refine ⟨fun h => (h.absent horder hhead).1, ?_⟩
  rintro ⟨before, n, after, rfl, hmissing, c, hc, rfl⟩
  have hfirst := horder.first_le hhead
  rw [Red.head?_append_cons] at hhead
  rw [List.append_cons] at horder hfirst ⊢
  have hbefore : Red.InOrder 32767 (before ++ [n]) := List.IsChain.left_of_append horder
  refine Stream.GrantedFor.append ?_ after
  rcases List.append_of_mem hc with ⟨asked, later, hcredits⟩
  by_cases hgranted : s.Granted (asked.foldl s.credit (s.counted before n)) c
  · exact ⟨before, n, [], asked, c, later, rfl, hcredits, hgranted, rfl⟩
  -- The credit was given before: so early on, no other place has the same time.
  have habsent : ∀ m ∈ before ++ [n], c.place ≠ m + 1 := by
    intro m hm heq
    have hle := hfirst m (List.mem_append_left _ hm)
    omega
  have hheld : s.Held (asked.foldl s.credit (s.counted before n)) c := by
    by_contra hfree
    exact hgranted ((granted_counted_iff s hbefore hhead asked hc).mpr
      ⟨hmissing, habsent, hfree⟩)
  rcases book_asked s hbefore hhead hcredits with ⟨reds, fecs, cleared, hbook⟩
  have hnear := s.near_of_place hc
  -- Whichever place the ring holds this time for, it is the one asked for.
  have hsame : ∀ q, q ≤ n → s.placeTime q = s.placeTime c.place →
      s.GrantedFor (before ++ [n]) q → s.GrantedFor (before ++ [n]) c.place := by
    intro q hq htime hgiven
    have hlow := (hgiven.absent hbefore hhead).1.near hhead
    have hmod := (s.placeTime_eq_iff q c.place).mp htime
    obtain rfl : q = c.place := by omega
    exact hgiven
  have hcredited := s.held_credited hheld
  rw [s.creditTime_eq_placeTime] at hcredited
  rcases hcredited with hred | hfec
  · rcases (hbook.contains_red_iff _).mp hred with ⟨q, hq, htime⟩
    exact hsame q (hbook.kept_reds.le_bound q hq.mem) htime (hbook.given_red q hq.mem)
  · rcases (hbook.contains_fec_iff _).mp hfec with ⟨q, hq, _, htime⟩
    exact hsame q (hbook.kept_fecs.le_bound q hq.mem) htime (hbook.given_fec q hq.mem)

/-- The places whose credits count: no place is credited twice, and each was given. They are
    those of the first list, and those of the second one that were not cleared, so the two
    counters together are as many as they are. -/
theorem exists_standing (horder : Red.InOrder 32767 arrivals)
    (hhead : arrivals.head? = some first) (hlast : arrivals.getLast? = some newest) :
    ∃ standing : List Nat, standing.Nodup ∧
      (s.track arrivals).counters.recoveredRed + (s.track arrivals).counters.recoveredFec
        = standing.length ∧
      ∀ p ∈ standing, s.GrantedFor arrivals p ∧ p ≤ newest := by
  rcases book_track s arrivals first newest horder hhead hlast with ⟨reds, fecs, cleared, h⟩
  refine ⟨reds ++ fecs.filter (· ∉ cleared), ?_, ?_, fun p hp => ?_⟩
  · refine List.nodup_append.mpr ⟨h.kept_reds.nodup, h.kept_fecs.nodup.filter _, ?_⟩
    -- A place on both lists was cleared from the second one.
    rintro p hred q hfec rfl
    rw [List.mem_filter, decide_eq_true_eq] at hfec
    exact hfec.2 (h.cleared_of_both p hred hfec.1)
  · rw [List.length_append, h.red_count, h.fec_count]
  · rcases List.mem_append.mp hp with hred | hfec
    · exact ⟨h.given_red p hred, h.kept_reds.le_bound p hred⟩
    · have hin := List.mem_of_mem_filter hfec
      exact ⟨h.given_fec p hin, h.kept_fecs.le_bound p hin⟩

/-- Of the places whose credits count, those behind the first packet are of packets that are
    missing. Different places are of different packets, so there are no more of them than
    losses. -/
theorem countP_behind_le_missing (horder : Red.InOrder 32767 arrivals)
    (hhead : arrivals.head? = some first) {standing : List Nat} (hnodup : standing.Nodup)
    (hstanding : ∀ p ∈ standing, s.GrantedFor arrivals p ∧ p ≤ newest) :
    standing.countP (fun p => first < p) ≤ missing arrivals first newest := by
  -- Each such place is one behind a packet that has not arrived.
  have hsub : standing.filter (fun p => first < p)
      ⊆ ((List.range' first (newest - first)).filter fun m => m ∉ arrivals).map (· + 1) := by
    intro p hp
    rw [List.mem_filter, decide_eq_true_eq] at hp
    rcases hstanding p hp.1 with ⟨hgiven, hle⟩
    have habsent := (hgiven.absent horder hhead).2
    refine List.mem_map.mpr ⟨p - 1, List.mem_filter.mpr ⟨?_, ?_⟩, by omega⟩
    · rw [List.mem_range'_1]
      omega
    · exact decide_eq_true fun hin => habsent _ hin (by omega)
  have hle := (List.subperm_of_subset (hnodup.filter _) hsub).length_le
  rw [List.length_map, ← List.countP_eq_length_filter, ← List.countP_eq_length_filter] at hle
  exact hle

/-- The recoveries that are counted, against the losses. There are at most as
    many more as places from before the first packet were asked for after a
    loss, and at most four. Each of those credits is given, and any other is for
    a packet that is counted as lost. -/
theorem recoveries_le (s : Stream) (arrivals : List Nat) (first newest : Nat)
    (horder : Red.InOrder 32767 arrivals) (hhead : arrivals.head? = some first)
    (hlast : arrivals.getLast? = some newest) :
    (s.track arrivals).counters.lost = missing arrivals first newest ∧
      (∃ undue : List Nat, undue.Nodup ∧
        (∀ p ∈ undue, p ≤ first ∧ s.AskedFor arrivals first p) ∧ undue.length ≤ 4 ∧
        (s.track arrivals).counters.recoveredRed + (s.track arrivals).counters.recoveredFec
          ≤ (s.track arrivals).counters.lost + undue.length) ∧
      (∀ p, s.GrantedFor arrivals p → p ≤ newest ∧ ∀ m ∈ arrivals, p ≠ m + 1) ∧
      ∀ p ≤ first, s.GrantedFor arrivals p ↔ s.AskedFor arrivals first p := by
  have hlost := (tracked_track s arrivals first newest horder hhead hlast).lost_eq_missing horder
    hhead hlast
  rcases exists_standing horder hhead hlast with ⟨standing, hnodup, hlength, hstanding⟩
  -- What stands up to the first packet is on behalf of packets from before it.
  have hundue : ∀ p ∈ standing.filter (fun p => p ≤ first),
      p ≤ first ∧ s.AskedFor arrivals first p := by
    intro p hp
    rw [List.mem_filter, decide_eq_true_eq] at hp
    exact ⟨hp.2, ((hstanding p hp.1).1.absent horder hhead).1⟩
  -- A packet that asks after a loss reaches three places before the first.
  have hfour : (standing.filter fun p => p ≤ first).length ≤ 4 := by
    refine Red.length_le_of_within _ (first - 3) 4 (hnodup.filter _) fun p hp => ?_
    have hp := hundue p hp
    have hnear := hp.2.near hhead
    omega
  -- What stands behind the first packet is on behalf of a loss each.
  have hsum : (s.track arrivals).counters.recoveredRed + (s.track arrivals).counters.recoveredFec
      ≤ (s.track arrivals).counters.lost + (standing.filter fun p => p ≤ first).length := by
    have hbehind := countP_behind_le_missing horder hhead hnodup hstanding
    have hsplit := List.length_eq_countP_add_countP (fun p => decide (first < p)) (l := standing)
    have hrest : standing.countP (fun p => decide (¬ decide (first < p) = true))
        = (standing.filter fun p => p ≤ first).length := by
      rw [List.countP_eq_length_filter]
      simp only [decide_eq_true_eq, Nat.not_lt]
    rw [hrest] at hsplit
    omega
  -- A credit is for a place that is not ahead of the packet that asked for it.
  have hnewest : ∀ p, s.GrantedFor arrivals p → p ≤ newest := by
    rintro p ⟨before, n, after, asked, c, later, rfl, hcredits, _, rfl⟩
    have hc : c ∈ s.credits n := by
      rw [hcredits]
      exact List.mem_append_right _ List.mem_cons_self
    have hle := horder.le_last hlast n (List.mem_append_right _ List.mem_cons_self)
    exact (s.near_of_place hc).1.trans hle
  exact ⟨hlost, ⟨_, hnodup.filter _, hundue, hfour, hsum⟩,
    fun p hp => ⟨hnewest p hp, (hp.absent horder hhead).2⟩,
    fun p hp => grantedFor_iff horder hhead hp⟩

end Credited

end Loss

end RedundantAudio
