import RedundantAudio.Proofs.Loss.Stream

/-!
# When a Credit Is Given

A credit is given when something is lost, the primary it is for is not on
record, and the credit has not been given already. The tracker looks all of
this up by media time, so what it knows of a packet is whether the ring of
primaries and the two rings of credits hold its time.

The ring of primaries is told elsewhere. Of the other two, all that is needed
here is where their times come from: from the credits that were asked for,
and only where the primary was not on record. While packets arrive in order
that makes them the times of missing packets, with one exception. The
correction data of packet 0 is for the time before the stream begins, which
is the time of packet `2 ^ 26 - 1`.

## Main definitions

* `Stream.creditTime`: The media time that a credit is for.
* `Stream.Held`: A credit has been given before.
* `Stream.Granted`: A credit is given.
* `Credited`: A ring of credits holds a media time.
* `Stream.OnlyMissing`: The rings hold the times of missing packets.

## Theorems

* `Stream.granted_iff`: When a credit is given.
* `Stream.credited_foldl`: Where the times on a ring come from.
* `Stream.OnlyMissing.not_credited`: A packet that has arrived has no credit.
* `Stream.onlyMissing_track`: The rings hold the times of missing packets.
-/

namespace RedundantAudio

namespace Loss

/-- One of the rings of credits holds a media time. -/
def Credited (t : Tracker) (time : UInt32) : Prop :=
  t.redCredits.contains time = true ∨ t.fecCredits.contains time = true

namespace Stream

variable (s : Stream)

/-- The media time that a credit is for. -/
def creditTime : Credit → UInt32
  | .red m => s.time m
  | .fec m => s.time m - Red.packetInterval

/-- A credit has been given before, as far as the rings know. Redundancy does
    not care for a credit to correction data, and takes its place. -/
def Held (t : Tracker) (c : Credit) : Prop :=
  match c with
  | .red _ => t.redCredits.contains (s.creditTime c) = true
  | .fec _ => Credited t (s.creditTime c)

/-- A credit is given: one of the two counts goes up. -/
def Granted (t : Tracker) (c : Credit) : Prop :=
  t.counters.recoveredRed < (s.credit t c).counters.recoveredRed ∨
    t.counters.recoveredFec < (s.credit t c).counters.recoveredFec

/-- The two kinds of credit that protect a packet are for one media time, that of the
    packet. For correction data it is the time one packet before the one that carries it. -/
theorem creditTime_eq {c : Credit} {m : Nat} (h : c.Protects m) : s.creditTime c = s.time m := by
  rcases h with rfl | rfl
  · rfl
  · exact time_sub_interval s m

/-- The correction data of packet 0 is for a time that is a long way ahead. -/
theorem creditTime_fec_zero : s.creditTime (.fec 0) = s.time (2 ^ 26 - 1) := by
  have hsucc := Red.packetTime_succ s.start (2 ^ 26 - 1)
  have hwrap : Red.packetTime s.start 0 = Red.packetTime s.start (2 ^ 26 - 1 + 1) :=
    (Red.packetTime_eq_iff s.start _ _).mpr (by decide)
  -- Times repeat after so many packets, so the packet before the first has the time of the
  -- last.
  rw [creditTime, time, time, hwrap, hsucc]
  grind

/-- A credit protects a packet, but for one: the correction data of packet 0, which protects
    what came before the stream. -/
theorem protects_or (c : Credit) : (∃ m, c.Protects m) ∨ c = .fec 0 := by
  match c with
  | .red m => exact Or.inl ⟨m, Or.inl rfl⟩
  | .fec 0 => exact Or.inr rfl
  | .fec (m + 1) => exact Or.inl ⟨m, Or.inr rfl⟩

/-- No credit protects two packets, so to know the packet is to know what the credit is for. -/
theorem protects_inj {c : Credit} {m n : Nat} (hm : c.Protects m) (hn : c.Protects n) : m = n := by
  rcases hm with rfl | rfl
  · rcases hn with h | h
    · exact Credit.red.inj h
    · cases h
  · rcases hn with h | h
    · cases h
    · exact Nat.succ.inj (Credit.fec.inj h)

theorem held_credited {t : Tracker} {c : Credit} (h : s.Held t c) :
    Credited t (s.creditTime c) := by
  cases c with
  | red m => exact Or.inl h
  | fec m => exact h

/-- Redundancy may take the place of correction data, and never adds to it. -/
theorem recoveredFec_creditRed_le (t : Tracker) (time : UInt32) :
    (t.creditRed time).counters.recoveredFec ≤ t.counters.recoveredFec := by
  simp only [Tracker.creditRed]
  split
  · exact le_refl _
  · split <;> split <;> first | exact le_refl _ | exact Nat.sub_le _ 1

/-- A credit is given exactly when something is lost, the primary is not on record, and
    neither is the credit. That leaves nothing to chance: all three are looked up by media
    time alone, so two packets with the same time share their credits. -/
theorem granted_iff (t : Tracker) (hconfig : t.config = {}) (c : Credit) :
    s.Granted t c ↔
      t.counters.lost ≠ 0 ∧ t.primaries.contains (s.creditTime c) = false ∧ ¬ s.Held t c := by
  -- A tracker that stays as it is gives nothing.
  have hidle : s.credit t c = t → ¬ s.Granted t c := by
    intro h hgranted
    rw [Granted, h] at hgranted
    omega
  cases c with
  | red m =>
      constructor
      · intro hgranted
        refine ⟨fun hlost => ?_, Bool.eq_false_iff.mpr fun hprimary => ?_, fun hred => ?_⟩
        · exact hidle (creditRed_idle t _ (Or.inl hlost)) hgranted
        · exact hidle (creditRed_idle t _ (Or.inr hprimary)) hgranted
        · -- What is held already adds nothing, and correction data can only be taken back.
          have hsame := creditRed_held t (s.time m) hred
          have hle := recoveredFec_creditRed_le t (s.time m)
          rcases hgranted with hlt | hlt
          · exact absurd hlt (not_lt_of_ge (le_of_eq hsame))
          · exact absurd hlt (not_lt_of_ge hle)
      · rintro ⟨hlost, hprimary, hred⟩
        have hnew := creditRed_new t (s.time m) hlost hprimary (Bool.eq_false_iff.mpr hred)
        rw [Granted, credit, hnew]
        exact Or.inl (Nat.lt_succ_self _)
  | fec m =>
      -- The time is the one before the packet that carries the data, by the configuration.
      have hinterval : s.time m - t.config.packetizationTime = s.creditTime (.fec m) := by
        rw [hconfig]
        rfl
      have hdenied : (t.counters.lost = 0 ∨ t.primaries.contains (s.creditTime (.fec m)) = true ∨
          s.Held t (.fec m)) → ¬ s.Granted t (.fec m) := by
        intro h
        refine hidle (creditFec_idle t _ ?_)
        rw [hinterval]
        exact h
      constructor
      · intro hgranted
        refine ⟨fun hlost => ?_, Bool.eq_false_iff.mpr fun hprimary => ?_, fun hheld => ?_⟩
        · exact hdenied (Or.inl hlost) hgranted
        · exact hdenied (Or.inr (Or.inl hprimary)) hgranted
        · exact hdenied (Or.inr (Or.inr hheld)) hgranted
      · rintro ⟨hlost, hprimary, hheld⟩
        rw [Held, Credited, not_or] at hheld
        have hnew := creditFec_new t (s.time m) hlost (by rw [hinterval]; exact hprimary)
          (by rw [hinterval]; exact Bool.eq_false_iff.mpr hheld.1)
          (by rw [hinterval]; exact Bool.eq_false_iff.mpr hheld.2)
        rw [Granted, credit, hnew]
        exact Or.inr (Nat.lt_succ_self _)

end Stream

/-! ### The rings of credits -/

theorem not_credited_ofConfig (time : UInt32) : ¬ Credited (.ofConfig {}) time := by
  have hempty : (Window.empty 21).contains time ≠ true := by
    intro hin
    rw [Window.contains_iff, Window.slots_empty 21 (by omega)] at hin
    cases (List.mem_replicate.mp hin).2
  exact fun hcredited => hcredited.elim hempty hempty

/-- What a ring holds after a credit to redundancy was there before, or it is the time of
    that credit, and then its primary is not on record. -/
theorem credited_creditRed {t : Tracker} {time time' : UInt32}
    (h : Credited (t.creditRed time) time') :
    Credited t time' ∨ time = time' ∧ t.primaries.contains time = false := by
  by_cases hidle : t.counters.lost = 0 ∨ t.primaries.contains time = true
  · rw [creditRed_idle t time hidle] at h
    exact Or.inl h
  have hprimary : t.primaries.contains time = false :=
    Bool.eq_false_iff.mpr fun hin => hidle (Or.inr hin)
  -- Redundancy writes to its own ring, and takes back from the other.
  have hrings : ((t.creditRed time).redCredits = t.redCredits ∨
        (t.creditRed time).redCredits = t.redCredits.add time) ∧
      ((t.creditRed time).fecCredits = t.fecCredits ∨
        (t.creditRed time).fecCredits = t.fecCredits.remove time) := by
    simp only [Tracker.creditRed]
    split
    · exact ⟨Or.inl rfl, Or.inl rfl⟩
    · refine ⟨?_, ?_⟩ <;> split <;> split <;> first | exact Or.inl rfl | exact Or.inr rfl
  rcases h with hred | hfec
  · rcases hrings.1 with hsame | hadd
    · rw [hsame] at hred
      exact Or.inl (Or.inl hred)
    · rw [hadd] at hred
      exact (Window.contains_add hred).imp Or.inl fun heq => ⟨heq, hprimary⟩
  · rcases hrings.2 with hsame | hremove
    · rw [hsame] at hfec
      exact Or.inl (Or.inr hfec)
    · rw [hremove] at hfec
      exact Or.inl (Or.inr (Window.contains_remove hfec))

/-- The same for correction data, whose credit is for the time one packet before. It never
    takes the place of another credit, so what was held before is still held. -/
theorem credited_creditFec {t : Tracker} {time time' : UInt32}
    (h : Credited (t.creditFec time) time') :
    Credited t time' ∨ time - t.config.packetizationTime = time' ∧
      t.primaries.contains (time - t.config.packetizationTime) = false := by
  simp only [Tracker.creditFec] at h
  split at h
  · exact Or.inl h
  · next hnew =>
    -- The credit was given, so none of the reasons against it holds.
    have hprimary : t.primaries.contains (time - t.config.packetizationTime) = false := by
      refine Bool.eq_false_iff.mpr fun hin => hnew ?_
      rw [hin, Bool.or_true, Bool.true_or, Bool.true_or]
    rcases h with hred | hfec
    · exact Or.inl (Or.inl hred)
    · exact (Window.contains_add hfec).imp Or.inr fun heq => ⟨heq, hprimary⟩

/-- Taking credits back puts no time on a ring. -/
theorem credited_takeBackCredits {t : Tracker} {time time' : UInt32}
    (h : Credited (t.takeBackCredits time) time') : Credited t time' := by
  simp only [Tracker.takeBackCredits] at h
  split at h <;> split at h
  · exact h.imp Window.contains_remove Window.contains_remove
  · exact h.imp Window.contains_remove id
  · exact h.imp id Window.contains_remove
  · exact h

namespace Stream

variable (s : Stream)

/-- Both kinds of credit in the same words. -/
theorem credited_credit {t : Tracker} (hconfig : t.config = {}) {c : Credit} {time : UInt32}
    (h : Credited (s.credit t c) time) :
    Credited t time ∨ s.creditTime c = time ∧ t.primaries.contains (s.creditTime c) = false := by
  cases c with
  | red m => exact credited_creditRed h
  | fec m =>
      have hfec := credited_creditFec h
      rw [hconfig] at hfec
      exact hfec

/-- A time on a ring was there before, or is that of a credit that was asked for when its
    primary was not on record. Credits do not touch the ring of primaries, so it makes no
    difference that the record is looked at before all of them. -/
theorem credited_foldl (asked : List Credit) :
    ∀ {t : Tracker} {time : UInt32}, t.config = {} → Credited (asked.foldl s.credit t) time →
      Credited t time ∨
        ∃ c ∈ asked, s.creditTime c = time ∧ t.primaries.contains (s.creditTime c) = false := by
  induction asked with
  | nil =>
      intro t time _ h
      exact Or.inl h
  | cons c asked ih =>
      intro t time hconfig h
      have hagrees := agrees_credit s t c
      -- The first credit may have written the time, or one of the others.
      rcases ih (hagrees.config_eq.trans hconfig) h with hold | ⟨c', hc', htime, hprimary⟩
      · rcases s.credited_credit hconfig hold with hold | hnew
        · exact Or.inl hold
        · exact Or.inr ⟨c, List.mem_cons_self, hnew⟩
      · rw [hagrees.primaries_eq] at hprimary
        exact Or.inr ⟨c', List.mem_cons_of_mem c hc', htime, hprimary⟩

/-- The rings of credits hold the times of packets that are missing, or else
    the time before the stream begins. -/
def OnlyMissing (arrivals : List Nat) (newest : Nat) (t : Tracker) : Prop :=
  ∀ time, Credited t time →
    ∃ m, s.time m = time ∧ (m < newest ∧ m ∉ arrivals ∨ m = 2 ^ 26 - 1)

/-- In a stream that is shorter than the media times are, the rings leave out the packets
    that have arrived: two packets of such a stream never share a time. -/
theorem OnlyMissing.not_credited {s : Stream} {arrivals : List Nat} {newest : Nat} {t : Tracker}
    (h : s.OnlyMissing arrivals newest t) (hshort : newest + 1 < 2 ^ 26) (m : Nat)
    (hm : m ∈ arrivals) (hle : m ≤ newest) : ¬ Credited t (s.time m) := by
  intro hcredited
  rcases h _ hcredited with ⟨k, htime, hk⟩
  have hmod := (Red.packetTime_eq_iff s.start k m).mp htime
  rcases hk with ⟨hk, hnot⟩ | rfl
  · obtain rfl : k = m := by omega
    exact hnot hm
  · omega

/-- The packet that has arrived last asks for its credits. A credit that is given is for a
    packet close behind, and one that close would be on record if it had arrived. -/
theorem onlyMissing_credits {arrivals : List Nat} {first newest : Nat} {t : Tracker}
    (h : Tracked s arrivals first newest t) (horder : Red.InOrder 32767 arrivals)
    (hlast : arrivals.getLast? = some newest) (hbefore : s.OnlyMissing arrivals newest t) :
    s.OnlyMissing arrivals newest ((s.credits newest).foldl s.credit t) := by
  intro time hcredited
  rcases s.credited_foldl _ h.config_eq hcredited with hold | ⟨c, hc, htime, hprimary⟩
  · exact hbefore time hold
  rcases protects_or c with ⟨m, hm⟩ | rfl
  · -- Within reach of the packet, the ring of primaries tells what has arrived.
    have hnear := s.near_of_protects c hm hc
    rw [s.creditTime_eq hm] at htime hprimary
    refine ⟨m, htime, Or.inl ⟨hnear.1, fun hin => ?_⟩⟩
    have hseen := (h.contains_iff horder hlast m (le_of_lt hnear.1) (by omega)).mpr hin
    rw [hprimary] at hseen
    cases hseen
  · rw [s.creditTime_fec_zero] at htime
    exact ⟨2 ^ 26 - 1, htime, Or.inr rfl⟩

/-- So it stays along the whole stream. A packet adds those that it has passed by to the
    missing ones, and takes none away, since nothing arrives late. -/
theorem onlyMissing_track (arrivals : List Nat) (first newest : Nat)
    (horder : Red.InOrder 32767 arrivals) (hhead : arrivals.head? = some first)
    (hlast : arrivals.getLast? = some newest) :
    s.OnlyMissing arrivals newest (s.track arrivals) := by
  refine s.track_induction first s.OnlyMissing ?_ (fun before m n horder hhead hm ih => ?_) arrivals
    newest horder hhead hlast
  · have hfirst := countPrimary_first s first
    rw [s.receive_eq _ first hfirst.1]
    exact s.onlyMissing_credits hfirst.2 (List.IsChain.singleton _) rfl fun time hcredited =>
      absurd hcredited (not_credited_ofConfig time)
  · rcases horder.init hm with ⟨hbefore, hlt, hgap⟩
    have htracked := tracked_track s before first m hbefore hhead hm
    rw [(tracked_receive s before first m n _ htracked hlt hgap).1]
    refine s.onlyMissing_credits (tracked_countAhead s before first m n _ htracked hlt) horder
      List.getLast?_concat fun time hcredited => ?_
    -- What was missing is behind, so it is not the packet that arrives now.
    rcases ih time hcredited with ⟨k, htime, ⟨hk, hmissing⟩ | hk⟩
    · refine ⟨k, htime, Or.inl ⟨hk.trans hlt, ?_⟩⟩
      rw [List.mem_append, List.mem_singleton, not_or]
      exact ⟨hmissing, by omega⟩
    · exact ⟨k, htime, Or.inr hk⟩

end Stream

end Loss

end RedundantAudio
