import Mathlib.Algebra.Order.Field.Rat
import Mathlib.Data.List.DropRight
import RedundantAudio.Proofs.Redundancy.Decisions

/-!
# Windows over Receiver Reports

A policy measures loss between the last report it has kept and an older one.
What it has kept is a matter of the reports alone: whatever it decides in
between, the reports on record are the last few of those that moved forward
in both time and packets (`reports_behind`). Forgetting the oldest one never
changes which reports are news, because news is judged by the last one.

Moving forward is transitive, so every report on record is ahead of every
older one. That is what the division rests on, and it is not enough that
neighbours differ: a baseline may lie many reports back.

Percentages are floating-point numbers. What they are meant to be is the same
expression over the rationals, so the expression is told once for numbers of
any kind, and the policy computes it for one of them.

## Main definitions

* `Advances`: A report moves forward from another one.
* `kept`: The reports that move forward, each from the one kept before it.
* `withNews`: A record, with a report added if it is news.
* `samples`: The reports of a run.
* `percentIn`: The loss over a window, in numbers of any kind.
* `ReportWindows`: What the reports on record are, and what they show.

## Theorems

* `kept_concat`: One more report.
* `rtake_withNews`: News is judged by the last report.
* `pairwise_kept`, `kept_eq_self`: Reports that are kept rise, and reports that
  rise are kept.
* `reports_record`: What a report does to the record.
* `reports_behind`: What is on record behind a run.
* `baseline_eq_some_iff`, `baseline_eq_none_iff`: The baseline of a window.
* `lossIn_eq`: The loss between two reports, without rounding.
* `reportWindows_run`: Every run.
-/

namespace RedundantAudio

namespace Redundancy

/-! ### Reports that move forward -/

/-- A report is later than another one, and more packets were sent. -/
def Advances (last sample : Sample) : Prop :=
  last.time < sample.time ∧ last.sent < sample.sent

instance : DecidableRel Advances :=
  fun _ _ => inferInstanceAs (Decidable (_ ∧ _))

theorem Advances.trans {a b c : Sample} (h : Advances a b) (h' : Advances b c) : Advances a c :=
  ⟨h.1.trans h'.1, h.2.trans h'.2⟩

/-- The reports that are kept behind one that was. -/
def keptAfter (last : Sample) : List Sample → List Sample
  | [] => []
  | sample :: later =>
    if Advances last sample then sample :: keptAfter sample later else keptAfter last later

/-- The first report, and of the others those that move forward from the last
    one kept before. -/
def kept : List Sample → List Sample
  | [] => []
  | first :: later => first :: keptAfter first later

/-- A report is news to a record if it moves forward from the last one there. -/
def IsNews (reports : List Sample) (sample : Sample) : Prop :=
  ∀ last ∈ reports.getLast?, Advances last sample

instance (reports : List Sample) : DecidablePred (IsNews reports) :=
  fun _ => inferInstanceAs (Decidable (∀ last ∈ reports.getLast?, _))

/-- A record, with a report added if it is news. -/
def withNews (reports : List Sample) (sample : Sample) : List Sample :=
  if IsNews reports sample then reports ++ [sample] else reports

theorem isNews_nil (sample : Sample) : IsNews [] sample :=
  fun _ hlast => nomatch hlast

theorem isNews_singleton_iff (last sample : Sample) :
    IsNews [last] sample ↔ Advances last sample :=
  ⟨fun h => h last rfl, fun h _ hlast => Option.mem_some_iff.mp hlast ▸ h⟩

theorem isNews_cons_cons_iff (a b : Sample) (reports : List Sample) (sample : Sample) :
    IsNews (a :: b :: reports) sample ↔ IsNews (b :: reports) sample := by
  rw [IsNews, IsNews, List.getLast?_cons_cons]

/-- One more report at the end is kept if it moves forward from the last one kept. The list
    is built from its front, so this takes an induction. -/
theorem keptAfter_concat (sample : Sample) :
    ∀ (reports : List Sample) (last : Sample),
      keptAfter last (reports ++ [sample])
        = if IsNews (last :: keptAfter last reports) sample
          then keptAfter last reports ++ [sample] else keptAfter last reports := by
  intro reports
  induction reports with
  | nil =>
      intro last
      simp only [List.nil_append, keptAfter, isNews_singleton_iff]
  | cons next reports ih =>
      intro last
      rw [List.cons_append, keptAfter, keptAfter]
      by_cases hnext : Advances last next
      · rw [if_pos hnext, if_pos hnext, ih next]
        simp only [isNews_cons_cons_iff]
        split <;> rfl
      · -- What is not kept leaves the last one kept as it was.
        rw [if_neg hnext, if_neg hnext, ih last]

/-- One more report is kept if it is news. -/
theorem kept_concat (reports : List Sample) (sample : Sample) :
    kept (reports ++ [sample]) = withNews (kept reports) sample := by
  cases reports with
  | nil => exact (if_pos (isNews_nil sample)).symm
  | cons first reports =>
      rw [List.cons_append, kept, kept, keptAfter_concat, withNews]
      split <;> rfl

/-- Each report that is kept moves forward from all that were kept before, and not only from
    the last one, since moving forward is transitive. -/
theorem pairwise_keptAfter :
    ∀ (reports : List Sample) (last : Sample),
      (last :: keptAfter last reports).Pairwise Advances := by
  intro reports
  induction reports with
  | nil =>
      intro last
      exact List.pairwise_singleton _ _
  | cons next reports ih =>
      intro last
      rw [keptAfter]
      by_cases hnext : Advances last next
      · rw [if_pos hnext]
        -- A report that is kept is ahead of the last one, and all later ones are ahead of
        -- it.
        have hlater := ih next
        refine List.pairwise_cons.mpr
          ⟨List.forall_mem_cons.mpr ⟨hnext, fun sample hmem => ?_⟩, hlater⟩
        exact hnext.trans ((List.pairwise_cons.mp hlater).1 sample hmem)
      · rw [if_neg hnext]
        exact ih last

theorem pairwise_kept (reports : List Sample) : (kept reports).Pairwise Advances := by
  cases reports with
  | nil => exact .nil
  | cons first reports => exact pairwise_keptAfter reports first

/-- Of reports that all move forward, none is left out. What is asked is that any two do,
    and what is used is that each does from the one before. -/
theorem kept_eq_self (reports : List Sample) (h : reports.Pairwise Advances) :
    kept reports = reports := by
  induction reports using List.reverseRecOn with
  | nil => rfl
  | append_singleton reports sample ih =>
      rw [List.pairwise_append] at h
      rw [kept_concat, ih h.1, withNews, if_pos]
      -- The last report before this one was kept, and this one moves forward from it.
      intro last hlast
      exact h.2.2 last (List.mem_of_getLast? hlast) sample List.mem_cons_self

/-! ### The last few of a list -/

theorem rtake_rtake {α : Type} (l : List α) (m n : Nat) :
    (l.rtake m).rtake n = l.rtake (min n m) := by
  simp only [List.rtake_eq_reverse_take_reverse, List.reverse_reverse, List.take_take]

theorem rtake_rtake_concat {α : Type} (l : List α) (x : α) (n : Nat) :
    (l.rtake n ++ [x]).rtake n = (l ++ [x]).rtake n := by
  cases n with
  | zero => rw [List.rtake_zero, List.rtake_zero]
  | succ n =>
      rw [List.rtake_concat_succ, List.rtake_concat_succ, rtake_rtake,
        Nat.min_eq_left (Nat.le_succ n)]

theorem getLast?_rtake {α : Type} (l : List α) (n : Nat) (h : 0 < n) :
    (l.rtake n).getLast? = l.getLast? := by
  obtain ⟨n, rfl⟩ := Nat.exists_eq_add_one_of_ne_zero (Nat.ne_of_gt h)
  rcases List.eq_nil_or_concat l with rfl | ⟨l, x, rfl⟩
  · rw [List.rtake_nil]
  · rw [List.concat_eq_append, List.rtake_concat_succ, List.getLast?_concat, List.getLast?_concat]

/-- News is judged by the last report, so it makes no difference that older ones
    have been let go. -/
theorem rtake_withNews (reports : List Sample) (sample : Sample) (n : Nat) :
    (withNews (reports.rtake n) sample).rtake n = (withNews reports sample).rtake n := by
  rcases Nat.eq_zero_or_pos n with rfl | hpos
  · rw [List.rtake_zero, List.rtake_zero]
  · have hsame : IsNews (reports.rtake n) sample ↔ IsNews reports sample := by
      rw [IsNews, IsNews, getLast?_rtake _ _ hpos]
    rw [withNews, withNews]
    simp only [hsame]
    split
    · exact rtake_rtake_concat _ _ _
    · rw [rtake_rtake, Nat.min_self]

theorem length_withNews_le (reports : List Sample) (sample : Sample) :
    (withNews reports sample).length ≤ reports.length + 1 := by
  rw [withNews]
  split
  · rw [List.length_append, List.length_singleton]
  · exact Nat.le_succ _

theorem length_rtake_le {α : Type} (l : List α) (n : Nat) : (l.rtake n).length ≤ n := by
  rw [List.rtake, List.length_drop]
  omega

namespace Policy

/-! ### What is on record -/

section Decision

variable {p q : Policy} {n : UInt8} {now : Nat} {demand : Demand} {messages : List Control}

@[simp]
theorem reports_confirm (p : Policy) (now : Nat) : (p.confirm now).reports = p.reports := by
  unfold confirm
  split <;> rfl

theorem Moves.reports_eq (h : Moves p n now q messages) : q.reports = p.reports := by
  cases h with
  | same _ => exact reports_confirm p now
  | held _ _ => rfl
  | moved _ _ => exact reports_confirm _ now

theorem Meets.reports_eq (h : Meets p now demand q messages) : q.reports = p.reports := by
  cases h with
  | off _ => rfl
  | still _ => rfl
  | waits _ _ _ => rfl
  | moves _ hmoves => exact hmoves.reports_eq
  | back _ _ hmoves => exact hmoves.reports_eq.trans (reports_confirm _ now)

end Decision

theorem reports_react (p : Policy) (o : Observation) :
    (p.react o).1.reports = (p.note o).reports := by
  rw [react_eq]
  exact (meets_meet _ _ _).reports_eq

/-- A report is added if it is news, and the oldest one makes room for it. The record is
    kept within its bound by dropping one report at most, which is enough as long as it was
    within it before. -/
theorem reports_record (p : Policy) (sample : Sample)
    (hroom : p.reports.length ≤ p.config.maxReports) :
    (p.record sample).reports = (withNews p.reports sample).rtake p.config.maxReports := by
  have hrecord : (p.record sample).reports
      = if (withNews p.reports sample).length > p.config.maxReports
        then (withNews p.reports sample).tail else withNews p.reports sample := by
    rw [record]
    cases hlast : p.reports.getLast? with
    | none =>
        rw [List.getLast?_eq_none_iff] at hlast
        simp only [withNews, hlast, isNews_nil, if_true]
    | some last =>
        have hnews : IsNews p.reports sample
            ↔ last.time < sample.time ∧ last.sent < sample.sent := by
          simp only [IsNews, hlast, Option.mem_some_iff, forall_eq', Advances]
        simp only [withNews, hnews, Bool.and_eq_true, decide_eq_true_eq, gt_iff_lt]
  have hlength := length_withNews_le p.reports sample
  rw [hrecord, List.rtake]
  -- There is one report too many, or there is room for all of them.
  split
  · rw [show (withNews p.reports sample).length - p.config.maxReports = 1 by omega, List.drop_one]
  · rw [show (withNews p.reports sample).length - p.config.maxReports = 0 by omega, List.drop_zero]

/-- The reports of a run. -/
def samples (observations : List Observation) : List Sample :=
  observations.filterMap fun
    | .loss _ _ => none
    | .report sample _ => some sample

theorem samples_concat_loss (observations : List Observation) (percent : Float) (now : Nat) :
    samples (observations ++ [.loss percent now]) = samples observations := by
  rw [samples, List.filterMap_append]
  exact List.append_nil _

theorem samples_concat_report (observations : List Observation) (sample : Sample) (now : Nat) :
    samples (observations ++ [.report sample now]) = samples observations ++ [sample] := by
  rw [samples, List.filterMap_append]
  rfl

/-- The reports on record are the last of those that are kept. What is kept is told without
    a bound, from all reports of the run; that older ones have been let go makes no
    difference to what is news, since only the last one is asked. -/
theorem reports_behind (config : PolicyConfig) (observations : List Observation) :
    (behind { config } observations).reports
        = (kept (samples observations)).rtake config.maxReports ∧
      (behind { config } observations).config = config := by
  induction observations using List.reverseRecOn with
  | nil => exact ⟨(List.rtake_nil _).symm, rfl⟩
  | append_singleton observations o ih =>
      rcases ih with ⟨hreports, hconfig⟩
      rw [behind_concat]
      refine ⟨(reports_react _ o).trans ?_, (Turn.config_after ⟨_, o⟩).trans hconfig⟩
      cases o with
      | loss percent now =>
          rw [samples_concat_loss]
          exact hreports
      | report sample now =>
          -- The record is within its bound, which is what the step asks for.
          have hroom : (behind { config } observations).reports.length
              ≤ (behind { config } observations).config.maxReports := by
            rw [hreports, hconfig]
            exact length_rtake_le _ _
          rw [samples_concat_report, kept_concat, ← rtake_withNews, ← hreports]
          refine (reports_record _ sample hroom).trans ?_
          rw [hconfig]

/-- Any two reports on record differ in both time and packets. -/
theorem pairwise_reports (config : PolicyConfig) (observations : List Observation) :
    (behind { config } observations).reports.Pairwise Advances := by
  rw [(reports_behind config observations).1]
  exact (pairwise_kept _).sublist (List.drop_sublist _ _)

/-! ### The baseline of a window -/

section Baseline

variable {p : Policy} {earlier : List Sample} {latest : Sample} (window : Nat)

theorem baseline_concat (h : p.reports = earlier ++ [latest]) :
    p.baseline window
      = (earlier.reverse.find? fun old => latest.time - old.time ≥ window).map
          fun old => (old, latest) := by
  rw [baseline, h, List.reverse_concat]

/-- The baseline is on record before the last report, a window older than it, and no report
    between them is. The search runs from the newest report back; as times rise, it is
    enough to say where it stopped and that it passed over what is newer. -/
theorem baseline_eq_some_iff (h : p.reports.Pairwise Advances) (old latest : Sample) :
    p.baseline window = some (old, latest) ↔
      ∃ before between, p.reports = before ++ old :: (between ++ [latest]) ∧
        old.time + window ≤ latest.time ∧ ∀ r ∈ between, latest.time < r.time + window := by
  rcases List.eq_nil_or_concat p.reports with hnone | ⟨earlier, last, hsome⟩
  · rw [baseline, hnone]
    refine ⟨fun hfalse => (nomatch hfalse), ?_⟩
    rintro ⟨before, between, hreports, -⟩
    exact absurd hreports.symm (List.append_ne_nil_of_right_ne_nil _ (List.cons_ne_nil _ _))
  · rw [List.concat_eq_append] at hsome
    rw [hsome, List.pairwise_append] at h
    rw [baseline_concat window hsome, hsome]
    simp only [Option.map_eq_some_iff, Prod.mk.injEq, List.find?_eq_some_iff_append,
      decide_eq_true_eq, Bool.not_eq_true', decide_eq_false_iff_not, ge_iff_le]
    constructor
    · -- The search ran from the newest report, so what it passed over stands behind what it
      -- found.
      rintro ⟨baseline, ⟨hwindow, later, before, hearlier, hbetween⟩, hold, hlast⟩
      subst hold hlast
      rw [List.reverse_eq_iff, List.reverse_append, List.reverse_cons, List.append_assoc,
        List.singleton_append] at hearlier
      have hmem : baseline ∈ earlier := by
        rw [hearlier]
        exact List.mem_append_right _ List.mem_cons_self
      have htime : baseline.time < last.time := (h.2.2 _ hmem last List.mem_cons_self).1
      refine ⟨before.reverse, later.reverse, ?_, by omega, fun r hr => ?_⟩
      · rw [hearlier, List.append_assoc, List.cons_append]
      · have hshort := hbetween r (List.mem_reverse.mp hr)
        omega
    · -- The search passes over those in between, which are too new, and stops at the old
      -- one.
      rintro ⟨before, between, hreports, hwindow, hbetween⟩
      rw [← List.cons_append, ← List.append_assoc] at hreports
      rcases List.append_inj' hreports rfl with ⟨rfl, hlast⟩
      cases hlast
      refine ⟨old, ⟨by omega, between.reverse, before.reverse, ?_, fun r hr => ?_⟩, rfl, rfl⟩
      · rw [List.reverse_append, List.reverse_cons, List.append_assoc, List.singleton_append]
      · have hshort := hbetween r (List.mem_reverse.mp hr)
        have htime : r.time < latest.time := (h.2.2 r (List.mem_append_right _
          (List.mem_cons_of_mem _ (List.mem_reverse.mp hr))) latest List.mem_cons_self).1
        omega

/-- There is no baseline while no report on record is a window older than the last. An empty
    record has none for want of a last report. -/
theorem baseline_eq_none_iff (h : p.reports.Pairwise Advances) :
    p.baseline window = none ↔
      ∀ earlier latest, p.reports = earlier ++ [latest] →
        ∀ r ∈ earlier, latest.time < r.time + window := by
  rcases List.eq_nil_or_concat p.reports with hnone | ⟨earlier, last, hsome⟩
  · rw [baseline, hnone]
    refine ⟨fun _ earlier latest hreports => ?_, fun _ => rfl⟩
    exact absurd hreports.symm (List.append_ne_nil_of_right_ne_nil _ (List.cons_ne_nil _ _))
  · rw [List.concat_eq_append] at hsome
    rw [hsome, List.pairwise_append] at h
    rw [baseline_concat window hsome, hsome]
    simp only [Option.map_eq_none_iff, List.find?_eq_none, List.mem_reverse, decide_eq_true_eq,
      ge_iff_le]
    constructor
    · intro hshort earlier' latest hreports r hr
      rcases List.append_inj' hreports rfl with ⟨rfl, hlast⟩
      cases hlast
      have hnot := hshort r hr
      omega
    · intro hshort r hr
      have hless := hshort earlier last rfl r hr
      -- Times rise, so the difference does not round up to zero.
      have htime : r.time < last.time := (h.2.2 r hr last List.mem_cons_self).1
      omega

end Baseline

/-! ### The loss over a window -/

section Numbers

variable {α : Type} [OfNat α 0] [OfNat α 100] [Sub α] [Mul α] [Div α] [LT α] [LE α]
  [DecidableLT α] [DecidableLE α]

/-- A number, held between zero and one hundred. -/
def clampIn (x : α) : α :=
  if x < 0 then 0 else if x > 100 then 100 else x

/-- The loss between two reports, in percent, in numbers of any kind. -/
def lossIn (ofNat : Nat → α) (old latest : Sample) : α :=
  let lost := ofNat latest.lost - ofNat old.lost
  let sent := ofNat latest.sent - ofNat old.sent
  if sent ≤ 0 then 0 else clampIn (100 * lost / sent)

/-- The loss over a window that ends with the last report, in numbers of any
    kind. -/
def percentIn (ofNat : Nat → α) (p : Policy) (window : Nat) : α :=
  match p.baseline window with
  | none => 0
  | some (old, latest) => lossIn ofNat old latest

end Numbers

/-- The policy computes with numbers that round. -/
theorem lossPercent_eq_percentIn (p : Policy) (window : Nat) :
    p.lossPercent window = percentIn Decimal.ofNat p window :=
  rfl

/-- To hold a number in a range is to take the smaller and the larger of it and the bounds. -/
theorem clampIn_eq (x : ℚ) : clampIn x = min 100 (max 0 x) := by
  unfold clampIn
  rcases lt_or_ge x 0 with hlow | hlow
  · rw [if_pos hlow, max_eq_left hlow.le, min_eq_right (by decide)]
  · rw [if_neg hlow.not_gt, max_eq_right hlow]
    rcases lt_or_ge 100 x with hhigh | hhigh
    · rw [if_pos hhigh, min_eq_left hhigh.le]
    · rw [if_neg hhigh.not_gt, min_eq_right hhigh]

/-- Between reports that differ in packets the quotient is taken. -/
theorem lossIn_eq (old latest : Sample) (h : old.sent < latest.sent) :
    lossIn Nat.cast old latest
      = min 100 (max 0 (100 * ((latest.lost : ℚ) - old.lost) / (latest.sent - old.sent))) := by
  -- Packets were sent, so the quotient is taken and not replaced by zero.
  have hsent : (0 : ℚ) < latest.sent - old.sent := sub_pos.mpr (Nat.cast_lt.mpr h)
  rw [lossIn, if_neg (not_le.mpr hsent), clampIn_eq]

/-! ### Every run -/

/-- What the reports on record are, and what they show. -/
structure ReportWindows (config : PolicyConfig) (reported : List Sample) (p : Policy) : Prop where
  /-- They are the last of those that are kept. -/
  reports_eq : p.reports = (kept reported).rtake config.maxReports
  /-- Each is ahead of all older ones, in time and in packets. -/
  rising : p.reports.Pairwise fun a b => a.time < b.time ∧ a.sent < b.sent
  /-- The baseline of a window is the newest that is old enough. -/
  baseline_some : ∀ window old latest, p.baseline window = some (old, latest) ↔
    ∃ before between, p.reports = before ++ old :: (between ++ [latest]) ∧
      old.time + window ≤ latest.time ∧ ∀ r ∈ between, latest.time < r.time + window
  /-- There is none only if no report but the last is old enough. -/
  baseline_none : ∀ window, p.baseline window = none ↔
    ∀ earlier latest, p.reports = earlier ++ [latest] →
      ∀ r ∈ earlier, latest.time < r.time + window
  /-- Where there is one, packets were sent since. -/
  sent_lt : ∀ window old latest, p.baseline window = some (old, latest) → old.sent < latest.sent
  /-- The percentage is an expression in the counters, which are rounded. -/
  rounded : ∀ window, p.lossPercent window = percentIn Decimal.ofNat p window
  /-- Without a baseline it is zero. -/
  exact_none : ∀ window, p.baseline window = none →
    p.lossPercent window = 0 ∧ percentIn Nat.cast p window = (0 : ℚ)
  /-- Without rounding, it is the share of packets that were lost since. -/
  exact_some : ∀ window old latest, p.baseline window = some (old, latest) →
    percentIn Nat.cast p window
      = min 100 (max 0 (100 * ((latest.lost : ℚ) - old.lost) / (latest.sent - old.sent)))

/-- The reports on record behind any run, and the loss over any window. The percentage is
    told twice: as the policy computes it, in numbers that round, and by the same expression
    in rational numbers, where it is the share of packets that were lost, held between 0 and
    100. -/
theorem reportWindows_run (config : PolicyConfig) (observations : List Observation) :
    ReportWindows config (samples observations) (behind { config } observations) := by
  have hrising := pairwise_reports config observations
  have hsent : ∀ window old latest,
      (behind { config } observations).baseline window = some (old, latest) →
        old.sent < latest.sent := by
    intro window old latest hbaseline
    rcases (baseline_eq_some_iff window hrising old latest).mp hbaseline with
      ⟨before, between, hreports, -⟩
    -- The baseline stands before the last report, and reports rise.
    rw [hreports, List.pairwise_append] at hrising
    exact ((List.pairwise_cons.mp hrising.2.1).1 latest
      (List.mem_append_right _ List.mem_cons_self)).2
  refine ⟨(reports_behind config observations).1, hrising, fun window =>
    baseline_eq_some_iff window hrising, fun window => baseline_eq_none_iff window hrising, hsent,
    fun window => lossPercent_eq_percentIn _ window, fun window hbaseline => ?_,
    fun window old latest hbaseline => ?_⟩
  · rw [lossPercent, percentIn, hbaseline]
    exact ⟨rfl, rfl⟩
  · rw [percentIn, hbaseline]
    exact lossIn_eq old latest (hsent window old latest hbaseline)

/-- A tenth of the packets is lost over five seconds. The last report counts
    more of them, but it is stale. -/
def staleReports : List Observation :=
  [.report ⟨0, 100, 0⟩ 0, .report ⟨5000, 200, 10⟩ 5000, .report ⟨5000, 250, 50⟩ 6000]

/-- The stale report is ignored, and the loss is what it was. It has the time of the one
    before it, so that its larger counters are no news. -/
theorem reportWindows_stale :
    (behind {} staleReports).reports = [⟨0, 100, 0⟩, ⟨5000, 200, 10⟩] ∧
      (behind {} staleReports).baseline 5000 = some (⟨0, 100, 0⟩, ⟨5000, 200, 10⟩) ∧
      percentIn Nat.cast (behind {} staleReports) 5000 = (10 : ℚ) := by
  have h := reportWindows_run {} staleReports
  have hreports : (behind {} staleReports).reports = [⟨0, 100, 0⟩, ⟨5000, 200, 10⟩] :=
    h.reports_eq.trans (by decide)
  have hbaseline := (h.baseline_some 5000 ⟨0, 100, 0⟩ ⟨5000, 200, 10⟩).mpr
    ⟨[], [], hreports, by decide, List.forall_mem_nil _⟩
  exact ⟨hreports, hbaseline, (h.exact_some 5000 _ _ hbaseline).trans (by decide +kernel)⟩

end Policy

end Redundancy

end RedundantAudio
