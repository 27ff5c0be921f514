import Mathlib.Data.Nat.Find
import RedundantAudio.Proofs.Redundancy.Windows

/-!
# Reports at a Steady Pace

Reports that arrive at a steady pace all move forward, so the record holds the
last of them, as many as there is room for. The windows are measured in time
and the room is counted in reports, and that is the point of this module: so
many reports reach back over one interval less than there are of them, and a
window that is longer than that is never filled, however long the reports go
on. With room for 20 reports and a window of five seconds this happens at 263
milliseconds and below.

Where the reports on record do reach back far enough, the baseline is the
report that lies the least number of intervals back that fills the window. It
is found by its place, and the reports behind it are too new.

## Main definitions

* `steadyReport`, `steady`: Reports at a steady pace.
* `quickReports`: Reports that come too quickly.

## Theorems

* `reports_steady`: What is on record of them.
* `baseline_steady`: The baseline, where they reach back far enough.
* `baseline_steady_none`: There is none where they do not.
* `not_every_interval`: A window that is never filled.
* `steady_window`: When a window is filled.
-/

namespace RedundantAudio

namespace Redundancy

namespace Policy

/-- One of the reports that arrive at a steady pace, the first of them one
    interval after the start. -/
def steadyReport (interval : Nat) (sent lost : Nat → Nat) (i : Nat) : Sample :=
  ⟨(i + 1) * interval, sent i, lost i⟩

/-- So many reports at a steady pace. -/
def steady (interval : Nat) (sent lost : Nat → Nat) (count : Nat) : List Sample :=
  (List.range count).map (steadyReport interval sent lost)

variable {interval count : Nat} {sent lost : Nat → Nat} {observations : List Observation}

/-- Reports at a steady pace follow each other as reports should, if the number of packets
    sent increases. -/
theorem pairwise_steady (hinterval : 1 ≤ interval)
    (hsent : ∀ i j, i < j → j < count → sent i < sent j) :
    (steady interval sent lost count).Pairwise Advances := by
  rw [steady, List.pairwise_map]
  refine List.pairwise_lt_range.imp_of_mem fun {i j} _ hj hlt => ⟨?_, ?_⟩
  · exact Nat.mul_lt_mul_of_pos_right (Nat.succ_lt_succ hlt) hinterval
  · exact hsent i j hlt (List.mem_range.mp hj)

/-- The last reports at a steady pace are on record, as many as there is room
    for. -/
theorem reports_steady (config : PolicyConfig) (hinterval : 1 ≤ interval)
    (hsent : ∀ i j, i < j → j < count → sent i < sent j)
    (hreports : samples observations = steady interval sent lost count) :
    (behind { config } observations).reports
      = (List.range' (count - config.maxReports) (min count config.maxReports)).map
          (steadyReport interval sent lost) := by
  rw [(reports_behind config observations).1, hreports,
    kept_eq_self _ (pairwise_steady hinterval hsent), List.rtake, steady, List.length_map,
    List.length_range, ← List.map_drop, List.range_eq_range', List.drop_range', Nat.zero_add]
  congr 2 <;> omega

/-- As many intervals as fill a window lie between two reports. The baseline is the newest
    report that is old enough, and at a steady pace its place is a quotient, rounded up. -/
theorem baseline_steady {p : Policy} {start size back window : Nat}
    (hreports : p.reports
      = (List.range' start size).map (steadyReport interval sent lost))
    (hrising : p.reports.Pairwise Advances) (hback : 0 < back) (hroom : back < size)
    (hwindow : window ≤ back * interval) (hleast : (back - 1) * interval < window) :
    p.baseline window
      = some (steadyReport interval sent lost (start + size - 1 - back),
          steadyReport interval sent lost (start + size - 1)) := by
  obtain ⟨before, rfl⟩ : ∃ before, size = before + (back + 1) := ⟨size - (back + 1), by omega⟩
  obtain ⟨between, rfl⟩ : ∃ between, back = between + 1 := ⟨back - 1, by omega⟩
  have hold : start + (before + (between + 1 + 1)) - 1 - (between + 1) = start + before := by omega
  have hlatest : start + (before + (between + 1 + 1)) - 1 = start + before + 1 + between := by omega
  -- The record splits at the report so many intervals back.
  refine (baseline_eq_some_iff window hrising _ _).mpr
    ⟨(List.range' start before).map (steadyReport interval sent lost),
      (List.range' (start + before + 1) between).map (steadyReport interval sent lost), ?_, ?_, ?_⟩
  · rw [hreports, hold, hlatest, ← List.range'_append_1, List.range'_succ,
      List.range'_1_concat, List.map_append, List.map_cons, List.map_append, List.map_singleton]
  · rw [hold, hlatest]
    simp only [steadyReport]
    rw [show start + before + 1 + between + 1 = start + before + 1 + (between + 1) by omega,
      Nat.add_mul _ (between + 1)]
    omega
  · -- A report between them is fewer intervals back than fill the window.
    intro r hr
    rcases List.mem_map.mp hr with ⟨i, hi, rfl⟩
    rw [List.mem_range'_1] at hi
    obtain ⟨apart, hapart, hfew⟩ : ∃ apart, start + before + 1 + between = i + apart ∧
        apart ≤ between := ⟨start + before + 1 + between - i, by omega, by omega⟩
    have hless : apart * interval ≤ between * interval := Nat.mul_le_mul_right interval hfew
    rw [Nat.add_sub_cancel] at hleast
    rw [hlatest, hapart]
    simp only [steadyReport]
    rw [show i + apart + 1 = i + 1 + apart by omega, Nat.add_mul _ apart]
    omega

/-- All reports on record are too new for a window that they do not fill, however long the
    stream has run: older reports have been let go, and the record never reaches back
    further. -/
theorem baseline_steady_none {p : Policy} {start size window : Nat}
    (hreports : p.reports
      = (List.range' start size).map (steadyReport interval sent lost))
    (hrising : p.reports.Pairwise Advances) (hshort : (size - 1) * interval < window) :
    p.baseline window = none := by
  refine (baseline_eq_none_iff window hrising).mpr fun earlier latest hsplit r hr => ?_
  -- Both are reports of the regular run, so the time between them is a number of intervals.
  have hlatest : latest ∈ p.reports := by
    rw [hsplit]
    exact List.mem_append_right _ List.mem_cons_self
  have hold : r ∈ p.reports := by
    rw [hsplit]
    exact List.mem_append_left _ hr
  rw [hreports] at hlatest hold
  rcases List.mem_map.mp hlatest with ⟨j, hj, rfl⟩
  rcases List.mem_map.mp hold with ⟨i, hi, rfl⟩
  rw [List.mem_range'_1] at hi hj
  -- They are no further apart than the first and the last on record, which is too short.
  have hspan : (j + 1) * interval ≤ (i + 1 + (size - 1)) * interval :=
    Nat.mul_le_mul_right interval (by omega)
  rw [Nat.add_mul _ (size - 1)] at hspan
  simp only [steadyReport]
  omega

/-! ### When a window is filled -/

/-- A window that is over since the first report is filled if the reports that
    there is room for reach back as far, and the baseline is then the report
    that just fills it. Otherwise there is never a baseline, and no loss is
    seen. -/
theorem steady_window (config : PolicyConfig) (interval count window : Nat) (sent lost : Nat → Nat)
    (observations : List Observation) (hinterval : 1 ≤ interval)
    (hsent : ∀ i j, i < j → j < count → sent i < sent j)
    (hreports : samples observations = steady interval sent lost count) (hwindow : 0 < window)
    (hlong : window ≤ (count - 1) * interval) :
    (window ≤ (config.maxReports - 1) * interval →
      ∃ back, 0 < back ∧ back < count ∧ back < config.maxReports ∧
        window ≤ back * interval ∧ (back - 1) * interval < window ∧
        (behind { config } observations).baseline window
          = some (steadyReport interval sent lost (count - 1 - back),
              steadyReport interval sent lost (count - 1)) ∧
        (behind { config } observations).lossPercent window
          = lossBetween (steadyReport interval sent lost (count - 1 - back))
              (steadyReport interval sent lost (count - 1))) ∧
    ((config.maxReports - 1) * interval < window →
      (behind { config } observations).baseline window = none ∧
        (behind { config } observations).lossPercent window = 0) := by
  have hrecord := reports_steady config hinterval hsent hreports
  have hrising := pairwise_reports config observations
  constructor
  · intro hroom
    -- The least number of intervals that fills the window.
    have hfilled : ∃ back, window ≤ back * interval := ⟨_, hlong⟩
    obtain ⟨back, hback, hleast⟩ : ∃ back, window ≤ back * interval ∧
        ∀ fewer < back, fewer * interval < window :=
      ⟨Nat.find hfilled, Nat.find_spec hfilled, fun fewer hfewer =>
        Nat.lt_of_not_le (Nat.find_min hfilled hfewer)⟩
    have hpos : 0 < back := by
      rcases Nat.eq_zero_or_pos back with rfl | hpos
      · omega
      · exact hpos
    -- The first report is old enough, so the least number does not reach behind it.
    have hfirst : back ≤ count - 1 :=
      Nat.le_of_not_lt fun hlt => Nat.not_lt.mpr hlong (hleast _ hlt)
    -- The oldest report on record is old enough as well.
    have holdest : back ≤ config.maxReports - 1 :=
      Nat.le_of_not_lt fun hlt => Nat.not_lt.mpr hroom (hleast _ hlt)
    have hbaseline := baseline_steady hrecord hrising hpos (by omega) hback
      (hleast _ (Nat.sub_lt hpos Nat.zero_lt_one))
    rw [show count - config.maxReports + min count config.maxReports = count by omega] at hbaseline
    refine ⟨back, hpos, by omega, by omega, hback, hleast _ (Nat.sub_lt hpos Nat.zero_lt_one),
      hbaseline, ?_⟩
    rw [lossPercent, hbaseline]
  · -- Even the oldest report on record is newer than the window is long.
    intro hshort
    have hsize : (min count config.maxReports - 1) * interval
        ≤ (config.maxReports - 1) * interval := Nat.mul_le_mul_right interval (by omega)
    have hbaseline := baseline_steady_none hrecord hrising (hsize.trans_lt hshort)
    refine ⟨hbaseline, ?_⟩
    rw [lossPercent, hbaseline]

/-- A report each second, with a twentieth of the packets lost. -/
def secondReports : List Observation :=
  (List.range 7).map fun i => .report ⟨(i + 1) * 1000, (i + 1) * 100, (i + 1) * 5⟩ ((i + 1) * 1000)

/-- The short window is filled by five of these. With a report every second, the baseline is
    always five reports behind the last. -/
theorem steady_window_seconds :
    (5000 ≤ (7 - 1) * 1000 ∧ 5000 ≤ (({} : PolicyConfig).maxReports - 1) * 1000) ∧
      (behind {} secondReports).baseline ({} : PolicyConfig).shortWindow
        = some (⟨2000, 200, 10⟩, ⟨7000, 700, 35⟩) ∧
      (behind {} secondReports).lossPercent ({} : PolicyConfig).shortWindow
        = lossBetween ⟨2000, 200, 10⟩ ⟨7000, 700, 35⟩ := by
  refine ⟨by decide, ?_⟩
  rcases (steady_window {} 1000 7 5000 (fun i => (i + 1) * 100) (fun i => (i + 1) * 5)
    secondReports (by decide) (fun i j _ _ => by omega) rfl (by decide)
    (by decide)).1 (by decide) with ⟨back, -, -, -, hback, hleast, hbaseline, hloss⟩
  obtain rfl : back = 5 := by omega
  exact ⟨hbaseline, hloss⟩

/-! ### A window that is never filled -/

/-- A report each quarter of a second, for more than five seconds. -/
def quickReports : List Observation :=
  (List.range 21).map fun i => .report ⟨(i + 1) * 250, (i + 1) * 100, (i + 1) * 5⟩ ((i + 1) * 250)

/-- Twenty reports reach back over 4.75 seconds, so the short window has no baseline
    although it is over. With four reports in a second the record is too short for the
    window, and the loss over it is taken for none at any time. -/
theorem not_every_interval :
    samples quickReports = steady 250 (fun i => (i + 1) * 100) (fun i => (i + 1) * 5) 21 ∧
      ({} : PolicyConfig).shortWindow ≤ (21 - 1) * 250 ∧
      (behind {} quickReports).baseline ({} : PolicyConfig).shortWindow = none ∧
      (behind {} quickReports).lossPercent ({} : PolicyConfig).shortWindow = 0 ∧
      ¬ ∀ (interval count : Nat) (sent lost : Nat → Nat) (observations : List Observation),
        1 ≤ interval → (∀ i j, i < j → j < count → sent i < sent j) →
        samples observations = steady interval sent lost count →
        ({} : PolicyConfig).shortWindow ≤ (count - 1) * interval →
        ∃ old latest, (behind {} observations).baseline ({} : PolicyConfig).shortWindow
          = some (old, latest) := by
  have hsent : ∀ i j, i < j → j < 21 → (i + 1) * 100 < (j + 1) * 100 := by omega
  have hreports : samples quickReports
      = steady 250 (fun i => (i + 1) * 100) (fun i => (i + 1) * 5) 21 := rfl
  have hbaseline : (behind {} quickReports).baseline ({} : PolicyConfig).shortWindow = none :=
    baseline_steady_none (reports_steady {} (by decide) hsent hreports)
      (pairwise_reports {} quickReports) (by decide)
  -- The record is too short, although the window is over.
  refine ⟨hreports, by decide, hbaseline, ?_, fun hclaim => ?_⟩
  · rw [lossPercent, hbaseline]
  · rcases hclaim 250 21 _ _ quickReports (by decide) hsent hreports (by decide) with
      ⟨old, latest, hsome⟩
    rw [hbaseline] at hsome
    cases hsome

end Policy

end Redundancy

end RedundantAudio
