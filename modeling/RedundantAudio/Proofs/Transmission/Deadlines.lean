import Mathlib.Data.List.Nodup
import Mathlib.Data.Nat.Basic
import Mathlib.Tactic.Set
import Mathlib.Tactic.SplitIfs
import RedundantAudio.Transmission.Stream

/-!
# When Reports Fall Due

A deadline moves on by the interval with every report, media time by 20 ms with
every frame, and there is one report per frame at most. So there are two clocks
to wait for. Report number `k` comes no sooner than frame number `k`, and no
sooner than media time has reached `k` intervals. It comes as soon as both are
there, and `reportFrame` is the frame that brings it.

`reportCount` is how many reports have come by then. The two answer the same
question from either side (`le_reportCount_iff`), and everything about the
deadlines follows from that and from the frames of two reports being different.
With an interval below 20 ms the frames are what is waited for, and the deadlines
lag behind for good. With a longer one it is media time, and there are frames
that bring no report.

## Main definitions

* `reportCount`: How many reports have come with so many frames.
* `reportFrame`: The frame that brings a report.
* `reportsAfter`: The reports that a frame brings.

## Theorems

* `le_reportCount_iff`: The two sides of a deadline.
* `reportFrame_lt_succ`: No frame brings two reports.
* `reportCount_succ`: One more frame, and perhaps one more report.
* `reportsAfter_succ`: Which one it is.
* `flatMap_reportsAfter`: All of them in order.
-/

namespace RedundantAudio

namespace Transmission

/-- The number of reports that have come with so many frames, by the interval. -/
def reportCount (interval frames : Nat) : Nat :=
  if interval = 0 then frames else min frames (20 * frames / interval)

/-- The number of the frame that brings a report, both counted from one. -/
def reportFrame (interval number : Nat) : Nat :=
  max number ((number * interval + 19) / 20)

/-- The numbers of the reports that a frame brings. -/
def reportsAfter (interval frame : Nat) : List Nat :=
  (List.range' 1 frame).filter fun number => reportFrame interval number = frame

theorem reportFrame_of_mem {interval frame number : Nat}
    (h : number ∈ reportsAfter interval frame) : reportFrame interval number = frame :=
  of_decide_eq_true (List.mem_filter.mp h).2

variable (interval : Nat)

/-- A report has come if there are as many frames as reports, and media time has reached its
    deadline. A frame brings one report at most, hence the first condition. -/
theorem reportFrame_le_iff (number frames : Nat) :
    reportFrame interval number ≤ frames ↔
      number ≤ frames ∧ number * interval ≤ 20 * frames := by
  rw [reportFrame, Nat.max_le]
  omega

/-- Reports are counted by the frames that bring them. -/
theorem le_reportCount_iff (number frames : Nat) :
    number ≤ reportCount interval frames ↔ reportFrame interval number ≤ frames := by
  rw [reportFrame_le_iff, reportCount]
  by_cases h : interval = 0
  · rw [if_pos h, h]
    omega
  · rw [if_neg h, Nat.le_min, Nat.le_div_iff_mul_le (Nat.pos_of_ne_zero h)]

theorem reportCount_le (frames : Nat) : reportCount interval frames ≤ frames :=
  ((reportFrame_le_iff interval _ frames).mp
    ((le_reportCount_iff interval _ frames).mp le_rfl)).1

theorem reportFrame_eq_iff (number frame : Nat) :
    reportFrame interval number = frame + 1 ↔
      number ≤ reportCount interval (frame + 1) ∧ ¬ number ≤ reportCount interval frame := by
  rw [le_reportCount_iff, le_reportCount_iff]
  omega

/-- Two reports do not come with one frame. -/
theorem reportFrame_lt_succ (number : Nat) :
    reportFrame interval number < reportFrame interval (number + 1) := by
  rw [reportFrame, reportFrame, Nat.succ_mul]
  by_cases h : interval ≤ 20
  · -- Time runs ahead, so it is the frames that are waited for.
    have htime := Nat.mul_le_mul_left number h
    omega
  · omega

/-- One frame more brings one report more, if media time has reached its deadline. It brings
    no second one: deadlines that are passed at once are made up for frame by frame. -/
theorem reportCount_succ (frames : Nat) :
    reportCount interval (frames + 1) = reportCount interval frames
      + if (reportCount interval frames + 1) * interval ≤ 20 * (frames + 1) then 1 else 0 := by
  set count := reportCount interval frames
  have hle : count ≤ frames := reportCount_le interval frames
  have hlast : reportFrame interval count ≤ frames := (le_reportCount_iff interval _ _).mp le_rfl
  have hfirst : frames < reportFrame interval (count + 1) := by
    rw [← not_le, ← le_reportCount_iff]
    omega
  -- The report after the next one comes with a later frame, so there is one at most.
  have hsecond := reportFrame_lt_succ interval (count + 1)
  have hleast : count ≤ reportCount interval (frames + 1) := by
    rw [le_reportCount_iff]
    omega
  have hmost : ¬ count + 1 + 1 ≤ reportCount interval (frames + 1) := by
    rw [le_reportCount_iff]
    omega
  have hmore : count + 1 ≤ reportCount interval (frames + 1) ↔
      (count + 1) * interval ≤ 20 * (frames + 1) := by
    rw [le_reportCount_iff, reportFrame_le_iff]
    omega
  split_ifs with hdue <;> rw [← hmore] at hdue <;> omega

/-- The report that a frame brings is the one after those that have come. The list is told
    by numbers of frames and not by the course of a run, so this is where the two are
    compared. -/
theorem reportsAfter_succ (frames : Nat) :
    reportsAfter interval (frames + 1)
      = if (reportCount interval frames + 1) * interval ≤ 20 * (frames + 1) then
          [reportCount interval frames + 1] else [] := by
  have hsucc := reportCount_succ interval frames
  have hle := reportCount_le interval frames
  rw [reportsAfter]
  split_ifs with hdue
  · rw [if_pos hdue] at hsucc
    -- Only the next number is due now and was not due before.
    have hnumber : ∀ number ∈ List.range' 1 (frames + 1),
        decide (reportFrame interval number = frames + 1)
          = decide (number = reportCount interval frames + 1) := by
      intro number _
      rw [decide_eq_decide, reportFrame_eq_iff]
      omega
    rw [List.filter_congr hnumber, List.filter_eq, List.count_eq_one_of_mem List.nodup_range'
      (List.mem_range'_1.mpr (by omega))]
    rfl
  · rw [if_neg hdue, Nat.add_zero] at hsucc
    rw [List.filter_eq_nil_iff]
    intro number _
    rw [decide_eq_true_eq, reportFrame_eq_iff, hsucc]
    omega

/-- The reports that have come are those that the frames have brought. A frame brings one at
    most, so the numbers go up one by one. -/
theorem flatMap_reportsAfter (frames : Nat) :
    ((List.range frames).flatMap fun n => reportsAfter interval (n + 1))
      = List.range' 1 (reportCount interval frames) := by
  induction frames with
  | zero => rw [Nat.le_zero.mp (reportCount_le interval 0)]; rfl
  | succ frames ih =>
      rw [List.range_succ, List.flatMap_append, ih, List.flatMap_singleton, reportsAfter_succ,
        reportCount_succ]
      split_ifs with hdue
      · rw [List.range'_concat, Nat.one_mul, Nat.add_comm 1]
      · rw [List.append_nil, Nat.add_zero]

end Transmission

end RedundantAudio
