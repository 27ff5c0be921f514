import RedundantAudio.Proofs.Loss.Stream

/-!
# Accounts and Reports

A tracker remembers when it last reported, and reports once enough media time
has passed since. Nothing else depends on that: packets are accounted for in the
same way whenever the last report was, and a report leaves the accounts as they
are. Whoever follows the accounts may leave the reports out.

## Main definitions

* `reported`: A tracker that last reported at some other time.

## Theorems

* `countBlock_reported`, `countPacket_reported`: Packets are accounted for
  without regard to reports.
* `reportDue_countPacket`: Reports are due without regard to packets.
* `exists_report`: A report changes nothing else.
-/

namespace RedundantAudio

namespace Loss

namespace Tracker

variable (t : Tracker) (last : Option UInt32)

/-- A tracker whose last report was at some time. -/
def reported : Tracker :=
  { t with lastReport := last }

theorem accepts_reported (sequence : UInt16) :
    (t.reported last).accepts sequence = t.accepts sequence :=
  rfl

/-- A credit to redundancy is given without regard to reports. -/
theorem creditRed_reported (time : UInt32) :
    (t.reported last).creditRed time = (t.creditRed time).reported last := by
  by_cases hidle : t.counters.lost = 0 ∨ t.primaries.contains time = true
  · rw [creditRed_idle t time hidle, creditRed_idle (t.reported last) time hidle]
  rw [not_or, Bool.not_eq_true] at hidle
  -- What is left to tell apart is whether the credit is new.
  cases hred : t.redCredits.contains time with
  | true =>
      simp only [creditRed, reported, hidle, hred, decide_false, Bool.or_self,
        Bool.false_eq_true, if_false, if_true]
      split <;> rfl
  | false =>
      rw [creditRed_new t time hidle.1 hidle.2 hred,
        creditRed_new (t.reported last) time hidle.1 hidle.2 hred]
      rfl

/-- A credit to correction data is given without regard to reports. -/
theorem creditFec_reported (time : UInt32) :
    (t.reported last).creditFec time = (t.creditFec time).reported last := by
  by_cases hidle : t.counters.lost = 0 ∨
      t.primaries.contains (time - t.config.packetizationTime) = true ∨
      t.redCredits.contains (time - t.config.packetizationTime) = true ∨
      t.fecCredits.contains (time - t.config.packetizationTime) = true
  · rw [creditFec_idle t time hidle, creditFec_idle (t.reported last) time hidle]
  · simp only [not_or, Bool.not_eq_true] at hidle
    rcases hidle with ⟨hlost, hprimary, hred, hfec⟩
    rw [creditFec_new t time hlost hprimary hred hfec,
      creditFec_new (t.reported last) time hlost hprimary hred hfec]
    rfl

theorem takeBackCredits_reported (time : UInt32) :
    (t.reported last).takeBackCredits time = (t.takeBackCredits time).reported last := by
  cases hred : t.redCredits.contains time <;> cases hfec : t.fecCredits.contains time <;>
    simp only [takeBackCredits, reported, hred, hfec, if_true, Bool.false_eq_true, if_false]

/-- A late primary is counted without regard to reports. -/
theorem countLate_reported (time : UInt32) :
    (t.reported last).countLate time = (t.countLate time).reported last := by
  have hprimaries : (t.reported last).primaries = t.primaries := rfl
  rw [countLate, countLate, hprimaries]
  split
  · rfl
  · exact takeBackCredits_reported { t with
      counters.lost := t.counters.lost - 1
      primaries := t.primaries.add time } last time

/-- A primary is counted without regard to reports, whatever becomes of it. So it does not
    matter whether a report is closed before a packet is accounted for or behind it. -/
theorem countPrimary_reported (sequence : UInt16) (time : UInt32) :
    (t.reported last).countPrimary sequence time
      = (t.countPrimary sequence time).reported last := by
  have hlate := countLate_reported t last time
  have hnewest : (t.reported last).newest = t.newest := rfl
  rw [countPrimary, countPrimary, hnewest, accepts_reported]
  cases t.newest with
  | none => rfl
  | some newest =>
      dsimp only
      split
      · rfl
      · split
        · exact hlate
        · split <;> rfl

/-- Blocks are accounted for without regard to reports. -/
theorem countBlock_reported (sequence : UInt16) (block : Red.Block) :
    (t.reported last).countBlock sequence block
      = (t.countBlock sequence block).reported last := by
  rw [countBlock, countBlock, accepts_reported, countPrimary_reported, creditRed_reported]
  dsimp only
  split
  · rfl
  · split <;> split <;> first | exact creditFec_reported _ _ _ | rfl

/-- A packet is accounted for without regard to reports, by induction on its blocks. -/
theorem countPacket_reported (sequence : UInt16) (blocks : List Red.Block) :
    (t.reported last).countPacket sequence blocks
      = (t.countPacket sequence blocks).reported last := by
  rw [countPacket, countPacket]
  generalize blocks.reverse = blocks
  induction blocks generalizing t with
  | nil => rfl
  | cons block blocks ih => rw [List.foldl_cons, List.foldl_cons, countBlock_reported, ih]

theorem lastReport_countPacket (sequence : UInt16) (blocks : List Red.Block) :
    (t.countPacket sequence blocks).lastReport = t.lastReport := by
  -- The tracker is the one that last reported when it did.
  have hsame := congrArg lastReport (countPacket_reported t t.lastReport sequence blocks)
  exact hsame

/-- A primary leaves the tuning alone, also where it takes credits back. The limits that
    packets are judged by are the same along the whole stream. -/
theorem config_countPrimary (sequence : UInt16) (time : UInt32) :
    (t.countPrimary sequence time).config = t.config := by
  simp only [countPrimary]
  cases t.newest with
  | none => rfl
  | some newest =>
      dsimp only
      split
      · rfl
      · split
        · -- A late one may take credits back, and they leave it alone as well.
          rw [countLate]
          split
          · rfl
          · exact (agrees_takeBackCredits _ time).config_eq
        · split <;> rfl

/-- A block leaves the tuning alone. -/
theorem config_countBlock (sequence : UInt16) (block : Red.Block) :
    (t.countBlock sequence block).config = t.config := by
  -- Credits leave the tuning alone, and so does the primary.
  have hasked : (if block.isLast then t.countPrimary sequence block.timestamp
      else t.creditRed block.timestamp).config = t.config := by
    split
    · exact t.config_countPrimary sequence block.timestamp
    · exact (agrees_creditRed t block.timestamp).config_eq
  rw [countBlock]
  split
  · rfl
  · dsimp only
    split
    · rw [(agrees_creditFec _ block.timestamp).config_eq, hasked]
    · exact hasked

/-- A packet leaves the tuning alone, by induction on its blocks. -/
theorem config_countPacket (sequence : UInt16) (blocks : List Red.Block) :
    (t.countPacket sequence blocks).config = t.config := by
  rw [countPacket]
  generalize blocks.reverse = blocks
  induction blocks generalizing t with
  | nil => rfl
  | cons block blocks ih => rw [List.foldl_cons, ih, config_countBlock]

theorem reportDue_countPacket (sequence : UInt16) (blocks : List Red.Block) :
    (t.countPacket sequence blocks).reportDue = t.reportDue := by
  funext time
  rw [reportDue, reportDue, lastReport_countPacket, config_countPacket]

variable {t last} in
theorem eq_of_reported {u : Tracker} (h : t = u.reported last)
    (hlast : u.lastReport = t.lastReport) : u = t := by
  rw [h] at hlast ⊢
  cases hlast
  rfl

/-- The tracker behind a report, given or not: its last report is now, if one was due. -/
theorem report_fst (timestamp ssrc : UInt32) :
    (t.report timestamp ssrc).1
      = t.reported (if t.reportDue timestamp then some timestamp else t.lastReport) := by
  rw [report]
  split <;> rfl

/-- A report changes nothing but the time of the last one. -/
theorem exists_report (timestamp ssrc : UInt32) :
    ∃ last, (t.report timestamp ssrc).1 = t.reported last :=
  ⟨_, t.report_fst timestamp ssrc⟩

end Tracker

end Loss

end RedundantAudio
