import Mathlib.Data.List.Induction
import Mathlib.Tactic.SplitIfs
import RedundantAudio.Proofs.Decimal.Order
import RedundantAudio.Redundancy.Policy

/-!
# What a Policy Can Decide

A policy changes its state on many early exits, and every law about it needs
the same question answered: what can one observation do? `Meets` answers it
once. There are five ways to meet a demand, two of which go on to move to a
level, and there are three outcomes of that. Each constructor gives the
condition that leads to it, the state behind it and the messages, so a proof
about the policy is a case analysis that never opens the policy itself.

A percentage and a report differ only in where the loss comes from. A report
is kept, which touches nothing that the decision depends on, and then the
policy reacts to a loss like any other. So a run is a list of *turns*, each a
policy with the observation that it was shown, and everything else about a
turn can be asked of these two.

Extreme loss is what exceeds every bound of the table, which is more than
75 %, or what compares with no bound at all.

## Main definitions

* `Moves`: What moving to a level can come to.
* `Meets`: What meeting a demand can come to.
* `Observation`: What a policy is shown.
* `Turn`: A policy and the observation that it was shown.
* `turns`, `behind`: The turns of a run, and the policy behind it.
* `Orderly`: A run whose clock never runs backwards.

## Theorems

* `demandFor_eq_off_iff`: What counts as extreme.
* `level_le_of_demandFor`: The table ends at two.
* `moves_moveTo`, `meets_meet`: Nothing else can happen.
* `Turn.meets`: The same for a turn.
* `turns_split`: What comes before a turn is a run, and so is what follows.
* `Orderly.induction`, `Orderly.before_turn`: What holds at first and is
  preserved holds before each turn.
-/

namespace RedundantAudio

namespace Redundancy

/-! ### The table -/

/-- Redundancy is given up on what no bound of the table lets through. The bounds rise,
    so that is what the last of them does not let through, and a number that compares
    with nothing is among it. -/
theorem demandFor_eq_off_iff (loss : Float) :
    demandFor loss = .off ↔ 75 < loss ∨ loss.isNaN = true := by
  have h8 : Decimal.IsBound 8 (8 <<< 49) (-49) := ⟨by decide, rfl⟩
  have h18 : Decimal.IsBound 18 (18 <<< 48) (-48) := ⟨by decide, rfl⟩
  have h75 : Decimal.IsBound 75 (75 <<< 46) (-46) := ⟨by decide, rfl⟩
  rw [← Decimal.not_le_bound_iff h75]
  unfold demandFor
  split_ifs with hle8 hle18 hle75
  · have hle := Decimal.le_bound_of_le_bound h8 h75 (by decide) hle8
    simp only [not_true_eq_false, hle]
  · have hle := Decimal.le_bound_of_le_bound h18 h75 (by decide) hle18
    simp only [not_true_eq_false, hle]
  · simp only [not_true_eq_false, hle75]
  · simp only [not_false_eq_true, hle75]

theorem level_le_of_demandFor (loss : Float) (n : UInt8) (h : demandFor loss = .level n) :
    n ≤ 2 := by
  unfold demandFor at h
  split_ifs at h <;> cases h <;> decide

namespace Policy

/-! ### Confirming a level -/

variable (p : Policy) (now : Nat)

@[simp]
theorem level_confirm : (p.confirm now).level = p.level := by
  unfold confirm
  split <;> rfl

@[simp]
theorem enabled_confirm : (p.confirm now).enabled = p.enabled := by
  unfold confirm
  split <;> rfl

@[simp]
theorem turnedOff_confirm : (p.confirm now).turnedOff = p.turnedOff := by
  unfold confirm
  split <;> rfl

@[simp]
theorem lastExtreme_confirm : (p.confirm now).lastExtreme = p.lastExtreme := by
  unfold confirm
  split <;> rfl

@[simp]
theorem config_confirm : (p.confirm now).config = p.config := by
  unfold confirm
  split <;> rfl

/-- Confirming a level above zero writes the clock. At zero there is nothing to be lowered,
    and the clock is left. -/
theorem holdDownStart_confirm (h : 0 < p.level) : (p.confirm now).holdDownStart = now := by
  rw [confirm, if_pos h]

/-! ### Switching on -/

@[simp]
theorem level_turnOn : (p.turnOn now).level = p.level :=
  level_confirm _ now

@[simp]
theorem enabled_turnOn : (p.turnOn now).enabled = true :=
  enabled_confirm _ now

@[simp]
theorem turnedOff_turnOn : (p.turnOn now).turnedOff = p.turnedOff :=
  turnedOff_confirm _ now

@[simp]
theorem lastExtreme_turnOn : (p.turnOn now).lastExtreme = p.lastExtreme :=
  lastExtreme_confirm _ now

@[simp]
theorem config_turnOn : (p.turnOn now).config = p.config :=
  config_confirm _ now

theorem holdDownStart_turnOn (h : 0 < p.level) : (p.turnOn now).holdDownStart = now :=
  holdDownStart_confirm _ now h

/-! ### One decision -/

/-- What moving to a level can come to. -/
inductive Moves (p : Policy) (level : UInt8) (now : Nat) : Policy → List Control → Prop
  /-- It is the level there is, and that confirms it. -/
  | same (h : level = p.level) : Moves p level now (p.confirm now) []
  /-- It is lower, and has to wait. -/
  | held (h : level < p.level) (hheld : now - p.holdDownStart < p.config.holdDown) :
      Moves p level now p []
  /-- It becomes the level, and is confirmed by that. -/
  | moved (h : level ≠ p.level)
      (hfree : level < p.level → p.config.holdDown ≤ now - p.holdDownStart) :
      Moves p level now ({ p with level }.confirm now) [.redundancyLevel level]

/-- What meeting a demand can come to. -/
inductive Meets (p : Policy) (now : Nat) : Demand → Policy → List Control → Prop
  /-- Redundancy is switched off. -/
  | off (hon : p.enabled = true) :
      Meets p now .off { p with lastExtreme := now, enabled := false, turnedOff := now } [.disable]
  /-- It is off already. -/
  | still (hoff : p.enabled = false) : Meets p now .off { p with lastExtreme := now } []
  /-- It has to stay off. -/
  | waits (n : UInt8) (hoff : p.enabled = false) (hwait : p.staysOff now = true) :
      Meets p now (.level n) p []
  /-- It is on, and the level follows. -/
  | moves {n : UInt8} {q : Policy} {messages : List Control} (hon : p.enabled = true)
      (hmoves : Moves p n now q messages) : Meets p now (.level n) q messages
  /-- It goes on again, and the level follows. -/
  | back {n : UInt8} {q : Policy} {messages : List Control} (hoff : p.enabled = false)
      (hwait : p.staysOff now = false) (hmoves : Moves (p.turnOn now) n now q messages) :
      Meets p now (.level n) q (.enable :: messages)

/-- Moving to a level says nothing but the level. -/
theorem Moves.eq_of_mem {p q : Policy} {now : Nat} {n : UInt8} {m : Control}
    {messages : List Control} (h : Moves p n now q messages) (hmem : m ∈ messages) :
    m = .redundancyLevel n := by
  cases h with
  | same _ => exact absurd hmem List.not_mem_nil
  | held _ _ => exact absurd hmem List.not_mem_nil
  | moved _ _ => exact List.mem_singleton.mp hmem

theorem Moves.config_eq {p q : Policy} {now : Nat} {n : UInt8} {messages : List Control}
    (h : Moves p n now q messages) : q.config = p.config := by
  cases h with
  | same _ => exact config_confirm p now
  | held _ _ => rfl
  | moved _ _ => exact config_confirm _ now

/-- No decision touches the times that govern it. -/
theorem Meets.config_eq {p q : Policy} {now : Nat} {demand : Demand} {messages : List Control}
    (h : Meets p now demand q messages) : q.config = p.config := by
  cases h with
  | off _ => rfl
  | still _ => rfl
  | waits _ _ _ => rfl
  | moves _ hmoves => exact hmoves.config_eq
  | back _ _ hmoves => exact hmoves.config_eq.trans (config_turnOn _ now)

/-- Moving to a level comes to one of the three cases: it is there already, it is held back,
    or it moves. Only a lower level can be held back. -/
theorem moves_moveTo (level : UInt8) :
    Moves p level now (p.moveTo level now).1 (p.moveTo level now).2 := by
  unfold moveTo
  by_cases hsame : level = p.level
  · rw [if_pos hsame]
    exact .same hsame
  rw [if_neg hsame]
  -- A higher level is never held, so a move goes through unless it goes down too early.
  by_cases hheld : (level < p.level && p.isHeld now) = true
  · rw [if_pos hheld]
    simp only [isHeld, Bool.and_eq_true, decide_eq_true_eq] at hheld
    exact .held hheld.1 hheld.2
  · rw [if_neg hheld]
    simp only [isHeld, Bool.and_eq_true, decide_eq_true_eq, not_and, Nat.not_lt] at hheld
    exact .moved hsame hheld

/-- Meeting a demand comes to one of the five cases. From here on, decisions are taken apart
    by them, and the definitions stay closed. -/
theorem meets_meet (demand : Demand) :
    Meets p now demand (p.meet demand now).1 (p.meet demand now).2 := by
  cases demand with
  | off =>
      unfold meet turnOff
      dsimp only
      split_ifs with hon
      · exact .off hon
      · exact .still (eq_false_of_ne_true hon)
  | level n =>
      unfold meet
      -- While redundancy is off, it is first decided whether it stays so.
      cases hon : p.enabled with
      | true => exact .moves hon (moves_moveTo p now n)
      | false =>
          cases hwait : p.staysOff now with
          | true => exact .waits n hon hwait
          | false => exact .back hon hwait (moves_moveTo (p.turnOn now) now n)

/-! ### Turns -/

/-- What a policy is shown. -/
inductive Observation
  /-- A loss percentage, and the time in milliseconds. -/
  | loss (percent : Float) (now : Nat)
  /-- A receiver report, and the time in milliseconds. -/
  | report (sample : Sample) (now : Nat)

/-- When an observation was made. -/
def Observation.time : Observation → Nat
  | .loss _ now => now
  | .report _ now => now

/-- Reacts to an observation. -/
def react (p : Policy) : Observation → Policy × List Control
  | .loss percent now => p.observe percent now
  | .report sample now => p.report sample now

/-- The policy with the report kept, if it is shown one. -/
def note (p : Policy) : Observation → Policy
  | .loss _ _ => p
  | .report sample _ => p.record sample

/-- The loss that an observation shows. -/
def lossShown (p : Policy) : Observation → Float
  | .loss percent _ => percent
  | .report sample _ => (p.record sample).windowedLoss

theorem react_eq (o : Observation) :
    p.react o = (p.note o).meet (demandFor (p.lossShown o)) o.time := by
  cases o <;> rfl

section Note

variable (o : Observation)

/-! Keeping a report changes nothing that a decision depends on. -/

@[simp]
theorem level_note : (p.note o).level = p.level := by
  cases o <;> rfl

@[simp]
theorem enabled_note : (p.note o).enabled = p.enabled := by
  cases o <;> rfl

@[simp]
theorem turnedOff_note : (p.note o).turnedOff = p.turnedOff := by
  cases o <;> rfl

@[simp]
theorem lastExtreme_note : (p.note o).lastExtreme = p.lastExtreme := by
  cases o <;> rfl

@[simp]
theorem holdDownStart_note : (p.note o).holdDownStart = p.holdDownStart := by
  cases o <;> rfl

@[simp]
theorem config_note : (p.note o).config = p.config := by
  cases o <;> rfl

end Note

/-- A policy and the observation that it was shown. -/
structure Turn where
  /-- The policy. -/
  before : Policy
  /-- What it was shown. -/
  observation : Observation

namespace Turn

variable (t : Turn)

/-- When the turn was taken. -/
def time : Nat :=
  t.observation.time

/-- The loss that the policy saw. -/
def loss : Float :=
  t.before.lossShown t.observation

/-- What the loss asks for. -/
def demand : Demand :=
  demandFor t.loss

/-- The policy behind the turn. -/
def after : Policy :=
  (t.before.react t.observation).1

/-- The messages of the turn. -/
def messages : List Control :=
  (t.before.react t.observation).2

/-- The loss is over 75 %, or not a number. -/
def IsExtreme : Prop :=
  75 < t.loss ∨ t.loss.isNaN = true

instance : DecidablePred IsExtreme :=
  fun t => inferInstanceAs (Decidable (75 < t.loss ∨ t.loss.isNaN = true))

theorem isExtreme_iff : t.IsExtreme ↔ t.demand = .off :=
  (demandFor_eq_off_iff t.loss).symm

/-- Every turn is a decision about what the loss asks for, by the policy that has kept the
    report. -/
theorem meets : Meets (t.before.note t.observation) t.time t.demand t.after t.messages := by
  rw [after, messages, react_eq]
  exact meets_meet _ _ _

theorem config_after : t.after.config = t.before.config :=
  t.meets.config_eq.trans (config_note _ _)

end Turn

/-- The turns of a run. -/
def turns (p : Policy) : List Observation → List Turn
  | [] => []
  | o :: os => ⟨p, o⟩ :: turns (p.react o).1 os

/-- The policy behind a run. -/
def behind (p : Policy) (observations : List Observation) : Policy :=
  observations.foldl (fun p o => (p.react o).1) p

theorem turns_concat (os : List Observation) (o : Observation) :
    p.turns (os ++ [o]) = p.turns os ++ [⟨p.behind os, o⟩] := by
  induction os generalizing p with
  | nil => rfl
  | cons o' os ih => simp only [List.cons_append, turns, ih, behind, List.foldl_cons]

theorem behind_concat (os : List Observation) (o : Observation) :
    p.behind (os ++ [o]) = ((p.behind os).react o).1 := by
  rw [behind, List.foldl_append]
  rfl

/-- A turn cuts a run into the run before it and the run behind it. The policy of the turn
    is what the observations before it have left, and the turns behind it are those of the
    policy that it leaves. -/
theorem turns_split (observations : List Observation) (past later : List Turn) (t : Turn)
    (h : p.turns observations = past ++ t :: later) :
    ∃ before rest, observations = before ++ t.observation :: rest ∧
      past = p.turns before ∧ t.before = p.behind before ∧ later = t.after.turns rest := by
  induction past generalizing p observations with
  | nil =>
      cases observations with
      | nil => simp only [turns, List.nil_append, reduceCtorEq] at h
      | cons o os =>
          rw [turns, List.nil_append, List.cons.injEq] at h
          rcases h with ⟨rfl, rfl⟩
          exact ⟨[], os, rfl, rfl, rfl, rfl⟩
  | cons s past ih =>
      cases observations with
      | nil => simp only [turns, List.cons_append, reduceCtorEq] at h
      | cons o os =>
          rw [turns, List.cons_append, List.cons.injEq] at h
          -- The first turn belongs to the past, and the rest is split by induction.
          rcases ih _ _ h.2 with ⟨before, rest, rfl, rfl, hbefore, hlater⟩
          exact ⟨o :: before, rest, rfl, by rw [turns, h.1], hbefore, hlater⟩

/-- The clock never runs backwards. -/
def Orderly (observations : List Observation) : Prop :=
  (observations.map Observation.time).Pairwise (· ≤ ·)

instance : DecidablePred Orderly :=
  fun os => inferInstanceAs (Decidable ((os.map Observation.time).Pairwise (· ≤ ·)))

/-- A turn is taken when its observation was made. -/
theorem time_mem_turns (observations : List Observation) (t : Turn)
    (ht : t ∈ p.turns observations) : t.time ∈ observations.map Observation.time := by
  induction observations generalizing p with
  | nil => exact absurd ht List.not_mem_nil
  | cons o os ih =>
      rcases List.mem_cons.mp ht with rfl | ht
      · exact List.mem_cons_self
      · exact List.mem_cons_of_mem _ (ih _ ht)

/-- What holds of a new policy and is preserved by every turn holds behind a
    run. The clock is known not to run backwards at each turn. -/
theorem Orderly.induction {p : Policy} {P : List Turn → Policy → Prop} (hfirst : P [] p)
    (hturn : ∀ past t, P past t.before → (∀ s ∈ past, s.time ≤ t.time) →
      P (past ++ [t]) t.after)
    {observations : List Observation} (hclock : Orderly observations) :
    P (p.turns observations) (p.behind observations) := by
  -- By induction from the back, since the clock is compared with all turns before.
  induction observations using List.reverseRecOn with
  | nil => exact hfirst
  | append_singleton os o ih =>
      rw [Orderly, List.map_append, List.pairwise_append] at hclock
      rw [turns_concat, behind_concat]
      refine hturn _ ⟨p.behind os, o⟩ (ih hclock.1) fun s hs => ?_
      exact hclock.2.2 _ (time_mem_turns p os s hs) _ List.mem_cons_self

/-- So it holds before each turn of a run. -/
theorem Orderly.before_turn {p : Policy} {P : List Turn → Policy → Prop} (hfirst : P [] p)
    (hturn : ∀ past t, P past t.before → (∀ s ∈ past, s.time ≤ t.time) →
      P (past ++ [t]) t.after)
    {observations : List Observation} (hclock : Orderly observations) {past later : List Turn}
    {t : Turn} (h : p.turns observations = past ++ t :: later) :
    P past t.before ∧ ∀ s ∈ past, s.time ≤ t.time := by
  rcases turns_split p observations past later t h with ⟨before, rest, rfl, rfl, hbefore, -⟩
  rw [Orderly, List.map_append, List.pairwise_append] at hclock
  refine ⟨?_, fun s hs => ?_⟩
  · rw [hbefore]
    exact Orderly.induction hfirst hturn hclock.1
  · exact hclock.2.2 _ (time_mem_turns p before s hs) _ List.mem_cons_self

end Policy

end Redundancy

end RedundantAudio
