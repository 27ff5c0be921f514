import RedundantAudio.Proofs.Redundancy.Decisions

/-!
# The Hold-Down of the Level

A level that is not zero is raised at once and lowered only after it has gone
unconfirmed for a while. The law quantifies over everything that happened
before, while the policy keeps one time. What makes that enough is that
whatever may delay a decrease writes the clock into that time, so it is never
earlier than any of them (`Timed.bounds`), and a decrease is measured from it.

One thing gets past the clock: a level that falls to zero confirms nothing.
But nothing is lower than zero, so the level has to rise before it can fall
again, and rising writes the clock. That is why the invariant is claimed of a
level that is not zero only, and why two decreases are as far apart as the
others (`lowered` among the events of `Timed.bounds`) although the first of
them may have left no trace.

## Main definitions

* `Turn.Lowers`: A turn that lowers the level.
* `Turn.Restarts`: A turn that restarts the hold-down.
* `HoldDown`: The law of the hold-down.
* `Timed`: The time that a policy keeps bounds what may delay a decrease.

## Theorems

* `Meets.timer_cases`: A decision writes the clock, or changes nothing.
* `Meets.holdDown_le`: A decrease has waited.
* `Meets.raises`: An increase has not.
* `Timed.turn`: A turn keeps the bound.
* `holdDown_run`: Every run obeys the law.
* `holdDown_run_relapse`: A run across a time without redundancy.
-/

namespace RedundantAudio

namespace Redundancy

namespace Policy

/-- The level falls. -/
def Turn.Lowers (t : Turn) : Prop :=
  t.after.level < t.before.level

/-- A turn after which a lower level has to wait. -/
inductive Turn.Restarts (t : Turn) : Prop
  /-- It raises the level. -/
  | raised (h : t.before.level < t.after.level)
  /-- It lowers the level, but not to zero. -/
  | lowered (h : t.Lowers) (hlevel : 0 < t.after.level)
  /-- It switches redundancy on, at a level that is not zero. -/
  | back (h : .enable ∈ t.messages) (hlevel : 0 < t.before.level ∨ 0 < t.after.level)
  /-- It finds the loss to ask for just this level, which is not zero. -/
  | confirmed (hon : t.before.enabled = true) (h : t.demand = .level t.before.level)
      (hlevel : 0 < t.before.level)

/-- The law of the hold-down, for the turns of a run. -/
structure HoldDown (config : PolicyConfig) (turns : List Turn) : Prop where
  /-- The level falls only when nothing has restarted the hold-down lately. -/
  late : ∀ past t later, turns = past ++ t :: later → t.Lowers →
    ∀ s ∈ past, s.Restarts → s.time + config.holdDown ≤ t.time
  /-- Two decreases are as far apart. -/
  apart : ∀ past t later, turns = past ++ t :: later → t.Lowers →
    ∀ s ∈ past, s.Lowers → s.time + config.holdDown ≤ t.time
  /-- The level rises in the very turn that asks for it, unless redundancy
      stays off. -/
  prompt : ∀ t ∈ turns, ∀ n, t.demand = .level n → t.before.level < n →
    t.before.enabled = true ∨ .enable ∈ t.messages →
    t.after.level = n ∧ .redundancyLevel n ∈ t.messages

section Decision

variable {p q : Policy} {n : UInt8} {now : Nat} {demand : Demand} {messages : List Control}

/-- A level behind its confirmation is zero, or the clock was written. -/
theorem holdDownStart_confirm_or (p : Policy) (now : Nat) :
    (p.confirm now).holdDownStart = now ∨ (p.confirm now).level = 0 := by
  by_cases h : 0 < p.level
  · exact Or.inl (holdDownStart_confirm p now h)
  · rw [level_confirm]
    exact Or.inr (UInt8.le_antisymm (UInt8.not_lt.mp h) UInt8.zero_le)

theorem Moves.timer_cases (h : Moves p n now q messages) :
    (q.holdDownStart = now ∨ q.level = 0) ∨ n < p.level ∧ q = p := by
  cases h with
  | same _ => exact Or.inl (holdDownStart_confirm_or p now)
  | held hlower _ => exact Or.inr ⟨hlower, rfl⟩
  | moved _ _ => exact Or.inl (holdDownStart_confirm_or _ now)

/-- A decision writes the clock, or leaves no level to be lowered, or changes
    neither the level nor the time, and then it did nothing that may delay a
    decrease. -/
theorem Meets.timer_cases (h : Meets p now demand q messages) :
    (q.holdDownStart = now ∨ q.level = 0) ∨
      q.level = p.level ∧ q.holdDownStart = p.holdDownStart ∧ .enable ∉ messages ∧
        (p.enabled = true → demand ≠ .level p.level) := by
  cases h with
  | off _ =>
      refine Or.inr ⟨rfl, rfl, fun hmem => ?_, fun _ => nofun⟩
      exact nomatch List.mem_singleton.mp hmem
  | still _ => exact Or.inr ⟨rfl, rfl, List.not_mem_nil, fun _ => nofun⟩
  | waits _ hoff _ =>
      exact Or.inr ⟨rfl, rfl, List.not_mem_nil,
        fun hon => absurd (hoff.symm.trans hon) Bool.false_ne_true⟩
  | moves _ hmoves =>
      rcases hmoves.timer_cases with hleft | ⟨hlower, rfl⟩
      · exact Or.inl hleft
      · -- The move is held, so it says nothing and the level was not asked for.
        have henable : .enable ∉ messages := fun hmem =>
          Control.noConfusion (hmoves.eq_of_mem hmem)
        refine Or.inr ⟨rfl, rfl, henable, fun _ heq => ?_⟩
        exact UInt8.ne_of_lt hlower (Demand.level.inj heq)
  | back _ _ hmoves =>
      rcases hmoves.timer_cases with hleft | ⟨hlower, rfl⟩
      · exact Or.inl hleft
      · -- There is a level to be lowered, so switching on has confirmed it.
        rw [level_turnOn] at hlower
        exact Or.inl (Or.inl
          (holdDownStart_turnOn p now (UInt8.lt_of_le_of_lt UInt8.zero_le hlower)))

/-- A move that lowers the level comes when the hold-down has run out. -/
theorem Moves.holdDown_le (h : Moves p n now q messages) (hlower : q.level < p.level) :
    p.config.holdDown ≤ now - p.holdDownStart := by
  cases h with
  | same _ =>
      rw [level_confirm] at hlower
      exact absurd hlower (UInt8.lt_irrefl _)
  | held _ _ => exact absurd hlower (UInt8.lt_irrefl _)
  | moved _ hfree =>
      rw [level_confirm] at hlower
      exact hfree hlower

/-- A decision that lowers the level comes when the hold-down has run out. Where redundancy
    was just switched on, it has been restarted with it, so it can only have run out if it
    lasts no time. -/
theorem Meets.holdDown_le (h : Meets p now demand q messages) (hlower : q.level < p.level) :
    p.config.holdDown ≤ now - p.holdDownStart := by
  cases h with
  | off _ => exact absurd hlower (UInt8.lt_irrefl _)
  | still _ => exact absurd hlower (UInt8.lt_irrefl _)
  | waits _ _ _ => exact absurd hlower (UInt8.lt_irrefl _)
  | moves _ hmoves => exact hmoves.holdDown_le hlower
  | back _ _ hmoves =>
      -- Switching on has just restarted it, so there is none to speak of.
      have hle := hmoves.holdDown_le (by rwa [level_turnOn])
      rw [holdDownStart_turnOn p now (UInt8.lt_of_le_of_lt UInt8.zero_le hlower), Nat.sub_self,
        config_turnOn] at hle
      exact Nat.le_trans hle (Nat.zero_le _)

/-- A move up is never held. -/
theorem Moves.raises (h : Moves p n now q messages) (hraise : p.level < n) :
    q.level = n ∧ .redundancyLevel n ∈ messages := by
  cases h with
  | same heq => exact absurd heq (UInt8.ne_of_lt hraise).symm
  | held hlower _ => exact absurd (UInt8.lt_trans hraise hlower) (UInt8.lt_irrefl _)
  | moved _ _ => exact ⟨level_confirm _ now, List.mem_cons_self⟩

/-- A level that is asked for is taken at once if it is higher, unless
    redundancy stays off. -/
theorem Meets.raises (h : Meets p now (.level n) q messages) (hraise : p.level < n)
    (hon : p.enabled = true ∨ .enable ∈ messages) :
    q.level = n ∧ .redundancyLevel n ∈ messages := by
  cases h with
  | waits _ hoff _ =>
      rcases hon with hon | hmem
      · exact absurd (hoff.symm.trans hon) Bool.false_ne_true
      · exact absurd hmem List.not_mem_nil
  | moves _ hmoves => exact hmoves.raises hraise
  | back _ _ hmoves =>
      have hrest := hmoves.raises (by rwa [level_turnOn])
      exact ⟨hrest.1, List.mem_cons_of_mem _ hrest.2⟩

end Decision

namespace Turn

variable (t : Turn)

/-- A turn writes the clock into the timer or leaves the level at zero, or else it keeps
    level and timer, and nothing in it restarts the hold-down. So whatever restarts it is in
    the timer, unless the level is zero and cannot be lowered. -/
theorem timer_cases :
    (t.after.holdDownStart = t.time ∨ t.after.level = 0) ∨
      t.after.level = t.before.level ∧ t.after.holdDownStart = t.before.holdDownStart ∧
        ¬ t.Restarts ∧ ¬ t.Lowers := by
  have h := t.meets.timer_cases
  rw [level_note, holdDownStart_note, enabled_note] at h
  rcases h with hleft | ⟨hlevel, htimer, henable, hconfirmed⟩
  · exact Or.inl hleft
  have hlowers : ¬ t.Lowers := by
    rw [Lowers, hlevel]
    exact UInt8.lt_irrefl _
  refine Or.inr ⟨hlevel, htimer, fun hrestarts => ?_, hlowers⟩
  -- Each way to restart the hold-down is ruled out by one of these facts.
  cases hrestarts with
  | raised h => exact UInt8.lt_irrefl _ (hlevel ▸ h)
  | lowered h _ => exact hlowers h
  | back h _ => exact henable h
  | confirmed hon h _ => exact hconfirmed hon h

/-- A turn that lowers the level comes when the hold-down has run out, by the policy's own
    time. -/
theorem holdDown_le (h : t.Lowers) :
    t.before.config.holdDown ≤ t.time - t.before.holdDownStart := by
  have hle := t.meets.holdDown_le (by rwa [level_note])
  rwa [config_note, holdDownStart_note] at hle

end Turn

/-- As long as there is a level to be lowered, no turn that could delay that
    was taken after the time that the policy keeps. -/
structure Timed (config : PolicyConfig) (past : List Turn) (p : Policy) : Prop where
  config_eq : p.config = config
  bounds : 0 < p.level → ∀ s ∈ past, s.Restarts ∨ s.Lowers → s.time ≤ p.holdDownStart

theorem timed_new (config : PolicyConfig) : Timed config [] { config } where
  config_eq := rfl
  bounds := nofun

/-- A turn keeps the bound. Either it writes the clock, which is the latest time so far, or
    it is no turn that could delay a decrease. -/
theorem Timed.turn {config : PolicyConfig} {past : List Turn} {t : Turn}
    (h : Timed config past t.before) (htimes : ∀ s ∈ past, s.time ≤ t.time) :
    Timed config (past ++ [t]) t.after := by
  refine ⟨t.config_after.trans h.config_eq, fun hlevel s hs hevent => ?_⟩
  -- The clock was written, the level is zero, or nothing of note happened.
  rcases t.timer_cases with (hnow | hzero) | ⟨hsame, htimer, hrestarts, hlowers⟩
  · rw [hnow]
    rcases List.mem_append.mp hs with hpast | hlast
    · exact htimes s hpast
    · exact Nat.le_of_eq (congrArg Turn.time (List.mem_singleton.mp hlast))
  · exact absurd hlevel (hzero ▸ UInt8.lt_irrefl _)
  · rw [htimer]
    rcases List.mem_append.mp hs with hpast | hlast
    · exact h.bounds (hsame ▸ hlevel) s hpast hevent
    · rw [List.mem_singleton.mp hlast] at hevent
      exact absurd hevent (not_or.mpr ⟨hrestarts, hlowers⟩)

/-- A decrease keeps its distance from whatever could delay it. -/
theorem Timed.time_add_le {config : PolicyConfig} {past : List Turn} {t s : Turn}
    (h : Timed config past t.before) (htimes : ∀ s ∈ past, s.time ≤ t.time) (hlower : t.Lowers)
    (hs : s ∈ past) (hevent : s.Restarts ∨ s.Lowers) : s.time + config.holdDown ≤ t.time := by
  have hbound := h.bounds (UInt8.lt_of_le_of_lt UInt8.zero_le hlower) s hs hevent
  have hwaited := t.holdDown_le hlower
  have hnow := htimes s hs
  rw [h.config_eq] at hwaited
  omega

/-- Whatever a policy is shown, as long as the clock does not run backwards, it obeys the
    law of the hold-down. What the policy keeps of its past is right behind every turn, and
    the law of a decrease is read off what it kept just before. -/
theorem holdDown_run (config : PolicyConfig) (observations : List Observation)
    (hclock : Orderly observations) : HoldDown config (turns { config } observations) := by
  -- The invariant holds before every turn of the run.
  have htimed : ∀ past t later, turns { config } observations = past ++ t :: later →
      Timed config past t.before ∧ ∀ s ∈ past, s.time ≤ t.time := fun past t later hsplit =>
    Orderly.before_turn (timed_new config) (fun _ _ h htimes => h.turn htimes) hclock hsplit
  refine ⟨?_, ?_, ?_⟩
  · intro past t later hsplit hlower s hs hrestarts
    rcases htimed past t later hsplit with ⟨hbefore, htimes⟩
    exact hbefore.time_add_le htimes hlower hs (Or.inl hrestarts)
  · intro past t later hsplit hlower s hs hlowers
    rcases htimed past t later hsplit with ⟨hbefore, htimes⟩
    exact hbefore.time_add_le htimes hlower hs (Or.inr hlowers)
  · -- An increase is judged by the turn alone.
    intro t _ n hdemand hraise hon
    have hmeets := t.meets
    rw [hdemand] at hmeets
    exact hmeets.raises (by rwa [level_note]) (by rwa [enabled_note])

/-- A bad network gets worse, breaks down and comes back, and only then is good
    for as long as it takes. -/
def relapse : List Observation :=
  [.loss 12 1000, .loss 30 2000, .loss 80 3000, .loss 10 70000, .loss 5 369999, .loss 5 370000]

/-- Redundancy goes on again at 70 s, with less loss than its level is meant for. The level
    does not fall then, nor a millisecond before five minutes are over, but when they are. -/
theorem holdDown_run_relapse :
    Orderly relapse ∧
      (turns { config := {} } relapse).map Turn.messages
        = [[.redundancyLevel 1], [.redundancyLevel 2], [.disable], [.enable], [],
            [.redundancyLevel 0]] ∧
      HoldDown {} (turns { config := {} } relapse) := by
  have hclock : Orderly relapse := by decide
  exact ⟨hclock, by decide +kernel, holdDown_run {} relapse hclock⟩

end Policy

end Redundancy

end RedundantAudio
