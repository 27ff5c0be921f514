import RedundantAudio.Proofs.Redundancy.Decisions

/-!
# The Valve of Redundancy

Extreme loss closes a valve, and two timers have to run out before it opens
again: one since it was closed, one since extreme loss was last seen. What is
seen while it is closed restarts the second timer only, so either of them can
be the one that decides.

The law is about the messages of a whole run and the times of its turns,
while the policy knows only its switch and two times. `Kept` relates the two.
It says that the switch tells the parity of the messages sent so far, and
that the times are those of the last turns of either kind, which is all that
a policy has to remember while it is off. While it is on, the two times mean
nothing, since the turn that closes the valve sets both.

The timers are differences that stop at zero, so the inequality that the
policy checks is the one that is meant only if the clock does not run
backwards.

## Main definitions

* `switches`: The messages of a run that switch redundancy on or off.
* `alternating`: Off and on in turn, off first.
* `lastTime`: When a turn of some kind was last taken.
* `Valve`: The law of the valve.
* `Kept`: What a policy keeps of the turns before it.

## Theorems

* `Meets.switches_cases`: A decision switches as its messages say.
* `Meets.turnedOff_eq`, `Meets.lastExtreme_eq`: What it remembers.
* `Meets.idle`: A closed valve is quiet until it opens.
* `Kept.turn`: A turn keeps what is to be kept.
* `quiet_turns`: The same for a run of turns.
* `valve_run`: Every run obeys the law.
* `valve_run_spikes`: A run in which the second timer decides.
-/

namespace RedundantAudio

namespace Redundancy

namespace Policy

/-- A message switches redundancy on or off. -/
def isSwitch : Control → Bool
  | .enable => true
  | .disable => true
  | _ => false

/-- The messages of a run that switch redundancy on or off, in order. -/
def switches (turns : List Turn) : List Control :=
  (turns.flatMap Turn.messages).filter isSwitch

/-- So many messages that switch redundancy off and on in turn, off first. -/
def alternating (count : Nat) : List Control :=
  (List.range count).map fun i => if i % 2 = 0 then .disable else .enable

/-- When a turn of some kind was last taken. -/
def lastTime (Q : Turn → Prop) [DecidablePred Q] (past : List Turn) : Option Nat :=
  (past.filter fun t => Q t).getLast?.map Turn.time

/-- A turn that switches redundancy off. -/
def Turn.SwitchesOff (t : Turn) : Prop :=
  .disable ∈ t.messages

instance : DecidablePred Turn.SwitchesOff :=
  fun t => inferInstanceAs (Decidable (.disable ∈ t.messages))

/-- The law of the valve, for the turns of a run. -/
structure Valve (config : PolicyConfig) (turns : List Turn) : Prop where
  /-- Redundancy goes off and on in turn, off first. -/
  alternate : switches turns = alternating (switches turns).length
  /-- It is on where these messages have left it so. -/
  enabled_eq : ∀ past t later, turns = past ++ t :: later →
    t.before.enabled = decide ((switches past).length % 2 = 0)
  /-- It goes off where extreme loss is seen while it is on. -/
  disable_iff : ∀ t ∈ turns, .disable ∈ t.messages ↔ t.IsExtreme ∧ t.before.enabled = true
  /-- Until it goes on again, no level is told and none changes. -/
  quiet : ∀ past off closed later, turns = past ++ off :: (closed ++ later) →
    .disable ∈ off.messages → (∀ t ∈ closed, .enable ∉ t.messages) →
    ∀ t ∈ off :: closed, (∀ n, .redundancyLevel n ∉ t.messages) ∧
      t.after.level = off.before.level
  /-- Other loss switches it on again once both timers have run out. -/
  enable_iff : ∀ past t later, turns = past ++ t :: later → ¬ t.IsExtreme →
    t.before.enabled = false →
    ∃ off extreme, lastTime Turn.SwitchesOff past = some off ∧
      lastTime Turn.IsExtreme past = some extreme ∧
      (.enable ∈ t.messages ↔
        off + config.minOff ≤ t.time ∧ extreme + config.recovery ≤ t.time)
  /-- The level is told after that. -/
  enable_first : ∀ t ∈ turns, ∀ before after, t.messages = before ++ .enable :: after →
    ∀ n, .redundancyLevel n ∉ before

theorem switches_concat (past : List Turn) (t : Turn) :
    switches (past ++ [t]) = switches past ++ t.messages.filter isSwitch := by
  simp only [switches, List.flatMap_append, List.flatMap_singleton, List.filter_append]

theorem alternating_succ (count : Nat) :
    alternating (count + 1)
      = alternating count ++ [if count % 2 = 0 then .disable else .enable] := by
  simp only [alternating, List.range_succ, List.map_append, List.map_cons, List.map_nil]

/-- The last turn of a kind is the last turn of all, if that is of the kind. -/
theorem lastTime_concat (Q : Turn → Prop) [DecidablePred Q] (past : List Turn) (t : Turn) :
    lastTime Q (past ++ [t]) = if Q t then some t.time else lastTime Q past := by
  by_cases hQ : Q t
  · simp only [lastTime, List.filter_append, hQ, decide_true, List.filter_cons_of_pos,
      List.filter_nil, List.getLast?_append, List.getLast?_singleton, Option.some_or,
      Option.map_some, if_true]
  · simp only [lastTime, List.filter_append, hQ, decide_false, Bool.false_eq_true,
      not_false_eq_true, List.filter_cons_of_neg, List.filter_nil, List.append_nil, if_false]

theorem lastTime_le {Q : Turn → Prop} [DecidablePred Q] {past : List Turn} {now time : Nat}
    (hpast : ∀ s ∈ past, s.time ≤ now) (h : lastTime Q past = some time) : time ≤ now := by
  rcases Option.map_eq_some_iff.mp h with ⟨t, hlast, rfl⟩
  exact hpast t (List.mem_filter.mp (List.mem_of_getLast? hlast)).1

section Decision

variable {p q : Policy} {n : UInt8} {now : Nat} {demand : Demand} {messages : List Control}

/-- Moving to a level leaves the valve alone. -/
theorem Moves.valve_eq (h : Moves p n now q messages) :
    q.enabled = p.enabled ∧ q.turnedOff = p.turnedOff ∧ q.lastExtreme = p.lastExtreme := by
  cases h <;>
    simp only [enabled_confirm, turnedOff_confirm, lastExtreme_confirm, and_self]

theorem Moves.switch_not_mem (h : Moves p n now q messages) {m : Control} (hm : isSwitch m = true) :
    m ∉ messages := by
  intro hmem
  rw [h.eq_of_mem hmem] at hm
  exact Bool.false_ne_true hm

theorem Moves.filter_isSwitch (h : Moves p n now q messages) :
    messages.filter isSwitch = [] :=
  List.filter_eq_nil_iff.mpr fun _ hmem hm => h.switch_not_mem hm hmem

/-- A decision leaves the switch alone and sends no message about it, or it
    turns the switch and sends the one message that says so. -/
theorem Meets.switches_cases (h : Meets p now demand q messages) :
    (messages.filter isSwitch = [] ∧ q.enabled = p.enabled) ∨
    (messages.filter isSwitch = [.disable] ∧ p.enabled = true ∧ q.enabled = false) ∨
    (messages.filter isSwitch = [.enable] ∧ p.enabled = false ∧ q.enabled = true) := by
  cases h with
  | off hon => exact Or.inr (Or.inl ⟨rfl, hon, rfl⟩)
  | still _ => exact Or.inl ⟨rfl, rfl⟩
  | waits _ _ _ => exact Or.inl ⟨rfl, rfl⟩
  | moves _ hmoves => exact Or.inl ⟨hmoves.filter_isSwitch, hmoves.valve_eq.1⟩
  -- This is the only kind of decision that can send two messages.
  | back hoff _ hmoves =>
      refine Or.inr (Or.inr ⟨?_, hoff, ?_⟩)
      · rw [List.filter_cons_of_pos rfl, hmoves.filter_isSwitch]
      · rw [hmoves.valve_eq.1, enabled_turnOn]

/-- Redundancy is told to go off exactly if that is demanded while it is on. What is off
    already is not told again. -/
theorem Meets.disable_mem_iff (h : Meets p now demand q messages) :
    .disable ∈ messages ↔ demand = .off ∧ p.enabled = true := by
  cases h with
  | off hon => exact iff_of_true List.mem_cons_self ⟨rfl, hon⟩
  | still hoff =>
      exact iff_of_false List.not_mem_nil fun h => Bool.false_ne_true (hoff.symm.trans h.2)
  | waits _ _ _ => exact iff_of_false List.not_mem_nil fun h => nomatch h.1
  | moves _ hmoves => exact iff_of_false (hmoves.switch_not_mem rfl) fun h => nomatch h.1
  | back _ _ hmoves =>
      refine iff_of_false (fun hmem => ?_) fun h => nomatch h.1
      rcases List.mem_cons.mp hmem with heq | hmem
      · exact nomatch heq
      · exact hmoves.switch_not_mem rfl hmem

/-- Redundancy is switched off by a single message, and the level is kept. -/
theorem Meets.of_disable (h : Meets p now demand q messages) (hmem : .disable ∈ messages) :
    messages = [.disable] ∧ q.enabled = false ∧ q.level = p.level := by
  rcases h.disable_mem_iff.mp hmem with ⟨rfl, hon⟩
  cases h with
  | off _ => exact ⟨rfl, rfl, rfl⟩
  | still hoff => exact absurd (hoff.symm.trans hon) Bool.false_ne_true

/-- The time of the last extreme loss is set whenever the demand is to be off, and kept by
    every other decision. -/
theorem Meets.lastExtreme_eq (h : Meets p now demand q messages) :
    q.lastExtreme = if demand = .off then now else p.lastExtreme := by
  cases h with
  | off _ => rfl
  | still _ => rfl
  | waits _ _ _ => rfl
  | moves _ hmoves => exact hmoves.valve_eq.2.2
  | back _ _ hmoves => exact hmoves.valve_eq.2.2.trans (lastExtreme_turnOn _ now)

/-- The time of the last switch-off is set where redundancy goes off, but not where it was
    off before. This is what tells the two timers apart. -/
theorem Meets.turnedOff_eq (h : Meets p now demand q messages) :
    q.turnedOff = if demand = .off ∧ p.enabled = true then now else p.turnedOff := by
  cases h with
  | off hon => rw [if_pos ⟨rfl, hon⟩]
  | still hoff => rw [if_neg fun h => Bool.false_ne_true (hoff.symm.trans h.2)]
  | waits _ _ _ => rfl
  | moves _ hmoves => exact hmoves.valve_eq.2.1
  | back _ _ hmoves => exact hmoves.valve_eq.2.1.trans (turnedOff_turnOn _ now)

/-- While it is off, a decision that does not switch redundancy on changes
    neither the switch nor the level, and sends nothing. -/
theorem Meets.idle (h : Meets p now demand q messages) (hoff : p.enabled = false)
    (hquiet : .enable ∉ messages) :
    messages = [] ∧ q.enabled = false ∧ q.level = p.level := by
  cases h with
  | off hon => exact absurd (hoff.symm.trans hon) Bool.false_ne_true
  | still _ => exact ⟨rfl, hoff, rfl⟩
  | waits _ _ _ => exact ⟨rfl, hoff, rfl⟩
  | moves hon _ => exact absurd (hoff.symm.trans hon) Bool.false_ne_true
  | back _ _ _ => exact absurd List.mem_cons_self hquiet

/-- While redundancy is off and need not be, it goes on exactly if no timer holds it back. -/
theorem Meets.enable_mem_iff (h : Meets p now demand q messages) (hoff : p.enabled = false)
    (hdemand : demand ≠ .off) : .enable ∈ messages ↔ p.staysOff now = false := by
  cases h with
  | off _ => exact absurd rfl hdemand
  | still _ => exact absurd rfl hdemand
  | waits _ _ hwait =>
      exact iff_of_false List.not_mem_nil fun h => Bool.false_ne_true (h.symm.trans hwait)
  | moves hon _ => exact absurd (hoff.symm.trans hon) Bool.false_ne_true
  | back _ hwait _ => exact iff_of_true List.mem_cons_self hwait

/-- A message that switches redundancy on is the first of a decision. Only one of the five
    kinds of decision has such a message, and what comes behind it tells the level. -/
theorem Meets.nil_of_enable (h : Meets p now demand q messages) {before after : List Control}
    (hsplit : messages = before ++ .enable :: after) : before = [] := by
  have hmem : .enable ∈ messages := by
    rw [hsplit]
    exact List.mem_append_right _ List.mem_cons_self
  cases h with
  | off _ => simp only [List.mem_singleton, reduceCtorEq] at hmem
  | still _ => exact absurd hmem List.not_mem_nil
  | waits _ _ _ => exact absurd hmem List.not_mem_nil
  | moves _ hmoves => exact absurd hmem (hmoves.switch_not_mem rfl)
  | back _ _ hmoves =>
      cases before with
      | nil => rfl
      | cons _ before =>
          -- Behind the first message there is none of this kind.
          rw [List.cons_append, List.cons.injEq] at hsplit
          refine absurd ?_ (hmoves.switch_not_mem (m := .enable) rfl)
          rw [hsplit.2]
          exact List.mem_append_right _ List.mem_cons_self

end Decision

/-- What a policy keeps of the turns before it: its switch tells how often it
    was turned and, while it is off, its times are those of the last turns
    that switched it off and that saw extreme loss. -/
structure Kept (config : PolicyConfig) (past : List Turn) (p : Policy) : Prop where
  config_eq : p.config = config
  alternate : switches past = alternating (switches past).length
  enabled_eq : p.enabled = decide ((switches past).length % 2 = 0)
  turnedOff : p.enabled = false → lastTime Turn.SwitchesOff past = some p.turnedOff
  lastExtreme : p.enabled = false → lastTime Turn.IsExtreme past = some p.lastExtreme

/-- A new policy has its switch on and no turns behind it, so its times mean nothing yet. -/
theorem kept_new (config : PolicyConfig) : Kept config [] { config } where
  config_eq := rfl
  alternate := rfl
  enabled_eq := rfl
  turnedOff := nofun
  lastExtreme := nofun

namespace Turn

variable (t : Turn)

/-! The laws of a decision, for a turn. -/

/-- A turn leaves the switch alone, or turns it one way or the other and says so once. -/
theorem switches_cases :
    (t.messages.filter isSwitch = [] ∧ t.after.enabled = t.before.enabled) ∨
    (t.messages.filter isSwitch = [.disable] ∧ t.before.enabled = true ∧
      t.after.enabled = false) ∨
    (t.messages.filter isSwitch = [.enable] ∧ t.before.enabled = false ∧
      t.after.enabled = true) := by
  have h := t.meets.switches_cases
  rwa [enabled_note] at h

theorem switchesOff_iff : t.SwitchesOff ↔ t.IsExtreme ∧ t.before.enabled = true := by
  rw [SwitchesOff, t.meets.disable_mem_iff, isExtreme_iff, enabled_note]

theorem turnedOff_after :
    t.after.turnedOff = if t.SwitchesOff then t.time else t.before.turnedOff := by
  simp only [t.meets.turnedOff_eq, switchesOff_iff, isExtreme_iff, enabled_note, turnedOff_note]

theorem lastExtreme_after :
    t.after.lastExtreme = if t.IsExtreme then t.time else t.before.lastExtreme := by
  simp only [t.meets.lastExtreme_eq, isExtreme_iff, lastExtreme_note]

end Turn

/-- What a policy keeps is right after a turn if it was before. The three cases are those of
    the switch; in each of them the number of messages so far settles whether it is on, and
    so whether the turn's own message is the one that is due. -/
theorem Kept.turn {config : PolicyConfig} {past : List Turn} {t : Turn}
    (h : Kept config past t.before) : Kept config (past ++ [t]) t.after := by
  have hparity := h.enabled_eq
  rcases t.switches_cases with ⟨hfilter, hsame⟩ | ⟨hfilter, hon, hoff⟩ | ⟨hfilter, hoff, hon⟩
  · refine ⟨t.config_after.trans h.config_eq, ?_, ?_, fun hoff => ?_, fun hoff => ?_⟩
    · rw [switches_concat, hfilter, List.append_nil]
      exact h.alternate
    · rw [switches_concat, hfilter, List.append_nil, hsame]
      exact hparity
    · rw [lastTime_concat, t.turnedOff_after, h.turnedOff (hsame.symm.trans hoff)]
      split_ifs <;> rfl
    · rw [lastTime_concat, t.lastExtreme_after, h.lastExtreme (hsame.symm.trans hoff)]
      split_ifs <;> rfl
  · -- The turn that closes the valve is the last of either kind.
    have hcloses : t.SwitchesOff := by
      have hmem : .disable ∈ t.messages.filter isSwitch := hfilter ▸ List.mem_cons_self
      exact (List.mem_filter.mp hmem).1
    have hextreme := (t.switchesOff_iff.mp hcloses).1
    rw [hon, eq_comm, decide_eq_true_eq] at hparity
    refine ⟨t.config_after.trans h.config_eq, ?_, ?_, fun _ => ?_, fun _ => ?_⟩
    · rw [switches_concat, hfilter, List.length_append, List.length_singleton, alternating_succ,
        if_pos hparity, ← h.alternate]
    · rw [switches_concat, hfilter, hoff, eq_comm, decide_eq_false_iff_not, List.length_append,
        List.length_singleton]
      omega
    · rw [lastTime_concat, t.turnedOff_after, if_pos hcloses, if_pos hcloses]
    · rw [lastTime_concat, t.lastExtreme_after, if_pos hextreme, if_pos hextreme]
  · -- Where the valve opens, nothing is claimed about the times behind the turn.
    rw [hoff, eq_comm, decide_eq_false_iff_not] at hparity
    refine ⟨t.config_after.trans h.config_eq, ?_, ?_, fun hoff' => ?_, fun hoff' => ?_⟩
    · rw [switches_concat, hfilter, List.length_append, List.length_singleton, alternating_succ,
        if_neg hparity, ← h.alternate]
    · rw [switches_concat, hfilter, hon, eq_comm, decide_eq_true_eq, List.length_append,
        List.length_singleton]
      omega
    · exact absurd (hoff'.symm.trans hon) Bool.false_ne_true
    · exact absurd (hoff'.symm.trans hon) Bool.false_ne_true

/-- On a clock that has not run backwards, both timers have run out when the
    times that they count from lie far enough in the past. -/
theorem staysOff_eq_false_iff (p : Policy) (now : Nat) (hoff : p.turnedOff ≤ now)
    (hextreme : p.lastExtreme ≤ now) :
    p.staysOff now = false ↔
      p.turnedOff + p.config.minOff ≤ now ∧ p.lastExtreme + p.config.recovery ≤ now := by
  rw [staysOff, Bool.or_eq_false_iff, decide_eq_false_iff_not, decide_eq_false_iff_not]
  omega

/-- Behind a turn that leaves redundancy off, nothing happens until a turn switches it on.
    By induction on the turns in between, each of which finds redundancy off and leaves it
    so. -/
theorem quiet_turns (p : Policy) (observations : List Observation) (hoff : p.enabled = false)
    (closed later : List Turn) (hsplit : p.turns observations = closed ++ later)
    (hquiet : ∀ t ∈ closed, .enable ∉ t.messages) :
    ∀ t ∈ closed, t.messages = [] ∧ t.after.level = p.level := by
  induction closed generalizing p observations with
  | nil => exact fun t ht => absurd ht List.not_mem_nil
  | cons s closed ih =>
      rcases turns_split p observations [] (closed ++ later) s hsplit with
        ⟨before, rest, -, hnil, hbefore, hlater⟩
      cases before with
      | cons _ _ => exact nomatch hnil
      | nil =>
          rw [List.forall_mem_cons] at hquiet
          -- A turn that does not switch redundancy on does nothing at all.
          have hidle := s.meets.idle (by rw [enabled_note, hbefore]; exact hoff) hquiet.1
          have hlevel : s.after.level = p.level := by
            rw [hidle.2.2, level_note, hbefore]
            rfl
          rw [List.forall_mem_cons]
          refine ⟨⟨hidle.1, hlevel⟩, fun t ht => ?_⟩
          have hrest := ih s.after rest hidle.2.1 hlater.symm hquiet.2 t ht
          exact ⟨hrest.1, hrest.2.trans hlevel⟩

/-- Whatever a policy is shown, as long as the clock does not run backwards, it obeys the
    law of the valve. That the valve goes off and on in turn, and when, is read off what the
    policy keeps of its turns; that it is quiet in between follows from the turns behind it. -/
theorem valve_run (config : PolicyConfig) (observations : List Observation)
    (hclock : Orderly observations) : Valve config (turns { config } observations) := by
  have hkept := Orderly.induction (kept_new config) (fun _ _ h _ => h.turn) hclock
  have hturns : ∀ past t later, turns { config } observations = past ++ t :: later →
      Kept config past t.before ∧ ∀ s ∈ past, s.time ≤ t.time := fun past t later hsplit =>
    Orderly.before_turn (kept_new config) (fun _ _ h _ => h.turn) hclock hsplit
  refine ⟨hkept.alternate, fun past t later hsplit => (hturns past t later hsplit).1.enabled_eq,
    fun t _ => t.switchesOff_iff, ?_, ?_, ?_⟩
  · intro past off closed later hsplit hcloses hquiet
    -- Until it is switched on, the turns behind are those of a policy that is off.
    rcases turns_split _ observations past _ off hsplit with ⟨_, rest, -, -, -, hlater⟩
    have hoff := off.meets.of_disable hcloses
    rw [level_note] at hoff
    have hidle := quiet_turns off.after rest hoff.2.1 closed later hlater.symm hquiet
    rw [List.forall_mem_cons]
    refine ⟨⟨fun n => ?_, hoff.2.2⟩, fun t ht => ⟨fun n => ?_, (hidle t ht).2.trans hoff.2.2⟩⟩
    · rw [hoff.1, List.mem_singleton]
      exact nofun
    · rw [(hidle t ht).1]
      exact List.not_mem_nil
  · intro past t later hsplit hnormal hoff
    rcases hturns past t later hsplit with ⟨hbefore, htimes⟩
    have hlastOff := hbefore.turnedOff hoff
    have hlastExtreme := hbefore.lastExtreme hoff
    refine ⟨_, _, hlastOff, hlastExtreme, ?_⟩
    -- What the timers count from is what the policy has kept of the run.
    rw [t.meets.enable_mem_iff (by rwa [enabled_note]) (mt t.isExtreme_iff.mpr hnormal),
      staysOff_eq_false_iff, turnedOff_note, lastExtreme_note, config_note, hbefore.config_eq]
    · rw [turnedOff_note]
      exact lastTime_le htimes hlastOff
    · rw [lastExtreme_note]
      exact lastTime_le htimes hlastExtreme
  · intro t _ before after hsplit n
    rw [t.meets.nil_of_enable hsplit]
    exact List.not_mem_nil

/-- A network that breaks down twice, with the second spike seen while
    redundancy is off, and then recovers. -/
def spikes : List Observation :=
  [.loss 80 0, .loss 80 10000, .loss 5 20000, .loss 12 70000]

/-- The second spike sends nothing, but puts off the recovery until a minute after it. -/
theorem valve_run_spikes :
    Orderly spikes ∧
      (turns { config := {} } spikes).map Turn.messages
        = [[.disable], [], [], [.enable, .redundancyLevel 1]] ∧
      Valve {} (turns { config := {} } spikes) := by
  have hclock : Orderly spikes := by decide
  exact ⟨hclock, by decide +kernel, valve_run {} spikes hclock⟩

end Policy

end Redundancy

end RedundantAudio
