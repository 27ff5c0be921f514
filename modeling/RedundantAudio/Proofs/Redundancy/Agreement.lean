import RedundantAudio.Proofs.Redundancy.Decisions
import RedundantAudio.Proofs.Redundancy.Setting
import RedundantAudio.Redundancy.Sender

/-!
# Policy and Encoder Agree

A policy keeps the level and the switch for itself and tells the encoder
about them by messages alone. Nothing else connects the two, so a decision
that changed the one without a message, or sent a message without changing
the other, would leave them apart for the rest of the stream.

`Meets.told` is the reason why that cannot happen: in each way to meet a
demand, the messages lead from the setting before to the setting behind, and
none of them is idle. The encoder does what it is told up to its own limit on
the level, and the table never asks for more than that limit, so the two are
equal and not only close. Neither the clock nor the size of a loss matters
for any of this.

## Main definitions

* `Policy.setting`: The setting of a policy.
* `Sender.Input.KeepsRule`: An input that leaves redundancy to the policy.
* `Sender.returned`: The messages that a run has returned.
* `Agrees`: A sender whose messages so far tell its state.

## Theorems

* `Meets.told`: The messages of a decision tell what it changed.
* `Meets.level_le`: The level stays within the table.
* `Agrees.step`: A step keeps policy and encoder together.
* `settings_agree`: So does a run.
* `settings_agree_busy`: A run with every kind of input.
-/

namespace RedundantAudio

namespace Redundancy

namespace Policy

/-- The setting of a policy. -/
def setting (p : Policy) : Setting where
  level := p.level
  enabled := p.enabled

theorem setting_confirm (p : Policy) (now : Nat) : (p.confirm now).setting = p.setting := by
  rw [setting, setting, level_confirm, enabled_confirm]

theorem setting_note (p : Policy) (o : Observation) : (p.note o).setting = p.setting := by
  rw [setting, setting, level_note, enabled_note]

variable {p q : Policy} {n : UInt8} {now : Nat} {demand : Demand} {messages : List Control}

/-- The message of a move leads from one level to the other, if there is a message. -/
theorem Moves.told (h : Moves p n now q messages) :
    p.setting.told messages = q.setting ∧ p.setting.Changes messages := by
  cases h with
  | same _ => exact ⟨(setting_confirm p now).symm, trivial⟩
  | held _ _ => exact ⟨rfl, trivial⟩
  | moved hne _ =>
      rw [setting_confirm]
      -- The move is to another level, so the message is not idle.
      refine ⟨rfl, fun heq => hne ?_, trivial⟩
      exact congrArg Setting.level heq

/-- The messages of a decision lead from the setting before it to the setting
    behind it, and none of them is idle. -/
theorem Meets.told (h : Meets p now demand q messages) :
    p.setting.told messages = q.setting ∧ p.setting.Changes messages := by
  cases h with
  | off hon =>
      refine ⟨rfl, fun heq => ?_, trivial⟩
      have hfalse : false = p.enabled := congrArg Setting.enabled heq
      rw [hon] at hfalse
      exact Bool.false_ne_true hfalse
  | still _ => exact ⟨rfl, trivial⟩
  | waits _ _ _ => exact ⟨rfl, trivial⟩
  | moves _ hmoves => exact hmoves.told
  -- Redundancy goes on first, and the move starts from there.
  | back hoff _ hmoves =>
      have hon : (p.turnOn now).setting = p.setting.tell .enable := setting_confirm _ now
      have hrest := hmoves.told
      rw [hon] at hrest
      refine ⟨hrest.1, fun heq => ?_, hrest.2⟩
      have htrue : true = p.enabled := congrArg Setting.enabled heq
      rw [hoff] at htrue
      exact Bool.false_ne_true htrue.symm

theorem Moves.level_eq_or (h : Moves p n now q messages) : q.level = p.level ∨ q.level = n := by
  cases h with
  | same _ => exact Or.inl (level_confirm p now)
  | held _ _ => exact Or.inl rfl
  | moved _ _ => exact Or.inr (level_confirm _ now)

/-- A decision keeps to the levels that are asked for. It stays at the level it has or goes
    to the one of the demand, and nowhere else. -/
theorem Meets.level_le (h : Meets p now demand q messages) {bound : UInt8}
    (hp : p.level ≤ bound) (hn : ∀ n, demand = .level n → n ≤ bound) : q.level ≤ bound := by
  cases h with
  | off _ => exact hp
  | still _ => exact hp
  | waits _ _ _ => exact hp
  | moves _ hmoves =>
      rcases hmoves.level_eq_or with hlevel | hlevel
      · exact hlevel ▸ hp
      · exact hlevel ▸ hn _ rfl
  | back _ _ hmoves =>
      rcases hmoves.level_eq_or with hlevel | hlevel
      · rw [hlevel, level_turnOn]
        exact hp
      · exact hlevel ▸ hn _ rfl

end Policy

namespace Sender

/-- A frame, a loss or a report, or a message about payload types: an input
    that leaves redundancy to the policy. -/
def Input.KeepsRule : Input → Prop
  | .frame _ => True
  | .loss _ _ => True
  | .report _ _ => True
  | .control (.opusPayloadType _) => True
  | .control (.redPayloadType _) => True
  | .control (.redundancyLevel _) => False
  | .control .enable => False
  | .control .disable => False

/-- The messages that an output returns. -/
def Output.returned : Output → List Control
  | .frame _ => []
  | .messages told => told

/-- The messages that a run has returned, in order. -/
def returned (outputs : List Output) : List Control :=
  outputs.flatMap Output.returned

/-- A sender whose state is what the messages so far have set, in its policy
    and in its encoder, and none of them was idle. -/
structure Agrees (s : Sender) (messages : List Control) : Prop where
  sound : s.encoder.Sound
  told : s.policy.setting = ({} : Setting).told messages
  encoder_eq : s.encoder.setting = s.policy.setting
  level_le : s.policy.level ≤ 2
  changes : ({} : Setting).Changes messages

/-- A new sender agrees with no messages at all, as policy and encoder start from the same
    setting. -/
theorem agrees_new (opusType redType : UInt8) (config : PolicyConfig) :
    Agrees (new opusType redType config) [] where
  sound := Encoder.sound_handleAll _ Encoder.sound_default _
  told := rfl
  encoder_eq := rfl
  level_le := UInt8.zero_le
  changes := trivial

/-- What the encoder alone does makes no difference, as long as its setting
    stays. -/
theorem Agrees.encoder {s : Sender} {messages : List Control} (h : s.Agrees messages)
    {e : Encoder} (hs : e.Sound) (he : e.setting = s.encoder.setting) :
    Agrees { s with encoder := e } messages :=
  { h with sound := hs, encoder_eq := he.trans h.encoder_eq }

/-- A decision of the policy reaches the encoder in the same step. The messages that say
    what was decided are handed to the encoder at once, so that there is no state in which
    the two differ, and the messages returned so far tell the setting of both. -/
theorem Agrees.follow {s : Sender} {messages : List Control} (h : s.Agrees messages)
    (o : Policy.Observation) :
    Agrees (s.follow (s.policy.react o)) (messages ++ (s.policy.react o).2) := by
  have hmeets := (Policy.Turn.mk s.policy o).meets
  -- What a decision says leads to where it is, report or not.
  have htold : s.policy.setting.told (s.policy.react o).2 = (s.policy.react o).1.setting ∧
      s.policy.setting.Changes (s.policy.react o).2 := by
    rw [← Policy.setting_note s.policy o]
    exact hmeets.told
  have hlevel : (s.policy.react o).1.level ≤ 2 := by
    refine hmeets.level_le ?_ fun n hn => level_le_of_demandFor _ n hn
    rw [Policy.level_note]
    exact h.level_le
  -- Both levels are within the encoder's limit, so it cuts neither.
  have hbefore : s.encoder.setting = s.policy.setting.capped :=
    h.encoder_eq.trans (Setting.capped_of_le _ h.level_le).symm
  refine ⟨Encoder.sound_handleAll _ h.sound _, ?_, ?_, hlevel, ?_⟩
  · rw [Setting.told_append, ← h.told]
    exact htold.1.symm
  · -- The encoder follows the messages up to its limit.
    refine (Encoder.setting_handleAll _ _ hbefore _).trans ?_
    rw [htold.1]
    exact Setting.capped_of_le _ hlevel
  · rw [Setting.changes_append, ← h.told]
    exact ⟨h.changes, htold.2⟩

/-- One input that leaves redundancy to the policy keeps policy, encoder and messages in
    agreement. Frames and payload types change only what is not part of the setting. -/
theorem Agrees.step {s : Sender} {messages : List Control} (h : s.Agrees messages)
    (input : Input) (hinput : input.KeepsRule) :
    Agrees (s.step input).1 (messages ++ (s.step input).2.returned) := by
  cases input with
  | frame frame =>
      -- A frame brings no messages, and its encoder keeps the setting.
      rw [Sender.step, Output.returned, List.append_nil]
      exact h.encoder (Encoder.sound_step _ h.sound (.frame frame))
        (Encoder.setting_send _ h.sound frame)
  | control message =>
      rw [Sender.step, Output.returned, List.append_nil]
      refine h.encoder (Encoder.sound_handle _ h.sound message) ?_
      -- The types are not part of the setting, and the other messages are excluded.
      cases message with
      | opusPayloadType _ => rfl
      | redPayloadType _ => rfl
      | redundancyLevel _ => exact hinput.elim
      | enable => exact hinput.elim
      | disable => exact hinput.elim
  | loss percent now => exact h.follow (.loss percent now)
  | report sample now => exact h.follow (.report sample now)

/-- So does a run of them, by induction on the inputs with the messages returned so far. -/
theorem Agrees.run {s : Sender} {messages : List Control} (h : s.Agrees messages)
    (inputs : List Input) (hinputs : ∀ input ∈ inputs, input.KeepsRule) :
    Agrees (s.run inputs).1 (messages ++ returned (s.run inputs).2) := by
  induction inputs generalizing s messages with
  | nil =>
      rw [Sender.run, returned, List.flatMap_nil, List.append_nil]
      exact h
  | cons input inputs ih =>
      rw [List.forall_mem_cons] at hinputs
      -- The messages of the first input come before those of the others.
      have hrest := ih (h.step input hinputs.1) hinputs.2
      rw [List.append_assoc] at hrest
      exact hrest

/-- Whatever a sender is shown, in whatever order and at whatever times, the
    level and the switch of its encoder are those of its policy. Both are what
    the messages that it has returned have set, and each of these messages
    changed what it is about. -/
theorem settings_agree (opusType redType : UInt8) (config : PolicyConfig) (inputs : List Input)
    (hinputs : ∀ input ∈ inputs, input.KeepsRule) :
    let s := ((new opusType redType config).run inputs).1
    let messages := returned ((new opusType redType config).run inputs).2
    s.encoder.level = s.policy.level ∧ s.encoder.enabled = s.policy.enabled ∧
      messages.foldl Setting.tell { level := 0, enabled := true }
        = { level := s.policy.level, enabled := s.policy.enabled } ∧
      Setting.Changes { level := 0, enabled := true } messages := by
  have h := (agrees_new opusType redType config).run inputs hinputs
  rw [List.nil_append] at h
  exact ⟨congrArg Setting.level h.encoder_eq, congrArg Setting.enabled h.encoder_eq,
    h.told.symm, h.changes⟩

/-- Loss of 30 %, a frame, a new payload type, loss that is no number, two
    reports of a bad network, and quiet again on a clock that jumps. -/
def busyInputs : List Input :=
  [.loss 30 1000, .frame ⟨0, 0, 7, 111, [0x08, 0x80, 0x00]⟩, .control (.redPayloadType 64),
    .loss (0 / 0) 500, .loss 90 2000, .report ⟨3000, 100, 0⟩ 3000, .report ⟨9000, 200, 10⟩ 70000]

/-- Losses, reports, frames and a payload type in one run, with a level set and redundancy
    switched off and on again. The messages of the run, one behind the other, lead from the
    first setting to the last. -/
theorem settings_agree_busy :
    (∀ input ∈ busyInputs, input.KeepsRule) ∧
      returned ((new 111 63 {}).run busyInputs).2 = [.redundancyLevel 2, .disable, .enable] ∧
      let s := ((new 111 63 {}).run busyInputs).1
      s.encoder.level = s.policy.level ∧ s.encoder.enabled = s.policy.enabled ∧
        (returned ((new 111 63 {}).run busyInputs).2).foldl Setting.tell ⟨0, true⟩
          = ⟨s.policy.level, s.policy.enabled⟩ := by
  have hkeeps : ∀ input ∈ busyInputs, input.KeepsRule := by
    simp only [busyInputs, List.forall_mem_cons, Input.KeepsRule, List.not_mem_nil,
      false_implies, implies_true, and_self]
  have hagree := settings_agree 111 63 {} busyInputs hkeeps
  exact ⟨hkeeps, by decide +kernel, hagree.1, hagree.2.1, hagree.2.2.1⟩

end Sender

end Redundancy

end RedundantAudio
