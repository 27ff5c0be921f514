import RedundantAudio.Proofs.Redundancy.Selection

/-!
# What the Messages Have Set

The messages about redundancy set two things, how many encodings to carry and
whether to carry any, and the last message about each of them counts. `Setting`
is that pair and `Setting.told` what messages make of it. It knows nothing of
an encoder: it is what anyone can work out who only reads the messages.

An encoder differs from it in one point. It never carries more encodings than
a packet may, so it cuts the level that it is told. Apart from that, and
whatever frames it has sent in between, its state is what the messages have
set (`setting_run`).

## Main definitions

* `Setting`: How many encodings to carry, and whether to carry any.
* `Setting.told`: What messages make of a setting.
* `Setting.Changes`: Each of some messages changes the setting.
* `Setting.capped`: The setting that an encoder makes of it.
* `Setting.count`: How many encodings a packet then carries at most.
* `Encoder.setting`: The setting of an encoder.

## Theorems

* `Setting.changes_append`: Messages change the setting if each part does.
* `Encoder.toNat_activeLevel`: An encoder carries as many encodings.
* `Encoder.setting_handleAll`: An encoder does what it is told.
* `Encoder.setting_send`: Sending a frame leaves the setting alone.
* `Encoder.setting_run`: The same for a run of frames and messages.
-/

namespace RedundantAudio

namespace Redundancy

/-- How many redundant encodings to carry, and whether to carry any. -/
structure Setting where
  /-- How many. -/
  level : UInt8 := 0
  /-- Whether to carry any. -/
  enabled : Bool := true
  deriving DecidableEq, Repr

namespace Setting

/-- What one message makes of a setting. -/
def tell (s : Setting) : Control → Setting
  | .redundancyLevel n => { s with level := n }
  | .enable => { s with enabled := true }
  | .disable => { s with enabled := false }
  | .opusPayloadType _ => s
  | .redPayloadType _ => s

/-- What messages make of a setting. -/
def told (s : Setting) (messages : List Control) : Setting :=
  messages.foldl tell s

/-- Each message changes what the ones before it have set. -/
def Changes (s : Setting) : List Control → Prop
  | [] => True
  | message :: messages => s.tell message ≠ s ∧ (s.tell message).Changes messages

@[simp]
theorem told_nil (s : Setting) : s.told [] = s :=
  rfl

@[simp]
theorem told_cons (s : Setting) (message : Control) (messages : List Control) :
    s.told (message :: messages) = (s.tell message).told messages :=
  rfl

@[simp]
theorem told_append (s : Setting) (messages more : List Control) :
    s.told (messages ++ more) = (s.told messages).told more :=
  List.foldl_append

theorem changes_append (s : Setting) (messages more : List Control) :
    s.Changes (messages ++ more) ↔ s.Changes messages ∧ (s.told messages).Changes more := by
  induction messages generalizing s with
  | nil => simp only [List.nil_append, Changes, told_nil, true_and]
  | cons message messages ih => simp only [List.cons_append, Changes, told_cons, ih, and_assoc]

/-- The setting of an encoder that was told this one. -/
def capped (s : Setting) : Setting :=
  { s with level := min s.level Red.levelLimit }

theorem capped_of_le (s : Setting) (h : s.level ≤ 2) : s.capped = s :=
  congrArg (fun level => { s with level }) (if_pos h)

/-- How many redundant encodings a packet carries at most, under a setting. -/
def count (s : Setting) : Nat :=
  if s.enabled then min s.level.toNat 2 else 0

end Setting

namespace Encoder

/-- The setting of an encoder. -/
def setting (e : Encoder) : Setting where
  level := e.level
  enabled := e.enabled

/-- An encoder with a setting carries as many encodings as the setting says. The limit of
    levels is applied by the encoder, and the setting counts it in. -/
theorem toNat_activeLevel (e : Encoder) (s : Setting) (h : e.setting = s.capped) :
    e.activeLevel.toNat = s.count := by
  have hlevel : e.level = min s.level Red.levelLimit := congrArg Setting.level h
  have hon : e.enabled = s.enabled := congrArg Setting.enabled h
  rw [activeLevel, Setting.count, hlevel, hon]
  by_cases hs : s.enabled = true
  · rw [if_pos hs, if_pos hs]
    change (if s.level ≤ 2 then s.level else 2).toNat = _
    -- The cut is made among bytes, and the count is a number.
    have hcut : s.level ≤ 2 ↔ s.level.toNat ≤ 2 := UInt8.le_iff_toNat_le
    by_cases hle : s.level ≤ 2
    · rw [if_pos hle, min_eq_left (hcut.mp hle)]
    · rw [if_neg hle, min_eq_right (Nat.le_of_not_le fun h => hle (hcut.mpr h))]
      rfl
  · rw [if_neg hs, if_neg hs]
    rfl

/-- One message does to an encoder what it does to a setting, up to the limit of levels. -/
theorem setting_handle (e : Encoder) (s : Setting) (h : e.setting = s.capped)
    (message : Control) : (e.handle message).setting = (s.tell message).capped := by
  cases message with
  | opusPayloadType _ => exact h
  | redPayloadType _ => exact h
  | redundancyLevel n => exact congrArg (fun r => { r with level := min n Red.levelLimit }) h
  | enable => exact congrArg (fun r => { r with enabled := true }) h
  | disable => exact congrArg (fun r => { r with enabled := false }) h

/-- So do many, by induction on the messages. -/
theorem setting_handleAll (e : Encoder) (s : Setting) (h : e.setting = s.capped)
    (messages : List Control) : (e.handleAll messages).setting = (s.told messages).capped := by
  induction messages generalizing e s with
  | nil => exact h
  | cons message messages ih => exact ih _ _ (setting_handle e s h message)

/-- A frame leaves at most a trace in the history. -/
theorem setting_send (e : Encoder) (hs : e.Sound) (frame : Rtp.Frame) :
    (e.send frame).1.setting = e.setting := by
  rcases send_cases e frame with ⟨primary, hprimary, hfits⟩ | hpass
  · rw [send_eq e hs frame primary hprimary hfits]
    rfl
  · rw [hpass]

theorem opusType_send (e : Encoder) (hs : e.Sound) (frame : Rtp.Frame) :
    (e.send frame).1.opusType = e.opusType := by
  rcases send_cases e frame with ⟨primary, hprimary, hfits⟩ | hpass
  · rw [send_eq e hs frame primary hprimary hfits]
    rfl
  · rw [hpass]

/-- The messages among the inputs of an encoder. -/
def controls (inputs : List Input) : List Control :=
  inputs.filterMap fun
    | .control message => some message
    | .frame _ => none

/-- The setting behind a run is made by its messages alone, whatever frames come between. -/
theorem setting_run (e : Encoder) (hs : e.Sound) (s : Setting) (h : e.setting = s.capped)
    (inputs : List Input) : (e.run inputs).1.setting = (s.told (controls inputs)).capped := by
  induction inputs generalizing e s with
  | nil => exact h
  | cons input inputs ih =>
      cases input with
      | frame frame =>
          exact ih _ (sound_step e hs (.frame frame)) s ((setting_send e hs frame).trans h)
      | control message =>
          exact ih _ (sound_handle e hs message) _ (setting_handle e s h message)

end Encoder

end Redundancy

end RedundantAudio
