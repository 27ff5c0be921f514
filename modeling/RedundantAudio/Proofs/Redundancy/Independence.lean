import RedundantAudio.Proofs.Redundancy.Plan
import RedundantAudio.Proofs.Redundancy.Wrapping

/-!
# How Far a Setting Reaches

The level and the switch decide how many older encodings stand beside the
primary of a packet, and they decide nothing else. Which frames become packets,
which go on as they are, which are dropped, and what the history keeps, all
depend on the frames and on the payload types alone. If a packet with many
encodings could fail where one with few would not, or could keep its primary
out of the history, a setting of the past would be felt long after it was
changed. As it is, two encoders that saw the same frames are the same as soon as
they are set alike.

The two are kept side by side as a pair of feeds that agree on the frames. That
they agree on payload types is asked of the encoders and not of the messages,
since it makes no difference how they came to know them.

## Main definitions

* `Encoder.types`: The payload types that an encoder knows.
* `SameButSetting`: Two encoders that differ in their settings at most.
* `SameButCopies`: Two frames that differ in what stands beside the primary.
* `Alike`: Two outcomes that differ in no more than that.
* `Feed.Parallel`: Two feeds of the same frames.
* `Feed.eager`, `Feed.hesitant`: Two feeds to look at.

## Theorems

* `SameButSetting.send`: A frame keeps two encoders side by side.
* `SameButSetting.eq`: What is left to differ is the setting.
* `Feed.parallel_of_messages`: Feeds with the same messages about types.
* `Feed.Parallel.sameButSetting`: Two encoders before each frame.
* `Feed.settings_confined`: What does not depend on the setting.
-/

namespace RedundantAudio

namespace Redundancy

/-- Two frames that carry the same primary encoding, and differ at most in
    what stands beside it. -/
structure SameButCopies (opusType : UInt8) (a b : Rtp.Frame) : Prop where
  sequence_eq : a.sequence = b.sequence
  timestamp_eq : a.timestamp = b.timestamp
  ssrc_eq : a.ssrc = b.ssrc
  payloadType_eq : a.payloadType = b.payloadType
  primary_eq : ∃ primary, Red.primaryPayload a.timestamp a.payload opusType = .ok primary ∧
    Red.primaryPayload b.timestamp b.payload opusType = .ok primary

/-- Two outcomes that differ at most in what stands beside a primary encoding,
    if there is one. -/
inductive Alike (opusType : UInt8) : Outcome → Outcome → Prop
  | encoded {a b : Rtp.Frame} (m n : Nat) (h : SameButCopies opusType a b) :
      Alike opusType (.encoded a m) (.encoded b n)
  | passed (frame : Rtp.Frame) : Alike opusType (.passed frame) (.passed frame)
  | dropped : Alike opusType .dropped .dropped

namespace Encoder

/-- The payload types that an encoder knows. -/
def types (e : Encoder) : UInt8 × UInt8 :=
  (e.opusType, e.redType)

/-- Two encoders that differ in their settings at most. -/
structure SameButSetting (e e' : Encoder) : Prop where
  types_eq : e.types = e'.types
  history_eq : e.history = e'.history

/-- A frame that is left alone fares the same either way: it is passed on, or dropped when
    it is too large. -/
theorem alike_pass (opusType : UInt8) (frame : Rtp.Frame) :
    Alike opusType (pass frame) (pass frame) := by
  unfold pass
  by_cases h : frame.payload.length > Red.payloadLimit
  · rw [if_pos h]
    exact .dropped
  · rw [if_neg h]
    exact .passed frame

theorem types_send (e : Encoder) (hs : e.Sound) (frame : Rtp.Frame) :
    (e.send frame).1.types = e.types := by
  rcases send_cases e frame with ⟨primary, hprimary, hfits⟩ | hpass
  · rw [send_eq e hs frame primary hprimary hfits]
    rfl
  · rw [hpass]

namespace SameButSetting

variable {e e' : Encoder} (h : SameButSetting e e')

include h

theorem opusType_eq : e.opusType = e'.opusType :=
  congrArg Prod.fst h.types_eq

theorem redType_eq : e.redType = e'.redType :=
  congrArg Prod.snd h.types_eq

theorem primaryOf_eq (frame : Rtp.Frame) : e.primaryOf frame = e'.primaryOf frame := by
  unfold primaryOf
  rw [h.opusType_eq, h.redType_eq]

theorem eq (hlevel : e.level = e'.level) (henabled : e.enabled = e'.enabled) : e = e' := by
  have htypes := Prod.mk.inj h.types_eq
  cases e
  cases e'
  rw [mk.injEq]
  exact ⟨htypes.1, htypes.2, hlevel, henabled, h.history_eq⟩

/-- Both encoders wrap a frame or neither does. Neither of them can fail where
    the other one does not, and what they record is the primary. -/
theorem send (hs : e.Sound) (hs' : e'.Sound) (frame : Rtp.Frame) :
    (e.send frame).1.history = (e'.send frame).1.history ∧
      Alike e.opusType (e.send frame).2 (e'.send frame).2 := by
  by_cases hholds : ∃ primary, e.primaryOf frame = some (.ok primary) ∧ fits primary = true
  · rcases hholds with ⟨primary, hprimary, hfits⟩
    have hprimary' : e'.primaryOf frame = some (.ok primary) := by
      rw [← h.primaryOf_eq]
      exact hprimary
    -- The packets need not be equal, but both give the same primary when they are read.
    have hread' := primaryPayload_packetOf e' hs' frame.timestamp primary hfits
    rw [← h.opusType_eq] at hread'
    rw [send_eq e hs frame primary hprimary hfits, send_eq e' hs' frame primary hprimary' hfits]
    refine ⟨?_, Alike.encoded _ _ ⟨rfl, rfl, rfl, h.redType_eq, primary, ?_, hread'⟩⟩
    · change e.history.update _ _ _ = e'.history.update _ _ _
      rw [h.history_eq]
    · exact primaryPayload_packetOf e hs frame.timestamp primary hfits
  · -- The one leaves the frame alone for the same reason as the other.
    have hnone : ∀ primary, e.primaryOf frame = some (.ok primary) → ¬ fits primary = true :=
      fun primary hprimary hfits => hholds ⟨primary, hprimary, hfits⟩
    have hnone' := hnone
    simp only [h.primaryOf_eq] at hnone'
    rw [send_eq_pass e frame hnone, send_eq_pass e' frame hnone']
    exact ⟨h.history_eq, alike_pass _ frame⟩

end SameButSetting

/-! ### What an encoder is told about types -/

/-- Whether a message is about payload types. -/
def namesType : Control → Bool
  | .opusPayloadType _ => true
  | .redPayloadType _ => true
  | .redundancyLevel _ => false
  | .enable => false
  | .disable => false

/-- A message does the same to the types of encoders that agree on them. -/
theorem types_handle (e e' : Encoder) (h : e.types = e'.types) (message : Control) :
    (e.handle message).types = (e'.handle message).types := by
  have hboth := Prod.mk.inj h
  cases message with
  | opusPayloadType n => exact congrArg (Prod.mk _) hboth.2
  | redPayloadType n => exact congrArg (Prod.mk · _) hboth.1
  | redundancyLevel n => exact h
  | enable => exact h
  | disable => exact h

/-- A message about redundancy leaves the types alone. -/
theorem types_handle_of_not (e : Encoder) (message : Control) (h : ¬ namesType message = true) :
    (e.handle message).types = e.types := by
  cases message with
  | opusPayloadType n => exact absurd rfl h
  | redPayloadType n => exact absurd rfl h
  | redundancyLevel n => rfl
  | enable => rfl
  | disable => rfl

/-- Messages about redundancy do not count for the types. So two encoders that are told the
    same types agree on them, whatever else each of them is told. -/
theorem types_handleAll_filter (messages : List Control) :
    ∀ e e' : Encoder, e.types = e'.types →
      (e.handleAll messages).types = (e'.handleAll (messages.filter namesType)).types := by
  induction messages with
  | nil =>
      intro e e' h
      exact h
  | cons message messages ih =>
      intro e e' h
      -- Only the first list has a message to skip.
      by_cases hnames : namesType message = true
      · rw [List.filter_cons_of_pos hnames]
        exact ih _ _ (types_handle e e' h message)
      · rw [List.filter_cons_of_neg hnames]
        exact ih _ _ ((types_handle_of_not e message hnames).trans h)

theorem types_handleAll (e e' : Encoder) (h : e.types = e'.types)
    (messages messages' : List Control)
    (hmessages : messages.filter namesType = messages'.filter namesType) :
    (e.handleAll messages).types = (e'.handleAll messages').types := by
  rw [types_handleAll_filter messages e e' h, hmessages,
    ← types_handleAll_filter messages' e' e' rfl]

end Encoder

namespace Feed

/-- Two feeds of the same frames, to encoders that know the same payload types
    whenever a frame comes. What they are told about redundancy is left open. -/
structure Parallel (f g : Feed) : Prop where
  frame_eq : ∀ n, f.frame n = g.frame n
  types_eq : ∀ n, (f.encoder n).types = (g.encoder n).types

/-- Feeds of the same frames are parallel, if they tell the same about payload types. What
    they tell about redundancy in between does not matter. -/
theorem parallel_of_messages (f g : Feed) (hframe : ∀ n, f.frame n = g.frame n)
    (hmessages : ∀ n, (f.messages n).filter Encoder.namesType
      = (g.messages n).filter Encoder.namesType) : f.Parallel g := by
  refine ⟨hframe, fun n => ?_⟩
  induction n with
  | zero =>
      rw [encoder_zero, encoder_zero]
      exact Encoder.types_handleAll _ _ rfl _ _ (hmessages 0)
  | succ n ih =>
      rw [encoder_succ, encoder_succ]
      refine Encoder.types_handleAll _ _ ?_ _ _ (hmessages (n + 1))
      -- The frames between the messages leave the types as they are.
      rw [Encoder.types_send _ (f.sound_encoder n), Encoder.types_send _ (g.sound_encoder n), ih]

variable {f g : Feed}

/-- By induction on the frames: whatever is told in between, the histories stay
    the same. -/
theorem Parallel.sameButSetting (h : f.Parallel g) (n : Nat) :
    Encoder.SameButSetting (f.encoder n) (g.encoder n) := by
  induction n with
  | zero =>
      refine ⟨h.types_eq 0, ?_⟩
      rw [encoder_zero, encoder_zero, Encoder.history_handleAll, Encoder.history_handleAll]
  | succ n ih =>
      -- Messages leave the history, so only the frame counts, and both record its primary.
      refine ⟨h.types_eq (n + 1), ?_⟩
      rw [encoder_succ, encoder_succ, Encoder.history_handleAll, Encoder.history_handleAll,
        ← h.frame_eq n]
      exact (ih.send (f.sound_encoder n) (g.sound_encoder n) (f.frame n)).1

/-- Two encoders that are fed the same frames have the same history behind each
    of them, whatever they are told about redundancy. They wrap, pass on and drop
    the same frames, and what they send differs at most in what stands beside the
    primary. While they are set alike, it does not differ at all. -/
theorem settings_confined (h : f.Parallel g) (n : Nat) :
    ((f.encoder n).send (f.frame n)).1.history = ((g.encoder n).send (g.frame n)).1.history ∧
      Alike (f.encoder n).opusType ((f.encoder n).send (f.frame n)).2
        ((g.encoder n).send (g.frame n)).2 ∧
      ((f.encoder n).level = (g.encoder n).level →
        (f.encoder n).enabled = (g.encoder n).enabled →
        ((f.encoder n).send (f.frame n)).2 = ((g.encoder n).send (g.frame n)).2) := by
  have hsame := h.sameButSetting n
  have hsend := hsame.send (f.sound_encoder n) (g.sound_encoder n) (f.frame n)
  rw [← h.frame_eq n]
  refine ⟨hsend.1, hsend.2, fun hlevel henabled => ?_⟩
  rw [hsame.eq hlevel henabled]

/-- Frames of voice to an encoder that repeats as much as it can from the start,
    and for a while nothing at all. -/
def eager : Feed where
  start := 0
  messages
    | 0 => [.opusPayloadType 111, .redPayloadType 63, .redundancyLevel 7]
    | n => if n = 6 then [.disable] else if n = 9 then [.enable] else []
  frame := Encoder.voiced

/-- The same frames to an encoder that is told to repeat them later on. -/
def hesitant : Feed where
  start := 0
  messages
    | 0 => [.opusPayloadType 111, .redPayloadType 63]
    | n => if n = 4 then [.redundancyLevel 1] else if n = 8 then [.redundancyLevel 2] else []
  frame := Encoder.voiced

/-- The two send different packets with the same primary at first, and the same packets in
    the end, when both have been told the same level. What was sent before has left no
    trace. -/
theorem settings_confined_voiced :
    eager.Parallel hesitant ∧
      (∃ a b, ((eager.encoder 5).send (eager.frame 5)).2 = .encoded a 2 ∧
        ((hesitant.encoder 5).send (hesitant.frame 5)).2 = .encoded b 1 ∧
        Alike 111 (.encoded a 2) (.encoded b 1)) ∧
      ((eager.encoder 9).send (eager.frame 9)).2
        = ((hesitant.encoder 9).send (hesitant.frame 9)).2 := by
  have hmessages : ∀ n, (eager.messages n).filter Encoder.namesType
      = (hesitant.messages n).filter Encoder.namesType := by
    intro n
    cases n with
    | zero => rfl
    | succ n =>
        simp only [eager, hesitant]
        split_ifs <;> rfl
  have hparallel := parallel_of_messages eager hesitant (fun _ => rfl) hmessages
  -- At frame 5 the one repeats whatever fits, and the other a single encoding.
  have heager : ((eager.encoder 5).send (eager.frame 5)).2 = .encoded _ 2 := rfl
  have hhesitant : ((hesitant.encoder 5).send (hesitant.frame 5)).2 = .encoded _ 1 := rfl
  have halike := (settings_confined hparallel 5).2.1
  rw [heager, hhesitant] at halike
  exact ⟨hparallel, ⟨_, _, heager, hhesitant, halike⟩,
    (settings_confined hparallel 9).2.2 (by decide +kernel) (by decide +kernel)⟩

end Feed

end Redundancy

end RedundantAudio
