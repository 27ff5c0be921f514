import RedundantAudio.Proofs.Redundancy.Regular
import RedundantAudio.Proofs.Redundancy.Setting

/-!
# Packets Carry What the Plan Says

An encoder finds what it repeats in a queue that drops its oldest entries by
age, is cleared when it overflows, and is searched by media times that wrap.
Over a stream with a frame in every interval all of that comes to
`Source.plan`, which knows numbers only. Here the frames go into a fresh
encoder one by one, with messages between them that set the level or turn
redundancy on and off, and the packets that come out are read again.

What carries the run is that the history before frame `n` is `Source.past`,
whatever the messages were (`Regular.history_eq`). How many encodings a packet
carries is known from the messages alone, and which ones from the payloads, so
what happened more than five frames ago makes no difference to a packet. Nor
does the media time: `carries_plan` compares a feed with others that begin at
another one, and wrap at another frame.

## Main definitions

* `Feed`: Frames for an encoder, and messages before each.
* `Feed.encoder`: The encoder that is about to send a frame.
* `Feed.setting`: What the messages so far have set.
* `Feed.Regular`: There is a frame in every interval, and each can be sent.
* `Feed.plan`: The numbers of the packets that a packet carries.
* `Feed.copy`, `Feed.own`: The blocks of a packet.
* `Feed.mixed`: A feed to look at.

## Theorems

* `Source.plan_back`: A packet carries packets from two to five frames back.
* `Source.pairwise_plan`: The plan lists them oldest first.
* `Source.plan_congr`: The plan looks at the last five frames only.
* `Feed.Regular.history_eq`: The history before each frame.
* `Feed.carries_plan`: What the packets of a regular feed carry.
* `Feed.carries_plan_mixed`: A packet that falls back, behind a wrap.
-/

namespace RedundantAudio

namespace Redundancy

namespace Source

/-- What serves at a stop is the packet at its usual distance, or the one behind that. -/
theorem choice_back (s : Source) (n k m : Nat) (h : s.choice n k = some m) :
    n = m + 2 * k ∨ n = m + (2 * k + 1) := by
  rw [choice] at h
  split_ifs at h with hnear hfar
  · left
    rw [Option.some.injEq] at h
    omega
  · right
    rw [Option.some.injEq] at h
    omega

/-- The walk through the stops ends five packets back. -/
theorem choices_back (s : Source) (level n m : Nat) (hlevel : level ≤ 2)
    (hm : m ∈ (List.range' 1 level).filterMap (s.choice n)) : m + 2 ≤ n ∧ n ≤ m + 5 := by
  rcases List.mem_filterMap.mp hm with ⟨k, hk, hchoice⟩
  rw [List.mem_range'_1] at hk
  have hback := s.choice_back n k m hchoice
  omega

/-- Only from the end are packets left out for want of room: the walk ends at the first that
    does not fit, even if a later one would. -/
theorem fitting_sublist (s : Source) (numbers : List Nat) :
    ∀ room, (s.fitting room numbers).Sublist numbers := by
  induction numbers with
  | nil =>
      intro room
      exact List.Sublist.refl []
  | cons m rest ih =>
      intro room
      rw [fitting]
      split_ifs
      · exact List.nil_sublist _
      · exact (ih _).cons_cons m

/-- A packet carries none but those from two to five intervals before. -/
theorem plan_back (s : Source) (level n m : Nat) (hlevel : level ≤ 2) (hm : m ∈ s.plan level n) :
    m + 2 ≤ n ∧ n ≤ m + 5 := by
  rw [plan, List.mem_reverse] at hm
  exact s.choices_back level n m hlevel ((s.fitting_sublist _ _).subset hm)

/-- A packet is older than another one if it serves at a later stop, the
    fallback included. -/
theorem pairwise_plan (s : Source) (level n : Nat) : (s.plan level n).Pairwise (· < ·) := by
  rw [plan, List.pairwise_reverse]
  refine List.Pairwise.sublist (s.fitting_sublist _ _) (List.pairwise_filterMap.mpr ?_)
  -- Two stops are two packets apart, and a fallback is one packet off.
  refine (List.pairwise_lt_range' 1).imp fun {i j} hlt m hm m' hm' => ?_
  have hback := s.choice_back n i m hm
  have hback' := s.choice_back n j m' hm'
  omega

section Congruence

variable {s t : Source} {n : Nat}
  (h : ∀ m, m ≤ n → n ≤ m + 5 → s.payload m = t.payload m)

include h

/-- The choice at a stop looks at two packets. -/
theorem choice_congr (k : Nat) (hk : k ≤ 2) : s.choice n k = t.choice n k := by
  have hnear : s.payload (n - 2 * k) = t.payload (n - 2 * k) := h _ (by omega) (by omega)
  have hfar : s.payload (n - (2 * k + 1)) = t.payload (n - (2 * k + 1)) :=
    h _ (by omega) (by omega)
  rw [choice, choice, hnear, hfar]

omit h in
/-- What fits is decided by the lengths of the packets that are to fit. -/
theorem fitting_congr (numbers : List Nat) (hall : ∀ m ∈ numbers, s.payload m = t.payload m) :
    ∀ room, s.fitting room numbers = t.fitting room numbers := by
  induction numbers with
  | nil =>
      intro room
      rfl
  | cons m rest ih =>
      intro room
      rw [List.forall_mem_cons] at hall
      rw [fitting, fitting, hall.1, ih hall.2]

/-- The plan of a packet looks at the packet and the five before it. -/
theorem plan_congr (level : Nat) (hlevel : level ≤ 2) : s.plan level n = t.plan level n := by
  -- The same packets serve at the stops, and they fit alike.
  have hchoices : (List.range' 1 level).filterMap (s.choice n)
      = (List.range' 1 level).filterMap (t.choice n) :=
    List.filterMap_congr fun k hk => choice_congr h k (by rw [List.mem_range'_1] at hk; omega)
  rw [plan, plan, h n le_rfl (by omega), hchoices, fitting_congr]
  intro m hm
  have hback := t.choices_back level n m hlevel hm
  exact h m (by omega) hback.2

/-- Ages and encodings are the same for sources that agree about the packets in question,
    whenever each of them began. -/
theorem aged_congr (numbers : List Nat) (hall : ∀ m ∈ numbers, m ≤ n ∧ n ≤ m + 5) :
    s.aged n numbers = t.aged n numbers := by
  refine List.map_congr_left fun m hm => ?_
  rw [Red.packetTime_sub _ _ _ (hall m hm).1, Red.packetTime_sub _ _ _ (hall m hm).1,
    h m (hall m hm).1 (hall m hm).2]

end Congruence

end Source

namespace Encoder

theorem run_append (e : Encoder) (inputs more : List Input) :
    (e.run (inputs ++ more)).1 = ((e.run inputs).1.run more).1 := by
  induction inputs generalizing e with
  | nil => rfl
  | cons input inputs ih => exact ih _

theorem run_controls (e : Encoder) (messages : List Control) :
    (e.run (messages.map .control)).1 = e.handleAll messages := by
  induction messages generalizing e with
  | nil => rfl
  | cons message messages ih => exact ih _

end Encoder

/-- Frames for an encoder, and messages before each. -/
structure Feed where
  /-- The media time of the first frame. -/
  start : UInt32
  /-- What the encoder is told before a frame. -/
  messages : Nat → List Control
  /-- The frames. -/
  frame : Nat → Rtp.Frame

namespace Feed

variable (f : Feed)

/-- All that comes before a frame. -/
def inputs : Nat → List Encoder.Input
  | 0 => (f.messages 0).map .control
  | n + 1 => inputs n ++ .frame (f.frame n) :: (f.messages (n + 1)).map .control

/-- The encoder that is about to send a frame. -/
def encoder (n : Nat) : Encoder :=
  (({} : Encoder).run (f.inputs n)).1

/-- What the messages before a frame have set. -/
def setting (n : Nat) : Setting :=
  ({} : Setting).told (Encoder.controls (f.inputs n))

/-- There is a frame in every interval, with an encoding of the type that the
    encoder knows, and it is not too large to be a primary. -/
structure Regular : Prop where
  timestamp_eq : ∀ n, (f.frame n).timestamp = Red.packetTime f.start n
  payloadType_eq : ∀ n, (f.frame n).payloadType = (f.encoder n).opusType
  length_pos : ∀ n, 0 < (f.frame n).payload.length
  length_lt : ∀ n, (f.frame n).payload.length < 1000

/-- The stream of the frames. -/
def source : Source where
  sequence := (f.frame 0).sequence
  start := f.start
  ssrc := (f.frame 0).ssrc
  payload n := (f.frame n).payload

/-- The numbers of the packets that a packet carries. -/
def plan (n : Nat) : List Nat :=
  f.source.plan (f.setting n).count n

/-- The block of a packet that carries another one. -/
def copy (n m : Nat) : Red.Block where
  isLast := false
  payloadType := (f.encoder n).opusType
  offset := .ofNat (960 * (n - m))
  timestamp := (f.frame m).timestamp
  payload := (f.frame m).payload
  hasFec := false

/-- The block of a packet that carries the packet itself. -/
def own (n : Nat) : Red.Block where
  isLast := true
  payloadType := (f.encoder n).opusType
  offset := 0
  timestamp := (f.frame n).timestamp
  payload := (f.frame n).payload
  hasFec := false

theorem encoder_zero : f.encoder 0 = ({} : Encoder).handleAll (f.messages 0) :=
  Encoder.run_controls _ _

theorem encoder_succ (n : Nat) :
    f.encoder (n + 1) = ((f.encoder n).send (f.frame n)).1.handleAll (f.messages (n + 1)) := by
  rw [encoder, inputs, Encoder.run_append]
  exact Encoder.run_controls _ _

theorem sound_encoder (n : Nat) : (f.encoder n).Sound :=
  Encoder.sound_run _ Encoder.sound_default _

/-- How many encodings the encoder would carry is known from the messages, since frames do
    not change the setting. -/
theorem toNat_activeLevel (n : Nat) : (f.encoder n).activeLevel.toNat = (f.setting n).count :=
  Encoder.toNat_activeLevel _ _ (Encoder.setting_run _ Encoder.sound_default _ rfl _)

theorem count_setting_le (n : Nat) : (f.setting n).count ≤ 2 := by
  rw [Setting.count]
  split_ifs <;> omega

namespace Regular

variable {f} (h : f.Regular)

include h

theorem fits (n : Nat) : Encoder.fits (f.source.payload n) = true := by
  simp only [Encoder.fits, Bool.and_eq_true, Bool.not_eq_true', List.isEmpty_eq_false_iff,
    decide_eq_true_eq]
  exact ⟨List.ne_nil_of_length_pos (h.length_pos n), h.length_lt n⟩

/-- An encoder whose history is that of the source sends what the plan says. -/
theorem send_coder_encoder (n : Nat) :
    (f.source.coder (f.encoder n) n).send (f.frame n)
      = (f.source.coder (f.encoder n) (n + 1), .encoded { f.frame n with
          payload := Red.packetBytes (f.encoder n).opusType (f.source.aged n (f.plan n))
            (f.frame n).payload
          payloadType := (f.encoder n).redType } (f.plan n).length) := by
  rw [f.source.send_plan _ (f.sound_encoder n) n _ (h.payloadType_eq n) (h.timestamp_eq n) rfl
    (h.fits n), f.toNat_activeLevel n]
  rfl

/-- Whatever the messages were, the history before a frame holds those of the
    last five that are worth repeating. -/
theorem history_eq (n : Nat) : (f.encoder n).history = f.source.past n := by
  induction n with
  | zero =>
      rw [encoder_zero, Encoder.history_handleAll]
      rfl
  | succ n ih =>
      -- Only the frame counts, and it leads from one history to the next.
      rw [encoder_succ, Encoder.history_handleAll, ← f.source.coder_of_history ih,
        h.send_coder_encoder n]
      rfl

theorem encoder_eq (n : Nat) : f.source.coder (f.encoder n) n = f.encoder n :=
  f.source.coder_of_history (h.history_eq n)

/-- What is sent for a frame of a regular feed: a packet with the copies of the plan. -/
theorem send_encoder (n : Nat) :
    ((f.encoder n).send (f.frame n)).2 = .encoded { f.frame n with
      payload := Red.packetBytes (f.encoder n).opusType (f.source.aged n (f.plan n))
        (f.frame n).payload
      payloadType := (f.encoder n).redType } (f.plan n).length := by
  have hsend := h.send_coder_encoder n
  rw [h.encoder_eq n] at hsend
  rw [hsend]

/-- A copy has the age and the media time of the frame that it was made of. -/
theorem redundantBlock_eq (n m : Nat) (hm : m ≤ n) :
    Red.redundantBlock (f.frame n).timestamp (f.encoder n).opusType
        (Red.packetTime f.start n - Red.packetTime f.start m, f.source.payload m)
      = f.copy n m := by
  have htype := Red.wireType_of_lt _ (f.sound_encoder n).opusType_lt
  have htime : Red.packetTime f.start n - (Red.packetTime f.start n - Red.packetTime f.start m)
      = Red.packetTime f.start m := by
    grind
  rw [Red.redundantBlock, copy, htype, h.timestamp_eq n, h.timestamp_eq m, htime,
    Red.packetTime_sub _ _ _ hm]
  dsimp only
  rw [UInt32.toUInt16_ofNat']
  rfl

/-- Read again, a packet has one block for each copy of the plan, and its own block last.
    The ages of the copies are small, so they go through the offset field and come back as
    media times. -/
theorem decode_packetBytes (n : Nat) :
    Red.decode (f.frame n).timestamp
        (Red.packetBytes (f.encoder n).opusType (f.source.aged n (f.plan n)) (f.frame n).payload)
        (f.encoder n).opusType
      = .ok ((f.plan n).map (f.copy n) ++ [f.own n]) := by
  have hs := f.sound_encoder n
  -- What the encoder selects from its history is the plan.
  have hcarried : (f.encoder n).carried (Red.packetTime f.start n) (f.source.payload n).length
      = f.source.aged n (f.plan n) := by
    have hplan := f.source.carried_plan (f.encoder n) hs n
    rwa [h.encoder_eq n, f.toNat_activeLevel n] at hplan
  have hheaders := (f.encoder n).announceable_select hs (Red.packetTime f.start n)
    (f.source.payload n) (h.fits n)
  have hprimary : (f.frame n).payload ≠ [] := List.ne_nil_of_length_pos (h.length_pos n)
  rw [hcarried] at hheaders
  rw [Red.decode_packetBytes _ _ _ _ _ rfl hprimary hheaders, Source.aged, List.map_map,
    Red.primaryBlock, Red.wireType_of_lt _ hs.opusType_lt]
  congr 2
  -- Each copy comes back with its age, which the two packets have in common.
  refine List.map_congr_left fun m hm => h.redundantBlock_eq n m ?_
  have hback := f.source.plan_back _ n m (f.count_setting_le n) hm
  omega

end Regular

/-- Each frame of a regular feed becomes a redundant packet. Read again, the
    packet has a block for each packet of the plan, oldest first, and its own;
    and the history has room for one more. Another feed with the same last six
    frames and the same setting comes to the same packet, whatever it was before
    and whenever it began. -/
theorem carries_plan {f : Feed} (h : f.Regular) (n : Nat) :
    ∃ packet,
      ((f.encoder n).send (f.frame n)).2 = .encoded { f.frame n with
        payload := packet
        payloadType := (f.encoder n).redType } (f.plan n).length ∧
      Red.decode (f.frame n).timestamp packet (f.encoder n).opusType
        = .ok ((f.plan n).map (f.copy n) ++ [f.own n]) ∧
      (f.plan n).Pairwise (· < ·) ∧
      (f.encoder n).history.isFull (f.frame n).timestamp = false ∧
      ∀ g : Feed, g.Regular → (g.encoder n).opusType = (f.encoder n).opusType →
        g.setting n = f.setting n →
        (∀ m, m ≤ n → n ≤ m + 5 → (g.frame m).payload = (f.frame m).payload) →
        ((g.encoder n).send (g.frame n)).2 = .encoded { g.frame n with
          payload := packet
          payloadType := (g.encoder n).redType } (f.plan n).length := by
  refine ⟨_, h.send_encoder n, h.decode_packetBytes n, f.source.pairwise_plan _ n, ?_,
    fun g hg htype hsetting halike => ?_⟩
  · rw [h.history_eq n, h.timestamp_eq n]
    exact f.source.isFull_past n
  · -- The other feed has the same plan, as it looks at these frames only.
    have hplan : g.plan n = f.plan n := by
      rw [plan, hsetting]
      exact Source.plan_congr halike _ (f.count_setting_le n)
    -- The ages are the same, although the media times may not be.
    have haged : g.source.aged n (f.plan n) = f.source.aged n (f.plan n) := by
      refine Source.aged_congr halike _ fun m hm => ?_
      have hback := f.source.plan_back _ n m (f.count_setting_le n) hm
      omega
    rw [hg.send_encoder n, hplan, haged, htype, halike n le_rfl (by omega)]

/-- The payload of a frame: every third one is not voiced, and of the others
    every fourth is long. -/
def mixedPayload (n : Nat) : Bytes :=
  if n % 3 = 1 then [0x08, 0x00, .ofNat n]
  else 0x08 :: 0x80 :: List.replicate (if n % 4 = 3 then 600 else 10) (.ofNat n)

/-- A feed whose media time wraps after five frames, and where redundancy is off
    for three of them. -/
def mixed : Feed where
  start := 0 - 4800
  messages
    | 0 => [.opusPayloadType 111, .redPayloadType 63, .redundancyLevel 7]
    | n + 1 => if n = 9 then [.disable] else if n = 12 then [.enable] else []
  frame n :=
    { sequence := .ofNat n
      timestamp := Red.packetTime (0 - 4800) n
      ssrc := 7
      payloadType := 111
      payload := mixedPayload n }

/-- The encoder of the mixed feed knows the type of its frames throughout. -/
theorem opusType_mixed (n : Nat) : (mixed.encoder n).opusType = 111 := by
  induction n with
  | zero => rfl
  | succ n ih =>
      rw [encoder_succ, ← ih, ← Encoder.opusType_send _ (sound_encoder _ n) (mixed.frame n)]
      change (Encoder.handleAll _
        (if n = 9 then [.disable] else if n = 12 then [.enable] else [])).opusType = _
      split_ifs <;> rfl

theorem length_mixedPayload (n : Nat) :
    0 < (mixedPayload n).length ∧ (mixedPayload n).length < 1000 := by
  rw [mixedPayload]
  split_ifs <;> simp only [List.length_cons, List.length_replicate, List.length_nil] <;> omega

theorem regular_mixed : mixed.Regular where
  timestamp_eq _ := rfl
  payloadType_eq n := (opusType_mixed n).symm
  length_pos n := (length_mixedPayload n).1
  length_lt n := (length_mixedPayload n).2

/-- Packet 8 carries packet 6 and, because packet 4 is not voiced, packet 3 from
    before the wrap. Packet 10 carries none, and packet 15 has no room left for
    packet 11. -/
theorem carries_plan_mixed :
    mixed.Regular ∧ mixed.plan 8 = [3, 6] ∧ mixed.plan 10 = [] ∧ mixed.plan 15 = [12] ∧
      ∃ packet,
        ((mixed.encoder 8).send (mixed.frame 8)).2 = .encoded { mixed.frame 8 with
          payload := packet
          payloadType := (mixed.encoder 8).redType } 2 ∧
        Red.decode (mixed.frame 8).timestamp packet (mixed.encoder 8).opusType
          = .ok [mixed.copy 8 3, mixed.copy 8 6, mixed.own 8] := by
  have hplan : mixed.plan 8 = [3, 6] := by decide +kernel
  rcases carries_plan regular_mixed 8 with ⟨packet, hsend, hdecode, _, _, _⟩
  rw [hplan] at hsend hdecode
  exact ⟨regular_mixed, hplan, by decide +kernel, by decide +kernel, packet, hsend, hdecode⟩

end Feed

end Redundancy

end RedundantAudio
