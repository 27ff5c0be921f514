import Mathlib.Data.List.Induction
import RedundantAudio.Proofs.Redundancy.Agreement
import RedundantAudio.Proofs.Redundancy.Independence
import RedundantAudio.Transmission.Stream

/-!
# The Events of a Stream

A stream tells what happens as a list of events, and lines for the log stand
among them. `deeds` leaves those out. What is left of a frame is short: the
sender is given it, the link has its way with what the sender gives back, and
there may be a report.

The events are the whole of what the sender is given (`sender_run`), so its
state behind a stream is that of a run of its own, and so is what it makes of
any frame. Two things can be relied on in such a run. The encoder stays sound
whatever the sender is shown, and reports are never about payload types, so
these are the same all along.

## Main definitions

* `Link.loses`: Whether a link loses a packet.
* `Event.input`, `Event.report`, `Event.datagram`: What there is in an event.
* `deeds`: The events without the log.
* `verdict`: What a link makes of a packet.

## Theorems

* `Link.sent_transmitAll`, `Link.lost_transmitAll`: What a link has counted.
* `Sender.types_report`: A report leaves the payload types alone.
* `Sender.sound_run`: A run keeps the encoder of a sender sound.
* `packets_transmitAll`: What a network counts.
* `Stream.deeds_offer`, `Stream.deeds_giveReport`: What a frame and a report bring about.
* `Stream.sender_run`: The events say what the sender was given.
-/

namespace RedundantAudio

/-! ### The link -/

namespace Simulation

namespace Link

/-- Whether a link loses a packet, by its number. -/
def loses (l : Link) (n : Nat) : Bool :=
  (transmitAll n l).1.transmit.2

/-- The last of some packets is transmitted by the link that the others leave behind. -/
theorem transmitAll_concat (l : Link) (n : Nat) :
    transmitAll (n + 1) l
      = ((transmitAll n l).1.transmit.1, (transmitAll n l).2 ++ [l.loses n]) := by
  induction n generalizing l with
  | zero => rfl
  | succ n ih =>
      rw [transmitAll]
      dsimp only
      rw [ih]
      rfl

theorem sent_transmitAll (l : Link) (n : Nat) : (transmitAll n l).1.sent = l.sent + n := by
  induction n with
  | zero => rfl
  | succ n ih =>
      rw [transmitAll_concat, transmit]
      dsimp only
      rw [ih, Nat.add_assoc]

/-- A link counts the packets that it loses. -/
theorem lost_transmitAll (l : Link) (n : Nat) :
    (transmitAll n l).1.lost = l.lost + (List.range n).countP l.loses := by
  induction n with
  | zero => rfl
  | succ n ih =>
      -- The last packet counts if the link loses it.
      have hstep : (transmitAll (n + 1) l).1.lost
          = if l.loses n then (transmitAll n l).1.lost + 1 else (transmitAll n l).1.lost := by
        rw [transmitAll_concat]
        rfl
      rw [hstep, ih, List.range_succ, List.countP_append, List.countP_singleton]
      split_ifs <;> omega

end Link

end Simulation

/-! ### The sender -/

namespace Redundancy

/-- A decision of the policy is not about payload types. -/
theorem Policy.Meets.not_namesType {p q : Policy} {now : Nat} {demand : Demand}
    {messages : List Control} (h : Meets p now demand q messages) :
    ∀ message ∈ messages, ¬ Encoder.namesType message = true := by
  intro message hmem
  cases h with
  | off _ => rw [List.mem_singleton.mp hmem]; exact Bool.false_ne_true
  | still _ => exact absurd hmem List.not_mem_nil
  | waits _ _ _ => exact absurd hmem List.not_mem_nil
  | moves _ hmoves => rw [hmoves.eq_of_mem hmem]; exact Bool.false_ne_true
  | back _ _ hmoves =>
      rcases List.mem_cons.mp hmem with rfl | hmem
      · exact Bool.false_ne_true
      · rw [hmoves.eq_of_mem hmem]
        exact Bool.false_ne_true

namespace Sender

/-- Whatever the policy makes of a report, payload types stay as they are. -/
theorem types_report (s : Sender) (sample : Sample) (now : Nat) :
    (s.report sample now).1.encoder.types = s.encoder.types := by
  -- Of the messages that it sends, none names a type.
  have hnone : (s.policy.report sample now).2.filter Encoder.namesType = [] :=
    List.filter_eq_nil_iff.mpr
      (Policy.Turn.mk s.policy (.report sample now)).meets.not_namesType
  refine (Encoder.types_handleAll_filter _ _ _ rfl).trans ?_
  rw [hnone]
  rfl

theorem sound_step (s : Sender) (hs : s.encoder.Sound) (input : Input) :
    (s.step input).1.encoder.Sound := by
  cases input with
  | frame frame => exact Encoder.sound_step _ hs (.frame frame)
  | control message => exact Encoder.sound_handle _ hs message
  | loss percent now => exact Encoder.sound_handleAll _ hs _
  | report sample now => exact Encoder.sound_handleAll _ hs _

/-- A sender keeps a sound encoder over any run. -/
theorem sound_run (s : Sender) (hs : s.encoder.Sound) (inputs : List Input) :
    (s.run inputs).1.encoder.Sound := by
  induction inputs generalizing s with
  | nil => exact hs
  | cons input inputs ih => exact ih _ (sound_step s hs input)

theorem run_append (s : Sender) (inputs more : List Input) :
    (s.run (inputs ++ more)).1 = ((s.run inputs).1.run more).1 := by
  induction inputs generalizing s with
  | nil => rfl
  | cons input inputs ih => exact ih _

end Sender

end Redundancy

namespace Transmission

/-! ### Events -/

namespace Event

/-- Whether an event is a line in the log and nothing more. -/
def isTold : Event → Bool
  | .told _ => true
  | .offered _ | .lost _ | .sent _ | .reported _ => false

/-- What an event gives the sender. -/
def input : Event → Option Redundancy.Sender.Input
  | .offered frame => some (.frame frame)
  | .reported sample => some (.report sample sample.time)
  | .told _ | .lost _ | .sent _ => none

/-- The report of an event. -/
def report : Event → Option Redundancy.Sample
  | .reported sample => some sample
  | .told _ | .offered _ | .lost _ | .sent _ => none

/-- The datagram of an event, if the network takes it. -/
def datagram (network : Rtp.Frame → Sent) : Event → Option Bytes
  | .sent frame => if (network frame).toBool then some frame.toBytes else none
  | .told _ | .offered _ | .lost _ | .reported _ => none

end Event

/-- The events without the lines that are told. -/
def deeds (events : List Event) : List Event :=
  events.filter fun event => !event.isTold

/-- What the link makes of a packet. -/
def verdict (isLost : Bool) (frame : Rtp.Frame) : Event :=
  if isLost then .lost frame else .sent frame

@[simp]
theorem deeds_append (events more : List Event) :
    deeds (events ++ more) = deeds events ++ deeds more :=
  List.filter_append _ _

@[simp]
theorem deeds_told (lines : List Log.Line) : deeds (lines.map .told) = [] := by
  rw [deeds, List.filter_eq_nil_iff]
  intro event hevent
  rcases List.mem_map.mp hevent with ⟨line, _, rfl⟩
  exact Bool.false_ne_true

theorem filterMap_deeds {α : Type} (f : Event → Option α) (hf : ∀ line, f (.told line) = none)
    (events : List Event) : (deeds events).filterMap f = events.filterMap f := by
  rw [deeds, List.filterMap_filter]
  refine List.filterMap_congr fun event _ => ?_
  cases event with
  | told line => exact (hf line).symm
  | offered _ | lost _ | sent _ | reported _ => rfl

/-- Every datagram is counted. -/
theorem packets_transmitAll (network : Rtp.Frame → Sent) (t : Transmitter) (events : List Event) :
    (transmitAll network t events).1.packets
      = t.packets + (events.filterMap (Event.datagram network)).length := by
  induction events generalizing t with
  | nil => rfl
  | cons event events ih =>
      rw [transmitAll]
      dsimp only
      rw [ih]
      cases event with
      -- Only a packet that is sent can become a datagram, if the network takes it.
      | sent frame =>
          simp only [transmit, List.filterMap_cons, Event.datagram]
          cases network frame with
          | ok bytes => exact (Nat.add_right_comm _ _ _)
          | error reason => rfl
      | told _ | offered _ | lost _ | reported _ => rfl

namespace Stream

variable {σ : Type} (encoder : SpeechEncoder σ) (s : Stream σ)

/-! ### One frame -/

theorem deeds_dispatch (frame : Rtp.Frame) :
    deeds (s.dispatch frame).2 = [verdict s.link.transmit.2 frame] := by
  rw [dispatch]
  dsimp only
  cases s.link.transmit.2 <;> rfl

/-- The sender is given the frame, and the link what the sender gives back. A frame that the
    sender drops does not come to the link, and counts for nothing there. -/
theorem deeds_offer (frame : Rtp.Frame) :
    deeds (s.offer frame).2 = .offered frame
      :: ((s.sender.send frame).2.frame.map (verdict s.link.transmit.2)).toList := by
  rw [offer]
  dsimp only
  -- A frame that the sender drops does not come to the link.
  cases (s.sender.send frame).2.frame with
  | none =>
      change .offered frame :: deeds _ = _
      rw [deeds_told]
      rfl
  | some packet =>
      change .offered frame :: deeds (_ ++ _) = _
      rw [deeds_append, deeds_told, deeds_dispatch]
      rfl

theorem sender_offer (frame : Rtp.Frame) :
    (s.offer frame).1.sender = (s.sender.send frame).1 := by
  rw [offer]
  dsimp only
  cases (s.sender.send frame).2.frame <;> rfl

/-- If the sender gives a packet back, the link moves on by one packet. -/
theorem offer_of_frame {frame packet : Rtp.Frame}
    (h : (s.sender.send frame).2.frame = some packet) :
    (s.offer frame).1
      = { s with sender := (s.sender.send frame).1, link := s.link.transmit.1 } := by
  rw [offer]
  dsimp only
  rw [h]
  rfl

/-- A report is given with the counters of the link. Whatever the sender answers is a line
    in the log. -/
theorem deeds_giveReport :
    deeds (s.giveReport encoder).2 = [.reported (s.link.report s.elapsed)] := by
  rw [giveReport]
  dsimp only
  change _ :: deeds (_ ++ _) = _
  rw [deeds_append, deeds_told]
  split <;> rfl

theorem given_offer (frame : Rtp.Frame) :
    (s.offer frame).2.filterMap Event.input = [.frame frame] := by
  rw [← filterMap_deeds _ (fun _ => rfl), deeds_offer]
  cases (s.sender.send frame).2.frame with
  | none => rfl
  | some packet => cases s.link.transmit.2 <;> rfl

/-- A deadline gives the sender a report, if it has passed. -/
theorem sender_reportIfDue :
    (s.reportIfDue encoder).1.sender
      = (s.sender.run ((s.reportIfDue encoder).2.filterMap Event.input)).1 := by
  rw [reportIfDue]
  split_ifs
  · rw [← filterMap_deeds _ (fun _ => rfl), deeds_giveReport]
    rfl
  · rfl

/-- The events of a frame say what the sender was given. -/
theorem sender_step (audio : Audio.Pcm) :
    (s.step encoder audio).1.sender
      = (s.sender.run ((s.step encoder audio).2.filterMap Event.input)).1 := by
  rw [step]
  dsimp only
  rw [List.filterMap_append, given_offer, Redundancy.Sender.run_append, sender_reportIfDue,
    sender_offer]
  rfl

/-- The last frame is taken by the stream that the others leave behind. -/
theorem run_concat (frames : List Audio.Pcm) (audio : Audio.Pcm) :
    s.run encoder (frames ++ [audio])
      = (((s.run encoder frames).1.step encoder audio).1,
          (s.run encoder frames).2 ++ ((s.run encoder frames).1.step encoder audio).2) := by
  induction frames generalizing s with
  | nil => exact Prod.ext rfl (List.append_nil _)
  | cons first frames ih =>
      rw [List.cons_append, run, run]
      dsimp only
      rw [ih]
      exact Prod.ext rfl (List.append_assoc _ _ _).symm

/-- The sender behind several frames is the one that takes the inputs which their events
    tell of. So what is proved of a run of the sender holds along the events. -/
theorem sender_run (frames : List Audio.Pcm) :
    (s.run encoder frames).1.sender
      = (s.sender.run ((s.run encoder frames).2.filterMap Event.input)).1 := by
  induction frames using List.reverseRecOn with
  | nil => rfl
  | append_singleton frames audio ih =>
      rw [run_concat]
      dsimp only
      rw [sender_step, ih, List.filterMap_append, Redundancy.Sender.run_append]

end Stream

end Transmission

end RedundantAudio
