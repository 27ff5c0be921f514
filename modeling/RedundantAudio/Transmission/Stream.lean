import RedundantAudio.Audio.Pcm
import RedundantAudio.Redundancy.Sender
import RedundantAudio.Simulation.Link
import RedundantAudio.Transmission.Transmitter

/-!
# Streaming Audio

Audio becomes packets frame by frame: an Opus encoder compresses 20 ms of it,
a sender makes a redundant packet of that, and a simulated link decides
whether the packet is lost. At regular intervals of media time the counters
of the link are given to the sender as a receiver report, so the sender
adapts to the loss that it is subjected to.

A report falls due when media time reaches its deadline, and at most one is
given per frame. With an interval shorter than a frame the deadlines lag
behind and every frame brings a report.

The encoder is whatever implements `SpeechEncoder`: it has a state, turns
frames into packets, and is told how much loss to expect. What happens is a
list of *events* in order. The network enters only when the events are
played to it, and what it answers changes nothing about them.

## Main definitions

* `SpeechEncoder`: What streaming asks of an encoder.
* `silentEncoder`: The simplest encoder there is.
* `StreamConfig`: The settings of a stream.
* `Event`: What happens while a stream runs.
* `Stream.step`: Streams one frame.
* `Stream.run`: Streams several.
* `transmit`: Plays events to a network.
-/

namespace RedundantAudio

namespace Transmission

/-- What streaming asks of an Opus encoder with states of type `σ`. -/
structure SpeechEncoder (σ : Type) where
  /-- Compresses a frame. -/
  encode : σ → Audio.Pcm → σ × Bytes
  /-- Prepares for a percentage of loss. -/
  expectLoss : σ → UInt8 → σ

/-- An encoder that makes silence of everything. -/
def silentEncoder : SpeechEncoder Unit where
  encode := fun codec _ => (codec, Opus.silencePacket)
  expectLoss := fun codec _ => codec

/-- The settings of a stream. -/
structure StreamConfig where
  /-- The identity of the stream. -/
  ssrc : UInt32 := 0
  /-- Wall-clock time from one packet to the next, in milliseconds; zero does
      not wait. -/
  interval : Nat := 20
  /-- The percentage of packets that the link loses. -/
  dropPercent : Float := 0
  /-- The seed of the pattern of losses; without one it is different every
      time. -/
  seed : Option UInt64 := none
  /-- Media time from one receiver report to the next, in milliseconds. -/
  reportInterval : Nat := 1000

/-- The media time of a frame, in milliseconds. -/
def frameMillis : Nat := Opus.frameSamples * 1000 / Audio.sampleRate

/-- What happens while a stream runs. -/
inductive Event
  /-- The sender is given a frame. -/
  | offered (frame : Rtp.Frame)
  /-- Something is told. -/
  | told (line : Log.Line)
  /-- The link loses a packet. -/
  | lost (frame : Rtp.Frame)
  /-- A packet goes to the network. -/
  | sent (frame : Rtp.Frame)
  /-- The sender is given a report. -/
  | reported (sample : Redundancy.Sample)
  deriving DecidableEq, Repr

/-- A stream between two frames. -/
structure Stream (σ : Type) where
  /-- The state of the encoder. -/
  codec : σ
  /-- The sender. -/
  sender : Redundancy.Sender
  /-- The link. -/
  link : Simulation.Link
  /-- The identity of the stream. -/
  ssrc : UInt32
  /-- The sequence number of the next frame. -/
  sequence : UInt16 := 0
  /-- The media time of the next frame, in samples. -/
  timestamp : UInt32 := 0
  /-- The media time that has passed, in milliseconds. -/
  elapsed : Nat := 0
  /-- Media time from one report to the next. -/
  reportInterval : Nat
  /-- When the next report falls due. -/
  nextReport : Nat

namespace Stream

variable {σ : Type}

/-- A stream before its first frame. -/
def start (codec : σ) (sender : Redundancy.Sender) (generator : Simulation.Generator)
    (config : StreamConfig) : Stream σ where
  codec := codec
  sender := sender
  link := .ofPercent config.dropPercent generator
  ssrc := config.ssrc
  reportInterval := config.reportInterval
  nextReport := config.reportInterval

/-- The next frame, given its compressed audio. -/
def frame (s : Stream σ) (payload : Bytes) : Rtp.Frame :=
  .ofParts s.sequence s.timestamp s.ssrc s.sender.encoder.opusType payload

/-- Moves on to the frame after the next. -/
def advance (s : Stream σ) : Stream σ :=
  { s with
    sequence := s.sequence + 1
    timestamp := s.timestamp + .ofNat Opus.frameSamples
    elapsed := s.elapsed + frameMillis }

/-- What is told about a packet that the link loses. -/
def lossLine (frame : Rtp.Frame) : Log.Line :=
  let sequence := frame.sequence
  ⟨.debug, .sender, s!"simulated loss of seq={sequence}"⟩

/-- Sends a packet over the link. -/
def dispatch (s : Stream σ) (frame : Rtp.Frame) : Stream σ × List Event :=
  let (link, isLost) := s.link.transmit
  ({ s with link }, if isLost then [.lost frame, .told (lossLine frame)] else [.sent frame])

/-- Gives the sender a frame and the link what comes of it. -/
def offer (s : Stream σ) (frame : Rtp.Frame) : Stream σ × List Event :=
  let told := (s.sender.log (.frame frame)).map Event.told
  let (sender, outcome) := s.sender.send frame
  let s := { s with sender }
  match outcome.frame with
  | some packet =>
    let (s, events) := s.dispatch packet
    (s, .offered frame :: (told ++ events))
  | none => (s, .offered frame :: told)

/-- What is told about messages that a report brought about. -/
def changeLine (sender : Redundancy.Sender) (messages : List Control) : Log.Line :=
  let level := sender.encoder.activeLevel
  let names := Control.describeAll messages
  ⟨.info, .sender, s!"redundancy now {level} ({names})"⟩

/-- A percentage as a whole number, half of one rounded up. -/
def wholePercent (percent : Float) : UInt8 :=
  percent.round.toUInt8

/-- Gives the sender a report, and tells the encoder what loss to expect. -/
def giveReport (encoder : SpeechEncoder σ) (s : Stream σ) : Stream σ × List Event :=
  let sample := s.link.report s.elapsed
  let told := (s.sender.log (.report sample s.elapsed)).map Event.told
  let (sender, messages) := s.sender.report sample s.elapsed
  let change := if messages.isEmpty then [] else [Event.told (changeLine sender messages)]
  ({ s with
      sender
      codec := encoder.expectLoss s.codec (wholePercent sender.policy.windowedLoss)
      nextReport := s.nextReport + s.reportInterval },
    .reported sample :: (told ++ change))

/-- Gives the sender a report, if one is due. -/
def reportIfDue (encoder : SpeechEncoder σ) (s : Stream σ) : Stream σ × List Event :=
  if s.elapsed ≥ s.nextReport then giveReport encoder s else (s, [])

/-- Streams one frame of audio. -/
def step (encoder : SpeechEncoder σ) (s : Stream σ) (audio : Audio.Pcm) : Stream σ × List Event :=
  let (codec, payload) := encoder.encode s.codec audio
  let (s, offered) := { s.advance with codec }.offer (s.frame payload)
  let (s, reported) := s.reportIfDue encoder
  (s, offered ++ reported)

/-- Streams several frames of audio. -/
def run (encoder : SpeechEncoder σ) (s : Stream σ) : List Audio.Pcm → Stream σ × List Event
  | [] => (s, [])
  | audio :: rest =>
    let (s, events) := s.step encoder audio
    let (s, later) := s.run encoder rest
    (s, events ++ later)

end Stream

/-! ### What a stream counts -/

/-- A sender and the metrics so far. Both follow from the events alone, since
    these say what the sender was given. -/
structure Counted where
  /-- The sender. -/
  sender : Redundancy.Sender
  /-- The metrics. -/
  metrics : Metrics := {}

/-- Counts an event. How long encoding took is not known here, so it counts as
    no time. -/
def Counted.after (c : Counted) : Event → Counted
  | .offered frame =>
    let m := { c.metrics with encodeTime := c.metrics.encodeTime.observe 0 }
    { sender := (c.sender.send frame).1, metrics := c.sender.count m (.frame frame) }
  | .reported sample =>
    { sender := (c.sender.report sample sample.time).1
      metrics := c.sender.count c.metrics (.report sample sample.time) }
  | .told _ | .lost _ | .sent _ => c

/-! ### The network -/

/-- Plays an event to a network: a packet is sent, and anything told is
    told. -/
def transmit (network : Rtp.Frame → Sent) (t : Transmitter) :
    Event → Transmitter × List Log.Line
  | .sent frame =>
    let sent := network frame
    let t := t.record sent
    (t, t.log frame sent)
  | .told line => (t, [line])
  | .offered _ | .lost _ | .reported _ => (t, [])

/-- Plays several events to a network. -/
def transmitAll (network : Rtp.Frame → Sent) (t : Transmitter) :
    List Event → Transmitter × List Log.Line
  | [] => (t, [])
  | event :: events =>
    let (t, lines) := transmit network t event
    let (t, later) := transmitAll network t events
    (t, lines ++ later)

/-- Counts an event that is played to a network. -/
def Counted.played (network : Rtp.Frame → Sent) (c : Counted) (event : Event) : Counted :=
  match event with
  | .sent frame => { c with metrics := Transmitter.count c.metrics (network frame) }
  | _ => c.after event

/-- What is told at the end of a stream. -/
def streamedLine (frames : Nat) (t : Transmitter) : Log.Line :=
  ⟨.info, .sender,
    s!"Streamed {frames} frames ({t.packets} packets, {t.bytes} bytes on the wire)"⟩

end Transmission

end RedundantAudio
