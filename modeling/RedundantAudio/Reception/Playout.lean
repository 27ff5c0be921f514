import RedundantAudio.Log
import RedundantAudio.Metrics
import RedundantAudio.Opus.Codec
import RedundantAudio.Reception.Receiver

/-!
# Playout and Concealment

Playing lags behind reception by a number of slots, each as long as one packet
interval. The lag is what makes redundancy useful: the block that repeats a
missing encoding comes packets later, and it has to come before the turn of
the slot. Four things can be played in a slot, and the first that there is
will do: its own primary encoding, a redundant block of its media time, the
correction data of the primary in the next slot, and concealment.

The slots form a queue that starts at the media time of the slot to be played
next. A frame from behind that point comes too late and is discarded. A frame
of another stream, or one too far away in either direction, restarts playout:
whatever is pending is played, and the queue begins anew at the frame.

What happens while a frame is filed and slots are played is a list of
*events* in order, and everything a host wants to know is read off that list:
the slots played, the lines to log, the counters, and where in all this the
writing of a file failed. The state keeps only what decides about the
future.

## Main definitions

* `Slot`: What a slot holds before it is played.
* `Played`: A slot that was played.
* `Event`: What happens during playout.
* `Playout`: The queue of slots.
* `Playout.push`: Takes a frame, and plays what is old enough.
* `Playout.flush`: Plays every slot.
* `PlayoutStats`: The counters, read off the events.
-/

namespace RedundantAudio

namespace Reception

/-- The media time of one slot, in samples. -/
def slotSamples : UInt32 := Red.packetInterval

/-- How long to hold slots back, and how long a gap may be. -/
structure PlayoutConfig where
  /-- Slots held back before they are played. -/
  delay : Nat := 3
  /-- The longest gap that is concealed, in slots. -/
  maxConcealed : Nat := 50
  deriving DecidableEq, Repr

/-- What a slot holds before it is played. -/
inductive Slot
  /-- Nothing yet. -/
  | missing
  /-- A redundant encoding. -/
  | redundant (payload : Bytes)
  /-- Its own encoding, and whether that corrects the one before it. -/
  | primary (sequence : UInt16) (payload : Bytes) (hasFec : Bool)
  deriving DecidableEq, Repr

/-- Whether a slot holds its own encoding. -/
def Slot.isPrimary : Slot → Bool
  | primary .. => true
  | _ => false

/-- Where the audio of a slot came from. -/
inductive Origin
  | primary
  | red
  | fec
  | plc
  deriving DecidableEq, Repr

/-- A slot that was played. -/
structure Played where
  /-- Its media time. -/
  timestamp : UInt32
  /-- Where its audio came from. -/
  origin : Origin
  /-- How many samples there were. -/
  samples : Nat
  deriving DecidableEq, Repr

/-- What happens during playout. -/
inductive Event
  /-- Playout begins anew at a frame, so many slots away. -/
  | restarted (ssrc timestamp : UInt32) (distance : Nat) (behind : Bool)
  /-- A frame came too late. -/
  | late (sequence : UInt16) (timestamp : UInt32)
  /-- A frame came twice. -/
  | duplicate (sequence : UInt16) (timestamp : UInt32)
  /-- An encoding cannot be decoded. -/
  | undecodable (sequence : UInt16) (reason : Opus.CodecError)
  /-- A redundant encoding cannot be decoded. -/
  | redundantUnusable (timestamp : UInt32)
  /-- Correction data cannot be decoded. -/
  | fecUnusable (timestamp : UInt32) (reason : Opus.CodecError)
  /-- A slot was played. -/
  | played (slot : Played)
  deriving DecidableEq, Repr

namespace Event

/-- The slot that was played, if one was. -/
def played? : Event → Option Played
  | played slot => some slot
  | _ => none

/-- What is told about an event. -/
def log : Event → List Log.Line
  | restarted ssrc timestamp distance behind =>
    let name := Log.hexWord ssrc
    let side := if behind then "behind" else "ahead of"
    [⟨.info, .receiverPlayout,
      s!"ssrc=0x{name} ts={timestamp} is {distance} frames {side} playout, restarting"⟩]
  | late sequence timestamp =>
    [⟨.debug, .receiverPlayout, s!"seq={sequence} ts={timestamp} behind playout, discarded"⟩]
  | duplicate sequence timestamp =>
    [⟨.debug, .receiverPlayout, s!"seq={sequence} ts={timestamp} duplicate, discarded"⟩]
  | undecodable sequence reason =>
    let text := reason.message
    [⟨.warn, .receiverPlayout, s!"seq={sequence} failed to decode ({text}), concealing"⟩]
  | redundantUnusable timestamp =>
    [⟨.debug, .receiverPlayout, s!"ts={timestamp} redundant block unusable"⟩]
  | fecUnusable timestamp reason =>
    let text := reason.message
    [⟨.debug, .receiverPlayout, s!"ts={timestamp} FEC unusable: {text}"⟩]
  | played _ => []

/-- Counts an event. How long decoding took is not known here, so it counts as
    no time. -/
def count (m : Metrics) : Event → Metrics
  | played slot =>
    let m := match slot.origin with
      | .primary => m
      | .red => { m with concealedRed := m.concealedRed + 1 }
      | .fec => { m with concealedFec := m.concealedFec + 1 }
      | .plc => { m with concealedPlc := m.concealedPlc + 1 }
    { m with decodeTime := m.decodeTime.observe 0 }
  | _ => m

end Event

/-- The counters of playout. -/
structure PlayoutStats where
  /-- Slots played from their own encoding. -/
  decoded : Nat := 0
  /-- Slots played from a redundant encoding. -/
  concealedRed : Nat := 0
  /-- Slots played from correction data. -/
  concealedFec : Nat := 0
  /-- Slots concealed. -/
  concealedPlc : Nat := 0
  /-- Frames that came too late. -/
  late : Nat := 0
  /-- Frames that came twice. -/
  duplicates : Nat := 0
  /-- Times that playout began anew. -/
  resyncs : Nat := 0
  /-- Encodings that could not be decoded. -/
  decodeErrors : Nat := 0
  deriving DecidableEq, Repr

namespace PlayoutStats

/-- Slots played from anything but their own encoding. -/
def concealed (s : PlayoutStats) : Nat :=
  s.concealedRed + s.concealedFec + s.concealedPlc

/-- The counters behind an event. -/
def after (s : PlayoutStats) : Event → PlayoutStats
  | .restarted .. => { s with resyncs := s.resyncs + 1 }
  | .late .. => { s with late := s.late + 1 }
  | .duplicate .. => { s with duplicates := s.duplicates + 1 }
  | .undecodable .. => { s with decodeErrors := s.decodeErrors + 1 }
  | .redundantUnusable _ | .fecUnusable .. => s
  | .played slot =>
    match slot.origin with
    | .primary => { s with decoded := s.decoded + 1 }
    | .red => { s with concealedRed := s.concealedRed + 1 }
    | .fec => { s with concealedFec := s.concealedFec + 1 }
    | .plc => { s with concealedPlc := s.concealedPlc + 1 }

/-- The counters behind a run of events. -/
def afterAll (s : PlayoutStats) (events : List Event) : PlayoutStats :=
  events.foldl after s

end PlayoutStats

/-- The queue of slots. -/
structure Playout where
  /-- How long to hold slots back, and how long a gap may be. -/
  config : PlayoutConfig := {}
  /-- The stream being played. -/
  ssrc : Option UInt32 := none
  /-- The media time of the first slot, once there was a frame. -/
  next : Option UInt32 := none
  /-- The slots that are pending, the next one to play first. -/
  slots : List Slot := []
  deriving DecidableEq, Repr

/-- Where a frame belongs. -/
inductive Placement
  /-- Playout has to begin anew at the frame. -/
  | restart (distance : Nat) (behind : Bool)
  /-- The slot of the frame was played already. -/
  | late
  /-- The slot with this index. -/
  | slot (index : Nat)
  deriving DecidableEq, Repr

namespace Playout

/-- Concealment of a slot that holds nothing, given the slots behind it. -/
def conceal (timestamp : UInt32) (following : List Slot) : List Event :=
  match following with
  | .primary _ payload true :: _ =>
    match Opus.fecSamples payload with
    | .ok n => [.played ⟨timestamp, .fec, n⟩]
    | .error reason =>
      [.fecUnusable timestamp reason, .played ⟨timestamp, .plc, Opus.concealedSamples⟩]
  | _ => [.played ⟨timestamp, .plc, Opus.concealedSamples⟩]

/-- Plays a slot from the first of the four things that there is, given the
    slots behind it. -/
def playSlot (timestamp : UInt32) (slot : Slot) (following : List Slot) : List Event :=
  match slot with
  | .primary sequence payload _ =>
    match Opus.decodedSamples payload with
    | .ok n => [.played ⟨timestamp, .primary, n⟩]
    | .error reason =>
      [.undecodable sequence reason, .played ⟨timestamp, .plc, Opus.concealedSamples⟩]
  | .redundant payload =>
    match Opus.decodedSamples payload with
    | .ok n => [.played ⟨timestamp, .red, n⟩]
    | .error _ => .redundantUnusable timestamp :: conceal timestamp following
  | .missing => conceal timestamp following

/-- Plays so many slots from the front of a queue, or all of them if there are
    fewer. The queue comes with the media time of its first slot. -/
def playFront : Nat → UInt32 → List Slot → UInt32 × List Slot × List Event
  | n + 1, timestamp, slot :: slots =>
    let (next, left, events) := playFront n (timestamp + slotSamples) slots
    (next, left, playSlot timestamp slot slots ++ events)
  | _, timestamp, slots => (timestamp, slots, [])

/-- Plays slots until only so many are left. -/
def drain (p : Playout) (keep : Nat) : Playout × List Event :=
  match p.next with
  | none => (p, [])
  | some timestamp =>
    let (next, slots, events) := playFront (p.slots.length - keep) timestamp p.slots
    ({ p with next := some next, slots }, events)

/-- Plays every slot. -/
def flush (p : Playout) : Playout × List Event :=
  p.drain 0

/-- How far a media time is from another, in whole slots, and whether it is
    behind. Half the range counts as behind. -/
def slotDistance (timestamp base : UInt32) : Nat × Bool :=
  let forward := (timestamp - base).toNat
  if forward < UInt32.size / 2 then (forward / slotSamples.toNat, false)
  else ((UInt32.size - forward) / slotSamples.toNat, true)

/-- Where a frame belongs. -/
def place (p : Playout) (frame : Rtp.Frame) : Placement :=
  let base := p.next.getD frame.timestamp
  let (distance, behind) := slotDistance frame.timestamp base
  let changed := p.ssrc.any (· != frame.ssrc)
  let horizon := max p.slots.length p.config.delay
  if changed || distance > horizon + p.config.maxConcealed then .restart distance behind
  else if behind then .late
  else .slot distance

/-- A queue that reaches at least up to an index. -/
def extend (slots : List Slot) (index : Nat) : List Slot :=
  slots ++ List.replicate (index + 1 - slots.length) .missing

/-- Fills the slots that are still missing from the redundant blocks of a
    frame. The first slot has the given media time. -/
def fill (base : UInt32) (blocks : List Red.Block) (slots : List Slot) : List Slot :=
  (blocks.filter fun b => !b.isLast).foldl (fun slots b =>
    let (index, behind) := slotDistance b.timestamp base
    if !behind && slots[index]? = some .missing then slots.set index (.redundant b.payload)
    else slots) slots

/-- Files a frame into the slot with an index, and its redundant blocks into
    theirs. A slot that holds its own encoding keeps it. -/
def file (p : Playout) (received : Received) (index : Nat) : Playout × List Event :=
  let frame := received.frame
  let slots := extend p.slots index
  let taken := (slots[index]?).any Slot.isPrimary
  let slots :=
    if taken then slots
    else slots.set index
      (.primary frame.sequence received.primaryPayload received.primaryHasFec)
  let slots := fill (p.next.getD frame.timestamp) received.blocks slots
  ({ p with slots }, if taken then [.duplicate frame.sequence frame.timestamp] else [])

/-- Files a frame and plays the slots that are due. -/
def enqueue (p : Playout) (received : Received) (index : Nat) : Playout × List Event :=
  let (p, filed) := p.file received index
  let (p, played) := p.drain p.config.delay
  (p, filed ++ played)

/-- Takes a frame, and plays what is old enough. -/
def push (p : Playout) (received : Received) : Playout × List Event :=
  let frame := received.frame
  let known := { p with ssrc := some frame.ssrc, next := some (p.next.getD frame.timestamp) }
  match p.place frame with
  | .restart distance behind =>
    let (flushed, played) := known.flush
    let (p, enqueued) := { flushed with next := some frame.timestamp }.enqueue received 0
    (p, .restarted frame.ssrc frame.timestamp distance behind :: (played ++ enqueued))
  | .late => (known, [.late frame.sequence frame.timestamp])
  | .slot index => known.enqueue received index

/-- The number of slots pending. -/
def pending (p : Playout) : Nat :=
  p.slots.length

/-- What playout takes. -/
inductive Input
  | push (received : Received)
  | flush
  deriving DecidableEq, Repr

/-- Takes a frame, or plays every slot. -/
def step (p : Playout) : Input → Playout × List Event
  | .push received => p.push received
  | .flush => p.flush

/-- The events of a run, and the queue behind it. -/
def run (p : Playout) : List Input → Playout × List Event
  | [] => (p, [])
  | input :: inputs =>
    let (p, events) := p.step input
    let (p, later) := p.run inputs
    (p, events ++ later)

end Playout

end Reception

end RedundantAudio
