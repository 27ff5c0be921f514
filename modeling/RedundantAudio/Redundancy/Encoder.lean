import RedundantAudio.Message.Control
import RedundantAudio.Metrics
import RedundantAudio.Opus.Speech
import RedundantAudio.Red.Packet
import RedundantAudio.Redundancy.History
import RedundantAudio.Rtp.Frame

/-!
# The Redundancy Encoder

Wraps the encodings of a stream into redundant packets, where each travels
with at most two others that were sent before it.

Those are taken two packets apart, because a loss seldom comes alone: the
packet that carries a copy should not be lost together with the packet that
it copies. When the encoding at that distance is missing, the one before it
serves instead, since its own correction data may cover the gap. Encodings
are added while they fit into the packet, newest first, and stand oldest
first in it.

A frame that is a redundant packet already is unwrapped and wrapped again, so
that two encoders in a row do not nest. A frame of any other type, and one
whose encoding does not fit a redundant packet, goes through untouched,
unless it is too large for the transport altogether.

What becomes of a frame is computed in two steps. `primaryOf` finds the
encoding in it, if there is one; `wrap` turns that into a packet and a new
history. The lines to log and the counters to raise are functions of the same
two, so nothing about them enters into the state.

## Main definitions

* `Encoder`: The state of an encoder.
* `Encoder.selectFrom`: The older encodings that a packet carries.
* `Encoder.wrap`: The packet of a primary encoding.
* `Encoder.send`: What becomes of a frame.
* `Encoder.handle`: Takes a control message.
* `Encoder.step`: Takes a frame or a message.
-/

namespace RedundantAudio

namespace Redundancy

/-- The state of an encoder. It starts on, carrying no redundant encodings. -/
structure Encoder where
  /-- The type of bare Opus frames. -/
  opusType : UInt8 := 0
  /-- The type of redundant packets. -/
  redType : UInt8 := 0
  /-- How many redundant encodings to carry. -/
  level : UInt8 := 0
  /-- Whether to carry any. -/
  enabled : Bool := true
  /-- The recent primaries. -/
  history : History := {}
  deriving DecidableEq, Repr

/-- A redundant packet, with the number of older encodings in it. -/
structure Wrapped where
  /-- The packet. -/
  packet : Bytes
  /-- How many older encodings were handed to it. -/
  blocks : Nat
  deriving DecidableEq, Repr

/-- What became of a frame. -/
inductive Outcome
  /-- It was rewritten into a redundant packet. -/
  | encoded (frame : Rtp.Frame) (blocks : Nat)
  /-- It goes out as it came. -/
  | passed (frame : Rtp.Frame)
  /-- It is too large to go out. -/
  | dropped
  deriving DecidableEq, Repr

/-- The frame to send, if there is one. -/
def Outcome.frame : Outcome → Option Rtp.Frame
  | .encoded frame _ => some frame
  | .passed frame => some frame
  | .dropped => none

namespace Encoder

/-- The media time between two redundant encodings of one packet. -/
def stride : UInt32 := Red.packetInterval * Red.repeatDistance

/-- The entry that serves a candidate time: the one of that time or, failing
    that, of the packet before. -/
def candidateEntry (h : History) (candidate : UInt32) : Option Entry :=
  h.find candidate <|> h.find (candidate - Red.packetInterval)

/-- Up to `count` entries to carry, newest first, from a candidate time
    backwards, as long as each fits into the room that is left. -/
def selectFrom (h : History) (timestamp : UInt32) :
    (count : Nat) → (candidate : UInt32) → (room : Nat) → List Entry
  | 0, _, _ => []
  | count + 1, candidate, room =>
    if timestamp - candidate ≥ Red.offsetBound then []
    else
      match candidateEntry h candidate with
      | none => selectFrom h timestamp count (candidate - stride) room
      | some entry =>
        let needed := Red.headerBytes + entry.payload.length
        if room < needed then []
        else entry :: selectFrom h timestamp count (candidate - stride) (room - needed)

/-- The older encodings that a packet carries, oldest first. -/
def select (e : Encoder) (timestamp : UInt32) (primarySize : Nat) : List Entry :=
  if e.enabled then
    (selectFrom e.history timestamp e.level.toNat (timestamp - stride)
      (Red.payloadLimit - primarySize - Red.primaryHeaderBytes)).reverse
  else []

/-- Whether an encoding can be the primary of a redundant packet. -/
def fits (primary : Bytes) : Bool :=
  !primary.isEmpty && primary.length < Red.payloadLimit

/-- The packet of a primary encoding and the encoder that has recorded it. -/
def wrap (e : Encoder) (timestamp : UInt32) (primary : Bytes) :
    Except Red.Error (Encoder × Wrapped) := do
  let entries := e.select timestamp primary.length
  let redundant := entries.map fun entry => (entry.timestamp, entry.payload)
  let packet ← Red.encode timestamp primary redundant e.opusType
  let history := e.history.update timestamp primary (Opus.isImportant primary)
  return ({ e with history }, ⟨packet, entries.length⟩)

/-- The primary encoding in a frame: the payload of an Opus frame, or the
    primary block of a redundant packet. -/
def primaryOf (e : Encoder) (frame : Rtp.Frame) : Option (Except Red.Error Bytes) :=
  if frame.payloadType = e.opusType then some (.ok frame.payload)
  else if frame.payloadType = e.redType then
    some (Red.primaryPayload frame.timestamp frame.payload e.opusType)
  else none

/-- What becomes of a frame that goes through untouched. -/
def pass (frame : Rtp.Frame) : Outcome :=
  if frame.payload.length > Red.payloadLimit then .dropped else .passed frame

/-- What becomes of a frame, and the encoder behind it. -/
def send (e : Encoder) (frame : Rtp.Frame) : Encoder × Outcome :=
  match e.primaryOf frame with
  | some (.ok primary) =>
    if fits primary then
      match e.wrap frame.timestamp primary with
      | .ok (e', wrapped) =>
        (e', .encoded { frame with payload := wrapped.packet, payloadType := e.redType }
          wrapped.blocks)
      | .error _ => (e, pass frame)
    else (e, pass frame)
  | _ => (e, pass frame)

/-- Takes a control message. Types are cut to 7 bits and the level to what a
    packet may carry. -/
def handle (e : Encoder) : Control → Encoder
  | .opusPayloadType n => { e with opusType := Red.wireType n }
  | .redPayloadType n => { e with redType := Red.wireType n }
  | .redundancyLevel n => { e with level := min n Red.levelLimit }
  | .enable => { e with enabled := true }
  | .disable => { e with enabled := false }

/-- Takes several control messages in order. -/
def handleAll (e : Encoder) (messages : List Control) : Encoder :=
  messages.foldl handle e

/-- How many redundant encodings the packets carry right now. -/
def activeLevel (e : Encoder) : UInt8 :=
  if e.enabled then e.level else 0

/-- What an encoder takes. -/
inductive Input
  | frame (frame : Rtp.Frame)
  | control (message : Control)
  deriving DecidableEq, Repr

/-- Takes a frame or a message. Only a frame has an outcome. -/
def step (e : Encoder) : Input → Encoder × Option Outcome
  | .frame frame =>
    let (e, outcome) := e.send frame
    (e, some outcome)
  | .control message => (e.handle message, none)

/-- The outcomes of a run of frames and messages, and the encoder behind
    it. -/
def run (e : Encoder) : List Input → Encoder × List Outcome
  | [] => (e, [])
  | input :: inputs =>
    let (e, outcome) := e.step input
    let (e, outcomes) := e.run inputs
    (e, outcome.toList ++ outcomes)

/-! ### What the encoder tells -/

/-- A line about the frame of a media time. -/
def frameLine (timestamp : UInt32) (text : String) : Log.Line :=
  ⟨.debug, .senderEncoder, s!"ts={timestamp} {text}"⟩

/-- What is told about a primary encoding. -/
def wrapLog (e : Encoder) (timestamp : UInt32) (primary : Bytes) : List Log.Line :=
  if fits primary then
    match e.wrap timestamp primary with
    | .ok _ => e.history.updateLog timestamp (Opus.isImportant primary)
    | .error error =>
      let reason := error.message
      [frameLine timestamp s!"RED encode failed: {reason}"]
  else
    let size := primary.length
    [frameLine timestamp s!"primary of {size} bytes not RED-encodable"]

/-- What is told about the primary encoding of a frame. -/
def primaryLog (e : Encoder) (frame : Rtp.Frame) : List Log.Line :=
  match e.primaryOf frame with
  | some (.ok primary) => e.wrapLog frame.timestamp primary
  | some (.error error) =>
    let reason := error.message
    [frameLine frame.timestamp s!"not splitting RED frame: {reason}"]
  | none => []

/-- What is told about a frame. -/
def frameLog (e : Encoder) (frame : Rtp.Frame) : List Log.Line :=
  let size := frame.payload.length
  e.primaryLog frame ++
    match (e.send frame).2 with
    | .dropped => [frameLine frame.timestamp s!"dropping {size} byte frame over payload limit"]
    | _ => []

/-- What is told about a message, by the encoder that has taken it. -/
def handledLine (e : Encoder) (message : Control) : Log.Line :=
  let opus := e.opusType
  let red := e.redType
  let level := e.level
  ⟨.info, .senderEncoder,
    match message with
    | .opusPayloadType _ => s!"opus payload type set to {opus}"
    | .redPayloadType _ => s!"red payload type set to {red}"
    | .redundancyLevel _ => s!"updated num redundant encodings to {level}"
    | .enable => "redundancy enabled"
    | .disable => "redundancy disabled"⟩

/-- What is told about an input. -/
def log (e : Encoder) : Input → List Log.Line
  | .frame frame => e.frameLog frame
  | .control message => [(e.handle message).handledLine message]

/-- What is told about several messages. -/
def handleAllLog (e : Encoder) : List Control → List Log.Line
  | [] => []
  | message :: messages =>
    (e.handle message).handledLine message :: (e.handle message).handleAllLog messages

/-! ### What the encoder counts -/

/-- Counts what became of a frame. A dropped frame counts as passed through
    as well. -/
def countOutcome (m : Metrics) : Outcome → Metrics
  | .encoded frame blocks => m.countEncoded frame.payload.length blocks
  | .passed _ => { m with passthroughFrames := m.passthroughFrames + 1 }
  | .dropped =>
    { m with
      passthroughFrames := m.passthroughFrames + 1
      oversizeFramesDropped := m.oversizeFramesDropped + 1 }

/-- Counts a message, by the encoder that has taken it. Only the ones about
    redundancy reach the gauges. -/
def countHandled (e : Encoder) (m : Metrics) : Control → Metrics
  | .redundancyLevel _ | .enable | .disable => m.showRedundancy e.enabled e.level
  | .opusPayloadType _ | .redPayloadType _ => m

/-- Counts an input. -/
def count (e : Encoder) (m : Metrics) : Input → Metrics
  | .frame frame => countOutcome m (e.send frame).2
  | .control message => (e.handle message).countHandled m message

/-- Counts several messages. -/
def countAll (e : Encoder) (m : Metrics) : List Control → Metrics
  | [] => m
  | message :: messages =>
    (e.handle message).countAll ((e.handle message).countHandled m message) messages

end Encoder

end Redundancy

end RedundantAudio
