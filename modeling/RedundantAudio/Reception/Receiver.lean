import RedundantAudio.Loss.Tracker
import RedundantAudio.Message.Control
import RedundantAudio.Metrics
import RedundantAudio.Opus.Speech
import RedundantAudio.Red.Packet
import RedundantAudio.Rtp.Frame

/-!
# The Receiver

Takes redundant packets apart and accounts for them. Each stream, told apart
by its SSRC, has a loss tracker of its own, so one stream never disturbs the
counters of another and a stream that starts over under a new identity starts
from zero.

A frame goes on as it came, with its blocks riding along. Frames of other
types and packets that cannot be taken apart have no blocks and leave no
trace in the accounting. A frame that is too large is dropped, but only after
its blocks, if it has any, were accounted for.

The streams are a list that is kept in increasing order of SSRC, with one
entry for each, so a look-up and a report of all streams are both plain
traversals.

## Main definitions

* `Received`: A frame with its blocks.
* `Streams`: The trackers of all streams.
* `Receiver`: The state of a receiver.
* `Receiver.receive`: Takes a frame.
* `Receiver.handle`: Takes a control message.
-/

namespace RedundantAudio

namespace Reception

/-- A frame that a receiver lets through. -/
structure Received where
  /-- The frame as it came. -/
  frame : Rtp.Frame
  /-- Its blocks, oldest first; none if it is no redundant packet. -/
  blocks : List Red.Block
  /-- The report of its stream, if it is time for one. -/
  report : Option Loss.Report
  deriving DecidableEq, Repr

namespace Received

/-- The Opus packet to decode. -/
def primaryPayload (r : Received) : Bytes :=
  match r.blocks.getLast? with
  | some block => block.payload
  | none => r.frame.payload

/-- Whether that packet corrects the one before it. -/
def primaryHasFec (r : Received) : Bool :=
  match r.blocks.getLast? with
  | some block => block.hasFec
  | none => Opus.hasFec r.frame.payload

/-- The redundant block of a media time, if the frame carries one. -/
def redundantBlock (r : Received) (timestamp : UInt32) : Option Red.Block :=
  r.blocks.find? fun b => !b.isLast && b.timestamp = timestamp

end Received

/-- The trackers of all streams, in increasing order of SSRC. -/
abbrev Streams := List (UInt32 × Loss.Tracker)

namespace Streams

/-- The tracker of a stream. -/
def find (streams : Streams) (ssrc : UInt32) : Option Loss.Tracker :=
  streams.lookup ssrc

/-- Puts a tracker in its place, over an older one of the same stream. -/
def insert (ssrc : UInt32) (tracker : Loss.Tracker) : Streams → Streams
  | [] => [(ssrc, tracker)]
  | (other, t) :: streams =>
    if ssrc < other then (ssrc, tracker) :: (other, t) :: streams
    else if ssrc = other then (ssrc, tracker) :: streams
    else (other, t) :: insert ssrc tracker streams

/-- The reports of all streams. -/
def reports (streams : Streams) : List Loss.Report :=
  streams.map fun (ssrc, tracker) => tracker.snapshot ssrc

end Streams

/-- The state of a receiver. -/
structure Receiver where
  /-- The type of the encodings in redundant packets. -/
  opusType : UInt8
  /-- The type of redundant packets. -/
  redType : UInt8
  /-- The tuning of new trackers. -/
  config : Loss.TrackerConfig
  /-- The trackers. -/
  streams : Streams
  /-- The stream whose accounts changed last. -/
  lastSsrc : Option UInt32
  deriving DecidableEq, Repr

namespace Receiver

/-- A receiver for two payload types that has seen nothing. -/
def new (opusType redType : UInt8) (config : Loss.TrackerConfig) : Receiver where
  opusType := Red.wireType opusType
  redType := Red.wireType redType
  config := config
  streams := []
  lastSsrc := none

/-- Sets both payload types. -/
def setTypes (r : Receiver) (opusType redType : UInt8) : Receiver :=
  { r with opusType := Red.wireType opusType, redType := Red.wireType redType }

/-- Takes a control message. Only the ones about payload types concern a
    receiver. -/
def handle (r : Receiver) : Control → Receiver
  | .opusPayloadType n => r.setTypes n r.redType
  | .redPayloadType n => r.setTypes r.opusType n
  | .redundancyLevel _ | .enable | .disable => r

/-- The tracker of a stream, a new one if it has none. -/
def trackerFor (r : Receiver) (ssrc : UInt32) : Loss.Tracker :=
  (r.streams.find ssrc).getD (.ofConfig r.config)

/-- The counters of the stream whose accounts changed last. -/
def counters (r : Receiver) : Loss.Counters :=
  match r.lastSsrc.bind r.streams.find with
  | some tracker => tracker.counters
  | none => {}

/-- The report of a stream, if it was accounted for. -/
def snapshot (r : Receiver) (ssrc : UInt32) : Option Loss.Report :=
  (r.streams.find ssrc).map (·.snapshot ssrc)

/-- What comes of taking a frame apart, if it is a redundant packet by its
    type. The blocks are told which of them carry correction data. -/
def takeApart (r : Receiver) (frame : Rtp.Frame) : Option (Except Red.Error (List Red.Block)) :=
  if frame.payloadType = r.redType then
    some ((Red.decode frame.timestamp frame.payload r.opusType).map fun blocks =>
      blocks.map fun b => { b with hasFec := Opus.hasFec b.payload })
  else none

/-- The blocks of a frame; none if it is no redundant packet or a malformed
    one. -/
def blocksOf (r : Receiver) (frame : Rtp.Frame) : List Red.Block :=
  match r.takeApart frame with
  | some (.ok blocks) => blocks
  | _ => []

/-- Accounts for the blocks of a frame. The report interval goes by the media
    time of the primary block. -/
def account (r : Receiver) (frame : Rtp.Frame) (blocks : List Red.Block) :
    Receiver × Option Loss.Report :=
  match blocks.getLast? with
  | none => (r, none)
  | some primary =>
    let tracker := (r.trackerFor frame.ssrc).countPacket frame.sequence blocks
    let (tracker, report) := tracker.report primary.timestamp frame.ssrc
    ({ r with
        streams := r.streams.insert frame.ssrc tracker
        lastSsrc := some frame.ssrc }, report)

/-- Whether a frame is too large to go on. -/
def isOversize (frame : Rtp.Frame) : Bool :=
  frame.payload.length > Red.payloadLimit

/-- Takes a frame. Nothing goes on if it is too large. -/
def receive (r : Receiver) (frame : Rtp.Frame) : Receiver × Option Received :=
  let blocks := r.blocksOf frame
  let (r, report) := r.account frame blocks
  (r, if isOversize frame then none else some { frame, blocks, report })

/-! ### What the receiver tells -/

/-- What is told when a stream is accounted for that was not the last one. -/
def accountLog (r : Receiver) (frame : Rtp.Frame) (blocks : List Red.Block) : List Log.Line :=
  let ssrc := Log.hexWord frame.ssrc
  if blocks.isEmpty then []
  else
    (if r.lastSsrc = some frame.ssrc then []
      else [⟨.info, .receiverDepacketizer, s!"accounting RED stream ssrc=0x{ssrc}"⟩])
    ++ (r.trackerFor frame.ssrc).packetLog frame.sequence blocks

/-- What is told about a frame. -/
def receiveLog (r : Receiver) (frame : Rtp.Frame) : List Log.Line :=
  let sequence := frame.sequence
  let timestamp := frame.timestamp
  let size := frame.payload.length
  (match r.takeApart frame with
    | some (.error error) =>
      let reason := error.message
      [⟨.warn, .receiverDepacketizer,
        s!"seq={sequence} ts={timestamp} forwarding malformed RED frame: {reason}"⟩]
    | _ => [])
  ++ r.accountLog frame (r.blocksOf frame)
  ++ (if isOversize frame then
        [⟨.debug, .receiverDepacketizer,
          s!"seq={sequence} dropping {size} byte frame over payload limit"⟩]
      else [])

/-- What is told about payload types that were set. -/
def typesLine (r : Receiver) : Log.Line :=
  let opus := r.opusType
  let red := r.redType
  ⟨.info, .receiverDepacketizer, s!"receiver payload types set to opus={opus} red={red}"⟩

/-- What is told about a message. -/
def handleLog (r : Receiver) (message : Control) : List Log.Line :=
  match message with
  | .opusPayloadType _ | .redPayloadType _ => [(r.handle message).typesLine]
  | .redundancyLevel _ | .enable | .disable =>
    let name := message.describe
    [⟨.debug, .receiverDepacketizer, s!"receiver ignoring {name}"⟩]

/-! ### What the receiver counts -/

/-- Counts a frame. -/
def count (r : Receiver) (m : Metrics) (frame : Rtp.Frame) : Metrics :=
  let m := { m with packetsReceived := m.packetsReceived + 1 }
  let m := match r.takeApart frame with
    | some (.ok _) => { m with redFramesReceived := m.redFramesReceived + 1 }
    | some (.error _) => { m with malformedRedFrames := m.malformedRedFrames + 1 }
    | none => m
  let m := match (r.account frame (r.blocksOf frame)).2 with
    | some report => m.observeReport report.counters
    | none => m
  if isOversize frame then { m with oversizeFramesDropped := m.oversizeFramesDropped + 1 } else m

end Receiver

end Reception

end RedundantAudio
