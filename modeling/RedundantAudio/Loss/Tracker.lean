import RedundantAudio.Log
import RedundantAudio.Loss.Counters
import RedundantAudio.Loss.Window
import RedundantAudio.Red.Block

/-!
# Loss and Recovery Accounting

A loss is a gap in the sequence numbers of primary encodings. It counts as
recovered by redundancy when a later packet repeats the missing encoding, and
by in-band correction when the packet behind it carries correction data. Both
are guesses about a primary that is still on its way for all anyone knows:
when it does arrive, its loss is struck out and with it the recovery it was
credited with.

Sequence numbers and media times both wrap, so nothing here compares them
directly. A sequence number is placed relative to the newest one by the
signed distance between the two, and a media time is only ever tested for
membership in one of three rings: primaries seen, times credited to
redundancy, and times credited to correction data.

Each operation changes the tracker in one way only, and `countBlock` says
which operations one block of a packet amounts to. Blocks are handled newest
first, because the primary of a packet has to be on record before its own
redundant blocks are judged.

## Main definitions

* `TrackerConfig`: The tuning of a tracker.
* `Tracker`: Counters and rings of one stream.
* `sequenceDistance`: How far one sequence number is ahead of another.
* `Tracker.countPrimary`, `Tracker.creditRed`, `Tracker.creditFec`: The
  operations on a tracker.
* `Tracker.countPacket`: Accounts for one received packet.
* `Tracker.report`: The periodic report, on the media clock.
-/

namespace RedundantAudio

namespace Loss

/-- The tuning of a tracker. -/
structure TrackerConfig where
  /-- How far the order of arrival may stray: primaries that lag by more do not
      count at all. -/
  maxOutOfOrderDistance : UInt16 := 16
  /-- The capacity of each ring. -/
  windowSize : Nat := 21
  /-- Media time from one report to the next, in samples. -/
  reportInterval : UInt32 := 240000
  /-- Media time from one packet to the next, in samples. -/
  packetizationTime : UInt32 := Red.packetInterval
  deriving DecidableEq, Repr

/-- Counters and rings of one stream. -/
structure Tracker where
  /-- The tuning. -/
  config : TrackerConfig
  /-- The counters. -/
  counters : Counters
  /-- The newest sequence number of a primary, once there is one. -/
  newest : Option UInt16
  /-- The times of primaries seen. -/
  primaries : Window
  /-- The times credited to redundant blocks. -/
  redCredits : Window
  /-- The times credited to correction data. -/
  fecCredits : Window
  /-- The media time of the last report, once there is one. -/
  lastReport : Option UInt32
  deriving DecidableEq, Repr

/-- How far a sequence number is ahead of another one, from -32768 to 32767.
    Half the range counts as behind. -/
def sequenceDistance (sequence newest : UInt16) : Int :=
  let forward := (sequence - newest).toNat
  if forward < 32768 then forward else (forward : Int) - 65536

namespace Tracker

/-- A tracker that has seen nothing. -/
def ofConfig (config : TrackerConfig) : Tracker where
  config := config
  counters := {}
  newest := none
  primaries := .empty config.windowSize
  redCredits := .empty config.windowSize
  fecCredits := .empty config.windowSize
  lastReport := none

/-- How far behind the newest primary a sequence number is, when that is too
    far for it to be accounted for. -/
def tooFarBehind (t : Tracker) (sequence : UInt16) : Option Nat :=
  match t.newest with
  | none => none
  | some newest =>
    let distance := sequenceDistance sequence newest
    if distance < -(t.config.maxOutOfOrderDistance.toNat : Int) then some distance.natAbs
    else none

/-- Whether a primary with this sequence number is accounted for. -/
def accepts (t : Tracker) (sequence : UInt16) : Bool :=
  (t.tooFarBehind sequence).isNone

/-- Takes back the credits for a media time, whichever there are. -/
def takeBackCredits (t : Tracker) (timestamp : UInt32) : Tracker :=
  let t :=
    if t.redCredits.contains timestamp then
      { t with
        counters.recoveredRed := t.counters.recoveredRed - 1
        redCredits := t.redCredits.remove timestamp }
    else t
  if t.fecCredits.contains timestamp then
    { t with
      counters.recoveredFec := t.counters.recoveredFec - 1
      fecCredits := t.fecCredits.remove timestamp }
  else t

/-- The first primary of a stream. -/
def countFirst (t : Tracker) (sequence : UInt16) (timestamp : UInt32) : Tracker :=
  { t with
    counters.expected := 1
    newest := some sequence
    primaries := t.primaries.add timestamp }

/-- A primary that is some packets ahead of the newest one. All packets
    between the two are lost. -/
def countAhead (t : Tracker) (sequence : UInt16) (timestamp : UInt32) (distance : Nat) :
    Tracker :=
  { t with
    counters.lost := t.counters.lost + (distance - 1)
    counters.expected := t.counters.expected + distance
    newest := some sequence
    primaries := t.primaries.add timestamp }

/-- A primary from behind the newest one. Unless it is already on record, it
    takes back one loss and the credits for it. -/
def countLate (t : Tracker) (timestamp : UInt32) : Tracker :=
  if t.primaries.contains timestamp then t
  else
    { t with
      counters.lost := t.counters.lost - 1
      primaries := t.primaries.add timestamp }.takeBackCredits timestamp

/-- Accounts for a primary encoding. One that lags behind by too much
    changes nothing. -/
def countPrimary (t : Tracker) (sequence : UInt16) (timestamp : UInt32) : Tracker :=
  match t.newest with
  | none => t.countFirst sequence timestamp
  | some newest =>
    let distance := sequenceDistance sequence newest
    if !t.accepts sequence then t
    else if distance < 0 then t.countLate timestamp
    else if distance = 0 then t
    else t.countAhead sequence timestamp distance.toNat

/-- Credits a redundant block, unless nothing is lost or its encoding has
    arrived by itself. The credit replaces one to correction data. -/
def creditRed (t : Tracker) (timestamp : UInt32) : Tracker :=
  if t.counters.lost = 0 || t.primaries.contains timestamp then t
  else
    let t :=
      if t.redCredits.contains timestamp then t
      else
        { t with
          counters.recoveredRed := t.counters.recoveredRed + 1
          redCredits := t.redCredits.add timestamp }
    if t.fecCredits.contains timestamp then
      { t with
        counters.recoveredFec := t.counters.recoveredFec - 1
        fecCredits := t.fecCredits.remove timestamp }
    else t

/-- Credits the correction data of an encoding to the packet before it, unless
    nothing is lost, that packet has arrived or it is credited already. -/
def creditFec (t : Tracker) (timestamp : UInt32) : Tracker :=
  let before := timestamp - t.config.packetizationTime
  if t.counters.lost = 0 || t.primaries.contains before || t.redCredits.contains before
      || t.fecCredits.contains before then t
  else
    { t with
      counters.recoveredFec := t.counters.recoveredFec + 1
      fecCredits := t.fecCredits.add before }

/-- Accounts for one block of a packet. The primary of a packet that is too
    far behind is passed over with its correction data. -/
def countBlock (t : Tracker) (sequence : UInt16) (block : Red.Block) : Tracker :=
  if block.isLast && !t.accepts sequence then t
  else
    let t :=
      if block.isLast then t.countPrimary sequence block.timestamp
      else t.creditRed block.timestamp
    if block.hasFec then t.creditFec block.timestamp else t

/-- Accounts for all blocks of a packet, which come oldest first and are
    handled newest first. -/
def countPacket (t : Tracker) (sequence : UInt16) (blocks : List Red.Block) : Tracker :=
  blocks.reverse.foldl (fun t block => t.countBlock sequence block) t

/-- What a tracker tells about a primary that it is given. -/
def primaryLog (t : Tracker) (sequence : UInt16) : List Log.Line :=
  match t.tooFarBehind sequence with
  | none => []
  | some behind =>
    [⟨.debug, .receiverTracker, s!"ignoring primary seq={sequence} ({behind} behind)"⟩]

/-- What a tracker tells while it accounts for blocks, newest first. -/
def blocksLog (sequence : UInt16) : Tracker → List Red.Block → List Log.Line
  | _, [] => []
  | t, block :: blocks =>
    (if block.isLast then t.primaryLog sequence else [])
      ++ blocksLog sequence (t.countBlock sequence block) blocks

/-- What a tracker tells while it accounts for the blocks of a packet. -/
def packetLog (t : Tracker) (sequence : UInt16) (blocks : List Red.Block) : List Log.Line :=
  blocksLog sequence t blocks.reverse

/-- The counters as they stand. -/
def snapshot (t : Tracker) (ssrc : UInt32) : Report :=
  { ssrc, counters := t.counters }

/-- Whether a report is due at a media time: the first time of all, and then
    whenever a report interval has passed. -/
def reportDue (t : Tracker) (timestamp : UInt32) : Bool :=
  match t.lastReport with
  | none => true
  | some last => timestamp - last ≥ t.config.reportInterval

/-- Closes a report interval, if it is over, and reports. -/
def report (t : Tracker) (timestamp ssrc : UInt32) : Tracker × Option Report :=
  if t.reportDue timestamp then
    ({ t with lastReport := some timestamp }, some (t.snapshot ssrc))
  else (t, none)

end Tracker

end Loss

end RedundantAudio
