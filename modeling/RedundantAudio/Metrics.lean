import RedundantAudio.Loss.Counters

/-!
# Metrics

What a process counts about itself while it runs. Counters only grow, gauges
hold the last value given to them, and histograms sort observations into
buckets. A step of the library does not hold on to a registry; it says how it
changes one, and a host that keeps no metrics simply does not ask.

Observations are natural numbers, bytes or nanoseconds, so a sum of them is
exact. Gauges are signed words, and a larger number wraps when it is put into
one.

## Main definitions

* `Histogram`: Observations sorted into buckets.
* `Metrics`: All counters, gauges and histograms of a process.
-/

namespace RedundantAudio

/-- Observations sorted into buckets. -/
structure Histogram where
  /-- The largest observation that each bucket takes. -/
  bounds : List Nat
  /-- How many observations each bucket took. -/
  buckets : List Nat
  /-- The sum of all observations. -/
  sum : Nat := 0
  /-- The number of all observations. -/
  count : Nat := 0
  deriving DecidableEq, Repr

namespace Histogram

/-- A histogram without observations. -/
def empty (bounds : List Nat) : Histogram :=
  { bounds, buckets := bounds.map fun _ => 0 }

/-- Counts one observation in the first bucket that takes it. -/
def bump (value : Nat) : List Nat → List Nat → List Nat
  | bound :: bounds, n :: ns =>
    if value ≤ bound then (n + 1) :: ns else n :: bump value bounds ns
  | _, ns => ns

/-- Takes an observation. One that is too large for every bucket still counts
    in the totals. -/
def observe (h : Histogram) (value : Nat) : Histogram :=
  { h with
    buckets := bump value h.bounds h.buckets
    sum := h.sum + value
    count := h.count + 1 }

/-- The bucket bounds of payload sizes, in bytes. -/
def payloadBounds : List Nat :=
  [50, 100, 200, 400, 600, 800, 1000]

/-- The bucket bounds of durations, in nanoseconds. -/
def durationBounds : List Nat :=
  [5, 10, 25, 50, 100, 250, 500, 1000, 2500, 5000, 10000].map (· * 1000000)

end Histogram

/-- All counters, gauges and histograms of a process. -/
structure Metrics where
  /-- Frames rewritten into redundant packets. -/
  redFramesEncoded : Nat := 0
  /-- Frames forwarded as they came. -/
  passthroughFrames : Nat := 0
  /-- Redundant encodings attached to packets. -/
  redundantBlocksSent : Nat := 0
  /-- Frames too large to send. -/
  oversizeFramesDropped : Nat := 0
  /-- Redundant encodings per packet. -/
  redundancyLevel : Int64 := 0
  /-- One while redundancy is on. -/
  redundancyEnabled : Int64 := 0
  /-- Redundant packets taken apart. -/
  redFramesReceived : Nat := 0
  /-- Redundant packets that could not be taken apart. -/
  malformedRedFrames : Nat := 0
  /-- Losses in the last report. -/
  packetsLost : Int64 := 0
  /-- Packets expected in the last report. -/
  packetsExpected : Int64 := 0
  /-- Recoveries by redundant blocks in the last report. -/
  packetsRecoveredRed : Int64 := 0
  /-- Recoveries by correction data in the last report. -/
  packetsRecoveredFec : Int64 := 0
  /-- Missing slots played from a redundant block. -/
  concealedRed : Nat := 0
  /-- Missing slots played from correction data. -/
  concealedFec : Nat := 0
  /-- Missing slots that were concealed. -/
  concealedPlc : Nat := 0
  /-- Packets put on the network. -/
  packetsSent : Nat := 0
  /-- Packets taken from the network. -/
  packetsReceived : Nat := 0
  /-- Bytes put on the network. -/
  bytesSent : Nat := 0
  /-- Bytes taken from the network. -/
  bytesReceived : Nat := 0
  /-- Sizes of redundant payloads, in bytes. -/
  redPayload : Histogram := .empty Histogram.payloadBounds
  /-- Durations of encoding, in nanoseconds. -/
  encodeTime : Histogram := .empty Histogram.durationBounds
  /-- Durations of decoding, in nanoseconds. -/
  decodeTime : Histogram := .empty Histogram.durationBounds
  deriving DecidableEq, Repr

namespace Metrics

/-- Puts the counters of a report into the gauges. -/
def observeReport (m : Metrics) (c : Loss.Counters) : Metrics :=
  { m with
    packetsLost := .ofNat c.lost
    packetsExpected := .ofNat c.expected
    packetsRecoveredRed := .ofNat c.recoveredRed
    packetsRecoveredFec := .ofNat c.recoveredFec }

/-- Puts the state of redundancy into the gauges. -/
def showRedundancy (m : Metrics) (enabled : Bool) (level : UInt8) : Metrics :=
  { m with
    redundancyEnabled := if enabled then 1 else 0
    redundancyLevel := .ofNat level.toNat }

/-- Counts one redundant packet built, of so many bytes and blocks. -/
def countEncoded (m : Metrics) (bytes blocks : Nat) : Metrics :=
  { m with
    redFramesEncoded := m.redFramesEncoded + 1
    redundantBlocksSent := m.redundantBlocksSent + blocks
    redPayload := m.redPayload.observe bytes }

/-- Counts one packet put on the network. -/
def countSent (m : Metrics) (bytes : Nat) : Metrics :=
  { m with packetsSent := m.packetsSent + 1, bytesSent := m.bytesSent + bytes }

end Metrics

end RedundantAudio
