import RedundantAudio.Decimal.Text
import RedundantAudio.Message.Telemetry
import RedundantAudio.Reception.Recording

/-!
# Listening to a Stream

A receiver with playout behind it. A frame that the receiver lets through is
counted and played, and a report that it closes is told to the host as
telemetry. A frame that the receiver drops reaches nothing but a counter.

From time to time a host sums up in one line what came in and how well losses
were made good. The rate in that line is the only thing that depends on the
wall clock, which is given in nanoseconds.

## Main definitions

* `Tally`: How many frames came in.
* `Listener`: A receiver with playout behind it.
* `Listener.play`: Takes a frame apart and plays it.
* `Listener.handle`: Takes a frame.
* `Listener.summary`: The line that sums up.
-/

namespace RedundantAudio

namespace Reception

/-- How many frames came in. -/
structure Tally where
  /-- Frames that the receiver let through. -/
  received : Nat := 0
  /-- Frames of those with blocks. -/
  redundant : Nat := 0
  /-- Frames that the receiver dropped. -/
  dropped : Nat := 0
  deriving DecidableEq, Repr

/-- Counts a frame by what the receiver made of it. -/
def Tally.count (t : Tally) : Option Received → Tally
  | none => { t with dropped := t.dropped + 1 }
  | some received =>
    { t with
      received := t.received + 1
      redundant := if received.blocks.isEmpty then t.redundant else t.redundant + 1 }

/-- A receiver with playout behind it. -/
structure Listener where
  /-- The receiver. -/
  receiver : Receiver
  /-- The queue of slots. -/
  playout : Playout
  /-- How many frames came in. -/
  tally : Tally := {}
  /-- The counters of playout. -/
  stats : PlayoutStats := {}
  deriving DecidableEq, Repr

/-- What came of a frame. -/
structure Handled where
  /-- What happened during playout. -/
  events : List Event := []
  /-- The report of the stream, if the frame closed a report interval. -/
  report : Option Loss.Report := none
  deriving DecidableEq, Repr

namespace Listener

/-- Takes a frame apart and plays it, if the receiver lets it through. -/
def play (l : Listener) (frame : Rtp.Frame) : Listener × Option Received × List Event :=
  let (receiver, received) := l.receiver.receive frame
  match received with
  | none => ({ l with receiver }, none, [])
  | some r =>
    let (playout, events) := l.playout.push r
    ({ l with receiver, playout, stats := l.stats.afterAll events }, some r, events)

/-- Takes a frame: plays it and counts it. -/
def handle (l : Listener) (frame : Rtp.Frame) : Listener × Handled :=
  let (next, received, events) := l.play frame
  ({ next with tally := l.tally.count received },
    { events, report := received.bind (·.report) })

/-- Plays every slot that is pending. -/
def flush (l : Listener) : Listener × Handled :=
  let (playout, events) := l.playout.flush
  ({ l with playout, stats := l.stats.afterAll events }, { events })

/-- What a listener takes. -/
inductive Input
  | frame (frame : Rtp.Frame)
  | flush
  deriving DecidableEq, Repr

/-- Takes a frame, or plays every slot that is pending. -/
def step (l : Listener) : Input → Listener × Handled
  | .frame frame => l.handle frame
  | .flush => l.flush

/-- What came of a run of inputs, and the listener behind it. -/
def run (l : Listener) : List Input → Listener × List Handled
  | [] => (l, [])
  | input :: inputs =>
    let (l, handled) := l.step input
    let (l, rest) := l.run inputs
    (l, handled :: rest)

/-! ### What a listener tells -/

/-- What is told about events, up to the point where recording fails. -/
def eventsLog (recording : Recording) (events : List Event) : List Log.Line :=
  (recording.heard events).flatMap Event.log

/-- The telemetry about a report. -/
def reportLine (report : Loss.Report) : Log.Line :=
  ⟨.info, .receiver, (Telemetry.lossReport report).toText⟩

/-- What is told about a frame that is played. -/
def playLog (l : Listener) (recording : Recording) (frame : Rtp.Frame) : List Log.Line :=
  l.receiver.receiveLog frame ++ eventsLog recording (l.play frame).2.2

/-- What is told about a frame. A failing recording cuts the report off. -/
def log (l : Listener) (recording : Recording) (frame : Rtp.Frame) : List Log.Line :=
  let (_, handled) := l.handle frame
  l.playLog recording frame ++
    match recording.write handled.events with
    | .ok _ => (handled.report.map reportLine).toList
    | .error _ => []

/-- Counts a frame: first what the receiver makes of it, then what is
    played. -/
def count (l : Listener) (m : Metrics) (frame : Rtp.Frame) : Metrics :=
  (l.handle frame).2.events.foldl Event.count (l.receiver.count m frame)

/-! ### Summing up -/

/-- A number of nanoseconds in seconds. -/
def seconds (elapsed : Nat) : Float :=
  Decimal.ofNat (elapsed / 1000000000) + Decimal.ofNat (elapsed % 1000000000) / 1e9

/-- Frames per second over some nanoseconds. -/
def rate (t : Tally) (elapsed : Nat) : Float :=
  if elapsed = 0 then 0 else Decimal.ofNat t.received / seconds elapsed

/-- The line that sums up, some nanoseconds after the start. -/
def summary (l : Listener) (elapsed : Nat) : Log.Line :=
  let frames := l.tally.received
  let perSecond := Decimal.fixed 2 (rate l.tally elapsed)
  let redundant := l.tally.redundant
  let dropped := l.tally.dropped
  let loss := Decimal.fixed 2 l.receiver.counters.lossPercent
  let recovered := Decimal.fixed 2 l.receiver.counters.recoveryPercent
  let red := l.stats.concealedRed
  let fec := l.stats.concealedFec
  let plc := l.stats.concealedPlc
  let late := l.stats.late
  ⟨.info, .receiverStats,
    s!"RX Stats: {frames} frames ({perSecond} f/s, {redundant} RED, {dropped} dropped), "
      ++ s!"{loss}% loss, {recovered}% recovered, "
      ++ s!"concealed red={red} fec={fec} plc={plc}, {late} late"⟩

end Listener

end Reception

end RedundantAudio
