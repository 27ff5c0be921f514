import RedundantAudio.Reception.Listener

/-!
# Taking Datagrams from the Network

What lies between a socket and a listener. A datagram is cut to the size of
the buffer it is read into, and one that is no RTP packet is counted and goes
no further.

A session takes datagrams one after the other, each with the time of its
arrival, until none has come for a while. It sums up from time to time and
once more at the end. Time is in nanoseconds and starts with the session, so
a session is a function of its arrivals and nothing else.

## Main definitions

* `Intake`: The counters of a socket.
* `Intake.take`: Takes a datagram.
* `SessionConfig`: When to sum up and when to stop.
* `Session`: A listener behind a socket.
* `Session.arrive`: Takes a datagram.
* `Session.stop`: Ends for want of datagrams.
-/

namespace RedundantAudio

namespace Reception

/-- Bytes of a datagram that are read. -/
def maxDatagramBytes : Nat := 2048

/-- Packets from one progress line to the next. -/
def progressInterval : Nat := 250

/-- The counters of a socket. -/
structure Intake where
  /-- Datagrams that were RTP packets. -/
  packets : Nat := 0
  /-- Bytes of all datagrams. -/
  bytes : Nat := 0
  /-- Datagrams that were not. -/
  dropped : Nat := 0
  deriving DecidableEq, Repr

namespace Intake

/-- What is read of a datagram. -/
def read (datagram : Bytes) : Bytes :=
  datagram.take maxDatagramBytes

/-- Takes a datagram. The frame goes on, if there is one. -/
def take (i : Intake) (datagram : Bytes) : Intake × Option Rtp.Frame :=
  let data := read datagram
  let i := { i with bytes := i.bytes + data.length }
  match Rtp.Frame.ofBytes data with
  | .ok frame => ({ i with packets := i.packets + 1 }, some frame)
  | .error _ => ({ i with dropped := i.dropped + 1 }, none)

/-- What is told about a datagram from some address, by the counters that
    include it. -/
def log (i : Intake) (origin : String) (datagram : Bytes) : List Log.Line :=
  match Rtp.Frame.ofBytes (read datagram) with
  | .ok frame =>
    if i.packets % progressInterval = 0 then
      let sequence := frame.sequence
      [⟨.debug, .receiverNetwork,
        s!"Received {i.packets} packets ({i.bytes} bytes, {i.dropped} dropped) "
          ++ s!"from {origin} - seq={sequence}"⟩]
    else []
  | .error error =>
    let reason := error.message
    [⟨.warn, .receiverNetwork, s!"Dropped invalid packet from {origin}: {reason}"⟩]

/-- What is told about a socket that was bound. -/
def boundLine (address : String) : Log.Line :=
  ⟨.info, .receiverNetwork, s!"UDP socket bound to {address}"⟩

/-- What is said about a socket that cannot be bound. -/
def bindFailure (address : String) : String :=
  s!"failed to bind UDP socket to {address}"

end Intake

/-- When to sum up and when to stop, in milliseconds. -/
structure SessionConfig where
  /-- Stop after so long without a datagram; never, if there is no limit. -/
  idleTimeout : Option Nat := none
  /-- The time from one summary to the next. -/
  statsInterval : Nat := 5000
  deriving DecidableEq, Repr

/-- Nanoseconds in a millisecond. -/
def nanosPerMilli : Nat := 1000000

/-- A listener behind a socket. -/
structure Session where
  /-- When to sum up and when to stop. -/
  config : SessionConfig := {}
  /-- The counters of the socket. -/
  intake : Intake := {}
  /-- The listener. -/
  listener : Listener
  /-- The file that records what is played. -/
  recording : Recording := {}
  /-- When it was last summed up. -/
  lastSummary : Nat := 0
  deriving DecidableEq, Repr

/-- What came of one step of a session. -/
structure SessionStep where
  /-- The session behind it. -/
  session : Session
  /-- What was told. -/
  lines : List Log.Line
  /-- The metrics. -/
  metrics : Metrics
  /-- The failure that ends the session, if there is one. -/
  failure : Option RecordingError := none
  deriving DecidableEq, Repr

namespace Session

/-- Whether it is time to sum up. -/
def summaryDue (s : Session) (now : Nat) : Bool :=
  now - s.lastSummary ≥ s.config.statsInterval * nanosPerMilli

/-- Sums up, if it is time to. -/
def sumUp (s : Session) (now : Nat) : Session × List Log.Line :=
  if s.summaryDue now then ({ s with lastSummary := now }, [s.listener.summary now]) else (s, [])

/-- Takes a frame. The bytes that count are those of its plain RTP form. -/
def takeFrame (s : Session) (m : Metrics) (now : Nat) (frame : Rtp.Frame) : SessionStep :=
  let m := { m with bytesReceived := m.bytesReceived + Rtp.headerBytes + frame.payload.length }
  let lines := s.listener.log s.recording frame
  let m := s.listener.count m frame
  let (listener, handled) := s.listener.handle frame
  match s.recording.write handled.events with
  | .error failure =>
    { session := { s with listener }, lines, metrics := m, failure := some failure }
  | .ok recording =>
    let (session, summary) := { s with listener, recording }.sumUp now
    { session, lines := lines ++ summary, metrics := m }

/-- Takes a datagram from some address. -/
def arrive (s : Session) (m : Metrics) (now : Nat) (origin : String) (datagram : Bytes) :
    SessionStep :=
  let (intake, frame) := s.intake.take datagram
  let lines := intake.log origin datagram
  let s := { s with intake }
  match frame with
  | none => { session := s, lines, metrics := m }
  | some frame =>
    let step := s.takeFrame m now frame
    { step with lines := lines ++ step.lines }

/-- A time span in milliseconds, in the largest unit that is not too
    large. -/
def showSpan (millis : Nat) : String :=
  if millis ≥ 1000 then
    let places := (Decimal.padded 3 (millis % 1000)).toList.reverse.dropWhile (· = '0')
    let whole := toString (millis / 1000)
    if places.isEmpty then s!"{whole}s"
    else
      let fraction := String.ofList places.reverse
      s!"{whole}.{fraction}s"
  else if millis = 0 then "0ns"
  else s!"{millis}ms"

/-- What is told when no datagram has come for the idle timeout. -/
def idleLine (millis : Nat) : Log.Line :=
  let span := showSpan millis
  ⟨.info, .receiver, s!"No packets for {span}, stopping"⟩

/-- What is told at the end of a session. -/
def stop (s : Session) (now : Nat) : List Log.Line :=
  (s.config.idleTimeout.map idleLine).toList ++ [s.listener.summary now]

end Session

end Reception

end RedundantAudio
