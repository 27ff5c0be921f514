import RedundantAudio.Log
import RedundantAudio.Metrics
import RedundantAudio.Rtp.Frame

/-!
# Putting Packets on the Network

The counters of a socket that sends. A packet that cannot be sent is told
about and forgotten, because to a stream a packet that never left and one
that got lost on the way are the same.

The network itself is not described. What became of a packet is an argument:
either the number of bytes that were sent or the reason why none were.

## Main definitions

* `Sent`: What became of a packet.
* `Transmitter`: The counters.
* `Transmitter.record`: Counts a packet.
-/

namespace RedundantAudio

namespace Transmission

/-- What became of a packet: so many bytes of it were sent, or none for some
    reason. -/
abbrev Sent := Except String Nat

/-- Packets from one progress line to the next. -/
def progressInterval : Nat := 250

/-- The counters of a socket that sends. -/
structure Transmitter where
  /-- Packets sent. -/
  packets : Nat := 0
  /-- Bytes in them. -/
  bytes : Nat := 0
  deriving DecidableEq, Repr

namespace Transmitter

/-- Counts a packet, if it was sent. -/
def record (t : Transmitter) : Sent → Transmitter
  | .ok bytes => { t with packets := t.packets + 1, bytes := t.bytes + bytes }
  | .error _ => t

/-- What is told about a packet, by the counters that include it. -/
def log (t : Transmitter) (frame : Rtp.Frame) : Sent → List Log.Line
  | .ok _ =>
    if t.packets % progressInterval = 0 then
      let sequence := frame.sequence
      [⟨.debug, .senderNetwork, s!"Sent {t.packets} packets ({t.bytes} bytes) - seq={sequence}"⟩]
    else []
  | .error reason =>
    let sequence := frame.sequence
    [⟨.error, .senderNetwork, s!"Failed to send packet seq={sequence}: {reason}"⟩]

/-- Counts a packet in the metrics. -/
def count (m : Metrics) : Sent → Metrics
  | .ok bytes => if bytes = 0 then m else m.countSent bytes
  | .error _ => m

/-- What is told about a socket that was bound. -/
def boundLine (address : String) : Log.Line :=
  ⟨.debug, .senderNetwork, s!"UDP socket bound to {address}"⟩

end Transmitter

end Transmission

end RedundantAudio
