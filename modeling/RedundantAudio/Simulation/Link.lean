import RedundantAudio.Redundancy.Policy
import RedundantAudio.Simulation.Generator

/-!
# A Link that Loses Packets

Stands in for the network between a sender and a receiver, so that the
redundancy policy has something to react to. Each packet is lost with the
same probability, and the link keeps the cumulative counters that a receiver
report would carry.

## Main definitions

* `Link`: The state of a link.
* `Link.transmit`: Sends a packet over it.
* `Link.report`: The receiver report as of some time.
-/

namespace RedundantAudio

namespace Simulation

/-- The probability that a percentage stands for. One out of range counts as
    the nearest one in range, and what is not a number as zero. -/
def lossProbability (percent : Float) : Float :=
  if percent.isNaN then 0
  else if percent < 0 then 0
  else if percent > 100 then 1
  else percent / 100

/-- The state of a link. -/
structure Link where
  /-- Where the draws come from. -/
  generator : Generator
  /-- The probability that a packet is lost. -/
  probability : Float
  /-- Packets sent. -/
  sent : Nat := 0
  /-- Packets of those lost. -/
  lost : Nat := 0

namespace Link

/-- A link that loses the given percentage of its packets. -/
def ofPercent (percent : Float) (generator : Generator) : Link where
  generator := generator
  probability := lossProbability percent

/-- Changes how much the link loses. -/
def setPercent (l : Link) (percent : Float) : Link :=
  { l with probability := lossProbability percent }

/-- Sends a packet, and tells whether it is lost. -/
def transmit (l : Link) : Link × Bool :=
  let (generator, isLost) := l.generator.happens l.probability
  ({ l with
      generator
      sent := l.sent + 1
      lost := if isLost then l.lost + 1 else l.lost }, isLost)

/-- Sends several packets, and tells of each whether it is lost. -/
def transmitAll : Nat → Link → Link × List Bool
  | 0, l => (l, [])
  | n + 1, l =>
    let (l, isLost) := l.transmit
    let (l, rest) := transmitAll n l
    (l, isLost :: rest)

/-- The receiver report as of some time. -/
def report (l : Link) (time : Nat) : Redundancy.Sample where
  time := time
  sent := l.sent
  lost := l.lost

end Link

end Simulation

end RedundantAudio
