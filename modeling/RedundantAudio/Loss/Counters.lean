import RedundantAudio.Decimal.Binary

/-!
# Loss Counters

What a receiver knows about one stream: how many packets it should have seen,
how many of them are lost, and how many of the lost ones were made good. A
packet is made good either by a redundant block that repeats it or by the
in-band correction data of the packet behind it.

The counters are natural numbers, and none of them is final. What is missing
now may turn up later, and then the packet is taken off the losses again and
off the recoveries as well. Taking off stops at zero.

## Main definitions

* `Counters`: The four counters.
* `Counters.unrecovered`: Losses that nothing made good.
* `Counters.lossPercent`, `Counters.recoveryPercent`: The shares they stand
  for.
* `Report`: The counters of one stream.
-/

namespace RedundantAudio

namespace Loss

/-- Losses and recoveries of one stream. -/
structure Counters where
  /-- Packets that did not arrive. -/
  lost : Nat := 0
  /-- Packets that should have arrived. -/
  expected : Nat := 0
  /-- Lost packets repeated by a redundant block. -/
  recoveredRed : Nat := 0
  /-- Lost packets recoverable from the packet behind them. -/
  recoveredFec : Nat := 0
  deriving DecidableEq, Repr

namespace Counters

/-- Losses that neither mechanism made good. -/
def unrecovered (c : Counters) : Nat :=
  c.lost - (c.recoveredRed + c.recoveredFec)

/-- The share of the expected packets that did not arrive, in percent. -/
def lossPercent (c : Counters) : Float :=
  if c.expected = 0 then 0
  else Decimal.ofNat c.lost * 100 / Decimal.ofNat c.expected

/-- The share of the lost packets that were made good, in percent. More
    recoveries than losses count as all losses. -/
def recoveryPercent (c : Counters) : Float :=
  if c.lost = 0 then 0
  else Decimal.ofNat (min (c.recoveredRed + c.recoveredFec) c.lost) * 100 / Decimal.ofNat c.lost

end Counters

/-- The counters of one stream at one moment. -/
structure Report where
  /-- The stream. -/
  ssrc : UInt32
  /-- Its counters. -/
  counters : Counters
  deriving DecidableEq, Repr

end Loss

end RedundantAudio
