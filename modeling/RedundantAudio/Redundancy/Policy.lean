import RedundantAudio.Decimal.Text
import RedundantAudio.Log
import RedundantAudio.Message.Control

/-!
# The Redundancy Policy

How many redundant encodings a stream should carry, decided from the loss
that it sees. More loss asks for more encodings, up to the point where the
network is so bad that carrying any would only add to the congestion; there
redundancy is switched off altogether.

The level is raised at once and lowered reluctantly: after any observation
that confirms a level above zero it may not fall for a while. The switch is
reluctant the other way. Once off it stays off for a minimum time, and until
no extreme loss has been seen for a while.

Loss comes either as a percentage or as the cumulative counters of receiver
reports. From reports it is measured over a short and a long window, and the
larger of the two counts, so that a burst is noticed quickly and forgotten
slowly. Only reports that move forward in both time and packets are kept,
which is why the quotient over a window always has a positive denominator.

The clock is an argument, in milliseconds. Differences of times stop at zero,
so a clock that runs backwards is merely a clock that stands still.

## Main definitions

* `PolicyConfig`: The times that govern the policy.
* `Demand`, `demandFor`: What a loss percentage asks for.
* `Sample`: The counters of a receiver report.
* `Policy`: The state of the policy.
* `Policy.observe`: Reacts to a loss percentage.
* `Policy.lossPercent`: The loss over a window of reports.
* `Policy.report`: Reacts to a receiver report.
-/

namespace RedundantAudio

namespace Redundancy

/-- The times that govern the policy, in milliseconds. -/
structure PolicyConfig where
  /-- The window that notices rising loss. -/
  shortWindow : Nat := 5000
  /-- The window that notices falling loss. -/
  longWindow : Nat := 15000
  /-- How long a level may not fall after it was last confirmed. -/
  holdDown : Nat := 300000
  /-- How long redundancy stays off at least. -/
  minOff : Nat := 15000
  /-- How long there must be no extreme loss before it goes on again. -/
  recovery : Nat := 60000
  /-- How many receiver reports are kept. -/
  maxReports : Nat := 20
  deriving DecidableEq, Repr

/-- What a loss percentage asks for. -/
inductive Demand
  /-- So many redundant encodings per packet. -/
  | level (n : UInt8)
  /-- No redundancy at all. -/
  | off
  deriving DecidableEq, Repr

/-- What a loss percentage asks for: none up to 8 %, one up to 18 %, two up
    to 75 %, and off above that. What is not a number counts as extreme. -/
def demandFor (loss : Float) : Demand :=
  if loss ≤ 8 then .level 0
  else if loss ≤ 18 then .level 1
  else if loss ≤ 75 then .level 2
  else .off

/-- The level that a demand comes to; off is zero. -/
def Demand.number : Demand → UInt8
  | .level n => n
  | .off => 0

/-- The cumulative counters of a receiver report. -/
structure Sample where
  /-- When the report was received. -/
  time : Nat
  /-- Packets sent until then. -/
  sent : Nat
  /-- Packets of those lost. -/
  lost : Nat
  deriving DecidableEq, Repr

/-- The state of the policy. -/
structure Policy where
  /-- The times that govern it. -/
  config : PolicyConfig := {}
  /-- Whether redundancy is on. -/
  enabled : Bool := true
  /-- How many redundant encodings to carry while it is. -/
  level : UInt8 := 0
  /-- When the level was last confirmed. -/
  holdDownStart : Nat := 0
  /-- When redundancy was last switched off. -/
  turnedOff : Nat := 0
  /-- When extreme loss was last seen. -/
  lastExtreme : Nat := 0
  /-- The receiver reports kept, oldest first. -/
  reports : List Sample := []
  deriving DecidableEq, Repr

namespace Policy

/-- Confirms the level, unless it is zero. -/
def confirm (p : Policy) (now : Nat) : Policy :=
  if p.level > 0 then { p with holdDownStart := now } else p

/-- Whether a lower level has to wait. -/
def isHeld (p : Policy) (now : Nat) : Bool :=
  now - p.holdDownStart < p.config.holdDown

/-- Moves to the level that is asked for, if it is another one and not held
    back. -/
def moveTo (p : Policy) (level : UInt8) (now : Nat) : Policy × List Control :=
  if level = p.level then (p.confirm now, [])
  else if level < p.level && p.isHeld now then (p, [])
  else ({ p with level }.confirm now, [.redundancyLevel level])

/-- Whether redundancy has to stay off. -/
def staysOff (p : Policy) (now : Nat) : Bool :=
  now - p.turnedOff < p.config.minOff || now - p.lastExtreme < p.config.recovery

/-- Switches redundancy on. -/
def turnOn (p : Policy) (now : Nat) : Policy :=
  { p with enabled := true }.confirm now

/-- Notes extreme loss, and switches redundancy off if it is on. -/
def turnOff (p : Policy) (now : Nat) : Policy × List Control :=
  let p := { p with lastExtreme := now }
  if p.enabled then ({ p with enabled := false, turnedOff := now }, [.disable])
  else (p, [])

/-- Does what is asked for. The messages are what an encoder has to be told,
    in order. -/
def meet (p : Policy) (demand : Demand) (now : Nat) : Policy × List Control :=
  match demand with
  | .off => p.turnOff now
  | .level n =>
    if p.enabled then p.moveTo n now
    else if p.staysOff now then (p, [])
    else
      let (p, messages) := (p.turnOn now).moveTo n now
      (p, .enable :: messages)

/-- Reacts to a loss percentage. -/
def observe (p : Policy) (loss : Float) (now : Nat) : Policy × List Control :=
  p.meet (demandFor loss) now

/-- Sets the level from a loss percentage at once, past switch and
    hold-down. -/
def setLevel (p : Policy) (loss : Float) : Policy × Option Control :=
  let level := (demandFor loss).number
  if level = p.level then (p, none)
  else ({ p with level }, some (.redundancyLevel level))

/-- Records a report, if it moves forward in both time and packets, and lets
    go of one report too many. -/
def record (p : Policy) (sample : Sample) : Policy :=
  let advanced := match p.reports.getLast? with
    | none => true
    | some last => sample.time > last.time && sample.sent > last.sent
  let reports := if advanced then p.reports ++ [sample] else p.reports
  { p with reports := if reports.length > p.config.maxReports then reports.tail else reports }

/-- The newest report but the last that is at least a window older than
    it. -/
def baseline (p : Policy) (window : Nat) : Option (Sample × Sample) :=
  match p.reports.reverse with
  | [] => none
  | latest :: older =>
    (older.find? fun old => latest.time - old.time ≥ window).map fun old => (old, latest)

/-- A percentage, held between zero and one hundred. -/
def clampPercent (x : Float) : Float :=
  if x < 0 then 0 else if x > 100 then 100 else x

/-- The loss between two reports, in percent. -/
def lossBetween (old latest : Sample) : Float :=
  let lost := Decimal.ofNat latest.lost - Decimal.ofNat old.lost
  let sent := Decimal.ofNat latest.sent - Decimal.ofNat old.sent
  if sent ≤ 0 then 0 else clampPercent (100 * lost / sent)

/-- The loss over a window that ends with the last report, in percent; zero
    while there is no report old enough. -/
def lossPercent (p : Policy) (window : Nat) : Float :=
  match p.baseline window with
  | none => 0
  | some (old, latest) => lossBetween old latest

/-- The larger of two percentages. -/
def larger (x y : Float) : Float :=
  if x < y then y else x

/-- The larger of the losses over the short and the long window. -/
def windowedLoss (p : Policy) : Float :=
  larger (p.lossPercent p.config.shortWindow) (p.lossPercent p.config.longWindow)

/-- Reacts to a receiver report: keeps it if it is news, and then reacts to
    the loss that the reports now show. -/
def report (p : Policy) (sample : Sample) (now : Nat) : Policy × List Control :=
  let p := p.record sample
  p.observe p.windowedLoss now

/-! ### What the policy tells -/

/-- A percentage as log lines show it. -/
def showPercent (loss : Float) : String :=
  Decimal.fixed 1 loss ++ "%"

/-- The line about a new level. -/
def levelLine (level : UInt8) (loss : Float) : Log.Line :=
  let percent := showPercent loss
  ⟨.info, .senderPolicy, s!"updated redundant encodings to {level} (packet loss: {percent})"⟩

/-- What the policy tells when it moves to a level. -/
def moveToLog (p : Policy) (level : UInt8) (loss : Float) (now : Nat) : List Log.Line :=
  if level = p.level then []
  else if level < p.level && p.isHeld now then
    let held := (now - p.holdDownStart) / 1000
    let limit := p.config.holdDown / 1000
    [⟨.debug, .senderPolicy, s!"hold-down active: {held}s / {limit}s"⟩]
  else [levelLine level loss]

/-- What the policy tells about a loss percentage. -/
def observeLog (p : Policy) (loss : Float) (now : Nat) : List Log.Line :=
  let percent := showPercent loss
  match demandFor loss with
  | .off =>
    if p.enabled then
      [⟨.info, .senderPolicy, s!"loss {percent} too high, disabling redundancy"⟩]
    else []
  | .level n =>
    if p.enabled then p.moveToLog n loss now
    else if p.staysOff now then
      let off := now - p.turnedOff
      let high := now - p.lastExtreme
      [⟨.debug, .senderPolicy,
        s!"redundancy stays off ({off}ms since off, {high}ms since high loss)"⟩]
    else
      ⟨.info, .senderPolicy, s!"loss {percent} recovered, enabling redundancy"⟩
        :: (p.turnOn now).moveToLog n loss now

/-- What the policy tells when the level is set at once. -/
def setLevelLog (p : Policy) (loss : Float) : List Log.Line :=
  match p.setLevel loss with
  | (_, some (.redundancyLevel level)) => [levelLine level loss]
  | _ => []

/-- What the policy tells about a receiver report. -/
def reportLog (p : Policy) (sample : Sample) (now : Nat) : List Log.Line :=
  let p := p.record sample
  p.observeLog p.windowedLoss now

end Policy

end Redundancy

end RedundantAudio
