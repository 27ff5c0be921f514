import RedundantAudio.Text.Terminal

/-!
# Log Lines

What the library tells about itself while it runs. No function here writes
anything: a step that has something to tell returns its lines in order beside
its result, and the program around it decides which of them to print. A line
knows its severity and the component that it comes from, which is all that a
filter goes by.

## Main definitions

* `Log.Level`: How severe a line is.
* `Log.Source`: The component that a line comes from.
* `Log.Line`: One line.
* `Log.hexWord`: A word as lines show it.
-/

namespace RedundantAudio

namespace Log

/-- How severe a line is. -/
inductive Level
  | error
  | warn
  | info
  | debug
  | trace
  deriving DecidableEq, Repr

namespace Level

/-- The name of a severity, as lines begin with it. -/
def name : Level → String
  | .error => "ERROR"
  | .warn => "WARN"
  | .info => "INFO"
  | .debug => "DEBUG"
  | .trace => "TRACE"

/-- How much a severity lets through: the most severe is the quietest. -/
def verbosity : Level → Nat
  | .error => 1
  | .warn => 2
  | .info => 3
  | .debug => 4
  | .trace => 5

end Level

/-- The component that a line comes from. -/
inductive Source
  | metrics
  | sender
  | senderAudio
  | senderEncoder
  | senderHistory
  | senderNetwork
  | senderPolicy
  | receiver
  | receiverDepacketizer
  | receiverNetwork
  | receiverPlayout
  | receiverStats
  | receiverTracker
  deriving DecidableEq, Repr

/-- The name of a component, as lines carry it and filters match it. -/
def Source.name : Source → String
  | .metrics => "opus_red_common::observability::metrics"
  | .sender => "red_sender"
  | .senderAudio => "red_sender::audio"
  | .senderEncoder => "red_sender::encoder"
  | .senderHistory => "red_sender::history"
  | .senderNetwork => "red_sender::network"
  | .senderPolicy => "red_sender::policy"
  | .receiver => "red_receiver"
  | .receiverDepacketizer => "red_receiver::depacketizer"
  | .receiverNetwork => "red_receiver::network"
  | .receiverPlayout => "red_receiver::playout"
  | .receiverStats => "red_receiver::stats"
  | .receiverTracker => "red_receiver::tracker"

/-- One line. -/
structure Line where
  /-- How severe it is. -/
  level : Level
  /-- Where it comes from. -/
  source : Source
  /-- What it says. -/
  text : String
  deriving DecidableEq, Repr

namespace Line

/-- What the line says, with nothing in it that a terminal would obey. -/
def plainText (line : Line) : String :=
  Text.spellOut line.text

/-- The line as a program prints it. -/
def render (line : Line) : String :=
  s!"{line.level.name} {line.source.name}: {line.plainText}"

/-- The line without its source. -/
def renderShort (line : Line) : String :=
  s!"{line.level.name} {line.text}"

end Line

/-- A word as lines show it: eight digits of base sixteen, in capitals. -/
def hexWord (w : UInt32) : String :=
  let digits := (Nat.toDigits 16 w.toNat).map Char.toUpper
  String.ofList (List.replicate (8 - digits.length) '0' ++ digits)

end Log

end RedundantAudio
