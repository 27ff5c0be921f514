import RedundantAudio.Json.Reader
import RedundantAudio.Loss.Counters

/-!
# Telemetry Messages

What a sender or a receiver tells its host: the loss counters of a stream, or
the state of redundancy. As JSON a message is one flat object with its kind
under `type`.

Members may come in any order, the kind included, and unknown ones are passed
over as long as they can be kept. No field may be missing or given twice. The
state of redundancy may also be written as an array, its kind first.

## Main definitions

* `Telemetry`: A telemetry message.
* `Telemetry.toJson`, `Telemetry.ofJson`: Its JSON form.
-/

namespace RedundantAudio

/-- What a sender or a receiver tells its host. -/
inductive Telemetry
  /-- The loss counters of a stream. -/
  | lossReport (report : Loss.Report)
  /-- Whether redundancy is on, and how many encodings it carries. -/
  | redundancy (enabled : Bool) (level : UInt8)
  deriving DecidableEq, Repr

namespace Telemetry

/-- A counter takes 64 bits on the wire. -/
def counterBound : Nat := UInt64.size

/-- How deeply the values of unknown members may be nested. -/
def nestingLimit : Nat := 126

/-- The JSON form of a message. -/
def toJson : Telemetry → Json.Value
  | lossReport r => .object [
      ("type", .string "redundant_audio_stats"),
      ("ssrc", .integer false r.ssrc.toNat),
      ("total_lost", .integer false r.counters.lost),
      ("total_expected", .integer false r.counters.expected),
      ("total_recovered_red", .integer false r.counters.recoveredRed),
      ("total_recovered_fec", .integer false r.counters.recoveredFec)]
  | redundancy enabled level => .object [
      ("type", .string "redundancy_level"),
      ("enabled", .bool enabled),
      ("num_redundant_encodings", .integer false level.toNat)]

/-- The text of a message. -/
def toText (t : Telemetry) : String :=
  t.toJson.render

/-- A natural number below a bound, from the only member with a key. -/
def natMember (key : String) (bound : Nat) (members : List (String × Json.Value)) :
    Option Nat := do
  (← Json.uniqueMember key members).asNatBelow bound

/-- The message of a kind with the given fields. -/
def ofMembers (kind : String) (members : List (String × Json.Value)) : Option Telemetry :=
  match kind with
  | "redundant_audio_stats" => do
    let ssrc ← natMember "ssrc" UInt32.size members
    let lost ← natMember "total_lost" counterBound members
    let expected ← natMember "total_expected" counterBound members
    let recoveredRed ← natMember "total_recovered_red" counterBound members
    let recoveredFec ← natMember "total_recovered_fec" counterBound members
    return lossReport ⟨.ofNat ssrc, { lost, expected, recoveredRed, recoveredFec }⟩
  | "redundancy_level" => do
    let enabled ← (← Json.uniqueMember "enabled" members).asBool
    let level ← natMember "num_redundant_encodings" 256 members
    return redundancy enabled (.ofNat level)
  | _ => none

/-- The message that a JSON value stands for. -/
def ofJson : Json.Value → Option Telemetry
  | .array [.string "redundancy_level", .bool enabled, v] => do
    return redundancy enabled (.ofNat (← v.asNatBelow 256))
  | .object members => do
    let .string kind ← Json.uniqueMember "type" members | none
    if Json.Value.membersPlain nestingLimit members then ofMembers kind members else none
  | _ => none

/-- The message that a text stands for. -/
def ofText (text : String) : Option Telemetry := do
  ofJson (← Json.read text)

end Telemetry

end RedundantAudio
