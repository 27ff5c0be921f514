import RedundantAudio.Json.Reader

/-!
# Control Messages

What a host tells a sender: which payload types to use, how many redundant
encodings to carry, and whether to carry any. As JSON a message is an object
with its kind under `type` and its number, if it has one, under `value`.

Members may come in any order and unknown ones are passed over, but neither
of the two keys may be given twice. A message without a number may still
carry a `value` of null. An array of kind and value does as well as an object,
and under `type` a kind may stand as the only key of an object whose value is
null.

## Main definitions

* `Control`: A control message.
* `Control.toJson`, `Control.ofJson`: Its JSON form.
* `Control.describe`: Its form in logs.
-/

namespace RedundantAudio

/-- What a host tells a sender. -/
inductive Control
  /-- The payload type of bare Opus frames. -/
  | opusPayloadType (n : UInt8)
  /-- The payload type of redundant packets. -/
  | redPayloadType (n : UInt8)
  /-- How many redundant encodings to carry. -/
  | redundancyLevel (n : UInt8)
  /-- Carry redundant encodings. -/
  | enable
  /-- Carry none. -/
  | disable
  deriving DecidableEq, Repr

namespace Control

/-- The kind of a message, as its JSON form names it. -/
def kind : Control → String
  | opusPayloadType _ => "opus_payload_type"
  | redPayloadType _ => "red_payload_type"
  | redundancyLevel _ => "update_num_redundant_encodings"
  | enable => "enable"
  | disable => "disable"

/-- The number of a message, if it has one. -/
def number : Control → Option UInt8
  | opusPayloadType n | redPayloadType n | redundancyLevel n => some n
  | enable | disable => none

/-- The message of a kind with a number, if the kind has one. -/
def ofParts (kind : String) (number : Option UInt8) : Option Control :=
  match kind, number with
  | "opus_payload_type", some n => some (opusPayloadType n)
  | "red_payload_type", some n => some (redPayloadType n)
  | "update_num_redundant_encodings", some n => some (redundancyLevel n)
  | "enable", none => some enable
  | "disable", none => some disable
  | _, _ => none

/-- The name of a message in logs. -/
def describe (c : Control) : String :=
  match c with
  | opusPayloadType n => s!"OpusPayloadType({n})"
  | redPayloadType n => s!"RedPayloadType({n})"
  | redundancyLevel n => s!"UpdateNumRedundantEncodings({n})"
  | enable => "Enable"
  | disable => "Disable"

/-- The names of several messages in logs. -/
def describeAll (cs : List Control) : String :=
  "[" ++ ", ".intercalate (cs.map describe) ++ "]"

/-- The JSON form of a message. -/
def toJson (c : Control) : Json.Value :=
  match c.number with
  | some n => .object [("type", .string c.kind), ("value", .integer false n.toNat)]
  | none => .object [("type", .string c.kind)]

/-- The kind that a JSON value names. -/
def kindOfJson : Json.Value → Option String
  | .string kind => some kind
  | .object [(kind, .null)] => some kind
  | _ => none

/-- The number that a JSON value gives a message; null gives none. -/
def numberOfJson : Json.Value → Option (Option UInt8)
  | .null => some none
  | v => (v.asNatBelow 256).map fun n => some (.ofNat n)

/-- The message that a JSON value stands for. -/
def ofJson : Json.Value → Option Control
  | .array [.string kind, v] => do ofParts kind (← numberOfJson v)
  | .object members => do
    let kind ← kindOfJson (← Json.uniqueMember "type" members)
    match members.filter fun m => m.1 = "value" with
    | [] => ofParts kind none
    | [(_, v)] => ofParts kind (← numberOfJson v)
    | _ => none
  | _ => none

/-- The message that a text stands for. -/
def ofText (text : String) : Option Control := do
  ofJson (← Json.read text)

end Control

end RedundantAudio
