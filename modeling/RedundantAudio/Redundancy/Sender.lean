import RedundantAudio.Message.Telemetry
import RedundantAudio.Redundancy.Encoder
import RedundantAudio.Redundancy.Policy

/-!
# The Sender of a Stream

An encoder under the rule of a policy. What the policy decides is told to the
encoder in the same step, so the next frame is already encoded by it. A host
may still give the encoder messages of its own, and these the policy does not
see.

## Main definitions

* `Sender`: An encoder and its policy.
* `Sender.Input`: What a sender takes.
* `Sender.step`: Takes one input.
* `Sender.telemetry`: The state of redundancy, as a host is told.
-/

namespace RedundantAudio

namespace Redundancy

/-- An encoder and the policy that rules it. -/
structure Sender where
  /-- The encoder. -/
  encoder : Encoder
  /-- The policy. -/
  policy : Policy
  deriving DecidableEq, Repr

namespace Sender

/-- The messages that set both payload types. -/
def typeMessages (opusType redType : UInt8) : List Control :=
  [.opusPayloadType opusType, .redPayloadType redType]

/-- A new sender for two payload types. -/
def new (opusType redType : UInt8) (config : PolicyConfig) : Sender where
  encoder := Encoder.handleAll {} (typeMessages opusType redType)
  policy := { config }

/-- What a new sender tells. -/
def newLog (opusType redType : UInt8) : List Log.Line :=
  Encoder.handleAllLog {} (typeMessages opusType redType)

/-- What a sender takes. -/
inductive Input
  /-- A frame to send. -/
  | frame (frame : Rtp.Frame)
  /-- A message from the host. -/
  | control (message : Control)
  /-- A loss percentage, and the time in milliseconds. -/
  | loss (percent : Float) (now : Nat)
  /-- A receiver report, and the time in milliseconds. -/
  | report (sample : Sample) (now : Nat)

/-- What a sender gives back. -/
inductive Output
  /-- What became of a frame. -/
  | frame (outcome : Outcome)
  /-- The messages that the encoder was told. -/
  | messages (messages : List Control)
  deriving DecidableEq, Repr

/-- Takes the decision of a policy, and tells the encoder. -/
def follow (s : Sender) (decision : Policy × List Control) : Sender :=
  { encoder := s.encoder.handleAll decision.2, policy := decision.1 }

/-- Takes a loss percentage. -/
def observe (s : Sender) (percent : Float) (now : Nat) : Sender × List Control :=
  let decision := s.policy.observe percent now
  (s.follow decision, decision.2)

/-- Takes a receiver report. -/
def report (s : Sender) (sample : Sample) (now : Nat) : Sender × List Control :=
  let decision := s.policy.report sample now
  (s.follow decision, decision.2)

/-- Takes a frame. -/
def send (s : Sender) (frame : Rtp.Frame) : Sender × Outcome :=
  let (encoder, outcome) := s.encoder.send frame
  ({ s with encoder }, outcome)

/-- Takes one input. A message from the host is applied and not repeated. -/
def step (s : Sender) : Input → Sender × Output
  | .frame frame =>
    let (s, outcome) := s.send frame
    (s, .frame outcome)
  | .control message => ({ s with encoder := s.encoder.handle message }, .messages [])
  | .loss percent now =>
    let (s, messages) := s.observe percent now
    (s, .messages messages)
  | .report sample now =>
    let (s, messages) := s.report sample now
    (s, .messages messages)

/-- The sender behind a run of inputs, with what each gave back. -/
def run (s : Sender) : List Input → Sender × List Output
  | [] => (s, [])
  | input :: inputs =>
    let (s, output) := s.step input
    let (s, outputs) := s.run inputs
    (s, output :: outputs)

/-- What a sender tells about an input: the policy first, then the encoder. -/
def log (s : Sender) : Input → List Log.Line
  | .frame frame => s.encoder.log (.frame frame)
  | .control message => s.encoder.log (.control message)
  | .loss percent now =>
    s.policy.observeLog percent now ++ s.encoder.handleAllLog (s.policy.observe percent now).2
  | .report sample now =>
    s.policy.reportLog sample now ++ s.encoder.handleAllLog (s.policy.report sample now).2

/-- Counts an input. -/
def count (s : Sender) (m : Metrics) : Input → Metrics
  | .frame frame => s.encoder.count m (.frame frame)
  | .control message => s.encoder.count m (.control message)
  | .loss percent now => s.encoder.countAll m (s.policy.observe percent now).2
  | .report sample now => s.encoder.countAll m (s.policy.report sample now).2

/-- The state of redundancy, as a host is told. -/
def telemetry (s : Sender) : Telemetry :=
  .redundancy s.encoder.enabled s.encoder.level

end Sender

end Redundancy

end RedundantAudio
