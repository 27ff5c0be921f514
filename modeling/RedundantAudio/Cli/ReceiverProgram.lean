import RedundantAudio.Cli.SenderProgram
import RedundantAudio.Reception.Intake

/-!
# The Receiving Program

Listens on a port, plays what arrives and reports how well losses were made
good. It may record what it plays, and it may stop after a while without
packets.

The program fails before it listens if an address, the port or the file is
bad. After that only the file can still fail, on the way or at the end.

## Main definitions

* `ReceiverSettings`: What the command line says.
* `ReceiverSettings.options`: The options.
* `ReceiverSettings.prepare`: Everything up to the first packet.
* `ReceiverSettings.finish`: Everything after the last one.
-/

namespace RedundantAudio

namespace Cli

/-- What the command line of the receiving program says. -/
structure ReceiverSettings where
  /-- The port to listen on. -/
  port : UInt16 := 5004
  /-- The file to record to. -/
  output : Option String := none
  /-- The type of bare Opus frames. -/
  opusType : UInt8 := 111
  /-- The type of redundant packets. -/
  redType : UInt8 := 63
  /-- Stop after so many seconds without a packet; zero goes on forever. -/
  idleTimeout : Nat := 0
  /-- Slots held back before they are played. -/
  delay : Nat := 3
  /-- The longest gap that is concealed, in slots. -/
  maxConcealed : Nat := 50
  /-- Where to serve metrics. -/
  metricsBind : String := "127.0.0.1:9200"
  /-- When to color. -/
  color : ColorChoice := .auto
  deriving DecidableEq, Repr

namespace ReceiverSettings

/-- The options of the receiving program. -/
def options : List (Opt ReceiverSettings) := [
  readOption "port" (some 'p') (bounded 65535) fun v s => { s with port := .ofNat v },
  textOption "output" (some 'o') fun v s => { s with output := some v },
  readOption "opus-pt" none (bounded 255) fun v s => { s with opusType := .ofNat v },
  readOption "red-pt" none (bounded 255) fun v s => { s with redType := .ofNat v },
  readOption "idle-timeout-secs" none unbounded fun v s => { s with idleTimeout := v },
  readOption "playout-delay-frames" none unbounded fun v s => { s with delay := v },
  readOption "max-concealed-frames" none (bounded 4294967295)
    fun v s => { s with maxConcealed := v },
  textOption "metrics-bind" none fun v s => { s with metricsBind := v },
  colorOption fun v s => { s with color := v }]

/-- Reads a command line. -/
def ofWords (words : List String) : Except Ending ReceiverSettings :=
  readOptions options {} words

/-- A line of the receiving program. -/
def line (text : String) : Log.Line :=
  ⟨.info, .receiver, text⟩

/-- What is told first. -/
def opening (s : ReceiverSettings) : List Log.Line :=
  let port := s.port
  let opus := s.opusType
  let red := s.redType
  [line s!"Starting RED receiver v{programVersion}",
    line s!"Listening on port: {port}",
    line s!"Payload types: opus={opus} red={red}",
    line s!"Metrics bind: {s.metricsBind}"]

/-- The address to listen on: every one of the host. -/
def listenAddress (s : ReceiverSettings) : String :=
  let port := s.port
  s!"0.0.0.0:{port}"

/-- The settings of the session. -/
def sessionConfig (s : ReceiverSettings) : Reception.SessionConfig where
  idleTimeout := if s.idleTimeout = 0 then none else some (1000 * s.idleTimeout)

/-- What the receiving program needs from the world before it listens. -/
structure World where
  /-- The address of a socket bound to an address, or why it cannot be
      bound. -/
  bind : String → Except String String
  /-- The file with a path, or why it cannot be created. -/
  create : String → Except String Reception.Medium

/-- The file to record to, and what is told about it. -/
def openRecording (s : ReceiverSettings) (world : World) :
    Except Failure (Reception.Recording × List Log.Line) :=
  match s.output with
  | none => .ok ({}, [])
  | some path =>
    match world.create path with
    | .error reason => .error ⟨(Reception.RecordingError.creating path).message, [reason]⟩
    | .ok medium => .ok ({ medium }, [Reception.Recording.createdLine path])

/-- What is told once packets may come. -/
def readyLine : Log.Line := line "Ready to receive audio..."

/-- The failure of a socket. -/
def bindFailure (address reason : String) : Failure :=
  ⟨"failed to create receiver", [Reception.Intake.bindFailure address, reason]⟩

/-- Everything up to the first packet: what was told, and the failure if it
    ends there. -/
def prepare (s : ReceiverSettings) (world : World) :
    Except (List Log.Line × Failure) (List Log.Line × Reception.Session) :=
  match Address.ofText s.metricsBind, world.bind s.listenAddress with
  | none, _ => .error (s.opening, metricsFailure)
  | some metrics, .error reason =>
    .error (s.opening ++ [servingLine metrics], bindFailure s.listenAddress reason)
  | some metrics, .ok address =>
    let bound := s.opening ++ [servingLine metrics, Reception.Intake.boundLine address]
    match s.openRecording world with
    | .error failure => .error (bound, failure)
    | .ok (recording, told) =>
      .ok (bound ++ told ++ [readyLine], {
        config := s.sessionConfig
        listener := {
          receiver := .new s.opusType s.redType {}
          playout := { config := { delay := s.delay, maxConcealed := s.maxConcealed } } }
        recording })

/-- The failure of a recording, with what was behind it. -/
def recordingFailure (error : Reception.RecordingError) (reason : String) : Failure :=
  ⟨error.message, [reason]⟩

/-- What is told about everything that was received. -/
def receivedLine (l : Reception.Listener) (elapsed : Nat) : Log.Line :=
  let frames := l.tally.received
  let seconds := Decimal.fixed 1 (Reception.Listener.seconds elapsed)
  let slots := l.stats.concealed
  line s!"Received {frames} frames in {seconds}s, concealed {slots} slots"

/-- Everything after the last packet: every slot is played, the file is
    finished, and all streams are reported. -/
def finish (session : Reception.Session) (elapsed : Nat) (reason : String) :
    List Log.Line × Option Failure :=
  let (l, handled) := session.listener.flush
  let told := Reception.Listener.eventsLog session.recording handled.events
  match (session.recording.write handled.events).bind (·.finish) with
  | .error error => (told, some (recordingFailure error reason))
  | .ok _ =>
    let reports := l.receiver.streams.reports.map fun report =>
      line ("Final loss report: " ++ (Telemetry.lossReport report).toText)
    (told ++ receivedLine l elapsed :: reports, none)

end ReceiverSettings

end Cli

end RedundantAudio
