import RedundantAudio.Audio.Tone
import RedundantAudio.Audio.Wav
import RedundantAudio.Cli.Address
import RedundantAudio.Cli.Color
import RedundantAudio.Cli.Failure
import RedundantAudio.Cli.Options
import RedundantAudio.Transmission.Stream

/-!
# The Sending Program

Reads audio from a file, or makes a tone, and streams it to an address. What
the program needs from the world is little: the bytes of the file, some
randomness, and a network that says what became of each packet. Everything
else it does is computed here, in the order in which it shows.

## Main definitions

* `SenderSettings`: What the command line says.
* `SenderSettings.options`: The options.
* `SenderSettings.prepare`: Everything up to the stream.
* `Prepared.run`: The stream and what comes after.
-/

namespace RedundantAudio

namespace Cli

/-- The version of the programs. -/
def programVersion : String := "0.4.0"

/-- What the command line of the sending program says. -/
structure SenderSettings where
  /-- The file to send. -/
  input : Option String := none
  /-- How long the tone lasts if there is no file, in seconds. -/
  toneSeconds : Float32 := 10
  /-- Where to send. -/
  remote : String := "127.0.0.1:5004"
  /-- Time from one packet to the next, in milliseconds. -/
  interval : Nat := 20
  /-- The type of bare Opus frames. -/
  opusType : UInt8 := 111
  /-- The type of redundant packets. -/
  redType : UInt8 := 63
  /-- The percentage of packets that the simulated link loses. -/
  dropPercent : Float := 0
  /-- The seed of the pattern of losses. -/
  seed : Option UInt64 := none
  /-- Media time from one receiver report to the next, in milliseconds. -/
  reportInterval : Nat := 1000
  /-- Where to serve metrics. -/
  metricsBind : String := "127.0.0.1:9100"
  /-- When to color. -/
  color : ColorChoice := .auto

/-- The option that says when to color. -/
def colorOption {α : Type} (put : ColorChoice → α → α) : Opt α where
  long := "color"
  names := ColorChoice.all.map ColorChoice.name
  set := fun value settings =>
    match ColorChoice.ofName value false with
    | some choice => .ok (put choice settings)
    | none => .error (.noneOf (ColorChoice.all.map ColorChoice.name))

/-- An option whose value is read by a reader. -/
def readOption {α β : Type} (long : String) (short : Option Char)
    (read : String → Except ValueFault β) (put : β → α → α) : Opt α where
  long := long
  short := short
  set := fun value settings => (read value).map fun b => put b settings

/-- An option that takes any text. -/
def textOption {α : Type} (long : String) (short : Option Char) (put : String → α → α) : Opt α :=
  readOption long short .ok put

namespace SenderSettings

/-- The options of the sending program. -/
def options : List (Opt SenderSettings) := [
  textOption "input" (some 'i') fun v s => { s with input := some v },
  readOption "tone-secs" none single fun v s => { s with toneSeconds := v },
  textOption "remote" (some 'r') fun v s => { s with remote := v },
  readOption "interval-ms" (some 't') unbounded fun v s => { s with interval := v },
  readOption "opus-pt" none (bounded 255) fun v s => { s with opusType := .ofNat v },
  readOption "red-pt" none (bounded 255) fun v s => { s with redType := .ofNat v },
  readOption "drop-percent" none percentage fun v s => { s with dropPercent := v },
  readOption "seed" none unbounded fun v s => { s with seed := some (.ofNat v) },
  readOption "report-interval-ms" none unbounded fun v s => { s with reportInterval := v },
  textOption "metrics-bind" none fun v s => { s with metricsBind := v },
  colorOption fun v s => { s with color := v }]

/-- Reads a command line. -/
def ofWords (words : List String) : Except Ending SenderSettings :=
  readOptions options {} words

/-- A line of the sending program. -/
def line (text : String) : Log.Line :=
  ⟨.info, .sender, text⟩

/-- What is told first. -/
def opening (s : SenderSettings) : List Log.Line :=
  let opus := s.opusType
  let red := s.redType
  [line s!"Starting RED sender v{programVersion}",
    line s!"Remote address: {s.remote}",
    line s!"Payload types: opus={opus} red={red}",
    line ("Simulated loss: " ++ Decimal.plain s.dropPercent ++ "%")]

/-- The failure that a file brings about. -/
def fileFailure (path : String) (error : Audio.WavError) : Failure :=
  let causes := (error.cause.map (·.message)).toList
  match error with
  | .header _ => ⟨s!"failed to open WAV file: {path}", causes⟩
  | _ => ⟨error.message, causes⟩

/-- The audio to send, and what is told about it. A file that cannot be opened
    comes as the reason why. -/
def load (s : SenderSettings) (file : String → Except String Bytes) :
    List Log.Line × Except Failure Audio.Pcm :=
  match s.input with
  | none => ([], .ok (Audio.tone 440 s.toneSeconds))
  | some path =>
    match file path with
    | .error reason => ([], .error ⟨s!"failed to open WAV file: {path}", [reason]⟩)
    | .ok data =>
      (Audio.wavLog data, (Audio.Pcm.ofWav data).mapError (fileFailure path))

/-- What is told about the audio. -/
def loadedLine (audio : Audio.Pcm) : Log.Line :=
  let frames := audio.frameCount
  let seconds := Decimal.fixed 2 audio.seconds
  line s!"Loaded {seconds}s of audio ({frames} frames)"

/-- The settings of the stream. -/
def streamConfig (s : SenderSettings) (ssrc : UInt32) : Transmission.StreamConfig where
  ssrc := ssrc
  interval := s.interval
  dropPercent := s.dropPercent
  seed := s.seed
  reportInterval := s.reportInterval

/-- Where the draws of the link come from: the seed or, without one, whatever
    is at hand. -/
def generator (s : SenderSettings) (other : Simulation.Generator) : Simulation.Generator :=
  match s.seed with
  | some seed => .ofSeed seed
  | none => other

end SenderSettings

/-- A program that is about to stream. -/
structure Prepared where
  /-- What was told so far. -/
  lines : List Log.Line
  /-- The audio. -/
  audio : Audio.Pcm
  /-- The stream before its first frame. -/
  stream : Transmission.Stream Unit

/-- What the sending program needs from the world before it streams. -/
structure SenderWorld where
  /-- The bytes of a file, or why it cannot be opened. -/
  file : String → Except String Bytes
  /-- Where draws come from if there is no seed. -/
  generator : Simulation.Generator
  /-- The identity of the stream. -/
  ssrc : UInt32
  /-- The address of the socket. -/
  localAddress : String

/-- What is told about the address where metrics are served. -/
def servingLine (address : Address) : Log.Line :=
  let place := address.toText
  ⟨.info, .metrics, s!"Serving metrics on http://{place}/metrics"⟩

/-- The failure of an address for metrics. -/
def metricsFailure : Failure := ⟨"invalid metrics bind", [Address.syntaxFault]⟩

namespace SenderSettings

/-- What is told about the identity of the stream. -/
def ssrcLine (ssrc : UInt32) : Log.Line :=
  let name := Log.hexWord ssrc
  line s!"Session SSRC: 0x{name}"

/-- Everything up to the stream: what was told, and the failure if it ends
    there. -/
def prepare (s : SenderSettings) (world : SenderWorld) :
    Except (List Log.Line × Failure) Prepared :=
  match Address.ofText s.metricsBind with
  | none => .error (s.opening, metricsFailure)
  | some address =>
    let opening := s.opening ++ [servingLine address]
    match s.load world.file with
    | (told, .error failure) => .error (opening ++ told, failure)
    | (told, .ok audio) =>
      .ok {
        lines := opening ++ told ++ [loadedLine audio]
          ++ Redundancy.Sender.newLog s.opusType s.redType
          ++ [Transmission.Transmitter.boundLine world.localAddress, ssrcLine world.ssrc]
        audio
        stream := .start () (.new s.opusType s.redType {}) (s.generator world.generator)
          (s.streamConfig world.ssrc) }

end SenderSettings

namespace Prepared

/-- What is told last. -/
def finalLine (stream : Transmission.Stream Unit) : Log.Line :=
  SenderSettings.line ("Final state: " ++ stream.sender.telemetry.toText)

/-- The stream behind all frames, and what happens on the way. -/
def events (p : Prepared) : Transmission.Stream Unit × List Transmission.Event :=
  p.stream.run Transmission.silentEncoder p.audio.frames

/-- What is told from the beginning of the stream to the end of the program,
    given a network. -/
def run (p : Prepared) (network : Rtp.Frame → Transmission.Sent) : List Log.Line :=
  let (stream, events) := p.events
  let (transmitter, told) := Transmission.transmitAll network {} events
  told ++ [Transmission.streamedLine p.audio.frameCount transmitter, finalLine stream]

end Prepared

end Cli

end RedundantAudio
