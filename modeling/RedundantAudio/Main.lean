import RedundantAudio.Cli.Outcome
import RedundantAudio.Cli.SystemError
import RedundantAudio.Metrics.Exposition
import Std.Internal.UV.DNS
import Std.Internal.UV.TCP
import Std.Internal.UV.Timer
import Std.Internal.UV.UDP

/-!
# The Programs

The sending and the receiving program, with real files, sockets and clocks
around them. Nothing is decided here: each step is computed by the library,
and what comes of it is carried out.

There is no codec here either. The sending program sends silence that lasts
as long as the audio, and the receiving program records silence that lasts as
long as what it plays.

The first word of the command line says which program to run.
-/

open Std.Internal.UV

namespace RedundantAudio

namespace Main

/-- Where log lines go. -/
structure Console where
  /-- Which lines to show. -/
  filter : Cli.Filter
  /-- Whether to color them. -/
  isColored : Bool

/-- The console that the command line and the environment ask for. -/
def Console.open (color : Cli.ColorChoice) : IO Console := do
  let setting ← IO.getEnv "RUST_LOG"
  let named ← Cli.ColorChoice.forbidding.filterM fun name =>
    return (← IO.getEnv name).isSome
  let terminal ← (← IO.getStderr).isTty
  return ⟨.ofEnvironment setting, color.allows named terminal⟩

/-- Writes log lines. -/
def Console.tell (c : Console) (lines : List Log.Line) : IO Unit := do
  for line in lines do
    if c.filter.allows line then
      IO.eprintln (if c.isColored then Cli.painted line else line.render)

/-- Ends a program that failed. -/
def fail (failure : Cli.Failure) : IO UInt32 := do
  for line in failure.lines do IO.eprintln line
  return 1

/-- Ends a program whose command line gives no settings. -/
def leave (ending : Cli.Ending) : IO UInt32 := do
  let env ← Cli.forcingVariables.filterMapM fun name => do
    return (← IO.getEnv name).map fun value => (name, value)
  let outcome := Cli.Outcome.ofEnding env ending
  for line in outcome.lines do IO.eprintln line
  match ending with
  | .version => IO.println Cli.programVersion
  | .help | .misuse _ => pure ()
  return .ofNat (outcome.status.getD 0)

/-- The number of an error, which the event loop reports with a minus sign. -/
def errorNumber (code : UInt32) : Nat :=
  (if code < 0x80000000 then code else 0 - code).toNat

/-- An error of the operating system in words. -/
def reasonOf (error : IO.Error) : String :=
  let code : Option UInt32 := match error with
    | .alreadyExists _ code _ | .otherError code _ | .resourceBusy code _
    | .resourceVanished code _ | .unsupportedOperation code _ | .hardwareFault code _
    | .unsatisfiedConstraints code _ | .illegalOperation code _ | .protocolError code _
    | .timeExpired code _ | .interrupted _ code _ | .noFileOrDirectory _ code _
    | .invalidArgument _ code _ | .permissionDenied _ code _ | .resourceExhausted _ code _
    | .inappropriateType _ code _ | .noSuchThing _ code _ => some code
    | .unexpectedEof | .userError _ => none
  match code.bind (Cli.SystemError.ofNumber ∘ errorNumber) with
  | some known => known.message
  | none => toString error

/-- What comes of an action, with its error in words. -/
def attempt {α : Type} (action : IO α) : IO (Except String α) := do
  match ← action.toBaseIO with
  | .ok a => return .ok a
  | .error error => return .error (reasonOf error)

/-- Waits for something that was promised. -/
def await {α : Type} (promise : IO.Promise (Except IO.Error α)) : IO α := do
  match ← IO.wait promise.result? with
  | some (.ok a) => return a
  | some (.error error) => throw error
  | none => throw (IO.userError "the event loop has stopped")

/-- An address as the operating system takes it. -/
def socketAddress : Cli.Address → Std.Net.SocketAddress
  | .v4 octets port =>
    let octet (i : Nat) : UInt8 := .ofNat (octets.getD i 0)
    .v4 ⟨.ofParts (octet 0) (octet 1) (octet 2) (octet 3), .ofNat port⟩
  | .v6 groups port => .v6 ⟨⟨.ofFn fun i => .ofNat (groups.getD i 0)⟩, .ofNat port⟩

/-- An address as log lines show it. -/
def showAddress : Std.Net.SocketAddress → String
  | .v4 a => s!"{a.addr.toString}:{a.port}"
  | .v6 a => s!"[{a.addr.toString}]:{a.port}"

/-- The address of a destination. -/
def find (place : String) : IO (Except String Std.Net.SocketAddress) := do
  match Cli.Destination.ofText place with
  | .error reason => return .error reason
  | .ok (.address a) => return .ok (socketAddress a)
  | .ok (.host name port) =>
    let unknown := s!"failed to lookup address information: {name}"
    let answer : Except String (Array Std.Net.IPAddr) ←
      attempt (do await (← DNS.getAddrInfo name (toString port) 0))
    match answer with
    | .error _ => return .error unknown
    | .ok found =>
      match found.toList with
      | .v4 a :: _ => return .ok (.v4 ⟨a, .ofNat port⟩)
      | .v6 a :: _ => return .ok (.v6 ⟨a, .ofNat port⟩)
      | [] => return .error unknown

/-- A socket bound to an address, with the address that it got. -/
def bindSocket (place : String) : IO (Except String (UDP.Socket × String)) := do
  match ← find place with
  | .error reason => return .error reason
  | .ok address =>
    attempt do
      let socket ← UDP.Socket.new
      socket.bind address
      return (socket, showAddress (← socket.getSockName))

/-! ### Metrics -/

/-- A response as it goes over the wire. -/
def renderResponse (r : Metrics.Response) : String :=
  let phrase := if r.status = 200 then "OK" else "Not Found"
  let kind := match r.contentType with
    | some text => s!"content-type: {text}\r\n"
    | none => ""
  s!"HTTP/1.1 {r.status} {phrase}\r\n{kind}content-length: {r.body.utf8ByteSize}\r\n"
    ++ "connection: close\r\n\r\n" ++ r.body

/-- Answers one request. -/
def serveClient (process : String) (metrics : IO.Ref Metrics) (client : TCP.Socket) : IO Unit := do
  let some data ← await (← client.recv? 4096) | return
  let request := (String.fromUTF8? data).getD ""
  let now ← metrics.get
  let reply := match (request.splitOn "\r\n").head?.map (·.splitOn " ") with
    | some (method :: target :: _) => Metrics.respond process now method target
    | _ => ⟨404, none, "not found"⟩
  await (← client.send #[(renderResponse reply).toUTF8])
  await (← client.shutdown)

/-- Answers requests one after the other until told to stop. -/
partial def serveClients (process : String) (metrics : IO.Ref Metrics) (stop : IO.Promise Unit)
    (server : TCP.Socket) : IO Unit := do
  let client ← server.accept
  let stopped := stop.result?.map fun _ => none
  match ← IO.waitAny [client.result?, stopped] with
  | some (.ok client) =>
    let _ ← attempt (serveClient process metrics client)
    serveClients process metrics stop server
  | _ => return

/-- Serves metrics at an address while a program runs. -/
def servingMetrics (process place : String) (program : IO.Ref Metrics → IO UInt32) :
    IO UInt32 := do
  let metrics ← IO.mkRef {}
  match Cli.Address.ofText place with
  | none => program metrics
  | some address =>
    let stop ← IO.Promise.new
    let serve : IO Unit := do
      let server ← TCP.Socket.new
      server.bind (socketAddress address)
      server.listen 16
      serveClients process metrics stop server
    let server ← IO.asTask serve .dedicated
    let status ← program metrics
    stop.resolve ()
    let _ ← IO.wait server
    return status

/-! ### Sending -/

/-- The words of some random bytes. -/
def wordsOf : Bytes → List UInt32
  | a :: b :: c :: d :: rest => Wire.ofLe32 a b c d :: wordsOf rest
  | _ => []

/-- Sends a packet. -/
def sendPacket (socket : UDP.Socket) (remote : Except String Std.Net.SocketAddress)
    (frame : Rtp.Frame) : IO Transmission.Sent := do
  match remote with
  | .error reason => return .error reason
  | .ok address =>
    let data : ByteArray := ⟨frame.toBytes.toArray⟩
    let sent ← attempt (do await (← socket.send #[data] (some address)))
    return sent.map fun _ => data.size

/-- A stream that is being sent. -/
structure Sending where
  /-- The stream. -/
  stream : Transmission.Stream Unit
  /-- The counters of the socket. -/
  transmitter : Transmission.Transmitter := {}

/-- Carries out what happens during one frame. -/
def carryOut (console : Console) (metrics : IO.Ref Metrics)
    (send : Rtp.Frame → IO Transmission.Sent) (sender : Redundancy.Sender)
    (t : Transmission.Transmitter) (events : List Transmission.Event) :
    IO Transmission.Transmitter := do
  let mut t := t
  let mut counted : Transmission.Counted := { sender, metrics := ← metrics.get }
  for event in events do
    counted := counted.after event
    match event with
    | .sent frame =>
      let sent ← send frame
      t := t.record sent
      counted := { counted with metrics := Transmission.Transmitter.count counted.metrics sent }
      console.tell (t.log frame sent)
    | .told line => console.tell [line]
    | .offered _ | .lost _ | .reported _ => pure ()
  metrics.set counted.metrics
  return t

/-- Runs the sending program. -/
def runSender (words : List String) : IO UInt32 := do
  match Cli.SenderSettings.ofWords words with
  | .error ending => leave ending
  | .ok settings =>
    let console ← Console.open settings.color
    let random := wordsOf (← IO.getRandomBytes 36).toList
    let content ← match settings.input with
      | some path => attempt (do return (← IO.FS.readBinFile path).toList)
      | none => pure (.ok [])
    match ← bindSocket "0.0.0.0:0" with
    | .error reason =>
      fail ⟨"failed to create sender", ["failed to bind UDP socket", reason]⟩
    | .ok (socket, localAddress) =>
      let world : Cli.SenderWorld := {
        file := fun _ => content
        generator := { key := .ofWords (random.drop 1) }
        ssrc := random.headD 0
        localAddress }
      match settings.prepare world with
      | .error (told, failure) =>
        console.tell told
        fail failure
      | .ok prepared => servingMetrics "sender" settings.metricsBind fun metrics => do
        console.tell prepared.lines
        let remote ← find settings.remote
        let mut sending : Sending := { stream := prepared.stream }
        for audio in prepared.audio.frames do
          let (next, events) := sending.stream.step Transmission.silentEncoder audio
          let transmitter ← carryOut console metrics (sendPacket socket remote)
            sending.stream.sender sending.transmitter events
          sending := { stream := next, transmitter }
          if settings.interval > 0 then IO.sleep (.ofNat settings.interval)
        console.tell [Transmission.streamedLine prepared.audio.frameCount sending.transmitter,
          Cli.Prepared.finalLine sending.stream]
        return 0

/-! ### Receiving -/

/-- Bytes in the smallest unit of a file that is written. -/
def littleEndian (count n : Nat) : List UInt8 :=
  (List.range count).map fun i => .ofNat (n / Nat.pow 256 i)

/-- A recording of so many samples of silence. -/
def silentFile (samples : Nat) : ByteArray :=
  let rate := Audio.sampleRate
  let size := Reception.Recording.sampleBytes * samples
  let header := "RIFF".toUTF8.toList ++ littleEndian 4 (size + 36) ++ "WAVEfmt ".toUTF8.toList
    ++ littleEndian 4 16 ++ littleEndian 2 1 ++ littleEndian 2 1 ++ littleEndian 4 rate
    ++ littleEndian 4 (2 * rate) ++ littleEndian 2 2 ++ littleEndian 2 16
    ++ "data".toUTF8.toList ++ littleEndian 4 size
  ⟨(header ++ List.replicate size 0).toArray⟩

/-- Writes a whole file, down to the device. -/
def writeFile (path : String) (data : ByteArray) : IO Unit :=
  IO.FS.withFile path .write fun file => do
    file.write data
    file.flush

/-- Waits for a datagram, but not longer than so many milliseconds. -/
def receiveWithin (socket : UDP.Socket) (limit : Option Nat) :
    IO (Option (ByteArray × Option Std.Net.SocketAddress)) := do
  let arrival ← socket.recv (.ofNat Reception.maxDatagramBytes)
  match limit with
  | none => return some (← await arrival)
  | some millis =>
    let timer ← Timer.mk (.ofNat millis) false
    let alarm ← timer.next
    let arrived := arrival.result?
    let expired := alarm.result?.map fun _ => none
    match ← IO.waitAny [arrived, expired] with
    | some (.ok datagram) =>
      timer.stop
      return some datagram
    | some (.error error) => throw error
    | none => return none

/-- Takes datagrams until none has come for a while or the recording fails. -/
partial def receiveAll (console : Console) (socket : UDP.Socket) (metrics : IO.Ref Metrics)
    (start : Nat) (session : Reception.Session) :
    IO (Reception.Session × Option Reception.RecordingError) := do
  match ← receiveWithin socket session.config.idleTimeout with
  | none => return (session, none)
  | some (data, origin) =>
    let now := (← IO.monoNanosNow) - start
    let place := (origin.map showAddress).getD ""
    let step := session.arrive (← metrics.get) now place data.toList
    console.tell step.lines
    metrics.set step.metrics
    match step.failure with
    | some failure => return (step.session, some failure)
    | none => receiveAll console socket metrics start step.session

/-- Runs the receiving program. -/
def runReceiver (words : List String) : IO UInt32 := do
  match Cli.ReceiverSettings.ofWords words with
  | .error ending => leave ending
  | .ok settings =>
    let console ← Console.open settings.color
    let bound ← bindSocket settings.listenAddress
    let created : Except String Reception.Medium ← match settings.output with
      | some path => attempt (do IO.FS.writeBinFile path .empty; return .sound)
      | none => pure (.ok .sound)
    let world : Cli.ReceiverSettings.World := {
      bind := fun _ => bound.map (·.2)
      create := fun _ => created }
    match settings.prepare world, bound with
    | .error (told, failure), _ =>
      console.tell told
      fail failure
    | .ok _, .error reason => fail (Cli.ReceiverSettings.bindFailure settings.listenAddress reason)
    | .ok (told, session), .ok (socket, _) =>
      servingMetrics "receiver" settings.metricsBind fun metrics => do
      console.tell told
      let start ← IO.monoNanosNow
      let (session, failure) ← receiveAll console socket metrics start session
      match failure with
      | some error => fail ⟨error.message, []⟩
      | none =>
        let elapsed := (← IO.monoNanosNow) - start
        console.tell (session.stop elapsed)
        let played := session.listener.flush.2.events
        let samples := session.recording.samples + Reception.Recording.samplesIn played
        let written ← match settings.output with
          | some path => attempt (writeFile path (silentFile samples))
          | none => pure (.ok ())
        let (medium, reason) : Reception.Medium × String := match written with
          | .ok () => (.sound, "")
          | .error reason => (.full, reason)
        let recording := { session.recording with medium }
        let (told, failure) := Cli.ReceiverSettings.finish { session with recording } elapsed reason
        console.tell told
        failure.elim (return 0) fail

end Main

end RedundantAudio

/-- Runs the program that the first word names. -/
def main (words : List String) : IO UInt32 := do
  match words with
  | "sender" :: rest => RedundantAudio.Main.runSender rest
  | "receiver" :: rest => RedundantAudio.Main.runReceiver rest
  | _ =>
    IO.eprintln "error: the first argument is sender or receiver"
    return 2
