import RedundantAudio.Decimal.Text
import RedundantAudio.Metrics

/-!
# The Text Form of Metrics

A scraper asks for metrics over HTTP and gets them as plain text: for each
family two lines of description and then its samples, one per line, the
families sorted by name. Every sample carries the name of the process as a
label. A histogram has a sample for each bucket, which counts everything up
to its bound, one for all observations, and their sum and number.

All numbers are written as doubles, so a very large counter is rounded.

## Main definitions

* `Reading`: What a family has to report.
* `Family`: A family of metrics.
* `families`: All families of a process.
* `exposition`: Their text form.
* `respond`: The answer to a request.
-/

namespace RedundantAudio

namespace Metrics

/-- What a family has to report. -/
inductive Reading
  /-- A number that only grows. -/
  | counter (value : Nat)
  /-- A number that goes up and down. -/
  | gauge (value : Int64)
  /-- Observations in buckets. So many units of them make one unit of the
      text. -/
  | histogram (observations : Histogram) (unit : Nat)
  deriving DecidableEq, Repr

/-- A family of metrics. -/
structure Family where
  /-- Its name, without what all families have in common. -/
  name : String
  /-- What it means. -/
  help : String
  /-- What it has to report. -/
  reading : Reading
  deriving DecidableEq, Repr

/-- Nanoseconds in a second. -/
def nanosPerSecond : Nat := 1000000000

/-- All families of a process, sorted by name. -/
def families (m : Metrics) : List Family := [
  ⟨"audio_packets_expected", "Audio packets expected", .gauge m.packetsExpected⟩,
  ⟨"audio_packets_lost", "Audio packets detected as lost", .gauge m.packetsLost⟩,
  ⟨"audio_packets_recovered_fec", "Lost audio packets recovered from Opus in-band FEC",
    .gauge m.packetsRecoveredFec⟩,
  ⟨"audio_packets_recovered_red", "Lost audio packets recovered from redundant blocks",
    .gauge m.packetsRecoveredRed⟩,
  ⟨"frames_concealed_fec_total", "Playout gaps filled from Opus in-band FEC",
    .counter m.concealedFec⟩,
  ⟨"frames_concealed_plc_total", "Playout gaps filled by packet loss concealment",
    .counter m.concealedPlc⟩,
  ⟨"frames_concealed_red_total", "Playout gaps filled from a redundant block",
    .counter m.concealedRed⟩,
  ⟨"malformed_red_frames_total", "RED frames that failed to split",
    .counter m.malformedRedFrames⟩,
  ⟨"opus_decode_seconds", "Opus decode duration in seconds",
    .histogram m.decodeTime nanosPerSecond⟩,
  ⟨"opus_encode_seconds", "Opus encode duration in seconds",
    .histogram m.encodeTime nanosPerSecond⟩,
  ⟨"oversize_frames_dropped_total", "Frames dropped for exceeding the audio payload limit",
    .counter m.oversizeFramesDropped⟩,
  ⟨"passthrough_frames_total", "Frames forwarded without RED processing",
    .counter m.passthroughFrames⟩,
  ⟨"red_frames_encoded_total", "Frames rewritten into RED packets",
    .counter m.redFramesEncoded⟩,
  ⟨"red_frames_received_total", "RED frames received and split",
    .counter m.redFramesReceived⟩,
  ⟨"red_payload_bytes", "Size of encoded RED payloads in bytes", .histogram m.redPayload 1⟩,
  ⟨"redundancy_enabled", "1 while redundancy is enabled", .gauge m.redundancyEnabled⟩,
  ⟨"redundancy_level", "Current number of redundant encodings per packet",
    .gauge m.redundancyLevel⟩,
  ⟨"redundant_blocks_sent_total", "Redundant encodings attached to outgoing packets",
    .counter m.redundantBlocksSent⟩,
  ⟨"rtp_bytes_received_total", "Total RTP payload bytes received", .counter m.bytesReceived⟩,
  ⟨"rtp_bytes_sent_total", "Total RTP payload bytes sent", .counter m.bytesSent⟩,
  ⟨"rtp_packets_received_total", "Total RTP packets received", .counter m.packetsReceived⟩,
  ⟨"rtp_packets_sent_total", "Total RTP packets sent", .counter m.packetsSent⟩]

namespace Reading

/-- What kind of family it is. -/
def kind : Reading → String
  | counter _ => "counter"
  | gauge _ => "gauge"
  | histogram .. => "histogram"

/-- A natural number as the nearest double. -/
def showNat (n : Nat) : String :=
  Decimal.plain (Decimal.ofNat n)

/-- A signed word as the nearest double. -/
def showInt (n : Int64) : String :=
  (if n < 0 then "-" else "") ++ showNat n.toInt.natAbs

/-- A number of units in the unit of the text. -/
def showScaled (n unit : Nat) : String :=
  Decimal.plain (Decimal.ofNat n / Decimal.ofNat unit)

/-- The counts of the buckets up to each bound. -/
def cumulative (before : Nat) : List Nat → List Nat
  | [] => []
  | n :: ns => (before + n) :: cumulative (before + n) ns

/-- The samples of a family: what follows its name, further labels, and the
    number. -/
def samples : Reading → List (String × String × String)
  | counter n => [("", "", showNat n)]
  | gauge n => [("", "", showInt n)]
  | histogram h unit =>
    (h.bounds.zip (cumulative 0 h.buckets)).map (fun (bound, n) =>
        ("_bucket", ",le=\"" ++ showScaled bound unit ++ "\"", showNat n))
      ++ [("_bucket", ",le=\"+Inf\"", showNat h.count), ("_sum", "", showScaled h.sum unit),
        ("_count", "", showNat h.count)]

end Reading

/-- A label value between quotes: quotes and backslashes are marked, and a
    line break is spelled out. -/
def escapeLabel (value : String) : String :=
  String.ofList (value.toList.flatMap fun c =>
    if c = '\\' then ['\\', '\\']
    else if c = '"' then ['\\', '"']
    else if c = '\n' then ['\\', 'n']
    else [c])

/-- The lines of a family. -/
def Family.lines (process : String) (f : Family) : List String :=
  let name := "opus_red_" ++ f.name
  let kind := f.reading.kind
  [s!"# HELP {name} {f.help}", s!"# TYPE {name} {kind}"] ++
    f.reading.samples.map fun (suffix, labels, number) =>
      name ++ suffix ++ "\x7bprocess=\"" ++ escapeLabel process ++ "\"" ++ labels ++ "\x7d "
        ++ number

/-- The text form of the metrics of a process. -/
def exposition (process : String) (m : Metrics) : String :=
  String.join ((m.families.flatMap (Family.lines process)).map (· ++ "\n"))

/-- The answer to a request. -/
structure Response where
  /-- The status code. -/
  status : Nat
  /-- The type of the body, where one is given. -/
  contentType : Option String
  /-- The body. -/
  body : String
  deriving DecidableEq, Repr

/-- The page that a request names, without its query. -/
def page (target : String) : String :=
  String.ofList (target.toList.takeWhile (· ≠ '?'))

/-- The answer to a request. There is one page, and it can only be got. -/
def respond (process : String) (m : Metrics) (method target : String) : Response :=
  if method = "GET" && page target = "/metrics" then
    ⟨200, some "text/plain; version=0.0.4", exposition process m⟩
  else ⟨404, none, "not found"⟩

end Metrics

end RedundantAudio
