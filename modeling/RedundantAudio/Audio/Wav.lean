import RedundantAudio.Audio.Pcm
import RedundantAudio.Log
import RedundantAudio.Wire.Bytes

/-!
# Reading Audio Files

A WAV file is a header of a dozen bytes and a run of chunks. The format chunk
says what a sample looks like, the data chunk holds the samples, and every
other chunk is skipped. Chunks follow each other without padding.

A file is refused while its chunks are walked unless the format chunk is one
of the two plain kinds and agrees with itself, and the data chunk is made of
whole instants. What is left to go wrong after that is a sample rate that no
stream can have, a kind of sample that is not handled, and data that end
before they should. These come in that order, and only once the format was
told.

## Main definitions

* `WavFormat`: What a sample looks like.
* `WavError`: Why a file cannot be read.
* `readFormat`: Reads a format chunk.
* `walk`: Walks the chunks up to the data.
* `Pcm.ofWav`: The audio in a file.
-/

namespace RedundantAudio

namespace Audio

/-- How a sample is written. -/
inductive Encoding
  | integer
  | float
  deriving DecidableEq, Repr

/-- The name of an encoding. -/
def Encoding.name : Encoding → String
  | integer => "Int"
  | float => "Float"

/-- What a sample looks like. -/
structure WavFormat where
  /-- How it is written. -/
  encoding : Encoding
  /-- Samples in an instant. -/
  channels : UInt16
  /-- Instants in a second. -/
  rate : UInt32
  /-- Bits that count. -/
  bits : UInt16
  /-- Bytes that are there. -/
  sampleBytes : UInt16
  deriving DecidableEq, Repr

/-- Why the chunks of a file are refused. -/
inductive Refusal
  /-- The file ends too soon. -/
  | truncated
  /-- The chunks make no sense. -/
  | illFormed (reason : String)
  /-- Samples of this kind are not known. -/
  | unsupported
  /-- The samples are wider than what they are read into. -/
  | tooWide
  deriving DecidableEq, Repr

/-- The wording of each refusal. -/
def Refusal.message : Refusal → String
  | truncated => "Failed to read enough bytes."
  | illFormed reason => s!"Ill-formed WAVE file: {reason}"
  | unsupported => "The wave format of the file is not supported."
  | tooWide => "The sample has more bits than the destination type."

/-- Why a file cannot be read. -/
inductive WavError
  /-- The chunks are refused. -/
  | header (refusal : Refusal)
  /-- The sample rate is another one. -/
  | rate (hertz : UInt32)
  /-- Samples of this kind are not handled. -/
  | encoding (kind : Encoding) (bits : UInt16)
  /-- The samples cannot be read. -/
  | samples (kind : Encoding) (refusal : Refusal)
  deriving DecidableEq, Repr

/-- The wording of each failure. -/
def WavError.message : WavError → String
  | header _ => "failed to open WAV file"
  | rate hertz => s!"unsupported sample rate {hertz}Hz (RED packetization needs {sampleRate}Hz)"
  | encoding kind bits =>
    let name := kind.name
    s!"unsupported WAV sample format: {name} {bits}-bit"
  | samples .integer _ => "failed to read 16-bit PCM samples"
  | samples .float _ => "failed to read 32-bit float samples"

/-- What lies behind a failure, if anything does. -/
def WavError.cause : WavError → Option Refusal
  | header refusal => some refusal
  | samples _ refusal => some refusal
  | rate _ | encoding _ _ => none

/-! ### The chunks -/

/-- The sixteen bytes that every format chunk begins with. -/
structure FormatFields where
  /-- The kind of the samples. -/
  tag : UInt16
  /-- Samples in an instant. -/
  channels : UInt16
  /-- Instants in a second. -/
  rate : UInt32
  /-- Bytes in a second. -/
  byteRate : UInt32
  /-- Bytes in an instant. -/
  align : UInt16
  /-- Bits in a sample. -/
  bits : UInt16
  deriving DecidableEq, Repr

namespace FormatFields

/-- Bytes in a sample. -/
def sampleBytes (f : FormatFields) : UInt16 :=
  f.align / f.channels

/-- Whether the bits of a sample fit into its bytes. The bits there are room
    for are counted in 16 bits themselves, so a sample that is too large to be
    counted holds none. -/
def bitsFit (f : FormatFields) : Bool :=
  let room := 8 * f.sampleBytes.toNat
  room < UInt16.size && f.bits.toNat ≤ room

/-- What is wrong with the fields taken together. -/
def fault (f : FormatFields) : Option String :=
  if f.channels = 0 then some "file contains zero channels"
  else if !f.bitsFit then some "sample bits exceeds size of sample"
  else if f.byteRate.toNat ≠ f.align.toNat * f.rate.toNat then some "inconsistent fmt chunk"
  else if f.bits % 8 ≠ 0 then some "bits per sample is not a multiple of 8"
  else if f.bits = 0 then some "bits per sample is 0"
  else none

/-- The format that the fields stand for, with a given encoding. -/
def format (f : FormatFields) (encoding : Encoding) : WavFormat where
  encoding := encoding
  channels := f.channels
  rate := f.rate
  bits := f.bits
  sampleBytes := f.sampleBytes

end FormatFields

/-- Reads the rest of a format chunk of integer samples. Longer chunks have
    the length of an extension, which is ignored, and the longest one has the
    extension. -/
def readIntegerFormat (f : FormatFields) (length : Nat) (rest : Bytes) :
    Except Refusal (WavFormat × Bytes) :=
  let extended : Except Refusal (WavFormat × Bytes) :=
    if f.bits = 8 ∨ f.bits = 16 ∨ f.bits = 24 then .ok (f.format .integer, rest.drop (length - 16))
    else .error (.illFormed "bits per sample is not 8 or 16")
  if length = 16 then .ok (f.format .integer, rest)
  else if length ≠ 18 ∧ length ≠ 40 then .error (.illFormed "unexpected fmt chunk size")
  else if rest.length < 2 then .error .truncated
  else
    match extended with
    | .error e => .error e
    | .ok done => if rest.length < length - 16 then .error .truncated else .ok done

/-- Reads the rest of a format chunk of floating-point samples. A longer chunk
    has an extension of length zero. -/
def readFloatFormat (f : FormatFields) (length : Nat) (rest : Bytes) :
    Except Refusal (WavFormat × Bytes) :=
  let checked (rest : Bytes) : Except Refusal (WavFormat × Bytes) :=
    if f.bits = 32 then .ok (f.format .float, rest)
    else .error (.illFormed "bits per sample is not 32")
  if length = 16 then checked rest
  else if length ≠ 18 then .error (.illFormed "unexpected fmt chunk size")
  else
    match rest with
    | a :: b :: rest =>
      if Wire.ofLe16 a b = 0 then checked rest
      else .error (.illFormed "unexpected WAVEFORMATEX size")
    | _ => .error .truncated

/-- Reads a format chunk of the given length. What lies behind it is
    returned. -/
def readFormat (length : Nat) (data : Bytes) : Except Refusal (WavFormat × Bytes) :=
  if length < 16 then .error (.illFormed "invalid fmt chunk size")
  else
    match data with
    | t0 :: t1 :: c0 :: c1 :: r0 :: r1 :: r2 :: r3 :: y0 :: y1 :: y2 :: y3 :: a0 :: a1 :: b0 :: b1
        :: rest =>
      let fields : FormatFields := {
        tag := Wire.ofLe16 t0 t1
        channels := Wire.ofLe16 c0 c1
        rate := Wire.ofLe32 r0 r1 r2 r3
        byteRate := Wire.ofLe32 y0 y1 y2 y3
        align := Wire.ofLe16 a0 a1
        bits := Wire.ofLe16 b0 b1 }
      match fields.fault with
      | some reason => .error (.illFormed reason)
      | none =>
        if fields.tag = 1 then readIntegerFormat fields length rest
        else if fields.tag = 3 then readFloatFormat fields length rest
        else .error .unsupported
    | _ => .error .truncated

/-- What lies behind so many bytes. -/
def skip (count : Nat) (data : Bytes) : Except Refusal Bytes :=
  if data.length < count then .error .truncated else .ok (data.drop count)

/-- The names of the chunks that matter, as four bytes. -/
inductive ChunkKind
  | format
  | fact
  | data
  | other
  deriving DecidableEq, Repr

/-- The kind of a chunk, by its name. -/
def ChunkKind.ofName (name : Bytes) : ChunkKind :=
  if name = "fmt ".toUTF8.toList then .format
  else if name = "fact".toUTF8.toList then .fact
  else if name = "data".toUTF8.toList then .data
  else .other

/-- Walks the chunks up to the data, with the format known so far. What comes
    out is the format, the length that the data should have, and the bytes
    that begin with them. The walk takes at most `steps` chunks. -/
def walk (steps : Nat) (format : Option WavFormat) (data : Bytes) :
    Except Refusal (WavFormat × Nat × Bytes) :=
  match steps, data with
  | steps + 1, n0 :: n1 :: n2 :: n3 :: l0 :: l1 :: l2 :: l3 :: rest =>
    let length := (Wire.ofLe32 l0 l1 l2 l3).toNat
    match ChunkKind.ofName [n0, n1, n2, n3], format with
    | .format, _ => do
      let (format, rest) ← readFormat length rest
      walk steps (some format) rest
    | .fact, _ => do walk steps format (← skip 4 rest)
    | .data, some format => .ok (format, length, rest)
    | .data, none => .error (.illFormed "missing fmt chunk")
    | .other, _ => do walk steps format (← skip length rest)
  | _, _ => .error .truncated

/-- What is wrong with the length of the data. -/
def lengthFault (format : WavFormat) (length : Nat) : Option String :=
  let size := format.sampleBytes.toNat
  if length % size ≠ 0 then some "data chunk length is not a multiple of sample size"
  else if length / size % format.channels.toNat ≠ 0 then some "invalid data chunk length"
  else none

/-- Opens a file: the format, the length that the data should have, and the
    bytes that begin with them. -/
def openWav (data : Bytes) : Except Refusal (WavFormat × Nat × Bytes) := do
  if data.length < 4 then .error .truncated
  else if data.take 4 ≠ "RIFF".toUTF8.toList then .error (.illFormed "no RIFF tag found")
  else if data.length < 12 then .error .truncated
  else if (data.drop 8).take 4 ≠ "WAVE".toUTF8.toList then
    .error (.illFormed "no WAVE tag found")
  else
    let (format, length, rest) ← walk data.length none (data.drop 12)
    match lengthFault format length with
    | some reason => .error (.illFormed reason)
    | none => .ok (format, length, rest)

/-! ### The samples -/

/-- A floating-point sample as an integer: held between minus one and one,
    scaled, and cut towards zero. What is not a number is silence. -/
def ofSingle (x : Float32) : Int16 :=
  let held := if x < -1 then -1 else if x > 1 then 1 else x
  (held * 32767).toInt16

/-- Integer samples of two bytes. -/
def integerSamples : Bytes → List Int16
  | a :: b :: rest => (Wire.ofLe16 a b).toInt16 :: integerSamples rest
  | _ => []

/-- Floating-point samples of four bytes. -/
def floatSamples : Bytes → List Int16
  | a :: b :: c :: d :: rest => ofSingle (.ofBits (Wire.ofLe32 a b c d)) :: floatSamples rest
  | _ => []

/-- Reads the samples, given their width as it should be. Samples in wider
    containers are not read, unless there are none. -/
def readSamples (format : WavFormat) (length width : Nat) (data : Bytes)
    (read : Bytes → List Int16) : Except WavError (List Int16) :=
  if length = 0 then .ok []
  else if format.sampleBytes.toNat ≠ width then .error (.samples format.encoding .tooWide)
  else if data.length < length then .error (.samples format.encoding .truncated)
  else .ok (read (data.take length))

/-- What is told about a format. -/
def formatLine (format : WavFormat) : Log.Line :=
  let rate := format.rate
  let channels := format.channels
  let bits := format.bits
  ⟨.info, .senderAudio, s!"WAV format: {rate}Hz, {channels} channels, {bits} bits"⟩

/-- The audio in data of a known format. -/
def readData (format : WavFormat) (length : Nat) (data : Bytes) : Except WavError Pcm := do
  if format.rate.toNat ≠ sampleRate then .error (.rate format.rate)
  else
    let samples ← match format.encoding with
      | .integer =>
        if format.bits = 16 then readSamples format length 2 data integerSamples
        else .error (.encoding .integer format.bits)
      | .float =>
        if format.bits = 32 then readSamples format length 4 data floatSamples
        else .error (.encoding .float format.bits)
    return downmix format.channels.toNat samples

/-- The audio in a file. -/
def Pcm.ofWav (data : Bytes) : Except WavError Pcm :=
  match openWav data with
  | .error refusal => .error (.header refusal)
  | .ok (format, length, rest) => readData format length rest

/-- What is told about a file. -/
def wavLog (data : Bytes) : List Log.Line :=
  match openWav data with
  | .error _ => []
  | .ok (format, _, _) => [formatLine format]

end Audio

end RedundantAudio
