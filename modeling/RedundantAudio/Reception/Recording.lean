import RedundantAudio.Reception.Playout

/-!
# Recording What Was Played

Playout can be recorded to a WAV file of 48 kHz, one channel and 16 bits. The
samples come from a codec, so of the file this library knows its length only;
that is enough to say when writing fails.

A writer holds bytes back in a buffer and hands the buffer over when the next
bytes do not fit. A file that refuses every write therefore goes unnoticed
until the header and the samples outgrow the buffer, or until the file is
finished, whichever comes first. Whatever happens to the frame in question
after the failing sample does not happen at all, so `heard` cuts the events of
playout off at that point.

## Main definitions

* `Medium`: How a file takes what is written to it.
* `Recording`: A file being written.
* `Recording.heard`: The events that happen before writing fails.
* `Recording.write`: Writes the slots that were played.
* `Recording.finish`: Finishes the file.
-/

namespace RedundantAudio

namespace Reception

/-- How a file takes what is written to it. -/
inductive Medium
  /-- It takes everything. -/
  | sound
  /-- It refuses everything. -/
  | full
  deriving DecidableEq, Repr

/-- Why a recording fails. -/
inductive RecordingError
  /-- The file cannot be created. -/
  | creating (path : String)
  /-- A sample cannot be written. -/
  | writing
  /-- The header cannot be completed. -/
  | finishing
  deriving DecidableEq, Repr

/-- The wording of each failure. -/
def RecordingError.message : RecordingError → String
  | creating path => s!"failed to create WAV file: {path}"
  | writing => "failed to write WAV sample"
  | finishing => "failed to finalize WAV file"

/-- A file being written. -/
structure Recording where
  /-- How the file takes what is written to it. -/
  medium : Medium := .sound
  /-- Samples written so far. -/
  samples : Nat := 0
  deriving DecidableEq, Repr

namespace Recording

/-- Bytes in the header of the file. -/
def headerBytes : Nat := 44

/-- Bytes in one sample. -/
def sampleBytes : Nat := 2

/-- Bytes that the writer holds back. -/
def bufferBytes : Nat := 8192

/-- Whether a file of so many samples can be written without an error. -/
def accepts (r : Recording) (samples : Nat) : Bool :=
  match r.medium with
  | .sound => true
  | .full => headerBytes + sampleBytes * samples ≤ bufferBytes

/-- The number of samples that an event adds. -/
def added (event : Event) : Nat :=
  match event.played? with
  | some slot => slot.samples
  | none => 0

/-- The events that happen before writing fails; all of them if it does
    not. -/
def heard (r : Recording) : List Event → List Event
  | [] => []
  | event :: events =>
    let samples := r.samples + added event
    if r.accepts samples then event :: heard { r with samples } events else []

/-- The number of samples in a run of events. -/
def samplesIn (events : List Event) : Nat :=
  Wire.total (events.map added)

/-- Writes the slots that were played. -/
def write (r : Recording) (events : List Event) : Except RecordingError Recording :=
  let samples := r.samples + samplesIn events
  if r.accepts samples then .ok { r with samples } else .error .writing

/-- Finishes the file, which goes back to its header. The samples in it are
    counted. -/
def finish (r : Recording) : Except RecordingError Nat :=
  match r.medium with
  | .sound => .ok r.samples
  | .full => .error .finishing

/-- What is told about a file that was created. -/
def createdLine (path : String) : Log.Line :=
  ⟨.info, .receiverPlayout, s!"Writing decoded audio to {path}"⟩

end Recording

end Reception

end RedundantAudio
