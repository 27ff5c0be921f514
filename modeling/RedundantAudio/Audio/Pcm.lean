import RedundantAudio.Decimal.Binary
import RedundantAudio.Opus.Codec

/-!
# Plain Audio

Audio before it is encoded: signed samples of 16 bits, at 48 kHz and one
channel. An encoder takes it in frames of 20 ms, so the last frame is filled
up with silence. Audio of several channels is mixed down by averaging the
samples of each instant.

An average of samples lies between the least and the greatest of them, so
mixing down can neither overflow nor clip, whatever the number of channels.

## Main definitions

* `Pcm`: Plain audio.
* `Pcm.frames`: The audio in frames.
* `Pcm.seconds`: How long it is.
* `downmix`: One channel out of several.
-/

namespace RedundantAudio

namespace Audio

/-- Samples in a second. -/
def sampleRate : Nat := 48000

/-- Plain audio of one channel. -/
abbrev Pcm := List Int16

namespace Pcm

/-- Fills a frame up with silence. -/
def fill (frame : Pcm) : Pcm :=
  frame ++ List.replicate (Opus.frameSamples - frame.length) 0

/-- The audio in frames of equal length, the last one filled up with
    silence. -/
def frames (samples : Pcm) : List Pcm :=
  match samples with
  | [] => []
  | first :: rest =>
    fill ((first :: rest).take Opus.frameSamples) :: frames ((first :: rest).drop Opus.frameSamples)
termination_by samples.length
decreasing_by simp only [List.length_drop, List.length_cons, Opus.frameSamples]; omega

/-- The number of frames. -/
def frameCount (samples : Pcm) : Nat :=
  (samples.length + (Opus.frameSamples - 1)) / Opus.frameSamples

/-- How long the audio is, in seconds. -/
def seconds (samples : Pcm) : Float :=
  Decimal.ofNat samples.length / Decimal.ofNat sampleRate

/-- So many samples of silence. -/
def silence (count : Nat) : Pcm :=
  List.replicate count 0

end Pcm

/-- What samples add up to. -/
def total : List Int16 → Int
  | [] => 0
  | sample :: samples => sample.toInt + total samples

/-- The average of several samples, cut towards zero. -/
def average (samples : List Int16) : Int16 :=
  .ofInt ((total samples).tdiv samples.length)

/-- The average of each group of so many samples. The last group may be
    shorter. -/
def averages (channels : Nat) (samples : List Int16) : Pcm :=
  match samples with
  | [] => []
  | first :: rest =>
    average (first :: rest.take (channels - 1)) :: averages channels (rest.drop (channels - 1))
termination_by samples.length
decreasing_by simp only [List.length_drop, List.length_cons]; omega

/-- One channel out of several, whose samples take turns. -/
def downmix (channels : Nat) (samples : List Int16) : Pcm :=
  if channels ≤ 1 then samples else averages channels samples

end Audio

end RedundantAudio
