import RedundantAudio.Audio.Pcm

/-!
# A Test Tone

A sine wave, for when there is nothing better to send. It is computed in
single precision from start to end, and so is the number of samples, which is
why a tone of a given length can be a sample longer or shorter than the exact
product would be.

## Main definitions

* `tone`: The samples of a sine wave.
-/

namespace RedundantAudio

namespace Audio

/-- The number of samples in a second, in single precision. -/
def singleRate : Float32 :=
  sampleRate.toFloat32

/-- The single nearest to half a turn. -/
def halfTurn : Float32 :=
  .ofBits 0x40490FDB

/-- The highest point of the wave. -/
def toneAmplitude : Float32 := 12000

/-- The sine in single precision, rounded once from double precision. -/
def singleSin (x : Float32) : Float32 :=
  x.toFloat.sin.toFloat32

/-- One sample of a sine wave. -/
def toneSample (frequency : Float32) (index : Nat) : Int16 :=
  let time := index.toUInt64.toFloat32 / singleRate
  (singleSin (time * 2 * halfTurn * frequency) * toneAmplitude).toInt16

/-- The number of samples in a stretch of time. A negative one has none, and
    neither has one that is not a number. -/
def toneLength (seconds : Float32) : Nat :=
  (singleRate * seconds).toUInt64.toNat

/-- The samples of a sine wave. -/
def tone (frequency seconds : Float32) : Pcm :=
  (List.range (toneLength seconds)).map (toneSample frequency)

end Audio

end RedundantAudio
