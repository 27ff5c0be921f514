import RedundantAudio.Audio.Pcm

/-!
# The Frames of Some Audio

Audio is cut into frames by taking one off the front at a time. That is the
same as looking up each frame by its number: it begins after so many whole
frames, and has whatever samples are left, filled up with silence. There are as
many as the number of samples divided by the length of a frame, rounded up, and
each of them is of full length.

## Main definitions

* `Pcm.frameAt`: The frame of a number.

## Theorems

* `Pcm.length_frameAt`: Every frame is of full length.
* `Pcm.frames_eq`: The frames in order.
-/

namespace RedundantAudio

namespace Audio

namespace Pcm

/-- The frame of a number, counted from zero. -/
def frameAt (samples : Pcm) (n : Nat) : Pcm :=
  fill ((samples.drop (960 * n)).take 960)

@[simp]
theorem length_frameAt (samples : Pcm) (n : Nat) : (samples.frameAt n).length = 960 := by
  have hle : ((samples.drop (960 * n)).take 960).length ≤ 960 := List.length_take_le _ _
  rw [frameAt, fill, List.length_append, List.length_replicate]
  change _ + (960 - _) = 960
  omega

theorem frameCount_eq (samples : Pcm) : samples.frameCount = (samples.length + 959) / 960 :=
  rfl

theorem frameCount_drop (samples : Pcm) (h : samples ≠ []) :
    samples.frameCount = frameCount (samples.drop 960) + 1 := by
  have hpos := List.length_pos_iff.mpr h
  rw [frameCount_eq, frameCount_eq, List.length_drop]
  omega

theorem frameAt_succ (samples : Pcm) (n : Nat) :
    samples.frameAt (n + 1) = frameAt (samples.drop 960) n := by
  rw [frameAt, frameAt, List.drop_drop, Nat.mul_succ, Nat.add_comm]

/-- Cutting frames off the front one by one gives the frames by their numbers. -/
theorem frames_eq (samples : Pcm) :
    samples.frames = (List.range samples.frameCount).map samples.frameAt := by
  induction samples using frames.induct with
  | case1 => rw [frames]; rfl
  | case2 first rest ih =>
      rw [frames, ih, frameCount_drop _ (List.cons_ne_nil first rest), List.range_succ_eq_map,
        List.map_cons, List.map_map]
      congr 1
      exact List.map_congr_left fun n _ => (frameAt_succ _ n).symm

end Pcm

end Audio

end RedundantAudio
