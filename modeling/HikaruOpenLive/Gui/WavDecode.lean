import Mathlib.Algebra.Order.Floor.Semiring
import Mathlib.Algebra.Order.Field.Basic
import Mathlib.Data.Rat.Floor

/-! # Decoded files at the rate of the engine

What a sound file holds once it is decoded, and the linear resampling it goes through when its rate is
more than one hertz away from the rate asked for.
-/
set_option autoImplicit false

namespace HikaruOpenLive.Gui

structure WavData where
  samples : List ℚ
  fileSr : ℚ
  channels : ℕ

/-- The files of the disk, as far as they can be decoded. -/
abbrev Files :=
  String → Option WavData

/-- One output sample: between two input frames, the second of them at most the last. -/
def interpolate (samples : List ℚ) (channels inputFrames : ℕ) (inputPos : ℚ) (ch : ℕ) : ℚ :=
  let idx0 := ⌊inputPos⌋₊
  let idx1 := min (idx0 + 1) (inputFrames - 1)
  let t := inputPos - idx0
  let s0 := samples.getD (idx0 * channels + ch) 0
  let s1 := samples.getD (idx1 * channels + ch) 0
  s0 + t * (s1 - s0)

def outputFrames (samples : List ℚ) (channels : ℕ) (ratio : ℚ) : ℕ :=
  ⌊((samples.length / channels : ℕ) : ℚ) / ratio⌋₊

def resampleLinear (samples : List ℚ) (channels : ℕ) (fromSr toSr : ℚ) : List ℚ :=
  if samples = [] ∨ channels = 0 then []
  else
    (List.range (outputFrames samples channels (fromSr / toSr))).flatMap fun frame =>
      (List.range channels).map fun ch =>
        interpolate samples channels (samples.length / channels) (frame * (fromSr / toSr)) ch

/-- The samples of a file to be played at the rate `targetSr`. -/
def WavData.atRate (data : WavData) (targetSr : ℚ) : List ℚ :=
  if 1 < |data.fileSr - targetSr| then
    resampleLinear data.samples data.channels data.fileSr targetSr
  else data.samples

/-- No output sample reads past the end of the input. -/
theorem resampleLinear_reads {samples : List ℚ} {channels : ℕ} {ratio : ℚ} (hratio : 0 < ratio)
    {frame : ℕ} (hframe : frame < outputFrames samples channels ratio) {ch : ℕ}
    (hch : ch < channels) :
    ⌊(frame : ℚ) * ratio⌋₊ * channels + ch < samples.length ∧
      min (⌊(frame : ℚ) * ratio⌋₊ + 1) (samples.length / channels - 1) * channels + ch <
        samples.length := by
  have hread : ∀ {idx : ℕ}, idx < samples.length / channels →
      idx * channels + ch < samples.length := by
    intro idx hidx
    calc idx * channels + ch < idx * channels + channels := Nat.add_lt_add_left hch _
      _ = (idx + 1) * channels := (Nat.succ_mul idx channels).symm
      _ ≤ samples.length / channels * channels := Nat.mul_le_mul_right _ hidx
      _ ≤ samples.length := Nat.div_mul_le_self _ _
  have hpos : ⌊(frame : ℚ) * ratio⌋₊ < samples.length / channels := by
    have hsucc : ((frame + 1 : ℕ) : ℚ) ≤ ((samples.length / channels : ℕ) : ℚ) / ratio :=
      (Nat.le_floor_iff (div_nonneg (Nat.cast_nonneg _) hratio.le)).mp hframe
    have hlt : (frame : ℚ) < ((samples.length / channels : ℕ) : ℚ) / ratio :=
      lt_of_lt_of_le (Nat.cast_lt.mpr (Nat.lt_succ_self frame)) hsucc
    exact (Nat.floor_lt (mul_nonneg (Nat.cast_nonneg _) hratio.le)).mpr ((lt_div_iff₀ hratio).mp hlt)
  refine ⟨hread hpos, hread ?_⟩
  exact lt_of_le_of_lt (min_le_right _ _) (Nat.sub_lt (Nat.zero_lt_of_lt hpos) Nat.one_pos)

theorem length_resampleLinear {samples : List ℚ} {channels : ℕ} (hsamples : samples ≠ [])
    (hchannels : channels ≠ 0) (fromSr toSr : ℚ) :
    (resampleLinear samples channels fromSr toSr).length =
      outputFrames samples channels (fromSr / toSr) * channels := by
  rw [resampleLinear, if_neg (not_or.mpr ⟨hsamples, hchannels⟩), List.length_flatMap]
  simp

example : resampleLinear [0, 1, 2, 3] 1 2 4 = [0, 1 / 2, 1, 3 / 2, 2, 5 / 2, 3, 3] := by
  decide +kernel

end HikaruOpenLive.Gui
