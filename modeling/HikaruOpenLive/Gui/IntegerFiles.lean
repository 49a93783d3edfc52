import HikaruOpenLive.Foundations.BlockSplit
import HikaruOpenLive.Gui.WavFile

/-! # Integer files and their samples

An integer of `b` bits is a sample of full scale `2 ^ (b - 1)`. The command thread loads clips, syncs
the playlist and decodes previews with one divisor, and the pads decode with another; `decodes_iff` says
of which files both get the samples. Whatever was decoded is resampled by linear interpolation, without
a read past the last frame.
-/
set_option autoImplicit false

namespace HikaruOpenLive.Gui

open Foundations.BlockSplit

/-! ## Linear interpolation -/

/-- The value at `pos` of the line through the frames around it, the last frame being held. -/
def linearAt (value : ℕ → ℚ) (frames : ℕ) (pos : ℚ) : ℚ :=
  (1 - Int.fract pos) * value ⌊pos⌋₊ + Int.fract pos * value (min (⌊pos⌋₊ + 1) (frames - 1))

/-- Samples of so many channels and frames, resampled: the frames are counted by the quotient of the
rates, each is interpolated where it falls in the input, and no frame behind the last is read. -/
structure Resampled (samples : List ℚ) (channels frames : ℕ) (fromSr toSr : ℚ) : Prop where
  length : (resampleLinear samples channels fromSr toSr).length = ⌊frames * toSr / fromSr⌋₊ * channels
  sample : ∀ k < ⌊frames * toSr / fromSr⌋₊, ∀ ch < channels,
    (resampleLinear samples channels fromSr toSr)[k * channels + ch]? =
      some (linearAt (fun i => samples.getD (i * channels + ch) 0) frames (k * fromSr / toSr))
  reads : ∀ k < ⌊frames * toSr / fromSr⌋₊, ⌊k * fromSr / toSr⌋₊ < frames ∧
    min (⌊k * fromSr / toSr⌋₊ + 1) (frames - 1) < frames

section

variable {samples : List ℚ} {channels frames : ℕ} {fromSr toSr : ℚ}

theorem resampleLinear_eq (hnil : samples ≠ []) (hpos : 0 < channels) :
    resampleLinear samples channels fromSr toSr =
      (List.range (outputFrames samples channels (fromSr / toSr))).flatMap fun k : ℕ =>
        (List.range channels).map fun ch =>
          interpolate samples channels (samples.length / channels) (k * (fromSr / toSr)) ch := by
  rw [resampleLinear, if_neg (not_or.mpr ⟨hnil, hpos.ne'⟩)]
  simp only [List.bind_eq_flatMap, List.pure_def, List.flatMap_assoc, List.flatMap_singleton]

theorem interpolate_eq (hpos : 0 < channels) (hlength : samples.length = channels * frames) {pos : ℚ}
    (hle : 0 ≤ pos) (ch : ℕ) :
    interpolate samples channels (samples.length / channels) pos ch =
      linearAt (fun i => samples.getD (i * channels + ch) 0) frames pos := by
  have hframes : samples.length / channels = frames := by
    rw [hlength, Nat.mul_div_cancel_left _ hpos]
  have hfract : Int.fract pos = pos - (⌊pos⌋₊ : ℚ) := by
    rw [natCast_floor_eq_intCast_floor hle]
    rfl
  unfold interpolate linearAt
  rw [hframes, hfract]
  ring

/-- The output frames of whole frames are those of the quotient of the rates. -/
theorem outputFrames_eq (hpos : 0 < channels) (hlength : samples.length = channels * frames) :
    outputFrames samples channels (fromSr / toSr) = ⌊frames * toSr / fromSr⌋₊ := by
  unfold outputFrames
  rw [hlength, Nat.mul_div_cancel_left _ hpos, div_div_eq_mul_div]

theorem resampled (hpos : 0 < channels) (hlength : samples.length = channels * frames)
    (hfrom : 0 < fromSr) (hto : 0 < toSr) : Resampled samples channels frames fromSr toSr := by
  have hratio : 0 < fromSr / toSr := div_pos hfrom hto
  have hout : outputFrames samples channels (fromSr / toSr) = ⌊frames * toSr / fromSr⌋₊ :=
    outputFrames_eq hpos hlength
  have hreads : ∀ k < ⌊frames * toSr / fromSr⌋₊, ⌊k * fromSr / toSr⌋₊ < frames := by
    intro k hk
    obtain ⟨hread, -⟩ := resampleLinear_reads hratio (hout ▸ hk) hpos
    rw [← mul_div_assoc, hlength, Nat.add_zero, Nat.mul_comm channels] at hread
    exact Nat.lt_of_mul_lt_mul_right hread
  by_cases hnil : samples = []
  · have hframes : frames = 0 := by
      rw [hnil, List.length_nil, eq_comm, Nat.mul_eq_zero] at hlength
      exact hlength.resolve_left hpos.ne'
    subst hframes
    have hzero : ⌊((0 : ℕ) : ℚ) * toSr / fromSr⌋₊ = 0 := by simp
    have hnone (k : ℕ) : ¬ k < ⌊((0 : ℕ) : ℚ) * toSr / fromSr⌋₊ := by
      rw [hzero]
      exact Nat.not_lt_zero k
    refine ⟨?_, fun k hk => absurd hk (hnone k), fun k hk => absurd hk (hnone k)⟩
    rw [hzero, hnil, resampleLinear, if_pos (.inl rfl)]
    simp
  · refine ⟨?_, ?_, ?_⟩
    · rw [length_resampleLinear hnil hpos.ne', hout]
    · intro k hk ch hch
      have hle : (0 : ℚ) ≤ k * fromSr / toSr := by positivity
      rw [resampleLinear_eq hnil hpos, hout,
        getElem?_flatMap_range (by simp) hk hch, List.getElem?_map, List.getElem?_range hch,
        Option.map_some, ← mul_div_assoc, interpolate_eq hpos hlength hle]
    · intro k hk
      have hread := hreads k hk
      refine ⟨hread, lt_of_le_of_lt (min_le_right _ _) ?_⟩
      omega

end

/-! ## Files of integers -/

/-- A file of integers as the reader returns it: whole frames, and every integer of the width. -/
structure IntegerFile where
  bits : ℕ
  channels : ℕ
  frames : ℕ
  sampleRate : ℕ
  values : List ℤ
  bits_mem : 8 ≤ bits ∧ bits ≤ 32
  channels_pos : 0 < channels
  length_values : values.length = channels * frames
  values_mem : ∀ v ∈ values, -2 ^ (bits - 1) ≤ v ∧ v < 2 ^ (bits - 1)

/-- The file of a preview, decoded. A clip that is loaded, into a pad or into the playlist, is decoded in
place by the same lines. -/
def decodeWav (disk : Disk) (path : String) : Option WavData :=
  disk.files path

namespace IntegerFile

variable (s : IntegerFile)

def file : WavFile :=
  ⟨.int s.bits s.values, s.channels, s.sampleRate⟩

/-- The integers in full scale. -/
def fullScaled : List ℚ :=
  s.values.map fun v : ℤ => (v : ℚ) / 2 ^ (s.bits - 1)

/-- Every decoder gives the samples of the file: the command thread, and the pads, which give nothing for
a file without any. -/
structure Decodes (disk : Disk) (path : String) : Prop where
  command : (decodeWav disk path).map WavData.samples = some s.fullScaled
  pads : ((decodeAudioFile disk path).map Prod.fst).getD [] = s.fullScaled
  range : ∀ x ∈ s.fullScaled, -1 ≤ x ∧ x < 1
  length : s.fullScaled.length = s.channels * s.frames
  resampled : ∀ fromSr toSr : ℚ, 0 < fromSr → 0 < toSr →
    Resampled s.fullScaled s.channels s.frames fromSr toSr

/-- Below 32 bits the shift is the full scale; at 32 it is the full scale with the other sign. -/
theorem shiftedOne_eq {bits : ℕ} (h : bits ≤ 32) :
    shiftedOne bits = if bits = 32 then -2 ^ 31 else 2 ^ (bits - 1) := by
  have hall : ∀ bits < 33, shiftedOne bits = if bits = 32 then -2 ^ 31 else 2 ^ (bits - 1) := by
    decide +kernel
  exact hall bits (by omega)

theorem shiftedOne_eq_full_iff : shiftedOne s.bits = 2 ^ (s.bits - 1) ↔ s.bits < 32 := by
  have hbits := s.bits_mem.2
  rw [shiftedOne_eq hbits]
  split
  next h =>
    rw [h]
    norm_num
  next h => exact iff_of_true rfl (by omega)

theorem padDivisor_eq_full_iff : padDivisor s.bits = 2 ^ (s.bits - 1) ↔ 16 < s.bits ∧ s.bits < 32 := by
  unfold padDivisor
  split
  next h =>
    refine iff_of_false ?_ (by omega)
    have hall : ∀ bits < 17, (32767 : ℚ) ≠ 2 ^ (bits - 1) := by decide +kernel
    exact hall s.bits (by omega)
  next h =>
    rw [shiftedOne_eq_full_iff]
    omega

/-- A decoder gives the samples when its divisor is the full scale, and of silence with every divisor. -/
theorem scaled_eq_iff {divisor : ℕ → ℚ} :
    s.file.scaled divisor = s.fullScaled ↔
      divisor s.bits = 2 ^ (s.bits - 1) ∨ ∀ v ∈ s.values, v = 0 := by
  unfold WavFile.scaled fullScaled file
  rw [List.map_inj_left]
  constructor
  · intro h
    by_cases hdivisor : divisor s.bits = 2 ^ (s.bits - 1)
    · exact .inl hdivisor
    · refine .inr fun v hv => ?_
      by_contra hne
      have hquot := h v hv
      rw [div_eq_mul_inv, div_eq_mul_inv] at hquot
      exact hdivisor (inv_injective (mul_left_cancel₀ (Int.cast_ne_zero.mpr hne) hquot))
  · rintro (hdivisor | hsilent) v hv
    · rw [hdivisor]
    · rw [hsilent v hv]
      simp

theorem range_fullScaled {x : ℚ} (h : x ∈ s.fullScaled) : -1 ≤ x ∧ x < 1 := by
  obtain ⟨v, hv, rfl⟩ := List.mem_map.mp h
  have hscale : (0 : ℚ) < 2 ^ (s.bits - 1) := by positivity
  obtain ⟨hlo, hhi⟩ := s.values_mem v hv
  constructor
  · rw [le_div_iff₀ hscale, neg_one_mul]
    exact_mod_cast hlo
  · rw [div_lt_one hscale]
    exact_mod_cast hhi

theorem length_fullScaled : s.fullScaled.length = s.channels * s.frames := by
  rw [fullScaled, List.length_map, s.length_values]

theorem command_samples {disk : Disk} {path : String} (hdisk : disk path = some s.file) :
    (decodeWav disk path).map WavData.samples = some (s.file.scaled shiftedOne) := by
  rw [decodeWav, Disk.files, hdisk]
  rfl

theorem pad_samples {disk : Disk} {path : String} (hdisk : disk path = some s.file) :
    ((decodeAudioFile disk path).map Prod.fst).getD [] = s.file.scaled padDivisor := by
  unfold decodeAudioFile
  rw [hdisk, Option.bind_some]
  by_cases hnil : s.file.scaled padDivisor = []
  · rw [if_pos hnil, hnil]
    rfl
  · rw [if_neg hnil]
    rfl

/-- All decoders give the samples of a file exactly when it has more than 16 and less than 32 bits, or
is silent. -/
theorem decodes_iff {disk : Disk} {path : String} (hdisk : disk path = some s.file) :
    s.Decodes disk path ↔ (16 < s.bits ∧ s.bits < 32) ∨ ∀ v ∈ s.values, v = 0 := by
  have hcommand : (decodeWav disk path).map WavData.samples = some s.fullScaled ↔
      s.bits < 32 ∨ ∀ v ∈ s.values, v = 0 := by
    rw [s.command_samples hdisk, Option.some_inj, scaled_eq_iff, shiftedOne_eq_full_iff]
  have hpads : ((decodeAudioFile disk path).map Prod.fst).getD [] = s.fullScaled ↔
      (16 < s.bits ∧ s.bits < 32) ∨ ∀ v ∈ s.values, v = 0 := by
    rw [s.pad_samples hdisk, scaled_eq_iff, padDivisor_eq_full_iff]
  constructor
  · exact fun h => hpads.mp h.pads
  · intro h
    exact ⟨hcommand.mpr (h.imp_left And.right), hpads.mpr h, fun x hx => s.range_fullScaled hx,
      s.length_fullScaled, fun _ _ hfrom hto => Gui.resampled s.channels_pos s.length_fullScaled hfrom hto⟩

/-- Two stereo frames of 24 bits, at either end of the range. -/
def stereo24 : IntegerFile where
  bits := 24
  channels := 2
  frames := 2
  sampleRate := 44100
  values := [-8388608, 8388607, 0, 1]
  bits_mem := by decide
  channels_pos := by decide
  length_values := rfl
  values_mem := by decide

theorem decodes_iff_stereo24 : stereo24.Decodes (fun _ => some stereo24.file) "kick.wav" :=
  (stereo24.decodes_iff rfl).mpr (.inl (by decide))

/-- The least integers of 16 and of 32 bits: the pads read the one below the range of samples, and the
command thread turns the other over. -/
theorem divisors_differ :
    (decodeAudioFile (fun _ => some ⟨.int 16 [-32768], 1, 44100⟩) "kick.wav").map Prod.fst =
        some [-32768 / 32767] ∧
      (decodeWav (fun _ => some ⟨.int 16 [-32768], 1, 44100⟩) "kick.wav").map WavData.samples = some [-1] ∧
      (decodeWav (fun _ => some ⟨.int 32 [-2147483648], 1, 44100⟩) "kick.wav").map WavData.samples =
        some [1] := by
  decide +kernel

end IntegerFile

end HikaruOpenLive.Gui
