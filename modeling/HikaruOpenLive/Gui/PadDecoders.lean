import HikaruOpenLive.Engine.WholeLoops
import HikaruOpenLive.Gui.PadDrops

/-! # A file decoded twice

The command thread decodes a whole file, the pads decode it again for an event, and both are resampled to
the rate of the engine. The event has the whole frames of the file, each sample scaled by the quotient of
the two divisors, which is one for floats and for integers of more than 16 bits.
-/
set_option autoImplicit false

namespace HikaruOpenLive.Gui

open Engine

/-! ## Resampling scaled samples -/

/-- Samples that are those of a file scaled, over the whole frames of the file, are resampled to the file
resampled and scaled. -/
theorem resampleLinear_scaled {xs ys : List ℚ} {channels : ℕ} {κ : ℚ}
    (hframes : ys.length / channels = xs.length / channels)
    (hscale : ∀ i < ys.length, ys.getD i 0 = κ * xs.getD i 0) (hempty : ys = [] → xs.length < channels)
    (hxs : xs ≠ []) (fromSr toSr : ℚ) :
    resampleLinear ys channels fromSr toSr =
      (resampleLinear xs channels fromSr toSr).map fun x => κ * x := by
  have hout : outputFrames ys channels (fromSr / toSr) = outputFrames xs channels (fromSr / toSr) := by
    unfold outputFrames
    rw [hframes]
  unfold resampleLinear
  by_cases hnil : ys = []
  · -- less than a frame
    have hzero : xs.length / channels = 0 := Nat.div_eq_of_lt (hempty hnil)
    have hnone : outputFrames xs channels (fromSr / toSr) = 0 := by
      unfold outputFrames
      rw [hzero, Nat.cast_zero, zero_div, Nat.floor_zero]
    rw [if_pos (Or.inl hnil), hnone]
    split <;> rfl
  · by_cases hchannels : channels = 0
    · rw [if_pos (Or.inr hchannels), if_pos (Or.inr hchannels)]
      rfl
    · rw [if_neg (not_or.mpr ⟨hnil, hchannels⟩), if_neg (not_or.mpr ⟨hxs, hchannels⟩), hout,
        List.map_flatMap]
      refine List.flatMap_congr fun frame hframe => ?_
      rw [List.map_map]
      refine List.map_congr_left fun ch hch => ?_
      obtain ⟨index, hindex, rfl⟩ : ∃ index < outputFrames ys channels (fromSr / toSr),
          frame = (index : ℚ) := by
        rw [hout]
        simpa using hframe
      have hratio : 0 < fromSr / toSr := by
        by_contra hnot
        have hnone : outputFrames ys channels (fromSr / toSr) = 0 :=
          Nat.floor_of_nonpos (div_nonpos_of_nonneg_of_nonpos (Nat.cast_nonneg _) (not_lt.mp hnot))
        omega
      obtain ⟨hread, hread'⟩ := resampleLinear_reads hratio hindex (List.mem_range.mp hch)
      rw [hframes] at hread'
      simp only [Function.comp, interpolate, hframes, hscale _ hread, hscale _ hread']
      ring

namespace WavFile

/-! ## Two decoders -/

/-- A file that can be read: it has channels, a rate, and integers of at most 32 bits. -/
structure WellFormed (w : WavFile) : Prop where
  channels : 0 < w.channels
  rate : 0 < w.sampleRate
  width : ∀ bits samples, w.samples = .int bits samples → bits ≤ 32

/-- By what the pads' samples differ from those of the command thread. -/
def padScale (w : WavFile) : ℚ :=
  match w.samples with
  | .int bits _ => shiftedOne bits / padDivisor bits
  | .float _ => 1

/-- Floats, or integers of more than 16 bits. -/
def wide (w : WavFile) : Bool :=
  match w.samples with
  | .int bits _ => decide (16 < bits)
  | .float _ => true

theorem shiftedOne_ne_zero {bits : ℕ} (h : bits ≤ 32) : shiftedOne bits ≠ 0 := by
  have hall : ∀ bits < 33, shiftedOne bits ≠ 0 := by decide +kernel
  exact hall bits (by omega)

theorem shiftedOne_ne_max {bits : ℕ} (h : bits ≤ 16) : shiftedOne bits ≠ 32767 := by
  have hall : ∀ bits < 17, shiftedOne bits ≠ 32767 := by decide +kernel
  exact hall bits (by omega)

theorem padScale_eq_one_iff {w : WavFile} (h : w.WellFormed) : w.padScale = 1 ↔ w.wide = true := by
  unfold padScale wide
  cases hsamples : w.samples with
  | float samples => simp
  | int bits samples =>
    have hne := shiftedOne_ne_zero (h.width bits samples hsamples)
    unfold padDivisor
    by_cases hbits : bits ≤ 16
    · have hnot : ¬ 16 < bits := by omega
      simp only [if_pos hbits, hnot, decide_false, Bool.false_eq_true, iff_false]
      intro heq
      exact shiftedOne_ne_max hbits ((div_eq_one_iff_eq (by norm_num)).mp heq)
    · have hwide : 16 < bits := by omega
      simp only [if_neg hbits, hwide, decide_true, iff_true]
      exact div_self hne

theorem scaled_pad {w : WavFile} (h : w.WellFormed) :
    w.scaled padDivisor = (w.scaled shiftedOne).map fun x => w.padScale * x := by
  unfold scaled padScale
  cases hsamples : w.samples with
  | float samples => simp
  | int bits samples =>
    have hne := shiftedOne_ne_zero (h.width bits samples hsamples)
    simp only [List.map_map]
    refine List.map_congr_left fun s _ => ?_
    simp only [Function.comp]
    rw [div_mul_div_comm, mul_comm (shiftedOne bits), mul_div_mul_right _ _ hne]

/-- The event of a file is sent with the whole frames of it. -/
theorem payload_whole {disk : Disk} {w : WavFile} (hw : w.WellFormed) {path : String}
    (hdisk : disk path = some w) {id : ℕ} {e : AudioEvent} (he : wholeFile disk id path 0 = some e) :
    0 < w.count ∧ e.payload =
      { id := id, samples := (w.scaled padDivisor).take (w.count / w.channels * w.channels)
        channels := w.channels, clipStartSecs := 0, sampleRate := w.sampleRate, gain := 1
        fadeInSecs := 0, fadeOutSecs := 0 } := by
  obtain ⟨decoded, hdecode, rfl⟩ := Option.map_eq_some_iff.mp he
  obtain ⟨w', hw', hne⟩ := Option.bind_eq_some_iff.mp hdecode
  have hsame : w' = w := Option.some.inj (hw'.symm.trans hdisk)
  subst hsame
  split at hne
  · exact absurd hne (by simp)
  · rename_i hnil
    rw [← Option.some.inj hne]
    have hch : max w'.channels 1 = w'.channels := max_eq_left hw.channels
    have hle := Nat.div_mul_le_self w'.count w'.channels
    constructor
    · rw [← w'.length_scaled padDivisor]
      exact List.length_pos_iff.mpr hnil
    · simp only [AudioEvent.payload, AudioEvent.windowSamples, AudioEvent.newFull, AudioEvent.frames,
        AudioEvent.totalFrames, length_scaled, hch, Nat.zero_mul, Nat.zero_min, Nat.zero_add,
        Nat.sub_zero, min_self, List.drop_zero, min_eq_left hle]

theorem getD_take_scaled (xs : List ℚ) (κ : ℚ) {m i : ℕ} (hi : i < ((xs.map fun x => κ * x).take m).length) :
    ((xs.map fun x => κ * x).take m).getD i 0 = κ * xs.getD i 0 := by
  have hm : i < m := lt_of_lt_of_le hi (List.length_take_le _ _)
  rw [List.getD_eq_getElem?_getD, List.getElem?_take_of_lt hm, List.getElem?_map,
    List.getD_eq_getElem?_getD]
  cases xs[i]? with
  | none => simp
  | some x => rfl

/-- The event of a file in the engine: the whole frames of what the command thread decodes, scaled. -/
theorem event_samples {disk : Disk} {w : WavFile} (hw : w.WellFormed) {path : String}
    (hdisk : disk path = some w) {id : ℕ} {e : AudioEvent} (he : wholeFile disk id path 0 = some e)
    (sr : ℚ) :
    (e.payload.atRate sr).Plain ∧ (e.payload.atRate sr).channels = w.channels ∧
      (e.payload.atRate sr).samples =
        ((w.decoded.atRate sr).take ((w.decoded.atRate sr).length / w.channels * w.channels)).map
          fun x => w.padScale * x := by
  obtain ⟨hcount, hpayload⟩ := payload_whole hw hdisk he
  have hch := hw.channels
  rw [hpayload]
  refine ⟨⟨?_, rfl, ?_, ?_⟩, rfl, ?_⟩
  · simp [EngineEventData.atRate]
  · simp [EngineEventData.atRate]
  · simp [EngineEventData.atRate]
  · let xs := w.scaled shiftedOne
    have hlen : xs.length = w.count := w.length_scaled shiftedOne
    have hxs : xs ≠ [] := by
      rw [← List.length_pos_iff, hlen]
      exact hcount
    have hys : w.scaled padDivisor = xs.map fun x => w.padScale * x := scaled_pad hw
    unfold EngineEventData.atRate WavData.atRate
    simp only [lt_irrefl, if_false, Nat.zero_mul, List.drop_zero, hw.rate, true_and, hys]
    by_cases hfar : 1 < |(w.sampleRate : ℚ) - sr|
    · have hfar' : 1 < |w.decoded.fileSr - sr| := hfar
      rw [if_pos hfar, if_pos hfar']
      have hwhole : (resampleLinear xs w.channels w.sampleRate sr).length / w.channels * w.channels =
          (resampleLinear xs w.channels w.sampleRate sr).length := by
        rw [length_resampleLinear hxs hch.ne', Nat.mul_div_cancel _ hch]
      let ys := (xs.map fun x => w.padScale * x).take (w.count / w.channels * w.channels)
      have hwindow : ys.length = w.count / w.channels * w.channels := by
        rw [List.length_take, List.length_map, hlen]
        exact min_eq_left (Nat.div_mul_le_self _ _)
      have hframes : ys.length / w.channels = xs.length / w.channels := by
        rw [hwindow, hlen, Nat.mul_div_cancel _ hch]
      have hempty : ys = [] → xs.length < w.channels := by
        intro hnil
        rw [← List.length_eq_zero_iff, hwindow] at hnil
        have hzero := (Nat.mul_eq_zero.mp hnil).resolve_right hch.ne'
        rw [hlen]
        exact (Nat.div_eq_zero_iff.mp hzero).resolve_left hch.ne'
      have htake : (resampleLinear xs w.channels w.sampleRate sr).take
          ((resampleLinear xs w.channels w.sampleRate sr).length / w.channels * w.channels) =
          resampleLinear xs w.channels w.sampleRate sr := by
        rw [hwhole, List.take_length]
      exact (resampleLinear_scaled hframes (fun i hi => getD_take_scaled xs _ hi) hempty hxs
        w.sampleRate sr).trans (congrArg _ htake.symm)
    · have hnear : ¬ 1 < |w.decoded.fileSr - sr| := hfar
      rw [if_neg hfar, if_neg hnear, List.map_take]
      have hcounts : w.decoded.samples.length = w.count := hlen
      rw [hcounts]
      rfl

/-- The frames of a file at a rate. -/
def framesAt (w : WavFile) (sr : ℚ) : ℕ :=
  (w.decoded.atRate sr).length / w.channels

/-- The event of a file reads the frames of the command thread, scaled. -/
theorem event_reads {disk : Disk} {w : WavFile} (hw : w.WellFormed) {path : String}
    (hdisk : disk path = some w) {id : ℕ} {e : AudioEvent} (he : wholeFile disk id path 0 = some e)
    (sr : ℚ) :
    (e.payload.atRate sr).stop = w.framesAt sr ∧
      ∀ frame < w.framesAt sr, (e.payload.atRate sr).readAt frame =
        (w.padScale * (frameAt (w.decoded.atRate sr) w.channels frame).1,
          w.padScale * (frameAt (w.decoded.atRate sr) w.channels frame).2) := by
  obtain ⟨hplain, hchannels, hsamples⟩ := event_samples hw hdisk he sr
  have hch : max w.channels 1 = w.channels := max_eq_left hw.channels
  have hlength : (e.payload.atRate sr).samples.length = w.framesAt sr * w.channels := by
    rw [hsamples, List.length_map, List.length_take]
    exact min_eq_left (Nat.div_mul_le_self _ _)
  have hframes : (e.payload.atRate sr).frames = w.framesAt sr := by
    rw [EngineAudioEvent.frames, hlength, hchannels, hch, Nat.mul_div_cancel _ hw.channels]
  constructor
  · rw [EngineAudioEvent.stop, hplain.first, hframes, Nat.zero_add]
  · intro frame hframe
    have hread : ∀ i < w.framesAt sr * w.channels, (e.payload.atRate sr).samples.getD i 0 =
        w.padScale * (w.decoded.atRate sr).getD i 0 := by
      intro i hi
      rw [← hlength] at hi
      rw [hsamples, List.map_take] at hi ⊢
      exact getD_take_scaled _ _ hi
    have hfits : frame * w.channels + w.channels ≤ w.framesAt sr * w.channels := by
      rw [← Nat.succ_mul]
      exact Nat.mul_le_mul_right _ hframe
    have hleft := hread (frame * w.channels) (by have := hw.channels; omega)
    rw [hplain.readAt (by rw [hframes]; exact hframe), hchannels]
    unfold frameAt
    simp only [hch, hleft]
    by_cases hstereo : 1 < w.channels
    · have hright := hread (frame * w.channels + 1) (by omega)
      simp only [if_pos hstereo, hright]
    · simp only [if_neg hstereo]

end WavFile

end HikaruOpenLive.Gui
