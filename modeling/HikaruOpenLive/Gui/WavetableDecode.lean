import Mathlib.Algebra.BigOperators.Ring.List
import Mathlib.Data.Rat.Floor
import Mathlib.Tactic.FieldSimp
import Mathlib.Tactic.Linarith
import Mathlib.Tactic.Ring

/-! # Wavetables from sound files

How a `.wav` becomes a table of cycles of 2048 samples: its samples are scaled, the channels mixed, and
the result stretched over the table. The number of cycles is counted in the samples of all channels,
and the table stretched to it; the divisor of the scaling stops at `2 ^ 30`. Samples are exact
rationals, and so those of a floating-point file are finite; the names and paths of the tables are left
out.
-/
set_option autoImplicit false

namespace HikaruOpenLive.Gui

def tableResolution : ℕ :=
  2048

/-- Samples of a cycle. -/
def frameSamples : ℕ :=
  tableResolution

structure Wavetable where
  samples : List ℚ
  frames : ℕ
deriving DecidableEq

inductive WavetableError where
  | noSamples (path : String)
deriving DecidableEq

/-- The samples of all channels in turn, with those that do not decode as `none`. -/
inductive WavReading where
  | int (bitsPerSample : ℕ) (samples : List (Option ℤ))
  | float (samples : List (Option ℚ))

structure WavReader where
  channels : ℕ
  reading : WavReading

def WavReader.len (reader : WavReader) : ℕ :=
  match reader.reading with
  | .int _ samples => samples.length
  | .float samples => samples.length

/-- The mean of each group of channels; what is left behind the last whole one is dropped. -/
def downmix (samples : List ℚ) (channels : ℕ) : List ℚ :=
  (List.range (samples.length / channels)).map fun i =>
    ((samples.drop (i * channels)).take channels).sum / channels

def clampSample (value : ℚ) : ℚ :=
  max (-1) (min value 1)

/-- The sample at an index of the table, between two of the source; the last one is followed by the
first. -/
def stretched (samples : List ℚ) (available targetLen index : ℕ) : ℚ :=
  let position : ℚ := index / targetLen * available
  let base := ⌊position⌋₊ % available
  let next := (base + 1) % available
  let fraction := position - ⌊position⌋₊
  samples.getD (min base (samples.length - 1)) 0 * (1 - fraction) +
    samples.getD (min next (samples.length - 1)) 0 * fraction

/-- The samples of the table, and how many of them were clipped. -/
def normalize (samples : List ℚ) (sourceLen targetLen : ℕ) : List ℚ × ℕ :=
  if samples = [] then (List.replicate targetLen 0, 0)
  else
    let available := max (min sourceLen samples.length) 1
    let values := (List.range targetLen).map (stretched samples available targetLen)
    (values.map clampSample, values.countP fun value => 1 < |value|)

/-- `1 << (bits - 1)`, with the shift kept below 31. -/
def fullScale (bits : ℕ) : ℚ :=
  2 ^ min (bits - 1) 30

/-- The table of a file, with the number of clipped samples that is printed. -/
def decodeReader (reader : WavReader) (maxFrames : ℕ) : Except WavetableError (Wavetable × ℕ) :=
  let path := "assets/wavetables/factory.wav"
  let channels := max reader.channels 1
  let totalFrames := reader.len
  if totalFrames = 0 then .error (.noSamples path)
  else
    let frames := min (max (totalFrames / frameSamples) 1) (max maxFrames 1)
    let keptFrames := min totalFrames (frames * frameSamples)
    let mono :=
      match reader.reading with
      | .int bits samples =>
        (samples.take (keptFrames * channels)).filterMap fun sample =>
          sample.map fun value : ℤ => (value : ℚ) / fullScale bits
      | .float samples => (samples.take (keptFrames * channels)).filterMap id
    if mono = [] then .error (.noSamples path)
    else
      let mono := if 1 < channels then downmix mono channels else mono
      let r := normalize mono keptFrames (frameSamples * frames)
      .ok (⟨r.1, frames⟩, r.2)

/-! ## Integer files -/

/-- An integer file of whole cycles in every channel. -/
structure IntWav where
  bits : ℕ
  channels : ℕ
  cycles : ℕ
  values : List ℤ
  bits_mem : 8 ≤ bits ∧ bits ≤ 32
  channels_pos : 1 ≤ channels
  length_values : values.length = cycles * frameSamples * channels
  values_mem : ∀ v ∈ values, -2 ^ (bits - 1) ≤ v ∧ v < 2 ^ (bits - 1)

namespace IntWav

def reader (w : IntWav) : WavReader :=
  ⟨w.channels, .int w.bits (w.values.map some)⟩

/-- The samples of all channels at one time. -/
def frame (w : IntWav) (i : ℕ) : List ℤ :=
  (w.values.drop (i * w.channels)).take w.channels

/-- The mean over the channels, of full scale. -/
def mean (w : IntWav) (i : ℕ) : ℚ :=
  (w.frame i).sum / w.channels / 2 ^ (w.bits - 1)

/-- The table has the cycles of the file, its samples are the means, and none was clipped; if the
channels are identical it is the table of one of them. -/
structure Decoded (w : IntWav) (maxFrames : ℕ) (r : Wavetable × ℕ) : Prop where
  frames : r.1.frames = w.cycles
  samples : r.1.samples = (List.range (w.cycles * frameSamples)).map w.mean
  unclipped : r.2 = 0
  identical : ∀ w' : IntWav, w'.bits = w.bits → w'.channels = 1 → w'.cycles = w.cycles →
    w.values = w'.values.flatMap (List.replicate w.channels) →
      decodeReader w'.reader maxFrames = .ok r

end IntWav

/-! ## Mixing and stretching -/

theorem downmix_one (samples : List ℚ) : downmix samples 1 = samples := by
  apply List.ext_getElem?
  intro i
  rw [downmix, List.getElem?_map, Nat.div_one]
  by_cases hi : i < samples.length
  · have hone : (samples.drop i).take 1 = [samples[i]] := by
      rw [List.drop_eq_getElem_cons hi, List.take_succ_cons, List.take_zero]
    rw [List.getElem?_range hi, List.getElem?_eq_getElem hi, Option.map_some, Nat.mul_one, hone]
    simp
  · rw [List.getElem?_eq_none (by rw [List.length_range]; omega), List.getElem?_eq_none (by omega)]
    rfl

theorem sum_map_div (values : List ℤ) (a : ℚ) :
    (values.map fun v : ℤ => (v : ℚ) / a).sum = (values.sum : ℚ) / a := by
  induction values with
  | nil => simp
  | cons v values ih =>
    rw [List.map_cons, List.sum_cons, List.sum_cons, ih, Int.cast_add, add_div]

/-- A sample of a file with identical channels. -/
theorem slice_flatMap_replicate (values : List ℤ) (channels i : ℕ) :
    ((values.flatMap (List.replicate channels)).drop (i * channels)).take channels =
      ((values.drop i).take 1).flatMap (List.replicate channels) := by
  induction i generalizing values with
  | zero =>
    cases values with
    | nil => simp
    | cons v values => simp
  | succ i ih =>
    cases values with
    | nil => simp
    | cons v values =>
      have hdrop : (List.replicate channels v ++ values.flatMap (List.replicate channels)).drop
          ((i + 1) * channels) = (values.flatMap (List.replicate channels)).drop (i * channels) := by
        rw [Nat.succ_mul, Nat.add_comm, ← List.drop_drop]
        congr 1
        exact List.drop_left' List.length_replicate
      rw [List.flatMap_cons, hdrop, List.drop_succ_cons]
      exact ih values

theorem sum_flatMap_replicate (values : List ℤ) (channels : ℕ) :
    (values.flatMap (List.replicate channels)).sum = channels * values.sum := by
  induction values with
  | nil => simp
  | cons v values ih =>
    rw [List.flatMap_cons, List.sum_append, List.sum_replicate, ih, List.sum_cons, nsmul_eq_mul, mul_add]

theorem abs_sum_le {values : List ℤ} {bound : ℤ} (h : ∀ v ∈ values, |v| ≤ bound) :
    |values.sum| ≤ values.length * bound := by
  induction values with
  | nil => simp
  | cons v values ih =>
    have hhead := h v List.mem_cons_self
    have htail := ih fun x hx => h x (List.mem_cons_of_mem v hx)
    have habs := abs_add_le v values.sum
    rw [List.sum_cons, List.length_cons]
    push_cast
    linarith

/-- Nothing is stretched where the table is as long as its source. -/
theorem stretched_same {samples : List ℚ} {n i : ℕ} (hlength : samples.length = n) (hi : i < n) :
    stretched samples n n i = samples.getD i 0 := by
  have hn : (n : ℚ) ≠ 0 := by exact_mod_cast (Nat.zero_lt_of_lt hi).ne'
  have hposition : (i / n * n : ℚ) = i := by field_simp
  unfold stretched
  simp only [hposition, Nat.floor_natCast, sub_self, Nat.mod_eq_of_lt hi]
  rw [min_eq_left (by omega)]
  ring

theorem normalize_same {samples : List ℚ} {sourceLen n : ℕ} (hlength : samples.length = n) (hn : 0 < n)
    (hsource : n ≤ sourceLen) :
    normalize samples sourceLen n =
      (samples.map clampSample, samples.countP fun value => 1 < |value|) := by
  have hne : samples ≠ [] := List.ne_nil_of_length_pos (by omega)
  have havailable : max (min sourceLen samples.length) 1 = n := by omega
  have hvalues : (List.range n).map (stretched samples n n) = samples := by
    apply List.ext_getElem (by rw [List.length_map, List.length_range, hlength])
    intro i hi hi'
    rw [List.getElem_map, List.getElem_range, stretched_same hlength (by omega),
      List.getD_eq_getElem?_getD, List.getElem?_eq_getElem hi', Option.getD_some]
  rw [normalize, if_neg hne, havailable]
  simp only [hvalues]

theorem clampSample_eq_self {value : ℚ} (h : |value| ≤ 1) : clampSample value = value := by
  obtain ⟨hlo, hhi⟩ := abs_le.mp h
  rw [clampSample, min_eq_left hhi, max_eq_right hlo]

/-! ## Integer files in the table -/

/-- How much louder than full scale a width is read. -/
def gain (bits : ℕ) : ℚ :=
  if bits ≤ 31 then 1 else 2

theorem div_fullScale {bits : ℕ} (h : bits ≤ 32) (x : ℚ) :
    x / fullScale bits = x / 2 ^ (bits - 1) * gain bits := by
  unfold fullScale gain
  split
  · rw [min_eq_left (by omega), mul_one]
  · obtain rfl : bits = 32 := by omega
    norm_num
    ring

namespace IntWav

variable (w : IntWav)

theorem abs_mean_le (i : ℕ) : |w.mean i| ≤ 1 := by
  have hvalues : ∀ v ∈ w.frame i, |v| ≤ 2 ^ (w.bits - 1) := by
    intro v hv
    obtain ⟨hlo, hhi⟩ := w.values_mem v (List.mem_of_mem_drop (List.mem_of_mem_take hv))
    exact abs_le.mpr ⟨hlo, hhi.le⟩
  have hlength : ((w.frame i).length : ℤ) ≤ w.channels := by
    exact_mod_cast List.length_take_le _ _
  have hsum : |(w.frame i).sum| ≤ w.channels * 2 ^ (w.bits - 1) :=
    (abs_sum_le hvalues).trans (mul_le_mul_of_nonneg_right hlength (by positivity))
  have hcast : |((w.frame i).sum : ℚ)| ≤ w.channels * 2 ^ (w.bits - 1) := by exact_mod_cast hsum
  have hchannels : (0 : ℚ) < w.channels := by exact_mod_cast w.channels_pos
  have hpos : (0 : ℚ) < w.channels * 2 ^ (w.bits - 1) := by positivity
  rw [mean, div_div, abs_div, abs_of_pos hpos]
  exact (div_le_one hpos).mpr hcast

theorem mean_eq_zero_iff (i : ℕ) : w.mean i = 0 ↔ (w.frame i).sum = 0 := by
  have hchannels : (w.channels : ℚ) ≠ 0 := by exact_mod_cast (Nat.zero_lt_of_lt w.channels_pos).ne'
  have hscale : (2 : ℚ) ^ (w.bits - 1) ≠ 0 := by positivity
  rw [mean, div_eq_zero_iff, or_iff_left hscale, div_eq_zero_iff, or_iff_left hchannels, Int.cast_eq_zero]

/-- The channels mixed, as they are read. -/
theorem downmix_values :
    downmix (w.values.map fun v : ℤ => (v : ℚ) / fullScale w.bits) w.channels =
      (List.range (w.cycles * frameSamples)).map fun i => w.mean i * gain w.bits := by
  have hcount : (w.values.map fun v : ℤ => (v : ℚ) / fullScale w.bits).length / w.channels =
      w.cycles * frameSamples := by
    rw [List.length_map, w.length_values, Nat.mul_div_cancel _ w.channels_pos]
  rw [downmix, hcount]
  refine List.map_congr_left fun i _ => ?_
  rw [← List.map_drop, ← List.map_take, sum_map_div, div_fullScale w.bits_mem.2]
  show (w.frame i).sum / _ * _ / _ = mean w i * _
  rw [mean]
  ring

theorem decodeReader_empty (maxFrames : ℕ) (h : w.cycles = 0) :
    decodeReader w.reader maxFrames = .error (.noSamples "assets/wavetables/factory.wav") := by
  have hlen : w.reader.len = 0 := by
    show (w.values.map some).length = 0
    rw [List.length_map, w.length_values, h, Nat.zero_mul, Nat.zero_mul]
  exact if_pos hlen

/-- The cycles that are counted: each channel counts. -/
def counted (maxFrames : ℕ) : ℕ :=
  min (w.cycles * w.channels) maxFrames

theorem decodeReader_eq {maxFrames : ℕ} (hpos : 1 ≤ w.cycles) (hmax : w.cycles ≤ maxFrames) :
    let mono := (List.range (w.cycles * frameSamples)).map fun i => w.mean i * gain w.bits
    let r := normalize mono (w.counted maxFrames * frameSamples) (frameSamples * w.counted maxFrames)
    decodeReader w.reader maxFrames = .ok (⟨r.1, w.counted maxFrames⟩, r.2) := by
  have hchannels := w.channels_pos
  have hframe : 0 < frameSamples := by decide
  have hcycles : w.cycles ≤ w.cycles * w.channels := Nat.le_mul_of_pos_right _ hchannels
  have hlen : w.reader.len = w.cycles * w.channels * frameSamples := by
    show (w.values.map some).length = _
    rw [List.length_map, w.length_values]
    ring
  have hlenpos : w.reader.len ≠ 0 := by
    rw [hlen]
    positivity
  have hframes : min (max (w.reader.len / frameSamples) 1) (max maxFrames 1) = w.counted maxFrames := by
    rw [hlen, Nat.mul_div_cancel _ hframe, counted]
    omega
  have hkept : min w.reader.len (w.counted maxFrames * frameSamples) =
      w.counted maxFrames * frameSamples := by
    rw [hlen]
    exact min_eq_right (Nat.mul_le_mul_right _ (min_le_left _ _))
  have hall : w.values.length ≤ w.counted maxFrames * frameSamples * w.channels := by
    rw [w.length_values]
    exact Nat.mul_le_mul_right _ (Nat.mul_le_mul_right _ (le_min hcycles hmax))
  have hread : ((w.values.map some).take (w.counted maxFrames * frameSamples * w.channels)).filterMap
      (fun sample => sample.map fun value : ℤ => (value : ℚ) / fullScale w.bits) =
        w.values.map fun v : ℤ => (v : ℚ) / fullScale w.bits := by
    rw [List.take_of_length_le (by rw [List.length_map]; exact hall), List.filterMap_map]
    exact congrFun List.filterMap_eq_map w.values
  have hne : w.values.map (fun v : ℤ => (v : ℚ) / fullScale w.bits) ≠ [] := by
    refine List.ne_nil_of_length_pos ?_
    rw [List.length_map, w.length_values]
    positivity
  have hmono : (if 1 < w.channels then
        downmix (w.values.map fun v : ℤ => (v : ℚ) / fullScale w.bits) w.channels
      else w.values.map fun v : ℤ => (v : ℚ) / fullScale w.bits) =
        (List.range (w.cycles * frameSamples)).map fun i => w.mean i * gain w.bits := by
    rw [← downmix_values]
    split
    case isTrue => rfl
    case isFalse h =>
      have hone : w.channels = 1 := by omega
      rw [hone, downmix_one]
  have hmax1 : max w.reader.channels 1 = w.channels := max_eq_left hchannels
  intro mono r
  unfold decodeReader
  simp only [if_neg hlenpos, hframes, hkept, hmax1]
  show (if List.filterMap _ _ = [] then _ else _) = _
  simp only [reader, hread, if_neg hne, hmono]
  rfl

/-- Where the cycles are counted right, the table is right if no width is read too loud. -/
theorem normalized_iff (hpos : 1 ≤ w.cycles) {sourceLen : ℕ} (hsource : w.cycles * frameSamples ≤ sourceLen) :
    let mono := (List.range (w.cycles * frameSamples)).map fun i => w.mean i * gain w.bits
    let r := normalize mono sourceLen (w.cycles * frameSamples)
    (r.1 = (List.range (w.cycles * frameSamples)).map w.mean ∧ r.2 = 0) ↔
      w.bits ≤ 31 ∨ ∀ i < w.cycles * frameSamples, (w.frame i).sum = 0 := by
  intro mono r
  have hlength : mono.length = w.cycles * frameSamples := by
    rw [List.length_map, List.length_range]
  have hframe : 0 < frameSamples := by decide
  have hr : r = (mono.map clampSample, mono.countP fun value => 1 < |value|) :=
    normalize_same hlength (Nat.mul_pos hpos hframe) hsource
  have hread : ∀ {i}, i < w.cycles * frameSamples → w.mean i * gain w.bits ∈ mono :=
    fun hi => List.mem_map_of_mem (List.mem_range.mpr hi)
  rw [hr]
  simp only
  constructor
  · rintro ⟨hsamples, hclipped⟩
    by_contra hloud
    obtain ⟨hbits, hnonzero⟩ := not_or.mp hloud
    refine hnonzero fun i hi => ?_
    -- What is not clipped is read as it is, here at double its value.
    have hsmall : |w.mean i * gain w.bits| ≤ 1 := by
      have hnot := List.countP_eq_zero.mp hclipped _ (hread hi)
      simpa using hnot
    have hsame : clampSample (w.mean i * gain w.bits) = w.mean i := by
      have heq := List.map_inj_left.mp ((List.map_map).symm.trans hsamples) i (List.mem_range.mpr hi)
      exact heq
    rw [clampSample_eq_self hsmall, gain, if_neg hbits] at hsame
    exact (w.mean_eq_zero_iff i).mp (by linarith)
  · intro h
    have hsame : mono = (List.range (w.cycles * frameSamples)).map w.mean := by
      refine List.map_congr_left fun i hi => ?_
      obtain hbits | hzero := h
      · rw [gain, if_pos hbits, mul_one]
      · rw [(w.mean_eq_zero_iff i).mpr (hzero i (List.mem_range.mp hi)), zero_mul]
    have hsmall : ∀ value ∈ mono, |value| ≤ 1 := by
      intro value hvalue
      rw [hsame] at hvalue
      obtain ⟨i, _, rfl⟩ := List.mem_map.mp hvalue
      exact w.abs_mean_le i
    constructor
    · rw [← hsame]
      calc mono.map clampSample = mono.map id :=
            List.map_congr_left fun value hvalue => clampSample_eq_self (hsmall value hvalue)
        _ = mono := List.map_id mono
    · refine List.countP_eq_zero.mpr fun value hvalue => ?_
      simpa using hsmall value hvalue

theorem counted_eq_iff {maxFrames : ℕ} (hpos : 1 ≤ w.cycles) (hmax : w.cycles ≤ maxFrames) :
    w.counted maxFrames = w.cycles ↔ w.channels = 1 ∨ maxFrames = w.cycles := by
  unfold counted
  constructor
  · intro h
    obtain hle | hle := le_total (w.cycles * w.channels) maxFrames
    · rw [min_eq_left hle] at h
      exact Or.inl (Nat.eq_of_mul_eq_mul_left hpos (h.trans (Nat.mul_one _).symm))
    · rw [min_eq_right hle] at h
      exact Or.inr h
  · rintro (hone | rfl)
    · rw [hone, Nat.mul_one, min_eq_left hmax]
    · exact min_eq_right (Nat.le_mul_of_pos_right _ w.channels_pos)

theorem mean_identical {w' : IntWav} (hbits : w'.bits = w.bits) (hchannels : w'.channels = 1)
    (hvalues : w.values = w'.values.flatMap (List.replicate w.channels)) (i : ℕ) :
    w'.mean i = w.mean i := by
  have hne : (w.channels : ℚ) ≠ 0 := by exact_mod_cast (Nat.zero_lt_of_lt w.channels_pos).ne'
  have hframe : w'.frame i = (w'.values.drop i).take 1 := by rw [frame, hchannels, Nat.mul_one]
  have hsum : (w.frame i).sum = w.channels * (w'.frame i).sum := by
    rw [frame, hvalues, slice_flatMap_replicate, sum_flatMap_replicate, hframe]
  rw [mean, mean, hsum, hbits, hchannels]
  push_cast
  field_simp

/-- When an integer file becomes its table. -/
theorem decoded_iff {maxFrames : ℕ} (hmax : w.cycles ≤ maxFrames) :
    (∃ r, decodeReader w.reader maxFrames = .ok r ∧ w.Decoded maxFrames r) ↔
      1 ≤ w.cycles ∧ (w.channels = 1 ∨ maxFrames = w.cycles) ∧
        (w.bits ≤ 31 ∨ ∀ i < w.cycles * frameSamples, (w.frame i).sum = 0) := by
  obtain hzero | hpos := Nat.eq_zero_or_pos w.cycles
  · rw [w.decodeReader_empty maxFrames hzero]
    constructor
    · rintro ⟨r, hr, _⟩
      cases hr
    · rintro ⟨hpos, _⟩
      omega
  · have hcycles : w.cycles ≤ w.cycles * w.channels := Nat.le_mul_of_pos_right _ w.channels_pos
    have hcounted : w.counted maxFrames = w.cycles ↔ w.channels = 1 ∨ maxFrames = w.cycles :=
      w.counted_eq_iff hpos hmax
    have hnormalized := w.normalized_iff hpos (le_refl (w.cycles * frameSamples))
    have hdecoded := w.decodeReader_eq hpos hmax
    simp only at hnormalized hdecoded
    rw [← hcounted, ← hnormalized, hdecoded]
    constructor
    · rintro ⟨r, hr, hright⟩
      obtain rfl := Except.ok.inj hr
      have hframes : w.counted maxFrames = w.cycles := hright.frames
      have hsamples := hright.samples
      have hunclipped := hright.unclipped
      simp only [hframes, Nat.mul_comm frameSamples] at hsamples hunclipped
      exact ⟨hpos, hframes, hsamples, hunclipped⟩
    · rintro ⟨_, hframes, hsamples, hunclipped⟩
      simp only [hframes, Nat.mul_comm frameSamples]
      refine ⟨_, rfl, rfl, hsamples, hunclipped, fun w' hbits hchannels hsame hvalues => ?_⟩
      have hmono := w'.decodeReader_eq (hsame ▸ hpos) (hsame ▸ hmax)
      have hcounted' : w'.counted maxFrames = w.cycles := by
        rw [counted, hchannels, hsame]
        omega
      simp only [hcounted', hbits, hsame, w.mean_identical hbits hchannels hvalues,
        Nat.mul_comm frameSamples] at hmono
      exact hmono

/-- A cycle of one value in every channel. -/
def held (bits channels : ℕ) (value : ℤ) (hbits : 8 ≤ bits ∧ bits ≤ 32) (hchannels : 1 ≤ channels)
    (hvalue : -2 ^ (bits - 1) ≤ value ∧ value < 2 ^ (bits - 1)) : IntWav where
  bits := bits
  channels := channels
  cycles := 1
  values := List.replicate (1 * frameSamples * channels) value
  bits_mem := hbits
  channels_pos := hchannels
  length_values := List.length_replicate
  values_mem := fun _ hv => List.eq_of_mem_replicate hv ▸ hvalue

def heldMono : IntWav :=
  held 16 1 16384 (by decide) (by decide) (by decide)

theorem decoded_iff_mono :
    (∃ r, decodeReader heldMono.reader 64 = .ok r ∧ heldMono.Decoded 64 r) ↔
      1 ≤ heldMono.cycles ∧ (heldMono.channels = 1 ∨ 64 = heldMono.cycles) ∧
        (heldMono.bits ≤ 31 ∨ ∀ i < heldMono.cycles * frameSamples, (heldMono.frame i).sum = 0) :=
  heldMono.decoded_iff (show 1 ≤ 64 by decide)

def heldStereo : IntWav :=
  held 16 2 16384 (by decide) (by decide) (by decide)

/-- A cycle in two channels becomes two cycles. -/
theorem stereo_is_stretched :
    (∃ r, decodeReader heldStereo.reader 64 = .ok r ∧ r.1.frames = 2) ∧
      ¬ ∃ r, decodeReader heldStereo.reader 64 = .ok r ∧ heldStereo.Decoded 64 r := by
  have hdecoded := heldStereo.decodeReader_eq (show 1 ≤ 1 by decide) (show 1 ≤ 64 by decide)
  refine ⟨⟨_, hdecoded, rfl⟩, ?_⟩
  rintro ⟨r, hr, hright⟩
  obtain rfl := Except.ok.inj (hdecoded.symm.trans hr)
  have hframes : (2 : ℕ) = 1 := hright.frames
  exact absurd hframes (by decide)

end IntWav

end HikaruOpenLive.Gui
