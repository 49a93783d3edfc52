import HikaruOpenLive.Dsp.OpenHarmonic
import Mathlib.Analysis.Fourier.ZMod

/-! # The pitch shifter at rest

With the pitch shift at zero every bin stays where it is, and turns by what its own phase has turned, up to
whole turns; so a frame comes out of the vocoder as it went in, twice through the window. The four windows over
a sample add up to one and a half, and the transforms to twice that: the wet sound is three times the input of
2048 samples ago.
-/
set_option autoImplicit false

namespace HikaruOpenLive.Dsp

open Foundations.SampleStreams
open Foundations.OverlapAdd

/-- What the shifter relies on: the inverse transform is not scaled, and the polar form of a bin is the bin. -/
structure Fft.Lawful (fft : Fft ℝ) : Prop where
  length_forward : ∀ x : List ℝ, x.length = frameLength → (fft.forward x).length = binCount
  inverse_forward : ∀ x : List ℝ, x.length = frameLength →
    fft.inverse (fft.forward x) = some (x.map fun a => (frameLength : ℝ) * a)
  polar : ∀ z, fft.fromPolar (fft.norm z) (fft.arg z) = z
  turn : ∀ (r θ : ℝ) (m : ℤ), fft.fromPolar r (θ + 2 * Real.pi * m) = fft.fromPolar r θ

theorem two_eq : (2.0 : ℝ) = 2 := by norm_num

theorem half_eq : (0.5 : ℝ) = 1 / 2 := by norm_num

/-! ## Phases that differ by whole turns -/

/-- Every output phase is the bin's own, up to whole turns. -/
structure Aligned (phases : Phases ℝ) : Prop where
  last : phases.last.length = binCount
  output : phases.output.length = binCount
  turns : ∀ i < binCount, ∃ m : ℤ, phases.output.getD i 0 = phases.last.getD i 0 + 2 * Real.pi * m

theorem aligned_new : Aligned Phases.new := by
  refine ⟨List.length_replicate, List.length_replicate, ?_⟩
  intro i hi
  refine ⟨0, ?_⟩
  rw [Int.cast_zero, mul_zero, add_zero]
  rfl

/-- Wrapping takes whole turns off. -/
theorem wrapPhase_turns (delta : ℝ) : ∃ m : ℤ, wrapPhase Real.pi delta = delta + 2 * Real.pi * m := by
  simp only [wrapPhase, two_eq]
  refine ⟨⌈(-Real.pi - (delta - 2 * Real.pi * (⌈(delta - Real.pi) / (2 * Real.pi)⌉₊ : ℕ))) /
    (2 * Real.pi)⌉₊ - ⌈(delta - Real.pi) / (2 * Real.pi)⌉₊, ?_⟩
  push_cast
  ring

theorem getD_set {α : Type} {xs : List α} {i j : ℕ} (hi : i < xs.length) (x d : α) :
    (xs.set i x).getD j d = if j = i then x else xs.getD j d := by
  rw [List.getD_eq_getElem?_getD, List.getD_eq_getElem?_getD]
  by_cases h : j = i
  · rw [h, if_pos rfl, List.getElem?_set_self hi]
    rfl
  · rw [if_neg h, List.getElem?_set_ne (Ne.symm h)]

/-! ## One bin, and all of them -/

/-- The loop has copied the bins below `i`. -/
structure Copied (fftOut : List (ℝ × ℝ)) (i : ℕ) (s : Shifted ℝ) : Prop where
  aligned : Aligned s.phases
  length : s.scratch.length = binCount
  scratch : ∀ j, s.scratch.getD j (0, 0) = if j < i then fftOut.getD j (0, 0) else (0, 0)

theorem copied_shiftBin {fft : Fft ℝ} (hfft : fft.Lawful) {fftOut : List (ℝ × ℝ)} {i : ℕ} {s : Shifted ℝ}
    (h : Copied fftOut i s) (hi : i < binCount) :
    Copied fftOut (i + 1) (shiftBin Functions.real fft 1 fftOut s i) := by
  have hbin : ⌊(i : ℝ) * 1⌋₊ = i := by rw [mul_one, Nat.floor_natCast]
  set phase := fft.arg (fftOut.getD i (0, 0)) with hphase
  obtain ⟨m, hm⟩ := h.aligned.turns i hi
  obtain ⟨expectedDelta, hexpected⟩ : ∃ e, e = 2.0 * Real.pi * i * hop / frameLength := ⟨_, rfl⟩
  obtain ⟨m', hm'⟩ := wrapPhase_turns (phase - s.phases.last.getD i 0 - expectedDelta)
  have hturned : s.phases.output.getD i 0 + (expectedDelta +
      wrapPhase Real.pi (phase - s.phases.last.getD i 0 - expectedDelta) * 1) =
      phase + 2 * Real.pi * ((m + m' : ℤ) : ℝ) := by
    rw [hm, hm']
    push_cast
    ring
  have hstep : shiftBin Functions.real fft 1 fftOut s i =
      { phases :=
          { last := s.phases.last.set i phase
            output := s.phases.output.set i (phase + 2 * Real.pi * ((m + m' : ℤ) : ℝ)) }
        scratch := s.scratch.set i (fftOut.getD i (0, 0)) } := by
    have hold : s.scratch.getD i (0, 0) = (0, 0) := by rw [h.scratch i, if_neg (lt_irrefl i)]
    have hadded : fft.fromPolar (fft.norm (fftOut.getD i (0, 0)))
        (phase + 2 * Real.pi * ((m + m' : ℤ) : ℝ)) = fftOut.getD i (0, 0) := by
      rw [hfft.turn, hphase, hfft.polar]
    have hpi : Functions.real.pi = Real.pi := rfl
    unfold shiftBin
    dsimp only
    rw [hbin, if_pos hi, hpi, ← hphase, ← hexpected, hturned, hadded, hold, zero_add, zero_add]
  rw [hstep]
  refine ⟨⟨(List.length_set).trans h.aligned.last, (List.length_set).trans h.aligned.output, ?_⟩,
    (List.length_set).trans h.length, ?_⟩
  · intro j hj
    rw [getD_set (by rw [h.aligned.output]; exact hi), getD_set (by rw [h.aligned.last]; exact hi)]
    by_cases hji : j = i
    · exact ⟨m + m', by rw [if_pos hji, if_pos hji]⟩
    · rw [if_neg hji, if_neg hji]
      exact h.aligned.turns j hj
  · intro j
    rw [getD_set (by rw [h.length]; exact hi), h.scratch j]
    by_cases hji : j = i
    · rw [if_pos hji, if_pos (by omega), hji]
    · rw [if_neg hji]
      by_cases hlt : j < i
      · rw [if_pos hlt, if_pos (by omega)]
      · rw [if_neg hlt, if_neg (by omega)]

/-- The spectrum comes out as it went in. -/
theorem shiftSpectrum_unison {fft : Fft ℝ} (hfft : fft.Lawful) {fftOut : List (ℝ × ℝ)}
    (hlength : fftOut.length = binCount) {phases : Phases ℝ} (h : Aligned phases) :
    (shiftSpectrum Functions.real fft 1 fftOut phases).scratch = fftOut ∧
      Aligned (shiftSpectrum Functions.real fft 1 fftOut phases).phases := by
  have hloop : ∀ n ≤ binCount, Copied fftOut n ((List.range n).foldl (shiftBin Functions.real fft 1 fftOut)
      { phases := phases, scratch := List.replicate binCount (0, 0) }) := by
    intro n hn
    induction n with
    | zero =>
      refine ⟨h, List.length_replicate, ?_⟩
      intro j
      rw [if_neg (Nat.not_lt_zero j), List.range_zero, List.foldl_nil, List.getD_eq_getElem?_getD,
        List.getElem?_replicate]
      split <;> rfl
    | succ n ih =>
      rw [List.range_succ, List.foldl_append]
      exact copied_shiftBin hfft (ih (by omega)) (by omega)
  have hall : Copied fftOut binCount (shiftSpectrum Functions.real fft 1 fftOut phases) :=
    hloop binCount le_rfl
  refine ⟨?_, hall.aligned⟩
  refine List.ext_getElem (hall.length.trans hlength.symm) ?_
  intro j hj hj'
  have hbin := hall.scratch j
  rw [if_pos (hall.length ▸ hj), List.getD_eq_getElem _ _ hj', List.getD_eq_getElem _ _ hj] at hbin
  exact hbin

/-! ## One frame, and all of them -/

/-- A frame as it comes out. -/
noncomputable def windowedTwice (input : List ℝ) : List ℝ :=
  (List.range frameLength).map fun i => 2.0 * hann Functions.real i ^ 2 * input.getD i 0

theorem getD_mapRange (f : ℕ → ℝ) {n i : ℕ} (h : i < n) : ((List.range n).map f).getD i 0 = f i := by
  rw [List.getD_eq_getElem?_getD, List.getElem?_map, List.getElem?_range h]
  rfl

theorem vocode_unison {fft : Fft ℝ} (hfft : fft.Lawful) {phases : Phases ℝ} (h : Aligned phases)
    (input : List ℝ) :
    ∃ phases', vocode Functions.real fft (hannWindow Functions.real) 0 phases input =
      some (phases', windowedTwice input) ∧ Aligned phases' := by
  set fftIn := (List.range frameLength).map fun i => input.getD i 0 * (hannWindow Functions.real).getD i 0
    with hfftIn
  have hlength : fftIn.length = frameLength := by rw [hfftIn, List.length_map, List.length_range]
  have hone : Functions.real.powTwo (0 / 12.0) = 1 := by
    show (2 : ℝ) ^ ((0 : ℝ) / 12.0) = 1
    rw [zero_div, Real.rpow_zero]
  obtain ⟨hscratch, haligned⟩ := shiftSpectrum_unison hfft (hfft.length_forward fftIn hlength) h
  have hinverse : fft.inverse (shiftSpectrum Functions.real fft 1 (fft.forward fftIn) phases).scratch =
      some (fftIn.map fun a => (frameLength : ℝ) * a) := by
    rw [hscratch, hfft.inverse_forward fftIn hlength]
  refine ⟨_, ?_, haligned⟩
  unfold vocode
  dsimp only
  rw [hone, ← hfftIn, hinverse, Option.map_some]
  have hframe : ((List.range frameLength).map fun i =>
      (fftIn.map fun a => (frameLength : ℝ) * a).getD i 0 * (hannWindow Functions.real).getD i 0 /
        ((frameLength : ℝ) * 0.5)) = windowedTwice input := by
    refine List.map_congr_left ?_
    intro i hi
    have hi := List.mem_range.mp hi
    have hpos : (frameLength : ℝ) ≠ 0 := Nat.cast_ne_zero.mpr frameLength_pos.ne'
    rw [hfftIn, List.map_map, getD_mapRange _ hi, hannWindow, getD_mapRange _ hi]
    simp only [Function.comp_apply]
    rw [getD_mapRange _ hi, half_eq, two_eq]
    field_simp
  rw [hframe]

/-- The frames of a recording whose pitch is never shifted. -/
theorem batch_unison {fft : Fft ℝ} (hfft : fft.Lawful) {samples : List (HarmonicSample ℝ)}
    (h : ∀ s ∈ samples, s.pitchShift = 0) (k : ℕ) :
    ∃ phases, batch Functions.real fft samples k =
      some (phases, (List.range k).map fun j => (frameStart j, windowedTwice (frameInput samples j))) ∧
        Aligned phases := by
  have hpitch : ∀ n, atTime HarmonicSample.pitchShift samples n = 0 := by
    intro n
    rw [atTime, List.getD_eq_getElem?_getD, List.getElem?_map]
    cases hs : samples[n]? with
    | none => rfl
    | some s => exact h s (List.mem_of_getElem? hs)
  induction k with
  | zero => exact ⟨_, rfl, aligned_new⟩
  | succ k ih =>
    obtain ⟨phases, hbatch, haligned⟩ := ih
    obtain ⟨phases', hvocode, haligned'⟩ := vocode_unison hfft haligned (frameInput samples k)
    refine ⟨phases', ?_, haligned'⟩
    rw [batch, hbatch, Option.bind_some]
    dsimp only
    rw [hpitch, hvocode, List.range_succ, List.map_append]
    rfl

/-! ## The windows over a sample -/

theorem hann_eq (i : ℕ) :
    hann Functions.real i = 1 / 2 * (1 - Real.cos (2 * Real.pi * i / frameLength)) := by
  show 0.5 * (1 - Real.cos (2.0 * Real.pi * i / frameLength)) = _
  rw [two_eq, half_eq]

/-- Four windows a quarter apart, squared, add up to one and a half. -/
theorem hann_quarters (r : ℕ) :
    hann Functions.real r ^ 2 + hann Functions.real (r + hop) ^ 2 + hann Functions.real (r + hop * 2) ^ 2 +
      hann Functions.real (r + hop * 3) ^ 2 = 3 / 2 := by
  set θ := 2 * Real.pi * r / frameLength with hθ
  have hlong : (frameLength : ℝ) = 2048 := by
    rw [frameLength_eq]
    norm_num
  have hquarter : (hop : ℝ) = 512 := by
    rw [hop_eq]
    norm_num
  have h0 : hann Functions.real r = 1 / 2 * (1 - Real.cos θ) := hann_eq r
  have h1 : hann Functions.real (r + hop) = 1 / 2 * (1 + Real.sin θ) := by
    have harg : 2 * Real.pi * ((r + hop : ℕ) : ℝ) / frameLength = θ + Real.pi / 2 := by
      rw [hθ]
      push_cast
      rw [hlong, hquarter]
      ring
    rw [hann_eq, harg, Real.cos_add_pi_div_two]
    ring
  have h2 : hann Functions.real (r + hop * 2) = 1 / 2 * (1 + Real.cos θ) := by
    have harg : 2 * Real.pi * ((r + hop * 2 : ℕ) : ℝ) / frameLength = θ + Real.pi := by
      rw [hθ]
      push_cast
      rw [hlong, hquarter]
      ring
    rw [hann_eq, harg, Real.cos_add_pi]
    ring
  have h3 : hann Functions.real (r + hop * 3) = 1 / 2 * (1 - Real.sin θ) := by
    have harg : 2 * Real.pi * ((r + hop * 3 : ℕ) : ℝ) / frameLength = θ + Real.pi / 2 + Real.pi := by
      rw [hθ]
      push_cast
      rw [hlong, hquarter]
      ring
    rw [hann_eq, harg, Real.cos_add_pi, Real.cos_add_pi_div_two]
    ring
  rw [h0, h1, h2, h3]
  linear_combination (1 / 2 : ℝ) * Real.sin_sq_add_cos_sq θ

/-- What a frame of the recording gives at `n`, while it sounds. -/
theorem sounds_unison (samples : List (HarmonicSample ℝ)) {j n : ℕ} (hstart : frameStart j ≤ n)
    (hend : n < frameStart j + frameLength) :
    sounds (frameStart j) (windowedTwice (frameInput samples j)) n =
      2.0 * hann Functions.real (n - frameStart j) ^ 2 *
        atTime HarmonicSample.input samples (n - frameLength) := by
  have hi : n - frameStart j < frameLength := by omega
  have htime : j * hop + (n - frameStart j) = n - frameLength := by
    unfold frameStart at *
    omega
  rw [sounds, if_pos hstart, windowedTwice, getD_mapRange _ hi, getD_frameInput _ _ hi, htime]

/-- A frame and a half after the start, four frames sound at every sample. -/
theorem heard_unison (samples : List (HarmonicSample ℝ)) {k n : ℕ}
    (hlow : frameLength + hop * 3 ≤ n) (hk : n < frameStart k) :
    heard ((List.range k).map fun j => (frameStart j, windowedTwice (frameInput samples j))) n =
      3 * atTime HarmonicSample.input samples (n - frameLength) := by
  set g : ℕ → ℝ := fun j => sounds (frameStart j) (windowedTwice (frameInput samples j)) n with hg
  set x := atTime HarmonicSample.input samples (n - frameLength)
  have hsum : heard ((List.range k).map fun j => (frameStart j, windowedTwice (frameInput samples j))) n =
      ∑ j ∈ Finset.range k, g j := by
    rw [heard, List.map_map]
    rfl
  have hhop : hop = 512 := hop_eq
  have hlong : frameLength = 2048 := frameLength_eq
  -- the last of the four is the one that began last
  obtain ⟨a, r, hr, hn⟩ : ∃ a r, r < hop ∧ n = frameStart (a + 3) + r := by
    refine ⟨(n - frameLength) / hop - 3, (n - frameLength) % hop, Nat.mod_lt _ (by omega), ?_⟩
    have := Nat.div_add_mod (n - frameLength) hop
    have : 3 ≤ (n - frameLength) / hop := by
      rw [Nat.le_div_iff_mul_le (by omega)]
      omega
    rw [frameStart, Nat.sub_add_cancel this, Nat.mul_comm]
    omega
  have hplace : ∀ i ≤ 3, n - frameStart (a + (3 - i)) = r + hop * i ∧ frameStart (a + (3 - i)) ≤ n ∧
      n < frameStart (a + (3 - i)) + frameLength := by
    intro i hi
    unfold frameStart at *
    rw [hhop, hlong] at *
    omega
  have hterm : ∀ i ≤ 3, g (a + (3 - i)) = 2 * hann Functions.real (r + hop * i) ^ 2 * x := by
    intro i hi
    obtain ⟨hat, hstart, hend⟩ := hplace i hi
    rw [hg]
    dsimp only
    rw [sounds_unison samples hstart hend, hat, two_eq]
  have hlast : a + 4 ≤ k := by
    have hbefore : frameStart (a + 3) < frameStart k := by omega
    unfold frameStart at hbefore
    rw [hhop] at hbefore
    omega
  have houtside : ∀ j, j < a ∨ a + 4 ≤ j → g j = 0 := by
    intro j hj
    rw [hg]
    dsimp only
    rcases hj with hj | hj
    · refine sounds_after ?_
      rw [windowedTwice, List.length_map, List.length_range, hn]
      unfold frameStart
      rw [hhop, hlong]
      omega
    · refine sounds_before ?_ _
      rw [hn]
      unfold frameStart
      rw [hhop] at *
      omega
  have hfour : ∑ j ∈ Finset.range k, g j = ∑ j ∈ Finset.range (a + 4), g j := by
    refine (Finset.sum_subset (Finset.range_subset_range.mpr hlast) ?_).symm
    intro j _ hj
    rw [Finset.mem_range] at hj
    exact houtside j (.inr (by omega))
  have hzero : ∑ j ∈ Finset.range a, g j = 0 := by
    refine Finset.sum_eq_zero ?_
    intro j hj
    exact houtside j (.inl (Finset.mem_range.mp hj))
  have h0 := hterm 3 le_rfl
  have h1 := hterm 2 (by omega)
  have h2 := hterm 1 (by omega)
  have h3 := hterm 0 (by omega)
  have hquarters := hann_quarters r
  rw [hsum, hfour, Finset.sum_range_succ, Finset.sum_range_succ, Finset.sum_range_succ, Finset.sum_range_succ,
    hzero, h3, h2, h1]
  rw [show a = a + (3 - 3) from rfl, h0, Nat.mul_zero, Nat.mul_one, Nat.add_zero]
  linear_combination 2 * x * hquarters

theorem heard_before {frames : List (ℕ × List ℝ)} {n : ℕ} (h : ∀ f ∈ frames, n < f.1) : heard frames n = 0 := by
  refine List.sum_eq_zero ?_
  intro y hy
  obtain ⟨f, hf, rfl⟩ := List.mem_map.mp hy
  exact sounds_before (h f hf) f.2

instance : NeZero frameLength :=
  ⟨frameLength_pos.ne'⟩

noncomputable def spectrum (x : List ℝ) : ZMod frameLength → ℂ :=
  ZMod.dft fun j => ((x.getD j.val 0 : ℝ) : ℂ)

/-- The half of a spectrum that is kept, and the half it leaves out. -/
noncomputable def wholeSpectrum (bins : List (ℝ × ℝ)) (k : ZMod frameLength) : ℂ :=
  let bin := fun i => let z := bins.getD i (0, 0); (⟨z.1, z.2⟩ : ℂ)
  if k.val < binCount then bin k.val else (starRingEnd ℂ) (bin (frameLength - k.val))

/-- The discrete Fourier transform of real sound. The inverse refuses a spectrum whose first or last bin is not
real, and is not scaled. -/
noncomputable def realFft : Fft ℝ where
  forward x := (List.range binCount).map fun k : ℕ => ((spectrum x k).re, (spectrum x k).im)
  inverse bins :=
    if (bins.getD 0 (0, 0)).2 ≠ 0 ∨ (bins.getD (binCount - 1) (0, 0)).2 ≠ 0 then none
    else some ((List.range frameLength).map fun i : ℕ =>
      (frameLength : ℝ) * (ZMod.dft.symm (wholeSpectrum bins) (i : ZMod frameLength)).re)
  norm z := ‖(⟨z.1, z.2⟩ : ℂ)‖
  arg z := Complex.arg ⟨z.1, z.2⟩
  fromPolar r θ := (r * Real.cos θ, r * Real.sin θ)

/-- The spectrum of a real sound is that of its mirror image, conjugated. -/
theorem spectrum_neg (x : List ℝ) (k : ZMod frameLength) : spectrum x (-k) = (starRingEnd ℂ) (spectrum x k) := by
  rw [spectrum, ZMod.dft_apply, ZMod.dft_apply, map_sum]
  refine Finset.sum_congr rfl ?_
  intro j _
  rw [smul_eq_mul, smul_eq_mul, map_mul, Complex.conj_ofReal, mul_neg, AddChar.map_neg_eq_conj]

theorem binCount_eq : binCount = 1025 := by
  rw [binCount, frameLength_eq]

theorem getD_forward (x : List ℝ) {i : ℕ} (hi : i < binCount) :
    (realFft.forward x).getD i (0, 0) = ((spectrum x i).re, (spectrum x i).im) := by
  rw [List.getD_eq_getElem?_getD]
  show (((List.range binCount).map _)[i]?).getD (0, 0) = _
  rw [List.getElem?_map, List.getElem?_range hi]
  rfl

theorem wholeSpectrum_forward (x : List ℝ) : wholeSpectrum (realFft.forward x) = spectrum x := by
  have hlong := frameLength_eq
  have hbins := binCount_eq
  funext k
  have hk := ZMod.val_lt k
  unfold wholeSpectrum
  dsimp only
  by_cases h : k.val < binCount
  · rw [if_pos h, getD_forward x h, ZMod.natCast_zmod_val]
  · rw [if_neg h, getD_forward x (by omega), Nat.cast_sub hk.le, ZMod.natCast_self, zero_sub,
      ZMod.natCast_zmod_val, spectrum_neg]
    exact Complex.conj_conj (spectrum x k)

/-- The first bin and the last are real. -/
theorem spectrum_real (x : List ℝ) {k : ZMod frameLength} (h : -k = k) : (spectrum x k).im = 0 := by
  have hconj := spectrum_neg x k
  rw [h] at hconj
  exact Complex.conj_eq_iff_im.mp hconj.symm

theorem realFft_lawful : realFft.Lawful where
  length_forward x _ := by
    show ((List.range binCount).map _).length = _
    rw [List.length_map, List.length_range]
  inverse_forward x hx := by
    have hlong := frameLength_eq
    have hbins := binCount_eq
    have hzero : ((realFft.forward x).getD 0 (0, 0)).2 = 0 := by
      rw [getD_forward x (by omega)]
      exact spectrum_real x (by rw [Nat.cast_zero, neg_zero])
    have hlast : ((realFft.forward x).getD (binCount - 1) (0, 0)).2 = 0 := by
      rw [getD_forward x (by omega)]
      refine spectrum_real x ?_
      have hhalf : (((binCount - 1 : ℕ) : ZMod frameLength)) + ((binCount - 1 : ℕ) : ZMod frameLength) = 0 := by
        rw [← Nat.cast_add]
        have hturn : binCount - 1 + (binCount - 1) = frameLength := by omega
        rw [hturn, ZMod.natCast_self]
      exact neg_eq_of_add_eq_zero_left hhalf
    have hback : ∀ i < frameLength, (ZMod.dft.symm (wholeSpectrum (realFft.forward x))
        (i : ZMod frameLength)).re = x.getD i 0 := by
      intro i hi
      rw [wholeSpectrum_forward, spectrum, LinearEquiv.symm_apply_apply, ZMod.val_natCast,
        Nat.mod_eq_of_lt hi, Complex.ofReal_re]
    show (if _ then none else some _) = _
    rw [if_neg (by rw [hzero, hlast]; simp)]
    congr 1
    refine List.ext_getElem (by simp [hx]) ?_
    intro i hi hi'
    have hlt : i < frameLength := by simpa using hi
    rw [List.getElem_map, List.getElem_map, List.getElem_range, hback i hlt,
      List.getD_eq_getElem x 0 (by omega)]
  polar z := by
    show (‖(⟨z.1, z.2⟩ : ℂ)‖ * Real.cos (Complex.arg ⟨z.1, z.2⟩),
      ‖(⟨z.1, z.2⟩ : ℂ)‖ * Real.sin (Complex.arg ⟨z.1, z.2⟩)) = z
    rw [Complex.norm_mul_cos_arg, Complex.norm_mul_sin_arg]
  turn r θ m := by
    show (r * Real.cos (θ + 2 * Real.pi * m), r * Real.sin (θ + 2 * Real.pi * m)) = _
    have hturn : θ + 2 * Real.pi * m = θ + m * (2 * Real.pi) := by ring
    rw [hturn, Real.cos_add_int_mul_two_pi, Real.sin_add_int_mul_two_pi]
    rfl

end HikaruOpenLive.Dsp
