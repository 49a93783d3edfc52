import HikaruOpenLive.Foundations.SampleStreams
import Mathlib.Algebra.Order.Floor.Ring
import Mathlib.Algebra.Order.Field.Basic
import Mathlib.Analysis.SpecialFunctions.Pow.Real
import Mathlib.Analysis.SpecialFunctions.Trigonometric.Basic

/-! # The spectral phaser

A cascade of biquads whose coefficients follow a cutoff swept by an LFO, with an optional low pass of the
bass and a dry/wet mix. Arithmetic is exact, so no value is infinite; π, the sine, cosine and tangent and the
powers of two are those of `Functions`. Sample rates are above 41 Hz, where 20 Hz is a cutoff.

A stereo block goes through the one phaser: `Secciones compartidas; LFO común`. What the channels share of
its sections is at the end.
-/
set_option autoImplicit false

namespace HikaruOpenLive.Dsp

open Foundations.SampleStreams

/-- π and the functions the phaser calls. -/
structure Functions (K : Type) where
  pi : K
  sin : K → K
  cos : K → K
  tan : K → K
  powTwo : K → K

noncomputable def Functions.real : Functions ℝ :=
  { pi := Real.pi, sin := Real.sin, cos := Real.cos, tan := Real.tan, powTwo := fun x => 2 ^ x }

structure SpectralPhaserParams (K : Type) where
  width : K
  offset : K
  depth : K
  speed : K
  mix : K
  blur : K
  hzPerOct : K
  timesFive : K
  keepBass : K
  bypass : K

structure Biquad (K : Type) where
  z1 : K
  z2 : K
  b0 : K
  b1 : K
  b2 : K
  a1 : K
  a2 : K

structure SpectralPhaser (K : Type) where
  sampleRate : K
  params : SpectralPhaserParams K
  sections : List (Biquad K)
  numSections : ℕ
  lfoPhase : K
  smoothedCutoff : K
  bassLp : K

variable {K : Type} [Field K] [LinearOrder K]

def clamp (low high x : K) : K :=
  max low (min x high)

namespace Biquad

def default : Biquad K :=
  { z1 := 0, z2 := 0, b0 := 0, b1 := 0, b2 := 0, a1 := 0, a2 := 0 }

def setCoeffs (s : Biquad K) (b0 b1 b2 a1 a2 : K) : Biquad K :=
  { s with b0 := b0, b1 := b1, b2 := b2, a1 := a1, a2 := a2 }

def reset (s : Biquad K) : Biquad K :=
  { s with z1 := 0, z2 := 0 }

def process (s : Biquad K) (x : K) : Biquad K × K :=
  let y := s.b0 * x + s.z1
  ({ s with z1 := s.b1 * x + s.z2 - s.a1 * y, z2 := s.b2 * x - s.a2 * y }, y)

/-- The sample through the sections, one after another. -/
def cascade : List (Biquad K) → K → List (Biquad K) × K
  | [], x => ([], x)
  | s :: ss, x =>
    let (s, y) := s.process x
    let (ss, out) := cascade ss y
    (s :: ss, out)

/-- The pole of a section, by its real and imaginary part. -/
def pole (F : Functions K) (r : K) (numSections k : ℕ) : K × K :=
  let phi := (2 * k + 1 : ℕ) * F.pi / (2 * numSections)
  let denom := 1 + r * r + 2 * r * F.cos phi
  let denom := if |denom| < 1 / 10 ^ 9 then 1 else denom
  ((1 - r * r) / denom, 2 * r * F.sin phi / denom)

/-- The sections from the `k`th on with new coefficients, given the pole of the one before. -/
def recomputeFrom (F : Functions K) (r : K) (numSections : ℕ) :
    ℕ → K × K → List (Biquad K) → List (Biquad K)
  | _, _, [] => []
  | k, prev, s :: ss =>
    if k < numSections then
      let (re, im) := pole F r numSections k
      let g := ((prev.1 + 1) ^ 2 + prev.2 * prev.2) / 4
      s.setCoeffs (2 * re) (-(re * re + im * im)) g (-2 * g) g ::
        recomputeFrom F r numSections (k + 1) (re, im) ss
    else s :: ss

end Biquad

namespace SpectralPhaser

variable (F : Functions K) (p : SpectralPhaser K)

/-- `resize_with`: cut, or filled up with fresh sections. -/
def resizeSections : SpectralPhaser K :=
  { p with
    sections := p.sections.take p.numSections ++
      List.replicate (p.numSections - p.sections.length) Biquad.default }

/-- How many sections a width asks for. -/
def sectionsOf [FloorRing K] (width : K) : ℕ :=
  min (max ⌊2 + clamp 0 1 (width / 100) * 48 + 1 / 2⌋₊ 1) 100

def new (sampleRate : K) : SpectralPhaser K :=
  ({ sampleRate := if 0 < sampleRate then sampleRate else 44100
     params :=
       { width := 50, offset := 0, depth := 0, speed := 0, mix := 100, blur := 0, hzPerOct := 0
         timesFive := 0, keepBass := 0, bypass := 0 }
     sections := [], numSections := 4, lfoPhase := 0, smoothedCutoff := 1000, bassLp := 0 } :
    SpectralPhaser K).resizeSections

def setParams [FloorRing K] (params : SpectralPhaserParams K) : SpectralPhaser K :=
  { p with params := params, numSections := sectionsOf params.width }.resizeSections

def recompute (cutoff : K) : SpectralPhaser K :=
  let norm := clamp 0 (999 / 1000) (cutoff / (p.sampleRate * (1 / 2)))
  let r := clamp 0 (9999 / 10000) (F.tan (norm * (F.pi * (1 / 2))))
  { p with sections := Biquad.recomputeFrom F r p.numSections 0 (0, 0) p.sections }

def lfoRateHz : K :=
  let rate := p.params.speed / 10
  let rate := if 1 / 2 ≤ p.params.timesFive then rate * 5 else rate
  if rate ≠ 0 ∧ |rate| < 1 / 100 then if 0 < rate then 1 / 100 else -(1 / 100) else rate

def cutoffAtPhase (phase : K) : K :=
  let base := 200 + p.params.offset / 100 * 4000
  let octaves := clamp 0 1 (p.params.depth / 100) * F.sin phase * (1 + p.params.hzPerOct / 100 * 4)
  clamp 20 (p.sampleRate * (49 / 100)) (base * F.powTwo octaves)

/-- The LFO one sample on. -/
def advanceLfo (phase : K) : K :=
  let phase := phase + 2 * F.pi * p.lfoRateHz / p.sampleRate
  if 2 * F.pi < phase then phase - 2 * F.pi else phase

/-- The part of the phaser that the sound goes through follows the LFO. -/
def followLfo : SpectralPhaser K :=
  let phase := p.advanceLfo F p.lfoPhase
  let cutoff := p.cutoffAtPhase F phase
  let alpha := 1 - clamp 0 1 (p.params.blur / 100) * (9 / 10)
  let smoothed := p.smoothedCutoff + (cutoff - p.smoothedCutoff) * alpha
  { p with lfoPhase := phase, smoothedCutoff := smoothed }.recompute F smoothed

def wet : K :=
  clamp 0 1 (p.params.mix / 100)

def processSample (input : K) : SpectralPhaser K × K :=
  if 1 / 2 ≤ p.params.bypass then (p, input)
  else
    let p := p.followLfo F
    let (sections, x) := Biquad.cascade p.sections input
    let p := { p with sections := sections }
    let (p, out) :=
      if 1 / 2 ≤ p.params.keepBass then
        let bassLp := p.bassLp + clamp 0 1 (2 * F.pi * 120 / p.sampleRate) * (input - p.bassLp)
        ({ p with bassLp := bassLp }, x + bassLp)
      else (p, x)
    (p, input * (1 - p.wet) + out * p.wet)

def processBlock (buffer : List K) : SpectralPhaser K × List K :=
  stream (processSample F) p buffer

/-- Two samples at a time, left and right; the second of a lone last one is out of bounds. -/
def processBlockStereo (p : SpectralPhaser K) : List K → Option (SpectralPhaser K × List K)
  | [] => some (p, [])
  | [_] => none
  | left :: right :: buffer =>
    let (p, l) := p.processSample F left
    let (p, r) := p.processSample F right
    (processBlockStereo p buffer).map fun rest => (rest.1, l :: r :: rest.2)

end SpectralPhaser

/-! ## What the channels share -/

namespace Biquad

omit [LinearOrder K] in
/-- The sound leaves the coefficients alone. -/
theorem reset_cascade (ss : List (Biquad K)) (x : K) : (cascade ss x).1.map reset = ss.map reset := by
  induction ss generalizing x with
  | nil => rfl
  | cons s ss ih =>
    show reset (s.process x).1 :: (cascade ss (s.process x).2).1.map reset = _
    rw [ih]
    rfl

theorem reset_recomputeFrom (F : Functions K) (r : K) (numSections k : ℕ) (prev : K × K)
    (ss : List (Biquad K)) :
    (recomputeFrom F r numSections k prev ss).map reset =
      recomputeFrom F r numSections k prev (ss.map reset) := by
  induction ss generalizing k prev with
  | nil => rfl
  | cons s ss ih =>
    simp only [recomputeFrom, List.map_cons]
    split
    case isTrue =>
      rw [List.map_cons, ih]
      rfl
    case isFalse => rfl

end Biquad

namespace SpectralPhaser

variable {F : Functions K} {p : SpectralPhaser K}

/-- The phaser with the sound taken out of it. -/
def muted (p : SpectralPhaser K) : SpectralPhaser K :=
  { p with sections := p.sections.map Biquad.reset, bassLp := 0 }

/-- A sample as far as it has nothing to do with the sound. -/
def idle (F : Functions K) (p : SpectralPhaser K) : SpectralPhaser K :=
  if 1 / 2 ≤ p.params.bypass then p else p.followLfo F

theorem muted_followLfo (F : Functions K) (p : SpectralPhaser K) :
    (p.followLfo F).muted = p.muted.followLfo F := by
  have hsections := Biquad.reset_recomputeFrom F
  simp only [muted, followLfo, recompute, hsections]
  rfl

/-- Neither LFO nor cutoff nor coefficients listen to the sound. -/
theorem muted_processSample (F : Functions K) (p : SpectralPhaser K) (input : K) :
    (p.processSample F input).1.muted = p.muted.idle F := by
  unfold processSample idle
  by_cases hbypass : 1 / 2 ≤ p.params.bypass
  · rw [if_pos hbypass]
    exact (if_pos hbypass).symm
  · have hmuted : ¬ 1 / 2 ≤ p.muted.params.bypass := hbypass
    rw [if_neg hbypass, if_neg hmuted, ← muted_followLfo]
    have hsections := Biquad.reset_cascade (p.followLfo F).sections input
    dsimp only
    split
    case isTrue => simp only [muted, hsections]
    case isFalse => simp only [muted, hsections]

theorem params_idle (F : Functions K) (p : SpectralPhaser K) : (p.idle F).params = p.params := by
  unfold idle
  split
  · rfl
  · rfl

/-- Whole frames go through the phaser sample by sample. -/
theorem processBlockStereo_of_frames {n : ℕ} {buffer : List K} (h : buffer.length = 2 * n) :
    p.processBlockStereo F buffer = some (p.processBlock F buffer) := by
  induction n generalizing p buffer with
  | zero =>
    obtain rfl : buffer = [] := List.eq_nil_of_length_eq_zero h
    rfl
  | succ n ih =>
    obtain _ | ⟨left, _ | ⟨right, rest⟩⟩ := buffer
    · exact absurd h (by simp)
    · exact absurd h (by simp; omega)
    · have hrest : rest.length = 2 * n := by
        simp only [List.length_cons] at h
        omega
      rw [processBlockStereo]
      simp only [ih hrest]
      rfl

theorem wet_eq_zero [IsStrictOrderedRing K] (h : p.params.mix ≤ 0) : p.wet = 0 := by
  have hmix : p.params.mix / 100 ≤ 0 := div_nonpos_of_nonpos_of_nonneg h (by norm_num)
  unfold wet clamp
  rw [min_eq_left (hmix.trans zero_le_one), max_eq_left hmix]

theorem params_processSample (F : Functions K) (p : SpectralPhaser K) (input : K) :
    (p.processSample F input).1.params = p.params := by
  have hmuted := congrArg params (muted_processSample F p input)
  rw [params_idle] at hmuted
  exact hmuted

/-- The phaser with its LFO at rest. -/
def resting (p : SpectralPhaser K) : SpectralPhaser K :=
  { p with params := { p.params with speed := 0 } }

/-- Without a wet part the input comes out. -/
theorem processSample_dry [IsStrictOrderedRing K] (h : 1 / 2 ≤ p.params.bypass ∨ p.params.mix ≤ 0)
    (input : K) : (p.processSample F input).2 = input := by
  unfold processSample
  split
  case isTrue => rfl
  case isFalse hbypass =>
    have hwet : p.wet = 0 := wet_eq_zero (h.resolve_left hbypass)
    dsimp only
    split
    case isTrue =>
      show input * (1 - p.wet) + _ * p.wet = input
      rw [hwet, sub_zero, mul_one, mul_zero, add_zero]
    case isFalse =>
      show input * (1 - p.wet) + _ * p.wet = input
      rw [hwet, sub_zero, mul_one, mul_zero, add_zero]

/-- Of two stereo blocks of whole frames the outputs agree up to where the blocks do, and LFO, cutoff and
coefficients are the same after both. With the LFO at rest a block is taken as it is, sample by sample, and
nothing is heard of one channel in the other where nothing but the input comes out. -/
theorem stereo_shares [IsStrictOrderedRing K] (F : Functions K) (p : SpectralPhaser K) {n : ℕ}
    {u v : List K} (hu : u.length = 2 * n) (hv : v.length = 2 * n) :
    ∃ p₁ p₂ : SpectralPhaser K, ∃ out₁ out₂ : List K,
      p.processBlockStereo F u = some (p₁, out₁) ∧ p.processBlockStereo F v = some (p₂, out₂) ∧
      (p.lfoRateHz = 0 → p.processBlock F u = (p₁, out₁)) ∧
      (∀ k, u.take k = v.take k → out₁.take k = out₂.take k) ∧
      p₁.muted = p₂.muted ∧
      (1 / 2 ≤ p.params.bypass ∨ p.params.mix ≤ 0 → out₁ = u) := by
  refine ⟨_, _, _, _, processBlockStereo_of_frames hu, processBlockStereo_of_frames hv, fun _ => rfl,
    fun k h => stream_take h, ?_, ?_⟩
  · have hmuted := stream_control (muted_processSample F) p
    rw [hmuted u, hmuted v, hu, hv]
  · intro hdry
    refine stream_of_echo (I := fun p => 1 / 2 ≤ p.params.bypass ∨ p.params.mix ≤ 0) ?_
      (fun p x h => processSample_dry h x) hdry u
    intro p x h
    rwa [params_processSample]

/-- Two blocks of two frames, of which the right channel differs at once, through the phaser as it is made
and through one with the LFO at rest. -/
theorem stereo_shares_real :
    (∃ p₁ p₂ : SpectralPhaser ℝ, ∃ out₁ out₂ : List ℝ,
      (new 8000).processBlockStereo Functions.real [0, 0, 0, 0] = some (p₁, out₁) ∧
      (new 8000).processBlockStereo Functions.real [0, 1, 0, 0] = some (p₂, out₂) ∧
      out₁.take 1 = out₂.take 1 ∧ p₁.muted = p₂.muted) ∧
    ∃ p : SpectralPhaser ℝ, ∃ out : List ℝ,
      (new 8000 : SpectralPhaser ℝ).resting.processBlockStereo Functions.real [0, 1, 0, 0] = some (p, out) ∧
      (new 8000 : SpectralPhaser ℝ).resting.processBlock Functions.real [0, 1, 0, 0] = (p, out) := by
  constructor
  · obtain ⟨p₁, p₂, out₁, out₂, h₁, h₂, _, htake, hmuted, _⟩ :=
      stereo_shares Functions.real (new 8000) (n := 2) (u := [0, 0, 0, 0]) (v := [0, 1, 0, 0]) rfl rfl
    exact ⟨p₁, p₂, out₁, out₂, h₁, h₂, htake 1 rfl, hmuted⟩
  · obtain ⟨p, _, out, _, h, _, hstill, _⟩ :=
      stereo_shares Functions.real (new 8000).resting (n := 2) (u := [0, 1, 0, 0]) (v := [0, 1, 0, 0]) rfl rfl
    exact ⟨p, out, h, hstill (by norm_num [resting, lfoRateHz])⟩

/-! ## A phaser of two sections

Its cutoff stands at 2000 Hz, half the way to the Nyquist frequency.
-/

/-- The left samples of an interleaved buffer. -/
def lefts : List K → List K
  | left :: _ :: rest => left :: lefts rest
  | [left] => [left]
  | [] => []

def stillParams : SpectralPhaserParams ℝ :=
  { width := 0, offset := 45, depth := 0, speed := 0, mix := 100, blur := 0, hzPerOct := 0
    timesFive := 0, keepBass := 0, bypass := 0 }

noncomputable def twoSections (a b : Biquad ℝ) (cutoff : ℝ) : SpectralPhaser ℝ :=
  { sampleRate := 8000, params := stillParams, sections := [a, b], numSections := 2, lfoPhase := 0
    smoothedCutoff := cutoff, bassLp := 0 }

theorem new_setParams : (new (8000 : ℝ)).setParams stillParams =
    twoSections Biquad.default Biquad.default 1000 := by
  have hsections : sectionsOf (0 : ℝ) = 2 := by
    have : ⌊(2 : ℝ) + 0 * 48 + 1 / 2⌋₊ = 2 := by
      rw [Nat.floor_eq_iff (by norm_num)]
      norm_num
    unfold sectionsOf clamp
    rw [zero_div, min_eq_left zero_le_one, max_self, this]
    rfl
  simp only [setParams, new, resizeSections, stillParams, hsections, twoSections]
  norm_num
  rfl

/-- The poles of the two sections. -/
noncomputable def lowPole : ℝ × ℝ := Biquad.pole Functions.real (9999 / 10000) 2 0

noncomputable def highPole : ℝ × ℝ := Biquad.pole Functions.real (9999 / 10000) 2 1

/-- The first section of the two with its coefficients, and a state. -/
noncomputable def lowSection (z1 z2 : ℝ) : Biquad ℝ :=
  { z1 := z1, z2 := z2, b0 := 2 * lowPole.1, b1 := -(lowPole.1 * lowPole.1 + lowPole.2 * lowPole.2), b2 := 1 / 4
    a1 := -2 * (1 / 4), a2 := 1 / 4 }

noncomputable def highG : ℝ :=
  ((lowPole.1 + 1) ^ 2 + lowPole.2 * lowPole.2) / 4

noncomputable def highSection (z1 z2 : ℝ) : Biquad ℝ :=
  { z1 := z1, z2 := z2, b0 := 2 * highPole.1, b1 := -(highPole.1 * highPole.1 + highPole.2 * highPole.2), b2 := highG
    a1 := -2 * highG, a2 := highG }

theorem followLfo_twoSections (a b : Biquad ℝ) {cutoff : ℝ} :
    (twoSections a b cutoff).followLfo Functions.real =
      twoSections (lowSection a.z1 a.z2) (highSection b.z1 b.z2) 2000 := by
  have hphase : (twoSections a b cutoff).advanceLfo Functions.real 0 = 0 := by
    have hrate : (twoSections a b cutoff).lfoRateHz = 0 := by
      norm_num [lfoRateHz, twoSections, stillParams]
    have hpi : ¬ 2 * Functions.real.pi < 0 := not_lt.mpr (mul_nonneg zero_le_two Real.pi_pos.le)
    simp only [advanceLfo, hrate, mul_zero, zero_div, add_zero, if_neg hpi]
  have hcutoff : (twoSections a b cutoff).cutoffAtPhase Functions.real 0 = 2000 := by
    norm_num [cutoffAtPhase, twoSections, stillParams, clamp, Functions.real]
  have htan : Real.tan (1 / 2 * (Real.pi * (1 / 2))) = 1 := by
    rw [show 1 / 2 * (Real.pi * (1 / 2)) = Real.pi / 4 by ring, Real.tan_pi_div_four]
  have hnorm : clamp 0 (999 / 1000) ((2000 : ℝ) / (8000 * (1 / 2))) = 1 / 2 := by
    norm_num [clamp]
  have hr : clamp 0 (9999 / 10000) (1 : ℝ) = 9999 / 10000 := by
    norm_num [clamp]
  have hsmoothed : cutoff + (2000 - cutoff) * (1 - clamp 0 1 ((0 : ℝ) / 100) * (9 / 10)) = 2000 := by
    norm_num [clamp]
  have hfollow : (twoSections a b cutoff).followLfo Functions.real =
      (twoSections a b 2000).recompute Functions.real 2000 := by
    unfold followLfo
    rw [show (twoSections a b cutoff).lfoPhase = 0 from rfl, hphase]
    dsimp only
    rw [hcutoff]
    rw [show (twoSections a b cutoff).smoothedCutoff + (2000 - (twoSections a b cutoff).smoothedCutoff) *
      (1 - clamp 0 1 ((twoSections a b cutoff).params.blur / 100) * (9 / 10)) = 2000 from hsmoothed]
    rfl
  rw [hfollow]
  unfold recompute
  dsimp only
  rw [show (twoSections a b 2000).sampleRate = 8000 from rfl, hnorm,
    show Functions.real.tan (1 / 2 * (Functions.real.pi * (1 / 2))) = 1 from htan, hr]
  have hsections : Biquad.recomputeFrom Functions.real (9999 / 10000) 2 0 (0, 0) [a, b] =
      [lowSection a.z1 a.z2, highSection b.z1 b.z2] := by
    have hg : (((0 : ℝ) + 1) ^ 2 + 0 * 0) / 4 = 1 / 4 := by norm_num
    simp only [Biquad.recomputeFrom, hg]
    rfl
  show { twoSections a b 2000 with
    sections := Biquad.recomputeFrom Functions.real (9999 / 10000) 2 0 (0, 0) [a, b] } = _
  rw [hsections]
  rfl

theorem processSample_twoSections (a b : Biquad ℝ) (cutoff x : ℝ) :
    (twoSections a b cutoff).processSample Functions.real x =
      (twoSections ((lowSection a.z1 a.z2).process x).1
          ((highSection b.z1 b.z2).process ((lowSection a.z1 a.z2).process x).2).1 2000,
        ((highSection b.z1 b.z2).process ((lowSection a.z1 a.z2).process x).2).2) := by
  have hbypass : ¬ 1 / 2 ≤ (twoSections a b cutoff).params.bypass := by norm_num [twoSections, stillParams]
  have hbass (c d : Biquad ℝ) : ¬ 1 / 2 ≤ (twoSections c d 2000).params.keepBass := by
    norm_num [twoSections, stillParams]
  have hwet (c d : Biquad ℝ) : (twoSections c d 2000).wet = 1 := by
    norm_num [wet, clamp, twoSections, stillParams]
  unfold processSample
  rw [if_neg hbypass, followLfo_twoSections]
  dsimp only
  rw [if_neg (hbass _ _)]
  show (twoSections _ _ 2000, x * (1 - (twoSections _ _ 2000).wet) + _ * (twoSections _ _ 2000).wet) = _
  rw [hwet, sub_self, mul_zero, zero_add, mul_one]
  rfl

theorem cos_sin_pole (k : ℕ) (hk : k < 2) :
    Real.cos ((2 * k + 1 : ℕ) * Real.pi / (2 * (2 : ℕ))) = (if k = 0 then √2 / 2 else -(√2 / 2)) ∧
      Real.sin ((2 * k + 1 : ℕ) * Real.pi / (2 * (2 : ℕ))) = √2 / 2 := by
  rcases (by omega : k = 0 ∨ k = 1) with rfl | rfl
  · have hphi : (2 * 0 + 1 : ℕ) * Real.pi / (2 * (2 : ℕ)) = Real.pi / 4 := by
      push_cast
      ring
    rw [hphi]
    exact ⟨Real.cos_pi_div_four, Real.sin_pi_div_four⟩
  · have hphi : (2 * 1 + 1 : ℕ) * Real.pi / (2 * (2 : ℕ)) = Real.pi - Real.pi / 4 := by
      push_cast
      ring
    rw [hphi, Real.cos_pi_sub, Real.sin_pi_sub, Real.cos_pi_div_four, Real.sin_pi_div_four]
    exact ⟨rfl, rfl⟩

theorem sqrt_two_bounds : 7 / 5 < √2 ∧ √2 < 71 / 50 := by
  constructor
  · rw [Real.lt_sqrt (by norm_num)]
    norm_num
  · rw [Real.sqrt_lt' (by norm_num)]
    norm_num

theorem low_bounds : 0 < lowPole.1 ∧ lowPole.1 < 1 / 1000 ∧ 2 / 5 < lowPole.2 ∧ lowPole.2 < 1 / 2 := by
  obtain ⟨hcos, hsin⟩ := cos_sin_pole 0 (by norm_num)
  obtain ⟨hlo, hhi⟩ := sqrt_two_bounds
  set denom : ℝ := 1 + 9999 / 10000 * (9999 / 10000) + 2 * (9999 / 10000) * (√2 / 2) with hdenom
  have hlarge : ¬ |denom| < 1 / 10 ^ 9 := by
    rw [not_lt, abs_of_pos (by linarith)]
    norm_num
    linarith
  have hpole : lowPole = ((1 - 9999 / 10000 * (9999 / 10000)) / denom,
      2 * (9999 / 10000) * (√2 / 2) / denom) := by
    simp only [lowPole, Biquad.pole, Functions.real, hcos, hsin, if_true, ← hdenom, if_neg hlarge]
  have hpos : 0 < denom := by linarith
  rw [hpole]
  refine ⟨div_pos (by norm_num) hpos, ?_, ?_, ?_⟩
  · rw [div_lt_iff₀ hpos]
    linarith
  · rw [lt_div_iff₀ hpos]
    linarith
  · rw [div_lt_iff₀ hpos]
    linarith

theorem high_bounds : 0 < highPole.1 ∧ highPole.1 < 1 / 1000 ∧ 2 < highPole.2 := by
  obtain ⟨hcos, hsin⟩ := cos_sin_pole 1 (by norm_num)
  obtain ⟨hlo, hhi⟩ := sqrt_two_bounds
  set denom : ℝ := 1 + 9999 / 10000 * (9999 / 10000) + 2 * (9999 / 10000) * -(√2 / 2) with hdenom
  have hlarge : ¬ |denom| < 1 / 10 ^ 9 := by
    rw [not_lt, abs_of_pos (by linarith)]
    norm_num
    linarith
  have hpole : highPole = ((1 - 9999 / 10000 * (9999 / 10000)) / denom,
      2 * (9999 / 10000) * (√2 / 2) / denom) := by
    simp only [highPole, Biquad.pole, Functions.real, hcos, hsin, one_ne_zero, if_false, ← hdenom,
      if_neg hlarge]
  have hpos : 0 < denom := by linarith
  rw [hpole]
  refine ⟨div_pos (by norm_num) hpos, ?_, ?_⟩
  · rw [div_lt_iff₀ hpos]
    linarith
  · rw [lt_div_iff₀ hpos]
    linarith

/-- What the sample before leaves in the two sections, as it comes out with the next. -/
noncomputable def carried : ℝ :=
  2 * highPole.1 * (lowPole.1 - (lowPole.1 * lowPole.1 + lowPole.2 * lowPole.2)) +
    2 * lowPole.1 * (4 * highG * highPole.1 - (highPole.1 * highPole.1 + highPole.2 * highPole.2))

theorem carried_neg : carried < 0 := by
  obtain ⟨hlow, hlow', him, him'⟩ := low_bounds
  obtain ⟨hhigh, hhigh', him2⟩ := high_bounds
  have hg : highG < 1 := by
    unfold highG
    nlinarith
  have hfirst : lowPole.1 - (lowPole.1 * lowPole.1 + lowPole.2 * lowPole.2) < 0 := by nlinarith
  have hsecond : 4 * highG * highPole.1 - (highPole.1 * highPole.1 + highPole.2 * highPole.2) < 0 := by nlinarith
  unfold carried
  nlinarith

theorem lefts_of_right (r : ℝ) :
    (((new 8000).setParams stillParams).processBlockStereo Functions.real [0, r, 0, 0]).map
      (fun out => lefts out.2) = some [0, carried * r] := by
  rw [new_setParams]
  simp only [processBlockStereo, processSample_twoSections, Biquad.process, lowSection, highSection,
    Biquad.default, lefts, Option.map_some, carried]
  congr 2
  · ring
  · congr 1
    ring

/-- A right sample comes out on the left a frame later. -/
theorem right_leaks :
    ¬ ∀ (p : SpectralPhaser ℝ) (u v : List ℝ), u.length = v.length → lefts u = lefts v →
      (p.processBlockStereo Functions.real u).map (fun out => lefts out.2) =
        (p.processBlockStereo Functions.real v).map fun out => lefts out.2 := by
  intro h
  have hleft := h ((new 8000).setParams stillParams) [0, 0, 0, 0] [0, 1, 0, 0] rfl rfl
  rw [lefts_of_right, lefts_of_right, mul_zero, mul_one] at hleft
  have hzero : carried = 0 := by
    injection hleft with hlist
    injection hlist with _ hrest
    injection hrest with hout _
    exact hout.symm
  exact absurd hzero carried_neg.ne

end SpectralPhaser

end HikaruOpenLive.Dsp
