import HikaruOpenLive.Foundations.OverlapAdd
import HikaruOpenLive.Dsp.SpectralPhaser
import Mathlib.Tactic.Linarith

/-! # The pitch shifter

A phase vocoder over frames of 2048 samples, one every 512. Samples go in and out one at a time: the input
waits in a buffer for the next frame, the frames that come out are added up in a ring of 4096 cells. Arithmetic
is exact; the transforms and the polar form of a bin are those of `Fft`, and a transform that fails ends the
processor.

`batch` is the same vocoder over a whole recording at once: the frames of the input, each through the vocoder,
each laid where it is heard.
-/
set_option autoImplicit false

namespace HikaruOpenLive.Dsp

open Foundations.SampleStreams
open Foundations.OverlapAdd

/-- `N`. -/
@[irreducible] def frameLength : ℕ := 2048

@[irreducible] def hop : ℕ := 512

/-- `N / 2 + 1`. -/
def binCount : ℕ := frameLength / 2 + 1

/-- The transforms, and the polar form of a bin. The inverse refuses what is no spectrum of a real sound. -/
structure Fft (K : Type) where
  forward : List K → List (K × K)
  inverse : List (K × K) → Option (List K)
  norm : K × K → K
  arg : K × K → K
  fromPolar : K → K → K × K

/-- `last_phase` and `output_phase`. -/
structure Phases (K : Type) where
  last : List K
  output : List K

structure OpenHarmonicProcessor (K : Type) where
  inputBuffer : List K
  outputBuffer : List K
  window : List K
  phases : Phases K
  wetDry : K
  pitchShift : K
  writePtr : ℕ
  readPtr : ℕ

/-- A sample, and the public fields as they are when it comes. -/
structure HarmonicSample (K : Type) where
  input : K
  wetDry : K
  pitchShift : K

variable {K : Type} [Field K] [LinearOrder K] [FloorRing K]

def Phases.new : Phases K :=
  { last := List.replicate binCount 0, output := List.replicate binCount 0 }

/-- `while delta > PI { delta -= 2 PI }` and `while delta < -PI { delta += 2 PI }`, all turns at once. -/
def wrapPhase (pi delta : K) : K :=
  let delta := delta - 2.0 * pi * (⌈(delta - pi) / (2.0 * pi)⌉₊ : ℕ)
  delta + 2.0 * pi * (⌈(-pi - delta) / (2.0 * pi)⌉₊ : ℕ)

/-- What the loop over the bins has written. -/
structure Shifted (K : Type) where
  phases : Phases K
  scratch : List (K × K)

/-- One bin, moved to where its frequency goes. -/
def shiftBin (F : Functions K) (fft : Fft K) (shiftFactor : K) (fftOut : List (K × K)) (s : Shifted K)
    (i : ℕ) : Shifted K :=
  let mag := fft.norm (fftOut.getD i (0, 0))
  let phase := fft.arg (fftOut.getD i (0, 0))
  let expectedDelta := 2.0 * F.pi * i * hop / frameLength
  let deltaPhase := wrapPhase F.pi (phase - s.phases.last.getD i 0 - expectedDelta)
  let last := s.phases.last.set i phase
  let newBin := ⌊i * shiftFactor⌋₊
  if newBin < binCount then
    let turned := s.phases.output.getD newBin 0 + (expectedDelta + deltaPhase * shiftFactor)
    let bin := s.scratch.getD newBin (0, 0)
    let added := fft.fromPolar mag turned
    { phases := { last := last, output := s.phases.output.set newBin turned }
      scratch := s.scratch.set newBin (bin.1 + added.1, bin.2 + added.2) }
  else { s with phases := { s.phases with last := last } }

def shiftSpectrum (F : Functions K) (fft : Fft K) (shiftFactor : K) (fftOut : List (K × K))
    (phases : Phases K) : Shifted K :=
  (List.range binCount).foldl (shiftBin F fft shiftFactor fftOut)
    { phases := phases, scratch := List.replicate binCount (0, 0) }

/-- A frame through the vocoder, as it is added to the output. -/
def vocode (F : Functions K) (fft : Fft K) (window : List K) (pitchShift : K) (phases : Phases K)
    (input : List K) : Option (Phases K × List K) :=
  let fftIn := (List.range frameLength).map fun i => input.getD i 0 * window.getD i 0
  let shifted := shiftSpectrum F fft (F.powTwo (pitchShift / 12.0)) (fft.forward fftIn) phases
  (fft.inverse shifted.scratch).map fun ifftOut =>
    (shifted.phases, (List.range frameLength).map fun i =>
      ifftOut.getD i 0 * window.getD i 0 / (frameLength * 0.5))

def hann (F : Functions K) (i : ℕ) : K :=
  0.5 * (1 - F.cos (2.0 * F.pi * i / frameLength))

def hannWindow (F : Functions K) : List K :=
  (List.range frameLength).map (hann F)

namespace OpenHarmonicProcessor

def new (F : Functions K) : OpenHarmonicProcessor K :=
  { inputBuffer := List.replicate frameLength 0
    outputBuffer := List.replicate (frameLength * 2) 0
    window := hannWindow F
    phases := Phases.new
    wetDry := 0.5
    pitchShift := 0
    writePtr := 0
    readPtr := 0 }

def processFftFrame (F : Functions K) (fft : Fft K) (p : OpenHarmonicProcessor K) :
    Option (OpenHarmonicProcessor K) :=
  (vocode F fft p.window p.pitchShift p.phases p.inputBuffer).map fun (phases, frame) =>
    { p with phases := phases, outputBuffer := addFrame (frameLength * 2) p.outputBuffer p.readPtr frame }

/-- The sample taken in, and the cell that was read cleared. -/
def accept (p : OpenHarmonicProcessor K) (sample : HarmonicSample K) : OpenHarmonicProcessor K :=
  { p with
    wetDry := sample.wetDry
    pitchShift := sample.pitchShift
    inputBuffer := p.inputBuffer.set p.writePtr sample.input
    outputBuffer := p.outputBuffer.set p.readPtr 0
    writePtr := p.writePtr + 1
    readPtr := (p.readPtr + 1) % (frameLength * 2) }

/-- `copy_within(HOP..N, 0)`: the newest samples are the beginning of the next frame. -/
def slide (p : OpenHarmonicProcessor K) : OpenHarmonicProcessor K :=
  { p with
    inputBuffer := p.inputBuffer.drop hop ++ p.inputBuffer.drop (frameLength - hop)
    writePtr := frameLength - hop }

def processSample (F : Functions K) (fft : Fft K) (p : OpenHarmonicProcessor K) (sample : HarmonicSample K) :
    Option (OpenHarmonicProcessor K × K) :=
  let outSample := p.outputBuffer.getD p.readPtr 0
  let out := sample.input * (1 - sample.wetDry) + outSample * sample.wetDry
  let p := p.accept sample
  if frameLength ≤ p.writePtr then (p.processFftFrame F fft).map fun p => (p.slide, out)
  else some (p, out)

end OpenHarmonicProcessor

/-! ## The recording as a whole -/

/-- How many frames are complete after so many samples. -/
def framesBy (n : ℕ) : ℕ :=
  if n < frameLength then 0 else (n - frameLength) / hop + 1

/-- A field of the sample at some time. -/
def atTime (field : HarmonicSample K → K) (samples : List (HarmonicSample K)) (n : ℕ) : K :=
  (samples.map field).getD n 0

/-- Where the frame is heard from; it was complete one sample earlier. -/
def frameStart (k : ℕ) : ℕ :=
  frameLength + k * hop

def frameInput (samples : List (HarmonicSample K)) (k : ℕ) : List K :=
  (List.range frameLength).map fun i => atTime HarmonicSample.input samples (k * hop + i)

/-- The first frames of a recording, each with the time from which it is heard. -/
def batch (F : Functions K) (fft : Fft K) (samples : List (HarmonicSample K)) :
    ℕ → Option (Phases K × List (ℕ × List K))
  | 0 => some (Phases.new, [])
  | k + 1 =>
    (batch F fft samples k).bind fun (phases, frames) =>
      let pitchShift := atTime HarmonicSample.pitchShift samples (frameStart k - 1)
      (vocode F fft (hannWindow F) pitchShift phases (frameInput samples k)).map fun (phases, frame) =>
        (phases, frames ++ [(frameStart k, frame)])

/-- Every sample mixed with what is heard at its time. -/
def mixed (samples : List (HarmonicSample K)) (frames : List (ℕ × List K)) : List K :=
  samples.mapIdx fun n s => s.input * (1 - s.wetDry) + heard frames n * s.wetDry

/-! ## Whole turns -/

section Turns

variable [IsStrictOrderedRing K]

theorem ceil_over {turn a : K} (hturn : 0 < turn) (h : 0 < a) :
    ⌈a / turn⌉₊ = ⌈(a - turn) / turn⌉₊ + 1 := by
  have hpos : 0 < ⌈a / turn⌉₊ := Nat.ceil_pos.mpr (div_pos h hturn)
  rw [sub_div, div_self hturn.ne', Nat.ceil_sub_one]
  omega

/-- The turns taken off are those of the two loops. -/
theorem wrapPhase_loop {pi : K} (hpi : 0 < pi) (delta : K) :
    wrapPhase pi delta =
      if pi < delta then wrapPhase pi (delta - 2.0 * pi)
      else if delta < -pi then wrapPhase pi (delta + 2.0 * pi) else delta := by
  have htwo : (2.0 : K) = 2 := by norm_num
  unfold wrapPhase
  dsimp only
  rw [htwo]
  obtain ⟨turn, hturn⟩ : ∃ turn, turn = 2 * pi := ⟨_, rfl⟩
  rw [← hturn]
  have hpos : 0 < turn := by linarith
  have hnone : ∀ a : K, a ≤ 0 → ⌈a / turn⌉₊ = 0 :=
    fun a ha => Nat.ceil_eq_zero.mpr (div_nonpos_of_nonpos_of_nonneg ha hpos.le)
  split_ifs with hhigh hlow
  · have hover : delta - turn - pi = delta - pi - turn := by ring
    have hsame : delta - turn * ((⌈(delta - pi - turn) / turn⌉₊ + 1 : ℕ) : K) =
        delta - turn - turn * (⌈(delta - pi - turn) / turn⌉₊ : ℕ) := by
      push_cast
      ring
    rw [hover, ceil_over hpos (by linarith), hsame]
  · have hunder : -pi - (delta + turn) = -pi - delta - turn := by ring
    rw [hnone (delta - pi) (by linarith), hnone (delta + turn - pi) (by linarith), Nat.cast_zero, mul_zero,
      sub_zero, sub_zero, hunder, ceil_over hpos (a := -pi - delta) (by linarith)]
    push_cast
    ring
  · rw [hnone (delta - pi) (by linarith), Nat.cast_zero, mul_zero, sub_zero,
      hnone (-pi - delta) (by linarith), Nat.cast_zero, mul_zero, add_zero]

end Turns

/-! ## Frames and samples -/

theorem frameLength_eq : frameLength = 2048 := by
  unfold frameLength
  rfl

theorem hop_eq : hop = 512 := by
  unfold hop
  rfl

theorem frameLength_pos : 0 < frameLength := by
  rw [frameLength_eq]
  omega

theorem hop_le : hop ≤ frameLength := by
  rw [frameLength_eq, hop_eq]
  omega

theorem framesBy_of_lt {n : ℕ} (h : n < frameLength) : framesBy n = 0 :=
  if_pos h

theorem framesBy_of_le {n : ℕ} (h : frameLength ≤ n) : framesBy n = (n - frameLength) / hop + 1 :=
  if_neg (by omega)

/-- The samples since the last frame's beginning are fewer than a frame. -/
theorem framesBy_bounds (n : ℕ) : framesBy n * hop ≤ n ∧ n < framesBy n * hop + frameLength := by
  rcases lt_or_ge n frameLength with h | h
  · rw [framesBy_of_lt h]
    omega
  · rw [framesBy_of_le h]
    rw [frameLength_eq, hop_eq] at *
    omega

/-- A frame is complete with the sample that makes it one. -/
theorem framesBy_succ (n : ℕ) :
    framesBy (n + 1) = if n + 1 = framesBy n * hop + frameLength then framesBy n + 1 else framesBy n := by
  rcases lt_trichotomy (n + 1) frameLength with h | h | h
  · rw [framesBy_of_lt h, framesBy_of_lt (by omega), if_neg (by omega)]
  · rw [framesBy_of_le h.ge, framesBy_of_lt (by omega), if_pos (by omega), h, Nat.sub_self, Nat.zero_div]
  · rw [framesBy_of_le h.le, framesBy_of_le (by omega)]
    rw [frameLength_eq, hop_eq] at *
    split_ifs <;> omega

theorem frameStart_le {k n : ℕ} (h : k < framesBy n) : frameStart k ≤ n := by
  have hlong : frameLength ≤ n := by
    by_contra hshort
    rw [framesBy_of_lt (by omega)] at h
    omega
  rw [framesBy_of_le hlong] at h
  rw [frameStart]
  rw [frameLength_eq, hop_eq] at *
  omega

omit [LinearOrder K] [FloorRing K] in
theorem atTime_concat (field : HarmonicSample K → K) {samples : List (HarmonicSample K)} {n : ℕ}
    (h : n < samples.length) (s : HarmonicSample K) : atTime field (samples ++ [s]) n = atTime field samples n := by
  rw [atTime, List.map_append, List.getD_append _ _ _ _ (by rwa [List.length_map])]
  rfl

omit [LinearOrder K] [FloorRing K] in
theorem atTime_last (field : HarmonicSample K → K) (samples : List (HarmonicSample K)) (s : HarmonicSample K) :
    atTime field (samples ++ [s]) samples.length = field s := by
  rw [atTime, List.map_append, List.getD_append_right _ _ _ _ (by rw [List.length_map]), List.length_map,
    Nat.sub_self]
  rfl

omit [LinearOrder K] [FloorRing K] in
theorem getD_frameInput (samples : List (HarmonicSample K)) (k : ℕ) {i : ℕ} (h : i < frameLength) :
    (frameInput samples k).getD i 0 = atTime HarmonicSample.input samples (k * hop + i) := by
  rw [frameInput, List.getD_eq_getElem?_getD, List.getElem?_map, List.getElem?_range h]
  rfl

/-- A frame has only to do with what was recorded by its end. -/
theorem batch_concat (F : Functions K) (fft : Fft K) (samples : List (HarmonicSample K))
    (s : HarmonicSample K) {k : ℕ} (h : k ≤ framesBy samples.length) :
    batch F fft (samples ++ [s]) k = batch F fft samples k := by
  induction k with
  | zero => rfl
  | succ k ih =>
    have hend : frameStart k ≤ samples.length := frameStart_le h
    have hpositive : 0 < frameStart k := Nat.lt_of_lt_of_le frameLength_pos (Nat.le_add_right frameLength _)
    have hinput : frameInput (samples ++ [s]) k = frameInput samples k := by
      refine List.map_congr_left ?_
      intro i hi
      have hlast : k * hop + i < frameStart k := by
        have := List.mem_range.mp hi
        unfold frameStart
        omega
      exact atTime_concat _ (by omega) s
    rw [batch, batch, ih (by omega), hinput, atTime_concat _ (by omega)]

/-- A transform that fails leaves nothing to go on from. -/
theorem batch_none {F : Functions K} {fft : Fft K} {samples : List (HarmonicSample K)} {k m : ℕ}
    (h : batch F fft samples k = none) (hkm : k ≤ m) : batch F fft samples m = none := by
  induction m, hkm using Nat.le_induction with
  | base => exact h
  | succ m _ ih =>
    rw [batch, ih]
    rfl

theorem vocode_congr (F : Functions K) (fft : Fft K) (window : List K) (pitchShift : K) (phases : Phases K)
    {input input' : List K} (h : ∀ i < frameLength, input.getD i 0 = input'.getD i 0) :
    vocode F fft window pitchShift phases input = vocode F fft window pitchShift phases input' := by
  have hfft : ((List.range frameLength).map fun i => input.getD i 0 * window.getD i 0) =
      (List.range frameLength).map fun i => input'.getD i 0 * window.getD i 0 := by
    refine List.map_congr_left ?_
    intro i hi
    rw [h i (List.mem_range.mp hi)]
  simp only [vocode, hfft]

theorem length_vocode {F : Functions K} {fft : Fft K} {window input frame : List K} {pitchShift : K}
    {phases phases' : Phases K} (h : vocode F fft window pitchShift phases input = some (phases', frame)) :
    frame.length = frameLength := by
  obtain ⟨ifftOut, _, heq⟩ := Option.map_eq_some_iff.mp h
  rw [Prod.mk.injEq] at heq
  rw [← heq.2, List.length_map, List.length_range]

/-! ## The buffers keep what the recording has -/

/-- After the samples, the processor has done the frames that are complete, and holds the beginning of the
next. -/
structure Follows (F : Functions K) (samples : List (HarmonicSample K)) (phases : Phases K)
    (frames : List (ℕ × List K)) (p : OpenHarmonicProcessor K) : Prop where
  phases : p.phases = phases
  window : p.window = hannWindow F
  filled : framesBy samples.length * hop + p.writePtr = samples.length
  length : p.inputBuffer.length = frameLength
  input : ∀ i < p.writePtr, p.inputBuffer.getD i 0 =
    atTime HarmonicSample.input samples (framesBy samples.length * hop + i)
  output : Awaits (frameLength * 2) p.outputBuffer p.readPtr fun i => heard frames (samples.length + i)

omit [LinearOrder K] [FloorRing K] in
theorem follows_new (F : Functions K) : Follows F [] Phases.new [] (OpenHarmonicProcessor.new F) := by
  unfold OpenHarmonicProcessor.new
  have hnone : framesBy 0 = 0 := framesBy_of_lt frameLength_pos
  refine ⟨rfl, rfl, ?_, List.length_replicate, ?_, awaits_fresh (Nat.mul_pos frameLength_pos two_pos)⟩
  · show framesBy 0 * hop + 0 = 0
    rw [hnone, Nat.zero_mul]
  · intro i hi
    exact absurd hi (Nat.not_lt_zero i)

variable {F : Functions K} {fft : Fft K} {samples : List (HarmonicSample K)} {phases : Phases K}
  {frames : List (ℕ × List K)} {p : OpenHarmonicProcessor K}

omit [LinearOrder K] [FloorRing K] in
theorem Follows.writePtr_lt (h : Follows F samples phases frames p) : p.writePtr < frameLength := by
  have hbounds := framesBy_bounds samples.length
  have hfilled := h.filled
  omega

omit [LinearOrder K] [FloorRing K] in
/-- What the processor holds between the sample and the frame. -/
theorem Follows.accept (h : Follows F samples phases frames p) (s : HarmonicSample K) :
    (∀ i < p.writePtr + 1, (p.accept s).inputBuffer.getD i 0 =
        atTime HarmonicSample.input (samples ++ [s]) (framesBy samples.length * hop + i)) ∧
      Awaits (frameLength * 2) (p.accept s).outputBuffer (p.accept s).readPtr
        fun i => heard frames ((samples ++ [s]).length + i) := by
  have hfilled := h.filled
  constructor
  · intro i hi
    show (p.inputBuffer.set p.writePtr s.input).getD i 0 = _
    by_cases hlast : i = p.writePtr
    · rw [hlast, hfilled, atTime_last, List.getD_eq_getElem?_getD,
        List.getElem?_set_self (by rw [h.length]; exact h.writePtr_lt)]
      rfl
    · rw [atTime_concat _ (by omega), List.getD_eq_getElem?_getD, List.getElem?_set_ne (Ne.symm hlast),
        ← List.getD_eq_getElem?_getD, h.input i (by omega)]
  · refine h.output.clear.congr ?_
    intro i
    rw [List.length_append, List.length_singleton, Nat.add_assoc, Nat.add_comm 1 i]

omit [LinearOrder K] [FloorRing K] in
/-- A sample that completes no frame. -/
theorem Follows.wait (h : Follows F samples phases frames p) {s : HarmonicSample K}
    (hwait : p.writePtr + 1 < frameLength) : Follows F (samples ++ [s]) phases frames (p.accept s) := by
  obtain ⟨hinput, houtput⟩ := h.accept s
  have hfilled := h.filled
  have hcount : framesBy (samples ++ [s]).length = framesBy samples.length := by
    rw [List.length_append, List.length_singleton, framesBy_succ, if_neg (by omega)]
  refine ⟨h.phases, h.window, ?_, ?_, ?_, houtput⟩
  · rw [hcount, List.length_append, List.length_singleton]
    show _ + (p.writePtr + 1) = _
    omega
  · exact (List.length_set).trans h.length
  · rw [hcount]
    exact hinput

omit [LinearOrder K] [FloorRing K] in
/-- A sample that completes a frame: the frame goes to the output, and its last samples stay. -/
theorem Follows.frame (h : Follows F samples phases frames p) {s : HarmonicSample K}
    (hdue : p.writePtr + 1 = frameLength) {phases' : Phases K} {frame : List K}
    (hframe : frame.length = frameLength) :
    Follows F (samples ++ [s]) phases' (frames ++ [(frameStart (framesBy samples.length), frame)])
      { p.accept s with
        phases := phases'
        outputBuffer := addFrame (frameLength * 2) (p.accept s).outputBuffer (p.accept s).readPtr
          frame }.slide := by
  obtain ⟨hinput, houtput⟩ := h.accept s
  have hfilled := h.filled
  have hlength : (samples ++ [s]).length = frameStart (framesBy samples.length) := by
    rw [List.length_append, List.length_singleton, frameStart]
    omega
  have hcount : framesBy (samples ++ [s]).length = framesBy samples.length + 1 := by
    rw [List.length_append, List.length_singleton, framesBy_succ, if_pos (by omega)]
  have hkept : (p.accept s).inputBuffer.length = frameLength := (List.length_set).trans h.length
  refine ⟨rfl, h.window, ?_, ?_, ?_, ?_⟩
  · rw [hcount, hlength, frameStart]
    show _ + (frameLength - hop) = _
    rw [frameLength_eq, hop_eq]
    omega
  · show ((p.accept s).inputBuffer.drop hop ++ (p.accept s).inputBuffer.drop (frameLength - hop)).length = _
    rw [List.length_append, List.length_drop, List.length_drop, hkept]
    have := hop_le
    omega
  · intro i hi
    have hi' : i < frameLength - hop := hi
    show ((p.accept s).inputBuffer.drop hop ++ _).getD i 0 = _
    have hshort : i < ((p.accept s).inputBuffer.drop hop).length := by rwa [List.length_drop, hkept]
    rw [List.getD_append _ _ _ _ hshort, List.getD_eq_getElem?_getD, List.getElem?_drop,
      ← List.getD_eq_getElem?_getD, hinput _ (by omega), hcount]
    congr 1
    rw [Nat.add_mul]
    omega
  · have hring : frame.length ≤ frameLength * 2 := by omega
    refine (houtput.addFrame hring).congr ?_
    intro i
    rw [heard_append, heard_singleton, sounds, if_pos (by omega), hlength, Nat.add_sub_cancel_left]

omit [LinearOrder K] [FloorRing K] in
theorem mixed_concat (samples : List (HarmonicSample K)) (s : HarmonicSample K) (frames : List (ℕ × List K)) :
    mixed (samples ++ [s]) frames =
      mixed samples frames ++ [s.input * (1 - s.wetDry) + heard frames samples.length * s.wetDry] :=
  List.mapIdx_concat

omit [LinearOrder K] [FloorRing K] in
theorem getElem?_mixed (samples : List (HarmonicSample K)) (frames : List (ℕ × List K)) (n : ℕ) :
    (mixed samples frames)[n]? =
      samples[n]?.map fun s => s.input * (1 - s.wetDry) + heard frames n * s.wetDry :=
  List.getElem?_mapIdx

omit [LinearOrder K] [FloorRing K] in
/-- A frame is not heard in the samples it is made of. -/
theorem mixed_later (samples : List (HarmonicSample K)) (frames : List (ℕ × List K)) (frame : List K) :
    mixed samples (frames ++ [(samples.length, frame)]) = mixed samples frames := by
  refine List.mapIdx_eq_mapIdx_iff.mpr ?_
  intro n hn
  rw [heard_append, heard_singleton, sounds_before hn, add_zero]

omit [LinearOrder K] [FloorRing K] in
/-- What a sample is mixed with. -/
theorem Follows.out_eq (h : Follows F samples phases frames p) (s : HarmonicSample K) :
    s.input * (1 - s.wetDry) + p.outputBuffer.getD p.readPtr 0 * s.wetDry =
      s.input * (1 - s.wetDry) + heard frames samples.length * s.wetDry := by
  rw [h.output.head]
  rfl

omit [LinearOrder K] [FloorRing K] in
theorem Follows.length_due (h : Follows F samples phases frames p) (s : HarmonicSample K)
    (hdue : p.writePtr + 1 = frameLength) :
    (samples ++ [s]).length = frameStart (framesBy samples.length) ∧
      framesBy (samples ++ [s]).length = framesBy samples.length + 1 := by
  have hfilled := h.filled
  rw [List.length_append, List.length_singleton, framesBy_succ, if_pos (by omega), frameStart]
  exact ⟨by omega, rfl⟩

/-- The frame that the sample completes, through the processor. -/
theorem processSample_due (h : Follows F samples phases frames p) (s : HarmonicSample K)
    (hdue : p.writePtr + 1 = frameLength) :
    p.processSample F fft s =
      (vocode F fft (hannWindow F) s.pitchShift phases
        (frameInput (samples ++ [s]) (framesBy samples.length))).map fun q =>
          ({ p.accept s with
              phases := q.1
              outputBuffer := addFrame (frameLength * 2) (p.accept s).outputBuffer (p.accept s).readPtr
                q.2 }.slide, s.input * (1 - s.wetDry) + heard frames samples.length * s.wetDry) := by
  have hinput : vocode F fft (p.accept s).window s.pitchShift phases (p.accept s).inputBuffer =
      vocode F fft (hannWindow F) s.pitchShift phases
        (frameInput (samples ++ [s]) (framesBy samples.length)) := by
    have hwindow : (p.accept s).window = hannWindow F := h.window
    rw [hwindow]
    refine vocode_congr _ _ _ _ _ ?_
    intro i hi
    rw [getD_frameInput _ _ hi, (h.accept s).1 i (by omega)]
  have hphases : (p.accept s).phases = phases := h.phases
  have hfull : frameLength ≤ (p.accept s).writePtr := hdue.ge
  unfold OpenHarmonicProcessor.processSample OpenHarmonicProcessor.processFftFrame
  dsimp only
  rw [if_pos hfull, h.out_eq s, hphases]
  show ((vocode F fft (p.accept s).window s.pitchShift phases (p.accept s).inputBuffer).map _).map _ = _
  rw [hinput, Option.map_map]
  rfl

/-- The same frame, in the recording. -/
theorem batch_due (h : Follows F samples phases frames p) (s : HarmonicSample K)
    (hbatch : batch F fft (samples ++ [s]) (framesBy samples.length) = some (phases, frames))
    (hdue : p.writePtr + 1 = frameLength) :
    batch F fft (samples ++ [s]) (framesBy (samples ++ [s]).length) =
      (vocode F fft (hannWindow F) s.pitchShift phases
        (frameInput (samples ++ [s]) (framesBy samples.length))).map fun q =>
          (q.1, frames ++ [(frameStart (framesBy samples.length), q.2)]) := by
  obtain ⟨hlength, hcount⟩ := h.length_due s hdue
  have hpitch : atTime HarmonicSample.pitchShift (samples ++ [s]) (frameStart (framesBy samples.length) - 1) =
      s.pitchShift := by
    rw [← hlength, List.length_append, List.length_singleton, Nat.add_sub_cancel, atTime_last]
  rw [hcount, batch, hbatch]
  show (vocode F fft (hannWindow F) _ _ _).map _ = _
  rw [hpitch]

/-- One sample more, in the processor and in the recording. -/
theorem processSample_batch (h : Follows F samples phases frames p) (s : HarmonicSample K)
    (hbatch : batch F fft samples (framesBy samples.length) = some (phases, frames)) :
    let out := s.input * (1 - s.wetDry) + heard frames samples.length * s.wetDry
    let after := batch F fft (samples ++ [s]) (framesBy (samples ++ [s]).length)
    (p.processSample F fft s = none ∧ after = none) ∨
      ∃ p' phases' frames', p.processSample F fft s = some (p', out) ∧ after = some (phases', frames') ∧
        Follows F (samples ++ [s]) phases' frames' p' ∧
          mixed (samples ++ [s]) frames' = mixed (samples ++ [s]) frames := by
  intro out after
  have hsame : batch F fft (samples ++ [s]) (framesBy samples.length) = some (phases, frames) :=
    (batch_concat F fft samples s le_rfl).trans hbatch
  by_cases hdue : p.writePtr + 1 = frameLength
  · have hprocess : p.processSample F fft s = _ := processSample_due h s hdue
    have hafter := batch_due h s hsame hdue
    cases hq : vocode F fft (hannWindow F) s.pitchShift phases
        (frameInput (samples ++ [s]) (framesBy samples.length)) with
    | none =>
      rw [hq] at hprocess hafter
      exact .inl ⟨hprocess, hafter⟩
    | some q =>
      rw [hq] at hprocess hafter
      refine .inr ⟨_, q.1, _, hprocess, hafter, h.frame hdue (length_vocode hq), ?_⟩
      rw [← (h.length_due s hdue).1, mixed_later]
  · have hlt := h.writePtr_lt
    have hfilled := h.filled
    have hcount : framesBy (samples ++ [s]).length = framesBy samples.length := by
      rw [List.length_append, List.length_singleton, framesBy_succ, if_neg (by omega)]
    have hwait : ¬ frameLength ≤ (p.accept s).writePtr := by
      show ¬ frameLength ≤ p.writePtr + 1
      omega
    refine .inr ⟨p.accept s, phases, frames, ?_, ?_, h.wait (by omega), rfl⟩
    · unfold OpenHarmonicProcessor.processSample
      dsimp only
      rw [if_neg hwait, h.out_eq s]
    · show batch F fft (samples ++ [s]) (framesBy (samples ++ [s]).length) = _
      rw [hcount, hsame]

/-- Sample by sample the processor keeps to the recording so far, or fails with it. -/
theorem processSamples_batch (F : Functions K) (fft : Fft K) (samples : List (HarmonicSample K)) :
    (tryStream (OpenHarmonicProcessor.processSample F fft) (OpenHarmonicProcessor.new F) samples = none ∧
        batch F fft samples (framesBy samples.length) = none) ∨
      ∃ p phases frames,
        tryStream (OpenHarmonicProcessor.processSample F fft) (OpenHarmonicProcessor.new F) samples =
            some (p, mixed samples frames) ∧
          batch F fft samples (framesBy samples.length) = some (phases, frames) ∧
          Follows F samples phases frames p := by
  induction samples using List.reverseRecOn with
  | nil =>
    have hnone : framesBy 0 = 0 := framesBy_of_lt frameLength_pos
    refine .inr ⟨_, _, _, rfl, ?_, follows_new F⟩
    rw [List.length_nil, hnone]
    rfl
  | append_singleton samples s ih =>
    rw [tryStream_concat]
    rcases ih with ⟨hstream, hbatch⟩ | ⟨p, phases, frames, hstream, hbatch, h⟩
    · refine .inl ⟨by rw [hstream]; rfl, ?_⟩
      have hfailed := (batch_concat F fft samples s le_rfl).trans hbatch
      refine batch_none hfailed ?_
      rw [List.length_append, List.length_singleton, framesBy_succ]
      split <;> omega
    · rw [hstream]
      rcases processSample_batch h s hbatch with ⟨hprocess, hafter⟩ | ⟨p', phases', frames', hprocess, hafter,
        hfollows, hmixed⟩
      · exact .inl ⟨by rw [Option.bind_some, hprocess]; rfl, hafter⟩
      · refine .inr ⟨p', phases', frames', ?_, hafter, hfollows⟩
        rw [Option.bind_some, hprocess, hmixed, mixed_concat]
        rfl

/-- The buffers of one sample at a time give what the recording gives as a whole, whatever the pitch and the
mix are turned to on the way; and the processor ends where a frame of the recording fails. -/
theorem processSamples_eq_batch (F : Functions K) (fft : Fft K) (samples : List (HarmonicSample K)) :
    (tryStream (OpenHarmonicProcessor.processSample F fft) (OpenHarmonicProcessor.new F) samples).map Prod.snd =
      (batch F fft samples (framesBy samples.length)).map fun r => mixed samples r.2 := by
  rcases processSamples_batch F fft samples with ⟨hstream, hbatch⟩ | ⟨p, phases, frames, hstream, hbatch, _⟩
  · rw [hstream, hbatch]
    rfl
  · rw [hstream, hbatch]
    rfl

end HikaruOpenLive.Dsp
