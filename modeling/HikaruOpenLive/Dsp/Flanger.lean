import HikaruOpenLive.Dsp.CombFilter

/-! # The flanger

A short delay line whose delay an LFO sweeps, fed back and mixed with the input. Rate, depth, feedback and
sample rate come with every sample. The line has 1024 cells; as long as the longest delay of the sweep fits,
the flanger is the one that never forgets.
-/
set_option autoImplicit false

namespace HikaruOpenLive.Dsp

open Foundations.SampleStreams
open Foundations.DelayLines

/-- `[f32; 1024]`. -/
def flangerLength : ℕ := 1024

structure Flanger (K : Type) where
  buffer : List K
  writePtr : ℕ
  lfoPhase : K

/-- What comes with a sample. -/
structure FlangerCall (K : Type) where
  input : K
  rate : K
  depthMs : K
  feedback : K
  sampleRate : K

variable {K : Type} [Field K] [LinearOrder K] [FloorRing K]

namespace FlangerCall

/-- The LFO's phase a sample later. -/
def advance (F : Functions K) (call : FlangerCall K) (phase : K) : K :=
  phase + 2.0 * F.pi * call.rate / call.sampleRate

/-- From 1 ms to 10 ms or so, in samples. -/
def delaySamples (F : Functions K) (call : FlangerCall K) (phase : K) : K :=
  (1 + (F.sin phase + 1) * 0.5 * call.depthMs) * (call.sampleRate / 1000.0)

end FlangerCall

namespace Flanger

def new : Flanger K :=
  { buffer := List.replicate flangerLength 0, writePtr := 0, lfoPhase := 0 }

def process (F : Functions K) (f : Flanger K) (call : FlangerCall K) : Flanger K × K :=
  let lfoPhase := call.advance F f.lfoPhase
  let size : K := (flangerLength : ℕ)
  let readPtr := rem (f.writePtr - call.delaySamples F lfoPhase + size) size
  let delayed := f.buffer.getD ⌊readPtr⌋₊ 0
  ({ buffer := f.buffer.set f.writePtr (call.input + delayed * call.feedback)
     writePtr := (f.writePtr + 1) % flangerLength
     lfoPhase := lfoPhase }, call.input + delayed)

end Flanger

/-- The flanger that keeps all it ever wrote, the newest first. -/
structure EndlessFlanger (K : Type) where
  past : List K
  lfoPhase : K

namespace EndlessFlanger

def new : EndlessFlanger K :=
  { past := [], lfoPhase := 0 }

def process (F : Functions K) (f : EndlessFlanger K) (call : FlangerCall K) : EndlessFlanger K × K :=
  let lfoPhase := call.advance F f.lfoPhase
  let delayed := f.past.getD (⌈call.delaySamples F lfoPhase⌉₊ - 1) 0
  ({ past := (call.input + delayed * call.feedback) :: f.past, lfoPhase := lfoPhase }, call.input + delayed)

end EndlessFlanger

variable [IsStrictOrderedRing K] {F : Functions K}

/-- The depth is not negative and the whole sweep is on the line. -/
structure FlangerCall.Fits (call : FlangerCall K) : Prop where
  sampleRate_pos : 0 < call.sampleRate
  depthMs_nonneg : 0 ≤ call.depthMs
  longest : (1 + call.depthMs) * (call.sampleRate / 1000.0) ≤ (flangerLength : ℕ)

omit [FloorRing K] in
theorem FlangerCall.Fits.delaySamples_mem {call : FlangerCall K} (h : call.Fits)
    (hsin : ∀ x, |F.sin x| ≤ 1) (phase : K) :
    0 < call.delaySamples F phase ∧ call.delaySamples F phase ≤ (flangerLength : ℕ) := by
  obtain ⟨hlow, hhigh⟩ := abs_le.mp (hsin phase)
  have hrate : 0 < call.sampleRate / 1000.0 := div_pos h.sampleRate_pos (by norm_num)
  have hlfo : 0 ≤ (F.sin phase + 1) * 0.5 := by linarith
  have hlfo' : (F.sin phase + 1) * 0.5 ≤ 1 := by linarith
  have hsweep : (F.sin phase + 1) * 0.5 * call.depthMs ≤ call.depthMs :=
    mul_le_of_le_one_left h.depthMs_nonneg hlfo'
  have hnonneg := mul_nonneg hlfo h.depthMs_nonneg
  unfold FlangerCall.delaySamples
  constructor
  · exact mul_pos (by linarith) hrate
  · refine le_trans ?_ h.longest
    exact mul_le_mul_of_nonneg_right (by linarith) hrate.le

/-- The cells hold the end of the endless memory. -/
def Flanger.Refines (f : Flanger K) (e : EndlessFlanger K) : Prop :=
  Remembers flangerLength 0 f.buffer f.writePtr e.past ∧ f.lfoPhase = e.lfoPhase

theorem Flanger.refines_process {f : Flanger K} {e : EndlessFlanger K} (h : f.Refines e)
    {call : FlangerCall K} (hfits : call.Fits) (hsin : ∀ x, |F.sin x| ≤ 1) :
    (f.process F call).1.Refines (e.process F call).1 ∧ (f.process F call).2 = (e.process F call).2 := by
  obtain ⟨hmemory, hphase⟩ := h
  set delay := call.delaySamples F (call.advance F f.lfoPhase) with hdelay
  obtain ⟨hpos, hmost⟩ := hfits.delaySamples_mem hsin (call.advance F f.lfoPhase)
  have hback : 1 ≤ ⌈delay⌉₊ := Nat.one_le_ceil_iff.mpr hpos
  have hceil : ⌈delay⌉₊ ≤ flangerLength := Nat.ceil_le.mpr hmost
  have hread : f.buffer.getD ⌊rem ((f.writePtr : K) - delay + (flangerLength : ℕ)) (flangerLength : ℕ)⌋₊ 0 =
      e.past.getD (⌈delay⌉₊ - 1) 0 := by
    refine hmemory.read (by omega) ?_
    rw [rem_readPlace hmemory.pos_lt hpos hmost, (floor_readPlace hmemory.pos_lt hpos hmost).1,
      Nat.sub_add_cancel hback]
  have hdelayed : e.past.getD (⌈call.delaySamples F (call.advance F e.lfoPhase)⌉₊ - 1) 0 =
      e.past.getD (⌈delay⌉₊ - 1) 0 := by rw [hdelay, hphase]
  simp only [process, EndlessFlanger.process]
  rw [hdelayed, ← hdelay, hread]
  exact ⟨⟨hmemory.write _, by rw [hphase]⟩, rfl⟩

end HikaruOpenLive.Dsp
