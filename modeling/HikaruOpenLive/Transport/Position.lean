import Mathlib.Data.Rat.Floor
import HikaruOpenLive.Foundations.CyclicWindow

/-! # The transport position

The clock of the transport, its tempo and its global loop region, in samples. Sample counts are
unbounded naturals and the floating-point tempo is exact; the fields for the bar's division, which
none of these methods read, are left out.

`wrap_eq_fold` identifies the wrap of an active region with the folding of a cyclic window, and
`wrap_add` is what lets a block be cut anywhere: wrapping on the way does not change where the clock
arrives. `samplesToTicks_ticksToSamples_iff` says which ticks survive their rounding to samples.
-/
set_option autoImplicit false

namespace HikaruOpenLive.Transport

open Foundations.CyclicWindow

inductive TransportPlaybackState where
  | stopped
  | playing
  | paused
deriving DecidableEq, Repr

structure TransportPosition where
  sampleRate : ℚ
  bpm : ℚ
  sampleCount : ℕ
  playbackState : TransportPlaybackState
  loopEnabled : Bool
  loopStartSamples : ℕ
  loopEndSamples : ℕ
deriving DecidableEq, Repr

namespace TransportPosition

def advance (t : TransportPosition) (samples : ℕ) : TransportPosition :=
  if t.playbackState = .playing then { t with sampleCount := t.sampleCount + samples } else t

def samplesPerBeat (t : TransportPosition) : ℚ :=
  if t.sampleRate ≤ 0 then 0 else t.sampleRate * 60 / max t.bpm 1

def setLoopRegionSamples (t : TransportPosition) (start stop : ℕ) : TransportPosition :=
  { t with loopStartSamples := start, loopEndSamples := stop }

def setLoopEnabled (t : TransportPosition) (enabled : Bool) : TransportPosition :=
  { t with loopEnabled := enabled }

def hasValidLoop (t : TransportPosition) : Bool :=
  t.loopEnabled && decide (t.loopStartSamples < t.loopEndSamples)

def loopLengthSamples (t : TransportPosition) : ℕ :=
  t.loopEndSamples - t.loopStartSamples

/-- The place of a position in the global loop: the position itself unless a valid region ends at
or before it. -/
def wrapSampleCount (t : TransportPosition) (pos : ℕ) : ℕ :=
  if !t.hasValidLoop || decide (pos < t.loopEndSamples) then pos
  else if t.loopLengthSamples = 0 then pos
  else t.loopStartSamples + (pos - t.loopStartSamples) % t.loopLengthSamples

def afterBlock (t : TransportPosition) (frames : ℕ) : TransportPosition :=
  { t with sampleCount := t.wrapSampleCount (t.sampleCount + frames) }

theorem hasValidLoop_iff (t : TransportPosition) :
    t.hasValidLoop = true ↔ t.loopEnabled = true ∧ t.loopStartSamples < t.loopEndSamples := by
  simp [hasValidLoop]

theorem wrap_eq_fold {t : TransportPosition} (h : t.hasValidLoop = true) (pos : ℕ) :
    t.wrapSampleCount pos = fold t.loopStartSamples t.loopEndSamples pos := by
  have hlt := ((hasValidLoop_iff t).mp h).2
  unfold wrapSampleCount fold loopLengthSamples
  rw [h]
  by_cases hp : pos < t.loopEndSamples
  · simp [hp]
  · have hne : t.loopEndSamples - t.loopStartSamples ≠ 0 := by omega
    simp [hp, hne]

theorem wrap_of_invalid {t : TransportPosition} (h : ¬ t.hasValidLoop = true) (pos : ℕ) :
    t.wrapSampleCount pos = pos := by
  simp [wrapSampleCount, h]

/-- Wrapping on the way does not change where the clock arrives. -/
theorem wrap_add (t : TransportPosition) (a b : ℕ) :
    t.wrapSampleCount (t.wrapSampleCount a + b) = t.wrapSampleCount (a + b) := by
  by_cases h : t.hasValidLoop = true
  · simp only [wrap_eq_fold h]
    exact fold_add ((hasValidLoop_iff t).mp h).2 a b
  · simp only [wrap_of_invalid h]

theorem afterBlock_add (t : TransportPosition) (m n : ℕ) :
    (t.afterBlock m).afterBlock n = t.afterBlock (m + n) := by
  have h := t.wrap_add (t.sampleCount + m) n
  unfold afterBlock
  rw [Nat.add_assoc] at h
  exact congrArg (fun pos => { t with sampleCount := pos }) h

/-! ## Ticks -/

/-- The ticks of a quarter note. -/
def ppqn (_ : TransportPosition) : ℕ :=
  960

def secondsPerTick (t : TransportPosition) : ℚ :=
  60 / max t.bpm 1 / t.ppqn

def ticksToSamples (t : TransportPosition) (ticks : ℕ) : ℕ :=
  if t.sampleRate ≤ 0 then 0
  else ⌊ticks * t.secondsPerTick * t.sampleRate + 1 / 2⌋₊

def clipLengthFrames (t : TransportPosition) (durationTicks : ℕ) : ℕ :=
  t.ticksToSamples durationTicks

def samplesToTicks (t : TransportPosition) (samples : ℕ) : ℕ :=
  if t.sampleRate ≤ 0 then 0
  else if t.secondsPerTick ≤ 0 then 0
  else ⌊samples / t.sampleRate / t.secondsPerTick + 1 / 2⌋₊

def samplesPerTick (t : TransportPosition) : ℚ :=
  t.secondsPerTick * t.sampleRate

theorem secondsPerTick_pos (t : TransportPosition) : 0 < t.secondsPerTick := by
  have hbpm : 0 < max t.bpm 1 := lt_max_of_lt_right one_pos
  have hppqn : (0 : ℚ) < t.ppqn := by norm_num [ppqn]
  exact div_pos (div_pos (by norm_num) hbpm) hppqn

theorem ticksToSamples_congr {t u : TransportPosition} (hbpm : t.bpm = u.bpm)
    (hrate : t.sampleRate = u.sampleRate) (ticks : ℕ) : t.ticksToSamples ticks = u.ticksToSamples ticks := by
  unfold ticksToSamples secondsPerTick ppqn
  rw [hbpm, hrate]

theorem samplesToTicks_congr {t u : TransportPosition} (hbpm : t.bpm = u.bpm)
    (hrate : t.sampleRate = u.sampleRate) (samples : ℕ) :
    t.samplesToTicks samples = u.samplesToTicks samples := by
  unfold samplesToTicks secondsPerTick ppqn
  rw [hbpm, hrate]

theorem ticksToSamples_eq {t : TransportPosition} (hrate : 0 < t.sampleRate) (ticks : ℕ) :
    t.ticksToSamples ticks = ⌊ticks * t.samplesPerTick + 1 / 2⌋₊ := by
  rw [ticksToSamples, if_neg (not_le.mpr hrate), samplesPerTick, mul_assoc]

/-- The rounding of a count of ticks to samples moves it by less than half a tick, or by just half a tick
downwards. -/
def SurvivesRounding (t : TransportPosition) (ticks : ℕ) : Prop :=
  (ticks - 1 / 2) * t.samplesPerTick ≤ t.ticksToSamples ticks ∧
    (t.ticksToSamples ticks : ℚ) < (ticks + 1 / 2) * t.samplesPerTick

theorem survivesRounding_congr {t u : TransportPosition} (hbpm : t.bpm = u.bpm)
    (hrate : t.sampleRate = u.sampleRate) (ticks : ℕ) : t.SurvivesRounding ticks ↔ u.SurvivesRounding ticks := by
  unfold SurvivesRounding samplesPerTick secondsPerTick ppqn
  rw [ticksToSamples_congr hbpm hrate, hbpm, hrate]

theorem samplesToTicks_ticksToSamples_iff {t : TransportPosition} (hrate : 0 < t.sampleRate) (ticks : ℕ) :
    t.samplesToTicks (t.ticksToSamples ticks) = ticks ↔ t.SurvivesRounding ticks := by
  have hspt := t.secondsPerTick_pos
  have hpos : 0 < t.samplesPerTick := mul_pos hspt hrate
  have hdiv : (t.ticksToSamples ticks : ℚ) / t.sampleRate / t.secondsPerTick =
      t.ticksToSamples ticks / t.samplesPerTick := by
    rw [div_div, mul_comm t.sampleRate, samplesPerTick]
  have hnonneg : (0 : ℚ) ≤ t.ticksToSamples ticks / t.samplesPerTick + 1 / 2 := by positivity
  rw [samplesToTicks, if_neg (not_le.mpr hrate), if_neg (not_le.mpr hspt), hdiv,
    Nat.floor_eq_iff hnonneg]
  have hlow : (ticks : ℚ) ≤ t.ticksToSamples ticks / t.samplesPerTick + 1 / 2 ↔
      (ticks - 1 / 2) * t.samplesPerTick ≤ t.ticksToSamples ticks := by
    rw [← le_div_iff₀ hpos, sub_le_iff_le_add]
  have hhigh : (t.ticksToSamples ticks : ℚ) / t.samplesPerTick + 1 / 2 < ticks + 1 ↔
      (t.ticksToSamples ticks : ℚ) < (ticks + 1 / 2) * t.samplesPerTick := by
    rw [← div_lt_iff₀ hpos]
    constructor <;> intro h <;> linarith
  rw [hlow, hhigh]
  exact Iff.rfl

/-- Where a tick is at least half a sample long, it does not vanish. -/
theorem ticksToSamples_pos (t : TransportPosition) (hrate : 0 < t.sampleRate)
    (hlong : 1 / 2 ≤ t.samplesPerTick) {ticks : ℕ} (hticks : 0 < ticks) : 0 < t.ticksToSamples ticks := by
  have hone : (1 : ℚ) ≤ ticks := Nat.one_le_cast.mpr hticks
  have hle : (1 : ℚ) ≤ ticks * t.samplesPerTick + 1 / 2 := by nlinarith
  rw [ticksToSamples_eq hrate]
  exact Nat.floor_pos.mpr hle

/-- Where a tick is at least a sample long, no tick is lost. -/
theorem survivesRounding_of_long {t : TransportPosition} (hrate : 0 < t.sampleRate)
    (hlong : 1 ≤ t.samplesPerTick) (ticks : ℕ) : t.SurvivesRounding ticks := by
  have hnonneg : (0 : ℚ) ≤ ticks * t.samplesPerTick + 1 / 2 := by positivity
  have hle := Nat.floor_le hnonneg
  have hlt := Nat.lt_floor_add_one (ticks * t.samplesPerTick + 1 / 2 : ℚ)
  rw [← ticksToSamples_eq hrate] at hle hlt
  refine ⟨by linarith, ?_⟩
  obtain hone | hone := hlong.eq_or_lt
  · have hexact : t.ticksToSamples ticks = ticks := by
      rw [ticksToSamples_eq hrate, ← hone, mul_one, Nat.floor_eq_iff (by positivity)]
      constructor <;> linarith
    rw [hexact, ← hone]
    linarith
  · linarith

theorem sampleRate_pos_of_long {t : TransportPosition} (hlong : 1 < t.samplesPerTick) : 0 < t.sampleRate := by
  by_contra hneg
  have hle : t.samplesPerTick ≤ 0 :=
    mul_nonpos_of_nonneg_of_nonpos t.secondsPerTick_pos.le (not_lt.mp hneg)
  linarith

theorem samplesToTicks_ticksToSamples_of_long {t : TransportPosition} (hlong : 1 < t.samplesPerTick)
    (ticks : ℕ) : t.samplesToTicks (t.ticksToSamples ticks) = ticks := by
  have hrate := sampleRate_pos_of_long hlong
  exact (samplesToTicks_ticksToSamples_iff hrate ticks).mpr (survivesRounding_of_long hrate hlong.le ticks)

end TransportPosition

end HikaruOpenLive.Transport
