import HikaruOpenLive.Engine.WholeLoops
import HikaruOpenLive.Foundations.PlacedStreams
import HikaruOpenLive.Foundations.Ramps
import HikaruOpenLive.Gui.PadMirror
import Mathlib.Algebra.Group.Prod

/-! # Where the engine plays the events of a pad

An event is sent as the samples of its window, a start in seconds and the lengths of its fades. At the
engine's rate its window is a stream of frames at a place of the clip's timeline: the start rounded down,
or, before the beginning of the clip, rounded to the nearest frame, where the head of the window is cut
off and the fade begins anew at the cut.
-/
set_option autoImplicit false

namespace HikaruOpenLive.Gui

open Engine Foundations.PlacedStreams Foundations.Ramps

/-! ## Gains -/

def scaled (gain : ℚ) (x : Frame) : Frame :=
  (x.1 * gain, x.2 * gain)

theorem gainAt_eq_ramp (e : EngineAudioEvent) {f : ℕ} (hstart : e.clipStart ≤ f) (hstop : f < e.stop) :
    e.gainAt f = e.gain * ramp (f - e.clipStart) e.fadeIn *
      ramp (e.frames - (f - e.clipStart)) e.fadeOut := by
  have hin : ¬(f < e.clipStart ∨ e.stop ≤ f) := by omega
  have hpos : ∀ {i n : ℕ}, (0 < n ∧ i < n) ↔ i < n := by omega
  unfold EngineAudioEvent.gainAt ramp
  simp only [if_neg hin, hpos]
  split_ifs <;> simp only [mul_one]

/-! ## The place of a window -/

/-- The frame of the clip at which the engine has the first frame of a window that starts at `secs`;
below 0 the window begins before the clip. -/
def enginePlace (sr secs : ℚ) : ℤ :=
  if secs < 0 then -⌊-secs * sr + 1 / 2⌋ else ⌊secs * sr⌋

theorem floor_half_nonneg {x : ℚ} (h : 0 ≤ x) : 0 ≤ ⌊x + 1 / 2⌋ :=
  Int.floor_nonneg.mpr (by linarith)

theorem toNat_enginePlace {sr secs : ℚ} (hsr : 0 ≤ sr) :
    (enginePlace sr secs).toNat = ⌊max secs 0 * sr⌋₊ := by
  unfold enginePlace
  split
  case isTrue h =>
    have hnonneg := floor_half_nonneg (mul_nonneg (neg_nonneg.mpr h.le) hsr)
    rw [max_eq_right h.le, zero_mul, Nat.floor_zero]
    omega
  case isFalse h => rw [max_eq_left (not_lt.mp h), Int.floor_toNat]

theorem toNat_neg_enginePlace {sr secs : ℚ} (hsr : 0 ≤ sr) :
    (-enginePlace sr secs).toNat = if secs < 0 then ⌊-secs * sr + 1 / 2⌋₊ else 0 := by
  unfold enginePlace
  split
  case isTrue h => rw [neg_neg, Int.floor_toNat]
  case isFalse h =>
    have hnonneg : 0 ≤ ⌊secs * sr⌋ := Int.floor_nonneg.mpr (mul_nonneg (not_lt.mp h) hsr)
    omega

/-! ## Windows -/

theorem frameAt_take (xs : List ℚ) (channels : ℕ) {n k : ℕ} (hk : k < n) :
    frameAt (xs.take (n * max channels 1)) channels k = frameAt xs channels k := by
  have hfits : k * max channels 1 + max channels 1 ≤ n * max channels 1 := by
    rw [← Nat.succ_mul]
    exact Nat.mul_le_mul_right _ hk
  have hleft : k * max channels 1 < n * max channels 1 := by omega
  unfold frameAt
  simp only [List.getD_eq_getElem?_getD, List.getElem?_take_of_lt hleft]
  by_cases hstereo : 1 < max channels 1
  · have hright : k * max channels 1 + 1 < n * max channels 1 := by omega
    rw [List.getElem?_take_of_lt hright]
  · simp only [if_neg hstereo]

theorem frameAt_drop (xs : List ℚ) (channels n k : ℕ) :
    frameAt (xs.drop (n * max channels 1)) channels k = frameAt xs channels (n + k) := by
  unfold frameAt
  simp only [List.getD_eq_getElem?_getD, List.getElem?_drop, Nat.add_mul, Nat.add_assoc]

namespace AudioEvent

variable (e : AudioEvent)

theorem window_fits (hpos : 0 < e.frames) :
    (e.trimLeftFrames + e.frames) * max e.channels 1 ≤ e.samples.length := by
  have hframes : e.frames ≤ e.samples.length / max e.channels 1 - e.trimLeftFrames := min_le_left _ _
  exact (Nat.mul_le_mul_right _ (by omega)).trans (Nat.div_mul_le_self _ _)

theorem windowSamples_eq : e.windowSamples =
    (e.samples.drop (e.trimLeftFrames * max e.channels 1)).take (e.frames * max e.channels 1) := by
  unfold windowSamples
  simp only [List.drop_take]
  rcases Nat.eq_zero_or_pos e.frames with hzero | hpos
  · rw [hzero, Nat.zero_mul, Nat.add_zero, List.take_zero]
    exact List.take_eq_nil_iff.mpr (Or.inl (by omega))
  · have hfits := e.window_fits hpos
    rw [Nat.add_mul] at hfits
    have hstart : min (e.trimLeftFrames * max e.channels 1) e.samples.length =
        e.trimLeftFrames * max e.channels 1 := min_eq_left (by omega)
    rw [hstart, min_eq_left hfits, Nat.add_sub_cancel_left]

theorem length_windowSamples : e.windowSamples.length = e.frames * max e.channels 1 := by
  rw [windowSamples_eq, List.length_take, List.length_drop]
  rcases Nat.eq_zero_or_pos e.frames with hzero | hpos
  · rw [hzero]
    omega
  · have hfits := e.window_fits hpos
    rw [Nat.add_mul] at hfits
    omega

/-- A frame of the window, left and right. -/
def windowFrame (k : ℕ) : Frame :=
  frameAt e.windowSamples e.channels k

/-- The place of the window in the clip. -/
def place : ℤ :=
  enginePlace e.sampleRate e.startSecs

/-- The gain the engine plays a frame of the window at. -/
def engineGain (k : ℕ) : ℚ :=
  e.gain * ramp (k - (-e.place).toNat) ⌊max e.fadeInSecs 0 * e.sampleRate⌋₊ *
    ramp (e.frames - k) ⌊max e.fadeOutSecs 0 * e.sampleRate⌋₊

/-- No fades. -/
structure Unfaded : Prop where
  fadesNotIn : e.fadeInSecs = 0
  fadesNotOut : e.fadeOutSecs = 0

theorem Unfaded.engineGain {e : AudioEvent} (h : e.Unfaded) (k : ℕ) : e.engineGain k = e.gain := by
  simp only [AudioEvent.engineGain, h.fadesNotIn, h.fadesNotOut, max_self, zero_mul, Nat.floor_zero,
    ramp_zero, mul_one]

theorem clipStart_atRate : (e.payload.atRate e.sampleRate).clipStart = e.place.toNat :=
  (toNat_enginePlace (Nat.cast_nonneg _)).symm

theorem samples_atRate : (e.payload.atRate e.sampleRate).samples =
    e.windowSamples.drop ((-e.place).toNat * max e.channels 1) := by
  rw [place, toNat_neg_enginePlace (Nat.cast_nonneg _)]
  simp only [EngineEventData.atRate, payload, sub_self, abs_zero]
  rw [if_neg fun h => absurd h.2 (by norm_num)]
  rfl

theorem frames_atRate :
    (e.payload.atRate e.sampleRate).frames = e.frames - (-e.place).toNat := by
  have hch : (e.payload.atRate e.sampleRate).channels = e.channels := rfl
  rw [EngineAudioEvent.frames, hch, samples_atRate, List.length_drop, length_windowSamples,
    ← Nat.sub_mul, Nat.mul_div_cancel _ (by omega)]

/-- An event in the engine is the stream of its window, at its place. -/
theorem readAt_atRate (f : ℕ) : (e.payload.atRate e.sampleRate).readAt f =
    stream (fun k => scaled (e.engineGain k) (e.windowFrame k)) e.frames (f - e.place) := by
  have hch : (e.payload.atRate e.sampleRate).channels = e.channels := rfl
  have hstop : (e.payload.atRate e.sampleRate).stop =
      e.place.toNat + (e.frames - (-e.place).toNat) := by
    rw [EngineAudioEvent.stop, clipStart_atRate, frames_atRate]
  unfold stream EngineAudioEvent.readAt
  by_cases hin : 0 ≤ (f : ℤ) - e.place ∧ (f : ℤ) - e.place < e.frames
  · obtain ⟨k, hk⟩ : ∃ k : ℕ, (f : ℤ) - e.place = k := ⟨_, (Int.toNat_of_nonneg hin.1).symm⟩
    have hnot : ¬(f < (e.payload.atRate e.sampleRate).clipStart ∨
        (e.payload.atRate e.sampleRate).stop ≤ f) := by
      rw [hstop, clipStart_atRate]
      omega
    have hgain : (e.payload.atRate e.sampleRate).gainAt f = e.engineGain k := by
      rw [gainAt_eq_ramp _ (by omega) (by omega), frames_atRate, clipStart_atRate,
        show f - e.place.toNat = k - (-e.place).toNat by omega,
        show e.frames - (-e.place).toNat - (k - (-e.place).toNat) = e.frames - k by omega]
      rfl
    -- the head cut off and the way the event has come make up the frame of the window
    have hidx : (-e.place).toNat * max e.channels 1 + (f - e.place.toNat) * max e.channels 1 =
        k * max e.channels 1 := by
      rw [← Nat.add_mul, show (-e.place).toNat + (f - e.place.toNat) = k by omega]
    have hfits : k * max e.channels 1 + max e.channels 1 ≤ e.windowSamples.length := by
      refine fits_of_lt ?_
      rw [length_windowSamples, Nat.mul_div_cancel _ (by omega)]
      omega
    rw [if_neg hnot, hgain, if_pos hin, hk, Int.toNat_natCast]
    simp only [hch, clipStart_atRate, samples_atRate, windowFrame, frameAt, scaled,
      List.getD_eq_getElem?_getD, List.getElem?_drop, ← Nat.add_assoc, hidx]
    by_cases hstereo : 1 < max e.channels 1
    · have hright : k * max e.channels 1 + 1 < e.windowSamples.length := by omega
      simp only [if_pos hstereo, List.getElem?_eq_getElem hright, Option.getD_some]
    · simp only [if_neg hstereo]
  · have hout : f < (e.payload.atRate e.sampleRate).clipStart ∨
        (e.payload.atRate e.sampleRate).stop ≤ f := by
      rw [hstop, clipStart_atRate]
      omega
    rw [if_pos hout, if_neg hin]
    rfl

end AudioEvent

/-! ## The events of a clip -/

theorem mixEventsAt_eq_sum (c : AudioClip) (f : ℕ) :
    c.mixEventsAt f = (c.events.map fun e => e.readAt f).sum := by
  have hfold : ∀ (events : List EngineAudioEvent) (acc : Frame),
      events.foldl (fun acc e => acc + e.readAt f) acc =
        acc + (events.map fun e => e.readAt f).sum := by
    intro events
    induction events with
    | nil =>
      intro acc
      rw [List.foldl_nil, List.map_nil, List.sum_nil, add_zero]
    | cons e events ih =>
      intro acc
      rw [List.foldl_cons, ih, List.map_cons, List.sum_cons, add_assoc]
  rw [AudioClip.mixEventsAt, hfold]
  exact zero_add _

/-- What a clip plays once its events are sent. -/
theorem mixEventsAt_setEvents (c : AudioClip) (sr : ℚ) (events : List AudioEvent) (f : ℕ) :
    (c.setEvents (engineEvents sr events)).mixEventsAt f =
      (events.map fun e => (e.payload.atRate sr).readAt f).sum := by
  rw [mixEventsAt_eq_sum, (AudioClip.setEvents_frame _ _).1, engineEvents, List.map_map]
  rfl

end HikaruOpenLive.Gui
