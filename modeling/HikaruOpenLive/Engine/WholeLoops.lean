import Mathlib.Data.List.GetD
import HikaruOpenLive.Engine.ClipCells
import HikaruOpenLive.Engine.LoopFrames

/-! # A clip that loops over all of its frames

A clip looping from its first frame on reads the elapsed time modulo the length of its loop, from events as
from its one sample. Only the latter crossfades where the loop jumps back, and only it plays a mono file at
the left gain on both sides; `sameRender_iff` says when the two are told apart nowhere.
-/
set_option autoImplicit false

namespace HikaruOpenLive.Engine

open Transport Foundations.BlockSplit Foundations.CyclicWindow

/-- A loop length rounded down to whole beats. -/
def quantizedLen (raw : ℕ) (t : TransportPosition) : ℕ :=
  let spb := t.samplesPerBeat
  if ¬ 1 < spb then raw
  else
    let spbFrames := ⌊spb + 1 / 2⌋₊
    if spbFrames = 0 ∨ raw < spbFrames then raw
    else min (max (raw / spbFrames * spbFrames) 1) raw

theorem quantizedLen_le (raw : ℕ) (t : TransportPosition) : quantizedLen raw t ≤ raw := by
  unfold quantizedLen
  simp only
  split_ifs
  · exact le_rfl
  · exact min_le_right _ _
  · exact le_rfl

/-- The two sides of a frame; one channel stands for both. -/
def frameAt (samples : List ℚ) (channels frame : ℕ) : Frame :=
  let ch := max channels 1
  let l := samples.getD (frame * ch) 0
  (l, if 1 < ch then samples.getD (frame * ch + 1) 0 else l)

/-- A frame at the gains of a track as the single-sample paths scale it. -/
def panned (channels : ℕ) (gl gr : ℚ) (x : Frame) : Frame :=
  (x.1 * gl, if 1 < max channels 1 then x.2 * gr else x.1 * gl)

theorem fits_of_lt {frame ch len : ℕ} (h : frame < len / ch) : frame * ch + ch ≤ len := by
  calc frame * ch + ch = (frame + 1) * ch := (Nat.succ_mul frame ch).symm
    _ ≤ len / ch * ch := Nat.mul_le_mul_right ch h
    _ ≤ len := Nat.div_mul_le_self len ch

/-- An event that begins with the clip and is neither scaled nor faded. -/
structure EngineAudioEvent.Plain (e : EngineAudioEvent) : Prop where
  first : e.clipStart = 0
  unscaled : e.gain = 1
  fadesNotIn : e.fadeIn = 0
  fadesNotOut : e.fadeOut = 0

theorem EngineAudioEvent.Plain.readAt {e : EngineAudioEvent} (h : e.Plain) {frame : ℕ}
    (hframe : frame < e.frames) : e.readAt frame = frameAt e.samples e.channels frame := by
  have hstop : e.stop = e.frames := by rw [EngineAudioEvent.stop, h.first, Nat.zero_add]
  have hin : ¬ (frame < e.clipStart ∨ e.stop ≤ frame) := by
    rw [h.first, hstop]
    omega
  have hgain : e.gainAt frame = 1 := by
    unfold EngineAudioEvent.gainAt
    simp only [if_neg hin, h.fadesNotIn, h.fadesNotOut, Nat.lt_irrefl, false_and, if_false, h.unscaled]
  have hfits := fits_of_lt hframe
  unfold EngineAudioEvent.readAt frameAt
  rw [if_neg hin, hgain, h.first]
  simp only [mul_one, Nat.sub_zero]
  by_cases hch : 1 < max e.channels 1
  · have hright : frame * max e.channels 1 + 1 < e.samples.length := by omega
    simp only [if_pos hch, List.getD_eq_getElem _ _ hright]
  · simp only [if_neg hch]

namespace AudioClip

theorem quantizedLoopLen_eq (c : AudioClip) (t : TransportPosition) :
    c.quantizedLoopLen t = quantizedLen c.rawLoopLen t :=
  rfl

theorem fetchPanned_frameAt (c : AudioClip) (gl gr : ℚ) {frame : ℕ}
    (h : frame < c.samples.length / max c.channels 1) :
    c.fetchPanned gl gr frame = panned c.channels gl gr (frameAt c.samples c.channels frame) := by
  unfold fetchPanned panned frameAt
  simp only [if_pos (fits_of_lt h)]
  split <;> rfl

/-- A clip without frames stays silent. -/
theorem renderLive_noFrames {c : AudioClip} (h : c.naturalFrames = 0) (t : TransportPosition)
    (absStart : ℕ) (gl gr : ℚ) (m : ℕ) : (c.renderLive t absStart gl gr m).1 = silence m := by
  have hended : ¬ c.hasValidClipLoop = true ∧ c.emissionLenFrames ≤ absStart - c.startAbsolute := by
    constructor
    · intro hvalid
      have hstart := ((hasValidClipLoop_iff c).mp hvalid).2.2
      omega
    · have hle := c.emissionLenFrames_le
      omega
  unfold renderLive
  split
  · rfl
  · split
    · rfl
    · simp only
      rw [if_pos hended]

/-! ## Whole loops -/

/-- A clip of `n` frames that loops over all of them. -/
structure WholeLoop (n : ℕ) (c : AudioClip) : Prop where
  pos : 0 < n
  frames : c.naturalFrames = n
  region : c.loopRegion = (true, 0, n)

namespace WholeLoop

variable {n : ℕ} {c : AudioClip}

theorem fields (h : c.WholeLoop n) :
    c.clipLoopEnabled = true ∧ c.clipLoopStart = 0 ∧ c.clipLoopEnd = n := by
  have hregion := h.region
  unfold loopRegion at hregion
  exact ⟨congrArg Prod.fst hregion, congrArg (fun r => r.2.1) hregion, congrArg (fun r => r.2.2) hregion⟩

theorem valid (h : c.WholeLoop n) : c.hasValidClipLoop = true := by
  obtain ⟨henabled, hstart, hend⟩ := h.fields
  rw [hasValidClipLoop_iff, henabled, hstart, hend, h.frames]
  exact ⟨rfl, h.pos, h.pos⟩

theorem loopLen (h : c.WholeLoop n) (t : TransportPosition) :
    c.quantizedLoopLen t = quantizedLen n t := by
  obtain ⟨_, hstart, hend⟩ := h.fields
  have hpos := h.pos
  have hraw : c.rawLoopLen = n := by
    unfold rawLoopLen
    rw [hstart, hend, h.frames]
    simp only
    omega
  rw [quantizedLoopLen_eq, hraw]

theorem loopLen_pos (h : c.WholeLoop n) (t : TransportPosition) : 0 < quantizedLen n t := by
  rw [← h.loopLen t]
  exact c.quantizedLoopLen_pos t

theorem mod_lt (h : c.WholeLoop n) (t : TransportPosition) (elapsed : ℕ) :
    elapsed % quantizedLen n t < n :=
  lt_of_lt_of_le (Nat.mod_lt _ (h.loopLen_pos t)) (quantizedLen_le n t)

theorem singleSampleFrame_eq (h : c.WholeLoop n) (t : TransportPosition) (elapsed : ℕ) :
    c.singleSampleFrame elapsed t = some (elapsed % quantizedLen n t) := by
  obtain ⟨_, hstart, _⟩ := h.fields
  have hphase := (@fold_eq_phase_iff 0 _ (h.loopLen_pos t) elapsed).mpr
    ⟨dvd_zero _, Nat.zero_le elapsed⟩
  rw [singleSampleFrame_looped h.valid, hstart, h.loopLen t, hphase, Nat.zero_add]

theorem clipFrameForElapsed_eq (h : c.WholeLoop n) (t : TransportPosition) (elapsed : ℕ) :
    c.clipFrameForElapsed elapsed t = some (elapsed % quantizedLen n t) := by
  obtain ⟨_, hstart, _⟩ := h.fields
  rw [clipFrameForElapsed_looped h.valid, hstart, h.loopLen t, Nat.zero_add]

theorem start (h : c.WholeLoop n) (startFrame startAbsolute : ℕ) :
    (c.start startFrame startAbsolute).WholeLoop n :=
  ⟨h.pos, h.frames, h.region⟩

/-- A whole loop sounds from its trigger on and never ends. -/
theorem renderLive_start (h : c.WholeLoop n) (t : TransportPosition) (startFrame startAbsolute : ℕ)
    (absStart : ℕ) (gl gr : ℚ) (m : ℕ) :
    ((c.start startFrame startAbsolute).renderLive t absStart gl gr m).1 =
      if absStart < startAbsolute then silence m
      else (emit (c.liveStep t gl gr) (0, 0) m (absStart - startAbsolute, .fresh)).1 := by
  have hstarted := h.start startFrame startAbsolute
  have hpos : (c.start startFrame startAbsolute).naturalFrames ≠ 0 := by
    rw [hstarted.frames]
    exact h.pos.ne'
  have hnotEnded : ¬ (¬ (c.start startFrame startAbsolute).hasValidClipLoop = true ∧
      (c.start startFrame startAbsolute).emissionLenFrames ≤ absStart - (c.start startFrame startAbsolute).startAbsolute) :=
    fun hended => hended.1 hstarted.valid
  unfold renderLive
  rw [if_neg (show ¬ (!(c.start startFrame startAbsolute).isPlaying) = true from Bool.false_ne_true)]
  by_cases habs : absStart < startAbsolute
  · rw [if_pos (show absStart < (c.start startFrame startAbsolute).startAbsolute from habs), if_pos habs]
  · rw [if_neg (show ¬ absStart < (c.start startFrame startAbsolute).startAbsolute from habs),
      if_neg habs]
    simp only
    rw [if_neg hnotEnded, if_neg hpos]
    rfl

end WholeLoop

end AudioClip

end HikaruOpenLive.Engine
