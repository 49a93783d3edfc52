import Mathlib.Algebra.Order.Archimedean.Basic
import Mathlib.Data.Int.CardIntervalMod
import HikaruOpenLive.Engine.WholeLoops

/-! # Loops of whole beats

The loop of a clip is cut to a whole number of beats, each as long as a beat rounded to samples. Within
the clip this is always possible (`quantizedLoop_bounds`): no remainder is taken by zero, and nothing is
read past the clip's end. Against the beats of the transport it is not: the rounding is repeated with
every pass, so that the wraps stay on the beat just when there was nothing to round
(`wraps_on_beat_iff`).
-/
set_option autoImplicit false

namespace HikaruOpenLive.Engine

open Transport

/-- A beat in whole samples. -/
def beatFrames (t : TransportPosition) : ℕ := ⌊t.samplesPerBeat + 1 / 2⌋₊

/-- `%` where the source would abort on a divisor of zero. -/
def remainder? (a b : ℕ) : Option ℕ := if b = 0 then none else some (a % b)

theorem remainder?_of_pos {b : ℕ} (h : 0 < b) (a : ℕ) : remainder? a b = some (a % b) :=
  if_neg (by omega)

namespace AudioClip

/-! ## The resolvers with their remainders checked -/

def voiceFrameChecked (c : AudioClip) (globalPos : ℕ) (t : TransportPosition) : Option (Option ℕ) :=
  if globalPos < c.startFrame then some none
  else if c.naturalFrames = 0 then some none
  else
    let elapsed := globalPos - c.startFrame
    if c.hasValidClipLoop then
      let loopStart := min c.clipLoopStart c.naturalFrames
      let loopLen := c.quantizedLoopLen t
      if elapsed < loopStart + loopLen then some (some elapsed)
      else if t.hasValidLoop then
        (remainder? (globalPos - t.loopStartSamples) loopLen).map fun r => some (loopStart + r)
      else (remainder? (elapsed - loopStart) loopLen).map fun r => some (loopStart + r)
    else if c.emissionLenFrames ≤ elapsed then some none
    else some (some elapsed)

def voiceFrameLinearChecked (c : AudioClip) (absPos : ℕ) (t : TransportPosition) : Option (Option ℕ) :=
  if absPos < c.startAbsolute then some none
  else if c.naturalFrames = 0 then some none
  else
    let elapsed := absPos - c.startAbsolute
    if c.hasValidClipLoop then
      let loopStart := min c.clipLoopStart c.naturalFrames
      (remainder? elapsed (c.quantizedLoopLen t)).map fun r => some (loopStart + r)
    else if c.emissionLenFrames ≤ elapsed then some none
    else some (some elapsed)

def clipFrameForElapsedChecked (c : AudioClip) (elapsed : ℕ) (t : TransportPosition) : Option (Option ℕ) :=
  if c.naturalFrames = 0 then some none
  else if c.hasValidClipLoop then
    let loopStart := min c.clipLoopStart c.naturalFrames
    (remainder? elapsed (c.quantizedLoopLen t)).map fun r => some (loopStart + r)
  else if c.emissionLenFrames ≤ elapsed then some none
  else some (some elapsed)

section Bounds
variable (c : AudioClip) (t : TransportPosition)

theorem voiceFrameChecked_eq (globalPos : ℕ) : c.voiceFrameChecked globalPos t = some (c.voiceFrame globalPos t) := by
  unfold voiceFrameChecked voiceFrame
  simp only [remainder?_of_pos (c.quantizedLoopLen_pos t)]
  split_ifs <;> rfl

theorem voiceFrameLinearChecked_eq (absPos : ℕ) :
    c.voiceFrameLinearChecked absPos t = some (c.voiceFrameLinear absPos t) := by
  unfold voiceFrameLinearChecked voiceFrameLinear
  simp only [remainder?_of_pos (c.quantizedLoopLen_pos t)]
  split_ifs <;> rfl

theorem clipFrameForElapsedChecked_eq (elapsed : ℕ) :
    c.clipFrameForElapsedChecked elapsed t = some (c.clipFrameForElapsed elapsed t) := by
  unfold clipFrameForElapsedChecked clipFrameForElapsed
  simp only [remainder?_of_pos (c.quantizedLoopLen_pos t)]
  split_ifs <;> rfl

/-! ## The quantised length -/

theorem quantizedLoopLen_le : c.quantizedLoopLen t ≤ c.rawLoopLen := by
  rw [quantizedLoopLen_eq]
  exact quantizedLen_le c.rawLoopLen t

/-- A loop that lasts a beat lasts a rounded one: it has whole frames. -/
theorem beatFrames_le_of_le (h : t.samplesPerBeat ≤ c.rawLoopLen) : beatFrames t ≤ c.rawLoopLen := by
  have hlt : t.samplesPerBeat + 1 / 2 < (c.rawLoopLen + 1 : ℕ) := by
    push_cast
    linarith
  exact Nat.lt_succ_iff.mp (Nat.floor_lt' (Nat.succ_ne_zero _) |>.mpr hlt)

theorem quantizedLoopLen_of_grid (hgrid : 1 < t.samplesPerBeat) (hlong : beatFrames t ≤ c.rawLoopLen) :
    c.quantizedLoopLen t = c.rawLoopLen / beatFrames t * beatFrames t := by
  have hpos : 0 < beatFrames t := Nat.floor_pos.mpr (by linarith)
  have hquot : 0 < c.rawLoopLen / beatFrames t := Nat.div_pos hlong hpos
  have hone : 0 < c.rawLoopLen / beatFrames t * beatFrames t := Nat.mul_pos hquot hpos
  have hle : c.rawLoopLen / beatFrames t * beatFrames t ≤ c.rawLoopLen := Nat.div_mul_le_self _ _
  unfold beatFrames at hpos hlong hone hle ⊢
  unfold quantizedLoopLen
  dsimp only
  rw [if_neg (not_not.mpr hgrid), if_neg (by omega)]
  omega

theorem quantizedLoopLen_of_no_grid (hgrid : t.samplesPerBeat ≤ 1) : c.quantizedLoopLen t = c.rawLoopLen := by
  unfold quantizedLoopLen
  dsimp only
  rw [if_pos (not_lt.mpr hgrid)]

theorem beatFrames_le_one (hgrid : t.samplesPerBeat ≤ 1) : beatFrames t ≤ 1 := by
  have hlt : t.samplesPerBeat + 1 / 2 < (2 : ℕ) := by
    push_cast
    linarith
  exact Nat.lt_succ_iff.mp (Nat.floor_lt' (by decide) |>.mpr hlt)

theorem beatFrames_dvd (hbeat : 0 < beatFrames t)
    (hlong : t.samplesPerBeat ≤ c.rawLoopLen ∨ beatFrames t ≤ c.rawLoopLen) :
    beatFrames t ∣ c.quantizedLoopLen t := by
  have hle : beatFrames t ≤ c.rawLoopLen := hlong.elim (c.beatFrames_le_of_le t) (fun h => h)
  by_cases hgrid : 1 < t.samplesPerBeat
  · rw [c.quantizedLoopLen_of_grid t hgrid hle]
    exact Nat.dvd_mul_left _ _
  · have hone := beatFrames_le_one t (not_lt.mp hgrid)
    have heq : beatFrames t = 1 := by omega
    rw [heq]
    exact Nat.one_dvd _

/-! ## The frames that are read -/

theorem loop_within_clip (h : c.hasValidClipLoop = true) :
    min c.clipLoopStart c.naturalFrames + c.quantizedLoopLen t ≤ c.naturalFrames := by
  have hvalid := ((hasValidClipLoop_iff c).mp h).2.2
  have hle := c.quantizedLoopLen_le t
  unfold rawLoopLen at hle
  dsimp only at hle
  omega

theorem clipFrameForElapsed_lt {elapsed frame : ℕ} (hread : c.clipFrameForElapsed elapsed t = some frame) :
    frame < c.naturalFrames := by
  have hemit := c.emissionLenFrames_le
  have hmod := Nat.mod_lt elapsed (c.quantizedLoopLen_pos t)
  unfold clipFrameForElapsed at hread
  split_ifs at hread with hempty hloop hend
  · have hwithin := c.loop_within_clip t hloop
    have hframe := Option.some.inj hread
    omega
  · have hframe := Option.some.inj hread
    omega

theorem voiceFrameLinear_lt {absPos frame : ℕ} (hread : c.voiceFrameLinear absPos t = some frame) :
    frame < c.naturalFrames := by
  by_cases hpos : absPos < c.startAbsolute
  · unfold voiceFrameLinear at hread
    rw [if_pos hpos] at hread
    cases hread
  · obtain ⟨elapsed, rfl⟩ := Nat.exists_eq_add_of_le (not_lt.mp hpos)
    rw [voiceFrameLinear_eq] at hread
    exact c.clipFrameForElapsed_lt t hread

theorem voiceFrame_lt {globalPos frame : ℕ} (hread : c.voiceFrame globalPos t = some frame) :
    frame < c.naturalFrames := by
  have hemit := c.emissionLenFrames_le
  have hpos := c.quantizedLoopLen_pos t
  have hglobal := Nat.mod_lt (globalPos - t.loopStartSamples) hpos
  have hlocal := Nat.mod_lt (globalPos - c.startFrame - min c.clipLoopStart c.naturalFrames) hpos
  unfold voiceFrame at hread
  dsimp only at hread
  split_ifs at hread with hearly hempty hloop hfirst hregion hend
  · have hwithin := c.loop_within_clip t hloop
    have hframe := Option.some.inj hread
    omega
  · have hwithin := c.loop_within_clip t hloop
    have hframe := Option.some.inj hread
    omega
  · have hwithin := c.loop_within_clip t hloop
    have hframe := Option.some.inj hread
    omega
  · have hframe := Option.some.inj hread
    omega

/-- The loop of a clip against its clip: at least a frame and at most what the loop was set to, whole
beats as soon as it lasts one and a beat has frames; every resolver finds something to divide by, and
reads inside the clip. -/
theorem quantizedLoop_bounds :
    (1 ≤ c.quantizedLoopLen t ∧ c.quantizedLoopLen t ≤ c.rawLoopLen) ∧
      (0 < beatFrames t → t.samplesPerBeat ≤ c.rawLoopLen ∨ beatFrames t ≤ c.rawLoopLen →
        beatFrames t ∣ c.quantizedLoopLen t) ∧
      (∀ pos, c.voiceFrameChecked pos t = some (c.voiceFrame pos t) ∧
        c.voiceFrameLinearChecked pos t = some (c.voiceFrameLinear pos t) ∧
        c.clipFrameForElapsedChecked pos t = some (c.clipFrameForElapsed pos t)) ∧
      ∀ pos frame, c.voiceFrame pos t = some frame ∨ c.voiceFrameLinear pos t = some frame ∨
        c.clipFrameForElapsed pos t = some frame → frame < c.naturalFrames := by
  refine ⟨⟨c.quantizedLoopLen_pos t, c.quantizedLoopLen_le t⟩, c.beatFrames_dvd t, ?_, ?_⟩
  · intro pos
    exact ⟨c.voiceFrameChecked_eq t pos, c.voiceFrameLinearChecked_eq t pos,
      c.clipFrameForElapsedChecked_eq t pos⟩
  · rintro pos frame (hread | hread | hread)
    · exact c.voiceFrame_lt t hread
    · exact c.voiceFrameLinear_lt t hread
    · exact c.clipFrameForElapsed_lt t hread

end Bounds

/-- A clip of ten frames with a loop over six of them. -/
def tenFrames : AudioClip :=
  { id := 1, trackIndex := 0, sceneIndex := 0, samples := List.replicate 10 0, startFrame := 0
    startAbsolute := 0, durationFrames := 0, sampleOffset := 0, channels := 1, isPlaying := true
    clipLoopEnabled := true, clipLoopStart := 2, clipLoopEnd := 8, isMatrixClip := true
    fade := LoopFade.fresh, events := [] }

/-- Four samples and a half to the beat. -/
def slowTransport (sampleRate : ℚ) : TransportPosition := ⟨sampleRate, 60, 0, .playing, false, 0, 0⟩

theorem quantizedLoop_bounds_tenFrames :
    beatFrames (slowTransport (9 / 2)) ∣ tenFrames.quantizedLoopLen (slowTransport (9 / 2)) ∧
      6 < tenFrames.naturalFrames :=
  have hbounds := quantizedLoop_bounds tenFrames (slowTransport (9 / 2))
  ⟨hbounds.2.1 (by decide +kernel) (Or.inr (by decide +kernel)),
    hbounds.2.2.2 14 6 (Or.inr (Or.inl (by decide +kernel)))⟩

/-- Without a sample rate a beat has no frames, and no loop is a whole multiple of it. -/
theorem not_whole_beats_without_rate :
    ¬ ∀ (c : AudioClip) (t : TransportPosition), t.samplesPerBeat ≤ c.rawLoopLen →
      beatFrames t ∣ c.quantizedLoopLen t := by
  intro h
  have hdvd := h tenFrames (slowTransport 0) (by decide +kernel)
  revert hdvd
  decide +kernel

/-! ## The wraps against the beats -/

/-- The voice is back at the first frame of its loop. -/
def AtLoopStart (c : AudioClip) (t : TransportPosition) (elapsed : ℕ) : Prop :=
  c.voiceFrameLinear (c.startAbsolute + elapsed) t = some c.clipLoopStart

instance (c : AudioClip) (t : TransportPosition) : DecidablePred (c.AtLoopStart t) := fun elapsed => by
  unfold AtLoopStart; infer_instance

/-- The time from the trigger to the `n`-th wrap: the voice is at the start of its loop, for the `n`-th
time since it began there. -/
def Wraps (c : AudioClip) (t : TransportPosition) (n elapsed : ℕ) : Prop :=
  c.AtLoopStart t elapsed ∧ Nat.count (c.AtLoopStart t) elapsed = n

/-- The whole number of beats, in rounded frames, that the loop is cut to. -/
def loopBeats (c : AudioClip) (t : TransportPosition) : ℕ := c.rawLoopLen / beatFrames t

/-- Every wrap comes within a frame of its beat. -/
def WrapsOnBeat (c : AudioClip) (t : TransportPosition) : Prop :=
  ∀ n elapsed, c.Wraps t n elapsed → |(elapsed : ℚ) - n * (c.loopBeats t * t.samplesPerBeat)| ≤ 1

theorem atLoopStart_iff {c : AudioClip} (h : c.hasValidClipLoop = true) (t : TransportPosition) (elapsed : ℕ) :
    c.AtLoopStart t elapsed ↔ c.quantizedLoopLen t ∣ elapsed := by
  unfold AtLoopStart
  rw [voiceFrameLinear_eq, clipFrameForElapsed_looped h, Option.some_inj, Nat.add_eq_left,
    Nat.dvd_iff_mod_eq_zero]

theorem count_atLoopStart {c : AudioClip} (h : c.hasValidClipLoop = true) (t : TransportPosition) (n : ℕ) :
    Nat.count (c.AtLoopStart t) (n * c.quantizedLoopLen t) = n := by
  have hpos := c.quantizedLoopLen_pos t
  have hcount := Nat.count_modEq_card (n * c.quantizedLoopLen t) hpos 0
  rw [Nat.mul_div_cancel _ hpos, Nat.mul_mod_left, Nat.zero_mod, if_neg (Nat.lt_irrefl 0), Nat.add_zero] at hcount
  have hsame : ∀ k, c.AtLoopStart t k ↔ k ≡ 0 [MOD c.quantizedLoopLen t] := fun k =>
    (atLoopStart_iff h t k).trans Nat.modEq_zero_iff_dvd.symm
  exact (le_antisymm (Nat.count_mono_left fun k _ => (hsame k).mp)
    (Nat.count_mono_left fun k _ => (hsame k).mpr)).trans hcount

/-- The `n`-th wrap comes after `n` passes. -/
theorem wraps_iff {c : AudioClip} (h : c.hasValidClipLoop = true) (t : TransportPosition) (n elapsed : ℕ) :
    c.Wraps t n elapsed ↔ elapsed = n * c.quantizedLoopLen t := by
  unfold Wraps
  rw [atLoopStart_iff h]
  constructor
  · rintro ⟨⟨k, rfl⟩, hcount⟩
    rw [Nat.mul_comm, count_atLoopStart h] at hcount
    rw [hcount, Nat.mul_comm]
  · rintro rfl
    exact ⟨Nat.dvd_mul_left _ _, count_atLoopStart h t n⟩

/-- An error that comes again with every pass stays within a frame only if there is none. -/
theorem forall_mul_abs_le_one_iff (error : ℚ) : (∀ n : ℕ, n * |error| ≤ 1) ↔ error = 0 := by
  constructor
  · intro h
    by_contra hne
    obtain ⟨n, hn⟩ := exists_nat_gt (1 / |error|)
    have hgt := (div_lt_iff₀ (abs_pos.mpr hne)).mp hn
    exact absurd (h n) (not_le.mpr hgt)
  · rintro rfl n
    simp

theorem wrapsOnBeat_iff_pass {c : AudioClip} (h : c.hasValidClipLoop = true) (t : TransportPosition) :
    c.WrapsOnBeat t ↔ (c.quantizedLoopLen t : ℚ) - c.loopBeats t * t.samplesPerBeat = 0 := by
  rw [← forall_mul_abs_le_one_iff]
  have herror : ∀ n : ℕ, ((n * c.quantizedLoopLen t : ℕ) : ℚ) - n * (c.loopBeats t * t.samplesPerBeat) =
      n * (c.quantizedLoopLen t - c.loopBeats t * t.samplesPerBeat) := by
    intro n
    push_cast
    ring
  constructor
  · intro hwraps n
    have hn := hwraps n _ ((wraps_iff h t n _).mpr rfl)
    rwa [herror, abs_mul, Nat.abs_cast] at hn
  · intro hpass n elapsed hwrap
    rw [(wraps_iff h t n elapsed).mp hwrap, herror, abs_mul, Nat.abs_cast]
    exact hpass n

theorem beatFrames_of_whole {t : TransportPosition} {frames : ℕ} (h : t.samplesPerBeat = frames) :
    beatFrames t = frames := by
  rw [beatFrames, h, Nat.floor_eq_iff (by positivity)]
  constructor <;> linarith

/-- A loop of at least a beat stays on the beat for good exactly when a beat is a whole number of
samples. -/
theorem wraps_on_beat_iff {c : AudioClip} (t : TransportPosition) (hloop : c.hasValidClipLoop = true)
    (hlong : t.samplesPerBeat ≤ c.rawLoopLen) :
    c.WrapsOnBeat t ↔ ∃ frames : ℕ, 0 < frames ∧ t.samplesPerBeat = frames := by
  have hraw : (0 : ℚ) < c.rawLoopLen := Nat.cast_pos.mpr c.rawLoopLen_pos
  have hle := c.beatFrames_le_of_le t hlong
  rw [wrapsOnBeat_iff_pass hloop, sub_eq_zero]
  by_cases hgrid : 1 < t.samplesPerBeat
  · have hpos : 0 < beatFrames t := Nat.floor_pos.mpr (by linarith)
    have hbeats : (c.loopBeats t : ℚ) ≠ 0 := Nat.cast_ne_zero.mpr (Nat.div_pos hle hpos).ne'
    have hlen : (c.quantizedLoopLen t : ℚ) = c.loopBeats t * beatFrames t := by
      rw [c.quantizedLoopLen_of_grid t hgrid hle, Nat.cast_mul, loopBeats]
    rw [hlen, mul_right_inj' hbeats]
    constructor
    · intro heq
      exact ⟨beatFrames t, hpos, heq.symm⟩
    · rintro ⟨frames, _, hwhole⟩
      rw [hwhole, beatFrames_of_whole hwhole]
  · -- without a grid the loop is left as it is, and a beat is a sample at most
    have hone := beatFrames_le_one t (not_lt.mp hgrid)
    rw [c.quantizedLoopLen_of_no_grid t (not_lt.mp hgrid)]
    constructor
    · intro heq
      obtain hzero | hbeat : beatFrames t = 0 ∨ beatFrames t = 1 := by omega
      · rw [loopBeats, hzero, Nat.div_zero, Nat.cast_zero, zero_mul] at heq
        exact absurd heq hraw.ne'
      · rw [loopBeats, hbeat, Nat.div_one] at heq
        refine ⟨1, one_pos, ?_⟩
        rw [Nat.cast_one]
        exact mul_left_cancel₀ hraw.ne' (heq.symm.trans (mul_one _).symm)
    · rintro ⟨frames, hframes, hwhole⟩
      have hbeat := beatFrames_of_whole hwhole
      have hframe : frames = 1 := by omega
      rw [loopBeats, hbeat, hwhole, hframe, Nat.div_one, Nat.cast_one, mul_one]

theorem wraps_on_beat_tenFrames : tenFrames.WrapsOnBeat (slowTransport 3) ↔
    ∃ frames : ℕ, 0 < frames ∧ (slowTransport 3).samplesPerBeat = frames :=
  wraps_on_beat_iff (slowTransport 3) (by decide) (by decide +kernel)

/-- A silent clip that loops over all its frames. -/
def silentLoop (frames : ℕ) : AudioClip :=
  { tenFrames with samples := List.replicate frames 0, clipLoopStart := 0, clipLoopEnd := frames }

def at140 : TransportPosition := ⟨48000, 140, 0, .playing, false, 0, 0⟩

theorem naturalFrames_silentLoop (frames : ℕ) : (silentLoop frames).naturalFrames = frames := by
  simp [naturalFrames, silentLoop, tenFrames]

theorem hasValidClipLoop_silentLoop {frames : ℕ} (h : 0 < frames) :
    (silentLoop frames).hasValidClipLoop = true := by
  rw [hasValidClipLoop_iff, naturalFrames_silentLoop]
  exact ⟨rfl, h, h⟩

theorem rawLoopLen_silentLoop {frames : ℕ} (h : 0 < frames) : (silentLoop frames).rawLoopLen = frames := by
  unfold rawLoopLen
  rw [naturalFrames_silentLoop]
  simp only [silentLoop]
  omega

theorem samplesPerBeat_at140 : at140.samplesPerBeat = 144000 / 7 := by
  norm_num [TransportPosition.samplesPerBeat, at140]

theorem beatFrames_at140 : beatFrames at140 = 20571 := by
  rw [beatFrames, samplesPerBeat_at140, Nat.floor_eq_iff (by norm_num)]
  constructor <;> norm_num

/-- A beat of 20571 frames and three sevenths: the third wrap is nine sevenths of a frame early. -/
theorem not_wraps_on_beat :
    ¬ ∀ (c : AudioClip) (t : TransportPosition), c.hasValidClipLoop = true → t.samplesPerBeat ≤ c.rawLoopLen →
      c.WrapsOnBeat t := by
  intro h
  have hloop := hasValidClipLoop_silentLoop (show 0 < 20572 by decide)
  have hraw := rawLoopLen_silentLoop (show 0 < 20572 by decide)
  generalize silentLoop 20572 = c at hloop hraw
  have hlong : at140.samplesPerBeat ≤ c.rawLoopLen := by
    rw [samplesPerBeat_at140, hraw]
    norm_num
  have hgrid : 1 < at140.samplesPerBeat := by
    rw [samplesPerBeat_at140]
    norm_num
  have hlen : c.quantizedLoopLen at140 = 20571 := by
    rw [c.quantizedLoopLen_of_grid at140 hgrid (c.beatFrames_le_of_le at140 hlong), hraw, beatFrames_at140]
  have hbeats : c.loopBeats at140 = 1 := by
    rw [loopBeats, hraw, beatFrames_at140]
  have hthird := h c at140 hloop hlong 3 _ ((wraps_iff hloop at140 3 _).mpr rfl)
  rw [hlen, hbeats, samplesPerBeat_at140] at hthird
  norm_num [abs_le] at hthird

end AudioClip

end HikaruOpenLive.Engine
