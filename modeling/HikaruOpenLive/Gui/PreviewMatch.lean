import HikaruOpenLive.Foundations.Roundings
import HikaruOpenLive.Foundations.TimedContent
import HikaruOpenLive.Gui.PadPreview

/-! # Where the preview of a pad is its sound

An event is shown as it is played when the roundings of its start and its fades agree and it does not come
in the middle of a fade, or when nothing of it is heard; the preview ends with the sound when one of the
events that end last starts on a whole frame.
-/
set_option autoImplicit false

namespace HikaruOpenLive.Gui

open Engine Foundations.PlacedStreams Foundations.Ramps Foundations.Roundings
open Foundations.TimedContent (foldr_max_le foldl_max_le)

/-- The lengths of a fade rounded down and to the nearest frame. -/
theorem rounded_natRound (x : ℚ) : Rounded ⌊max x 0⌋₊ ⌊x + 1 / 2⌋₊ := by
  by_cases h : RoundsDown x
  · exact Or.inl ((natRound_eq x).1 h)
  · exact Or.inr ((natRound_eq x).2 h)

namespace AudioEvent

/-! ## One event -/

/-- The frames of the window that lie before the clip, which the engine cuts off. -/
def headCut (e : AudioEvent) : ℕ :=
  (-e.place).toNat

/-- Nothing of the event is heard: it has no gain, no frame within the clip, or one frame only, with
which its fade in begins. -/
def Unheard (e : AudioEvent) : Prop :=
  e.gain = 0 ∨ e.frames ≤ e.headCut ∨
    e.headCut = 0 ∧ e.frames = 1 ∧ 1 ≤ e.fadeInSecs * e.sampleRate

/-- The start and the fades are rounded down to the nearest frame, the fade in of an event that is cut
off has no frame, and the fade out may also have none when it is shorter than one. -/
structure RoundsAlike (e : AudioEvent) : Prop where
  start : RoundsDown (e.startSecs * e.sampleRate)
  fadeIn : e.headCut = 0 → RoundsDown (e.fadeInSecs * e.sampleRate)
  cutFadeIn : 0 < e.headCut → e.fadeInSecs * e.sampleRate < 1
  fadeOut : RoundsDown (e.fadeOutSecs * e.sampleRate) ∨ e.fadeOutSecs * e.sampleRate < 1

def ShownAsPlayed (e : AudioEvent) : Prop :=
  e.Unheard ∨ e.RoundsAlike

variable {e : AudioEvent}

/-- The places of an event differ by one frame where the start is rounded up. -/
theorem previewPlace_spec (hrate : 0 < e.sampleRate) :
    (RoundsDown (e.startSecs * e.sampleRate) → e.previewPlace = e.place) ∧
      (¬RoundsDown (e.startSecs * e.sampleRate) → e.previewPlace = e.place + 1 ∧ 0 ≤ e.place) := by
  have hcast : (0 : ℚ) < e.sampleRate := Nat.cast_pos.mpr hrate
  unfold previewPlace place roundAway enginePlace
  rcases lt_or_ge e.startSecs 0 with hneg | hpos
  · have hx : e.startSecs * e.sampleRate < 0 := mul_neg_of_neg_of_pos hneg hcast
    rw [if_neg (not_le.mpr hx), if_pos hneg, neg_mul]
    exact ⟨fun _ => rfl, fun h => absurd (Or.inl hx) h⟩
  · have hx : 0 ≤ e.startSecs * e.sampleRate := mul_nonneg hpos hcast.le
    rw [if_pos hx, if_neg (not_lt.mpr hpos)]
    exact ⟨(round_eq hx).1, fun h => ⟨(round_eq hx).2 h, Int.floor_nonneg.mpr hx⟩⟩

theorem previewPlace_of_headCut (hrate : 0 < e.sampleRate) (hcut : 0 < e.headCut) :
    e.previewPlace = e.place := by
  by_cases h : RoundsDown (e.startSecs * e.sampleRate)
  · exact (previewPlace_spec hrate).1 h
  · have hplace := ((previewPlace_spec hrate).2 h).2
    rw [headCut] at hcut
    omega

theorem engineGain_eq (e : AudioEvent) (k : ℕ) : e.engineGain k =
    e.gain * (ramp (k - e.headCut) ⌊max (e.fadeInSecs * e.sampleRate) 0⌋₊ *
      ramp (e.frames - k) ⌊max (e.fadeOutSecs * e.sampleRate) 0⌋₊) := by
  have hscale : ∀ secs : ℚ, max secs 0 * e.sampleRate = max (secs * e.sampleRate) 0 := by
    intro secs
    rw [max_mul_of_nonneg _ _ (Nat.cast_nonneg _), zero_mul]
  rw [engineGain, hscale, hscale, headCut, mul_assoc]

theorem shownGain_eq (e : AudioEvent) (k : ℕ) : e.shownGain k =
    e.gain * (ramp k ⌊e.fadeInSecs * e.sampleRate + 1 / 2⌋₊ *
      ramp (e.frames - k) ⌊e.fadeOutSecs * e.sampleRate + 1 / 2⌋₊) :=
  mul_assoc _ _ _

/-- One frame or more of a fade in. -/
theorem fadeIn_pos_iff (e : AudioEvent) :
    1 ≤ ⌊max (e.fadeInSecs * e.sampleRate) 0⌋₊ ↔ 1 ≤ e.fadeInSecs * e.sampleRate := by
  rw [Nat.one_le_iff_ne_zero, Ne, natFloor_eq_zero_iff, not_lt]

theorem Unheard.silent (h : e.Unheard) (hrate : 0 < e.sampleRate) {k : ℕ} (hk : k < e.frames) :
    (0 ≤ e.previewPlace + k → e.shownGain k = 0) ∧ (0 ≤ e.place + k → e.engineGain k = 0) := by
  rcases h with hgain | hcut | ⟨hcut, hone, hfade⟩
  · rw [shownGain_eq, engineGain_eq, hgain, zero_mul, zero_mul]
    exact ⟨fun _ => rfl, fun _ => rfl⟩
  · have hplace := previewPlace_of_headCut hrate (show 0 < e.headCut by omega)
    rw [headCut] at hcut
    constructor <;> intro hheard <;> omega
  · have hzero : k = 0 := by omega
    have hfadeIn := e.fadeIn_pos_iff.mpr hfade
    have hfadeIn' : 0 < ⌊e.fadeInSecs * e.sampleRate + 1 / 2⌋₊ := by
      rcases rounded_natRound (e.fadeInSecs * e.sampleRate) with heq | heq <;> omega
    rw [shownGain_eq, engineGain_eq, hzero, Nat.zero_sub, ramp_first hfadeIn, ramp_first hfadeIn',
      zero_mul, zero_mul, mul_zero]
    exact ⟨fun _ => rfl, fun _ => rfl⟩

/-- In one place the gains agree wherever they are heard exactly if the fades are rounded alike. -/
theorem sameGains_iff (hheard : ¬e.Unheard) :
    (∀ k < e.frames, 0 ≤ e.place + k → e.shownGain k = e.engineGain k) ↔
      (e.headCut = 0 → RoundsDown (e.fadeInSecs * e.sampleRate)) ∧
      (0 < e.headCut → e.fadeInSecs * e.sampleRate < 1) ∧
      (RoundsDown (e.fadeOutSecs * e.sampleRate) ∨ e.fadeOutSecs * e.sampleRate < 1) := by
  rw [Unheard, not_or, not_or, not_le] at hheard
  obtain ⟨hgain, hlen, hfirst⟩ := hheard
  have hwithin : ∀ k : ℕ, 0 ≤ e.place + k ↔ e.headCut ≤ k := by
    intro k
    rw [headCut]
    omega
  have hagree := fades_agree_iff (K := ℚ) hlen (rounded_natRound (e.fadeInSecs * e.sampleRate))
    (rounded_natRound (e.fadeOutSecs * e.sampleRate)) (by rwa [fadeIn_pos_iff])
  simp only [natRound_eq_iff, natFloor_eq_zero_iff] at hagree
  simp only [hwithin, shownGain_eq, engineGain_eq, mul_right_inj' hgain, hagree]
  exact ⟨fun ⟨hcut, hin, hout⟩ => ⟨hin, hcut, hout⟩, fun ⟨hin, hcut, hout⟩ => ⟨hcut, hin, hout⟩⟩

/-- An event shown as it is played is so whatever its samples. -/
theorem ShownAsPlayed.shown_eq (h : e.ShownAsPlayed) (hrate : 0 < e.sampleRate) (f : ℕ) :
    e.shown f = e.sounded f := by
  unfold shown sounded
  by_cases hheard : e.Unheard
  · rw [stream_silent (fun k hk hin => ?_) f, stream_silent (fun k hk hin => ?_) f]
    · rw [(hheard.silent hrate hk).2 hin, mul_zero]
    · rw [(hheard.silent hrate hk).1 hin, mul_zero]
  · obtain halike := h.resolve_left hheard
    have hgains := (sameGains_iff hheard).mpr ⟨halike.fadeIn, halike.cutFadeIn, halike.fadeOut⟩
    rw [(previewPlace_spec hrate).1 halike.start]
    refine (sameHeard_iff _ _ _ _).mpr (fun k hk hin => ?_) f
    rw [hgains k hk hin]

/-- A window shown a frame late has a last frame that is shown after its sound has ended, and a first
that is played before anything is shown. -/
theorem unheard_of_late (hplace : 0 ≤ e.place)
    (h : ∀ f : ℕ, stream e.shownGain e.frames (f - (e.place + 1)) =
      stream e.engineGain e.frames (f - e.place)) : e.Unheard := by
  by_contra hheard
  rw [Unheard, not_or, not_or, not_le] at hheard
  obtain ⟨hgain, hlen, hfirst⟩ := hheard
  have hcut : e.headCut = 0 := by
    rw [headCut]
    omega
  have hlast : e.shownGain (e.frames - 1) = 0 := by
    have hend := h (e.place + e.frames).toNat
    rwa [Int.toNat_of_nonneg (by omega), stream_of_le e.engineGain (by omega),
      show e.place + e.frames - (e.place + 1) = (e.frames - 1 : ℕ) by omega,
      stream_of_lt _ (by omega)] at hend
  have hone : e.frames = 1 := by
    by_contra hmore
    rw [shownGain_eq] at hlast
    exact absurd hlast
      (mul_ne_zero hgain (mul_pos (ramp_pos (by omega)) (ramp_pos (by omega))).ne')
  have hbegin : e.engineGain 0 = 0 := by
    have hend := h e.place.toNat
    rwa [Int.toNat_of_nonneg hplace, stream_of_neg _ _ (by omega),
      show e.place - e.place = ((0 : ℕ) : ℤ) by omega, stream_of_lt _ (by omega), eq_comm] at hend
  refine hfirst ⟨hcut, hone, ?_⟩
  rw [← fadeIn_pos_iff, Nat.one_le_iff_ne_zero]
  intro hnone
  rw [engineGain_eq, hnone, ramp_zero, one_mul] at hbegin
  exact absurd hbegin (mul_ne_zero hgain (ramp_pos (by omega)).ne')

/-- Gains that are heard alike are those of an event that is shown as it is played. -/
theorem shownAsPlayed_of_gains (hrate : 0 < e.sampleRate)
    (h : ∀ f : ℕ, stream e.shownGain e.frames (f - e.previewPlace) =
      stream e.engineGain e.frames (f - e.place)) : e.ShownAsPlayed := by
  by_cases hheard : e.Unheard
  · exact Or.inl hheard
  · have hstart : RoundsDown (e.startSecs * e.sampleRate) := by
      by_contra hup
      obtain ⟨hlate, hplace⟩ := (previewPlace_spec hrate).2 hup
      rw [hlate] at h
      exact hheard (unheard_of_late hplace h)
    rw [(previewPlace_spec hrate).1 hstart] at h
    obtain ⟨hin, hcut, hout⟩ := (sameGains_iff hheard).mp ((sameHeard_iff _ _ _ _).mp h)
    exact Or.inr ⟨hstart, hin, hcut, hout⟩

/-! ## The end -/

/-- The start is on a frame, or, before the clip, past the middle between two. -/
def StartsOnFrame (e : AudioEvent) : Prop :=
  Int.fract (e.startSecs * e.sampleRate) = 0 ∨
    e.startSecs < 0 ∧ 1 / 2 < Int.fract (e.startSecs * e.sampleRate)

/-- The place of an event is its start rounded down, or to the nearest frame before the clip. -/
theorem place_eq (e : AudioEvent) : e.place =
    if e.startSecs < 0 then ⌈e.startSecs * e.sampleRate - 1 / 2⌉
    else ⌊e.startSecs * e.sampleRate⌋ := by
  unfold place enginePlace
  split
  case isTrue =>
    rw [← Int.ceil_neg]
    congr 1
    ring
  case isFalse => rfl

theorem place_le_ceil (e : AudioEvent) : e.place ≤ ⌈e.startSecs * e.sampleRate⌉ := by
  rw [place_eq]
  split
  case isTrue => exact Int.ceil_mono (by linarith)
  case isFalse => exact Int.floor_le_ceil _

theorem place_eq_ceil_iff (e : AudioEvent) :
    e.place = ⌈e.startSecs * e.sampleRate⌉ ↔ e.StartsOnFrame := by
  rw [place_eq, StartsOnFrame]
  by_cases hneg : e.startSecs < 0
  · rw [if_pos hneg, ceil_sub_half_eq_ceil_iff]
    simp only [hneg, true_and]
  · rw [if_neg hneg, floor_eq_ceil_iff]
    simp only [hneg, false_and, or_false]

theorem ceil_endSecs (hrate : 0 < e.sampleRate) :
    ⌈e.endSecs * e.sampleRate⌉ = ⌈e.startSecs * e.sampleRate⌉ + e.frames := by
  have hcast : (e.sampleRate : ℚ) ≠ 0 := Nat.cast_ne_zero.mpr hrate.ne'
  rw [endSecs, durationSecs, if_neg hrate.ne', add_mul, div_mul_cancel₀ _ hcast, Int.ceil_add_natCast]

theorem stop_atRate (e : AudioEvent) :
    (e.payload.atRate e.sampleRate).stop = (e.place + e.frames).toNat := by
  rw [EngineAudioEvent.stop, clipStart_atRate, frames_atRate]
  omega

/-- What is shown of an event ends with the preview at the latest. -/
theorem shown_eq_zero (hrate : 0 < e.sampleRate) {f : ℕ} (hf : ⌈e.endSecs * e.sampleRate⌉ ≤ f) :
    e.shown f = 0 := by
  rw [ceil_endSecs hrate] at hf
  have hplace : e.previewPlace ≤ ⌈e.startSecs * e.sampleRate⌉ := by
    have hle := e.place_le_ceil
    by_cases h : RoundsDown (e.startSecs * e.sampleRate)
    · rwa [(previewPlace_spec hrate).1 h]
    · have hne : e.place ≠ ⌈e.startSecs * e.sampleRate⌉ := by
        rw [Ne, place_eq_ceil_iff]
        rintro (hzero | ⟨hneg, -⟩)
        · exact h (Or.inr (by rw [hzero]; norm_num))
        · exact h (Or.inl (mul_neg_of_neg_of_pos hneg (Nat.cast_pos.mpr hrate)))
      rw [((previewPlace_spec hrate).2 h).1]
      omega
  exact stream_of_le _ (by omega)

end AudioEvent

/-- No event ends within the clip, or one of those that end last, to the frame, starts on one. -/
def EndTogether (events : List AudioEvent) : Prop :=
  (∀ e ∈ events, e.endSecs ≤ 0) ∨
    ∃ e ∈ events, e.StartsOnFrame ∧
      ∀ e' ∈ events, ⌈e'.endSecs * e'.sampleRate⌉ ≤ ⌈e.endSecs * e.sampleRate⌉

theorem length_preview_le {rate : ℕ} (hrate : 0 < rate) {events : List AudioEvent}
    (h : AtRate rate events) (n : ℕ) : (refreshPreview events).mix.length ≤ n ↔
      ∀ e ∈ events, ⌈e.endSecs * e.sampleRate⌉ ≤ n := by
  have hcast : (0 : ℚ) < rate := Nat.cast_pos.mpr hrate
  rw [length_refreshPreview hrate h, Nat.ceil_le, ← le_div_iff₀ hcast, totalSecs, foldl_max_le]
  have hnonneg : (0 : ℚ) ≤ n / rate := div_nonneg (Nat.cast_nonneg n) hcast.le
  simp only [hnonneg, true_and, List.forall_mem_map]
  refine forall₂_congr fun e he => ?_
  rw [(h e he).1, Int.ceil_le, Int.cast_natCast, le_div_iff₀ hcast]

theorem lastStop_le {rate : ℕ} {events : List AudioEvent} (h : AtRate rate events) (n : ℕ) :
    ((engineEvents rate events).map EngineAudioEvent.stop).foldr max 0 ≤ n ↔
      ∀ e ∈ events, e.place + e.frames ≤ n := by
  rw [foldr_max_le, engineEvents, List.map_map, List.forall_mem_map]
  refine forall₂_congr fun e he => ?_
  rw [Function.comp_apply, ← (h e he).1, e.stop_atRate]
  omega

/-- The preview ends with the sound exactly if an event that ends last starts on a frame. -/
theorem ends_iff {rate : ℕ} (hrate : 0 < rate) {events : List AudioEvent} (h : AtRate rate events) :
    (refreshPreview events).mix.length =
      ((engineEvents rate events).map EngineAudioEvent.stop).foldr max 0 ↔ EndTogether events := by
  have hshown := length_preview_le hrate h
  have hplayed := lastStop_le h
  generalize (refreshPreview events).mix.length = total at hshown ⊢
  generalize ((engineEvents rate events).map EngineAudioEvent.stop).foldr max 0 = last at hplayed ⊢
  have hpos : ∀ e ∈ events, 0 < e.sampleRate := fun e he => (h e he).1.symm ▸ hrate
  have hle : last ≤ total := (hplayed total).mpr fun e he => by
    have hend := (hshown total).mp le_rfl e he
    rw [AudioEvent.ceil_endSecs (hpos e he)] at hend
    have := e.place_le_ceil
    omega
  constructor
  · rintro rfl
    rcases Nat.eq_zero_or_pos total with hzero | hsome
    · refine Or.inl fun e he => ?_
      have hend := (hshown 0).mp (by omega) e he
      rw [Int.ceil_le, Nat.cast_zero, Int.cast_zero] at hend
      exact nonpos_of_mul_nonpos_left hend (Nat.cast_pos.mpr (hpos e he))
    · have hreach : ¬∀ e ∈ events, e.place + e.frames ≤ (total - 1 : ℕ) := fun hall =>
        absurd ((hplayed _).mpr hall) (by omega)
      simp only [not_forall] at hreach
      obtain ⟨e, he, hreach⟩ := hreach
      have hend := (hshown total).mp le_rfl e he
      have hplace := e.place_le_ceil
      have hceil := AudioEvent.ceil_endSecs (hpos e he)
      refine Or.inr ⟨e, he, e.place_eq_ceil_iff.mp (by omega), fun e' he' => ?_⟩
      have := (hshown total).mp le_rfl e' he'
      omega
  · rintro (hnone | ⟨e, he, hstart, hlatest⟩)
    · have hzero : total ≤ 0 := (hshown 0).mpr fun e he => by
        rw [Int.ceil_le, Nat.cast_zero, Int.cast_zero]
        exact mul_nonpos_of_nonpos_of_nonneg (hnone e he) (Nat.cast_nonneg _)
      omega
    · refine le_antisymm ((hshown last).mpr fun e' he' => (hlatest e' he').trans ?_) hle
      rw [AudioEvent.ceil_endSecs (hpos e he), ← e.place_eq_ceil_iff.mpr hstart]
      exact (hplayed last).mp le_rfl e he

/-- The preview of a list of events in the sums of what is shown and what is played of each. -/
theorem previewIsSound_iff_sums {rate : ℕ} (hrate : 0 < rate) {events : List AudioEvent}
    (h : AtRate rate events) : PreviewIsSound rate events ↔ EndTogether events ∧
      ∀ f : ℕ, (events.map fun e => e.shown f).sum = (events.map fun e => e.sounded f).sum := by
  have hmix : ∀ f : ℕ,
      (refreshPreview events).mix.getD f 0 = (events.map fun e => e.shown f).sum := by
    intro f
    by_cases hf : f < (refreshPreview events).mix.length
    · exact getD_refreshPreview hrate h hf
    · rw [List.getD_eq_default _ _ (not_lt.mp hf)]
      refine (List.sum_eq_zero fun x hx => ?_).symm
      obtain ⟨e, he, rfl⟩ := List.mem_map.mp hx
      exact e.shown_eq_zero ((h e he).1.symm ▸ hrate)
        ((length_preview_le hrate h f).mp (not_lt.mp hf) e he)
  constructor
  · intro hsound
    refine ⟨(ends_iff hrate h).mp hsound.ends, fun f => ?_⟩
    have hf := hsound.samples ⟨0, 0, 0, [], 0, 0, 0, 0, 1, false, false, 0, 0, true, .fresh, []⟩ f
    rwa [hmix, mean_mixEventsAt h] at hf
  · rintro ⟨hends, hsums⟩
    refine ⟨(ends_iff hrate h).mpr hends, fun c f => ?_⟩
    rw [hmix, mean_mixEventsAt h, hsums]

/-! ## Whatever the samples -/

namespace AudioEvent

/-- The event with samples that are all alike. -/
def level (e : AudioEvent) (value : ℚ) : AudioEvent :=
  { e with samples := List.replicate e.samples.length value }

/-- The event without its sound. -/
def muted (e : AudioEvent) : AudioEvent :=
  e.level 0

variable (e : AudioEvent) (value : ℚ)

@[simp] theorem muted_level : (e.level value).muted = e.muted := by
  simp only [muted, level, List.length_replicate]

theorem frames_level : (e.level value).frames = e.frames := by
  simp only [frames, totalFrames, level, List.length_replicate]

theorem windowFrame_level {k : ℕ} (hk : k < e.frames) :
    (e.level value).windowFrame k = (value, value) := by
  have hlen := (e.level value).length_windowSamples
  have hch : (e.level value).channels = e.channels := rfl
  have hwindow : (e.level value).windowSamples =
      List.replicate (e.frames * max e.channels 1) value := by
    rw [frames_level, hch] at hlen
    rw [List.eq_replicate_iff]
    refine ⟨hlen, fun x hx => ?_⟩
    rw [windowSamples_eq] at hx
    exact List.eq_of_mem_replicate (List.mem_of_mem_drop (List.mem_of_mem_take hx))
  have hfits : k * max e.channels 1 + max e.channels 1 ≤ e.frames * max e.channels 1 := by
    rw [← Nat.succ_mul]
    exact Nat.mul_le_mul_right _ hk
  have hleft : k * max e.channels 1 < e.frames * max e.channels 1 := by omega
  rw [windowFrame, hwindow, hch]
  unfold frameAt
  simp only [List.getD_replicate _ hleft]
  by_cases hstereo : 1 < max e.channels 1
  · have hright : k * max e.channels 1 + 1 < e.frames * max e.channels 1 := by omega
    rw [List.getD_replicate _ hright, if_pos hstereo]
  · rw [if_neg hstereo]

theorem shown_level (f : ℕ) : (e.level value).shown f =
    stream (fun k => value * e.shownGain k) e.frames (f - e.previewPlace) := by
  have hgain : (e.level value).shownGain = e.shownGain := by
    funext k
    rw [shownGain, frames_level]
    rfl
  rw [shown, frames_level, hgain]
  refine stream_congr (fun k hk => ?_) _
  rw [e.windowFrame_level value hk, mean]
  ring

theorem sounded_level (f : ℕ) : (e.level value).sounded f =
    stream (fun k => value * e.engineGain k) e.frames (f - e.place) := by
  have hgain : (e.level value).engineGain = e.engineGain := by
    funext k
    rw [engineGain, frames_level]
    rfl
  rw [sounded, frames_level, hgain]
  refine stream_congr (fun k hk => ?_) _
  rw [e.windowFrame_level value hk, mean]
  ring

theorem shown_muted (f : ℕ) : e.muted.shown f = 0 := by
  rw [muted, shown_level]
  exact stream_silent (fun k _ _ => zero_mul _) f

theorem sounded_muted (f : ℕ) : e.muted.sounded f = 0 := by
  rw [muted, sounded_level]
  exact stream_silent (fun k _ _ => zero_mul _) f

/-- Whether an event is shown as it is played is not a matter of its samples. -/
theorem shownAsPlayed_muted : e.muted.ShownAsPlayed ↔ e.ShownAsPlayed := by
  have hunheard : e.muted.Unheard ↔ e.Unheard := by
    rw [Unheard, muted, frames_level]
    rfl
  have halike : e.muted.RoundsAlike ↔ e.RoundsAlike :=
    ⟨fun h => ⟨h.start, h.fadeIn, h.cutFadeIn, h.fadeOut⟩,
      fun h => ⟨h.start, h.fadeIn, h.cutFadeIn, h.fadeOut⟩⟩
  rw [ShownAsPlayed, hunheard, halike, ShownAsPlayed]

theorem endSecs_muted : e.muted.endSecs = e.endSecs := by
  simp only [endSecs, durationSecs, muted, frames_level]
  rfl

end AudioEvent

/-- Muted events add nothing to a sum in which none of them has anything. -/
theorem sum_muted {value : AudioEvent → ℚ} (hsilent : ∀ e : AudioEvent, value e.muted = 0)
    (events : List AudioEvent) : ((events.map AudioEvent.muted).map value).sum = 0 := by
  refine List.sum_eq_zero fun x hx => ?_
  rw [List.map_map] at hx
  obtain ⟨e, -, rfl⟩ := List.mem_map.mp hx
  exact hsilent e

/-- Events that differ in the values of their samples only. -/
def SameLayout (events events' : List AudioEvent) : Prop :=
  events'.map AudioEvent.muted = events.map AudioEvent.muted

theorem endTogether_muted (events : List AudioEvent) :
    EndTogether (events.map AudioEvent.muted) ↔ EndTogether events := by
  unfold EndTogether
  simp only [List.forall_mem_map, AudioEvent.endSecs_muted]
  simp only [List.mem_map, exists_exists_and_eq_and, AudioEvent.endSecs_muted]
  rfl

theorem atRate_muted (rate : ℕ) (events : List AudioEvent) :
    AtRate rate (events.map AudioEvent.muted) ↔ AtRate rate events := by
  unfold AtRate
  simp only [List.forall_mem_map]
  rfl

/-- The preview is the sound, whatever the samples, exactly if each event is shown as it is played and one
that ends last starts on a frame. -/
theorem previewIsSound_iff {rate : ℕ} (hrate : 0 < rate) {events : List AudioEvent}
    (h : AtRate rate events) :
    (∀ events', SameLayout events events' → PreviewIsSound rate events') ↔
      (∀ e ∈ events, e.ShownAsPlayed) ∧ EndTogether events := by
  have hlayout : ∀ events', SameLayout events events' → AtRate rate events' := by
    intro events' hsame
    rwa [← atRate_muted, show events'.map AudioEvent.muted = _ from hsame, atRate_muted]
  constructor
  · intro hall
    refine ⟨fun e he => ?_, ((previewIsSound_iff_sums hrate h).mp (hall events rfl)).1⟩
    -- every event but this one muted, and this one of nothing but ones
    obtain ⟨before, after, rfl⟩ := List.append_of_mem he
    have hsame : SameLayout (before ++ e :: after)
        (before.map AudioEvent.muted ++ e.level 1 :: after.map AudioEvent.muted) := by
      have htwice : AudioEvent.muted ∘ AudioEvent.muted = AudioEvent.muted := by
        funext e'
        exact e'.muted_level 0
      simp only [SameLayout, List.map_append, List.map_cons, List.map_map, htwice,
        AudioEvent.muted_level]
    have hsums := ((previewIsSound_iff_sums hrate (hlayout _ hsame)).mp (hall _ hsame)).2
    refine AudioEvent.shownAsPlayed_of_gains ((h e he).1.symm ▸ hrate) fun f => ?_
    have hf := hsums f
    rw [List.map_append, List.map_append, List.sum_append, List.sum_append, List.map_cons, List.map_cons,
      List.sum_cons, List.sum_cons, sum_muted (fun e => e.shown_muted f),
      sum_muted (fun e => e.shown_muted f), sum_muted (fun e => e.sounded_muted f),
      sum_muted (fun e => e.sounded_muted f), e.shown_level, e.sounded_level] at hf
    simpa only [zero_add, add_zero, one_mul] using hf
  · rintro ⟨hevents, hends⟩ events' hsame
    have hevents' : ∀ e ∈ events', e.ShownAsPlayed := by
      have hmuted : ∀ e ∈ events'.map AudioEvent.muted, e.ShownAsPlayed := by
        rw [show events'.map AudioEvent.muted = _ from hsame, List.forall_mem_map]
        exact fun e he => e.shownAsPlayed_muted.mpr (hevents e he)
      exact fun e he => e.shownAsPlayed_muted.mp (hmuted _ (List.mem_map_of_mem he))
    have hends' : EndTogether events' := by
      rwa [← endTogether_muted, show events'.map AudioEvent.muted = _ from hsame, endTogether_muted]
    refine (previewIsSound_iff_sums hrate (hlayout events' hsame)).mpr ⟨hends', fun f => ?_⟩
    refine congrArg List.sum (List.map_congr_left fun e he => ?_)
    exact (hevents' e he).shown_eq ((hlayout events' hsame e he).1.symm ▸ hrate) f

/-- An event that starts with the clip and does not fade. -/
theorem previewIsSound_iff_from_start :
    PreviewIsSound 44100 [AudioEvent.newFull 1 "tone" [1, 1 / 2] 1 44100 0] := by
  have hrate : AtRate 44100 [AudioEvent.newFull 1 "tone" [1, 1 / 2] 1 44100 0] := by
    intro e he
    rw [List.mem_singleton.mp he]
    exact ⟨rfl, Or.inl rfl⟩
  refine (previewIsSound_iff (by decide) hrate).mpr ⟨?_, ?_⟩ _ rfl
  · intro e he
    rw [List.mem_singleton.mp he]
    have hdown : RoundsDown (0 * ((44100 : ℕ) : ℚ)) := Or.inr (by simp)
    have hcut : (AudioEvent.newFull 1 "tone" [1, 1 / 2] 1 44100 0).headCut = 0 := by decide +kernel
    exact Or.inr ⟨hdown, fun _ => hdown, fun hpos => absurd hcut hpos.ne', Or.inl hdown⟩
  · refine Or.inr ⟨_, List.mem_singleton_self _, Or.inl (by simp [AudioEvent.newFull]), fun e he => ?_⟩
    rw [List.mem_singleton.mp he]

/-- One frame that starts three quarters of a frame into the clip. -/
def lateTick : AudioEvent :=
  AudioEvent.newFull 1 "tick" [1] 1 44100 (3 / 176400)

/-- It is shown at the second frame, and played at the first. -/
theorem lateTick_not_sound :
    (refreshPreview [lateTick]).mix = [0, 1] ∧
    (∀ c : AudioClip,
      (c.setEvents (engineEvents (44100 : ℕ) [lateTick])).mixEventsAt 0 = (1, 1)) ∧
    ¬PreviewIsSound 44100 [lateTick] := by
  have hshown : (refreshPreview [lateTick]).mix = [0, 1] := by decide +kernel
  have hplayed : ∀ c : AudioClip,
      (c.setEvents (engineEvents (44100 : ℕ) [lateTick])).mixEventsAt 0 = (1, 1) := by
    intro c
    rw [mixEventsAt_setEvents]
    decide +kernel
  refine ⟨hshown, hplayed, fun h => ?_⟩
  have hfirst := h.samples ⟨0, 0, 0, [], 0, 0, 0, 0, 1, false, false, 0, 0, true, .fresh, []⟩ 0
  rw [hshown, hplayed] at hfirst
  exact absurd hfirst (by decide +kernel)

end HikaruOpenLive.Gui
