import HikaruOpenLive.Gui.EventPlacement

/-! # An event of a pad cut in two

The cut is rounded to the nearest frame for the windows of the two halves, but the right half starts at
the time asked for, which the engine rounds down: where the two roundings differ the halves leave a gap
or overlap. `AudioEvent.splitAt_renders_iff` says at which cuts the halves play what the event played.
-/
set_option autoImplicit false

namespace HikaruOpenLive.Gui

open Engine Foundations.PlacedStreams

namespace AudioEvent

/-- The frame of the window nearest to a time of the clip. -/
def cutFrames (e : AudioEvent) (atSecs : ℚ) : ℕ :=
  ⌊(atSecs - e.startSecs) * e.sampleRate + 1 / 2⌋₊

/-- The event itself keeps the left half. -/
def splitAt (e : AudioEvent) (atSecs : ℚ) (newId : ℕ) (newName : String) :
    Option (AudioEvent × AudioEvent) :=
  if atSecs ≤ e.startSecs ∨ e.endSecs ≤ atSecs ∨ e.sampleRate = 0 then none
  else
    let cutFrames := e.cutFrames atSecs
    let leftVisible := e.frames
    if cutFrames = 0 ∨ leftVisible ≤ cutFrames then none
    else
      let right := { e with
        id := newId, name := newName, startSecs := atSecs
        trimLeftFrames := e.trimLeftFrames + cutFrames
        visibleFrames := leftVisible - cutFrames, fadeInSecs := 0 }
      some ({ e with visibleFrames := cutFrames, fadeOutSecs := 0 }, right)

/-- What a cut makes of an event. -/
structure Halves (e left right : AudioEvent) (atSecs : ℚ) : Prop where
  rate : e.sampleRate ≠ 0
  inside : e.startSecs < atSecs ∧ atSecs < e.endSecs
  cut : 0 < e.cutFrames atSecs ∧ e.cutFrames atSecs < e.frames
  left_eq : left = { e with visibleFrames := e.cutFrames atSecs, fadeOutSecs := 0 }
  right_eq : ∃ newId newName, right = { e with
    id := newId, name := newName, startSecs := atSecs
    trimLeftFrames := e.trimLeftFrames + e.cutFrames atSecs
    visibleFrames := e.frames - e.cutFrames atSecs, fadeInSecs := 0 }

theorem halves_of_splitAt {e left right : AudioEvent} {atSecs : ℚ} {newId : ℕ} {newName : String}
    (h : e.splitAt atSecs newId newName = some (left, right)) : e.Halves left right atSecs := by
  unfold splitAt at h
  split at h
  case isTrue => cases h
  case isFalse hguard =>
    simp only at h
    split at h
    case isTrue => cases h
    case isFalse hcut =>
      obtain ⟨rfl, rfl⟩ := Prod.mk.inj (Option.some.inj h)
      rw [not_or, not_or, not_le, not_le] at hguard
      exact ⟨hguard.2.2, ⟨hguard.1, hguard.2.1⟩, by omega, rfl, newId, newName, rfl⟩

namespace Halves

variable {e left right : AudioEvent} {atSecs : ℚ} (h : e.Halves left right atSecs)
include h

/-! ## The windows -/

theorem frames_left : left.frames = e.cutFrames atSecs := by
  have htotal : e.frames ≤ e.totalFrames - e.trimLeftFrames := min_le_left _ _
  have hcut := h.cut.2
  rw [h.left_eq]
  exact min_eq_right (hcut.le.trans htotal)

theorem frames_right : right.frames = e.frames - e.cutFrames atSecs := by
  have htotal : e.frames ≤ e.totalFrames - e.trimLeftFrames := min_le_left _ _
  obtain ⟨newId, newName, hright⟩ := h.right_eq
  rw [hright]
  refine min_eq_right ?_
  change e.frames - e.cutFrames atSecs ≤ e.totalFrames - (e.trimLeftFrames + e.cutFrames atSecs)
  omega

theorem window_left :
    left.windowSamples = e.windowSamples.take (e.cutFrames atSecs * max e.channels 1) := by
  have hle : e.cutFrames atSecs * max e.channels 1 ≤ e.frames * max e.channels 1 :=
    Nat.mul_le_mul_right _ h.cut.2.le
  rw [windowSamples_eq, windowSamples_eq, h.frames_left, List.take_take, min_eq_left hle, h.left_eq]

theorem window_right :
    right.windowSamples = e.windowSamples.drop (e.cutFrames atSecs * max e.channels 1) := by
  rw [windowSamples_eq, windowSamples_eq, h.frames_right, List.drop_take, List.drop_drop,
    ← Nat.add_mul, ← Nat.sub_mul]
  obtain ⟨newId, newName, hright⟩ := h.right_eq
  rw [hright]

theorem windowFrame_left {k : ℕ} (hk : k < e.cutFrames atSecs) :
    left.windowFrame k = e.windowFrame k := by
  have hch : left.channels = e.channels := by rw [h.left_eq]
  rw [windowFrame, windowFrame, h.window_left, hch, frameAt_take _ _ hk]

theorem windowFrame_right (k : ℕ) :
    right.windowFrame k = e.windowFrame (e.cutFrames atSecs + k) := by
  have hch : right.channels = e.channels := by
    obtain ⟨newId, newName, hright⟩ := h.right_eq
    rw [hright]
  rw [windowFrame, windowFrame, h.window_right, hch, frameAt_drop]

/-! ## In the engine -/

/-- The right half, as the engine has it. -/
theorem readAt_right (hplain : e.Unfaded) (f : ℕ) :
    (right.payload.atRate e.sampleRate).readAt f =
      stream (fun k => scaled e.gain (e.windowFrame (e.cutFrames atSecs + k)))
        (e.frames - e.cutFrames atSecs) (f - enginePlace e.sampleRate atSecs) := by
  obtain ⟨newId, newName, hright⟩ := h.right_eq
  have hrate : right.sampleRate = e.sampleRate := by rw [hright]
  have hplace : right.place = enginePlace e.sampleRate atSecs := by rw [hright]; rfl
  have hgain : right.gain = e.gain := by rw [hright]
  have hunfaded : right.Unfaded := by
    rw [hright]
    exact ⟨rfl, hplain.fadesNotOut⟩
  have hread := right.readAt_atRate f
  rw [hrate, h.frames_right, hplace] at hread
  rw [hread]
  apply stream_congr
  intro k _
  rw [hunfaded.engineGain, hgain, h.windowFrame_right]

theorem readAt_left (hplain : e.Unfaded) (f : ℕ) :
    (left.payload.atRate e.sampleRate).readAt f =
      stream (fun k => scaled e.gain (e.windowFrame k)) (e.cutFrames atSecs) (f - e.place) := by
  have hrate : left.sampleRate = e.sampleRate := by rw [h.left_eq]
  have hplace : left.place = e.place := by rw [h.left_eq]; rfl
  have hgain : left.gain = e.gain := by rw [h.left_eq]
  have hunfaded : left.Unfaded := by
    rw [h.left_eq]
    exact ⟨hplain.fadesNotIn, rfl⟩
  have hread := left.readAt_atRate f
  rw [hrate, h.frames_left, hplace] at hread
  rw [hread]
  apply stream_congr
  intro k hk
  rw [hunfaded.engineGain, hgain, h.windowFrame_left hk]

/-- The event itself as its two parts, the second where the first ends. -/
theorem readAt_whole (hplain : e.Unfaded) (f : ℕ) :
    (e.payload.atRate e.sampleRate).readAt f =
      (left.payload.atRate e.sampleRate).readAt f +
      stream (fun k => scaled e.gain (e.windowFrame (e.cutFrames atSecs + k)))
        (e.frames - e.cutFrames atSecs) (f - (e.place + e.cutFrames atSecs)) := by
  have hgain : ∀ k < e.frames, scaled (e.engineGain k) (e.windowFrame k) =
      scaled e.gain (e.windowFrame k) := by
    intro k _
    rw [hplain.engineGain]
  rw [h.readAt_left hplain, readAt_atRate, stream_congr hgain, stream_eq_add _ h.cut.2.le,
    sub_sub]

end Halves

/-- The engine has the first frame of the right half right behind the last of the left. -/
def CutMeets (e : AudioEvent) (atSecs : ℚ) : Prop :=
  enginePlace e.sampleRate atSecs = e.place + e.cutFrames atSecs

/-- Nothing is heard of the event from the cut on. -/
def SilentFrom (e : AudioEvent) (atSecs : ℚ) : Prop :=
  ∀ k < e.frames - e.cutFrames atSecs,
    0 ≤ max (enginePlace e.sampleRate atSecs) (e.place + e.cutFrames atSecs) + k →
      scaled e.gain (e.windowFrame (e.cutFrames atSecs + k)) = 0

/-- For an event that starts within the clip the halves meet when the part of a frame that the cut is
off differs from the one the start is off by less than half a frame. -/
theorem cutMeets_iff_fract {e : AudioEvent} {atSecs : ℚ} (hstart : 0 ≤ e.startSecs)
    (hat : e.startSecs ≤ atSecs) :
    e.CutMeets atSecs ↔
      -(1 / 2) ≤ Int.fract (atSecs * e.sampleRate) - Int.fract (e.startSecs * e.sampleRate) ∧
        Int.fract (atSecs * e.sampleRate) - Int.fract (e.startSecs * e.sampleRate) < 1 / 2 := by
  have hplace : ∀ {secs : ℚ}, 0 ≤ secs → enginePlace e.sampleRate secs = ⌊secs * e.sampleRate⌋ :=
    fun hsecs => if_neg (not_lt.mpr hsecs)
  have hcut : (e.cutFrames atSecs : ℤ) = ⌊(atSecs - e.startSecs) * e.sampleRate + 1 / 2⌋ := by
    refine Int.natCast_floor_eq_floor ?_
    have := mul_nonneg (sub_nonneg.mpr hat) (Nat.cast_nonneg (α := ℚ) e.sampleRate)
    linarith
  have hshift : (atSecs - e.startSecs) * e.sampleRate + 1 / 2 =
      Int.fract (atSecs * e.sampleRate) - Int.fract (e.startSecs * e.sampleRate) + 1 / 2 +
        ((⌊atSecs * e.sampleRate⌋ - ⌊e.startSecs * e.sampleRate⌋ : ℤ) : ℚ) := by
    unfold Int.fract
    push_cast
    ring
  rw [CutMeets, place, hplace hstart, hplace (hstart.trans hat), hcut, hshift, Int.floor_add_intCast]
  have hzero : ⌊atSecs * e.sampleRate⌋ = ⌊e.startSecs * e.sampleRate⌋ +
      (⌊Int.fract (atSecs * e.sampleRate) - Int.fract (e.startSecs * e.sampleRate) + 1 / 2⌋ +
        (⌊atSecs * e.sampleRate⌋ - ⌊e.startSecs * e.sampleRate⌋)) ↔
      ⌊Int.fract (atSecs * e.sampleRate) - Int.fract (e.startSecs * e.sampleRate) + 1 / 2⌋ = 0 := by
    omega
  rw [hzero, Int.floor_eq_zero_iff, Set.mem_Ico]
  constructor
  · rintro ⟨hlow, hhigh⟩
    exact ⟨by linarith, by linarith⟩
  · rintro ⟨hlow, hhigh⟩
    exact ⟨by linarith, by linarith⟩

/-- The halves of an event hold its window between them; sent to the engine in its place they play what
it played exactly if they meet at the cut, or nothing is heard from there on. -/
theorem splitAt_renders_iff {e left right : AudioEvent} {atSecs : ℚ} {newId : ℕ} {newName : String}
    (hsplit : e.splitAt atSecs newId newName = some (left, right)) (hin : e.fadeInSecs = 0)
    (hout : e.fadeOutSecs = 0) :
    left.windowSamples ++ right.windowSamples = e.windowSamples ∧
    left.frames + right.frames = e.frames ∧
    ∀ (before after : List AudioEvent) (c : AudioClip),
      (∀ f : ℕ,
        (c.setEvents (engineEvents e.sampleRate (before ++ left :: after ++ [right]))).mixEventsAt f =
          (c.setEvents (engineEvents e.sampleRate (before ++ e :: after))).mixEventsAt f) ↔
        e.CutMeets atSecs ∨ e.SilentFrom atSecs := by
  have h := halves_of_splitAt hsplit
  refine ⟨?_, ?_, ?_⟩
  · rw [h.window_left, h.window_right, List.take_append_drop]
  · have hcut := h.cut.2
    rw [h.frames_left, h.frames_right]
    omega
  · intro before after c
    have hframe : ∀ f : ℕ,
        ((c.setEvents (engineEvents e.sampleRate (before ++ left :: after ++ [right]))).mixEventsAt f =
          (c.setEvents (engineEvents e.sampleRate (before ++ e :: after))).mixEventsAt f ↔
        (right.payload.atRate e.sampleRate).readAt f =
          stream (fun k => scaled e.gain (e.windowFrame (e.cutFrames atSecs + k)))
            (e.frames - e.cutFrames atSecs) (f - (e.place + e.cutFrames atSecs))) := by
      intro f
      rw [mixEventsAt_setEvents, mixEventsAt_setEvents]
      simp only [List.map_append, List.map_cons, List.map_nil, List.sum_append, List.sum_cons,
        List.sum_nil, add_zero, h.readAt_whole ⟨hin, hout⟩ f]
      rw [add_right_comm ((left.payload.atRate e.sampleRate).readAt f)]
      simp only [← add_assoc, add_right_inj]
    rw [forall_congr' hframe]
    simp only [h.readAt_right ⟨hin, hout⟩]
    exact shifted_iff _ _ _ _

/-- Four frames of one channel from the beginning of the clip on. -/
def fourFrames : AudioEvent :=
  newFull 1 "tone" [1, 1, 1, 1] 1 44100 0

/-- Cut at a whole frame, the halves meet. -/
theorem splitAt_renders_iff_whole_frame : ∃ left right,
    fourFrames.splitAt (2 / 44100) 2 "tone" = some (left, right) ∧
      ∀ (before after : List AudioEvent) (c : AudioClip) (f : ℕ),
        (c.setEvents (engineEvents 44100 (before ++ left :: after ++ [right]))).mixEventsAt f =
          (c.setEvents (engineEvents 44100 (before ++ fourFrames :: after))).mixEventsAt f := by
  have hsome : (fourFrames.splitAt (2 / 44100) 2 "tone").isSome = true := by decide +kernel
  obtain ⟨⟨left, right⟩, hsplit⟩ := Option.isSome_iff_exists.mp hsome
  have hmeets : fourFrames.CutMeets (2 / 44100) := by
    unfold CutMeets
    decide +kernel
  exact ⟨left, right, hsplit, fun before after c =>
    ((splitAt_renders_iff hsplit rfl rfl).2.2 before after c).mpr (Or.inl hmeets)⟩

/-- Cut three quarters of a frame past the first, two frames stay on the left, but the right half starts
with the second: both are heard there. -/
theorem splitAt_overlaps : ∃ left right,
    fourFrames.splitAt (7 / 176400) 2 "tone" = some (left, right) ∧
      ∀ c : AudioClip,
        (c.setEvents (engineEvents 44100 [left, right])).mixEventsAt 1 = (2, 2) ∧
          (c.setEvents (engineEvents 44100 [fourFrames])).mixEventsAt 1 = (1, 1) := by
  refine ⟨{ fourFrames with visibleFrames := 2 }, { fourFrames with
    id := 2, startSecs := 7 / 176400, trimLeftFrames := 2, visibleFrames := 2 },
    by decide +kernel, fun c => ?_⟩
  rw [mixEventsAt_setEvents, mixEventsAt_setEvents]
  decide +kernel

end AudioEvent

end HikaruOpenLive.Gui
