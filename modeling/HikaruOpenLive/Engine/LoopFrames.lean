import HikaruOpenLive.Engine.AudioClip

/-! # Four resolvers of one frame

The audio callback, the event path and the playhead each resolve the frame of a clip from the time
elapsed since its trigger. The event path and the playhead compute the same function
(`playheadFrame_eq`). The callback instead plays the clip once up to the end of its loop and then
folds (`singleSampleFrame_looped`), so that with a loop that does not begin at a multiple of its own
length the three come apart; `resolvers_agree_iff` is the exact condition.
-/
set_option autoImplicit false

namespace HikaruOpenLive.Engine.AudioClip

open Transport Foundations.CyclicWindow

/-! ## The playhead and the event path -/

theorem voiceFrameLinear_eq (c : AudioClip) (t : TransportPosition) (elapsed : ℕ) :
    c.voiceFrameLinear (c.startAbsolute + elapsed) t = c.clipFrameForElapsed elapsed t := by
  unfold voiceFrameLinear clipFrameForElapsed
  rw [if_neg (show ¬ c.startAbsolute + elapsed < c.startAbsolute by omega),
    Nat.add_sub_cancel_left]

theorem voiceStateLinear_eq_active_iff (c : AudioClip) (t : TransportPosition) (elapsed : ℕ) :
    c.voiceStateLinear (c.startAbsolute + elapsed) t = .active ↔
      (c.clipFrameForElapsed elapsed t).isSome := by
  unfold voiceStateLinear
  by_cases hev : c.events.isEmpty = true
  · simp only [hev, Bool.not_true, Bool.false_eq_true, if_false]
    rw [voiceFrameLinear_eq]
    cases c.clipFrameForElapsed elapsed t with
    | none => simp
    | some f => simp
  · unfold clipFrameForElapsed
    simp only [hev, Bool.not_false, if_true, Nat.add_sub_cancel_left]
    rw [if_neg (show ¬ c.startAbsolute + elapsed < c.startAbsolute by omega)]
    by_cases hn : c.naturalFrames = 0
    · simp [hn]
    · by_cases hl : c.hasValidClipLoop = true
      · simp [hn, hl]
      · by_cases he : c.emissionLenFrames ≤ elapsed
        · simp [hn, hl, he]
        · simp [hn, hl, he]

theorem playheadFrame_eq {c : AudioClip} (hplay : c.isPlaying = true) (t : TransportPosition)
    (elapsed : ℕ) :
    c.playheadFrame (c.startAbsolute + elapsed) t =
      (c.clipFrameForElapsed elapsed t).map fun f => (f, max c.naturalFrames 1) := by
  have hactive := c.voiceStateLinear_eq_active_iff t elapsed
  unfold playheadFrame
  simp only [hplay, Bool.not_true, Bool.false_eq_true, if_false]
  rw [voiceFrameLinear_eq]
  cases hf : c.clipFrameForElapsed elapsed t with
  | none => simp
  | some f =>
    rw [hf] at hactive
    have hs := hactive.mpr rfl
    simp [hs]

/-! ## The audio callback -/

theorem singleSampleFrame_oneShot {c : AudioClip} (h : ¬ c.hasValidClipLoop = true)
    (t : TransportPosition) (elapsed : ℕ) :
    c.singleSampleFrame elapsed t = if c.emissionLenFrames ≤ elapsed then none else some elapsed := by
  simp [singleSampleFrame, h]

theorem clipFrameForElapsed_oneShot {c : AudioClip} (h : ¬ c.hasValidClipLoop = true)
    (t : TransportPosition) (elapsed : ℕ) :
    c.clipFrameForElapsed elapsed t =
      if c.emissionLenFrames ≤ elapsed then none else some elapsed := by
  have hle := c.emissionLenFrames_le
  unfold clipFrameForElapsed
  by_cases hn : c.naturalFrames = 0
  · rw [if_pos hn, if_pos (by omega)]
  · simp [hn, h]

theorem singleSampleFrame_looped {c : AudioClip} (h : c.hasValidClipLoop = true)
    (t : TransportPosition) (elapsed : ℕ) :
    c.singleSampleFrame elapsed t =
      some (fold c.clipLoopStart (c.clipLoopStart + c.quantizedLoopLen t) elapsed) := by
  have hin := ((hasValidClipLoop_iff c).mp h).2.2
  have hmin : min c.clipLoopStart c.naturalFrames = c.clipLoopStart := by omega
  unfold singleSampleFrame
  simp only [h, not_true, false_and, if_false, if_true, hmin]
  by_cases he : elapsed < c.clipLoopStart + c.quantizedLoopLen t
  · rw [if_pos he, fold_of_lt he]
  · rw [if_neg he, fold_from_end (by omega) (by omega), Nat.add_sub_cancel_left]

theorem clipFrameForElapsed_looped {c : AudioClip} (h : c.hasValidClipLoop = true)
    (t : TransportPosition) (elapsed : ℕ) :
    c.clipFrameForElapsed elapsed t =
      some (c.clipLoopStart + elapsed % c.quantizedLoopLen t) := by
  have hin := ((hasValidClipLoop_iff c).mp h).2.2
  have hmin : min c.clipLoopStart c.naturalFrames = c.clipLoopStart := by omega
  have hn : c.naturalFrames ≠ 0 := by omega
  simp [clipFrameForElapsed, h, hn, hmin]

/-- Without a global loop the wrapping clock's resolver reads what the callback reads. -/
theorem voiceFrame_eq_singleSampleFrame (c : AudioClip) {t : TransportPosition}
    (ht : ¬ t.hasValidLoop = true) (elapsed : ℕ) :
    c.voiceFrame (c.startFrame + elapsed) t = c.singleSampleFrame elapsed t := by
  have hle := c.emissionLenFrames_le
  have hstart : ¬ c.startFrame + elapsed < c.startFrame := by omega
  unfold voiceFrame
  rw [if_neg hstart, Nat.add_sub_cancel_left]
  by_cases h : c.hasValidClipLoop = true
  · have hin := ((hasValidClipLoop_iff c).mp h).2.2
    have hmin : min c.clipLoopStart c.naturalFrames = c.clipLoopStart := by omega
    rw [singleSampleFrame_looped h, if_neg (by omega)]
    simp only [h, if_true, hmin]
    by_cases he : elapsed < c.clipLoopStart + c.quantizedLoopLen t
    · rw [if_pos he, fold_of_lt he]
    · rw [if_neg he, if_neg ht, fold_of_le (by omega), Nat.add_sub_cancel_left]
  · rw [singleSampleFrame_oneShot h]
    by_cases hn : c.naturalFrames = 0
    · rw [if_pos hn, if_pos (by omega)]
    · simp [hn, h]

theorem single_sample_agrees_iff (c : AudioClip) (t : TransportPosition) (elapsed : ℕ) :
    c.singleSampleFrame elapsed t = c.clipFrameForElapsed elapsed t ↔
      (c.hasValidClipLoop = true →
        c.quantizedLoopLen t ∣ c.clipLoopStart ∧ c.clipLoopStart ≤ elapsed) := by
  by_cases h : c.hasValidClipLoop = true
  · rw [singleSampleFrame_looped h, clipFrameForElapsed_looped h, Option.some_inj,
      fold_eq_phase_iff (c.quantizedLoopLen_pos t)]
    exact ⟨fun hk _ => hk, fun hk => hk h⟩
  · rw [singleSampleFrame_oneShot h, clipFrameForElapsed_oneShot h]
    exact ⟨fun _ hl => absurd hl h, fun _ => rfl⟩

/-- The three frames of a playing clip are the same, and a one-shot ends at the same time for all
three, precisely when the clip has no valid loop or its loop begins at a multiple of the loop's
length that the elapsed time has reached. -/
theorem resolvers_agree_iff (c : AudioClip) (t : TransportPosition) (elapsed : ℕ)
    (hplay : c.isPlaying = true) :
    (c.singleSampleFrame elapsed t = c.clipFrameForElapsed elapsed t ∧
        (c.playheadFrame (c.startAbsolute + elapsed) t).map Prod.fst =
          c.clipFrameForElapsed elapsed t ∧
        (c.playheadFrame (c.startAbsolute + elapsed) t).map Prod.fst =
          c.singleSampleFrame elapsed t) ↔
      (c.hasValidClipLoop = true →
        c.quantizedLoopLen t ∣ c.clipLoopStart ∧ c.clipLoopStart ≤ elapsed) := by
  have hhead : (c.playheadFrame (c.startAbsolute + elapsed) t).map Prod.fst =
      c.clipFrameForElapsed elapsed t := by
    rw [playheadFrame_eq hplay, Option.map_map]
    cases c.clipFrameForElapsed elapsed t with
    | none => rfl
    | some f => rfl
  rw [← single_sample_agrees_iff, hhead]
  exact ⟨fun h => h.1, fun h => ⟨h, rfl, h.symm⟩⟩

def loopedFromThird : AudioClip :=
  { id := 1, trackIndex := 0, sceneIndex := 0, samples := [0, 1, 2, 3, 4, 5, 6, 7],
    startFrame := 0, startAbsolute := 0, durationFrames := 8, sampleOffset := 0, channels := 1,
    isPlaying := true, clipLoopEnabled := true, clipLoopStart := 3, clipLoopEnd := 8,
    isMatrixClip := true, fade := .fresh, events := [] }

def stoppedTransport : TransportPosition :=
  ⟨44100, 120, 0, .stopped, false, 0, 0⟩

theorem resolvers_agree_third :
    (loopedFromThird.singleSampleFrame 0 stoppedTransport =
        loopedFromThird.clipFrameForElapsed 0 stoppedTransport ∧
      (loopedFromThird.playheadFrame (loopedFromThird.startAbsolute + 0) stoppedTransport).map
          Prod.fst = loopedFromThird.clipFrameForElapsed 0 stoppedTransport ∧
      (loopedFromThird.playheadFrame (loopedFromThird.startAbsolute + 0) stoppedTransport).map
          Prod.fst = loopedFromThird.singleSampleFrame 0 stoppedTransport) ↔
      (loopedFromThird.hasValidClipLoop = true →
        loopedFromThird.quantizedLoopLen stoppedTransport ∣ loopedFromThird.clipLoopStart ∧
          loopedFromThird.clipLoopStart ≤ 0) :=
  resolvers_agree_iff loopedFromThird stoppedTransport 0 rfl

/-- On the first frame after the trigger the callback reads frame 0, the event path frame 3. -/
theorem loop_start_separates_resolvers :
    ¬ ∀ (c : AudioClip) (t : TransportPosition) (elapsed : ℕ), c.hasValidClipLoop = true →
      c.singleSampleFrame elapsed t = c.clipFrameForElapsed elapsed t := by
  intro h
  exact absurd (h loopedFromThird stoppedTransport 0 (by decide)) (by decide +kernel)

end HikaruOpenLive.Engine.AudioClip
