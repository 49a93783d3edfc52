import HikaruOpenLive.Engine.ClipRender
import HikaruOpenLive.Engine.LoopFrames

/-! # Cutting the block of a clip in two

A clip's block of `m + n` frames is its block of `m` followed by its block of `n` from where the first
left the clocks. In OpenStudio the wrapped position carries this. In OpenLive the elapsed time and the
crossfade do; a one-shot that ends at the cut is ended by the gate at the start of the second block
instead of by the loop, and `renderLive_eq` shows that the gate adds nothing to the loop.
-/
set_option autoImplicit false

namespace HikaruOpenLive.Engine.AudioClip

open Transport Foundations.BlockSplit

theorem silence_add (m n : ℕ) : silence (m + n) = silence m ++ silence n :=
  List.replicate_add ..

/-! ## OpenStudio -/

theorem studioFrame_congr (c : AudioClip) (t : TransportPosition) (gl gr : ℚ) {p q : ℕ}
    (h : t.wrapSampleCount p = t.wrapSampleCount q) :
    c.studioFrame t gl gr p = c.studioFrame t gl gr q := by
  unfold studioFrame
  rw [h]

/-- The studio loop depends on where its start lies in the loop region, not on how often the clock
has been around it. -/
theorem emit_studio_congr (c : AudioClip) (t : TransportPosition) (gl gr : ℚ) (n : ℕ) {p q : ℕ}
    (h : t.wrapSampleCount p = t.wrapSampleCount q) :
    (emit (c.studioStep t gl gr) (0, 0) n p).1 = (emit (c.studioStep t gl gr) (0, 0) n q).1 := by
  have hsim := emit_sim (c.studioStep t gl gr) (0, 0) (c.studioStep t gl gr) (0, 0)
    (r := fun p q => t.wrapSampleCount p = t.wrapSampleCount q) (ρ := Eq) rfl ?_ n h
  · rw [← List.forall₂_eq_eq_eq]
    exact hsim.1
  · intro p q hpq
    refine Or.inr ⟨_, p + 1, _, q + 1, rfl, rfl, c.studioFrame_congr t gl gr hpq, ?_⟩
    rw [← t.wrap_add p 1, ← t.wrap_add q 1, hpq]

theorem emit_studio_state (c : AudioClip) (t : TransportPosition) (gl gr : ℚ) (n p : ℕ) :
    (emit (c.studioStep t gl gr) (0, 0) n p).2 = (p + n, false) := by
  induction n generalizing p with
  | zero => rfl
  | succ n ih =>
    have hs : c.studioStep t gl gr p = some (c.studioFrame t gl gr p, p + 1) := rfl
    rw [emit_succ _ _ hs, ih]
    congr 1
    omega

theorem studio_split (c : AudioClip) (t : TransportPosition) (gl gr : ℚ) (m : ℕ) {n : ℕ}
    (hn : 0 < n) :
    (emit (c.studioStep t gl gr) (0, 0) (m + n) t.sampleCount).1 =
      (emit (c.studioStep t gl gr) (0, 0) m t.sampleCount).1 ++
        (emit (c.studioStep (t.afterBlock m) gl gr) (0, 0) n (t.afterBlock m).sampleCount).1 := by
  have hwrap : t.wrapSampleCount (t.sampleCount + m) =
      t.wrapSampleCount (t.afterBlock m).sampleCount :=
    (t.wrap_add (t.sampleCount + m) 0).symm
  rw [emit_add _ _ m hn, emit_studio_state]
  simp only
  rw [c.emit_studio_congr t gl gr n hwrap]
  rfl

/-! ## OpenLive -/

theorem liveStep_ended {c : AudioClip} (t : TransportPosition) (gl gr : ℚ) {s : ℕ × LoopFade}
    (h : ¬ c.hasValidClipLoop = true) (he : c.emissionLenFrames ≤ s.1) :
    c.liveStep t gl gr s = none := by
  unfold liveStep
  split
  · simp [eventStep, clipFrameForElapsed_oneShot h, he]
  · simp [singleStep, singleSampleFrame_oneShot h, he]

theorem liveStep_count (c : AudioClip) (t : TransportPosition) (gl gr : ℚ) (s : ℕ × LoopFade)
    (a : Frame) (s' : ℕ × LoopFade) (h : c.liveStep t gl gr s = some (a, s')) :
    s'.1 = s.1 + 1 := by
  unfold liveStep at h
  split at h
  · obtain ⟨f, _, hf⟩ := Option.map_eq_some_iff.mp h
    exact (congrArg (fun p => p.2.1) hf).symm
  · obtain ⟨f, _, hf⟩ := Option.map_eq_some_iff.mp h
    exact (congrArg (fun p => p.2.1) hf).symm

theorem renderLive_idle {c : AudioClip} (h : c.isPlaying = false) (t : TransportPosition) (abs : ℕ)
    (gl gr : ℚ) (n : ℕ) : c.renderLive t abs gl gr n = (silence n, c) := by
  simp [renderLive, h]

/-- The block of a started clip is its loop: the gate before the loop stops a clip only where the
loop's first step would. -/
theorem renderLive_eq {c : AudioClip} (hplay : c.isPlaying = true) {abs : ℕ}
    (hstart : c.startAbsolute ≤ abs) (t : TransportPosition) (gl gr : ℚ) {n : ℕ} (hn : 0 < n) :
    c.renderLive t abs gl gr n =
      ((emit (c.liveStep t gl gr) (0, 0) n (abs - c.startAbsolute, c.fade)).1,
        { c with fade :=
            (emit (c.liveStep t gl gr) (0, 0) n (abs - c.startAbsolute, c.fade)).2.1.2 }.finishIf
          (emit (c.liveStep t gl gr) (0, 0) n (abs - c.startAbsolute, c.fade)).2.2) := by
  unfold renderLive
  simp only [hplay, Bool.not_true, Bool.false_eq_true, if_false]
  rw [if_neg (show ¬ abs < c.startAbsolute by omega)]
  by_cases hgate : ¬ c.hasValidClipLoop = true ∧ c.emissionLenFrames ≤ abs - c.startAbsolute
  · have hend := liveStep_ended t gl gr (s := (abs - c.startAbsolute, c.fade)) hgate.1 hgate.2
    rw [if_pos hgate, emit_of_break _ _ hend]
    simp [finishIf, silence, hn]
  · have hnat : c.naturalFrames ≠ 0 := by
      intro h0
      have hle := c.emissionLenFrames_le
      refine hgate ⟨?_, by omega⟩
      intro hl
      have := ((hasValidClipLoop_iff c).mp hl).2.2
      omega
    rw [if_neg hgate, if_neg hnat]

theorem renderLive_split (c : AudioClip) (t : TransportPosition) {abs : ℕ}
    (hstart : c.isPlaying = true → c.startAbsolute ≤ abs) (gl gr : ℚ) {m n : ℕ} (hm : 0 < m)
    (hn : 0 < n) :
    c.renderLive t abs gl gr (m + n) =
      ((c.renderLive t abs gl gr m).1 ++
          ((c.renderLive t abs gl gr m).2.renderLive (t.afterBlock m) (abs + m) gl gr n).1,
        ((c.renderLive t abs gl gr m).2.renderLive (t.afterBlock m) (abs + m) gl gr n).2) := by
  by_cases hplay : c.isPlaying = true
  · have hs := hstart hplay
    rw [renderLive_eq hplay hs t gl gr (show 0 < m + n by omega), renderLive_eq hplay hs t gl gr hm,
      emit_add _ _ m hn]
    set first := emit (c.liveStep t gl gr) (0, 0) m (abs - c.startAbsolute, c.fade) with hfirst
    cases hb : first.2.2 with
    | true =>
      -- The one-shot ended in the first block: the second one finds the clip stopped.
      have hbroke := emit_broke _ _ hb
      simp only [finishIf, if_true]
      rw [renderLive_idle (c := { c with fade := first.2.1.2, isPlaying := false }) rfl]
      rw [← hfirst] at hbroke
      rw [emit_of_break _ _ hbroke]
      simp [silence, hn]
    | false =>
      have hcount : first.2.1.1 = abs - c.startAbsolute + m :=
        emit_count _ _ (c.liveStep_count t gl gr) hb
      have hstate : first.2.1 = (abs + m - c.startAbsolute, first.2.1.2) := by
        apply Prod.ext
        · simp only
          omega
        · rfl
      simp only [finishIf, Bool.false_eq_true, if_false]
      have hlater : ({ c with fade := first.2.1.2 } : AudioClip).startAbsolute ≤ abs + m :=
        Nat.le_add_right_of_le hs
      rw [renderLive_eq (c := { c with fade := first.2.1.2 }) hplay hlater _ gl gr hn]
      rw [hstate]
      rfl
  · have hidle : c.isPlaying = false := by simpa using hplay
    rw [renderLive_idle hidle, renderLive_idle hidle, renderLive_idle hidle, silence_add]

/-! ## Both modes -/

theorem render_fields (c : AudioClip) (mode : EngineMode) (t : TransportPosition) (abs : ℕ)
    (gl gr : ℚ) (n : ℕ) :
    ∃ fade playing, (c.render mode t abs gl gr n).2 = { c with fade := fade, isPlaying := playing } ∧
      (playing = true → c.isPlaying = true) := by
  have hself : ∃ fade playing, c = { c with fade := fade, isPlaying := playing } ∧
      (playing = true → c.isPlaying = true) := ⟨c.fade, c.isPlaying, rfl, fun h => h⟩
  unfold render
  split
  · exact hself
  · cases mode with
    | openStudio => exact hself
    | openLive =>
      simp only [renderLive]
      split_ifs with h1 h2 h3 h4
      · exact hself
      · exact hself
      · exact ⟨c.fade, false, rfl, fun h => absurd h (by simp)⟩
      · exact hself
      · unfold finishIf
        split
        · exact ⟨_, false, rfl, fun h => absurd h (by simp)⟩
        · exact ⟨_, c.isPlaying, rfl, fun h => h⟩

theorem render_length (c : AudioClip) (mode : EngineMode) (t : TransportPosition) (abs : ℕ)
    (gl gr : ℚ) (n : ℕ) : (c.render mode t abs gl gr n).1.length = n := by
  unfold render
  split
  · exact List.length_replicate
  · cases mode with
    | openStudio => exact emit_length _ _ n _
    | openLive =>
      simp only [renderLive]
      split_ifs
      · exact List.length_replicate
      · exact List.length_replicate
      · exact List.length_replicate
      · exact List.length_replicate
      · exact emit_length _ _ n _

theorem render_split (c : AudioClip) (mode : EngineMode) (t : TransportPosition) {abs : ℕ}
    (hstart : c.isPlaying = true → c.startAbsolute ≤ abs) (gl gr : ℚ) {m n : ℕ} (hm : 0 < m)
    (hn : 0 < n) :
    c.render mode t abs gl gr (m + n) =
      ((c.render mode t abs gl gr m).1 ++
          ((c.render mode t abs gl gr m).2.render mode (t.afterBlock m) (abs + m) gl gr n).1,
        ((c.render mode t abs gl gr m).2.render mode (t.afterBlock m) (abs + m) gl gr n).2) := by
  unfold render
  by_cases hg : gl = 0 ∧ gr = 0
  · simp only [if_pos hg, silence_add]
  · simp only [if_neg hg]
    cases mode with
    | openStudio => exact Prod.ext (c.studio_split t gl gr m hn) rfl
    | openLive => exact renderLive_split c t hstart gl gr hm hn

end HikaruOpenLive.Engine.AudioClip
