import HikaruOpenLive.Engine.Preview

/-! # The frames of a preview

A preview is an interleaved buffer of whole frames, played over stereo blocks of any sizes: one frame of the
output for one of the buffer, the first channel on the left and the second, if there is one, on the right.
The player goes two samples at a time through a buffer of two channels and one at a time through any other,
so a third channel makes it play every channel as a frame of its own (`plays_iff`).
-/
set_option autoImplicit false

namespace HikaruOpenLive.Engine

open Foundations.BlockSplit

namespace PreviewBuffer

/-- A sample at the volume, clamped. -/
def atVolume (volume sample : ℚ) : ℚ :=
  max (-1) (min (sample * volume) 1)

/-- A frame of an interleaved buffer in the output. -/
def frameOf (samples : List ℚ) (channels : ℕ) (volume : ℚ) (k : ℕ) : Frame :=
  (atVolume volume (samples.getD (k * channels) 0),
    atVolume volume (samples.getD (k * channels + if channels = 1 then 0 else 1) 0))

/-- A preview of `n` frames that has been started plays each of them once, in order, however the output is
cut into blocks, and is stopped by the block with which they all are out. -/
def Plays (p : PreviewBuffer) (samples : List ℚ) (channels generation n : ℕ) : Prop :=
  ∀ blocks : List ℕ, (∀ m ∈ blocks, 0 < m) →
    (runBlocks process (p.start samples channels generation) blocks).1 =
        (List.range blocks.sum).map
          (fun k => if k < n then frameOf samples channels p.volume k else (0, 0)) ∧
      (blocks ≠ [] → n ≤ blocks.sum →
        (runBlocks process (p.start samples channels generation) blocks).2.isPlaying = false)

theorem process_splits : Splits process (fun _ => True) fun p q => p.settled = q.settled where
  refl _ := rfl
  trans _ _ _ h h' := h.trans h'
  keep _ _ _ := trivial
  split p m n _ _ hn := by
    obtain ⟨hout, hstate⟩ := p.process_split m hn
    refine ⟨?_, hstate⟩
    rw [← hout]
    show (p.process m).1 ++ (((p.process m).2.process n).1 ++ []) = _
    rw [List.append_nil]

/-- Cutting into blocks makes no difference to the output, nor to when the preview stops. -/
theorem runBlocks_process (p : PreviewBuffer) {blocks : List ℕ} (hne : blocks ≠ [])
    (hpos : ∀ m ∈ blocks, 0 < m) :
    (runBlocks process p blocks).1 = (p.process blocks.sum).1 ∧
      (runBlocks process p blocks).2.isPlaying = (p.process blocks.sum).2.isPlaying := by
  obtain ⟨hout, hstate⟩ := runBlocks_eq_single process_splits (s := p) trivial hne hpos
  refine ⟨hout, ?_⟩
  show (runBlocks process p blocks).2.settled.isPlaying = (p.process blocks.sum).2.settled.isPlaying
  rw [hstate]

/-- A started preview whose steps go through `n` places of the cursor. -/
theorem process_of_steps {p : PreviewBuffer} {g : ℕ → ℕ} {a : ℕ → Frame} {n : ℕ}
    (hplaying : p.isPlaying = true) (hstart : p.cursor = g 0) (hlast : p.activeLen ≤ g n)
    (hbefore : ∀ k < n, g k < p.activeLen) (h : ∀ k < n, p.step (g k) = some (a k, g (k + 1))) (m : ℕ) :
    (p.process m).1 = (List.range m).map (fun k => if k < n then a k else (0, 0)) ∧
      (p.process m).2.isPlaying = decide (m < n) := by
  have hemit := emit_indexed p.step (0, 0) h (step_past hlast) m (Nat.zero_le n)
  rw [← hstart, ← List.range_eq_range', Nat.zero_add] at hemit
  unfold process
  rw [if_neg (by rw [hplaying]; exact Bool.false_ne_true), hemit]
  refine ⟨rfl, ?_⟩
  show (!decide (n < m) && decide (_ < p.activeLen)) = decide (m < n)
  by_cases hm : n < m
  · rw [decide_eq_true hm, decide_eq_false (show ¬ m < n by omega)]
    rfl
  · rw [decide_eq_false hm, if_neg Bool.false_ne_true, Nat.min_eq_left (Nat.not_lt.mp hm), Bool.not_false,
      Bool.true_and, decide_eq_decide]
    rcases Nat.lt_or_eq_of_le (Nat.not_lt.mp hm) with hlt | rfl
    · exact iff_of_true (hbefore m hlt) hlt
    · exact iff_of_false (Nat.not_lt.mpr hlast) (Nat.lt_irrefl m)

section Started

variable {p : PreviewBuffer} {samples : List ℚ} {channels generation : ℕ}

theorem activeLen_start : (p.start samples channels generation).activeLen = samples.length :=
  Nat.min_self _

theorem channels_start (hchannels : 1 ≤ channels) :
    (p.start samples channels generation).channels = channels :=
  max_eq_left hchannels

theorem step_of_stereo {pos : ℕ} (hpos : pos + 1 < samples.length) :
    (p.start samples 2 generation).step pos =
      some ((atVolume p.volume (samples.getD pos 0), atVolume p.volume (samples.getD (pos + 1) 0)), pos + 2) := by
  unfold step
  rw [if_pos (channels_start (by omega)), activeLen_start, if_pos hpos]
  rfl

theorem step_of_other (hchannels : 1 ≤ channels) (hne : channels ≠ 2) {pos : ℕ} (hpos : pos < samples.length) :
    (p.start samples channels generation).step pos =
      some ((atVolume p.volume (samples.getD pos 0), atVolume p.volume (samples.getD pos 0)), pos + 1) := by
  unfold step
  rw [if_neg (by rw [channels_start hchannels]; exact hne), activeLen_start, if_pos hpos]
  rfl

/-- One block of a buffer of one channel or of two, or of no frame. -/
theorem process_start {n : ℕ} (hlen : samples.length = n * channels) (hchannels : 1 ≤ channels)
    (h : channels ≤ 2 ∨ n = 0) (m : ℕ) :
    ((p.start samples channels generation).process m).1 =
        (List.range m).map (fun k => if k < n then frameOf samples channels p.volume k else (0, 0)) ∧
      ((p.start samples channels generation).process m).2.isPlaying = decide (m < n) := by
  refine process_of_steps (g := fun k => k * channels) rfl (Nat.zero_mul channels).symm ?_ ?_ ?_ m
  · rw [activeLen_start, hlen]
  · intro k hk
    rw [activeLen_start, hlen]
    exact Nat.mul_lt_mul_of_pos_right hk hchannels
  · intro k hk
    have htwo : channels ≤ 2 := h.resolve_right (by omega)
    rcases (by omega : channels = 1 ∨ channels = 2) with rfl | rfl
    · rw [step_of_other le_rfl (by decide) (by omega)]
      simp only [frameOf, Nat.mul_one, if_true, Nat.add_zero]
    · rw [step_of_stereo (by omega), Nat.add_mul]
      rfl

/-- Through any other number of channels the player goes a sample at a time. -/
theorem process_start_other (hchannels : 1 ≤ channels) (hne : channels ≠ 2) (m : ℕ) :
    ((p.start samples channels generation).process m).2.isPlaying = decide (m < samples.length) := by
  refine (process_of_steps (g := fun k => k) (n := samples.length) rfl rfl activeLen_start.le
    (fun k hk => ?_) (fun k hk => step_of_other hchannels hne hk) m).2
  rw [activeLen_start]
  exact hk

theorem plays_of_stereo {n : ℕ} (hlen : samples.length = n * channels) (hchannels : 1 ≤ channels)
    (h : channels ≤ 2 ∨ n = 0) : p.Plays samples channels generation n := by
  intro blocks hpos
  by_cases hne : blocks = []
  · subst hne
    exact ⟨rfl, fun h => absurd rfl h⟩
  · obtain ⟨hout, hplaying⟩ := runBlocks_process (p.start samples channels generation) hne hpos
    rw [hout, hplaying, (process_start hlen hchannels h blocks.sum).1,
      (process_start hlen hchannels h blocks.sum).2]
    exact ⟨rfl, fun _ hn => decide_eq_false (Nat.not_lt.mpr hn)⟩

theorem stereo_of_plays {n : ℕ} (hlen : samples.length = n * channels) (hchannels : 1 ≤ channels)
    (h : p.Plays samples channels generation n) : channels ≤ 2 ∨ n = 0 := by
  by_contra hnot
  obtain ⟨hmany, hn⟩ := not_or.mp hnot
  obtain ⟨_, hstopped⟩ := h [n] (by simp; omega)
  have hidle := hstopped (List.cons_ne_nil _ _) (by simp)
  have hlonger : n < samples.length := by
    rw [hlen]
    nlinarith [Nat.pos_of_ne_zero hn]
  have hplaying : ((p.start samples channels generation).process n).2.isPlaying = true := by
    rw [process_start_other hchannels (by omega) n, decide_eq_true hlonger]
  exact absurd (hidle.symm.trans hplaying) Bool.false_ne_true

end Started

/-- A preview plays its frames precisely when it has one channel or two, or no frame at all. -/
theorem plays_iff {p : PreviewBuffer} {samples : List ℚ} {channels generation n : ℕ}
    (hlen : samples.length = n * channels) (hchannels : 1 ≤ channels) :
    p.Plays samples channels generation n ↔ channels ≤ 2 ∨ n = 0 :=
  ⟨stereo_of_plays hlen hchannels, plays_of_stereo hlen hchannels⟩

theorem plays_iff_stereo : new.Plays [1, -1, 1 / 2, -1 / 2] 2 1 2 ↔ 2 ≤ 2 ∨ 2 = 0 :=
  plays_iff rfl (by decide)

/-- Of three channels the first frame is still going on when it should be over. -/
theorem three_channels_not_played :
    ¬ ∀ (p : PreviewBuffer) (samples : List ℚ) (channels generation n : ℕ), samples.length = n * channels →
      1 ≤ channels → p.Plays samples channels generation n := by
  intro h
  obtain ⟨_, hstopped⟩ := h new [1, 0, 0] 3 1 1 rfl (by decide) [1] (by decide)
  exact absurd (hstopped (by decide) (by decide)) (by decide +kernel)

end PreviewBuffer

end HikaruOpenLive.Engine
