import Mathlib.Tactic.LinearCombination
import HikaruOpenLive.Engine.WholeLoops

/-! # A looped file replayed as events

One clip loops over its samples, the other plays the same frames from events, perhaps at another scale.
Where the loop jumps back the first crossfades each of the next 32 frames with the one read before it.
`sameRender_iff` is when the two cannot be told apart.
-/
set_option autoImplicit false

namespace HikaruOpenLive.Engine

open Transport Foundations.BlockSplit

theorem succ_mod {len : ℕ} (hlen : 0 < len) (elapsed : ℕ) :
    (elapsed + 1) % len = if elapsed % len + 1 < len then elapsed % len + 1 else 0 := by
  have hlt := Nat.mod_lt elapsed hlen
  have hstep : (elapsed + 1) % len = (elapsed % len + 1) % len := by rw [Nat.mod_add_mod]
  rw [hstep]
  by_cases hnext : elapsed % len + 1 < len
  · rw [if_pos hnext, Nat.mod_eq_of_lt hnext]
  · have heq : elapsed % len + 1 = len := by omega
    rw [if_neg hnext, heq, Nat.mod_self]

/-- Whether a loop of `len` out of `n` frames crossfades where it jumps back. -/
def Crossfades (n len : ℕ) : Prop :=
  n / 2 < len - 1 ∧ len - 1 ≠ noPrevFrame

instance (n len : ℕ) : Decidable (Crossfades n len) :=
  inferInstanceAs (Decidable (_ ∧ _))

/-- Nothing but zeros is heard of the first `len` frames. -/
def SilentLoop (samples : List ℚ) (channels len : ℕ) : Prop :=
  ∀ frame < len, frameAt samples channels frame = (0, 0)

/-- The frames of a crossfade are all like the last of the loop. -/
def FlatSeam (samples : List ℚ) (channels len : ℕ) : Prop :=
  ∀ frame < min 32 len, frameAt samples channels frame = frameAt samples channels (len - 1)

instance (samples : List ℚ) (channels len : ℕ) : Decidable (SilentLoop samples channels len) :=
  inferInstanceAs (Decidable (∀ frame < len, _))

instance (samples : List ℚ) (channels len : ℕ) : Decidable (FlatSeam samples channels len) :=
  inferInstanceAs (Decidable (∀ frame < min 32 len, _))

theorem SilentLoop.flatSeam {samples : List ℚ} {channels len : ℕ} (hlen : 0 < len)
    (h : SilentLoop samples channels len) : FlatSeam samples channels len := by
  intro frame hframe
  rw [h frame (by omega), h (len - 1) (by omega)]

namespace AudioClip

/-- A clip of `n` frames that loops over all of its one sample. -/
structure SampleLoop (n : ℕ) (c : AudioClip) : Prop extends c.WholeLoop n where
  noEvents : c.events = []
  emission : c.emissionLenFrames = n

/-- A clip of `n` frames that loops over events with the frames of another, scaled. -/
structure EventLoop (n : ℕ) (κ : ℚ) (c d : AudioClip) : Prop extends d.WholeLoop n where
  hasEvents : d.events ≠ []
  reads : ∀ frame < n, d.mixEventsAt frame =
    (κ * (frameAt c.samples c.channels frame).1, κ * (frameAt c.samples c.channels frame).2)

/-- Two clips launched at any time sound the same at any time, on a track of any gains. -/
def SameRender (t : TransportPosition) (c d : AudioClip) : Prop :=
  ∀ startFrame startAbsolute absStart gl gr m,
    ((d.start startFrame startAbsolute).renderLive t absStart gl gr m).1 =
      ((c.start startFrame startAbsolute).renderLive t absStart gl gr m).1

variable {n : ℕ} {κ : ℚ} {c d : AudioClip} {t : TransportPosition}

theorem sameRender_noFrames (hc : c.naturalFrames = 0) (hd : d.naturalFrames = 0) :
    SameRender t c d := by
  intro startFrame startAbsolute absStart gl gr m
  have hc' : (c.start startFrame startAbsolute).naturalFrames = 0 := hc
  have hd' : (d.start startFrame startAbsolute).naturalFrames = 0 := hd
  rw [renderLive_noFrames hc', renderLive_noFrames hd']

namespace SampleLoop

theorem samples_frames (h : c.SampleLoop n) : c.samples.length / max c.channels 1 = n := by
  have hframes := h.frames
  unfold naturalFrames at hframes
  rw [h.noEvents] at hframes
  exact hframes

theorem fetch (h : c.SampleLoop n) (gl gr : ℚ) {frame : ℕ} (hframe : frame < n) :
    c.fetchPanned gl gr frame = panned c.channels gl gr (frameAt c.samples c.channels frame) := by
  rw [← h.samples_frames] at hframe
  exact c.fetchPanned_frameAt gl gr hframe

theorem liveStep_eq (h : c.SampleLoop n) (gl gr : ℚ) (elapsed : ℕ) (fade : LoopFade) :
    c.liveStep t gl gr (elapsed, fade) =
      some ((c.singleFrame gl gr fade (elapsed % quantizedLen n t)).1,
        (elapsed + 1, (c.singleFrame gl gr fade (elapsed % quantizedLen n t)).2)) := by
  have hsingle : c.liveStep t gl gr = c.singleStep t gl gr := by
    unfold liveStep
    rw [h.noEvents]
    rfl
  rw [hsingle, singleStep, h.singleSampleFrame_eq t elapsed]
  rfl

/-- A jump back over more than half of the clip starts a crossfade. -/
theorem startXfade_eq (h : c.SampleLoop n) (fade : LoopFade) (frame : ℕ) :
    c.startXfade fade frame =
      if fade.prevFrame ≠ noPrevFrame ∧ frame < fade.prevFrame ∧ n / 2 < fade.prevFrame - frame then
        ⟨fade.prevFrame, 32, 32⟩
      else fade := by
  unfold startXfade
  rw [h.valid, h.emission]
  simp only [if_true, Nat.zero_lt_succ, true_and]

theorem startXfade_forward (h : c.SampleLoop n) {fade : LoopFade} {frame : ℕ}
    (hle : fade.prevFrame ≤ frame) : c.startXfade fade frame = fade := by
  rw [h.startXfade_eq, if_neg]
  intro hjump
  omega

/-- The crossfade of a frame with the one read before it. -/
theorem singleFrame_eq (h : c.SampleLoop n) (gl gr : ℚ) {fade started : LoopFade} {frame : ℕ}
    (hframe : frame < n) (hstarted : c.startXfade fade frame = started) :
    c.singleFrame gl gr fade frame =
      (if 0 < started.xfadeRemaining then
          let outGain : ℚ := ((started.xfadeLen - started.xfadeRemaining : ℕ) : ℚ) / started.xfadeLen
          let old := c.fetchPanned gl gr started.prevFrame
          let new := c.fetchPanned gl gr frame
          (old.1 * (1 - outGain) + new.1 * outGain, old.2 * (1 - outGain) + new.2 * outGain)
        else c.fetchPanned gl gr frame,
        ⟨frame, started.xfadeRemaining - 1, started.xfadeLen⟩) := by
  have hfits : frame * max c.channels 1 + max c.channels 1 ≤ c.samples.length := by
    rw [← h.samples_frames] at hframe
    exact fits_of_lt hframe
  unfold singleFrame
  simp only [hstarted, hfits, and_true]
  by_cases hfade : 0 < started.xfadeRemaining
  · rw [if_pos hfade, if_pos hfade]
  · have hzero : started.xfadeRemaining = 0 := by omega
    rw [if_neg hfade, if_neg hfade, hzero]

/-- Crossfading two frames that are alike does nothing. -/
theorem singleFrame_alike (h : c.SampleLoop n) (gl gr : ℚ) {fade started : LoopFade} {frame : ℕ}
    (hframe : frame < n) (hstarted : c.startXfade fade frame = started)
    (halike : 0 < started.xfadeRemaining →
      c.fetchPanned gl gr started.prevFrame = c.fetchPanned gl gr frame) :
    c.singleFrame gl gr fade frame =
      (c.fetchPanned gl gr frame, ⟨frame, started.xfadeRemaining - 1, started.xfadeLen⟩) := by
  rw [h.singleFrame_eq gl gr hframe hstarted]
  by_cases hfade : 0 < started.xfadeRemaining
  · rw [if_pos hfade, halike hfade]
    refine Prod.ext (Prod.ext ?_ ?_) rfl
    · simp only
      ring
    · simp only
      ring
  · rw [if_neg hfade]

/-- The first frame after a launch. -/
theorem singleFrame_fresh (h : c.SampleLoop n) (gl gr : ℚ) {frame : ℕ} (hframe : frame < n) :
    c.singleFrame gl gr .fresh frame =
      (panned c.channels gl gr (frameAt c.samples c.channels frame), ⟨frame, 0, 0⟩) := by
  have hfresh : c.startXfade .fresh frame = .fresh := by
    rw [h.startXfade_eq, if_neg]
    exact fun hjump => hjump.1 rfl
  rw [h.singleFrame_alike gl gr hframe hfresh fun hfading => absurd hfading (Nat.lt_irrefl 0),
    h.fetch gl gr hframe]
  rfl

end SampleLoop

/-! ## Along the loop -/

/-- Where a loop stands at its seam: which frame was read before, and that a crossfade only runs over the
first 32 frames after a jump back. -/
structure Seam (n len elapsed : ℕ) (fade : LoopFade) : Prop where
  before : fade.prevFrame = noPrevFrame ∧ fade.xfadeRemaining = 0 ∨
    fade.prevFrame = if elapsed % len = 0 then len - 1 else elapsed % len - 1
  fading : 0 < fade.xfadeRemaining →
    Crossfades n len ∧ (elapsed % len = 0 ∨ elapsed % len + fade.xfadeRemaining ≤ 32)

theorem seam_fresh (n len elapsed : ℕ) : Seam n len elapsed .fresh :=
  ⟨Or.inl ⟨rfl, rfl⟩, fun hfade => absurd hfade (Nat.lt_irrefl 0)⟩

namespace SampleLoop

/-- A crossfade that runs on reading a frame is over the frame before it. -/
theorem fading_started (h : c.SampleLoop n) {len elapsed : ℕ} {fade : LoopFade}
    (hseam : Seam n len elapsed fade)
    (hfading : 0 < (c.startXfade fade (elapsed % len)).xfadeRemaining) :
    Crossfades n len ∧
      elapsed % len + (c.startXfade fade (elapsed % len)).xfadeRemaining ≤ 32 ∧
      (c.startXfade fade (elapsed % len)).prevFrame =
        if elapsed % len = 0 then len - 1 else elapsed % len - 1 := by
  rw [h.startXfade_eq] at hfading ⊢
  by_cases hjump : fade.prevFrame ≠ noPrevFrame ∧ elapsed % len < fade.prevFrame ∧
      n / 2 < fade.prevFrame - elapsed % len
  · obtain ⟨hsome, hback, hfar⟩ := hjump
    have hbefore : fade.prevFrame = if elapsed % len = 0 then len - 1 else elapsed % len - 1 := by
      obtain ⟨hnone, _⟩ | hbefore := hseam.before
      · exact absurd hnone hsome
      · exact hbefore
    rw [if_pos ⟨hsome, hback, hfar⟩]
    -- only the last frame of the loop is read before a smaller one
    have hzero : elapsed % len = 0 := by
      by_contra hne
      rw [if_neg hne] at hbefore
      omega
    rw [if_pos hzero] at hbefore ⊢
    rw [hbefore] at hsome hfar ⊢
    rw [hzero] at hfar ⊢
    exact ⟨⟨hfar, hsome⟩, le_rfl, rfl⟩
  · rw [if_neg hjump] at hfading ⊢
    obtain ⟨hcross, hwhere⟩ := hseam.fading hfading
    have hbefore : fade.prevFrame = if elapsed % len = 0 then len - 1 else elapsed % len - 1 := by
      obtain ⟨_, hnone⟩ | hbefore := hseam.before
      · omega
      · exact hbefore
    by_cases hzero : elapsed % len = 0
    · -- at the jump itself the crossfade starts anew
      rw [if_pos hzero] at hbefore
      have hlast := hcross.1
      refine absurd ⟨?_, ?_, ?_⟩ hjump
      · rw [hbefore]
        exact hcross.2
      · rw [hbefore, hzero]
        omega
      · rw [hbefore, hzero]
        exact hlast
    · exact ⟨hcross, hwhere.resolve_left hzero, hbefore⟩

theorem seam_step (h : c.SampleLoop n) (gl gr : ℚ)
    (hflat : Crossfades n (quantizedLen n t) → FlatSeam c.samples c.channels (quantizedLen n t))
    {elapsed : ℕ} {fade : LoopFade} (hseam : Seam n (quantizedLen n t) elapsed fade) :
    ∃ next, c.singleFrame gl gr fade (elapsed % quantizedLen n t) =
        (panned c.channels gl gr (frameAt c.samples c.channels (elapsed % quantizedLen n t)), next) ∧
      Seam n (quantizedLen n t) (elapsed + 1) next := by
  have hpos := h.loopLen_pos t
  have hin := h.mod_lt t elapsed
  have hlt := Nat.mod_lt elapsed hpos
  have hle := quantizedLen_le n t
  have hnext := succ_mod hpos elapsed
  let started := c.startXfade fade (elapsed % quantizedLen n t)
  have hstarted : 0 < started.xfadeRemaining → Crossfades n (quantizedLen n t) ∧
      elapsed % quantizedLen n t + started.xfadeRemaining ≤ 32 ∧ started.prevFrame =
        if elapsed % quantizedLen n t = 0 then quantizedLen n t - 1
        else elapsed % quantizedLen n t - 1 :=
    h.fading_started hseam
  have halike : 0 < started.xfadeRemaining → c.fetchPanned gl gr started.prevFrame =
      c.fetchPanned gl gr (elapsed % quantizedLen n t) := by
    intro hfading
    obtain ⟨hcross, hwhere, hbefore⟩ := hstarted hfading
    have hflat := hflat hcross
    have hprev : frameAt c.samples c.channels started.prevFrame =
        frameAt c.samples c.channels (quantizedLen n t - 1) := by
      rw [hbefore]
      split
      · rfl
      · exact hflat _ (by omega)
    have hprevIn : started.prevFrame < n := by
      rw [hbefore]
      split <;> omega
    rw [h.fetch gl gr hprevIn, h.fetch gl gr hin, hprev,
      hflat (elapsed % quantizedLen n t) (by omega)]
  refine ⟨⟨elapsed % quantizedLen n t, started.xfadeRemaining - 1, started.xfadeLen⟩, ?_,
    ⟨Or.inr ?_, ?_⟩⟩
  · rw [h.singleFrame_alike gl gr hin rfl halike, h.fetch gl gr hin]
  · show elapsed % quantizedLen n t = _
    rw [hnext]
    by_cases hlast : elapsed % quantizedLen n t + 1 < quantizedLen n t
    · rw [if_pos hlast, if_neg (Nat.succ_ne_zero _), Nat.add_sub_cancel]
    · rw [if_neg hlast, if_pos rfl]
      omega
  · intro hfading
    have hfading : 0 < started.xfadeRemaining - 1 := hfading
    obtain ⟨hcross, hwhere, _⟩ := hstarted (by omega)
    refine ⟨hcross, ?_⟩
    rw [hnext]
    split
    · refine Or.inr ?_
      show elapsed % quantizedLen n t + 1 + (started.xfadeRemaining - 1) ≤ 32
      omega
    · exact Or.inl rfl

end SampleLoop

/-! ## Two clips -/

theorem EventLoop.liveStep_eq (h : EventLoop n κ c d) (gl gr : ℚ) (elapsed : ℕ) (fade : LoopFade) :
    d.liveStep t gl gr (elapsed, fade) =
      some ((κ * (frameAt c.samples c.channels (elapsed % quantizedLen n t)).1 * gl,
        κ * (frameAt c.samples c.channels (elapsed % quantizedLen n t)).2 * gr), (elapsed + 1, fade)) := by
  have hevents : d.liveStep t gl gr = d.eventStep t gl gr := by
    unfold liveStep
    rw [if_pos]
    simpa using h.hasEvents
  rw [hevents, eventStep, h.clipFrameForElapsed_eq t elapsed]
  simp only [Option.map_some, h.reads _ (h.mod_lt t elapsed)]

theorem frameAt_mono (samples : List ℚ) {channels : ℕ} (h : ¬ 1 < max channels 1) (frame : ℕ) :
    (frameAt samples channels frame).2 = (frameAt samples channels frame).1 :=
  if_neg h

/-- A frame panned as one sample and scaled as an event. -/
theorem panned_eq_iff {channels : ℕ} {x : Frame} (hx : ¬ 1 < max channels 1 → x.2 = x.1) :
    (∀ gl gr, panned channels gl gr x = (κ * x.1 * gl, κ * x.2 * gr)) ↔
      x = (0, 0) ∨ 1 < max channels 1 ∧ κ = 1 := by
  obtain ⟨l, r⟩ := x
  unfold panned
  by_cases hch : 1 < max channels 1
  · simp only [if_pos hch]
    simp only [hch, true_and, Prod.mk.injEq]
    constructor
    · intro h
      obtain ⟨hl, hr⟩ := h 1 1
      by_cases hκ : κ = 1
      · exact Or.inr hκ
      · have hne : κ - 1 ≠ 0 := sub_ne_zero.mpr hκ
        refine Or.inl ⟨?_, ?_⟩
        · refine (mul_eq_zero.mp ?_).resolve_left hne
          linear_combination -hl
        · refine (mul_eq_zero.mp ?_).resolve_left hne
          linear_combination -hr
    · rintro (⟨rfl, rfl⟩ | rfl) gl gr
      · simp
      · simp
  · have hmono : r = l := hx hch
    subst hmono
    simp only [if_neg hch]
    simp only [hch, false_and, or_false, Prod.mk.injEq, and_self]
    constructor
    · intro h
      obtain ⟨_, hr⟩ := h 1 0
      linear_combination hr
    · rintro rfl gl gr
      simp

theorem sameRender_iff_emitAlike (hc : c.WholeLoop n) (hd : d.WholeLoop n) :
    SameRender t c d ↔ ∀ gl gr elapsed,
      EmitAlike (c.liveStep t gl gr) (0, 0) (d.liveStep t gl gr) (elapsed, .fresh) (elapsed, .fresh) := by
  constructor
  · intro h gl gr elapsed m
    have hsame := h 0 0 elapsed gl gr m
    rw [hc.renderLive_start, hd.renderLive_start, if_neg (Nat.not_lt_zero _),
      if_neg (Nat.not_lt_zero _)] at hsame
    exact hsame.symm
  · intro h startFrame startAbsolute absStart gl gr m
    rw [hc.renderLive_start, hd.renderLive_start, h gl gr (absStart - startAbsolute) m]

theorem alike_of_blend {old new gain : ℚ} (hgain : gain ≠ 1)
    (h : old * (1 - gain) + new * gain = new) : new = old := by
  have hne : 1 - gain ≠ 0 := sub_ne_zero.mpr hgain.symm
  have hzero : (1 - gain) * (new - old) = 0 := by linear_combination -h
  exact sub_eq_zero.mp ((mul_eq_zero.mp hzero).resolve_left hne)

/-- A jump back that crossfades is heard unless the frames it runs over are all alike. -/
theorem flatSeam_of_emitAlike (hc : c.SampleLoop n) (hd : EventLoop n 1 c d)
    (hch : 1 < max c.channels 1) (hcross : Crossfades n (quantizedLen n t))
    (h : EmitAlike (c.liveStep t 1 1) (0, 0) (d.liveStep t 1 1)
      (quantizedLen n t - 1, .fresh) (quantizedLen n t - 1, .fresh)) :
    FlatSeam c.samples c.channels (quantizedLen n t) := by
  have hpos := hc.loopLen_pos t
  have hle := quantizedLen_le n t
  -- the last frame of the loop, then the jump
  have hlast : (quantizedLen n t - 1) % quantizedLen n t = quantizedLen n t - 1 :=
    Nat.mod_eq_of_lt (Nat.sub_lt hpos Nat.one_pos)
  have hfirst := hc.liveStep_eq (t := t) 1 1 (quantizedLen n t - 1) .fresh
  rw [hlast, hc.singleFrame_fresh 1 1 (by omega)] at hfirst
  obtain ⟨_, hjump⟩ := h.next _ _ hfirst (hd.liveStep_eq 1 1 _ _)
  rw [Nat.sub_add_cancel hpos] at hjump
  have hseam : ∀ k ≤ min 32 (quantizedLen n t),
      (∀ frame < k, frameAt c.samples c.channels frame =
        frameAt c.samples c.channels (quantizedLen n t - 1)) ∧
      ∃ fade prev, c.startXfade fade k = ⟨prev, 32 - k, 32⟩ ∧ prev < n ∧
        frameAt c.samples c.channels prev = frameAt c.samples c.channels (quantizedLen n t - 1) ∧
        EmitAlike (c.liveStep t 1 1) (0, 0) (d.liveStep t 1 1)
          (quantizedLen n t + k, fade) (quantizedLen n t + k, .fresh) := by
    intro k hk
    induction k with
    | zero =>
      refine ⟨fun frame hframe => absurd hframe (Nat.not_lt_zero frame),
        ⟨quantizedLen n t - 1, 0, 0⟩, quantizedLen n t - 1, ?_, by omega, rfl, hjump⟩
      have hfar := hcross.1
      rw [hc.startXfade_eq, if_pos]
      exact ⟨hcross.2, Nat.zero_lt_of_lt hfar, hfar⟩
    | succ k ih =>
      obtain ⟨hbelow, fade, prev, hstarted, hprev, halike, hemit⟩ := ih (by omega)
      have hmod : (quantizedLen n t + k) % quantizedLen n t = k := by
        rw [Nat.add_mod_left, Nat.mod_eq_of_lt (by omega)]
      have hkn : k < n := by omega
      have hstep := hc.liveStep_eq (t := t) 1 1 (quantizedLen n t + k) fade
      have hplain := hd.liveStep_eq (t := t) 1 1 (quantizedLen n t + k) .fresh
      rw [hmod, hc.singleFrame_eq 1 1 hkn hstarted, hc.fetch 1 1 hkn, hc.fetch 1 1 hprev, halike,
        if_pos (show 0 < 32 - k by omega)] at hstep
      rw [hmod] at hplain
      obtain ⟨hout, hemit'⟩ := hemit.next _ _ hstep hplain
      have hgain : ((32 - (32 - k) : ℕ) : ℚ) / ((32 : ℕ) : ℚ) ≠ 1 := by
        have hk32 : 32 - (32 - k) = k := by omega
        have hne : (k : ℚ) ≠ ((32 : ℕ) : ℚ) := by
          rw [Ne, Nat.cast_inj]
          omega
        rw [hk32]
        exact fun heq => hne ((div_eq_one_iff_eq (by norm_num)).mp heq)
      have hframe : frameAt c.samples c.channels k =
          frameAt c.samples c.channels (quantizedLen n t - 1) := by
        simp only [panned, if_pos hch, mul_one, one_mul] at hout
        obtain ⟨hl, hr⟩ := Prod.mk.inj hout
        exact Prod.ext (alike_of_blend hgain hl) (alike_of_blend hgain hr)
      refine ⟨?_, ⟨k, 32 - k - 1, 32⟩, k, ?_, hkn, hframe, hemit'⟩
      · intro frame hlt
        obtain hlt | rfl := Nat.lt_succ_iff_lt_or_eq.mp hlt
        · exact hbelow frame hlt
        · exact hframe
      · rw [hc.startXfade_forward (Nat.le_succ k), Nat.sub_sub]
  exact (hseam _ le_rfl).1

/-- A looped file and its replay as events sound the same precisely when nothing is heard in the loop, or
they have the same scale, each side its own channel, and no crossfade is heard at the seam. -/
theorem sameRender_iff (hc : c.SampleLoop n) (hd : EventLoop n κ c d) :
    SameRender t c d ↔ SilentLoop c.samples c.channels (quantizedLen n t) ∨
      1 < max c.channels 1 ∧ κ = 1 ∧
        (Crossfades n (quantizedLen n t) → FlatSeam c.samples c.channels (quantizedLen n t)) := by
  have hpos := hc.loopLen_pos t
  rw [sameRender_iff_emitAlike hc.toWholeLoop hd.toWholeLoop]
  constructor
  · intro h
    have hframe : ∀ frame < quantizedLen n t, frameAt c.samples c.channels frame = (0, 0) ∨
        1 < max c.channels 1 ∧ κ = 1 := by
      intro frame hlt
      refine (panned_eq_iff fun hmono => frameAt_mono c.samples hmono frame).mp fun gl gr => ?_
      have hmod : frame % quantizedLen n t = frame := Nat.mod_eq_of_lt hlt
      have hin : frame < n := lt_of_lt_of_le hlt (quantizedLen_le n t)
      have hstep := hc.liveStep_eq (t := t) gl gr frame .fresh
      have hplain := hd.liveStep_eq (t := t) gl gr frame .fresh
      rw [hmod, hc.singleFrame_fresh gl gr hin] at hstep
      rw [hmod] at hplain
      exact ((h gl gr frame).next _ _ hstep hplain).1
    by_cases hscale : 1 < max c.channels 1 ∧ κ = 1
    · obtain ⟨hch, rfl⟩ := hscale
      exact Or.inr ⟨hch, rfl, fun hcross => flatSeam_of_emitAlike hc hd hch hcross (h 1 1 _)⟩
    · exact Or.inl fun frame hlt => (hframe frame hlt).resolve_right hscale
  · intro h gl gr elapsed
    have hflat : Crossfades n (quantizedLen n t) →
        FlatSeam c.samples c.channels (quantizedLen n t) := by
      obtain hsilent | ⟨_, _, hflat⟩ := h
      · exact fun _ => hsilent.flatSeam hpos
      · exact hflat
    refine emitAlike_of_sim _ _ (r := fun s s' => s.1 = s'.1 ∧ Seam n (quantizedLen n t) s.1 s.2) ?_
      ⟨rfl, seam_fresh n _ elapsed⟩
    rintro ⟨elapsed, fade⟩ ⟨_, fade'⟩ ⟨rfl, hseam⟩
    obtain ⟨next, hread, hnext⟩ := hc.seam_step gl gr hflat hseam
    have hout : panned c.channels gl gr (frameAt c.samples c.channels (elapsed % quantizedLen n t)) =
        (κ * (frameAt c.samples c.channels (elapsed % quantizedLen n t)).1 * gl,
          κ * (frameAt c.samples c.channels (elapsed % quantizedLen n t)).2 * gr) := by
      refine (panned_eq_iff fun hmono => frameAt_mono c.samples hmono _).mpr ?_ gl gr
      obtain hsilent | ⟨hch, hκ, _⟩ := h
      · exact Or.inl (hsilent _ (Nat.mod_lt _ hpos))
      · exact Or.inr ⟨hch, hκ⟩
    refine ⟨_, (elapsed + 1, next), (elapsed + 1, fade'), ?_, hd.liveStep_eq gl gr elapsed fade', rfl,
      hnext⟩
    rw [hc.liveStep_eq, hread, hout]

end AudioClip

end HikaruOpenLive.Engine
