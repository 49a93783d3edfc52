import HikaruOpenLive.Foundations.Saturating
import HikaruOpenLive.Gui.PlaylistState

/-! # Trimming a clip

The ticks of a trim are words of 64 bits whose sums saturate; where none of them does, the trim is
`trimApply`. The right edge is always trimmed as it should be. The left edge is clamped from below by
the offset of the clip in its file, which is no place on the timeline: the clip starts earlier without
an earlier offset, and an offset behind the last place of the edge leaves `clamp` no interval.
-/
set_option autoImplicit false

namespace HikaruOpenLive.Gui

open Foundations.Saturating

/-! ## The trim of words -/

/-- `trim_apply` on `u64`. -/
def trimApplyWord (d : TrimDrag) (edgeTick minTicks : ℕ) : Option (ℕ × ℕ × ℕ) :=
  match d.edge with
  | .right =>
    let audioLeft := d.origTotal - d.origOffset
    let audioEnd := max (addUp 64 d.origStart audioLeft) (addUp 64 d.origStart minTicks)
    let newEnd := min (max edgeTick (addUp 64 d.origStart minTicks)) audioEnd
    some (d.origStart, max (newEnd - d.origStart) minTicks, d.origOffset)
  | .left =>
    let maxTick := addUp 64 d.origStart d.origDuration - minTicks
    -- `clamp` panics when its bounds are the wrong way round.
    if maxTick < d.origOffset then none
    else
      let newStart := min (max edgeTick d.origOffset) maxTick
      some (newStart, max (addUp 64 d.origStart d.origDuration - newStart) minTicks,
        addUp 64 d.origOffset (newStart - d.origStart))

/-- A clip with at least the shortest duration, inside its file, on ticks of 64 bits. -/
structure TrimDrag.Proper (d : TrimDrag) (minTicks : ℕ) : Prop where
  start_lt : d.origStart < 2 ^ 64
  total_lt : d.origTotal < 2 ^ 64
  long : minTicks ≤ d.origDuration
  inside : d.origOffset + d.origDuration ≤ d.origTotal

variable {d : TrimDrag} {minTicks : ℕ}

/-- Where nothing saturates the words are numbers. -/
theorem trimApplyWord_eq (h : d.Proper minTicks)
    (hfits : d.origStart + (d.origTotal - d.origOffset) < 2 ^ 64) (edgeTick : ℕ) :
    trimApplyWord d edgeTick minTicks = trimApply d edgeTick minTicks := by
  obtain ⟨_, _, hlong, hinside⟩ := h
  have hdur : d.origStart + d.origDuration < 2 ^ 64 := by omega
  have hmin : d.origStart + minTicks < 2 ^ 64 := by omega
  unfold trimApplyWord trimApply
  cases d.edge with
  | right =>
    simp only [addUp_of_lt hfits, addUp_of_lt hmin]
  | left =>
    simp only [addUp_of_lt hdur]
    by_cases hclamp : d.origStart + d.origDuration - minTicks < d.origOffset
    · rw [if_pos hclamp, if_pos hclamp]
    · have hoffset : d.origOffset + (min (max edgeTick d.origOffset)
          (d.origStart + d.origDuration - minTicks) - d.origStart) < 2 ^ 64 := by
        omega
      rw [if_neg hclamp, if_neg hclamp, addUp_of_lt hoffset]

/-! ## What a trim should do -/

/-- Start, duration and offset after a trim: the other edge is where it was, the file lies on the
timeline where it lay, and the clip is long enough and inside its file. -/
structure TrimDrag.Trimmed (d : TrimDrag) (minTicks : ℕ) (r : ℕ × ℕ × ℕ) : Prop where
  opposite : match d.edge with
    | .right => r.1 = d.origStart
    | .left => r.1 + r.2.1 = d.origStart + d.origDuration
  aligned : match d.edge with
    | .right => r.1 = d.origStart ∧ r.2.2 = d.origOffset
    | .left => (r.1 : ℤ) - r.2.2 = d.origStart - d.origOffset
  long : minTicks ≤ r.2.1
  inside : r.2.2 + r.2.1 ≤ d.origTotal

theorem trimmed_right (h : d.Proper minTicks) (hedge : d.edge = .right) (edgeTick : ℕ) :
    ∃ r, trimApplyWord d edgeTick minTicks = some r ∧ d.Trimmed minTicks r := by
  obtain ⟨hstart, _, hlong, hinside⟩ := h
  unfold trimApplyWord
  rw [hedge]
  refine ⟨_, rfl, ?_, ?_, le_max_right _ _, ?_⟩
  · rw [hedge]
  · rw [hedge]
    exact ⟨rfl, rfl⟩
  · -- The end is at most where the file ends, and so is the shortest duration.
    have hend : addUp 64 d.origStart minTicks ≤ addUp 64 d.origStart (d.origTotal - d.origOffset) :=
      addUp_mono (by omega)
    have hsum := addUp_le 64 d.origStart (d.origTotal - d.origOffset)
    simp only
    omega

/-- The left edge where `start + duration` fits: the end stays, and the offset moves with the start
unless the start moved to the left. -/
theorem trimmed_left_iff (h : d.Proper minTicks) (hedge : d.edge = .left)
    (hfits : d.origStart + d.origDuration < 2 ^ 64) (edgeTick : ℕ) :
    (∃ r, trimApplyWord d edgeTick minTicks = some r ∧ d.Trimmed minTicks r) ↔
      d.origOffset + minTicks ≤ d.origStart + d.origDuration ∧
        (d.origStart ≤ edgeTick ∨ d.origStart ≤ d.origOffset) := by
  obtain ⟨hstart, htotal, hlong, hinside⟩ := h
  unfold trimApplyWord
  simp only [hedge, addUp_of_lt hfits]
  set newStart := min (max edgeTick d.origOffset) (d.origStart + d.origDuration - minTicks)
    with hnew
  by_cases hclamp : d.origStart + d.origDuration - minTicks < d.origOffset
  · rw [if_pos hclamp]
    constructor
    · rintro ⟨r, hr, _⟩
      exact absurd hr (by simp)
    · rintro ⟨hroom, _⟩
      omega
  · rw [if_neg hclamp]
    have hoffset : addUp 64 d.origOffset (newStart - d.origStart) =
        d.origOffset + (newStart - d.origStart) := addUp_of_lt (by omega)
    rw [hoffset]
    constructor
    · rintro ⟨r, hr, htrimmed⟩
      obtain rfl := Option.some.inj hr
      have haligned := htrimmed.aligned
      rw [hedge] at haligned
      simp only at haligned
      omega
    · rintro ⟨hroom, hside⟩
      refine ⟨_, rfl, ?_, ?_, ?_, ?_⟩
      · rw [hedge]
        simp only
        omega
      · rw [hedge]
        simp only
        omega
      · exact le_max_right _ _
      · simp only
        omega

/-- A sum of start and duration that saturates is not the end of any clip. -/
theorem not_trimmed_left (h : d.Proper minTicks) (hedge : d.edge = .left)
    (hover : 2 ^ 64 ≤ d.origStart + d.origDuration) (edgeTick : ℕ) :
    ¬ ∃ r, trimApplyWord d edgeTick minTicks = some r ∧ d.Trimmed minTicks r := by
  obtain ⟨hstart, htotal, hlong, hinside⟩ := h
  unfold trimApplyWord
  simp only [hedge, addUp_of_le hover]
  rintro ⟨r, hr, htrimmed⟩
  split at hr
  · exact absurd hr (by simp)
  · obtain rfl := Option.some.inj hr
    have hend := htrimmed.opposite
    rw [hedge] at hend
    simp only at hend
    omega

/-- When a trim does what it should. -/
theorem trimmed_iff (h : d.Proper minTicks) (edgeTick : ℕ) :
    (∃ r, trimApplyWord d edgeTick minTicks = some r ∧ d.Trimmed minTicks r) ↔
      (d.edge = .left → d.origStart + d.origDuration < 2 ^ 64 ∧
        d.origOffset + minTicks ≤ d.origStart + d.origDuration ∧
          (d.origStart ≤ edgeTick ∨ d.origStart ≤ d.origOffset)) := by
  cases hedge : d.edge with
  | right =>
    exact ⟨fun _ hleft => TrimEdge.noConfusion hleft, fun _ => trimmed_right h hedge edgeTick⟩
  | left =>
    by_cases hfits : d.origStart + d.origDuration < 2 ^ 64
    · rw [trimmed_left_iff h hedge hfits]
      exact ⟨fun hroom _ => ⟨hfits, hroom⟩, fun hroom => (hroom rfl).2⟩
    · exact ⟨fun htrimmed => absurd htrimmed (not_trimmed_left h hedge (by omega) edgeTick),
        fun hroom => absurd (hroom rfl).1 hfits⟩

theorem trimmed_iff_halfway :
    (∃ r, trimApplyWord ⟨1, .left, 1920, 3840, 960, 9600, false⟩ 2880 240 = some r ∧
        TrimDrag.Trimmed ⟨1, .left, 1920, 3840, 960, 9600, false⟩ 240 r) ↔
      (TrimEdge.left = .left → 1920 + 3840 < 2 ^ 64 ∧ 960 + 240 ≤ 1920 + 3840 ∧
        (1920 ≤ 2880 ∨ 1920 ≤ 960)) :=
  trimmed_iff (d := ⟨1, .left, 1920, 3840, 960, 9600, false⟩)
    ⟨by decide, by decide, by decide, by decide⟩ 2880

/-- A clip of the middle of a file, put at the start of the timeline: its left edge panics, and further
on the timeline it takes the start of the clip along without the offset. -/
theorem left_edge_trims_badly :
    (TrimDrag.Proper ⟨1, .left, 0, 960, 3840, 9600, false⟩ 240 ∧
        trimApplyWord ⟨1, .left, 0, 960, 3840, 9600, false⟩ 240 240 = none) ∧
      TrimDrag.Proper ⟨1, .left, 3840, 960, 960, 9600, false⟩ 240 ∧
        trimApplyWord ⟨1, .left, 3840, 960, 960, 9600, false⟩ 2880 240 = some (2880, 1920, 960) ∧
          ¬ TrimDrag.Trimmed ⟨1, .left, 3840, 960, 960, 9600, false⟩ 240 (2880, 1920, 960) := by
  refine ⟨⟨⟨by decide, by decide, by decide, by decide⟩, by decide⟩,
    ⟨by decide, by decide, by decide, by decide⟩, by decide, fun h => ?_⟩
  have haligned : ((2880 : ℕ) : ℤ) - (960 : ℕ) = (3840 : ℕ) - (960 : ℕ) := h.aligned
  omega

end HikaruOpenLive.Gui
