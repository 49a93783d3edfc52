import HikaruOpenLive.Foundations.Runs
import HikaruOpenLive.Gui.ClipEditor
import Mathlib.Algebra.Order.Group.MinMax

/-! # The handles of a loop

Five of the drags of the clip editor move the bounds of the loop of a clip whose length does not change
meanwhile. A loop is right that starts before it ends, and lies inside the clip; a drag of it as a whole is
not to change its length. `HandleClear` is when a move of the pointer does so.
-/
set_option autoImplicit false

namespace HikaruOpenLive.Gui

open Foundations.Runs

/-- The events of a clip that lasts `dur`. -/
def EditorInput.TimedBy (dur : ℚ) : EditorInput → Prop
  | .press _ _ d => d = dur
  | .move _ d _ => d = dur
  | .select _ | .release | .toggleLoop | .view _ _ _ => True

namespace ClipEditorState

/-- The editor after an input. -/
def step (ce : ClipEditorState) (i : EditorInput) : ClipEditorState :=
  (ce.input i).1

structure LoopInside (dur : ℚ) (ce : ClipEditorState) : Prop where
  nonneg : 0 ≤ ce.loopStartSecs
  ordered : ce.loopStartSecs < ce.loopEndSecs
  within : ce.loopEndSecs ≤ dur

def loopLength (ce : ClipEditorState) : ℚ :=
  ce.loopEndSecs - ce.loopStartSecs

/-- A drag of the loop as a whole is going on. -/
def DragsRange (ce : ClipEditorState) : Prop :=
  ∃ startX origStart origEnd, ce.dragAction = some (.loopRange startX origStart origEnd)

/-- The loop stays inside the clip, and keeps its length under a drag of the whole. -/
def LoopKept (dur : ℚ) (ce : ClipEditorState) (i : EditorInput) : Prop :=
  (ce.step i).LoopInside dur ∧ (ce.DragsRange → (ce.step i).loopLength = ce.loopLength)

/-- The snapped time under the pointer. -/
def pointedTime (ce : ClipEditorState) (x bpm : ℚ) : ℚ :=
  snapTo (ce.snap.intervalSecs bpm) (max (ce.scrollSecs + x / ce.pxPerSec) 0)

/-- Where a handle may be moved to: the start before the end, the end of a loop not behind the clip's, the
clip's own handles to their side of the other bound, and the whole when it is a tenth of a second long. -/
def MayDrag (dur : ℚ) (ce : ClipEditorState) (t : ℚ) : DragAction → Prop
  | .loopRange _ _ _ => 1 / 10 ≤ ce.loopLength
  | .loopStart => t < ce.loopEndSecs ∨ 3 / 100 < ce.loopEndSecs
  | .loopEnd => ce.loopStartSecs + 1 / 50 ≤ dur ∧ (t ≤ dur ∨ ce.loopStartSecs + 1 / 10 ≤ dur)
  | .clipStart => t < ce.loopEndSecs
  | .clipEnd => ce.loopStartSecs < t
  | .other => True

def HandleClear (dur : ℚ) (ce : ClipEditorState) : EditorInput → Prop
  | .move x _ bpm => ∀ action ∈ ce.dragAction, MayDrag dur ce (ce.pointedTime x bpm) action
  | .select _ | .press _ _ _ | .release | .toggleLoop | .view _ _ _ => True

/-! ## One move -/

theorem roundAway_nonneg {x : ℚ} (h : 0 ≤ x) : 0 ≤ roundAway x := by
  unfold roundAway
  rw [if_pos h]
  exact Int.floor_nonneg.mpr (by linarith)

theorem snapTo_nonneg {snap t : ℚ} (h : 0 ≤ t) : 0 ≤ snapTo snap t := by
  unfold snapTo
  split
  case isTrue hsnap =>
    have hround : 0 ≤ roundAway (t / snap) := roundAway_nonneg (div_nonneg h hsnap.le)
    exact mul_nonneg (Int.cast_nonneg hround) hsnap.le
  case isFalse => exact h

theorem pointedTime_nonneg (ce : ClipEditorState) (x bpm : ℚ) : 0 ≤ ce.pointedTime x bpm :=
  snapTo_nonneg (le_max_right _ _)

theorem clampTo_mem {low high : ℚ} (h : low ≤ high) (t : ℚ) :
    low ≤ clampTo low high t ∧ clampTo low high t ≤ high :=
  ⟨le_max_left _ _, max_le h (min_le_right _ _)⟩

theorem clampTo_zero {high t : ℚ} (ht : 0 ≤ t) (hhigh : 0 ≤ high) : clampTo 0 high t = min t high :=
  max_eq_right (le_min ht hhigh)

/-- Of the drag of a whole loop: the length it has taken hold of, never under a tenth of a second. -/
def RangeHeld (ce : ClipEditorState) : Prop :=
  ∀ startX origStart origEnd, ce.dragAction = some (.loopRange startX origStart origEnd) →
    origEnd - origStart = max ce.loopLength (1 / 10)

variable {dur : ℚ} {ce : ClipEditorState}

theorem range_moved_iff (h : ce.LoopInside dur) {startX origStart origEnd : ℚ}
    (hheld : origEnd - origStart = max ce.loopLength (1 / 10)) (x bpm : ℚ) :
    ((ce.dragged (.loopRange startX origStart origEnd) x dur bpm).LoopInside dur ∧
      (ce.dragged (.loopRange startX origStart origEnd) x dur bpm).loopLength = ce.loopLength) ↔
    1 / 10 ≤ ce.loopLength := by
  set len := origEnd - origStart with hlen
  set start := clampTo 0 (max (dur - len) 0)
    (snapTo (ce.snap.intervalSecs bpm) (origStart + (x - startX) / ce.pxPerSec)) with hstart
  have hmem : 0 ≤ start ∧ start ≤ max (dur - len) 0 := clampTo_mem (le_max_right _ _) _
  have hmoved : ce.dragged (.loopRange startX origStart origEnd) x dur bpm =
      { ce with loopStartSecs := start, loopEndSecs := start + len } := rfl
  have hlength : (ce.dragged (.loopRange startX origStart origEnd) x dur bpm).loopLength = len :=
    add_sub_cancel_left start len
  rw [hlength, hmoved, hheld]
  constructor
  · rintro ⟨_, hkept⟩
    exact max_eq_left_iff.mp hkept
  · intro hlong
    have hkept : len = ce.loopLength := hheld.trans (max_eq_left hlong)
    have hfits : len ≤ dur := by
      have := h.nonneg
      have := h.within
      rw [hkept, loopLength]
      linarith
    have hroom : max (dur - len) 0 = dur - len := max_eq_left (by linarith)
    rw [hroom] at hmem
    rw [← hheld]
    refine ⟨⟨hmem.1, ?_, ?_⟩, hkept⟩
    · show start < start + len
      linarith
    · show start + len ≤ dur
      linarith [hmem.2]

theorem start_moved_iff (h : ce.LoopInside dur) (x bpm : ℚ) :
    (ce.dragged .loopStart x dur bpm).LoopInside dur ↔
      ce.pointedTime x bpm < ce.loopEndSecs ∨ 3 / 100 < ce.loopEndSecs := by
  have hmoved : ce.dragged .loopStart x dur bpm =
      { ce with loopStartSecs := min (ce.pointedTime x bpm) (max ce.loopEndSecs (1 / 20) - 1 / 50) } := by
    rw [← clampTo_zero (ce.pointedTime_nonneg x bpm)]
    · rfl
    · linarith [le_max_right ce.loopEndSecs (1 / 20)]
  have hbound : max ce.loopEndSecs (1 / 20) - 1 / 50 < ce.loopEndSecs ↔ 3 / 100 < ce.loopEndSecs := by
    rcases le_total ce.loopEndSecs (1 / 20) with hshort | hlong
    · rw [max_eq_right hshort]
      constructor <;> intro <;> linarith
    · rw [max_eq_left hlong]
      constructor <;> intro <;> linarith
  have hnonneg : 0 ≤ min (ce.pointedTime x bpm) (max ce.loopEndSecs (1 / 20) - 1 / 50) :=
    le_min (ce.pointedTime_nonneg x bpm) (by linarith [le_max_right ce.loopEndSecs (1 / 20)])
  rw [hmoved, ← hbound, ← min_lt_iff]
  exact ⟨fun hin => hin.ordered, fun hlt => ⟨hnonneg, hlt, h.within⟩⟩

theorem end_moved_iff (h : ce.LoopInside dur) (x bpm : ℚ) :
    (ce.dragged .loopEnd x dur bpm).LoopInside dur ↔
      ce.loopStartSecs + 1 / 50 ≤ dur ∧
        (ce.pointedTime x bpm ≤ dur ∨ ce.loopStartSecs + 1 / 10 ≤ dur) := by
  set bound := max dur (ce.loopStartSecs + 1 / 10) with hbound
  have hmoved : ce.dragged .loopEnd x dur bpm =
      { ce with loopEndSecs := max (ce.loopStartSecs + 1 / 50) (min (ce.pointedTime x bpm) bound) } := rfl
  have hmin : min (ce.pointedTime x bpm) bound ≤ dur ↔
      ce.pointedTime x bpm ≤ dur ∨ ce.loopStartSecs + 1 / 10 ≤ dur := by
    rw [min_le_iff, hbound, max_le_iff, and_iff_right (le_refl dur)]
  rw [hmoved, ← hmin, ← max_le_iff]
  refine ⟨fun hin => hin.within, fun hle => ⟨h.nonneg, ?_, hle⟩⟩
  exact lt_of_lt_of_le (by linarith) (le_max_left (ce.loopStartSecs + 1 / 50) _)

theorem clip_start_moved_iff (h : ce.LoopInside dur) (x bpm : ℚ) :
    (ce.dragged .clipStart x dur bpm).LoopInside dur ↔ ce.pointedTime x bpm < ce.loopEndSecs := by
  have hdur : 0 ≤ dur := h.nonneg.trans (h.ordered.le.trans h.within)
  have hmoved : ce.dragged .clipStart x dur bpm =
      { ce with loopStartSecs := min (ce.pointedTime x bpm) dur } := by
    rw [← clampTo_zero (ce.pointedTime_nonneg x bpm) hdur]
    rfl
  rw [hmoved]
  constructor
  · intro hin
    rcases min_lt_iff.mp hin.ordered with hlt | hlt
    · exact hlt
    · exact absurd h.within (not_le.mpr hlt)
  · intro hlt
    exact ⟨le_min (ce.pointedTime_nonneg x bpm) hdur, min_lt_of_left_lt hlt, h.within⟩

theorem clip_end_moved_iff (h : ce.LoopInside dur) (x bpm : ℚ) :
    (ce.dragged .clipEnd x dur bpm).LoopInside dur ↔ ce.loopStartSecs < ce.pointedTime x bpm := by
  have hdur : 0 ≤ dur := h.nonneg.trans (h.ordered.le.trans h.within)
  have hmoved : ce.dragged .clipEnd x dur bpm =
      { ce with loopEndSecs := min (ce.pointedTime x bpm) dur } := by
    rw [← clampTo_zero (ce.pointedTime_nonneg x bpm) hdur]
    rfl
  rw [hmoved]
  constructor
  · intro hin
    exact hin.ordered.trans_le (min_le_left _ _)
  · intro hlt
    exact ⟨h.nonneg, lt_min hlt (h.ordered.trans_le h.within), min_le_right _ _⟩

/-! ## Runs -/

theorem dragAction_dragged (ce : ClipEditorState) (action : DragAction) (x dur bpm : ℚ) :
    (ce.dragged action x dur bpm).dragAction = ce.dragAction := by
  cases action <;> rfl

/-- A press takes hold of the loop, or of a tenth of a second where it is shorter. -/
theorem rangeHeld_press (ce : ClipEditorState) (x y d : ℚ) : (ce.step (.press x y d)).RangeHeld := by
  intro startX origStart origEnd h
  have hgrab : ce.grabbed x y d = .loopRange startX origStart origEnd := Option.some.inj h
  unfold grabbed at hgrab
  dsimp only at hgrab
  split_ifs at hgrab
  obtain ⟨_, hstart, hend⟩ := DragAction.loopRange.inj hgrab
  show origEnd - origStart = max (ce.loopEndSecs - ce.loopStartSecs) (1 / 10)
  rw [← hstart, ← hend, ← max_sub_sub_right, add_sub_cancel_left]

theorem RangeHeld.step (hheld : ce.RangeHeld) (i : EditorInput) : (ce.step i).RangeHeld := by
  cases i with
  | select target => exact hheld
  | press x y d => exact rangeHeld_press ce x y d
  | release => exact fun _ _ _ h => nomatch h
  | toggleLoop => exact hheld
  | view zoomX scrollSecs snap => exact hheld
  | move x d bpm =>
    intro startX origStart origEnd h
    cases haction : ce.dragAction with
    | none =>
      unfold ClipEditorState.step input at h
      rw [haction] at h
      exact absurd (haction.symm.trans h) (by simp)
    | some action =>
      have hstep : ce.step (.move x d bpm) = ce.dragged action x d bpm := by
        unfold ClipEditorState.step input
        rw [haction]
      rw [hstep, dragAction_dragged, haction] at h
      obtain rfl : action = .loopRange startX origStart origEnd := Option.some.inj h
      have hlen : (ce.dragged (.loopRange startX origStart origEnd) x d bpm).loopLength =
          origEnd - origStart := add_sub_cancel_left _ _
      have htenth : 1 / 10 ≤ origEnd - origStart := by
        rw [hheld startX origStart origEnd haction]
        exact le_max_right _ _
      rw [hstep, hlen, max_eq_left htenth]

/-- Right along a run: one step of it. -/
theorem loopKept_iff (h : ce.LoopInside dur) (hheld : ce.RangeHeld) {i : EditorInput} (hi : i.TimedBy dur) :
    LoopKept dur ce i ↔ HandleClear dur ce i := by
  have hidle (hloop : (ce.step i).LoopInside dur) (hlength : (ce.step i).loopLength = ce.loopLength) :
      LoopKept dur ce i := ⟨hloop, fun _ => hlength⟩
  cases i with
  | select target => exact iff_of_true (hidle ⟨h.nonneg, h.ordered, h.within⟩ rfl) trivial
  | press x y d => exact iff_of_true (hidle ⟨h.nonneg, h.ordered, h.within⟩ rfl) trivial
  | release => exact iff_of_true (hidle ⟨h.nonneg, h.ordered, h.within⟩ rfl) trivial
  | toggleLoop => exact iff_of_true (hidle ⟨h.nonneg, h.ordered, h.within⟩ rfl) trivial
  | view zoomX scrollSecs snap => exact iff_of_true (hidle ⟨h.nonneg, h.ordered, h.within⟩ rfl) trivial
  | move x d bpm =>
    obtain rfl : d = dur := hi
    cases haction : ce.dragAction with
    | none =>
      have hstep : ce.step (.move x d bpm) = ce := by
        unfold step input
        rw [haction]
      refine iff_of_true ?_ ?_
      · rw [LoopKept, hstep]
        exact ⟨h, fun _ => rfl⟩
      · intro action hmem
        rw [haction] at hmem
        cases hmem
    | some action =>
      have hstep : ce.step (.move x d bpm) = ce.dragged action x d bpm := by
        unfold step input
        rw [haction]
      have hclear : HandleClear d ce (.move x d bpm) ↔ MayDrag d ce (ce.pointedTime x bpm) action := by
        unfold HandleClear
        rw [haction]
        exact ⟨fun hall => hall action rfl, fun hmay a ha => Option.some.inj ha ▸ hmay⟩
      rw [hclear, LoopKept, hstep]
      -- only a drag of the whole is asked to keep the length
      have hpart (hother : ¬ ce.DragsRange) :
          ((ce.dragged action x d bpm).LoopInside d ∧
            (ce.DragsRange → (ce.dragged action x d bpm).loopLength = ce.loopLength)) ↔
          (ce.dragged action x d bpm).LoopInside d :=
        and_iff_left fun hrange => absurd hrange hother
      have hnot (hne : ∀ startX origStart origEnd, action ≠ .loopRange startX origStart origEnd) :
          ¬ ce.DragsRange := by
        rintro ⟨startX, origStart, origEnd, hrange⟩
        exact hne startX origStart origEnd (Option.some.inj (haction.symm.trans hrange))
      cases action with
      | loopRange startX origStart origEnd =>
        have hrange : ce.DragsRange := ⟨startX, origStart, origEnd, haction⟩
        rw [show (ce.DragsRange → _) ↔ _ from forall_prop_of_true hrange]
        exact range_moved_iff h (hheld startX origStart origEnd haction) x bpm
      | loopStart => exact (hpart (hnot fun _ _ _ => by simp)).trans (start_moved_iff h x bpm)
      | loopEnd => exact (hpart (hnot fun _ _ _ => by simp)).trans (end_moved_iff h x bpm)
      | clipStart => exact (hpart (hnot fun _ _ _ => by simp)).trans (clip_start_moved_iff h x bpm)
      | clipEnd => exact (hpart (hnot fun _ _ _ => by simp)).trans (clip_end_moved_iff h x bpm)
      | other => exact (hpart (hnot fun _ _ _ => by simp)).trans (iff_of_true h trivial)

/-- From a loop that is right, a sequence of drags keeps it so precisely when no handle is moved to where
it must not go. -/
theorem loop_kept_along_iff (h : ce.LoopInside dur) (hidle : ce.dragAction = none)
    {is : List EditorInput} (his : ∀ i ∈ is, i.TimedBy dur) :
    Along step (LoopKept dur) ce is ↔ Along step (HandleClear dur) ce is := by
  have hheld : ce.RangeHeld := fun _ _ _ hrange => nomatch hidle.symm.trans hrange
  refine along_iff_along_given (I := fun ce => ce.LoopInside dur ∧ ce.RangeHeld) ?_ ?_ ⟨h, hheld⟩
    (along_of_forall_mem his)
  · rintro ce i hi ⟨hin, hheld⟩ hclear
    exact ⟨((loopKept_iff hin hheld hi).mpr hclear).1, hheld.step i⟩
  · rintro ce i hi ⟨hin, hheld⟩
    exact loopKept_iff hin hheld hi

/-- Second one to two of a clip, in an editor that does not snap. -/
def oneSecondLoop : ClipEditorState :=
  { default with target := some (.matrix 0 0), snap := .none, loopStartSecs := 1, loopEndSecs := 2 }

theorem oneSecondLoop_inside : oneSecondLoop.LoopInside 4 :=
  ⟨by decide, by decide, by decide⟩

theorem loop_kept_along_iff_press_move :
    Along step (LoopKept 4) oneSecondLoop [.press 400 10 4, .move 500 4 120, .release] ↔
      Along step (HandleClear 4) oneSecondLoop [.press 400 10 4, .move 500 4 120, .release] :=
  loop_kept_along_iff oneSecondLoop_inside rfl (by simp [EditorInput.TimedBy])

/-- The handle of the clip's start goes past the end of the loop. -/
theorem clip_start_passes_loop_end :
    ¬ ∀ (dur : ℚ) (ce : ClipEditorState) (is : List EditorInput), ce.LoopInside dur → ce.dragAction = none →
      (∀ i ∈ is, i.TimedBy dur) → Along step (LoopKept dur) ce is := by
  intro h
  obtain ⟨_, ⟨hin, _⟩, _⟩ := h 4 oneSecondLoop [.press 0 100 4, .move 1200 4 120] oneSecondLoop_inside rfl
    (by simp [EditorInput.TimedBy])
  have hstart : ((oneSecondLoop.step (.press 0 100 4)).step (.move 1200 4 120)).loopStartSecs = 3 := by
    decide +kernel
  have hend : ((oneSecondLoop.step (.press 0 100 4)).step (.move 1200 4 120)).loopEndSecs = 2 := by
    decide +kernel
  have hordered := hin.ordered
  rw [hstart, hend] at hordered
  exact absurd hordered (by decide)

end ClipEditorState

end HikaruOpenLive.Gui
