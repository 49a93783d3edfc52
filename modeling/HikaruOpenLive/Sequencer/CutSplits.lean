import Mathlib.Algebra.BigOperators.Group.List.Basic
import Mathlib.Algebra.Ring.Nat
import HikaruOpenLive.Sequencer.SplitRender

/-! # Cutting a range as two splits

`cut_range` slices the events itself. The composition it stands for uses `split_at` at both ends of
the range, takes the pieces in between out and closes the gap. The pieces are the same but for the
fades: `split_at` leaves no fade at a cut edge, `cut_range` copies the removed piece and the right one
from the whole event and clears only the fade of the left one.
-/
set_option autoImplicit false

namespace HikaruOpenLive.Sequencer

namespace ClipAudioEvent

/-- What `cut_range` and the two splits are compared in: everything but the ids. -/
def fields (e : ClipAudioEvent) : ℕ × ℕ × ℕ × ℚ × ℕ × ℕ :=
  (e.clipStart, e.sourceOffset, e.length, e.gain, e.fadeIn, e.fadeOut)

def StrictlyContains (e : ClipAudioEvent) (atFrame : ℕ) : Prop := e.clipStart < atFrame ∧ atFrame < e.stop

instance (e : ClipAudioEvent) (atFrame : ℕ) : Decidable (e.StrictlyContains atFrame) := by
  unfold StrictlyContains; infer_instance

/-- The event, or its two halves where the frame lies strictly inside. -/
def halves (e : ClipAudioEvent) (atFrame newId : ℕ) : List ClipAudioEvent :=
  match e.splitAt atFrame newId with
  | none => [e]
  | some (l, r) => [l, r]

/-- Wholly before or wholly after the range; a piece that is neither lies in it. -/
def Outside (e : ClipAudioEvent) (start stop : ℕ) : Prop := e.stop ≤ start ∨ stop ≤ e.clipStart

instance (e : ClipAudioEvent) (start stop : ℕ) : Decidable (e.Outside start stop) := by
  unfold Outside; infer_instance

def shiftLater (e : ClipAudioEvent) (start stop : ℕ) : ClipAudioEvent :=
  if stop ≤ e.clipStart then { e with clipStart := e.clipStart - (stop - start) } else e

def rebased (e : ClipAudioEvent) (start : ℕ) : ClipAudioEvent := { e with clipStart := e.clipStart - start }

/-- The pieces of an event after the splits at both ends of the range. -/
def slices (e : ClipAudioEvent) (start stop newId : ℕ) : List ClipAudioEvent :=
  (e.halves start newId).flatMap (fun p => p.halves stop newId)

def slicesKept (e : ClipAudioEvent) (start stop newId : ℕ) : List ClipAudioEvent :=
  ((e.slices start stop newId).filter (fun p => p.Outside start stop)).map (fun p => p.shiftLater start stop)

def slicesRemoved (e : ClipAudioEvent) (start stop newId : ℕ) : List ClipAudioEvent :=
  ((e.slices start stop newId).filter (fun p => ¬ p.Outside start stop)).map (fun p => p.rebased start)

/-- No fade of the event would be carried over to a cut edge. -/
def CleanEdges (e : ClipAudioEvent) (start stop : ℕ) : Prop :=
  (e.StrictlyContains start → e.fadeIn = 0) ∧ (e.StrictlyContains stop → e.fadeIn = 0 ∧ e.fadeOut = 0)

instance (e : ClipAudioEvent) (start stop : ℕ) : Decidable (e.CleanEdges start stop) := by
  unfold CleanEdges; infer_instance

end ClipAudioEvent

namespace ClipAudioTimeline
open ClipAudioEvent

/-- The composition: split at both ends, take the range out, shift what comes later. -/
def cutBySplits (tl : ClipAudioTimeline) (start stop newId : ℕ) : List ClipAudioEvent × List ClipAudioEvent :=
  let pieces := (tl.events.flatMap fun e => e.halves start newId).flatMap fun e => e.halves stop newId
  ((pieces.filter fun p => p.Outside start stop).map (fun p => p.shiftLater start stop),
    (pieces.filter fun p => ¬ p.Outside start stop).map (fun p => p.rebased start))

/-- Remaining and removed events are the same, ids aside. -/
def CutAgrees (tl : ClipAudioTimeline) (start stop newId : ℕ) : Prop :=
  ((tl.cutRange start stop).1.events.map fields).Perm ((tl.cutBySplits start stop newId).1.map fields) ∧
    ((tl.cutRange start stop).2.map fields).Perm ((tl.cutBySplits start stop newId).2.map fields)

instance (tl : ClipAudioTimeline) (start stop newId : ℕ) : Decidable (tl.CutAgrees start stop newId) :=
  @instDecidableAnd _ _ (List.decidablePerm _ _) (List.decidablePerm _ _)

end ClipAudioTimeline

namespace ClipAudioEvent

/-! ## One event under two splits -/

section Event
variable (e : ClipAudioEvent) {start stop : ℕ} (newId : ℕ)

theorem halves_of_not (h : ¬ e.StrictlyContains start) : e.halves start newId = [e] := by
  have hnone : e.splitAt start newId = none := by
    unfold StrictlyContains at h
    unfold splitAt
    rw [if_pos (by omega)]
  unfold halves
  rw [hnone]

theorem halves_of (h : e.StrictlyContains start) :
    e.halves start newId =
      [{ e with length := start - e.clipStart, fadeOut := 0 },
        { id := newId, sourceId := e.sourceId, clipStart := start
          sourceOffset := e.sourceOffset + (start - e.clipStart), length := e.stop - start
          gain := e.gain, fadeIn := 0, fadeOut := e.fadeOut }] := by
  unfold halves
  rw [splitAt_inside h newId]

theorem not_strictlyContains_of_outside (hlt : start < stop) (hout : e.Outside start stop) :
    ¬ e.StrictlyContains start ∧ ¬ e.StrictlyContains stop := by
  unfold Outside at hout
  unfold StrictlyContains
  constructor <;> omega

/-- An event that misses the range is one slice, and `cut_range` keeps it the same way. -/
theorem slices_of_outside (hlt : start < stop) (hout : e.Outside start stop) :
    e.slices start stop newId = [e] := by
  obtain ⟨hstart, hstop⟩ := not_strictlyContains_of_outside e hlt hout
  unfold slices
  rw [halves_of_not e newId hstart, List.flatMap_cons, List.flatMap_nil, List.append_nil,
    halves_of_not e newId hstop]

theorem shiftLater_fields (hout : e.Outside start stop) :
    (e.closeGap start stop).fields = (e.shiftLater start stop).fields := by
  unfold closeGap shiftLater
  split_ifs with hlater hin
  · rfl
  · -- an empty event at the start of the range, anchored where it already is
    have hs : e.stop = e.clipStart + e.length := rfl
    unfold Outside at hout
    have hmin : min start e.clipStart = e.clipStart := by omega
    rw [hmin]
  · rfl

/-- The slice that lies in the range. -/
def sliceMid (e : ClipAudioEvent) (start stop newId : ℕ) : ClipAudioEvent :=
  { id := if e.clipStart < start then newId else e.id
    sourceId := e.sourceId
    clipStart := max e.clipStart start
    sourceOffset := e.sourceOffset + (max e.clipStart start - e.clipStart)
    length := min e.stop stop - max e.clipStart start
    gain := e.gain
    fadeIn := if e.clipStart < start then 0 else e.fadeIn
    fadeOut := if stop < e.stop then 0 else e.fadeOut }

/-- The slice that comes after it, before the gap is closed. -/
def sliceRight (e : ClipAudioEvent) (stop newId : ℕ) : ClipAudioEvent :=
  { id := newId, sourceId := e.sourceId, clipStart := stop
    sourceOffset := e.sourceOffset + (stop - e.clipStart), length := e.stop - stop
    gain := e.gain, fadeIn := 0, fadeOut := e.fadeOut }

/-- The slices of an event that reaches into the range: what is left of it, what lies in it, what
comes after. A half made by a split has no fade at the cut. -/
theorem slices_of_overlap (hlt : start < stop) (hover : ¬ e.Outside start stop) :
    e.slices start stop newId =
      (if e.clipStart < start then [e.cutLeft start] else []) ++
        (e.sliceMid start stop newId :: if stop < e.stop then [e.sliceRight stop newId] else []) := by
  have hs : e.stop = e.clipStart + e.length := rfl
  unfold Outside at hover
  unfold slices
  by_cases hl : e.clipStart < start
  · have hmax : max e.clipStart start = start := by omega
    rw [halves_of e newId ⟨hl, by omega⟩, List.flatMap_cons, List.flatMap_cons, List.flatMap_nil]
    rw [halves_of_not _ newId (by unfold StrictlyContains ClipAudioEvent.stop; dsimp only; omega)]
    by_cases hr : stop < e.stop
    · have hmin : min e.stop stop = stop := by omega
      rw [halves_of _ newId ⟨by dsimp only; omega, by unfold ClipAudioEvent.stop; dsimp only; omega⟩]
      simp only [hl, hr, hmax, hmin, sliceMid, sliceRight, cutLeft, if_true]
      simp [ClipAudioEvent.stop]
      omega
    · have hmin : min e.stop stop = e.stop := by omega
      rw [halves_of_not _ newId (by unfold StrictlyContains ClipAudioEvent.stop; dsimp only; omega)]
      simp [hl, hr, hmax, hmin, sliceMid, cutLeft]
  · have hmax : max e.clipStart start = e.clipStart := by omega
    rw [halves_of_not e newId (by unfold StrictlyContains; omega), List.flatMap_cons, List.flatMap_nil]
    by_cases hr : stop < e.stop
    · have hmin : min e.stop stop = stop := by omega
      rw [halves_of e newId ⟨by omega, hr⟩]
      simp [hl, hr, hmax, hmin, sliceMid, sliceRight]
    · have hmin : min e.stop stop = e.stop := by omega
      have hlen : e.stop - e.clipStart = e.length := by omega
      rw [halves_of_not e newId (by unfold StrictlyContains; omega)]
      simp [hl, hr, hmax, hmin, sliceMid, hlen]

/-- Of the slices the middle one alone lies in the range. -/
theorem slices_outside (hlt : start < stop) (hover : ¬ e.Outside start stop) :
    ¬ (e.sliceMid start stop newId).Outside start stop ∧
      (e.clipStart < start → (e.cutLeft start).Outside start stop) ∧
      (e.sliceRight stop newId).Outside start stop := by
  refine ⟨?_, fun hl => Or.inl ?_, Or.inr le_rfl⟩
  · unfold Outside at hover ⊢
    simp only [sliceMid, ClipAudioEvent.stop] at hover ⊢
    omega
  · simp only [cutLeft, ClipAudioEvent.stop]
    omega

theorem kept_of_overlap (hlt : start < stop) (hover : ¬ e.Outside start stop) :
    e.slicesKept start stop newId =
      (if e.clipStart < start then [e.cutLeft start] else []) ++
        (if stop < e.stop then [{ e.cutRight start stop with id := newId, fadeIn := 0 }] else []) := by
  obtain ⟨hmid, hleft, hright⟩ := slices_outside e newId hlt hover
  have hshift : (e.sliceRight stop newId).shiftLater start stop =
      { e.cutRight start stop with id := newId, fadeIn := 0 } := by
    have hstart : stop - (stop - start) = start := by omega
    simp [shiftLater, sliceRight, cutRight, hstart]
  unfold slicesKept
  rw [slices_of_overlap e newId hlt hover, List.filter_append, List.filter_cons_of_neg (by simpa using hmid),
    List.map_append]
  congr 1
  · split_ifs with hl
    · have hstay : (e.cutLeft start).shiftLater start stop = e.cutLeft start :=
        if_neg (by simp only [cutLeft]; omega)
      rw [List.filter_cons_of_pos (by simpa using hleft hl), List.filter_nil, List.map_singleton, hstay]
    · rfl
  · split_ifs with hr
    · rw [List.filter_cons_of_pos (by simpa using hright), List.filter_nil, List.map_singleton, hshift]
    · rfl

theorem removed_of_overlap (hlt : start < stop) (hover : ¬ e.Outside start stop) :
    e.slicesRemoved start stop newId = [(e.sliceMid start stop newId).rebased start] := by
  obtain ⟨hmid, hleft, hright⟩ := slices_outside e newId hlt hover
  unfold slicesRemoved
  rw [slices_of_overlap e newId hlt hover, List.filter_append, List.filter_cons_of_pos (by simpa using hmid)]
  by_cases hl : e.clipStart < start <;> by_cases hr : stop < e.stop <;>
    simp [hl, hr, hright, hleft]

/-! ## The same event under `cut_range` -/

/-- The pieces `cut_range` keeps of an event, with the gap closed. -/
def cutKept (e : ClipAudioEvent) (start stop : ℕ) : List ClipAudioEvent :=
  (e.cutPieces start stop).1.map (fun p => p.closeGap start stop)

theorem cutPieces_of_outside (hout : e.Outside start stop) : e.cutPieces start stop = ([e], []) :=
  if_pos hout

theorem cutPieces_of_overlap (hover : ¬ e.Outside start stop) :
    e.cutPieces start stop =
      ((if e.clipStart < start then [e.cutLeft start] else []) ++
        (if stop < e.stop then [e.cutRight start stop] else []), [e.cutMid start stop]) := if_neg hover

theorem cutKept_of_overlap (hlt : start < stop) (hover : ¬ e.Outside start stop) :
    e.cutKept start stop =
      (if e.clipStart < start then [e.cutLeft start] else []) ++
        (if stop < e.stop then [e.cutRight start stop] else []) := by
  unfold cutKept
  rw [cutPieces_of_overlap e hover, List.map_append]
  congr 1
  · split_ifs with hl
    · rw [List.map_singleton, closeGap_cutLeft e hlt hl]
    · rfl
  · split_ifs with hr
    · rw [List.map_singleton, closeGap_cutRight e hlt]
    · rfl

theorem slicesKept_of_outside (hlt : start < stop) (hout : e.Outside start stop) :
    e.slicesKept start stop newId = [e.shiftLater start stop] := by
  unfold slicesKept
  rw [slices_of_outside e newId hlt hout, List.filter_cons_of_pos (by simpa using hout), List.filter_nil,
    List.map_singleton]

theorem slicesRemoved_of_outside (hlt : start < stop) (hout : e.Outside start stop) :
    e.slicesRemoved start stop newId = [] := by
  unfold slicesRemoved
  rw [slices_of_outside e newId hlt hout, List.filter_cons_of_neg (by simpa using hout), List.filter_nil,
    List.map_nil]

theorem strictlyContains_of_overlap (hover : ¬ e.Outside start stop) :
    (e.StrictlyContains start ↔ e.clipStart < start) ∧ (e.StrictlyContains stop ↔ stop < e.stop) := by
  unfold Outside at hover
  unfold StrictlyContains
  constructor <;> omega

/-! ## Where the two agree -/

theorem kept_fields_of_clean (hlt : start < stop) (hclean : e.CleanEdges start stop) :
    (e.cutKept start stop).map fields = (e.slicesKept start stop newId).map fields := by
  by_cases hout : e.Outside start stop
  · rw [slicesKept_of_outside e newId hlt hout]
    unfold cutKept
    rw [cutPieces_of_outside e hout, List.map_singleton, List.map_singleton, List.map_singleton,
      shiftLater_fields e hout]
  · obtain ⟨_, hstop⟩ := strictlyContains_of_overlap e hout
    rw [cutKept_of_overlap e hlt hout, kept_of_overlap e newId hlt hout, List.map_append, List.map_append]
    congr 1
    by_cases hr : stop < e.stop
    · have hin : e.fadeIn = 0 := (hclean.2 (hstop.mpr hr)).1
      simp [hr, fields, cutRight, hin]
    · simp [hr]

theorem removed_fields_of_clean (hlt : start < stop) (hclean : e.CleanEdges start stop) :
    (e.cutPieces start stop).2.map fields = (e.slicesRemoved start stop newId).map fields := by
  by_cases hout : e.Outside start stop
  · rw [cutPieces_of_outside e hout, slicesRemoved_of_outside e newId hlt hout]
  · obtain ⟨hstart, hstop⟩ := strictlyContains_of_overlap e hout
    have hin : (if e.clipStart < start then 0 else e.fadeIn) = e.fadeIn := by
      split_ifs with hl
      · exact (hclean.1 (hstart.mpr hl)).symm
      · rfl
    have hfade : (if stop < e.stop then 0 else e.fadeOut) = e.fadeOut := by
      split_ifs with hr
      · exact (hclean.2 (hstop.mpr hr)).2.symm
      · rfl
    rw [cutPieces_of_overlap e hout, removed_of_overlap e newId hlt hout]
    simp [fields, cutMid, rebased, sliceMid, hin, hfade]

/-! ## The fades carried over to a cut edge -/

theorem kept_fadeIn (hlt : start < stop) :
    ((e.cutKept start stop).map fadeIn).sum =
      ((e.slicesKept start stop newId).map fadeIn).sum +
        if e.StrictlyContains stop then e.fadeIn else 0 := by
  by_cases hout : e.Outside start stop
  · have hfields := shiftLater_fields e hout
    have hfade : (e.closeGap start stop).fadeIn = (e.shiftLater start stop).fadeIn :=
      congrArg (fun p => p.2.2.2.2.1) hfields
    rw [slicesKept_of_outside e newId hlt hout, if_neg (not_strictlyContains_of_outside e hlt hout).2]
    unfold cutKept
    rw [cutPieces_of_outside e hout]
    simp [hfade]
  · simp only [(strictlyContains_of_overlap e hout).2]
    rw [cutKept_of_overlap e hlt hout, kept_of_overlap e newId hlt hout]
    by_cases hl : e.clipStart < start <;> by_cases hr : stop < e.stop <;> simp [hl, hr, cutRight, cutLeft]

theorem removed_fadeIn (hlt : start < stop) :
    ((e.cutPieces start stop).2.map fadeIn).sum =
      ((e.slicesRemoved start stop newId).map fadeIn).sum +
        if e.StrictlyContains start then e.fadeIn else 0 := by
  by_cases hout : e.Outside start stop
  · rw [cutPieces_of_outside e hout, slicesRemoved_of_outside e newId hlt hout,
      if_neg (not_strictlyContains_of_outside e hlt hout).1]
    rfl
  · simp only [(strictlyContains_of_overlap e hout).1]
    rw [cutPieces_of_overlap e hout, removed_of_overlap e newId hlt hout]
    by_cases hl : e.clipStart < start <;> simp [hl, rebased, sliceMid, cutMid]

theorem removed_fadeOut (hlt : start < stop) :
    ((e.cutPieces start stop).2.map fadeOut).sum =
      ((e.slicesRemoved start stop newId).map fadeOut).sum +
        if e.StrictlyContains stop then e.fadeOut else 0 := by
  by_cases hout : e.Outside start stop
  · rw [cutPieces_of_outside e hout, slicesRemoved_of_outside e newId hlt hout,
      if_neg (not_strictlyContains_of_outside e hlt hout).2]
    rfl
  · simp only [(strictlyContains_of_overlap e hout).2]
    rw [cutPieces_of_overlap e hout, removed_of_overlap e newId hlt hout]
    by_cases hr : stop < e.stop <;> simp [hr, rebased, sliceMid, cutMid]

end Event

end ClipAudioEvent

namespace ClipAudioTimeline
open ClipAudioEvent

/-! ## The whole timeline -/

theorem cutBySplits_eq (tl : ClipAudioTimeline) (start stop newId : ℕ) :
    tl.cutBySplits start stop newId =
      (tl.events.flatMap (fun e => e.slicesKept start stop newId),
        tl.events.flatMap (fun e => e.slicesRemoved start stop newId)) := by
  unfold cutBySplits slicesKept slicesRemoved slices
  simp only [List.flatMap_assoc, List.filter_flatMap, List.map_flatMap]

theorem sum_flatMap_add {α : Type} (evs : List α) {f g : α → List ℕ} {h : α → ℕ}
    (heach : ∀ e ∈ evs, (f e).sum = (g e).sum + h e) :
    (evs.flatMap f).sum = (evs.flatMap g).sum + (evs.map h).sum := by
  induction evs with
  | nil => rfl
  | cons e es ih =>
    have he := heach e List.mem_cons_self
    have hes := ih fun d hd => heach d (List.mem_cons_of_mem e hd)
    simp only [List.flatMap_cons, List.sum_append, List.map_cons, List.sum_cons]
    omega

/-- What one side adds to the other, event by event, is nothing when the two are the same up to
order. -/
theorem each_zero_of_perm {evs : List ClipAudioEvent} {f g : ClipAudioEvent → List ClipAudioEvent}
    (v : ℕ × ℕ × ℕ × ℚ × ℕ × ℕ → ℕ) {h : ClipAudioEvent → ℕ}
    (heach : ∀ e ∈ evs, ((f e).map fun p => v p.fields).sum = ((g e).map fun p => v p.fields).sum + h e)
    (hperm : ((evs.flatMap f).map fields).Perm ((evs.flatMap g).map fields)) : ∀ e ∈ evs, h e = 0 := by
  have hsum := (hperm.map v).sum_eq
  have hadd := sum_flatMap_add evs heach
  simp only [List.map_map, List.map_flatMap] at hsum
  change (evs.flatMap fun e => (f e).map fun p => v p.fields).sum =
    (evs.flatMap fun e => (g e).map fun p => v p.fields).sum at hsum
  have hzero : (evs.map h).sum = 0 := by omega
  intro e he
  exact List.sum_eq_zero_iff_forall_eq_nat.mp hzero (h e) (List.mem_map_of_mem he)

theorem kept_eq (tl : ClipAudioTimeline) {start stop : ℕ} (hlt : start < stop) :
    ((tl.cutRange start stop).1.events).Perm (tl.events.flatMap fun e => e.cutKept start stop) ∧
      (tl.cutRange start stop).2 = tl.events.flatMap fun e => (e.cutPieces start stop).2 := by
  unfold cutRange
  rw [if_neg (by omega)]
  refine ⟨(sort_perm _).trans ?_, rfl⟩
  rw [List.map_flatMap]
  exact List.Perm.refl _

/-- `cut_range` does what its two splits do exactly when no fade meets a cut edge: an event cut at the
start of the range has no fade in, one cut at its end has none at all. -/
theorem cutRange_agrees_iff (tl : ClipAudioTimeline) {start stop : ℕ} (hlt : start < stop) (newId : ℕ) :
    tl.CutAgrees start stop newId ↔ ∀ e ∈ tl.events, e.CleanEdges start stop := by
  obtain ⟨hkept, hremoved⟩ := kept_eq tl hlt
  unfold CutAgrees
  rw [cutBySplits_eq, hremoved]
  constructor
  · rintro ⟨hk, hr⟩
    have hk' := (hkept.map fields).symm.trans hk
    have hkin := each_zero_of_perm (fun p => p.2.2.2.2.1) (fun e _ => e.kept_fadeIn newId hlt) hk'
    have hrin := each_zero_of_perm (fun p => p.2.2.2.2.1) (fun e _ => e.removed_fadeIn newId hlt) hr
    have hrout := each_zero_of_perm (fun p => p.2.2.2.2.2) (fun e _ => e.removed_fadeOut newId hlt) hr
    intro e he
    refine ⟨fun hs => ?_, fun hs => ⟨?_, ?_⟩⟩
    · simpa [hs] using hrin e he
    · simpa [hs] using hkin e he
    · simpa [hs] using hrout e he
  · intro hclean
    refine ⟨(hkept.map fields).trans ?_, ?_⟩
    · rw [List.map_flatMap, List.map_flatMap]
      refine List.Perm.of_eq (List.flatMap_congr ?_)
      intro e he
      exact e.kept_fields_of_clean newId hlt (hclean e he)
    · rw [List.map_flatMap, List.map_flatMap]
      refine List.Perm.of_eq (List.flatMap_congr ?_)
      intro e he
      exact e.removed_fields_of_clean newId hlt (hclean e he)

/-- An event without fades that the range cuts on both sides. -/
theorem cutRange_agrees_plain :
    CutAgrees ⟨[ClipAudioEvent.new 1 0 0 100], 2⟩ 40 60 2 :=
  (cutRange_agrees_iff _ (by decide) 2).mpr (by decide)

/-- A range cut out of the middle of an event with fades: the piece taken out keeps the fade in of the
whole event, the half of the split has none. -/
theorem not_cutRange_agrees :
    ¬ ∀ (tl : ClipAudioTimeline) (start stop newId : ℕ), start < stop → tl.CutAgrees start stop newId := by
  intro h
  have hfade := h ⟨[{ ClipAudioEvent.new 1 0 0 100 with fadeIn := 10, fadeOut := 10 }], 2⟩ 40 60 2 (by decide)
  revert hfade
  decide

end ClipAudioTimeline

end HikaruOpenLive.Sequencer
