import HikaruOpenLive.Foundations.Runs
import HikaruOpenLive.Sequencer.ClipTimeline

/-! # The timeline invariant over runs of edits

`Wf` is what the timeline's methods keep between them: events sorted by `(clip_start, id)`, ids
pairwise distinct, every id below the counter. Sorting only permutes, so each edit is judged by the
list of ids it leaves (`Wf.of_ids`): a fresh id for an added event and for a split, a block of fresh
ids for a paste (`Fresh`), a sublist of the old ids for a removal.

`cut_range` is the exception. An event that reaches past both ends of the range leaves a left and a
right piece under the same id, where `split_at` and `paste_insert` draw a new one; `wf_cutRange_iff`
says that this is the only way an edit breaks the invariant, and `wf_along_edits` lifts it to runs.
-/
set_option autoImplicit false

namespace HikaruOpenLive.Sequencer.ClipAudioTimeline
open HikaruOpenLive.Foundations.Runs

/-- Sorted events, distinct ids, ids below the counter. -/
structure Wf (tl : ClipAudioTimeline) : Prop where
  sorted : tl.events.Pairwise ClipAudioEvent.KeyLE
  nodup : (tl.events.map ClipAudioEvent.id).Nodup
  below : ∀ e ∈ tl.events, e.id < tl.nextId

theorem wf_empty : Wf empty := ⟨List.Pairwise.nil, List.nodup_nil, by simp [empty]⟩

theorem wf_singleFull (n : ℕ) : Wf (singleFull n) := by
  refine ⟨List.pairwise_singleton _ _, List.nodup_singleton _, ?_⟩
  simp [singleFull, ClipAudioEvent.new]

theorem wf_sort_iff (evs : List ClipAudioEvent) (n : ℕ) :
    Wf ⟨sort evs, n⟩ ↔
      (evs.map ClipAudioEvent.id).Nodup ∧ ∀ i ∈ evs.map ClipAudioEvent.id, i < n := by
  have hp : ((sort evs).map ClipAudioEvent.id).Perm (evs.map ClipAudioEvent.id) :=
    (sort_perm evs).map _
  constructor
  · intro h
    refine ⟨hp.nodup_iff.mp h.nodup, ?_⟩
    intro i hi
    obtain ⟨e, he, rfl⟩ := List.mem_map.mp (hp.mem_iff.mpr hi)
    exact h.below e he
  · rintro ⟨hn, hb⟩
    refine ⟨sort_sorted evs, hp.nodup_iff.mpr hn, ?_⟩
    intro e he
    exact hb _ (hp.mem_iff.mp (List.mem_map_of_mem he))

theorem Wf.ids_below {tl : ClipAudioTimeline} (h : Wf tl) :
    ∀ i ∈ tl.events.map ClipAudioEvent.id, i < tl.nextId := by
  intro i hi
  obtain ⟨e, he, rfl⟩ := List.mem_map.mp hi
  exact h.below e he

/-! ## Fresh ids -/

/-- Distinct ids out of `[lo, hi)`. -/
structure Fresh (lo hi : ℕ) (ids : List ℕ) : Prop where
  nodup : ids.Nodup
  range : ∀ i ∈ ids, lo ≤ i ∧ i < hi

theorem Fresh.nil (lo hi : ℕ) : Fresh lo hi [] := ⟨List.nodup_nil, by simp⟩

theorem Fresh.cons {lo hi : ℕ} {ids : List ℕ} (h : Fresh (lo + 1) hi ids) (hlt : lo < hi) :
    Fresh lo hi (lo :: ids) := by
  refine ⟨List.nodup_cons.mpr ⟨?_, h.nodup⟩, ?_⟩
  · intro hm
    have := (h.range lo hm).1
    omega
  · intro i hi'
    obtain rfl | hi' := List.mem_cons.mp hi'
    · exact ⟨le_rfl, hlt⟩
    · have := h.range i hi'
      omega

theorem Fresh.mono {lo lo' hi : ℕ} {ids : List ℕ} (h : Fresh lo hi ids) (hlo : lo' ≤ lo) :
    Fresh lo' hi ids :=
  ⟨h.nodup, fun i hi => ⟨hlo.trans (h.range i hi).1, (h.range i hi).2⟩⟩

/-- Old ids below a bound and two consecutive blocks of fresh ones do not clash. -/
theorem nodup_append_fresh {old a b : List ℕ} {lo mid hi : ℕ} (ho : old.Nodup)
    (hb : ∀ i ∈ old, i < lo) (hlm : lo ≤ mid) (ha : Fresh lo mid a) (hbl : Fresh mid hi b) :
    (old ++ (a ++ b)).Nodup := by
  have hab : (a ++ b).Nodup := by
    refine List.nodup_append.mpr ⟨ha.nodup, hbl.nodup, ?_⟩
    intro i hi j hj hij
    have := (ha.range i hi).2
    have := (hbl.range j hj).1
    omega
  refine List.nodup_append.mpr ⟨ho, hab, ?_⟩
  intro i hi j hj hij
  have := hb i hi
  obtain hj | hj := List.mem_append.mp hj
  · have := (ha.range j hj).1
    omega
  · have := (hbl.range j hj).1
    omega

/-! ## One edit at a time -/

theorem ids_alloc {tl : ClipAudioTimeline} (h : Wf tl) (ids : List ℕ)
    (hids : ids = tl.events.map ClipAudioEvent.id ++ [(allocId tl.nextId).1]) :
    ids.Nodup ∧ ∀ i ∈ ids, i < (allocId tl.nextId).2 := by
  subst hids
  simp only [allocId]
  have hlt := h.ids_below
  constructor
  · refine List.nodup_append.mpr ⟨h.nodup, List.nodup_singleton _, ?_⟩
    intro i hi j hj hij
    have := hlt i hi
    have := List.mem_singleton.mp hj
    omega
  · intro i hi
    obtain hi | hi := List.mem_append.mp hi
    · have := hlt i hi
      omega
    · have := List.mem_singleton.mp hi
      omega

theorem wf_addEvent {tl : ClipAudioTimeline} (h : Wf tl) (ev : ClipAudioEvent) :
    Wf (tl.addEvent { ev with id := 0 }) := by
  simp only [addEvent, if_true]
  rw [wf_sort_iff]
  exact ids_alloc h _ (by simp)

theorem wf_removeEvent {tl : ClipAudioTimeline} (h : Wf tl) (id : ℕ) :
    Wf (tl.removeEvent id).1 := by
  have hsub : (tl.events.eraseP (fun e => e.id == id)).Sublist tl.events := List.eraseP_sublist
  refine ⟨h.sorted.sublist hsub, h.nodup.sublist (hsub.map _), ?_⟩
  intro e he
  exact h.below e (hsub.subset he)

theorem splitAt_left_id {e l r : ClipAudioEvent} {at_ n : ℕ} (h : e.splitAt at_ n = some (l, r)) :
    l.id = e.id ∧ r.id = n := by
  unfold ClipAudioEvent.splitAt at h
  split at h
  · cases h
  · cases h
    exact ⟨rfl, rfl⟩

theorem wf_bump {tl : ClipAudioTimeline} (h : Wf tl) :
    Wf { tl with nextId := (allocId tl.nextId).2 } := by
  refine ⟨h.sorted, h.nodup, ?_⟩
  intro e he
  have := h.below e he
  simp only [allocId]
  omega

theorem map_id_set {evs : List ClipAudioEvent} {idx : ℕ} {ev l : ClipAudioEvent}
    (hev : evs[idx]? = some ev) (hl : l.id = ev.id) :
    (evs.set idx l).map ClipAudioEvent.id = evs.map ClipAudioEvent.id := by
  obtain ⟨hlt, hget⟩ := List.getElem?_eq_some_iff.mp hev
  rw [List.map_set, hl, ← hget, ← List.getElem_map ClipAudioEvent.id (h := by simpa using hlt)]
  exact List.set_getElem_self _

theorem wf_splitAt {tl : ClipAudioTimeline} (h : Wf tl) (atFrame : ℕ) :
    Wf (tl.splitAt atFrame).1 := by
  unfold splitAt
  split
  · exact h
  · split
    · exact h
    · rename_i ev hev
      split
      · exact h
      · simp only
        split
        · exact wf_bump h
        · rename_i l r hs
          obtain ⟨hl, hr⟩ := splitAt_left_id hs
          rw [wf_sort_iff]
          refine ids_alloc h _ ?_
          rw [List.map_append, map_id_set hev hl, List.map_singleton, hr]

/-! ## Cutting -/

/-- The range lies strictly inside the event: the event is left on both sides. -/
def Spans (e : ClipAudioEvent) (start stop : ℕ) : Prop := e.clipStart < start ∧ stop < e.stop

instance (e : ClipAudioEvent) (start stop : ℕ) : Decidable (Spans e start stop) := by
  unfold Spans; infer_instance

theorem cutPieces_ids (e : ClipAudioEvent) {start stop : ℕ} (hlt : start < stop) :
    (e.cutPieces start stop).1.map ClipAudioEvent.id =
      if Spans e start stop then [e.id, e.id]
      else if start ≤ e.clipStart ∧ e.stop ≤ stop ∧ start < e.stop ∧ e.clipStart < stop then []
      else [e.id] := by
  unfold ClipAudioEvent.cutPieces
  by_cases hout : e.stop ≤ start ∨ stop ≤ e.clipStart
  · have hs : ¬ Spans e start stop := by unfold Spans; omega
    rw [if_pos hout, if_neg hs, if_neg (by omega)]
    rfl
  · rw [if_neg hout]
    by_cases hl : e.clipStart < start <;> by_cases hr : stop < e.stop
    · rw [if_pos hl, if_pos hr, if_pos ⟨hl, hr⟩]
      rfl
    · rw [if_pos hl, if_neg hr, if_neg (fun hs => hr hs.2), if_neg (by omega)]
      rfl
    · rw [if_neg hl, if_pos hr, if_neg (fun hs => hl hs.1), if_neg (by omega)]
      rfl
    · rw [if_neg hl, if_neg hr, if_neg (fun hs => hl hs.1), if_pos (by omega)]
      rfl

theorem closeGap_id (e : ClipAudioEvent) (start stop : ℕ) : (e.closeGap start stop).id = e.id := by
  unfold ClipAudioEvent.closeGap
  split_ifs <;> rfl

theorem cutRange_ids (evs : List ClipAudioEvent) (start stop : ℕ) :
    ((evs.flatMap (fun e => (e.cutPieces start stop).1)).map
        (fun e => e.closeGap start stop)).map ClipAudioEvent.id =
      evs.flatMap (fun e => (e.cutPieces start stop).1.map ClipAudioEvent.id) := by
  rw [List.map_map, List.map_flatMap]
  apply List.flatMap_congr
  intro e _
  apply List.map_congr_left
  intro p _
  exact closeGap_id p start stop

theorem cutRange_ids_sublist {start stop : ℕ} (hlt : start < stop) {evs : List ClipAudioEvent}
    (h : ∀ e ∈ evs, ¬ Spans e start stop) :
    (evs.flatMap (fun e => (e.cutPieces start stop).1.map ClipAudioEvent.id)).Sublist
      (evs.map ClipAudioEvent.id) := by
  induction evs with
  | nil => exact List.Sublist.refl _
  | cons e es ih =>
    have ih := ih (fun e he => h e (List.mem_cons_of_mem _ he))
    rw [List.flatMap_cons, List.map_cons, cutPieces_ids e hlt, if_neg (h e List.mem_cons_self)]
    split_ifs
    · exact ih.cons _
    · exact ih.cons_cons _

/-- A cut keeps the invariant precisely when no event reaches past both ends of the range. -/
theorem wf_cutRange_iff {tl : ClipAudioTimeline} (h : Wf tl) (start stop : ℕ) :
    Wf (tl.cutRange start stop).1 ↔ start < stop → ∀ e ∈ tl.events, ¬ Spans e start stop := by
  unfold cutRange
  by_cases hle : stop ≤ start
  · rw [if_pos hle]
    exact ⟨fun _ hlt => absurd hlt (by omega), fun _ => h⟩
  · have hlt : start < stop := by omega
    rw [if_neg hle]
    simp only
    rw [wf_sort_iff, cutRange_ids]
    constructor
    · rintro ⟨hn, _⟩ _ e he hs
      have he' := (List.nodup_flatMap.mp hn).1 e he
      rw [cutPieces_ids e hlt, if_pos hs] at he'
      simp at he'
    · intro hno
      have hsub := cutRange_ids_sublist hlt (hno hlt)
      exact ⟨h.nodup.sublist hsub, fun i hi => h.ids_below i (hsub.subset hi)⟩

/-! ## Pasting -/

/-- What the loop over the host events leaves: their ids as they were, and right halves under fresh
ids. -/
theorem openGap_ids (atFrame len next : ℕ) (evs : List ClipAudioEvent) :
    (openGap atFrame len next evs).1.map ClipAudioEvent.id = evs.map ClipAudioEvent.id ∧
      next ≤ (openGap atFrame len next evs).2.2 ∧
      Fresh next (openGap atFrame len next evs).2.2
        ((openGap atFrame len next evs).2.1.map ClipAudioEvent.id) := by
  induction evs generalizing next with
  | nil => exact ⟨rfl, le_rfl, Fresh.nil _ _⟩
  | cons e es ih =>
    unfold openGap
    split
    · obtain ⟨h1, h2, h3⟩ := ih next
      exact ⟨by simp [h1], h2, h3⟩
    · split
      · obtain ⟨h1, h2, h3⟩ := ih (next + 1)
        cases hs : e.splitAt atFrame next with
        | none => exact ⟨by simp [h1], by simp only; omega, h3.mono (by omega)⟩
        | some lr =>
          obtain ⟨_, hr⟩ := splitAt_left_id hs
          refine ⟨by simp [h1], by simp only; omega, ?_⟩
          simp only [List.map_cons, hr]
          exact h3.cons (by omega)
      · obtain ⟨h1, h2, h3⟩ := ih next
        exact ⟨by simp [h1], h2, h3⟩

theorem placeFragments_ids (atFrame : ℕ) (fs : List ClipAudioEvent) {next : ℕ} (hn : 1 ≤ next) :
    next ≤ (placeFragments atFrame next fs).2 ∧
      Fresh next (placeFragments atFrame next fs).2
        ((placeFragments atFrame next fs).1.map ClipAudioEvent.id) := by
  induction fs generalizing next with
  | nil => exact ⟨le_rfl, Fresh.nil _ _⟩
  | cons f fs ih =>
    have hmax : max next 1 = next := Nat.max_eq_left hn
    obtain ⟨h1, h2⟩ := ih (show 1 ≤ next + 1 by omega)
    simp only [placeFragments, allocId, hmax, List.map_cons]
    exact ⟨by omega, h2.cons (by omega)⟩

theorem wf_pasteInsert {tl : ClipAudioTimeline} (h : Wf tl) (atFrame : ℕ)
    (fragments : List ClipAudioEvent) : Wf (tl.pasteInsert atFrame fragments).1 := by
  unfold pasteInsert
  split
  · exact h
  · simp only
    set fs := fragments.insertionSort ClipAudioEvent.StartLE
    obtain ⟨h1, h2, h3⟩ := openGap_ids atFrame (pasteLen fs) (max tl.nextId 1) tl.events
    set opened := openGap atFrame (pasteLen fs) (max tl.nextId 1) tl.events
    obtain ⟨h4, h5⟩ := placeFragments_ids atFrame fs (show 1 ≤ opened.2.2 by omega)
    rw [wf_sort_iff, List.append_assoc, List.map_append, List.map_append, h1]
    have hold : ∀ i ∈ tl.events.map ClipAudioEvent.id, i < max tl.nextId 1 := by
      intro i hi
      have := h.ids_below i hi
      omega
    refine ⟨nodup_append_fresh h.nodup hold h2 h3 h5, ?_⟩
    intro i hi
    obtain hi | hi := List.mem_append.mp hi
    · have := hold i hi
      omega
    · obtain hi | hi := List.mem_append.mp hi
      · have := (h3.range i hi).2
        omega
      · exact (h5.range i hi).2

/-! ## Runs of edits -/

inductive Edit where
  | addEvent (ev : ClipAudioEvent)
  | removeEvent (id : ℕ)
  | splitAt (atFrame : ℕ)
  | cutRange (start stop : ℕ)
  | pasteInsert (atFrame : ℕ) (fragments : List ClipAudioEvent)

def edit (tl : ClipAudioTimeline) : Edit → ClipAudioTimeline
  | .addEvent ev => tl.addEvent { ev with id := 0 }
  | .removeEvent id => (tl.removeEvent id).1
  | .splitAt atFrame => (tl.splitAt atFrame).1
  | .cutRange start stop => (tl.cutRange start stop).1
  | .pasteInsert atFrame fragments => (tl.pasteInsert atFrame fragments).1

/-- A cut is clean when no event reaches past both ends of its range; every other edit is. -/
def CleanCut (tl : ClipAudioTimeline) : Edit → Prop
  | .cutRange start stop => start < stop → ∀ e ∈ tl.events, ¬ Spans e start stop
  | _ => True

theorem wf_edit_iff (tl : ClipAudioTimeline) (op : Edit) (h : Wf tl) :
    Wf (tl.edit op) ↔ CleanCut tl op := by
  cases op with
  | addEvent ev => exact ⟨fun _ => trivial, fun _ => wf_addEvent h ev⟩
  | removeEvent id => exact ⟨fun _ => trivial, fun _ => wf_removeEvent h id⟩
  | splitAt atFrame => exact ⟨fun _ => trivial, fun _ => wf_splitAt h atFrame⟩
  | cutRange start stop => exact wf_cutRange_iff h start stop
  | pasteInsert atFrame fragments => exact ⟨fun _ => trivial, fun _ => wf_pasteInsert h atFrame fragments⟩

/-- Over a run of edits from the empty timeline or from a single full event, every timeline reached
is well formed precisely when every cut of the run is clean. -/
theorem wf_along_edits (ops : List Edit) :
    (Always edit Wf empty ops ↔ Along edit CleanCut empty ops) ∧
      ∀ n, Always edit Wf (singleFull n) ops ↔ Along edit CleanCut (singleFull n) ops :=
  ⟨always_iff_along wf_edit_iff wf_empty, fun n => always_iff_along wf_edit_iff (wf_singleFull n)⟩

/-- One cut inside a single full event leaves two pieces with the event's id. -/
theorem cut_inside_duplicates_id :
    ¬ ∀ ops : List Edit, Always edit Wf (singleFull 10) ops := by
  intro h
  have hw := (h [.cutRange 2 5]).final
  exact absurd hw.nodup (by decide)

end HikaruOpenLive.Sequencer.ClipAudioTimeline
