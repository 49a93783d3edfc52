import Mathlib.Algebra.Order.Floor.Semifield
import HikaruOpenLive.Gui.PlaylistState

/-! # Copies of playlist clips

A paste and a duplicate append copies of clips behind the clips there are, each under an id above all
others and each snapped to the grid by itself. So the copies keep the distances of their originals
exactly when every place they should have is on the grid. A paste that should move the clips back to an
earlier tick leaves them where they were, since its shift is a truncated difference.
-/
set_option autoImplicit false

namespace HikaruOpenLive.Gui

/-! ## The grid -/

/-- In whole numbers, with halves rounded up. -/
theorem snapTicks_eq_div {grid : ℕ} (hgrid : 0 < grid) (ticks : ℕ) :
    snapTicks ticks grid = (2 * ticks + grid) / (2 * grid) * grid := by
  have hsum : (ticks / grid + 1 / 2 : ℚ) = ((2 * ticks + grid : ℕ) : ℚ) / ((2 * grid : ℕ) : ℚ) := by
    have hne : (grid : ℚ) ≠ 0 := by exact_mod_cast hgrid.ne'
    push_cast
    field_simp
  rw [snapTicks, if_neg hgrid.ne', hsum, Nat.floor_div_eq_div]

/-- A tick snaps to another one if that one is on the grid and no place of the grid is nearer. -/
theorem snapTicks_eq_iff {grid : ℕ} (hgrid : 0 < grid) (ticks place : ℕ) :
    snapTicks ticks grid = place ↔
      grid ∣ place ∧ 2 * place ≤ 2 * ticks + grid ∧ 2 * ticks < 2 * place + grid := by
  have hscale : ∀ k, k * (2 * grid) = 2 * (k * grid) := fun k => by ring
  have hnear : ∀ k, (2 * ticks + grid) / (2 * grid) = k ↔
      2 * (k * grid) ≤ 2 * ticks + grid ∧ 2 * ticks < 2 * (k * grid) + grid := by
    intro k
    rw [Nat.div_eq_iff (by omega), hscale]
    constructor
    · rintro ⟨hle, hlt⟩
      omega
    · rintro ⟨hle, hlt⟩
      omega
  rw [snapTicks_eq_div hgrid]
  constructor
  · rintro rfl
    exact ⟨Nat.dvd_mul_left _ _, (hnear _).mp rfl⟩
  · rintro ⟨⟨k, rfl⟩, hside⟩
    rw [Nat.mul_comm grid k] at hside ⊢
    rw [(hnear k).mpr hside]

theorem snapTicks_eq_self_iff (ticks grid : ℕ) : snapTicks ticks grid = ticks ↔ grid = 0 ∨ grid ∣ ticks := by
  obtain rfl | hgrid := Nat.eq_zero_or_pos grid
  · exact ⟨fun _ => Or.inl rfl, fun _ => rfl⟩
  · rw [snapTicks_eq_iff hgrid]
    constructor
    · exact fun h => Or.inr h.1
    · rintro (hzero | hdvd)
      · omega
      · exact ⟨hdvd, by omega, by omega⟩

/-! ## Copies -/

namespace PlaylistState

/-- The copies of clips on their own rows, under these ids and at these places. -/
def copies (place : PlaylistClip → ℕ) (ids : List ℕ) (entries : List (ℕ × PlaylistClip)) :
    List (ℕ × PlaylistClip) :=
  List.zipWith (fun id x => (x.1, { x.2 with id := id, startTick := place x.2 })) ids entries

/-- After the clips of `s` there are copies of the entries at these places, under ids of their own. -/
structure Copied (s s' : PlaylistState) (ids : List ℕ) (entries : List (ℕ × PlaylistClip))
    (place : PlaylistClip → ℕ) : Prop where
  clips : s'.clips = s.clips ++ copies place ids entries
  length : ids.length = entries.length
  fresh : ∀ id ∈ ids, ∀ x ∈ s.clips, x.2.id ≠ id
  distinct : ids.Nodup

section

variable {place place' : PlaylistClip → ℕ} {ids : List ℕ} {entries : List (ℕ × PlaylistClip)}

theorem getElem?_copies (i : ℕ) :
    (copies place ids entries)[i]? = ids[i]?.bind fun id => entries[i]?.map fun x =>
      (x.1, { x.2 with id := id, startTick := place x.2 }) := by
  rw [copies, List.getElem?_zipWith]
  cases ids[i]? with
  | none => rfl
  | some id =>
    cases entries[i]? with
    | none => rfl
    | some x => rfl

theorem mem_copies {y : ℕ × PlaylistClip} (h : y ∈ copies place ids entries) :
    ∃ id ∈ ids, ∃ x ∈ entries, y = (x.1, { x.2 with id := id, startTick := place x.2 }) := by
  obtain ⟨i, hi⟩ := List.mem_iff_getElem?.mp h
  rw [getElem?_copies] at hi
  obtain ⟨id, hid, hy⟩ := Option.bind_eq_some_iff.mp hi
  obtain ⟨x, hx, rfl⟩ := Option.map_eq_some_iff.mp hy
  exact ⟨id, List.mem_of_getElem? hid, x, List.mem_of_getElem? hx, rfl⟩

theorem starts_copies (h : ids.length = entries.length) :
    (copies place ids entries).map (fun y => y.2.startTick) = entries.map fun x => place x.2 := by
  unfold copies
  induction entries generalizing ids with
  | nil => rw [List.zipWith_nil_right]; rfl
  | cons x entries ih =>
    cases ids with
    | nil => simp at h
    | cons id ids =>
      rw [List.zipWith_cons_cons, List.map_cons, List.map_cons, ih (Nat.succ.inj h)]

theorem Copied.starts {s s' : PlaylistState} (h : Copied s s' ids entries place) :
    s'.clips.map (fun y => y.2.startTick) =
      s.clips.map (fun y => y.2.startTick) ++ entries.map fun x => place x.2 := by
  rw [h.clips, List.map_append, starts_copies h.length]

/-- Copies under the same ids are the same if they are at the same places. -/
theorem copies_eq_iff (h : ids.length = entries.length) :
    copies place ids entries = copies place' ids entries ↔ ∀ x ∈ entries, place x.2 = place' x.2 := by
  constructor
  · intro heq
    have hstarts := congrArg (List.map fun y => y.2.startTick) heq
    rw [starts_copies h, starts_copies h] at hstarts
    exact List.map_inj_left.mp hstarts
  · intro hplaces
    apply List.ext_getElem?
    intro i
    rw [getElem?_copies, getElem?_copies]
    cases hid : ids[i]? with
    | none => rfl
    | some id =>
      cases hx : entries[i]? with
      | none => rfl
      | some x =>
        rw [Option.bind_some, Option.bind_some, Option.map_some, Option.map_some,
          hplaces x (List.mem_of_getElem? hx)]

end

/-! ## Ids -/

/-- A copy takes the free id, and the next free id is above it. -/
theorem lt_nextFreeClipId_appendCopy (delta grid : ℕ) (r : PlaylistState × List ℕ)
    (entry : ℕ × PlaylistClip) :
    r.1.nextFreeClipId < (appendCopy delta grid r entry).1.nextFreeClipId :=
  lt_nextFreeClipId_of_mem (s := (appendCopy delta grid r entry).1)
    (List.mem_append_right _ (List.mem_singleton_self _))

/-- Appended one by one, the copies have increasing ids from the free one on. -/
theorem foldl_appendCopy_copies (delta grid : ℕ) (entries : List (ℕ × PlaylistClip))
    (r : PlaylistState × List ℕ) :
    ∃ ids, (entries.foldl (appendCopy delta grid) r).2 = r.2 ++ ids ∧ ids.length = entries.length ∧
      (entries.foldl (appendCopy delta grid) r).1.clips =
        r.1.clips ++ copies (fun c => snapTicks (c.startTick + delta) grid) ids entries ∧
      ids.Pairwise (· < ·) ∧ ∀ id ∈ ids, r.1.nextFreeClipId ≤ id := by
  induction entries generalizing r with
  | nil => exact ⟨[], by simp, rfl, by simp [copies], List.Pairwise.nil, by simp⟩
  | cons entry entries ih =>
    obtain ⟨ids, hids, hlength, hclips, hsorted, hfree⟩ := ih (appendCopy delta grid r entry)
    have hnext := lt_nextFreeClipId_appendCopy delta grid r entry
    refine ⟨r.1.nextFreeClipId :: ids, ?_, by rw [List.length_cons, hlength, List.length_cons], ?_, ?_, ?_⟩
    · rw [List.foldl_cons, hids]
      exact (List.append_assoc _ _ _).trans rfl
    · rw [List.foldl_cons, hclips]
      exact (List.append_assoc _ _ _).trans rfl
    · exact List.pairwise_cons.mpr ⟨fun id hid => hnext.trans_le (hfree id hid), hsorted⟩
    · intro id hid
      obtain rfl | hid := List.mem_cons.mp hid
      · exact le_rfl
      · exact hnext.le.trans (hfree id hid)

/-- What an edit that copies clips does: each copy is snapped by itself. -/
theorem copied_appendCopies (s : PlaylistState) (entries : List (ℕ × PlaylistClip)) (delta grid : ℕ) :
    Copied s (s.appendCopies entries delta grid).1 (s.appendCopies entries delta grid).2 entries
        (fun c => snapTicks (c.startTick + delta) grid) ∧
      (s.appendCopies entries delta grid).1.selectedClips = (s.appendCopies entries delta grid).2 := by
  obtain ⟨ids, hids, hlength, hclips, hsorted, hfree⟩ :=
    foldl_appendCopy_copies delta grid entries (s, [])
  have hsnd : (s.appendCopies entries delta grid).2 = ids := by
    rw [appendCopies, hids, List.nil_append]
  refine ⟨?_, rfl⟩
  rw [hsnd]
  refine ⟨hclips, hlength, fun id hid x hx heq => ?_, hsorted.imp Nat.ne_of_lt⟩
  have hlt := lt_nextFreeClipId_of_mem hx
  have hle := hfree id hid
  simp only at hle
  omega

/-- The copies are at some places if snapping takes each there. -/
theorem copied_appendCopies_iff (s : PlaylistState) (entries : List (ℕ × PlaylistClip))
    (delta grid : ℕ) (place : PlaylistClip → ℕ) :
    Copied s (s.appendCopies entries delta grid).1 (s.appendCopies entries delta grid).2 entries place ↔
      ∀ x ∈ entries, snapTicks (x.2.startTick + delta) grid = place x.2 := by
  obtain ⟨hcopied, _⟩ := copied_appendCopies s entries delta grid
  have hplaces : copies (fun c => snapTicks (c.startTick + delta) grid) _ entries =
      copies place (s.appendCopies entries delta grid).2 entries ↔
        ∀ x ∈ entries, snapTicks (x.2.startTick + delta) grid = place x.2 :=
    copies_eq_iff hcopied.length
  rw [← hplaces]
  constructor
  · intro h
    exact List.append_cancel_left (hcopied.clips.symm.trans h.clips)
  · intro h
    exact ⟨h ▸ hcopied.clips, hcopied.length, hcopied.fresh, hcopied.distinct⟩

/-! ## Pasting -/

/-- How far a clip is behind the first one copied. -/
def fromFirst (clips : List (ℕ × PlaylistClip)) (c : PlaylistClip) : ℕ :=
  c.startTick - (selectionSpan clips).1

theorem first_le {clips : List (ℕ × PlaylistClip)} {x : ℕ × PlaylistClip} (h : x ∈ clips) :
    (selectionSpan clips).1 ≤ x.2.startTick :=
  List.min?_getD_le_of_mem (List.mem_map.mpr ⟨x, h, rfl⟩)

/-- A clip of a group whose first one starts at `first` lands `distance` behind `atTick`: that place
is on the grid, and the group moves to the right or by less than half a step to the left. -/
def Lands (grid atTick first distance : ℕ) : Prop :=
  (grid = 0 ∨ grid ∣ atTick + distance) ∧ (first ≤ atTick ∨ 2 * (first - atTick) < grid)

theorem lands_iff (grid atTick first distance : ℕ) :
    snapTicks (first + distance + (atTick - first)) grid = atTick + distance ↔
      Lands grid atTick first distance := by
  unfold Lands
  obtain hle | hlt := le_or_gt first atTick
  · have hplace : first + distance + (atTick - first) = atTick + distance := by omega
    rw [hplace, snapTicks_eq_self_iff]
    exact ⟨fun h => ⟨h, Or.inl hle⟩, fun h => h.1⟩
  · have hplace : first + distance + (atTick - first) = first + distance := by omega
    rw [hplace]
    obtain rfl | hgrid := Nat.eq_zero_or_pos grid
    · rw [snapTicks, if_pos rfl]
      omega
    · rw [snapTicks_eq_iff hgrid]
      constructor
      · rintro ⟨hdvd, _, hside⟩
        exact ⟨Or.inr hdvd, Or.inr (by omega)⟩
      · rintro ⟨hdvd, hside⟩
        exact ⟨hdvd.resolve_left hgrid.ne', by omega, by omega⟩

/-- From the first start to the last end. -/
def extent (clips : List (ℕ × PlaylistClip)) : ℕ :=
  (selectionSpan clips).2 - (selectionSpan clips).1

/-- Two clips that share no tick of a row. -/
def Apart (x y : ℕ × PlaylistClip) : Prop :=
  x.1 = y.1 → x.2.startTick + x.2.durationTicks ≤ y.2.startTick ∨
    y.2.startTick + y.2.durationTicks ≤ x.2.startTick

instance (x y : ℕ × PlaylistClip) : Decidable (Apart x y) :=
  inferInstanceAs (Decidable (_ → _))

/-- The clips that an edit has added. -/
def added (s s' : PlaylistState) : List (ℕ × PlaylistClip) :=
  s'.clips.drop s.clips.length

/-- A copy of each selected clip, all further on by the extent of the selection: they are what is
selected then, and they share no tick with the originals or with each other if the originals share
none. -/
structure Duplicated (s s' : PlaylistState) (ids : List ℕ) : Prop where
  copied : Copied s s' ids s.selected fun c => c.startTick + extent s.selected
  selected : s'.selected = added s s'
  apart : s.selected.Pairwise Apart → (s.selected ++ added s s').Pairwise Apart

section

variable {s s' : PlaylistState} {ids : List ℕ} {entries : List (ℕ × PlaylistClip)}
  {place : PlaylistClip → ℕ}

theorem Copied.added_eq (h : Copied s s' ids entries place) : added s s' = copies place ids entries := by
  rw [added, h.clips, List.drop_left]

/-- The clips under the new ids are the copies. -/
theorem Copied.selected_eq (h : Copied s s' ids entries place) (hids : s'.selectedClips = ids) :
    s'.selected = added s s' := by
  have hold : s.clips.filter (fun x => decide (x.2.id ∈ ids)) = [] :=
    List.filter_eq_nil_iff.mpr fun x hx hid =>
      h.fresh x.2.id (of_decide_eq_true hid) x hx rfl
  have hnew : (copies place ids entries).filter (fun x => decide (x.2.id ∈ ids)) =
      copies place ids entries := by
    refine List.filter_eq_self.mpr fun y hy => ?_
    obtain ⟨id, hid, x, _, rfl⟩ := mem_copies hy
    exact decide_eq_true hid
  show s'.clips.filter (fun x => decide (x.2.id ∈ s'.selectedClips)) = added s s'
  rw [h.added_eq, hids, h.clips, List.filter_append, hold, hnew, List.nil_append]

theorem end_le {clips : List (ℕ × PlaylistClip)} {x : ℕ × PlaylistClip} (h : x ∈ clips) :
    x.2.startTick + x.2.durationTicks ≤ (selectionSpan clips).2 :=
  List.le_max?_getD_of_mem (List.mem_map.mpr ⟨x, h, rfl⟩)

/-- Clips that move together stay apart. -/
theorem pairwise_apart_shift (h : entries.Pairwise Apart) (shift : ℕ) (ids : List ℕ) :
    (copies (fun c => c.startTick + shift) ids entries).Pairwise Apart := by
  induction entries generalizing ids with
  | nil =>
    rw [copies, List.zipWith_nil_right]
    exact List.Pairwise.nil
  | cons x entries ih =>
    cases ids with
    | nil => exact List.Pairwise.nil
    | cons id ids =>
      obtain ⟨hx, hrest⟩ := List.pairwise_cons.mp h
      rw [copies, List.zipWith_cons_cons]
      refine List.pairwise_cons.mpr ⟨fun y hy hrow => ?_, ih hrest ids⟩
      have hcopy : y ∈ copies (fun c => c.startTick + shift) ids entries := hy
      obtain ⟨_, _, z, hz, rfl⟩ := mem_copies hcopy
      have hapart := hx z hz hrow
      simp only
      omega

/-- Copies shifted by the extent begin where the last original ends. -/
theorem pairwise_apart_copies (h : entries.Pairwise Apart) (ids : List ℕ) :
    (entries ++ copies (fun c => c.startTick + extent entries) ids entries).Pairwise Apart := by
  refine List.pairwise_append.mpr ⟨h, pairwise_apart_shift h _ ids, ?_⟩
  intro x hx y hy _
  obtain ⟨id, _, z, hz, rfl⟩ := mem_copies hy
  have hfirst := first_le hz
  have hlast := end_le hx
  refine Or.inl ?_
  simp only [extent]
  omega

end

end PlaylistState

end HikaruOpenLive.Gui
