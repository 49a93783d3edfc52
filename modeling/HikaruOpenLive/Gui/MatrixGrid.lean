import HikaruOpenLive.Foundations.Grid
import HikaruOpenLive.Foundations.Runs
import HikaruOpenLive.Gui.MatrixProject

/-! # The grid of the matrix stays rectangular

Every edit made on a shown pad succeeds on a rectangular matrix and leaves it rectangular
(`edit_rectangular`), so what matters is the matrix a project is applied as. Applying cuts the rows to the
tracks but only the first row to the scenes, and adds neither rows nor slots; `applied_rectangular_iff` is
the exact condition on the file.
-/
set_option autoImplicit false

namespace HikaruOpenLive.Gui

open Foundations.Grid Foundations.ListEdits Foundations.Runs

namespace SessionMatrixState

/-- As many rows as tracks, every row as long as the scenes, and the selected slot inside. -/
structure Rectangular (m : SessionMatrixState) : Prop where
  shape : Shape m.grid m.tracks.length m.scenes.length
  selected : ∀ slot, m.selectedSlot = some slot →
    slot.1 < m.tracks.length ∧ slot.2 < m.scenes.length

/-! ## What an edit does to the slots -/

theorem slot?_modifySlot (m : SessionMatrixState) (track scene : ℕ) (f : MatrixSlot → MatrixSlot)
    (t s : ℕ) :
    (m.modifySlot track scene f).slot? t s =
      if t = track ∧ s = scene then (m.slot? track scene).map f else m.slot? t s :=
  cell?_modifyCell m.grid track scene f t s

theorem Rectangular.slot {m : SessionMatrixState} (h : m.Rectangular) {track scene : ℕ}
    (ht : track < m.tracks.length) (hs : scene < m.scenes.length) :
    ∃ slot, m.slot? track scene = some slot :=
  exists_cell h.shape ht hs

theorem Rectangular.modifySlot {m : SessionMatrixState} (h : m.Rectangular) (track scene : ℕ)
    (f : MatrixSlot → MatrixSlot) : (m.modifySlot track scene f).Rectangular :=
  ⟨modifyCell_shape h.shape track scene f, h.selected⟩

theorem writeSlot_eq_some {m m' : SessionMatrixState} {track scene : ℕ} {slot : MatrixSlot}
    (h : m.writeSlot track scene slot = some m') : m' = m.modifySlot track scene fun _ => slot := by
  obtain ⟨_, _, h⟩ := Option.map_eq_some_iff.mp h
  exact h.symm

theorem Rectangular.writeSlot {m : SessionMatrixState} (h : m.Rectangular) {track scene : ℕ}
    (ht : track < m.tracks.length) (hs : scene < m.scenes.length) (slot : MatrixSlot) :
    m.writeSlot track scene slot = some (m.modifySlot track scene fun _ => slot) := by
  obtain ⟨old, hold⟩ := h.slot ht hs
  rw [SessionMatrixState.writeSlot, hold]
  rfl

/-- Stopping the others changes only the states of playing slots in the row. -/
theorem slot?_stopOthers {m m' : SessionMatrixState} {track scene : ℕ}
    (h : m.stopOthers track scene = some m') (t s : ℕ) :
    m'.slot? t s = (m.slot? t s).map fun slot =>
      if t = track ∧ s < m.scenes.length ∧ s ≠ scene ∧ slot.state = .playing then
        { slot with state := .stopped }
      else slot := by
  obtain ⟨row, hrow, h⟩ := Option.bind_eq_some_iff.mp h
  split at h
  case isFalse => exact absurd h (by simp)
  case isTrue =>
    rw [← Option.some.inj h]
    have hlt := lt_of_getElem? hrow
    refine (cell?_set m.grid track _ t s hlt).trans ?_
    by_cases ht : t = track
    · subst ht
      have hslot : m.slot? t s = row[s]? := by
        rw [slot?, hrow]
        rfl
      rw [if_pos rfl, List.getElem?_mapIdx, hslot]
      simp
    · rw [if_neg ht]
      simp only [ht, false_and, if_false, Option.map_id']
      rfl

theorem stopOthers_frame {m m' : SessionMatrixState} {track scene : ℕ}
    (h : m.stopOthers track scene = some m') :
    m'.tracks = m.tracks ∧ m'.scenes = m.scenes ∧ m'.selectedSlot = m.selectedSlot := by
  obtain ⟨row, _, h⟩ := Option.bind_eq_some_iff.mp h
  split at h
  case isFalse => exact absurd h (by simp)
  case isTrue =>
    rw [← Option.some.inj h]
    exact ⟨rfl, rfl, rfl⟩

theorem Rectangular.stopOthers {m : SessionMatrixState} (h : m.Rectangular) {track : ℕ}
    (ht : track < m.tracks.length) (scene : ℕ) :
    ∃ m', m.stopOthers track scene = some m' ∧ m'.Rectangular := by
  obtain ⟨hrows, hcolumns⟩ := h.shape
  have hlt : track < m.grid.length := by omega
  have hrow := hcolumns m.grid[track] (List.getElem_mem hlt)
  rw [SessionMatrixState.stopOthers, List.getElem?_eq_getElem hlt, Option.bind_some,
    if_pos (by omega)]
  exact ⟨_, rfl, shape_set h.shape track (by rw [List.length_mapIdx, hrow]), h.selected⟩

theorem Rectangular.launchTrack {m : SessionMatrixState} (h : m.Rectangular) {track scene : ℕ}
    (ht : track < m.tracks.length) (hs : scene < m.scenes.length) :
    ∃ m', launchTrack scene m track = some m' ∧ m'.Rectangular ∧
      m'.tracks = m.tracks ∧ m'.scenes = m.scenes := by
  obtain ⟨slot, hslot⟩ := h.slot ht hs
  rw [SessionMatrixState.launchTrack, hslot, Option.bind_some]
  split
  · obtain ⟨stopped, hstopped, hrect⟩ := h.stopOthers ht scene
    obtain ⟨htracks, hscenes, _⟩ := stopOthers_frame hstopped
    rw [hstopped]
    exact ⟨_, rfl, hrect.modifySlot track scene _, htracks, hscenes⟩
  · exact ⟨m, rfl, h, rfl, rfl⟩

theorem Rectangular.triggerScene {m : SessionMatrixState} (h : m.Rectangular) {scene : ℕ}
    (hs : scene < m.scenes.length) :
    ∃ m' cmds, m.triggerScene scene = some (m', cmds) ∧ m'.Rectangular := by
  let Kept (m' : SessionMatrixState) : Prop :=
    m'.Rectangular ∧ m'.tracks = m.tracks ∧ m'.scenes = m.scenes
  have hstep : ∀ m', ∀ track ∈ List.range m.tracks.length, Kept m' →
      ∃ m'', SessionMatrixState.launchTrack scene m' track = some m'' ∧ Kept m'' := by
    intro m' track htrack ⟨hrect, htracks, hscenes⟩
    have hlt : track < m'.tracks.length := by
      rw [htracks]
      exact List.mem_range.mp htrack
    have hs' : scene < m'.scenes.length := by
      rw [hscenes]
      exact hs
    obtain ⟨m'', hlaunch, hrect', htracks', hscenes'⟩ := hrect.launchTrack hlt hs'
    exact ⟨m'', hlaunch, hrect', htracks'.trans htracks, hscenes'.trans hscenes⟩
  obtain ⟨launched, hfold, hrect, _⟩ := foldlM_of_step hstep ⟨h, rfl, rfl⟩
  rw [SessionMatrixState.triggerScene, hfold]
  exact ⟨launched, _, rfl, hrect⟩

/-! ## The edits -/

theorem Rectangular.addTrack {m : SessionMatrixState} (h : m.Rectangular) : m.addTrack.Rectangular := by
  refine ⟨?_, ?_⟩
  · have hrow : (List.replicate m.scenes.length MatrixSlot.default).length = m.scenes.length :=
      List.length_replicate
    simpa [SessionMatrixState.addTrack] using shape_append h.shape hrow
  · intro slot hslot
    obtain ⟨ht, hs⟩ := h.selected slot hslot
    simp only [SessionMatrixState.addTrack, List.length_append, List.length_singleton]
    exact ⟨by omega, hs⟩

theorem Rectangular.removeTrack {m : SessionMatrixState} (h : m.Rectangular) :
    m.removeTrack.Rectangular := by
  unfold SessionMatrixState.removeTrack
  split
  · refine ⟨?_, ?_⟩
    · simpa using shape_dropLast h.shape
    · intro slot hslot
      obtain ⟨hsel, hlt⟩ := Option.filter_eq_some_iff.mp hslot
      have hlt := of_decide_eq_true hlt
      simp only [List.length_dropLast]
      exact ⟨hlt, (h.selected slot hsel).2⟩
  · exact h

theorem Rectangular.addScene {m : SessionMatrixState} (h : m.Rectangular) : m.addScene.Rectangular := by
  refine ⟨?_, ?_⟩
  · have hrow : ∀ row : List MatrixSlot, row.length = m.scenes.length →
        (row ++ [MatrixSlot.default]).length = m.scenes.length + 1 := by
      intro row hrow
      simp [hrow]
    simpa [SessionMatrixState.addScene] using shape_map h.shape hrow
  · intro slot hslot
    obtain ⟨ht, hs⟩ := h.selected slot hslot
    simp only [SessionMatrixState.addScene, List.length_append, List.length_singleton]
    exact ⟨ht, by omega⟩

theorem Rectangular.removeScene {m : SessionMatrixState} (h : m.Rectangular) :
    m.removeScene.Rectangular := by
  unfold SessionMatrixState.removeScene
  split
  · refine ⟨?_, ?_⟩
    · have hrow : ∀ row : List MatrixSlot, row.length = m.scenes.length →
          row.dropLast.length = m.scenes.length - 1 := by
        intro row hrow
        rw [List.length_dropLast, hrow]
      simpa using shape_map h.shape hrow
    · intro slot hslot
      obtain ⟨hsel, hlt⟩ := Option.filter_eq_some_iff.mp hslot
      have hlt := of_decide_eq_true hlt
      simp only [List.length_dropLast]
      exact ⟨(h.selected slot hsel).1, hlt⟩
  · exact h

theorem Rectangular.loadClipIntoSlot {m : SessionMatrixState} (h : m.Rectangular) (disk : Disk)
    {track scene : ℕ} (ht : track < m.tracks.length) (hs : scene < m.scenes.length)
    (path : String) :
    ∃ m' cmds, m.loadClipIntoSlot disk track scene path = some (m', cmds) ∧ m'.Rectangular := by
  have hnext : ({ m with nextClipId := m.nextClipId + 1 } : SessionMatrixState).Rectangular :=
    ⟨h.shape, h.selected⟩
  unfold SessionMatrixState.loadClipIntoSlot
  simp only
  split
  · rw [hnext.writeSlot ht hs]
    exact ⟨_, _, rfl, hnext.modifySlot track scene _⟩
  · split
    · exact ⟨_, _, rfl, hnext.modifySlot track scene _⟩
    · rw [hnext.writeSlot ht hs]
      exact ⟨_, _, rfl, hnext.modifySlot track scene _⟩

theorem Rectangular.placeSlot {m : SessionMatrixState} (h : m.Rectangular) {track scene : ℕ}
    (ht : track < m.tracks.length) (hs : scene < m.scenes.length) (slot : MatrixSlot) :
    ∃ m' cmds, m.placeSlot track scene slot = some (m', cmds) ∧ m'.Rectangular := by
  have hnext : ({ m with nextClipId := m.nextClipId + 1 } : SessionMatrixState).Rectangular :=
    ⟨h.shape, h.selected⟩
  unfold SessionMatrixState.placeSlot
  simp only
  rw [hnext.writeSlot ht hs]
  exact ⟨_, _, rfl, hnext.modifySlot track scene _⟩

theorem Rectangular.pasteSlot {m : SessionMatrixState} (h : m.Rectangular)
    (clipboard : Option MatrixSlot) {track scene : ℕ} (ht : track < m.tracks.length)
    (hs : scene < m.scenes.length) :
    ∃ m' cmds, m.pasteSlot clipboard track scene = some (m', cmds) ∧ m'.Rectangular := by
  cases clipboard with
  | none => exact ⟨m, [], rfl, h⟩
  | some copied => exact h.placeSlot ht hs _

theorem Rectangular.duplicateSlot {m : SessionMatrixState} (h : m.Rectangular) {track scene : ℕ}
    (ht : track < m.tracks.length) (hs : scene < m.scenes.length) :
    ∃ m' cmds, m.duplicateSlot track scene = some (m', cmds) ∧ m'.Rectangular := by
  unfold SessionMatrixState.duplicateSlot
  simp only
  split
  · exact ⟨m, [], rfl, h⟩
  · obtain ⟨slot, hslot⟩ := h.slot ht hs
    rw [hslot, Option.bind_some]
    exact h.placeSlot ht (by omega) slot

theorem Rectangular.triggerPad {m : SessionMatrixState} (h : m.Rectangular) {track : ℕ}
    (ht : track < m.tracks.length) (scene : ℕ) :
    ∃ m' cmds, m.triggerPad track scene = some (m', cmds) ∧ m'.Rectangular := by
  obtain ⟨stopped, hstopped, hrect⟩ := h.stopOthers ht scene
  unfold SessionMatrixState.triggerPad
  split
  · split
    · rw [hstopped]
      exact ⟨_, _, rfl, hrect.modifySlot track scene _⟩
    · exact ⟨_, _, rfl, h.modifySlot track scene _⟩
    · exact ⟨_, _, rfl, h.modifySlot track scene _⟩
    · exact ⟨_, _, rfl, h.modifySlot track scene _⟩
    · exact ⟨m, [], rfl, h⟩
  · exact ⟨m, [], rfl, h⟩

end SessionMatrixState

namespace MatrixSession

open SessionMatrixState

/-- An edit made on a shown pad of a rectangular matrix panics nowhere and leaves it rectangular. -/
theorem edit_rectangular {d : MatrixSession} (h : d.matrix.Rectangular) (disk : Disk) {e : MatrixEdit}
    (hshown : d.matrix.shows e = true) :
    ∃ d' cmds, d.edit disk e = some (d', cmds) ∧ d'.matrix.Rectangular := by
  have hwith : ∀ {r : Option (SessionMatrixState × List PadCommand)},
      (∃ m' cmds, r = some (m', cmds) ∧ m'.Rectangular) →
        ∃ d' cmds, r.map d.withMatrix = some (d', cmds) ∧ d'.matrix.Rectangular := by
    intro r ⟨m', cmds, hr, hrect⟩
    exact ⟨{ d with matrix := m' }, cmds, by rw [hr]; rfl, hrect⟩
  cases e with
  | addTrack => exact ⟨_, _, rfl, h.addTrack⟩
  | removeTrack => exact ⟨_, _, rfl, h.removeTrack⟩
  | addScene => exact ⟨_, _, rfl, h.addScene⟩
  | removeScene => exact ⟨_, _, rfl, h.removeScene⟩
  | select track scene =>
    have hin := of_decide_eq_true hshown
    refine ⟨_, _, rfl, h.shape, ?_⟩
    intro slot hslot
    rw [← Option.some.inj hslot]
    exact hin
  | load track scene path =>
    have hin := of_decide_eq_true hshown
    exact hwith (h.loadClipIntoSlot disk hin.1 hin.2 path)
  | copy track scene => exact ⟨_, _, rfl, h⟩
  | cut track scene => exact ⟨_, _, rfl, h.modifySlot track scene _⟩
  | paste track scene =>
    have hin := of_decide_eq_true hshown
    exact hwith (h.pasteSlot d.clipboard hin.1 hin.2)
  | duplicate track scene =>
    have hin := of_decide_eq_true hshown
    exact hwith (h.duplicateSlot hin.1 hin.2)
  | delete track scene => exact ⟨_, _, rfl, h.modifySlot track scene _⟩
  | triggerPad track scene =>
    have hin := of_decide_eq_true hshown
    exact hwith (h.triggerPad hin.1 scene)
  | triggerScene scene => exact hwith (h.triggerScene (of_decide_eq_true hshown))

/-- The application runs, on a rectangular matrix. -/
def GridOk (d : Option MatrixSession) : Prop :=
  ∃ s, d = some s ∧ s.matrix.Rectangular

theorem gridOk_step (disk : Disk) (d : Option MatrixSession) (e : MatrixEdit) (h : GridOk d) :
    GridOk (step disk d e) := by
  obtain ⟨s, rfl, hrect⟩ := h
  unfold step
  rw [Option.bind_some]
  split
  case isTrue hshown =>
    obtain ⟨s', cmds, hedit, hrect'⟩ := edit_rectangular hrect disk hshown
    exact ⟨s', by rw [hedit]; rfl, hrect'⟩
  case isFalse => exact ⟨s, rfl, hrect⟩

end MatrixSession

/-! ## The applied matrix -/

/-- A grid cut to `m` rows, its first row to `n` slots, is `m` by `n` if it has the rows, the first is long
enough and each of the others has the length already. -/
theorem shape_cut_iff (g : List (List MatrixSlot)) (m n : ℕ) :
    Shape ((g.take m).modifyHead fun row => row.take n) m n ↔
      m ≤ g.length ∧ ∀ t < m, ∀ row, g[t]? = some row →
        n ≤ row.length ∧ (0 < t → row.length = n) := by
  cases m with
  | zero => simp [Shape]
  | succ m =>
    cases g with
    | nil => simp [Shape]
    | cons first rest =>
      simp only [List.take_succ_cons, List.modifyHead_cons, Shape, List.length_cons,
        List.length_take, List.forall_mem_cons]
      constructor
      · rintro ⟨hrows, hfirst, hrest⟩
        refine ⟨by omega, ?_⟩
        intro t ht row hrow
        cases t with
        | zero =>
          rw [← Option.some.inj hrow]
          exact ⟨by omega, fun h => absurd h (Nat.lt_irrefl 0)⟩
        | succ t =>
          have hmem : row ∈ rest.take m := by
            refine List.mem_of_getElem? (i := t) ?_
            rw [List.getElem?_take_of_lt (by omega)]
            exact hrow
          have hlen := hrest row hmem
          exact ⟨hlen.ge, fun _ => hlen⟩
      · rintro ⟨hrows, hall⟩
        have hfirst := (hall 0 (Nat.succ_pos m) first rfl).1
        refine ⟨by omega, by omega, ?_⟩
        intro row hmem
        obtain ⟨t, ht⟩ := List.mem_iff_getElem?.mp hmem
        have hlt : t < m := by
          have := lt_of_getElem? ht
          rw [List.length_take] at this
          omega
        rw [List.getElem?_take_of_lt hlt] at ht
        exact (hall (t + 1) (by omega) row ht).2 (Nat.succ_pos t)

/-- The lists of a file fit together. A file without scenes gets the default grid, of eight scenes, of
which only the first row is cut. -/
def OpenLiveFile.Matrix.Fits (saved : OpenLiveFile.Matrix) : Prop :=
  if saved.tracks ≠ [] ∧ saved.scenes ≠ [] then
    saved.tracks.length ≤ saved.grid.length ∧
      ∀ t < saved.tracks.length, ∀ row, saved.grid[t]? = some row →
        saved.scenes.length ≤ row.length ∧ (0 < t → row.length = saved.scenes.length)
  else saved.tracks.length ≤ 1

theorem defaultGrid_row {t : ℕ} {row : List MatrixSlot}
    (h : SessionMatrixState.default.grid[t]? = some row) : row.length = 8 := by
  have hmem : row ∈ List.replicate 8 (List.replicate 8 MatrixSlot.default) := List.mem_of_getElem? h
  rw [List.eq_of_mem_replicate hmem, List.length_replicate]

theorem applied_rectangular_iff (disk : Disk) (baseDir : Option String) (saved : OpenLiveFile.Matrix) :
    (appliedMatrix disk baseDir saved).Rectangular ↔ saved.Fits := by
  have hshape : (appliedMatrix disk baseDir saved).Rectangular ↔
      Shape (appliedGrid disk baseDir saved) saved.tracks.length saved.scenes.length := by
    constructor
    · intro h
      exact h.shape
    · intro h
      exact ⟨h, fun slot hslot => absurd hslot (by simp [appliedMatrix])⟩
  rw [hshape]
  unfold appliedGrid OpenLiveFile.Matrix.Fits
  simp only
  rw [shape_cut_iff]
  split
  · -- the rows of the file keep their lengths
    rw [List.length_map]
    have hrows : ∀ t n, (∀ row : List MatrixSlot,
        (saved.grid.map fun row => row.map fun slot =>
          (⟨if slot.isSome then .stopped else .empty, slot.map (buildClip disk baseDir)⟩ :
            MatrixSlot))[t]? = some row → n ≤ row.length ∧ (0 < t → row.length = n)) ↔
        ∀ row, saved.grid[t]? = some row → n ≤ row.length ∧ (0 < t → row.length = n) := by
      intro t n
      rw [List.getElem?_map]
      cases saved.grid[t]? <;> simp
    simp only [hrows]
  · rename_i hempty
    have hgrid : SessionMatrixState.default.grid.length = 8 := List.length_replicate
    constructor
    · rintro ⟨hle, hall⟩
      by_contra hmany
      have htracks : saved.tracks ≠ [] := fun h => hmany (by rw [h]; exact Nat.zero_le 1)
      have hscenes : saved.scenes = [] := by
        by_contra h
        exact hempty ⟨htracks, h⟩
      have hlt : 1 < SessionMatrixState.default.grid.length := by omega
      have hrow := List.getElem?_eq_getElem hlt
      have hlen := (hall 1 (by omega) _ hrow).2 Nat.one_pos
      rw [defaultGrid_row hrow, hscenes] at hlen
      exact absurd hlen (by decide)
    · intro hone
      refine ⟨by omega, ?_⟩
      intro t ht row hrow
      have htracks : saved.tracks ≠ [] := fun h => by
        rw [h] at ht
        exact absurd ht (Nat.not_lt_zero t)
      have hscenes : saved.scenes = [] := by
        by_contra h
        exact hempty ⟨htracks, h⟩
      rw [hscenes]
      exact ⟨Nat.zero_le _, fun h => by omega⟩

/-- From a project applied over any matrix, every run of edits stays within the grid, panics nowhere and
keeps it rectangular, precisely when the lists of the file fit together. -/
theorem always_gridOk_iff_fits (disk : Disk) (baseDir : Option String) (bpm : ℚ)
    (saved : OpenLiveFile.Matrix) (edits : List MatrixEdit) :
    Always (MatrixSession.step disk) MatrixSession.GridOk
        (some (applyMatrix disk baseDir bpm saved).1) edits ↔ saved.Fits := by
  rw [← applied_rectangular_iff disk baseDir saved]
  constructor
  · intro h
    obtain ⟨s, hs, hrect⟩ := h.head
    rw [← Option.some.inj hs] at hrect
    exact hrect
  · intro h
    exact always_of_step (MatrixSession.gridOk_step disk) ⟨_, rfl, h⟩

def shortRows : OpenLiveFile.Matrix :=
  { tracks := [⟨"Drums", false, false, 3 / 4, 0⟩, ⟨"Bass", false, false, 3 / 4, 0⟩]
    scenes := [⟨"Intro"⟩]
    grid := [[none]]
    nextClipId := 1 }

/-- A file with two tracks and one row: the second track is shown, and a file dropped on its pad
panics. -/
theorem not_always_gridOk_shortRows :
    ¬ ∀ saved, Always (MatrixSession.step fun _ => none) MatrixSession.GridOk
      (some (applyMatrix (fun _ => none) none 120 saved).1) [.load 1 0 "/kick.wav"] := by
  intro h
  obtain ⟨s, hs, _⟩ := (h shortRows).final
  have hnone : MatrixSession.step (fun _ => none)
      (some (applyMatrix (fun _ => none) none 120 shortRows).1) (.load 1 0 "/kick.wav") = none := by
    have hmidi : isMidiFile "/kick.wav" = false := by decide
    simp [MatrixSession.step, applyMatrix, appliedMatrix, appliedGrid, shortRows,
      SessionMatrixState.shows, MatrixSession.edit, SessionMatrixState.loadClipIntoSlot, hmidi,
      SessionMatrixState.clip?, SessionMatrixState.slot?, SessionMatrixState.writeSlot]
  rw [List.foldl_cons, List.foldl_nil, hnone] at hs
  exact absurd hs (by simp)

end HikaruOpenLive.Gui
