import HikaruOpenLive.Foundations.FrontMark
import HikaruOpenLive.Gui.DocumentApply
import HikaruOpenLive.Gui.TrackEdits

/-! # The master of an opened document

Every conversion between the index of a strip and that of a row takes the master to be at index 0 and the
other strips to be none. The edits of the tracks and the frames keep that (`masterFirst_edit`), and a
document is opened so when it is so itself: of a live document the front is repaired and the rest is not,
of a studio document neither (`always_masterFirst_iff`).
-/
set_option autoImplicit false

namespace HikaruOpenLive.Gui

open Foundations.Runs Foundations.ListEdits Foundations.FrontMark

/-! ## One master, in front -/

/-- Exactly one master, at index 0. -/
def MasterFirst (strips : List MixerStrip) : Prop :=
  (strips.map MixerStrip.isMaster).count true = 1 ∧
    (strips.map MixerStrip.isMaster).head? = some true

theorem masterFirst_congr {as bs : List MixerStrip}
    (h : as.map MixerStrip.isMaster = bs.map MixerStrip.isMaster) : MasterFirst as ↔ MasterFirst bs := by
  rw [MasterFirst, MasterFirst, h]

theorem masterFirst_iff {strips : List MixerStrip} :
    MasterFirst strips ↔ FrontOnly MixerStrip.isMaster strips := by
  have hcount (ts : List MixerStrip) :
      (ts.map MixerStrip.isMaster).count true = 0 ↔ ∀ u ∈ ts, u.isMaster = false := by
    rw [List.count_eq_zero, List.mem_map]
    simp
  cases strips with
  | nil => exact iff_of_false (fun h => absurd h.2 (by simp)) not_frontOnly_nil
  | cons t ts =>
    rw [frontOnly_cons, ← hcount, MasterFirst, List.map_cons, List.head?_cons, Option.some.injEq, List.count_cons]
    constructor
    · rintro ⟨hone, hmaster⟩
      rw [hmaster] at hone
      exact ⟨hmaster, by simpa using hone⟩
    · rintro ⟨hmaster, hrest⟩
      rw [hmaster, hrest]
      exact ⟨rfl, rfl⟩

theorem MasterFirst.append {strips : List MixerStrip} (h : MasterFirst strips) {t : MixerStrip}
    (ht : t.isMaster = false) : MasterFirst (strips ++ [t]) :=
  masterFirst_iff.mpr ((masterFirst_iff.mp h).append ht)

theorem MasterFirst.dropLast {strips : List MixerStrip} (h : MasterFirst strips)
    (hlong : 1 < strips.length) : MasterFirst strips.dropLast :=
  masterFirst_iff.mpr ((masterFirst_iff.mp h).dropLast hlong)

/-! ## The edits of the tracks -/

/-- The buttons of the arranger and of the matrix, the switch of the mode, and a frame. -/
inductive StripEdit where
  | addTrack
  | removeTrack
  | addMatrixTrack
  | removeMatrixTrack
  | setMode (mode : AppMode)
  | frame (clock : ℕ)

/-- The last strip that is no master, taken away. -/
def removeLastStrip (strips : List MixerStrip) : List MixerStrip :=
  (strips.reverse.eraseP fun t => !t.isMaster).reverse

namespace ProjectState

def tracksOf (s : ProjectState) : AppMode → List MixerStrip
  | .openLive => s.liveTracks
  | .openStudio => s.studioTracks

def withMatrix (s : ProjectState) (m : SessionMatrixState) : ProjectState :=
  { s with matrix := { s.matrix with matrix := m } }

/-- The strip of the last track of the matrix, as the arranger makes it. -/
def newLiveStrip (m : SessionMatrixState) : MixerStrip :=
  let new := MixerStrip.new false
  { new with
    volume := (m.tracks.getLast?.map TrackMeta.volume).getD new.volume
    pan := (m.tracks.getLast?.map TrackMeta.pan).getD new.pan }

def addStrip (s : ProjectState) : ProjectState :=
  match s.mode with
  | .openLive =>
    let matrix := s.matrix.matrix.addTrack
    { s.withMatrix matrix with liveTracks := s.liveTracks ++ [newLiveStrip matrix] }
  | .openStudio => { s with studioTracks := s.studioTracks ++ [.new false] }

def removeStrip (s : ProjectState) : ProjectState :=
  match s.mode with
  | .openLive =>
    { s.withMatrix s.matrix.matrix.removeTrack with
      liveTracks := if 2 < s.liveTracks.length then s.liveTracks.dropLast else s.liveTracks }
  | .openStudio => { s with studioTracks := removeLastStrip s.studioTracks }

def edit (s : ProjectState) : StripEdit → ProjectState
  | .addTrack => s.addStrip
  | .removeTrack => s.removeStrip
  | .addMatrixTrack => s.withMatrix s.matrix.matrix.addTrack
  | .removeMatrixTrack => s.withMatrix s.matrix.matrix.removeTrack
  | .setMode mode => { s with mode := mode }
  | .frame clock => s.frame clock

/-- A frame leaves the strips and the mode alone. -/
theorem strips_frame (s : ProjectState) (clock : ℕ) :
    (s.frame clock).liveTracks = s.liveTracks ∧ (s.frame clock).studioTracks = s.studioTracks ∧
      (s.frame clock).mode = s.mode ∧ (s.frame clock).matrix = s.matrix := by
  have hsync : ∀ s : ProjectState, s.syncLoop.1.liveTracks = s.liveTracks ∧
      s.syncLoop.1.studioTracks = s.studioTracks ∧ s.syncLoop.1.mode = s.mode ∧
        s.syncLoop.1.matrix = s.matrix := by
    intro s
    simp only [syncLoop]
    split
    · exact ⟨rfl, rfl, rfl, rfl⟩
    · exact ⟨rfl, rfl, rfl, rfl⟩
  rw [frame_eq]
  exact hsync _

end ProjectState

theorem MasterFirst.removeLastStrip {strips : List MixerStrip} (h : MasterFirst strips) :
    MasterFirst (removeLastStrip strips) := by
  have herase : Gui.removeLastStrip strips = if 1 < strips.length then strips.dropLast else strips :=
    (masterFirst_iff.mp h).erase_last
  rw [herase]
  split
  case isTrue hlong => exact h.dropLast hlong
  case isFalse => exact h

namespace ProjectState

/-- No edit and no frame takes the master from its place or makes a second one. -/
theorem masterFirst_edit {mode : AppMode} (s : ProjectState) (e : StripEdit)
    (h : MasterFirst (s.tracksOf mode)) : MasterFirst ((s.edit e).tracksOf mode) := by
  cases e with
  | addTrack =>
    rw [edit, addStrip]
    cases s.mode with
    | openLive =>
      cases mode with
      | openLive => exact h.append rfl
      | openStudio => exact h
    | openStudio =>
      cases mode with
      | openLive => exact h
      | openStudio => exact h.append rfl
  | removeTrack =>
    rw [edit, removeStrip]
    cases s.mode with
    | openLive =>
      cases mode with
      | openLive =>
        have hlive : MasterFirst s.liveTracks := h
        show MasterFirst (if 2 < s.liveTracks.length then s.liveTracks.dropLast else s.liveTracks)
        split
        · exact hlive.dropLast (by omega)
        · exact hlive
      | openStudio => exact h
    | openStudio =>
      cases mode with
      | openLive => exact h
      | openStudio => exact h.removeLastStrip
  | addMatrixTrack => cases mode <;> exact h
  | removeMatrixTrack => cases mode <;> exact h
  | setMode mode' => cases mode <;> exact h
  | frame clock =>
    obtain ⟨hlive, hstudio, _, _⟩ := s.strips_frame clock
    cases mode with
    | openLive =>
      show MasterFirst (s.frame clock).liveTracks
      rw [hlive]
      exact h
    | openStudio =>
      show MasterFirst (s.frame clock).studioTracks
      rw [hstudio]
      exact h

end ProjectState

/-! ## The edits on whole tracks -/

/-- The edit of the whole tracks, which a frame is not. -/
def StripEdit.track : StripEdit → Option TrackEdit
  | .addTrack => some .addTrack
  | .removeTrack => some .removeTrack
  | .addMatrixTrack => some .addMatrixTrack
  | .removeMatrixTrack => some .removeMatrixTrack
  | .setMode mode => some (.setMode mode)
  | .frame _ => none

namespace ProjectState

/-- The strips and the matrix are those of the routed tracks. -/
structure Shows (s : ProjectState) (r : RoutingState) : Prop where
  mode : s.mode = r.mode
  matrix : s.matrix.matrix = r.matrix
  live : s.liveTracks = r.liveTracks.map fun t => t.track.strip
  studio : s.studioTracks = r.studioTracks.map fun t => t.track.strip

theorem strips_removeLastTrack (tracks : List RoutedTrack) :
    (removeLastTrack tracks).map (fun t => t.track.strip) =
      removeLastStrip (tracks.map fun t => t.track.strip) := by
  unfold removeLastTrack removeLastStrip
  have hreverse : (tracks.map fun t => t.track.strip).reverse =
      tracks.reverse.map fun t => t.track.strip := List.map_reverse.symm
  rw [hreverse, List.eraseP_map, List.map_reverse]
  rfl

theorem Shows.addTrack {s : ProjectState} {r : RoutingState} (h : s.Shows r) :
    (s.edit .addTrack).Shows (r.step .addTrack) := by
  obtain ⟨hmode, hmatrix, hlive, hstudio⟩ := h
  cases hr : r.mode with
  | openLive =>
    simp only [ProjectState.edit, addStrip, RoutingState.step, hmode, hr]
    refine ⟨hmode, congrArg SessionMatrixState.addTrack hmatrix, ?_, hstudio⟩
    show s.liveTracks ++ _ = (r.liveTracks ++ [_]).map _
    rw [hmatrix, hlive, List.map_append]
    rfl
  | openStudio =>
    simp only [ProjectState.edit, addStrip, RoutingState.step, hmode, hr]
    refine ⟨hr.symm, hmatrix, hlive, ?_⟩
    show s.studioTracks ++ _ = (r.studioTracks ++ [_]).map _
    rw [hstudio, List.map_append]
    rfl

theorem Shows.removeTrack {s : ProjectState} {r : RoutingState} (h : s.Shows r) :
    (s.edit .removeTrack).Shows (r.step .removeTrack) := by
  obtain ⟨hmode, hmatrix, hlive, hstudio⟩ := h
  cases hr : r.mode with
  | openLive =>
    simp only [ProjectState.edit, removeStrip, RoutingState.step, hmode, hr]
    refine ⟨hmode, congrArg SessionMatrixState.removeTrack hmatrix, ?_, hstudio⟩
    show (if 2 < s.liveTracks.length then s.liveTracks.dropLast else s.liveTracks) =
      (if 2 < r.liveTracks.length then r.liveTracks.dropLast else r.liveTracks).map _
    rw [hlive, List.length_map]
    split
    · exact List.map_dropLast.symm
    · rfl
  | openStudio =>
    simp only [ProjectState.edit, removeStrip, RoutingState.step, hmode, hr]
    refine ⟨rfl, hmatrix, hlive, ?_⟩
    rw [hstudio, ← strips_removeLastTrack]

/-- The edits of the strips are those of the tracks they are strips of. -/
theorem Shows.edit {s : ProjectState} {r : RoutingState} (h : s.Shows r) {e : StripEdit}
    {track : TrackEdit} (he : e.track = some track) : (s.edit e).Shows (r.step track) := by
  cases e with
  | addTrack =>
    obtain rfl := Option.some.inj he
    exact h.addTrack
  | removeTrack =>
    obtain rfl := Option.some.inj he
    exact h.removeTrack
  | addMatrixTrack =>
    obtain rfl := Option.some.inj he
    exact ⟨h.mode, congrArg SessionMatrixState.addTrack h.matrix, h.live, h.studio⟩
  | removeMatrixTrack =>
    obtain rfl := Option.some.inj he
    exact ⟨h.mode, congrArg SessionMatrixState.removeTrack h.matrix, h.live, h.studio⟩
  | setMode mode =>
    obtain rfl := Option.some.inj he
    exact ⟨rfl, h.matrix, h.live, h.studio⟩
  | frame clock => cases he

end ProjectState

/-! ## The master of a document -/

/-- The live strips have one master when there is none behind the front that they are given. -/
theorem masterFirst_fitStrips_iff (live : List MixerStrip) (tracks : List TrackMeta) :
    MasterFirst (fitStrips live tracks) ↔
      ∀ t ∈ (behindFirst MixerStrip.isMaster live).take tracks.length, t.isMaster = false := by
  obtain ⟨master, hwith, hmaster⟩ := withMaster_eq live
  rw [fitStrips, masterFirst_iff]
  simp only [hwith, List.take_succ_cons, List.cons_append]
  rw [frontOnly_cons]
  constructor
  · rintro ⟨_, hrest⟩ t ht
    exact hrest t (List.mem_append_left _ ht)
  · intro h
    refine ⟨hmaster, fun t ht => ?_⟩
    rcases List.mem_append.mp ht with ht | ht
    · exact h t ht
    · obtain ⟨mx, _, rfl⟩ := List.mem_map.mp ht
      rfl

/-- A studio document is empty, or has its only master in front. Of a live document, no track is a master
that becomes the strip of a row: those behind the master in front, as many as the rows. -/
def OpenDocument.MasterInPlace : OpenDocument → Prop
  | .openLive doc =>
    ∀ t ∈ (behindFirst ProjectFile.Track.isMaster doc.liveTracks).take doc.matrix.tracks.length,
      t.isMaster = false
  | .openStudio doc =>
    match doc.studioTracks with
    | [] => True
    | first :: rest => first.isMaster = true ∧ ∀ t ∈ rest, t.isMaster = false

section

variable (toLowercase : String → String) (disk : Disk) (baseDir : Option String)

theorem masterFirst_project_iff (doc : OpenDocument) :
    MasterFirst (doc.project toLowercase).strips ↔ doc.MasterInPlace := by
  cases doc with
  | openLive doc =>
    show MasterFirst (fitStrips (tracksOrDefault (doc.liveTracks.map (buildStrip toLowercase))
      defaultLiveTracks) doc.matrix.tracks) ↔ _
    rw [masterFirst_fitStrips_iff, OpenDocument.MasterInPlace]
    cases hlive : doc.liveTracks with
    | nil =>
      have hdefault : behindFirst MixerStrip.isMaster
          (tracksOrDefault ([].map (buildStrip toLowercase)) defaultLiveTracks) = [] := by
        rw [List.map_nil, tracksOrDefault, if_pos rfl]
        rfl
      rw [hdefault]
      simp [behindFirst]
    | cons first rest =>
      have hstrips : tracksOrDefault ((first :: rest).map (buildStrip toLowercase)) defaultLiveTracks =
          (first :: rest).map (buildStrip toLowercase) := rfl
      rw [hstrips, behindFirst_map, ← List.map_take, List.forall_mem_map]
      exact Iff.rfl
  | openStudio doc =>
    show MasterFirst (tracksOrDefault (doc.studioTracks.map (buildStrip toLowercase))
      defaultStudioTracks) ↔ _
    rw [OpenDocument.MasterInPlace]
    cases hstudio : doc.studioTracks with
    | nil => exact iff_of_true ⟨rfl, rfl⟩ trivial
    | cons first rest =>
      show MasterFirst (buildStrip toLowercase first :: rest.map (buildStrip toLowercase)) ↔ _
      rw [masterFirst_iff, frontOnly_cons, List.forall_mem_map]
      exact Iff.rfl

/-- Opened over any state, a document has its only master in front, then and after every edit of the
tracks and every frame, precisely when it is in its place in the document. -/
theorem always_masterFirst_iff (s : ProjectState) (doc : OpenDocument) (edits : List StripEdit) :
    Always ProjectState.edit (fun s => MasterFirst (s.tracksOf doc.mode))
        (s.apply disk baseDir (doc.project toLowercase)).1 edits ↔
      doc.MasterInPlace := by
  have htracks : (s.apply disk baseDir (doc.project toLowercase)).1.tracksOf doc.mode =
      (s.apply disk baseDir (doc.project toLowercase)).1.tracks := by
    cases doc with
    | openLive doc => rfl
    | openStudio doc => rfl
  have hflags : (s.apply disk baseDir (doc.project toLowercase)).1.tracks.map MixerStrip.isMaster =
      (doc.project toLowercase).strips.map MixerStrip.isMaster := ProjectState.flags_applied _
  rw [← masterFirst_project_iff toLowercase, ← masterFirst_congr hflags, ← htracks]
  constructor
  · intro h
    exact h.head
  · intro h
    exact always_of_step (fun s e => s.masterFirst_edit e) h

end

/-- A studio document of one track and no master. -/
def masterlessDocument : OpenStudioFile.Document :=
  { formatVersion := 1, transport := ⟨120, 4, 4, 0, 0, false⟩
    studioTracks := [captureTrack (.new 1 "TRACK 01" false)]
    playlist := ⟨[], 960, 1, 0, 0, false⟩, view := 0 }

/-- It is opened without a master. -/
theorem not_always_masterFirst :
    ¬ ∀ (s : ProjectState) (doc : OpenDocument) (edits : List StripEdit),
      Always ProjectState.edit (fun s => MasterFirst (s.tracksOf doc.mode))
        (s.apply (fun _ => none) none (doc.project id)).1 edits := by
  intro h
  have hfirst := (h ProjectState.initial (.openStudio masterlessDocument) []).head
  exact absurd hfirst.2 (by decide)

end HikaruOpenLive.Gui
