import HikaruOpenLive.Gui.ClipRoundTrip
import HikaruOpenLive.Gui.ProjectDocuments

/-! # What opening a document repairs

A document is opened as it is if nothing of it is dropped, clamped, replaced or put in besides. The samples
of its clips are decoded again in any case, and nothing is said of them here.
-/
set_option autoImplicit false

namespace HikaruOpenLive.Gui

open Foundations.RoundTrip Foundations.ListEdits

theorem clampBpm_eq_iff (bpm : ℚ) : ProjectState.clampBpm bpm = bpm ↔ 40 ≤ bpm ∧ bpm ≤ 300 := by
  unfold ProjectState.clampBpm
  constructor
  · intro h
    have hlow : 40 ≤ max 40 (min bpm 300) := le_max_left _ _
    have hhigh : max 40 (min bpm 300) ≤ 300 := max_le (by norm_num) (min_le_right _ _)
    exact ⟨h ▸ hlow, h ▸ hhigh⟩
  · rintro ⟨hlow, hhigh⟩
    rw [min_eq_left hhigh, max_eq_right hlow]

theorem viewFromU8_eq_iff (view : ℕ) : viewFromU8 view = view ↔ view ≤ 1 := by
  unfold viewFromU8
  split
  · omega
  · omega

theorem quantizationNumber_eq_iff (t : OpenLiveFile.Transport) :
    t.quantizationNumber = some t.quantizationDenominator ↔ ∃ d, t.quantizationNumber = some d ∧ 1 ≤ d := by
  unfold OpenLiveFile.Transport.quantizationDenominator
  cases hnumber : t.quantizationNumber with
  | none =>
    constructor
    · intro h
      nomatch h
    · rintro ⟨d, h, _⟩
      nomatch h
  | some d =>
    constructor
    · intro h
      have hd : d = max d 1 := Option.some.inj h
      exact ⟨d, rfl, by omega⟩
    · rintro ⟨d', h, hd⟩
      obtain rfl := Option.some.inj h
      show some d = some (max d 1)
      rw [Nat.max_eq_left hd]

/-! ## The grid -/

def SessionMatrixState.IsRectangular (m : SessionMatrixState) : Prop :=
  m.grid.length = m.tracks.length ∧ ∀ row ∈ m.grid, row.length = m.scenes.length

section

variable (disk : Disk) (baseDir : Option String) {m : OpenLiveFile.Matrix}

/-- A file without scenes leaves the default grid, with its first row cut to nothing. -/
theorem appliedGrid_noScenes (hscenes : m.scenes = []) :
    appliedGrid disk baseDir m =
      (SessionMatrixState.default.grid.take m.tracks.length).modifyHead fun row => row.take 0 := by
  have hdefault : ¬ (m.tracks ≠ [] ∧ m.scenes ≠ []) := fun h => h.2 hscenes
  unfold appliedGrid
  simp only [if_neg hdefault]
  rw [hscenes, List.length_nil]

/-- A grid that fits its tracks and scenes is built as it is. -/
theorem appliedGrid_fits (hrows : m.grid.length = m.tracks.length)
    (hwidth : ∀ row ∈ m.grid, row.length = m.scenes.length) (hscenes : m.scenes ≠ []) :
    appliedGrid disk baseDir m = m.grid.map fun row => row.map fun slot =>
      ⟨if slot.isSome then .stopped else .empty, slot.map (buildClip disk baseDir)⟩ := by
  unfold appliedGrid
  by_cases htracks : m.tracks = []
  · have hnil : m.grid = [] := List.length_eq_zero_iff.mp (hrows.trans (by rw [htracks]; rfl))
    rw [hnil, htracks]
    rfl
  · simp only [if_pos (And.intro htracks hscenes)]
    rw [List.take_of_length_le (by rw [List.length_map, hrows])]
    cases hrow : m.grid with
    | nil => rfl
    | cons row rows =>
      rw [List.map_cons, List.modifyHead_cons]
      have hfirst := hwidth row (by rw [hrow]; exact List.mem_cons_self)
      rw [List.take_of_length_le (by rw [List.length_map, hfirst])]

theorem grid_applied_fits (hrows : m.grid.length = m.tracks.length)
    (hwidth : ∀ row ∈ m.grid, row.length = m.scenes.length) (hscenes : m.scenes ≠ []) :
    (appliedGrid disk baseDir m).map (fun row => row.map MatrixSlot.clip) =
        m.grid.map (fun row => row.map fun slot => slot.map (buildClip disk baseDir)) ∧
      (appliedMatrix disk baseDir m).IsRectangular := by
  have hgrid := appliedGrid_fits disk baseDir hrows hwidth hscenes
  refine ⟨?_, ?_, ?_⟩
  · rw [hgrid, List.map_map]
    refine List.map_congr_left fun row _ => ?_
    show (row.map _).map MatrixSlot.clip = _
    rw [List.map_map]
    rfl
  · show (appliedGrid disk baseDir m).length = m.tracks.length
    rw [hgrid, List.length_map, hrows]
  · intro row hrow
    have hrow' : row ∈ appliedGrid disk baseDir m := hrow
    rw [hgrid] at hrow'
    obtain ⟨saved, hsaved, rfl⟩ := List.mem_map.mp hrow'
    show (saved.map _).length = m.scenes.length
    rw [List.length_map, hwidth saved hsaved]

/-- Without scenes a second track would have the eight slots of its default row. -/
theorem not_isRectangular_noScenes (hscenes : m.scenes = []) (hmany : 1 < m.tracks.length) :
    ¬ (appliedMatrix disk baseDir m).IsRectangular := by
  rintro ⟨_, hrect⟩
  obtain ⟨n, hn⟩ : ∃ n, m.tracks.length = n + 2 := ⟨m.tracks.length - 2, by omega⟩
  have hrow : List.replicate 8 MatrixSlot.default ∈ appliedGrid disk baseDir m := by
    rw [appliedGrid_noScenes disk baseDir hscenes, hn]
    exact List.mem_cons_of_mem _ List.mem_cons_self
  have hlength := hrect _ hrow
  have hnone : (appliedMatrix disk baseDir m).scenes.length = 0 := by
    show m.scenes.length = 0
    rw [hscenes]
    rfl
  rw [hnone, List.length_replicate] at hlength
  nomatch hlength

/-- Without scenes one track at most has a row, and it has no slot. -/
theorem appliedGrid_fewTracks (hrows : m.grid.length = m.tracks.length)
    (hwidth : ∀ row ∈ m.grid, row.length = m.scenes.length) (hscenes : m.scenes = [])
    (hfew : m.tracks.length ≤ 1) :
    appliedGrid disk baseDir m = m.grid.map (fun _ => []) ∧ ∀ row ∈ m.grid, row = [] := by
  have hempty : ∀ row ∈ m.grid, row = [] := fun row hrow =>
    List.length_eq_zero_iff.mp ((hwidth row hrow).trans (by rw [hscenes]; rfl))
  refine ⟨?_, hempty⟩
  rw [appliedGrid_noScenes disk baseDir hscenes]
  obtain hzero | hone : m.tracks.length = 0 ∨ m.tracks.length = 1 := by omega
  · rw [List.length_eq_zero_iff.mp (hrows.trans hzero), hzero]
    rfl
  · obtain ⟨row, hrow⟩ := List.length_eq_one_iff.mp (hrows.trans hone)
    rw [hrow, hone]
    rfl

theorem scenes_of_isRectangular (h : (appliedMatrix disk baseDir m).IsRectangular) :
    m.scenes ≠ [] ∨ m.tracks.length ≤ 1 := by
  by_cases hscenes : m.scenes = []
  · refine Or.inr (Nat.le_of_not_lt fun hmany => ?_)
    exact not_isRectangular_noScenes disk baseDir hscenes hmany h
  · exact Or.inl hscenes

/-- A rectangular grid is built slot by slot, unless it has several tracks and no scene: then the rows
behind the first keep the width of the default. -/
theorem grid_applied (hrows : m.grid.length = m.tracks.length)
    (hwidth : ∀ row ∈ m.grid, row.length = m.scenes.length)
    (h : m.scenes ≠ [] ∨ m.tracks.length ≤ 1) :
    (appliedGrid disk baseDir m).map (fun row => row.map MatrixSlot.clip) =
        m.grid.map (fun row => row.map fun slot => slot.map (buildClip disk baseDir)) ∧
      (appliedMatrix disk baseDir m).IsRectangular := by
  by_cases hscenes : m.scenes = []
  · obtain ⟨hgrid, hempty⟩ := appliedGrid_fewTracks disk baseDir hrows hwidth hscenes
      (h.resolve_left fun hne => hne hscenes)
    refine ⟨?_, ?_, fun row hrow => ?_⟩
    · rw [hgrid, List.map_map]
      refine List.map_congr_left fun row hrow => ?_
      rw [hempty row hrow]
      rfl
    · show (appliedGrid disk baseDir m).length = m.tracks.length
      rw [hgrid, List.length_map, hrows]
    · have hrow' : row ∈ appliedGrid disk baseDir m := hrow
      rw [hgrid] at hrow'
      obtain ⟨_, _, rfl⟩ := List.mem_map.mp hrow'
      show 0 = m.scenes.length
      rw [hscenes]
      rfl
  · exact grid_applied_fits disk baseDir hrows hwidth hscenes

end

/-! ## The clips of a grid

A clip is compared with the file field by field, but for the samples of its events. Paths are taken from
the directory of the project.
-/

/-- What an event says, but for its samples. -/
def AudioEvent.withoutSamples (e : AudioEvent) : OpenLiveFile.Event :=
  { id := e.id, name := e.name, sourcePath := e.sourcePath.getD "", startSecs := e.startSecs
    trimLeftFrames := e.trimLeftFrames, visibleFrames := e.visibleFrames, gain := e.gain
    fadeInSecs := e.fadeInSecs, fadeOutSecs := e.fadeOutSecs }

def MatrixClip.withoutSamples (clip : MatrixClip) : OpenLiveFile.Clip :=
  { id := clip.id, name := clip.name, path := clip.path, loopStart := clip.loopStart
    loopEnd := clip.loopEnd, loopEnabled := clip.loopEnabled, volume := clip.volume, pan := clip.pan
    mute := clip.mute, events := clip.audioEvents.map AudioEvent.withoutSamples, midiNotes := clip.notes }

def OpenLiveFile.Event.asSaved (baseDir : Option String) (saved : OpenLiveFile.Event) :
    OpenLiveFile.Event :=
  { saved with sourcePath := resolvePath baseDir saved.sourcePath }

def OpenLiveFile.Clip.asSaved (baseDir : Option String) (saved : OpenLiveFile.Clip) :
    OpenLiveFile.Clip :=
  { saved with
    path := resolvePath baseDir saved.path
    events := saved.events.map (OpenLiveFile.Event.asSaved baseDir) }

/-- A clip without its notes and its events. -/
def OpenLiveFile.Clip.withoutContent (saved : OpenLiveFile.Clip) : OpenLiveFile.Clip :=
  { saved with events := [], midiNotes := [] }

/-- A saved clip of which nothing is dropped or put in the place of anything: a clip of notes has no
events, and of another all events can be decoded. One without events has no file that is made its event. -/
def OpenLiveFile.Clip.KeepsContent (disk : Disk) (baseDir : Option String) (saved : OpenLiveFile.Clip) :
    Prop :=
  if saved.midiNotes ≠ [] ∨ isMidiFile (resolvePath baseDir saved.path) = true then saved.events = []
  else
    (∀ e ∈ saved.events, (decodeAudioFile disk (resolvePath baseDir e.sourcePath)).isSome = true) ∧
      (saved.events = [] → decodeAudioFile disk (resolvePath baseDir saved.path) = none)

section

variable (disk : Disk) (baseDir : Option String)

theorem withoutSamples_buildEvent (saved : OpenLiveFile.Event) (e : AudioEvent)
    (h : buildEvent disk baseDir saved = some e) : e.withoutSamples = saved.asSaved baseDir := by
  obtain ⟨_, _, rfl⟩ := Option.map_eq_some_iff.mp h
  rfl

theorem isSome_buildEvent (saved : OpenLiveFile.Event) :
    (buildEvent disk baseDir saved).isSome =
      (decodeAudioFile disk (resolvePath baseDir saved.sourcePath)).isSome :=
  Option.isSome_map

/-- The events that are loaded are those of the file if and only if each of them is decoded. -/
theorem events_loaded_iff (events : List OpenLiveFile.Event) :
    (events.filterMap (buildEvent disk baseDir)).map AudioEvent.withoutSamples =
        events.map (OpenLiveFile.Event.asSaved baseDir) ↔
      ∀ e ∈ events, (decodeAudioFile disk (resolvePath baseDir e.sourcePath)).isSome = true := by
  rw [map_filterMap_eq_map_iff (withoutSamples_buildEvent disk baseDir)]
  simp only [isSome_buildEvent]

theorem withoutSamples_eq_iff (clip : MatrixClip) (saved : OpenLiveFile.Clip) :
    clip.withoutSamples = saved.asSaved baseDir ↔
      clip.withoutSamples.withoutContent = (saved.asSaved baseDir).withoutContent ∧
        clip.audioEvents.map AudioEvent.withoutSamples =
          saved.events.map (OpenLiveFile.Event.asSaved baseDir) ∧
        clip.notes = saved.midiNotes := by
  constructor
  · intro h
    exact ⟨congrArg _ h, congrArg OpenLiveFile.Clip.events h, congrArg OpenLiveFile.Clip.midiNotes h⟩
  · rintro ⟨hrest, hevents, hnotes⟩
    obtain ⟨hid, hname, hpath, hstart, hend, henabled, hvolume, hpan, hmute, _, _⟩ :=
      OpenLiveFile.Clip.mk.inj hrest
    rw [MatrixClip.withoutSamples, OpenLiveFile.Clip.asSaved, OpenLiveFile.Clip.mk.injEq]
    exact ⟨hid, hname, hpath, hstart, hend, henabled, hvolume, hpan, hmute, hevents, hnotes⟩

/-- Whatever its content, a clip is loaded under its id and its name, with its file, its loop and its
mix. -/
theorem withoutContent_buildClip (saved : OpenLiveFile.Clip) :
    (buildClip disk baseDir saved).withoutSamples.withoutContent =
      (saved.asSaved baseDir).withoutContent := by
  by_cases hmidi : saved.midiNotes ≠ [] ∨ isMidiFile (resolvePath baseDir saved.path) = true
  · rw [buildClip_midi disk baseDir hmidi]
    rfl
  · obtain ⟨next, hbuild⟩ := buildClip_sound disk baseDir hmidi
    rw [hbuild]
    split
    · obtain ⟨events, next', hpush⟩ := MatrixClip.pushBaseSample_audio
        (c := loadedClip baseDir saved (.audio [] next)) disk rfl
      rw [hpush]
      rfl
    · rfl

/-- The file of a clip stands for no event that could not be decoded: it was decoded itself. -/
theorem not_events_pushBaseSample {saved : OpenLiveFile.Clip} {next : ℕ}
    (hnil : saved.events.filterMap (buildEvent disk baseDir) = [])
    (hfile : (decodeAudioFile disk (resolvePath baseDir saved.path)).isSome = true) :
    ((loadedClip baseDir saved (.audio [] next)).pushBaseSample disk).audioEvents.map
        AudioEvent.withoutSamples ≠ saved.events.map (OpenLiveFile.Event.asSaved baseDir) := by
  obtain ⟨⟨samples, channels, sampleRate⟩, hdecode⟩ := Option.isSome_iff_exists.mp hfile
  rw [MatrixClip.audioEvents_pushBaseSample (c := loadedClip baseDir saved (.audio [] next)) rfl hdecode]
  intro h
  obtain ⟨e, hevents⟩ : ∃ e, saved.events = [e] := List.length_eq_one_iff.mp (by
    simpa using (congrArg List.length h).symm)
  rw [hevents, List.map_singleton, List.map_singleton, List.singleton_inj] at h
  have hpath : resolvePath baseDir saved.path = resolvePath baseDir e.sourcePath :=
    congrArg OpenLiveFile.Event.sourcePath h
  have hnone := List.filterMap_eq_nil_iff.mp hnil e (by rw [hevents]; exact List.mem_singleton_self e)
  have hsome := isSome_buildEvent disk baseDir e
  rw [hnone, ← hpath, hfile] at hsome
  exact Bool.noConfusion hsome

/-- A clip of notes is loaded without its events. -/
theorem content_midi_iff {saved : OpenLiveFile.Clip}
    (hmidi : saved.midiNotes ≠ [] ∨ isMidiFile (resolvePath baseDir saved.path) = true) :
    ((buildClip disk baseDir saved).audioEvents.map AudioEvent.withoutSamples =
          saved.events.map (OpenLiveFile.Event.asSaved baseDir) ∧
        (buildClip disk baseDir saved).notes = saved.midiNotes) ↔ saved.events = [] := by
  rw [buildClip_midi disk baseDir hmidi]
  constructor
  · rintro ⟨hevents, _⟩
    exact List.map_eq_nil_iff.mp hevents.symm
  · intro hnil
    rw [hnil]
    exact ⟨rfl, rfl⟩

/-- Another clip is loaded with the events that are decoded, and with its file in the place of none. -/
theorem content_sound_iff {saved : OpenLiveFile.Clip}
    (hsound : ¬ (saved.midiNotes ≠ [] ∨ isMidiFile (resolvePath baseDir saved.path) = true)) :
    ((buildClip disk baseDir saved).audioEvents.map AudioEvent.withoutSamples =
          saved.events.map (OpenLiveFile.Event.asSaved baseDir) ∧
        (buildClip disk baseDir saved).notes = saved.midiNotes) ↔
      (∀ e ∈ saved.events, (decodeAudioFile disk (resolvePath baseDir e.sourcePath)).isSome = true) ∧
        (saved.events = [] → decodeAudioFile disk (resolvePath baseDir saved.path) = none) := by
  have hnotes : saved.midiNotes = [] := by
    by_contra hne
    exact hsound (Or.inl hne)
  obtain ⟨next, hbuild⟩ := buildClip_sound disk baseDir hsound
  rw [hbuild, hnotes, ← events_loaded_iff]
  by_cases hnil : saved.events.filterMap (buildEvent disk baseDir) = []
  · rw [if_pos hnil]
    cases hfile : decodeAudioFile disk (resolvePath baseDir saved.path) with
    | none =>
      have hpush : (loadedClip baseDir saved (.audio [] next)).pushBaseSample disk =
          loadedClip baseDir saved (.audio [] next) := by
        unfold MatrixClip.pushBaseSample
        rw [show (loadedClip baseDir saved (.audio [] next)).path =
          resolvePath baseDir saved.path from rfl, hfile]
      rw [hpush, hnil]
      exact and_congr_right fun _ => iff_of_true rfl fun _ => rfl
    | some decoded =>
      have hsome : (decodeAudioFile disk (resolvePath baseDir saved.path)).isSome = true := by
        rw [hfile]
        rfl
      refine iff_of_false (fun h => not_events_pushBaseSample disk baseDir hnil hsome h.1) ?_
      rintro ⟨hall, hempty⟩
      rw [hnil] at hall
      exact nomatch hempty (List.map_eq_nil_iff.mp hall.symm)
  · have hevents : saved.events ≠ [] := by
      intro h
      rw [h] at hnil
      exact hnil rfl
    rw [if_neg hnil]
    exact and_congr_right fun _ => iff_of_true rfl fun h => absurd h hevents

/-- A saved clip is loaded as it is if and only if it keeps its content. -/
theorem withoutSamples_buildClip_iff (saved : OpenLiveFile.Clip) :
    (buildClip disk baseDir saved).withoutSamples = saved.asSaved baseDir ↔
      saved.KeepsContent disk baseDir := by
  rw [withoutSamples_eq_iff, and_iff_right (withoutContent_buildClip disk baseDir saved)]
  unfold OpenLiveFile.Clip.KeepsContent
  split
  case isTrue hmidi => exact content_midi_iff disk baseDir hmidi
  case isFalse hsound => exact content_sound_iff disk baseDir hsound

variable {m : OpenLiveFile.Matrix}

/-- What is read of the clips of an applied grid is read of the saved ones, built. -/
theorem clips_applied {β : Type} (read : MatrixClip → β) (hrows : m.grid.length = m.tracks.length)
    (hwidth : ∀ row ∈ m.grid, row.length = m.scenes.length)
    (h : m.scenes ≠ [] ∨ m.tracks.length ≤ 1) :
    (appliedGrid disk baseDir m).map (fun row => row.map fun slot => slot.clip.map read) =
      m.grid.map fun row => row.map fun slot =>
        slot.map fun saved => read (buildClip disk baseDir saved) := by
  have hclips := (grid_applied disk baseDir hrows hwidth h).1
  have hread := congrArg (List.map (List.map (Option.map read))) hclips
  simpa only [List.map_map, Function.comp_def, Option.map_map] using hread

theorem clips_eq_iff (grid : List (List (Option OpenLiveFile.Clip))) :
    (grid.map fun row => row.map fun slot =>
        slot.map fun saved => (buildClip disk baseDir saved).withoutSamples) =
        grid.map (fun row => row.map fun slot => slot.map (OpenLiveFile.Clip.asSaved baseDir)) ↔
      ∀ row ∈ grid, ∀ saved, some saved ∈ row → saved.KeepsContent disk baseDir := by
  rw [List.map_inj_left]
  refine forall₂_congr fun row _ => ?_
  rw [List.map_inj_left]
  constructor
  · intro h saved hsaved
    exact (withoutSamples_buildClip_iff disk baseDir saved).mp (Option.some.inj (h (some saved) hsaved))
  · intro h slot hslot
    cases slot with
    | none => rfl
    | some saved =>
      exact congrArg some ((withoutSamples_buildClip_iff disk baseDir saved).mpr (h saved hslot))

end

/-! ## Documents -/

section

variable (toLowercase : String → String) (disk : Disk) (baseDir : Option String) (s : ProjectState)

namespace OpenLiveFile.Document

/-- The application once a live document is opened. -/
def opened (doc : OpenLiveFile.Document) : ProjectState :=
  (s.apply disk baseDir (.openLive (doc.project toLowercase))).1

structure OpensAsIs (doc : OpenLiveFile.Document) : Prop where
  bpm : (doc.opened toLowercase disk baseDir s).transport.bpm = doc.transport.bpm
  beats : doc.meter.1 = doc.transport.timeSignature.1
  division : doc.transport.quantizationNumber = some doc.meter.2
  saved : ∀ t ∈ doc.liveTracks, captureTrack (buildTrack toLowercase t) = t
  tracks : doc.openedTracks toLowercase = doc.liveTracks.map (buildTrack toLowercase)
  rows : (doc.opened toLowercase disk baseDir s).matrix.matrix.tracks = doc.matrix.tracks
  nextClipId :
    (doc.opened toLowercase disk baseDir s).matrix.matrix.nextClipId = doc.matrix.nextClipId
  clips :
    ((doc.opened toLowercase disk baseDir s).matrix.matrix.grid.map fun row => row.map fun slot =>
        slot.clip.map MatrixClip.withoutSamples) =
      doc.matrix.grid.map fun row => row.map fun slot => slot.map (OpenLiveFile.Clip.asSaved baseDir)
  rectangular : (doc.opened toLowercase disk baseDir s).matrix.matrix.IsRectangular
  view : viewFromU8 doc.view = doc.view

/-- What a live document must have in order to be opened as it is, besides what its validator asks for. -/
structure NeedsNoRepair (doc : OpenLiveFile.Document) : Prop where
  bpm : 40 ≤ doc.transport.bpm ∧ doc.transport.bpm ≤ 300
  division : ∃ d, doc.transport.quantizationNumber = some d ∧ 1 ≤ d
  saved : ∀ t ∈ doc.liveTracks,
    t.panMode ≤ 1 ∧ ∀ e ∈ t.effects, e.wavetablePath = none ∧ e.WholeReference
  tracks : TracksMatch doc.masterVolume doc.masterPan doc.matrix.tracks
    (doc.liveTracks.map (buildTrack toLowercase))
  nextClipId : 1 ≤ doc.matrix.nextClipId
  scenes : doc.matrix.scenes ≠ [] ∨ doc.matrix.tracks.length ≤ 1
  clips : ∀ row ∈ doc.matrix.grid, ∀ clip, some clip ∈ row → clip.KeepsContent disk baseDir
  view : doc.view ≤ 1

theorem isRectangular_opened_iff (doc : OpenLiveFile.Document) :
    (doc.opened toLowercase disk baseDir s).matrix.matrix.IsRectangular ↔
      (appliedMatrix disk baseDir doc.matrix).IsRectangular := by
  have hlength : (doc.opened toLowercase disk baseDir s).matrix.matrix.tracks.length =
      doc.matrix.tracks.length := length_syncMatrixMixer_tracks _ _ _ _
  unfold SessionMatrixState.IsRectangular
  rw [hlength]
  exact Iff.rfl

/-- The clips of a rectangular file are all in their slots, under their ids and names, with their files,
loops and mixes, and the matrix is rectangular, unless there are several tracks and no scene. -/
theorem clips_rectangular_opened (doc : OpenLiveFile.Document)
    (hrows : doc.matrix.grid.length = doc.matrix.tracks.length)
    (hwidth : ∀ row ∈ doc.matrix.grid, row.length = doc.matrix.scenes.length)
    (hscenes : doc.matrix.scenes ≠ [] ∨ doc.matrix.tracks.length ≤ 1) :
    ((doc.opened toLowercase disk baseDir s).matrix.matrix.grid.map fun row => row.map fun slot =>
        slot.clip.map fun clip => clip.withoutSamples.withoutContent) =
        (doc.matrix.grid.map fun row => row.map fun slot =>
          slot.map fun saved => (saved.asSaved baseDir).withoutContent) ∧
      (doc.opened toLowercase disk baseDir s).matrix.matrix.IsRectangular := by
  have hclips := clips_applied disk baseDir (fun clip => clip.withoutSamples.withoutContent) hrows hwidth
    hscenes
  simp only [withoutContent_buildClip] at hclips
  exact ⟨hclips, (isRectangular_opened_iff toLowercase disk baseDir s doc).mpr
    (grid_applied disk baseDir hrows hwidth hscenes).2⟩

theorem opensAsIs_iff {doc : OpenLiveFile.Document} (hbeats : doc.transport.timeSignature.1 ≠ 0)
    (hrows : doc.matrix.grid.length = doc.matrix.tracks.length)
    (hwidth : ∀ row ∈ doc.matrix.grid, row.length = doc.matrix.scenes.length)
    (htracks : doc.liveTracks ≠ []) :
    doc.OpensAsIs toLowercase disk baseDir s ↔ doc.NeedsNoRepair toLowercase disk baseDir := by
  have hbuilt : builtOrDefault toLowercase doc.liveTracks [defaultMaster] =
      doc.liveTracks.map (buildTrack toLowercase) := if_neg htracks
  have hmetas : (doc.opened toLowercase disk baseDir s).matrix.matrix.tracks = doc.matrix.tracks ↔
      MixYields ((setMaster doc.masterVolume doc.masterPan
        (doc.liveTracks.map (buildTrack toLowercase))).map MixerTrack.strip) doc.matrix.tracks := by
    rw [← tracks_syncMatrixMixer_iff, ← hbuilt, strips_setMaster, strips_builtOrDefault]
    exact Iff.rfl
  have hmix : (doc.openedTracks toLowercase = doc.liveTracks.map (buildTrack toLowercase) ∧
      (doc.opened toLowercase disk baseDir s).matrix.matrix.tracks = doc.matrix.tracks) ↔
        TracksMatch doc.masterVolume doc.masterPan doc.matrix.tracks
          (doc.liveTracks.map (buildTrack toLowercase)) := by
    rw [hmetas, ← syncTracks_eq_iff, openedTracks, hbuilt]
  have hrect := isRectangular_opened_iff toLowercase disk baseDir s doc
  have hclips (hscenes : doc.matrix.scenes ≠ [] ∨ doc.matrix.tracks.length ≤ 1) :
      ((doc.opened toLowercase disk baseDir s).matrix.matrix.grid.map fun row => row.map fun slot =>
          slot.clip.map MatrixClip.withoutSamples) =
          (doc.matrix.grid.map fun row => row.map fun slot =>
            slot.map (OpenLiveFile.Clip.asSaved baseDir)) ↔
        ∀ row ∈ doc.matrix.grid, ∀ clip, some clip ∈ row → clip.KeepsContent disk baseDir := by
    rw [← clips_eq_iff, ← clips_applied disk baseDir MatrixClip.withoutSamples hrows hwidth hscenes]
    exact Iff.rfl
  have hmeter : doc.meter.1 = doc.transport.timeSignature.1 := by
    show max doc.transport.timeSignature.1 1 = doc.transport.timeSignature.1
    omega
  constructor
  · intro h
    have hnext : max doc.matrix.nextClipId 1 = doc.matrix.nextClipId := h.nextClipId
    have hscenes := scenes_of_isRectangular disk baseDir (hrect.mp h.rectangular)
    exact
      { bpm := (clampBpm_eq_iff doc.transport.bpm).mp h.bpm
        division := (quantizationNumber_eq_iff doc.transport).mp h.division
        saved := fun t ht => (kept_track_iff toLowercase t).mp (h.saved t ht)
        tracks := hmix.mp ⟨h.tracks, h.rows⟩
        nextClipId := by omega
        scenes := hscenes
        clips := (hclips hscenes).mp h.clips
        view := (viewFromU8_eq_iff doc.view).mp h.view }
  · intro h
    exact
      { bpm := (clampBpm_eq_iff doc.transport.bpm).mpr h.bpm
        beats := hmeter
        division := (quantizationNumber_eq_iff doc.transport).mpr h.division
        saved := fun t ht => (kept_track_iff toLowercase t).mpr (h.saved t ht)
        tracks := (hmix.mpr h.tracks).1
        rows := (hmix.mpr h.tracks).2
        nextClipId := Nat.max_eq_left h.nextClipId
        clips := (hclips h.scenes).mpr h.clips
        rectangular := hrect.mpr (grid_applied disk baseDir hrows hwidth h.scenes).2
        view := (viewFromU8_eq_iff doc.view).mpr h.view }

end OpenLiveFile.Document

/-- An audio clip that says how long its sample is. -/
def OpenStudioFile.ClipKind.HasTotal : OpenStudioFile.ClipKind → Prop
  | .audio _ _ total => 0 < total
  | _ => True

/-- A saved clip taken as it is, but for the path of its sample. -/
def OpenStudioFile.PlaylistClipSaved.asSaved (baseDir : Option String)
    (saved : OpenStudioFile.PlaylistClipSaved) : TimelineClip :=
  { id := saved.id, name := saved.name, startTick := saved.startTick
    durationTicks := saved.durationTicks
    clipType :=
      match saved.kind with
      | .pattern patternId => .pattern patternId
      | .audio path offset total => .audio (resolvePath baseDir path) offset total
      | .automation points targetParam => .automation (points.map buildPoint) targetParam
    color := colorToGpui saved.color }

theorem buildTimelineClip_eq_iff (ppqn : ℕ) (bpm : ℚ) (saved : OpenStudioFile.PlaylistClipSaved) :
    buildTimelineClip disk baseDir ppqn bpm saved = saved.asSaved baseDir ↔
      0 < saved.durationTicks ∧ saved.kind.HasTotal := by
  obtain ⟨id, name, start, dur, color, kind⟩ := saved
  have hdur : max dur 1 = dur ↔ 0 < dur := by omega
  have hdurations (h : buildTimelineClip disk baseDir ppqn bpm ⟨id, name, start, dur, color, kind⟩ =
      OpenStudioFile.PlaylistClipSaved.asSaved baseDir ⟨id, name, start, dur, color, kind⟩) : 0 < dur :=
    hdur.mp (congrArg TimelineClip.durationTicks h)
  cases kind with
  | pattern patternId =>
    refine ⟨fun h => ⟨hdurations h, trivial⟩, fun ⟨hpos, _⟩ => ?_⟩
    show TimelineClip.mk id name start (max dur 1) _ _ = TimelineClip.mk id name start dur _ _
    rw [hdur.mpr hpos]
    rfl
  | automation points targetParam =>
    refine ⟨fun h => ⟨hdurations h, trivial⟩, fun ⟨hpos, _⟩ => ?_⟩
    show TimelineClip.mk id name start (max dur 1) _ _ = TimelineClip.mk id name start dur _ _
    rw [hdur.mpr hpos]
    rfl
  | audio path offset total =>
    constructor
    · intro h
      have hpos := hdurations h
      refine ⟨hpos, Nat.pos_of_ne_zero fun hzero => ?_⟩
      -- Without a total the clip gets its length, or a tick.
      have htype := congrArg TimelineClip.clipType h
      simp only [buildTimelineClip, buildType, OpenStudioFile.PlaylistClipSaved.asSaved,
        TimelineType.audio.injEq, hzero, Nat.lt_irrefl, if_false] at htype
      obtain ⟨_, _, htotal⟩ := htype
      split at htotal
      · omega
      · omega
    · rintro ⟨hpos, htotal⟩
      have htotal' : 0 < total := htotal
      show TimelineClip.mk id name start (max dur 1)
        (.audio (resolvePath baseDir path) offset (if 0 < total then total else _)) _ =
          TimelineClip.mk id name start dur (.audio (resolvePath baseDir path) offset total) _
      rw [hdur.mpr hpos, if_pos htotal']

namespace OpenStudioFile.Document

/-- The playlist once a studio document is opened. -/
def openedTimeline (doc : OpenStudioFile.Document) : Timeline :=
  appliedTimeline disk baseDir (ProjectState.clampBpm doc.transport.bpm)
    (s.stripsSeen (doc.project toLowercase)) doc.playlist

structure OpensAsIs (doc : OpenStudioFile.Document) : Prop where
  bpm : (s.apply disk baseDir (.openStudio (doc.project toLowercase))).1.transport.bpm = doc.transport.bpm
  beats : doc.meter.1 = doc.transport.beatsPerBar
  division : doc.meter.2 = doc.transport.beatDivision
  saved : ∀ t ∈ doc.studioTracks, captureTrack (buildTrack toLowercase t) = t
  tracks : doc.openedTracks toLowercase = doc.studioTracks.map (buildTrack toLowercase)
  clips : (doc.openedTimeline toLowercase disk baseDir s).clips =
    doc.playlist.clips.map fun x => (x.1, x.2.asSaved baseDir)
  ppqn : (doc.openedTimeline toLowercase disk baseDir s).ppqn = doc.playlist.ppqn
  nextClipId : (doc.openedTimeline toLowercase disk baseDir s).nextClipId = doc.playlist.nextClipId
  view : viewFromU8 doc.view = doc.view

/-- What a studio document must have in order to be opened as it is, besides what its validator asks
for. -/
structure NeedsNoRepair (doc : OpenStudioFile.Document) : Prop where
  bpm : 40 ≤ doc.transport.bpm ∧ doc.transport.bpm ≤ 300
  saved : ∀ t ∈ doc.studioTracks,
    t.panMode ≤ 1 ∧ ∀ e ∈ t.effects, e.wavetablePath = none ∧ e.WholeReference
  clips : ∀ x ∈ doc.playlist.clips, 0 < x.2.durationTicks ∧ x.2.kind.HasTotal
  rows : s.mode = .openLive → ∀ x ∈ doc.playlist.clips, x.1 < s.liveTracks.length
  nextClipId : 1 ≤ doc.playlist.nextClipId
  view : doc.view ≤ 1

/-- No clip is dropped unless the rows are looked up among fewer live strips. -/
theorem keys_openedTimeline {doc : OpenStudioFile.Document}
    (hrows : ∀ x ∈ doc.playlist.clips, x.1 < doc.studioTracks.length)
    (hlive : s.mode = .openLive → ∀ x ∈ doc.playlist.clips, x.1 < s.liveTracks.length) :
    (doc.openedTimeline toLowercase disk baseDir s).clips.map (fun x => (x.1, x.2.id)) =
      doc.playlist.clips.map fun x => (x.1, x.2.id) := by
  have hseen : ∀ x ∈ doc.playlist.clips, x.1 < s.stripsSeen (doc.project toLowercase) := by
    refine (ProjectState.stripsSeen_iff fun x hx => ?_).mpr hlive
    show x.1 < (doc.studioTracks.map _).length
    rw [List.length_map]
    exact hrows x hx
  have hkept : doc.playlist.clips.filter
      (fun x => decide (x.1 < s.stripsSeen (doc.project toLowercase))) = doc.playlist.clips :=
    List.filter_eq_self.mpr fun x hx => decide_eq_true (hseen x hx)
  show ((doc.playlist.clips.filter _).map _).map _ = _
  rw [hkept, List.map_map]
  rfl

theorem opensAsIs_iff {doc : OpenStudioFile.Document} (hbeats : doc.transport.beatsPerBar ≠ 0)
    (hdivision : doc.transport.beatDivision ≠ 0) (hppqn : doc.playlist.ppqn ≠ 0)
    (hrows : ∀ x ∈ doc.playlist.clips, x.1 < doc.studioTracks.length) (htracks : doc.studioTracks ≠ []) :
    doc.OpensAsIs toLowercase disk baseDir s ↔ doc.NeedsNoRepair s := by
  have hbuilt : doc.openedTracks toLowercase = doc.studioTracks.map (buildTrack toLowercase) :=
    if_neg htracks
  have hmeter : doc.meter.1 = doc.transport.beatsPerBar := by
    show max doc.transport.beatsPerBar 1 = doc.transport.beatsPerBar
    omega
  have hmeter' : doc.meter.2 = doc.transport.beatDivision := by
    show max doc.transport.beatDivision 1 = doc.transport.beatDivision
    omega
  have hseen : (∀ x ∈ doc.playlist.clips, x.1 < s.stripsSeen (doc.project toLowercase)) ↔
      (s.mode = .openLive → ∀ x ∈ doc.playlist.clips, x.1 < s.liveTracks.length) := by
    refine ProjectState.stripsSeen_iff fun x hx => ?_
    show x.1 < (doc.studioTracks.map _).length
    rw [List.length_map]
    exact hrows x hx
  have hclips : (doc.openedTimeline toLowercase disk baseDir s).clips =
      doc.playlist.clips.map (fun x => (x.1, x.2.asSaved baseDir)) ↔
        (∀ x ∈ doc.playlist.clips, x.1 < s.stripsSeen (doc.project toLowercase)) ∧
          ∀ x ∈ doc.playlist.clips, 0 < x.2.durationTicks ∧ x.2.kind.HasTotal := by
    refine (map_filter_eq_map_iff _ _ _ _).trans ?_
    simp only [decide_eq_true_eq, Prod.mk.injEq, true_and, buildTimelineClip_eq_iff]
  constructor
  · intro h
    obtain ⟨hall, hlong⟩ := hclips.mp h.clips
    have hnext : max doc.playlist.nextClipId 1 = doc.playlist.nextClipId := h.nextClipId
    exact
      { bpm := (clampBpm_eq_iff doc.transport.bpm).mp h.bpm
        saved := fun t ht => (kept_track_iff toLowercase t).mp (h.saved t ht)
        clips := hlong
        rows := hseen.mp hall
        nextClipId := by omega
        view := (viewFromU8_eq_iff doc.view).mp h.view }
  · intro h
    exact
      { bpm := (clampBpm_eq_iff doc.transport.bpm).mpr h.bpm
        beats := hmeter
        division := hmeter'
        saved := fun t ht => (kept_track_iff toLowercase t).mpr (h.saved t ht)
        tracks := hbuilt
        clips := hclips.mpr ⟨hseen.mpr h.rows, h.clips⟩
        ppqn := Nat.max_eq_left (Nat.pos_of_ne_zero hppqn)
        nextClipId := Nat.max_eq_left h.nextClipId
        view := (viewFromU8_eq_iff doc.view).mpr h.view }

end OpenStudioFile.Document

end

end HikaruOpenLive.Gui
