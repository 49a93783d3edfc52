import HikaruOpenLive.Gui.ProjectApply

/-! # The faders and switches of the views

The same four values of a track can be set in three views: in the header of its row in the matrix, in the
channel strips of the arranger and the mixer, and in the header of its row in the playlist. Each view has
an index of its own for the track and sends it to the engine as it is.
-/
set_option autoImplicit false

namespace HikaruOpenLive.Gui

open Engine

/-- A new value of a fader or of a switch. -/
inductive MixChange where
  | volume (volume : ℚ)
  | pan (pan : ℚ)
  | mute (mute : Bool)
  | solo (solo : Bool)

namespace MixChange

def command (idx : ℕ) : MixChange → MixerCommand
  | .volume v => .setTrackVolume idx v
  | .pan v => .setTrackPan idx v
  | .mute on => .setTrackMute idx on
  | .solo on => .setTrackSolo idx on

def onStrip (t : MixerStrip) : MixChange → MixerStrip
  | .volume v => { t with volume := v }
  | .pan v => { t with pan := v }
  | .mute on => { t with mute := on }
  | .solo on => { t with solo := on }

def onTrack (t : TrackMeta) : MixChange → TrackMeta
  | .volume v => { t with volume := v }
  | .pan v => { t with pan := v }
  | .mute on => { t with muted := on }
  | .solo on => { t with soloed := on }

end MixChange

namespace ProjectState

def changeTrack (s : ProjectState) (trackIdx : ℕ) (c : MixChange) : ProjectState :=
  { s with
    matrix :=
      { s.matrix with
        matrix :=
          { s.matrix.matrix with tracks := s.matrix.matrix.tracks.modify trackIdx fun t => c.onTrack t } } }

/-- A track of the matrix and its mirror in the live strips, where the master comes first. -/
def changeLive (s : ProjectState) (trackIdx : ℕ) (c : MixChange) : ProjectState :=
  { s.changeTrack trackIdx c with
    liveTracks := s.liveTracks.modify (trackIdx + 1) fun t => c.onStrip t }

def changeStudio (s : ProjectState) (idx : ℕ) (c : MixChange) : ProjectState :=
  { s with studioTracks := s.studioTracks.modify idx fun t => c.onStrip t }

def changeFirst (s : ProjectState) (c : MixChange) : ProjectState :=
  match s.mode with
  | .openLive => { s with liveTracks := s.liveTracks.modify 0 fun t => c.onStrip t }
  | .openStudio => { s with studioTracks := s.studioTracks.modify 0 fun t => c.onStrip t }

/-! ## The header of a row in the matrix -/

def applyMatrixVolume (s : ProjectState) (trackIdx : ℕ) (volume : ℚ) :
    ProjectState × List MixerCommand :=
  let c := MixChange.volume (max 0 (min volume 1))
  (s.changeLive trackIdx c, [c.command trackIdx])

def applyMatrixPan (s : ProjectState) (trackIdx : ℕ) (pan : ℚ) : ProjectState × List MixerCommand :=
  let c := MixChange.pan (max (-1) (min pan 1))
  (s.changeLive trackIdx c, [c.command trackIdx])

/-- A switch of the header changes the matrix alone, and panics without the track. -/
def toggleMatrixSwitch (s : ProjectState) (trackIdx : ℕ) (isOn : TrackMeta → Bool)
    (change : Bool → MixChange) : Option (ProjectState × List MixerCommand) :=
  s.matrix.matrix.tracks[trackIdx]?.map fun t =>
    let c := change (!isOn t)
    (s.changeTrack trackIdx c, [c.command trackIdx])

def toggleMatrixMute (s : ProjectState) (trackIdx : ℕ) : Option (ProjectState × List MixerCommand) :=
  s.toggleMatrixSwitch trackIdx TrackMeta.muted .mute

def toggleMatrixSolo (s : ProjectState) (trackIdx : ℕ) : Option (ProjectState × List MixerCommand) :=
  s.toggleMatrixSwitch trackIdx TrackMeta.soloed .solo

/-! ## A channel strip of the arranger or the mixer -/

/-- The engine hears nothing of the master, and of the return tracks neither. -/
def setFader (s : ProjectState) (target : StripTarget) (c : MixChange) :
    ProjectState × List MixerCommand :=
  match target with
  | .master => (s.changeFirst c, [])
  | .live idx =>
    if idx < s.matrix.matrix.tracks.length then (s.changeLive idx c, [c.command idx]) else (s, [])
  | .studio idx =>
    if idx < s.studioTracks.length then (s.changeStudio idx c, [c.command idx]) else (s, [])
  | .fx _ => (s, [])

def setVolume (s : ProjectState) (target : StripTarget) (volume : ℚ) :
    ProjectState × List MixerCommand :=
  s.setFader target (.volume (max 0 (min volume 1)))

def setPan (s : ProjectState) (target : StripTarget) (pan : ℚ) : ProjectState × List MixerCommand :=
  s.setFader target (.pan (max (-1) (min pan 1)))

def toggleTarget (s : ProjectState) (target : StripTarget) (onTrack : TrackMeta → Bool)
    (onStrip : MixerStrip → Bool) (change : Bool → MixChange) : ProjectState × List MixerCommand :=
  match target with
  | .master => (s.changeFirst (change (!(s.tracks[0]?.map onStrip).getD false)), [])
  | .live idx =>
    let c := change (!(s.matrix.matrix.tracks[idx]?.map onTrack).getD false)
    (s.changeLive idx c, [c.command idx])
  | .studio idx =>
    match s.studioTracks[idx]? with
    | none => (s, [])
    | some t => (s.changeStudio idx (change (!onStrip t)), [(change (!onStrip t)).command idx])
  | .fx _ => (s, [])

def toggleMuteTarget (s : ProjectState) (target : StripTarget) : ProjectState × List MixerCommand :=
  s.toggleTarget target TrackMeta.muted MixerStrip.mute .mute

def toggleSoloTarget (s : ProjectState) (target : StripTarget) : ProjectState × List MixerCommand :=
  s.toggleTarget target TrackMeta.soloed MixerStrip.solo .solo

/-! ## The header of a row in the playlist -/

/-- A row of the playlist goes by the index of its strip in either mode. -/
def playlistRowToEngineIdx (s : ProjectState) (row : ℕ) : ℕ :=
  match s.mode with
  | .openLive => row
  | .openStudio => row

def applyPlaylistFader (s : ProjectState) (row : ℕ) (c : MixChange) : ProjectState × List MixerCommand :=
  let engineIdx := s.playlistRowToEngineIdx row
  match s.mode with
  | .openLive => (s.changeLive row c, [c.command engineIdx])
  | .openStudio => (s.changeStudio engineIdx c, [c.command engineIdx])

def applyPlaylistVolume (s : ProjectState) (row : ℕ) (volume : ℚ) :
    ProjectState × List MixerCommand :=
  s.applyPlaylistFader row (.volume (max 0 (min volume 1)))

def applyPlaylistPan (s : ProjectState) (row : ℕ) (pan : ℚ) : ProjectState × List MixerCommand :=
  s.applyPlaylistFader row (.pan (max (-1) (min pan 1)))

def togglePlaylistSwitch (s : ProjectState) (row : ℕ) (onTrack : TrackMeta → Bool)
    (onStrip : MixerStrip → Bool) (change : Bool → MixChange) : ProjectState × List MixerCommand :=
  let engineIdx := s.playlistRowToEngineIdx row
  match s.mode with
  | .openLive =>
    let c := change ((s.matrix.matrix.tracks[row]?.map fun t => !onTrack t).getD false)
    (s.changeLive row c, [c.command engineIdx])
  | .openStudio =>
    match s.studioTracks[engineIdx]? with
    | none => (s, [])
    | some t =>
      (s.changeStudio engineIdx (change (!onStrip t)), [(change (!onStrip t)).command engineIdx])

def togglePlaylistMute (s : ProjectState) (row : ℕ) : ProjectState × List MixerCommand :=
  s.togglePlaylistSwitch row TrackMeta.muted MixerStrip.mute .mute

def togglePlaylistSolo (s : ProjectState) (row : ℕ) : ProjectState × List MixerCommand :=
  s.togglePlaylistSwitch row TrackMeta.soloed MixerStrip.solo .solo

/-! ## Which index they send -/

theorem setFader_commands {s : ProjectState} {target : StripTarget} {c : MixChange} {cmd : MixerCommand}
    (h : cmd ∈ (s.setFader target c).2) :
    ∃ idx c', (target = .live idx ∨ target = .studio idx) ∧ cmd = MixChange.command idx c' := by
  unfold setFader at h
  cases target with
  | master => exact absurd h List.not_mem_nil
  | fx idx => exact absurd h List.not_mem_nil
  | live idx =>
    simp only at h
    split at h
    · exact ⟨idx, c, Or.inl rfl, List.mem_singleton.mp h⟩
    · exact absurd h List.not_mem_nil
  | studio idx =>
    simp only at h
    split at h
    · exact ⟨idx, c, Or.inr rfl, List.mem_singleton.mp h⟩
    · exact absurd h List.not_mem_nil

theorem toggleTarget_commands {s : ProjectState} {target : StripTarget} {onTrack : TrackMeta → Bool}
    {onStrip : MixerStrip → Bool} {change : Bool → MixChange} {cmd : MixerCommand}
    (h : cmd ∈ (s.toggleTarget target onTrack onStrip change).2) :
    ∃ idx c', (target = .live idx ∨ target = .studio idx) ∧ cmd = MixChange.command idx c' := by
  unfold toggleTarget at h
  cases target with
  | master => exact absurd h List.not_mem_nil
  | fx idx => exact absurd h List.not_mem_nil
  | live idx => exact ⟨idx, _, Or.inl rfl, List.mem_singleton.mp h⟩
  | studio idx =>
    simp only at h
    split at h
    · exact absurd h List.not_mem_nil
    · exact ⟨idx, _, Or.inr rfl, List.mem_singleton.mp h⟩

theorem playlistRowToEngineIdx_eq (s : ProjectState) (row : ℕ) : s.playlistRowToEngineIdx row = row := by
  unfold playlistRowToEngineIdx
  split
  · rfl
  · rfl

theorem applyPlaylistFader_commands {s : ProjectState} {row : ℕ} {c : MixChange} {cmd : MixerCommand}
    (h : cmd ∈ (s.applyPlaylistFader row c).2) : ∃ c', cmd = MixChange.command row c' := by
  unfold applyPlaylistFader at h
  rw [playlistRowToEngineIdx_eq] at h
  simp only at h
  split at h
  · exact ⟨c, List.mem_singleton.mp h⟩
  · exact ⟨c, List.mem_singleton.mp h⟩

theorem togglePlaylistSwitch_commands {s : ProjectState} {row : ℕ} {onTrack : TrackMeta → Bool}
    {onStrip : MixerStrip → Bool} {change : Bool → MixChange} {cmd : MixerCommand}
    (h : cmd ∈ (s.togglePlaylistSwitch row onTrack onStrip change).2) :
    ∃ c', cmd = MixChange.command row c' := by
  unfold togglePlaylistSwitch at h
  rw [playlistRowToEngineIdx_eq] at h
  simp only at h
  split at h
  · exact ⟨_, List.mem_singleton.mp h⟩
  · split at h
    · exact absurd h List.not_mem_nil
    · exact ⟨_, List.mem_singleton.mp h⟩

end ProjectState

end HikaruOpenLive.Gui
