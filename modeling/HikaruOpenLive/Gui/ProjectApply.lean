import HikaruOpenLive.Gui.PlaylistState

/-! # Applying a project

A project file of either mode put in place of what the application holds, with the commands this sends.
The strips and clips of a file are those they are built into, but for the paths of its samples. What a
file keeps of the views, and the metadata, are left out.
-/
set_option autoImplicit false

namespace HikaruOpenLive.Gui

open Engine Transport Foundations.ListEdits

/-- The transport of a file, its loop region in ticks. -/
structure ProjectTransport where
  bpm : ℚ
  loopStartTicks : ℕ
  loopEndTicks : ℕ
  loopEnabled : Bool
deriving DecidableEq

structure OpenLiveProject where
  transport : ProjectTransport
  liveTracks : List MixerStrip
  masterVolume : ℚ
  masterPan : ℚ
  matrix : OpenLiveFile.Matrix

structure SavedPlaylist where
  clips : List (ℕ × PlaylistClip)
  ppqn : ℕ
  nextClipId : ℕ
  loopStartTicks : ℕ
  loopEndTicks : ℕ
  loopRegionActive : Bool

structure OpenStudioProject where
  transport : ProjectTransport
  studioTracks : List MixerStrip
  playlist : SavedPlaylist

inductive Project where
  | openLive (project : OpenLiveProject)
  | openStudio (project : OpenStudioProject)

def Project.transport : Project → ProjectTransport
  | .openLive project => project.transport
  | .openStudio project => project.transport

/-- What the application sends. -/
inductive SentCommand where
  | setBpm (bpm : ℚ)
  | setGlobalLoop (startSamples endSamples : ℕ) (enabled : Bool)
  | mixer (cmd : MixerCommand)
  | pad (cmd : PadCommand)
  | playlist (cmd : PlaylistCommand)

/-- The part of the application that a project fills. The loop is in it three times: in the transport,
in the ruler of the playlist with its switch, and as it was last sent. -/
structure ProjectState where
  mode : AppMode
  transport : TransportPosition
  isLooping : Bool
  globalLoopSyncedToEngine : Option (Bool × ℕ × ℕ)
  bpmSyncedToEngine : ℚ
  liveTracks : List MixerStrip
  studioTracks : List MixerStrip
  matrix : MatrixSession
  playlistState : PlaylistState

namespace ProjectState

def tracks (s : ProjectState) : List MixerStrip :=
  match s.mode with
  | .openLive => s.liveTracks
  | .openStudio => s.studioTracks

def clampBpm (bpm : ℚ) : ℚ :=
  max 40 (min bpm 300)

/-- The transport at the tempo of a file and with its loop region, which is sent as well. -/
def applyLoop (s : ProjectState) (saved : ProjectTransport) : ProjectState × List SentCommand :=
  let startSamples := s.transport.ticksToSamples saved.loopStartTicks
  let endSamples := s.transport.ticksToSamples saved.loopEndTicks
  ({ s with
      transport :=
        { s.transport with
          loopEnabled := saved.loopEnabled, loopStartSamples := startSamples
          loopEndSamples := endSamples }
      globalLoopSyncedToEngine := none },
    [.setGlobalLoop startSamples endSamples saved.loopEnabled])

def withBpm (s : ProjectState) (saved : ProjectTransport) : ProjectState :=
  { s with transport := { s.transport with bpm := clampBpm saved.bpm } }

def applyOpenLive (disk : Disk) (baseDir : Option String) (s : ProjectState) (project : OpenLiveProject) :
    ProjectState × List SentCommand :=
  let s := s.withBpm project.transport
  let live := updateFirst MixerStrip.isMaster
    (fun t => { t with volume := project.masterVolume, pan := project.masterPan })
    (tracksOrDefault project.liveTracks defaultLiveTracks)
  let (matrix, padCommands) := applyMatrix disk baseDir s.transport.bpm project.matrix
  let (live, metas, mixCommands) := syncMatrixMixer live matrix.matrix.tracks [] []
  let s := { s with
    liveTracks := live
    matrix := { matrix with matrix := { matrix.matrix with tracks := metas } } }
  -- The strips pushed are those of the mode that the file is opened from.
  let pushed := pushTrackMixToEngine s.tracks
  let (s, loopCommands) := { s with mode := .openLive }.applyLoop project.transport
  (s, .setBpm s.transport.bpm :: padCommands.map .pad ++ mixCommands.map .mixer ++
    pushed.map .mixer ++ loopCommands)

def buildPlaylistClip (disk : Disk) (baseDir : Option String) (ppqn : ℕ) (bpm : ℚ) (saved : PlaylistClip) :
    PlaylistClip :=
  { saved with
    durationTicks := max saved.durationTicks 1
    clipType :=
      match saved.clipType with
      | .audio path offset total =>
        let resolved := resolvePath baseDir path
        let duration := if 0 < loadSampleInfo disk resolved ppqn bpm then saved.durationTicks else 1
        .audio resolved offset (if 0 < total then total else duration)
      | other => other }

/-- The playlist of a file; a clip on a row beyond the strips is dropped. -/
def appliedPlaylist (disk : Disk) (baseDir : Option String) (bpm : ℚ) (strips : ℕ)
    (saved : SavedPlaylist) : PlaylistState :=
  let ppqn := max saved.ppqn 1
  { PlaylistState.default with
    ppqn := ppqn
    nextClipId := max saved.nextClipId 1
    loopStartTicks := saved.loopStartTicks
    loopEndTicks := saved.loopEndTicks
    loopRegionActive := saved.loopRegionActive
    clips := (saved.clips.filter fun (key, _) => decide (key < strips)).map fun (key, clip) =>
      (key, buildPlaylistClip disk baseDir ppqn bpm clip) }

def applyOpenStudio (disk : Disk) (baseDir : Option String) (s : ProjectState)
    (project : OpenStudioProject) : ProjectState × List SentCommand :=
  let s := { s.withBpm project.transport with
    studioTracks := tracksOrDefault project.studioTracks defaultStudioTracks }
  let s := { s with
    playlistState :=
      appliedPlaylist disk baseDir s.transport.bpm s.tracks.length project.playlist }
  let pushed := pushTrackMixToEngine s.tracks
  let (s, loopCommands) := { s with mode := .openStudio }.applyLoop project.transport
  (s, .setBpm s.transport.bpm :: pushed.map .mixer ++ loopCommands)

def apply (disk : Disk) (baseDir : Option String) (s : ProjectState) :
    Project → ProjectState × List SentCommand
  | .openLive project => s.applyOpenLive disk baseDir project
  | .openStudio project => s.applyOpenStudio disk baseDir project

/-- The transport as a project is saved with it. -/
def captureTransport (s : ProjectState) : ProjectTransport :=
  { bpm := s.transport.bpm
    loopStartTicks := s.transport.samplesToTicks s.transport.loopStartSamples
    loopEndTicks := s.transport.samplesToTicks s.transport.loopEndSamples
    loopEnabled := s.transport.loopEnabled }

end ProjectState

end HikaruOpenLive.Gui
