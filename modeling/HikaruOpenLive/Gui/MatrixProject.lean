import HikaruOpenLive.Gui.MatrixState

/-! # The matrix in a project file

What a project keeps of the matrix, and how it is captured and applied. No audio is saved: the clips and
their events name their files, which are decoded again. Applying a matrix registers every clip with the
engine.
-/
set_option autoImplicit false

namespace HikaruOpenLive.Gui

namespace OpenLiveFile

structure Event where
  id : ℕ
  name : String
  sourcePath : String
  startSecs : ℚ
  trimLeftFrames : ℕ
  visibleFrames : ℕ
  gain : ℚ
  fadeInSecs : ℚ
  fadeOutSecs : ℚ

structure Clip where
  id : ℕ
  name : String
  path : String
  loopStart : ℕ
  loopEnd : ℕ
  loopEnabled : Bool
  volume : ℚ
  pan : ℚ
  mute : Bool
  events : List Event
  midiNotes : List MidiNote

structure Matrix where
  tracks : List TrackMeta
  scenes : List SceneMeta
  grid : List (List (Option Clip))
  nextClipId : ℕ

def defaultMatrix : Matrix :=
  { tracks := (List.range 8).map fun i => ⟨"Track " ++ toString (i + 1), false, false, 3 / 4, 0⟩
    scenes := (List.range 8).map fun i => ⟨"Scene " ++ toString (i + 1)⟩
    grid := List.replicate 8 (List.replicate 8 none)
    nextClipId := 1 }

end OpenLiveFile

open OpenLiveFile (defaultMatrix)

def SessionMatrixState.default : SessionMatrixState :=
  { grid := List.replicate defaultMatrix.tracks.length
      (List.replicate defaultMatrix.scenes.length .default)
    tracks := defaultMatrix.tracks
    scenes := defaultMatrix.scenes
    nextClipId := 1
    selectedSlot := none }

/-! ## Capture -/

/-- An event without a file cannot be decoded again and is not saved. -/
def AudioEvent.capture (e : AudioEvent) : Option OpenLiveFile.Event :=
  e.sourcePath.map fun path =>
    { id := e.id, name := e.name, sourcePath := path, startSecs := e.startSecs
      trimLeftFrames := e.trimLeftFrames, visibleFrames := e.visibleFrames, gain := e.gain
      fadeInSecs := e.fadeInSecs, fadeOutSecs := e.fadeOutSecs }

def captureClip (clip : MatrixClip) : OpenLiveFile.Clip :=
  { id := clip.id, name := clip.name, path := clip.path, loopStart := clip.loopStart
    loopEnd := clip.loopEnd, loopEnabled := clip.loopEnabled, volume := clip.volume
    pan := clip.pan, mute := clip.mute
    events := clip.audioEvents.filterMap AudioEvent.capture
    midiNotes :=
      match clip.content with
      | .audio _ _ => []
      | .midi notes => notes }

def captureMatrix (m : SessionMatrixState) : OpenLiveFile.Matrix :=
  { tracks := m.tracks, scenes := m.scenes
    grid := m.grid.map fun row => row.map fun slot => slot.clip.map captureClip
    nextClipId := m.nextClipId }

/-! ## Apply -/

def isAbsolute (path : String) : Bool :=
  path.toList.head? == some '/'

/-- `Path::join` with a relative path. -/
def joinPath (dir raw : String) : String :=
  if dir = "" ∨ dir.toList.getLast? = some '/' then dir ++ raw else dir ++ "/" ++ raw

/-- A relative path is taken from the directory of the project. -/
def resolvePath (baseDir : Option String) (raw : String) : String :=
  if isAbsolute raw then raw
  else
    match baseDir with
    | some dir => joinPath dir raw
    | none => raw

/-- An event decoded again, `none` if its file cannot be. -/
def buildEvent (disk : Disk) (baseDir : Option String) (e : OpenLiveFile.Event) :
    Option AudioEvent :=
  let path := resolvePath baseDir e.sourcePath
  (decodeAudioFile disk path).map fun (samples, channels, sampleRate) =>
    { id := e.id, name := e.name, sourcePath := some path, samples := samples
      channels := channels, sampleRate := sampleRate, startSecs := e.startSecs
      trimLeftFrames := e.trimLeftFrames, visibleFrames := e.visibleFrames, gain := e.gain
      fadeInSecs := e.fadeInSecs, fadeOutSecs := e.fadeOutSecs }

/-- The file of a clip as an event of its own, for a clip left without events. -/
def MatrixClip.pushBaseSample (clip : MatrixClip) (disk : Disk) : MatrixClip :=
  match decodeAudioFile disk clip.path with
  | none => clip
  | some (samples, channels, sampleRate) =>
    clip.pushEvent fun id =>
      { AudioEvent.newFull id (fileStem clip.path) samples channels sampleRate 0 with
        sourcePath := some clip.path }

def buildClip (disk : Disk) (baseDir : Option String) (saved : OpenLiveFile.Clip) : MatrixClip :=
  let path := resolvePath baseDir saved.path
  let clip : MatrixClip :=
    { id := saved.id, name := saved.name, path := path
      content :=
        if saved.midiNotes ≠ [] ∨ isMidiFile path then .midi saved.midiNotes
        else
          .audio (saved.events.filterMap (buildEvent disk baseDir))
            (((saved.events.map fun e => e.id + 1).max?).getD 1)
      loopStart := saved.loopStart, loopEnd := saved.loopEnd, loopEnabled := saved.loopEnabled
      volume := saved.volume, pan := saved.pan, mute := saved.mute }
  if clip.audioEvents = [] then clip.pushBaseSample disk else clip

/-- The resolution of the timeline, in ticks per quarter note. -/
def ppqn : ℕ :=
  960

def ticksToSecsPrecise (ticks ppqn : ℕ) (bpm : ℚ) : ℚ :=
  if ppqn = 0 ∨ bpm ≤ 0 then 0 else ticks * (60 / bpm / ppqn)

/-- What registers a clip with the engine: the clip itself, its events, its loop. -/
def registerClip (bpm : ℚ) (clip : MatrixClip) (track scene : ℕ) : List PadCommand :=
  (match clip.content with
    | .audio events _ =>
      .loadClip clip.id clip.path track scene ::
        if events = [] then [] else clip.syncAudioEventsToEngine track scene
    | .midi notes => [.updateMidiClipNotes track scene notes]) ++
  [.setClipLoop track scene (ticksToSecsPrecise clip.loopStart ppqn bpm)
    (ticksToSecsPrecise clip.loopEnd ppqn bpm) clip.loopEnabled]

/-- The grid of an applied matrix: that of the file if it has tracks and scenes. Rows without a track are
dropped, and of the first row the slots without a scene. -/
def appliedGrid (disk : Disk) (baseDir : Option String) (saved : OpenLiveFile.Matrix) :
    List (List MatrixSlot) :=
  let grid :=
    if saved.tracks ≠ [] ∧ saved.scenes ≠ [] then
      saved.grid.map fun row => row.map fun slot =>
        ⟨if slot.isSome then .stopped else .empty, slot.map (buildClip disk baseDir)⟩
    else SessionMatrixState.default.grid
  (grid.take saved.tracks.length).modifyHead fun row => row.take saved.scenes.length

def appliedMatrix (disk : Disk) (baseDir : Option String) (saved : OpenLiveFile.Matrix) :
    SessionMatrixState :=
  { grid := appliedGrid disk baseDir saved
    tracks := saved.tracks
    scenes := saved.scenes
    nextClipId := max saved.nextClipId 1
    selectedSlot := none }

def SessionMatrixState.registerCommands (m : SessionMatrixState) (bpm : ℚ) : List PadCommand :=
  m.grid.zipIdx.flatMap fun (row, track) => row.zipIdx.flatMap fun (slot, scene) =>
    match slot.clip with
    | none => []
    | some clip => registerClip bpm clip track scene

/-- The matrix of a project put in place of the one there is, at a tempo. -/
def applyMatrix (disk : Disk) (baseDir : Option String) (bpm : ℚ) (saved : OpenLiveFile.Matrix) :
    MatrixSession × List PadCommand :=
  let next := appliedMatrix disk baseDir saved
  (⟨next, none⟩, next.registerCommands bpm)

end HikaruOpenLive.Gui
