import HikaruOpenLive.Gui.CommandLoop
import HikaruOpenLive.Gui.WavFile

/-! # The session matrix of the GUI

The grid of pads with its tracks and scenes, the edits of it and the commands they send. An edit that
indexes the grid where it has no slot panics, which is `none` here; one that asks for the slot first
does nothing there.

What only the view draws is left out of a clip: its length in seconds, its preview, its peaks and the
state of its editor.
-/
set_option autoImplicit false

namespace HikaruOpenLive.Gui

/-! ## Paths -/

/-- The file name of a path without its last extension, and the extension. -/
def splitExtension (path : String) : List Char × List Char :=
  let name := path.toList.reverse.takeWhile (· ≠ '/')
  let stem := (name.dropWhile (· ≠ '.')).tail
  if stem = [] then (name.reverse, []) else (stem.reverse, (name.takeWhile (· ≠ '.')).reverse)

def fileStem (path : String) : String :=
  String.ofList (splitExtension path).1

def isMidiFile (path : String) : Bool :=
  decide ((splitExtension path).2.map Char.toLower ∈ [['m', 'i', 'd'], ['m', 'i', 'd', 'i']])

/-! ## Clips and slots -/

inductive SlotState where
  | empty
  | stopped
  | queuedToPlay
  | playing
  | queuedToStop
deriving DecidableEq

structure AudioEvent where
  id : ℕ
  name : String
  sourcePath : Option String
  samples : List ℚ
  channels : ℕ
  sampleRate : ℕ
  startSecs : ℚ
  trimLeftFrames : ℕ
  visibleFrames : ℕ
  gain : ℚ
  fadeInSecs : ℚ
  fadeOutSecs : ℚ
deriving DecidableEq

namespace AudioEvent

def newFull (id : ℕ) (name : String) (samples : List ℚ) (channels sampleRate : ℕ)
    (startSecs : ℚ) : AudioEvent :=
  { id := id, name := name, sourcePath := none, samples := samples, channels := channels
    sampleRate := sampleRate, startSecs := startSecs, trimLeftFrames := 0
    visibleFrames := samples.length / max channels 1, gain := 1, fadeInSecs := 0, fadeOutSecs := 0 }

def totalFrames (e : AudioEvent) : ℕ :=
  e.samples.length / max e.channels 1

def frames (e : AudioEvent) : ℕ :=
  min (e.totalFrames - e.trimLeftFrames) e.visibleFrames

/-- The samples of the visible window. -/
def windowSamples (e : AudioEvent) : List ℚ :=
  let ch := max e.channels 1
  let start := min (e.trimLeftFrames * ch) e.samples.length
  let stop := min (start + e.frames * ch) e.samples.length
  (e.samples.take stop).drop start

def durationSecs (e : AudioEvent) : ℚ :=
  if e.sampleRate = 0 then 0 else (e.frames : ℚ) / e.sampleRate

def endSecs (e : AudioEvent) : ℚ :=
  e.startSecs + e.durationSecs

/-- What the engine is sent of an event. -/
def payload (e : AudioEvent) : EngineEventData :=
  { id := e.id, samples := e.windowSamples, channels := e.channels, clipStartSecs := e.startSecs
    sampleRate := e.sampleRate, gain := e.gain, fadeInSecs := e.fadeInSecs
    fadeOutSecs := e.fadeOutSecs }

end AudioEvent

/-- The start, the pitch, the velocity and the duration of a note, times in ticks. -/
abbrev MidiNote :=
  ℕ × ℕ × ℕ × ℕ

inductive ClipData where
  | audio (events : List AudioEvent) (nextEventId : ℕ)
  | midi (notes : List MidiNote)
deriving DecidableEq

/-- A clip of the matrix with the volume, pan and mute of its own channel. -/
structure MatrixClip where
  id : ℕ
  name : String
  path : String
  content : ClipData
  loopStart : ℕ
  loopEnd : ℕ
  loopEnabled : Bool
  volume : ℚ
  pan : ℚ
  mute : Bool
deriving DecidableEq

namespace MatrixClip

def isMidi (clip : MatrixClip) : Bool :=
  match clip.content with
  | .audio _ _ => false
  | .midi _ => true

def audioEvents (clip : MatrixClip) : List AudioEvent :=
  match clip.content with
  | .audio events _ => events
  | .midi _ => []

/-- The end of the last event. -/
def audioTotalSecs (clip : MatrixClip) : ℚ :=
  (clip.audioEvents.map AudioEvent.endSecs).foldl max 0

/-- A new event at the end of the list, with a fresh id. -/
def pushEvent (clip : MatrixClip) (event : ℕ → AudioEvent) : MatrixClip :=
  match clip.content with
  | .audio events nextEventId =>
    let id := max nextEventId 1
    { clip with content := .audio (events ++ [event id]) (id + 1) }
  | .midi _ => clip

end MatrixClip

structure MatrixSlot where
  state : SlotState
  clip : Option MatrixClip
deriving DecidableEq

namespace MatrixSlot

def default : MatrixSlot :=
  ⟨.empty, none⟩

def active (slot : MatrixSlot) : Bool :=
  match slot.state with
  | .playing | .queuedToPlay | .queuedToStop => true
  | .empty | .stopped => false

end MatrixSlot

structure TrackMeta where
  name : String
  muted : Bool
  soloed : Bool
  volume : ℚ
  pan : ℚ
deriving DecidableEq

structure SceneMeta where
  name : String
deriving DecidableEq

structure SessionMatrixState where
  grid : List (List MatrixSlot)
  tracks : List TrackMeta
  scenes : List SceneMeta
  nextClipId : ℕ
  selectedSlot : Option (ℕ × ℕ)
deriving DecidableEq

/-! ## Commands -/

/-- What the matrix sends to the engine. Pads load whole files from the start. -/
inductive PadCommand where
  | loadClip (clipId : ℕ) (path : String) (trackIndex sceneIndex : ℕ)
  | setClipEvents (trackIdx sceneIdx : ℕ) (events : List EngineEventData)
  | setClipLoop (trackIdx sceneIdx : ℕ) (startSecs endSecs : ℚ) (enabled : Bool)
  | updateMidiClipNotes (trackIdx sceneIdx : ℕ) (notes : List MidiNote)
  | triggerClip (trackIdx sceneIdx : ℕ)
  | triggerScene (sceneIdx : ℕ)

namespace MatrixClip

def syncAudioEventsToEngine (clip : MatrixClip) (trackIdx sceneIdx : ℕ) : List PadCommand :=
  match clip.content with
  | .audio events _ => [.setClipEvents trackIdx sceneIdx (events.map AudioEvent.payload)]
  | .midi _ => []

/-- A further file on a pad: an event after those there are. A file that cannot be decoded is loaded
into the engine in the clip's place. -/
def appendSampleAsEvent (clip : MatrixClip) (disk : Disk) (trackIdx sceneIdx : ℕ) (path : String) :
    MatrixClip × List PadCommand :=
  match decodeAudioFile disk path with
  | some (samples, channels, sampleRate) =>
    let appended := clip.pushEvent fun id =>
      { AudioEvent.newFull id (fileStem path) samples channels sampleRate clip.audioTotalSecs with
        sourcePath := some path }
    (appended, appended.syncAudioEventsToEngine trackIdx sceneIdx)
  | none => (clip, [.loadClip clip.id path trackIdx sceneIdx])

/-- A file that can be decoded is the next event, and all the events are sent. -/
theorem appendSampleAsEvent_decoded {clip : MatrixClip} {disk : Disk} {path : String}
    {events : List AudioEvent} {nextEventId : ℕ} (hcontent : clip.content = .audio events nextEventId)
    {samples : List ℚ} {channels sampleRate : ℕ}
    (hdecode : decodeAudioFile disk path = some (samples, channels, sampleRate)) (track scene : ℕ) :
    let event : AudioEvent :=
      { AudioEvent.newFull (max nextEventId 1) (fileStem path) samples channels sampleRate
          clip.audioTotalSecs with sourcePath := some path }
    let appended : MatrixClip :=
      { clip with content := .audio (events ++ [event]) (max nextEventId 1 + 1) }
    clip.appendSampleAsEvent disk track scene path =
      (appended, [.setClipEvents track scene (appended.audioEvents.map AudioEvent.payload)]) := by
  simp only [appendSampleAsEvent, hdecode, pushEvent, hcontent]
  rfl

/-- The clip a file makes on a pad that holds no audio. -/
def ofFile (id : ℕ) (path : String) (content : ClipData) (totalFrames : ℕ) : MatrixClip :=
  { id := id, name := fileStem path, path := path, content := content, loopStart := 0
    loopEnd := totalFrames, loopEnabled := true, volume := 3 / 4, pan := 0, mute := false }

end MatrixClip

namespace SessionMatrixState

/-! ## Slots -/

def slot? (m : SessionMatrixState) (track scene : ℕ) : Option MatrixSlot :=
  m.grid[track]?.bind fun row => row[scene]?

def clip? (m : SessionMatrixState) (track scene : ℕ) : Option MatrixClip :=
  (m.slot? track scene).bind MatrixSlot.clip

def modifySlot (m : SessionMatrixState) (track scene : ℕ) (f : MatrixSlot → MatrixSlot) :
    SessionMatrixState :=
  { m with grid := m.grid.modify track fun row => row.modify scene f }

/-- A slot written by its index, which panics where there is none. -/
def writeSlot (m : SessionMatrixState) (track scene : ℕ) (slot : MatrixSlot) :
    Option SessionMatrixState :=
  (m.slot? track scene).map fun _ => m.modifySlot track scene fun _ => slot

/-! ## Tracks and scenes -/

def addTrack (m : SessionMatrixState) : SessionMatrixState :=
  { m with
    tracks := m.tracks ++
      [⟨"Audio " ++ toString (m.tracks.length + 1), false, false, 3 / 4, 0⟩]
    grid := m.grid ++ [List.replicate m.scenes.length .default] }

def removeTrack (m : SessionMatrixState) : SessionMatrixState :=
  if 1 < m.tracks.length then
    { m with
      tracks := m.tracks.dropLast
      grid := m.grid.dropLast
      selectedSlot := m.selectedSlot.filter fun slot => decide (slot.1 < m.tracks.length - 1) }
  else m

def addScene (m : SessionMatrixState) : SessionMatrixState :=
  { m with
    scenes := m.scenes ++ [⟨"Scene " ++ toString (m.scenes.length + 1)⟩]
    grid := m.grid.map fun row => row ++ [.default] }

def removeScene (m : SessionMatrixState) : SessionMatrixState :=
  if 1 < m.scenes.length then
    { m with
      scenes := m.scenes.dropLast
      grid := m.grid.map List.dropLast
      selectedSlot := m.selectedSlot.filter fun slot => decide (slot.2 < m.scenes.length - 1) }
  else m

/-! ## Loading and editing pads -/

def syncMidiClip (m : SessionMatrixState) (track scene : ℕ) : List PadCommand :=
  match (m.clip? track scene).map MatrixClip.content with
  | some (.midi notes) => [.updateMidiClipNotes track scene notes]
  | _ => []

/-- A file dropped on a pad. -/
def loadClipIntoSlot (m : SessionMatrixState) (disk : Disk) (track scene : ℕ) (path : String) :
    Option (SessionMatrixState × List PadCommand) :=
  let m' := { m with nextClipId := m.nextClipId + 1 }
  if isMidiFile path then
    (m'.writeSlot track scene ⟨.stopped, some (.ofFile m.nextClipId path (.midi []) 0)⟩).map fun m =>
      (m, m.syncMidiClip track scene)
  else
    match (m.clip? track scene).filter fun clip => !clip.isMidi with
    | some existing =>
      let appended := existing.appendSampleAsEvent disk track scene path
      some (m'.modifySlot track scene fun slot => { slot with clip := some appended.1 }, appended.2)
    | none =>
      let totalFrames := ((disk path).map WavFile.duration).getD 0
      (m'.writeSlot track scene
        ⟨.stopped, some (.ofFile m.nextClipId path (.audio [] 1) totalFrames)⟩).map fun m' =>
          (m', [.loadClip m.nextClipId path track scene])

/-- The commands for a clip put into a slot by pasting or duplicating: an audio clip is loaded from
its file, without its events and its loop. -/
def placeCommands (m : SessionMatrixState) (track scene : ℕ) : List PadCommand :=
  match m.clip? track scene with
  | none => []
  | some clip =>
    if clip.isMidi then m.syncMidiClip track scene
    else [.loadClip clip.id clip.path track scene]

/-- A copy of a slot put into another, its clip under a new id. -/
def placeSlot (m : SessionMatrixState) (track scene : ℕ) (slot : MatrixSlot) :
    Option (SessionMatrixState × List PadCommand) :=
  let copy := { slot with clip := slot.clip.map fun clip => { clip with id := m.nextClipId } }
  ({ m with nextClipId := m.nextClipId + 1 }.writeSlot track scene copy).map fun m =>
    (m, m.placeCommands track scene)

def pasteSlot (m : SessionMatrixState) (clipboard : Option MatrixSlot) (track scene : ℕ) :
    Option (SessionMatrixState × List PadCommand) :=
  match clipboard with
  | none => some (m, [])
  | some copied => m.placeSlot track scene { copied with state := .stopped }

/-- The slot copied as it is, its state included, into the next scene. -/
def duplicateSlot (m : SessionMatrixState) (track scene : ℕ) :
    Option (SessionMatrixState × List PadCommand) :=
  let targetScene := min (scene + 1) (m.scenes.length - 1)
  if targetScene = scene then some (m, [])
  else (m.slot? track scene).bind fun slot => m.placeSlot track targetScene slot

def deleteSlot (m : SessionMatrixState) (track scene : ℕ) :
    SessionMatrixState × List PadCommand :=
  (m.modifySlot track scene fun _ => .default,
    if (m.slot? track scene).any MatrixSlot.active then [.triggerClip track scene] else [])

/-! ## Triggering -/

/-- The playing slots of a row, that of `scene` apart, shown as stopped; the loop goes over the
scenes and panics if the row is shorter. -/
def stopOthers (m : SessionMatrixState) (track scene : ℕ) : Option SessionMatrixState :=
  m.grid[track]?.bind fun row =>
    if m.scenes.length ≤ row.length then
      some { m with
        grid := m.grid.set track (row.mapIdx fun s slot =>
          if s < m.scenes.length ∧ s ≠ scene ∧ slot.state = .playing then
            { slot with state := .stopped }
          else slot) }
    else none

def showAs (m : SessionMatrixState) (track scene : ℕ) (state : SlotState) : SessionMatrixState :=
  m.modifySlot track scene fun slot => { slot with state := state }

/-- A click on a pad. -/
def triggerPad (m : SessionMatrixState) (track scene : ℕ) :
    Option (SessionMatrixState × List PadCommand) :=
  match m.slot? track scene with
  | some ⟨state, some _⟩ =>
    match state with
    | .stopped =>
      (m.stopOthers track scene).map fun stopped =>
        (stopped.showAs track scene .playing,
          m.syncMidiClip track scene ++ [.triggerClip track scene])
    | .playing | .queuedToPlay | .queuedToStop =>
      some (m.showAs track scene .stopped, [.triggerClip track scene])
    | .empty => some (m, [])
  | _ => some (m, [])

/-- One track of a launched scene. -/
def launchTrack (scene : ℕ) (m : SessionMatrixState) (track : ℕ) : Option SessionMatrixState :=
  (m.slot? track scene).bind fun slot =>
    if slot.clip.isSome then
      (m.stopOthers track scene).map fun stopped => stopped.showAs track scene .playing
    else some m

def triggerScene (m : SessionMatrixState) (scene : ℕ) :
    Option (SessionMatrixState × List PadCommand) :=
  ((List.range m.tracks.length).foldlM (launchTrack scene) m).map fun launched =>
    (launched, (List.range m.tracks.length).flatMap (fun track => m.syncMidiClip track scene) ++
      [.triggerScene scene])

/-- A playing audio slot whose voice is over is shown as stopped. -/
def pollSlot (isActive : Bool) (slot : MatrixSlot) : MatrixSlot :=
  if slot.state = .playing ∧ ¬ slot.clip.any MatrixClip.isMidi ∧ ¬ isActive then
    { slot with state := .stopped }
  else slot

def pollFinishedVoices (m : SessionMatrixState) (isActive : ℕ → ℕ → Bool) :
    Option SessionMatrixState :=
  if ∀ track < m.tracks.length, ∀ scene < m.scenes.length, (m.slot? track scene).isSome then
    some { m with
      grid := m.grid.mapIdx fun track row => row.mapIdx fun scene slot =>
        if track < m.tracks.length ∧ scene < m.scenes.length then
          pollSlot (isActive track scene) slot
        else slot }
  else none

end SessionMatrixState

/-! ## Edits -/

/-- The matrix and the slot in its clipboard. -/
structure MatrixSession where
  matrix : SessionMatrixState
  clipboard : Option MatrixSlot

inductive MatrixEdit where
  | addTrack
  | removeTrack
  | addScene
  | removeScene
  | select (track scene : ℕ)
  | load (track scene : ℕ) (path : String)
  | copy (track scene : ℕ)
  | cut (track scene : ℕ)
  | paste (track scene : ℕ)
  | duplicate (track scene : ℕ)
  | delete (track scene : ℕ)
  | triggerPad (track scene : ℕ)
  | triggerScene (scene : ℕ)

/-- The view shows a pad for every track and scene, and a header for every scene; the edits are made
there. -/
def SessionMatrixState.shows (m : SessionMatrixState) : MatrixEdit → Bool
  | .addTrack | .removeTrack | .addScene | .removeScene => true
  | .select track scene | .load track scene _ | .copy track scene | .cut track scene
  | .paste track scene | .duplicate track scene | .delete track scene | .triggerPad track scene =>
    decide (track < m.tracks.length ∧ scene < m.scenes.length)
  | .triggerScene scene => decide (scene < m.scenes.length)

namespace MatrixSession

def withMatrix (d : MatrixSession) (r : SessionMatrixState × List PadCommand) :
    MatrixSession × List PadCommand :=
  ({ d with matrix := r.1 }, r.2)

def edit (disk : Disk) (d : MatrixSession) :
    MatrixEdit → Option (MatrixSession × List PadCommand)
  | .addTrack => some (d.withMatrix (d.matrix.addTrack, []))
  | .removeTrack => some (d.withMatrix (d.matrix.removeTrack, []))
  | .addScene => some (d.withMatrix (d.matrix.addScene, []))
  | .removeScene => some (d.withMatrix (d.matrix.removeScene, []))
  | .select track scene =>
    some (d.withMatrix ({ d.matrix with selectedSlot := some (track, scene) }, []))
  | .load track scene path => (d.matrix.loadClipIntoSlot disk track scene path).map d.withMatrix
  | .copy track scene =>
    some ({ d with clipboard := (d.matrix.slot? track scene).or d.clipboard }, [])
  | .cut track scene =>
    some ({ d with clipboard := (d.matrix.slot? track scene).or d.clipboard }.withMatrix
      (d.matrix.deleteSlot track scene))
  | .paste track scene => (d.matrix.pasteSlot d.clipboard track scene).map d.withMatrix
  | .duplicate track scene => (d.matrix.duplicateSlot track scene).map d.withMatrix
  | .delete track scene => some (d.withMatrix (d.matrix.deleteSlot track scene))
  | .triggerPad track scene => (d.matrix.triggerPad track scene).map d.withMatrix
  | .triggerScene scene => (d.matrix.triggerScene scene).map d.withMatrix

/-- An edit on a running application; after a panic there is none. -/
def step (disk : Disk) (d : Option MatrixSession) (e : MatrixEdit) : Option MatrixSession :=
  d.bind fun d => if d.matrix.shows e then (d.edit disk e).map Prod.fst else some d

end MatrixSession

end HikaruOpenLive.Gui
