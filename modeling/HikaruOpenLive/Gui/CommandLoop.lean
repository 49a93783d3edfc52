import HikaruOpenLive.Engine.ClipCommands
import HikaruOpenLive.Gui.WavDecode

/-! # The command thread and the audio callback

One thread takes the commands of the GUI from a queue and carries them out on the engine, which it
shares with the audio callback behind a lock. Most commands wait for the lock. The five of the mixer only
try it and are dropped when the callback holds it; a sync of the playlist tries it for the sample rate,
makes do with 44100 Hz, and waits for it once the files are decoded.

A command that waits is here one that is still in the queue. As history, the loop keeps the mixer that
was asked for (`wanted`), and a sync whether the lock was held when it began.
-/
set_option autoImplicit false

namespace HikaruOpenLive.Engine

/-! ## The mixer -/

inductive MixerCommand where
  | setTrackVolume (trackIdx : ℕ) (volume : ℚ)
  | setTrackPan (trackIdx : ℕ) (pan : ℚ)
  | setTrackMute (trackIdx : ℕ) (mute : Bool)
  | setTrackSolo (trackIdx : ℕ) (solo : Bool)
  | setMasterVolume (volume : ℚ)

namespace Mixer

/-- The value of one track replaced; the engine has sixteen. -/
def setAt {α : Type} (values : Fin 16 → α) (trackIdx : ℕ) (a : α) : Fin 16 → α :=
  if h : trackIdx < 16 then Function.update values ⟨trackIdx, h⟩ a else values

/-- A pan within a normalized range is scaled to percent. -/
def panPercent (pan : ℚ) : ℚ :=
  let raw := if |pan| ≤ 3 / 2 then pan * 100 else pan
  max (-100) (min raw 100)

def apply (mx : Mixer) : MixerCommand → Mixer
  | .setTrackVolume trackIdx volume =>
    { mx with trackVolumes := setAt mx.trackVolumes trackIdx (max 0 (min volume 1)) }
  | .setTrackPan trackIdx pan =>
    { mx with trackPans := setAt mx.trackPans trackIdx (panPercent pan) }
  | .setTrackMute trackIdx mute => { mx with trackMutes := setAt mx.trackMutes trackIdx mute }
  | .setTrackSolo trackIdx solo => { mx with trackSolos := setAt mx.trackSolos trackIdx solo }
  | .setMasterVolume volume => { mx with masterGain := max 0 (min volume 1) }

end Mixer

namespace AudioEngine

variable {ν β : Type}

def applyMixer (e : AudioEngine ν) (cmd : MixerCommand) : AudioEngine ν :=
  { e with mixer := e.mixer.apply cmd }

theorem mixer_addClip (e : AudioEngine ν) (c : AudioClip) : (e.addClip c).mixer = e.mixer := by
  simp only [addClip]
  split <;> rfl

theorem mixer_step (host : PluginHost ν) (stage : OutputStage β) (e : AudioEngine ν)
    (cmd : Command) : (e.step host stage cmd).mixer = e.mixer := by
  cases cmd with
  | setMode mode => rfl
  | addClip id track scene samples s d o channels m => exact e.mixer_addClip _
  | removeClip id track scene => rfl
  | updateClipBounds id track scene s d o => rfl
  | setClipLoop track scene s d en => rfl
  | setClipEvents track scene events => rfl
  | triggerClip track scene => rfl
  | triggerScene scene => rfl
  | stopTrack track => rfl
  | play => rfl
  | pause => rfl
  | stop => rfl
  | seek s => rfl
  | setGlobalLoop s t en => rfl
  | process frames =>
    simp only [step, process]
    split
    · split <;> rfl
    · rfl

end AudioEngine

end HikaruOpenLive.Engine

namespace HikaruOpenLive.Gui

open Engine Foundations.Runs

/-! ## The commands -/

structure AudioClipData where
  clipId : ℕ
  path : String
  startSecs : ℚ
  durationSecs : ℚ
  offsetSecs : ℚ
  trackIndex : ℕ

structure EngineEventData where
  id : ℕ
  samples : List ℚ
  channels : ℕ
  clipStartSecs : ℚ
  sampleRate : ℕ
  gain : ℚ
  fadeInSecs : ℚ
  fadeOutSecs : ℚ

/-- A command that is carried out under the lock and is not about the mixer. -/
structure LockedArm (ν : Type) where
  run : AudioEngine ν → AudioEngine ν
  mixer_run : ∀ e, (run e).mixer = e.mixer

/-- The commands that wait for the lock; `other` are those of the plugins, the previews, the drum
sampler and the MIDI clips. -/
inductive WaitingCommand (ν : Type) where
  | setAppMode (isStudio : Bool)
  | play
  | pause
  | stop
  | seek (sampleCount : ℕ)
  | updateClipBounds (clipId trackIndex sceneIndex : ℕ) (positionSecs durationSecs offsetSecs : ℚ)
  | loadClip (clipId : ℕ) (path : String) (positionSecs durationSecs offsetSecs : ℚ)
      (trackIndex sceneIndex : ℕ)
  | triggerClip (trackIdx sceneIdx : ℕ)
  | stopTrack (trackIdx : ℕ)
  | setClipLoop (trackIdx sceneIdx : ℕ) (startSecs endSecs : ℚ) (enabled : Bool)
  | setClipEvents (trackIdx sceneIdx : ℕ) (events : List EngineEventData)
  | setGlobalLoop (startSamples endSamples : ℕ) (enabled : Bool)
  | triggerScene (sceneIdx : ℕ)
  | setBpm (bpm : ℚ)
  | other (arm : LockedArm ν)

inductive LoopCommand (ν : Type) where
  | mixer (cmd : MixerCommand)
  | syncPlaylistClips (clips : List AudioClipData)
  | waiting (cmd : WaitingCommand ν)

/-- An event at the rate of the engine; what lies before a negative start is cut off. Its seconds are exact,
where those of the command are `f32`. -/
def EngineEventData.atRate (ev : EngineEventData) (targetSr : ℚ) : EngineAudioEvent :=
  let samples :=
    if 0 < ev.sampleRate ∧ 1 < |(ev.sampleRate : ℚ) - targetSr| then
      resampleLinear ev.samples ev.channels ev.sampleRate targetSr
    else ev.samples
  let drop := if ev.clipStartSecs < 0 then ⌊-ev.clipStartSecs * targetSr + 1 / 2⌋₊ else 0
  { id := ev.id, samples := samples.drop (drop * max ev.channels 1), channels := ev.channels
    clipStart := ⌊max ev.clipStartSecs 0 * targetSr⌋₊, gain := ev.gain
    fadeIn := ⌊max ev.fadeInSecs 0 * targetSr⌋₊, fadeOut := ⌊max ev.fadeOutSecs 0 * targetSr⌋₊ }

section

variable {ν β : Type} (host : PluginHost ν) (stage : OutputStage β)

def WaitingCommand.run (files : Files) (e : AudioEngine ν) : WaitingCommand ν → AudioEngine ν
  | .setAppMode isStudio => e.step host stage (.setMode (if isStudio then .openStudio else .openLive))
  | .play => e.step host stage .play
  | .pause => e.step host stage .pause
  | .stop => e.step host stage .stop
  | .seek sampleCount => e.step host stage (.seek (sampleCount / e.sampleRate))
  | .updateClipBounds clipId trackIndex sceneIndex positionSecs durationSecs offsetSecs =>
    e.step host stage
      (.updateClipBounds clipId trackIndex sceneIndex positionSecs durationSecs offsetSecs)
  | .loadClip clipId path positionSecs durationSecs offsetSecs trackIndex sceneIndex =>
    match files path with
    | some data =>
      e.step host stage (.addClip clipId trackIndex sceneIndex (data.atRate e.sampleRate)
        positionSecs durationSecs offsetSecs data.channels true)
    | none => e
  | .triggerClip trackIdx sceneIdx => e.step host stage (.triggerClip trackIdx sceneIdx)
  | .stopTrack trackIdx => e.step host stage (.stopTrack trackIdx)
  | .setClipLoop trackIdx sceneIdx startSecs endSecs enabled =>
    e.step host stage (.setClipLoop trackIdx sceneIdx startSecs endSecs enabled)
  | .setClipEvents trackIdx sceneIdx events =>
    e.step host stage
      (.setClipEvents trackIdx sceneIdx (events.map fun ev => ev.atRate e.sampleRate))
  | .setGlobalLoop startSamples endSamples enabled =>
    e.step host stage (.setGlobalLoop startSamples endSamples enabled)
  | .triggerScene sceneIdx => e.step host stage (.triggerScene sceneIdx)
  | .setBpm bpm =>
    if 0 < bpm then { e with transport := { e.transport with bpm := bpm } } else e
  | .other arm => arm.run e

theorem WaitingCommand.mixer_run (files : Files) (e : AudioEngine ν) (cmd : WaitingCommand ν) :
    (cmd.run host stage files e).mixer = e.mixer := by
  cases cmd with
  | loadClip clipId path positionSecs durationSecs offsetSecs trackIndex sceneIndex =>
    simp only [run]
    split
    · exact e.mixer_step host stage _
    · rfl
  | setBpm bpm =>
    simp only [run]
    split <;> rfl
  | other arm => exact arm.mixer_run e
  | setAppMode isStudio => exact e.mixer_step host stage _
  | play => exact e.mixer_step host stage _
  | pause => exact e.mixer_step host stage _
  | stop => exact e.mixer_step host stage _
  | seek sampleCount => exact e.mixer_step host stage _
  | updateClipBounds clipId trackIndex sceneIndex positionSecs durationSecs offsetSecs =>
    exact e.mixer_step host stage _
  | triggerClip trackIdx sceneIdx => exact e.mixer_step host stage _
  | stopTrack trackIdx => exact e.mixer_step host stage _
  | setClipLoop trackIdx sceneIdx startSecs endSecs enabled => exact e.mixer_step host stage _
  | setClipEvents trackIdx sceneIdx events => exact e.mixer_step host stage _
  | setGlobalLoop startSamples endSamples enabled => exact e.mixer_step host stage _
  | triggerScene sceneIdx => exact e.mixer_step host stage _

/-! ## A sync of the playlist -/

structure DecodedClip where
  clip : AudioClipData
  samples : List ℚ
  channels : ℕ

def decodeClips (files : Files) (targetSr : ℚ) (clips : List AudioClipData) : List DecodedClip :=
  clips.filterMap fun clip =>
    (files clip.path).map fun data => ⟨clip, data.atRate targetSr, data.channels⟩

def syncClips (e : AudioEngine ν) (decoded : List DecodedClip) : AudioEngine ν :=
  decoded.foldl
    (fun e d => e.addClip (e.clipInstance d.clip.clipId d.clip.trackIndex 0 d.samples
      d.clip.startSecs d.clip.durationSecs d.clip.offsetSecs d.channels false))
    { e with clips := e.clips.filter fun c => c.isMatrixClip }

theorem mixer_syncClips (e : AudioEngine ν) (decoded : List DecodedClip) :
    (syncClips e decoded).mixer = e.mixer := by
  have hfold : ∀ (decoded : List DecodedClip) (e : AudioEngine ν),
      (decoded.foldl
        (fun e d => e.addClip (e.clipInstance d.clip.clipId d.clip.trackIndex 0 d.samples
          d.clip.startSecs d.clip.durationSecs d.clip.offsetSecs d.channels false)) e).mixer =
        e.mixer := by
    intro decoded
    induction decoded with
    | nil => intro e; rfl
    | cons d decoded ih =>
      intro e
      rw [List.foldl_cons, ih]
      exact e.mixer_addClip _
  exact hfold decoded _

/-! ## The loop -/

/-- A sync under way: its files are being decoded for the rate `targetSr`. -/
structure SyncJob where
  clips : List AudioClipData
  targetSr : ℚ
  overlapped : Bool

structure CommandLoop (ν : Type) where
  engine : AudioEngine ν
  queue : List (LoopCommand ν)
  sync : Option SyncJob
  audioHoldsLock : Bool
  wanted : Mixer

inductive LoopAct (ν : Type) where
  | send (cmd : LoopCommand ν)
  | audioBegin
  | audioEnd (frames : ℕ)
  | commandStep (files : Files)

namespace CommandLoop

def init (e : AudioEngine ν) : CommandLoop ν :=
  { engine := e, queue := [], sync := none, audioHoldsLock := false, wanted := e.mixer }

/-- What the command thread does next, with the files as they are then. -/
def commandStep (s : CommandLoop ν) (files : Files) : CommandLoop ν :=
  match s.sync with
  | some job =>
    if s.audioHoldsLock then s
    else
      { s with
        sync := none, engine := syncClips s.engine (decodeClips files job.targetSr job.clips) }
  | none =>
    match s.queue with
    | [] => s
    | .mixer cmd :: queue =>
      if s.audioHoldsLock then { s with queue := queue }
      else { s with queue := queue, engine := s.engine.applyMixer cmd }
    | .syncPlaylistClips clips :: queue =>
      let targetSr := if s.audioHoldsLock then 44100 else s.engine.sampleRate
      { s with queue := queue, sync := some ⟨clips, targetSr, s.audioHoldsLock⟩ }
    | .waiting cmd :: queue =>
      if s.audioHoldsLock then s
      else { s with queue := queue, engine := cmd.run host stage files s.engine }

def step (s : CommandLoop ν) : LoopAct ν → CommandLoop ν
  | .send cmd =>
    { s with
      queue := s.queue ++ [cmd]
      wanted :=
        match cmd with
        | .mixer cmd => s.wanted.apply cmd
        | _ => s.wanted }
  | .audioBegin => { s with audioHoldsLock := true }
  | .audioEnd frames =>
    if s.audioHoldsLock then
      { s with audioHoldsLock := false, engine := (s.engine.process host stage frames).2 }
    else s
  | .commandStep files => s.commandStep host stage files

/-! ## What is asked of the loop -/

/-- Once the queue is empty, the mixer is as it was asked for. -/
def MixerOk (s : CommandLoop ν) : Prop :=
  s.queue = [] → s.engine.mixer = s.wanted

/-- The command thread does what the command says or waits for the lock, whatever the audio callback
is doing; a sync decodes its files for the rate of the engine. -/
def Executed (s : CommandLoop ν) : LoopAct ν → Prop
  | .commandStep files =>
    let after := s.commandStep host stage files
    match s.sync with
    | some job => after = s ∨
      decodeClips files job.targetSr job.clips = decodeClips files s.engine.sampleRate job.clips ∧
        after.engine = syncClips s.engine (decodeClips files s.engine.sampleRate job.clips)
    | none =>
      match s.queue with
      | .mixer cmd :: _ => after = s ∨ after.engine = s.engine.applyMixer cmd
      | .waiting cmd :: _ => after = s ∨ after.engine = cmd.run host stage files s.engine
      | _ => True
  | _ => True

/-- The condition: a mixer command that would change something is taken from the queue while the lock
is free, and so is a sync, or else its files come out at 44100 Hz as they do at the engine's rate. -/
def Uncontended (s : CommandLoop ν) : LoopAct ν → Prop
  | .commandStep files =>
    match s.sync with
    | some job => s.audioHoldsLock = true ∨ job.overlapped = false ∨
      ∀ clip ∈ job.clips, ∀ data, files clip.path = some data →
        data.atRate 44100 = data.atRate s.engine.sampleRate
    | none =>
      match s.queue with
      | .mixer cmd :: _ => s.audioHoldsLock = false ∨ s.engine.mixer.apply cmd = s.engine.mixer
      | _ => True
  | _ => True

end CommandLoop

end

end HikaruOpenLive.Gui
