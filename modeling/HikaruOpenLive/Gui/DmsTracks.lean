import HikaruOpenLive.Engine.DmsBuffers
import HikaruOpenLive.Gui.AppState
import HikaruOpenLive.Gui.WavDecode

/-! # The drum samplers of the mixer tracks

Every mixer track can hold an OpenDMS device with 64 pads, and the engine keeps a sample for each track
and pad. Between the two is the command queue, and its commands name the pad alone: the command loop
loads and triggers on the engine's first track and releases on all of them.

As history, a command remembers the mixer track it was sent for, and the session what was last loaded
and for which track each note was triggered. `speedOf` is the playback speed of a pitch in semitones.
-/
set_option autoImplicit false

namespace HikaruOpenLive.Gui

open Engine Foundations.Runs

structure DmsPad where
  midiNote : ℕ
  samplePath : Option String
  cachedPeakPath : Option String
  volume : ℚ
  pan : ℚ
  pitch : ℚ

namespace DmsPad

def new (midiNote : ℕ) : DmsPad :=
  { midiNote := midiNote, samplePath := none, cachedPeakPath := none, volume := 1, pan := 0,
    pitch := 0 }

def loadSample (pad : DmsPad) (path : String) : DmsPad :=
  if pad.cachedPeakPath = some path then pad
  else { pad with cachedPeakPath := some path, samplePath := some path }

end DmsPad

structure AdsrEnvelope where
  attack : ℚ
  decay : ℚ
  sustain : ℚ
  release : ℚ

structure OpenDms where
  pads : Fin 64 → DmsPad
  adsr : AdsrEnvelope

def OpenDms.new : OpenDms :=
  { pads := fun i => .new (36 + i), adsr := ⟨0, 100, 1, 50⟩ }

def OpenDms.modifyPad (dms : OpenDms) (pad : Fin 64) (f : DmsPad → DmsPad) : OpenDms :=
  { dms with pads := Function.update dms.pads pad (f (dms.pads pad)) }

inductive DmsCommand where
  | loadDmsSample (padIdx : ℕ) (path : String)
  | dmsNoteOn (padIdx : ℕ) (gain pan velocity playSpeed attackMs decayMs sustain releaseMs : ℚ)
  | dmsNoteOff (padIdx : ℕ)

def DmsCommand.padIdx : DmsCommand → ℕ
  | .loadDmsSample padIdx _ => padIdx
  | .dmsNoteOn padIdx _ _ _ _ _ _ _ _ => padIdx
  | .dmsNoteOff padIdx => padIdx

/-- A command in the queue, with the mixer track it was sent for. -/
structure SentDms where
  track : ℕ
  command : DmsCommand

/-- What a pad plays: samples at the rate of the engine, and the number of their channels. -/
abbrev Content :=
  List ℚ × ℕ

structure DmsSession where
  dms : ℕ → OpenDms
  queue : List SentDms
  sampler : DmsSampler
  loaded : ℕ → ℕ → Option Content
  latest : ℕ → Option Content
  origin : ℕ → ℕ

inductive DmsAct where
  | loadPad (track : ℕ) (pad : Fin 64) (path : String)
  | clickPad (track : ℕ) (pad : Fin 64)
  | previewDrumPad (track pitch : ℕ) (velocityScale : ℚ)
  | releasePad (track : ℕ) (pad : Fin 64)
  | editPad (track : ℕ) (pad : Fin 64) (volume pan pitch : ℚ)
  | editAdsr (track : ℕ) (adsr : AdsrEnvelope)
  | deliver (files : Files)
  | audio (mx : Mixer) (n : ℕ)

/-! ## The command loop -/

def adsrParams (sr attackMs decayMs sustain releaseMs : ℚ) : DmsAdsrParams :=
  { attackRate := if 0 < attackMs then 1 / (attackMs * (1 / 1000) * sr) else sr
    decayRate := if 0 < decayMs then (1 - sustain) / (decayMs * (1 / 1000) * sr) else sr
    sustainLevel := max 0 (min sustain 1)
    releaseRate := if 0 < releaseMs then sustain / (releaseMs * (1 / 1000) * sr) else sr }

def handleDms (sr : ℚ) (files : Files) (sampler : DmsSampler) : DmsCommand → DmsSampler
  | .loadDmsSample padIdx path =>
    match files path with
    | some data => sampler.loadDmsSample padIdx (data.atRate sr) data.channels
    | none => sampler
  | .dmsNoteOn padIdx gain pan velocity playSpeed attackMs decayMs sustain releaseMs =>
    sampler.triggerDmsNote
      { trackIdx := 0, padIdx := padIdx, gain := gain, pan := pan, velocity := velocity
        playSpeed := playSpeed, adsr := adsrParams sr attackMs decayMs sustain releaseMs }
  | .dmsNoteOff padIdx => sampler.releaseDmsNote padIdx

namespace DmsSession

def new : DmsSession :=
  { dms := fun _ => .new, queue := [], sampler := .new, loaded := fun _ _ => none
    latest := fun _ => none, origin := fun _ => 0 }

variable (speedOf : ℚ → ℚ) (sr : ℚ)

/-! ## The session -/

def send (s : DmsSession) (track : ℕ) (command : DmsCommand) : DmsSession :=
  { s with queue := s.queue ++ [⟨track, command⟩] }

def updateDms (s : DmsSession) (track : ℕ) (f : OpenDms → OpenDms) : DmsSession :=
  { s with dms := Function.update s.dms track (f (s.dms track)) }

/-- The note of a pad with a sample. -/
def sendNoteOn (s : DmsSession) (track : ℕ) (pad : Fin 64) (velocityScale : ℚ) : DmsSession :=
  let p := (s.dms track).pads pad
  let adsr := (s.dms track).adsr
  if p.samplePath.isSome then
    s.send track (.dmsNoteOn pad (p.volume * velocityScale) p.pan velocityScale (speedOf p.pitch)
      adsr.attack adsr.decay adsr.sustain adsr.release)
  else s

/-- The history of a delivered command. -/
def noteHistory (files : Files) (sent : SentDms) (s : DmsSession) : DmsSession :=
  match sent.command with
  | .loadDmsSample padIdx path =>
    match files path with
    | some data =>
      let content := (data.atRate sr, data.channels)
      { s with
        loaded := Function.update s.loaded sent.track
          (Function.update (s.loaded sent.track) padIdx (some content))
        latest := Function.update s.latest padIdx (some content) }
    | none => s
  | .dmsNoteOn .. =>
    { s with origin := Function.update s.origin (s.sampler.pool.triggers + 1) sent.track }
  | .dmsNoteOff _ => s

def deliver (s : DmsSession) (files : Files) : DmsSession :=
  match s.queue with
  | [] => s
  | sent :: queue =>
    { noteHistory sr files sent s with
      queue := queue
      sampler := handleDms sr files s.sampler sent.command }

def step (s : DmsSession) : DmsAct → DmsSession
  | .loadPad track pad path =>
    (s.send track (.loadDmsSample pad path)).updateDms track fun dms =>
      dms.modifyPad pad fun p => p.loadSample path
  | .clickPad track pad => s.sendNoteOn speedOf track pad 1
  | .previewDrumPad track pitch velocityScale =>
    match (List.finRange 64).find? fun i => ((s.dms track).pads i).midiNote = pitch with
    | some pad => s.sendNoteOn speedOf track pad velocityScale
    | none => s
  | .releasePad track pad => s.send track (.dmsNoteOff pad)
  | .editPad track pad volume pan pitch =>
    s.updateDms track fun dms =>
      dms.modifyPad pad fun p => { p with volume := volume, pan := pan, pitch := pitch }
  | .editAdsr track adsr => s.updateDms track fun dms => { dms with adsr := adsr }
  | .deliver files => s.deliver sr files
  | .audio mx n => { s with sampler := s.sampler.step (.process mx sr n) }

end DmsSession

end HikaruOpenLive.Gui
