import Mathlib.Data.List.MinMax
import HikaruOpenLive.Engine.Process

/-! # The drum sampler: its samples and its voices

The engine keeps the samples of the pads, one buffer for each track and pad, and 64 voices that play
them. A note takes the first free voice, or else the one with the least age stamp; the stamp is a
64-bit counter that wraps.

A voice points into the buffer it was started with. Every load makes a new buffer, which gets a number
here (`buffer`); also as history, a voice remembers the place its sample came from, the track and pad of
the note that started it and the count of notes by then.
-/
set_option autoImplicit false

namespace HikaruOpenLive.Engine

def maxDmsVoices : ℕ :=
  64

def dmsPadsPerTrack : ℕ :=
  64

/-- The place of a track's pad in the list of samples. -/
def dmsPadKey (trackIdx padIdx : ℕ) : ℕ :=
  min trackIdx 15 * dmsPadsPerTrack + min padIdx (dmsPadsPerTrack - 1)

theorem dmsPadKey_inj {track pad track' pad' : ℕ} :
    dmsPadKey track pad = dmsPadKey track' pad' ↔
      min track 15 = min track' 15 ∧ min pad 63 = min pad' 63 := by
  unfold dmsPadKey dmsPadsPerTrack
  omega

structure DmsAdsrParams where
  attackRate : ℚ
  decayRate : ℚ
  sustainLevel : ℚ
  releaseRate : ℚ
deriving DecidableEq

structure DmsSample where
  buffer : ℕ
  samples : List ℚ
deriving DecidableEq

/-- A sample found for a note, at its place in the list. -/
structure DmsSource where
  slot : ℕ
  sample : DmsSample
  channels : ℕ
deriving DecidableEq

/-- What a note asks for, whatever it is to sound with. -/
structure DmsNote where
  trackIdx : ℕ
  padIdx : ℕ
  gain : ℚ
  pan : ℚ
  velocity : ℚ
  playSpeed : ℚ
  adsr : DmsAdsrParams
deriving DecidableEq

structure PoolVoice where
  voice : DmsVoice
  buffer : ℕ
  source : ℕ
  noteTrack : ℕ
  notePad : ℕ
  born : ℕ
deriving DecidableEq

def PoolVoice.new : PoolVoice :=
  { voice := .new, buffer := 0, source := 0, noteTrack := 0, notePad := 0, born := 0 }

/-- The voice a note starts, the `born`-th one. -/
def PoolVoice.start (note : DmsNote) (src : DmsSource) (key age born : ℕ) : PoolVoice :=
  { voice :=
      { active := true, samples := src.sample.samples, channels := src.channels
        sampleLen := src.sample.samples.length / max src.channels 1, playPos := 0
        playSpeed := note.playSpeed, gain := note.gain, pan := note.pan, velocity := note.velocity
        padIdx := key, trackIdx := min note.trackIdx 15, envStage := .attack, envLevel := 0
        attackRate := note.adsr.attackRate, decayRate := note.adsr.decayRate
        sustainLevel := note.adsr.sustainLevel, releaseRate := note.adsr.releaseRate, age := age }
    buffer := src.sample.buffer, source := src.slot, noteTrack := note.trackIdx
    notePad := note.padIdx, born := born }

structure DmsVoicePool where
  voices : List PoolVoice
  globalAge : ℕ
  triggers : ℕ

namespace DmsVoicePool

def new : DmsVoicePool :=
  { voices := List.replicate maxDmsVoices .new, globalAge := 0, triggers := 0 }

def free (pool : DmsVoicePool) : Option ℕ :=
  pool.voices.findIdx? fun v => !v.voice.active

def ageAt (pool : DmsVoicePool) (i : ℕ) : ℕ :=
  (pool.voices[i]?.map fun v => v.voice.age).getD 0

def oldest (pool : DmsVoicePool) : Option ℕ :=
  (List.range pool.voices.length).argmin pool.ageAt

def trigger (pool : DmsVoicePool) (note : DmsNote) (src : DmsSource) (key : ℕ) :
    Option ℕ × DmsVoicePool :=
  let globalAge := (pool.globalAge + 1) % 2 ^ 64
  let idx :=
    match pool.free with
    | some i => some i
    | none => pool.oldest
  match idx with
  | none => (none, { pool with globalAge := globalAge })
  | some i =>
    (some i,
      { voices := pool.voices.set i
          (PoolVoice.start note src key globalAge (pool.triggers + 1))
        globalAge := globalAge
        triggers := pool.triggers + 1 })

def mapVoices (pool : DmsVoicePool) (f : DmsVoice → DmsVoice) : DmsVoicePool :=
  { pool with voices := pool.voices.map fun v => { v with voice := f v.voice } }

def releaseVoice (key : ℕ) (v : DmsVoice) : DmsVoice :=
  if v.active = true ∧ v.padIdx = key ∧ v.envStage ≠ .release then { v with envStage := .release }
  else v

def killVoice (key : ℕ) (v : DmsVoice) : DmsVoice :=
  if v.active = true ∧ v.padIdx = key then v.freed else v

def releasePad (pool : DmsVoicePool) (key : ℕ) : DmsVoicePool :=
  pool.mapVoices (releaseVoice key)

def killPad (pool : DmsVoicePool) (key : ℕ) : DmsVoicePool :=
  pool.mapVoices (killVoice key)

/-- The voices after a block of `n` frames. -/
def processAll (pool : DmsVoicePool) (mx : Mixer) (sr : ℚ) (n : ℕ) : DmsVoicePool :=
  pool.mapVoices fun v => (renderVoice mx sr n v).2

/-- The voices of the pool are those of the engine, and stay so over a block. -/
theorem voices_afterUngated {ν : Type} {e : AudioEngine ν} {pool : DmsVoicePool}
    (h : e.voices = pool.voices.map PoolVoice.voice) (n : ℕ) :
    (e.afterUngated n).voices =
      (pool.processAll e.mixer e.sampleRate n).voices.map PoolVoice.voice := by
  rw [AudioEngine.afterUngated, h, processAll, mapVoices, List.map_map, List.map_map]
  rfl

end DmsVoicePool

/-- The sampler of the engine; `nextBuffer` is the number of the next buffer. -/
structure DmsSampler where
  dmsSamples : List (Option DmsSample)
  dmsChannels : List ℕ
  pool : DmsVoicePool
  nextBuffer : ℕ

inductive DmsOp where
  | load (trackIdx padIdx : ℕ) (samples : List ℚ) (channels : ℕ)
  | trigger (note : DmsNote)
  | release (trackIdx padIdx : ℕ)
  | releaseEverywhere (padIdx : ℕ)
  | kill (trackIdx padIdx : ℕ)
  | killEverywhere (padIdx : ℕ)
  | process (mx : Mixer) (sr : ℚ) (n : ℕ)

namespace DmsSampler

def new : DmsSampler :=
  { dmsSamples := [], dmsChannels := [], pool := .new, nextBuffer := 0 }

def sampleAt (s : DmsSampler) (key : ℕ) : Option DmsSample :=
  (s.dmsSamples[key]?).join

def channelsAt (s : DmsSampler) (key : ℕ) : ℕ :=
  (s.dmsChannels[key]?).getD 1

/-- `l` with `a` for what is missing up to length `n`. -/
def padTo {α : Type} (n : ℕ) (a : α) (l : List α) : List α :=
  l ++ List.replicate (n - l.length) a

def loadDmsSampleForTrack (s : DmsSampler) (trackIdx padIdx : ℕ) (samples : List ℚ)
    (channels : ℕ) : DmsSampler :=
  let key := dmsPadKey trackIdx padIdx
  { s with
    dmsSamples := (padTo (key + 1) none s.dmsSamples).set key (some ⟨s.nextBuffer, samples⟩)
    dmsChannels := (padTo (key + 1) 1 s.dmsChannels).set key channels
    nextBuffer := s.nextBuffer + 1 }

def loadDmsSample (s : DmsSampler) (padIdx : ℕ) (samples : List ℚ) (channels : ℕ) : DmsSampler :=
  s.loadDmsSampleForTrack 0 padIdx samples channels

/-- The sample a note plays: the one of its track and pad, or one the first track has in its place. -/
def sampleFor (s : DmsSampler) (trackIdx padIdx : ℕ) : Option DmsSource :=
  let key := dmsPadKey (min trackIdx 15) padIdx
  match s.sampleAt key with
  | some sample => some ⟨key, sample, s.channelsAt key⟩
  | none =>
    match s.sampleAt padIdx with
    | some sample => some ⟨padIdx, sample, s.channelsAt padIdx⟩
    | none => none

def triggerDmsNote (s : DmsSampler) (note : DmsNote) : DmsSampler :=
  match s.sampleFor note.trackIdx note.padIdx with
  | none => s
  | some src =>
    { s with
      pool := (s.pool.trigger note src (dmsPadKey (min note.trackIdx 15) note.padIdx)).2 }

def releaseDmsNoteForTrack (s : DmsSampler) (trackIdx padIdx : ℕ) : DmsSampler :=
  { s with pool := s.pool.releasePad (dmsPadKey trackIdx padIdx) }

def releaseDmsNote (s : DmsSampler) (padIdx : ℕ) : DmsSampler :=
  { s with
    pool := (List.range 16).foldl (fun pool t => pool.releasePad (dmsPadKey t padIdx))
      (s.pool.releasePad padIdx) }

def killDmsNoteForTrack (s : DmsSampler) (trackIdx padIdx : ℕ) : DmsSampler :=
  { s with pool := s.pool.killPad (dmsPadKey trackIdx padIdx) }

def killDmsNote (s : DmsSampler) (padIdx : ℕ) : DmsSampler :=
  { s with
    pool := (List.range 16).foldl (fun pool t => pool.killPad (dmsPadKey t padIdx))
      (s.pool.killPad padIdx) }

def step (s : DmsSampler) : DmsOp → DmsSampler
  | .load trackIdx padIdx samples channels => s.loadDmsSampleForTrack trackIdx padIdx samples channels
  | .trigger note => s.triggerDmsNote note
  | .release trackIdx padIdx => s.releaseDmsNoteForTrack trackIdx padIdx
  | .releaseEverywhere padIdx => s.releaseDmsNote padIdx
  | .kill trackIdx padIdx => s.killDmsNoteForTrack trackIdx padIdx
  | .killEverywhere padIdx => s.killDmsNote padIdx
  | .process mx sr n => { s with pool := s.pool.processAll mx sr n }

end DmsSampler

end HikaruOpenLive.Engine
