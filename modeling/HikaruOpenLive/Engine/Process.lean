import HikaruOpenLive.Engine.ClipRender
import HikaruOpenLive.Engine.DmsVoices
import HikaruOpenLive.Engine.Preview

/-! # The audio callback

The engine's state and `process`, which fills one block: the preview, the drum voices, and while the
transport plays the clips of the sixteen tracks, each track through its chain of external plugins;
then the output stage, and the clocks move on.

What a plugin node does to a buffer is a parameter (`PluginHost`), and so are the two functions of
the output stage that are about floating point (`OutputStage`). The meters, the oscillator, the
filter and the copies of the clocks shared with the GUI are left out: `process` only writes them.
-/
set_option autoImplicit false

namespace HikaruOpenLive.Engine

open Transport Foundations.BlockSplit

/-- The processing of external plugin nodes. -/
structure PluginHost (ν : Type) where
  isActive : ν → Bool
  process : ν → List Frame → List Frame × ν

/-- The last two functions every sample goes through. -/
structure OutputStage (β : Type) where
  flushDenormals : ℚ → ℚ
  tanh : ℚ → β

structure Mixer where
  trackVolumes : Fin 16 → ℚ
  trackPans : Fin 16 → ℚ
  trackMutes : Fin 16 → Bool
  trackSolos : Fin 16 → Bool
  masterGain : ℚ

def Mixer.trackGain (mx : Mixer) (t : Fin 16) : ℚ × ℚ :=
  let anySolo := (List.finRange 16).any mx.trackSolos
  let effectiveGain :=
    if mx.trackMutes t then 0
    else if anySolo && !mx.trackSolos t then 0
    else mx.trackVolumes t
  let panNorm := mx.trackPans t / 100
  (effectiveGain * (if 0 < panNorm then 1 - panNorm else 1),
    effectiveGain * (if panNorm < 0 then 1 + panNorm else 1))

/-- The state of the engine; `ν` is what its plugin chains hold. -/
structure AudioEngine (ν : Type) where
  transport : TransportPosition
  mode : EngineMode
  sampleRate : ℚ
  clips : List AudioClip
  preview : PreviewBuffer
  absoluteFrame : ℕ
  mixer : Mixer
  voices : List DmsVoice
  trackEffects : Fin 16 → List ν

def runChain {ν : Type} (host : PluginHost ν) : List ν → List Frame → List Frame × List ν
  | [], buf => (buf, [])
  | p :: ps, buf =>
    if host.isActive p then
      let out := host.process p buf
      let rest := runChain host ps out.1
      (rest.1, out.2 :: rest.2)
    else
      let rest := runChain host ps buf
      (rest.1, p :: rest.2)

def renderVoice (mx : Mixer) (sr : ℚ) (n : ℕ) (v : DmsVoice) : List Frame × DmsVoice :=
  v.render sr (mx.trackGain v.trackSlot).1 (mx.trackGain v.trackSlot).2 n

def voicesBlock (mx : Mixer) (sr : ℚ) (n : ℕ) (voices : List DmsVoice) : List Frame :=
  mixAll (0, 0) n (voices.map fun v => (renderVoice mx sr n v).1)

def renderClip (mx : Mixer) (mode : EngineMode) (t : TransportPosition) (absStart n : ℕ)
    (c : AudioClip) : List Frame × AudioClip :=
  c.render mode t absStart (mx.trackGain c.trackSlot).1 (mx.trackGain c.trackSlot).2 n

/-- The buffer of one track: its clips mixed in the order of the clip list. -/
def trackBlock (mx : Mixer) (mode : EngineMode) (t : TransportPosition) (absStart n : ℕ)
    (clips : List AudioClip) (track : Fin 16) : List Frame :=
  mixAll (0, 0) n ((clips.filter fun c => decide (c.trackSlot = track)).map fun c =>
    (renderClip mx mode t absStart n c).1)

def OutputStage.sample {β : Type} (stage : OutputStage β) (masterGain s : ℚ) : β :=
  let flushed := stage.flushDenormals s
  stage.tanh (if masterGain ≠ 1 then flushed * masterGain else flushed)

def OutputStage.block {β : Type} (stage : OutputStage β) (masterGain : ℚ) (buf : List Frame) :
    List (β × β) :=
  buf.map fun f => (stage.sample masterGain f.1, stage.sample masterGain f.2)

namespace AudioEngine

variable {ν β : Type}

def new (sampleRate : ℚ) : AudioEngine ν :=
  { transport := ⟨sampleRate, 128, 0, .stopped, false, 0, 0⟩
    mode := .openStudio
    sampleRate := sampleRate
    clips := []
    preview := .new
    absoluteFrame := 0
    mixer :=
      { trackVolumes := fun _ => 3 / 4, trackPans := fun _ => 0, trackMutes := fun _ => false,
        trackSolos := fun _ => false, masterGain := 3 / 4 }
    voices := List.replicate 64 .new
    trackEffects := fun _ => [] }

/-- The preview and the drum voices, which sound whether or not the transport plays. -/
def ungatedBlock (e : AudioEngine ν) (n : ℕ) : List Frame :=
  mix (mix (silence n) (e.preview.process n).1) (voicesBlock e.mixer e.sampleRate n e.voices)

def afterUngated (e : AudioEngine ν) (n : ℕ) : AudioEngine ν :=
  { e with
    preview := (e.preview.process n).2
    voices := e.voices.map fun v => (renderVoice e.mixer e.sampleRate n v).2 }

def trackOut (host : PluginHost ν) (e : AudioEngine ν) (n : ℕ) (track : Fin 16) :
    List Frame × List ν :=
  runChain host (e.trackEffects track)
    (trackBlock e.mixer e.mode e.transport e.absoluteFrame n e.clips track)

def process (host : PluginHost ν) (stage : OutputStage β) (e : AudioEngine ν) (n : ℕ) :
    List (β × β) × AudioEngine ν :=
  if e.transport.playbackState = .playing then
    if n = 0 then ([], e.afterUngated n)
    else
      (stage.block e.mixer.masterGain
        (((List.finRange 16).map fun t => (e.trackOut host n t).1).foldl mix (e.ungatedBlock n)),
        { e.afterUngated n with
          clips := e.clips.map fun c =>
            (renderClip e.mixer e.mode e.transport e.absoluteFrame n c).2
          trackEffects := fun t => (e.trackOut host n t).2
          transport := e.transport.afterBlock n
          absoluteFrame := e.absoluteFrame + n })
  else (stage.block e.mixer.masterGain (e.ungatedBlock n), e.afterUngated n)

/-- The engine with its preview cursor taken no further than the end of the preview's buffer. -/
def settled (e : AudioEngine ν) : AudioEngine ν :=
  { e with preview := e.preview.settled }

/-- No playing clip starts in the future of the absolute clock. -/
def Started (e : AudioEngine ν) : Prop :=
  ∀ c ∈ e.clips, c.isPlaying = true → c.startAbsolute ≤ e.absoluteFrame

end AudioEngine

end HikaruOpenLive.Engine
