import HikaruOpenLive.Foundations.BlockSplit
import HikaruOpenLive.Engine.AudioClip

/-! # What a clip adds to its track in one block

The body of the audio callback's loop over the clips. In OpenStudio a clip sounds wherever the
wrapped transport position lies inside its bounds; in OpenLive a playing clip reads from the time
elapsed on the absolute clock, either its events or its single sample, the latter with a short
crossfade when a loop jumps back. Each path is a loop over the block's frames (`emit`), which an
ended one-shot leaves early.

The source adds every frame to the track's buffer in place; here a path returns the block it adds,
silence where it adds nothing.
-/
set_option autoImplicit false

namespace HikaruOpenLive.Engine

open Transport Foundations.BlockSplit

inductive EngineMode where
  | openLive
  | openStudio
deriving DecidableEq, Repr

def silence (n : ℕ) : List Frame :=
  List.replicate n (0, 0)

namespace AudioClip

/-- A frame of the PCM as all the single-sample paths fetch and scale it: nothing where it does not
fit, and a mono clip sends its scaled left sample to both sides. -/
def fetchPanned (c : AudioClip) (gl gr : ℚ) (frame : ℕ) : Frame :=
  let ch := max c.channels 1
  let idx := frame * ch
  if idx + ch ≤ c.samples.length then
    let l := c.samples.getD idx 0 * gl
    let r := if 1 < ch then c.samples.getD (idx + 1) 0 * gr else l
    (l, r)
  else (0, 0)

/-! ## OpenStudio -/

def studioFrame (c : AudioClip) (t : TransportPosition) (gl gr : ℚ) (pos : ℕ) : Frame :=
  let globalFrame := t.wrapSampleCount pos
  if globalFrame < c.startFrame ∨ c.startFrame + c.durationFrames ≤ globalFrame then (0, 0)
  else c.fetchPanned gl gr (c.sampleOffset / max c.channels 1 + (globalFrame - c.startFrame))

def studioStep (c : AudioClip) (t : TransportPosition) (gl gr : ℚ) (pos : ℕ) :
    Option (Frame × ℕ) :=
  some (c.studioFrame t gl gr pos, pos + 1)

/-! ## OpenLive, events -/

/-- One frame of the event timeline. The state of both OpenLive paths is the elapsed time and the
crossfade, which this path leaves alone. -/
def eventStep (c : AudioClip) (t : TransportPosition) (gl gr : ℚ) (s : ℕ × LoopFade) :
    Option (Frame × (ℕ × LoopFade)) :=
  (c.clipFrameForElapsed s.1 t).map fun clipFrame =>
    (((c.mixEventsAt clipFrame).1 * gl, (c.mixEventsAt clipFrame).2 * gr), (s.1 + 1, s.2))

/-! ## OpenLive, single sample -/

/-- The crossfade state on reading a frame: a jump back of more than half the emission starts a
crossfade. -/
def startXfade (c : AudioClip) (fade : LoopFade) (relativeFrame : ℕ) : LoopFade :=
  let xfadeFrames := if c.hasValidClipLoop then 32 else 0
  if 0 < xfadeFrames ∧ fade.prevFrame ≠ noPrevFrame ∧ relativeFrame < fade.prevFrame ∧
      c.emissionLenFrames / 2 < fade.prevFrame - relativeFrame then
    { fade with xfadeRemaining := xfadeFrames, xfadeLen := xfadeFrames }
  else fade

def singleFrame (c : AudioClip) (gl gr : ℚ) (fade : LoopFade) (relativeFrame : ℕ) :
    Frame × LoopFade :=
  let ch := max c.channels 1
  let started := c.startXfade fade relativeFrame
  let new := c.fetchPanned gl gr relativeFrame
  if 0 < started.xfadeRemaining ∧ relativeFrame * ch + ch ≤ c.samples.length then
    let fadePos := started.xfadeLen - started.xfadeRemaining
    let outGain : ℚ := (fadePos : ℚ) / started.xfadeLen
    let inGain := 1 - outGain
    let old := c.fetchPanned gl gr started.prevFrame
    ((old.1 * inGain + new.1 * outGain, old.2 * inGain + new.2 * outGain),
      { started with prevFrame := relativeFrame, xfadeRemaining := started.xfadeRemaining - 1 })
  else (new, { started with prevFrame := relativeFrame })

def singleStep (c : AudioClip) (t : TransportPosition) (gl gr : ℚ) (s : ℕ × LoopFade) :
    Option (Frame × (ℕ × LoopFade)) :=
  (c.singleSampleFrame s.1 t).map fun relativeFrame =>
    let read := c.singleFrame gl gr s.2 relativeFrame
    (read.1, (s.1 + 1, read.2))

/-! ## A block -/

def finishIf (c : AudioClip) (finished : Bool) : AudioClip :=
  if finished then { c with isPlaying := false } else c

def liveStep (c : AudioClip) (t : TransportPosition) (gl gr : ℚ) :
    ℕ × LoopFade → Option (Frame × (ℕ × LoopFade)) :=
  if !c.events.isEmpty then c.eventStep t gl gr else c.singleStep t gl gr

def renderLive (c : AudioClip) (t : TransportPosition) (absStart : ℕ) (gl gr : ℚ) (n : ℕ) :
    List Frame × AudioClip :=
  if !c.isPlaying then (silence n, c)
  else if absStart < c.startAbsolute then (silence n, c)
  else
    let elapsedStart := absStart - c.startAbsolute
    if ¬ c.hasValidClipLoop ∧ c.emissionLenFrames ≤ elapsedStart then
      (silence n, { c with isPlaying := false })
    else if c.naturalFrames = 0 then (silence n, c)
    else
      let out := emit (c.liveStep t gl gr) (0, 0) n (elapsedStart, c.fade)
      (out.1, { c with fade := out.2.1.2 }.finishIf out.2.2)

/-- The block a clip adds to its track; a track silent on both sides leaves the clip untouched. -/
def render (c : AudioClip) (mode : EngineMode) (t : TransportPosition) (absStart : ℕ)
    (gl gr : ℚ) (n : ℕ) : List Frame × AudioClip :=
  if gl = 0 ∧ gr = 0 then (silence n, c)
  else
    match mode with
    | .openStudio => ((emit (c.studioStep t gl gr) (0, 0) n t.sampleCount).1, c)
    | .openLive => c.renderLive t absStart gl gr n

def trackSlot (c : AudioClip) : Fin 16 :=
  ⟨min c.trackIndex 15, by omega⟩

end AudioClip

end HikaruOpenLive.Engine
