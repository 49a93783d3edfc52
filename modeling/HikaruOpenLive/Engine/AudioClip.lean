import HikaruOpenLive.Transport.Position

/-! # Audio clips of the engine

A clip of the engine holds its PCM or, once edited, a list of events with their own PCM, and plays
one-shot or around a loop of its own. This module has the clip's data and every function that
resolves a frame to read from the time elapsed since its trigger.

Samples are exact rationals, so the checks for non-finite samples have nothing to test. Times and
lengths are naturals. The three fields of the loop crossfade are grouped in `LoopFade`.
-/
set_option autoImplicit false

namespace HikaruOpenLive.Engine

open Transport

abbrev Frame := ℚ × ℚ

structure EngineAudioEvent where
  id : ℕ
  samples : List ℚ
  channels : ℕ
  clipStart : ℕ
  gain : ℚ
  fadeIn : ℕ
  fadeOut : ℕ
deriving DecidableEq, Repr

namespace EngineAudioEvent

def frames (e : EngineAudioEvent) : ℕ :=
  e.samples.length / max e.channels 1

def stop (e : EngineAudioEvent) : ℕ :=
  e.clipStart + e.frames

def gainAt (e : EngineAudioEvent) (clipFrame : ℕ) : ℚ :=
  if clipFrame < e.clipStart ∨ e.stop ≤ clipFrame then 0
  else
    let rel := clipFrame - e.clipStart
    let fromEnd := e.frames - rel
    let faded := if 0 < e.fadeIn ∧ rel < e.fadeIn then e.gain * ((rel : ℚ) / e.fadeIn) else e.gain
    if 0 < e.fadeOut ∧ fromEnd < e.fadeOut then faded * ((fromEnd : ℚ) / e.fadeOut) else faded

def readAt (e : EngineAudioEvent) (clipFrame : ℕ) : Frame :=
  if clipFrame < e.clipStart ∨ e.stop ≤ clipFrame then (0, 0)
  else
    let ch := max e.channels 1
    let idx := (clipFrame - e.clipStart) * ch
    let l := e.samples.getD idx 0
    let r := if 1 < ch then e.samples.getD (idx + 1) l else l
    (l * e.gainAt clipFrame, r * e.gainAt clipFrame)

end EngineAudioEvent

/-- What the single-sample path remembers of the last frame it read, and how far into a loop
crossfade it is. -/
structure LoopFade where
  prevFrame : ℕ
  xfadeRemaining : ℕ
  xfadeLen : ℕ
deriving DecidableEq, Repr

/-- The value of `prevFrame` that stands for no previous frame, `usize::MAX`. -/
def noPrevFrame : ℕ := 2 ^ 64 - 1

def LoopFade.fresh : LoopFade := ⟨noPrevFrame, 0, 0⟩

structure AudioClip where
  id : ℕ
  trackIndex : ℕ
  sceneIndex : ℕ
  samples : List ℚ
  startFrame : ℕ
  startAbsolute : ℕ
  durationFrames : ℕ
  sampleOffset : ℕ
  channels : ℕ
  isPlaying : Bool
  clipLoopEnabled : Bool
  clipLoopStart : ℕ
  clipLoopEnd : ℕ
  isMatrixClip : Bool
  fade : LoopFade
  events : List EngineAudioEvent
deriving DecidableEq, Repr

inductive VoiceState where
  | active
  | finished
deriving DecidableEq, Repr

namespace AudioClip

def naturalFrames (c : AudioClip) : ℕ :=
  if c.events.isEmpty then c.samples.length / max c.channels 1
  else (c.events.map EngineAudioEvent.stop).foldr max 0

def hasValidClipLoop (c : AudioClip) : Bool :=
  c.clipLoopEnabled && decide (c.clipLoopStart < c.clipLoopEnd) &&
    decide (c.clipLoopStart < c.naturalFrames)

def rawLoopLen (c : AudioClip) : ℕ :=
  let stop := max (min c.clipLoopEnd (max c.naturalFrames 1)) (c.clipLoopStart + 1)
  max (stop - c.clipLoopStart) 1

/-- The loop length rounded down to whole beats; a loop shorter than a beat is left as it is. -/
def quantizedLoopLen (c : AudioClip) (t : TransportPosition) : ℕ :=
  let spb := t.samplesPerBeat
  if ¬ 1 < spb then c.rawLoopLen
  else
    let spbFrames := ⌊spb + 1 / 2⌋₊
    if spbFrames = 0 ∨ c.rawLoopLen < spbFrames then c.rawLoopLen
    else min (max (c.rawLoopLen / spbFrames * spbFrames) 1) c.rawLoopLen

def emissionLenFrames (c : AudioClip) : ℕ :=
  if 0 < c.durationFrames then min c.durationFrames c.naturalFrames else c.naturalFrames

/-- The frame at a position of the wrapping clock; past the first pass a valid global region lends
the loop its phase. -/
def voiceFrame (c : AudioClip) (globalPos : ℕ) (t : TransportPosition) : Option ℕ :=
  if globalPos < c.startFrame then none
  else if c.naturalFrames = 0 then none
  else
    let elapsed := globalPos - c.startFrame
    if c.hasValidClipLoop then
      let loopStart := min c.clipLoopStart c.naturalFrames
      let loopLen := c.quantizedLoopLen t
      if elapsed < loopStart + loopLen then some elapsed
      else if t.hasValidLoop then
        some (loopStart + (globalPos - t.loopStartSamples) % loopLen)
      else some (loopStart + (elapsed - loopStart) % loopLen)
    else if c.emissionLenFrames ≤ elapsed then none
    else some elapsed

def voiceFrameLinear (c : AudioClip) (absPos : ℕ) (t : TransportPosition) : Option ℕ :=
  if absPos < c.startAbsolute then none
  else if c.naturalFrames = 0 then none
  else
    let elapsed := absPos - c.startAbsolute
    if c.hasValidClipLoop then
      let loopStart := min c.clipLoopStart c.naturalFrames
      some (loopStart + elapsed % c.quantizedLoopLen t)
    else if c.emissionLenFrames ≤ elapsed then none
    else some elapsed

/-- With events the voice also lives through the gaps between them. -/
def voiceStateLinear (c : AudioClip) (absPos : ℕ) (t : TransportPosition) : VoiceState :=
  if !c.events.isEmpty then
    if absPos < c.startAbsolute then .finished
    else
      let elapsed := absPos - c.startAbsolute
      if c.naturalFrames = 0 then .finished
      else if ¬ c.hasValidClipLoop ∧ c.emissionLenFrames ≤ elapsed then .finished
      else
        let clipFrame :=
          if c.hasValidClipLoop then
            min c.clipLoopStart c.naturalFrames + elapsed % c.quantizedLoopLen t
          else elapsed
        let audible := c.events.any fun e => decide (e.clipStart ≤ clipFrame ∧ clipFrame < e.stop)
        if audible then .active
        else if ¬ c.hasValidClipLoop ∧ c.emissionLenFrames ≤ elapsed then .finished
        else .active
  else
    match c.voiceFrameLinear absPos t with
    | some _ => .active
    | none => .finished

def mixEventsAt (c : AudioClip) (clipFrame : ℕ) : Frame :=
  c.events.foldl (fun acc e => acc + e.readAt clipFrame) (0, 0)

/-- The frame of the timeline for an elapsed time, as the event path resolves it. -/
def clipFrameForElapsed (c : AudioClip) (elapsed : ℕ) (t : TransportPosition) : Option ℕ :=
  if c.naturalFrames = 0 then none
  else if c.hasValidClipLoop then
    let loopStart := min c.clipLoopStart c.naturalFrames
    some (loopStart + elapsed % c.quantizedLoopLen t)
  else if c.emissionLenFrames ≤ elapsed then none
  else some elapsed

/-- The frame for an elapsed time, as the single-sample path of the audio callback resolves it. -/
def singleSampleFrame (c : AudioClip) (elapsed : ℕ) (t : TransportPosition) : Option ℕ :=
  if ¬ c.hasValidClipLoop ∧ c.emissionLenFrames ≤ elapsed then none
  else if c.hasValidClipLoop then
    let loopStart := min c.clipLoopStart c.naturalFrames
    let loopLen := c.quantizedLoopLen t
    let loopEnd := loopStart + loopLen
    some (if elapsed < loopEnd then elapsed else loopStart + (elapsed - loopEnd) % loopLen)
  else some elapsed

/-- What the playhead of the GUI shows of a clip: the frame its voice reads, and the clip's length. -/
def playheadFrame (c : AudioClip) (absPos : ℕ) (t : TransportPosition) : Option (ℕ × ℕ) :=
  if !c.isPlaying then none
  else if c.voiceStateLinear absPos t ≠ .active then none
  else (c.voiceFrameLinear absPos t).map fun frame => (frame, max c.naturalFrames 1)

theorem hasValidClipLoop_iff (c : AudioClip) :
    c.hasValidClipLoop = true ↔ c.clipLoopEnabled = true ∧ c.clipLoopStart < c.clipLoopEnd ∧
      c.clipLoopStart < c.naturalFrames := by
  simp [hasValidClipLoop, and_assoc]

theorem rawLoopLen_pos (c : AudioClip) : 0 < c.rawLoopLen := by
  unfold rawLoopLen
  simp only
  omega

theorem quantizedLoopLen_pos (c : AudioClip) (t : TransportPosition) :
    0 < c.quantizedLoopLen t := by
  have := c.rawLoopLen_pos
  unfold quantizedLoopLen
  simp only
  split_ifs
  · omega
  · omega
  · omega

theorem emissionLenFrames_le (c : AudioClip) : c.emissionLenFrames ≤ c.naturalFrames := by
  unfold emissionLenFrames
  split
  · exact min_le_right _ _
  · exact le_rfl

end AudioClip

end HikaruOpenLive.Engine
