import Mathlib.Data.List.MinMax
import HikaruOpenLive.Foundations.Runs
import HikaruOpenLive.Foundations.ListEdits
import HikaruOpenLive.Engine.BlockCuts

/-! # The clip commands of the engine

The methods with which the control thread adds, edits, triggers and stops clips and moves the
transport, and runs of them mixed with audio blocks. Clips are found by id in OpenStudio and by cell,
their track and scene, in OpenLive. Times given in seconds are exact; a negative one casts to zero.

`Started` holds all along every run from a new engine (`started_along`): a trigger takes its origin
from the absolute clock or from a clip that plays already.
-/
set_option autoImplicit false

namespace HikaruOpenLive.Engine

open Foundations.Runs Foundations.ListEdits Transport

namespace AudioClip

def inCell (track scene : ℕ) (c : AudioClip) : Bool :=
  decide (c.trackIndex = track) && decide (c.sceneIndex = scene)

/-- The clip a command addresses: by id in OpenStudio, by cell in OpenLive. -/
def addressed (mode : EngineMode) (id track scene : ℕ) (c : AudioClip) : Bool :=
  match mode with
  | .openStudio => decide (c.id = id)
  | .openLive => c.inCell track scene

def withoutLoop (c : AudioClip) : AudioClip :=
  { c with clipLoopEnabled := false, clipLoopStart := 0, clipLoopEnd := 0 }

/-- The loop set from a region in frames; an empty region loops to the clip's end. -/
def setLoop (start stop : ℕ) (enabled : Bool) (c : AudioClip) : AudioClip :=
  let natural := c.naturalFrames
  let stop := if 0 < natural then min stop natural else stop
  if enabled ∧ start < natural then
    let loopEnd := if start < stop then min stop natural else natural
    if start < loopEnd then
      { c with clipLoopEnabled := true, clipLoopStart := start, clipLoopEnd := loopEnd }
    else c.withoutLoop
  else c.withoutLoop

/-- The events replaced; a loop over the whole clip stays one over the whole new timeline. -/
def setEvents (events : List EngineAudioEvent) (c : AudioClip) : AudioClip :=
  let wasFullLoop := c.clipLoopEnabled && decide (c.clipLoopStart = 0) &&
    (decide (c.clipLoopEnd = 0) || decide (c.clipLoopEnd = c.samples.length / max c.channels 1) ||
      (c.events.isEmpty && decide (c.clipLoopEnd = c.naturalFrames)))
  let edited := { c with
    events := events, fade := { c.fade with prevFrame := noPrevFrame, xfadeRemaining := 0 } }
  let natural := edited.naturalFrames
  if c.clipLoopEnabled ∧ 0 < natural then
    if c.clipLoopEnd = 0 ∨ natural < c.clipLoopEnd ∨ wasFullLoop then
      { edited with clipLoopStart := 0, clipLoopEnd := natural }
    else edited
  else if 0 < natural ∧ c.clipLoopEnd = 0 then
    { edited with clipLoopEnabled := true, clipLoopStart := 0, clipLoopEnd := natural }
  else edited

def start (startFrame startAbsolute : ℕ) (c : AudioClip) : AudioClip :=
  { c with
    isPlaying := true, startFrame := startFrame, startAbsolute := startAbsolute, fade := .fresh }

def stopped (c : AudioClip) : AudioClip :=
  { c with isPlaying := false }

end AudioClip

namespace AudioEngine

variable {ν β : Type}

def setMode (e : AudioEngine ν) (mode : EngineMode) : AudioEngine ν :=
  { e with mode := mode }

/-- Seconds are exact here, where the engine's are `f32`. -/
def secsToFrames (e : AudioEngine ν) (secs : ℚ) : ℕ :=
  ⌊secs * e.sampleRate⌋₊

/-- The clip that `addClip` stores; pads of the matrix loop over the whole clip. -/
def clipInstance (e : AudioEngine ν) (id track scene : ℕ) (samples : List ℚ)
    (startSecs durationSecs offsetSecs : ℚ) (channels : ℕ) (isMatrixClip : Bool) : AudioClip :=
  let ch := max channels 1
  let natural := samples.length / ch
  let loops := isMatrixClip && decide (0 < natural)
  { id := id, trackIndex := track, sceneIndex := scene, samples := samples
    startFrame := e.secsToFrames startSecs, startAbsolute := 0
    durationFrames := if 0 < durationSecs then e.secsToFrames durationSecs else natural
    sampleOffset := e.secsToFrames offsetSecs * ch, channels := ch, isPlaying := false
    clipLoopEnabled := loops, clipLoopStart := 0, clipLoopEnd := if loops then natural else 0
    isMatrixClip := isMatrixClip, fade := .fresh, events := [] }

/-- Replaces the clip the instance's id or cell addresses, or appends the instance. -/
def addClip (e : AudioEngine ν) (c : AudioClip) : AudioEngine ν :=
  let addressed := AudioClip.addressed e.mode c.id c.trackIndex c.sceneIndex
  if e.clips.any addressed then { e with clips := updateFirst addressed (fun _ => c) e.clips }
  else { e with clips := e.clips ++ [c] }

def removeClip (e : AudioEngine ν) (id track scene : ℕ) : AudioEngine ν :=
  { e with clips := e.clips.filter fun c => !AudioClip.addressed e.mode id track scene c }

def updateClipBounds (e : AudioEngine ν) (id track scene : ℕ)
    (startSecs durationSecs offsetSecs : ℚ) : AudioEngine ν :=
  let move (c : AudioClip) : AudioClip :=
    { c with
      startFrame := e.secsToFrames startSecs
      durationFrames := if 0 < durationSecs then e.secsToFrames durationSecs else c.naturalFrames
      sampleOffset := e.secsToFrames offsetSecs * c.channels }
  { e with clips := updateFirst (AudioClip.addressed e.mode id track scene) move e.clips }

def setClipLoop (e : AudioEngine ν) (track scene : ℕ) (startSecs endSecs : ℚ) (enabled : Bool) :
    AudioEngine ν :=
  let sr := max e.sampleRate 1
  { e with
    clips := updateFirst (AudioClip.inCell track scene)
      (AudioClip.setLoop ⌊max startSecs 0 * sr⌋₊ ⌊max endSecs 0 * sr⌋₊ enabled) e.clips }

def setClipEvents (e : AudioEngine ν) (track scene : ℕ) (events : List EngineAudioEvent) :
    AudioEngine ν :=
  { e with
    clips := updateFirst (AudioClip.inCell track scene) (AudioClip.setEvents events) e.clips }

/-- The origins of the oldest playing clip, of the track if any plays there, else of any track. -/
def legatoReference (e : AudioEngine ν) (track : ℕ) : Option (ℕ × ℕ) :=
  let oldest (clips : List AudioClip) : Option (ℕ × ℕ) :=
    (clips.argmin AudioClip.startAbsolute).map fun c => (c.startFrame, c.startAbsolute)
  (oldest (e.clips.filter fun c => decide (c.trackIndex = track) && c.isPlaying)).or
    (oldest (e.clips.filter AudioClip.isPlaying))

def targetPlaying (e : AudioEngine ν) (track scene : ℕ) : Bool :=
  ((e.clips.find? (AudioClip.inCell track scene)).map AudioClip.isPlaying).getD false

def triggerOrigin (e : AudioEngine ν) (track : ℕ) : ℕ × ℕ :=
  (e.legatoReference track).getD (e.transport.sampleCount, e.absoluteFrame)

/-- Toggles a pad: its clips start in the phase of what plays already, or stop; the other clips of
its track stop. -/
def triggerClip (e : AudioEngine ν) (track scene : ℕ) : AudioEngine ν :=
  let targetWasPlaying := e.targetPlaying track scene
  let origin := e.triggerOrigin track
  { e with
    clips := e.clips.map fun c =>
      if c.trackIndex = track then
        if c.sceneIndex = scene ∧ !targetWasPlaying then c.start origin.1 origin.2 else c.stopped
      else c }

/-- Starts the clips of a scene from now and stops the others on their tracks. -/
def triggerScene (e : AudioEngine ν) (scene : ℕ) : AudioEngine ν :=
  let hasClip (track : ℕ) : Bool := e.clips.any (AudioClip.inCell track scene)
  { e with
    clips := e.clips.map fun c =>
      if c.sceneIndex = scene then c.start e.transport.sampleCount e.absoluteFrame
      else if hasClip c.trackIndex then c.stopped
      else c }

def stopTrack (e : AudioEngine ν) (track : ℕ) : AudioEngine ν :=
  { e with clips := e.clips.map fun c => if c.trackIndex = track then c.stopped else c }

def play (e : AudioEngine ν) : AudioEngine ν :=
  { e with preview := e.preview.stop, transport := { e.transport with playbackState := .playing } }

def pause (e : AudioEngine ν) : AudioEngine ν :=
  { e with transport := { e.transport with playbackState := .paused } }

def stop (e : AudioEngine ν) : AudioEngine ν :=
  { e with transport := { e.transport with playbackState := .stopped, sampleCount := 0 } }

def seek (e : AudioEngine ν) (positionSecs : ℚ) : AudioEngine ν :=
  { e with transport := { e.transport with sampleCount := e.secsToFrames positionSecs } }

def setGlobalLoop (e : AudioEngine ν) (startSamples endSamples : ℕ) (enabled : Bool) :
    AudioEngine ν :=
  { e with
    transport := (e.transport.setLoopRegionSamples startSamples endSamples).setLoopEnabled enabled }

inductive Command where
  | setMode (mode : EngineMode)
  | addClip (id track scene : ℕ) (samples : List ℚ) (startSecs durationSecs offsetSecs : ℚ)
      (channels : ℕ) (isMatrixClip : Bool)
  | removeClip (id track scene : ℕ)
  | updateClipBounds (id track scene : ℕ) (startSecs durationSecs offsetSecs : ℚ)
  | setClipLoop (track scene : ℕ) (startSecs endSecs : ℚ) (enabled : Bool)
  | setClipEvents (track scene : ℕ) (events : List EngineAudioEvent)
  | triggerClip (track scene : ℕ)
  | triggerScene (scene : ℕ)
  | stopTrack (track : ℕ)
  | play
  | pause
  | stop
  | seek (positionSecs : ℚ)
  | setGlobalLoop (startSamples endSamples : ℕ) (enabled : Bool)
  | process (frames : ℕ)

variable (host : PluginHost ν) (stage : OutputStage β)

def step (e : AudioEngine ν) : Command → AudioEngine ν
  | .setMode mode => e.setMode mode
  | .addClip id track scene samples startSecs durationSecs offsetSecs channels isMatrixClip =>
    e.addClip (e.clipInstance id track scene samples startSecs durationSecs offsetSecs channels
      isMatrixClip)
  | .removeClip id track scene => e.removeClip id track scene
  | .updateClipBounds id track scene startSecs durationSecs offsetSecs =>
    e.updateClipBounds id track scene startSecs durationSecs offsetSecs
  | .setClipLoop track scene startSecs endSecs enabled =>
    e.setClipLoop track scene startSecs endSecs enabled
  | .setClipEvents track scene events => e.setClipEvents track scene events
  | .triggerClip track scene => e.triggerClip track scene
  | .triggerScene scene => e.triggerScene scene
  | .stopTrack track => e.stopTrack track
  | .play => e.play
  | .pause => e.pause
  | .stop => e.stop
  | .seek positionSecs => e.seek positionSecs
  | .setGlobalLoop startSamples endSamples enabled => e.setGlobalLoop startSamples endSamples enabled
  | .process frames => (e.process host stage frames).2

/-! ## Starts are never in the future -/

theorem mem_clips_legato {e : AudioEngine ν} {track : ℕ} {origin : ℕ × ℕ}
    (h : e.legatoReference track = some origin) :
    ∃ c ∈ e.clips, c.isPlaying = true ∧ origin = (c.startFrame, c.startAbsolute) := by
  have holdest : ∀ {clips : List AudioClip}, (∀ c ∈ clips, c ∈ e.clips ∧ c.isPlaying = true) →
      ((clips.argmin AudioClip.startAbsolute).map fun c => (c.startFrame, c.startAbsolute)) =
        some origin →
      ∃ c ∈ e.clips, c.isPlaying = true ∧ origin = (c.startFrame, c.startAbsolute) := by
    intro clips hsub hsome
    obtain ⟨c, hc, rfl⟩ := Option.map_eq_some_iff.mp hsome
    obtain ⟨hmem, hplay⟩ := hsub c (List.argmin_mem hc)
    exact ⟨c, hmem, hplay, rfl⟩
  obtain h | ⟨_, h⟩ := Option.or_eq_some_iff.mp h
  · apply holdest _ h
    intro c hc
    obtain ⟨hmem, hp⟩ := List.mem_filter.mp hc
    simp only [Bool.and_eq_true] at hp
    exact ⟨hmem, hp.2⟩
  · apply holdest _ h
    intro c hc
    exact List.mem_filter.mp hc

theorem triggerOrigin_le {e : AudioEngine ν} (h : e.Started) (track : ℕ) :
    (e.triggerOrigin track).2 ≤ e.absoluteFrame := by
  unfold triggerOrigin
  cases hl : e.legatoReference track with
  | none => exact le_rfl
  | some origin =>
    obtain ⟨c, hc, hplay, rfl⟩ := mem_clips_legato hl
    exact h c hc hplay

/-- Replacing clips by clips that do not play, or that started where clips of the engine did, leaves
no start in the future. -/
theorem started_of_clips {e e' : AudioEngine ν} (h : e.Started)
    (habs : e'.absoluteFrame = e.absoluteFrame)
    (hclips : ∀ c ∈ e'.clips, c.isPlaying = true →
      c.startAbsolute ≤ e.absoluteFrame ∨
        ∃ d ∈ e.clips, d.isPlaying = true ∧ c.startAbsolute = d.startAbsolute) : e'.Started := by
  intro c hc hplay
  rw [habs]
  obtain hle | ⟨d, hd, hdp, hs⟩ := hclips c hc hplay
  · exact hle
  · rw [hs]
    exact h d hd hdp

/-- An edit of one clip that turns nothing on and keeps the start leaves no start in the future. -/
theorem started_updateFirst {e e' : AudioEngine ν} (h : e.Started)
    (habs : e'.absoluteFrame = e.absoluteFrame) {p : AudioClip → Bool} {f : AudioClip → AudioClip}
    (hclips : e'.clips = updateFirst p f e.clips)
    (hf : ∀ c, (f c).isPlaying = true →
      c.isPlaying = true ∧ (f c).startAbsolute = c.startAbsolute) : e'.Started := by
  refine started_of_clips h habs ?_
  intro c hc hp
  rw [hclips] at hc
  obtain hc | ⟨d, hd, _, rfl⟩ := mem_updateFirst hc
  · exact Or.inl (h c hc hp)
  · exact Or.inr ⟨d, hd, hf d hp⟩

theorem setLoop_fields (start stop : ℕ) (enabled : Bool) (c : AudioClip) :
    (c.setLoop start stop enabled).isPlaying = c.isPlaying ∧
      (c.setLoop start stop enabled).startAbsolute = c.startAbsolute ∧
      (c.setLoop start stop enabled).trackIndex = c.trackIndex ∧
      (c.setLoop start stop enabled).sceneIndex = c.sceneIndex := by
  simp only [AudioClip.setLoop, AudioClip.withoutLoop]
  split_ifs <;> exact ⟨rfl, rfl, rfl, rfl⟩

theorem setEvents_fields (events : List EngineAudioEvent) (c : AudioClip) :
    (c.setEvents events).isPlaying = c.isPlaying ∧
      (c.setEvents events).startAbsolute = c.startAbsolute ∧
      (c.setEvents events).trackIndex = c.trackIndex ∧
      (c.setEvents events).sceneIndex = c.sceneIndex := by
  simp only [AudioClip.setEvents]
  split_ifs <;> exact ⟨rfl, rfl, rfl, rfl⟩

theorem started_step {e : AudioEngine ν} (h : e.Started) (cmd : Command) :
    (e.step host stage cmd).Started := by
  have hsame : ∀ c ∈ e.clips, c.isPlaying = true → c.startAbsolute ≤ e.absoluteFrame ∨
      ∃ d ∈ e.clips, d.isPlaying = true ∧ c.startAbsolute = d.startAbsolute :=
    fun c hc hp => Or.inl (h c hc hp)
  cases cmd with
  | addClip id track scene samples s d o channels m =>
    simp only [step, addClip]
    split
    · refine started_updateFirst h rfl rfl ?_
      intro c hp
      exact absurd hp (by simp [clipInstance])
    · refine started_of_clips h rfl ?_
      intro c hc hp
      obtain hc | hc := List.mem_append.mp hc
      · exact hsame c hc hp
      · rw [List.mem_singleton.mp hc] at hp
        exact absurd hp (by simp [clipInstance])
  | removeClip id track scene =>
    exact started_of_clips h rfl (fun c hc hp => hsame c (List.mem_filter.mp hc).1 hp)
  | updateClipBounds id track scene s d o =>
    exact started_updateFirst h rfl rfl (fun c hp => ⟨hp, rfl⟩)
  | setClipLoop track scene s d en =>
    refine started_updateFirst h rfl rfl ?_
    intro c hp
    obtain ⟨h1, h2, _⟩ := setLoop_fields ⌊max s 0 * max e.sampleRate 1⌋₊
      ⌊max d 0 * max e.sampleRate 1⌋₊ en c
    exact ⟨h1 ▸ hp, h2⟩
  | setClipEvents track scene events =>
    refine started_updateFirst h rfl rfl ?_
    intro c hp
    obtain ⟨h1, h2, _⟩ := setEvents_fields events c
    exact ⟨h1 ▸ hp, h2⟩
  | triggerClip track scene =>
    refine started_of_clips h rfl ?_
    intro c hc hp
    obtain ⟨d, hd, rfl⟩ := List.mem_map.mp hc
    have hle := triggerOrigin_le h track
    split_ifs at hp ⊢
    · exact Or.inl hle
    · exact absurd hp (by simp [AudioClip.stopped])
    · exact hsame d hd hp
  | triggerScene scene =>
    refine started_of_clips h rfl ?_
    intro c hc hp
    obtain ⟨d, hd, rfl⟩ := List.mem_map.mp hc
    split_ifs at hp ⊢
    · exact Or.inl le_rfl
    · exact absurd hp (by simp [AudioClip.stopped])
    · exact hsame d hd hp
  | stopTrack track =>
    refine started_of_clips h rfl ?_
    intro c hc hp
    obtain ⟨d, hd, rfl⟩ := List.mem_map.mp hc
    split_ifs at hp ⊢
    · exact absurd hp (by simp [AudioClip.stopped])
    · exact hsame d hd hp
  | process frames => exact h.process host stage frames
  | setMode mode => exact h
  | play => exact h
  | pause => exact h
  | stop => exact h
  | seek s => exact h
  | setGlobalLoop s t en => exact h

/-- In every engine reached from a new one, no playing clip starts in the future. -/
theorem started_along (sampleRate : ℚ) (cmds : List Command) :
    Always (step host stage) Started (new sampleRate) cmds := by
  have hnew : (new sampleRate : AudioEngine ν).Started := by
    intro c hc
    exact absurd hc List.not_mem_nil
  exact always_of_step (fun e cmd h => started_step host stage h cmd) hnew

end AudioEngine

end HikaruOpenLive.Engine
