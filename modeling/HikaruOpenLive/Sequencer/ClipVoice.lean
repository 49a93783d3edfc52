import Mathlib.Data.Fintype.Basic
import HikaruOpenLive.Foundations.CyclicWindow

/-! # The voice of a clip and the session matrix

A clip remembers the transport position at which it was triggered and resolves, for a position of the
transport, the frame of its source to read. Polling the voice turns a playing clip into a stopped one
as soon as no frame resolves. The matrix polls every slot that plays.

The fields that name the clip, its buffer and its trigger mode are not read by any of this and are
left out; the atomic state is an ordinary field.
-/
set_option autoImplicit false

namespace HikaruOpenLive.Sequencer

inductive ClipState where
  | stopped
  | queued
  | playing
  | stopping
deriving DecidableEq, Repr

inductive VoiceState where
  | active
  | finished
deriving DecidableEq, Repr

structure Clip where
  state : ClipState
  startSample : ℕ
  loopEnabled : Bool
  loopStart : ℕ
  loopEnd : ℕ
  totalFrames : ℕ
deriving DecidableEq, Repr

namespace Clip

def hasValidClipLoop (c : Clip) : Bool :=
  c.loopEnabled && decide (c.loopStart < c.loopEnd)

def effectiveLoopEnd (c : Clip) : ℕ :=
  if 0 < c.totalFrames then min c.loopEnd c.totalFrames else c.loopEnd

/-- The frame of the source to read at a transport position, `none` for silence. Past the first pass
a clip loop takes its phase from the global region when there is one. -/
def resolveVoiceFrame (c : Clip) (globalPos : ℕ) (globalLoop : Option (ℕ × ℕ)) : Option ℕ :=
  if globalPos < c.startSample then none
  else
    let elapsed := globalPos - c.startSample
    if c.hasValidClipLoop then
      let loopStart := min c.loopStart c.effectiveLoopEnd
      let loopEnd := c.effectiveLoopEnd
      if loopEnd ≤ loopStart then none
      else
        let loopLen := loopEnd - loopStart
        if elapsed < loopEnd then some elapsed
        else
          match globalLoop with
          | some (gStart, gEnd) =>
            if gStart < gEnd then some (loopStart + (globalPos - gStart) % loopLen)
            else some (loopStart + (elapsed - loopStart) % loopLen)
          | none => some (loopStart + (elapsed - loopStart) % loopLen)
    else if c.totalFrames = 0 then none
    else if c.totalFrames ≤ elapsed then none
    else some elapsed

def voiceState (c : Clip) (globalPos : ℕ) (globalLoop : Option (ℕ × ℕ)) : VoiceState :=
  match c.resolveVoiceFrame globalPos globalLoop with
  | some _ => .active
  | none => .finished

def finishSlotIfPlaying (c : Clip) : Clip × Bool :=
  if c.state = .playing then ({ c with state := .stopped }, true) else (c, false)

def pollVoice (c : Clip) (globalPos : ℕ) (globalLoop : Option (ℕ × ℕ)) : Clip × VoiceState :=
  let vs := c.voiceState globalPos globalLoop
  (if vs = .finished then c.finishSlotIfPlaying.1 else c, vs)

def triggeredAt (c : Clip) (globalPos : ℕ) : Clip :=
  { c with state := .playing, startSample := globalPos }

/-- An enabled, non-degenerate clip loop that begins inside the source. -/
structure Looped (c : Clip) : Prop where
  valid : c.hasValidClipLoop = true
  inside : c.loopStart < c.totalFrames

theorem Looped.window {c : Clip} (h : c.Looped) :
    min c.loopStart c.effectiveLoopEnd < c.effectiveLoopEnd ∧
      c.effectiveLoopEnd ≤ c.totalFrames := by
  have hv : c.loopStart < c.loopEnd := by
    have := h.valid
    simp only [hasValidClipLoop, Bool.and_eq_true, decide_eq_true_eq] at this
    exact this.2
  have hi := h.inside
  unfold effectiveLoopEnd
  rw [if_pos (by omega)]
  omega

/-- What the voice of a looped clip reads: nothing before its trigger, then a frame of its source. -/
theorem Looped.resolve {c : Clip} (h : c.Looped) (pos : ℕ) (gl : Option (ℕ × ℕ)) :
    if c.startSample ≤ pos then ∃ f, c.resolveVoiceFrame pos gl = some f ∧ f < c.totalFrames
    else c.resolveVoiceFrame pos gl = none := by
  obtain ⟨hlt, hle⟩ := h.window
  have hmod : ∀ x, min c.loopStart c.effectiveLoopEnd +
      x % (c.effectiveLoopEnd - min c.loopStart c.effectiveLoopEnd) < c.totalFrames := by
    intro x
    have := Nat.mod_lt x (Nat.sub_pos_of_lt hlt)
    omega
  unfold resolveVoiceFrame
  by_cases hpos : c.startSample ≤ pos
  · rw [if_pos hpos, if_neg (show ¬ pos < c.startSample by omega)]
    simp only [h.valid, if_true]
    rw [if_neg (show ¬ c.effectiveLoopEnd ≤ min c.loopStart c.effectiveLoopEnd by omega)]
    split
    · exact ⟨_, rfl, by omega⟩
    · split
      · split
        · exact ⟨_, rfl, hmod _⟩
        · exact ⟨_, rfl, hmod _⟩
      · exact ⟨_, rfl, hmod _⟩
  · rw [if_neg hpos, if_pos (show pos < c.startSample by omega)]

theorem pollVoice_fields (c : Clip) (pos : ℕ) (gl : Option (ℕ × ℕ)) :
    ∃ s, (c.pollVoice pos gl).1 = { c with state := s } := by
  unfold pollVoice finishSlotIfPlaying
  simp only
  split_ifs
  · exact ⟨_, rfl⟩
  · exact ⟨c.state, rfl⟩
  · exact ⟨c.state, rfl⟩

theorem Looped.poll {c : Clip} (h : c.Looped) (pos : ℕ) (gl : Option (ℕ × ℕ)) :
    (c.pollVoice pos gl).1.Looped := by
  obtain ⟨s, hs⟩ := pollVoice_fields c pos gl
  rw [hs]
  exact ⟨h.valid, h.inside⟩

/-- A poll leaves the state of a looped clip alone at or after its trigger, and stops a playing one
before it. -/
theorem Looped.poll_state {c : Clip} (h : c.Looped) (pos : ℕ) (gl : Option (ℕ × ℕ)) :
    (c.pollVoice pos gl).1.state = .playing ↔ c.state = .playing ∧ c.startSample ≤ pos := by
  have hr := h.resolve pos gl
  unfold pollVoice voiceState
  by_cases hpos : c.startSample ≤ pos
  · rw [if_pos hpos] at hr
    obtain ⟨f, hf, _⟩ := hr
    simp [hf, hpos]
  · rw [if_neg hpos] at hr
    unfold finishSlotIfPlaying
    by_cases hp : c.state = .playing
    · simp [hr, hp, hpos]
    · simp [hr, hp]

end Clip

/-! ## The session matrix -/

structure TrackMatrix where
  slots : Fin 16 → Fin 32 → Option Clip

namespace TrackMatrix

def pollSlot (globalPos : ℕ) (globalLoop : Option (ℕ × ℕ)) : Option Clip → Option Clip × Bool
  | none => (none, false)
  | some c =>
    if c.state = .playing then
      let polled := c.pollVoice globalPos globalLoop
      (some polled.1, decide (polled.2 = .finished))
    else (some c, false)

def pollFinishedVoices (m : TrackMatrix) (globalPos : ℕ) (globalLoop : Option (ℕ × ℕ)) :
    TrackMatrix × ℕ :=
  (⟨fun t s => (pollSlot globalPos globalLoop (m.slots t s)).1⟩,
    ((List.finRange 16).flatMap fun t => (List.finRange 32).filter fun s =>
      (pollSlot globalPos globalLoop (m.slots t s)).2).length)

/-- The matrix polls the voice of every clip it holds: a clip that does not play is left as the poll
of its voice would leave it. -/
theorem pollFinishedVoices_slot (m : TrackMatrix) (pos : ℕ) (gl : Option (ℕ × ℕ)) (t : Fin 16)
    (s : Fin 32) :
    (m.pollFinishedVoices pos gl).1.slots t s =
      (m.slots t s).map fun c => (c.pollVoice pos gl).1 := by
  unfold pollFinishedVoices pollSlot
  simp only
  cases m.slots t s with
  | none => rfl
  | some c =>
    by_cases hp : c.state = .playing
    · simp [hp]
    · simp [hp, Clip.pollVoice, Clip.finishSlotIfPlaying]

end TrackMatrix

end HikaruOpenLive.Sequencer
