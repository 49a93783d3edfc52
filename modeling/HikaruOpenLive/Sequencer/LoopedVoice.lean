import HikaruOpenLive.Foundations.Runs
import HikaruOpenLive.Transport.Position
import HikaruOpenLive.Sequencer.ClipVoice

/-! # Looped pads under a wrapping transport

A pad run is the transport together with one looped clip; a tick sets the global loop region,
advances the clock, wraps it and polls the voice. The clip measures elapsed time from the transport
position of its trigger, while a wrap can take the clock back before that position; a poll there
stops the pad. `looped_pad_keeps_playing_iff` says that this is the only way it stops.
-/
set_option autoImplicit false

namespace HikaruOpenLive.Sequencer

open Foundations.Runs Transport

/-- A clip with an enabled, non-degenerate loop that begins inside its source. -/
structure LoopedPad where
  clip : Clip
  looped : clip.Looped

namespace LoopedPad

def triggeredAt (p : LoopedPad) (pos : ℕ) : LoopedPad :=
  ⟨p.clip.triggeredAt pos, p.looped.valid, p.looped.inside⟩

def poll (p : LoopedPad) (pos : ℕ) (gl : Option (ℕ × ℕ)) : LoopedPad :=
  ⟨(p.clip.pollVoice pos gl).1, p.looped.poll pos gl⟩

end LoopedPad

/-- One advance of the transport: the loop region in force, the samples that pass, and the global
loop the poll is told about. -/
structure Tick where
  samples : ℕ
  loopEnabled : Bool
  loopStart : ℕ
  loopEnd : ℕ
  globalLoop : Option (ℕ × ℕ)

def Tick.advanced (i : Tick) (t : TransportPosition) : TransportPosition :=
  ((t.setLoopRegionSamples i.loopStart i.loopEnd).setLoopEnabled i.loopEnabled).advance i.samples

def Tick.landing (i : Tick) (t : TransportPosition) : ℕ :=
  (i.advanced t).wrapSampleCount (i.advanced t).sampleCount

def Tick.moved (i : Tick) (t : TransportPosition) : TransportPosition :=
  { i.advanced t with sampleCount := i.landing t }

theorem Tick.advanced_fields (i : Tick) (t : TransportPosition) :
    (i.advanced t).loopStartSamples = i.loopStart ∧ (i.advanced t).loopEndSamples = i.loopEnd ∧
      (i.advanced t).loopEnabled = i.loopEnabled ∧ t.sampleCount ≤ (i.advanced t).sampleCount := by
  unfold advanced TransportPosition.advance TransportPosition.setLoopEnabled
    TransportPosition.setLoopRegionSamples
  split
  · exact ⟨rfl, rfl, rfl, Nat.le_add_right _ _⟩
  · exact ⟨rfl, rfl, rfl, le_rfl⟩

structure PadRun where
  transport : TransportPosition
  pad : LoopedPad

namespace PadRun

def tick (st : PadRun) (i : Tick) : PadRun :=
  ⟨i.moved st.transport, st.pad.poll (i.landing st.transport) i.globalLoop⟩

/-- The voice plays, and whatever global loop it is asked about it reads a frame of its source. -/
def Sounding (st : PadRun) : Prop :=
  st.pad.clip.state = .playing ∧
    ∀ gl, ∃ f, st.pad.clip.resolveVoiceFrame st.transport.sampleCount gl = some f ∧
      f < st.pad.clip.totalFrames

/-- Either the tick does not reach the end of an active region, or its place in the region is not
before the trigger. -/
def KeepsTrigger (st : PadRun) (i : Tick) : Prop :=
  i.loopEnabled = true → i.loopStart < i.loopEnd →
    i.loopEnd ≤ (i.advanced st.transport).sampleCount →
    st.pad.clip.startSample ≤ i.loopStart +
      ((i.advanced st.transport).sampleCount - i.loopStart) % (i.loopEnd - i.loopStart)

theorem sounding_iff (st : PadRun) :
    st.Sounding ↔
      st.pad.clip.state = .playing ∧ st.pad.clip.startSample ≤ st.transport.sampleCount := by
  have hr := st.pad.looped.resolve st.transport.sampleCount
  unfold Sounding
  by_cases hpos : st.pad.clip.startSample ≤ st.transport.sampleCount
  · simp only [if_pos hpos] at hr
    exact ⟨fun h => ⟨h.1, hpos⟩, fun h => ⟨h.1, hr⟩⟩
  · simp only [if_neg hpos] at hr
    constructor
    · rintro ⟨_, h⟩
      obtain ⟨f, hf, _⟩ := h none
      rw [hr none] at hf
      exact absurd hf (by simp)
    · rintro ⟨_, h⟩
      exact absurd h hpos

theorem sounding_triggered (p : LoopedPad) (t : TransportPosition) :
    Sounding ⟨t, p.triggeredAt t.sampleCount⟩ :=
  (sounding_iff _).mpr ⟨rfl, le_rfl⟩

theorem le_landing_iff (st : PadRun) (i : Tick)
    (h : st.pad.clip.startSample ≤ st.transport.sampleCount) :
    st.pad.clip.startSample ≤ i.landing st.transport ↔ st.KeepsTrigger i := by
  obtain ⟨hs, he, hen, hle⟩ := i.advanced_fields st.transport
  have hvalid : (i.advanced st.transport).hasValidLoop = true ↔
      i.loopEnabled = true ∧ i.loopStart < i.loopEnd := by
    rw [TransportPosition.hasValidLoop_iff, hs, he, hen]
  unfold Tick.landing KeepsTrigger
  by_cases hv : (i.advanced st.transport).hasValidLoop = true
  · obtain ⟨h1, h2⟩ := hvalid.mp hv
    rw [TransportPosition.wrap_eq_fold hv, hs, he]
    by_cases hend : i.loopEnd ≤ (i.advanced st.transport).sampleCount
    · rw [Foundations.CyclicWindow.fold_of_le hend]
      exact ⟨fun hk _ _ _ => hk, fun hk => hk h1 h2 hend⟩
    · rw [Foundations.CyclicWindow.fold_of_lt (by omega)]
      exact ⟨fun _ _ _ hc => absurd hc hend, fun _ => by omega⟩
  · rw [TransportPosition.wrap_of_invalid hv]
    exact ⟨fun _ h1 h2 => absurd (hvalid.mpr ⟨h1, h2⟩) hv, fun _ => by omega⟩

/-- One tick keeps a sounding pad sounding precisely when it keeps the trigger behind the clock. -/
theorem sounding_tick_iff (st : PadRun) (i : Tick) (h : st.Sounding) :
    (st.tick i).Sounding ↔ st.KeepsTrigger i := by
  obtain ⟨hplay, hpos⟩ := (sounding_iff st).mp h
  have hstart : (st.tick i).pad.clip.startSample = st.pad.clip.startSample := by
    obtain ⟨s, hs⟩ := st.pad.clip.pollVoice_fields (i.landing st.transport) i.globalLoop
    change (st.pad.clip.pollVoice _ _).1.startSample = _
    rw [hs]
  have hstate := st.pad.looped.poll_state (i.landing st.transport) i.globalLoop
  rw [sounding_iff, hstart, ← le_landing_iff st i hpos]
  constructor
  · exact fun hk => hk.2
  · exact fun hk => ⟨hstate.mpr ⟨hplay, hk⟩, hk⟩

/-- From a trigger at any transport position, a looped pad keeps playing and reading frames of its
source all along a run precisely when no wrap of the run lands before the trigger. -/
theorem looped_pad_keeps_playing_iff (p : LoopedPad) (t : TransportPosition) (ticks : List Tick) :
    Always tick Sounding ⟨t, p.triggeredAt t.sampleCount⟩ ticks ↔
      Along tick KeepsTrigger ⟨t, p.triggeredAt t.sampleCount⟩ ticks :=
  always_iff_along sounding_tick_iff (sounding_triggered p t)

/-- A pad looped over the whole of its thousand frames, triggered at 500 inside the region
`[0, 1000)`, is stopped by the first wrap. -/
theorem wrap_before_trigger_stops_pad :
    ¬ ∀ (p : LoopedPad) (t : TransportPosition) (ticks : List Tick),
      Always tick Sounding ⟨t, p.triggeredAt t.sampleCount⟩ ticks := by
  intro h
  have hs := (h ⟨⟨.stopped, 0, true, 0, 1000, 1000⟩, rfl, by decide⟩
    ⟨44100, 120, 500, .playing, true, 0, 1000⟩ [⟨600, true, 0, 1000, some (0, 1000)⟩]).final
  exact absurd hs.1 (by decide)

end PadRun

/-! ## The pads of a matrix -/

structure Session where
  transport : TransportPosition
  slots : TrackMatrix

namespace Session

def tick (st : Session) (i : Tick) : Session :=
  ⟨i.moved st.transport,
    (st.slots.pollFinishedVoices (i.landing st.transport) i.globalLoop).1⟩

/-- A looped pad in a slot of the matrix runs as it does alone. -/
theorem slot_runs_alone (t : Fin 16) (s : Fin 32) (ticks : List Tick) (st : Session) (run : PadRun)
    (hclock : st.transport = run.transport) (hslot : st.slots.slots t s = some run.pad.clip) :
    (ticks.foldl tick st).transport = (ticks.foldl PadRun.tick run).transport ∧
      (ticks.foldl tick st).slots.slots t s = some (ticks.foldl PadRun.tick run).pad.clip := by
  induction ticks generalizing st run with
  | nil => exact ⟨hclock, hslot⟩
  | cons i is ih =>
    apply ih
    · simp only [tick, PadRun.tick, hclock]
    · simp only [tick, PadRun.tick, TrackMatrix.pollFinishedVoices_slot, hslot, hclock]
      rfl

end Session

end HikaruOpenLive.Sequencer
