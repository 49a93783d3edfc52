import HikaruOpenLive.Engine.ClipRender

/-! # The drum voices

A drum voice plays a sample through an envelope, independently of the transport. A voice that is not
active adds nothing and does not change, so that the skip at the start of a block is no different
from running its loop (`processFrame_inactive`).
-/
set_option autoImplicit false

namespace HikaruOpenLive.Engine

open Foundations.BlockSplit

inductive DmsEnvStage where
  | attack
  | decay
  | sustain
  | release
  | free
deriving DecidableEq, Repr

structure DmsVoice where
  active : Bool
  samples : List ℚ
  channels : ℕ
  sampleLen : ℕ
  playPos : ℚ
  playSpeed : ℚ
  gain : ℚ
  pan : ℚ
  velocity : ℚ
  padIdx : ℕ
  trackIdx : ℕ
  envStage : DmsEnvStage
  envLevel : ℚ
  attackRate : ℚ
  decayRate : ℚ
  sustainLevel : ℚ
  releaseRate : ℚ
  age : ℕ
deriving DecidableEq, Repr

namespace DmsVoice

def new : DmsVoice :=
  { active := false, samples := [], channels := 0, sampleLen := 0, playPos := 0, playSpeed := 1,
    gain := 1, pan := 0, velocity := 1, padIdx := 0, trackIdx := 0, envStage := .free, envLevel := 0,
    attackRate := 0, decayRate := 0, sustainLevel := 1, releaseRate := 0, age := 0 }

/-- The envelope's output and whether its stage is done, with the voice after it. -/
def advanceEnvelope (v : DmsVoice) (sr : ℚ) : (ℚ × Bool) × DmsVoice :=
  match v.envStage with
  | .attack =>
    if v.attackRate ≤ 0 then ((1, true), v)
    else
      let level := v.envLevel + v.attackRate / sr
      (if 1 ≤ level then (1, true) else (level, false), { v with envLevel := level })
  | .decay =>
    if v.decayRate ≤ 0 then ((v.sustainLevel, true), v)
    else
      let level := v.envLevel - v.decayRate / sr
      (if level ≤ v.sustainLevel then (v.sustainLevel, true) else (level, false),
        { v with envLevel := level })
  | .sustain => ((v.sustainLevel, false), v)
  | .release =>
    if v.releaseRate ≤ 0 then ((0, true), v)
    else
      let level := v.envLevel - v.releaseRate / sr
      (if level ≤ 0 then (0, true) else (max level 0, false), { v with envLevel := level })
  | .free => ((0, true), v)

def freed (v : DmsVoice) : DmsVoice :=
  { v with active := false, envStage := .free }

/-- The stage that follows a done one; a done release ends the voice. -/
def nextStage (v : DmsVoice) (stageDone : Bool) : DmsVoice :=
  if stageDone then
    match v.envStage with
    | .attack => { v with envStage := .decay, envLevel := 1 }
    | .decay => { v with envStage := .sustain, envLevel := v.sustainLevel }
    | .release => v.freed
    | _ => v
  else v

def readFrame (v : DmsVoice) (envOut : ℚ) : Frame × DmsVoice :=
  let idx := ⌊v.playPos⌋₊
  if v.sampleLen ≤ idx then ((0, 0), v.freed)
  else
    let ch := max v.channels 1
    let rawIdx := idx * ch
    let l := v.samples.getD rawIdx 0
    let r := if 1 < ch ∧ rawIdx + 1 < v.samples.length then v.samples.getD (rawIdx + 1) 0 else l
    let moved := { v with playPos := v.playPos + v.playSpeed }
    if (v.sampleLen : ℚ) ≤ moved.playPos then ((0, 0), moved.freed)
    else
      let amp := envOut * v.gain * v.velocity
      let panL := if v.pan ≤ 0 then 1 else 1 - v.pan
      let panR := if 0 ≤ v.pan then 1 else 1 + v.pan
      ((l * amp * panL, r * amp * panR), moved)

def processFrame (v : DmsVoice) (sr : ℚ) : Frame × DmsVoice :=
  if !v.active || decide (v.envStage = .free) then ((0, 0), v)
  else
    let env := v.advanceEnvelope sr
    let staged := env.2.nextStage env.1.2
    if env.1.2 && decide (v.envStage = .release) then ((0, 0), staged)
    else staged.readFrame env.1.1

def step (sr : ℚ) (v : DmsVoice) : Option (Frame × DmsVoice) :=
  some (v.processFrame sr)

/-- The block a voice adds at the gains of its track, and the voice after it. On a track silent on
both sides the voice is only advanced. -/
def render (v : DmsVoice) (sr gl gr : ℚ) (n : ℕ) : List Frame × DmsVoice :=
  if !v.active then (silence n, v)
  else
    let out := emit (step sr) (0, 0) n v
    if gl = 0 ∧ gr = 0 then (silence n, out.2.1)
    else (out.1.map fun f => (f.1 * gl, f.2 * gr), out.2.1)

def trackSlot (v : DmsVoice) : Fin 16 :=
  ⟨min v.trackIdx 15, by omega⟩

theorem processFrame_inactive {v : DmsVoice} (h : v.active = false) (sr : ℚ) :
    v.processFrame sr = ((0, 0), v) := by
  simp [processFrame, h]

theorem render_eq (v : DmsVoice) (sr gl gr : ℚ) (n : ℕ) :
    v.render sr gl gr n =
      ((emit (step sr) (0, 0) n v).1.map fun f => (f.1 * gl, f.2 * gr),
        (emit (step sr) (0, 0) n v).2.1) := by
  have hzero : ∀ fs : List Frame, gl = 0 ∧ gr = 0 →
      fs.map (fun f => (f.1 * gl, f.2 * gr)) = silence fs.length := by
    intro fs hg
    simp [silence, hg.1, hg.2, List.map_const']
  unfold render
  by_cases ha : v.active = true
  · simp only [ha, Bool.not_true, Bool.false_eq_true, if_false]
    by_cases hg : gl = 0 ∧ gr = 0
    · rw [if_pos hg, hzero _ hg, emit_length]
    · rw [if_neg hg]
  · have hi : v.active = false := by simpa using ha
    have hstep : step sr v = some ((0, 0), v) := by
      rw [step, processFrame_inactive hi]
    rw [emit_const _ _ hstep]
    simp [hi, silence]

theorem render_length (v : DmsVoice) (sr gl gr : ℚ) (n : ℕ) :
    (v.render sr gl gr n).1.length = n := by
  rw [render_eq]
  simp [emit_length]

theorem render_split (v : DmsVoice) (sr gl gr : ℚ) (m : ℕ) {n : ℕ} (hn : 0 < n) :
    v.render sr gl gr (m + n) =
      ((v.render sr gl gr m).1 ++ ((v.render sr gl gr m).2.render sr gl gr n).1,
        ((v.render sr gl gr m).2.render sr gl gr n).2) := by
  simp only [render_eq, emit_add _ _ m hn, List.map_append]

theorem readFrame_trackIdx (v : DmsVoice) (envOut : ℚ) :
    (v.readFrame envOut).2.trackIdx = v.trackIdx := by
  unfold readFrame
  by_cases hidx : v.sampleLen ≤ ⌊v.playPos⌋₊
  · rw [if_pos hidx]
    rfl
  · rw [if_neg hidx]
    by_cases hpos : (v.sampleLen : ℚ) ≤ v.playPos + v.playSpeed
    · simp only [if_pos hpos]
      rfl
    · simp only [if_neg hpos]

theorem advanceEnvelope_trackIdx (v : DmsVoice) (sr : ℚ) :
    (v.advanceEnvelope sr).2.trackIdx = v.trackIdx := by
  unfold advanceEnvelope
  cases v.envStage with
  | attack => simp only; split <;> rfl
  | decay => simp only; split <;> rfl
  | sustain => rfl
  | release => simp only; split <;> rfl
  | free => rfl

theorem nextStage_trackIdx (v : DmsVoice) (done : Bool) :
    (v.nextStage done).trackIdx = v.trackIdx := by
  unfold nextStage
  cases done with
  | false => rfl
  | true =>
    cases v.envStage with
    | attack => rfl
    | decay => rfl
    | sustain => rfl
    | release => rfl
    | free => rfl

theorem processFrame_trackIdx (v : DmsVoice) (sr : ℚ) :
    (v.processFrame sr).2.trackIdx = v.trackIdx := by
  simp only [processFrame]
  split_ifs
  · rfl
  · rw [nextStage_trackIdx, advanceEnvelope_trackIdx]
  · rw [readFrame_trackIdx, nextStage_trackIdx, advanceEnvelope_trackIdx]

theorem render_trackSlot (v : DmsVoice) (sr gl gr : ℚ) (n : ℕ) :
    (v.render sr gl gr n).2.trackSlot = v.trackSlot := by
  have hloop : ∀ (n : ℕ) (v : DmsVoice), (emit (step sr) (0, 0) n v).2.1.trackIdx = v.trackIdx := by
    intro n
    induction n with
    | zero => intro v; rfl
    | succ n ih =>
      intro v
      rw [emit_succ _ _ (show step sr v = some ((v.processFrame sr).1, (v.processFrame sr).2) from rfl)]
      exact (ih _).trans (v.processFrame_trackIdx sr)
  rw [render_eq]
  simp only [trackSlot, hloop n v]

end DmsVoice

end HikaruOpenLive.Engine
