import HikaruOpenLive.Engine.DmsVoiceRuns

/-! # The frames a drum voice puts out

A voice that is left alone reads its sample frame by frame, one for each frame of a block. It moves on
before it puts out what it has read, and is freed when there is nothing to move on to: the last frame of
the sample is read and dropped (`plays_through_iff`).
-/
set_option autoImplicit false

namespace HikaruOpenLive.Engine

open Foundations.BlockSplit

namespace DmsVoice

/-- A frame of the sample at the voice's gains and at a level of its envelope. -/
def scaledFrame (v : DmsVoice) (frame : ℕ) (envOut : ℚ) : Frame :=
  let ch := max v.channels 1
  let l := v.samples.getD (frame * ch) 0
  let r := if 1 < ch ∧ frame * ch + 1 < v.samples.length then v.samples.getD (frame * ch + 1) 0 else l
  let amp := envOut * v.gain * v.velocity
  (l * amp * (if v.pan ≤ 0 then 1 else 1 - v.pan), r * amp * (if 0 ≤ v.pan then 1 else 1 + v.pan))

/-- The frame of its sample that a voice puts out next, if any. -/
def frameOut (v : DmsVoice) (sr : ℚ) : Option ℕ :=
  if v.active = true ∧ v.envStage ≠ .free ∧ (v.processFrame sr).2.active = true then some ⌊v.playPos⌋₊
  else none

def framesOut (sr : ℚ) : ℕ → DmsVoice → List ℕ
  | 0, _ => []
  | n + 1, v => (v.frameOut sr).toList ++ framesOut sr n (v.processFrame sr).2

/-- The frames put out over blocks of given sizes and track gains, and the voice after them. -/
def blocksOut (sr : ℚ) : List (ℕ × ℚ × ℚ) → DmsVoice → List ℕ × DmsVoice
  | [], v => ([], v)
  | (n, gl, gr) :: blocks, v =>
    let rest := blocksOut sr blocks (v.render sr gl gr n).2
    (framesOut sr n v ++ rest.1, rest.2)

def framesIn (blocks : List (ℕ × ℚ × ℚ)) : ℕ := (blocks.map Prod.fst).sum

/-- Whatever the blocks, a voice puts out the frames of its sample in order, all of them by the time it is
free, and it gets free. -/
def PlaysThrough (v : DmsVoice) (sr : ℚ) : Prop :=
  ∀ blocks,
    (blocksOut sr blocks v).1 <+: List.range v.sampleLen ∧
      ((blocksOut sr blocks v).2.active = false → (blocksOut sr blocks v).1 = List.range v.sampleLen) ∧
      (v.sampleLen < framesIn blocks → (blocksOut sr blocks v).2.active = false)

/-! ## One frame -/

theorem readFrame_fst (v : DmsVoice) (envOut : ℚ) (hactive : v.active = true) :
    (v.readFrame envOut).1 =
      if (v.readFrame envOut).2.active = true then v.scaledFrame ⌊v.playPos⌋₊ envOut else (0, 0) := by
  unfold readFrame scaledFrame
  by_cases hidx : v.sampleLen ≤ ⌊v.playPos⌋₊
  · simp [hidx, freed]
  · by_cases hend : (v.sampleLen : ℚ) ≤ v.playPos + v.playSpeed
    · simp [hidx, hend, freed]
    · simp [hidx, hend, hactive]

/-- Only the envelope of the voice, and whether it is active, may have changed. -/
def Restaged (v v' : DmsVoice) : Prop :=
  ∃ active stage level, v' = { v with active := active, envStage := stage, envLevel := level }

theorem restaged_nextStage (v : DmsVoice) (stageDone : Bool) : v.Restaged (v.nextStage stageDone) := by
  unfold nextStage
  cases stageDone with
  | false => exact ⟨_, _, _, rfl⟩
  | true => cases v.envStage <;> exact ⟨_, _, _, rfl⟩

theorem advanceEnvelope_same (v : DmsVoice) (sr : ℚ) :
    ∃ level, (v.advanceEnvelope sr).2 = { v with envLevel := level } := by
  unfold advanceEnvelope
  split
  · split <;> exact ⟨_, rfl⟩
  · split <;> exact ⟨_, rfl⟩
  · exact ⟨_, rfl⟩
  · split <;> exact ⟨_, rfl⟩
  · exact ⟨_, rfl⟩

theorem restaged_staged (v : DmsVoice) (sr : ℚ) : v.Restaged (v.staged sr) := by
  obtain ⟨level, henvelope⟩ := v.advanceEnvelope_same sr
  unfold staged
  rw [henvelope]
  obtain ⟨active, stage, level', hstaged⟩ :=
    restaged_nextStage { v with envLevel := level } (v.advanceEnvelope sr).1.2
  exact ⟨active, stage, level', hstaged⟩

/-- A voice in the attack, the decay or the sustain. -/
def Held (v : DmsVoice) : Prop := v.active = true ∧ v.envStage ≠ .release ∧ v.envStage ≠ .free

/-- From these stages the envelope leads to no other. -/
theorem Held.nextStage {v : DmsVoice} (h : v.Held) (stageDone : Bool) : (v.nextStage stageDone).Held := by
  obtain ⟨hactive, hrelease, hfree⟩ := h
  unfold DmsVoice.nextStage
  split
  · split
    · exact ⟨hactive, show DmsEnvStage.decay ≠ .release by decide, show DmsEnvStage.decay ≠ .free by decide⟩
    · exact ⟨hactive, show DmsEnvStage.sustain ≠ .release by decide, show DmsEnvStage.sustain ≠ .free by decide⟩
    · rename_i hstage
      exact absurd hstage hrelease
    · exact ⟨hactive, hrelease, hfree⟩
  · exact ⟨hactive, hrelease, hfree⟩

theorem Held.staged {v : DmsVoice} (h : v.Held) (sr : ℚ) : (v.staged sr).Held := by
  obtain ⟨level, henvelope⟩ := v.advanceEnvelope_same sr
  have hlevel : ({ v with envLevel := level } : DmsVoice).Held := h
  unfold DmsVoice.staged
  rw [henvelope]
  exact hlevel.nextStage _

theorem processFrame_held {v : DmsVoice} (h : v.Held) (sr : ℚ) :
    v.processFrame sr = (v.staged sr).readFrame (v.advanceEnvelope sr).1.1 := by
  obtain ⟨hactive, hrelease, hfree⟩ := h
  obtain ⟨hidle, _⟩ | ⟨_, hends, _⟩ | ⟨_, _, _, hout⟩ := v.processFrame_cases sr
  · obtain hoff | hstage := hidle
    · rw [hactive] at hoff
      exact absurd hoff (by decide)
    · exact absurd hstage hfree
  · exact absurd hends.2 hrelease
  · exact hout

theorem active_nextStage {v : DmsVoice} (hactive : v.active = true) {stageDone : Bool}
    (hgoes : ¬ (stageDone = true ∧ v.envStage = .release)) : (v.nextStage stageDone).active = true := by
  unfold nextStage
  split
  case isTrue hdone =>
    split
    · exact hactive
    · exact hactive
    · rename_i hstage
      exact absurd ⟨hdone, hstage⟩ hgoes
    · exact hactive
  case isFalse => exact hactive

/-- What a step of a voice puts out is the frame it is said to put out, at the level of the envelope, or
silence. -/
theorem processFrame_fst (v : DmsVoice) (sr : ℚ) :
    (v.processFrame sr).1 =
      ((v.frameOut sr).map fun frame => v.scaledFrame frame (v.advanceEnvelope sr).1.1).getD (0, 0) := by
  have henvStage := v.advanceEnvelope_envStage sr
  unfold frameOut
  obtain ⟨hidle, hout⟩ | ⟨_, hends, hout⟩ | ⟨hactive, hfree, hgoes, hout⟩ := v.processFrame_cases sr
  · have hnone : ¬ (v.active = true ∧ v.envStage ≠ .free ∧ v.active = true) := by
      rintro ⟨hactive, hfree, _⟩
      obtain hoff | hstage := hidle
      · rw [hactive] at hoff
        exact absurd hoff (by decide)
      · exact hfree hstage
    rw [hout, if_neg hnone]
    rfl
  · -- the release is done, and the voice with it
    have hfreed : (v.staged sr).active = false := by
      rw [staged, hends.1, nextStage_of_release (henvStage.trans hends.2)]
      rfl
    rw [hout, hfreed]
    simp
  · have hstaged : (v.staged sr).active = true := by
      obtain ⟨level, henvelope⟩ := v.advanceEnvelope_same sr
      refine active_nextStage (by rw [henvelope]; exact hactive) ?_
      rwa [henvStage]
    obtain ⟨active, stage, level', hsame⟩ := v.restaged_staged sr
    have hpos : (v.staged sr).playPos = v.playPos := by rw [hsame]
    have hscaled : ∀ frame envOut, (v.staged sr).scaledFrame frame envOut = v.scaledFrame frame envOut := by
      intro frame envOut
      rw [hsame]
      rfl
    rw [hout, readFrame_fst _ _ hstaged, hpos, hscaled]
    by_cases hlasts : ((v.staged sr).readFrame (v.advanceEnvelope sr).1.1).2.active = true
    · simp [hactive, hfree, hlasts]
    · simp [hlasts]

/-! ## A voice that is left alone -/

/-- The voice stands at a frame of its sample and moves by one. -/
structure Standing (v : DmsVoice) (frame : ℕ) : Prop where
  held : v.Held
  pos : v.playPos = frame
  speed : v.playSpeed = 1

/-- The state of a voice of `n` frames after `k` steps: it stands at frame `k` until there are none left. -/
def AtStep (n k : ℕ) (v : DmsVoice) : Prop :=
  v.sampleLen = n ∧ if k < n ∨ k = 0 then v.Standing k else v.active = false

/-- With a frame behind the one it reads, the voice moves on to it. -/
theorem readFrame_moves {w : DmsVoice} {k : ℕ} (hpos : w.playPos = k) (hspeed : w.playSpeed = 1)
    (hin : k + 1 < w.sampleLen) (envOut : ℚ) :
    (w.readFrame envOut).2 = { w with playPos := (k + 1 : ℕ) } := by
  have hnext : w.playPos + w.playSpeed = (k + 1 : ℕ) := by rw [hpos, hspeed]; push_cast; rfl
  have hidx : ¬ w.sampleLen ≤ ⌊w.playPos⌋₊ := by
    rw [hpos, Nat.floor_natCast]
    omega
  have hend : ¬ (w.sampleLen : ℚ) ≤ w.playPos + w.playSpeed := by
    rw [hnext, Nat.cast_le]
    omega
  unfold readFrame
  rw [if_neg hidx]
  dsimp only
  rw [if_neg hend, hnext]

/-- With none behind it, the voice ends. -/
theorem readFrame_ends {w : DmsVoice} {k : ℕ} (hpos : w.playPos = k) (hspeed : w.playSpeed = 1)
    (hlast : w.sampleLen ≤ k + 1) (envOut : ℚ) :
    (w.readFrame envOut).2.sampleLen = w.sampleLen ∧ (w.readFrame envOut).2.active = false := by
  have hend : (w.sampleLen : ℚ) ≤ w.playPos + w.playSpeed := by
    rw [hpos, hspeed]
    exact_mod_cast hlast
  unfold readFrame
  by_cases hidx : w.sampleLen ≤ ⌊w.playPos⌋₊
  · rw [if_pos hidx]
    exact ⟨rfl, rfl⟩
  · rw [if_neg hidx]
    dsimp only
    rw [if_pos hend]
    exact ⟨rfl, rfl⟩

theorem Standing.step {v : DmsVoice} {k : ℕ} (h : v.Standing k) (sr : ℚ) :
    (v.processFrame sr).2.sampleLen = v.sampleLen ∧
      if k + 1 < v.sampleLen then (v.processFrame sr).2.Standing (k + 1)
      else (v.processFrame sr).2.active = false := by
  have hheld := h.held.staged sr
  obtain ⟨_, _, _, hsame⟩ := v.restaged_staged sr
  have hlen : (v.staged sr).sampleLen = v.sampleLen := by rw [hsame]
  have hpos : (v.staged sr).playPos = k := by rw [hsame]; exact h.pos
  have hspeed : (v.staged sr).playSpeed = 1 := by rw [hsame]; exact h.speed
  rw [processFrame_held h.held, ← hlen]
  by_cases hin : k + 1 < (v.staged sr).sampleLen
  · rw [if_pos hin, readFrame_moves hpos hspeed hin]
    exact ⟨rfl, hheld, rfl, hspeed⟩
  · rw [if_neg hin]
    exact readFrame_ends hpos hspeed (not_lt.mp hin) _

theorem AtStep.step {v : DmsVoice} {n k : ℕ} (h : v.AtStep n k) (sr : ℚ) :
    (v.processFrame sr).2.AtStep n (k + 1) ∧ v.frameOut sr = if k + 1 < n then some k else none := by
  obtain ⟨rfl, h⟩ := h
  by_cases hleft : k < v.sampleLen ∨ k = 0
  · rw [if_pos hleft] at h
    obtain ⟨hlen, hnext⟩ := h.step sr
    obtain ⟨hactive, _, hfree⟩ := h.held
    have hfloor : ⌊v.playPos⌋₊ = k := by rw [h.pos, Nat.floor_natCast]
    unfold AtStep frameOut
    by_cases hin : k + 1 < v.sampleLen
    · rw [if_pos hin] at hnext
      rw [if_pos (Or.inl hin), if_pos ⟨hactive, hfree, hnext.held.1⟩, if_pos hin, hfloor]
      exact ⟨⟨hlen, hnext⟩, rfl⟩
    · rw [if_neg hin] at hnext
      rw [if_neg (by omega), if_neg (fun h => by rw [hnext] at h; exact Bool.false_ne_true h.2.2), if_neg hin]
      exact ⟨⟨hlen, hnext⟩, rfl⟩
  · rw [if_neg hleft] at h
    have hsame : (v.processFrame sr).2 = v := by rw [processFrame_inactive h]
    unfold AtStep frameOut
    rw [hsame, if_neg (by omega), if_neg (fun hon => by rw [h] at hon; exact Bool.false_ne_true hon.1),
      if_neg (by omega)]
    exact ⟨⟨rfl, h⟩, rfl⟩

/-- So far `k` steps were made; these and the next `m` put out the frames in order, all but the last. -/
theorem AtStep.framesOut {v : DmsVoice} {n k : ℕ} (h : v.AtStep n k) (sr : ℚ) (m : ℕ) :
    List.range (min k (n - 1)) ++ DmsVoice.framesOut sr m v = List.range (min (k + m) (n - 1)) := by
  induction m generalizing k v with
  | zero => exact List.append_nil _
  | succ m ih =>
    obtain ⟨hnext, hout⟩ := h.step sr
    have hstep : List.range (min k (n - 1)) ++ (v.frameOut sr).toList = List.range (min (k + 1) (n - 1)) := by
      rw [hout]
      by_cases hin : k + 1 < n
      · rw [if_pos hin, min_eq_left (by omega), min_eq_left (by omega), List.range_succ]
        rfl
      · rw [if_neg hin, min_eq_right (by omega), min_eq_right (by omega)]
        exact List.append_nil _
    rw [DmsVoice.framesOut, ← List.append_assoc, hstep, ih hnext, Nat.add_right_comm, Nat.add_assoc]

theorem AtStep.render {v : DmsVoice} {n k : ℕ} (h : v.AtStep n k) (sr gl gr : ℚ) (m : ℕ) :
    (v.render sr gl gr m).2.AtStep n (k + m) := by
  rw [render_eq]
  simp only
  induction m generalizing k v with
  | zero => exact h
  | succ m ih =>
    have hstep : DmsVoice.step sr v = some ((v.processFrame sr).1, (v.processFrame sr).2) := rfl
    rw [emit_succ _ _ hstep, Nat.add_comm m, ← Nat.add_assoc]
    exact ih (h.step sr).1

theorem AtStep.blocksOut {v : DmsVoice} {n k : ℕ} (h : v.AtStep n k) (sr : ℚ) (blocks : List (ℕ × ℚ × ℚ)) :
    List.range (min k (n - 1)) ++ (DmsVoice.blocksOut sr blocks v).1 =
        List.range (min (k + framesIn blocks) (n - 1)) ∧
      (DmsVoice.blocksOut sr blocks v).2.AtStep n (k + framesIn blocks) := by
  induction blocks generalizing k v with
  | nil => exact ⟨List.append_nil _, h⟩
  | cons block blocks ih =>
    obtain ⟨m, gl, gr⟩ := block
    obtain ⟨hrest, hend⟩ := ih (h.render sr gl gr m)
    have hframes : framesIn ((m, gl, gr) :: blocks) = m + framesIn blocks := by
      unfold framesIn
      rw [List.map_cons, List.sum_cons]
    rw [hframes, ← Nat.add_assoc]
    refine ⟨?_, hend⟩
    rw [DmsVoice.blocksOut]
    dsimp only
    rw [← List.append_assoc, h.framesOut, hrest]

theorem atStep_start {note : DmsNote} (hspeed : note.playSpeed = 1) (src : DmsSource) (key age born : ℕ) :
    (PoolVoice.start note src key age born).voice.AtStep
      (src.sample.samples.length / max src.channels 1) 0 := by
  refine ⟨rfl, ?_⟩
  rw [if_pos (Or.inr rfl)]
  exact ⟨⟨rfl, show DmsEnvStage.attack ≠ .release by decide, show DmsEnvStage.attack ≠ .free by decide⟩,
    Nat.cast_zero.symm, hspeed⟩

/-- A voice that is left alone puts out, over any blocks, the frames of its sample in order but for the
last one. So it plays through an empty sample only. -/
theorem plays_through_iff (note : DmsNote) (src : DmsSource) (key age born : ℕ) (sr : ℚ)
    (hspeed : note.playSpeed = 1) :
    (∀ blocks, (blocksOut sr blocks (PoolVoice.start note src key age born).voice).1 =
        List.range (min (framesIn blocks) (src.sample.samples.length / max src.channels 1 - 1))) ∧
      ((PoolVoice.start note src key age born).voice.PlaysThrough sr ↔
        src.sample.samples.length / max src.channels 1 = 0) := by
  have hstart := atStep_start hspeed src key age born
  have hlen : (PoolVoice.start note src key age born).voice.sampleLen =
    src.sample.samples.length / max src.channels 1 := rfl
  unfold PlaysThrough
  rw [hlen]
  generalize (PoolVoice.start note src key age born).voice = v at hstart ⊢
  generalize src.sample.samples.length / max src.channels 1 = n at hstart ⊢
  have hout : ∀ blocks, (blocksOut sr blocks v).1 = List.range (min (framesIn blocks) (n - 1)) := by
    intro blocks
    simpa using (hstart.blocksOut sr blocks).1
  have hend : ∀ blocks, (blocksOut sr blocks v).2.AtStep n (framesIn blocks) := by
    intro blocks
    simpa using (hstart.blocksOut sr blocks).2
  refine ⟨hout, fun hall => ?_, fun hn blocks => ?_⟩
  · -- one block of all the frames leaves the voice free and the last frame out
    obtain ⟨-, hwhole, hfrees⟩ := hall [(n + 1, 1, 1)]
    have hframes : framesIn [(n + 1, (1 : ℚ), (1 : ℚ))] = n + 1 := rfl
    have hlast := hwhole (hfrees (by rw [hframes]; exact Nat.lt_succ_self n))
    rw [hout, hframes] at hlast
    have hcount := congrArg List.length hlast
    rw [List.length_range, List.length_range] at hcount
    omega
  · subst hn
    rw [hout, Nat.zero_sub, Nat.min_zero]
    refine ⟨List.prefix_refl _, fun _ => rfl, fun hmore => ?_⟩
    have hfree := (hend blocks).2
    rwa [if_neg (by omega)] at hfree

/-- A note at speed 1 for the second pad of the first track. -/
def tapNote : DmsNote :=
  { trackIdx := 0, padIdx := 1, gain := 1, pan := 0, velocity := 1, playSpeed := 1, adsr := ⟨0, 0, 1, 0⟩ }

/-- A mono sample of two frames. -/
def tapSource : DmsSource :=
  ⟨1, ⟨0, [1, 1]⟩, 1⟩

theorem plays_through_tap :
    tapNote.playSpeed = 1 ∧
      (∀ blocks, (blocksOut 48000 blocks (PoolVoice.start tapNote tapSource 1 1 1).voice).1 =
        List.range (min (framesIn blocks) 1)) ∧
      ((PoolVoice.start tapNote tapSource 1 1 1).voice.PlaysThrough 48000 ↔ 2 = 0) :=
  ⟨rfl, plays_through_iff tapNote tapSource 1 1 1 48000 rfl⟩

/-- Of two frames the first is put out, the voice is free after the second. -/
theorem not_plays_through :
    ¬ ∀ (note : DmsNote) (src : DmsSource) (key age born : ℕ) (sr : ℚ), note.playSpeed = 1 →
      (PoolVoice.start note src key age born).voice.PlaysThrough sr := by
  intro h
  have hwhole := (h tapNote tapSource 1 1 1 48000 rfl [(2, 1, 1)]).2.1 (by decide +kernel)
  exact absurd hwhole (by decide +kernel)

end DmsVoice

end HikaruOpenLive.Engine
