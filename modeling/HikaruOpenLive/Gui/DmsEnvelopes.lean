import HikaruOpenLive.Engine.DmsFrames
import HikaruOpenLive.Gui.DmsTracks

/-! # How long a drum envelope lasts

The command thread turns the times of a note into the share of the way that one frame goes, and the voice
divides what it is given by the sample rate once more, as if it were the share of a second. A stage of `t`
frames takes `t * sr` of them (`timed_iff`).
-/
set_option autoImplicit false

namespace HikaruOpenLive.Gui

open Engine

namespace DmsEnvelopes

/-- The frames of a time. -/
def framesOf (sr ms : ℚ) : ℚ :=
  ms * (1 / 1000) * sr

/-- The voice after some frames. -/
def after (sr : ℚ) (n : ℕ) (v : DmsVoice) : DmsVoice :=
  (fun v => (v.processFrame sr).2)^[n] v

/-- The sample does not end before that many frames. -/
def Lasts (v : DmsVoice) (n : ℕ) : Prop :=
  0 < v.sampleLen ∧ ∀ i ≤ n, v.playPos + i * v.playSpeed < v.sampleLen

/-- The voice of a note with these times. -/
def Triggered (sr attackMs decayMs sustain releaseMs : ℚ) (v : DmsVoice) : Prop :=
  ∃ note src key age born, note.adsr = adsrParams sr attackMs decayMs sustain releaseMs ∧
    v = (PoolVoice.start note src key age born).voice

/-- As far as their samples last, the voices of a note leave the attack at level 1, reach the sustain and get
free after a release within a frame of the times that were set. -/
def Timed (sr attackMs decayMs sustain releaseMs : ℚ) : Prop :=
  ∀ v, Triggered sr attackMs decayMs sustain releaseMs v →
    ∃ attack decay : ℕ, |attack - framesOf sr attackMs| ≤ 1 ∧ |decay - framesOf sr decayMs| ≤ 1 ∧
      (∀ n, Lasts v n → (after sr n v).envStage =
        if n < attack then .attack else if n < attack + decay then .decay else .sustain) ∧
      (Lasts v attack → (after sr attack v).envLevel = 1) ∧
      ∀ held, attack + decay ≤ held → ∃ release : ℕ, |release - framesOf sr releaseMs| ≤ 1 ∧
        ∀ n, Lasts v (held + n) →
          (after sr n (DmsVoicePool.releaseVoice v.padIdx (after sr held v))).envStage =
            if n < release then .release else .free

/-- A time whose frames, multiplied by the sample rate, are as many up to one. -/
def InTime (sr ms : ℚ) : Prop :=
  ⌈framesOf sr ms⌉ - 2 < framesOf sr ms * sr ∧ framesOf sr ms * sr ≤ ⌊framesOf sr ms⌋ + 1

/-! ## Frames of a stage -/

variable {sr : ℚ} {v : DmsVoice}

theorem after_add (sr : ℚ) (m n : ℕ) (v : DmsVoice) : after sr (m + n) v = after sr n (after sr m v) := by
  unfold after
  rw [Nat.add_comm, Function.iterate_add_apply]

theorem after_one (sr : ℚ) (v : DmsVoice) : after sr 1 v = (v.processFrame sr).2 := rfl

theorem Lasts.mono {m n : ℕ} (h : Lasts v n) (hmn : m ≤ n) : Lasts v m :=
  ⟨h.1, fun i hi => h.2 i (hi.trans hmn)⟩

/-- The voice with its envelope at a stage and a level, some frames further on. -/
def placed (v : DmsVoice) (n : ℕ) (stage : DmsEnvStage) (level : ℚ) : DmsVoice :=
  { v with playPos := v.playPos + n * v.playSpeed, envStage := stage, envLevel := level }

/-- A frame that the sample lasts reads it and goes on. -/
theorem readFrame_of_lasts {n : ℕ} (h : Lasts v (n + 1)) (stage : DmsEnvStage) (level out : ℚ) :
    ((placed v n stage level).readFrame out).2 = placed v (n + 1) stage level := by
  have hnow : v.playPos + n * v.playSpeed < v.sampleLen := h.2 n (Nat.le_succ n)
  have hnext : v.playPos + n * v.playSpeed + v.playSpeed < v.sampleLen := by
    have := h.2 (n + 1) le_rfl
    push_cast at this
    linarith
  have hidx : ⌊v.playPos + n * v.playSpeed⌋₊ < v.sampleLen := by
    rcases le_or_gt 0 (v.playPos + n * v.playSpeed) with hpos | hneg
    · exact (Nat.floor_lt hpos).mpr hnow
    · rw [Nat.floor_of_nonpos hneg.le]
      exact h.1
  have hpos : v.playPos + (n + 1 : ℕ) * v.playSpeed = v.playPos + n * v.playSpeed + v.playSpeed := by
    push_cast
    ring
  simp only [DmsVoice.readFrame, placed, Nat.not_le.mpr hidx, not_le.mpr hnext, if_false, hpos]

/-- A frame that does not end a release. -/
theorem processFrame_placed {n : ℕ} {stage stage' : DmsEnvStage} {level level' : ℚ}
    (hactive : v.active = true) (hstage : stage ≠ .free) (hl : Lasts v (n + 1))
    (hgoes : ¬ (((placed v n stage level).advanceEnvelope sr).1.2 = true ∧ stage = .release))
    (hstaged : (placed v n stage level).staged sr = placed v n stage' level') :
    ((placed v n stage level).processFrame sr).2 = placed v (n + 1) stage' level' := by
  obtain ⟨hidle, _⟩ | ⟨_, hends, _⟩ | ⟨_, _, _, hout⟩ := (placed v n stage level).processFrame_cases sr
  · rcases hidle with hoff | hfree
    · exact absurd (hactive.symm.trans hoff) (by decide)
    · exact absurd hfree hstage
  · exact absurd hends hgoes
  · rw [hout, hstaged]
    exact readFrame_of_lasts hl stage' level' _

/-- A stage that goes on for some frames, by the levels it goes through. -/
theorem after_ramp {stage : DmsEnvStage} (level : ℕ → ℚ) {n : ℕ} (hactive : v.active = true)
    (hstage : stage ≠ .free) (hstart : placed v 0 stage (level 0) = v) (hl : Lasts v n)
    (hramp : ∀ i < n, ((placed v i stage (level i)).advanceEnvelope sr).1.2 = false ∧
      ((placed v i stage (level i)).advanceEnvelope sr).2 = placed v i stage (level (i + 1))) :
    after sr n v = placed v n stage (level n) := by
  induction n with
  | zero => exact hstart.symm
  | succ n ih =>
    obtain ⟨hnot, hnext⟩ := hramp n (Nat.lt_succ_self n)
    rw [after_add, ih (hl.mono (Nat.le_succ n)) fun i hi => hramp i (hi.trans (Nat.lt_succ_self n)),
      after_one]
    refine processFrame_placed hactive hstage hl (fun hends => ?_) ?_
    · exact absurd (hnot.symm.trans hends.1) Bool.false_ne_true
    · unfold DmsVoice.staged
      rw [hnot, hnext]
      rfl

theorem advance_attack (hrate : 0 < v.attackRate) (i : ℕ) :
    (placed v i .attack (i * (v.attackRate / sr))).advanceEnvelope sr =
      (if 1 ≤ (i + 1 : ℕ) * (v.attackRate / sr) then (1, true)
        else ((i + 1 : ℕ) * (v.attackRate / sr), false),
        placed v i .attack ((i + 1 : ℕ) * (v.attackRate / sr))) := by
  have hlevel : i * (v.attackRate / sr) + v.attackRate / sr = (i + 1 : ℕ) * (v.attackRate / sr) := by
    push_cast
    ring
  simp only [DmsVoice.advanceEnvelope, placed, if_neg (not_le.mpr hrate), hlevel]

theorem advance_decay (hrate : 0 < v.decayRate) (i : ℕ) :
    (placed v i .decay (1 - i * (v.decayRate / sr))).advanceEnvelope sr =
      (if 1 - (i + 1 : ℕ) * (v.decayRate / sr) ≤ v.sustainLevel then (v.sustainLevel, true)
        else (1 - (i + 1 : ℕ) * (v.decayRate / sr), false),
        placed v i .decay (1 - (i + 1 : ℕ) * (v.decayRate / sr))) := by
  have hlevel : 1 - i * (v.decayRate / sr) - v.decayRate / sr = 1 - (i + 1 : ℕ) * (v.decayRate / sr) := by
    push_cast
    ring
  simp only [DmsVoice.advanceEnvelope, placed, if_neg (not_le.mpr hrate), hlevel]

theorem advance_release (hrate : 0 < v.releaseRate) (level : ℚ) (i : ℕ) :
    (placed v i .release (level - i * (v.releaseRate / sr))).advanceEnvelope sr =
      (if level - (i + 1 : ℕ) * (v.releaseRate / sr) ≤ 0 then (0, true)
        else (max (level - (i + 1 : ℕ) * (v.releaseRate / sr)) 0, false),
        placed v i .release (level - (i + 1 : ℕ) * (v.releaseRate / sr))) := by
  have hlevel : level - i * (v.releaseRate / sr) - v.releaseRate / sr =
      level - (i + 1 : ℕ) * (v.releaseRate / sr) := by
    push_cast
    ring
  simp only [DmsVoice.advanceEnvelope, placed, if_neg (not_le.mpr hrate), hlevel]

/-! ## The stages of a voice -/

theorem placed_zero (v : DmsVoice) : placed v 0 v.envStage v.envLevel = v := by
  simp only [placed, Nat.cast_zero, zero_mul, add_zero]

theorem placed_placed (v : DmsVoice) (m n : ℕ) (stage stage' : DmsEnvStage) (level level' : ℚ) :
    placed (placed v m stage level) n stage' level' = placed v (m + n) stage' level' := by
  have hpos : v.playPos + m * v.playSpeed + n * v.playSpeed = v.playPos + (m + n : ℕ) * v.playSpeed := by
    push_cast
    ring
  simp only [placed, hpos]

theorem lasts_placed {m n : ℕ} {stage : DmsEnvStage} {level : ℚ} (h : Lasts v (m + n)) :
    Lasts (placed v m stage level) n := by
  refine ⟨h.1, fun i hi => ?_⟩
  have hlast := h.2 (m + i) (by omega)
  have hpos : v.playPos + m * v.playSpeed + i * v.playSpeed = v.playPos + (m + i : ℕ) * v.playSpeed := by
    push_cast
    ring
  exact hpos.trans_lt hlast

/-- A stage that goes the way `l` by `inc` a frame takes `⌈l / inc⌉₊` frames. -/
theorem lt_ceil_div_iff {l inc : ℚ} (hinc : 0 < inc) (n : ℕ) : n < ⌈l / inc⌉₊ ↔ n * inc < l := by
  rw [Nat.lt_ceil, lt_div_iff₀ hinc]

theorem exists_ceil_div_eq {l inc : ℚ} (hl : 0 < l) (hinc : 0 < inc) : ∃ m, ⌈l / inc⌉₊ = m + 1 :=
  Nat.exists_eq_add_one.mpr (Nat.ceil_pos.mpr (div_pos hl hinc))

theorem le_of_ceil_div_eq {l inc : ℚ} (hinc : 0 < inc) {m : ℕ} (hm : ⌈l / inc⌉₊ = m + 1) :
    l ≤ (m + 1 : ℕ) * inc :=
  not_lt.mp fun hlt => absurd ((lt_ceil_div_iff hinc (m + 1)).mpr hlt) (by omega)

/-- A stage in its frames before the last, when it goes on as long as its way is not done. -/
theorem after_stage {stage : DmsEnvStage} (level : ℕ → ℚ) {l inc : ℚ} (hinc : 0 < inc)
    (hactive : v.active = true) (hstage : stage ≠ .free) (hstart : placed v 0 stage (level 0) = v)
    (hgoes : ∀ i : ℕ, (i + 1 : ℕ) * inc < l →
      ((placed v i stage (level i)).advanceEnvelope sr).1.2 = false ∧
        ((placed v i stage (level i)).advanceEnvelope sr).2 = placed v i stage (level (i + 1)))
    {n : ℕ} (hn : n < ⌈l / inc⌉₊) (hl : Lasts v n) : after sr n v = placed v n stage (level n) :=
  after_ramp level hactive hstage hstart hl fun i hi =>
    hgoes i ((lt_ceil_div_iff hinc (i + 1)).mp (by omega))

theorem after_attack (hsr : 0 < sr) (hrate : 0 < v.attackRate) (hactive : v.active = true)
    (hstage : v.envStage = .attack) (hlevel : v.envLevel = 0) :
    (∀ n < ⌈1 / (v.attackRate / sr)⌉₊, Lasts v n →
      after sr n v = placed v n .attack (n * (v.attackRate / sr))) ∧
    (Lasts v ⌈1 / (v.attackRate / sr)⌉₊ →
      after sr ⌈1 / (v.attackRate / sr)⌉₊ v = placed v ⌈1 / (v.attackRate / sr)⌉₊ .decay 1) := by
  have hinc : 0 < v.attackRate / sr := div_pos hrate hsr
  have hstart : placed v 0 .attack ((0 : ℕ) * (v.attackRate / sr)) = v := by
    rw [Nat.cast_zero, zero_mul, ← hstage, ← hlevel]
    exact placed_zero v
  have hbefore (n : ℕ) (hn : n < ⌈1 / (v.attackRate / sr)⌉₊) (hl : Lasts v n) :
      after sr n v = placed v n .attack (n * (v.attackRate / sr)) := by
    refine after_stage (fun i => i * (v.attackRate / sr)) hinc hactive (by decide) hstart
      (fun i hway => ?_) hn hl
    rw [advance_attack hrate, if_neg (not_le.mpr hway)]
    exact ⟨rfl, rfl⟩
  refine ⟨hbefore, fun hl => ?_⟩
  obtain ⟨m, hm⟩ := exists_ceil_div_eq one_pos hinc
  have hdone := le_of_ceil_div_eq hinc hm
  rw [hm] at hl hbefore ⊢
  rw [after_add, hbefore m (Nat.lt_succ_self m) (hl.mono (Nat.le_succ m)), after_one]
  refine processFrame_placed hactive (by decide) hl (by simp) ?_
  unfold DmsVoice.staged
  rw [advance_attack hrate, if_pos hdone]
  rfl

theorem after_decay (hsr : 0 < sr) (hrate : 0 < v.decayRate) (hsustain : v.sustainLevel < 1)
    (hactive : v.active = true) (hstage : v.envStage = .decay) (hlevel : v.envLevel = 1) :
    (∀ n < ⌈(1 - v.sustainLevel) / (v.decayRate / sr)⌉₊, Lasts v n →
      after sr n v = placed v n .decay (1 - n * (v.decayRate / sr))) ∧
    (Lasts v ⌈(1 - v.sustainLevel) / (v.decayRate / sr)⌉₊ →
      after sr ⌈(1 - v.sustainLevel) / (v.decayRate / sr)⌉₊ v =
        placed v ⌈(1 - v.sustainLevel) / (v.decayRate / sr)⌉₊ .sustain v.sustainLevel) := by
  have hinc : 0 < v.decayRate / sr := div_pos hrate hsr
  have hstart : placed v 0 .decay (1 - (0 : ℕ) * (v.decayRate / sr)) = v := by
    rw [Nat.cast_zero, zero_mul, sub_zero, ← hstage, ← hlevel]
    exact placed_zero v
  have hbefore (n : ℕ) (hn : n < ⌈(1 - v.sustainLevel) / (v.decayRate / sr)⌉₊) (hl : Lasts v n) :
      after sr n v = placed v n .decay (1 - n * (v.decayRate / sr)) := by
    refine after_stage (fun i => 1 - i * (v.decayRate / sr)) hinc hactive (by decide) hstart
      (fun i hway => ?_) hn hl
    have hnot : ¬ 1 - (i + 1 : ℕ) * (v.decayRate / sr) ≤ v.sustainLevel := not_le.mpr (by linarith)
    rw [advance_decay hrate, if_neg hnot]
    exact ⟨rfl, rfl⟩
  refine ⟨hbefore, fun hl => ?_⟩
  obtain ⟨m, hm⟩ := exists_ceil_div_eq (sub_pos.mpr hsustain) hinc
  have hway := le_of_ceil_div_eq hinc hm
  have hdone : 1 - (m + 1 : ℕ) * (v.decayRate / sr) ≤ v.sustainLevel := by linarith
  rw [hm] at hl hbefore ⊢
  rw [after_add, hbefore m (Nat.lt_succ_self m) (hl.mono (Nat.le_succ m)), after_one]
  refine processFrame_placed hactive (by decide) hl (by simp) ?_
  unfold DmsVoice.staged
  rw [advance_decay hrate, if_pos hdone]
  rfl

theorem after_sustain (hactive : v.active = true) (hstage : v.envStage = .sustain) {n : ℕ}
    (hl : Lasts v n) : after sr n v = placed v n .sustain v.envLevel := by
  have hstart : placed v 0 .sustain v.envLevel = v := by
    rw [← hstage]
    exact placed_zero v
  exact after_ramp (fun _ => v.envLevel) hactive (by decide) hstart hl fun i _ => ⟨rfl, rfl⟩

theorem after_free (hstage : v.envStage = .free) (n : ℕ) : after sr n v = v := by
  have hidle : (v.processFrame sr).2 = v := by
    unfold DmsVoice.processFrame
    rw [if_pos (by simp [hstage])]
  exact Function.iterate_fixed hidle n

theorem after_release (hsr : 0 < sr) (hrate : 0 < v.releaseRate) (hactive : v.active = true)
    (hstage : v.envStage = .release) (hlevel : 0 < v.envLevel) {n : ℕ} (hl : Lasts v n) :
    (after sr n v).envStage =
      if n < ⌈v.envLevel / (v.releaseRate / sr)⌉₊ then .release else .free := by
  have hinc : 0 < v.releaseRate / sr := div_pos hrate hsr
  have hstart : placed v 0 .release (v.envLevel - (0 : ℕ) * (v.releaseRate / sr)) = v := by
    rw [Nat.cast_zero, zero_mul, sub_zero, ← hstage]
    exact placed_zero v
  have hbefore (n : ℕ) (hn : n < ⌈v.envLevel / (v.releaseRate / sr)⌉₊) (hl : Lasts v n) :
      after sr n v = placed v n .release (v.envLevel - n * (v.releaseRate / sr)) := by
    refine after_stage (fun i => v.envLevel - i * (v.releaseRate / sr)) hinc hactive (by decide) hstart
      (fun i hway => ?_) hn hl
    have hnot : ¬ v.envLevel - (i + 1 : ℕ) * (v.releaseRate / sr) ≤ 0 := not_le.mpr (by linarith)
    rw [advance_release hrate, if_neg hnot]
    exact ⟨rfl, rfl⟩
  by_cases hn : n < ⌈v.envLevel / (v.releaseRate / sr)⌉₊
  · rw [if_pos hn, hbefore n hn hl]
    rfl
  · rw [if_neg hn]
    obtain ⟨m, hm⟩ := exists_ceil_div_eq hlevel hinc
    have hway := le_of_ceil_div_eq hinc hm
    have hdone : v.envLevel - (m + 1 : ℕ) * (v.releaseRate / sr) ≤ 0 := by linarith
    obtain ⟨rest, rfl⟩ := Nat.exists_eq_add_of_le (show m + 1 ≤ n by omega)
    -- the frame that ends the release frees the voice, whatever the sample
    have hfreed : (after sr (m + 1) v).envStage = .free := by
      rw [after_add, hbefore m (by omega) (hl.mono (by omega)), after_one]
      have hadvance : (placed v m .release (v.envLevel - m * (v.releaseRate / sr))).advanceEnvelope sr =
          ((0, true), placed v m .release (v.envLevel - (m + 1 : ℕ) * (v.releaseRate / sr))) := by
        rw [advance_release hrate, if_pos hdone]
      obtain ⟨hidle, _⟩ | ⟨_, _, hout⟩ | ⟨_, _, hgoes, _⟩ :=
        (placed v m .release (v.envLevel - m * (v.releaseRate / sr))).processFrame_cases sr
      · rcases hidle with hoff | hfree
        · exact absurd (hactive.symm.trans hoff) (by decide)
        · exact nomatch hfree
      · rw [hout]
        unfold DmsVoice.staged
        rw [hadvance]
        rfl
      · refine absurd ⟨?_, rfl⟩ hgoes
        rw [hadvance]
    rw [after_add, after_free hfreed, hfreed]

/-! ## The times of a note -/

/-- How many frames a stage of a set time takes. -/
def stageFrames (sr ms : ℚ) : ℕ :=
  ⌈framesOf sr ms * sr⌉₊

theorem framesOf_pos {ms : ℚ} (hsr : 0 < sr) (hms : 0 < ms) : 0 < framesOf sr ms :=
  mul_pos (mul_pos hms (by norm_num)) hsr

theorem stageFrames_pos {ms : ℚ} (hsr : 0 < sr) (hms : 0 < ms) : 0 < stageFrames sr ms :=
  Nat.ceil_pos.mpr (mul_pos (framesOf_pos hsr hms) hsr)

/-- A way gone in a set time, at the rate of the command thread and the step of the voice. -/
theorem way_div_step {way ms : ℚ} (hsr : 0 < sr) (hms : 0 < ms) (hway : 0 < way) :
    way / (way / framesOf sr ms / sr) = framesOf sr ms * sr := by
  have hframes := framesOf_pos hsr hms
  field_simp

/-- The count of a stage is within a frame of its time precisely for the times `InTime` tells. -/
theorem stageFrames_near_iff {ms : ℚ} (hsr : 0 < sr) (hms : 0 < ms) :
    |stageFrames sr ms - framesOf sr ms| ≤ 1 ↔ InTime sr ms := by
  have hpos : 0 < framesOf sr ms * sr := mul_pos (framesOf_pos hsr hms) hsr
  have hcast : (stageFrames sr ms : ℚ) = (⌈framesOf sr ms * sr⌉ : ℤ) := by
    rw [stageFrames, ← Int.ceil_toNat]
    exact_mod_cast Int.toNat_of_nonneg (Int.ceil_nonneg hpos.le)
  have hhigh : (⌈framesOf sr ms * sr⌉ : ℚ) ≤ framesOf sr ms + 1 ↔
      framesOf sr ms * sr ≤ ⌊framesOf sr ms⌋ + 1 := by
    rw [← Int.le_floor, Int.floor_add_one, Int.ceil_le]
    push_cast
    rfl
  have hlow : framesOf sr ms - 1 ≤ (⌈framesOf sr ms * sr⌉ : ℚ) ↔
      (⌈framesOf sr ms⌉ : ℚ) - 2 < framesOf sr ms * sr := by
    rw [← Int.ceil_le, Int.ceil_sub_one, ← Int.sub_one_lt_iff, Int.lt_ceil]
    push_cast
    rw [sub_sub]
    norm_num
  rw [abs_le, hcast, InTime, ← hhigh, ← hlow]
  constructor
  · rintro ⟨h1, h2⟩
    exact ⟨by linarith, by linarith⟩
  · rintro ⟨h1, h2⟩
    exact ⟨by linarith, by linarith⟩

section Note

variable {attackMs decayMs sustain releaseMs : ℚ} (hsr : 0 < sr) (hattack : 0 < attackMs)
  (hdecay : 0 < decayMs) (hs0 : 0 < sustain) (hs1 : sustain < 1) (hrelease : 0 < releaseMs)

/-- What the voice of a note starts with. -/
structure Fresh (sr attackMs decayMs sustain releaseMs : ℚ) (v : DmsVoice) : Prop where
  active : v.active = true
  stage : v.envStage = .attack
  level : v.envLevel = 0
  attackRate : v.attackRate = 1 / framesOf sr attackMs
  decayRate : v.decayRate = (1 - sustain) / framesOf sr decayMs
  sustainLevel : v.sustainLevel = sustain
  releaseRate : v.releaseRate = sustain / framesOf sr releaseMs

include hattack hdecay hs0 hs1 hrelease in
theorem Triggered.fresh (h : Triggered sr attackMs decayMs sustain releaseMs v) :
    Fresh sr attackMs decayMs sustain releaseMs v := by
  obtain ⟨note, src, key, age, born, hadsr, rfl⟩ := h
  refine ⟨rfl, rfl, rfl, ?_, ?_, ?_, ?_⟩
  · show note.adsr.attackRate = _
    rw [hadsr]
    exact if_pos hattack
  · show note.adsr.decayRate = _
    rw [hadsr]
    exact if_pos hdecay
  · show note.adsr.sustainLevel = _
    rw [hadsr]
    show max 0 (min sustain 1) = sustain
    rw [min_eq_left hs1.le, max_eq_right hs0.le]
  · show note.adsr.releaseRate = _
    rw [hadsr]
    exact if_pos hrelease

include hsr hattack in
theorem Fresh.attack (h : Fresh sr attackMs decayMs sustain releaseMs v) :
    (∀ n < stageFrames sr attackMs, Lasts v n → (after sr n v).envStage = .attack) ∧
      (Lasts v (stageFrames sr attackMs) →
        after sr (stageFrames sr attackMs) v = placed v (stageFrames sr attackMs) .decay 1) := by
  have hrate : 0 < v.attackRate := by
    rw [h.attackRate]
    exact div_pos one_pos (framesOf_pos hsr hattack)
  have hcount : ⌈1 / (v.attackRate / sr)⌉₊ = stageFrames sr attackMs := by
    rw [h.attackRate, way_div_step hsr hattack one_pos]
    rfl
  obtain ⟨hbefore, hend⟩ := after_attack hsr hrate h.active h.stage h.level
  rw [hcount] at hbefore hend
  refine ⟨fun n hn hl => ?_, hend⟩
  rw [hbefore n hn hl]
  rfl

include hsr hattack hdecay hs1 in
theorem Fresh.decay (h : Fresh sr attackMs decayMs sustain releaseMs v) :
    (∀ n < stageFrames sr decayMs, Lasts v (stageFrames sr attackMs + n) →
      (after sr (stageFrames sr attackMs + n) v).envStage = .decay) ∧
    (Lasts v (stageFrames sr attackMs + stageFrames sr decayMs) →
      after sr (stageFrames sr attackMs + stageFrames sr decayMs) v =
        placed v (stageFrames sr attackMs + stageFrames sr decayMs) .sustain sustain) := by
  have hrate : 0 < v.decayRate := by
    rw [h.decayRate]
    exact div_pos (sub_pos.mpr hs1) (framesOf_pos hsr hdecay)
  have hcount : ⌈(1 - v.sustainLevel) / (v.decayRate / sr)⌉₊ = stageFrames sr decayMs := by
    rw [h.decayRate, h.sustainLevel, way_div_step hsr hdecay (sub_pos.mpr hs1)]
    rfl
  have hlevel : v.sustainLevel < 1 := by
    rw [h.sustainLevel]
    exact hs1
  obtain ⟨hbefore, hend⟩ := after_decay (v := placed v (stageFrames sr attackMs) .decay 1) hsr hrate
    hlevel h.active rfl rfl
  have hstart (hl : Lasts v (stageFrames sr attackMs)) := (h.attack hsr hattack).2 hl
  constructor
  · intro n hn hl
    rw [after_add, hstart (hl.mono (Nat.le_add_right _ _)), hbefore n (hcount ▸ hn) (lasts_placed hl)]
    rfl
  · intro hl
    have hafter := hend (hcount ▸ lasts_placed hl)
    rw [show ⌈(1 - (placed v (stageFrames sr attackMs) .decay 1).sustainLevel) /
      ((placed v (stageFrames sr attackMs) .decay 1).decayRate / sr)⌉₊ = stageFrames sr decayMs from hcount,
      show (placed v (stageFrames sr attackMs) .decay 1).sustainLevel = sustain from h.sustainLevel] at hafter
    rw [after_add, hstart (hl.mono (Nat.le_add_right _ _)), hafter, placed_placed]

include hsr hattack hdecay hs1 in
theorem Fresh.held (h : Fresh sr attackMs decayMs sustain releaseMs v) {held : ℕ}
    (hheld : stageFrames sr attackMs + stageFrames sr decayMs ≤ held) (hl : Lasts v held) :
    after sr held v = placed v held .sustain sustain := by
  obtain ⟨rest, rfl⟩ := Nat.exists_eq_add_of_le hheld
  have hsustain : Lasts (placed v (stageFrames sr attackMs + stageFrames sr decayMs) .sustain sustain) rest :=
    lasts_placed hl
  rw [after_add, (h.decay hsr hattack hdecay hs1).2 (hl.mono (Nat.le_add_right _ _)),
    after_sustain (v := placed v _ .sustain sustain) h.active rfl hsustain]
  exact placed_placed v _ _ _ _ _ _

include hsr hattack hdecay hs0 hs1 hrelease in
theorem Fresh.release (h : Fresh sr attackMs decayMs sustain releaseMs v) {held n : ℕ}
    (hheld : stageFrames sr attackMs + stageFrames sr decayMs ≤ held) (hl : Lasts v (held + n)) :
    (after sr n (DmsVoicePool.releaseVoice v.padIdx (after sr held v))).envStage =
      if n < stageFrames sr releaseMs then .release else .free := by
  have hrate : 0 < v.releaseRate := by
    rw [h.releaseRate]
    exact div_pos hs0 (framesOf_pos hsr hrelease)
  have hcount : ⌈sustain / (v.releaseRate / sr)⌉₊ = stageFrames sr releaseMs := by
    rw [h.releaseRate, way_div_step hsr hrelease hs0]
    rfl
  have hreleased : DmsVoicePool.releaseVoice v.padIdx (placed v held .sustain sustain) =
      placed v held .release sustain :=
    if_pos ⟨h.active, rfl, show DmsEnvStage.sustain ≠ .release by decide⟩
  rw [h.held hsr hattack hdecay hs1 hheld (hl.mono (Nat.le_add_right _ _)), hreleased,
    after_release (v := placed v held .release sustain) hsr hrate h.active rfl hs0 (lasts_placed hl)]
  show (if n < ⌈sustain / (v.releaseRate / sr)⌉₊ then _ else _) = _
  rw [hcount]

include hsr hattack hdecay hs1 in
/-- The stage of a voice that is not released, frame by frame. -/
theorem Fresh.stage_after (h : Fresh sr attackMs decayMs sustain releaseMs v) {n : ℕ} (hl : Lasts v n) :
    (after sr n v).envStage =
      if n < stageFrames sr attackMs then .attack
      else if n < stageFrames sr attackMs + stageFrames sr decayMs then .decay else .sustain := by
  split
  case isTrue hn => exact (h.attack hsr hattack).1 n hn hl
  case isFalse hn =>
    obtain ⟨rest, rfl⟩ := Nat.exists_eq_add_of_le (Nat.not_lt.mp hn)
    split
    case isTrue hrest => exact (h.decay hsr hattack hdecay hs1).1 rest (by omega) hl
    case isFalse hrest =>
      rw [h.held hsr hattack hdecay hs1 (Nat.not_lt.mp hrest) hl]
      rfl

include hsr hattack hdecay hs0 hs1 hrelease in
theorem timed_of_inTime (h : InTime sr attackMs ∧ InTime sr decayMs ∧ InTime sr releaseMs) :
    Timed sr attackMs decayMs sustain releaseMs := by
  intro v hv
  have hfresh := hv.fresh hattack hdecay hs0 hs1 hrelease
  refine ⟨_, _, (stageFrames_near_iff hsr hattack).mpr h.1, (stageFrames_near_iff hsr hdecay).mpr h.2.1,
    fun n hl => hfresh.stage_after hsr hattack hdecay hs1 hl, fun hl => ?_, fun held hheld => ?_⟩
  · rw [(hfresh.attack hsr hattack).2 hl]
    rfl
  · exact ⟨_, (stageFrames_near_iff hsr hrelease).mpr h.2.2,
      fun n hl => hfresh.release hsr hattack hdecay hs0 hs1 hrelease hheld hl⟩

/-- A note of a sample with `n` frames more than one, at its own speed. -/
def longVoice (adsr : DmsAdsrParams) (n : ℕ) : DmsVoice :=
  (PoolVoice.start
    { trackIdx := 0, padIdx := 0, gain := 1, pan := 0, velocity := 1, playSpeed := 1, adsr := adsr }
    { slot := 0, sample := { buffer := 0, samples := List.replicate (n + 1) 0 }, channels := 1 } 0 0 0).voice

theorem lasts_longVoice (adsr : DmsAdsrParams) (n : ℕ) : Lasts (longVoice adsr n) n := by
  have hlen : (longVoice adsr n).sampleLen = n + 1 := by
    show (List.replicate (n + 1) (0 : ℚ)).length / max 1 1 = n + 1
    rw [List.length_replicate, max_self, Nat.div_one]
  refine ⟨by omega, fun i hi => ?_⟩
  rw [hlen]
  show (0 : ℚ) + i * 1 < (n + 1 : ℕ)
  rw [zero_add, mul_one]
  exact_mod_cast Nat.lt_succ_of_le hi

include hsr hattack hdecay hs0 hs1 hrelease in
/-- The counts that `Timed` speaks of are those of the voice: a sample that is long enough shows them. -/
theorem inTime_of_timed (h : Timed sr attackMs decayMs sustain releaseMs) :
    InTime sr attackMs ∧ InTime sr decayMs ∧ InTime sr releaseMs := by
  set a := stageFrames sr attackMs with ha
  set d := stageFrames sr decayMs with hd
  set r := stageFrames sr releaseMs with hr
  have hapos : 0 < a := stageFrames_pos hsr hattack
  have hdpos : 0 < d := stageFrames_pos hsr hdecay
  have hrpos : 0 < r := stageFrames_pos hsr hrelease
  set v := longVoice (adsrParams sr attackMs decayMs sustain releaseMs) (a + d + r)
  have hlasts : Lasts v (a + d + r) := lasts_longVoice _ _
  have hv : Triggered sr attackMs decayMs sustain releaseMs v := ⟨_, _, _, _, _, rfl, rfl⟩
  have hfresh := hv.fresh hattack hdecay hs0 hs1 hrelease
  obtain ⟨attack, decay, hnearAttack, hnearDecay, hstage, _, hreleased⟩ := h v hv
  have hcompare (n : ℕ) (hn : n ≤ a + d + r) :
      (if n < attack then DmsEnvStage.attack else if n < attack + decay then .decay else .sustain) =
        if n < a then .attack else if n < a + d then .decay else .sustain :=
    (hstage n (hlasts.mono hn)).symm.trans (hfresh.stage_after hsr hattack hdecay hs1 (hlasts.mono hn))
  have hattackEq : attack = a := by
    have hbefore := hcompare (a - 1) (by omega)
    have hat := hcompare a (by omega)
    rw [if_pos (show a - 1 < a by omega)] at hbefore
    rw [if_neg (Nat.lt_irrefl a), if_pos (show a < a + d by omega)] at hat
    split_ifs at hbefore hat
    omega
  have hdecayEq : decay = d := by
    have hbefore := hcompare (a + d - 1) (by omega)
    have hat := hcompare (a + d) (by omega)
    rw [if_neg (show ¬ a + d - 1 < a by omega), if_pos (show a + d - 1 < a + d by omega)] at hbefore
    rw [if_neg (show ¬ a + d < a by omega), if_neg (Nat.lt_irrefl (a + d))] at hat
    split_ifs at hbefore hat
    omega
  obtain ⟨release, hnearRelease, hends⟩ := hreleased (a + d) (by omega)
  have hreleaseEq : release = r := by
    have hrun (n : ℕ) (hn : n ≤ r) :
        (if n < release then DmsEnvStage.release else .free) = if n < r then .release else .free :=
      (hends n (hlasts.mono (by omega))).symm.trans
        (hfresh.release hsr hattack hdecay hs0 hs1 hrelease le_rfl (hlasts.mono (by omega)))
    have hbefore := hrun (r - 1) (by omega)
    have hat := hrun r le_rfl
    rw [if_pos (show r - 1 < r by omega)] at hbefore
    rw [if_neg (Nat.lt_irrefl r)] at hat
    split_ifs at hbefore hat
    omega
  rw [hattackEq, ha] at hnearAttack
  rw [hdecayEq, hd] at hnearDecay
  rw [hreleaseEq, hr] at hnearRelease
  exact ⟨(stageFrames_near_iff hsr hattack).mp hnearAttack, (stageFrames_near_iff hsr hdecay).mp hnearDecay,
    (stageFrames_near_iff hsr hrelease).mp hnearRelease⟩

end Note

/-- The envelope lasts the times of the note precisely where the second division by the sample rate makes no
difference of a frame. -/
theorem timed_iff {attackMs decayMs sustain releaseMs : ℚ} (hsr : 0 < sr) (hattack : 0 < attackMs)
    (hdecay : 0 < decayMs) (hs0 : 0 < sustain) (hs1 : sustain < 1) (hrelease : 0 < releaseMs) :
    Timed sr attackMs decayMs sustain releaseMs ↔
      InTime sr attackMs ∧ InTime sr decayMs ∧ InTime sr releaseMs :=
  ⟨inTime_of_timed hsr hattack hdecay hs0 hs1 hrelease, timed_of_inTime hsr hattack hdecay hs0 hs1 hrelease⟩

theorem timed_iff_tenths : Timed 48000 10 10 (1 / 2) 10 ↔ InTime 48000 10 ∧ InTime 48000 10 ∧ InTime 48000 10 :=
  timed_iff (by norm_num) (by norm_num) (by norm_num) (by norm_num) (by norm_num) (by norm_num)

/-- Ten milliseconds at 48 kHz are 480 frames, and take 23 million. -/
theorem ten_ms_not_timed :
    ¬ ∀ sr attackMs decayMs sustain releaseMs : ℚ, 0 < sr → 0 < attackMs → 0 < decayMs → 0 < sustain →
      sustain < 1 → 0 < releaseMs → Timed sr attackMs decayMs sustain releaseMs := by
  intro h
  have htimed := h 48000 10 10 (1 / 2) 10 (by norm_num) (by norm_num) (by norm_num) (by norm_num)
    (by norm_num) (by norm_num)
  have hin := (inTime_of_timed (by norm_num) (by norm_num) (by norm_num) (by norm_num) (by norm_num)
    (by norm_num) htimed).1.2
  norm_num [framesOf] at hin

/-- At the rates of audio devices these are the times of at most `1 / sr` frames. -/
theorem inTime_iff_of_two_lt {ms : ℚ} (hsr : 2 < sr) (hms : 0 < ms) :
    InTime sr ms ↔ framesOf sr ms * sr ≤ 1 := by
  have hpos : 0 < framesOf sr ms := framesOf_pos (by linarith) hms
  have hfloor := Int.floor_le (framesOf sr ms)
  constructor
  · rintro ⟨_, hhigh⟩
    have hlt : framesOf sr ms < 1 := by
      by_contra hge
      nlinarith [not_lt.mp hge]
    have hzero : ⌊framesOf sr ms⌋ = 0 := Int.floor_eq_zero_iff.mpr ⟨hpos.le, hlt⟩
    rw [hzero] at hhigh
    simpa using hhigh
  · intro hle
    have hlt : framesOf sr ms < 1 := by nlinarith
    have hzero : ⌊framesOf sr ms⌋ = 0 := Int.floor_eq_zero_iff.mpr ⟨hpos.le, hlt⟩
    have hceil : ⌈framesOf sr ms⌉ ≤ 1 := Int.ceil_le.mpr (by exact_mod_cast hlt.le)
    have hceil' : (⌈framesOf sr ms⌉ : ℚ) ≤ 1 := by exact_mod_cast hceil
    refine ⟨by nlinarith, ?_⟩
    rw [hzero]
    simpa using hle

end DmsEnvelopes

end HikaruOpenLive.Gui
