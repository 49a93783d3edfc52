import HikaruOpenLive.Engine.DmsPool
import HikaruOpenLive.Foundations.Runs

/-! # The drum voices over whole runs

A voice is active while its envelope is in a stage, and its level is then within the unit interval. A
voice that ends is left as it is, and the last step of its release may have taken the level below
zero: nothing reads it again.
-/
set_option autoImplicit false

namespace HikaruOpenLive.Engine

open Foundations.BlockSplit Foundations.Runs

namespace DmsVoice

/-- The voice with its envelope moved on. -/
def staged (v : DmsVoice) (sr : ℚ) : DmsVoice := (v.advanceEnvelope sr).2.nextStage (v.advanceEnvelope sr).1.2

/-- A step leaves a voice that is idle alone, ends one that is done with its release, and reads a frame
otherwise. -/
theorem processFrame_cases (v : DmsVoice) (sr : ℚ) :
    ((v.active = false ∨ v.envStage = .free) ∧ v.processFrame sr = ((0, 0), v)) ∨
      (v.active = true ∧ ((v.advanceEnvelope sr).1.2 = true ∧ v.envStage = .release) ∧
        v.processFrame sr = ((0, 0), v.staged sr)) ∨
      (v.active = true ∧ v.envStage ≠ .free ∧
        ¬ ((v.advanceEnvelope sr).1.2 = true ∧ v.envStage = .release) ∧
        v.processFrame sr = (v.staged sr).readFrame (v.advanceEnvelope sr).1.1) := by
  unfold processFrame staged
  by_cases hidle : v.active = false ∨ v.envStage = .free
  · refine Or.inl ⟨hidle, ?_⟩
    rw [if_pos (by simpa using hidle)]
  · obtain ⟨hactive, hfree⟩ := not_or.mp hidle
    rw [Bool.not_eq_false] at hactive
    rw [if_neg (by simpa using hidle)]
    dsimp only
    by_cases hends : (v.advanceEnvelope sr).1.2 = true ∧ v.envStage = .release
    · refine Or.inr (Or.inl ⟨hactive, hends, ?_⟩)
      rw [if_pos (by simpa using hends)]
    · refine Or.inr (Or.inr ⟨hactive, hfree, hends, ?_⟩)
      rw [if_neg (by simpa using hends)]

/-- A voice is active in every stage but `free`, and while it is, its envelope is within bounds. -/
structure Bounded (v : DmsVoice) : Prop where
  active_iff : v.active = true ↔ v.envStage ≠ .free
  level : v.active = true → 0 ≤ v.envLevel ∧ v.envLevel ≤ 1
  sustain : v.active = true → 0 ≤ v.sustainLevel ∧ v.sustainLevel ≤ 1

theorem bounded_new : new.Bounded :=
  ⟨by decide, fun h => Bool.noConfusion h, fun h => Bool.noConfusion h⟩

theorem bounded_freed (v : DmsVoice) : v.freed.Bounded :=
  ⟨by simp [freed], fun h => Bool.noConfusion h, fun h => Bool.noConfusion h⟩

theorem Bounded.relevel {v : DmsVoice} (hv : v.Bounded) (hactive : v.active = true)
    {stage : DmsEnvStage} (hstage : stage ≠ .free) {level : ℚ} (h0 : 0 ≤ level) (h1 : level ≤ 1) :
    ({ v with envStage := stage, envLevel := level } : DmsVoice).Bounded :=
  ⟨by simp [hactive, hstage], fun _ => ⟨h0, h1⟩, hv.sustain⟩

/-- The envelope of an active voice, one step on: either the voice is done with its release, or it is
within bounds again. -/
theorem Bounded.envelope {v : DmsVoice} (hv : v.Bounded) (hactive : v.active = true) {sr : ℚ}
    (hsr : 0 < sr) :
    ((v.advanceEnvelope sr).1.2 = true ∧ v.envStage = .release) ∨
      ((v.advanceEnvelope sr).2.nextStage (v.advanceEnvelope sr).1.2).Bounded := by
  obtain ⟨hlow, hhigh⟩ := hv.level hactive
  obtain ⟨hsus0, hsus1⟩ := hv.sustain hactive
  unfold advanceEnvelope
  cases hstage : v.envStage with
  | attack =>
    refine Or.inr ?_
    by_cases hrate : v.attackRate ≤ 0
    · simp only [if_pos hrate, nextStage, if_true, hstage]
      exact hv.relevel hactive (by decide) zero_le_one le_rfl
    · have hstep : 0 < v.attackRate / sr := div_pos (not_le.mp hrate) hsr
      simp only [if_neg hrate]
      by_cases hdone : 1 ≤ v.envLevel + v.attackRate / sr
      · simp only [if_pos hdone, nextStage, if_true]
        exact hv.relevel hactive (by decide) zero_le_one le_rfl
      · simp only [if_neg hdone, nextStage, Bool.false_eq_true, if_false]
        exact hv.relevel hactive (by decide) (add_nonneg hlow hstep.le) (not_le.mp hdone).le
  | decay =>
    refine Or.inr ?_
    by_cases hrate : v.decayRate ≤ 0
    · simp only [if_pos hrate, nextStage, if_true, hstage]
      exact hv.relevel hactive (by decide) hsus0 hsus1
    · have hstep : 0 < v.decayRate / sr := div_pos (not_le.mp hrate) hsr
      simp only [if_neg hrate]
      by_cases hdone : v.envLevel - v.decayRate / sr ≤ v.sustainLevel
      · simp only [if_pos hdone, nextStage, if_true]
        exact hv.relevel hactive (by decide) hsus0 hsus1
      · simp only [if_neg hdone, nextStage, Bool.false_eq_true, if_false]
        exact hv.relevel hactive (by decide) (hsus0.trans (not_le.mp hdone).le)
          ((sub_le_self _ hstep.le).trans hhigh)
  | sustain =>
    refine Or.inr ?_
    simp only [nextStage, Bool.false_eq_true, if_false]
    exact hv
  | release =>
    by_cases hrate : v.releaseRate ≤ 0
    · refine Or.inl ⟨?_, rfl⟩
      simp only [if_pos hrate]
    · have hstep : 0 < v.releaseRate / sr := div_pos (not_le.mp hrate) hsr
      simp only [if_neg hrate]
      by_cases hdone : v.envLevel - v.releaseRate / sr ≤ 0
      · refine Or.inl ⟨?_, trivial⟩
        simp only [if_pos hdone]
      · refine Or.inr ?_
        simp only [if_neg hdone, nextStage, Bool.false_eq_true, if_false]
        exact hv.relevel hactive (by decide) (not_le.mp hdone).le
          ((sub_le_self _ hstep.le).trans hhigh)
  | free => exact absurd hstage (hv.active_iff.mp hactive)

theorem Bounded.readFrame {v : DmsVoice} (hv : v.Bounded) (envOut : ℚ) :
    (v.readFrame envOut).2.Bounded := by
  unfold DmsVoice.readFrame
  by_cases hidx : v.sampleLen ≤ ⌊v.playPos⌋₊
  · rw [if_pos hidx]
    exact v.bounded_freed
  · rw [if_neg hidx]
    by_cases hpos : (v.sampleLen : ℚ) ≤ v.playPos + v.playSpeed
    · simp only [if_pos hpos]
      exact bounded_freed _
    · simp only [if_neg hpos]
      exact ⟨hv.active_iff, hv.level, hv.sustain⟩

theorem nextStage_of_release {v : DmsVoice} (h : v.envStage = .release) :
    v.nextStage true = v.freed := by
  simp only [nextStage, if_true, h]

theorem advanceEnvelope_envStage (v : DmsVoice) (sr : ℚ) :
    (v.advanceEnvelope sr).2.envStage = v.envStage := by
  unfold advanceEnvelope
  cases hstage : v.envStage with
  | attack =>
    simp only
    split
    · exact hstage
    · rfl
  | decay =>
    simp only
    split
    · exact hstage
    · rfl
  | sustain => exact hstage
  | release =>
    simp only
    split
    · exact hstage
    · rfl
  | free => exact hstage

theorem Bounded.processFrame {v : DmsVoice} (hv : v.Bounded) {sr : ℚ} (hsr : 0 < sr) :
    (v.processFrame sr).2.Bounded := by
  obtain ⟨_, hout⟩ | ⟨_, ⟨hdone, hrelease⟩, hout⟩ | ⟨hactive, _, hgoes, hout⟩ := v.processFrame_cases sr
  · rw [hout]
    exact hv
  · rw [hout, staged, hdone, nextStage_of_release ((v.advanceEnvelope_envStage sr).trans hrelease)]
    exact bounded_freed _
  · rw [hout]
    exact ((hv.envelope hactive hsr).resolve_left hgoes).readFrame _

/-- What the frames of a block keep of a voice, the block keeps. -/
theorem render_keeps {P : DmsVoice → Prop} {sr : ℚ}
    (h : ∀ v, P v → P (v.processFrame sr).2) {v : DmsVoice} (hv : P v) (gl gr : ℚ) (n : ℕ) :
    P (v.render sr gl gr n).2 := by
  rw [render_eq]
  simp only
  induction n generalizing v with
  | zero => exact hv
  | succ n ih =>
    have hstep : DmsVoice.step sr v = some ((v.processFrame sr).1, (v.processFrame sr).2) := rfl
    rw [emit_succ _ _ hstep]
    exact ih (h v hv)

/-- What happens to a voice after its start: it moves on, or it ends. -/
structure Advanced (v v' : DmsVoice) : Prop where
  same : v' =
    { v with
      active := v'.active, playPos := v'.playPos, envStage := v'.envStage, envLevel := v'.envLevel }
  active : v'.active = true → v.active = true

namespace Advanced

theorem refl (v : DmsVoice) : v.Advanced v :=
  ⟨rfl, id⟩

theorem trans {v v' v'' : DmsVoice} (h : v.Advanced v') (h' : v'.Advanced v'') : v.Advanced v'' := by
  refine ⟨?_, fun ha => h.active (h'.active ha)⟩
  rw [h'.same, h.same]

theorem freed (v : DmsVoice) : v.Advanced v.freed :=
  ⟨rfl, fun h => Bool.noConfusion h⟩

theorem padIdx {v v' : DmsVoice} (h : v.Advanced v') : v'.padIdx = v.padIdx := by
  rw [h.same]

theorem age {v v' : DmsVoice} (h : v.Advanced v') : v'.age = v.age := by
  rw [h.same]

theorem advanceEnvelope (v : DmsVoice) (sr : ℚ) : v.Advanced (v.advanceEnvelope sr).2 := by
  unfold DmsVoice.advanceEnvelope
  cases hstage : v.envStage with
  | attack =>
    simp only
    split
    · exact refl v
    · exact ⟨rfl, id⟩
  | decay =>
    simp only
    split
    · exact refl v
    · exact ⟨rfl, id⟩
  | sustain => exact refl v
  | release =>
    simp only
    split
    · exact refl v
    · exact ⟨rfl, id⟩
  | free => exact refl v

theorem nextStage (v : DmsVoice) (stageDone : Bool) : v.Advanced (v.nextStage stageDone) := by
  unfold DmsVoice.nextStage
  cases stageDone with
  | false => exact refl v
  | true =>
    cases hstage : v.envStage with
    | attack => exact ⟨rfl, id⟩
    | decay => exact ⟨rfl, id⟩
    | sustain => exact refl v
    | release => exact freed v
    | free => exact refl v

theorem readFrame (v : DmsVoice) (envOut : ℚ) : v.Advanced (v.readFrame envOut).2 := by
  unfold DmsVoice.readFrame
  by_cases hidx : v.sampleLen ≤ ⌊v.playPos⌋₊
  · rw [if_pos hidx]
    exact freed v
  · rw [if_neg hidx]
    by_cases hpos : (v.sampleLen : ℚ) ≤ v.playPos + v.playSpeed
    · simp only [if_pos hpos]
      exact ⟨rfl, fun h => Bool.noConfusion h⟩
    · simp only [if_neg hpos]
      exact ⟨rfl, id⟩

theorem processFrame (v : DmsVoice) (sr : ℚ) : v.Advanced (v.processFrame sr).2 := by
  have hstaged := (advanceEnvelope v sr).trans (nextStage _ (v.advanceEnvelope sr).1.2)
  obtain ⟨_, hout⟩ | ⟨_, _, hout⟩ | ⟨_, _, _, hout⟩ := v.processFrame_cases sr
  · rw [hout]
    exact refl v
  · rw [hout]
    exact hstaged
  · rw [hout]
    exact hstaged.trans (readFrame _ _)

end Advanced

/-- A change of one voice that keeps what it was started for and its bounds. -/
structure Continues (f : DmsVoice → DmsVoice) : Prop where
  advanced : ∀ v : DmsVoice, v.Advanced (f v)
  bounded : ∀ v : DmsVoice, v.Bounded → (f v).Bounded

namespace Continues

theorem id : Continues id :=
  ⟨Advanced.refl, fun _ h => h⟩

theorem comp {f g : DmsVoice → DmsVoice} (hg : Continues g) (hf : Continues f) :
    Continues (g ∘ f) :=
  ⟨fun v => (hf.advanced v).trans (hg.advanced (f v)), fun v h => hg.bounded _ (hf.bounded v h)⟩

theorem releaseVoice (key : ℕ) : Continues (DmsVoicePool.releaseVoice key) := by
  constructor
  · intro v
    unfold DmsVoicePool.releaseVoice
    split
    · exact ⟨rfl, fun h => h⟩
    · exact Advanced.refl v
  · intro v hv
    unfold DmsVoicePool.releaseVoice
    split
    case isTrue h => exact ⟨by simp [h.1], hv.level, hv.sustain⟩
    case isFalse => exact hv

theorem killVoice (key : ℕ) : Continues (DmsVoicePool.killVoice key) := by
  constructor
  · intro v
    unfold DmsVoicePool.killVoice
    split
    · exact Advanced.freed v
    · exact Advanced.refl v
  · intro v hv
    unfold DmsVoicePool.killVoice
    split
    · exact v.bounded_freed
    · exact hv

theorem foldl {f : ℕ → DmsVoice → DmsVoice} (hf : ∀ t, Continues (f t)) (ts : List ℕ) :
    Continues fun v => ts.foldl (fun v t => f t v) v := by
  induction ts with
  | nil => exact id
  | cons t ts ih => exact ih.comp (hf t)

end Continues

theorem advanced_render (mx : Mixer) (sr : ℚ) (n : ℕ) (v : DmsVoice) :
    v.Advanced (renderVoice mx sr n v).2 :=
  render_keeps (P := v.Advanced) (fun v' h => h.trans (Advanced.processFrame v' sr))
    (Advanced.refl v) _ _ n

theorem continues_render (mx : Mixer) {sr : ℚ} (hsr : 0 < sr) (n : ℕ) :
    Continues fun v => (renderVoice mx sr n v).2 :=
  ⟨advanced_render mx sr n,
    fun _ hv => render_keeps (P := Bounded) (fun _ h => h.processFrame hsr) hv _ _ n⟩

end DmsVoice

/-! ## The pool -/

namespace DmsVoicePool

theorem mapVoices_mapVoices (pool : DmsVoicePool) (f g : DmsVoice → DmsVoice) :
    (pool.mapVoices f).mapVoices g = pool.mapVoices (g ∘ f) := by
  simp only [mapVoices, List.map_map]
  rfl

/-- One pass after another over the voices is one pass. -/
theorem foldl_mapVoices (f : ℕ → DmsVoice → DmsVoice) (ts : List ℕ) (pool : DmsVoicePool) :
    ts.foldl (fun pool t => pool.mapVoices (f t)) pool =
      pool.mapVoices fun v => ts.foldl (fun v t => f t v) v := by
  induction ts generalizing pool with
  | nil => simp [mapVoices]
  | cons t ts ih =>
    rw [List.foldl_cons, ih, mapVoices_mapVoices]
    rfl

theorem mem_mapVoices {pool : DmsVoicePool} {f : DmsVoice → DmsVoice} {v : PoolVoice}
    (h : v ∈ (pool.mapVoices f).voices) :
    ∃ w ∈ pool.voices, v = { w with voice := f w.voice } := by
  obtain ⟨w, hw, rfl⟩ := List.mem_map.mp h
  exact ⟨w, hw, rfl⟩

/-- The voice a note takes is free and the first such, or none is free and it has the least stamp. -/
theorem trigger_spec {pool : DmsVoicePool} (hlen : pool.voices.length = maxDmsVoices)
    (note : DmsNote) (src : DmsSource) (key : ℕ) :
    ∃ i old, pool.voices[i]? = some old ∧
      (pool.trigger note src key).2 =
        { voices := pool.voices.set i (PoolVoice.start note src key
            ((pool.globalAge + 1) % 2 ^ 64) (pool.triggers + 1))
          globalAge := (pool.globalAge + 1) % 2 ^ 64
          triggers := pool.triggers + 1 } ∧
      ((old.voice.active = false ∧
          ∀ j < i, ∀ w, pool.voices[j]? = some w → w.voice.active = true) ∨
        (∀ w ∈ pool.voices, w.voice.active = true) ∧
          ∀ w ∈ pool.voices, old.voice.age ≤ w.voice.age) := by
  unfold trigger
  cases hfree : pool.free with
  | some i =>
    obtain ⟨hi, hinactive, hbefore⟩ := List.findIdx?_eq_some_iff_getElem.mp hfree
    refine ⟨i, pool.voices[i], List.getElem?_eq_getElem hi, rfl, Or.inl ⟨?_, ?_⟩⟩
    · simpa using hinactive
    · intro j hj w hw
      have hjlen : j < pool.voices.length := lt_trans hj hi
      rw [List.getElem?_eq_getElem hjlen] at hw
      rw [← Option.some.inj hw]
      simpa using hbefore j hj
  | none =>
    have hactive : ∀ w ∈ pool.voices, w.voice.active = true := by
      intro w hw
      simpa using List.findIdx?_eq_none_iff.mp hfree w hw
    cases holdest : pool.oldest with
    | none =>
      have hempty := List.argmin_eq_none.mp holdest
      rw [List.range_eq_nil, hlen] at hempty
      exact absurd hempty (by decide)
    | some i =>
      have hmem := List.argmin_mem holdest
      rw [List.mem_range] at hmem
      refine ⟨i, pool.voices[i], List.getElem?_eq_getElem hmem, rfl, Or.inr ⟨hactive, ?_⟩⟩
      intro w hw
      obtain ⟨j, hj, rfl⟩ := List.getElem_of_mem hw
      have hle := List.le_of_mem_argmin (List.mem_range.mpr hj) holdest
      simpa [ageAt, hmem, hj] using hle

end DmsVoicePool

/-! ## The sampler -/

/-- Parameters in the range the application sends, at a sample rate that is one. -/
def DmsOp.InRange : DmsOp → Prop
  | .trigger note => 0 ≤ note.adsr.sustainLevel ∧ note.adsr.sustainLevel ≤ 1
  | .process _ sr _ => 0 < sr
  | _ => True

namespace DmsSampler

open DmsVoice

theorem dmsPadKey_min (trackIdx padIdx : ℕ) :
    dmsPadKey (min trackIdx 15) padIdx = dmsPadKey trackIdx padIdx := by
  rw [dmsPadKey, dmsPadKey, min_assoc, min_self]

/-- A step moves every voice on, or it starts a note with a sample it found. -/
theorem step_cases (s : DmsSampler) (op : DmsOp) :
    (∃ f, (∀ v : DmsVoice, v.Advanced (f v)) ∧ (op.InRange → Continues f) ∧
      (s.step op).pool = s.pool.mapVoices f) ∨
    ∃ note src, op = .trigger note ∧
      s.sampleFor note.trackIdx note.padIdx = some src ∧
      s.step op =
        { s with
          pool := (s.pool.trigger note src
            (dmsPadKey note.trackIdx note.padIdx)).2 } := by
  have hidle : s.pool = s.pool.mapVoices id := by simp [DmsVoicePool.mapVoices]
  cases op with
  | load trackIdx padIdx samples channels =>
    exact Or.inl ⟨id, Continues.id.advanced, fun _ => Continues.id, hidle⟩
  | trigger note =>
    cases hsample : s.sampleFor note.trackIdx note.padIdx with
    | none =>
      refine Or.inl ⟨id, Continues.id.advanced, fun _ => Continues.id, ?_⟩
      simp only [step, triggerDmsNote, hsample]
      exact hidle
    | some src =>
      refine Or.inr ⟨note, src, rfl, hsample, ?_⟩
      simp only [step, triggerDmsNote, hsample, dmsPadKey_min]
  | release trackIdx padIdx =>
    have hf := Continues.releaseVoice (dmsPadKey trackIdx padIdx)
    exact Or.inl ⟨_, hf.advanced, fun _ => hf, rfl⟩
  | releaseEverywhere padIdx =>
    have hf := (Continues.foldl (fun t => Continues.releaseVoice (dmsPadKey t padIdx))
      (List.range 16)).comp (Continues.releaseVoice padIdx)
    refine Or.inl ⟨_, hf.advanced, fun _ => hf, ?_⟩
    exact (DmsVoicePool.foldl_mapVoices _ _ _).trans (DmsVoicePool.mapVoices_mapVoices _ _ _)
  | kill trackIdx padIdx =>
    have hf := Continues.killVoice (dmsPadKey trackIdx padIdx)
    exact Or.inl ⟨_, hf.advanced, fun _ => hf, rfl⟩
  | killEverywhere padIdx =>
    have hf := (Continues.foldl (fun t => Continues.killVoice (dmsPadKey t padIdx))
      (List.range 16)).comp (Continues.killVoice padIdx)
    refine Or.inl ⟨_, hf.advanced, fun _ => hf, ?_⟩
    exact (DmsVoicePool.foldl_mapVoices _ _ _).trans (DmsVoicePool.mapVoices_mapVoices _ _ _)
  | process mx sr n =>
    exact Or.inl ⟨_, advanced_render mx sr n, fun h => continues_render mx h n, rfl⟩

/-- The invariant of the voices. Their stamps are the counts of the notes that started them, as far as
64 bits tell. -/
structure Sound (s : DmsSampler) : Prop where
  count : s.pool.voices.length = maxDmsVoices
  bounded : ∀ v ∈ s.pool.voices, v.voice.Bounded
  key : ∀ v ∈ s.pool.voices, v.voice.active = true →
    v.voice.padIdx = dmsPadKey v.noteTrack v.notePad
  age : ∀ v ∈ s.pool.voices, v.voice.age = v.born % 2 ^ 64 ∧ v.born ≤ s.pool.triggers
  clock : s.pool.globalAge = s.pool.triggers % 2 ^ 64

theorem sound_new : new.Sound := by
  have hnew : ∀ v ∈ new.pool.voices, v = PoolVoice.new := fun v h => List.eq_of_mem_replicate h
  constructor
  · exact List.length_replicate
  · intro v hv
    rw [hnew v hv]
    exact bounded_new
  · intro v hv hactive
    rw [hnew v hv] at hactive
    exact Bool.noConfusion hactive
  · intro v hv
    rw [hnew v hv]
    exact ⟨rfl, Nat.zero_le _⟩
  · rfl

theorem Sound.mapVoices {s : DmsSampler} (hs : s.Sound) {f : DmsVoice → DmsVoice}
    (hf : Continues f) {s' : DmsSampler} (hpool : s'.pool = s.pool.mapVoices f) : s'.Sound := by
  constructor
  · rw [hpool, DmsVoicePool.mapVoices, List.length_map]
    exact hs.count
  · intro v hv
    rw [hpool] at hv
    obtain ⟨w, hw, rfl⟩ := DmsVoicePool.mem_mapVoices hv
    exact hf.bounded _ (hs.bounded w hw)
  · intro v hv hactive
    rw [hpool] at hv
    obtain ⟨w, hw, rfl⟩ := DmsVoicePool.mem_mapVoices hv
    rw [(hf.advanced w.voice).padIdx]
    exact hs.key w hw ((hf.advanced w.voice).active hactive)
  · intro v hv
    rw [hpool] at hv ⊢
    obtain ⟨w, hw, rfl⟩ := DmsVoicePool.mem_mapVoices hv
    rw [(hf.advanced w.voice).age]
    exact hs.age w hw
  · rw [hpool]
    exact hs.clock

theorem Sound.trigger {s : DmsSampler} (hs : s.Sound) {note : DmsNote}
    (hnote : 0 ≤ note.adsr.sustainLevel ∧ note.adsr.sustainLevel ≤ 1) (src : DmsSource) :
    ({ s with
        pool := (s.pool.trigger note src
          (dmsPadKey note.trackIdx note.padIdx)).2 } : DmsSampler).Sound := by
  obtain ⟨i, old, hold, hpool, _⟩ := DmsVoicePool.trigger_spec hs.count note src
    (dmsPadKey note.trackIdx note.padIdx)
  have hmem : ∀ v ∈ s.pool.voices.set i (PoolVoice.start note src
      (dmsPadKey note.trackIdx note.padIdx) ((s.pool.globalAge + 1) % 2 ^ 64)
      (s.pool.triggers + 1)), v ∈ s.pool.voices ∨ v = PoolVoice.start note src
      (dmsPadKey note.trackIdx note.padIdx) ((s.pool.globalAge + 1) % 2 ^ 64)
      (s.pool.triggers + 1) := fun v hv => List.mem_or_eq_of_mem_set hv
  rw [hpool]
  constructor
  · simp only [List.length_set]
    exact hs.count
  · intro v hv
    obtain hv | rfl := hmem v hv
    · exact hs.bounded v hv
    · exact ⟨by simp [PoolVoice.start], fun _ => ⟨le_rfl, zero_le_one⟩, fun _ => hnote⟩
  · intro v hv
    obtain hv | rfl := hmem v hv
    · exact hs.key v hv
    · exact fun _ => rfl
  · intro v hv
    obtain hv | rfl := hmem v hv
    · exact ⟨(hs.age v hv).1, (hs.age v hv).2.trans (Nat.le_succ _)⟩
    · refine ⟨?_, le_rfl⟩
      simp only [PoolVoice.start, hs.clock, Nat.mod_add_mod]
  · simp only [hs.clock, Nat.mod_add_mod]

theorem Sound.step {s : DmsSampler} (hs : s.Sound) {op : DmsOp} (h : op.InRange) :
    (s.step op).Sound := by
  obtain ⟨f, _, hf, hpool⟩ | ⟨note, src, rfl, _, hstep⟩ := s.step_cases op
  · exact hs.mapVoices (hf h) hpool
  · rw [hstep]
    exact hs.trigger h src

/-! ## Allocation and release -/

structure VoicesOk (s : DmsSampler) : Prop where
  count : s.pool.voices.length = 64
  active_iff : ∀ v ∈ s.pool.voices, v.voice.active = true ↔ v.voice.envStage ≠ .free
  level : ∀ v ∈ s.pool.voices, v.voice.active = true → 0 ≤ v.voice.envLevel ∧ v.voice.envLevel ≤ 1

/-- A note without a sample changes nothing; another one starts one voice, and takes it from an earlier
note only when every voice is taken: then the one of the least stamp, which is the one of the earliest
note while fewer than `2 ^ 64` have sounded. -/
def Allocates (s : DmsSampler) (note : DmsNote) : Prop :=
  (s.step (.trigger note)).pool = s.pool ∨
    ∃ i old started, s.pool.voices[i]? = some old ∧
      (s.step (.trigger note)).pool.voices = s.pool.voices.set i started ∧
      started.voice.active = true ∧ started.noteTrack = note.trackIdx ∧
      started.notePad = note.padIdx ∧
      (old.voice.active = true →
        (∀ w ∈ s.pool.voices, w.voice.active = true) ∧
        (∀ w ∈ s.pool.voices, old.voice.age ≤ w.voice.age) ∧
        (s.pool.triggers < 2 ^ 64 → ∀ w ∈ s.pool.voices, old.born ≤ w.born))

/-- A release changes voices of its own track and pad only, numbers beyond the last track or pad counting
as the last. -/
def ReleasesOwn (s : DmsSampler) (trackIdx padIdx : ℕ) : Prop :=
  ∀ (i : ℕ) (v v' : PoolVoice), s.pool.voices[i]? = some v →
    (s.step (.release trackIdx padIdx)).pool.voices[i]? = some v' → v' ≠ v →
      min v.noteTrack 15 = min trackIdx 15 ∧ min v.notePad 63 = min padIdx 63

def StepOk (s : DmsSampler) : DmsOp → Prop
  | .trigger note => s.Allocates note
  | .release trackIdx padIdx => s.ReleasesOwn trackIdx padIdx
  | _ => True

theorem Sound.voicesOk {s : DmsSampler} (hs : s.Sound) : s.VoicesOk :=
  ⟨hs.count, fun v hv => (hs.bounded v hv).active_iff, fun v hv => (hs.bounded v hv).level⟩

theorem Sound.allocates {s : DmsSampler} (hs : s.Sound) (note : DmsNote) : s.Allocates note := by
  cases hsample : s.sampleFor note.trackIdx note.padIdx with
  | none =>
    refine Or.inl ?_
    simp only [DmsSampler.step, triggerDmsNote, hsample]
  | some src =>
    obtain ⟨i, old, hold, hpool, hwhich⟩ := DmsVoicePool.trigger_spec hs.count note src
      (dmsPadKey note.trackIdx note.padIdx)
    refine Or.inr ⟨i, old, PoolVoice.start note src
      (dmsPadKey note.trackIdx note.padIdx) ((s.pool.globalAge + 1) % 2 ^ 64) (s.pool.triggers + 1),
      hold, ?_, rfl, rfl, rfl, ?_⟩
    · simp only [DmsSampler.step, triggerDmsNote, hsample, dmsPadKey_min, hpool]
    · intro hactive
      obtain ⟨hfree, _⟩ | ⟨hall, hleast⟩ := hwhich
      · rw [hactive] at hfree
        exact Bool.noConfusion hfree
      · refine ⟨hall, hleast, fun hlt w hw => ?_⟩
        obtain ⟨holdage, holdborn⟩ := hs.age old (List.mem_of_getElem? hold)
        obtain ⟨hage, hborn⟩ := hs.age w hw
        have hle := hleast w hw
        rwa [holdage, hage, Nat.mod_eq_of_lt (lt_of_le_of_lt holdborn hlt),
          Nat.mod_eq_of_lt (lt_of_le_of_lt hborn hlt)] at hle

theorem Sound.releasesOwn {s : DmsSampler} (hs : s.Sound) (trackIdx padIdx : ℕ) :
    s.ReleasesOwn trackIdx padIdx := by
  intro i v v' hv hv' hne
  have hmapped : (s.step (.release trackIdx padIdx)).pool.voices[i]? =
      some { v with
        voice := DmsVoicePool.releaseVoice (dmsPadKey trackIdx padIdx) v.voice } := by
    simp only [DmsSampler.step, releaseDmsNoteForTrack, DmsVoicePool.releasePad,
      DmsVoicePool.mapVoices, List.getElem?_map, hv, Option.map_some]
  have hreleased : v.voice.active = true ∧ v.voice.padIdx = dmsPadKey trackIdx padIdx ∧
      v.voice.envStage ≠ .release := by
    by_contra hnot
    rw [DmsVoicePool.releaseVoice, if_neg hnot] at hmapped
    exact hne (Option.some.inj (hv'.symm.trans hmapped))
  have hkey := hs.key v (List.mem_of_getElem? hv) hreleased.1
  exact dmsPadKey_inj.mp (hkey.symm.trans hreleased.2.1)

theorem Sound.stepOk {s : DmsSampler} (hs : s.Sound) (op : DmsOp) : s.StepOk op := by
  cases op with
  | trigger note => exact hs.allocates note
  | release trackIdx padIdx => exact hs.releasesOwn trackIdx padIdx
  | load trackIdx padIdx samples channels => exact trivial
  | releaseEverywhere padIdx => exact trivial
  | kill trackIdx padIdx => exact trivial
  | killEverywhere padIdx => exact trivial
  | process mx sr n => exact trivial

/-- In every run of the sampler with parameters in range, the voices are sound in every state, notes
allocate and releases release as they should. -/
theorem voices_sound (ops : List DmsOp) (h : ∀ op ∈ ops, op.InRange) :
    Always step VoicesOk new ops ∧ Along step StepOk new ops := by
  have hrun : Along step (fun _ op => op.InRange) new ops := along_of_forall_mem h
  have hsound : Always step Sound new ops := always_of_along (fun s op hs => hs.step) sound_new hrun
  exact ⟨hsound.mono fun s hs => hs.voicesOk, hsound.along fun s op hs => hs.stepOk op⟩

def unityMixer : Mixer :=
  { trackVolumes := fun _ => 1, trackPans := fun _ => 0, trackMutes := fun _ => false
    trackSolos := fun _ => false, masterGain := 1 }

/-- A note on the last pad with the rates the application sends for an attack, a decay and a release of
no length at 48 kHz. -/
def hit : DmsNote :=
  { trackIdx := 0, padIdx := 63, gain := 1, pan := 0, velocity := 1, playSpeed := 1
    adsr := { attackRate := 48000, decayRate := 48000, sustainLevel := 1 / 2, releaseRate := 48000 } }

/-- The note sounds for two frames, is released under the number of a pad past the last one, and ends. -/
def hitAndRelease : List DmsOp :=
  [.load 0 63 (List.replicate 8 1) 1, .trigger hit, .process unityMixer 48000 2, .release 0 64,
    .process unityMixer 48000 1]

theorem voices_sound_hit :
    Always step VoicesOk new hitAndRelease ∧ Along step StepOk new hitAndRelease := by
  apply voices_sound
  simp only [hitAndRelease, List.forall_mem_cons, DmsOp.InRange, hit]
  norm_num

/-- The release ends the voice below zero, and it was not for the pad the voice was triggered for. -/
theorem not_levels_and_pads :
    ¬(Always step (fun s => ∀ v ∈ s.pool.voices, 0 ≤ v.voice.envLevel ∧ v.voice.envLevel ≤ 1) new
      hitAndRelease) ∧
    ¬(Along step (fun s op => match op with
        | .release trackIdx padIdx => ∀ (i : ℕ) (v v' : PoolVoice), s.pool.voices[i]? = some v →
          (s.step (.release trackIdx padIdx)).pool.voices[i]? = some v' → v' ≠ v →
            v.noteTrack = trackIdx ∧ v.notePad = padIdx
        | _ => True) new hitAndRelease) := by
  constructor
  · intro h
    exact absurd h.final (by decide +kernel)
  · rintro ⟨_, _, _, hrelease, _⟩
    obtain ⟨_, hpad⟩ := hrelease 0 _ _ rfl rfl (by decide +kernel)
    exact absurd hpad (by decide +kernel)

end DmsSampler

end HikaruOpenLive.Engine
