import HikaruOpenLive.Engine.DmsVoiceRuns

/-! # The buffers the drum voices read

A voice reads the buffer it was started with for as long as it sounds, and a load drops the buffer that
was in its place. The two meet when a load goes to the place a sounding voice was started from.
-/
set_option autoImplicit false

namespace HikaruOpenLive.Engine

open Foundations.Runs

namespace DmsSampler

/-! ## What is where after a step -/

theorem getElem?_padTo {α : Type} (n : ℕ) (a : α) (l : List α) (k : ℕ) :
    (padTo n a l)[k]? = if k < l.length then l[k]? else if k < n then some a else none := by
  unfold padTo
  rw [List.getElem?_append]
  split
  case isTrue => rfl
  case isFalse hlen =>
    rw [List.getElem?_replicate]
    by_cases hk : k < n
    · rw [if_pos (by omega), if_pos hk]
    · rw [if_neg (by omega), if_neg hk]

/-- A load puts a new buffer in its place and leaves the others. -/
theorem sampleAt_load (s : DmsSampler) (trackIdx padIdx : ℕ) (samples : List ℚ) (channels k : ℕ) :
    (s.loadDmsSampleForTrack trackIdx padIdx samples channels).sampleAt k =
      if k = dmsPadKey trackIdx padIdx then some ⟨s.nextBuffer, samples⟩ else s.sampleAt k := by
  simp only [sampleAt, loadDmsSampleForTrack, List.getElem?_set, getElem?_padTo]
  by_cases hk : dmsPadKey trackIdx padIdx = k
  · have hlen : k < (padTo (k + 1) none s.dmsSamples).length := by
      simp only [padTo, List.length_append, List.length_replicate]
      omega
    rw [if_pos hk, if_pos hk.symm, hk, if_pos hlen]
    rfl
  · rw [if_neg hk, if_neg (Ne.symm hk)]
    split
    · rfl
    · rw [List.getElem?_eq_none (by omega)]
      split <;> rfl

theorem channelsAt_load (s : DmsSampler) (trackIdx padIdx : ℕ) (samples : List ℚ)
    (channels k : ℕ) :
    (s.loadDmsSampleForTrack trackIdx padIdx samples channels).channelsAt k =
      if k = dmsPadKey trackIdx padIdx then channels else s.channelsAt k := by
  simp only [channelsAt, loadDmsSampleForTrack, List.getElem?_set, getElem?_padTo]
  by_cases hk : dmsPadKey trackIdx padIdx = k
  · have hlen : k < (padTo (k + 1) 1 s.dmsChannels).length := by
      simp only [padTo, List.length_append, List.length_replicate]
      omega
    rw [if_pos hk, if_pos hk.symm, hk, if_pos hlen]
    rfl
  · rw [if_neg hk, if_neg (Ne.symm hk)]
    split
    · rfl
    · rw [List.getElem?_eq_none (by omega)]
      split <;> rfl

theorem store_step_of_ne_load (s : DmsSampler) (op : DmsOp)
    (h : ∀ trackIdx padIdx samples channels, op ≠ .load trackIdx padIdx samples channels) :
    (s.step op).dmsSamples = s.dmsSamples ∧ (s.step op).dmsChannels = s.dmsChannels ∧
      (s.step op).nextBuffer = s.nextBuffer := by
  cases op with
  | load trackIdx padIdx samples channels => exact absurd rfl (h trackIdx padIdx samples channels)
  | trigger note =>
    simp only [step, triggerDmsNote]
    split <;> exact ⟨rfl, rfl, rfl⟩
  | release trackIdx padIdx => exact ⟨rfl, rfl, rfl⟩
  | releaseEverywhere padIdx => simp [step, releaseDmsNote]
  | kill trackIdx padIdx => exact ⟨rfl, rfl, rfl⟩
  | killEverywhere padIdx => simp [step, killDmsNote]
  | process mx sr n => exact ⟨rfl, rfl, rfl⟩

theorem sampleAt_step_of_ne_load (s : DmsSampler) {op : DmsOp}
    (h : ∀ trackIdx padIdx samples channels, op ≠ .load trackIdx padIdx samples channels) (k : ℕ) :
    (s.step op).sampleAt k = s.sampleAt k ∧ (s.step op).nextBuffer = s.nextBuffer := by
  obtain ⟨hsamples, _, hnext⟩ := s.store_step_of_ne_load op h
  exact ⟨by rw [sampleAt, hsamples, sampleAt], hnext⟩

/-- The sample of a note is in the place it is said to come from. -/
theorem sampleAt_of_sampleFor {s : DmsSampler} {trackIdx padIdx : ℕ} {src : DmsSource}
    (h : s.sampleFor trackIdx padIdx = some src) : s.sampleAt src.slot = some src.sample := by
  unfold sampleFor at h
  simp only at h
  split at h
  case h_1 sample hsample =>
    rw [← Option.some.inj h]
    exact hsample
  case h_2 =>
    split at h
    case h_1 sample hsample =>
      rw [← Option.some.inj h]
      exact hsample
    case h_2 => exact absurd h (by simp)

/-- The voices after a step: those before it moved on, and the one of a note just triggered. -/
theorem mem_step {s : DmsSampler} (hlen : s.pool.voices.length = maxDmsVoices) {op : DmsOp}
    {v : PoolVoice} (hv : v ∈ (s.step op).pool.voices) :
    (∃ w ∈ s.pool.voices, v = { w with voice := v.voice } ∧ w.voice.Advanced v.voice) ∨
      ∃ note src age, op = .trigger note ∧ s.sampleFor note.trackIdx note.padIdx = some src ∧
        v = PoolVoice.start note src (dmsPadKey note.trackIdx note.padIdx) age
          (s.pool.triggers + 1) := by
  obtain ⟨f, hf, _, hpool⟩ | ⟨note, src, rfl, hsrc, hstep⟩ := s.step_cases op
  · rw [hpool] at hv
    obtain ⟨w, hw, rfl⟩ := DmsVoicePool.mem_mapVoices hv
    exact Or.inl ⟨w, hw, rfl, hf w.voice⟩
  · obtain ⟨i, old, _, hpool, _⟩ := DmsVoicePool.trigger_spec hlen note src
      (dmsPadKey note.trackIdx note.padIdx)
    rw [hstep, hpool] at hv
    obtain hv | rfl := List.mem_or_eq_of_mem_set hv
    · exact Or.inl ⟨v, hv, rfl, DmsVoice.Advanced.refl _⟩
    · exact Or.inr ⟨note, src, _, rfl, hsrc, rfl⟩

/-- An active voice after a step was active before it, or was started by it. -/
theorem active_step {s : DmsSampler} (hlen : s.pool.voices.length = maxDmsVoices) {op : DmsOp}
    {v : PoolVoice} (hv : v ∈ (s.step op).pool.voices) (hactive : v.voice.active = true) :
    (∃ w ∈ s.pool.voices, w.voice.active = true ∧ v.buffer = w.buffer ∧ v.source = w.source ∧
        v.voice.padIdx = w.voice.padIdx) ∨
      ∃ note src, op = .trigger note ∧ s.sampleFor note.trackIdx note.padIdx = some src ∧
        v.buffer = src.sample.buffer ∧ v.source = src.slot ∧
        v.voice.padIdx = dmsPadKey note.trackIdx note.padIdx := by
  obtain ⟨w, hw, hvw, hadv⟩ | ⟨note, src, age, rfl, hsrc, rfl⟩ := mem_step hlen hv
  · refine Or.inl ⟨w, hw, hadv.active hactive, ?_, ?_, hadv.padIdx⟩
    · rw [hvw]
    · rw [hvw]
  · exact Or.inr ⟨note, src, rfl, hsrc, rfl, rfl, rfl⟩

/-! ## The place a voice was started from -/

/-- Every active voice reads a buffer that is still in the place the voice was started from, and so one
that is not dropped. -/
structure Held (s : DmsSampler) : Prop where
  slot : ∀ v ∈ s.pool.voices, v.voice.active = true →
    ∃ sample, s.sampleAt v.source = some sample ∧ sample.buffer = v.buffer
  alive : ∀ v ∈ s.pool.voices, v.voice.active = true →
    ∃ sample, some sample ∈ s.dmsSamples ∧ sample.buffer = v.buffer

/-- A load goes to a place from which no active voice was started. -/
def SparesVoices (s : DmsSampler) : DmsOp → Prop
  | .load trackIdx padIdx _ _ => ∀ v ∈ s.pool.voices, v.voice.active = true →
    v.source ≠ dmsPadKey trackIdx padIdx
  | _ => True

/-- A note does not have to make do with the first track's sample. -/
def OwnSample (s : DmsSampler) : DmsOp → Prop
  | .trigger note => ∀ src, s.sampleFor note.trackIdx note.padIdx = some src →
    src.slot = dmsPadKey note.trackIdx note.padIdx
  | _ => True

structure Numbered (s : DmsSampler) : Prop where
  count : s.pool.voices.length = maxDmsVoices
  buffers : ∀ k sample, s.sampleAt k = some sample → sample.buffer < s.nextBuffer
  voices : ∀ v ∈ s.pool.voices, v.voice.active = true → v.buffer < s.nextBuffer

theorem inactive_new : ∀ v ∈ new.pool.voices, v.voice.active = false := by
  intro v hv
  rw [List.eq_of_mem_replicate hv]
  rfl

theorem numbered_new : new.Numbered := by
  refine ⟨List.length_replicate, fun k sample h => ?_, fun v hv hactive => ?_⟩
  · exact absurd h (by simp [sampleAt, new])
  · rw [inactive_new v hv] at hactive
    exact Bool.noConfusion hactive

theorem count_step {s : DmsSampler} (h : s.pool.voices.length = maxDmsVoices) (op : DmsOp) :
    (s.step op).pool.voices.length = maxDmsVoices := by
  obtain ⟨f, _, _, hpool⟩ | ⟨note, src, rfl, _, hstep⟩ := s.step_cases op
  · rw [hpool, DmsVoicePool.mapVoices, List.length_map]
    exact h
  · obtain ⟨i, old, _, hpool, _⟩ := DmsVoicePool.trigger_spec h note src
      (dmsPadKey note.trackIdx note.padIdx)
    rw [hstep, hpool]
    simp only [List.length_set]
    exact h

theorem Numbered.step {s : DmsSampler} (hs : s.Numbered) (op : DmsOp) : (s.step op).Numbered := by
  have hnext : s.nextBuffer ≤ (s.step op).nextBuffer := by
    by_cases hload : ∃ t p samples channels, op = .load t p samples channels
    · obtain ⟨t, p, samples, channels, rfl⟩ := hload
      exact Nat.le_succ _
    · push Not at hload
      exact (s.sampleAt_step_of_ne_load hload 0).2.ge
  refine ⟨count_step hs.count op, fun k sample hsample => ?_, fun v hv hactive => ?_⟩
  · by_cases hload : ∃ t p samples channels, op = .load t p samples channels
    · obtain ⟨t, p, samples, channels, rfl⟩ := hload
      simp only [DmsSampler.step, sampleAt_load] at hsample
      split at hsample
      case isTrue =>
        rw [← Option.some.inj hsample]
        exact Nat.lt_succ_self _
      case isFalse => exact lt_of_lt_of_le (hs.buffers k sample hsample) hnext
    · push Not at hload
      rw [(s.sampleAt_step_of_ne_load hload k).1] at hsample
      exact lt_of_lt_of_le (hs.buffers k sample hsample) hnext
  · obtain ⟨w, hw, hwactive, hbuffer, _⟩ | ⟨note, src, _, hsrc, hbuffer, _⟩ :=
      active_step hs.count hv hactive
    · rw [hbuffer]
      exact lt_of_lt_of_le (hs.voices w hw hwactive) hnext
    · rw [hbuffer]
      exact lt_of_lt_of_le (hs.buffers _ _ (sampleAt_of_sampleFor hsrc)) hnext

theorem held_of_slot {s : DmsSampler} (h : ∀ v ∈ s.pool.voices, v.voice.active = true →
    ∃ sample, s.sampleAt v.source = some sample ∧ sample.buffer = v.buffer) : s.Held := by
  refine ⟨h, fun v hv hactive => ?_⟩
  obtain ⟨sample, hsample, hbuffer⟩ := h v hv hactive
  exact ⟨sample, List.mem_of_getElem? (Option.join_eq_some_iff.mp hsample), hbuffer⟩

/-- A step keeps what the voices read exactly when it spares their places. -/
theorem held_step_iff {s : DmsSampler} (hs : s.Numbered) (hheld : s.Held) (op : DmsOp) :
    (s.step op).Held ↔ s.SparesVoices op := by
  by_cases hload : ∃ t p samples channels, op = .load t p samples channels
  · obtain ⟨t, p, samples, channels, rfl⟩ := hload
    constructor
    · intro h v hv hactive hslot
      obtain ⟨sample, hsample, hbuffer⟩ := h.slot v hv hactive
      simp only [step, sampleAt_load, if_pos hslot] at hsample
      rw [← Option.some.inj hsample] at hbuffer
      exact absurd (hs.voices v hv hactive) (by simp [← hbuffer])
    · intro h
      apply held_of_slot
      intro v hv hactive
      simp only [step, sampleAt_load, if_neg (h v hv hactive)]
      exact hheld.slot v hv hactive
  · push Not at hload
    have hspares : s.SparesVoices op := by
      cases op with
      | load trackIdx padIdx samples channels =>
        exact absurd rfl (hload trackIdx padIdx samples channels)
      | trigger note => exact trivial
      | release trackIdx padIdx => exact trivial
      | releaseEverywhere padIdx => exact trivial
      | kill trackIdx padIdx => exact trivial
      | killEverywhere padIdx => exact trivial
      | process mx sr n => exact trivial
    refine ⟨fun _ => hspares, fun _ => held_of_slot fun v hv hactive => ?_⟩
    rw [(s.sampleAt_step_of_ne_load hload _).1]
    obtain ⟨w, hw, hwactive, hbuffer, hsource, _⟩ | ⟨note, src, _, hsrc, hbuffer, hsource, _⟩ :=
      active_step hs.count hv hactive
    · rw [hbuffer, hsource]
      exact hheld.slot w hw hwactive
    · rw [hbuffer, hsource]
      exact ⟨src.sample, sampleAt_of_sampleFor hsrc, rfl⟩

/-- In a run of the sampler the active voices always read buffers that are still in place exactly when
every load spares them; and the place is the one of the voice's own track and pad as long as no note
makes do with another. -/
theorem always_held_iff (ops : List DmsOp) :
    (Always step Held new ops ↔ Along step SparesVoices new ops) ∧
      (Along step OwnSample new ops →
        Always step (fun s => ∀ v ∈ s.pool.voices, v.voice.active = true →
          v.source = v.voice.padIdx) new ops) := by
  have hinactive : ∀ v ∈ new.pool.voices, ¬v.voice.active = true := by
    intro v hv
    rw [inactive_new v hv]
    exact Bool.false_ne_true
  constructor
  · have hstart : new.Held := held_of_slot fun v hv hactive => absurd hactive (hinactive v hv)
    exact always_iff_along_within (fun s op h => h.step op)
      (fun s op h hheld => held_step_iff h hheld op) numbered_new hstart
  · intro hown
    have hkeep : ∀ (s : DmsSampler) (op : DmsOp),
        (s.Numbered ∧ ∀ v ∈ s.pool.voices, v.voice.active = true → v.source = v.voice.padIdx) →
        s.OwnSample op →
        (s.step op).Numbered ∧ ∀ v ∈ (s.step op).pool.voices, v.voice.active = true →
          v.source = v.voice.padIdx := by
      rintro s op ⟨hs, hsource⟩ hop
      refine ⟨hs.step op, fun v hv hactive => ?_⟩
      obtain ⟨w, hw, hwactive, _, hv', hkey⟩ | ⟨note, src, rfl, hsrc, _, hv', hkey⟩ :=
        active_step hs.count hv hactive
      · rw [hv', hkey]
        exact hsource w hw hwactive
      · rw [hv', hkey]
        exact hop src hsrc
    have hboth := always_of_along hkeep
      ⟨numbered_new, fun v hv hactive => absurd hactive (hinactive v hv)⟩ hown
    exact hboth.mono fun s h => h.2

/-- A second load of a pad whose sample is sounding. -/
theorem not_always_held_reload :
    ¬Always step Held new [.load 0 63 [1, 1] 1, .trigger hit, .load 0 63 [0, 0] 1] := by
  intro h
  obtain ⟨sample, hsample, hbuffer⟩ := h.final.slot
    (PoolVoice.start hit ⟨63, ⟨0, [1, 1]⟩, 1⟩ 63 1 1) (by decide +kernel) rfl
  have hreloaded : some sample = some ⟨1, [0, 0]⟩ := hsample.symm.trans (by decide +kernel)
  rw [Option.some.inj hreloaded] at hbuffer
  exact absurd hbuffer (by decide)

end DmsSampler

end HikaruOpenLive.Engine
