import HikaruOpenLive.Gui.DmsTracks

/-! # Drum samplers of different tracks

All commands end at the pads of the engine's first track, so a pad holds what was last loaded into it
for any track. The tracks do not disturb one another as long as no two of them use a pad, and only the
engine's first track sounds through its own channel.
-/
set_option autoImplicit false

namespace HikaruOpenLive.Gui

open Engine Foundations.Runs DmsVoicePool

/-! ## The pads of the engine's first track -/

theorem dmsPadKey_zero {padIdx : ℕ} (h : padIdx < 64) : dmsPadKey 0 padIdx = padIdx := by
  simp only [dmsPadKey, dmsPadsPerTrack]
  omega

/-- What a note of the pad would play. -/
def plays (sampler : DmsSampler) (padIdx : ℕ) : Option Content :=
  (sampler.sampleFor 0 padIdx).map fun src => (src.sample.samples, src.channels)

theorem sampleFor_zero (sampler : DmsSampler) {padIdx : ℕ} (h : padIdx < 64) :
    sampler.sampleFor 0 padIdx =
      (sampler.sampleAt padIdx).map fun sample => ⟨padIdx, sample, sampler.channelsAt padIdx⟩ := by
  simp only [DmsSampler.sampleFor, Nat.zero_min, dmsPadKey_zero h]
  cases hsample : sampler.sampleAt padIdx with
  | none => rfl
  | some sample => rfl

theorem plays_eq (sampler : DmsSampler) {padIdx : ℕ} (h : padIdx < 64) :
    plays sampler padIdx =
      (sampler.sampleAt padIdx).map fun sample => (sample.samples, sampler.channelsAt padIdx) := by
  rw [plays, sampleFor_zero sampler h, Option.map_map]
  rfl

theorem plays_load (sampler : DmsSampler) {padIdx pad : ℕ} (hpadIdx : padIdx < 64) (hpad : pad < 64)
    (samples : List ℚ) (channels : ℕ) :
    plays (sampler.loadDmsSample padIdx samples channels) pad =
      if pad = padIdx then some (samples, channels) else plays sampler pad := by
  rw [plays_eq _ hpad, plays_eq _ hpad, DmsSampler.loadDmsSample, DmsSampler.sampleAt_load,
    DmsSampler.channelsAt_load, dmsPadKey_zero hpadIdx]
  by_cases h : pad = padIdx
  · simp only [if_pos h, Option.map_some]
  · simp only [if_neg h]

theorem plays_congr {sampler sampler' : DmsSampler} (hsamples : sampler'.dmsSamples = sampler.dmsSamples)
    (hchannels : sampler'.dmsChannels = sampler.dmsChannels) (pad : ℕ) :
    plays sampler' pad = plays sampler pad := by
  simp only [plays, DmsSampler.sampleFor, DmsSampler.sampleAt, DmsSampler.channelsAt, hsamples,
    hchannels]

/-- A voice that sounds, on a pad of the first track. -/
structure AtHome (v : PoolVoice) : Prop where
  pad : v.notePad < 64
  key : v.voice.padIdx = v.notePad
  source : v.source = v.notePad

/-- Only the engine's first track is played. -/
structure Home (sampler : DmsSampler) : Prop where
  numbered : sampler.Numbered
  born : ∀ v ∈ sampler.pool.voices, v.born ≤ sampler.pool.triggers
  voices : ∀ v ∈ sampler.pool.voices, v.voice.active = true → AtHome v

def HomeOp : DmsOp → Prop
  | .trigger note => note.trackIdx = 0 ∧ note.padIdx < 64
  | _ => True

theorem home_new : Home .new := by
  refine ⟨DmsSampler.numbered_new, fun v hv => ?_, fun v hv hactive => ?_⟩
  · rw [List.eq_of_mem_replicate hv]
    exact Nat.zero_le _
  · rw [DmsSampler.inactive_new v hv] at hactive
    exact Bool.noConfusion hactive

theorem triggers_le_step {sampler : DmsSampler} (hs : sampler.Numbered) (op : DmsOp) :
    sampler.pool.triggers ≤ (sampler.step op).pool.triggers := by
  obtain ⟨f, _, _, hpool⟩ | ⟨note, src, rfl, _, hstep⟩ := sampler.step_cases op
  · rw [hpool]
    rfl
  · obtain ⟨i, old, _, hpool, _⟩ := trigger_spec hs.count note src
      (dmsPadKey note.trackIdx note.padIdx)
    rw [hstep, hpool]
    exact Nat.le_succ _

theorem Home.step {sampler : DmsSampler} (hs : Home sampler) (op : DmsOp) (hop : HomeOp op) :
    Home (sampler.step op) := by
  refine ⟨hs.numbered.step op, fun v hv => ?_, fun v hv hactive => ?_⟩
  · obtain ⟨w, hw, hvw, _⟩ | ⟨note, src, age, rfl, hsrc, rfl⟩ :=
      DmsSampler.mem_step hs.numbered.count hv
    · rw [hvw]
      exact (hs.born w hw).trans (triggers_le_step hs.numbered op)
    · obtain ⟨i, old, _, hpool, _⟩ := trigger_spec hs.numbered.count note src
        (dmsPadKey (min note.trackIdx 15) note.padIdx)
      simp only [DmsSampler.step, DmsSampler.triggerDmsNote, hsrc, hpool]
      exact le_rfl
  · obtain ⟨w, hw, hvw, hadv⟩ | ⟨note, src, age, rfl, hsrc, rfl⟩ :=
      DmsSampler.mem_step hs.numbered.count hv
    · obtain ⟨hpad, hkey, hsource⟩ := hs.voices w hw (hadv.active hactive)
      rw [hvw]
      exact ⟨hpad, hadv.padIdx.trans hkey, hsource⟩
    · obtain ⟨htrack, hpad⟩ := hop
      rw [htrack, sampleFor_zero sampler hpad] at hsrc
      obtain ⟨sample, _, rfl⟩ := Option.map_eq_some_iff.mp hsrc
      refine ⟨hpad, ?_, rfl⟩
      simp only [PoolVoice.start, htrack, dmsPadKey_zero hpad]

/-! ## A release on all tracks -/

theorem releaseVoice_fixed {key : ℕ} {v : DmsVoice} :
    releaseVoice key v = v ↔ ¬(v.active = true ∧ v.padIdx = key ∧ v.envStage ≠ .release) := by
  unfold releaseVoice
  by_cases h : v.active = true ∧ v.padIdx = key ∧ v.envStage ≠ .release
  · rw [if_pos h]
    exact ⟨fun heq => absurd (congrArg DmsVoice.envStage heq).symm h.2.2, fun hn => absurd h hn⟩
  · rw [if_neg h]
    exact ⟨fun _ => h, fun _ => rfl⟩

/-- The pads of the other tracks are past those of the first, where no voice is. -/
theorem releaseVoice_everywhere {padIdx : ℕ} (hpad : padIdx < 64) {v : DmsVoice}
    (hv : v.active = true → v.padIdx < 64) (ts : List ℕ) :
    ts.foldl (fun v t => releaseVoice (dmsPadKey t padIdx) v) (releaseVoice padIdx v) =
      releaseVoice padIdx v := by
  apply List.foldl_fixed'
  intro t
  rw [releaseVoice_fixed]
  rintro ⟨hactive, hkey, hstage⟩
  obtain ⟨hactive', hpadIdx⟩ : v.active = true ∧ (releaseVoice padIdx v).padIdx = v.padIdx := by
    have hadv := (DmsVoice.Continues.releaseVoice padIdx).advanced v
    exact ⟨hadv.active hactive, hadv.padIdx⟩
  have hp : v.padIdx = padIdx := by
    have hlt := hv hactive'
    rw [hpadIdx] at hkey
    simp only [dmsPadKey, dmsPadsPerTrack] at hkey
    omega
  unfold releaseVoice at hstage
  by_cases h : v.active = true ∧ v.padIdx = padIdx ∧ v.envStage ≠ .release
  · rw [if_pos h] at hstage
    exact hstage rfl
  · rw [if_neg h] at hstage
    exact h ⟨hactive', hp, hstage⟩

theorem getElem?_releaseDmsNote {sampler : DmsSampler} (hs : Home sampler) {padIdx : ℕ}
    (hpad : padIdx < 64) {i : ℕ} {v : PoolVoice} (hv : sampler.pool.voices[i]? = some v) :
    (sampler.releaseDmsNote padIdx).pool.voices[i]? =
      some { v with voice := releaseVoice padIdx v.voice } := by
  have hpool : (sampler.releaseDmsNote padIdx).pool = sampler.pool.mapVoices fun v =>
      (List.range 16).foldl (fun v t => releaseVoice (dmsPadKey t padIdx) v)
        (releaseVoice padIdx v) :=
    (foldl_mapVoices _ _ _).trans (mapVoices_mapVoices _ _ _)
  have hlt : v.voice.active = true → v.voice.padIdx < 64 := by
    intro hactive
    obtain ⟨hlt, hkey, _⟩ := hs.voices v (List.mem_of_getElem? hv) hactive
    rw [hkey]
    exact hlt
  rw [hpool, mapVoices, List.getElem?_map, hv, Option.map_some]
  simp only [releaseVoice_everywhere hpad hlt]

namespace DmsSession

variable (speedOf : ℚ → ℚ) (sr : ℚ)

/-! ## What a delivered command does to other tracks -/

/-- The buffer a voice reads is still in the place the voice was started from. -/
def InPlace (sampler : DmsSampler) (v : PoolVoice) : Prop :=
  ∃ sample, sampler.sampleAt v.source = some sample ∧ sample.buffer = v.buffer

structure LoadIsolated (s : DmsSession) (track : ℕ) (after : DmsSampler) : Prop where
  samples : ∀ other pad, other ≠ track → s.loaded other pad ≠ none →
    plays after pad = plays s.sampler pad
  voices : after.pool.voices = s.sampler.pool.voices
  held : ∀ v ∈ s.sampler.pool.voices, v.voice.active = true → s.origin v.born ≠ track →
    InPlace s.sampler v → InPlace after v

/-- The note plays what the track last loaded into the pad, through the channel of the track. -/
def PlaysOwn (s : DmsSession) (track pad : ℕ) (after : DmsSampler) : Prop :=
  match s.loaded track pad with
  | none => after.pool.voices = s.sampler.pool.voices
  | some content => ∃ v ∈ after.pool.voices, v.born = s.sampler.pool.triggers + 1 ∧
    v.voice.active = true ∧ (v.voice.samples, v.voice.channels) = content ∧
    AppState.engineTrackOf track = some v.voice.trackSlot.val

structure ReleaseIsolated (s : DmsSession) (track : ℕ) (after : DmsSampler) : Prop where
  samples : ∀ pad, plays after pad = plays s.sampler pad
  voices : ∀ (i : ℕ) (v : PoolVoice), s.sampler.pool.voices[i]? = some v → v.voice.active = true →
    s.origin v.born ≠ track → after.pool.voices[i]? = some v

/-- What is asked of one act: in the GUI it is about one track, and so it is in the engine. -/
def Isolated (s : DmsSession) : DmsAct → Prop
  | .loadPad track pad path =>
    let after := s.step speedOf sr (.loadPad track pad path)
    after.sampler = s.sampler ∧ ∀ other ≠ track, after.dms other = s.dms other
  | .releasePad track pad =>
    let after := s.step speedOf sr (.releasePad track pad)
    after.sampler = s.sampler ∧ ∀ other, after.dms other = s.dms other
  | .deliver files =>
    match s.queue with
    | [] => True
    | sent :: _ =>
      let after := (s.deliver sr files).sampler
      match sent.command with
      | .loadDmsSample .. => s.LoadIsolated sent.track after
      | .dmsNoteOn padIdx .. => s.PlaysOwn sent.track padIdx after
      | .dmsNoteOff _ => s.ReleaseIsolated sent.track after
  | _ => True

/-- The condition: of the tracks only one loads the pad (or they load the same into it), notes are
played on the engine's first track after it was the last to load the pad, and a release finds no voice
of another track on its pad. -/
def Alone (s : DmsSession) : DmsAct → Prop
  | .deliver files =>
    match s.queue with
    | [] => True
    | sent :: _ =>
      match sent.command with
      | .loadDmsSample padIdx path => ∀ data, files path = some data →
        (∀ other ≠ sent.track, s.loaded other padIdx = none ∨
          s.latest padIdx = some (data.atRate sr, data.channels)) ∧
        ∀ v ∈ s.sampler.pool.voices, v.voice.active = true → s.origin v.born ≠ sent.track →
          v.notePad = padIdx → ¬InPlace s.sampler v
      | .dmsNoteOn padIdx .. =>
        s.latest padIdx = none ∨ sent.track = 1 ∧ s.loaded 1 padIdx = s.latest padIdx
      | .dmsNoteOff padIdx => ∀ v ∈ s.sampler.pool.voices, v.voice.active = true →
        v.notePad = padIdx → v.voice.envStage ≠ .release → s.origin v.born = sent.track
  | _ => True

/-! ## The invariant -/

structure Wired (s : DmsSession) : Prop where
  home : Home s.sampler
  queue : ∀ sent ∈ s.queue, sent.command.padIdx < 64
  latest : ∀ pad < 64, plays s.sampler pad = s.latest pad
  loaded : ∀ track pad, s.loaded track pad ≠ none → pad < 64 ∧ s.latest pad ≠ none

theorem wired_new : new.Wired :=
  ⟨home_new, by simp [new], fun pad hpad => by rw [plays_eq _ hpad]; rfl, fun _ _ h => absurd rfl h⟩

theorem Wired.of_eq {s s' : DmsSession} (hs : s.Wired) (hsampler : s'.sampler = s.sampler)
    (hqueue : ∀ sent ∈ s'.queue, sent ∈ s.queue ∨ sent.command.padIdx < 64)
    (hlatest : s'.latest = s.latest) (hloaded : s'.loaded = s.loaded) : s'.Wired := by
  refine ⟨hsampler ▸ hs.home, fun sent h => ?_, ?_, ?_⟩
  · exact (hqueue sent h).elim (hs.queue sent) id
  · rw [hsampler, hlatest]
    exact hs.latest
  · rw [hloaded, hlatest]
    exact hs.loaded

theorem Wired.updateDms {s : DmsSession} (hs : s.Wired) (track : ℕ) (f : OpenDms → OpenDms) :
    (s.updateDms track f).Wired :=
  hs.of_eq rfl (fun _ h => Or.inl h) rfl rfl

theorem Wired.send {s : DmsSession} (hs : s.Wired) (track : ℕ) (command : DmsCommand)
    (hpad : command.padIdx < 64) : (s.send track command).Wired := by
  refine Wired.of_eq hs rfl (fun sent h => ?_) rfl rfl
  obtain hmem | hmem := List.mem_append.mp h
  · exact Or.inl hmem
  · rw [List.mem_singleton.mp hmem]
    exact Or.inr hpad

theorem Wired.sendNoteOn {s : DmsSession} (hs : s.Wired) (track : ℕ) (pad : Fin 64)
    (velocityScale : ℚ) : (s.sendNoteOn speedOf track pad velocityScale).Wired := by
  unfold DmsSession.sendNoteOn
  simp only
  split
  · exact hs.send track _ pad.isLt
  · exact hs

/-- A step of the sampler that loads nothing. -/
theorem Wired.sampler {s : DmsSession} (hs : s.Wired) {op : DmsOp} (hop : HomeOp op)
    (hload : ∀ trackIdx padIdx samples channels, op ≠ .load trackIdx padIdx samples channels)
    {s' : DmsSession} (hsampler : s'.sampler = s.sampler.step op)
    (hqueue : ∀ sent ∈ s'.queue, sent ∈ s.queue) (hlatest : s'.latest = s.latest)
    (hloaded : s'.loaded = s.loaded) : s'.Wired := by
  obtain ⟨hsamples, hchannels, _⟩ := s.sampler.store_step_of_ne_load op hload
  refine ⟨hsampler ▸ hs.home.step op hop, fun sent h => hs.queue sent (hqueue sent h), ?_, ?_⟩
  · intro pad hpad
    rw [hsampler, hlatest, plays_congr hsamples hchannels]
    exact hs.latest pad hpad
  · rw [hloaded, hlatest]
    exact hs.loaded

theorem Wired.load {s : DmsSession} (hs : s.Wired) {track padIdx : ℕ} (hpad : padIdx < 64)
    (content : Content) {queue : List SentDms} (hqueue : ∀ sent ∈ queue, sent ∈ s.queue) :
    ({ s with
        queue := queue
        sampler := s.sampler.loadDmsSample padIdx content.1 content.2
        loaded := Function.update s.loaded track
          (Function.update (s.loaded track) padIdx (some content))
        latest := Function.update s.latest padIdx (some content) } : DmsSession).Wired := by
  refine ⟨hs.home.step (.load 0 padIdx content.1 content.2) trivial,
    fun sent h => hs.queue sent (hqueue sent h), fun pad hpad' => ?_, fun other pad hloaded => ?_⟩
  · simp only
    rw [plays_load s.sampler hpad hpad', Function.update_apply, hs.latest pad hpad']
  · simp only [Function.update_apply] at hloaded ⊢
    by_cases hp : pad = padIdx
    · exact ⟨hp ▸ hpad, by simp [hp]⟩
    · rw [if_neg hp]
      by_cases ht : other = track
      · simp only [if_pos ht, Function.update_apply, if_neg hp] at hloaded
        exact hs.loaded _ _ hloaded
      · rw [if_neg ht] at hloaded
        exact hs.loaded _ _ hloaded

theorem Wired.deliver {s : DmsSession} (hs : s.Wired) (files : Files) :
    (s.deliver sr files).Wired := by
  unfold DmsSession.deliver
  cases hqueue : s.queue with
  | nil => exact hs
  | cons sent queue =>
    have hrest : ∀ sent' ∈ queue, sent' ∈ s.queue := fun sent' h =>
      hqueue ▸ List.mem_cons_of_mem sent h
    have hpad : sent.command.padIdx < 64 := hs.queue sent (hqueue ▸ List.mem_cons_self)
    simp only [noteHistory]
    cases hcommand : sent.command with
    | loadDmsSample padIdx path =>
      rw [hcommand] at hpad
      simp only [handleDms]
      cases hfile : files path with
      | none => exact hs.of_eq rfl (fun sent h => Or.inl (hrest sent h)) rfl rfl
      | some data => exact hs.load hpad (data.atRate sr, data.channels) hrest
    | dmsNoteOn padIdx gain pan velocity playSpeed attackMs decayMs sustain releaseMs =>
      rw [hcommand] at hpad
      have hop : HomeOp (.trigger ⟨0, padIdx, gain, pan, velocity, playSpeed,
          adsrParams sr attackMs decayMs sustain releaseMs⟩) := ⟨rfl, hpad⟩
      exact hs.sampler hop (by simp) rfl hrest rfl rfl
    | dmsNoteOff padIdx =>
      have hop : HomeOp (.releaseEverywhere padIdx) := trivial
      exact hs.sampler hop (by simp) rfl hrest rfl rfl

theorem Wired.step {s : DmsSession} (hs : s.Wired) (act : DmsAct) : (s.step speedOf sr act).Wired := by
  cases act with
  | loadPad track pad path =>
    exact (hs.send track (.loadDmsSample pad path) pad.isLt).updateDms track fun dms =>
      dms.modifyPad pad fun p => p.loadSample path
  | clickPad track pad => exact hs.sendNoteOn speedOf track pad 1
  | previewDrumPad track pitch velocityScale =>
    simp only [DmsSession.step]
    split
    case h_1 pad _ => exact hs.sendNoteOn speedOf track pad velocityScale
    case h_2 => exact hs
  | releasePad track pad => exact hs.send track (.dmsNoteOff pad) pad.isLt
  | editPad track pad volume pan pitch =>
    exact hs.updateDms track fun dms =>
      dms.modifyPad pad fun p => { p with volume := volume, pan := pan, pitch := pitch }
  | editAdsr track adsr => exact hs.updateDms track fun dms => { dms with adsr := adsr }
  | deliver files => exact hs.deliver sr files
  | audio mx n =>
    have hop : HomeOp (.process mx sr n) := trivial
    exact hs.sampler hop (by simp) rfl (fun _ h => h) rfl rfl

/-! ## Where a delivered command disturbs another track -/

theorem loadIsolated_refl (s : DmsSession) (track : ℕ) : s.LoadIsolated track s.sampler :=
  ⟨fun _ _ _ _ => rfl, rfl, fun _ _ _ _ h => h⟩

theorem loadIsolated_iff {s : DmsSession} (hs : s.Wired) {padIdx : ℕ} (hpad : padIdx < 64)
    (track : ℕ) (content : Content) :
    s.LoadIsolated track (s.sampler.loadDmsSample padIdx content.1 content.2) ↔
      (∀ other ≠ track, s.loaded other padIdx = none ∨ s.latest padIdx = some content) ∧
        ∀ v ∈ s.sampler.pool.voices, v.voice.active = true → s.origin v.born ≠ track →
          v.notePad = padIdx → ¬InPlace s.sampler v := by
  have hslot : ∀ v ∈ s.sampler.pool.voices, v.voice.active = true →
      (s.sampler.loadDmsSample padIdx content.1 content.2).sampleAt v.source =
        if v.notePad = padIdx then some ⟨s.sampler.nextBuffer, content.1⟩
        else s.sampler.sampleAt v.source := by
    intro v hv hactive
    rw [DmsSampler.loadDmsSample, DmsSampler.sampleAt_load, dmsPadKey_zero hpad,
      (hs.home.voices v hv hactive).source]
  constructor
  · rintro ⟨hsamples, _, hheld⟩
    refine ⟨fun other hother => or_iff_not_imp_left.mpr fun hloaded => ?_,
      fun v hv hactive horigin hnote hplace => ?_⟩
    · have h := hsamples other padIdx hother hloaded
      rw [plays_load s.sampler hpad hpad, if_pos rfl, hs.latest padIdx hpad] at h
      exact h.symm
    · obtain ⟨sample, hsample, hbuffer⟩ := hheld v hv hactive horigin hplace
      rw [hslot v hv hactive, if_pos hnote] at hsample
      rw [← Option.some.inj hsample] at hbuffer
      exact absurd (hs.home.numbered.voices v hv hactive) (by simp [← hbuffer])
  · rintro ⟨hloads, hvoices⟩
    refine ⟨fun other pad hother hloaded => ?_, rfl, fun v hv hactive horigin hplace => ?_⟩
    · rw [plays_load s.sampler hpad (hs.loaded other pad hloaded).1]
      by_cases hp : pad = padIdx
      · rw [if_pos hp, hp, hs.latest padIdx hpad]
        exact ((hloads other hother).resolve_left (hp ▸ hloaded)).symm
      · rw [if_neg hp]
    · have hnote : v.notePad ≠ padIdx := fun h => hvoices v hv hactive horigin h hplace
      rw [InPlace, hslot v hv hactive, if_neg hnote]
      exact hplace

/-- A note with a sample starts one voice, and no other has its number. -/
theorem mem_trigger_born {sampler : DmsSampler} (hs : Home sampler) {note : DmsNote}
    (htrack : note.trackIdx = 0) {src : DmsSource}
    (hsrc : sampler.sampleFor 0 note.padIdx = some src) :
    ∃ age, ∀ v, v ∈ (sampler.triggerDmsNote note).pool.voices ∧
        v.born = sampler.pool.triggers + 1 ↔
      v = PoolVoice.start note src (dmsPadKey (min 0 15) note.padIdx) age
        (sampler.pool.triggers + 1) := by
  obtain ⟨i, old, hold, hpool, _⟩ := trigger_spec hs.numbered.count note src
    (dmsPadKey (min 0 15) note.padIdx)
  refine ⟨(sampler.pool.globalAge + 1) % 2 ^ 64, fun v => ?_⟩
  simp only [DmsSampler.triggerDmsNote, htrack, hsrc, hpool]
  constructor
  · rintro ⟨hv, hborn⟩
    obtain hv | hv := List.mem_or_eq_of_mem_set hv
    · have hle := hs.born v hv
      omega
    · exact hv
  · rintro rfl
    exact ⟨List.mem_set (List.getElem?_eq_some_iff.mp hold).1 _, rfl⟩

theorem engineTrackOf_eq_zero (track : ℕ) : AppState.engineTrackOf track = some 0 ↔ track = 1 := by
  cases track with
  | zero => simp [AppState.engineTrackOf]
  | succ t => simp [AppState.engineTrackOf]

theorem playsOwn_iff {s : DmsSession} (hs : s.Wired) (track : ℕ) {note : DmsNote}
    (htrack : note.trackIdx = 0) (hpad : note.padIdx < 64) :
    s.PlaysOwn track note.padIdx (s.sampler.triggerDmsNote note) ↔
      s.latest note.padIdx = none ∨
        track = 1 ∧ s.loaded 1 note.padIdx = s.latest note.padIdx := by
  have hplays := hs.latest note.padIdx hpad
  rw [plays] at hplays
  unfold PlaysOwn
  cases hsrc : s.sampler.sampleFor 0 note.padIdx with
  | none =>
    rw [hsrc, Option.map_none] at hplays
    have hloaded : s.loaded track note.padIdx = none := by
      by_contra h
      exact (hs.loaded track note.padIdx h).2 hplays.symm
    simp only [hloaded, DmsSampler.triggerDmsNote, htrack, hsrc, ← hplays, true_or]
  | some src =>
    rw [hsrc, Option.map_some] at hplays
    obtain ⟨age, hborn⟩ := mem_trigger_born hs.home htrack hsrc
    obtain ⟨hstarted, _⟩ := (hborn _).mpr rfl
    rw [← hplays]
    cases hloaded : s.loaded track note.padIdx with
    | none =>
      constructor
      · intro h
        rw [h] at hstarted
        exact absurd (hs.home.born _ hstarted) (Nat.not_succ_le_self _)
      · rintro (h | ⟨rfl, h⟩)
        · exact absurd h (by simp)
        · exact absurd (hloaded.symm.trans h) (by simp)
    | some content =>
      simp only
      constructor
      · rintro ⟨v, hv, hnumber, _, hcontent, hchannel⟩
        obtain rfl := (hborn v).mp ⟨hv, hnumber⟩
        simp only [DmsVoice.trackSlot, PoolVoice.start, htrack] at hchannel
        obtain rfl := (engineTrackOf_eq_zero track).mp hchannel
        exact Or.inr ⟨rfl, hloaded.trans (congrArg some hcontent.symm)⟩
      · rintro (h | ⟨rfl, h⟩)
        · exact absurd h (by simp)
        · refine ⟨_, hstarted, rfl, rfl, ?_, ?_⟩
          · exact Option.some.inj (h.symm.trans hloaded)
          · simp only [DmsVoice.trackSlot, PoolVoice.start, htrack]
            rfl

theorem releaseIsolated_iff {s : DmsSession} (hs : s.Wired) {padIdx : ℕ} (hpad : padIdx < 64)
    (track : ℕ) :
    s.ReleaseIsolated track (s.sampler.releaseDmsNote padIdx) ↔
      ∀ v ∈ s.sampler.pool.voices, v.voice.active = true → v.notePad = padIdx →
        v.voice.envStage ≠ .release → s.origin v.born = track := by
  have hkept : ∀ (i : ℕ) (v : PoolVoice), s.sampler.pool.voices[i]? = some v →
      ((s.sampler.releaseDmsNote padIdx).pool.voices[i]? = some v ↔
        ¬(v.voice.active = true ∧ v.voice.padIdx = padIdx ∧ v.voice.envStage ≠ .release)) := by
    intro i v hv
    rw [getElem?_releaseDmsNote hs.home hpad hv, ← releaseVoice_fixed, Option.some_inj]
    constructor
    · intro h
      exact congrArg PoolVoice.voice h
    · intro h
      rw [h]
  constructor
  · intro h v hv hactive hnote hstage
    by_contra horigin
    obtain ⟨i, hi⟩ := List.mem_iff_getElem?.mp hv
    refine (hkept i v hi).mp (h.voices i v hi hactive horigin) ⟨hactive, ?_, hstage⟩
    exact (hs.home.voices v hv hactive).key.trans hnote
  · intro h
    refine ⟨fun pad => ?_, fun i v hi hactive horigin => (hkept i v hi).mpr ?_⟩
    · obtain ⟨hsamples, hchannels, _⟩ :=
        s.sampler.store_step_of_ne_load (.releaseEverywhere padIdx) (by simp)
      exact plays_congr hsamples hchannels pad
    · rintro ⟨_, hkey, hstage⟩
      have hv := List.mem_of_getElem? hi
      exact horigin (h v hv hactive ((hs.home.voices v hv hactive).key.symm.trans hkey) hstage)

theorem isolated_iff {s : DmsSession} (hs : s.Wired) (act : DmsAct) :
    s.Isolated speedOf sr act ↔ s.Alone sr act := by
  cases act with
  | loadPad track pad path =>
    refine iff_of_true ⟨rfl, fun other hother => ?_⟩ trivial
    exact Function.update_of_ne hother _ _
  | releasePad track pad => exact iff_of_true ⟨rfl, fun _ => rfl⟩ trivial
  | clickPad track pad => exact Iff.rfl
  | previewDrumPad track pitch velocityScale => exact Iff.rfl
  | editPad track pad volume pan pitch => exact Iff.rfl
  | editAdsr track adsr => exact Iff.rfl
  | audio mx n => exact Iff.rfl
  | deliver files =>
    unfold Isolated Alone DmsSession.deliver
    cases hqueue : s.queue with
    | nil => exact Iff.rfl
    | cons sent queue =>
      have hpad : sent.command.padIdx < 64 := hs.queue sent (hqueue ▸ List.mem_cons_self)
      obtain ⟨track, command⟩ := sent
      cases command with
      | loadDmsSample padIdx path =>
        simp only [handleDms]
        cases hfile : files path with
        | none => exact iff_of_true (s.loadIsolated_refl track) (by simp)
        | some data =>
          simp only [Option.some.injEq, forall_eq']
          exact loadIsolated_iff hs hpad track (data.atRate sr, data.channels)
      | dmsNoteOn padIdx gain pan velocity playSpeed attackMs decayMs sustain releaseMs =>
        have hnote : (DmsNote.mk 0 padIdx gain pan velocity playSpeed
          (adsrParams sr attackMs decayMs sustain releaseMs)).padIdx < 64 := hpad
        exact playsOwn_iff hs track rfl hnote
      | dmsNoteOff padIdx => exact releaseIsolated_iff hs hpad track

/-- The samplers of different tracks stay apart in exactly the runs whose steps all meet `Alone`. -/
theorem along_isolated_iff_along_alone (acts : List DmsAct) :
    Along (step speedOf sr) (Isolated speedOf sr) new acts ↔
      Along (step speedOf sr) (Alone sr) new acts :=
  along_iff_along (fun _ act hs _ => hs.step speedOf sr act)
    (fun _ act hs => isolated_iff speedOf sr hs act) wired_new

/-- Two files for one pad, on the first two tracks behind the master. -/
def twoDrums : Files
  | "kick" => some ⟨[1], 48000, 1⟩
  | "snare" => some ⟨[-1], 48000, 1⟩
  | _ => none

theorem not_along_isolated_same_pad :
    ¬Along (step (fun _ => 1) 48000) (Isolated (fun _ => 1) 48000) new
      [.loadPad 1 0 "kick", .deliver twoDrums, .loadPad 2 0 "snare", .deliver twoDrums] := by
  rintro ⟨_, _, _, h, _⟩
  have hsample := LoadIsolated.samples h 1 0 (by decide) (by decide +kernel)
  exact absurd hsample (by decide +kernel)

end DmsSession

end HikaruOpenLive.Gui
