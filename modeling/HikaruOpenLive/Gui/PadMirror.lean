import HikaruOpenLive.Foundations.Grid
import HikaruOpenLive.Foundations.Runs
import HikaruOpenLive.Gui.PadDelivery
import HikaruOpenLive.Gui.PadStates

/-! # The matrix of the GUI and the clips of the engine

After each edit its commands are carried out, and the engine should then have a clip for every audio pad,
with the pad's events and its loop, and no other matrix clip (`Mirrors`). No command takes a clip away, a
copied pad is loaded without its events, and the loop is sent only when a project is applied;
`MirroredStep` is what an edit must not run into.
-/
set_option autoImplicit false

namespace HikaruOpenLive.Gui

open Engine Foundations.Grid Foundations.Runs

variable {ν : Type}

/-! ## The audio pads -/

def MatrixSlot.audio? (slot : MatrixSlot) : Option MatrixClip :=
  slot.clip.filter fun clip => !clip.isMidi

theorem filter_audio {g : MatrixClip} (h : g.isMidi = false) :
    (some g).filter (fun clip => !clip.isMidi) = some g := by
  simp [h]

theorem filter_midi {g : MatrixClip} (h : g.isMidi = true) :
    (some g).filter (fun clip => !clip.isMidi) = none := by
  simp [h]

namespace SessionMatrixState

def audio? (m : SessionMatrixState) (track scene : ℕ) : Option MatrixClip :=
  (m.slot? track scene).bind MatrixSlot.audio?

theorem audio?_eq (m : SessionMatrixState) (track scene : ℕ) :
    m.audio? track scene = (m.clip? track scene).filter fun clip => !clip.isMidi := by
  unfold audio? clip?
  cases m.slot? track scene <;> rfl

theorem audio?_modifySlot (m : SessionMatrixState) (track scene : ℕ) (f : MatrixSlot → MatrixSlot)
    (t s : ℕ) :
    (m.modifySlot track scene f).audio? t s =
      if t = track ∧ s = scene then (m.slot? track scene).bind fun slot => (f slot).audio?
      else m.audio? t s := by
  rw [audio?, slot?_modifySlot]
  split
  · cases m.slot? track scene <;> rfl
  · rfl

theorem audio?_writeSlot {m m' : SessionMatrixState} {track scene : ℕ} {slot : MatrixSlot}
    (h : m.writeSlot track scene slot = some m') (t s : ℕ) :
    m'.audio? t s = if t = track ∧ s = scene then slot.audio? else m.audio? t s := by
  obtain ⟨old, hold, rfl⟩ := Option.map_eq_some_iff.mp h
  rw [audio?_modifySlot, hold]
  rfl

/-- Changing the states of slots changes no clip. -/
theorem audio?_showAs (m : SessionMatrixState) (track scene : ℕ) (state : SlotState) (t s : ℕ) :
    (m.showAs track scene state).audio? t s = m.audio? t s := by
  rw [showAs, audio?_modifySlot]
  split
  · rename_i hat
    rw [hat.1, hat.2]
    rfl
  · rfl

theorem audio?_stopOthers {m m' : SessionMatrixState} {track scene : ℕ}
    (h : m.stopOthers track scene = some m') (t s : ℕ) : m'.audio? t s = m.audio? t s := by
  rw [audio?, audio?, slot?_stopOthers h]
  cases m.slot? t s with
  | none => rfl
  | some slot =>
    rw [Option.map_some, Option.bind_some, Option.bind_some]
    split <;> rfl

theorem audio?_triggerPad {m : SessionMatrixState} {track scene : ℕ}
    {r : SessionMatrixState × List PadCommand} (h : m.triggerPad track scene = some r) (t s : ℕ) :
    r.1.audio? t s = m.audio? t s := by
  unfold triggerPad at h
  split at h
  · split at h
    · obtain ⟨stopped, hstop, rfl⟩ := Option.map_eq_some_iff.mp h
      exact (audio?_showAs stopped track scene _ t s).trans (audio?_stopOthers hstop t s)
    · rw [← Option.some.inj h]
      exact audio?_showAs m track scene _ t s
    · rw [← Option.some.inj h]
      exact audio?_showAs m track scene _ t s
    · rw [← Option.some.inj h]
      exact audio?_showAs m track scene _ t s
    · rw [← Option.some.inj h]
  · rw [← Option.some.inj h]

theorem audio?_launchTrack {m m' : SessionMatrixState} {scene track : ℕ}
    (h : launchTrack scene m track = some m') (t s : ℕ) : m'.audio? t s = m.audio? t s := by
  obtain ⟨slot, _, h⟩ := Option.bind_eq_some_iff.mp h
  split at h
  · obtain ⟨stopped, hstop, rfl⟩ := Option.map_eq_some_iff.mp h
    exact (audio?_showAs stopped track scene _ t s).trans (audio?_stopOthers hstop t s)
  · rw [← Option.some.inj h]

theorem audio?_triggerScene {m : SessionMatrixState} {scene : ℕ}
    {r : SessionMatrixState × List PadCommand} (h : m.triggerScene scene = some r) (t s : ℕ) :
    r.1.audio? t s = m.audio? t s := by
  obtain ⟨launched, hfold, rfl⟩ := Option.map_eq_some_iff.mp h
  let Kept (m' : SessionMatrixState) : Prop := m'.audio? t s = m.audio? t s
  have hstep : ∀ m₁ track m₂, Kept m₁ → launchTrack scene m₁ track = some m₂ → Kept m₂ :=
    fun m₁ track m₂ hkept hlaunch => (audio?_launchTrack hlaunch t s).trans hkept
  exact foldlM_keeps (I := Kept) hstep rfl hfold

/-! ## Tracks and scenes -/

theorem audio?_default : MatrixSlot.default.audio? = none := rfl

theorem audio?_addTrack (m : SessionMatrixState) (t s : ℕ) : m.addTrack.audio? t s = m.audio? t s := by
  unfold audio?
  cases hold : m.slot? t s with
  | some slot =>
    have hnew : m.addTrack.slot? t s = some slot := cell?_append_of_some hold _
    rw [hnew]
  | none =>
    cases hnew : m.addTrack.slot? t s with
    | none => rfl
    | some slot =>
      obtain hcell | hrow := cell_append hnew
      · have hsome : m.slot? t s = some slot := hcell
        rw [hold] at hsome
        exact absurd hsome (by simp)
      · rw [List.eq_of_mem_replicate hrow, Option.bind_some, audio?_default]
        rfl

theorem audio?_addScene (m : SessionMatrixState) (t s : ℕ) : m.addScene.audio? t s = m.audio? t s := by
  unfold audio?
  cases hold : m.slot? t s with
  | some slot =>
    have hnew : m.addScene.slot? t s = some slot := cell?_appendColumn_of_some hold _
    rw [hnew]
  | none =>
    cases hnew : m.addScene.slot? t s with
    | none => rfl
    | some slot =>
      obtain hcell | rfl := cell_appendColumn hnew
      · have hsome : m.slot? t s = some slot := hcell
        rw [hold] at hsome
        exact absurd hsome (by simp)
      · rfl

/-- The track that would go holds no audio. -/
def LastTrackFree (m : SessionMatrixState) : Prop :=
  1 < m.tracks.length → ∀ t s, (m.audio? t s).isSome → t + 1 < m.grid.length

/-- The slots that would go with the last scene hold no audio. -/
def LastSceneFree (m : SessionMatrixState) : Prop :=
  1 < m.scenes.length → ∀ t s row, m.grid[t]? = some row → (m.audio? t s).isSome →
    s + 1 < row.length

theorem audio?_removeTrack {m : SessionMatrixState} (h : m.LastTrackFree) (t s : ℕ) :
    m.removeTrack.audio? t s = m.audio? t s := by
  unfold removeTrack
  split
  case isFalse => rfl
  case isTrue hmany =>
    by_cases hlast : t + 1 < m.grid.length
    · have hcell : cell? m.grid.dropLast t s = cell? m.grid t s := cell?_dropLast_of_lt hlast s
      exact congrArg (fun slot => Option.bind slot MatrixSlot.audio?) hcell
    · have hold : m.audio? t s = none := by
        rw [← Option.not_isSome_iff_eq_none]
        exact fun hsome => hlast (h hmany t s hsome)
      have hnew : cell? m.grid.dropLast t s = none := by
        unfold cell?
        rw [List.getElem?_dropLast, if_neg (by omega)]
        rfl
      rw [hold]
      exact congrArg (fun slot => Option.bind slot MatrixSlot.audio?) hnew

theorem audio?_removeScene {m : SessionMatrixState} (h : m.LastSceneFree) (t s : ℕ) :
    m.removeScene.audio? t s = m.audio? t s := by
  unfold removeScene
  split
  case isFalse => rfl
  case isTrue hmany =>
    cases hrow : m.grid[t]? with
    | none =>
      have hold : cell? m.grid t s = none := by rw [cell?, hrow]; rfl
      have hnew : cell? (m.grid.map List.dropLast) t s = none := by rw [cell?_map, hrow]; rfl
      exact congrArg (fun slot => Option.bind slot MatrixSlot.audio?) (hnew.trans hold.symm)
    | some row =>
      by_cases hlast : s + 1 < row.length
      · have hcell := cell?_dropColumn_of_lt hrow hlast
        exact congrArg (fun slot => Option.bind slot MatrixSlot.audio?) hcell
      · have hold : m.audio? t s = none := by
          rw [← Option.not_isSome_iff_eq_none]
          exact fun hsome => hlast (h hmany t s row hrow hsome)
        have hnew : cell? (m.grid.map List.dropLast) t s = none := by
          rw [cell?_map, hrow, Option.bind_some, List.getElem?_dropLast, if_neg (by omega)]
        rw [hold]
        exact congrArg (fun slot => Option.bind slot MatrixSlot.audio?) hnew

end SessionMatrixState

open SessionMatrixState

/-! ## What the engine should hold -/

/-- A time of the clip editor, in ticks, as the engine counts it. -/
def loopFrames (sr bpm : ℚ) (ticks : ℕ) : ℕ :=
  ⌊max (ticksToSecsPrecise ticks ppqn bpm) 0 * max sr 1⌋₊

/-- The loop of a clip of the matrix, on `n` frames of the engine. -/
def MatrixClip.region (g : MatrixClip) (sr bpm : ℚ) (n : ℕ) : Bool × ℕ × ℕ :=
  AudioClip.regionOf (loopFrames sr bpm g.loopStart) (loopFrames sr bpm g.loopEnd) g.loopEnabled n

/-- The events of a clip as the engine has them, by way of exact seconds. -/
def engineEvents (sr : ℚ) (events : List AudioEvent) : List EngineAudioEvent :=
  events.map fun e => e.payload.atRate sr

/-- The events of a clip, delivered. -/
theorem deliverPads_setClipEvents {ν : Type} (files : Files) (e : AudioEngine ν) (track scene : ℕ)
    (events : List AudioEvent) :
    deliverPads files e [.setClipEvents track scene (events.map AudioEvent.payload)] =
      e.setClipEvents track scene (engineEvents e.sampleRate events) := by
  rw [deliverPads_cons, deliverPads_nil, PadCommand.run, List.map_map]
  rfl

/-- The engine's clip has the events and the loop of the pad's clip. -/
structure Plays (sr bpm : ℚ) (g : MatrixClip) (c : AudioClip) : Prop where
  matrix : c.isMatrixClip = true
  events : c.events = engineEvents sr g.audioEvents
  loop : c.loopRegion = g.region sr bpm c.naturalFrames

/-- The engine holds a clip for every audio pad, and no matrix clip besides. -/
structure Mirrors (m : SessionMatrixState) (e : AudioEngine ν) (bpm : ℚ) : Prop where
  backed : ∀ t s g, m.audio? t s = some g → ∃ c, e.cell? t s = some c ∧ Plays e.sampleRate bpm g c
  only : ∀ c ∈ e.clips, c.isMatrixClip = true → (m.audio? c.trackIndex c.sceneIndex).isSome

/-- So launching a scene starts no matrix clip where the matrix shows no audio. -/
theorem Mirrors.not_launched {m : SessionMatrixState} {e : AudioEngine ν} {bpm : ℚ}
    (h : Mirrors m e bpm) {track scene : ℕ} (hfree : m.audio? track scene = none) {c : AudioClip}
    (hc : c ∈ (e.triggerScene scene).clips) (hmatrix : c.isMatrixClip = true) :
    ¬ (c.trackIndex = track ∧ c.sceneIndex = scene) := by
  rintro ⟨rfl, rfl⟩
  obtain ⟨f, hf, hclips⟩ := e.triggerScene_toggles c.sceneIndex
  rw [hclips] at hc
  obtain ⟨d, hd, rfl⟩ := List.mem_map.mp hc
  obtain ⟨_, _, _, _, hfd⟩ := hf d
  have hsome := h.only d hd (by rw [hfd] at hmatrix; exact hmatrix)
  rw [hfd] at hfree
  have hnone : m.audio? d.trackIndex d.sceneIndex = none := hfree
  rw [hnone] at hsome
  exact absurd hsome (by simp)

/-! ## Commands that change no audio -/

theorem Plays.toggled {sr bpm : ℚ} {g : MatrixClip} {c : AudioClip} (h : Plays sr bpm g c)
    {f : AudioClip → AudioClip} (hf : AudioEngine.Toggles f) : Plays sr bpm g (f c) := by
  obtain ⟨_, _, _, _, hfc⟩ := hf c
  rw [hfc]
  exact ⟨h.matrix, h.events, h.loop⟩

/-- The triggers and the notes of MIDI pads. -/
def PadCommand.Quiet : PadCommand → Prop
  | .updateMidiClipNotes _ _ _ | .triggerClip _ _ | .triggerScene _ => True
  | .loadClip _ _ _ _ | .setClipEvents _ _ _ | .setClipLoop _ _ _ _ _ => False

theorem PadCommand.run_quiet (files : Files) (e : AudioEngine ν) {cmd : PadCommand} (h : cmd.Quiet) :
    ∃ f, AudioEngine.Toggles f ∧ (cmd.run files e).clips = e.clips.map f := by
  cases cmd with
  | updateMidiClipNotes track scene notes =>
    exact ⟨id, AudioEngine.toggles_id, (List.map_id _).symm⟩
  | triggerClip track scene => exact e.triggerClip_toggles track scene
  | triggerScene scene => exact e.triggerScene_toggles scene
  | loadClip id path track scene => exact h.elim
  | setClipEvents track scene events => exact h.elim
  | setClipLoop track scene startSecs endSecs enabled => exact h.elim

theorem deliverPads_quiet (files : Files) (e : AudioEngine ν) {cmds : List PadCommand}
    (h : ∀ cmd ∈ cmds, cmd.Quiet) :
    ∃ f, AudioEngine.Toggles f ∧ (deliverPads files e cmds).clips = e.clips.map f := by
  induction cmds generalizing e with
  | nil => exact ⟨id, AudioEngine.toggles_id, (List.map_id _).symm⟩
  | cons cmd cmds ih =>
    obtain ⟨f, hf, hclips⟩ := cmd.run_quiet files e (h cmd List.mem_cons_self)
    obtain ⟨g, hg, hrest⟩ := ih (cmd.run files e) fun c hc => h c (List.mem_cons_of_mem cmd hc)
    refine ⟨g ∘ f, hg.comp hf, ?_⟩
    rw [deliverPads_cons, hrest, hclips, List.map_map]

theorem syncMidiClip_quiet (m : SessionMatrixState) (track scene : ℕ) :
    ∀ cmd ∈ m.syncMidiClip track scene, cmd.Quiet := by
  intro cmd hcmd
  obtain ⟨_, _, _, rfl⟩ := syncMidiClip_notes m track scene cmd hcmd
  trivial

/-- An edit that leaves the audio of the pads and sends only quiet commands. -/
theorem Mirrors.quiet {m m' : SessionMatrixState} {e : AudioEngine ν} {bpm : ℚ} (h : Mirrors m e bpm)
    (haudio : ∀ t s, m'.audio? t s = m.audio? t s) (files : Files) {cmds : List PadCommand}
    (hcmds : ∀ cmd ∈ cmds, cmd.Quiet) : Mirrors m' (deliverPads files e cmds) bpm := by
  obtain ⟨f, hf, hclips⟩ := deliverPads_quiet files e hcmds
  obtain ⟨_, hrate⟩ := deliverPads_frame files e cmds
  have hcell : ∀ c, (f c).trackIndex = c.trackIndex ∧ (f c).sceneIndex = c.sceneIndex := by
    intro c
    obtain ⟨_, _, _, _, hfc⟩ := hf c
    rw [hfc]
    exact ⟨rfl, rfl⟩
  refine ⟨?_, ?_⟩
  · intro t s g hg
    rw [haudio] at hg
    obtain ⟨c, hc, hplays⟩ := h.backed t s g hg
    refine ⟨f c, ?_, ?_⟩
    · unfold AudioEngine.cell? at hc ⊢
      rw [hclips, AudioEngine.find?_mapCells e.clips hcell, hc]
      rfl
    · rw [hrate]
      exact hplays.toggled hf
  · intro c hc hmatrix
    rw [hclips] at hc
    obtain ⟨d, hd, rfl⟩ := List.mem_map.mp hc
    obtain ⟨_, _, _, _, hfd⟩ := hf d
    rw [haudio, (hcell d).1, (hcell d).2]
    exact h.only d hd (by rw [hfd] at hmatrix; exact hmatrix)

/-! ## Loading a pad -/

/-- The file is there, its clip gets the cell of the pad, and the pad's clip has no events and loops over
all of it. -/
structure LoadOk (disk : Disk) (e : AudioEngine ν) (bpm : ℚ) (g : MatrixClip) (path : String)
    (track scene : ℕ) : Prop where
  plain : g.audioEvents = []
  addresses : e.Addresses g.id track scene
  opens : ∃ w, disk path = some w ∧
    let n := (w.decoded.atRate e.sampleRate).length / max w.channels 1
    n = 0 ∨ g.loopEnabled = true ∧ loopFrames e.sampleRate bpm g.loopStart = 0 ∧
      (loopFrames e.sampleRate bpm g.loopEnd = 0 ∨ n ≤ loopFrames e.sampleRate bpm g.loopEnd)

theorem Mirrors.load {m m' : SessionMatrixState} {e : AudioEngine ν} {bpm : ℚ} (h : Mirrors m e bpm)
    {disk : Disk} {g : MatrixClip} {path : String} {track scene : ℕ}
    (hok : LoadOk disk e bpm g path track scene)
    (haudio : ∀ t s, m'.audio? t s = if t = track ∧ s = scene then some g else m.audio? t s) :
    Mirrors m' (deliverPads disk.files e [.loadClip g.id path track scene]) bpm := by
  obtain ⟨w, hw, hwhole⟩ := hok.opens
  let c := e.clipInstance g.id track scene (w.decoded.atRate e.sampleRate) 0 0 0 w.channels true
  have hrun : deliverPads disk.files e [.loadClip g.id path track scene] = e.addClip c := by
    rw [deliverPads_cons, deliverPads_nil, PadCommand.run, Disk.files, hw]
    rfl
  obtain ⟨_, hrate⟩ := e.addClip_frame c
  rw [hrun]
  refine ⟨?_, ?_⟩
  · intro t s g' hg'
    rw [haudio] at hg'
    rw [AudioEngine.cell?_addClip hok.addresses, hrate]
    by_cases hat : t = track ∧ s = scene
    · rw [if_pos hat] at hg'
      rw [← Option.some.inj hg']
      refine ⟨c, if_pos hat, rfl, ?_, ?_⟩
      · rw [hok.plain]
        rfl
      · rw [e.loopRegion_clipInstance, e.naturalFrames_clipInstance, MatrixClip.region]
        exact ((AudioClip.regionOf_whole_iff _ _ _ _).mpr hwhole).symm
    · rw [if_neg hat] at hg'
      obtain ⟨c', hc', hplays⟩ := h.backed t s g' hg'
      exact ⟨c', (if_neg hat).trans hc', hplays⟩
  · intro d hd hmatrix
    rw [haudio]
    split
    · rfl
    · rename_i hother
      obtain rfl | hd := AudioEngine.mem_addClip hd
      · exact absurd ⟨rfl, rfl⟩ hother
      · exact h.only d hd hmatrix

/-! ## Further files on a pad -/

/-- The loop of the pad means on the new events what the engine makes of its own. -/
def AppendOk (disk : Disk) (e : AudioEngine ν) (bpm : ℚ) (g : MatrixClip) (path : String)
    (track scene : ℕ) : Prop :=
  match decodeAudioFile disk path with
  | none => disk path = none ∨ LoadOk disk e bpm g path track scene
  | some _ => ∀ c, e.cell? track scene = some c →
    let events := engineEvents e.sampleRate (g.appendSampleAsEvent disk track scene path).1.audioEvents
    c.loopFollows (loopFrames e.sampleRate bpm g.loopStart) (loopFrames e.sampleRate bpm g.loopEnd)
      g.loopEnabled ((events.map EngineAudioEvent.stop).foldr max 0)

/-- A pad's clip given new events, its loop as it was. -/
theorem Mirrors.setEvents {m m' : SessionMatrixState} {e : AudioEngine ν} {bpm : ℚ}
    (h : Mirrors m e bpm) {g g' : MatrixClip} {track scene : ℕ} (hg : m.audio? track scene = some g)
    (hevents : g'.audioEvents ≠ [])
    (hloop : g'.loopStart = g.loopStart ∧ g'.loopEnd = g.loopEnd ∧ g'.loopEnabled = g.loopEnabled)
    (hfollows : ∀ c, e.cell? track scene = some c →
      c.loopFollows (loopFrames e.sampleRate bpm g.loopStart) (loopFrames e.sampleRate bpm g.loopEnd)
        g.loopEnabled (((engineEvents e.sampleRate g'.audioEvents).map EngineAudioEvent.stop).foldr max 0))
    (haudio : ∀ t s, m'.audio? t s = if t = track ∧ s = scene then some g' else m.audio? t s) :
    Mirrors m' (e.setClipEvents track scene (engineEvents e.sampleRate g'.audioEvents)) bpm := by
  have hne : engineEvents e.sampleRate g'.audioEvents ≠ [] := by
    intro hnil
    exact hevents (List.map_eq_nil_iff.mp hnil)
  refine ⟨?_, ?_⟩
  · intro t s p hp
    rw [haudio] at hp
    rw [AudioEngine.cell?_setClipEvents]
    by_cases hat : t = track ∧ s = scene
    · rw [if_pos hat] at hp
      rw [if_pos hat, ← Option.some.inj hp]
      obtain ⟨c, hc, hplays⟩ := h.backed track scene g hg
      obtain ⟨hev, hmatrix, _⟩ :=
        AudioClip.setEvents_frame (engineEvents e.sampleRate g'.audioEvents) c
      have hnatural := AudioClip.naturalFrames_setEvents (engineEvents e.sampleRate g'.audioEvents) c
      rw [if_neg hne] at hnatural
      refine ⟨_, by rw [hc]; rfl, hmatrix.trans hplays.matrix, hev, ?_⟩
      obtain ⟨hstart, hend, henabled⟩ := hloop
      rw [hnatural, MatrixClip.region, hstart, hend, henabled]
      exact (AudioClip.loopRegion_setEvents_iff hplays.loop _ hnatural).mpr (hfollows c hc)
    · rw [if_neg hat] at hp
      rw [if_neg hat]
      exact h.backed t s p hp
  · intro c hc hmatrix
    obtain ⟨d, hd, hkey⟩ := AudioEngine.exists_key (e.keys_setClipEvents track scene _) hc
    obtain ⟨_, htrack, hscene, hflag⟩ : d.id = c.id ∧ d.trackIndex = c.trackIndex ∧
        d.sceneIndex = c.sceneIndex ∧ d.isMatrixClip = c.isMatrixClip := by
      simpa [AudioEngine.key] using hkey
    have hold := h.only d hd (hflag.trans hmatrix)
    rw [haudio, ← htrack, ← hscene]
    split
    · rfl
    · exact hold

end HikaruOpenLive.Gui
