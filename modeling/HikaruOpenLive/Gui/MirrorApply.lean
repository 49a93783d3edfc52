import HikaruOpenLive.Gui.PadMirror

/-! # A project's matrix registered with the engine

Applying a project registers its clips one after another: each is loaded, its events are sent and its loop.
`Registered` is what holds after the first of them; the engine keeps what it had in other cells.
-/
set_option autoImplicit false

namespace HikaruOpenLive.Gui

open Engine Foundations.Grid SessionMatrixState

variable {ν : Type}

/-- The audio of the new matrix is on disk and addressed by its cells, and covers what the engine has of
the matrix so far. -/
structure ApplyOk (disk : Disk) (e : AudioEngine ν) (next : SessionMatrixState) : Prop where
  opens : ∀ t s g, next.audio? t s = some g → (disk g.path).isSome
  covers : ∀ c ∈ e.clips, c.isMatrixClip = true → (next.audio? c.trackIndex c.sceneIndex).isSome
  addresses : ∀ t s g, next.audio? t s = some g → e.Addresses g.id t s
  ids : e.mode = .openLive ∨ ∀ t s g t' s' g', next.audio? t s = some g →
    next.audio? t' s' = some g' → g.id = g'.id → t = t' ∧ s = s'

/-- The engine while a new matrix is registered, the cells of `done` so far; the matrix clips stay within
the cells of `P`. -/
structure Registered (next : SessionMatrixState) (disk : Disk) (bpm : ℚ) (P : ℕ → ℕ → Prop)
    (done : List (ℕ × ℕ × MatrixSlot)) (e : AudioEngine ν) : Prop where
  cells : ∀ t s slot, (t, s, slot) ∈ done → next.slot? t s = some slot
  backed : ∀ t s slot g, (t, s, slot) ∈ done → slot.audio? = some g → (disk g.path).isSome →
    ∃ c, e.cell? t s = some c ∧ Plays e.sampleRate bpm g c
  only : ∀ c ∈ e.clips, c.isMatrixClip = true → P c.trackIndex c.sceneIndex
  addresses : ∀ t s g, next.audio? t s = some g → e.Addresses g.id t s

theorem only_of_keys {P : ℕ → ℕ → Prop} {e e' : AudioEngine ν}
    (h : ∀ c ∈ e.clips, c.isMatrixClip = true → P c.trackIndex c.sceneIndex)
    (hkeys : e'.clips.map AudioEngine.key = e.clips.map AudioEngine.key) :
    ∀ c ∈ e'.clips, c.isMatrixClip = true → P c.trackIndex c.sceneIndex := by
  intro c hc hmatrix
  obtain ⟨d, hd, hkey⟩ := AudioEngine.exists_key hkeys hc
  obtain ⟨_, htrack, hscene, hflag⟩ : d.id = c.id ∧ d.trackIndex = c.trackIndex ∧
      d.sceneIndex = c.sceneIndex ∧ d.isMatrixClip = c.isMatrixClip := by
    simpa [AudioEngine.key] using hkey
  rw [← htrack, ← hscene]
  exact h d hd (hflag.trans hmatrix)

/-- What registers the clip of a slot. -/
def registerSlot (bpm : ℚ) (slot : MatrixSlot) (track scene : ℕ) : List PadCommand :=
  match slot.clip with
  | none => []
  | some clip => registerClip bpm clip track scene

theorem registerCommands_eq (m : SessionMatrixState) (bpm : ℚ) :
    m.registerCommands bpm =
      (cells m.grid).flatMap fun cell => registerSlot bpm cell.2.2 cell.1 cell.2.1 :=
  flatMap_cells m.grid fun track scene slot => registerSlot bpm slot track scene

/-- The engine once a clip is loaded and, if it has any, its events are sent: its clip of the cell, the
other cells, and what the clips are found by. -/
theorem loadWithEvents {e : AudioEngine ν} {c : AudioClip} (e' : AudioEngine ν)
    (haddr : e.Addresses c.id c.trackIndex c.sceneIndex) (hmatrix : c.isMatrixClip = true)
    (hevents : c.events = []) (events : List EngineAudioEvent)
    (he' : e' = if events = [] then e.addClip c
      else (e.addClip c).setClipEvents c.trackIndex c.sceneIndex events) :
    ∃ d, d.isMatrixClip = true ∧ d.events = events ∧
      (∀ t s, e'.cell? t s = if t = c.trackIndex ∧ s = c.sceneIndex then some d else e.cell? t s) ∧
      e'.clips.map AudioEngine.key = (e.addClip c).clips.map AudioEngine.key := by
  subst he'
  by_cases hnil : events = []
  · rw [if_pos hnil]
    exact ⟨c, hmatrix, hevents.trans hnil.symm, AudioEngine.cell?_addClip haddr, rfl⟩
  · rw [if_neg hnil]
    obtain ⟨hev, hflag, _⟩ := AudioClip.setEvents_frame events c
    refine ⟨c.setEvents events, hflag.trans hmatrix, hev, ?_, AudioEngine.keys_setClipEvents _ _ _ _⟩
    intro t s
    rw [AudioEngine.cell?_setClipEvents, AudioEngine.cell?_addClip haddr,
      AudioEngine.cell?_addClip haddr]
    split
    · rw [if_pos ⟨rfl, rfl⟩]
      rfl
    · rfl

/-- An audio clip with its file is loaded, gets its events if it has any, and then its loop. -/
theorem deliverPads_registerClip (e : AudioEngine ν) {disk : Disk} (bpm : ℚ) {g : MatrixClip}
    {w : WavFile} (hw : disk g.path = some w) (hmidi : g.isMidi = false) (track scene : ℕ) :
    let c := e.clipInstance g.id track scene (w.decoded.atRate e.sampleRate) 0 0 0 w.channels true
    let events := engineEvents e.sampleRate g.audioEvents
    deliverPads disk.files e (registerClip bpm g track scene) =
      (if events = [] then e.addClip c else (e.addClip c).setClipEvents track scene events).setClipLoop
        track scene (ticksToSecsPrecise g.loopStart ppqn bpm) (ticksToSecsPrecise g.loopEnd ppqn bpm)
        g.loopEnabled := by
  intro c events
  have hload : PadCommand.run disk.files e (.loadClip g.id g.path track scene) = e.addClip c := by
    rw [PadCommand.run, Disk.files, hw]
    rfl
  cases hcontent : g.content with
  | midi notes => simp [MatrixClip.isMidi, hcontent] at hmidi
  | audio evs nextEventId =>
    have hlist : g.audioEvents = evs := by rw [MatrixClip.audioEvents, hcontent]
    have hfirst : deliverPads disk.files e (.loadClip g.id g.path track scene ::
        if evs = [] then [] else g.syncAudioEventsToEngine track scene) =
          if events = [] then e.addClip c else (e.addClip c).setClipEvents track scene events := by
      rw [deliverPads_cons, hload]
      simp only [events, hlist]
      by_cases hnil : evs = []
      · rw [if_pos hnil, if_pos (by rw [hnil]; rfl)]
        rfl
      · have hne : engineEvents e.sampleRate evs ≠ [] := fun h => hnil (List.map_eq_nil_iff.mp h)
        rw [if_neg hnil, if_neg hne, MatrixClip.syncAudioEventsToEngine, hcontent]
        simp only [deliverPads_setClipEvents, (e.addClip_frame c).2]
    unfold registerClip
    rw [hcontent, deliverPads_append]
    simp only [hfirst]
    rfl

/-- Registering an audio clip: the engine's clip of the cell has its events and its loop, and the other
cells are as they were. -/
theorem register_audio {e : AudioEngine ν} {disk : Disk} (bpm : ℚ) {g : MatrixClip} {track scene : ℕ}
    (hopens : (disk g.path).isSome) (haddr : e.Addresses g.id track scene)
    (hmidi : g.isMidi = false) :
    ∃ c d, AudioEngine.key c = (g.id, track, scene, true) ∧ Plays e.sampleRate bpm g d ∧
      (∀ t s, (deliverPads disk.files e (registerClip bpm g track scene)).cell? t s =
        if t = track ∧ s = scene then some d else e.cell? t s) ∧
      (deliverPads disk.files e (registerClip bpm g track scene)).clips.map AudioEngine.key =
        (e.addClip c).clips.map AudioEngine.key := by
  obtain ⟨w, hw⟩ := Option.isSome_iff_exists.mp hopens
  let c := e.clipInstance g.id track scene (w.decoded.atRate e.sampleRate) 0 0 0 w.channels true
  let events := engineEvents e.sampleRate g.audioEvents
  let loaded := if events = [] then e.addClip c else (e.addClip c).setClipEvents track scene events
  obtain ⟨d, hmatrix, hevents, hcell, hkeys⟩ :=
    loadWithEvents (c := c) loaded haddr rfl rfl events rfl
  have hrate : loaded.sampleRate = e.sampleRate := by
    simp only [loaded]
    split <;> exact (e.addClip_frame c).2
  have hrun : deliverPads disk.files e (registerClip bpm g track scene) =
      loaded.setClipLoop track scene (ticksToSecsPrecise g.loopStart ppqn bpm)
        (ticksToSecsPrecise g.loopEnd ppqn bpm) g.loopEnabled :=
    deliverPads_registerClip e bpm hw hmidi track scene
  have hloop := AudioClip.loopRegion_setLoop (loopFrames e.sampleRate bpm g.loopStart)
    (loopFrames e.sampleRate bpm g.loopEnd) g.loopEnabled d
  obtain ⟨hev, hflag, _⟩ := AudioClip.setLoop_frame (loopFrames e.sampleRate bpm g.loopStart)
    (loopFrames e.sampleRate bpm g.loopEnd) g.loopEnabled d
  refine ⟨c, d.setLoop (loopFrames e.sampleRate bpm g.loopStart)
    (loopFrames e.sampleRate bpm g.loopEnd) g.loopEnabled, rfl, ⟨?_, ?_, ?_⟩, ?_, ?_⟩
  · exact hflag.trans hmatrix
  · exact hev.trans hevents
  · rw [AudioClip.naturalFrames_setLoop]
    exact hloop
  · intro t s
    rw [hrun, AudioEngine.cell?_setClipLoop, hcell, hcell, hrate]
    split
    · rw [if_pos ⟨rfl, rfl⟩]
      rfl
    · rename_i hne
      exact if_neg hne
  · rw [hrun, AudioEngine.keys_setClipLoop]
    exact hkeys

/-- A slot without audio on disk registers at most its events, its notes and a loop. -/
theorem register_silent (e : AudioEngine ν) {disk : Disk} (bpm : ℚ) {slot : MatrixSlot}
    (h : ∀ g, slot.audio? = some g → disk g.path = none) (track scene : ℕ) :
    (∀ t s, ¬ (t = track ∧ s = scene) →
      (deliverPads disk.files e (registerSlot bpm slot track scene)).cell? t s = e.cell? t s) ∧
    (deliverPads disk.files e (registerSlot bpm slot track scene)).clips.map AudioEngine.key =
      e.clips.map AudioEngine.key := by
  have hloop : ∀ (e' : AudioEngine ν) startSecs endSecs enabled,
      (∀ t s, ¬ (t = track ∧ s = scene) → e'.cell? t s = e.cell? t s) →
      e'.clips.map AudioEngine.key = e.clips.map AudioEngine.key →
      (∀ t s, ¬ (t = track ∧ s = scene) →
        (e'.setClipLoop track scene startSecs endSecs enabled).cell? t s = e.cell? t s) ∧
      (e'.setClipLoop track scene startSecs endSecs enabled).clips.map AudioEngine.key =
        e.clips.map AudioEngine.key := by
    intro e' startSecs endSecs enabled hcells hkeys
    refine ⟨?_, (AudioEngine.keys_setClipLoop e' track scene _ _ _).trans hkeys⟩
    intro t s hne
    rw [AudioEngine.cell?_setClipLoop, if_neg hne]
    exact hcells t s hne
  unfold registerSlot
  cases hclip : slot.clip with
  | none => exact ⟨fun _ _ _ => rfl, rfl⟩
  | some g =>
    cases hcontent : g.content with
    | midi notes =>
      simp only [registerClip, hcontent]
      exact hloop e _ _ _ (fun _ _ _ => rfl) rfl
    | audio events nextEventId =>
      have hmidi : g.isMidi = false := by rw [MatrixClip.isMidi, hcontent]
      have hgone := h g (by rw [MatrixSlot.audio?, hclip]; exact filter_audio hmidi)
      have hload : PadCommand.run disk.files e (.loadClip g.id g.path track scene) = e := by
        rw [PadCommand.run, Disk.files, hgone]
        rfl
      simp only [registerClip, hcontent, MatrixClip.syncAudioEventsToEngine, deliverPads_append,
        deliverPads_cons, hload]
      by_cases hnil : events = []
      · rw [if_pos hnil]
        exact hloop e _ _ _ (fun _ _ _ => rfl) rfl
      · rw [if_neg hnil]
        refine hloop _ _ _ _ ?_ (AudioEngine.keys_setClipEvents e track scene _)
        intro t s hne
        exact (AudioEngine.cell?_setClipEvents e track scene _ t s).trans (if_neg hne)

/-- The slots that are registered, with one more, are those of the matrix. -/
theorem Registered.cells_append {next : SessionMatrixState} {disk : Disk} {bpm : ℚ} {P : ℕ → ℕ → Prop}
    {done : List (ℕ × ℕ × MatrixSlot)} {e : AudioEngine ν} (h : Registered next disk bpm P done e)
    {track scene : ℕ} {slot : MatrixSlot} (hcell : next.slot? track scene = some slot) (t s : ℕ)
    (slot' : MatrixSlot) (hmem : (t, s, slot') ∈ done ++ [(track, scene, slot)]) :
    next.slot? t s = some slot' := by
  obtain hmem | hmem := List.mem_append.mp hmem
  · exact h.cells t s slot' hmem
  · obtain ⟨rfl, rfl, rfl⟩ : t = track ∧ s = scene ∧ slot' = slot := by simpa using hmem
    exact hcell

theorem Registered.silent {next : SessionMatrixState} {disk : Disk} {bpm : ℚ} {P : ℕ → ℕ → Prop}
    {done : List (ℕ × ℕ × MatrixSlot)} {e : AudioEngine ν} (h : Registered next disk bpm P done e)
    {track scene : ℕ} {slot : MatrixSlot} (hcell : next.slot? track scene = some slot)
    (hslot : ∀ g, slot.audio? = some g → disk g.path = none) :
    Registered next disk bpm P (done ++ [(track, scene, slot)])
      (deliverPads disk.files e (registerSlot bpm slot track scene)) := by
  have hframe := deliverPads_frame disk.files e (registerSlot bpm slot track scene)
  obtain ⟨hother, hkeys⟩ := register_silent e bpm hslot track scene
  refine ⟨h.cells_append hcell, ?_, only_of_keys h.only hkeys, ?_⟩
  · intro t s slot' g hmem hg hopens
    have hne : ¬ (t = track ∧ s = scene) := by
      rintro ⟨rfl, rfl⟩
      have hsame := (h.cells_append hcell t s slot' hmem).symm.trans hcell
      rw [Option.some.inj hsame] at hg
      rw [hslot g hg] at hopens
      exact absurd hopens (by simp)
    obtain hmem | hmem := List.mem_append.mp hmem
    · rw [hother t s hne, hframe.2]
      exact h.backed t s slot' g hmem hg hopens
    · obtain ⟨rfl, rfl, rfl⟩ : t = track ∧ s = scene ∧ slot' = slot := by simpa using hmem
      exact absurd ⟨rfl, rfl⟩ hne
  · exact fun t s g hg => (h.addresses t s g hg).of_keys hframe.1 hkeys

theorem Registered.audio {next : SessionMatrixState} {disk : Disk} {bpm : ℚ} {P : ℕ → ℕ → Prop}
    {done : List (ℕ × ℕ × MatrixSlot)} {e : AudioEngine ν} (h : Registered next disk bpm P done e)
    {track scene : ℕ} {slot : MatrixSlot} (hcell : next.slot? track scene = some slot)
    {g : MatrixClip} (hslot : slot.audio? = some g) (hopens : (disk g.path).isSome)
    (hP : ∀ t s g, next.audio? t s = some g → P t s)
    (hids : e.mode = .openLive ∨ ∀ t s g t' s' g', next.audio? t s = some g →
      next.audio? t' s' = some g' → g.id = g'.id → t = t' ∧ s = s') :
    Registered next disk bpm P (done ++ [(track, scene, slot)])
      (deliverPads disk.files e (registerSlot bpm slot track scene)) := by
  have hg : next.audio? track scene = some g := by
    rw [audio?, hcell]
    exact hslot
  obtain ⟨hclip, hmidi⟩ := Option.filter_eq_some_iff.mp hslot
  have hmidi : g.isMidi = false := by simpa using hmidi
  have hsends : registerSlot bpm slot track scene = registerClip bpm g track scene := by
    rw [registerSlot, hclip]
  have hframe := deliverPads_frame disk.files e (registerClip bpm g track scene)
  rw [hsends]
  obtain ⟨c, d, hkey, hplays, hat, hkeys⟩ :=
    register_audio bpm hopens (h.addresses track scene g hg) hmidi
  obtain ⟨hid, htrack, hscene, _⟩ : c.id = g.id ∧ c.trackIndex = track ∧ c.sceneIndex = scene ∧
      c.isMatrixClip = true := by simpa [AudioEngine.key] using hkey
  refine ⟨h.cells_append hcell, ?_, ?_, ?_⟩
  · intro t s slot' g' hmem hg' hopens'
    rw [hat, hframe.2]
    obtain hmem | hmem := List.mem_append.mp hmem
    · split
      · rename_i hhere
        rw [hhere.1, hhere.2] at hmem
        have hsame := (h.cells track scene slot' hmem).symm.trans hcell
        rw [Option.some.inj hsame, hslot] at hg'
        rw [← Option.some.inj hg']
        exact ⟨d, rfl, hplays⟩
      · exact h.backed t s slot' g' hmem hg' hopens'
    · obtain ⟨rfl, rfl, rfl⟩ : t = track ∧ s = scene ∧ slot' = slot := by simpa using hmem
      rw [hslot] at hg'
      rw [if_pos ⟨rfl, rfl⟩, ← Option.some.inj hg']
      exact ⟨d, rfl, hplays⟩
  · refine only_of_keys ?_ hkeys
    intro x hx hmatrix
    obtain rfl | hx := AudioEngine.mem_addClip hx
    · rw [htrack, hscene]
      exact hP track scene g hg
    · exact h.only x hx hmatrix
  · intro t s g' hg'
    refine AudioEngine.Addresses.of_keys (e := e.addClip c) ?_
      (hframe.1.trans (e.addClip_frame c).1.symm) hkeys
    obtain hlive | hids := hids
    · exact Or.inl ((e.addClip_frame c).1.trans hlive)
    · obtain hlive | hold := h.addresses t s g' hg'
      · exact Or.inl ((e.addClip_frame c).1.trans hlive)
      · refine Or.inr fun x hx => ?_
        obtain rfl | hx := AudioEngine.mem_addClip hx
        · rw [hid, htrack, hscene]
          constructor
          · exact hids track scene g t s g' hg hg'
          · rintro ⟨rfl, rfl⟩
            rw [Option.some.inj (hg.symm.trans hg')]
        · exact hold x hx

theorem Registered.all {next : SessionMatrixState} {disk : Disk} {bpm : ℚ} {P : ℕ → ℕ → Prop}
    (hP : ∀ t s g, next.audio? t s = some g → P t s)
    {done todo : List (ℕ × ℕ × MatrixSlot)} {e : AudioEngine ν}
    (h : Registered next disk bpm P done e)
    (htodo : ∀ t s slot, (t, s, slot) ∈ todo → next.slot? t s = some slot)
    (hids : e.mode = .openLive ∨ ∀ t s g t' s' g', next.audio? t s = some g →
      next.audio? t' s' = some g' → g.id = g'.id → t = t' ∧ s = s') :
    Registered next disk bpm P (done ++ todo) (deliverPads disk.files e
      (todo.flatMap fun cell => registerSlot bpm cell.2.2 cell.1 cell.2.1)) := by
  induction todo generalizing done e with
  | nil =>
    rw [List.append_nil]
    exact h
  | cons cell todo ih =>
    obtain ⟨track, scene, slot⟩ := cell
    have hcell := htodo track scene slot List.mem_cons_self
    have hstep : Registered next disk bpm P (done ++ [(track, scene, slot)])
        (deliverPads disk.files e (registerSlot bpm slot track scene)) := by
      by_cases hopens : ∃ g, slot.audio? = some g ∧ (disk g.path).isSome
      · obtain ⟨g, hslot, hopens⟩ := hopens
        exact h.audio hcell hslot hopens hP hids
      · refine h.silent hcell fun g hg => ?_
        rw [← Option.not_isSome_iff_eq_none]
        exact fun hsome => hopens ⟨g, hg, hsome⟩
    obtain ⟨hmode, _⟩ := deliverPads_frame disk.files e (registerSlot bpm slot track scene)
    rw [List.flatMap_cons, deliverPads_append, List.append_cons]
    refine ih hstep (fun t s slot' hmem => htodo t s slot' (List.mem_cons_of_mem _ hmem)) ?_
    rw [hmode]
    exact hids

/-- A whole matrix registered: its clips that are on disk are in the engine. -/
theorem registered_registerCommands (disk : Disk) {m : SessionMatrixState} (bpm : ℚ)
    {P : ℕ → ℕ → Prop} (hP : ∀ t s g, m.audio? t s = some g → P t s) {e : AudioEngine ν}
    (honly : ∀ c ∈ e.clips, c.isMatrixClip = true → P c.trackIndex c.sceneIndex)
    (haddr : ∀ t s g, m.audio? t s = some g → e.Addresses g.id t s)
    (hids : e.mode = .openLive ∨ ∀ t s g t' s' g', m.audio? t s = some g →
      m.audio? t' s' = some g' → g.id = g'.id → t = t' ∧ s = s') :
    Registered m disk bpm P (cells m.grid) (deliverPads disk.files e (m.registerCommands bpm)) := by
  have hstart : Registered m disk bpm P [] e := by
    refine ⟨?_, ?_, honly, haddr⟩
    · intro t s slot hmem
      exact absurd hmem (by simp)
    · intro t s slot g hmem
      exact absurd hmem (by simp)
  rw [registerCommands_eq]
  exact hstart.all hP (fun t s slot hmem => mem_cells.mp hmem) hids

/-- An applied project leaves the engine with the clips of the new matrix. -/
theorem mirrors_apply {disk : Disk} {baseDir : Option String} {bpm : ℚ} {saved : OpenLiveFile.Matrix}
    {e : AudioEngine ν} (hok : ApplyOk disk e (appliedMatrix disk baseDir saved)) :
    Mirrors (applyMatrix disk baseDir bpm saved).1.matrix
      (deliverPads disk.files e (applyMatrix disk baseDir bpm saved).2) bpm := by
  have hall := registered_registerCommands disk bpm
    (P := fun t s => ((appliedMatrix disk baseDir saved).audio? t s).isSome)
    (fun t s g hg => by rw [hg]; rfl) hok.covers hok.addresses hok.ids
  refine ⟨?_, hall.only⟩
  intro t s g hg
  obtain ⟨slot, hslot, haudio⟩ := Option.bind_eq_some_iff.mp hg
  exact hall.backed t s slot g (mem_cells.mpr hslot) haudio (hok.opens t s g hg)

end HikaruOpenLive.Gui
