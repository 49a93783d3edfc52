import HikaruOpenLive.Gui.PadDrops

/-! # Runs of drops and reloads on a pad

The pad's clip in the GUI and in the engine after every drop and every reload of the project, as long as no
file is dropped on a pad whose first file is still outside its events.
-/
set_option autoImplicit false

namespace HikaruOpenLive.Gui

open Engine Foundations.Grid Foundations.Runs SessionMatrixState

variable {ν : Type}

/-- The engine's clip has the pad's content: its events, or its one file. -/
structure PadSounds (disk : Disk) (sr : ℚ) (g : MatrixClip) (c : AudioClip) : Prop where
  events : c.events = engineEvents sr g.audioEvents
  file : g.audioEvents = [] → ∀ w, disk g.path = some w → c.samples = w.decoded.atRate sr

/-- The matrix, the engine with all commands carried out, and the files dropped so far. -/
structure DropSession (ν : Type) where
  matrix : SessionMatrixState
  engine : AudioEngine ν
  paths : List String

inductive DropAct where
  | drop (path : String)
  | reload (baseDir : Option String) (bpm : ℚ)

namespace DropSession

variable (disk : Disk) (track scene : ℕ)

def act (d : DropSession ν) : DropAct → Option (DropSession ν)
  | .drop path =>
    if isReadable disk path then
      (d.matrix.loadClipIntoSlot disk track scene path).map fun r =>
        { matrix := r.1, engine := deliverPads disk.files d.engine r.2, paths := d.paths ++ [path] }
    else some d
  | .reload baseDir bpm =>
    let r := applyMatrix disk baseDir bpm (captureMatrix d.matrix)
    some { d with matrix := r.1.matrix, engine := deliverPads disk.files d.engine r.2 }

def step (d : Option (DropSession ν)) (a : DropAct) : Option (DropSession ν) :=
  d.bind fun d => d.act disk track scene a

/-- The pad has the files dropped on it end to end, in the GUI and in the engine. -/
def Complete (d : DropSession ν) : Prop :=
  d.paths ≠ [] → ∃ g c, d.matrix.audio? track scene = some g ∧ OnPad disk d.paths g ∧
    d.engine.cell? track scene = some c ∧ PadSounds disk d.engine.sampleRate g c

/-- What the pad is like between the steps. -/
structure Held (d : DropSession ν) : Prop where
  trackShown : track < d.matrix.tracks.length
  sceneShown : scene < d.matrix.scenes.length
  slot : (d.matrix.slot? track scene).isSome
  readable : ∀ path ∈ d.paths, isReadable disk path = true
  empty : d.paths = [] → d.matrix.clip? track scene = none
  pad : d.paths ≠ [] → ∃ g c, d.matrix.audio? track scene = some g ∧ Dropped disk d.paths g ∧
    d.engine.cell? track scene = some c ∧ PadSounds disk d.engine.sampleRate g c

theorem Held.complete {d : DropSession ν} (h : d.Held disk track scene) :
    d.Complete disk track scene := by
  intro hpaths
  obtain ⟨g, c, hg, hdropped, hc, hsounds⟩ := h.pad hpaths
  exact ⟨g, c, hg, hdropped.onPad, hc, hsounds⟩

/-- The condition: a further file comes on a pad that has events; and outside OpenLive the ids of the clips
to be loaded mean their cells. -/
def Allowed (d : DropSession ν) : DropAct → Prop
  | .drop path => isReadable disk path = true →
    match d.matrix.audio? track scene with
    | none => d.engine.Addresses d.matrix.nextClipId track scene
    | some g => g.audioEvents ≠ []
  | .reload baseDir _ =>
    let next := appliedMatrix disk baseDir (captureMatrix d.matrix)
    d.engine.mode = .openLive ∨
      (∀ t s g, next.audio? t s = some g → d.engine.Addresses g.id t s) ∧
        ∀ t s g t' s' g', next.audio? t s = some g → next.audio? t' s' = some g' → g.id = g'.id →
          t = t' ∧ s = s'

theorem slot?_of_writeSlot {m m' : SessionMatrixState} {track scene : ℕ} {slot : MatrixSlot}
    (h : m.writeSlot track scene slot = some m') :
    m'.tracks = m.tracks ∧ m'.scenes = m.scenes ∧ m'.slot? track scene = some slot := by
  obtain ⟨old, hold, rfl⟩ := Option.map_eq_some_iff.mp h
  refine ⟨rfl, rfl, ?_⟩
  rw [slot?_modifySlot, if_pos ⟨rfl, rfl⟩, hold]
  rfl

/-- A file dropped on a pad without a clip: the pad's new clip, and the engine's of the whole file. -/
structure FirstDrop (d : DropSession ν) (path : String) (w : WavFile) (d' : DropSession ν) : Prop where
  tracks : d'.matrix.tracks = d.matrix.tracks
  scenes : d'.matrix.scenes = d.matrix.scenes
  slot : d'.matrix.slot? track scene = some
    ⟨.stopped, some (.ofFile d.matrix.nextClipId path (.audio [] 1) w.duration)⟩
  cell : d'.engine.cell? track scene = some (d.engine.clipInstance d.matrix.nextClipId track scene
    (w.decoded.atRate d.engine.sampleRate) 0 0 0 w.channels true)
  rate : d'.engine.sampleRate = d.engine.sampleRate
  paths : d'.paths = d.paths ++ [path]

theorem act_dropFirst {d d' : DropSession ν} {path : String} (hread : isReadable disk path = true)
    (hclip : d.matrix.clip? track scene = none) {w : WavFile} (hw : disk path = some w)
    (hok : d.Allowed disk track scene (.drop path))
    (hact : d.act disk track scene (.drop path) = some d') : FirstDrop track scene d path w d' := by
  obtain ⟨_, hmidi, _⟩ := isReadable_iff.mp hread
  have haddr : d.engine.Addresses d.matrix.nextClipId track scene := by
    have hcond := hok hread
    rw [audio?_eq, hclip] at hcond
    exact hcond
  simp only [act, hread, if_true] at hact
  obtain ⟨r, hload, rfl⟩ := Option.map_eq_some_iff.mp hact
  unfold loadClipIntoSlot at hload
  simp only [hmidi] at hload
  rw [if_neg (by simp), hclip, Option.filter_none] at hload
  obtain ⟨m', hwrite, rfl⟩ := Option.map_eq_some_iff.mp hload
  obtain ⟨htracks, hscenes, hslot⟩ := slot?_of_writeSlot hwrite
  let c := d.engine.clipInstance d.matrix.nextClipId track scene
    (w.decoded.atRate d.engine.sampleRate) 0 0 0 w.channels true
  have hrun : deliverPads disk.files d.engine [.loadClip d.matrix.nextClipId path track scene] =
      d.engine.addClip c := by
    rw [deliverPads_cons, deliverPads_nil, PadCommand.run, Disk.files, hw]
    rfl
  rw [hw] at hslot
  refine ⟨htracks, hscenes, hslot, ?_, ?_, rfl⟩
  · simp only
    rw [hrun, AudioEngine.cell?_addClip haddr, if_pos ⟨rfl, rfl⟩]
  · simp only
    rw [hrun, (d.engine.addClip_frame c).2]

theorem Held.dropFirst {d : DropSession ν} (h : d.Held disk track scene) (hpaths : d.paths = [])
    {path : String} (hread : isReadable disk path = true)
    (hok : d.Allowed disk track scene (.drop path)) {d' : DropSession ν}
    (hact : d.act disk track scene (.drop path) = some d') : d'.Held disk track scene := by
  obtain ⟨hdecode, _, _⟩ := isReadable_iff.mp hread
  obtain ⟨w, hw⟩ : ∃ w, disk path = some w := by
    obtain ⟨decoded, hdecode⟩ := Option.isSome_iff_exists.mp hdecode
    obtain ⟨w, hw, _⟩ := Option.bind_eq_some_iff.mp hdecode
    exact ⟨w, hw⟩
  have hfirst := act_dropFirst disk track scene hread (h.empty hpaths) hw hok hact
  have hpath : d'.paths = [path] := by rw [hfirst.paths, hpaths, List.nil_append]
  refine ⟨?_, ?_, ?_, ?_, ?_, ?_⟩
  · rw [hfirst.tracks]
    exact h.trackShown
  · rw [hfirst.scenes]
    exact h.sceneShown
  · rw [hfirst.slot]
    rfl
  · intro p hp
    rw [hpath] at hp
    rw [List.mem_singleton.mp hp]
    exact hread
  · intro hnil
    rw [hpath] at hnil
    exact absurd hnil (List.cons_ne_nil path [])
  · intro _
    rw [hpath, hfirst.rate]
    refine ⟨.ofFile d.matrix.nextClipId path (.audio [] 1) w.duration, _, ?_,
      ⟨⟨Or.inl ⟨rfl, rfl⟩, List.nodup_nil⟩, rfl, rfl, ?_⟩, hfirst.cell, rfl, ?_⟩
    · rw [audio?, hfirst.slot]
      rfl
    · intro e he
      exact absurd he List.not_mem_nil
    · intro _ w' hw'
      have hsame : w' = w := Option.some.inj (hw'.symm.trans hw)
      rw [hsame]
      rfl

theorem Held.dropFurther {d : DropSession ν} (h : d.Held disk track scene) (hpaths : d.paths ≠ [])
    {path : String} (hread : isReadable disk path = true)
    (hok : d.Allowed disk track scene (.drop path)) {d' : DropSession ν}
    (hact : d.act disk track scene (.drop path) = some d') : d'.Held disk track scene := by
  obtain ⟨hdecode, hmidi, _⟩ := isReadable_iff.mp hread
  obtain ⟨g, c, hg, hdropped, hc, hsounds⟩ := h.pad hpaths
  have hevents : g.audioEvents ≠ [] := by
    have hcond := hok hread
    rw [hg] at hcond
    exact hcond
  obtain ⟨hdropped', hcmds, hne⟩ := hdropped.append hevents hdecode track scene
  simp only [act, hread, if_true] at hact
  obtain ⟨r, hload, rfl⟩ := Option.map_eq_some_iff.mp hact
  unfold loadClipIntoSlot at hload
  simp only [hmidi] at hload
  rw [if_neg (by simp), ← audio?_eq, hg] at hload
  rw [← Option.some.inj hload]
  let appended := (g.appendSampleAsEvent disk track scene path).1
  obtain ⟨slot, hslot⟩ := Option.isSome_iff_exists.mp h.slot
  have hnew : (({ d.matrix with nextClipId := d.matrix.nextClipId + 1 } :
      SessionMatrixState).modifySlot track scene fun slot => { slot with clip := some appended }).slot?
        track scene = some { slot with clip := some appended } := by
    rw [slot?_modifySlot, if_pos ⟨rfl, rfl⟩]
    have hold : ({ d.matrix with nextClipId := d.matrix.nextClipId + 1 } :
      SessionMatrixState).slot? track scene = some slot := hslot
    rw [hold]
    rfl
  have hrun : deliverPads disk.files d.engine (g.appendSampleAsEvent disk track scene path).2 =
      d.engine.setClipEvents track scene (engineEvents d.engine.sampleRate appended.audioEvents) := by
    rw [hcmds, deliverPads_setClipEvents]
  refine ⟨h.trackShown, h.sceneShown, ?_, ?_, ?_, ?_⟩
  · rw [hnew]
    rfl
  · intro p hp
    obtain hp | hp := List.mem_append.mp hp
    · exact h.readable p hp
    · rw [List.mem_singleton.mp hp]
      exact hread
  · intro hnil
    exact absurd hnil (by simp)
  · intro _
    refine ⟨appended, c.setEvents (engineEvents d.engine.sampleRate appended.audioEvents), ?_,
      hdropped', ?_, ?_, ?_⟩
    · rw [audio?, hnew]
      exact filter_audio hdropped'.audio
    · simp only [hrun]
      rw [AudioEngine.cell?_setClipEvents, if_pos ⟨rfl, rfl⟩, hc]
      rfl
    · simp only [hrun]
      exact (AudioClip.setEvents_frame _ c).1
    · exact fun hnil => absurd hnil hne

/-- The pad's clip and the engine's once the project is saved and applied again. -/
theorem act_reload {d d' : DropSession ν} {baseDir : Option String} {bpm : ℚ}
    (htrack : track < d.matrix.tracks.length) (hscene : scene < d.matrix.scenes.length)
    (hok : d.Allowed disk track scene (.reload baseDir bpm))
    (hact : d.act disk track scene (.reload baseDir bpm) = some d') {g : MatrixClip}
    (hg : d.matrix.clip? track scene = some g)
    (hmidi : (buildClip disk baseDir (captureClip g)).isMidi = false)
    (hopens : (disk (buildClip disk baseDir (captureClip g)).path).isSome) :
    d'.matrix.audio? track scene = some (buildClip disk baseDir (captureClip g)) ∧
      ∃ c, d'.engine.cell? track scene = some c ∧
        Plays d'.engine.sampleRate bpm (buildClip disk baseDir (captureClip g)) c := by
  let next := appliedMatrix disk baseDir (captureMatrix d.matrix)
  have hslot := slot?_reapplied disk baseDir d.matrix htrack hscene
  obtain ⟨slot, hold, hclip⟩ := Option.bind_eq_some_iff.mp hg
  rw [hold, Option.map_some, hclip] at hslot
  have haddr : ∀ t s g, next.audio? t s = some g → d.engine.Addresses g.id t s := by
    obtain hlive | ⟨haddr, _⟩ := hok
    · exact fun _ _ _ _ => Or.inl hlive
    · exact haddr
  have hregistered := registered_registerCommands disk bpm (P := fun _ _ => True)
    (fun _ _ _ _ => trivial) (fun _ _ _ => trivial) haddr (hok.imp_right fun h => h.2)
  have haudio : MatrixSlot.audio? ⟨SlotState.stopped,
      some (buildClip disk baseDir (captureClip g))⟩ = some (buildClip disk baseDir (captureClip g)) :=
    filter_audio hmidi
  obtain ⟨c, hc, hplays⟩ := hregistered.backed track scene _ _ (mem_cells.mpr hslot) haudio hopens
  have hnew : next.audio? track scene = some (buildClip disk baseDir (captureClip g)) := by
    rw [audio?, hslot, Option.bind_some]
    exact haudio
  rw [← Option.some.inj hact]
  exact ⟨hnew, c, hc, hplays⟩

theorem act_reload_rate {d d' : DropSession ν} {baseDir : Option String} {bpm : ℚ}
    (hact : d.act disk track scene (.reload baseDir bpm) = some d') :
    d'.engine.sampleRate = d.engine.sampleRate := by
  rw [← Option.some.inj hact]
  exact (deliverPads_frame disk.files d.engine _).2

theorem Held.reload {d : DropSession ν} (h : d.Held disk track scene) {baseDir : Option String}
    {bpm : ℚ} (hok : d.Allowed disk track scene (.reload baseDir bpm)) {d' : DropSession ν}
    (hact : d.act disk track scene (.reload baseDir bpm) = some d') : d'.Held disk track scene := by
  have hslot := slot?_reapplied disk baseDir d.matrix h.trackShown h.sceneShown
  obtain ⟨slot, hold⟩ := Option.isSome_iff_exists.mp h.slot
  rw [hold, Option.map_some] at hslot
  have hreload := fun {g} => act_reload disk track scene h.trackShown h.sceneShown hok hact (g := g)
  rw [← Option.some.inj hact] at hreload ⊢
  refine ⟨h.trackShown, h.sceneShown, ?_, h.readable, ?_, ?_⟩
  · exact Option.isSome_iff_exists.mpr ⟨_, hslot⟩
  · intro hnil
    have hclip := h.empty hnil
    rw [clip?, hold, Option.bind_some] at hclip
    have hnew : (appliedMatrix disk baseDir (captureMatrix d.matrix)).clip? track scene = none := by
      rw [clip?, hslot, Option.bind_some, hclip]
      rfl
    exact hnew
  · intro hpaths
    obtain ⟨g, c, hg, hdropped, _⟩ := h.pad hpaths
    rw [audio?_eq] at hg
    obtain ⟨hclip, _⟩ := Option.filter_eq_some_iff.mp hg
    obtain ⟨hdropped', hne⟩ := hdropped.reapplied h.readable baseDir
    have hopens : (disk (buildClip disk baseDir (captureClip g)).path).isSome := by
      have hmem := List.mem_of_head? hdropped'.first
      obtain ⟨decoded, hdecode⟩ :=
        Option.isSome_iff_exists.mp (isReadable_iff.mp (h.readable _ hmem)).1
      obtain ⟨w, hw, _⟩ := Option.bind_eq_some_iff.mp hdecode
      rw [hw]
      rfl
    obtain ⟨hnew, c', hc', hplays⟩ := hreload hclip hdropped'.audio hopens
    exact ⟨_, c', hnew, hdropped', hc', hplays.events, fun hnil => absurd hnil hne⟩

/-! ## Runs -/

def PadComplete (d : Option (DropSession ν)) : Prop :=
  ∀ d', d = some d' → d'.Complete disk track scene

def AllowedStep (d : Option (DropSession ν)) (a : DropAct) : Prop :=
  ∀ d', d = some d' → d'.Allowed disk track scene a

def AllHeld (d : Option (DropSession ν)) : Prop :=
  ∀ d', d = some d' → d'.Held disk track scene

theorem allHeld_step (d : Option (DropSession ν)) (a : DropAct) (h : AllHeld disk track scene d)
    (hok : AllowedStep disk track scene d a) : AllHeld disk track scene (step disk track scene d a) := by
  intro d' hd'
  obtain ⟨d₀, hd₀, hact⟩ := Option.bind_eq_some_iff.mp hd'
  have hheld := h d₀ hd₀
  have hallowed := hok d₀ hd₀
  cases a with
  | drop path =>
    by_cases hread : isReadable disk path = true
    · by_cases hpaths : d₀.paths = []
      · exact hheld.dropFirst disk track scene hpaths hread hallowed hact
      · exact hheld.dropFurther disk track scene hpaths hread hallowed hact
    · simp only [act, hread] at hact
      rw [← Option.some.inj hact]
      exact hheld
  | reload baseDir bpm => exact hheld.reload disk track scene hallowed hact

/-- Starting with an empty pad that is shown, however drops and reloads follow each other. -/
theorem always_padComplete {d : DropSession ν} (htrack : track < d.matrix.tracks.length)
    (hscene : scene < d.matrix.scenes.length) (hslot : (d.matrix.slot? track scene).isSome)
    (hempty : d.matrix.clip? track scene = none) (hpaths : d.paths = []) {acts : List DropAct}
    (hok : Along (step disk track scene) (AllowedStep disk track scene) (some d) acts) :
    Always (step disk track scene) (PadComplete disk track scene) (some d) acts := by
  have hfirst : AllHeld disk track scene (some d) := by
    intro d' hd'
    rw [← Option.some.inj hd']
    refine ⟨htrack, hscene, hslot, ?_, fun _ => hempty, fun hne => absurd hpaths hne⟩
    intro p hp
    rw [hpaths] at hp
    exact absurd hp List.not_mem_nil
  refine (always_of_along (allHeld_step disk track scene) hfirst hok).mono ?_
  exact fun d h d' hd' => (h d' hd').complete disk track scene

/-! ## Two files -/

def drumDisk : Disk := fun path =>
  if path = "/drums/kick.wav" then some ⟨.int 16 [1, 2, 3, 4], 1, 48000⟩
  else if path = "/drums/snare.wav" then some ⟨.int 16 [5, 6], 1, 48000⟩
  else none

def emptyPad : DropSession ℕ :=
  { matrix := SessionMatrixState.default, engine := (AudioEngine.new 48000).setMode .openLive
    paths := [] }

theorem always_padComplete_reloaded :
    Always (step drumDisk 0 0) (PadComplete drumDisk 0 0) (some emptyPad)
      [.drop "/drums/kick.wav", .reload none 120, .drop "/drums/snare.wav"] := by
  refine always_padComplete drumDisk 0 0 (by decide) (by decide) (by decide) (by decide) rfl
    ⟨?_, ?_, ?_, trivial⟩
  · intro d hd _
    rw [← Option.some.inj hd]
    have hfree : emptyPad.matrix.audio? 0 0 = none := by decide
    rw [hfree]
    exact Or.inl rfl
  · intro d hd
    have hlive : ((step drumDisk 0 0 (some emptyPad) (.drop "/drums/kick.wav")).map fun d =>
        d.engine.mode) = some .openLive := by decide +kernel
    rw [hd] at hlive
    exact Or.inl (Option.some.inj hlive)
  · intro d hd _
    have hevents : ((step drumDisk 0 0 (step drumDisk 0 0 (some emptyPad) (.drop "/drums/kick.wav"))
        (.reload none 120)).map fun d =>
          (d.matrix.audio? 0 0).map fun g => g.audioEvents.isEmpty) = some (some false) := by
      decide +kernel
    rw [hd, Option.map_some] at hevents
    obtain ⟨g, hg, hne⟩ := Option.map_eq_some_iff.mp (Option.some.inj hevents)
    rw [hg]
    exact fun hnil => absurd hne (by simp [hnil])

theorem length_laid {disk : Disk} {at_ : ℚ} {paths : List String} {events : List AudioEvent}
    (h : LaidFrom disk at_ paths events) : events.length = paths.length := by
  induction paths generalizing at_ events with
  | nil =>
    cases events with
    | nil => rfl
    | cons e events => exact h.elim
  | cons path paths ih =>
    cases events with
    | nil => exact h.elim
    | cons e events => rw [List.length_cons, List.length_cons, ih h.2]

/-- Two files dropped one after the other: the pad is left with the second alone. -/
theorem not_always_padComplete_two_drops :
    ¬ ∀ acts, Always (step drumDisk 0 0) (PadComplete drumDisk 0 0) (some emptyPad) acts := by
  intro h
  have hcomplete := (h [.drop "/drums/kick.wav", .drop "/drums/snare.wav"]).final
  have hstate : (([.drop "/drums/kick.wav", .drop "/drums/snare.wav"].foldl (step drumDisk 0 0)
      (some emptyPad)).map fun d =>
        (d.paths.length, (d.matrix.audio? 0 0).map fun g => g.audioEvents.length)) =
      some (2, some 1) := by decide +kernel
  obtain ⟨d, hd, hboth⟩ := Option.map_eq_some_iff.mp hstate
  obtain ⟨htwo, hone⟩ := Prod.mk.inj hboth
  have hne : d.paths ≠ [] := by
    intro hnil
    rw [hnil] at htwo
    exact absurd htwo (by decide)
  obtain ⟨g, _, hg, hpad, _⟩ := hcomplete d hd hne
  rw [hg, Option.map_some] at hone
  have hone := Option.some.inj hone
  obtain ⟨hnil, _⟩ | hlaid := hpad.laid
  · rw [hnil] at hone
    exact absurd hone (by decide)
  · have hlen := length_laid hlaid
    omega

end DropSession

end HikaruOpenLive.Gui
