import HikaruOpenLive.Engine.ClipLists
import HikaruOpenLive.Gui.PadDelivery
import HikaruOpenLive.Gui.PlaylistDelivery

/-! # The clips of the matrix and those of the playlist

Both send their clips to the one list of the engine. The engine is run here beside two others: one that
gets the commands of the matrix alone and one that gets those of the playlist alone, besides the
switches of the mode and the commands about the transport. The clips are isolated if the engine has the clips of the two,
unchanged, and sounds in OpenStudio like the engine of the playlist and in OpenLive like that of the
matrix.

Neither holds of itself. Ids of both kinds start at one, and in OpenStudio a clip replaces one of the same
id, in OpenLive one of the same cell; and OpenStudio mixes every clip wherever it lies. `Allowed` says
what keeps them apart.
-/
set_option autoImplicit false

namespace HikaruOpenLive.Gui

open Engine Transport Foundations Foundations.Runs Foundations.ListEdits Foundations.Interleave

variable {ν β : Type}

inductive ClipCommand where
  | setAppMode (isStudio : Bool)
  | pad (cmd : PadCommand)
  | playlist (contended : Bool) (cmd : PlaylistCommand)

def PlaylistCommand.isAboutClips : PlaylistCommand → Bool
  | .loadClip .. | .updateClipBounds .. | .syncPlaylistClips .. => true
  | .stopPreview | .setBpm _ | .seek _ | .play | .pause => false

namespace ClipCommand

def run (files : Files) (e : AudioEngine ν) : ClipCommand → AudioEngine ν
  | .setAppMode isStudio => e.setMode (if isStudio then .openStudio else .openLive)
  | .pad cmd => cmd.run files e
  | .playlist contended cmd => cmd.run files contended e

def concernsPads : ClipCommand → Bool
  | .setAppMode _ | .pad _ => true
  | .playlist _ cmd => !cmd.isAboutClips

def concernsPlaylist : ClipCommand → Bool
  | .setAppMode _ | .playlist _ _ => true
  | .pad _ => false

end ClipCommand

structure EngineTrio (ν : Type) where
  engine : AudioEngine ν
  padsOnly : AudioEngine ν
  playlistOnly : AudioEngine ν

namespace EngineTrio

def step (files : Files) (d : EngineTrio ν) (cmd : ClipCommand) : EngineTrio ν :=
  { engine := cmd.run files d.engine
    padsOnly := if cmd.concernsPads then cmd.run files d.padsOnly else d.padsOnly
    playlistOnly := if cmd.concernsPlaylist then cmd.run files d.playlistOnly else d.playlistOnly }

def starting (e : AudioEngine ν) : EngineTrio ν :=
  ⟨e, e, e⟩

/-- The engine that has only the clips that the mode is about. -/
def heardOnly (d : EngineTrio ν) : AudioEngine ν :=
  match d.engine.mode with
  | .openStudio => d.playlistOnly
  | .openLive => d.padsOnly

/-- The engine has the clips of both as each alone would have them, and wherever the transport is, a
block is one of the clips that the mode is about. -/
def Isolated (host : PluginHost ν) (stage : OutputStage β) (d : EngineTrio ν) : Prop :=
  Interleave d.padsOnly.clips d.playlistOnly.clips d.engine.clips ∧
    ∀ t absoluteFrame n, ((d.engine.atTime t absoluteFrame).process host stage n).1 =
      ((d.heardOnly.atTime t absoluteFrame).process host stage n).1

/-- No command of one kind meets a clip of the other: a load none of the same id in OpenStudio or of the
same cell in OpenLive, an edit or a trigger none in its cell or scene. And whenever the mode is
OpenStudio, no clip of the matrix has anything to be heard. -/
def Allowed (files : Files) (d : EngineTrio ν) : ClipCommand → Prop
  | .setAppMode isStudio =>
    isStudio = true → ∀ c ∈ d.padsOnly.clips, c.Inaudible d.engine.mixer
  | .pad (.loadClip clipId path track scene) =>
    ∀ data ∈ files path,
      Misses (AudioClip.addressed d.engine.mode clipId track scene) d.playlistOnly.clips ∧
        (d.engine.mode = .openStudio →
          (d.engine.clipInstance clipId track scene (data.atRate d.engine.sampleRate) 0 0 0
            data.channels true).Inaudible d.engine.mixer)
  | .pad (.setClipEvents track scene _) | .pad (.setClipLoop track scene _ _ _)
  | .pad (.triggerClip track scene) => Misses (AudioClip.inCell track scene) d.playlistOnly.clips
  | .pad (.triggerScene scene) => ∀ c ∈ d.playlistOnly.clips, c.sceneIndex ≠ scene
  | .pad (.updateMidiClipNotes _ _ _) => True
  | .playlist _ (.loadClip clipId path _ _ _ track) =>
    (files path).isSome → Misses (AudioClip.addressed d.engine.mode clipId track 0) d.padsOnly.clips
  | .playlist _ (.updateClipBounds clipId track _ _ _) =>
    Misses (AudioClip.addressed d.engine.mode clipId track 0) d.padsOnly.clips
  | .playlist _ (.syncPlaylistClips clips) =>
    ∀ clip ∈ clips, (files clip.path).isSome →
      Misses (AudioClip.addressed d.engine.mode clip.clipId clip.trackIndex 0) d.padsOnly.clips
  | .playlist _ (.stopPreview) | .playlist _ (.setBpm _) | .playlist _ (.seek _)
  | .playlist _ (.play) | .playlist _ (.pause) => True

/-- What keeps the clips isolated. -/
structure Apart (d : EngineTrio ν) : Prop where
  pads : d.padsOnly = d.engine.withClips d.padsOnly.clips
  playlist : d.playlistOnly = d.engine.withClips d.playlistOnly.clips
  clips : Interleave d.padsOnly.clips d.playlistOnly.clips d.engine.clips
  flagged : ∀ c ∈ d.padsOnly.clips, c.isMatrixClip = true
  idle : ∀ c ∈ d.playlistOnly.clips, c.isPlaying = false
  quiet : d.engine.mode = .openStudio → ∀ c ∈ d.padsOnly.clips, c.Inaudible d.engine.mixer

end EngineTrio

/-! ## The commands of the matrix -/

section

variable {files : Files} {e : AudioEngine ν} {l r : List AudioClip}

open AudioEngine

theorem PadCommand.run_eq (files : Files) (e : AudioEngine ν) (cmd : PadCommand) :
    cmd.run files e = e.withClips (cmd.run files e).clips := by
  cases cmd with
  | loadClip clipId path trackIndex sceneIndex =>
    simp only [PadCommand.run]
    split
    · rw [addClip_eq]
      rfl
    · rfl
  | setClipEvents trackIdx sceneIdx events => rfl
  | setClipLoop trackIdx sceneIdx startSecs endSecs enabled => rfl
  | updateMidiClipNotes trackIdx sceneIdx notes => rfl
  | triggerClip trackIdx sceneIdx => rfl
  | triggerScene sceneIdx => rfl

/-- What a command of the matrix leaves of the clips it finds, and what it may add. -/
structure PadEdit (mx : Mixer) (mode : EngineMode) (l l' : List AudioClip) : Prop where
  flagged : (∀ c ∈ l, c.isMatrixClip = true) → ∀ c ∈ l', c.isMatrixClip = true
  quiet : mode = .openStudio → (∀ c ∈ l, c.Inaudible mx) → ∀ c ∈ l', c.Inaudible mx

theorem PadEdit.refl (mx : Mixer) (mode : EngineMode) (l : List AudioClip) : PadEdit mx mode l l :=
  ⟨fun h => h, fun _ h => h⟩

theorem PadEdit.updateFirst {f : AudioClip → AudioClip}
    (hf : ∀ c, (f c).isMatrixClip = c.isMatrixClip ∧ (f c).samples = c.samples ∧
      (f c).channels = c.channels ∧ (f c).trackIndex = c.trackIndex) (mx : Mixer) (mode : EngineMode)
    (p : AudioClip → Bool) (l : List AudioClip) : PadEdit mx mode l (ListEdits.updateFirst p f l) := by
  refine ⟨fun h c hc => ?_, fun _ h c hc => ?_⟩
  · obtain hc | ⟨d, hd, _, rfl⟩ := mem_updateFirst hc
    · exact h c hc
    · exact (hf d).1.trans (h d hd)
  · obtain hc | ⟨d, hd, _, rfl⟩ := mem_updateFirst hc
    · exact h c hc
    · obtain ⟨_, hsamples, hchannels, htrack⟩ := hf d
      exact (h d hd).of_fields hsamples hchannels htrack

theorem PadEdit.toggle {f : AudioClip → AudioClip} (hf : Toggles f) (mx : Mixer) (mode : EngineMode)
    (l : List AudioClip) : PadEdit mx mode l (l.map f) := by
  refine ⟨fun h c hc => ?_, fun _ h c hc => ?_⟩
  · obtain ⟨d, hd, rfl⟩ := List.mem_map.mp hc
    obtain ⟨_, _, _, _, hfd⟩ := hf d
    rw [hfd]
    exact h d hd
  · obtain ⟨d, hd, rfl⟩ := List.mem_map.mp hc
    obtain ⟨_, _, _, _, hfd⟩ := hf d
    rw [hfd]
    exact (h d hd).of_fields rfl rfl rfl

/-- A command of the matrix that meets no clip of the playlist does to the clips of both what it does to
its own. -/
theorem PadCommand.run_left {d : EngineTrio ν} {cmd : PadCommand} (h : d.Apart)
    (hallowed : d.Allowed files (.pad cmd)) :
    Interleave (cmd.run files (d.engine.withClips d.padsOnly.clips)).clips d.playlistOnly.clips
        (cmd.run files d.engine).clips ∧
      PadEdit d.engine.mixer d.engine.mode d.padsOnly.clips
        (cmd.run files (d.engine.withClips d.padsOnly.clips)).clips := by
  cases cmd with
  | loadClip clipId path track scene =>
    simp only [PadCommand.run]
    cases hfile : files path with
    | none => exact ⟨h.clips, PadEdit.refl _ _ _⟩
    | some data =>
      obtain ⟨hmiss, hsilent⟩ := hallowed data hfile
      let c := d.engine.clipInstance clipId track scene (data.atRate d.engine.sampleRate) 0 0 0
        data.channels true
      have hstored := storeClip_left (c := c) h.clips hmiss
      simp only [addClip_eq]
      refine ⟨hstored, fun hflagged b hb => ?_, fun hmode hquiet b hb => ?_⟩
      · obtain rfl | hb := mem_storeClip hb
        · rfl
        · exact hflagged b hb
      · obtain rfl | hb := mem_storeClip hb
        · exact hsilent hmode
        · exact hquiet b hb
  | setClipEvents track scene events =>
    refine ⟨h.clips.updateFirst_left _ hallowed, PadEdit.updateFirst (fun c => ?_) _ _ _ _⟩
    obtain ⟨_, hmatrix, hsamples, hchannels, _⟩ := AudioClip.setEvents_frame
      (events.map fun ev => ev.atRate d.engine.sampleRate) c
    exact ⟨hmatrix, hsamples, hchannels, (setEvents_fields _ c).2.2.1⟩
  | setClipLoop track scene startSecs endSecs enabled =>
    refine ⟨h.clips.updateFirst_left _ hallowed, PadEdit.updateFirst (fun c => ?_) _ _ _ _⟩
    obtain ⟨_, hmatrix, hsamples, hchannels, _⟩ := AudioClip.setLoop_frame
      ⌊max startSecs 0 * max d.engine.sampleRate 1⌋₊ ⌊max endSecs 0 * max d.engine.sampleRate 1⌋₊
      enabled c
    exact ⟨hmatrix, hsamples, hchannels, (setLoop_fields _ _ enabled c).2.2.1⟩
  | updateMidiClipNotes track scene notes => exact ⟨h.clips, PadEdit.refl _ _ _⟩
  | triggerClip track scene =>
    obtain ⟨f, hf, hclips⟩ := triggerClip_toggles (d.engine.withClips d.padsOnly.clips) track scene
    refine ⟨triggerClip_left h.clips h.idle hallowed, ?_⟩
    change PadEdit _ _ _ ((d.engine.withClips d.padsOnly.clips).triggerClip track scene).clips
    rw [hclips]
    exact PadEdit.toggle hf _ _ _
  | triggerScene scene =>
    obtain ⟨f, hf, hclips⟩ := triggerScene_toggles (d.engine.withClips d.padsOnly.clips) scene
    refine ⟨triggerScene_left h.clips h.idle hallowed, ?_⟩
    change PadEdit _ _ _ ((d.engine.withClips d.padsOnly.clips).triggerScene scene).clips
    rw [hclips]
    exact PadEdit.toggle hf _ _ _

/-! ## The commands of the playlist -/

/-- What a sync does to the clips. -/
def storeAll (e : AudioEngine ν) (decoded : List DecodedClip) (clips : List AudioClip) :
    List AudioClip :=
  decoded.foldl (fun clips x => storeClip e.mode (x.toClip e) clips) clips

theorem syncClips_eq (e : AudioEngine ν) (decoded : List DecodedClip) :
    syncClips e decoded =
      e.withClips (storeAll e decoded (e.clips.filter AudioClip.isMatrixClip)) := by
  have hfold : ∀ (decoded : List DecodedClip) (clips : List AudioClip),
      decoded.foldl (fun e x => e.addClip (x.toClip e)) (e.withClips clips) =
        e.withClips (storeAll e decoded clips) := by
    intro decoded
    induction decoded with
    | nil => exact fun _ => rfl
    | cons x decoded ih =>
      intro clips
      rw [List.foldl_cons, addClip_eq]
      exact ih (storeClip e.mode (x.toClip e) clips)
  exact hfold decoded (e.clips.filter AudioClip.isMatrixClip)

theorem storeAll_left {clips : List AudioClip} {decoded : List DecodedClip}
    (h : Interleave l r clips)
    (hmiss : ∀ x ∈ decoded,
      Misses (AudioClip.addressed e.mode x.clip.clipId x.clip.trackIndex 0) r) :
    Interleave (storeAll e decoded l) r (storeAll e decoded clips) := by
  induction decoded generalizing l clips with
  | nil => exact h
  | cons x decoded ih =>
    have hx := hmiss x List.mem_cons_self
    have hstored := storeClip_left (c := x.toClip e) h hx
    exact ih hstored fun y hy => hmiss y (List.mem_cons_of_mem x hy)

theorem mem_storeAll {clips : List AudioClip} {decoded : List DecodedClip} {c : AudioClip}
    (h : c ∈ storeAll e decoded clips) : (∃ x ∈ decoded, c = x.toClip e) ∨ c ∈ clips := by
  induction decoded generalizing clips with
  | nil => exact Or.inr h
  | cons x decoded ih =>
    obtain ⟨y, hy, hc⟩ | hc := ih h
    · exact Or.inl ⟨y, List.mem_cons_of_mem x hy, hc⟩
    · obtain hc | hc := mem_storeClip hc
      · exact Or.inl ⟨x, List.mem_cons_self, hc⟩
      · exact Or.inr hc

theorem PlaylistCommand.run_eq (files : Files) (contended : Bool) (e : AudioEngine ν)
    {cmd : PlaylistCommand} (h : cmd.isAboutClips = true) :
    cmd.run files contended e = e.withClips (cmd.run files contended e).clips := by
  cases cmd with
  | loadClip clipId path positionSecs durationSecs offsetSecs track =>
    simp only [PlaylistCommand.run]
    split
    · rw [addClip_eq]
      rfl
    · rfl
  | updateClipBounds clipId track positionSecs durationSecs offsetSecs => rfl
  | syncPlaylistClips clips =>
    simp only [PlaylistCommand.run]
    rw [syncClips_eq]
    rfl
  | stopPreview => exact absurd h Bool.false_ne_true
  | setBpm bpm => exact absurd h Bool.false_ne_true
  | seek sampleCount => exact absurd h Bool.false_ne_true
  | play => exact absurd h Bool.false_ne_true
  | pause => exact absurd h Bool.false_ne_true

/-- A command about clips of the playlist that meets no pad does to the clips of both what it does to its
own, and starts none. -/
theorem PlaylistCommand.run_right {d : EngineTrio ν} {contended : Bool} {cmd : PlaylistCommand}
    (habout : cmd.isAboutClips = true) (h : d.Apart)
    (hallowed : d.Allowed files (.playlist contended cmd)) :
    Interleave d.padsOnly.clips
        (cmd.run files contended (d.engine.withClips d.playlistOnly.clips)).clips
        (cmd.run files contended d.engine).clips ∧
      ∀ c ∈ (cmd.run files contended (d.engine.withClips d.playlistOnly.clips)).clips,
        c.isPlaying = false := by
  cases cmd with
  | loadClip clipId path positionSecs durationSecs offsetSecs track =>
    simp only [PlaylistCommand.run]
    cases hfile : files path with
    | none => exact ⟨h.clips, h.idle⟩
    | some data =>
      have hmiss := hallowed (Option.isSome_iff_exists.mpr ⟨data, hfile⟩)
      let c := d.engine.clipInstance clipId track 0 (data.atRate d.engine.sampleRate) positionSecs
        durationSecs offsetSecs data.channels true
      have hstored := storeClip_left (c := c) h.clips.symm hmiss
      simp only [addClip_eq]
      refine ⟨hstored.symm, fun b hb => ?_⟩
      obtain rfl | hb := mem_storeClip hb
      · rfl
      · exact h.idle b hb
  | updateClipBounds clipId track positionSecs durationSecs offsetSecs =>
    refine ⟨(h.clips.symm.updateFirst_left _ hallowed).symm, fun c hc => ?_⟩
    obtain hc | ⟨b, hb, _, rfl⟩ := mem_updateFirst hc
    · exact h.idle c hc
    · exact h.idle b hb
  | syncPlaylistClips clips =>
    simp only [PlaylistCommand.run, syncClips_eq]
    have hkept : d.padsOnly.clips.filter AudioClip.isMatrixClip = d.padsOnly.clips :=
      List.filter_eq_self.mpr h.flagged
    have hretained := h.clips.filter AudioClip.isMatrixClip
    rw [hkept] at hretained
    refine ⟨(storeAll_left hretained.symm fun x hx => ?_).symm, fun c hc => ?_⟩
    · obtain ⟨clip, hclip, hdecoded⟩ := List.mem_filterMap.mp hx
      obtain ⟨data, hfile, rfl⟩ := Option.map_eq_some_iff.mp hdecoded
      exact hallowed clip hclip (Option.isSome_iff_exists.mpr ⟨data, hfile⟩)
    · obtain ⟨x, _, rfl⟩ | hc := mem_storeAll hc
      · rfl
      · exact h.idle c (List.mem_filter.mp hc).1
  | stopPreview => exact absurd habout Bool.false_ne_true
  | setBpm bpm => exact absurd habout Bool.false_ne_true
  | seek sampleCount => exact absurd habout Bool.false_ne_true
  | play => exact absurd habout Bool.false_ne_true
  | pause => exact absurd habout Bool.false_ne_true

/-- A command about the transport does not look at the clips. -/
theorem PlaylistCommand.run_withClips (contended : Bool) {cmd : PlaylistCommand}
    (h : cmd.isAboutClips = false) (clips : List AudioClip) :
    cmd.run files contended (e.withClips clips) = (cmd.run files contended e).withClips clips ∧
      (cmd.run files contended e).mode = e.mode ∧ (cmd.run files contended e).mixer = e.mixer := by
  cases cmd with
  | setBpm bpm =>
    simp only [PlaylistCommand.run]
    split
    · exact ⟨rfl, rfl, rfl⟩
    · exact ⟨rfl, rfl, rfl⟩
  | stopPreview => exact ⟨rfl, rfl, rfl⟩
  | seek sampleCount => exact ⟨rfl, rfl, rfl⟩
  | play => exact ⟨rfl, rfl, rfl⟩
  | pause => exact ⟨rfl, rfl, rfl⟩
  | loadClip clipId path positionSecs durationSecs offsetSecs track => exact absurd h.symm Bool.false_ne_true
  | updateClipBounds clipId track positionSecs durationSecs offsetSecs => exact absurd h.symm Bool.false_ne_true
  | syncPlaylistClips clips => exact absurd h.symm Bool.false_ne_true

end

/-! ## Runs -/

namespace EngineTrio

open AudioEngine

variable {files : Files}

theorem Apart.pad {d : EngineTrio ν} (h : d.Apart) {cmd : PadCommand}
    (hallowed : d.Allowed files (.pad cmd)) : (d.step files (.pad cmd)).Apart := by
  obtain ⟨hclips, hedit⟩ := PadCommand.run_left h hallowed
  have hengine := PadCommand.run_eq files d.engine cmd
  have hown := PadCommand.run_eq files (d.engine.withClips d.padsOnly.clips) cmd
  have hpads : (d.step files (.pad cmd)).padsOnly =
      cmd.run files (d.engine.withClips d.padsOnly.clips) := by
    rw [← h.pads]
    rfl
  have hmode : (d.step files (.pad cmd)).engine.mode = d.engine.mode := by
    have hsame := congrArg AudioEngine.mode hengine
    exact hsame
  have hmixer : (d.step files (.pad cmd)).engine.mixer = d.engine.mixer := by
    have hsame := congrArg AudioEngine.mixer hengine
    exact hsame
  refine ⟨?_, ?_, ?_, ?_, h.idle, ?_⟩
  · rw [hpads, hown]
    change _ = (cmd.run files d.engine).withClips _
    rw [hengine]
    rfl
  · change d.playlistOnly = (cmd.run files d.engine).withClips d.playlistOnly.clips
    rw [hengine]
    exact h.playlist
  · rw [hpads]
    exact hclips
  · rw [hpads]
    exact hedit.flagged h.flagged
  · rw [hpads, hmode, hmixer]
    exact fun hstudio => hedit.quiet hstudio (h.quiet hstudio)

theorem Apart.playlistClips {d : EngineTrio ν} (h : d.Apart) {contended : Bool} {cmd : PlaylistCommand}
    (habout : cmd.isAboutClips = true) (hallowed : d.Allowed files (.playlist contended cmd)) :
    (d.step files (.playlist contended cmd)).Apart := by
  obtain ⟨hclips, hidle⟩ := PlaylistCommand.run_right habout h hallowed
  have hengine := PlaylistCommand.run_eq files contended d.engine habout
  have hown := PlaylistCommand.run_eq files contended (d.engine.withClips d.playlistOnly.clips) habout
  have hpads : (d.step files (.playlist contended cmd)).padsOnly = d.padsOnly := by
    unfold step ClipCommand.concernsPads
    simp only [habout, Bool.not_true, Bool.false_eq_true, if_false]
  have hlist : (d.step files (.playlist contended cmd)).playlistOnly =
      cmd.run files contended (d.engine.withClips d.playlistOnly.clips) := by
    rw [← h.playlist]
    rfl
  have hmode : (d.step files (.playlist contended cmd)).engine.mode = d.engine.mode := by
    have hsame := congrArg AudioEngine.mode hengine
    exact hsame
  have hmixer : (d.step files (.playlist contended cmd)).engine.mixer = d.engine.mixer := by
    have hsame := congrArg AudioEngine.mixer hengine
    exact hsame
  refine ⟨?_, ?_, ?_, ?_, ?_, ?_⟩
  · rw [hpads]
    change _ = (cmd.run files contended d.engine).withClips _
    rw [hengine]
    exact h.pads
  · rw [hlist, hown]
    change _ = (cmd.run files contended d.engine).withClips _
    rw [hengine]
    rfl
  · rw [hpads, hlist]
    exact hclips
  · rw [hpads]
    exact h.flagged
  · rw [hlist]
    exact hidle
  · rw [hpads, hmode, hmixer]
    exact h.quiet

/-- A command that all three engines get and that does not look at their clips. -/
theorem Apart.of_same {d d' : EngineTrio ν} (h : d.Apart)
    (hpads : d'.padsOnly = d'.engine.withClips d.padsOnly.clips)
    (hplaylist : d'.playlistOnly = d'.engine.withClips d.playlistOnly.clips)
    (hclips : d'.engine.clips = d.engine.clips)
    (hquiet : d'.engine.mode = .openStudio → ∀ c ∈ d.padsOnly.clips, c.Inaudible d'.engine.mixer) :
    d'.Apart := by
  have hpads' : d'.padsOnly.clips = d.padsOnly.clips := by
    rw [hpads]
    rfl
  have hplaylist' : d'.playlistOnly.clips = d.playlistOnly.clips := by
    rw [hplaylist]
    rfl
  refine ⟨?_, ?_, ?_, ?_, ?_, ?_⟩
  · rw [hpads']
    exact hpads
  · rw [hplaylist']
    exact hplaylist
  · rw [hpads', hplaylist', hclips]
    exact h.clips
  · rw [hpads']
    exact h.flagged
  · rw [hplaylist']
    exact h.idle
  · rw [hpads']
    exact hquiet

theorem Apart.transport {d : EngineTrio ν} (h : d.Apart) {contended : Bool} {cmd : PlaylistCommand}
    (habout : cmd.isAboutClips = false) : (d.step files (.playlist contended cmd)).Apart := by
  have hrun (clips : List AudioClip) :
      cmd.run files contended (d.engine.withClips clips) =
          (cmd.run files contended d.engine).withClips clips ∧
        (cmd.run files contended d.engine).mode = d.engine.mode ∧
          (cmd.run files contended d.engine).mixer = d.engine.mixer :=
    PlaylistCommand.run_withClips contended habout clips
  obtain ⟨hpads, hmode, hmixer⟩ := hrun d.padsOnly.clips
  obtain ⟨hplaylist, _⟩ := hrun d.playlistOnly.clips
  obtain ⟨hengine, _⟩ := hrun d.engine.clips
  have hconcerns : (ClipCommand.playlist contended cmd).concernsPads = true := by
    simp only [ClipCommand.concernsPads, habout, Bool.not_false]
  refine h.of_same ?_ ?_ ?_ ?_
  · unfold step
    simp only [hconcerns, if_true]
    rw [h.pads]
    exact hpads
  · change cmd.run files contended d.playlistOnly = _
    rw [h.playlist]
    exact hplaylist
  · change (cmd.run files contended d.engine).clips = d.engine.clips
    rw [← withClips_self d.engine, hengine]
    rfl
  · intro hstudio
    change ∀ c ∈ d.padsOnly.clips, c.Inaudible (cmd.run files contended d.engine).mixer
    rw [hmixer]
    exact h.quiet (hmode.symm.trans hstudio)

theorem Apart.step {d : EngineTrio ν} (h : d.Apart) {cmd : ClipCommand}
    (hallowed : d.Allowed files cmd) : (d.step files cmd).Apart := by
  cases cmd with
  | pad cmd => exact h.pad hallowed
  | playlist contended cmd =>
    cases habout : cmd.isAboutClips with
    | true => exact h.playlistClips habout hallowed
    | false => exact h.transport habout
  | setAppMode isStudio =>
    refine h.of_same ?_ ?_ rfl ?_
    · change d.padsOnly.setMode _ = _
      rw [h.pads]
      rfl
    · change d.playlistOnly.setMode _ = _
      rw [h.playlist]
      rfl
    · intro hstudio
      cases isStudio with
      | true => exact hallowed rfl
      | false => nomatch hstudio

theorem Apart.isolated (host : PluginHost ν) (stage : OutputStage β) {d : EngineTrio ν} (h : d.Apart) :
    d.Isolated host stage := by
  refine ⟨h.clips, fun t absoluteFrame n => ?_⟩
  unfold heardOnly
  cases hmode : d.engine.mode with
  | openStudio =>
    simp only
    rw [h.playlist]
    refine process_interleave (e := d.engine.atTime t absoluteFrame) host stage h.clips ?_
    intro c hc
    change (renderClip d.engine.mixer d.engine.mode t absoluteFrame n c).1 = silence n
    rw [hmode]
    exact renderClip_inaudible (h.quiet hmode c hc) t absoluteFrame n
  | openLive =>
    simp only
    rw [h.pads]
    refine process_interleave (e := d.engine.atTime t absoluteFrame) host stage h.clips.symm ?_
    intro c hc
    change (renderClip d.engine.mixer d.engine.mode t absoluteFrame n c).1 = silence n
    rw [hmode]
    exact renderClip_idle (h.idle c hc) _ t absoluteFrame n

/-- Clips that never meet stay isolated. -/
theorem always_isolated (host : PluginHost ν) (stage : OutputStage β) {e : AudioEngine ν}
    {cmds : List ClipCommand} (hempty : e.clips = [])
    (hallowed : Along (step files) (Allowed files) (starting e) cmds) :
    Always (step files) (Isolated host stage) (starting e) cmds := by
  have hstart : (starting e).Apart := by
    refine ⟨rfl, rfl, ?_, ?_, ?_, ?_⟩
    · change Interleave e.clips e.clips e.clips
      rw [hempty]
      exact .nil
    · intro c hc
      rw [show (starting e).padsOnly.clips = [] from hempty] at hc
      exact absurd hc List.not_mem_nil
    · intro c hc
      rw [show (starting e).playlistOnly.clips = [] from hempty] at hc
      exact absurd hc List.not_mem_nil
    · intro _ c hc
      rw [show (starting e).padsOnly.clips = [] from hempty] at hc
      exact absurd hc List.not_mem_nil
  have hrun := always_of_along (fun _ _ h hok => h.step hok) hstart hallowed
  exact hrun.mono fun _ h => h.isolated host stage

/-! ## Two editors at work -/

def sampleFiles : Files := fun path =>
  if path = "/pads/kick.wav" then some ⟨[1, 1 / 2], 48000, 1⟩
  else if path = "/takes/voice.wav" then some ⟨[1 / 4, 1 / 8, 0], 48000, 1⟩
  else none

/-- Clips of a playlist synced in OpenStudio, then a pad loaded and launched in OpenLive. -/
def playlistThenPad : List ClipCommand :=
  [.playlist false (.syncPlaylistClips [⟨1, "/takes/voice.wav", 0, 1, 0, 1⟩]),
    .playlist false (.loadClip 2 "/takes/voice.wav" 2 1 0 1), .playlist false .play,
    .setAppMode false, .pad (.loadClip 1 "/pads/kick.wav" 3 2), .pad (.triggerClip 3 2)]

theorem always_isolated_pad :
    Always (step sampleFiles) (Isolated noPlugins exactStage)
      (starting (AudioEngine.new 48000)) playlistThenPad := by
  have hmiss : Misses (AudioClip.inCell 3 2) ((playlistThenPad.take 4).foldl (step sampleFiles)
      (starting (AudioEngine.new 48000 : AudioEngine Empty))).playlistOnly.clips := by
    unfold Misses
    decide +kernel
  refine always_isolated noPlugins exactStage rfl ⟨?_, ?_, trivial, ?_, ?_, ?_, trivial⟩
  · exact fun _ _ _ c hc => absurd hc List.not_mem_nil
  · exact fun _ c hc => absurd hc List.not_mem_nil
  · exact fun hstudio => nomatch hstudio
  · exact fun _ _ => ⟨hmiss, fun hmode => nomatch hmode⟩
  · exact hmiss

/-- The first pad and the first clip of the playlist share their id: loading the one in OpenStudio
replaces the other. -/
theorem not_always_isolated_first_ids :
    ¬ ∀ cmds, Always (step sampleFiles) (Isolated noPlugins exactStage)
      (starting (AudioEngine.new 48000)) cmds := by
  intro h
  let cmds : List ClipCommand :=
    [.setAppMode false, .pad (.loadClip 1 "/pads/kick.wav" 0 0), .setAppMode true,
      .playlist false (.loadClip 1 "/takes/voice.wav" 0 1 0 1)]
  let d := cmds.foldl (step sampleFiles) (starting (AudioEngine.new 48000 : AudioEngine Empty))
  have hlength : d.engine.clips.length = d.padsOnly.clips.length + d.playlistOnly.clips.length :=
    (h cmds).final.1.length
  have hlengths : (d.engine.clips.length, d.padsOnly.clips.length, d.playlistOnly.clips.length) =
      (1, 1, 1) := by decide +kernel
  obtain ⟨hone, hpads, hlist⟩ : d.engine.clips.length = 1 ∧ d.padsOnly.clips.length = 1 ∧
      d.playlistOnly.clips.length = 1 := by simpa using hlengths
  omega

end EngineTrio

end HikaruOpenLive.Gui
