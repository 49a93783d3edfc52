import HikaruOpenLive.Gui.MirrorApply

/-! # Runs of edits and the engine's clips

Each edit of the matrix with its commands carried out, and projects applied in between: where every step
is `MirroredStep`, the engine goes on holding just the clips of the audio pads.
-/
set_option autoImplicit false

namespace HikaruOpenLive.Gui

open Engine Foundations.Grid Foundations.Runs SessionMatrixState

variable {ν : Type}

/-! ## Copied pads -/

/-- What holds audio is loaded as it is; anything else is put where there was none. -/
def PlaceOk (disk : Disk) (m : SessionMatrixState) (e : AudioEngine ν) (bpm : ℚ) (slot : MatrixSlot)
    (track scene : ℕ) : Prop :=
  match slot.audio? with
  | none => m.audio? track scene = none
  | some g => LoadOk disk e bpm { g with id := m.nextClipId } g.path track scene

theorem clip?_writeSlot {m m' : SessionMatrixState} {track scene : ℕ} {slot : MatrixSlot}
    (h : m.writeSlot track scene slot = some m') : m'.clip? track scene = slot.clip := by
  obtain ⟨old, hold, rfl⟩ := Option.map_eq_some_iff.mp h
  rw [clip?, slot?_modifySlot, if_pos ⟨rfl, rfl⟩, hold]
  rfl

theorem Mirrors.place {m : SessionMatrixState} {e : AudioEngine ν} {bpm : ℚ} (h : Mirrors m e bpm)
    {disk : Disk} {slot : MatrixSlot} {track scene : ℕ} (hok : PlaceOk disk m e bpm slot track scene)
    {r : SessionMatrixState × List PadCommand} (hplace : m.placeSlot track scene slot = some r) :
    Mirrors r.1 (deliverPads disk.files e r.2) bpm := by
  obtain ⟨m', hwrite, rfl⟩ := Option.map_eq_some_iff.mp hplace
  have haudio := audio?_writeSlot hwrite
  have hclip := clip?_writeSlot hwrite
  have hold : ∀ t s, ({ m with nextClipId := m.nextClipId + 1 } : SessionMatrixState).audio? t s =
      m.audio? t s := fun _ _ => rfl
  unfold PlaceOk MatrixSlot.audio? at hok
  simp only [MatrixSlot.audio?, hold] at haudio
  -- nothing is loaded where the slot holds no audio
  have hnone : m.audio? track scene = none →
      (slot.clip.map fun clip => { clip with id := m.nextClipId }).filter (fun clip => !clip.isMidi) =
        none → ∀ cmds : List PadCommand, (∀ cmd ∈ cmds, cmd.Quiet) →
      Mirrors m' (deliverPads disk.files e cmds) bpm := by
    intro hfree hcopy cmds hcmds
    refine h.quiet ?_ disk.files hcmds
    intro t s
    rw [haudio, hcopy]
    split
    · rename_i hat
      rw [hat.1, hat.2, hfree]
    · rfl
  unfold placeCommands
  rw [hclip]
  cases hslot : slot.clip with
  | none =>
    rw [hslot] at hok hnone
    exact hnone hok rfl [] (by simp)
  | some g =>
    rw [hslot] at hok hnone haudio
    cases hmidi : g.isMidi with
    | true =>
      have hmidi' : ({ g with id := m.nextClipId } : MatrixClip).isMidi = true := hmidi
      rw [filter_midi hmidi] at hok
      refine hnone hok (filter_midi hmidi') _ ?_
      · simp only [Option.map_some, hmidi', if_true]
        exact syncMidiClip_quiet m' track scene
    | false =>
      have hmidi' : ({ g with id := m.nextClipId } : MatrixClip).isMidi = false := hmidi
      rw [filter_audio hmidi] at hok
      simp only [Option.map_some, hmidi', Bool.false_eq_true, if_false]
      refine h.load hok ?_
      intro t s
      rw [haudio, Option.map_some, filter_audio hmidi']

/-! ## Files dropped on a pad -/

def DropOk (disk : Disk) (m : SessionMatrixState) (e : AudioEngine ν) (bpm : ℚ) (track scene : ℕ)
    (path : String) : Prop :=
  if isMidiFile path then m.audio? track scene = none
  else
    match m.audio? track scene with
    | some g => AppendOk disk e bpm g path track scene
    | none =>
      let totalFrames := ((disk path).map WavFile.duration).getD 0
      LoadOk disk e bpm (.ofFile m.nextClipId path (.audio [] 1) totalFrames) path track scene

theorem isMidi_appendSampleAsEvent (g : MatrixClip) (disk : Disk) (track scene : ℕ) (path : String) :
    (g.appendSampleAsEvent disk track scene path).1.isMidi = g.isMidi := by
  unfold MatrixClip.appendSampleAsEvent
  split
  · unfold MatrixClip.pushEvent
    split
    · rename_i hcontent
      simp [MatrixClip.isMidi, hcontent]
    · rfl
  · rfl

/-- A pad without audio is emptied, and the engine keeps all its matrix clips. -/
theorem Mirrors.delete {m : SessionMatrixState} {e : AudioEngine ν} {bpm : ℚ} (h : Mirrors m e bpm)
    {track scene : ℕ} (hfree : m.audio? track scene = none) (files : Files) :
    Mirrors (m.deleteSlot track scene).1 (deliverPads files e (m.deleteSlot track scene).2) bpm := by
  refine h.quiet ?_ files ?_
  · intro t s
    rw [deleteSlot, audio?_modifySlot]
    split
    · rename_i hat
      rw [hat.1, hat.2, hfree]
      cases m.slot? track scene <;> rfl
    · rfl
  · intro cmd hcmd
    simp only [deleteSlot] at hcmd
    split at hcmd
    · rw [List.mem_singleton.mp hcmd]
      trivial
    · exact absurd hcmd (by simp)

theorem Mirrors.append {m m' : SessionMatrixState} {e : AudioEngine ν} {bpm : ℚ}
    (h : Mirrors m e bpm) {disk : Disk} {g : MatrixClip} {path : String} {track scene : ℕ}
    (hg : m.audio? track scene = some g) (hok : AppendOk disk e bpm g path track scene)
    (haudio : ∀ t s, m'.audio? t s =
      if t = track ∧ s = scene then some (g.appendSampleAsEvent disk track scene path).1
      else m.audio? t s) :
    Mirrors m' (deliverPads disk.files e (g.appendSampleAsEvent disk track scene path).2) bpm := by
  have hcontent : ∃ events nextEventId, g.content = .audio events nextEventId := by
    cases hcontent : g.content with
    | audio events nextEventId => exact ⟨events, nextEventId, rfl⟩
    | midi notes =>
      rw [audio?_eq] at hg
      obtain ⟨_, hmidi⟩ := Option.filter_eq_some_iff.mp hg
      simp [MatrixClip.isMidi, hcontent] at hmidi
  obtain ⟨events, nextEventId, hcontent⟩ := hcontent
  unfold AppendOk at hok
  cases hdecode : decodeAudioFile disk path with
  | none =>
    rw [hdecode] at hok
    have hsame : g.appendSampleAsEvent disk track scene path =
        (g, [.loadClip g.id path track scene]) := by
      rw [MatrixClip.appendSampleAsEvent, hdecode]
    rw [hsame] at haudio ⊢
    obtain hgone | hload := hok
    · have hrun : deliverPads disk.files e [.loadClip g.id path track scene] = e := by
        rw [deliverPads_cons, deliverPads_nil, PadCommand.run, Disk.files, hgone]
        rfl
      have hsame : ∀ t s, m'.audio? t s = m.audio? t s := by
        intro t s
        rw [haudio]
        split
        · rename_i hat
          rw [hat.1, hat.2, hg]
        · rfl
      have hquiet : ∀ cmd ∈ ([] : List PadCommand), cmd.Quiet := by simp
      rw [hrun]
      exact h.quiet hsame disk.files hquiet
    · exact h.load hload haudio
  | some decoded =>
    obtain ⟨samples, channels, sampleRate⟩ := decoded
    rw [hdecode] at hok
    simp only at hok
    have happend := MatrixClip.appendSampleAsEvent_decoded hcontent hdecode track scene
    rw [happend] at hok haudio ⊢
    rw [deliverPads_setClipEvents]
    refine h.setEvents hg ?_ ⟨rfl, rfl, rfl⟩ hok haudio
    rw [MatrixClip.audioEvents]
    simp

theorem Mirrors.drop {m : SessionMatrixState} {e : AudioEngine ν} {bpm : ℚ} (h : Mirrors m e bpm)
    {disk : Disk} {track scene : ℕ} {path : String} (hok : DropOk disk m e bpm track scene path)
    {r : SessionMatrixState × List PadCommand}
    (hdrop : m.loadClipIntoSlot disk track scene path = some r) :
    Mirrors r.1 (deliverPads disk.files e r.2) bpm := by
  have hold : ∀ t s, ({ m with nextClipId := m.nextClipId + 1 } : SessionMatrixState).audio? t s =
      m.audio? t s := fun _ _ => rfl
  unfold DropOk at hok
  unfold loadClipIntoSlot at hdrop
  simp only at hdrop hok
  split at hdrop
  case isTrue hmidi =>
    rw [if_pos hmidi] at hok
    obtain ⟨m', hwrite, rfl⟩ := Option.map_eq_some_iff.mp hdrop
    refine h.quiet ?_ disk.files (syncMidiClip_quiet m' track scene)
    intro t s
    rw [audio?_writeSlot hwrite, hold]
    split
    · rename_i hat
      rw [hat.1, hat.2, hok]
      rfl
    · rfl
  case isFalse hmidi =>
    rw [if_neg hmidi, audio?_eq] at hok
    split at hdrop
    · rename_i g hg
      rw [hg] at hok
      rw [← Option.some.inj hdrop]
      rw [← audio?_eq] at hg
      refine h.append hg hok ?_
      intro t s
      rw [audio?_modifySlot, hold]
      split
      · rw [audio?_eq, clip?] at hg
        obtain ⟨hclip, hmidi⟩ := Option.filter_eq_some_iff.mp hg
        obtain ⟨slot, hslot, _⟩ := Option.bind_eq_some_iff.mp hclip
        have hslot' : ({ m with nextClipId := m.nextClipId + 1 } : SessionMatrixState).slot? track scene =
            some slot := hslot
        rw [hslot', Option.bind_some, MatrixSlot.audio?]
        refine filter_audio ?_
        rw [isMidi_appendSampleAsEvent]
        simpa using hmidi
      · rfl
    · rename_i hnone
      rw [hnone] at hok
      obtain ⟨m', hwrite, rfl⟩ := Option.map_eq_some_iff.mp hdrop
      refine h.load hok ?_
      intro t s
      rw [audio?_writeSlot hwrite, hold]
      rfl

/-! ## Runs -/

theorem triggerPad_quiet {m : SessionMatrixState} {track scene : ℕ}
    {r : SessionMatrixState × List PadCommand} (h : m.triggerPad track scene = some r) :
    ∀ cmd ∈ r.2, cmd.Quiet := by
  have hone : ∀ cmd ∈ [PadCommand.triggerClip track scene], cmd.Quiet := by
    intro cmd hcmd
    rw [List.mem_singleton.mp hcmd]
    trivial
  unfold triggerPad at h
  split at h
  · split at h
    · obtain ⟨stopped, _, rfl⟩ := Option.map_eq_some_iff.mp h
      intro cmd hcmd
      obtain hcmd | hcmd := List.mem_append.mp hcmd
      · exact syncMidiClip_quiet m track scene cmd hcmd
      · exact hone cmd hcmd
    · rw [← Option.some.inj h]
      exact hone
    · rw [← Option.some.inj h]
      exact hone
    · rw [← Option.some.inj h]
      exact hone
    · rw [← Option.some.inj h]
      simp
  · rw [← Option.some.inj h]
    simp

theorem triggerScene_quiet {m : SessionMatrixState} {scene : ℕ}
    {r : SessionMatrixState × List PadCommand} (h : m.triggerScene scene = some r) :
    ∀ cmd ∈ r.2, cmd.Quiet := by
  obtain ⟨launched, _, rfl⟩ := Option.map_eq_some_iff.mp h
  intro cmd hcmd
  obtain hcmd | hcmd := List.mem_append.mp hcmd
  · obtain ⟨track, _, hcmd⟩ := List.mem_flatMap.mp hcmd
    exact syncMidiClip_quiet m track scene cmd hcmd
  · rw [List.mem_singleton.mp hcmd]
    trivial

/-- The GUI's matrix, the engine, and the tempo. -/
structure MatrixHost (ν : Type) where
  session : MatrixSession
  engine : AudioEngine ν
  bpm : ℚ

/-- An edit, or a project applied at its tempo, with the files as they are then. -/
inductive MatrixAct where
  | edit (disk : Disk) (e : MatrixEdit)
  | apply (disk : Disk) (baseDir : Option String) (bpm : ℚ) (saved : OpenLiveFile.Matrix)

namespace MatrixHost

def act (h : MatrixHost ν) : MatrixAct → Option (MatrixHost ν)
  | .edit disk e =>
    if h.session.matrix.shows e then
      (h.session.edit disk e).map fun r =>
        { h with session := r.1, engine := deliverPads disk.files h.engine r.2 }
    else some h
  | .apply disk baseDir bpm saved =>
    let r := applyMatrix disk baseDir bpm saved
    some { session := r.1, engine := deliverPads disk.files h.engine r.2, bpm := bpm }

def step (h : Option (MatrixHost ν)) (a : MatrixAct) : Option (MatrixHost ν) :=
  h.bind fun h => h.act a

/-- What an edit must not run into. -/
def MirroredEdit (disk : Disk) (h : MatrixHost ν) : MatrixEdit → Prop
  | .removeTrack => h.session.matrix.LastTrackFree
  | .removeScene => h.session.matrix.LastSceneFree
  | .load track scene path => DropOk disk h.session.matrix h.engine h.bpm track scene path
  | .cut track scene | .delete track scene => h.session.matrix.audio? track scene = none
  | .paste track scene => ∀ copied, h.session.clipboard = some copied →
    PlaceOk disk h.session.matrix h.engine h.bpm copied track scene
  | .duplicate track scene =>
    let target := min (scene + 1) (h.session.matrix.scenes.length - 1)
    target ≠ scene → ∀ slot, h.session.matrix.slot? track scene = some slot →
      PlaceOk disk h.session.matrix h.engine h.bpm slot track target
  | _ => True

def MirroredStep (h : Option (MatrixHost ν)) (a : MatrixAct) : Prop :=
  ∀ s, h = some s →
    match a with
    | .edit disk e => s.session.matrix.shows e = true → s.MirroredEdit disk e
    | .apply disk baseDir _ saved => ApplyOk disk s.engine (appliedMatrix disk baseDir saved)

/-- In a running application the engine holds the clips of the audio pads. -/
def Mirrored (h : Option (MatrixHost ν)) : Prop :=
  ∀ s, h = some s → Mirrors s.session.matrix s.engine s.bpm

theorem mirrors_edit {h : MatrixHost ν} (hmir : Mirrors h.session.matrix h.engine h.bpm) {disk : Disk}
    {e : MatrixEdit} (hok : h.MirroredEdit disk e) {r : MatrixSession × List PadCommand}
    (hedit : h.session.edit disk e = some r) :
    Mirrors r.1.matrix (deliverPads disk.files h.engine r.2) h.bpm := by
  have hnothing : ∀ {m' : SessionMatrixState},
      (∀ t s, m'.audio? t s = h.session.matrix.audio? t s) →
        Mirrors m' (deliverPads disk.files h.engine []) h.bpm :=
    fun haudio => hmir.quiet haudio disk.files (by simp)
  cases e with
  | addTrack =>
    rw [← Option.some.inj hedit]
    exact hnothing h.session.matrix.audio?_addTrack
  | removeTrack =>
    rw [← Option.some.inj hedit]
    exact hnothing (audio?_removeTrack hok)
  | addScene =>
    rw [← Option.some.inj hedit]
    exact hnothing h.session.matrix.audio?_addScene
  | removeScene =>
    rw [← Option.some.inj hedit]
    exact hnothing (audio?_removeScene hok)
  | select track scene =>
    rw [← Option.some.inj hedit]
    exact hnothing fun _ _ => rfl
  | load track scene path =>
    obtain ⟨r, hload, rfl⟩ := Option.map_eq_some_iff.mp hedit
    exact hmir.drop hok hload
  | copy track scene =>
    rw [← Option.some.inj hedit]
    exact hnothing fun _ _ => rfl
  | cut track scene =>
    rw [← Option.some.inj hedit]
    exact hmir.delete hok disk.files
  | paste track scene =>
    obtain ⟨r, hpaste, rfl⟩ := Option.map_eq_some_iff.mp hedit
    cases hclip : h.session.clipboard with
    | none =>
      rw [hclip] at hpaste
      rw [← Option.some.inj hpaste]
      exact hnothing fun _ _ => rfl
    | some copied =>
      rw [hclip] at hpaste
      have hplace : PlaceOk disk _ _ _ { copied with state := .stopped } track scene := hok copied hclip
      exact hmir.place hplace hpaste
  | duplicate track scene =>
    obtain ⟨r, hdup, rfl⟩ := Option.map_eq_some_iff.mp hedit
    unfold duplicateSlot at hdup
    simp only at hdup
    split at hdup
    case isTrue =>
      rw [← Option.some.inj hdup]
      exact hnothing fun _ _ => rfl
    case isFalse htarget =>
      obtain ⟨slot, hslot, hplace⟩ := Option.bind_eq_some_iff.mp hdup
      exact hmir.place (hok htarget slot hslot) hplace
  | delete track scene =>
    rw [← Option.some.inj hedit]
    exact hmir.delete hok disk.files
  | triggerPad track scene =>
    obtain ⟨r, htrigger, rfl⟩ := Option.map_eq_some_iff.mp hedit
    exact hmir.quiet (audio?_triggerPad htrigger) disk.files (triggerPad_quiet htrigger)
  | triggerScene scene =>
    obtain ⟨r, htrigger, rfl⟩ := Option.map_eq_some_iff.mp hedit
    exact hmir.quiet (audio?_triggerScene htrigger) disk.files (triggerScene_quiet htrigger)

theorem mirrored_step (h : Option (MatrixHost ν)) (a : MatrixAct) (hmir : Mirrored h)
    (hok : MirroredStep h a) : Mirrored (step h a) := by
  intro s' hs'
  obtain ⟨s, hs, hact⟩ := Option.bind_eq_some_iff.mp hs'
  have hstep := hok s hs
  cases a with
  | edit disk e =>
    simp only [act] at hact
    split at hact
    case isTrue hshown =>
      obtain ⟨r, hedit, rfl⟩ := Option.map_eq_some_iff.mp hact
      exact mirrors_edit (hmir s hs) (hstep hshown) hedit
    case isFalse =>
      rw [← Option.some.inj hact]
      exact hmir s hs
  | apply disk baseDir bpm saved =>
    rw [← Option.some.inj hact]
    exact mirrors_apply hstep

/-- Runs whose steps all meet the condition keep the engine's clips those of the audio pads. -/
theorem always_mirrored {h : MatrixHost ν} (hstart : Mirrors h.session.matrix h.engine h.bpm)
    {acts : List MatrixAct} (hok : Along step MirroredStep (some h) acts) :
    Always step Mirrored (some h) acts := by
  have hfirst : Mirrored (some h) := by
    intro s hs
    rw [← Option.some.inj hs]
    exact hstart
  exact always_of_along mirrored_step hfirst hok

/-- The application at its start. -/
def fresh : MatrixHost ν :=
  { session := ⟨SessionMatrixState.default, none⟩, engine := .new 48000, bpm := 120 }

theorem fresh_mirrors :
    Mirrors (fresh (ν := ν)).session.matrix (fresh (ν := ν)).engine (fresh (ν := ν)).bpm := by
  refine ⟨?_, ?_⟩
  · intro t s g hg
    obtain ⟨slot, hslot, haudio⟩ := Option.bind_eq_some_iff.mp hg
    obtain ⟨row, hrow, hslot⟩ := Option.bind_eq_some_iff.mp hslot
    have hmem : row ∈ List.replicate 8 (List.replicate 8 MatrixSlot.default) :=
      List.mem_of_getElem? hrow
    rw [List.eq_of_mem_replicate hmem] at hslot
    rw [List.eq_of_mem_replicate (List.mem_of_getElem? hslot)] at haudio
    exact absurd haudio (by simp [audio?_default])
  · intro c hc
    exact absurd hc List.not_mem_nil

def kickDisk : Disk :=
  fun path => if path = "/kick.wav" then some ⟨.int 16 [1, 2, 3, 4], 1, 48000⟩ else none

theorem always_mirrored_load :
    Always (step (ν := ℕ)) Mirrored (some fresh)
      [.edit kickDisk (.load 0 0 "/kick.wav"), .edit kickDisk (.addScene)] := by
  refine always_mirrored fresh_mirrors ⟨?_, ?_, trivial⟩
  · intro s hs _
    rw [← Option.some.inj hs]
    have hmidi : isMidiFile "/kick.wav" = false := by decide
    have hfree : (fresh (ν := ℕ)).session.matrix.audio? 0 0 = none := by decide
    simp only [MirroredEdit, DropOk, hmidi, hfree]
    refine ⟨rfl, Or.inr ?_, ⟨.int 16 [1, 2, 3, 4], 1, 48000⟩, by simp [kickDisk], Or.inr ⟨rfl, ?_, Or.inr ?_⟩⟩
    · intro c hc
      exact absurd hc List.not_mem_nil
    · decide +kernel
    · decide +kernel
  · exact fun _ _ _ => trivial

/-- A pad loaded and deleted after the start: the engine still holds its clip. -/
theorem not_always_mirrored_deleted :
    ¬ ∀ acts, Always (step (ν := ℕ)) Mirrored (some fresh) acts := by
  intro h
  have hmir := (h [.edit kickDisk (.load 0 0 "/kick.wav"), .edit kickDisk (.delete 0 0)]).final
  have hstate : (([.edit kickDisk (.load 0 0 "/kick.wav"), .edit kickDisk (.delete 0 0)].foldl
      (step (ν := ℕ)) (some fresh)).map fun s =>
        ((s.session.matrix.audio? 0 0).isSome, (s.engine.cell? 0 0).map AudioClip.isMatrixClip)) =
      some (false, some true) := by decide
  obtain ⟨s, hs, hboth⟩ := Option.map_eq_some_iff.mp hstate
  obtain ⟨hfree, hheld⟩ := Prod.mk.inj hboth
  obtain ⟨c, hcell, hmatrix⟩ := Option.map_eq_some_iff.mp hheld
  obtain ⟨hc, htrack, hscene⟩ := AudioEngine.cell_spec hcell
  have hsome := (hmir s hs).only c hc hmatrix
  rw [htrack, hscene, hfree] at hsome
  exact absurd hsome (by simp)

end MatrixHost

end HikaruOpenLive.Gui
