import HikaruOpenLive.Gui.MatrixGrid

/-! # At most one playing pad in a track

Triggering stops the other pads of a track, among the scenes there are. Duplicating copies a slot with its
state, so a playing pad becomes two; every other edit only takes the state away (`playsAt_edit`). -/
set_option autoImplicit false

namespace HikaruOpenLive.Gui

open Foundations.Grid Foundations.Runs

namespace SessionMatrixState

def playsAt (m : SessionMatrixState) (track scene : ℕ) : Prop :=
  ∃ slot, m.slot? track scene = some slot ∧ slot.state = .playing

def OnePlaying (m : SessionMatrixState) : Prop :=
  ∀ t s s', m.playsAt t s → m.playsAt t s' → s = s'

/-- No pad that plays lies beyond the scenes, where no trigger stops it. -/
def NoneHidden (m : SessionMatrixState) (track : ℕ) : Prop :=
  ∀ s, m.playsAt track s → s < m.scenes.length

theorem OnePlaying.of_sub {m m' : SessionMatrixState} (h : m.OnePlaying)
    (hsub : ∀ t s, m'.playsAt t s → m.playsAt t s) : m'.OnePlaying :=
  fun t s s' hs hs' => h t s s' (hsub t s hs) (hsub t s' hs')

theorem playsAt_modifySlot {m : SessionMatrixState} {track scene : ℕ} {f : MatrixSlot → MatrixSlot}
    (hf : ∀ slot, m.slot? track scene = some slot → (f slot).state = .playing →
      slot.state = .playing) {t s : ℕ} (h : (m.modifySlot track scene f).playsAt t s) :
    m.playsAt t s := by
  obtain ⟨slot, hslot, hstate⟩ := h
  rw [slot?_modifySlot] at hslot
  split at hslot
  case isTrue hat =>
    obtain ⟨old, hold, rfl⟩ := Option.map_eq_some_iff.mp hslot
    rw [hat.1, hat.2]
    exact ⟨old, hold, hf old hold hstate⟩
  case isFalse => exact ⟨slot, hslot, hstate⟩

theorem playsAt_writeSlot {m m' : SessionMatrixState} {track scene : ℕ} {slot : MatrixSlot}
    (hwrite : m.writeSlot track scene slot = some m') (hslot : slot.state ≠ .playing) {t s : ℕ}
    (h : m'.playsAt t s) : m.playsAt t s := by
  rw [writeSlot_eq_some hwrite] at h
  exact playsAt_modifySlot (fun _ _ hplaying => absurd hplaying hslot) h

/-! ## Tracks and scenes -/

theorem playsAt_addTrack {m : SessionMatrixState} {t s : ℕ} (h : m.addTrack.playsAt t s) :
    m.playsAt t s := by
  obtain ⟨slot, hslot, hstate⟩ := h
  obtain hold | hnew := cell_append hslot
  · exact ⟨slot, hold, hstate⟩
  · rw [List.eq_of_mem_replicate hnew] at hstate
    exact absurd hstate (by decide)

theorem playsAt_removeTrack {m : SessionMatrixState} {t s : ℕ} (h : m.removeTrack.playsAt t s) :
    m.playsAt t s := by
  unfold removeTrack at h
  split at h
  · obtain ⟨slot, hslot, hstate⟩ := h
    exact ⟨slot, cell_dropLast hslot, hstate⟩
  · exact h

theorem playsAt_addScene {m : SessionMatrixState} {t s : ℕ} (h : m.addScene.playsAt t s) :
    m.playsAt t s := by
  obtain ⟨slot, hslot, hstate⟩ := h
  obtain hold | rfl := cell_appendColumn hslot
  · exact ⟨slot, hold, hstate⟩
  · exact absurd hstate (by decide)

theorem playsAt_removeScene {m : SessionMatrixState} {t s : ℕ} (h : m.removeScene.playsAt t s) :
    m.playsAt t s := by
  unfold removeScene at h
  split at h
  · obtain ⟨slot, hslot, hstate⟩ := h
    exact ⟨slot, cell_dropColumn hslot, hstate⟩
  · exact h

/-! ## Loading, copying and deleting -/

theorem playsAt_loadClipIntoSlot {m : SessionMatrixState} {disk : Disk} {track scene : ℕ}
    {path : String} {r : SessionMatrixState × List PadCommand}
    (hload : m.loadClipIntoSlot disk track scene path = some r) {t s : ℕ} (h : r.1.playsAt t s) :
    m.playsAt t s := by
  unfold loadClipIntoSlot at hload
  simp only at hload
  split at hload
  · obtain ⟨m', hwrite, rfl⟩ := Option.map_eq_some_iff.mp hload
    exact playsAt_writeSlot hwrite (by simp) h
  · split at hload
    · rw [← Option.some.inj hload] at h
      refine playsAt_modifySlot (m := { m with nextClipId := m.nextClipId + 1 }) ?_ h
      intro slot _ hplaying
      exact hplaying
    · obtain ⟨m', hwrite, rfl⟩ := Option.map_eq_some_iff.mp hload
      exact playsAt_writeSlot hwrite (by simp) h

theorem playsAt_placeSlot {m : SessionMatrixState} {track scene : ℕ} {slot : MatrixSlot}
    {r : SessionMatrixState × List PadCommand} (hplace : m.placeSlot track scene slot = some r)
    (hslot : slot.state ≠ .playing) {t s : ℕ} (h : r.1.playsAt t s) : m.playsAt t s := by
  obtain ⟨m', hwrite, rfl⟩ := Option.map_eq_some_iff.mp hplace
  exact playsAt_writeSlot hwrite hslot h

theorem playsAt_pasteSlot {m : SessionMatrixState} {clipboard : Option MatrixSlot}
    {track scene : ℕ} {r : SessionMatrixState × List PadCommand}
    (hpaste : m.pasteSlot clipboard track scene = some r) {t s : ℕ} (h : r.1.playsAt t s) :
    m.playsAt t s := by
  cases clipboard with
  | none =>
    rw [← Option.some.inj hpaste] at h
    exact h
  | some copied => exact playsAt_placeSlot hpaste (by simp) h

/-- Duplicating copies no playing pad: there is none, or no next scene. -/
def DuplicatesQuiet (m : SessionMatrixState) (track scene : ℕ) : Prop :=
  m.playsAt track scene → m.scenes.length ≤ scene + 1

theorem playsAt_duplicateSlot {m : SessionMatrixState} {track scene : ℕ}
    {r : SessionMatrixState × List PadCommand}
    (hdup : m.duplicateSlot track scene = some r) (hscene : scene < m.scenes.length)
    (hquiet : m.DuplicatesQuiet track scene) {t s : ℕ} (h : r.1.playsAt t s) : m.playsAt t s := by
  unfold duplicateSlot at hdup
  simp only at hdup
  split at hdup
  case isTrue =>
    rw [← Option.some.inj hdup] at h
    exact h
  case isFalse hnext =>
    obtain ⟨slot, hslot, hplace⟩ := Option.bind_eq_some_iff.mp hdup
    refine playsAt_placeSlot hplace ?_ h
    intro hplaying
    have hlast := hquiet ⟨slot, hslot, hplaying⟩
    exact hnext (by omega)

theorem playsAt_deleteSlot {m : SessionMatrixState} {track scene t s : ℕ}
    (h : (m.deleteSlot track scene).1.playsAt t s) : m.playsAt t s :=
  playsAt_modifySlot (fun _ _ hplaying => absurd hplaying (by decide)) h

/-! ## Triggering -/

theorem playsAt_stopOthers {m m' : SessionMatrixState} {track scene : ℕ}
    (hstop : m.stopOthers track scene = some m') {t s : ℕ} (h : m'.playsAt t s) :
    m.playsAt t s ∧ (t = track → s = scene ∨ m.scenes.length ≤ s) := by
  obtain ⟨slot, hslot, hstate⟩ := h
  rw [slot?_stopOthers hstop] at hslot
  obtain ⟨old, hold, rfl⟩ := Option.map_eq_some_iff.mp hslot
  split at hstate
  · exact absurd hstate (by simp)
  · rename_i hkept
    refine ⟨⟨old, hold, hstate⟩, ?_⟩
    intro ht
    by_contra hother
    obtain ⟨hne, hlt⟩ := not_or.mp hother
    exact hkept ⟨ht, by omega, hne, hstate⟩

/-- A pad launched in a track with nothing hidden is the only one that plays there. -/
theorem playsAt_launched {m m' : SessionMatrixState} {track scene : ℕ}
    (hstop : m.stopOthers track scene = some m') (hhidden : m.NoneHidden track) {t s : ℕ}
    (h : (m'.showAs track scene .playing).playsAt t s) :
    (t = track ∧ s = scene) ∨ (t ≠ track ∧ m.playsAt t s) := by
  obtain ⟨slot, hslot, hstate⟩ := h
  rw [showAs, slot?_modifySlot] at hslot
  by_cases hat : t = track ∧ s = scene
  · exact Or.inl hat
  · rw [if_neg hat] at hslot
    obtain ⟨hplays, hrow⟩ := playsAt_stopOthers hstop ⟨slot, hslot, hstate⟩
    refine Or.inr ⟨?_, hplays⟩
    rintro rfl
    obtain hscene | hbeyond := hrow rfl
    · exact hat ⟨rfl, hscene⟩
    · have hlt := hhidden s hplays
      omega

theorem OnePlaying.launched {m m' : SessionMatrixState} (hone : m.OnePlaying) {track scene : ℕ}
    (hstop : m.stopOthers track scene = some m') (hhidden : m.NoneHidden track) :
    (m'.showAs track scene .playing).OnePlaying := by
  intro t s s' hs hs'
  obtain ⟨rfl, rfl⟩ | ⟨hne, hs⟩ := playsAt_launched hstop hhidden hs
  · obtain ⟨_, rfl⟩ | ⟨hne, _⟩ := playsAt_launched hstop hhidden hs'
    · rfl
    · exact absurd rfl hne
  · obtain ⟨rfl, _⟩ | ⟨_, hs'⟩ := playsAt_launched hstop hhidden hs'
    · exact absurd rfl hne
    · exact hone t s s' hs hs'

theorem OnePlaying.triggerPad {m : SessionMatrixState} (hone : m.OnePlaying) {track scene : ℕ}
    (hhidden : m.NoneHidden track) {r : SessionMatrixState × List PadCommand}
    (htrigger : m.triggerPad track scene = some r) : r.1.OnePlaying := by
  have hstopped : (m.showAs track scene .stopped).OnePlaying :=
    hone.of_sub fun t s h =>
      playsAt_modifySlot (fun _ _ hplaying => absurd hplaying (by simp)) h
  unfold SessionMatrixState.triggerPad at htrigger
  split at htrigger
  · split at htrigger
    · obtain ⟨stopped, hstop, rfl⟩ := Option.map_eq_some_iff.mp htrigger
      exact hone.launched hstop hhidden
    · rw [← Option.some.inj htrigger]
      exact hstopped
    · rw [← Option.some.inj htrigger]
      exact hstopped
    · rw [← Option.some.inj htrigger]
      exact hstopped
    · rw [← Option.some.inj htrigger]
      exact hone
  · rw [← Option.some.inj htrigger]
    exact hone

/-- What the tracks a launch has gone over leave for those to come. -/
structure Launchable (scene : ℕ) (m m' : SessionMatrixState) : Prop where
  one : m'.OnePlaying
  scenes : m'.scenes = m.scenes
  clips : ∀ t, m'.clip? t scene = m.clip? t scene
  plays : ∀ t s, m'.playsAt t s → m.playsAt t s ∨ s = scene

theorem clip?_stopOthers {m m' : SessionMatrixState} {track scene : ℕ}
    (hstop : m.stopOthers track scene = some m') (t s : ℕ) : m'.clip? t s = m.clip? t s := by
  rw [clip?, clip?, slot?_stopOthers hstop]
  cases m.slot? t s with
  | none => rfl
  | some slot =>
    rw [Option.map_some, Option.bind_some, Option.bind_some]
    split <;> rfl

theorem clip?_showAs (m : SessionMatrixState) (track scene : ℕ) (state : SlotState) (t s : ℕ) :
    (m.showAs track scene state).clip? t s = m.clip? t s := by
  rw [clip?, clip?, showAs, slot?_modifySlot]
  split
  · rename_i hat
    rw [hat.1, hat.2]
    cases m.slot? track scene <;> rfl
  · rfl

theorem launchable_launchTrack {m : SessionMatrixState} {scene : ℕ} (hscene : scene < m.scenes.length)
    (hhidden : ∀ t, (m.clip? t scene).isSome → m.NoneHidden t) (m₁ : SessionMatrixState) (track : ℕ)
    (m₂ : SessionMatrixState) (h : Launchable scene m m₁)
    (hlaunch : launchTrack scene m₁ track = some m₂) : Launchable scene m m₂ := by
  obtain ⟨slot, hslot, hlaunch⟩ := Option.bind_eq_some_iff.mp hlaunch
  split at hlaunch
  case isFalse =>
    rw [← Option.some.inj hlaunch]
    exact h
  case isTrue hclip =>
    obtain ⟨stopped, hstop, rfl⟩ := Option.map_eq_some_iff.mp hlaunch
    have hsome : (m.clip? track scene).isSome := by
      rw [← h.clips, clip?, hslot]
      exact hclip
    have hnone : m₁.NoneHidden track := by
      intro s hplays
      rw [h.scenes]
      obtain hplays | rfl := h.plays track s hplays
      · exact hhidden track hsome s hplays
      · exact hscene
    refine ⟨h.one.launched hstop hnone, ?_, ?_, ?_⟩
    · exact (stopOthers_frame hstop).2.1.trans h.scenes
    · intro t
      rw [clip?_showAs, clip?_stopOthers hstop, h.clips]
    · intro t s hplays
      obtain ⟨_, rfl⟩ | ⟨_, hplays⟩ := playsAt_launched hstop hnone hplays
      · exact Or.inr rfl
      · exact h.plays t s hplays

theorem OnePlaying.triggerScene {m : SessionMatrixState} (hone : m.OnePlaying) {scene : ℕ}
    (hscene : scene < m.scenes.length) (hhidden : ∀ t, (m.clip? t scene).isSome → m.NoneHidden t)
    {r : SessionMatrixState × List PadCommand} (htrigger : m.triggerScene scene = some r) :
    r.1.OnePlaying := by
  obtain ⟨launched, hfold, rfl⟩ := Option.map_eq_some_iff.mp htrigger
  have hstart : Launchable scene m m := ⟨hone, rfl, fun _ => rfl, fun _ _ h => Or.inl h⟩
  exact (foldlM_keeps (launchable_launchTrack hscene hhidden) hstart hfold).one

end SessionMatrixState

namespace MatrixSession

open SessionMatrixState

/-- An edit that makes no second pad of a track play. -/
def Exclusive (d : MatrixSession) : MatrixEdit → Prop
  | .duplicate track scene => d.matrix.DuplicatesQuiet track scene
  | .triggerPad track _ => d.matrix.NoneHidden track
  | .triggerScene scene => ∀ t, (d.matrix.clip? t scene).isSome → d.matrix.NoneHidden t
  | _ => True

theorem onePlaying_edit {d : MatrixSession} (hone : d.matrix.OnePlaying) (disk : Disk)
    {e : MatrixEdit} (hshown : d.matrix.shows e = true) (hok : d.Exclusive e)
    {r : MatrixSession × List PadCommand} (hedit : d.edit disk e = some r) :
    r.1.matrix.OnePlaying := by
  cases e with
  | addTrack =>
    rw [← Option.some.inj hedit]
    exact hone.of_sub fun t s h => playsAt_addTrack h
  | removeTrack =>
    rw [← Option.some.inj hedit]
    exact hone.of_sub fun t s h => playsAt_removeTrack h
  | addScene =>
    rw [← Option.some.inj hedit]
    exact hone.of_sub fun t s h => playsAt_addScene h
  | removeScene =>
    rw [← Option.some.inj hedit]
    exact hone.of_sub fun t s h => playsAt_removeScene h
  | select track scene =>
    rw [← Option.some.inj hedit]
    exact hone
  | load track scene path =>
    obtain ⟨r, hload, rfl⟩ := Option.map_eq_some_iff.mp hedit
    exact hone.of_sub fun t s h => playsAt_loadClipIntoSlot hload h
  | copy track scene =>
    rw [← Option.some.inj hedit]
    exact hone
  | cut track scene =>
    rw [← Option.some.inj hedit]
    exact hone.of_sub fun t s h => playsAt_deleteSlot h
  | paste track scene =>
    obtain ⟨r, hpaste, rfl⟩ := Option.map_eq_some_iff.mp hedit
    exact hone.of_sub fun t s h => playsAt_pasteSlot hpaste h
  | duplicate track scene =>
    obtain ⟨r, hdup, rfl⟩ := Option.map_eq_some_iff.mp hedit
    have hscene := (of_decide_eq_true hshown).2
    exact hone.of_sub fun t s h => playsAt_duplicateSlot hdup hscene hok h
  | delete track scene =>
    rw [← Option.some.inj hedit]
    exact hone.of_sub fun t s h => playsAt_deleteSlot h
  | triggerPad track scene =>
    obtain ⟨r, htrigger, rfl⟩ := Option.map_eq_some_iff.mp hedit
    exact hone.triggerPad hok htrigger
  | triggerScene scene =>
    obtain ⟨r, htrigger, rfl⟩ := Option.map_eq_some_iff.mp hedit
    exact hone.triggerScene (of_decide_eq_true hshown) hok htrigger

/-- In a running application every track has at most one playing pad. -/
def PadsExclusive (d : Option MatrixSession) : Prop :=
  ∀ s, d = some s → s.matrix.OnePlaying

def ExclusiveStep (d : Option MatrixSession) (e : MatrixEdit) : Prop :=
  ∀ s, d = some s → s.matrix.shows e = true → s.Exclusive e

theorem padsExclusive_step (disk : Disk) (d : Option MatrixSession) (e : MatrixEdit)
    (h : PadsExclusive d) (hok : ExclusiveStep d e) : PadsExclusive (step disk d e) := by
  intro s' hs'
  obtain ⟨s, hs, hstep⟩ := Option.bind_eq_some_iff.mp hs'
  have hone := h s hs
  split at hstep
  case isTrue hshown =>
    obtain ⟨r, hedit, rfl⟩ := Option.map_eq_some_iff.mp hstep
    exact onePlaying_edit hone disk hshown (hok s hs hshown) hedit
  case isFalse =>
    rw [← Option.some.inj hstep]
    exact hone

/-- No run of edits makes two pads of a track play unless it duplicates a playing pad, or triggers a track
with a pad that plays beyond the scenes. -/
theorem always_padsExclusive (disk : Disk) {d : MatrixSession} (hstart : d.matrix.OnePlaying)
    {edits : List MatrixEdit} (hok : Along (step disk) ExclusiveStep (some d) edits) :
    Always (step disk) PadsExclusive (some d) edits := by
  have hfirst : PadsExclusive (some d) := by
    intro s hs
    rw [← Option.some.inj hs]
    exact hstart
  exact always_of_along (padsExclusive_step disk) hfirst hok

theorem default_onePlaying : SessionMatrixState.default.OnePlaying := by
  rintro t s s' ⟨slot, hslot, hstate⟩ _
  obtain ⟨row, hrow, hslot⟩ := Option.bind_eq_some_iff.mp hslot
  have hmem : row ∈ List.replicate 8 (List.replicate 8 MatrixSlot.default) := List.mem_of_getElem? hrow
  rw [List.eq_of_mem_replicate hmem] at hslot
  rw [List.eq_of_mem_replicate (List.mem_of_getElem? hslot)] at hstate
  exact absurd hstate (by decide)

theorem always_padsExclusive_duplicated_stopped :
    Always (step fun _ => none) PadsExclusive (some ⟨SessionMatrixState.default, none⟩)
      [.load 0 0 "/kick.wav", .duplicate 0 0, .copy 0 1] := by
  refine always_padsExclusive (fun _ => none) default_onePlaying ⟨?_, ?_, ?_, trivial⟩
  · exact fun _ _ _ => trivial
  · rintro s hs _ ⟨slot, hslot, hstate⟩
    have hstopped : ((step (fun _ => none) (some ⟨SessionMatrixState.default, none⟩)
        (.load 0 0 "/kick.wav")).bind fun s => (s.matrix.slot? 0 0).map MatrixSlot.state) =
          some .stopped := by decide
    rw [hs, Option.bind_some, hslot, Option.map_some, hstate] at hstopped
    exact absurd hstopped (by decide)
  · exact fun _ _ _ => trivial

/-- A playing pad duplicated after the start of the application: the copy plays too. -/
theorem not_always_padsExclusive_duplicated_playing :
    ¬ ∀ edits, Always (step fun _ => none) PadsExclusive (some ⟨SessionMatrixState.default, none⟩)
      edits := by
  intro h
  have hone := (h [.load 0 0 "/kick.wav", .triggerPad 0 0, .duplicate 0 0]).final
  have hstates : (([.load 0 0 "/kick.wav", .triggerPad 0 0, .duplicate 0 0].foldl
      (step fun _ => none) (some ⟨SessionMatrixState.default, none⟩)).map fun s =>
        ((s.matrix.slot? 0 0).map MatrixSlot.state, (s.matrix.slot? 0 1).map MatrixSlot.state)) =
      some (some .playing, some .playing) := by decide
  obtain ⟨s, hs, hboth⟩ := Option.map_eq_some_iff.mp hstates
  obtain ⟨hleft, hright⟩ := Prod.mk.inj hboth
  have h0 := hone s hs 0 0 1 (Option.map_eq_some_iff.mp hleft) (Option.map_eq_some_iff.mp hright)
  exact absurd h0 (by decide)

end MatrixSession

end HikaruOpenLive.Gui
