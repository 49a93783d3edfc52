import Mathlib.Data.List.Nodup
import HikaruOpenLive.Gui.PlaylistState

/-! # The edits of the playlist

What every gesture and edit does to the clips: `Sound` has the ids of the clips apart and below the next
id and no clip without a length, and each edit keeps it. Only cutting and deleting take clips away.
-/
set_option autoImplicit false

namespace HikaruOpenLive.Gui

open Foundations.ListEdits Transport

/-- A place of the pointer is a tick before snapping and a row; `select` stands for clicks and for the
selection of a frame. -/
inductive PlaylistEdit where
  | drop (path : String) (rawTick row : ℕ)
  | startDrag (clipId : ℕ)
  | moveDrag (rawTick row : ℕ)
  | finishDrag
  | startTrim (clipId : ℕ) (edge : TrimEdge)
  | moveTrim (rawTick : ℕ)
  | finishTrim
  | select (clipIds : List ℕ)
  | copy
  | cut
  | paste
  | duplicate
  | delete
  | play (contended : Bool)

def PlaylistClip.isAudio (c : PlaylistClip) : Bool :=
  match c.clipType with
  | .audio _ _ _ => true
  | _ => false

/-- The file of an audio clip can be read. -/
def PlaylistClip.loads (disk : Disk) (c : PlaylistClip) : Bool :=
  match c.clipType with
  | .audio path _ _ => (disk path).isSome
  | _ => false

namespace PlaylistState

/-- The play button starts playback in OpenStudio, or pauses it. -/
def playCommands (s : PlaylistState) (t : TransportPosition) : List PlaylistCommand :=
  if t.playbackState = .playing then [.pause]
  else [.stopPreview, .setBpm t.bpm, .syncPlaylistClips (s.clipsToSync t), .seek t.sampleCount, .play]

/-- The playlist after an edit and what the edit sends; nothing after a panic. The menu and the keys do
the same. -/
def edit (disk : Disk) (t : TransportPosition) (rows : List ℕ) (s : PlaylistState) :
    PlaylistEdit → Option (PlaylistState × List PlaylistCommand)
  | .drop path rawTick row => some (s.dropAudioAtGridPos disk t.bpm path rawTick row rows)
  | .startDrag clipId => some (s.startClipDrag clipId, [])
  | .moveDrag rawTick row => some (s.updateClipDrag rawTick row rows, [])
  | .finishDrag => some (s.finishClipDrag t.bpm)
  | .startTrim clipId edge => some (s.startClipTrim clipId edge, [])
  | .moveTrim rawTick => (s.updateClipTrim rawTick).map fun s => (s, [])
  | .finishTrim => some (s.finishClipTrim t.bpm)
  | .select clipIds => some ({ s with selectedClips := clipIds }, [])
  | .copy => some (s.copySelectedClips, [])
  | .cut => some (s.cutSelectedClips t.bpm)
  | .paste => some (syncIfAny (s.pasteClips s.pasteTick s.gridTicks rows) t.bpm)
  | .duplicate => some (syncIfAny (s.duplicateSelectedClips s.gridTicks) t.bpm)
  | .delete => some (s.deleteKey, [])
  | .play _ => some (s, s.playCommands t)

/-! ## What holds of the clips -/

structure Sound (s : PlaylistState) : Prop where
  ids : (s.clips.map fun x => x.2.id).Nodup
  fresh : ∀ x ∈ s.clips, x.2.id < s.nextClipId
  long : ∀ x ∈ s.clips, 0 < x.2.durationTicks
  copied : ∀ x ∈ s.clipboard, 0 < x.2.durationTicks

theorem sound_default : default.Sound :=
  ⟨List.nodup_nil, by simp [default], by simp [default], by simp [default]⟩

/-- An audio clip of this id whose file can be read is on the playlist. -/
def Has (disk : Disk) (s : PlaylistState) (id : ℕ) : Prop :=
  ∃ x ∈ s.clips, x.2.id = id ∧ x.2.loads disk = true

theorem Sound.of_eq {s s' : PlaylistState} (h : s.Sound) (hclips : s'.clips = s.clips)
    (hnext : s'.nextClipId = s.nextClipId) (hclipboard : s'.clipboard = s.clipboard) : s'.Sound :=
  ⟨by rw [hclips]; exact h.ids, by rw [hclips, hnext]; exact h.fresh,
    by rw [hclips]; exact h.long, by rw [hclipboard]; exact h.copied⟩

/-- What a gesture may do to a clip. -/
structure Keeps (f : ℕ × PlaylistClip → ℕ × PlaylistClip) : Prop where
  id : ∀ x, (f x).2.id = x.2.id
  loads : ∀ disk x, (f x).2.loads disk = x.2.loads disk
  long : ∀ x, 0 < x.2.durationTicks → 0 < (f x).2.durationTicks

theorem sound_modifyClip {s : PlaylistState} (h : s.Sound) (clipId : ℕ)
    {f : ℕ × PlaylistClip → ℕ × PlaylistClip} (hf : Keeps f) : (s.modifyClip clipId f).Sound := by
  have hmem : ∀ x ∈ (s.modifyClip clipId f).clips, x ∈ s.clips ∨ ∃ y ∈ s.clips, x = f y := by
    intro x hx
    obtain hx | ⟨y, hy, _, rfl⟩ := mem_updateFirst hx
    · exact Or.inl hx
    · exact Or.inr ⟨y, hy, rfl⟩
  refine ⟨?_, ?_, ?_, h.copied⟩
  · have hids := map_updateFirst (g := fun x : ℕ × PlaylistClip => x.2.id)
      (fun x : ℕ × PlaylistClip => decide (x.2.id = clipId)) f hf.id s.clips
    exact hids ▸ h.ids
  · intro x hx
    obtain hx | ⟨y, hy, rfl⟩ := hmem x hx
    · exact h.fresh x hx
    · rw [hf.id]
      exact h.fresh y hy
  · intro x hx
    obtain hx | ⟨y, hy, rfl⟩ := hmem x hx
    · exact h.long x hx
    · exact hf.long y (h.long y hy)

theorem has_modifyClip {s : PlaylistState} (disk : Disk) (clipId : ℕ)
    {f : ℕ × PlaylistClip → ℕ × PlaylistClip} (hf : Keeps f) {id : ℕ} (h : s.Has disk id) :
    (s.modifyClip clipId f).Has disk id := by
  obtain ⟨x, hx, hid, hloads⟩ := h
  have hpairs := map_updateFirst (g := fun x : ℕ × PlaylistClip => (x.2.id, x.2.loads disk))
    (fun x : ℕ × PlaylistClip => decide (x.2.id = clipId)) f
    (fun x => Prod.ext (hf.id x) (hf.loads disk x)) s.clips
  have hx' : (x.2.id, x.2.loads disk) ∈
      (s.modifyClip clipId f).clips.map fun x => (x.2.id, x.2.loads disk) := by
    rw [show (s.modifyClip clipId f).clips.map (fun x => (x.2.id, x.2.loads disk)) = _ from hpairs]
    exact List.mem_map_of_mem hx
  obtain ⟨y, hy, hyx⟩ := List.mem_map.mp hx'
  rw [Prod.mk.injEq] at hyx
  exact ⟨y, hy, hyx.1.trans hid, hyx.2.trans hloads⟩

theorem keeps_move (newKey newTick : ℕ) :
    Keeps fun x => (newKey, { x.2 with startTick := newTick }) :=
  ⟨fun _ => rfl, fun _ _ => rfl, fun _ h => h⟩

theorem keeps_withBounds (start offset : ℕ) {dur : ℕ} (hdur : 0 < dur) :
    Keeps fun x => (x.1, x.2.withBounds start dur offset) := by
  refine ⟨fun _ => rfl, ?_, fun _ _ => hdur⟩
  rintro disk ⟨key, id, start', dur', clipType⟩
  cases clipType with
  | pattern patternId => rfl
  | audio path offset' total => rfl
  | automation targetParam => rfl

/-! ## Removals and copies -/

theorem sound_removeSelected {s : PlaylistState} (h : s.Sound) : s.removeSelected.Sound := by
  refine ⟨h.ids.sublist (List.filter_sublist.map _), ?_, ?_, h.copied⟩
  · exact fun x hx => h.fresh x (List.mem_filter.mp hx).1
  · exact fun x hx => h.long x (List.mem_filter.mp hx).1

theorem has_removeSelected {s : PlaylistState} {disk : Disk} {id : ℕ} (h : s.Has disk id)
    (hkept : id ∉ s.selectedClips) : s.removeSelected.Has disk id := by
  obtain ⟨x, hx, hid, hloads⟩ := h
  refine ⟨x, List.mem_filter.mpr ⟨hx, ?_⟩, hid, hloads⟩
  rw [decide_eq_true_eq, hid]
  exact hkept

theorem sound_copySelectedClips {s : PlaylistState} (h : s.Sound) : s.copySelectedClips.Sound := by
  unfold copySelectedClips
  split
  · exact h
  · exact ⟨h.ids, h.fresh, h.long, fun x hx => h.long x (List.mem_filter.mp hx).1⟩

/-- A clip added under an id that no clip has yet. -/
theorem sound_append {s : PlaylistState} (h : s.Sound) (entry : ℕ × PlaylistClip) {next : ℕ}
    (hid : ∀ x ∈ s.clips, x.2.id < entry.2.id) (hnext : s.nextClipId ≤ next) (hlt : entry.2.id < next)
    (hlong : 0 < entry.2.durationTicks) :
    { s with clips := s.clips ++ [entry], nextClipId := next }.Sound := by
  refine ⟨?_, ?_, ?_, h.copied⟩
  · rw [List.map_append, List.nodup_append]
    refine ⟨h.ids, by simp, ?_⟩
    intro a ha b hb hab
    obtain ⟨x, hx, rfl⟩ := List.mem_map.mp ha
    rw [List.map_singleton, List.mem_singleton] at hb
    exact absurd (hab.trans hb) (hid x hx).ne
  · intro x hx
    obtain hx | hx := List.mem_append.mp hx
    · exact (h.fresh x hx).trans_le hnext
    · obtain rfl := List.mem_singleton.mp hx
      exact hlt
  · intro x hx
    obtain hx | hx := List.mem_append.mp hx
    · exact h.long x hx
    · obtain rfl := List.mem_singleton.mp hx
      exact hlong

theorem sound_appendCopy {r : PlaylistState × List ℕ} (h : r.1.Sound) (delta grid : ℕ)
    {entry : ℕ × PlaylistClip} (hlong : 0 < entry.2.durationTicks) :
    (appendCopy delta grid r entry).1.Sound :=
  sound_append h _ (fun _ hx => lt_nextFreeClipId_of_mem hx) (Nat.le_max_left _ _)
    (Nat.lt_of_lt_of_le (Nat.lt_succ_self _) (Nat.le_max_right _ _)) hlong

theorem foldl_appendCopy {entries : List (ℕ × PlaylistClip)} {r : PlaylistState × List ℕ}
    (h : r.1.Sound) (delta grid : ℕ) (hlong : ∀ x ∈ entries, 0 < x.2.durationTicks) :
    (entries.foldl (appendCopy delta grid) r).1.Sound ∧
      r.1.clips.Sublist (entries.foldl (appendCopy delta grid) r).1.clips := by
  induction entries generalizing r with
  | nil => exact ⟨h, List.Sublist.refl _⟩
  | cons entry entries ih =>
    have hstep := sound_appendCopy h delta grid (hlong entry List.mem_cons_self)
    obtain ⟨hsound, hsub⟩ := ih hstep fun x hx => hlong x (List.mem_cons_of_mem entry hx)
    exact ⟨hsound, (List.sublist_append_left _ _).trans hsub⟩

theorem trimApply_long {d : TrimDrag} {edgeTick minTicks : ℕ} (hmin : 0 < minTicks) {r : ℕ × ℕ × ℕ}
    (h : trimApply d edgeTick minTicks = some r) : 0 < r.2.1 := by
  unfold trimApply at h
  cases hedge : d.edge with
  | right =>
    rw [hedge] at h
    obtain rfl := Option.some.inj h
    exact Nat.lt_of_lt_of_le hmin (Nat.le_max_right _ _)
  | left =>
    rw [hedge] at h
    simp only at h
    split at h
    · exact absurd h (Option.some_ne_none _).symm
    · obtain rfl := Option.some.inj h
      exact Nat.lt_of_lt_of_le hmin (Nat.le_max_right _ _)

/-! ## One edit -/

/-- What an edit takes away. -/
def removes (s : PlaylistState) (id : ℕ) : PlaylistEdit → Prop
  | .cut | .delete => id ∈ s.selectedClips
  | _ => False

end PlaylistState

/-- A load is of a clip on the playlist, and a sync is of all its clips. -/
def PlaylistCommand.fits (disk : Disk) (t : TransportPosition) (s : PlaylistState) :
    PlaylistCommand → Prop
  | .loadClip clipId path _ _ _ _ => (disk path).isSome → s.Has disk clipId
  | .syncPlaylistClips clips => clips = s.clipsToSync t
  | _ => True

namespace PlaylistState

theorem fits_syncAllClipsToEngine (disk : Disk) (t : TransportPosition) (s : PlaylistState) (bpm : ℚ) :
    ∀ cmd ∈ s.syncAllClipsToEngine bpm, cmd.fits disk t s := by
  intro cmd hcmd
  obtain ⟨⟨key, id, start, dur, clipType⟩, hx, hsent⟩ := List.mem_filterMap.mp hcmd
  cases clipType with
  | pattern patternId => exact absurd hsent (Option.some_ne_none _).symm
  | automation targetParam => exact absurd hsent (Option.some_ne_none _).symm
  | audio path offset total =>
    obtain rfl := Option.some.inj hsent
    exact fun hsome => ⟨_, hx, rfl, hsome⟩

theorem fits_boundsCommands (disk : Disk) (t : TransportPosition) (s s' : PlaylistState) (clipId : ℕ)
    (moved : Bool) (bpm : ℚ) : ∀ cmd ∈ s.boundsCommands clipId moved bpm, cmd.fits disk t s' := by
  intro cmd hcmd
  unfold boundsCommands at hcmd
  split at hcmd
  · split at hcmd
    · obtain rfl := List.mem_singleton.mp hcmd
      trivial
    · exact absurd hcmd List.not_mem_nil
  · exact absurd hcmd List.not_mem_nil

/-- What one edit keeps: soundness, and every clip that it does not take away; and what it sends is about
the clips it leaves. -/
structure EditOk (disk : Disk) (t : TransportPosition) (s : PlaylistState) (e : PlaylistEdit)
    (r : PlaylistState × List PlaylistCommand) : Prop where
  sound : r.1.Sound
  has : ∀ id, s.Has disk id → ¬ s.removes id e → r.1.Has disk id
  fits : ∀ cmd ∈ r.2, cmd.fits disk t r.1

theorem EditOk.quiet {disk : Disk} {t : TransportPosition} {s s' : PlaylistState} {e : PlaylistEdit}
    (hsound : s'.Sound) (hhas : ∀ id, s.Has disk id → ¬ s.removes id e → s'.Has disk id) :
    EditOk disk t s e (s', []) :=
  ⟨hsound, hhas, fun _ hcmd => absurd hcmd List.not_mem_nil⟩

theorem Has.of_sublist {disk : Disk} {s s' : PlaylistState} {id : ℕ} (h : s.Has disk id)
    (hsub : s.clips.Sublist s'.clips) : s'.Has disk id := by
  obtain ⟨x, hx, hid⟩ := h
  exact ⟨x, hsub.subset hx, hid⟩

section

variable (disk : Disk) (t : TransportPosition) {s : PlaylistState}

theorem drop_ok (h : s.Sound) (path : String) (rawTick row : ℕ) (rows : List ℕ) :
    EditOk disk t s (.drop path rawTick row)
      (s.dropAudioAtGridPos disk t.bpm path rawTick row rows) := by
  unfold dropAudioAtGridPos
  split
  · exact .quiet h fun _ hhas _ => hhas
  · rename_i target _
    have hlong : 0 < (buildAudioClip disk s.nextClipId path (snapTicks rawTick s.gridTicks)
        (max s.ppqn 1) t.bpm).durationTicks := Nat.lt_of_lt_of_le Nat.one_pos (Nat.le_max_right _ _)
    have hsound := sound_append h (target, buildAudioClip disk s.nextClipId path
      (snapTicks rawTick s.gridTicks) (max s.ppqn 1) t.bpm) h.fresh (Nat.le_succ _)
      (Nat.lt_succ_self s.nextClipId) hlong
    refine ⟨hsound.of_eq rfl rfl rfl, fun id hhas _ => hhas.of_sublist (List.sublist_append_left _ _), ?_⟩
    intro cmd hcmd
    obtain rfl := List.mem_singleton.mp hcmd
    exact fun hsome => ⟨_, List.mem_append_right _ (List.mem_singleton_self _), rfl, hsome⟩

theorem moveDrag_ok (h : s.Sound) (rawTick row : ℕ) (rows : List ℕ) :
    EditOk disk t s (.moveDrag rawTick row) (s.updateClipDrag rawTick row rows, []) := by
  unfold updateClipDrag
  split
  · rename_i drag newKey _ _
    have hkeeps := keeps_move newKey (snapTicks rawTick s.gridTicks)
    exact .quiet ((sound_modifyClip h drag.clipId hkeeps).of_eq rfl rfl rfl)
      fun id hhas _ => has_modifyClip disk drag.clipId hkeeps hhas
  · exact .quiet h fun _ hhas _ => hhas

theorem moveTrim_ok (h : s.Sound) (rawTick : ℕ) {s' : PlaylistState}
    (htrim : s.updateClipTrim rawTick = some s') : EditOk disk t s (.moveTrim rawTick) (s', []) := by
  unfold updateClipTrim at htrim
  split at htrim
  · obtain rfl := Option.some.inj htrim
    exact .quiet h fun _ hhas _ => hhas
  · rename_i drag _
    split at htrim
    · obtain rfl := Option.some.inj htrim
      exact .quiet (h.of_eq rfl rfl rfl) fun _ hhas _ => hhas
    · obtain ⟨⟨start, dur, offset⟩, happly, rfl⟩ := Option.map_eq_some_iff.mp htrim
      have hdur : 0 < dur := trimApply_long (Nat.lt_of_lt_of_le Nat.one_pos (Nat.le_max_right _ _)) happly
      have hkeeps := keeps_withBounds start offset hdur
      simp only
      split
      · exact .quiet h fun _ hhas _ => hhas
      · exact .quiet ((sound_modifyClip h drag.clipId hkeeps).of_eq rfl rfl rfl)
          fun id hhas _ => has_modifyClip disk drag.clipId hkeeps hhas

theorem finishDrag_ok (h : s.Sound) : EditOk disk t s .finishDrag (s.finishClipDrag t.bpm) := by
  unfold finishClipDrag
  split
  · exact .quiet h fun _ hhas _ => hhas
  · exact ⟨h.of_eq rfl rfl rfl, fun _ hhas _ => hhas, fits_boundsCommands disk t s _ _ _ _⟩

theorem finishTrim_ok (h : s.Sound) : EditOk disk t s .finishTrim (s.finishClipTrim t.bpm) := by
  unfold finishClipTrim
  split
  · exact .quiet h fun _ hhas _ => hhas
  · exact ⟨h.of_eq rfl rfl rfl, fun _ hhas _ => hhas, fits_boundsCommands disk t s _ _ _ _⟩

theorem startDrag_ok (h : s.Sound) (clipId : ℕ) :
    EditOk disk t s (.startDrag clipId) (s.startClipDrag clipId, []) := by
  unfold startClipDrag
  split
  · exact .quiet h fun _ hhas _ => hhas
  · exact .quiet (h.of_eq rfl rfl rfl) fun _ hhas _ => hhas

theorem startTrim_ok (h : s.Sound) (clipId : ℕ) (edge : TrimEdge) :
    EditOk disk t s (.startTrim clipId edge) (s.startClipTrim clipId edge, []) := by
  unfold startClipTrim
  split
  · exact .quiet (h.of_eq rfl rfl rfl) fun _ hhas _ => hhas
  · exact .quiet h fun _ hhas _ => hhas

theorem copy_ok (h : s.Sound) : EditOk disk t s .copy (s.copySelectedClips, []) := by
  have hclips : s.copySelectedClips.clips = s.clips := by
    unfold copySelectedClips
    split
    · rfl
    · rfl
  refine .quiet (sound_copySelectedClips h) fun id hhas _ => hhas.of_sublist ?_
  rw [hclips]

theorem cut_ok (h : s.Sound) : EditOk disk t s .cut (s.cutSelectedClips t.bpm) := by
  unfold cutSelectedClips
  split
  · exact .quiet h fun _ hhas _ => hhas
  · rename_i hsome
    have hcopy : s.copySelectedClips = { s with clipboard := s.selected } := if_neg hsome
    refine ⟨sound_removeSelected (sound_copySelectedClips h), ?_, fits_syncAllClipsToEngine disk t _ _⟩
    intro id hhas hkept
    rw [hcopy]
    exact has_removeSelected (s := { s with clipboard := s.selected }) hhas hkept

theorem delete_ok (h : s.Sound) : EditOk disk t s .delete (s.deleteKey, []) := by
  unfold deleteKey
  split
  · exact .quiet h fun _ hhas _ => hhas
  · exact .quiet (sound_removeSelected h) fun id hhas hkept => has_removeSelected hhas hkept

theorem appendCopies_ok (h : s.Sound) {entries : List (ℕ × PlaylistClip)}
    (hlong : ∀ x ∈ entries, 0 < x.2.durationTicks) (delta grid : ℕ) (e : PlaylistEdit) :
    EditOk disk t s e (syncIfAny (s.appendCopies entries delta grid) t.bpm) := by
  obtain ⟨hsound, hsub⟩ := foldl_appendCopy (r := (s, [])) h delta grid hlong
  refine ⟨hsound.of_eq rfl rfl rfl, fun id hhas _ => hhas.of_sublist hsub, ?_⟩
  intro cmd hcmd
  unfold syncIfAny at hcmd
  simp only at hcmd
  split at hcmd
  · exact absurd hcmd List.not_mem_nil
  · exact fits_syncAllClipsToEngine disk t _ t.bpm cmd hcmd

theorem paste_ok (h : s.Sound) (atTick grid : ℕ) (rows : List ℕ) :
    EditOk disk t s .paste (syncIfAny (s.pasteClips atTick grid rows) t.bpm) := by
  unfold pasteClips
  split
  · exact .quiet h fun _ hhas _ => hhas
  · exact appendCopies_ok disk t h (fun x hx => h.copied x (List.mem_filter.mp hx).1) _ _ _

theorem duplicate_ok (h : s.Sound) (grid : ℕ) :
    EditOk disk t s .duplicate (syncIfAny (s.duplicateSelectedClips grid) t.bpm) := by
  unfold duplicateSelectedClips
  split
  · exact .quiet h fun _ hhas _ => hhas
  · exact appendCopies_ok disk t h (fun x hx => h.long x (List.mem_filter.mp hx).1) _ _ _

theorem play_ok (h : s.Sound) (contended : Bool) :
    EditOk disk t s (.play contended) (s, s.playCommands t) := by
  refine ⟨h, fun _ hhas _ => hhas, ?_⟩
  intro cmd hcmd
  unfold playCommands at hcmd
  split at hcmd
  · obtain rfl := List.mem_singleton.mp hcmd
    trivial
  · simp only [List.mem_cons, List.not_mem_nil, or_false] at hcmd
    obtain rfl | rfl | rfl | rfl | rfl := hcmd
    · trivial
    · trivial
    · rfl
    · trivial
    · trivial

/-- Every edit keeps the playlist sound. -/
theorem edit_ok (h : s.Sound) {rows : List ℕ} {e : PlaylistEdit}
    {r : PlaylistState × List PlaylistCommand} (hedit : s.edit disk t rows e = some r) :
    EditOk disk t s e r := by
  cases e with
  | moveTrim rawTick =>
    obtain ⟨s', htrim, rfl⟩ := Option.map_eq_some_iff.mp hedit
    exact moveTrim_ok disk t h rawTick htrim
  | drop path rawTick row => exact Option.some.inj hedit ▸ drop_ok disk t h path rawTick row rows
  | startDrag clipId => exact Option.some.inj hedit ▸ startDrag_ok disk t h clipId
  | moveDrag rawTick row => exact Option.some.inj hedit ▸ moveDrag_ok disk t h rawTick row rows
  | finishDrag => exact Option.some.inj hedit ▸ finishDrag_ok disk t h
  | startTrim clipId edge => exact Option.some.inj hedit ▸ startTrim_ok disk t h clipId edge
  | finishTrim => exact Option.some.inj hedit ▸ finishTrim_ok disk t h
  | select clipIds =>
    exact Option.some.inj hedit ▸ .quiet (h.of_eq rfl rfl rfl) fun _ hhas _ => hhas
  | copy => exact Option.some.inj hedit ▸ copy_ok disk t h
  | cut => exact Option.some.inj hedit ▸ cut_ok disk t h
  | paste => exact Option.some.inj hedit ▸ paste_ok disk t h s.pasteTick s.gridTicks rows
  | duplicate => exact Option.some.inj hedit ▸ duplicate_ok disk t h s.gridTicks
  | delete => exact Option.some.inj hedit ▸ delete_ok disk t h
  | play contended => exact Option.some.inj hedit ▸ play_ok disk t h contended

end

end PlaylistState

end HikaruOpenLive.Gui
