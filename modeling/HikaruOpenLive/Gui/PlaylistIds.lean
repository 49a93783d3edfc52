import HikaruOpenLive.Foundations.Runs
import HikaruOpenLive.Gui.FrameSync
import HikaruOpenLive.Gui.PlaylistEdits

/-! # The ids of the playlist

Every edit of a playlist whose ids are apart and below the counter leaves it so. A file brings both its
ids and its counter, and applying it checks neither against the other; the copies of a paste skip the
ids that are taken, a drop takes the counter as it is.
-/
set_option autoImplicit false

namespace HikaruOpenLive.Gui

open Transport Foundations.Runs

namespace PlaylistState

structure Numbered (s : PlaylistState) : Prop where
  ids : (s.clips.map fun x => x.2.id).Nodup
  fresh : ∀ x ∈ s.clips, x.2.id < s.nextClipId

theorem Sound.numbered {s : PlaylistState} (h : s.Sound) : s.Numbered :=
  ⟨h.ids, h.fresh⟩

/-- An edit with what it is made under: the files there are, the transport, and the rows. -/
structure Input where
  disk : Disk
  transport : TransportPosition
  rows : List ℕ
  edit : PlaylistEdit

/-- The playlist after an edit. It is gone after a panic, and when the counter leaves its 64 bits. -/
def step (d : Option PlaylistState) (i : Input) : Option PlaylistState :=
  d.bind fun s => (s.edit i.disk i.transport i.rows i.edit).bind fun r =>
    if r.1.nextClipId < 2 ^ 64 then some r.1 else none

theorem sound_step {d : Option PlaylistState} (h : ∀ s ∈ d, s.Sound) (i : Input) :
    ∀ s' ∈ step d i, s'.Sound := by
  intro s' hs'
  obtain ⟨s, rfl, hstep⟩ := Option.bind_eq_some_iff.mp hs'
  obtain ⟨r, hedit, hr⟩ := Option.bind_eq_some_iff.mp hstep
  have hok := edit_ok i.disk i.transport (h s rfl) hedit
  split at hr
  · exact Option.some.inj hr ▸ hok.sound
  · nomatch hr

theorem always_numbered {s : PlaylistState} (h : s.Sound) (is : List Input) :
    Always step (fun d => ∀ s' ∈ d, s'.Numbered) (some s) is := by
  have hsound : Always step (fun d => ∀ s' ∈ d, s'.Sound) (some s) is :=
    always_of_step (fun d i hd => sound_step hd i) fun s' hs' => Option.some.inj hs' ▸ h
  exact hsound.mono fun d hd s' hs' => (hd s' hs').numbered

end PlaylistState

/-! ## The playlist of a file -/

namespace SavedPlaylist

/-- The clips of a file that are on one of so many rows. -/
def kept (saved : SavedPlaylist) (strips : ℕ) : List (ℕ × PlaylistClip) :=
  saved.clips.filter fun x => decide (x.1 < strips)

/-- The ids of a file are apart and below its counter, which counts as 1 at least. -/
structure Numbered (saved : SavedPlaylist) (strips : ℕ) : Prop where
  ids : ((saved.kept strips).map fun x => x.2.id).Nodup
  fresh : ∀ x ∈ saved.kept strips, x.2.id < max saved.nextClipId 1

end SavedPlaylist

namespace ProjectState

section

variable (disk : Disk) (baseDir : Option String) (bpm : ℚ) (strips : ℕ) (saved : SavedPlaylist)

theorem clips_appliedPlaylist :
    (appliedPlaylist disk baseDir bpm strips saved).clips =
      (saved.kept strips).map fun x => (x.1, buildPlaylistClip disk baseDir (max saved.ppqn 1) bpm x.2) :=
  rfl

/-- Applying a file changes no id. -/
theorem numbered_appliedPlaylist_iff :
    (appliedPlaylist disk baseDir bpm strips saved).Numbered ↔ saved.Numbered strips := by
  have hids : (appliedPlaylist disk baseDir bpm strips saved).clips.map (fun x => x.2.id) =
      (saved.kept strips).map fun x => x.2.id := by
    rw [clips_appliedPlaylist, List.map_map]
    rfl
  have hnext : (appliedPlaylist disk baseDir bpm strips saved).nextClipId = max saved.nextClipId 1 := rfl
  constructor
  · rintro ⟨hnodup, hfresh⟩
    refine ⟨hids ▸ hnodup, fun x hx => ?_⟩
    rw [← hnext]
    exact hfresh (x.1, buildPlaylistClip disk baseDir (max saved.ppqn 1) bpm x.2)
      (List.mem_map_of_mem hx)
  · rintro ⟨hnodup, hfresh⟩
    refine ⟨hids.symm ▸ hnodup, fun x hx => ?_⟩
    rw [clips_appliedPlaylist] at hx
    obtain ⟨y, hy, rfl⟩ := List.mem_map.mp hx
    rw [hnext]
    exact hfresh y hy

variable {strips saved}

theorem sound_appliedPlaylist (h : saved.Numbered strips) :
    (appliedPlaylist disk baseDir bpm strips saved).Sound := by
  have hnumbered := (numbered_appliedPlaylist_iff disk baseDir bpm strips saved).mpr h
  refine ⟨hnumbered.ids, hnumbered.fresh, ?_, ?_⟩
  · intro x hx
    rw [clips_appliedPlaylist] at hx
    obtain ⟨y, _, rfl⟩ := List.mem_map.mp hx
    show 0 < max y.2.durationTicks 1
    omega
  · intro x hx
    exact nomatch hx

end

/-- The strips among which a studio project looks for the rows of its clips: those of the mode it is
opened from. -/
def stripsSeen (s : ProjectState) (project : OpenStudioProject) : ℕ :=
  match s.mode with
  | .openLive => s.liveTracks.length
  | .openStudio => (tracksOrDefault project.studioTracks defaultStudioTracks).length

/-- Rows that are strips of the project are all seen, unless there are fewer live strips. -/
theorem stripsSeen_iff {s : ProjectState} {project : OpenStudioProject} {α : Type} {l : List (ℕ × α)}
    (hrows : ∀ x ∈ l, x.1 < project.studioTracks.length) :
    (∀ x ∈ l, x.1 < s.stripsSeen project) ↔
      (s.mode = .openLive → ∀ x ∈ l, x.1 < s.liveTracks.length) := by
  unfold stripsSeen
  cases s.mode with
  | openLive => exact ⟨fun h _ => h, fun h => h rfl⟩
  | openStudio =>
    refine ⟨fun _ hmode => (nomatch hmode), fun _ x hx => ?_⟩
    have hx' := hrows x hx
    show x.1 < (tracksOrDefault project.studioTracks defaultStudioTracks).length
    cases hstrips : project.studioTracks with
    | nil =>
      rw [hstrips] at hx'
      exact absurd hx' (Nat.not_lt_zero _)
    | cons first rest =>
      rw [hstrips] at hx'
      exact hx'

theorem playlistState_applyOpenStudio (disk : Disk) (baseDir : Option String) (s : ProjectState)
    (project : OpenStudioProject) :
    (s.applyOpenStudio disk baseDir project).1.playlistState =
      appliedPlaylist disk baseDir (clampBpm project.transport.bpm) (s.stripsSeen project)
        project.playlist := by
  unfold applyOpenStudio applyLoop withBpm tracks stripsSeen
  cases s.mode with
  | openLive => rfl
  | openStudio => rfl

/-- The ids of the playlist stay apart and below its counter in every run of edits of an empty playlist,
and in every run of edits of an opened one if and only if they are so in its file. -/
theorem always_numbered_iff (disk : Disk) (baseDir : Option String) (s : ProjectState)
    (project : OpenStudioProject) :
    (∀ is, Always PlaylistState.step (fun d => ∀ s' ∈ d, s'.Numbered) (some .default) is) ∧
      ((∀ is, Always PlaylistState.step (fun d => ∀ s' ∈ d, s'.Numbered)
          (some (s.applyOpenStudio disk baseDir project).1.playlistState) is) ↔
        project.playlist.Numbered (s.stripsSeen project)) := by
  refine ⟨PlaylistState.always_numbered PlaylistState.sound_default, ?_⟩
  rw [playlistState_applyOpenStudio]
  constructor
  · intro halways
    exact (numbered_appliedPlaylist_iff disk baseDir _ _ _).mp ((halways []) _ rfl)
  · intro h
    exact PlaylistState.always_numbered (sound_appliedPlaylist disk baseDir _ h)

/-- A project with one clip, whose id is the next one. -/
def firstIdTaken : OpenStudioProject :=
  { transport := ⟨120, 0, 0, false⟩
    studioTracks := []
    playlist :=
      { clips := [(1, ⟨1, 0, 960, .audio "/kick.wav" 0 960⟩)], ppqn := 960, nextClipId := 1
        loopStartTicks := 0, loopEndTicks := 0, loopRegionActive := false } }

/-- The first file dropped gets the id of the clip there is. -/
theorem not_always_numbered_firstIdTaken :
    ¬ ∀ is, Always PlaylistState.step (fun d => ∀ s' ∈ d, s'.Numbered)
      (some (initial.applyOpenStudio (fun _ => none) none firstIdTaken).1.playlistState) is := by
  intro halways
  have hdrop := (halways [⟨fun _ => none, initial.transport, [1], .drop "/snare.wav" 0 0⟩]).final
  exact absurd (hdrop _ rfl).ids (by decide +kernel)

end ProjectState

end HikaruOpenLive.Gui
