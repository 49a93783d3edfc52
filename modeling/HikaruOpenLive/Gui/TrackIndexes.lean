import HikaruOpenLive.Gui.MixControls

/-! # The engine's index of a mixer strip

Every command about a track carries an index of the engine, and every view and every project works it out
by itself. For the strip at index `p` of the mixer, with the master at index 0, some of them send `p` and
the others `p - 1` (`Sends.index`). So they agree on a strip only where the two are the same, which is at
index 0; and a project that is opened pushes the mix of the strips under indexes at which other strips'
pads play.
-/
set_option autoImplicit false

namespace HikaruOpenLive.Gui

open Engine Foundations.ListEdits

/-! ## The commands -/

/-- A command that the GUI sends for one track, or one clip of a sync. -/
inductive TrackCommand where
  | mixer (cmd : MixerCommand)
  | pad (cmd : PadCommand)
  | playlist (cmd : PlaylistCommand)
  | syncedClip (clip : AudioClipData)
  | rack (cmd : GuiCommand)

def mixerCommandTrack : MixerCommand → Option ℕ
  | .setTrackVolume trackIdx _ | .setTrackPan trackIdx _ | .setTrackMute trackIdx _
  | .setTrackSolo trackIdx _ => some trackIdx
  | .setMasterVolume _ => none

def padCommandTrack : PadCommand → Option ℕ
  | .loadClip _ _ trackIndex _ => some trackIndex
  | .setClipEvents trackIdx _ _ | .setClipLoop trackIdx _ _ _ _ | .updateMidiClipNotes trackIdx _ _
  | .triggerClip trackIdx _ => some trackIdx
  | .triggerScene _ => none

def playlistCommandTrack : PlaylistCommand → Option ℕ
  | .loadClip _ _ _ _ _ trackIndex | .updateClipBounds _ trackIndex _ _ _ => some trackIndex
  | .stopPreview | .setBpm _ | .syncPlaylistClips _ | .seek _ | .play | .pause => none

def rackCommandTrack : GuiCommand → Option ℕ
  | .loadExternalPlugin trackIdx _ _ | .removeExternalPlugin trackIdx _
  | .syncExternalPluginParams trackIdx _ _ => some trackIdx
  | .moveExternalPlugin _ _ _ _ => none

def TrackCommand.engineTrack : TrackCommand → Option ℕ
  | .mixer cmd => mixerCommandTrack cmd
  | .pad cmd => padCommandTrack cmd
  | .playlist cmd => playlistCommandTrack cmd
  | .syncedClip clip => some clip.trackIndex
  | .rack cmd => rackCommandTrack cmd

/-- What a flush sends for one track. -/
def AppState.trackSyncs (track : Track) (trackIdx : ℕ) : List GuiCommand :=
  match engineTrackOf trackIdx with
  | none => []
  | some engineIdx =>
    track.effects.zipIdx.filterMap fun (slot, slotIdx) => syncCommand engineIdx slotIdx slot

theorem AppState.flush_commands (st : AppState) :
    st.flushPendingExternalParams.2 =
      st.tracks.zipIdx.flatMap fun (track, trackIdx) => trackSyncs track trackIdx := rfl

namespace ProjectState

/-- The application as its rack sees it. -/
def rack (s : ProjectState) (fxTracks : List Track) (selectedTrackIndex selectedSlotIndex : ℕ) :
    AppState :=
  { mode := s.mode
    liveTracks := s.liveTracks.map MixerStrip.toTrack
    studioTracks := s.studioTracks.map MixerStrip.toTrack
    fxTracks := fxTracks
    selectedTrackIndex := selectedTrackIndex
    selectedSlotIndex := selectedSlotIndex }

/-- The strip that a channel strip of the visible mixer stands for, the master's and the returns' apart. -/
def shownStrip (s : ProjectState) (target : StripTarget) : Option ℕ :=
  match s.mode, target with
  | .openLive, .live idx => some (idx + 1)
  | .openStudio, .studio (idx + 1) => some (idx + 1)
  | _, _ => none

/-- What can be sent for the strip at an index of the visible mixer, place by place. -/
inductive Sends (disk : Disk) (s : ProjectState) : ℕ → TrackCommand → Prop where
  | projectPush {p : ℕ} {t : MixerStrip} {cmd : MixerCommand} (strip : s.tracks[p]? = some t)
      (sent : cmd ∈ t.mixCommands p) : Sends disk s p (.mixer cmd)
  | frameSync {i : ℕ} {mx oldMx : TrackMeta} {t oldMix : MixerStrip} {cmd : MixerCommand}
      (live : s.mode = .openLive) (track : s.matrix.matrix.tracks[i]? = some mx)
      (strip : s.liveTracks[i + 1]? = some t) (sent : cmd ∈ (syncStrip i oldMx oldMix mx t).2.2) :
      Sends disk s (i + 1) (.mixer cmd)
  | matrixVolume {i : ℕ} {volume : ℚ} {cmd : MixerCommand} (live : s.mode = .openLive)
      (sent : cmd ∈ (s.applyMatrixVolume i volume).2) : Sends disk s (i + 1) (.mixer cmd)
  | matrixPan {i : ℕ} {pan : ℚ} {cmd : MixerCommand} (live : s.mode = .openLive)
      (sent : cmd ∈ (s.applyMatrixPan i pan).2) : Sends disk s (i + 1) (.mixer cmd)
  | matrixMute {i : ℕ} {r : ProjectState × List MixerCommand} {cmd : MixerCommand}
      (live : s.mode = .openLive) (done : s.toggleMatrixMute i = some r) (sent : cmd ∈ r.2) :
      Sends disk s (i + 1) (.mixer cmd)
  | matrixSolo {i : ℕ} {r : ProjectState × List MixerCommand} {cmd : MixerCommand}
      (live : s.mode = .openLive) (done : s.toggleMatrixSolo i = some r) (sent : cmd ∈ r.2) :
      Sends disk s (i + 1) (.mixer cmd)
  | stripVolume {p : ℕ} {target : StripTarget} {volume : ℚ} {cmd : MixerCommand}
      (shown : s.shownStrip target = some p) (sent : cmd ∈ (s.setVolume target volume).2) :
      Sends disk s p (.mixer cmd)
  | stripPan {p : ℕ} {target : StripTarget} {pan : ℚ} {cmd : MixerCommand}
      (shown : s.shownStrip target = some p) (sent : cmd ∈ (s.setPan target pan).2) :
      Sends disk s p (.mixer cmd)
  | stripMute {p : ℕ} {target : StripTarget} {cmd : MixerCommand}
      (shown : s.shownStrip target = some p) (sent : cmd ∈ (s.toggleMuteTarget target).2) :
      Sends disk s p (.mixer cmd)
  | stripSolo {p : ℕ} {target : StripTarget} {cmd : MixerCommand}
      (shown : s.shownStrip target = some p) (sent : cmd ∈ (s.toggleSoloTarget target).2) :
      Sends disk s p (.mixer cmd)
  | rowVolume {p : ℕ} {volume : ℚ} {cmd : MixerCommand} (row : p ∈ rowKeysOf s.tracks)
      (sent : cmd ∈ (s.applyPlaylistVolume p volume).2) : Sends disk s p (.mixer cmd)
  | rowPan {p : ℕ} {pan : ℚ} {cmd : MixerCommand} (row : p ∈ rowKeysOf s.tracks)
      (sent : cmd ∈ (s.applyPlaylistPan p pan).2) : Sends disk s p (.mixer cmd)
  | rowMute {p : ℕ} {cmd : MixerCommand} (row : p ∈ rowKeysOf s.tracks)
      (sent : cmd ∈ (s.togglePlaylistMute p).2) : Sends disk s p (.mixer cmd)
  | rowSolo {p : ℕ} {cmd : MixerCommand} (row : p ∈ rowKeysOf s.tracks)
      (sent : cmd ∈ (s.togglePlaylistSolo p).2) : Sends disk s p (.mixer cmd)
  | padLoad {i scene : ℕ} {path : String} {r : SessionMatrixState × List PadCommand}
      {cmd : PadCommand} (live : s.mode = .openLive)
      (done : s.matrix.matrix.loadClipIntoSlot disk i scene path = some r) (sent : cmd ∈ r.2) :
      Sends disk s (i + 1) (.pad cmd)
  | padRegister {i scene : ℕ} {clip : MatrixClip} {cmd : PadCommand} (live : s.mode = .openLive)
      (pad : s.matrix.matrix.clip? i scene = some clip)
      (sent : cmd ∈ registerClip s.transport.bpm clip i scene) : Sends disk s (i + 1) (.pad cmd)
  | clipDrop {p row rawTick : ℕ} {path : String} {cmd : PlaylistCommand}
      (key : (rowKeysOf s.tracks)[min row ((rowKeysOf s.tracks).length - 1)]? = some p)
      (sent : cmd ∈ (s.playlistState.dropAudioAtGridPos disk s.transport.bpm path rawTick row
        (rowKeysOf s.tracks)).2) : Sends disk s p (.playlist cmd)
  | clipReload {p : ℕ} {clip : PlaylistClip} {cmd : PlaylistCommand}
      (placed : (p, clip) ∈ s.playlistState.clips)
      (sent : cmd ∈ ({ s.playlistState with clips := [(p, clip)] }).syncAllClipsToEngine
        s.transport.bpm) : Sends disk s p (.playlist cmd)
  | clipSync {p : ℕ} {clip : PlaylistClip} {data : AudioClipData}
      (placed : (p, clip) ∈ s.playlistState.clips)
      (sent : data ∈ ({ s.playlistState with clips := [(p, clip)] }).clipsToSync s.transport) :
      Sends disk s p (.syncedClip data)
  | pluginLoad {p slot slotIdx : ℕ} {t : MixerStrip} {fxTracks : List Track} {plugin : ExternalPlugin}
      {cmd : GuiCommand} (strip : s.tracks[p]? = some t)
      (sent : cmd ∈ ((s.rack fxTracks p slot).assignExternalPlugin p slotIdx plugin).2) :
      Sends disk s p (.rack cmd)
  | pluginParams {p : ℕ} {t : MixerStrip} {cmd : GuiCommand} (strip : s.tracks[p]? = some t)
      (sent : cmd ∈ AppState.trackSyncs t.toTrack p) : Sends disk s p (.rack cmd)

end ProjectState

/-! ## Which index is sent -/

theorem track_mixChange (idx : ℕ) (c : MixChange) : mixerCommandTrack (c.command idx) = some idx := by
  cases c with
  | volume v => rfl
  | pan v => rfl
  | mute on => rfl
  | solo on => rfl

theorem track_mixCommands {t : MixerStrip} {p : ℕ} {cmd : MixerCommand} (h : cmd ∈ t.mixCommands p) :
    mixerCommandTrack cmd = some p := by
  unfold MixerStrip.mixCommands at h
  simp only [List.mem_cons, List.not_mem_nil, or_false] at h
  obtain rfl | rfl | rfl | rfl := h
  · rfl
  · rfl
  · rfl
  · rfl

theorem track_syncStrip {i : ℕ} {mx oldMx : TrackMeta} {t oldMix : MixerStrip} {cmd : MixerCommand}
    (h : cmd ∈ (syncStrip i oldMx oldMix mx t).2.2) : mixerCommandTrack cmd = some i := by
  have hif : ∀ {b : Bool} {c : MixerCommand}, mixerCommandTrack c = some i →
      cmd ∈ (if b then [c] else []) → mixerCommandTrack cmd = some i := by
    intro b c hc hcmd
    cases b with
    | false => exact absurd hcmd List.not_mem_nil
    | true => rw [List.mem_singleton.mp hcmd, hc]
  unfold syncStrip at h
  simp only [List.mem_append] at h
  obtain ((h | h) | h) | h := h
  · exact hif rfl h
  · exact hif rfl h
  · exact hif rfl h
  · exact hif rfl h

theorem track_syncMidiClip {m : SessionMatrixState} {track scene : ℕ} {cmd : PadCommand}
    (h : cmd ∈ m.syncMidiClip track scene) : padCommandTrack cmd = some track := by
  unfold SessionMatrixState.syncMidiClip at h
  split at h
  · rw [List.mem_singleton.mp h]
    rfl
  · exact absurd h List.not_mem_nil

theorem track_syncAudioEvents {clip : MatrixClip} {track scene : ℕ} {cmd : PadCommand}
    (h : cmd ∈ clip.syncAudioEventsToEngine track scene) : padCommandTrack cmd = some track := by
  unfold MatrixClip.syncAudioEventsToEngine at h
  split at h
  · rw [List.mem_singleton.mp h]
    rfl
  · exact absurd h List.not_mem_nil

theorem track_loadClipIntoSlot {disk : Disk} {m : SessionMatrixState} {track scene : ℕ} {path : String}
    {r : SessionMatrixState × List PadCommand} (h : m.loadClipIntoSlot disk track scene path = some r)
    {cmd : PadCommand} (hcmd : cmd ∈ r.2) : padCommandTrack cmd = some track := by
  unfold SessionMatrixState.loadClipIntoSlot at h
  simp only at h
  split at h
  · obtain ⟨m', _, rfl⟩ := Option.map_eq_some_iff.mp h
    exact track_syncMidiClip hcmd
  · split at h
    · obtain rfl := Option.some.inj h
      unfold MatrixClip.appendSampleAsEvent at hcmd
      split at hcmd
      · exact track_syncAudioEvents hcmd
      · rw [List.mem_singleton.mp hcmd]
        rfl
    · obtain ⟨m', _, rfl⟩ := Option.map_eq_some_iff.mp h
      rw [List.mem_singleton.mp hcmd]
      rfl

theorem track_registerClip {bpm : ℚ} {clip : MatrixClip} {track scene : ℕ} {cmd : PadCommand}
    (h : cmd ∈ registerClip bpm clip track scene) : padCommandTrack cmd = some track := by
  unfold registerClip at h
  obtain h | h := List.mem_append.mp h
  · split at h
    · obtain rfl | h := List.mem_cons.mp h
      · rfl
      · split at h
        · exact absurd h List.not_mem_nil
        · exact track_syncAudioEvents h
    · rw [List.mem_singleton.mp h]
      rfl
  · rw [List.mem_singleton.mp h]
    rfl

theorem track_syncAllClips {s : PlaylistState} {bpm : ℚ} {p : ℕ} {clip : PlaylistClip}
    {cmd : PlaylistCommand}
    (h : cmd ∈ ({ s with clips := [(p, clip)] } : PlaylistState).syncAllClipsToEngine bpm) :
    playlistCommandTrack cmd = some p := by
  unfold PlaylistState.syncAllClipsToEngine at h
  cases htype : clip.clipType with
  | audio path offset total =>
    simp only [List.filterMap_cons, List.filterMap_nil, htype] at h
    rw [List.mem_singleton.mp h]
    rfl
  | pattern patternId => simp [htype] at h
  | automation targetParam => simp [htype] at h

theorem track_clipsToSync {s : PlaylistState} {t : Transport.TransportPosition} {p : ℕ}
    {clip : PlaylistClip} {data : AudioClipData}
    (h : data ∈ ({ s with clips := [(p, clip)] } : PlaylistState).clipsToSync t) :
    data.trackIndex = p := by
  unfold PlaylistState.clipsToSync at h
  cases htype : clip.clipType with
  | audio path offset total =>
    simp only [List.filterMap_cons, List.filterMap_nil, htype] at h
    rw [List.mem_singleton.mp h]
  | pattern patternId => simp [htype] at h
  | automation targetParam => simp [htype] at h

theorem track_trackSyncs {track : Track} {p : ℕ} {cmd : GuiCommand}
    (h : cmd ∈ AppState.trackSyncs track p) :
    ∃ i, AppState.engineTrackOf p = some i ∧ rackCommandTrack cmd = some i := by
  unfold AppState.trackSyncs at h
  cases hp : AppState.engineTrackOf p with
  | none =>
    rw [hp] at h
    exact absurd h List.not_mem_nil
  | some i =>
    rw [hp] at h
    obtain ⟨⟨slot, slotIdx⟩, _, hcmd⟩ := List.mem_filterMap.mp h
    simp only [AppState.syncCommand] at hcmd
    split at hcmd
    · rw [← Option.some.inj hcmd]
      exact ⟨i, rfl, rfl⟩
    · exact absurd hcmd (Option.some_ne_none _).symm

namespace ProjectState

theorem rack_tracks (s : ProjectState) (fxTracks : List Track) (p slot : ℕ) :
    (s.rack fxTracks p slot).tracks = s.tracks.map MixerStrip.toTrack := by
  unfold rack AppState.tracks tracks
  cases s.mode with
  | openLive => rfl
  | openStudio => rfl

/-- The rack of a strip that there is goes by the index below it. -/
theorem engineTrackIndex_rack {s : ProjectState} {p : ℕ} (hp : p < s.tracks.length)
    (fxTracks : List Track) (slot : ℕ) :
    (s.rack fxTracks p slot).engineTrackIndex = AppState.engineTrackOf p := by
  have hlen : (s.rack fxTracks p slot).tracks.length = s.tracks.length := by
    rw [rack_tracks, List.length_map]
  have hsafe : (s.rack fxTracks p slot).safeTrackIndex = p := by
    unfold AppState.safeTrackIndex
    rw [hlen]
    change min p (s.tracks.length - 1) = p
    omega
  unfold AppState.engineTrackIndex
  rw [hsafe]

theorem engineTrackOf_eq_some {p i : ℕ} : AppState.engineTrackOf p = some i ↔ p = i + 1 := by
  cases p with
  | zero => exact ⟨(fun h => nomatch h), fun h => absurd h (by omega)⟩
  | succ p =>
    rw [AppState.engineTrackOf, Option.some.injEq]
    omega

theorem shownStrip_index {s : ProjectState} {target : StripTarget} {p idx : ℕ}
    (h : s.shownStrip target = some p) (htarget : target = .live idx ∨ target = .studio idx) :
    idx = p ∨ p = idx + 1 := by
  unfold shownStrip at h
  obtain rfl | rfl := htarget
  · split at h
    · rename_i heq
      rw [StripTarget.live.inj heq]
      exact Or.inr (Option.some.inj h).symm
    · rename_i heq
      nomatch heq
    · exact absurd h (Option.some_ne_none _).symm
  · split at h
    · rename_i heq
      nomatch heq
    · rename_i heq
      rw [StripTarget.studio.inj heq]
      exact Or.inl (Option.some.inj h)
    · exact absurd h (Option.some_ne_none _).symm

/-- What is sent for a strip carries its index or the one below. -/
theorem Sends.index {disk : Disk} {s : ProjectState} {p : ℕ} {cmd : TrackCommand}
    (h : Sends disk s p cmd) : ∃ i, cmd.engineTrack = some i ∧ (i = p ∨ p = i + 1) := by
  have hstrip : ∀ {target : StripTarget} {cmd : MixerCommand}, s.shownStrip target = some p →
      (∃ idx c, (target = .live idx ∨ target = .studio idx) ∧ cmd = MixChange.command idx c) →
      ∃ i, mixerCommandTrack cmd = some i ∧ (i = p ∨ p = i + 1) := by
    rintro target _ hshown ⟨idx, c, htarget, rfl⟩
    exact ⟨idx, track_mixChange idx c, shownStrip_index hshown htarget⟩
  have hrow : ∀ {cmd : MixerCommand}, (∃ c, cmd = MixChange.command p c) →
      ∃ i, mixerCommandTrack cmd = some i ∧ (i = p ∨ p = i + 1) := by
    rintro _ ⟨c, rfl⟩
    exact ⟨p, track_mixChange p c, Or.inl rfl⟩
  cases h with
  | projectPush strip sent => exact ⟨p, track_mixCommands sent, Or.inl rfl⟩
  | frameSync live track strip sent => exact ⟨_, track_syncStrip sent, Or.inr rfl⟩
  | matrixVolume live sent =>
    rw [List.mem_singleton.mp sent]
    exact ⟨_, rfl, Or.inr rfl⟩
  | matrixPan live sent =>
    rw [List.mem_singleton.mp sent]
    exact ⟨_, rfl, Or.inr rfl⟩
  | matrixMute live done sent =>
    obtain ⟨t, _, rfl⟩ := Option.map_eq_some_iff.mp done
    rw [List.mem_singleton.mp sent]
    exact ⟨_, rfl, Or.inr rfl⟩
  | matrixSolo live done sent =>
    obtain ⟨t, _, rfl⟩ := Option.map_eq_some_iff.mp done
    rw [List.mem_singleton.mp sent]
    exact ⟨_, rfl, Or.inr rfl⟩
  | stripVolume shown sent => exact hstrip shown (setFader_commands sent)
  | stripPan shown sent => exact hstrip shown (setFader_commands sent)
  | stripMute shown sent => exact hstrip shown (toggleTarget_commands sent)
  | stripSolo shown sent => exact hstrip shown (toggleTarget_commands sent)
  | rowVolume row sent => exact hrow (applyPlaylistFader_commands sent)
  | rowPan row sent => exact hrow (applyPlaylistFader_commands sent)
  | rowMute row sent => exact hrow (togglePlaylistSwitch_commands sent)
  | rowSolo row sent => exact hrow (togglePlaylistSwitch_commands sent)
  | padLoad live done sent => exact ⟨_, track_loadClipIntoSlot done sent, Or.inr rfl⟩
  | padRegister live pad sent => exact ⟨_, track_registerClip sent, Or.inr rfl⟩
  | clipDrop key sent =>
    unfold PlaylistState.dropAudioAtGridPos at sent
    rw [key] at sent
    rw [List.mem_singleton.mp sent]
    exact ⟨p, rfl, Or.inl rfl⟩
  | clipReload placed sent => exact ⟨p, track_syncAllClips sent, Or.inl rfl⟩
  | clipSync placed sent =>
    rw [TrackCommand.engineTrack, track_clipsToSync sent]
    exact ⟨p, rfl, Or.inl rfl⟩
  | pluginLoad strip sent =>
    have hp := lt_of_getElem? strip
    unfold AppState.assignExternalPlugin at sent
    simp only [engineTrackIndex_rack hp] at sent
    split at sent
    · exact absurd sent List.not_mem_nil
    · rename_i i hi
      rw [List.mem_singleton.mp sent]
      exact ⟨i, rfl, Or.inr (engineTrackOf_eq_some.mp hi)⟩
  | pluginParams strip sent =>
    obtain ⟨i, hi, htrack⟩ := track_trackSyncs sent
    exact ⟨i, htrack, Or.inr (engineTrackOf_eq_some.mp hi)⟩

/-- Every command that is sent for a track carries the same index. -/
def SameIndex (disk : Disk) (s : ProjectState) : Prop :=
  ∀ p t, s.tracks[p]? = some t → t.isMaster = false →
    ∃ i, ∀ cmd, Sends disk s p cmd → cmd.engineTrack = some i

end ProjectState

/-- No strip but the first is a track. -/
def FirstOnly (tracks : List MixerStrip) : Prop :=
  ∀ p t, tracks[p]? = some t → t.isMaster = false → p = 0

namespace ProjectState

theorem sameIndex_iff (disk : Disk) (s : ProjectState) : s.SameIndex disk ↔ FirstOnly s.tracks := by
  constructor
  · intro h p t ht hmaster
    obtain ⟨i, hi⟩ := h p t ht hmaster
    have hpush : Sends disk s p (.mixer (.setTrackVolume p t.volume)) :=
      .projectPush ht List.mem_cons_self
    have hp : some p = some i := hi _ hpush
    cases p with
    | zero => rfl
    | succ p =>
      let plugin : ExternalPlugin := ⟨⟨"", "", "", .clap⟩, 0⟩
      have hsent : GuiCommand.loadExternalPlugin p 0 plugin ∈
          ((s.rack [] (p + 1) 0).assignExternalPlugin (p + 1) 0 plugin).2 := by
        unfold AppState.assignExternalPlugin
        simp only [engineTrackIndex_rack (lt_of_getElem? ht) [] 0, AppState.engineTrackOf]
        exact List.mem_singleton.mpr rfl
      have hload : Sends disk s (p + 1) (.rack (.loadExternalPlugin p 0 plugin)) :=
        .pluginLoad ht hsent
      have hp' : some p = some i := hi _ hload
      rw [Option.some.injEq] at hp hp'
      omega
  · intro h p t ht hmaster
    obtain rfl := h p t ht hmaster
    refine ⟨0, fun cmd hcmd => ?_⟩
    obtain ⟨i, hi, h0⟩ := hcmd.index
    rw [hi, Option.some.injEq]
    omega

end ProjectState

end HikaruOpenLive.Gui
