import HikaruOpenLive.Foundations.Upsert
import HikaruOpenLive.Engine.ClipCells
import HikaruOpenLive.Gui.PlaylistState

/-! # The commands of the playlist in the engine

What the command thread does with what the playlist sends. In OpenStudio the engine keeps one clip of
each id, so that a load is an `upsert` and a sync replaces every clip it knows: `perm_syncClips` says when
nothing else is left.
-/
set_option autoImplicit false

namespace HikaruOpenLive.Gui

open Engine Foundations.Upsert Foundations.ListEdits

variable {ν β : Type}

/-- A sync decodes for the rate of the engine, or for 44100 Hz when the lock is taken. -/
def PlaylistCommand.run (files : Files) (contended : Bool) (e : AudioEngine ν) :
    PlaylistCommand → AudioEngine ν
  | .loadClip clipId path positionSecs durationSecs offsetSecs trackIndex =>
    match files path with
    | some data =>
      e.addClip (e.clipInstance clipId trackIndex 0 (data.atRate e.sampleRate) positionSecs
        durationSecs offsetSecs data.channels true)
    | none => e
  | .updateClipBounds clipId trackIndex positionSecs durationSecs offsetSecs =>
    e.updateClipBounds clipId trackIndex 0 positionSecs durationSecs offsetSecs
  | .stopPreview => { e with preview := e.preview.stop }
  | .setBpm bpm => if 0 < bpm then { e with transport := { e.transport with bpm := bpm } } else e
  | .syncPlaylistClips clips =>
    syncClips e (decodeClips files (if contended then 44100 else e.sampleRate) clips)
  | .seek sampleCount => e.seek (sampleCount / e.sampleRate)
  | .play => e.play
  | .pause => e.pause

/-- The command as it stands in the queue of the command thread. -/
def PlaylistCommand.toLoop : PlaylistCommand → LoopCommand ν
  | .loadClip clipId path positionSecs durationSecs offsetSecs trackIndex =>
    .waiting (.loadClip clipId path positionSecs durationSecs offsetSecs trackIndex 0)
  | .updateClipBounds clipId trackIndex positionSecs durationSecs offsetSecs =>
    .waiting (.updateClipBounds clipId trackIndex 0 positionSecs durationSecs offsetSecs)
  | .stopPreview => .waiting (.other ⟨fun e => { e with preview := e.preview.stop }, fun _ => rfl⟩)
  | .setBpm bpm => .waiting (.setBpm bpm)
  | .syncPlaylistClips clips => .syncPlaylistClips clips
  | .seek sampleCount => .waiting (.seek sampleCount)
  | .play => .waiting .play
  | .pause => .waiting .pause

theorem PlaylistCommand.run_toLoop (host : PluginHost ν) (stage : OutputStage β) (files : Files)
    (contended : Bool) (e : AudioEngine ν) {cmd : PlaylistCommand} {w : WaitingCommand ν}
    (h : cmd.toLoop = .waiting w) : w.run host stage files e = cmd.run files contended e := by
  cases cmd with
  | syncPlaylistClips clips => nomatch h
  | loadClip clipId path positionSecs durationSecs offsetSecs trackIndex =>
    obtain rfl := LoopCommand.waiting.inj h
    rfl
  | updateClipBounds clipId trackIndex positionSecs durationSecs offsetSecs =>
    obtain rfl := LoopCommand.waiting.inj h
    rfl
  | stopPreview => obtain rfl := LoopCommand.waiting.inj h; rfl
  | setBpm bpm => obtain rfl := LoopCommand.waiting.inj h; rfl
  | seek sampleCount => obtain rfl := LoopCommand.waiting.inj h; rfl
  | play => obtain rfl := LoopCommand.waiting.inj h; rfl
  | pause => obtain rfl := LoopCommand.waiting.inj h; rfl

def deliverPlaylist (files : Files) (contended : Bool) (e : AudioEngine ν)
    (cmds : List PlaylistCommand) : AudioEngine ν :=
  cmds.foldl (PlaylistCommand.run files contended) e

/-! ## Loads in OpenStudio -/

theorem clips_addClip_studio {e : AudioEngine ν} (hmode : e.mode = .openStudio) (c : AudioClip) :
    (e.addClip c).clips = upsert AudioClip.id c e.clips := by
  have hkey : AudioClip.addressed e.mode c.id c.trackIndex c.sceneIndex =
      fun d => d.id == c.id := by
    funext d
    rw [hmode]
    exact Bool.eq_iff_iff.mpr (by simp [AudioClip.addressed])
  unfold AudioEngine.addClip upsert
  simp only [hkey]
  split
  · rfl
  · rfl

/-- The clip a decoded entry of a sync becomes. -/
def DecodedClip.toClip (e : AudioEngine ν) (d : DecodedClip) : AudioClip :=
  e.clipInstance d.clip.clipId d.clip.trackIndex 0 d.samples d.clip.startSecs d.clip.durationSecs
    d.clip.offsetSecs d.channels false

theorem clips_syncClips {e : AudioEngine ν} (hmode : e.mode = .openStudio)
    (decoded : List DecodedClip) :
    (syncClips e decoded).clips =
      upsertAll AudioClip.id (decoded.map (DecodedClip.toClip e))
        (e.clips.filter AudioClip.isMatrixClip) := by
  have hfold : ∀ (decoded : List DecodedClip) (e' : AudioEngine ν), e'.mode = .openStudio →
      e'.sampleRate = e.sampleRate →
      (decoded.foldl (fun e d => e.addClip (d.toClip e)) e').clips =
        upsertAll AudioClip.id (decoded.map (DecodedClip.toClip e)) e'.clips := by
    intro decoded
    induction decoded with
    | nil => intro e' _ _; rfl
    | cons d decoded ih =>
      intro e' hmode' hrate
      obtain ⟨hm, hr⟩ := e'.addClip_frame (d.toClip e')
      have hclip : d.toClip e' = d.toClip e := by
        unfold DecodedClip.toClip AudioEngine.clipInstance AudioEngine.secsToFrames
        rw [hrate]
      rw [List.foldl_cons, ih _ (hm.trans hmode') (hr.trans hrate), clips_addClip_studio hmode', hclip]
      rfl
  exact hfold decoded { e with clips := e.clips.filter AudioClip.isMatrixClip } hmode rfl

theorem syncClips_frame (e : AudioEngine ν) (decoded : List DecodedClip) :
    (syncClips e decoded).mode = e.mode ∧ (syncClips e decoded).sampleRate = e.sampleRate := by
  have hfold : ∀ (decoded : List DecodedClip) (e : AudioEngine ν),
      (decoded.foldl (fun e d => e.addClip (d.toClip e)) e).mode = e.mode ∧
        (decoded.foldl (fun e d => e.addClip (d.toClip e)) e).sampleRate = e.sampleRate := by
    intro decoded
    induction decoded with
    | nil => exact fun e => ⟨rfl, rfl⟩
    | cons d decoded ih =>
      intro e
      obtain ⟨hmode, hrate⟩ := e.addClip_frame (d.toClip e)
      obtain ⟨ihmode, ihrate⟩ := ih (e.addClip (d.toClip e))
      exact ⟨ihmode.trans hmode, ihrate.trans hrate⟩
  exact hfold decoded { e with clips := e.clips.filter AudioClip.isMatrixClip }

/-- A sync whose clips have every id that is flagged in the engine leaves its clips and no others. -/
theorem perm_syncClips {e : AudioEngine ν} (hmode : e.mode = .openStudio)
    (hids : (e.clips.map AudioClip.id).Nodup) {decoded : List DecodedClip}
    (hnew : (decoded.map fun d => d.clip.clipId).Nodup)
    (hcover : ∀ c ∈ e.clips, c.isMatrixClip = true → c.id ∈ decoded.map fun d => d.clip.clipId) :
    (syncClips e decoded).clips.Perm (decoded.map (DecodedClip.toClip e)) := by
  have hkeys : (decoded.map (DecodedClip.toClip e)).map AudioClip.id =
      decoded.map fun d => d.clip.clipId := by
    rw [List.map_map]
    rfl
  rw [clips_syncClips hmode]
  refine perm_upsertAll (by rwa [hkeys]) (hids.sublist (List.filter_sublist.map _)) ?_
  intro c hc
  obtain ⟨hmem, hflag⟩ := List.mem_filter.mp hc
  rw [hkeys]
  exact hcover c hmem hflag

end HikaruOpenLive.Gui
