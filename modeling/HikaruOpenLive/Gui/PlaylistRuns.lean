import HikaruOpenLive.Foundations.Runs
import HikaruOpenLive.Gui.PlaylistEdits
import HikaruOpenLive.Gui.PlaylistDelivery

/-! # The playlist and the engine over runs of edits

The playlist in OpenStudio, edited and played, with the engine behind it. A clip that was loaded by itself
is flagged in the engine like a pad and outlives the next sync; it is there after the playlist has lost
it. As long as only clips without such a flag are removed, starting playback leaves the engine with the
clips of the playlist and no others (`playsPlaylist_play`).
-/
set_option autoImplicit false

namespace HikaruOpenLive.Gui

open Engine Transport Foundations.Runs Foundations.ListEdits Foundations.Upsert

variable {ν : Type}

/-- Where a clip plays: its track, and in frames its start, its length and where its file is entered. -/
structure PlacedClip where
  id : ℕ
  track : ℕ
  startFrame : ℕ
  durationFrames : ℕ
  offsetFrames : ℕ
deriving DecidableEq

def placedClip (c : AudioClip) : PlacedClip :=
  ⟨c.id, c.trackIndex, c.startFrame, c.durationFrames, c.sampleOffset / c.channels⟩

/-- The audio clips of the playlist as the engine should have them, the ticks rounded to samples of the
transport. -/
def PlaylistState.placed (e : AudioEngine ν) (t : TransportPosition) (s : PlaylistState) :
    List PlacedClip :=
  let frames (samples : ℕ) : ℕ := e.secsToFrames (samples / max t.sampleRate 1)
  s.clips.filterMap fun (key, clip) =>
    match clip.clipType with
    | .audio _ offset _ =>
      some ⟨clip.id, key, frames (t.ticksToSamples clip.startTick),
        frames (t.clipLengthFrames clip.durationTicks), frames (t.ticksToSamples offset)⟩
    | _ => none

structure PlaylistSession (ν : Type) where
  playlist : PlaylistState
  transport : TransportPosition
  rowKeys : List ℕ
  engine : AudioEngine ν

namespace PlaylistSession

def playbackAfter (t : TransportPosition) : PlaylistEdit → TransportPosition
  | .play _ => { t with playbackState := if t.playbackState = .playing then .paused else .playing }
  | _ => t

def lockTaken : PlaylistEdit → Bool
  | .play contended => contended
  | _ => false

/-- An edit with all its commands carried out; after a panic there is no session. -/
def step (disk : Disk) (d : Option (PlaylistSession ν)) (e : PlaylistEdit) :
    Option (PlaylistSession ν) :=
  d.bind fun d => (d.playlist.edit disk d.transport d.rowKeys e).map fun r =>
    { d with
      playlist := r.1
      transport := playbackAfter d.transport e
      engine := deliverPlaylist disk.files (lockTaken e) d.engine r.2 }

/-- The engine has the audio clips of the playlist, each where it is there, and no others. -/
def PlaysPlaylist : Option (PlaylistSession ν) → Prop
  | none => False
  | some d => (d.engine.clips.map placedClip).Perm (d.playlist.placed d.engine d.transport)

/-- A clip is removed only if its copy in the engine is not flagged as a pad, that is if no command but
the sync of a play has loaded it since; and the left edge of a clip is dragged only if its file is entered
before the clip's last bit. -/
def Allowed (d : PlaylistSession ν) : PlaylistEdit → Prop
  | .cut | .delete =>
    ∀ c ∈ d.engine.clips, c.isMatrixClip = true → c.id ∉ d.playlist.selectedClips
  | .moveTrim _ =>
    ∀ drag ∈ d.playlist.trimDrag, drag.edge = .left → (d.playlist.clip? drag.clipId).isSome →
      drag.origOffset ≤
        drag.origStart + drag.origDuration - minClipTicks (max d.playlist.ppqn 1)
  | _ => True

def AllowedStep (d : Option (PlaylistSession ν)) (e : PlaylistEdit) : Prop :=
  ∀ d' ∈ d, d'.Allowed e

/-- Playback does not go on already, and the file of every audio clip can be read. -/
def ReadyToPlay (disk : Disk) (d : Option (PlaylistSession ν)) : Prop :=
  ∀ d' ∈ d, d'.transport.playbackState ≠ .playing ∧
    ∀ x ∈ d'.playlist.clips, x.2.isAudio = true → x.2.loads disk = true

end PlaylistSession

/-! ## The engine beside the playlist -/

/-- In OpenStudio the engine has one clip of each id, and of those flagged as pads only clips that are on
the playlist. -/
structure EngineOk (disk : Disk) (s : PlaylistState) (e : AudioEngine ν) : Prop where
  studio : e.mode = .openStudio
  ids : (e.clips.map AudioClip.id).Nodup
  known : ∀ c ∈ e.clips, c.isMatrixClip = true → s.Has disk c.id

section

variable {disk : Disk} {s : PlaylistState} {e : AudioEngine ν}

theorem EngineOk.of_clips (h : EngineOk disk s e) {e' : AudioEngine ν} (hmode : e'.mode = e.mode)
    (hclips : e'.clips = e.clips) : EngineOk disk s e' :=
  ⟨hmode.trans h.studio, by rw [hclips]; exact h.ids, by rw [hclips]; exact h.known⟩

theorem EngineOk.of_has (h : EngineOk disk s e) {s' : PlaylistState}
    (hhas : ∀ c ∈ e.clips, c.isMatrixClip = true → s.Has disk c.id → s'.Has disk c.id) :
    EngineOk disk s' e :=
  ⟨h.studio, h.ids, fun c hc hflag => hhas c hc hflag (h.known c hc hflag)⟩

theorem EngineOk.addClip (h : EngineOk disk s e) {c : AudioClip} (hc : s.Has disk c.id) :
    EngineOk disk s (e.addClip c) := by
  have hclips := clips_addClip_studio h.studio c
  refine ⟨(e.addClip_frame c).1.trans h.studio, ?_, ?_⟩
  · rw [hclips]
    exact nodup_upsert c h.ids
  · intro b hb hflag
    rw [hclips] at hb
    obtain rfl | hb := mem_upsert hb
    · exact hc
    · exact h.known b hb hflag

theorem EngineOk.updateClipBounds (h : EngineOk disk s e) (id track : ℕ)
    (startSecs durationSecs offsetSecs : ℚ) :
    EngineOk disk s (e.updateClipBounds id track 0 startSecs durationSecs offsetSecs) := by
  have hids := map_updateFirst (g := fun c : AudioClip => (c.id, c.isMatrixClip))
    (AudioClip.addressed e.mode id track 0)
    (fun c => { c with
      startFrame := e.secsToFrames startSecs
      durationFrames := if 0 < durationSecs then e.secsToFrames durationSecs else c.naturalFrames
      sampleOffset := e.secsToFrames offsetSecs * c.channels }) (fun _ => rfl) e.clips
  have hpairs : (e.updateClipBounds id track 0 startSecs durationSecs offsetSecs).clips.map
      (fun c => (c.id, c.isMatrixClip)) = e.clips.map fun c => (c.id, c.isMatrixClip) := hids
  refine ⟨h.studio, ?_, ?_⟩
  · have hfst := congrArg (List.map Prod.fst) hpairs
    rw [List.map_map, List.map_map] at hfst
    exact hfst ▸ h.ids
  · intro c hc hflag
    have hmem : (c.id, c.isMatrixClip) ∈ e.clips.map fun c => (c.id, c.isMatrixClip) :=
      hpairs ▸ List.mem_map_of_mem hc
    obtain ⟨b, hb, hbc⟩ := List.mem_map.mp hmem
    rw [Prod.mk.injEq] at hbc
    rw [← hbc.1]
    exact h.known b hb (hbc.2.trans hflag)

/-! ## The sync -/

/-- An entry of the playlist as a sync decodes it at a rate. -/
def decodeEntry (disk : Disk) (t : TransportPosition) (rate : ℚ) (x : ℕ × PlaylistClip) :
    Option DecodedClip :=
  let secs (samples : ℕ) : ℚ := samples / max t.sampleRate 1
  match x.2.clipType with
  | .audio path offset _ =>
    (disk.files path).map fun data =>
      ⟨⟨x.2.id, path, secs (t.ticksToSamples x.2.startTick), secs (t.clipLengthFrames x.2.durationTicks),
        secs (t.ticksToSamples offset), x.1⟩, data.atRate rate, data.channels⟩
  | _ => none

theorem decodeClips_clipsToSync (t : TransportPosition) (rate : ℚ) :
    decodeClips disk.files rate (s.clipsToSync t) = s.clips.filterMap (decodeEntry disk t rate) := by
  unfold decodeClips PlaylistState.clipsToSync
  rw [List.filterMap_filterMap]
  refine List.filterMap_congr fun x _ => ?_
  obtain ⟨key, id, start, dur, clipType⟩ := x
  cases clipType with
  | pattern patternId => rfl
  | automation targetParam => rfl
  | audio path offset total => rfl

theorem decodeEntry_spec {t : TransportPosition} {rate : ℚ} {x : ℕ × PlaylistClip} {d : DecodedClip}
    (h : decodeEntry disk t rate x = some d) : d.clip.clipId = x.2.id := by
  obtain ⟨key, id, start, dur, clipType⟩ := x
  cases clipType with
  | pattern patternId => exact absurd h (Option.some_ne_none _).symm
  | automation targetParam => exact absurd h (Option.some_ne_none _).symm
  | audio path offset total =>
    obtain ⟨data, _, rfl⟩ := Option.map_eq_some_iff.mp h
    rfl

theorem exists_decodeEntry (t : TransportPosition) (rate : ℚ) {x : ℕ × PlaylistClip}
    (h : x.2.loads disk = true) : ∃ d, decodeEntry disk t rate x = some d := by
  obtain ⟨key, id, start, dur, clipType⟩ := x
  cases clipType with
  | pattern patternId => exact absurd h Bool.false_ne_true
  | automation targetParam => exact absurd h Bool.false_ne_true
  | audio path offset total =>
    obtain ⟨w, hw⟩ := Option.isSome_iff_exists.mp h
    have hfile : disk.files path = some w.decoded := by
      rw [Disk.files, hw]
      rfl
    exact ⟨_, congrArg (Option.map _) hfile⟩

/-- A sync of the playlist leaves its clips in the engine and no others, and none of them flagged. -/
theorem EngineOk.sync (h : EngineOk disk s e) (hs : s.Sound) (t : TransportPosition) (rate : ℚ) :
    EngineOk disk s (syncClips e (decodeClips disk.files rate (s.clipsToSync t))) ∧
      (syncClips e (decodeClips disk.files rate (s.clipsToSync t))).clips.Perm
        ((s.clips.filterMap (decodeEntry disk t rate)).map (DecodedClip.toClip e)) := by
  rw [decodeClips_clipsToSync]
  generalize hdecoded : s.clips.filterMap (decodeEntry disk t rate) = decoded
  have hnew : (decoded.map fun d => d.clip.clipId).Nodup := by
    have hsub := sublist_map_filterMap (f := decodeEntry disk t rate)
      (g := fun d : DecodedClip => d.clip.clipId) (h := fun x : ℕ × PlaylistClip => x.2.id)
      (fun _ _ hd => decodeEntry_spec hd) s.clips
    rw [hdecoded] at hsub
    exact hs.ids.sublist hsub
  have hcover : ∀ c ∈ e.clips, c.isMatrixClip = true →
      c.id ∈ decoded.map fun d => d.clip.clipId := by
    intro c hc hflag
    obtain ⟨x, hx, hid, hloads⟩ := h.known c hc hflag
    obtain ⟨d, hd⟩ := exists_decodeEntry t rate hloads
    have hmem : d ∈ decoded := hdecoded ▸ List.mem_filterMap.mpr ⟨x, hx, hd⟩
    exact List.mem_map.mpr ⟨d, hmem, (decodeEntry_spec hd).trans hid⟩
  have hperm := perm_syncClips h.studio h.ids hnew hcover
  refine ⟨⟨(syncClips_frame e decoded).1.trans h.studio, ?_, ?_⟩, hperm⟩
  · refine ((hperm.map AudioClip.id).nodup_iff).mpr ?_
    rw [List.map_map]
    exact hnew
  · intro c hc hflag
    obtain ⟨d, _, rfl⟩ := List.mem_map.mp (hperm.mem_iff.mp hc)
    exact absurd hflag Bool.false_ne_true

/-- Each command about the playlist keeps the engine beside it. -/
theorem EngineOk.run (h : EngineOk disk s e) (hs : s.Sound) {t : TransportPosition} (contended : Bool)
    {cmd : PlaylistCommand} (hcmd : cmd.fits disk t s) :
    EngineOk disk s (cmd.run disk.files contended e) := by
  cases cmd with
  | loadClip clipId path positionSecs durationSecs offsetSecs trackIndex =>
    simp only [PlaylistCommand.run]
    split
    case h_1 data hfile =>
      obtain ⟨w, hw, _⟩ := Option.map_eq_some_iff.mp hfile
      exact h.addClip (hcmd (Option.isSome_iff_exists.mpr ⟨w, hw⟩))
    case h_2 => exact h
  | updateClipBounds clipId trackIndex positionSecs durationSecs offsetSecs =>
    exact h.updateClipBounds clipId trackIndex positionSecs durationSecs offsetSecs
  | syncPlaylistClips clips =>
    obtain rfl := hcmd
    exact (h.sync hs t _).1
  | setBpm bpm =>
    simp only [PlaylistCommand.run]
    split
    · exact h.of_clips rfl rfl
    · exact h
  | stopPreview => exact h.of_clips rfl rfl
  | seek sampleCount => exact h.of_clips rfl rfl
  | play => exact h.of_clips rfl rfl
  | pause => exact h.of_clips rfl rfl

theorem EngineOk.deliver (h : EngineOk disk s e) (hs : s.Sound) {t : TransportPosition}
    (contended : Bool) {cmds : List PlaylistCommand} (hcmds : ∀ cmd ∈ cmds, cmd.fits disk t s) :
    EngineOk disk s (deliverPlaylist disk.files contended e cmds) := by
  induction cmds generalizing e with
  | nil => exact h
  | cons cmd cmds ih =>
    exact ih (h.run hs contended (hcmds cmd List.mem_cons_self))
      fun cmd' hcmd' => hcmds cmd' (List.mem_cons_of_mem cmd hcmd')

/-- What a decoded entry becomes is placed as its clip on the playlist is. -/
theorem placedClip_decoded {t : TransportPosition} (hlong : 1 / 2 ≤ t.samplesPerTick)
    (hrate : 0 < t.sampleRate) (rate : ℚ) (hdur : ∀ x ∈ s.clips, 0 < x.2.durationTicks)
    (hreadable : ∀ x ∈ s.clips, x.2.isAudio = true → x.2.loads disk = true) :
    ((s.clips.filterMap (decodeEntry disk t rate)).map (DecodedClip.toClip e)).map placedClip =
      s.placed e t := by
  unfold PlaylistState.placed
  rw [List.map_filterMap, List.map_filterMap]
  refine List.filterMap_congr fun x hx => ?_
  have hdur' := hdur x hx
  have hreadable' := hreadable x hx
  obtain ⟨key, id, start, dur, clipType⟩ := x
  cases clipType with
  | pattern patternId => rfl
  | automation targetParam => rfl
  | audio path offset total =>
    obtain ⟨w, hw⟩ := Option.isSome_iff_exists.mp (hreadable' rfl)
    have hfile : disk.files path = some w.decoded := by
      rw [Disk.files, hw]
      rfl
    have hsamples : 0 < t.clipLengthFrames dur := t.ticksToSamples_pos hrate hlong hdur'
    have hsecs : (0 : ℚ) < t.clipLengthFrames dur / max t.sampleRate 1 :=
      div_pos (Nat.cast_pos.mpr hsamples) (lt_max_of_lt_right one_pos)
    have hch : 0 < max w.decoded.channels 1 := by omega
    simp only [decodeEntry, hfile, Option.map_some, DecodedClip.toClip, placedClip,
      AudioEngine.clipInstance, if_pos hsecs, Nat.mul_div_cancel _ hch]

end

/-! ## Runs -/

namespace PlaylistSession

variable {disk : Disk}

/-- What holds between the edits. -/
structure Kept (disk : Disk) (t : TransportPosition) (d : PlaylistSession ν) : Prop where
  sound : d.playlist.Sound
  engine : EngineOk disk d.playlist d.engine
  bpm : d.transport.bpm = t.bpm
  sampleRate : d.transport.sampleRate = t.sampleRate

def KeptStep (disk : Disk) (t : TransportPosition) (d : Option (PlaylistSession ν)) : Prop :=
  ∃ d', d = some d' ∧ d'.Kept disk t

theorem playbackAfter_spec (t : TransportPosition) (e : PlaylistEdit) :
    (playbackAfter t e).bpm = t.bpm ∧ (playbackAfter t e).sampleRate = t.sampleRate := by
  cases e <;> exact ⟨rfl, rfl⟩

/-- An allowed edit does not panic. -/
theorem exists_edit (disk : Disk) {d : PlaylistSession ν} {e : PlaylistEdit} (hallowed : d.Allowed e) :
    ∃ r, d.playlist.edit disk d.transport d.rowKeys e = some r := by
  cases e with
  | moveTrim rawTick =>
    suffices h : ∃ s', d.playlist.updateClipTrim rawTick = some s' by
      obtain ⟨s', hs'⟩ := h
      exact ⟨_, Option.map_eq_some_iff.mpr ⟨s', hs', rfl⟩⟩
    unfold PlaylistState.updateClipTrim
    split
    · exact ⟨_, rfl⟩
    · rename_i drag hdrag
      split
      · exact ⟨_, rfl⟩
      · rename_i clip hclip
        have hbound := hallowed drag hdrag
        rw [hclip] at hbound
        unfold trimApply
        cases hedge : drag.edge with
        | right => exact ⟨_, rfl⟩
        | left =>
          have hok := hbound hedge rfl
          simp only [if_neg (Nat.not_lt.mpr hok)]
          exact ⟨_, rfl⟩
  | drop path rawTick row => exact ⟨_, rfl⟩
  | startDrag clipId => exact ⟨_, rfl⟩
  | moveDrag rawTick row => exact ⟨_, rfl⟩
  | finishDrag => exact ⟨_, rfl⟩
  | startTrim clipId edge => exact ⟨_, rfl⟩
  | finishTrim => exact ⟨_, rfl⟩
  | select clipIds => exact ⟨_, rfl⟩
  | copy => exact ⟨_, rfl⟩
  | cut => exact ⟨_, rfl⟩
  | paste => exact ⟨_, rfl⟩
  | duplicate => exact ⟨_, rfl⟩
  | delete => exact ⟨_, rfl⟩
  | play contended => exact ⟨_, rfl⟩

/-- What is flagged in the engine is not taken off the playlist by an allowed edit. -/
theorem not_removes {d : PlaylistSession ν} {e : PlaylistEdit} (hallowed : d.Allowed e) {c : AudioClip}
    (hc : c ∈ d.engine.clips) (hflag : c.isMatrixClip = true) : ¬ d.playlist.removes c.id e := by
  cases e with
  | cut => exact hallowed c hc hflag
  | delete => exact hallowed c hc hflag
  | _ => exact fun h => h

theorem kept_step {t : TransportPosition} (d : Option (PlaylistSession ν)) (e : PlaylistEdit)
    (hd : KeptStep disk t d) (hallowed : AllowedStep d e) : KeptStep disk t (step disk d e) := by
  obtain ⟨d, rfl, hkept⟩ := hd
  have hok := hallowed d rfl
  obtain ⟨r, hr⟩ := exists_edit disk hok
  have hedit := PlaylistState.edit_ok disk d.transport hkept.sound hr
  have hengine : EngineOk disk r.1 d.engine :=
    hkept.engine.of_has fun c hc hflag hhas => hedit.has c.id hhas (not_removes hok hc hflag)
  obtain ⟨hbpm, hrate⟩ := playbackAfter_spec d.transport e
  refine ⟨_, congrArg (Option.map _) hr, hedit.sound, ?_, hbpm.trans hkept.bpm,
    hrate.trans hkept.sampleRate⟩
  exact hengine.deliver hedit.sound (lockTaken e) hedit.fits

theorem placed_congr (s : PlaylistState) {e e' : AudioEngine ν} {t t' : TransportPosition}
    (hengine : e'.sampleRate = e.sampleRate) (hbpm : t'.bpm = t.bpm) (hrate : t'.sampleRate = t.sampleRate) :
    s.placed e' t' = s.placed e t := by
  have hsamples (ticks : ℕ) := TransportPosition.ticksToSamples_congr hbpm hrate ticks
  unfold PlaylistState.placed AudioEngine.secsToFrames TransportPosition.clipLengthFrames
  simp only [hsamples, hengine, hrate]

/-- What starting playback leaves in the engine. -/
theorem playsPlaylist_start {t : TransportPosition} {d : PlaylistSession ν} (hkept : d.Kept disk t)
    (hrate : 0 < t.sampleRate) (hlong : 1 / 2 ≤ t.samplesPerTick)
    (hidle : d.transport.playbackState ≠ .playing)
    (hreadable : ∀ x ∈ d.playlist.clips, x.2.isAudio = true → x.2.loads disk = true)
    (contended : Bool) : PlaysPlaylist (step disk (some d) (.play contended)) := by
  let e := deliverPlaylist disk.files contended d.engine [.stopPreview, .setBpm d.transport.bpm]
  let rate := if contended then 44100 else e.sampleRate
  let synced := syncClips e (decodeClips disk.files rate (d.playlist.clipsToSync d.transport))
  have hengine : EngineOk disk d.playlist e := by
    refine hkept.engine.deliver (t := d.transport) hkept.sound contended fun cmd hcmd => ?_
    simp only [List.mem_cons, List.not_mem_nil, or_false] at hcmd
    obtain rfl | rfl := hcmd
    · trivial
    · trivial
  have hrate' : 0 < d.transport.sampleRate := by rwa [hkept.sampleRate]
  have hlong' : 1 / 2 ≤ d.transport.samplesPerTick := by
    have hsame : d.transport.samplesPerTick = t.samplesPerTick := by
      unfold TransportPosition.samplesPerTick TransportPosition.secondsPerTick TransportPosition.ppqn
      rw [hkept.bpm, hkept.sampleRate]
    rwa [hsame]
  obtain ⟨_, hperm⟩ := hengine.sync hkept.sound d.transport rate
  have hplaced := (hperm.map placedClip).trans (List.Perm.of_eq
    (placedClip_decoded hlong' hrate' rate hkept.sound.long hreadable))
  have hcmds : d.playlist.playCommands d.transport =
      [.stopPreview, .setBpm d.transport.bpm,
        .syncPlaylistClips (d.playlist.clipsToSync d.transport), .seek d.transport.sampleCount, .play] :=
    if_neg hidle
  have hstep : step disk (some d) (.play contended) =
      some { d with
        transport := playbackAfter d.transport (.play contended)
        engine := (synced.seek (d.transport.sampleCount / synced.sampleRate)).play } := by
    have hedit : d.playlist.edit disk d.transport d.rowKeys (.play contended) =
        some (d.playlist, d.playlist.playCommands d.transport) := rfl
    rw [hcmds] at hedit
    exact congrArg (Option.map fun r => ({ d with
      playlist := r.1
      transport := playbackAfter d.transport (.play contended)
      engine := deliverPlaylist disk.files contended d.engine r.2 } : PlaylistSession ν)) hedit
  obtain ⟨hbpm, hsr⟩ := playbackAfter_spec d.transport (.play contended)
  rw [hstep]
  refine hplaced.trans (List.Perm.of_eq (placed_congr d.playlist ?_ hbpm hsr).symm)
  exact (syncClips_frame e _).2

/-- Starting playback after a run of allowed edits leaves the engine with the clips of the playlist: none
is missing and none is left over. -/
theorem playsPlaylist_play {d : PlaylistSession ν} {edits : List PlaylistEdit}
    (hsound : d.playlist.Sound) (hmode : d.engine.mode = .openStudio) (hempty : d.engine.clips = [])
    (hrate : 0 < d.transport.sampleRate) (hlong : 1 / 2 ≤ d.transport.samplesPerTick)
    (hallowed : Along (step disk) AllowedStep (some d) edits)
    (hready : ReadyToPlay disk (edits.foldl (step disk) (some d))) (contended : Bool) :
    PlaysPlaylist (step disk (edits.foldl (step disk) (some d)) (.play contended)) := by
  have hstart : KeptStep disk d.transport (some d) :=
    ⟨d, rfl, hsound, ⟨hmode, by rw [hempty]; exact List.nodup_nil, by rw [hempty]; simp⟩, rfl, rfl⟩
  have hrun := always_of_along kept_step hstart hallowed
  obtain ⟨d', hd', hkept⟩ := hrun.final
  rw [hd'] at hready ⊢
  obtain ⟨hidle, hreadable⟩ := hready d' rfl
  exact playsPlaylist_start hkept hrate hlong hidle hreadable contended

/-! ## Removing a clip -/

def hatDisk : Disk := fun path =>
  if path = "/drums/hat.wav" then some ⟨.int 16 [1, 2, 3, 4], 1, 48000⟩ else none

/-- An empty playlist with one row. -/
def emptyPlaylist : PlaylistSession ℕ :=
  { playlist := .default, transport := ⟨48000, 120, 0, .stopped, false, 0, 0⟩, rowKeys := [1]
    engine := AudioEngine.new 48000 }

/-- A clip dropped, played and paused, then deleted; and another one dropped. -/
def deletedAfterPlay : List PlaylistEdit :=
  [.drop "/drums/hat.wav" 0 0, .play false, .play false, .delete, .drop "/drums/hat.wav" 960 0]

theorem playsPlaylist_play_deleted :
    PlaysPlaylist (step hatDisk (deletedAfterPlay.foldl (step hatDisk) (some emptyPlaylist))
      (.play true)) := by
  have hallowed : Along (step hatDisk) AllowedStep (some emptyPlaylist) deletedAfterPlay := by
    refine ⟨fun _ _ => trivial, fun _ _ => trivial, fun _ _ => trivial, ?_, fun _ _ => trivial, trivial⟩
    intro d hd
    have hsynced : (((deletedAfterPlay.take 3).foldl (step hatDisk) (some emptyPlaylist)).map
        fun d => d.engine.clips.all fun c => !c.isMatrixClip) = some true := by
      decide +kernel
    rw [show (deletedAfterPlay.take 3).foldl (step hatDisk) (some emptyPlaylist) = some d from hd]
      at hsynced
    intro c hc hflag
    have hfree := List.all_eq_true.mp (Option.some.inj hsynced) c hc
    rw [hflag] at hfree
    exact absurd hfree (by decide)
  refine playsPlaylist_play PlaylistState.sound_default rfl rfl (by decide +kernel)
    (by decide +kernel) hallowed ?_ true
  intro d hd
  have hready : ((deletedAfterPlay.foldl (step hatDisk) (some emptyPlaylist)).map fun d =>
      decide (d.transport.playbackState ≠ .playing) &&
        d.playlist.clips.all fun x => x.2.loads hatDisk) = some true := by
    decide +kernel
  rw [show deletedAfterPlay.foldl (step hatDisk) (some emptyPlaylist) = some d from hd] at hready
  obtain ⟨hidle, hloads⟩ := Bool.and_eq_true_iff.mp (Option.some.inj hready)
  exact ⟨of_decide_eq_true hidle, fun x hx _ => List.all_eq_true.mp hloads x hx⟩

/-- A clip dropped and deleted is still in the engine when playback starts. -/
theorem not_playsPlaylist_deleted :
    ¬ ∀ (edits : List PlaylistEdit) (contended : Bool),
      PlaysPlaylist (step hatDisk (edits.foldl (step hatDisk) (some emptyPlaylist))
        (.play contended)) := by
  intro h
  have hplays := h [.drop "/drums/hat.wav" 0 0, .delete] false
  have hstate : (step hatDisk ([PlaylistEdit.drop "/drums/hat.wav" 0 0, .delete].foldl (step hatDisk)
      (some emptyPlaylist)) (.play false)).map (fun d =>
        (d.engine.clips.length, (d.playlist.placed d.engine d.transport).length)) = some (1, 0) := by
    decide +kernel
  obtain ⟨d, hd, hlengths⟩ := Option.map_eq_some_iff.mp hstate
  obtain ⟨hone, hzero⟩ := Prod.mk.inj hlengths
  rw [hd] at hplays
  have hlen := List.Perm.length_eq hplays
  rw [List.length_map, hone, hzero] at hlen
  exact absurd hlen (by decide)

end PlaylistSession

end HikaruOpenLive.Gui
