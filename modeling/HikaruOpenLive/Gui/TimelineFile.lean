import HikaruOpenLive.Foundations.RoundTrip
import HikaruOpenLive.Gui.PlaylistIds

/-! # The timeline in a project file

The clips of the playlist with all that a studio project keeps of them, and their form in the file: the
names and colours, and the points of an automation. The waveforms are drawn again from the samples and
left out. `forget` leads to the clips of the playlist as its edits see them.
-/
set_option autoImplicit false

namespace HikaruOpenLive.Gui

open Foundations.RoundTrip

structure CurvePoint where
  relTick : ℕ
  value : ℚ
  tension : ℚ
deriving DecidableEq

structure Color32 where
  h : ℚ
  s : ℚ
  l : ℚ
  a : ℚ
deriving DecidableEq

inductive TimelineType where
  | pattern (patternId : ℕ)
  | audio (samplePath : String) (sampleOffsetTicks totalSampleTicks : ℕ)
  | automation (points : List CurvePoint) (targetParam : String)
deriving DecidableEq

structure TimelineClip where
  id : ℕ
  name : String
  startTick : ℕ
  durationTicks : ℕ
  clipType : TimelineType
  color : Color32
deriving DecidableEq

/-- The part of the playlist that is saved. -/
structure Timeline where
  clips : List (ℕ × TimelineClip)
  ppqn : ℕ
  nextClipId : ℕ
  loopStartTicks : ℕ
  loopEndTicks : ℕ
  loopRegionActive : Bool
deriving DecidableEq

namespace OpenStudioFile

structure CurvePoint where
  relTick : ℕ
  value : ℚ
  tension : ℚ
deriving DecidableEq

structure Color where
  h : ℚ
  s : ℚ
  l : ℚ
  a : ℚ
deriving DecidableEq

inductive ClipKind where
  | pattern (patternId : ℕ)
  | audio (samplePath : String) (sampleOffsetTicks totalSampleTicks : ℕ)
  | automation (points : List CurvePoint) (targetParam : String)
deriving DecidableEq

structure PlaylistClipSaved where
  id : ℕ
  name : String
  startTick : ℕ
  durationTicks : ℕ
  color : Color
  kind : ClipKind
deriving DecidableEq

structure Playlist where
  clips : List (ℕ × PlaylistClipSaved)
  ppqn : ℕ
  nextClipId : ℕ
  loopStartTicks : ℕ
  loopEndTicks : ℕ
  loopRegionActive : Bool
deriving DecidableEq

end OpenStudioFile

/-! ## Capture -/

def colorFromGpui (c : Color32) : OpenStudioFile.Color :=
  ⟨c.h, c.s, c.l, c.a⟩

def capturePoint (p : CurvePoint) : OpenStudioFile.CurvePoint :=
  ⟨p.relTick, p.value, p.tension⟩

def captureKind : TimelineType → OpenStudioFile.ClipKind
  | .pattern patternId => .pattern patternId
  | .audio samplePath offset total => .audio samplePath offset total
  | .automation points targetParam => .automation (points.map capturePoint) targetParam

def capturePlaylistClip (clip : TimelineClip) : OpenStudioFile.PlaylistClipSaved :=
  { id := clip.id, name := clip.name, startTick := clip.startTick
    durationTicks := clip.durationTicks, color := colorFromGpui clip.color
    kind := captureKind clip.clipType }

def capturePlaylist (p : Timeline) : OpenStudioFile.Playlist :=
  { clips := p.clips.map fun x => (x.1, capturePlaylistClip x.2)
    ppqn := p.ppqn, nextClipId := p.nextClipId, loopStartTicks := p.loopStartTicks
    loopEndTicks := p.loopEndTicks, loopRegionActive := p.loopRegionActive }

/-! ## Apply -/

def colorToGpui (c : OpenStudioFile.Color) : Color32 :=
  ⟨c.h, c.s, c.l, c.a⟩

def buildPoint (p : OpenStudioFile.CurvePoint) : CurvePoint :=
  ⟨p.relTick, p.value, p.tension⟩

/-- The length of the file is asked only for a clip that was saved without the length of its sample. -/
def buildType (disk : Disk) (baseDir : Option String) (ppqn : ℕ) (bpm : ℚ) (durationTicks : ℕ) :
    OpenStudioFile.ClipKind → TimelineType
  | .pattern patternId => .pattern patternId
  | .audio samplePath offset total =>
    let path := resolvePath baseDir samplePath
    let duration := if 0 < loadSampleInfo disk path ppqn bpm then durationTicks else 1
    .audio path offset (if 0 < total then total else duration)
  | .automation points targetParam => .automation (points.map buildPoint) targetParam

def buildTimelineClip (disk : Disk) (baseDir : Option String) (ppqn : ℕ) (bpm : ℚ)
    (saved : OpenStudioFile.PlaylistClipSaved) : TimelineClip :=
  { id := saved.id, name := saved.name, startTick := saved.startTick
    durationTicks := max saved.durationTicks 1
    clipType := buildType disk baseDir ppqn bpm saved.durationTicks saved.kind
    color := colorToGpui saved.color }

def appliedTimeline (disk : Disk) (baseDir : Option String) (bpm : ℚ) (strips : ℕ)
    (saved : OpenStudioFile.Playlist) : Timeline :=
  let ppqn := max saved.ppqn 1
  { clips := (saved.clips.filter fun x => decide (x.1 < strips)).map fun x =>
      (x.1, buildTimelineClip disk baseDir ppqn bpm x.2)
    ppqn := ppqn
    nextClipId := max saved.nextClipId 1
    loopStartTicks := saved.loopStartTicks
    loopEndTicks := saved.loopEndTicks
    loopRegionActive := saved.loopRegionActive }

/-! ## The playlist of the edits -/

def TimelineType.forget : TimelineType → ClipType
  | .pattern patternId => .pattern patternId
  | .audio samplePath offset total => .audio samplePath offset total
  | .automation _ targetParam => .automation targetParam

def TimelineClip.forget (clip : TimelineClip) : PlaylistClip :=
  ⟨clip.id, clip.startTick, clip.durationTicks, clip.clipType.forget⟩

def OpenStudioFile.ClipKind.forget : OpenStudioFile.ClipKind → ClipType
  | .pattern patternId => .pattern patternId
  | .audio samplePath offset total => .audio samplePath offset total
  | .automation _ targetParam => .automation targetParam

def OpenStudioFile.Playlist.forget (saved : OpenStudioFile.Playlist) : SavedPlaylist :=
  { clips := saved.clips.map fun x =>
      (x.1, ⟨x.2.id, x.2.startTick, x.2.durationTicks, x.2.kind.forget⟩)
    ppqn := saved.ppqn, nextClipId := saved.nextClipId, loopStartTicks := saved.loopStartTicks
    loopEndTicks := saved.loopEndTicks, loopRegionActive := saved.loopRegionActive }

section

variable (disk : Disk) (baseDir : Option String) (bpm : ℚ) (strips : ℕ)

/-- The clips applied are those of the playlist, with what its edits do not see. -/
theorem forget_appliedTimeline (saved : OpenStudioFile.Playlist) :
    (appliedTimeline disk baseDir bpm strips saved).clips.map (fun x => (x.1, x.2.forget)) =
      (ProjectState.appliedPlaylist disk baseDir bpm strips saved.forget).clips := by
  have hbuild : ∀ x : ℕ × OpenStudioFile.PlaylistClipSaved,
      (buildTimelineClip disk baseDir (max saved.ppqn 1) bpm x.2).forget =
        ProjectState.buildPlaylistClip disk baseDir (max saved.ppqn 1) bpm
          ⟨x.2.id, x.2.startTick, x.2.durationTicks, x.2.kind.forget⟩ := by
    rintro ⟨key, id, name, start, dur, color, kind⟩
    cases kind with
    | pattern patternId => rfl
    | audio samplePath offset total => rfl
    | automation points targetParam => rfl
  rw [ProjectState.clips_appliedPlaylist]
  show ((saved.clips.filter fun x => decide (x.1 < strips)).map _).map _ =
    ((saved.clips.map _).filter fun x : ℕ × PlaylistClip => decide (x.1 < strips)).map _
  rw [List.map_map, List.filter_map, List.map_map]
  exact List.map_congr_left fun x _ => congrArg (Prod.mk x.1) (hbuild x)

end

/-! ## What comes back -/

/-- A type of clip up to the file of its sample. -/
def TimelineType.withoutFile : TimelineType → TimelineType
  | .audio _ offset _ => .audio "" offset 0
  | other => other

/-- A clip up to the file of its sample. -/
def TimelineClip.withoutFile (clip : TimelineClip) : TimelineClip :=
  { clip with clipType := clip.clipType.withoutFile }

/-- Two playlists with the same clips on the same rows, up to the files of their samples, the same
counters and the same loop region. -/
structure Timeline.SameAs (p p' : Timeline) : Prop where
  clips : p'.clips.map (fun x => (x.1, x.2.withoutFile)) = p.clips.map fun x => (x.1, x.2.withoutFile)
  counters : (p'.ppqn, p'.nextClipId) = (p.ppqn, p.nextClipId)
  loop : (p'.loopStartTicks, p'.loopEndTicks, p'.loopRegionActive) =
    (p.loopStartTicks, p.loopEndTicks, p.loopRegionActive)

section

variable (disk : Disk) (baseDir : Option String) (bpm : ℚ)

theorem buildType_captureKind (ppqn durationTicks : ℕ) (clipType : TimelineType) :
    (buildType disk baseDir ppqn bpm durationTicks (captureKind clipType)).withoutFile =
      clipType.withoutFile := by
  cases clipType with
  | pattern patternId => rfl
  | audio samplePath offset total => rfl
  | automation points targetParam =>
    have hpoint : ∀ p, Kept capturePoint buildPoint p := fun _ => rfl
    have hpoints : (points.map capturePoint).map buildPoint = points := kept_map hpoint points
    show TimelineType.automation ((points.map capturePoint).map buildPoint) targetParam = _
    rw [hpoints]
    rfl

/-- A clip comes back with its length at least a tick. -/
theorem buildTimelineClip_capture (ppqn : ℕ) (clip : TimelineClip) :
    (buildTimelineClip disk baseDir ppqn bpm (capturePlaylistClip clip)).withoutFile =
      { clip.withoutFile with durationTicks := max clip.durationTicks 1 } := by
  show ({ id := clip.id, name := clip.name, startTick := clip.startTick
          durationTicks := max clip.durationTicks 1
          clipType := (buildType disk baseDir ppqn bpm clip.durationTicks
            (captureKind clip.clipType)).withoutFile
          color := colorToGpui (colorFromGpui clip.color) } : TimelineClip) = _
  rw [buildType_captureKind]
  rfl

theorem clips_reapplied_iff (strips : ℕ) (p : Timeline) :
    ((appliedTimeline disk baseDir bpm strips (capturePlaylist p)).clips.map
        fun x => (x.1, x.2.withoutFile)) = p.clips.map (fun x => (x.1, x.2.withoutFile)) ↔
      (∀ x ∈ p.clips, x.1 < strips) ∧ ∀ x ∈ p.clips, 0 < x.2.durationTicks := by
  have hclips : ((appliedTimeline disk baseDir bpm strips (capturePlaylist p)).clips.map
      fun x => (x.1, x.2.withoutFile)) =
        (p.clips.filter fun x => decide (x.1 < strips)).map fun x =>
          (x.1, { x.2.withoutFile with durationTicks := max x.2.durationTicks 1 }) := by
    show (((p.clips.map fun x => (x.1, capturePlaylistClip x.2)).filter
      fun x => decide (x.1 < strips)).map _).map _ = _
    rw [List.filter_map, List.map_map, List.map_map]
    exact List.map_congr_left fun x _ =>
      congrArg (Prod.mk x.1) (buildTimelineClip_capture disk baseDir bpm (max p.ppqn 1) x.2)
  have hsame : ∀ x : ℕ × TimelineClip,
      (x.1, { x.2.withoutFile with durationTicks := max x.2.durationTicks 1 }) =
        (x.1, x.2.withoutFile) ↔ 0 < x.2.durationTicks := by
    intro x
    constructor
    · intro h
      have hdur : max x.2.durationTicks 1 = x.2.durationTicks :=
        congrArg (fun y : ℕ × TimelineClip => y.2.durationTicks) h
      omega
    · intro hpos
      rw [Nat.max_eq_left hpos]
      rfl
  rw [hclips, map_filter_eq_map_iff]
  simp only [decide_eq_true_eq, hsame]

end

/-- A playlist as it is kept by all that the application does to it: its counters at 1 at least, and no
clip without a length. -/
structure Timeline.Proper (p : Timeline) : Prop where
  ppqn : 0 < p.ppqn
  nextClipId : 0 < p.nextClipId
  long : ∀ x ∈ p.clips, 0 < x.2.durationTicks

namespace ProjectState

/-- The studio half of the application as it is saved, with its playlist in full. -/
def captureOpenStudio (s : ProjectState) (p : Timeline) : OpenStudioProject :=
  { transport := s.captureTransport, studioTracks := s.studioTracks
    playlist := (capturePlaylist p).forget }

variable (disk : Disk) (baseDir : Option String)

/-- The playlist that a saved project leaves when it is opened. -/
def openedTimeline (r s : ProjectState) (p : Timeline) : Timeline :=
  appliedTimeline disk baseDir (clampBpm s.captureTransport.bpm) (r.stripsSeen (s.captureOpenStudio p))
    (capturePlaylist p)

theorem forget_openedTimeline (r s : ProjectState) (p : Timeline) :
    (r.openedTimeline disk baseDir s p).clips.map (fun x => (x.1, x.2.forget)) =
      (r.apply disk baseDir (.openStudio (s.captureOpenStudio p))).1.playlistState.clips := by
  show _ = (r.applyOpenStudio disk baseDir (s.captureOpenStudio p)).1.playlistState.clips
  rw [playlistState_applyOpenStudio]
  exact forget_appliedTimeline disk baseDir _ _ (capturePlaylist p)

/-- Applying a project of one mode leaves the other mode as it is. -/
theorem apply_isolated (r : ProjectState) :
    (∀ project, (r.apply disk baseDir (.openStudio project)).1.matrix = r.matrix ∧
      (r.apply disk baseDir (.openStudio project)).1.liveTracks = r.liveTracks) ∧
    ∀ project, (r.apply disk baseDir (.openLive project)).1.playlistState = r.playlistState ∧
      (r.apply disk baseDir (.openLive project)).1.studioTracks = r.studioTracks :=
  ⟨fun _ => ⟨rfl, rfl⟩, fun _ => ⟨rfl, rfl⟩⟩

theorem sameAs_openedTimeline_iff {r s : ProjectState} {p : Timeline}
    (hrows : ∀ x ∈ p.clips, x.1 < s.studioTracks.length) :
    p.SameAs (r.openedTimeline disk baseDir s p) ↔
      (r.mode = .openLive → ∀ x ∈ p.clips, x.1 < r.liveTracks.length) ∧ p.Proper := by
  have hseen : (∀ x ∈ p.clips, x.1 < r.stripsSeen (s.captureOpenStudio p)) ↔
      (r.mode = .openLive → ∀ x ∈ p.clips, x.1 < r.liveTracks.length) := stripsSeen_iff hrows
  rw [← hseen]
  constructor
  · rintro ⟨hclips, hcounters, _⟩
    obtain ⟨hall, hlong⟩ := (clips_reapplied_iff disk baseDir _ _ p).mp hclips
    have hcounters' : (max p.ppqn 1, max p.nextClipId 1) = (p.ppqn, p.nextClipId) := hcounters
    rw [Prod.mk.injEq] at hcounters'
    exact ⟨hall, by omega, by omega, hlong⟩
  · rintro ⟨hall, hppqn, hnext, hlong⟩
    refine ⟨(clips_reapplied_iff disk baseDir _ _ p).mpr ⟨hall, hlong⟩, ?_, rfl⟩
    show (max p.ppqn 1, max p.nextClipId 1) = (p.ppqn, p.nextClipId)
    rw [Nat.max_eq_left hppqn, Nat.max_eq_left hnext]

/-- A playlist on the strips of its project is saved and opened without a loss, and the other mode left
alone, if and only if it is opened from OpenStudio, or no row of it is beyond the strips of OpenLive. -/
theorem reopened_iff {r s : ProjectState} {p : Timeline}
    (hrows : ∀ x ∈ p.clips, x.1 < s.studioTracks.length) :
    (p.SameAs (r.openedTimeline disk baseDir s p) ∧
      (∀ project, (r.apply disk baseDir (.openStudio project)).1.matrix = r.matrix ∧
        (r.apply disk baseDir (.openStudio project)).1.liveTracks = r.liveTracks) ∧
      ∀ project, (r.apply disk baseDir (.openLive project)).1.playlistState = r.playlistState ∧
        (r.apply disk baseDir (.openLive project)).1.studioTracks = r.studioTracks) ↔
      (r.mode = .openLive → ∀ x ∈ p.clips, x.1 < r.liveTracks.length) ∧ p.Proper := by
  rw [← sameAs_openedTimeline_iff disk baseDir hrows]
  exact and_iff_left (apply_isolated disk baseDir r)

/-- Ten strips, the last with a vocal and its automation beneath it on the ninth. -/
def tenStrips : ProjectState :=
  { initial with studioTracks := .new true :: List.replicate 9 (.new false) }

def vocal : Timeline :=
  { clips :=
      [(9, ⟨1, "vocal", 960, 3840, .audio "/vocal.wav" 480 7680, ⟨1 / 3, 1, 1 / 2, 1⟩⟩),
        (8, ⟨2, "volume", 960, 3840, .automation [⟨0, 0, 0⟩, ⟨960, 1, 1 / 2⟩] "volume", ⟨0, 0, 1, 1⟩⟩)]
    ppqn := 960, nextClipId := 3, loopStartTicks := 0, loopEndTicks := 3840, loopRegionActive := true }

theorem reopened_iff_vocal :
    vocal.SameAs (({ tenStrips with mode := .openStudio } : ProjectState).openedTimeline (fun _ => none)
      (some "/songs") tenStrips vocal) :=
  ((reopened_iff (fun _ => none) (some "/songs") (by decide)).mpr
    ⟨fun hmode => absurd hmode (by decide), by decide, by decide, by decide⟩).1

/-- Opened as the application starts, with nine strips in OpenLive, the project loses the vocal. -/
theorem not_reopened_vocal :
    (∀ x ∈ vocal.clips, x.1 < tenStrips.studioTracks.length) ∧
      ¬ vocal.SameAs (initial.openedTimeline (fun _ => none) (some "/songs") tenStrips vocal) := by
  refine ⟨by decide, fun h => ?_⟩
  have hlength := congrArg List.length h.clips
  revert hlength
  decide +kernel

end ProjectState

end HikaruOpenLive.Gui
