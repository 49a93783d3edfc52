import HikaruOpenLive.Gui.MatrixProject
import HikaruOpenLive.Gui.MixerStrips

/-! # The playlist

The timeline of OpenStudio: its clips on rows, the gestures and edits that change them, its loop region,
and what each sends to the engine. Places of the pointer are given as ticks and rows, before they are
snapped to the grid. The names, colours and waveforms of the clips and the zoom are left out.
-/
set_option autoImplicit false

namespace HikaruOpenLive.Gui

open Engine Transport

inductive ClipType where
  | pattern (patternId : ℕ)
  | audio (samplePath : String) (sampleOffsetTicks totalSampleTicks : ℕ)
  | automation (targetParam : String)
deriving DecidableEq

structure PlaylistClip where
  id : ℕ
  startTick : ℕ
  durationTicks : ℕ
  clipType : ClipType
deriving DecidableEq

inductive TrimEdge where
  | left
  | right
deriving DecidableEq

structure PlaylistClipDrag where
  clipId : ℕ
  moved : Bool
deriving DecidableEq

/-- A trim under way, with the clip as it was when its edge was taken. -/
structure TrimDrag where
  clipId : ℕ
  edge : TrimEdge
  origStart : ℕ
  origDuration : ℕ
  origOffset : ℕ
  origTotal : ℕ
  moved : Bool
deriving DecidableEq

structure PlaylistState where
  clips : List (ℕ × PlaylistClip)
  playheadTick : ℕ
  ppqn : ℕ
  nextClipId : ℕ
  gridDenominator : ℕ
  selectedClips : List ℕ
  clipboard : List (ℕ × PlaylistClip)
  loopStartTicks : ℕ
  loopEndTicks : ℕ
  loopRegionActive : Bool
  clipDrag : Option PlaylistClipDrag
  trimDrag : Option TrimDrag
deriving DecidableEq

/-! ## Commands -/

/-- What the playlist and its play button send to the engine; playlist clips are in scene 0. -/
inductive PlaylistCommand where
  | loadClip (clipId : ℕ) (path : String) (positionSecs durationSecs offsetSecs : ℚ) (trackIndex : ℕ)
  | updateClipBounds (clipId trackIndex : ℕ) (positionSecs durationSecs offsetSecs : ℚ)
  | stopPreview
  | setBpm (bpm : ℚ)
  | syncPlaylistClips (clips : List AudioClipData)
  | seek (sampleCount : ℕ)
  | play
  | pause

/-! ## Ticks and the grid -/

def snapStepTicks (ppqn gridDenominator : ℕ) : ℕ :=
  let ppqn := max ppqn 1
  max 1 <|
    match max gridDenominator 1 with
    | 2 => ppqn * 2
    | 4 => ppqn
    | 8 => ppqn / 2
    | 16 => ppqn / 4
    | d => ppqn * 4 / d

def snapTicks (ticks gridTicks : ℕ) : ℕ :=
  if gridTicks = 0 then ticks else ⌊(ticks / gridTicks + 1 / 2 : ℚ)⌋₊ * gridTicks

def minClipTicks (ppqn : ℕ) : ℕ :=
  max (max ppqn 1 / 4) 1

def loopDisplayTick (currentTick loopStartTicks loopEndTicks : ℕ) (loopEnabled : Bool) : ℕ :=
  if !loopEnabled then currentTick
  else if loopEndTicks ≤ loopStartTicks then currentTick
  else if currentTick < loopStartTicks then currentTick
  else if loopEndTicks ≤ currentTick then
    loopStartTicks + (currentTick - loopStartTicks) % (loopEndTicks - loopStartTicks)
  else currentTick

/-- The length of a file in ticks, 0 if it is unreadable or empty. -/
def loadSampleInfo (disk : Disk) (path : String) (ppqn : ℕ) (bpm : ℚ) : ℕ :=
  match disk path with
  | none => 0
  | some w =>
    if 0 < w.sampleRate ∧ 0 < w.duration ∧ 0 < bpm then
      max ⌊(w.duration / w.sampleRate / (60 / bpm / max ppqn 1) + 1 / 2 : ℚ)⌋₊ 1
    else 0

def buildAudioClip (disk : Disk) (id : ℕ) (path : String) (startTick ppqn : ℕ) (bpm : ℚ) :
    PlaylistClip :=
  let durationTicks := max (loadSampleInfo disk path ppqn bpm) 1
  ⟨id, startTick, durationTicks, .audio path 0 durationTicks⟩

/-- Start, duration and offset of a clip whose edge is put at a tick. The left edge is clamped between
bounds that may be the wrong way round, which panics. -/
def trimApply (d : TrimDrag) (edgeTick minTicks : ℕ) : Option (ℕ × ℕ × ℕ) :=
  match d.edge with
  | .right =>
    let audioEnd := max (d.origStart + (d.origTotal - d.origOffset)) (d.origStart + minTicks)
    let newEnd := min (max edgeTick (d.origStart + minTicks)) audioEnd
    some (d.origStart, max (newEnd - d.origStart) minTicks, d.origOffset)
  | .left =>
    let maxTick := d.origStart + d.origDuration - minTicks
    if maxTick < d.origOffset then none
    else
      let newStart := min (max edgeTick d.origOffset) maxTick
      some (newStart, max (d.origStart + d.origDuration - newStart) minTicks,
        d.origOffset + (newStart - d.origStart))

/-- The clip with new bounds; only audio has an offset. -/
def PlaylistClip.withBounds (c : PlaylistClip) (start dur offset : ℕ) : PlaylistClip :=
  { c with
    startTick := start
    durationTicks := dur
    clipType :=
      match c.clipType with
      | .audio path _ total => .audio path offset total
      | other => other }

def selectionSpan (clips : List (ℕ × PlaylistClip)) : ℕ × ℕ :=
  (((clips.map fun (_, c) => c.startTick).min?).getD 0,
    ((clips.map fun (_, c) => c.startTick + c.durationTicks).max?).getD 0)

namespace PlaylistState

def default : PlaylistState :=
  { clips := [], playheadTick := 0, ppqn := 960, nextClipId := 1, gridDenominator := 4
    selectedClips := [], clipboard := [], loopStartTicks := 0, loopEndTicks := 0
    loopRegionActive := false, clipDrag := none, trimDrag := none }

def isLoopRegionValid (s : PlaylistState) : Bool :=
  s.loopRegionActive && decide (s.loopStartTicks < s.loopEndTicks)

def pasteTick (s : PlaylistState) : ℕ :=
  loopDisplayTick s.playheadTick s.loopStartTicks s.loopEndTicks s.loopRegionActive

def totalProjectTicks (s : PlaylistState) : ℕ :=
  ((s.clips.map fun (_, c) => c.startTick + c.durationTicks).max?).getD 0

def gridTicks (s : PlaylistState) : ℕ :=
  max (snapStepTicks s.ppqn s.gridDenominator) 1

def syncAllClipsToEngine (s : PlaylistState) (bpm : ℚ) : List PlaylistCommand :=
  s.clips.filterMap fun (key, clip) =>
    match clip.clipType with
    | .audio path offset _ =>
      some (.loadClip clip.id path (ticksToSecsPrecise clip.startTick s.ppqn bpm)
        (ticksToSecsPrecise clip.durationTicks s.ppqn bpm) (ticksToSecsPrecise offset s.ppqn bpm) key)
    | _ => none

/-! ## Edits -/

def dropAudioAtGridPos (s : PlaylistState) (disk : Disk) (bpm : ℚ) (path : String) (rawTick row : ℕ)
    (trackIds : List ℕ) : PlaylistState × List PlaylistCommand :=
  match trackIds[min row (trackIds.length - 1)]? with
  | none => (s, [])
  | some target =>
    let dropTick := snapTicks rawTick s.gridTicks
    let ppqn := max s.ppqn 1
    ({ s with
        nextClipId := s.nextClipId + 1
        clips := s.clips ++ [(target, buildAudioClip disk s.nextClipId path dropTick ppqn bpm)]
        selectedClips := [s.nextClipId] },
      [.loadClip s.nextClipId path (ticksToSecsPrecise dropTick ppqn bpm)
        (ticksToSecsPrecise (loadSampleInfo disk path ppqn bpm) ppqn bpm) 0 target])

/-- The clip of an id with its row. -/
def clip? (s : PlaylistState) (clipId : ℕ) : Option (ℕ × PlaylistClip) :=
  s.clips.find? fun (_, c) => decide (c.id = clipId)

def modifyClip (s : PlaylistState) (clipId : ℕ) (f : ℕ × PlaylistClip → ℕ × PlaylistClip) :
    PlaylistState :=
  { s with clips := Foundations.ListEdits.updateFirst (fun (_, c) => decide (c.id = clipId)) f s.clips }

/-- The bounds of a clip sent at the end of a gesture that moved it. -/
def boundsCommands (s : PlaylistState) (clipId : ℕ) (moved : Bool) (bpm : ℚ) : List PlaylistCommand :=
  if moved then
    match s.clip? clipId with
    | some (key, ⟨_, start, dur, .audio _ offset _⟩) =>
      let ppqn := max s.ppqn 1
      [.updateClipBounds clipId key (ticksToSecsPrecise start ppqn bpm)
        (ticksToSecsPrecise dur ppqn bpm) (ticksToSecsPrecise offset ppqn bpm)]
    | _ => []
  else []

def startClipDrag (s : PlaylistState) (clipId : ℕ) : PlaylistState :=
  match s.clip? clipId with
  | none => s
  | some _ => { s with clipDrag := some ⟨clipId, false⟩, selectedClips := [clipId] }

def updateClipDrag (s : PlaylistState) (rawTick row : ℕ) (rows : List ℕ) : PlaylistState :=
  match s.clipDrag, rows[min row (rows.length - 1)]? with
  | some drag, some newKey =>
    let newTick := snapTicks rawTick s.gridTicks
    let changed := (s.clip? drag.clipId).any fun (key, c) => c.startTick != newTick || key != newKey
    { s.modifyClip drag.clipId fun (_, c) => (newKey, { c with startTick := newTick }) with
      clipDrag := some ⟨drag.clipId, drag.moved || changed⟩ }
  | _, _ => s

def finishClipDrag (s : PlaylistState) (bpm : ℚ) : PlaylistState × List PlaylistCommand :=
  match s.clipDrag with
  | none => (s, [])
  | some drag => ({ s with clipDrag := none }, s.boundsCommands drag.clipId drag.moved bpm)

def startClipTrim (s : PlaylistState) (clipId : ℕ) (edge : TrimEdge) : PlaylistState :=
  match s.clip? clipId with
  | some (_, ⟨_, start, dur, .audio _ offset total⟩) =>
    { s with trimDrag := some ⟨clipId, edge, start, dur, offset, total, false⟩ }
  | _ => s

def updateClipTrim (s : PlaylistState) (rawTick : ℕ) : Option PlaylistState :=
  match s.trimDrag with
  | none => some s
  | some drag =>
    match s.clip? drag.clipId with
    | none => some { s with trimDrag := none }
    | some (_, clip) =>
      (trimApply drag (snapTicks rawTick s.gridTicks) (minClipTicks (max s.ppqn 1))).map
        fun (start, dur, offset) =>
          if clip.startTick = start ∧ clip.durationTicks = dur then s
          else
            { s.modifyClip drag.clipId fun (key, c) => (key, c.withBounds start dur offset) with
              trimDrag := some { drag with moved := true } }

def finishClipTrim (s : PlaylistState) (bpm : ℚ) : PlaylistState × List PlaylistCommand :=
  match s.trimDrag with
  | none => (s, [])
  | some drag => ({ s with trimDrag := none }, s.boundsCommands drag.clipId drag.moved bpm)

def selected (s : PlaylistState) : List (ℕ × PlaylistClip) :=
  s.clips.filter fun (_, c) => decide (c.id ∈ s.selectedClips)

def removeSelected (s : PlaylistState) : PlaylistState :=
  { s with
    clips := s.clips.filter fun (_, c) => decide (c.id ∉ s.selectedClips)
    selectedClips := [] }

def copySelectedClips (s : PlaylistState) : PlaylistState :=
  if s.selected = [] then s else { s with clipboard := s.selected }

def cutSelectedClips (s : PlaylistState) (bpm : ℚ) : PlaylistState × List PlaylistCommand :=
  if s.selected = [] then (s, [])
  else
    let cut := s.copySelectedClips.removeSelected
    (cut, cut.syncAllClipsToEngine bpm)

def nextFreeClipId (s : PlaylistState) : ℕ :=
  max (((s.clips.map fun (_, c) => c.id).max?).getD 0) s.nextClipId + 1

theorem lt_nextFreeClipId_of_mem {s : PlaylistState} {x : ℕ × PlaylistClip} (h : x ∈ s.clips) :
    x.2.id < s.nextFreeClipId := by
  unfold nextFreeClipId
  exact Nat.lt_succ_of_le (le_max_of_le_left
    (List.le_max?_getD_of_mem (List.mem_map.mpr ⟨x, h, rfl⟩)))

/-- A clip copied onto its own row, `delta` ticks further on, under a free id. -/
def appendCopy (delta grid : ℕ) (r : PlaylistState × List ℕ) (entry : ℕ × PlaylistClip) :
    PlaylistState × List ℕ :=
  let id := r.1.nextFreeClipId
  let copy := { entry.2 with id := id, startTick := snapTicks (entry.2.startTick + delta) grid }
  ({ r.1 with clips := r.1.clips ++ [(entry.1, copy)], nextClipId := max r.1.nextClipId (id + 1) },
    r.2 ++ [id])

def appendCopies (s : PlaylistState) (entries : List (ℕ × PlaylistClip)) (delta grid : ℕ) :
    PlaylistState × List ℕ :=
  let r := entries.foldl (appendCopy delta grid) (s, [])
  ({ r.1 with selectedClips := r.2 }, r.2)

def pasteClips (s : PlaylistState) (atTick grid : ℕ) (trackKeys : List ℕ) : PlaylistState × List ℕ :=
  if s.clipboard = [] then (s, [])
  else
    s.appendCopies (s.clipboard.filter fun (key, _) => decide (key ∈ trackKeys))
      (atTick - (selectionSpan s.clipboard).1) grid

def duplicateSelectedClips (s : PlaylistState) (grid : ℕ) : PlaylistState × List ℕ :=
  if s.selected = [] then (s, [])
  else
    let span := selectionSpan s.selected
    s.appendCopies s.selected (span.2 - span.1) grid

/-- The clips loaded again after an edit that made new ones. -/
def syncIfAny (r : PlaylistState × List ℕ) (bpm : ℚ) : PlaylistState × List PlaylistCommand :=
  (r.1, if r.2 = [] then [] else r.1.syncAllClipsToEngine bpm)

/-- The clips sent when playback starts in OpenStudio. -/
def clipsToSync (s : PlaylistState) (t : TransportPosition) : List AudioClipData :=
  let secs (samples : ℕ) : ℚ := samples / max t.sampleRate 1
  s.clips.filterMap fun (key, clip) =>
    match clip.clipType with
    | .audio path offset _ =>
      some ⟨clip.id, path, secs (t.ticksToSamples clip.startTick),
        secs (t.clipLengthFrames clip.durationTicks), secs (t.ticksToSamples offset), key⟩
    | _ => none

/-! ## The delete key -/

def deleteKey (s : PlaylistState) : PlaylistState :=
  if s.selectedClips = [] then s else s.removeSelected

end PlaylistState

example : snapTicks 500 480 = 480 := by decide +kernel

end HikaruOpenLive.Gui
