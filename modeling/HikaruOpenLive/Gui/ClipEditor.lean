import HikaruOpenLive.Gui.MatrixGrid
import HikaruOpenLive.Gui.PadDelivery

/-! # The clip editor

The panel that edits the loop of one clip. It keeps bounds and a switch of its own, which choosing another
clip leaves as they are; a drag of the loop and the switch send them to the engine for the clip they are
made on. Of the clip in the matrix they set the switch alone, and a clip of the playlist has no loop in
the GUI.

The length of the clip and the tempo are read anew at every event, and given with it. The scrolls and zooms
of the panel come as one event; the drags of the gain, the view and the selection do nothing to a loop and
are one kind. Numbers are exact.
-/
set_option autoImplicit false

namespace HikaruOpenLive.Gui

open Engine Foundations.ListEdits Foundations.Runs

inductive ClipEditorTarget where
  | matrix (track scene : ℕ)
  | playlist (clipId : ℕ)
deriving DecidableEq

inductive SnapValue where
  | none
  | bar1
  | beat1_2
  | beat1_4
  | beat1_8
  | beat1_16
deriving DecidableEq

def SnapValue.intervalSecs (snap : SnapValue) (bpm : ℚ) : ℚ :=
  let secPerBeat := 60 / if 0 < bpm then bpm else 120
  match snap with
  | .none => 0
  | .bar1 => secPerBeat * 4
  | .beat1_2 => secPerBeat * 2
  | .beat1_4 => secPerBeat
  | .beat1_8 => secPerBeat / 2
  | .beat1_16 => secPerBeat / 4

/-- `f64::round`, a half away from zero. -/
def roundAway (x : ℚ) : ℤ :=
  if 0 ≤ x then ⌊x + 1 / 2⌋ else -⌊-x + 1 / 2⌋

def snapTo (snap t : ℚ) : ℚ :=
  if 0 < snap then roundAway (t / snap) * snap else t

def clampTo (low high t : ℚ) : ℚ :=
  max low (min t high)

inductive DragAction where
  | loopStart
  | loopEnd
  | loopRange (startX origStart origEnd : ℚ)
  | clipStart
  | clipEnd
  | other
deriving DecidableEq

structure ClipEditorState where
  target : Option ClipEditorTarget
  zoomX : ℚ
  scrollSecs : ℚ
  snap : SnapValue
  loopStartSecs : ℚ
  loopEndSecs : ℚ
  loopEnabled : Bool
  dragAction : Option DragAction
deriving DecidableEq

/-- What the panel is told; positions in pixels. -/
inductive EditorInput where
  | select (target : Option ClipEditorTarget)
  | press (x y dur : ℚ)
  | move (x dur bpm : ℚ)
  | release
  | toggleLoop
  | view (zoomX scrollSecs : ℚ) (snap : SnapValue)

namespace ClipEditorState

def default : ClipEditorState :=
  { target := none, zoomX := 400, scrollSecs := 0, snap := .beat1_4, loopStartSecs := 0, loopEndSecs := 0
    loopEnabled := false, dragAction := none }

def selectTarget (ce : ClipEditorState) (target : Option ClipEditorTarget) : ClipEditorState :=
  { ce with target := target, scrollSecs := if target.isSome then 0 else ce.scrollSecs }

def pxPerSec (ce : ClipEditorState) : ℚ :=
  max ce.zoomX (1 / 10000)

/-- What a press of the left button takes hold of. -/
def grabbed (ce : ClipEditorState) (x y dur : ℚ) : DragAction :=
  let xOf (t : ℚ) : ℚ := (t - ce.scrollSecs) * ce.pxPerSec
  let loopStart := xOf ce.loopStartSecs
  let loopEnd := xOf (max ce.loopEndSecs ce.loopStartSecs)
  if |x - loopStart| ≤ 8 ∧ y ≤ 42 then .loopStart
  else if |x - loopEnd| ≤ 8 ∧ y ≤ 42 then .loopEnd
  else if loopStart ≤ x ∧ x ≤ loopEnd ∧ 22 ≤ y ∧ y ≤ 36 then
    .loopRange x ce.loopStartSecs (max ce.loopEndSecs (ce.loopStartSecs + 1 / 10))
  else if |x - xOf 0| ≤ 6 then .clipStart
  else if |x - xOf dur| ≤ 6 then .clipEnd
  else .other

/-- What the bounds become when the pointer moves with the button held. -/
def dragged (ce : ClipEditorState) (action : DragAction) (x dur bpm : ℚ) : ClipEditorState :=
  let snap := ce.snap.intervalSecs bpm
  let t := snapTo snap (max (ce.scrollSecs + x / ce.pxPerSec) 0)
  match action with
  | .loopRange startX origStart origEnd =>
    let len := origEnd - origStart
    let start :=
      clampTo 0 (max (dur - len) 0) (snapTo snap (origStart + (x - startX) / ce.pxPerSec))
    { ce with loopStartSecs := start, loopEndSecs := start + len }
  | .loopStart => { ce with loopStartSecs := clampTo 0 (max ce.loopEndSecs (1 / 20) - 1 / 50) t }
  | .loopEnd =>
    { ce with
      loopEndSecs := clampTo (ce.loopStartSecs + 1 / 50) (max dur (ce.loopStartSecs + 1 / 10)) t }
  | .clipStart => { ce with loopStartSecs := clampTo 0 dur t }
  | .clipEnd => { ce with loopEndSecs := clampTo 0 dur t }
  | .other => ce

def DragAction.isOfLoop : DragAction → Bool
  | .loopRange _ _ _ | .loopStart | .loopEnd => true
  | .clipStart | .clipEnd | .other => false

/-- The editor after an input, and how the loop is to be switched in the engine if it is sent there. -/
def input (ce : ClipEditorState) : EditorInput → ClipEditorState × Option Bool
  | .select target => (ce.selectTarget target, none)
  | .press x y dur => ({ ce with dragAction := some (ce.grabbed x y dur) }, none)
  | .move x dur bpm =>
    match ce.dragAction with
    | none => (ce, none)
    | some action =>
      (ce.dragged action x dur bpm, if DragAction.isOfLoop action && ce.loopEnabled then some true else none)
  | .release => ({ ce with dragAction := none }, none)
  | .toggleLoop => ({ ce with loopEnabled := !ce.loopEnabled }, some (!ce.loopEnabled))
  | .view zoomX scrollSecs snap => ({ ce with zoomX := zoomX, scrollSecs := scrollSecs, snap := snap }, none)

theorem target_input {ce : ClipEditorState} {i : EditorInput} {enabled : Bool}
    (h : (ce.input i).2 = some enabled) : (ce.input i).1.target = ce.target := by
  cases i with
  | select target => nomatch h
  | press x y dur => nomatch h
  | move x dur bpm =>
    unfold input
    cases ce.dragAction with
    | none => rfl
    | some action => cases action <;> rfl
  | release => nomatch h
  | toggleLoop => rfl
  | view zoomX scrollSecs snap => nomatch h

end ClipEditorState

end HikaruOpenLive.Gui
