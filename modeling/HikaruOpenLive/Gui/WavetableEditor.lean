import HikaruOpenLive.Gui.WavetableDecode
import HikaruOpenLive.Render.TerrainView

/-! # The editor of a wavetable slot

Three things are dragged in the editor of a wavetable: its knobs, upwards, the sliders of its settings
panel, to the right, and the panel itself. A drag keeps the value and the point it was grabbed at, and the
value follows the pointer from there, four times slower with Shift. Beside the drags there are buttons,
the loading of a table, and the size of the viewer, which every paint reports.

Arithmetic is exact; a coordinate or a size that is not a finite number is `none`.
-/
set_option autoImplicit false

namespace HikaruOpenLive.Gui

open Render (clamp RenderSettings)

variable {K : Type} [Field K] [LinearOrder K]

/-! ## Data -/

def Wavetable.selectableFrames (table : Wavetable) : ℕ :=
  max table.frames 1

inductive KnobTarget where
  | position
  | unison
  | detune
  | phase
deriving DecidableEq

inductive VoiceMode where
  | mono
  | legato
  | poly
deriving DecidableEq

def VoiceMode.cycle : VoiceMode → VoiceMode
  | .mono => .legato
  | .legato => .poly
  | .poly => .mono

inductive SettingParam where
  | lineWidth
  | lineWidth2d
  | depthScale
  | yaw
  | pitch
  | depthFade
  | aaFeather
  | glow
deriving DecidableEq

structure SettingDrag (K : Type) where
  param : SettingParam
  grab : Option K
  originX : K

structure PanelDrag (K : Type) where
  grab : K × K
  origin : K × K

structure WavetableEditor (K : Type) where
  table : Wavetable
  morph : K
  frame : ℕ
  renderSettings : RenderSettings K
  settingDrag : Option (SettingDrag K)
  panelOffset : K × K
  panelDrag : Option (PanelDrag K)
  viewportSize : K × K
  unison : ℕ
  detune : K
  phase : K
  pitch : ℤ
  octave : ℤ
  voices : VoiceMode
  dragTarget : KnobTarget
  dragging : Bool
  dragGrab : K
  dragOriginY : K

def dragRangePx : K := 160.0
def fineTuneFactor : K := 0.25
def settingDragPx : K := 160.0
def panelDefaultRight : K := 3.0
def panelDefaultTop : K := 24.0
def panelWidth : K := 140.0
def panelGrabStrip : K := 30.0
def panelGripH : K := 14.0
def fallbackViewportW : K := 260.0
def fallbackViewportH : K := 150.0

def valueGain (fine : Bool) : K :=
  if fine then fineTuneFactor else 1

/-! ## The settings panel -/

namespace SettingParam

def range : SettingParam → K × K
  | .lineWidth => (1, 6.0)
  | .lineWidth2d => (1, 8.0)
  | .depthScale => (0.3, 2.0)
  | .yaw => (-30.0, 30.0)
  | .pitch => (5.0, 60.0)
  | .depthFade => (0, 0.8)
  | .aaFeather => (0, 2.0)
  | .glow => (0.3, 2.0)

def get (param : SettingParam) (settings : RenderSettings K) : Option K :=
  match param with
  | .lineWidth => settings.lineWidth
  | .lineWidth2d => settings.lineWidth2d
  | .depthScale => settings.depthScale
  | .yaw => settings.yawDeg
  | .pitch => settings.pitchDeg
  | .depthFade => settings.depthFade
  | .aaFeather => settings.aaFeather
  | .glow => settings.glow

/-- The value kept within the range; one that is not a number gives the lower end. -/
def bounded (param : SettingParam) (value : Option K) : K :=
  match value with
  | some value => clamp param.range.1 param.range.2 value
  | none => param.range.1

def set (param : SettingParam) (settings : RenderSettings K) (value : Option K) : RenderSettings K :=
  let value := some (param.bounded value)
  match param with
  | .lineWidth => { settings with lineWidth := value }
  | .lineWidth2d => { settings with lineWidth2d := value }
  | .depthScale => { settings with depthScale := value }
  | .yaw => { settings with yawDeg := value }
  | .pitch => { settings with pitchDeg := value }
  | .depthFade => { settings with depthFade := value }
  | .aaFeather => { settings with aaFeather := value }
  | .glow => { settings with glow := value }

/-- What the renderer draws with. -/
def drawn (param : SettingParam) (settings : RenderSettings K) : K :=
  match param with
  | .lineWidth => Render.sanitizeWidth settings.lineWidth
  | .lineWidth2d => Render.sanitizeWidth settings.lineWidth2d
  | .depthScale => Render.depthScaleOf settings
  | .yaw => Render.usableYaw settings.yawDeg
  | .pitch => Render.usablePitch settings.pitchDeg
  | .depthFade => Render.fadeOf settings
  | .aaFeather => Render.usableFeather settings.aaFeather
  | .glow => Render.usableGlow settings.glow

end SettingParam

/-! ## The editor -/

namespace WavetableEditor

def withTable (table : Wavetable) : WavetableEditor K :=
  { table := table
    morph := 0
    frame := 0
    renderSettings := RenderSettings.default
    settingDrag := none
    panelOffset := (0, 0)
    panelDrag := none
    viewportSize := (0, 0)
    unison := 1
    detune := 0
    phase := 0
    pitch := 0
    octave := 0
    voices := .poly
    dragTarget := .position
    dragging := false
    dragGrab := 0
    dragOriginY := 0 }

def activeCycle (s : WavetableEditor K) : K :=
  let frames := s.table.selectableFrames
  if frames ≤ 1 then 0
  else clamp 0 1 (((s.frame : K) + s.morph) / ((frames - 1 : ℕ) : K)) * ((frames - 1 : ℕ) : K)

def position (s : WavetableEditor K) : K :=
  let frames := s.table.selectableFrames
  if frames ≤ 1 then 0 else clamp 0 1 (s.activeCycle / ((frames - 1 : ℕ) : K))

def normUnison (s : WavetableEditor K) : K :=
  (((max 1 (min s.unison 16) : ℕ) : K) - 1) / 15.0

def setUnison (s : WavetableEditor K) (voices : ℕ) : WavetableEditor K :=
  { s with unison := max 1 (min voices 16) }

def stepUnison (s : WavetableEditor K) (delta : ℤ) : WavetableEditor K :=
  s.setUnison (max 1 (min ((s.unison : ℤ) + delta) 16)).toNat

def stepPitch (s : WavetableEditor K) (delta : ℤ) : WavetableEditor K :=
  { s with pitch := max (-24) (min (s.pitch + delta) 24) }

def stepOctave (s : WavetableEditor K) (delta : ℤ) : WavetableEditor K :=
  { s with octave := max (-3) (min (s.octave + delta) 3) }

def cycleVoices (s : WavetableEditor K) : WavetableEditor K :=
  { s with voices := s.voices.cycle }

def stepFrame (s : WavetableEditor K) (delta : ℤ) : WavetableEditor K :=
  let frames := s.table.selectableFrames
  if frames ≤ 1 then s
  else { s with frame := (max 0 (min ((s.frame : ℤ) + delta) ((frames : ℤ) - 1))).toNat }

def endDrag (s : WavetableEditor K) : WavetableEditor K :=
  { s with dragging := false, settingDrag := none, panelDrag := none }

def load (s : WavetableEditor K) (table : Wavetable) : WavetableEditor K :=
  { s with table := table, morph := 0, frame := 0 }.endDrag

/-- What a knob shows, from 0 to 1. -/
def knob (s : WavetableEditor K) : KnobTarget → K
  | .position => s.position
  | .unison => s.normUnison
  | .detune => s.detune
  | .phase => s.phase

def beginDragTarget (s : WavetableEditor K) (target : KnobTarget) (windowY : Option K) : WavetableEditor K :=
  { s with
    dragTarget := target
    dragging := true
    settingDrag := none
    panelDrag := none
    dragGrab := s.knob target
    dragOriginY := windowY.getD 0 }

def beginSettingDrag (s : WavetableEditor K) (param : SettingParam) (windowX : Option K) : WavetableEditor K :=
  { s with
    dragging := false
    panelDrag := none
    settingDrag := some { param := param, grab := param.get s.renderSettings, originX := windowX.getD 0 } }

/-- The slider follows the pointer; without a drag, or at no number, it stays. -/
def dragSettingTo (s : WavetableEditor K) (windowX : Option K) (fine : Bool) : WavetableEditor K :=
  match s.settingDrag, windowX with
  | some drag, some x =>
    let range := drag.param.range
    let value := drag.grab.map fun grab =>
      grab + (x - drag.originX) / settingDragPx * (range.2 - range.1) * valueGain fine
    { s with renderSettings := drag.param.set s.renderSettings value }
  | _, _ => s

def beginPanelDrag (s : WavetableEditor K) (windowX windowY : Option K) : WavetableEditor K :=
  { s with
    dragging := false
    settingDrag := none
    panelDrag := some { grab := s.panelOffset, origin := (windowX.getD 0, windowY.getD 0) } }

def measuredViewport (s : WavetableEditor K) : K × K :=
  (if 0 < s.viewportSize.1 then s.viewportSize.1 else fallbackViewportW,
    if 0 < s.viewportSize.2 then s.viewportSize.2 else fallbackViewportH)

/-- How far the panel may be moved, to the side and down. -/
def panelOffsetRange (s : WavetableEditor K) : (K × K) × (K × K) :=
  let view := s.measuredViewport
  let rightMin := -(panelWidth - panelGrabStrip)
  let rightMax := max (view.1 - panelGrabStrip) rightMin
  let topMax := max (view.2 - panelGripH) 0
  ((panelDefaultRight - rightMax, panelDefaultRight - rightMin), (0 - panelDefaultTop, topMax - panelDefaultTop))

/-- Where the panel is drawn, from the right and from the top. -/
def panelPosition (s : WavetableEditor K) : K × K :=
  let range := s.panelOffsetRange
  (panelDefaultRight - clamp range.1.1 range.1.2 s.panelOffset.1,
    panelDefaultTop + clamp range.2.1 range.2.2 s.panelOffset.2)

def dragPanelTo (s : WavetableEditor K) (windowX windowY : Option K) : WavetableEditor K :=
  match s.panelDrag, windowX, windowY with
  | some drag, some x, some y =>
    let range := s.panelOffsetRange
    { s with
      panelOffset :=
        (clamp range.1.1 range.1.2 (drag.grab.1 + (x - drag.origin.1)),
          clamp range.2.1 range.2.2 (drag.grab.2 + (y - drag.origin.2))) }
  | _, _, _ => s

def recordViewportSize (s : WavetableEditor K) (width height : Option K) : WavetableEditor K :=
  match width, height with
  | some width, some height =>
    if width ≤ 0 ∨ height ≤ 0 then s else { s with viewportSize := (min width 4096.0, min height 4096.0) }
  | _, _ => s

variable [FloorRing K]

def setPosition (s : WavetableEditor K) (position : Option K) : WavetableEditor K :=
  let frames := s.table.selectableFrames
  if frames ≤ 1 then { s with frame := 0, morph := 0 }
  else
    let last : K := ((frames - 1 : ℕ) : K)
    let position := match position with
      | some position => clamp 0 1 position
      | none => 0
    let cycle := clamp 0 last (position * last)
    { s with frame := ⌊cycle⌋₊, morph := cycle - (⌊cycle⌋₊ : K) }

/-- The knob follows the pointer; without a drag, or at no number, it stays. -/
def dragTo (s : WavetableEditor K) (windowY : Option K) (fine : Bool) : WavetableEditor K :=
  match s.dragging, windowY with
  | true, some y =>
    let value := s.dragGrab + (s.dragOriginY - y) / dragRangePx * valueGain fine
    match s.dragTarget with
    | .position => s.setPosition (some value)
    | .unison => s.setUnison (1 + ⌊Render.round (clamp 0 1 value * 15.0)⌋₊)
    | .detune => { s with detune := clamp 0 1 value }
    | .phase => { s with phase := clamp 0 1 value }
  | _, _ => s

/-- A move of the pointer anywhere in the window. -/
def pointerMoved (s : WavetableEditor K) (x y : Option K) (shift : Bool) : WavetableEditor K :=
  if s.panelDrag.isSome then s.dragPanelTo x y
  else if s.settingDrag.isSome then s.dragSettingTo x shift
  else s.dragTo y shift

end WavetableEditor

/-! ## Events -/

inductive EditorEvent (K : Type) where
  | pressKnob (target : KnobTarget) (y : Option K)
  | pressSetting (param : SettingParam) (x : Option K)
  | pressPanel (x y : Option K)
  | pointerMoved (x y : Option K) (shift : Bool)
  | released
  | painted (width height : Option K)
  | stepUnison (delta : ℤ)
  | stepPitch (delta : ℤ)
  | stepOctave (delta : ℤ)
  | cycleVoices
  | stepFrame (delta : ℤ)
  | load (table : Wavetable)

variable [FloorRing K]

def WavetableEditor.handle (s : WavetableEditor K) : EditorEvent K → WavetableEditor K
  | .pressKnob target y => s.beginDragTarget target y
  | .pressSetting param x => s.beginSettingDrag param x
  | .pressPanel x y => s.beginPanelDrag x y
  | .pointerMoved x y shift => s.pointerMoved x y shift
  | .released => s.endDrag
  | .painted width height => s.recordViewportSize width height
  | .stepUnison delta => s.stepUnison delta
  | .stepPitch delta => s.stepPitch delta
  | .stepOctave delta => s.stepOctave delta
  | .cycleVoices => s.cycleVoices
  | .stepFrame delta => s.stepFrame delta
  | .load table => s.load table

end HikaruOpenLive.Gui
