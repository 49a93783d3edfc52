import HikaruOpenLive.Gui.GridViewport

/-! # Where the layers of the piano roll put a tick

The notes are children of the content and are placed in it; the ruler, the playhead and the selection
are painted on canvases that cover the part of the content that shows, by the distance from the corner
of the canvas. A click comes in coordinates of the window. `layers_apart` says by how much the painted
layers are off from the notes, and the click from the note that it is on.
-/
set_option autoImplicit false

namespace HikaruOpenLive.Gui.PianoRoll

open Foundations.Saturating

def defaultBars : ℕ := 32

def totalTicksFor (maxNoteTick playheadTick : ℕ) : ℕ :=
  max (ticksPerBar * defaultBars) (addUp 64 (max maxNoteTick playheadTick) (ticksPerBar * 2))

/-- One frame of the piano roll: its view, the corner of the scroll area in the window, and the ticks
that the content is made to reach. -/
structure Frame where
  view : GridView
  areaX : ℚ
  areaY : ℚ
  maxNoteTick : ℕ
  playheadTick : ℕ

namespace Frame

variable (f : Frame)

def contentW : ℚ :=
  sidebarWidth + totalTicksFor f.maxNoteTick f.playheadTick * f.view.zoomX

/-- The left edge of the part that shows, in the content. -/
def winX0 : ℚ :=
  max 0 (min (max (-f.view.offsetX) 0) f.contentW)

/-- Where a point of the content is in the window: the scroll moves the children of the area. -/
def windowX (contentX : ℚ) : ℚ :=
  f.areaX + f.view.offsetX + contentX

def windowY (contentY : ℚ) : ℚ :=
  f.areaY + f.view.offsetY + contentY

/-! ## The layers -/

def noteLeft (tick : ℕ) : ℚ :=
  sidebarWidth + tick * f.view.zoomX

def noteTop (pitch : ℕ) : ℚ :=
  ((midiKeyCount - 1 - pitch : ℕ) : ℚ) * f.view.keyHeight + rulerHeight

/-- `bounds.origin.x` of a canvas, which is placed at the left edge of the part that shows. -/
def canvasOriginX : ℚ :=
  f.windowX f.winX0

def noteX (tick : ℕ) : ℚ :=
  f.windowX (f.noteLeft tick)

def rulerX (tick : ℕ) : ℚ :=
  f.canvasOriginX + (tick * f.view.zoomX - f.winX0)

def selectionX (tick : ℕ) : ℚ :=
  f.canvasOriginX + (tick * f.view.zoomX - f.winX0)

def playheadX (tick : ℕ) : ℚ :=
  f.canvasOriginX + (tick * f.view.zoomX - f.winX0)

/-- The view of the content as it lies, not scrolled. -/
def unscrolled : GridView :=
  { f.view with offsetX := 0, offsetY := 0 }

/-- The layers agree on a tick, and a click where a note is drawn is a click on it. -/
structure OneMapping (tick pitch : ℕ) : Prop where
  ruler : f.rulerX tick = f.noteX tick
  playhead : f.playheadX tick = f.noteX tick
  selection : f.selectionX tick = f.noteX tick
  click : cellAt f.view (f.noteX tick) (f.windowY (f.noteTop pitch)) =
    some (quantizeTick tick quantizeTicks, pitch)

variable {f}

/-- The canvas and the distance on it put a tick as far from the start of the content as it is long:
the keys at the side are left out. -/
theorem canvas_tick (tick : ℕ) :
    f.canvasOriginX + (tick * f.view.zoomX - f.winX0) = f.noteX tick - sidebarWidth := by
  unfold canvasOriginX noteX windowX noteLeft
  ring

/-- A click is read from the corner of the window, as if the scroll area began there. -/
theorem cellAt_window (contentX contentY : ℚ) :
    cellAt f.view (f.windowX contentX) (f.windowY contentY) =
      cellAt f.unscrolled (f.areaX + contentX) (f.areaY + contentY) := by
  have hx : f.windowX contentX - f.view.offsetX = f.areaX + contentX - 0 := by
    unfold windowX
    ring
  have hy : f.windowY contentY - f.view.offsetY = f.areaY + contentY - 0 := by
    unfold windowY
    ring
  unfold cellAt unscrolled
  simp only [hx, hy]

/-- Without the scroll and the place of the area, the click is the inverse of the notes. -/
theorem cellAt_note (hzoom : 0 < f.view.zoomX) (hkey : 0 < f.view.keyHeight) {tick pitch : ℕ}
    (htick : tick < 2 ^ 64) (hpitch : pitch ≤ midiKeyCount - 1) :
    cellAt f.unscrolled (f.noteLeft tick) (f.noteTop pitch) =
      some (quantizeTick tick quantizeTicks, pitch) := by
  have hx : f.noteLeft tick - 0 - sidebarWidth = tick * f.view.zoomX := by
    unfold noteLeft
    ring
  have hy : f.noteTop pitch - 0 - rulerHeight =
      ((midiKeyCount - 1 - pitch : ℕ) : ℚ) * f.view.keyHeight := by
    unfold noteTop
    ring
  have hinside : ¬ ((tick : ℚ) * f.view.zoomX < 0 ∨
      ((midiKeyCount - 1 - pitch : ℕ) : ℚ) * f.view.keyHeight < 0) := by
    rw [not_or, not_lt, not_lt]
    exact ⟨by positivity, by positivity⟩
  have htrunc : ∀ n largest : ℕ, n ≤ largest → truncate largest (max (n : ℚ) 0) = n := by
    intro n largest hn
    rw [max_eq_left (Nat.cast_nonneg n), truncate, Int.floor_natCast, Int.toNat_natCast, min_eq_left hn]
  unfold cellAt unscrolled
  simp only [hx, hy, if_neg hinside, mul_div_cancel_right₀ _ hzoom.ne', mul_div_cancel_right₀ _ hkey.ne']
  rw [htrunc tick _ (by omega), htrunc _ _ (by unfold midiKeyCount; omega)]
  congr 2
  omega

variable (f)

/-- The painted layers agree with each other and are always the width of the keys to the left of the
notes, so the layers are never one mapping. A click on a note is read with the place of the area added
to it; with the area in the corner of the window it is the note's. -/
theorem layers_apart (tick pitch : ℕ) :
    ¬ f.OneMapping tick pitch ∧
    (f.rulerX tick = f.noteX tick - sidebarWidth ∧ f.playheadX tick = f.noteX tick - sidebarWidth ∧
      f.selectionX tick = f.noteX tick - sidebarWidth) ∧
    cellAt f.view (f.noteX tick) (f.windowY (f.noteTop pitch)) =
      cellAt f.unscrolled (f.areaX + f.noteLeft tick) (f.areaY + f.noteTop pitch) ∧
    (f.areaX = 0 → f.areaY = 0 → 0 < f.view.zoomX → 0 < f.view.keyHeight → tick < 2 ^ 64 →
      pitch ≤ midiKeyCount - 1 →
        cellAt f.view (f.noteX tick) (f.windowY (f.noteTop pitch)) =
          some (quantizeTick tick quantizeTicks, pitch)) := by
  have hpainted : f.rulerX tick = f.noteX tick - sidebarWidth := canvas_tick tick
  refine ⟨fun h => ?_, ⟨hpainted, canvas_tick tick, canvas_tick tick⟩, cellAt_window _ _, ?_⟩
  · have hruler := h.ruler
    rw [hpainted] at hruler
    unfold sidebarWidth at hruler
    linarith
  · intro hx hy hzoom hkey htick hpitch
    rw [noteX, cellAt_window, hx, hy, zero_add, zero_add]
    exact cellAt_note hzoom hkey htick hpitch

/-- The view as it opens, without a scroll and with the area in the corner of the window. -/
def cornerFrame : Frame :=
  { view := ⟨3 / 50, 16, 0, 0⟩, areaX := 0, areaY := 0, maxNoteTick := 0, playheadTick := 0 }

theorem layers_apart_corner :
    cellAt cornerFrame.view (cornerFrame.noteX 1000) (cornerFrame.windowY (cornerFrame.noteTop 60)) =
      some (quantizeTick 1000 quantizeTicks, 60) :=
  (cornerFrame.layers_apart 1000 60).2.2.2 rfl rfl (by norm_num [cornerFrame]) (by norm_num [cornerFrame])
    (by norm_num) (by decide)

/-- The line of the first tick is at the left edge, under the keys, and a note there is at their right. -/
theorem ruler_under_keys : cornerFrame.rulerX 0 = 0 ∧ cornerFrame.noteX 0 = 140 := by
  decide +kernel

end Frame

end HikaruOpenLive.Gui.PianoRoll
