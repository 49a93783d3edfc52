import HikaruOpenLive.Foundations.Saturating
import HikaruOpenLive.Gui.PianoRoll

/-! # What the piano roll draws of its notes

The piano roll draws the notes of a window of rows and ticks, which is found from the scroll and from
the size of the area. The window is wider than the area by some rows and by a bar. `visible_iff` says
that every note whose rectangle meets the area is in the window, as long as the window is in range of
the integers it is counted in.
-/
set_option autoImplicit false

namespace HikaruOpenLive.Gui.PianoRoll

open Foundations.Saturating

def ticksPerBar : ℕ := 3840

def defaultKeyHeight : ℚ := 16

def minZoomX : ℚ := 8 / 1000

def maxZoomX : ℚ := 1 / 2

def minViewportW : ℚ := 480

def minViewportH : ℚ := 180

/-- `f32::EPSILON`. -/
def epsilon : ℚ := 1 / 2 ^ 23

def rowOverscan : ℤ := 4

def tickOverscan : ℤ := ticksPerBar

/-- The part of the content that shows: the rows `[rowStart, rowEnd)`, the ticks `[tickStart, tickEnd]`. -/
structure GridViewport where
  scrollX : ℚ
  scrollY : ℚ
  width : ℚ
  height : ℚ
  rowStart : ℕ
  rowEnd : ℕ
  tickStart : ℕ
  tickEnd : ℕ
deriving DecidableEq

/-- `as i64`, which stops at either end. -/
def castI64 (n : ℤ) : ℤ :=
  within (-(2 ^ 63)) (2 ^ 63 - 1) n

/-- A sum of `i64`s, nothing where it overflows. -/
def sumI64 (n : ℤ) : Option ℤ :=
  checked (-(2 ^ 63)) (2 ^ 63 - 1) n

/-- The size of the scroll area. -/
structure Area where
  width : ℚ
  height : ℚ

def computeGridViewport (view : GridView) (area : Area) : Option GridViewport := do
  let kh := if view.keyHeight > 1 / 2 then view.keyHeight else defaultKeyHeight
  let zx := if view.zoomX > epsilon then view.zoomX else minZoomX
  let width := max area.width minViewportW
  let height := max area.height minViewportH
  let scrollX := max (-view.offsetX) 0
  let scrollY := max (-view.offsetY) 0
  let rowsTop := scrollY - rulerHeight
  let rowsBottom := scrollY + height - rulerHeight
  let rowFirst ← sumI64 (castI64 ⌊rowsTop / kh⌋ - rowOverscan)
  let rowStart := (within 0 (midiKeyCount - 1) rowFirst).toNat
  let rowLast ← sumI64 (castI64 ⌈rowsBottom / kh⌉ + rowOverscan)
  let rowEnd := min (max (within 0 midiKeyCount rowLast).toNat (rowStart + 1)) midiKeyCount
  let ticksLeft := scrollX - sidebarWidth
  let ticksRight := scrollX + width - sidebarWidth
  let tickFirst ← sumI64 (castI64 ⌊ticksLeft / zx⌋ - tickOverscan)
  let tickStart := (max tickFirst 0).toNat
  let tickLast ← sumI64 (castI64 ⌈ticksRight / zx⌉ + tickOverscan)
  let tickEnd := max (max tickLast 0).toNat tickStart
  some { scrollX, scrollY, width, height, rowStart, rowEnd, tickStart, tickEnd }

def noteVisibleIn (note : MidiNote) (vp : GridViewport) : Bool :=
  let row : ℤ := midiKeyCount - 1 - note.pitch
  if row < vp.rowStart ∨ row ≥ vp.rowEnd then false
  else
    let last := addUp 64 note.startTick note.durationTicks
    decide (last ≥ vp.tickStart) && decide (note.startTick ≤ vp.tickEnd)

/-! ## The rectangle of a note -/

structure Rect where
  left : ℚ
  top : ℚ
  width : ℚ
  height : ℚ

/-- Where a note is drawn, in the content. There is no row for a pitch past the keys. -/
def noteRect (view : GridView) (note : MidiNote) : Option Rect :=
  if note.pitch ≤ midiKeyCount - 1 then
    some
      { left := sidebarWidth + note.startTick * view.zoomX
        top := ((midiKeyCount - 1 - note.pitch : ℕ) : ℚ) * view.keyHeight + rulerHeight
        width := max (note.durationTicks * view.zoomX) 4
        height := view.keyHeight - 1 }
  else none

/-- The rectangle meets the part of the content that shows in the area, if only at its edge. -/
def Rect.Shows (rect : Rect) (view : GridView) (area : Area) : Prop :=
  (rect.left ≤ -view.offsetX + area.width ∧ -view.offsetX ≤ rect.left + rect.width) ∧
    rect.top ≤ -view.offsetY + area.height ∧ -view.offsetY ≤ rect.top + rect.height

/-- The last row and the last tick of the window are in range of `i64`. -/
def WindowFits (view : GridView) (area : Area) : Prop :=
  ⌈(max (-view.offsetY) 0 + area.height - rulerHeight) / view.keyHeight⌉ + rowOverscan ≤ 2 ^ 63 - 1 ∧
    ⌈(max (-view.offsetX) 0 + area.width - sidebarWidth) / view.zoomX⌉ + tickOverscan ≤ 2 ^ 63 - 1

instance (view : GridView) (area : Area) : Decidable (WindowFits view area) :=
  inferInstanceAs (Decidable (_ ∧ _))

/-! ## The window of an area -/

theorem sumI64_sub {n k : ℤ} (hk : 0 ≤ k) (hn : -(2 ^ 63) + k ≤ n) (hk' : k ≤ 2 ^ 63) :
    sumI64 (castI64 n - k) = some (min n (2 ^ 63 - 1) - k) :=
  checked_within_sub hk hn (by omega)

theorem sumI64_add {n k : ℤ} (hk : 0 < k) (hn : -(2 ^ 63) ≤ n) :
    sumI64 (castI64 n + k) = if n + k ≤ 2 ^ 63 - 1 then some (n + k) else none :=
  checked_within_add hk hn

/-! ### Quotients and the integers around them -/

theorem le_floor_div {d x : ℚ} {k : ℤ} (hd : 0 < d) (h : k * d ≤ x) : k ≤ ⌊x / d⌋ := by
  rw [Int.le_floor, le_div_iff₀ hd]
  exact h

theorem floor_div_le {d x : ℚ} {k : ℤ} (hd : 0 < d) (h : x ≤ k * d) : ⌊x / d⌋ ≤ k := by
  have hq : x / d ≤ k := (div_le_iff₀ hd).mpr h
  exact (Int.floor_le_floor hq).trans (Int.floor_intCast k).le

theorem le_ceil_div {d x : ℚ} {k : ℤ} (hd : 0 < d) (h : k * d ≤ x) : k ≤ ⌈x / d⌉ :=
  (le_floor_div hd h).trans (Int.floor_le_ceil _)

section

variable {view : GridView} {area : Area}

/-- The window of an area that is not too small, at a zoom and a height of keys that are drawn. -/
def gridWindow (view : GridView) (area : Area) : GridViewport :=
  let scrollX := max (-view.offsetX) 0
  let scrollY := max (-view.offsetY) 0
  let rowStart := (within 0 (midiKeyCount - 1)
    (min ⌊(scrollY - rulerHeight) / view.keyHeight⌋ (2 ^ 63 - 1) - rowOverscan)).toNat
  let tickStart := (max (min ⌊(scrollX - sidebarWidth) / view.zoomX⌋ (2 ^ 63 - 1) - tickOverscan) 0).toNat
  { scrollX := scrollX
    scrollY := scrollY
    width := area.width
    height := area.height
    rowStart := rowStart
    rowEnd := min (max (within 0 midiKeyCount
      (⌈(scrollY + area.height - rulerHeight) / view.keyHeight⌉ + rowOverscan)).toNat (rowStart + 1))
        midiKeyCount
    tickStart := tickStart
    tickEnd := max (max (⌈(scrollX + area.width - sidebarWidth) / view.zoomX⌉ + tickOverscan) 0).toNat
      tickStart }

theorem computeGridViewport_eq (hzoom : minZoomX ≤ view.zoomX) (hkey : 1 < view.keyHeight)
    (hwidth : minViewportW ≤ area.width) (hheight : minViewportH ≤ area.height) :
    computeGridViewport view area = if WindowFits view area then some (gridWindow view area) else none := by
  have hzoom' : view.zoomX > epsilon := by
    unfold minZoomX at hzoom
    unfold epsilon
    linarith
  have hkey' : view.keyHeight > 1 / 2 := by linarith
  have hkeyPos : 0 < view.keyHeight := by linarith
  have hzoomPos : 0 < view.zoomX := lt_of_lt_of_le (by norm_num [minZoomX]) hzoom
  have hscrollX : 0 ≤ max (-view.offsetX) 0 := le_max_right _ _
  have hscrollY : 0 ≤ max (-view.offsetY) 0 := le_max_right _ _
  -- The ruler and the keys are few rows and few ticks, so no quotient is far below zero.
  unfold minZoomX at hzoom
  have hrow : -24 ≤ ⌊(max (-view.offsetY) 0 - rulerHeight) / view.keyHeight⌋ :=
    le_floor_div hkeyPos (by unfold rulerHeight; push_cast; linarith)
  have htick : -17500 ≤ ⌊(max (-view.offsetX) 0 - sidebarWidth) / view.zoomX⌋ :=
    le_floor_div hzoomPos (by unfold sidebarWidth; push_cast; linarith)
  have hrow' : 0 ≤ ⌈(max (-view.offsetY) 0 + area.height - rulerHeight) / view.keyHeight⌉ := by
    refine le_ceil_div hkeyPos ?_
    unfold minViewportH at hheight
    unfold rulerHeight
    push_cast
    linarith
  have htick' : 0 ≤ ⌈(max (-view.offsetX) 0 + area.width - sidebarWidth) / view.zoomX⌉ := by
    refine le_ceil_div hzoomPos ?_
    unfold minViewportW at hwidth
    unfold sidebarWidth
    push_cast
    linarith
  unfold computeGridViewport
  simp only [if_pos hkey', if_pos hzoom', max_eq_left hwidth, max_eq_left hheight]
  rw [sumI64_sub (by decide) (by unfold rowOverscan; omega) (by decide),
    sumI64_sub (by decide) (by unfold tickOverscan ticksPerBar; omega) (by decide),
    sumI64_add (by decide) (by omega), sumI64_add (by decide) (by omega)]
  by_cases hrows : ⌈(max (-view.offsetY) 0 + area.height - rulerHeight) / view.keyHeight⌉ + rowOverscan ≤
      2 ^ 63 - 1
  · by_cases hticks : ⌈(max (-view.offsetX) 0 + area.width - sidebarWidth) / view.zoomX⌉ + tickOverscan ≤
        2 ^ 63 - 1
    · have hfits : WindowFits view area := ⟨hrows, hticks⟩
      rw [if_pos hfits, if_pos hrows, if_pos hticks]
      rfl
    · have hfits : ¬ WindowFits view area := fun h => hticks h.2
      rw [if_neg hfits, if_pos hrows, if_neg hticks]
      rfl
  · have hfits : ¬ WindowFits view area := fun h => hrows h.1
    rw [if_neg hfits, if_neg hrows]
    rfl

/-! ## The notes that show are in the window -/

/-- A row that ends below the top of the area is not before the window. -/
theorem rowStart_le (hkey : 1 < view.keyHeight) {row : ℕ}
    (h : -view.offsetY ≤ row * view.keyHeight + rulerHeight + (view.keyHeight - 1)) :
    (gridWindow view area).rowStart ≤ row := by
  have hkeyPos : 0 < view.keyHeight := by linarith
  have hscroll : max (-view.offsetY) 0 - rulerHeight ≤ (row + 1) * view.keyHeight := by
    unfold rulerHeight at h ⊢
    have hrow : 0 ≤ (row : ℚ) * view.keyHeight := by positivity
    have hmax : max (-view.offsetY) 0 ≤ row * view.keyHeight + 24 + view.keyHeight :=
      max_le (by linarith) (by linarith)
    linarith
  have hfloor : ⌊(max (-view.offsetY) 0 - rulerHeight) / view.keyHeight⌋ ≤ row + 1 :=
    floor_div_le hkeyPos (by push_cast; exact hscroll)
  simp only [gridWindow, within, rowOverscan]
  omega

/-- A row that begins above the bottom of the area is not after the window. -/
theorem lt_rowEnd (hkey : 1 < view.keyHeight) {row : ℕ} (hrow : row ≤ midiKeyCount - 1)
    (h : row * view.keyHeight + rulerHeight ≤ -view.offsetY + area.height) :
    row < (gridWindow view area).rowEnd := by
  have hkeyPos : 0 < view.keyHeight := by linarith
  have hceil : (row : ℤ) ≤ ⌈(max (-view.offsetY) 0 + area.height - rulerHeight) / view.keyHeight⌉ := by
    refine le_ceil_div hkeyPos ?_
    have := le_max_left (-view.offsetY) 0
    push_cast
    linarith
  simp only [gridWindow, within, rowOverscan]
  unfold midiKeyCount at *
  omega

/-- The shortest rectangle is four pixels, which are less than a bar at every zoom. -/
theorem tickStart_le (hzoom : minZoomX ≤ view.zoomX) {note : MidiNote}
    (h : -view.offsetX ≤ sidebarWidth + note.startTick * view.zoomX +
      max (note.durationTicks * view.zoomX) 4) :
    (gridWindow view area).tickStart ≤ addUp 64 note.startTick note.durationTicks := by
  have hzoomPos : 0 < view.zoomX := lt_of_lt_of_le (by norm_num [minZoomX]) hzoom
  have hfour : 4 ≤ 500 * view.zoomX := by
    unfold minZoomX at hzoom
    linarith
  have hstart : 0 ≤ (note.startTick : ℚ) * view.zoomX := by positivity
  have hduration : 0 ≤ (note.durationTicks : ℚ) * view.zoomX := by positivity
  have hwidth : max (note.durationTicks * view.zoomX) 4 ≤ note.durationTicks * view.zoomX + 500 * view.zoomX :=
    max_le (by linarith) (by linarith)
  have hscroll : max (-view.offsetX) 0 - sidebarWidth ≤
      (note.startTick + note.durationTicks + 500) * view.zoomX := by
    unfold sidebarWidth at h ⊢
    have hmax : max (-view.offsetX) 0 ≤
        140 + (note.startTick + note.durationTicks + 500) * view.zoomX :=
      max_le (by linarith) (by linarith)
    linarith
  have hfloor : ⌊(max (-view.offsetX) 0 - sidebarWidth) / view.zoomX⌋ ≤
      note.startTick + note.durationTicks + 500 :=
    floor_div_le hzoomPos (by push_cast; exact hscroll)
  simp only [gridWindow, addUp, tickOverscan, ticksPerBar]
  omega

theorem le_tickEnd (hzoom : minZoomX ≤ view.zoomX) {note : MidiNote}
    (h : sidebarWidth + note.startTick * view.zoomX ≤ -view.offsetX + area.width) :
    note.startTick ≤ (gridWindow view area).tickEnd := by
  have hzoomPos : 0 < view.zoomX := lt_of_lt_of_le (by norm_num [minZoomX]) hzoom
  have hceil : (note.startTick : ℤ) ≤
      ⌈(max (-view.offsetX) 0 + area.width - sidebarWidth) / view.zoomX⌉ := by
    refine le_ceil_div hzoomPos ?_
    have := le_max_left (-view.offsetX) 0
    push_cast
    linarith
  simp only [gridWindow, tickOverscan, ticksPerBar]
  omega

theorem noteVisibleIn_gridWindow (hzoom : minZoomX ≤ view.zoomX) (hkey : 1 < view.keyHeight)
    {note : MidiNote} {rect : Rect} (hrect : noteRect view note = some rect)
    (hshows : rect.Shows view area) : noteVisibleIn note (gridWindow view area) = true := by
  unfold noteRect at hrect
  split at hrect
  next hpitch =>
    obtain rfl := Option.some.inj hrect
    obtain ⟨⟨hright, hleft⟩, hbottom, htop⟩ := hshows
    have hfirst : (gridWindow view area).rowStart ≤ midiKeyCount - 1 - note.pitch := rowStart_le hkey htop
    have hlast := lt_rowEnd hkey (Nat.sub_le _ _) hbottom
    have hrow : ((midiKeyCount : ℤ) - 1 - note.pitch) = ((midiKeyCount - 1 - note.pitch : ℕ) : ℤ) := by
      unfold midiKeyCount at *
      omega
    unfold noteVisibleIn
    have hrange : ¬ ((((midiKeyCount - 1 - note.pitch : ℕ) : ℤ) < (gridWindow view area).rowStart) ∨
        ((midiKeyCount - 1 - note.pitch : ℕ) : ℤ) ≥ (gridWindow view area).rowEnd) := by
      omega
    rw [hrow, if_neg hrange]
    simpa using ⟨tickStart_le hzoom hleft, le_tickEnd hzoom hright⟩
  next => cases hrect

/-- A note whose rectangle meets the area is accepted for the window that is computed, exactly when the
last row and the last tick of the window are in range. -/
theorem visible_iff (hzoom : view.zoomX ∈ Set.Icc minZoomX maxZoomX) (hkey : 1 < view.keyHeight)
    (hwidth : minViewportW ≤ area.width) (hheight : minViewportH ≤ area.height) (note : MidiNote)
    (rect : Rect) (hrect : noteRect view note = some rect) (hshows : rect.Shows view area) :
    (∃ vp, computeGridViewport view area = some vp ∧ noteVisibleIn note vp = true) ↔
      WindowFits view area := by
  rw [computeGridViewport_eq hzoom.1 hkey hwidth hheight]
  constructor
  · rintro ⟨vp, hvp, -⟩
    by_contra hfits
    rw [if_neg hfits] at hvp
    cases hvp
  · intro hfits
    exact ⟨_, if_pos hfits, noteVisibleIn_gridWindow hzoom.1 hkey hrect hshows⟩

end

/-- A note of no length at the first bar, in an area that shows the middle of the keys. -/
theorem visible_iff_first_bar :
    ∃ vp, computeGridViewport ⟨3 / 50, 16, 0, -1000⟩ ⟨480, 180⟩ = some vp ∧
      noteVisibleIn ⟨60, 0, 0, 100⟩ vp = true := by
  refine (visible_iff ?_ ?_ ?_ ?_ ⟨60, 0, 0, 100⟩ _ rfl ?_).2 (by decide +kernel)
  · norm_num [minZoomX, maxZoomX]
  · norm_num
  · norm_num [minViewportW]
  · norm_num [minViewportH]
  · norm_num [Rect.Shows, sidebarWidth, midiKeyCount, rulerHeight]

/-- Scrolled to a note at the tick `2 ^ 63`, the area shows the note, but its last tick with the bar
behind it is past the largest integer. -/
theorem note_past_range_not_visible :
    ∃ rect, noteRect ⟨1 / 2, 16, -(2 ^ 62), 0⟩ ⟨120, 2 ^ 63, 240, 100⟩ = some rect ∧
      rect.Shows ⟨1 / 2, 16, -(2 ^ 62), 0⟩ ⟨480, 180⟩ ∧
        computeGridViewport ⟨1 / 2, 16, -(2 ^ 62), 0⟩ ⟨480, 180⟩ = none := by
  refine ⟨_, rfl, by norm_num [Rect.Shows, sidebarWidth, midiKeyCount, rulerHeight], ?_⟩
  rw [computeGridViewport_eq (by norm_num [minZoomX]) (by norm_num) (by norm_num [minViewportW])
    (by norm_num [minViewportH]), if_neg (by decide +kernel)]

end HikaruOpenLive.Gui.PianoRoll
