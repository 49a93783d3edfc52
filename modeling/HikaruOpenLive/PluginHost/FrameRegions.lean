import HikaruOpenLive.Foundations.Saturating
import Mathlib.Tactic.Common

/-! # The regions of a plugin window's frame

The wrapper's window draws its own frame, and `hitTest` says what of it lies under the pointer.
Coordinates are those of the window; while a button is held the pointer may be outside, above it or to
its left, where they are negative. `hitTest` counts in words of 32 bits and returns nothing where a sum
of them overflows. The sums of two metrics have room in such a word.
-/
set_option autoImplicit false

namespace HikaruOpenLive.PluginHost

open Foundations.Saturating

/-- The measures of the frame, in pixels. -/
structure FrameMetrics where
  titlebarHeight : ℕ
  border : ℕ
  resizeGrip : ℕ
  closeButton : ℕ
  titlePadding : ℕ
  titlebarHeight_lt : titlebarHeight < 2 ^ 16 := by decide
  border_lt : border < 2 ^ 16 := by decide
  resizeGrip_lt : resizeGrip < 2 ^ 16 := by decide
  closeButton_lt : closeButton < 2 ^ 16 := by decide
  titlePadding_lt : titlePadding < 2 ^ 16 := by decide
  deriving DecidableEq

@[ext]
structure FrameSize where
  width : ℕ
  height : ℕ
  width_lt : width < 2 ^ 16 := by decide
  height_lt : height < 2 ^ 16 := by decide
  deriving DecidableEq

structure PointerPos where
  x : ℤ
  y : ℤ
  x_mem : -2 ^ 15 ≤ x ∧ x < 2 ^ 15 := by decide
  y_mem : -2 ^ 15 ≤ y ∧ y < 2 ^ 15 := by decide
  deriving DecidableEq

inductive ResizeDir where
  | top
  | bottom
  | left
  | right
  | topLeft
  | topRight
  | bottomLeft
  | bottomRight
  deriving DecidableEq, Repr

inductive FrameRegion where
  | inner
  | titleBar
  | closeButton
  | resize (dir : ResizeDir)
  deriving DecidableEq, Repr

/-- The place of the editor in the window. -/
structure InnerRect where
  x : ℤ
  y : ℤ
  width : ℕ
  height : ℕ
  deriving DecidableEq, Repr

/-- `as u32` of an `i16`. -/
def asU32 (x : ℤ) : ℕ :=
  (x % 2 ^ 32).toNat

/-- `as i16` of a `u16`. -/
def asI16 (x : ℕ) : ℤ :=
  if x < 2 ^ 15 then x else x - 2 ^ 16

def addU32 (a b : ℕ) : Option ℕ :=
  if a + b < 2 ^ 32 then some (a + b) else none

/-- `saturating_add` of `i16`s. -/
def addI16 (a b : ℤ) : ℤ :=
  within (-2 ^ 15) (2 ^ 15 - 1) (a + b)

def InnerRect.contains (r : InnerRect) (x y : ℤ) : Bool :=
  r.x ≤ x && r.y ≤ y && x < addI16 r.x (asI16 r.width) && y < addI16 r.y (asI16 r.height)

namespace FrameMetrics

def default : FrameMetrics :=
  { titlebarHeight := 30, border := 3, resizeGrip := 16, closeButton := 16, titlePadding := 8 }

/-- For plugins that bring a title bar of their own. -/
def frameless : FrameMetrics :=
  { titlebarHeight := 0, border := 0, resizeGrip := 0, closeButton := 0, titlePadding := 0 }

def minSize (m : FrameMetrics) : ℕ × ℕ :=
  (addUp 16 (addUp 16 m.border m.border) 160,
    addUp 16 (addUp 16 m.titlebarHeight (addUp 16 m.border m.border)) 120)

def innerRect (m : FrameMetrics) (size : FrameSize) : InnerRect :=
  let left : ℤ := m.border
  let top : ℤ := m.titlebarHeight
  let right : ℤ := size.width - m.border
  let bottom : ℤ := size.height - m.border
  { x := within 0 (2 ^ 15 - 1) left
    y := within 0 (2 ^ 15 - 1) top
    width := (within 0 (2 ^ 16 - 1) (right - left)).toNat
    height := (within 0 (2 ^ 16 - 1) (bottom - top)).toNat }

/-! ## `hit_test` -/

/-- The first question: the close button lies in the title bar. -/
def overCloseButton (m : FrameMetrics) (x y w : ℕ) : Option Bool :=
  if 0 < m.closeButton ∧ 0 < m.titlebarHeight then
    (addU32 x m.closeButton).map fun right =>
      y < m.titlebarHeight && w ≤ right && w - (m.closeButton + m.titlePadding) ≤ x
  else some false

/-- How far the edges reach into the window. -/
def grab (m : FrameMetrics) : ℕ :=
  max (m.border * 2) 6

/-- The last question. There is no edge at the top, which is the title bar's. -/
def edgeRegion (m : FrameMetrics) (x y w h : ℕ) : Option FrameRegion :=
  (addU32 x m.grab).bind fun right =>
    (addU32 y m.grab).map fun bottom =>
      match decide (h ≤ bottom), decide (x < m.grab), decide (w ≤ right) with
      | true, true, false => .resize .bottomLeft
      | true, false, true => .resize .bottomRight
      | true, _, _ => .resize .bottom
      | false, true, false => .resize .left
      | false, false, true => .resize .right
      | _, _, _ => .inner

def hitTest (m : FrameMetrics) (p : PointerPos) (size : FrameSize) : Option FrameRegion :=
  let x := asU32 p.x
  let y := asU32 p.y
  let w := size.width
  let h := size.height
  if w = 0 ∨ h = 0 then some .inner
  else
    (m.overCloseButton x y w).bind fun button =>
      if button then some .closeButton
      else if 0 < m.titlebarHeight ∧ y < m.titlebarHeight then some .titleBar
      else if 0 < m.resizeGrip ∧ w - m.resizeGrip ≤ x ∧ h - m.resizeGrip ≤ y then
        some (.resize .bottomRight)
      else m.edgeRegion x y w h

/-! ## What is asked of it -/

def Inside (p : PointerPos) (size : FrameSize) : Prop :=
  (0 ≤ p.x ∧ p.x < size.width) ∧ 0 ≤ p.y ∧ p.y < size.height

def OnLeft (m : FrameMetrics) (p : PointerPos) : Prop :=
  p.x < m.grab

def OnRight (m : FrameMetrics) (p : PointerPos) (size : FrameSize) : Prop :=
  (size.width : ℤ) ≤ p.x + m.grab

def OnBottom (m : FrameMetrics) (p : PointerPos) (size : FrameSize) : Prop :=
  (size.height : ℤ) ≤ p.y + m.grab

def OnGrip (m : FrameMetrics) (p : PointerPos) (size : FrameSize) : Prop :=
  0 < m.resizeGrip ∧ (size.width : ℤ) - m.resizeGrip ≤ p.x ∧ (size.height : ℤ) - m.resizeGrip ≤ p.y

/-- Nothing overflows; what is said to be the editor's is, and what is the editor's and no zone of the
frame's is said to be; without a frame the whole window is the editor's. -/
structure RegionLaws (m : FrameMetrics) (p : PointerPos) (size : FrameSize) : Prop where
  defined : (m.hitTest p size).isSome = true
  inner_mem : Inside p size → m.hitTest p size = some .inner →
    (m.innerRect size).contains p.x p.y = true
  mem_inner : Inside p size → (m.innerRect size).contains p.x p.y = true →
    ¬ (m.OnLeft p ∨ m.OnRight p size ∨ m.OnBottom p size ∨ m.OnGrip p size) →
      m.hitTest p size = some .inner
  frameless : m = .frameless → Inside p size → m.hitTest p size = some .inner

/-- Neither the button nor an edge is asked about a pointer that lies left of the window, or above it, by no
more than their own size. The edges are not asked about the title bar and the grip; there a pointer left
of the window or above it counts as one beyond its other side. -/
structure FarOutside (m : FrameMetrics) (p : PointerPos) (size : FrameSize) : Prop where
  button : 0 < m.closeButton → 0 < m.titlebarHeight → p.x < 0 → p.x + m.closeButton < 0
  edges : ¬ (0 ≤ p.y ∧ p.y < m.titlebarHeight) →
    ¬ (0 < m.resizeGrip ∧ (p.x < 0 ∨ (size.width : ℤ) - m.resizeGrip ≤ p.x) ∧
      (p.y < 0 ∨ (size.height : ℤ) - m.resizeGrip ≤ p.y)) →
    (p.x < 0 → p.x + m.grab < 0) ∧ (p.y < 0 → p.y + m.grab < 0)

/-- Below the title bar, and on no zone of the frame, or on both sides at once. -/
def Between (m : FrameMetrics) (p : PointerPos) (size : FrameSize) : Prop :=
  (m.titlebarHeight : ℤ) ≤ p.y ∧ ¬ m.OnGrip p size ∧ ¬ m.OnBottom p size ∧
    (m.OnLeft p ↔ m.OnRight p size)

/-- Between the two borders, of an editor whose sides an `i16` can hold. -/
def FitsI16 (m : FrameMetrics) (p : PointerPos) (size : FrameSize) : Prop :=
  ((m.border : ℤ) ≤ p.x ∧ p.x + m.border < size.width ∧ p.x < 2 ^ 15 - 1 ∧ p.y < 2 ^ 15 - 1) ∧
    size.width < 2 ^ 15 + 2 * m.border ∧ size.height < 2 ^ 15 + m.border + m.titlebarHeight

variable {m : FrameMetrics} {p : PointerPos} {size : FrameSize}

/-! ## Overflows -/

theorem asU32_of_nonneg {x : ℤ} (h : 0 ≤ x) (hlt : x < 2 ^ 15) : (asU32 x : ℤ) = x := by
  unfold asU32
  omega

theorem asU32_of_neg {x : ℤ} (h : x < 0) (hlo : -2 ^ 15 ≤ x) : (asU32 x : ℤ) = x + 2 ^ 32 := by
  unfold asU32
  omega

theorem addU32_eq {a b : ℕ} (h : a + b < 2 ^ 32) : addU32 a b = some (a + b) :=
  if_pos h

theorem isSome_addU32 {a b : ℕ} : (addU32 a b).isSome = true ↔ a + b < 2 ^ 32 := by
  unfold addU32
  split
  case isTrue h => exact ⟨fun _ => h, fun _ => rfl⟩
  case isFalse h => exact ⟨fun hfalse => Bool.noConfusion hfalse, fun hlt => absurd hlt h⟩

theorem grab_lt (m : FrameMetrics) : 6 ≤ m.grab ∧ m.grab < 2 ^ 17 := by
  have hborder := m.border_lt
  unfold grab
  omega

/-- A sum with a coordinate overflows just left of the window, or just above it. -/
theorem asU32_add_lt {x : ℤ} {b : ℕ} (hx : -2 ^ 15 ≤ x ∧ x < 2 ^ 15) (hb : b < 2 ^ 17) :
    asU32 x + b < 2 ^ 32 ↔ (x < 0 → x + b < 0) := by
  rcases lt_or_ge x 0 with hneg | hpos
  · have hval := asU32_of_neg hneg hx.1
    omega
  · have hval := asU32_of_nonneg hpos hx.2
    omega

theorem isSome_edgeRegion :
    (m.edgeRegion (asU32 p.x) (asU32 p.y) size.width size.height).isSome = true ↔
      (p.x < 0 → p.x + m.grab < 0) ∧ (p.y < 0 → p.y + m.grab < 0) := by
  have hgrab := (grab_lt m).2
  rw [← asU32_add_lt p.x_mem hgrab, ← asU32_add_lt p.y_mem hgrab, ← isSome_addU32, ← isSome_addU32,
    edgeRegion]
  cases addU32 (asU32 p.x) m.grab with
  | none => exact ⟨fun h => Bool.noConfusion h, fun h => Bool.noConfusion h.1⟩
  | some right =>
    rw [Option.bind_some, Option.isSome_map]
    exact ⟨fun h => ⟨rfl, h⟩, fun h => h.2⟩

/-- What the four questions come to, once the first has an answer. -/
theorem hitTest_eq (hw : 0 < size.width) (hh : 0 < size.height) {button : Bool}
    (h : m.overCloseButton (asU32 p.x) (asU32 p.y) size.width = some button) :
    m.hitTest p size =
      if button then some .closeButton
      else if asU32 p.y < m.titlebarHeight then some .titleBar
      else if 0 < m.resizeGrip ∧ size.width - m.resizeGrip ≤ asU32 p.x ∧
          size.height - m.resizeGrip ≤ asU32 p.y then
        some (.resize .bottomRight)
      else m.edgeRegion (asU32 p.x) (asU32 p.y) size.width size.height := by
  have htitle : (0 < m.titlebarHeight ∧ asU32 p.y < m.titlebarHeight) ↔
      asU32 p.y < m.titlebarHeight := by omega
  unfold hitTest
  simp only [h, Option.bind_some, htitle]
  rw [if_neg (by omega)]

theorem overCloseButton_eq_none :
    m.overCloseButton (asU32 p.x) (asU32 p.y) size.width = none ↔
      ¬ (0 < m.closeButton → 0 < m.titlebarHeight → p.x < 0 → p.x + m.closeButton < 0) := by
  have hbutton := m.closeButton_lt
  have hlt := asU32_add_lt p.x_mem (b := m.closeButton) (by omega)
  unfold overCloseButton
  split
  case isTrue hactive =>
    rw [Option.map_eq_none_iff, ← Option.not_isSome_iff_eq_none, isSome_addU32, hlt]
    exact not_congr ⟨fun h _ _ => h, fun h => h hactive.1 hactive.2⟩
  case isFalse hactive =>
    refine ⟨fun h => ?_, fun h => absurd (fun h₁ h₂ => absurd ⟨h₁, h₂⟩ hactive) h⟩
    cases h

/-- A press on the button is one in the title bar. -/
theorem lt_of_overCloseButton {x y w : ℕ} (h : m.overCloseButton x y w = some true) :
    y < m.titlebarHeight := by
  unfold overCloseButton at h
  split at h
  case isTrue =>
    obtain ⟨right, _, hbutton⟩ := Option.map_eq_some_iff.mp h
    rw [Bool.and_eq_true, Bool.and_eq_true] at hbutton
    exact of_decide_eq_true hbutton.1.1
  case isFalse => exact Bool.noConfusion (Option.some.inj h)

theorem asU32_lt_iff {x : ℤ} {n : ℕ} (hx : -2 ^ 15 ≤ x ∧ x < 2 ^ 15) (hn : n < 2 ^ 16) :
    asU32 x < n ↔ 0 ≤ x ∧ x < n := by
  rcases lt_or_ge x 0 with hneg | hpos
  · have hval := asU32_of_neg hneg hx.1
    omega
  · have hval := asU32_of_nonneg hpos hx.2
    omega

theorem sub_le_asU32_iff {x : ℤ} {n g : ℕ} (hx : -2 ^ 15 ≤ x ∧ x < 2 ^ 15) (hn : n < 2 ^ 16) :
    n - g ≤ asU32 x ↔ x < 0 ∨ (n : ℤ) - g ≤ x := by
  rcases lt_or_ge x 0 with hneg | hpos
  · have hval := asU32_of_neg hneg hx.1
    omega
  · have hval := asU32_of_nonneg hpos hx.2
    omega

/-- Which question gives the answer: none of them if the first one overflows, one about the title bar or the
grip, or the one about the edges. -/
theorem hitTest_cases (hw : 0 < size.width) (hh : 0 < size.height) :
    ¬ (0 < m.closeButton → 0 < m.titlebarHeight → p.x < 0 → p.x + m.closeButton < 0) ∧
        m.hitTest p size = none ∨
      (0 < m.closeButton → 0 < m.titlebarHeight → p.x < 0 → p.x + m.closeButton < 0) ∧
        (((0 ≤ p.y ∧ p.y < m.titlebarHeight) ∨
            (0 < m.resizeGrip ∧ (p.x < 0 ∨ (size.width : ℤ) - m.resizeGrip ≤ p.x) ∧
              (p.y < 0 ∨ (size.height : ℤ) - m.resizeGrip ≤ p.y))) ∧
            (∃ region, region ≠ .inner ∧ m.hitTest p size = some region) ∨
          (¬ (0 ≤ p.y ∧ p.y < m.titlebarHeight) ∧
            ¬ (0 < m.resizeGrip ∧ (p.x < 0 ∨ (size.width : ℤ) - m.resizeGrip ≤ p.x) ∧
              (p.y < 0 ∨ (size.height : ℤ) - m.resizeGrip ≤ p.y))) ∧
            m.hitTest p size = m.edgeRegion (asU32 p.x) (asU32 p.y) size.width size.height) := by
  rw [← asU32_lt_iff p.y_mem m.titlebarHeight_lt, ← sub_le_asU32_iff p.x_mem size.width_lt,
    ← sub_le_asU32_iff p.y_mem size.height_lt]
  cases hbutton : m.overCloseButton (asU32 p.x) (asU32 p.y) size.width with
  | none =>
    refine Or.inl ⟨overCloseButton_eq_none.mp hbutton, ?_⟩
    unfold hitTest
    rw [if_neg (by omega), hbutton, Option.bind_none]
  | some button =>
    refine Or.inr ⟨?_, ?_⟩
    · by_contra hover
      rw [overCloseButton_eq_none.mpr hover] at hbutton
      cases hbutton
    · rw [hitTest_eq hw hh hbutton]
      split
      case isTrue hyes =>
        rw [hyes] at hbutton
        exact Or.inl ⟨Or.inl (lt_of_overCloseButton hbutton), _, by decide, rfl⟩
      case isFalse =>
        split
        case isTrue hover => exact Or.inl ⟨Or.inl hover, _, by decide, rfl⟩
        case isFalse hbelow =>
          split
          case isTrue hgrip => exact Or.inl ⟨Or.inr hgrip, _, by decide, rfl⟩
          case isFalse hoff => exact Or.inr ⟨⟨hbelow, hoff⟩, rfl⟩

theorem isSome_hitTest (hw : 0 < size.width) (hh : 0 < size.height) :
    (m.hitTest p size).isSome = true ↔ m.FarOutside p size := by
  rcases hitTest_cases (m := m) (p := p) hw hh with ⟨hover, hnone⟩ | ⟨hclear, hearly | hlast⟩
  · rw [hnone]
    exact ⟨fun h => Bool.noConfusion h, fun h => absurd h.button hover⟩
  · obtain ⟨hzone, region, _, hregion⟩ := hearly
    rw [hregion]
    -- The edges are not asked.
    exact ⟨fun _ => ⟨hclear, fun hbelow hoff => absurd hzone (not_or.mpr ⟨hbelow, hoff⟩)⟩, fun _ => rfl⟩
  · obtain ⟨⟨hbelow, hoff⟩, hedges⟩ := hlast
    rw [hedges, isSome_edgeRegion]
    exact ⟨fun h => ⟨hclear, fun _ _ => h⟩, fun h => h.edges hbelow hoff⟩

/-! ## Inside the window -/

theorem edgeRegion_inside (h : Inside p size) :
    m.edgeRegion (asU32 p.x) (asU32 p.y) size.width size.height = some .inner ↔
      ¬ m.OnBottom p size ∧ (m.OnLeft p ↔ m.OnRight p size) := by
  have hx := asU32_of_nonneg h.1.1 p.x_mem.2
  have hy := asU32_of_nonneg h.2.1 p.y_mem.2
  have hgrab := (grab_lt m).2
  have hxlt := p.x_mem.2
  have hylt := p.y_mem.2
  have hbottom : size.height ≤ asU32 p.y + m.grab ↔ m.OnBottom p size := by
    unfold OnBottom
    omega
  have hleft : asU32 p.x < m.grab ↔ m.OnLeft p := by
    unfold OnLeft
    omega
  have hright : size.width ≤ asU32 p.x + m.grab ↔ m.OnRight p size := by
    unfold OnRight
    omega
  rw [edgeRegion, addU32_eq (by omega), addU32_eq (by omega), Option.bind_some, Option.map_some,
    ← hbottom, ← hleft, ← hright]
  by_cases hb : size.height ≤ asU32 p.y + m.grab <;> by_cases hl : asU32 p.x < m.grab <;>
    by_cases hr : size.width ≤ asU32 p.x + m.grab <;> simp [hb, hl, hr]

theorem hitTest_inner_iff (h : Inside p size) :
    m.hitTest p size = some .inner ↔ m.Between p size := by
  obtain ⟨⟨hx, hxw⟩, hy, hyh⟩ := h
  have hw : 0 < size.width := by omega
  have hh : 0 < size.height := by omega
  rcases hitTest_cases (m := m) (p := p) hw hh with ⟨hover, _⟩ | ⟨_, hearly | hlast⟩
  · exact absurd (fun _ _ hneg => absurd hx (by omega)) hover
  · obtain ⟨hzone, region, hne, hregion⟩ := hearly
    rw [hregion]
    refine ⟨fun heq => absurd (Option.some.inj heq) hne, fun hfree => ?_⟩
    obtain ⟨htitle, hgrip, _⟩ := hfree
    unfold OnGrip at hgrip
    omega
  · obtain ⟨⟨hbelow, hoff⟩, hedges⟩ := hlast
    rw [hedges, edgeRegion_inside ⟨⟨hx, hxw⟩, hy, hyh⟩]
    refine ⟨fun hfree => ⟨by omega, ?_, hfree⟩, fun hfree => hfree.2.2⟩
    unfold OnGrip
    omega

/-- One direction of `contains`: the inset `lo` before the editor and `hi` behind it, in a window of
`side`. A side that an `i16` cannot hold turns negative, and the far end stops at its last value. -/
theorem mem_side_iff {c : ℤ} (lo hi : ℕ) {side : ℕ} (hc : 0 ≤ c ∧ c < 2 ^ 15) (hlo : lo < 2 ^ 16)
    (hside : side < 2 ^ 16) :
    within 0 (2 ^ 15 - 1) lo ≤ c ∧
      c < addI16 (within 0 (2 ^ 15 - 1) lo)
        (asI16 (within 0 (2 ^ 16 - 1) ((side : ℤ) - hi - lo)).toNat) ↔
      ((lo : ℤ) ≤ c ∧ c + hi < side ∧ c < 2 ^ 15 - 1) ∧ side < 2 ^ 15 + hi + lo := by
  unfold addI16 asI16 within
  split <;> omega

theorem contains_iff (hx : 0 ≤ p.x) (hy : 0 ≤ p.y) :
    (m.innerRect size).contains p.x p.y = true ↔
      (m.titlebarHeight : ℤ) ≤ p.y ∧ p.y + m.border < size.height ∧ m.FitsI16 p size := by
  have hsideX := mem_side_iff m.border m.border ⟨hx, p.x_mem.2⟩ m.border_lt size.width_lt
  have hsideY := mem_side_iff m.titlebarHeight m.border ⟨hy, p.y_mem.2⟩ m.titlebarHeight_lt
    size.height_lt
  have hcontains : (m.innerRect size).contains p.x p.y = true ↔
      (within 0 (2 ^ 15 - 1) m.border ≤ p.x ∧
        p.x < addI16 (within 0 (2 ^ 15 - 1) m.border)
          (asI16 (within 0 (2 ^ 16 - 1) ((size.width : ℤ) - m.border - m.border)).toNat)) ∧
      within 0 (2 ^ 15 - 1) m.titlebarHeight ≤ p.y ∧
        p.y < addI16 (within 0 (2 ^ 15 - 1) m.titlebarHeight)
          (asI16 (within 0 (2 ^ 16 - 1) ((size.height : ℤ) - m.border - m.titlebarHeight)).toNat) := by
    rw [InnerRect.contains, Bool.and_eq_true, Bool.and_eq_true, Bool.and_eq_true, decide_eq_true_iff,
      decide_eq_true_iff, decide_eq_true_iff, decide_eq_true_iff]
    exact ⟨fun h => ⟨⟨h.1.1.1, h.1.2⟩, h.1.1.2, h.2⟩, fun h => ⟨⟨⟨h.1.1, h.2.1⟩, h.1.2⟩, h.2.2⟩⟩
  rw [hcontains, hsideX, hsideY, FitsI16]
  omega

/-! ## The laws -/

/-- On the frame's own side of a border nothing is the editor's. -/
theorem between_of_contains (h : Inside p size) (hmem : (m.innerRect size).contains p.x p.y = true)
    (hzone : ¬ (m.OnLeft p ∨ m.OnRight p size ∨ m.OnBottom p size ∨ m.OnGrip p size)) :
    m.Between p size := by
  rw [not_or, not_or, not_or] at hzone
  obtain ⟨hleft, hright, hbottom, hgrip⟩ := hzone
  exact ⟨((contains_iff h.1.1 h.2.1).mp hmem).1, hgrip, hbottom, iff_of_false hleft hright⟩

theorem contains_of_between (h : Inside p size) (hfree : m.Between p size) :
    (m.innerRect size).contains p.x p.y = true ↔ m.FitsI16 p size := by
  have hgrab : m.border * 2 ≤ m.grab := le_max_left _ _
  have hbottom : ¬ m.OnBottom p size := hfree.2.2.1
  unfold OnBottom at hbottom
  rw [contains_iff h.1.1 h.2.1]
  exact ⟨fun hmem => hmem.2.2, fun hfits => ⟨hfree.1, by omega, hfits⟩⟩

theorem le_minSize (m : FrameMetrics) : 160 ≤ m.minSize.1 ∧ 120 ≤ m.minSize.2 := by
  simp only [minSize, addUp]
  omega

theorem between_frameless (hw : 160 ≤ size.width) (h : Inside p size) :
    frameless.Between p size ↔ 6 ≤ p.x ∧ p.x + 6 < size.width ∧ p.y + 6 < size.height := by
  have hgrab : frameless.grab = 6 := rfl
  have hgrip : frameless.resizeGrip = 0 := rfl
  have htitle : frameless.titlebarHeight = 0 := rfl
  have hy := h.2.1
  simp only [Between, OnGrip, OnBottom, OnLeft, OnRight, hgrab, hgrip, htitle]
  omega

/-- The laws hold of a pointer precisely if it is not too close to a window it is outside of, if an editor
it is sent to can count that far, and if it is off the three edges that are there without a frame, too. -/
theorem regionLaws_iff (hw : m.minSize.1 ≤ size.width) (hh : m.minSize.2 ≤ size.height) :
    m.RegionLaws p size ↔
      m.FarOutside p size ∧ (Inside p size → m.Between p size → m.FitsI16 p size) ∧
        (m = .frameless → Inside p size →
          6 ≤ p.x ∧ p.x + 6 < size.width ∧ p.y + 6 < size.height) := by
  obtain ⟨hminW, hminH⟩ := le_minSize m
  have hdefined : (m.hitTest p size).isSome = true ↔ m.FarOutside p size :=
    isSome_hitTest (by omega) (by omega)
  constructor
  · intro h
    refine ⟨hdefined.mp h.defined, ?_, ?_⟩
    · intro hin hfree
      exact (contains_of_between hin hfree).mp (h.inner_mem hin ((hitTest_inner_iff hin).mpr hfree))
    · rintro rfl hin
      exact (between_frameless (by omega) hin).mp ((hitTest_inner_iff hin).mp (h.frameless rfl hin))
  · rintro ⟨hfar, hfits, hedges⟩
    refine ⟨hdefined.mpr hfar, ?_, ?_, ?_⟩
    · intro hin hinner
      have hfree := (hitTest_inner_iff hin).mp hinner
      exact (contains_of_between hin hfree).mpr (hfits hin hfree)
    · intro hin hmem hzone
      exact (hitTest_inner_iff hin).mpr (between_of_contains hin hmem hzone)
    · rintro rfl hin
      exact (hitTest_inner_iff hin).mpr ((between_frameless (by omega) hin).mpr (hedges rfl hin))

/-- The middle of a window of 900 by 600 with the usual frame. -/
theorem regionLaws_iff_middle :
    default.RegionLaws { x := 450, y := 300 } { width := 900, height := 600 } ↔
      default.FarOutside { x := 450, y := 300 } { width := 900, height := 600 } ∧
        (Inside { x := 450, y := 300 } { width := 900, height := 600 } →
          default.Between { x := 450, y := 300 } { width := 900, height := 600 } →
            default.FitsI16 { x := 450, y := 300 } { width := 900, height := 600 }) ∧
        (default = .frameless → Inside { x := 450, y := 300 } { width := 900, height := 600 } →
          (6 : ℤ) ≤ 450 ∧ (450 : ℤ) + 6 < 900 ∧ (300 : ℤ) + 6 < 600) :=
  regionLaws_iff (by decide) (by decide)

/-- A border so wide that both sides reach into it from the other one. -/
def wide : FrameMetrics :=
  { titlebarHeight := 30, border := 200, resizeGrip := 16, closeButton := 16, titlePadding := 8 }

/-- One pixel left of a window with the usual frame, the sum with the close button overflows; the left
border of a wide frame answers for the editor; and in a window without a frame the editor loses its first
pixel to an edge. -/
theorem pointer_left_overflows :
    ¬ default.RegionLaws { x := -1, y := 300 } { width := 900, height := 600 } ∧
      ¬ wide.RegionLaws { x := 180, y := 100 } { width := 560, height := 550 } ∧
        ¬ frameless.RegionLaws { x := 0, y := 300 } { width := 900, height := 600 } := by
  refine ⟨?_, ?_, ?_⟩
  · intro h
    exact absurd h.defined (by decide)
  · intro h
    have hin : Inside { x := 180, y := 100 } { width := 560, height := 550 } := by
      unfold Inside
      decide
    exact absurd (h.inner_mem hin (by decide)) (by decide)
  · intro h
    have hin : Inside { x := 0, y := 300 } { width := 900, height := 600 } := by
      unfold Inside
      decide
    exact absurd (h.frameless rfl hin) (by decide)

end FrameMetrics

end HikaruOpenLive.PluginHost
