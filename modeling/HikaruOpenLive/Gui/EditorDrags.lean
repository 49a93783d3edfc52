import HikaruOpenLive.Foundations.Gestures
import HikaruOpenLive.Gui.EditorRuns

/-! # Drags in the wavetable editor

A drag comes out as its last point: what is held shows where it was grabbed and how far the pointer is from
there, kept within its range, however the pointer went and whatever paints and buttons came between. So it
never drifts, and a drag back to where it began shows what it showed then.
-/
set_option autoImplicit false

namespace HikaruOpenLive.Gui

open Foundations.Gestures
open Render (clamp RenderSettings)

variable {K : Type} [Field K] [LinearOrder K]

/-! ## What is held -/

inductive Grip where
  | knob (target : KnobTarget)
  | slider (param : SettingParam)
  | panel

namespace Grip

def press (grip : Grip) (x y : Option K) : EditorEvent K :=
  match grip with
  | .knob target => .pressKnob target y
  | .slider param => .pressSetting param x
  | .panel => .pressPanel x y

/-- The events that leave what was held in `s` to the pointer. Every frame paints, and the panel, which the
viewer bounds, is left where the size painted is the one recorded. -/
def leaves (grip : Grip) (s : WavetableEditor K) (e : EditorEvent K) : Bool :=
  match grip, e with
  | _, .pointerMoved .. => true
  | _, .cycleVoices => true
  | _, .stepPitch _ => true
  | _, .stepOctave _ => true
  | .panel, .painted width height => decide ((s.recordViewportSize width height).viewportSize = s.viewportSize)
  | _, .painted .. => true
  | .knob _, _ => false
  | _, .stepUnison _ => true
  | _, .stepFrame _ => true
  | _, _ => false

/-- Where a move has the pointer, with its Shift; a drag passes over a move with no number for it. -/
def point (grip : Grip) (e : EditorEvent K) : Option (K × K × Bool) :=
  match grip, e with
  | .knob _, .pointerMoved x (some y) shift => some (x.getD 0, y, shift)
  | .slider _, .pointerMoved (some x) y shift => some (x, y.getD 0, shift)
  | .panel, .pointerMoved (some x) (some y) shift => some (x, y, shift)
  | _, _ => none

/-- What the held thing shows, to the side and upwards or down. -/
def shown (grip : Grip) (s : WavetableEditor K) : Option K × Option K :=
  match grip with
  | .knob target => (none, some (s.knob target))
  | .slider param => (param.get s.renderSettings, none)
  | .panel => (some s.panelPosition.1, some s.panelPosition.2)

end Grip

namespace WavetableEditor

variable [FloorRing K]

/-- What a knob shows when it is turned to a value. -/
def turned (s : WavetableEditor K) (target : KnobTarget) (value : K) : K :=
  match target with
  | .position => if s.table.selectableFrames ≤ 1 then 0 else clamp 0 1 value
  | .unison => Render.round (clamp 0 1 value * 15.0) / 15.0
  | .detune => clamp 0 1 value
  | .phase => clamp 0 1 value

/-- What the held thing shows with the pointer at a point, when it was grabbed with the pointer at `x`, `y`. -/
def follows (s : WavetableEditor K) (grip : Grip) (x y : Option K) (p : K × K × Bool) : Option K × Option K :=
  match grip with
  | .knob target =>
    (none, some (s.turned target (s.knob target + (y.getD 0 - p.2.1) / dragRangePx * valueGain p.2.2)))
  | .slider param =>
    ((param.get s.renderSettings).map fun grab => clamp param.range.1 param.range.2
      (grab + (p.1 - x.getD 0) / settingDragPx * (param.range.2 - param.range.1) * valueGain p.2.2), none)
  | .panel =>
    let range := s.panelOffsetRange
    (some (panelDefaultRight - clamp range.1.1 range.1.2 (s.panelOffset.1 + (p.1 - x.getD 0))),
      some (panelDefaultTop + clamp range.2.1 range.2.2 (s.panelOffset.2 + (p.2.1 - y.getD 0))))

/-- A thing of the editor `s` is held, grabbed with the pointer at `x`, `y`. -/
def Held (s : WavetableEditor K) (grip : Grip) (x y : Option K) (t : WavetableEditor K) : Prop :=
  match grip with
  | .knob target =>
    t.settingDrag = none ∧ t.panelDrag = none ∧ t.dragging = true ∧ t.dragTarget = target ∧
      t.dragGrab = s.knob target ∧ t.dragOriginY = y.getD 0 ∧ t.table = s.table
  | .slider param =>
    t.panelDrag = none ∧
      t.settingDrag = some { param := param, grab := param.get s.renderSettings, originX := x.getD 0 } ∧
      (param.get s.renderSettings).isSome
  | .panel =>
    t.panelDrag = some { grab := s.panelOffset, origin := (x.getD 0, y.getD 0) } ∧ t.viewportSize = s.viewportSize

section Drags

variable [IsStrictOrderedRing K] {s t : WavetableEditor K}

omit [Field K] [FloorRing K] [IsStrictOrderedRing K] in
theorem clamp_clamp {low high : K} (h : low ≤ high) (x : K) : clamp low high (clamp low high x) = clamp low high x :=
  clamp_of_mem (clamp_bounds h x).1 (clamp_bounds h x).2

/-! ## Knobs -/

theorem activeCycle_setPosition (hframes : ¬ t.table.selectableFrames ≤ 1) (value : K) :
    (t.setPosition (some value)).activeCycle = clamp 0 1 value * ((t.table.selectableFrames - 1 : ℕ) : K) := by
  have hlast : (0 : K) < ((t.table.selectableFrames - 1 : ℕ) : K) := last_pos hframes
  obtain ⟨hnonneg, hle⟩ := clamp_bounds zero_le_one value
  have hcycle : clamp 0 ((t.table.selectableFrames - 1 : ℕ) : K)
      (clamp 0 1 value * ((t.table.selectableFrames - 1 : ℕ) : K)) =
        clamp 0 1 value * ((t.table.selectableFrames - 1 : ℕ) : K) :=
    clamp_of_mem (mul_nonneg hnonneg hlast.le) (mul_le_of_le_one_left hlast.le hle)
  unfold setPosition activeCycle
  dsimp only
  rw [if_neg hframes]
  dsimp only
  rw [if_neg hframes, hcycle, add_sub_cancel, mul_div_assoc, div_self hlast.ne', mul_one, clamp_clamp zero_le_one]

theorem position_setPosition (t : WavetableEditor K) (value : K) :
    (t.setPosition (some value)).position = t.turned .position value := by
  by_cases hframes : t.table.selectableFrames ≤ 1
  · have hset : t.setPosition (some value) = { t with frame := 0, morph := 0 } := if_pos hframes
    rw [hset]
    exact (if_pos hframes).trans (if_pos hframes).symm
  · have htable : (t.setPosition (some value)).table = t.table := by
      unfold setPosition
      dsimp only
      rw [if_neg hframes]
    have hlast : (0 : K) < ((t.table.selectableFrames - 1 : ℕ) : K) := last_pos hframes
    unfold position turned
    dsimp only
    rw [htable, if_neg hframes, if_neg hframes, activeCycle_setPosition hframes, mul_div_assoc, div_self hlast.ne',
      mul_one, clamp_clamp zero_le_one]

theorem normUnison_setUnison (t : WavetableEditor K) (value : K) :
    (t.setUnison (1 + ⌊Render.round (clamp 0 1 value * 15.0)⌋₊)).normUnison = t.turned .unison value := by
  obtain ⟨hnonneg, hle⟩ := clamp_bounds zero_le_one value
  have hround := Render.round_of_nonneg (mul_nonneg hnonneg (by norm_num : (0 : K) ≤ 15.0))
  have hlt : ⌊clamp 0 1 value * 15.0 + 1 / 2⌋₊ < 16 := by
    rw [Nat.floor_lt (by positivity)]
    norm_num
    linarith
  unfold normUnison setUnison turned
  dsimp only
  rw [hround, Nat.floor_natCast]
  generalize ⌊clamp 0 1 value * 15.0 + 1 / 2⌋₊ = voices at hlt
  have hmax : max 1 (min (max 1 (min (1 + voices) 16)) 16) = 1 + voices := by omega
  rw [hmax, Nat.cast_add, Nat.cast_one, add_sub_cancel_left]

/-- A knob turned to what it shows stays there. -/
theorem Ok.turned_knob (h : s.Ok) (target : KnobTarget) : s.turned target (s.knob target) = s.knob target := by
  cases target with
  | position =>
    unfold turned knob
    dsimp only
    by_cases hframes : s.table.selectableFrames ≤ 1
    · rw [if_pos hframes]
      exact (if_pos hframes).symm
    · rw [if_neg hframes]
      unfold position
      dsimp only
      rw [if_neg hframes, clamp_clamp zero_le_one]
  | unison =>
    have hvoices : 1 ≤ max 1 (min s.unison 16) ∧ max 1 (min s.unison 16) ≤ 16 := by omega
    unfold turned knob normUnison
    dsimp only
    generalize max 1 (min s.unison 16) = voices at hvoices
    obtain ⟨n, rfl⟩ := Nat.exists_eq_add_of_le hvoices.1
    have hn : (n : K) ≤ 15.0 := by
      have : n ≤ 15 := by omega
      calc (n : K) ≤ ((15 : ℕ) : K) := Nat.cast_le.mpr this
        _ = 15.0 := by norm_num
    have hnonneg : (0 : K) ≤ n := Nat.cast_nonneg n
    have hfifteen : (0 : K) < 15.0 := by norm_num
    have hfloor : ⌊(n : K) + 1 / 2⌋₊ = n := (Nat.floor_eq_iff (by linarith)).mpr ⟨by linarith, by linarith⟩
    rw [Nat.cast_add, Nat.cast_one, add_sub_cancel_left,
      clamp_of_mem (div_nonneg hnonneg hfifteen.le) ((div_le_one₀ hfifteen).mpr hn), div_mul_cancel₀ _ hfifteen.ne',
      Render.round_of_nonneg hnonneg, hfloor]
  | detune => exact clamp_of_mem h.detune_mem.1 h.detune_mem.2
  | phase => exact clamp_of_mem h.phase_mem.1 h.phase_mem.2

theorem knob_dragTo (hdragging : t.dragging = true) (y : K) (shift : Bool) :
    (t.dragTo (some y) shift).knob t.dragTarget =
      t.turned t.dragTarget (t.dragGrab + (t.dragOriginY - y) / dragRangePx * valueGain shift) := by
  unfold dragTo
  rw [hdragging]
  dsimp only
  cases htarget : t.dragTarget with
  | position => exact t.position_setPosition _
  | unison => exact t.normUnison_setUnison _
  | detune => rfl
  | phase => rfl

omit [IsStrictOrderedRing K] in
theorem Held.dragTo {target : KnobTarget} {x y : Option K} (h : s.Held (.knob target) x y t) (windowY : Option K)
    (shift : Bool) : s.Held (.knob target) x y (t.dragTo windowY shift) := by
  unfold WavetableEditor.dragTo
  split
  case h_1 =>
    dsimp only
    split
    case h_1 =>
      unfold setPosition
      dsimp only
      split
      · exact h
      · exact h
    case h_2 => exact h
    case h_3 => exact h
    case h_4 => exact h
  case h_2 => exact h

theorem Held.handle_knob {target : KnobTarget} {x y : Option K} (h : s.Held (.knob target) x y t)
    {e : EditorEvent K} (he : (Grip.knob target).leaves s e = true) :
    s.Held (.knob target) x y (t.handle e) ∧ (Grip.knob target).shown (t.handle e) =
      ((Grip.knob target).point e).elim ((Grip.knob target).shown t) (s.follows (.knob target) x y) := by
  obtain ⟨hsetting, hpanel, hdragging, htarget, hgrab, horigin, htable⟩ := id h
  cases e with
  | pointerMoved windowX windowY shift =>
    have hmove : t.handle (.pointerMoved windowX windowY shift) = t.dragTo windowY shift := by
      unfold handle pointerMoved
      rw [hpanel, hsetting]
      rfl
    rw [hmove]
    refine ⟨h.dragTo windowY shift, ?_⟩
    cases windowY with
    | none =>
      unfold WavetableEditor.dragTo
      rw [hdragging]
      rfl
    | some windowY =>
      have hturned := knob_dragTo hdragging windowY shift
      have hsame : t.turned target = s.turned target := by
        unfold turned
        rw [htable]
      rw [htarget, hgrab, horigin, hsame] at hturned
      exact Prod.ext rfl (congrArg some hturned)
  | painted width height =>
    show s.Held (.knob target) x y (t.recordViewportSize width height) ∧
      (Grip.knob target).shown (t.recordViewportSize width height) = (Grip.knob target).shown t
    obtain heq | ⟨size, heq⟩ := t.recordViewportSize_cases width height
    · rw [heq]
      exact ⟨h, rfl⟩
    · rw [heq]
      cases target <;> exact ⟨h, rfl⟩
  | cycleVoices => cases target <;> exact ⟨h, rfl⟩
  | stepPitch => cases target <;> exact ⟨h, rfl⟩
  | stepOctave => cases target <;> exact ⟨h, rfl⟩
  | pressKnob => cases he
  | pressSetting => cases he
  | pressPanel => cases he
  | released => cases he
  | stepUnison => cases he
  | stepFrame => cases he
  | load => cases he

/-! ## Sliders -/

omit [FloorRing K] [IsStrictOrderedRing K] in
theorem dragSettingTo_some {drag : SettingDrag K} (h : t.settingDrag = some drag) (windowX : K) (shift : Bool) :
    t.dragSettingTo (some windowX) shift =
      { t with
        renderSettings := drag.param.set t.renderSettings (drag.grab.map fun grab =>
          grab + (windowX - drag.originX) / settingDragPx * (drag.param.range.2 - drag.param.range.1) *
            valueGain shift) } := by
  simp only [dragSettingTo, h]

omit [IsStrictOrderedRing K] in
theorem Held.handle_slider {param : SettingParam} {x y : Option K} (h : s.Held (.slider param) x y t)
    {e : EditorEvent K} (he : (Grip.slider param).leaves s e = true) :
    s.Held (.slider param) x y (t.handle e) ∧ (Grip.slider param).shown (t.handle e) =
      ((Grip.slider param).point e).elim ((Grip.slider param).shown t) (s.follows (.slider param) x y) := by
  obtain ⟨hpanel, hsetting, hgrab⟩ := id h
  obtain ⟨grab, hgrab⟩ := Option.isSome_iff_exists.mp hgrab
  cases e with
  | pointerMoved windowX windowY shift =>
    have hmove : t.handle (.pointerMoved windowX windowY shift) = t.dragSettingTo windowX shift := by
      unfold handle pointerMoved
      rw [hpanel, hsetting]
      rfl
    rw [hmove]
    cases windowX with
    | none =>
      unfold dragSettingTo
      rw [hsetting]
      exact ⟨h, rfl⟩
    | some windowX =>
      rw [dragSettingTo_some hsetting]
      refine ⟨h, ?_⟩
      show (param.get (param.set t.renderSettings _), none) = s.follows (.slider param) x y _
      rw [SettingParam.get_set, if_pos rfl]
      unfold follows
      dsimp only
      rw [hgrab]
      rfl
  | painted width height =>
    show s.Held (.slider param) x y (t.recordViewportSize width height) ∧
      (Grip.slider param).shown (t.recordViewportSize width height) = (Grip.slider param).shown t
    obtain heq | ⟨size, heq⟩ := t.recordViewportSize_cases width height
    · rw [heq]
      exact ⟨h, rfl⟩
    · rw [heq]
      exact ⟨h, rfl⟩
  | cycleVoices => exact ⟨h, rfl⟩
  | stepPitch => exact ⟨h, rfl⟩
  | stepOctave => exact ⟨h, rfl⟩
  | stepUnison => exact ⟨h, rfl⟩
  | stepFrame delta =>
    show s.Held (.slider param) x y (t.stepFrame delta) ∧
      (Grip.slider param).shown (t.stepFrame delta) = (Grip.slider param).shown t
    obtain heq | ⟨frame, heq⟩ := t.stepFrame_cases delta
    · rw [heq]
      exact ⟨h, rfl⟩
    · rw [heq]
      exact ⟨h, rfl⟩
  | pressKnob => cases he
  | pressSetting => cases he
  | pressPanel => cases he
  | released => cases he
  | load => cases he

/-! ## The panel -/

omit [FloorRing K] [IsStrictOrderedRing K] in
theorem panelOffsetRange_congr (h : t.viewportSize = s.viewportSize) : t.panelOffsetRange = s.panelOffsetRange := by
  unfold panelOffsetRange measuredViewport
  rw [h]

omit [FloorRing K] in
theorem panelOffsetRange_le (s : WavetableEditor K) :
    s.panelOffsetRange.1.1 ≤ s.panelOffsetRange.1.2 ∧ s.panelOffsetRange.2.1 ≤ s.panelOffsetRange.2.2 :=
  ⟨sub_le_sub_left (le_max_right _ _) _, sub_le_sub_right (le_max_right _ _) _⟩

omit [FloorRing K] [IsStrictOrderedRing K] in
theorem panelPosition_moved (h : t.viewportSize = s.viewportSize) (offset : K × K) :
    { t with panelOffset := offset }.panelPosition =
      (panelDefaultRight - clamp s.panelOffsetRange.1.1 s.panelOffsetRange.1.2 offset.1,
        panelDefaultTop + clamp s.panelOffsetRange.2.1 s.panelOffsetRange.2.2 offset.2) := by
  have hrange : { t with panelOffset := offset }.panelOffsetRange = s.panelOffsetRange := panelOffsetRange_congr h
  unfold panelPosition
  rw [hrange]

omit [FloorRing K] [IsStrictOrderedRing K] in
theorem dragPanelTo_some {drag : PanelDrag K} (h : t.panelDrag = some drag) (windowX windowY : K) :
    t.dragPanelTo (some windowX) (some windowY) =
      { t with
        panelOffset :=
          (clamp t.panelOffsetRange.1.1 t.panelOffsetRange.1.2 (drag.grab.1 + (windowX - drag.origin.1)),
            clamp t.panelOffsetRange.2.1 t.panelOffsetRange.2.2 (drag.grab.2 + (windowY - drag.origin.2))) } := by
  simp only [dragPanelTo, h]

omit [FloorRing K] [IsStrictOrderedRing K] in
/-- A paint of the size that was recorded changes nothing. -/
theorem recordViewportSize_eq_self (h : t.viewportSize = s.viewportSize) {width height : Option K}
    (hsame : (s.recordViewportSize width height).viewportSize = s.viewportSize) :
    t.recordViewportSize width height = t := by
  unfold recordViewportSize at hsame ⊢
  split
  case h_1 width height =>
    dsimp only at hsame
    split
    case isTrue => rfl
    case isFalse hpos =>
      rw [if_neg hpos] at hsame
      have hsize : (min width 4096.0, min height 4096.0) = t.viewportSize := hsame.trans h.symm
      rw [hsize]
  case h_2 => rfl

theorem Held.handle_panel {x y : Option K} (h : s.Held .panel x y t) {e : EditorEvent K}
    (he : Grip.panel.leaves s e = true) :
    s.Held .panel x y (t.handle e) ∧
      Grip.panel.shown (t.handle e) = (Grip.panel.point e).elim (Grip.panel.shown t) (s.follows .panel x y) := by
  obtain ⟨hpanel, hviewport⟩ := id h
  cases e with
  | pointerMoved windowX windowY shift =>
    have hmove : t.handle (.pointerMoved windowX windowY shift) = t.dragPanelTo windowX windowY := by
      unfold handle pointerMoved
      rw [hpanel]
      rfl
    rw [hmove]
    cases windowX with
    | none =>
      unfold dragPanelTo
      rw [hpanel]
      exact ⟨h, rfl⟩
    | some windowX =>
      cases windowY with
      | none =>
        unfold dragPanelTo
        rw [hpanel]
        exact ⟨h, rfl⟩
      | some windowY =>
        rw [dragPanelTo_some hpanel, panelOffsetRange_congr hviewport]
        refine ⟨h, ?_⟩
        obtain ⟨hside, hdown⟩ := s.panelOffsetRange_le
        unfold Grip.shown
        dsimp only
        rw [panelPosition_moved hviewport, clamp_clamp hside, clamp_clamp hdown]
        rfl
  | cycleVoices => exact ⟨h, rfl⟩
  | stepPitch => exact ⟨h, rfl⟩
  | stepOctave => exact ⟨h, rfl⟩
  | stepUnison => exact ⟨h, rfl⟩
  | stepFrame delta =>
    show s.Held .panel x y (t.stepFrame delta) ∧ Grip.panel.shown (t.stepFrame delta) = Grip.panel.shown t
    obtain heq | ⟨frame, heq⟩ := t.stepFrame_cases delta
    · rw [heq]
      exact ⟨h, rfl⟩
    · rw [heq]
      exact ⟨h, rfl⟩
  | painted width height =>
    have hsame : (s.recordViewportSize width height).viewportSize = s.viewportSize := of_decide_eq_true he
    show s.Held .panel x y (t.recordViewportSize width height) ∧
      Grip.panel.shown (t.recordViewportSize width height) = Grip.panel.shown t
    rw [recordViewportSize_eq_self hviewport hsame]
    exact ⟨h, rfl⟩
  | pressKnob => cases he
  | pressSetting => cases he
  | pressPanel => cases he
  | released => cases he
  | load => cases he

/-! ## Whole drags -/

theorem Held.handle {grip : Grip} {x y : Option K} (h : s.Held grip x y t) {e : EditorEvent K}
    (he : grip.leaves s e = true) :
    s.Held grip x y (t.handle e) ∧
      grip.shown (t.handle e) = (grip.point e).elim (grip.shown t) (s.follows grip x y) := by
  cases grip with
  | knob target => exact h.handle_knob he
  | slider param => exact h.handle_slider he
  | panel => exact h.handle_panel he

omit [IsStrictOrderedRing K] in
theorem Ok.held_press (h : s.Ok) (grip : Grip) (x y : Option K) :
    s.Held grip x y (s.handle (grip.press x y)) ∧ grip.shown (s.handle (grip.press x y)) = grip.shown s := by
  cases grip with
  | knob target => cases target <;> exact ⟨⟨rfl, rfl, rfl, rfl, rfl, rfl, rfl⟩, rfl⟩
  | slider param =>
    obtain ⟨v, hv, -, -⟩ := h.settings param
    exact ⟨⟨rfl, rfl, Option.isSome_iff_exists.mpr ⟨v, hv⟩⟩, rfl⟩
  | panel => exact ⟨⟨rfl, rfl⟩, rfl⟩

theorem Ok.follows_press (h : s.Ok) (grip : Grip) (x y : Option K) (shift : Bool) :
    s.follows grip x y (x.getD 0, y.getD 0, shift) = grip.shown s := by
  unfold follows
  cases grip with
  | knob target =>
    dsimp only
    rw [sub_self, zero_div, zero_mul, add_zero, h.turned_knob target]
    rfl
  | slider param =>
    obtain ⟨v, hv, hlow, hhigh⟩ := h.settings param
    dsimp only
    rw [hv, Option.map_some, sub_self, zero_div, zero_mul, zero_mul, add_zero, clamp_of_mem hlow hhigh]
    exact Prod.ext hv.symm rfl
  | panel =>
    dsimp only
    rw [sub_self, sub_self, add_zero, add_zero]
    rfl

end Drags

/-- A drag comes out as its last point, and one back to where it was grabbed shows what was shown there. -/
theorem drag_follows [IsStrictOrderedRing K] (table : Wavetable) (before : List (EditorEvent K)) (grip : Grip)
    (x y : Option K) {meanwhile : List (EditorEvent K)}
    (hleaves : ∀ e ∈ meanwhile, grip.leaves (before.foldl handle (withTable table)) e = true) :
    let s := before.foldl handle (withTable table)
    let t := (grip.press x y :: meanwhile).foldl handle s
    grip.shown t = (lastPoint grip.point meanwhile).elim (grip.shown s) (s.follows grip x y) ∧
      ∀ shift : Bool, s.follows grip x y (x.getD 0, y.getD 0, shift) = grip.shown s := by
  intro s t
  have hs : s.Ok := ok_foldl (ok_withTable table) before
  obtain ⟨hheld, hshown⟩ := hs.held_press grip x y
  have hstep : ∀ t : WavetableEditor K, ∀ e ∈ meanwhile, s.Held grip x y t →
      s.Held grip x y (t.handle e) ∧
        grip.shown (t.handle e) = (grip.point e).elim (grip.shown t) (s.follows grip x y) :=
    fun _ e he ht => ht.handle (hleaves e he)
  obtain ⟨-, hlast⟩ := foldl_lastPoint hstep hheld
  refine ⟨?_, hs.follows_press grip x y⟩
  rw [← hshown]
  exact hlast

/-- The fine tuning dragged up over half its range, and the panel down and to the left, painted on the way. -/
theorem drag_follows_detune :
    (Grip.knob .detune).shown ([.pressKnob .detune (some 300), .pointerMoved none (some 120) false, .painted (some 300)
      (some 200), .pointerMoved (some 5) (some 220) false, .pointerMoved (some 9) none true].foldl handle
        (withTable ⟨[], 0⟩ : WavetableEditor ℚ)) = (none, some (1 / 2)) ∧
      Grip.panel.shown ([.pressPanel (some 10) (some 10), .pointerMoved (some 900) (some 2) false, .painted (some 300)
        (some 200), .pointerMoved (some 4) (some 30) false].foldl handle
          ([.painted (some 300) (some 200)].foldl handle (withTable ⟨[], 0⟩ : WavetableEditor ℚ))) =
        (some 9, some 44) := by
  constructor
  · exact (drag_follows ⟨[], 0⟩ [] (.knob .detune) none (some 300) (by decide)).1.trans (by
      show (none, some (clamp 0 1 ((0 : ℚ) + (300 - 220) / dragRangePx * valueGain false))) = (none, some (1 / 2))
      norm_num [clamp, dragRangePx, valueGain])
  · exact (drag_follows ⟨[], 0⟩ [.painted (some 300) (some 200)] .panel (some 10) (some 10)
      (by decide +kernel)).1.trans (by decide +kernel)

end WavetableEditor

end HikaruOpenLive.Gui
