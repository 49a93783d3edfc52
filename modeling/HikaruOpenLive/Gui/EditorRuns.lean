import HikaruOpenLive.Gui.WavetableEditor
import Mathlib.Tactic.FieldSimp
import Mathlib.Tactic.Linarith
import Mathlib.Tactic.NormNum

/-! # Runs of the wavetable editor

Whatever is pressed, dragged, stepped and loaded, the editor stays in order (`Ok`): it is at a cycle its
table has, every control and every setting is in its range, and one thing at most is dragged. So the
renderer draws with the settings the panel shows, and the cycle it lights is the one the knob points at.
-/
set_option autoImplicit false

namespace HikaruOpenLive.Gui

open Render (clamp RenderSettings)

variable {K : Type} [Field K] [LinearOrder K]

/-! ## Values in their range -/

omit [Field K] in
theorem clamp_bounds {low high : K} (h : low ≤ high) (x : K) : low ≤ clamp low high x ∧ clamp low high x ≤ high :=
  ⟨le_max_left _ _, max_le h (min_le_right _ _)⟩

omit [Field K] in
theorem clamp_of_mem {low high x : K} (hlow : low ≤ x) (hhigh : x ≤ high) : clamp low high x = x := by
  rw [clamp, min_eq_left hhigh, max_eq_right hlow]

namespace SettingParam

section Ranges

variable [IsStrictOrderedRing K]

theorem range_le (param : SettingParam) : (param.range (K := K)).1 ≤ param.range.2 := by
  cases param with
  | lineWidth => norm_num [range]
  | lineWidth2d => norm_num [range]
  | depthScale => norm_num [range]
  | yaw => norm_num [range]
  | pitch => norm_num [range]
  | depthFade => norm_num [range]
  | aaFeather => norm_num [range]
  | glow => norm_num [range]

theorem bounded_mem (param : SettingParam) (value : Option K) :
    param.range.1 ≤ param.bounded value ∧ param.bounded value ≤ param.range.2 := by
  cases value with
  | none => exact ⟨le_rfl, param.range_le⟩
  | some value => exact clamp_bounds param.range_le value

omit [IsStrictOrderedRing K] in
theorem get_set (param other : SettingParam) (settings : RenderSettings K) (value : Option K) :
    other.get (param.set settings value) = if other = param then some (param.bounded value) else other.get settings := by
  cases param <;> cases other <;> rfl

/-- A setting is within its range. -/
def Within (param : SettingParam) (settings : RenderSettings K) : Prop :=
  ∃ v, param.get settings = some v ∧ param.range.1 ≤ v ∧ v ≤ param.range.2

theorem within_set (param other : SettingParam) {settings : RenderSettings K} (h : other.Within settings)
    (value : Option K) : other.Within (param.set settings value) := by
  unfold Within
  rw [get_set]
  split
  case isTrue heq =>
    rw [heq]
    exact ⟨_, rfl, param.bounded_mem value⟩
  case isFalse => exact h

theorem within_default (param : SettingParam) : param.Within (RenderSettings.default : RenderSettings K) := by
  cases param with
  | lineWidth => exact ⟨_, rfl, by norm_num [range, Render.terrainLineWidth]⟩
  | lineWidth2d => exact ⟨_, rfl, by norm_num [range, Render.terrainLineWidth]⟩
  | depthScale => exact ⟨_, rfl, by norm_num [range]⟩
  | yaw => exact ⟨_, rfl, by norm_num [range, Render.terrainYawDeg]⟩
  | pitch => exact ⟨_, rfl, by norm_num [range, Render.terrainPitchDeg]⟩
  | depthFade => exact ⟨_, rfl, by norm_num [range, Render.terrainDepthFade]⟩
  | aaFeather => exact ⟨_, rfl, by norm_num [range]⟩
  | glow => exact ⟨_, rfl, by norm_num [range]⟩

/-- What the renderer lets through. -/
def accepted : SettingParam → K × K
  | .lineWidth | .lineWidth2d => (0.5, 12.0)
  | .depthScale => (0.1, 4.0)
  | .yaw => (-60.0, 60.0)
  | .pitch => (5.0, 80.0)
  | .depthFade => (0, 0.9)
  | .aaFeather => (0, 4.0)
  | .glow => (0.3, 2.0)

omit [IsStrictOrderedRing K] in
theorem drawn_of_get {param : SettingParam} {settings : RenderSettings K} {v : K} (h : param.get settings = some v) :
    param.drawn settings = clamp param.accepted.1 param.accepted.2 v := by
  cases param with
  | lineWidth => rw [drawn, show settings.lineWidth = some v from h]; rfl
  | lineWidth2d => rw [drawn, show settings.lineWidth2d = some v from h]; rfl
  | depthScale => rw [drawn, Render.depthScaleOf, show settings.depthScale = some v from h]; rfl
  | yaw => rw [drawn, show settings.yawDeg = some v from h]; rfl
  | pitch => rw [drawn, show settings.pitchDeg = some v from h]; rfl
  | depthFade => rw [drawn, Render.fadeOf, show settings.depthFade = some v from h]; rfl
  | aaFeather => rw [drawn, show settings.aaFeather = some v from h]; rfl
  | glow => rw [drawn, show settings.glow = some v from h]; rfl

theorem range_accepted (param : SettingParam) :
    (param.accepted (K := K)).1 ≤ param.range.1 ∧ (param.range (K := K)).2 ≤ param.accepted.2 := by
  cases param with
  | lineWidth => norm_num [range, accepted]
  | lineWidth2d => norm_num [range, accepted]
  | depthScale => norm_num [range, accepted]
  | yaw => norm_num [range, accepted]
  | pitch => norm_num [range, accepted]
  | depthFade => norm_num [range, accepted]
  | aaFeather => norm_num [range, accepted]
  | glow => norm_num [range, accepted]

/-- A setting within the range of its slider is drawn as it is. -/
theorem drawn_of_within {param : SettingParam} {settings : RenderSettings K} (h : param.Within settings) :
    param.get settings = some (param.drawn settings) := by
  obtain ⟨v, hv, hlow, hhigh⟩ := h
  obtain ⟨hfrom, hto⟩ := param.range_accepted (K := K)
  rw [drawn_of_get hv, clamp_of_mem (hfrom.trans hlow) (hhigh.trans hto), hv]

end Ranges

end SettingParam

/-! ## Decoded tables -/

namespace Wavetable

def Decoded (table : Wavetable) : Prop :=
  ∃ reader maxFrames clipped, decodeReader reader maxFrames = .ok (table, clipped)

/-- A table of whole cycles within the range. -/
structure Whole (table : Wavetable) : Prop where
  frames_pos : 1 ≤ table.frames
  length_samples : table.samples.length = table.frames * frameSamples
  samples_mem : ∀ v ∈ table.samples, |v| ≤ 1

/-- The samples of a whole table hold the cycles it counts. -/
theorem Whole.selectableFrames_eq {table : Wavetable} (h : table.Whole) :
    table.selectableFrames = table.samples.length / frameSamples := by
  rw [h.length_samples, Nat.mul_div_cancel _ (by decide), selectableFrames, max_eq_left h.frames_pos]

end Wavetable

theorem abs_clampSample_le (value : ℚ) : |clampSample value| ≤ 1 :=
  abs_le.mpr ⟨le_max_left _ _, max_le (by norm_num) (min_le_right _ _)⟩

theorem normalize_range (samples : List ℚ) (sourceLen targetLen : ℕ) :
    (normalize samples sourceLen targetLen).1.length = targetLen ∧
      ∀ v ∈ (normalize samples sourceLen targetLen).1, |v| ≤ 1 := by
  unfold normalize
  split
  case isTrue =>
    refine ⟨List.length_replicate, fun v hv => ?_⟩
    rw [List.eq_of_mem_replicate hv, abs_zero]
    exact zero_le_one
  case isFalse =>
    refine ⟨by simp only [List.length_map, List.length_range], fun v hv => ?_⟩
    obtain ⟨value, -, rfl⟩ := List.mem_map.mp hv
    exact abs_clampSample_le value

theorem Wavetable.Decoded.whole {table : Wavetable} (h : table.Decoded) : table.Whole := by
  obtain ⟨reader, maxFrames, clipped, h⟩ := h
  unfold decodeReader at h
  dsimp only at h
  split_ifs at h
  all_goals
    obtain ⟨rfl, -⟩ := Prod.mk.inj (Except.ok.inj h)
    obtain ⟨hlength, hrange⟩ := normalize_range _ _ _
    exact ⟨le_min (Nat.le_max_right _ _) (Nat.le_max_right _ _), hlength.trans (Nat.mul_comm _ _), hrange⟩

/-- The table an integer file of at most `maxFrames` cycles becomes. -/
def IntWav.table (w : IntWav) (maxFrames : ℕ) : Wavetable :=
  ⟨(normalize ((List.range (w.cycles * frameSamples)).map fun i => w.mean i * gain w.bits)
      (w.counted maxFrames * frameSamples) (frameSamples * w.counted maxFrames)).1, w.counted maxFrames⟩

theorem IntWav.decoded_table (w : IntWav) {maxFrames : ℕ} (hpos : 1 ≤ w.cycles) (hmax : w.cycles ≤ maxFrames) :
    (w.table maxFrames).Decoded :=
  ⟨w.reader, maxFrames, _, w.decodeReader_eq hpos hmax⟩

/-! ## The editor in order -/

namespace WavetableEditor

structure Ok (s : WavetableEditor K) : Prop where
  frame_lt : s.frame < s.table.selectableFrames
  morph_nonneg : 0 ≤ s.morph
  morph_lt : s.morph < 1
  unison_mem : 1 ≤ s.unison ∧ s.unison ≤ 16
  detune_mem : 0 ≤ s.detune ∧ s.detune ≤ 1
  phase_mem : 0 ≤ s.phase ∧ s.phase ≤ 1
  pitch_mem : -24 ≤ s.pitch ∧ s.pitch ≤ 24
  octave_mem : -3 ≤ s.octave ∧ s.octave ≤ 3
  settings : ∀ param : SettingParam, param.Within s.renderSettings
  knob_alone : s.dragging = true → s.settingDrag = none ∧ s.panelDrag = none
  slider_alone : s.settingDrag ≠ none → s.panelDrag = none

theorem recordViewportSize_cases (s : WavetableEditor K) (width height : Option K) :
    s.recordViewportSize width height = s ∨
      ∃ size, s.recordViewportSize width height = { s with viewportSize := size } := by
  unfold recordViewportSize
  split
  case h_1 =>
    split
    case isTrue => exact Or.inl rfl
    case isFalse => exact Or.inr ⟨_, rfl⟩
  case h_2 => exact Or.inl rfl

omit [Field K] [LinearOrder K] in
theorem stepFrame_cases (s : WavetableEditor K) (delta : ℤ) :
    s.stepFrame delta = s ∨ ∃ frame, s.stepFrame delta = { s with frame := frame } := by
  unfold stepFrame
  dsimp only
  split
  case isTrue => exact Or.inl rfl
  case isFalse => exact Or.inr ⟨_, rfl⟩

section Steps

variable {s : WavetableEditor K}

theorem Ok.setUnison (h : s.Ok) (voices : ℕ) : (s.setUnison voices).Ok :=
  { h with unison_mem := ⟨le_max_left _ _, max_le (by decide) (min_le_right _ _)⟩ }

theorem Ok.stepPitch (h : s.Ok) (delta : ℤ) : (s.stepPitch delta).Ok :=
  { h with pitch_mem := ⟨le_max_left _ _, max_le (by decide) (min_le_right _ _)⟩ }

theorem Ok.stepOctave (h : s.Ok) (delta : ℤ) : (s.stepOctave delta).Ok :=
  { h with octave_mem := ⟨le_max_left _ _, max_le (by decide) (min_le_right _ _)⟩ }

theorem Ok.stepFrame (h : s.Ok) (delta : ℤ) : (s.stepFrame delta).Ok := by
  unfold WavetableEditor.stepFrame
  dsimp only
  split
  case isTrue => exact h
  case isFalse hframes =>
    refine { h with frame_lt := ?_ }
    show (max 0 (min ((s.frame : ℤ) + delta) ((s.table.selectableFrames : ℤ) - 1))).toNat < s.table.selectableFrames
    omega

theorem Ok.endDrag (h : s.Ok) : s.endDrag.Ok :=
  { h with
    knob_alone := fun hdragging => nomatch hdragging
    slider_alone := fun hsetting => absurd rfl hsetting }

theorem Ok.beginDragTarget (h : s.Ok) (target : KnobTarget) (y : Option K) : (s.beginDragTarget target y).Ok :=
  { h with
    knob_alone := fun _ => ⟨rfl, rfl⟩
    slider_alone := fun hsetting => absurd rfl hsetting }

theorem Ok.beginSettingDrag (h : s.Ok) (param : SettingParam) (x : Option K) : (s.beginSettingDrag param x).Ok :=
  { h with
    knob_alone := fun hdragging => nomatch hdragging
    slider_alone := fun _ => rfl }

theorem Ok.beginPanelDrag (h : s.Ok) (x y : Option K) : (s.beginPanelDrag x y).Ok :=
  { h with
    knob_alone := fun hdragging => nomatch hdragging
    slider_alone := fun hsetting => absurd rfl hsetting }

theorem Ok.dragPanelTo (h : s.Ok) (x y : Option K) : (s.dragPanelTo x y).Ok := by
  unfold WavetableEditor.dragPanelTo
  split
  case h_1 => exact { h with }
  case h_2 => exact h

theorem Ok.recordViewportSize (h : s.Ok) (width height : Option K) : (s.recordViewportSize width height).Ok := by
  obtain heq | ⟨size, heq⟩ := s.recordViewportSize_cases width height
  · rwa [heq]
  · rw [heq]
    exact { h with }

variable [IsStrictOrderedRing K]

theorem ok_withTable (table : Wavetable) : (withTable table : WavetableEditor K).Ok where
  frame_lt := Nat.lt_of_lt_of_le Nat.zero_lt_one (le_max_right _ _)
  morph_nonneg := le_rfl
  morph_lt := zero_lt_one
  unison_mem := ⟨le_rfl, Nat.le_of_ble_eq_true rfl⟩
  detune_mem := ⟨le_rfl, zero_le_one⟩
  phase_mem := ⟨le_rfl, zero_le_one⟩
  pitch_mem := ⟨Int.neg_ofNat_le_natCast 24 0, Int.natCast_nonneg 24⟩
  octave_mem := ⟨Int.neg_ofNat_le_natCast 3 0, Int.natCast_nonneg 3⟩
  settings := SettingParam.within_default
  knob_alone := fun h => nomatch h
  slider_alone := fun h => absurd rfl h

theorem Ok.load (h : s.Ok) (table : Wavetable) : (s.load table).Ok :=
  { h.endDrag with
    frame_lt := Nat.lt_of_lt_of_le Nat.zero_lt_one (le_max_right _ _)
    morph_nonneg := le_rfl
    morph_lt := zero_lt_one }

theorem Ok.withSettings (h : s.Ok) (param : SettingParam) (value : Option K) :
    { s with renderSettings := param.set s.renderSettings value }.Ok :=
  { h with settings := fun other => param.within_set other (h.settings other) value }

theorem Ok.dragSettingTo (h : s.Ok) (x : Option K) (fine : Bool) : (s.dragSettingTo x fine).Ok := by
  unfold WavetableEditor.dragSettingTo
  split
  case h_1 => exact h.withSettings _ _
  case h_2 => exact h

variable [FloorRing K]

theorem Ok.setPosition (h : s.Ok) (position : Option K) : (s.setPosition position).Ok := by
  unfold WavetableEditor.setPosition
  dsimp only
  split
  case isTrue =>
    exact
      { h with
        frame_lt := Nat.lt_of_lt_of_le Nat.zero_lt_one (le_max_right _ _)
        morph_nonneg := le_rfl
        morph_lt := zero_lt_one }
  case isFalse hframes =>
    set last : K := ((s.table.selectableFrames - 1 : ℕ) : K)
    set cycle := clamp 0 last _
    have hlast : (0 : K) ≤ last := Nat.cast_nonneg _
    obtain ⟨hnonneg, hle⟩ : 0 ≤ cycle ∧ cycle ≤ last := clamp_bounds hlast _
    have hfloor : ⌊cycle⌋₊ ≤ s.table.selectableFrames - 1 := Nat.floor_le_of_le hle
    refine { h with frame_lt := ?_, morph_nonneg := ?_, morph_lt := ?_ }
    · show ⌊cycle⌋₊ < s.table.selectableFrames
      omega
    · exact sub_nonneg.mpr (Nat.floor_le hnonneg)
    · exact sub_lt_iff_lt_add'.mpr (Nat.lt_floor_add_one cycle)

theorem Ok.dragTo (h : s.Ok) (y : Option K) (fine : Bool) : (s.dragTo y fine).Ok := by
  unfold WavetableEditor.dragTo
  split
  case h_1 =>
    dsimp only
    split
    case h_1 => exact h.setPosition _
    case h_2 => exact h.setUnison _
    case h_3 => exact { h with detune_mem := clamp_bounds zero_le_one _ }
    case h_4 => exact { h with phase_mem := clamp_bounds zero_le_one _ }
  case h_2 => exact h

theorem Ok.handle (h : s.Ok) (e : EditorEvent K) : (s.handle e).Ok := by
  cases e with
  | pressKnob target y => exact h.beginDragTarget target y
  | pressSetting param x => exact h.beginSettingDrag param x
  | pressPanel x y => exact h.beginPanelDrag x y
  | pointerMoved x y shift =>
    show (s.pointerMoved x y shift).Ok
    unfold WavetableEditor.pointerMoved
    split
    · exact h.dragPanelTo x y
    · split
      · exact h.dragSettingTo x shift
      · exact h.dragTo y shift
  | released => exact h.endDrag
  | painted width height => exact h.recordViewportSize width height
  | stepUnison delta => exact h.setUnison _
  | stepPitch delta => exact h.stepPitch delta
  | stepOctave delta => exact h.stepOctave delta
  | cycleVoices => exact { h with }
  | stepFrame delta => exact h.stepFrame delta
  | load table => exact h.load table

theorem ok_foldl (h : s.Ok) (events : List (EditorEvent K)) : (events.foldl handle s).Ok := by
  induction events generalizing s with
  | nil => exact h
  | cons e events ih => exact ih (h.handle e)

end Steps

/-! ## The cycle the knob points at -/

section Knob

variable {s : WavetableEditor K} [IsStrictOrderedRing K]

theorem last_pos (hframes : ¬ s.table.selectableFrames ≤ 1) : (0 : K) < ((s.table.selectableFrames - 1 : ℕ) : K) :=
  Nat.cast_pos.mpr (by omega)

theorem Ok.activeCycle_eq (h : s.Ok) (hframes : ¬ s.table.selectableFrames ≤ 1) :
    s.activeCycle = min ((s.frame : K) + s.morph) ((s.table.selectableFrames - 1 : ℕ) : K) := by
  have hlast := last_pos hframes
  have hnonneg : 0 ≤ ((s.frame : K) + s.morph) / ((s.table.selectableFrames - 1 : ℕ) : K) :=
    div_nonneg (add_nonneg (Nat.cast_nonneg _) h.morph_nonneg) hlast.le
  unfold activeCycle
  dsimp only
  rw [if_neg hframes, clamp, max_eq_right (le_min hnonneg zero_le_one), min_mul_of_nonneg _ _ hlast.le, one_mul,
    div_mul_cancel₀ _ hlast.ne']

theorem Ok.activeCycle_mem (h : s.Ok) :
    0 ≤ s.activeCycle ∧ s.activeCycle ≤ ((s.table.selectableFrames - 1 : ℕ) : K) := by
  by_cases hframes : s.table.selectableFrames ≤ 1
  · unfold activeCycle
    dsimp only
    rw [if_pos hframes]
    exact ⟨le_rfl, Nat.cast_nonneg _⟩
  · rw [h.activeCycle_eq hframes]
    exact ⟨le_min (add_nonneg (Nat.cast_nonneg _) h.morph_nonneg) (last_pos hframes).le, min_le_right _ _⟩

theorem Ok.position_eq (h : s.Ok) (hframes : ¬ s.table.selectableFrames ≤ 1) :
    s.position = s.activeCycle / ((s.table.selectableFrames - 1 : ℕ) : K) := by
  have hlast := last_pos hframes
  obtain ⟨hnonneg, hle⟩ := h.activeCycle_mem
  unfold position
  dsimp only
  rw [if_neg hframes]
  exact clamp_of_mem (div_nonneg hnonneg hlast.le) ((div_le_one₀ hlast).mpr hle)

/-- The terrain lights the slot the knob points at. -/
theorem Ok.tableSlot_activeCycle (h : s.Ok) (count : ℕ) :
    Render.tableSlot s.table.selectableFrames count (some s.activeCycle) = s.position * ((count - 1 : ℕ) : K) := by
  obtain ⟨hnonneg, hle⟩ := h.activeCycle_mem
  unfold Render.tableSlot
  dsimp only
  rw [clamp_of_mem hnonneg hle]
  by_cases hframes : s.table.selectableFrames ≤ 1
  · have hposition : s.position = 0 := if_pos hframes
    rw [if_pos (Or.inr hframes), hposition, zero_mul]
  · by_cases hcount : count ≤ 1
    · rw [if_pos (Or.inl hcount), Nat.sub_eq_zero_of_le hcount, Nat.cast_zero, mul_zero]
    · rw [if_neg (not_or.mpr ⟨hcount, hframes⟩), h.position_eq hframes]

variable [FloorRing K]

/-- The foot of the editor counts the cycle that is played. -/
theorem Ok.floor_activeCycle (h : s.Ok) : ⌊s.activeCycle⌋₊ = s.frame := by
  have hframe := h.frame_lt
  have hmorph := h.morph_nonneg
  have hlt := h.morph_lt
  by_cases hframes : s.table.selectableFrames ≤ 1
  · have hcycle : s.activeCycle = 0 := if_pos hframes
    rw [hcycle, Nat.floor_zero]
    omega
  · obtain ⟨hnonneg, -⟩ := h.activeCycle_mem
    have hle : (s.frame : K) ≤ ((s.table.selectableFrames - 1 : ℕ) : K) := Nat.cast_le.mpr (by omega)
    rw [Nat.floor_eq_iff hnonneg, h.activeCycle_eq hframes]
    refine ⟨le_min (by linarith) hle, ?_⟩
    exact lt_of_le_of_lt (min_le_left _ _) (by linarith)

end Knob

/-! ## The table of a run -/

section Tables

variable [FloorRing K]

theorem table_dragTo (s : WavetableEditor K) (windowY : Option K) (fine : Bool) :
    (s.dragTo windowY fine).table = s.table := by
  unfold dragTo
  split
  case h_1 =>
    dsimp only
    split
    case h_1 =>
      unfold setPosition
      dsimp only
      split
      · rfl
      · rfl
    case h_2 => rfl
    case h_3 => rfl
    case h_4 => rfl
  case h_2 => rfl

theorem table_pointerMoved (s : WavetableEditor K) (x y : Option K) (shift : Bool) :
    (s.pointerMoved x y shift).table = s.table := by
  unfold pointerMoved
  split
  · unfold dragPanelTo
    split
    · rfl
    · rfl
  · split
    · unfold dragSettingTo
      split
      · rfl
      · rfl
    · exact s.table_dragTo y shift

/-- Only a load changes the table. -/
theorem table_handle (s : WavetableEditor K) (e : EditorEvent K) :
    (s.handle e).table = s.table ∨ e = .load (s.handle e).table := by
  cases e with
  | pointerMoved x y shift => exact Or.inl (s.table_pointerMoved x y shift)
  | painted width height =>
    refine Or.inl ?_
    show (s.recordViewportSize width height).table = s.table
    obtain heq | ⟨size, heq⟩ := s.recordViewportSize_cases width height
    · rw [heq]
    · rw [heq]
  | stepFrame delta =>
    refine Or.inl ?_
    show (s.stepFrame delta).table = s.table
    obtain heq | ⟨frame, heq⟩ := s.stepFrame_cases delta
    · rw [heq]
    · rw [heq]
  | load table => exact Or.inr rfl
  | pressKnob => exact Or.inl rfl
  | pressSetting => exact Or.inl rfl
  | pressPanel => exact Or.inl rfl
  | released => exact Or.inl rfl
  | stepUnison => exact Or.inl rfl
  | stepPitch => exact Or.inl rfl
  | stepOctave => exact Or.inl rfl
  | cycleVoices => exact Or.inl rfl

theorem whole_foldl {s : WavetableEditor K} (h : s.table.Whole) {events : List (EditorEvent K)}
    (hloads : ∀ table, EditorEvent.load table ∈ events → table.Whole) : (events.foldl handle s).table.Whole := by
  induction events generalizing s with
  | nil => exact h
  | cons e events ih =>
    refine ih ?_ fun table hmem => hloads table (List.mem_cons_of_mem e hmem)
    obtain hsame | hload := s.table_handle e
    · rwa [hsame]
    · exact hloads _ (hload ▸ List.mem_cons_self)

end Tables

/-- In every run of the editor each control and each setting is in its range, a setting is drawn as the panel
shows it, and the foot, the knob and the terrain mean the same cycle; the terrain counts the cycles in the
samples, which is the same count for the tables of files. -/
theorem editor_runs [IsStrictOrderedRing K] [FloorRing K] (table : Wavetable) (events : List (EditorEvent K)) :
    let s := events.foldl handle (withTable table)
    s.Ok ∧ (∀ param : SettingParam, param.get s.renderSettings = some (param.drawn s.renderSettings)) ∧
      ⌊s.activeCycle⌋₊ = s.frame ∧
      (∀ count : ℕ, Render.tableSlot s.table.selectableFrames count (some s.activeCycle) =
        s.position * ((count - 1 : ℕ) : K)) ∧
      (table.Decoded → (∀ t, EditorEvent.load t ∈ events → t.Decoded) →
        ∀ count : ℕ, Render.tableSlot (s.table.samples.length / frameSamples) count (some s.activeCycle) =
          s.position * ((count - 1 : ℕ) : K)) := by
  intro s
  have h : s.Ok := ok_foldl (ok_withTable table) events
  refine ⟨h, fun param => SettingParam.drawn_of_within (h.settings param), h.floor_activeCycle,
    h.tableSlot_activeCycle, fun htable hloads count => ?_⟩
  have hwhole : s.table.Whole := whole_foldl htable.whole fun t ht => (hloads t ht).whole
  rw [← hwhole.selectableFrames_eq]
  exact h.tableSlot_activeCycle count

/-- A file of two cycles, one above and one below the middle. -/
def twoCycles : IntWav :=
  { IntWav.heldMono with
    cycles := 2
    values := List.replicate frameSamples 16384 ++ List.replicate frameSamples (-16384)
    length_values := by
      rw [List.length_append, List.length_replicate, List.length_replicate]
      rfl
    values_mem := by
      intro v hv
      obtain hv | hv := List.mem_append.mp hv
      · rw [List.eq_of_mem_replicate hv]
        decide
      · rw [List.eq_of_mem_replicate hv]
        decide }

/-- Its knob turned half way up. -/
theorem editor_runs_turned :
    ∃ s : WavetableEditor ℚ,
      s = [.pressKnob .position (some 300), .pointerMoved none (some 220) false, .released].foldl handle
        (withTable (twoCycles.table 64)) ∧
      s.Ok ∧ (∀ param : SettingParam, param.get s.renderSettings = some (param.drawn s.renderSettings)) ∧
      ⌊s.activeCycle⌋₊ = s.frame ∧
      (∀ count : ℕ, Render.tableSlot s.table.selectableFrames count (some s.activeCycle) =
        s.position * ((count - 1 : ℕ) : ℚ)) ∧
      ∀ count : ℕ, Render.tableSlot (s.table.samples.length / frameSamples) count (some s.activeCycle) =
        s.position * ((count - 1 : ℕ) : ℚ) := by
  obtain ⟨h, hdrawn, hfoot, hslot, hcounted⟩ := editor_runs (K := ℚ) (twoCycles.table 64)
    [.pressKnob .position (some 300), .pointerMoved none (some 220) false, .released]
  have hdecoded : (twoCycles.table 64).Decoded := twoCycles.decoded_table (by decide) (by decide)
  exact ⟨_, rfl, h, hdrawn, hfoot, hslot, hcounted hdecoded fun t ht => by simp at ht⟩

end WavetableEditor

end HikaruOpenLive.Gui
