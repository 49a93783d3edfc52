import HikaruOpenLive.Gui.EditorRuns

/-! # The cycle the editor shows

Every table that is decoded has whole cycles of samples between -1 and 1. So the cycle that is drawn always has
the samples of one cycle, never leaves that range, and is the cycle counted in the foot, blended with the next
one by the way the knob has gone towards it.
-/
set_option autoImplicit false

namespace HikaruOpenLive.Gui

open Render (clamp)

/-! ## The cycle -/

namespace Wavetable

/-- The samples of a cycle as they are; a slice out of the table is empty. -/
def frameSamplesOf (table : Wavetable) (index : ℕ) : List ℚ :=
  if table.frames ≤ 1 then table.samples
  else
    let start := min index (table.frames - 1) * frameSamples
    let stop := min (start + frameSamples) table.samples.length
    if start ≤ stop then (table.samples.drop start).take (stop - start) else []

def frame (table : Wavetable) (index : Option ℚ) (smooth : Bool) : List ℚ :=
  let last : ℚ := ((table.frames - 1 : ℕ) : ℚ)
  let position := match index with
    | some index => clamp 0 last index
    | none => 0
  let base := ⌊position⌋₊
  let next := min (base + 1) (table.frames - 1)
  let current := table.frameSamplesOf base
  let following := table.frameSamplesOf next
  if smooth = false ∨ table.frames ≤ 1 ∨ base = next then current
  else current.zipWith (fun a b => a + (b - a) * (position - (base : ℚ))) following

end Wavetable

def WavetableEditor.currentSamples (s : WavetableEditor ℚ) (smooth : Bool) : List ℚ :=
  s.table.frame (some s.activeCycle) smooth

/-! ## Whole tables -/

namespace Wavetable.Whole

variable {table : Wavetable}

theorem frameSamplesOf_eq (h : table.Whole) {k : ℕ} (hk : k < table.frames) :
    table.frameSamplesOf k = (table.samples.drop (k * frameSamples)).take frameSamples := by
  have hlength := h.length_samples
  unfold frameSamplesOf
  by_cases hframes : table.frames ≤ 1
  · have hone : table.frames = 1 := le_antisymm hframes h.frames_pos
    have hzero : k = 0 := by omega
    rw [if_pos hframes, hzero, Nat.zero_mul, List.drop_zero, List.take_of_length_le]
    rw [hlength, hone, Nat.one_mul]
  · have hmin : min k (table.frames - 1) = k := by omega
    have hstop : min (k * frameSamples + frameSamples) table.samples.length = k * frameSamples + frameSamples := by
      rw [hlength, ← Nat.succ_mul]
      exact min_eq_left (Nat.mul_le_mul_right _ hk)
    rw [if_neg hframes]
    dsimp only
    rw [hmin, hstop, if_pos (Nat.le_add_right _ _), Nat.add_sub_cancel_left]

theorem getElem?_frameSamplesOf (h : table.Whole) {k i : ℕ} (hk : k < table.frames) (hi : i < frameSamples) :
    (table.frameSamplesOf k)[i]? = table.samples[k * frameSamples + i]? := by
  rw [h.frameSamplesOf_eq hk, List.getElem?_take_of_lt hi, List.getElem?_drop]

theorem length_frameSamplesOf (h : table.Whole) {k : ℕ} (hk : k < table.frames) :
    (table.frameSamplesOf k).length = frameSamples := by
  have hle : k * frameSamples + frameSamples ≤ table.frames * frameSamples := by
    rw [← Nat.succ_mul]
    exact Nat.mul_le_mul_right _ hk
  rw [h.frameSamplesOf_eq hk, List.length_take, List.length_drop, h.length_samples]
  omega

theorem exists_sample (h : table.Whole) {k i : ℕ} (hk : k < table.frames) (hi : i < frameSamples) :
    ∃ v, table.samples[k * frameSamples + i]? = some v ∧ |v| ≤ 1 := by
  have hlt : i < (table.frameSamplesOf k).length := by rwa [h.length_frameSamplesOf hk]
  have hget := (h.getElem?_frameSamplesOf hk hi).symm.trans (List.getElem?_eq_getElem hlt)
  exact ⟨_, hget, h.samples_mem _ (List.mem_of_getElem? hget)⟩

end Wavetable.Whole

theorem abs_blend_le {a b f : ℚ} (ha : |a| ≤ 1) (hb : |b| ≤ 1) (hf : 0 ≤ f) (hf' : f ≤ 1) :
    |a + (b - a) * f| ≤ 1 := by
  obtain ⟨ha, ha'⟩ := abs_le.mp ha
  obtain ⟨hb, hb'⟩ := abs_le.mp hb
  refine abs_le.mpr ⟨?_, ?_⟩
  · nlinarith
  · nlinarith

namespace WavetableEditor

/-! ## What is drawn -/

variable {s : WavetableEditor ℚ}

/-- The cycle the knob is leaving, and the next one. -/
theorem Ok.frame_lt_frames (h : s.Ok) (hwhole : s.table.Whole) :
    s.frame < s.table.frames ∧ min (s.frame + 1) (s.table.frames - 1) < s.table.frames := by
  have hframe : s.frame < max s.table.frames 1 := h.frame_lt
  have hpos := hwhole.frames_pos
  omega

theorem Ok.currentSamples_eq (h : s.Ok) (hwhole : s.table.Whole) (smooth : Bool) :
    s.currentSamples smooth =
      if smooth = false ∨ s.table.frames ≤ 1 ∨ s.frame = min (s.frame + 1) (s.table.frames - 1) then
        s.table.frameSamplesOf s.frame
      else
        (s.table.frameSamplesOf s.frame).zipWith (fun a b => a + (b - a) * (s.activeCycle - (s.frame : ℚ)))
          (s.table.frameSamplesOf (min (s.frame + 1) (s.table.frames - 1))) := by
  obtain ⟨hnonneg, hle⟩ := h.activeCycle_mem
  have hframes : s.table.selectableFrames = s.table.frames := max_eq_left hwhole.frames_pos
  rw [hframes] at hle
  unfold currentSamples Wavetable.frame
  dsimp only
  rw [clamp_of_mem hnonneg hle, h.floor_activeCycle]

theorem Ok.getElem?_currentSamples (h : s.Ok) (hwhole : s.table.Whole) (smooth : Bool) {i : ℕ}
    (hi : i < frameSamples) :
    ∃ a b, s.table.samples[s.frame * frameSamples + i]? = some a ∧
      s.table.samples[min (s.frame + 1) (s.table.frames - 1) * frameSamples + i]? = some b ∧ |a| ≤ 1 ∧ |b| ≤ 1 ∧
      (s.currentSamples smooth)[i]? =
        some (if smooth = true then a + (b - a) * (s.activeCycle - (s.frame : ℚ)) else a) := by
  obtain ⟨hbase, hnext⟩ := h.frame_lt_frames hwhole
  obtain ⟨a, ha, ha'⟩ := hwhole.exists_sample hbase hi
  obtain ⟨b, hb, hb'⟩ := hwhole.exists_sample hnext hi
  refine ⟨a, b, ha, hb, ha', hb', ?_⟩
  rw [h.currentSamples_eq hwhole smooth]
  split
  case isTrue hplain =>
    rw [hwhole.getElem?_frameSamplesOf hbase hi, ha]
    cases smooth with
    | false => rfl
    | true =>
      have hsame : s.frame = min (s.frame + 1) (s.table.frames - 1) := by
        obtain hsmooth | hone | hsame := hplain
        · cases hsmooth
        · omega
        · exact hsame
      rw [← hsame, ha] at hb
      rw [if_pos rfl, Option.some.inj hb, sub_self, zero_mul, add_zero]
  case isFalse hblend =>
    obtain ⟨hsmooth, -⟩ := not_or.mp hblend
    rw [List.getElem?_zipWith, hwhole.getElem?_frameSamplesOf hbase hi, hwhole.getElem?_frameSamplesOf hnext hi, ha, hb,
      if_pos (Bool.not_eq_false _ ▸ hsmooth)]

theorem Ok.length_currentSamples (h : s.Ok) (hwhole : s.table.Whole) (smooth : Bool) :
    (s.currentSamples smooth).length = frameSamples := by
  obtain ⟨hbase, hnext⟩ := h.frame_lt_frames hwhole
  rw [h.currentSamples_eq hwhole smooth]
  split
  case isTrue => exact hwhole.length_frameSamplesOf hbase
  case isFalse =>
    rw [List.length_zipWith, hwhole.length_frameSamplesOf hbase, hwhole.length_frameSamplesOf hnext, min_self]

/-- In a run whose tables are all decoded from files the cycle drawn has the samples of one cycle, none out of range,
and is the one counted in the foot blended with the next. -/
theorem editor_cycles {table : Wavetable} (htable : table.Decoded) {events : List (EditorEvent ℚ)}
    (hloads : ∀ t, EditorEvent.load t ∈ events → t.Decoded) (smooth : Bool) :
    let s := events.foldl handle (withTable table)
    (s.currentSamples smooth).length = frameSamples ∧ (∀ v ∈ s.currentSamples smooth, |v| ≤ 1) ∧
      ∀ i < frameSamples, ∃ a b, s.table.samples[s.frame * frameSamples + i]? = some a ∧
        s.table.samples[min (s.frame + 1) (s.table.frames - 1) * frameSamples + i]? = some b ∧
        (s.currentSamples smooth)[i]? =
          some (if smooth = true then a + (b - a) * (s.activeCycle - (s.frame : ℚ)) else a) := by
  intro s
  have h : s.Ok := ok_foldl (ok_withTable table) events
  have hwhole : s.table.Whole := whole_foldl htable.whole fun t ht => (hloads t ht).whole
  have hlength := h.length_currentSamples hwhole smooth
  refine ⟨hlength, fun v hv => ?_, fun i hi => ?_⟩
  · obtain ⟨i, hi⟩ := List.mem_iff_getElem?.mp hv
    have hlt : i < frameSamples := hlength ▸ (List.getElem?_eq_some_iff.mp hi).1
    obtain ⟨a, b, -, -, ha, hb, hget⟩ := h.getElem?_currentSamples hwhole smooth hlt
    rw [hi] at hget
    rw [Option.some.inj hget]
    split
    case isTrue =>
      have hfloor := h.floor_activeCycle
      have hnonneg := h.activeCycle_mem.1
      have hfrom : (s.frame : ℚ) ≤ s.activeCycle := hfloor ▸ Nat.floor_le hnonneg
      have hto : s.activeCycle < (s.frame : ℚ) + 1 := hfloor ▸ Nat.lt_floor_add_one s.activeCycle
      exact abs_blend_le ha hb (by linarith) (by linarith)
    case isFalse => exact ha
  · obtain ⟨a, b, ha, hb, -, -, hget⟩ := h.getElem?_currentSamples hwhole smooth hi
    exact ⟨a, b, ha, hb, hget⟩

/-- A table of one cycle for which one of two is loaded, and the knob turned an eighth of the way up it. -/
theorem editor_cycles_sample :
    ∃ s : WavetableEditor ℚ,
      s = [.load (twoCycles.table 64), .pressKnob .position (some 300), .pointerMoved none (some 220) true,
          .released].foldl handle (withTable (IntWav.heldMono.table 64)) ∧
      s.frame = 0 ∧ s.morph = 1 / 8 ∧
      (s.currentSamples true).length = frameSamples ∧ (∀ v ∈ s.currentSamples true, |v| ≤ 1) ∧
      ∀ i < frameSamples, ∃ a b, s.table.samples[s.frame * frameSamples + i]? = some a ∧
        s.table.samples[min (s.frame + 1) (s.table.frames - 1) * frameSamples + i]? = some b ∧
        (s.currentSamples true)[i]? = some (a + (b - a) * (s.activeCycle - (s.frame : ℚ))) := by
  have htwo : (twoCycles.table 64).Decoded := twoCycles.decoded_table (by decide) (by decide)
  have hone : (IntWav.heldMono.table 64).Decoded := IntWav.heldMono.decoded_table (by decide) (by decide)
  have h := @editor_cycles (IntWav.heldMono.table 64) hone
    [.load (twoCycles.table 64), .pressKnob .position (some 300), .pointerMoved none (some 220) true, .released]
    (fun t ht => by
      obtain rfl : t = twoCycles.table 64 := by simpa using ht
      exact htwo) true
  exact ⟨_, rfl, by decide +kernel, by decide +kernel, h.1, h.2.1, h.2.2⟩

end WavetableEditor

end HikaruOpenLive.Gui
