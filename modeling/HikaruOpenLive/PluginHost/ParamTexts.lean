import Mathlib.Data.Rat.Floor
import Mathlib.Tactic.FieldSimp
import Mathlib.Tactic.Linarith
import Mathlib.Tactic.Positivity
import HikaruOpenLive.PluginHost.ParamPoll

/-! # Values of parameters and their texts

`snap` puts a value on the step it belongs to, and the text of a value is made from the value itself. A
stepped value is rounded for its text as it is for the plugin. A switch is not: its text changes at one
half, and the value that is sent already changes from 0 to one half at one quarter.
-/
set_option autoImplicit false

namespace HikaruOpenLive.PluginHost

/-! ## Numbers as texts -/

def roundHalfEven (x : ℚ) : ℤ :=
  let rest := x - ⌊x⌋
  if rest < 1 / 2 then ⌊x⌋
  else if 1 / 2 < rest then ⌊x⌋ + 1
  else if ⌊x⌋ % 2 = 0 then ⌊x⌋
  else ⌊x⌋ + 1

/-- `{:.decimals}`. -/
def fixedText (decimals : ℕ) (x : ℚ) : String :=
  let n := (roundHalfEven (|x| * 10 ^ decimals)).toNat
  let sign := if x < 0 then "-" else ""
  let whole := sign ++ toString (n / 10 ^ decimals)
  if decimals = 0 then whole
  else
    let digits := toString (n % 10 ^ decimals)
    whole ++ "." ++ String.ofList (List.replicate (decimals - digits.length) '0') ++ digits

namespace PluginParamInfo

def isBoolean (info : PluginParamInfo) : Bool :=
  info.stepCount = 2

def isDiscrete (info : PluginParamInfo) : Bool :=
  1 < info.stepCount

/-- The step a value between 0 and 1 is nearest to, a half upwards. -/
def stepOf (info : PluginParamInfo) (n : ℚ) : ℤ :=
  ⌊n * info.stepCount + 1 / 2⌋

def displayValue (info : PluginParamInfo) (normalized : ℚ) : String :=
  let n := clampUnit normalized
  if info.isBoolean then if 1 / 2 ≤ n then "On" else "Off"
  else if info.isDiscrete then
    let plain := info.min + info.stepOf n / info.stepCount * (info.max - info.min)
    if info.unit = "" then fixedText 0 plain else fixedText 0 plain ++ " " ++ info.unit
  else if info.unit = "" then fixedText 1 (n * 100) ++ "%"
  else fixedText 2 (info.min + n * (info.max - info.min)) ++ " " ++ info.unit

/-- The value on its step; a continuous one stays. -/
def snap (info : PluginParamInfo) (normalized : ℚ) : ℚ :=
  let n := clampUnit normalized
  if info.isDiscrete then clampUnit (info.stepOf n / info.stepCount) else n

/-- What snapping and texts are to satisfy. -/
structure SnapLaws (info : PluginParamInfo) (a b : ℚ) : Prop where
  mem : 0 ≤ info.snap a ∧ info.snap a ≤ 1
  idempotent : info.snap (info.snap a) = info.snap a
  monotone : a ≤ b → info.snap a ≤ info.snap b
  text : info.displayValue (info.snap a) = info.displayValue a

/-! ## Steps -/

section

variable {info : PluginParamInfo}

theorem clampUnit_mono {x y : ℚ} (h : x ≤ y) : clampUnit x ≤ clampUnit y :=
  max_le_max_left 0 (min_le_min_right 1 h)

theorem snap_mem (info : PluginParamInfo) (a : ℚ) : 0 ≤ info.snap a ∧ info.snap a ≤ 1 := by
  unfold snap
  split
  · exact clampUnit_mem _
  · exact clampUnit_mem _

theorem one_lt_stepCount (h : info.isDiscrete = true) : (1 : ℚ) < info.stepCount := by
  exact_mod_cast of_decide_eq_true h

/-- The nearest step is one of the steps. -/
theorem stepOf_mem (h : info.isDiscrete = true) {n : ℚ} (hn : 0 ≤ n ∧ n ≤ 1) :
    0 ≤ info.stepOf n ∧ info.stepOf n ≤ info.stepCount := by
  have hcount := one_lt_stepCount h
  unfold stepOf
  constructor
  · refine Int.floor_nonneg.mpr ?_
    have hprod : 0 ≤ n * info.stepCount := mul_nonneg hn.1 (by linarith)
    linarith
  · have hle : n * info.stepCount + 1 / 2 < ((info.stepCount + 1 : ℤ) : ℚ) := by
      have hprod : n * info.stepCount ≤ 1 * info.stepCount :=
        mul_le_mul_of_nonneg_right hn.2 (by linarith)
      push_cast
      linarith
    exact Int.lt_add_one_iff.mp (Int.floor_lt.mpr hle)

theorem snap_discrete (h : info.isDiscrete = true) (a : ℚ) :
    info.snap a = info.stepOf (clampUnit a) / info.stepCount := by
  have hcount := one_lt_stepCount h
  obtain ⟨hlo, hhi⟩ := stepOf_mem h (clampUnit_mem a)
  have hlo' : (0 : ℚ) ≤ info.stepOf (clampUnit a) := by exact_mod_cast hlo
  have hhi' : (info.stepOf (clampUnit a) : ℚ) ≤ info.stepCount := by exact_mod_cast hhi
  rw [snap, if_pos h]
  exact clampUnit_of_mem (div_nonneg hlo' (by linarith)) ((div_le_one (by linarith)).mpr hhi')

theorem snap_continuous (h : ¬ info.isDiscrete = true) (a : ℚ) : info.snap a = clampUnit a :=
  if_neg h

/-- A step is nearest to itself. -/
theorem stepOf_div (h : info.isDiscrete = true) (k : ℤ) : info.stepOf (k / info.stepCount) = k := by
  have hcount := one_lt_stepCount h
  have hne : (info.stepCount : ℚ) ≠ 0 := by linarith
  rw [stepOf, div_mul_cancel₀ _ hne, Int.floor_eq_iff]
  constructor
  · linarith
  · linarith

theorem stepOf_snap (h : info.isDiscrete = true) (a : ℚ) :
    info.stepOf (info.snap a) = info.stepOf (clampUnit a) := by
  rw [snap_discrete h, stepOf_div h]

theorem clampUnit_snap (info : PluginParamInfo) (a : ℚ) : clampUnit (info.snap a) = info.snap a :=
  clampUnit_of_mem (info.snap_mem a).1 (info.snap_mem a).2

theorem snap_snap (info : PluginParamInfo) (a : ℚ) : info.snap (info.snap a) = info.snap a := by
  by_cases h : info.isDiscrete = true
  · rw [snap_discrete h (info.snap a), clampUnit_snap, stepOf_snap h, ← snap_discrete h]
  · rw [snap_continuous h (info.snap a), clampUnit_snap]

theorem snap_mono (info : PluginParamInfo) {a b : ℚ} (h : a ≤ b) : info.snap a ≤ info.snap b := by
  have hclamp := clampUnit_mono h
  by_cases hdiscrete : info.isDiscrete = true
  · have hcount := one_lt_stepCount hdiscrete
    have hstep : info.stepOf (clampUnit a) ≤ info.stepOf (clampUnit b) := by
      refine Int.floor_le_floor ?_
      have hprod := mul_le_mul_of_nonneg_right hclamp (show (0 : ℚ) ≤ info.stepCount by linarith)
      linarith
    rw [snap_discrete hdiscrete, snap_discrete hdiscrete]
    exact div_le_div_of_nonneg_right (by exact_mod_cast hstep) (by linarith)
  · rw [snap_continuous hdiscrete, snap_continuous hdiscrete]
    exact hclamp

/-! ## Texts -/

theorem le_clampUnit_iff {x bound : ℚ} (hpos : 0 < bound) (hle : bound ≤ 1) :
    bound ≤ clampUnit x ↔ bound ≤ x := by
  rw [clampUnit, le_max_iff, le_min_iff]
  constructor
  · rintro (h | h)
    · linarith
    · exact h.1
  · exact fun h => Or.inr ⟨h, hle⟩

theorem displayValue_boolean (h : info.isBoolean = true) (a : ℚ) :
    info.displayValue a = if 1 / 2 ≤ clampUnit a then "On" else "Off" :=
  if_pos h

/-- A switch is sent as on from one quarter. -/
theorem half_le_snap_iff (h : info.isBoolean = true) (a : ℚ) : 1 / 2 ≤ info.snap a ↔ 1 / 4 ≤ a := by
  have hcount : info.stepCount = 2 := of_decide_eq_true h
  have hdiscrete : info.isDiscrete = true := decide_eq_true (by omega)
  have hstep : 1 ≤ info.stepOf (clampUnit a) ↔ 1 / 4 ≤ clampUnit a := by
    rw [stepOf, Int.le_floor, hcount]
    push_cast
    constructor
    · intro hle
      linarith
    · intro hle
      linarith
  rw [← le_clampUnit_iff (x := a) (by norm_num) (by norm_num), ← hstep, snap_discrete hdiscrete, hcount]
  push_cast
  rw [div_le_div_iff_of_pos_right (by norm_num)]
  exact_mod_cast Iff.rfl

/-- The text of a switch is that of the value sent, but between a quarter and a half. -/
theorem text_boolean_iff (h : info.isBoolean = true) (a : ℚ) :
    info.displayValue (info.snap a) = info.displayValue a ↔ ¬ (1 / 4 ≤ a ∧ a < 1 / 2) := by
  have hsent := half_le_snap_iff h a
  have hraw : 1 / 2 ≤ clampUnit a ↔ 1 / 2 ≤ a := le_clampUnit_iff (by norm_num) (by norm_num)
  rw [displayValue_boolean h, displayValue_boolean h, clampUnit_snap]
  by_cases hquarter : 1 / 4 ≤ a
  · by_cases hhalf : 1 / 2 ≤ a
    · rw [if_pos (hsent.mpr hquarter), if_pos (hraw.mpr hhalf)]
      exact ⟨fun _ hside => absurd hside.2 (by linarith), fun _ => rfl⟩
    · rw [if_pos (hsent.mpr hquarter), if_neg (mt hraw.mp hhalf)]
      exact ⟨fun heq => absurd heq (by decide), fun hside => absurd ⟨hquarter, by linarith⟩ hside⟩
  · have hhalf : ¬ 1 / 2 ≤ a := fun hle => hquarter (by linarith)
    rw [if_neg (mt hsent.mp hquarter), if_neg (mt hraw.mp hhalf)]
    exact ⟨fun _ hside => hquarter hside.1, fun _ => rfl⟩

theorem text_other (h : ¬ info.isBoolean = true) (a : ℚ) :
    info.displayValue (info.snap a) = info.displayValue a := by
  unfold displayValue
  rw [if_neg h, if_neg h, clampUnit_snap]
  by_cases hdiscrete : info.isDiscrete = true
  · rw [if_pos hdiscrete, if_pos hdiscrete, stepOf_snap hdiscrete]
  · rw [if_neg hdiscrete, if_neg hdiscrete, snap_continuous hdiscrete]

end

/-- When a value obeys the laws: always, but for a switch between a quarter and a half. -/
theorem snapLaws_iff (info : PluginParamInfo) (a b : ℚ) :
    info.SnapLaws a b ↔ ¬ (info.isBoolean = true ∧ 1 / 4 ≤ a ∧ a < 1 / 2) := by
  have htext : info.displayValue (info.snap a) = info.displayValue a ↔
      ¬ (info.isBoolean = true ∧ 1 / 4 ≤ a ∧ a < 1 / 2) := by
    by_cases h : info.isBoolean = true
    · rw [text_boolean_iff h, and_iff_right h]
    · exact ⟨fun _ hside => h hside.1, fun _ => text_other h a⟩
  rw [← htext]
  exact ⟨fun h => h.text, fun h => ⟨info.snap_mem a, info.snap_snap a, info.snap_mono, h⟩⟩

/-- A bypass switch at three tenths says that it is off, and one half is sent. -/
theorem switch_text_differs :
    let bypass : PluginParamInfo :=
      { id := 1, name := "Bypass", unit := "", min := 0, max := 1, defaultValue := 0, stepCount := 2
        canAutomate := true }
    bypass.displayValue (3 / 10) = "Off" ∧ bypass.snap (3 / 10) = 1 / 2 ∧
      bypass.displayValue (1 / 2) = "On" ∧ ¬ bypass.SnapLaws (3 / 10) (3 / 10) := by
  intro bypass
  have hoff : bypass.displayValue (3 / 10) = "Off" := by decide +kernel
  have hsnap : bypass.snap (3 / 10) = 1 / 2 := by decide +kernel
  have hon : bypass.displayValue (1 / 2) = "On" := by decide +kernel
  refine ⟨hoff, hsnap, hon, fun h => ?_⟩
  have htext := h.text
  rw [hsnap, hon, hoff] at htext
  exact absurd htext (by decide)

end PluginParamInfo

end HikaruOpenLive.PluginHost
