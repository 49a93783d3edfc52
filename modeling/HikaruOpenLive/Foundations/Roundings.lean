import Mathlib.Algebra.Order.Floor.Ring
import Mathlib.Algebra.Order.Floor.Semiring
import Mathlib.Tactic.Linarith

/-! # Three roundings of one number

A number rounded down, up and to the nearest integer, a half upwards: which of the integers next to it
each gives is a matter of its fractional part, and so is when two of them agree.
-/
set_option autoImplicit false

namespace HikaruOpenLive.Foundations.Roundings

variable {K : Type*} [Field K] [LinearOrder K] [IsStrictOrderedRing K] [FloorRing K]

/-! ## Integers -/

theorem floor_add_half (x : K) :
    ⌊x + 1 / 2⌋ = if Int.fract x < 1 / 2 then ⌊x⌋ else ⌊x⌋ + 1 := by
  have hfract := Int.fract_nonneg x
  have hone := Int.fract_lt_one x
  have hx : (⌊x⌋ : K) + Int.fract x = x := Int.floor_add_fract x
  split
  case isTrue h =>
    rw [Int.floor_eq_iff]
    exact ⟨by linarith, by linarith⟩
  case isFalse h =>
    rw [Int.floor_eq_iff]
    push_cast
    exact ⟨by linarith, by linarith⟩

theorem ceil_eq_floor (x : K) : ⌈x⌉ = if Int.fract x = 0 then ⌊x⌋ else ⌊x⌋ + 1 := by
  have hone := Int.fract_lt_one x
  have hx : (⌊x⌋ : K) + Int.fract x = x := Int.floor_add_fract x
  rw [Int.ceil_eq_iff]
  split
  case isTrue h => exact ⟨by linarith, by linarith⟩
  case isFalse h =>
    have hpos : 0 < Int.fract x := lt_of_le_of_ne (Int.fract_nonneg x) (Ne.symm h)
    push_cast
    exact ⟨by linarith, by linarith⟩

theorem ceil_sub_half (x : K) :
    ⌈x - 1 / 2⌉ = if 1 / 2 < Int.fract x then ⌊x⌋ + 1 else ⌊x⌋ := by
  have hfract := Int.fract_nonneg x
  have hone := Int.fract_lt_one x
  have hx : (⌊x⌋ : K) + Int.fract x = x := Int.floor_add_fract x
  rw [Int.ceil_eq_iff]
  split
  case isTrue h =>
    push_cast
    exact ⟨by linarith, by linarith⟩
  case isFalse h => exact ⟨by linarith, by linarith⟩

theorem floor_eq_ceil_iff (x : K) : ⌊x⌋ = ⌈x⌉ ↔ Int.fract x = 0 := by
  rw [ceil_eq_floor]
  by_cases h : Int.fract x = 0
  · rw [if_pos h]
    exact iff_of_true rfl h
  · rw [if_neg h]
    exact iff_of_false (by omega) h

theorem ceil_sub_half_eq_ceil_iff (x : K) :
    ⌈x - 1 / 2⌉ = ⌈x⌉ ↔ Int.fract x = 0 ∨ 1 / 2 < Int.fract x := by
  rw [ceil_sub_half, ceil_eq_floor]
  by_cases hzero : Int.fract x = 0
  · have hhalf : ¬1 / 2 < Int.fract x := by
      rw [hzero]
      norm_num
    rw [if_pos hzero, if_neg hhalf]
    exact iff_of_true rfl (Or.inl hzero)
  · rw [if_neg hzero]
    by_cases hhalf : 1 / 2 < Int.fract x
    · rw [if_pos hhalf]
      exact iff_of_true rfl (Or.inr hhalf)
    · rw [if_neg hhalf]
      refine iff_of_false (by omega) ?_
      rintro (h | h)
      · exact hzero h
      · exact hhalf h

/-! ## Rounding down -/

/-- Twice what a number has over an integer is less than one, or the number is negative and stands for
none. -/
def RoundsDown (x : K) : Prop :=
  x < 0 ∨ Int.fract x + Int.fract x < 1

/-- The integer nearest to a number from zero on is the integer part or the one after it. -/
theorem round_eq {x : K} (hx : 0 ≤ x) : (RoundsDown x → ⌊x + 1 / 2⌋ = ⌊x⌋) ∧
    (¬RoundsDown x → ⌊x + 1 / 2⌋ = ⌊x⌋ + 1) := by
  rw [floor_add_half]
  constructor
  · rintro (hneg | hfract)
    · exact absurd hneg (not_lt.mpr hx)
    · have hhalf : Int.fract x < 1 / 2 := by linarith
      rw [if_pos hhalf]
  · intro h
    have hhalf : ¬Int.fract x < 1 / 2 := fun hfract => h (Or.inr (by linarith))
    rw [if_neg hhalf]

/-- The nearest natural number is the integer part or the one after it. -/
theorem natRound_eq (x : K) : (RoundsDown x → ⌊x + 1 / 2⌋₊ = ⌊max x 0⌋₊) ∧
    (¬RoundsDown x → ⌊x + 1 / 2⌋₊ = ⌊max x 0⌋₊ + 1) := by
  rcases lt_or_ge x 0 with hneg | hpos
  · have hround : ⌊x + 1 / 2⌋₊ = 0 := Nat.floor_eq_zero.mpr (by linarith)
    have hfloor : ⌊max x 0⌋₊ = 0 := by rw [max_eq_right hneg.le, Nat.floor_zero]
    exact ⟨fun _ => by rw [hround, hfloor], fun h => absurd (Or.inl hneg) h⟩
  · have hfloor : 0 ≤ ⌊x⌋ := Int.floor_nonneg.mpr hpos
    rw [max_eq_left hpos, ← Int.floor_toNat, ← Int.floor_toNat]
    constructor
    · intro h
      rw [(round_eq hpos).1 h]
    · intro h
      rw [(round_eq hpos).2 h]
      omega

theorem natRound_eq_iff (x : K) : ⌊x + 1 / 2⌋₊ = ⌊max x 0⌋₊ ↔ RoundsDown x := by
  constructor
  · intro heq
    by_contra h
    have := (natRound_eq x).2 h
    omega
  · exact (natRound_eq x).1

theorem natFloor_eq_zero_iff (x : K) : ⌊max x 0⌋₊ = 0 ↔ x < 1 := by
  rw [Nat.floor_eq_zero, max_lt_iff]
  exact ⟨fun h => h.1, fun h => ⟨h, one_pos⟩⟩

end HikaruOpenLive.Foundations.Roundings
