import Mathlib.Algebra.Order.Ring.Int

/-! # Saturating sums

A sum of machine integers that stays at the end of its range instead of passing it. `addUp w` adds
words of `w` bits; `within lo hi` takes an integer to the nearest one of a range, so a saturating sum
of signed integers is `within lo hi (a + b)`. Differences of words are those of `ℕ`. A sum that is to
stay in the range, and is nothing where it would leave it, is `checked lo hi (a + b)`.
-/
set_option autoImplicit false

namespace HikaruOpenLive.Foundations.Saturating

/-! ## Words -/

def addUp (w a b : ℕ) : ℕ :=
  min (a + b) (2 ^ w - 1)

theorem addUp_of_lt {w a b : ℕ} (h : a + b < 2 ^ w) : addUp w a b = a + b :=
  min_eq_left (by omega)

theorem addUp_of_le {w a b : ℕ} (h : 2 ^ w ≤ a + b) : addUp w a b = 2 ^ w - 1 :=
  min_eq_right (by omega)

theorem addUp_le (w a b : ℕ) : addUp w a b ≤ a + b :=
  min_le_left _ _

theorem addUp_mono {w a b c : ℕ} (h : b ≤ c) : addUp w a b ≤ addUp w a c :=
  min_le_min (by omega) le_rfl

/-! ## Signed ranges -/

/-- The integer of the range `[lo, hi]` nearest to `x`. -/
def within (lo hi x : ℤ) : ℤ :=
  max lo (min x hi)

variable {lo hi x : ℤ}

theorem within_of_mem (hlo : lo ≤ x) (hhi : x ≤ hi) : within lo hi x = x := by
  rw [within, min_eq_left hhi, max_eq_right hlo]

/-- An integer of the range `[lo, hi]`, and nothing for any other. -/
def checked (lo hi x : ℤ) : Option ℤ :=
  if lo ≤ x ∧ x ≤ hi then some x else none

/-- Something added to a saturated integer overflows exactly when it would without the saturation. -/
theorem checked_within_add {k : ℤ} (hk : 0 < k) (hlo : lo ≤ x) :
    checked lo hi (within lo hi x + k) = if x + k ≤ hi then some (x + k) else none := by
  unfold checked within
  by_cases h : x + k ≤ hi
  · rw [min_eq_left (by omega), max_eq_right hlo, if_pos ⟨by omega, h⟩, if_pos h]
  · rw [if_neg h, if_neg]
    rintro ⟨-, hsum⟩
    have := le_max_right lo (min x hi)
    omega

theorem checked_within_sub {k : ℤ} (hk : 0 ≤ k) (hlo : lo + k ≤ x) (hhi : lo + k ≤ hi) :
    checked lo hi (within lo hi x - k) = some (min x hi - k) := by
  unfold checked within
  rw [max_eq_right (le_min (by omega) (by omega)), if_pos ⟨by omega, by omega⟩]

end HikaruOpenLive.Foundations.Saturating
