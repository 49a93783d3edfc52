import Mathlib.Data.Nat.ModEq

/-! # Positions folded into a window

`fold start stop pos` leaves a position below `stop` where it is and folds every later one back into
the window `[start, stop)`. Advancing and folding can be done in any portions (`fold_add`). The
window can also be entered at the phase of the position itself, `start + pos % (stop - start)`:
`fold_eq_phase_iff` says when the two are the same position.
-/
set_option autoImplicit false

namespace HikaruOpenLive.Foundations.CyclicWindow

/-- The position, or its place in the window once it has reached the window's end. -/
def fold (start stop pos : ℕ) : ℕ :=
  if pos < stop then pos else start + (pos - start) % (stop - start)

theorem fold_of_lt {start stop pos : ℕ} (h : pos < stop) : fold start stop pos = pos :=
  if_pos h

theorem fold_of_le {start stop pos : ℕ} (h : stop ≤ pos) :
    fold start stop pos = start + (pos - start) % (stop - start) :=
  if_neg (by omega)

/-- Folding on the way does not change where a later fold arrives. -/
theorem fold_add {start stop : ℕ} (h : start < stop) (a b : ℕ) :
    fold start stop (fold start stop a + b) = fold start stop (a + b) := by
  by_cases ha : a < stop
  · rw [fold_of_lt ha]
  · have hle : stop ≤ a := by omega
    rw [fold_of_le hle, fold_of_le (show stop ≤ a + b by omega)]
    set len := stop - start
    have hlen : (a + b - start) % len = ((a - start) % len + b) % len := by
      rw [Nat.mod_add_mod]
      congr 1
      omega
    have hmod := Nat.mod_lt (a - start) (show 0 < len by omega)
    by_cases hb : start + (a - start) % len + b < stop
    · have hsmall : (a - start) % len + b < len := by omega
      rw [fold_of_lt hb, hlen, Nat.mod_eq_of_lt hsmall]
      omega
    · rw [fold_of_le (by omega), hlen]
      congr 2
      omega

theorem fold_from_end {start stop pos : ℕ} (hle : start ≤ stop) (h : stop ≤ pos) :
    fold start stop pos = start + (pos - stop) % (stop - start) := by
  have hpos : pos - start = pos - stop + (stop - start) := by omega
  rw [fold_of_le h, hpos, Nat.add_mod_right]

/-- Entering the window at the position's own phase is the fold precisely when the window begins at
a multiple of its length and the position has reached it. -/
theorem fold_eq_phase_iff {start len : ℕ} (hlen : 0 < len) (pos : ℕ) :
    fold start (start + len) pos = start + pos % len ↔ len ∣ start ∧ start ≤ pos := by
  have hphase : ∀ r, start ≤ pos → (r = pos % len ↔ r = (pos - start + start) % len) := by
    intro r hle
    rw [Nat.sub_add_cancel hle]
  have hdvd : start ≤ pos → ((pos - start) % len = pos % len ↔ len ∣ start) := by
    intro hle
    rw [hphase _ hle]
    constructor
    · intro h
      exact (Nat.modEq_zero_iff_dvd).mp (Nat.ModEq.add_left_cancel' (pos - start) (h.symm))
    · intro h
      rw [Nat.add_mod, Nat.mod_eq_zero_of_dvd h, Nat.add_zero, Nat.mod_mod]
  by_cases hpos : pos < start + len
  · rw [fold_of_lt hpos]
    by_cases hle : start ≤ pos
    · have hself : (pos - start) % len = pos - start := Nat.mod_eq_of_lt (by omega)
      have := hdvd hle
      omega
    · constructor
      · intro h
        omega
      · intro h
        omega
  · have hle : start ≤ pos := by omega
    rw [fold_of_le (by omega), Nat.add_sub_cancel_left, Nat.add_right_inj, hdvd hle]
    exact ⟨fun h => ⟨h, hle⟩, fun h => h.1⟩

/-- Positions less than a turn apart fall on different places. -/
theorem mod_ne_mod {a b n : ℕ} (hlt : a < b) (hturn : b < a + n) : a % n ≠ b % n := by
  intro h
  have hdvd : n ∣ b - a := (Nat.modEq_iff_dvd' hlt.le).mp h
  have hle := Nat.le_of_dvd (by omega) hdvd
  omega

end HikaruOpenLive.Foundations.CyclicWindow
