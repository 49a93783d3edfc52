import HikaruOpenLive.Foundations.CyclicWindow
import Mathlib.Algebra.Order.Floor.Ring
import Mathlib.Algebra.Order.Field.Basic
import Mathlib.Tactic.Linarith
import Mathlib.Tactic.Ring

/-! # Delay lines

Cells written in turn, each over the oldest one. `Remembers` says what they hold: the values written last,
the one `d` before the newest found by counting back from the place of the next write. The history itself has
no bound, so a processor over the cells is compared with one that forgets nothing.

`floor_readPlace` is for delays that are no whole number of cells: which cell the reading place falls in, and
how far into it.
-/
set_option autoImplicit false

namespace HikaruOpenLive.Foundations.DelayLines

variable {α : Type}

/-- The cells hold the last values of `past`, whose newest is first; a cell never written holds `fresh`. -/
structure Remembers (size : ℕ) (fresh : α) (cells : List α) (pos : ℕ) (past : List α) : Prop where
  length : cells.length = size
  pos_lt : pos < size
  back : ∀ d, d < size → cells.getD ((pos + (size - 1 - d)) % size) fresh = past.getD d fresh

theorem remembers_fresh {size : ℕ} (h : 0 < size) (fresh : α) :
    Remembers size fresh (List.replicate size fresh) 0 [] := by
  refine ⟨List.length_replicate, h, ?_⟩
  intro d _
  rw [List.getD_eq_getElem?_getD, List.getElem?_replicate_of_lt (Nat.mod_lt _ h), List.getD_nil]
  rfl

/-- A write forgets the oldest value and no other. -/
theorem Remembers.write {size pos : ℕ} {fresh : α} {cells past : List α}
    (h : Remembers size fresh cells pos past) (x : α) :
    Remembers size fresh (cells.set pos x) ((pos + 1) % size) (x :: past) := by
  have hsize : 0 < size := Nat.lt_of_le_of_lt (Nat.zero_le pos) h.pos_lt
  refine ⟨(List.length_set).trans h.length, Nat.mod_lt _ hsize, ?_⟩
  intro d hd
  rw [Nat.mod_add_mod]
  cases d with
  | zero =>
    have hplace : (pos + 1 + (size - 1 - 0)) % size = pos := by
      have hturn : pos + 1 + (size - 1 - 0) = pos + size := by omega
      rw [hturn, Nat.add_mod_right, Nat.mod_eq_of_lt h.pos_lt]
    rw [hplace, List.getD_eq_getElem?_getD, List.getElem?_set_self (h.length.symm ▸ h.pos_lt)]
    rfl
  | succ d =>
    have hturn : pos + 1 + (size - 1 - (d + 1)) = pos + (size - 1 - d) := by omega
    have hne : pos ≠ (pos + (size - 1 - d)) % size := by
      have := CyclicWindow.mod_ne_mod (a := pos) (b := pos + (size - 1 - d)) (n := size) (by omega) (by omega)
      rwa [Nat.mod_eq_of_lt h.pos_lt] at this
    rw [hturn, List.getD_eq_getElem?_getD, List.getElem?_set_ne hne, ← List.getD_eq_getElem?_getD,
      h.back d (by omega), List.getD_cons_succ]

/-- What a reader finds who counts `d + 1` cells back. -/
theorem Remembers.read {size pos d place : ℕ} {fresh : α} {cells past : List α}
    (h : Remembers size fresh cells pos past) (hd : d < size)
    (hplace : place = (pos + (size - (d + 1))) % size) : cells.getD place fresh = past.getD d fresh := by
  rw [hplace, ← h.back d hd, Nat.sub_sub, Nat.add_comm 1 d]

/-! ## Delays between two cells -/

section Fractional

variable {K : Type} [Field K] [LinearOrder K] [IsStrictOrderedRing K] [FloorRing K]

/-- The place `delay` before `pos`, on a line that closes after `size`. -/
def readPlace (size pos : ℕ) (delay : K) : K :=
  if delay ≤ pos then pos - delay else pos - delay + size

/-- The cell of the reading place is as many back as the delay rounded up. -/
theorem floor_readPlace {size pos : ℕ} (hpos : pos < size) {delay : K} (hlow : 0 < delay)
    (hhigh : delay ≤ size) :
    ⌊readPlace size pos delay⌋₊ = (pos + (size - ⌈delay⌉₊)) % size ∧
      readPlace size pos delay - ⌊readPlace size pos delay⌋₊ = ⌈delay⌉₊ - delay := by
  have hceil : ⌈delay⌉₊ ≤ size := Nat.ceil_le.mpr hhigh
  have hle : delay ≤ (⌈delay⌉₊ : K) := Nat.le_ceil delay
  have hlt : (⌈delay⌉₊ : K) < delay + 1 := Nat.ceil_lt_add_one hlow.le
  have hpositive : 0 < ⌈delay⌉₊ := Nat.ceil_pos.mpr hlow
  unfold readPlace
  by_cases h : delay ≤ pos
  · have hback : ⌈delay⌉₊ ≤ pos := Nat.ceil_le.mpr h
    have hfloor : ⌊(pos : K) - delay⌋₊ = pos - ⌈delay⌉₊ := by
      rw [Nat.floor_eq_iff (by linarith), Nat.cast_sub hback]
      constructor <;> linarith
    rw [if_pos h, hfloor, Nat.cast_sub hback]
    constructor
    · have hturn : pos + (size - ⌈delay⌉₊) = pos - ⌈delay⌉₊ + size := by omega
      rw [hturn, Nat.add_mod_right, Nat.mod_eq_of_lt (by omega)]
    · ring
  · have hpast : pos < ⌈delay⌉₊ := Nat.lt_ceil.mpr (not_le.mp h)
    have hnonneg : (0 : K) ≤ pos := Nat.cast_nonneg pos
    have hcast : ((pos + (size - ⌈delay⌉₊) : ℕ) : K) = pos + (size - ⌈delay⌉₊) := by
      rw [Nat.cast_add, Nat.cast_sub hceil]
    have hfloor : ⌊(pos : K) - delay + size⌋₊ = pos + (size - ⌈delay⌉₊) := by
      rw [Nat.floor_eq_iff (by linarith), hcast]
      constructor <;> linarith
    rw [if_neg h, hfloor, hcast]
    constructor
    · rw [Nat.mod_eq_of_lt (by omega)]
    · ring

end Fractional

end HikaruOpenLive.Foundations.DelayLines
