import Mathlib.Data.Nat.ModEq
import Mathlib.Data.List.GetD
import Mathlib.Algebra.BigOperators.Group.List.Basic

/-! # Overlapping frames

Frames start at different times and last as long as their lists; where several sound at once, what is `heard`
is their sum. A ring of cells gives the same one value at a time: a frame is added to the cells from the
reading place on, and a cell is cleared when it has been read. `Awaits` says what the cells hold: all that is
still to be heard, none of it further ahead than the ring is long.
-/
set_option autoImplicit false

namespace HikaruOpenLive.Foundations.OverlapAdd

variable {K : Type} [AddCommMonoid K]

/-- What a frame that starts at `start` gives at `n`. -/
def sounds (start : ℕ) (frame : List K) (n : ℕ) : K :=
  if start ≤ n then frame.getD (n - start) 0 else 0

def heard (frames : List (ℕ × List K)) (n : ℕ) : K :=
  (frames.map fun f => sounds f.1 f.2 n).sum

theorem sounds_before {start n : ℕ} (h : n < start) (frame : List K) : sounds start frame n = 0 :=
  if_neg (by omega)

theorem sounds_after {start n : ℕ} {frame : List K} (h : start + frame.length ≤ n) :
    sounds start frame n = 0 := by
  rw [sounds, if_pos (by omega), List.getD_eq_default _ _ (by omega)]

theorem heard_append (frames frames' : List (ℕ × List K)) (n : ℕ) :
    heard (frames ++ frames') n = heard frames n + heard frames' n := by
  rw [heard, List.map_append, List.sum_append]
  rfl

theorem heard_singleton (start : ℕ) (frame : List K) (n : ℕ) :
    heard [(start, frame)] n = sounds start frame n := by
  rw [heard, List.map_singleton, List.sum_singleton]

/-! ## The ring -/

/-- The frame added to the cells from `pos` on. -/
def addFrame (size : ℕ) : List K → ℕ → List K → List K
  | cells, _, [] => cells
  | cells, pos, x :: xs =>
    addFrame size (cells.set (pos % size) (cells.getD (pos % size) 0 + x)) (pos + 1) xs

theorem length_addFrame (size : ℕ) (cells : List K) (pos : ℕ) (frame : List K) :
    (addFrame size cells pos frame).length = cells.length := by
  induction frame generalizing cells pos with
  | nil => rfl
  | cons x xs ih => rw [addFrame, ih, List.length_set]

/-- A frame no longer than the ring goes once over each cell it reaches. -/
theorem getD_addFrame {size : ℕ} {cells : List K} (hcells : cells.length = size) {frame : List K}
    (hframe : frame.length ≤ size) (pos : ℕ) {i : ℕ} (hi : i < size) :
    (addFrame size cells pos frame).getD ((pos + i) % size) 0 =
      cells.getD ((pos + i) % size) 0 + frame.getD i 0 := by
  have hsize : 0 < size := by omega
  induction frame generalizing cells pos i with
  | nil => rw [addFrame, List.getD_nil, add_zero]
  | cons x xs ih =>
    have hlength : (cells.set (pos % size) (cells.getD (pos % size) 0 + x)).length = size := by
      rw [List.length_set, hcells]
    have hshort : xs.length ≤ size := by
      rw [List.length_cons] at hframe
      omega
    rw [addFrame]
    cases i with
    | zero =>
      -- the first cell is the one the rest would come back to last
      have hturn : (pos + 1 + (size - 1)) % size = pos % size := by
        have : pos + 1 + (size - 1) = pos + size := by omega
        rw [this, Nat.add_mod_right]
      have hrest : xs.getD (size - 1) 0 = 0 := by
        rw [List.length_cons] at hframe
        exact List.getD_eq_default _ _ (by omega)
      have hstep := ih hlength hshort (pos + 1) (i := size - 1) (by omega)
      rw [hturn, hrest, add_zero] at hstep
      show (addFrame size (cells.set (pos % size) (cells.getD (pos % size) 0 + x)) (pos + 1) xs).getD
        (pos % size) 0 = cells.getD (pos % size) 0 + x
      rw [hstep, List.getD_eq_getElem?_getD,
        List.getElem?_set_self (by rw [hcells]; exact Nat.mod_lt _ hsize)]
      rfl
    | succ i =>
      have hturn : pos + (i + 1) = pos + 1 + i := by omega
      have hne : pos % size ≠ (pos + 1 + i) % size := by
        intro h
        have hdvd : size ∣ pos + 1 + i - pos := (Nat.modEq_iff_dvd' (by omega)).mp h
        have := Nat.le_of_dvd (by omega) hdvd
        omega
      rw [hturn, ih hlength hshort (pos + 1) (i := i) (by omega), List.getD_cons_succ,
        List.getD_eq_getElem?_getD, List.getElem?_set_ne hne, ← List.getD_eq_getElem?_getD]

/-- The cells from `pos` on hold what is pending, and nothing is pending beyond them. -/
structure Awaits (size : ℕ) (cells : List K) (pos : ℕ) (pending : ℕ → K) : Prop where
  length : cells.length = size
  pos_lt : pos < size
  ahead : ∀ i, i < size → cells.getD ((pos + i) % size) 0 = pending i
  beyond : ∀ i, size ≤ i → pending i = 0

theorem awaits_fresh {size : ℕ} (h : 0 < size) :
    Awaits size (List.replicate size (0 : K)) 0 fun _ => 0 := by
  refine ⟨List.length_replicate, h, ?_, fun _ _ => rfl⟩
  intro i _
  rw [List.getD_eq_getElem?_getD, List.getElem?_replicate_of_lt (Nat.mod_lt _ h)]
  rfl

variable {size pos : ℕ} {cells : List K} {pending : ℕ → K}

theorem Awaits.head (h : Awaits size cells pos pending) : cells.getD pos 0 = pending 0 := by
  have hsize : 0 < size := Nat.lt_of_le_of_lt (Nat.zero_le pos) h.pos_lt
  rw [← h.ahead 0 hsize, Nat.add_zero, Nat.mod_eq_of_lt h.pos_lt]

/-- The cell just read is the furthest ahead, and is clear. -/
theorem Awaits.clear (h : Awaits size cells pos pending) :
    Awaits size (cells.set pos 0) ((pos + 1) % size) fun i => pending (i + 1) := by
  have hsize : 0 < size := Nat.lt_of_le_of_lt (Nat.zero_le pos) h.pos_lt
  refine ⟨(List.length_set).trans h.length, Nat.mod_lt _ hsize, ?_, fun i hi => h.beyond _ (by omega)⟩
  intro i hi
  rw [Nat.mod_add_mod]
  by_cases hlast : i + 1 = size
  · have hplace : (pos + 1 + i) % size = pos := by
      have hturn : pos + 1 + i = pos + size := by omega
      rw [hturn, Nat.add_mod_right, Nat.mod_eq_of_lt h.pos_lt]
    rw [hplace, h.beyond _ hlast.ge, List.getD_eq_getElem?_getD,
      List.getElem?_set_self (h.length.symm ▸ h.pos_lt)]
    rfl
  · have hturn : pos + 1 + i = pos + (i + 1) := by omega
    have hne : pos ≠ (pos + (i + 1)) % size := by
      intro hmod
      have hself : pos % size = (pos + (i + 1)) % size := by rwa [Nat.mod_eq_of_lt h.pos_lt]
      have hdvd : size ∣ pos + (i + 1) - pos := (Nat.modEq_iff_dvd' (by omega)).mp hself
      have := Nat.le_of_dvd (by omega) hdvd
      omega
    rw [hturn, List.getD_eq_getElem?_getD, List.getElem?_set_ne hne, ← List.getD_eq_getElem?_getD,
      h.ahead _ (by omega)]

theorem Awaits.addFrame (h : Awaits size cells pos pending) {frame : List K} (hframe : frame.length ≤ size) :
    Awaits size (OverlapAdd.addFrame size cells pos frame) pos fun i => pending i + frame.getD i 0 := by
  refine ⟨(length_addFrame _ _ _ _).trans h.length, h.pos_lt, ?_, ?_⟩
  · intro i hi
    rw [getD_addFrame h.length hframe pos hi, h.ahead i hi]
  · intro i hi
    rw [h.beyond i hi, List.getD_eq_default _ _ (by omega), add_zero]

theorem Awaits.congr {pending' : ℕ → K} (h : Awaits size cells pos pending)
    (heq : ∀ i, pending i = pending' i) : Awaits size cells pos pending' :=
  (funext heq : pending = pending') ▸ h

end HikaruOpenLive.Foundations.OverlapAdd
