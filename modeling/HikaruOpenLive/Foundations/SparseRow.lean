import Mathlib.Data.List.ReduceOption
import HikaruOpenLive.Foundations.ListEdits

/-! # Sparse rows and dense lists

A row has places that are taken or free; a dense list has no free places. `Aligned row dense` says
that the two can be addressed by one index: the entry at a place of the row is the entry of the list
at the same index, and a free place has no entry in the list. It holds just when all taken places come
before all free ones and the list is the row without its free places.

The laws say which pairs of edits keep the two aligned.
-/
set_option autoImplicit false

namespace HikaruOpenLive.Foundations.SparseRow

open ListEdits

variable {α : Type}

/-- Every index finds the same in the row and in the list. -/
def Aligned (row : List (Option α)) (dense : List α) : Prop :=
  ∀ i : ℕ, row[i]?.join = dense[i]?

theorem aligned_of_free {row : List (Option α)} (h : ∀ a ∈ row, a = none) : Aligned row [] := by
  intro i
  cases hi : row[i]? with
  | none => rfl
  | some a =>
    rw [h a (List.mem_of_getElem? hi)]
    rfl

theorem Aligned.getElem? {row : List (Option α)} {dense : List α} (h : Aligned row dense) {i : ℕ}
    {a : α} (hi : row[i]? = some (some a)) : dense[i]? = some a := by
  rw [← h i, hi]
  rfl

theorem Aligned.reduceOption_eq {row : List (Option α)} {dense : List α} (h : Aligned row dense) :
    row.reduceOption = dense := by
  induction row generalizing dense with
  | nil =>
    cases dense with
    | nil => rfl
    | cons b dense => exact absurd (h 0) (by simp)
  | cons entry row ih =>
    cases entry with
    | none =>
      cases dense with
      | nil =>
        rw [List.reduceOption_cons_of_none]
        exact ih (fun i => h (i + 1))
      | cons b dense => exact absurd (h 0) (by simp)
    | some a =>
      cases dense with
      | nil => exact absurd (h 0) (by simp)
      | cons b dense =>
        have hab : a = b := Option.some.inj (h 0)
        rw [List.reduceOption_cons_of_some, hab]
        exact congrArg (List.cons b) (ih (fun i => h (i + 1)))

theorem Aligned.length_reduceOption {row : List (Option α)} {dense : List α}
    (h : Aligned row dense) : row.reduceOption.length = dense.length := by
  rw [h.reduceOption_eq]

theorem Aligned.le_of_free {row : List (Option α)} {dense : List α} (h : Aligned row dense) {i : ℕ}
    (hi : row[i]?.join = none) : dense.length ≤ i := by
  rw [h i] at hi
  exact List.getElem?_eq_none_iff.mp hi

/-! ## Edits -/

/-- A place taken in the row, by an entry put at the same index or at the end of the list. -/
theorem Aligned.put {row : List (Option α)} {dense : List α} (h : Aligned row dense) {s : ℕ}
    (hrow : s < row.length) (hdense : s ≤ dense.length) (a : α) :
    Aligned (row.set s (some a)) (putAt dense s a) := by
  intro i
  rw [putAt_getElem? _ hdense, ← h i]
  by_cases hi : i = s
  · subst hi
    rw [List.getElem?_set_self hrow, if_pos rfl]
    rfl
  · rw [List.getElem?_set_ne (Ne.symm hi), if_neg hi]

/-- The last taken place freed, or a place behind it. -/
theorem Aligned.free {row : List (Option α)} {dense : List α} (h : Aligned row dense) {s : ℕ}
    (hdense : dense.length ≤ s + 1) : Aligned (row.set s none) (dense.eraseIdx s) := by
  intro i
  obtain hi | rfl | hi := Nat.lt_trichotomy i s
  · rw [List.getElem?_set_ne (by omega), List.getElem?_eraseIdx_of_lt hi, h i]
  · rw [List.getElem?_eraseIdx_of_ge (Nat.le_refl _), List.getElem?_eq_none (show _ ≤ i + 1 by omega)]
    by_cases hlt : i < row.length
    · rw [List.getElem?_set_self hlt]
      rfl
    · rw [List.getElem?_eq_none (by simp only [List.length_set]; omega)]
      rfl
  · rw [List.getElem?_set_ne (by omega), List.getElem?_eraseIdx_of_ge (by omega), h i,
      List.getElem?_eq_none (by omega), List.getElem?_eq_none (by omega)]

theorem Aligned.erase {row : List (Option α)} {dense : List α} (h : Aligned row dense) (s : ℕ) :
    Aligned (row.eraseIdx s) (dense.eraseIdx s) := by
  intro i
  by_cases hi : i < s
  · rw [List.getElem?_eraseIdx_of_lt hi, List.getElem?_eraseIdx_of_lt hi, h i]
  · rw [List.getElem?_eraseIdx_of_ge (by omega), List.getElem?_eraseIdx_of_ge (by omega), h (i + 1)]

theorem Aligned.eraseFree {row : List (Option α)} {dense : List α} (h : Aligned row dense) {s : ℕ}
    (hs : dense.length ≤ s) : Aligned (row.eraseIdx s) dense := by
  have he := h.erase s
  rwa [List.eraseIdx_of_length_le hs] at he

theorem Aligned.insert {row : List (Option α)} {dense : List α} (h : Aligned row dense) {s : ℕ}
    (hrow : s ≤ row.length) (hdense : s ≤ dense.length) (a : α) :
    Aligned (row.insertIdx s (some a)) (dense.insertIdx s a) := by
  intro i
  obtain hi | rfl | hi := Nat.lt_trichotomy i s
  · rw [List.getElem?_insertIdx_of_lt hi, List.getElem?_insertIdx_of_lt hi, h i]
  · rw [List.getElem?_insertIdx_self, List.getElem?_insertIdx_self, if_pos (by omega),
      if_pos (by omega)]
    rfl
  · rw [List.getElem?_insertIdx_of_gt hi, List.getElem?_insertIdx_of_gt hi, h (i - 1)]

/-- A free place put behind the taken ones. -/
theorem Aligned.insertFree {row : List (Option α)} {dense : List α} (h : Aligned row dense) {s : ℕ}
    (hdense : dense.length ≤ s) : Aligned (row.insertIdx s none) dense := by
  intro i
  obtain hi | rfl | hi := Nat.lt_trichotomy i s
  · rw [List.getElem?_insertIdx_of_lt hi, h i]
  · rw [List.getElem?_insertIdx_self, List.getElem?_eq_none hdense]
    split
    · rfl
    · rfl
  · rw [List.getElem?_insertIdx_of_gt hi, h (i - 1), List.getElem?_eq_none (by omega),
      List.getElem?_eq_none (by omega)]

end HikaruOpenLive.Foundations.SparseRow
