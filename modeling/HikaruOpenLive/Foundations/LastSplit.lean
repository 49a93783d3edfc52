import Mathlib.Data.List.Basic

/-! # Splitting a list at its last separator

`splitLast sep l` cuts `l` into what stands before the last `sep` and what stands after it, and is
`none` when there is no `sep`. It undoes putting the parts together (`splitLast_append`), so the two
parts and the separator are the list again (`eq_of_splitLast`).
-/
set_option autoImplicit false

namespace HikaruOpenLive.Foundations.LastSplit

variable {α : Type} [DecidableEq α]

def splitLast (sep : α) : List α → Option (List α × List α)
  | [] => none
  | a :: l =>
    match splitLast sep l with
    | some (head, tail) => some (a :: head, tail)
    | none => if a = sep then some ([], l) else none

theorem splitLast_eq_none_iff {sep : α} {l : List α} : splitLast sep l = none ↔ sep ∉ l := by
  induction l with
  | nil => simp [splitLast]
  | cons a l ih =>
    rw [splitLast, List.mem_cons, not_or]
    cases hl : splitLast sep l with
    | some parts =>
      have hmem : sep ∈ l := by
        by_contra hnot
        rw [ih.2 hnot] at hl
        cases hl
      simp [hmem]
    | none =>
      have hnot : sep ∉ l := ih.1 hl
      by_cases ha : a = sep
      · simp [ha]
      · simp [ha, hnot, Ne.symm ha]

theorem splitLast_append {sep : α} {tail : List α} (h : sep ∉ tail) (head : List α) :
    splitLast sep (head ++ sep :: tail) = some (head, tail) := by
  induction head with
  | nil => simp [splitLast, splitLast_eq_none_iff.2 h]
  | cons a head ih => rw [List.cons_append, splitLast, ih]

theorem eq_of_splitLast {sep : α} {l head tail : List α} (h : splitLast sep l = some (head, tail)) :
    l = head ++ sep :: tail ∧ sep ∉ tail := by
  induction l generalizing head with
  | nil => cases h
  | cons a l ih =>
    rw [splitLast] at h
    cases hl : splitLast sep l with
    | some parts =>
      obtain ⟨before, after⟩ := parts
      rw [hl] at h
      obtain ⟨rfl, rfl⟩ : a :: before = head ∧ after = tail := by simpa using h
      obtain ⟨rfl, hafter⟩ := ih hl
      exact ⟨rfl, hafter⟩
    | none =>
      rw [hl] at h
      by_cases ha : a = sep
      · obtain ⟨rfl, rfl⟩ : [] = head ∧ l = tail := by simpa [ha] using h
        exact ⟨by rw [ha]; rfl, splitLast_eq_none_iff.1 hl⟩
      · simp [ha] at h

end HikaruOpenLive.Foundations.LastSplit
