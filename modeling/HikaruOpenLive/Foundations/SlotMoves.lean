import Mathlib.Data.List.InsertIdx
import Mathlib.Data.List.Perm.Basic

/-! # A move between lists

A family of lists, and one element that is taken out of a list and put into a list of the family, which
may be the same one; the place it goes to is counted in the list without it. `carried` is where each
place of the family goes: the element at a place is found again where that place is carried
(`getElem?_moved`).
-/
set_option autoImplicit false

namespace HikaruOpenLive.Foundations.SlotMoves

variable {κ α : Type} [DecidableEq κ]

/-- The lists without element `i` of list `p`. -/
def less (lists : κ → List α) (p : κ) (i : ℕ) (q : κ) : List α :=
  if q = p then (lists q).eraseIdx i else lists q

/-- The lists after element `i` of list `p` has become element `j` of list `q`. -/
def moved (lists : κ → List α) (p : κ) (i : ℕ) (q : κ) (j : ℕ) (a : α) (r : κ) : List α :=
  if r = q then (less lists p i r).insertIdx j a else less lists p i r

/-- Where the move takes a place. -/
def carried (p : κ) (i : ℕ) (q : κ) (j : ℕ) (spot : κ × ℕ) : κ × ℕ :=
  if spot = (p, i) then (q, j)
  else
    let left := if spot.1 = p ∧ i < spot.2 then spot.2 - 1 else spot.2
    (spot.1, if spot.1 = q ∧ j ≤ left then left + 1 else left)

section

variable {lists : κ → List α} {p q : κ} {i j : ℕ} {a : α}

theorem less_self : less lists p i p = (lists p).eraseIdx i :=
  if_pos rfl

theorem less_of_ne {r : κ} (h : r ≠ p) : less lists p i r = lists r :=
  if_neg h

theorem moved_self : moved lists p i q j a q = (less lists p i q).insertIdx j a :=
  if_pos rfl

theorem moved_of_ne {r : κ} (h : r ≠ q) : moved lists p i q j a r = less lists p i r :=
  if_neg h

/-- The move leaves the order of all the others. -/
theorem eraseIdx_moved (j : ℕ) :
    (moved lists p i q j a q).eraseIdx j = less lists p i q := by
  rw [moved_self, List.eraseIdx_insertIdx_self]

theorem getElem?_moved_dest (hj : j ≤ (less lists p i q).length) :
    (moved lists p i q j a q)[j]? = some a := by
  rw [moved_self, List.getElem?_insertIdx_self, if_pos hj]

/-- A place that is not taken, in the lists without the element. -/
theorem getElem?_less {r : κ} {k : ℕ} (h : (r, k) ≠ (p, i)) :
    (less lists p i r)[if r = p ∧ i < k then k - 1 else k]? = (lists r)[k]? := by
  by_cases hr : r = p
  · subst hr
    have hk : k ≠ i := fun heq => h (by rw [heq])
    rw [less_self]
    by_cases hlt : i < k
    · rw [if_pos ⟨rfl, hlt⟩, List.getElem?_eraseIdx_of_ge (by omega), Nat.sub_add_cancel (by omega)]
    · rw [if_neg fun hand => hlt hand.2, List.getElem?_eraseIdx_of_lt (by omega)]
  · rw [less_of_ne hr, if_neg fun hand => hr hand.1]

/-- Every element is found where its place is carried. -/
theorem getElem?_moved (ha : (lists p)[i]? = some a) (hj : j ≤ (less lists p i q).length)
    {spot : κ × ℕ} (hspot : spot.2 < (lists spot.1).length) :
    (moved lists p i q j a (carried p i q j spot).1)[(carried p i q j spot).2]? =
      (lists spot.1)[spot.2]? := by
  obtain ⟨r, k⟩ := spot
  unfold carried
  by_cases htaken : (r, k) = (p, i)
  · obtain ⟨rfl, rfl⟩ := Prod.mk.inj htaken
    rw [if_pos rfl, getElem?_moved_dest hj, ha]
  · rw [if_neg htaken]
    have hless : (less lists p i r)[if r = p ∧ i < k then k - 1 else k]? = (lists r)[k]? :=
      getElem?_less htaken
    simp only
    rw [← hless]
    set left := if r = p ∧ i < k then k - 1 else k
    by_cases hr : r = q
    · subst hr
      rw [moved_self]
      by_cases hle : j ≤ left
      · rw [if_pos ⟨rfl, hle⟩, List.getElem?_insertIdx_of_gt (by omega), Nat.add_sub_cancel]
      · rw [if_neg fun hand => hle hand.2, List.getElem?_insertIdx_of_lt (by omega)]
    · rw [moved_of_ne hr, if_neg fun hand => hr hand.1]

/-! ## Places that stay -/

/-- Another place stays if as many elements go from before it as come before it. -/
theorem carried_eq_self_iff {r : κ} {k : ℕ} (h : (r, k) ≠ (p, i)) :
    carried p i q j (r, k) = (r, k) ↔
      (r = p ∧ i < k ↔ r = q ∧ j ≤ if r = p ∧ i < k then k - 1 else k) := by
  unfold carried
  rw [if_neg h]
  simp only [Prod.mk.injEq, true_and]
  by_cases hout : r = p ∧ i < k
  · simp only [if_pos hout, iff_true_left hout]
    by_cases hin : r = q ∧ j ≤ k - 1
    · rw [if_pos hin]
      exact ⟨fun _ => hin, fun _ => by omega⟩
    · rw [if_neg hin]
      exact ⟨fun heq => by omega, fun hpos => absurd hpos hin⟩
  · simp only [if_neg hout, iff_false_left hout]
    by_cases hin : r = q ∧ j ≤ k
    · rw [if_pos hin]
      exact ⟨fun heq => by omega, fun hneg => absurd hin hneg⟩
    · rw [if_neg hin]
      exact ⟨fun _ => hin, fun _ => rfl⟩

/-- A place of a list nothing is taken from: it becomes place `j` if it was that and nothing comes. -/
theorem carried_slot_iff {r : κ} {k : ℕ} (h : r ≠ p) :
    (carried p i q j (r, k)).2 = j ↔ r ≠ q ∧ j = k := by
  unfold carried
  rw [if_neg fun heq => h (congrArg Prod.fst heq)]
  simp only [if_neg fun hand : r = p ∧ i < k => h hand.1]
  by_cases hin : r = q ∧ j ≤ k
  · rw [if_pos hin]
    constructor
    · intro heq
      omega
    · rintro ⟨hne, _⟩
      exact absurd hin.1 hne
  · rw [if_neg hin]
    constructor
    · rintro rfl
      exact ⟨fun hq => hin ⟨hq, Nat.le_refl _⟩, rfl⟩
    · rintro ⟨_, rfl⟩
      rfl

theorem carried_fst {r : κ} {k : ℕ} (h : (r, k) ≠ (p, i)) : (carried p i q j (r, k)).1 = r := by
  unfold carried
  rw [if_neg h]

/-! ## What is conserved -/

theorem perm_less (ha : (lists p)[i]? = some a) : (a :: less lists p i p).Perm (lists p) := by
  obtain ⟨hi, rfl⟩ := List.getElem?_eq_some_iff.mp ha
  rw [less_self]
  exact List.getElem_cons_eraseIdx_perm hi

theorem perm_moved_dest (hj : j ≤ (less lists p i q).length) :
    (moved lists p i q j a q).Perm (a :: less lists p i q) := by
  rw [moved_self]
  exact List.perm_insertIdx a _ hj

/-- Within one list. -/
theorem perm_moved_same (ha : (lists p)[i]? = some a) (hj : j ≤ (less lists p i p).length) :
    (moved lists p i p j a p).Perm (lists p) :=
  (perm_moved_dest hj).trans (perm_less ha)

/-- Over two lists. -/
theorem perm_moved (hne : q ≠ p) (ha : (lists p)[i]? = some a) (hj : j ≤ (less lists p i q).length) :
    (moved lists p i q j a p ++ moved lists p i q j a q).Perm (lists p ++ lists q) := by
  have hdest := perm_moved_dest (a := a) hj
  rw [moved_of_ne hne.symm]
  refine (hdest.append_left _).trans (List.perm_middle.trans ?_)
  rw [less_of_ne hne]
  exact (perm_less ha).append_right (lists q)

end

end HikaruOpenLive.Foundations.SlotMoves
