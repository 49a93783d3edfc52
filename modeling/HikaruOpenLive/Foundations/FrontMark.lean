import Mathlib.Data.List.Infix

/-! # A list with a mark in front

The first element of a list has a property that none behind it has. What adds or removes elements at the
end, past the first, keeps it so.
-/
set_option autoImplicit false

namespace HikaruOpenLive.Foundations.FrontMark

variable {α β : Type} {p : α → Bool} {l : List α} {a : α}

/-- The first element has the property, and no other. -/
def FrontOnly (p : α → Bool) (l : List α) : Prop :=
  ∃ a rest, l = a :: rest ∧ p a = true ∧ ∀ b ∈ rest, p b = false

theorem frontOnly_cons : FrontOnly p (a :: l) ↔ p a = true ∧ ∀ b ∈ l, p b = false := by
  constructor
  · rintro ⟨b, rest, h, hb, hrest⟩
    obtain ⟨rfl, rfl⟩ := List.cons.inj h
    exact ⟨hb, hrest⟩
  · rintro ⟨ha, hl⟩
    exact ⟨a, l, rfl, ha, hl⟩

theorem not_frontOnly_nil : ¬ FrontOnly p ([] : List α) := by
  rintro ⟨a, rest, h, _⟩
  cases h

theorem frontOnly_map {q : β → Bool} (f : α → β) : FrontOnly q (l.map f) ↔ FrontOnly (fun a => q (f a)) l := by
  cases l with
  | nil => exact iff_of_false not_frontOnly_nil not_frontOnly_nil
  | cons a l => rw [List.map_cons, frontOnly_cons, frontOnly_cons, List.forall_mem_map]

/-- It is a matter of where the property holds. -/
theorem frontOnly_congr {q : β → Bool} {l' : List β} (h : l.map p = l'.map q) :
    FrontOnly p l ↔ FrontOnly q l' := by
  have hl : FrontOnly id (l.map p) ↔ FrontOnly p l := frontOnly_map p
  have hl' : FrontOnly id (l'.map q) ↔ FrontOnly q l' := frontOnly_map q
  rw [← hl, ← hl', h]

theorem FrontOnly.any (h : FrontOnly p l) : l.any p = true := by
  obtain ⟨a, rest, rfl, ha, _⟩ := h
  rw [List.any_cons, ha, Bool.true_or]

theorem FrontOnly.append (h : FrontOnly p l) (ha : p a = false) : FrontOnly p (l ++ [a]) := by
  obtain ⟨first, rest, rfl, hfirst, hrest⟩ := h
  refine frontOnly_cons.mpr ⟨hfirst, fun b hb => ?_⟩
  obtain hb | hb := List.mem_append.mp hb
  · exact hrest b hb
  · rw [List.mem_singleton.mp hb, ha]

theorem FrontOnly.dropLast (h : FrontOnly p l) (hlong : 1 < l.length) : FrontOnly p l.dropLast := by
  obtain ⟨first, rest, rfl, hfirst, hrest⟩ := h
  have hne : rest ≠ [] := by
    rintro rfl
    exact absurd hlong (by simp)
  rw [List.dropLast_cons_of_ne_nil hne]
  exact frontOnly_cons.mpr ⟨hfirst, fun b hb => hrest b (List.mem_of_mem_dropLast hb)⟩

/-- The last element without the property is the last one, unless there is the first alone. -/
theorem FrontOnly.erase_last (h : FrontOnly p l) :
    (l.reverse.eraseP fun a => !p a).reverse = if 1 < l.length then l.dropLast else l := by
  obtain ⟨first, rest, rfl, hfirst, hrest⟩ := h
  obtain rfl | ⟨front, last, rfl⟩ := List.eq_nil_or_concat' rest
  · simp [hfirst]
  · have hlast : (!p last) = true := by
      rw [hrest last (by simp)]
      rfl
    have hreverse : (first :: (front ++ [last])).reverse = last :: (first :: front).reverse := by simp
    rw [if_pos (by simp), hreverse, List.eraseP_cons_of_pos (p := fun a => !p a) hlast,
      List.reverse_reverse, ← List.cons_append, List.dropLast_concat]

end HikaruOpenLive.Foundations.FrontMark
