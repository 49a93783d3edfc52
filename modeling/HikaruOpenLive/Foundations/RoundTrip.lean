import Mathlib.Data.List.Basic

/-! # Saving and loading

A value is saved in another form and loaded from it again. Neither step need be the inverse of the other:
what comes back as it was is kept.
-/
set_option autoImplicit false

namespace HikaruOpenLive.Foundations.RoundTrip

variable {α β : Type} {there : α → β} {back : β → α}

/-- A value that is itself again after the way there and back. -/
def Kept (there : α → β) (back : β → α) (a : α) : Prop :=
  back (there a) = a

theorem kept_map_iff (l : List α) :
    Kept (List.map there) (List.map back) l ↔ ∀ a ∈ l, Kept there back a := by
  have hself : l.map (fun a => a) = l := List.map_id' l
  calc (l.map there).map back = l
    _ ↔ l.map (back ∘ there) = l.map fun a => a := by rw [List.map_map, hself]
    _ ↔ ∀ a ∈ l, Kept there back a := List.map_inj_left

theorem kept_map (h : ∀ a, Kept there back a) (l : List α) :
    Kept (List.map there) (List.map back) l :=
  (kept_map_iff l).mpr fun a _ => h a

/-- A list passes a partial map unchanged if and only if each of its elements does. -/
theorem filterMap_eq_self_iff {f : α → Option α} (l : List α) :
    l.filterMap f = l ↔ ∀ a ∈ l, f a = some a := by
  induction l with
  | nil => simp
  | cons a l ih =>
    have hlength : (l.filterMap f).length ≤ l.length := List.length_filterMap_le f l
    rw [List.forall_mem_cons, ← ih]
    cases hf : f a with
    | none =>
      rw [List.filterMap_cons_none hf]
      constructor
      · intro h
        have hlong := congrArg List.length h
        rw [List.length_cons] at hlong
        omega
      · rintro ⟨hnone, _⟩
        nomatch hnone
    | some b =>
      rw [List.filterMap_cons_some hf, List.cons.injEq, Option.some.injEq]

/-- A partial map that keeps a name loses none of the names if and only if it loses no element. -/
theorem map_filterMap_eq_map_iff {γ : Type} {f : α → Option β} {g : β → γ} {h : α → γ}
    (hkeep : ∀ a b, f a = some b → g b = h a) (l : List α) :
    (l.filterMap f).map g = l.map h ↔ ∀ a ∈ l, (f a).isSome = true := by
  induction l with
  | nil => simp
  | cons a l ih =>
    have hlength : (l.filterMap f).length ≤ l.length := List.length_filterMap_le f l
    rw [List.forall_mem_cons, ← ih]
    cases hf : f a with
    | none =>
      rw [List.filterMap_cons_none hf]
      refine iff_of_false (fun heq => ?_) (fun hall => Bool.noConfusion hall.1)
      have hlong := congrArg List.length heq
      rw [List.length_map, List.length_map, List.length_cons] at hlong
      omega
    | some b =>
      rw [List.filterMap_cons_some hf, List.map_cons, List.map_cons, hkeep a b hf, List.cons.injEq]
      exact and_congr_left' (iff_of_true rfl rfl)

/-- A list filtered and mapped is another map of the whole if and only if nothing is filtered out and the
maps agree. -/
theorem map_filter_eq_map_iff (p : α → Bool) (f g : α → β) (l : List α) :
    (l.filter p).map f = l.map g ↔ (∀ a ∈ l, p a = true) ∧ ∀ a ∈ l, f a = g a := by
  constructor
  · intro h
    have hlength := congrArg List.length h
    rw [List.length_map, List.length_map] at hlength
    have hall := List.length_filter_eq_length_iff.mp hlength
    rw [List.filter_eq_self.mpr hall] at h
    exact ⟨hall, List.map_inj_left.mp h⟩
  · rintro ⟨hall, hagree⟩
    rw [List.filter_eq_self.mpr hall]
    exact List.map_congr_left hagree

end HikaruOpenLive.Foundations.RoundTrip
