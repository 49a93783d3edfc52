import Mathlib.Algebra.Order.Group.Defs
import Mathlib.Algebra.BigOperators.Group.List.Basic

/-! # Dissipation

A system stores something (energy, say) and every input supplies some of it. When no step leaves more in store
than was there and what it was supplied with, no run does: `Dissipates.run`. What was supplied adds up along
the run, and depends on the states it goes through.
-/
set_option autoImplicit false

namespace HikaruOpenLive.Foundations.Dissipation

variable {σ ι K : Type} [AddCommGroup K]

/-- What a run is supplied with. -/
def supplied (step : σ → ι → σ) (supply : σ → ι → K) : σ → List ι → K
  | _, [] => 0
  | s, i :: is => supply s i + supplied step supply (step s i) is

variable {step : σ → ι → σ} {supply : σ → ι → K}

theorem supplied_append (s : σ) (is js : List ι) :
    supplied step supply s (is ++ js) =
      supplied step supply s is + supplied step supply (is.foldl step s) js := by
  induction is generalizing s with
  | nil => exact (zero_add _).symm
  | cons i is ih =>
    rw [List.cons_append, supplied, supplied, ih, List.foldl_cons, add_assoc]

variable [PartialOrder K] [IsOrderedAddMonoid K]

/-- In the states of `inv`, which allowed steps keep, a step stores no more than it is supplied with. -/
structure Dissipates (step : σ → ι → σ) (inv : σ → Prop) (ok : ι → Prop) (store : σ → K)
    (supply : σ → ι → K) : Prop where
  keep : ∀ s i, inv s → ok i → inv (step s i)
  le : ∀ s i, inv s → ok i → store (step s i) ≤ store s + supply s i

variable {inv : σ → Prop} {ok : ι → Prop} {store : σ → K}

omit [IsOrderedAddMonoid K] in
theorem Dissipates.inv_run (h : Dissipates step inv ok store supply) {s : σ} (hs : inv s) {is : List ι}
    (his : ∀ i ∈ is, ok i) : inv (is.foldl step s) := by
  induction is generalizing s with
  | nil => exact hs
  | cons i is ih =>
    exact ih (h.keep s i hs (his i List.mem_cons_self)) fun j hj => his j (List.mem_cons_of_mem i hj)

theorem Dissipates.run (h : Dissipates step inv ok store supply) {s : σ} (hs : inv s) {is : List ι}
    (his : ∀ i ∈ is, ok i) : store (is.foldl step s) ≤ store s + supplied step supply s is := by
  induction is generalizing s with
  | nil =>
    show store s ≤ store s + 0
    rw [add_zero]
  | cons i is ih =>
    have hi : ok i := his i List.mem_cons_self
    have hrest := ih (h.keep s i hs hi) fun j hj => his j (List.mem_cons_of_mem i hj)
    calc store (is.foldl step (step s i)) ≤ store (step s i) + supplied step supply (step s i) is := hrest
      _ ≤ store s + supply s i + supplied step supply (step s i) is := by
        gcongr
        exact h.le s i hs hi
      _ = store s + supplied step supply s (i :: is) := by rw [supplied, add_assoc]

end HikaruOpenLive.Foundations.Dissipation
