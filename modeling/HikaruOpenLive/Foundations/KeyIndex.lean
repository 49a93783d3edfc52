import Mathlib.Data.List.Basic

/-! # A table of what is due, kept by key

A table `κ → Option ι` indexes a relation `due i k` (`i` is due under the key `k`) when it finds under
each key exactly what is due there, so that at most one thing is (`Indexes.unique`). Entries come with
a grant under a free key (`Indexes.grant`) and go when their key is withdrawn (`Indexes.withdraw`).

A report names a key and says of something that it is no longer due. What it clears is whatever the
table has under that key, which may be a later grant: `indexes_cleared_iff` says exactly when a batch
of reports leaves an index.
-/
set_option autoImplicit false

namespace HikaruOpenLive.Foundations.KeyIndex

variable {κ ι : Type}

def Indexes (table : κ → Option ι) (due : ι → κ → Prop) : Prop :=
  ∀ k i, table k = some i ↔ due i k

variable {table table' : κ → Option ι} {due due' : ι → κ → Prop}

theorem Indexes.unique (h : Indexes table due) {k : κ} {i j : ι} (hi : due i k) (hj : due j k) :
    i = j :=
  Option.some.inj (((h k i).mpr hi).symm.trans ((h k j).mpr hj))

theorem Indexes.congr (h : Indexes table due) (htable : ∀ k, table' k = table k)
    (hdue : ∀ i k, due' i k ↔ due i k) : Indexes table' due' := by
  intro k i
  rw [htable, h k i, hdue]

theorem Indexes.grant [DecidableEq κ] (h : Indexes table due) {key : κ} (new : ι)
    (hfree : table key = none) (htable : ∀ k, table' k = if k = key then some new else table k)
    (hdue : ∀ i k, due' i k ↔ due i k ∨ i = new ∧ k = key) : Indexes table' due' := by
  intro k i
  rw [htable, hdue]
  split
  case isTrue hk =>
    have hnot : ¬ due i key := fun hi => nomatch hfree.symm.trans ((h key i).mpr hi)
    rw [hk, Option.some.injEq]
    exact ⟨fun he => Or.inr ⟨he.symm, rfl⟩, fun hi => (hi.resolve_left hnot).1.symm⟩
  case isFalse hk =>
    rw [h k i]
    exact ⟨Or.inl, fun hi => hi.resolve_right fun hnew => hk hnew.2⟩

theorem Indexes.withdraw [DecidableEq κ] (h : Indexes table due) (key : κ)
    (htable : ∀ k, table' k = if k = key then none else table k)
    (hdue : ∀ i k, due' i k ↔ due i k ∧ k ≠ key) : Indexes table' due' := by
  intro k i
  rw [htable, hdue]
  split
  case isTrue hk => exact ⟨fun hnone => (nomatch hnone), fun hi => absurd hk hi.2⟩
  case isFalse hk =>
    rw [h k i]
    exact ⟨fun hi => ⟨hi, hk⟩, And.left⟩

/-- A batch of reports leaves an index if and only if nothing is still due under a key it names. -/
theorem indexes_cleared_iff [DecidableEq κ] (h : Indexes table due) (keys : List κ) (gone : ι → Prop)
    (hgone : ∀ i k, due i k → gone i → k ∈ keys)
    (htable : ∀ k, table' k = if k ∈ keys then none else table k)
    (hdue : ∀ i k, due' i k ↔ due i k ∧ ¬ gone i) :
    Indexes table' due' ↔ ∀ i k, due' i k → k ∉ keys := by
  constructor
  · intro h' i k hi hk
    have hsome := (h' k i).mpr hi
    rw [htable, if_pos hk] at hsome
    exact nomatch hsome
  · intro hlate k i
    rw [htable]
    split
    case isTrue hk => exact ⟨fun hnone => (nomatch hnone), fun hi => absurd hk (hlate i k hi)⟩
    case isFalse hk =>
      rw [h k i, hdue]
      exact ⟨fun hi => ⟨hi, fun ho => hk (hgone i k hi ho)⟩, And.left⟩

end HikaruOpenLive.Foundations.KeyIndex
