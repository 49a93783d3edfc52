import Mathlib.Data.List.Basic

/-! # Registries

An association list in which registering a key first removes what stood under it. Everything about a
registry is said through `lookup`: `lookup_register` and `lookup_unregister` are the two laws,
`lookup_unregisterAll` the law of removing several keys, and `lookup_registerAll` that of registering a
row of values under consecutive positions.
-/
set_option autoImplicit false

namespace HikaruOpenLive.Foundations.Registry

variable {κ τ : Type} [DecidableEq κ]

def lookup (reg : List (κ × τ)) (key : κ) : Option τ :=
  (reg.find? fun entry => decide (entry.1 = key)).map Prod.snd

def unregister (reg : List (κ × τ)) (key : κ) : List (κ × τ) :=
  reg.filter fun entry => decide (entry.1 ≠ key)

def register (reg : List (κ × τ)) (key : κ) (value : τ) : List (κ × τ) :=
  unregister reg key ++ [(key, value)]

theorem lookup_unregister (reg : List (κ × τ)) (key k : κ) :
    lookup (unregister reg key) k = if k = key then none else lookup reg k := by
  unfold lookup unregister
  induction reg with
  | nil => simp
  | cons entry reg ih =>
    by_cases he : entry.1 = key
    · rw [List.filter_cons_of_neg (by simp [he]), ih]
      split
      case isTrue => rfl
      case isFalse hk =>
        have hne : ¬ entry.1 = k := fun h => hk (h.symm.trans he)
        rw [List.find?_cons_of_neg (by simp [hne])]
    · rw [List.filter_cons_of_pos (by simp [he])]
      by_cases hk : entry.1 = k
      · have hne : ¬ k = key := fun h => he (hk.trans h)
        rw [List.find?_cons_of_pos (by simp [hk]), List.find?_cons_of_pos (by simp [hk]), if_neg hne]
      · rw [List.find?_cons_of_neg (by simp [hk]), List.find?_cons_of_neg (by simp [hk]), ih]

theorem unregister_eq_self_iff (reg : List (κ × τ)) (key : κ) :
    unregister reg key = reg ↔ lookup reg key = none := by
  unfold unregister lookup
  rw [List.filter_eq_self, Option.map_eq_none_iff, List.find?_eq_none]
  simp only [ne_eq, decide_not, Bool.not_eq_true', decide_eq_false_iff_not, decide_eq_true_eq]

theorem lookup_unregisterAll (keys : List κ) (reg : List (κ × τ)) (k : κ) :
    lookup (keys.foldl unregister reg) k = if k ∈ keys then none else lookup reg k := by
  induction keys generalizing reg with
  | nil => rw [List.foldl_nil, if_neg List.not_mem_nil]
  | cons key keys ih =>
    rw [List.foldl_cons, ih, lookup_unregister]
    by_cases hkeys : k ∈ keys
    · rw [if_pos hkeys, if_pos (List.mem_cons_of_mem key hkeys)]
    · by_cases hk : k = key
      · rw [if_neg hkeys, if_pos hk, if_pos (hk ▸ List.mem_cons_self)]
      · have hnot : k ∉ key :: keys := fun h => (List.mem_cons.mp h).elim hk hkeys
        rw [if_neg hkeys, if_neg hk, if_neg hnot]

theorem lookup_register (reg : List (κ × τ)) (key k : κ) (value : τ) :
    lookup (register reg key value) k = if k = key then some value else lookup reg k := by
  have hun := lookup_unregister reg key k
  unfold lookup register at *
  rw [List.find?_append]
  by_cases hk : k = key
  · subst hk
    rw [if_pos rfl, Option.map_eq_none_iff] at hun
    simp [hun]
  · have hne : ¬ key = k := fun h => hk h.symm
    rw [if_neg hk] at hun ⊢
    rw [List.find?_cons_of_neg (by simp [hne]), List.find?_nil, Option.or_none, hun]

def registerAll (keyAt : ℕ → κ) (reg : List (κ × τ)) : ℕ → List τ → List (κ × τ)
  | _, [] => reg
  | i, value :: values => registerAll keyAt (register reg (keyAt i) value) (i + 1) values

theorem lookup_registerAll_other (keyAt : ℕ → κ) {k : κ} (hk : ∀ i, k ≠ keyAt i)
    (values : List τ) (i : ℕ) (reg : List (κ × τ)) :
    lookup (registerAll keyAt reg i values) k = lookup reg k := by
  induction values generalizing i reg with
  | nil => rfl
  | cons value values ih => rw [registerAll, ih, lookup_register, if_neg (hk i)]

/-- After registering a row, the key of a position of the row has the value there, and the keys
before and after the row are untouched. -/
theorem lookup_registerAll {keyAt : ℕ → κ} (hinj : ∀ i j, keyAt i = keyAt j → i = j) (j : ℕ)
    (values : List τ) (i : ℕ) (reg : List (κ × τ)) :
    lookup (registerAll keyAt reg i values) (keyAt j) =
      if i ≤ j ∧ j < i + values.length then values[j - i]? else lookup reg (keyAt j) := by
  induction values generalizing i reg with
  | nil =>
    rw [if_neg (by simp only [List.length_nil]; omega)]
    rfl
  | cons value values ih =>
    rw [registerAll, ih, lookup_register]
    simp only [List.length_cons]
    by_cases hij : j = i
    · subst hij
      rw [if_neg (by omega), if_pos rfl, if_pos (by omega), Nat.sub_self]
      rfl
    · have hkey : ¬ keyAt j = keyAt i := fun h => hij (hinj j i h)
      rw [if_neg hkey]
      by_cases hrange : i + 1 ≤ j ∧ j < i + 1 + values.length
      · have hsub : j - i = j - (i + 1) + 1 := by omega
        rw [if_pos hrange, if_pos (by omega), hsub, List.getElem?_cons_succ]
      · rw [if_neg hrange, if_neg (by omega)]

end HikaruOpenLive.Foundations.Registry
