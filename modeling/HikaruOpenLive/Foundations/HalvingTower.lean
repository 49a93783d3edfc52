import Mathlib.Algebra.Order.Ring.Int
import Mathlib.Data.List.Basic

/-! # Towers of halved lists

A list reduced by pairs, over and over: entry `i` of a level is picked from the entries `2 * i` and
`2 * i + 1` of the level below it. The entries of a level come from pairwise disjoint stretches of
the bottom, each as long as a power of two; a level of odd length loses its last entry, and with it
everything above the positions it came from.
-/
set_option autoImplicit false

namespace HikaruOpenLive.Foundations.HalvingTower

/-! ## Positions -/

/-- The positions of the bottom that entry `i` of level `k` comes from. -/
def origin : ℕ → ℕ → List ℕ
  | 0, i => [i]
  | k + 1, i => origin k (2 * i) ++ origin k (2 * i + 1)

theorem mem_origin (k i s : ℕ) : s ∈ origin k i ↔ s / 2 ^ k = i := by
  induction k generalizing i with
  | zero => rw [origin, List.mem_singleton, pow_zero, Nat.div_one]
  | succ k ih =>
    rw [origin, List.mem_append, ih, ih, pow_succ, ← Nat.div_div_eq_div_mul]
    omega

/-- A list of `n` positions is used up by `k` halvings exactly if none of them drops an entry. -/
theorem pow_dvd_iff (k n : ℕ) : 2 ^ k ∣ n ↔ ∀ j < k, 2 ∣ n / 2 ^ j := by
  induction k with
  | zero => simp
  | succ k ih =>
    constructor
    · intro h j hj
      obtain ⟨c, rfl⟩ := h
      have hsplit : 2 ^ (k + 1) * c = 2 ^ j * (2 * (2 ^ (k - j) * c)) := by
        have hexp : k + 1 = j + 1 + (k - j) := by omega
        rw [hexp, pow_add, pow_succ]
        simp only [Nat.mul_assoc]
      rw [hsplit, Nat.mul_div_cancel_left _ (Nat.two_pow_pos j)]
      exact Dvd.intro _ rfl
    · intro h
      have hk : 2 ^ k ∣ n := ih.mpr fun j hj => h j (by omega)
      obtain ⟨c, rfl⟩ := hk
      have hlast := h k (by omega)
      rw [Nat.mul_div_cancel_left _ (Nat.two_pow_pos k)] at hlast
      rw [pow_succ]
      exact mul_dvd_mul_left _ hlast

/-- The entries of a level come from all `n` positions of the bottom only where nothing is left
over. -/
theorem covers_iff (k n : ℕ) :
    (∀ s < n, ∃ i < n / 2 ^ k, s ∈ origin k i) ↔ 2 ^ k ∣ n := by
  have hpos : 0 < 2 ^ k := Nat.two_pow_pos k
  constructor
  · intro h
    rcases Nat.eq_zero_or_pos n with rfl | hn
    · exact ⟨0, rfl⟩
    · obtain ⟨i, hi, hmem⟩ := h (n - 1) (by omega)
      rw [mem_origin] at hmem
      subst hmem
      by_contra hdvd
      have hmod : 0 < n % 2 ^ k := Nat.pos_of_ne_zero fun h => hdvd (Nat.dvd_of_mod_eq_zero h)
      -- the last position is past the last whole stretch
      have hle : n / 2 ^ k ≤ (n - 1) / 2 ^ k := by
        rw [Nat.le_div_iff_mul_le hpos]
        have := Nat.div_add_mod' n (2 ^ k)
        omega
      omega
  · intro h s hs
    exact ⟨s / 2 ^ k, Nat.div_lt_div_of_lt_of_dvd h hs, (mem_origin k _ s).mpr rfl⟩

/-! ## Levels -/

variable {α : Type*} (pick : α → α → α)

def halve : List α → List α
  | [] => []
  | [_] => []
  | a :: b :: rest => pick a b :: halve rest

/-- The list after `k` halvings. -/
def level (xs : List α) : ℕ → List α
  | 0 => xs
  | k + 1 => halve pick (level xs k)

theorem length_halve (xs : List α) : (halve pick xs).length = xs.length / 2 := by
  induction xs using halve.induct with
  | case1 => simp [halve]
  | case2 x => simp [halve]
  | case3 a b rest ih =>
    rw [halve, List.length_cons, ih, List.length_cons, List.length_cons]
    omega

theorem getElem?_halve (xs : List α) (i : ℕ) :
    (halve pick xs)[i]? = xs[2 * i]?.bind fun a => xs[2 * i + 1]?.map (pick a) := by
  induction xs using halve.induct generalizing i with
  | case1 => rfl
  | case2 x => cases i <;> rfl
  | case3 a b rest ih =>
    cases i with
    | zero => rfl
    | succ i =>
      rw [halve, List.getElem?_cons_succ, ih, show 2 * (i + 1) = 2 * i + 1 + 1 by omega]
      simp only [List.getElem?_cons_succ]

theorem level_succ (xs : List α) (k : ℕ) : level pick xs (k + 1) = level pick (halve pick xs) k := by
  induction k with
  | zero => rfl
  | succ k ih => rw [level, ih, level]

theorem length_level (xs : List α) (k : ℕ) : (level pick xs k).length = xs.length / 2 ^ k := by
  induction k with
  | zero => rw [level, pow_zero, Nat.div_one]
  | succ k ih => rw [level, length_halve, ih, Nat.div_div_eq_div_mul, pow_succ]

/-! ## The greatest of a stretch -/

section

variable {β : Type*} [LinearOrder β] (size : α → β)

/-- The one picked is one of the two, and no smaller than the other. -/
def PicksGreatest : Prop :=
  ∀ a b, pick a b = a ∧ size b ≤ size a ∨ pick a b = b ∧ size a ≤ size b

variable {pick size}

/-- An entry of a level is one of those it comes from, and the greatest of them. -/
theorem level_greatest (hpick : PicksGreatest pick size) (xs : List α) {k i : ℕ} {e : α}
    (h : (level pick xs k)[i]? = some e) :
    (∃ s ∈ origin k i, xs[s]? = some e) ∧
      ∀ s ∈ origin k i, ∃ x, xs[s]? = some x ∧ size x ≤ size e := by
  induction k generalizing i e with
  | zero =>
    simp only [origin, List.mem_singleton, exists_eq_left, forall_eq]
    exact ⟨h, e, h, le_rfl⟩
  | succ k ih =>
    rw [level, getElem?_halve] at h
    obtain ⟨a, ha, b, hb, rfl⟩ : ∃ a, (level pick xs k)[2 * i]? = some a ∧
        ∃ b, (level pick xs k)[2 * i + 1]? = some b ∧ pick a b = e := by
      simpa only [Option.bind_eq_some_iff, Option.map_eq_some_iff] using h
    obtain ⟨⟨sa, hsa, hxa⟩, hleft⟩ := ih ha
    obtain ⟨⟨sb, hsb, hxb⟩, hright⟩ := ih hb
    simp only [origin, List.mem_append]
    rcases hpick a b with ⟨heq, hle⟩ | ⟨heq, hle⟩ <;> rw [heq]
    · refine ⟨⟨sa, Or.inl hsa, hxa⟩, ?_⟩
      rintro s (hs | hs)
      · exact hleft s hs
      · obtain ⟨x, hx, hxle⟩ := hright s hs
        exact ⟨x, hx, hxle.trans hle⟩
    · refine ⟨⟨sb, Or.inr hsb, hxb⟩, ?_⟩
      rintro s (hs | hs)
      · obtain ⟨x, hx, hxle⟩ := hleft s hs
        exact ⟨x, hx, hxle.trans hle⟩
      · exact hright s hs

end

end HikaruOpenLive.Foundations.HalvingTower
