import Mathlib.Algebra.Order.Ring.Int
import Mathlib.Algebra.Group.Basic

/-! # Finite streams on a line of integers

A stream has finitely many values, at the positions from 0 on, and is zero around them. Moved to a
place `p` it is heard at `f` as its value at `f - p`; of one moved to the left of 0 the line of the
naturals has only the rest.
-/
set_option autoImplicit false

namespace HikaruOpenLive.Foundations.PlacedStreams

variable {M : Type*}

section

variable [Zero M]

def stream (value : ℕ → M) (len : ℕ) (k : ℤ) : M :=
  if 0 ≤ k ∧ k < len then value k.toNat else 0

theorem stream_of_lt (value : ℕ → M) {len k : ℕ} (hk : k < len) : stream value len k = value k := by
  rw [stream, if_pos ⟨by omega, by omega⟩, Int.toNat_natCast]

theorem stream_of_neg (value : ℕ → M) (len : ℕ) {k : ℤ} (hk : k < 0) : stream value len k = 0 :=
  if_neg (by omega)

theorem stream_of_le (value : ℕ → M) {len : ℕ} {k : ℤ} (hk : len ≤ k) : stream value len k = 0 :=
  if_neg (by omega)

theorem stream_congr {value value' : ℕ → M} {len : ℕ} (h : ∀ k < len, value k = value' k) (k : ℤ) :
    stream value len k = stream value' len k := by
  unfold stream
  split
  case isTrue hk => exact h _ (by omega)
  case isFalse => rfl

/-- A stream with nothing but silence where it is heard. -/
theorem stream_silent {value : ℕ → M} {len : ℕ} {p : ℤ}
    (h : ∀ k < len, 0 ≤ p + k → value k = 0) (f : ℕ) : stream value len (f - p) = 0 := by
  unfold stream
  split
  case isTrue hk => exact h _ (by omega) (by omega)
  case isFalse => rfl

/-- Two streams at one place are heard alike exactly if they agree wherever they are heard. -/
theorem sameHeard_iff (value value' : ℕ → M) (len : ℕ) (p : ℤ) :
    (∀ f : ℕ, stream value len (f - p) = stream value' len (f - p)) ↔
      ∀ k < len, 0 ≤ p + k → value k = value' k := by
  constructor
  · intro h k hk hheard
    have hf := h (p + k).toNat
    rwa [Int.toNat_of_nonneg hheard, add_sub_cancel_left, stream_of_lt value hk,
      stream_of_lt value' hk] at hf
  · intro h f
    unfold stream
    split
    case isTrue hk => exact h _ (by omega) (by omega)
    case isFalse => rfl

/-- A stream heard alike from two places is silent from the later one on: each of its values is the
one a whole shift further, and beyond its end there is nothing. -/
theorem silent_of_shifted {value : ℕ → M} {len : ℕ} {p q : ℤ} (hlt : p < q)
    (h : ∀ f : ℕ, stream value len (f - p) = stream value len (f - q)) (k : ℤ) (hk : 0 ≤ q + k) :
    stream value len k = 0 := by
  have hstep : ∀ n : ℤ, 0 ≤ q + n → stream value len n = stream value len (n + (q - p)) := by
    intro n hn
    have hf := h (q + n).toNat
    rw [Int.toNat_of_nonneg hn] at hf
    rw [show n + (q - p) = q + n - p by omega, hf, add_sub_cancel_left]
  have hrun : ∀ i : ℕ, stream value len k = stream value len (k + i * (q - p)) := by
    intro i
    induction i with
    | zero => rw [Nat.cast_zero, zero_mul, add_zero]
    | succ i ih =>
      have hnonneg : 0 ≤ (i : ℤ) * (q - p) := mul_nonneg (by omega) (by omega)
      rw [ih, hstep _ (by omega)]
      congr 1
      rw [Nat.cast_succ, add_mul, one_mul]
      omega
  have hfar : ((len : ℤ) - k).toNat * 1 ≤ (((len : ℤ) - k).toNat : ℤ) * (q - p) :=
    mul_le_mul_of_nonneg_left (by omega) (by omega)
  rw [hrun ((len : ℤ) - k).toNat]
  exact stream_of_le value (by omega)

/-- A stream is heard alike from two places exactly if they are one, or nothing of it is heard from the
later one on. -/
theorem shifted_iff (value : ℕ → M) (len : ℕ) (p q : ℤ) :
    (∀ f : ℕ, stream value len (f - p) = stream value len (f - q)) ↔
      p = q ∨ ∀ k < len, 0 ≤ max p q + k → value k = 0 := by
  constructor
  · intro h
    rcases lt_trichotomy p q with hlt | heq | hlt
    · refine Or.inr fun k hk hheard => ?_
      rw [max_eq_right hlt.le] at hheard
      rw [← stream_of_lt value hk]
      exact silent_of_shifted hlt h k hheard
    · exact Or.inl heq
    · refine Or.inr fun k hk hheard => ?_
      rw [max_eq_left hlt.le] at hheard
      rw [← stream_of_lt value hk]
      exact silent_of_shifted hlt (fun f => (h f).symm) k hheard
  · rintro (rfl | hsilent) f
    · rfl
    · have hzero : ∀ r ≤ max p q, stream value len (f - r) = 0 := fun r hr =>
        stream_silent (fun k hk hheard => hsilent k hk (by omega)) f
      rw [hzero p (le_max_left _ _), hzero q (le_max_right _ _)]

end

/-- A stream is its beginning and its rest, each at its place. -/
theorem stream_eq_add [AddZeroClass M] (value : ℕ → M) {cut len : ℕ} (hcut : cut ≤ len) (k : ℤ) :
    stream value len k =
      stream value cut k + stream (fun j => value (cut + j)) (len - cut) (k - cut) := by
  by_cases hk : k < cut
  · rw [stream_of_neg _ _ (show k - cut < 0 by omega), add_zero]
    unfold stream
    simp only [hk, show k < len by omega]
  · rw [stream_of_le value (show (cut : ℤ) ≤ k by omega), zero_add]
    unfold stream
    by_cases hlen : k < len
    · rw [if_pos ⟨by omega, hlen⟩, if_pos ⟨by omega, by omega⟩]
      congr 1
      omega
    · rw [if_neg (by omega), if_neg (by omega)]

end HikaruOpenLive.Foundations.PlacedStreams
