import Mathlib.Algebra.Order.Field.Basic
import Mathlib.Algebra.Order.Ring.Int

/-! # Linear fades over frames

A ramp of `n` frames rises from 0 at its first frame and is 1 from frame `n` on. A window of `len` frames
fades in along one ramp and out along another, read from its end. Two ways to fade a window whose
lengths come from two roundings of one number, the second of which may start the fade in anew at a
later frame, give the same gains exactly if the lengths agree or the difference is never heard.
-/
set_option autoImplicit false

namespace HikaruOpenLive.Foundations.Ramps

variable {K : Type*} [Field K]

/-- The factor of a fade of `n` frames at its frame `i`. -/
def ramp (i n : ℕ) : K :=
  if i < n then (i : K) / n else 1

theorem ramp_of_le {i n : ℕ} (h : n ≤ i) : (ramp i n : K) = 1 :=
  if_neg (not_lt.mpr h)

@[simp] theorem ramp_zero (i : ℕ) : (ramp i 0 : K) = 1 :=
  ramp_of_le (Nat.zero_le i)

theorem ramp_first {n : ℕ} (h : 0 < n) : (ramp 0 n : K) = 0 := by
  rw [ramp, if_pos h, Nat.cast_zero, zero_div]

/-- A ramp of one frame is over before the second. -/
theorem ramp_of_pos {i n : ℕ} (hi : 0 < i) (hn : n ≤ 1) : (ramp i n : K) = 1 :=
  ramp_of_le (by omega)

variable [LinearOrder K] [IsStrictOrderedRing K]

theorem ramp_pos {i n : ℕ} (h : 0 < i) : (0 : K) < ramp i n := by
  unfold ramp
  split
  case isTrue hlt =>
    exact div_pos (Nat.cast_pos.mpr h) (Nat.cast_pos.mpr (h.trans hlt))
  case isFalse => exact zero_lt_one

/-- One frame more makes a ramp flatter, up to its end. -/
theorem ramp_succ_lt {i n : ℕ} (hi : 0 < i) (hn : i ≤ n) : (ramp i (n + 1) : K) < ramp i n := by
  have hcast : (0 : K) < i := Nat.cast_pos.mpr hi
  have hsucc : (n : K) < (n + 1 : ℕ) := Nat.cast_lt.mpr n.lt_succ_self
  rw [ramp, if_pos (by omega)]
  rcases hn.lt_or_eq with hlt | rfl
  · rw [ramp, if_pos hlt]
    exact div_lt_div_of_pos_left hcast (Nat.cast_pos.mpr (hi.trans hlt)) hsucc
  · rw [ramp_of_le le_rfl]
    exact (div_lt_one (hcast.trans hsucc)).mpr hsucc

theorem ramp_succ_le {i n : ℕ} (h : 0 < i) : (ramp i (n + 1) : K) ≤ ramp i n := by
  rcases le_or_gt i n with hle | hlt
  · exact (ramp_succ_lt h hle).le
  · rw [ramp_of_le hlt, ramp_of_le hlt.le]

/-! ## Two roundings of one fade -/

/-- The one length or one frame more, as the nearest integer is to the integer part. -/
def Rounded (n m : ℕ) : Prop :=
  m = n ∨ m = n + 1

theorem Rounded.ramp_le {n m i : ℕ} (h : Rounded n m) (hi : 0 < i) : (ramp i m : K) ≤ ramp i n := by
  rcases h with rfl | rfl
  · exact le_rfl
  · exact ramp_succ_le hi

/-- A fade in that starts anew at a cut behind its first frame is the one that does not only where
there is none. -/
theorem cutFade_eq_zero {len cut fadeIn fadeIn' fadeOut fadeOut' : ℕ} (hcut : 0 < cut)
    (hlen : cut < len)
    (h : (ramp cut fadeIn' : K) * ramp (len - cut) fadeOut' =
      ramp (cut - cut) fadeIn * ramp (len - cut) fadeOut) : fadeIn = 0 := by
  by_contra hne
  rw [Nat.sub_self, ramp_first (Nat.pos_of_ne_zero hne), zero_mul] at h
  exact absurd h (mul_pos (ramp_pos hcut) (ramp_pos (by omega))).ne'

/-- Fades in of different lengths differ at the first or at the second frame. -/
theorem fadeIn_eq {len fadeIn fadeIn' fadeOut fadeOut' : ℕ} (hlen : 0 < len)
    (hin : Rounded fadeIn fadeIn') (hout : Rounded fadeOut fadeOut')
    (hheard : ¬(len = 1 ∧ 1 ≤ fadeIn))
    (h : ∀ k < len, (ramp k fadeIn' : K) * ramp (len - k) fadeOut' =
      ramp k fadeIn * ramp (len - k) fadeOut) : fadeIn' = fadeIn := by
  rcases hin with heq | rfl
  · exact heq
  · exfalso
    rcases Nat.eq_zero_or_pos fadeIn with rfl | hpos
    · have hfirst := h 0 hlen
      rw [ramp_first (Nat.succ_pos 0), zero_mul, ramp_zero, one_mul] at hfirst
      exact absurd hfirst (ramp_pos hlen).ne
    · have hlong : 1 < len := by omega
      have hsecond := h 1 hlong
      have hlt : (ramp 1 (fadeIn + 1) : K) * ramp (len - 1) fadeOut' <
          ramp 1 fadeIn * ramp (len - 1) fadeOut :=
        mul_lt_mul (ramp_succ_lt one_pos hpos) (hout.ramp_le (by omega)) (ramp_pos (by omega))
          (ramp_pos one_pos).le
      exact absurd hsecond hlt.ne

/-- Fades out of different lengths differ at the last frame, unless the shorter has none. -/
theorem fadeOut_eq {gain : K} (hgain : gain ≠ 0) {fadeOut fadeOut' : ℕ}
    (hout : Rounded fadeOut fadeOut') (h : gain * ramp 1 fadeOut' = gain * ramp 1 fadeOut) :
    fadeOut' = fadeOut ∨ fadeOut = 0 := by
  rcases hout with heq | rfl
  · exact Or.inl heq
  · refine Or.inr ?_
    by_contra hne
    have hlt : (ramp 1 (fadeOut + 1) : K) < ramp 1 fadeOut :=
      ramp_succ_lt one_pos (Nat.pos_of_ne_zero hne)
    exact absurd (mul_left_cancel₀ hgain h) hlt.ne

/-- The gains of a window faded by one rounding agree with those of the window faded by the other, cut
at frame `cut`, exactly if the fades in agree (at a cut behind the first frame: the cut window has none)
and the fades out agree or the cut window has none. -/
theorem fades_agree_iff {len cut fadeIn fadeIn' fadeOut fadeOut' : ℕ} (hlen : cut < len)
    (hin : Rounded fadeIn fadeIn') (hout : Rounded fadeOut fadeOut')
    (hheard : ¬(cut = 0 ∧ len = 1 ∧ 1 ≤ fadeIn)) :
    (∀ k < len, cut ≤ k → (ramp k fadeIn' : K) * ramp (len - k) fadeOut' =
      ramp (k - cut) fadeIn * ramp (len - k) fadeOut) ↔
      (0 < cut → fadeIn = 0) ∧ (cut = 0 → fadeIn' = fadeIn) ∧
        (fadeOut' = fadeOut ∨ fadeOut = 0) := by
  constructor
  · intro h
    have hzero : 0 < cut → fadeIn = 0 := fun hcut => cutFade_eq_zero hcut hlen (h cut hlen le_rfl)
    have heq : cut = 0 → fadeIn' = fadeIn := by
      rintro rfl
      exact fadeIn_eq hlen hin hout (fun hone => hheard ⟨rfl, hone⟩) fun k hk =>
        h k hk (Nat.zero_le k)
    refine ⟨hzero, heq, ?_⟩
    have hlast := h (len - 1) (by omega) (by omega)
    rw [Nat.sub_sub_self (by omega)] at hlast
    -- the fades in agree at the last frame and have started there
    have hsame : (ramp (len - 1) fadeIn' : K) = ramp (len - 1 - cut) fadeIn := by
      rcases Nat.eq_zero_or_pos cut with rfl | hcut
      · rw [heq rfl, Nat.sub_zero]
      · rw [hzero hcut, ramp_zero, ramp_of_pos (by omega) ?_]
        rcases hin with rfl | rfl <;> have := hzero hcut <;> omega
    have hstarted : (ramp (len - 1) fadeIn' : K) ≠ 0 := by
      rcases Nat.eq_zero_or_pos (len - 1) with hone | hpos
      · have hcut : cut = 0 := by omega
        have hnone : fadeIn' = 0 := by
          rw [heq hcut]
          by_contra hne
          exact hheard ⟨hcut, by omega, Nat.pos_of_ne_zero hne⟩
        rw [hnone, ramp_zero]
        exact one_ne_zero
      · exact (ramp_pos hpos).ne'
    rw [← hsame] at hlast
    exact fadeOut_eq hstarted hout hlast
  · rintro ⟨hzero, heq, hends⟩ k hk hcut
    have hfadeIn : (ramp k fadeIn' : K) = ramp (k - cut) fadeIn := by
      rcases Nat.eq_zero_or_pos cut with rfl | hpos
      · rw [heq rfl, Nat.sub_zero]
      · rw [hzero hpos, ramp_zero, ramp_of_pos (by omega) ?_]
        rcases hin with rfl | rfl <;> have := hzero hpos <;> omega
    have hfadeOut : (ramp (len - k) fadeOut' : K) = ramp (len - k) fadeOut := by
      rcases hends with heq | rfl
      · rw [heq]
      · rw [ramp_zero, ramp_of_pos (by omega) ?_]
        rcases hout with rfl | rfl <;> omega
    rw [hfadeIn, hfadeOut]

end HikaruOpenLive.Foundations.Ramps
