import Mathlib.Algebra.BigOperators.Group.List.Basic
import Mathlib.Algebra.Order.Sub.Basic

/-! # Content over discrete time, and cutting and pasting it

A content is a function `c : ℕ → M` saying what is present at each time, with `0` for silence. The
abstract edits: `closeUp` takes an interval out and moves what follows to the left, `excerpt` is what
was taken out (re-based to 0), `insertAt` opens a gap of a given length and lays an excerpt from there.

`insertAt_closeUp_excerpt` computes what cutting and pasting back gives when the gap opened may be
shorter than the interval cut; `paste_back_iff` says when that is the content one started from.
Nothing here mentions clips or events: `M` is any type with a zero and an addition.
-/
set_option autoImplicit false

namespace HikaruOpenLive.Foundations.TimedContent

variable {M : Type} [AddCommMonoid M]

/-- The content without `[start, stop)`, closed up. -/
def closeUp (start stop : ℕ) (c : ℕ → M) : ℕ → M :=
  fun f => if f < start then c f else c (f + (stop - start))

/-- The content of `[start, stop)`, re-based to 0. -/
def excerpt (start stop : ℕ) (c : ℕ → M) : ℕ → M :=
  fun f => if f < stop - start then c (f + start) else 0

/-- The content with a gap of length `len` opened at `pos`, and nothing in it. -/
def openUp (pos len : ℕ) (c : ℕ → M) : ℕ → M :=
  fun f => if f < pos then c f else if f < pos + len then 0 else c (f - len)

def delay (pos : ℕ) (c : ℕ → M) : ℕ → M := fun f => if f < pos then 0 else c (f - pos)

def insertAt (pos len : ℕ) (c ins : ℕ → M) : ℕ → M := fun f => openUp pos len c f + delay pos ins f

/-- A content opened up, and what follows the gap left where it was as well: the content, and what
follows the gap once more behind it. -/
theorem openUp_add_left (pos len : ℕ) (c : ℕ → M) (f : ℕ) :
    openUp pos len c f + (if f < pos then 0 else c f) = c f + if f < pos + len then 0 else c (f - len) := by
  unfold openUp
  by_cases hf : f < pos
  · rw [if_pos hf, if_pos hf, if_pos (by omega)]
  · rw [if_neg hf, if_neg hf]
    by_cases hg : f < pos + len
    · rw [if_pos hg, zero_add, add_zero]
    · rw [if_neg hg, add_comm]

/-! ## The edits are additive -/

section Sum
variable {ι : Type} (l : List ι) (c : ι → ℕ → M) (f : ℕ)

theorem closeUp_sum (start stop : ℕ) :
    (l.map (fun i => closeUp start stop (c i) f)).sum =
      closeUp start stop (fun g => (l.map (fun i => c i g)).sum) f := by
  unfold closeUp
  split <;> rfl

theorem excerpt_sum (start stop : ℕ) :
    (l.map (fun i => excerpt start stop (c i) f)).sum =
      excerpt start stop (fun g => (l.map (fun i => c i g)).sum) f := by
  unfold excerpt
  split
  · rfl
  · simp

end Sum

/-! ## Cutting and pasting back -/

/-- Pasting a cut back into a gap of length `len`: what lay behind the cut comes back too early by
what the gap is short of the interval. -/
theorem insertAt_closeUp_excerpt {start stop len : ℕ} (hlt : start < stop)
    (hlen : len ≤ stop - start) (c : ℕ → M)
    (hsilent : ∀ f, start + len ≤ f → f < stop → c f = 0) (f : ℕ) :
    insertAt start len (closeUp start stop c) (excerpt start stop c) f =
      if f < start + len then c f else c (f + (stop - start - len)) := by
  unfold insertAt openUp delay closeUp excerpt
  by_cases h1 : f < start
  · rw [if_pos h1, if_pos h1, if_pos h1, if_pos (by omega), add_zero]
  · rw [if_neg h1, if_neg h1]
    by_cases h2 : f < start + len
    · rw [if_pos h2, if_pos h2, if_pos (by omega), zero_add]
      congr 1
      omega
    · rw [if_neg h2, if_neg h2, if_neg (by omega)]
      have he : f - len + (stop - start) = f + (stop - start - len) := by omega
      rw [he]
      by_cases h3 : f - start < stop - start
      · have hf : f - start + start = f := by omega
        rw [if_pos h3, hf, hsilent f (by omega) (by omega), add_zero]
      · rw [if_neg h3, add_zero]

/-- A content that comes back too early is the same content only when there is none to come back. -/
theorem early_eq_iff {start len δ : ℕ} {c : ℕ → M} (hδ : 0 < δ)
    (hsilent : ∀ f, start + len ≤ f → f < start + len + δ → c f = 0) :
    (∀ f, start + len ≤ f → c (f + δ) = c f) ↔ ∀ f, start + len + δ ≤ f → c f = 0 := by
  constructor
  · intro h f
    -- going back in steps of `δ` ends inside the silent interval
    induction f using Nat.strong_induction_on with
    | _ f ih =>
      intro hf
      have hback := h (f - δ) (by omega)
      rw [Nat.sub_add_cancel (by omega)] at hback
      rw [hback]
      by_cases hlow : f - δ < start + len + δ
      · exact hsilent _ (by omega) hlow
      · exact ih (f - δ) (by omega) (by omega)
  · intro h f hf
    rw [h (f + δ) (by omega)]
    by_cases hlow : f < start + len + δ
    · exact (hsilent f hf hlow).symm
    · exact (h f (by omega)).symm

/-- Cutting and pasting back is the identity precisely when the gap opened has the length of the
interval cut, or nothing is present at or after its end. -/
theorem paste_back_iff {start stop len : ℕ} (hlt : start < stop) (hlen : len ≤ stop - start)
    (c : ℕ → M) (hsilent : ∀ f, start + len ≤ f → f < stop → c f = 0) :
    (∀ f, insertAt start len (closeUp start stop c) (excerpt start stop c) f = c f) ↔
      len = stop - start ∨ ∀ f, stop ≤ f → c f = 0 := by
  simp only [insertAt_closeUp_excerpt hlt hlen c hsilent]
  by_cases hfull : len = stop - start
  · subst hfull
    simp
  · have hend : start + len + (stop - start - len) = stop := by omega
    have hgap : ∀ f, start + len ≤ f → f < start + len + (stop - start - len) → c f = 0 := by
      rw [hend]
      exact hsilent
    have h := early_eq_iff (by omega) hgap
    rw [hend] at h
    rw [or_iff_right hfull, ← h]
    constructor
    · intro hall f hf
      have := hall f
      rwa [if_neg (by omega)] at this
    · intro hall f
      split
      · rfl
      · exact hall f (by omega)

/-! ## Where the last of many ends -/

/-- The last of several ends is by a time when all of them are. -/
theorem foldr_max_le {ends : List ℕ} {n : ℕ} : ends.foldr max 0 ≤ n ↔ ∀ a ∈ ends, a ≤ n := by
  induction ends with
  | nil => simp
  | cons a ends ih => rw [List.foldr_cons, max_le_iff, ih, List.forall_mem_cons]

/-- The same for the running maximum of ends that need not be whole. -/
theorem foldl_max_le {α : Type} [LinearOrder α] {ends : List α} {first bound : α} :
    ends.foldl max first ≤ bound ↔ first ≤ bound ∧ ∀ a ∈ ends, a ≤ bound := by
  induction ends generalizing first with
  | nil => simp
  | cons a ends ih => rw [List.foldl_cons, ih, max_le_iff, List.forall_mem_cons, and_assoc]

end HikaruOpenLive.Foundations.TimedContent
