import Mathlib.Algebra.Ring.Nat
import Mathlib.Data.List.Basic

/-! # Streams produced block by block

A producer fills blocks of a requested length and keeps a state between them. `emit` is the loop of
such a producer: one output a step, left early by a step that returns `none`, the rest of the block
being padding. `emit_add` says what a loop of `m + n` steps is in terms of a loop of `m` and one of
`n`.

`runBlocks` concatenates the blocks of a run, and `runBlocks_eq_single` reduces every way of cutting
the stream to the cutting of one block in two, up to a relation of states that need only be reflexive
and transitive. `mix` adds streams pointwise, and `mixAll_append` distributes that over the cut.
-/
set_option autoImplicit false

namespace HikaruOpenLive.Foundations.BlockSplit

variable {α σ τ : Type}

/-! ## A loop over the frames of a block -/

/-- `n` outputs of a loop that may break; also the state it leaves and whether it broke. -/
def emit (step : σ → Option (α × σ)) (pad : α) : ℕ → σ → List α × σ × Bool
  | 0, s => ([], s, false)
  | n + 1, s =>
    match step s with
    | none => (List.replicate (n + 1) pad, s, true)
    | some (a, s') =>
      let rest := emit step pad n s'
      (a :: rest.1, rest.2)

variable (step : σ → Option (α × σ)) (pad : α)

theorem emit_of_break {s : σ} (h : step s = none) (n : ℕ) :
    emit step pad n s = (List.replicate n pad, s, decide (0 < n)) := by
  cases n with
  | zero => rfl
  | succ n => simp [emit, h]

theorem emit_succ {s s' : σ} {a : α} (h : step s = some (a, s')) (n : ℕ) :
    emit step pad (n + 1) s = (a :: (emit step pad n s').1, (emit step pad n s').2) := by
  simp [emit, h]

theorem emit_length (n : ℕ) (s : σ) : (emit step pad n s).1.length = n := by
  induction n generalizing s with
  | zero => rfl
  | succ n ih =>
    cases h : step s with
    | none => simp [emit, h]
    | some p => simp [emit, h, ih]

theorem emit_broke {n : ℕ} {s : σ} (h : (emit step pad n s).2.2 = true) :
    step (emit step pad n s).2.1 = none := by
  induction n generalizing s with
  | zero => exact absurd h (by simp [emit])
  | succ n ih =>
    cases hs : step s with
    | none => simp [emit, hs]
    | some p =>
      rw [emit_succ step pad hs] at h ⊢
      exact ih h

/-- A loop of `m + n` steps, `n` of them at least one, is a loop of `m` followed by a loop of `n`;
it breaks where the second loop breaks. -/
theorem emit_add (m : ℕ) {n : ℕ} (hn : 0 < n) (s : σ) :
    emit step pad (m + n) s =
      ((emit step pad m s).1 ++ (emit step pad n (emit step pad m s).2.1).1,
        (emit step pad n (emit step pad m s).2.1).2) := by
  induction m generalizing s with
  | zero => simp [emit]
  | succ m ih =>
    rw [Nat.add_right_comm]
    cases h : step s with
    | none =>
      rw [emit_of_break step pad h (m + n + 1), emit_of_break step pad h (m + 1)]
      simp only [emit_of_break step pad h n, List.replicate_append_replicate, hn]
      congr 2
      omega
    | some p =>
      rw [emit_succ step pad h (m + n), emit_succ step pad h m, ih]
      rfl

theorem emit_const {s : σ} {a : α} (h : step s = some (a, s)) (n : ℕ) :
    emit step pad n s = (List.replicate n a, s, false) := by
  induction n with
  | zero => rfl
  | succ n ih =>
    rw [emit_succ step pad h, ih]
    rfl

theorem emit_count {μ : σ → ℕ} (h : ∀ s a s', step s = some (a, s') → μ s' = μ s + 1) {n : ℕ} {s : σ}
    (hb : (emit step pad n s).2.2 = false) : μ (emit step pad n s).2.1 = μ s + n := by
  induction n generalizing s with
  | zero => rfl
  | succ n ih =>
    cases hs : step s with
    | none => simp [emit, hs] at hb
    | some p =>
      rw [emit_succ step pad hs] at hb ⊢
      have hμ := h s p.1 p.2 hs
      have := ih hb
      simp only
      omega

theorem forall₂_replicate {β : Type} {ρ : α → β → Prop} {a : α} {b : β} (h : ρ a b) (n : ℕ) :
    List.Forall₂ ρ (List.replicate n a) (List.replicate n b) := by
  induction n with
  | zero => exact List.Forall₂.nil
  | succ n ih => exact List.Forall₂.cons h ih

theorem emit_map {β : Type} (step' : σ → Option (β × σ)) (g : α → β)
    (h : ∀ s, step' s = (step s).map fun p => (g p.1, p.2)) (n : ℕ) (s : σ) :
    emit step' (g pad) n s = ((emit step pad n s).1.map g, (emit step pad n s).2) := by
  induction n generalizing s with
  | zero => rfl
  | succ n ih =>
    cases hs : step s with
    | none =>
      have hs' : step' s = none := by simp [h, hs]
      rw [emit_of_break step pad hs, emit_of_break step' (g pad) hs', List.map_replicate]
    | some p =>
      have hs' : step' s = some (g p.1, p.2) := by simp [h, hs]
      rw [emit_succ step pad hs, emit_succ step' (g pad) hs', ih]
      rfl

/-- Loops whose steps simulate each other emit related outputs and break together. -/
theorem emit_sim {β : Type} (step' : τ → Option (β × τ)) (pad' : β) {r : σ → τ → Prop}
    {ρ : α → β → Prop} (hpad : ρ pad pad')
    (h : ∀ s t, r s t → (step s = none ∧ step' t = none) ∨
      ∃ a s' b t', step s = some (a, s') ∧ step' t = some (b, t') ∧ ρ a b ∧ r s' t')
    (n : ℕ) {s : σ} {t : τ} (hr : r s t) :
    List.Forall₂ ρ (emit step pad n s).1 (emit step' pad' n t).1 ∧
      r (emit step pad n s).2.1 (emit step' pad' n t).2.1 ∧
      (emit step pad n s).2.2 = (emit step' pad' n t).2.2 := by
  induction n generalizing s t with
  | zero => exact ⟨List.Forall₂.nil, hr, rfl⟩
  | succ n ih =>
    obtain ⟨hs, ht⟩ | ⟨a, s', b, t', hs, ht, hab, hr'⟩ := h s t hr
    · rw [emit_of_break step pad hs, emit_of_break step' pad' ht]
      exact ⟨forall₂_replicate hpad (n + 1), hr, rfl⟩
    · rw [emit_succ step pad hs, emit_succ step' pad' ht]
      obtain ⟨h1, h2, h3⟩ := ih hr'
      exact ⟨List.Forall₂.cons hab h1, h2, h3⟩

/-- A loop that goes through `g 0`, `g 1` and so on, and breaks at `g n`. -/
theorem emit_indexed {g : ℕ → σ} {a : ℕ → α} {n : ℕ} (h : ∀ k < n, step (g k) = some (a k, g (k + 1)))
    (hend : step (g n) = none) (m : ℕ) {k : ℕ} (hk : k ≤ n) :
    emit step pad m (g k) =
      ((List.range' k m).map fun i => if i < n then a i else pad, g (min (k + m) n), decide (n < k + m)) := by
  induction m generalizing k with
  | zero =>
    rw [Nat.add_zero, Nat.min_eq_left hk, decide_eq_false (Nat.not_lt.mpr hk)]
    rfl
  | succ m ih =>
    rw [List.range'_succ, List.map_cons]
    rcases Nat.lt_or_eq_of_le hk with hlt | rfl
    · have hnext : k.succ + m = k + (m + 1) := by omega
      rw [emit_succ step pad (h k hlt), ih hlt, if_pos hlt, hnext]
    · have hpads : (List.range' (k + 1) m).map (fun i => if i < k then a i else pad) =
          List.replicate m pad := by
        refine List.eq_replicate_iff.mpr ⟨by simp, fun b hb => ?_⟩
        obtain ⟨i, hi, rfl⟩ := List.mem_map.mp hb
        exact if_neg (by have := (List.mem_range'_1.mp hi).1; omega)
      rw [emit_of_break step pad hend, hpads, if_neg (Nat.lt_irrefl k), Nat.min_eq_right (by omega),
        decide_eq_true (show 0 < m + 1 by omega), decide_eq_true (show k < k + (m + 1) by omega)]
      rfl

/-- Two loops give the same outputs for every number of steps. -/
def EmitAlike (step' : τ → Option (α × τ)) (s : σ) (t : τ) : Prop :=
  ∀ n, (emit step pad n s).1 = (emit step' pad n t).1

theorem EmitAlike.next {step' : τ → Option (α × τ)} {s s' : σ} {t t' : τ} {a b : α}
    (h : EmitAlike step pad step' s t) (hs : step s = some (a, s')) (ht : step' t = some (b, t')) :
    a = b ∧ EmitAlike step pad step' s' t' := by
  have hcons : ∀ n, a = b ∧ (emit step pad n s').1 = (emit step' pad n t').1 := by
    intro n
    have hn := h (n + 1)
    rw [emit_succ step pad hs, emit_succ step' pad ht] at hn
    exact List.cons.inj hn
  exact ⟨(hcons 0).1, fun n => (hcons n).2⟩

theorem emitAlike_of_sim {step' : τ → Option (α × τ)} {r : σ → τ → Prop}
    (h : ∀ s t, r s t → ∃ a s' t', step s = some (a, s') ∧ step' t = some (a, t') ∧ r s' t')
    {s : σ} {t : τ} (hr : r s t) : EmitAlike step pad step' s t := by
  intro n
  induction n generalizing s t with
  | zero => rfl
  | succ n ih =>
    obtain ⟨a, s', t', hs, ht, hr'⟩ := h s t hr
    rw [emit_succ step pad hs, emit_succ step' pad ht]
    simp only [ih hr']

/-! ## Runs of blocks -/

def runBlocks (process : σ → ℕ → List α × σ) : σ → List ℕ → List α × σ
  | s, [] => ([], s)
  | s, n :: ns =>
    let out := process s n
    let rest := runBlocks process out.2 ns
    (out.1 ++ rest.1, rest.2)

def Agree (R : σ → σ → Prop) (a b : List α × σ) : Prop :=
  a.1 = b.1 ∧ R a.2 b.2

/-- A property of states that blocks keep, and under which one block can be cut in two. -/
structure Splits (process : σ → ℕ → List α × σ) (I : σ → Prop) (R : σ → σ → Prop) : Prop where
  refl : ∀ s, R s s
  trans : ∀ s s' s'', R s s' → R s' s'' → R s s''
  keep : ∀ s n, I s → I (process s n).2
  split : ∀ s m n, I s → 0 < m → 0 < n →
    Agree R (runBlocks process s [m, n]) (process s (m + n))

/-- However a stream is cut into non-empty blocks, it is the stream of one block. -/
theorem runBlocks_eq_single {process : σ → ℕ → List α × σ} {I : σ → Prop} {R : σ → σ → Prop}
    (h : Splits process I R) {s : σ} (hs : I s) : ∀ {ns : List ℕ}, ns ≠ [] → (∀ n ∈ ns, 0 < n) →
      Agree R (runBlocks process s ns) (process s ns.sum)
  | [], hne, _ => absurd rfl hne
  | [n], _, _ => by
    simp only [runBlocks, List.append_nil, List.sum_cons, List.sum_nil, Nat.add_zero]
    exact ⟨rfl, h.refl _⟩
  | n :: k :: ns, _, hpos => by
    have hrest := runBlocks_eq_single h (h.keep s n hs) (List.cons_ne_nil k ns)
      (fun j hj => hpos j (List.mem_cons_of_mem n hj))
    have hn := hpos n List.mem_cons_self
    have hk : 0 < (k :: ns).sum := by
      have := hpos k (List.mem_cons_of_mem n List.mem_cons_self)
      rw [List.sum_cons]
      omega
    obtain ⟨hout, hstate⟩ := h.split s n (k :: ns).sum hs hn hk
    rw [List.sum_cons (a := n)]
    constructor
    · calc (runBlocks process s (n :: k :: ns)).1
          = (process s n).1 ++ (process (process s n).2 (k :: ns).sum).1 := by
            rw [runBlocks, hrest.1]
        _ = (runBlocks process s [n, (k :: ns).sum]).1 := by
            simp [runBlocks]
        _ = (process s (n + (k :: ns).sum)).1 := hout
    · exact h.trans _ _ _ hrest.2 hstate

/-! ## Mixing -/

section Mix

variable [Add α]

def mix (a b : List α) : List α :=
  List.zipWith (fun x y => x + y) a b

def mixAll (zero : α) (n : ℕ) (blocks : List (List α)) : List α :=
  blocks.foldl mix (List.replicate n zero)

theorem mix_length {n : ℕ} {a b : List α} (ha : a.length = n) (hb : b.length = n) :
    (mix a b).length = n := by
  simp [mix, ha, hb]

theorem mix_append {a b c d : List α} (h : a.length = c.length) :
    mix (a ++ b) (c ++ d) = mix a c ++ mix b d :=
  List.zipWith_append h

theorem foldl_mix_length {n : ℕ} {init : List α} (hinit : init.length = n)
    {blocks : List (List α)} (h : ∀ b ∈ blocks, b.length = n) :
    (blocks.foldl mix init).length = n := by
  induction blocks generalizing init with
  | nil => exact hinit
  | cons b blocks ih =>
    rw [List.foldl_cons]
    exact ih (mix_length hinit (h b List.mem_cons_self))
      (fun c hc => h c (List.mem_cons_of_mem b hc))

theorem mixAll_length (zero : α) {n : ℕ} {blocks : List (List α)}
    (h : ∀ b ∈ blocks, b.length = n) : (mixAll zero n blocks).length = n :=
  foldl_mix_length (List.length_replicate) h

theorem foldl_mix_append {m : ℕ} (f g : τ → List α) {xs : List τ} {a b : List α}
    (ha : a.length = m) (h : ∀ x ∈ xs, (f x).length = m) :
    (xs.map fun x => f x ++ g x).foldl mix (a ++ b) =
      (xs.map f).foldl mix a ++ (xs.map g).foldl mix b := by
  induction xs generalizing a b with
  | nil => rfl
  | cons x xs ih =>
    have hx := h x List.mem_cons_self
    simp only [List.map_cons, List.foldl_cons]
    rw [mix_append (by omega)]
    exact ih (mix_length ha hx) (fun y hy => h y (List.mem_cons_of_mem x hy))

/-- Mixing distributes over a cut at which all the mixed blocks are cut. -/
theorem mixAll_append (zero : α) {m : ℕ} (n : ℕ) (f g : τ → List α) {xs : List τ}
    (h : ∀ x ∈ xs, (f x).length = m) :
    mixAll zero (m + n) (xs.map fun x => f x ++ g x) =
      mixAll zero m (xs.map f) ++ mixAll zero n (xs.map g) := by
  unfold mixAll
  rw [List.replicate_add]
  exact foldl_mix_append f g List.length_replicate h

end Mix

/-! ## Blocks of one length -/

/-- Of the first `n` blocks of a stream, each of length `c`, the block `k` is found at `k * c`. -/
theorem getElem?_flatMap_range {block : ℕ → List α} {c : ℕ} (hblock : ∀ k, (block k).length = c)
    {n k i : ℕ} (hk : k < n) (hi : i < c) :
    ((List.range n).flatMap block)[k * c + i]? = (block k)[i]? := by
  induction n with
  | zero => exact absurd hk (Nat.not_lt_zero k)
  | succ n ih =>
    have hlength : ((List.range n).flatMap block).length = n * c := by
      simp [List.length_flatMap, hblock]
    rw [List.range_succ, List.flatMap_append, List.flatMap_singleton]
    obtain hlt | rfl := Nat.lt_succ_iff_lt_or_eq.mp hk
    · have hfits : k * c + i < n * c :=
        calc k * c + i < k * c + c := Nat.add_lt_add_left hi _
          _ = (k + 1) * c := (Nat.succ_mul k c).symm
          _ ≤ n * c := Nat.mul_le_mul_right c hlt
      rw [List.getElem?_append_left (by rw [hlength]; exact hfits)]
      exact ih hlt
    · rw [List.getElem?_append_right (by rw [hlength]; exact Nat.le_add_right _ _), hlength,
        Nat.add_sub_cancel_left]

end HikaruOpenLive.Foundations.BlockSplit
