import Mathlib.Logic.Function.Iterate

/-! # Processors of one sample at a time

A processor has a state and gives one output for every input, in order. `stream` is what it makes of a list
of inputs and the state it leaves.

`stream_take` is causality, a two-run law: outputs depend on the inputs up to them. `stream_control` is about
the part of a state that does not listen to the inputs at all. `stream_simulates` is the refinement rule: a
relation every step keeps, with equal outputs, makes the outputs of two processors equal; `stream_outputs` is
the rule for what all outputs have.

`tryStream` is for a processor that may fail at an input, and then gives nothing at all.
-/
set_option autoImplicit false

namespace HikaruOpenLive.Foundations.SampleStreams

variable {σ κ α β : Type}

def stream (f : σ → α → σ × β) : σ → List α → σ × List β
  | s, [] => (s, [])
  | s, x :: xs =>
    let rest := stream f (f s x).1 xs
    (rest.1, (f s x).2 :: rest.2)

variable {f : σ → α → σ × β}

theorem stream_cons (s : σ) (x : α) (xs : List α) :
    stream f s (x :: xs) = ((stream f (f s x).1 xs).1, (f s x).2 :: (stream f (f s x).1 xs).2) := rfl

theorem take_stream (s : σ) (xs : List α) (k : ℕ) :
    (stream f s xs).2.take k = (stream f s (xs.take k)).2 := by
  induction xs generalizing s k with
  | nil => rw [List.take_nil]; exact List.take_nil
  | cons x xs ih =>
    cases k with
    | zero => rfl
    | succ k => rw [stream_cons, List.take_succ_cons, List.take_succ_cons, stream_cons, ih]

/-- Inputs that agree up to a place give outputs that do. -/
theorem stream_take {s : σ} {xs ys : List α} {k : ℕ} (h : xs.take k = ys.take k) :
    (stream f s xs).2.take k = (stream f s ys).2.take k := by
  rw [take_stream, take_stream, h]

/-- A part of the state that goes its own way has gone as many steps as there were inputs. -/
theorem stream_control {π : σ → κ} {g : κ → κ} (h : ∀ s x, π (f s x).1 = g (π s)) (s : σ) (xs : List α) :
    π (stream f s xs).1 = g^[xs.length] (π s) := by
  induction xs generalizing s with
  | nil => rfl
  | cons x xs ih => rw [stream_cons, ih, h, List.length_cons, Function.iterate_succ_apply]

/-- A processor that hands its inputs on. -/
theorem stream_of_echo {f : σ → α → σ × α} {I : σ → Prop} (hkeep : ∀ s x, I s → I (f s x).1)
    (h : ∀ s x, I s → (f s x).2 = x) {s : σ} (hs : I s) (xs : List α) : (stream f s xs).2 = xs := by
  induction xs generalizing s with
  | nil => rfl
  | cons x xs ih => rw [stream_cons, h s x hs, ih (hkeep s x hs)]

/-- Two processors whose steps keep a relation and agree on the outputs make the same of the same inputs. -/
theorem stream_simulates {τ : Type} {g : τ → α → τ × β} {R : σ → τ → Prop} {ok : α → Prop}
    (h : ∀ s t x, R s t → ok x → R (f s x).1 (g t x).1 ∧ (f s x).2 = (g t x).2) {s : σ} {t : τ}
    (hR : R s t) {xs : List α} (hxs : ∀ x ∈ xs, ok x) : (stream f s xs).2 = (stream g t xs).2 := by
  induction xs generalizing s t with
  | nil => rfl
  | cons x xs ih =>
    obtain ⟨hstep, hout⟩ := h s t x hR (hxs x List.mem_cons_self)
    rw [stream_cons, stream_cons, hout, ih hstep fun y hy => hxs y (List.mem_cons_of_mem x hy)]

/-- What an invariant gives every output. -/
theorem stream_outputs {I : σ → Prop} {ok : α → Prop} {Q : β → Prop}
    (h : ∀ s x, I s → ok x → I (f s x).1 ∧ Q (f s x).2) {s : σ} (hs : I s) {xs : List α}
    (hxs : ∀ x ∈ xs, ok x) : ∀ y ∈ (stream f s xs).2, Q y := by
  induction xs generalizing s with
  | nil =>
    intro y hy
    cases hy
  | cons x xs ih =>
    obtain ⟨hstep, hout⟩ := h s x hs (hxs x List.mem_cons_self)
    intro y hy
    rw [stream_cons, List.mem_cons] at hy
    rcases hy with rfl | hy
    · exact hout
    · exact ih hstep (fun z hz => hxs z (List.mem_cons_of_mem x hz)) y hy

/-! ## Processors that may fail -/

def tryStream (f : σ → α → Option (σ × β)) : σ → List α → Option (σ × List β)
  | s, [] => some (s, [])
  | s, x :: xs => do
    let (s, y) ← f s x
    let (s, ys) ← tryStream f s xs
    return (s, y :: ys)

/-- One more input, after all the others. -/
theorem tryStream_concat (f : σ → α → Option (σ × β)) (s : σ) (xs : List α) (x : α) :
    tryStream f s (xs ++ [x]) =
      (tryStream f s xs).bind fun r => (f r.1 x).map fun q => (q.1, r.2 ++ [q.2]) := by
  induction xs generalizing s with
  | nil =>
    show (f s x).bind _ = (f s x).map _
    cases f s x with
    | none => rfl
    | some q => rfl
  | cons x' xs ih =>
    rw [List.cons_append, tryStream, tryStream]
    cases f s x' with
    | none => rfl
    | some q =>
      show (tryStream f q.1 (xs ++ [x])).bind _ = ((tryStream f q.1 xs).bind _).bind _
      rw [ih]
      cases tryStream f q.1 xs with
      | none => rfl
      | some r =>
        show ((f r.1 x).map _).bind _ = (f r.1 x).map _
        cases f r.1 x with
        | none => rfl
        | some _ => rfl

end HikaruOpenLive.Foundations.SampleStreams
