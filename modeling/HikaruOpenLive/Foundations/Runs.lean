import Mathlib.Data.List.Infix

/-! # Runs of a step function over a list of inputs

A state machine here is a step function `step : σ → ι → σ`; a run is a list of inputs, and its final
state is `List.foldl step`. `Always step P s is` says that `P` holds in every state the run visits
(the first one included), `Along step ok s is` that every step of it is taken where `ok` allows it.

`always_of_along` is the induction rule of every safety proof; `always_iff_along` is its exact form,
for a property that a step keeps precisely when `ok` allows the step (`always_iff_along_within`: in the
states of an invariant; `always_iff_along_where`: of runs whose steps are all `given`;
`always_iff_along_given`: both; `always_iff_along_while`: in the states of an invariant that only the
allowed steps keep; `along_due_iff`: for a property that is asked for at certain steps only).
-/
set_option autoImplicit false

namespace HikaruOpenLive.Foundations.Runs

variable {σ ι : Type}

/-- `P` holds in every state of the run. -/
def Always (step : σ → ι → σ) (P : σ → Prop) : σ → List ι → Prop
  | s, [] => P s
  | s, i :: is => P s ∧ Always step P (step s i) is

/-- Every step of the run is taken in a state and with an input that `ok` allows. -/
def Along (step : σ → ι → σ) (ok : σ → ι → Prop) : σ → List ι → Prop
  | _, [] => True
  | s, i :: is => ok s i ∧ Along step ok (step s i) is

variable {step : σ → ι → σ} {P : σ → Prop} {ok : σ → ι → Prop}

theorem Always.head {s : σ} {is : List ι} (h : Always step P s is) : P s := by
  cases is with
  | nil => exact h
  | cons i is => exact h.1

theorem Always.final {s : σ} {is : List ι} (h : Always step P s is) : P (is.foldl step s) := by
  induction is generalizing s with
  | nil => exact h
  | cons i is ih => exact ih h.2

theorem along_append {s : σ} {is js : List ι} :
    Along step ok s (is ++ js) ↔ Along step ok s is ∧ Along step ok (is.foldl step s) js := by
  induction is generalizing s with
  | nil => exact ⟨fun h => ⟨trivial, h⟩, fun h => h.2⟩
  | cons i is ih =>
    simp only [List.cons_append, List.foldl_cons, Along]
    rw [ih, and_assoc]

theorem always_append {s : σ} {is js : List ι} :
    Always step P s (is ++ js) ↔ Always step P s is ∧ Always step P (is.foldl step s) js := by
  induction is generalizing s with
  | nil => exact ⟨fun h => ⟨h.head, h⟩, fun h => h.2⟩
  | cons i is ih =>
    simp only [List.cons_append, List.foldl_cons, Always]
    rw [ih, and_assoc]

theorem Always.mono {Q : σ → Prop} {s : σ} {is : List ι} (h : Always step P s is)
    (hPQ : ∀ s, P s → Q s) : Always step Q s is := by
  induction is generalizing s with
  | nil => exact hPQ s h
  | cons i is ih => exact ⟨hPQ s h.1, ih h.2⟩

theorem Always.along (h : ∀ s i, P s → ok s i) {s : σ} {is : List ι} (hs : Always step P s is) :
    Along step ok s is := by
  induction is generalizing s with
  | nil => trivial
  | cons i is ih => exact ⟨h s i hs.1, ih hs.2⟩

theorem Along.mono {ok' : σ → ι → Prop} {s : σ} {is : List ι} (h : Along step ok s is)
    (hok : ∀ s i, ok s i → ok' s i) : Along step ok' s is := by
  induction is generalizing s with
  | nil => trivial
  | cons i is ih => exact ⟨hok s i h.1, ih h.2⟩

theorem along_of_forall_mem {ok' : ι → Prop} {is : List ι} (h : ∀ i ∈ is, ok' i) {s : σ} :
    Along step (fun _ i => ok' i) s is := by
  induction is generalizing s with
  | nil => trivial
  | cons i is ih => exact ⟨h i List.mem_cons_self, ih fun j hj => h j (List.mem_cons_of_mem i hj)⟩

/-- The induction rule: a property every allowed step keeps holds all along an allowed run. -/
theorem always_of_along (hstep : ∀ s i, P s → ok s i → P (step s i)) {s : σ} {is : List ι}
    (hs : P s) (h : Along step ok s is) : Always step P s is := by
  induction is generalizing s with
  | nil => exact hs
  | cons i is ih => exact ⟨hs, ih (hstep s i hs h.1) h.2⟩

theorem always_of_step (hstep : ∀ s i, P s → P (step s i)) {s : σ} {is : List ι} (hs : P s) :
    Always step P s is := by
  induction is generalizing s with
  | nil => exact hs
  | cons i is ih => exact ⟨hs, ih (hstep s i hs)⟩

/-- The exact form: within an invariant `I`, a step out of `P` keeps `P` precisely where `ok` allows it;
then a run stays in `P` precisely when all its steps are allowed. The invariant has to be kept by the
allowed steps only, and both are asked only of the steps that the run can take at all (`given`). -/
theorem always_iff_along_while {I : σ → Prop} {given : σ → ι → Prop}
    (hkeep : ∀ s i, given s i → I s → P s → ok s i → I (step s i))
    (hstep : ∀ s i, given s i → I s → P s → (P (step s i) ↔ ok s i)) {s : σ} {is : List ι} (hI : I s)
    (hs : P s) (h : Along step given s is) : Always step P s is ↔ Along step ok s is := by
  induction is generalizing s with
  | nil => exact ⟨fun _ => trivial, fun _ => hs⟩
  | cons i is ih =>
    obtain ⟨hgiven, hrest⟩ := h
    constructor
    · rintro ⟨_, h⟩
      have hP : P (step s i) := h.head
      have hok : ok s i := (hstep s i hgiven hI hs).mp hP
      exact ⟨hok, (ih (hkeep s i hgiven hI hs hok) hP hrest).mp h⟩
    · rintro ⟨hok, h⟩
      have hP : P (step s i) := (hstep s i hgiven hI hs).mpr hok
      exact ⟨hs, (ih (hkeep s i hgiven hI hs hok) hP hrest).mpr h⟩

theorem always_iff_along_given {I : σ → Prop} {given : σ → ι → Prop}
    (hkeep : ∀ s i, given s i → I s → I (step s i))
    (hstep : ∀ s i, given s i → I s → P s → (P (step s i) ↔ ok s i)) {s : σ} {is : List ι} (hI : I s)
    (hs : P s) (h : Along step given s is) : Always step P s is ↔ Along step ok s is :=
  always_iff_along_while (fun s i hgiven hI _ _ => hkeep s i hgiven hI) hstep hI hs h

theorem along_true {s : σ} {is : List ι} : Along step (fun _ _ => True) s is := by
  induction is generalizing s with
  | nil => trivial
  | cons i is ih => exact ⟨trivial, ih⟩

theorem always_iff_along_within {I : σ → Prop} (hkeep : ∀ s i, I s → I (step s i))
    (hstep : ∀ s i, I s → P s → (P (step s i) ↔ ok s i)) {s : σ} {is : List ι} (hI : I s) (hs : P s) :
    Always step P s is ↔ Along step ok s is :=
  always_iff_along_given (fun s i _ => hkeep s i) (fun s i _ => hstep s i) hI hs along_true

theorem always_iff_along (hstep : ∀ s i, P s → (P (step s i) ↔ ok s i)) {s : σ} {is : List ι}
    (hs : P s) : Always step P s is ↔ Along step ok s is :=
  always_iff_along_within (I := fun _ => True) (fun _ _ _ => trivial)
    (fun s i _ h => hstep s i h) trivial hs

theorem always_iff_along_where {given : σ → ι → Prop}
    (hstep : ∀ s i, given s i → P s → (P (step s i) ↔ ok s i)) {s : σ} {is : List ι} (hs : P s)
    (h : Along step given s is) : Always step P s is ↔ Along step ok s is :=
  always_iff_along_given (I := fun _ => True) (fun _ _ _ _ => trivial)
    (fun s i hi _ h => hstep s i hi h) trivial hs h

/-- Two conditions on steps that agree wherever a run of `given` steps can get under one of them allow
the same of these runs. -/
theorem along_iff_along_given {I : σ → Prop} {given ok' : σ → ι → Prop}
    (hkeep : ∀ s i, given s i → I s → ok' s i → I (step s i))
    (hiff : ∀ s i, given s i → I s → (ok s i ↔ ok' s i)) {s : σ} {is : List ι} (hs : I s)
    (h : Along step given s is) : Along step ok s is ↔ Along step ok' s is := by
  induction is generalizing s with
  | nil => exact Iff.rfl
  | cons i is ih =>
    obtain ⟨hgiven, hrest⟩ := h
    constructor
    · rintro ⟨hok, hoks⟩
      have hok' := (hiff s i hgiven hs).mp hok
      exact ⟨hok', (ih (hkeep s i hgiven hs hok') hrest).mp hoks⟩
    · rintro ⟨hok', hoks⟩
      exact ⟨(hiff s i hgiven hs).mpr hok', (ih (hkeep s i hgiven hs hok') hrest).mpr hoks⟩

theorem along_iff_along {I : σ → Prop} {ok' : σ → ι → Prop}
    (hkeep : ∀ s i, I s → ok' s i → I (step s i)) (hiff : ∀ s i, I s → (ok s i ↔ ok' s i)) {s : σ}
    {is : List ι} (hs : I s) : Along step ok s is ↔ Along step ok' s is :=
  along_iff_along_given (fun s i _ => hkeep s i) (fun s i _ => hiff s i) hs along_true

/-- `P` is asked for only at the steps that are `due`, and each of these restores it. A run up to such a step
is right precisely when `P` held at its start and no step broke it. -/
theorem along_due_iff {I : σ → Prop} {due : ι → Prop} (hkeep : ∀ s i, I s → I (step s i))
    (hbreak : ∀ s i, I s → ¬ due i → (P (step s i) ↔ P s ∧ ok s i))
    (hrestore : ∀ s i, I s → due i → P (step s i) ∧ ok s i) {s : σ} (hs : I s) {is : List ι} {last : ι}
    (hlast : due last) :
    Along step (fun s i => due i → P s) s (is ++ [last]) ↔ P s ∧ Along step ok s is := by
  induction is generalizing s with
  | nil =>
    show (due last → P s) ∧ True ↔ P s ∧ True
    simp only [hlast, true_implies]
  | cons i is ih =>
    rw [List.cons_append, Along, Along, ih (hkeep s i hs)]
    by_cases hdue : due i
    · obtain ⟨hP, hok⟩ := hrestore s i hs hdue
      simp only [hdue, true_implies, hP, hok, true_and]
    · rw [hbreak s i hs hdue]
      simp only [hdue, false_implies, true_and, and_assoc]

/-! ## Loops that may fail -/

/-- A loop whose every step succeeds and keeps an invariant succeeds and keeps it. -/
theorem foldlM_of_step {f : σ → ι → Option σ} {I : σ → Prop} {is : List ι}
    (hstep : ∀ s, ∀ i ∈ is, I s → ∃ s', f s i = some s' ∧ I s') {s : σ} (hs : I s) :
    ∃ s', is.foldlM f s = some s' ∧ I s' := by
  induction is generalizing s with
  | nil => exact ⟨s, rfl, hs⟩
  | cons i is ih =>
    obtain ⟨s₁, hf, h₁⟩ := hstep s i List.mem_cons_self hs
    obtain ⟨s₂, hfold, h₂⟩ := ih (fun s j hj => hstep s j (List.mem_cons_of_mem i hj)) h₁
    refine ⟨s₂, ?_, h₂⟩
    rw [List.foldlM_cons, hf]
    exact hfold

/-- What every step that succeeds keeps, a loop that succeeds keeps. -/
theorem foldlM_keeps {f : σ → ι → Option σ} {I : σ → Prop}
    (hstep : ∀ s i s', I s → f s i = some s' → I s') {is : List ι} {s s' : σ} (hs : I s)
    (h : is.foldlM f s = some s') : I s' := by
  induction is generalizing s with
  | nil =>
    rw [← Option.some.inj h]
    exact hs
  | cons i is ih =>
    rw [List.foldlM_cons] at h
    obtain ⟨s₁, hf, hrest⟩ := Option.bind_eq_some_iff.mp h
    exact ih (hstep s i s₁ hs hf) hrest

end HikaruOpenLive.Foundations.Runs
