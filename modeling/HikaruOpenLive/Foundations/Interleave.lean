import HikaruOpenLive.Foundations.ListEdits

/-! # Two lists in one

`Interleave l r m` says that `m` has the elements of `l` and those of `r`, each in their order. An edit
of `m` that meets no element of `r` is the edit of `l` (`updateFirst_left`, `append_left`), a search that
meets none finds what it finds in `l`, and a fold over `m` that the elements of `l` leave alone is the
fold over `r` (`foldl_right`).
-/
set_option autoImplicit false

namespace HikaruOpenLive.Foundations

open ListEdits

inductive Interleave {α : Type} : List α → List α → List α → Prop where
  | nil : Interleave [] [] []
  | left (a : α) {l r m : List α} : Interleave l r m → Interleave (a :: l) r (a :: m)
  | right (b : α) {l r m : List α} : Interleave l r m → Interleave l (b :: r) (b :: m)

namespace Interleave

variable {α β σ : Type} {l r m : List α}

theorem symm (h : Interleave l r m) : Interleave r l m := by
  induction h with
  | nil => exact .nil
  | left a _ ih => exact .right a ih
  | right b _ ih => exact .left b ih

theorem length (h : Interleave l r m) : m.length = l.length + r.length := by
  induction h with
  | nil => rfl
  | left a _ ih =>
    rw [List.length_cons, List.length_cons, ih]
    omega
  | right b _ ih =>
    rw [List.length_cons, List.length_cons, ih]
    omega

theorem mem_iff (h : Interleave l r m) {a : α} : a ∈ m ↔ a ∈ l ∨ a ∈ r := by
  induction h with
  | nil => simp
  | left b _ ih => rw [List.mem_cons, List.mem_cons, ih, or_assoc]
  | right b _ ih => rw [List.mem_cons, List.mem_cons, ih, or_left_comm]

theorem map (f : α → β) (h : Interleave l r m) : Interleave (l.map f) (r.map f) (m.map f) := by
  induction h with
  | nil => exact .nil
  | left a _ ih => exact .left (f a) ih
  | right b _ ih => exact .right (f b) ih

theorem filter (p : α → Bool) (h : Interleave l r m) :
    Interleave (l.filter p) (r.filter p) (m.filter p) := by
  induction h with
  | nil => exact .nil
  | left a _ ih =>
    rw [List.filter_cons, List.filter_cons]
    split
    · exact .left a ih
    · exact ih
  | right b _ ih =>
    rw [List.filter_cons, List.filter_cons]
    split
    · exact .right b ih
    · exact ih

theorem append_left (h : Interleave l r m) (a : α) : Interleave (l ++ [a]) r (m ++ [a]) := by
  induction h with
  | nil => exact .left a .nil
  | left b _ ih => exact .left b ih
  | right b _ ih => exact .right b ih

theorem of_nil_right (h : Interleave l [] m) : m = l := by
  induction l generalizing m with
  | nil =>
    cases h with
    | nil => rfl
  | cons a l ih =>
    cases h with
    | left _ h => rw [ih h]

/-! ## What meets one of the two only -/

def Misses (p : α → Bool) (r : List α) : Prop :=
  ∀ b ∈ r, p b = false

theorem filter_of_misses {p : α → Bool} (h : Misses p r) : r.filter p = [] := by
  rw [List.filter_eq_nil_iff]
  intro b hb
  rw [h b hb]
  exact Bool.false_ne_true

theorem filter_left {p : α → Bool} (h : Interleave l r m) (hp : Misses p r) :
    m.filter p = l.filter p := by
  have hfiltered := h.filter p
  rw [filter_of_misses hp] at hfiltered
  exact of_nil_right hfiltered

theorem updateFirst_left {p : α → Bool} (f : α → α) (h : Interleave l r m) (hp : Misses p r) :
    Interleave (updateFirst p f l) r (updateFirst p f m) := by
  induction h with
  | nil => exact .nil
  | left a h ih =>
    rw [updateFirst, updateFirst]
    split
    · exact .left (f a) h
    · exact .left a (ih hp)
  | right b h ih =>
    have hb : p b = false := hp b List.mem_cons_self
    rw [updateFirst, if_neg (by rw [hb]; exact Bool.false_ne_true)]
    exact .right b (ih fun c hc => hp c (List.mem_cons_of_mem b hc))

theorem any_left {p : α → Bool} (h : Interleave l r m) (hp : Misses p r) : m.any p = l.any p := by
  rw [Bool.eq_iff_iff, List.any_eq_true, List.any_eq_true]
  constructor
  · rintro ⟨a, ha, hpa⟩
    obtain ha | ha := h.mem_iff.mp ha
    · exact ⟨a, ha, hpa⟩
    · rw [hp a ha] at hpa
      exact absurd hpa Bool.false_ne_true
  · rintro ⟨a, ha, hpa⟩
    exact ⟨a, h.mem_iff.mpr (Or.inl ha), hpa⟩

theorem find?_left {p : α → Bool} (h : Interleave l r m) (hp : Misses p r) :
    m.find? p = l.find? p := by
  induction h with
  | nil => rfl
  | left a _ ih => rw [List.find?_cons, List.find?_cons, ih hp]
  | right b _ ih =>
    have hb : p b = false := hp b List.mem_cons_self
    rw [List.find?_cons_of_neg (by rw [hb]; exact Bool.false_ne_true)]
    exact ih fun c hc => hp c (List.mem_cons_of_mem b hc)

/-- A map that leaves the right list alone is a map of the left one. -/
theorem map_left {f : α → α} (h : Interleave l r m) (hf : ∀ b ∈ r, f b = b) :
    Interleave (l.map f) r (m.map f) := by
  have hmapped := h.map f
  rwa [List.map_congr_left (g := id) hf, List.map_id] at hmapped

/-- A fold on whose states the left list has no effect. -/
theorem foldl_right {f : σ → α → σ} {I : σ → Prop} (h : Interleave l r m)
    (hkeep : ∀ s, ∀ b ∈ r, I s → I (f s b)) (hl : ∀ s, ∀ a ∈ l, I s → f s a = s) {s : σ} (hs : I s) :
    m.foldl f s = r.foldl f s := by
  induction h generalizing s with
  | nil => rfl
  | left a _ ih =>
    rw [List.foldl_cons, hl s a List.mem_cons_self hs]
    exact ih hkeep (fun s b hb => hl s b (List.mem_cons_of_mem a hb)) hs
  | right b _ ih =>
    rw [List.foldl_cons, List.foldl_cons]
    exact ih (fun s c hc => hkeep s c (List.mem_cons_of_mem b hc)) hl
      (hkeep s b List.mem_cons_self hs)

end Interleave

end HikaruOpenLive.Foundations
