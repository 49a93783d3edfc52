import Mathlib.Data.List.Forall2

/-! # Lists edited in place

`updateFirst` changes the first element that satisfies a test, as a search followed by a write does.
The counting lemmas say that an edit which creates no new witness of a property does not raise its
count.
-/
set_option autoImplicit false

namespace HikaruOpenLive.Foundations.ListEdits

variable {α : Type}

/-- The list with its first element satisfying `p` replaced by its image. -/
def updateFirst (p : α → Bool) (f : α → α) : List α → List α
  | [] => []
  | a :: as => if p a then f a :: as else a :: updateFirst p f as

theorem mem_updateFirst {p : α → Bool} {f : α → α} {b : α} {as : List α}
    (h : b ∈ updateFirst p f as) : b ∈ as ∨ ∃ a ∈ as, p a = true ∧ b = f a := by
  induction as with
  | nil => simp [updateFirst] at h
  | cons a as ih =>
    unfold updateFirst at h
    split at h
    case isTrue hp =>
      obtain rfl | h := List.mem_cons.mp h
      · exact Or.inr ⟨a, List.mem_cons_self, hp, rfl⟩
      · exact Or.inl (List.mem_cons_of_mem a h)
    case isFalse =>
      obtain rfl | h := List.mem_cons.mp h
      · exact Or.inl List.mem_cons_self
      · obtain h | ⟨c, hc, hp, rfl⟩ := ih h
        · exact Or.inl (List.mem_cons_of_mem a h)
        · exact Or.inr ⟨c, List.mem_cons_of_mem a hc, hp, rfl⟩

/-- An element put in place of the first found, or at the end when there is none. -/
theorem mem_updateFirst_or_append {p : α → Bool} {a b : α} {as : List α}
    (h : b ∈ if as.any p then updateFirst p (fun _ => a) as else as ++ [a]) : b = a ∨ b ∈ as := by
  split at h
  · obtain h | ⟨_, _, _, rfl⟩ := mem_updateFirst h
    · exact Or.inr h
    · exact Or.inl rfl
  · obtain h | h := List.mem_append.mp h
    · exact Or.inr h
    · exact Or.inl (List.mem_singleton.mp h)

theorem map_updateFirst {β : Type} {g : α → β} (p : α → Bool) (f : α → α)
    (h : ∀ a, g (f a) = g a) (as : List α) : (updateFirst p f as).map g = as.map g := by
  induction as with
  | nil => rfl
  | cons a as ih =>
    rw [updateFirst]
    split
    · rw [List.map_cons, List.map_cons, h]
    · rw [List.map_cons, List.map_cons, ih]

theorem updateFirst_eq_self {p : α → Bool} {f : α → α} {as : List α} (h : ∀ a ∈ as, ¬ p a = true) :
    updateFirst p f as = as := by
  induction as with
  | nil => rfl
  | cons a as ih =>
    rw [updateFirst, if_neg (h a List.mem_cons_self), ih fun b hb => h b (List.mem_cons_of_mem a hb)]

/-- An edit that leaves the element found as it is leaves the list. -/
theorem updateFirst_found {p : α → Bool} {f : α → α} {as : List α} {a : α}
    (h : as.find? p = some a) (hf : f a = a) : updateFirst p f as = as := by
  induction as with
  | nil => rfl
  | cons b as ih =>
    rw [updateFirst]
    by_cases hp : p b = true
    · rw [List.find?_cons_of_pos hp] at h
      obtain rfl := Option.some.inj h
      rw [if_pos hp, hf]
    · rw [List.find?_cons_of_neg hp] at h
      rw [if_neg hp, ih h]

/-- A name kept by a partial map: the names of what is mapped are among the names there were. -/
theorem sublist_map_filterMap {β γ : Type} {f : α → Option β} {g : β → γ} {h : α → γ}
    (hkeep : ∀ a b, f a = some b → g b = h a) (l : List α) :
    ((l.filterMap f).map g).Sublist (l.map h) := by
  induction l with
  | nil => exact List.Sublist.refl _
  | cons a l ih =>
    cases hf : f a with
    | none =>
      rw [List.filterMap_cons_none hf]
      exact ih.cons _
    | some b =>
      rw [List.filterMap_cons_some hf, List.map_cons, List.map_cons, hkeep a b hf]
      exact ih.cons_cons _

/-- A search for what was edited finds the edited element. -/
theorem find?_updateFirst_self {p q : α → Bool} {f : α → α} {as : List α}
    (hpq : ∀ a ∈ as, q a = p a) (hf : ∀ a, p a = true → q (f a) = true) :
    (updateFirst p f as).find? q = (as.find? p).map f := by
  induction as with
  | nil => rfl
  | cons a as ih =>
    have hpq' : ∀ b ∈ as, q b = p b := fun b hb => hpq b (List.mem_cons_of_mem a hb)
    rw [updateFirst]
    by_cases hp : p a = true
    · rw [if_pos hp, List.find?_cons_of_pos (hf a hp), List.find?_cons_of_pos hp]
      rfl
    · have hq : ¬ q a = true := by
        rw [hpq a List.mem_cons_self]
        exact hp
      rw [if_neg hp, List.find?_cons_of_neg hq, List.find?_cons_of_neg hp]
      exact ih hpq'

/-- A search that sees of what was edited neither the old nor the new finds what it found before. -/
theorem find?_updateFirst_skip {p q : α → Bool} {f : α → α} {as : List α}
    (hfirst : ∀ a, as.find? p = some a → q a = false ∧ q (f a) = false) :
    (updateFirst p f as).find? q = as.find? q := by
  induction as with
  | nil => rfl
  | cons a as ih =>
    rw [updateFirst]
    by_cases hp : p a = true
    · obtain ⟨hq, hqf⟩ := hfirst a (List.find?_cons_of_pos hp)
      rw [if_pos hp, List.find?_cons_of_neg (by simp [hqf]), List.find?_cons_of_neg (by simp [hq])]
    · rw [List.find?_cons_of_neg hp] at hfirst
      rw [if_neg hp, List.find?_cons, List.find?_cons, ih hfirst]

theorem find?_updateFirst_other {p q : α → Bool} {f : α → α} {as : List α}
    (h : ∀ a ∈ as, p a = true → q a = false ∧ q (f a) = false) :
    (updateFirst p f as).find? q = as.find? q :=
  find?_updateFirst_skip fun a ha => h a (List.mem_of_find?_eq_some ha) (List.find?_some ha)

/-- A narrower search that finds the same element finds it edited. -/
theorem find?_updateFirst_first {p q : α → Bool} {f : α → α} {as : List α}
    (hqp : ∀ a, q a = true → p a = true) (hfirst : ∀ a, as.find? p = some a → q a = true)
    (hf : ∀ a, q a = true → q (f a) = true) :
    as.find? q = as.find? p ∧ (updateFirst p f as).find? q = (as.find? p).map f := by
  induction as with
  | nil => exact ⟨rfl, rfl⟩
  | cons a as ih =>
    rw [updateFirst]
    by_cases hp : p a = true
    · have hq := hfirst a (List.find?_cons_of_pos hp)
      rw [if_pos hp, List.find?_cons_of_pos hp, List.find?_cons_of_pos hq,
        List.find?_cons_of_pos (hf a hq)]
      exact ⟨rfl, rfl⟩
    · have hq : ¬ q a = true := fun hq => hp (hqp a hq)
      rw [List.find?_cons_of_neg hp] at hfirst ⊢
      rw [if_neg hp, List.find?_cons_of_neg hq, List.find?_cons_of_neg hq]
      exact ih hfirst

/-- Every element is related to what stands in its place afterwards. -/
theorem forall₂_updateFirst {R : α → α → Prop} (hrefl : ∀ a, R a a) {p : α → Bool} {f : α → α}
    {as : List α} (hfirst : ∀ a, as.find? p = some a → R a (f a)) :
    List.Forall₂ R as (updateFirst p f as) := by
  induction as with
  | nil => exact .nil
  | cons a as ih =>
    rw [updateFirst]
    by_cases hp : p a = true
    · rw [if_pos hp]
      exact .cons (hfirst a (List.find?_cons_of_pos hp)) (List.forall₂_same.mpr fun b _ => hrefl b)
    · rw [List.find?_cons_of_neg hp] at hfirst
      rw [if_neg hp]
      exact .cons (hrefl a) (ih hfirst)

theorem countP_updateFirst_le {q : α → Bool} (p : α → Bool) (f : α → α)
    (h : ∀ a, p a = true → q (f a) = true → q a = true) (as : List α) :
    (updateFirst p f as).countP q ≤ as.countP q := by
  induction as with
  | nil => exact Nat.le_refl _
  | cons a as ih =>
    rw [updateFirst]
    split
    case isTrue hp =>
      rw [List.countP_cons, List.countP_cons]
      by_cases hq : q (f a) = true
      · simp [hq, h a hp hq]
      · simp [hq]
    case isFalse =>
      rw [List.countP_cons, List.countP_cons]
      exact Nat.add_le_add_right ih _

theorem countP_map_le {q : α → Bool} (f : α → α) (h : ∀ a, q (f a) = true → q a = true)
    (as : List α) : (as.map f).countP q ≤ as.countP q := by
  rw [List.countP_map]
  exact List.countP_mono_left (fun a _ ha => h a ha)

theorem lt_of_getElem? {l : List α} {i : ℕ} {a : α} (h : l[i]? = some a) : i < l.length := by
  by_contra hle
  rw [List.getElem?_eq_none (by omega)] at h
  exact absurd h (by simp)

/-- A list cut to the length of another and one, or filled up from that one, behind its first element. -/
theorem getElem?_take_append_drop {β : Type} {as : List α} {bs : List β} (f : β → α) (hpos : 0 < as.length)
    {i : ℕ} {b : β} (hb : bs[i]? = some b) :
    (as.take (bs.length + 1) ++ (bs.drop (as.length - 1)).map f)[i + 1]? =
      some ((as[i + 1]?).getD (f b)) := by
  have hi := lt_of_getElem? hb
  by_cases has : i + 1 < as.length
  · rw [List.getElem?_append_left (by rw [List.length_take]; omega), List.getElem?_take,
      if_pos (by omega), List.getElem?_eq_getElem has]
    rfl
  · have hlength : (as.take (bs.length + 1)).length = as.length := by
      rw [List.length_take]
      omega
    have hindex : as.length - 1 + (i + 1 - as.length) = i := by omega
    rw [List.getElem?_append_right (by omega), hlength, List.getElem?_map, List.getElem?_drop, hindex, hb,
      List.getElem?_eq_none (by omega : as.length ≤ i + 1)]
    rfl

theorem getElem?_map_zip_zipIdx {β γ : Type} {as : List α} {bs : List β} (f : (α × β) × ℕ → γ) {i : ℕ}
    {a : α} {b : β} (ha : as[i]? = some a) (hb : bs[i]? = some b) :
    ((as.zip bs).zipIdx.map f)[i]? = some (f ((a, b), i)) := by
  have hzip : (as.zip bs)[i]? = some (a, b) := List.getElem?_zip_eq_some.mpr ⟨ha, hb⟩
  rw [List.getElem?_map, List.getElem?_zipIdx, hzip]
  simp

/-- Two lists of one length walked together leave the second as it is if each step does. -/
theorem map_zip_zipIdx_eq_iff {β γ : Type} {as : List β} {bs : List γ} (hlength : bs.length = as.length)
    (f : (β × γ) × ℕ → γ) :
    (as.zip bs).zipIdx.map f = bs ↔
      ∀ (i : ℕ) (b : γ) (a : β), bs[i]? = some b → as[i]? = some a → f ((a, b), i) = b := by
  constructor
  · intro h i b a hb ha
    have hi := getElem?_map_zip_zipIdx f ha hb
    rw [h, hb] at hi
    exact (Option.some.inj hi).symm
  · intro h
    apply List.ext_getElem?
    intro i
    by_cases hi : i < bs.length
    · have hb := List.getElem?_eq_getElem hi
      have ha := List.getElem?_eq_getElem (hlength ▸ hi : i < as.length)
      rw [getElem?_map_zip_zipIdx f ha hb, hb, h i _ _ hb ha]
    · have hlong : ((as.zip bs).zipIdx.map f).length ≤ i := by
        rw [List.length_map, List.length_zipIdx, List.length_zip]
        omega
      rw [List.getElem?_eq_none hlong, List.getElem?_eq_none (by omega)]

theorem insertIdx_eraseIdx_self {l : List α} {i : ℕ} (h : i < l.length) (a : α) :
    (l.eraseIdx i).insertIdx i a = l.set i a := by
  induction l generalizing i with
  | nil => exact absurd h (by simp)
  | cons x xs ih =>
    cases i with
    | zero => rfl
    | succ i => exact congrArg (List.cons x) (ih (by simpa using h))

/-- The element at a position replaced, or a new one at the end when there is none. -/
def putAt (l : List α) (i : ℕ) (a : α) : List α :=
  if i < l.length then l.set i a else l ++ [a]

theorem insertIdx_eraseIdx_min (l : List α) (i : ℕ) (a : α) :
    (l.eraseIdx i).insertIdx (min i (l.eraseIdx i).length) a = putAt l i a := by
  unfold putAt
  split
  case isTrue h =>
    have hmin : min i (l.eraseIdx i).length = i := by
      rw [List.length_eraseIdx_of_lt h]
      omega
    rw [hmin, insertIdx_eraseIdx_self h]
  case isFalse h =>
    have hle : l.length ≤ i := by omega
    rw [List.eraseIdx_of_length_le hle, Nat.min_eq_right hle, List.insertIdx_length_self]

theorem putAt_getElem? (l : List α) {i : ℕ} (hi : i ≤ l.length) (a : α) (j : ℕ) :
    (putAt l i a)[j]? = if j = i then some a else l[j]? := by
  unfold putAt
  split
  case isTrue h =>
    by_cases hj : j = i
    · subst hj
      rw [if_pos rfl, List.getElem?_set_self h]
    · rw [if_neg hj, List.getElem?_set_ne (Ne.symm hj)]
  case isFalse h =>
    have hlen : i = l.length := by omega
    by_cases hj : j = i
    · rw [if_pos hj, hj, hlen, List.getElem?_concat_length]
    · rw [if_neg hj]
      by_cases hlt : j < l.length
      · rw [List.getElem?_append_left hlt]
      · rw [List.getElem?_eq_none (by simp; omega), List.getElem?_eq_none (by omega)]

theorem putAt_getElem?_ne (l : List α) {i j : ℕ} (a : α) (hj : j ≠ i) (hlt : j < l.length) :
    (putAt l i a)[j]? = l[j]? := by
  unfold putAt
  split
  · rw [List.getElem?_set_ne (Ne.symm hj)]
  · rw [List.getElem?_append_left hlt]

theorem map_putAt {β : Type} (g : α → β) (l : List α) (i : ℕ) (a : α) :
    (putAt l i a).map g = putAt (l.map g) i (g a) := by
  unfold putAt
  rw [List.length_map]
  split
  · exact List.map_set
  · exact List.map_append

theorem map_modify_of_eq {β : Type} {g : α → β} {f : α → α} (h : ∀ a, g (f a) = g a) (l : List α)
    (i : ℕ) : (l.modify i f).map g = l.map g := by
  apply List.ext_getElem?
  intro j
  rw [List.getElem?_map, List.getElem?_map, List.getElem?_modify]
  cases l[j]? with
  | none => rfl
  | some a =>
    by_cases hi : i = j
    · simp [hi, h]
    · simp [hi]

theorem map_modify_of_const {β : Type} {g : α → β} {f : α → α} {b : β} (h : ∀ a, g (f a) = b)
    (l : List α) (i : ℕ) : (l.modify i f).map g = (l.map g).set i b := by
  apply List.ext_getElem?
  intro j
  rw [List.getElem?_map, List.getElem?_modify, List.getElem?_set, List.getElem?_map]
  by_cases hi : i = j
  · subst hi
    by_cases hlt : i < l.length
    · simp [h, hlt]
    · simp [hlt]
  · simp [hi]

theorem mem_putAt {l : List α} {i : ℕ} {a b : α} (h : b ∈ putAt l i a) : b = a ∨ b ∈ l := by
  unfold putAt at h
  split at h
  · obtain h | h := List.mem_or_eq_of_mem_set h
    · exact Or.inr h
    · exact Or.inl h
  · obtain h | h := List.mem_append.mp h
    · exact Or.inr h
    · exact Or.inl (List.mem_singleton.mp h)

theorem mem_modify {l : List α} {i : ℕ} {f : α → α} {b : α} (h : b ∈ l.modify i f) :
    b ∈ l ∨ ∃ a, l[i]? = some a ∧ b = f a := by
  obtain ⟨j, hj⟩ := List.getElem?_of_mem h
  rw [List.getElem?_modify] at hj
  cases ha : l[j]? with
  | none =>
    rw [ha] at hj
    exact absurd hj (by simp)
  | some a =>
    rw [ha] at hj
    by_cases hi : i = j
    · exact Or.inr ⟨a, by rw [hi, ha], by simpa [hi] using hj.symm⟩
    · have hb : b = a := by simpa [hi] using hj.symm
      exact Or.inl (by rw [hb]; exact List.mem_of_getElem? ha)

/-- Two selections of a list read alike if and only if they select the same, when what they select is
known from what is read. -/
theorem map_filter_eq_iff {β : Type} {l : List α} {p q : α → Bool} {f : α → β}
    (hpq : ∀ a b, f a = f b → p a = true → q b = true → q a = true)
    (hqp : ∀ a b, f a = f b → q a = true → p b = true → p a = true) :
    (l.filter p).map f = (l.filter q).map f ↔ ∀ a ∈ l, p a = q a := by
  constructor
  · intro h a ha
    have hselect {r s : α → Bool} (hrs : (l.filter r).map f = (l.filter s).map f)
        (hback : ∀ a b, f a = f b → r a = true → s b = true → s a = true) (hr : r a = true) :
        s a = true := by
      have hmem : f a ∈ (l.filter s).map f :=
        hrs ▸ List.mem_map_of_mem (List.mem_filter.mpr ⟨ha, hr⟩)
      obtain ⟨b, hb, hba⟩ := List.mem_map.mp hmem
      exact hback a b hba.symm hr (List.mem_filter.mp hb).2
    exact Bool.eq_iff_iff.mpr ⟨hselect h hpq, hselect h.symm hqp⟩
  · intro h
    rw [List.filter_congr h]

theorem filter_eq_filter_iff {l : List α} {p q : α → Bool} :
    l.filter p = l.filter q ↔ ∀ a ∈ l, (p a = true ↔ q a = true) := by
  have hsame : (l.filter p).map id = (l.filter q).map id ↔ ∀ a ∈ l, p a = q a := by
    refine map_filter_eq_iff (fun a b hab _ hq => ?_) fun a b hab _ hp => ?_
    · rw [show a = b from hab, hq]
    · rw [show a = b from hab, hp]
  rw [List.map_id, List.map_id] at hsame
  rw [hsame]
  exact forall₂_congr fun a _ => Bool.eq_iff_iff

/-- A list read by index, up to its length, is the list. -/
theorem filterMap_getElem?_range {α β : Type} (l : List α) (f : α → β) :
    ((List.range l.length).filterMap fun i => (l[i]?).map f) = l.map f := by
  induction l with
  | nil => rfl
  | cons a l ih =>
    rw [List.length_cons, List.range_succ_eq_map, List.filterMap_cons, List.filterMap_map]
    simp only [List.getElem?_cons_zero, Option.map_some, List.map_cons, Function.comp_def,
      List.getElem?_cons_succ]
    rw [ih]

end HikaruOpenLive.Foundations.ListEdits
