import Mathlib.Data.List.TakeWhile

/-! # Words, keys and values

The words of a text are its longest pieces without a blank; blanks around them and between them do not
count. A word with a separator in it is a key and a value, and a list of texts written with separators
between them is read back by splitting at these.
-/
set_option autoImplicit false

namespace HikaruOpenLive.Foundations.Words

variable {α : Type*} {blank : α → Bool}

/-! ## Words -/

def words (blank : α → Bool) (text : List α) : List (List α) :=
  (text.splitOnP blank).filter fun w => !w.isEmpty

@[simp] theorem words_nil : words blank [] = [] := rfl

theorem words_append_cons {b : α} (hb : blank b = true) (xs ys : List α) :
    words blank (xs ++ b :: ys) = words blank xs ++ words blank ys := by
  rw [words, List.splitOnP_append_cons xs ys hb, List.filter_append, words, words]

theorem words_cons {b : α} (hb : blank b = true) (ys : List α) : words blank (b :: ys) = words blank ys :=
  words_append_cons hb [] ys

theorem words_singleton {w : List α} (h : ∀ c ∈ w, blank c = false) (hw : w ≠ []) : words blank w = [w] := by
  have hne : (!w.isEmpty) = true := by
    rw [List.isEmpty_eq_false_iff.mpr hw]
    rfl
  rw [words, List.splitOnP_eq_singleton h, List.filter_cons, if_pos hne, List.filter_nil]

theorem words_blanks {s : List α} (h : ∀ c ∈ s, blank c = true) : words blank s = [] := by
  induction s with
  | nil => rfl
  | cons b s ih =>
    rw [words_cons (h b List.mem_cons_self)]
    exact ih fun c hc => h c (List.mem_cons_of_mem b hc)

theorem words_append_blanks (xs : List α) {s : List α} (h : ∀ c ∈ s, blank c = true) :
    words blank (xs ++ s) = words blank xs := by
  cases s with
  | nil => rw [List.append_nil]
  | cons b s =>
    rw [words_append_cons (h b List.mem_cons_self), words_blanks fun c hc => h c (List.mem_cons_of_mem b hc),
      List.append_nil]

theorem words_dropWhile (xs : List α) : words blank (xs.dropWhile blank) = words blank xs := by
  induction xs with
  | nil => rfl
  | cons x xs ih =>
    rw [List.dropWhile_cons]
    split
    case isTrue h => rw [ih, words_cons h]
    case isFalse => rfl

/-- A text without the blanks around it. -/
def trimmed (blank : α → Bool) (xs : List α) : List α :=
  ((xs.dropWhile blank).reverse.dropWhile blank).reverse

theorem words_trimmed (xs : List α) : words blank (trimmed blank xs) = words blank xs := by
  have hsplit : xs.dropWhile blank =
      trimmed blank xs ++ ((xs.dropWhile blank).reverse.takeWhile blank).reverse := by
    rw [trimmed, ← List.reverse_append, List.takeWhile_append_dropWhile, List.reverse_reverse]
  have hblank : ∀ c ∈ ((xs.dropWhile blank).reverse.takeWhile blank).reverse, blank c = true := by
    intro c hc
    exact List.mem_takeWhile_imp (List.mem_reverse.mp hc)
  rw [← words_append_blanks (trimmed blank xs) hblank, ← hsplit, words_dropWhile]

/-- A word between two texts that keep their distance from it. -/
theorem words_between {pre w post : List α} (hpre : pre = [] ∨ ∃ xs b, blank b = true ∧ pre = xs ++ [b])
    (hpost : post = [] ∨ ∃ b ys, blank b = true ∧ post = b :: ys) (h : ∀ c ∈ w, blank c = false) (hw : w ≠ []) :
    words blank (pre ++ w ++ post) = words blank pre ++ w :: words blank post := by
  have hleft : words blank (pre ++ w) = words blank pre ++ [w] := by
    obtain rfl | ⟨xs, b, hb, rfl⟩ := hpre
    · exact words_singleton h hw
    · rw [List.append_assoc, List.singleton_append, words_append_cons hb, words_singleton h hw,
        words_append_cons hb, words_nil, List.append_nil]
  obtain rfl | ⟨b, ys, hb, rfl⟩ := hpost
  · rw [List.append_nil, hleft, words_nil]
  · rw [words_append_cons hb, hleft, words_cons hb, List.append_assoc, List.singleton_append]

/-! ## Keys and values -/

section SplitOnce

variable [DecidableEq α]

def splitOnce (sep : α) : List α → Option (List α × List α)
  | [] => none
  | a :: text => if a = sep then some ([], text) else (splitOnce sep text).map fun p => (a :: p.1, p.2)

theorem splitOnce_append {sep : α} {key : List α} (h : sep ∉ key) (value : List α) :
    splitOnce sep (key ++ sep :: value) = some (key, value) := by
  induction key with
  | nil => rw [List.nil_append, splitOnce, if_pos rfl]
  | cons a key ih =>
    rw [List.mem_cons, not_or] at h
    rw [List.cons_append, splitOnce, if_neg (Ne.symm h.1), ih h.2]
    rfl

theorem splitOnce_eq_none {sep : α} {text : List α} (h : sep ∉ text) : splitOnce sep text = none := by
  induction text with
  | nil => rfl
  | cons a text ih =>
    rw [List.mem_cons, not_or] at h
    rw [splitOnce, if_neg (Ne.symm h.1), ih h.2]
    rfl

theorem eq_of_splitOnce {sep : α} {text key value : List α} (h : splitOnce sep text = some (key, value)) :
    text = key ++ sep :: value := by
  induction text generalizing key value with
  | nil => cases h
  | cons a text ih =>
    rw [splitOnce] at h
    split at h
    case isTrue ha =>
      cases h
      rw [ha, List.nil_append]
    case isFalse =>
      obtain ⟨p, hp, hcons⟩ := Option.map_eq_some_iff.mp h
      cases hcons
      rw [ih hp, List.cons_append]

/-! ## Lists of texts -/

/-- The texts between the separators, without the empty ones. -/
def listed (sep : α) (text : List α) : List (List α) :=
  (text.splitOn sep).filter fun s => !s.isEmpty

theorem listed_intercalate {sep : α} {texts : List (List α)} (hsep : ∀ t ∈ texts, sep ∉ t)
    (hempty : ∀ t ∈ texts, t ≠ []) : listed sep ([sep].intercalate texts) = texts := by
  cases texts with
  | nil =>
    rw [List.intercalate_nil, listed, List.splitOn_nil]
    rfl
  | cons t texts =>
    rw [listed, List.splitOn_intercalate sep hsep (List.cons_ne_nil _ _), List.filter_eq_self]
    intro s hs
    rw [List.isEmpty_eq_false_iff.mpr (hempty s hs)]
    rfl

omit [DecidableEq α] in
/-- A list of texts grows by a separator and the next text. -/
theorem intercalate_concat {sep : α} {texts : List (List α)} (hne : texts ≠ []) (t : List α) :
    [sep].intercalate (texts ++ [t]) = [sep].intercalate texts ++ sep :: t := by
  induction texts with
  | nil => exact absurd rfl hne
  | cons u texts ih =>
    cases texts with
    | nil =>
      rw [List.singleton_append, List.intercalate_cons_cons, List.intercalate_singleton, List.intercalate_singleton,
        List.append_assoc, List.singleton_append]
    | cons v texts =>
      rw [List.cons_append, List.intercalate_cons_of_ne_nil (List.append_ne_nil_of_right_ne_nil _ (List.cons_ne_nil t [])),
        ih (List.cons_ne_nil v texts), List.intercalate_cons_cons, List.append_assoc (u ++ [sep])]

omit [DecidableEq α] in
theorem intercalate_eq_nil {sep : α} {texts : List (List α)} (hempty : ∀ t ∈ texts, t ≠ []) :
    [sep].intercalate texts = [] ↔ texts = [] := by
  constructor
  · intro h
    cases texts with
    | nil => rfl
    | cons t texts =>
      have ht : t ≠ [] := hempty t List.mem_cons_self
      cases texts with
      | nil => exact absurd (List.intercalate_singleton.symm.trans h) ht
      | cons u texts =>
        rw [List.intercalate_cons_cons, List.append_assoc] at h
        exact absurd (List.append_eq_nil_iff.mp h).1 ht
  · rintro rfl
    rfl

omit [DecidableEq α] in
theorem mem_intercalate {sep c : α} {texts : List (List α)} (h : c ∈ [sep].intercalate texts) :
    c = sep ∨ ∃ t ∈ texts, c ∈ t := by
  induction texts with
  | nil => cases h
  | cons t texts ih =>
    cases texts with
    | nil =>
      rw [List.intercalate_singleton] at h
      exact Or.inr ⟨t, List.mem_cons_self, h⟩
    | cons u texts =>
      rw [List.intercalate_cons_cons, List.mem_append, List.mem_append, List.mem_singleton] at h
      obtain (h | h) | h := h
      · exact Or.inr ⟨t, List.mem_cons_self, h⟩
      · exact Or.inl h
      · obtain h | ⟨v, hv, hc⟩ := ih h
        · exact Or.inl h
        · exact Or.inr ⟨v, List.mem_cons_of_mem t hv, hc⟩

end SplitOnce

end HikaruOpenLive.Foundations.Words
