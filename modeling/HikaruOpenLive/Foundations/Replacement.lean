import Mathlib.Data.List.Infix
import Mathlib.Data.List.Nodup

/-! # Replacing a word in a text

`replace old new` puts `new` for every `old`, from left to right, the next one searched for behind the last.
A text may be taken apart before a symbol that `old` does not have (`replace_append_cons`), and is left alone
where the first symbol of `old` is missing (`replace_append_of_notMem`).

A `Template` is a text with holes. While its words are replaced one after another, it stays that text with
something in its holes, as long as no word can begin in the text or reach over its edges (`Template.Guards`).
-/
set_option autoImplicit false

namespace HikaruOpenLive.Foundations.Replacement

variable {α : Type} [DecidableEq α]

/-- The search, with `skip` symbols still to leave out. -/
def replaceFrom (old new : List α) : ℕ → List α → List α
  | _, [] => []
  | skip + 1, _ :: xs => replaceFrom old new skip xs
  | 0, x :: xs =>
    if old <+: x :: xs then new ++ replaceFrom old new (old.length - 1) xs
    else x :: replaceFrom old new 0 xs

def replace (old new xs : List α) : List α :=
  replaceFrom old new 0 xs

variable {old new : List α}

theorem replaceFrom_drop (skip : ℕ) (xs : List α) :
    replaceFrom old new skip xs = replace old new (xs.drop skip) := by
  induction skip generalizing xs with
  | zero => rfl
  | succ skip ih =>
    cases xs with
    | nil => rw [List.drop_nil, replace, replaceFrom, replaceFrom]
    | cons x xs => rw [replaceFrom, ih, List.drop_succ_cons]

theorem replace_nil : replace old new [] = [] := by
  rw [replace, replaceFrom]

theorem replace_found {x : α} {xs : List α} (h : old <+: x :: xs) :
    replace old new (x :: xs) = new ++ replace old new (xs.drop (old.length - 1)) := by
  rw [replace, replaceFrom, if_pos h, replaceFrom_drop]

theorem replace_word (h : old ≠ []) (xs : List α) : replace old new (old ++ xs) = new ++ replace old new xs := by
  cases old with
  | nil => exact absurd rfl h
  | cons a old =>
    have hprefix : a :: old <+: a :: (old ++ xs) := List.prefix_append (a :: old) xs
    rw [List.cons_append, replace_found hprefix, List.length_cons, Nat.add_sub_cancel, List.drop_left]

theorem replace_cons {x : α} {xs : List α} (h : ¬ old <+: x :: xs) :
    replace old new (x :: xs) = x :: replace old new xs := by
  rw [replace, replaceFrom, if_neg h]
  rfl

/-- No word begins where its first symbol is not. -/
theorem replace_append_of_notMem {a : α} (hfirst : old.head? = some a) {xs : List α} (ha : a ∉ xs)
    (ys : List α) : replace old new (xs ++ ys) = xs ++ replace old new ys := by
  induction xs with
  | nil => rfl
  | cons x xs ih =>
    have hx : ¬ old <+: x :: (xs ++ ys) := by
      intro hprefix
      obtain ⟨tail, rfl⟩ := List.head?_eq_some_iff.mp hfirst
      have := (List.cons_prefix_cons.mp hprefix).1
      exact ha (this ▸ List.mem_cons_self)
    rw [List.cons_append, replace_cons hx, ih fun h => ha (List.mem_cons_of_mem x h)]
    rfl

omit [DecidableEq α] in
/-- A word without `c` ends before it or begins behind it. -/
theorem prefix_of_append_cons {c : α} (hc : c ∉ old) {xs ys : List α} (h : old <+: xs ++ c :: ys) : old <+: xs := by
  refine List.prefix_of_prefix_length_le h (List.prefix_append _ _) ?_
  by_contra hlong
  have hlt : xs.length < old.length := by omega
  obtain ⟨tail, htail⟩ := h
  have hat : (old ++ tail)[xs.length]? = some c := by
    rw [htail, List.getElem?_append_right le_rfl, Nat.sub_self]
    rfl
  rw [List.getElem?_append_left hlt] at hat
  exact hc (List.mem_of_getElem? hat)

/-- No word reaches over a symbol it does not have. -/
theorem replace_append_cons (hold : old ≠ []) {c : α} (hc : c ∉ old) (xs ys : List α) :
    replace old new (xs ++ c :: ys) = replace old new xs ++ c :: replace old new ys := by
  induction h : xs.length using Nat.strong_induction_on generalizing xs with
  | _ n ih =>
    cases xs with
    | nil =>
      have hnone : ¬ old <+: c :: ys := by
        intro hprefix
        have hempty : old <+: [] := prefix_of_append_cons hc hprefix
        exact hold (List.prefix_nil.mp hempty)
      rw [List.nil_append, replace_cons hnone, replace_nil]
      rfl
    | cons x xs =>
      rw [List.length_cons] at h
      by_cases hprefix : old <+: x :: xs
      · have hover : old <+: x :: (xs ++ c :: ys) := hprefix.trans (List.prefix_append _ _)
        have hlen : old.length - 1 ≤ xs.length := by
          have := hprefix.length_le
          rw [List.length_cons] at this
          omega
        have hrest := ih _ (by rw [← h, List.length_drop]; omega) (xs.drop (old.length - 1)) rfl
        rw [List.cons_append, replace_found hover, List.drop_append_of_le_length hlen, hrest,
          replace_found hprefix, List.append_assoc]
      · have hover : ¬ old <+: x :: (xs ++ c :: ys) := by
          intro h
          rw [← List.cons_append] at h
          exact hprefix (prefix_of_append_cons hc h)
        rw [List.cons_append, replace_cons hover, replace_cons hprefix, ih xs.length (by omega) xs rfl,
          List.cons_append]

theorem replace_of_notMem {a : α} (hfirst : old.head? = some a) {xs : List α} (ha : a ∉ xs) :
    replace old new xs = xs := by
  have h : replace old new (xs ++ []) = xs ++ replace old new [] :=
    replace_append_of_notMem hfirst ha []
  rwa [List.append_nil, replace_nil, List.append_nil] at h

/-! ## Texts with holes -/

/-- A text that goes on behind every hole. -/
structure Template (α ν : Type) where
  lead : List α
  /-- A hole, the symbol behind it, and what follows up to the next. -/
  rest : List (ν × α × List α)

namespace Template

variable {ν : Type}

/-- The text with something in each hole. -/
def fill (t : Template α ν) (content : ν → List α) : List α :=
  t.lead ++ t.rest.flatMap fun hole => content hole.1 ++ hole.2.1 :: hole.2.2

/-- The word begins nowhere in the text and reaches over no edge of a hole. -/
structure Guards (t : Template α ν) (old : List α) : Prop where
  word : old ≠ []
  lead : ∀ a ∈ old.head?, a ∉ t.lead
  edges : ∀ hole ∈ t.rest, hole.2.1 ∉ old
  texts : ∀ hole ∈ t.rest, ∀ a ∈ old.head?, a ∉ hole.2.2

/-- A word is replaced in the holes only. -/
theorem replace_fill {t : Template α ν} (h : t.Guards old) (content : ν → List α) :
    replace old new (t.fill content) = t.fill fun hole => replace old new (content hole) := by
  obtain ⟨a, ha⟩ : ∃ a, old.head? = some a := by
    cases old with
    | nil => exact absurd rfl h.word
    | cons a old => exact ⟨a, rfl⟩
  unfold fill
  rw [replace_append_of_notMem ha (h.lead a ha)]
  congr 1
  have hrest : ∀ rest : List (ν × α × List α), (∀ hole ∈ rest, hole ∈ t.rest) →
      replace old new (rest.flatMap fun hole => content hole.1 ++ hole.2.1 :: hole.2.2) =
        rest.flatMap fun hole => replace old new (content hole.1) ++ hole.2.1 :: hole.2.2 := by
    intro rest hsub
    induction rest with
    | nil => exact replace_nil
    | cons hole rest ih =>
      have hhole : hole ∈ t.rest := hsub hole List.mem_cons_self
      rw [List.flatMap_cons, List.flatMap_cons, List.append_assoc, List.cons_append,
        replace_append_cons h.word (h.edges hole hhole), replace_append_of_notMem ha (h.texts hole hhole a ha),
        ih fun hole' hmem => hsub hole' (List.mem_cons_of_mem _ hmem), List.append_assoc, List.cons_append]
  exact hrest t.rest fun _ hmem => hmem

/-- Words replaced one after another. -/
theorem foldl_replace_fill {ι : Type} (word value : ι → List α) {t : Template α ν} {names : List ι}
    (h : ∀ n ∈ names, t.Guards (word n)) (content : ν → List α) :
    names.foldl (fun text n => replace (word n) (value n) text) (t.fill content) =
      t.fill fun hole => names.foldl (fun text n => replace (word n) (value n) text) (content hole) := by
  induction names generalizing content with
  | nil => rfl
  | cons n names ih =>
    rw [List.foldl_cons, replace_fill (h n List.mem_cons_self),
      ih fun m hm => h m (List.mem_cons_of_mem n hm)]
    rfl

end Template

/-- Among the words that are no part of each other, the one that stands in the text is replaced when its turn
comes, and what is put there is looked through for the words whose turn is later. -/
theorem foldl_replace_word {ι : Type} (word value : ι → List α) {before after : List ι} {n : ι}
    (hword : word n ≠ []) (hother : ∀ m ∈ before, ∀ v, replace (word m) v (word n) = word n) :
    (before ++ n :: after).foldl (fun text m => replace (word m) (value m) text) (word n) =
      after.foldl (fun text m => replace (word m) (value m) text) (value n) := by
  have hbefore : before.foldl (fun text m => replace (word m) (value m) text) (word n) = word n := by
    induction before with
    | nil => rfl
    | cons m before ih =>
      rw [List.foldl_cons, hother m List.mem_cons_self,
        ih fun m' hm' => hother m' (List.mem_cons_of_mem m hm')]
  have hself : replace (word n) (value n) (word n ++ []) = value n ++ replace (word n) (value n) [] :=
    replace_word hword []
  rw [List.append_nil, replace_nil, List.append_nil] at hself
  rw [List.foldl_append, hbefore, List.foldl_cons, hself]

end HikaruOpenLive.Foundations.Replacement
