import Mathlib.Data.List.Nodup
import HikaruOpenLive.Foundations.LastSplit

/-! # Finite trees of files

A path is the list of its names, the innermost first: the parent of `name :: dir` is `dir`, and
`rest ++ dir` is below `dir`, by as many levels as `rest` has names. A tree is the table of what there
is at each path; whatever is in it lies in a directory, under a name that a path can be written with.
-/
set_option autoImplicit false

namespace HikaruOpenLive.Foundations.FileTrees

open LastSplit

abbrev Name := List Char

abbrev Path := List Name

inductive EntryKind where
  | dir
  | file (len : ℕ)
deriving DecidableEq

structure FileTree where
  entries : List (Path × EntryKind)
  distinct : (entries.map Prod.fst).Nodup
  parents : ∀ e ∈ entries, ∀ dir ∈ e.1.tail?, (dir, EntryKind.dir) ∈ entries
  names : ∀ e ∈ entries, ∀ name ∈ e.1, name ≠ [] ∧ '/' ∉ name

/-- The name of an entry of `dir`, and nothing for any other path. -/
def childOf (dir : Path) : Path → Option Name
  | [] => none
  | name :: parent => if parent = dir then some name else none

theorem childOf_eq_some {dir path : Path} {name : Name} :
    childOf dir path = some name ↔ path = name :: dir := by
  cases path with
  | nil => simp [childOf]
  | cons first parent => simp [childOf, and_comm]

/-- In a table with one row a key, what is found under a key is what stands beside it. -/
theorem lookup_eq_some {κ β : Type} [BEq κ] [LawfulBEq κ] {table : List (κ × β)}
    (hdistinct : (table.map Prod.fst).Nodup) {key : κ} {value : β} :
    table.lookup key = some value ↔ (key, value) ∈ table := by
  induction table with
  | nil => simp
  | cons row table ih =>
    obtain ⟨first, value'⟩ := row
    rw [List.map_cons, List.nodup_cons] at hdistinct
    rw [List.lookup_cons, List.mem_cons, Prod.mk.injEq]
    by_cases hfirst : key = first
    · subst hfirst
      have hrest : (key, value) ∉ table := fun h => hdistinct.1 (List.mem_map.2 ⟨_, h, rfl⟩)
      simp [hrest, eq_comm]
    · have hne : (key == first) = false := by simpa using hfirst
      rw [hne]
      simpa [hfirst] using ih hdistinct.2

namespace FileTree

variable (tree : FileTree)

def kind (path : Path) : Option EntryKind :=
  tree.entries.lookup path

/-- The names in a directory, in the order of the table; there are none to read anywhere else. -/
def readDir (dir : Path) : Option (List Name) :=
  if tree.kind dir = some .dir then some (tree.entries.filterMap fun e => childOf dir e.1) else none

variable {tree}

theorem kind_eq_some {path : Path} {k : EntryKind} :
    tree.kind path = some k ↔ (path, k) ∈ tree.entries :=
  lookup_eq_some tree.distinct

theorem kind_parent {name : Name} {dir : Path} {k : EntryKind} (h : tree.kind (name :: dir) = some k) :
    tree.kind dir = some .dir :=
  kind_eq_some.2 (tree.parents _ (kind_eq_some.1 h) dir rfl)

theorem kind_below {rest dir : Path} {k : EntryKind} (hrest : rest ≠ [])
    (h : tree.kind (rest ++ dir) = some k) : tree.kind dir = some .dir := by
  induction rest generalizing k with
  | nil => exact absurd rfl hrest
  | cons name rest ih =>
    have hparent := kind_parent h
    cases rest with
    | nil => exact hparent
    | cons next rest => exact ih (List.cons_ne_nil _ _) hparent

theorem names_of_kind {path : Path} {k : EntryKind} (h : tree.kind path = some k) :
    ∀ name ∈ path, name ≠ [] ∧ '/' ∉ name :=
  tree.names _ (kind_eq_some.1 h)

theorem mem_readDir {dir : Path} {names : List Name} (h : tree.readDir dir = some names) {name : Name} :
    name ∈ names ↔ ∃ k, tree.kind (name :: dir) = some k := by
  unfold readDir at h
  split at h
  · obtain rfl := Option.some.inj h
    simp only [List.mem_filterMap, childOf_eq_some, kind_eq_some]
    constructor
    · rintro ⟨⟨path, k⟩, hmem, rfl⟩
      exact ⟨k, hmem⟩
    · rintro ⟨k, hmem⟩
      exact ⟨_, hmem, rfl⟩
  · cases h

theorem readDir_of_dir {dir : Path} (h : tree.kind dir = some .dir) :
    ∃ names, tree.readDir dir = some names :=
  ⟨_, if_pos h⟩

end FileTree

/-! ## Paths as text -/

/-- The path from the top, with `/` in front of each name. -/
def absolute : Path → List Char
  | [] => []
  | name :: dir => absolute dir ++ '/' :: name

theorem absolute_injective {p q : Path} (hp : ∀ name ∈ p, '/' ∉ name) (hq : ∀ name ∈ q, '/' ∉ name)
    (h : absolute p = absolute q) : p = q := by
  induction p generalizing q with
  | nil =>
    cases q with
    | nil => rfl
    | cons name q => simp [absolute] at h
  | cons name p ih =>
    cases q with
    | nil => simp [absolute] at h
    | cons name' q =>
      rw [List.forall_mem_cons] at hp hq
      have hsplit := congrArg (splitLast '/') h
      rw [absolute, absolute, splitLast_append hp.1, splitLast_append hq.1] at hsplit
      obtain ⟨hdir, rfl⟩ : absolute p = absolute q ∧ name = name' := by simpa using hsplit
      rw [ih hp.2 hq.2 hdir]

end HikaruOpenLive.Foundations.FileTrees
