import HikaruOpenLive.Foundations.ListEdits

/-! # Grids as lists of rows

A grid is a list of rows, not of one length a priori. `Shape g m n` says that it is `m` by `n`; in such a
grid exactly the cells inside exist (`cell?_isSome_iff`). The lemmas say what the edits of a grid do to its
cells and to its shape.
-/
set_option autoImplicit false

namespace HikaruOpenLive.Foundations.Grid

open ListEdits

variable {α : Type}

def cell? (g : List (List α)) (r c : ℕ) : Option α :=
  g[r]?.bind fun row => row[c]?

def modifyCell (g : List (List α)) (r c : ℕ) (f : α → α) : List (List α) :=
  g.modify r fun row => row.modify c f

def Shape (g : List (List α)) (m n : ℕ) : Prop :=
  g.length = m ∧ ∀ row ∈ g, row.length = n

theorem cell?_isSome_iff {g : List (List α)} {m n : ℕ} (h : Shape g m n) (r c : ℕ) :
    (cell? g r c).isSome ↔ r < m ∧ c < n := by
  obtain ⟨hrows, hcolumns⟩ := h
  unfold cell?
  by_cases hr : r < m
  · have hlt : r < g.length := by omega
    have hc := hcolumns g[r] (List.getElem_mem hlt)
    rw [List.getElem?_eq_getElem hlt]
    by_cases hcn : c < n
    · simp [hr, hcn, hc]
    · simp [hcn, hc]
  · rw [List.getElem?_eq_none (by omega)]
    simp [hr]

theorem exists_cell {g : List (List α)} {m n r c : ℕ} (h : Shape g m n) (hr : r < m) (hc : c < n) :
    ∃ a, cell? g r c = some a :=
  Option.isSome_iff_exists.mp ((cell?_isSome_iff h r c).mpr ⟨hr, hc⟩)

/-! ## One cell -/

theorem cell?_modifyCell (g : List (List α)) (r c : ℕ) (f : α → α) (r' c' : ℕ) :
    cell? (modifyCell g r c f) r' c' =
      if r' = r ∧ c' = c then (cell? g r c).map f else cell? g r' c' := by
  unfold cell? modifyCell
  rw [List.getElem?_modify]
  by_cases hr : r = r'
  · subst hr
    cases hrow : g[r]? with
    | none => simp
    | some row =>
      by_cases hc : c = c'
      · subst hc
        simp
      · have hne : ¬ c' = c := fun h => hc h.symm
        simp [hc, hne]
  · have hne : ¬ r' = r := fun h => hr h.symm
    cases hrow : g[r']? with
    | none => simp [hne]
    | some row => simp [hr, hne]

theorem modifyCell_shape {g : List (List α)} {m n : ℕ} (h : Shape g m n) (r c : ℕ) (f : α → α) :
    Shape (modifyCell g r c f) m n := by
  obtain ⟨hrows, hcolumns⟩ := h
  refine ⟨by rw [modifyCell, List.length_modify, hrows], ?_⟩
  intro row hrow
  obtain hrow | ⟨old, hold, rfl⟩ := mem_modify hrow
  · exact hcolumns row hrow
  · rw [List.length_modify]
    exact hcolumns old (List.mem_of_getElem? hold)

theorem modifyCell_eq_self {g : List (List α)} {r c : ℕ} {f : α → α}
    (h : ∀ a, cell? g r c = some a → f a = a) : modifyCell g r c f = g := by
  rw [modifyCell]
  refine List.ext_getElem? fun r' => ?_
  rw [List.getElem?_modify]
  cases hrow : g[r']? with
  | none => rfl
  | some row =>
    split
    case isFalse => rfl
    case isTrue hr =>
      subst hr
      refine congrArg some (List.ext_getElem? fun c' => ?_)
      rw [List.getElem?_modify]
      cases hcell : row[c']? with
      | none => rfl
      | some a =>
        split
        case isFalse => rfl
        case isTrue hc =>
          subst hc
          exact congrArg some (h a (by rw [cell?, hrow, Option.bind_some, hcell]))

/-! ## Rows and columns -/

theorem shape_append {g : List (List α)} {m n : ℕ} (h : Shape g m n) {row : List α}
    (hrow : row.length = n) : Shape (g ++ [row]) (m + 1) n := by
  obtain ⟨hrows, hcolumns⟩ := h
  refine ⟨by simp [hrows], ?_⟩
  intro row' hmem
  obtain hmem | hmem := List.mem_append.mp hmem
  · exact hcolumns row' hmem
  · rw [List.mem_singleton.mp hmem]
    exact hrow

theorem shape_dropLast {g : List (List α)} {m n : ℕ} (h : Shape g m n) :
    Shape g.dropLast (m - 1) n := by
  obtain ⟨hrows, hcolumns⟩ := h
  exact ⟨by rw [List.length_dropLast, hrows],
    fun row hmem => hcolumns row (List.dropLast_subset g hmem)⟩

theorem shape_map {g : List (List α)} {m n : ℕ} (h : Shape g m n) {n' : ℕ}
    {f : List α → List α} (hf : ∀ row, row.length = n → (f row).length = n') :
    Shape (g.map f) m n' := by
  obtain ⟨hrows, hcolumns⟩ := h
  refine ⟨by rw [List.length_map, hrows], ?_⟩
  intro row hmem
  obtain ⟨old, hold, rfl⟩ := List.mem_map.mp hmem
  exact hf old (hcolumns old hold)

theorem shape_set {g : List (List α)} {m n : ℕ} (h : Shape g m n) (r : ℕ) {row : List α}
    (hrow : row.length = n) : Shape (g.set r row) m n := by
  obtain ⟨hrows, hcolumns⟩ := h
  refine ⟨by rw [List.length_set, hrows], ?_⟩
  intro row' hmem
  obtain hmem | rfl := List.mem_or_eq_of_mem_set hmem
  · exact hcolumns row' hmem
  · exact hrow

/-- A row added at the bottom adds its own cells only. -/
theorem cell_append {g : List (List α)} {row : List α} {r c : ℕ} {a : α}
    (h : cell? (g ++ [row]) r c = some a) : cell? g r c = some a ∨ a ∈ row := by
  obtain ⟨line, hline, ha⟩ := Option.bind_eq_some_iff.mp h
  obtain hlt | hle := Nat.lt_or_ge r g.length
  · rw [List.getElem?_append_left hlt] at hline
    exact Or.inl (Option.bind_eq_some_iff.mpr ⟨line, hline, ha⟩)
  · rw [List.getElem?_append_right hle] at hline
    have hmem := List.mem_of_getElem? hline
    rw [List.mem_singleton.mp hmem] at ha
    exact Or.inr (List.mem_of_getElem? ha)

theorem cell_dropLast {g : List (List α)} {r c : ℕ} {a : α} (h : cell? g.dropLast r c = some a) :
    cell? g r c = some a := by
  obtain ⟨line, hline, ha⟩ := Option.bind_eq_some_iff.mp h
  rw [List.getElem?_dropLast] at hline
  split at hline
  · exact Option.bind_eq_some_iff.mpr ⟨line, hline, ha⟩
  · exact absurd hline (by simp)

theorem cell?_map (g : List (List α)) (f : List α → List α) (r c : ℕ) :
    cell? (g.map f) r c = g[r]?.bind fun row => (f row)[c]? := by
  unfold cell?
  rw [List.getElem?_map]
  cases g[r]? <;> rfl

/-- A column added on the right adds its own cells only. -/
theorem cell_appendColumn {g : List (List α)} {b : α} {r c : ℕ} {a : α}
    (h : cell? (g.map fun row => row ++ [b]) r c = some a) : cell? g r c = some a ∨ a = b := by
  rw [cell?_map] at h
  obtain ⟨line, hline, ha⟩ := Option.bind_eq_some_iff.mp h
  obtain hlt | hle := Nat.lt_or_ge c line.length
  · rw [List.getElem?_append_left hlt] at ha
    exact Or.inl (Option.bind_eq_some_iff.mpr ⟨line, hline, ha⟩)
  · rw [List.getElem?_append_right hle] at ha
    exact Or.inr (List.mem_singleton.mp (List.mem_of_getElem? ha))

theorem cell_dropColumn {g : List (List α)} {r c : ℕ} {a : α}
    (h : cell? (g.map List.dropLast) r c = some a) : cell? g r c = some a := by
  rw [cell?_map] at h
  obtain ⟨line, hline, ha⟩ := Option.bind_eq_some_iff.mp h
  rw [List.getElem?_dropLast] at ha
  split at ha
  · exact Option.bind_eq_some_iff.mpr ⟨line, hline, ha⟩
  · exact absurd ha (by simp)

theorem cell?_append_of_some {g : List (List α)} {r c : ℕ} {a : α} (h : cell? g r c = some a)
    (row : List α) : cell? (g ++ [row]) r c = some a := by
  obtain ⟨line, hline, ha⟩ := Option.bind_eq_some_iff.mp h
  have hlt := lt_of_getElem? hline
  refine Option.bind_eq_some_iff.mpr ⟨line, ?_, ha⟩
  rw [List.getElem?_append_left hlt, hline]

theorem cell?_appendColumn_of_some {g : List (List α)} {r c : ℕ} {a : α}
    (h : cell? g r c = some a) (b : α) : cell? (g.map fun row => row ++ [b]) r c = some a := by
  obtain ⟨line, hline, ha⟩ := Option.bind_eq_some_iff.mp h
  rw [cell?_map, hline, Option.bind_some, List.getElem?_append_left (lt_of_getElem? ha), ha]

theorem cell?_dropLast_of_lt {g : List (List α)} {r : ℕ} (hr : r + 1 < g.length) (c : ℕ) :
    cell? g.dropLast r c = cell? g r c := by
  unfold cell?
  rw [List.getElem?_dropLast, if_pos (by omega)]

theorem cell?_dropColumn_of_lt {g : List (List α)} {r : ℕ} {row : List α} (hrow : g[r]? = some row)
    {c : ℕ} (hc : c + 1 < row.length) : cell? (g.map List.dropLast) r c = cell? g r c := by
  rw [cell?_map, cell?, hrow, Option.bind_some, Option.bind_some, List.getElem?_dropLast,
    if_pos (by omega)]

theorem cell?_set (g : List (List α)) (r : ℕ) (row : List α) (r' c' : ℕ) (hr : r < g.length) :
    cell? (g.set r row) r' c' = if r' = r then row[c']? else cell? g r' c' := by
  unfold cell?
  by_cases h : r' = r
  · subst h
    rw [if_pos rfl, List.getElem?_set_self hr]
    rfl
  · rw [if_neg h, List.getElem?_set_ne (fun h' => h h'.symm)]

/-! ## Cuts and images -/

/-- Cutting a grid to `m` rows and its first row to `n` cells keeps the cells inside. -/
theorem cell?_cut (g : List (List α)) {m n r c : ℕ} (hr : r < m) (hc : c < n) :
    cell? ((g.take m).modifyHead fun row => row.take n) r c = cell? g r c := by
  unfold cell?
  rw [List.getElem?_modifyHead, List.getElem?_take_of_lt hr]
  split
  · cases g[r]? with
    | none => rfl
    | some row => rw [Option.map_some, Option.bind_some, Option.bind_some, List.getElem?_take_of_lt hc]
  · rfl

theorem cell?_mapCells {β : Type} (g : List (List α)) (f : α → β) (r c : ℕ) :
    cell? (g.map fun row => row.map f) r c = (cell? g r c).map f := by
  unfold cell?
  rw [List.getElem?_map]
  cases g[r]? with
  | none => rfl
  | some row => rw [Option.map_some, Option.bind_some, Option.bind_some, List.getElem?_map]

/-! ## All cells -/

/-- The cells row by row, with their places. -/
def cells (g : List (List α)) : List (ℕ × ℕ × α) :=
  g.zipIdx.flatMap fun row => row.1.zipIdx.map fun cell => (row.2, cell.2, cell.1)

theorem mem_cells {g : List (List α)} {r c : ℕ} {a : α} :
    (r, c, a) ∈ cells g ↔ cell? g r c = some a := by
  unfold cells cell?
  rw [List.mem_flatMap, Option.bind_eq_some_iff]
  constructor
  · rintro ⟨⟨row, r'⟩, hrow, hcell⟩
    obtain ⟨⟨a', c'⟩, ha, heq⟩ := List.mem_map.mp hcell
    obtain ⟨rfl, rfl, rfl⟩ : r' = r ∧ c' = c ∧ a' = a := by simpa using heq
    exact ⟨row, List.mem_zipIdx_iff_getElem?.mp hrow, List.mem_zipIdx_iff_getElem?.mp ha⟩
  · rintro ⟨row, hrow, ha⟩
    refine ⟨(row, r), List.mem_zipIdx_iff_getElem?.mpr hrow, ?_⟩
    exact List.mem_map.mpr ⟨(a, c), List.mem_zipIdx_iff_getElem?.mpr ha, rfl⟩

/-- A loop over the rows and the cells of each is one over all cells. -/
theorem flatMap_cells {β : Type} (g : List (List α)) (f : ℕ → ℕ → α → List β) :
    (g.zipIdx.flatMap fun row => row.1.zipIdx.flatMap fun cell => f row.2 cell.2 cell.1) =
      (cells g).flatMap fun cell => f cell.1 cell.2.1 cell.2.2 := by
  unfold cells
  rw [List.flatMap_assoc]
  congr 1
  funext row
  rw [List.flatMap_map]

end HikaruOpenLive.Foundations.Grid
