import Mathlib.Data.List.Basic

/-! # Triangles through a table of vertices

A mesh is a list of vertices and a list of numbers, three of them to a triangle. What it draws is a
list of triangles, and the numbers are only a way to write it. Meshes put one behind the other draw
their triangles one behind the other; a strip draws the cells of a band between its two edges, and a
grid the cells between each row and the next.
-/
set_option autoImplicit false

namespace HikaruOpenLive.Foundations.TriangleMesh

variable {V : Type*}

structure Mesh (V : Type*) where
  vertices : List V
  indices : List ℕ

def corners (faces : List (V × V × V)) : List V :=
  faces.flatMap fun f => [f.1, f.2.1, f.2.2]

/-- Every number names a vertex, and three by three these are the corners of the triangles. -/
def Mesh.Draws (m : Mesh V) (faces : List (V × V × V)) : Prop :=
  m.indices.map (fun i => m.vertices[i]?) = (corners faces).map some

/-! ## What drawing says of the numbers -/

theorem corners_append (faces faces' : List (V × V × V)) :
    corners (faces ++ faces') = corners faces ++ corners faces' :=
  List.flatMap_append

theorem corners_flatMap {α : Type*} (xs : List α) (f : α → List (V × V × V)) :
    corners (xs.flatMap f) = xs.flatMap fun x => corners (f x) :=
  List.flatMap_assoc

theorem length_corners (faces : List (V × V × V)) : (corners faces).length = 3 * faces.length := by
  induction faces with
  | nil => rfl
  | cons f faces ih =>
    have hcons : corners (f :: faces) = [f.1, f.2.1, f.2.2] ++ corners faces := rfl
    rw [hcons, List.length_append, ih, List.length_cons]
    simp only [List.length_cons, List.length_nil]
    omega

namespace Mesh

variable {m : Mesh V} {faces : List (V × V × V)}

theorem Draws.length (h : m.Draws faces) : m.indices.length = 3 * faces.length := by
  have hlength := congrArg List.length h
  rwa [List.length_map, List.length_map, length_corners] at hlength

theorem Draws.lt (h : m.Draws faces) {i : ℕ} (hi : i ∈ m.indices) : i < m.vertices.length := by
  have hmem : m.vertices[i]? ∈ (corners faces).map some := by
    rw [← h]
    exact List.mem_map_of_mem hi
  obtain ⟨v, -, hv⟩ := List.mem_map.mp hmem
  exact (List.getElem?_eq_some_iff.mp hv.symm).1

/-! ## One mesh behind the other -/

def append (m part : Mesh V) : Mesh V :=
  { vertices := m.vertices ++ part.vertices
    indices := m.indices ++ part.indices.map (m.vertices.length + ·) }

theorem draws_empty : (Mesh.mk [] [] : Mesh V).Draws [] := rfl

theorem Draws.append {part : Mesh V} {faces' : List (V × V × V)} (h : m.Draws faces)
    (h' : part.Draws faces') : (m.append part).Draws (faces ++ faces') := by
  have hleft : m.indices.map (fun i => (m.vertices ++ part.vertices)[i]?) =
      m.indices.map fun i => m.vertices[i]? := by
    apply List.map_congr_left
    intro i hi
    exact List.getElem?_append_left (h.lt hi)
  have hright : (part.indices.map (m.vertices.length + ·)).map (fun i => (m.vertices ++ part.vertices)[i]?) =
      part.indices.map fun i => part.vertices[i]? := by
    rw [List.map_map]
    apply List.map_congr_left
    intro i _
    show (m.vertices ++ part.vertices)[m.vertices.length + i]? = _
    rw [List.getElem?_append_right (Nat.le_add_right _ _), Nat.add_sub_cancel_left]
  unfold Draws Mesh.append
  rw [List.map_append, hleft, hright, corners_append, List.map_append, h, h']

/-- Parts pushed to a mesh one after the other. -/
theorem vertices_foldl_append {α : Type*} (part : α → Mesh V) (xs : List α) (m : Mesh V) :
    (xs.foldl (fun m x => m.append (part x)) m).vertices = m.vertices ++ xs.flatMap fun x => (part x).vertices := by
  induction xs generalizing m with
  | nil => exact (List.append_nil _).symm
  | cons x xs ih =>
    rw [List.foldl_cons, ih, List.flatMap_cons, ← List.append_assoc]
    rfl

theorem Draws.foldl_append {α : Type*} {part : α → Mesh V} {drawn : α → List (V × V × V)}
    (hpart : ∀ x, (part x).Draws (drawn x)) (xs : List α) (h : m.Draws faces) :
    (xs.foldl (fun m x => m.append (part x)) m).Draws (faces ++ xs.flatMap drawn) := by
  induction xs generalizing m faces with
  | nil =>
    rw [List.flatMap_nil, List.append_nil]
    exact h
  | cons x xs ih =>
    rw [List.flatMap_cons, ← List.append_assoc]
    exact ih (h.append (hpart x))

end Mesh

/-! ## Neighbours -/

/-- Each member with the next one. -/
def neighbours {α : Type*} (xs : List α) : List (α × α) :=
  xs.zip xs.tail

theorem neighbours_cons {α : Type*} (a b : α) (xs : List α) :
    neighbours (a :: b :: xs) = (a, b) :: neighbours (b :: xs) := rfl

theorem exists_cons_cons {α : Type*} {xs : List α} (h : 2 ≤ xs.length) : ∃ a b rest, xs = a :: b :: rest := by
  match xs, h with
  | a :: b :: rest, _ => exact ⟨a, b, rest, rfl⟩

theorem map_range_neighbours {α β : Type*} (f : Option α → Option α → β) (xs : List α) :
    ((List.range (xs.length - 1)).map fun k => f xs[k]? xs[k + 1]?) =
      (neighbours xs).map fun p => f (some p.1) (some p.2) := by
  induction xs with
  | nil => rfl
  | cons a xs ih =>
    cases xs with
    | nil => rfl
    | cons b xs =>
      have hlength : (a :: b :: xs).length - 1 = (b :: xs).length - 1 + 1 := rfl
      rw [hlength, List.range_succ_eq_map, List.map_cons, List.map_map, neighbours_cons, List.map_cons, ← ih]
      rfl

/-- What is written from the numbers of two neighbours is written from the neighbours. -/
theorem flatMap_range_neighbours {α β : Type*} (f : Option α → Option α → List β) (xs : List α) :
    ((List.range (xs.length - 1)).flatMap fun k => f xs[k]? xs[k + 1]?) =
      (neighbours xs).flatMap fun p => f (some p.1) (some p.2) := by
  rw [List.flatMap_def, map_range_neighbours f, ← List.flatMap_def]

theorem getElem?_of_mem_neighbours {α : Type*} {xs : List α} {p : α × α} (h : p ∈ neighbours xs) :
    ∃ k, xs[k]? = some p.1 ∧ xs[k + 1]? = some p.2 := by
  obtain ⟨k, hk, rfl⟩ := List.getElem_of_mem h
  rw [neighbours, List.length_zip, List.length_tail] at hk
  refine ⟨k, ?_, ?_⟩
  · simp [neighbours, List.getElem_zip]
  · simp [neighbours, List.getElem_zip]

/-! ## Strips -/

/-- The two triangles of each cell of a band, an edge left and an edge right. -/
def stripFaces (pairs : List (V × V)) : List (V × V × V) :=
  (neighbours pairs).flatMap fun c => [(c.1.1, c.1.2, c.2.1), (c.2.1, c.1.2, c.2.2)]

def stripIndices (columns : ℕ) : List ℕ :=
  (List.range (columns - 1)).flatMap fun k =>
    [2 * k, 2 * k + 1, 2 * (k + 1), 2 * (k + 1), 2 * k + 1, 2 * (k + 1) + 1]

def strip (pairs : List (V × V)) : Mesh V :=
  { vertices := pairs.flatMap fun p => [p.1, p.2], indices := stripIndices pairs.length }

theorem getElem?_pairs (pairs : List (V × V)) (k : ℕ) :
    (pairs.flatMap fun p => [p.1, p.2])[2 * k]? = pairs[k]?.map Prod.fst ∧
      (pairs.flatMap fun p => [p.1, p.2])[2 * k + 1]? = pairs[k]?.map Prod.snd := by
  induction pairs generalizing k with
  | nil => exact ⟨rfl, rfl⟩
  | cons p pairs ih =>
    cases k with
    | zero => exact ⟨rfl, rfl⟩
    | succ k => exact ih k

theorem length_pairs (pairs : List (V × V)) :
    (pairs.flatMap fun p => [p.1, p.2]).length = 2 * pairs.length := by
  induction pairs with
  | nil => rfl
  | cons p pairs ih =>
    rw [List.flatMap_cons, List.length_append, ih, List.length_cons]
    simp only [List.length_cons, List.length_nil]
    omega

theorem strip_draws (pairs : List (V × V)) : (strip pairs).Draws (stripFaces pairs) := by
  unfold Mesh.Draws strip stripIndices stripFaces
  rw [List.map_flatMap, corners_flatMap, List.map_flatMap]
  simp only [List.map_cons, List.map_nil, (getElem?_pairs pairs _).1, (getElem?_pairs pairs _).2]
  exact flatMap_range_neighbours (fun p q =>
    [p.map Prod.fst, p.map Prod.snd, q.map Prod.fst, q.map Prod.fst, p.map Prod.snd, q.map Prod.snd]) pairs

theorem stripFaces_ne_nil {pairs : List (V × V)} (h : 2 ≤ pairs.length) : stripFaces pairs ≠ [] := by
  obtain ⟨p, q, rest, rfl⟩ := exists_cons_cons h
  exact List.cons_ne_nil _ _

/-! ## Grids -/

/-- The two triangles of each cell between a row and the next. -/
def rowFaces (up down : List V) : List (V × V × V) :=
  (neighbours (up.zip down)).flatMap fun c => [(c.1.1, c.2.1, c.1.2), (c.2.1, c.2.2, c.1.2)]

def gridFaces (rows : List (List V)) : List (V × V × V) :=
  (neighbours rows).flatMap fun p => rowFaces p.1 p.2

def gridIndices (rows columns : ℕ) : List ℕ :=
  (List.range (rows - 1)).flatMap fun i => (List.range (columns - 1)).flatMap fun j =>
    [i * columns + j, i * columns + (j + 1), (i + 1) * columns + j,
      i * columns + (j + 1), (i + 1) * columns + (j + 1), (i + 1) * columns + j]

def grid (rows : List (List V)) (columns : ℕ) : Mesh V :=
  { vertices := rows.flatten, indices := gridIndices rows.length columns }

theorem getElem?_flatten {rows : List (List V)} {columns : ℕ} (h : ∀ row ∈ rows, row.length = columns)
    (i : ℕ) {j : ℕ} (hj : j < columns) :
    rows.flatten[i * columns + j]? = rows[i]?.bind fun row => row[j]? := by
  induction rows generalizing i with
  | nil => rfl
  | cons row rows ih =>
    have hrow : row.length = columns := h row List.mem_cons_self
    rw [List.flatten_cons]
    cases i with
    | zero =>
      rw [Nat.zero_mul, Nat.zero_add, List.getElem?_append_left (by omega)]
      rfl
    | succ i =>
      have hlong : row.length ≤ (i + 1) * columns + j := by
        rw [Nat.succ_mul]
        omega
      have hrest : (i + 1) * columns + j - row.length = i * columns + j := by
        rw [Nat.succ_mul]
        omega
      rw [List.getElem?_append_right hlong, hrest]
      exact ih (fun row' hrow' => h row' (List.mem_cons_of_mem row hrow')) i

/-- The row of a vertex and its place in the row, from its number. -/
theorem exists_row_of_getElem? {rows : List (List V)} {columns : ℕ} (h : ∀ row ∈ rows, row.length = columns)
    (hpos : 0 < columns) {k : ℕ} {v : V} (hv : rows.flatten[k]? = some v) :
    ∃ row, rows[k / columns]? = some row ∧ row[k % columns]? = some v := by
  have hk : k / columns * columns + k % columns = k := Nat.div_add_mod' k columns
  rw [← hk, getElem?_flatten h _ (Nat.mod_lt k hpos)] at hv
  exact Option.bind_eq_some_iff.mp hv

theorem length_flatten {rows : List (List V)} {columns : ℕ} (h : ∀ row ∈ rows, row.length = columns) :
    rows.flatten.length = rows.length * columns := by
  induction rows with
  | nil => exact (Nat.zero_mul columns).symm
  | cons row rows ih =>
    rw [List.flatten_cons, List.length_append, ih fun row' hrow' => h row' (List.mem_cons_of_mem row hrow'),
      h row List.mem_cons_self, List.length_cons, Nat.succ_mul, Nat.add_comm]

/-- The cells between two rows, by the numbers of their corners. -/
theorem rowFaces_draws {up down : List V} (h : up.length = down.length) :
    ((List.range (up.length - 1)).flatMap fun j =>
        [up[j]?, up[j + 1]?, down[j]?, up[j + 1]?, down[j + 1]?, down[j]?]) =
      (corners (rowFaces up down)).map some := by
  have hzip (j : ℕ) : (up.zip down)[j]?.map Prod.fst = up[j]? ∧ (up.zip down)[j]?.map Prod.snd = down[j]? := by
    rw [← List.getElem?_map, ← List.getElem?_map, List.map_fst_zip (Nat.le_of_eq h), List.map_snd_zip (Nat.le_of_eq h.symm)]
    exact ⟨rfl, rfl⟩
  have hlength : up.length = (up.zip down).length := by rw [List.length_zip, h, Nat.min_self]
  rw [hlength, rowFaces, corners_flatMap, List.map_flatMap]
  simp only [← (hzip _).1, ← (hzip _).2]
  exact flatMap_range_neighbours (fun p q =>
    [p.map Prod.fst, q.map Prod.fst, p.map Prod.snd, q.map Prod.fst, q.map Prod.snd, p.map Prod.snd]) (up.zip down)

/-- A triangle between two rows is one of the two of a cell. -/
theorem exists_cell_of_mem_gridFaces {rows : List (List V)} {face : V × V × V} (h : face ∈ gridFaces rows) :
    ∃ (i j : ℕ) (up down : List V) (a b c d : V), rows[i]? = some up ∧ rows[i + 1]? = some down ∧
      up[j]? = some a ∧ up[j + 1]? = some b ∧ down[j]? = some c ∧ down[j + 1]? = some d ∧
      (face = (a, b, c) ∨ face = (b, d, c)) := by
  obtain ⟨⟨up, down⟩, hrows, hface⟩ := List.mem_flatMap.mp h
  obtain ⟨i, hup, hdown⟩ := getElem?_of_mem_neighbours hrows
  obtain ⟨⟨p, q⟩, hcell, hface⟩ := List.mem_flatMap.mp hface
  obtain ⟨j, hp, hq⟩ := getElem?_of_mem_neighbours hcell
  obtain ⟨ha, hc⟩ := List.getElem?_zip_eq_some.mp hp
  obtain ⟨hb, hd⟩ := List.getElem?_zip_eq_some.mp hq
  exact ⟨i, j, up, down, p.1, q.1, p.2, q.2, hup, hdown, ha, hb, hc, hd, List.mem_pair.mp hface⟩

theorem grid_draws {rows : List (List V)} {columns : ℕ} (h : ∀ row ∈ rows, row.length = columns) :
    (grid rows columns).Draws (gridFaces rows) := by
  unfold Mesh.Draws grid gridIndices gridFaces
  rw [List.map_flatMap, corners_flatMap, List.map_flatMap]
  have hrow (i : ℕ) :
      ((List.range (columns - 1)).flatMap fun j =>
          [i * columns + j, i * columns + (j + 1), (i + 1) * columns + j,
            i * columns + (j + 1), (i + 1) * columns + (j + 1), (i + 1) * columns + j]).map
          (fun k => rows.flatten[k]?) =
        (List.range (columns - 1)).flatMap fun j =>
          [rows[i]?.bind (·[j]?), rows[i]?.bind (·[j + 1]?), rows[i + 1]?.bind (·[j]?),
            rows[i]?.bind (·[j + 1]?), rows[i + 1]?.bind (·[j + 1]?), rows[i + 1]?.bind (·[j]?)] := by
    rw [List.map_flatMap]
    apply List.flatMap_congr
    intro j hj
    have hlt : j + 1 < columns := by
      have := List.mem_range.mp hj
      omega
    simp only [List.map_cons, List.map_nil, getElem?_flatten h _ hlt, getElem?_flatten h _ (Nat.lt_of_succ_lt hlt)]
  simp only [hrow]
  refine (flatMap_range_neighbours (fun p q => (List.range (columns - 1)).flatMap fun j =>
    [p.bind (·[j]?), p.bind (·[j + 1]?), q.bind (·[j]?), p.bind (·[j + 1]?), q.bind (·[j + 1]?),
      q.bind (·[j]?)]) rows).trans ?_
  apply List.flatMap_congr
  intro p hp
  obtain ⟨k, hk, hk'⟩ := getElem?_of_mem_neighbours hp
  have hup : p.1.length = columns := h p.1 (List.mem_of_getElem? hk)
  have hdown : p.2.length = columns := h p.2 (List.mem_of_getElem? hk')
  have hcells := rowFaces_draws (hup.trans hdown.symm)
  rw [hup] at hcells
  exact hcells

theorem gridFaces_ne_nil {rows : List (List V)} {columns : ℕ} (h : ∀ row ∈ rows, row.length = columns)
    (hrows : 2 ≤ rows.length) (hcolumns : 2 ≤ columns) : gridFaces rows ≠ [] := by
  obtain ⟨up, down, rest, rfl⟩ := exists_cons_cons hrows
  have hup : up.length = columns := h up List.mem_cons_self
  have hdown : down.length = columns := h down (List.mem_cons_of_mem _ List.mem_cons_self)
  obtain ⟨a, b, up', rfl⟩ := exists_cons_cons (hup ▸ hcolumns)
  obtain ⟨c, d, down', rfl⟩ := exists_cons_cons (hdown ▸ hcolumns)
  exact List.cons_ne_nil _ _

end HikaruOpenLive.Foundations.TriangleMesh
