import HikaruOpenLive.Render.WavetableMesh
import Mathlib.Analysis.SpecialFunctions.Sqrt

/-! # What the mesh of a wavetable draws

The two buffers draw the terrain and nothing else: each row as the strip between its two edges, or
the cells between each row of the surface and the next. No triangle joins two lines or closes one.
-/
set_option autoImplicit false

namespace HikaruOpenLive.Render
open HikaruOpenLive.Foundations.TriangleMesh

variable {K : Type}

/-! ## The numbers as 32-bit words -/

def encode (m : Mesh (MeshVertex K)) : WavetableMesh K :=
  { vertices := m.vertices, indices := m.indices.map UInt32.ofNat }

/-- The mesh with its numbers read back. -/
def WavetableMesh.toMesh (w : WavetableMesh K) : Mesh (MeshVertex K) :=
  { vertices := w.vertices, indices := w.indices.map UInt32.toNat }

/-- With few enough vertices the words are the numbers. -/
theorem toMesh_encode {m : Mesh (MeshVertex K)} {faces : List (MeshVertex K × MeshVertex K × MeshVertex K)}
    (h : m.Draws faces) (hsize : m.vertices.length ≤ 2 ^ 32) : (encode m).toMesh = m := by
  have hread : (m.indices.map UInt32.ofNat).map UInt32.toNat = m.indices := by
    rw [List.map_map]
    refine (List.map_congr_left fun i hi => ?_).trans (List.map_id _)
    exact UInt32.toNat_ofNat_of_lt' ((h.lt hi).trans_le hsize)
  unfold encode WavetableMesh.toMesh
  rw [hread]

/-- A mesh that draws something passes the check before the upload. -/
theorem validateGeometry_encode {m : Mesh (MeshVertex K)}
    {faces : List (MeshVertex K × MeshVertex K × MeshVertex K)} (h : m.Draws faces)
    (hsize : m.vertices.length ≤ 2 ^ 32) (hfaces : faces ≠ []) :
    validateGeometry (encode m).vertices (encode m).indices = .ok () := by
  have hpos : 0 < faces.length := List.length_pos_iff.mpr hfaces
  have hlength : (encode m).indices.length = 3 * faces.length := by
    rw [encode, List.length_map, h.length]
  have hindices : (encode m).indices.isEmpty = false := by
    rw [List.isEmpty_eq_false_iff, ← List.length_pos_iff, hlength]
    omega
  have hvertices : (encode m).vertices.isEmpty = false := by
    rw [List.isEmpty_eq_false_iff, ← List.length_pos_iff]
    cases hm : m.indices with
    | nil =>
      rw [encode, hm, List.map_nil, List.length_nil] at hlength
      omega
    | cons i _ => exact Nat.zero_lt_of_lt (h.lt (hm ▸ List.mem_cons_self : i ∈ m.indices))
  have hfind : ((encode m).indices.find? fun index => (encode m).vertices.length ≤ index.toNat) = none := by
    rw [List.find?_eq_none]
    intro index hindex
    obtain ⟨i, hi, rfl⟩ := List.mem_map.mp hindex
    have hlt := h.lt hi
    rw [UInt32.toNat_ofNat_of_lt' (hlt.trans_le hsize), decide_eq_true_eq]
    exact Nat.not_le.mpr hlt
  unfold validateGeometry
  rw [hvertices, hindices, hlength, Nat.mul_mod_right, hfind]
  rfl

/-! ## Pushing to the buffers -/

theorem segmentIndices_ofNat (n columns : ℕ) :
    segmentIndices (UInt32.ofNat n) columns = ((stripIndices columns).map (n + ·)).map UInt32.ofNat := by
  unfold segmentIndices stripIndices
  rw [List.map_map, List.map_flatMap]
  apply List.flatMap_congr
  intro column _
  have hone : UInt32.ofNat 1 = 1 := rfl
  have htwo : UInt32.ofNat 2 = 2 := rfl
  simp only [List.map_cons, List.map_nil, Function.comp_apply, UInt32.ofNat_add, UInt32.ofNat_mul, hone, htwo,
    List.cons_append, List.nil_append, UInt32.mul_comm 2, UInt32.add_assoc]

/-- Pairs of vertices and the segments between them: a strip behind what is there. -/
theorem push_pairs (m : Mesh (MeshVertex K)) (pairs : List (MeshVertex K × MeshVertex K)) {n : ℕ}
    (h : pairs.length = n) :
    ({ vertices := (encode m).vertices ++ pairs.flatMap fun p => [p.1, p.2]
       indices := (encode m).indices ++ segmentIndices (UInt32.ofNat (encode m).vertices.length) n } :
      WavetableMesh K) = encode (m.append (strip pairs)) := by
  rw [segmentIndices_ofNat, ← h]
  unfold encode Mesh.append strip
  rw [List.map_append]

/-- Strips one behind the other. -/
def stripsMesh (edges : TerrainRow K → List (MeshVertex K × MeshVertex K)) (rows : List (TerrainRow K)) :
    Mesh (MeshVertex K) :=
  rows.foldl (fun m row => m.append (strip (edges row))) ⟨[], []⟩

theorem stripsMesh_draws (edges : TerrainRow K → List (MeshVertex K × MeshVertex K)) (rows : List (TerrainRow K)) :
    (stripsMesh edges rows).Draws (rows.flatMap fun row => stripFaces (edges row)) :=
  Mesh.Draws.foldl_append (fun row => strip_draws (edges row)) rows Mesh.draws_empty

theorem length_curve (xOf : ℕ → K) (heights : List K) : (curve xOf heights).length = heights.length := by
  rw [curve, List.length_map, List.length_zipIdx]

variable [Field K] [LinearOrder K]

theorem pushLineStrip_encode (sqrt : K → K) (m : Mesh (MeshVertex K)) (points : List (K × K))
    (zCenter lineWidth shade : K) :
    pushLineStrip sqrt (encode m) points zCenter lineWidth shade =
      encode (m.append (strip ((List.range points.length).map (linePair sqrt points zCenter lineWidth shade)))) :=
  push_pairs m _ (by rw [List.length_map, List.length_range])

variable [FloorRing K]

theorem pushRibbon_encode (m : Mesh (MeshVertex K)) (waveform : List K) (columns : ℕ)
    (params : WavetableMeshParams K) (zCenter depth shade : K) :
    pushRibbon (encode m) waveform columns params zCenter depth shade =
      encode (m.append (strip ((List.range columns).map (ribbonPair waveform columns params zCenter depth shade)))) :=
  push_pairs m _ (by rw [List.length_map, List.length_range])

/-! ## The rows as pairs of vertices -/

theorem length_sampleHeights (waveform : List K) (columns : ℕ) (params : WavetableMeshParams K) :
    (sampleHeights waveform columns params).length = columns := by
  rw [sampleHeights, List.length_map, List.length_range]

/-- The two edges of the line of a row. -/
def lineVertices (sqrt : K → K) (columns : ℕ) (params : WavetableMeshParams K) (lineWidth : K)
    (row : TerrainRow K) : List (MeshVertex K × MeshVertex K) :=
  (List.range columns).map
    (linePair sqrt (curve (columnX columns params) (sampleHeights row.frame columns params)) row.zCenter lineWidth
      row.shade)

/-- The two faces of the ribbon of a row. -/
def ribbonVertices (columns : ℕ) (params : WavetableMeshParams K) (lineWidth : K) (row : TerrainRow K) :
    List (MeshVertex K × MeshVertex K) :=
  (List.range columns).map (ribbonPair row.frame columns params row.zCenter lineWidth row.shade)

/-- The rows of the surface. -/
def surfaceRows (sqrt : K → K) (columns : ℕ) (params : WavetableMeshParams K) (rows : List (TerrainRow K)) :
    List (List (MeshVertex K)) :=
  (List.range rows.length).map fun i => (List.range columns).map
    (surfaceVertex sqrt (rows.map fun row => sampleHeights row.frame columns params) (columnX columns params)
      (rows.map TerrainRow.zCenter) (rows.map TerrainRow.shade) i)

/-- The mesh with plain numbers. -/
def terrainMesh (sqrt : K → K) (kind : MeshType) (columns : ℕ) (params : WavetableMeshParams K) (lineWidth : K)
    (rows : List (TerrainRow K)) : Mesh (MeshVertex K) :=
  match kind with
  | .wireframe => stripsMesh (lineVertices sqrt columns params lineWidth) rows
  | .ribbon => stripsMesh (ribbonVertices columns params lineWidth) rows
  | .solid =>
    if rows.length < 2 then stripsMesh (lineVertices sqrt columns params lineWidth) rows
    else (Mesh.mk [] []).append (grid (surfaceRows sqrt columns params rows) columns)

/-- The triangles of the terrain: each line or ribbon for itself, or each row of the surface with the next. -/
def terrainFaces (sqrt : K → K) (kind : MeshType) (columns : ℕ) (params : WavetableMeshParams K) (lineWidth : K)
    (rows : List (TerrainRow K)) : List (MeshVertex K × MeshVertex K × MeshVertex K) :=
  match kind with
  | .wireframe => rows.flatMap fun row => stripFaces (lineVertices sqrt columns params lineWidth row)
  | .ribbon => rows.flatMap fun row => stripFaces (ribbonVertices columns params lineWidth row)
  | .solid =>
    if rows.length < 2 then rows.flatMap fun row => stripFaces (lineVertices sqrt columns params lineWidth row)
    else gridFaces (surfaceRows sqrt columns params rows)

theorem length_surfaceRow (sqrt : K → K) (columns : ℕ) (params : WavetableMeshParams K) (rows : List (TerrainRow K)) :
    ∀ row ∈ surfaceRows sqrt columns params rows, row.length = columns := by
  intro row hrow
  obtain ⟨i, -, rfl⟩ := List.mem_map.mp hrow
  rw [List.length_map, List.length_range]

theorem terrainMesh_draws (sqrt : K → K) (kind : MeshType) (columns : ℕ) (params : WavetableMeshParams K)
    (lineWidth : K) (rows : List (TerrainRow K)) :
    (terrainMesh sqrt kind columns params lineWidth rows).Draws
      (terrainFaces sqrt kind columns params lineWidth rows) := by
  cases kind with
  | wireframe => exact stripsMesh_draws _ rows
  | ribbon => exact stripsMesh_draws _ rows
  | solid =>
    unfold terrainMesh terrainFaces
    by_cases h : rows.length < 2
    · rw [if_pos h, if_pos h]
      exact stripsMesh_draws _ rows
    · rw [if_neg h, if_neg h]
      exact Mesh.draws_empty.append (grid_draws (length_surfaceRow sqrt columns params rows))

/-! ## The loop over the rows -/

theorem pushTerrainLine_encode (sqrt : K → K) (m : Mesh (MeshVertex K)) (columns : ℕ)
    (params : WavetableMeshParams K) (lineWidth : K) (row : TerrainRow K) :
    pushTerrainLine sqrt (encode m) row.frame columns params row.zCenter lineWidth row.shade =
      encode (m.append (strip (lineVertices sqrt columns params lineWidth row))) := by
  unfold pushTerrainLine lineVertices
  rw [pushLineStrip_encode, length_curve, length_sampleHeights]

/-- The loop leaves the strips of the rows in the buffers, or the rows for the surface. -/
theorem foldl_pushRow_strips (sqrt : K → K) {kind : MeshType} (columns : ℕ) (params : WavetableMeshParams K)
    (lineWidth : K) (edges : TerrainRow K → List (MeshVertex K × MeshVertex K))
    (hpush : ∀ (t : Terrain K) (m : Mesh (MeshVertex K)) (row : TerrainRow K), row.frame ≠ [] → t.mesh = encode m →
      pushRow sqrt kind columns params lineWidth t row = { t with mesh := encode (m.append (strip (edges row))) })
    {rows : List (TerrainRow K)} (hrows : ∀ row ∈ rows, row.frame ≠ []) (t : Terrain K) (m : Mesh (MeshVertex K))
    (ht : t.mesh = encode m) :
    rows.foldl (pushRow sqrt kind columns params lineWidth) t =
      { t with mesh := encode (rows.foldl (fun m row => m.append (strip (edges row))) m) } := by
  induction rows generalizing t m with
  | nil =>
    rw [List.foldl_nil, List.foldl_nil, ← ht]
  | cons row rows ih =>
    rw [List.foldl_cons, hpush t m row (hrows row List.mem_cons_self) ht,
      ih (fun row' hrow' => hrows row' (List.mem_cons_of_mem row hrow')) _ _ rfl, List.foldl_cons]

theorem pushRow_wireframe (sqrt : K → K) (columns : ℕ) (params : WavetableMeshParams K) (lineWidth : K)
    (t : Terrain K) (m : Mesh (MeshVertex K)) (row : TerrainRow K) (hrow : row.frame ≠ []) (ht : t.mesh = encode m) :
    pushRow sqrt .wireframe columns params lineWidth t row =
      { t with mesh := encode (m.append (strip (lineVertices sqrt columns params lineWidth row))) } := by
  unfold pushRow
  rw [List.isEmpty_eq_false_iff.mpr hrow, ht]
  simp only [Bool.false_eq_true, if_false]
  rw [pushTerrainLine_encode]

theorem pushRow_ribbon (sqrt : K → K) (columns : ℕ) (params : WavetableMeshParams K) (lineWidth : K)
    (t : Terrain K) (m : Mesh (MeshVertex K)) (row : TerrainRow K) (hrow : row.frame ≠ []) (ht : t.mesh = encode m) :
    pushRow sqrt .ribbon columns params lineWidth t row =
      { t with mesh := encode (m.append (strip (ribbonVertices columns params lineWidth row))) } := by
  unfold pushRow
  rw [List.isEmpty_eq_false_iff.mpr hrow, ht]
  simp only [Bool.false_eq_true, if_false]
  rw [pushRibbon_encode]
  rfl

theorem foldl_pushRow_solid (sqrt : K → K) (columns : ℕ) (params : WavetableMeshParams K) (lineWidth : K)
    {rows : List (TerrainRow K)} (hrows : ∀ row ∈ rows, row.frame ≠ []) (t : Terrain K) :
    rows.foldl (pushRow sqrt .solid columns params lineWidth) t =
      { t with
        grid := t.grid ++ rows.map fun row => sampleHeights row.frame columns params
        zrows := t.zrows ++ rows.map TerrainRow.zCenter
        rowShades := t.rowShades ++ rows.map TerrainRow.shade } := by
  induction rows generalizing t with
  | nil => simp only [List.foldl_nil, List.map_nil, List.append_nil]
  | cons row rows ih =>
    have hframe : row.frame ≠ [] := hrows row List.mem_cons_self
    have hpush : pushRow sqrt .solid columns params lineWidth t row =
        { t with
          grid := t.grid ++ [sampleHeights row.frame columns params]
          zrows := t.zrows ++ [row.zCenter]
          rowShades := t.rowShades ++ [row.shade] } := by
      unfold pushRow
      rw [List.isEmpty_eq_false_iff.mpr hframe]
      rfl
    rw [List.foldl_cons, hpush, ih fun row' hrow' => hrows row' (List.mem_cons_of_mem row hrow')]
    simp only [List.map_cons, List.append_assoc, List.singleton_append]

/-! ## The surface -/

theorem gridIndices_ofNat (n rows columns : ℕ) :
    ((List.range (rows - 1)).flatMap fun i => (List.range (columns - 1)).flatMap fun j =>
        let a := UInt32.ofNat n + UInt32.ofNat (i * columns + j)
        let b := UInt32.ofNat n + UInt32.ofNat (i * columns + j + 1)
        let c := UInt32.ofNat n + UInt32.ofNat ((i + 1) * columns + j)
        let d := UInt32.ofNat n + UInt32.ofNat ((i + 1) * columns + j + 1)
        [a, b, c] ++ [b, d, c]) = ((gridIndices rows columns).map (n + ·)).map UInt32.ofNat := by
  unfold gridIndices
  rw [List.map_map, List.map_flatMap]
  apply List.flatMap_congr
  intro i _
  rw [List.map_flatMap]
  apply List.flatMap_congr
  intro j _
  simp only [List.map_cons, List.map_nil, Function.comp_apply, UInt32.ofNat_add, List.cons_append, List.nil_append,
    UInt32.add_assoc]

theorem pushTerrainSolid_encode (sqrt : K → K) (m : Mesh (MeshVertex K)) {columns : ℕ} (hcolumns : 0 < columns)
    (params : WavetableMeshParams K) (lineWidth : K) {rows : List (TerrainRow K)} (hrows : ¬ rows.length < 2) :
    pushTerrainSolid sqrt (encode m) (rows.map fun row => sampleHeights row.frame columns params)
        (columnX columns params) (rows.map TerrainRow.zCenter) (rows.map TerrainRow.shade) lineWidth =
      encode (m.append (grid (surfaceRows sqrt columns params rows) columns)) := by
  have hhead : ((rows.map fun row => sampleHeights row.frame columns params).headD []).length = columns := by
    cases rows with
    | nil => exact absurd (Nat.zero_lt_two) hrows
    | cons row rows => exact length_sampleHeights row.frame columns params
  unfold pushTerrainSolid
  rw [hhead, List.length_map, if_neg (by omega), if_neg hrows]
  have hsurface : (surfaceRows sqrt columns params rows).length = rows.length := by
    rw [surfaceRows, List.length_map, List.length_range]
  unfold encode Mesh.append grid
  simp only [List.map_append, hsurface]
  rw [gridIndices_ofNat, surfaceRows, ← List.flatMap_def]

/-- A surface of one row is its line. -/
theorem pushTerrainSolid_singleton (sqrt : K → K) {columns : ℕ} (hcolumns : 0 < columns)
    (params : WavetableMeshParams K) (lineWidth : K) (row : TerrainRow K) :
    pushTerrainSolid sqrt (encode (Mesh.mk [] [])) ([row].map fun row => sampleHeights row.frame columns params)
        (columnX columns params) ([row].map TerrainRow.zCenter) ([row].map TerrainRow.shade) lineWidth =
      encode (stripsMesh (lineVertices sqrt columns params lineWidth) [row]) := by
  have hhead : (([row].map fun row => sampleHeights row.frame columns params).headD []).length = columns :=
    length_sampleHeights row.frame columns params
  unfold pushTerrainSolid
  rw [hhead, List.length_map, if_neg (by simp only [List.length_singleton]; omega),
    if_pos (by simp only [List.length_singleton]; omega)]
  exact pushTerrainLine_encode sqrt (Mesh.mk [] []) columns params lineWidth row

/-! ## How many vertices there are -/

omit [Field K] [LinearOrder K] [FloorRing K] in
theorem length_vertices_stripsMesh {edges : TerrainRow K → List (MeshVertex K × MeshVertex K)} {columns : ℕ}
    (hedges : ∀ row, (edges row).length = columns) (rows : List (TerrainRow K)) :
    (stripsMesh edges rows).vertices.length = rows.length * (2 * columns) := by
  have hpart (row : TerrainRow K) : (strip (edges row)).vertices.length = 2 * columns := by
    rw [strip, length_pairs, hedges]
  rw [stripsMesh, Mesh.vertices_foldl_append, List.nil_append, List.length_flatMap]
  simp only [hpart, List.map_const', List.sum_replicate_nat]

theorem length_lineVertices (sqrt : K → K) (columns : ℕ) (params : WavetableMeshParams K) (lineWidth : K)
    (row : TerrainRow K) : (lineVertices sqrt columns params lineWidth row).length = columns := by
  rw [lineVertices, List.length_map, List.length_range]

theorem length_ribbonVertices (columns : ℕ) (params : WavetableMeshParams K) (lineWidth : K)
    (row : TerrainRow K) : (ribbonVertices columns params lineWidth row).length = columns := by
  rw [ribbonVertices, List.length_map, List.length_range]

theorem length_surfaceRows (sqrt : K → K) (columns : ℕ) (params : WavetableMeshParams K) (rows : List (TerrainRow K)) :
    (surfaceRows sqrt columns params rows).length = rows.length := by
  rw [surfaceRows, List.length_map, List.length_range]

theorem length_vertices_terrainMesh (sqrt : K → K) (kind : MeshType) (columns : ℕ) (params : WavetableMeshParams K)
    (lineWidth : K) (rows : List (TerrainRow K)) :
    (terrainMesh sqrt kind columns params lineWidth rows).vertices.length =
      if kind = .solid ∧ 2 ≤ rows.length then rows.length * columns else rows.length * (2 * columns) := by
  cases kind with
  | wireframe => exact length_vertices_stripsMesh (length_lineVertices sqrt columns params lineWidth) rows
  | ribbon => exact length_vertices_stripsMesh (length_ribbonVertices columns params lineWidth) rows
  | solid =>
    unfold terrainMesh
    by_cases h : rows.length < 2
    · rw [if_pos h, if_neg fun hsolid => absurd hsolid.2 (Nat.not_le.mpr h)]
      exact length_vertices_stripsMesh (length_lineVertices sqrt columns params lineWidth) rows
    · rw [if_neg h, if_pos ⟨rfl, Nat.not_lt.mp h⟩]
      show ([] ++ (surfaceRows sqrt columns params rows).flatten).length = _
      rw [List.nil_append, length_flatten (length_surfaceRow sqrt columns params rows), length_surfaceRows]

theorem terrainFaces_ne_nil (sqrt : K → K) (kind : MeshType) {columns : ℕ} (hcolumns : 2 ≤ columns)
    (params : WavetableMeshParams K) (lineWidth : K) {rows : List (TerrainRow K)} (hrows : 0 < rows.length) :
    terrainFaces sqrt kind columns params lineWidth rows ≠ [] := by
  obtain ⟨row, rest, rfl⟩ := List.exists_cons_of_length_pos hrows
  have hline : (row :: rest).flatMap (fun row => stripFaces (lineVertices sqrt columns params lineWidth row)) ≠ [] := by
    rw [List.flatMap_cons]
    apply List.append_ne_nil_of_left_ne_nil
    apply stripFaces_ne_nil
    rwa [length_lineVertices]
  cases kind with
  | wireframe => exact hline
  | ribbon =>
    unfold terrainFaces
    simp only
    rw [List.flatMap_cons]
    apply List.append_ne_nil_of_left_ne_nil
    apply stripFaces_ne_nil
    rwa [length_ribbonVertices]
  | solid =>
    unfold terrainFaces
    by_cases h : (row :: rest).length < 2
    · simp only [if_pos h]
      exact hline
    · simp only [if_neg h]
      apply gridFaces_ne_nil (length_surfaceRow sqrt columns params (row :: rest)) _ hcolumns
      rw [length_surfaceRows]
      exact Nat.not_lt.mp h

/-! ## The rows of a table -/

def terrainRows (table : List K) (frameLen : ℕ) (active : Option K) (maxFrames : ℕ)
    (params : WavetableMeshParams K) (style : RenderSettings K) : List (TerrainRow K) :=
  let available := table.length / frameLen
  let count := tableCount available maxFrames
  (List.range count).map
    (tableRow table frameLen available count (tableSlot available count active) (fadeOf style)
      (totalDepth params style))

omit [Field K] [LinearOrder K] [FloorRing K] in
theorem length_tableFrame {table : List K} {frameLen idx : ℕ} (h : (idx + 1) * frameLen ≤ table.length) :
    tableFrame table frameLen idx = (table.drop (idx * frameLen)).take frameLen ∧
      (tableFrame table frameLen idx).length = frameLen := by
  rw [Nat.succ_mul] at h
  have hstart : min (idx * frameLen) table.length = idx * frameLen := Nat.min_eq_left (by omega)
  have hstop : min (idx * frameLen + frameLen) table.length = idx * frameLen + frameLen := Nat.min_eq_left h
  have heq : tableFrame table frameLen idx = (table.drop (idx * frameLen)).take frameLen := by
    unfold tableFrame
    simp only [hstart, hstop, Nat.add_sub_cancel_left]
  refine ⟨heq, ?_⟩
  rw [heq, List.length_take, List.length_drop]
  omega

theorem tableColumns_ge (frameWidth : ℕ) : 128 ≤ tableColumns frameWidth :=
  (Nat.le_max_right frameWidth terrainMinColumns).trans (Nat.le_max_left _ _)

theorem tableCount_pos (available maxFrames : ℕ) : 0 < tableCount available maxFrames :=
  Nat.lt_of_lt_of_le Nat.zero_lt_one (Nat.le_max_right _ 1)

theorem tableCount_le {available : ℕ} (h : 0 < available) (maxFrames : ℕ) :
    tableCount available maxFrames ≤ available :=
  Nat.max_le.mpr ⟨Nat.min_le_left _ _, h⟩

variable [IsStrictOrderedRing K]

theorem tableIdx_lt {available : ℕ} (h : 0 < available) (count slot : ℕ) :
    tableIdx (K := K) available count slot < available := by
  unfold tableIdx
  split
  case isTrue => exact h
  case isFalse =>
    have hlast : (0 : K) ≤ ((available - 1 : ℕ) : K) := Nat.cast_nonneg _
    have hclamp (x : K) : clamp 0 ((available - 1 : ℕ) : K) x ≤ ((available - 1 : ℕ) : K) :=
      max_le hlast (min_le_right _ _)
    apply Nat.lt_of_le_of_lt (Nat.floor_le_of_le (hclamp _))
    exact Nat.sub_lt h Nat.zero_lt_one

/-- Every row has a whole cycle of the table. -/
theorem frame_terrainRow {table : List K} {frameLen : ℕ} (h : 0 < frameLen) (hle : frameLen ≤ table.length)
    (count slot : ℕ) (activeSlot fade total : K) :
    (tableRow table frameLen (table.length / frameLen) count activeSlot fade total slot).frame =
        (table.drop (tableIdx (K := K) (table.length / frameLen) count slot * frameLen)).take frameLen ∧
      (tableRow table frameLen (table.length / frameLen) count activeSlot fade total slot).frame.length = frameLen := by
  have hpos : 0 < table.length / frameLen := Nat.div_pos hle h
  have hidx := tableIdx_lt (K := K) hpos count slot
  apply length_tableFrame
  calc (tableIdx (K := K) (table.length / frameLen) count slot + 1) * frameLen
      ≤ table.length / frameLen * frameLen := Nat.mul_le_mul_right _ hidx
    _ ≤ table.length := Nat.div_mul_le_self _ _

theorem frame_ne_nil {table : List K} {frameLen : ℕ} (h : 0 < frameLen) (hle : frameLen ≤ table.length)
    (active : Option K) (maxFrames : ℕ) (params : WavetableMeshParams K) (style : RenderSettings K) :
    ∀ row ∈ terrainRows table frameLen active maxFrames params style, row.frame ≠ [] := by
  intro row hrow
  obtain ⟨slot, -, rfl⟩ := List.mem_map.mp hrow
  apply List.ne_nil_of_length_pos
  rw [(frame_terrainRow h hle _ slot _ _ _).2]
  exact h

omit [IsStrictOrderedRing K] in
theorem length_terrainRows (table : List K) (frameLen : ℕ) (active : Option K) (maxFrames : ℕ)
    (params : WavetableMeshParams K) (style : RenderSettings K) :
    (terrainRows table frameLen active maxFrames params style).length =
      tableCount (table.length / frameLen) maxFrames := by
  rw [terrainRows, List.length_map, List.length_range]

omit [IsStrictOrderedRing K] in
/-- The rows of a table are pushed as the mesh of the terrain. -/
theorem mesh_terrainRows (sqrt : K → K) (kind : MeshType) {columns : ℕ} (hcolumns : 0 < columns)
    (params : WavetableMeshParams K) (lineWidth : K) {rows : List (TerrainRow K)} (hpos : 0 < rows.length)
    (hrows : ∀ row ∈ rows, row.frame ≠ []) :
    (let t := rows.foldl (pushRow sqrt kind columns params lineWidth) Terrain.new
      if kind = .solid ∧ t.grid ≠ [] then
        pushTerrainSolid sqrt t.mesh t.grid (columnX columns params) t.zrows t.rowShades lineWidth
      else t.mesh) = encode (terrainMesh sqrt kind columns params lineWidth rows) := by
  have hempty : (Terrain.new : Terrain K).mesh = encode (Mesh.mk [] []) := rfl
  cases kind with
  | wireframe =>
    rw [foldl_pushRow_strips sqrt columns params lineWidth _ (pushRow_wireframe sqrt columns params lineWidth) hrows
      _ _ hempty]
    rfl
  | ribbon =>
    rw [foldl_pushRow_strips sqrt columns params lineWidth _ (pushRow_ribbon sqrt columns params lineWidth) hrows
      _ _ hempty]
    rfl
  | solid =>
    rw [foldl_pushRow_solid sqrt columns params lineWidth hrows]
    have hgrid : (rows.map fun row => sampleHeights row.frame columns params) ≠ [] :=
      List.ne_nil_of_length_pos (by rwa [List.length_map])
    simp only [Terrain.new, List.nil_append, true_and, if_pos hgrid]
    unfold terrainMesh
    by_cases h : rows.length < 2
    · obtain ⟨row, rfl⟩ := List.length_eq_one_iff.mp (show rows.length = 1 by omega)
      rw [if_pos h]
      exact pushTerrainSolid_singleton sqrt hcolumns params lineWidth row
    · rw [if_neg h]
      exact pushTerrainSolid_encode sqrt (Mesh.mk [] []) hcolumns params lineWidth h

/-! ## The mesh of a table -/

theorem fromTable_eq (sqrt : K → K) {table : List K} {frameLen : ℕ} (h : 0 < frameLen)
    (hle : frameLen ≤ table.length) (active : Option K) (maxFrames frameWidth : ℕ) (params : WavetableMeshParams K)
    (style : RenderSettings K) :
    fromTable sqrt table frameLen active maxFrames frameWidth params style =
      .ok (encode (terrainMesh sqrt style.mesh (tableColumns frameWidth) params (sanitizeWidth style.lineWidth)
        (terrainRows table frameLen active maxFrames params style))) := by
  have htable : (table.isEmpty || decide (frameLen = 0)) = false := by
    rw [List.isEmpty_eq_false_iff.mpr (List.ne_nil_of_length_pos (h.trans_le hle)), decide_eq_false h.ne']
    rfl
  have havailable : table.length / frameLen ≠ 0 := (Nat.div_pos hle h).ne'
  have hcolumns : 0 < tableColumns frameWidth := Nat.lt_of_lt_of_le (by omega) (tableColumns_ge frameWidth)
  have hrows : 0 < (terrainRows table frameLen active maxFrames params style).length := by
    rw [length_terrainRows]
    exact tableCount_pos _ _
  have hmesh := mesh_terrainRows sqrt style.mesh hcolumns params (sanitizeWidth style.lineWidth) hrows
    (frame_ne_nil h hle active maxFrames params style)
  have hvertices : (terrainMesh sqrt style.mesh (tableColumns frameWidth) params (sanitizeWidth style.lineWidth)
      (terrainRows table frameLen active maxFrames params style)).vertices.isEmpty = false := by
    rw [List.isEmpty_eq_false_iff, ← List.length_pos_iff, length_vertices_terrainMesh]
    split
    · exact Nat.mul_pos hrows hcolumns
    · exact Nat.mul_pos hrows (Nat.mul_pos Nat.zero_lt_two hcolumns)
  unfold fromTable
  rw [htable, if_neg Bool.false_ne_true]
  simp only [if_neg havailable]
  unfold terrainRows at hmesh hvertices ⊢
  simp only at hmesh
  rw [hmesh, if_neg]
  intro hnone
  exact absurd (hnone.symm.trans hvertices) (by decide)

omit [IsStrictOrderedRing K] in
theorem fromTable_refused (sqrt : K → K) {table : List K} {frameLen : ℕ} (h : ¬ (0 < frameLen ∧ frameLen ≤ table.length))
    (active : Option K) (maxFrames frameWidth : ℕ) (params : WavetableMeshParams K) (style : RenderSettings K) :
    fromTable sqrt table frameLen active maxFrames frameWidth params style = .error .waveformTooShort := by
  unfold fromTable
  by_cases htable : (table.isEmpty || decide (frameLen = 0)) = true
  · rw [if_pos htable]
  · have hpos : 0 < frameLen := by
      rw [Bool.or_eq_true, decide_eq_true_eq, not_or] at htable
      exact Nat.pos_of_ne_zero htable.2
    have hshort : table.length / frameLen = 0 := by
      rw [Nat.div_eq_zero_iff]
      exact Or.inr (Nat.lt_of_not_le fun hle => h ⟨hpos, hle⟩)
    rw [if_neg htable]
    simp only [if_pos hshort]

/-- A table with a whole cycle becomes a mesh that the check before the upload lets through and that draws
the terrain of its rows, no triangle more and none less; any other table is refused. -/
theorem fromTable_draws (sqrt : K → K) (table : List K) (frameLen : ℕ) (active : Option K) (maxFrames frameWidth : ℕ)
    (params : WavetableMeshParams K) (style : RenderSettings K)
    (hsize : tableCount (table.length / frameLen) maxFrames * (2 * tableColumns frameWidth) ≤ 2 ^ 32) :
    if 0 < frameLen ∧ frameLen ≤ table.length then
      ∃ mesh, fromTable sqrt table frameLen active maxFrames frameWidth params style = .ok mesh ∧
        validateGeometry mesh.vertices mesh.indices = .ok () ∧
        mesh.toMesh.Draws (terrainFaces sqrt style.mesh (tableColumns frameWidth) params
          (sanitizeWidth style.lineWidth) (terrainRows table frameLen active maxFrames params style))
    else fromTable sqrt table frameLen active maxFrames frameWidth params style = .error .waveformTooShort := by
  split
  case isTrue h =>
    obtain ⟨hpos, hle⟩ := h
    have hdraws := terrainMesh_draws sqrt style.mesh (tableColumns frameWidth) params (sanitizeWidth style.lineWidth)
      (terrainRows table frameLen active maxFrames params style)
    have hfit : (terrainMesh sqrt style.mesh (tableColumns frameWidth) params (sanitizeWidth style.lineWidth)
        (terrainRows table frameLen active maxFrames params style)).vertices.length ≤ 2 ^ 32 := by
      rw [length_vertices_terrainMesh, length_terrainRows]
      split
      · refine le_trans (Nat.mul_le_mul_left _ ?_) hsize
        omega
      · exact hsize
    refine ⟨_, fromTable_eq sqrt hpos hle active maxFrames frameWidth params style, ?_, ?_⟩
    · apply validateGeometry_encode hdraws hfit
      apply terrainFaces_ne_nil
      · exact Nat.le_trans (by omega) (tableColumns_ge frameWidth)
      · rw [length_terrainRows]
        exact tableCount_pos _ _
    · rw [toMesh_encode hdraws hfit]
      exact hdraws
  case isFalse h => exact fromTable_refused sqrt h active maxFrames frameWidth params style

theorem fromTable_draws_pair :
    ∃ mesh, fromTable Real.sqrt [0, 1, 0, -1] 2 (some 1) 0 512 ⟨260, 96, 240⟩ RenderSettings.default = .ok mesh ∧
      validateGeometry mesh.vertices mesh.indices = .ok () ∧
      mesh.toMesh.Draws (terrainFaces Real.sqrt .wireframe (tableColumns 512) ⟨260, 96, 240⟩
        (sanitizeWidth (some terrainLineWidth)) (terrainRows [0, 1, 0, -1] 2 (some 1) 0 ⟨260, 96, 240⟩
          RenderSettings.default)) := by
  have h := fromTable_draws Real.sqrt [0, 1, 0, -1] 2 (some 1) 0 512 ⟨260, 96, 240⟩ RenderSettings.default (by decide)
  rwa [if_pos (by decide)] at h

/-! ## The plain views -/

omit [Field K] [LinearOrder K] [FloorRing K] [IsStrictOrderedRing K] in
/-- A strip alone in the buffers passes the check before the upload and draws its triangles. -/
theorem single_strip {pairs : List (MeshVertex K × MeshVertex K)} (htwo : 2 ≤ pairs.length)
    (hsize : 2 * pairs.length ≤ 2 ^ 32) {mesh : WavetableMesh K}
    (hmesh : mesh = encode ((Mesh.mk [] []).append (strip pairs))) :
    mesh.vertices.isEmpty = false ∧ validateGeometry mesh.vertices mesh.indices = .ok () ∧
      mesh.toMesh.Draws (stripFaces pairs) := by
  have hdraws : ((Mesh.mk [] []).append (strip pairs)).Draws (stripFaces pairs) :=
    Mesh.draws_empty.append (strip_draws pairs)
  have hlength : ((Mesh.mk [] []).append (strip pairs)).vertices.length = 2 * pairs.length := by
    show ([] ++ (strip pairs).vertices).length = _
    rw [List.nil_append, strip, length_pairs]
  subst hmesh
  refine ⟨?_, validateGeometry_encode hdraws (hlength.trans_le hsize) (stripFaces_ne_nil htwo), ?_⟩
  · rw [List.isEmpty_eq_false_iff, ← List.length_pos_iff]
    exact Nat.lt_of_lt_of_eq (by omega) hlength.symm
  · rw [toMesh_encode hdraws (hlength.trans_le hsize)]
    exact hdraws

omit [IsStrictOrderedRing K] in
theorem fromWaveform_draws {waveform : List K} (h : waveform ≠ []) {frameWidth : ℕ}
    (hsize : 2 * max frameWidth 2 ≤ 2 ^ 32) (params : WavetableMeshParams K) :
    ∃ mesh, fromWaveform waveform frameWidth params = .ok mesh ∧
      validateGeometry mesh.vertices mesh.indices = .ok () ∧
      mesh.toMesh.Draws (stripFaces (ribbonVertices (max frameWidth 2) params params.thickness
        ⟨waveform, 0, activeShade⟩)) := by
  have hlength := length_ribbonVertices (max frameWidth 2) params params.thickness ⟨waveform, 0, activeShade⟩
  have htwo : 2 ≤ max frameWidth 2 := Nat.le_max_right _ _
  rw [← hlength] at htwo hsize
  obtain ⟨-, hvalid, hdraws⟩ := single_strip htwo hsize
    (pushRibbon_encode (Mesh.mk [] []) waveform (max frameWidth 2) params 0 params.thickness activeShade)
  refine ⟨_, ?_, hvalid, hdraws⟩
  unfold fromWaveform
  rw [List.isEmpty_eq_false_iff.mpr h]
  rfl

omit [IsStrictOrderedRing K] in
theorem fromActiveLine_draws (sqrt : K → K) {frame : List K} (h : frame ≠ []) {frameWidth : ℕ}
    (hsize : 2 * tableColumns frameWidth ≤ 2 ^ 32) (params : WavetableMeshParams K) (style : RenderSettings K) :
    ∃ mesh, fromActiveLine sqrt frame frameWidth params style = .ok mesh ∧
      validateGeometry mesh.vertices mesh.indices = .ok () ∧
      mesh.toMesh.Draws (stripFaces (lineVertices sqrt (tableColumns frameWidth) params
        (sanitizeWidth style.lineWidth2d) ⟨frame, 0, activeShade⟩)) := by
  have hlength := length_lineVertices sqrt (tableColumns frameWidth) params (sanitizeWidth style.lineWidth2d)
    ⟨frame, 0, activeShade⟩
  have hge := tableColumns_ge frameWidth
  obtain ⟨hvertices, hvalid, hdraws⟩ := single_strip (by omega) (by rwa [hlength])
    (pushTerrainLine_encode sqrt (Mesh.mk [] []) (tableColumns frameWidth) params (sanitizeWidth style.lineWidth2d)
      ⟨frame, 0, activeShade⟩)
  refine ⟨_, ?_, hvalid, hdraws⟩
  unfold fromActiveLine
  rw [List.isEmpty_eq_false_iff.mpr h]
  exact if_neg (Bool.not_eq_true _ ▸ hvertices)

omit [IsStrictOrderedRing K] in
/-- A cycle by itself, as a ribbon or as a line seen from the front, is one strip that the check lets through. -/
theorem plainViews_draw (sqrt : K → K) {frame : List K} (h : frame ≠ []) {frameWidth : ℕ}
    (hsize : 2 * tableColumns frameWidth ≤ 2 ^ 32) (params : WavetableMeshParams K) (style : RenderSettings K) :
    (∃ mesh, fromWaveform frame frameWidth params = .ok mesh ∧
      validateGeometry mesh.vertices mesh.indices = .ok () ∧
      mesh.toMesh.Draws (stripFaces (ribbonVertices (max frameWidth 2) params params.thickness
        ⟨frame, 0, activeShade⟩))) ∧
    ∃ mesh, fromActiveLine sqrt frame frameWidth params style = .ok mesh ∧
      validateGeometry mesh.vertices mesh.indices = .ok () ∧
      mesh.toMesh.Draws (stripFaces (lineVertices sqrt (tableColumns frameWidth) params
        (sanitizeWidth style.lineWidth2d) ⟨frame, 0, activeShade⟩)) := by
  have hcolumns : max frameWidth 2 ≤ tableColumns frameWidth := max_le_max_right 2 (le_max_left _ _)
  exact ⟨fromWaveform_draws h ((Nat.mul_le_mul_left 2 hcolumns).trans hsize) params,
    fromActiveLine_draws sqrt h hsize params style⟩

theorem plainViews_draw_cycle :
    (∃ mesh, fromWaveform [(0 : ℝ), 1, 0, -1] 512 ⟨260, 96, 240⟩ = .ok mesh ∧
      validateGeometry mesh.vertices mesh.indices = .ok () ∧
      mesh.toMesh.Draws (stripFaces (ribbonVertices (max 512 2) ⟨260, 96, 240⟩ 240
        ⟨[0, 1, 0, -1], 0, activeShade⟩))) ∧
    ∃ mesh, fromActiveLine Real.sqrt [0, 1, 0, -1] 512 ⟨260, 96, 240⟩ RenderSettings.default = .ok mesh ∧
      validateGeometry mesh.vertices mesh.indices = .ok () ∧
      mesh.toMesh.Draws (stripFaces (lineVertices Real.sqrt (tableColumns 512) ⟨260, 96, 240⟩
        (sanitizeWidth RenderSettings.default.lineWidth2d) ⟨[0, 1, 0, -1], 0, activeShade⟩)) :=
  plainViews_draw Real.sqrt (List.cons_ne_nil 0 [1, 0, -1]) (by decide) ⟨260, 96, 240⟩ RenderSettings.default

end HikaruOpenLive.Render
