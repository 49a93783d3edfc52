import HikaruOpenLive.Dsp.SpectralPhaser
import HikaruOpenLive.Foundations.BlockSplit
import HikaruOpenLive.Foundations.TimedContent
import HikaruOpenLive.Render.TerrainFaces
import Mathlib.Data.List.GetD

/-! # The terrain on the screen

The viewer looks at the terrain along a slant: what lies further back is moved to the side and upwards
and keeps its size. The scale is taken from the box of the mesh, so that the whole terrain is on the
screen, and a row is as deep as its place among the rows, whatever the panel says.
-/
set_option autoImplicit false

namespace HikaruOpenLive.Render
open HikaruOpenLive.Foundations.TriangleMesh
open HikaruOpenLive.Dsp (Functions)

variable {K : Type} [Field K] [LinearOrder K]

/-! ## The projection -/

abbrev Vec4 (K : Type) := K × K × K × K

/-- A matrix by its columns. -/
abbrev Mat4 (K : Type) := Vec4 K × Vec4 K × Vec4 K × Vec4 K

def terrainFill : K := 0.85

def toRadians (f : Functions K) (deg : K) : K :=
  deg * (f.pi / 180.0)

def usableAspect (aspect : Option K) : K :=
  match aspect with
  | some aspect => if epsilon < aspect then aspect else 1
  | none => 1

def usableYaw (yawDeg : Option K) : K :=
  match yawDeg with
  | some yawDeg => clamp (-60.0) 60.0 yawDeg
  | none => terrainYawDeg

def usablePitch (pitchDeg : Option K) : K :=
  match pitchDeg with
  | some pitchDeg => clamp 5.0 80.0 pitchDeg
  | none => terrainPitchDeg

def usableGlow (glow : Option K) : K :=
  match glow with
  | some glow => clamp 0.3 2.0 glow
  | none => 1

def usableFeather (aaFeather : Option K) : K :=
  match aaFeather with
  | some aaFeather => clamp 0 4.0 aaFeather
  | none => 1

/-- How far a row at the back is moved to the side, for each step to the back. -/
def skewX (f : Functions K) (yawDeg : Option K) : K :=
  -f.tan (toRadians f (usableYaw yawDeg))

/-- How far it is moved upwards. -/
def skewY (f : Functions K) (pitchDeg : Option K) : K :=
  f.tan (toRadians f (usablePitch pitchDeg))

def terrainViewProjAngled (f : Functions K) (half : K × K × K) (aspect yawDeg pitchDeg : Option K) : Mat4 K :=
  let aspect := usableAspect aspect
  let hx := max half.1 0
  let hy := max half.2.1 0
  let hz := max half.2.2 0
  let skewX := skewX f yawDeg
  let skewY := skewY f pitchDeg
  let ex := hx + hz * |skewX|
  let ey := hy + hz * |skewY|
  let s := terrainFill / max (max ey (ex / aspect)) epsilon
  let total := max (hz * 2.0) epsilon
  ((s / aspect, 0, 0, 0), (0, s, 0, 0), (s * skewX / aspect, -s * skewY, -1 / total, 0), (0, 0, 0.5, 1))

/-- Where the shader puts a vertex. -/
def transform (m : Mat4 K) (p : K × K × K) : Vec4 K :=
  (m.1.1 * p.1 + m.2.1.1 * p.2.1 + m.2.2.1.1 * p.2.2 + m.2.2.2.1,
    m.1.2.1 * p.1 + m.2.1.2.1 * p.2.1 + m.2.2.1.2.1 * p.2.2 + m.2.2.2.2.1,
    m.1.2.2.1 * p.1 + m.2.1.2.2.1 * p.2.1 + m.2.2.1.2.2.1 * p.2.2 + m.2.2.2.2.2.1,
    m.1.2.2.2 * p.1 + m.2.1.2.2.2 * p.2.1 + m.2.2.1.2.2.2 * p.2.2 + m.2.2.2.2.2.2)

/-- The box of the mesh as the viewer frames it. -/
def viewerMatrix (f : Functions K) (params : WavetableMeshParams K) (style : RenderSettings K) (aspect : Option K) :
    Mat4 K :=
  terrainViewProjAngled f
    (params.width * 0.5, params.height * 0.5, params.thickness * 0.5 * depthScaleOf style) aspect style.yawDeg
    style.pitchDeg

/-! ## How far the curve goes -/

theorem abs_le_peakOf {waveform : List K} {x : K} (h : x ∈ waveform) : |x| ≤ peakOf waveform := by
  have hfold : waveform.foldl (fun acc sample => max acc |sample|) 0 = (waveform.map (|·|)).foldl max 0 := by
    rw [List.foldl_map]
  have hmax := (Foundations.TimedContent.foldl_max_le.mp (le_refl ((waveform.map (|·|)).foldl max 0))).2
  rw [← hfold] at hmax
  exact (hmax |x| (List.mem_map_of_mem h)).trans (le_max_left _ _)

variable [IsStrictOrderedRing K]

theorem epsilon_pos : (0 : K) < epsilon :=
  inv_pos.mpr (Nat.cast_pos.mpr (Nat.two_pow_pos 23))

theorem peakOf_pos (waveform : List K) : 0 < peakOf waveform :=
  lt_of_lt_of_le epsilon_pos (le_max_right _ _)

theorem abs_getD_le_peakOf (waveform : List K) (i : ℕ) : |waveform.getD i 0| ≤ peakOf waveform := by
  rw [List.getD_eq_getElem?_getD]
  cases h : waveform[i]? with
  | none =>
    rw [Option.getD_none, abs_zero]
    exact (peakOf_pos waveform).le
  | some x => exact abs_le_peakOf (List.mem_of_getElem? h)

variable [FloorRing K]

/-- Between two samples the curve stays between them. -/
theorem abs_resample_le (waveform : List K) (u : K) : |resample waveform u| ≤ peakOf waveform := by
  unfold resample
  simp only
  set position := u * (waveform.length : K)
  have hfloor : (⌊position⌋ : K) ≤ position := Int.floor_le position
  have hnext : position < (⌊position⌋ : K) + 1 := Int.lt_floor_add_one position
  have h0 := abs_getD_le_peakOf waveform (⌊position⌋₊ % waveform.length)
  have h1 := abs_getD_le_peakOf waveform ((⌊position⌋₊ % waveform.length + 1) % waveform.length)
  set a := waveform.getD (⌊position⌋₊ % waveform.length) 0
  set b := waveform.getD ((⌊position⌋₊ % waveform.length + 1) % waveform.length) 0
  calc |a * (1 - (position - ⌊position⌋)) + b * (position - ⌊position⌋)|
      ≤ |a| * (1 - (position - ⌊position⌋)) + |b| * (position - ⌊position⌋) := by
        refine (abs_add_le _ _).trans ?_
        rw [abs_mul, abs_mul, abs_of_nonneg (by linarith : (0 : K) ≤ 1 - (position - ⌊position⌋)),
          abs_of_nonneg (by linarith : (0 : K) ≤ position - ⌊position⌋)]
    _ ≤ peakOf waveform * (1 - (position - ⌊position⌋)) + peakOf waveform * (position - ⌊position⌋) :=
        add_le_add (mul_le_mul_of_nonneg_right h0 (by linarith)) (mul_le_mul_of_nonneg_right h1 (by linarith))
    _ = peakOf waveform := by ring

/-- The heights of a cycle fill nine tenths of the box. -/
theorem abs_sampleHeights_le {params : WavetableMeshParams K} (hheight : 0 ≤ params.height) (waveform : List K)
    (columns : ℕ) {y : K} (hy : y ∈ sampleHeights waveform columns params) : |y| ≤ 0.45 * params.height := by
  obtain ⟨column, -, rfl⟩ := List.mem_map.mp hy
  have hpeak := peakOf_pos waveform
  have hratio : |resample waveform ((column : K) / (columns : K)) / peakOf waveform| ≤ 1 := by
    rw [abs_div, abs_of_pos hpeak, div_le_one hpeak]
    exact abs_resample_le waveform _
  have hnine : |(0.9 : K)| = 0.9 := abs_of_nonneg (by norm_num)
  have hhalf : |(0.5 : K)| = 0.5 := abs_of_nonneg (by norm_num)
  rw [abs_mul, abs_mul, abs_mul, abs_of_nonneg hheight, hnine, hhalf]
  calc |resample waveform ((column : K) / (columns : K)) / peakOf waveform| * 0.9 * params.height * 0.5
      = |resample waveform ((column : K) / (columns : K)) / peakOf waveform| * (0.45 * params.height) := by
        norm_num
        ring
    _ ≤ 1 * (0.45 * params.height) := mul_le_mul_of_nonneg_right hratio (by norm_num; positivity)
    _ = 0.45 * params.height := one_mul _

theorem abs_columnX_le {params : WavetableMeshParams K} (hwidth : 0 ≤ params.width) {columns column : ℕ}
    (h : column < columns) : |columnX columns params column| ≤ 0.5 * params.width := by
  have hpos : (0 : K) < (columns : K) := Nat.cast_pos.mpr (Nat.zero_lt_of_lt h)
  have hlow : (0 : K) ≤ (column : K) / (columns : K) := div_nonneg (Nat.cast_nonneg _) hpos.le
  have hhigh : (column : K) / (columns : K) ≤ 1 := by
    rw [div_le_one hpos]
    exact Nat.cast_le.mpr h.le
  have hmul := mul_le_mul_of_nonneg_right hhigh hwidth
  have hnonneg := mul_nonneg hlow hwidth
  unfold columnX
  rw [abs_le]
  norm_num at *
  constructor
  · linarith
  · linarith

/-! ## Where the vertices of a row are -/

/-- A vertex of a row at depth `z`, at most the width of a line off the box. -/
def OnRow (params : WavetableMeshParams K) (z : K) (v : MeshVertex K) : Prop :=
  |v.position.1| ≤ 0.5 * params.width + 6 ∧ |v.position.2.1| ≤ 0.45 * params.height + 6 ∧ v.position.2.2 = z

theorem halfLine_le (value : Option K) : max (sanitizeWidth value * 0.5) 0.125 ≤ (6 : K) := by
  have hwidth : sanitizeWidth value ≤ (12 : K) := by
    unfold sanitizeWidth
    split
    · refine max_le (by norm_num) ((min_le_right _ _).trans ?_)
      norm_num
    · unfold terrainLineWidth
      norm_num
  refine max_le ?_ (by norm_num)
  norm_num
  linarith

omit [FloorRing K] in
/-- The direction of a line has no part longer than one. -/
theorem abs_direction_le {sqrt : K → K} (hsqrt : ∀ x, 0 ≤ x → 0 ≤ sqrt x ∧ sqrt x * sqrt x = x) (x y : K) :
    let len := sqrt (x * x + y * y)
    let d := if epsilon < len then (x / len, y / len) else (1, 0)
    |d.1| ≤ 1 ∧ |d.2| ≤ 1 := by
  intro len d
  have hsquare := (hsqrt (x * x + y * y) (add_nonneg (mul_self_nonneg x) (mul_self_nonneg y))).2
  by_cases h : epsilon < len
  · have hlen : 0 < len := epsilon_pos.trans h
    have hd : d = (x / len, y / len) := if_pos h
    rw [hd, abs_div, abs_div, abs_of_pos hlen, div_le_one hlen, div_le_one hlen]
    constructor
    · apply abs_le_of_sq_le_sq _ hlen.le
      nlinarith [mul_self_nonneg y]
    · apply abs_le_of_sq_le_sq _ hlen.le
      nlinarith [mul_self_nonneg x]
  · have hd : d = (1, 0) := if_neg h
    rw [hd, abs_one, abs_zero]
    exact ⟨le_refl 1, zero_le_one⟩

omit [FloorRing K] in
/-- A part of a direction, as long as half a line, added to a coordinate or taken off it. -/
theorem abs_add_part_le {a bound d halfLine : K} (ha : |a| ≤ bound) (hd : |d| ≤ 1) (hhalf : |halfLine| ≤ 6) :
    |a + d * halfLine| ≤ bound + 6 ∧ |a - d * halfLine| ≤ bound + 6 := by
  have hpart : |d * halfLine| ≤ 6 := by
    rw [abs_mul]
    exact (mul_le_mul hd hhalf (abs_nonneg _) zero_le_one).trans_eq (one_mul 6)
  exact ⟨(abs_add_le _ _).trans (add_le_add ha hpart), (abs_sub _ _).trans (add_le_add ha hpart)⟩

omit [IsStrictOrderedRing K] in
theorem getD_curve (columns : ℕ) (params : WavetableMeshParams K) (waveform : List K) {i : ℕ} (hi : i < columns) :
    ∃ y ∈ sampleHeights waveform columns params,
      (curve (columnX columns params) (sampleHeights waveform columns params)).getD i (0, 0) =
        (columnX columns params i, y) := by
  have hlt : i < (sampleHeights waveform columns params).length := by rwa [length_sampleHeights]
  refine ⟨(sampleHeights waveform columns params)[i], List.getElem_mem hlt, ?_⟩
  rw [List.getD_eq_getElem _ _ (by rwa [length_curve])]
  simp only [curve, List.getElem_map, List.getElem_zipIdx, Nat.zero_add]

/-- Both edges of the line of a row are on the row. -/
theorem onRow_linePair {sqrt : K → K} (hsqrt : ∀ x, 0 ≤ x → 0 ≤ sqrt x ∧ sqrt x * sqrt x = x)
    {params : WavetableMeshParams K} (hwidth : 0 ≤ params.width) (hheight : 0 ≤ params.height) (waveform : List K)
    {columns i : ℕ} (hi : i < columns) (value : Option K) (z shade : K) :
    OnRow params z (linePair sqrt (curve (columnX columns params) (sampleHeights waveform columns params)) z
        (sanitizeWidth value) shade i).1 ∧
      OnRow params z (linePair sqrt (curve (columnX columns params) (sampleHeights waveform columns params)) z
        (sanitizeWidth value) shade i).2 := by
  obtain ⟨y, hy, hhere⟩ := getD_curve columns params waveform hi
  have hx := abs_columnX_le hwidth hi
  have hy := abs_sampleHeights_le hheight waveform columns hy
  have hhalf : |max (sanitizeWidth value * 0.5) (0.125 : K)| ≤ 6 := by
    rw [abs_of_nonneg (le_trans (by norm_num) (le_max_right _ _))]
    exact halfLine_le value
  unfold linePair
  rw [hhere]
  simp only
  generalize (curve (columnX columns params) (sampleHeights waveform columns params)).getD
    (min (i + 1) ((curve (columnX columns params) (sampleHeights waveform columns params)).length - 1)) (0, 0) = next
  generalize (curve (columnX columns params) (sampleHeights waveform columns params)).getD (i - 1) (0, 0) = prev
  obtain ⟨hd1, hd2⟩ := abs_direction_le hsqrt (next.1 - prev.1) (next.2 - prev.2)
  rw [← abs_neg] at hd2
  have hx' := abs_add_part_le hx hd2 hhalf
  have hy' := abs_add_part_le hy hd1 hhalf
  exact ⟨⟨hx'.1, hy'.1, rfl⟩, ⟨hx'.2, hy'.2, rfl⟩⟩

theorem onRow_surfaceVertex (sqrt : K → K) {params : WavetableMeshParams K} (hwidth : 0 ≤ params.width)
    (hheight : 0 ≤ params.height) (rows : List (TerrainRow K)) {columns i j : ℕ} (hi : i < rows.length)
    (hj : j < columns) :
    OnRow params (rows[i].zCenter)
      (surfaceVertex sqrt (rows.map fun row => sampleHeights row.frame columns params) (columnX columns params)
        (rows.map TerrainRow.zCenter) (rows.map TerrainRow.shade) i j) := by
  have hlt : j < (sampleHeights rows[i].frame columns params).length := by rwa [length_sampleHeights]
  have hrow : (rows.map fun row => sampleHeights row.frame columns params).getD i [] =
      sampleHeights rows[i].frame columns params := by
    rw [List.getD_eq_getElem _ _ (by rwa [List.length_map]), List.getElem_map]
  have hy := abs_sampleHeights_le hheight rows[i].frame columns (List.getElem_mem hlt)
  have hx := abs_columnX_le hwidth hj
  refine ⟨hx.trans (le_add_of_nonneg_right (by norm_num)), ?_, ?_⟩
  · unfold surfaceVertex
    simp only
    rw [hrow, List.getD_eq_getElem _ _ hlt]
    exact hy.trans (le_add_of_nonneg_right (by norm_num))
  · unfold surfaceVertex
    simp only
    rw [List.getD_eq_getElem _ _ (by rwa [List.length_map]), List.getElem_map]

/-! ## The vertices of the mesh by their number -/

/-- How many vertices a row has. -/
def rowLength (kind : MeshType) (count columns : ℕ) : ℕ :=
  if kind = .solid ∧ 2 ≤ count then columns else 2 * columns

omit [Field K] [LinearOrder K] [IsStrictOrderedRing K] [FloorRing K] in
theorem forall_mem_pairs {pairs : List (MeshVertex K × MeshVertex K)} {P : MeshVertex K → Prop}
    (h : ∀ p ∈ pairs, P p.1 ∧ P p.2) {v : MeshVertex K} (hv : v ∈ pairs.flatMap fun p => [p.1, p.2]) : P v := by
  obtain ⟨p, hp, hv⟩ := List.mem_flatMap.mp hv
  obtain ⟨h1, h2⟩ := h p hp
  rw [List.mem_pair] at hv
  obtain rfl | rfl := hv
  · exact h1
  · exact h2

omit [Field K] [LinearOrder K] [IsStrictOrderedRing K] [FloorRing K] in
/-- A vertex of strips one behind the other is one of the strip its number falls on. -/
theorem exists_row_stripsMesh {edges : TerrainRow K → List (MeshVertex K × MeshVertex K)} {columns : ℕ}
    (hedges : ∀ row, (edges row).length = columns) (hpos : 0 < columns) {rows : List (TerrainRow K)} {k : ℕ}
    {v : MeshVertex K} (hv : (stripsMesh edges rows).vertices[k]? = some v) :
    ∃ row, rows[k / (2 * columns)]? = some row ∧ v ∈ (edges row).flatMap fun p => [p.1, p.2] := by
  rw [stripsMesh, Mesh.vertices_foldl_append, List.nil_append, List.flatMap_def] at hv
  have hlength : ∀ block ∈ rows.map fun row => (strip (edges row)).vertices, block.length = 2 * columns := by
    intro block hblock
    obtain ⟨row, -, rfl⟩ := List.mem_map.mp hblock
    rw [strip, length_pairs, hedges]
  obtain ⟨block, hblock, hmem⟩ := exists_row_of_getElem? hlength (Nat.mul_pos Nat.zero_lt_two hpos) hv
  rw [List.getElem?_map, Option.map_eq_some_iff] at hblock
  obtain ⟨row, hrow, rfl⟩ := hblock
  exact ⟨row, hrow, List.mem_of_getElem? hmem⟩

/-- Every vertex of lines or of a surface is on the row its number falls on. -/
theorem onRow_terrainMesh {sqrt : K → K} (hsqrt : ∀ x, 0 ≤ x → 0 ≤ sqrt x ∧ sqrt x * sqrt x = x) {kind : MeshType}
    (hkind : kind ≠ .ribbon) {params : WavetableMeshParams K} (hwidth : 0 ≤ params.width)
    (hheight : 0 ≤ params.height) {columns : ℕ} (hcolumns : 0 < columns) (value : Option K)
    {rows : List (TerrainRow K)} {k : ℕ} {v : MeshVertex K}
    (hv : (terrainMesh sqrt kind columns params (sanitizeWidth value) rows).vertices[k]? = some v) :
    ∃ row, rows[k / rowLength kind rows.length columns]? = some row ∧ OnRow params row.zCenter v := by
  have hlines (hv : (stripsMesh (lineVertices sqrt columns params (sanitizeWidth value)) rows).vertices[k]? = some v) :
      ∃ row, rows[k / (2 * columns)]? = some row ∧ OnRow params row.zCenter v := by
    obtain ⟨row, hrow, hmem⟩ := exists_row_stripsMesh (length_lineVertices sqrt columns params _) hcolumns hv
    refine ⟨row, hrow, forall_mem_pairs (fun p hp => ?_) hmem⟩
    obtain ⟨i, hi, rfl⟩ := List.mem_map.mp hp
    exact onRow_linePair hsqrt hwidth hheight row.frame (List.mem_range.mp hi) value row.zCenter row.shade
  cases kind with
  | ribbon => exact absurd rfl hkind
  | wireframe =>
    rw [rowLength, if_neg fun h => absurd h.1 (by decide)]
    exact hlines hv
  | solid =>
    unfold terrainMesh at hv
    by_cases h : rows.length < 2
    · rw [if_pos h] at hv
      rw [rowLength, if_neg fun hsolid => absurd hsolid.2 (Nat.not_le.mpr h)]
      exact hlines hv
    · rw [if_neg h] at hv
      rw [rowLength, if_pos ⟨rfl, Nat.not_lt.mp h⟩]
      have hflat : (surfaceRows sqrt columns params rows).flatten[k]? = some v := by
        rw [← hv]
        rfl
      obtain ⟨block, hblock, hmem⟩ := exists_row_of_getElem? (length_surfaceRow sqrt columns params rows) hcolumns hflat
      obtain ⟨hlt, rfl⟩ := List.getElem?_eq_some_iff.mp hblock
      have hlt' : k / columns < rows.length := by rwa [length_surfaceRows] at hlt
      refine ⟨rows[k / columns], List.getElem?_eq_getElem hlt', ?_⟩
      simp only [surfaceRows, List.getElem_map, List.getElem_range] at hmem
      obtain ⟨j, hj, rfl⟩ := List.mem_map.mp (List.mem_of_getElem? hmem)
      exact onRow_surfaceVertex sqrt hwidth hheight rows hlt' (List.mem_range.mp hj)

/-! ## On the screen -/

omit [FloorRing K] in
theorem usableAspect_pos (aspect : Option K) : 0 < usableAspect aspect := by
  cases aspect with
  | none => exact zero_lt_one
  | some aspect =>
    unfold usableAspect
    simp only
    split
    case isTrue h => exact epsilon_pos.trans h
    case isFalse => exact zero_lt_one

omit [IsStrictOrderedRing K] [FloorRing K] in
/-- What the slant does to a point, with nothing left to divide by. -/
theorem transform_terrainViewProjAngled (f : Functions K) (half : K × K × K) (aspect yawDeg pitchDeg : Option K)
    {a sx sy ex ey : K} (ha : usableAspect aspect = a) (hsx : skewX f yawDeg = sx) (hsy : skewY f pitchDeg = sy)
    (hex : max half.1 0 + max half.2.2 0 * |sx| = ex) (hey : max half.2.1 0 + max half.2.2 0 * |sy| = ey)
    (p : K × K × K) :
    transform (terrainViewProjAngled f half aspect yawDeg pitchDeg) p =
      (0.85 / max (max ey (ex / a)) epsilon / a * (p.1 + sx * p.2.2),
        0.85 / max (max ey (ex / a)) epsilon * (p.2.1 + -(sy * p.2.2)),
        0.5 - p.2.2 / max (max half.2.2 0 * 2.0) epsilon, 1) := by
  unfold transform terrainViewProjAngled terrainFill
  simp only [ha, hsx, hsy, hex, hey]
  refine Prod.ext ?_ (Prod.ext ?_ (Prod.ext ?_ ?_))
  · simp only
    ring
  · simp only
    ring
  · simp only
    ring
  · simp only
    ring

omit [FloorRing K] in
/-- A coordinate moved by the depth and scaled to the box stays on the screen. -/
theorem abs_scaled_le {x moved scale room : K} (half extent : K) (hx : |x| ≤ room)
    (hmoved : |moved| ≤ extent - half) (hroom : room + (extent - half) ≤ 20 / 17 * extent) (hscale : 0 ≤ scale)
    (hfill : scale * extent ≤ 17 / 20) : |scale * (x + moved)| ≤ 1 := by
  rw [abs_mul, abs_of_nonneg hscale]
  calc scale * |x + moved| ≤ scale * (20 / 17 * extent) := by
        apply mul_le_mul_of_nonneg_left _ hscale
        linarith [abs_add_le x moved]
    _ = 20 / 17 * (scale * extent) := by ring
    _ ≤ 1 := by linarith

omit [FloorRing K] in
/-- What the box is scaled to, along an axis that the scale looks at. -/
theorem fill_le {extent bound a : K} (ha : 0 < a) (h : extent / a ≤ bound) :
    0.85 / max bound epsilon / a * extent ≤ 17 / 20 := by
  have hpos : 0 < max bound epsilon := lt_of_lt_of_le epsilon_pos (le_max_right _ _)
  have hratio : extent / a / max bound epsilon ≤ 1 := by
    rw [div_le_one hpos]
    exact h.trans (le_max_left _ _)
  have hnum : (0.85 : K) = 17 / 20 := by norm_num
  calc 0.85 / max bound epsilon / a * extent = 17 / 20 * (extent / a / max bound epsilon) := by
        rw [hnum]
        field_simp
    _ ≤ 17 / 20 * 1 := mul_le_mul_of_nonneg_left hratio (by norm_num)
    _ = 17 / 20 := mul_one _

omit [FloorRing K] in
/-- The rows are spread over the depth, each in the middle of its share. -/
theorem rowZ_div {total : K} (htotal : 0 < total) {count slot : ℕ} (h : slot < count) :
    0.5 - rowZ total count slot / total = ((slot : K) + 1 / 2) / (count : K) := by
  have hcount : (0 : K) < (count : K) := Nat.cast_pos.mpr (Nat.zero_lt_of_lt h)
  have hhalf : (0.5 : K) = 1 / 2 := by norm_num
  unfold rowZ
  split
  case isTrue =>
    rw [hhalf]
    field_simp
    ring
  case isFalse hone =>
    obtain rfl : count = 1 := by omega
    obtain rfl : slot = 0 := by omega
    rw [hhalf, zero_div, Nat.cast_zero, Nat.cast_one]
    ring

omit [FloorRing K] in
theorem abs_rowZ_le {total : K} (htotal : 0 < total) {count slot : ℕ} (h : slot < count) :
    |rowZ total count slot| ≤ total / 2 := by
  have hcount : (0 : K) < (count : K) := Nat.cast_pos.mpr (Nat.zero_lt_of_lt h)
  have hdepth := rowZ_div htotal h
  have hlow : 0 ≤ ((slot : K) + 1 / 2) / (count : K) := by positivity
  have hslot : (slot : K) + 1 ≤ (count : K) := by exact_mod_cast h
  have hhigh : ((slot : K) + 1 / 2) / (count : K) ≤ 1 := by
    rw [div_le_one hcount]
    linarith
  have hz : rowZ total count slot = (1 / 2 - ((slot : K) + 1 / 2) / (count : K)) * total := by
    rw [← hdepth]
    norm_num
    field_simp
  rw [hz, abs_le]
  constructor
  · nlinarith
  · nlinarith

theorem half_box {x : K} (h : 0 ≤ x) : max (x * 0.5) 0 = x / 2 := by
  have hhalf : (0.5 : K) = 1 / 2 := by norm_num
  rw [hhalf, mul_one_div, max_eq_left (div_nonneg h zero_le_two)]

theorem depthScaleOf_ge (style : RenderSettings K) : (1 / 10 : K) ≤ depthScaleOf style := by
  unfold depthScaleOf
  split
  · exact le_trans (by norm_num) (le_max_left _ _)
  · norm_num

theorem totalDepth_eq {params : WavetableMeshParams K} (hthickness : 10 * epsilon ≤ params.thickness)
    (style : RenderSettings K) : totalDepth params style = params.thickness * depthScaleOf style := by
  have hmul := mul_le_mul hthickness (depthScaleOf_ge style) (by norm_num)
    (le_trans (by linarith [epsilon_pos (K := K)]) hthickness)
  exact max_eq_left (by linarith)

/-- The whole terrain is on the screen: no vertex of its lines or of its surface leaves it, and a vertex is as deep
as the middle of its row's share of the depth. -/
theorem terrain_on_screen (f : Functions K) {sqrt : K → K}
    (hsqrt : ∀ x, 0 ≤ x → 0 ≤ sqrt x ∧ sqrt x * sqrt x = x) (table : List K) (frameLen : ℕ) (active : Option K)
    (maxFrames frameWidth : ℕ) {params : WavetableMeshParams K} (hwidth : 68 ≤ params.width)
    (hheight : 44 ≤ params.height) (hthickness : 10 * epsilon ≤ params.thickness) {style : RenderSettings K}
    (hkind : style.mesh ≠ .ribbon) (aspect : Option K) {mesh : WavetableMesh K}
    (hmesh : fromTable sqrt table frameLen active maxFrames frameWidth params style = .ok mesh) {k : ℕ}
    {v : MeshVertex K} (hv : mesh.vertices[k]? = some v) :
    let count := tableCount (table.length / frameLen) maxFrames
    let slot := k / rowLength style.mesh count (tableColumns frameWidth)
    let p := transform (viewerMatrix f params style aspect) v.position
    slot < count ∧ |p.1| ≤ 1 ∧ |p.2.1| ≤ 1 ∧ p.2.2.1 = ((slot : K) + 1 / 2) / (count : K) ∧ p.2.2.2 = 1 := by
  intro count slot p
  have htable : 0 < frameLen ∧ frameLen ≤ table.length := by
    by_contra h
    rw [fromTable_refused sqrt h] at hmesh
    cases hmesh
  rw [fromTable_eq sqrt htable.1 htable.2] at hmesh
  obtain rfl := Except.ok.inj hmesh
  have hcolumns : 0 < tableColumns frameWidth := Nat.lt_of_lt_of_le (by omega) (tableColumns_ge frameWidth)
  obtain ⟨row, hrow, hx, hy, hz⟩ := onRow_terrainMesh hsqrt hkind (le_trans (by norm_num) hwidth)
    (le_trans (by norm_num) hheight) hcolumns style.lineWidth hv
  rw [length_terrainRows] at hrow
  obtain ⟨hslot, rfl⟩ := List.getElem?_eq_some_iff.mp hrow
  rw [length_terrainRows] at hslot
  have hz : v.position.2.2 = rowZ (totalDepth params style) count slot := by
    rw [hz]
    simp only [terrainRows, List.getElem_map, List.getElem_range]
    rfl
  have htotal : epsilon ≤ totalDepth params style := le_max_right _ _
  have htotalPos : 0 < totalDepth params style := epsilon_pos.trans_le htotal
  have hdepth := abs_rowZ_le htotalPos hslot
  rw [← hz] at hdepth
  have hhx : max (params.width * 0.5) 0 = params.width / 2 := half_box (by linarith)
  have hhy : max (params.height * 0.5) 0 = params.height / 2 := half_box (by linarith)
  have hhz : max (params.thickness * 0.5 * depthScaleOf style) 0 = totalDepth params style / 2 := by
    rw [mul_right_comm, ← totalDepth_eq hthickness]
    exact half_box htotalPos.le
  have ha := usableAspect_pos (K := K) aspect
  have hp : p = _ := transform_terrainViewProjAngled f _ aspect style.yawDeg style.pitchDeg rfl rfl rfl rfl rfl v.position
  rw [hhx, hhy, hhz] at hp
  generalize usableAspect aspect = a at ha hp
  generalize skewX f style.yawDeg = sx at hp
  generalize skewY f style.pitchDeg = sy at hp
  have hfront : 0 ≤ totalDepth params style / 2 := by linarith
  have hsx := mul_nonneg hfront (abs_nonneg sx)
  have hsy := mul_nonneg hfront (abs_nonneg sy)
  have hmoved (skew : K) : |skew * v.position.2.2| ≤ totalDepth params style / 2 * |skew| := by
    rw [abs_mul, mul_comm]
    exact mul_le_mul_of_nonneg_right hdepth (abs_nonneg skew)
  have hbound (b : K) : (0 : K) ≤ 0.85 / max b epsilon :=
    div_nonneg (by norm_num) (epsilon_pos.le.trans (le_max_right _ _))
  norm_num at hx hy
  refine ⟨hslot, ?_, ?_, ?_, ?_⟩
  · rw [hp]
    refine abs_scaled_le (params.width / 2) (params.width / 2 + totalDepth params style / 2 * |sx|) hx ?_ ?_
      (div_nonneg (hbound _) ha.le) (fill_le ha (le_max_right _ _))
    · rw [add_sub_cancel_left]
      exact hmoved sx
    · linarith
  · have hfill := fill_le one_pos (le_max_left ((params.height / 2 + totalDepth params style / 2 * |sy|) / 1)
      ((params.width / 2 + totalDepth params style / 2 * |sx|) / a))
    rw [div_one, div_one] at hfill
    rw [hp]
    refine abs_scaled_le (params.height / 2) (params.height / 2 + totalDepth params style / 2 * |sy|) hy ?_ ?_
      (hbound _) hfill
    · rw [add_sub_cancel_left, abs_neg]
      exact hmoved sy
    · linarith
  · have hdouble : max (totalDepth params style / 2 * 2.0) epsilon = totalDepth params style := by
      have htwo : (2.0 : K) = 2 := by norm_num
      rw [htwo, div_mul_cancel₀ _ two_ne_zero, max_eq_left htotal]
    rw [hp]
    simp only
    rw [hdouble, hz]
    exact rowZ_div htotalPos hslot
  · rw [hp]

theorem terrain_on_screen_pair :
    ∃ mesh v, fromTable Real.sqrt [0, 1, 0, -1] 2 (some 1) 0 512 ⟨260, 96, 240⟩ RenderSettings.default = .ok mesh ∧
      mesh.vertices[0]? = some v ∧
      (let p := transform (viewerMatrix Functions.real ⟨260, 96, 240⟩ RenderSettings.default (some 2)) v.position;
        0 / rowLength .wireframe 2 512 < 2 ∧ |p.1| ≤ 1 ∧ |p.2.1| ≤ 1 ∧
          p.2.2.1 = ((0 / rowLength .wireframe 2 512 : ℕ) + 1 / 2) / ((2 : ℕ) : ℝ) ∧ p.2.2.2 = 1) := by
  have hmesh := fromTable_eq Real.sqrt (by decide : 0 < 2) (by decide : 2 ≤ ([0, 1, 0, -1] : List ℝ).length) (some 1) 0
    512 ⟨260, 96, 240⟩ RenderSettings.default
  have hpos : 0 < (encode (terrainMesh Real.sqrt .wireframe (tableColumns 512) ⟨260, 96, 240⟩
      (sanitizeWidth (some terrainLineWidth)) (terrainRows [0, 1, 0, -1] 2 (some 1) 0 ⟨260, 96, 240⟩
        RenderSettings.default))).vertices.length := by
    show 0 < (terrainMesh _ _ _ _ _ _).vertices.length
    rw [length_vertices_terrainMesh, length_terrainRows]
    decide
  refine ⟨_, _, hmesh, List.getElem?_eq_getElem hpos, ?_⟩
  exact terrain_on_screen Functions.real (fun x hx => ⟨Real.sqrt_nonneg x, Real.mul_self_sqrt hx⟩) [0, 1, 0, -1] 2
    (some 1) 0 512 (by norm_num) (by norm_num) (by norm_num [epsilon]) (by decide) (some 2) hmesh
    (List.getElem?_eq_getElem hpos)

/-! ## Which cycles the rows show -/

/-- The place of a row among the cycles, before it is rounded. -/
def rowPlace (available count slot : ℕ) : K :=
  (slot : K) * ((available - 1 : ℕ) : K) / ((count - 1 : ℕ) : K)

theorem round_of_nonneg {x : K} (h : 0 ≤ x) : round x = (⌊x + 1 / 2⌋₊ : K) := by
  have hhalf : (0.5 : K) = 1 / 2 := by norm_num
  rw [round, if_pos h, hhalf, natCast_floor_eq_intCast_floor (by linarith)]

/-- A row between the first and the last shows the cycle nearest to its place. -/
theorem tableIdx_eq {available count slot : ℕ} (hcount : 1 < count) (hslot : slot < count) :
    tableIdx (K := K) available count slot = ⌊(rowPlace available count slot : K) + 1 / 2⌋₊ := by
  have hpos : (0 : K) < ((count - 1 : ℕ) : K) := Nat.cast_pos.mpr (by omega)
  have hlast : (0 : K) ≤ ((available - 1 : ℕ) : K) := Nat.cast_nonneg _
  have hplace : (0 : K) ≤ rowPlace available count slot := div_nonneg (mul_nonneg (Nat.cast_nonneg _) hlast) hpos.le
  have hle : (rowPlace available count slot : K) ≤ ((available - 1 : ℕ) : K) := by
    rw [rowPlace, div_le_iff₀ hpos, mul_comm]
    exact mul_le_mul_of_nonneg_left (Nat.cast_le.mpr (by omega)) hlast
  have hround : ⌊(rowPlace available count slot : K) + 1 / 2⌋₊ ≤ available - 1 := by
    rw [← Nat.lt_succ_iff, Nat.floor_lt (by linarith), Nat.cast_succ]
    linarith
  rw [tableIdx, if_neg (Nat.not_le.mpr hcount)]
  have hdef : (slot : K) * ((available - 1 : ℕ) : K) / ((count - 1 : ℕ) : K) = rowPlace available count slot := rfl
  rw [hdef, round_of_nonneg hplace, clamp, min_eq_left (Nat.cast_le.mpr hround), max_eq_right (Nat.cast_nonneg _),
    Nat.floor_natCast]

/-- Behind each row is a later cycle. -/
theorem tableIdx_strictMono {available count : ℕ} (hle : count ≤ available) {slot slot' : ℕ} (h : slot < slot')
    (hslot : slot' < count) :
    tableIdx (K := K) available count slot < tableIdx (K := K) available count slot' := by
  have hcount : 1 < count := by omega
  have hpos : (0 : K) < ((count - 1 : ℕ) : K) := Nat.cast_pos.mpr (by omega)
  have hplace : (0 : K) ≤ rowPlace available count slot :=
    div_nonneg (mul_nonneg (Nat.cast_nonneg _) (Nat.cast_nonneg _)) hpos.le
  have hstep : (rowPlace available count slot : K) + 1 ≤ rowPlace available count slot' := by
    have hratio : (1 : K) ≤ ((available - 1 : ℕ) : K) / ((count - 1 : ℕ) : K) := by
      rw [one_le_div hpos]
      exact Nat.cast_le.mpr (by omega)
    have hslots : (slot : K) + 1 ≤ (slot' : K) := by exact_mod_cast h
    have hmul := mul_le_mul_of_nonneg_right hslots (le_trans zero_le_one hratio)
    rw [rowPlace, rowPlace, mul_div_assoc, mul_div_assoc]
    linarith
  rw [tableIdx_eq hcount (h.trans hslot), tableIdx_eq hcount hslot, ← Nat.succ_le_iff,
    Nat.le_floor_iff (by linarith), Nat.cast_succ]
  have hfloor := Nat.floor_le (by linarith : (0 : K) ≤ rowPlace available count slot + 1 / 2)
  linarith

theorem tableIdx_near {available count slot : ℕ} (hcount : 1 < count) (hslot : slot < count) :
    |(tableIdx (K := K) available count slot : K) - rowPlace available count slot| ≤ 1 / 2 := by
  have hplace : (0 : K) ≤ rowPlace available count slot :=
    div_nonneg (mul_nonneg (Nat.cast_nonneg _) (Nat.cast_nonneg _)) (Nat.cast_nonneg _)
  rw [tableIdx_eq hcount hslot, abs_le]
  have hfloor := Nat.floor_le (by linarith : (0 : K) ≤ rowPlace available count slot + 1 / 2)
  have hnext := Nat.lt_floor_add_one ((rowPlace available count slot : K) + 1 / 2)
  constructor
  · linarith
  · linarith

/-! ## How bright the rows are -/

/-- What the distance from the front leaves of the brightness of a row. -/
def rowFade (fade : K) (count slot : ℕ) : K :=
  if 1 < count then 1 - fade * (slot : K) / ((count - 1 : ℕ) : K) else 1

omit [FloorRing K] in
theorem rowFade_mem {fade : K} (h0 : 0 ≤ fade) (h1 : fade ≤ 9 / 10) {count slot : ℕ} (hslot : slot < count) :
    1 / 10 ≤ rowFade fade count slot ∧ rowFade fade count slot ≤ 1 := by
  unfold rowFade
  split
  case isFalse => exact ⟨by norm_num, le_refl 1⟩
  case isTrue h =>
    have hpos : (0 : K) < ((count - 1 : ℕ) : K) := Nat.cast_pos.mpr (by omega)
    have hlow : (0 : K) ≤ fade * (slot : K) / ((count - 1 : ℕ) : K) := by positivity
    have hhigh : fade * (slot : K) / ((count - 1 : ℕ) : K) ≤ fade := by
      rw [div_le_iff₀ hpos]
      exact mul_le_mul_of_nonneg_left (Nat.cast_le.mpr (by omega)) h0
    constructor
    · linarith
    · linarith

omit [FloorRing K] in
theorem fadeOf_mem (style : RenderSettings K) : 0 ≤ fadeOf style ∧ fadeOf style ≤ 9 / 10 := by
  unfold fadeOf terrainDepthFade clamp
  split
  · refine ⟨le_max_left _ _, max_le (by norm_num) ((min_le_right _ _).trans ?_)⟩
    norm_num
  · constructor
    · norm_num
    · norm_num

omit [FloorRing K] in
/-- The light of the knob: a third of the whole at least, and the whole only under the knob. -/
theorem rowShade_bounds {activeSlot fade : K} (h0 : 0 ≤ fade) (h1 : fade ≤ 9 / 10) {count slot : ℕ}
    (hslot : slot < count) :
    0 < rowShade activeSlot fade count slot ∧
      0.32 * rowFade fade count slot ≤ rowShade activeSlot fade count slot ∧
      rowShade activeSlot fade count slot ≤ rowFade fade count slot ∧
      (rowShade activeSlot fade count slot = rowFade fade count slot ↔ (slot : K) = activeSlot) := by
  have hfade : 0 < rowFade fade count slot := lt_of_lt_of_le (by norm_num) (rowFade_mem h0 h1 hslot).1
  have hnum : (0.32 : K) = 8 / 25 ∧ (1.5 : K) = 3 / 2 := ⟨by norm_num, by norm_num⟩
  have hlow : (0 : K) ≤ clamp 0 1 (|(slot : K) - activeSlot| / shadeFalloff) := le_max_left _ _
  have hhigh : clamp 0 1 (|(slot : K) - activeSlot| / shadeFalloff) ≤ (1 : K) :=
    max_le zero_le_one (min_le_right _ _)
  have hzero : clamp 0 1 (|(slot : K) - activeSlot| / shadeFalloff) = (0 : K) ↔ (slot : K) = activeSlot := by
    rw [clamp, max_eq_left_iff, min_le_iff, shadeFalloff, hnum.2, div_le_iff₀ (by norm_num), zero_mul, abs_nonpos_iff,
      sub_eq_zero, or_iff_left (not_le.mpr zero_lt_one)]
  have hshade : rowShade activeSlot fade count slot =
      (1 + (8 / 25 - 1) * clamp 0 1 (|(slot : K) - activeSlot| / shadeFalloff)) * rowFade fade count slot := by
    rw [← hnum.1]
    rfl
  rw [hshade, hnum.1]
  refine ⟨mul_pos (by linarith) hfade, mul_le_mul_of_nonneg_right (by linarith) hfade.le, ?_, ?_⟩
  · nlinarith
  · rw [mul_eq_right₀ hfade.ne', ← hzero]
    constructor
    · intro h
      linarith
    · intro h
      rw [h]
      ring

/-- The rows show the whole table: each one a cycle of it, from the first to the last in order, evenly picked;
none is dark, and only the one under the knob is not dimmed. -/
theorem terrainRows_spread {table : List K} {frameLen : ℕ} (h : 0 < frameLen) (hle : frameLen ≤ table.length)
    (active : Option K) (maxFrames : ℕ) (params : WavetableMeshParams K) (style : RenderSettings K) :
    let available := table.length / frameLen
    let count := tableCount available maxFrames
    let idx := tableIdx (K := K) available count
    (∀ slot row, (terrainRows table frameLen active maxFrames params style)[slot]? = some row →
      row.frame = (table.drop (idx slot * frameLen)).take frameLen ∧ row.frame.length = frameLen ∧ 0 < row.shade ∧
      0.32 * rowFade (fadeOf style) count slot ≤ row.shade ∧ row.shade ≤ rowFade (fadeOf style) count slot ∧
      (row.shade = rowFade (fadeOf style) count slot ↔ (slot : K) = tableSlot available count active)) ∧
    (∀ slot slot', slot < slot' → slot' < count → idx slot < idx slot') ∧
    idx 0 = 0 ∧ (1 < count → idx (count - 1) = available - 1 ∧
      ∀ slot < count, |(idx slot : K) - rowPlace available count slot| ≤ 1 / 2) := by
  intro available count idx
  have havailable : 0 < available := Nat.div_pos hle h
  have hcount : count ≤ available := tableCount_le havailable maxFrames
  refine ⟨?_, fun slot slot' hlt hslot => tableIdx_strictMono hcount hlt hslot, ?_, fun hone => ⟨?_, ?_⟩⟩
  · intro slot row hrow
    obtain ⟨hslot, rfl⟩ := List.getElem?_eq_some_iff.mp hrow
    rw [length_terrainRows] at hslot
    have heq : (terrainRows table frameLen active maxFrames params style)[slot] =
        tableRow table frameLen available count (tableSlot available count active) (fadeOf style)
          (totalDepth params style) slot := by
      simp only [terrainRows, List.getElem_map, List.getElem_range]
      rfl
    rw [heq]
    obtain ⟨hframe, hlength⟩ := frame_terrainRow h hle count slot (tableSlot available count active) (fadeOf style)
      (totalDepth params style)
    obtain ⟨hfade0, hfade1⟩ := fadeOf_mem style
    exact ⟨hframe, hlength, rowShade_bounds hfade0 hfade1 hslot⟩
  · by_cases hone : 1 < count
    · have hplace : (rowPlace available count 0 : K) = 0 := by rw [rowPlace, Nat.cast_zero, zero_mul, zero_div]
      show tableIdx available count 0 = 0
      rw [tableIdx_eq hone (by omega), hplace, zero_add, Nat.floor_eq_zero]
      norm_num
    · exact if_pos (Nat.not_lt.mp hone)
  · have hpos : (0 : K) < ((count - 1 : ℕ) : K) := Nat.cast_pos.mpr (by omega)
    have hplace : (rowPlace available count (count - 1) : K) = ((available - 1 : ℕ) : K) := by
      rw [rowPlace, mul_div_assoc, mul_div_cancel₀ _ hpos.ne']
    show tableIdx available count (count - 1) = available - 1
    rw [tableIdx_eq hone (by omega), hplace, Nat.floor_eq_iff (by positivity)]
    constructor
    · linarith
    · linarith
  · exact fun slot hslot => tableIdx_near hone hslot

theorem terrainRows_spread_pair :
    (∀ slot row, (terrainRows [0, 1, 0, -1] 2 (some 1) 0 (⟨260, 96, 240⟩ : WavetableMeshParams ℚ)
        RenderSettings.default)[slot]? = some row →
      row.frame = ([0, 1, 0, -1].drop (tableIdx (K := ℚ) 2 2 slot * 2)).take 2 ∧ row.frame.length = 2 ∧ 0 < row.shade ∧
      0.32 * rowFade (fadeOf RenderSettings.default) 2 slot ≤ row.shade ∧
      row.shade ≤ rowFade (fadeOf RenderSettings.default) 2 slot ∧
      (row.shade = rowFade (fadeOf RenderSettings.default) 2 slot ↔ (slot : ℚ) = tableSlot 2 2 (some 1))) ∧
    (∀ slot slot', slot < slot' → slot' < 2 → tableIdx (K := ℚ) 2 2 slot < tableIdx (K := ℚ) 2 2 slot') ∧
    tableIdx (K := ℚ) 2 2 0 = 0 ∧ (1 < 2 → tableIdx (K := ℚ) 2 2 (2 - 1) = 2 - 1 ∧
      ∀ slot < 2, |(tableIdx (K := ℚ) 2 2 slot : ℚ) - rowPlace 2 2 slot| ≤ 1 / 2) :=
  terrainRows_spread (by decide) (by decide) (some 1) 0 ⟨260, 96, 240⟩ RenderSettings.default

/-! ## The side the surface shows -/

/-- The upward part of the normal of a triangle, by its corners in their order. -/
def upward (face : MeshVertex K × MeshVertex K × MeshVertex K) : K :=
  let a := face.1.position
  let b := face.2.1.position
  let c := face.2.2.position
  (b.2.2 - a.2.2) * (c.1 - a.1) - (b.1 - a.1) * (c.2.2 - a.2.2)

omit [FloorRing K] in
theorem columnX_succ (params : WavetableMeshParams K) (columns column : ℕ) :
    columnX columns params (column + 1) - columnX columns params column = params.width / (columns : K) := by
  unfold columnX
  push_cast
  ring

omit [FloorRing K] in
theorem rowZ_succ (total : K) {count : ℕ} (h : 1 < count) (slot : ℕ) :
    rowZ total count slot - rowZ total count (slot + 1) = total / (count : K) := by
  unfold rowZ
  rw [if_pos h, if_pos h]
  push_cast
  ring

omit [IsStrictOrderedRing K] in
theorem place_of_surfaceRows {sqrt : K → K} {columns : ℕ} {params : WavetableMeshParams K}
    {rows : List (TerrainRow K)} {i j : ℕ} {row : List (MeshVertex K)} {v : MeshVertex K}
    (hrow : (surfaceRows sqrt columns params rows)[i]? = some row) (hv : row[j]? = some v) :
    v.position.1 = columnX columns params j ∧ v.position.2.2 = (rows.map TerrainRow.zCenter).getD i 0 := by
  obtain ⟨hi, rfl⟩ := List.getElem?_eq_some_iff.mp hrow
  simp only [surfaceRows, List.getElem_map, List.getElem_range] at hv
  obtain ⟨hj, rfl⟩ := List.getElem?_eq_some_iff.mp hv
  rw [List.getElem_map, List.getElem_range]
  exact ⟨rfl, rfl⟩

omit [IsStrictOrderedRing K] in
theorem zCenter_terrainRows (table : List K) {frameLen : ℕ} (active : Option K) {maxFrames : ℕ}
    (params : WavetableMeshParams K) (style : RenderSettings K) {i : ℕ}
    (h : i < tableCount (table.length / frameLen) maxFrames) :
    ((terrainRows table frameLen active maxFrames params style).map TerrainRow.zCenter).getD i 0 =
      rowZ (totalDepth params style) (tableCount (table.length / frameLen) maxFrames) i := by
  rw [List.getD_eq_getElem _ _ (by rwa [List.length_map, length_terrainRows]), List.getElem_map]
  simp only [terrainRows, List.getElem_map, List.getElem_range]
  rfl

/-- Every triangle of the surface of a table faces up, whatever the heights of its corners. -/
theorem surface_faces_up (sqrt : K → K) (table : List K) (frameLen : ℕ) (active : Option K) (maxFrames frameWidth : ℕ)
    {params : WavetableMeshParams K} (hwidth : 0 < params.width) (style : RenderSettings K)
    (hcount : 2 ≤ tableCount (table.length / frameLen) maxFrames) :
    ∀ face ∈ terrainFaces sqrt .solid (tableColumns frameWidth) params (sanitizeWidth style.lineWidth)
      (terrainRows table frameLen active maxFrames params style), 0 < upward face := by
  intro face hface
  have hcolumns : (0 : K) < (tableColumns frameWidth : K) :=
    Nat.cast_pos.mpr (Nat.lt_of_lt_of_le (by omega) (tableColumns_ge frameWidth))
  have htotal : 0 < totalDepth params style := lt_of_lt_of_le epsilon_pos (le_max_right _ _)
  have hrows : (0 : K) < (tableCount (table.length / frameLen) maxFrames : K) := Nat.cast_pos.mpr (by omega)
  have harea := mul_pos (div_pos hwidth hcolumns) (div_pos htotal hrows)
  have hlength := length_terrainRows table frameLen active maxFrames params style
  unfold terrainFaces at hface
  simp only [hlength, if_neg (Nat.not_lt.mpr hcount)] at hface
  obtain ⟨i, j, up, down, a, b, c, d, hup, hdown, ha, hb, hc, hd, hface⟩ := exists_cell_of_mem_gridFaces hface
  have hlast : i + 1 < tableCount (table.length / frameLen) maxFrames := by
    have hlt := (List.getElem?_eq_some_iff.mp hdown).1
    rwa [length_surfaceRows, hlength] at hlt
  obtain ⟨hax, haz⟩ := place_of_surfaceRows hup ha
  obtain ⟨hbx, hbz⟩ := place_of_surfaceRows hup hb
  obtain ⟨hcx, hcz⟩ := place_of_surfaceRows hdown hc
  obtain ⟨hdx, hdz⟩ := place_of_surfaceRows hdown hd
  have hx := columnX_succ params (tableColumns frameWidth) j
  have hz := rowZ_succ (totalDepth params style) hcount i
  have hzi := zCenter_terrainRows table active params style (Nat.lt_of_succ_lt hlast)
  have hzj := zCenter_terrainRows table active params style hlast
  obtain rfl | rfl := hface
  · unfold upward
    simp only [hax, haz, hbx, hbz, hcx, hcz, hzi, hzj]
    rw [sub_self, zero_mul, hx, zero_sub, ← mul_neg, neg_sub, hz]
    exact harea
  · unfold upward
    simp only [hbx, hbz, hcx, hcz, hdx, hdz, hzi, hzj]
    rw [sub_self, zero_mul, sub_zero, ← neg_sub, hz, ← neg_sub (columnX _ _ _), hx, neg_mul_neg, mul_comm]
    exact harea

theorem surface_faces_up_pair :
    tableCount ([0, 1, 0, -1].length / 2) 0 = 2 ∧
      ∀ face ∈ terrainFaces Real.sqrt .solid (tableColumns 512) ⟨260, 96, 240⟩ (sanitizeWidth (some terrainLineWidth))
        (terrainRows [0, 1, 0, -1] 2 (some 1) 0 ⟨260, 96, 240⟩ RenderSettings.default), 0 < upward face :=
  ⟨by decide,
    surface_faces_up Real.sqrt [0, 1, 0, -1] 2 (some 1) 0 512 (by norm_num) RenderSettings.default (by decide)⟩

end HikaruOpenLive.Render
