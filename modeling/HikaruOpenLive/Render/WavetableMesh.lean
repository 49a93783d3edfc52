import HikaruOpenLive.Foundations.TriangleMesh
import Mathlib.Algebra.Order.Floor.Ring
import Mathlib.Algebra.Order.Floor.Semiring
import Mathlib.Data.Rat.Floor
import Mathlib.Tactic.FieldSimp
import Mathlib.Tactic.Linarith
import Mathlib.Tactic.Positivity
import Mathlib.Tactic.Ring

/-! # The mesh of a wavetable

The viewer shows a wavetable as a terrain: some of its cycles, one behind the other, each as a flat
line, as a ribbon or as a row of one surface. The mesh is built in two buffers that every row is
pushed to, and the numbers of the triangles count from the vertices already there, as 32-bit numbers.

Arithmetic is exact, with the square root as a parameter; a value of the settings panel that is not a
finite number is `none`.
-/
set_option autoImplicit false

namespace HikaruOpenLive.Render
open HikaruOpenLive.Foundations.TriangleMesh

variable {K : Type} [Field K] [LinearOrder K] [IsStrictOrderedRing K] [FloorRing K]

/-! ## Data -/

structure MeshVertex (K : Type) where
  position : K × K × K
  normal : K × K × K
  uv : K × K

structure WavetableMeshParams (K : Type) where
  width : K
  height : K
  thickness : K

inductive MeshType where
  | wireframe
  | ribbon
  | solid
deriving DecidableEq

structure RenderSettings (K : Type) where
  lineWidth : Option K
  lineWidth2d : Option K
  depthScale : Option K
  yawDeg : Option K
  pitchDeg : Option K
  depthFade : Option K
  mesh : MeshType
  aaFeather : Option K
  glow : Option K

structure WavetableMesh (K : Type) where
  vertices : List (MeshVertex K)
  indices : List UInt32

inductive MeshError where
  | empty
  | indexCountNotMultipleOfThree (got : ℕ)
  | indexOutOfRange (index : UInt32) (vertexCount : ℕ)
  | waveformTooShort
deriving DecidableEq

/-- `f32::EPSILON` -/
def epsilon : K := ((2 ^ 23 : ℕ) : K)⁻¹

def activeShade : K := 1
def dimShade : K := 0.32
def shadeFalloff : K := 1.5
def terrainLineWidth : K := 3.0
def terrainMinColumns : ℕ := 128
def terrainDepthFade : K := 0.35
def terrainYawDeg : K := 15.0
def terrainPitchDeg : K := 25.0

def RenderSettings.default : RenderSettings K :=
  { lineWidth := some terrainLineWidth
    lineWidth2d := some terrainLineWidth
    depthScale := some 1
    yawDeg := some terrainYawDeg
    pitchDeg := some terrainPitchDeg
    depthFade := some terrainDepthFade
    mesh := .wireframe
    aaFeather := some 1
    glow := some 1 }

def clamp (low high x : K) : K :=
  max low (min x high)

/-- To the nearest integer, a half away from zero. -/
def round (x : K) : K :=
  if 0 ≤ x then (⌊x + 0.5⌋ : K) else (⌈x - 0.5⌉ : K)

def sanitizeWidth (value : Option K) : K :=
  match value with
  | some value => clamp 0.5 12.0 value
  | none => terrainLineWidth

/-! ## The check before the upload -/

def validateGeometry (vertices : List (MeshVertex K)) (indices : List UInt32) : Except MeshError Unit :=
  if vertices.isEmpty || indices.isEmpty then .error .empty
  else if indices.length % 3 ≠ 0 then .error (.indexCountNotMultipleOfThree indices.length)
  else
    match indices.find? fun index => vertices.length ≤ index.toNat with
    | some bad => .error (.indexOutOfRange bad vertices.length)
    | none => .ok ()

/-! ## One cycle -/

/-- The value of a periodic waveform between two samples. -/
def resample (waveform : List K) (u : K) : K :=
  let len := waveform.length
  let position := u * (len : K)
  let index0 := ⌊position⌋₊ % len
  let index1 := (index0 + 1) % len
  let fraction := position - (⌊position⌋ : K)
  waveform.getD index0 0 * (1 - fraction) + waveform.getD index1 0 * fraction

def peakOf (waveform : List K) : K :=
  max (waveform.foldl (fun acc sample => max acc |sample|) 0) epsilon

def sampleHeights (waveform : List K) (columns : ℕ) (params : WavetableMeshParams K) : List K :=
  (List.range columns).map fun column : ℕ =>
    resample waveform ((column : K) / (columns : K)) / peakOf waveform * 0.9 * params.height * 0.5

/-- Two triangles between each column and the next, and none from the last back to the first. -/
def segmentIndices (base : UInt32) (columns : ℕ) : List UInt32 :=
  (List.range (columns - 1)).flatMap fun column =>
    let leftA := base + UInt32.ofNat column * 2
    let rightA := leftA + 1
    let leftB := base + (UInt32.ofNat column + 1) * 2
    let rightB := leftB + 1
    [leftA, rightA, leftB] ++ [leftB, rightA, rightB]

def ribbonPair (waveform : List K) (columns : ℕ) (params : WavetableMeshParams K) (zCenter depth shade : K)
    (column : ℕ) : MeshVertex K × MeshVertex K :=
  let halfWidth := params.width * 0.5
  let halfHeight := params.height * 0.5
  let halfDepth := depth * 0.5
  let phaseU := (column : K) / (columns : K)
  let x := -halfWidth + phaseU * params.width
  let y := resample waveform phaseU / peakOf waveform * 0.9 * halfHeight
  ({ position := (x, y, zCenter - halfDepth), normal := (0, 0, -1), uv := (-1, shade) },
    { position := (x, y, zCenter + halfDepth), normal := (0, 0, 1), uv := (1, shade) })

def pushRibbon (mesh : WavetableMesh K) (waveform : List K) (columns : ℕ) (params : WavetableMeshParams K)
    (zCenter depth shade : K) : WavetableMesh K :=
  let base := UInt32.ofNat mesh.vertices.length
  { vertices := mesh.vertices ++ ((List.range columns).map
      (ribbonPair waveform columns params zCenter depth shade)).flatMap fun p => [p.1, p.2]
    indices := mesh.indices ++ segmentIndices base columns }

/-- The two edges of a line at one of its points, across the direction of its neighbours. -/
def linePair (sqrt : K → K) (points : List (K × K)) (zCenter lineWidth shade : K) (i : ℕ) :
    MeshVertex K × MeshVertex K :=
  let halfLine := max (lineWidth * 0.5) 0.125
  let here := points.getD i (0, 0)
  let prev := points.getD (i - 1) (0, 0)
  let next := points.getD (min (i + 1) (points.length - 1)) (0, 0)
  let dx := next.1 - prev.1
  let dy := next.2 - prev.2
  let len := sqrt (dx * dx + dy * dy)
  let d := if epsilon < len then (dx / len, dy / len) else (1, 0)
  let ox := -d.2 * halfLine
  let oy := d.1 * halfLine
  ({ position := (here.1 + ox, here.2 + oy, zCenter), normal := (0, 0, 1), uv := (-1, shade) },
    { position := (here.1 - ox, here.2 - oy, zCenter), normal := (0, 0, 1), uv := (1, shade) })

def pushLineStrip (sqrt : K → K) (mesh : WavetableMesh K) (points : List (K × K)) (zCenter lineWidth shade : K) :
    WavetableMesh K :=
  let base := UInt32.ofNat mesh.vertices.length
  { vertices := mesh.vertices ++ ((List.range points.length).map
      (linePair sqrt points zCenter lineWidth shade)).flatMap fun p => [p.1, p.2]
    indices := mesh.indices ++ segmentIndices base points.length }

/-- The place of a column from left to right. -/
def columnX (columns : ℕ) (params : WavetableMeshParams K) (column : ℕ) : K :=
  -(params.width * 0.5) + (column : K) / (columns : K) * params.width

def curve (xOf : ℕ → K) (heights : List K) : List (K × K) :=
  heights.zipIdx.map fun p => (xOf p.2, p.1)

def pushTerrainLine (sqrt : K → K) (mesh : WavetableMesh K) (waveform : List K) (columns : ℕ)
    (params : WavetableMeshParams K) (zCenter lineWidth shade : K) : WavetableMesh K :=
  let heights := sampleHeights waveform columns params
  pushLineStrip sqrt mesh (curve (columnX columns params) heights) zCenter lineWidth shade

/-! ## One surface -/

def unit (sqrt : K → K) (x y z : K) : K × K × K :=
  let len := sqrt (x * x + y * y + z * z)
  if epsilon < len then (x / len, y / len, z / len) else (0, 1, 0)

def surfaceVertex (sqrt : K → K) (heights : List (List K)) (xOf : ℕ → K) (zrows shades : List K) (i j : ℕ) :
    MeshVertex K :=
  let rows := heights.length
  let columns := (heights.headD []).length
  let up := heights.getD (i - 1) []
  let down := heights.getD (min (i + 1) (rows - 1)) []
  let row := heights.getD i []
  let dz := max |zrows.getD (min (i + 1) (rows - 1)) 0 - zrows.getD (i - 1) 0| epsilon
  let prev := row.getD (j - 1) 0
  let next := row.getD (min (j + 1) (columns - 1)) 0
  let dx := max |xOf (min (j + 1) (columns - 1)) - xOf (j - 1)| epsilon
  let hx := (next - prev) / dx
  let hz := (down.getD j 0 - up.getD j 0) / dz
  let edge := if i = 0 ∨ i + 1 = rows ∨ j = 0 ∨ j + 1 = columns then 1 else 0
  { position := (xOf j, row.getD j 0, zrows.getD i 0), normal := unit sqrt (-hx) 1 (-hz), uv := (edge, shades.getD i 0) }

def pushTerrainSolid (sqrt : K → K) (mesh : WavetableMesh K) (heights : List (List K)) (xOf : ℕ → K)
    (zrows shades : List K) (lineWidth : K) : WavetableMesh K :=
  let rows := heights.length
  let columns := (heights.headD []).length
  if rows = 0 ∨ columns = 0 then mesh
  else if rows < 2 then
    pushLineStrip sqrt mesh (curve xOf (heights.getD 0 [])) (zrows.getD 0 0) lineWidth (shades.getD 0 0)
  else
    let base := UInt32.ofNat mesh.vertices.length
    { vertices := mesh.vertices ++ (List.range rows).flatMap fun i =>
        (List.range columns).map (surfaceVertex sqrt heights xOf zrows shades i)
      indices := mesh.indices ++ (List.range (rows - 1)).flatMap fun i => (List.range (columns - 1)).flatMap fun j =>
        let a := base + UInt32.ofNat (i * columns + j)
        let b := base + UInt32.ofNat (i * columns + j + 1)
        let c := base + UInt32.ofNat ((i + 1) * columns + j)
        let d := base + UInt32.ofNat ((i + 1) * columns + j + 1)
        [a, b, c] ++ [b, d, c] }

/-! ## The whole table -/

/-- A cycle of the table at its place in the terrain. -/
structure TerrainRow (K : Type) where
  frame : List K
  zCenter : K
  shade : K

/-- The buffers of the mesh, and the rows that wait for the surface. -/
structure Terrain (K : Type) where
  mesh : WavetableMesh K
  grid : List (List K)
  zrows : List K
  rowShades : List K

def Terrain.new : Terrain K :=
  { mesh := { vertices := [], indices := [] }, grid := [], zrows := [], rowShades := [] }

def tableIdx (available count slot : ℕ) : ℕ :=
  if count ≤ 1 then 0
  else
    ⌊clamp 0 ((available - 1 : ℕ) : K)
      (round ((slot : K) * ((available - 1 : ℕ) : K) / ((count - 1 : ℕ) : K)))⌋₊

def tableFrame (table : List K) (frameLen idx : ℕ) : List K :=
  let start := min (idx * frameLen) table.length
  let stop := min (start + frameLen) table.length
  (table.drop start).take (stop - start)

def rowZ (total : K) (count slot : ℕ) : K :=
  if 1 < count then total * 0.5 - total / (count : K) * ((slot : K) + 0.5) else 0

def rowShade (activeSlot fade : K) (count slot : ℕ) : K :=
  let distance := |(slot : K) - activeSlot|
  let highlight := activeShade + (dimShade - activeShade) * clamp 0 1 (distance / shadeFalloff)
  let depth := if 1 < count then 1 - fade * (slot : K) / ((count - 1 : ℕ) : K) else 1
  highlight * depth

def tableRow (table : List K) (frameLen available count : ℕ) (activeSlot fade total : K) (slot : ℕ) :
    TerrainRow K :=
  { frame := tableFrame table frameLen (tableIdx (K := K) available count slot)
    zCenter := rowZ total count slot
    shade := rowShade activeSlot fade count slot }

def pushRow (sqrt : K → K) (mesh : MeshType) (columns : ℕ) (params : WavetableMeshParams K) (lineWidth : K)
    (t : Terrain K) (row : TerrainRow K) : Terrain K :=
  if row.frame.isEmpty then t
  else
    match mesh with
    | .wireframe =>
      { t with mesh := pushTerrainLine sqrt t.mesh row.frame columns params row.zCenter lineWidth row.shade }
    | .ribbon => { t with mesh := pushRibbon t.mesh row.frame columns params row.zCenter lineWidth row.shade }
    | .solid =>
      { t with
        grid := t.grid ++ [sampleHeights row.frame columns params]
        zrows := t.zrows ++ [row.zCenter]
        rowShades := t.rowShades ++ [row.shade] }

def tableColumns (frameWidth : ℕ) : ℕ :=
  max (max frameWidth terrainMinColumns) 2

/-- How many of the cycles get a row. -/
def tableCount (available maxFrames : ℕ) : ℕ :=
  let limit := if maxFrames = 0 then available else max maxFrames 1
  max (min available limit) 1

def tableSlot (available count : ℕ) (active : Option K) : K :=
  let active := match active with
    | some active => clamp 0 ((available - 1 : ℕ) : K) active
    | none => 0
  if count ≤ 1 ∨ available ≤ 1 then 0
  else active / ((available - 1 : ℕ) : K) * ((count - 1 : ℕ) : K)

def depthScaleOf (style : RenderSettings K) : K :=
  match style.depthScale with
  | some scale => clamp 0.1 4.0 scale
  | none => 1

def fadeOf (style : RenderSettings K) : K :=
  match style.depthFade with
  | some fade => clamp 0 0.9 fade
  | none => terrainDepthFade

def totalDepth (params : WavetableMeshParams K) (style : RenderSettings K) : K :=
  max (params.thickness * depthScaleOf style) epsilon

def fromTable (sqrt : K → K) (table : List K) (frameLen : ℕ) (active : Option K) (maxFrames frameWidth : ℕ)
    (params : WavetableMeshParams K) (style : RenderSettings K) : Except MeshError (WavetableMesh K) :=
  if table.isEmpty || frameLen = 0 then .error .waveformTooShort
  else
    let columns := tableColumns frameWidth
    let available := table.length / frameLen
    if available = 0 then .error .waveformTooShort
    else
      let count := tableCount available maxFrames
      let activeSlot := tableSlot available count active
      let lineWidth := sanitizeWidth style.lineWidth
      let total := totalDepth params style
      let rows := (List.range count).map (tableRow table frameLen available count activeSlot (fadeOf style) total)
      let t := rows.foldl (pushRow sqrt style.mesh columns params lineWidth) Terrain.new
      let mesh :=
        if style.mesh = .solid ∧ t.grid ≠ [] then
          pushTerrainSolid sqrt t.mesh t.grid (columnX columns params) t.zrows t.rowShades lineWidth
        else t.mesh
      if mesh.vertices.isEmpty then .error .empty else .ok mesh

def fromWaveform (waveform : List K) (frameWidth : ℕ) (params : WavetableMeshParams K) :
    Except MeshError (WavetableMesh K) :=
  if waveform.isEmpty then .error .waveformTooShort
  else
    .ok (pushRibbon { vertices := [], indices := [] } waveform (max frameWidth 2) params 0 params.thickness activeShade)

def fromActiveLine (sqrt : K → K) (frame : List K) (frameWidth : ℕ) (params : WavetableMeshParams K)
    (style : RenderSettings K) : Except MeshError (WavetableMesh K) :=
  if frame.isEmpty then .error .waveformTooShort
  else
    let mesh := pushTerrainLine sqrt { vertices := [], indices := [] } frame (tableColumns frameWidth) params 0
      (sanitizeWidth style.lineWidth2d) activeShade
    if mesh.vertices.isEmpty then .error .empty else .ok mesh

end HikaruOpenLive.Render
