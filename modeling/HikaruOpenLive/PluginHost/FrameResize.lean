import HikaruOpenLive.Foundations.Runs
import HikaruOpenLive.PluginHost.FrameRegions

/-! # Resizing a plugin's window by its frame

A press on an edge starts a gesture, and every motion of the pointer until the release gives the window a
new size, counted from the start of the gesture, and a position, counted from `rootPos`, the last one the
window knows of. The server sets what `moveResize` asks for and answers with a notice, which waits behind
the events that are already in the queue; reading it brings size and `rootPos` up to the answer.

The two directions of the plane go the same way, so the sums come first, on one axis.
-/
set_option autoImplicit false

namespace HikaruOpenLive.PluginHost

open Foundations.Runs Foundations.Saturating

/-! ## One axis -/

/-- `saturating_sub` of `i16`s. -/
def subI16 (a b : ℤ) : ℤ :=
  within (-2 ^ 15) (2 ^ 15 - 1) (a - b)

/-- `-a` of an `i16`, which overflows for the first of them. -/
def negI16 (a : ℤ) : Option ℤ :=
  if a = -2 ^ 15 then none else some (-a)

theorem negI16_eq_some {a b : ℤ} (h : negI16 a = some b) : a ≠ -2 ^ 15 ∧ b = -a := by
  unfold negI16 at h
  split at h
  case isTrue => cases h
  case isFalse hne => exact ⟨hne, (Option.some.inj h).symm⟩

/-- The new size: `as u16` of a difference that is the minimum at least. -/
def draggedSize (startSize : ℕ) (delta : ℤ) (minimum : ℕ) : ℕ :=
  (max ((startSize : ℤ) - delta) minimum % 2 ^ 16).toNat

def draggedPos (rootPos delta d : ℤ) : ℤ :=
  if 0 < delta then addI16 rootPos d else rootPos

/-- Which side of the window the pointer holds on an axis: the left or upper one, the right or lower one. -/
inductive GrabbedSide where
  | near
  | far
  | neither
  deriving DecidableEq, Repr

/-- How the near side of the window changes when the pointer has moved by `d`. -/
def GrabbedSide.delta : GrabbedSide → ℤ → Option ℤ
  | .near, d => some d
  | .far, d => negI16 d
  | .neither, _ => some 0

/-- One axis of a gesture: the side, the minimum, and place and size at the start. -/
structure SideDrag where
  side : GrabbedSide
  minimum : ℕ
  pos : ℤ
  size : ℕ

namespace SideDrag

/-- The sides that are not held stay, and the one that is goes `d` along with the pointer, no nearer to the
other than the minimum. -/
def Follows (a : SideDrag) (d pos : ℤ) (size : ℕ) : Prop :=
  match a.side with
  | .near => pos = min (a.pos + d) (a.pos + a.size - a.minimum) ∧ pos + size = a.pos + a.size
  | .far => pos = a.pos ∧ pos + size = max (a.pos + a.size + d) (a.pos + a.minimum)
  | .neither => pos = a.pos ∧ size = a.size

/-- The size that follows the pointer. -/
def wanted (a : SideDrag) (d : ℤ) : ℤ :=
  match a.side with
  | .near => max (a.size - d) a.minimum
  | .far => max (a.size + d) a.minimum
  | .neither => a.size

/-- The place that follows the pointer. -/
def place (a : SideDrag) (d : ℤ) : ℤ :=
  match a.side with
  | .near => a.pos + a.size - a.wanted d
  | _ => a.pos

/-- The size is a `u16`, and the pointer's way an `i16`, unless the minimum ends it before. -/
def Countable (a : SideDrag) (d : ℤ) : Prop :=
  match a.side with
  | .near => (-2 ^ 15 ≤ d ∧ a.size - d < 2 ^ 16) ∧ (d < 2 ^ 15 ∨ a.size < a.minimum + 2 ^ 15)
  | .far => -2 ^ 15 < d ∧ d < 2 ^ 15 ∧ a.size + d < 2 ^ 16
  | .neither => True

/-- The near side goes inwards, no further than the minimum and from where the gesture has started, and the
far side outwards. A place at the end of the coordinates is right by saturation. -/
def Moves (a : SideDrag) (d rootPos : ℤ) : Prop :=
  match a.side with
  | .near =>
    (0 ≤ d ∧ rootPos = a.pos ∧ min d (2 ^ 15 - 1) ≤ a.size - a.minimum ∧
      a.pos + min d (2 ^ 15 - 1) < 2 ^ 15) ∨
    0 < d ∧ a.pos + min d (a.size - a.minimum) = 2 ^ 15 - 1
  | .far => 0 ≤ d ∨ a.pos = -2 ^ 15
  | .neither => True

structure Valid (a : SideDrag) : Prop where
  minimum_le : a.minimum ≤ a.size
  size_lt : a.size < 2 ^ 16
  pos_mem : -2 ^ 15 ≤ a.pos ∧ a.pos < 2 ^ 15

/-- What the window can know of its place during the gesture: it has only gone inwards. -/
def Known (a : SideDrag) (pos : ℤ) : Prop :=
  match a.side with
  | .near => a.pos ≤ pos
  | _ => pos = a.pos

variable {a : SideDrag} {d : ℤ}

theorem follows_iff (a : SideDrag) (d pos : ℤ) (size : ℕ) :
    a.Follows d pos size ↔ (size : ℤ) = a.wanted d ∧ pos = a.place d := by
  obtain ⟨side, minimum, start, startSize⟩ := a
  cases side with
  | near =>
    simp only [Follows, wanted, place]
    omega
  | far =>
    simp only [Follows, wanted, place]
    omega
  | neither =>
    simp only [Follows, wanted, place]
    omega

theorem place_congr {e : ℤ} (h : a.wanted d = a.wanted e) : a.place d = a.place e := by
  unfold place
  rw [h]

/-- The pointer's way as the window has it. -/
def way (d : ℤ) : ℤ :=
  within (-2 ^ 15) (2 ^ 15 - 1) d

theorem exists_delta (hd : a.Countable d) : ∃ delta, a.side.delta (way d) = some delta := by
  obtain ⟨side, minimum, start, startSize⟩ := a
  cases side with
  | near => exact ⟨_, rfl⟩
  | far =>
    obtain ⟨hlo, hhi, _⟩ := hd
    refine ⟨-way d, if_neg ?_⟩
    unfold way within
    omega
  | neither => exact ⟨_, rfl⟩

/-- The size comes out right precisely for the ways that can be counted. -/
theorem draggedSize_iff (h : a.Valid) {delta : ℤ} (hdelta : a.side.delta (way d) = some delta) :
    (draggedSize a.size delta a.minimum : ℤ) = a.wanted d ↔ a.Countable d := by
  obtain ⟨side, minimum, start, startSize⟩ := a
  obtain ⟨hmin, hsize, _⟩ := h
  simp only at hmin hsize
  cases side with
  | near =>
    obtain rfl := Option.some.inj hdelta
    simp only [draggedSize, wanted, Countable, way, within]
    omega
  | far =>
    obtain ⟨hfirst, rfl⟩ := negI16_eq_some hdelta
    simp only [way, within] at hfirst
    simp only [draggedSize, wanted, Countable, way, within]
    omega
  | neither =>
    obtain rfl := Option.some.inj hdelta
    simp only [draggedSize, wanted, Countable, iff_true]
    omega

/-- Of two ways to one size, the second of which can be counted, the first can, if it can be counted at
all. -/
theorem Countable.congr (h : a.Valid) {e : ℤ} (he : a.Countable e) (heq : a.wanted d = a.wanted e)
    {delta : ℤ} (hdelta : a.side.delta (way d) = some delta) : a.Countable d := by
  obtain ⟨side, minimum, start, startSize⟩ := a
  obtain ⟨hmin, hsize, _⟩ := h
  simp only at hmin hsize
  cases side with
  | near =>
    simp only [Countable, wanted] at he heq ⊢
    omega
  | far =>
    obtain ⟨hfirst, _⟩ := negI16_eq_some hdelta
    simp only [way, within] at hfirst
    simp only [Countable, wanted] at he heq ⊢
    omega
  | neither => trivial

/-- The place comes out right precisely for these moves. -/
theorem draggedPos_iff (h : a.Valid) (hd : a.Countable d) {rootPos delta : ℤ} (hroot : a.Known rootPos)
    (hdelta : a.side.delta (way d) = some delta) :
    draggedPos rootPos delta (way d) = a.place d ↔ a.Moves d rootPos := by
  obtain ⟨side, minimum, start, startSize⟩ := a
  obtain ⟨hmin, hsize, hpos⟩ := h
  simp only at hmin hsize hpos
  cases side with
  | near =>
    obtain rfl := Option.some.inj hdelta
    simp only [Known] at hroot
    simp only [Countable] at hd
    simp only [draggedPos, place, wanted, Moves]
    rcases lt_or_ge 0 d with hin | hout
    · have hway : 0 < way d := by
        unfold way within
        omega
      rw [if_pos hway]
      simp only [addI16, way, within]
      omega
    · have hway : ¬ 0 < way d := by
        unfold way within
        omega
      rw [if_neg hway]
      omega
  | far =>
    simp only [Known] at hroot
    simp only [Countable] at hd
    have hway : way d = d := within_of_mem (by omega) (by omega)
    obtain ⟨_, rfl⟩ := negI16_eq_some hdelta
    simp only [draggedPos, place, Moves, hway]
    rcases lt_or_ge d 0 with hin | hout
    · rw [if_pos (by omega)]
      simp only [addI16, within]
      omega
    · rw [if_neg (by omega)]
      exact ⟨fun _ => Or.inl hout, fun _ => hroot⟩
  | neither =>
    obtain rfl := Option.some.inj hdelta
    exact ⟨fun _ => trivial, fun _ => hroot⟩

theorem Moves.known (h : a.Valid) {rootPos : ℤ} (hmoves : a.Moves d rootPos) : a.Known (a.place d) := by
  obtain ⟨side, minimum, start, startSize⟩ := a
  obtain ⟨hmin, _, _⟩ := h
  simp only at hmin
  cases side with
  | near =>
    simp only [Moves] at hmoves
    simp only [Known, place, wanted]
    omega
  | far => rfl
  | neither => rfl

/-- At the start of the gesture. -/
theorem follows_zero (h : a.Valid) : a.Follows 0 a.pos a.size := by
  have hmin := h.minimum_le
  unfold Follows
  split
  · omega
  · omega
  · exact ⟨rfl, rfl⟩

theorem countable_zero (h : a.Valid) : a.Countable 0 := by
  have hsize := h.size_lt
  unfold Countable
  split
  · omega
  · omega
  · trivial

theorem known_pos (a : SideDrag) : a.Known a.pos := by
  unfold Known
  split
  · exact le_rfl
  · rfl

end SideDrag

/-! ## The window -/

def ResizeDir.dx : ResizeDir → ℤ → Option ℤ
  | .left, d | .topLeft, d | .bottomLeft, d => some d
  | .right, d | .topRight, d | .bottomRight, d => negI16 d
  | .top, _ | .bottom, _ => some 0

def ResizeDir.dy : ResizeDir → ℤ → Option ℤ
  | .top, d | .topLeft, d | .topRight, d => some d
  | .bottom, d | .bottomLeft, d | .bottomRight, d => negI16 d
  | .left, _ | .right, _ => some 0

def minFrameWidth : ℕ := 240

def minFrameHeight : ℕ := 180

structure FrameGeometry where
  x : ℤ
  y : ℤ
  size : FrameSize
  deriving DecidableEq

/-- The frame of the DAW's window, in coordinates of the root. -/
structure HostRect where
  x : ℤ
  y : ℤ
  width : ℕ
  height : ℕ

inductive FrameDrag where
  | move (origin : PointerPos) (windowOrigin : ℤ × ℤ)
  | resize (dir : ResizeDir) (startSize : FrameSize) (origin : PointerPos)

inductive FrameAction where
  | none
  | handled
  | close
  deriving DecidableEq, Repr

/-- The window. `geometry` is what the server has, `notices` are its answers that have not been read, and
`host` is what it says of the DAW's window, if there is one. -/
structure FrameWindow where
  frame : FrameMetrics
  host : Option HostRect
  size : FrameSize
  rootPos : ℤ × ℤ
  lastPointer : PointerPos
  drag : Option FrameDrag
  closeHot : Bool
  geometry : FrameGeometry
  notices : List FrameGeometry

theorem draggedSize_lt (startSize : ℕ) (delta : ℤ) (minimum : ℕ) :
    draggedSize startSize delta minimum < 2 ^ 16 := by
  unfold draggedSize
  omega

/-- `+` of `i16`s. -/
def checkedAddI16 (a b : ℤ) : Option ℤ :=
  if -2 ^ 15 ≤ a + b ∧ a + b < 2 ^ 15 then some (a + b) else none

namespace FrameWindow

/-- The server answers what changes the window. -/
def moveResize (v : FrameWindow) (x y : ℤ) (size : FrameSize) : FrameWindow :=
  let geometry : FrameGeometry := { x := x, y := y, size := size }
  { v with
    geometry := geometry
    notices := if geometry = v.geometry then v.notices else v.notices ++ [geometry] }

/-- Keeps the window within the DAW's. -/
def clampToHost (v : FrameWindow) (x y : ℤ) : Option (ℤ × ℤ) :=
  match v.host with
  | none => some (x, y)
  | some host =>
    (checkedAddI16 host.x (asI16 host.width)).bind fun right =>
      (checkedAddI16 host.y (asI16 host.height)).map fun bottom =>
        (within host.x (max (subI16 right (asI16 v.size.width)) host.x) x,
          within host.y (max (subI16 bottom (asI16 v.size.height)) host.y) y)

def moveTo (v : FrameWindow) (windowOrigin : ℤ × ℤ) (dx dy : ℤ) : Option FrameWindow :=
  (v.clampToHost (max (addI16 windowOrigin.1 dx) 0) (max (addI16 windowOrigin.2 dy) 0)).map fun pos =>
    if pos = v.rootPos then v else { v.moveResize pos.1 pos.2 v.size with rootPos := pos }

def minWidth (v : FrameWindow) : ℕ :=
  max v.frame.minSize.1 minFrameWidth

def minHeight (v : FrameWindow) : ℕ :=
  max v.frame.minSize.2 minFrameHeight

/-- Size and place for a change of the near sides; the window is asked for them if the size is a new one. -/
def resized (v : FrameWindow) (startSize : FrameSize) (dx dy deltaX deltaY : ℤ) : FrameWindow :=
  let size : FrameSize :=
    { width := draggedSize startSize.width deltaX v.minWidth
      height := draggedSize startSize.height deltaY v.minHeight
      width_lt := draggedSize_lt _ _ _
      height_lt := draggedSize_lt _ _ _ }
  if size = v.size then v
  else
    { v.moveResize (draggedPos v.rootPos.1 deltaX dx) (draggedPos v.rootPos.2 deltaY dy) size with
      size := size }

def resizeTo (v : FrameWindow) (dir : ResizeDir) (startSize : FrameSize) (dx dy : ℤ) :
    Option FrameWindow :=
  (dir.dx dx).bind fun deltaX => (dir.dy dy).map fun deltaY => v.resized startSize dx dy deltaX deltaY

def onMotion (v : FrameWindow) (root : PointerPos) : Option FrameWindow :=
  match v.drag with
  | some (.move origin windowOrigin) =>
    v.moveTo windowOrigin (subI16 root.x origin.x) (subI16 root.y origin.y)
  | some (.resize dir startSize origin) =>
    v.resizeTo dir startSize (subI16 root.x origin.x) (subI16 root.y origin.y)
  | none =>
    (v.frame.hitTest v.lastPointer v.size).map fun region =>
      { v with closeHot := region = .closeButton }

/-- A resize gesture begins. -/
def grabbed (v : FrameWindow) (dir : ResizeDir) (root : PointerPos) : FrameWindow :=
  { v with drag := some (.resize dir v.size root) }

def onButtonPress (v : FrameWindow) (p root : PointerPos) : Option (FrameAction × FrameWindow) :=
  (v.frame.hitTest p v.size).map fun region =>
    match region with
    | .inner => (.none, v)
    | .closeButton => (.close, v)
    | .titleBar => (.handled, { v with drag := some (.move root v.rootPos) })
    | .resize dir => (.handled, v.grabbed dir root)

/-- `ConfigureNotify`: the next answer of the server is read. -/
def onConfigureNotify (v : FrameWindow) : FrameWindow :=
  match v.notices with
  | [] => v
  | notice :: notices =>
    { v with
      notices := notices
      size := if 0 < notice.size.width ∧ 0 < notice.size.height then notice.size else v.size
      rootPos := (notice.x, notice.y) }

end FrameWindow

inductive ResizeEvent where
  | motion (root : PointerPos)
  | configured

/-- A gesture from the press on. `window` is nothing after an overflow; `pointer` is where it was last. -/
structure ResizeRun where
  window : Option FrameWindow
  pointer : PointerPos

namespace ResizeRun

def start (v : FrameWindow) (dir : ResizeDir) (root : PointerPos) : ResizeRun :=
  { window := some (v.grabbed dir root), pointer := root }

def step (s : ResizeRun) : ResizeEvent → ResizeRun
  | .motion root => { window := s.window.bind fun v => v.onMotion root, pointer := root }
  | .configured => { s with window := s.window.map FrameWindow.onConfigureNotify }

end ResizeRun

/-! ## What is asked of a gesture -/

def ResizeDir.horizontal : ResizeDir → GrabbedSide
  | .left | .topLeft | .bottomLeft => .near
  | .right | .topRight | .bottomRight => .far
  | .top | .bottom => .neither

def ResizeDir.vertical : ResizeDir → GrabbedSide
  | .top | .topLeft | .topRight => .near
  | .bottom | .bottomLeft | .bottomRight => .far
  | .left | .right => .neither

namespace FrameWindow

/-- A window at the press: what it knows of itself is what the server has, and it is no smaller than a
gesture can make it. -/
structure Ready (v : FrameWindow) : Prop where
  size : v.geometry.size = v.size
  rootPos : v.rootPos = (v.geometry.x, v.geometry.y)
  notices : v.notices = []
  x_mem : -2 ^ 15 ≤ v.geometry.x ∧ v.geometry.x < 2 ^ 15
  y_mem : -2 ^ 15 ≤ v.geometry.y ∧ v.geometry.y < 2 ^ 15
  width : v.minWidth ≤ v.size.width
  height : v.minHeight ≤ v.size.height

def horizontal (v : FrameWindow) (dir : ResizeDir) : SideDrag :=
  { side := dir.horizontal, minimum := v.minWidth, pos := v.geometry.x, size := v.size.width }

def vertical (v : FrameWindow) (dir : ResizeDir) : SideDrag :=
  { side := dir.vertical, minimum := v.minHeight, pos := v.geometry.y, size := v.size.height }

end FrameWindow

namespace ResizeRun

variable (v : FrameWindow) (dir : ResizeDir) (root : PointerPos)

/-- The server has the window where the gesture that began at `root` on the window `v` asks for it. -/
def Follows (s : ResizeRun) : Prop :=
  ∃ w, s.window = some w ∧
    (v.horizontal dir).Follows (s.pointer.x - root.x) w.geometry.x w.geometry.size.width ∧
    (v.vertical dir).Follows (s.pointer.y - root.y) w.geometry.y w.geometry.size.height

/-- The size is the one the window takes for its own, and the server's it is; or it is another one, and the
place comes out right, too. -/
def Keeps (w : FrameWindow) (dx dy : ℤ) : Prop :=
  ((v.horizontal dir).Countable dx ∧ (v.vertical dir).Countable dy) ∧
    if (w.size.width : ℤ) = (v.horizontal dir).wanted dx ∧ (w.size.height : ℤ) = (v.vertical dir).wanted dy
    then w.geometry.size = w.size
    else (v.horizontal dir).Moves dx w.rootPos.1 ∧ (v.vertical dir).Moves dy w.rootPos.2

def Followed (s : ResizeRun) : ResizeEvent → Prop
  | .motion p => ∀ w ∈ s.window, Keeps v dir w (p.x - root.x) (p.y - root.y)
  | .configured => True

/-! ## One motion -/

variable {v dir root} {w : FrameWindow}

theorem dx_eq (d : ℤ) : dir.dx d = dir.horizontal.delta d := by
  cases dir <;> rfl

theorem dy_eq (d : ℤ) : dir.dy d = dir.vertical.delta d := by
  cases dir <;> rfl

theorem valid_horizontal (h : v.Ready) : (v.horizontal dir).Valid :=
  ⟨h.width, v.size.width_lt, h.x_mem⟩

theorem valid_vertical (h : v.Ready) : (v.vertical dir).Valid :=
  ⟨h.height, v.size.height_lt, h.y_mem⟩

/-- A place the window may think it has. -/
def KnownPos (v : FrameWindow) (dir : ResizeDir) (x y : ℤ) : Prop :=
  (v.horizontal dir).Known x ∧ (v.vertical dir).Known y

/-- What a motion that follows the pointer keeps of the window. -/
structure Dragged (v : FrameWindow) (dir : ResizeDir) (root : PointerPos) (w : FrameWindow) : Prop where
  frame : w.frame = v.frame
  drag : w.drag = some (.resize dir v.size root)
  rootPos : KnownPos v dir w.rootPos.1 w.rootPos.2
  geometry : KnownPos v dir w.geometry.x w.geometry.y
  notices : ∀ notice ∈ w.notices, KnownPos v dir notice.x notice.y

theorem onMotion_eq (h : Dragged v dir root w) (p : PointerPos) :
    w.onMotion p =
      w.resizeTo dir v.size (SideDrag.way (p.x - root.x)) (SideDrag.way (p.y - root.y)) := by
  unfold FrameWindow.onMotion
  rw [h.drag]
  rfl

theorem resizeTo_eq_some {dx dy : ℤ} {w' : FrameWindow} :
    w.resizeTo dir v.size dx dy = some w' ↔
      ∃ deltaX deltaY, dir.horizontal.delta dx = some deltaX ∧ dir.vertical.delta dy = some deltaY ∧
        w.resized v.size dx dy deltaX deltaY = w' := by
  unfold FrameWindow.resizeTo
  rw [dx_eq, dy_eq, Option.bind_eq_some_iff]
  constructor
  · rintro ⟨deltaX, hX, hmap⟩
    obtain ⟨deltaY, hY, heq⟩ := Option.map_eq_some_iff.mp hmap
    exact ⟨deltaX, deltaY, hX, hY, heq⟩
  · rintro ⟨deltaX, deltaY, hX, hY, heq⟩
    exact ⟨deltaX, hX, Option.map_eq_some_iff.mpr ⟨deltaY, hY, heq⟩⟩

/-- Either the size is the one the window has, or the window is where the place and the size put it. -/
theorem resized_cases (h : w.frame = v.frame) (dx dy deltaX deltaY : ℤ) :
    (w.size.width = draggedSize v.size.width deltaX v.minWidth ∧
        w.size.height = draggedSize v.size.height deltaY v.minHeight ∧
        w.resized v.size dx dy deltaX deltaY = w) ∨
      (¬ (w.size.width = draggedSize v.size.width deltaX v.minWidth ∧
          w.size.height = draggedSize v.size.height deltaY v.minHeight) ∧
        (w.resized v.size dx dy deltaX deltaY).geometry.x = draggedPos w.rootPos.1 deltaX dx ∧
        (w.resized v.size dx dy deltaX deltaY).geometry.y = draggedPos w.rootPos.2 deltaY dy ∧
        (w.resized v.size dx dy deltaX deltaY).geometry.size.width =
          draggedSize v.size.width deltaX v.minWidth ∧
        (w.resized v.size dx dy deltaX deltaY).geometry.size.height =
          draggedSize v.size.height deltaY v.minHeight) := by
  have hwidth : w.minWidth = v.minWidth := by rw [FrameWindow.minWidth, h, FrameWindow.minWidth]
  have hheight : w.minHeight = v.minHeight := by rw [FrameWindow.minHeight, h, FrameWindow.minHeight]
  rw [← hwidth, ← hheight, FrameWindow.resized]
  split
  case isTrue heq =>
    exact Or.inl ⟨(congrArg FrameSize.width heq).symm, (congrArg FrameSize.height heq).symm, rfl⟩
  case isFalse hne =>
    exact Or.inr ⟨fun heq => hne (FrameSize.ext heq.1.symm heq.2.symm), rfl, rfl, rfl, rfl⟩

theorem resized_keeps (dx dy deltaX deltaY : ℤ) {w' : FrameWindow}
    (h : w.resized v.size dx dy deltaX deltaY = w') :
    w'.frame = w.frame ∧ w'.drag = w.drag ∧ w'.rootPos = w.rootPos ∧
      ∀ notice ∈ w'.notices, notice ∈ w.notices ∨ notice = w'.geometry := by
  simp only [FrameWindow.resized] at h
  split at h
  case isTrue =>
    subst h
    exact ⟨rfl, rfl, rfl, fun _ hnotice => Or.inl hnotice⟩
  case isFalse =>
    subst h
    refine ⟨rfl, rfl, rfl, fun notice hnotice => ?_⟩
    simp only [FrameWindow.moveResize] at hnotice
    split at hnotice
    case isTrue => exact Or.inl hnotice
    case isFalse => exact (List.mem_append.mp hnotice).imp_right List.mem_singleton.mp

/-- The window is where the pointer at the ways `dx` and `dy` asks for it. -/
def FollowsAt (v : FrameWindow) (dir : ResizeDir) (dx dy : ℤ) (g : FrameGeometry) : Prop :=
  (v.horizontal dir).Follows dx g.x g.size.width ∧ (v.vertical dir).Follows dy g.y g.size.height

def CountableAt (v : FrameWindow) (dir : ResizeDir) (dx dy : ℤ) : Prop :=
  (v.horizontal dir).Countable dx ∧ (v.vertical dir).Countable dy

theorem followsAt_iff {dx dy : ℤ} {g : FrameGeometry} :
    FollowsAt v dir dx dy g ↔
      ((g.size.width : ℤ) = (v.horizontal dir).wanted dx ∧
        (g.size.height : ℤ) = (v.vertical dir).wanted dy) ∧
      g.x = (v.horizontal dir).place dx ∧ g.y = (v.vertical dir).place dy := by
  rw [FollowsAt, SideDrag.follows_iff, SideDrag.follows_iff]
  exact and_and_and_comm

section

variable {dx dy ex ey : ℤ} (h : v.Ready) (hw : Dragged v dir root w)

include h hw

/-- The window is moved right only for a way that can be counted. -/
theorem countableAt_of_followsAt (he : CountableAt v dir ex ey) (hfollows : FollowsAt v dir ex ey w.geometry)
    {deltaX deltaY : ℤ} (hX : dir.horizontal.delta (SideDrag.way dx) = some deltaX)
    (hY : dir.vertical.delta (SideDrag.way dy) = some deltaY)
    (hd : FollowsAt v dir dx dy
      (w.resized v.size (SideDrag.way dx) (SideDrag.way dy) deltaX deltaY).geometry) :
    CountableAt v dir dx dy := by
  have hsizes := (followsAt_iff.mp hd).1
  rcases resized_cases hw.frame (SideDrag.way dx) (SideDrag.way dy) deltaX deltaY with hsame | hnew
  · -- Nothing is asked for, so the ways `dx` and `ex` come to one size.
    obtain ⟨_, _, heq⟩ := hsame
    have hold := (followsAt_iff.mp hfollows).1
    rw [heq] at hsizes
    exact ⟨he.1.congr (valid_horizontal h) (hsizes.1.symm.trans hold.1) hX,
      he.2.congr (valid_vertical h) (hsizes.2.symm.trans hold.2) hY⟩
  · obtain ⟨_, _, _, hwidth, hheight⟩ := hnew
    rw [hwidth, hheight] at hsizes
    exact ⟨(SideDrag.draggedSize_iff (valid_horizontal h) hX).mp hsizes.1,
      (SideDrag.draggedSize_iff (valid_vertical h) hY).mp hsizes.2⟩

/-- For a way that can be counted: without a new size the window has to be right already, with one the
place has to come out right. -/
theorem followsAt_resized (hfollows : FollowsAt v dir ex ey w.geometry) (hd : CountableAt v dir dx dy)
    {deltaX deltaY : ℤ} (hX : dir.horizontal.delta (SideDrag.way dx) = some deltaX)
    (hY : dir.vertical.delta (SideDrag.way dy) = some deltaY) :
    FollowsAt v dir dx dy
        (w.resized v.size (SideDrag.way dx) (SideDrag.way dy) deltaX deltaY).geometry ↔
      Keeps v dir w dx dy := by
  have hwidth : (draggedSize v.size.width deltaX v.minWidth : ℤ) = (v.horizontal dir).wanted dx :=
    (SideDrag.draggedSize_iff (valid_horizontal h) hX).mpr hd.1
  have hheight : (draggedSize v.size.height deltaY v.minHeight : ℤ) = (v.vertical dir).wanted dy :=
    (SideDrag.draggedSize_iff (valid_vertical h) hY).mpr hd.2
  have hcached : (w.size.width = draggedSize v.size.width deltaX v.minWidth ∧
      w.size.height = draggedSize v.size.height deltaY v.minHeight) ↔
      (w.size.width : ℤ) = (v.horizontal dir).wanted dx ∧
        (w.size.height : ℤ) = (v.vertical dir).wanted dy := by
    rw [← hwidth, ← hheight, Int.natCast_inj, Int.natCast_inj]
  rw [followsAt_iff, Keeps]
  rcases resized_cases hw.frame (SideDrag.way dx) (SideDrag.way dy) deltaX deltaY with hsame | hnew
  · obtain ⟨hw₁, hh₁, heq⟩ := hsame
    have hsizes := hcached.mp ⟨hw₁, hh₁⟩
    rw [if_pos hsizes, heq]
    constructor
    · rintro ⟨⟨hw₂, hh₂⟩, _⟩
      refine ⟨hd, FrameSize.ext ?_ ?_⟩
      · exact_mod_cast hw₂.trans hsizes.1.symm
      · exact_mod_cast hh₂.trans hsizes.2.symm
    · rintro ⟨_, hsize⟩
      rw [hsize]
      -- The window is right for `ex` and `ey`, which come to the same size.
      obtain ⟨⟨hw₂, hh₂⟩, hx, hy⟩ := followsAt_iff.mp hfollows
      rw [hsize] at hw₂ hh₂
      refine ⟨hsizes, hx.trans ?_, hy.trans ?_⟩
      · exact SideDrag.place_congr (hw₂.symm.trans hsizes.1)
      · exact SideDrag.place_congr (hh₂.symm.trans hsizes.2)
  · obtain ⟨hne, hx, hy, hw₁, hh₁⟩ := hnew
    rw [if_neg fun hsizes => hne (hcached.mpr hsizes), hx, hy, hw₁, hh₁,
      SideDrag.draggedPos_iff (valid_horizontal h) hd.1 hw.rootPos.1 hX,
      SideDrag.draggedPos_iff (valid_vertical h) hd.2 hw.rootPos.2 hY]
    exact ⟨fun hall => ⟨hd, hall.2⟩, fun hall => ⟨⟨hwidth, hheight⟩, hall.2⟩⟩

/-- One motion of the pointer. -/
theorem exists_followsAt_iff (he : CountableAt v dir ex ey) (hfollows : FollowsAt v dir ex ey w.geometry) :
    (∃ w', w.resizeTo dir v.size (SideDrag.way dx) (SideDrag.way dy) = some w' ∧
      FollowsAt v dir dx dy w'.geometry) ↔ Keeps v dir w dx dy := by
  constructor
  · rintro ⟨w', hw', hd⟩
    obtain ⟨deltaX, deltaY, hX, hY, rfl⟩ := resizeTo_eq_some.mp hw'
    have hcount := countableAt_of_followsAt h hw he hfollows hX hY hd
    exact (followsAt_resized h hw hfollows hcount hX hY).mp hd
  · intro hkeeps
    obtain ⟨deltaX, hX⟩ := SideDrag.exists_delta hkeeps.1.1
    obtain ⟨deltaY, hY⟩ := SideDrag.exists_delta hkeeps.1.2
    exact ⟨_, resizeTo_eq_some.mpr ⟨deltaX, deltaY, hX, hY, rfl⟩,
      (followsAt_resized h hw hfollows hkeeps.1 hX hY).mpr hkeeps⟩

/-- What the motion leaves is a window of the gesture again. -/
theorem Dragged.resizeTo (hfollows : FollowsAt v dir ex ey w.geometry) (hkeeps : Keeps v dir w dx dy)
    {w' : FrameWindow}
    (hw' : w.resizeTo dir v.size (SideDrag.way dx) (SideDrag.way dy) = some w') :
    Dragged v dir root w' := by
  obtain ⟨deltaX, deltaY, hX, hY, heq⟩ := resizeTo_eq_some.mp hw'
  have hd := (followsAt_resized h hw hfollows hkeeps.1 hX hY).mpr hkeeps
  have hgeometry : KnownPos v dir w'.geometry.x w'.geometry.y := by
    rcases resized_cases hw.frame (SideDrag.way dx) (SideDrag.way dy) deltaX deltaY with hsame | hnew
    · rw [← heq, hsame.2.2]
      exact hw.geometry
    · obtain ⟨_, hx, hy, _, _⟩ := hnew
      obtain ⟨_, hplaceX, hplaceY⟩ := followsAt_iff.mp hd
      have hmovesX := (SideDrag.draggedPos_iff (valid_horizontal h) hkeeps.1.1 hw.rootPos.1 hX).mp
        (hx.symm.trans hplaceX)
      have hmovesY := (SideDrag.draggedPos_iff (valid_vertical h) hkeeps.1.2 hw.rootPos.2 hY).mp
        (hy.symm.trans hplaceY)
      rw [← heq, hplaceX, hplaceY]
      exact ⟨hmovesX.known (valid_horizontal h), hmovesY.known (valid_vertical h)⟩
  obtain ⟨hframe, hdrag, hrootPos, hnotices⟩ := resized_keeps _ _ _ _ heq
  refine ⟨hframe.trans hw.frame, hdrag.trans hw.drag, hrootPos ▸ hw.rootPos, hgeometry, ?_⟩
  intro notice hnotice
  rcases hnotices notice hnotice with hold | rfl
  · exact hw.notices notice hold
  · exact hgeometry

end

/-- The answers of the server name places the window has had. -/
theorem Dragged.onConfigureNotify (hw : Dragged v dir root w) :
    Dragged v dir root w.onConfigureNotify := by
  unfold FrameWindow.onConfigureNotify
  cases hnotices : w.notices with
  | nil => exact hw
  | cons notice notices =>
    have hall := hw.notices
    rw [hnotices] at hall
    exact ⟨hw.frame, hw.drag, hall notice List.mem_cons_self, hw.geometry,
      fun g hg => hall g (List.mem_cons_of_mem notice hg)⟩

theorem geometry_onConfigureNotify (w : FrameWindow) : w.onConfigureNotify.geometry = w.geometry := by
  unfold FrameWindow.onConfigureNotify
  cases w.notices <;> rfl

/-! ## Whole gestures -/

/-- A press on an edge begins the gesture. -/
theorem onButtonPress_resize {p : PointerPos} (h : v.frame.hitTest p v.size = some (.resize dir)) :
    v.onButtonPress p root = (start v dir root).window.map fun w => (.handled, w) := by
  rw [FrameWindow.onButtonPress, h]
  rfl

/-- What holds in every state of a gesture that has gone right so far. -/
structure Inv (v : FrameWindow) (dir : ResizeDir) (root : PointerPos) (s : ResizeRun) : Prop where
  window : ∀ w ∈ s.window, Dragged v dir root w
  countable : CountableAt v dir (s.pointer.x - root.x) (s.pointer.y - root.y)

theorem inv_start (h : v.Ready) : Inv v dir root (start v dir root) := by
  have hknown : KnownPos v dir v.geometry.x v.geometry.y := ⟨SideDrag.known_pos _, SideDrag.known_pos _⟩
  refine ⟨?_, ?_⟩
  · rintro w hw
    obtain rfl := Option.some.inj hw
    refine ⟨rfl, rfl, ?_, hknown, ?_⟩
    · show KnownPos v dir v.rootPos.1 v.rootPos.2
      rw [h.rootPos]
      exact hknown
    · intro notice hnotice
      rw [show (v.grabbed dir root).notices = [] from h.notices] at hnotice
      exact absurd hnotice List.not_mem_nil
  · show CountableAt v dir (root.x - root.x) (root.y - root.y)
    rw [Int.sub_self, Int.sub_self]
    exact ⟨SideDrag.countable_zero (valid_horizontal h), SideDrag.countable_zero (valid_vertical h)⟩

theorem follows_start (h : v.Ready) : Follows v dir root (start v dir root) := by
  refine ⟨_, rfl, ?_⟩
  show FollowsAt v dir (root.x - root.x) (root.y - root.y) v.geometry
  rw [FollowsAt, Int.sub_self, Int.sub_self, h.size]
  exact ⟨SideDrag.follows_zero (valid_horizontal h), SideDrag.follows_zero (valid_vertical h)⟩

theorem follows_step_iff (h : v.Ready) {s : ResizeRun} (hs : Inv v dir root s)
    (hfollows : Follows v dir root s) (e : ResizeEvent) :
    Follows v dir root (s.step e) ↔ Followed v dir root s e := by
  obtain ⟨w, hwindow, hat⟩ := hfollows
  have hw : Dragged v dir root w := hs.window w hwindow
  cases e with
  | motion p =>
    have hstep : (s.step (.motion p)).window =
        w.resizeTo dir v.size (SideDrag.way (p.x - root.x)) (SideDrag.way (p.y - root.y)) := by
      show (s.window.bind fun w => w.onMotion p) = _
      rw [hwindow, Option.bind_some, onMotion_eq hw]
    have hall : Followed v dir root s (.motion p) ↔ Keeps v dir w (p.x - root.x) (p.y - root.y) := by
      constructor
      · exact fun hfollowed => hfollowed w hwindow
      · intro hkeeps w' hw'
        rwa [← Option.some.inj (hwindow.symm.trans hw')]
    rw [hall, ← exists_followsAt_iff h hw hs.countable hat, Follows, hstep]
    rfl
  | configured =>
    refine iff_of_true ⟨w.onConfigureNotify, ?_, ?_⟩ trivial
    · show s.window.map FrameWindow.onConfigureNotify = _
      rw [hwindow, Option.map_some]
    · rw [geometry_onConfigureNotify]
      exact hat

theorem Inv.step (h : v.Ready) {s : ResizeRun} (hs : Inv v dir root s) (hfollows : Follows v dir root s)
    {e : ResizeEvent} (he : Followed v dir root s e) : Inv v dir root (s.step e) := by
  obtain ⟨w, hwindow, hat⟩ := hfollows
  have hw : Dragged v dir root w := hs.window w hwindow
  cases e with
  | motion p =>
    have hkeeps : Keeps v dir w (p.x - root.x) (p.y - root.y) := he w hwindow
    refine ⟨?_, hkeeps.1⟩
    intro w' hw'
    have hresize : w.onMotion p = some w' := by
      have hbind : (s.window.bind fun w => w.onMotion p) = some w' := hw'
      rwa [hwindow, Option.bind_some] at hbind
    rw [onMotion_eq hw] at hresize
    exact hw.resizeTo h hat hkeeps hresize
  | configured =>
    refine ⟨?_, hs.countable⟩
    intro w' hw'
    have hmap : s.window.map FrameWindow.onConfigureNotify = some w' := hw'
    rw [hwindow, Option.map_some] at hmap
    rw [← Option.some.inj hmap]
    exact hw.onConfigureNotify

/-- A gesture, with the answers of the server read whenever they come, goes right precisely if every motion
of it is one that keeps it right. -/
theorem always_follows_iff (h : v.Ready) (dir : ResizeDir) (root : PointerPos)
    (events : List ResizeEvent) :
    Always step (Follows v dir root) (start v dir root) events ↔
      Along step (Followed v dir root) (start v dir root) events :=
  always_iff_along_while (fun _ _ _ hs hfollows he => hs.step h hfollows he)
    (fun _ e _ hs hfollows => follows_step_iff h hs hfollows e) (inv_start h) (follows_start h) along_true

/-- A window of 900 by 600 with the usual frame, at (100, 100). -/
def plain : FrameWindow :=
  { frame := .default
    host := none
    size := { width := 900, height := 600 }
    rootPos := (100, 100)
    lastPointer := { x := 0, y := 0 }
    drag := none
    closeHot := false
    geometry := { x := 100, y := 100, size := { width := 900, height := 600 } }
    notices := [] }

theorem ready_plain : plain.Ready :=
  ⟨rfl, rfl, rfl, by decide, by decide, by decide, by decide⟩

/-- The right side goes out, and a notice comes between two motions. -/
theorem always_follows_iff_right :
    Always step (Follows plain .right { x := 999, y := 300 }) (start plain .right { x := 999, y := 300 })
        [.motion { x := 1009, y := 300 }, .configured, .motion { x := 1019, y := 300 }] ↔
      Along step (Followed plain .right { x := 999, y := 300 }) (start plain .right { x := 999, y := 300 })
        [.motion { x := 1009, y := 300 }, .configured, .motion { x := 1019, y := 300 }] :=
  always_follows_iff ready_plain .right { x := 999, y := 300 } _

/-- The left side goes out by ten pixels: the window grows, but stays at its place. The right side goes in by
ten pixels: the window goes along. -/
theorem left_side_stays :
    ¬ Always step (Follows plain .left { x := 101, y := 300 }) (start plain .left { x := 101, y := 300 })
        [.motion { x := 91, y := 300 }] ∧
      ¬ Always step (Follows plain .right { x := 999, y := 300 })
        (start plain .right { x := 999, y := 300 }) [.motion { x := 989, y := 300 }] := by
  constructor
  · intro h
    obtain ⟨w, hw, hX, _⟩ := h.final
    obtain rfl := Option.some.inj hw
    exact absurd hX.1 (by decide)
  · intro h
    obtain ⟨w, hw, hX, _⟩ := h.final
    obtain rfl := Option.some.inj hw
    exact absurd hX.1 (by decide)

end ResizeRun

end HikaruOpenLive.PluginHost
