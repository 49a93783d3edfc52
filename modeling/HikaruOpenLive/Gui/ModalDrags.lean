import HikaruOpenLive.Foundations.Gestures
import Mathlib.Algebra.Group.Prod
import Mathlib.Tactic.Abel

/-! # Drags of the modal windows

A modal window is dragged by its title bar. It follows the pointer by the way from the last known point, since
the window toolkit dispatches a move more than once; a release may be dispatched more than once too. So a
window is moved by the way from where it was grabbed to the last point, and one that was closed opens where it
began.
-/
set_option autoImplicit false

namespace HikaruOpenLive.Gui

open Foundations.Gestures

/-! ## Data -/

inductive ModalId where
  | about
  | audioSettings
  | pluginSettings
  | mcpPortSettings
  | controlPanel
deriving DecidableEq

variable {K : Type} [AddCommGroup K] [DecidableEq K]

structure ModalDrag (K : Type) where
  offset : K × K
  dragging : Bool
  pointer : K × K

namespace ModalDrag

def default : ModalDrag K :=
  { offset := 0, dragging := false, pointer := 0 }

omit [AddCommGroup K] [DecidableEq K] in
def begin (drag : ModalDrag K) (point : K × K) : ModalDrag K :=
  { drag with dragging := true, pointer := point }

def dragTo (drag : ModalDrag K) (point : K × K) : ModalDrag K :=
  if drag.dragging = false then drag
  else if drag.pointer = point then drag
  else { drag with offset := drag.offset + (point - drag.pointer), pointer := point }

def release (drag : ModalDrag K) : ModalDrag K :=
  { drag with dragging := false }

end ModalDrag

structure ModalDrags (K : Type) where
  about : ModalDrag K
  audioSettings : ModalDrag K
  pluginSettings : ModalDrag K
  mcpPortSettings : ModalDrag K
  controlPanel : ModalDrag K

namespace ModalDrags

def default : ModalDrags K :=
  { about := .default
    audioSettings := .default
    pluginSettings := .default
    mcpPortSettings := .default
    controlPanel := .default }

def get (drags : ModalDrags K) : ModalId → ModalDrag K
  | .about => drags.about
  | .audioSettings => drags.audioSettings
  | .pluginSettings => drags.pluginSettings
  | .mcpPortSettings => drags.mcpPortSettings
  | .controlPanel => drags.controlPanel

def update (drags : ModalDrags K) (id : ModalId) (f : ModalDrag K → ModalDrag K) : ModalDrags K :=
  match id with
  | .about => { drags with about := f drags.about }
  | .audioSettings => { drags with audioSettings := f drags.audioSettings }
  | .pluginSettings => { drags with pluginSettings := f drags.pluginSettings }
  | .mcpPortSettings => { drags with mcpPortSettings := f drags.mcpPortSettings }
  | .controlPanel => { drags with controlPanel := f drags.controlPanel }

/-- The first window that is dragged, in the order of the record. -/
def draggingId (drags : ModalDrags K) : Option ModalId :=
  [.about, .audioSettings, .pluginSettings, .mcpPortSettings, .controlPanel].find? fun id => (drags.get id).dragging

def beginDrag (drags : ModalDrags K) (id : ModalId) (point : K × K) : ModalDrags K :=
  drags.update id fun drag => drag.begin point

def dragMove (drags : ModalDrags K) (point : K × K) : ModalDrags K :=
  match drags.draggingId with
  | some id => drags.update id fun drag => drag.dragTo point
  | none => drags

def endDrag (drags : ModalDrags K) : ModalDrags K :=
  match drags.draggingId with
  | some id => drags.update id ModalDrag.release
  | none => drags

def reset (drags : ModalDrags K) (id : ModalId) : ModalDrags K :=
  drags.update id fun _ => .default

end ModalDrags

/-! ## Events and gestures -/

inductive ModalEvent (K : Type) where
  | pressed (id : ModalId) (point : K × K)
  | moved (point : K × K)
  | released
  | closed (id : ModalId)

def ModalDrags.handle (drags : ModalDrags K) : ModalEvent K → ModalDrags K
  | .pressed id point => drags.beginDrag id point
  | .moved point => drags.dragMove point
  | .released => drags.endDrag
  | .closed id => drags.reset id

/-- What the hand does: a drag with its moves and how often its release was dispatched again, the closing of a
window, or a move with nothing held. -/
inductive ModalGesture (K : Type) where
  | drag (id : ModalId) (grab : K × K) (moves : List (K × K)) (again : ℕ)
  | close (id : ModalId)
  | roam (point : K × K)

namespace ModalGesture

def events : ModalGesture K → List (ModalEvent K)
  | .drag id grab moves again =>
    .pressed id grab :: (moves.map ModalEvent.moved ++ .released :: List.replicate again .released)
  | .close id => [.closed id]
  | .roam point => [.moved point]

/-- Where the windows are after a gesture. -/
def place (offsets : ModalId → K × K) : ModalGesture K → ModalId → K × K
  | .drag id grab moves _ => fun other =>
    if other = id then offsets id + (moves.getLast?.getD grab - grab) else offsets other
  | .close id => fun other => if other = id then 0 else offsets other
  | .roam _ => offsets

end ModalGesture

namespace ModalDrags

variable {drags : ModalDrags K}

/-! ## One window held, or none -/

omit [AddCommGroup K] [DecidableEq K] in
theorem get_update (drags : ModalDrags K) (id other : ModalId) (f : ModalDrag K → ModalDrag K) :
    (drags.update id f).get other = if other = id then f (drags.get id) else drags.get other := by
  cases id <;> cases other <;> rfl

def Free (drags : ModalDrags K) : Prop :=
  ∀ other, (drags.get other).dragging = false

def Only (drags : ModalDrags K) (id : ModalId) : Prop :=
  ∀ other, (drags.get other).dragging = decide (other = id)

omit [AddCommGroup K] [DecidableEq K] in
theorem Free.draggingId (h : drags.Free) : drags.draggingId = none := by
  have hdragging : (fun id => (drags.get id).dragging) = fun _ => false := funext h
  unfold ModalDrags.draggingId
  rw [hdragging]
  rfl

omit [AddCommGroup K] [DecidableEq K] in
theorem Only.draggingId {id : ModalId} (h : drags.Only id) : drags.draggingId = some id := by
  have hdragging : (fun other => (drags.get other).dragging) = fun other => decide (other = id) := funext h
  unfold ModalDrags.draggingId
  rw [hdragging]
  cases id <;> rfl

omit [AddCommGroup K] [DecidableEq K] in
theorem Free.only_beginDrag (h : drags.Free) (id : ModalId) (point : K × K) : (drags.beginDrag id point).Only id := by
  intro other
  rw [beginDrag, get_update]
  split
  case isTrue heq => rw [heq, decide_eq_true rfl]; rfl
  case isFalse hne => rw [h other, decide_eq_false hne]

omit [AddCommGroup K] [DecidableEq K] in
theorem Only.free_endDrag {id : ModalId} (h : drags.Only id) : drags.endDrag.Free := by
  intro other
  rw [endDrag, h.draggingId]
  show ((drags.update id ModalDrag.release).get other).dragging = false
  rw [get_update]
  split
  case isTrue => rfl
  case isFalse hne => rw [h other, decide_eq_false hne]

omit [AddCommGroup K] [DecidableEq K] in
theorem offset_endDrag (drags : ModalDrags K) (other : ModalId) :
    (drags.endDrag.get other).offset = (drags.get other).offset := by
  unfold endDrag
  split
  case h_1 id _ =>
    rw [get_update]
    split
    case isTrue heq => rw [heq]; rfl
    case isFalse => rfl
  case h_2 => rfl

theorem Free.endDrags (h : drags.Free) (again : ℕ) :
    (List.replicate again (ModalEvent.released (K := K))).foldl handle drags = drags := by
  induction again with
  | zero => rfl
  | succ again ih =>
    have hnone : drags.handle .released = drags := by
      show drags.endDrag = drags
      rw [endDrag, h.draggingId]
    rw [List.replicate_succ, List.foldl_cons, hnone, ih]

/-! ## A drag -/

theorem offset_dragTo {drag : ModalDrag K} (h : drag.dragging = true) (point : K × K) :
    (drag.dragTo point).offset - point = drag.offset - drag.pointer ∧ (drag.dragTo point).pointer = point ∧
      (drag.dragTo point).dragging = true := by
  unfold ModalDrag.dragTo
  rw [if_neg (by rw [h]; exact Bool.noConfusion)]
  split
  case isTrue heq => exact ⟨by rw [heq], heq, h⟩
  case isFalse => exact ⟨by show drag.offset + (point - drag.pointer) - point = _; abel, rfl, h⟩

/-- A window is held that was grabbed at a point when the windows were `start`. -/
def Held (start : ModalDrags K) (id : ModalId) (grab : K × K) (drags : ModalDrags K) : Prop :=
  drags.Only id ∧ (drags.get id).offset - (drags.get id).pointer = (start.get id).offset - grab ∧
    ∀ other, other ≠ id → (drags.get other).offset = (start.get other).offset

def offsets (drags : ModalDrags K) (id : ModalId) : K × K :=
  (drags.get id).offset

/-- Where the windows are when one that is held is at a point. -/
def follows (start : ModalDrags K) (id : ModalId) (grab point : K × K) (other : ModalId) : K × K :=
  if other = id then start.offsets id + (point - grab) else start.offsets other

omit [DecidableEq K] in
theorem Free.held_beginDrag (h : drags.Free) (id : ModalId) (grab : K × K) :
    drags.Held id grab (drags.beginDrag id grab) ∧ (drags.beginDrag id grab).offsets = drags.offsets := by
  refine ⟨⟨h.only_beginDrag id grab, ?_, fun other hne => ?_⟩, funext fun other => ?_⟩
  · rw [beginDrag, get_update, if_pos rfl]
    rfl
  · rw [beginDrag, get_update, if_neg hne]
  · rw [offsets, beginDrag, get_update]
    split
    case isTrue heq => rw [heq]; rfl
    case isFalse => rfl

theorem Held.dragMove {start : ModalDrags K} {id : ModalId} {grab : K × K} (h : start.Held id grab drags)
    (point : K × K) :
    start.Held id grab (drags.dragMove point) ∧ (drags.dragMove point).offsets = start.follows id grab point := by
  obtain ⟨honly, hheld, hrest⟩ := h
  have hmove : drags.dragMove point = drags.update id fun drag => drag.dragTo point := by
    rw [ModalDrags.dragMove, honly.draggingId]
  have hdragging : (drags.get id).dragging = true := (honly id).trans (decide_eq_true rfl)
  obtain ⟨hnew, hpointer, hkept⟩ := offset_dragTo hdragging point
  rw [hmove]
  refine ⟨⟨fun other => ?_, ?_, fun other hne => ?_⟩, funext fun other => ?_⟩
  · rw [get_update]
    split
    case isTrue heq => rw [hkept, heq, decide_eq_true rfl]
    case isFalse => exact honly other
  · rw [get_update, if_pos rfl, hpointer, hnew, hheld]
  · rw [get_update, if_neg hne, hrest other hne]
  · rw [offsets, get_update, follows]
    split
    case isTrue =>
      calc ((drags.get id).dragTo point).offset = (start.get id).offset - grab + point :=
            eq_add_of_sub_eq (hnew.trans hheld)
        _ = start.offsets id + (point - grab) := by rw [offsets]; abel
    case isFalse hne => exact hrest other hne

def point : ModalEvent K → Option (K × K)
  | .moved point => some point
  | _ => none

omit [AddCommGroup K] [DecidableEq K] in
theorem lastPoint_moved (moves : List (K × K)) : lastPoint point (moves.map ModalEvent.moved) = moves.getLast? := by
  unfold lastPoint
  rw [List.filterMap_map]
  exact congrArg List.getLast? List.filterMap_some

/-! ## Sessions -/

theorem Free.gesture (h : drags.Free) (gesture : ModalGesture K) :
    (gesture.events.foldl handle drags).Free ∧
      (gesture.events.foldl handle drags).offsets = gesture.place drags.offsets := by
  cases gesture with
  | drag id grab moves again =>
    obtain ⟨hheld, hpressed⟩ := h.held_beginDrag id grab
    have hstep : ∀ t : ModalDrags K, ∀ e ∈ moves.map ModalEvent.moved, drags.Held id grab t →
        drags.Held id grab (t.handle e) ∧ (t.handle e).offsets = (point e).elim t.offsets (drags.follows id grab) := by
      intro t e he ht
      obtain ⟨p, -, rfl⟩ := List.mem_map.mp he
      exact ht.dragMove p
    obtain ⟨⟨honly, -, -⟩, hlast⟩ := foldl_lastPoint hstep hheld
    rw [lastPoint_moved, hpressed] at hlast
    unfold ModalGesture.events
    rw [List.foldl_cons, List.foldl_append, List.foldl_cons]
    have hfree := honly.free_endDrag
    have hrest := hfree.endDrags again
    refine ⟨(congrArg Free hrest).mpr hfree, (congrArg offsets hrest).trans ?_⟩
    have hreleased : ((moves.map ModalEvent.moved).foldl handle (drags.beginDrag id grab)).endDrag.offsets =
        ((moves.map ModalEvent.moved).foldl handle (drags.beginDrag id grab)).offsets := funext (offset_endDrag _)
    rw [hreleased, hlast]
    unfold ModalGesture.place
    dsimp only
    cases moves.getLast? with
    | none =>
      funext other
      rw [Option.elim_none, Option.getD_none, sub_self, add_zero]
      split
      case isTrue heq => rw [heq]
      case isFalse => rfl
    | some p => rfl
  | close id =>
    refine ⟨fun other => ?_, funext fun other => ?_⟩
    · show ((drags.update id fun _ => .default).get other).dragging = false
      rw [get_update]
      split
      case isTrue => rfl
      case isFalse => exact h other
    · show ((drags.update id fun _ => .default).get other).offset = _
      rw [get_update]
      unfold ModalGesture.place
      dsimp only
      split
      case isTrue => rfl
      case isFalse => rfl
  | roam p =>
    have hnone : drags.handle (.moved p) = drags := by
      show drags.dragMove p = drags
      rw [ModalDrags.dragMove, h.draggingId]
    show (drags.handle (.moved p)).Free ∧ (drags.handle (.moved p)).offsets = drags.offsets
    rw [hnone]
    exact ⟨h, rfl⟩

theorem Free.gestures (h : drags.Free) (gestures : List (ModalGesture K)) :
    ((gestures.flatMap ModalGesture.events).foldl handle drags).Free ∧
      ((gestures.flatMap ModalGesture.events).foldl handle drags).offsets =
        gestures.foldl ModalGesture.place drags.offsets := by
  induction gestures generalizing drags with
  | nil => exact ⟨h, rfl⟩
  | cons gesture gestures ih =>
    obtain ⟨hfree, hoffsets⟩ := h.gesture gesture
    rw [List.flatMap_cons, List.foldl_append, List.foldl_cons, ← hoffsets]
    exact ih hfree

/-- However often each move and each release is dispatched, a session leaves no window held and each window moved
from where it opened by the ways of its drags. -/
theorem modal_sessions (gestures : List (ModalGesture K)) :
    let drags := (gestures.flatMap ModalGesture.events).foldl handle (.default : ModalDrags K)
    drags.Free ∧ drags.offsets = gestures.foldl ModalGesture.place fun _ => 0 := by
  intro drags
  have hfree : (.default : ModalDrags K).Free := fun other => by cases other <;> rfl
  have hzero : (.default : ModalDrags K).offsets = fun _ => 0 := funext fun other => by cases other <;> rfl
  rw [← hzero]
  exact hfree.gestures gestures

end ModalDrags

end HikaruOpenLive.Gui
