import Mathlib.Data.List.Sort
import Mathlib.Data.Rat.Defs

/-! # The clip timeline of the sequencer

Embedding of `ClipAudioEvent` and `ClipAudioTimeline` (`crates/hikaru_sequencer/src/clip.rs`). Frames
and ids are `u64` in the source and `ℕ` here: as long as no sum passes `2^64` the saturating and the
plain additions of the source are both the addition of `ℕ`. Gains are exact rationals.

A `Vec` is a list; `sort_by_key` is stable, and so is `List.insertionSort`.
-/
set_option autoImplicit false

namespace HikaruOpenLive.Sequencer

structure ClipAudioEvent where
  id : ℕ
  sourceId : ℕ
  clipStart : ℕ
  sourceOffset : ℕ
  length : ℕ
  gain : ℚ
  fadeIn : ℕ
  fadeOut : ℕ
deriving DecidableEq, Repr

namespace ClipAudioEvent

def new (id clipStart sourceOffset length : ℕ) : ClipAudioEvent :=
  { id := id, sourceId := 0, clipStart := clipStart, sourceOffset := sourceOffset, length := length,
    gain := 1, fadeIn := 0, fadeOut := 0 }

/-- `end()` of the source. -/
def stop (e : ClipAudioEvent) : ℕ := e.clipStart + e.length

def containsClipFrame (e : ClipAudioEvent) (frame : ℕ) : Bool :=
  decide (e.clipStart ≤ frame) && decide (frame < e.stop)

def gainAt (e : ClipAudioEvent) (clipFrame : ℕ) : ℚ :=
  if e.containsClipFrame clipFrame = false then 0
  else
    let rel := clipFrame - e.clipStart
    let g := if 0 < e.fadeIn ∧ rel < e.fadeIn then e.gain * ((rel : ℚ) / e.fadeIn) else e.gain
    let fromEnd := e.stop - clipFrame
    if 0 < e.fadeOut ∧ fromEnd < e.fadeOut then g * ((fromEnd : ℚ) / e.fadeOut) else g

/-- Splits the event at a position of the clip's timeline; `none` when the cut falls outside. -/
def splitAt (e : ClipAudioEvent) (atFrame newId : ℕ) : Option (ClipAudioEvent × ClipAudioEvent) :=
  if atFrame ≤ e.clipStart ∨ e.stop ≤ atFrame then none
  else
    let leftLen := atFrame - e.clipStart
    let rightLen := e.stop - atFrame
    some ({ e with length := leftLen, fadeOut := 0 },
      { id := newId, sourceId := e.sourceId, clipStart := atFrame,
        sourceOffset := e.sourceOffset + leftLen, length := rightLen, gain := e.gain,
        fadeIn := 0, fadeOut := e.fadeOut })

/-- The sort key `(clip_start, id)`, compared lexicographically. -/
def KeyLE (a b : ClipAudioEvent) : Prop :=
  a.clipStart < b.clipStart ∨ (a.clipStart = b.clipStart ∧ a.id ≤ b.id)

instance : DecidableRel KeyLE := fun a b => by unfold KeyLE; infer_instance

def StartLE (a b : ClipAudioEvent) : Prop := a.clipStart ≤ b.clipStart

instance : DecidableRel StartLE := fun a b => by unfold StartLE; infer_instance

instance : Std.Total KeyLE := ⟨fun a b => by unfold KeyLE; omega⟩

instance : IsTrans ClipAudioEvent KeyLE := ⟨fun a b c => by unfold KeyLE; omega⟩

def cutLeft (e : ClipAudioEvent) (start : ℕ) : ClipAudioEvent :=
  { e with length := start - e.clipStart, fadeOut := 0 }

/-- The removed part of an event, re-based to 0 so that it can be pasted. -/
def cutMid (e : ClipAudioEvent) (start stop : ℕ) : ClipAudioEvent :=
  let cutStart := max e.clipStart start
  let cutEnd := min e.stop stop
  { e with sourceOffset := e.sourceOffset + (cutStart - e.clipStart), length := cutEnd - cutStart,
           clipStart := cutStart - start }

def cutRight (e : ClipAudioEvent) (start stop : ℕ) : ClipAudioEvent :=
  { e with sourceOffset := e.sourceOffset + (stop - e.clipStart), length := e.stop - stop,
           clipStart := start }

/-- The body of the loop of `cut_range`: the pieces of an event that are kept, and the removed. -/
def cutPieces (e : ClipAudioEvent) (start stop : ℕ) : List ClipAudioEvent × List ClipAudioEvent :=
  if e.stop ≤ start ∨ stop ≤ e.clipStart then ([e], [])
  else
    ((if e.clipStart < start then [e.cutLeft start] else []) ++
      (if stop < e.stop then [e.cutRight start stop] else []), [e.cutMid start stop])

/-- The gap-closing pass of `cut_range` on one kept event. -/
def closeGap (e : ClipAudioEvent) (start stop : ℕ) : ClipAudioEvent :=
  if stop ≤ e.clipStart then { e with clipStart := e.clipStart - (stop - start) }
  else if start ≤ e.clipStart ∧ e.clipStart < stop then
    { e with clipStart := min start e.clipStart }
  else e

end ClipAudioEvent

structure ClipAudioTimeline where
  events : List ClipAudioEvent
  nextId : ℕ
deriving DecidableEq, Repr

namespace ClipAudioTimeline

def empty : ClipAudioTimeline := ⟨[], 0⟩

def singleFull (sourceLen : ℕ) : ClipAudioTimeline := ⟨[ClipAudioEvent.new 1 0 0 sourceLen], 2⟩

def totalFrames (tl : ClipAudioTimeline) : ℕ := (tl.events.map ClipAudioEvent.stop).foldr max 0

def allocId (nextId : ℕ) : ℕ × ℕ := (max nextId 1, max nextId 1 + 1)

def sort (evs : List ClipAudioEvent) : List ClipAudioEvent := evs.insertionSort ClipAudioEvent.KeyLE

theorem sort_perm (evs : List ClipAudioEvent) : (sort evs).Perm evs := List.perm_insertionSort _ _

theorem sort_sorted (evs : List ClipAudioEvent) : (sort evs).Pairwise ClipAudioEvent.KeyLE :=
  List.pairwise_insertionSort _ _

def addEvent (tl : ClipAudioTimeline) (ev : ClipAudioEvent) : ClipAudioTimeline :=
  if ev.id = 0 then
    ⟨sort (tl.events ++ [{ ev with id := (allocId tl.nextId).1 }]), (allocId tl.nextId).2⟩
  else ⟨sort (tl.events ++ [ev]), max tl.nextId (ev.id + 1)⟩

def removeEvent (tl : ClipAudioTimeline) (id : ℕ) : ClipAudioTimeline × Option ClipAudioEvent :=
  ({ tl with events := tl.events.eraseP (fun e => e.id == id) },
    tl.events.find? (fun e => e.id == id))

/-- Splits the first event that contains the frame; returns the two ids. -/
def splitAt (tl : ClipAudioTimeline) (atFrame : ℕ) : ClipAudioTimeline × Option (ℕ × ℕ) :=
  match tl.events.findIdx? (fun e => e.containsClipFrame atFrame) with
  | none => (tl, none)
  | some idx =>
    match tl.events[idx]? with
    | none => (tl, none)
    | some ev =>
      if ev.clipStart = atFrame then (tl, none)
      else
        let newId := (allocId tl.nextId).1
        match ev.splitAt atFrame newId with
        | none => ({ tl with nextId := (allocId tl.nextId).2 }, none)
        | some (l, r) =>
          (⟨sort (tl.events.set idx l ++ [r]), (allocId tl.nextId).2⟩, some (l.id, newId))

/-- Cuts `[start, stop)` out of the timeline; returns what is left and the removed fragments. -/
def cutRange (tl : ClipAudioTimeline) (start stop : ℕ) : ClipAudioTimeline × List ClipAudioEvent :=
  if stop ≤ start then (tl, [])
  else
    let kept := tl.events.flatMap (fun e => (e.cutPieces start stop).1)
    let removed := tl.events.flatMap (fun e => (e.cutPieces start stop).2)
    ({ tl with events := sort (kept.map (fun e => e.closeGap start stop)) }, removed)

def pasteLen (fragments : List ClipAudioEvent) : ℕ :=
  (fragments.map (fun e => e.clipStart + e.length)).foldr max 0

/-- The loop of `paste_insert` over the events already there: those at or after the insertion point
move right; a host event that reaches past it is split under a fresh id and its right half is
collected. The host itself stays in place as it is. -/
def openGap (atFrame len : ℕ) :
    ℕ → List ClipAudioEvent → List ClipAudioEvent × List ClipAudioEvent × ℕ
  | next, [] => ([], [], next)
  | next, e :: es =>
    if atFrame ≤ e.clipStart then
      let rest := openGap atFrame len next es
      ({ e with clipStart := e.clipStart + len } :: rest.1, rest.2.1, rest.2.2)
    else if atFrame < e.stop then
      let rest := openGap atFrame len (next + 1) es
      match e.splitAt atFrame next with
      | none => (e :: rest.1, rest.2.1, rest.2.2)
      | some (_, right) =>
        (e :: rest.1, { right with clipStart := right.clipStart + len } :: rest.2.1, rest.2.2)
    else
      let rest := openGap atFrame len next es
      (e :: rest.1, rest.2.1, rest.2.2)

def placeFragments (atFrame : ℕ) : ℕ → List ClipAudioEvent → List ClipAudioEvent × ℕ
  | next, [] => ([], next)
  | next, f :: fs =>
    let rest := placeFragments atFrame (allocId next).2 fs
    ({ f with id := (allocId next).1, clipStart := f.clipStart + atFrame } :: rest.1, rest.2)

/-- Pastes fragments (re-based to 0) at a frame, moving what is there to the right. Returns the ids
of the pasted events. -/
def pasteInsert (tl : ClipAudioTimeline) (atFrame : ℕ) (fragments : List ClipAudioEvent) :
    ClipAudioTimeline × List ℕ :=
  if fragments.isEmpty then (tl, [])
  else
    let fragments := fragments.insertionSort ClipAudioEvent.StartLE
    let opened := openGap atFrame (pasteLen fragments) (max tl.nextId 1) tl.events
    let placed := placeFragments atFrame opened.2.2 fragments
    (⟨sort (opened.1 ++ opened.2.1 ++ placed.1), placed.2⟩, placed.1.map ClipAudioEvent.id)

def renderMono (tl : ClipAudioTimeline) (source : List ℚ) : List ℚ :=
  tl.events.foldl (fun out e => out.mapIdx (fun dst x =>
    if e.containsClipFrame dst then
      x + source.getD (e.sourceOffset + (dst - e.clipStart)) 0 * e.gainAt dst
    else x)) (List.replicate tl.totalFrames 0)

end ClipAudioTimeline

end HikaruOpenLive.Sequencer
