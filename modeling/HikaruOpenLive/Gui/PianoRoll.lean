import HikaruOpenLive.Gui.MatrixGrid

/-! # The piano roll and the clip it edits

The piano roll has a copy of the notes of the selected clip. Every frame the copy is filled from the clip
and then, with the panel open, written back into it; a click on the grid adds a note to the copy.

`along_landed_iff` says over which clicks and frames a note that was added reaches its clip: the frame
after the click fills the copy first.
-/
set_option autoImplicit false

namespace HikaruOpenLive.Gui

open Foundations.Grid Foundations.Runs

/-! ## The notes of a clip -/

def MatrixClip.midiNotes? (clip : MatrixClip) : Option (List MidiNote) :=
  match clip.content with
  | .audio _ _ => none
  | .midi notes => some notes

def MatrixClip.setMidiNotes (notes : List MidiNote) (clip : MatrixClip) : MatrixClip :=
  match clip.content with
  | .audio _ _ => clip
  | .midi _ => { clip with content := .midi notes }

def MatrixSlot.setMidiNotes (notes : List MidiNote) (slot : MatrixSlot) : MatrixSlot :=
  { slot with clip := slot.clip.map (MatrixClip.setMidiNotes notes) }

def SessionMatrixState.midiNotes? (m : SessionMatrixState) (slot : ℕ × ℕ) : Option (List MidiNote) :=
  (m.clip? slot.1 slot.2).bind MatrixClip.midiNotes?

/-- The notes of the clip in a slot, none where there is no MIDI clip. -/
def SessionMatrixState.notesAt (m : SessionMatrixState) (slot : ℕ × ℕ) : List MidiNote :=
  (m.midiNotes? slot).getD []

/-- Durations are `u32`. -/
def SessionMatrixState.DurationsFit (m : SessionMatrixState) : Prop :=
  ∀ slot, ∀ note ∈ m.notesAt slot, note.2.2.2 < 2 ^ 32

theorem MatrixClip.setMidiNotes_eq_self {clip : MatrixClip} {notes : List MidiNote}
    (h : ∀ own, clip.midiNotes? = some own → own = notes) : clip.setMidiNotes notes = clip := by
  rw [MatrixClip.setMidiNotes]
  split
  case h_1 => rfl
  case h_2 own hown =>
    have hsame : own = notes := h own (by rw [MatrixClip.midiNotes?, hown])
    rw [← hsame, ← hown]

/-- Notes written over themselves, or where there is no MIDI clip, change nothing. -/
theorem SessionMatrixState.modifySlot_setMidiNotes {m : SessionMatrixState} {slot : ℕ × ℕ}
    {notes : List MidiNote} (h : ∀ own, m.midiNotes? slot = some own → own = notes) :
    m.modifySlot slot.1 slot.2 (MatrixSlot.setMidiNotes notes) = m := by
  have hgrid : modifyCell m.grid slot.1 slot.2 (MatrixSlot.setMidiNotes notes) = m.grid := by
    refine modifyCell_eq_self fun cell hcell => ?_
    have hslot : m.slot? slot.1 slot.2 = some cell := hcell
    cases hclip : cell.clip with
    | none => rw [MatrixSlot.setMidiNotes, hclip, Option.map_none, ← hclip]
    | some clip =>
      have hown : m.midiNotes? slot = clip.midiNotes? := by
        rw [midiNotes?, clip?, hslot, Option.bind_some, hclip, Option.bind_some]
      rw [MatrixSlot.setMidiNotes, hclip, Option.map_some,
        MatrixClip.setMidiNotes_eq_self fun own h' => h own (hown.trans h'), ← hclip]
  rw [modifySlot, ← modifyCell, hgrid]

namespace PianoRoll

structure MidiNote where
  pitch : ℕ
  startTick : ℕ
  durationTicks : ℕ
  velocity : ℕ
deriving DecidableEq

def quantizeTicks : ℕ := 240

def noteInsertVelocity : ℕ := 100

def midiKeyCount : ℕ := 128

def sidebarWidth : ℚ := 140

def rulerHeight : ℚ := 24

/-- The zoom and the scroll of the grid. -/
structure GridView where
  zoomX : ℚ
  keyHeight : ℚ
  offsetX : ℚ
  offsetY : ℚ

def quantizeTick (tick step : ℕ) : ℕ :=
  if step = 0 then tick else tick / step * step

/-- `as u64` and `as i32` of a number that is not negative: rounded down, and at most the largest. -/
def truncate (largest : ℕ) (q : ℚ) : ℕ := min ⌊q⌋.toNat largest

/-- The tick and the pitch under a point of the window, `none` on the ruler and the keys. -/
def cellAt (view : GridView) (x y : ℚ) : Option (ℕ × ℕ) :=
  let localX := x - view.offsetX - sidebarWidth
  let localY := y - view.offsetY - rulerHeight
  if localX < 0 ∨ localY < 0 then none
  else
    let rawTick := truncate (2 ^ 64 - 1) (max (localX / view.zoomX) 0)
    let row := truncate (2 ^ 31 - 1) (max (localY / view.keyHeight) 0)
    -- the subtraction stops at pitch 0, as `clamp` does
    some (quantizeTick rawTick quantizeTicks, midiKeyCount - 1 - row)

def MidiNote.covers (pitch tick : ℕ) (n : MidiNote) : Bool :=
  n.pitch == pitch && decide (n.startTick ≤ tick) &&
    decide (tick < min (n.startTick + n.durationTicks) (2 ^ 64 - 1))

/-- A click on the grid: the notes after it, and the note that it added. -/
def gridClick (notes : List MidiNote) (view : GridView) (x y : ℚ) :
    List MidiNote × Option MidiNote :=
  match cellAt view x y with
  | none => (notes, none)
  | some (tick, pitch) =>
    if notes.any (MidiNote.covers pitch tick) then (notes, none)
    else
      let note : MidiNote :=
        { pitch := pitch, startTick := tick, durationTicks := quantizeTicks
          velocity := noteInsertVelocity }
      (notes ++ [note], some note)

/-- A note of a clip in the piano roll. -/
def fromClip (note : Gui.MidiNote) : MidiNote :=
  { pitch := note.2.1, startTick := note.1, durationTicks := note.2.2.2, velocity := note.2.2.1 }

/-- The note as a clip has it. -/
def MidiNote.asClip (n : MidiNote) : Gui.MidiNote :=
  (n.startTick, n.pitch, n.velocity, n.durationTicks)

/-- A note of the piano roll written into a clip, the duration `as u32`. -/
def MidiNote.toClip (n : MidiNote) : Gui.MidiNote :=
  (n.startTick, n.pitch, n.velocity, n.durationTicks % 2 ^ 32)

theorem toClip_fromClip {note : Gui.MidiNote} (h : note.2.2.2 < 2 ^ 32) :
    (fromClip note).toClip = note := by
  rw [fromClip, MidiNote.toClip, Nat.mod_eq_of_lt h]

theorem map_toClip_fromClip {notes : List Gui.MidiNote} (h : ∀ note ∈ notes, note.2.2.2 < 2 ^ 32) :
    (notes.map fromClip).map MidiNote.toClip = notes := by
  calc (notes.map fromClip).map MidiNote.toClip
      = notes.map fun note => (fromClip note).toClip := List.map_map
    _ = notes.map id := List.map_congr_left fun note hnote => toClip_fromClip (h note hnote)
    _ = notes := List.map_id notes

end PianoRoll

/-! ## Clicks, selections and frames -/

/-- What the clicks and frames work on. `pending` is no part of the application: it has the notes added
since the last frame, each with the slot of the MIDI clip that was selected. -/
structure PianoRollSession where
  matrix : SessionMatrixState
  showPianoRoll : Bool
  notes : List PianoRoll.MidiNote
  notesSourceSlot : Option (ℕ × ℕ)
  pending : List ((ℕ × ℕ) × PianoRoll.MidiNote)

inductive PianoRollAction where
  | click (view : PianoRoll.GridView) (x y : ℚ)
  | select (slot : ℕ × ℕ)
  | frame

namespace PianoRollSession

open PianoRoll

/-- The selected slot and the notes of its clip, if it has a MIDI clip. -/
def selectedMidi (s : PianoRollSession) : Option ((ℕ × ℕ) × List Gui.MidiNote) :=
  s.matrix.selectedSlot.bind fun slot => (s.matrix.midiNotes? slot).map fun notes => (slot, notes)

def click (s : PianoRollSession) (view : GridView) (x y : ℚ) : PianoRollSession :=
  let clicked := gridClick s.notes view x y
  let added := s.selectedMidi.bind fun selected => clicked.2.map fun note => (selected.1, note)
  { s with notes := clicked.1, pending := s.pending ++ added.toList }

def select (s : PianoRollSession) (slot : ℕ × ℕ) : PianoRollSession :=
  { s with matrix := { s.matrix with selectedSlot := some slot } }

/-- The first half of `sync_frame`: the copy is filled from the clip. -/
def clipToEditor (s : PianoRollSession) : PianoRollSession :=
  match s.selectedMidi with
  | some (slot, notes) => { s with notes := notes.map fromClip, notesSourceSlot := some slot }
  | none => { s with notes := [], notesSourceSlot := none }

/-- The second half: with the panel open, the copy is written into the clip. -/
def editorToClip (s : PianoRollSession) : PianoRollSession :=
  match s.showPianoRoll, s.matrix.selectedSlot with
  | true, some slot =>
    { s with
      matrix := s.matrix.modifySlot slot.1 slot.2
        (MatrixSlot.setMidiNotes (s.notes.map PianoRoll.MidiNote.toClip)) }
  | _, _ => s

def syncFrame (s : PianoRollSession) : PianoRollSession := s.clipToEditor.editorToClip

def step (s : PianoRollSession) : PianoRollAction → PianoRollSession
  | .click view x y => s.click view x y
  | .select slot => s.select slot
  | .frame => { s.syncFrame with pending := [] }

/-! ### What a frame does to the clips -/

@[simp] theorem matrix_clipToEditor (s : PianoRollSession) : s.clipToEditor.matrix = s.matrix := by
  rw [clipToEditor]
  split
  · rfl
  · rfl

@[simp] theorem showPianoRoll_clipToEditor (s : PianoRollSession) :
    s.clipToEditor.showPianoRoll = s.showPianoRoll := by
  rw [clipToEditor]
  split
  · rfl
  · rfl

theorem notes_clipToEditor {s : PianoRollSession} {slot : ℕ × ℕ} {notes : List Gui.MidiNote}
    (hslot : s.matrix.selectedSlot = some slot) (hnotes : s.matrix.midiNotes? slot = some notes) :
    s.clipToEditor.notes = notes.map fromClip := by
  rw [clipToEditor, selectedMidi, hslot, Option.bind_some, hnotes]
  rfl

/-- The frame writes into the clip what it has just read from it. -/
theorem matrix_syncFrame {s : PianoRollSession} (h : s.matrix.DurationsFit) :
    s.syncFrame.matrix = s.matrix := by
  rw [syncFrame, editorToClip, matrix_clipToEditor, showPianoRoll_clipToEditor]
  split
  case h_2 => exact matrix_clipToEditor s
  case h_1 slot _ hslot =>
    refine SessionMatrixState.modifySlot_setMidiNotes fun own hown => ?_
    have hfit : ∀ note ∈ own, note.2.2.2 < 2 ^ 32 := by
      intro note hnote
      refine h slot note ?_
      rw [SessionMatrixState.notesAt, hown]
      exact hnote
    rw [notes_clipToEditor hslot hown, map_toClip_fromClip hfit]

theorem notesAt_step {s : PianoRollSession} (h : s.matrix.DurationsFit) (a : PianoRollAction)
    (slot : ℕ × ℕ) : (s.step a).matrix.notesAt slot = s.matrix.notesAt slot := by
  cases a with
  | click view x y => rfl
  | select slot => rfl
  | frame => exact congrArg (fun m => m.notesAt slot) (matrix_syncFrame h)

theorem durationsFit_step {s : PianoRollSession} (h : s.matrix.DurationsFit) (a : PianoRollAction) :
    (s.step a).matrix.DurationsFit := by
  intro slot note hnote
  rw [notesAt_step h] at hnote
  exact h slot note hnote

/-- No run of clicks, selections and frames changes the notes of a clip. -/
theorem notesAt_run {s : PianoRollSession} (h : s.matrix.DurationsFit)
    (actions : List PianoRollAction) (slot : ℕ × ℕ) :
    (actions.foldl step s).matrix.notesAt slot = s.matrix.notesAt slot := by
  induction actions generalizing s with
  | nil => rfl
  | cons a actions ih => rw [List.foldl_cons, ih (durationsFit_step h a), notesAt_step h]

/-! ### Which notes reach their clip -/

/-- At a frame every note added since the last one is in its clip, and no other note comes or goes. -/
structure Landed (s : PianoRollSession) (a : PianoRollAction) : Prop where
  landed : a = .frame → ∀ added ∈ s.pending, added.2.asClip ∈ (s.step a).matrix.notesAt added.1
  others : ∀ slot, (∀ added ∈ s.pending, added.1 ≠ slot) →
    (s.step a).matrix.notesAt slot = s.matrix.notesAt slot
  kept : ∀ slot, ∀ note ∈ s.matrix.notesAt slot, note ∈ (s.step a).matrix.notesAt slot

/-- The notes added since the last frame are in their clips. -/
def InClips (s : PianoRollSession) : Prop :=
  ∀ added ∈ s.pending, added.2.asClip ∈ s.matrix.notesAt added.1

/-- A click is off the grid or on a note of the copy, or no MIDI clip is selected, or the clip has the note
of the cell that is clicked on. -/
def AddsNothingNew (s : PianoRollSession) : PianoRollAction → Prop
  | .click view x y => ∀ tick pitch slot notes, cellAt view x y = some (tick, pitch) →
    s.selectedMidi = some (slot, notes) →
      s.notes.any (MidiNote.covers pitch tick) = true ∨
        (tick, pitch, noteInsertVelocity, quantizeTicks) ∈ notes
  | _ => True

/-- In a copy that was filled from the clip, a cell whose note the clip has is one with a note. -/
theorem covers_of_mem {notes : List Gui.MidiNote} {view : GridView} {x y : ℚ} {tick pitch : ℕ}
    (hcell : cellAt view x y = some (tick, pitch))
    (h : (tick, pitch, noteInsertVelocity, quantizeTicks) ∈ notes) :
    (notes.map fromClip).any (MidiNote.covers pitch tick) = true := by
  have htick : tick < 2 ^ 64 - 1 := by
    rw [cellAt] at hcell
    split at hcell
    case isTrue => cases hcell
    case isFalse =>
      simp only [Option.some.injEq, Prod.mk.injEq] at hcell
      rw [← hcell.1, quantizeTick, truncate, quantizeTicks, if_neg (by decide)]
      omega
  have hcovers : MidiNote.covers pitch tick ⟨pitch, tick, quantizeTicks, noteInsertVelocity⟩ = true := by
    simp only [MidiNote.covers, beq_self_eq_true, le_refl, decide_true, Bool.and_self, Bool.true_and]
    rw [decide_eq_true_iff, lt_min_iff, quantizeTicks]
    exact ⟨by omega, htick⟩
  exact List.any_eq_true.mpr ⟨_, List.mem_map_of_mem h, hcovers⟩

theorem landed_iff {s : PianoRollSession} {a : PianoRollAction} (h : s.matrix.DurationsFit) :
    Landed s a ↔ (a = .frame → s.InClips) := by
  constructor
  · intro hl ha added hadded
    rw [← notesAt_step h a]
    exact hl.landed ha added hadded
  · intro hh
    refine ⟨?_, fun slot _ => notesAt_step h a slot, ?_⟩
    · intro ha added hadded
      rw [notesAt_step h]
      exact hh ha added hadded
    · intro slot note hnote
      rw [notesAt_step h]
      exact hnote

theorem notesAt_selectedMidi {s : PianoRollSession} {slot : ℕ × ℕ} {notes : List Gui.MidiNote}
    (h : s.selectedMidi = some (slot, notes)) : s.matrix.notesAt slot = notes := by
  obtain ⟨slot', _, hmap⟩ := Option.bind_eq_some_iff.mp h
  obtain ⟨notes', hnotes, hpair⟩ := Option.map_eq_some_iff.mp hmap
  obtain ⟨rfl, rfl⟩ := Prod.mk.inj hpair
  rw [SessionMatrixState.notesAt, hnotes]
  rfl

theorem inClips_click_iff (s : PianoRollSession) (view : GridView) (x y : ℚ) :
    (s.click view x y).InClips ↔ s.InClips ∧ s.AddsNothingNew (.click view x y) := by
  have hpending : (s.click view x y).InClips ↔ s.InClips ∧
      ∀ selected, s.selectedMidi = some selected → ∀ note, (gridClick s.notes view x y).2 = some note →
        note.asClip ∈ s.matrix.notesAt selected.1 := by
    rw [InClips, click]
    simp only [List.forall_mem_append, Option.mem_toList, Option.bind_eq_some_iff, Option.map_eq_some_iff]
    refine and_congr_right fun _ => ⟨?_, ?_⟩
    · intro h selected hselected note hnote
      exact h (selected.1, note) ⟨selected, hselected, note, hnote, rfl⟩
    · rintro h added ⟨selected, hselected, note, hnote, rfl⟩
      exact h selected hselected note hnote
  rw [hpending]
  refine and_congr_right fun _ => ⟨?_, ?_⟩
  · intro h tick pitch slot notes hcell hselected
    by_cases hcovered : s.notes.any (MidiNote.covers pitch tick) = true
    · exact .inl hcovered
    · have hadded := h _ hselected ⟨pitch, tick, quantizeTicks, noteInsertVelocity⟩ (by
        simp only [gridClick, hcell, if_neg hcovered])
      rw [notesAt_selectedMidi hselected] at hadded
      exact .inr hadded
  · rintro h ⟨slot, notes⟩ hselected note hnote
    rw [gridClick] at hnote
    split at hnote
    case h_1 => cases hnote
    case h_2 tick pitch hcell =>
      split at hnote
      case isTrue => cases hnote
      case isFalse hfree =>
        rw [← Option.some.inj hnote, notesAt_selectedMidi hselected]
        exact (h tick pitch slot notes hcell hselected).resolve_left hfree

/-- Up to a frame, a run keeps what is added precisely when every click finds a note in its cell, or the
note it would add in the clip. -/
theorem along_landed_iff {s : PianoRollSession} (actions : List PianoRollAction)
    (h : s.matrix.DurationsFit) (hpending : s.pending = []) :
    Along step Landed s (actions ++ [.frame]) ↔ Along step AddsNothingNew s actions := by
  have hdue : Along step Landed s (actions ++ [.frame]) ↔
      Along step (fun s a => a = .frame → s.InClips) s (actions ++ [.frame]) :=
    along_iff_along (I := fun s => s.matrix.DurationsFit) (fun _ a hs _ => durationsFit_step hs a)
      (fun _ _ hs => landed_iff hs) h
  have hstart : s.InClips := by
    rw [InClips, hpending]
    exact fun _ hadded => (List.not_mem_nil hadded).elim
  have hclicks : Along step (fun s a => a = .frame → s.InClips) s (actions ++ [.frame]) ↔
      s.InClips ∧ Along step AddsNothingNew s actions := by
    refine along_due_iff (I := fun s => s.matrix.DurationsFit) (fun _ a hs => durationsFit_step hs a)
      ?_ ?_ h rfl
    · intro s a _ hframe
      cases a with
      | click view x y => exact inClips_click_iff s view x y
      | select slot => exact (and_iff_left trivial).symm
      | frame => exact absurd rfl hframe
    · rintro s a _ rfl
      exact ⟨fun _ hadded => (List.not_mem_nil hadded).elim, trivial⟩
  rw [hdue, hclicks, and_iff_right hstart]

/-- One pad with a MIDI clip of these notes, selected, and the panel open with no notes yet. -/
def onePad (notes : List Gui.MidiNote) : PianoRollSession :=
  { matrix :=
      { grid := [[⟨.stopped, some
          { id := 1, name := "Keys", path := "", content := .midi notes, loopStart := 0, loopEnd := 0
            loopEnabled := false, volume := 1, pan := 0, mute := false }⟩]]
        tracks := [⟨"MIDI 1", false, false, 3 / 4, 0⟩], scenes := [⟨"Scene 1"⟩], nextClipId := 2
        selectedSlot := some (0, 0) }
    showPianoRoll := true, notes := [], notesSourceSlot := none, pending := [] }

theorem durationsFit_onePad {notes : List Gui.MidiNote} (h : ∀ note ∈ notes, note.2.2.2 < 2 ^ 32) :
    (onePad notes).matrix.DurationsFit := by
  rintro ⟨track, scene⟩ note hnote
  cases track with
  | zero =>
    cases scene with
    | zero => exact h note hnote
    | succ scene => exact (List.not_mem_nil hnote).elim
  | succ track => exact (List.not_mem_nil hnote).elim

/-- The note clicked on is in the clip that was just selected. -/
theorem along_landed_onePad :
    Along step Landed (onePad [(0, 60, 100, 240)]) [.click ⟨1, 1, 0, 0⟩ 140 91, .frame] := by
  refine (along_landed_iff [.click ⟨1, 1, 0, 0⟩ 140 91] (durationsFit_onePad (by decide)) rfl).mpr ⟨?_, trivial⟩
  intro tick pitch slot notes hcell hselected
  have hcell' : cellAt ⟨1, 1, 0, 0⟩ 140 91 = some (0, 60) := by decide +kernel
  have hselected' : (onePad [(0, 60, 100, 240)]).selectedMidi = some ((0, 0), [(0, 60, 100, 240)]) := rfl
  obtain ⟨rfl, rfl⟩ := Prod.mk.inj (Option.some.inj (hcell.symm.trans hcell'))
  obtain ⟨rfl, rfl⟩ := Prod.mk.inj (Option.some.inj (hselected.symm.trans hselected'))
  exact .inr (by decide)

/-- A click in an empty clip: the next frame empties the copy again. -/
theorem not_along_landed :
    ¬ ∀ (s : PianoRollSession) (actions : List PianoRollAction), s.matrix.DurationsFit → s.pending = [] →
      Along step Landed s actions := by
  intro h
  have hframe := (h (onePad []) [.click ⟨1, 1, 0, 0⟩ 140 91, .frame]
    (durationsFit_onePad (by decide)) rfl).2.1
  have hlost := hframe.landed rfl ((0, 0), ⟨60, 0, 240, 100⟩) (by decide +kernel)
  exact absurd hlost (by decide +kernel)

end PianoRollSession

end HikaruOpenLive.Gui
