import HikaruOpenLive.Gui.FrameSync

/-! # Dragging the loop in the ruler

The lower strip of the playlist's ruler holds the loop region: a press takes hold of an edge or of the whole
or makes a new region, a move of the pointer drags what is held, a double click switches the region. While
the whole is dragged, the preview fields hold the place and the length it was taken with.

The shortest region is a quarter note, and one step of the grid where that is more; the grid may change
during a drag. Ticks are far from the end of a `u64`.
-/
set_option autoImplicit false

namespace HikaruOpenLive.Gui

open Foundations.Runs

inductive LoopDragHandle where
  | none
  | left
  | right
  | body
deriving DecidableEq

/-- The pointer in the window, with the ruler's place, height and scroll. -/
structure RulerPoint where
  cursorX : ℚ
  cursorY : ℚ
  boundsX : ℚ
  boundsY : ℚ
  rulerH : ℚ
  scrollX : ℚ

def RulerPoint.localX (p : RulerPoint) : ℚ :=
  max (p.cursorX - p.boundsX - p.scrollX) 0

def RulerPoint.localY (p : RulerPoint) : ℚ :=
  p.cursorY - p.boundsY

def pxToTicks (px zoomX : ℚ) : ℕ :=
  ⌊max px 0 / max zoomX (1 / 10000)⌋₊

def ticksToPx (ticks : ℕ) (zoomX : ℚ) : ℚ :=
  ticks * zoomX

def ticksToSamplesPrecise (ticks ppqn : ℕ) (bpm : ℚ) (sampleRate : ℕ) : ℕ :=
  if bpm ≤ 0 ∨ sampleRate = 0 then 0
  else ⌊ticks * (60 / bpm / (max ppqn 1 : ℕ)) * sampleRate + 1 / 2⌋₊

namespace PlaylistState

def loopLengthTicks (s : PlaylistState) : ℕ :=
  s.loopEndTicks - s.loopStartTicks

def sanitizeLoopRegion (s : PlaylistState) : PlaylistState :=
  let stop := loopEnd s.loopStartTicks s.loopEndTicks (max s.ppqn 1)
  { s with
    loopEndTicks := stop
    loopRegionActive := s.loopRegionActive || decide (s.loopStartTicks < stop) }

end PlaylistState

/-- The playlist with its zoom and what the ruler remembers of a drag. -/
structure RulerState where
  playlist : PlaylistState
  zoomX : ℚ
  loopDragging : Bool
  loopPreviewStartTicks : ℕ
  loopPreviewEndTicks : ℕ
  loopDragHandle : LoopDragHandle
  loopDragCompletedThisFrame : Bool
deriving DecidableEq

inductive RulerInput where
  | mouseDown (p : RulerPoint) (clickCount : ℕ) (bpm : ℚ) (sampleRate : ℕ)
  | mouseMove (p : RulerPoint)
  | finishDrag
  | setGrid (gridDenominator : ℕ)
  | setZoom (zoomX : ℚ)
  | ensure (loopEnabled : Bool)

def RulerInput.IsPress : RulerInput → Prop
  | .mouseDown _ _ _ _ => True
  | .mouseMove _ | .finishDrag | .setGrid _ | .setZoom _ | .ensure _ => False

namespace RulerState

def ensureMinimumGlobalLoop (s : RulerState) (loopEnabled : Bool) : RulerState :=
  if !loopEnabled || s.loopDragging then s
  else if s.playlist.lacksRegion then
    let ppqn := max s.playlist.ppqn 1
    let stop := PlaylistState.loopEnd 0 (max s.playlist.totalProjectTicks (4 * ppqn)) ppqn
    if 0 < stop then
      { s with
        playlist := { s.playlist with
          loopStartTicks := 0, loopEndTicks := stop, loopRegionActive := true }
        loopPreviewStartTicks := 0
        loopPreviewEndTicks := stop
        loopDragCompletedThisFrame := true }
    else s
  else { s with playlist := s.playlist.sanitizeLoopRegion }

/-- A double click in the strip. -/
def toggleRegion (s : RulerState) : RulerState :=
  let active := !s.playlist.loopRegionActive
  let s := { s with playlist := { s.playlist with loopRegionActive := active } }
  let s := if active then s.ensureMinimumGlobalLoop true else s
  { s with loopDragging := false, loopDragHandle := .none }

/-- A press in the strip. -/
def grab (s : RulerState) (localX : ℚ) : RulerState :=
  let rawTick := pxToTicks localX s.zoomX
  let lx0 := ticksToPx s.playlist.loopStartTicks s.zoomX
  let lx1 := ticksToPx s.playlist.loopEndTicks s.zoomX
  if s.playlist.isLoopRegionValid ∧ |localX - lx0| ≤ 7 then
    { s with loopDragging := true, loopDragHandle := .left }
  else if s.playlist.isLoopRegionValid ∧ |localX - lx1| ≤ 7 then
    { s with loopDragging := true, loopDragHandle := .right }
  else if s.playlist.isLoopRegionValid ∧ lx0 < localX ∧ localX < lx1 then
    { s with
      loopDragging := true
      loopDragHandle := .body
      loopPreviewStartTicks := rawTick - s.playlist.loopStartTicks
      loopPreviewEndTicks := s.playlist.loopLengthTicks }
  else
    let snapped := snapTicks rawTick s.playlist.gridTicks
    { s with
      playlist := { s.playlist with
        loopStartTicks := snapped
        loopEndTicks := snapped + max s.playlist.gridTicks (max s.playlist.ppqn 1)
        loopRegionActive := true }
      loopDragging := true
      loopDragHandle := .right }

/-- A press above the strip moves the playhead. -/
def seek (s : RulerState) (localX bpm : ℚ) (sampleRate : ℕ) : RulerState × List PlaylistCommand :=
  let rawTick := pxToTicks localX s.zoomX
  ({ s with playlist := { s.playlist with playheadTick := rawTick } },
    [.seek (ticksToSamplesPrecise rawTick s.playlist.ppqn bpm sampleRate)])

def rulerMouseDown (s : RulerState) (p : RulerPoint) (clickCount : ℕ) (bpm : ℚ) (sampleRate : ℕ) :
    RulerState × List PlaylistCommand :=
  if p.rulerH - 9 ≤ p.localY then
    if 2 ≤ clickCount then (s.toggleRegion, []) else (s.grab p.localX, [])
  else s.seek p.localX bpm sampleRate

/-- The shortest region that a drag makes. -/
def minLength (s : RulerState) : ℕ :=
  max s.playlist.gridTicks (max s.playlist.ppqn 1)

def rulerMouseMove (s : RulerState) (p : RulerPoint) : RulerState :=
  if !s.loopDragging then s
  else
    let rawTick := pxToTicks p.localX s.zoomX
    let snapped := snapTicks rawTick s.playlist.gridTicks
    match s.loopDragHandle with
    | .left =>
      { s with playlist := { s.playlist with
          loopStartTicks := min snapped (s.playlist.loopEndTicks - s.minLength) } }
    | .right =>
      { s with playlist := { s.playlist with
          loopEndTicks := max snapped (s.playlist.loopStartTicks + s.minLength) } }
    | .body =>
      let newStart := snapTicks (rawTick - s.loopPreviewStartTicks) s.playlist.gridTicks
      { s with playlist := { s.playlist with
          loopStartTicks := newStart
          loopEndTicks := newStart + max s.loopPreviewEndTicks s.minLength } }
    | .none => s

def finishRulerDrag (s : RulerState) : RulerState :=
  if s.loopDragging then
    { s with loopDragging := false, loopDragHandle := .none, loopDragCompletedThisFrame := true }
  else s

def step (s : RulerState) : RulerInput → RulerState
  | .mouseDown p clickCount bpm sampleRate => (s.rulerMouseDown p clickCount bpm sampleRate).1
  | .mouseMove p => s.rulerMouseMove p
  | .finishDrag => s.finishRulerDrag
  | .setGrid gridDenominator =>
    { s with playlist := { s.playlist with gridDenominator := gridDenominator } }
  | .setZoom zoomX => { s with zoomX := zoomX }
  | .ensure loopEnabled => s.ensureMinimumGlobalLoop loopEnabled

def Holds (s : RulerState) (handle : LoopDragHandle) : Prop :=
  s.loopDragging = true ∧ s.loopDragHandle = handle

/-- An active region is a quarter note long, and there is one while it is dragged. -/
structure Sound (s : RulerState) : Prop where
  active : s.loopDragging = true → s.playlist.loopRegionActive = true
  long : s.playlist.loopRegionActive = true →
    s.playlist.loopStartTicks + max s.playlist.ppqn 1 ≤ s.playlist.loopEndTicks

end RulerState

/-! ## Ensuring a region -/

namespace PlaylistState

theorem sanitizeLoopRegion_of_region {s : PlaylistState} (h : s.lacksRegion = false) :
    s.sanitizeLoopRegion = s := by
  obtain ⟨hactive, hlen⟩ := (lacksRegion_eq_false s).mp h
  have hppqn : 0 < max s.ppqn 1 := by omega
  simp only [sanitizeLoopRegion, loopEnd_of_le hppqn hlen, hactive, Bool.true_or]
  rw [← hactive]

end PlaylistState

namespace RulerState

/-- The region over the whole playlist that is made where there is none. -/
def withWholeRegion (s : RulerState) : RulerState :=
  let stop := max s.playlist.totalProjectTicks (4 * max s.playlist.ppqn 1)
  { s with
    playlist := { s.playlist with loopStartTicks := 0, loopEndTicks := stop, loopRegionActive := true }
    loopPreviewStartTicks := 0
    loopPreviewEndTicks := stop
    loopDragCompletedThisFrame := true }

theorem ensure_of_lacks {s : RulerState} (hdragging : s.loopDragging = false)
    (h : s.playlist.lacksRegion = true) : s.ensureMinimumGlobalLoop true = s.withWholeRegion := by
  have hppqn : 0 < max s.playlist.ppqn 1 := by omega
  have hlen : max s.playlist.ppqn 1 ≤
      max s.playlist.totalProjectTicks (4 * max s.playlist.ppqn 1) - 0 := by omega
  have hpos : 0 < max s.playlist.totalProjectTicks (4 * max s.playlist.ppqn 1) := by omega
  have hgoes : ¬ (!true || s.loopDragging) = true := by
    rw [hdragging]
    exact Bool.false_ne_true
  unfold ensureMinimumGlobalLoop
  rw [if_neg hgoes, if_pos h]
  simp only [PlaylistState.loopEnd_of_le hppqn hlen, if_pos hpos]
  rfl

/-- Nothing is done without the loop, during a drag, or when there is a region. -/
theorem ensure_of_idle {s : RulerState} {loopEnabled : Bool}
    (h : loopEnabled = false ∨ s.loopDragging = true ∨ s.playlist.lacksRegion = false) :
    s.ensureMinimumGlobalLoop loopEnabled = s := by
  unfold ensureMinimumGlobalLoop
  split
  case isTrue => rfl
  case isFalse hgoes =>
    have hregion : s.playlist.lacksRegion = false := by
      rcases h with h | h | h
      · simp only [h, Bool.not_false, Bool.true_or, not_true_eq_false] at hgoes
      · simp only [h, Bool.or_true, not_true_eq_false] at hgoes
      · exact h
    rw [if_neg (by rw [hregion]; exact Bool.false_ne_true),
      PlaylistState.sanitizeLoopRegion_of_region hregion]

theorem ensure_eq (s : RulerState) (loopEnabled : Bool) :
    s.ensureMinimumGlobalLoop loopEnabled =
      if loopEnabled = true ∧ s.loopDragging = false ∧ s.playlist.lacksRegion = true then s.withWholeRegion
      else s := by
  split
  case isTrue h =>
    obtain ⟨rfl, hdragging, hlacks⟩ := h
    exact ensure_of_lacks hdragging hlacks
  case isFalse h =>
    refine ensure_of_idle ?_
    by_cases henabled : loopEnabled = true
    · by_cases hdragging : s.loopDragging = false
      · exact Or.inr (Or.inr (Bool.eq_false_iff.mpr fun hlacks => h ⟨henabled, hdragging, hlacks⟩))
      · exact Or.inr (Or.inl (Bool.eq_true_of_not_eq_false hdragging))
    · exact Or.inl (Bool.eq_false_iff.mpr henabled)

theorem lacksRegion_withWholeRegion (s : RulerState) : s.withWholeRegion.playlist.lacksRegion = false := by
  rw [PlaylistState.lacksRegion_eq_false]
  refine ⟨rfl, ?_⟩
  show max s.playlist.ppqn 1 ≤ max s.playlist.totalProjectTicks (4 * max s.playlist.ppqn 1) - 0
  omega

/-- A second call finds the region of the first. -/
theorem ensure_ensure (s : RulerState) {first second : Bool} (h : second = true → first = true) :
    (s.ensureMinimumGlobalLoop first).ensureMinimumGlobalLoop second = s.ensureMinimumGlobalLoop first := by
  rw [ensure_eq s first]
  split
  case isTrue => exact ensure_of_idle (Or.inr (Or.inr (lacksRegion_withWholeRegion s)))
  case isFalse hfirst =>
    rw [ensure_eq s second, if_neg]
    rintro ⟨hsecond, hrest⟩
    exact hfirst ⟨h hsecond, hrest⟩

/-! ## What a step keeps -/

theorem Sound.ensure {s : RulerState} (h : s.Sound) (loopEnabled : Bool) :
    (s.ensureMinimumGlobalLoop loopEnabled).Sound := by
  rw [ensure_eq]
  split
  case isTrue =>
    refine ⟨fun _ => rfl, fun _ => ?_⟩
    show 0 + max s.playlist.ppqn 1 ≤ max s.playlist.totalProjectTicks (4 * max s.playlist.ppqn 1)
    omega
  case isFalse => exact h

/-- A double click leaves no drag, and a region that it switches on is ensured, whatever it was before. -/
theorem Sound.toggleRegion {s : RulerState} (h : s.Sound) : s.toggleRegion.Sound := by
  refine ⟨fun hdragging => absurd hdragging Bool.false_ne_true, ?_⟩
  cases hactive : s.playlist.loopRegionActive with
  | true =>
    intro hnow
    have hoff : s.toggleRegion.playlist.loopRegionActive = false := by
      simp only [RulerState.toggleRegion, hactive, Bool.not_true, Bool.false_eq_true, if_false]
    exact absurd (hoff.symm.trans hnow) Bool.false_ne_true
  | false =>
    have hdragging : s.loopDragging = false := by
      rw [Bool.eq_false_iff]
      intro hdragging
      exact absurd (hactive.symm.trans (h.active hdragging)) Bool.false_ne_true
    set on : RulerState := { s with playlist := { s.playlist with loopRegionActive := true } } with hon
    have hplaylist : s.toggleRegion.playlist = (on.ensureMinimumGlobalLoop true).playlist := by
      simp only [RulerState.toggleRegion, hactive, Bool.not_false, if_true, ← hon]
    intro _
    rw [hplaylist, ensure_eq]
    split
    case isTrue =>
      show 0 + max s.playlist.ppqn 1 ≤ max s.playlist.totalProjectTicks (4 * max s.playlist.ppqn 1)
      omega
    case isFalse hregion =>
      have hlacks : on.playlist.lacksRegion = false := by
        rw [Bool.eq_false_iff]
        exact fun hlacks => hregion ⟨rfl, hdragging, hlacks⟩
      obtain ⟨_, hlen⟩ := (PlaylistState.lacksRegion_eq_false _).mp hlacks
      omega

theorem minLength_ge (s : RulerState) : max s.playlist.ppqn 1 ≤ s.minLength :=
  le_max_right _ _

theorem Sound.grab {s : RulerState} (h : s.Sound) (localX : ℚ) : (s.grab localX).Sound := by
  have hvalid (hregion : s.playlist.isLoopRegionValid = true) : s.playlist.loopRegionActive = true := by
    unfold PlaylistState.isLoopRegionValid at hregion
    exact (Bool.and_eq_true_iff.mp hregion).1
  unfold RulerState.grab
  dsimp only
  split
  case isTrue hleft => exact ⟨fun _ => hvalid hleft.1, h.long⟩
  case isFalse =>
    split
    case isTrue hright => exact ⟨fun _ => hvalid hright.1, h.long⟩
    case isFalse =>
      split
      case isTrue hbody => exact ⟨fun _ => hvalid hbody.1, h.long⟩
      case isFalse =>
        exact ⟨fun _ => rfl, fun _ => Nat.add_le_add_left (le_max_right _ _) _⟩

theorem Sound.mouseDown {s : RulerState} (h : s.Sound) (p : RulerPoint) (clickCount : ℕ) (bpm : ℚ)
    (sampleRate : ℕ) : (s.rulerMouseDown p clickCount bpm sampleRate).1.Sound := by
  unfold rulerMouseDown
  split
  case isTrue =>
    split
    case isTrue => exact h.toggleRegion
    case isFalse => exact h.grab p.localX
  case isFalse => exact ⟨h.active, h.long⟩

/-- What a move of the pointer makes of the region it drags. -/
theorem mouseMove_of_holds {s : RulerState} (h : s.loopDragging = true) (p : RulerPoint) :
    ∃ start stop, s.rulerMouseMove p =
        { s with playlist := { s.playlist with loopStartTicks := start, loopEndTicks := stop } } ∧
      (s.loopDragHandle = .left →
        start ≤ s.playlist.loopEndTicks - s.minLength ∧ stop = s.playlist.loopEndTicks) ∧
      (s.loopDragHandle = .right →
        start = s.playlist.loopStartTicks ∧ s.playlist.loopStartTicks + s.minLength ≤ stop) ∧
      (s.loopDragHandle = .body → stop = start + max s.loopPreviewEndTicks s.minLength) ∧
      (s.loopDragHandle = .none →
        start = s.playlist.loopStartTicks ∧ stop = s.playlist.loopEndTicks) := by
  unfold rulerMouseMove
  rw [if_neg (by rw [h]; exact Bool.false_ne_true)]
  cases hhandle : s.loopDragHandle with
  | left => exact ⟨_, _, rfl, fun _ => ⟨min_le_right _ _, rfl⟩, nofun, nofun, nofun⟩
  | right => exact ⟨_, _, rfl, nofun, fun _ => ⟨rfl, le_max_right _ _⟩, nofun, nofun⟩
  | body => exact ⟨_, _, rfl, nofun, nofun, fun _ => rfl, nofun⟩
  | none =>
    refine ⟨s.playlist.loopStartTicks, s.playlist.loopEndTicks, ?_, nofun, nofun, nofun,
      fun _ => ⟨rfl, rfl⟩⟩
    show s = _
    rw [← hhandle]

theorem mouseMove_of_idle {s : RulerState} (h : s.loopDragging = false) (p : RulerPoint) :
    s.rulerMouseMove p = s := by
  unfold rulerMouseMove
  rw [if_pos (by rw [h]; rfl)]

theorem Sound.mouseMove {s : RulerState} (h : s.Sound) (p : RulerPoint) : (s.rulerMouseMove p).Sound := by
  cases hdragging : s.loopDragging with
  | false => rwa [mouseMove_of_idle hdragging]
  | true =>
    obtain ⟨start, stop, hmove, hleft, hright, hbody, hnone⟩ := mouseMove_of_holds hdragging p
    rw [hmove]
    refine ⟨h.active, fun hactive => ?_⟩
    have hlong := h.long hactive
    have hmin := s.minLength_ge
    show start + max s.playlist.ppqn 1 ≤ stop
    cases hhandle : s.loopDragHandle with
    | left =>
      obtain ⟨hstart, hstop⟩ := hleft hhandle
      omega
    | right =>
      obtain ⟨hstart, hstop⟩ := hright hhandle
      omega
    | body =>
      have hstop := hbody hhandle
      omega
    | none =>
      obtain ⟨hstart, hstop⟩ := hnone hhandle
      omega

theorem Sound.step {s : RulerState} (h : s.Sound) (i : RulerInput) : (s.step i).Sound := by
  cases i with
  | mouseDown p clickCount bpm sampleRate => exact h.mouseDown p clickCount bpm sampleRate
  | mouseMove p => exact h.mouseMove p
  | finishDrag =>
    show s.finishRulerDrag.Sound
    unfold finishRulerDrag
    split
    case isTrue => exact ⟨nofun, h.long⟩
    case isFalse => exact h
  | setGrid gridDenominator => exact ⟨h.active, h.long⟩
  | setZoom zoomX => exact ⟨h.active, h.long⟩
  | ensure loopEnabled => exact h.ensure loopEnabled

/-! ## Runs -/

/-- Of the steps that are no press, only a move of the pointer changes a region that is being dragged. -/
theorem step_of_dragging {s : RulerState} (h : s.loopDragging = true) {i : RulerInput} (hi : ¬ i.IsPress)
    (hmove : ∀ p, i ≠ .mouseMove p) :
    (s.step i).playlist.loopStartTicks = s.playlist.loopStartTicks ∧
      (s.step i).playlist.loopEndTicks = s.playlist.loopEndTicks := by
  cases i with
  | mouseDown p clickCount bpm sampleRate => exact absurd trivial hi
  | mouseMove p => exact absurd rfl (hmove p)
  | finishDrag =>
    have hstep : s.step .finishDrag =
        { s with loopDragging := false, loopDragHandle := .none, loopDragCompletedThisFrame := true } :=
      if_pos h
    rw [hstep]
    exact ⟨rfl, rfl⟩
  | setGrid gridDenominator => exact ⟨rfl, rfl⟩
  | setZoom zoomX => exact ⟨rfl, rfl⟩
  | ensure loopEnabled =>
    have hstep : s.step (.ensure loopEnabled) = s := ensure_of_idle (Or.inr (Or.inl h))
    rw [hstep]
    exact ⟨rfl, rfl⟩

theorem left_step {s : RulerState} (h : s.Holds .left) {i : RulerInput} (hi : ¬ i.IsPress) :
    (s.step i).playlist.loopEndTicks = s.playlist.loopEndTicks := by
  by_cases hmove : ∃ p, i = .mouseMove p
  · obtain ⟨p, rfl⟩ := hmove
    obtain ⟨start, stop, hstep, hleft, _⟩ := mouseMove_of_holds h.1 p
    show (s.rulerMouseMove p).playlist.loopEndTicks = _
    rw [hstep]
    exact (hleft h.2).2
  · exact (step_of_dragging h.1 hi fun p hp => hmove ⟨p, hp⟩).2

theorem right_step {s : RulerState} (h : s.Holds .right) {i : RulerInput} (hi : ¬ i.IsPress) :
    (s.step i).playlist.loopStartTicks = s.playlist.loopStartTicks := by
  by_cases hmove : ∃ p, i = .mouseMove p
  · obtain ⟨p, rfl⟩ := hmove
    obtain ⟨start, stop, hstep, _, hright, _⟩ := mouseMove_of_holds h.1 p
    show (s.rulerMouseMove p).playlist.loopStartTicks = _
    rw [hstep]
    exact (hright h.2).1
  · exact (step_of_dragging h.1 hi fun p hp => hmove ⟨p, hp⟩).1

/-- What a move makes of the length of the whole. -/
theorem body_move {s : RulerState} (h : s.Holds .body) (p : RulerPoint) :
    (s.step (.mouseMove p)).playlist.loopLengthTicks = max s.loopPreviewEndTicks s.minLength := by
  obtain ⟨start, stop, hstep, _, _, hbody, _⟩ := mouseMove_of_holds h.1 p
  show (s.rulerMouseMove p).playlist.loopLengthTicks = _
  rw [hstep]
  show stop - start = _
  rw [hbody h.2, Nat.add_sub_cancel_left]

/-- A press that takes hold of the whole puts down its length. -/
theorem preview_of_press {s : RulerState} {p : RulerPoint} {clickCount : ℕ} {bpm : ℚ} {sampleRate : ℕ}
    (hstrip : p.rulerH - 9 ≤ p.localY)
    (h : (s.step (.mouseDown p clickCount bpm sampleRate)).Holds .body) :
    (s.step (.mouseDown p clickCount bpm sampleRate)).loopPreviewEndTicks = s.playlist.loopLengthTicks ∧
      (s.step (.mouseDown p clickCount bpm sampleRate)).playlist = s.playlist := by
  have hdown : s.step (.mouseDown p clickCount bpm sampleRate) =
      if 2 ≤ clickCount then s.toggleRegion else s.grab p.localX := by
    show (s.rulerMouseDown p clickCount bpm sampleRate).1 = _
    unfold rulerMouseDown
    rw [if_pos hstrip]
    split
    · rfl
    · rfl
  rw [hdown] at h ⊢
  split at h
  case isTrue => exact absurd h.1 Bool.false_ne_true
  case isFalse hclick =>
    rw [if_neg hclick]
    unfold grab at h ⊢
    dsimp only at h ⊢
    split at h
    case isTrue => exact absurd h.2 (by simp)
    case isFalse hleft =>
      rw [if_neg hleft]
      split at h
      case isTrue => exact absurd h.2 (by simp)
      case isFalse hright =>
        rw [if_neg hright]
        split at h
        case isTrue hbody =>
          rw [if_pos hbody]
          exact ⟨rfl, rfl⟩
        case isFalse => exact absurd h.2 (by simp)

/-- A drag goes on from the step before, with what was put down for it. -/
theorem dragging_before {s : RulerState} {i : RulerInput} (hi : ¬ i.IsPress)
    (h : (s.step i).loopDragging = true) :
    s.loopDragging = true ∧ (s.step i).loopPreviewEndTicks = s.loopPreviewEndTicks := by
  cases i with
  | mouseDown p clickCount bpm sampleRate => exact absurd trivial hi
  | mouseMove p =>
    have hstep : s.step (.mouseMove p) = s.rulerMouseMove p := rfl
    rw [hstep] at h ⊢
    cases hdragging : s.loopDragging with
    | false =>
      rw [mouseMove_of_idle hdragging] at h
      exact absurd (hdragging.symm.trans h) Bool.false_ne_true
    | true =>
      obtain ⟨start, stop, hmove, _⟩ := mouseMove_of_holds hdragging p
      rw [hmove]
      exact ⟨rfl, rfl⟩
  | finishDrag =>
    have hstep : s.step .finishDrag = s.finishRulerDrag := rfl
    rw [hstep] at h ⊢
    unfold finishRulerDrag at h ⊢
    split at h
    case isTrue => exact absurd h Bool.false_ne_true
    case isFalse hnot => exact absurd h hnot
  | setGrid gridDenominator => exact ⟨h, rfl⟩
  | setZoom zoomX => exact ⟨h, rfl⟩
  | ensure loopEnabled =>
    have hstep : s.step (.ensure loopEnabled) = s.ensureMinimumGlobalLoop loopEnabled := rfl
    rw [hstep, ensure_eq] at h ⊢
    split at h
    case isTrue hensure => exact absurd (hensure.2.1.symm.trans h) Bool.false_ne_true
    case isFalse hnot =>
      rw [if_neg hnot]
      exact ⟨h, rfl⟩

def run (s : RulerState) (is : List RulerInput) : RulerState :=
  is.foldl step s

theorem preview_run {s : RulerState} {len : ℕ} (h : s.loopDragging = true → s.loopPreviewEndTicks = len)
    {is : List RulerInput} (his : ∀ i ∈ is, ¬ i.IsPress) :
    (s.run is).loopDragging = true → (s.run is).loopPreviewEndTicks = len := by
  have hgoes : Along step (fun _ i => ¬ i.IsPress) s is := along_of_forall_mem his
  refine (always_of_along (P := fun s : RulerState => s.loopDragging = true → s.loopPreviewEndTicks = len)
    ?_ h hgoes).final
  intro s i hlen hi hnow
  obtain ⟨hdragging, hkeep⟩ := dragging_before hi hnow
  exact hkeep.trans (hlen hdragging)

def RegionLong (s : RulerState) : Prop :=
  s.playlist.loopRegionActive = true →
    s.playlist.loopStartTicks + s.playlist.ppqn ≤ s.playlist.loopEndTicks

/-- From a ruler that is not being dragged: an active region is a quarter note long, a held edge leaves the
other, the whole keeps the length it was taken with as far as the grid allows, and ensuring a region twice is
ensuring it once. -/
theorem ruler_laws {s : RulerState} (hidle : s.loopDragging = false)
    (hregion : s.playlist.loopRegionActive = true →
      s.playlist.loopStartTicks + max s.playlist.ppqn 1 ≤ s.playlist.loopEndTicks)
    (is : List RulerInput) :
    Always step RegionLong s is ∧
      (∀ i : RulerInput, ¬ i.IsPress →
        ((s.run is).Holds .left →
          ((s.run is).step i).playlist.loopEndTicks = (s.run is).playlist.loopEndTicks) ∧
        ((s.run is).Holds .right →
          ((s.run is).step i).playlist.loopStartTicks = (s.run is).playlist.loopStartTicks)) ∧
      (∀ p clickCount bpm sampleRate, p.rulerH - 9 ≤ p.localY →
        ((s.run is).step (.mouseDown p clickCount bpm sampleRate)).Holds .body →
        ((s.run is).step (.mouseDown p clickCount bpm sampleRate)).playlist = (s.run is).playlist ∧
        ∀ js : List RulerInput, (∀ j ∈ js, ¬ j.IsPress) → ∀ held,
          held = ((s.run is).step (.mouseDown p clickCount bpm sampleRate)).run js → held.Holds .body →
          (∀ q, (held.step (.mouseMove q)).playlist.loopLengthTicks =
            max (s.run is).playlist.loopLengthTicks held.minLength) ∧
          ∀ j : RulerInput, ¬ j.IsPress → (∀ q, j ≠ .mouseMove q) →
            (held.step j).playlist.loopStartTicks = held.playlist.loopStartTicks ∧
              (held.step j).playlist.loopEndTicks = held.playlist.loopEndTicks) ∧
      ∀ first second : Bool, (second = true → first = true) →
        ((s.run is).step (.ensure first)).step (.ensure second) = (s.run is).step (.ensure first) := by
  have hsound : s.Sound := ⟨fun h => absurd (hidle.symm.trans h) Bool.false_ne_true, hregion⟩
  refine ⟨?_, fun i hi => ⟨fun h => left_step h hi, fun h => right_step h hi⟩, ?_,
    fun first second h => ensure_ensure _ h⟩
  · refine (always_of_step (fun _ i h => h.step i) hsound).mono fun now hnow hactive => ?_
    have hlong := hnow.long hactive
    omega
  · intro p clickCount bpm sampleRate hstrip hbody
    obtain ⟨hpreview, hplaylist⟩ := preview_of_press hstrip hbody
    refine ⟨hplaylist, ?_⟩
    rintro js hjs held rfl hheld
    refine ⟨fun q => ?_, fun j hj hmove => step_of_dragging hheld.1 hj hmove⟩
    rw [body_move hheld q, preview_run (fun _ => hpreview) hjs hheld.1]

/-- The ruler of a new playlist. -/
def fresh : RulerState :=
  { playlist := .default, zoomX := 1, loopDragging := false, loopPreviewStartTicks := 0
    loopPreviewEndTicks := 0, loopDragHandle := .none, loopDragCompletedThisFrame := false }

/-- In the strip of a ruler at the window's corner. -/
def pointAt (x : ℚ) : RulerPoint :=
  { cursorX := x, cursorY := 20, boundsX := 0, boundsY := 0, rulerH := 26, scrollX := 0 }

/-- A region of a quarter note, made and released. -/
def quarterMade : List RulerInput :=
  [.mouseDown (pointAt 0) 1 120 48000, .finishDrag]

/-- The quarter note, with its right edge taken and dragged. -/
def edgeHeld : List RulerInput :=
  quarterMade ++ [.mouseDown (pointAt 958) 1 120 48000, .mouseMove (pointAt 1440)]

/-- Its edge goes on, the whole of it moves twice, and the loop is ensured twice. -/
theorem ruler_laws_quarterMade :
    Always step RegionLong fresh edgeHeld ∧
      ((fresh.run edgeHeld).step (.mouseMove (pointAt 2880))).playlist.loopStartTicks =
        (fresh.run edgeHeld).playlist.loopStartTicks ∧
      (let held := ((fresh.run quarterMade).step (.mouseDown (pointAt 480) 1 120 48000)).run
          [.mouseMove (pointAt 500)]
       (held.step (.mouseMove (pointAt 1500))).playlist.loopLengthTicks =
          max (fresh.run quarterMade).playlist.loopLengthTicks held.minLength) ∧
      ((fresh.run edgeHeld).step (.ensure true)).step (.ensure true) =
        (fresh.run edgeHeld).step (.ensure true) := by
  obtain ⟨hlong, hedges, _, hensure⟩ :=
    ruler_laws (s := fresh) rfl (fun h => absurd h Bool.false_ne_true) edgeHeld
  obtain ⟨_, _, hbody, _⟩ := ruler_laws (s := fresh) rfl (fun h => absurd h Bool.false_ne_true) quarterMade
  refine ⟨hlong, ?_, ?_, hensure true true fun h => h⟩
  · exact (hedges (.mouseMove (pointAt 2880)) fun h => h).2 ⟨by decide +kernel, by decide +kernel⟩
  · obtain ⟨_, hmoves⟩ := hbody (pointAt 480) 1 120 48000 (by decide +kernel)
      ⟨by decide +kernel, by decide +kernel⟩
    obtain ⟨hlength, _⟩ := hmoves [.mouseMove (pointAt 500)] (by simp [RulerInput.IsPress]) _ rfl
      ⟨by decide +kernel, by decide +kernel⟩
    exact hlength (pointAt 1500)

/-- On a grid of half notes the quarter becomes a half note under a drag of the whole. -/
theorem body_drag_lengthens :
    ¬ ∀ (s : RulerState) (is : List RulerInput), s.loopDragging = false →
      (s.playlist.loopRegionActive = true →
        s.playlist.loopStartTicks + max s.playlist.ppqn 1 ≤ s.playlist.loopEndTicks) →
      ∀ i : RulerInput, ¬ i.IsPress → (s.run is).Holds .body →
        ((s.run is).step i).playlist.loopLengthTicks = (s.run is).playlist.loopLengthTicks := by
  intro h
  have hkept := h fresh (quarterMade ++ [.setGrid 2, .mouseDown (pointAt 480) 1 120 48000]) rfl
    (fun hactive => absurd hactive Bool.false_ne_true) (.mouseMove (pointAt 600)) (fun hpress => hpress)
    ⟨by decide +kernel, by decide +kernel⟩
  exact absurd hkept (by decide +kernel)

end RulerState

end HikaruOpenLive.Gui
