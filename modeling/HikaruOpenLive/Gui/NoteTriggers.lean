import HikaruOpenLive.Gui.PianoRoll

/-! # The notes that the piano roll triggers

Every frame the piano roll previews the notes that the playhead has just crossed, which it works out from
the places of the playhead at this frame and at the one before.

`along_exact_iff` says over which moves of the playhead these are the notes of the part it went over.
-/
set_option autoImplicit false

namespace HikaruOpenLive.Gui.PianoRoll

open Foundations.Runs Foundations.ListEdits

/-- The notes and the playhead. `started` is no part of the application: there was an update before. -/
structure PlayheadState where
  notes : List MidiNote
  playheadTick : ℕ
  prevPlayheadTick : ℕ
  started : Bool

/-- A tick after which, and 240 ticks before which, the playhead is. The sum is a `u64`. -/
def inReach (current start : ℕ) : Bool :=
  decide (start ≤ current) && decide (current < (start + 240) % 2 ^ 64)

def noteJustCrossed (prev current start : ℕ) : Bool :=
  (decide (prev < start) || decide (current < prev)) && inReach current start

namespace PlayheadState

/-- The notes it previews, each as often as it is in the list. -/
def triggerPlayheadNotes (s : PlayheadState) : List MidiNote × PlayheadState :=
  let crossed :=
    if s.playheadTick = s.prevPlayheadTick then []
    else s.notes.filter fun n => noteJustCrossed s.prevPlayheadTick s.playheadTick n.startTick
  (crossed, { s with prevPlayheadTick := s.playheadTick })

end PlayheadState

/-- A move of the playhead: on to a tick, or round a loop by so many ticks from its start. -/
inductive PlayheadUpdate where
  | advance (tick : ℕ)
  | wrap (loopStart loopEnd ticksElapsed : ℕ)

/-- The place of the playhead after a move; in a loop it is taken modulo its length. -/
def PlayheadUpdate.place : PlayheadUpdate → ℕ
  | .advance tick => tick
  | .wrap loopStart loopEnd ticksElapsed => loopStart + ticksElapsed % (loopEnd - loopStart)

namespace PlayheadState

/-- A new piano roll with the notes of a clip. -/
def start (notes : List MidiNote) : PlayheadState :=
  { notes := notes, playheadTick := 0, prevPlayheadTick := 0, started := false }

def moved (s : PlayheadState) (u : PlayheadUpdate) : PlayheadState :=
  { s with playheadTick := u.place, started := true }

def triggered (s : PlayheadState) (u : PlayheadUpdate) : List MidiNote :=
  (s.moved u).triggerPlayheadNotes.1

def update (s : PlayheadState) (u : PlayheadUpdate) : PlayheadState :=
  (s.moved u).triggerPlayheadNotes.2

/-- The playhead goes on, or it is in the loop that it goes round. -/
def Possible (s : PlayheadState) : PlayheadUpdate → Prop
  | .advance tick => s.playheadTick ≤ tick
  | .wrap loopStart loopEnd _ => loopStart ≤ s.playheadTick ∧ s.playheadTick < loopEnd

/-- The ticks that a move goes over: those after the place it starts from, which the first move takes
with them; round a loop, those up to its end and those from its start. -/
def traversed (s : PlayheadState) (u : PlayheadUpdate) (tick : ℕ) : Bool :=
  (!s.started && decide (tick = s.playheadTick)) ||
    match u with
    | .advance target => decide (s.playheadTick < tick) && decide (tick ≤ target)
    | .wrap loopStart loopEnd _ =>
      (decide (s.playheadTick < tick) && decide (tick < loopEnd)) ||
        (decide (loopStart ≤ tick) && decide (tick ≤ u.place))

/-- The notes triggered are those of the part gone over, each once. -/
def Exact (s : PlayheadState) (u : PlayheadUpdate) : Prop :=
  s.triggered u = s.notes.filter fun n => s.traversed u n.startTick

/-- What keeps a note's start from being missed, or from being taken when it was not passed. Going on,
the first move has no note where it starts and no note is left 240 ticks behind. Round a loop back to an
earlier tick, there is no note from here to the loop's end, none left 240 ticks behind after its start
and none close before its start; to a later tick, all notes of the loop are close behind and after the
place it started from. -/
def Caught (s : PlayheadState) (u : PlayheadUpdate) : Prop :=
  ∀ n ∈ s.notes, (s.started = false → n.startTick ≠ s.playheadTick) ∧
    match u with
    | .advance tick =>
      s.playheadTick < n.startTick → n.startTick ≤ tick → inReach tick n.startTick = true
    | .wrap loopStart loopEnd _ =>
      if u.place < s.playheadTick then
        (s.playheadTick < n.startTick → loopEnd ≤ n.startTick) ∧
        (loopStart ≤ n.startTick → n.startTick ≤ u.place → inReach u.place n.startTick = true) ∧
        (n.startTick < loopStart → inReach u.place n.startTick = false)
      else
        loopStart ≤ n.startTick → n.startTick < loopEnd →
          s.playheadTick < n.startTick ∧ inReach u.place n.startTick = true

instance (s : PlayheadState) (u : PlayheadUpdate) : Decidable (Possible s u) :=
  match u with
  | .advance tick => inferInstanceAs (Decidable (s.playheadTick ≤ tick))
  | .wrap loopStart loopEnd _ =>
    inferInstanceAs (Decidable (loopStart ≤ s.playheadTick ∧ s.playheadTick < loopEnd))

instance (s : PlayheadState) (u : PlayheadUpdate) : Decidable (Exact s u) :=
  inferInstanceAs (Decidable (s.triggered u = _))

/-! ## One move -/

theorem le_of_inReach {current tick : ℕ} (h : inReach current tick = true) : tick ≤ current := by
  rw [inReach, Bool.and_eq_true, decide_eq_true_iff] at h
  exact h.1

theorem noteJustCrossed_iff {prev current tick : ℕ} :
    noteJustCrossed prev current tick = true ↔
      (prev < tick ∨ current < prev) ∧ inReach current tick = true := by
  rw [noteJustCrossed, Bool.and_eq_true, Bool.or_eq_true, decide_eq_true_iff, decide_eq_true_iff]

/-- The check that the playhead has moved takes no note away. -/
theorem triggered_eq {s : PlayheadState} (h : s.prevPlayheadTick = s.playheadTick)
    (u : PlayheadUpdate) :
    s.triggered u =
      s.notes.filter fun n => noteJustCrossed s.playheadTick u.place n.startTick := by
  rw [triggered, triggerPlayheadNotes]
  simp only [moved, h]
  split
  case isFalse => rfl
  case isTrue heq =>
    symm
    rw [List.filter_eq_nil_iff]
    intro n _ hn
    obtain ⟨hside, hreach⟩ := noteJustCrossed_iff.mp hn
    have hle := le_of_inReach hreach
    omega

theorem exact_iff_forall {s : PlayheadState} (h : s.prevPlayheadTick = s.playheadTick)
    (u : PlayheadUpdate) :
    Exact s u ↔ ∀ n ∈ s.notes,
      ((s.playheadTick < n.startTick ∨ u.place < s.playheadTick) ∧ inReach u.place n.startTick = true ↔
        s.traversed u n.startTick = true) := by
  rw [Exact, triggered_eq h, filter_eq_filter_iff]
  simp only [noteJustCrossed_iff]

theorem exact_advance_iff {s : PlayheadState} {tick : ℕ} (h : s.prevPlayheadTick = s.playheadTick)
    (hp : s.Possible (.advance tick)) : Exact s (.advance tick) ↔ Caught s (.advance tick) := by
  rw [exact_iff_forall h, Caught]
  refine forall₂_congr fun n _ => ?_
  have hle : inReach tick n.startTick = true → n.startTick ≤ tick := le_of_inReach
  have hon : s.playheadTick ≤ tick := hp
  simp only [traversed, PlayheadUpdate.place, Bool.or_eq_true, Bool.and_eq_true, Bool.not_eq_true',
    decide_eq_true_eq]
  constructor
  · intro hiff
    refine ⟨fun hstart heq => ?_, fun hlt hn => (hiff.mpr (.inr ⟨hlt, hn⟩)).2⟩
    have hcrossed := (hiff.mpr (.inl ⟨hstart, heq⟩)).1
    omega
  · rintro ⟨hfirst, hreach⟩
    constructor
    · rintro ⟨hside, hr⟩
      have hn := hle hr
      exact .inr ⟨by omega, hn⟩
    · rintro (⟨hstart, heq⟩ | ⟨hlt, hn⟩)
      · exact absurd heq (hfirst hstart)
      · exact ⟨.inl hlt, hreach hlt hn⟩

/-- Round the loop to an earlier tick: what is crossed is what is close before it. -/
theorem exact_wrap_back_iff {s : PlayheadState} {a b ticks : ℕ}
    (h : s.prevPlayheadTick = s.playheadTick) (hp : s.Possible (.wrap a b ticks))
    (hback : (PlayheadUpdate.wrap a b ticks).place < s.playheadTick) :
    Exact s (.wrap a b ticks) ↔ Caught s (.wrap a b ticks) := by
  rw [exact_iff_forall h, Caught]
  refine forall₂_congr fun n _ => ?_
  obtain ⟨hstart, hend⟩ := hp
  have hle : inReach (PlayheadUpdate.wrap a b ticks).place n.startTick = true →
    n.startTick ≤ (PlayheadUpdate.wrap a b ticks).place := le_of_inReach
  simp only [traversed, Bool.or_eq_true, Bool.and_eq_true, Bool.not_eq_true',
    decide_eq_true_eq, hback, or_true, true_and]
  constructor
  · intro hiff
    refine ⟨fun hs heq => ?_, fun hlt => ?_, fun ha hn => hiff.mpr (.inr (.inr ⟨ha, hn⟩)), fun ha => ?_⟩
    · have hn := hle (hiff.mpr (.inl ⟨hs, heq⟩))
      omega
    · by_contra hb
      have hn := hle (hiff.mpr (.inr (.inl ⟨hlt, by omega⟩)))
      omega
    · by_contra hr
      rcases hiff.mp (by simpa using hr) with ⟨_, heq⟩ | ⟨hlt, _⟩ | ⟨ha', _⟩
      · omega
      · omega
      · omega
  · rintro ⟨hfirst, hgap, hreach, hbefore⟩
    constructor
    · intro hr
      have hn := hle hr
      by_cases ha : a ≤ n.startTick
      · exact .inr (.inr ⟨ha, hn⟩)
      · rw [hbefore (by omega)] at hr
        cases hr
    · rintro (⟨hs, heq⟩ | ⟨hlt, hb⟩ | ⟨ha, hn⟩)
      · exact absurd heq (hfirst hs)
      · have hb' := hgap hlt
        omega
      · exact hreach ha hn

/-- Round the loop to where it was or a later tick: all of the loop is gone over. -/
theorem exact_wrap_on_iff {s : PlayheadState} {a b ticks : ℕ}
    (h : s.prevPlayheadTick = s.playheadTick) (hp : s.Possible (.wrap a b ticks))
    (hon : ¬ (PlayheadUpdate.wrap a b ticks).place < s.playheadTick) :
    Exact s (.wrap a b ticks) ↔ Caught s (.wrap a b ticks) := by
  rw [exact_iff_forall h, Caught]
  refine forall₂_congr fun n _ => ?_
  obtain ⟨hstart, hend⟩ := hp
  have hle : inReach (PlayheadUpdate.wrap a b ticks).place n.startTick = true →
    n.startTick ≤ (PlayheadUpdate.wrap a b ticks).place := le_of_inReach
  have hplace : (PlayheadUpdate.wrap a b ticks).place < b := by
    have hmod : ticks % (b - a) < b - a := Nat.mod_lt _ (by omega)
    rw [PlayheadUpdate.place]
    omega
  simp only [traversed, Bool.or_eq_true, Bool.and_eq_true, Bool.not_eq_true',
    decide_eq_true_eq, hon, or_false]
  constructor
  · intro hiff
    have hall : a ≤ n.startTick → n.startTick < b → s.playheadTick < n.startTick ∧
        inReach (PlayheadUpdate.wrap a b ticks).place n.startTick = true := by
      intro ha hb
      refine hiff.mpr (.inr ?_)
      by_cases hlt : s.playheadTick < n.startTick
      · exact .inl ⟨hlt, hb⟩
      · exact .inr ⟨ha, by omega⟩
    refine ⟨fun hs heq => ?_, hall⟩
    have hlt := (hall (by omega) (by omega)).1
    omega
  · rintro ⟨hfirst, hall⟩
    constructor
    · rintro ⟨hlt, hr⟩
      have hn := hle hr
      exact .inr (.inl ⟨hlt, by omega⟩)
    · rintro (⟨hs, heq⟩ | ⟨hlt, hb⟩ | ⟨ha, hn⟩)
      · exact absurd heq (hfirst hs)
      · exact hall (by omega) hb
      · exact hall ha (by omega)

theorem exact_iff_caught {s : PlayheadState} {u : PlayheadUpdate} (hp : s.Possible u)
    (h : s.prevPlayheadTick = s.playheadTick) : Exact s u ↔ Caught s u := by
  cases u with
  | advance tick => exact exact_advance_iff h hp
  | wrap a b ticks =>
    by_cases hback : (PlayheadUpdate.wrap a b ticks).place < s.playheadTick
    · exact exact_wrap_back_iff h hp hback
    · exact exact_wrap_on_iff h hp hback

/-! ## Runs of moves -/

/-- Over a run of moves, what is triggered is exact at every move precisely when none of them leaves a
note that it goes over out of reach. -/
theorem along_exact_iff (notes : List MidiNote) (updates : List PlayheadUpdate)
    (h : Along update Possible (start notes) updates) :
    Along update Exact (start notes) updates ↔ Along update Caught (start notes) updates :=
  along_iff_along_given (I := fun s => s.prevPlayheadTick = s.playheadTick) (fun _ _ _ _ _ => rfl)
    (fun _ _ hp hs => exact_iff_caught hp hs) rfl h

/-- A note in the middle of a loop of two beats. -/
theorem along_exact_middle :
    Along update Exact (start [⟨60, 250, 240, 100⟩]) [.advance 300, .wrap 0 1920 1930] := by
  have hpossible : Along update Possible (start [⟨60, 250, 240, 100⟩]) [.advance 300, .wrap 0 1920 1930] :=
    ⟨by decide, by decide, trivial⟩
  refine (along_exact_iff _ _ hpossible).mpr ⟨?_, ?_, trivial⟩
  · simp [Caught, start, inReach]
  · simp [Caught, start, inReach, update, moved, triggerPlayheadNotes, PlayheadUpdate.place]

/-- A note at tick 0 is never triggered. -/
theorem not_along_exact :
    ¬ ∀ (notes : List MidiNote) (updates : List PlayheadUpdate),
      Along update Possible (start notes) updates → Along update Exact (start notes) updates := by
  intro h
  have hexact := (h [⟨60, 0, 240, 100⟩] [.advance 10] ⟨by decide, trivial⟩).1
  exact absurd hexact (by decide)

end PlayheadState

end HikaruOpenLive.Gui.PianoRoll
