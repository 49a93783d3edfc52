import HikaruOpenLive.Engine.ClipCells

/-! # Loops under edits of the timeline

A clip is given new events and new loops in any order. A loop over the whole clip should follow the clip
as its timeline changes, a loop over a part of it should stay, and one that was switched off should stay
off. The engine tells a full loop by the length of the sample, which is not the clip's length once it
has events, and a loop that is off by an end of zero, which is also that of a loop not yet set:
`edits_faithful_iff` is the exact condition on the edits of a run.
-/
set_option autoImplicit false

namespace HikaruOpenLive.Engine

open Foundations.Runs

inductive LoopCall where
  | setClipEvents (events : List EngineAudioEvent)
  | setClipLoop (startSecs endSecs : ℚ) (enabled : Bool)

/-- A clip, and whether the last loop the user chose was none. -/
structure EditedClip where
  clip : AudioClip
  userOff : Bool

namespace AudioClip

def sampleFrames (c : AudioClip) : ℕ := c.samples.length / max c.channels 1

/-- The length a clip has with other events. -/
def framesWith (c : AudioClip) (events : List EngineAudioEvent) : ℕ :=
  if events = [] then c.sampleFrames else (events.map EngineAudioEvent.stop).foldr max 0

theorem framesWith_self (c : AudioClip) : c.framesWith c.events = c.naturalFrames := by
  unfold framesWith naturalFrames sampleFrames
  simp

def FullLoop (c : AudioClip) : Prop :=
  c.clipLoopEnabled = true ∧ c.clipLoopStart = 0 ∧ c.clipLoopEnd = c.naturalFrames

def PartialLoop (c : AudioClip) : Prop :=
  c.clipLoopEnabled = true ∧ c.clipLoopStart < c.clipLoopEnd ∧ ¬ c.FullLoop

/-- A loop from the first frame on that the new timeline outgrows is to be told from a full one: it is
full when it ends with the clip, and the engine takes it for full when it ends with the sample. -/
def ToldApart (c : AudioClip) (n : ℕ) : Prop :=
  c.clipLoopEnabled = true → c.clipLoopStart = 0 → 0 < c.clipLoopEnd → c.clipLoopEnd < n →
    (c.clipLoopEnd = c.naturalFrames ↔ c.clipLoopEnd = c.sampleFrames)

end AudioClip

namespace EditedClip

def call (sampleRate : ℚ) (s : EditedClip) : LoopCall → EditedClip
  | .setClipEvents events => { s with clip := s.clip.setEvents events }
  | .setClipLoop startSecs endSecs enabled =>
    let sr := max sampleRate 1
    { clip := s.clip.setLoop ⌊max startSecs 0 * sr⌋₊ ⌊max endSecs 0 * sr⌋₊ enabled, userOff := !enabled }

/-- What an edit of the timeline owes to the loop. -/
def Faithful (s : EditedClip) : LoopCall → Prop
  | .setClipLoop _ _ _ => True
  | .setClipEvents events =>
    let edited := s.clip.setEvents events
    (s.clip.FullLoop → 0 < edited.naturalFrames → edited.loopRegion = (true, 0, edited.naturalFrames)) ∧
      (s.clip.PartialLoop → s.clip.clipLoopEnd ≤ edited.naturalFrames →
        edited.loopRegion = s.clip.loopRegion) ∧
      (s.userOff = true → edited.clipLoopEnabled = false)

def Keeps (s : EditedClip) : LoopCall → Prop
  | .setClipLoop _ _ _ => True
  | .setClipEvents events =>
    s.clip.ToldApart (s.clip.framesWith events) ∧ (s.userOff = true → s.clip.framesWith events = 0)

/-- A loop that the user switched off is off, with an end of zero. -/
def OffIsZero (s : EditedClip) : Prop :=
  s.userOff = true → s.clip.clipLoopEnabled = false ∧ s.clip.clipLoopEnd = 0

/-! ## One edit -/

section Edit
variable (c : AudioClip) (events : List EngineAudioEvent)

theorem naturalFrames_edited : (c.setEvents events).naturalFrames = c.framesWith events :=
  c.naturalFrames_setEvents events

/-- What the new events do to a loop that is on. -/
theorem region_edited_on (hon : c.clipLoopEnabled = true) {n : ℕ} (hn : c.framesWith events = n)
    (hpos : 0 < n) :
    (c.setEvents events).loopRegion = if c.loopResets n then (true, 0, n) else c.loopRegion := by
  rw [c.loopRegion_setEvents events ((naturalFrames_edited c events).trans hn), if_pos ⟨hon, hpos⟩]

theorem region_edited_off (hoff : c.clipLoopEnabled = false) (hend : c.clipLoopEnd = 0) {n : ℕ}
    (hn : c.framesWith events = n) :
    (c.setEvents events).loopRegion = if 0 < n then (true, 0, n) else c.loopRegion := by
  rw [c.loopRegion_setEvents events ((naturalFrames_edited c events).trans hn)]
  simp [hoff, hend]

/-- A loop from the first frame on that fits is reset exactly when it ends with the sample. -/
theorem resets_iff {n : ℕ} (hon : c.clipLoopEnabled = true) (hstart : c.clipLoopStart = 0)
    (hend : 0 < c.clipLoopEnd) (hfits : c.clipLoopEnd ≤ n) :
    c.loopResets n ↔ c.clipLoopEnd = c.sampleFrames := by
  have hplain : c.events = [] → c.clipLoopEnd = c.naturalFrames → c.clipLoopEnd = c.sampleFrames := by
    intro hevents hnatural
    rw [hnatural, ← c.framesWith_self, hevents]
    rfl
  unfold AudioClip.loopResets
  constructor
  · rintro (hzero | hout | ⟨_, _, hsample | ⟨hevents, hnatural⟩⟩)
    · omega
    · omega
    · exact hsample
    · exact hplain hevents hnatural
  · intro hsample
    exact Or.inr (Or.inr ⟨hon, hstart, Or.inl hsample⟩)

theorem loopRegion_eq_iff (n : ℕ) (hon : c.clipLoopEnabled = true) :
    c.loopRegion = (true, 0, n) ↔ c.clipLoopStart = 0 ∧ c.clipLoopEnd = n := by
  simp [AudioClip.loopRegion, hon]

/-- A full loop follows the clip when it is told from a partial one. -/
theorem full_follows {n : ℕ} (hn : c.framesWith events = n) (htold : c.ToldApart n) (hfull : c.FullLoop)
    (hpos : 0 < n) : (c.setEvents events).loopRegion = (true, 0, n) := by
  obtain ⟨hon, hstart, hend⟩ := hfull
  rw [region_edited_on c events hon hn hpos]
  split
  case isTrue => rfl
  case isFalse hkept =>
    have hzero : 0 < c.clipLoopEnd := Nat.pos_of_ne_zero fun h => hkept (Or.inl h)
    have hfits : c.clipLoopEnd ≤ n := not_lt.mp fun h => hkept (Or.inr (Or.inl h))
    rw [loopRegion_eq_iff c n hon]
    refine ⟨hstart, ?_⟩
    by_contra hne
    have hsample := (htold hon hstart hzero (lt_of_le_of_ne hfits hne)).mp hend
    exact hkept ((resets_iff c hon hstart hzero hfits).mpr hsample)

/-- So does a partial one stay. -/
theorem partial_stays {n : ℕ} (hn : c.framesWith events = n) (htold : c.ToldApart n)
    (hpart : c.PartialLoop) (hfits : c.clipLoopEnd ≤ n) :
    (c.setEvents events).loopRegion = c.loopRegion := by
  obtain ⟨hon, hlt, hnot⟩ := hpart
  have hzero : 0 < c.clipLoopEnd := by omega
  rw [region_edited_on c events hon hn (by omega)]
  split
  case isFalse => rfl
  case isTrue hreset =>
    have hstart : c.clipLoopStart = 0 := by
      obtain h | h | h := hreset
      · omega
      · omega
      · exact h.2.1
    have hsample := (resets_iff c hon hstart hzero hfits).mp hreset
    refine ((loopRegion_eq_iff c n hon).mpr ⟨hstart, ?_⟩).symm
    by_contra hne
    have hnatural := (htold hon hstart hzero (lt_of_le_of_ne hfits hne)).mpr hsample
    exact hnot ⟨hon, hstart, hnatural⟩

/-- A loop that the new timeline outgrows shows whether the engine tells the two kinds apart. -/
theorem toldApart_of_edit {n : ℕ} (hn : c.framesWith events = n)
    (hfull : c.FullLoop → 0 < n → (c.setEvents events).loopRegion = (true, 0, n))
    (hpart : c.PartialLoop → c.clipLoopEnd ≤ n → (c.setEvents events).loopRegion = c.loopRegion) :
    c.ToldApart n := by
  intro hon hstart hzero hlt
  have hregion := region_edited_on c events hon hn (by omega)
  have hresets := resets_iff c hon hstart hzero hlt.le
  have hne : c.loopRegion ≠ (true, 0, n) := by
    rw [Ne, loopRegion_eq_iff c n hon]
    omega
  constructor
  · intro hnatural
    by_contra hsample
    rw [if_neg (fun h => hsample (hresets.mp h))] at hregion
    exact hne (hregion.symm.trans (hfull ⟨hon, hstart, hnatural⟩ (by omega)))
  · intro hsample
    by_contra hnatural
    have hkept := hpart ⟨hon, by omega, fun h => hnatural h.2.2⟩ hlt.le
    rw [if_pos (hresets.mpr hsample)] at hregion
    exact hne (hkept.symm.trans hregion)

end Edit

theorem faithful_iff {s : EditedClip} (h : s.OffIsZero) (op : LoopCall) : s.Faithful op ↔ s.Keeps op := by
  cases op with
  | setClipLoop startSecs endSecs enabled => exact Iff.rfl
  | setClipEvents events =>
    have hframes := naturalFrames_edited s.clip events
    have hoff : (s.userOff = true → (s.clip.setEvents events).clipLoopEnabled = false) ↔
        (s.userOff = true → s.clip.framesWith events = 0) := by
      refine imp_congr_right fun huser => ?_
      obtain ⟨hdisabled, hend⟩ := h huser
      have hregion := region_edited_off s.clip events hdisabled hend rfl
      have henabled : (s.clip.setEvents events).clipLoopEnabled = (s.clip.setEvents events).loopRegion.1 := rfl
      rw [henabled, hregion]
      by_cases hpos : 0 < s.clip.framesWith events
      · rw [if_pos hpos]
        simp [hpos.ne']
      · rw [if_neg hpos]
        simp [AudioClip.loopRegion, hdisabled, Nat.eq_zero_of_not_pos hpos]
    unfold Faithful Keeps
    simp only [hframes]
    rw [hoff]
    constructor
    · rintro ⟨hfull, hpart, huser⟩
      exact ⟨toldApart_of_edit s.clip events rfl hfull hpart, huser⟩
    · rintro ⟨htold, huser⟩
      exact ⟨full_follows s.clip events rfl htold, partial_stays s.clip events rfl htold, huser⟩

/-- What is off stays off, and at zero, over calls that keep it. -/
theorem offIsZero_call {s : EditedClip} (sampleRate : ℚ) (h : s.OffIsZero) {op : LoopCall}
    (hkeeps : s.Keeps op) : (s.call sampleRate op).OffIsZero := by
  intro huser
  cases op with
  | setClipLoop startSecs endSecs enabled =>
    have hoff : enabled = false := by simpa [call] using huser
    subst hoff
    have hregion := s.clip.loopRegion_setLoop ⌊max startSecs 0 * max sampleRate 1⌋₊
      ⌊max endSecs 0 * max sampleRate 1⌋₊ false
    simp only [AudioClip.regionOf, Bool.false_eq_true, false_and, if_false] at hregion
    exact ⟨congrArg Prod.fst hregion, congrArg (fun r => r.2.2) hregion⟩
  | setClipEvents events =>
    obtain ⟨hdisabled, hend⟩ := h huser
    have hregion := region_edited_off s.clip events hdisabled hend rfl
    rw [hkeeps.2 huser, if_neg (Nat.lt_irrefl 0)] at hregion
    exact ⟨(congrArg Prod.fst hregion).trans hdisabled,
      (congrArg (fun r => r.2.2) hregion).trans hend⟩

/-! ## Any number of edits -/

/-- Over every run of calls on a clip, each edit of the timeline does right by the loop exactly when each
tells full loops from partial ones and none comes after the loop was switched off, unless it empties
the clip. -/
theorem edits_faithful_iff (sampleRate : ℚ) (c : AudioClip) (calls : List LoopCall) :
    Along (call sampleRate) Faithful ⟨c, false⟩ calls ↔ Along (call sampleRate) Keeps ⟨c, false⟩ calls :=
  along_iff_along (I := OffIsZero) (fun _ _ h hkeeps => offIsZero_call sampleRate h hkeeps)
    (fun _ op h => faithful_iff h op) (fun h => absurd h Bool.false_ne_true)

def fourFrames : AudioClip :=
  { id := 1, trackIndex := 0, sceneIndex := 0, samples := [0, 0, 0, 0], startFrame := 0, startAbsolute := 0
    durationFrames := 0, sampleOffset := 0, channels := 1, isPlaying := false, clipLoopEnabled := true
    clipLoopStart := 0, clipLoopEnd := 4, isMatrixClip := true, fade := LoopFade.fresh, events := [] }

/-- The sample of the clip, moved to a later frame of its timeline. -/
def movedTo (clipStart : ℕ) : List EngineAudioEvent := [⟨1, [0, 0, 0, 0], 1, clipStart, 1, 0, 0⟩]

/-- A loop over four frames follows the first edit, to six, and is left behind by the second, to eight; and
one switched off comes back with the next edit. -/
theorem not_edits_faithful :
    ¬ (∀ (sampleRate : ℚ) (c : AudioClip) (calls : List LoopCall),
        Along (call sampleRate) Faithful ⟨c, false⟩ calls) ∧
      ¬ Along (call 44100) Faithful ⟨fourFrames, false⟩
        [.setClipLoop 0 0 false, .setClipEvents (movedTo 0)] := by
  constructor
  · intro h
    obtain ⟨_, hsecond, _⟩ := h 44100 fourFrames [.setClipEvents (movedTo 2), .setClipEvents (movedTo 4)]
    exact absurd (hsecond.1 ⟨by decide, by decide, by decide⟩ (by decide)) (by decide)
  · rintro ⟨_, hoff, _⟩
    exact absurd (hoff.2.2 rfl) (by decide +kernel)

end EditedClip

namespace AudioEngine

variable {ν : Type}

/-- A call on the clip of a cell. -/
def loopCall (track scene : ℕ) (e : AudioEngine ν) : LoopCall → AudioEngine ν
  | .setClipEvents events => e.setClipEvents track scene events
  | .setClipLoop startSecs endSecs enabled => e.setClipLoop track scene startSecs endSecs enabled

/-- Calls on a cell are the edits of its clip. -/
theorem cell?_loopCalls (e : AudioEngine ν) (track scene : ℕ) (off : Bool) (calls : List LoopCall) :
    (calls.foldl (loopCall track scene) e).cell? track scene =
      (e.cell? track scene).map fun c => (calls.foldl (EditedClip.call e.sampleRate) ⟨c, off⟩).clip := by
  induction calls generalizing e off with
  | nil => simp
  | cons op calls ih =>
    rw [List.foldl_cons]
    cases op with
    | setClipEvents events =>
      rw [ih _ off, loopCall, cell?_setClipEvents, if_pos ⟨rfl, rfl⟩, Option.map_map]
      rfl
    | setClipLoop startSecs endSecs enabled =>
      rw [ih _ (!enabled), loopCall, cell?_setClipLoop, if_pos ⟨rfl, rfl⟩, Option.map_map]
      rfl

end AudioEngine

end HikaruOpenLive.Engine
