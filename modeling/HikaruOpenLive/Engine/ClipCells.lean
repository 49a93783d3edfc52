import HikaruOpenLive.Engine.ClipCommands

/-! # The clip of a cell

The commands of the matrix work on the first clip of a cell. What each does to it and to the clips of the
other cells: adding a clip replaces the one of its cell as long as the id, by which OpenStudio looks for
it, means that cell (`Addresses`).
-/
set_option autoImplicit false

namespace HikaruOpenLive.Engine

open Foundations.ListEdits

namespace AudioClip

theorem inCell_iff {c : AudioClip} {track scene : ℕ} :
    c.inCell track scene = true ↔ c.trackIndex = track ∧ c.sceneIndex = scene := by
  simp [inCell]

/-- A clip found in a cell is in no other. -/
theorem not_inCell_of_ne {c : AudioClip} {t s t' s' : ℕ} (h : c.inCell t s = true)
    (hne : ¬ (t' = t ∧ s' = s)) : c.inCell t' s' = false := by
  obtain ⟨rfl, rfl⟩ := inCell_iff.mp h
  rw [Bool.eq_false_iff]
  intro h'
  obtain ⟨ht, hs⟩ := inCell_iff.mp h'
  exact hne ⟨ht.symm, hs.symm⟩

theorem setLoop_frame (start stop : ℕ) (enabled : Bool) (c : AudioClip) :
    (c.setLoop start stop enabled).events = c.events ∧
      (c.setLoop start stop enabled).isMatrixClip = c.isMatrixClip ∧
      (c.setLoop start stop enabled).samples = c.samples ∧
      (c.setLoop start stop enabled).channels = c.channels ∧
      (c.setLoop start stop enabled).id = c.id := by
  simp only [setLoop, withoutLoop]
  split_ifs <;> exact ⟨rfl, rfl, rfl, rfl, rfl⟩

theorem setEvents_frame (events : List EngineAudioEvent) (c : AudioClip) :
    (c.setEvents events).events = events ∧ (c.setEvents events).isMatrixClip = c.isMatrixClip ∧
      (c.setEvents events).samples = c.samples ∧ (c.setEvents events).channels = c.channels ∧
      (c.setEvents events).id = c.id := by
  simp only [setEvents]
  split_ifs <;> exact ⟨rfl, rfl, rfl, rfl, rfl⟩

/-! ## The loop of a clip -/

def loopRegion (c : AudioClip) : Bool × ℕ × ℕ :=
  (c.clipLoopEnabled, c.clipLoopStart, c.clipLoopEnd)

/-- The loop that a region stands for on a clip of `n` frames; one that is empty reaches the end. -/
def regionOf (start stop : ℕ) (enabled : Bool) (n : ℕ) : Bool × ℕ × ℕ :=
  if enabled ∧ start < n then (true, start, if start < stop then min stop n else n) else (false, 0, 0)

theorem loopRegion_setLoop (start stop : ℕ) (enabled : Bool) (c : AudioClip) :
    (c.setLoop start stop enabled).loopRegion = regionOf start stop enabled c.naturalFrames := by
  unfold setLoop regionOf
  simp only
  by_cases hon : enabled = true ∧ start < c.naturalFrames
  · have hpos : 0 < c.naturalFrames := by omega
    rw [if_pos hon, if_pos hpos, if_pos hon]
    by_cases hstop : start < stop
    · have hmin : start < min stop c.naturalFrames := lt_min hstop hon.2
      rw [if_pos hmin, if_pos hstop, if_pos (by rw [min_assoc, min_self]; exact hmin), min_assoc,
        min_self]
      rfl
    · have hmin : ¬ start < min stop c.naturalFrames := fun h => hstop (lt_of_lt_of_le h (min_le_left _ _))
      rw [if_neg hmin, if_neg hstop, if_pos hon.2]
      rfl
  · rw [if_neg hon, if_neg hon]
    rfl

/-- A loop over the whole clip, as the region of a clip of `n` frames. -/
theorem regionOf_whole_iff (start stop : ℕ) (enabled : Bool) (n : ℕ) :
    regionOf start stop enabled n = (decide (0 < n), 0, n) ↔
      n = 0 ∨ enabled = true ∧ start = 0 ∧ (stop = 0 ∨ n ≤ stop) := by
  unfold regionOf
  obtain rfl | hn := Nat.eq_zero_or_pos n
  · simp
  · by_cases hon : enabled = true ∧ start < n
    · rw [if_pos hon]
      by_cases hstop : start < stop
      · simp only [hn, decide_true, Prod.mk.injEq, eq_self, true_and, if_pos hstop, hon.1]
        omega
      · simp only [hn, decide_true, Prod.mk.injEq, eq_self, true_and, and_true, if_neg hstop, hon.1]
        omega
    · rw [if_neg hon]
      simp only [hn, decide_true, Prod.mk.injEq, Bool.false_eq_true, false_and, false_iff]
      rintro (rfl | ⟨henabled, rfl, _⟩)
      · exact absurd hn (Nat.lt_irrefl 0)
      · exact hon ⟨henabled, hn⟩

/-- New events of `n` frames in all put the loop back over the whole clip. -/
def loopResets (c : AudioClip) (n : ℕ) : Prop :=
  c.clipLoopEnd = 0 ∨ n < c.clipLoopEnd ∨
    c.clipLoopEnabled = true ∧ c.clipLoopStart = 0 ∧
      (c.clipLoopEnd = c.samples.length / max c.channels 1 ∨
        c.events = [] ∧ c.clipLoopEnd = c.naturalFrames)

instance (c : AudioClip) (n : ℕ) : Decidable (c.loopResets n) :=
  inferInstanceAs (Decidable (_ ∨ _ ∨ _))

theorem naturalFrames_setEvents (events : List EngineAudioEvent) (c : AudioClip) :
    (c.setEvents events).naturalFrames =
      if events = [] then c.samples.length / max c.channels 1
      else (events.map EngineAudioEvent.stop).foldr max 0 := by
  obtain ⟨hevents, _, hsamples, hchannels, _⟩ := setEvents_frame events c
  unfold naturalFrames
  rw [hevents, hsamples, hchannels]
  simp

theorem loopRegion_setEvents (events : List EngineAudioEvent) (c : AudioClip) {n : ℕ}
    (hn : (c.setEvents events).naturalFrames = n) :
    (c.setEvents events).loopRegion =
      if c.clipLoopEnabled = true ∧ 0 < n then
        if c.loopResets n then (true, 0, n) else c.loopRegion
      else if 0 < n ∧ c.clipLoopEnd = 0 then (true, 0, n)
      else c.loopRegion := by
  have hedited : ({ c with
      events := events
      fade := { c.fade with prevFrame := noPrevFrame, xfadeRemaining := 0 } } : AudioClip).naturalFrames =
        n := by
    rw [← hn]
    unfold naturalFrames
    obtain ⟨hevents, _, hsamples, hchannels, _⟩ := setEvents_frame events c
    rw [hevents, hsamples, hchannels]
  unfold setEvents
  simp only [hedited]
  by_cases hon : c.clipLoopEnabled = true ∧ 0 < n
  · rw [if_pos hon, if_pos hon]
    have hresets : (c.clipLoopEnd = 0 ∨ n < c.clipLoopEnd ∨
        (c.clipLoopEnabled && decide (c.clipLoopStart = 0) &&
          (decide (c.clipLoopEnd = 0) || decide (c.clipLoopEnd = c.samples.length / max c.channels 1) ||
            (c.events.isEmpty && decide (c.clipLoopEnd = c.naturalFrames)))) = true) ↔
        c.loopResets n := by
      unfold loopResets
      simp only [Bool.and_eq_true, Bool.or_eq_true, decide_eq_true_eq, List.isEmpty_iff]
      constructor
      · rintro (h | h | ⟨⟨h₁, h₂⟩, (h | h) | h⟩)
        · exact Or.inl h
        · exact Or.inr (Or.inl h)
        · exact Or.inl h
        · exact Or.inr (Or.inr ⟨h₁, h₂, Or.inl h⟩)
        · exact Or.inr (Or.inr ⟨h₁, h₂, Or.inr h⟩)
      · rintro (h | h | ⟨h₁, h₂, h | h⟩)
        · exact Or.inl h
        · exact Or.inr (Or.inl h)
        · exact Or.inr (Or.inr ⟨⟨h₁, h₂⟩, Or.inl (Or.inr h)⟩)
        · exact Or.inr (Or.inr ⟨⟨h₁, h₂⟩, Or.inr h⟩)
    by_cases hreset : c.loopResets n
    · rw [if_pos (hresets.mpr hreset), if_pos hreset, loopRegion, hon.1]
    · rw [if_neg (fun h => hreset (hresets.mp h)), if_neg hreset]
      rfl
  · rw [if_neg hon, if_neg hon]
    split <;> rfl

theorem regionOf_enabled {start stop : ℕ} {enabled : Bool} {n : ℕ}
    (h : (regionOf start stop enabled n).1 = true) :
    enabled = true ∧ start < n ∧
      regionOf start stop enabled n = (true, start, if start < stop then min stop n else n) := by
  unfold regionOf at h ⊢
  split at h
  case isTrue hon =>
    rw [if_pos hon]
    exact ⟨hon.1, hon.2, rfl⟩
  case isFalse => exact absurd h (by simp)

theorem regionOf_disabled {start stop : ℕ} {enabled : Bool} {n : ℕ}
    (h : (regionOf start stop enabled n).1 = false) :
    regionOf start stop enabled n = (false, 0, 0) := by
  unfold regionOf at h ⊢
  split at h
  case isTrue => exact absurd h (by simp)
  case isFalse hoff => rw [if_neg hoff]

/-- When the loop of a clip that stands for a region stands for the same region on new events of `n`
frames: either the engine puts it over the whole clip and that is what the region means there, or the
engine leaves it and the region does not reach the end. -/
def loopFollows (c : AudioClip) (start stop : ℕ) (enabled : Bool) (n : ℕ) : Prop :=
  if n = 0 then c.clipLoopEnabled = false
  else if c.clipLoopEnabled = true ∧ ¬ c.loopResets n then
    n = c.naturalFrames ∨ (start < stop ∧ stop ≤ c.naturalFrames ∧ stop ≤ n)
  else enabled = true ∧ start = 0 ∧ (stop = 0 ∨ n ≤ stop)

theorem loopRegion_setEvents_iff {c : AudioClip} {start stop : ℕ} {enabled : Bool}
    (h : c.loopRegion = regionOf start stop enabled c.naturalFrames) (events : List EngineAudioEvent)
    {n : ℕ} (hn : (c.setEvents events).naturalFrames = n) :
    (c.setEvents events).loopRegion = regionOf start stop enabled n ↔
      c.loopFollows start stop enabled n := by
  have hflag : (regionOf start stop enabled c.naturalFrames).1 = c.clipLoopEnabled := by rw [← h]; rfl
  rw [loopRegion_setEvents events c hn]
  unfold loopFollows
  obtain rfl | hpos := Nat.eq_zero_or_pos n
  · have hzero : regionOf start stop enabled 0 = (false, 0, 0) := by simp [regionOf]
    rw [if_neg (by omega), if_neg (by omega), if_pos rfl, hzero]
    constructor
    · intro hregion
      exact congrArg Prod.fst hregion
    · intro hoff
      rw [h, regionOf_disabled (hflag.trans hoff)]
  · have hwhole := regionOf_whole_iff start stop enabled n
    rw [decide_eq_true hpos] at hwhole
    have hn0 : n ≠ 0 := by omega
    have hset : (true, 0, n) = regionOf start stop enabled n ↔
        enabled = true ∧ start = 0 ∧ (stop = 0 ∨ n ≤ stop) := by
      rw [eq_comm, hwhole]
      exact or_iff_right hn0
    rw [if_neg hn0]
    by_cases hon : c.clipLoopEnabled = true
    · rw [if_pos ⟨hon, hpos⟩]
      obtain ⟨henabled, hstart, hregion⟩ := regionOf_enabled (hflag.trans hon)
      by_cases hreset : c.loopResets n
      · rw [if_pos hreset, if_neg (fun h => h.2 hreset), hset]
      · rw [if_neg hreset, if_pos ⟨hon, hreset⟩, h, hregion]
        -- the engine left the loop, which ends within the new frames
        have hle : (if start < stop then min stop c.naturalFrames else c.naturalFrames) ≤ n := by
          have hend : c.clipLoopEnd = if start < stop then min stop c.naturalFrames else c.naturalFrames :=
            congrArg (fun region => region.2.2) (h.trans hregion)
          have hnot : ¬ n < c.clipLoopEnd := fun hlt => hreset (Or.inr (Or.inl hlt))
          rw [← hend]
          omega
        have hstart' : start < n := by
          split at hle <;> omega
        have hkept : regionOf start stop enabled n =
            (true, start, if start < stop then min stop n else n) := if_pos ⟨henabled, hstart'⟩
        rw [hkept]
        simp only [Prod.mk.injEq, true_and]
        split at hle
        · rename_i hstop
          simp only [hstop, if_true, true_and]
          omega
        · rename_i hstop
          simp only [hstop, if_false, false_and, or_false]
          omega
    · have hoff : c.clipLoopEnabled = false := by simpa using hon
      have hend : c.clipLoopEnd = 0 := by
        have hregion := h.trans (regionOf_disabled (hflag.trans hoff))
        exact congrArg (fun region => region.2.2) hregion
      rw [if_neg (fun h => hon h.1), if_pos ⟨hpos, hend⟩, if_neg (fun h => hon h.1), hset]

theorem naturalFrames_setLoop (start stop : ℕ) (enabled : Bool) (c : AudioClip) :
    (c.setLoop start stop enabled).naturalFrames = c.naturalFrames := by
  obtain ⟨hevents, _, hsamples, hchannels, _⟩ := setLoop_frame start stop enabled c
  unfold naturalFrames
  rw [hevents, hsamples, hchannels]

end AudioClip

namespace AudioEngine

variable {ν : Type}

def cell? (e : AudioEngine ν) (track scene : ℕ) : Option AudioClip :=
  e.clips.find? (AudioClip.inCell track scene)

/-- The clips with the id are those of the cell; OpenLive does not look at the id. -/
def Addresses (e : AudioEngine ν) (id track scene : ℕ) : Prop :=
  e.mode = .openLive ∨ ∀ c ∈ e.clips, c.id = id ↔ c.trackIndex = track ∧ c.sceneIndex = scene

theorem cell_spec {e : AudioEngine ν} {track scene : ℕ} {c : AudioClip}
    (h : e.cell? track scene = some c) :
    c ∈ e.clips ∧ c.trackIndex = track ∧ c.sceneIndex = scene :=
  ⟨List.mem_of_find?_eq_some h, AudioClip.inCell_iff.mp (List.find?_some h)⟩

/-! ## Adding -/

theorem naturalFrames_clipInstance (e : AudioEngine ν) (id track scene : ℕ) (samples : List ℚ)
    (startSecs durationSecs offsetSecs : ℚ) (channels : ℕ) (isMatrixClip : Bool) :
    (e.clipInstance id track scene samples startSecs durationSecs offsetSecs channels
      isMatrixClip).naturalFrames = samples.length / max channels 1 := by
  simp [AudioClip.naturalFrames, clipInstance]

/-- A clip of the matrix starts with a loop over all of it. -/
theorem loopRegion_clipInstance (e : AudioEngine ν) (id track scene : ℕ) (samples : List ℚ)
    (startSecs durationSecs offsetSecs : ℚ) (channels : ℕ) :
    (e.clipInstance id track scene samples startSecs durationSecs offsetSecs channels
      true).loopRegion =
        (decide (0 < samples.length / max channels 1), 0, samples.length / max channels 1) := by
  unfold AudioClip.loopRegion clipInstance
  simp only [Bool.true_and]
  obtain hzero | hpos := Nat.eq_zero_or_pos (samples.length / max channels 1)
  · rw [hzero]
    rfl
  · rw [decide_eq_true hpos]
    rfl


theorem addressed_eq_inCell {e : AudioEngine ν} {id track scene : ℕ} (h : e.Addresses id track scene)
    {c : AudioClip} (hc : c ∈ e.clips) :
    AudioClip.addressed e.mode id track scene c = c.inCell track scene := by
  obtain hlive | hids := h
  · rw [hlive]
    rfl
  · cases hmode : e.mode with
    | openLive => rfl
    | openStudio =>
      rw [Bool.eq_iff_iff, AudioClip.inCell_iff]
      exact Iff.trans (by simp [AudioClip.addressed]) (hids c hc)

theorem mem_addClip {e : AudioEngine ν} {c d : AudioClip} (h : d ∈ (e.addClip c).clips) :
    d = c ∨ d ∈ e.clips := by
  unfold addClip at h
  simp only [apply_ite AudioEngine.clips] at h
  exact mem_updateFirst_or_append h

theorem addClip_frame (e : AudioEngine ν) (c : AudioClip) :
    (e.addClip c).mode = e.mode ∧ (e.addClip c).sampleRate = e.sampleRate := by
  unfold addClip
  simp only
  split <;> exact ⟨rfl, rfl⟩

theorem cell?_addClip {e : AudioEngine ν} {c : AudioClip}
    (h : e.Addresses c.id c.trackIndex c.sceneIndex) (track scene : ℕ) :
    (e.addClip c).cell? track scene =
      if track = c.trackIndex ∧ scene = c.sceneIndex then some c else e.cell? track scene := by
  let own := AudioClip.inCell c.trackIndex c.sceneIndex
  have hown : own c = true := AudioClip.inCell_iff.mpr ⟨rfl, rfl⟩
  have hsame : ∀ d ∈ e.clips, AudioClip.addressed e.mode c.id c.trackIndex c.sceneIndex d = own d :=
    fun d hd => addressed_eq_inCell h hd
  unfold addClip cell?
  simp only
  by_cases hcell : track = c.trackIndex ∧ scene = c.sceneIndex
  · rw [if_pos hcell, hcell.1, hcell.2]
    split
    case isTrue hany =>
      obtain ⟨d, hd, haddr⟩ := List.any_eq_true.mp hany
      obtain ⟨found, hfound⟩ := Option.isSome_iff_exists.mp (List.find?_isSome.mpr ⟨d, hd, haddr⟩)
      refine (find?_updateFirst_self (fun d hd => (hsame d hd).symm) (fun _ _ => hown)).trans ?_
      rw [hfound]
      rfl
    case isFalse hany =>
      have hnone : e.clips.find? own = none := by
        rw [List.find?_eq_none]
        intro d hd hdown
        exact hany (List.any_eq_true.mpr ⟨d, hd, by rw [hsame d hd, hdown]⟩)
      rw [List.find?_append, hnone, Option.none_or, List.find?_cons_of_pos hown]
  · rw [if_neg hcell]
    have hother : AudioClip.inCell track scene c = false := AudioClip.not_inCell_of_ne hown hcell
    split
    · refine find?_updateFirst_other fun d hd haddr => ⟨?_, hother⟩
      rw [hsame d hd] at haddr
      exact AudioClip.not_inCell_of_ne haddr hcell
    · rw [List.find?_append, List.find?_cons_of_neg (by simp [hother]), List.find?_nil,
        Option.or_none]

/-! ## Editing -/

theorem find?_updateCell (clips : List AudioClip) (track scene : ℕ) {f : AudioClip → AudioClip}
    (hf : ∀ c, (f c).trackIndex = c.trackIndex ∧ (f c).sceneIndex = c.sceneIndex) (t s : ℕ) :
    (updateFirst (AudioClip.inCell track scene) f clips).find? (AudioClip.inCell t s) =
      if t = track ∧ s = scene then (clips.find? (AudioClip.inCell track scene)).map f
      else clips.find? (AudioClip.inCell t s) := by
  have hcell : ∀ c t s, AudioClip.inCell t s (f c) = AudioClip.inCell t s c := by
    intro c t s
    unfold AudioClip.inCell
    rw [(hf c).1, (hf c).2]
  by_cases hat : t = track ∧ s = scene
  · rw [if_pos hat, hat.1, hat.2]
    exact find?_updateFirst_self (fun _ _ => rfl) (fun c hc => by rw [hcell, hc])
  · rw [if_neg hat]
    refine find?_updateFirst_other fun c _ hc => ?_
    rw [hcell]
    exact ⟨AudioClip.not_inCell_of_ne hc hat, AudioClip.not_inCell_of_ne hc hat⟩

theorem cell?_setClipEvents (e : AudioEngine ν) (track scene : ℕ) (events : List EngineAudioEvent)
    (t s : ℕ) :
    (e.setClipEvents track scene events).cell? t s =
      if t = track ∧ s = scene then (e.cell? track scene).map (AudioClip.setEvents events)
      else e.cell? t s :=
  find?_updateCell e.clips track scene
    (fun c => ⟨(setEvents_fields events c).2.2.1, (setEvents_fields events c).2.2.2⟩) t s

theorem cell?_setClipLoop (e : AudioEngine ν) (track scene : ℕ) (startSecs endSecs : ℚ)
    (enabled : Bool) (t s : ℕ) :
    (e.setClipLoop track scene startSecs endSecs enabled).cell? t s =
      if t = track ∧ s = scene then
        (e.cell? track scene).map (AudioClip.setLoop ⌊max startSecs 0 * max e.sampleRate 1⌋₊
          ⌊max endSecs 0 * max e.sampleRate 1⌋₊ enabled)
      else e.cell? t s :=
  find?_updateCell e.clips track scene
    (fun c => ⟨(setLoop_fields _ _ enabled c).2.2.1, (setLoop_fields _ _ enabled c).2.2.2⟩) t s

/-! ## What the matrix finds a clip by -/

/-- The id of a clip, its cell and whether it is of the matrix. -/
def key (c : AudioClip) : ℕ × ℕ × ℕ × Bool :=
  (c.id, c.trackIndex, c.sceneIndex, c.isMatrixClip)

theorem exists_key {as bs : List AudioClip} (h : as.map key = bs.map key) {a : AudioClip}
    (ha : a ∈ as) : ∃ b ∈ bs, key b = key a := by
  have hmem : key a ∈ bs.map key := by
    rw [← h]
    exact List.mem_map_of_mem ha
  exact List.mem_map.mp hmem

theorem Addresses.of_keys {e e' : AudioEngine ν} {id track scene : ℕ} (h : e.Addresses id track scene)
    (hmode : e'.mode = e.mode) (hkeys : e'.clips.map key = e.clips.map key) :
    e'.Addresses id track scene := by
  obtain hlive | hids := h
  · exact Or.inl (hmode.trans hlive)
  · refine Or.inr fun c hc => ?_
    obtain ⟨d, hd, hkey⟩ := exists_key hkeys hc
    obtain ⟨hid, htrack, hscene, _⟩ : d.id = c.id ∧ d.trackIndex = c.trackIndex ∧
        d.sceneIndex = c.sceneIndex ∧ d.isMatrixClip = c.isMatrixClip := by simpa [key] using hkey
    rw [← hid, ← htrack, ← hscene]
    exact hids d hd

theorem keys_setClipEvents (e : AudioEngine ν) (track scene : ℕ) (events : List EngineAudioEvent) :
    (e.setClipEvents track scene events).clips.map key = e.clips.map key := by
  refine map_updateFirst _ _ (fun c => ?_) _
  obtain ⟨_, _, htrack, hscene⟩ := setEvents_fields events c
  obtain ⟨_, hmatrix, _, _, hid⟩ := AudioClip.setEvents_frame events c
  unfold key
  rw [hid, htrack, hscene, hmatrix]

theorem keys_setClipLoop (e : AudioEngine ν) (track scene : ℕ) (startSecs endSecs : ℚ)
    (enabled : Bool) :
    (e.setClipLoop track scene startSecs endSecs enabled).clips.map key = e.clips.map key := by
  refine map_updateFirst _ _ (fun c => ?_) _
  obtain ⟨_, _, htrack, hscene⟩ := setLoop_fields ⌊max startSecs 0 * max e.sampleRate 1⌋₊
    ⌊max endSecs 0 * max e.sampleRate 1⌋₊ enabled c
  obtain ⟨_, hmatrix, _, _, hid⟩ := AudioClip.setLoop_frame ⌊max startSecs 0 * max e.sampleRate 1⌋₊
    ⌊max endSecs 0 * max e.sampleRate 1⌋₊ enabled c
  unfold key
  rw [hid, htrack, hscene, hmatrix]

/-! ## Triggering -/

theorem find?_mapCells (clips : List AudioClip) {f : AudioClip → AudioClip}
    (hf : ∀ c, (f c).trackIndex = c.trackIndex ∧ (f c).sceneIndex = c.sceneIndex) (t s : ℕ) :
    (clips.map f).find? (AudioClip.inCell t s) = (clips.find? (AudioClip.inCell t s)).map f := by
  rw [List.find?_map]
  congr 2
  funext c
  unfold Function.comp AudioClip.inCell
  rw [(hf c).1, (hf c).2]

theorem targetPlaying_eq (e : AudioEngine ν) (track scene : ℕ) :
    e.targetPlaying track scene = ((e.cell? track scene).map AudioClip.isPlaying).getD false := rfl

theorem cell?_triggerClip (e : AudioEngine ν) (track scene t s : ℕ) :
    (e.triggerClip track scene).cell? t s = (e.cell? t s).map fun c =>
      if t = track then
        if s = scene ∧ !e.targetPlaying track scene then
          c.start (e.triggerOrigin track).1 (e.triggerOrigin track).2
        else c.stopped
      else c := by
  have hcell := find?_mapCells e.clips (f := fun c =>
    if c.trackIndex = track then
      if c.sceneIndex = scene ∧ !e.targetPlaying track scene then
        c.start (e.triggerOrigin track).1 (e.triggerOrigin track).2
      else c.stopped
    else c) (fun c => by split_ifs <;> exact ⟨rfl, rfl⟩) t s
  refine hcell.trans ?_
  change (e.cell? t s).map _ = _
  cases h : e.cell? t s with
  | none => rfl
  | some c =>
    obtain ⟨_, rfl, rfl⟩ := cell_spec h
    rfl

/-- A toggle turns the clip of its cell around, where there is one, and the rest of the track off. -/
theorem targetPlaying_triggerClip (e : AudioEngine ν) (track scene t s : ℕ) :
    (e.triggerClip track scene).targetPlaying t s =
      if t = track then
        decide (s = scene) && (e.cell? track scene).isSome && !e.targetPlaying track scene
      else e.targetPlaying t s := by
  rw [targetPlaying_eq, cell?_triggerClip, targetPlaying_eq e t s]
  by_cases ht : t = track
  · subst ht
    simp only [if_true]
    by_cases hs : s = scene
    · subst hs
      cases e.cell? t s with
      | none => simp
      | some c =>
        cases e.targetPlaying t s <;> simp [AudioClip.start, AudioClip.stopped]
    · cases e.cell? t s <;> simp [hs, AudioClip.stopped]
  · simp only [if_neg ht]
    cases e.cell? t s <;> rfl

theorem cell?_triggerScene (e : AudioEngine ν) (scene t s : ℕ) :
    (e.triggerScene scene).cell? t s = (e.cell? t s).map fun c =>
      if s = scene then c.start e.transport.sampleCount e.absoluteFrame
      else if (e.cell? t scene).isSome then c.stopped
      else c := by
  have hcell := find?_mapCells e.clips (f := fun c =>
    if c.sceneIndex = scene then c.start e.transport.sampleCount e.absoluteFrame
    else if e.clips.any (AudioClip.inCell c.trackIndex scene) then c.stopped
    else c) (fun c => by split_ifs <;> exact ⟨rfl, rfl⟩) t s
  refine hcell.trans ?_
  change (e.cell? t s).map _ = _
  cases h : e.cell? t s with
  | none => rfl
  | some c =>
    obtain ⟨_, rfl, rfl⟩ := cell_spec h
    have hany : (e.cell? c.trackIndex scene).isSome =
        e.clips.any (AudioClip.inCell c.trackIndex scene) := by
      rw [Bool.eq_iff_iff, cell?, List.find?_isSome, List.any_eq_true]
    rw [hany]
    rfl

/-- A launched scene plays where it has a clip, alone on the track, and leaves the other tracks. -/
theorem targetPlaying_triggerScene (e : AudioEngine ν) (scene t s : ℕ) :
    (e.triggerScene scene).targetPlaying t s =
      if (e.cell? t scene).isSome then decide (s = scene) else e.targetPlaying t s := by
  rw [targetPlaying_eq, cell?_triggerScene, targetPlaying_eq e t s]
  by_cases hs : s = scene
  · subst hs
    cases e.cell? t s <;> simp [AudioClip.start]
  · simp only [if_neg hs]
    by_cases hsome : (e.cell? t scene).isSome = true
    · simp only [hsome, if_true]
      cases h : e.cell? t s with
      | none => simp [hs]
      | some c => simp [hs, AudioClip.stopped]
    · simp only [hsome]
      cases e.cell? t s <;> rfl

/-- Whether the clip of a cell plays and its voice is not over. -/
def voiceActive (e : AudioEngine ν) (track scene : ℕ) : Bool :=
  match e.cell? track scene with
  | none => false
  | some c => c.isPlaying && decide (c.voiceStateLinear e.absoluteFrame e.transport = .active)

theorem targetPlaying_of_voiceActive {e : AudioEngine ν} {track scene : ℕ}
    (h : e.voiceActive track scene = true) : e.targetPlaying track scene = true := by
  unfold voiceActive at h
  rw [targetPlaying_eq]
  cases hc : e.cell? track scene with
  | none => simp [hc] at h
  | some c =>
    simp only [hc, Bool.and_eq_true] at h
    exact h.1

/-- All a trigger does to a clip. -/
def Toggles (f : AudioClip → AudioClip) : Prop :=
  ∀ c, ∃ playing startFrame startAbsolute fade, f c = { c with
    isPlaying := playing, startFrame := startFrame, startAbsolute := startAbsolute, fade := fade }

theorem toggles_id : Toggles id :=
  fun c => ⟨c.isPlaying, c.startFrame, c.startAbsolute, c.fade, rfl⟩

theorem Toggles.comp {f g : AudioClip → AudioClip} (hf : Toggles f) (hg : Toggles g) :
    Toggles (f ∘ g) := by
  intro c
  obtain ⟨_, _, _, _, hgc⟩ := hg c
  obtain ⟨playing, startFrame, startAbsolute, fade, hfc⟩ := hf (g c)
  refine ⟨playing, startFrame, startAbsolute, fade, ?_⟩
  rw [Function.comp, hfc, hgc]

theorem triggerClip_toggles (e : AudioEngine ν) (track scene : ℕ) :
    ∃ f, Toggles f ∧ (e.triggerClip track scene).clips = e.clips.map f := by
  refine ⟨_, ?_, rfl⟩
  intro c
  simp only
  split_ifs
  · exact ⟨_, _, _, _, rfl⟩
  · exact ⟨_, _, _, _, rfl⟩
  · exact ⟨_, _, _, _, rfl⟩

theorem triggerScene_toggles (e : AudioEngine ν) (scene : ℕ) :
    ∃ f, Toggles f ∧ (e.triggerScene scene).clips = e.clips.map f := by
  refine ⟨_, ?_, rfl⟩
  intro c
  simp only
  split_ifs
  · exact ⟨_, _, _, _, rfl⟩
  · exact ⟨_, _, _, _, rfl⟩
  · exact ⟨_, _, _, _, rfl⟩

end AudioEngine

end HikaruOpenLive.Engine
