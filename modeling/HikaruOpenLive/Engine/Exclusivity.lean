import HikaruOpenLive.Engine.ClipCommands

/-! # One playing clip on a track

The triggers of OpenLive stop every other clip of the track, but they find the clips to start by
cell, and OpenStudio, where clips are told apart by id, can put two clips in one cell. Firing such a
cell starts both. `exclusive_step_iff` is the exact condition on a command, `exclusive_along_iff` the
one on a run; clips added in OpenLive only never share a cell (`one_per_cell_along`).
-/
set_option autoImplicit false

namespace HikaruOpenLive.Engine

open Foundations.Runs Foundations.ListEdits

namespace AudioClip

def playsOn (track : ℕ) (c : AudioClip) : Bool :=
  c.isPlaying && decide (c.trackIndex = track)

theorem playsOn_start (startFrame startAbsolute track : ℕ) (c : AudioClip) :
    (c.start startFrame startAbsolute).playsOn track = decide (c.trackIndex = track) := rfl

theorem playsOn_stopped (track : ℕ) (c : AudioClip) : c.stopped.playsOn track = false := rfl

theorem playsOn_of_fields {track : ℕ} {c d : AudioClip} (hplay : d.isPlaying = c.isPlaying)
    (htrack : d.trackIndex = c.trackIndex) (h : d.playsOn track = true) : c.playsOn track = true := by
  unfold playsOn at h ⊢
  rw [← hplay, ← htrack]
  exact h

end AudioClip

namespace AudioEngine

variable {ν β : Type} (host : PluginHost ν) (stage : OutputStage β)

def playingOn (e : AudioEngine ν) (track : ℕ) : ℕ :=
  e.clips.countP (AudioClip.playsOn track)

def cellCount (e : AudioEngine ν) (track scene : ℕ) : ℕ :=
  e.clips.countP (AudioClip.inCell track scene)

def Exclusive (e : AudioEngine ν) : Prop :=
  ∀ track, e.playingOn track ≤ 1

/-- A trigger fires at most one clip: the pad is being stopped, or its cell holds at most one clip;
the scene's cells hold at most one clip each. -/
def FiresOne (e : AudioEngine ν) : Command → Prop
  | .triggerClip track scene => e.targetPlaying track scene = true ∨ e.cellCount track scene ≤ 1
  | .triggerScene scene => ∀ track, e.cellCount track scene ≤ 1
  | _ => True

/-! ## The commands that start nothing -/

theorem exclusive_of_le {e e' : AudioEngine ν} (h : e.Exclusive)
    (hle : ∀ track, e'.playingOn track ≤ e.playingOn track) : e'.Exclusive :=
  fun track => (hle track).trans (h track)

theorem playingOn_updateFirst_le (e : AudioEngine ν) (p : AudioClip → Bool)
    (f : AudioClip → AudioClip)
    (h : ∀ c track, (f c).playsOn track = true → c.playsOn track = true) (track : ℕ) :
    (updateFirst p f e.clips).countP (AudioClip.playsOn track) ≤ e.playingOn track :=
  countP_updateFirst_le p f (fun c _ hc => h c track hc) e.clips

theorem playingOn_addClip_le (e : AudioEngine ν) {c : AudioClip} (hc : c.isPlaying = false)
    (track : ℕ) : (e.addClip c).playingOn track ≤ e.playingOn track := by
  have hidle : ∀ track, ¬ c.playsOn track = true := by
    intro track
    simp [AudioClip.playsOn, hc]
  unfold addClip
  simp only
  split
  · exact e.playingOn_updateFirst_le _ _ (fun _ track h => absurd h (hidle track)) track
  · unfold playingOn
    simp only [List.countP_append, List.countP_singleton]
    rw [if_neg (hidle track)]
    exact le_rfl

theorem playingOn_process_le (e : AudioEngine ν) (n track : ℕ) :
    (e.process host stage n).2.playingOn track ≤ e.playingOn track := by
  obtain ⟨f, hclips, hf, _⟩ := process_clips host stage e n
  unfold playingOn
  rw [hclips]
  apply countP_map_le
  intro c hc
  obtain ⟨fade, playing, hfc, hp⟩ := hf c
  rw [hfc] at hc
  unfold AudioClip.playsOn at hc ⊢
  simp only [Bool.and_eq_true] at hc ⊢
  exact ⟨hp hc.1, hc.2⟩

theorem playingOn_stopTrack_le (e : AudioEngine ν) (stopped track : ℕ) :
    (e.stopTrack stopped).playingOn track ≤ e.playingOn track := by
  apply countP_map_le
  intro c hc
  split at hc
  · rw [AudioClip.playsOn_stopped] at hc
    exact absurd hc (by simp)
  · exact hc

/-! ## The triggers -/

theorem playingOn_triggerClip_start {e : AudioEngine ν} {track scene : ℕ}
    (h : e.targetPlaying track scene = false) :
    (e.triggerClip track scene).playingOn track = e.cellCount track scene := by
  unfold triggerClip playingOn cellCount
  simp only [h, Bool.not_false, and_true]
  rw [List.countP_map]
  congr 1
  funext c
  simp only [Function.comp]
  by_cases ht : c.trackIndex = track
  · by_cases hs : c.sceneIndex = scene
    · simp [ht, hs, AudioClip.playsOn_start, AudioClip.inCell]
    · simp [ht, hs, AudioClip.playsOn_stopped, AudioClip.inCell]
  · simp [ht, AudioClip.playsOn, AudioClip.inCell]

theorem playingOn_triggerClip_stop {e : AudioEngine ν} {track scene : ℕ}
    (h : e.targetPlaying track scene = true) :
    (e.triggerClip track scene).playingOn track = 0 := by
  unfold triggerClip playingOn
  rw [List.countP_eq_zero]
  intro c hc
  obtain ⟨d, _, rfl⟩ := List.mem_map.mp hc
  by_cases ht : d.trackIndex = track
  · simp [ht, h, AudioClip.playsOn_stopped]
  · simp [ht, AudioClip.playsOn]

theorem playingOn_triggerClip_other (e : AudioEngine ν) {track other : ℕ} (scene : ℕ)
    (h : other ≠ track) : (e.triggerClip track scene).playingOn other = e.playingOn other := by
  unfold triggerClip playingOn
  rw [List.countP_map]
  congr 1
  funext c
  simp only [Function.comp]
  by_cases ht : c.trackIndex = track
  · have hne : c.trackIndex ≠ other := fun hc => h (hc.symm.trans ht)
    have hoff : c.playsOn other = false := by
      simp [AudioClip.playsOn, hne]
    rw [if_pos ht, hoff]
    split
    · rw [AudioClip.playsOn_start]
      exact decide_eq_false hne
    · exact AudioClip.playsOn_stopped other c
  · simp [ht]

theorem exclusive_triggerClip_iff {e : AudioEngine ν} (h : e.Exclusive) (track scene : ℕ) :
    (e.triggerClip track scene).Exclusive ↔
      e.targetPlaying track scene = true ∨ e.cellCount track scene ≤ 1 := by
  have hother : ∀ other, other ≠ track → (e.triggerClip track scene).playingOn other ≤ 1 := by
    intro other hne
    rw [e.playingOn_triggerClip_other scene hne]
    exact h other
  have hall : (e.triggerClip track scene).Exclusive ↔
      (e.triggerClip track scene).playingOn track ≤ 1 := by
    constructor
    · exact fun hx => hx track
    · intro hx other
      by_cases hne : other = track
      · exact hne ▸ hx
      · exact hother other hne
  rw [hall]
  cases ht : e.targetPlaying track scene with
  | true =>
    rw [playingOn_triggerClip_stop ht]
    simp
  | false =>
    rw [playingOn_triggerClip_start ht]
    simp

theorem any_inCell_iff (e : AudioEngine ν) (track scene : ℕ) :
    e.clips.any (AudioClip.inCell track scene) = true ↔ e.cellCount track scene ≠ 0 := by
  unfold cellCount
  rw [List.any_eq_true, Nat.ne_zero_iff_zero_lt, List.countP_pos_iff]

theorem playingOn_triggerScene_absent {e : AudioEngine ν} {scene track : ℕ}
    (h : e.cellCount track scene = 0) :
    (e.triggerScene scene).playingOn track = e.playingOn track := by
  unfold triggerScene playingOn
  rw [List.countP_map]
  apply List.countP_congr
  intro c hc
  have hcell : ¬ AudioClip.inCell track scene c = true := List.countP_eq_zero.mp h c hc
  simp only [Function.comp]
  by_cases ht : c.trackIndex = track
  · have hs : c.sceneIndex ≠ scene := by
      intro hs
      exact hcell (by simp [AudioClip.inCell, ht, hs])
    have hnone : ¬ e.clips.any (AudioClip.inCell c.trackIndex scene) = true := by
      rw [ht, any_inCell_iff]
      exact fun hne => hne h
    simp [hs, hnone]
  · have hoff : ∀ d : AudioClip, d.trackIndex = c.trackIndex → ¬ d.playsOn track = true := by
      intro d hd
      simp [AudioClip.playsOn, hd, ht]
    split_ifs
    · simp [hoff, AudioClip.playsOn_start, ht]
    · simp [hoff, AudioClip.playsOn_stopped]
    · rfl

theorem playingOn_triggerScene_present {e : AudioEngine ν} {scene track : ℕ}
    (h : e.cellCount track scene ≠ 0) :
    (e.triggerScene scene).playingOn track = e.cellCount track scene := by
  unfold triggerScene playingOn cellCount
  rw [List.countP_map]
  congr 1
  funext c
  simp only [Function.comp]
  by_cases ht : c.trackIndex = track
  · have hsome : e.clips.any (AudioClip.inCell c.trackIndex scene) = true := by
      rw [ht, any_inCell_iff]
      exact h
    by_cases hs : c.sceneIndex = scene
    · simp [hs, ht, AudioClip.playsOn_start, AudioClip.inCell]
    · simp [hs, hsome, AudioClip.playsOn_stopped, AudioClip.inCell]
  · split_ifs
    · simp [AudioClip.playsOn_start, AudioClip.inCell, ht]
    · simp [AudioClip.playsOn_stopped, AudioClip.inCell, ht]
    · simp [AudioClip.playsOn, AudioClip.inCell, ht]

/-- After a scene is fired, a track plays the clips of its cell, or what it played if the cell is
empty. -/
theorem playingOn_triggerScene (e : AudioEngine ν) (scene track : ℕ) :
    (e.triggerScene scene).playingOn track =
      if e.cellCount track scene = 0 then e.playingOn track else e.cellCount track scene := by
  split
  case isTrue h => exact playingOn_triggerScene_absent h
  case isFalse h => exact playingOn_triggerScene_present h

theorem exclusive_triggerScene_iff {e : AudioEngine ν} (h : e.Exclusive) (scene : ℕ) :
    (e.triggerScene scene).Exclusive ↔ ∀ track, e.cellCount track scene ≤ 1 := by
  unfold Exclusive
  apply forall_congr'
  intro track
  rw [playingOn_triggerScene]
  split
  case isTrue hz =>
    have := h track
    omega
  case isFalse => rfl

/-! ## Runs -/

/-- One command keeps a track's playing clip alone precisely when it fires at most one clip. -/
theorem exclusive_step_iff (e : AudioEngine ν) (cmd : Command) (h : e.Exclusive) :
    (e.step host stage cmd).Exclusive ↔ e.FiresOne cmd := by
  cases cmd with
  | triggerClip track scene => exact exclusive_triggerClip_iff h track scene
  | triggerScene scene => exact exclusive_triggerScene_iff h scene
  | addClip id track scene samples s d o channels m =>
    exact ⟨fun _ => trivial, fun _ => exclusive_of_le h (e.playingOn_addClip_le rfl)⟩
  | removeClip id track scene =>
    exact ⟨fun _ => trivial, fun _ => exclusive_of_le h fun _ =>
      List.filter_sublist.countP_le⟩
  | updateClipBounds id track scene s d o =>
    exact ⟨fun _ => trivial, fun _ => exclusive_of_le h
      (e.playingOn_updateFirst_le _ _ fun c track hc => AudioClip.playsOn_of_fields rfl rfl hc)⟩
  | setClipLoop track scene s d en =>
    exact ⟨fun _ => trivial, fun _ => exclusive_of_le h
      (e.playingOn_updateFirst_le _ _ fun c track hc =>
        AudioClip.playsOn_of_fields (setLoop_fields _ _ _ c).1 (setLoop_fields _ _ _ c).2.2.1 hc)⟩
  | setClipEvents track scene events =>
    exact ⟨fun _ => trivial, fun _ => exclusive_of_le h
      (e.playingOn_updateFirst_le _ _ fun c track hc =>
        AudioClip.playsOn_of_fields (setEvents_fields _ c).1 (setEvents_fields _ c).2.2.1 hc)⟩
  | stopTrack track => exact ⟨fun _ => trivial, fun _ => exclusive_of_le h (e.playingOn_stopTrack_le _)⟩
  | process frames =>
    exact ⟨fun _ => trivial, fun _ => exclusive_of_le h (e.playingOn_process_le host stage frames)⟩
  | setMode mode => exact ⟨fun _ => trivial, fun _ => h⟩
  | play => exact ⟨fun _ => trivial, fun _ => h⟩
  | pause => exact ⟨fun _ => trivial, fun _ => h⟩
  | stop => exact ⟨fun _ => trivial, fun _ => h⟩
  | seek s => exact ⟨fun _ => trivial, fun _ => h⟩
  | setGlobalLoop s t en => exact ⟨fun _ => trivial, fun _ => h⟩

theorem exclusive_new (sampleRate : ℚ) : (new sampleRate : AudioEngine ν).Exclusive :=
  fun _ => Nat.zero_le 1

/-- Over a run from a new engine, at most one clip plays on every track in every state and in either
mode precisely when every trigger of the run fires at most one clip. -/
theorem exclusive_along_iff (sampleRate : ℚ) (cmds : List Command) :
    Always (step host stage) Exclusive (new sampleRate) cmds ↔
      Along (step host stage) FiresOne (new sampleRate) cmds :=
  always_iff_along (exclusive_step_iff host stage) (exclusive_new sampleRate)

/-- In a run whose triggers each fire at most one clip, at most one clip plays on every track
whenever the engine is in OpenLive. -/
theorem live_exclusive_along (sampleRate : ℚ) (cmds : List Command)
    (h : Along (step host stage) FiresOne (new sampleRate) cmds) :
    Always (step host stage) (fun e => e.mode = .openLive → e.Exclusive) (new sampleRate) cmds :=
  ((exclusive_along_iff host stage sampleRate cmds).mpr h).mono fun _ hx _ => hx

def livePad : List Command :=
  [.setMode .openLive, .addClip 1 0 0 [1, 1] 0 0 0 1 true, .triggerClip 0 0]

theorem live_exclusive_along_pad :
    Always (step noPlugins exactStage) (fun e => e.mode = .openLive → e.Exclusive) (new 44100)
      livePad :=
  live_exclusive_along noPlugins exactStage 44100 livePad
    ⟨trivial, trivial, Or.inr (by decide +kernel), trivial⟩

/-- Two clips added to one cell in OpenStudio both play when OpenLive fires the cell. -/
theorem studio_adds_share_cell :
    ¬ ∀ cmds : List Command, Always (step noPlugins exactStage)
      (fun e => e.mode = .openLive → e.Exclusive) (new 44100) cmds := by
  intro h
  have hfinal := (h [.addClip 1 0 0 [1, 1] 0 0 0 1 true, .addClip 2 0 0 [1, 1] 0 0 0 1 true,
    .setMode .openLive, .triggerClip 0 0]).final
  exact absurd (hfinal rfl 0) (by decide +kernel)

/-! ## Clips added in OpenLive -/

def OnePerCell (e : AudioEngine ν) : Prop :=
  ∀ track scene, e.cellCount track scene ≤ 1

def AddsLive (e : AudioEngine ν) : Command → Prop
  | .addClip .. => e.mode = .openLive
  | _ => True

theorem onePerCell_of_le {e e' : AudioEngine ν} (h : e.OnePerCell)
    (hle : ∀ track scene, e'.cellCount track scene ≤ e.cellCount track scene) : e'.OnePerCell :=
  fun track scene => (hle track scene).trans (h track scene)

theorem inCell_of_fields {track scene : ℕ} {c d : AudioClip} (htrack : d.trackIndex = c.trackIndex)
    (hscene : d.sceneIndex = c.sceneIndex) (h : d.inCell track scene = true) :
    c.inCell track scene = true := by
  unfold AudioClip.inCell at h ⊢
  rw [← htrack, ← hscene]
  exact h

theorem cellCount_map_le {e e' : AudioEngine ν} {f : AudioClip → AudioClip}
    (hclips : e'.clips = e.clips.map f)
    (hf : ∀ c, (f c).trackIndex = c.trackIndex ∧ (f c).sceneIndex = c.sceneIndex)
    (track scene : ℕ) : e'.cellCount track scene ≤ e.cellCount track scene := by
  unfold cellCount
  rw [hclips]
  exact countP_map_le f (fun c hc => inCell_of_fields (hf c).1 (hf c).2 hc) e.clips

theorem cellCount_updateFirst_le (e : AudioEngine ν) (p : AudioClip → Bool)
    {f : AudioClip → AudioClip}
    (hf : ∀ c, (f c).trackIndex = c.trackIndex ∧ (f c).sceneIndex = c.sceneIndex)
    (track scene : ℕ) :
    (updateFirst p f e.clips).countP (AudioClip.inCell track scene) ≤ e.cellCount track scene :=
  countP_updateFirst_le p f (fun c _ hc => inCell_of_fields (hf c).1 (hf c).2 hc) e.clips

theorem onePerCell_addClip {e : AudioEngine ν} (h : e.OnePerCell) (hmode : e.mode = .openLive)
    (c : AudioClip) : (e.addClip c).OnePerCell := by
  intro track scene
  have hcell : AudioClip.addressed e.mode c.id c.trackIndex c.sceneIndex =
      AudioClip.inCell c.trackIndex c.sceneIndex := by
    rw [hmode]
    rfl
  have hown : ∀ d : AudioClip, d.inCell c.trackIndex c.sceneIndex = true →
      c.inCell track scene = true → d.inCell track scene = true := by
    intro d hd hc
    simp only [AudioClip.inCell, Bool.and_eq_true, decide_eq_true_eq] at hd hc ⊢
    omega
  unfold addClip
  simp only [hcell]
  split
  case isTrue =>
    exact (countP_updateFirst_le _ _ (fun d hd hc => hown d hd hc) e.clips).trans (h track scene)
  case isFalse hnone =>
    unfold cellCount
    simp only [List.countP_append, List.countP_singleton]
    split
    case isTrue hc =>
      have hz : e.clips.countP (AudioClip.inCell track scene) = 0 := by
        rw [List.countP_eq_zero]
        intro d hd hin
        apply hnone
        rw [List.any_eq_true]
        refine ⟨d, hd, ?_⟩
        simp only [AudioClip.inCell, Bool.and_eq_true, decide_eq_true_eq] at hin hc ⊢
        omega
      omega
    case isFalse => exact h track scene

theorem onePerCell_step (e : AudioEngine ν) (cmd : Command) (h : e.OnePerCell)
    (hadd : e.AddsLive cmd) : (e.step host stage cmd).OnePerCell := by
  cases cmd with
  | addClip id track scene samples s d o channels m => exact onePerCell_addClip h hadd _
  | removeClip id track scene =>
    exact onePerCell_of_le h fun _ _ => List.filter_sublist.countP_le
  | updateClipBounds id track scene s d o =>
    exact onePerCell_of_le h (e.cellCount_updateFirst_le _ fun _ => ⟨rfl, rfl⟩)
  | setClipLoop track scene s d en =>
    exact onePerCell_of_le h (e.cellCount_updateFirst_le _ fun c => (setLoop_fields _ _ _ c).2.2)
  | setClipEvents track scene events =>
    exact onePerCell_of_le h (e.cellCount_updateFirst_le _ fun c => (setEvents_fields _ c).2.2)
  | triggerClip track scene =>
    refine onePerCell_of_le h (cellCount_map_le rfl ?_)
    intro c
    split_ifs <;> exact ⟨rfl, rfl⟩
  | triggerScene scene =>
    refine onePerCell_of_le h (cellCount_map_le rfl ?_)
    intro c
    split_ifs <;> exact ⟨rfl, rfl⟩
  | stopTrack track =>
    refine onePerCell_of_le h (cellCount_map_le rfl ?_)
    intro c
    split_ifs <;> exact ⟨rfl, rfl⟩
  | process frames =>
    obtain ⟨f, hclips, hf, _⟩ := process_clips host stage e frames
    refine onePerCell_of_le h (cellCount_map_le hclips ?_)
    intro c
    obtain ⟨fade, playing, hfc, _⟩ := hf c
    rw [hfc]
    exact ⟨rfl, rfl⟩
  | setMode mode => exact h
  | play => exact h
  | pause => exact h
  | stop => exact h
  | seek s => exact h
  | setGlobalLoop s t en => exact h

/-- As long as clips are only added in OpenLive, at most one clip plays on every track. -/
theorem exclusive_of_live_adds (sampleRate : ℚ) (cmds : List Command)
    (h : Along (step host stage) AddsLive (new sampleRate) cmds) :
    Always (step host stage) Exclusive (new sampleRate) cmds := by
  have hnew : (new sampleRate : AudioEngine ν).OnePerCell := fun _ _ => Nat.zero_le 1
  have hcells := always_of_along (onePerCell_step host stage) hnew h
  apply (exclusive_along_iff host stage sampleRate cmds).mpr
  apply hcells.along
  intro e cmd hone
  cases cmd with
  | triggerClip track scene => exact Or.inr (hone track scene)
  | triggerScene scene => exact fun track => hone track scene
  | _ => trivial

end AudioEngine

end HikaruOpenLive.Engine
