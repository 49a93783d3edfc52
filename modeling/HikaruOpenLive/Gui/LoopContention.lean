import HikaruOpenLive.Gui.CommandLoop

/-! # Commands that meet the audio callback

Along a run in which no command loses a try for the lock, the mixer that was asked for is the engine's
with the mixer commands still in the queue applied to it.
-/
set_option autoImplicit false

namespace HikaruOpenLive.Gui

open Engine Foundations.Runs

variable {ν β : Type} (host : PluginHost ν) (stage : OutputStage β)

theorem decodeClips_eq_iff (files : Files) (sr sr' : ℚ) (clips : List AudioClipData) :
    decodeClips files sr clips = decodeClips files sr' clips ↔
      ∀ clip ∈ clips, ∀ data, files clip.path = some data → data.atRate sr = data.atRate sr' := by
  induction clips with
  | nil => simp [decodeClips]
  | cons clip clips ih =>
    unfold decodeClips at ih ⊢
    rw [List.forall_mem_cons, ← ih, List.filterMap_cons, List.filterMap_cons]
    cases hfile : files clip.path with
    | none => simp
    | some data => simp

namespace CommandLoop

def mixerCommand : LoopCommand ν → Option MixerCommand
  | .mixer cmd => some cmd
  | _ => none

/-- The mixer once the commands in the queue have been carried out. -/
def pendingMixer (s : CommandLoop ν) : Mixer :=
  (s.queue.filterMap mixerCommand).foldl Mixer.apply s.engine.mixer

structure Tracked (s : CommandLoop ν) : Prop where
  sync : ∀ job, s.sync = some job →
    job.targetSr = if job.overlapped then 44100 else s.engine.sampleRate
  wanted : s.wanted = s.pendingMixer

theorem tracked_init (e : AudioEngine ν) : (init e).Tracked :=
  ⟨fun _ h => absurd h (by simp [init]), rfl⟩

theorem Tracked.mixerOk {s : CommandLoop ν} (hs : s.Tracked) : s.MixerOk := by
  intro hqueue
  rw [hs.wanted, pendingMixer, hqueue]
  rfl

theorem process_keeps (e : AudioEngine ν) (frames : ℕ) :
    (e.process host stage frames).2.mixer = e.mixer ∧
      (e.process host stage frames).2.sampleRate = e.sampleRate := by
  unfold AudioEngine.process
  split
  · split <;> exact ⟨rfl, rfl⟩
  · exact ⟨rfl, rfl⟩

/-! ## One step -/

theorem commandStep_sync {s : CommandLoop ν} {job : SyncJob} (h : s.sync = some job)
    (files : Files) : s.commandStep host stage files =
      if s.audioHoldsLock then s
      else { s with
        sync := none, engine := syncClips s.engine (decodeClips files job.targetSr job.clips) } := by
  simp only [commandStep, h]

theorem commandStep_mixer {s : CommandLoop ν} (h : s.sync = none) {cmd : MixerCommand}
    {queue : List (LoopCommand ν)} (hqueue : s.queue = .mixer cmd :: queue) (files : Files) :
    s.commandStep host stage files =
      if s.audioHoldsLock then { s with queue := queue }
      else { s with queue := queue, engine := s.engine.applyMixer cmd } := by
  simp only [commandStep, h, hqueue]

theorem commandStep_syncPlaylistClips {s : CommandLoop ν} (h : s.sync = none)
    {clips : List AudioClipData} {queue : List (LoopCommand ν)}
    (hqueue : s.queue = .syncPlaylistClips clips :: queue) (files : Files) :
    s.commandStep host stage files =
      { s with
        queue := queue
        sync := some ⟨clips, if s.audioHoldsLock then 44100 else s.engine.sampleRate,
          s.audioHoldsLock⟩ } := by
  simp only [commandStep, h, hqueue]

theorem commandStep_waiting {s : CommandLoop ν} (h : s.sync = none) {cmd : WaitingCommand ν}
    {queue : List (LoopCommand ν)} (hqueue : s.queue = .waiting cmd :: queue) (files : Files) :
    s.commandStep host stage files =
      if s.audioHoldsLock then s
      else { s with queue := queue, engine := cmd.run host stage files s.engine } := by
  simp only [commandStep, h, hqueue]

theorem commandStep_nil {s : CommandLoop ν} (h : s.sync = none) (hqueue : s.queue = [])
    (files : Files) : s.commandStep host stage files = s := by
  simp only [commandStep, h, hqueue]

theorem executed_iff_of_sync {s : CommandLoop ν} (hs : s.Tracked) {job : SyncJob}
    (hsync : s.sync = some job) (files : Files) :
    s.Executed host stage (.commandStep files) ↔ s.Uncontended (.commandStep files) := by
  have hstep := commandStep_sync host stage hsync files
  have htarget := hs.sync job hsync
  simp only [Executed, Uncontended, hsync]
  by_cases hlock : s.audioHoldsLock = true
  · rw [if_pos hlock] at hstep
    exact iff_of_true (Or.inl hstep) (Or.inl hlock)
  · rw [if_neg hlock] at hstep
    have hdone : s.commandStep host stage files ≠ s := by
      intro h
      have hnone := congrArg CommandLoop.sync (hstep.symm.trans h)
      exact absurd (hnone.trans hsync) (by simp)
    rw [or_iff_right hdone, or_iff_right hlock]
    by_cases hover : job.overlapped = true
    · rw [if_pos hover] at htarget
      rw [htarget] at hstep ⊢
      rw [decodeClips_eq_iff, hover, Bool.true_eq_false, false_or, and_iff_left_iff_imp]
      intro h
      rw [hstep, (decodeClips_eq_iff files 44100 s.engine.sampleRate job.clips).mpr h]
    · rw [if_neg hover] at htarget
      rw [htarget] at hstep ⊢
      refine iff_of_true ⟨rfl, ?_⟩ (Or.inl (by simpa using hover))
      rw [hstep]

theorem executed_iff_of_mixer {s : CommandLoop ν} (hsync : s.sync = none) {cmd : MixerCommand}
    {queue : List (LoopCommand ν)} (hqueue : s.queue = .mixer cmd :: queue) (files : Files) :
    s.Executed host stage (.commandStep files) ↔ s.Uncontended (.commandStep files) := by
  have hstep := commandStep_mixer host stage hsync hqueue files
  simp only [Executed, Uncontended, hsync, hqueue]
  by_cases hlock : s.audioHoldsLock = true
  · rw [if_pos hlock] at hstep
    have htaken : s.commandStep host stage files ≠ s := by
      intro h
      have htail := (congrArg CommandLoop.queue (hstep.symm.trans h)).trans hqueue
      exact absurd (congrArg List.length htail) (by simp)
    have hengine : (s.commandStep host stage files).engine = s.engine := by
      rw [hstep]
    rw [or_iff_right htaken, hengine, hlock, Bool.true_eq_false, false_or]
    constructor
    · intro h
      exact (congrArg AudioEngine.mixer h).symm
    · intro h
      rw [AudioEngine.applyMixer, h]
  · rw [if_neg hlock] at hstep
    refine iff_of_true (Or.inr ?_) (Or.inl (by simpa using hlock))
    rw [hstep]

theorem executed_of_waiting {s : CommandLoop ν} (hsync : s.sync = none) {cmd : WaitingCommand ν}
    {queue : List (LoopCommand ν)} (hqueue : s.queue = .waiting cmd :: queue) (files : Files) :
    s.Executed host stage (.commandStep files) := by
  have hstep := commandStep_waiting host stage hsync hqueue files
  simp only [Executed, hsync, hqueue]
  by_cases hlock : s.audioHoldsLock = true
  · rw [if_pos hlock] at hstep
    exact Or.inl hstep
  · rw [if_neg hlock] at hstep
    exact Or.inr (congrArg CommandLoop.engine hstep)

theorem executed_iff {s : CommandLoop ν} (hs : s.Tracked) (act : LoopAct ν) :
    s.Executed host stage act ↔ s.Uncontended act := by
  cases act with
  | send cmd => exact Iff.rfl
  | audioBegin => exact Iff.rfl
  | audioEnd frames => exact Iff.rfl
  | commandStep files =>
    cases hsync : s.sync with
    | some job => exact executed_iff_of_sync host stage hs hsync files
    | none =>
      cases hqueue : s.queue with
      | nil => simp only [Executed, Uncontended, hsync, hqueue]
      | cons cmd queue =>
        cases cmd with
        | syncPlaylistClips clips => simp only [Executed, Uncontended, hsync, hqueue]
        | mixer cmd => exact executed_iff_of_mixer host stage hsync hqueue files
        | waiting cmd =>
          refine iff_of_true (executed_of_waiting host stage hsync hqueue files) ?_
          simp only [Uncontended, hsync, hqueue]

theorem Tracked.send {s : CommandLoop ν} (hs : s.Tracked) (cmd : LoopCommand ν) :
    (s.step host stage (.send cmd)).Tracked := by
  refine ⟨hs.sync, ?_⟩
  have hwanted := hs.wanted
  unfold pendingMixer at hwanted ⊢
  simp only [step, List.filterMap_append, List.foldl_append]
  rw [← hwanted]
  cases cmd with
  | mixer cmd => rfl
  | syncPlaylistClips clips => rfl
  | waiting cmd => rfl

theorem Tracked.audioEnd {s : CommandLoop ν} (hs : s.Tracked) (frames : ℕ) :
    (s.step host stage (.audioEnd frames)).Tracked := by
  obtain ⟨hmixer, hrate⟩ := process_keeps host stage s.engine frames
  simp only [step]
  split
  · refine ⟨fun job hjob => ?_, ?_⟩
    · simp only [hrate]
      exact hs.sync job hjob
    · simp only [pendingMixer, hmixer]
      exact hs.wanted
  · exact hs

/-- A command leaves the queue, and the engine's mixer is as if it had been carried out. -/
theorem Tracked.pop {s s' : CommandLoop ν} (hs : s.Tracked) (hsync : s'.sync = none)
    {cmd : LoopCommand ν} {queue : List (LoopCommand ν)} (hqueue : s.queue = cmd :: queue)
    (hqueue' : s'.queue = queue)
    (hmixer : s'.engine.mixer = ((mixerCommand cmd).map s.engine.mixer.apply).getD s.engine.mixer)
    (hwanted : s'.wanted = s.wanted) : s'.Tracked := by
  refine ⟨fun job hjob => absurd (hsync.symm.trans hjob) (by simp), ?_⟩
  rw [hwanted, hs.wanted, pendingMixer, pendingMixer, hqueue, hqueue', hmixer, List.filterMap_cons]
  cases mixerCommand cmd with
  | none => rfl
  | some cmd => rfl

theorem Tracked.commandStep {s : CommandLoop ν} (hs : s.Tracked) (files : Files)
    (hact : s.Uncontended (.commandStep files)) : (s.commandStep host stage files).Tracked := by
  cases hsync : s.sync with
  | some job =>
    rw [commandStep_sync host stage hsync]
    split
    · exact hs
    · refine ⟨fun _ h => absurd h (by simp), ?_⟩
      simp only [pendingMixer, mixer_syncClips]
      exact hs.wanted
  | none =>
    cases hqueue : s.queue with
    | nil =>
      rw [commandStep_nil host stage hsync hqueue]
      exact hs
    | cons cmd queue =>
      cases cmd with
      | mixer cmd =>
        rw [commandStep_mixer host stage hsync hqueue]
        simp only [Uncontended, hsync, hqueue] at hact
        split
        case isTrue hlock =>
          obtain hfree | hsame := hact
          · exact absurd (hfree.symm.trans hlock) Bool.false_ne_true
          · exact hs.pop hsync hqueue rfl hsame.symm rfl
        case isFalse => exact hs.pop hsync hqueue rfl rfl rfl
      | syncPlaylistClips clips =>
        rw [commandStep_syncPlaylistClips host stage hsync hqueue]
        refine ⟨fun job hjob => ?_, ?_⟩
        · rw [← Option.some.inj hjob]
        · rw [pendingMixer, hs.wanted, pendingMixer, hqueue]
          rfl
      | waiting cmd =>
        rw [commandStep_waiting host stage hsync hqueue]
        split
        · exact hs
        · exact hs.pop hsync hqueue rfl (cmd.mixer_run host stage files s.engine) rfl

theorem Tracked.step {s : CommandLoop ν} (hs : s.Tracked) {act : LoopAct ν}
    (hact : s.Uncontended act) : (s.step host stage act).Tracked := by
  cases act with
  | send cmd => exact hs.send host stage cmd
  | audioBegin => exact ⟨hs.sync, hs.wanted⟩
  | audioEnd frames => exact hs.audioEnd host stage frames
  | commandStep files => exact hs.commandStep host stage files hact

/-! ## Runs -/

/-- The commands are all carried out as sent, and the mixer is the one asked for whenever the queue is
empty, in exactly the runs whose steps all meet `Uncontended`. -/
theorem along_executed_iff_along_uncontended (e : AudioEngine ν) (acts : List (LoopAct ν)) :
    (Along (step host stage) (Executed host stage) (init e) acts ∧
        Always (step host stage) MixerOk (init e) acts) ↔
      Along (step host stage) Uncontended (init e) acts := by
  have hiff : Along (step host stage) (Executed host stage) (init e) acts ↔
      Along (step host stage) Uncontended (init e) acts :=
    along_iff_along (fun _ act hs hact => hs.step host stage hact)
      (fun _ act hs => executed_iff host stage hs act) (tracked_init e)
  rw [hiff, and_iff_left_iff_imp]
  intro h
  have hkeep : ∀ (s : CommandLoop ν) (act : LoopAct ν), s.Tracked → s.Uncontended act →
      (s.step host stage act).Tracked := fun _ _ hs hact => hs.step host stage hact
  exact (always_of_along hkeep (tracked_init e) h).mono fun s hs => hs.mixerOk

def tone : Files :=
  fun _ => some ⟨[0, 1, 0, -1], 48000, 1⟩

/-- A track is muted, or the playlist is synced, while the audio callback runs. -/
theorem not_along_executed_during_block :
    ¬Always (step AudioEngine.noPlugins AudioEngine.exactStage) MixerOk (init (.new 48000))
        [.send (.mixer (.setTrackMute 0 true)), .audioBegin, .commandStep tone, .audioEnd 1024] ∧
      ¬Along (step AudioEngine.noPlugins AudioEngine.exactStage)
        (Executed AudioEngine.noPlugins AudioEngine.exactStage) (init (.new 48000))
        [.send (.syncPlaylistClips [⟨1, "tone.wav", 0, 0, 0, 0⟩]), .audioBegin, .commandStep tone,
          .audioEnd 1024, .commandStep tone] := by
  constructor
  · intro h
    have hmixer := h.final rfl
    have hmute : (Mixer.trackMutes (AudioEngine.new 48000 : AudioEngine Empty).mixer) 0 = true :=
      congrFun (congrArg Mixer.trackMutes hmixer) 0
    exact Bool.noConfusion hmute
  · rintro ⟨_, _, _, _, h, _⟩
    obtain hwait | ⟨hdecoded, _⟩ := h
    · exact absurd (congrArg CommandLoop.sync hwait) (by simp [step, CommandLoop.commandStep, init])
    · exact absurd (congrArg (List.map DecodedClip.samples) hdecoded) (by decide +kernel)

end CommandLoop

end HikaruOpenLive.Gui
