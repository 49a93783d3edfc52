import HikaruOpenLive.Foundations.Runs
import HikaruOpenLive.PluginHost.ClapInstance

/-! # The blocks a CLAP plugin is given

The plugin is activated at the first block that fits the scratch, and told then that no block is longer
than that one. Whether it keeps being true is a matter of the sizes that follow.
-/
set_option autoImplicit false

namespace HikaruOpenLive.PluginHost

open Foundations.Runs

variable {ν : Type}

structure BlockAnswers.Succeeds (answers : BlockAnswers ν) : Prop where
  activate : answers.activate = .ok ()
  start : answers.start = .ok ()

/-- A plugin that always succeeds and gives its input back. -/
def passThrough : BlockAnswers ν :=
  { activate := .ok (), start := .ok (), audio := fun block _ => (block, .ok ()) }

theorem succeeds_passThrough : (passThrough : BlockAnswers ν).Succeeds :=
  ⟨rfl, rfl⟩

namespace ClapInstance

/-- The number of frames of a block that fits the scratch, and none of another block. -/
def fittingFrames (samples : List ν) : Option ℕ :=
  let frames := samples.length / numChannels
  if 0 < frames ∧ frames ≤ maxBlockFrames then some frames else none

theorem le_of_fittingFrames {samples : List ν} {frames : ℕ}
    (h : fittingFrames samples = some frames) : frames ≤ maxBlockFrames := by
  unfold fittingFrames at h
  simp only at h
  split at h
  case isTrue hfits =>
    rw [← Option.some.inj h]
    exact hfits.2
  case isFalse => exact absurd h (by simp)

/-- The sizes of the blocks of a run that fit the scratch. -/
def fittingSizes (calls : List (List ν × BlockAnswers ν)) : List ℕ :=
  calls.filterMap fun call => fittingFrames call.1

/-- What the plugin is, or would be, activated for when a block of `frames` frames comes. -/
def configFor (inst : ClapInstance ν) (frames : ℕ) : AudioConfiguration :=
  match inst.processor with
  | some processor => processor.config
  | none =>
    { sampleRate := inst.sampleRate, minFramesCount := 1
      maxFramesCount := min inst.scratch.capacity frames }

theorem ensureProcessor_of_succeeds (inst : ClapInstance ν) (frames : ℕ)
    {answers : BlockAnswers ν} (h : answers.Succeeds) :
    inst.ensureProcessor frames answers =
      (true, { inst with processor := some ⟨inst.configFor frames, true⟩ }) := by
  unfold ensureProcessor configFor Processor.startProcessing
  cases hp : inst.processor with
  | none => simp [h.activate, h.start]
  | some processor =>
    obtain ⟨config, started⟩ := processor
    cases started
    · simp [h.start]
    · simp

/-- An active plugin was activated for blocks of one frame on; the scratch keeps its size. -/
structure Prepared (inst : ClapInstance ν) : Prop where
  capacity : inst.scratch.frames = maxBlockFrames
  minimum : ∀ processor ∈ inst.processor, processor.config.minFramesCount = 1

theorem Prepared.minFramesCount_configFor {inst : ClapInstance ν} (h : inst.Prepared)
    (frames : ℕ) : (inst.configFor frames).minFramesCount = 1 := by
  unfold configFor
  split
  · exact h.minimum _ (by assumption)
  · rfl

variable [Zero ν]

/-- A block that is not handed over leaves the plugin as it was. -/
theorem process_of_skipped (inst : ClapInstance ν) {samples : List ν} (answers : BlockAnswers ν)
    (h : ¬(0 < samples.length / numChannels ∧
      samples.length / numChannels ≤ inst.scratch.frames)) :
    (inst.process samples answers).handed = none ∧
      (inst.process samples answers).inst.processor = inst.processor ∧
      (inst.process samples answers).inst.scratch.frames = inst.scratch.frames := by
  unfold process
  simp only
  split
  case isTrue => exact ⟨rfl, rfl, rfl⟩
  case isFalse h0 =>
    have hfits : (inst.scratch.fits (samples.length / numChannels)).1 = false := by
      rw [← Bool.not_eq_true, PlanarScratch.fits_fst]
      exact fun hle => h ⟨Nat.pos_of_ne_zero h0, hle⟩
    simp [hfits]

/-- A block that fits is handed over whole, to a plugin activated now or before. -/
theorem process_of_fits (inst : ClapInstance ν) {samples : List ν} {answers : BlockAnswers ν}
    (h : answers.Succeeds) (hpos : 0 < samples.length / numChannels)
    (hfits : samples.length / numChannels ≤ inst.scratch.frames) :
    (∃ block, (inst.process samples answers).handed = some block ∧
      block.1.length = samples.length / numChannels ∧
      block.2.length = samples.length / numChannels) ∧
    (inst.process samples answers).inst.processor =
      some ⟨inst.configFor (samples.length / numChannels), true⟩ ∧
    (inst.process samples answers).inst.scratch.frames = inst.scratch.frames := by
  unfold process
  have hfst := (PlanarScratch.fits_fst inst.scratch (samples.length / numChannels)).mpr hfits
  have hconfig : ∀ scratch : PlanarScratch ν, scratch.frames = inst.scratch.frames →
      ({ inst with scratch := scratch } : ClapInstance ν).configFor (samples.length / numChannels) =
        inst.configFor (samples.length / numChannels) := by
    intro scratch hscratch
    unfold configFor PlanarScratch.capacity
    cases inst.processor with
    | none => simp [hscratch]
    | some processor => rfl
  have hcut : min (samples.length / numChannels) inst.scratch.frames =
      samples.length / numChannels := min_eq_left hfits
  simp only [Nat.ne_of_gt hpos, if_false, hfst, Bool.not_true, Bool.false_eq_true,
    ensureProcessor_of_succeeds _ _ h, hconfig _ (PlanarScratch.frames_fits _ _)]
  split
  all_goals
    refine ⟨⟨_, rfl, ?_, ?_⟩, rfl, by simp⟩
    all_goals simp [PlanarScratch.deinterleaveStereo, PlanarScratch.length_channelOf, hcut]

/-! ## The contract, block by block -/

/-- What a block owes the plugin: it is within the sizes the plugin was activated for, and one that
fits the scratch does reach it. -/
structure BlockContract (inst : ClapInstance ν) (call : List ν × BlockAnswers ν) : Prop where
  within : ∀ block ∈ (inst.process call.1 call.2).handed,
    ∃ processor ∈ (inst.process call.1 call.2).inst.processor,
      1 ≤ block.1.length ∧ processor.config.minFramesCount ≤ block.1.length ∧
      block.1.length ≤ processor.config.maxFramesCount ∧ block.2.length = block.1.length
  handed : 0 < call.1.length / numChannels → call.1.length / numChannels ≤ inst.scratch.capacity →
    ∃ block ∈ (inst.process call.1 call.2).handed, block.1.length = call.1.length / numChannels

def processStep (inst : ClapInstance ν) (call : List ν × BlockAnswers ν) : ClapInstance ν :=
  (inst.process call.1 call.2).inst

theorem prepared_load (plugin : ClapPlugin) : (load plugin : ClapInstance ν).Prepared := by
  constructor
  · simp [load, maxBlockFrames]
  · intro processor h
    exact absurd h (by simp [load])

theorem Prepared.process {inst : ClapInstance ν} (hinst : inst.Prepared)
    {call : List ν × BlockAnswers ν} (h : call.2.Succeeds) : (inst.processStep call).Prepared := by
  unfold processStep
  by_cases hfits : 0 < call.1.length / numChannels ∧ call.1.length / numChannels ≤ inst.scratch.frames
  · obtain ⟨_, hproc, hframes⟩ := process_of_fits inst h hfits.1 hfits.2
    constructor
    · rw [hframes]
      exact hinst.capacity
    · intro processor hmem
      rw [hproc] at hmem
      rw [← Option.some.inj hmem]
      exact hinst.minFramesCount_configFor _
  · obtain ⟨_, hproc, hframes⟩ := process_of_skipped inst call.2 hfits
    constructor
    · rw [hframes]
      exact hinst.capacity
    · rw [hproc]
      exact hinst.minimum

/-- The contract of one block is a bound on its size. -/
theorem blockContract_iff {inst : ClapInstance ν} (hinst : inst.Prepared)
    {call : List ν × BlockAnswers ν} (h : call.2.Succeeds) :
    inst.BlockContract call ↔
      ∀ frames ∈ fittingFrames call.1, frames ≤ (inst.configFor frames).maxFramesCount := by
  unfold fittingFrames
  simp only
  split
  case isTrue hfits =>
    rw [← hinst.capacity] at hfits
    obtain ⟨⟨block, hblock, hl, hr⟩, hproc, _⟩ := process_of_fits inst h hfits.1 hfits.2
    constructor
    · intro hc frames hframes
      obtain ⟨processor, hmem, _, _, hmax, _⟩ := hc.within block hblock
      rw [hproc] at hmem
      rw [← Option.some.inj hframes, ← hl]
      rwa [← Option.some.inj hmem, ← hl] at hmax
    · intro hbound
      constructor
      · intro block' hblock'
        rw [hblock] at hblock'
        obtain rfl := Option.some.inj hblock'
        refine ⟨_, hproc, ?_, ?_, ?_, by rw [hl, hr]⟩
        · rw [hl]
          exact hfits.1
        · rw [hl, hinst.minFramesCount_configFor]
          exact hfits.1
        · rw [hl]
          exact hbound _ rfl
      · intro _ _
        exact ⟨block, hblock, hl⟩
  case isFalse hfits =>
    rw [← hinst.capacity] at hfits
    obtain ⟨hnone, _, _⟩ := process_of_skipped inst call.2 hfits
    constructor
    · intro _ frames hframes
      exact absurd hframes (by simp)
    · intro _
      constructor
      · intro block hblock
        rw [hnone] at hblock
        exact absurd hblock (by simp)
      · intro hpos hcap
        exact absurd ⟨hpos, hcap⟩ hfits

/-! ## Whole runs -/

theorem processor_processStep {inst : ClapInstance ν} (hinst : inst.Prepared)
    {call : List ν × BlockAnswers ν} (h : call.2.Succeeds) :
    (inst.processStep call).processor =
      match fittingFrames call.1 with
      | some frames => some ⟨inst.configFor frames, true⟩
      | none => inst.processor := by
  unfold processStep fittingFrames
  simp only
  split
  case h_1 frames hframes =>
    split at hframes
    case isTrue hfits =>
      rw [← hinst.capacity] at hfits
      rw [← Option.some.inj hframes]
      exact (process_of_fits inst h hfits.1 hfits.2).2.1
    case isFalse => exact absurd hframes (by simp)
  case h_2 hnone =>
    split at hnone
    case isTrue => exact absurd hnone (by simp)
    case isFalse hfits =>
      rw [← hinst.capacity] at hfits
      exact (process_of_skipped inst call.2 hfits).2.1

/-- Once the plugin is active, the contract is that no block outgrows what it was activated for. -/
theorem along_blockContract_of_active {inst : ClapInstance ν} (hinst : inst.Prepared)
    {processor : Processor} (hproc : inst.processor = some processor)
    {calls : List (List ν × BlockAnswers ν)} (h : ∀ call ∈ calls, call.2.Succeeds) :
    Along processStep BlockContract inst calls ↔
      ∀ frames ∈ fittingSizes calls, frames ≤ processor.config.maxFramesCount := by
  induction calls generalizing inst processor with
  | nil => simp [Along, fittingSizes]
  | cons call calls ih =>
    have hcall := h call (by simp)
    have hconfig : ∀ frames, inst.configFor frames = processor.config := by
      intro frames
      rw [configFor, hproc]
    have hnext := processor_processStep hinst hcall
    have hrest := fun p (hp : (inst.processStep call).processor = some p) =>
      ih (hinst.process hcall) hp
      (fun call' hmem => h call' (List.mem_cons_of_mem _ hmem))
    rw [Along, blockContract_iff hinst hcall]
    cases hfit : fittingFrames call.1 with
    | none =>
      rw [hfit] at hnext
      rw [hrest processor (hnext.trans hproc)]
      simp [fittingSizes, hfit]
    | some frames =>
      rw [hfit] at hnext
      rw [hrest _ hnext]
      simp [fittingSizes, hfit, hconfig]

/-- Before the plugin is active, the first block that fits sets the bound. -/
theorem along_blockContract_of_inactive {inst : ClapInstance ν} (hinst : inst.Prepared)
    (hnone : inst.processor = none) {calls : List (List ν × BlockAnswers ν)}
    (h : ∀ call ∈ calls, call.2.Succeeds) :
    Along processStep BlockContract inst calls ↔
      ∀ frames ∈ fittingSizes calls, frames ≤ (fittingSizes calls).headD 0 := by
  induction calls generalizing inst with
  | nil => simp [Along, fittingSizes]
  | cons call calls ih =>
    have hcall := h call (by simp)
    have hcalls : ∀ call' ∈ calls, call'.2.Succeeds :=
      fun call' hmem => h call' (List.mem_cons_of_mem _ hmem)
    have hnext := processor_processStep hinst hcall
    rw [Along, blockContract_iff hinst hcall]
    cases hfit : fittingFrames call.1 with
    | none =>
      rw [hfit] at hnext
      rw [ih (hinst.process hcall) (hnext.trans hnone) hcalls]
      simp [fittingSizes, hfit]
    | some frames =>
      have hmax : (inst.configFor frames).maxFramesCount = frames := by
        have hle := le_of_fittingFrames hfit
        rw [← hinst.capacity] at hle
        rw [configFor, hnone]
        exact min_eq_right hle
      rw [hfit] at hnext
      rw [along_blockContract_of_active (hinst.process hcall) hnext hcalls]
      simp [fittingSizes, hfit, hmax]

/-- From a new instance, with activation and start succeeding, the contract is kept all along a run
exactly when no block that fits is longer than the first one that does. -/
theorem along_blockContract_iff (plugin : ClapPlugin) (calls : List (List ν × BlockAnswers ν))
    (h : ∀ call ∈ calls, call.2.Succeeds) :
    Along processStep BlockContract (load plugin) calls ↔
      ∀ frames ∈ fittingSizes calls, frames ≤ (fittingSizes calls).headD 0 :=
  along_blockContract_of_inactive (prepared_load plugin) rfl h

def bareClapPlugin : ClapPlugin :=
  { params := none, value := fun _ => 0, count_lt := by decide }

/-- `n` frames of silence. -/
def silentBlock (n : ℕ) : List ν × BlockAnswers ν :=
  (List.replicate (n * numChannels) 0, passThrough)

theorem fittingFrames_silentBlock {n : ℕ} (h : 0 < n ∧ n ≤ maxBlockFrames) :
    fittingFrames (silentBlock n : List ν × BlockAnswers ν).1 = some n := by
  simp only [fittingFrames, silentBlock, List.length_replicate, numChannels,
    Nat.mul_div_cancel n two_pos]
  rw [if_pos h]

theorem along_blockContract_shorter_block :
    Along processStep BlockContract (load bareClapPlugin)
      [silentBlock 512, (silentBlock 256 : List ℚ × BlockAnswers ℚ)] := by
  rw [along_blockContract_iff]
  · simp [fittingSizes, fittingFrames_silentBlock, maxBlockFrames]
  · simp [silentBlock, succeeds_passThrough]

theorem not_along_blockContract_longer_block :
    ¬Along processStep BlockContract (load bareClapPlugin)
      [silentBlock 512, (silentBlock 1024 : List ℚ × BlockAnswers ℚ)] := by
  rw [along_blockContract_of_inactive (prepared_load bareClapPlugin) rfl]
  · simp [fittingSizes, fittingFrames_silentBlock, maxBlockFrames]
  · simp [silentBlock, succeeds_passThrough]

end ClapInstance

end HikaruOpenLive.PluginHost
