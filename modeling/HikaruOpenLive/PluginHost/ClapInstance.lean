import Mathlib.Data.List.Basic
import HikaruOpenLive.PluginHost.ParamPoll
import HikaruOpenLive.PluginHost.PlanarScratch

/-! # The CLAP launcher

An instance wraps a plugin that is activated at its first block. Its parameters are set directly while
it is inactive, and through a queue that the next block drains once it plays.

The plugin is the one the launcher relies on: it keeps the last value it received of each parameter.
What it answers to an activation, a start and a block is given with each call (`BlockAnswers`).
-/
set_option autoImplicit false

namespace HikaruOpenLive.PluginHost

/-- A parameter as the plugin declares it, in its own plain range. The largest 32-bit number is no
id. -/
structure ClapParam where
  id : ℕ
  name : String
  minValue : ℚ
  maxValue : ℚ
  defaultValue : ℚ
  isAutomatable : Bool
  id_lt : id < 2 ^ 32 - 1

def clapIdFromRaw (raw : ℕ) : Option ℕ :=
  if raw = 2 ^ 32 - 1 then none else some raw

theorem eq_of_clapIdFromRaw {raw clapId : ℕ} (h : clapIdFromRaw raw = some clapId) :
    raw = clapId := by
  unfold clapIdFromRaw at h
  split at h
  case isTrue => exact absurd h (by simp)
  case isFalse => exact Option.some.inj h

theorem ClapParam.fromRaw_id (param : ClapParam) : clapIdFromRaw param.id = some param.id := by
  rw [clapIdFromRaw, if_neg (Nat.ne_of_lt param.id_lt)]

/-- The plugin: its parameters extension, if it has one, and the plain values it holds. -/
structure ClapPlugin where
  params : Option (List ClapParam)
  value : ℕ → ℚ
  count_lt : (params.getD []).length < 2 ^ 32

namespace ClapPlugin

def declared (plugin : ClapPlugin) : List ClapParam :=
  plugin.params.getD []

def getValue (plugin : ClapPlugin) (id : ℕ) : Option ℚ :=
  if plugin.declared.any fun param => param.id == id then some (plugin.value id) else none

/-- The plugin after it has processed parameter events, the oldest first. -/
def receive (plugin : ClapPlugin) (events : List (ℕ × ℚ)) : ClapPlugin :=
  { plugin with
    value := events.foldl (fun value event => Function.update value event.1 event.2) plugin.value }

@[simp] theorem params_receive (plugin : ClapPlugin) (events : List (ℕ × ℚ)) :
    (plugin.receive events).params = plugin.params := rfl

@[simp] theorem declared_receive (plugin : ClapPlugin) (events : List (ℕ × ℚ)) :
    (plugin.receive events).declared = plugin.declared := rfl

theorem value_receive_append (plugin : ClapPlugin) (events : List (ℕ × ℚ)) (id id' : ℕ) (v : ℚ) :
    (plugin.receive (events ++ [(id, v)])).value id' =
      if id' = id then v else (plugin.receive events).value id' := by
  simp only [receive, List.foldl_append, List.foldl_cons, List.foldl_nil]
  exact Function.update_apply ..

theorem getValue_of_mem {plugin : ClapPlugin} {param : ClapParam} (h : param ∈ plugin.declared) :
    plugin.getValue param.id = some (plugin.value param.id) := by
  have hany : (plugin.declared.any fun p => p.id == param.id) = true :=
    List.any_eq_true.mpr ⟨param, h, by simp⟩
  rw [getValue, if_pos hany]

end ClapPlugin

structure AudioConfiguration where
  sampleRate : ℚ
  minFramesCount : ℕ
  maxFramesCount : ℕ
deriving DecidableEq

inductive PluginInstanceError where
  | processingStarted
  | other (text : String)

/-- The audio processor of an active plugin, with what it was activated for. -/
structure Processor where
  config : AudioConfiguration
  started : Bool
deriving DecidableEq

def Processor.startProcessing (processor : Processor) (answer : Except String Unit) :
    Except PluginInstanceError Unit × Processor :=
  if processor.started then (.error .processingStarted, processor)
  else match answer with
    | .ok _ => (.ok (), { processor with started := true })
    | .error e => (.error (.other e), processor)

structure PendingParam where
  id : ℕ
  value : ℚ
deriving DecidableEq

def paramQueueCapacity : ℕ :=
  1024

structure ClapInstance (ν : Type) where
  plugin : ClapPlugin
  processor : Option Processor
  scratch : PlanarScratch ν
  sampleRate : ℚ
  lastError : Option String
  paramQueue : List PendingParam
  hostSent : ParamMap
  seen : ParamMap

/-- What the plugin does when it is activated, started and given a block with its events: what it
writes to the output channels, and whether it reports an error. -/
structure BlockAnswers (ν : Type) where
  activate : Except String Unit
  start : Except String Unit
  audio : List ν × List ν → List (ℕ × ℚ) → (List ν × List ν) × Except String Unit

/-- An instance after a block, the host's buffer, and the block the plugin was given, if any. -/
structure BlockOutcome (ν : Type) where
  inst : ClapInstance ν
  samples : List ν
  handed : Option (List ν × List ν)

namespace ClapInstance

variable {ν : Type}

/-! ## Parameters -/

def paramCount (inst : ClapInstance ν) : ℕ :=
  match inst.plugin.params with
  | none => 0
  | some params => params.length

def paramInfo (inst : ClapInstance ν) (index : ℕ) : Option PluginParamInfo :=
  match inst.plugin.params with
  | none => none
  | some params => (params[index % 2 ^ 32]?).map fun info =>
    { id := info.id, name := info.name, unit := "", min := info.minValue, max := info.maxValue
      defaultValue := info.defaultValue, stepCount := 0, canAutomate := info.isAutomatable }

def getParamNormalized (inst : ClapInstance ν) (id : ℕ) : Option ℚ :=
  match inst.plugin.params, clapIdFromRaw id with
  | some _, some clapId => (inst.plugin.getValue clapId).map clampUnit
  | _, _ => none

/-- Sets a parameter: `false` when nothing was sent. An inactive plugin gets the event at once. -/
def setParamNormalized (inst : ClapInstance ν) (id : ℕ) (value : ℚ) : Bool × ClapInstance ν :=
  match inst.plugin.params with
  | none => (false, inst)
  | some _ =>
    let value := clampUnit value
    let inst := { inst with hostSent := inst.hostSent.insert id value }
    match inst.processor with
    | none =>
      match clapIdFromRaw id with
      | none => (false, inst)
      | some clapId => (true, { inst with plugin := inst.plugin.receive [(clapId, value)] })
    | some _ =>
      if inst.paramQueue.length < paramQueueCapacity then
        (true, { inst with paramQueue := inst.paramQueue ++ [⟨id, value⟩] })
      else (false, inst)

/-- The parameter events of the next block. -/
def pendingEvents (inst : ClapInstance ν) : List (ℕ × ℚ) :=
  inst.paramQueue.filterMap fun pending =>
    (clapIdFromRaw pending.id).map fun clapId => (clapId, pending.value)

def pollParamChanges (inst : ClapInstance ν) : List (ℕ × ℚ) × ClapInstance ν :=
  match inst.plugin.params with
  | none => ([], inst)
  | some _ =>
    let ids := (((List.range inst.paramCount).filterMap inst.paramInfo).filter
      fun info => info.canAutomate).map PluginParamInfo.id
    let poll := diffPoll inst.getParamNormalized
      (fun id previous current => !near previous current && !isEcho inst.hostSent id current)
      ids inst.seen
    (poll.1, { inst with seen := poll.2 })

/-! ## Audio -/

def ensureProcessor (inst : ClapInstance ν) (frames : ℕ) (answers : BlockAnswers ν) :
    Bool × ClapInstance ν :=
  let start (processor : Processor) : Bool × ClapInstance ν :=
    match processor.startProcessing answers.start with
    | (.ok _, processor) => (true, { inst with processor := some processor })
    | (.error .processingStarted, processor) => (true, { inst with processor := some processor })
    | (.error (.other e), processor) =>
      (false, { inst with
        processor := some processor, lastError := some ("[CLAP] start_processing: " ++ e) })
  match inst.processor with
  | some processor => start processor
  | none =>
    match answers.activate with
    | .ok _ =>
      -- The largest block declared is the one at hand.
      start { config := { sampleRate := inst.sampleRate, minFramesCount := 1
                          maxFramesCount := min inst.scratch.capacity frames }
              started := false }
    | .error e => (false, { inst with lastError := some ("[CLAP] activate: " ++ e) })

variable [Zero ν]

def load (plugin : ClapPlugin) : ClapInstance ν :=
  { plugin := plugin, processor := none, scratch := PlanarScratch.new maxBlockFrames
    sampleRate := 48000, lastError := none, paramQueue := [], hostSent := ParamMap.empty
    seen := ParamMap.empty }

def process (inst : ClapInstance ν) (samples : List ν) (answers : BlockAnswers ν) :
    BlockOutcome ν :=
  let frames := samples.length / numChannels
  if frames = 0 then ⟨inst, samples, none⟩
  else
    let (fits, scratch) := inst.scratch.fits frames
    let inst := { inst with scratch := scratch }
    if !fits then ⟨inst, samples, none⟩
    else match inst.ensureProcessor frames answers with
    | (false, inst) => ⟨inst, samples, none⟩
    | (true, inst) =>
      let scratch := inst.scratch.deinterleaveStereo samples frames
      let events := inst.pendingEvents
      let inst := { inst with scratch := scratch, paramQueue := [] }
      match inst.processor with
      | some ⟨_, true⟩ =>
        let block := (scratch.inputs.1.take frames, scratch.inputs.2.take frames)
        let answer := answers.audio block events
        let inst := { inst with
          plugin := inst.plugin.receive events
          scratch := scratch.writeOutputs frames answer.1 }
        match answer.2 with
        | .ok _ => ⟨inst, inst.scratch.reinterleaveStereo samples frames, some block⟩
        | .error e =>
          ⟨{ inst with lastError := some ("[CLAP] process: " ++ e) }, samples, some block⟩
      | some ⟨_, false⟩ =>
        ⟨{ inst with lastError := some "[CLAP] process con el processor detenido" }, samples, none⟩
      | none => ⟨{ inst with lastError := some "[CLAP] process sin processor" }, samples, none⟩

end ClapInstance

end HikaruOpenLive.PluginHost
