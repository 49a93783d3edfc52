import HikaruOpenLive.PluginHost.ClapBlocks

/-! # Normalized and plain values of a CLAP parameter

A CLAP parameter lives in a plain range of its own. The rack works in `[0, 1]` for every format, so one
mapping and its inverse are due wherever a value crosses: when a parameter is described, read, set at
once or set through the queue.
-/
set_option autoImplicit false

namespace HikaruOpenLive.PluginHost

namespace ClapParam

def plainOf (param : ClapParam) (v : ℚ) : ℚ :=
  param.minValue + v * (param.maxValue - param.minValue)

def normalizedOf (param : ClapParam) (plain : ℚ) : ℚ :=
  (plain - param.minValue) / (param.maxValue - param.minValue)

theorem plainOf_zero (param : ClapParam) : param.plainOf 0 = param.minValue := by
  simp [plainOf]

theorem plainOf_one (param : ClapParam) : param.plainOf 1 = param.maxValue := by
  simp [plainOf]

theorem plainOf_of_unit {param : ClapParam} (h : param.minValue = 0 ∧ param.maxValue = 1) (v : ℚ) :
    param.plainOf v = v := by
  simp [plainOf, h.1, h.2]

theorem normalizedOf_of_unit {param : ClapParam} (h : param.minValue = 0 ∧ param.maxValue = 1)
    (v : ℚ) : param.normalizedOf v = v := by
  simp [normalizedOf, h.1, h.2]

end ClapParam

namespace ClapInstance

variable {ν : Type}

/-- A plugin that declares a parameter has the parameters extension. -/
theorem params_of_mem {inst : ClapInstance ν} {param : ClapParam}
    (h : param ∈ inst.plugin.declared) : ∃ params, inst.plugin.params = some params := by
  cases hp : inst.plugin.params with
  | none =>
    rw [ClapPlugin.declared, hp] at h
    exact absurd h (by simp)
  | some params => exact ⟨params, rfl⟩

theorem getParamNormalized_of_mem {inst : ClapInstance ν} {param : ClapParam}
    (h : param ∈ inst.plugin.declared) :
    inst.getParamNormalized param.id = some (clampUnit (inst.plugin.value param.id)) := by
  obtain ⟨params, hparams⟩ := params_of_mem h
  rw [getParamNormalized, hparams, param.fromRaw_id]
  simp only
  rw [ClapPlugin.getValue_of_mem h, Option.map_some]

/-- An inactive plugin has the value as soon as it is set. -/
theorem setParamNormalized_inactive {inst : ClapInstance ν} {param : ClapParam}
    (h : param ∈ inst.plugin.declared) (hproc : inst.processor = none) (v : ℚ) :
    (inst.setParamNormalized param.id v).1 = true ∧
      (inst.setParamNormalized param.id v).2.plugin =
        inst.plugin.receive [(param.id, clampUnit v)] := by
  obtain ⟨params, hp⟩ := params_of_mem h
  simp [setParamNormalized, hp, hproc, param.fromRaw_id]

/-- An active plugin has the value queued last, unless the queue is full. -/
theorem setParamNormalized_active {inst : ClapInstance ν} {param : ClapParam}
    (h : param ∈ inst.plugin.declared) {processor : Processor}
    (hproc : inst.processor = some processor) (v : ℚ)
    (hroom : inst.paramQueue.length < paramQueueCapacity) :
    (inst.setParamNormalized param.id v).1 = true ∧
      (inst.setParamNormalized param.id v).2 =
        { inst with
          hostSent := inst.hostSent.insert param.id (clampUnit v)
          paramQueue := inst.paramQueue ++ [⟨param.id, clampUnit v⟩] } := by
  obtain ⟨params, hp⟩ := params_of_mem h
  simp [setParamNormalized, hp, hproc, hroom]

theorem pendingEvents_append (inst : ClapInstance ν) (hostSent : ParamMap) (param : ClapParam)
    (v : ℚ) :
    ({ inst with
        hostSent := hostSent
        paramQueue := inst.paramQueue ++ [⟨param.id, v⟩] } : ClapInstance ν).pendingEvents =
      inst.pendingEvents ++ [(param.id, v)] := by
  simp [pendingEvents, param.fromRaw_id]

theorem paramInfo_of_getElem? {inst : ClapInstance ν} {index : ℕ} {param : ClapParam}
    (h : inst.plugin.declared[index]? = some param) :
    ∃ info, inst.paramInfo index = some info ∧ info.id = param.id ∧
      info.defaultValue = param.defaultValue := by
  have hlt : index < 2 ^ 32 :=
    lt_trans (List.getElem?_eq_some_iff.mp h).1 inst.plugin.count_lt
  unfold paramInfo
  cases hp : inst.plugin.params with
  | none =>
    rw [ClapPlugin.declared, hp] at h
    exact absurd h (by simp)
  | some params =>
    rw [ClapPlugin.declared, hp, Option.getD_some] at h
    simp only [Nat.mod_eq_of_lt hlt, h]
    exact ⟨_, rfl, rfl, rfl⟩

variable [Zero ν]

/-- A block that reaches the plugin takes the whole queue along. -/
theorem plugin_process {inst : ClapInstance ν} {samples : List ν} {answers : BlockAnswers ν}
    (h : answers.Succeeds) (hpos : 0 < samples.length / numChannels)
    (hfits : samples.length / numChannels ≤ inst.scratch.frames) :
    (inst.process samples answers).inst.plugin = inst.plugin.receive inst.pendingEvents := by
  unfold process
  have hfst := (PlanarScratch.fits_fst inst.scratch (samples.length / numChannels)).mpr hfits
  simp only [Nat.ne_of_gt hpos, if_false, hfst, Bool.not_true, Bool.false_eq_true,
    ensureProcessor_of_succeeds _ _ h]
  split <;> rfl

end ClapInstance

/-! ## One mapping for every way across -/

/-- What the host owes a parameter: the plain value of `v` is what a set delivers, now or with the next
block, and `v` is what a get gives back; readings and the declared default are normalized. -/
structure ParamContract (ν : Type) [Zero ν] (param : ClapParam) : Prop where
  setDirect : ∀ (inst : ClapInstance ν) (v : ℚ), param ∈ inst.plugin.declared →
    inst.processor = none → 0 ≤ v → v ≤ 1 →
    (inst.setParamNormalized param.id v).1 = true ∧
      (inst.setParamNormalized param.id v).2.plugin.value param.id = param.plainOf v ∧
      (inst.setParamNormalized param.id v).2.getParamNormalized param.id = some v
  setQueued : ∀ (inst : ClapInstance ν) (v : ℚ), param ∈ inst.plugin.declared →
    inst.processor.isSome → inst.paramQueue.length < paramQueueCapacity → 0 ≤ v → v ≤ 1 →
    (inst.setParamNormalized param.id v).1 = true ∧
      ∀ (samples : List ν) (answers : BlockAnswers ν), answers.Succeeds →
        0 < samples.length / numChannels → samples.length / numChannels ≤ inst.scratch.capacity →
        let block := (inst.setParamNormalized param.id v).2.process samples answers
        block.inst.plugin.value param.id = param.plainOf v ∧
          block.inst.getParamNormalized param.id = some v
  get : ∀ inst : ClapInstance ν, param ∈ inst.plugin.declared →
    param.minValue ≤ inst.plugin.value param.id → inst.plugin.value param.id ≤ param.maxValue →
    inst.getParamNormalized param.id = some (param.normalizedOf (inst.plugin.value param.id))
  info : ∀ (inst : ClapInstance ν) (index : ℕ), inst.plugin.declared[index]? = some param →
    ∃ info, inst.paramInfo index = some info ∧ info.id = param.id ∧
      info.defaultValue = param.normalizedOf param.defaultValue

section

variable {ν : Type} [Zero ν]

/-- A plugin with one parameter, at its default. -/
def ClapParam.solo (param : ClapParam) : ClapPlugin :=
  { params := some [param], value := fun _ => param.defaultValue, count_lt := by simp }

/-- What is delivered for `0` and `1` gives the range away. -/
theorem unit_range_of_paramContract {param : ClapParam} (h : ParamContract ν param) :
    param.minValue = 0 ∧ param.maxValue = 1 := by
  have hmem : param ∈ (ClapInstance.load param.solo : ClapInstance ν).plugin.declared := by
    simp [ClapInstance.load, ClapParam.solo, ClapPlugin.declared]
  have hvalue : ∀ v : ℚ, 0 ≤ v → v ≤ 1 → v = param.plainOf v := by
    intro v h0 h1
    obtain ⟨_, hdelivered, _⟩ := h.setDirect (ClapInstance.load param.solo) v hmem rfl h0 h1
    rw [(ClapInstance.setParamNormalized_inactive hmem rfl v).2] at hdelivered
    simpa [ClapPlugin.receive, clampUnit_of_mem h0 h1] using hdelivered
  constructor
  · rw [← param.plainOf_zero]
    exact (hvalue 0 le_rfl zero_le_one).symm
  · rw [← param.plainOf_one]
    exact (hvalue 1 zero_le_one le_rfl).symm

theorem setQueued_of_unit_range {param : ClapParam}
    (hunit : param.minValue = 0 ∧ param.maxValue = 1) (inst : ClapInstance ν) {v : ℚ}
    (hmem : param ∈ inst.plugin.declared) (hproc : inst.processor.isSome)
    (hroom : inst.paramQueue.length < paramQueueCapacity) (h0 : 0 ≤ v) (h1 : v ≤ 1)
    {samples : List ν} {answers : BlockAnswers ν} (hanswers : answers.Succeeds)
    (hpos : 0 < samples.length / numChannels)
    (hfits : samples.length / numChannels ≤ inst.scratch.capacity) :
    let block := (inst.setParamNormalized param.id v).2.process samples answers
    block.inst.plugin.value param.id = param.plainOf v ∧
      block.inst.getParamNormalized param.id = some v := by
  intro block
  obtain ⟨processor, hproc⟩ := Option.isSome_iff_exists.mp hproc
  obtain ⟨_, hset⟩ := ClapInstance.setParamNormalized_active hmem hproc v hroom
  have hplugin : block.inst.plugin =
      inst.plugin.receive (inst.pendingEvents ++ [(param.id, clampUnit v)]) := by
    rw [← ClapInstance.pendingEvents_append inst (inst.hostSent.insert param.id (clampUnit v))]
    simp only [block, hset]
    exact ClapInstance.plugin_process hanswers hpos hfits
  have hvalue : block.inst.plugin.value param.id = v := by
    rw [hplugin, ClapPlugin.value_receive_append, if_pos rfl, clampUnit_of_mem h0 h1]
  refine ⟨by rw [hvalue, ClapParam.plainOf_of_unit hunit], ?_⟩
  have hmem' : param ∈ block.inst.plugin.declared := by
    rw [hplugin, ClapPlugin.declared_receive]
    exact hmem
  rw [ClapInstance.getParamNormalized_of_mem hmem', hvalue, clampUnit_of_mem h0 h1]

/-- The host keeps the contract for the parameters whose plain range is the normalized one, and for no
others. -/
theorem paramContract_iff (param : ClapParam) :
    ParamContract ν param ↔ param.minValue = 0 ∧ param.maxValue = 1 := by
  constructor
  · exact unit_range_of_paramContract
  · intro hunit
    constructor
    · intro inst v hmem hproc h0 h1
      obtain ⟨htrue, hplugin⟩ := ClapInstance.setParamNormalized_inactive hmem hproc v
      have hmem' : param ∈ (inst.setParamNormalized param.id v).2.plugin.declared := by
        rw [hplugin, ClapPlugin.declared_receive]
        exact hmem
      have hvalue : (inst.setParamNormalized param.id v).2.plugin.value param.id = v := by
        rw [hplugin]
        simp [ClapPlugin.receive, clampUnit_of_mem h0 h1]
      refine ⟨htrue, by rw [hvalue, ClapParam.plainOf_of_unit hunit], ?_⟩
      rw [ClapInstance.getParamNormalized_of_mem hmem', hvalue, clampUnit_of_mem h0 h1]
    · intro inst v hmem hproc hroom h0 h1
      obtain ⟨processor, hp⟩ := Option.isSome_iff_exists.mp hproc
      refine ⟨(ClapInstance.setParamNormalized_active hmem hp v hroom).1, ?_⟩
      intro samples answers hanswers hpos hfits
      exact setQueued_of_unit_range hunit inst hmem hproc hroom h0 h1 hanswers hpos hfits
    · intro inst hmem hmin hmax
      rw [hunit.1] at hmin
      rw [hunit.2] at hmax
      rw [ClapInstance.getParamNormalized_of_mem hmem, clampUnit_of_mem hmin hmax,
        ClapParam.normalizedOf_of_unit hunit]
    · intro inst index hindex
      obtain ⟨info, hinfo, hid, hdefault⟩ := ClapInstance.paramInfo_of_getElem? hindex
      exact ⟨info, hinfo, hid, by rw [hdefault, ClapParam.normalizedOf_of_unit hunit]⟩

end

/-- A gain in decibels above silence, from 0 to 20. -/
def gainParam : ClapParam :=
  { id := 5, name := "Gain", minValue := 0, maxValue := 20, defaultValue := 10, isAutomatable := true
    id_lt := by decide }

theorem not_paramContract_gain : ¬ParamContract ℚ gainParam := by
  intro h
  have hmax : (20 : ℚ) = 1 := (unit_range_of_paramContract h).2
  exact absurd hmax (by decide)

end HikaruOpenLive.PluginHost
