import HikaruOpenLive.Foundations.ListEdits
import HikaruOpenLive.PluginHost.ClapParams

/-! # What the rack knows of an open CLAP plugin

The rack sets parameters, the user moves them in the plugin's own editor, and a poll tells the rack
what the editor moved. A session carries the instance, the values the rack knows (the last one it sent
or was told), and, as history, the movements of the editor since the last poll. Every write reaches the
plugin before the next poll.
-/
set_option autoImplicit false

namespace HikaruOpenLive.PluginHost

open Foundations.Runs Foundations.ListEdits

structure ClapSession (ν : Type) where
  inst : ClapInstance ν
  known : ℕ → ℚ
  moved : List (ℕ × ℚ)

inductive ClapSessionOp where
  | setParam (id : ℕ) (value : ℚ)
  | moveEditor (id : ℕ) (value : ℚ)
  | poll
deriving DecidableEq

/-- The instance once its queue has been processed. -/
def ClapInstance.deliver {ν : Type} (inst : ClapInstance ν) : ClapInstance ν :=
  { inst with plugin := inst.plugin.receive inst.pendingEvents, paramQueue := [] }

namespace ClapSession

variable {ν : Type}

/-- What the launcher reads of a parameter, whatever its plain range. -/
def reading (s : ClapSession ν) (id : ℕ) : ℚ :=
  clampUnit (s.inst.plugin.value id)

/-- The plugin's value of a parameter, normalized by the parameter's plain range. -/
def normalized (s : ClapSession ν) (param : ClapParam) : ℚ :=
  param.normalizedOf (s.inst.plugin.value param.id)

def automatable (s : ClapSession ν) : List ℕ :=
  (s.inst.plugin.declared.filter ClapParam.isAutomatable).map ClapParam.id

def step (s : ClapSession ν) : ClapSessionOp → ClapSession ν
  | .setParam id value =>
    let set := s.inst.setParamNormalized id value
    { s with
      inst := set.2.deliver
      known := if set.1 then Function.update s.known id (clampUnit value) else s.known }
  | .moveEditor id value =>
    { s with
      inst := { s.inst with plugin := s.inst.plugin.receive [(id, value)] }
      moved := (id, clampUnit value) :: s.moved }
  | .poll =>
    let poll := s.inst.pollParamChanges
    { s with inst := poll.2, known := learn s.known poll.1, moved := [] }

/-- A session that begins: nothing sent, nothing read, and the rack has the plugin's values. -/
def start [Zero ν] (plugin : ClapPlugin) (processor : Option Processor) : ClapSession ν :=
  { inst := { ClapInstance.load plugin with processor := processor }
    known := fun id => clampUnit (plugin.value id), moved := [] }

/-- After a poll the rack knows the normalized value of every automatable parameter, and all that was
reported was moved in the editor. -/
def PollOk (s : ClapSession ν) : Prop :=
  (∀ param ∈ s.inst.plugin.declared, param.isAutomatable = true →
    near ((s.step .poll).known param.id) ((s.step .poll).normalized param)) ∧
    ∀ report ∈ s.inst.pollParamChanges.1, report ∈ s.moved

/-- The parameter has been read before, and its value differs both from that reading and from the last
one the host sent. -/
def TakenForMoved (s : ClapSession ν) (id : ℕ) : Prop :=
  ∃ previous, s.inst.seen id = some previous ∧ ¬near previous (s.reading id) ∧
    ¬isEcho s.inst.hostSent id (s.reading id)

/-- A parameter taken for moved is read as it is normalized, and of another one the rack knows the value
already. -/
def Noticed (s : ClapSession ν) : Prop :=
  ∀ param ∈ s.inst.plugin.declared, param.isAutomatable = true →
    (s.TakenForMoved param.id → near (s.reading param.id) (s.normalized param)) ∧
      (¬s.TakenForMoved param.id → near (s.known param.id) (s.normalized param))

def atPolls (P : ClapSession ν → Prop) (s : ClapSession ν) : ClapSessionOp → Prop
  | .poll => P s
  | _ => True

/-- Where a parameter has another value than the last poll read, its last writer explains it. -/
structure Tracked (s : ClapSession ν) : Prop where
  delivered : s.inst.paramQueue = []
  explained : ∀ id ∈ s.automatable, ∀ previous, s.inst.seen id = some previous →
    previous = s.reading id ∨ s.inst.hostSent id = some (s.reading id) ∨
      (id, s.reading id) ∈ s.moved

theorem mem_automatable {s : ClapSession ν} {id : ℕ} :
    id ∈ s.automatable ↔ ∃ param ∈ s.inst.plugin.declared, param.isAutomatable = true ∧
      param.id = id := by
  simp [automatable, and_assoc]

/-! ### What a poll reports -/

theorem getParamNormalized_of_automatable {s : ClapSession ν} {id : ℕ} (h : id ∈ s.automatable) :
    s.inst.getParamNormalized id = some (s.reading id) := by
  obtain ⟨param, hmem, _, rfl⟩ := mem_automatable.mp h
  exact ClapInstance.getParamNormalized_of_mem hmem

/-- The parameters a poll goes through are the automatable ones. -/
theorem filter_paramInfo (inst : ClapInstance ν) {params : List ClapParam}
    (h : inst.plugin.params = some params) :
    (((List.range inst.paramCount).filterMap inst.paramInfo).filter
      fun info => info.canAutomate).map PluginParamInfo.id =
    (inst.plugin.declared.filter ClapParam.isAutomatable).map ClapParam.id := by
  have hlt : params.length < 2 ^ 32 := by
    simpa [h] using inst.plugin.count_lt
  have hinfo : (List.range inst.paramCount).filterMap inst.paramInfo =
      params.map fun info =>
        { id := info.id, name := info.name, unit := "", min := info.minValue
          max := info.maxValue, defaultValue := info.defaultValue, stepCount := 0
          canAutomate := info.isAutomatable } := by
    rw [ClapInstance.paramCount, h, ← filterMap_getElem?_range params]
    apply List.filterMap_congr
    intro index hindex
    rw [List.mem_range] at hindex
    simp only [ClapInstance.paramInfo, h, Nat.mod_eq_of_lt (lt_trans hindex hlt)]
  rw [hinfo, ClapPlugin.declared, h, Option.getD_some, List.filter_map, List.map_map]
  rfl

theorem mem_poll {s : ClapSession ν} {id : ℕ} {v : ℚ} :
    (id, v) ∈ s.inst.pollParamChanges.1 ↔
      id ∈ s.automatable ∧ v = s.reading id ∧ s.TakenForMoved id := by
  unfold ClapInstance.pollParamChanges
  cases hp : s.inst.plugin.params with
  | none =>
    have hnone : s.automatable = [] := by
      simp [automatable, ClapPlugin.declared, hp]
    simp [hnone]
  | some params =>
    simp only
    rw [mem_diffPoll (by simp), filter_paramInfo _ hp]
    constructor
    · rintro ⟨hmem, hread, previous, hprev, hreport⟩
      rw [getParamNormalized_of_automatable hmem] at hread
      obtain rfl := (Option.some.inj hread).symm
      refine ⟨hmem, rfl, previous, hprev, ?_⟩
      simpa using hreport
    · rintro ⟨hmem, rfl, previous, hprev, hreport⟩
      refine ⟨hmem, getParamNormalized_of_automatable hmem, previous, hprev, ?_⟩
      simpa using hreport

@[simp] theorem plugin_poll (inst : ClapInstance ν) :
    inst.pollParamChanges.2.plugin = inst.plugin := by
  unfold ClapInstance.pollParamChanges
  split <;> rfl

@[simp] theorem paramQueue_poll (inst : ClapInstance ν) :
    inst.pollParamChanges.2.paramQueue = inst.paramQueue := by
  unfold ClapInstance.pollParamChanges
  split <;> rfl

theorem seen_poll {s : ClapSession ν} {id : ℕ} (h : id ∈ s.automatable) :
    s.inst.pollParamChanges.2.seen id = some (s.reading id) := by
  have hread := getParamNormalized_of_automatable h
  unfold ClapInstance.pollParamChanges
  cases hp : s.inst.plugin.params with
  | none =>
    rw [automatable, ClapPlugin.declared, hp] at h
    exact absurd h (by simp)
  | some params =>
    simp only
    rw [seen_diffPoll, filter_paramInfo _ hp, hread]
    simp [show id ∈ (s.inst.plugin.declared.filter ClapParam.isAutomatable).map ClapParam.id from h]

/-! ### What the other steps do to a parameter -/

/-- A write that is delivered: the plugin, the rack and the launcher agree on the value; the other
parameters are as they were. -/
theorem setParam_automatable {s : ClapSession ν} (hqueue : s.inst.paramQueue = []) (id : ℕ) (value : ℚ)
    {id' : ℕ} (h : id' ∈ s.automatable) :
    let s' := s.step (.setParam id value)
    s'.reading id' = (if id' = id then clampUnit value else s.reading id') ∧
      s'.known id' = (if id' = id then clampUnit value else s.known id') ∧
      s'.inst.hostSent id' =
        (if id' = id then some (clampUnit value) else s.inst.hostSent id') := by
  obtain ⟨param, hmem, _, rfl⟩ := mem_automatable.mp h
  obtain ⟨params, hparams⟩ := ClapInstance.params_of_mem hmem
  simp only [step, reading, ClapInstance.setParamNormalized, hparams]
  cases hraw : clapIdFromRaw id with
  | none =>
    have hne : param.id ≠ id := by
      intro hid
      rw [← hid, param.fromRaw_id] at hraw
      exact absurd hraw (by simp)
    cases s.inst.processor with
    | none =>
      simp [hne, hqueue, ClapInstance.deliver, ClapInstance.pendingEvents,
        ClapPlugin.receive, ParamMap.insert_of_ne]
    | some processor =>
      simp [hraw, hne, hqueue, ClapInstance.deliver, ClapInstance.pendingEvents,
        ClapPlugin.receive, ParamMap.insert_of_ne, paramQueueCapacity]
  | some clapId =>
    obtain rfl := eq_of_clapIdFromRaw hraw
    by_cases hid : param.id = id
    · cases s.inst.processor with
      | none =>
        simp [hid, hqueue, ClapInstance.deliver, ClapInstance.pendingEvents,
          ClapPlugin.receive]
      | some processor =>
        simp [hraw, hid, hqueue, ClapInstance.deliver, ClapInstance.pendingEvents,
          ClapPlugin.receive, paramQueueCapacity]
    · cases s.inst.processor with
      | none =>
        simp [hid, hqueue, ClapInstance.deliver, ClapInstance.pendingEvents,
          ClapPlugin.receive, ParamMap.insert_of_ne]
      | some processor =>
        simp [hraw, hid, hqueue, ClapInstance.deliver, ClapInstance.pendingEvents,
          ClapPlugin.receive, ParamMap.insert_of_ne, paramQueueCapacity]

theorem params_setParamNormalized (inst : ClapInstance ν) (id : ℕ) (value : ℚ) :
    (inst.setParamNormalized id value).2.plugin.params = inst.plugin.params ∧
      (inst.setParamNormalized id value).2.seen = inst.seen := by
  unfold ClapInstance.setParamNormalized
  split
  · exact ⟨rfl, rfl⟩
  · simp only
    split
    · split <;> exact ⟨rfl, rfl⟩
    · split <;> exact ⟨rfl, rfl⟩

theorem automatable_step (s : ClapSession ν) (op : ClapSessionOp) :
    (s.step op).automatable = s.automatable := by
  cases op with
  | setParam id value =>
    simp only [automatable, step, ClapInstance.deliver, ClapPlugin.declared,
      ClapPlugin.params_receive, (params_setParamNormalized s.inst id value).1]
  | moveEditor id value => rfl
  | poll => simp only [automatable, step, ClapPlugin.declared, plugin_poll]

theorem reading_moveEditor (s : ClapSession ν) (id : ℕ) (value : ℚ) (id' : ℕ) :
    (s.step (.moveEditor id value)).reading id' =
      if id' = id then clampUnit value else s.reading id' := by
  simp only [step, reading, ClapPlugin.receive, List.foldl_cons, List.foldl_nil,
    Function.update_apply]
  split <;> rfl

/-! ### The history explains every difference -/

theorem tracked_start [Zero ν] (plugin : ClapPlugin) (processor : Option Processor) :
    (start plugin processor : ClapSession ν).Tracked := by
  constructor
  · rfl
  · intro id _ previous hprev
    exact absurd hprev (by simp [start, ClapInstance.load, ParamMap.empty])

theorem Tracked.step {s : ClapSession ν} (hs : s.Tracked) (op : ClapSessionOp) :
    (s.step op).Tracked := by
  constructor
  · cases op with
    | setParam id value => rfl
    | moveEditor id value => exact hs.delivered
    | poll => exact (paramQueue_poll s.inst).trans hs.delivered
  · intro id' hid'
    rw [automatable_step] at hid'
    cases op with
    | setParam id value =>
      intro previous hprev
      obtain ⟨hread, _, hsent⟩ := setParam_automatable hs.delivered id value hid'
      have hseen : s.inst.seen id' = some previous := by
        rw [← hprev]
        exact congrFun (params_setParamNormalized s.inst id value).2.symm id'
      rw [hread, hsent]
      by_cases hid : id' = id
      · rw [if_pos hid, if_pos hid]
        exact Or.inr (Or.inl rfl)
      · rw [if_neg hid, if_neg hid]
        exact hs.explained id' hid' previous hseen
    | moveEditor id value =>
      intro previous hprev
      rw [reading_moveEditor]
      by_cases hid : id' = id
      · rw [if_pos hid, hid]
        exact Or.inr (Or.inr (by simp [ClapSession.step]))
      · rw [if_neg hid]
        obtain h | h | h := hs.explained id' hid' previous hprev
        · exact Or.inl h
        · exact Or.inr (Or.inl h)
        · exact Or.inr (Or.inr (List.mem_cons_of_mem _ h))
    | poll =>
      intro previous hprev
      have hseen := seen_poll hid'
      have hread : (s.step .poll).reading id' = s.reading id' := by
        simp only [ClapSession.step, reading, plugin_poll]
      rw [hread]
      exact Or.inl (Option.some.inj (hprev.symm.trans hseen))

theorem known_poll_of_taken {s : ClapSession ν} {id : ℕ} (hid : id ∈ s.automatable)
    (h : s.TakenForMoved id) : (s.step .poll).known id = s.reading id :=
  learn_of_mem (fun _ hv => (mem_poll.mp hv).2.1) (mem_poll.mpr ⟨hid, rfl, h⟩)

theorem known_poll_of_not_taken {s : ClapSession ν} {id : ℕ} (h : ¬s.TakenForMoved id) :
    (s.step .poll).known id = s.known id :=
  learn_of_notMem fun _ hv => h (mem_poll.mp hv).2.2

/-- A poll is right precisely when what it takes for moved is read as it is, and the rack knows the
rest. -/
theorem pollOk_iff {s : ClapSession ν} (hs : s.Tracked) : s.PollOk ↔ s.Noticed := by
  have hreports : ∀ report ∈ s.inst.pollParamChanges.1, report ∈ s.moved := by
    rintro ⟨id, v⟩ hreport
    obtain ⟨hmem, rfl, previous, hprev, hnear, hecho⟩ := mem_poll.mp hreport
    obtain h | h | h := hs.explained id hmem previous hprev
    · exact absurd (h ▸ near_self _) hnear
    · exact absurd (by simp [isEcho, h]) hecho
    · exact h
  have hvalue : ∀ param, (s.step .poll).normalized param = s.normalized param := by
    intro param
    simp only [step, normalized, plugin_poll]
  constructor
  · intro h param hmem hauto
    have hid := mem_automatable.mpr ⟨param, hmem, hauto, rfl⟩
    have hnear := h.1 param hmem hauto
    rw [hvalue] at hnear
    constructor
    · intro htaken
      rwa [known_poll_of_taken hid htaken] at hnear
    · intro htaken
      rwa [known_poll_of_not_taken htaken] at hnear
  · intro h
    refine ⟨fun param hmem hauto => ?_, hreports⟩
    have hid := mem_automatable.mpr ⟨param, hmem, hauto, rfl⟩
    obtain ⟨hmoved, hknown⟩ := h param hmem hauto
    rw [hvalue]
    by_cases htaken : s.TakenForMoved param.id
    · rw [known_poll_of_taken hid htaken]
      exact hmoved htaken
    · rw [known_poll_of_not_taken htaken]
      exact hknown htaken

/-- Every poll of a session is right exactly when every poll notices what the rack is wrong about, as
it is. -/
theorem along_pollOk_iff {s : ClapSession ν} (hs : s.Tracked) (ops : List ClapSessionOp) :
    Along step (atPolls PollOk) s ops ↔ Along step (atPolls Noticed) s ops := by
  refine along_iff_along (I := Tracked) (fun s op h _ => h.step op) (fun s op h => ?_) hs
  cases op with
  | poll => exact pollOk_iff h
  | setParam id value => exact Iff.rfl
  | moveEditor id value => exact Iff.rfl

end ClapSession

end HikaruOpenLive.PluginHost
