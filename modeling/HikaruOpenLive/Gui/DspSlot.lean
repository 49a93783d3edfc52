import Mathlib.Data.Rat.Floor
import HikaruOpenLive.Foundations.ListEdits
import HikaruOpenLive.Engine.PluginChains

/-! # A slot of the rack

A slot holds a native device, which its name tells, or an external plugin, of which the rack knows the
descriptor and a cache of parameters. A knob writes the cache and leaves the change in a queue of the
slot until the next flush.

Two things here are history and not data of the code: every assignment of an external plugin has a
number (`uid`), and a change remembers the number of the plugin its slot held when it was made
(`origin`).
-/
set_option autoImplicit false

namespace HikaruOpenLive.Gui

open Engine Foundations.ListEdits

structure PluginParamInfo where
  id : ℕ
  stepCount : ℤ
deriving DecidableEq

namespace PluginParamInfo

def isDiscrete (info : PluginParamInfo) : Bool :=
  1 < info.stepCount

/-- The value on the step it belongs to; a continuous parameter keeps its value. -/
def snap (info : PluginParamInfo) (normalized : ℚ) : ℚ :=
  let n := max 0 (min normalized 1)
  if info.isDiscrete then
    let steps : ℚ := info.stepCount
    max 0 (min (⌊n * steps + 1 / 2⌋ / steps) 1)
  else n

theorem snap_mem (info : PluginParamInfo) (normalized : ℚ) :
    0 ≤ info.snap normalized ∧ info.snap normalized ≤ 1 := by
  have hclamp : ∀ x : ℚ, 0 ≤ max 0 (min x 1) ∧ max 0 (min x 1) ≤ 1 := fun x =>
    ⟨le_max_left _ _, max_le zero_le_one (min_le_right _ _)⟩
  unfold snap
  split
  · exact hclamp _
  · exact hclamp _

end PluginParamInfo

structure ExternalParamState where
  info : PluginParamInfo
  value : ℚ
deriving DecidableEq

structure ParamChange where
  id : ℕ
  value : ℚ
  origin : Option ℕ
deriving DecidableEq

structure ExternalPlugin where
  descriptor : PluginDescriptor
  uid : ℕ
deriving DecidableEq

structure DspSlot where
  name : String
  external : Option ExternalPlugin
  loadError : Option String
  externalParams : List ExternalParamState
  pendingExternalParams : List ParamChange
deriving DecidableEq

def emptySlotName : String :=
  "Empty Slot"

/-- `f32::EPSILON`, below which a knob has not moved. -/
def epsilon : ℚ :=
  1 / 2 ^ 23

namespace DspSlot

def new (name : String) : DspSlot :=
  { name := name, external := none, loadError := none, externalParams := []
    pendingExternalParams := [] }

def uid (slot : DspSlot) : Option ℕ :=
  slot.external.map ExternalPlugin.uid

def takePendingExternalParams (slot : DspSlot) : List ParamChange × DspSlot :=
  (slot.pendingExternalParams, { slot with pendingExternalParams := [] })

/-- Puts a change in the queue; an earlier one of the same parameter is overwritten. -/
def enqueueExternalParam (slot : DspSlot) (id : ℕ) (value : ℚ) : DspSlot :=
  { slot with
    pendingExternalParams :=
      if slot.pendingExternalParams.any fun change => change.id == id then
        updateFirst (fun change => change.id == id)
          (fun change => { change with value := value, origin := slot.uid })
          slot.pendingExternalParams
      else slot.pendingExternalParams ++ [⟨id, value, slot.uid⟩] }

/-- A knob gesture: the value applied, if the parameter is there and has moved, and the slot. -/
def setExternalParam (slot : DspSlot) (id : ℕ) (value : ℚ) : Option ℚ × DspSlot :=
  match slot.externalParams.find? fun param => param.info.id == id with
  | none => (none, slot)
  | some param =>
    let snapped := param.info.snap value
    if |param.value - snapped| ≤ epsilon then (none, slot)
    else
      (some snapped,
        ({ slot with
          externalParams := updateFirst (fun param => param.info.id == id)
            (fun param => { param with value := snapped }) slot.externalParams }
          : DspSlot).enqueueExternalParam id snapped)

/-! ## What a gesture leaves alone -/

@[simp] theorem external_enqueueExternalParam (slot : DspSlot) (id : ℕ) (value : ℚ) :
    (slot.enqueueExternalParam id value).external = slot.external := rfl

/-- A change in the queue was there before the gesture, or it was made now. -/
theorem mem_enqueueExternalParam {slot : DspSlot} {id : ℕ} {value : ℚ} {change : ParamChange}
    (h : change ∈ (slot.enqueueExternalParam id value).pendingExternalParams) :
    change ∈ slot.pendingExternalParams ∨ change.origin = slot.uid := by
  unfold enqueueExternalParam at h
  simp only at h
  split at h
  · obtain h | ⟨old, _, _, rfl⟩ := mem_updateFirst h
    · exact Or.inl h
    · exact Or.inr rfl
  · obtain h | h := List.mem_append.mp h
    · exact Or.inl h
    · rw [List.mem_singleton.mp h]
      exact Or.inr rfl

theorem nodup_enqueueExternalParam {slot : DspSlot} (id : ℕ) (value : ℚ)
    (h : (slot.pendingExternalParams.map ParamChange.id).Nodup) :
    ((slot.enqueueExternalParam id value).pendingExternalParams.map ParamChange.id).Nodup := by
  unfold enqueueExternalParam
  simp only
  split
  case isTrue =>
    rwa [map_updateFirst (g := ParamChange.id) _
      (fun change => { change with value := value, origin := slot.uid }) (fun _ => rfl)]
  case isFalse hnone =>
    rw [List.map_append, List.nodup_append]
    refine ⟨h, by simp, ?_⟩
    intro a ha b hb hab
    obtain ⟨change, hmem, rfl⟩ := List.mem_map.mp ha
    rw [List.map_singleton, List.mem_singleton] at hb
    refine hnone (List.any_eq_true.mpr ⟨change, hmem, ?_⟩)
    simp [hab, hb]

theorem setExternalParam_cases (slot : DspSlot) (id : ℕ) (value : ℚ) :
    (slot.setExternalParam id value).2 = slot ∨
      ∃ params v, (slot.setExternalParam id value).2 =
        ({ slot with externalParams := params } : DspSlot).enqueueExternalParam id v := by
  unfold setExternalParam
  split
  · exact Or.inl rfl
  · simp only
    split
    · exact Or.inl rfl
    · exact Or.inr ⟨_, _, rfl⟩

@[simp] theorem external_setExternalParam (slot : DspSlot) (id : ℕ) (value : ℚ) :
    (slot.setExternalParam id value).2.external = slot.external := by
  obtain h | ⟨params, v, h⟩ := slot.setExternalParam_cases id value
  · rw [h]
  · rw [h, external_enqueueExternalParam]

theorem nodup_setExternalParam {slot : DspSlot} (id : ℕ) (value : ℚ)
    (h : (slot.pendingExternalParams.map ParamChange.id).Nodup) :
    ((slot.setExternalParam id value).2.pendingExternalParams.map ParamChange.id).Nodup := by
  obtain hcase | ⟨params, v, hcase⟩ := slot.setExternalParam_cases id value
  · rwa [hcase]
  · rw [hcase]
    exact nodup_enqueueExternalParam id v h

theorem mem_setExternalParam {slot : DspSlot} {id : ℕ} {value : ℚ} {change : ParamChange}
    (h : change ∈ (slot.setExternalParam id value).2.pendingExternalParams) :
    change ∈ slot.pendingExternalParams ∨ change.origin = slot.uid := by
  obtain hcase | ⟨params, v, hcase⟩ := slot.setExternalParam_cases id value
  · rw [hcase] at h
    exact Or.inl h
  · rw [hcase] at h
    exact mem_enqueueExternalParam h

end DspSlot

end HikaruOpenLive.Gui
