import HikaruOpenLive.Foundations.Runs
import HikaruOpenLive.Foundations.Upsert
import HikaruOpenLive.Gui.AppState

/-! # What a slot shows and what the engine was sent

The knobs of a slot, the feedback of the plugin's editor and the results of a probe write what the slot
shows; the first two also leave a change for the engine. What the engine has, once everything is
flushed, is the newest change of each parameter (`latest`).
-/
set_option autoImplicit false

namespace HikaruOpenLive.Gui

open Foundations.Runs Foundations.ListEdits Foundations.Upsert

structure ParamDragState where
  track : ℕ
  slot : ℕ
  paramId : ℕ
deriving DecidableEq

namespace DspSlot

/-- The editor's changes, the parameter under the finger apart: the slot shows what its steps make of
each, and the engine is sent the value as it came. -/
def applyParamFeedback (slot : DspSlot) (dragged : Option ℕ) (changes : List (ℕ × ℚ)) : DspSlot :=
  changes.foldl
    (fun slot change =>
      if dragged = some change.1 then slot
      else (slot.setExternalParam change.1 change.2).2.enqueueExternalParam change.1 change.2)
    slot

def shown (slot : DspSlot) (id : ℕ) : Option ExternalParamState :=
  lookup (fun param => param.info.id) slot.externalParams id

def waiting (slot : DspSlot) (id : ℕ) : Option ℚ :=
  (lookup ParamChange.id slot.pendingExternalParams id).map ParamChange.value

end DspSlot

def AppState.applyParamFeedback (st : AppState) (drag : Option ParamDragState)
    (descriptorId : String) (changes : List (ℕ × ℚ)) : AppState :=
  st.setBank
    (st.tracks.mapIdx fun trackIdx track =>
      { track with
        effects := track.effects.mapIdx fun slotIdx slot =>
          if slot.external.any fun plugin => plugin.descriptor.id == descriptorId then
            slot.applyParamFeedback
              ((drag.filter fun drag => drag.track == trackIdx && drag.slot == slotIdx).map
                ParamDragState.paramId)
              changes
          else slot })
    st.mode.bank

/-- Every visible slot with the plugin gets the event, less what is under the finger in that slot. -/
theorem AppState.trackEffects_applyParamFeedback (st : AppState) (drag : Option ParamDragState)
    (descriptorId : String) (changes : List (ℕ × ℚ)) (trackIdx : ℕ) :
    (st.applyParamFeedback drag descriptorId changes).trackEffects trackIdx =
      (st.trackEffects trackIdx).map fun effects => effects.mapIdx fun slotIdx slot =>
        if slot.external.any fun plugin => plugin.descriptor.id == descriptorId then
          slot.applyParamFeedback
            ((drag.filter fun drag => drag.track == trackIdx && drag.slot == slotIdx).map
              ParamDragState.paramId)
            changes
        else slot := by
  unfold AppState.applyParamFeedback AppState.trackEffects AppState.effects AppState.tracks
  cases hmode : st.mode with
  | openLive =>
    simp only [AppMode.bank, AppState.setBank, AppState.bank, hmode, List.getElem?_mapIdx,
      Option.map_map]
    rfl
  | openStudio =>
    simp only [AppMode.bank, AppState.setBank, AppState.bank, hmode, List.getElem?_mapIdx,
      Option.map_map]
    rfl

/-- The value a parameter shows after a change: the step of the change, unless that is no move. -/
def settle (info : PluginParamInfo) (value raw : ℚ) : ℚ :=
  if |value - info.snap raw| ≤ epsilon then value else info.snap raw

/-- The values an event of the editor has for a parameter, the oldest first. -/
def rawsOf (dragged : Option ℕ) (changes : List (ℕ × ℚ)) (id : ℕ) : List ℚ :=
  (changes.filter fun change => change.1 == id && !(dragged == some id)).map Prod.snd

def settleAll (param : ExternalParamState) (raws : List ℚ) : ℚ :=
  raws.foldl (settle param.info) param.value

namespace DspSlot

theorem enqueueExternalParam_eq_upsert (slot : DspSlot) (id : ℕ) (value : ℚ) :
    (slot.enqueueExternalParam id value).pendingExternalParams =
      upsert ParamChange.id ⟨id, value, slot.uid⟩ slot.pendingExternalParams := by
  have hsame : ∀ l : List ParamChange,
      updateFirst (fun change => change.id == id)
          (fun change => { change with value := value, origin := slot.uid }) l =
        updateFirst (fun change => change.id == id) (fun _ => ⟨id, value, slot.uid⟩) l := by
    intro l
    induction l with
    | nil => rfl
    | cons change l ih =>
      rw [updateFirst, updateFirst, ih]
      split
      case isTrue h => rw [beq_iff_eq.mp h]
      case isFalse => rfl
  simp only [enqueueExternalParam, upsert, hsame]

@[simp] theorem waiting_enqueueExternalParam (slot : DspSlot) (id : ℕ) (value : ℚ) (id' : ℕ) :
    (slot.enqueueExternalParam id value).waiting id' =
      if id' = id then some value else slot.waiting id' := by
  rw [waiting, enqueueExternalParam_eq_upsert, lookup_upsert]
  split <;> rfl

@[simp] theorem shown_enqueueExternalParam (slot : DspSlot) (id : ℕ) (value : ℚ) (id' : ℕ) :
    (slot.enqueueExternalParam id value).shown id' = slot.shown id' := rfl

/-- A gesture settles the parameter it is about, if the slot shows it. -/
theorem shown_setExternalParam (slot : DspSlot) (id : ℕ) (value : ℚ) (id' : ℕ) :
    (slot.setExternalParam id value).2.shown id' =
      if id' = id then
        (slot.shown id).map fun param =>
          { param with value := settle param.info param.value value }
      else slot.shown id' := by
  have hfind : slot.externalParams.find? (fun param => param.info.id == id) = slot.shown id := rfl
  unfold setExternalParam
  rw [hfind]
  cases hshown : slot.shown id with
  | none =>
    simp only [Option.map_none]
    by_cases hid : id' = id
    · rw [if_pos hid, hid, hshown]
    · rw [if_neg hid]
  | some param =>
    simp only [Option.map_some]
    by_cases hnear : |param.value - param.info.snap value| ≤ epsilon
    · rw [if_pos hnear]
      by_cases hid : id' = id
      · rw [if_pos hid, hid, hshown, settle, if_pos hnear]
      · rw [if_neg hid]
    · rw [if_neg hnear, shown_enqueueExternalParam]
      have hlook := lookup_updateFirst (fun param : ExternalParamState => param.info.id)
        (f := fun p => { p with value := param.info.snap value }) (k := id) (fun _ h => h)
        slot.externalParams id'
      refine hlook.trans ?_
      by_cases hid : id' = id
      · rw [if_pos hid, if_pos hid, settle, if_neg hnear]
        exact congrArg _ hshown
      · rw [if_neg hid, if_neg hid]
        rfl

/-- A gesture leaves a change for the engine only if the slot shows another value afterwards. -/
theorem waiting_setExternalParam (slot : DspSlot) (id : ℕ) (value : ℚ) (id' : ℕ) :
    (slot.setExternalParam id value).2.waiting id' =
      if id' = id then (slot.setExternalParam id value).1.or (slot.waiting id')
      else slot.waiting id' := by
  unfold setExternalParam
  split
  case h_1 => simp
  case h_2 param hparam =>
    simp only
    split
    case isTrue => simp
    case isFalse =>
      rw [waiting_enqueueExternalParam]
      split
      case isTrue => rfl
      case isFalse => rfl

theorem shown_of_moved {slot : DspSlot} {id : ℕ} {value applied : ℚ}
    (h : (slot.setExternalParam id value).1 = some applied) :
    ∃ param, slot.shown id = some param ∧ settle param.info param.value value = applied := by
  unfold setExternalParam at h
  split at h
  case h_1 => exact absurd h (by simp)
  case h_2 param hparam =>
    simp only at h
    split at h
    case isTrue => exact absurd h (by simp)
    case isFalse hfar =>
      refine ⟨param, hparam, ?_⟩
      rw [settle, if_neg hfar]
      exact Option.some.inj h

theorem settle_of_not_moved {slot : DspSlot} {id : ℕ} {value : ℚ} {param : ExternalParamState}
    (h : (slot.setExternalParam id value).1 = none) (hparam : slot.shown id = some param) :
    settle param.info param.value value = param.value := by
  have hfind : slot.externalParams.find? (fun param => param.info.id == id) = some param := hparam
  unfold setExternalParam at h
  rw [hfind] at h
  simp only at h
  split at h
  case isTrue hnear => rw [settle, if_pos hnear]
  case isFalse => exact absurd h (by simp)

/-! ## An event of the editor -/

theorem external_applyParamFeedback (slot : DspSlot) (dragged : Option ℕ)
    (changes : List (ℕ × ℚ)) :
    (slot.applyParamFeedback dragged changes).external = slot.external := by
  induction changes generalizing slot with
  | nil => rfl
  | cons change changes ih =>
    rw [applyParamFeedback, List.foldl_cons]
    refine (ih _).trans ?_
    split
    · rfl
    · rw [external_enqueueExternalParam, external_setExternalParam]

theorem nodup_applyParamFeedback {slot : DspSlot} (dragged : Option ℕ) (changes : List (ℕ × ℚ))
    (h : (slot.pendingExternalParams.map ParamChange.id).Nodup) :
    ((slot.applyParamFeedback dragged changes).pendingExternalParams.map ParamChange.id).Nodup := by
  induction changes generalizing slot with
  | nil => exact h
  | cons change changes ih =>
    rw [applyParamFeedback, List.foldl_cons]
    refine ih ?_
    split
    · exact h
    · exact nodup_enqueueExternalParam _ _ (nodup_setExternalParam _ _ h)

theorem rawsOf_cons (dragged : Option ℕ) (change : ℕ × ℚ) (changes : List (ℕ × ℚ)) (id : ℕ) :
    rawsOf dragged (change :: changes) id =
      if change.1 = id ∧ dragged ≠ some change.1 then change.2 :: rawsOf dragged changes id
      else rawsOf dragged changes id := by
  unfold rawsOf
  rw [List.filter_cons]
  by_cases hid : change.1 = id
  · by_cases hdrag : dragged = some id
    · simp [hid, hdrag]
    · simp [hid, hdrag]
  · simp [hid]

/-- After an event, a parameter has settled on its values one after the other, and the last of them
waits for the engine as it came. -/
theorem applyParamFeedback_spec (slot : DspSlot) (dragged : Option ℕ) (changes : List (ℕ × ℚ))
    (id : ℕ) :
    (slot.applyParamFeedback dragged changes).shown id =
        (slot.shown id).map (fun param =>
          { param with value := settleAll param (rawsOf dragged changes id) }) ∧
      (slot.applyParamFeedback dragged changes).waiting id =
        (rawsOf dragged changes id).getLast?.or (slot.waiting id) := by
  induction changes generalizing slot with
  | nil => simp [applyParamFeedback, rawsOf, settleAll]
  | cons change changes ih =>
    rw [applyParamFeedback, List.foldl_cons, rawsOf_cons]
    by_cases hdrag : dragged = some change.1
    · rw [if_pos hdrag, if_neg fun h => h.2 hdrag]
      exact ih slot
    · rw [if_neg hdrag]
      obtain ⟨hshown, hwaiting⟩ :=
        ih ((slot.setExternalParam change.1 change.2).2.enqueueExternalParam change.1 change.2)
      rw [shown_enqueueExternalParam, shown_setExternalParam] at hshown
      rw [waiting_enqueueExternalParam, waiting_setExternalParam] at hwaiting
      by_cases hid : change.1 = id
      · rw [if_pos hid.symm] at hshown hwaiting
        rw [if_pos ⟨hid, hdrag⟩]
        refine ⟨hshown.trans ?_, hwaiting.trans ?_⟩
        · rw [hid, Option.map_map]
          rfl
        · cases rawsOf dragged changes id with
          | nil => rfl
          | cons raw raws => simp [List.getLast?_cons]
      · rw [if_neg (Ne.symm hid)] at hshown hwaiting
        rw [if_neg fun h => hid h.1]
        exact ⟨hshown, hwaiting.trans (by rw [if_neg (Ne.symm hid)])⟩

end DspSlot

/-! ## Sessions of one slot -/

/-- The engine's values after a list of changes, applied in order. -/
def receive (sent : ℕ → Option ℚ) (params : List ParamChange) : ℕ → Option ℚ :=
  params.foldl (fun sent change => Function.update sent change.id (some change.value)) sent

theorem receive_of_nodup {params : List ParamChange} (h : (params.map ParamChange.id).Nodup)
    (sent : ℕ → Option ℚ) (id : ℕ) :
    receive sent params id =
      ((lookup ParamChange.id params id).map ParamChange.value).or (sent id) := by
  induction params generalizing sent with
  | nil => rfl
  | cons change params ih =>
    rw [List.map_cons, List.nodup_cons] at h
    rw [receive, List.foldl_cons]
    refine (ih h.2 _).trans ?_
    unfold lookup
    rw [List.find?_cons]
    by_cases hid : change.id = id
    · have hnone : params.find? (fun c => c.id == id) = none := by
        rw [List.find?_eq_none]
        intro c hc hcid
        refine h.1 ?_
        rw [hid, ← beq_iff_eq.mp hcid]
        exact List.mem_map_of_mem hc
      simp [hnone, hid]
    · have hne : (change.id == id) = false := by simpa using hid
      simp [hne, Function.update_of_ne (Ne.symm hid)]

/-- A slot that holds an external plugin, where the engine has it, the parameter under the finger, the
last value sent of each parameter and, as history, the newest one left for the next flush. -/
structure SlotSession where
  slot : DspSlot
  engineIdx : ℕ
  slotIdx : ℕ
  dragged : Option ℕ
  sent : ℕ → Option ℚ
  newest : ℕ → Option ℚ
  loaded : slot.external.isSome = true

inductive SlotOp where
  | gesture (id : ℕ) (value : ℚ)
  | feedback (changes : List (ℕ × ℚ))
  | probe (params : List (PluginParamInfo × ℚ))
  | dragBegin (id : ℕ)
  | dragEnd
  | flush

def probed (params : List (PluginParamInfo × ℚ)) : List ExternalParamState :=
  params.map fun param => ⟨param.1, param.2⟩

namespace SlotSession

def start (plugin : ExternalPlugin) (params : List (PluginParamInfo × ℚ)) (engineIdx slotIdx : ℕ) :
    SlotSession :=
  { slot :=
      { DspSlot.new plugin.descriptor.name with
        external := some plugin, externalParams := probed params }
    engineIdx := engineIdx, slotIdx := slotIdx, dragged := none, sent := fun _ => none
    newest := fun _ => none, loaded := rfl }

/-- What a flush would send now. -/
def command (s : SlotSession) : Option GuiCommand :=
  AppState.syncCommand s.engineIdx s.slotIdx s.slot

def commandParams : Option GuiCommand → List ParamChange
  | some (.syncExternalPluginParams _ _ params) => params
  | _ => []

def step (s : SlotSession) : SlotOp → SlotSession
  | .gesture id value =>
    { s with
      slot := (s.slot.setExternalParam id value).2
      newest := match (s.slot.setExternalParam id value).1 with
        | some applied => Function.update s.newest id (some applied)
        | none => s.newest
      loaded := by rw [s.slot.external_setExternalParam]; exact s.loaded }
  | .feedback changes =>
    { s with
      slot := s.slot.applyParamFeedback s.dragged changes
      newest := fun id => (rawsOf s.dragged changes id).getLast?.or (s.newest id)
      loaded := by rw [s.slot.external_applyParamFeedback]; exact s.loaded }
  | .probe params => { s with slot := { s.slot with externalParams := probed params } }
  | .dragBegin id => { s with dragged := some id }
  | .dragEnd => { s with dragged := none }
  | .flush =>
    { s with
      slot := AppState.flushSlot s.slot
      sent := receive s.sent (commandParams s.command)
      newest := fun _ => none
      loaded := by rw [AppState.flushSlot, if_pos s.loaded]; exact s.loaded }

/-- After a flush, what the engine was sent last of a parameter is what the slot shows of it. -/
def FlushOk (s : SlotSession) : Prop :=
  ∀ id param v, (s.step .flush).slot.shown id = some param → (s.step .flush).sent id = some v →
    v = param.value

/-- A flush sends one change for each parameter, the newest; a second flush sends nothing. -/
structure FlushSpec (s : SlotSession) : Prop where
  nodup : ((commandParams s.command).map ParamChange.id).Nodup
  newest : ∀ id v, (∃ change ∈ commandParams s.command, change.id = id ∧ change.value = v) ↔
    s.newest id = some v
  quiet : (s.step .flush).command = none

/-- The value the engine has of a parameter once everything is flushed. -/
def latest (s : SlotSession) (id : ℕ) : Option ℚ :=
  (s.slot.waiting id).or (s.sent id)

/-- The last value that an event has for a parameter the slot shows is the one it settles on; the values
of a probe are those the engine has. -/
def Agrees (s : SlotSession) : SlotOp → Prop
  | .feedback changes => ∀ id param raw, s.slot.shown id = some param →
    (rawsOf s.dragged changes id).getLast? = some raw →
      raw = settleAll param (rawsOf s.dragged changes id)
  | .probe params => ∀ id param v,
    lookup (fun param => param.info.id) (probed params) id = some param →
      s.latest id = some v → v = param.value
  | _ => True

structure Queue (s : SlotSession) : Prop where
  nodup : (s.slot.pendingExternalParams.map ParamChange.id).Nodup
  newest : ∀ id, s.slot.waiting id = s.newest id

theorem commandParams_command (s : SlotSession) :
    commandParams s.command = s.slot.pendingExternalParams := by
  unfold command AppState.syncCommand
  by_cases hempty : s.slot.pendingExternalParams = []
  · rw [if_neg fun h => h.2 hempty, hempty]
    rfl
  · rw [if_pos ⟨s.loaded, hempty⟩]
    rfl

theorem slot_flush (s : SlotSession) :
    (s.step .flush).slot = { s.slot with pendingExternalParams := [] } := by
  simp only [step, AppState.flushSlot, s.loaded, if_true, DspSlot.takePendingExternalParams]

theorem sent_flush {s : SlotSession} (h : s.Queue) (id : ℕ) :
    (s.step .flush).sent id = s.latest id := by
  simp only [step, commandParams_command]
  exact receive_of_nodup h.nodup s.sent id

/-- What is on its way to the engine, or arrived there last, is what the slot shows. -/
def InSync (s : SlotSession) : Prop :=
  ∀ id param v, s.slot.shown id = some param → s.latest id = some v → v = param.value

theorem flushOk_iff {s : SlotSession} (h : s.Queue) : s.FlushOk ↔ s.InSync := by
  unfold FlushOk
  simp only [sent_flush h, slot_flush]
  exact Iff.rfl

theorem queue_start (plugin : ExternalPlugin) (params : List (PluginParamInfo × ℚ))
    (engineIdx slotIdx : ℕ) : (start plugin params engineIdx slotIdx).Queue :=
  ⟨List.nodup_nil, fun _ => rfl⟩

theorem Queue.step {s : SlotSession} (hs : s.Queue) (op : SlotOp) : (s.step op).Queue := by
  cases op with
  | gesture id value =>
    refine ⟨DspSlot.nodup_setExternalParam id value hs.nodup, fun id' => ?_⟩
    simp only [SlotSession.step]
    rw [DspSlot.waiting_setExternalParam, hs.newest]
    cases (s.slot.setExternalParam id value).1 with
    | none =>
      simp
    | some applied =>
      simp only [Option.some_or]
      exact (Function.update_apply ..).symm
  | feedback changes =>
    refine ⟨DspSlot.nodup_applyParamFeedback s.dragged changes hs.nodup, fun id => ?_⟩
    simp only [SlotSession.step]
    rw [(s.slot.applyParamFeedback_spec s.dragged changes id).2, hs.newest]
  | probe params => exact ⟨hs.nodup, hs.newest⟩
  | dragBegin id => exact ⟨hs.nodup, hs.newest⟩
  | dragEnd => exact ⟨hs.nodup, hs.newest⟩
  | flush =>
    constructor
    · rw [slot_flush]
      exact List.nodup_nil
    · intro id
      rw [slot_flush]
      rfl

theorem Queue.flushSpec {s : SlotSession} (hs : s.Queue) : s.FlushSpec := by
  constructor
  · rw [commandParams_command]
    exact hs.nodup
  · intro id v
    rw [commandParams_command, ← hs.newest, DspSlot.waiting, Option.map_eq_some_iff]
    constructor
    · rintro ⟨change, hmem, rfl, rfl⟩
      exact ⟨change, lookup_of_mem hs.nodup hmem, rfl⟩
    · rintro ⟨change, hlook, rfl⟩
      exact ⟨change, mem_of_lookup hlook, key_of_lookup hlook, rfl⟩
  · unfold command
    rw [slot_flush, AppState.syncCommand, if_neg fun h => h.2 rfl]

theorem InSync.gesture {s : SlotSession} (hs : s.InSync) (id : ℕ) (value : ℚ) :
    (s.step (.gesture id value)).InSync := by
  intro id' param v hshown hlatest
  simp only [step] at hshown
  simp only [latest, step] at hlatest
  rw [DspSlot.shown_setExternalParam] at hshown
  rw [DspSlot.waiting_setExternalParam] at hlatest
  by_cases hid : id' = id
  · rw [if_pos hid] at hshown hlatest
    obtain ⟨old, hold, rfl⟩ := Option.map_eq_some_iff.mp hshown
    cases happlied : (s.slot.setExternalParam id value).1 with
    | none =>
      rw [happlied, Option.none_or] at hlatest
      rw [DspSlot.settle_of_not_moved happlied hold]
      exact hs id' old v (by rw [hid]; exact hold) hlatest
    | some applied =>
      obtain ⟨param, hparam, hsettle⟩ := DspSlot.shown_of_moved happlied
      rw [happlied, Option.some_or, Option.some_or] at hlatest
      obtain rfl := Option.some.inj (hold.symm.trans hparam)
      rw [hsettle]
      exact (Option.some.inj hlatest).symm
  · rw [if_neg hid] at hshown hlatest
    exact hs id' param v hshown hlatest

theorem InSync.feedback_iff {s : SlotSession} (hs : s.InSync) (changes : List (ℕ × ℚ)) :
    (s.step (.feedback changes)).InSync ↔ s.Agrees (.feedback changes) := by
  have hspec := s.slot.applyParamFeedback_spec s.dragged changes
  constructor
  · intro h id param raw hshown hlast
    have hlatest : (s.step (.feedback changes)).latest id = some raw := by
      simp only [latest, step, (hspec id).2, hlast, Option.some_or]
    have hafter : (s.step (.feedback changes)).slot.shown id =
        some { param with value := settleAll param (rawsOf s.dragged changes id) } := by
      simp only [step, (hspec id).1, hshown, Option.map_some]
    exact h id _ raw hafter hlatest
  · intro h id param v hshown hlatest
    simp only [step, (hspec id).1] at hshown
    simp only [latest, step, (hspec id).2] at hlatest
    obtain ⟨old, hold, rfl⟩ := Option.map_eq_some_iff.mp hshown
    cases hlast : (rawsOf s.dragged changes id).getLast? with
    | none =>
      rw [hlast, Option.none_or] at hlatest
      rw [List.getLast?_eq_none_iff.mp hlast]
      exact hs id old v hold hlatest
    | some raw =>
      rw [hlast, Option.some_or, Option.some_or] at hlatest
      rw [← Option.some.inj hlatest]
      exact h id old raw hold hlast

theorem InSync.flush {s : SlotSession} (hs : s.InSync) (hqueue : s.Queue) :
    (s.step .flush).InSync := by
  intro id param v hshown hlatest
  rw [slot_flush] at hshown
  have hsame : (s.step .flush).latest id = s.latest id := by
    rw [latest, sent_flush hqueue, slot_flush]
    exact Option.none_or
  rw [hsame] at hlatest
  exact hs id param v hshown hlatest

/-- Where a flush would be right, it stays right over a step exactly when the step agrees. -/
theorem flushOk_step_iff {s : SlotSession} (hs : s.Queue) (hok : s.FlushOk) (op : SlotOp) :
    (s.step op).FlushOk ↔ s.Agrees op := by
  rw [flushOk_iff hs] at hok
  rw [flushOk_iff (hs.step op)]
  cases op with
  | gesture id value => exact iff_of_true (hok.gesture id value) trivial
  | feedback changes => exact hok.feedback_iff changes
  | probe params => exact Iff.rfl
  | dragBegin id => exact iff_of_true hok trivial
  | dragEnd => exact iff_of_true hok trivial
  | flush => exact iff_of_true (hok.flush hs) trivial

/-- In a run from a newly probed slot, a flush is right in every state exactly when every event of the
editor and every probe agrees; and every flush sends each parameter once, the newest value of it. -/
theorem always_flushOk_iff (plugin : ExternalPlugin) (params : List (PluginParamInfo × ℚ))
    (engineIdx slotIdx : ℕ) (ops : List SlotOp) :
    (Always step FlushOk (start plugin params engineIdx slotIdx) ops ↔
      Along step Agrees (start plugin params engineIdx slotIdx) ops) ∧
    Always step FlushSpec (start plugin params engineIdx slotIdx) ops := by
  have hqueue := queue_start plugin params engineIdx slotIdx
  have halways : Always step Queue (start plugin params engineIdx slotIdx) ops :=
    always_of_step (fun s op h => h.step op) hqueue
  have hstart : (start plugin params engineIdx slotIdx).FlushOk := by
    rw [flushOk_iff hqueue]
    intro id param v _ hlatest
    exact absurd hlatest (by simp [latest, start, DspSlot.waiting, DspSlot.new, lookup])
  refine ⟨?_, halways.mono fun s h => h.flushSpec⟩
  exact always_iff_along_within (fun s op h => h.step op)
    (fun s op h hok => flushOk_step_iff h hok op) hqueue hstart

/-- A switch of two steps, at one fifth says the editor: the slot goes on showing zero, and the engine is
sent one fifth. -/
def switchInfo : PluginParamInfo :=
  { id := 7, stepCount := 2 }

def somePlugin : ExternalPlugin :=
  { descriptor := { id := "amp", name := "Amp", path := "amp.clap", format := .clap }, uid := 0 }

theorem not_always_flushOk_raw_feedback :
    ¬Always step FlushOk (start somePlugin [(switchInfo, 0)] 0 0) [.feedback [(7, 1 / 5)], .flush] := by
  rintro ⟨_, hok, _⟩
  have h := hok 7 ⟨switchInfo, 0⟩ (1 / 5) (by decide +kernel) (by decide +kernel)
  exact absurd h (by decide +kernel)

end SlotSession

end HikaruOpenLive.Gui
