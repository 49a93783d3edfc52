import HikaruOpenLive.Gui.ProbeStatus
import HikaruOpenLive.Gui.RackRows

/-! # The racks as the application and as the probes have them

The probes keep of a slot what they read and write, the rack keeps what it shows and sends. Both are
about the same slots: edit for edit, they hold the same plugins.
-/
set_option autoImplicit false

namespace HikaruOpenLive.Gui

open Foundations.Runs Foundations.ListEdits

/-- Two options with the same image are both empty, or hold elements with the same image. -/
theorem option_map_eq_cases {α β γ : Type} {f : α → γ} {g : β → γ} {a : Option α} {b : Option β}
    (h : a.map f = b.map g) :
    (a = none ∧ b = none) ∨ ∃ x y, a = some x ∧ b = some y ∧ f x = g y := by
  cases a with
  | none => exact Or.inl ⟨rfl, Option.map_eq_none_iff.mp h.symm⟩
  | some x =>
    obtain ⟨y, hy, hxy⟩ := Option.map_eq_some_iff.mp h.symm
    exact Or.inr ⟨x, y, rfl, hy, hxy.symm⟩

theorem length_eq_of_map_eq {α β γ : Type} {f : α → γ} {g : β → γ} {l : List α} {l' : List β}
    (h : l.map f = l'.map g) : l.length = l'.length := by
  rw [← List.length_map f, h, List.length_map]

def DspSlot.pluginId (slot : DspSlot) : Option String :=
  slot.external.map fun plugin => plugin.descriptor.id

/-- The same mode, and in every chain the same plugins. -/
structure SameRacks (st : AppState) (s : ProbeRacks) : Prop where
  mode : s.mode = st.mode
  chains : ∀ p, (s.effects p).map (List.map ProbeSlot.external) =
    (st.effects p).map (List.map DspSlot.pluginId)

/-- What happens to both. -/
inductive RackEdit where
  | assignExternalPlugin (trackIdx slotIdx : ℕ) (plugin : ExternalPlugin)
  | addSlot (trackIdx : ℕ)
  | setMode (mode : AppMode)
  | moveDevice (fromTarget : StripTarget) (fromSlot : ℕ) (toTarget : StripTarget) (toSlot : ℕ)
  | removeSlotAt (trackIdx slotIdx : ℕ)
  | commitExternalParam (trackIdx slotIdx id : ℕ) (value : ℚ)
  | requestExternalParams (id : String)
  | probeDone (i : ℕ) (params : List (PluginParamInfo × ℚ)) (error : Option String) (hasGui : Bool)
  | drainParamProbes

def AppState.receiveProbe (st : AppState) (result : ParamProbeResult) : AppState :=
  match result.error with
  | some _ => st
  | none => st.drainParamProbe result.descriptorId result.params

def RackEdit.apply (x : AppState × ProbeRacks) : RackEdit → AppState × ProbeRacks
  | .assignExternalPlugin trackIdx slotIdx plugin =>
    ((x.1.assignExternalPlugin trackIdx slotIdx plugin).1,
      x.2.assignExternalPlugin trackIdx slotIdx plugin.descriptor.id)
  | .addSlot trackIdx => (x.1.addSlot trackIdx, x.2.step (.addSlot trackIdx))
  | .setMode mode => ({ x.1 with mode := mode }, x.2.step (.setMode mode))
  | .moveDevice fromTarget fromSlot toTarget toSlot =>
    ((x.1.moveDevice fromTarget fromSlot toTarget toSlot).1,
      x.2.moveDevice fromTarget fromSlot toTarget toSlot)
  | .removeSlotAt trackIdx slotIdx =>
    (x.1.removeSlotAt trackIdx slotIdx, x.2.step (.removeSlotAt trackIdx slotIdx))
  | .commitExternalParam trackIdx slotIdx id value =>
    (x.1.commitExternalParam trackIdx slotIdx id value, x.2)
  | .requestExternalParams id => (x.1, x.2.requestExternalParams id)
  | .probeDone i params error hasGui => (x.1, x.2.probeDone i params error hasGui)
  | .drainParamProbes => (x.2.results.foldl AppState.receiveProbe x.1, x.2.drainParamProbes)

namespace SameRacks

variable {st : AppState} {s : ProbeRacks}

theorem congr {st' : AppState} {s' : ProbeRacks} (h : SameRacks st s) (hmode : st'.mode = st.mode)
    (heffects : ∀ p, st'.effects p = st.effects p) (hmode' : s'.mode = s.mode)
    (heffects' : ∀ p, s'.effects p = s.effects p) : SameRacks st' s' := by
  refine ⟨hmode'.trans (h.mode.trans hmode.symm), fun p => ?_⟩
  rw [heffects, heffects']
  exact h.chains p

/-- An edit of one chain on both sides. -/
theorem updateEffects (h : SameRacks st s) (p : Bank × ℕ) {f : List DspSlot → List DspSlot}
    {g : List ProbeSlot → List ProbeSlot}
    (hfg : ∀ effects slots, st.effects p = some effects →
      slots.map ProbeSlot.external = effects.map DspSlot.pluginId →
        (g slots).map ProbeSlot.external = (f effects).map DspSlot.pluginId) :
    SameRacks (st.updateEffects p f) (s.updateEffects p g) := by
  refine ⟨?_, fun q => ?_⟩
  · rw [AppState.mode_updateEffects, ProbeRacks.mode_updateEffects]
    exact h.mode
  · have hq := h.chains q
    rw [AppState.effects_updateEffects, ProbeRacks.effects_updateEffects]
    by_cases hqp : q = p
    · rw [if_pos hqp, if_pos hqp]
      obtain ⟨hnone, hnone'⟩ | ⟨slots, effects, hslots, heffects, hsame⟩ := option_map_eq_cases hq
      · rw [hnone, hnone']
        rfl
      · rw [hslots, heffects]
        exact congrArg some (hfg effects slots (hqp ▸ heffects) hsame)
    · rw [if_neg hqp, if_neg hqp]
      exact hq

theorem place_eq (h : SameRacks st s) (target : StripTarget) : s.place target = st.place target := by
  cases target with
  | master => rw [ProbeRacks.place, h.mode, AppState.place]
  | live idx => rfl
  | studio idx => rfl
  | fx idx => rfl

theorem setBank_app (h : SameRacks st s) {tracks : List Track} {b : Bank}
    (hsame : (tracks.map fun track => track.effects.map DspSlot.pluginId) =
      (st.bank b).map fun track => track.effects.map DspSlot.pluginId) :
    SameRacks (st.setBank tracks b) s := by
  refine ⟨h.mode.trans (st.mode_setBank tracks b).symm, fun p => ?_⟩
  rw [h.chains, AppState.effects, AppState.effects, AppState.bank_setBank]
  by_cases hp : p.1 = b
  · have hrow := congrArg (fun rows => rows[p.2]?) hsame
    simp only [List.getElem?_map] at hrow
    rw [if_pos hp, hp, Option.map_map, Option.map_map]
    exact hrow.symm
  · rw [if_neg hp]

theorem setBank_probes (h : SameRacks st s) {tracks : List (List ProbeSlot)} {b : Bank}
    (hsame : tracks.map (List.map ProbeSlot.external) =
      (s.bank b).map (List.map ProbeSlot.external)) : SameRacks st (s.setBank tracks b) := by
  refine ⟨(by cases b <;> exact h.mode), fun p => ?_⟩
  rw [← h.chains, ProbeRacks.effects, ProbeRacks.effects, ProbeRacks.bank_setBank]
  by_cases hp : p.1 = b
  · have hrow := congrArg (fun rows => rows[p.2]?) hsame
    simp only [List.getElem?_map] at hrow
    rw [if_pos hp, hp]
    exact hrow
  · rw [if_neg hp]

/-! ## One edit -/

theorem request (h : SameRacks st s) (id : String) : SameRacks st (s.requestExternalParams id) := by
  unfold ProbeRacks.requestExternalParams
  split
  · exact h
  · split
    · refine (h.setBank_probes ?_).congr rfl (fun _ => rfl) rfl (fun _ => rfl)
      refine map_updateFirst _ _ (fun track => ?_) _
      exact map_updateFirst _ ProbeSlot.mark (fun _ => rfl) track
    · exact h.congr rfl (fun _ => rfl) rfl (fun _ => rfl)

theorem drainProbes (h : SameRacks st s) : SameRacks st s.drainParamProbes := by
  refine (h.setBank_probes ?_).congr rfl (fun _ => rfl) rfl (fun _ => rfl)
  rw [List.map_map]
  refine List.map_congr_left fun track _ => ?_
  rw [Function.comp_apply, List.map_map]
  refine List.map_congr_left fun slot _ => ?_
  exact ProbeSlot.external_foldl_receive s.results slot

theorem receiveProbe (h : SameRacks st s) (result : ParamProbeResult) :
    SameRacks (st.receiveProbe result) s := by
  unfold AppState.receiveProbe
  split
  · exact h
  · refine h.setBank_app ?_
    rw [List.map_map]
    refine List.map_congr_left fun track _ => ?_
    simp only [Function.comp_apply, List.map_map]
    refine List.map_congr_left fun slot _ => ?_
    simp only [Function.comp_apply]
    split
    · rfl
    · rfl

theorem addSlot (h : SameRacks st s) (trackIdx : ℕ) :
    SameRacks (st.addSlot trackIdx) (s.step (.addSlot trackIdx)) := by
  have hedit := h.updateEffects (st.mode.bank, trackIdx)
    (f := fun effects => effects ++ [DspSlot.new emptySlotName])
    (g := fun slots => slots ++ [ProbeSlot.empty]) (fun effects slots _ hsame => by
      rw [List.map_append, List.map_append, hsame]
      rfl)
  simp only [ProbeRacks.step, h.mode]
  unfold AppState.addSlot
  cases htrack : st.trackEffects trackIdx with
  | none =>
    refine hedit.congr (st.mode_updateEffects _ _).symm (fun p => ?_) rfl (fun _ => rfl)
    simp only
    rw [AppState.effects_updateEffects]
    by_cases hp : p = (st.mode.bank, trackIdx)
    · rw [AppState.trackEffects, ← hp] at htrack
      rw [if_pos hp, htrack]
      rfl
    · rw [if_neg hp]
  | some effects => exact hedit.congr rfl (fun _ => rfl) rfl (fun _ => rfl)

theorem erase (h : SameRacks st s) (p : Bank × ℕ) (slotIdx : ℕ) :
    SameRacks (st.updateEffects p fun effects => effects.eraseIdx slotIdx)
      (s.updateEffects p fun slots => slots.eraseIdx slotIdx) := by
  refine h.updateEffects p fun effects slots _ hsame => ?_
  rw [← List.eraseIdx_map, ← List.eraseIdx_map, hsame]

theorem removeSlotAt (h : SameRacks st s) (trackIdx slotIdx : ℕ) :
    SameRacks (st.removeSlotAt trackIdx slotIdx) (s.step (.removeSlotAt trackIdx slotIdx)) := by
  simp only [ProbeRacks.step, h.mode]
  exact (h.erase _ slotIdx).congr rfl (fun _ => rfl) rfl (fun _ => rfl)

theorem assignExternalPlugin (h : SameRacks st s) (trackIdx slotIdx : ℕ) (plugin : ExternalPlugin) :
    SameRacks (st.assignExternalPlugin trackIdx slotIdx plugin).1
      (s.assignExternalPlugin trackIdx slotIdx plugin.descriptor.id) := by
  refine request ?_ _
  rw [h.mode]
  refine (h.updateEffects (st.mode.bank, trackIdx) ?_).congr rfl (fun _ => rfl) rfl (fun _ => rfl)
  intro effects slots _ hsame
  apply List.ext_getElem?
  intro i
  have hi := congrArg (fun row => row[i]?) hsame
  simp only [List.getElem?_map, List.getElem?_modify] at hi ⊢
  obtain ⟨hnone, hnone'⟩ | ⟨slot, old, hslot, hold, hsame⟩ := option_map_eq_cases hi
  · rw [hnone, hnone']
    rfl
  · rw [hslot, hold, Option.map_eq_map, Option.map_eq_map, Option.map_some, Option.map_some,
      Option.map_some, Option.map_some]
    by_cases hi : slotIdx = i
    · rw [if_pos hi, if_pos hi]
      rfl
    · rw [if_neg hi, if_neg hi, hsame]

theorem commitExternalParam (h : SameRacks st s) (trackIdx slotIdx id : ℕ) (value : ℚ) :
    SameRacks (st.commitExternalParam trackIdx slotIdx id value) s := by
  refine h.setBank_app (map_modify_of_eq (fun track => ?_) _ _)
  refine map_modify_of_eq (fun slot => ?_) _ _
  rw [DspSlot.pluginId, DspSlot.external_setExternalParam]
  rfl

theorem length_chain (h : SameRacks st s) (p : Bank × ℕ) :
    ((s.effects p).getD []).length = ((st.effects p).getD []).length := by
  obtain ⟨hnone, hnone'⟩ | ⟨slots, effects, hslots, heffects, hsame⟩ :=
    option_map_eq_cases (h.chains p)
  · rw [hnone, hnone']
    rfl
  · rw [hslots, heffects]
    exact length_eq_of_map_eq hsame

theorem getElem?_chain (h : SameRacks st s) (p : Bank × ℕ) (slotIdx : ℕ) :
    ((s.effects p).bind fun slots => slots[slotIdx]?).map ProbeSlot.external =
      ((st.effects p).bind fun effects => effects[slotIdx]?).map DspSlot.pluginId := by
  obtain ⟨hnone, hnone'⟩ | ⟨slots, effects, hslots, heffects, hsame⟩ :=
    option_map_eq_cases (h.chains p)
  · rw [hnone, hnone']
    rfl
  · rw [hslots, heffects, Option.bind_some, Option.bind_some, ← List.getElem?_map,
      ← List.getElem?_map, hsame]

theorem moveDevice (h : SameRacks st s) (fromTarget : StripTarget) (fromSlot : ℕ)
    (toTarget : StripTarget) (toSlot : ℕ) :
    SameRacks (st.moveDevice fromTarget fromSlot toTarget toSlot).1
      (s.moveDevice fromTarget fromSlot toTarget toSlot) := by
  have htaken := h.erase (st.place fromTarget) fromSlot
  simp only [AppState.moveDevice, ProbeRacks.moveDevice, ProbeRacks.slotAt, AppState.targetEffects,
    ProbeRacks.place_updateEffects, AppState.place_updateEffects, h.place_eq, h.length_chain]
  split
  · exact h
  · obtain ⟨hnone, hnone'⟩ | ⟨slot, old, hslot, hold, hsame⟩ :=
      option_map_eq_cases (h.getElem?_chain (st.place fromTarget) fromSlot)
    · simp only [hnone, hnone']
      exact h
    · obtain ⟨hnone, hnone'⟩ | ⟨slots, effects, hslots, heffects, _⟩ :=
        option_map_eq_cases (htaken.chains (st.place toTarget))
      · simp only [hslot, hold, hnone, hnone']
        refine htaken.updateEffects _ fun effects slots _ hchain => ?_
        rw [List.map_insertIdx, List.map_insertIdx, hchain, hsame, length_eq_of_map_eq hchain]
      · simp only [hslot, hold, hslots, heffects]
        have hplaced := htaken.updateEffects (st.place toTarget)
          (f := fun chain => chain.insertIdx (min toSlot effects.length) old)
          (g := fun chain => chain.insertIdx (min toSlot chain.length) slot)
          (fun effects' slots' heffects' hchain => by
            obtain rfl := Option.some.inj (heffects.symm.trans heffects')
            rw [List.map_insertIdx, List.map_insertIdx, hchain, hsame, length_eq_of_map_eq hchain])
        split
        · exact hplaced.congr rfl (fun _ => rfl) rfl (fun _ => rfl)
        · exact hplaced

theorem apply {x : AppState × ProbeRacks} (h : SameRacks x.1 x.2) (edit : RackEdit) :
    SameRacks (edit.apply x).1 (edit.apply x).2 := by
  cases edit with
  | assignExternalPlugin trackIdx slotIdx plugin => exact h.assignExternalPlugin trackIdx slotIdx plugin
  | addSlot trackIdx => exact h.addSlot trackIdx
  | setMode mode => exact ⟨rfl, h.chains⟩
  | moveDevice fromTarget fromSlot toTarget toSlot =>
    exact h.moveDevice fromTarget fromSlot toTarget toSlot
  | removeSlotAt trackIdx slotIdx => exact h.removeSlotAt trackIdx slotIdx
  | commitExternalParam trackIdx slotIdx id value =>
    exact h.commitExternalParam trackIdx slotIdx id value
  | requestExternalParams id => exact h.request id
  | probeDone i params error hasGui =>
    simp only [RackEdit.apply, ProbeRacks.probeDone]
    split
    · exact h
    · exact h.congr rfl (fun _ => rfl) rfl (fun _ => rfl)
  | drainParamProbes =>
    refine drainProbes ?_
    have hresults : ∀ (results : List ParamProbeResult) (st : AppState), SameRacks st x.2 →
        SameRacks (results.foldl AppState.receiveProbe st) x.2 := by
      intro results
      induction results with
      | nil => exact fun st hst => hst
      | cons result results ih => exact fun st hst => ih _ (hst.receiveProbe result)
    exact hresults x.2.results x.1 h

end SameRacks

/-- The probes of the racks an application has. -/
def AppState.probeRacks (st : AppState) : ProbeRacks :=
  let chains := List.map fun track : Track => track.effects.map DspSlot.pluginId
  .opened st.mode (chains st.liveTracks) (chains st.studioTracks) (chains st.fxTracks)

theorem sameRacks_probeRacks (st : AppState) : SameRacks st st.probeRacks := by
  refine ⟨rfl, fun p => ?_⟩
  obtain ⟨b, i⟩ := p
  cases b <;>
    simp [AppState.probeRacks, ProbeRacks.opened, ProbeRacks.effects, ProbeRacks.bank,
      AppState.effects, AppState.bank, Function.comp_def]

/-- However the racks are edited and whatever the probes do, both go on holding the same plugins. -/
theorem always_sameRacks (st : AppState) (edits : List RackEdit) :
    Always RackEdit.apply (fun x => SameRacks x.1 x.2) (st, st.probeRacks) edits :=
  always_of_step (fun _ edit h => h.apply edit) (sameRacks_probeRacks st)

end HikaruOpenLive.Gui
