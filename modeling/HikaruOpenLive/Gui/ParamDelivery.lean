import HikaruOpenLive.Gui.ChainMirror
import HikaruOpenLive.PluginHost.ParamTexts

/-! # Parameter changes reach the plugin they were made for

A change waits in its slot, is addressed by track and slot when it is flushed, and arrives after
whatever was sent before it. It is right when it arrives because the address is right in the engine
that all earlier commands lead to (`Mirrored`) and because the changes of a slot were made while the
slot held the plugin it holds now (`Queued`).
-/
set_option autoImplicit false

namespace HikaruOpenLive.Gui

open Engine Foundations.Runs Foundations.ListEdits Foundations.SparseRow

variable {loads : ℕ → Bool}

/-- Every plugin has received only changes made while it was in the slot. -/
def OnlyOwnChanges (engine : EngineChains) : Prop :=
  ∀ k, ∀ node ∈ engine.chain k, ∀ change ∈ node.plugin, change.origin = some node.tap

/-- What waits in a slot with a loaded plugin was changed for that plugin. -/
def Queued (loads : ℕ → Bool) (app : AppState) : Prop :=
  ∀ k, k < 16 → ∀ slot ∈ app.rackAt k, ∀ uid, slot.live loads = some uid →
    ∀ change ∈ slot.pendingExternalParams, change.origin = some uid

namespace Session

def StartsClean (loads : ℕ → Bool) (s : Session) : RackOp → Prop
  | .assignExternalPlugin slotIdx _ => loads s.nextUid = true →
    ∀ k, s.app.engineTrackIndex = some k → k < 16 →
      ∀ slot, (s.app.rackAt k)[slotIdx]? = some slot → slot.pendingExternalParams = []
  | _ => True

/-- The edit keeps the chains of the engine's sixteen tracks, and no change waits in a slot that gets
another plugin. -/
def KeepsChanges (loads : ℕ → Bool) (s : Session) (op : RackOp) : Prop :=
  s.KeepsChains (fun k => k < 16) loads op ∧ s.StartsClean loads op

end Session

/-! ## The engine's side -/

theorem mem_chain_load {engine : EngineChains} {t slotIdx k : ℕ} {plugin : ExternalPlugin}
    {node : DspPluginNode (List ParamChange) ℕ}
    (h : node ∈ (deliver loads engine (.loadExternalPlugin t slotIdx plugin)).chain k) :
    node.plugin = [] ∨ ∃ k', node ∈ engine.chain k' := by
  by_cases ht : t < 16
  · cases hload : loads plugin.uid with
    | true =>
      simp only [deliver, hload, if_true, engine.chain_load ht] at h
      split at h
      · obtain rfl | h := mem_putAt h
        · exact Or.inl rfl
        · exact Or.inr ⟨t, h⟩
      · exact Or.inr ⟨k, h⟩
    | false =>
      simp only [deliver, hload, Bool.false_eq_true, if_false, engine.loadInstance_failed ht,
        engine.chain_clearSlot] at h
      split at h
      · exact Or.inr ⟨t, List.mem_of_mem_eraseIdx h⟩
      · exact Or.inr ⟨k, h⟩
  · simp only [deliver, engine.loadInstance_of_le (show 16 ≤ t by omega)] at h
    exact Or.inr ⟨k, h⟩

theorem mem_chain_move {engine : EngineChains} {f fs t ts k : ℕ}
    {node : DspPluginNode (List ParamChange) ℕ}
    (h : node ∈ (deliver loads engine (.moveExternalPlugin f fs t ts)).chain k) :
    ∃ k', node ∈ engine.chain k' := by
  simp only [deliver] at h
  by_cases hlt : 16 ≤ f ∨ 16 ≤ t
  · rw [engine.moveExternalPlugin_refused ts (by tauto)] at h
    exact ⟨k, h⟩
  · cases hnode : (engine.chain f)[fs]? with
    | none =>
      rw [engine.moveExternalPlugin_refused ts (Or.inr (Or.inr hnode))] at h
      exact ⟨k, h⟩
    | some taken =>
      rw [engine.chain_move (by omega) (by omega) ts hnode] at h
      have hsource : ∀ m, m ∈ (if t = f then (engine.chain f).eraseIdx fs else engine.chain t) →
          ∃ k', m ∈ engine.chain k' := by
        intro m hm
        split at hm
        · exact ⟨f, List.mem_of_mem_eraseIdx hm⟩
        · exact ⟨t, hm⟩
      simp only at h
      split at h
      · obtain rfl | h := List.eq_or_mem_of_mem_insertIdx h
        · exact ⟨f, List.mem_of_getElem? hnode⟩
        · exact hsource node h
      · split at h
        · exact ⟨f, List.mem_of_mem_eraseIdx h⟩
        · exact ⟨k, h⟩

theorem OnlyOwnChanges.load {engine : EngineChains} (h : OnlyOwnChanges engine) (t slotIdx : ℕ)
    (plugin : ExternalPlugin) :
    OnlyOwnChanges (deliver loads engine (.loadExternalPlugin t slotIdx plugin)) := by
  intro k node hnode change hchange
  obtain hnew | ⟨k', hold⟩ := mem_chain_load hnode
  · rw [hnew] at hchange
    exact absurd hchange (by simp)
  · exact h k' node hold change hchange

theorem OnlyOwnChanges.move {engine : EngineChains} (h : OnlyOwnChanges engine) (f fs t ts : ℕ) :
    OnlyOwnChanges (deliver loads engine (.moveExternalPlugin f fs t ts)) := by
  intro k node hnode change hchange
  obtain ⟨k', hold⟩ := mem_chain_move hnode
  exact h k' node hold change hchange

/-- Changes sent to an address are right when the plugin they were made for, or none, is there. -/
theorem OnlyOwnChanges.sync {engine : EngineChains} (h : OnlyOwnChanges engine) {t slotIdx : ℕ}
    {params : List ParamChange}
    (hparams : ∀ uid, (chainUids engine t)[slotIdx]? = some uid →
      ∀ change ∈ params, change.origin = some uid) :
    OnlyOwnChanges (deliver loads engine (.syncExternalPluginParams t slotIdx params)) := by
  by_cases ht : t < 16
  · intro k node hnode change hchange
    simp only [deliver, PluginChains.syncExternalPluginParams, engine.chain_setChain ht] at hnode
    split at hnode
    case isTrue =>
      obtain hold | ⟨old, hold, rfl⟩ := mem_modify hnode
      · exact h t node hold change hchange
      · obtain hreceived | hsent := List.mem_append.mp hchange
        · exact h t old (List.mem_of_getElem? hold) change hreceived
        · refine hparams old.tap ?_ change hsent
          rw [chainUids, List.getElem?_map, hold]
          rfl
    case isFalse => exact h k node hnode change hchange
  · simp only [deliver, PluginChains.syncExternalPluginParams]
    rw [engine.setChain_of_le (by omega)]
    exact h

theorem always_flush {commands : List GuiCommand} {uids : ℕ → List ℕ} {engine : EngineChains}
    (huids : ∀ k, chainUids engine k = uids k) (h : OnlyOwnChanges engine)
    (hcommands : ∀ cmd ∈ commands, ∃ t slotIdx params, cmd = .syncExternalPluginParams t slotIdx params ∧
      ∀ uid, (uids t)[slotIdx]? = some uid → ∀ change ∈ params, change.origin = some uid) :
    Always (deliver loads) OnlyOwnChanges engine commands := by
  induction commands generalizing engine with
  | nil => exact h
  | cons cmd commands ih =>
    obtain ⟨t, slotIdx, params, rfl, hparams⟩ := hcommands cmd List.mem_cons_self
    refine ⟨h, ih (fun k => ?_) (h.sync ?_) fun cmd hcmd => hcommands cmd (List.mem_cons_of_mem _ hcmd)⟩
    · rw [chainUids_sync, huids]
    · rwa [huids]

/-! ## The rack's side -/

/-- With a loaded plugin and changes, the slot comes from one of `app` with the same plugin, and what it
has more was changed for that plugin. -/
def Inherited (loads : ℕ → Bool) (app : AppState) (slot : DspSlot) : Prop :=
  slot.live loads = none ∨ slot.pendingExternalParams = [] ∨
    ∃ k, k < 16 ∧ ∃ old ∈ app.rackAt k, slot.uid = old.uid ∧
      ∀ change ∈ slot.pendingExternalParams,
        change ∈ old.pendingExternalParams ∨ change.origin = old.uid

def Inherits (loads : ℕ → Bool) (app app' : AppState) : Prop :=
  ∀ k, k < 16 → ∀ slot ∈ app'.rackAt k, Inherited loads app slot

theorem inherited_of_mem {app : AppState} {k : ℕ} (hk : k < 16) {slot : DspSlot}
    (h : slot ∈ app.rackAt k) : Inherited loads app slot :=
  Or.inr (Or.inr ⟨k, hk, slot, h, rfl, fun _ hc => Or.inl hc⟩)

theorem uid_of_live {slot : DspSlot} {uid : ℕ} (h : slot.live loads = some uid) :
    slot.uid = some uid :=
  (Option.filter_eq_some_iff.mp h).1

theorem Queued.inherit {app app' : AppState} (h : Queued loads app) (hin : Inherits loads app app') :
    Queued loads app' := by
  intro k hk slot hslot uid hlive change hchange
  obtain hnone | hempty | ⟨k', hk', old, hold, huid, hpending⟩ := hin k hk slot hslot
  · rw [hnone] at hlive
    exact absurd hlive (by simp)
  · rw [hempty] at hchange
    exact absurd hchange (by simp)
  · have hliveOld : old.live loads = some uid := by
      rw [← hlive, DspSlot.live, DspSlot.live, huid]
    obtain hmem | horigin := hpending change hchange
    · exact h k' hk' old hold uid hliveOld change hmem
    · rw [horigin, uid_of_live hliveOld]

theorem inherits_updateSlot (app : AppState) (trackIdx slotIdx : ℕ) {f : DspSlot → DspSlot}
    (huid : ∀ slot, (f slot).uid = slot.uid)
    (hpending : ∀ slot, ∀ change ∈ (f slot).pendingExternalParams,
      change ∈ slot.pendingExternalParams ∨ change.origin = slot.uid) :
    Inherits loads app (app.updateSlot trackIdx slotIdx f) := by
  intro k hk slot hslot
  rw [app.rackAt_updateSlot] at hslot
  split at hslot
  · obtain hold | ⟨old, hold, rfl⟩ := mem_modify hslot
    · exact inherited_of_mem hk hold
    · exact Or.inr (Or.inr ⟨k, hk, old, List.mem_of_getElem? hold, huid old, hpending old⟩)
  · exact inherited_of_mem hk hslot

theorem inherits_addSlot (app : AppState) (trackIdx : ℕ) :
    Inherits loads app (app.addSlot trackIdx) := by
  intro k hk slot hslot
  obtain hrack | hrack := app.rackAt_addSlot trackIdx k
  · rw [hrack] at hslot
    exact inherited_of_mem hk hslot
  · rw [hrack] at hslot
    obtain hold | hnew := List.mem_append.mp hslot
    · exact inherited_of_mem hk hold
    · rw [List.mem_singleton.mp hnew]
      exact Or.inl rfl

theorem inherits_removeSlotAt (app : AppState) (trackIdx slotIdx : ℕ) :
    Inherits loads app (app.removeSlotAt trackIdx slotIdx) := by
  intro k hk slot hslot
  rw [app.rackAt_removeSlotAt] at hslot
  split at hslot
  · exact inherited_of_mem hk (List.mem_of_mem_eraseIdx hslot)
  · exact inherited_of_mem hk hslot

theorem inherits_assign (s : Session) (slotIdx : ℕ) (descriptor : PluginDescriptor)
    (hclean : s.StartsClean loads (.assignExternalPlugin slotIdx descriptor)) :
    Inherits loads s.app
      (s.app.assignExternalPlugin s.app.safeTrackIndex slotIdx ⟨descriptor, s.nextUid⟩).1 := by
  intro k hk slot hslot
  have hsel : (s.app.assignExternalPlugin s.app.safeTrackIndex slotIdx
      ⟨descriptor, s.nextUid⟩).1.rackAt k =
        (s.app.updateSlot s.app.safeTrackIndex slotIdx _).rackAt k := rfl
  rw [hsel, s.app.rackAt_updateSlot] at hslot
  split at hslot
  case isTrue htrack =>
    obtain hold | ⟨old, hold, rfl⟩ := mem_modify hslot
    · exact inherited_of_mem hk hold
    · cases hload : loads s.nextUid with
      | true =>
        have hindex : s.app.engineTrackIndex = some k := engineTrackOf_eq_some.mpr htrack.symm
        exact Or.inr (Or.inl (hclean hload k hindex hk old hold))
      | false =>
        refine Or.inl ?_
        simp only [DspSlot.live, DspSlot.uid, Option.map_some, Option.filter_some, hload,
          Bool.false_eq_true, if_false]
  case isFalse => exact inherited_of_mem hk hslot

theorem inherits_moveDevice {app : AppState} {fromTarget toTarget : StripTarget}
    {fromSlot toSlot : ℕ}
    (hkeeps : ∀ slot rest, app.Relocation fromTarget fromSlot toTarget toSlot slot rest →
      app.KeepsMove (fun k => k < 16) loads fromTarget fromSlot toTarget (min toSlot rest.length)
        slot rest) :
    Inherits loads app (app.moveDevice fromTarget fromSlot toTarget toSlot).1 := by
  obtain ⟨hmode, ⟨heffects, _⟩ | ⟨moved, rest, hrel, heffects, _⟩⟩ :=
    app.moveDevice_cases fromTarget fromSlot toTarget toSlot
  · intro k hk slot hslot
    rw [AppState.rackAt_congr hmode heffects] at hslot
    exact inherited_of_mem hk hslot
  · intro k hk slot hslot
    have hrack : (app.moveDevice fromTarget fromSlot toTarget toSlot).1.rackAt k = _ :=
      AppState.rackAt_congr (hmode.trans (by simp)) heffects k
    rw [hrack, hrel.rackAt_eq] at hslot
    have hwithout : slot ∈ app.rackWithout fromTarget fromSlot k → slot ∈ app.rackAt k := by
      intro hmem
      unfold AppState.rackWithout at hmem
      split at hmem
      · exact List.mem_of_mem_eraseIdx hmem
      · exact hmem
    split at hslot
    case isTrue hplace =>
      obtain rfl | hmem := List.eq_or_mem_of_mem_insertIdx hslot
      · -- The slot that moved: with a plugin, it comes from a track of the engine.
        have hkeep := hkeeps slot rest hrel
        unfold AppState.KeepsMove at hkeep
        cases hlive : slot.live loads with
        | none => exact Or.inl hlive
        | some uid =>
          rw [hlive, if_pos (show (some uid).isSome = true from rfl)] at hkeep
          obtain ⟨⟨f, hf⟩, _⟩ | ⟨_, ht, _⟩ := hkeep
          · exact inherited_of_mem hf.2 (List.mem_of_getElem? (hrel.getElem? hf.1))
          · exact absurd ⟨hplace, hk⟩ (ht k)
      · exact inherited_of_mem hk (hwithout hmem)
    case isFalse => exact inherited_of_mem hk (hwithout hslot)

theorem inherits_drainParamProbe (app : AppState) (descriptorId : String)
    (params : List (PluginParamInfo × ℚ)) :
    Inherits loads app (app.drainParamProbe descriptorId params) := by
  intro k hk slot hslot
  rw [app.rackAt_drainParamProbe] at hslot
  obtain ⟨old, hold, rfl⟩ := List.mem_map.mp hslot
  split
  · exact Or.inr (Or.inr ⟨k, hk, old, hold, rfl, fun _ hc => Or.inl hc⟩)
  · exact inherited_of_mem hk hold

theorem inherits_flush (app : AppState) :
    Inherits loads app app.flushPendingExternalParams.1 := by
  intro k hk slot hslot
  rw [app.rackAt_flush] at hslot
  obtain ⟨old, hold, rfl⟩ := List.mem_map.mp hslot
  unfold AppState.flushSlot
  split
  · exact Or.inr (Or.inl rfl)
  · exact inherited_of_mem hk hold

/-! ## Runs -/

/-- What carries the property through a run: the chains that the sent commands lead to mirror the racks,
the waiting changes are the slots' own, and delivering what was sent will do no harm. -/
structure OnTrack (loads : ℕ → Bool) (s : Session) : Prop where
  mirrored : Mirrored (fun k => k < 16) loads s.app (s.drained loads)
  queued : Queued loads s.app
  delivery : Always (deliver loads) OnlyOwnChanges s.engine s.commands

theorem onTrack_send {s : Session} {r : AppState × List GuiCommand} (h : OnTrack loads s)
    (hmirrored : Mirrored (fun k => k < 16) loads r.1 ((s.send r).drained loads))
    (hin : Inherits loads s.app r.1)
    (hsent : Always (deliver loads) OnlyOwnChanges (s.drained loads) r.2) :
    OnTrack loads (s.send r) :=
  ⟨hmirrored, h.queued.inherit hin, always_append.mpr ⟨h.delivery, hsent⟩⟩

theorem always_deliver_flush {s : Session} (h : OnTrack loads s) :
    Always (deliver loads) OnlyOwnChanges (s.drained loads) s.app.flushPendingExternalParams.2 := by
  refine always_flush (fun _ => rfl) h.delivery.final fun cmd hcmd => ?_
  obtain ⟨k, slotIdx, slot, hslot, _, rfl⟩ := AppState.mem_flush hcmd
  refine ⟨k, slotIdx, _, rfl, fun uid huid => ?_⟩
  by_cases hk : k < 16
  · refine h.queued k hk slot (List.mem_of_getElem? hslot) uid ?_
    rw [← h.mirrored k hk slotIdx, List.getElem?_map, hslot] at huid
    exact huid
  · rw [chainUids_of_le _ (by omega)] at huid
    exact absurd huid (by simp)

theorem onTrack_step (s : Session) (op : RackOp) (h : OnTrack loads s)
    (hk : s.KeepsChanges loads op) : OnTrack loads (s.step loads op) := by
  have hmirrored := mirrored_step (fun _ hk => hk) s op h.mirrored hk.1
  have hnothing : Always (deliver loads) OnlyOwnChanges (s.drained loads) [] := h.delivery.final
  cases op with
  | selectTrack trackIdx =>
    exact onTrack_send h hmirrored (fun _ hk _ hslot => inherited_of_mem hk hslot) hnothing
  | selectSlot slotIdx =>
    exact onTrack_send h hmirrored (fun _ hk _ hslot => inherited_of_mem hk hslot) hnothing
  | addSlot => exact onTrack_send h hmirrored (inherits_addSlot _ _) hnothing
  | assignPlugin slotIdx name =>
    refine onTrack_send h hmirrored ?_ hnothing
    exact inherits_updateSlot _ _ _
      (f := fun slot => { slot with name := name, loadError := none }) (fun _ => rfl)
      fun _ _ hc => Or.inl hc
  | assignExternalPlugin slotIdx descriptor =>
    have hsent : Always (deliver loads) OnlyOwnChanges (s.drained loads)
        (s.app.assignExternalPlugin s.app.safeTrackIndex slotIdx ⟨descriptor, s.nextUid⟩).2 := by
      unfold AppState.assignExternalPlugin
      simp only
      split
      · exact hnothing
      · exact ⟨hnothing, hnothing.final.load _ _ _⟩
    have hon := onTrack_send h (r := s.app.assignExternalPlugin s.app.safeTrackIndex slotIdx
      ⟨descriptor, s.nextUid⟩) hmirrored (inherits_assign s slotIdx descriptor hk.2) hsent
    exact ⟨hon.mirrored, hon.queued, hon.delivery⟩
  | removeSlotAt slotIdx => exact onTrack_send h hmirrored (inherits_removeSlotAt _ _ _) hnothing
  | removeSelectedSlot =>
    refine onTrack_send h hmirrored ?_ hnothing
    simp only [AppState.removeSelectedSlot]
    split
    · exact inherits_removeSlotAt _ _ _
    · exact fun _ hk _ hslot => inherited_of_mem hk hslot
  | moveDevice fromTarget fromSlot toTarget toSlot =>
    refine onTrack_send h hmirrored (inherits_moveDevice hk.1) ?_
    rcases AppState.moveDevice_commands s.app fromTarget fromSlot toTarget toSlot with
      hnone | ⟨f, t, dest, hmove⟩
    · rw [hnone]
      exact hnothing
    · rw [hmove]
      exact ⟨hnothing, hnothing.final.move _ _ _ _⟩
  | drainParamProbe descriptorId params =>
    exact onTrack_send h hmirrored (inherits_drainParamProbe _ _ _) hnothing
  | commitExternalParam trackIdx slotIdx id value =>
    refine onTrack_send h hmirrored (inherits_updateSlot _ _ _ ?_ ?_) hnothing
    · intro slot
      exact congrArg (Option.map ExternalPlugin.uid) (slot.external_setExternalParam id value)
    · exact fun slot change hchange => DspSlot.mem_setExternalParam hchange
  | flushPendingExternalParams =>
    exact onTrack_send h hmirrored (inherits_flush _) (always_deliver_flush h)
  | deliver =>
    cases hcommands : s.commands with
    | nil =>
      have hsame : s.step loads .deliver = s := by
        simp only [Session.step, hcommands]
      rwa [hsame]
    | cons cmd commands =>
      have hdelivery := h.delivery
      rw [hcommands] at hdelivery
      have hnext : s.step loads .deliver =
          { s with engine := deliver loads s.engine cmd, commands := commands } := by
        simp only [Session.step, hcommands]
      rw [hnext] at hmirrored ⊢
      exact ⟨hmirrored, h.queued, hdelivery.2⟩

theorem onTrack_fresh {s : Session} (hs : s.Fresh) : OnTrack loads s := by
  refine ⟨mirrored_fresh hs, ?_, ?_⟩
  · intro k _ slot hslot uid hlive
    have huid := uid_of_live hlive
    unfold DspSlot.uid at huid
    rw [hs.racks k slot hslot] at huid
    exact absurd huid (by simp)
  · rw [hs.commands, hs.engine]
    intro k node hnode
    rw [PluginChains.chain_empty] at hnode
    exact absurd hnode (by simp)

/-- In a run whose edits keep the chains and never put a plugin over waiting changes, every plugin
receives only changes made while it was in the slot, whichever plugins fail to load. -/
theorem only_own_changes_along {s : Session} (hs : s.Fresh) (ops : List RackOp)
    (hkeeps : Along (Session.step loads) (Session.KeepsChanges loads) s ops) :
    Always (Session.step loads) (fun s : Session => OnlyOwnChanges s.engine) s ops := by
  have hrun : Always (Session.step loads) (OnTrack loads) s ops :=
    always_of_along onTrack_step (onTrack_fresh hs) hkeeps
  exact hrun.mono fun s h => h.delivery.head

theorem only_own_changes_knob :
    Always (Session.step fun _ => true) (fun s : Session => OnlyOwnChanges s.engine)
      (Session.blank 1)
      [.addSlot, .assignExternalPlugin 0 ⟨"vst3:echo", "Echo", "/usr/lib/vst3/Echo.vst3", .vst3⟩,
        .drainParamProbe "vst3:echo" [(⟨0, 0⟩, 0)], .commitExternalParam 1 0 0 (1 / 2),
        .flushPendingExternalParams, .deliver, .deliver] := by
  have hfree : ∀ op : RackOp, (∀ i d, op ≠ .assignExternalPlugin i d) → ∀ s : Session,
      s.StartsClean (fun _ => true) op := by
    intro op hop s
    cases op with
    | assignExternalPlugin i d => exact absurd rfl (hop i d)
    | _ => trivial
  refine only_own_changes_along (Session.fresh_blank 1) _
    ⟨⟨trivial, hfree _ (by simp) _⟩, ⟨?_, ?_⟩, ⟨trivial, hfree _ (by simp) _⟩,
      ⟨trivial, hfree _ (by simp) _⟩, ⟨trivial, hfree _ (by simp) _⟩,
      ⟨trivial, hfree _ (by simp) _⟩, ⟨trivial, hfree _ (by simp) _⟩, trivial⟩
  · intro k hk _
    have hk' : 0 = k := Option.some.inj hk
    subst hk'
    exact ⟨by decide, by decide, by decide⟩
  · intro _ k hk _ slot hslot
    have hk' : 0 = k := Option.some.inj hk
    subst hk'
    have hnew : DspSlot.new emptySlotName = slot := Option.some.inj hslot
    rw [← hnew]
    rfl

/-- A plugin assigned over another before the flush receives the change made for the other. -/
theorem reassigned_slot_gets_change :
    ¬ ∀ (loads : ℕ → Bool) (s : Session) (ops : List RackOp), s.Fresh →
      Always (Session.step loads) (fun s : Session => OnlyOwnChanges s.engine) s ops := by
  intro h
  have hfinal := (h (fun _ => true) (Session.blank 1)
    [.addSlot, .assignExternalPlugin 0 ⟨"vst3:echo", "Echo", "/usr/lib/vst3/Echo.vst3", .vst3⟩,
      .drainParamProbe "vst3:echo" [(⟨0, 0⟩, 0)], .commitExternalParam 1 0 0 (1 / 2),
      .assignExternalPlugin 0 ⟨"clap:tape", "Tape", "/usr/lib/clap/Tape.clap", .clap⟩,
      .flushPendingExternalParams, .deliver, .deliver, .deliver] (Session.fresh_blank 1)).final
  have hnode := hfinal 0 ⟨[⟨0, 1 / 2, some 0⟩], 1⟩ (by decide +kernel) ⟨0, 1 / 2, some 0⟩
    List.mem_cons_self
  exact absurd hnode (by decide)

/-! ## What a knob applies -/

/-- The rack snaps a value as the host does. -/
theorem PluginParamInfo.snap_eq_host {info : PluginParamInfo} {host : PluginHost.PluginParamInfo}
    (h : info.stepCount = host.stepCount) (value : ℚ) : info.snap value = host.snap value := by
  unfold snap isDiscrete PluginHost.PluginParamInfo.snap PluginHost.PluginParamInfo.isDiscrete
    PluginHost.PluginParamInfo.stepOf
  rw [h]
  rfl

/-- The value a gesture applies is the host's. -/
theorem DspSlot.applied_eq_host {slot : DspSlot} {id : ℕ} {value applied : ℚ}
    (h : (slot.setExternalParam id value).1 = some applied) :
    ∃ param ∈ slot.externalParams, param.info.id = id ∧
      ∀ host : PluginHost.PluginParamInfo, param.info.stepCount = host.stepCount →
        applied = host.snap value := by
  unfold setExternalParam at h
  split at h
  · cases h
  case h_2 param hparam =>
    refine ⟨param, List.mem_of_find?_eq_some hparam, by simpa using List.find?_some hparam, ?_⟩
    intro host hsteps
    simp only at h
    split at h
    · cases h
    · rw [← Option.some.inj h]
      exact PluginParamInfo.snap_eq_host hsteps value

end HikaruOpenLive.Gui
