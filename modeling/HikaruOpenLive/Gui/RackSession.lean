import HikaruOpenLive.Foundations.Runs
import HikaruOpenLive.Gui.RackRows

/-! # The rack, the engine and the commands between them

A session is the application, the engine's chains and the commands sent but not yet delivered, which
arrive in the order they were sent. In an engine chain a plugin stands for the changes it has received,
and its tap carries the number of its assignment. Whether the plugin of an assignment can be
instantiated is `loads`, the plugin crates' answer.
-/
set_option autoImplicit false

namespace HikaruOpenLive.Gui

open Engine Foundations.ListEdits

abbrev EngineChains := PluginChains (List ParamChange) ℕ

def deliver (loads : ℕ → Bool) (engine : EngineChains) : GuiCommand → EngineChains
  | .loadExternalPlugin trackIdx slotIdx plugin =>
    let loaded := if loads plugin.uid then .ok [] else .error plugin.descriptor.path
    (engine.loadInstance trackIdx slotIdx loaded plugin.uid).2
  | .removeExternalPlugin trackIdx slotIdx => engine.removeExternalPlugin trackIdx slotIdx
  | .moveExternalPlugin fromTrack fromSlot toTrack toSlot =>
    (engine.moveExternalPlugin fromTrack fromSlot toTrack toSlot).2
  | .syncExternalPluginParams trackIdx slotIdx params =>
    engine.syncExternalPluginParams (fun received params => received ++ params) trackIdx slotIdx params

/-- The plugins of a chain, by the numbers of their assignments. -/
def chainUids (engine : EngineChains) (k : ℕ) : List ℕ :=
  (engine.chain k).map DspPluginNode.tap

structure Session where
  app : AppState
  engine : EngineChains
  commands : List GuiCommand
  nextUid : ℕ

/-- What can happen in a session. The edits of the rack concern the selected track, the one it
shows. -/
inductive RackOp where
  | selectTrack (trackIdx : ℕ)
  | selectSlot (slotIdx : ℕ)
  | addSlot
  | assignPlugin (slotIdx : ℕ) (name : String)
  | assignExternalPlugin (slotIdx : ℕ) (descriptor : PluginDescriptor)
  | removeSlotAt (slotIdx : ℕ)
  | removeSelectedSlot
  | moveDevice (fromTarget : StripTarget) (fromSlot : ℕ) (toTarget : StripTarget) (toSlot : ℕ)
  | drainParamProbe (descriptorId : String) (params : List (PluginParamInfo × ℚ))
  | commitExternalParam (trackIdx slotIdx id : ℕ) (value : ℚ)
  | flushPendingExternalParams
  | deliver

namespace Session

def send (s : Session) (r : AppState × List GuiCommand) : Session :=
  { s with app := r.1, commands := s.commands ++ r.2 }

def step (loads : ℕ → Bool) (s : Session) : RackOp → Session
  | .selectTrack trackIdx => s.send ({ s.app with selectedTrackIndex := trackIdx }, [])
  | .selectSlot slotIdx => s.send ({ s.app with selectedSlotIndex := slotIdx }, [])
  | .addSlot => s.send (s.app.addSlot s.app.safeTrackIndex, [])
  | .assignPlugin slotIdx name =>
    s.send (s.app.assignPlugin s.app.safeTrackIndex slotIdx name, [])
  | .assignExternalPlugin slotIdx descriptor =>
    { s.send (s.app.assignExternalPlugin s.app.safeTrackIndex slotIdx ⟨descriptor, s.nextUid⟩) with
      nextUid := s.nextUid + 1 }
  | .removeSlotAt slotIdx => s.send (s.app.removeSlotAt s.app.safeTrackIndex slotIdx, [])
  | .removeSelectedSlot => s.send (s.app.removeSelectedSlot s.app.safeTrackIndex, [])
  | .moveDevice fromTarget fromSlot toTarget toSlot =>
    s.send (s.app.moveDevice fromTarget fromSlot toTarget toSlot)
  | .drainParamProbe descriptorId params => s.send (s.app.drainParamProbe descriptorId params, [])
  | .commitExternalParam trackIdx slotIdx id value =>
    s.send (s.app.commitExternalParam trackIdx slotIdx id value, [])
  | .flushPendingExternalParams => s.send s.app.flushPendingExternalParams
  | .deliver =>
    match s.commands with
    | [] => s
    | cmd :: commands => { s with engine := Gui.deliver loads s.engine cmd, commands := commands }

/-- The engine once everything sent has been delivered. -/
def drained (loads : ℕ → Bool) (s : Session) : EngineChains :=
  s.commands.foldl (Gui.deliver loads) s.engine

/-- A session in which no visible track has an external plugin and the engine has none. -/
structure Fresh (s : Session) : Prop where
  racks : ∀ k, ∀ slot ∈ s.app.rackAt k, slot.external = none
  engine : s.engine = PluginChains.empty
  commands : s.commands = []

def blank (n : ℕ) : Session :=
  { app :=
      { mode := .openLive, liveTracks := List.replicate (n + 1) ⟨[]⟩, studioTracks := []
        fxTracks := [], selectedTrackIndex := 1, selectedSlotIndex := 0 }
    engine := PluginChains.empty
    commands := []
    nextUid := 0 }

theorem fresh_blank (n : ℕ) : (blank n).Fresh := by
  refine ⟨fun k slot hslot => ?_, rfl, rfl⟩
  have hrack : (blank n).app.rackAt k = [] := by
    simp only [blank, AppState.rackAt, AppState.trackEffects, AppState.effects, AppMode.bank,
      AppState.bank, List.getElem?_replicate]
    split
    · rfl
    · rfl
  rw [hrack] at hslot
  exact absurd hslot (by simp)

theorem drained_send (loads : ℕ → Bool) (s : Session) (r : AppState × List GuiCommand) :
    (s.send r).drained loads = r.2.foldl (Gui.deliver loads) (s.drained loads) :=
  List.foldl_append

theorem drained_deliver (loads : ℕ → Bool) (s : Session) :
    (s.step loads .deliver).drained loads = s.drained loads := by
  unfold step drained
  cases h : s.commands with
  | nil => simp only [h]
  | cons cmd commands => rfl

end Session

/-! ## The plugins of a chain after a command -/

section Delivery

variable {app : AppState} (loads : ℕ → Bool) (engine : EngineChains)

theorem chainUids_of_le {k : ℕ} (h : 16 ≤ k) : chainUids engine k = [] := by
  unfold chainUids
  rw [engine.chain_of_le h]
  rfl

theorem chainUids_load {t : ℕ} (ht : t < 16) (slotIdx : ℕ) (plugin : ExternalPlugin)
    (h : loads plugin.uid = true) (k : ℕ) :
    chainUids (deliver loads engine (.loadExternalPlugin t slotIdx plugin)) k =
      if k = t then putAt (chainUids engine t) slotIdx plugin.uid else chainUids engine k := by
  simp only [chainUids, deliver, h, if_true, engine.chain_load ht]
  split
  · exact map_putAt _ _ _ _
  · rfl

theorem chainUids_load_failed (t slotIdx : ℕ) (plugin : ExternalPlugin)
    (h : loads plugin.uid = false) (k : ℕ) :
    chainUids (deliver loads engine (.loadExternalPlugin t slotIdx plugin)) k =
      if k = t then (chainUids engine t).eraseIdx slotIdx else chainUids engine k := by
  simp only [chainUids, deliver, h, Bool.false_eq_true, if_false]
  by_cases ht : t < 16
  · rw [engine.loadInstance_failed ht, engine.chain_clearSlot]
    split
    · exact (List.eraseIdx_map _ _ _).symm
    · rfl
  · rw [engine.loadInstance_of_le (show 16 ≤ t by omega)]
    split
    case isTrue hk =>
      rw [hk, engine.chain_of_le (show 16 ≤ t by omega)]
      rfl
    case isFalse => rfl

theorem chainUids_sync (t slotIdx : ℕ) (params : List ParamChange) (k : ℕ) :
    chainUids (deliver loads engine (.syncExternalPluginParams t slotIdx params)) k =
      chainUids engine k := by
  simp only [chainUids, deliver, PluginChains.syncExternalPluginParams]
  by_cases ht : t < 16
  · rw [engine.chain_setChain ht]
    split
    case isTrue hk =>
      rw [hk]
      exact map_modify_of_eq (g := DspPluginNode.tap)
        (f := fun node => { node with plugin := node.plugin ++ params }) (fun _ => rfl) _ _
    case isFalse => rfl
  · rw [engine.setChain_of_le (by omega)]

theorem chainUids_flush {commands : List GuiCommand}
    (h : ∀ cmd ∈ commands, ∃ t slotIdx slot, (app.rackAt t)[slotIdx]? = some slot ∧
      slot.external.isSome = true ∧
        cmd = .syncExternalPluginParams t slotIdx slot.pendingExternalParams) (k : ℕ) :
    chainUids (commands.foldl (deliver loads) engine) k = chainUids engine k := by
  induction commands generalizing engine with
  | nil => rfl
  | cons cmd commands ih =>
    obtain ⟨t, slotIdx, slot, _, _, rfl⟩ := h cmd List.mem_cons_self
    rw [List.foldl_cons, ih _ (fun cmd hcmd => h cmd (List.mem_cons_of_mem _ hcmd)), chainUids_sync]

theorem exists_node {k i uid : ℕ} (h : (chainUids engine k)[i]? = some uid) :
    ∃ node, (engine.chain k)[i]? = some node ∧ node.tap = uid := by
  unfold chainUids at h
  rw [List.getElem?_map] at h
  exact Option.map_eq_some_iff.mp h

/-- A move that takes a plugin takes it out of one list of numbers and puts it into the other. -/
theorem chainUids_move {f t fs uid : ℕ} (hf : f < 16) (ht : t < 16) (ts : ℕ)
    (h : (chainUids engine f)[fs]? = some uid) (k : ℕ) :
    chainUids (deliver loads engine (.moveExternalPlugin f fs t ts)) k =
      let source := if t = f then (chainUids engine f).eraseIdx fs else chainUids engine t
      if k = t then source.insertIdx (min ts source.length) uid
      else if k = f then (chainUids engine f).eraseIdx fs
      else chainUids engine k := by
  obtain ⟨node, hnode, rfl⟩ := exists_node engine h
  simp only [chainUids, deliver, engine.chain_move hf ht ts hnode]
  have hsource : (if t = f then ((engine.chain f).map DspPluginNode.tap).eraseIdx fs
      else (engine.chain t).map DspPluginNode.tap) =
        (if t = f then (engine.chain f).eraseIdx fs else engine.chain t).map DspPluginNode.tap := by
    split
    · exact (List.eraseIdx_map _ _ _)
    · rfl
  rw [hsource, List.length_map]
  split
  · exact List.map_insertIdx _ _ _ _
  · split
    · exact (List.eraseIdx_map _ _ _).symm
    · rfl

/-- A move that takes nothing, or that puts the plugin back where it was, changes no chain. -/
theorem chainUids_move_idle {f t fs ts : ℕ}
    (h : 16 ≤ f ∨ 16 ≤ t ∨ (chainUids engine f).length ≤ fs ∨
      f = t ∧ min ts ((chainUids engine f).length - 1) = fs) (k : ℕ) :
    chainUids (deliver loads engine (.moveExternalPlugin f fs t ts)) k = chainUids engine k := by
  by_cases hrefused : 16 ≤ f ∨ 16 ≤ t ∨ (chainUids engine f).length ≤ fs
  · have hnone : 16 ≤ f ∨ 16 ≤ t ∨ (engine.chain f)[fs]? = none := by
      obtain h | h | h := hrefused
      · exact Or.inl h
      · exact Or.inr (Or.inl h)
      · refine Or.inr (Or.inr (List.getElem?_eq_none ?_))
        rwa [chainUids, List.length_map] at h
    simp only [deliver, engine.moveExternalPlugin_refused ts hnone]
  · push Not at hrefused
    obtain ⟨hf, ht, hfs⟩ := hrefused
    obtain ⟨rfl, hts⟩ : f = t ∧ min ts ((chainUids engine f).length - 1) = fs := by
      obtain h | h | h | h := h
      · omega
      · omega
      · omega
      · exact h
    have hnode : (chainUids engine f)[fs]? = some (chainUids engine f)[fs] :=
      List.getElem?_eq_getElem hfs
    rw [chainUids_move loads engine hf ht ts hnode]
    simp only [if_true, List.length_eraseIdx_of_lt hfs, hts]
    split
    case isTrue hk =>
      rw [hk, insertIdx_eraseIdx_self hfs, List.set_getElem_self]
    case isFalse => rfl

end Delivery

end HikaruOpenLive.Gui
