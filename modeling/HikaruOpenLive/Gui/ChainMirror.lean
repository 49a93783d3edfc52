import HikaruOpenLive.Foundations.SparseRow
import HikaruOpenLive.Gui.RackSession

/-! # The engine's chains mirror the racks

A rack has native devices and external plugins; the chain of the same track in the engine has only the
plugins, and finds them by the slots of the rack. The two agree just when a rack has its plugins first
and the chain is the rack without the rest (`SparseRow.Aligned`).

`KeepsChains` says of an edit that it leaves it so. It is stated for the tracks with a property `P`,
which the sixteen tracks of the engine have, and for any plugins failing to load.
-/
set_option autoImplicit false

namespace HikaruOpenLive.Gui

open Engine Foundations.Runs Foundations.ListEdits Foundations.SparseRow

variable {loads : ℕ → Bool} {P : ℕ → Prop}

/-- The plugin of a slot, if the engine could load it. -/
def DspSlot.live (loads : ℕ → Bool) (slot : DspSlot) : Option ℕ :=
  slot.uid.filter loads

def loadedUids (loads : ℕ → Bool) (rack : List DspSlot) : List ℕ :=
  rack.filterMap (DspSlot.live loads)

/-- The chains of the tracks with `P` are addressed by the slots of their racks. -/
def Mirrored (P : ℕ → Prop) (loads : ℕ → Bool) (app : AppState) (engine : EngineChains) : Prop :=
  ∀ k, P k → Aligned ((app.rackAt k).map (DspSlot.live loads)) (chainUids engine k)

namespace AppState

/-- The strip shows the engine's track `k`, which has `P`. -/
def Hosts (st : AppState) (P : ℕ → Prop) (target : StripTarget) (k : ℕ) : Prop :=
  st.place target = (st.mode.bank, k + 1) ∧ P k

/-- The move command of these strips takes no plugin of the engine, or puts it back. -/
def IdleMove (loads : ℕ → Bool) (st : AppState) (fromTarget : StripTarget) (fromSlot : ℕ)
    (toTarget : StripTarget) (dest : ℕ) : Prop :=
  ∀ f t, toEngineTrack fromTarget = some f → toEngineTrack toTarget = some t →
    16 ≤ f ∨ 16 ≤ t ∨ (loadedUids loads (st.rackAt f)).length ≤ fromSlot ∨
      f = t ∧ min dest ((loadedUids loads (st.rackAt f)).length - 1) = fromSlot

/-- Where a slot may go. A plugin goes between the plugins of a track of the engine and comes from
one, or it goes from a strip without a track in the engine to another; a slot without a plugin goes
behind the plugins. -/
def KeepsMove (P : ℕ → Prop) (loads : ℕ → Bool) (st : AppState) (fromTarget : StripTarget)
    (fromSlot : ℕ) (toTarget : StripTarget) (dest : ℕ) (slot : DspSlot) (rest : List DspSlot) :
    Prop :=
  if (slot.live loads).isSome then
    (∃ f, st.Hosts P fromTarget f) ∧ (∃ t, t < 16 ∧ st.Hosts P toTarget t) ∧
        dest ≤ (loadedUids loads rest).length ∨
      (∀ f, ¬ st.Hosts P fromTarget f) ∧ (∀ t, ¬ st.Hosts P toTarget t) ∧
        st.IdleMove loads fromTarget fromSlot toTarget dest
  else
    (∀ t, st.Hosts P toTarget t → (loadedUids loads rest).length ≤ dest) ∧
      (slot.external.isSome → st.IdleMove loads fromTarget fromSlot toTarget dest)

end AppState

namespace Session

/-- The edit leaves the chains mirroring the racks. A plugin is assigned to a slot right behind the
loaded ones or in place of one of them (one that will not load, in place of the last of them or behind),
a removed slot has no loaded plugin, and a moved one goes where `KeepsMove` lets it. -/
def KeepsChains (P : ℕ → Prop) (loads : ℕ → Bool) (s : Session) : RackOp → Prop
  | .assignExternalPlugin slotIdx _ => ∀ k, s.app.engineTrackIndex = some k → P k →
    if loads s.nextUid then
      k < 16 ∧ slotIdx < (s.app.rackAt k).length ∧
        slotIdx ≤ (loadedUids loads (s.app.rackAt k)).length
    else (loadedUids loads (s.app.rackAt k)).length ≤ slotIdx + 1
  | .removeSlotAt slotIdx => ∀ k, s.app.engineTrackIndex = some k → P k →
    (s.app.rackAt k)[slotIdx]?.bind (DspSlot.live loads) = none
  | .removeSelectedSlot => ∀ k, s.app.engineTrackIndex = some k → P k →
    (s.app.rackAt k)[s.app.selectedSlotIndex]?.bind (DspSlot.live loads) = none
  | .moveDevice fromTarget fromSlot toTarget toSlot => ∀ slot rest,
    s.app.Relocation fromTarget fromSlot toTarget toSlot slot rest →
      s.app.KeepsMove P loads fromTarget fromSlot toTarget (min toSlot rest.length) slot rest
  | _ => True

end Session

/-! ## Rows -/

theorem reduceOption_live (loads : ℕ → Bool) (rack : List DspSlot) :
    (rack.map (DspSlot.live loads)).reduceOption = loadedUids loads rack := by
  unfold List.reduceOption
  rw [List.filterMap_map]
  rfl

theorem Mirrored.loadedUids_eq {app : AppState} {engine : EngineChains}
    (h : Mirrored P loads app engine) {k : ℕ} (hk : P k) :
    loadedUids loads (app.rackAt k) = chainUids engine k := by
  rw [← reduceOption_live]
  exact (h k hk).reduceOption_eq

theorem mirrored_congr {app app' : AppState} {engine engine' : EngineChains}
    (h : Mirrored P loads app engine)
    (hrow : ∀ k, (app'.rackAt k).map (DspSlot.live loads) = (app.rackAt k).map (DspSlot.live loads))
    (huids : ∀ k, chainUids engine' k = chainUids engine k) : Mirrored P loads app' engine' := by
  intro k hk
  rw [hrow, huids]
  exact h k hk

theorem map_live_updateSlot {f : DspSlot → DspSlot} (hf : ∀ slot, (f slot).external = slot.external)
    (app : AppState) (trackIdx slotIdx k : ℕ) :
    ((app.updateSlot trackIdx slotIdx f).rackAt k).map (DspSlot.live loads) =
      (app.rackAt k).map (DspSlot.live loads) := by
  rw [app.rackAt_updateSlot]
  split
  · refine map_modify_of_eq (fun slot => ?_) _ _
    unfold DspSlot.live DspSlot.uid
    rw [hf]
  · rfl

theorem map_live_map {f : DspSlot → DspSlot} (hf : ∀ slot, (f slot).external = slot.external)
    (rack : List DspSlot) :
    (rack.map f).map (DspSlot.live loads) = rack.map (DspSlot.live loads) := by
  rw [List.map_map]
  refine List.map_congr_left fun slot _ => ?_
  simp only [Function.comp_apply, DspSlot.live, DspSlot.uid, hf]

/-! ## Edits that send nothing -/

theorem mirrored_addSlot {app : AppState} {engine : EngineChains} (h : Mirrored P loads app engine)
    (trackIdx : ℕ) : Mirrored P loads (app.addSlot trackIdx) engine := by
  intro k hk
  obtain hrack | hrack := app.rackAt_addSlot trackIdx k
  · rw [hrack]
    exact h k hk
  · have hlen : (chainUids engine k).length ≤ ((app.rackAt k).map (DspSlot.live loads)).length :=
      (h k hk).le_of_free (by rw [List.getElem?_eq_none (Nat.le_refl _)]; rfl)
    have hins := (h k hk).insertFree hlen
    rw [List.insertIdx_length_self] at hins
    rw [hrack, List.map_append]
    exact hins

theorem mirrored_removeSlotAt {app : AppState} {engine : EngineChains}
    (h : Mirrored P loads app engine) {trackIdx slotIdx : ℕ}
    (hslot : ∀ k, AppState.engineTrackOf trackIdx = some k → P k →
      (app.rackAt k)[slotIdx]?.bind (DspSlot.live loads) = none) :
    Mirrored P loads (app.removeSlotAt trackIdx slotIdx) engine := by
  intro k hk
  rw [app.rackAt_removeSlotAt]
  split
  case isTrue ht =>
    have hfree : ((app.rackAt k).map (DspSlot.live loads))[slotIdx]?.join = none := by
      have hbind := hslot k (by rw [← ht]; rfl) hk
      rw [List.getElem?_map]
      cases hget : (app.rackAt k)[slotIdx]? with
      | none => rfl
      | some slot =>
        rw [hget] at hbind
        exact hbind
    rw [← List.eraseIdx_map]
    exact (h k hk).eraseFree ((h k hk).le_of_free hfree)
  case isFalse => exact h k hk

/-! ## Assigning an external plugin -/

theorem engineTrackOf_eq_some {trackIdx k : ℕ} :
    AppState.engineTrackOf trackIdx = some k ↔ trackIdx = k + 1 := by
  cases trackIdx with
  | zero => simp [AppState.engineTrackOf]
  | succ t => simp [AppState.engineTrackOf]

theorem map_live_assign (app : AppState) (slotIdx : ℕ) (plugin : ExternalPlugin) (k : ℕ) :
    ((app.assignExternalPlugin app.safeTrackIndex slotIdx plugin).1.rackAt k).map
        (DspSlot.live loads) =
      if app.engineTrackIndex = some k then
        ((app.rackAt k).map (DspSlot.live loads)).set slotIdx
          (if loads plugin.uid then some plugin.uid else none)
      else (app.rackAt k).map (DspSlot.live loads) := by
  have hsel : (app.assignExternalPlugin app.safeTrackIndex slotIdx plugin).1.rackAt k =
      (app.updateSlot app.safeTrackIndex slotIdx _).rackAt k := rfl
  have htrack : app.engineTrackIndex = some k ↔ app.safeTrackIndex = k + 1 := engineTrackOf_eq_some
  rw [hsel, app.rackAt_updateSlot]
  by_cases hk : k + 1 = app.safeTrackIndex
  · rw [if_pos hk, if_pos (htrack.mpr hk.symm)]
    refine map_modify_of_const (fun slot => ?_) _ _
    simp only [DspSlot.live, DspSlot.uid, Option.map_some, Option.filter_some]
  · rw [if_neg hk, if_neg (fun h => hk (htrack.mp h).symm)]

theorem mirrored_assign {app : AppState} {engine : EngineChains} (h : Mirrored P loads app engine)
    {slotIdx : ℕ} {plugin : ExternalPlugin}
    (hslot : ∀ k, app.engineTrackIndex = some k → P k →
      if loads plugin.uid then
        k < 16 ∧ slotIdx < (app.rackAt k).length ∧
          slotIdx ≤ (loadedUids loads (app.rackAt k)).length
      else (loadedUids loads (app.rackAt k)).length ≤ slotIdx + 1) :
    let assigned := app.assignExternalPlugin app.safeTrackIndex slotIdx plugin
    Mirrored P loads assigned.1 (assigned.2.foldl (deliver loads) engine) := by
  intro assigned k hk
  rw [map_live_assign]
  cases htrack : app.engineTrackIndex with
  | none =>
    have hsent : assigned.2 = [] := by
      simp only [assigned, AppState.assignExternalPlugin, htrack]
    rw [hsent, if_neg (by simp)]
    exact h k hk
  | some t =>
    have hsent : assigned.2 = [.loadExternalPlugin t slotIdx plugin] := by
      simp only [assigned, AppState.assignExternalPlugin, htrack]
    rw [hsent, List.foldl_cons, List.foldl_nil]
    by_cases hload : loads plugin.uid = true
    · by_cases hkt : k = t
      · subst hkt
        have hk' := hslot k htrack hk
        rw [if_pos hload, h.loadedUids_eq hk] at hk'
        obtain ⟨hlt, hrow, hdense⟩ := hk'
        rw [chainUids_load _ _ hlt _ _ hload, if_pos rfl, if_pos rfl, if_pos hload]
        exact (h k hk).put (by rwa [List.length_map]) hdense _
      · rw [if_neg (fun he => hkt (Option.some.inj he).symm)]
        by_cases ht : t < 16
        · rw [chainUids_load _ _ ht _ _ hload, if_neg hkt]
          exact h k hk
        · -- The engine has no such track and refuses.
          have hsame : deliver loads engine (.loadExternalPlugin t slotIdx plugin) = engine :=
            engine.loadInstance_of_le (by omega) _ _ _
          rw [hsame]
          exact h k hk
    · have hload' : loads plugin.uid = false := by simpa using hload
      rw [chainUids_load_failed _ _ _ _ _ hload']
      by_cases hkt : k = t
      · subst hkt
        have hk' := hslot k htrack hk
        rw [if_neg hload, h.loadedUids_eq hk] at hk'
        rw [if_pos rfl, if_pos rfl, if_neg hload]
        exact (h k hk).free hk'
      · rw [if_neg hkt, if_neg (fun he => hkt (Option.some.inj he).symm)]
        exact h k hk

/-! ## Moving a device -/

section Moving

variable {app : AppState} {engine : EngineChains} {fromTarget toTarget : StripTarget}
  {fromSlot toSlot : ℕ} {slot : DspSlot} {rest : List DspSlot}

theorem chainUids_idleMove (h : Mirrored P loads app engine) (hP : ∀ k, k < 16 → P k) {dest : ℕ}
    (hidle : app.IdleMove loads fromTarget fromSlot toTarget dest) (k : ℕ) :
    chainUids ((AppState.moveCommands fromTarget fromSlot toTarget dest).foldl (deliver loads) engine)
      k = chainUids engine k := by
  unfold AppState.moveCommands
  split
  case h_1 f t hf ht =>
    refine chainUids_move_idle loads engine ?_ k
    obtain hlt | hge := Nat.lt_or_ge f 16
    · have hi := hidle f t hf ht
      rwa [h.loadedUids_eq (hP f hlt)] at hi
    · exact Or.inl hge
  case h_2 => rfl

theorem map_live_rackWithout (app : AppState) (fromTarget : StripTarget) (fromSlot k : ℕ) :
    (app.rackWithout fromTarget fromSlot k).map (DspSlot.live loads) =
      if app.place fromTarget = (app.mode.bank, k + 1) then
        ((app.rackAt k).map (DspSlot.live loads)).eraseIdx fromSlot
      else (app.rackAt k).map (DspSlot.live loads) := by
  unfold AppState.rackWithout
  split
  · exact (List.eraseIdx_map _ _ _).symm
  · rfl

/-- Without the slot of a plugin, every rack is aligned with the chain without the plugin. -/
theorem aligned_rackWithout (h : Mirrored P loads app engine) {f : ℕ} (hf : app.Hosts P fromTarget f)
    (fromSlot : ℕ) (k : ℕ) (hk : P k) :
    Aligned ((app.rackWithout fromTarget fromSlot k).map (DspSlot.live loads))
      (if k = f then (chainUids engine f).eraseIdx fromSlot else chainUids engine k) := by
  rw [map_live_rackWithout]
  by_cases hkf : k = f
  · rw [if_pos (by rw [hkf]; exact hf.1), if_pos hkf, hkf]
    exact (h f hf.2).erase fromSlot
  · have hplace : ¬ app.place fromTarget = (app.mode.bank, k + 1) := by
      intro hp
      have := congrArg Prod.snd (hp.symm.trans hf.1)
      simp only at this
      omega
    rw [if_neg hplace, if_neg hkf]
    exact h k hk

/-- A plugin that goes from one track of the engine to another, or within one, goes so in the chains. -/
theorem mirrored_move_plugin (h : Mirrored P loads app engine)
    (hrel : app.Relocation fromTarget fromSlot toTarget toSlot slot rest) {uid f t : ℕ}
    (hlive : slot.live loads = some uid) (hf : app.Hosts P fromTarget f)
    (ht : app.Hosts P toTarget t) (ht16 : t < 16)
    (hdest : min toSlot rest.length ≤ (loadedUids loads rest).length) (k : ℕ) (hk : P k) :
    Aligned (((app.relocated fromTarget fromSlot toTarget (min toSlot rest.length) slot).rackAt
        k).map (DspSlot.live loads))
      (chainUids ((AppState.moveCommands fromTarget fromSlot toTarget
        (min toSlot rest.length)).foldl (deliver loads) engine) k) := by
  have hslot : ((app.rackAt f).map (DspSlot.live loads))[fromSlot]? = some (some uid) := by
    rw [List.getElem?_map, hrel.getElem? hf.1, Option.map_some, hlive]
  have huid := (h f hf.2).getElem? hslot
  have hf16 : f < 16 := by
    by_contra hge
    rw [chainUids_of_le engine (by omega)] at huid
    exact absurd huid (by simp)
  have hcommands : AppState.moveCommands fromTarget fromSlot toTarget (min toSlot rest.length) =
      [.moveExternalPlugin f fromSlot t (min toSlot rest.length)] := by
    unfold AppState.moveCommands
    rw [AppState.toEngineTrack_of_place hf.1, AppState.toEngineTrack_of_place ht.1]
  rw [hcommands, List.foldl_cons, List.foldl_nil, hrel.rackAt_eq,
    chainUids_move loads engine hf16 ht16 _ huid]
  have hchain := aligned_rackWithout h hf fromSlot t ht.2
  rw [← hrel.rest_eq ht.1] at hchain
  have hlen : (loadedUids loads rest).length =
      (if t = f then (chainUids engine f).eraseIdx fromSlot else chainUids engine t).length := by
    rw [← hchain.length_reduceOption, reduceOption_live]
  by_cases hkt : k = t
  · simp only [if_pos hkt]
    rw [if_pos (by rw [hkt]; exact ht.1), hkt, ← hrel.rest_eq ht.1, List.map_insertIdx, hlive,
      Nat.min_eq_left (by omega : min toSlot rest.length ≤ _)]
    exact hchain.insert (by rw [List.length_map]; exact Nat.min_le_right _ _) (by omega) uid
  · have hplace : ¬ app.place toTarget = (app.mode.bank, k + 1) := by
      intro hp
      have := congrArg Prod.snd (hp.symm.trans ht.1)
      simp only at this
      omega
    simp only [if_neg hkt]
    rw [if_neg hplace]
    have hk' := aligned_rackWithout h hf fromSlot k hk
    split
    case isTrue hkf => rwa [if_pos hkf] at hk'
    case isFalse hkf => rwa [if_neg hkf] at hk'

theorem mirrored_move_free (h : Mirrored P loads app engine)
    (hrel : app.Relocation fromTarget fromSlot toTarget toSlot slot rest)
    (hlive : slot.live loads = none) {dest : ℕ}
    (hdest : ∀ t, app.Hosts P toTarget t → (loadedUids loads rest).length ≤ dest) (k : ℕ) (hk : P k) :
    Aligned (((app.relocated fromTarget fromSlot toTarget dest slot).rackAt k).map
      (DspSlot.live loads)) (chainUids engine k) := by
  have hwithout : Aligned ((app.rackWithout fromTarget fromSlot k).map (DspSlot.live loads))
      (chainUids engine k) := by
    rw [map_live_rackWithout]
    split
    case isTrue hp =>
      refine (h k hk).eraseFree ((h k hk).le_of_free ?_)
      rw [List.getElem?_map, hrel.getElem? hp, Option.map_some, hlive]
      rfl
    case isFalse => exact h k hk
  rw [hrel.rackAt_eq]
  split
  case isTrue hp =>
    rw [List.map_insertIdx, hlive]
    refine hwithout.insertFree ?_
    rw [← hwithout.length_reduceOption, ← hrel.rest_eq hp, reduceOption_live]
    exact hdest k ⟨hp, hk⟩
  case isFalse => exact hwithout

theorem mirrored_moveDevice (h : Mirrored P loads app engine) (hP : ∀ k, k < 16 → P k)
    (hkeeps : ∀ slot rest, app.Relocation fromTarget fromSlot toTarget toSlot slot rest →
      app.KeepsMove P loads fromTarget fromSlot toTarget (min toSlot rest.length) slot rest) :
    let moved := app.moveDevice fromTarget fromSlot toTarget toSlot
    Mirrored P loads moved.1 (moved.2.foldl (deliver loads) engine) := by
  intro moved
  obtain ⟨hmode, ⟨heffects, hnothing⟩ | ⟨slot, rest, hrel, heffects, hsent⟩⟩ :=
    app.moveDevice_cases fromTarget fromSlot toTarget toSlot
  · rw [show moved.2 = [] from hnothing]
    refine mirrored_congr h (fun k => ?_) (fun _ => rfl)
    rw [AppState.rackAt_congr hmode heffects]
  · have hrack : ∀ k, moved.1.rackAt k = _ := fun k =>
      AppState.rackAt_congr (hmode.trans (by simp)) heffects k
    have hkeep := hkeeps slot rest hrel
    unfold AppState.KeepsMove at hkeep
    rw [show moved.2 = _ from hsent]
    cases hlive : slot.live loads with
    | some uid =>
      have hext : slot.external.isSome = true := by
        unfold DspSlot.live DspSlot.uid at hlive
        cases hext : slot.external with
        | none => rw [hext] at hlive; exact absurd hlive (by simp)
        | some plugin => rfl
      rw [if_pos hext]
      rw [hlive, if_pos (show (some uid).isSome = true from rfl)] at hkeep
      obtain ⟨⟨f, hf⟩, ⟨t, ht16, ht⟩, hdest⟩ | ⟨hf, ht, hidle⟩ := hkeep
      · intro k hk
        rw [hrack]
        exact mirrored_move_plugin h hrel hlive hf ht ht16 hdest k hk
      · -- Neither strip shows a track of the engine, and the command finds nothing to take.
        intro k hk
        have hsource : ¬ app.place fromTarget = (app.mode.bank, k + 1) := fun hp => hf k ⟨hp, hk⟩
        have hdest : ¬ app.place toTarget = (app.mode.bank, k + 1) := fun hp => ht k ⟨hp, hk⟩
        rw [hrack, hrel.rackAt_eq, if_neg hdest, map_live_rackWithout, if_neg hsource,
          chainUids_idleMove h hP hidle]
        exact h k hk
    | none =>
      rw [hlive, if_neg (by simp)] at hkeep
      obtain ⟨hdest, hidle⟩ := hkeep
      intro k hk
      rw [hrack]
      have hfree := mirrored_move_free h hrel hlive hdest k hk
      split
      case isTrue hext =>
        rwa [chainUids_idleMove h hP (hidle hext)]
      case isFalse => exact hfree

end Moving

/-! ## Runs -/

theorem mirrored_step (hP : ∀ k, k < 16 → P k) (s : Session) (op : RackOp)
    (h : Mirrored P loads s.app (s.drained loads)) (hk : s.KeepsChains P loads op) :
    Mirrored P loads (s.step loads op).app ((s.step loads op).drained loads) := by
  cases op with
  | selectTrack trackIdx =>
    rw [Session.step, Session.drained_send]
    exact h
  | selectSlot slotIdx =>
    rw [Session.step, Session.drained_send]
    exact h
  | addSlot =>
    rw [Session.step, Session.drained_send]
    exact mirrored_addSlot h _
  | assignPlugin slotIdx name =>
    rw [Session.step, Session.drained_send]
    refine mirrored_congr h (fun k => ?_) (fun _ => rfl)
    exact map_live_updateSlot
      (f := fun slot => { slot with name := name, loadError := none }) (fun _ => rfl) _ _ _ k
  | assignExternalPlugin slotIdx descriptor =>
    have hdrained : (s.step loads (.assignExternalPlugin slotIdx descriptor)).drained loads =
        _ := s.drained_send loads _
    rw [hdrained]
    exact mirrored_assign h hk
  | removeSlotAt slotIdx =>
    rw [Session.step, Session.drained_send]
    exact mirrored_removeSlotAt h hk
  | removeSelectedSlot =>
    rw [Session.step, Session.drained_send]
    simp only [Session.send, List.foldl_nil, AppState.removeSelectedSlot]
    split
    · exact mirrored_removeSlotAt h hk
    · exact h
  | moveDevice fromTarget fromSlot toTarget toSlot =>
    rw [Session.step, Session.drained_send]
    exact mirrored_moveDevice h hP hk
  | drainParamProbe descriptorId params =>
    rw [Session.step, Session.drained_send]
    refine mirrored_congr h (fun k => ?_) (fun _ => rfl)
    simp only [Session.send, AppState.rackAt_drainParamProbe]
    refine map_live_map (fun slot => ?_) _
    split
    · rfl
    · rfl
  | commitExternalParam trackIdx slotIdx id value =>
    rw [Session.step, Session.drained_send]
    refine mirrored_congr h (fun k => ?_) (fun _ => rfl)
    exact map_live_updateSlot (fun slot => slot.external_setExternalParam id value) _ _ _ k
  | flushPendingExternalParams =>
    rw [Session.step, Session.drained_send]
    refine mirrored_congr h (fun k => ?_) (fun k => ?_)
    · simp only [Session.send, AppState.rackAt_flush]
      refine map_live_map (fun slot => ?_) _
      unfold AppState.flushSlot
      split
      · rfl
      · rfl
    · exact chainUids_flush loads _ (fun cmd hcmd => AppState.mem_flush hcmd) k
  | deliver =>
    rw [Session.drained_deliver]
    have happ : (s.step loads .deliver).app = s.app := by
      unfold Session.step
      cases s.commands with
      | nil => rfl
      | cons cmd commands => rfl
    rw [happ]
    exact h

theorem mirrored_fresh {s : Session} (hs : s.Fresh) : Mirrored P loads s.app (s.drained loads) := by
  intro k _
  have hchain : chainUids (s.drained loads) k = [] := by
    unfold Session.drained chainUids
    rw [hs.commands, hs.engine, List.foldl_nil, PluginChains.chain_empty]
    rfl
  rw [hchain]
  refine aligned_of_free fun a ha => ?_
  obtain ⟨slot, hslot, rfl⟩ := List.mem_map.mp ha
  unfold DspSlot.live DspSlot.uid
  rw [hs.racks k slot hslot]
  rfl

theorem mirrored_along (hP : ∀ k, k < 16 → P k) {s : Session} (hs : s.Fresh) (ops : List RackOp)
    (hkeeps : Along (Session.step loads) (Session.KeepsChains P loads) s ops) :
    Always (Session.step loads) (fun s => Mirrored P loads s.app (s.drained loads)) s ops := by
  refine always_of_along (P := fun s : Session => Mirrored P loads s.app (s.drained loads)) ?_
    (mirrored_fresh hs) hkeeps
  intro s op h hk
  exact mirrored_step hP s op h hk

/-- The chain of every track is its rack's external plugins in order, and the slot of each of them is
its index in the chain. -/
def ChainsAreRacks (app : AppState) (engine : EngineChains) : Prop :=
  ∀ k, chainUids engine k = (app.rackAt k).filterMap DspSlot.uid ∧
    ∀ (slotIdx : ℕ) (slot : DspSlot) (uid : ℕ), (app.rackAt k)[slotIdx]? = some slot →
      slot.uid = some uid → (chainUids engine k)[slotIdx]? = some uid

theorem Mirrored.chainsAreRacks {app : AppState} {engine : EngineChains}
    (h : Mirrored (fun _ => True) (fun _ => true) app engine) : ChainsAreRacks app engine := by
  have hlive : DspSlot.live (fun _ => true) = DspSlot.uid := by
    funext slot
    unfold DspSlot.live
    cases slot.uid with
    | none => rfl
    | some uid => rfl
  intro k
  have hk := h.loadedUids_eq (k := k) trivial
  unfold loadedUids at hk
  rw [hlive] at hk
  refine ⟨hk.symm, ?_⟩
  intro slotIdx slot uid hslot huid
  refine (h k trivial).getElem? ?_
  rw [List.getElem?_map, hslot, Option.map_some, hlive, huid]

/-- When plugins load, a run of edits that all keep the chains leaves, once its commands are delivered,
every chain equal to its rack. -/
theorem chains_are_racks {s : Session} (hs : s.Fresh) (ops : List RackOp)
    (hkeeps : Along (Session.step fun _ => true)
      (Session.KeepsChains (fun _ => True) fun _ => true) s ops) :
    Always (Session.step fun _ => true)
      (fun s => ChainsAreRacks s.app (s.drained fun _ => true)) s ops := by
  have hrun := mirrored_along (P := fun _ => True) (fun _ _ => trivial) hs ops hkeeps
  exact hrun.mono fun s h => h.chainsAreRacks

theorem chains_are_racks_pair :
    Always (Session.step fun _ => true)
      (fun s => ChainsAreRacks s.app (s.drained fun _ => true)) (Session.blank 1)
      [.addSlot, .assignExternalPlugin 0 ⟨"vst3:echo", "Echo", "/usr/lib/vst3/Echo.vst3", .vst3⟩,
        .addSlot, .assignExternalPlugin 1 ⟨"clap:tape", "Tape", "/usr/lib/clap/Tape.clap", .clap⟩] := by
  refine chains_are_racks (Session.fresh_blank 1) _ ⟨trivial, ?_, trivial, ?_, trivial⟩
  · intro k hk _
    have hk' : 0 = k := Option.some.inj hk
    subst hk'
    exact ⟨by decide, by decide, by decide⟩
  · intro k hk _
    have hk' : 0 = k := Option.some.inj hk
    subst hk'
    exact ⟨by decide, by decide, by decide⟩

/-- A plugin removed from the rack stays in the chain. -/
theorem removed_plugin_stays :
    ¬ ∀ (s : Session) (ops : List RackOp), s.Fresh →
      Always (Session.step fun _ => true)
        (fun s => ChainsAreRacks s.app (s.drained fun _ => true)) s ops := by
  intro h
  have hfinal := (h (Session.blank 1) [.addSlot,
    .assignExternalPlugin 0 ⟨"vst3:echo", "Echo", "/usr/lib/vst3/Echo.vst3", .vst3⟩,
    .removeSlotAt 0] (Session.fresh_blank 1)).final
  exact absurd (hfinal 0).1 (by decide)

end HikaruOpenLive.Gui
