import Mathlib.Data.List.InsertIdx
import HikaruOpenLive.Gui.AppState

/-! # The racks after an edit

`rackAt k` is the rack of the engine's track `k`, the visible track behind the master. Every edit is
described by what it does to the racks, and a move by the slot it takes and where it puts it
(`Relocation`).
-/
set_option autoImplicit false

namespace HikaruOpenLive.Gui.AppState

open Foundations.ListEdits

variable {st : AppState}

/-! ## Chains -/

theorem bank_setBank (st : AppState) (tracks : List Track) (b b' : Bank) :
    (st.setBank tracks b).bank b' = if b' = b then tracks else st.bank b' := by
  cases b <;> cases b' <;> rfl

@[simp] theorem mode_setBank (st : AppState) (tracks : List Track) (b : Bank) :
    (st.setBank tracks b).mode = st.mode := by
  cases b <;> rfl

@[simp] theorem mode_updateEffects (st : AppState) (p : Bank × ℕ)
    (f : List DspSlot → List DspSlot) : (st.updateEffects p f).mode = st.mode :=
  mode_setBank _ _ _

theorem effects_updateEffects (st : AppState) (p q : Bank × ℕ) (f : List DspSlot → List DspSlot) :
    (st.updateEffects p f).effects q = if q = p then (st.effects q).map f else st.effects q := by
  unfold effects updateEffects
  rw [bank_setBank]
  by_cases hb : q.1 = p.1
  · rw [if_pos hb, List.getElem?_modify, hb]
    by_cases hi : p.2 = q.2
    · have hq : q = p := Prod.ext hb hi.symm
      rw [if_pos hq]
      cases (st.bank p.1)[q.2]? with
      | none => rfl
      | some track => simp [hi]
    · have hq : ¬ q = p := fun h => hi (by rw [h])
      rw [if_neg hq]
      cases (st.bank p.1)[q.2]? with
      | none => rfl
      | some track => simp [hi]
  · have hq : ¬ q = p := fun h => hb (by rw [h])
    rw [if_neg hb, if_neg hq]

/-! ## Racks -/

/-- The rack of the engine's track `k`. -/
def rackAt (st : AppState) (k : ℕ) : List DspSlot :=
  (st.trackEffects (k + 1)).getD []

theorem rackAt_eq_effects (st : AppState) (k : ℕ) :
    st.rackAt k = (st.effects (st.mode.bank, k + 1)).getD [] := rfl

theorem rackAt_eq_tracks (st : AppState) (k : ℕ) :
    st.rackAt k = (st.tracks[k + 1]?.map Track.effects).getD [] := rfl

theorem rackAt_congr {st' : AppState} (hmode : st'.mode = st.mode)
    (h : ∀ q, st'.effects q = st.effects q) (k : ℕ) : st'.rackAt k = st.rackAt k := by
  rw [rackAt_eq_effects, rackAt_eq_effects, hmode, h]

theorem rackAt_updateEffects (st : AppState) (p : Bank × ℕ) (f : List DspSlot → List DspSlot)
    (k : ℕ) : (st.updateEffects p f).rackAt k =
      if (st.mode.bank, k + 1) = p then ((st.effects p).map f).getD [] else st.rackAt k := by
  rw [rackAt_eq_effects, mode_updateEffects, effects_updateEffects]
  split
  case isTrue h => rw [h]
  case isFalse => rfl

theorem rackAt_updateTrack (st : AppState) (trackIdx : ℕ) {f : List DspSlot → List DspSlot}
    (hf : f [] = []) (k : ℕ) : (st.updateEffects (st.mode.bank, trackIdx) f).rackAt k =
      if k + 1 = trackIdx then f (st.rackAt k) else st.rackAt k := by
  rw [rackAt_updateEffects]
  by_cases hk : k + 1 = trackIdx
  · rw [if_pos (by rw [hk]), if_pos hk]
    rw [rackAt_eq_effects, hk]
    cases st.effects (st.mode.bank, trackIdx) with
    | none => exact hf.symm
    | some effects => rfl
  · have hp : ¬ (st.mode.bank, k + 1) = (st.mode.bank, trackIdx) := fun h => hk (congrArg Prod.snd h)
    rw [if_neg hp, if_neg hk]

theorem rackAt_updateSlot (st : AppState) (trackIdx slotIdx : ℕ) (f : DspSlot → DspSlot) (k : ℕ) :
    (st.updateSlot trackIdx slotIdx f).rackAt k =
      if k + 1 = trackIdx then (st.rackAt k).modify slotIdx f else st.rackAt k :=
  st.rackAt_updateTrack trackIdx (List.modify_nil f slotIdx) k

theorem rackAt_addSlot (st : AppState) (trackIdx k : ℕ) :
    (st.addSlot trackIdx).rackAt k = st.rackAt k ∨
      (st.addSlot trackIdx).rackAt k = st.rackAt k ++ [DspSlot.new emptySlotName] := by
  unfold addSlot
  cases h : st.trackEffects trackIdx with
  | none => exact Or.inl rfl
  | some effects =>
    have hsel : ∀ f, ({ st.updateEffects (st.mode.bank, trackIdx) f with
        selectedSlotIndex := effects.length } : AppState).rackAt k =
          (st.updateEffects (st.mode.bank, trackIdx) f).rackAt k := fun _ => rfl
    rw [hsel, rackAt_updateEffects]
    split
    case isTrue hk =>
      refine Or.inr ?_
      have hk' : k + 1 = trackIdx := congrArg Prod.snd hk
      have hrow : st.effects (st.mode.bank, trackIdx) = some effects := h
      rw [rackAt_eq_effects, hk', hrow]
      rfl
    case isFalse => exact Or.inl rfl

theorem rackAt_removeSlotAt (st : AppState) (trackIdx slotIdx k : ℕ) :
    (st.removeSlotAt trackIdx slotIdx).rackAt k =
      if k + 1 = trackIdx then (st.rackAt k).eraseIdx slotIdx else st.rackAt k :=
  st.rackAt_updateTrack trackIdx List.eraseIdx_nil k

theorem rackAt_drainParamProbe (st : AppState) (descriptorId : String)
    (params : List (PluginParamInfo × ℚ)) (k : ℕ) :
    (st.drainParamProbe descriptorId params).rackAt k = (st.rackAt k).map fun slot =>
      if slot.external.any fun plugin => plugin.descriptor.id == descriptorId then
        { slot with
          externalParams := params.map fun param => ExternalParamState.mk param.1 param.2 }
      else slot := by
  rw [rackAt_eq_tracks, rackAt_eq_tracks]
  unfold drainParamProbe tracks
  rw [mode_setBank, bank_setBank, if_pos rfl, List.getElem?_map]
  cases (st.bank st.mode.bank)[k + 1]? with
  | none => rfl
  | some track => rfl

/-! ## A flush -/

theorem rackAt_flush (st : AppState) (k : ℕ) :
    st.flushPendingExternalParams.1.rackAt k = (st.rackAt k).map flushSlot := by
  rw [rackAt_eq_tracks, rackAt_eq_tracks]
  unfold flushPendingExternalParams tracks
  simp only
  rw [mode_setBank, bank_setBank, if_pos rfl, List.getElem?_mapIdx]
  cases (st.bank st.mode.bank)[k + 1]? with
  | none => rfl
  | some track => rfl

/-- A flush sends what waits in an external slot, to the index of that slot. -/
theorem mem_flush {st : AppState} {cmd : GuiCommand} (h : cmd ∈ st.flushPendingExternalParams.2) :
    ∃ k slotIdx slot, (st.rackAt k)[slotIdx]? = some slot ∧ slot.external.isSome = true ∧
      cmd = .syncExternalPluginParams k slotIdx slot.pendingExternalParams := by
  unfold flushPendingExternalParams at h
  obtain ⟨⟨track, trackIdx⟩, htrack, hcmd⟩ := List.mem_flatMap.mp h
  rw [List.mem_zipIdx_iff_getElem?] at htrack
  cases trackIdx with
  | zero => simp [engineTrackOf] at hcmd
  | succ k =>
    simp only [engineTrackOf] at hcmd
    obtain ⟨⟨slot, slotIdx⟩, hslot, hsync⟩ := List.mem_filterMap.mp hcmd
    rw [List.mem_zipIdx_iff_getElem?] at hslot
    simp only [syncCommand] at hsync
    split at hsync
    case isTrue hext =>
      refine ⟨k, slotIdx, slot, ?_, hext.1, (Option.some.inj hsync).symm⟩
      rw [rackAt_eq_tracks, htrack]
      exact hslot
    case isFalse => exact absurd hsync (by simp)

/-! ## Moves -/

/-- The move takes `slot` out of a chain and puts it into a chain that is `rest` without it. -/
structure Relocation (st : AppState) (fromTarget : StripTarget) (fromSlot : ℕ)
    (toTarget : StripTarget) (toSlot : ℕ) (slot : DspSlot) (rest : List DspSlot) : Prop where
  moves : ¬ (fromTarget = toTarget ∧ (fromSlot = toSlot ∨
    toSlot = usizeMax ∧ ((st.targetEffects fromTarget).getD []).length ≤ fromSlot + 1))
  source : ((st.targetEffects fromTarget).bind fun effects => effects[fromSlot]?) = some slot
  dest : (st.updateEffects (st.place fromTarget) fun effects =>
    effects.eraseIdx fromSlot).targetEffects toTarget = some rest

/-- The racks after a slot has gone from one chain to a place in another. -/
def relocated (st : AppState) (fromTarget : StripTarget) (fromSlot : ℕ) (toTarget : StripTarget)
    (dest : ℕ) (slot : DspSlot) : AppState :=
  (st.updateEffects (st.place fromTarget) fun effects => effects.eraseIdx fromSlot).updateEffects
    (st.place toTarget) fun effects => effects.insertIdx dest slot

@[simp] theorem mode_relocated (st : AppState) (fromTarget : StripTarget) (fromSlot : ℕ)
    (toTarget : StripTarget) (dest : ℕ) (slot : DspSlot) :
    (st.relocated fromTarget fromSlot toTarget dest slot).mode = st.mode := by
  simp [relocated]

def rackWithout (st : AppState) (fromTarget : StripTarget) (fromSlot k : ℕ) : List DspSlot :=
  if st.place fromTarget = (st.mode.bank, k + 1) then (st.rackAt k).eraseIdx fromSlot
  else st.rackAt k

theorem rackAt_taken (st : AppState) (fromTarget : StripTarget) (fromSlot k : ℕ) :
    (st.updateEffects (st.place fromTarget) fun effects => effects.eraseIdx fromSlot).rackAt k =
      st.rackWithout fromTarget fromSlot k := by
  unfold rackWithout
  by_cases hk : st.place fromTarget = (st.mode.bank, k + 1)
  · rw [if_pos hk, hk, rackAt_updateTrack _ _ List.eraseIdx_nil, if_pos rfl]
  · rw [if_neg hk, rackAt_updateEffects, if_neg (Ne.symm hk)]

@[simp] theorem place_updateEffects (st : AppState) (p : Bank × ℕ)
    (f : List DspSlot → List DspSlot) (target : StripTarget) :
    (st.updateEffects p f).place target = st.place target := by
  cases target with
  | master => simp [place]
  | live idx => rfl
  | studio idx => rfl
  | fx idx => rfl

section Relocation

variable {fromTarget toTarget : StripTarget} {fromSlot toSlot : ℕ} {slot : DspSlot}
  {rest : List DspSlot}

theorem Relocation.getElem? (h : st.Relocation fromTarget fromSlot toTarget toSlot slot rest) {k : ℕ}
    (hk : st.place fromTarget = (st.mode.bank, k + 1)) : (st.rackAt k)[fromSlot]? = some slot := by
  obtain ⟨effects, heffects, hget⟩ := Option.bind_eq_some_iff.mp h.source
  unfold targetEffects at heffects
  rw [rackAt_eq_effects, ← hk, heffects]
  exact hget

theorem Relocation.rest_eq (h : st.Relocation fromTarget fromSlot toTarget toSlot slot rest) {k : ℕ}
    (hk : st.place toTarget = (st.mode.bank, k + 1)) :
    rest = st.rackWithout fromTarget fromSlot k := by
  have hdest := h.dest
  unfold targetEffects at hdest
  rw [place_updateEffects, hk] at hdest
  rw [← rackAt_taken, rackAt_eq_effects, mode_updateEffects, hdest]
  rfl

theorem Relocation.rackAt_eq (h : st.Relocation fromTarget fromSlot toTarget toSlot slot rest)
    (dest k : ℕ) :
    (st.relocated fromTarget fromSlot toTarget dest slot).rackAt k =
      if st.place toTarget = (st.mode.bank, k + 1) then
        (st.rackWithout fromTarget fromSlot k).insertIdx dest slot
      else st.rackWithout fromTarget fromSlot k := by
  rw [relocated, rackAt_updateEffects, mode_updateEffects, rackAt_taken]
  by_cases hk : st.place toTarget = (st.mode.bank, k + 1)
  · have hdest := h.dest
    unfold targetEffects at hdest
    rw [place_updateEffects] at hdest
    rw [if_pos hk.symm, if_pos hk, hdest, h.rest_eq hk]
    rfl
  · rw [if_neg hk, if_neg (Ne.symm hk)]

theorem toEngineTrack_of_place {target : StripTarget} {k : ℕ}
    (h : st.place target = (st.mode.bank, k + 1)) : toEngineTrack target = some k := by
  cases target with
  | master => exact absurd (congrArg Prod.snd h) (by simp [place])
  | live idx =>
    have hidx : idx + 1 = k + 1 := congrArg Prod.snd h
    rw [toEngineTrack, Nat.add_right_cancel hidx]
  | studio idx =>
    have hidx : idx = k + 1 := congrArg Prod.snd h
    rw [toEngineTrack, hidx, engineTrackOf]
  | fx idx =>
    have hbank : Bank.fx = st.mode.bank := congrArg Prod.fst h
    cases hmode : st.mode with
    | openLive => exact absurd hbank (by rw [hmode]; decide)
    | openStudio => exact absurd hbank (by rw [hmode]; decide)

end Relocation

/-- A slot that goes back where it was leaves every chain as it was. -/
theorem effects_putBack {st : AppState} {p : Bank × ℕ} {slotIdx : ℕ} {slot : DspSlot}
    (hslot : ((st.effects p).bind fun effects => effects[slotIdx]?) = some slot) (q : Bank × ℕ) :
    ((st.updateEffects p fun effects => effects.eraseIdx slotIdx).updateEffects p fun effects =>
      effects.insertIdx (min slotIdx effects.length) slot).effects q = st.effects q := by
  obtain ⟨effects, heffects, hget⟩ := Option.bind_eq_some_iff.mp hslot
  simp only [effects_updateEffects]
  by_cases hq : q = p
  · have hback : (effects.eraseIdx slotIdx).insertIdx
        (min slotIdx (effects.eraseIdx slotIdx).length) slot = effects := by
      have hlt := lt_of_getElem? hget
      have hsame : effects[slotIdx] = slot := (List.getElem_of_getElem? hget).2
      rw [insertIdx_eraseIdx_min, putAt, if_pos hlt, ← hsame, List.set_getElem_self]
    rw [if_pos hq, if_pos hq, hq, heffects]
    simp only [Option.map_some, hback]
  · rw [if_neg hq, if_neg hq]

/-- A move relocates a slot, or it leaves all chains as they are and sends nothing. -/
theorem moveDevice_cases (st : AppState) (fromTarget : StripTarget) (fromSlot : ℕ)
    (toTarget : StripTarget) (toSlot : ℕ) :
    let moved := st.moveDevice fromTarget fromSlot toTarget toSlot
    moved.1.mode = st.mode ∧
      ((∀ q, moved.1.effects q = st.effects q) ∧ moved.2 = [] ∨
        ∃ slot rest, st.Relocation fromTarget fromSlot toTarget toSlot slot rest ∧
          (∀ q, moved.1.effects q =
            (st.relocated fromTarget fromSlot toTarget (min toSlot rest.length) slot).effects q) ∧
          moved.2 = if slot.external.isSome then
            moveCommands fromTarget fromSlot toTarget (min toSlot rest.length) else []) := by
  intro moved
  by_cases hstay : fromTarget = toTarget ∧ (fromSlot = toSlot ∨
      toSlot = usizeMax ∧ ((st.targetEffects fromTarget).getD []).length ≤ fromSlot + 1)
  · have hm : moved = (st, []) := if_pos hstay
    rw [hm]
    exact ⟨rfl, Or.inl ⟨fun _ => rfl, rfl⟩⟩
  · cases hslot : (st.targetEffects fromTarget).bind fun effects => effects[fromSlot]? with
    | none =>
      have hm : moved = (st, []) := by
        simp only [moved, moveDevice, if_neg hstay, hslot]
      rw [hm]
      exact ⟨rfl, Or.inl ⟨fun _ => rfl, rfl⟩⟩
    | some slot =>
      cases hrest : (st.updateEffects (st.place fromTarget) fun effects =>
          effects.eraseIdx fromSlot).targetEffects toTarget with
      | none =>
        have hm : moved = ((st.updateEffects (st.place fromTarget) fun effects =>
            effects.eraseIdx fromSlot).updateEffects (st.place fromTarget) fun effects =>
              effects.insertIdx (min fromSlot effects.length) slot, []) := by
          simp only [moved, moveDevice, if_neg hstay, hslot, hrest]
        rw [hm]
        exact ⟨by simp, Or.inl ⟨effects_putBack hslot, rfl⟩⟩
      | some rest =>
        have hm : moved = (if st.selectedTrackIndex = mixerIndex fromTarget ∧
            st.selectedSlotIndex = fromSlot then
              { st.relocated fromTarget fromSlot toTarget (min toSlot rest.length) slot with
                selectedTrackIndex := mixerIndex toTarget
                selectedSlotIndex := min toSlot rest.length }
            else st.relocated fromTarget fromSlot toTarget (min toSlot rest.length) slot,
            if slot.external.isSome then
              moveCommands fromTarget fromSlot toTarget (min toSlot rest.length) else []) := by
          simp only [moved, moveDevice, if_neg hstay, hslot, hrest, relocated]
        rw [hm]
        refine ⟨?_, Or.inr ⟨slot, rest, ⟨hstay, hslot, hrest⟩, ?_, rfl⟩⟩
        · simp only
          split
          · simp
          · simp
        · intro q
          simp only
          split
          · rfl
          · rfl

theorem moveDevice_commands (st : AppState) (fromTarget : StripTarget) (fromSlot : ℕ)
    (toTarget : StripTarget) (toSlot : ℕ) :
    (st.moveDevice fromTarget fromSlot toTarget toSlot).2 = [] ∨
      ∃ f t dest, (st.moveDevice fromTarget fromSlot toTarget toSlot).2 =
        [.moveExternalPlugin f fromSlot t dest] := by
  obtain ⟨_, ⟨_, hnothing⟩ | ⟨slot, rest, _, _, hsent⟩⟩ :=
    st.moveDevice_cases fromTarget fromSlot toTarget toSlot
  · exact Or.inl hnothing
  · rw [hsent]
    unfold moveCommands
    split
    · split
      case h_1 f t _ _ => exact Or.inr ⟨f, t, _, rfl⟩
      case h_2 => exact Or.inl rfl
    · exact Or.inl rfl

end HikaruOpenLive.Gui.AppState
