import Mathlib.Data.List.InsertIdx
import HikaruOpenLive.Foundations.Runs
import HikaruOpenLive.Gui.ParamProbes

/-! # The probes against the slots that wait for them

The set of ids and the probes in flight always agree, so no id has two. The slots agree with them as
long as every result finds the slots that wait for it.
-/
set_option autoImplicit false

namespace HikaruOpenLive.Gui

open Foundations.Runs Foundations.ListEdits

namespace ProbeSlot

@[simp] theorem external_receive (slot : ProbeSlot) (result : ParamProbeResult) :
    (slot.receive result).external = slot.external := by
  unfold receive
  split
  · split <;> rfl
  · rfl

theorem external_foldl_receive (results : List ParamProbeResult) (slot : ProbeSlot) :
    (results.foldl receive slot).external = slot.external := by
  induction results generalizing slot with
  | nil => rfl
  | cons result results ih => rw [List.foldl_cons, ih, external_receive]

theorem settled_receive {slot : ProbeSlot} {result : ParamProbeResult}
    (h : slot.external = some result.descriptorId ∨ slot.paramsStatus.Settled) :
    (slot.receive result).paramsStatus.Settled := by
  unfold receive
  split
  case isTrue => split <;> exact trivial
  case isFalse hother =>
    refine h.resolve_left fun hexternal => hother ?_
    rw [holds, hexternal, decide_eq_true_eq]

/-- A slot that one of the results is for shows an outcome when all have been received. -/
theorem settled_foldl_receive {results : List ParamProbeResult} {slot : ProbeSlot}
    (h : (∃ result ∈ results, slot.external = some result.descriptorId) ∨
      slot.paramsStatus.Settled) : (results.foldl receive slot).paramsStatus.Settled := by
  induction results generalizing slot with
  | nil =>
    obtain ⟨result, hmem, _⟩ | h := h
    · exact absurd hmem List.not_mem_nil
    · exact h
  | cons result results ih =>
    rw [List.foldl_cons]
    apply ih
    obtain ⟨found, hmem, hexternal⟩ | h := h
    · obtain rfl | hmem := List.mem_cons.mp hmem
      · exact Or.inr (settled_receive (Or.inl hexternal))
      · exact Or.inl ⟨found, hmem, by rw [external_receive, hexternal]⟩
    · exact Or.inr (settled_receive (Or.inr h))

theorem foldl_receive_of_ne {results : List ParamProbeResult} {slot : ProbeSlot}
    (h : ∀ result ∈ results, slot.external ≠ some result.descriptorId) :
    results.foldl receive slot = slot := by
  induction results with
  | nil => rfl
  | cons result results ih =>
    rw [List.forall_mem_cons] at h
    have hother : slot.receive result = slot := by
      rw [receive, holds, if_neg (by simpa using h.1)]
    rw [List.foldl_cons, hother, ih h.2]

end ProbeSlot

namespace ProbeRacks

/-! ## Membership after an edit -/

def InBank (s : ProbeRacks) (b : Bank) (slot : ProbeSlot) : Prop :=
  ∃ track ∈ s.bank b, slot ∈ track

theorem bank_setBank (s : ProbeRacks) (tracks : List (List ProbeSlot)) (b b' : Bank) :
    (s.setBank tracks b).bank b' = if b' = b then tracks else s.bank b' := by
  cases b <;> cases b' <;> rfl

theorem inBank_updateEffects {s : ProbeRacks} {p : Bank × ℕ}
    {f : List ProbeSlot → List ProbeSlot} {b : Bank} {slot : ProbeSlot}
    (h : (s.updateEffects p f).InBank b slot) :
    s.InBank b slot ∨ b = p.1 ∧ ∃ effects, s.effects p = some effects ∧ slot ∈ f effects := by
  obtain ⟨track, htrack, hslot⟩ := h
  rw [updateEffects, bank_setBank] at htrack
  by_cases hb : b = p.1
  · rw [if_pos hb] at htrack
    obtain hold | ⟨effects, heffects, rfl⟩ := mem_modify htrack
    · exact Or.inl ⟨track, hb ▸ hold, hslot⟩
    · exact Or.inr ⟨hb, effects, heffects, hslot⟩
  · rw [if_neg hb] at htrack
    exact Or.inl ⟨track, htrack, hslot⟩

theorem effects_updateEffects (s : ProbeRacks) (p q : Bank × ℕ)
    (f : List ProbeSlot → List ProbeSlot) :
    (s.updateEffects p f).effects q = if q = p then (s.effects q).map f else s.effects q := by
  unfold effects updateEffects
  rw [bank_setBank]
  by_cases hb : q.1 = p.1
  · rw [if_pos hb, List.getElem?_modify, hb]
    by_cases hi : p.2 = q.2
    · rw [if_pos (Prod.ext hb hi.symm)]
      simp [hi]
    · have hq : ¬q = p := fun h => hi (by rw [h])
      rw [if_neg hq]
      simp [hi]
  · have hq : ¬q = p := fun h => hb (by rw [h])
    rw [if_neg hb, if_neg hq]

theorem inBank_of_effects {s : ProbeRacks} {p : Bank × ℕ} {effects : List ProbeSlot}
    (h : s.effects p = some effects) {slot : ProbeSlot} (hslot : slot ∈ effects) :
    s.InBank p.1 slot :=
  ⟨effects, List.mem_of_getElem? h, hslot⟩

/-- What an edit of the racks leaves alone. -/
structure SameProbes (s s' : ProbeRacks) : Prop where
  paramProbing : s'.paramProbing = s.paramProbing
  threads : s'.threads = s.threads
  results : s'.results = s.results
  drained : s'.drained = s.drained

theorem sameProbes_setBank (s : ProbeRacks) (tracks : List (List ProbeSlot)) (b : Bank) :
    s.SameProbes (s.setBank tracks b) := by
  cases b <;> exact ⟨rfl, rfl, rfl, rfl⟩

theorem SameProbes.trans {s s' s'' : ProbeRacks} (h : s.SameProbes s') (h' : s'.SameProbes s'') :
    s.SameProbes s'' :=
  ⟨h'.1.trans h.1, h'.2.trans h.2, h'.3.trans h.3, h'.4.trans h.4⟩

theorem SameProbes.inFlight {s s' : ProbeRacks} (h : s.SameProbes s') :
    s'.inFlight = s.inFlight := by
  rw [ProbeRacks.inFlight, h.threads, h.results, ProbeRacks.inFlight]

theorem SameProbes.slotOk {s s' : ProbeRacks} (h : s.SameProbes s') {slot : ProbeSlot} :
    s'.SlotOk slot ↔ s.SlotOk slot := by
  constructor
  · intro hslot
    refine ⟨fun hprobing => ?_, fun id hid hdrained hflight => ?_⟩
    · obtain ⟨id, hid, hset, hflight⟩ := hslot.probing hprobing
      exact ⟨id, hid, h.paramProbing ▸ hset, h.inFlight ▸ hflight⟩
    · exact hslot.drained id hid (h.drained ▸ hdrained) (h.inFlight ▸ hflight)
  · intro hslot
    refine ⟨fun hprobing => ?_, fun id hid hdrained hflight => ?_⟩
    · obtain ⟨id, hid, hset, hflight⟩ := hslot.probing hprobing
      exact ⟨id, hid, h.paramProbing.symm ▸ hset, h.inFlight.symm ▸ hflight⟩
    · exact hslot.drained id hid (h.drained ▸ hdrained) (h.inFlight ▸ hflight)

/-! ## The set of ids and the probes in flight -/

structure Guarded (s : ProbeRacks) : Prop where
  single : s.inFlight.Nodup
  probing : ∀ id, id ∈ s.paramProbing ↔ id ∈ s.inFlight

theorem guarded_opened (mode : AppMode) (live studio fx : List (List (Option String))) :
    (opened mode live studio fx).Guarded :=
  ⟨List.nodup_nil, fun id => by simp [opened, inFlight]⟩

theorem SameProbes.guarded {s s' : ProbeRacks} (h : s.SameProbes s') (hs : s.Guarded) :
    s'.Guarded := by
  refine ⟨h.inFlight ▸ hs.single, fun id => ?_⟩
  rw [h.paramProbing, h.inFlight]
  exact hs.probing id

theorem SlotOk.mono {s s' : ProbeRacks} {slot : ProbeSlot} (h : s.SlotOk slot)
    (hprobing : s.paramProbing ⊆ s'.paramProbing) (hflight : s.inFlight ⊆ s'.inFlight)
    (hdrained : s'.drained ⊆ s.drained) : s'.SlotOk slot := by
  refine ⟨fun hstatus => ?_, fun id hid hmem hnot => ?_⟩
  · obtain ⟨id, hid, hset, hin⟩ := h.probing hstatus
    exact ⟨id, hid, hprobing hset, hflight hin⟩
  · exact h.drained id hid (hdrained hmem) fun hin => hnot (hflight hin)

theorem slotOk_of_inFlight {s : ProbeRacks} {slot : ProbeSlot} {id : String}
    (hid : slot.external = some id) (hprobing : id ∈ s.paramProbing) (hflight : id ∈ s.inFlight) :
    s.SlotOk slot := by
  refine ⟨fun _ => ⟨id, hid, hprobing, hflight⟩, fun id' hid' _ hnot => absurd hflight ?_⟩
  rw [hid] at hid'
  rwa [Option.some.inj hid']

theorem SameProbes.slotsOk {s s' : ProbeRacks} (h : s.SameProbes s')
    (hs : ∀ slot, s.Shown slot → s.SlotOk slot)
    (hnew : ∀ b ≠ Bank.fx, ∀ slot, s'.InBank b slot → s.InBank b slot ∨ s.SlotOk slot) :
    ∀ slot, s'.Shown slot → s'.SlotOk slot := by
  rintro slot ⟨b, hb, hslot⟩
  rw [h.slotOk]
  obtain hold | hok := hnew b hb slot hslot
  · exact hs slot ⟨b, hb, hold⟩
  · exact hok

/-! ## A request -/

theorem mem_markFirst {id : String} {tracks : List (List ProbeSlot)} {slot : ProbeSlot}
    (h : ∃ track ∈ markFirst id tracks, slot ∈ track) :
    (∃ track ∈ tracks, slot ∈ track) ∨ slot.external = some id := by
  obtain ⟨track, htrack, hslot⟩ := h
  obtain hold | ⟨before, hbefore, _, rfl⟩ := mem_updateFirst htrack
  · exact Or.inl ⟨track, hold, hslot⟩
  · obtain hold | ⟨old, _, hholds, rfl⟩ := mem_updateFirst hslot
    · exact Or.inl ⟨before, hbefore, hold⟩
    · exact Or.inr (of_decide_eq_true hholds)

/-- What a request does that starts a probe. -/
structure Started (s : ProbeRacks) (id : String) (s' : ProbeRacks) : Prop where
  inFlight : s'.inFlight.Perm (id :: s.inFlight)
  paramProbing : s'.paramProbing = insert id s.paramProbing
  drained : s'.drained = s.drained
  bank : ∀ b, s'.bank b = if b = s.mode.bank then markFirst id s.tracks else s.bank b

theorem request_cases (s : ProbeRacks) (id : String) :
    (s.requestExternalParams id = s ∧
        (id ∈ s.paramProbing ∨ ∀ slot, s.InBank s.mode.bank slot → slot.external ≠ some id)) ∨
      id ∉ s.paramProbing ∧ s.Started id (s.requestExternalParams id) := by
  unfold requestExternalParams
  by_cases hset : id ∈ s.paramProbing
  · rw [if_pos hset]
    exact Or.inl ⟨rfl, Or.inl hset⟩
  · rw [if_neg hset]
    by_cases hany : (s.tracks.any fun track => track.any (ProbeSlot.holds id)) = true
    · rw [if_pos hany]
      have hsame := s.sameProbes_setBank (markFirst id s.tracks) s.mode.bank
      refine Or.inr ⟨hset, ?_, rfl, hsame.drained, fun b => ?_⟩
      · simp only [inFlight, hsame.results, List.append_assoc]
        exact List.perm_middle
      · rw [← bank_setBank]
        cases b <;> rfl
    · rw [if_neg hany, Finset.erase_insert hset]
      refine Or.inl ⟨rfl, Or.inr ?_⟩
      rintro slot ⟨track, htrack, hslot⟩ hid
      refine hany (List.any_eq_true.mpr ⟨track, htrack, List.any_eq_true.mpr ⟨slot, hslot, ?_⟩⟩)
      exact decide_eq_true hid

theorem Guarded.request {s : ProbeRacks} (hs : s.Guarded) (id : String) :
    (s.requestExternalParams id).Guarded := by
  obtain ⟨heq, _⟩ | ⟨hset, hstarted⟩ := s.request_cases id
  · rw [heq]
    exact hs
  · refine ⟨?_, fun id' => ?_⟩
    · rw [hstarted.inFlight.nodup_iff, List.nodup_cons, ← hs.probing]
      exact ⟨hset, hs.single⟩
    · rw [hstarted.inFlight.mem_iff, List.mem_cons, ← hs.probing, hstarted.paramProbing]
      exact Finset.mem_insert

theorem Started.slotOk_marked {s s' : ProbeRacks} {id : String} (h : s.Started id s')
    {slot : ProbeSlot} (hid : slot.external = some id) : s'.SlotOk slot := by
  apply slotOk_of_inFlight hid
  · rw [h.paramProbing]
    exact Finset.mem_insert_self _ _
  · exact h.inFlight.mem_iff.mpr List.mem_cons_self

theorem Started.slotOk_mono {s s' : ProbeRacks} {id : String} (h : s.Started id s')
    {slot : ProbeSlot} (hok : s.SlotOk slot) : s'.SlotOk slot := by
  apply hok.mono
  · rw [h.paramProbing]
    exact Finset.subset_insert _ _
  · exact fun id' hin => h.inFlight.mem_iff.mpr (List.mem_cons_of_mem id hin)
  · rw [h.drained]

/-- A request takes care of every slot with its plugin, if one is visible. -/
theorem slotsOk_request {s : ProbeRacks} (hs : s.Guarded) (id : String)
    (h : ∀ slot, s.Shown slot → s.SlotOk slot ∨
      slot.external = some id ∧ s.InBank s.mode.bank slot) :
    ∀ slot, (s.requestExternalParams id).Shown slot → (s.requestExternalParams id).SlotOk slot := by
  obtain ⟨heq, hwhy⟩ | ⟨_, hstarted⟩ := s.request_cases id
  · rw [heq]
    intro slot hslot
    obtain hok | ⟨hid, hvisible⟩ := h slot hslot
    · exact hok
    · obtain hset | hnone := hwhy
      · exact slotOk_of_inFlight hid hset ((hs.probing id).mp hset)
      · exact absurd hid (hnone slot hvisible)
  · have hold : ∀ slot, s.Shown slot → (s.requestExternalParams id).SlotOk slot := by
      intro slot hslot
      obtain hok | ⟨hid, _⟩ := h slot hslot
      · exact hstarted.slotOk_mono hok
      · exact hstarted.slotOk_marked hid
    rintro slot ⟨b, hb, hslot⟩
    rw [hstarted.bank] at hslot
    by_cases hvisible : b = s.mode.bank
    · rw [if_pos hvisible] at hslot
      obtain hslot | hid := mem_markFirst hslot
      · exact hold slot ⟨b, hb, hvisible ▸ hslot⟩
      · exact hstarted.slotOk_marked hid
    · rw [if_neg hvisible] at hslot
      exact hold slot ⟨b, hb, hslot⟩

theorem sameProbes_updateEffects (s : ProbeRacks) (p : Bank × ℕ)
    (f : List ProbeSlot → List ProbeSlot) : s.SameProbes (s.updateEffects p f) :=
  s.sameProbes_setBank _ _

@[simp] theorem mode_updateEffects (s : ProbeRacks) (p : Bank × ℕ)
    (f : List ProbeSlot → List ProbeSlot) : (s.updateEffects p f).mode = s.mode := by
  obtain ⟨b, i⟩ := p
  cases b <;> rfl

theorem slotsOk_assign {s : ProbeRacks} (hs : s.Guarded)
    (h : ∀ slot, s.Shown slot → s.SlotOk slot) (trackIdx slotIdx : ℕ) (id : String) :
    ∀ slot, (s.assignExternalPlugin trackIdx slotIdx id).Shown slot →
      (s.assignExternalPlugin trackIdx slotIdx id).SlotOk slot := by
  have hsame := s.sameProbes_updateEffects (s.mode.bank, trackIdx) fun effects =>
    effects.modify slotIdx (ProbeSlot.assign id)
  apply slotsOk_request (hsame.guarded hs)
  rintro slot ⟨b, hb, hslot⟩
  rw [hsame.slotOk, mode_updateEffects]
  obtain hold | ⟨rfl, effects, heffects, hmem⟩ := inBank_updateEffects hslot
  · exact Or.inl (h slot ⟨b, hb, hold⟩)
  · obtain hold | ⟨old, _, rfl⟩ := mem_modify hmem
    · exact Or.inl (h slot ⟨_, hb, inBank_of_effects heffects hold⟩)
    · exact Or.inr ⟨rfl, hslot⟩

/-! ## A move -/

@[simp] theorem place_updateEffects (s : ProbeRacks) (p : Bank × ℕ)
    (f : List ProbeSlot → List ProbeSlot) (target : StripTarget) :
    (s.updateEffects p f).place target = s.place target := by
  cases target with
  | master => simp only [place, mode_updateEffects]
  | live idx => rfl
  | studio idx => rfl
  | fx idx => rfl

/-- A move changes nothing, or it takes a slot and puts it into a chain: the one it was asked for, if
there is one. -/
theorem move_cases (s : ProbeRacks) (fromTarget : StripTarget) (fromSlot : ℕ)
    (toTarget : StripTarget) (toSlot : ℕ) :
    s.moveDevice fromTarget fromSlot toTarget toSlot = s ∨
      ∃ moved i p, s.slotAt fromTarget fromSlot = some moved ∧
        s.moveDevice fromTarget fromSlot toTarget toSlot =
          ((s.updateEffects (s.place fromTarget) fun effects => effects.eraseIdx fromSlot).updateEffects
            p fun effects => effects.insertIdx (min i effects.length) moved) ∧
        (p = s.place fromTarget ∧ s.effects (s.place toTarget) = none ∨
          p = s.place toTarget ∧ (s.effects (s.place toTarget)).isSome = true) := by
  unfold moveDevice
  simp only
  split
  · exact Or.inl rfl
  · cases hslot : s.slotAt fromTarget fromSlot with
    | none => exact Or.inl rfl
    | some moved =>
      simp only [place_updateEffects, effects_updateEffects]
      cases hto : s.effects (s.place toTarget) with
      | none =>
        refine Or.inr ⟨moved, fromSlot, s.place fromTarget, rfl, ?_, Or.inl ⟨rfl, rfl⟩⟩
        by_cases hp : s.place toTarget = s.place fromTarget
        · simp [hp]
        · simp [hp]
      | some effects =>
        refine Or.inr ⟨moved, toSlot, s.place toTarget, rfl, ?_, Or.inr ⟨rfl, rfl⟩⟩
        by_cases hp : s.place toTarget = s.place fromTarget
        · simp [hp]
        · simp [hp]

theorem inBank_of_slotAt {s : ProbeRacks} {target : StripTarget} {slotIdx : ℕ} {slot : ProbeSlot}
    (h : s.slotAt target slotIdx = some slot) : s.InBank (s.place target).1 slot := by
  obtain ⟨effects, heffects, hslot⟩ := Option.bind_eq_some_iff.mp h
  exact inBank_of_effects heffects (List.mem_of_getElem? hslot)

/-- Every slot of a chain was in it before, or is the one that was put there. -/
theorem inBank_moved {s : ProbeRacks} {q p : Bank × ℕ} {k i : ℕ} {moved slot : ProbeSlot} {b : Bank}
    (h : ((s.updateEffects q fun effects => effects.eraseIdx k).updateEffects p
      fun effects => effects.insertIdx (min i effects.length) moved).InBank b slot) :
    s.InBank b slot ∨ b = p.1 ∧ slot = moved := by
  have htaken : ∀ {b slot}, (s.updateEffects q fun effects => effects.eraseIdx k).InBank b slot →
      s.InBank b slot := by
    intro b slot h
    obtain hold | ⟨rfl, effects, heffects, hmem⟩ := inBank_updateEffects h
    · exact hold
    · exact inBank_of_effects heffects (List.mem_of_mem_eraseIdx hmem)
  obtain hold | ⟨rfl, effects, heffects, hmem⟩ := inBank_updateEffects h
  · exact Or.inl (htaken hold)
  · obtain rfl | hmem := (List.mem_insertIdx (min_le_right _ _)).mp hmem
    · exact Or.inr ⟨rfl, rfl⟩
    · exact Or.inl (htaken (inBank_of_effects heffects hmem))

theorem sameProbes_move (s : ProbeRacks) (fromTarget : StripTarget) (fromSlot : ℕ)
    (toTarget : StripTarget) (toSlot : ℕ) :
    s.SameProbes (s.moveDevice fromTarget fromSlot toTarget toSlot) := by
  obtain heq | ⟨moved, i, p, _, heq, _⟩ := s.move_cases fromTarget fromSlot toTarget toSlot
  · rw [heq]
    exact ⟨rfl, rfl, rfl, rfl⟩
  · rw [heq]
    exact (s.sameProbes_updateEffects _ _).trans (sameProbes_updateEffects _ _ _)

theorem slotsOk_move_iff {s : ProbeRacks} (h : ∀ slot, s.Shown slot → s.SlotOk slot)
    (fromTarget : StripTarget) (fromSlot : ℕ) (toTarget : StripTarget) (toSlot : ℕ) :
    (∀ slot, (s.moveDevice fromTarget fromSlot toTarget toSlot).Shown slot →
        (s.moveDevice fromTarget fromSlot toTarget toSlot).SlotOk slot) ↔
      s.Reaches (.moveDevice fromTarget fromSlot toTarget toSlot) := by
  have hsame := s.sameProbes_move fromTarget fromSlot toTarget toSlot
  constructor
  · intro hafter moved hmoved hfrom hto hdest
    rw [← hsame.slotOk]
    refine hafter moved ⟨_, hto, ?_⟩
    have hne : s.place toTarget ≠ s.place fromTarget := fun heq => hto (by rw [heq, hfrom])
    obtain ⟨effects, heffects⟩ := Option.isSome_iff_exists.mp hdest
    have htargets : fromTarget ≠ toTarget := fun heq => hne (by rw [heq])
    have htaken : (s.updateEffects (s.place fromTarget) fun effects =>
        effects.eraseIdx fromSlot).effects (s.place toTarget) = some effects := by
      rw [effects_updateEffects, if_neg hne, heffects]
    have heq : s.moveDevice fromTarget fromSlot toTarget toSlot =
        ((s.updateEffects (s.place fromTarget) fun effects => effects.eraseIdx fromSlot).updateEffects
          (s.place toTarget) fun effects => effects.insertIdx (min toSlot effects.length) moved) := by
      simp only [moveDevice, htargets, false_and, if_false, hmoved, place_updateEffects, htaken]
    have hplaced : (s.moveDevice fromTarget fromSlot toTarget toSlot).effects (s.place toTarget) =
        some (effects.insertIdx (min toSlot effects.length) moved) := by
      rw [heq, effects_updateEffects, if_pos rfl, htaken, Option.map_some]
    exact inBank_of_effects hplaced ((List.mem_insertIdx (min_le_right _ _)).mpr (Or.inl rfl))
  · intro hreach
    obtain heq | ⟨moved, i, p, hmoved, heq, hwhere⟩ := s.move_cases fromTarget fromSlot toTarget toSlot
    · rw [heq]
      exact h
    · apply hsame.slotsOk h
      intro b hb slot hslot
      rw [heq] at hslot
      obtain hold | ⟨hbank, rfl⟩ := inBank_moved hslot
      · exact Or.inl hold
      · by_cases hfrom : (s.place fromTarget).1 = .fx
        · obtain ⟨rfl, _⟩ | ⟨rfl, hdest⟩ := hwhere
          · exact absurd (hbank.trans hfrom) hb
          · exact Or.inr (hreach slot hmoved hfrom (hbank ▸ hb) hdest)
        · exact Or.inr (h slot ⟨_, hfrom, inBank_of_slotAt hmoved⟩)

/-! ## The end of a thread -/

theorem probeDone_cases (s : ProbeRacks) (i : ℕ) (params : List (PluginParamInfo × ℚ))
    (error : Option String) (hasGui : Bool) :
    s.probeDone i params error hasGui = s ∨ ∃ h : i < s.threads.length,
      s.probeDone i params error hasGui =
        { s with
          threads := s.threads.eraseIdx i
          results := s.results ++ [⟨s.threads[i], params, error, hasGui⟩] } := by
  unfold probeDone
  cases hthread : s.threads[i]? with
  | none => exact Or.inl rfl
  | some id =>
    obtain ⟨hi, rfl⟩ := List.getElem?_eq_some_iff.mp hthread
    exact Or.inr ⟨hi, rfl⟩

theorem inFlight_probeDone (s : ProbeRacks) (i : ℕ) (params : List (PluginParamInfo × ℚ))
    (error : Option String) (hasGui : Bool) :
    (s.probeDone i params error hasGui).inFlight.Perm s.inFlight := by
  obtain heq | ⟨hi, heq⟩ := s.probeDone_cases i params error hasGui
  · rw [heq]
  · rw [heq]
    simp only [inFlight, List.map_append, List.map_cons, List.map_nil]
    rw [← List.append_assoc]
    refine (List.perm_append_singleton _ _).trans ?_
    rw [← List.cons_append]
    exact (List.getElem_cons_eraseIdx_perm hi).append_right _

theorem probeDone_keeps (s : ProbeRacks) (i : ℕ) (params : List (PluginParamInfo × ℚ))
    (error : Option String) (hasGui : Bool) :
    (s.probeDone i params error hasGui).paramProbing = s.paramProbing ∧
      (s.probeDone i params error hasGui).drained = s.drained ∧
      ∀ b, (s.probeDone i params error hasGui).bank b = s.bank b := by
  obtain heq | ⟨_, heq⟩ := s.probeDone_cases i params error hasGui
  · rw [heq]
    exact ⟨rfl, rfl, fun _ => rfl⟩
  · rw [heq]
    refine ⟨rfl, rfl, fun b => ?_⟩
    cases b <;> rfl

theorem Guarded.probeDone {s : ProbeRacks} (hs : s.Guarded) (i : ℕ)
    (params : List (PluginParamInfo × ℚ)) (error : Option String) (hasGui : Bool) :
    (s.probeDone i params error hasGui).Guarded := by
  have hperm := s.inFlight_probeDone i params error hasGui
  refine ⟨hperm.nodup_iff.mpr hs.single, fun id => ?_⟩
  rw [hperm.mem_iff, (s.probeDone_keeps i params error hasGui).1]
  exact hs.probing id

theorem slotsOk_probeDone {s : ProbeRacks} (h : ∀ slot, s.Shown slot → s.SlotOk slot) (i : ℕ)
    (params : List (PluginParamInfo × ℚ)) (error : Option String) (hasGui : Bool) :
    ∀ slot, (s.probeDone i params error hasGui).Shown slot →
      (s.probeDone i params error hasGui).SlotOk slot := by
  obtain ⟨hprobing, hdrained, hbank⟩ := s.probeDone_keeps i params error hasGui
  rintro slot ⟨b, hb, hslot⟩
  rw [hbank] at hslot
  apply (h slot ⟨b, hb, hslot⟩).mono
  · rw [hprobing]
  · exact fun id hid => (s.inFlight_probeDone i params error hasGui).mem_iff.mpr hid
  · rw [hdrained]

/-! ## A drain -/

theorem mem_foldl_erase (results : List ParamProbeResult) (ids : Finset String) (id : String) :
    id ∈ results.foldl (fun ids result => ids.erase result.descriptorId) ids ↔
      id ∈ ids ∧ id ∉ results.map ParamProbeResult.descriptorId := by
  induction results generalizing ids with
  | nil => simp
  | cons result results ih =>
    rw [List.foldl_cons, ih, Finset.mem_erase, List.map_cons, List.mem_cons]
    tauto

theorem bank_drain (s : ProbeRacks) (b : Bank) :
    s.drainParamProbes.bank b =
      if b = s.mode.bank then
        s.tracks.map (List.map fun slot => s.results.foldl ProbeSlot.receive slot)
      else s.bank b := by
  rw [← bank_setBank]
  cases b <;> rfl

theorem inFlight_drain (s : ProbeRacks) : s.drainParamProbes.inFlight = s.threads := by
  have hsame := s.sameProbes_setBank
    (s.tracks.map (List.map fun slot => s.results.foldl ProbeSlot.receive slot)) s.mode.bank
  rw [inFlight]
  simp only [drainParamProbes, List.map_nil, List.append_nil]
  exact hsame.threads

/-- A thread's probe has no result yet. -/
theorem Guarded.disjoint {s : ProbeRacks} (hs : s.Guarded) {id : String} (h : id ∈ s.threads) :
    id ∉ s.results.map ParamProbeResult.descriptorId :=
  fun hresult => (List.nodup_append.mp hs.single).2.2 id h id hresult rfl

theorem Guarded.drain {s : ProbeRacks} (hs : s.Guarded) : s.drainParamProbes.Guarded := by
  constructor
  · rw [inFlight_drain]
    exact (List.nodup_append.mp hs.single).1
  · intro id
    rw [inFlight_drain, drainParamProbes, mem_foldl_erase, hs.probing, inFlight, List.mem_append]
    constructor
    · rintro ⟨hmem, hnot⟩
      exact hmem.resolve_right hnot
    · intro h
      exact ⟨Or.inl h, hs.disjoint h⟩

theorem mem_hiddenBank (mode : AppMode) {b : Bank} (hb : b ≠ .fx) :
    b = mode.bank ∨ b = hiddenBank mode := by
  cases mode with
  | openLive => cases b with
    | live => exact Or.inl rfl
    | studio => exact Or.inr rfl
    | fx => exact absurd rfl hb
  | openStudio => cases b with
    | live => exact Or.inr rfl
    | studio => exact Or.inl rfl
    | fx => exact absurd rfl hb

theorem hiddenBank_ne (mode : AppMode) : hiddenBank mode ≠ mode.bank ∧ hiddenBank mode ≠ .fx := by
  cases mode <;> exact ⟨by decide, by decide⟩

/-- A slot after a drain, as long as the results for it have been received. -/
theorem slotOk_drain {s : ProbeRacks} {slot after : ProbeSlot} (hslot : s.SlotOk slot)
    (hreceived : ∀ result ∈ s.results, slot.external = some result.descriptorId →
      after.paramsStatus.Settled)
    (hother : (∀ result ∈ s.results, slot.external ≠ some result.descriptorId) → after = slot) :
    s.drainParamProbes.SlotOk after := by
  by_cases hresult : ∃ result ∈ s.results, slot.external = some result.descriptorId
  · obtain ⟨result, hmem, hid⟩ := hresult
    have hsettled := hreceived result hmem hid
    refine ⟨fun hprobing => ?_, fun _ _ _ _ => hsettled⟩
    rw [hprobing] at hsettled
    exact hsettled.elim
  · push Not at hresult
    rw [hother hresult]
    have hnot : ∀ id, slot.external = some id →
        id ∉ s.results.map ParamProbeResult.descriptorId := by
      intro id hid hmem
      obtain ⟨result, hresult', rfl⟩ := List.mem_map.mp hmem
      exact hresult result hresult' hid
    refine ⟨fun hprobing => ?_, fun id hid hdrained hflight => ?_⟩
    · obtain ⟨id, hid, hset, hflight⟩ := hslot.probing hprobing
      have hthread : id ∈ s.threads := (List.mem_append.mp hflight).resolve_right (hnot id hid)
      refine ⟨id, hid, ?_, ?_⟩
      · rw [drainParamProbes, mem_foldl_erase]
        exact ⟨hset, hnot id hid⟩
      · rw [inFlight_drain]
        exact hthread
    · rw [inFlight_drain] at hflight
      have hdrained' : id ∈ s.drained := by
        rw [drainParamProbes, Finset.mem_union, List.mem_toFinset] at hdrained
        exact hdrained.resolve_right (hnot id hid)
      refine hslot.drained id hid hdrained' fun hin => ?_
      exact (List.mem_append.mp hin).elim hflight (hnot id hid)

theorem slotsOk_drain_iff {s : ProbeRacks} (hs : s.Guarded)
    (h : ∀ slot, s.Shown slot → s.SlotOk slot) :
    (∀ slot, s.drainParamProbes.Shown slot → s.drainParamProbes.SlotOk slot) ↔
      s.Reaches .drainParamProbes := by
  obtain ⟨hhidden, hfx⟩ := hiddenBank_ne s.mode
  constructor
  · intro hafter track htrack slot hslot result hresult hid
    have hshown : s.drainParamProbes.Shown slot := by
      refine ⟨hiddenBank s.mode, hfx, track, ?_, hslot⟩
      rw [bank_drain, if_neg hhidden]
      exact htrack
    have hmem := List.mem_map_of_mem (f := ParamProbeResult.descriptorId) hresult
    refine (hafter slot hshown).drained _ hid ?_ ?_
    · rw [drainParamProbes, Finset.mem_union, List.mem_toFinset]
      exact Or.inr hmem
    · rw [inFlight_drain]
      exact fun hthread => hs.disjoint hthread hmem
  · rintro hreach slot ⟨b, hb, track, htrack, hslot⟩
    rw [bank_drain] at htrack
    obtain rfl | rfl := mem_hiddenBank s.mode hb
    · rw [if_pos rfl] at htrack
      obtain ⟨before, hbefore, rfl⟩ := List.mem_map.mp htrack
      obtain ⟨old, hold, rfl⟩ := List.mem_map.mp hslot
      apply slotOk_drain (h old ⟨_, hb, before, hbefore, hold⟩)
      · intro result hresult hid
        exact ProbeSlot.settled_foldl_receive (Or.inl ⟨result, hresult, hid⟩)
      · exact ProbeSlot.foldl_receive_of_ne
    · rw [if_neg hhidden] at htrack
      apply slotOk_drain (h slot ⟨_, hb, track, htrack, hslot⟩)
      · exact hreach track htrack slot hslot
      · exact fun _ => rfl

/-! ## Runs -/

theorem Guarded.step {s : ProbeRacks} (hs : s.Guarded) (act : ProbeAct) : (s.step act).Guarded := by
  cases act with
  | assignExternalPlugin trackIdx slotIdx id =>
    have hsame := s.sameProbes_updateEffects (s.mode.bank, trackIdx) fun effects =>
      effects.modify slotIdx (ProbeSlot.assign id)
    exact (hsame.guarded hs).request id
  | requestExternalParams id => exact hs.request id
  | addSlot trackIdx => exact (s.sameProbes_updateEffects _ _).guarded hs
  | setMode mode => exact ⟨hs.single, hs.probing⟩
  | moveDevice fromTarget fromSlot toTarget toSlot =>
    exact (s.sameProbes_move fromTarget fromSlot toTarget toSlot).guarded hs
  | removeSlotAt trackIdx slotIdx => exact (s.sameProbes_updateEffects _ _).guarded hs
  | probeDone i params error hasGui => exact hs.probeDone i params error hasGui
  | drainParamProbes => exact hs.drain

theorem slotsOk_step_iff {s : ProbeRacks} (hs : s.Guarded)
    (h : ∀ slot, s.Shown slot → s.SlotOk slot) (act : ProbeAct) :
    (∀ slot, (s.step act).Shown slot → (s.step act).SlotOk slot) ↔ s.Reaches act := by
  cases act with
  | assignExternalPlugin trackIdx slotIdx id =>
    exact iff_of_true (slotsOk_assign hs h trackIdx slotIdx id) trivial
  | requestExternalParams id =>
    exact iff_of_true (slotsOk_request hs id fun slot hslot => Or.inl (h slot hslot)) trivial
  | addSlot trackIdx =>
    refine iff_of_true ((s.sameProbes_updateEffects _ _).slotsOk h ?_) trivial
    intro b hb slot hslot
    obtain hold | ⟨rfl, effects, heffects, hmem⟩ := inBank_updateEffects hslot
    · exact Or.inl hold
    · obtain hmem | hmem := List.mem_append.mp hmem
      · exact Or.inl (inBank_of_effects heffects hmem)
      · rw [List.mem_singleton.mp hmem]
        exact Or.inr ⟨fun hprobing => ExternalParamsStatus.noConfusion hprobing,
          fun id hid => absurd hid (by simp [ProbeSlot.empty])⟩
  | setMode mode =>
    have hsame : s.SameProbes { s with mode := mode } := ⟨rfl, rfl, rfl, rfl⟩
    refine iff_of_true (hsame.slotsOk h fun b hb slot hslot => Or.inl ?_) trivial
    cases b <;> exact hslot
  | moveDevice fromTarget fromSlot toTarget toSlot =>
    exact slotsOk_move_iff h fromTarget fromSlot toTarget toSlot
  | removeSlotAt trackIdx slotIdx =>
    refine iff_of_true ((s.sameProbes_updateEffects _ _).slotsOk h ?_) trivial
    intro b hb slot hslot
    obtain hold | ⟨rfl, effects, heffects, hmem⟩ := inBank_updateEffects hslot
    · exact Or.inl hold
    · exact Or.inl (inBank_of_effects heffects (List.mem_of_mem_eraseIdx hmem))
  | probeDone i params error hasGui =>
    exact iff_of_true (slotsOk_probeDone h i params error hasGui) trivial
  | drainParamProbes => exact slotsOk_drain_iff hs h

theorem slotsOk_opened (mode : AppMode) (live studio fx : List (List (Option String))) :
    ∀ slot, (opened mode live studio fx).Shown slot → (opened mode live studio fx).SlotOk slot := by
  have hidle : ∀ (b : Bank), ∀ track ∈ (opened mode live studio fx).bank b, ∀ slot ∈ track,
      slot.paramsStatus = .idle := by
    intro b track htrack slot hslot
    have hmapped : ∀ racks : List (List (Option String)),
        track ∈ racks.map (List.map fun external => { ProbeSlot.empty with external := external }) →
          slot.paramsStatus = .idle := by
      intro racks h
      obtain ⟨rack, _, rfl⟩ := List.mem_map.mp h
      obtain ⟨external, _, rfl⟩ := List.mem_map.mp hslot
      rfl
    cases b with
    | live => exact hmapped live htrack
    | studio => exact hmapped studio htrack
    | fx => exact hmapped fx htrack
  rintro slot ⟨b, _, track, htrack, hslot⟩
  refine ⟨fun hprobing => ?_, fun id _ hdrained => ?_⟩
  · rw [hidle b track htrack slot hslot] at hprobing
    exact ExternalParamsStatus.noConfusion hprobing
  · exact absurd hdrained (Finset.notMem_empty id)

theorem Guarded.probesOk_iff {s : ProbeRacks} (hs : s.Guarded) :
    s.ProbesOk ↔ ∀ slot, s.Shown slot → s.SlotOk slot := by
  constructor
  · intro h
    exact h.slots
  · intro h
    refine ⟨h, fun hended slot hslot hprobing => ?_, hs.single⟩
    obtain ⟨id, _, _, hflight⟩ := (h slot hslot).probing hprobing
    rw [hended] at hflight
    exact List.not_mem_nil hflight

/-- The slots of both modes and the probes agree in every state of a run exactly when every result finds
the slots that wait for it. -/
theorem always_probesOk_iff (mode : AppMode) (live studio fx : List (List (Option String)))
    (acts : List ProbeAct) :
    Always step ProbesOk (opened mode live studio fx) acts ↔
      Along step Reaches (opened mode live studio fx) acts := by
  have hguarded := guarded_opened mode live studio fx
  have hstart : (opened mode live studio fx).ProbesOk :=
    hguarded.probesOk_iff.mpr (slotsOk_opened mode live studio fx)
  refine always_iff_along_within (fun s act hs => hs.step act) (fun s act hs hok => ?_) hguarded hstart
  rw [(hs.step act).probesOk_iff]
  exact slotsOk_step_iff hs (hs.probesOk_iff.mp hok) act

/-- The mode is switched while a probe is in flight. -/
theorem not_always_probesOk_mode_switch :
    ¬Always step ProbesOk (opened .openLive [[none], [none]] [[none], [none]] [])
      [.assignExternalPlugin 1 0 "reverb", .setMode .openStudio, .probeDone 0 [] none true,
        .drainParamProbes] := by
  intro h
  have hslot := h.final.slots ⟨some "reverb", [], .probing, none⟩
    ⟨.live, by decide, [⟨some "reverb", [], .probing, none⟩], by decide +kernel, by decide +kernel⟩
  obtain ⟨id, _, hprobing, _⟩ := hslot.probing rfl
  have hempty : (List.foldl step (opened .openLive [[none], [none]] [[none], [none]] [])
      [.assignExternalPlugin 1 0 "reverb", .setMode .openStudio, .probeDone 0 [] none true,
        .drainParamProbes]).paramProbing = ∅ := by decide +kernel
  rw [hempty] at hprobing
  exact absurd hprobing (Finset.notMem_empty id)

end ProbeRacks

end HikaruOpenLive.Gui
