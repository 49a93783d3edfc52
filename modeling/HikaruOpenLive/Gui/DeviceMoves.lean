import HikaruOpenLive.Foundations.SlotMoves
import HikaruOpenLive.Gui.RackRows

/-! # The selection under a move

A move of a device keeps every device and the order of the others. The selection is a track and a slot
by number. The move takes it along if it has the number of the moved slot, and leaves it alone
otherwise, also where the devices behind the moved one have changed their numbers; and the strips of
the return tracks and of the other mode share numbers with the visible tracks.
-/
set_option autoImplicit false

namespace HikaruOpenLive.Gui.AppState

open Foundations.ListEdits Foundations.SlotMoves

/-- The chain of a strip, empty if there is no such strip. -/
def chain (st : AppState) (p : Bank × ℕ) : List DspSlot :=
  (st.effects p).getD []

/-- The place that the selection names. -/
def selectedSpot (st : AppState) : (Bank × ℕ) × ℕ :=
  ((st.mode.bank, st.safeTrackIndex), st.selectedSlotIndex)

def selectedSlot (st : AppState) : Option DspSlot :=
  (st.trackEffects st.safeTrackIndex).bind fun effects => effects[st.selectedSlotIndex]?

/-- The place a move puts its device at, in the destination without it. -/
def destSlot (st : AppState) (fromTarget : StripTarget) (fromSlot : ℕ) (toTarget : StripTarget)
    (toSlot : ℕ) : ℕ :=
  min toSlot (less st.chain (st.place fromTarget) fromSlot (st.place toTarget)).length

/-- The selection has the number of the moved slot. -/
def PicksUp (st : AppState) (fromTarget : StripTarget) (fromSlot : ℕ) : Prop :=
  st.selectedTrackIndex = mixerIndex fromTarget ∧ st.selectedSlotIndex = fromSlot

instance (st : AppState) (fromTarget : StripTarget) (fromSlot : ℕ) :
    Decidable (st.PicksUp fromTarget fromSlot) :=
  inferInstanceAs (Decidable (_ ∧ _))

/-- The selection after a move. -/
def spotAfter (st : AppState) (fromTarget : StripTarget) (fromSlot : ℕ) (toTarget : StripTarget)
    (toSlot : ℕ) : (Bank × ℕ) × ℕ :=
  if st.PicksUp fromTarget fromSlot then
    ((st.mode.bank, min (mixerIndex toTarget) (st.tracks.length - 1)),
      st.destSlot fromTarget fromSlot toTarget toSlot)
  else st.selectedSpot

section

variable {st : AppState}

theorem chain_updateEffects {p : Bank × ℕ} (hp : (st.effects p).isSome = true)
    (f : List DspSlot → List DspSlot) (q : Bank × ℕ) :
    (st.updateEffects p f).chain q = if q = p then f (st.chain q) else st.chain q := by
  unfold chain
  rw [effects_updateEffects]
  by_cases hq : q = p
  · obtain ⟨effects, heffects⟩ := Option.isSome_iff_exists.mp hp
    rw [if_pos hq, if_pos hq, hq, heffects]
    rfl
  · rw [if_neg hq, if_neg hq]

theorem isSome_effects {p : Bank × ℕ} {i : ℕ} {slot : DspSlot} (h : (st.chain p)[i]? = some slot) :
    (st.effects p).isSome = true := by
  unfold chain at h
  cases heffects : st.effects p with
  | none => simp [heffects] at h
  | some effects => rfl

theorem length_tracks_updateEffects (p : Bank × ℕ) (f : List DspSlot → List DspSlot) :
    (st.updateEffects p f).tracks.length = st.tracks.length := by
  unfold tracks
  rw [mode_updateEffects]
  unfold updateEffects
  rw [bank_setBank]
  split
  case isTrue h => rw [List.length_modify, h]
  case isFalse => rfl

theorem selection_setBank (st : AppState) (tracks : List Track) (b : Bank) :
    (st.setBank tracks b).selectedTrackIndex = st.selectedTrackIndex ∧
      (st.setBank tracks b).selectedSlotIndex = st.selectedSlotIndex := by
  cases b <;> exact ⟨rfl, rfl⟩

theorem selectedSpot_updateEffects (p : Bank × ℕ) (f : List DspSlot → List DspSlot) :
    (st.updateEffects p f).selectedSpot = st.selectedSpot := by
  obtain ⟨htrack, hslot⟩ : (st.updateEffects p f).selectedTrackIndex = st.selectedTrackIndex ∧
      (st.updateEffects p f).selectedSlotIndex = st.selectedSlotIndex := selection_setBank _ _ _
  unfold selectedSpot safeTrackIndex
  rw [mode_updateEffects, length_tracks_updateEffects, htrack, hslot]

theorem selectedSpot_select (st : AppState) (track slot : ℕ) :
    ({ st with selectedTrackIndex := track, selectedSlotIndex := slot } : AppState).selectedSpot =
      ((st.mode.bank, min track (st.tracks.length - 1)), slot) :=
  rfl

end

/-! ## What a move does -/

section

variable {st : AppState} {fromTarget toTarget : StripTarget} {fromSlot : ℕ} {slot : DspSlot}

/-- The destination without the moved device. -/
theorem effects_taken (hslot : (st.chain (st.place fromTarget))[fromSlot]? = some slot)
    (hdest : (st.effects (st.place toTarget)).isSome = true) :
    (st.updateEffects (st.place fromTarget) fun effects => effects.eraseIdx fromSlot).effects
      (st.place toTarget) = some (less st.chain (st.place fromTarget) fromSlot (st.place toTarget)) := by
  have htaken := chain_updateEffects (isSome_effects hslot)
    (fun effects => effects.eraseIdx fromSlot) (st.place toTarget)
  obtain ⟨effects, heffects⟩ := Option.isSome_iff_exists.mp hdest
  unfold chain at htaken
  rw [effects_updateEffects, heffects] at htaken ⊢
  unfold less chain
  rw [heffects]
  split
  · rfl
  · rfl

theorem chain_relocated (hslot : (st.chain (st.place fromTarget))[fromSlot]? = some slot)
    (hdest : (st.effects (st.place toTarget)).isSome = true) (dest : ℕ) :
    (st.relocated fromTarget fromSlot toTarget dest slot).chain =
      moved st.chain (st.place fromTarget) fromSlot (st.place toTarget) dest slot := by
  have htaken := chain_updateEffects (isSome_effects hslot) fun effects => effects.eraseIdx fromSlot
  have hthere := Option.isSome_of_eq_some (effects_taken hslot hdest)
  funext q
  rw [relocated, chain_updateEffects hthere, htaken]
  rfl

/-- A move that is left out as idle would put the device where it is. -/
theorem destSlot_of_idle (hslot : (st.chain (st.place fromTarget))[fromSlot]? = some slot)
    (hfits : (st.chain (st.place fromTarget)).length ≤ usizeMax) {toSlot : ℕ}
    (hidle : fromSlot = toSlot ∨
      toSlot = usizeMax ∧ ((st.targetEffects fromTarget).getD []).length ≤ fromSlot + 1) :
    st.destSlot fromTarget fromSlot fromTarget toSlot = fromSlot := by
  have hlt := lt_of_getElem? hslot
  unfold destSlot
  rw [less_self, List.length_eraseIdx_of_lt hlt]
  obtain rfl | ⟨rfl, hlast⟩ := hidle
  · omega
  · have hlen : (st.chain (st.place fromTarget)).length ≤ fromSlot + 1 := hlast
    omega

theorem moved_idle (hslot : (st.chain (st.place fromTarget))[fromSlot]? = some slot) :
    moved st.chain (st.place fromTarget) fromSlot (st.place fromTarget) fromSlot slot = st.chain := by
  have hlt := lt_of_getElem? hslot
  have hsame := (List.getElem_of_getElem? hslot).2
  funext q
  by_cases hq : q = st.place fromTarget
  · rw [hq, moved_self, less_self, insertIdx_eraseIdx_self hlt, ← hsame, List.set_getElem_self]
  · rw [moved_of_ne hq, less_of_ne hq]

/-- A device and a strip to put it into: the move is made, and an idle one is made as well. -/
theorem moveDevice_eq (hslot : (st.chain (st.place fromTarget))[fromSlot]? = some slot)
    (hdest : (st.effects (st.place toTarget)).isSome = true)
    (hfits : (st.chain (st.place fromTarget)).length ≤ usizeMax) (toSlot : ℕ) :
    (st.moveDevice fromTarget fromSlot toTarget toSlot).1.chain =
        moved st.chain (st.place fromTarget) fromSlot (st.place toTarget)
          (st.destSlot fromTarget fromSlot toTarget toSlot) slot ∧
      (st.moveDevice fromTarget fromSlot toTarget toSlot).1.selectedSpot =
        st.spotAfter fromTarget fromSlot toTarget toSlot := by
  by_cases hstay : fromTarget = toTarget ∧ (fromSlot = toSlot ∨
      toSlot = usizeMax ∧ ((st.targetEffects fromTarget).getD []).length ≤ fromSlot + 1)
  · have hm : st.moveDevice fromTarget fromSlot toTarget toSlot = (st, []) := if_pos hstay
    obtain ⟨rfl, hidle⟩ := hstay
    have hself := destSlot_of_idle hslot hfits hidle
    rw [hm, hself, moved_idle hslot]
    refine ⟨rfl, ?_⟩
    unfold spotAfter
    split
    case isTrue hpick => rw [hself, selectedSpot, safeTrackIndex, hpick.1, hpick.2]
    case isFalse => rfl
  · have hsource : ((st.targetEffects fromTarget).bind fun effects => effects[fromSlot]?) = some slot := by
      obtain ⟨effects, heffects⟩ := Option.isSome_iff_exists.mp (isSome_effects hslot)
      rw [chain, heffects] at hslot
      rw [targetEffects, heffects]
      exact hslot
    have hrest : (st.updateEffects (st.place fromTarget) fun effects =>
        effects.eraseIdx fromSlot).targetEffects toTarget =
          some (less st.chain (st.place fromTarget) fromSlot (st.place toTarget)) := by
      rw [targetEffects, place_updateEffects]
      exact effects_taken hslot hdest
    have hm : (st.moveDevice fromTarget fromSlot toTarget toSlot).1 =
        if st.PicksUp fromTarget fromSlot then
          { st.relocated fromTarget fromSlot toTarget
              (st.destSlot fromTarget fromSlot toTarget toSlot) slot with
            selectedTrackIndex := mixerIndex toTarget
            selectedSlotIndex := st.destSlot fromTarget fromSlot toTarget toSlot }
        else st.relocated fromTarget fromSlot toTarget
          (st.destSlot fromTarget fromSlot toTarget toSlot) slot := by
      simp only [moveDevice, if_neg hstay, hsource, hrest]
      rfl
    have hchain := chain_relocated hslot hdest (st.destSlot fromTarget fromSlot toTarget toSlot)
    rw [hm]
    unfold spotAfter
    split
    · refine ⟨hchain, (selectedSpot_select _ _ _).trans ?_⟩
      rw [mode_relocated, relocated, length_tracks_updateEffects, length_tracks_updateEffects]
    · refine ⟨hchain, ?_⟩
      rw [relocated, selectedSpot_updateEffects, selectedSpot_updateEffects]

end

/-! ## The selection -/

/-- Every device over the two racks is still there and in its order, the moved one is where it was to
go, every device is where the move carries it, and so is the selected one. -/
structure MoveKeeps (st st' : AppState) (p : Bank × ℕ) (i : ℕ) (q : Bank × ℕ) (j : ℕ)
    (slot : DspSlot) : Prop where
  conserved : if q = p then (st'.chain p).Perm (st.chain p)
    else (st'.chain p ++ st'.chain q).Perm (st.chain p ++ st.chain q)
  others : ∀ r, (if r = q then (st'.chain r).eraseIdx j else st'.chain r) = less st.chain p i r
  placed : (st'.chain q)[j]? = some slot
  devices : ∀ spot, spot.2 < (st.chain spot.1).length →
    (st'.chain (carried p i q j spot).1)[(carried p i q j spot).2]? = (st.chain spot.1)[spot.2]?
  selected : st.selectedSlot.isSome = true → st'.selectedSpot = carried p i q j st.selectedSpot

/-- The selection has the number of the device it should have: the moved device was selected and goes
to a visible strip; or another one was selected, with other numbers than the moved one, and as many
slots go from before it as come before it. -/
def SelectionFollows (st : AppState) (fromTarget : StripTarget) (i : ℕ) (toTarget : StripTarget)
    (j : ℕ) : Prop :=
  let p := st.place fromTarget
  let q := st.place toTarget
  let v := (st.mode.bank, st.safeTrackIndex)
  let k := st.selectedSlotIndex
  if v = p ∧ k = i then
    st.selectedTrackIndex = mixerIndex fromTarget ∧ q.1 = st.mode.bank ∨ q = p ∧ j = i
  else if st.PicksUp fromTarget i then
    -- The numbers are those of a strip that is not visible.
    v ≠ q ∧ j = k ∧ min (mixerIndex toTarget) (st.tracks.length - 1) = st.safeTrackIndex
  else (v = p ∧ i < k ↔ v = q ∧ j ≤ if v = p ∧ i < k then k - 1 else k)

section

variable {st : AppState} {fromTarget toTarget : StripTarget}

/-- A visible strip has the number it is selected by. -/
theorem mixerIndex_of_visible (h : (st.place toTarget).1 = st.mode.bank) :
    mixerIndex toTarget = (st.place toTarget).2 := by
  cases toTarget with
  | master => rfl
  | live idx => rfl
  | studio idx => rfl
  | fx idx =>
    have hbank : Bank.fx = st.mode.bank := h
    cases hmode : st.mode with
    | openLive => exact absurd hbank (by rw [hmode]; decide)
    | openStudio => exact absurd hbank (by rw [hmode]; decide)

theorem lt_length_tracks (h : (st.place toTarget).1 = st.mode.bank)
    (hdest : (st.effects (st.place toTarget)).isSome = true) :
    (st.place toTarget).2 < st.tracks.length := by
  unfold effects at hdest
  rw [Option.isSome_map, h] at hdest
  exact lt_of_getElem? (Option.eq_some_of_isSome hdest)

/-- A visible strip that is there is selected by its number. -/
theorem visible_eq (h : (st.place toTarget).1 = st.mode.bank)
    (hdest : (st.effects (st.place toTarget)).isSome = true) :
    (st.mode.bank, min (mixerIndex toTarget) (st.tracks.length - 1)) = st.place toTarget := by
  have hlt := lt_length_tracks h hdest
  rw [mixerIndex_of_visible h, ← h, min_eq_left (by omega)]

/-- The moved device is selected. -/
theorem spotAfter_moved_iff (hdest : (st.effects (st.place toTarget)).isSome = true) {i toSlot : ℕ}
    (hmoved : st.selectedSpot = (st.place fromTarget, i)) :
    st.spotAfter fromTarget i toTarget toSlot =
        (st.place toTarget, st.destSlot fromTarget i toTarget toSlot) ↔
      st.selectedTrackIndex = mixerIndex fromTarget ∧ (st.place toTarget).1 = st.mode.bank ∨
        st.place toTarget = st.place fromTarget ∧ st.destSlot fromTarget i toTarget toSlot = i := by
  obtain ⟨hv, hk⟩ := Prod.mk.inj hmoved
  unfold spotAfter
  by_cases hpick : st.PicksUp fromTarget i
  · rw [if_pos hpick]
    constructor
    · intro h
      exact Or.inl ⟨hpick.1, (congrArg (fun spot => spot.1.1) h).symm⟩
    · rintro (⟨_, hvisible⟩ | ⟨hsame, _⟩)
      · rw [visible_eq hvisible hdest]
      · have hvisible : (st.place toTarget).1 = st.mode.bank := by rw [hsame, ← hv]
        rw [visible_eq hvisible hdest]
  · rw [if_neg hpick, hmoved]
    constructor
    · intro h
      obtain ⟨hplace, hslot⟩ := Prod.mk.inj h
      exact Or.inr ⟨hplace.symm, hslot.symm⟩
    · rintro (⟨htrack, _⟩ | ⟨hsame, hslot⟩)
      · exact absurd ⟨htrack, hk⟩ hpick
      · rw [hsame, hslot]

/-- When the selection after a move is the place the selected device is carried to. -/
theorem spotAfter_eq_iff (hdest : (st.effects (st.place toTarget)).isSome = true) (i toSlot : ℕ) :
    st.spotAfter fromTarget i toTarget toSlot =
        carried (st.place fromTarget) i (st.place toTarget)
          (st.destSlot fromTarget i toTarget toSlot) st.selectedSpot ↔
      st.SelectionFollows fromTarget i toTarget (st.destSlot fromTarget i toTarget toSlot) := by
  unfold SelectionFollows
  by_cases hmoved : st.selectedSpot = (st.place fromTarget, i)
  · obtain ⟨hv, hk⟩ := Prod.mk.inj hmoved
    rw [carried, if_pos hmoved, spotAfter_moved_iff hdest hmoved]
    simp only [if_pos (And.intro hv hk)]
  · have hother : ¬ ((st.mode.bank, st.safeTrackIndex) = st.place fromTarget ∧
        st.selectedSlotIndex = i) := fun h => hmoved (Prod.ext h.1 h.2)
    simp only [if_neg hother]
    unfold spotAfter
    by_cases hpick : st.PicksUp fromTarget i
    · -- The number is that of the moved slot, so the selected strip is another one.
      have hv : (st.mode.bank, st.safeTrackIndex) ≠ st.place fromTarget :=
        fun h => hother ⟨h, hpick.2⟩
      rw [if_pos hpick, if_pos hpick, ← and_assoc, ← carried_slot_iff (i := i) hv, Prod.ext_iff]
      simp only
      rw [selectedSpot, carried_fst hmoved, Prod.mk.injEq]
      exact ⟨fun h => ⟨h.2.symm, h.1.2⟩, fun h => ⟨⟨rfl, h.2⟩, h.1.symm⟩⟩
    · rw [if_neg hpick, if_neg hpick, eq_comm]
      exact carried_eq_self_iff hmoved

/-- A move keeps the devices; the selection it keeps where it follows. -/
theorem moveDevice_keeps_iff {fromSlot : ℕ} {slot : DspSlot}
    (hslot : (st.chain (st.place fromTarget))[fromSlot]? = some slot)
    (hdest : (st.effects (st.place toTarget)).isSome = true)
    (hfits : (st.chain (st.place fromTarget)).length ≤ usizeMax) (toSlot : ℕ) :
    MoveKeeps st (st.moveDevice fromTarget fromSlot toTarget toSlot).1 (st.place fromTarget) fromSlot
        (st.place toTarget) (st.destSlot fromTarget fromSlot toTarget toSlot) slot ↔
      (st.selectedSlot.isSome = true → st.SelectionFollows fromTarget fromSlot toTarget
        (st.destSlot fromTarget fromSlot toTarget toSlot)) := by
  obtain ⟨hchain, hspot⟩ := moveDevice_eq hslot hdest hfits toSlot
  have hj : st.destSlot fromTarget fromSlot toTarget toSlot ≤
      (less st.chain (st.place fromTarget) fromSlot (st.place toTarget)).length := min_le_right _ _
  rw [← spotAfter_eq_iff hdest, ← hspot]
  constructor
  · exact fun h => h.selected
  · intro hselected
    refine ⟨?_, ?_, ?_, ?_, hselected⟩
    · rw [hchain]
      split
      case isTrue hsame =>
        rw [hsame] at hj ⊢
        exact perm_moved_same hslot hj
      case isFalse hne => exact perm_moved hne hslot hj
    · intro r
      rw [hchain]
      split
      case isTrue hr =>
        rw [hr]
        exact eraseIdx_moved _
      case isFalse hr => exact moved_of_ne hr
    · rw [hchain]
      exact getElem?_moved_dest hj
    · intro spot hspot
      rw [hchain]
      exact getElem?_moved hslot hj hspot

end

/-- A track with two devices behind the master, and another one with one. -/
def twoChains : AppState :=
  { mode := .openLive
    liveTracks := [⟨[]⟩, ⟨[DspSlot.new "Delay", DspSlot.new "Reverb"]⟩, ⟨[DspSlot.new "Filter"]⟩]
    studioTracks := [], fxTracks := [], selectedTrackIndex := 1, selectedSlotIndex := 0 }

theorem moveDevice_keeps_iff_append :
    MoveKeeps twoChains (twoChains.moveDevice (.live 0) 0 (.live 1) usizeMax).1 (.live, 1) 0 (.live, 2)
        (twoChains.destSlot (.live 0) 0 (.live 1) usizeMax) (DspSlot.new "Delay") ↔
      (twoChains.selectedSlot.isSome = true → twoChains.SelectionFollows (.live 0) 0 (.live 1)
        (twoChains.destSlot (.live 0) 0 (.live 1) usizeMax)) :=
  moveDevice_keeps_iff rfl rfl (by decide) usizeMax

/-- The reverb is selected and the delay before it goes to the end: the delay is selected then. -/
theorem move_before_selection :
    let st := { twoChains with selectedSlotIndex := 1 }
    st.selectedSlot = some (DspSlot.new "Reverb") ∧
      (st.moveDevice (.live 0) 0 (.live 0) usizeMax).1.selectedSlot = some (DspSlot.new "Delay") ∧
      ¬ MoveKeeps st (st.moveDevice (.live 0) 0 (.live 0) usizeMax).1 (.live, 1) 0 (.live, 1) 1
        (DspSlot.new "Delay") := by
  intro st
  have hbefore : st.selectedSlot = some (DspSlot.new "Reverb") := by decide
  refine ⟨hbefore, by decide, fun h => ?_⟩
  have hspot := h.selected (Option.isSome_of_eq_some hbefore)
  exact absurd hspot (by decide)

end HikaruOpenLive.Gui.AppState
