import HikaruOpenLive.Foundations.Runs
import HikaruOpenLive.Engine.PluginChains

/-! # The tap registry follows the chains

The key of a tap is its track and its position in the chain. A move registers both chains again; a
load registers the slot it was asked for, which is the plugin's position only up to the end of the
chain; a removal takes out one key and leaves the plugins after it under the positions they had.
`keyed_step_iff` says exactly which steps keep every key right.
-/
set_option autoImplicit false

namespace HikaruOpenLive.Engine.PluginChains

open Foundations.Runs Foundations.Registry Foundations.ListEdits

variable {ι τ : Type}

/-- The registry leads from every track and chain index to the tap of the plugin there, and from no
other key to anything. -/
def Keyed (st : PluginChains ι τ) : Prop :=
  ∀ t i, st.editorTap t i = (st.chain t)[i]?.map DspPluginNode.tap

/-- What the engine is told to do with its chains; a load comes with what instantiating gave. -/
inductive Op (ι τ : Type) where
  | load (track slot : ℕ) (loaded : Except String ι) (tap : τ)
  | remove (track slot : ℕ)
  | move (fromTrack fromSlot toTrack toSlot : ℕ)

def step (st : PluginChains ι τ) : Op ι τ → PluginChains ι τ
  | .load track slot loaded tap => (st.loadInstance track slot loaded tap).2
  | .remove track slot => st.removeExternalPlugin track slot
  | .move fromTrack fromSlot toTrack toSlot =>
    (st.moveExternalPlugin fromTrack fromSlot toTrack toSlot).2

/-- A plugin is loaded into the chain or just behind it, and only the last of a chain is taken out
without a new one in its place. -/
def KeepsKeys (st : PluginChains ι τ) : Op ι τ → Prop
  | .load track slot (.ok _) _ => track < 16 → slot ≤ (st.chain track).length
  | .load track slot (.error _) _ => track < 16 → (st.chain track).length ≤ slot + 1
  | .remove track slot => (st.chain track).length ≤ slot + 1
  | .move .. => True

theorem keyed_empty : (empty : PluginChains ι τ).Keyed := by
  intro t i
  rw [chain_empty]
  rfl

/-! ## Emptying a slot -/

theorem keyed_clearSlot_iff {st : PluginChains ι τ} (h : st.Keyed) (track slot : ℕ) :
    (st.clearSlot track slot).Keyed ↔ (st.chain track).length ≤ slot + 1 := by
  constructor
  · intro hk
    by_contra hlong
    -- The last plugin has moved up by one, and its old key still leads to it.
    have hlast := hk track ((st.chain track).length - 1)
    have hne : ¬ (track, (st.chain track).length - 1) = (track, slot) := by
      intro he
      have := congrArg Prod.snd he
      simp only at this
      omega
    rw [editorTap_clearSlot, if_neg hne, h, chain_clearSlot, if_pos rfl,
      List.getElem?_eraseIdx_of_ge (by omega),
      List.getElem?_eq_none (show _ ≤ (st.chain track).length - 1 + 1 by omega),
      List.getElem?_eq_getElem (show (st.chain track).length - 1 < _ by omega)] at hlast
    exact absurd hlast (by simp)
  · intro hle t i
    rw [editorTap_clearSlot, chain_clearSlot, h]
    by_cases ht : t = track
    · subst ht
      rw [if_pos rfl]
      by_cases hi : i = slot
      · rw [if_pos (by rw [hi]), List.getElem?_eraseIdx_of_ge (by omega),
          List.getElem?_eq_none (by omega)]
        rfl
      · have hne : ¬ (t, i) = (t, slot) := fun he => hi (congrArg Prod.snd he)
        rw [if_neg hne]
        by_cases hlt : i < slot
        · rw [List.getElem?_eraseIdx_of_lt hlt]
        · rw [List.getElem?_eraseIdx_of_ge (by omega), List.getElem?_eq_none (by omega),
            List.getElem?_eq_none (by omega)]
    · have hne : ¬ (t, i) = (track, slot) := fun he => ht (congrArg Prod.fst he)
      rw [if_neg ht, if_neg hne]

/-! ## Loading -/

theorem keyed_load_iff {st : PluginChains ι τ} (h : st.Keyed) {track : ℕ} (ht : track < 16)
    (slot : ℕ) (plugin : ι) (tap : τ) :
    (st.loadInstance track slot (.ok plugin) tap).2.Keyed ↔ slot ≤ (st.chain track).length := by
  constructor
  · intro hk
    by_contra hpast
    -- The plugin went to the end of the chain, its tap under the slot past it.
    have hslot := hk track slot
    rw [editorTap_load _ ht, if_pos rfl, chain_load _ ht, if_pos rfl, putAt, if_neg (by omega),
      List.getElem?_eq_none (by simp; omega)] at hslot
    exact absurd hslot (by simp)
  · intro hle t i
    rw [editorTap_load _ ht, chain_load _ ht, h]
    by_cases htt : t = track
    · subst htt
      rw [if_pos rfl, putAt_getElem? _ hle]
      by_cases hi : i = slot
      · rw [if_pos (by rw [hi]), if_pos hi]
        rfl
      · have hne : ¬ (t, i) = (t, slot) := fun he => hi (congrArg Prod.snd he)
        rw [if_neg hne, if_neg hi]
    · have hne : ¬ (t, i) = (track, slot) := fun he => htt (congrArg Prod.fst he)
      rw [if_neg htt, if_neg hne]

/-! ## Moving -/

theorem editorTap_reregister {st : PluginChains ι τ} {track : ℕ}
    (hpast : ∀ i, (st.chain track).length ≤ i → st.editorTap track i = none) (t i : ℕ) :
    (st.reregister track).editorTap t i =
      if t = track then (st.chain track)[i]?.map DspPluginNode.tap else st.editorTap t i := by
  unfold editorTap reregister
  rw [taps_withTaps]
  by_cases ht : t = track
  · subst ht
    rw [if_pos rfl, lookup_registerAll (fun i j h => congrArg Prod.snd h) i]
    by_cases hi : i < (st.chain t).length
    · rw [if_pos (by simpa using hi), Nat.sub_zero, List.getElem?_map]
    · have hnone : lookup st.taps (t, i) = none := hpast i (by omega)
      rw [if_neg (by simpa using hi), hnone, List.getElem?_eq_none (by omega)]
      rfl
  · rw [if_neg ht]
    exact lookup_registerAll_other _ (fun j he => ht (congrArg Prod.fst he)) _ _ _

/-- Registering a chain again repairs its own keys, provided none lies past its end. -/
theorem keyed_reregister {st : PluginChains ι τ} {track : ℕ}
    (hpast : ∀ i, (st.chain track).length ≤ i → st.editorTap track i = none)
    (hother : ∀ t, t ≠ track → ∀ i, st.editorTap t i = (st.chain t)[i]?.map DspPluginNode.tap) :
    (st.reregister track).Keyed := by
  intro t i
  rw [editorTap_reregister hpast, chain_reregister]
  by_cases ht : t = track
  · rw [if_pos ht, ht]
  · rw [if_neg ht]
    exact hother t ht i

/-- A node taken out of a chain, which is then registered again. -/
theorem keyed_takeOut {st : PluginChains ι τ} (h : st.Keyed) {f fs : ℕ} (hfs : fs < (st.chain f).length) :
    (((st.clearSlot f fs).withTaps (unregister (unregister st.taps (f, fs))
      (f, ((st.chain f).eraseIdx fs).length))).reregister f).Keyed := by
  have hlen : ((st.chain f).eraseIdx fs).length = (st.chain f).length - 1 := List.length_eraseIdx_of_lt hfs
  set taken := (st.clearSlot f fs).withTaps
    (unregister (unregister st.taps (f, fs)) (f, ((st.chain f).eraseIdx fs).length)) with htaken
  have hchain : ∀ k, taken.chain k = if k = f then (st.chain f).eraseIdx fs else st.chain k :=
    fun k => st.chain_clearSlot f fs k
  have htap : ∀ k i, taken.editorTap k i =
      if (k, i) = (f, ((st.chain f).eraseIdx fs).length) then none
      else if (k, i) = (f, fs) then none else st.editorTap k i := by
    intro k i
    unfold editorTap
    rw [htaken, taps_withTaps, lookup_unregister, lookup_unregister]
  have hpast : ∀ i, (taken.chain f).length ≤ i → taken.editorTap f i = none := by
    intro i hi
    rw [hchain, if_pos rfl] at hi
    rw [htap, h]
    split
    case isTrue => rfl
    case isFalse hne =>
      split
      case isTrue => rfl
      case isFalse =>
        have hi' : i ≠ ((st.chain f).eraseIdx fs).length := fun he => hne (by rw [he])
        rw [List.getElem?_eq_none (by omega)]
        rfl
  apply keyed_reregister hpast
  intro k hk i
  rw [hchain, if_neg hk, htap, if_neg (fun he => hk (congrArg Prod.fst he)),
    if_neg (fun he => hk (congrArg Prod.fst he)), h]

/-- A node put into a chain, which is then registered again. -/
theorem keyed_putIn {st : PluginChains ι τ} (h : st.Keyed) {t : ℕ} (ht : t < 16) (ts : ℕ)
    (node : DspPluginNode ι τ) :
    ((st.setChain t ((st.chain t).insertIdx (min ts (st.chain t).length) node)).reregister t).Keyed := by
  set inserted := st.setChain t ((st.chain t).insertIdx (min ts (st.chain t).length) node)
  have hchain : ∀ k, inserted.chain k =
      if k = t then (st.chain t).insertIdx (min ts (st.chain t).length) node else st.chain k :=
    fun k => st.chain_setChain ht _ k
  have hpast : ∀ i, (inserted.chain t).length ≤ i → inserted.editorTap t i = none := by
    intro i hi
    rw [hchain, if_pos rfl, List.length_insertIdx_of_le_length (Nat.min_le_right _ _)] at hi
    have hs := h t i
    rw [List.getElem?_eq_none (by omega)] at hs
    exact hs
  apply keyed_reregister hpast
  intro k hk i
  rw [hchain, if_neg hk]
  exact h k i

theorem keyed_move {st : PluginChains ι τ} (h : st.Keyed) (f fs t ts : ℕ) :
    (st.moveExternalPlugin f fs t ts).2.Keyed := by
  by_cases hlt : 16 ≤ f ∨ 16 ≤ t
  · rw [st.moveExternalPlugin_refused ts (by tauto)]
    exact h
  · cases hnode : (st.chain f)[fs]? with
    | none =>
      rw [st.moveExternalPlugin_refused ts (Or.inr (Or.inr hnode))]
      exact h
    | some node =>
      have ht : t < 16 := by omega
      have hsource := keyed_takeOut h (lt_of_getElem? hnode)
      unfold moveExternalPlugin
      rw [if_neg hlt]
      simp only [hnode]
      exact keyed_putIn hsource ht ts node

/-! ## Runs -/

/-- One step leaves every key right precisely when it loads into the chain or just behind it, or
takes out the last plugin. -/
theorem keyed_step_iff (st : PluginChains ι τ) (op : Op ι τ) (h : st.Keyed) :
    (st.step op).Keyed ↔ st.KeepsKeys op := by
  cases op with
  | load track slot loaded tap =>
    by_cases ht : track < 16
    · cases loaded with
      | ok plugin =>
        rw [show (st.step (.load track slot (.ok plugin) tap)).Keyed ↔ _ from
          keyed_load_iff h ht slot plugin tap]
        exact ⟨fun hle _ => hle, fun hle => hle ht⟩
      | error e =>
        simp only [step, st.loadInstance_failed ht]
        rw [keyed_clearSlot_iff h]
        exact ⟨fun hle _ => hle, fun hle => hle ht⟩
    · simp only [step, st.loadInstance_of_le (show 16 ≤ track by omega)]
      cases loaded with
      | ok plugin => exact ⟨fun _ hlt => absurd hlt ht, fun _ => h⟩
      | error e => exact ⟨fun _ hlt => absurd hlt ht, fun _ => h⟩
  | remove track slot => exact keyed_clearSlot_iff h track slot
  | move f fs t ts => exact ⟨fun _ => trivial, fun _ => keyed_move h f fs t ts⟩

/-- A step neither replaces the plugin at a position nor changes what stands before it. -/
def LeavesAlone (t s : ℕ) (_ : PluginChains ι τ) : Op ι τ → Prop
  | .load track slot (.ok _) _ => track = t → slot ≠ s
  | .load track slot (.error _) _ => track = t → s < slot
  | .remove track slot => track = t → s < slot
  | .move f fs track ts => (f = t → s < fs) ∧ (track = t → s < ts)

theorem getElem?_clearSlot {st : PluginChains ι τ} {t s track slot : ℕ}
    {node : DspPluginNode ι τ} (h : (st.chain t)[s]? = some node) (ha : track = t → s < slot) :
    ((st.clearSlot track slot).chain t)[s]? = some node := by
  rw [chain_clearSlot]
  split
  case isTrue ht => rw [← ht, List.getElem?_eraseIdx_of_lt (ha ht.symm), h]
  case isFalse => exact h

theorem getElem?_step {st : PluginChains ι τ} {t s : ℕ} {node : DspPluginNode ι τ} (op : Op ι τ)
    (h : (st.chain t)[s]? = some node) (ha : st.LeavesAlone t s op) :
    ((st.step op).chain t)[s]? = some node := by
  cases op with
  | load track slot loaded tap =>
    by_cases hlt : track < 16
    · cases loaded with
      | ok plugin =>
        simp only [step, chain_load _ hlt]
        split
        case isTrue ht => rw [← ht, putAt_getElem?_ne _ _ (Ne.symm (ha ht.symm)) (lt_of_getElem? h), h]
        case isFalse => exact h
      | error e =>
        simp only [step, st.loadInstance_failed hlt]
        exact getElem?_clearSlot h ha
    · simp only [step, st.loadInstance_of_le (show 16 ≤ track by omega)]
      exact h
  | remove track slot => exact getElem?_clearSlot h ha
  | move f fs track ts =>
    simp only [step]
    by_cases hlt : 16 ≤ f ∨ 16 ≤ track
    · rw [st.moveExternalPlugin_refused ts (by tauto)]
      exact h
    · cases hnode : (st.chain f)[fs]? with
      | none =>
        rw [st.moveExternalPlugin_refused ts (Or.inr (Or.inr hnode))]
        exact h
      | some moved =>
        rw [chain_move st (by omega) (by omega) ts hnode]
        have hrest : f = t → ((st.chain f).eraseIdx fs)[s]? = some node := by
          intro hft
          rw [List.getElem?_eraseIdx_of_lt (ha.1 hft), hft, h]
        by_cases ht : t = track
        · -- The plugin's own chain receives the moved one behind it.
          subst ht
          have hsource : (if t = f then (st.chain f).eraseIdx fs else st.chain t)[s]? = some node := by
            split
            case isTrue hft => exact hrest hft.symm
            case isFalse => exact h
          have hs := lt_of_getElem? hsource
          have hts := ha.2 rfl
          simp only [if_true]
          rw [List.getElem?_insertIdx_of_lt (by omega), hsource]
        · simp only [if_neg ht]
          split
          case isTrue hft => exact hrest hft.symm
          case isFalse => exact h

theorem getElem?_run {st : PluginChains ι τ} {t s : ℕ} {node : DspPluginNode ι τ}
    (ops : List (Op ι τ)) (h : (st.chain t)[s]? = some node)
    (ha : Along step (LeavesAlone t s) st ops) : ((ops.foldl step st).chain t)[s]? = some node :=
  (always_of_along (P := fun st => (st.chain t)[s]? = some node)
    (fun _ op h ha => getElem?_step op h ha) h ha).final

/-- In a run from an empty engine the registry follows the chains after every step precisely when
every load goes into its chain or just behind it and every removal takes out a last plugin. In such a
run, a plugin loaded for a track and a slot is the one that parameter and editor commands for them
reach, for as long as no step replaces it or changes the chain before it. -/
theorem taps_follow_chains (ops : List (Op ι τ)) :
    (Always step Keyed empty ops ↔ Along step KeepsKeys empty ops) ∧
      ∀ (before later : List (Op ι τ)) (t s : ℕ) (plugin : ι) (tap : τ),
        ops = before ++ .load t s (.ok plugin) tap :: later → t < 16 →
        Along step KeepsKeys empty ops →
        Along step (LeavesAlone t s) ((before.foldl step empty).step (.load t s (.ok plugin) tap))
          later →
        (ops.foldl step empty).paramTarget t s = some plugin ∧
          (ops.foldl step empty).editorTap t s = some tap := by
  refine ⟨always_iff_along keyed_step_iff keyed_empty, ?_⟩
  intro before later t s plugin tap hops ht hkeeps halone
  have hkeyed := ((always_iff_along keyed_step_iff keyed_empty).mpr hkeeps).final
  have hle : s ≤ ((before.foldl step empty).chain t).length := by
    rw [hops] at hkeeps
    exact (along_append.mp hkeeps).2.1 ht
  have hloaded : (((before.foldl step empty).step (.load t s (.ok plugin) tap)).chain t)[s]? =
      some ⟨plugin, tap⟩ := by
    simp only [step, chain_load _ ht, if_true]
    rw [putAt_getElem? _ hle, if_pos rfl]
  have hfinal : ((ops.foldl step empty).chain t)[s]? = some ⟨plugin, tap⟩ := by
    rw [hops, List.foldl_append, List.foldl_cons]
    exact getElem?_run later hloaded halone
  constructor
  · rw [paramTarget, hfinal]
    rfl
  · rw [hkeyed t s, hfinal]
    rfl

theorem taps_follow_chains_pair :
    ((([.load 0 0 (.ok 5) 50, .load 0 1 (.ok 6) 60, .load 0 0 (.ok 7) 70] :
        List (Op ℕ ℕ)).foldl step empty).paramTarget 0 1 = some 6) ∧
      ((([.load 0 0 (.ok 5) 50, .load 0 1 (.ok 6) 60, .load 0 0 (.ok 7) 70] :
        List (Op ℕ ℕ)).foldl step empty).editorTap 0 1 = some 60) := by
  refine (taps_follow_chains [.load 0 0 (.ok 5) 50, .load 0 1 (.ok 6) 60, .load 0 0 (.ok 7) 70]).2
    [.load 0 0 (.ok 5) 50] [.load 0 0 (.ok 7) 70] 0 1 6 60 rfl (by decide) ?_ ?_
  · exact ⟨fun _ => by decide, fun _ => by decide, fun _ => by decide, trivial⟩
  · exact ⟨fun _ => by decide, trivial⟩

/-- A first plugin loaded for slot 3 has its tap under 3 and nothing under 0, where it stands. -/
theorem load_past_end_loses_tap :
    ¬ ∀ ops : List (Op ℕ ℕ), (∀ t s e tap, Op.load t s (.error e) tap ∉ ops) →
      Always step Keyed empty ops := by
  intro h
  have hkeyed := (h [.load 0 3 (.ok 7) 70] (by simp)).final
  exact absurd (hkeyed 0 3) (by decide)

end HikaruOpenLive.Engine.PluginChains
