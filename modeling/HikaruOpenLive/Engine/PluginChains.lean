import Mathlib.Data.Rat.Defs
import HikaruOpenLive.Foundations.Registry
import HikaruOpenLive.Foundations.ListEdits

/-! # The chains of external plugins and their taps

Each of the engine's sixteen tracks has a chain of external plugins, and every plugin in a chain has a
tap, the ring its native editor listens to. A registry outside the engine leads from a track and a
position in its chain to the tap. Parameters reach a plugin through its position too.

Instantiating a plugin is the loader's work and a parameter; it may fail after the engine has already
made room. A node enters a chain with its tap set, so the tap is not optional here.
-/
set_option autoImplicit false

namespace HikaruOpenLive.Engine

open Foundations.Registry Foundations.ListEdits

inductive PluginFormat where
  | vst3
  | clap
deriving DecidableEq, Repr

structure PluginDescriptor where
  id : String
  name : String
  path : String
  format : PluginFormat
deriving DecidableEq, Repr

/-- What the plugin crates do: open a binary, and take a sample rate or parameter values. -/
structure PluginLoader (ι : Type) where
  loadVst3 : String → Except String ι
  loadClap : String → Except String ι
  setSampleRate : ι → ℚ → ι

def PluginLoader.instantiate {ι : Type} (loader : PluginLoader ι) (sampleRate : ℚ)
    (d : PluginDescriptor) : Except String ι :=
  match d.format with
  | .vst3 =>
    match loader.loadVst3 d.path with
    | .ok plugin => .ok (loader.setSampleRate plugin sampleRate)
    | .error e => .error s!"VST3: {e}"
  | .clap =>
    match loader.loadClap d.path with
    | .ok plugin => .ok (loader.setSampleRate plugin sampleRate)
    | .error e => .error s!"CLAP: {e}"

structure DspPluginNode (ι τ : Type) where
  plugin : ι
  tap : τ
deriving DecidableEq

/-- The chains of the engine and the tap registry, whose keys are a track and a chain index. -/
structure PluginChains (ι τ : Type) where
  trackEffects : Fin 16 → List (DspPluginNode ι τ)
  taps : List ((ℕ × ℕ) × τ)

namespace PluginChains

variable {ι τ : Type}

def empty : PluginChains ι τ :=
  ⟨fun _ => [], []⟩

def chain (st : PluginChains ι τ) (track : ℕ) : List (DspPluginNode ι τ) :=
  if h : track < 16 then st.trackEffects ⟨track, h⟩ else []

def setChain (st : PluginChains ι τ) (track : ℕ) (nodes : List (DspPluginNode ι τ)) :
    PluginChains ι τ :=
  { st with trackEffects := fun t => if t.val = track then nodes else st.trackEffects t }

def withTaps (st : PluginChains ι τ) (taps : List ((ℕ × ℕ) × τ)) : PluginChains ι τ :=
  { st with taps := taps }

/-- A slot emptied: its plugin out of the chain, its key out of the registry. -/
def clearSlot (st : PluginChains ι τ) (track slot : ℕ) : PluginChains ι τ :=
  (st.setChain track ((st.chain track).eraseIdx slot)).withTaps (unregister st.taps (track, slot))

/-- The engine's own part of loading a plugin, given what instantiating it came to. What stands in
the slot goes first, whether or not the plugin loads. -/
def loadInstance (st : PluginChains ι τ) (track slot : ℕ) (loaded : Except String ι) (tap : τ) :
    Except String Unit × PluginChains ι τ :=
  if 16 ≤ track then (.error s!"Pista {track} fuera de rango (máx 16)", st)
  else
    let cleared := st.clearSlot track slot
    match loaded with
    | .error e => (.error e, cleared)
    | .ok plugin =>
      let nodes := cleared.chain track
      let inserted := nodes.insertIdx (min slot nodes.length) ⟨plugin, tap⟩
      (.ok (), (cleared.setChain track inserted).withTaps (register cleared.taps (track, slot) tap))

def loadExternalPlugin (loader : PluginLoader ι) (sampleRate : ℚ) (st : PluginChains ι τ)
    (track slot : ℕ) (d : PluginDescriptor) (tap : τ) : Except String Unit × PluginChains ι τ :=
  st.loadInstance track slot (loader.instantiate sampleRate d) tap

def removeExternalPlugin (st : PluginChains ι τ) (track slot : ℕ) : PluginChains ι τ :=
  st.clearSlot track slot

def reregister (st : PluginChains ι τ) (track : ℕ) : PluginChains ι τ :=
  st.withTaps
    (registerAll (fun i => (track, i)) st.taps 0 ((st.chain track).map DspPluginNode.tap))

def moveExternalPlugin (st : PluginChains ι τ) (fromTrack fromSlot toTrack toSlot : ℕ) :
    Bool × PluginChains ι τ :=
  if 16 ≤ fromTrack ∨ 16 ≤ toTrack then (false, st)
  else
    match (st.chain fromTrack)[fromSlot]? with
    | none => (false, st)
    | some node =>
      let rest := (st.chain fromTrack).eraseIdx fromSlot
      let taken := (st.clearSlot fromTrack fromSlot).withTaps
        (unregister (unregister st.taps (fromTrack, fromSlot)) (fromTrack, rest.length))
      let source := taken.reregister fromTrack
      let dest := source.chain toTrack
      (true, (source.setChain toTrack (dest.insertIdx (min toSlot dest.length) node)).reregister
        toTrack)

/-- The plugin that a parameter command for a slot reaches. -/
def paramTarget (st : PluginChains ι τ) (track slot : ℕ) : Option ι :=
  (st.chain track)[slot]?.map DspPluginNode.plugin

/-- The tap that an editor opened for a slot listens to. -/
def editorTap (st : PluginChains ι τ) (track slot : ℕ) : Option τ :=
  lookup st.taps (track, slot)

/-- Sends parameter values to the plugin in a slot; `apply` is what the plugin does with them. -/
def syncExternalPluginParams {π : Type} (apply : ι → List π → ι) (st : PluginChains ι τ)
    (track slot : ℕ) (params : List π) : PluginChains ι τ :=
  st.setChain track ((st.chain track).modify slot fun node =>
    { node with plugin := apply node.plugin params })

/-! ## Chains after a step -/

theorem chain_of_le (st : PluginChains ι τ) {track : ℕ} (h : 16 ≤ track) : st.chain track = [] :=
  dif_neg (by omega)

@[simp] theorem chain_empty (track : ℕ) : (empty : PluginChains ι τ).chain track = [] := by
  unfold chain empty
  simp

theorem chain_setChain (st : PluginChains ι τ) {track : ℕ} (h : track < 16)
    (nodes : List (DspPluginNode ι τ)) (t : ℕ) :
    (st.setChain track nodes).chain t = if t = track then nodes else st.chain t := by
  unfold chain setChain
  by_cases ht : t < 16
  · simp only [dif_pos ht]
  · have hne : t ≠ track := by omega
    simp only [dif_neg ht, if_neg hne]

theorem setChain_of_le (st : PluginChains ι τ) {track : ℕ} (h : 16 ≤ track)
    (nodes : List (DspPluginNode ι τ)) : st.setChain track nodes = st := by
  unfold setChain
  have hsame : (fun t : Fin 16 => if t.val = track then nodes else st.trackEffects t) =
      st.trackEffects := by
    funext t
    exact if_neg (by omega)
  rw [hsame]

@[simp] theorem chain_withTaps (st : PluginChains ι τ) (taps : List ((ℕ × ℕ) × τ)) (t : ℕ) :
    (st.withTaps taps).chain t = st.chain t := rfl

@[simp] theorem taps_withTaps (st : PluginChains ι τ) (taps : List ((ℕ × ℕ) × τ)) :
    (st.withTaps taps).taps = taps := rfl

@[simp] theorem chain_reregister (st : PluginChains ι τ) (track t : ℕ) :
    (st.reregister track).chain t = st.chain t := rfl

@[simp] theorem taps_clearSlot (st : PluginChains ι τ) (track slot : ℕ) :
    (st.clearSlot track slot).taps = unregister st.taps (track, slot) := rfl

theorem chain_clearSlot (st : PluginChains ι τ) (track slot t : ℕ) :
    (st.clearSlot track slot).chain t =
      if t = track then (st.chain track).eraseIdx slot else st.chain t := by
  unfold clearSlot
  rw [chain_withTaps]
  by_cases h : track < 16
  · exact st.chain_setChain h _ t
  · rw [st.setChain_of_le (by omega), st.chain_of_le (show 16 ≤ track by omega)]
    split
    case isTrue ht => rw [ht, st.chain_of_le (by omega), List.eraseIdx_nil]
    case isFalse => rfl

/-- Loading into a slot of the chain replaces what stands there; loading past its end appends. -/
theorem chain_load (st : PluginChains ι τ) {track : ℕ} (h : track < 16) (slot : ℕ) (plugin : ι)
    (tap : τ) (t : ℕ) :
    (st.loadInstance track slot (.ok plugin) tap).2.chain t =
      if t = track then putAt (st.chain track) slot ⟨plugin, tap⟩ else st.chain t := by
  unfold loadInstance
  rw [if_neg (by omega)]
  simp only [chain_withTaps, chain_setChain _ h, chain_clearSlot, if_true, insertIdx_eraseIdx_min]
  split
  · rfl
  · rfl

theorem editorTap_load (st : PluginChains ι τ) {track : ℕ} (h : track < 16) (slot : ℕ) (plugin : ι)
    (tap : τ) (t i : ℕ) :
    (st.loadInstance track slot (.ok plugin) tap).2.editorTap t i =
      if (t, i) = (track, slot) then some tap else st.editorTap t i := by
  unfold loadInstance editorTap
  rw [if_neg (by omega)]
  simp only [taps_withTaps, taps_clearSlot, lookup_register, lookup_unregister]
  split
  · rfl
  · rfl

theorem loadInstance_failed (st : PluginChains ι τ) {track : ℕ} (h : track < 16) (slot : ℕ)
    (e : String) (tap : τ) :
    (st.loadInstance track slot (.error e) tap).2 = st.clearSlot track slot := by
  unfold loadInstance
  rw [if_neg (by omega)]

theorem loadInstance_of_le (st : PluginChains ι τ) {track : ℕ} (h : 16 ≤ track) (slot : ℕ)
    (loaded : Except String ι) (tap : τ) : (st.loadInstance track slot loaded tap).2 = st := by
  unfold loadInstance
  rw [if_pos h]

/-- Emptying a slot changes nothing when there is nothing in it, neither a plugin nor a tap. -/
theorem clearSlot_eq_self_iff (st : PluginChains ι τ) (track slot : ℕ) :
    st.clearSlot track slot = st ↔
      (st.chain track).length ≤ slot ∧ st.editorTap track slot = none := by
  constructor
  · intro h
    have hchain := congrArg (fun st => st.chain track) h
    have htaps := congrArg PluginChains.taps h
    simp only [chain_clearSlot, if_true] at hchain
    rw [taps_clearSlot, unregister_eq_self_iff] at htaps
    refine ⟨?_, htaps⟩
    by_contra hlt
    have hlength := congrArg List.length hchain
    rw [List.length_eraseIdx_of_lt (by omega)] at hlength
    omega
  · rintro ⟨hle, hnone⟩
    have htaps := (unregister_eq_self_iff st.taps (track, slot)).mpr hnone
    have hsame : st.setChain track (st.chain track) = st := by
      unfold setChain
      congr 1
      funext t
      split
      case isTrue ht =>
        unfold chain
        rw [← ht, dif_pos t.isLt]
      case isFalse => rfl
    unfold clearSlot
    rw [List.eraseIdx_of_length_le hle, htaps, hsame]
    rfl

/-- A load that fails leaves chains and registry as they were precisely when it was refused for its
track, or when there was nothing in its slot. -/
theorem failed_load_restores_iff {loader : PluginLoader ι} {sampleRate : ℚ} {st : PluginChains ι τ}
    {track slot : ℕ} {d : PluginDescriptor} {tap : τ} {reason : String}
    (hfails : (st.loadExternalPlugin loader sampleRate track slot d tap).1 = .error reason) :
    (st.loadExternalPlugin loader sampleRate track slot d tap).2 = st ↔
      (track < 16 → (st.chain track).length ≤ slot ∧ st.editorTap track slot = none) := by
  unfold loadExternalPlugin at hfails ⊢
  by_cases htrack : track < 16
  · cases hloaded : loader.instantiate sampleRate d with
    | ok plugin =>
      rw [hloaded] at hfails
      unfold loadInstance at hfails
      rw [if_neg (by omega)] at hfails
      cases hfails
    | error e =>
      rw [st.loadInstance_failed htrack, clearSlot_eq_self_iff]
      exact ⟨fun h _ => h, fun h => h htrack⟩
  · rw [st.loadInstance_of_le (by omega)]
    exact ⟨fun _ h => absurd h htrack, fun _ => rfl⟩

theorem editorTap_clearSlot (st : PluginChains ι τ) (track slot t i : ℕ) :
    (st.clearSlot track slot).editorTap t i =
      if (t, i) = (track, slot) then none else st.editorTap t i :=
  lookup_unregister _ _ _

theorem chain_move (st : PluginChains ι τ) {f t fs : ℕ} (hf : f < 16) (ht : t < 16) (ts : ℕ)
    {node : DspPluginNode ι τ} (hnode : (st.chain f)[fs]? = some node) (k : ℕ) :
    (st.moveExternalPlugin f fs t ts).2.chain k =
      let source := if t = f then (st.chain f).eraseIdx fs else st.chain t
      if k = t then source.insertIdx (min ts source.length) node
      else if k = f then (st.chain f).eraseIdx fs
      else st.chain k := by
  unfold moveExternalPlugin
  rw [if_neg (by omega)]
  simp only [hnode, chain_reregister, chain_setChain _ ht, chain_withTaps, chain_clearSlot]

theorem moveExternalPlugin_refused (st : PluginChains ι τ) {f fs t : ℕ} (ts : ℕ)
    (h : 16 ≤ f ∨ 16 ≤ t ∨ (st.chain f)[fs]? = none) :
    (st.moveExternalPlugin f fs t ts).2 = st := by
  unfold moveExternalPlugin
  split
  case isTrue => rfl
  case isFalse hlt =>
    have hnone : (st.chain f)[fs]? = none := by
      obtain h | h | h := h
      · exact absurd (Or.inl h) hlt
      · exact absurd (Or.inr h) hlt
      · exact h
    rw [hnone]

/-! ## A loader that opens nothing -/

def brokenLoader : PluginLoader ℕ :=
  { loadVst3 := fun _ => .error "no", loadClap := fun _ => .error "no", setSampleRate := fun plugin _ => plugin }

def delay : PluginDescriptor := ⟨"clap:/delay.clap", "Delay", "/delay.clap", .clap⟩

/-- A chain of two plugins. -/
def twoPlugins : PluginChains ℕ ℕ :=
  ((empty.loadInstance 0 0 (.ok 5) 50).2.loadInstance 0 1 (.ok 6) 60).2

theorem failed_load_restores_behind :
    (twoPlugins.loadExternalPlugin brokenLoader 44100 0 2 delay 70).2 = twoPlugins :=
  have hfails : (twoPlugins.loadExternalPlugin brokenLoader 44100 0 2 delay 70).1 = .error "CLAP: no" := rfl
  (failed_load_restores_iff hfails).mpr (by decide)

/-- A plugin that cannot be loaded in the place of another still takes it out of the chain. -/
theorem not_failed_load_restores :
    ¬ ∀ (loader : PluginLoader ℕ) (st : PluginChains ℕ ℕ) (track slot : ℕ) (d : PluginDescriptor) (tap : ℕ)
      (reason : String), (st.loadExternalPlugin loader 44100 track slot d tap).1 = .error reason →
        (st.loadExternalPlugin loader 44100 track slot d tap).2 = st := by
  intro h
  have hsame := h brokenLoader twoPlugins 0 0 delay 70 "CLAP: no" rfl
  have hchain := congrArg (fun st => (st.chain 0).length) hsame
  revert hchain
  decide

end PluginChains

end HikaruOpenLive.Engine
