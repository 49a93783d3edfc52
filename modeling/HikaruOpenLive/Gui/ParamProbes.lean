import Mathlib.Data.Finset.Basic
import HikaruOpenLive.Gui.AppState

/-! # The probes of external plugins

To show the parameters of an external plugin the rack instantiates it in a thread of its own. The ids
with a probe in flight are kept in a set, so that there is one probe for each; the state of the probe is
kept in the slots. A result is applied to every slot with its id among the visible tracks, and so is the
mark when a probe starts: the tracks of the other mode and the return tracks are not looked at.

Of a slot only what a probe reads and writes is kept here. As history, `drained` are the ids of which a
result has been applied.
-/
set_option autoImplicit false

namespace HikaruOpenLive.Gui

open Foundations.ListEdits

inductive ExternalParamsStatus where
  | idle
  | probing
  | ready
  | failed (message : String)
deriving DecidableEq

/-- The outcome of a probe. -/
def ExternalParamsStatus.Settled : ExternalParamsStatus → Prop
  | .ready => True
  | .failed _ => True
  | _ => False

structure ParamProbeResult where
  descriptorId : String
  params : List (PluginParamInfo × ℚ)
  error : Option String
  hasGui : Bool

structure ProbeSlot where
  external : Option String
  externalParams : List ExternalParamState
  paramsStatus : ExternalParamsStatus
  hasGui : Option Bool
deriving DecidableEq

namespace ProbeSlot

def empty : ProbeSlot :=
  { external := none, externalParams := [], paramsStatus := .idle, hasGui := none }

def holds (id : String) (slot : ProbeSlot) : Bool :=
  decide (slot.external = some id)

def assign (id : String) (slot : ProbeSlot) : ProbeSlot :=
  { slot with external := some id, externalParams := [], paramsStatus := .idle }

def mark (slot : ProbeSlot) : ProbeSlot :=
  { slot with paramsStatus := .probing }

def receive (slot : ProbeSlot) (result : ParamProbeResult) : ProbeSlot :=
  if slot.holds result.descriptorId then
    match result.error with
    | some message => { slot with hasGui := some result.hasGui, paramsStatus := .failed message }
    | none =>
      { slot with
        hasGui := some result.hasGui
        externalParams := result.params.map fun param => ExternalParamState.mk param.1 param.2
        paramsStatus := .ready }
  else slot

end ProbeSlot

structure ProbeRacks where
  mode : AppMode
  liveTracks : List (List ProbeSlot)
  studioTracks : List (List ProbeSlot)
  fxTracks : List (List ProbeSlot)
  paramProbing : Finset String
  threads : List String
  results : List ParamProbeResult
  drained : Finset String

inductive ProbeAct where
  | assignExternalPlugin (trackIdx slotIdx : ℕ) (id : String)
  | requestExternalParams (id : String)
  | addSlot (trackIdx : ℕ)
  | setMode (mode : AppMode)
  | moveDevice (fromTarget : StripTarget) (fromSlot : ℕ) (toTarget : StripTarget) (toSlot : ℕ)
  | removeSlotAt (trackIdx slotIdx : ℕ)
  | probeDone (i : ℕ) (params : List (PluginParamInfo × ℚ)) (error : Option String) (hasGui : Bool)
  | drainParamProbes

namespace ProbeRacks

/-- The racks of a project as it is opened: nothing has been probed. -/
def opened (mode : AppMode) (live studio fx : List (List (Option String))) : ProbeRacks :=
  let slots := List.map (List.map fun external => { ProbeSlot.empty with external := external })
  { mode := mode, liveTracks := slots live, studioTracks := slots studio, fxTracks := slots fx
    paramProbing := ∅, threads := [], results := [], drained := ∅ }

def bank (s : ProbeRacks) : Bank → List (List ProbeSlot)
  | .live => s.liveTracks
  | .studio => s.studioTracks
  | .fx => s.fxTracks

def setBank (s : ProbeRacks) (tracks : List (List ProbeSlot)) : Bank → ProbeRacks
  | .live => { s with liveTracks := tracks }
  | .studio => { s with studioTracks := tracks }
  | .fx => { s with fxTracks := tracks }

def tracks (s : ProbeRacks) : List (List ProbeSlot) :=
  s.bank s.mode.bank

def place (s : ProbeRacks) : StripTarget → Bank × ℕ
  | .master => (s.mode.bank, 0)
  | .live idx => (.live, idx + 1)
  | .studio idx => (.studio, idx)
  | .fx idx => (.fx, idx)

def effects (s : ProbeRacks) (p : Bank × ℕ) : Option (List ProbeSlot) :=
  (s.bank p.1)[p.2]?

def updateEffects (s : ProbeRacks) (p : Bank × ℕ) (f : List ProbeSlot → List ProbeSlot) :
    ProbeRacks :=
  s.setBank ((s.bank p.1).modify p.2 f) p.1

/-! ## Requests and results -/

/-- The first slot with the plugin is marked. -/
def markFirst (id : String) (tracks : List (List ProbeSlot)) : List (List ProbeSlot) :=
  updateFirst (fun track => track.any (ProbeSlot.holds id))
    (updateFirst (ProbeSlot.holds id) ProbeSlot.mark) tracks

def requestExternalParams (s : ProbeRacks) (id : String) : ProbeRacks :=
  if id ∈ s.paramProbing then s
  else if s.tracks.any fun track => track.any (ProbeSlot.holds id) then
    { s.setBank (markFirst id s.tracks) s.mode.bank with
      paramProbing := insert id s.paramProbing, threads := s.threads ++ [id] }
  else
    -- No slot to mark: the id leaves the set again.
    { s with paramProbing := (insert id s.paramProbing).erase id }

def assignExternalPlugin (s : ProbeRacks) (trackIdx slotIdx : ℕ) (id : String) : ProbeRacks :=
  requestExternalParams
    (s.updateEffects (s.mode.bank, trackIdx) fun effects =>
      effects.modify slotIdx (ProbeSlot.assign id)) id

/-- The `i`-th thread in flight sends what it has found. -/
def probeDone (s : ProbeRacks) (i : ℕ) (params : List (PluginParamInfo × ℚ))
    (error : Option String) (hasGui : Bool) : ProbeRacks :=
  match s.threads[i]? with
  | none => s
  | some id =>
    { s with
      threads := s.threads.eraseIdx i, results := s.results ++ [⟨id, params, error, hasGui⟩] }

def drainParamProbes (s : ProbeRacks) : ProbeRacks :=
  { s.setBank (s.tracks.map (List.map fun slot => s.results.foldl ProbeSlot.receive slot))
      s.mode.bank with
    paramProbing := s.results.foldl (fun ids result => ids.erase result.descriptorId) s.paramProbing
    results := []
    drained := s.drained ∪ (s.results.map ParamProbeResult.descriptorId).toFinset }

/-! ## Edits of the racks -/

def slotAt (s : ProbeRacks) (target : StripTarget) (slotIdx : ℕ) : Option ProbeSlot :=
  (s.effects (s.place target)).bind fun effects => effects[slotIdx]?

def moveDevice (s : ProbeRacks) (fromTarget : StripTarget) (fromSlot : ℕ) (toTarget : StripTarget)
    (toSlot : ℕ) : ProbeRacks :=
  let currentLen := ((s.effects (s.place fromTarget)).getD []).length
  if fromTarget = toTarget ∧
      (fromSlot = toSlot ∨ toSlot = usizeMax ∧ currentLen ≤ fromSlot + 1) then s
  else
    match s.slotAt fromTarget fromSlot with
    | none => s
    | some slot =>
      let taken := s.updateEffects (s.place fromTarget) fun effects => effects.eraseIdx fromSlot
      match taken.effects (taken.place toTarget) with
      | none =>
        -- There is no such strip, so the slot goes back.
        taken.updateEffects (s.place fromTarget) fun effects =>
          effects.insertIdx (min fromSlot effects.length) slot
      | some _ =>
        taken.updateEffects (taken.place toTarget) fun effects =>
          effects.insertIdx (min toSlot effects.length) slot

def step (s : ProbeRacks) : ProbeAct → ProbeRacks
  | .assignExternalPlugin trackIdx slotIdx id => s.assignExternalPlugin trackIdx slotIdx id
  | .requestExternalParams id => s.requestExternalParams id
  | .addSlot trackIdx =>
    s.updateEffects (s.mode.bank, trackIdx) fun effects => effects ++ [ProbeSlot.empty]
  | .setMode mode => { s with mode := mode }
  | .moveDevice fromTarget fromSlot toTarget toSlot =>
    s.moveDevice fromTarget fromSlot toTarget toSlot
  | .removeSlotAt trackIdx slotIdx =>
    s.updateEffects (s.mode.bank, trackIdx) fun effects => effects.eraseIdx slotIdx
  | .probeDone i params error hasGui => s.probeDone i params error hasGui
  | .drainParamProbes => s.drainParamProbes

/-! ## What is asked of the racks -/

/-- The probes that have been started and whose results have not been applied. -/
def inFlight (s : ProbeRacks) : List String :=
  s.threads ++ s.results.map ParamProbeResult.descriptorId

structure SlotOk (s : ProbeRacks) (slot : ProbeSlot) : Prop where
  probing : slot.paramsStatus = .probing →
    ∃ id, slot.external = some id ∧ id ∈ s.paramProbing ∧ id ∈ s.inFlight
  drained : ∀ id, slot.external = some id → id ∈ s.drained → id ∉ s.inFlight →
    slot.paramsStatus.Settled

/-- A slot of a track of either mode. -/
def Shown (s : ProbeRacks) (slot : ProbeSlot) : Prop :=
  ∃ b ≠ Bank.fx, ∃ track ∈ s.bank b, slot ∈ track

/-- A slot that waits for a probe waits for one in flight, and so none waits once all have ended; one
whose probe has been drained shows the outcome, and no id has two probes in flight. -/
structure ProbesOk (s : ProbeRacks) : Prop where
  slots : ∀ slot, s.Shown slot → s.SlotOk slot
  ended : s.inFlight = [] → ∀ slot, s.Shown slot → slot.paramsStatus ≠ .probing
  single : s.inFlight.Nodup

def hiddenBank : AppMode → Bank
  | .openLive => .studio
  | .openStudio => .live

/-- The condition: results are drained when no slot of the other mode waits for one of them, and a
device that comes back from a return track has missed none. -/
def Reaches (s : ProbeRacks) : ProbeAct → Prop
  | .drainParamProbes => ∀ track ∈ s.bank (hiddenBank s.mode), ∀ slot ∈ track,
    ∀ result ∈ s.results, slot.external = some result.descriptorId → slot.paramsStatus.Settled
  | .moveDevice fromTarget fromSlot toTarget _ => ∀ slot, s.slotAt fromTarget fromSlot = some slot →
    (s.place fromTarget).1 = .fx → (s.place toTarget).1 ≠ .fx →
    (s.effects (s.place toTarget)).isSome = true → s.SlotOk slot
  | _ => True

end ProbeRacks

end HikaruOpenLive.Gui
