import HikaruOpenLive.Gui.DspSlot

/-! # The tracks of the application and the edits of their racks

The application keeps the tracks of its two modes and the return tracks apart. The mode decides which
list is visible; its track 0 is the master, which the engine does not have, so the visible track
`k + 1` is track `k` of the engine. The edits return the commands they send.
-/
set_option autoImplicit false

namespace HikaruOpenLive.Gui

open Engine

inductive AppMode where
  | openLive
  | openStudio
deriving DecidableEq

/-- A channel strip. A live index counts without the master, a studio index with it. -/
inductive StripTarget where
  | master
  | live (idx : ℕ)
  | studio (idx : ℕ)
  | fx (idx : ℕ)
deriving DecidableEq

structure Track where
  effects : List DspSlot

inductive Bank where
  | live
  | studio
  | fx
deriving DecidableEq

/-- What the rack sends to the engine, and the removal the engine would understand. -/
inductive GuiCommand where
  | loadExternalPlugin (trackIdx slotIdx : ℕ) (plugin : ExternalPlugin)
  | removeExternalPlugin (trackIdx slotIdx : ℕ)
  | moveExternalPlugin (fromTrack fromSlot toTrack toSlot : ℕ)
  | syncExternalPluginParams (trackIdx slotIdx : ℕ) (params : List ParamChange)
deriving DecidableEq

structure AppState where
  mode : AppMode
  liveTracks : List Track
  studioTracks : List Track
  fxTracks : List Track
  selectedTrackIndex : ℕ
  selectedSlotIndex : ℕ

/-- `usize::MAX`, which a move to the end of a chain asks for. -/
def usizeMax : ℕ :=
  2 ^ 64 - 1

def AppMode.bank : AppMode → Bank
  | .openLive => .live
  | .openStudio => .studio

namespace AppState

def bank (st : AppState) : Bank → List Track
  | .live => st.liveTracks
  | .studio => st.studioTracks
  | .fx => st.fxTracks

def setBank (st : AppState) (tracks : List Track) : Bank → AppState
  | .live => { st with liveTracks := tracks }
  | .studio => { st with studioTracks := tracks }
  | .fx => { st with fxTracks := tracks }

def tracks (st : AppState) : List Track :=
  st.bank st.mode.bank

def safeTrackIndex (st : AppState) : ℕ :=
  min st.selectedTrackIndex (st.tracks.length - 1)

/-- The engine's index of a visible track; the master has none. -/
def engineTrackOf : ℕ → Option ℕ
  | 0 => none
  | trackIdx + 1 => some trackIdx

def engineTrackIndex (st : AppState) : Option ℕ :=
  engineTrackOf st.safeTrackIndex

def place (st : AppState) : StripTarget → Bank × ℕ
  | .master => (st.mode.bank, 0)
  | .live idx => (.live, idx + 1)
  | .studio idx => (.studio, idx)
  | .fx idx => (.fx, idx)

def effects (st : AppState) (p : Bank × ℕ) : Option (List DspSlot) :=
  (st.bank p.1)[p.2]?.map Track.effects

def updateEffects (st : AppState) (p : Bank × ℕ) (f : List DspSlot → List DspSlot) : AppState :=
  st.setBank ((st.bank p.1).modify p.2 fun track => { track with effects := f track.effects }) p.1

def targetEffects (st : AppState) (target : StripTarget) : Option (List DspSlot) :=
  st.effects (st.place target)

def trackEffects (st : AppState) (trackIdx : ℕ) : Option (List DspSlot) :=
  st.effects (st.mode.bank, trackIdx)

def updateSlot (st : AppState) (trackIdx slotIdx : ℕ) (f : DspSlot → DspSlot) : AppState :=
  st.updateEffects (st.mode.bank, trackIdx) fun effects => effects.modify slotIdx f

/-! ## Edits of the visible rack -/

def addSlot (st : AppState) (trackIdx : ℕ) : AppState :=
  match st.trackEffects trackIdx with
  | none => st
  | some effects =>
    { st.updateEffects (st.mode.bank, trackIdx) fun effects =>
        effects ++ [DspSlot.new emptySlotName] with
      selectedSlotIndex := effects.length }

/-- A native device: only the name of the slot changes. -/
def assignPlugin (st : AppState) (trackIdx slotIdx : ℕ) (name : String) : AppState :=
  { st.updateSlot trackIdx slotIdx fun slot => { slot with name := name, loadError := none } with
    selectedSlotIndex := slotIdx }

/-- An external plugin: the slot takes its descriptor, and the engine is told to load it into the
slot's index of the selected track's chain. -/
def assignExternalPlugin (st : AppState) (trackIdx slotIdx : ℕ) (plugin : ExternalPlugin) :
    AppState × List GuiCommand :=
  let loadError :=
    if st.engineTrackIndex.isNone then some "El master no tiene cadena de efectos" else none
  ({ st.updateSlot trackIdx slotIdx fun slot =>
        { slot with
          name := plugin.descriptor.name, external := some plugin, loadError := loadError
          externalParams := [] } with
      selectedSlotIndex := slotIdx },
    match st.engineTrackIndex with
    | none => []
    | some engineIdx => [.loadExternalPlugin engineIdx slotIdx plugin])

/-- Removes a slot. Nothing is sent. -/
def removeSlotAt (st : AppState) (trackIdx slotIdx : ℕ) : AppState :=
  let removed := st.updateEffects (st.mode.bank, trackIdx) fun effects => effects.eraseIdx slotIdx
  { removed with
    selectedSlotIndex :=
      min st.selectedSlotIndex (((removed.trackEffects trackIdx).getD []).length - 1) }

def removeSelectedSlot (st : AppState) (trackIdx : ℕ) : AppState :=
  if st.selectedSlotIndex < ((st.trackEffects trackIdx).getD []).length then
    st.removeSlotAt trackIdx st.selectedSlotIndex
  else st

/-! ## Moving a device -/

def mixerIndex : StripTarget → ℕ
  | .master => 0
  | .live idx => idx + 1
  | .studio idx => idx
  | .fx _ => 0

def toEngineTrack : StripTarget → Option ℕ
  | .master => none
  | .live idx => some idx
  | .studio idx => engineTrackOf idx
  | .fx _ => some 15

def moveCommands (fromTarget : StripTarget) (fromSlot : ℕ) (toTarget : StripTarget) (toSlot : ℕ) :
    List GuiCommand :=
  match toEngineTrack fromTarget, toEngineTrack toTarget with
  | some fromTrack, some toTrack => [.moveExternalPlugin fromTrack fromSlot toTrack toSlot]
  | _, _ => []

/-- Takes a slot out of one chain and puts it into another, or elsewhere into the same one. -/
def moveDevice (st : AppState) (fromTarget : StripTarget) (fromSlot : ℕ) (toTarget : StripTarget)
    (toSlot : ℕ) : AppState × List GuiCommand :=
  let currentLen := ((st.targetEffects fromTarget).getD []).length
  if fromTarget = toTarget ∧
      (fromSlot = toSlot ∨ toSlot = usizeMax ∧ currentLen ≤ fromSlot + 1) then (st, [])
  else
    match (st.targetEffects fromTarget).bind fun effects => effects[fromSlot]? with
    | none => (st, [])
    | some slot =>
      let taken := st.updateEffects (st.place fromTarget) fun effects => effects.eraseIdx fromSlot
      match taken.targetEffects toTarget with
      | none =>
        -- There is no such strip, so the slot goes back.
        (taken.updateEffects (st.place fromTarget) fun effects =>
          effects.insertIdx (min fromSlot effects.length) slot, [])
      | some effects =>
        let dest := min toSlot effects.length
        let placed :=
          taken.updateEffects (st.place toTarget) fun effects => effects.insertIdx dest slot
        let selected :=
          if st.selectedTrackIndex = mixerIndex fromTarget ∧ st.selectedSlotIndex = fromSlot then
            { placed with selectedTrackIndex := mixerIndex toTarget, selectedSlotIndex := dest }
          else placed
        (selected,
          if slot.external.isSome then moveCommands fromTarget fromSlot toTarget dest else [])

/-! ## Parameters -/

def drainParamProbe (st : AppState) (descriptorId : String) (params : List (PluginParamInfo × ℚ)) :
    AppState :=
  let shown := params.map fun param => ExternalParamState.mk param.1 param.2
  st.setBank
    (st.tracks.map fun track =>
      { track with
        effects := track.effects.map fun slot =>
          if slot.external.any fun plugin => plugin.descriptor.id == descriptorId then
            { slot with externalParams := shown }
          else slot })
    st.mode.bank

def commitExternalParam (st : AppState) (trackIdx slotIdx id : ℕ) (value : ℚ) : AppState :=
  st.updateSlot trackIdx slotIdx fun slot => (slot.setExternalParam id value).2

def syncCommand (engineIdx slotIdx : ℕ) (slot : DspSlot) : Option GuiCommand :=
  if slot.external.isSome ∧ slot.pendingExternalParams ≠ [] then
    some (.syncExternalPluginParams engineIdx slotIdx slot.takePendingExternalParams.1)
  else none

def flushSlot (slot : DspSlot) : DspSlot :=
  if slot.external.isSome then slot.takePendingExternalParams.2 else slot

/-- Sends what waits in the slots of the visible tracks, the master's apart. -/
def flushPendingExternalParams (st : AppState) : AppState × List GuiCommand :=
  (st.setBank
      (st.tracks.mapIdx fun trackIdx track =>
        if (engineTrackOf trackIdx).isSome then { track with effects := track.effects.map flushSlot }
        else track)
      st.mode.bank,
    st.tracks.zipIdx.flatMap fun (track, trackIdx) =>
      match engineTrackOf trackIdx with
      | none => []
      | some engineIdx =>
        track.effects.zipIdx.filterMap fun (slot, slotIdx) => syncCommand engineIdx slotIdx slot)

end AppState

end HikaruOpenLive.Gui
