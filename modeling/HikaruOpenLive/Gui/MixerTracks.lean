import HikaruOpenLive.Foundations.RoundTrip
import HikaruOpenLive.Engine.PluginChains

/-! # The tracks of a project file

A strip of the mixer with all that a project keeps of it, and its form in the file. A slot of the rack is
saved with its name, its bypass, the file of its wavetable and the binary of its external plugin. The
descriptor of a plugin is rebuilt from its path, without opening it.

The editors of a slot and the width of a strip are not saved and left out.
-/
set_option autoImplicit false

namespace HikaruOpenLive.Gui

open Engine Foundations.RoundTrip

inductive PanMode where
  | stereo
  | midSide
deriving DecidableEq

structure SendConnection where
  targetId : ℕ
  amount : ℚ
deriving DecidableEq

/-- A slot of the rack as a project sees it; the path is that of the table in its wavetable editor. -/
structure RackSlot where
  id : ℕ
  name : String
  active : Bool
  wavetablePath : Option String
  external : Option PluginDescriptor
deriving DecidableEq

structure MixerTrack where
  id : ℕ
  name : String
  volume : ℚ
  pan : ℚ
  panMode : PanMode
  mute : Bool
  solo : Bool
  arm : Bool
  isMaster : Bool
  routeDestinationId : ℕ
  sends : List SendConnection
  effects : List RackSlot
  matrixIdx : Option ℕ
deriving DecidableEq

/-- A new slot holds the factory table, which has no file. -/
def RackSlot.new (id : ℕ) (name : String) : RackSlot :=
  { id := id, name := name, active := true, wavetablePath := none, external := none }

def MixerTrack.new (id : ℕ) (name : String) (isMaster : Bool) : MixerTrack :=
  { id := id, name := name, volume := 3 / 4, pan := 0, panMode := .stereo, mute := false
    solo := false, arm := false, isMaster := isMaster, routeDestinationId := 0, sends := []
    effects := [], matrixIdx := none }

namespace ProjectFile

structure Send where
  targetId : ℕ
  amount : ℚ
deriving DecidableEq

structure DspSlot where
  id : ℕ
  name : String
  active : Bool
  wavetablePath : Option String
  pluginPath : Option String
  pluginFormat : Option String
deriving DecidableEq

/-- The pan mode is 0 for stereo and 1 for mid/side. -/
structure Track where
  id : ℕ
  name : String
  volume : ℚ
  pan : ℚ
  panMode : ℕ
  mute : Bool
  solo : Bool
  arm : Bool
  isMaster : Bool
  routeDestinationId : ℕ
  sends : List Send
  effects : List DspSlot
  matrixIdx : Option ℕ
deriving DecidableEq

end ProjectFile

/-! ## Capture -/

def captureSend (s : SendConnection) : ProjectFile.Send :=
  ⟨s.targetId, s.amount⟩

def formatName : PluginFormat → String
  | .vst3 => "VST3"
  | .clap => "CLAP"

def captureSlot (e : RackSlot) : ProjectFile.DspSlot :=
  { id := e.id, name := e.name, active := e.active, wavetablePath := e.wavetablePath
    pluginPath := e.external.map PluginDescriptor.path
    pluginFormat := e.external.map fun p => formatName p.format }

def capturePanMode : PanMode → ℕ
  | .stereo => 0
  | .midSide => 1

def captureTrack (t : MixerTrack) : ProjectFile.Track :=
  { id := t.id, name := t.name, volume := t.volume, pan := t.pan
    panMode := capturePanMode t.panMode, mute := t.mute, solo := t.solo, arm := t.arm
    isMaster := t.isMaster, routeDestinationId := t.routeDestinationId
    sends := t.sends.map captureSend, effects := t.effects.map captureSlot
    matrixIdx := t.matrixIdx }

/-! ## Load -/

def buildSend (s : ProjectFile.Send) : SendConnection :=
  ⟨s.targetId, s.amount⟩

def buildPanMode (panMode : ℕ) : PanMode :=
  if panMode = 1 then .midSide else .stereo

/-- VST3 is what the projects without a format mean. -/
def buildFormat (pluginFormat : Option String) : PluginFormat :=
  if pluginFormat = some "CLAP" then .clap else .vst3

section

variable (toLowercase : String → String)

/-- The descriptor of a saved plugin; an empty path is none. -/
def buildExternal (e : ProjectFile.DspSlot) : Option PluginDescriptor :=
  (e.pluginPath.filter (· ≠ "")).map fun path =>
    let format := buildFormat e.pluginFormat
    { id := toLowercase (formatName format ++ ":" ++ path), name := e.name, path := path
      format := format }

def buildSlot (e : ProjectFile.DspSlot) : RackSlot :=
  { RackSlot.new e.id e.name with active := e.active, external := buildExternal toLowercase e }

def buildTrack (t : ProjectFile.Track) : MixerTrack :=
  { MixerTrack.new t.id t.name t.isMaster with
    volume := t.volume, pan := t.pan, panMode := buildPanMode t.panMode, mute := t.mute
    solo := t.solo, arm := t.arm, routeDestinationId := t.routeDestinationId
    matrixIdx := t.matrixIdx, sends := t.sends.map buildSend
    effects := t.effects.map (buildSlot toLowercase) }

/-! ## What comes back -/

/-- The reference to a plugin is whole: both its path and a known format, or neither. -/
def ProjectFile.DspSlot.WholeReference (e : ProjectFile.DspSlot) : Prop :=
  match e.pluginPath, e.pluginFormat with
  | none, none => True
  | some path, some format => path ≠ "" ∧ (format = "VST3" ∨ format = "CLAP")
  | _, _ => False

theorem kept_reference_iff (e : ProjectFile.DspSlot) :
    ((buildExternal toLowercase e).map PluginDescriptor.path = e.pluginPath ∧
      ((buildExternal toLowercase e).map fun p => formatName p.format) = e.pluginFormat) ↔
      e.WholeReference := by
  unfold buildExternal ProjectFile.DspSlot.WholeReference
  cases hpath : e.pluginPath with
  | none =>
    cases e.pluginFormat with
    | none => simp
    | some format => simp
  | some path =>
    by_cases hempty : path = ""
    · cases e.pluginFormat with
      | none => simp [Option.filter, hempty]
      | some format => simp [Option.filter, hempty]
    · cases e.pluginFormat with
      | none => simp [Option.filter, hempty]
      | some format =>
        by_cases hclap : format = "CLAP"
        · simp [Option.filter, hempty, hclap, buildFormat, formatName]
        · simp [Option.filter, hempty, hclap, buildFormat, formatName, eq_comm]

/-- A saved slot comes back if it has no wavetable of its own and a whole reference to its plugin. -/
theorem kept_slot_iff (e : ProjectFile.DspSlot) :
    Kept (buildSlot toLowercase) captureSlot e ↔ e.wavetablePath = none ∧ e.WholeReference := by
  rw [← kept_reference_iff toLowercase]
  show captureSlot (buildSlot toLowercase e) = e ↔ _
  simp only [captureSlot, buildSlot, RackSlot.new]
  constructor
  · intro h
    have hwavetable := congrArg ProjectFile.DspSlot.wavetablePath h
    have hpath := congrArg ProjectFile.DspSlot.pluginPath h
    have hformat := congrArg ProjectFile.DspSlot.pluginFormat h
    exact ⟨hwavetable.symm, hpath, hformat⟩
  · rintro ⟨hwavetable, hpath, hformat⟩
    rw [hpath, hformat, ← hwavetable]

theorem kept_panMode_iff (panMode : ℕ) :
    Kept buildPanMode capturePanMode panMode ↔ panMode ≤ 1 := by
  unfold Kept buildPanMode
  by_cases hone : panMode = 1
  · rw [if_pos hone, hone]
    exact iff_of_true rfl (Nat.le_refl 1)
  · rw [if_neg hone]
    show 0 = panMode ↔ panMode ≤ 1
    omega

theorem kept_send (s : ProjectFile.Send) : Kept buildSend captureSend s :=
  rfl

theorem kept_track_iff (t : ProjectFile.Track) :
    Kept (buildTrack toLowercase) captureTrack t ↔
      t.panMode ≤ 1 ∧ ∀ e ∈ t.effects, e.wavetablePath = none ∧ e.WholeReference := by
  have hsends : (t.sends.map buildSend).map captureSend = t.sends := kept_map kept_send t.sends
  have heffects : (t.effects.map (buildSlot toLowercase)).map captureSlot = t.effects ↔
      ∀ e ∈ t.effects, e.wavetablePath = none ∧ e.WholeReference := by
    rw [← forall₂_congr fun e _ => kept_slot_iff toLowercase e]
    exact kept_map_iff t.effects
  rw [← heffects, ← kept_panMode_iff]
  constructor
  · intro h
    exact ⟨congrArg ProjectFile.Track.panMode h, congrArg ProjectFile.Track.effects h⟩
  · rintro ⟨hmode, hslots⟩
    have hmode' : capturePanMode (buildPanMode t.panMode) = t.panMode := hmode
    show captureTrack (buildTrack toLowercase t) = t
    simp only [captureTrack, buildTrack, MixerTrack.new, hmode', hsends, hslots]

/-- A track comes back from being loaded and saved if and only if each of its slots has no wavetable of
its own and a whole reference to its plugin, or to none. -/
theorem captureTrack_buildTrack_iff (t : ProjectFile.Track) (hpan : t.panMode ≤ 1) :
    captureTrack (buildTrack toLowercase t) = t ↔
      ∀ e ∈ t.effects, e.wavetablePath = none ∧ e.WholeReference :=
  (kept_track_iff toLowercase t).trans (and_iff_right hpan)

theorem wholeReference_captureSlot (e : RackSlot) :
    (captureSlot e).WholeReference ↔ ∀ p, e.external = some p → p.path ≠ "" := by
  unfold ProjectFile.DspSlot.WholeReference captureSlot
  cases hexternal : e.external with
  | none => simp
  | some p =>
    cases hformat : p.format with
    | vst3 => simp [hformat, formatName]
    | clap => simp [hformat, formatName]

/-- What a strip was saved as comes back if and only if no wavetable in its rack has a file. -/
theorem recapture_iff (t : MixerTrack) (hplugins : ∀ e ∈ t.effects, ∀ p, e.external = some p → p.path ≠ "") :
    captureTrack (buildTrack toLowercase (captureTrack t)) = captureTrack t ↔
      ∀ e ∈ t.effects, e.wavetablePath = none := by
  have hpan : (captureTrack t).panMode ≤ 1 := by
    show capturePanMode t.panMode ≤ 1
    cases t.panMode with
    | stereo => exact Nat.zero_le 1
    | midSide => exact Nat.le_refl 1
  refine ((kept_track_iff toLowercase (captureTrack t)).trans (and_iff_right hpan)).trans ?_
  show (∀ e ∈ t.effects.map captureSlot, _) ↔ _
  rw [List.forall_mem_map]
  constructor
  · intro h e he
    exact (h e he).1
  · intro h e he
    exact ⟨h e he, (wholeReference_captureSlot e).mpr (hplugins e he)⟩

/-- A strip loaded from what it was saved as differs from it in its rack alone. -/
theorem buildTrack_captureTrack (t : MixerTrack) :
    buildTrack toLowercase (captureTrack t) =
      { t with effects := t.effects.map fun e => buildSlot toLowercase (captureSlot e) } := by
  have hpan : Kept capturePanMode buildPanMode t.panMode := by
    cases t.panMode with
    | stereo => rfl
    | midSide => rfl
  have hsend : ∀ s, Kept captureSend buildSend s := fun _ => rfl
  have hsends : (t.sends.map captureSend).map buildSend = t.sends := kept_map hsend t.sends
  show { MixerTrack.new t.id t.name t.isMaster with
    volume := t.volume, pan := t.pan, panMode := buildPanMode (capturePanMode t.panMode)
    mute := t.mute, solo := t.solo, arm := t.arm, routeDestinationId := t.routeDestinationId
    matrixIdx := t.matrixIdx, sends := (t.sends.map captureSend).map buildSend
    effects := (t.effects.map captureSlot).map (buildSlot toLowercase) } = _
  have hmode : buildPanMode (capturePanMode t.panMode) = t.panMode := hpan
  rw [hsends, hmode, List.map_map]
  rfl

end

/-- A track with one synthesizer, its bypass off, and the table it was given. -/
def synthTrack (wavetablePath : Option String) : ProjectFile.Track :=
  { id := 1, name := "TRACK 01", volume := 7 / 10, pan := 0, panMode := 1, mute := false, solo := false
    arm := true, isMaster := false, routeDestinationId := 1000, sends := [⟨1000, 1 / 2⟩]
    effects :=
      [{ id := 1, name := "OpenWavetable", active := false, wavetablePath := wavetablePath
         pluginPath := none, pluginFormat := none },
       { id := 2, name := "Reverb", active := true, wavetablePath := none
         pluginPath := some "/plugins/Reverb.clap", pluginFormat := some "CLAP" }]
    matrixIdx := none }

theorem captureTrack_buildTrack_synth :
    captureTrack (buildTrack String.toLower (synthTrack none)) = synthTrack none := by
  refine (captureTrack_buildTrack_iff String.toLower (synthTrack none) (by decide)).mpr ?_
  intro e he
  obtain rfl | rfl : e = _ ∨ e = _ := by simpa [synthTrack] using he
  · exact ⟨rfl, trivial⟩
  · exact ⟨rfl, by decide, Or.inr rfl⟩

/-- The table of the synthesizer is forgotten. -/
theorem captureTrack_buildTrack_table :
    captureTrack (buildTrack String.toLower (synthTrack (some "/tables/Vowels.wav"))) ≠
      synthTrack (some "/tables/Vowels.wav") := by
  intro h
  have heffects := congrArg ProjectFile.Track.effects h
  exact absurd (congrArg (List.map ProjectFile.DspSlot.wavetablePath) heffects) (by decide)

end HikaruOpenLive.Gui
