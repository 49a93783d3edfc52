import HikaruOpenLive.Foundations.Lowercase
import HikaruOpenLive.Gui.MixerTracks

/-! # The identity of a plugin, scanned and opened again

A scan names a plugin by its format and its canonical path. A project keeps the path the plugin was found
at, and when it is opened the plugin is named by that path, in lower case. The two names are one where the
canonical path reads as the other in lower case (`keepsPlugin_iff`).
-/
set_option autoImplicit false

namespace HikaruOpenLive.Gui

open Engine Foundations.Lowercase

def formatTag : PluginFormat → String
  | .vst3 => "vst3"
  | .clap => "clap"

section

variable {P : Type} (display : P → String) (canonicalize : P → Option P)

/-- The canonical path, or the path itself where there is none, as it reads. -/
def canonicalText (path : P) : String :=
  display ((canonicalize path).getD path)

def descriptorId (format : PluginFormat) (path : P) : String :=
  formatTag format ++ ":" ++ canonicalText display canonicalize path

/-- What the scan tells of a candidate, under the name that it finds for it. -/
def scannedDescriptor (name : String) (format : PluginFormat) (path : P) : PluginDescriptor :=
  { id := descriptorId display canonicalize format path, name := name, path := display path
    format := format }

end

/-- The part of a reference behind its first colon, or all of it. -/
def behindColon (referencia : String) : String :=
  match referencia.toList.dropWhile (· ≠ ':') with
  | [] => referencia
  | _ :: ruta => String.ofList ruta

/-- The plugin of a scan that a reference means: by its name, or else by its path. -/
def resolve (plugins : List PluginDescriptor) (referencia : String) : Option PluginDescriptor :=
  match plugins.find? fun p => p.id = referencia with
  | some encontrado => some encontrado
  | none => plugins.find? fun p => p.path = behindColon referencia

/-- Saved and opened again, the slot `j` of a track holds a plugin by the name of `d`, and by that name
every scan gives the same. -/
def KeepsPlugin (tables : CharTables) (t : MixerTrack) (j : ℕ) (d : PluginDescriptor) : Prop :=
  ∃ slot d', (buildTrack tables.toLowercase (captureTrack t)).effects[j]? = some slot ∧
    slot.external = some d' ∧ d'.id = d.id ∧
      ∀ plugins, resolve plugins d'.id = resolve plugins d.id

theorem toLowercase_formatName (tables : CharTables) (format : PluginFormat) (path : String) :
    tables.toLowercase (formatName format ++ ":" ++ path) =
      formatTag format ++ ":" ++ tables.toLowercaseBehind (formatName format ++ ":") path := by
  cases format with
  | vst3 => exact tables.toLowercase_append "VST3:" (by decide) path
  | clap => exact tables.toLowercase_append "CLAP:" (by decide) path

/-- The plugin that a saved slot is opened with. -/
theorem buildExternal_captureSlot (tables : CharTables) {e : RackSlot} {d : PluginDescriptor}
    (hd : e.external = some d) :
    buildExternal tables.toLowercase (captureSlot e) =
      if d.path = "" then none
      else some
        { id := formatTag d.format ++ ":" ++ tables.toLowercaseBehind (formatName d.format ++ ":") d.path
          name := e.name, path := d.path, format := d.format } := by
  have hformat : buildFormat (some (formatName d.format)) = d.format := by
    cases d.format with
    | vst3 => rfl
    | clap => rfl
  unfold buildExternal captureSlot
  simp only [hd, Option.map_some, hformat, toLowercase_formatName]
  by_cases hempty : d.path = ""
  · simp [hempty, Option.filter]
  · simp [hempty, Option.filter]

section

variable (tables : CharTables) {P : Type} (display : P → String) (canonicalize : P → Option P)

/-- A scanned plugin keeps its name if and only if its canonical path reads as the path it was found at in
lower case, behind the name of its format. -/
theorem keepsPlugin_iff (t : MixerTrack) (j : ℕ) (e : RackSlot) (name : String) (format : PluginFormat) (path : P)
    (hslot : t.effects[j]? = some e)
    (hscanned : e.external = some (scannedDescriptor display canonicalize name format path)) :
    KeepsPlugin tables t j (scannedDescriptor display canonicalize name format path) ↔
      display path ≠ "" ∧ canonicalText display canonicalize path =
        tables.toLowercaseBehind (formatName format ++ ":") (display path) := by
  have hbuilt : (buildTrack tables.toLowercase (captureTrack t)).effects[j]? =
      some (buildSlot tables.toLowercase (captureSlot e)) := by
    simp only [buildTrack, captureTrack, List.getElem?_map, hslot, Option.map_some]
  have hexternal := buildExternal_captureSlot tables hscanned
  have hname : formatTag format ++ ":" ++ tables.toLowercaseBehind (formatName format ++ ":") (display path) =
      (scannedDescriptor display canonicalize name format path).id ↔
        canonicalText display canonicalize path =
          tables.toLowercaseBehind (formatName format ++ ":") (display path) := by
    rw [scannedDescriptor, descriptorId, String.append_right_inj]
    exact eq_comm
  rw [← hname]
  constructor
  · rintro ⟨slot, d', hslot', hd', hid, _⟩
    rw [hbuilt] at hslot'
    obtain rfl := Option.some.inj hslot'
    have hd'' : buildExternal tables.toLowercase (captureSlot e) = some d' := hd'
    rw [hexternal] at hd''
    by_cases hempty : (scannedDescriptor display canonicalize name format path).path = ""
    · rw [if_pos hempty] at hd''
      cases hd''
    · rw [if_neg hempty] at hd''
      obtain rfl := Option.some.inj hd''
      exact ⟨hempty, hid⟩
  · rintro ⟨hpath, hid⟩
    have hpath' : (scannedDescriptor display canonicalize name format path).path ≠ "" := hpath
    rw [if_neg hpath'] at hexternal
    refine ⟨_, _, hbuilt, hexternal, hid, fun plugins => ?_⟩
    exact congrArg (resolve plugins) hid

end

/-- A VST3 plugin found where it is, without a link on the way. -/
def serumAt (path : String) : PluginDescriptor :=
  scannedDescriptor id some "Serum" .vst3 path

/-- A track with the plugin in its only slot. -/
def serumTrack (path : String) : MixerTrack :=
  { MixerTrack.new 1 "TRACK 01" false with
    effects := [{ RackSlot.new 0 "Serum" with external := some (serumAt path) }] }

theorem keepsPlugin_lowercase :
    KeepsPlugin .ascii (serumTrack "/usr/lib/vst3/serum.vst3") 0 (serumAt "/usr/lib/vst3/serum.vst3") := by
  refine (keepsPlugin_iff .ascii id some (serumTrack "/usr/lib/vst3/serum.vst3") 0 _ "Serum" .vst3
    "/usr/lib/vst3/serum.vst3" rfl rfl).mpr ⟨by decide, ?_⟩
  rw [CharTables.toLowercaseBehind_ascii .ascii _ (by decide +kernel)]
  decide +kernel

/-- `Serum.vst3` is called `serum.vst3` once the project is opened. -/
theorem not_keepsPlugin_uppercase :
    ¬ ∀ (tables : CharTables) (display : String → String) (canonicalize : String → Option String)
        (t : MixerTrack) (j : ℕ) (e : RackSlot) (name : String) (format : PluginFormat) (path : String),
      t.effects[j]? = some e →
        e.external = some (scannedDescriptor display canonicalize name format path) →
          KeepsPlugin tables t j (scannedDescriptor display canonicalize name format path) := by
  intro h
  obtain ⟨slot, d', hslot, hd', hid, _⟩ := h .ascii id some (serumTrack "/usr/lib/vst3/Serum.vst3") 0 _
    "Serum" .vst3 "/usr/lib/vst3/Serum.vst3" rfl rfl
  have hids : ((buildTrack CharTables.ascii.toLowercase
      (captureTrack (serumTrack "/usr/lib/vst3/Serum.vst3"))).effects[0]?.bind RackSlot.external).map
        PluginDescriptor.id = some "vst3:/usr/lib/vst3/serum.vst3" := by decide +kernel
  rw [hslot, Option.bind_some, hd', Option.map_some, hid] at hids
  exact absurd hids (by decide +kernel)

end HikaruOpenLive.Gui
