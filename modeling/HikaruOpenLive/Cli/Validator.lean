import HikaruOpenLive.Gui.ProjectDocuments

/-! # The validator of the command line

What `validate` finds in a document of either mode. A finding is an error or a warning, and only errors
make the command fail. The notes on what was in order are left out.

Which files there are is a parameter, and so are the ways a string is quoted and a tempo printed in a
message.
-/
set_option autoImplicit false

namespace HikaruOpenLive.Cli

open Gui

inductive Severity where
  | error
  | warning
deriving DecidableEq

/-- Tracks and scenes count from 0 here. -/
inductive Finding where
  | otherVersion (found : ℕ)
  | badBpm (bpm : ℚ)
  | zeroNumerator
  | emptyQuantization
  | zeroBeats
  | zeroDivision
  | reversedLoop (startTicks endTicks : ℕ)
  | notRectangular (tracks scenes rows : ℕ)
  | zeroPpqn
  | padId (id track scene nextClipId : ℕ)
  | missingSample (id track scene : ℕ) (path : String)
  | missingEvent (event : String) (id track scene : ℕ) (path : String)
  | missingPlugin (slot track path : String)
  | missingWavetable (slot track path : String)
  | clipId (id nextClipId : ℕ)
  | missingRow (clip : String) (id row strips : ℕ)
  | missingClipSample (clip : String) (id row : ℕ) (path : String)
  | noMaster
deriving DecidableEq

namespace Finding

def severity : Finding → Severity
  | .otherVersion _ | .padId _ _ _ _ | .missingPlugin _ _ _ | .missingWavetable _ _ _ | .clipId _ _ =>
    .warning
  | _ => .error

def message (quote : String → String) (display : ℚ → String) : Finding → String
  | .otherVersion found =>
    s!"El archivo es de la versión {found} del formato y esta build maneja la 1"
  | .badBpm bpm => s!"El BPM del transporte es {display bpm}: no es un tempo válido."
  | .zeroNumerator => "El numerador del compás es 0: la cuadrícula del compás no existe."
  | .emptyQuantization => "La cuantización de disparo está vacía."
  | .zeroBeats => "El compás tiene 0 pulsos: la cuadrícula del compás no existe."
  | .zeroDivision => "La división del compás es 0: la resolución del secuenciador no existe."
  | .reversedLoop startTicks endTicks =>
    s!"La región de loop global está al revés ({startTicks}..{endTicks})."
  | .notRectangular tracks scenes rows =>
    s!"La Session Matrix no es rectangular: {tracks} pistas, {scenes} escenas " ++
      s!"y una grilla de {rows} filas."
  | .zeroPpqn => "El PPQN del timeline es 0: los ticks no significan nada."
  | .padId id track scene nextClipId =>
    s!"El clip #{id} (pista {track + 1} / escena {scene + 1}) tiene un id mayor o igual a " ++
      s!"next_clip_id ({nextClipId}): la app puede pisarlo al guardar."
  | .missingSample id track scene path =>
    s!"Falta el sample del clip #{id} (pista {track + 1} / escena {scene + 1}): {path}"
  | .missingEvent event id track scene path =>
    s!"Falta el sample del evento {quote event} del clip #{id} " ++
      s!"(pista {track + 1} / escena {scene + 1}): {path}"
  | .missingPlugin slot track path =>
    s!"El plugin {quote slot} de la pista {quote track} no está en disco: {path}"
  | .missingWavetable slot track path =>
    s!"La wavetable {quote slot} de la pista {quote track} no está en disco: {path}"
  | .clipId id nextClipId =>
    s!"El clip #{id} tiene un id mayor o igual a next_clip_id ({nextClipId}): " ++
      "la app puede pisarlo al guardar."
  | .missingRow clip id row strips =>
    s!"El clip {quote clip} (id {id}) apunta a la pista {row} y el proyecto tiene {strips} pistas."
  | .missingClipSample clip id row path =>
    s!"Falta el sample del clip {quote clip} (id {id}, pista {row}): {path}"
  | .noMaster => "No hay ningún canal master: el motor no tiene salida."

end Finding

/-- A finding made under a condition. -/
def findIf (c : Prop) [Decidable c] (f : Finding) : List Finding :=
  if c then [f] else []

section

variable (onDisk : String → Bool) (base : Option String)

/-- A path is looked up where the application would. -/
def resourceExists (raw : String) : Bool :=
  onDisk (resolvePath base raw)

def isMissing (raw : String) : Prop :=
  raw ≠ "" ∧ resourceExists onDisk base raw = false

instance (raw : String) : Decidable (isMissing onDisk base raw) :=
  inferInstanceAs (Decidable (_ ∧ _))

def validateVersion (formatVersion : ℕ) : List Finding :=
  findIf (formatVersion ≠ 1) (.otherVersion formatVersion)

def validateBpm (bpm : ℚ) : List Finding :=
  findIf (bpm ≤ 0) (.badBpm bpm)

def validateLoop (enabled : Bool) (startTicks endTicks : ℕ) : List Finding :=
  findIf (enabled = true ∧ endTicks < startTicks) (.reversedLoop startTicks endTicks)

def validateMaster (tracks : List ProjectFile.Track) : List Finding :=
  findIf (tracks.any ProjectFile.Track.isMaster = false) .noMaster

def isRectangular (m : OpenLiveFile.Matrix) : Bool :=
  decide (m.grid.length = m.tracks.length) && m.grid.all fun row => decide (row.length = m.scenes.length)

def validatePad (nextClipId track scene : ℕ) (clip : OpenLiveFile.Clip) : List Finding :=
  findIf (nextClipId ≤ clip.id) (.padId clip.id track scene nextClipId) ++
    findIf (isMissing onDisk base clip.path) (.missingSample clip.id track scene clip.path) ++
    clip.events.flatMap fun e => findIf (isMissing onDisk base e.sourcePath)
      (.missingEvent e.name clip.id track scene e.sourcePath)

def validateSlot (track : String) (e : ProjectFile.DspSlot) : List Finding :=
  findIf (∃ path ∈ e.pluginPath, isMissing onDisk base path)
      (.missingPlugin e.name track (e.pluginPath.getD "")) ++
    findIf (∃ path ∈ e.wavetablePath, isMissing onDisk base path)
      (.missingWavetable e.name track (e.wavetablePath.getD ""))

def validateOpenlive (doc : OpenLiveFile.Document) : List Finding :=
  validateVersion doc.formatVersion ++
    validateBpm doc.transport.bpm ++
    findIf (doc.transport.timeSignature.1 = 0) .zeroNumerator ++
    findIf (trim doc.transport.launchQuantization.toList = []) .emptyQuantization ++
    validateLoop doc.transport.loopEnabled doc.transport.loopStartTicks doc.transport.loopEndTicks ++
    findIf (isRectangular doc.matrix = false)
      (.notRectangular doc.matrix.tracks.length doc.matrix.scenes.length doc.matrix.grid.length) ++
    (doc.matrix.grid.zipIdx.flatMap fun row => row.1.zipIdx.flatMap fun slot =>
      slot.1.toList.flatMap (validatePad onDisk base doc.matrix.nextClipId row.2 slot.2)) ++
    (doc.liveTracks.flatMap fun t => t.effects.flatMap (validateSlot onDisk base t.name)) ++
    validateMaster doc.liveTracks

def validateClip (nextClipId strips row : ℕ) (clip : OpenStudioFile.PlaylistClipSaved) : List Finding :=
  findIf (nextClipId ≤ clip.id) (.clipId clip.id nextClipId) ++
    findIf (strips ≤ row) (.missingRow clip.name clip.id row strips) ++
    match clip.kind with
    | .audio path _ _ =>
      findIf (isMissing onDisk base path) (.missingClipSample clip.name clip.id row path)
    | _ => []

def validateOpenstudio (doc : OpenStudioFile.Document) : List Finding :=
  validateVersion doc.formatVersion ++
    validateBpm doc.transport.bpm ++
    findIf (doc.transport.beatsPerBar = 0) .zeroBeats ++
    findIf (doc.transport.beatDivision = 0) .zeroDivision ++
    validateLoop doc.transport.loopEnabled doc.transport.loopStartTicks doc.transport.loopEndTicks ++
    findIf (doc.playlist.ppqn = 0) .zeroPpqn ++
    (doc.playlist.clips.flatMap fun x =>
      validateClip onDisk base doc.playlist.nextClipId doc.studioTracks.length x.1 x.2) ++
    validateMaster doc.studioTracks

end

/-! ## What is left to repair -/

/-- No finding is an error. -/
def Passes (findings : List Finding) : Prop :=
  ∀ f ∈ findings, f.severity = .warning

theorem passes_append {as bs : List Finding} : Passes (as ++ bs) ↔ Passes as ∧ Passes bs :=
  List.forall_mem_append

theorem passes_findIf {c : Prop} [Decidable c] {f : Finding} (hf : f.severity = .error) :
    Passes (findIf c f) ↔ ¬ c := by
  unfold Passes findIf
  split
  case isTrue hc => simp [hc, hf]
  case isFalse hc => simp [hc]

theorem passes_flatMap {α : Type} {l : List α} {f : α → List Finding} :
    Passes (l.flatMap f) ↔ ∀ a ∈ l, Passes (f a) := by
  unfold Passes
  simp only [List.mem_flatMap]
  constructor
  · intro h a ha x hx
    exact h x ⟨a, ha, hx⟩
  · rintro h x ⟨a, ha, hx⟩
    exact h a ha x hx

section

variable {onDisk : String → Bool} {base : Option String}

/-- What a live document without an error has in order. -/
theorem passes_openlive {doc : OpenLiveFile.Document} (h : Passes (validateOpenlive onDisk base doc)) :
    0 < doc.transport.bpm ∧ doc.transport.timeSignature.1 ≠ 0 ∧ isRectangular doc.matrix = true ∧
      doc.liveTracks.any ProjectFile.Track.isMaster = true := by
  simp only [validateOpenlive, passes_append] at h
  obtain ⟨⟨⟨⟨⟨⟨⟨⟨_, hbpm⟩, hmeter⟩, _⟩, _⟩, hgrid⟩, _⟩, _⟩, hmaster⟩ := h
  have hbpm' := (passes_findIf rfl).mp hbpm
  have hgrid' := (passes_findIf rfl).mp hgrid
  have hmaster' := (passes_findIf rfl).mp hmaster
  exact ⟨not_le.mp hbpm', (passes_findIf rfl).mp hmeter, Bool.not_eq_false _ ▸ hgrid',
    Bool.not_eq_false _ ▸ hmaster'⟩

/-- What a studio document without an error has in order. -/
theorem passes_openstudio {doc : OpenStudioFile.Document}
    (h : Passes (validateOpenstudio onDisk base doc)) :
    0 < doc.transport.bpm ∧ doc.transport.beatsPerBar ≠ 0 ∧ doc.transport.beatDivision ≠ 0 ∧
      doc.playlist.ppqn ≠ 0 ∧ (∀ x ∈ doc.playlist.clips, x.1 < doc.studioTracks.length) ∧
      doc.studioTracks.any ProjectFile.Track.isMaster = true := by
  simp only [validateOpenstudio, passes_append, passes_flatMap] at h
  obtain ⟨⟨⟨⟨⟨⟨⟨_, hbpm⟩, hbeats⟩, hdivision⟩, _⟩, hppqn⟩, hclips⟩, hmaster⟩ := h
  have hbpm' := (passes_findIf rfl).mp hbpm
  have hmaster' := (passes_findIf rfl).mp hmaster
  refine ⟨not_le.mp hbpm', (passes_findIf rfl).mp hbeats, (passes_findIf rfl).mp hdivision,
    (passes_findIf rfl).mp hppqn, fun x hx => ?_, Bool.not_eq_false _ ▸ hmaster'⟩
  have hclip := hclips x hx
  simp only [validateClip, passes_append] at hclip
  exact not_le.mp ((passes_findIf rfl).mp hclip.1.2)

end

end HikaruOpenLive.Cli
