import HikaruOpenLive.Cli.Validator
import HikaruOpenLive.Gui.DocumentRepairs

/-! # Documents without an error

What opening a document makes of it once the command line has found no error in it.
-/
set_option autoImplicit false

namespace HikaruOpenLive.Cli

open Gui

theorem isRectangular_iff (m : OpenLiveFile.Matrix) :
    isRectangular m = true ↔
      m.grid.length = m.tracks.length ∧ ∀ row ∈ m.grid, row.length = m.scenes.length := by
  unfold isRectangular
  rw [Bool.and_eq_true, decide_eq_true_eq, List.all_eq_true]
  simp only [decide_eq_true_eq]

theorem ne_nil_of_master {tracks : List ProjectFile.Track}
    (h : tracks.any ProjectFile.Track.isMaster = true) : tracks ≠ [] := by
  rintro rfl
  exact nomatch h

section

variable (toLowercase : String → String) (onDisk : String → Bool) (base : Option String) (disk : Disk)
  (baseDir : Option String) (s : ProjectState)

/-- A live document without an error keeps its clips in a rectangular matrix if it has a scene or a single
track, and is opened as it is if and only if nothing else of it needs a repair. -/
theorem openlive_of_passes {doc : OpenLiveFile.Document} (h : Passes (validateOpenlive onDisk base doc)) :
    ((doc.matrix.scenes ≠ [] ∨ doc.matrix.tracks.length ≤ 1) →
      ((doc.opened toLowercase disk baseDir s).matrix.matrix.grid.map fun row => row.map fun slot =>
          slot.clip.map fun clip => clip.withoutSamples.withoutContent) =
          (doc.matrix.grid.map fun row => row.map fun slot =>
            slot.map fun saved => (saved.asSaved baseDir).withoutContent) ∧
        (doc.opened toLowercase disk baseDir s).matrix.matrix.IsRectangular) ∧
      (doc.OpensAsIs toLowercase disk baseDir s ↔ doc.NeedsNoRepair toLowercase disk baseDir) := by
  obtain ⟨_, hbeats, hgrid, hmaster⟩ := passes_openlive h
  obtain ⟨hrows, hwidth⟩ := (isRectangular_iff doc.matrix).mp hgrid
  exact ⟨doc.clips_rectangular_opened toLowercase disk baseDir s hrows hwidth,
    OpenLiveFile.Document.opensAsIs_iff toLowercase disk baseDir s hbeats hrows hwidth
      (ne_nil_of_master hmaster)⟩

/-- A studio document without an error keeps its clips unless their rows are looked up among fewer live
strips, and is opened as it is if and only if nothing else of it needs a repair. -/
theorem openstudio_of_passes {doc : OpenStudioFile.Document}
    (h : Passes (validateOpenstudio onDisk base doc)) :
    ((s.mode = .openLive → ∀ x ∈ doc.playlist.clips, x.1 < s.liveTracks.length) →
      (doc.openedTimeline toLowercase disk baseDir s).clips.map (fun x => (x.1, x.2.id)) =
        doc.playlist.clips.map fun x => (x.1, x.2.id)) ∧
      (doc.OpensAsIs toLowercase disk baseDir s ↔ doc.NeedsNoRepair s) := by
  obtain ⟨_, hbeats, hdivision, hppqn, hrows, hmaster⟩ := passes_openstudio h
  exact ⟨OpenStudioFile.Document.keys_openedTimeline toLowercase disk baseDir s hrows,
    OpenStudioFile.Document.opensAsIs_iff toLowercase disk baseDir s hbeats hdivision hppqn hrows
      (ne_nil_of_master hmaster)⟩

end

/-! ## A session and a song -/

def masterTrack : ProjectFile.Track :=
  { id := 0, name := "MASTER", volume := 7 / 10, pan := 0, panMode := 0, mute := false, solo := false
    arm := false, isMaster := true, routeDestinationId := 0, sends := [], effects := [], matrixIdx := none }

def drums : ProjectFile.Track :=
  { masterTrack with id := 1, name := "Drums", isMaster := false, matrixIdx := some 0 }

/-- A clip of one note, without a file. -/
def kick : OpenLiveFile.Clip :=
  { id := 1, name := "Kick", path := "", loopStart := 0, loopEnd := 960, loopEnabled := true
    volume := 3 / 4, pan := 0, mute := false, events := [], midiNotes := [(0, 36, 100, 240)] }

/-- A drum loop, and only its second half is heard. -/
def breakbeat : OpenLiveFile.Clip :=
  { kick with
    id := 2, name := "Break", path := "/loops/break.wav", midiNotes := []
    events := [⟨1, "break", "/loops/break.wav", 0, 1, 1, 1, 0, 0⟩] }

/-- One track with a clip for each of its two scenes. -/
def session (bpm : ℚ) : OpenLiveFile.Document :=
  { formatVersion := 1, transport := ⟨bpm, (4, 4), "1/16", 0, 0, false⟩
    masterVolume := 7 / 10, masterPan := 0, liveTracks := [masterTrack, drums]
    matrix := ⟨[⟨"Drums", false, false, 7 / 10, 0⟩], [⟨"Verse"⟩, ⟨"Chorus"⟩],
      [[some kick, some breakbeat]], 3⟩
    view := 0 }

/-- One pattern on the row behind the master. -/
def song (duration : ℕ) : OpenStudioFile.Document :=
  { formatVersion := 1, transport := ⟨120, 4, 16, 0, 0, false⟩, studioTracks := [masterTrack, drums]
    playlist := ⟨[(1, ⟨1, "Beat", 0, duration, ⟨0, 0, 0, 1⟩, .pattern 0⟩)], 960, 2, 0, 0, false⟩, view := 0 }

def loopOnDisk (path : String) : Bool :=
  path == "/loops/break.wav"

theorem passes_session {bpm : ℚ} (hbpm : 0 < bpm) :
    Passes (validateOpenlive loopOnDisk none (session bpm)) := by
  have hnone : validateBpm bpm = [] := if_neg (not_le.mpr hbpm)
  have hquantization : trim "1/16".toList ≠ [] := by decide +kernel
  have hpads : validatePad loopOnDisk none 3 0 0 kick ++ validatePad loopOnDisk none 3 0 1 breakbeat = [] := by
    decide +kernel
  have hrest : validateOpenlive loopOnDisk none (session bpm) =
      validateBpm bpm ++
        (validatePad loopOnDisk none 3 0 0 kick ++ validatePad loopOnDisk none 3 0 1 breakbeat) := by
    show [] ++ validateBpm bpm ++ [] ++ findIf (trim "1/16".toList = []) .emptyQuantization ++
      [] ++ [] ++ ((validatePad loopOnDisk none 3 0 0 kick ++ []) ++
        ((validatePad loopOnDisk none 3 0 1 breakbeat ++ []) ++ []) ++ []) ++ [] ++ [] = _
    simp only [findIf, if_neg hquantization, List.nil_append, List.append_nil]
  rw [hrest, hnone, hpads]
  exact List.forall_mem_nil _

theorem passes_song (duration : ℕ) : Passes (validateOpenstudio (fun _ => false) none (song duration)) := by
  have hnone : validateOpenstudio (fun _ => false) none (song duration) = [] := by
    show [] ++ validateBpm 120 ++ [] ++ [] ++ [] ++ [] ++ [] ++ [] = []
    decide +kernel
  rw [hnone]
  exact List.forall_mem_nil _

/-- Both clips are kept: the one has notes and no events, the other an event that is decoded. -/
theorem keepsContent_session {clip : OpenLiveFile.Clip} (h : some clip ∈ [some kick, some breakbeat]) :
    clip.KeepsContent loopDisk none := by
  obtain rfl | rfl : clip = kick ∨ clip = breakbeat := by simpa using h
  · exact rfl
  · have hsound : ¬ (breakbeat.midiNotes ≠ [] ∨
        isMidiFile (resolvePath none breakbeat.path) = true) := by decide +kernel
    unfold OpenLiveFile.Clip.KeepsContent
    rw [if_neg hsound]
    refine ⟨fun e he => ?_, fun hnil => nomatch hnil⟩
    obtain rfl := List.mem_singleton.mp he
    decide +kernel

end HikaruOpenLive.Cli
