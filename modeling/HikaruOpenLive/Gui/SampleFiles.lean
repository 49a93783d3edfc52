import HikaruOpenLive.Gui.ClipRoundTrip
import HikaruOpenLive.Gui.ProjectDocuments

/-! # The sample files that opening a document reads

`samplePaths` are the files that the clips of a document are decoded from when it is opened. What is
opened depends on the disk through these files alone (`appliedMatrix_congr`, `appliedTimeline_congr`): a
MIDI clip reads none for its sound, whatever its path.
-/
set_option autoImplicit false

namespace HikaruOpenLive.Gui

variable {disk disk' : Disk} {baseDir : Option String}

/-- The file of an audio clip, and those of the events. -/
def OpenLiveFile.Clip.samplePaths (baseDir : Option String) (saved : OpenLiveFile.Clip) : List String :=
  (if saved.midiNotes ≠ [] ∨ isMidiFile (resolvePath baseDir saved.path) then []
    else [resolvePath baseDir saved.path]) ++
  saved.events.map fun e => resolvePath baseDir e.sourcePath

theorem decodeAudioFile_congr {path : String} (h : disk path = disk' path) :
    decodeAudioFile disk path = decodeAudioFile disk' path := by
  unfold decodeAudioFile
  rw [h]

theorem loadSampleInfo_congr {path : String} (h : disk path = disk' path) (ppqn : ℕ) (bpm : ℚ) :
    loadSampleInfo disk path ppqn bpm = loadSampleInfo disk' path ppqn bpm := by
  unfold loadSampleInfo
  rw [h]

theorem pushBaseSample_congr {clip : MatrixClip} (h : disk clip.path = disk' clip.path) :
    clip.pushBaseSample disk = clip.pushBaseSample disk' := by
  unfold MatrixClip.pushBaseSample
  rw [decodeAudioFile_congr h]

theorem filterMap_buildEvent_congr {events : List OpenLiveFile.Event}
    (h : ∀ e ∈ events, disk (resolvePath baseDir e.sourcePath) = disk' (resolvePath baseDir e.sourcePath)) :
    events.filterMap (buildEvent disk baseDir) = events.filterMap (buildEvent disk' baseDir) := by
  refine List.filterMap_congr fun e he => ?_
  unfold buildEvent
  dsimp only
  rw [decodeAudioFile_congr (h e he)]

/-- What becomes of a clip depends on the disk through its sample files alone. -/
theorem buildClip_congr {saved : OpenLiveFile.Clip}
    (h : ∀ p ∈ saved.samplePaths baseDir, disk p = disk' p) :
    buildClip disk baseDir saved = buildClip disk' baseDir saved := by
  unfold OpenLiveFile.Clip.samplePaths at h
  by_cases hmidi : saved.midiNotes ≠ [] ∨ isMidiFile (resolvePath baseDir saved.path) = true
  · rw [buildClip_midi disk baseDir hmidi, buildClip_midi disk' baseDir hmidi]
  · rw [if_neg hmidi] at h
    have hpath := h _ List.mem_cons_self
    have hevents := filterMap_buildEvent_congr fun e he =>
      h _ (List.mem_append_right _ (List.mem_map_of_mem he))
    unfold buildClip
    simp only [if_neg hmidi, hevents]
    split
    case isTrue => exact pushBaseSample_congr hpath
    case isFalse => rfl

namespace OpenLiveFile.Document

/-- A matrix without tracks or without scenes is not built from the file. -/
def samplePaths (doc : OpenLiveFile.Document) (baseDir : Option String) : List String :=
  if doc.matrix.tracks ≠ [] ∧ doc.matrix.scenes ≠ [] then
    doc.matrix.grid.flatMap fun row => row.flatMap fun slot =>
      slot.toList.flatMap (OpenLiveFile.Clip.samplePaths baseDir)
  else []

theorem appliedMatrix_congr {doc : OpenLiveFile.Document}
    (h : ∀ p ∈ doc.samplePaths baseDir, disk p = disk' p) :
    appliedMatrix disk baseDir doc.matrix = appliedMatrix disk' baseDir doc.matrix := by
  unfold appliedMatrix appliedGrid
  unfold samplePaths at h
  by_cases hdims : doc.matrix.tracks ≠ [] ∧ doc.matrix.scenes ≠ []
  · rw [if_pos hdims] at h
    simp only [if_pos hdims]
    have hgrid : (doc.matrix.grid.map fun row => row.map fun slot =>
          (⟨if slot.isSome then .stopped else .empty, slot.map (buildClip disk baseDir)⟩ : MatrixSlot)) =
        doc.matrix.grid.map fun row => row.map fun slot =>
          ⟨if slot.isSome then .stopped else .empty, slot.map (buildClip disk' baseDir)⟩ := by
      refine List.map_congr_left fun row hrow => List.map_congr_left fun slot hslot => ?_
      cases slot with
      | none => rfl
      | some saved =>
        have hclip : buildClip disk baseDir saved = buildClip disk' baseDir saved := by
          refine buildClip_congr fun p hp => h p ?_
          refine List.mem_flatMap.mpr ⟨row, hrow, List.mem_flatMap.mpr ⟨some saved, hslot, ?_⟩⟩
          simpa using hp
        simp only [Option.map_some, hclip]
    rw [hgrid]
  · simp only [if_neg hdims]

end OpenLiveFile.Document

namespace OpenStudioFile

def ClipKind.samplePaths (baseDir : Option String) : ClipKind → List String
  | .audio samplePath _ _ => [resolvePath baseDir samplePath]
  | _ => []

/-- The clips of the rows that there is a strip for when the playlist is applied. -/
def Document.samplePaths (doc : Document) (strips : ℕ) (baseDir : Option String) : List String :=
  (doc.playlist.clips.filter fun x => decide (x.1 < strips)).flatMap fun x =>
    x.2.kind.samplePaths baseDir

theorem Document.appliedTimeline_congr {doc : Document} {strips : ℕ} (bpm : ℚ)
    (h : ∀ p ∈ doc.samplePaths strips baseDir, disk p = disk' p) :
    appliedTimeline disk baseDir bpm strips doc.playlist =
      appliedTimeline disk' baseDir bpm strips doc.playlist := by
  unfold appliedTimeline
  have hclips : ((doc.playlist.clips.filter fun x => decide (x.1 < strips)).map fun x =>
        (x.1, buildTimelineClip disk baseDir (max doc.playlist.ppqn 1) bpm x.2)) =
      (doc.playlist.clips.filter fun x => decide (x.1 < strips)).map fun x =>
        (x.1, buildTimelineClip disk' baseDir (max doc.playlist.ppqn 1) bpm x.2) := by
    refine List.map_congr_left fun x hx => ?_
    have hpath : ∀ p ∈ x.2.kind.samplePaths baseDir, disk p = disk' p := fun p hp =>
      h p (List.mem_flatMap.mpr ⟨x, hx, hp⟩)
    unfold buildTimelineClip buildType
    cases hkind : x.2.kind with
    | pattern patternId => rfl
    | audio samplePath offset total =>
      rw [hkind] at hpath
      simp only [loadSampleInfo_congr (hpath _ List.mem_cons_self)]
    | automation points targetParam => rfl
  simp only [hclips]

end OpenStudioFile

end HikaruOpenLive.Gui
