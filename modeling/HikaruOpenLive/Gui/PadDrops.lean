import HikaruOpenLive.Gui.MirrorApply

/-! # Files dropped on one pad

The first file dropped on a pad stays outside its list of events, which later files are appended to; a pad
with events plays only those. A project saved and applied again turns the first file into an event, and only
then do further files come after it.
-/
set_option autoImplicit false

namespace HikaruOpenLive.Gui

open Engine Foundations.Grid Foundations.Runs SessionMatrixState

variable {ν : Type}

/-! ## Files laid end to end -/

/-- An audio file of the explorer that the pads can decode. -/
def isReadable (disk : Disk) (path : String) : Bool :=
  (decodeAudioFile disk path).isSome && !isMidiFile path && isAbsolute path

def fileSecs (disk : Disk) (path : String) : ℚ :=
  match decodeAudioFile disk path with
  | none => 0
  | some (samples, channels, sampleRate) =>
    if sampleRate = 0 then 0 else ((samples.length / max channels 1 : ℕ) : ℚ) / sampleRate

/-- The event that plays a whole file from a time on. -/
def wholeFile (disk : Disk) (id : ℕ) (path : String) (startSecs : ℚ) : Option AudioEvent :=
  (decodeAudioFile disk path).map fun (samples, channels, sampleRate) =>
    { AudioEvent.newFull id (fileStem path) samples channels sampleRate startSecs with
      sourcePath := some path }

/-- The events play the files, each from where the one before it ends. -/
def LaidFrom (disk : Disk) : ℚ → List String → List AudioEvent → Prop
  | _, [], [] => True
  | at_, path :: paths, e :: events =>
    wholeFile disk e.id path at_ = some e ∧ LaidFrom disk (at_ + fileSecs disk path) paths events
  | _, _, _ => False

def layEnd (disk : Disk) : ℚ → List String → ℚ
  | at_, [] => at_
  | at_, path :: paths => layEnd disk (at_ + fileSecs disk path) paths

theorem fileSecs_nonneg (disk : Disk) (path : String) : 0 ≤ fileSecs disk path := by
  unfold fileSecs
  split
  · exact le_rfl
  · split
    · exact le_rfl
    · exact div_nonneg (Nat.cast_nonneg _) (Nat.cast_nonneg _)

theorem endSecs_wholeFile {disk : Disk} {id : ℕ} {path : String} {startSecs : ℚ} {e : AudioEvent}
    (h : wholeFile disk id path startSecs = some e) : e.endSecs = startSecs + fileSecs disk path := by
  obtain ⟨⟨samples, channels, sampleRate⟩, hdecode, rfl⟩ := Option.map_eq_some_iff.mp h
  unfold AudioEvent.endSecs AudioEvent.durationSecs fileSecs
  rw [hdecode]
  simp only [AudioEvent.newFull, AudioEvent.frames, AudioEvent.totalFrames, Nat.sub_zero, min_self]

theorem laidFrom_append {disk : Disk} {at_ : ℚ} {paths : List String} {events : List AudioEvent}
    (h : LaidFrom disk at_ paths events) {path : String} {e : AudioEvent}
    (he : wholeFile disk e.id path (layEnd disk at_ paths) = some e) :
    LaidFrom disk at_ (paths ++ [path]) (events ++ [e]) := by
  induction paths generalizing at_ events with
  | nil =>
    cases events with
    | nil => exact ⟨he, trivial⟩
    | cons e' events => exact h.elim
  | cons path' paths ih =>
    cases events with
    | nil => exact h.elim
    | cons e' events => exact ⟨h.1, ih h.2 he⟩

/-- The last of the ends is where the files end. -/
theorem foldl_ends {disk : Disk} {at_ : ℚ} {paths : List String} {events : List AudioEvent}
    (h : LaidFrom disk at_ paths events) :
    (events.map AudioEvent.endSecs).foldl max at_ = layEnd disk at_ paths := by
  induction paths generalizing at_ events with
  | nil =>
    cases events with
    | nil => rfl
    | cons e events => exact h.elim
  | cons path paths ih =>
    cases events with
    | nil => exact h.elim
    | cons e events =>
      have hnonneg := fileSecs_nonneg disk path
      have hmax : max at_ (at_ + fileSecs disk path) = at_ + fileSecs disk path := by
        apply max_eq_right
        linarith
      rw [List.map_cons, List.foldl_cons, endSecs_wholeFile h.1, hmax]
      exact ih h.2

theorem audioTotalSecs_laid {disk : Disk} {paths : List String} {g : MatrixClip}
    (h : LaidFrom disk 0 paths g.audioEvents) : g.audioTotalSecs = layEnd disk 0 paths :=
  foldl_ends h

/-! ## Saved and applied again -/

theorem resolvePath_absolute (baseDir : Option String) {path : String} (h : isAbsolute path = true) :
    resolvePath baseDir path = path := by
  unfold resolvePath
  rw [if_pos h]

theorem isReadable_iff {disk : Disk} {path : String} :
    isReadable disk path = true ↔
      (decodeAudioFile disk path).isSome = true ∧ isMidiFile path = false ∧ isAbsolute path = true := by
  unfold isReadable
  simp [and_assoc]

theorem buildEvent_capture {disk : Disk} (baseDir : Option String) {id : ℕ} {path : String}
    {startSecs : ℚ} {e : AudioEvent} (habs : isAbsolute path = true)
    (h : wholeFile disk id path startSecs = some e) :
    (e.capture).bind (buildEvent disk baseDir) = some e := by
  obtain ⟨⟨samples, channels, sampleRate⟩, hdecode, rfl⟩ := Option.map_eq_some_iff.mp h
  unfold AudioEvent.capture buildEvent
  simp only [Option.map_some, Option.bind_some, resolvePath_absolute baseDir habs, hdecode]
  rfl

theorem rebuild_laid {disk : Disk} (baseDir : Option String) {at_ : ℚ} {paths : List String}
    {events : List AudioEvent} (h : LaidFrom disk at_ paths events)
    (habs : ∀ path ∈ paths, isAbsolute path = true) :
    (events.filterMap AudioEvent.capture).filterMap (buildEvent disk baseDir) = events := by
  rw [List.filterMap_filterMap]
  induction paths generalizing at_ events with
  | nil =>
    cases events with
    | nil => rfl
    | cons e events => exact h.elim
  | cons path paths ih =>
    cases events with
    | nil => exact h.elim
    | cons e events =>
      have hone := buildEvent_capture baseDir (habs path List.mem_cons_self) h.1
      simp only [List.filterMap_cons, hone]
      rw [ih h.2 fun p hp => habs p (List.mem_cons_of_mem path hp)]

theorem sourcePath_laid {disk : Disk} {at_ : ℚ} {paths : List String} {events : List AudioEvent}
    (h : LaidFrom disk at_ paths events) : ∀ e ∈ events, ∃ path, e.sourcePath = some path := by
  induction paths generalizing at_ events with
  | nil =>
    cases events with
    | nil => exact fun e he => absurd he List.not_mem_nil
    | cons e events => exact h.elim
  | cons path paths ih =>
    cases events with
    | nil => exact h.elim
    | cons e events =>
      intro e' he'
      obtain rfl | he' := List.mem_cons.mp he'
      · obtain ⟨decoded, _, hfile⟩ := Option.map_eq_some_iff.mp h.1
        exact ⟨path, by rw [← hfile]⟩
      · exact ih h.2 e' he'

/-- The id the next event of a pad gets. -/
def MatrixClip.freshId (g : MatrixClip) : ℕ :=
  match g.content with
  | .audio _ nextEventId => max nextEventId 1
  | .midi _ => 0

/-- The pad's clip plays the files end to end, a single one perhaps without an event; its events are told
apart by their ids. -/
structure OnPad (disk : Disk) (paths : List String) (g : MatrixClip) : Prop where
  laid : (g.audioEvents = [] ∧ paths = [g.path]) ∨ LaidFrom disk 0 paths g.audioEvents
  distinct : (g.audioEvents.map AudioEvent.id).Nodup

/-- A clip of the pad as drops and reloads make it. -/
structure Dropped (disk : Disk) (paths : List String) (g : MatrixClip) : Prop where
  onPad : OnPad disk paths g
  audio : g.isMidi = false
  first : paths.head? = some g.path
  fresh : ∀ e ∈ g.audioEvents, e.id < g.freshId

theorem Dropped.content {disk : Disk} {paths : List String} {g : MatrixClip} (h : Dropped disk paths g) :
    ∃ nextEventId, g.content = .audio g.audioEvents nextEventId := by
  have hmidi := h.audio
  unfold MatrixClip.isMidi at hmidi
  unfold MatrixClip.audioEvents
  cases hcontent : g.content with
  | audio events nextEventId => exact ⟨nextEventId, rfl⟩
  | midi notes => simp [hcontent] at hmidi

/-- A further file on a pad with events comes after what there is. -/
theorem Dropped.append {disk : Disk} {paths : List String} {g : MatrixClip} (h : Dropped disk paths g)
    (hevents : g.audioEvents ≠ []) {path : String} (hdecode : (decodeAudioFile disk path).isSome)
    (track scene : ℕ) :
    Dropped disk (paths ++ [path]) (g.appendSampleAsEvent disk track scene path).1 ∧
      (g.appendSampleAsEvent disk track scene path).2 = [.setClipEvents track scene
        ((g.appendSampleAsEvent disk track scene path).1.audioEvents.map AudioEvent.payload)] ∧
      (g.appendSampleAsEvent disk track scene path).1.audioEvents ≠ [] := by
  obtain ⟨nextEventId, hcontent⟩ := h.content
  obtain ⟨⟨samples, channels, sampleRate⟩, hdecode⟩ := Option.isSome_iff_exists.mp hdecode
  let event : AudioEvent :=
    { AudioEvent.newFull (max nextEventId 1) (fileStem path) samples channels sampleRate
        g.audioTotalSecs with sourcePath := some path }
  let appended : MatrixClip :=
    { g with content := .audio (g.audioEvents ++ [event]) (max nextEventId 1 + 1) }
  have hpush : g.appendSampleAsEvent disk track scene path =
      (appended, [.setClipEvents track scene (appended.audioEvents.map AudioEvent.payload)]) :=
    MatrixClip.appendSampleAsEvent_decoded hcontent hdecode track scene
  have hlaid : LaidFrom disk 0 paths g.audioEvents := by
    obtain ⟨hnil, _⟩ | hlaid := h.onPad.laid
    · exact absurd hnil hevents
    · exact hlaid
  have hevent : wholeFile disk event.id path (layEnd disk 0 paths) = some event := by
    rw [wholeFile, hdecode, ← audioTotalSecs_laid hlaid]
    rfl
  have hfresh : ∀ e ∈ g.audioEvents, e.id < max nextEventId 1 := by
    intro e he
    have hlt := h.fresh e he
    rw [MatrixClip.freshId, hcontent] at hlt
    exact hlt
  rw [hpush]
  refine ⟨⟨⟨Or.inr (laidFrom_append hlaid hevent), ?_⟩, rfl, ?_, ?_⟩, rfl, ?_⟩
  · have hids : appended.audioEvents.map AudioEvent.id =
        g.audioEvents.map AudioEvent.id ++ [max nextEventId 1] := by
      simp [appended, MatrixClip.audioEvents, event, AudioEvent.newFull]
    rw [hids, List.nodup_append]
    refine ⟨h.onPad.distinct, by simp, ?_⟩
    intro id hid id' hid'
    obtain ⟨e, he, rfl⟩ := List.mem_map.mp hid
    rw [List.mem_singleton.mp hid']
    exact (hfresh e he).ne
  · rw [List.head?_append, h.first]
    rfl
  · intro e he
    have hfreshId : appended.freshId = max nextEventId 1 + 1 := by
      simp [appended, MatrixClip.freshId]
    rw [hfreshId]
    obtain he | he := List.mem_append.mp he
    · exact Nat.lt_succ_of_lt (hfresh e he)
    · rw [List.mem_singleton.mp he]
      exact Nat.lt_succ_self _
  · simp [appended, MatrixClip.audioEvents]

/-- What a clip of an audio file is built into from what is saved of it. -/
theorem buildClip_audio {disk : Disk} {g : MatrixClip} (baseDir : Option String)
    (hmidi : isMidiFile g.path = false) (habs : isAbsolute g.path = true) {nextEventId : ℕ}
    (hcontent : g.content = .audio g.audioEvents nextEventId) {events : List AudioEvent} {next : ℕ}
    (hevents : (g.audioEvents.filterMap AudioEvent.capture).filterMap (buildEvent disk baseDir) = events)
    (hnext : ((((g.audioEvents.filterMap AudioEvent.capture).map fun e => e.id + 1).max?).getD 1) = next) :
    buildClip disk baseDir (captureClip g) =
      if events = [] then ({ g with content := .audio events next } : MatrixClip).pushBaseSample disk
      else { g with content := .audio events next } := by
  subst hevents hnext
  unfold buildClip captureClip
  simp only [resolvePath_absolute baseDir habs, hmidi]
  rw [hcontent]
  rfl

/-- The file outside the list becomes its first event. -/
theorem buildClip_single {disk : Disk} {g : MatrixClip} (baseDir : Option String)
    (hmidi : isMidiFile g.path = false) (habs : isAbsolute g.path = true) {nextEventId : ℕ}
    (hcontent : g.content = .audio [] nextEventId) {e : AudioEvent}
    (he : wholeFile disk 1 g.path 0 = some e) :
    buildClip disk baseDir (captureClip g) = { g with content := .audio [e] 2 } := by
  have hnil : g.audioEvents = [] := by rw [MatrixClip.audioEvents, hcontent]
  obtain ⟨⟨samples, channels, sampleRate⟩, hdecode, rfl⟩ := Option.map_eq_some_iff.mp he
  have hevents : (g.audioEvents.filterMap AudioEvent.capture).filterMap (buildEvent disk baseDir) = [] := by
    rw [hnil]
    rfl
  have hnext : ((((g.audioEvents.filterMap AudioEvent.capture).map fun e => e.id + 1).max?).getD 1) =
      1 := by
    rw [hnil]
    rfl
  rw [buildClip_audio baseDir hmidi habs (hcontent.trans (by rw [hnil])) hevents hnext, if_pos rfl]
  unfold MatrixClip.pushBaseSample MatrixClip.pushEvent
  simp only [hdecode]
  rfl

/-- Saved and applied again, the pad has the same files, now all of them as events. -/
theorem Dropped.reapplied {disk : Disk} {paths : List String} {g : MatrixClip} (h : Dropped disk paths g)
    (hreadable : ∀ path ∈ paths, isReadable disk path = true) (baseDir : Option String) :
    Dropped disk paths (buildClip disk baseDir (captureClip g)) ∧
      (buildClip disk baseDir (captureClip g)).audioEvents ≠ [] := by
  obtain ⟨nextEventId, hcontent⟩ := h.content
  have hmem : g.path ∈ paths := List.mem_of_head? h.first
  obtain ⟨hdecode, hmidi, habs⟩ := isReadable_iff.mp (hreadable g.path hmem)
  obtain ⟨hnil, hpaths⟩ | hlaid := h.onPad.laid
  · obtain ⟨⟨samples, channels, sampleRate⟩, hdecode⟩ := Option.isSome_iff_exists.mp hdecode
    let event : AudioEvent :=
      { AudioEvent.newFull 1 (fileStem g.path) samples channels sampleRate 0 with
        sourcePath := some g.path }
    have hevent : wholeFile disk 1 g.path 0 = some event := by
      rw [wholeFile, hdecode]
      rfl
    have hclip := buildClip_single baseDir hmidi habs (hcontent.trans (by rw [hnil])) hevent
    rw [hclip]
    refine ⟨⟨⟨Or.inr ?_, ?_⟩, rfl, h.first, ?_⟩, ?_⟩
    · rw [hpaths]
      exact ⟨hevent, trivial⟩
    · exact (List.pairwise_singleton (· ≠ ·) event.id)
    · intro e he
      rw [List.mem_singleton.mp he]
      exact Nat.one_lt_two
    · exact List.cons_ne_nil event []
  · have hrebuilt := rebuild_laid baseDir hlaid fun path hpath =>
      (isReadable_iff.mp (hreadable path hpath)).2.2
    have hne : g.audioEvents ≠ [] := by
      intro hnil
      rw [hnil] at hlaid
      cases hpaths : paths with
      | nil =>
        have hfirst := h.first
        rw [hpaths] at hfirst
        exact absurd hfirst (by simp)
      | cons path rest =>
        rw [hpaths] at hlaid
        exact hlaid.elim
    have hclip := buildClip_audio baseDir hmidi habs hcontent hrebuilt rfl
    rw [if_neg hne] at hclip
    rw [hclip]
    refine ⟨⟨⟨Or.inr hlaid, h.onPad.distinct⟩, rfl, h.first, ?_⟩, hne⟩
    intro e he
    obtain ⟨path, hpath⟩ := sourcePath_laid hlaid e he
    have hsaved : e.id + 1 ∈ (g.audioEvents.filterMap AudioEvent.capture).map fun e => e.id + 1 := by
      obtain ⟨saved, hsaved, hid⟩ : ∃ saved, e.capture = some saved ∧ saved.id = e.id := by
        rw [AudioEvent.capture, hpath]
        exact ⟨_, rfl, rfl⟩
      exact List.mem_map.mpr ⟨saved, List.mem_filterMap.mpr ⟨e, he, hsaved⟩, by rw [hid]⟩
    exact lt_max_of_lt_left (List.le_max?_getD_of_mem hsaved)

/-- The slots inside the tracks and the scenes of a matrix captured and applied. -/
theorem slot?_reapplied (disk : Disk) (baseDir : Option String) (m : SessionMatrixState) {t s : ℕ}
    (ht : t < m.tracks.length) (hs : s < m.scenes.length) :
    (appliedMatrix disk baseDir (captureMatrix m)).slot? t s = (m.slot? t s).map fun slot =>
      ⟨if slot.clip.isSome then .stopped else .empty,
        slot.clip.map fun clip => buildClip disk baseDir (captureClip clip)⟩ := by
  have htracks : m.tracks ≠ [] := by
    intro hnil
    rw [hnil] at ht
    exact absurd ht (Nat.not_lt_zero t)
  have hscenes : m.scenes ≠ [] := by
    intro hnil
    rw [hnil] at hs
    exact absurd hs (Nat.not_lt_zero s)
  unfold appliedMatrix appliedGrid captureMatrix slot?
  simp only
  rw [if_pos ⟨htracks, hscenes⟩]
  refine (cell?_cut _ ht hs).trans ?_
  rw [cell?_mapCells, cell?_mapCells]
  unfold cell?
  rw [Option.map_map]
  congr 1
  funext slot
  obtain ⟨state, clip⟩ := slot
  cases clip <;> rfl

end HikaruOpenLive.Gui
