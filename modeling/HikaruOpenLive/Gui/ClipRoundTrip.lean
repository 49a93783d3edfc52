import HikaruOpenLive.Foundations.RoundTrip
import HikaruOpenLive.Gui.MatrixProject

/-! # A clip of the matrix, saved and opened again

The file of a clip does not say its kind. Notes make a clip MIDI, and without notes its path does. An
event returns by its file, which is decoded again, and a clip of no events gets its own file as one.
-/
set_option autoImplicit false

namespace HikaruOpenLive.Gui

open Foundations.RoundTrip

namespace MatrixClip

def notes (clip : MatrixClip) : List MidiNote :=
  match clip.content with
  | .audio _ _ => []
  | .midi notes => notes

/-- Two clips of one kind with the same notes, events, loop and mix. -/
structure SameContent (c c' : MatrixClip) : Prop where
  kind : c'.isMidi = c.isMidi
  notes : c'.notes = c.notes
  events : c'.audioEvents = c.audioEvents
  loop : (c'.loopStart, c'.loopEnd, c'.loopEnabled) = (c.loopStart, c.loopEnd, c.loopEnabled)
  mix : (c'.volume, c'.pan, c'.mute) = (c.volume, c.pan, c.mute)

/-- The files of an audio clip and of its events are there, as they were when they were decoded. -/
structure Readable (disk : Disk) (baseDir : Option String) (c : MatrixClip) : Prop where
  base : c.isMidi = false → (decodeAudioFile disk (resolvePath baseDir c.path)).isSome = true
  events : ∀ e ∈ c.audioEvents, ∀ p, e.sourcePath = some p →
    decodeAudioFile disk (resolvePath baseDir p) = some (e.samples, e.channels, e.sampleRate)

/-- A clip whose file tells all of it: its kind is what its notes and its path make it, and if it is
audio, it has events and each of them has a file, under a path that stays what it is. -/
def Told (baseDir : Option String) (c : MatrixClip) : Prop :=
  match c.content with
  | .midi notes => notes ≠ [] ∨ isMidiFile (resolvePath baseDir c.path) = true
  | .audio events _ =>
    isMidiFile (resolvePath baseDir c.path) = false ∧ events ≠ [] ∧
      ∀ e ∈ events, ∃ p, e.sourcePath = some p ∧ resolvePath baseDir p = p

end MatrixClip

/-! ## Events -/

/-- An event after it is saved and decoded again. -/
def AudioEvent.reload (disk : Disk) (baseDir : Option String) (e : AudioEvent) : Option AudioEvent :=
  e.capture.bind (buildEvent disk baseDir)

section

variable {disk : Disk} {baseDir : Option String}

theorem reload_eq {e : AudioEvent} {p : String} (hpath : e.sourcePath = some p)
    (hread : decodeAudioFile disk (resolvePath baseDir p) = some (e.samples, e.channels, e.sampleRate)) :
    e.reload disk baseDir = some { e with sourcePath := some (resolvePath baseDir p) } := by
  unfold AudioEvent.reload AudioEvent.capture buildEvent
  rw [hpath]
  simp only [Option.map_some, Option.bind_some, hread]

theorem reload_eq_self_iff {e : AudioEvent}
    (hread : ∀ p, e.sourcePath = some p →
      decodeAudioFile disk (resolvePath baseDir p) = some (e.samples, e.channels, e.sampleRate)) :
    e.reload disk baseDir = some e ↔ ∃ p, e.sourcePath = some p ∧ resolvePath baseDir p = p := by
  cases hpath : e.sourcePath with
  | none =>
    have hreload : e.reload disk baseDir = none := by
      unfold AudioEvent.reload AudioEvent.capture
      rw [hpath]
      rfl
    rw [hreload]
    constructor
    · intro h
      nomatch h
    · rintro ⟨p, hnone, _⟩
      nomatch hnone
  | some p =>
    rw [reload_eq hpath (hread p hpath)]
    constructor
    · intro h
      have hsource := congrArg AudioEvent.sourcePath (Option.some.inj h)
      rw [hpath] at hsource
      exact ⟨p, rfl, Option.some.inj hsource⟩
    · rintro ⟨q, hq, hfixed⟩
      obtain rfl := Option.some.inj hq
      rw [hfixed, ← hpath]

theorem filterMap_reload (events : List AudioEvent) :
    (events.filterMap AudioEvent.capture).filterMap (buildEvent disk baseDir) =
      events.filterMap (AudioEvent.reload disk baseDir) := by
  rw [List.filterMap_filterMap]
  rfl

end

/-! ## The clip -/

namespace MatrixClip

theorem pushBaseSample_midi {c : MatrixClip} (disk : Disk) {notes : List MidiNote}
    (hcontent : c.content = .midi notes) : c.pushBaseSample disk = c := by
  unfold pushBaseSample pushEvent
  cases decodeAudioFile disk c.path with
  | none => rfl
  | some decoded => rw [hcontent]

theorem isMidi_pushBaseSample (c : MatrixClip) (disk : Disk) :
    (c.pushBaseSample disk).isMidi = c.isMidi := by
  unfold pushBaseSample pushEvent
  cases decodeAudioFile disk c.path with
  | none => rfl
  | some decoded =>
    cases hcontent : c.content with
    | audio events next => rw [isMidi, isMidi, hcontent]
    | midi notes => rfl

/-- The file of an audio clip without events becomes its event. -/
theorem audioEvents_pushBaseSample {c : MatrixClip} {disk : Disk} {next : ℕ}
    (hcontent : c.content = .audio [] next) {samples : List ℚ} {channels sampleRate : ℕ}
    (hread : decodeAudioFile disk c.path = some (samples, channels, sampleRate)) :
    (c.pushBaseSample disk).audioEvents =
      [{ AudioEvent.newFull (max next 1) (fileStem c.path) samples channels sampleRate 0 with
        sourcePath := some c.path }] := by
  unfold pushBaseSample pushEvent
  rw [hread, hcontent]
  rfl

/-- A push of the file of an audio clip changes nothing but its events. -/
theorem pushBaseSample_audio {c : MatrixClip} (disk : Disk) {events : List AudioEvent} {next : ℕ}
    (hcontent : c.content = .audio events next) :
    ∃ events' next', c.pushBaseSample disk = { c with content := .audio events' next' } := by
  unfold pushBaseSample pushEvent
  cases decodeAudioFile disk c.path with
  | none => exact ⟨events, next, by rw [← hcontent]⟩
  | some decoded =>
    rw [hcontent]
    exact ⟨_, _, rfl⟩

end MatrixClip

section

variable (disk : Disk) (baseDir : Option String)

/-- A saved clip loaded with a given content. -/
def loadedClip (saved : OpenLiveFile.Clip) (content : ClipData) : MatrixClip :=
  { id := saved.id, name := saved.name, path := resolvePath baseDir saved.path, content := content
    loopStart := saved.loopStart, loopEnd := saved.loopEnd, loopEnabled := saved.loopEnabled
    volume := saved.volume, pan := saved.pan, mute := saved.mute }

theorem buildClip_midi {saved : OpenLiveFile.Clip}
    (h : saved.midiNotes ≠ [] ∨ isMidiFile (resolvePath baseDir saved.path) = true) :
    buildClip disk baseDir saved = loadedClip baseDir saved (.midi saved.midiNotes) := by
  unfold buildClip
  simp only [if_pos h]
  split
  · exact MatrixClip.pushBaseSample_midi disk rfl
  · rfl

/-- A saved clip loaded as audio, its events decoded or its own file in their place. -/
theorem buildClip_sound {saved : OpenLiveFile.Clip}
    (h : ¬ (saved.midiNotes ≠ [] ∨ isMidiFile (resolvePath baseDir saved.path) = true)) :
    ∃ next, buildClip disk baseDir saved =
      if saved.events.filterMap (buildEvent disk baseDir) = [] then
        (loadedClip baseDir saved (.audio [] next)).pushBaseSample disk
      else loadedClip baseDir saved (.audio (saved.events.filterMap (buildEvent disk baseDir)) next) := by
  refine ⟨((saved.events.map fun e => e.id + 1).max?).getD 1, ?_⟩
  unfold buildClip
  simp only [if_neg h]
  show (if saved.events.filterMap (buildEvent disk baseDir) = [] then _ else _) = _
  split
  case isTrue hnil =>
    rw [hnil]
    rfl
  case isFalse => rfl

end

namespace MatrixClip

variable {disk : Disk} {baseDir : Option String} {c : MatrixClip}

/-- A MIDI clip comes back if it has notes, or a path that says what it is. -/
theorem sameContent_midi_iff {notes : List MidiNote} (hcontent : c.content = .midi notes) :
    c.SameContent (buildClip disk baseDir (captureClip c)) ↔
      (notes ≠ [] ∨ isMidiFile (resolvePath baseDir c.path) = true) := by
  have hnotes : (captureClip c).midiNotes = notes := by
    rw [captureClip, hcontent]
  have hkind : c.isMidi = true := by rw [isMidi, hcontent]
  by_cases hmidi : notes ≠ [] ∨ isMidiFile (resolvePath baseDir c.path) = true
  · have hmidi' : (captureClip c).midiNotes ≠ [] ∨
        isMidiFile (resolvePath baseDir (captureClip c).path) = true := by rwa [hnotes]
    rw [buildClip_midi disk baseDir hmidi', hnotes]
    refine ⟨fun _ => hmidi, fun _ => ⟨hkind.symm, ?_, ?_, rfl, rfl⟩⟩
    · rw [MatrixClip.notes, MatrixClip.notes, hcontent]
      rfl
    · rw [audioEvents, audioEvents, hcontent]
      rfl
  · have hmidi' : ¬ ((captureClip c).midiNotes ≠ [] ∨
        isMidiFile (resolvePath baseDir (captureClip c).path) = true) := by rwa [hnotes]
    obtain ⟨next, hbuild⟩ := buildClip_sound disk baseDir hmidi'
    refine ⟨fun hsame => ?_, fun h => absurd h hmidi⟩
    -- What is loaded is audio.
    have hsound : (buildClip disk baseDir (captureClip c)).isMidi = false := by
      rw [hbuild]
      split
      · exact isMidi_pushBaseSample _ disk
      · rfl
    rw [hsame.kind, hkind] at hsound
    nomatch hsound

/-- Told apart as notes by its path, an audio clip does not come back. -/
theorem not_sameContent_of_midiPath (hkind : c.isMidi = false)
    (hmidi : isMidiFile (resolvePath baseDir c.path) = true) :
    ¬ c.SameContent (buildClip disk baseDir (captureClip c)) := by
  intro hsame
  have hmidi' : (captureClip c).midiNotes ≠ [] ∨
      isMidiFile (resolvePath baseDir (captureClip c).path) = true := Or.inr hmidi
  rw [buildClip_midi disk baseDir hmidi'] at hsame
  have hnotes := hsame.kind
  rw [hkind] at hnotes
  cases hnotes

/-- The events that have their file at the path they name are loaded as they are, and only they. -/
theorem events_reload_eq_iff (hread : c.Readable disk baseDir) :
    c.audioEvents.filterMap (AudioEvent.reload disk baseDir) = c.audioEvents ↔
      ∀ e ∈ c.audioEvents, ∃ p, e.sourcePath = some p ∧ resolvePath baseDir p = p := by
  rw [filterMap_eq_self_iff]
  exact forall₂_congr fun e he => reload_eq_self_iff (hread.events e he)

/-- Without an event to load, the only event is the file of the clip, and that would be loaded too. -/
theorem not_sameContent_pushBaseSample (hread : c.Readable disk baseDir) (hkind : c.isMidi = false)
    (hnil : c.audioEvents.filterMap (AudioEvent.reload disk baseDir) = []) (next : ℕ) :
    ¬ c.SameContent ((loadedClip baseDir (captureClip c) (.audio [] next)).pushBaseSample disk) := by
  intro hsame
  obtain ⟨⟨samples, channels, sampleRate⟩, hdecode⟩ := Option.isSome_iff_exists.mp (hread.base hkind)
  have hloadedPath : (loadedClip baseDir (captureClip c) (.audio [] next)).path =
      resolvePath baseDir c.path := rfl
  have hone := hsame.events
  rw [audioEvents_pushBaseSample rfl (hloadedPath ▸ hdecode)] at hone
  have hmem := List.mem_of_mem_head? (l := c.audioEvents) (by rw [← hone]; rfl)
  have hfile := reload_eq rfl (hread.events _ hmem _ rfl)
  have hin := List.mem_filterMap.mpr ⟨_, hmem, hfile⟩
  rw [hnil] at hin
  cases hin

/-- An audio clip comes back if its path does not speak against it and it has events, each with a file. -/
theorem sameContent_audio_iff (hread : c.Readable disk baseDir) {events : List AudioEvent} {next : ℕ}
    (hcontent : c.content = .audio events next) :
    c.SameContent (buildClip disk baseDir (captureClip c)) ↔
      isMidiFile (resolvePath baseDir c.path) = false ∧ events ≠ [] ∧
        ∀ e ∈ events, ∃ p, e.sourcePath = some p ∧ resolvePath baseDir p = p := by
  have hkind : c.isMidi = false := by rw [isMidi, hcontent]
  have hevents : c.audioEvents = events := by rw [audioEvents, hcontent]
  have hnotes : (captureClip c).midiNotes = [] := by rw [captureClip, hcontent]
  have hpath : (captureClip c).path = c.path := rfl
  by_cases hmidi : isMidiFile (resolvePath baseDir c.path) = true
  · refine iff_of_false (not_sameContent_of_midiPath hkind hmidi) fun hall => ?_
    rw [hmidi] at hall
    cases hall.1
  · have hsound : ¬ ((captureClip c).midiNotes ≠ [] ∨
        isMidiFile (resolvePath baseDir (captureClip c).path) = true) := by
      rw [hpath]
      rintro (h | h)
      · exact h hnotes
      · exact hmidi h
    have hloaded : (captureClip c).events.filterMap (buildEvent disk baseDir) =
        c.audioEvents.filterMap (AudioEvent.reload disk baseDir) := by
      show (c.audioEvents.filterMap AudioEvent.capture).filterMap _ = _
      rw [filterMap_reload]
    obtain ⟨next', hbuild⟩ := buildClip_sound disk baseDir hsound
    rw [hbuild, hloaded, ← hevents, ← events_reload_eq_iff hread]
    by_cases hnil : c.audioEvents.filterMap (AudioEvent.reload disk baseDir) = []
    · rw [if_pos hnil]
      refine iff_of_false (not_sameContent_pushBaseSample hread hkind hnil next') ?_
      rintro ⟨_, hne, heq⟩
      exact hne (heq.symm.trans hnil)
    · rw [if_neg hnil]
      constructor
      · intro hsame
        have heq : c.audioEvents.filterMap (AudioEvent.reload disk baseDir) = c.audioEvents :=
          hsame.events
        exact ⟨Bool.not_eq_true _ ▸ hmidi, fun h => hnil (heq.trans h), heq⟩
      · rintro ⟨_, _, heq⟩
        refine ⟨hkind.symm, ?_, heq, rfl, rfl⟩
        rw [MatrixClip.notes, MatrixClip.notes, hcontent]
        rfl

theorem sameContent_iff (hread : c.Readable disk baseDir) :
    c.SameContent (buildClip disk baseDir (captureClip c)) ↔ c.Told baseDir := by
  unfold Told
  cases hcontent : c.content with
  | audio events next => exact sameContent_audio_iff hread hcontent
  | midi notes => exact sameContent_midi_iff hcontent

/-- Whatever the content, the loop and the mix of a clip are loaded as they are saved. -/
theorem loop_mix_buildClip (disk : Disk) (baseDir : Option String) (saved : OpenLiveFile.Clip) :
    ((buildClip disk baseDir saved).loopStart, (buildClip disk baseDir saved).loopEnd,
        (buildClip disk baseDir saved).loopEnabled) =
      (saved.loopStart, saved.loopEnd, saved.loopEnabled) ∧
    ((buildClip disk baseDir saved).volume, (buildClip disk baseDir saved).pan,
        (buildClip disk baseDir saved).mute) = (saved.volume, saved.pan, saved.mute) := by
  by_cases hmidi : saved.midiNotes ≠ [] ∨ isMidiFile (resolvePath baseDir saved.path) = true
  · rw [buildClip_midi disk baseDir hmidi]
    exact ⟨rfl, rfl⟩
  · obtain ⟨next, hbuild⟩ := buildClip_sound disk baseDir hmidi
    rw [hbuild]
    split
    · obtain ⟨events, next', hpush⟩ := pushBaseSample_audio
        (c := loadedClip baseDir saved (.audio [] next)) disk rfl
      rw [hpush]
      exact ⟨rfl, rfl⟩
    · exact ⟨rfl, rfl⟩

/-- An audio clip without events comes back with its own file as its event. -/
theorem audioEvents_buildClip_nil (hread : c.Readable disk baseDir) {next : ℕ}
    (hcontent : c.content = .audio [] next)
    (hsound : isMidiFile (resolvePath baseDir c.path) = false) :
    ∃ id samples channels sampleRate,
      decodeAudioFile disk (resolvePath baseDir c.path) = some (samples, channels, sampleRate) ∧
        (buildClip disk baseDir (captureClip c)).audioEvents =
          [{ AudioEvent.newFull id (fileStem (resolvePath baseDir c.path)) samples channels sampleRate 0
              with sourcePath := some (resolvePath baseDir c.path) }] := by
  have hkind : c.isMidi = false := by rw [isMidi, hcontent]
  have hpath : (captureClip c).path = c.path := rfl
  have hnotes : (captureClip c).midiNotes = [] := by rw [captureClip, hcontent]
  have hevents : (captureClip c).events.filterMap (buildEvent disk baseDir) = [] := by
    rw [captureClip, audioEvents, hcontent]
    rfl
  have hmidi : ¬ ((captureClip c).midiNotes ≠ [] ∨
      isMidiFile (resolvePath baseDir (captureClip c).path) = true) := by
    rw [hpath, hsound]
    rintro (h | h)
    · exact h hnotes
    · nomatch h
  obtain ⟨next', hbuild⟩ := buildClip_sound disk baseDir hmidi
  obtain ⟨⟨samples, channels, sampleRate⟩, hdecode⟩ := Option.isSome_iff_exists.mp (hread.base hkind)
  have hloadedPath : (loadedClip baseDir (captureClip c) (.audio [] next')).path =
      resolvePath baseDir c.path := rfl
  refine ⟨max next' 1, samples, channels, sampleRate, hdecode, ?_⟩
  rw [hbuild, if_pos hevents, audioEvents_pushBaseSample rfl (hloadedPath ▸ hdecode), hloadedPath]

/-- A clip saved and opened again keeps its loop and its mix. It is the clip it was if and only if its
file tells all of it, and an audio clip without events is opened with its own file as one. -/
theorem reopened_spec (hread : c.Readable disk baseDir) :
    ((buildClip disk baseDir (captureClip c)).loopStart, (buildClip disk baseDir (captureClip c)).loopEnd,
        (buildClip disk baseDir (captureClip c)).loopEnabled) = (c.loopStart, c.loopEnd, c.loopEnabled) ∧
    ((buildClip disk baseDir (captureClip c)).volume, (buildClip disk baseDir (captureClip c)).pan,
        (buildClip disk baseDir (captureClip c)).mute) = (c.volume, c.pan, c.mute) ∧
    (c.SameContent (buildClip disk baseDir (captureClip c)) ↔ c.Told baseDir) ∧
    ∀ next, c.content = .audio [] next → isMidiFile (resolvePath baseDir c.path) = false →
      ∃ id samples channels sampleRate,
        decodeAudioFile disk (resolvePath baseDir c.path) = some (samples, channels, sampleRate) ∧
          (buildClip disk baseDir (captureClip c)).audioEvents =
            [{ AudioEvent.newFull id (fileStem (resolvePath baseDir c.path)) samples channels sampleRate
                0 with sourcePath := some (resolvePath baseDir c.path) }] := by
  obtain ⟨hloop, hmix⟩ := loop_mix_buildClip disk baseDir (captureClip c)
  exact ⟨hloop, hmix, sameContent_iff hread,
    fun _ hcontent hsound => audioEvents_buildClip_nil hread hcontent hsound⟩

end MatrixClip

/-- A drum loop cut in two, of which the second half comes first. -/
def twoHalves : MatrixClip :=
  { id := 3, name := "break", path := "/loops/break.wav"
    content := .audio
      [{ AudioEvent.newFull 2 "break" [1 / 4, 1 / 2] 1 48000 1 with
          sourcePath := some "/loops/break.wav", trimLeftFrames := 1, visibleFrames := 1 },
        { AudioEvent.newFull 1 "break" [1 / 4, 1 / 2] 1 48000 0 with
          sourcePath := some "/loops/break.wav", visibleFrames := 1 }] 3
    loopStart := 0, loopEnd := 960, loopEnabled := true, volume := 1 / 2, pan := 0, mute := false }

def loopDisk : Disk := fun path =>
  if path = "/loops/break.wav" then some ⟨.float [1 / 4, 1 / 2], 1, 48000⟩ else none

theorem readable_twoHalves : twoHalves.Readable loopDisk none := by
  refine ⟨fun _ => by decide +kernel, ?_⟩
  intro e he p hp
  obtain rfl | rfl : e = _ ∨ e = _ := by simpa [twoHalves, MatrixClip.audioEvents] using he
  · obtain rfl := Option.some.inj hp
    decide +kernel
  · obtain rfl := Option.some.inj hp
    decide +kernel

theorem reopened_spec_twoHalves :
    twoHalves.SameContent (buildClip loopDisk none (captureClip twoHalves)) := by
  refine (MatrixClip.reopened_spec readable_twoHalves).2.2.1.mpr ?_
  refine ⟨by decide, List.cons_ne_nil _ _, ?_⟩
  intro e he
  obtain rfl | rfl : e = _ ∨ e = _ := by simpa [twoHalves] using he
  · exact ⟨_, rfl, rfl⟩
  · exact ⟨_, rfl, rfl⟩

/-- The same loop as it is dropped on a pad, without events, comes back with one. -/
theorem not_sameContent_dropped :
    ({ twoHalves with content := .audio [] 1 } : MatrixClip).Readable loopDisk none ∧
      ¬ ({ twoHalves with content := .audio [] 1 } : MatrixClip).SameContent
        (buildClip loopDisk none (captureClip { twoHalves with content := .audio [] 1 })) := by
  refine ⟨⟨fun _ => by decide +kernel, fun e he => nomatch he⟩, ?_⟩
  intro h
  have hevents := congrArg List.length h.events
  revert hevents
  decide +kernel

end HikaruOpenLive.Gui
