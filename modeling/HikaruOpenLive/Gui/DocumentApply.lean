import HikaruOpenLive.Gui.ProjectDocuments
import HikaruOpenLive.Gui.ProjectMix

/-! # Opening a document over another

What the application holds of a project, with all that a document keeps of it, and the two ways in which a
document is put in its place. `sent_applyDocument` connects this with the projects of the strips alone.

A document is opened before the mode is switched, and twice what is opened looks at the tracks of the
mode: `opensAlike_iff` says over which two states a document opens alike.
-/
set_option autoImplicit false

namespace HikaruOpenLive.Gui

open Engine Transport Foundations.ListEdits

structure DocumentState where
  mode : AppMode
  transport : TransportPosition
  meter : ℕ × ℕ
  liveTracks : List MixerTrack
  studioTracks : List MixerTrack
  matrix : SessionMatrixState
  timeline : Timeline
  openliveView : ℕ
  openstudioView : ℕ

inductive OpenDocument where
  | openLive (doc : OpenLiveFile.Document)
  | openStudio (doc : OpenStudioFile.Document)

namespace DocumentState

def tracks (s : DocumentState) : List MixerTrack :=
  match s.mode with
  | .openLive => s.liveTracks
  | .openStudio => s.studioTracks

/-! ## Capture -/

def formatVersion : ℕ := 1

def captureOpenLive (s : DocumentState) : OpenLiveFile.Document :=
  let master := s.liveTracks.find? MixerTrack.isMaster
  { formatVersion := formatVersion
    transport :=
      { bpm := s.transport.bpm
        timeSignature := (s.meter.1, 4)
        launchQuantization := "1/" ++ toString s.meter.2
        loopStartTicks := s.transport.samplesToTicks s.transport.loopStartSamples
        loopEndTicks := s.transport.samplesToTicks s.transport.loopEndSamples
        loopEnabled := s.transport.loopEnabled }
    masterVolume := (master.map MixerTrack.volume).getD 0
    masterPan := (master.map MixerTrack.pan).getD 0
    liveTracks := s.liveTracks.map captureTrack
    matrix := captureMatrix s.matrix
    view := s.openliveView }

def captureOpenStudio (s : DocumentState) : OpenStudioFile.Document :=
  { formatVersion := formatVersion
    transport :=
      { bpm := s.transport.bpm
        beatsPerBar := s.meter.1
        beatDivision := s.meter.2
        loopStartTicks := s.transport.samplesToTicks s.transport.loopStartSamples
        loopEndTicks := s.transport.samplesToTicks s.transport.loopEndSamples
        loopEnabled := s.transport.loopEnabled }
    studioTracks := s.studioTracks.map captureTrack
    playlist := capturePlaylist s.timeline
    view := s.openstudioView }

/-! ## Apply -/

def withTransport (s : DocumentState) (bpm : ℚ) (meter : ℕ × ℕ) : DocumentState :=
  { s with transport := { s.transport with bpm := ProjectState.clampBpm bpm }, meter := meter }

def applyLoop (s : DocumentState) (startTicks endTicks : ℕ) (enabled : Bool) :
    DocumentState × List SentCommand :=
  let startSamples := s.transport.ticksToSamples startTicks
  let endSamples := s.transport.ticksToSamples endTicks
  ({ s with
      transport :=
        { s.transport with
          loopEnabled := enabled, loopStartSamples := startSamples, loopEndSamples := endSamples } },
    [.setGlobalLoop startSamples endSamples enabled])

section

variable (toLowercase : String → String) (disk : Disk) (baseDir : Option String)

def applyOpenLive (s : DocumentState) (doc : OpenLiveFile.Document) :
    DocumentState × List SentCommand :=
  let s := s.withTransport doc.transport.bpm doc.meter
  let s := { s with
    liveTracks := setMaster doc.masterVolume doc.masterPan
      (builtOrDefault toLowercase doc.liveTracks [defaultMaster]) }
  let (session, padCommands) := applyMatrix disk baseDir s.transport.bpm doc.matrix
  let metas := session.matrix.tracks
  let synced := syncMatrixMixer (s.liveTracks.map MixerTrack.strip) metas [] []
  let s := { s with
    liveTracks := syncTracks s.liveTracks metas [] []
    matrix := { session.matrix with tracks := synced.2.1 } }
  let pushed := pushTrackMixToEngine (s.tracks.map MixerTrack.strip)
  let s := { s with mode := .openLive, openliveView := viewFromU8 doc.view }
  let (s, loopCommands) :=
    s.applyLoop doc.transport.loopStartTicks doc.transport.loopEndTicks doc.transport.loopEnabled
  (s, .setBpm s.transport.bpm :: padCommands.map .pad ++ synced.2.2.map .mixer ++
    pushed.map .mixer ++ loopCommands)

def applyOpenStudio (s : DocumentState) (doc : OpenStudioFile.Document) :
    DocumentState × List SentCommand :=
  let s := s.withTransport doc.transport.bpm doc.meter
  let s := { s with studioTracks := builtOrDefault toLowercase doc.studioTracks defaultStudioMixer }
  -- The clips are looked up among the tracks of the mode that the file is opened from.
  let s := { s with
    timeline := appliedTimeline disk baseDir s.transport.bpm s.tracks.length doc.playlist }
  let pushed := pushTrackMixToEngine (s.tracks.map MixerTrack.strip)
  let s := { s with mode := .openStudio, openstudioView := viewFromU8 doc.view }
  let (s, loopCommands) :=
    s.applyLoop doc.transport.loopStartTicks doc.transport.loopEndTicks doc.transport.loopEnabled
  (s, .setBpm s.transport.bpm :: pushed.map .mixer ++ loopCommands)

def applyDocument (s : DocumentState) : OpenDocument → DocumentState × List SentCommand
  | .openLive doc => s.applyOpenLive toLowercase disk baseDir doc
  | .openStudio doc => s.applyOpenStudio toLowercase disk baseDir doc

end

/-! ## The projects of the strips -/

/-- The part of an application that a document fills, put in. -/
def within (s : DocumentState) (p : ProjectState) : ProjectState :=
  { p with
    mode := s.mode
    transport := s.transport
    liveTracks := s.liveTracks.map MixerTrack.strip
    studioTracks := s.studioTracks.map MixerTrack.strip }

end DocumentState

def OpenDocument.project (toLowercase : String → String) : OpenDocument → Project
  | .openLive doc => .openLive (doc.project toLowercase)
  | .openStudio doc => .openStudio (doc.project toLowercase)

/-- The tracks that a document puts in its mode. -/
def OpenDocument.openedTracks (toLowercase : String → String) : OpenDocument → List MixerTrack
  | .openLive doc => doc.openedTracks toLowercase
  | .openStudio doc => doc.openedTracks toLowercase

def OpenDocument.mode : OpenDocument → AppMode
  | .openLive _ => .openLive
  | .openStudio _ => .openStudio

namespace DocumentState

section

variable (toLowercase : String → String) (disk : Disk) (baseDir : Option String) (s : DocumentState)

/-- The tracks that are looked at while a document is opened: its own if its mode is the current one, and
otherwise those there were in the other mode. -/
def seen (doc : OpenDocument) : List MixerTrack :=
  if s.mode = doc.mode then doc.openedTracks toLowercase else s.tracks

/-- The transport at the tempo of a document, with a loop region given in ticks. -/
def openedTransport (bpm : ℚ) (startTicks endTicks : ℕ) (enabled : Bool) : TransportPosition :=
  let t := { s.transport with bpm := ProjectState.clampBpm bpm }
  { t with
    loopEnabled := enabled
    loopStartSamples := t.ticksToSamples startTicks
    loopEndSamples := t.ticksToSamples endTicks }

theorem applyOpenStudio_eq (doc : OpenStudioFile.Document) :
    s.applyOpenStudio toLowercase disk baseDir doc =
      let bpm := ProjectState.clampBpm doc.transport.bpm
      let seen := s.seen toLowercase (.openStudio doc)
      let t := s.openedTransport doc.transport.bpm doc.transport.loopStartTicks
        doc.transport.loopEndTicks doc.transport.loopEnabled
      ({ s with
          mode := .openStudio, transport := t, meter := doc.meter
          studioTracks := doc.openedTracks toLowercase
          timeline := appliedTimeline disk baseDir bpm seen.length doc.playlist
          openstudioView := viewFromU8 doc.view },
        .setBpm bpm :: (pushTrackMixToEngine (seen.map MixerTrack.strip)).map .mixer ++
          [.setGlobalLoop t.loopStartSamples t.loopEndSamples doc.transport.loopEnabled]) := by
  unfold applyOpenStudio seen tracks withTransport applyLoop
  cases hmode : s.mode with
  | openLive => rfl
  | openStudio => rfl

theorem applyOpenLive_eq (doc : OpenLiveFile.Document) :
    s.applyOpenLive toLowercase disk baseDir doc =
      let bpm := ProjectState.clampBpm doc.transport.bpm
      let seen := s.seen toLowercase (.openLive doc)
      let t := s.openedTransport doc.transport.bpm doc.transport.loopStartTicks
        doc.transport.loopEndTicks doc.transport.loopEnabled
      let live := setMaster doc.masterVolume doc.masterPan
        (builtOrDefault toLowercase doc.liveTracks [defaultMaster])
      let synced := syncMatrixMixer (live.map MixerTrack.strip) doc.matrix.tracks [] []
      ({ s with
          mode := .openLive, transport := t, meter := doc.meter
          liveTracks := doc.openedTracks toLowercase
          matrix := { appliedMatrix disk baseDir doc.matrix with tracks := synced.2.1 }
          openliveView := viewFromU8 doc.view },
        .setBpm bpm :: ((appliedMatrix disk baseDir doc.matrix).registerCommands bpm).map .pad ++
          synced.2.2.map .mixer ++ (pushTrackMixToEngine (seen.map MixerTrack.strip)).map .mixer ++
          [.setGlobalLoop t.loopStartSamples t.loopEndSamples doc.transport.loopEnabled]) := by
  unfold applyOpenLive seen tracks withTransport applyLoop
  cases hmode : s.mode with
  | openLive => rfl
  | openStudio => rfl

/-- The commands are those of the project of the strips. -/
theorem sent_applyDocument (p : ProjectState) (doc : OpenDocument) :
    (s.applyDocument toLowercase disk baseDir doc).2 =
      ((s.within p).apply disk baseDir (doc.project toLowercase)).2 := by
  cases doc with
  | openStudio doc =>
    have hstrips : (doc.openedTracks toLowercase).map MixerTrack.strip =
        tracksOrDefault (doc.studioTracks.map (buildStrip toLowercase)) defaultStudioTracks :=
      strips_builtOrDefault toLowercase doc.studioTracks defaultStudioMixer
    show (s.applyOpenStudio toLowercase disk baseDir doc).2 =
      ((s.within p).applyOpenStudio disk baseDir (doc.project toLowercase)).2
    rw [applyOpenStudio_eq]
    unfold ProjectState.applyOpenStudio ProjectState.tracks ProjectState.withBpm ProjectState.applyLoop
      seen within tracks
    cases hmode : s.mode with
    | openLive => rfl
    | openStudio =>
      simp only [OpenDocument.mode, if_true, OpenDocument.openedTracks, hstrips]
      rfl
  | openLive doc =>
    have hstrips : (doc.openedTracks toLowercase).map MixerTrack.strip =
        (syncMatrixMixer ((setMaster doc.masterVolume doc.masterPan
          (builtOrDefault toLowercase doc.liveTracks [defaultMaster])).map MixerTrack.strip)
            doc.matrix.tracks [] []).1 := strips_syncTracks _ _ _ _
    have hlive : (setMaster doc.masterVolume doc.masterPan
        (builtOrDefault toLowercase doc.liveTracks [defaultMaster])).map MixerTrack.strip =
          updateFirst MixerStrip.isMaster
            (fun t => { t with volume := doc.masterVolume, pan := doc.masterPan })
            (tracksOrDefault (doc.liveTracks.map (buildStrip toLowercase)) defaultLiveTracks) := by
      rw [strips_setMaster, strips_builtOrDefault]
      rfl
    show (s.applyOpenLive toLowercase disk baseDir doc).2 =
      ((s.within p).applyOpenLive disk baseDir (doc.project toLowercase)).2
    rw [applyOpenLive_eq]
    unfold ProjectState.applyOpenLive ProjectState.tracks ProjectState.withBpm ProjectState.applyLoop
      seen within tracks
    cases hmode : s.mode with
    | openLive =>
      simp only [OpenDocument.mode, if_true, OpenDocument.openedTracks, hstrips, hlive]
      rfl
    | openStudio =>
      simp only [OpenDocument.mode, hlive]
      rfl

end

end DocumentState

/-! ## The mix that is pushed -/

def MixerTrack.mix (t : MixerTrack) : TrackMix :=
  ⟨t.volume, t.pan, t.mute, t.solo⟩

/-- What is pushed tells the mix of every track. -/
theorem push_eq_push_iff {as bs : List MixerTrack} :
    pushTrackMixToEngine (as.map MixerTrack.strip) = pushTrackMixToEngine (bs.map MixerTrack.strip) ↔
      as.map MixerTrack.mix = bs.map MixerTrack.mix := by
  have hfrom : ∀ (as bs : List MixerTrack) (start : ℕ),
      (((as.map MixerTrack.strip).zipIdx start).flatMap fun x => x.1.mixCommands x.2) =
          (((bs.map MixerTrack.strip).zipIdx start).flatMap fun x => x.1.mixCommands x.2) ↔
        as.map MixerTrack.mix = bs.map MixerTrack.mix := by
    intro as
    induction as with
    | nil =>
      intro bs start
      cases bs with
      | nil => simp
      | cons b bs => simp [MixerStrip.mixCommands]
    | cons a as ih =>
      intro bs start
      cases bs with
      | nil => simp [MixerStrip.mixCommands]
      | cons b bs =>
        have hrest := ih bs (start + 1)
        simp only [List.map_cons, List.zipIdx_cons, List.flatMap_cons, MixerStrip.mixCommands,
          List.cons_append, List.nil_append, List.cons.injEq] at hrest ⊢
        rw [hrest]
        simp only [MixerTrack.mix, MixerTrack.strip, MixerCommand.setTrackVolume.injEq,
          MixerCommand.setTrackPan.injEq, MixerCommand.setTrackMute.injEq,
          MixerCommand.setTrackSolo.injEq, true_and, TrackMix.mk.injEq, and_assoc]
  exact hfrom as bs 0

def SentCommand.mixer? : SentCommand → Option MixerCommand
  | .mixer cmd => some cmd
  | .setBpm _ | .setGlobalLoop _ _ _ | .pad _ | .playlist _ => none

/-- The commands to the mixer among those sent. -/
def mixerCommands (cmds : List SentCommand) : List MixerCommand := cmds.filterMap SentCommand.mixer?

theorem mixerCommands_mixer (cmds : List MixerCommand) : mixerCommands (cmds.map .mixer) = cmds := by
  rw [mixerCommands, List.filterMap_map]
  exact List.filterMap_some

theorem mixerCommands_pad (cmds : List PadCommand) : mixerCommands (cmds.map .pad) = [] := by
  rw [mixerCommands, List.filterMap_map]
  exact List.filterMap_eq_nil_iff.mpr fun _ _ => rfl

theorem mixerCommands_append (first second : List SentCommand) :
    mixerCommands (first ++ second) = mixerCommands first ++ mixerCommands second :=
  List.filterMap_append

/-! ## One document over two states -/

namespace DocumentState

section

variable (toLowercase : String → String) (disk : Disk) (baseDir : Option String)

/-- The project captured in the format of a document. -/
def capturedAs (s : DocumentState) : OpenDocument → OpenDocument
  | .openLive _ => .openLive s.captureOpenLive
  | .openStudio _ => .openStudio s.captureOpenStudio

/-- The clips of the mode of a document: those of the timeline, or those on the pads. -/
def survivors (s : DocumentState) :
    OpenDocument → List (ℕ × TimelineClip) ⊕ List (List (Option MatrixClip))
  | .openLive _ => .inr (s.matrix.grid.map fun row => row.map MatrixSlot.clip)
  | .openStudio _ => .inl s.timeline.clips

structure OpensAlike (doc : OpenDocument) (r r' : DocumentState) : Prop where
  captured : (r.applyDocument toLowercase disk baseDir doc).1.capturedAs doc =
    (r'.applyDocument toLowercase disk baseDir doc).1.capturedAs doc
  clips : (r.applyDocument toLowercase disk baseDir doc).1.survivors doc =
    (r'.applyDocument toLowercase disk baseDir doc).1.survivors doc
  mixer : mixerCommands (r.applyDocument toLowercase disk baseDir doc).2 =
    mixerCommands (r'.applyDocument toLowercase disk baseDir doc).2

/-- The loop region of a document in ticks, once it was turned into samples. -/
def keptLoop (s : DocumentState) (doc : OpenDocument) : ℕ × ℕ :=
  let t :=
    match doc with
    | .openLive doc => s.openedTransport doc.transport.bpm doc.transport.loopStartTicks
        doc.transport.loopEndTicks doc.transport.loopEnabled
    | .openStudio doc => s.openedTransport doc.transport.bpm doc.transport.loopStartTicks
        doc.transport.loopEndTicks doc.transport.loopEnabled
  (t.samplesToTicks t.loopStartSamples, t.samplesToTicks t.loopEndSamples)

/-- Engines of one sample rate keep one loop region. -/
theorem keptLoop_congr {r r' : DocumentState} (h : r.transport.sampleRate = r'.transport.sampleRate)
    (doc : OpenDocument) : r.keptLoop doc = r'.keptLoop doc := by
  have hkept : ∀ (bpm : ℚ) (a b : ℕ) (enabled : Bool),
      let t := r.openedTransport bpm a b enabled
      let t' := r'.openedTransport bpm a b enabled
      (t.samplesToTicks t.loopStartSamples, t.samplesToTicks t.loopEndSamples) =
        (t'.samplesToTicks t'.loopStartSamples, t'.samplesToTicks t'.loopEndSamples) := by
    intro bpm a b enabled t t'
    have hticks : ∀ ticks, TransportPosition.ticksToSamples
        { r.transport with bpm := ProjectState.clampBpm bpm } ticks =
          TransportPosition.ticksToSamples { r'.transport with bpm := ProjectState.clampBpm bpm } ticks :=
      TransportPosition.ticksToSamples_congr rfl h
    have hsamples : ∀ samples, t.samplesToTicks samples = t'.samplesToTicks samples :=
      TransportPosition.samplesToTicks_congr rfl h
    have hstart : t.loopStartSamples = t'.loopStartSamples := hticks a
    have hend : t.loopEndSamples = t'.loopEndSamples := hticks b
    rw [hstart, hend, hsamples, hsamples]
  cases doc with
  | openLive doc => exact hkept _ _ _ _
  | openStudio doc => exact hkept _ _ _ _

theorem mixer_applyOpenStudio (s : DocumentState) (doc : OpenStudioFile.Document) :
    mixerCommands (s.applyOpenStudio toLowercase disk baseDir doc).2 =
      pushTrackMixToEngine ((s.seen toLowercase (.openStudio doc)).map MixerTrack.strip) := by
  rw [applyOpenStudio_eq]
  show mixerCommands (_ ++ _) = _
  rw [mixerCommands_append]
  show mixerCommands (List.map _ _) ++ [] = _
  rw [mixerCommands_mixer, List.append_nil]

theorem opensAlike_openStudio_iff {r r' : DocumentState} (doc : OpenStudioFile.Document) :
    OpensAlike toLowercase disk baseDir (.openStudio doc) r r' ↔
      (r.seen toLowercase (.openStudio doc)).map MixerTrack.mix =
          (r'.seen toLowercase (.openStudio doc)).map MixerTrack.mix ∧
        r.keptLoop (.openStudio doc) = r'.keptLoop (.openStudio doc) := by
  constructor
  · rintro ⟨hcaptured, _, hmixer⟩
    refine ⟨?_, ?_⟩
    · have hpush : mixerCommands (r.applyOpenStudio toLowercase disk baseDir doc).2 =
          mixerCommands (r'.applyOpenStudio toLowercase disk baseDir doc).2 := hmixer
      rw [mixer_applyOpenStudio, mixer_applyOpenStudio] at hpush
      exact push_eq_push_iff.mp hpush
    · have hdoc : (r.applyOpenStudio toLowercase disk baseDir doc).1.captureOpenStudio =
          (r'.applyOpenStudio toLowercase disk baseDir doc).1.captureOpenStudio :=
        OpenDocument.openStudio.inj hcaptured
      rw [applyOpenStudio_eq, applyOpenStudio_eq] at hdoc
      exact congrArg (fun d => (d.transport.loopStartTicks, d.transport.loopEndTicks)) hdoc
  · rintro ⟨hmix, hloop⟩
    have hlength : (r.seen toLowercase (.openStudio doc)).length =
        (r'.seen toLowercase (.openStudio doc)).length := by
      have hlen := congrArg List.length hmix
      rwa [List.length_map, List.length_map] at hlen
    have hstart : (r.keptLoop (.openStudio doc)).1 = (r'.keptLoop (.openStudio doc)).1 := by rw [hloop]
    have hend : (r.keptLoop (.openStudio doc)).2 = (r'.keptLoop (.openStudio doc)).2 := by rw [hloop]
    refine ⟨?_, ?_, ?_⟩
    · show OpenDocument.openStudio (r.applyOpenStudio toLowercase disk baseDir doc).1.captureOpenStudio =
        .openStudio (r'.applyOpenStudio toLowercase disk baseDir doc).1.captureOpenStudio
      simp only [keptLoop] at hstart hend
      simp only [applyOpenStudio_eq, captureOpenStudio, hlength, hstart, hend]
      rfl
    · show Sum.inl (r.applyOpenStudio toLowercase disk baseDir doc).1.timeline.clips =
        .inl (r'.applyOpenStudio toLowercase disk baseDir doc).1.timeline.clips
      simp only [applyOpenStudio_eq, hlength]
    · show mixerCommands (r.applyOpenStudio toLowercase disk baseDir doc).2 =
        mixerCommands (r'.applyOpenStudio toLowercase disk baseDir doc).2
      rw [mixer_applyOpenStudio, mixer_applyOpenStudio]
      exact push_eq_push_iff.mpr hmix

theorem mixer_applyOpenLive (s : DocumentState) (doc : OpenLiveFile.Document) :
    mixerCommands (s.applyOpenLive toLowercase disk baseDir doc).2 =
      (syncMatrixMixer ((setMaster doc.masterVolume doc.masterPan
          (builtOrDefault toLowercase doc.liveTracks [defaultMaster])).map MixerTrack.strip)
            doc.matrix.tracks [] []).2.2 ++
        pushTrackMixToEngine ((s.seen toLowercase (.openLive doc)).map MixerTrack.strip) := by
  rw [applyOpenLive_eq]
  show mixerCommands (.setBpm _ :: _ ++ _ ++ _ ++ _) = _
  rw [mixerCommands_append, mixerCommands_append, mixerCommands_append]
  show mixerCommands (List.map .pad _) ++ mixerCommands (List.map .mixer _) ++
    mixerCommands (List.map .mixer _) ++ [] = _
  rw [mixerCommands_pad, mixerCommands_mixer, mixerCommands_mixer, List.nil_append, List.append_nil]

theorem opensAlike_openLive_iff {r r' : DocumentState} (doc : OpenLiveFile.Document) :
    OpensAlike toLowercase disk baseDir (.openLive doc) r r' ↔
      (r.seen toLowercase (.openLive doc)).map MixerTrack.mix =
          (r'.seen toLowercase (.openLive doc)).map MixerTrack.mix ∧
        r.keptLoop (.openLive doc) = r'.keptLoop (.openLive doc) := by
  have hmixer : mixerCommands (r.applyOpenLive toLowercase disk baseDir doc).2 =
      mixerCommands (r'.applyOpenLive toLowercase disk baseDir doc).2 ↔
        (r.seen toLowercase (.openLive doc)).map MixerTrack.mix =
          (r'.seen toLowercase (.openLive doc)).map MixerTrack.mix := by
    rw [mixer_applyOpenLive, mixer_applyOpenLive, List.append_cancel_left_eq, push_eq_push_iff]
  constructor
  · rintro ⟨hcaptured, _, hpush⟩
    refine ⟨hmixer.mp hpush, ?_⟩
    have hdoc : (r.applyOpenLive toLowercase disk baseDir doc).1.captureOpenLive =
        (r'.applyOpenLive toLowercase disk baseDir doc).1.captureOpenLive :=
      OpenDocument.openLive.inj hcaptured
    rw [applyOpenLive_eq, applyOpenLive_eq] at hdoc
    exact congrArg (fun d => (d.transport.loopStartTicks, d.transport.loopEndTicks)) hdoc
  · rintro ⟨hmix, hloop⟩
    have hstart : (r.keptLoop (.openLive doc)).1 = (r'.keptLoop (.openLive doc)).1 := by rw [hloop]
    have hend : (r.keptLoop (.openLive doc)).2 = (r'.keptLoop (.openLive doc)).2 := by rw [hloop]
    refine ⟨?_, ?_, hmixer.mpr hmix⟩
    · show OpenDocument.openLive (r.applyOpenLive toLowercase disk baseDir doc).1.captureOpenLive =
        .openLive (r'.applyOpenLive toLowercase disk baseDir doc).1.captureOpenLive
      simp only [keptLoop] at hstart hend
      simp only [applyOpenLive_eq, captureOpenLive, hstart, hend]
      rfl
    · show Sum.inr ((r.applyOpenLive toLowercase disk baseDir doc).1.matrix.grid.map _) =
        .inr ((r'.applyOpenLive toLowercase disk baseDir doc).1.matrix.grid.map _)
      simp only [applyOpenLive_eq]

/-- A document opens alike over two states just when the tracks that are looked at have the same mix, one
by one, and its loop region survives alike. -/
theorem opensAlike_iff (doc : OpenDocument) (r r' : DocumentState) :
    OpensAlike toLowercase disk baseDir doc r r' ↔
      (r.seen toLowercase doc).map MixerTrack.mix = (r'.seen toLowercase doc).map MixerTrack.mix ∧
        r.keptLoop doc = r'.keptLoop doc := by
  cases doc with
  | openLive doc => exact opensAlike_openLive_iff toLowercase disk baseDir doc
  | openStudio doc => exact opensAlike_openStudio_iff toLowercase disk baseDir doc

end

/-- The tracks of a new application, in a mode. -/
def blank (mode : AppMode) : DocumentState :=
  { mode := mode
    transport := ⟨44100, 120, 0, .stopped, false, 0, 0⟩
    meter := (4, 4)
    liveTracks := [defaultMaster]
    studioTracks := defaultStudioMixer
    matrix := SessionMatrixState.default
    timeline := ⟨[], 960, 1, 0, 0, false⟩
    openliveView := 0
    openstudioView := 0 }

def emptyStudioDocument : OpenStudioFile.Document :=
  { formatVersion := 1, transport := ⟨120, 4, 4, 0, 0, false⟩, studioTracks := []
    playlist := ⟨[(1, ⟨1, "kick", 0, 960, ⟨0, 0, 0, 1⟩, .pattern 1⟩)], 960, 2, 0, 0, false⟩, view := 0 }

/-- The clip on the second track is dropped when the document is opened from OpenLive. -/
theorem not_opensAlike :
    ¬ ∀ (doc : OpenDocument) (r r' : DocumentState),
      OpensAlike id (fun _ => none) none doc r r' := by
  intro h
  have hclips := (h (.openStudio emptyStudioDocument) (blank .openStudio) (blank .openLive)).clips
  have hlength := congrArg (Sum.elim List.length fun _ => 0) hclips
  exact absurd hlength (by decide)

end DocumentState

end HikaruOpenLive.Gui
