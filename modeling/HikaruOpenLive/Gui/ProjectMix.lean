import HikaruOpenLive.Gui.TrackIndexes
import HikaruOpenLive.Gui.FrameSync

/-! # The mix of an opened project

A project sends the mix of the strips of the mode it is opened from, each under its own index. In OpenLive
a strip's pads play one index further down, so that they are heard with the mix of the strip above
(`trackMix_openLive`); in OpenStudio the clips play where the mix is sent to. With the indexes of all
commands the claim of one index holds only of a mixer whose tracks are all at index 0 (`indexed_iff`).
-/
set_option autoImplicit false

namespace HikaruOpenLive.Gui

open Engine Foundations.ListEdits

/-- The mix of one track. -/
structure TrackMix where
  volume : ℚ
  pan : ℚ
  mute : Bool
  solo : Bool
deriving DecidableEq

end HikaruOpenLive.Gui

namespace HikaruOpenLive.Engine.Mixer

open Gui

def trackMix (mx : Mixer) (i : Fin 16) : TrackMix :=
  ⟨mx.trackVolumes i, mx.trackPans i, mx.trackMutes i, mx.trackSolos i⟩

theorem setAt_other {α : Type} (values : Fin 16 → α) {trackIdx : ℕ} (a : α) {i : Fin 16}
    (h : (i : ℕ) ≠ trackIdx) : setAt values trackIdx a i = values i := by
  unfold setAt
  split
  · refine Function.update_of_ne (fun hi => h ?_) _ _
    rw [hi]
  · rfl

theorem setAt_self {α : Type} (values : Fin 16 → α) (a : α) (i : Fin 16) : setAt values i a i = a := by
  unfold setAt
  rw [dif_pos i.isLt]
  exact Function.update_self _ _ _

end HikaruOpenLive.Engine.Mixer

namespace HikaruOpenLive.Gui

open Engine Foundations.ListEdits

/-- The mix of a strip as the engine takes it. -/
def MixerStrip.engineMix (t : MixerStrip) : TrackMix :=
  ⟨max 0 (min t.volume 1), Mixer.panPercent t.pan, t.mute, t.solo⟩

/-- A strip's commands set the track of their index and no other. -/
theorem trackMix_mixCommands (t : MixerStrip) (idx : ℕ) (mx : Mixer) (i : Fin 16) :
    ((t.mixCommands idx).foldl Mixer.apply mx).trackMix i =
      if (i : ℕ) = idx then t.engineMix else mx.trackMix i := by
  unfold MixerStrip.mixCommands Mixer.trackMix
  simp only [List.foldl_cons, List.foldl_nil, Mixer.apply]
  by_cases hi : (i : ℕ) = idx
  · subst hi
    rw [if_pos rfl]
    simp only [Mixer.setAt_self]
    rfl
  · rw [if_neg hi]
    simp only [Mixer.setAt_other _ _ hi]

/-- A push leaves each track with the mix of the strip at its index, if there is one. -/
theorem trackMix_push (tracks : List MixerStrip) (mx : Mixer) (i : Fin 16) :
    ((pushTrackMixToEngine tracks).foldl Mixer.apply mx).trackMix i =
      (tracks[(i : ℕ)]?.map MixerStrip.engineMix).getD (mx.trackMix i) := by
  have hfrom : ∀ (tracks : List MixerStrip) (start : ℕ) (mx : Mixer),
      (((tracks.zipIdx start).flatMap fun x => x.1.mixCommands x.2).foldl Mixer.apply mx).trackMix
          i =
        if start ≤ (i : ℕ) then
          (tracks[(i : ℕ) - start]?.map MixerStrip.engineMix).getD (mx.trackMix i)
        else mx.trackMix i := by
    intro tracks
    induction tracks with
    | nil =>
      intro start mx
      simp
    | cons t tracks ih =>
      intro start mx
      rw [List.zipIdx_cons, List.flatMap_cons, List.foldl_append, ih, trackMix_mixCommands]
      obtain hlt | heq | hgt := Nat.lt_trichotomy (i : ℕ) start
      · rw [if_neg (by omega), if_neg (by omega), if_neg (by omega)]
      · rw [if_neg (by omega), if_pos heq, if_pos (by omega), heq, Nat.sub_self]
        rfl
      · have hsub : (i : ℕ) - start = (i : ℕ) - (start + 1) + 1 := by omega
        rw [if_pos (by omega), if_neg (by omega), if_pos (by omega), hsub, List.getElem?_cons_succ]
  have hzero := hfrom tracks 0 mx
  rw [if_pos (Nat.zero_le _), Nat.sub_zero] at hzero
  exact hzero

/-! ## The strips of a project -/

def Project.strips : Project → List MixerStrip
  | .openLive project =>
    fitStrips (tracksOrDefault project.liveTracks defaultLiveTracks) project.matrix.tracks
  | .openStudio project => tracksOrDefault project.studioTracks defaultStudioTracks

theorem firstOnly_congr {as bs : List MixerStrip}
    (h : as.map MixerStrip.isMaster = bs.map MixerStrip.isMaster) : FirstOnly as ↔ FirstOnly bs := by
  have hone : ∀ {as bs : List MixerStrip}, as.map MixerStrip.isMaster = bs.map MixerStrip.isMaster →
      FirstOnly as → FirstOnly bs := by
    intro as bs h has p t ht hmaster
    have hp := congrArg (fun flags => flags[p]?) h
    simp only [List.getElem?_map, ht, Option.map_some, hmaster] at hp
    obtain ⟨t', ht', hmaster'⟩ := Option.map_eq_some_iff.mp hp
    exact has p t' ht' hmaster'
  exact ⟨hone h, hone h.symm⟩

theorem flags_withMaster {as bs : List MixerStrip}
    (h : as.map MixerStrip.isMaster = bs.map MixerStrip.isMaster) :
    (withMaster as).map MixerStrip.isMaster = (withMaster bs).map MixerStrip.isMaster := by
  cases as with
  | nil =>
    rw [List.map_nil] at h
    rw [List.map_eq_nil_iff.mp h.symm]
  | cons a as =>
    cases bs with
    | nil => exact absurd h (List.cons_ne_nil _ _)
    | cons b bs =>
      rw [List.map_cons, List.map_cons, List.cons.injEq] at h
      simp only [withMaster, h.1]
      split
      · rw [List.map_cons, List.map_cons, h.1, h.2]
      · rw [List.map_cons, List.map_cons, List.map_cons, List.map_cons, h.1, h.2]

theorem flags_fitStrips {as bs : List MixerStrip}
    (h : as.map MixerStrip.isMaster = bs.map MixerStrip.isMaster) (tracks : List TrackMeta) :
    (fitStrips as tracks).map MixerStrip.isMaster = (fitStrips bs tracks).map MixerStrip.isMaster := by
  have hflags := flags_withMaster h
  have hlength : (withMaster as).length = (withMaster bs).length := by
    have hlen := congrArg List.length hflags
    rwa [List.length_map, List.length_map] at hlen
  unfold fitStrips
  simp only [List.map_append, List.map_take, hflags, hlength]

/-- The reconciliation with the matrix makes no strip a master, nor a master none. -/
theorem flags_syncMatrixMixer (live : List MixerStrip) (tracks oldMatrix : List TrackMeta)
    (oldMixer : List MixerStrip) :
    (syncMatrixMixer live tracks oldMatrix oldMixer).1.map MixerStrip.isMaster =
      (fitStrips live tracks).map MixerStrip.isMaster := by
  have hlen := length_fitStrips live tracks
  have hlength : tracks.length = (fitStrips live tracks).tail.length := by
    rw [List.length_tail]
    omega
  have htail : (((tracks.zip (fitStrips live tracks).tail).zipIdx.map fun x =>
      syncStrip x.2 (oldMatrix.getD x.2 oldTrack) (oldMixer.getD (x.2 + 1) (.new false)) x.1.1
        x.1.2).map
        fun r => r.2.1.isMaster) = (fitStrips live tracks).tail.map MixerStrip.isMaster := by
    rw [List.map_map]
    have hfst : ((tracks.zip (fitStrips live tracks).tail).zipIdx.map fun x => x.1.2.isMaster) =
        (fitStrips live tracks).tail.map MixerStrip.isMaster := by
      have hzip : (tracks.zip (fitStrips live tracks).tail).map Prod.snd =
          (fitStrips live tracks).tail := List.map_snd_zip (by omega)
      rw [show (fun x : (TrackMeta × MixerStrip) × ℕ => x.1.2.isMaster) =
        (fun y : TrackMeta × MixerStrip => y.2.isMaster) ∘ Prod.fst from rfl, ← List.map_map,
        List.zipIdx_map_fst]
      conv_rhs => rw [← hzip]
      rw [List.map_map]
      rfl
    exact hfst
  unfold syncMatrixMixer
  simp only [List.map_append, List.map_map]
  rw [List.map_map] at htail
  cases hfit : fitStrips live tracks with
  | nil => simp [hfit] at hlen
  | cons first rest =>
    rw [hfit] at htail
    simp only [List.tail_cons] at htail
    simp only [List.take_succ_cons, List.take_zero, List.map_cons, List.map_nil, List.tail_cons,
      List.cons_append, List.nil_append]
    exact congrArg (List.cons first.isMaster) htail

/-! ## Opening a project -/

def SentCommand.onMixer (mx : Mixer) : SentCommand → Mixer
  | .mixer cmd => mx.apply cmd
  | .setBpm _ | .setGlobalLoop _ _ _ | .pad _ | .playlist _ => mx

/-- The mixer of the engine once commands are carried out. -/
def mixerAfter (mx : Mixer) (cmds : List SentCommand) : Mixer :=
  cmds.foldl SentCommand.onMixer mx

theorem mixerAfter_append (mx : Mixer) (first second : List SentCommand) :
    mixerAfter mx (first ++ second) = mixerAfter (mixerAfter mx first) second :=
  List.foldl_append

theorem mixerAfter_mixer (mx : Mixer) (cmds : List MixerCommand) :
    mixerAfter mx (cmds.map .mixer) = cmds.foldl Mixer.apply mx :=
  List.foldl_map

theorem mixerAfter_pushed (mx : Mixer) (bpm : ℚ) (cmds : List MixerCommand) (startSamples endSamples : ℕ)
    (enabled : Bool) :
    mixerAfter mx (.setBpm bpm :: cmds.map .mixer ++ [.setGlobalLoop startSamples endSamples enabled]) =
      cmds.foldl Mixer.apply mx := by
  rw [mixerAfter_append]
  exact mixerAfter_mixer mx cmds

/-- The engine's track on which the clips of a strip play: the pads of the matrix in OpenLive, the clips
of the playlist in OpenStudio. -/
def clipTrack : AppMode → ℕ → Option ℕ
  | .openLive, p => AppState.engineTrackOf p
  | .openStudio, p => some p

namespace ProjectState

/-- Each track of the mixer is heard with the mix of its strip. -/
def MixFollows (s : ProjectState) (mx : Mixer) : Prop :=
  ∀ p t, s.tracks[p]? = some t → t.isMaster = false →
    ∀ i : Fin 16, clipTrack s.mode p = some (i : ℕ) → mx.trackMix i = t.engineMix

/-- Every command for a track carries one index, before a project is opened and after, and each track is
then heard with its own mix. -/
def Indexed (disk : Disk) (baseDir : Option String) (s : ProjectState) (project : Project) (mx : Mixer) :
    Prop :=
  s.SameIndex disk ∧ (s.apply disk baseDir project).1.SameIndex disk ∧
    (s.apply disk baseDir project).1.MixFollows (mixerAfter mx (s.apply disk baseDir project).2)

/-- The first strip of a project, where it is a track, is pushed itself, or the live strip that is pushed
in its place is set like it. -/
def FirstHeard (s : ProjectState) (project : Project) (mx : Mixer) : Prop :=
  ∀ t, project.strips[0]? = some t → t.isMaster = false → s.mode = .openStudio ∨
    (s.liveTracks[0]?.map MixerStrip.engineMix).getD (mx.trackMix 0) = t.engineMix

variable {disk : Disk} {baseDir : Option String} {s : ProjectState} {mx : Mixer}

/-- Opened from OpenLive, a live project leaves each track of the engine with the mix of the strip of the
same index, whose pads play on the track below. -/
theorem trackMix_openLive (hmode : s.mode = .openLive) (project : OpenLiveProject) (i : Fin 16)
    {t : MixerStrip} (ht : (s.apply disk baseDir (.openLive project)).1.liveTracks[(i : ℕ)]? = some t) :
    (mixerAfter mx (s.apply disk baseDir (.openLive project)).2).trackMix i = t.engineMix := by
  unfold apply applyOpenLive withBpm applyLoop tracks at ht ⊢
  simp only [hmode] at ht ⊢
  rw [mixerAfter_append, mixerAfter_append, mixerAfter_mixer]
  change ((pushTrackMixToEngine _).foldl Mixer.apply _).trackMix i = t.engineMix
  rw [trackMix_push, ht]
  rfl

theorem trackMix_openStudio (project : OpenStudioProject) (i : Fin 16) :
    (mixerAfter mx (s.apply disk baseDir (.openStudio project)).2).trackMix i =
      (((match s.mode with
        | .openLive => s.liveTracks
        | .openStudio => (Project.openStudio project).strips)[(i : ℕ)]?).map MixerStrip.engineMix).getD
          (mx.trackMix i) := by
  unfold apply applyOpenStudio withBpm applyLoop tracks
  cases hmode : s.mode with
  | openLive =>
    simp only
    rw [mixerAfter_pushed]
    exact trackMix_push _ _ _
  | openStudio =>
    simp only
    rw [mixerAfter_pushed]
    exact trackMix_push _ _ _

/-- The strips that an opened project leaves visible are those of the project. -/
theorem flags_applied (project : Project) :
    (s.apply disk baseDir project).1.tracks.map MixerStrip.isMaster =
      project.strips.map MixerStrip.isMaster := by
  cases project with
  | openStudio project => rfl
  | openLive project =>
    let setMaster (t : MixerStrip) : MixerStrip :=
      { t with volume := project.masterVolume, pan := project.masterPan }
    have hmaster : (updateFirst MixerStrip.isMaster setMaster
        (tracksOrDefault project.liveTracks defaultLiveTracks)).map MixerStrip.isMaster =
          (tracksOrDefault project.liveTracks defaultLiveTracks).map MixerStrip.isMaster :=
      map_updateFirst _ setMaster (fun _ => rfl) _
    exact (flags_syncMatrixMixer _ _ _ _).trans (flags_fitStrips hmaster _)

theorem first_openLive (project : OpenLiveProject) {t : MixerStrip}
    (ht : (Project.openLive project).strips[0]? = some t) : t.isMaster = true := by
  obtain ⟨first, hstrips, hmaster⟩ :=
    withMaster_eq (tracksOrDefault project.liveTracks defaultLiveTracks)
  simp only [Project.strips, fitStrips, hstrips, List.take_succ_cons, List.cons_append,
    List.getElem?_cons_zero] at ht
  rw [← Option.some.inj ht]
  exact hmaster

/-- Where only first strips are tracks, an opened project is heard as its strips are set just when its
first one is. -/
theorem mixFollows_iff {project : Project} (hfirst : FirstOnly project.strips) :
    (s.apply disk baseDir project).1.MixFollows (mixerAfter mx (s.apply disk baseDir project).2) ↔
      s.FirstHeard project mx := by
  cases project with
  | openLive project =>
    have hflags : (s.apply disk baseDir (.openLive project)).1.tracks.map MixerStrip.isMaster =
        (Project.openLive project).strips.map MixerStrip.isMaster := flags_applied _
    constructor
    · intro _ t ht hmaster
      rw [first_openLive project ht] at hmaster
      exact absurd hmaster (by decide)
    · intro _ p t ht hmaster i hi
      obtain rfl : p = 0 := (firstOnly_congr hflags).mpr hfirst p t ht hmaster
      exact nomatch hi
  | openStudio project =>
    have hfirst' : FirstOnly (s.apply disk baseDir (.openStudio project)).1.tracks := hfirst
    constructor
    · intro h t ht hmaster
      have hmix := h 0 t ht hmaster 0 rfl
      rw [trackMix_openStudio] at hmix
      cases hmode : s.mode with
      | openLive =>
        rw [hmode] at hmix
        exact Or.inr hmix
      | openStudio => exact Or.inl rfl
    · intro h p t ht hmaster i hi
      obtain rfl : p = 0 := hfirst' p t ht hmaster
      have hi0 : i = 0 := Fin.ext (Option.some.inj hi).symm
      subst hi0
      rw [trackMix_openStudio]
      cases hmode : s.mode with
      | openLive =>
        obtain hstudio | hmix := h t ht hmaster
        · rw [hmode] at hstudio
          nomatch hstudio
        · exact hmix
      | openStudio =>
        have ht0 : (Project.openStudio project).strips[0]? = some t := ht
        change (((Project.openStudio project).strips[0]?).map MixerStrip.engineMix).getD _ = _
        rw [ht0]
        rfl

/-- The commands for each track carry one index, and its mix is heard where its clips play, just when every
strip but the first is a master. -/
theorem indexed_iff (disk : Disk) (baseDir : Option String) (s : ProjectState) (project : Project)
    (mx : Mixer) :
    s.Indexed disk baseDir project mx ↔
      FirstOnly s.tracks ∧ FirstOnly project.strips ∧ s.FirstHeard project mx := by
  have hflags : (s.apply disk baseDir project).1.tracks.map MixerStrip.isMaster =
      project.strips.map MixerStrip.isMaster := flags_applied project
  have happlied : (s.apply disk baseDir project).1.SameIndex disk ↔ FirstOnly project.strips :=
    (sameIndex_iff disk _).trans (firstOnly_congr hflags)
  unfold Indexed
  rw [sameIndex_iff, happlied]
  constructor
  · rintro ⟨hs, hproject, hmix⟩
    exact ⟨hs, hproject, (mixFollows_iff hproject).mp hmix⟩
  · rintro ⟨hs, hproject, hheard⟩
    exact ⟨hs, hproject, (mixFollows_iff hproject).mpr hheard⟩

/-- A live project of one track at a fifth of its volume. -/
def oneQuietTrack : OpenLiveProject :=
  { transport := ⟨120, 0, 0, false⟩
    liveTracks := [.new true, { MixerStrip.new false with volume := 1 / 5 }]
    masterVolume := 7 / 10
    masterPan := 0
    matrix :=
      { OpenLiveFile.defaultMatrix with
        tracks := [⟨"Bass", false, false, 1 / 5, 0⟩], scenes := [⟨"Intro"⟩], grid := [[none]] } }

/-- Its pads play at the volume of the master. -/
theorem not_indexed_oneQuietTrack :
    ¬ ∀ (s : ProjectState) (project : Project) (mx : Mixer), s.Indexed (fun _ => none) none project mx := by
  intro h
  obtain ⟨_, _, hmix⟩ := h initial (.openLive oneQuietTrack) (AudioEngine.new 44100 : AudioEngine ℕ).mixer
  have hstrip : ((initial.apply (fun _ => none) none (.openLive oneQuietTrack)).1.tracks[1]?).map
      (fun t => (t.isMaster, t.engineMix.volume)) = some (false, 1 / 5) := by decide +kernel
  have hheard : ((mixerAfter (AudioEngine.new 44100 : AudioEngine ℕ).mixer
      (initial.apply (fun _ => none) none (.openLive oneQuietTrack)).2).trackMix 0).volume = 7 / 10 := by
    decide +kernel
  obtain ⟨t, ht, hvalues⟩ := Option.map_eq_some_iff.mp hstrip
  obtain ⟨hmaster, hvolume⟩ := Prod.mk.inj hvalues
  rw [hmix 1 t ht hmaster 0 rfl, hvolume] at hheard
  exact absurd hheard (by decide +kernel)

end ProjectState

end HikaruOpenLive.Gui
