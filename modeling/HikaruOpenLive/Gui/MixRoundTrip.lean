import HikaruOpenLive.Gui.FrameSync

/-! # The mix of a live project, saved and opened again

The volume, pan, mute and solo of a track are in the matrix and in its strip, and a project saves both.
When it is opened the two are reconciled as if both had been at their defaults before, so a strip that is
not at its default counts as changed and wins, whatever the matrix says.
-/
set_option autoImplicit false

namespace HikaruOpenLive.Gui

open Foundations.ListEdits

/-! ## One track -/

/-- A strip gives way to its track in the matrix: each of its settings is at the default, or is the
track's anyway. -/
structure MixerStrip.Yields (t : MixerStrip) (mx : TrackMeta) : Prop where
  volume : |t.volume - 3 / 4| ≤ f32Epsilon ∨ t.volume = mx.volume
  pan : |t.pan| ≤ f32Epsilon ∨ t.pan = mx.pan
  mute : t.mute = false ∨ t.mute = mx.muted
  solo : t.solo = false ∨ t.solo = mx.soloed

theorem reconcile_fst_eq_iff {α : Type} (matrixChanged mixerChanged : Bool) (mx t : α) :
    (reconcile matrixChanged mixerChanged mx t).1 = mx ↔ mixerChanged = false ∨ t = mx := by
  unfold reconcile
  cases mixerChanged with
  | true => simp
  | false =>
    cases matrixChanged with
    | true => simp
    | false => simp

theorem reconcile_fader_iff (matrixChanged : Bool) (old mx t : ℚ) :
    (reconcile matrixChanged (decide (f32Epsilon < |t - old|)) mx t).1 = mx ↔
      |t - old| ≤ f32Epsilon ∨ t = mx := by
  rw [reconcile_fst_eq_iff, decide_eq_false_iff_not, not_lt]

theorem reconcile_switch_iff (matrixChanged mx t : Bool) :
    (reconcile matrixChanged (t != false) mx t).1 = mx ↔ t = false ∨ t = mx := by
  rw [reconcile_fst_eq_iff, bne_eq_false_iff_eq]

theorem yields_ofTrack (mx : TrackMeta) : (MixerStrip.ofTrack mx).Yields mx :=
  ⟨Or.inr rfl, Or.inr rfl, Or.inr rfl, Or.inr rfl⟩

/-- Reconciled against no earlier state, a track is kept if and only if its strip gives way to it. -/
theorem syncStrip_eq_iff (i : ℕ) (mx : TrackMeta) (t : MixerStrip) :
    (syncStrip i oldTrack (.new false) mx t).1 = mx ↔ t.Yields mx := by
  have hpan : |t.pan - 0| = |t.pan| := by rw [sub_zero]
  constructor
  · intro h
    have hvolume := (reconcile_fader_iff _ _ _ _).mp (congrArg TrackMeta.volume h)
    have hpans := (reconcile_fader_iff _ _ _ _).mp (congrArg TrackMeta.pan h)
    have hmute := (reconcile_switch_iff _ _ _).mp (congrArg TrackMeta.muted h)
    have hsolo := (reconcile_switch_iff _ _ _).mp (congrArg TrackMeta.soloed h)
    exact ⟨hvolume, hpan ▸ hpans, hmute, hsolo⟩
  · rintro ⟨hvolume, hpans, hmute, hsolo⟩
    rw [← hpan] at hpans
    obtain ⟨name, muted, soloed, volume, pan⟩ := mx
    show TrackMeta.mk _ _ _ _ _ = _
    rw [TrackMeta.mk.injEq]
    exact ⟨rfl, (reconcile_switch_iff _ _ _).mpr hmute, (reconcile_switch_iff _ _ _).mpr hsolo,
      (reconcile_fader_iff _ _ _ _).mpr hvolume, (reconcile_fader_iff _ _ _ _).mpr hpans⟩

/-! ## All of them -/

theorem getElem?_fitStrips_succ (live : List MixerStrip) (tracks : List TrackMeta) {i : ℕ}
    {mx : TrackMeta} (hmx : tracks[i]? = some mx) :
    (fitStrips live tracks)[i + 1]? =
      some (((withMaster live)[i + 1]?).getD (MixerStrip.ofTrack mx)) :=
  getElem?_take_append_drop MixerStrip.ofTrack (List.length_pos_iff.mpr (withMaster_ne_nil live)) hmx

theorem getElem?_syncMatrixMixer (live : List MixerStrip) (tracks oldMatrix : List TrackMeta)
    (oldMixer : List MixerStrip) {i : ℕ} {mx : TrackMeta} (hmx : tracks[i]? = some mx) :
    (syncMatrixMixer live tracks oldMatrix oldMixer).2.1[i]? =
      some (syncStrip i (oldMatrix.getD i oldTrack) (oldMixer.getD (i + 1) (.new false)) mx
        (((withMaster live)[i + 1]?).getD (MixerStrip.ofTrack mx))).1 := by
  have hstrip : (fitStrips live tracks).tail[i]? =
      some (((withMaster live)[i + 1]?).getD (MixerStrip.ofTrack mx)) := by
    rw [List.getElem?_tail]
    exact getElem?_fitStrips_succ live tracks hmx
  unfold syncMatrixMixer
  dsimp only
  rw [List.getElem?_map, getElem?_map_zip_zipIdx _ hmx hstrip]
  rfl

theorem length_syncMatrixMixer_tracks (live : List MixerStrip) (tracks oldMatrix : List TrackMeta)
    (oldMixer : List MixerStrip) :
    (syncMatrixMixer live tracks oldMatrix oldMixer).2.1.length = tracks.length := by
  have hlen := length_fitStrips live tracks
  simp only [syncMatrixMixer, List.length_map, List.length_zipIdx, List.length_zip, List.length_tail]
  omega

/-- The strips of a mixer give way to the tracks of the matrix, those that are there. -/
def MixYields (live : List MixerStrip) (tracks : List TrackMeta) : Prop :=
  ∀ i mx t, tracks[i]? = some mx → (withMaster live)[i + 1]? = some t → t.Yields mx

theorem tracks_syncMatrixMixer_iff (live : List MixerStrip) (tracks : List TrackMeta) :
    (syncMatrixMixer live tracks [] []).2.1 = tracks ↔ MixYields live tracks := by
  constructor
  · intro h i mx t hmx ht
    have hi := getElem?_syncMatrixMixer live tracks [] [] hmx
    rw [h, hmx, ht] at hi
    exact (syncStrip_eq_iff i mx t).mp (Option.some.inj hi).symm
  · intro hyields
    apply List.ext_getElem?
    intro i
    cases hmx : tracks[i]? with
    | none =>
      rw [List.getElem?_eq_none_iff] at hmx ⊢
      rw [length_syncMatrixMixer_tracks]
      exact hmx
    | some mx =>
      rw [getElem?_syncMatrixMixer live tracks [] [] hmx]
      refine congrArg some ((syncStrip_eq_iff i mx _).mpr ?_)
      cases ht : (withMaster live)[i + 1]? with
      | none => exact yields_ofTrack mx
      | some t => exact hyields i mx t hmx ht

/-! ## Saved and opened -/

namespace ProjectState

/-- The live half of the application as it is saved. The master is in it twice. -/
def captureOpenLive (s : ProjectState) : OpenLiveProject :=
  let master := s.liveTracks.find? MixerStrip.isMaster
  { transport := s.captureTransport
    liveTracks := s.liveTracks
    masterVolume := (master.map MixerStrip.volume).getD 0
    masterPan := (master.map MixerStrip.pan).getD 0
    matrix := captureMatrix s.matrix.matrix }

end ProjectState

theorem updateFirst_master (live : List MixerStrip) :
    updateFirst MixerStrip.isMaster (fun t =>
      { t with
        volume := (((live.find? MixerStrip.isMaster).map MixerStrip.volume).getD 0)
        pan := (((live.find? MixerStrip.isMaster).map MixerStrip.pan).getD 0) }) live = live := by
  cases hfind : live.find? MixerStrip.isMaster with
  | none => exact updateFirst_eq_self fun t ht => List.find?_eq_none.mp hfind t ht
  | some master => exact updateFirst_found hfind rfl

namespace ProjectState

variable (disk : Disk) (baseDir : Option String)

/-- The strips that a saved project is opened with are those it was saved with, or the master alone. -/
theorem mixYields_captured (s : ProjectState) :
    MixYields (updateFirst MixerStrip.isMaster
        (fun t => { t with
          volume := s.captureOpenLive.masterVolume, pan := s.captureOpenLive.masterPan })
        (tracksOrDefault s.liveTracks defaultLiveTracks)) s.matrix.matrix.tracks ↔
      MixYields s.liveTracks s.matrix.matrix.tracks := by
  cases hlive : s.liveTracks with
  | nil =>
    -- Neither list has a strip beyond the master's.
    constructor
    · intro _ i mx t _ ht
      exact nomatch ht
    · intro _ i mx t _ ht
      exact nomatch ht
  | cons first rest =>
    have hstrips : tracksOrDefault (first :: rest) defaultLiveTracks = first :: rest := rfl
    have hmaster := updateFirst_master (first :: rest)
    rw [hstrips, captureOpenLive, hlive]
    simp only [hmaster]

/-- A project saved and opened again gives back the tracks of the matrix if and only if every strip has
each of its settings at the default, or equal to that of its track. -/
theorem tracks_reopened_iff (r s : ProjectState) :
    (r.apply disk baseDir (.openLive s.captureOpenLive)).1.matrix.matrix.tracks =
        s.matrix.matrix.tracks ↔
      MixYields s.liveTracks s.matrix.matrix.tracks := by
  rw [← mixYields_captured s]
  exact tracks_syncMatrixMixer_iff _ _

/-- The application with one track at half its volume, whose strip is at a quarter. -/
def halfAndQuarter : ProjectState :=
  { initial with
    liveTracks := [.new true, { MixerStrip.new false with volume := 1 / 4 }]
    matrix :=
      ⟨{ SessionMatrixState.default with
          tracks := [⟨"Bass", false, false, 1 / 2, 0⟩], grid := [List.replicate 8 .default] }, none⟩ }

/-- The quarter of the strip comes back. -/
theorem not_tracks_reopened_halfAndQuarter :
    (initial.apply (fun _ => none) none (.openLive halfAndQuarter.captureOpenLive)).1.matrix.matrix.tracks ≠
      halfAndQuarter.matrix.matrix.tracks := by
  intro h
  have hvolumes := congrArg (List.map TrackMeta.volume) h
  revert hvolumes
  decide +kernel

end ProjectState

end HikaruOpenLive.Gui
