import HikaruOpenLive.Gui.AppState
import HikaruOpenLive.Gui.CommandLoop
import HikaruOpenLive.Gui.MatrixState

/-! # The strips of the mixer

A strip is a track with its fader: the mixer keeps the master at index 0 and the track of the engine's
index `k` at `k + 1`, or, in OpenStudio, wherever a file puts it. A project file keeps the strips as they
are, and the strips of the live mode are reconciled with the tracks of the matrix. The name of a strip,
its routing and its width are left out.
-/
set_option autoImplicit false

namespace HikaruOpenLive.Gui

open Engine

structure MixerStrip extends Track where
  isMaster : Bool
  volume : ℚ
  pan : ℚ
  mute : Bool
  solo : Bool

namespace MixerStrip

def new (isMaster : Bool) : MixerStrip :=
  { effects := [], isMaster := isMaster, volume := 3 / 4, pan := 0, mute := false, solo := false }

/-- What `push_track_mix_to_engine` sends of the strip at an index. -/
def mixCommands (t : MixerStrip) (idx : ℕ) : List MixerCommand :=
  [.setTrackVolume idx t.volume, .setTrackPan idx t.pan, .setTrackMute idx t.mute,
    .setTrackSolo idx t.solo]

end MixerStrip

def defaultLiveTracks : List MixerStrip :=
  [{ MixerStrip.new true with volume := 7 / 10 }]

def defaultStudioTracks : List MixerStrip :=
  [{ MixerStrip.new true with volume := 7 / 10 }, { MixerStrip.new false with volume := 7 / 10 }]

def tracksOrDefault (saved fallback : List MixerStrip) : List MixerStrip :=
  if saved = [] then fallback else saved

/-- The rows of the playlist: the indexes of the strips that are no master. -/
def rowKeysOf (tracks : List MixerStrip) : List ℕ :=
  (tracks.zipIdx.filter fun (t, _) => !t.isMaster).map Prod.snd

def pushTrackMixToEngine (tracks : List MixerStrip) : List MixerCommand :=
  tracks.zipIdx.flatMap fun (t, idx) => t.mixCommands idx

/-! ## The live strips and the matrix -/

def f32Epsilon : ℚ :=
  1 / 2 ^ 23

/-- A value of the mixer and its counterpart in the matrix, reconciled: the side that changed wins, and
where both did the mixer. -/
def reconcile {α : Type} (matrixChanged mixerChanged : Bool) (mx t : α) : α × α :=
  if mixerChanged then (t, t) else if matrixChanged then (mx, mx) else (mx, t)

/-- One track of `sync_matrix_mixer_bidirectional`. A value that only the matrix changed is sent for the
switches and not for the faders. -/
def syncStrip (i : ℕ) (oldMx : TrackMeta) (oldMix : MixerStrip) (mx : TrackMeta) (t : MixerStrip) :
    TrackMeta × MixerStrip × List MixerCommand :=
  let far (a b : ℚ) : Bool := decide (f32Epsilon < |a - b|)
  let volume := reconcile (far mx.volume oldMx.volume) (far t.volume oldMix.volume) mx.volume t.volume
  let pan := reconcile (far mx.pan oldMx.pan) (far t.pan oldMix.pan) mx.pan t.pan
  let muteChanged := (mx.muted != oldMx.muted, t.mute != oldMix.mute)
  let soloChanged := (mx.soloed != oldMx.soloed, t.solo != oldMix.solo)
  let mute := reconcile muteChanged.1 muteChanged.2 mx.muted t.mute
  let solo := reconcile soloChanged.1 soloChanged.2 mx.soloed t.solo
  ({ mx with volume := volume.1, pan := pan.1, muted := mute.1, soloed := solo.1 },
    { t with volume := volume.2, pan := pan.2, mute := mute.2, solo := solo.2 },
    (if far t.volume oldMix.volume then [.setTrackVolume i t.volume] else []) ++
      (if far t.pan oldMix.pan then [.setTrackPan i t.pan] else []) ++
      (if muteChanged.1 || muteChanged.2 then [.setTrackMute i mute.2] else []) ++
      (if soloChanged.1 || soloChanged.2 then [.setTrackSolo i solo.2] else []))

/-- The values an unknown earlier state counts as. -/
def oldTrack : TrackMeta :=
  ⟨"", false, false, 3 / 4, 0⟩

def MixerStrip.ofTrack (mx : TrackMeta) : MixerStrip :=
  { MixerStrip.new false with
    volume := mx.volume, pan := mx.pan, mute := mx.muted, solo := mx.soloed }

def withMaster : List MixerStrip → List MixerStrip
  | [] => [.new true]
  | first :: rest => if first.isMaster then first :: rest else .new true :: first :: rest

/-- The live strips made as many as the tracks of the matrix and one, the master in front. -/
def fitStrips (live : List MixerStrip) (tracks : List TrackMeta) : List MixerStrip :=
  let live := withMaster live
  live.take (tracks.length + 1) ++ (tracks.drop (live.length - 1)).map MixerStrip.ofTrack

/-- The reconciliation of the live strips with the tracks of the matrix, against what both were. -/
def syncMatrixMixer (live : List MixerStrip) (tracks oldMatrix : List TrackMeta)
    (oldMixer : List MixerStrip) : List MixerStrip × List TrackMeta × List MixerCommand :=
  let live := fitStrips live tracks
  let synced := (tracks.zip live.tail).zipIdx.map fun ((mx, t), i) =>
    syncStrip i (oldMatrix.getD i oldTrack) (oldMixer.getD (i + 1) (.new false)) mx t
  (live.take 1 ++ synced.map fun r => r.2.1, synced.map fun r => r.1, synced.flatMap fun r => r.2.2)

/-- A list without its first element where that has a property, and otherwise all of it. -/
def behindFirst {α : Type} (p : α → Bool) : List α → List α
  | [] => []
  | a :: l => if p a then l else a :: l

theorem behindFirst_map {α β : Type} (p : β → Bool) (f : α → β) (l : List α) :
    behindFirst p (l.map f) = (behindFirst (fun a => p (f a)) l).map f := by
  cases l with
  | nil => rfl
  | cons a l =>
    rw [List.map_cons, behindFirst, behindFirst]
    split
    · rfl
    · rfl

theorem withMaster_eq (live : List MixerStrip) :
    ∃ master, withMaster live = master :: behindFirst MixerStrip.isMaster live ∧
      master.isMaster = true := by
  cases live with
  | nil => exact ⟨_, rfl, rfl⟩
  | cons first rest =>
    rw [withMaster, behindFirst]
    split
    case isTrue h => exact ⟨first, rfl, h⟩
    case isFalse => exact ⟨_, rfl, rfl⟩

theorem withMaster_ne_nil (live : List MixerStrip) : withMaster live ≠ [] := by
  obtain ⟨master, hwith, _⟩ := withMaster_eq live
  rw [hwith]
  exact List.cons_ne_nil _ _

theorem length_fitStrips (live : List MixerStrip) (tracks : List TrackMeta) :
    (fitStrips live tracks).length = tracks.length + 1 := by
  have hpos := List.length_pos_iff.mpr (withMaster_ne_nil live)
  simp only [fitStrips, List.length_append, List.length_take, List.length_map, List.length_drop]
  omega

/-- A reconciled mixer has a strip for every track of the matrix, and the master. -/
theorem length_syncMatrixMixer (live : List MixerStrip) (tracks oldMatrix : List TrackMeta)
    (oldMixer : List MixerStrip) :
    (syncMatrixMixer live tracks oldMatrix oldMixer).1.length = tracks.length + 1 := by
  have hlen := length_fitStrips live tracks
  simp only [syncMatrixMixer, List.length_append, List.length_take, List.length_map,
    List.length_zipIdx, List.length_zip, List.length_tail]
  omega

end HikaruOpenLive.Gui
