import HikaruOpenLive.Gui.MixRoundTrip
import HikaruOpenLive.Gui.MixerTracks

/-! # The tracks of the mixer and of the matrix

The reconciliation of the mixer with the matrix on whole tracks: besides its mix, a track takes its name
and its row from the matrix. `strip` leads to the strips of the mix, where `syncMatrixMixer` does the
same.
-/
set_option autoImplicit false

namespace HikaruOpenLive.Gui

open Engine Foundations.ListEdits

/-- The slot with the plugin it names, as the rack has it before it is opened. -/
def RackSlot.dspSlot (e : RackSlot) : DspSlot :=
  { DspSlot.new e.name with external := e.external.map fun d => ⟨d, 0⟩ }

namespace MixerTrack

def strip (t : MixerTrack) : MixerStrip :=
  { effects := t.effects.map RackSlot.dspSlot, isMaster := t.isMaster, volume := t.volume
    pan := t.pan, mute := t.mute, solo := t.solo }

/-- The strip made for the track of a row. -/
def ofTrack (idx : ℕ) (mx : TrackMeta) : MixerTrack :=
  { MixerTrack.new (idx + 1) mx.name false with
    volume := mx.volume, pan := mx.pan, mute := mx.muted, solo := mx.soloed, matrixIdx := some idx }

def withMix (t : MixerTrack) (mix : MixerStrip) : MixerTrack :=
  { t with volume := mix.volume, pan := mix.pan, mute := mix.mute, solo := mix.solo }

end MixerTrack

/-- The mix that a file keeps of the whole, put on the first master. -/
def setMaster (volume pan : ℚ) (live : List MixerTrack) : List MixerTrack :=
  updateFirst MixerTrack.isMaster (fun t => { t with volume := volume, pan := pan }) live

def withMasterTrack : List MixerTrack → List MixerTrack
  | [] => [.new 0 "MASTER" true]
  | first :: rest => if first.isMaster then first :: rest else .new 0 "MASTER" true :: first :: rest

/-- The live tracks made as many as the tracks of the matrix and one, the master in front and without a
row. -/
def fitTracks (live : List MixerTrack) (tracks : List TrackMeta) : List MixerTrack :=
  let live := withMasterTrack live
  (live.take (tracks.length + 1)).modifyHead (fun t => { t with matrixIdx := none }) ++
    (tracks.zipIdx.drop (live.length - 1)).map fun x => .ofTrack x.2 x.1

/-- One track of `sync_matrix_mixer_bidirectional`. -/
def syncTrack (i : ℕ) (oldMx : TrackMeta) (oldMix : MixerStrip) (mx : TrackMeta) (t : MixerTrack) :
    MixerTrack :=
  { t.withMix (syncStrip i oldMx oldMix mx t.strip).2.1 with name := mx.name, matrixIdx := some i }

/-- The live tracks reconciled with the tracks of the matrix, against what both were. -/
def syncTracks (live : List MixerTrack) (tracks oldMatrix : List TrackMeta)
    (oldMixer : List MixerStrip) : List MixerTrack :=
  let live := fitTracks live tracks
  live.take 1 ++ (tracks.zip live.tail).zipIdx.map fun x =>
    syncTrack x.2 (oldMatrix.getD x.2 oldTrack) (oldMixer.getD (x.2 + 1) (.new false)) x.1.1 x.1.2

/-! ## Its strips -/

theorem strips_setMaster (volume pan : ℚ) (live : List MixerTrack) :
    (setMaster volume pan live).map MixerTrack.strip =
      updateFirst MixerStrip.isMaster (fun t => { t with volume := volume, pan := pan })
        (live.map MixerTrack.strip) := by
  unfold setMaster
  induction live with
  | nil => rfl
  | cons t live ih =>
    have hflag : t.strip.isMaster = t.isMaster := rfl
    rw [updateFirst, List.map_cons, updateFirst, hflag]
    split
    · rfl
    · rw [List.map_cons, ih]

theorem withMasterTrack_eq (live : List MixerTrack) :
    ∃ master, withMasterTrack live = master :: behindFirst MixerTrack.isMaster live ∧
      master.isMaster = true := by
  cases live with
  | nil => exact ⟨_, rfl, rfl⟩
  | cons first rest =>
    rw [withMasterTrack, behindFirst]
    split
    case isTrue h => exact ⟨first, rfl, h⟩
    case isFalse => exact ⟨_, rfl, rfl⟩

theorem strips_withMasterTrack (live : List MixerTrack) :
    (withMasterTrack live).map MixerTrack.strip = withMaster (live.map MixerTrack.strip) := by
  cases live with
  | nil => rfl
  | cons first rest =>
    have hmaster : first.strip.isMaster = first.isMaster := rfl
    rw [withMasterTrack, List.map_cons, withMaster, hmaster]
    split
    · rfl
    · rfl

theorem strips_fitTracks (live : List MixerTrack) (tracks : List TrackMeta) :
    (fitTracks live tracks).map MixerTrack.strip = fitStrips (live.map MixerTrack.strip) tracks := by
  have hhead (l : List MixerTrack) :
      (l.modifyHead fun t => { t with matrixIdx := none }).map MixerTrack.strip =
        l.map MixerTrack.strip := by
    cases l with
    | nil => rfl
    | cons t l => rfl
  have hnew : ((tracks.zipIdx.drop ((withMasterTrack live).length - 1)).map
      fun x => MixerTrack.ofTrack x.2 x.1).map MixerTrack.strip =
        (tracks.drop ((withMasterTrack live).length - 1)).map MixerStrip.ofTrack := by
    rw [List.map_map]
    conv_rhs => rw [← List.zipIdx_map_fst 0 tracks, ← List.map_drop, List.map_map]
    rfl
  have hlength : (withMaster (live.map MixerTrack.strip)).length = (withMasterTrack live).length := by
    rw [← strips_withMasterTrack, List.length_map]
  unfold fitTracks fitStrips
  simp only [hlength]
  rw [List.map_append, hhead, hnew, List.map_take, strips_withMasterTrack]

theorem strips_syncTracks (live : List MixerTrack) (tracks oldMatrix : List TrackMeta)
    (oldMixer : List MixerStrip) :
    (syncTracks live tracks oldMatrix oldMixer).map MixerTrack.strip =
      (syncMatrixMixer (live.map MixerTrack.strip) tracks oldMatrix oldMixer).1 := by
  have hfit := strips_fitTracks live tracks
  unfold syncTracks syncMatrixMixer
  simp only [← hfit, List.map_append, List.map_take, List.map_map, ← List.map_tail]
  congr 1
  rw [List.zip_map_right, List.zipIdx_map, List.map_map]
  rfl

/-! ## Tracks that it leaves as they are -/

/-- A strip and a track of the matrix that agree, or would both count as unchanged. -/
structure MixerStrip.Agrees (t : MixerStrip) (mx : TrackMeta) : Prop where
  volume : t.volume = mx.volume ∨ |t.volume - 3 / 4| ≤ f32Epsilon ∧ |mx.volume - 3 / 4| ≤ f32Epsilon
  pan : t.pan = mx.pan ∨ |t.pan| ≤ f32Epsilon ∧ |mx.pan| ≤ f32Epsilon
  mute : t.mute = mx.muted
  solo : t.solo = mx.soloed

theorem reconcile_eq_iff {α : Type} (matrixChanged mixerChanged : Bool) (mx t : α) :
    (reconcile matrixChanged mixerChanged mx t).2 = t ∧ (mixerChanged = false ∨ t = mx) ↔
      t = mx ∨ mixerChanged = false ∧ matrixChanged = false := by
  unfold reconcile
  cases mixerChanged with
  | true => simp
  | false =>
    cases matrixChanged with
    | true => simp [eq_comm]
    | false => simp

theorem reconcile_fader_eq_iff (old mx t : ℚ) :
    (reconcile (decide (f32Epsilon < |mx - old|)) (decide (f32Epsilon < |t - old|)) mx t).2 = t ∧
        (|t - old| ≤ f32Epsilon ∨ t = mx) ↔
      t = mx ∨ |t - old| ≤ f32Epsilon ∧ |mx - old| ≤ f32Epsilon := by
  have h := reconcile_eq_iff (decide (f32Epsilon < |mx - old|)) (decide (f32Epsilon < |t - old|)) mx t
  simpa only [decide_eq_false_iff_not, not_lt] using h

theorem reconcile_switch_eq_iff (mx t : Bool) :
    (reconcile (mx != false) (t != false) mx t).2 = t ∧ (t = false ∨ t = mx) ↔ t = mx := by
  cases mx with
  | true =>
    cases t with
    | true => decide
    | false => decide
  | false =>
    cases t with
    | true => decide
    | false => decide

/-- A track and its row keep what they are when both agree. -/
theorem syncTrack_eq_iff (i : ℕ) (mx : TrackMeta) (t : MixerTrack) :
    (syncTrack i oldTrack (.new false) mx t = t ∧ t.strip.Yields mx) ↔
      t.name = mx.name ∧ t.matrixIdx = some i ∧ t.strip.Agrees mx := by
  have hpan (x : ℚ) : |x - 0| = |x| := by rw [sub_zero]
  have hvolumes := reconcile_fader_eq_iff (3 / 4) mx.volume t.volume
  have hpans := reconcile_fader_eq_iff 0 mx.pan t.pan
  have hmutes := reconcile_switch_eq_iff mx.muted t.mute
  have hsolos := reconcile_switch_eq_iff mx.soloed t.solo
  constructor
  · rintro ⟨hsync, hyields⟩
    have hvolume := hvolumes.mp ⟨congrArg MixerTrack.volume hsync, hyields.volume⟩
    have hpan' := hpans.mp ⟨congrArg MixerTrack.pan hsync, (hpan t.pan).symm ▸ hyields.pan⟩
    have hmute := hmutes.mp ⟨congrArg MixerTrack.mute hsync, hyields.mute⟩
    have hsolo := hsolos.mp ⟨congrArg MixerTrack.solo hsync, hyields.solo⟩
    rw [hpan, hpan] at hpan'
    exact ⟨(congrArg MixerTrack.name hsync).symm, (congrArg MixerTrack.matrixIdx hsync).symm,
      hvolume, hpan', hmute, hsolo⟩
  · rintro ⟨hname, hidx, hvolume, hpan', hmute, hsolo⟩
    have hpan'' : t.pan = mx.pan ∨ |t.pan - 0| ≤ f32Epsilon ∧ |mx.pan - 0| ≤ f32Epsilon := by
      rw [hpan, hpan]
      exact hpan'
    obtain ⟨hv, hyv⟩ := hvolumes.mpr hvolume
    obtain ⟨hp, hyp⟩ := hpans.mpr hpan''
    obtain ⟨hm, hym⟩ := hmutes.mpr hmute
    obtain ⟨hs, hys⟩ := hsolos.mpr hsolo
    rw [hpan] at hyp
    refine ⟨?_, hyv, hyp, hym, hys⟩
    show { t with
      volume := (reconcile _ _ mx.volume t.volume).2, pan := (reconcile _ _ mx.pan t.pan).2
      mute := (reconcile _ _ mx.muted t.mute).2, solo := (reconcile _ _ mx.soloed t.solo).2
      name := mx.name, matrixIdx := some i } = t
    rw [← hname, ← hidx]
    congr 1

theorem syncTracks_cons {first : MixerTrack} {rest : List MixerTrack} (hmaster : first.isMaster = true)
    {tracks : List TrackMeta} (hlength : rest.length = tracks.length) (oldMatrix : List TrackMeta)
    (oldMixer : List MixerStrip) :
    syncTracks (first :: rest) tracks oldMatrix oldMixer =
      { first with matrixIdx := none } :: (tracks.zip rest).zipIdx.map fun x =>
        syncTrack x.2 (oldMatrix.getD x.2 oldTrack) (oldMixer.getD (x.2 + 1) (.new false)) x.1.1 x.1.2 := by
  have hdrop : tracks.zipIdx.drop (rest.length + 1 - 1) = [] := by
    rw [List.drop_eq_nil_iff, List.length_zipIdx]
    omega
  have hfit : fitTracks (first :: rest) tracks = { first with matrixIdx := none } :: rest := by
    unfold fitTracks
    rw [withMasterTrack, if_pos hmaster]
    simp only [List.length_cons, hdrop, List.map_nil, List.append_nil, List.take_succ_cons,
      List.modifyHead_cons, List.take_of_length_le hlength.le]
  unfold syncTracks
  rw [hfit]
  simp only [List.take_succ_cons, List.take_zero, List.tail_cons, List.cons_append, List.nil_append]

/-- The master is in front of reconciled tracks, without a row, and one track for each row behind it. -/
theorem syncTracks_shape (live : List MixerTrack) (tracks oldMatrix : List TrackMeta)
    (oldMixer : List MixerStrip) :
    ∃ first rest, syncTracks live tracks oldMatrix oldMixer = first :: rest ∧
      first.isMaster = true ∧ first.matrixIdx = none ∧ rest.length = tracks.length := by
  obtain ⟨first, hlive, hmaster⟩ := withMasterTrack_eq live
  have hlength : (syncTracks live tracks oldMatrix oldMixer).length = tracks.length + 1 := by
    rw [← List.length_map MixerTrack.strip, strips_syncTracks, length_syncMatrixMixer]
  have hhead : (syncTracks live tracks oldMatrix oldMixer).head? =
      some { first with matrixIdx := none } := by
    unfold syncTracks fitTracks
    rw [hlive]
    rfl
  cases hsync : syncTracks live tracks oldMatrix oldMixer with
  | nil =>
    rw [hsync] at hhead
    nomatch hhead
  | cons t ts =>
    rw [hsync] at hhead hlength
    obtain rfl := Option.some.inj hhead
    exact ⟨_, _, rfl, hmaster, rfl, by simpa using hlength⟩

/-- The live tracks of a file and its matrix in one piece: the master in front, set like the master of the
whole, and behind it the tracks of the rows, each with the name and the mix of its row. -/
def TracksMatch (volume pan : ℚ) (tracks : List TrackMeta) : List MixerTrack → Prop
  | [] => False
  | first :: rest =>
    (first.isMaster = true ∧ first.matrixIdx = none ∧ first.volume = volume ∧ first.pan = pan) ∧
      rest.length = tracks.length ∧
        ∀ (i : ℕ) (t : MixerTrack) (mx : TrackMeta), rest[i]? = some t → tracks[i]? = some mx →
          t.name = mx.name ∧ t.matrixIdx = some i ∧ t.strip.Agrees mx

/-- With the master in front, one row of the matrix meets one track. -/
theorem rows_eq_iff {first : MixerTrack} {rest : List MixerTrack} (hmaster : first.isMaster = true)
    {tracks : List TrackMeta} (hlength : rest.length = tracks.length) :
    ((tracks.zip rest).zipIdx.map (fun x => syncTrack x.2 oldTrack (.new false) x.1.1 x.1.2) = rest ∧
      MixYields ((first :: rest).map MixerTrack.strip) tracks) ↔
      ∀ (i : ℕ) (t : MixerTrack) (mx : TrackMeta), rest[i]? = some t → tracks[i]? = some mx →
        t.name = mx.name ∧ t.matrixIdx = some i ∧ t.strip.Agrees mx := by
  have hyields : MixYields ((first :: rest).map MixerTrack.strip) tracks ↔
      ∀ (i : ℕ) (t : MixerTrack) (mx : TrackMeta), rest[i]? = some t → tracks[i]? = some mx →
        t.strip.Yields mx := by
    have hwith : withMaster ((first :: rest).map MixerTrack.strip) =
        first.strip :: rest.map MixerTrack.strip := by
      have hmaster' : first.strip.isMaster = true := hmaster
      rw [List.map_cons, withMaster, if_pos hmaster']
    unfold MixYields
    rw [hwith]
    simp only [List.getElem?_cons_succ, List.getElem?_map]
    constructor
    · intro h i t mx ht hmx
      exact h i mx t.strip hmx (by rw [ht]; rfl)
    · intro h i mx s hmx hs
      obtain ⟨t, ht, rfl⟩ := Option.map_eq_some_iff.mp hs
      exact h i t mx ht hmx
  rw [map_zip_zipIdx_eq_iff hlength, hyields]
  constructor
  · rintro ⟨hsync, hy⟩ i t mx ht hmx
    exact (syncTrack_eq_iff i mx t).mp ⟨hsync i t mx ht hmx, hy i t mx ht hmx⟩
  · intro h
    exact ⟨fun i t mx ht hmx => ((syncTrack_eq_iff i mx t).mpr (h i t mx ht hmx)).1,
      fun i t mx ht hmx => ((syncTrack_eq_iff i mx t).mpr (h i t mx ht hmx)).2⟩

/-- Opened tracks and rows are those of the file if and only if these match. -/
theorem syncTracks_eq_iff (volume pan : ℚ) (live : List MixerTrack) (tracks : List TrackMeta) :
    (syncTracks (setMaster volume pan live) tracks [] [] = live ∧
      MixYields ((setMaster volume pan live).map MixerTrack.strip) tracks) ↔
      TracksMatch volume pan tracks live := by
  constructor
  · rintro ⟨hsync, hyields⟩
    obtain ⟨first, rest, hshape, hmaster, hrow, hlength⟩ :=
      syncTracks_shape (setMaster volume pan live) tracks [] []
    obtain rfl : live = first :: rest := hsync.symm.trans hshape
    have hset : ({ first with volume := volume, pan := pan } : MixerTrack).isMaster = true := hmaster
    rw [setMaster, updateFirst, if_pos hmaster] at hsync hyields
    rw [syncTracks_cons hset hlength, List.cons.injEq] at hsync
    simp only [List.getD_nil] at hsync
    obtain ⟨hfirst, hrest⟩ := hsync
    exact ⟨⟨hmaster, hrow, (congrArg MixerTrack.volume hfirst).symm, (congrArg MixerTrack.pan hfirst).symm⟩,
      hlength, (rows_eq_iff hset hlength).mp ⟨hrest, hyields⟩⟩
  · intro h
    cases live with
    | nil => exact absurd h id
    | cons first rest =>
      obtain ⟨⟨hmaster, hrow, rfl, rfl⟩, hlength, hmatch⟩ := h
      obtain ⟨hrest, hyields⟩ := (rows_eq_iff hmaster hlength).mpr hmatch
      rw [setMaster, updateFirst, if_pos hmaster]
      refine ⟨?_, hyields⟩
      rw [syncTracks_cons hmaster hlength]
      simp only [List.getD_nil]
      rw [hrest]
      exact congrArg (fun row => { first with matrixIdx := row } :: rest) hrow.symm

end HikaruOpenLive.Gui
