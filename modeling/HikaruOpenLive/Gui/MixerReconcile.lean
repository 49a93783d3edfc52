import HikaruOpenLive.Gui.MasterStrip
import HikaruOpenLive.Gui.MixerSync

/-! # The mixer and the matrix after their reconciliation

The reconciliation gives the mixer a master in front and, behind it, a strip for every row of the matrix.
A setting that one side has changed since the snapshots is then the same on both. One that neither has
changed is left alone, and so it stays apart where the two did not agree before. Done a second time, with
the snapshots taken after the first, the reconciliation does nothing (`syncMatrixMixerBidirectional_settled`).
-/
set_option autoImplicit false

namespace HikaruOpenLive.Gui

open Engine Foundations.ListEdits Foundations.FrontMark

/-- The live tracks, the rows of the matrix and the commands sent, once the two are reconciled. -/
def syncMatrixMixerBidirectional (live : List MixerTrack) (tracks oldMatrix : List TrackMeta)
    (oldMixer : List MixerStrip) : List MixerTrack × List TrackMeta × List MixerCommand :=
  (syncTracks live tracks oldMatrix oldMixer,
    (syncMatrixMixer (live.map MixerTrack.strip) tracks oldMatrix oldMixer).2)

/-- The strip that stands for a row before the two are reconciled: the one that is there, or a new one. -/
def rowStrip (live : List MixerTrack) (i : ℕ) (mx : TrackMeta) : MixerTrack :=
  ((behindFirst MixerTrack.isMaster live)[i]?).getD (.ofTrack i mx)

/-- A strip is the one of a row, with its mix. -/
structure MixerTrack.Mirrors (t : MixerTrack) (i : ℕ) (mx : TrackMeta) : Prop where
  row : t.matrixIdx = some i
  volume : t.volume = mx.volume
  pan : t.pan = mx.pan
  mute : t.mute = mx.muted
  solo : t.solo = mx.soloed

/-- Every strip behind the front mirrors the row in its place. -/
def RowsMirrored (live : List MixerTrack) (tracks : List TrackMeta) : Prop :=
  live.length = tracks.length + 1 ∧
    ∀ (i : ℕ) (t : MixerTrack) (mx : TrackMeta), live[i + 1]? = some t → tracks[i]? = some mx → t.Mirrors i mx

/-- Nothing is left to do once the snapshots are taken. -/
def MixSettled (live : List MixerTrack) (tracks : List TrackMeta) : Prop :=
  syncMatrixMixerBidirectional live tracks tracks (live.map MixerTrack.strip) = (live, tracks, [])

/-! ## One row -/

theorem reconcile_agree_iff {α : Type} (matrixChanged mixerChanged : Bool) (mx t : α) :
    (reconcile matrixChanged mixerChanged mx t).2 = (reconcile matrixChanged mixerChanged mx t).1 ↔
      t = mx ∨ matrixChanged = true ∨ mixerChanged = true := by
  unfold reconcile
  cases mixerChanged with
  | true => simp
  | false =>
    cases matrixChanged with
    | true => simp
    | false => simp

/-- The settings of a strip and a row meet where they met before or one of them has changed. -/
structure SettingsMeet (oldMx : TrackMeta) (oldMix : MixerStrip) (mx : TrackMeta) (t : MixerStrip)
    (mx' : TrackMeta) (t' : MixerStrip) : Prop where
  volume : t'.volume = mx'.volume ↔
    t.volume = mx.volume ∨ f32Epsilon < |mx.volume - oldMx.volume| ∨ f32Epsilon < |t.volume - oldMix.volume|
  pan : t'.pan = mx'.pan ↔
    t.pan = mx.pan ∨ f32Epsilon < |mx.pan - oldMx.pan| ∨ f32Epsilon < |t.pan - oldMix.pan|
  mute : t'.mute = mx'.muted ↔ t.mute = mx.muted ∨ mx.muted ≠ oldMx.muted ∨ t.mute ≠ oldMix.mute
  solo : t'.solo = mx'.soloed ↔ t.solo = mx.soloed ∨ mx.soloed ≠ oldMx.soloed ∨ t.solo ≠ oldMix.solo

theorem settingsMeet_syncStrip (i : ℕ) (oldMx : TrackMeta) (oldMix : MixerStrip) (mx : TrackMeta)
    (t : MixerStrip) :
    SettingsMeet oldMx oldMix mx t (syncStrip i oldMx oldMix mx t).1 (syncStrip i oldMx oldMix mx t).2.1 := by
  have hfader (old oldT x y : ℚ) :
      (reconcile (decide (f32Epsilon < |x - old|)) (decide (f32Epsilon < |y - oldT|)) x y).2 =
          (reconcile (decide (f32Epsilon < |x - old|)) (decide (f32Epsilon < |y - oldT|)) x y).1 ↔
        y = x ∨ f32Epsilon < |x - old| ∨ f32Epsilon < |y - oldT| := by
    rw [reconcile_agree_iff, decide_eq_true_eq, decide_eq_true_eq]
  have hswitch (old oldT x y : Bool) :
      (reconcile (x != old) (y != oldT) x y).2 = (reconcile (x != old) (y != oldT) x y).1 ↔
        y = x ∨ x ≠ old ∨ y ≠ oldT := by
    rw [reconcile_agree_iff, bne_iff_ne, bne_iff_ne]
  exact ⟨hfader _ _ _ _, hfader _ _ _ _, hswitch _ _ _ _, hswitch _ _ _ _⟩

/-- Against itself nothing has changed. -/
theorem syncStrip_settled (i : ℕ) (mx : TrackMeta) (t : MixerStrip) : syncStrip i mx t mx t = (mx, t, []) := by
  have heps : ¬ f32Epsilon < 0 := by
    unfold f32Epsilon
    norm_num
  unfold syncStrip
  simp [heps, reconcile]

theorem syncTrack_settled {i : ℕ} {mx : TrackMeta} {t : MixerTrack} (hname : t.name = mx.name)
    (hrow : t.matrixIdx = some i) : syncTrack i mx t.strip mx t = t := by
  unfold syncTrack
  rw [syncStrip_settled, ← hname, ← hrow]
  rfl

/-! ## All of them -/

theorem getElem?_fitTracks_succ (live : List MixerTrack) {tracks : List TrackMeta} {i : ℕ} {mx : TrackMeta}
    (hmx : tracks[i]? = some mx) : (fitTracks live tracks)[i + 1]? = some (rowStrip live i mx) := by
  obtain ⟨master, hwith, _⟩ := withMasterTrack_eq live
  have hrow : tracks.zipIdx[i]? = some (mx, i) := by
    rw [List.getElem?_zipIdx, hmx]
    simp
  have hpos : 0 < (withMasterTrack live).length := by
    rw [hwith]
    exact Nat.succ_pos _
  have hfit := getElem?_take_append_drop (fun x => MixerTrack.ofTrack x.2 x.1) hpos hrow
  rw [hwith, List.length_zipIdx] at hfit
  unfold fitTracks
  rw [hwith]
  exact hfit

/-- The strip and the row at an index, after the reconciliation. -/
theorem getElem?_syncMatrixMixerBidirectional (live : List MixerTrack) (tracks oldMatrix : List TrackMeta)
    (oldMixer : List MixerStrip) {i : ℕ} {mx : TrackMeta} (hmx : tracks[i]? = some mx) :
    (syncMatrixMixerBidirectional live tracks oldMatrix oldMixer).1[i + 1]? =
        some (syncTrack i (oldMatrix.getD i oldTrack) (oldMixer.getD (i + 1) (.new false)) mx
          (rowStrip live i mx)) ∧
      (syncMatrixMixerBidirectional live tracks oldMatrix oldMixer).2.1[i]? =
        some (syncStrip i (oldMatrix.getD i oldTrack) (oldMixer.getD (i + 1) (.new false)) mx
          (rowStrip live i mx).strip).1 := by
  obtain ⟨master, hwith, _⟩ := withMasterTrack_eq live
  have hstrip : ((withMaster (live.map MixerTrack.strip))[i + 1]?).getD (MixerStrip.ofTrack mx) =
      (rowStrip live i mx).strip := by
    rw [← strips_withMasterTrack, hwith, rowStrip, List.map_cons, List.getElem?_cons_succ, List.getElem?_map]
    cases (behindFirst MixerTrack.isMaster live)[i]? with
    | none => rfl
    | some t => rfl
  constructor
  · have hfit := getElem?_fitTracks_succ live hmx
    have htail : (fitTracks live tracks).tail[i]? = some (rowStrip live i mx) := by
      rw [List.getElem?_tail]
      exact hfit
    have hlong : 0 < (fitTracks live tracks).length := by
      have := lt_of_getElem? hfit
      omega
    have hfirst : ((fitTracks live tracks).take 1).length = 1 := by
      rw [List.length_take]
      omega
    rw [syncMatrixMixerBidirectional, syncTracks]
    dsimp only
    rw [List.getElem?_append_right (by omega), hfirst, Nat.add_sub_cancel, getElem?_map_zip_zipIdx _ hmx htail]
  · rw [← hstrip]
    exact getElem?_syncMatrixMixer _ tracks oldMatrix oldMixer hmx

/-- The only master is the one in front if and only if none of the strips kept for the rows is a master. -/
theorem frontOnly_syncTracks_iff (live : List MixerTrack) (tracks oldMatrix : List TrackMeta)
    (oldMixer : List MixerStrip) :
    FrontOnly MixerTrack.isMaster (syncTracks live tracks oldMatrix oldMixer) ↔
      ∀ t ∈ (behindFirst MixerTrack.isMaster live).take tracks.length, t.isMaster = false := by
  have hstrips : FrontOnly MixerTrack.isMaster (syncTracks live tracks oldMatrix oldMixer) ↔
      MasterFirst (syncMatrixMixer (live.map MixerTrack.strip) tracks oldMatrix oldMixer).1 := by
    rw [← strips_syncTracks, masterFirst_iff, frontOnly_map]
    exact Iff.rfl
  rw [hstrips, masterFirst_congr (flags_syncMatrixMixer _ tracks oldMatrix oldMixer), masterFirst_fitStrips_iff,
    behindFirst_map, ← List.map_take, List.forall_mem_map]
  exact Iff.rfl

/-! ## A second time -/

theorem syncMatrixMixer_settled {first : MixerStrip} {rest : List MixerStrip} (hmaster : first.isMaster = true)
    {tracks : List TrackMeta} (hlength : rest.length = tracks.length) :
    (syncMatrixMixer (first :: rest) tracks tracks (first :: rest)).2 = (tracks, []) := by
  have hfit : fitStrips (first :: rest) tracks = first :: rest := by
    have hdrop : tracks.drop (rest.length + 1 - 1) = [] := by
      rw [List.drop_eq_nil_iff]
      omega
    unfold fitStrips
    rw [withMaster, if_pos hmaster]
    simp only [List.length_cons, hdrop, List.map_nil, List.append_nil, List.take_succ_cons,
      List.take_of_length_le hlength.le]
  have hrows : ((tracks.zip rest).zipIdx.map fun x =>
      syncStrip x.2 (tracks.getD x.2 oldTrack) ((first :: rest).getD (x.2 + 1) (.new false)) x.1.1 x.1.2) =
        (tracks.zip rest).map fun x => (x.1, x.2, []) := by
    rw [← List.zipIdx_map_fst 0 (tracks.zip rest), List.map_map]
    conv_lhs => rw [List.zipIdx_map_fst]
    refine List.map_congr_left fun x hx => ?_
    obtain ⟨hmx, ht⟩ := List.getElem?_zip_eq_some.mp (List.mk_mem_zipIdx_iff_getElem?.mp hx)
    rw [List.getD_eq_getElem?_getD, List.getD_eq_getElem?_getD, List.getElem?_cons_succ, hmx, ht]
    exact syncStrip_settled x.2 x.1.1 x.1.2
  unfold syncMatrixMixer
  rw [hfit]
  dsimp only [List.tail_cons]
  rw [hrows, List.map_map, List.flatMap_map]
  exact Prod.ext (List.map_fst_zip hlength.ge) (by simp)

theorem settled_of_rows {first : MixerTrack} {rest : List MixerTrack} (hmaster : first.isMaster = true)
    (hrow : first.matrixIdx = none) {tracks : List TrackMeta} (hlength : rest.length = tracks.length)
    (hrows : ∀ (i : ℕ) (t : MixerTrack) (mx : TrackMeta), rest[i]? = some t → tracks[i]? = some mx →
      t.name = mx.name ∧ t.matrixIdx = some i) : MixSettled (first :: rest) tracks := by
  have hfront : first.strip.isMaster = true := hmaster
  have hbehind : (rest.map MixerTrack.strip).length = tracks.length := by rw [List.length_map, hlength]
  have hstrips := syncMatrixMixer_settled hfront hbehind
  refine Prod.ext ?_ hstrips
  show syncTracks (first :: rest) tracks tracks _ = first :: rest
  rw [syncTracks_cons hmaster hlength]
  refine congrArg₂ List.cons ?_ ((map_zip_zipIdx_eq_iff hlength _).mpr fun i t mx ht hmx => ?_)
  · rw [← hrow]
  · obtain ⟨hname, hidx⟩ := hrows i t mx ht hmx
    rw [List.getD_eq_getElem?_getD, List.getD_eq_getElem?_getD, List.map_cons, List.getElem?_cons_succ,
      List.getElem?_map, hmx, ht]
    exact syncTrack_settled hname hidx

/-- The reconciled mixer has the master in front and a strip with the name of its row for each, and the
only master where none was kept for a row. A setting is the same on strip and row if and only if it was so
before or one of the two has changed since its snapshot. With new snapshots nothing changes any more and
nothing is sent. -/
theorem syncMatrixMixerBidirectional_settled (live : List MixerTrack) (tracks oldMatrix : List TrackMeta)
    (oldMixer : List MixerStrip) :
    (∃ first rest, (syncMatrixMixerBidirectional live tracks oldMatrix oldMixer).1 = first :: rest ∧
        first.isMaster = true ∧ first.matrixIdx = none ∧ rest.length = tracks.length) ∧
      (FrontOnly MixerTrack.isMaster (syncMatrixMixerBidirectional live tracks oldMatrix oldMixer).1 ↔
        ∀ t ∈ (behindFirst MixerTrack.isMaster live).take tracks.length, t.isMaster = false) ∧
      (syncMatrixMixerBidirectional live tracks oldMatrix oldMixer).2.1.length = tracks.length ∧
      (∀ (i : ℕ) (mx : TrackMeta), tracks[i]? = some mx → ∃ t' mx',
        (syncMatrixMixerBidirectional live tracks oldMatrix oldMixer).1[i + 1]? = some t' ∧
          (syncMatrixMixerBidirectional live tracks oldMatrix oldMixer).2.1[i]? = some mx' ∧
          t'.matrixIdx = some i ∧ t'.name = mx.name ∧ mx'.name = mx.name ∧
          SettingsMeet (oldMatrix.getD i oldTrack) (oldMixer.getD (i + 1) (.new false)) mx
            (rowStrip live i mx).strip mx' t'.strip) ∧
      MixSettled (syncMatrixMixerBidirectional live tracks oldMatrix oldMixer).1
        (syncMatrixMixerBidirectional live tracks oldMatrix oldMixer).2.1 := by
  obtain ⟨first, rest, hsync, hmaster, hidx, hlength⟩ := syncTracks_shape live tracks oldMatrix oldMixer
  have htracks : (syncMatrixMixerBidirectional live tracks oldMatrix oldMixer).2.1.length = tracks.length :=
    length_syncMatrixMixer_tracks _ tracks oldMatrix oldMixer
  have hrows := fun (i : ℕ) (mx : TrackMeta) (hmx : tracks[i]? = some mx) =>
    getElem?_syncMatrixMixerBidirectional live tracks oldMatrix oldMixer hmx
  refine ⟨⟨first, rest, hsync, hmaster, hidx, hlength⟩,
    frontOnly_syncTracks_iff live tracks oldMatrix oldMixer, htracks, fun i mx hmx => ?_, ?_⟩
  · obtain ⟨ht, hmx'⟩ := hrows i mx hmx
    exact ⟨_, _, ht, hmx', rfl, rfl, rfl, settingsMeet_syncStrip i _ _ mx (rowStrip live i mx).strip⟩
  · have hlive : (syncMatrixMixerBidirectional live tracks oldMatrix oldMixer).1 = first :: rest := hsync
    rw [hlive]
    refine settled_of_rows hmaster hidx (hlength.trans htracks.symm) fun i t mx' ht hmx' => ?_
    have hi : i < tracks.length := htracks ▸ lt_of_getElem? hmx'
    obtain ⟨hstrip, hrow⟩ := hrows i _ (List.getElem?_eq_getElem hi)
    rw [hlive, List.getElem?_cons_succ, ht] at hstrip
    rw [hmx'] at hrow
    obtain rfl := Option.some.inj hstrip
    obtain rfl := Option.some.inj hrow
    exact ⟨rfl, rfl⟩

/-- A mixer with one row's strip, at half its volume. -/
def halfStrip : List MixerTrack :=
  [.new 0 "MASTER" true, { MixerTrack.new 1 "Bass" false with volume := 1 / 2, matrixIdx := some 0 }]

/-- The row of that strip, at a quarter. -/
def quarterRow : List TrackMeta :=
  [⟨"Bass", false, false, 1 / 4, 0⟩]

/-- A master that is kept for a row stays one. The half and the quarter stay where they are if the snapshots
have them so. -/
theorem not_rowsMirrored_halfStrip :
    (¬ ∀ (live : List MixerTrack) (tracks oldMatrix : List TrackMeta) (oldMixer : List MixerStrip),
      FrontOnly MixerTrack.isMaster (syncMatrixMixerBidirectional live tracks oldMatrix oldMixer).1) ∧
    ¬ ∀ (live : List MixerTrack) (tracks oldMatrix : List TrackMeta) (oldMixer : List MixerStrip),
      RowsMirrored (syncMatrixMixerBidirectional live tracks oldMatrix oldMixer).1
        (syncMatrixMixerBidirectional live tracks oldMatrix oldMixer).2.1 := by
  constructor
  · intro h
    obtain ⟨first, rest, hsync, _, hrest⟩ := h [.new 0 "MASTER" true, .new 1 "MASTER" true] quarterRow [] []
    have hmasters : ((syncMatrixMixerBidirectional [.new 0 "MASTER" true, .new 1 "MASTER" true] quarterRow []
        []).1.tail.map MixerTrack.isMaster) = [true] := by decide +kernel
    rw [hsync, List.tail_cons, List.map_eq_singleton_iff] at hmasters
    obtain ⟨second, rfl, hsecond⟩ := hmasters
    rw [hrest second List.mem_cons_self] at hsecond
    exact Bool.false_ne_true hsecond
  · intro h
    obtain ⟨_, hmirrors⟩ := h halfStrip quarterRow quarterRow (halfStrip.map MixerTrack.strip)
    have hlive : (syncMatrixMixerBidirectional halfStrip quarterRow quarterRow
        (halfStrip.map MixerTrack.strip)).1 = halfStrip := by decide +kernel
    have htracks : (syncMatrixMixerBidirectional halfStrip quarterRow quarterRow
        (halfStrip.map MixerTrack.strip)).2.1 = quarterRow := by decide +kernel
    rw [hlive, htracks] at hmirrors
    have hvolume := (hmirrors 0 _ _ rfl rfl).volume
    exact absurd hvolume (by decide +kernel)

end HikaruOpenLive.Gui
