import HikaruOpenLive.Gui.TrackRoutes

/-! # Adding and removing tracks

The edits that make the strips and the rows of the matrix more or fewer, choose routes and put clips on the
playlist. The strips of OpenLive follow the rows of the matrix only where the edit does both: the buttons
of the matrix and of the mix panel change the matrix alone, and no frame reconciles the two.

Of a clip of the playlist only its row is kept, with the mark of the strip it was put on.
-/
set_option autoImplicit false

namespace HikaruOpenLive.Gui

open Foundations.ListEdits Foundations.Runs

structure ClipRow where
  row : ℕ
  meant : Option ℕ
deriving DecidableEq

structure RoutingState where
  mode : AppMode
  matrix : SessionMatrixState
  liveTracks : List RoutedTrack
  studioTracks : List RoutedTrack
  fxTracks : List RoutedTrack
  clips : List ClipRow
  nextMark : ℕ

/-- An entry of the menu of routes, with what it is offered as. -/
structure RouteOption where
  dest : ℕ
  label : String
  kind : RouteTarget
deriving DecidableEq

/-- `setRoute` chooses an entry of the menu, `pasteClip` puts a copied clip on its row and `duplicateClip`
copies a clip of the playlist. -/
inductive TrackEdit where
  | addTrack
  | removeTrack
  | addMatrixTrack
  | removeMatrixTrack
  | setRoute (target : StripTarget) (option : ℕ)
  | dropClip (row : ℕ)
  | pasteClip (key : ℕ)
  | duplicateClip (i : ℕ)
  | setMode (mode : AppMode)

/-- `{:02}`. -/
def twoDigits (n : ℕ) : String :=
  if n < 10 then "0" ++ toString n else toString n

def removeLastTrack (tracks : List RoutedTrack) : List RoutedTrack :=
  (tracks.reverse.eraseP fun t => !t.isMaster).reverse

namespace RoutingState

variable (s : RoutingState)

def tracks : List RoutedTrack :=
  match s.mode with
  | .openLive => s.liveTracks
  | .openStudio => s.studioTracks

def playlistRowKeys : List ℕ :=
  rowKeysOf (s.tracks.map fun t => t.track.strip)

def trackOption (own : Option ℕ) (x : RoutedTrack × ℕ) : Option RouteOption :=
  if some x.2 = own ∨ x.1.isMaster = true then none else some ⟨x.2, x.1.track.name, .strip x.2⟩

def fxOption (n : ℕ) : RouteOption :=
  ⟨routeFxBase + n, "FX " ++ toString (n + 1), .fx n⟩

/-- The list that the target of a route is taken from, and the place of the target in it. -/
def bank : StripTarget → List RoutedTrack × Option ℕ
  | .live idx => (s.liveTracks, some (idx + 1))
  | .studio idx => (s.studioTracks, some idx)
  | .master | .fx _ => (s.tracks, none)

/-- The master, the returns, of which one is offered in any case, and the other strips. -/
def routeOptions (target : StripTarget) : List RouteOption :=
  match target with
  | .master => [⟨0, "Out 1/2", .master⟩]
  | _ =>
    let fx :=
      match target with
      | .fx _ => []
      | _ => (List.range (max s.fxTracks.length 1)).map fxOption
    ⟨0, "Master", .master⟩ :: fx ++
      ((s.bank target).1.zipIdx.drop 1).filterMap (trackOption (s.bank target).2)

def setTracks (tracks : List RoutedTrack) : RoutingState :=
  match s.mode with
  | .openLive => { s with liveTracks := tracks }
  | .openStudio => { s with studioTracks := tracks }

def setRouteDestination (target : StripTarget) (option : RouteOption) : RoutingState :=
  let set := RoutedTrack.withRoute option.dest (option.kind.named (s.bank target).1 s.fxTracks)
  match target with
  | .master => s.setTracks (s.tracks.modify 0 set)
  | .live idx => { s with liveTracks := s.liveTracks.modify (idx + 1) set }
  | .studio idx => { s with studioTracks := s.studioTracks.modify idx set }
  | .fx idx => { s with fxTracks := s.fxTracks.modify idx set }

/-- A clip put on a row of the playlist. -/
def addClip (key : ℕ) : RoutingState :=
  { s with clips := s.clips ++ [⟨key, s.studioTracks[key]?.map RoutedTrack.mark⟩] }

def addLiveTrack : RoutingState :=
  let matrix := s.matrix.addTrack
  let n := matrix.tracks.length
  let mx := matrix.tracks.getLast?
  let new := MixerTrack.new n ((mx.map TrackMeta.name).getD ("Track " ++ toString n)) false
  let track : MixerTrack :=
    { new with
      volume := (mx.map TrackMeta.volume).getD new.volume, pan := (mx.map TrackMeta.pan).getD new.pan
      matrixIdx := some (n - 1) }
  { s with
    matrix := matrix, liveTracks := s.liveTracks ++ [⟨track, s.nextMark, some .master⟩]
    nextMark := s.nextMark + 1 }

def addStudioTrack : RoutingState :=
  let nextId := ((s.studioTracks.map fun t => t.track.id).max?).getD 0 + 1
  let n := (s.studioTracks.filter fun t => !t.isMaster).length
  { s with
    studioTracks := s.studioTracks ++
      [⟨.new nextId ("TRACK " ++ twoDigits (n + 1)) false, s.nextMark, some .master⟩]
    nextMark := s.nextMark + 1 }

def removeLiveTrack : RoutingState :=
  { s with
    matrix := s.matrix.removeTrack
    liveTracks := if 2 < s.liveTracks.length then s.liveTracks.dropLast else s.liveTracks }

/-- The playlist is there in OpenStudio only. -/
def step : TrackEdit → RoutingState
  | .addTrack =>
    match s.mode with
    | .openLive => s.addLiveTrack
    | .openStudio => s.addStudioTrack
  | .removeTrack =>
    match s.mode with
    | .openLive => s.removeLiveTrack
    | .openStudio => { s with studioTracks := removeLastTrack s.studioTracks }
  | .addMatrixTrack => { s with matrix := s.matrix.addTrack }
  | .removeMatrixTrack => { s with matrix := s.matrix.removeTrack }
  | .setRoute target option =>
    match (s.routeOptions target)[option]? with
    | none => s
    | some option => s.setRouteDestination target option
  | .dropClip row =>
    match s.mode, s.playlistRowKeys[min row (s.playlistRowKeys.length - 1)]? with
    | .openStudio, some key => s.addClip key
    | _, _ => s
  | .pasteClip key => if s.mode = .openStudio ∧ key ∈ s.playlistRowKeys then s.addClip key else s
  | .duplicateClip i =>
    match s.clips[i]? with
    | none => s
    | some clip => { s with clips := s.clips ++ [clip] }
  | .setMode mode => { s with mode := mode }

/-! ## What is asked of the references -/

/-- Every reference names what was meant by it, and OpenLive has a strip for each track of the matrix
behind its master. -/
structure Resolves : Prop where
  live : AllResolve s.liveTracks s.fxTracks s.liveTracks
  studio : AllResolve s.studioTracks s.fxTracks s.studioTracks
  fx : AllResolve s.tracks s.fxTracks s.fxTracks
  clips : ∀ clip ∈ s.clips, ∃ t, s.studioTracks[clip.row]? = some t ∧ clip.meant = some t.mark
  strips : s.liveTracks.length = s.matrix.tracks.length + 1

/-- What every edit keeps of any state. -/
structure Wellformed : Prop where
  live : OneMaster s.liveTracks
  studio : OneMaster s.studioTracks
  marks : ((s.liveTracks ++ s.studioTracks ++ s.fxTracks).map RoutedTrack.mark).Nodup
  fresh : ∀ t ∈ s.liveTracks ++ s.studioTracks ++ s.fxTracks, t.mark < s.nextMark

/-- No strip of a list but the last, and no return that takes its routes from it, is routed to the last. -/
def LastUnrouted (strips fx : List RoutedTrack) : Prop :=
  ∀ t ∈ strips.dropLast ++ fx, t.isMaster = false →
    routeTarget t.track.routeDestinationId ≠ .strip (strips.length - 1)

def strip? : StripTarget → Option RoutedTrack
  | .master => s.tracks[0]?
  | .live idx => s.liveTracks[idx + 1]?
  | .studio idx => s.studioTracks[idx]?
  | .fx idx => s.fxTracks[idx]?

/-- The edits that leave every reference what it was. -/
def Safe : TrackEdit → Prop
  | .removeTrack =>
    match s.mode with
    | .openLive => 2 < s.liveTracks.length → LastUnrouted s.liveTracks s.fxTracks
    | .openStudio =>
      1 < s.studioTracks.length → LastUnrouted s.studioTracks s.fxTracks ∧
        ∀ clip ∈ s.clips, clip.row ≠ s.studioTracks.length - 1
  | .addMatrixTrack => False
  | .removeMatrixTrack => s.matrix.tracks.length ≤ 1
  | .setRoute target option =>
    ∀ t o, s.strip? target = some t → t.isMaster = false → (s.routeOptions target)[option]? = some o →
      routeTarget o.dest = o.kind ∧ (o.kind.named (s.bank target).1 s.fxTracks).isSome
  | .setMode mode =>
    mode ≠ s.mode → ∀ t ∈ s.fxTracks, t.isMaster = false →
      ∀ i, routeTarget t.track.routeDestinationId ≠ .strip i
  | .addTrack | .dropClip _ | .pasteClip _ | .duplicateClip _ => True

end RoutingState

/-! ## The lists under edits -/

section

variable {strips : List RoutedTrack}

theorem OneMaster.append (h : OneMaster strips) {t : RoutedTrack} (ht : t.isMaster = false) :
    OneMaster (strips ++ [t]) :=
  oneMaster_iff.mpr ((oneMaster_iff.mp h).append ht)

theorem OneMaster.dropLast (h : OneMaster strips) (hlong : 1 < strips.length) :
    OneMaster strips.dropLast :=
  oneMaster_iff.mpr ((oneMaster_iff.mp h).dropLast hlong)

/-- The last strip that is no master is the last one, unless there is the master alone. -/
theorem OneMaster.removeLastTrack (h : OneMaster strips) :
    removeLastTrack strips = if 1 < strips.length then strips.dropLast else strips :=
  (oneMaster_iff.mp h).erase_last

/-- The strips and the returns resolve without the last strip if and only if none is routed to it. -/
theorem allResolve_dropLast_iff {fx : List RoutedTrack} (h : AllResolve strips fx strips)
    (hfx : AllResolve strips fx fx) (hmaster : OneMaster strips) (hlong : 1 < strips.length) :
    (AllResolve strips.dropLast fx strips.dropLast ∧ AllResolve strips.dropLast fx fx) ↔
      RoutingState.LastUnrouted strips fx := by
  have hfront : AllResolve strips fx strips.dropLast := fun t ht => h t (List.mem_of_mem_dropLast ht)
  rw [hfront.dropLast_iff hmaster hlong, hfx.dropLast_iff hmaster hlong]
  exact List.forall_mem_append.symm

/-- A new strip is routed to the master. -/
theorem allResolve_append {fx : List RoutedTrack} (h : AllResolve strips fx strips)
    (hmaster : OneMaster strips) {track : MixerTrack} (mark : ℕ) (hroute : track.routeDestinationId = 0) :
    AllResolve (strips ++ [⟨track, mark, some .master⟩]) fx (strips ++ [⟨track, mark, some .master⟩]) := by
  intro t ht hflag
  obtain ht | ht := List.mem_append.mp ht
  · exact h.append _ t ht hflag
  · obtain rfl := List.mem_singleton.mp ht
    refine ⟨.master, rfl, ?_, fun hself => nomatch hself⟩
    rw [hroute]
    show (if (strips ++ [_]).any RoutedTrack.isMaster = true then some Named.master else none) = _
    rw [List.any_append, hmaster.any, Bool.true_or, if_pos rfl]

end

namespace RoutingState

variable {s : RoutingState}

/-! ## What every edit keeps -/

theorem Wellformed.of_marks {s' : RoutingState} (h : s.Wellformed) (hlive : OneMaster s'.liveTracks)
    (hstudio : OneMaster s'.studioTracks)
    (hmarks : ((s'.liveTracks ++ s'.studioTracks ++ s'.fxTracks).map RoutedTrack.mark).Sublist
      ((s.liveTracks ++ s.studioTracks ++ s.fxTracks).map RoutedTrack.mark))
    (hnext : s'.nextMark = s.nextMark) : s'.Wellformed := by
  refine ⟨hlive, hstudio, h.marks.sublist hmarks, fun t ht => ?_⟩
  obtain ⟨u, hu, hmark⟩ := List.mem_map.mp (hmarks.subset (List.mem_map_of_mem ht))
  rw [hnext, ← hmark]
  exact h.fresh u hu

/-- With one strip more, under the next mark. -/
theorem Wellformed.of_new {s' : RoutingState} (h : s.Wellformed) (hlive : OneMaster s'.liveTracks)
    (hstudio : OneMaster s'.studioTracks) {t : RoutedTrack} (hmark : t.mark = s.nextMark)
    (hperm : (s'.liveTracks ++ s'.studioTracks ++ s'.fxTracks).Perm
      (t :: (s.liveTracks ++ s.studioTracks ++ s.fxTracks)))
    (hnext : s'.nextMark = s.nextMark + 1) : s'.Wellformed := by
  refine ⟨hlive, hstudio, ?_, fun u hu => ?_⟩
  · rw [(hperm.map RoutedTrack.mark).nodup_iff, List.map_cons, List.nodup_cons]
    refine ⟨fun hmem => ?_, h.marks⟩
    obtain ⟨u, hu, hsame⟩ := List.mem_map.mp hmem
    have hlt := h.fresh u hu
    omega
  · obtain rfl | hu := List.mem_cons.mp (hperm.subset hu)
    · omega
    · have hlt := h.fresh u hu
      omega

theorem map_mark_of_core {l l' : List RoutedTrack} (h : l'.map RoutedTrack.core = l.map RoutedTrack.core) :
    l'.map RoutedTrack.mark = l.map RoutedTrack.mark := by
  have hmarks := congrArg (List.map Prod.fst) h
  simp only [List.map_map] at hmarks
  exact hmarks

theorem core_modify (l : List RoutedTrack) (i dest : ℕ) (meant : Option Named) :
    (l.modify i (RoutedTrack.withRoute dest meant)).map RoutedTrack.core = l.map RoutedTrack.core :=
  map_modify_of_eq (f := RoutedTrack.withRoute dest meant) (fun _ => rfl) l i

/-- The choice of a route changes no mark and no master. -/
theorem core_setRouteDestination (target : StripTarget) (option : RouteOption) :
    (s.setRouteDestination target option).liveTracks.map RoutedTrack.core =
        s.liveTracks.map RoutedTrack.core ∧
      (s.setRouteDestination target option).studioTracks.map RoutedTrack.core =
        s.studioTracks.map RoutedTrack.core ∧
      (s.setRouteDestination target option).fxTracks.map RoutedTrack.core =
        s.fxTracks.map RoutedTrack.core := by
  unfold setRouteDestination setTracks tracks
  cases target with
  | master =>
    cases s.mode with
    | openLive => exact ⟨core_modify _ _ _ _, rfl, rfl⟩
    | openStudio => exact ⟨rfl, core_modify _ _ _ _, rfl⟩
  | live idx => exact ⟨core_modify _ _ _ _, rfl, rfl⟩
  | studio idx => exact ⟨rfl, core_modify _ _ _ _, rfl⟩
  | fx idx => exact ⟨rfl, rfl, core_modify _ _ _ _⟩

theorem nextMark_setRouteDestination (target : StripTarget) (option : RouteOption) :
    (s.setRouteDestination target option).nextMark = s.nextMark := by
  unfold setRouteDestination setTracks
  cases target with
  | master =>
    cases s.mode with
    | openLive => rfl
    | openStudio => rfl
  | live idx => rfl
  | studio idx => rfl
  | fx idx => rfl

/-- A new track is no master and routed to one. -/
theorem addLiveTrack_spec (s : RoutingState) : ∃ track : MixerTrack,
    s.addLiveTrack.liveTracks = s.liveTracks ++ [⟨track, s.nextMark, some .master⟩] ∧
      track.isMaster = false ∧ track.routeDestinationId = 0 :=
  ⟨_, rfl, rfl, rfl⟩

theorem addStudioTrack_spec (s : RoutingState) : ∃ track : MixerTrack,
    s.addStudioTrack.studioTracks = s.studioTracks ++ [⟨track, s.nextMark, some .master⟩] ∧
      track.isMaster = false ∧ track.routeDestinationId = 0 :=
  ⟨_, rfl, rfl, rfl⟩

theorem wellformed_step (h : s.Wellformed) (i : TrackEdit) : (s.step i).Wellformed := by
  have hsame {s' : RoutingState} (hlive : s'.liveTracks = s.liveTracks)
      (hstudio : s'.studioTracks = s.studioTracks) (hfx : s'.fxTracks = s.fxTracks)
      (hnext : s'.nextMark = s.nextMark) : s'.Wellformed := by
    refine h.of_marks ?_ ?_ ?_ hnext
    · rw [hlive]
      exact h.live
    · rw [hstudio]
      exact h.studio
    · rw [hlive, hstudio, hfx]
  cases i with
  | addTrack =>
    simp only [step]
    cases hmode : s.mode with
    | openLive =>
      obtain ⟨track, htracks, hflag, _⟩ := s.addLiveTrack_spec
      have hlive : OneMaster s.addLiveTrack.liveTracks := htracks ▸ h.live.append hflag
      refine h.of_new (t := ⟨track, s.nextMark, some .master⟩) hlive h.studio rfl ?_ rfl
      rw [htracks, List.append_assoc, List.append_assoc, List.append_assoc]
      exact List.perm_middle
    | openStudio =>
      obtain ⟨track, htracks, hflag, _⟩ := s.addStudioTrack_spec
      have hstudio : OneMaster s.addStudioTrack.studioTracks := htracks ▸ h.studio.append hflag
      refine h.of_new (t := ⟨track, s.nextMark, some .master⟩) h.live hstudio rfl ?_ rfl
      rw [htracks, ← List.append_assoc, List.append_assoc _ [_]]
      exact List.perm_middle
  | removeTrack =>
    simp only [step]
    cases hmode : s.mode with
    | openLive =>
      show Wellformed s.removeLiveTrack
      unfold removeLiveTrack
      by_cases hlong : 2 < s.liveTracks.length
      · rw [if_pos hlong]
        refine h.of_marks (h.live.dropLast (by omega)) h.studio ?_ rfl
        exact (((List.dropLast_sublist _).append_right _).append_right _).map _
      · rw [if_neg hlong]
        exact hsame rfl rfl rfl rfl
    | openStudio =>
      dsimp only
      rw [h.studio.removeLastTrack]
      by_cases hlong : 1 < s.studioTracks.length
      · rw [if_pos hlong]
        refine h.of_marks h.live (h.studio.dropLast hlong) ?_ rfl
        exact (((List.dropLast_sublist _).append_left _).append_right _).map _
      · rw [if_neg hlong]
        exact hsame rfl rfl rfl rfl
  | addMatrixTrack => exact hsame rfl rfl rfl rfl
  | removeMatrixTrack => exact hsame rfl rfl rfl rfl
  | setRoute target option =>
    simp only [step]
    cases hoption : (s.routeOptions target)[option]? with
    | none => exact h
    | some o =>
      obtain ⟨hlive, hstudio, hfx⟩ := core_setRouteDestination (s := s) target o
      refine h.of_marks (h.live.congr hlive) (h.studio.congr hstudio) ?_ (nextMark_setRouteDestination target o)
      rw [List.map_append, List.map_append, map_mark_of_core hlive, map_mark_of_core hstudio,
        map_mark_of_core hfx, ← List.map_append, ← List.map_append]
  | dropClip row =>
    simp only [step]
    split
    · exact hsame rfl rfl rfl rfl
    · exact h
  | pasteClip key =>
    simp only [step]
    split
    · exact hsame rfl rfl rfl rfl
    · exact h
  | duplicateClip i =>
    simp only [step]
    split
    · exact h
    · exact hsame rfl rfl rfl rfl
  | setMode mode => exact hsame rfl rfl rfl rfl

end RoutingState

end HikaruOpenLive.Gui
