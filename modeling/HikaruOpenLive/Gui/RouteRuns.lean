import HikaruOpenLive.Gui.TrackEdits

/-! # References to strips under edits

Which edits leave every route, and the row of every clip, naming the strip that was meant. Adding a track
does; removing the last strip does if nothing refers to it; a return strip that is routed to a strip
follows the mode, which is another list; and the menu of routes is right about everything it offers but the
strips from the thousandth on, whose numbers are those of returns.
-/
set_option autoImplicit false

namespace HikaruOpenLive.Gui

open Foundations.ListEdits Foundations.Runs

namespace RoutingState

variable {s : RoutingState}

/-! ## The references under edits -/

theorem tracks_openLive (h : s.mode = .openLive) : s.tracks = s.liveTracks := by
  rw [tracks, h]

theorem tracks_openStudio (h : s.mode = .openStudio) : s.tracks = s.studioTracks := by
  rw [tracks, h]

theorem Wellformed.tracks (h : s.Wellformed) : OneMaster s.tracks := by
  unfold RoutingState.tracks
  cases s.mode with
  | openLive => exact h.live
  | openStudio => exact h.studio

theorem resolves_addLiveTrack (hwf : s.Wellformed) (h : s.Resolves) (hmode : s.mode = .openLive) :
    s.addLiveTrack.Resolves := by
  obtain ⟨track, htracks, _, hroute⟩ := s.addLiveTrack_spec
  have hfx := h.fx
  rw [tracks_openLive hmode] at hfx
  exact
    { live := by
        rw [htracks]
        exact allResolve_append h.live hwf.live _ hroute
      studio := h.studio
      fx := by
        rw [tracks_openLive (s := s.addLiveTrack) hmode, htracks]
        exact hfx.append _
      clips := h.clips
      strips := by
        have hmatrix : s.addLiveTrack.matrix.tracks.length = s.matrix.tracks.length + 1 :=
          List.length_append
        rw [htracks, hmatrix, List.length_append, h.strips]
        rfl }

theorem resolves_addStudioTrack (hwf : s.Wellformed) (h : s.Resolves) (hmode : s.mode = .openStudio) :
    s.addStudioTrack.Resolves := by
  obtain ⟨track, htracks, _, hroute⟩ := s.addStudioTrack_spec
  have hfx := h.fx
  rw [tracks_openStudio hmode] at hfx
  exact
    { live := h.live
      studio := by
        rw [htracks]
        exact allResolve_append h.studio hwf.studio _ hroute
      fx := by
        rw [tracks_openStudio (s := s.addStudioTrack) hmode, htracks]
        exact hfx.append _
      clips := fun clip hclip => by
        obtain ⟨t, ht, hmeant⟩ := h.clips clip hclip
        refine ⟨t, ?_, hmeant⟩
        rw [htracks, List.getElem?_append_left (lt_of_getElem? ht), ht]
      strips := h.strips }

theorem resolves_removeLiveTrack_iff (hwf : s.Wellformed) (h : s.Resolves) (hmode : s.mode = .openLive) :
    s.removeLiveTrack.Resolves ↔ (2 < s.liveTracks.length → LastUnrouted s.liveTracks s.fxTracks) := by
  have hfx := h.fx
  rw [tracks_openLive hmode] at hfx
  have hstrips := h.strips
  by_cases hlong : 2 < s.liveTracks.length
  · have hlive : s.removeLiveTrack.liveTracks = s.liveTracks.dropLast := if_pos hlong
    have hmatrix : s.removeLiveTrack.matrix.tracks = s.matrix.tracks.dropLast := by
      show s.matrix.removeTrack.tracks = _
      rw [SessionMatrixState.removeTrack, if_pos (by omega)]
    rw [← allResolve_dropLast_iff h.live hfx hwf.live (by omega)]
    constructor
    · intro h' _
      have hfx' := h'.fx
      rw [tracks_openLive (s := s.removeLiveTrack) hmode, hlive] at hfx'
      exact ⟨hlive ▸ h'.live, hfx'⟩
    · intro h'
      obtain ⟨hkept, hfx'⟩ := h' hlong
      exact
        { live := by
            rw [hlive]
            exact hkept
          studio := h.studio
          fx := by
            rw [tracks_openLive (s := s.removeLiveTrack) hmode, hlive]
            exact hfx'
          clips := h.clips
          strips := by
            rw [hlive, hmatrix, List.length_dropLast, List.length_dropLast]
            omega }
  · have hlive : s.removeLiveTrack.liveTracks = s.liveTracks := if_neg hlong
    have hmatrix : s.removeLiveTrack.matrix = s.matrix := by
      show s.matrix.removeTrack = _
      rw [SessionMatrixState.removeTrack, if_neg (by omega)]
    refine iff_of_true ?_ fun hlong' => absurd hlong' hlong
    exact
      { live := by
          rw [hlive]
          exact h.live
        studio := h.studio
        fx := by
          rw [tracks_openLive (s := s.removeLiveTrack) hmode, hlive]
          exact hfx
        clips := h.clips
        strips := by rw [hlive, hmatrix, hstrips] }

theorem resolves_removeStudioTrack_iff (hwf : s.Wellformed) (h : s.Resolves)
    (hmode : s.mode = .openStudio) :
    RoutingState.Resolves { s with studioTracks := removeLastTrack s.studioTracks } ↔
      (1 < s.studioTracks.length → LastUnrouted s.studioTracks s.fxTracks ∧
        ∀ clip ∈ s.clips, clip.row ≠ s.studioTracks.length - 1) := by
  have hfx := h.fx
  rw [tracks_openStudio hmode] at hfx
  rw [hwf.studio.removeLastTrack]
  by_cases hlong : 1 < s.studioTracks.length
  · rw [if_pos hlong, ← allResolve_dropLast_iff h.studio hfx hwf.studio hlong]
    constructor
    · intro h' _
      have hfx' := h'.fx
      rw [tracks_openStudio (s := { s with studioTracks := s.studioTracks.dropLast }) hmode] at hfx'
      refine ⟨⟨h'.studio, hfx'⟩, fun clip hclip hlast => ?_⟩
      obtain ⟨t, ht, _⟩ := h'.clips clip hclip
      have hrow := lt_of_getElem? ht
      rw [List.length_dropLast] at hrow
      omega
    · intro h'
      obtain ⟨⟨hkept, hfx'⟩, hclips⟩ := h' hlong
      exact
        { live := h.live
          studio := hkept
          fx := by
            rw [tracks_openStudio (s := { s with studioTracks := s.studioTracks.dropLast }) hmode]
            exact hfx'
          clips := fun clip hclip => by
            obtain ⟨t, ht, hmeant⟩ := h.clips clip hclip
            have hrow := lt_of_getElem? ht
            have hother := hclips clip hclip
            refine ⟨t, ?_, hmeant⟩
            show s.studioTracks.dropLast[clip.row]? = some t
            rw [List.dropLast_eq_take, List.getElem?_take_of_lt (by omega), ht]
          strips := h.strips }
  · rw [if_neg hlong]
    exact iff_of_true h fun hlong' => absurd hlong' hlong

/-! ## The menu of routes -/

/-- The marks of the strips of a mode are apart from each other and from those of the returns. -/
theorem Wellformed.apart (h : s.Wellformed) :
    ((s.liveTracks.map RoutedTrack.mark).Nodup ∧ (s.studioTracks.map RoutedTrack.mark).Nodup) ∧
      (∀ t ∈ s.liveTracks, ∀ u ∈ s.studioTracks, t.mark ≠ u.mark) ∧
      (∀ t ∈ s.liveTracks, ∀ u ∈ s.fxTracks, t.mark ≠ u.mark) ∧
      ∀ t ∈ s.studioTracks, ∀ u ∈ s.fxTracks, t.mark ≠ u.mark := by
  have hmarks := h.marks
  rw [List.map_append, List.map_append, List.nodup_append, List.nodup_append] at hmarks
  obtain ⟨⟨hlive, hstudio, hmodes⟩, _, hreturns⟩ := hmarks
  have hmem {l : List RoutedTrack} {t : RoutedTrack} (ht : t ∈ l) : t.mark ∈ l.map RoutedTrack.mark :=
    List.mem_map_of_mem ht
  exact ⟨⟨hlive, hstudio⟩, fun t ht u hu => hmodes _ (hmem ht) _ (hmem hu),
    fun t ht u hu => hreturns _ (List.mem_append_left _ (hmem ht)) _ (hmem hu),
    fun t ht u hu => hreturns _ (List.mem_append_right _ (hmem ht)) _ (hmem hu)⟩

theorem Wellformed.apart_tracks (h : s.Wellformed) :
    ∀ t ∈ s.tracks, ∀ u ∈ s.fxTracks, t.mark ≠ u.mark := by
  obtain ⟨_, _, hlive, hstudio⟩ := h.apart
  unfold RoutingState.tracks
  cases s.mode with
  | openLive => exact hlive
  | openStudio => exact hstudio

/-- Strips of one list with one mark are in one place. -/
theorem eq_of_mark {l : List RoutedTrack} (h : (l.map RoutedTrack.mark).Nodup) {i j : ℕ}
    {t u : RoutedTrack} (ht : l[i]? = some t) (hu : l[j]? = some u) (hmark : t.mark = u.mark) : i = j := by
  have hi := lt_of_getElem? ht
  refine (List.getElem?_inj (by rw [List.length_map]; exact hi) h).mp ?_
  rw [List.getElem?_map, List.getElem?_map, ht, hu, Option.map_some, Option.map_some, hmark]

/-- Every entry is the master, a return or another strip, and a return never offers returns. -/
theorem mem_routeOptions {target : StripTarget} {o : RouteOption} (h : o ∈ s.routeOptions target) :
    (o.dest = 0 ∧ o.kind = .master ∧ (target ≠ .master → o.label = "Master")) ∨
      ((∀ idx, target ≠ .fx idx) ∧ ∃ n, o = fxOption n) ∨
      (o.dest ≠ 0 ∧ o.kind = .strip o.dest ∧ some o.dest ≠ (s.bank target).2 ∧
        ∃ t, (s.bank target).1[o.dest]? = some t ∧ o.label = t.track.name) := by
  have hstrips {l : List RoutedTrack} {own : Option ℕ}
      (hmem : o ∈ (l.zipIdx.drop 1).filterMap (trackOption own)) :
      o.dest ≠ 0 ∧ o.kind = .strip o.dest ∧ some o.dest ≠ own ∧
        ∃ t, l[o.dest]? = some t ∧ o.label = t.track.name := by
    obtain ⟨⟨t, i⟩, hx, hoption⟩ := List.mem_filterMap.mp hmem
    obtain ⟨k, hk⟩ := List.mem_iff_getElem?.mp hx
    rw [List.getElem?_drop, List.getElem?_zipIdx] at hk
    obtain ⟨u, hu, hpair⟩ := Option.map_eq_some_iff.mp hk
    obtain ⟨rfl, rfl⟩ : u = t ∧ 1 + k = i := by simpa using hpair
    unfold trackOption at hoption
    split at hoption
    case isTrue => nomatch hoption
    case isFalse hown =>
      obtain rfl := Option.some.inj hoption
      exact ⟨by simp only; omega, rfl, fun hsame => hown (Or.inl hsame), u, hu, rfl⟩
  have hreturns {n : ℕ} (hmem : o ∈ (List.range n).map fxOption) : ∃ n, o = fxOption n := by
    obtain ⟨k, _, rfl⟩ := List.mem_map.mp hmem
    exact ⟨k, rfl⟩
  cases target with
  | master =>
    obtain rfl := List.mem_singleton.mp h
    exact Or.inl ⟨rfl, rfl, fun hne => absurd rfl hne⟩
  | fx idx =>
    obtain rfl | h := List.mem_cons.mp h
    · exact Or.inl ⟨rfl, rfl, fun _ => rfl⟩
    · exact Or.inr (Or.inr (hstrips h))
  | live idx =>
    obtain rfl | h := List.mem_cons.mp h
    · exact Or.inl ⟨rfl, rfl, fun _ => rfl⟩
    · obtain h | h := List.mem_append.mp h
      · exact Or.inr (Or.inl ⟨fun _ hkind => (nomatch hkind), hreturns h⟩)
      · exact Or.inr (Or.inr (hstrips h))
  | studio idx =>
    obtain rfl | h := List.mem_cons.mp h
    · exact Or.inl ⟨rfl, rfl, fun _ => rfl⟩
    · obtain h | h := List.mem_append.mp h
      · exact Or.inr (Or.inl ⟨fun _ hkind => (nomatch hkind), hreturns h⟩)
      · exact Or.inr (Or.inr (hstrips h))

theorem routeTarget_fxOption (n : ℕ) : routeTarget (fxOption n).dest = .fx n := by
  have hne : routeFxBase + n ≠ 0 := by
    unfold routeFxBase
    omega
  show routeTarget (routeFxBase + n) = .fx n
  rw [routeTarget, if_neg hne, if_pos (Nat.le_add_right _ _), Nat.add_sub_cancel_left]

/-- The menu calls a destination what the strip then shows, as long as its number stands for it. -/
theorem label_routeOptions {target : StripTarget} (htarget : target ≠ .master) {o : RouteOption}
    (ho : o ∈ s.routeOptions target) (hkind : routeTarget o.dest = o.kind) :
    o.label = routeDestLabel o.dest false ((s.bank target).1.map fun t => t.track.name) := by
  obtain ⟨hzero, _, hlabel⟩ | ⟨_, n, rfl⟩ | ⟨hne, hstrip, _, t, ht, hlabel⟩ := mem_routeOptions ho
  · rw [hlabel htarget, hzero]
    rfl
  · have hne : routeFxBase + n ≠ 0 := by
      unfold routeFxBase
      omega
    show "FX " ++ toString (n + 1) = routeDestLabel (routeFxBase + n) false _
    rw [routeDestLabel, if_neg Bool.false_ne_true, if_neg hne, if_pos (Nat.le_add_right _ _),
      Nat.add_sub_cancel_left]
  · have hsmall : ¬ routeFxBase ≤ o.dest := by
      intro hlarge
      rw [hstrip, routeTarget, if_neg hne, if_pos hlarge] at hkind
      nomatch hkind
    rw [hlabel, routeDestLabel, if_neg Bool.false_ne_true, if_neg hne, if_neg hsmall, List.getElem?_map, ht]
    rfl

/-- The number of an entry stands for what it is offered as, unless both name nothing in common. -/
theorem routeTarget_of_named {target : StripTarget} {o : RouteOption} (ho : o ∈ s.routeOptions target)
    {l fx : List RoutedTrack} (hapart : ∀ t ∈ l, ∀ u ∈ fx, t.mark ≠ u.mark) {n : Named}
    (hkind : o.kind.named l fx = some n) (hdest : (routeTarget o.dest).named l fx = some n) :
    routeTarget o.dest = o.kind := by
  obtain ⟨hzero, hmaster, _⟩ | ⟨_, k, rfl⟩ | ⟨hne, hstrip, _⟩ := mem_routeOptions ho
  · rw [hzero, hmaster]
    rfl
  · exact routeTarget_fxOption k
  · by_cases hlarge : routeFxBase ≤ o.dest
    · have htarget : routeTarget o.dest = .fx (o.dest - routeFxBase) := by
        rw [routeTarget, if_neg hne, if_pos hlarge]
      rw [hstrip] at hkind
      rw [htarget] at hdest
      obtain ⟨t, ht, rfl⟩ := Option.map_eq_some_iff.mp hkind
      obtain ⟨u, hu, hmark⟩ := Option.map_eq_some_iff.mp hdest
      exact absurd (Named.strip.inj hmark).symm
        (hapart t (List.mem_of_getElem? ht) u (List.mem_of_getElem? hu))
    · rw [hstrip, routeTarget, if_neg hne, if_neg hlarge]

/-- No entry of the menu of a strip offers the strip itself. -/
theorem named_ne_self {target : StripTarget} {o : RouteOption} (ho : o ∈ s.routeOptions target)
    {l fx : List RoutedTrack} (hapart : ∀ t ∈ l, ∀ u ∈ fx, t.mark ≠ u.mark)
    (hmarks : (l.map RoutedTrack.mark).Nodup) {t : RoutedTrack}
    (hown : (∃ i, (s.bank target).2 = some i ∧ l[i]? = some t) ∨ (∃ idx, target = .fx idx) ∧ t ∈ fx) :
    o.kind.named l fx ≠ some (.strip t.mark) := by
  intro hself
  obtain ⟨_, hmaster, _⟩ | ⟨hnofx, k, rfl⟩ | ⟨_, hstrip, hother, _⟩ := mem_routeOptions ho
  · rw [hmaster] at hself
    simp [RouteTarget.named] at hself
  · obtain ⟨u, hu, hmark⟩ := Option.map_eq_some_iff.mp hself
    obtain ⟨i, _, ht⟩ | ⟨⟨idx, htarget⟩, _⟩ := hown
    · exact hapart t (List.mem_of_getElem? ht) u (List.mem_of_getElem? hu) (Named.strip.inj hmark).symm
    · exact hnofx idx htarget
  · rw [hstrip] at hself
    obtain ⟨u, hu, hmark⟩ := Option.map_eq_some_iff.mp hself
    obtain ⟨i, hbank, ht⟩ | ⟨_, ht⟩ := hown
    · obtain rfl := eq_of_mark hmarks hu ht (Named.strip.inj hmark)
      exact hother hbank.symm
    · exact hapart u (List.mem_of_getElem? hu) t ht (Named.strip.inj hmark)

/-- What of the references is left to ask once a route has been chosen. -/
theorem resolves_setRouteDestination (h : s.Resolves) (target : StripTarget) (o : RouteOption) :
    (s.setRouteDestination target o).Resolves ↔
      AllResolve s.liveTracks s.fxTracks (s.setRouteDestination target o).liveTracks ∧
        AllResolve s.studioTracks s.fxTracks (s.setRouteDestination target o).studioTracks ∧
          AllResolve s.tracks s.fxTracks (s.setRouteDestination target o).fxTracks := by
  obtain ⟨hlive, hstudio, hfx⟩ := core_setRouteDestination (s := s) target o
  have hframe : (s.setRouteDestination target o).mode = s.mode ∧
      (s.setRouteDestination target o).matrix = s.matrix ∧
        (s.setRouteDestination target o).clips = s.clips := by
    unfold setRouteDestination setTracks
    cases target with
    | master =>
      cases s.mode with
      | openLive => exact ⟨rfl, rfl, rfl⟩
      | openStudio => exact ⟨rfl, rfl, rfl⟩
    | live idx => exact ⟨rfl, rfl, rfl⟩
    | studio idx => exact ⟨rfl, rfl, rfl⟩
    | fx idx => exact ⟨rfl, rfl, rfl⟩
  obtain ⟨hmode, hmatrix, hclips⟩ := hframe
  have htracks : (s.setRouteDestination target o).tracks.map RoutedTrack.core =
      s.tracks.map RoutedTrack.core := by
    unfold tracks
    rw [hmode]
    cases s.mode with
    | openLive => exact hlive
    | openStudio => exact hstudio
  constructor
  · intro h'
    exact ⟨(allResolve_congr hlive hfx _).mp h'.live, (allResolve_congr hstudio hfx _).mp h'.studio,
      (allResolve_congr htracks hfx _).mp h'.fx⟩
  · rintro ⟨hl, hst, hret⟩
    exact
      { live := (allResolve_congr hlive hfx _).mpr hl
        studio := (allResolve_congr hstudio hfx _).mpr hst
        fx := (allResolve_congr htracks hfx _).mpr hret
        clips := fun clip hclip => by
          obtain ⟨t, ht, hmeant⟩ := h.clips clip (hclips ▸ hclip)
          have hrow := congrArg (fun cs : List (ℕ × Bool) => cs[clip.row]?) hstudio
          simp only [List.getElem?_map, ht, Option.map_some] at hrow
          obtain ⟨t', ht', hcore⟩ := Option.map_eq_some_iff.mp hrow
          exact ⟨t', ht', hmeant.trans (congrArg (fun c : ℕ × Bool => some c.1) hcore).symm⟩
        strips := by
          rw [hmatrix, ← h.strips, ← List.length_map RoutedTrack.core, hlive, List.length_map] }

theorem resolves_setRoute_iff (hwf : s.Wellformed) (h : s.Resolves) {target : StripTarget}
    {o : RouteOption} (ho : o ∈ s.routeOptions target) :
    (s.setRouteDestination target o).Resolves ↔
      ∀ t, s.strip? target = some t → t.isMaster = false →
        routeTarget o.dest = o.kind ∧ (o.kind.named (s.bank target).1 s.fxTracks).isSome := by
  obtain ⟨⟨hlive, hstudio⟩, hmodes, hlivefx, hstudiofx⟩ := hwf.apart
  have htracks := hwf.apart_tracks
  have hnodup : (s.tracks.map RoutedTrack.mark).Nodup := by
    unfold tracks
    cases s.mode with
    | openLive => exact hlive
    | openStudio => exact hstudio
  rw [resolves_setRouteDestination h]
  cases target with
  | master =>
    refine iff_of_true ?_ fun t ht hflag => ?_
    · have hset : s.setRouteDestination .master o =
          s.setTracks (s.tracks.modify 0 (RoutedTrack.withRoute o.dest
            (o.kind.named (s.bank .master).1 s.fxTracks))) := rfl
      rw [hset, setTracks]
      cases hmode : s.mode with
      | openLive =>
        rw [tracks_openLive hmode]
        exact ⟨h.live.route_master hwf.live _ _, h.studio, tracks_openLive hmode ▸ h.fx⟩
      | openStudio =>
        rw [tracks_openStudio hmode]
        exact ⟨h.live, h.studio.route_master hwf.studio _ _, tracks_openStudio hmode ▸ h.fx⟩
    · obtain ⟨master, rest, hcons, hmaster, _⟩ := hwf.tracks.exists_cons
      have ht' : s.tracks[0]? = some t := ht
      rw [hcons] at ht'
      obtain rfl := Option.some.inj ht'
      exact absurd hmaster (by rw [hflag]; decide)
  | live idx =>
    refine Iff.trans ⟨fun h' => h'.1, fun h' => ⟨h', h.studio, h.fx⟩⟩ ?_
    refine (h.live.route_iff (idx + 1) o.dest _).trans (forall_congr' fun t => ?_)
    refine forall_congr' fun ht => forall_congr' fun _ => resolves_withRoute_iff ?_ ?_
    · exact named_ne_self ho hlivefx hlive (Or.inl ⟨idx + 1, rfl, ht⟩)
    · exact fun n hkind hdest => routeTarget_of_named ho hlivefx hkind hdest
  | studio idx =>
    refine Iff.trans ⟨fun h' => h'.2.1, fun h' => ⟨h.live, h', h.fx⟩⟩ ?_
    refine (h.studio.route_iff idx o.dest _).trans (forall_congr' fun t => ?_)
    refine forall_congr' fun ht => forall_congr' fun _ => resolves_withRoute_iff ?_ ?_
    · exact named_ne_self ho hstudiofx hstudio (Or.inl ⟨idx, rfl, ht⟩)
    · exact fun n hkind hdest => routeTarget_of_named ho hstudiofx hkind hdest
  | fx idx =>
    refine Iff.trans ⟨fun h' => h'.2.2, fun h' => ⟨h.live, h.studio, h'⟩⟩ ?_
    refine (h.fx.route_iff idx o.dest _).trans (forall_congr' fun t => ?_)
    refine forall_congr' fun ht => forall_congr' fun _ => resolves_withRoute_iff ?_ ?_
    · exact named_ne_self ho htracks hnodup (Or.inr ⟨⟨idx, rfl⟩, List.mem_of_getElem? ht⟩)
    · exact fun n hkind hdest => routeTarget_of_named ho htracks hkind hdest

/-- No strip of the other mode bears the mark of a strip of this one. -/
theorem marks_apart_setMode (hwf : s.Wellformed) {mode : AppMode} (hne : mode ≠ s.mode) :
    ∀ t ∈ s.tracks, ∀ u ∈ RoutingState.tracks { s with mode := mode }, t.mark ≠ u.mark := by
  obtain ⟨_, hmodes, _⟩ := hwf.apart
  unfold tracks
  cases hmode : s.mode with
  | openLive =>
    cases mode with
    | openLive => exact absurd hmode.symm hne
    | openStudio => exact hmodes
  | openStudio =>
    cases mode with
    | openLive => exact fun t ht u hu hmark => hmodes u hu t ht hmark.symm
    | openStudio => exact absurd hmode.symm hne

theorem oneMaster_setMode (hwf : s.Wellformed) (mode : AppMode) :
    OneMaster (RoutingState.tracks { s with mode := mode }) := by
  cases mode with
  | openLive => exact hwf.live
  | openStudio => exact hwf.studio

/-- Among strips that bear other marks, a return keeps what it names unless it names a strip. -/
theorem resolves_apart_iff {live other fxs : List RoutedTrack} {t : RoutedTrack} (hlive : OneMaster live)
    (hother : OneMaster other) (hapart : ∀ u ∈ live, ∀ v ∈ other, u.mark ≠ v.mark)
    (h : t.Resolves live fxs) :
    t.Resolves other fxs ↔ ∀ i, routeTarget t.track.routeDestinationId ≠ .strip i := by
  obtain ⟨n, hmeant, hnamed, hself⟩ := h
  constructor
  · rintro ⟨n', hmeant', hnamed', _⟩ i hroute
    obtain rfl := Option.some.inj (hmeant.symm.trans hmeant')
    rw [hroute] at hnamed hnamed'
    obtain ⟨u, hu, rfl⟩ := Option.map_eq_some_iff.mp hnamed
    obtain ⟨v, hv, hmark⟩ := Option.map_eq_some_iff.mp hnamed'
    exact hapart u (List.mem_of_getElem? hu) v (List.mem_of_getElem? hv) (Named.strip.inj hmark).symm
  · intro hroute
    refine ⟨n, hmeant, ?_, hself⟩
    cases hkind : routeTarget t.track.routeDestinationId with
    | master =>
      rw [hkind] at hnamed
      rw [← hnamed]
      show (if _ then _ else _) = if _ then _ else _
      rw [hother.any, hlive.any]
    | strip i => exact absurd hkind (hroute i)
    | fx k =>
      rw [hkind] at hnamed
      exact hnamed

/-- In the other mode the returns resolve if and only if none of them is routed to a strip. -/
theorem resolves_setMode_iff (hwf : s.Wellformed) (h : s.Resolves) (mode : AppMode) :
    RoutingState.Resolves { s with mode := mode } ↔
      (mode ≠ s.mode → ∀ t ∈ s.fxTracks, t.isMaster = false →
        ∀ i, routeTarget t.track.routeDestinationId ≠ .strip i) := by
  by_cases hsame : mode = s.mode
  · subst hsame
    exact iff_of_true h fun hne => absurd rfl hne
  have hfx : AllResolve (RoutingState.tracks { s with mode := mode }) s.fxTracks s.fxTracks ↔
      ∀ t ∈ s.fxTracks, t.isMaster = false →
        ∀ i, routeTarget t.track.routeDestinationId ≠ .strip i :=
    forall_congr' fun t => forall_congr' fun ht => forall_congr' fun hflag =>
      resolves_apart_iff hwf.tracks (oneMaster_setMode hwf mode) (marks_apart_setMode hwf hsame)
        (h.fx t ht hflag)
  constructor
  · intro h' _
    exact hfx.mp h'.fx
  · intro hroutes
    exact
      { live := h.live
        studio := h.studio
        fx := hfx.mpr (hroutes hsame)
        clips := h.clips
        strips := h.strips }

theorem mem_playlistRowKeys {key : ℕ} (h : key ∈ s.playlistRowKeys) : ∃ t, s.tracks[key]? = some t := by
  unfold playlistRowKeys rowKeysOf at h
  obtain ⟨⟨t, i⟩, hx, rfl⟩ := List.mem_map.mp h
  have hi := List.mem_zipIdx_iff_getElem?.mp (List.mem_of_mem_filter hx)
  rw [List.getElem?_map] at hi
  obtain ⟨u, hu, _⟩ := Option.map_eq_some_iff.mp hi
  exact ⟨u, hu⟩

/-- A clip put on a row there is. -/
theorem resolves_addClip (h : s.Resolves) (hmode : s.mode = .openStudio) {key : ℕ}
    (hkey : key ∈ s.playlistRowKeys) : (s.addClip key).Resolves := by
  obtain ⟨t, ht⟩ := mem_playlistRowKeys hkey
  rw [tracks_openStudio hmode] at ht
  refine ⟨h.live, h.studio, h.fx, fun clip hclip => ?_, h.strips⟩
  obtain hclip | hclip := List.mem_append.mp hclip
  · exact h.clips clip hclip
  · obtain rfl := List.mem_singleton.mp hclip
    exact ⟨t, ht, by rw [ht]; rfl⟩

/-- A row of the matrix without a strip. -/
theorem not_resolves_addMatrixTrack (h : s.Resolves) : ¬ (s.step .addMatrixTrack).Resolves := by
  intro h'
  have hlong : s.matrix.addTrack.tracks.length = s.matrix.tracks.length + 1 := List.length_append
  have hstrips : s.liveTracks.length = s.matrix.addTrack.tracks.length + 1 := h'.strips
  have hbefore := h.strips
  omega

theorem resolves_removeMatrixTrack_iff (h : s.Resolves) :
    (s.step .removeMatrixTrack).Resolves ↔ s.matrix.tracks.length ≤ 1 := by
  have hbefore := h.strips
  constructor
  · intro h'
    by_contra hmany
    have hmany' : 1 < s.matrix.tracks.length := not_le.mp hmany
    have hstrips : s.liveTracks.length = s.matrix.removeTrack.tracks.length + 1 := h'.strips
    have hshort : s.matrix.removeTrack.tracks.length = s.matrix.tracks.length - 1 := by
      rw [SessionMatrixState.removeTrack, if_pos hmany']
      exact List.length_dropLast
    omega
  · intro hfew
    refine ⟨h.live, h.studio, h.fx, h.clips, ?_⟩
    show s.liveTracks.length = s.matrix.removeTrack.tracks.length + 1
    rw [SessionMatrixState.removeTrack, if_neg (by omega), hbefore]

/-- An edit leaves every reference what it was if and only if it is safe. -/
theorem resolves_step_iff (hwf : s.Wellformed) (h : s.Resolves) (i : TrackEdit) :
    (s.step i).Resolves ↔ s.Safe i := by
  cases i with
  | addTrack =>
    refine iff_of_true ?_ trivial
    unfold step
    cases hmode : s.mode with
    | openLive => exact resolves_addLiveTrack hwf h hmode
    | openStudio => exact resolves_addStudioTrack hwf h hmode
  | removeTrack =>
    unfold step Safe
    cases hmode : s.mode with
    | openLive => exact resolves_removeLiveTrack_iff hwf h hmode
    | openStudio =>
      have hiff := resolves_removeStudioTrack_iff hwf h hmode
      simp only [hmode] at hiff
      exact hiff
  | addMatrixTrack => exact iff_of_false (not_resolves_addMatrixTrack h) id
  | removeMatrixTrack => exact resolves_removeMatrixTrack_iff h
  | setRoute target option =>
    simp only [step, Safe]
    cases hoption : (s.routeOptions target)[option]? with
    | none =>
      refine iff_of_true h fun _ _ _ _ hsome => ?_
      cases hsome
    | some o =>
      refine (resolves_setRoute_iff hwf h (List.mem_of_getElem? hoption)).trans ?_
      constructor
      · intro hone t o' ht hflag ho'
        obtain rfl := Option.some.inj ho'
        exact hone t ht hflag
      · exact fun hall t ht hflag => hall t o ht hflag rfl
  | dropClip row =>
    refine iff_of_true ?_ trivial
    simp only [step]
    split
    next hmode hkey => exact resolves_addClip h hmode (List.mem_of_getElem? hkey)
    next => exact h
  | pasteClip key =>
    refine iff_of_true ?_ trivial
    simp only [step]
    split
    case isTrue hpaste => exact resolves_addClip h hpaste.1 hpaste.2
    case isFalse => exact h
  | duplicateClip i =>
    refine iff_of_true ?_ trivial
    simp only [step]
    split
    next => exact h
    next clip hclip =>
      refine ⟨h.live, h.studio, h.fx, fun c hc => ?_, h.strips⟩
      obtain hc | hc := List.mem_append.mp hc
      · exact h.clips c hc
      · obtain rfl := List.mem_singleton.mp hc
        exact h.clips c (List.mem_of_getElem? hclip)
  | setMode mode => exact resolves_setMode_iff hwf h mode

/-- Every reference stays what it was all along a run if and only if every edit of it is safe. -/
theorem always_resolves_iff (hwf : s.Wellformed) (h : s.Resolves) (is : List TrackEdit) :
    Always step Resolves s is ↔ Along step Safe s is :=
  always_iff_along_within (fun _ i hs => wellformed_step hs i)
    (fun _ i hs hr => resolves_step_iff hs hr i) hwf h

/-! ## From the start of the application -/

/-- The state the application starts in. -/
def start : RoutingState :=
  { mode := .openLive
    matrix := .default
    liveTracks := (syncTracks [.new 0 "MASTER" true] SessionMatrixState.default.tracks [] []).zipIdx.map
      fun x => ⟨x.1, x.2, some .master⟩
    studioTracks := [⟨{ MixerTrack.new 0 "MASTER" true with volume := 7 / 10 }, 9, some .master⟩,
      ⟨{ MixerTrack.new 1 "TRACK 01" false with volume := 7 / 10 }, 10, some .master⟩]
    fxTracks := [⟨.new 0 "FX 1" false, 11, some .master⟩]
    clips := []
    nextMark := 12 }

theorem wellformed_start : start.Wellformed :=
  ⟨⟨by decide +kernel, by decide +kernel⟩, ⟨by decide +kernel, by decide +kernel⟩, by decide +kernel,
    by decide +kernel⟩

theorem resolves_start : start.Resolves := by
  have hfresh {tracks fx strips : List RoutedTrack} (hmaster : tracks.any RoutedTrack.isMaster = true)
      (h : ∀ t ∈ strips, t.meant = some .master ∧ t.track.routeDestinationId = 0) :
      AllResolve tracks fx strips := by
    intro t ht _
    obtain ⟨hmeant, hroute⟩ := h t ht
    refine ⟨.master, hmeant, ?_, fun hself => nomatch hself⟩
    rw [hroute]
    exact if_pos hmaster
  exact
    { live := hfresh (by decide +kernel) (by decide +kernel)
      studio := hfresh (by decide +kernel) (by decide +kernel)
      fx := hfresh (by decide +kernel) (by decide +kernel)
      clips := List.forall_mem_nil _
      strips := by decide +kernel }

/-- A track added, routed to the return, and a clip put on the playlist. -/
theorem always_resolves_routed :
    Always step Resolves start
      [.addTrack, .setRoute (.live 0) 1, .setMode .openStudio, .dropClip 0] := by
  refine (always_resolves_iff wellformed_start resolves_start _).mpr ⟨trivial, ?_, ?_, trivial, trivial⟩
  · intro t o _ _ ho
    have hoption : (start.addLiveTrack.routeOptions (.live 0))[1]? = some (fxOption 0) := by
      decide +kernel
    obtain rfl := Option.some.inj (hoption.symm.trans ho)
    decide +kernel
  · intro _ t ht _ i
    have hroutes : ∀ t ∈ start.fxTracks, routeTarget t.track.routeDestinationId = .master := by
      decide +kernel
    rw [hroutes t ht]
    exact fun hkind => nomatch hkind

/-- A track added in the matrix gets no strip; a track that is removed leaves the route to it and the clip
on it behind. -/
theorem not_always_resolves_removed :
    ¬ Always step Resolves start [.addMatrixTrack] ∧
      ¬ Always step Resolves start
        [.setMode .openStudio, .addTrack, .setRoute (.studio 1) 2, .removeTrack] ∧
      ¬ Always step Resolves start [.setMode .openStudio, .dropClip 0, .removeTrack] := by
  refine ⟨fun h => ?_, fun h => ?_, fun h => ?_⟩
  · exact absurd h.final.strips (by decide +kernel)
  · have hrouted : ∃ t ∈ ([TrackEdit.setMode .openStudio, .addTrack, .setRoute (.studio 1) 2,
        .removeTrack].foldl step start).studioTracks,
        t.isMaster = false ∧ t.track.routeDestinationId = 2 := by decide +kernel
    obtain ⟨t, ht, hflag, hroute⟩ := hrouted
    obtain ⟨n, _, hnamed, _⟩ := h.final.studio t ht hflag
    rw [hroute] at hnamed
    exact absurd (Option.isSome_iff_exists.mpr ⟨n, hnamed⟩) (by decide +kernel)
  · have hclip : ∃ clip ∈ ([TrackEdit.setMode .openStudio, .dropClip 0, .removeTrack].foldl step
        start).clips, clip.row = 1 := by decide +kernel
    obtain ⟨clip, hclip, hrow⟩ := hclip
    obtain ⟨t, ht, _⟩ := h.final.clips clip hclip
    rw [hrow] at ht
    exact absurd (Option.isSome_iff_exists.mpr ⟨t, ht⟩) (by decide +kernel)

end RoutingState

end HikaruOpenLive.Gui
