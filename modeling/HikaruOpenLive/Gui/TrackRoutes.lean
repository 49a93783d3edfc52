import HikaruOpenLive.Foundations.FrontMark
import HikaruOpenLive.Gui.AppState
import HikaruOpenLive.Gui.MixerSync

/-! # Routes between strips

A strip names the strip it is routed to by a number: 0 is the master, a number below 1000 a place in its own
list, and the numbers from there on are the return strips. Nothing in the strip says which one was meant, so
here a strip carries besides a mark that no other has, and what its route named when it was chosen.
-/
set_option autoImplicit false

namespace HikaruOpenLive.Gui

open Foundations.FrontMark

inductive RouteTarget where
  | master
  | strip (i : ℕ)
  | fx (n : ℕ)
deriving DecidableEq

def routeFxBase : ℕ :=
  1000

/-- What a destination stands for. -/
def routeTarget (id : ℕ) : RouteTarget :=
  if id = 0 then .master else if routeFxBase ≤ id then .fx (id - routeFxBase) else .strip id

def routeDestLabel (id : ℕ) (isMaster : Bool) (trackNames : List String) : String :=
  if isMaster then "Out 1/2"
  else if id = 0 then "Master"
  else if routeFxBase ≤ id then "FX " ++ toString (id - routeFxBase + 1)
  else trackNames[id]?.getD ("Track " ++ toString id)

/-- A strip that a route names. The master is the same for the return strips in both modes. -/
inductive Named where
  | master
  | strip (mark : ℕ)
deriving DecidableEq

structure RoutedTrack where
  track : MixerTrack
  mark : ℕ
  meant : Option Named
deriving DecidableEq

namespace RoutedTrack

def isMaster (t : RoutedTrack) : Bool :=
  t.track.isMaster

/-- What no choice of a route changes. -/
def core (t : RoutedTrack) : ℕ × Bool :=
  (t.mark, t.isMaster)

def withRoute (dest : ℕ) (meant : Option Named) (t : RoutedTrack) : RoutedTrack :=
  { t with track := { t.track with routeDestinationId := dest }, meant := meant }

end RoutedTrack

section

variable (tracks fx : List RoutedTrack)

def RouteTarget.named : RouteTarget → Option Named
  | .master => if tracks.any RoutedTrack.isMaster then some .master else none
  | .strip i => tracks[i]?.map fun t => .strip t.mark
  | .fx n => fx[n]?.map fun t => .strip t.mark

/-- The route of a strip names the strip that was meant, and not the strip itself. -/
def RoutedTrack.Resolves (t : RoutedTrack) : Prop :=
  ∃ n, t.meant = some n ∧ (routeTarget t.track.routeDestinationId).named tracks fx = some n ∧
    n ≠ .strip t.mark

/-- Strips of whom all but masters are asked to resolve. -/
def AllResolve (strips : List RoutedTrack) : Prop :=
  ∀ t ∈ strips, t.isMaster = false → t.Resolves tracks fx

/-- A master in front and none behind. -/
def OneMaster (strips : List RoutedTrack) : Prop :=
  strips.head?.any RoutedTrack.isMaster = true ∧ ∀ t ∈ strips.tail, t.isMaster = false

end

variable {tracks tracks' fx fx' strips : List RoutedTrack}

theorem oneMaster_iff : OneMaster strips ↔ FrontOnly RoutedTrack.isMaster strips := by
  cases strips with
  | nil => exact iff_of_false (fun h => absurd h.1 (by simp)) not_frontOnly_nil
  | cons master rest => rw [frontOnly_cons, OneMaster, List.head?_cons, Option.any_some, List.tail_cons]

theorem OneMaster.exists_cons (h : OneMaster strips) :
    ∃ master rest, strips = master :: rest ∧ master.isMaster = true ∧ ∀ t ∈ rest, t.isMaster = false :=
  oneMaster_iff.mp h

theorem OneMaster.any (h : OneMaster strips) : strips.any RoutedTrack.isMaster = true :=
  (oneMaster_iff.mp h).any

/-- Whoever looks only at marks and masters sees the same in both lists. -/
theorem RouteTarget.named_congr (htracks : tracks'.map RoutedTrack.core = tracks.map RoutedTrack.core)
    (hfx : fx'.map RoutedTrack.core = fx.map RoutedTrack.core) (target : RouteTarget) :
    target.named tracks' fx' = target.named tracks fx := by
  have hmarks {l l' : List RoutedTrack} (h : l'.map RoutedTrack.core = l.map RoutedTrack.core) (i : ℕ) :
      l'[i]?.map (fun t => Named.strip t.mark) = l[i]?.map fun t => Named.strip t.mark := by
    have hi := congrArg (fun cs : List (ℕ × Bool) => cs[i]?.map fun c => Named.strip c.1) h
    simp only [List.getElem?_map, Option.map_map] at hi
    exact hi
  cases target with
  | master =>
    have hany := congrArg (fun cs : List (ℕ × Bool) => cs.any Prod.snd) htracks
    simp only [List.any_map] at hany
    show (if tracks'.any RoutedTrack.isMaster = true then _ else _) = _
    rw [show tracks'.any RoutedTrack.isMaster = tracks.any RoutedTrack.isMaster from hany]
    rfl
  | strip i => exact hmarks htracks i
  | fx n => exact hmarks hfx n

theorem OneMaster.congr (h : OneMaster strips) {strips' : List RoutedTrack}
    (hcore : strips'.map RoutedTrack.core = strips.map RoutedTrack.core) : OneMaster strips' := by
  have hflags : strips'.map RoutedTrack.isMaster = strips.map RoutedTrack.isMaster := by
    have h := congrArg (List.map Prod.snd) hcore
    simp only [List.map_map] at h
    exact h
  exact oneMaster_iff.mpr ((frontOnly_congr hflags).mpr (oneMaster_iff.mp h))

theorem allResolve_congr (htracks : tracks'.map RoutedTrack.core = tracks.map RoutedTrack.core)
    (hfx : fx'.map RoutedTrack.core = fx.map RoutedTrack.core) (strips : List RoutedTrack) :
    AllResolve tracks' fx' strips ↔ AllResolve tracks fx strips := by
  unfold AllResolve RoutedTrack.Resolves
  simp only [RouteTarget.named_congr htracks hfx]

/-! ## A strip added or taken away at the end -/

theorem named_append {target : RouteTarget} {n : Named} (h : target.named tracks fx = some n)
    (t : RoutedTrack) : target.named (tracks ++ [t]) fx = some n := by
  cases target with
  | master =>
    obtain ⟨hany, hn⟩ : tracks.any RoutedTrack.isMaster = true ∧ Named.master = n := by
      simpa [RouteTarget.named] using h
    show (if (tracks ++ [t]).any RoutedTrack.isMaster = true then some Named.master else none) = some n
    rw [List.any_append, hany, Bool.true_or, if_pos rfl, hn]
  | strip i =>
    obtain ⟨u, hu, rfl⟩ := Option.map_eq_some_iff.mp h
    have hi := Foundations.ListEdits.lt_of_getElem? hu
    show (tracks ++ [t])[i]?.map _ = _
    rw [List.getElem?_append_left hi, hu]
    rfl
  | fx k => exact h

theorem AllResolve.append (h : AllResolve tracks fx strips) (t : RoutedTrack) :
    AllResolve (tracks ++ [t]) fx strips := by
  intro u hu hmaster
  obtain ⟨n, hmeant, hnamed, hself⟩ := h u hu hmaster
  exact ⟨n, hmeant, named_append hnamed t, hself⟩

/-- Without the last strip a route names what it named, unless that was the last strip. -/
theorem named_dropLast_iff (hmaster : OneMaster tracks) (hlong : 1 < tracks.length) {target : RouteTarget}
    {n : Named} (h : target.named tracks fx = some n) :
    target.named tracks.dropLast fx = some n ↔ target ≠ .strip (tracks.length - 1) := by
  cases target with
  | master =>
    refine iff_of_true ?_ (fun hkind => nomatch hkind)
    obtain ⟨master, rest, rfl, hflag, _⟩ := hmaster.exists_cons
    have hrest : rest ≠ [] := by
      rintro rfl
      exact absurd hlong (by simp)
    rw [List.dropLast_cons_of_ne_nil hrest]
    have hn : some Named.master = some n := by
      rw [← h]
      show _ = if (master :: rest).any RoutedTrack.isMaster = true then _ else _
      rw [List.any_cons, hflag, Bool.true_or, if_pos rfl]
    show (if (master :: rest.dropLast).any RoutedTrack.isMaster = true then _ else _) = _
    rw [List.any_cons, hflag, Bool.true_or, if_pos rfl]
    exact hn
  | strip i =>
    obtain ⟨u, hu, rfl⟩ := Option.map_eq_some_iff.mp h
    have hi := Foundations.ListEdits.lt_of_getElem? hu
    constructor
    · rintro hkept hkind
      obtain rfl : i = tracks.length - 1 := RouteTarget.strip.inj hkind
      obtain ⟨v, hv, _⟩ := Option.map_eq_some_iff.mp hkept
      have hshort := Foundations.ListEdits.lt_of_getElem? hv
      rw [List.length_dropLast] at hshort
      omega
    · intro hkind
      have hne : i ≠ tracks.length - 1 := fun hlast => hkind (by rw [hlast])
      show tracks.dropLast[i]?.map _ = _
      rw [List.dropLast_eq_take, List.getElem?_take_of_lt (by omega), hu]
      rfl
  | fx k => exact iff_of_true h (fun hkind => nomatch hkind)

/-- The strips that stay resolve without the last one if and only if none of them is routed to it. -/
theorem AllResolve.dropLast_iff (h : AllResolve tracks fx strips) (hmaster : OneMaster tracks)
    (hlong : 1 < tracks.length) :
    AllResolve tracks.dropLast fx strips ↔
      ∀ t ∈ strips, t.isMaster = false →
        routeTarget t.track.routeDestinationId ≠ .strip (tracks.length - 1) := by
  refine forall_congr' fun t => forall_congr' fun ht => forall_congr' fun hflag => ?_
  obtain ⟨n, hmeant, hnamed, hself⟩ := h t ht hflag
  rw [← named_dropLast_iff hmaster hlong hnamed]
  constructor
  · rintro ⟨n', hmeant', hnamed', _⟩
    obtain rfl := Option.some.inj (hmeant.symm.trans hmeant')
    exact hnamed'
  · intro hkept
    exact ⟨n, hmeant, hkept, hself⟩

/-! ## A strip routed elsewhere -/

/-- With one strip routed elsewhere the strips resolve if and only if that one does. -/
theorem AllResolve.route_iff (h : AllResolve tracks fx strips) (i dest : ℕ) (meant : Option Named) :
    AllResolve tracks fx (strips.modify i (RoutedTrack.withRoute dest meant)) ↔
      ∀ t, strips[i]? = some t → t.isMaster = false → (t.withRoute dest meant).Resolves tracks fx := by
  constructor
  · intro hall t ht hmaster
    have hmem : t.withRoute dest meant ∈ strips.modify i (RoutedTrack.withRoute dest meant) :=
      List.mem_of_getElem? (i := i) (by rw [List.getElem?_modify_eq, ht]; rfl)
    exact hall _ hmem hmaster
  · intro hone u hu hmaster
    obtain ⟨j, hj⟩ := List.mem_iff_getElem?.mp hu
    rw [List.getElem?_modify] at hj
    obtain ⟨t, ht, htu⟩ := Option.map_eq_some_iff.mp hj
    split at htu
    case isTrue hij =>
      subst hij htu
      exact hone t ht hmaster
    case isFalse =>
      subst htu
      exact h t (List.mem_of_getElem? ht) hmaster

/-- The master may be routed anywhere. -/
theorem AllResolve.route_master (h : AllResolve tracks fx strips) (hmaster : OneMaster strips) (dest : ℕ)
    (meant : Option Named) :
    AllResolve tracks fx (strips.modify 0 (RoutedTrack.withRoute dest meant)) := by
  refine (h.route_iff 0 dest meant).mpr fun t ht hflag => ?_
  obtain ⟨master, rest, rfl, hfirst, _⟩ := hmaster.exists_cons
  obtain rfl := Option.some.inj ht
  exact absurd hfirst (by rw [hflag]; decide)

/-- A strip resolves on a new route if and only if its number stands for what it was offered as, which is
there. -/
theorem resolves_withRoute_iff {t : RoutedTrack} {dest : ℕ} {kind : RouteTarget}
    (hother : kind.named tracks fx ≠ some (.strip t.mark))
    (hdest : ∀ n, kind.named tracks fx = some n → (routeTarget dest).named tracks fx = some n →
      routeTarget dest = kind) :
    (t.withRoute dest (kind.named tracks fx)).Resolves tracks fx ↔
      routeTarget dest = kind ∧ (kind.named tracks fx).isSome := by
  constructor
  · rintro ⟨n, hmeant, hnamed, _⟩
    exact ⟨hdest n hmeant hnamed, Option.isSome_iff_exists.mpr ⟨n, hmeant⟩⟩
  · rintro ⟨hkind, hsome⟩
    obtain ⟨n, hn⟩ := Option.isSome_iff_exists.mp hsome
    refine ⟨n, hn, ?_, fun hself => hother (hself ▸ hn)⟩
    show (routeTarget dest).named tracks fx = some n
    rw [hkind, hn]

end HikaruOpenLive.Gui
