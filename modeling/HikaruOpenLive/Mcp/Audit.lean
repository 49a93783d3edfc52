import HikaruOpenLive.Gui.SampleFiles
import HikaruOpenLive.Gui.TrackRoutes

/-! # The project audit of the MCP server

`audit` looks in a document for samples that are not on disk, plugins that the host does not have, and
routes to a track that does not exist. It reads a route as the id of a track, where the mixer reads it
as a place in the list or a return strip, and it asks the disk for the paths as they are written.

`agrees_iff` says for which documents and files it says what the application makes of the document.
-/
set_option autoImplicit false

namespace HikaruOpenLive.Mcp

open Gui

inductive LoadedProject where
  | openLive (path : String) (project : OpenLiveFile.Document)
  | openStudio (path : String) (project : OpenStudioFile.Document)

inductive Problem where
  | missingEvent (track scene : ℕ) (clip path : String)
  | missingClip (track : ℕ) (clip path : String)
  | missingPlugin (track slot path : String) (format : Option String)
  | invalidRoute (track : String) (destination : ℕ)
deriving DecidableEq

namespace Problem

def kind : Problem → String
  | .missingEvent _ _ _ _ => "recurso_faltante"
  | .missingClip _ _ _ => "recurso_faltante"
  | .missingPlugin _ _ _ _ => "plugin_no_encontrado"
  | .invalidRoute _ _ => "ruteo_invalido"

def severity : Problem → String
  | .invalidRoute _ _ => "aviso"
  | _ => "error"

def detail : Problem → String
  | .missingEvent _ _ _ _ => "el sample referenciado no existe en disco"
  | .missingClip _ _ _ => "el sample referenciado no existe en disco"
  | .missingPlugin _ _ _ _ => "el proyecto pide este plugin y el host no lo tiene"
  | .invalidRoute _ _ => "la pista rutea a un destino que no existe en el proyecto"

/-- The track and the destination of a route reported. -/
def route : Problem → Option (String × ℕ)
  | .invalidRoute track destination => some (track, destination)
  | _ => none

end Problem

structure Report where
  format : String
  file : String
  problems : List Problem
  total : ℕ

/-- A problem found under a condition. -/
def problemIf (c : Prop) [Decidable c] (p : Problem) : List Problem :=
  if c then [p] else []

section

variable (onDisk : String → Bool) (known : List String)

def auditPad (track scene : ℕ) (clip : OpenLiveFile.Clip) : List Problem :=
  clip.events.flatMap fun e =>
    problemIf (e.sourcePath ≠ "" ∧ onDisk e.sourcePath = false)
      (.missingEvent track scene clip.name e.sourcePath)

def auditPlaylistClip (track : ℕ) (clip : OpenStudioFile.PlaylistClipSaved) : List Problem :=
  match clip.kind with
  | .audio path _ _ => problemIf (path ≠ "" ∧ onDisk path = false) (.missingClip track clip.name path)
  | _ => []

def auditSlot (track : String) (slot : ProjectFile.DspSlot) : List Problem :=
  match slot.pluginPath with
  | none => []
  | some path => problemIf (path ∉ known) (.missingPlugin track slot.name path slot.pluginFormat)

def auditPlugins (tracks : List ProjectFile.Track) : List Problem :=
  tracks.flatMap fun t => t.effects.flatMap (auditSlot known t.name)

def hasId (tracks : List ProjectFile.Track) (id : ℕ) : Bool :=
  tracks.any fun t => t.id == id

def auditRoute (tracks : List ProjectFile.Track) (t : ProjectFile.Track) : List Problem :=
  problemIf (t.isMaster = false ∧ hasId tracks t.routeDestinationId = false)
    (.invalidRoute t.name t.routeDestinationId)

def LoadedProject.problems : LoadedProject → List Problem
  | .openLive _ project =>
    (project.matrix.grid.zipIdx.flatMap fun row => row.1.zipIdx.flatMap fun slot =>
      slot.1.toList.flatMap (auditPad onDisk row.2 slot.2)) ++
    auditPlugins known project.liveTracks ++
    project.liveTracks.flatMap (auditRoute project.liveTracks)
  | .openStudio _ project =>
    (project.playlist.clips.flatMap fun x => auditPlaylistClip onDisk x.1 x.2) ++
    auditPlugins known project.studioTracks

def LoadedProject.audit (p : LoadedProject) : Report :=
  match p with
  | .openLive path _ => ⟨"openlive", path, p.problems onDisk known, (p.problems onDisk known).length⟩
  | .openStudio path _ => ⟨"openstudio", path, p.problems onDisk known, (p.problems onDisk known).length⟩

end

/-! ## What the application makes of a document -/

/-- There is a strip for a destination, with so many in the list and so many return strips. -/
def targetExists (strips returns : ℕ) : RouteTarget → Bool
  | .master => true
  | .strip i => decide (i < strips)
  | .fx n => decide (n < returns)

/-- The route of a track resolves to no strip. -/
def isDangling (strips returns : ℕ) (t : ProjectFile.Track) : Bool :=
  !t.isMaster && !targetExists strips returns (routeTarget t.routeDestinationId)

namespace LoadedProject

def tracks : LoadedProject → List ProjectFile.Track
  | .openLive _ project => project.liveTracks
  | .openStudio _ project => project.studioTracks

/-- The sample files that opening the document reads. -/
def samplePaths (strips : ℕ) (baseDir : Option String) : LoadedProject → List String
  | .openLive _ project => project.samplePaths baseDir
  | .openStudio _ project => project.samplePaths strips baseDir

end LoadedProject

/-- The audit says of a document what the application makes of it: the routes it reports are those that
resolve to no strip, and if it reports no missing resource then every sample that is opened exists. -/
structure Agrees (returns strips : ℕ) (baseDir : Option String) (onDisk : String → Bool)
    (known : List String) (p : LoadedProject) : Prop where
  routes : (p.audit onDisk known).problems.filterMap Problem.route =
    (p.tracks.filter (isDangling p.tracks.length returns)).map fun t => (t.name, t.routeDestinationId)
  samples : (∀ problem ∈ (p.audit onDisk known).problems, problem.kind ≠ "recurso_faltante") →
    ∀ path ∈ p.samplePaths strips baseDir, onDisk path = true

/-! ## What the audit looks at -/

def checkedSample : OpenStudioFile.ClipKind → List String
  | .audio path _ _ => [path].filter (· ≠ "")
  | _ => []

/-- The paths that the audit looks for on the disk. -/
def LoadedProject.checkedPaths : LoadedProject → List String
  | .openLive _ project =>
    project.matrix.grid.flatMap fun row => row.flatMap fun slot => slot.toList.flatMap fun clip =>
      (clip.events.map OpenLiveFile.Event.sourcePath).filter (· ≠ "")
  | .openStudio _ project =>
    project.playlist.clips.flatMap fun x => checkedSample x.2.kind

/-- The tracks whose route the audit reports. -/
def LoadedProject.reportsRoute (p : LoadedProject) (t : ProjectFile.Track) : Bool :=
  match p with
  | .openLive _ project => !t.isMaster && !hasId project.liveTracks t.routeDestinationId
  | .openStudio _ _ => false

section

variable {onDisk : String → Bool} {known : List String}

theorem mem_problemIf {c : Prop} [Decidable c] {p q : Problem} : q ∈ problemIf c p ↔ c ∧ q = p := by
  unfold problemIf
  split
  case isTrue hc => rw [List.mem_singleton, and_iff_right hc]
  case isFalse hc => exact iff_of_false List.not_mem_nil fun h => hc h.1

theorem kind_auditPlugins {tracks : List ProjectFile.Track} {problem : Problem}
    (h : problem ∈ auditPlugins known tracks) :
    problem.kind ≠ "recurso_faltante" ∧ problem.route = none := by
  obtain ⟨t, -, h⟩ := List.mem_flatMap.mp h
  obtain ⟨slot, -, h⟩ := List.mem_flatMap.mp h
  unfold auditSlot at h
  split at h
  · exact nomatch h
  · obtain ⟨-, rfl⟩ := mem_problemIf.mp h
    refine ⟨?_, rfl⟩
    show "plugin_no_encontrado" ≠ "recurso_faltante"
    decide

theorem route_auditPad {track scene : ℕ} {clip : OpenLiveFile.Clip} {problem : Problem}
    (h : problem ∈ auditPad onDisk track scene clip) : problem.route = none := by
  obtain ⟨e, -, h⟩ := List.mem_flatMap.mp h
  obtain ⟨-, rfl⟩ := mem_problemIf.mp h
  rfl

theorem route_auditPlaylistClip {track : ℕ} {clip : OpenStudioFile.PlaylistClipSaved}
    {problem : Problem} (h : problem ∈ auditPlaylistClip onDisk track clip) : problem.route = none := by
  unfold auditPlaylistClip at h
  split at h
  · obtain ⟨-, rfl⟩ := mem_problemIf.mp h
    rfl
  · exact nomatch h

theorem filterMap_auditRoute (all tracks : List ProjectFile.Track) :
    (tracks.flatMap (auditRoute all)).filterMap Problem.route =
      (tracks.filter fun t => !t.isMaster && !hasId all t.routeDestinationId).map fun t =>
        (t.name, t.routeDestinationId) := by
  induction tracks with
  | nil => rfl
  | cons t tracks ih =>
    rw [List.flatMap_cons, List.filterMap_append, ih, List.filter_cons]
    unfold auditRoute problemIf
    by_cases h : t.isMaster = false ∧ hasId all t.routeDestinationId = false
    · rw [if_pos h, h.1, h.2]
      rfl
    · have hno : (!t.isMaster && !hasId all t.routeDestinationId) = false := by
        simpa [not_and, Bool.not_eq_false] using h
      rw [if_neg h, hno]
      rfl

theorem filterMap_route (p : LoadedProject) :
    (p.audit onDisk known).problems.filterMap Problem.route =
      (p.tracks.filter p.reportsRoute).map fun t => (t.name, t.routeDestinationId) := by
  have hplugins (tracks : List ProjectFile.Track) :
      (auditPlugins known tracks).filterMap Problem.route = [] :=
    List.filterMap_eq_nil_iff.mpr fun _ h => (kind_auditPlugins h).2
  cases p with
  | openLive path project =>
    have hpads : (project.matrix.grid.zipIdx.flatMap fun row => row.1.zipIdx.flatMap fun slot =>
        slot.1.toList.flatMap (auditPad onDisk row.2 slot.2)).filterMap Problem.route = [] := by
      refine List.filterMap_eq_nil_iff.mpr fun problem h => ?_
      obtain ⟨row, -, h⟩ := List.mem_flatMap.mp h
      obtain ⟨slot, -, h⟩ := List.mem_flatMap.mp h
      obtain ⟨clip, -, h⟩ := List.mem_flatMap.mp h
      exact route_auditPad h
    show List.filterMap Problem.route (_ ++ _ ++ _) = _
    rw [List.filterMap_append, List.filterMap_append, hpads, hplugins, filterMap_auditRoute]
    rfl
  | openStudio path project =>
    have hclips : (project.playlist.clips.flatMap fun x =>
        auditPlaylistClip onDisk x.1 x.2).filterMap Problem.route = [] := by
      refine List.filterMap_eq_nil_iff.mpr fun problem h => ?_
      obtain ⟨x, -, h⟩ := List.mem_flatMap.mp h
      exact route_auditPlaylistClip h
    show List.filterMap Problem.route (_ ++ _) = _
    rw [List.filterMap_append, hclips, hplugins]
    show [] = (project.studioTracks.filter fun _ => false).map _
    rw [List.filter_false]
    rfl

theorem silent_auditPlugins {tracks : List ProjectFile.Track} :
    ∀ problem ∈ auditPlugins known tracks, problem.kind ≠ "recurso_faltante" :=
  fun _ h => (kind_auditPlugins h).1

theorem silent_auditRoute {all tracks : List ProjectFile.Track} :
    ∀ problem ∈ tracks.flatMap (auditRoute all), problem.kind ≠ "recurso_faltante" := by
  intro problem h
  obtain ⟨t, -, h⟩ := List.mem_flatMap.mp h
  obtain ⟨-, rfl⟩ := mem_problemIf.mp h
  show "ruteo_invalido" ≠ "recurso_faltante"
  decide

theorem silent_auditPad_iff (track scene : ℕ) {clip : OpenLiveFile.Clip} :
    (∀ problem ∈ auditPad onDisk track scene clip, problem.kind ≠ "recurso_faltante") ↔
      ∀ path ∈ (clip.events.map OpenLiveFile.Event.sourcePath).filter (· ≠ ""), onDisk path = true := by
  simp only [List.mem_filter, List.mem_map, decide_eq_true_eq]
  constructor
  · rintro h path ⟨⟨e, he, rfl⟩, hpath⟩
    by_contra hmissing
    refine h _ (List.mem_flatMap.mpr ⟨e, he, mem_problemIf.mpr ⟨⟨hpath, ?_⟩, rfl⟩⟩) rfl
    exact eq_false_of_ne_true hmissing
  · intro h problem hproblem
    obtain ⟨e, he, hproblem⟩ := List.mem_flatMap.mp hproblem
    obtain ⟨⟨hpath, hmissing⟩, -⟩ := mem_problemIf.mp hproblem
    exact nomatch hmissing.symm.trans (h e.sourcePath ⟨⟨e, he, rfl⟩, hpath⟩)

theorem silent_auditPlaylistClip_iff {track : ℕ} {clip : OpenStudioFile.PlaylistClipSaved} :
    (∀ problem ∈ auditPlaylistClip onDisk track clip, problem.kind ≠ "recurso_faltante") ↔
      ∀ path ∈ checkedSample clip.kind, onDisk path = true := by
  unfold auditPlaylistClip checkedSample
  cases clip.kind with
  | pattern patternId => exact iff_of_true (fun _ h => nomatch h) fun _ h => nomatch h
  | automation points targetParam => exact iff_of_true (fun _ h => nomatch h) fun _ h => nomatch h
  | audio path offset total =>
    simp only [mem_problemIf, List.mem_filter, List.mem_singleton, decide_eq_true_eq]
    constructor
    · rintro h p ⟨rfl, hp⟩
      by_contra hmissing
      exact h _ ⟨⟨hp, eq_false_of_ne_true hmissing⟩, rfl⟩ rfl
    · rintro h problem ⟨⟨hp, hmissing⟩, -⟩
      exact nomatch hmissing.symm.trans (h path ⟨rfl, hp⟩)

/-- The audit reports no missing resource if and only if every path it looks for is there. -/
theorem silent_iff (known : List String) (p : LoadedProject) :
    (∀ problem ∈ (p.audit onDisk known).problems, problem.kind ≠ "recurso_faltante") ↔
      ∀ path ∈ p.checkedPaths, onDisk path = true := by
  cases p with
  | openLive path project =>
    show (∀ problem ∈ _ ++ _ ++ _, Problem.kind problem ≠ "recurso_faltante") ↔ _
    simp only [List.forall_mem_append, and_iff_left silent_auditPlugins, and_iff_left silent_auditRoute,
      LoadedProject.checkedPaths]
    constructor
    · intro h path hpath
      obtain ⟨row, hrow, hpath⟩ := List.mem_flatMap.mp hpath
      obtain ⟨slot, hslot, hpath⟩ := List.mem_flatMap.mp hpath
      obtain ⟨clip, hclip, hpath⟩ := List.mem_flatMap.mp hpath
      obtain ⟨i, hi⟩ := List.mem_iff_getElem?.mp hrow
      obtain ⟨j, hj⟩ := List.mem_iff_getElem?.mp hslot
      refine (silent_auditPad_iff i j).mp (fun problem hproblem => h problem ?_) path hpath
      · exact List.mem_flatMap.mpr ⟨(row, i), List.mk_mem_zipIdx_iff_getElem?.mpr hi,
          List.mem_flatMap.mpr ⟨(slot, j), List.mk_mem_zipIdx_iff_getElem?.mpr hj,
            List.mem_flatMap.mpr ⟨clip, hclip, hproblem⟩⟩⟩
    · intro h problem hproblem
      obtain ⟨row, hrow, hproblem⟩ := List.mem_flatMap.mp hproblem
      obtain ⟨slot, hslot, hproblem⟩ := List.mem_flatMap.mp hproblem
      obtain ⟨clip, hclip, hproblem⟩ := List.mem_flatMap.mp hproblem
      refine (silent_auditPad_iff row.2 slot.2).mpr (fun path hpath => h path ?_) problem hproblem
      exact List.mem_flatMap.mpr ⟨row.1, List.fst_mem_of_mem_zipIdx hrow,
        List.mem_flatMap.mpr ⟨slot.1, List.fst_mem_of_mem_zipIdx hslot,
          List.mem_flatMap.mpr ⟨clip, hclip, hpath⟩⟩⟩
  | openStudio path project =>
    show (∀ problem ∈ _ ++ _, Problem.kind problem ≠ "recurso_faltante") ↔ _
    simp only [List.forall_mem_append, and_iff_left silent_auditPlugins, LoadedProject.checkedPaths]
    simp only [List.forall_mem_flatMap, silent_auditPlaylistClip_iff]

end

/-! ## When the two agree -/

/-- The routes of the document name strips in the audit's reading as in the mixer's: in an OpenLive
document the destination of a track is the id of a track exactly if it resolves to a strip; in an
OpenStudio document, whose routes are not audited, it resolves to one. -/
def RoutesFollow (returns : ℕ) (p : LoadedProject) : Prop :=
  ∀ t ∈ p.tracks, t.isMaster = false →
    match p with
    | .openLive _ project =>
      hasId project.liveTracks t.routeDestinationId =
        targetExists project.liveTracks.length returns (routeTarget t.routeDestinationId)
    | .openStudio _ project =>
      targetExists project.studioTracks.length returns (routeTarget t.routeDestinationId) = true

section

variable (returns strips : ℕ) (baseDir : Option String) (known : List String) (p : LoadedProject)

/-- A live document whose ids count the tracks: the audit goes wrong on return strips alone. -/
theorem routesFollow_numbered_iff {path : String} {project : OpenLiveFile.Document}
    (hids : ∀ (i : ℕ) (t : ProjectFile.Track), project.liveTracks[i]? = some t → t.id = i)
    (hfew : project.liveTracks.length ≤ routeFxBase) :
    RoutesFollow returns (.openLive path project) ↔
      ∀ t ∈ project.liveTracks, t.isMaster = false → routeFxBase ≤ t.routeDestinationId →
        returns ≤ t.routeDestinationId - routeFxBase := by
  have hhas (id : ℕ) : hasId project.liveTracks id = decide (id < project.liveTracks.length) := by
    unfold hasId
    rw [Bool.eq_iff_iff, List.any_eq_true, decide_eq_true_iff]
    constructor
    · rintro ⟨t, ht, hid⟩
      obtain ⟨i, hi⟩ := List.mem_iff_getElem?.mp ht
      rw [← beq_iff_eq.mp hid, hids i t hi]
      exact (List.getElem?_eq_some_iff.mp hi).1
    · intro hid
      refine ⟨project.liveTracks[id], List.getElem_mem hid, beq_iff_eq.mpr ?_⟩
      exact hids id _ (List.getElem?_eq_getElem hid)
  refine forall₃_congr fun t ht _ => ?_
  have hpos : 0 < project.liveTracks.length := List.length_pos_of_mem ht
  show hasId project.liveTracks t.routeDestinationId =
    targetExists project.liveTracks.length returns (routeTarget t.routeDestinationId) ↔ _
  rw [hhas]
  unfold routeTarget
  by_cases hzero : t.routeDestinationId = 0
  · rw [if_pos hzero, hzero]
    refine iff_of_true (decide_eq_true hpos) fun hfx => ?_
    unfold routeFxBase at hfx
    omega
  · rw [if_neg hzero]
    by_cases hfx : routeFxBase ≤ t.routeDestinationId
    · rw [if_pos hfx, forall_prop_of_true hfx, decide_eq_false (by omega)]
      show false = decide (_ < returns) ↔ _
      rw [eq_comm, decide_eq_false_iff_not, not_lt]
    · rw [if_neg hfx]
      exact iff_of_true rfl fun h => absurd h hfx

theorem routes_iff (onDisk : String → Bool) :
    (p.audit onDisk known).problems.filterMap Problem.route =
        (p.tracks.filter (isDangling p.tracks.length returns)).map
          (fun t => (t.name, t.routeDestinationId)) ↔ RoutesFollow returns p := by
  have hdangling {t u : ProjectFile.Track} (hdest : t.routeDestinationId = u.routeDestinationId)
      (ht : t.isMaster = false) (hu : isDangling p.tracks.length returns u = true) :
      isDangling p.tracks.length returns t = true := by
    unfold isDangling at hu ⊢
    rw [ht, hdest]
    exact (Bool.and_eq_true_iff.mp hu).2
  rw [filterMap_route]
  cases p with
  | openLive path project =>
    rw [Foundations.ListEdits.map_filter_eq_iff]
    · refine forall₂_congr fun t ht => ?_
      unfold LoadedProject.reportsRoute isDangling
      cases t.isMaster with
      | true => exact iff_of_true rfl fun h => nomatch h
      | false => simp [LoadedProject.tracks]
    · intro t u hread ht hu
      obtain ⟨-, hdest⟩ := Prod.mk.inj hread
      exact hdangling hdest (by simpa using (Bool.and_eq_true_iff.mp ht).1) hu
    · intro t u hread ht hu
      obtain ⟨-, hdest⟩ := Prod.mk.inj hread
      unfold LoadedProject.reportsRoute at hu ⊢
      rw [hdest, (Bool.and_eq_true_iff.mp ht).1]
      exact (Bool.and_eq_true_iff.mp hu).2
  | openStudio path project =>
    rw [Foundations.ListEdits.map_filter_eq_iff]
    · refine forall₂_congr fun t ht => ?_
      unfold LoadedProject.reportsRoute isDangling
      cases t.isMaster with
      | true => exact iff_of_true rfl fun h => nomatch h
      | false => simp [LoadedProject.tracks]
    · exact fun t u _ ht _ => nomatch ht
    · exact fun t u _ _ hu => nomatch hu

/-- For given files the audit agrees with the application if and only if the routes read alike, and a
path it looks for is missing or every sample that it does not look for is there. For whatever files
there are, if and only if the routes read alike and it looks for every sample that is opened. -/
theorem agrees_iff :
    (∀ onDisk, Agrees returns strips baseDir onDisk known p ↔
      RoutesFollow returns p ∧
        ((∃ path ∈ p.checkedPaths, onDisk path = false) ∨
          ∀ path ∈ p.samplePaths strips baseDir, path ∉ p.checkedPaths → onDisk path = true)) ∧
    ((∀ onDisk, Agrees returns strips baseDir onDisk known p) ↔
      RoutesFollow returns p ∧ ∀ path ∈ p.samplePaths strips baseDir, path ∈ p.checkedPaths) := by
  have hsplit (onDisk : String → Bool) : Agrees returns strips baseDir onDisk known p ↔
      RoutesFollow returns p ∧ ((∀ path ∈ p.checkedPaths, onDisk path = true) →
        ∀ path ∈ p.samplePaths strips baseDir, onDisk path = true) := by
    rw [← routes_iff returns known p onDisk, ← silent_iff known p]
    exact ⟨fun h => ⟨h.routes, h.samples⟩, fun h => ⟨h.1, h.2⟩⟩
  constructor
  · intro onDisk
    rw [hsplit]
    refine and_congr_right fun _ => ?_
    by_cases hmissing : ∃ path ∈ p.checkedPaths, onDisk path = false
    · obtain ⟨path, hpath, hno⟩ := hmissing
      exact iff_of_true (fun h => nomatch hno.symm.trans (h path hpath))
        (Or.inl ⟨path, hpath, hno⟩)
    · have hthere : ∀ path ∈ p.checkedPaths, onDisk path = true := fun path hpath =>
        eq_true_of_ne_false fun hno => hmissing ⟨path, hpath, hno⟩
      rw [or_iff_right hmissing]
      constructor
      · exact fun h path hpath _ => h hthere path hpath
      · intro h _ path hpath
        by_cases hchecked : path ∈ p.checkedPaths
        · exact hthere path hchecked
        · exact h path hpath hchecked
  · simp only [hsplit]
    constructor
    · intro h
      refine ⟨(h fun _ => true).1, fun path hpath => ?_⟩
      -- the files there are are just those that are looked for
      have hthere := (h fun path => decide (path ∈ p.checkedPaths)).2
        (fun path hpath => decide_eq_true hpath) path hpath
      exact of_decide_eq_true hthere
    · rintro ⟨hroutes, hsub⟩ onDisk
      exact ⟨hroutes, fun hthere path hpath => hthere path (hsub path hpath)⟩

end

def masterTrack : ProjectFile.Track where
  id := 0
  name := "MASTER"
  volume := 3 / 4
  pan := 0
  panMode := 0
  mute := false
  solo := false
  arm := false
  isMaster := true
  routeDestinationId := 0
  sends := []
  effects := []
  matrixIdx := none

def trackRoutedTo (destination : ℕ) : ProjectFile.Track :=
  { masterTrack with
    id := 1, name := "TRACK 01", isMaster := false, routeDestinationId := destination
    matrixIdx := some 0 }

/-- A live document of one track and one scene. -/
def liveDocument (destination : ℕ) (clip : Option OpenLiveFile.Clip) : OpenLiveFile.Document where
  formatVersion := 1
  transport := ⟨120, (4, 4), "1/1", 0, 0, false⟩
  masterVolume := 3 / 4
  masterPan := 0
  liveTracks := [masterTrack, trackRoutedTo destination]
  matrix :=
    { tracks := [⟨"TRACK 01", false, false, 3 / 4, 0⟩], scenes := [⟨"Scene 1"⟩], grid := [[clip]]
      nextClipId := 2 }
  view := 0

def studioDocument (destination : ℕ) : OpenStudioFile.Document where
  formatVersion := 1
  transport := ⟨120, 4, 4, 0, 0, false⟩
  studioTracks := [masterTrack, trackRoutedTo destination]
  playlist := ⟨[], 960, 1, 0, 0, false⟩
  view := 0

/-- A file dropped on a pad, which has no events yet. -/
def kick : OpenLiveFile.Clip :=
  ⟨1, "kick.wav", "/samples/kick.wav", 0, 0, false, 3 / 4, 0, false, [], []⟩

/-- A track routed to FX 1 is reported in a live document, one routed to a track that there is not is
not in a studio document, and the missing file of a clip without events is not reported. -/
theorem not_agrees :
    ¬ Agrees 1 2 none (fun _ => true) [] (.openLive "song.oplf" (liveDocument 1000 none)) ∧
      ¬ Agrees 1 2 none (fun _ => true) [] (.openStudio "song.opsf" (studioDocument 7)) ∧
      ¬ Agrees 1 2 none (fun _ => false) [] (.openLive "song.oplf" (liveDocument 0 (some kick))) := by
  refine ⟨fun h => ?_, fun h => ?_, fun h => ?_⟩
  · have hfollow := (routes_iff 1 [] _ fun _ => true).mp h.routes
    exact absurd (hfollow (trackRoutedTo 1000) (List.mem_cons_of_mem _ List.mem_cons_self) rfl)
      (by decide)
  · have hfollow := (routes_iff 1 [] _ fun _ => true).mp h.routes
    exact absurd (hfollow (trackRoutedTo 7) (List.mem_cons_of_mem _ List.mem_cons_self) rfl) (by decide)
  · have hmissing := h.samples ((silent_iff [] _).mpr fun _ hpath => nomatch hpath) "/samples/kick.wav"
      (by decide)
    exact nomatch hmissing

end HikaruOpenLive.Mcp
