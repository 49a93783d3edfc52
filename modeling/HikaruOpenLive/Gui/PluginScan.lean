import Mathlib.Data.List.Perm.Basic
import HikaruOpenLive.Foundations.FileTrees
import HikaruOpenLive.Gui.PluginIds
import HikaruOpenLive.Gui.ProjectPaths

/-! # The scan for plugins

The scan walks the directories below each root, to a depth. A directory named as a bundle is a VST3
plugin when it has a binary, and a loose binary is a CLAP plugin; on its way down the walk remembers
whether it has come through a bundle, whose binary is not a plugin of its own. What was found from one
root is not listed again from another.

A root is given as it was spelled, with the place in the tree that it leads to. There are no links, and
every name is text.
-/
set_option autoImplicit false

namespace HikaruOpenLive.Gui.PluginScan

open Engine Foundations.FileTrees Foundations.Lowercase

/-! ## Paths of candidates -/

structure PathBuf where
  text : List Char
  place : Path
deriving DecidableEq

namespace PathBuf

def join (dir : PathBuf) (name : Name) : PathBuf where
  text := if dir.text.getLast?.all (· == '/') then dir.text ++ name else dir.text ++ '/' :: name
  place := name :: dir.place

def display (path : PathBuf) : String :=
  String.ofList path.text

def canonicalize (path : PathBuf) : Option PathBuf :=
  some ⟨absolute path.place, path.place⟩

def fileStem (path : Path) : Option Name :=
  path.head?.map fun name => (stemAndExtension name).1

end PathBuf

structure Candidate where
  path : PathBuf
  format : PluginFormat
deriving DecidableEq

structure PluginScanError where
  path : PathBuf
  reason : String
deriving DecidableEq

structure ScanReport where
  plugins : List PluginDescriptor
  errors : List PluginScanError

abbrev Finding := Except PluginScanError Candidate

def Candidate.id (c : Candidate) : String :=
  descriptorId PathBuf.display PathBuf.canonicalize c.format c.path

/-! ## The walk -/

def maxScanDepth : ℕ := 3

def isBundleName (name : Name) : Bool :=
  ['.', 'v', 's', 't', '3'].isSuffixOf name

def isSharedObject (name : Name) : Bool :=
  (stemAndExtension name).2 == some ['s', 'o']

/-- A loose file with one of these extensions is taken for a CLAP plugin. -/
def isClapName (name : Name) : Bool :=
  (stemAndExtension name).2 == some ['s', 'o'] || (stemAndExtension name).2 == some ['c', 'l', 'a', 'p']

def contents : Name := ['C', 'o', 'n', 't', 'e', 'n', 't', 's']

section

variable (tree : FileTree)

/-- The first binary in the directory of one architecture. -/
def archBinary (dirPath : Path) : Option Path :=
  if tree.kind dirPath = some .dir then
    (tree.readDir dirPath).bind fun inner => (inner.find? isSharedObject).map (· :: dirPath)
  else none

/-- The first binary of the first architecture that has one. -/
def bundleBinary (bundle : Path) : Option Path :=
  (tree.readDir (contents :: bundle)).bind fun arch =>
    arch.findSome? fun dir => archBinary tree (dir :: contents :: bundle)

/-- What one entry of a directory gives, `deeper` being the walk of a directory below. -/
def visit (deeper : PathBuf → Bool → List Finding) (dir : PathBuf) (inVst3Bundle : Bool)
    (fileName : Name) : List Finding :=
  let path := dir.join fileName
  if tree.kind path.place = some .dir then
    let isVst3Bundle := isBundleName fileName
    (if isVst3Bundle then
      match bundleBinary tree path.place with
      | some _ => [.ok ⟨path, .vst3⟩]
      | none => [.error ⟨path, "bundle .vst3 sin binario dentro"⟩]
    else []) ++ deeper path (inVst3Bundle || isVst3Bundle)
  else if inVst3Bundle then []
  else if isClapName fileName then [.ok ⟨path, .clap⟩]
  else []

def walkEntries (deeper : PathBuf → Bool → List Finding) (dir : PathBuf) (inVst3Bundle : Bool) :
    List Finding :=
  match tree.readDir dir.place with
  | none => [.error ⟨dir, "read_dir: Not a directory (os error 20)"⟩]
  | some names => names.flatMap (visit tree deeper dir inVst3Bundle)

/-- The walk of a directory with so many levels left below it. -/
def walk : ℕ → PathBuf → Bool → List Finding
  | 0 => walkEntries tree fun _ _ => []
  | levels + 1 => walkEntries tree (walk levels)

def collectCandidates (root : PathBuf) : List Finding :=
  walk tree maxScanDepth root false

/-! ## The report -/

def bundleDisplayName (path : Path) : PluginFormat → Option Name
  | .clap => none
  | .vst3 =>
    if tree.kind path = some .dir then do
      let binary ← bundleBinary tree path
      let stem ← PathBuf.fileStem binary
      if stem = [] ∨ stem = ['P', 'l', 'u', 'g', 'i', 'n'] then none else some stem
    else none

def candidateName (c : Candidate) : String :=
  match bundleDisplayName tree c.path.place c.format with
  | some name => String.ofList name
  | none => ((PathBuf.fileStem c.path.place).map String.ofList).getD (formatName c.format)

def inspectCandidate (c : Candidate) : Except PluginScanError PluginDescriptor :=
  if tree.kind c.path.place = some (.file 0) then
    .error ⟨c.path, "archivo vacío (descarga interrumpida?)"⟩
  else .ok (scannedDescriptor PathBuf.display PathBuf.canonicalize (candidateName tree c) c.format c.path)

structure ScanState where
  seen : List String
  report : ScanReport

def takeCandidate (s : ScanState) (c : Candidate) : ScanState :=
  if c.id ∈ s.seen then s
  else
    match inspectCandidate tree c with
    | .ok descriptor =>
      ⟨s.seen ++ [descriptor.id], { s.report with plugins := s.report.plugins ++ [descriptor] }⟩
    | .error err => { s with report := { s.report with errors := s.report.errors ++ [err] } }

def candidates (findings : List Finding) : List Candidate :=
  findings.filterMap fun
    | .ok c => some c
    | .error _ => none

def findingErrors (findings : List Finding) : List PluginScanError :=
  findings.filterMap fun
    | .ok _ => none
    | .error e => some e

/-- A root that is not there is passed over. -/
def scanRoot (s : ScanState) (root : PathBuf) : ScanState :=
  if tree.kind root.place = none then s
  else
    let findings := collectCandidates tree root
    (candidates findings).foldl (takeCandidate tree)
      { s with report := { s.report with errors := s.report.errors ++ findingErrors findings } }

def menuOrder (tables : CharTables) (a b : PluginDescriptor) : Bool :=
  let nameA := tables.toLowercase a.name
  let nameB := tables.toLowercase b.name
  decide (nameA < nameB) || (decide (nameA = nameB) && decide (a.id ≤ b.id))

def scanPaths (tables : CharTables) (paths : List PathBuf) : ScanReport :=
  let s := paths.foldl (scanRoot tree) ⟨[], ⟨[], []⟩⟩
  { s.report with plugins := s.report.plugins.mergeSort (menuOrder tables) }

/-! ## What there is to find -/

/-- A binary under `Contents`, in the directory of an architecture. -/
def HasBinary (bundle : Path) : Prop :=
  ∃ arch file, tree.kind (arch :: contents :: bundle) = some .dir ∧
    (∃ k, tree.kind (file :: arch :: contents :: bundle) = some k) ∧ isSharedObject file = true

def IsBundle (path : Path) : Prop :=
  tree.kind path = some .dir ∧ (∃ name ∈ path.head?, isBundleName name = true) ∧ HasBinary tree path

def IsLoose (path : Path) : Prop :=
  (∃ len, tree.kind path = some (.file len)) ∧ ∃ name ∈ path.head?, isClapName name = true

/-- What the walk takes for a candidate of a format, if it gets there. -/
def CandidateAt (path : Path) : PluginFormat → Prop
  | .vst3 => IsBundle tree path
  | .clap => IsLoose tree path

end

/-! ## The candidates of a walk -/

section

variable {tree : FileTree}

theorem archBinary_isSome_iff (dirPath : Path) :
    (archBinary tree dirPath).isSome ↔ tree.kind dirPath = some .dir ∧
      ∃ file, (∃ k, tree.kind (file :: dirPath) = some k) ∧ isSharedObject file = true := by
  unfold archBinary
  by_cases hdir : tree.kind dirPath = some .dir
  · obtain ⟨names, hnames⟩ := FileTree.readDir_of_dir hdir
    simp [hdir, hnames, FileTree.mem_readDir hnames]
  · simp [hdir]

theorem bundleBinary_isSome_iff (bundle : Path) :
    (bundleBinary tree bundle).isSome ↔ HasBinary tree bundle := by
  have harch : ∀ arch, (archBinary tree (arch :: contents :: bundle)).isSome ↔ _ :=
    fun arch => archBinary_isSome_iff _
  unfold bundleBinary HasBinary
  cases hnames : tree.readDir (contents :: bundle) with
  | some names =>
    rw [Option.bind_some, List.findSome?_isSome_iff]
    constructor
    · rintro ⟨arch, -, hsome⟩
      obtain ⟨hdir, file, hfile⟩ := (harch arch).1 hsome
      exact ⟨arch, file, hdir, hfile⟩
    · rintro ⟨arch, file, hdir, hfile⟩
      exact ⟨arch, (FileTree.mem_readDir hnames).2 ⟨_, hdir⟩, (harch arch).2 ⟨hdir, file, hfile⟩⟩
  | none =>
    refine iff_of_false (by simp) ?_
    rintro ⟨arch, -, hdir, -⟩
    obtain ⟨names, hsome⟩ := FileTree.readDir_of_dir (FileTree.kind_parent hdir)
    rw [hnames] at hsome
    cases hsome

theorem join_place (dir : PathBuf) (name : Name) : (dir.join name).place = name :: dir.place :=
  rfl

theorem mem_visit_iff {deeper : PathBuf → Bool → List Finding} {dir : PathBuf} {inVst3Bundle : Bool}
    {name : Name} (hname : ∃ k, tree.kind (name :: dir.place) = some k) {c : Candidate} :
    .ok c ∈ visit tree deeper dir inVst3Bundle name ↔
      (c.path = dir.join name ∧ CandidateAt tree (name :: dir.place) c.format ∧
        (c.format = .clap → inVst3Bundle = false)) ∨
      (tree.kind (name :: dir.place) = some .dir ∧
        .ok c ∈ deeper (dir.join name) (inVst3Bundle || isBundleName name)) := by
  obtain ⟨path, format⟩ := c
  obtain ⟨k, hk⟩ := hname
  cases k with
  | dir =>
    have hbinary : (bundleBinary tree (name :: dir.place)).isSome ↔ _ := bundleBinary_isSome_iff _
    cases hfound : bundleBinary tree (name :: dir.place) with
    | none =>
      rw [hfound] at hbinary
      cases format <;> cases hbundle : isBundleName name <;>
        simp_all [visit, join_place, CandidateAt, IsBundle, IsLoose]
    | some binary =>
      rw [hfound] at hbinary
      cases format <;> cases hbundle : isBundleName name <;>
        simp_all [visit, join_place, CandidateAt, IsBundle, IsLoose]
  | file len =>
    cases format <;> cases inVst3Bundle <;> cases hclap : isClapName name <;>
      simp_all [visit, join_place, CandidateAt, IsBundle, IsLoose]

/-- There is a candidate at a place, however the way to it is spelled. -/
def Finds (findings : List Finding) (path : Path) (format : PluginFormat) : Prop :=
  ∃ text, .ok ⟨⟨text, path⟩, format⟩ ∈ findings

/-- A candidate at a place below `dir`, with at most so many levels in between. A CLAP plugin is not
found through a bundle. -/
def Reaches (tree : FileTree) (levels : ℕ) (dir : Path) (inVst3Bundle : Bool) (path : Path)
    (format : PluginFormat) : Prop :=
  ∃ name between, path = name :: (between ++ dir) ∧ between.length ≤ levels ∧
    CandidateAt tree path format ∧
      (format = .clap → inVst3Bundle = false ∧ ∀ dirName ∈ between, isBundleName dirName = false)

theorem kind_of_candidateAt {path : Path} {format : PluginFormat} (h : CandidateAt tree path format) :
    ∃ k, tree.kind path = some k := by
  cases format with
  | vst3 => exact ⟨_, h.1⟩
  | clap =>
    obtain ⟨⟨len, hlen⟩, -⟩ := h
    exact ⟨_, hlen⟩

theorem finds_walkEntries_iff {deeper : PathBuf → Bool → List Finding} {dir : PathBuf}
    {inVst3Bundle : Bool} {path : Path} {format : PluginFormat} :
    Finds (walkEntries tree deeper dir inVst3Bundle) path format ↔
      ∃ name, (path = name :: dir.place ∧ CandidateAt tree path format ∧
          (format = .clap → inVst3Bundle = false)) ∨
        (tree.kind (name :: dir.place) = some .dir ∧
          Finds (deeper (dir.join name) (inVst3Bundle || isBundleName name)) path format) := by
  unfold Finds walkEntries
  cases hnames : tree.readDir dir.place with
  | none =>
    -- Nothing lies in what is no directory.
    have hnone : ∀ name k, tree.kind (name :: dir.place) ≠ some k := by
      intro name k hk
      obtain ⟨names, hsome⟩ := FileTree.readDir_of_dir (FileTree.kind_parent hk)
      rw [hnames] at hsome
      cases hsome
    refine iff_of_false (by simp) ?_
    rintro ⟨name, ⟨rfl, hcandidate, -⟩ | ⟨hdir, -⟩⟩
    · obtain ⟨k, hk⟩ := kind_of_candidateAt hcandidate
      exact hnone name k hk
    · exact hnone name _ hdir
  | some names =>
    simp only [List.mem_flatMap]
    constructor
    · rintro ⟨text, name, hmem, hvisit⟩
      refine ⟨name, ?_⟩
      obtain ⟨hpath, hrest⟩ | hdeeper :=
        (mem_visit_iff ((FileTree.mem_readDir hnames).1 hmem)).1 hvisit
      · obtain rfl : path = name :: dir.place := congrArg PathBuf.place hpath
        exact .inl ⟨rfl, hrest⟩
      · exact .inr ⟨hdeeper.1, text, hdeeper.2⟩
    · rintro ⟨name, ⟨rfl, hcandidate, hflag⟩ | ⟨hdir, text, hmem⟩⟩
      · have hkind := kind_of_candidateAt hcandidate
        exact ⟨(dir.join name).text, name, (FileTree.mem_readDir hnames).2 hkind,
          (mem_visit_iff hkind).2 (.inl ⟨rfl, hcandidate, hflag⟩)⟩
      · exact ⟨text, name, (FileTree.mem_readDir hnames).2 ⟨_, hdir⟩,
          (mem_visit_iff ⟨_, hdir⟩).2 (.inr ⟨hdir, hmem⟩)⟩

/-- The first step of the way down: to the candidate itself, or into a directory. -/
theorem reaches_succ_iff {levels : ℕ} {dir : Path} {inVst3Bundle : Bool} {path : Path}
    {format : PluginFormat} :
    Reaches tree (levels + 1) dir inVst3Bundle path format ↔
      ∃ name, (path = name :: dir ∧ CandidateAt tree path format ∧
          (format = .clap → inVst3Bundle = false)) ∨
        (tree.kind (name :: dir) = some .dir ∧
          Reaches tree levels (name :: dir) (inVst3Bundle || isBundleName name) path format) := by
  constructor
  · rintro ⟨name, between, rfl, hlength, hcandidate, hflag⟩
    obtain rfl | ⟨init, first, rfl⟩ := List.eq_nil_or_concat' between
    · exact ⟨name, .inl ⟨rfl, hcandidate, fun h => (hflag h).1⟩⟩
    · refine ⟨first, .inr ⟨?_, name, init, by simp, by simpa using hlength, by simpa using hcandidate,
        fun h => ?_⟩⟩
      · obtain ⟨k, hk⟩ := kind_of_candidateAt hcandidate
        have hpath : name :: (init ++ [first] ++ dir) = (name :: init) ++ first :: dir := by simp
        rw [hpath] at hk
        exact FileTree.kind_below (List.cons_ne_nil _ _) hk
      · obtain ⟨hroot, hnames⟩ := hflag h
        simp only [List.mem_append, List.mem_singleton] at hnames
        exact ⟨by simp [hroot, hnames first (.inr rfl)], fun n hn => hnames n (.inl hn)⟩
  · rintro ⟨first, ⟨rfl, hcandidate, hflag⟩ | ⟨-, name, between, rfl, hlength, hcandidate, hflag⟩⟩
    · exact ⟨first, [], rfl, Nat.zero_le _, hcandidate, fun h => ⟨hflag h, by simp⟩⟩
    · refine ⟨name, between ++ [first], by simp, by simpa using hlength, hcandidate, fun h => ?_⟩
      obtain ⟨hboth, hnames⟩ := hflag h
      rw [Bool.or_eq_false_iff] at hboth
      refine ⟨hboth.1, fun n hn => ?_⟩
      rw [List.mem_append, List.mem_singleton] at hn
      obtain hn | rfl := hn
      · exact hnames n hn
      · exact hboth.2

theorem finds_walk_iff {levels : ℕ} {dir : PathBuf} {inVst3Bundle : Bool} {path : Path}
    {format : PluginFormat} :
    Finds (walk tree levels dir inVst3Bundle) path format ↔
      Reaches tree levels dir.place inVst3Bundle path format := by
  induction levels generalizing dir inVst3Bundle with
  | zero =>
    rw [walk, finds_walkEntries_iff]
    constructor
    · rintro ⟨name, ⟨rfl, hcandidate, hflag⟩ | ⟨-, text, hmem⟩⟩
      · exact ⟨name, [], rfl, Nat.zero_le _, hcandidate, fun h => ⟨hflag h, by simp⟩⟩
      · cases hmem
    · rintro ⟨name, between, rfl, hlength, hcandidate, hflag⟩
      obtain rfl := List.eq_nil_of_length_eq_zero (Nat.le_zero.1 hlength)
      exact ⟨name, .inl ⟨rfl, hcandidate, fun h => (hflag h).1⟩⟩
  | succ levels ih =>
    rw [walk, finds_walkEntries_iff, reaches_succ_iff]
    simp only [ih, join_place]

/-- Below a directory that can be read, what is reported as an error is a bundle without a binary. -/
def Barren (tree : FileTree) (path : Path) : Prop :=
  tree.kind path = some .dir ∧ ¬ HasBinary tree path

theorem error_of_visit {deeper : PathBuf → Bool → List Finding} {dir : PathBuf} {inVst3Bundle : Bool}
    {name : Name} {e : PluginScanError} (h : .error e ∈ visit tree deeper dir inVst3Bundle name) :
    Barren tree e.path.place ∨
      (tree.kind (name :: dir.place) = some .dir ∧
        .error e ∈ deeper (dir.join name) (inVst3Bundle || isBundleName name)) := by
  have hbinary : (bundleBinary tree (name :: dir.place)).isSome ↔ _ := bundleBinary_isSome_iff _
  by_cases hdir : tree.kind (name :: dir.place) = some .dir
  · simp only [visit, join_place, hdir, if_true, List.mem_append] at h
    obtain h | h := h
    · left
      cases hfound : bundleBinary tree (name :: dir.place) with
      | some binary => simp [hfound] at h
      | none =>
        rw [hfound] at hbinary
        have he : e.path = dir.join name := by
          cases hbundle : isBundleName name <;> simp [hbundle, hfound] at h
          rw [h]
        rw [he]
        exact ⟨hdir, fun hhas => by simpa using hbinary.2 hhas⟩
    · exact .inr ⟨hdir, h⟩
  · cases inVst3Bundle <;> cases hclap : isClapName name <;> simp [visit, join_place, hdir, hclap] at h

theorem error_of_walk {levels : ℕ} {dir : PathBuf} {inVst3Bundle : Bool} {e : PluginScanError}
    (hdir : tree.kind dir.place = some .dir) (h : .error e ∈ walk tree levels dir inVst3Bundle) :
    Barren tree e.path.place := by
  obtain ⟨names, hnames⟩ := FileTree.readDir_of_dir hdir
  induction levels generalizing dir inVst3Bundle names with
  | zero =>
    rw [walk, walkEntries, hnames] at h
    obtain ⟨name, -, hvisit⟩ := List.mem_flatMap.1 h
    obtain hbarren | ⟨-, hmem⟩ := error_of_visit hvisit
    · exact hbarren
    · cases hmem
  | succ levels ih =>
    rw [walk, walkEntries, hnames] at h
    obtain ⟨name, -, hvisit⟩ := List.mem_flatMap.1 h
    obtain hbarren | ⟨hbelow, hmem⟩ := error_of_visit hvisit
    · exact hbarren
    · obtain ⟨names', hnames'⟩ := FileTree.readDir_of_dir hbelow
      exact ih hbelow hmem names' hnames'

/-! ## The names of plugins -/

/-- The name under which a plugin at a place is listed, whichever way it was reached. -/
def placeId (format : PluginFormat) (path : Path) : String :=
  formatTag format ++ ":" ++ String.ofList (absolute path)

theorem Candidate.id_eq (c : Candidate) : c.id = placeId c.format c.path.place :=
  rfl

theorem placeId_injective {p q : Path} {f g : PluginFormat} (hp : ∀ name ∈ p, '/' ∉ name)
    (hq : ∀ name ∈ q, '/' ∉ name) (h : placeId f p = placeId g q) : f = g ∧ p = q := by
  have hlist := congrArg String.toList h
  cases f <;> cases g <;> simp [placeId, formatTag] at hlist
  · exact ⟨rfl, absolute_injective hp hq hlist⟩
  · exact ⟨rfl, absolute_injective hp hq hlist⟩

theorem slashless {path : Path} {k : EntryKind} (h : tree.kind path = some k) :
    ∀ name ∈ path, '/' ∉ name :=
  fun name hname => (FileTree.names_of_kind h name hname).2

/-! ## The report of a run over the roots -/

/-- Of the candidates that were met so far, each that is no empty file is listed, once by its name. -/
structure Covers (tree : FileTree) (met : List Candidate) (s : ScanState) : Prop where
  seen : s.seen = s.report.plugins.map PluginDescriptor.id
  distinct : s.seen.Nodup
  sound : ∀ d ∈ s.report.plugins, ∃ c ∈ met, tree.kind c.path.place ≠ some (.file 0) ∧
    d.format = c.format ∧ d.id = c.id
  complete : ∀ c ∈ met, tree.kind c.path.place ≠ some (.file 0) → c.id ∈ s.seen
  errors : ∀ e ∈ s.report.errors, Barren tree e.path.place ∨ tree.kind e.path.place = some (.file 0)

namespace Covers

variable {met : List Candidate} {s : ScanState}

theorem complete_concat {seen : List String} {c : Candidate}
    (hmet : ∀ c' ∈ met, tree.kind c'.path.place ≠ some (.file 0) → c'.id ∈ seen)
    (hc : tree.kind c.path.place ≠ some (.file 0) → c.id ∈ seen) :
    ∀ c' ∈ met ++ [c], tree.kind c'.path.place ≠ some (.file 0) → c'.id ∈ seen := by
  intro c' hc'
  obtain hc' | hc' := List.mem_append.1 hc'
  · exact hmet c' hc'
  · obtain rfl := List.mem_singleton.1 hc'
    exact hc

/-- A candidate is passed over when its name was seen, and otherwise listed, unless its file is empty. -/
theorem take (h : Covers tree met s) (c : Candidate) :
    Covers tree (met ++ [c]) (takeCandidate tree s c) := by
  have hsound : ∀ d ∈ s.report.plugins, ∃ c' ∈ met ++ [c], tree.kind c'.path.place ≠ some (.file 0) ∧
      d.format = c'.format ∧ d.id = c'.id := by
    intro d hd
    obtain ⟨c', hc', hrest⟩ := h.sound d hd
    exact ⟨c', List.mem_append_left _ hc', hrest⟩
  unfold takeCandidate
  split
  next hseen =>
    exact ⟨h.seen, h.distinct, hsound, complete_concat h.complete fun _ => hseen, h.errors⟩
  next hnew =>
    by_cases hempty : tree.kind c.path.place = some (.file 0)
    · rw [inspectCandidate, if_pos hempty]
      refine ⟨h.seen, h.distinct, hsound, complete_concat h.complete fun hfull => absurd hempty hfull, ?_⟩
      intro e he
      obtain he | he := List.mem_append.1 he
      · exact h.errors e he
      · obtain rfl := List.mem_singleton.1 he
        exact .inr hempty
    · rw [inspectCandidate, if_neg hempty]
      refine ⟨?_, ?_, ?_, ?_, h.errors⟩
      · simp [h.seen]
      · exact h.distinct.append (List.nodup_singleton _) (List.disjoint_singleton.2 hnew)
      · intro d hd
        obtain hd | hd := List.mem_append.1 hd
        · exact hsound d hd
        · obtain rfl := List.mem_singleton.1 hd
          exact ⟨c, by simp, hempty, rfl, rfl⟩
      · exact complete_concat (fun c' hc' hfull => List.mem_append_left _ (h.complete c' hc' hfull))
          fun _ => List.mem_append_right _ List.mem_cons_self

theorem takeAll (h : Covers tree met s) (cs : List Candidate) :
    Covers tree (met ++ cs) (cs.foldl (takeCandidate tree) s) := by
  induction cs generalizing met s with
  | nil => simpa using h
  | cons c cs ih => simpa using ih (h.take c)

theorem root (h : Covers tree met s) {r : PathBuf} (hr : tree.kind r.place = some .dir) :
    Covers tree (met ++ candidates (collectCandidates tree r)) (scanRoot tree s r) := by
  have hthere : tree.kind r.place ≠ none := by rw [hr]; simp
  rw [scanRoot, if_neg hthere]
  have hstart : Covers tree met ⟨s.seen, s.report.plugins,
      s.report.errors ++ findingErrors (collectCandidates tree r)⟩ := by
    refine ⟨h.seen, h.distinct, h.sound, h.complete, fun e he => ?_⟩
    obtain he | he := List.mem_append.1 he
    · exact h.errors e he
    · obtain ⟨finding, hfinding, hsome⟩ := List.mem_filterMap.1 he
      cases finding with
      | ok c => cases hsome
      | error e' =>
        obtain rfl := Option.some.inj hsome
        exact .inl (error_of_walk hr hfinding)
  exact hstart.takeAll _

theorem roots (h : Covers tree met s) {rs : List PathBuf} (hrs : ∀ r ∈ rs, tree.kind r.place = some .dir) :
    Covers tree (met ++ rs.flatMap fun r => candidates (collectCandidates tree r))
      (rs.foldl (scanRoot tree) s) := by
  induction rs generalizing met s with
  | nil => simpa using h
  | cons r rs ih =>
    rw [List.forall_mem_cons] at hrs
    simpa using ih (h.root hrs.1) hrs.2

end Covers

/-- How often the report lists what is at a place as a plugin of a format. -/
def ScanReport.listed (report : ScanReport) (format : PluginFormat) (path : Path) : ℕ :=
  (report.plugins.map fun d => (d.format, d.id)).count (format, placeId format path)

/-- What the scan of the roots is to list: a candidate in reach of a root that is no empty file. -/
def Wanted (tree : FileTree) (roots : List PathBuf) (format : PluginFormat) (path : Path) : Prop :=
  tree.kind path ≠ some (.file 0) ∧ ∃ r ∈ roots, Reaches tree maxScanDepth r.place false path format

theorem mem_candidates {findings : List Finding} {c : Candidate} :
    c ∈ candidates findings ↔ .ok c ∈ findings := by
  unfold candidates
  rw [List.mem_filterMap]
  constructor
  · rintro ⟨finding, hmem, hsome⟩
    cases finding with
    | ok c' =>
      obtain rfl := Option.some.inj hsome
      exact hmem
    | error e => cases hsome
  · exact fun hmem => ⟨_, hmem, rfl⟩

section

variable (tables : CharTables) {roots : List PathBuf}

theorem scanPaths_covers (hroots : ∀ r ∈ roots, tree.kind r.place = some .dir) :
    ∃ s, Covers tree (roots.flatMap fun r => candidates (collectCandidates tree r)) s ∧
      (scanPaths tree tables roots).plugins.Perm s.report.plugins ∧
        (scanPaths tree tables roots).errors = s.report.errors := by
  have hstart : Covers tree [] ⟨[], ⟨[], []⟩⟩ :=
    ⟨rfl, List.nodup_nil, by simp, by simp, by simp⟩
  refine ⟨_, by simpa using hstart.roots hroots, List.mergeSort_perm _ _, rfl⟩

theorem wanted_of_met {c : Candidate}
    (hc : c ∈ roots.flatMap fun r => candidates (collectCandidates tree r))
    (hfull : tree.kind c.path.place ≠ some (.file 0)) : Wanted tree roots c.format c.path.place := by
  obtain ⟨r, hr, hmem⟩ := List.mem_flatMap.1 hc
  exact ⟨hfull, r, hr, finds_walk_iff.1 ⟨c.path.text, mem_candidates.1 hmem⟩⟩

theorem Wanted.kind {format : PluginFormat} {path : Path} (h : Wanted tree roots format path) :
    ∃ k, tree.kind path = some k := by
  obtain ⟨-, r, -, name, between, -, -, hcandidate, -⟩ := h
  exact kind_of_candidateAt hcandidate

/-- What a plugin of the report is, from the place that its name tells. -/
theorem wanted_of_plugin (hroots : ∀ r ∈ roots, tree.kind r.place = some .dir) {d : PluginDescriptor}
    (hd : d ∈ (scanPaths tree tables roots).plugins) :
    ∃ path, d.id = placeId d.format path ∧ Wanted tree roots d.format path := by
  obtain ⟨s, hs, hperm, -⟩ := scanPaths_covers tables hroots
  obtain ⟨c, hc, hfull, hformat, hid⟩ := hs.sound d (hperm.mem_iff.1 hd)
  rw [hformat, hid]
  exact ⟨c.path.place, c.id_eq, wanted_of_met hc hfull⟩

theorem plugin_of_wanted (hroots : ∀ r ∈ roots, tree.kind r.place = some .dir) {format : PluginFormat}
    {path : Path} (h : Wanted tree roots format path) :
    ∃ d ∈ (scanPaths tree tables roots).plugins, d.format = format ∧ d.id = placeId format path := by
  obtain ⟨k, hk⟩ := h.kind
  obtain ⟨hfull, r, hr, hreaches⟩ := h
  obtain ⟨s, hs, hperm, -⟩ := scanPaths_covers tables hroots
  obtain ⟨text, hfound⟩ := finds_walk_iff.2 hreaches
  have hmem := hs.complete ⟨⟨text, path⟩, format⟩
    (List.mem_flatMap.2 ⟨r, hr, mem_candidates.2 hfound⟩) hfull
  rw [hs.seen] at hmem
  obtain ⟨d, hd, hid⟩ := List.mem_map.1 hmem
  have hd' := hperm.mem_iff.2 hd
  obtain ⟨path', hid', hwanted⟩ := wanted_of_plugin tables hroots hd'
  obtain ⟨k', hk'⟩ := hwanted.kind
  -- The plugin of that name is of the same format, since the name begins with it.
  have hsame : placeId d.format path' = placeId format path := hid'.symm.trans hid
  exact ⟨d, hd', (placeId_injective (slashless hk') (slashless hk) hsame).1, hid⟩

open Classical in
theorem listed_eq (hroots : ∀ r ∈ roots, tree.kind r.place = some .dir) (format : PluginFormat)
    {path : Path} {k : EntryKind} (hk : tree.kind path = some k) :
    (scanPaths tree tables roots).listed format path = if Wanted tree roots format path then 1 else 0 := by
  have hdistinct : ((scanPaths tree tables roots).plugins.map fun d => (d.format, d.id)).Nodup := by
    obtain ⟨s, hs, hperm, -⟩ := scanPaths_covers tables hroots
    refine List.Nodup.of_map Prod.snd ?_
    rw [List.map_map]
    exact (hperm.map _).nodup_iff.2 (hs.seen ▸ hs.distinct)
  have hmem : (format, placeId format path) ∈
      (scanPaths tree tables roots).plugins.map (fun d => (d.format, d.id)) ↔
        Wanted tree roots format path := by
    rw [List.mem_map]
    constructor
    · rintro ⟨d, hd, hpair⟩
      obtain ⟨path', hid, hwanted⟩ := wanted_of_plugin tables hroots hd
      obtain ⟨k', hk'⟩ := hwanted.kind
      obtain ⟨rfl, hid'⟩ := Prod.mk.inj hpair
      have hsame : placeId d.format path' = placeId d.format path := hid.symm.trans hid'
      obtain rfl := (placeId_injective (slashless hk') (slashless hk) hsame).2
      exact hwanted
    · intro hwanted
      obtain ⟨d, hd, hformat, hid⟩ := plugin_of_wanted tables hroots hwanted
      exact ⟨d, hd, by rw [hformat, hid]⟩
  rw [ScanReport.listed, hdistinct.count]
  simp only [hmem]

/-! ## When the scan is right -/

def InBundle (path : Path) : Prop :=
  ∃ dirName ∈ path.tail, isBundleName dirName = true

/-- A place below a root, within the depth that is walked. -/
def Below (roots : List PathBuf) (path : Path) : Prop :=
  ∃ r ∈ roots, ∃ name between, path = name :: (between ++ r.place) ∧ between.length ≤ maxScanDepth

def AtOrBelow (roots : List PathBuf) (path : Path) : Prop :=
  Below roots path ∨ ∃ r ∈ roots, r.place = path

/-- Each bundle and each loose file that is near the roots is listed once, as what it is; no file in a
bundle is listed as a plugin of its own, and what is listed is not reported as an error. -/
structure ScanRight (tree : FileTree) (near : Path → Prop) (report : ScanReport) : Prop where
  bundles : ∀ path, near path → IsBundle tree path → report.listed .vst3 path = 1
  loose : ∀ path, near path → IsLoose tree path → tree.kind path ≠ some (.file 0) → ¬ InBundle path →
    report.listed .clap path = 1
  inside : ∀ path len, tree.kind path = some (.file len) → InBundle path → report.listed .clap path = 0
  apart : ∀ d ∈ report.plugins, ∀ e ∈ report.errors, ∀ format, d.id ≠ placeId format e.path.place

/-- A root that is a bundle, or lies in one, has no loose file in reach that it would not have to pass
another bundle for. Empty files do no harm. -/
def Unexposed (tree : FileTree) (roots : List PathBuf) : Prop :=
  ∀ r ∈ roots, (∃ dirName ∈ r.place, isBundleName dirName = true) →
    ∀ name between, between.length ≤ maxScanDepth →
      (∀ dirName ∈ between, isBundleName dirName = false) →
        IsLoose tree (name :: (between ++ r.place)) →
          tree.kind (name :: (between ++ r.place)) = some (.file 0)

theorem IsBundle.full {path : Path} (h : IsBundle tree path) : tree.kind path ≠ some (.file 0) := by
  rw [h.1]
  simp

theorem wanted_bundle_iff {path : Path} :
    Wanted tree roots .vst3 path ↔ IsBundle tree path ∧ Below roots path := by
  constructor
  · rintro ⟨-, r, hr, name, between, hpath, hlength, hcandidate, -⟩
    exact ⟨hcandidate, r, hr, name, between, hpath, hlength⟩
  · rintro ⟨hbundle, r, hr, name, between, hpath, hlength⟩
    exact ⟨hbundle.full, r, hr, name, between, hpath, hlength, hbundle, by simp⟩

/-- A loose file outside of bundles is reached from whatever root is near. -/
theorem wanted_of_loose {path : Path} (hloose : IsLoose tree path)
    (hfull : tree.kind path ≠ some (.file 0)) (houtside : ¬ InBundle path) (hbelow : Below roots path) :
    Wanted tree roots .clap path := by
  obtain ⟨r, hr, name, between, rfl, hlength⟩ := hbelow
  refine ⟨hfull, r, hr, name, between, rfl, hlength, hloose, fun _ => ⟨rfl, fun dirName hmem => ?_⟩⟩
  by_contra hbundle
  exact houtside ⟨dirName, by simp [hmem], by simpa using hbundle⟩

theorem not_wanted_inside (h : Unexposed tree roots) {path : Path} (hinside : InBundle path) :
    ¬ Wanted tree roots .clap path := by
  rintro ⟨hfull, r, hr, name, between, rfl, hlength, hloose, hflag⟩
  obtain ⟨-, hnames⟩ := hflag rfl
  obtain ⟨dirName, hmem, hbundle⟩ := hinside
  obtain hmem | hmem := List.mem_append.1 hmem
  · rw [hnames dirName hmem] at hbundle
    cases hbundle
  · exact hfull (h r hr ⟨dirName, hmem, hbundle⟩ name between hlength hnames hloose)

theorem plugin_apart_error (hroots : ∀ r ∈ roots, tree.kind r.place = some .dir) {d : PluginDescriptor}
    (hd : d ∈ (scanPaths tree tables roots).plugins) {e : PluginScanError}
    (he : e ∈ (scanPaths tree tables roots).errors) (format : PluginFormat) :
    d.id ≠ placeId format e.path.place := by
  intro hsame
  obtain ⟨path, hid, hwanted⟩ := wanted_of_plugin tables hroots hd
  obtain ⟨s, hs, -, herrors⟩ := scanPaths_covers tables hroots
  rw [herrors] at he
  have herror := hs.errors e he
  obtain ⟨k', hk'⟩ : ∃ k, tree.kind e.path.place = some k := by
    obtain hbarren | hempty := herror
    · exact ⟨_, hbarren.1⟩
    · exact ⟨_, hempty⟩
  obtain ⟨k, hk⟩ := hwanted.kind
  obtain ⟨-, rfl⟩ := placeId_injective (slashless hk) (slashless hk') (hid.symm.trans hsame)
  obtain ⟨hfull, r, -, name, between, -, -, hcandidate, -⟩ := hwanted
  obtain hbarren | hempty := herror
  · cases hformat : d.format with
    | vst3 =>
      rw [hformat] at hcandidate
      exact hbarren.2 hcandidate.2.2
    | clap =>
      rw [hformat] at hcandidate
      obtain ⟨⟨len, hlen⟩, -⟩ := hcandidate
      rw [hbarren.1] at hlen
      cases hlen
  · exact hfull hempty

theorem scanRight_iff (hroots : ∀ r ∈ roots, tree.kind r.place = some .dir) {near : Path → Prop}
    (hnear : ∀ path, near path → IsLoose tree path → Below roots path) :
    ScanRight tree near (scanPaths tree tables roots) ↔
      Unexposed tree roots ∧ ∀ path, near path → IsBundle tree path → Below roots path := by
  constructor
  · rintro ⟨hbundles, -, hinside, -⟩
    refine ⟨?_, fun path hpath hbundle => ?_⟩
    · intro r hr hroot name between hlength hnames hloose
      by_contra hfull
      obtain ⟨⟨len, hlen⟩, -⟩ := id hloose
      have hin : InBundle (name :: (between ++ r.place)) :=
        hroot.imp fun dirName h => ⟨List.mem_append_right _ h.1, h.2⟩
      have hwanted : Wanted tree roots .clap (name :: (between ++ r.place)) :=
        ⟨hfull, r, hr, name, between, rfl, hlength, hloose, fun _ => ⟨rfl, hnames⟩⟩
      have hzero := hinside _ len hlen hin
      rw [listed_eq tables hroots _ hlen, if_pos hwanted] at hzero
      cases hzero
    · have hone := hbundles path hpath hbundle
      rw [listed_eq tables hroots _ hbundle.1] at hone
      by_contra hfar
      rw [if_neg fun h => hfar (wanted_bundle_iff.1 h).2] at hone
      cases hone
  · rintro ⟨hexposed, hbelow⟩
    refine ⟨fun path hpath hbundle => ?_, fun path hpath hloose hfull houtside => ?_,
      fun path len hlen hin => ?_, fun d hd e he format => plugin_apart_error tables hroots hd he format⟩
    · rw [listed_eq tables hroots _ hbundle.1,
        if_pos (wanted_bundle_iff.2 ⟨hbundle, hbelow path hpath hbundle⟩)]
    · obtain ⟨⟨len, hlen⟩, -⟩ := id hloose
      rw [listed_eq tables hroots _ hlen,
        if_pos (wanted_of_loose hloose hfull houtside (hnear path hpath hloose))]
    · rw [listed_eq tables hroots _ hlen, if_neg (not_wanted_inside hexposed hin)]

/-- The scan is right about what lies below its roots exactly when no root exposes the inside of a
bundle. It is right about the roots themselves as well when, besides, each of them that is a bundle
lies below another. -/
theorem scan_right_iff (hroots : ∀ r ∈ roots, tree.kind r.place = some .dir) :
    (ScanRight tree (Below roots) (scanPaths tree tables roots) ↔ Unexposed tree roots) ∧
    (ScanRight tree (AtOrBelow roots) (scanPaths tree tables roots) ↔
      Unexposed tree roots ∧ ∀ r ∈ roots, IsBundle tree r.place → Below roots r.place) := by
  constructor
  · rw [scanRight_iff tables hroots fun _ hbelow _ => hbelow, and_iff_left fun _ hbelow _ => hbelow]
  · rw [scanRight_iff tables hroots]
    · refine and_congr_right fun _ => ⟨fun h r hr => h _ (.inr ⟨r, hr, rfl⟩), ?_⟩
      rintro h path (hbelow | ⟨r, hr, rfl⟩) hbundle
      · exact hbelow
      · exact h r hr hbundle
    · rintro path (hbelow | ⟨r, hr, rfl⟩) ⟨⟨len, hlen⟩, -⟩
      · exact hbelow
      · rw [hroots r hr] at hlen
        cases hlen

end

end

/-! ## A bundle and a loose file -/

def fooBundle : Path := [['F', 'o', 'o', '.', 'v', 's', 't', '3'], ['l', 'i', 'b']]

def fooArch : Path := ['x', '8', '6'] :: contents :: fooBundle

def fooBinary : Path := ['F', 'o', 'o', '.', 's', 'o'] :: fooArch

/-- A directory with the bundle `Foo.vst3` and the loose file `Bar.clap`. -/
def libTree : FileTree where
  entries := [([], .dir), ([['l', 'i', 'b']], .dir), (fooBundle, .dir), (contents :: fooBundle, .dir),
    (fooArch, .dir), (fooBinary, .file 1), ([['B', 'a', 'r', '.', 'c', 'l', 'a', 'p'], ['l', 'i', 'b']], .file 1)]
  distinct := by decide
  parents := by decide
  names := by decide

/-- Given twice, the directory is scanned right. -/
theorem scan_right_iff_lib :
    ScanRight libTree (Below [⟨['/', 'l', 'i', 'b'], [['l', 'i', 'b']]⟩, ⟨['/', 'l', 'i', 'b'], [['l', 'i', 'b']]⟩])
      (scanPaths libTree .ascii
        [⟨['/', 'l', 'i', 'b'], [['l', 'i', 'b']]⟩, ⟨['/', 'l', 'i', 'b'], [['l', 'i', 'b']]⟩]) := by
  refine (scan_right_iff .ascii (by decide)).1.2 ?_
  intro r hr hroot
  have hnone : ∀ r ∈ [(⟨['/', 'l', 'i', 'b'], [['l', 'i', 'b']]⟩ : PathBuf), ⟨['/', 'l', 'i', 'b'], [['l', 'i', 'b']]⟩],
      ¬ ∃ dirName ∈ r.place, isBundleName dirName = true := by decide
  exact absurd hroot (hnone r hr)

/-- From a root within the bundle, its binary is listed as a plugin of its own. -/
theorem binary_listed_as_clap :
    libTree.kind fooBinary = some (.file 1) ∧ InBundle fooBinary ∧
      (scanPaths libTree .ascii [⟨absolute fooArch, fooArch⟩]).listed .clap fooBinary = 1 := by
  have hkind : libTree.kind fooBinary = some (.file 1) := by decide
  have hwanted : Wanted libTree [⟨absolute fooArch, fooArch⟩] .clap fooBinary := by
    refine ⟨by rw [hkind]; decide, _, List.mem_singleton_self _, ['F', 'o', 'o', '.', 's', 'o'], [], rfl,
      Nat.zero_le _, ⟨⟨1, hkind⟩, ?_⟩, fun _ => ⟨rfl, by simp⟩⟩
    exact ⟨['F', 'o', 'o', '.', 's', 'o'], rfl, by decide⟩
  refine ⟨hkind, ⟨['F', 'o', 'o', '.', 'v', 's', 't', '3'], by decide, by decide⟩, ?_⟩
  rw [listed_eq .ascii (by decide) _ hkind, if_pos hwanted]

end HikaruOpenLive.Gui.PluginScan
