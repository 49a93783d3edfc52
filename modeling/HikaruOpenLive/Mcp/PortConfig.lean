import HikaruOpenLive.Foundations.Runs
import HikaruOpenLive.Gui.MatrixProject
import Mathlib.Data.List.Sort

/-! # The ports of the MCP server

A slot is an address: an agent picks it by number and talks over its socket. `validate` looks at the
numbers, the limits and whether a socket has a path; `addPort` takes the number after the highest and
makes the path from it.

`always_addressed_iff` says over which runs of `addPort` and `removePort` two slots never share a number
or a socket.
-/
set_option autoImplicit false

namespace HikaruOpenLive.Mcp

open Foundations.Runs

/-- A `u16`. -/
abbrev PortSlotId := Fin 65536

def firstPortSlot : PortSlotId := 1

structure ServerFlags where
  executable : String
  args : List String
  env : List (String × String)
  workingDir : Option String
deriving DecidableEq

inductive McpTransport where
  | unixSocket (path : String)
  | stdio
  | serverFlags (flags : ServerFlags)
deriving DecidableEq

def McpTransport.label : McpTransport → String
  | .unixSocket _ => "Unix Socket"
  | .stdio => "Stdio"
  | .serverFlags _ => "Server Flags"

def McpTransport.socketPath : McpTransport → Option String
  | .unixSocket path => some path
  | _ => none

structure McpPortConfig where
  id : PortSlotId
  label : String
  enabled : Bool
  transport : McpTransport
  maxClients : ℕ
deriving DecidableEq

def McpPortConfig.new (id : PortSlotId) (socketPath : String) : McpPortConfig :=
  { id := id, label := "MCP Port " ++ toString id.val, enabled := false
    transport := .unixSocket socketPath, maxClients := 1 }

structure McpServerConfig where
  enabled : Bool
  runtimeDir : String
  serverFlags : ServerFlags
  ports : List McpPortConfig

inductive ConfigIssue where
  | duplicateSlot (id : PortSlotId)
  | invalidSlotId (id : PortSlotId)
  | invalidSocketPath (id : PortSlotId)
  | invalidMaxClients (id : PortSlotId)
deriving DecidableEq

def ConfigIssue.slot : ConfigIssue → PortSlotId
  | .duplicateSlot id => id
  | .invalidSlotId id => id
  | .invalidSocketPath id => id
  | .invalidMaxClients id => id

def socketPathIn (runtimeDir : String) (id : PortSlotId) : String :=
  Gui.joinPath runtimeDir ("hikaru-mcp-" ++ toString id.val ++ ".sock")

/-- `u16::saturating_add(1)`. -/
def saturatingSucc (id : PortSlotId) : PortSlotId :=
  if id = Fin.last 65535 then id else id + 1

/-- The components of a path, as `Path` compares it: `//` and `/./` count as `/`, and a `.` counts only
at the start of a relative path. -/
def components (path : String) : List (List Char) :=
  let names := path.toList.splitOn '/'
  let start :=
    if Gui.isAbsolute path then [['/']] else if names.head? = some ['.'] then [['.']] else []
  start ++ names.filter fun n => n ≠ [] ∧ n ≠ ['.']

def SamePath (p q : String) : Prop := components p = components q

instance (p q : String) : Decidable (SamePath p q) :=
  inferInstanceAs (Decidable (components p = components q))

theorem SamePath.symm {p q : String} (h : SamePath p q) : SamePath q p := Eq.symm h

namespace McpServerConfig

def slot (s : McpServerConfig) (id : PortSlotId) : Option McpPortConfig :=
  s.ports.find? fun p => p.id = id

def ids (s : McpServerConfig) : List PortSlotId := s.ports.map McpPortConfig.id

def nextPortId (s : McpServerConfig) : PortSlotId :=
  match s.ids.max? with
  | some m => saturatingSucc m
  | none => firstPortSlot

/-- The slot that `addPort` pushes. -/
def freshPort (s : McpServerConfig) : McpPortConfig :=
  .new s.nextPortId (socketPathIn s.runtimeDir s.nextPortId)

/-- `sort_by_key(|p| p.id)`, which is stable. -/
def sortById (ports : List McpPortConfig) : List McpPortConfig :=
  ports.insertionSort fun p q => p.id ≤ q.id

def addPort (s : McpServerConfig) : PortSlotId × McpServerConfig :=
  (s.nextPortId, { s with ports := sortById (s.ports ++ [s.freshPort]) })

def removePort (s : McpServerConfig) (id : PortSlotId) : Bool × McpServerConfig :=
  let kept := s.ports.filter fun p => p.id ≠ id
  (decide (kept.length ≠ s.ports.length), { s with ports := kept })

/-- What `validate` reports of one slot, after the slots `seen`. -/
def issuesOf (seen : List PortSlotId) (p : McpPortConfig) : List ConfigIssue :=
  (if p.id < firstPortSlot then [.invalidSlotId p.id] else []) ++
  (if p.id ∈ seen then [.duplicateSlot p.id] else []) ++
  (if p.maxClients = 0 then [.invalidMaxClients p.id] else []) ++
  (if p.transport = .unixSocket "" then [.invalidSocketPath p.id] else [])

def issuesFrom : List PortSlotId → List McpPortConfig → List ConfigIssue
  | _, [] => []
  | seen, p :: ps => issuesOf seen p ++ issuesFrom (p.id :: seen) ps

def validate (s : McpServerConfig) : List ConfigIssue := issuesFrom [] s.ports

/-- The paths of the Unix-socket slots. -/
def socketPaths (s : McpServerConfig) : List String :=
  s.ports.filterMap fun p => p.transport.socketPath

/-! ## What `validate` accepts -/

theorem issuesOf_eq_nil_iff {seen : List PortSlotId} {p : McpPortConfig} :
    issuesOf seen p = [] ↔
      firstPortSlot ≤ p.id ∧ p.id ∉ seen ∧ p.maxClients ≠ 0 ∧ p.transport ≠ .unixSocket "" := by
  simp [issuesOf]

theorem issuesFrom_eq_nil_iff {seen : List PortSlotId} {ps : List McpPortConfig} :
    issuesFrom seen ps = [] ↔
      (ps.map McpPortConfig.id).Nodup ∧ (∀ p ∈ ps, p.id ∉ seen) ∧
        ∀ p ∈ ps, firstPortSlot ≤ p.id ∧ p.maxClients ≠ 0 ∧ p.transport ≠ .unixSocket "" := by
  induction ps generalizing seen with
  | nil => simp [issuesFrom]
  | cons p ps ih =>
    rw [issuesFrom, List.append_eq_nil_iff, issuesOf_eq_nil_iff, ih]
    simp only [List.map_cons, List.nodup_cons, List.mem_map, List.forall_mem_cons]
    constructor
    · rintro ⟨⟨hid, hseen, hrest⟩, hnodup, hfresh, hps⟩
      refine ⟨⟨?_, hnodup⟩, ⟨hseen, fun q hq h => hfresh q hq (List.mem_cons_of_mem _ h)⟩, ⟨hid, hrest⟩, hps⟩
      rintro ⟨q, hq, h⟩
      exact hfresh q hq (h ▸ List.mem_cons_self)
    · rintro ⟨⟨hp, hnodup⟩, ⟨hseen, hfresh⟩, ⟨hid, hrest⟩, hps⟩
      refine ⟨⟨hid, hseen, hrest⟩, hnodup, fun q hq h => ?_, hps⟩
      rcases List.mem_cons.mp h with h | h
      · exact hp ⟨q, hq, h⟩
      · exact hfresh q hq h

theorem validate_eq_nil_iff {s : McpServerConfig} :
    s.validate = [] ↔
      s.ids.Nodup ∧
        ∀ p ∈ s.ports, firstPortSlot ≤ p.id ∧ p.maxClients ≠ 0 ∧ p.transport ≠ .unixSocket "" := by
  rw [validate, issuesFrom_eq_nil_iff]
  simp [ids]

/-- Every issue names a slot of the configuration. -/
theorem slot_mem_ids_of_mem_validate {s : McpServerConfig} {issue : ConfigIssue}
    (h : issue ∈ s.validate) : issue.slot ∈ s.ids := by
  have hof : ∀ {seen : List PortSlotId} {p : McpPortConfig}, issue ∈ issuesOf seen p →
      issue.slot = p.id := by
    intro seen p hp
    simp only [issuesOf, List.mem_append, List.mem_ite_nil_right, List.mem_singleton] at hp
    rcases hp with ((⟨_, rfl⟩ | ⟨_, rfl⟩) | ⟨_, rfl⟩) | ⟨_, rfl⟩ <;> rfl
  have hfrom : ∀ (ps : List McpPortConfig) (seen : List PortSlotId), issue ∈ issuesFrom seen ps →
      issue.slot ∈ ps.map McpPortConfig.id := by
    intro ps
    induction ps with
    | nil => intro seen hi; cases hi
    | cons p ps ih =>
      intro seen hi
      rw [List.map_cons]
      rcases List.mem_append.mp hi with hi | hi
      · rw [hof hi]
        exact List.mem_cons_self
      · exact List.mem_cons_of_mem _ (ih _ hi)
  exact hfrom s.ports [] h

/-! ## The next number -/

theorem lt_saturatingSucc_iff {id : PortSlotId} :
    id < saturatingSucc id ↔ id < Fin.last 65535 := by
  rw [saturatingSucc]
  split
  case isTrue h => simp [h]
  case isFalse h =>
    have hlt : id < Fin.last 65535 := Fin.lt_last_iff_ne_last.mpr h
    exact ⟨fun _ => hlt, fun _ => Fin.lt_add_one_iff.mpr hlt⟩

theorem le_saturatingSucc (id : PortSlotId) : id ≤ saturatingSucc id := by
  by_cases h : id < Fin.last 65535
  · exact (lt_saturatingSucc_iff.mpr h).le
  · rw [saturatingSucc, if_pos (Fin.last_le_iff.mp (not_lt.mp h))]

theorem firstPortSlot_le_saturatingSucc (id : PortSlotId) :
    firstPortSlot ≤ saturatingSucc id := by
  by_cases h : id < Fin.last 65535
  · have hlt := lt_saturatingSucc_iff.mpr h
    rw [firstPortSlot, Fin.le_def]
    rw [Fin.lt_def] at hlt
    exact Nat.one_le_of_lt hlt
  · rw [saturatingSucc, if_pos (Fin.last_le_iff.mp (not_lt.mp h)), Fin.last_le_iff.mp (not_lt.mp h)]
    decide

theorem firstPortSlot_le_nextPortId (s : McpServerConfig) : firstPortSlot ≤ s.nextPortId := by
  rw [nextPortId]
  split
  · exact firstPortSlot_le_saturatingSucc _
  · exact le_rfl

/-- The next number is free unless the highest one is taken. -/
theorem nextPortId_notMem_ids_iff {s : McpServerConfig} :
    s.nextPortId ∉ s.ids ↔ ∀ id ∈ s.ids, id < Fin.last 65535 := by
  rw [nextPortId]
  split
  case h_1 m hm =>
    obtain ⟨hmem, hle⟩ := List.max?_eq_some_iff.mp hm
    constructor
    · intro h id hid
      refine lt_of_le_of_lt (hle id hid) (lt_saturatingSucc_iff.mp ?_)
      refine lt_of_le_of_ne (le_saturatingSucc m) fun he => h ?_
      rw [← he]
      exact hmem
    · intro h hid
      exact absurd (hle _ hid) (not_le.mpr (lt_saturatingSucc_iff.mpr (h m hmem)))
  case h_2 hnone =>
    rw [List.max?_eq_none_iff.mp hnone]
    exact ⟨fun _ id hid => (List.not_mem_nil hid).elim, fun _ => List.not_mem_nil⟩

/-! ## What an edit does -/

theorem sortById_perm (ports : List McpPortConfig) : (sortById ports).Perm ports :=
  List.perm_insertionSort _ ports

/-- Sorting by number keeps the slot that a number finds. -/
theorem find?_sortById (ports : List McpPortConfig) (id : PortSlotId) :
    (sortById ports).find? (fun p => p.id = id) = ports.find? fun p => p.id = id := by
  have hinsert : ∀ (p : McpPortConfig) (ps : List McpPortConfig),
      (ps.orderedInsert (fun p q => p.id ≤ q.id) p).find? (fun q => q.id = id) =
        (p :: ps).find? fun q => q.id = id := by
    intro p ps
    induction ps with
    | nil => rfl
    | cons q qs ih =>
      rw [List.orderedInsert_cons]
      split
      case isTrue => rfl
      case isFalse h =>
        have hne : q.id ≠ p.id := fun he => h he.ge
        -- a slot passed over has a smaller number
        by_cases hq : q.id = id
        · have hp : p.id ≠ id := fun he => hne (hq.trans he.symm)
          simp [hq, hp]
        · simp only [List.find?_cons, hq, decide_false, ih]
  induction ports with
  | nil => rfl
  | cons p ps ih =>
    rw [sortById, List.insertionSort_cons, hinsert, List.find?_cons, List.find?_cons, ← sortById, ih]

theorem slot_addPort (s : McpServerConfig) (id : PortSlotId) :
    s.addPort.2.slot id = (s.slot id).or (if s.nextPortId = id then some s.freshPort else none) := by
  rw [slot, addPort, find?_sortById, List.find?_append, slot]
  congr 1
  by_cases h : s.nextPortId = id
  · rw [if_pos h]
    exact List.find?_cons_of_pos (by simpa [freshPort, McpPortConfig.new] using h)
  · rw [if_neg h]
    exact List.find?_cons_of_neg (by simpa [freshPort, McpPortConfig.new] using h)

theorem mem_ports_addPort {s : McpServerConfig} {p : McpPortConfig} :
    p ∈ s.addPort.2.ports ↔ p ∈ s.ports ∨ p = s.freshPort := by
  rw [addPort, (sortById_perm _).mem_iff, List.mem_append, List.mem_singleton]

/-- An added slot changes no slot there is. -/
theorem kept_addPort {s : McpServerConfig} {p : McpPortConfig} (h : p ∈ s.ports) :
    p ∈ s.addPort.2.ports ∧ s.addPort.2.slot p.id = s.slot p.id := by
  refine ⟨mem_ports_addPort.mpr (.inl h), ?_⟩
  have hsome : (s.slot p.id).isSome := List.find?_isSome.mpr ⟨p, h, decide_eq_true rfl⟩
  rw [slot_addPort, Option.or_of_isSome hsome]

theorem ids_addPort_perm (s : McpServerConfig) : s.addPort.2.ids.Perm (s.nextPortId :: s.ids) := by
  have h := (sortById_perm (s.ports ++ [s.freshPort])).map McpPortConfig.id
  rw [List.map_append] at h
  exact h.trans List.perm_append_comm

theorem socketPaths_addPort_perm (s : McpServerConfig) :
    s.addPort.2.socketPaths.Perm (socketPathIn s.runtimeDir s.nextPortId :: s.socketPaths) := by
  have h := (sortById_perm (s.ports ++ [s.freshPort])).filterMap fun p => p.transport.socketPath
  rw [List.filterMap_append] at h
  exact h.trans List.perm_append_comm

theorem mem_ports_removePort {s : McpServerConfig} {id : PortSlotId} {p : McpPortConfig} :
    p ∈ (s.removePort id).2.ports ↔ p ∈ s.ports ∧ p.id ≠ id := by
  rw [removePort, List.mem_filter, decide_eq_true_iff]

/-- What `removePort` answers: whether there was a slot to remove. -/
theorem removePort_fst_iff {s : McpServerConfig} {id : PortSlotId} :
    (s.removePort id).1 = true ↔ id ∈ s.ids := by
  rw [removePort, decide_eq_true_iff, Ne, List.length_filter_eq_length_iff, ids, List.mem_map]
  simp

end McpServerConfig

/-! ## Runs of edits -/

inductive PortEdit where
  | addPort
  | removePort (id : PortSlotId)

namespace McpServerConfig

def edit (s : McpServerConfig) : PortEdit → McpServerConfig
  | .addPort => s.addPort.2
  | .removePort id => (s.removePort id).2

/-- A slot is one address: its number and its socket are its own, and a slot added takes neither. -/
structure Addressed (s : McpServerConfig) : Prop where
  distinct : s.ids.Nodup
  valid : ∀ id ∈ s.ids, firstPortSlot ≤ id
  ordered : s.ids.Pairwise (· ≤ ·)
  apart : s.socketPaths.Pairwise fun p q => ¬ SamePath p q
  kept : ∀ p ∈ s.ports, p ∈ s.addPort.2.ports ∧ s.addPort.2.slot p.id = s.slot p.id

/-- There is a number after the highest one, and the path made from it is no slot's. -/
def Roomy (s : McpServerConfig) : PortEdit → Prop
  | .addPort =>
    (∀ id ∈ s.ids, id < Fin.last 65535) ∧
      ∀ path ∈ s.socketPaths, ¬ SamePath (socketPathIn s.runtimeDir s.nextPortId) path
  | .removePort _ => True

theorem ordered_addPort (s : McpServerConfig) : s.addPort.2.ids.Pairwise (· ≤ ·) := by
  have hsorted : (sortById (s.ports ++ [s.freshPort])).Pairwise fun p q => p.id ≤ q.id :=
    List.pairwise_insertionSort _ _
  exact List.pairwise_map.mpr hsorted

theorem addressed_addPort_iff {s : McpServerConfig} (h : Addressed s) :
    Addressed s.addPort.2 ↔ Roomy s .addPort := by
  have hsymm : ∀ {p q : String}, ¬ SamePath p q → ¬ SamePath q p := fun hpq hqp => hpq hqp.symm
  constructor
  · intro ha
    have hids := (ids_addPort_perm s).nodup_iff.mp ha.distinct
    have hpaths := ((socketPaths_addPort_perm s).pairwise_iff hsymm).mp ha.apart
    exact ⟨nextPortId_notMem_ids_iff.mp (List.nodup_cons.mp hids).1,
      fun path hp => (List.pairwise_cons.mp hpaths).1 path hp⟩
  · rintro ⟨hroom, hfree⟩
    refine ⟨?_, ?_, ordered_addPort s, ?_, fun p => kept_addPort⟩
    · rw [(ids_addPort_perm s).nodup_iff, List.nodup_cons]
      exact ⟨nextPortId_notMem_ids_iff.mpr hroom, h.distinct⟩
    · intro id hid
      rcases List.mem_cons.mp ((ids_addPort_perm s).mem_iff.mp hid) with rfl | hid
      · exact firstPortSlot_le_nextPortId s
      · exact h.valid id hid
    · rw [(socketPaths_addPort_perm s).pairwise_iff hsymm, List.pairwise_cons]
      exact ⟨hfree, h.apart⟩

theorem Addressed.removePort {s : McpServerConfig} (h : Addressed s) (id : PortSlotId) :
    Addressed (s.removePort id).2 := by
  have hports : (s.removePort id).2.ports.Sublist s.ports := List.filter_sublist
  have hids : (s.removePort id).2.ids.Sublist s.ids := hports.map _
  exact ⟨h.distinct.sublist hids, fun i hi => h.valid i (hids.subset hi), h.ordered.sublist hids,
    h.apart.sublist (hports.filterMap _), fun p => kept_addPort⟩

theorem addressed_edit_iff {s : McpServerConfig} {e : PortEdit} (h : Addressed s) :
    Addressed (s.edit e) ↔ Roomy s e := by
  cases e with
  | addPort => exact addressed_addPort_iff h
  | removePort id => exact ⟨fun _ => trivial, fun _ => h.removePort id⟩

/-- What `validate` leaves open of an address: the order of the list and the paths. -/
theorem addressed_iff {s : McpServerConfig} (h : s.validate = []) :
    Addressed s ↔
      s.ids.Pairwise (· ≤ ·) ∧ s.socketPaths.Pairwise fun p q => ¬ SamePath p q := by
  obtain ⟨hnodup, hports⟩ := validate_eq_nil_iff.mp h
  constructor
  · intro ha
    exact ⟨ha.ordered, ha.apart⟩
  · rintro ⟨hordered, hapart⟩
    refine ⟨hnodup, fun id hid => ?_, hordered, hapart, fun p => kept_addPort⟩
    obtain ⟨p, hp, rfl⟩ := List.mem_map.mp hid
    exact (hports p hp).1

/-- From a configuration that `validate` accepts, the slots stay addresses precisely when the list was in
order with no path twice, and no slot is added after the highest number or over a path that is taken. -/
theorem always_addressed_iff {s : McpServerConfig} (edits : List PortEdit) (h : s.validate = []) :
    Always edit Addressed s edits ↔
      (s.ids.Pairwise (· ≤ ·) ∧ s.socketPaths.Pairwise fun p q => ¬ SamePath p q) ∧
        Along edit Roomy s edits := by
  rw [← addressed_iff h]
  constructor
  · intro ha
    exact ⟨ha.head, (always_iff_along (fun _ _ => addressed_edit_iff) ha.head).mp ha⟩
  · rintro ⟨hs, ha⟩
    exact (always_iff_along (fun _ _ => addressed_edit_iff) hs).mpr ha

/-- A configuration with these slots. -/
def withPorts (ports : List McpPortConfig) : McpServerConfig :=
  { enabled := false, runtimeDir := "/tmp/hikaru"
    serverFlags := { executable := "hikaru_mcp", args := ["--mode=live"], env := [], workingDir := none }
    ports := ports }

/-- A slot over the standard streams; another is added and the first one removed. -/
theorem always_addressed_stdio :
    Always edit Addressed (withPorts [{ McpPortConfig.new 1 "" with transport := .stdio }])
      [.addPort, .removePort 1] :=
  (always_addressed_iff _ (by decide)).mpr
    ⟨⟨by decide, by decide⟩, ⟨by simp [withPorts, ids, McpPortConfig.new, Fin.lt_def],
      by simp [withPorts, socketPaths, McpPortConfig.new, McpTransport.socketPath]⟩, trivial, trivial⟩

/-- Two slots loaded with one path: `validate` reports nothing. -/
theorem not_always_addressed :
    ¬ ∀ (s : McpServerConfig) (edits : List PortEdit), s.validate = [] →
      Always edit Addressed s edits := by
  intro h
  have hshared := h (withPorts [.new 1 "/tmp/a.sock", .new 2 "/tmp/a.sock"]) []
    (validate_eq_nil_iff.mpr ⟨by decide, by simp [withPorts, McpPortConfig.new, firstPortSlot]⟩)
  exact (List.pairwise_cons.mp hshared.head.apart).1 "/tmp/a.sock" List.mem_cons_self rfl

end McpServerConfig

end HikaruOpenLive.Mcp
