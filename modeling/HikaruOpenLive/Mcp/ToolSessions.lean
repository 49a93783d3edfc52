import HikaruOpenLive.Mcp.ToolCalls
import HikaruOpenLive.Engine.PluginChains

/-! # Tool calls over a session

The server keeps the report of its plugin scan: it looks at the disk when a tool first needs the report, and when
`list_plugins` is asked to refresh it. `Outcome` is what a tool's work starts from; the work itself, on a plugin or
on its binary, is elsewhere. What is on the disk comes with every request, and may be different each time.

`answers_on_basis` says which look at the disk an answer is based on.
-/
set_option autoImplicit false

namespace HikaruOpenLive.Mcp

open Engine (PluginFormat PluginDescriptor)

structure ScanReport where
  plugins : List PluginDescriptor
  errors : ℕ

/-- What the server would find at the time of a request. -/
structure Disk where
  report : ScanReport
  isFile : String → Bool
  /-- `binary_of`. -/
  binaryOf : PluginDescriptor → Option String

structure Backend where
  /-- Whether there is a project; it is loaded when the server starts. -/
  project : Bool
  scan : Option ScanReport

inductive Outcome where
  | protocolError (e : McpError)
  | toolError (message : String)
  | plugins (found : List PluginDescriptor) (errores : ℕ)
  | plugin (descriptor : PluginDescriptor)
  | binary (path : String)
  | audit (rutas : List String)
  | projectInfo

/-- `format_label`. -/
def formatLabel : PluginFormat → String
  | .vst3 => "VST3"
  | .clap => "CLAP"

/-- `referencia.split_once(':')`: what follows the first colon, or all of it. -/
def afterColon (referencia : String) : String :=
  match referencia.toList.dropWhile (· ≠ ':') with
  | [] => referencia
  | _ :: resto => String.ofList resto

/-- By its id, or by its path with or without the format. -/
def ScanReport.resolve (informe : ScanReport) (referencia : String) : Option PluginDescriptor :=
  (informe.plugins.find? fun p => p.id = referencia).or
    (informe.plugins.find? fun p => p.path = afterColon referencia)

section

variable (lowercase : String → String) (debugNames : List String → String) (displayLabel : PluginDescriptor → String)

def ScanReport.descriptor (informe : ScanReport) (referencia : String) : Outcome :=
  match informe.resolve referencia with
  | some descriptor => .plugin descriptor
  | none => .toolError ("no se encontró el plugin '" ++ referencia ++ "'. Usá `list_plugins` para ver los disponibles (algunos: " ++
        debugNames ((informe.plugins.map PluginDescriptor.name).take 20) ++ ")")

/-- The binary of a plugin that is no file. -/
def ScanReport.binary (informe : ScanReport) (disk : Disk) (referencia : String) : Outcome :=
  match informe.resolve referencia with
  | none => .toolError ("no se encontró el plugin '" ++ referencia ++ "'")
  | some descriptor =>
    match disk.binaryOf descriptor with
    | some path => .binary path
    | none => .toolError ("el plugin '" ++ displayLabel descriptor ++
        "' no tiene binario dentro (bundle vacío o formato raro)")

def ScanReport.list (informe : ScanReport) (formato : Option String) : Outcome :=
  match formato with
  | none => .plugins informe.plugins informe.errors
  | some formato =>
    .plugins (informe.plugins.filter fun p => (formatLabel p.format).toLower = (lowercase formato).toLower)
      informe.errors

def sinProyecto : Outcome :=
  .toolError "no hay ningún proyecto cargado. Levantá el servidor con --project <archivo.oplf|.opsf> o poné HIKARU_PROJECT."

/-- `Backend::scan`. -/
def Backend.scanned (b : Backend) (disk : Disk) (refrescar : Bool) : Backend × ScanReport :=
  match refrescar, b.scan with
  | false, some informe => (b, informe)
  | _, _ => ({ b with scan := some disk.report }, disk.report)

variable {F32 : Type}

def ejecutar (b : Backend) (disk : Disk) : ToolCall F32 → Backend × Outcome
  | .listPlugins refrescar formato =>
    let (b, informe) := b.scanned disk refrescar
    (b, informe.list lowercase formato)
  | .pluginInfo plugin | .pluginParameters plugin | .setParameter plugin _ _ | .inspectWrapper plugin =>
    let (b, informe) := b.scanned disk false
    (b, informe.descriptor debugNames plugin)
  | .decompileStub plugin _ _ | .pluginSymbols plugin =>
    if disk.isFile plugin then (b, .binary plugin)
    else
      let (b, informe) := b.scanned disk false
      (b, informe.binary displayLabel disk plugin)
  | .auditProject =>
    if b.project then
      let (b, informe) := b.scanned disk false
      (b, .audit (informe.plugins.map PluginDescriptor.path))
    else (b, sinProyecto)
  | .projectInfo => if b.project then (b, .projectInfo) else (b, sinProyecto)

/-- A request and what is on the disk then. -/
structure ToolRequest where
  nombre : String
  argumentos : Arguments
  disk : Disk

variable (asF32 : Number → F32) (display : Json → String)

/-- `call_tool`. -/
def attend (b : Backend) (r : ToolRequest) : Backend × Outcome :=
  match parseCall asF32 display r.nombre r.argumentos with
  | .error e => (b, .protocolError e)
  | .ok call => ejecutar lowercase debugNames displayLabel b r.disk call

/-! ## What an answer is based on -/

/-- The call looks at the report, given whether there is a project. -/
def ToolCall.Looks (project : Bool) (disk : Disk) : ToolCall F32 → Bool
  | .listPlugins _ _ | .pluginInfo _ | .pluginParameters _ | .setParameter _ _ _ | .inspectWrapper _ => true
  | .decompileStub plugin _ _ | .pluginSymbols plugin => !disk.isFile plugin
  | .auditProject => project
  | .projectInfo => false

def ToolRequest.looks (project : Bool) (r : ToolRequest) : Bool :=
  match parseCall asF32 display r.nombre r.argumentos with
  | .error _ => false
  | .ok call => call.Looks project r.disk

/-- The request asks for a new scan. -/
def ToolRequest.refreshes (r : ToolRequest) : Bool :=
  match parseCall asF32 display r.nombre r.argumentos with
  | .ok (.listPlugins true _) => true
  | _ => false

/-- The report after some requests: that of the last refresh or, before any, of the first look. -/
def basis (project : Bool) (requests : List ToolRequest) : Option ScanReport :=
  (((requests.reverse.find? (ToolRequest.refreshes asF32 display)).or
    (requests.find? (ToolRequest.looks asF32 display project))).map ToolRequest.disk).map Disk.report

end

/-! ## One request -/

/-- The cache after a request that may look at the report, and may refresh it. -/
def kept (scan : Option ScanReport) (report : ScanReport) (looks refreshes : Bool) : Option ScanReport :=
  if refreshes then some report else if looks then some (scan.getD report) else scan

theorem scanned_eq (b : Backend) (disk : Disk) (refrescar : Bool) :
    b.scanned disk refrescar =
      ({ b with scan := some (if refrescar then disk.report else b.scan.getD disk.report) },
        if refrescar then disk.report else b.scan.getD disk.report) := by
  obtain ⟨project, scan⟩ := b
  cases refrescar <;> cases scan <;> rfl

section

variable {F32 : Type} (lowercase : String → String) (debugNames : List String → String)
  (displayLabel : PluginDescriptor → String)

/-- What a call does to the cache, and that it does not matter whether it finds the cache before or after. -/
theorem ejecutar_kept (b : Backend) (disk : Disk) (call : ToolCall F32) :
    let refreshes := match call with | .listPlugins true _ => true | _ => false
    let after : Backend := { b with scan := kept b.scan disk.report (call.Looks b.project disk) refreshes }
    (ejecutar lowercase debugNames displayLabel b disk call).1 = after ∧
      (ejecutar lowercase debugNames displayLabel after disk call).2 =
        (ejecutar lowercase debugNames displayLabel b disk call).2 := by
  obtain ⟨project, scan⟩ := b
  cases call with
  | listPlugins refrescar formato => cases refrescar <;> simp [ejecutar, ToolCall.Looks, scanned_eq, kept]
  | pluginInfo plugin => simp [ejecutar, ToolCall.Looks, scanned_eq, kept]
  | pluginParameters plugin => simp [ejecutar, ToolCall.Looks, scanned_eq, kept]
  | setParameter plugin indice valor => simp [ejecutar, ToolCall.Looks, scanned_eq, kept]
  | inspectWrapper plugin => simp [ejecutar, ToolCall.Looks, scanned_eq, kept]
  | decompileStub plugin procedimiento analisis =>
    cases hfile : disk.isFile plugin <;> simp [ejecutar, ToolCall.Looks, scanned_eq, kept, hfile]
  | pluginSymbols plugin =>
    cases hfile : disk.isFile plugin <;> simp [ejecutar, ToolCall.Looks, scanned_eq, kept, hfile]
  | auditProject =>
    cases project <;> simp [ejecutar, ToolCall.Looks, scanned_eq, kept]
  | projectInfo => cases project <;> simp [ejecutar, ToolCall.Looks, kept]

variable (asF32 : Number → F32) (display : Json → String)

theorem attend_kept (b : Backend) (r : ToolRequest) :
    let after : Backend :=
      { b with scan := kept b.scan r.disk.report (r.looks asF32 display b.project) (r.refreshes asF32 display) }
    (attend lowercase debugNames displayLabel asF32 display b r).1 = after ∧
      (attend lowercase debugNames displayLabel asF32 display after r).2 =
        (attend lowercase debugNames displayLabel asF32 display b r).2 := by
  unfold attend ToolRequest.looks ToolRequest.refreshes
  cases parseCall asF32 display r.nombre r.argumentos with
  | error e => exact ⟨rfl, rfl⟩
  | ok call =>
    have h := ejecutar_kept lowercase debugNames displayLabel b r.disk call
    cases call with
    | listPlugins refrescar formato => cases refrescar <;> exact h
    | _ => exact h

theorem basis_concat (project : Bool) (requests : List ToolRequest) (r : ToolRequest) :
    basis asF32 display project (requests ++ [r]) =
      kept (basis asF32 display project requests) r.disk.report (r.looks asF32 display project)
        (r.refreshes asF32 display) := by
  unfold basis kept
  rw [List.reverse_append, List.reverse_singleton, List.singleton_append, List.find?_cons, List.find?_append]
  cases hrefreshes : r.refreshes asF32 display with
  | true => rfl
  | false =>
    cases hlast : requests.reverse.find? (ToolRequest.refreshes asF32 display) with
    | some r' => cases r.looks asF32 display project <;> rfl
    | none =>
      cases hfirst : requests.find? (ToolRequest.looks asF32 display project) with
      | some r' => cases r.looks asF32 display project <;> rfl
      | none => cases hlooks : r.looks asF32 display project <;> simp [hlooks]

/-- In any session a request is answered, and the server left, as if the only scan ever made had been the last
one that `list_plugins` asked for, or the one of the first request that needed the report. -/
theorem answers_on_basis (project : Bool) (requests : List ToolRequest) (r : ToolRequest) :
    let b := requests.foldl (fun b r => (attend lowercase debugNames displayLabel asF32 display b r).1)
      { project := project, scan := none }
    let known : Backend := { project := project, scan := basis asF32 display project (requests ++ [r]) }
    b = { project := project, scan := basis asF32 display project requests } ∧
      attend lowercase debugNames displayLabel asF32 display b r =
        (known, (attend lowercase debugNames displayLabel asF32 display known r).2) := by
  have hrun : requests.foldl (fun b r => (attend lowercase debugNames displayLabel asF32 display b r).1)
      { project := project, scan := none } = { project := project, scan := basis asF32 display project requests } := by
    induction requests using List.reverseRecOn with
    | nil => rfl
    | append_singleton requests r ih =>
      rw [List.foldl_append, ih, List.foldl_cons, List.foldl_nil, basis_concat]
      exact (attend_kept lowercase debugNames displayLabel asF32 display _ r).1
  intro b known
  refine ⟨hrun, ?_⟩
  have hb : b = { project := project, scan := basis asF32 display project requests } := hrun
  have hknown : known =
      { b with
        scan := kept b.scan r.disk.report (r.looks asF32 display b.project) (r.refreshes asF32 display) } := by
    rw [hb]
    exact congrArg (Backend.mk project) (basis_concat asF32 display project requests r)
  obtain ⟨hafter, hsame⟩ := attend_kept lowercase debugNames displayLabel asF32 display b r
  rw [← hknown] at hafter hsame
  exact Prod.ext hafter hsame.symm

end

end HikaruOpenLive.Mcp
