import HikaruOpenLive.Mcp.Prompts
import Mathlib.Data.Rat.Init

/-! # The tools of the MCP server

The catalogue says which arguments a tool takes, of what kind and which of them it has to have; `call_tool` reads
the arguments tool by tool. `parseCall_eq` says that the two agree: a call is refused exactly for the first
required argument of the catalogue that is missing or cannot be read, and carries the arguments it was given.

A 64-bit number that is no integer is a rational here, and its rounding to 32 bits a parameter, as is the way a
value is printed.
-/
set_option autoImplicit false

namespace HikaruOpenLive.Mcp

/-- `serde_json::Number`. -/
inductive Number where
  | posInt (n : UInt64)
  | negInt (n : Int64)
  | float (x : ℚ)

inductive Json where
  | null
  | bool (b : Bool)
  | number (n : Number)
  | string (s : String)
  | array (values : List Json)
  | object (fields : List (String × Json))

namespace Json

def asStr : Json → Option String
  | .string s => some s
  | _ => none

def asBool : Json → Option Bool
  | .bool b => some b
  | _ => none

def asU64 : Json → Option UInt64
  | .number (.posInt n) => some n
  | _ => none

/-- `as_f64`, of whatever is done with the number then. -/
def asNumber : Json → Option Number
  | .number n => some n
  | _ => none

end Json

/-- The arguments of a request. -/
abbrev Arguments := String → Option Json

/-! ## The catalogue -/

inductive Kind where
  | string
  | integer
  | number
  | boolean
deriving DecidableEq

structure Param where
  name : String
  kind : Kind
  required : Bool

namespace Param

def string (name : String) : Param := { name := name, kind := .string, required := true }

def optString (name : String) : Param := { string name with required := false }

def int (name : String) : Param := { name := name, kind := .integer, required := true }

def number (name : String) : Param := { name := name, kind := .number, required := true }

def optBool (name : String) : Param := { name := name, kind := .boolean, required := false }

end Param

structure ToolSpec where
  name : String
  params : List Param

def tools : List ToolSpec :=
  [{ name := "list_plugins", params := [.optBool "refrescar", .optString "formato"] },
   { name := "plugin_info", params := [.string "plugin"] },
   { name := "plugin_parameters", params := [.string "plugin"] },
   { name := "set_parameter", params := [.string "plugin", .int "indice", .number "valor"] },
   { name := "inspect_plugin_wrapper", params := [.string "plugin"] },
   { name := "decompile_plugin_stub",
     params := [.string "plugin", .optString "procedimiento", .optString "analisis"] },
   { name := "plugin_symbols", params := [.string "plugin"] },
   { name := "audit_project", params := [] },
   { name := "project_info", params := [] }]

/-! ## The handler -/

inductive ToolCall (F32 : Type) where
  | listPlugins (refrescar : Bool) (formato : Option String)
  | pluginInfo (plugin : String)
  | pluginParameters (plugin : String)
  | setParameter (plugin : String) (indice : UInt64) (valor : F32)
  | inspectWrapper (plugin : String)
  | decompileStub (plugin : String) (procedimiento : Option String) (analisis : String)
  | pluginSymbols (plugin : String)
  | auditProject
  | projectInfo

def argStr (args : Arguments) (nombre : String) : Option String :=
  (args nombre).bind Json.asStr

def argBool (args : Arguments) (nombre : String) : Option Bool :=
  (args nombre).bind Json.asBool

/-- A required argument is not there. -/
def falta (nombre herramienta : String) : McpError :=
  .invalidParams ("a la herramienta '" ++ herramienta ++ "' le falta el argumento '" ++ nombre ++ "'")

/-- A required argument is there and is something else. -/
def equivocado (display : Json → String) (nombre herramienta : String) (valor : Json) : McpError :=
  .invalidParams ("el argumento '" ++ nombre ++ "' de '" ++ herramienta ++ "' tiene un tipo equivocado: " ++
    display valor)

section

variable {F32 : Type} (asF32 : Number → F32) (display : Json → String)

def argRequerido {T : Type} (fromArgument : Json → Option T) (args : Arguments) (nombre herramienta : String) :
    Except McpError T :=
  match args nombre with
  | none => .error (falta nombre herramienta)
  | some valor =>
    match fromArgument valor with
    | none => .error (equivocado display nombre herramienta valor)
    | some t => .ok t

/-- The call as the handler reads it. -/
def parseCall (nombre : String) (args : Arguments) : Except McpError (ToolCall F32) :=
  match nombre with
  | "list_plugins" => .ok (.listPlugins ((argBool args "refrescar").getD false) (argStr args "formato"))
  | "plugin_info" => do
    return .pluginInfo (← argRequerido display Json.asStr args "plugin" nombre)
  | "plugin_parameters" => do
    return .pluginParameters (← argRequerido display Json.asStr args "plugin" nombre)
  | "set_parameter" => do
    let plugin ← argRequerido display Json.asStr args "plugin" nombre
    let indice ← argRequerido display Json.asU64 args "indice" nombre
    let valor ← argRequerido display (fun v => v.asNumber.map asF32) args "valor" nombre
    return .setParameter plugin indice valor
  | "inspect_plugin_wrapper" => do
    return .inspectWrapper (← argRequerido display Json.asStr args "plugin" nombre)
  | "decompile_plugin_stub" => do
    let plugin ← argRequerido display Json.asStr args "plugin" nombre
    return .decompileStub plugin (argStr args "procedimiento") ((argStr args "analisis").getD "analyze")
  | "plugin_symbols" => do
    return .pluginSymbols (← argRequerido display Json.asStr args "plugin" nombre)
  | "audit_project" => .ok .auditProject
  | "project_info" => .ok .projectInfo
  | otra => .error (.invalidParams ("no existe la herramienta '" ++ otra ++ "'"))

end

/-! ## The catalogue's own reading of a call -/

/-- The values that can be read as the kind; an integer has to fit into an index. -/
def Kind.Reads : Kind → Json → Bool
  | .string, v => v.asStr.isSome
  | .integer, v => v.asU64.isSome
  | .number, v => v.asNumber.isSome
  | .boolean, v => v.asBool.isSome

/-- What is wrong with a required argument. -/
def Param.fault (display : Json → String) (herramienta : String) (args : Arguments) (p : Param) :
    Option McpError :=
  match args p.name with
  | none => some (falta p.name herramienta)
  | some v => if p.kind.Reads v then none else some (equivocado display p.name herramienta v)

/-- The first thing wrong with a call, by the catalogue. -/
def refusal (display : Json → String) (nombre : String) (args : Arguments) : Option McpError :=
  match tools.find? fun t => t.name = nombre with
  | none => some (.invalidParams ("no existe la herramienta '" ++ nombre ++ "'"))
  | some spec => (spec.params.filter Param.required).findSome? (Param.fault display nombre args)

/-- The name of the tool that is called. -/
def ToolCall.herramienta {F32 : Type} : ToolCall F32 → String
  | .listPlugins _ _ => "list_plugins"
  | .pluginInfo _ => "plugin_info"
  | .pluginParameters _ => "plugin_parameters"
  | .setParameter _ _ _ => "set_parameter"
  | .inspectWrapper _ => "inspect_plugin_wrapper"
  | .decompileStub _ _ _ => "decompile_plugin_stub"
  | .pluginSymbols _ => "plugin_symbols"
  | .auditProject => "audit_project"
  | .projectInfo => "project_info"

/-- An optional text: the argument's if that is a text, and `none` for whatever else is there. -/
def Texto (args : Arguments) (nombre : String) (texto : Option String) : Prop :=
  ∀ s, texto = some s ↔ args nombre = some (.string s)

/-- The call has the values of the arguments. -/
def ToolCall.Carries {F32 : Type} (asF32 : Number → F32) (args : Arguments) : ToolCall F32 → Prop
  | .listPlugins refrescar formato =>
    (refrescar = true ↔ args "refrescar" = some (.bool true)) ∧ Texto args "formato" formato
  | .pluginInfo plugin | .pluginParameters plugin | .inspectWrapper plugin | .pluginSymbols plugin =>
    args "plugin" = some (.string plugin)
  | .setParameter plugin indice valor =>
    args "plugin" = some (.string plugin) ∧ args "indice" = some (.number (.posInt indice)) ∧
      ∃ n, args "valor" = some (.number n) ∧ valor = asF32 n
  | .decompileStub plugin procedimiento analisis =>
    args "plugin" = some (.string plugin) ∧ Texto args "procedimiento" procedimiento ∧
      ∃ texto, Texto args "analisis" texto ∧ analisis = texto.getD "analyze"
  | .auditProject | .projectInfo => True

/-! ## The handler and the catalogue agree -/

theorem Json.asStr_eq_some {v : Json} {s : String} : v.asStr = some s ↔ v = .string s := by
  cases v <;> simp [asStr]

theorem Json.asBool_eq_some {v : Json} {b : Bool} : v.asBool = some b ↔ v = .bool b := by
  cases v <;> simp [asBool]

theorem Json.asU64_eq_some {v : Json} {n : UInt64} : v.asU64 = some n ↔ v = .number (.posInt n) := by
  cases v with
  | number m => cases m <;> simp [asU64]
  | _ => simp [asU64]

theorem Json.asNumber_eq_some {v : Json} {n : Number} : v.asNumber = some n ↔ v = .number n := by
  cases v <;> simp [asNumber]

theorem argStr_texto (args : Arguments) (nombre : String) : Texto args nombre (argStr args nombre) := by
  intro s
  unfold argStr
  rw [Option.bind_eq_some_iff]
  constructor
  · rintro ⟨v, hv, hs⟩
    rw [hv, Json.asStr_eq_some.mp hs]
  · intro h
    exact ⟨_, h, rfl⟩

theorem argBool_getD (args : Arguments) (nombre : String) :
    (argBool args nombre).getD false = true ↔ args nombre = some (.bool true) := by
  unfold argBool
  cases h : args nombre with
  | none => simp
  | some v =>
    rw [Option.bind_some, Option.some.injEq, ← Json.asBool_eq_some]
    cases v.asBool with
    | none => simp
    | some b => simp

/-- What a call is refused with, if it is. -/
def refused {α : Type} : Except McpError α → Option McpError
  | .ok _ => none
  | .error e => some e

section

variable {T α : Type} {fromArgument : Json → Option T} {display : Json → String} {args : Arguments}
  {herramienta : String} {next : T → Except McpError α}

/-- A step that refuses, and then the rest. -/
theorem refused_bind {x : Except McpError T} {r : Option McpError} (hnext : ∀ t, refused (next t) = r) :
    refused (x >>= next) = (refused x).or r := by
  cases x with
  | error e => rfl
  | ok t => exact hnext t

/-- A required argument is refused as the catalogue says, if it is read as its kind is. -/
theorem refused_argRequerido (p : Param) (hkind : ∀ v, p.kind.Reads v = (fromArgument v).isSome) :
    refused (argRequerido display fromArgument args p.name herramienta) = p.fault display herramienta args := by
  unfold argRequerido Param.fault
  cases args p.name with
  | none => rfl
  | some v =>
    dsimp only
    rw [hkind v]
    cases fromArgument v with
    | none => rfl
    | some t => rfl

theorem argRequerido_ok {nombre : String} {a : α}
    (h : argRequerido display fromArgument args nombre herramienta >>= next = .ok a) :
    ∃ v t, args nombre = some v ∧ fromArgument v = some t ∧ next t = .ok a := by
  unfold argRequerido at h
  cases hv : args nombre with
  | none =>
    rw [hv] at h
    cases h
  | some v =>
    rw [hv] at h
    dsimp only at h
    cases ht : fromArgument v with
    | none =>
      rw [ht] at h
      cases h
    | some t =>
      rw [ht] at h
      exact ⟨v, t, rfl, ht, h⟩

end

variable {F32 : Type} (asF32 : Number → F32) (display : Json → String) (args : Arguments)

theorem refused_plugin (herramienta : String) :
    refused (argRequerido display Json.asStr args "plugin" herramienta) =
      (Param.string "plugin").fault display herramienta args :=
  refused_argRequerido (Param.string "plugin") fun _ => rfl

/-- A tool whose only required argument is the plugin. -/
theorem parse_plugin {α : Type} {herramienta : String} {call : String → α} :
    refused (argRequerido display Json.asStr args "plugin" herramienta >>= fun plugin => .ok (call plugin)) =
        [Param.string "plugin"].findSome? (Param.fault display herramienta args) ∧
      ∀ a, (argRequerido display Json.asStr args "plugin" herramienta >>= fun plugin => .ok (call plugin)) = .ok a →
        ∃ plugin, args "plugin" = some (.string plugin) ∧ a = call plugin := by
  constructor
  · refine (refused_bind (r := none) fun _ => rfl).trans ?_
    rw [refused_plugin, Option.or_none, List.findSome?_singleton]
  · intro a h
    obtain ⟨v, plugin, hv, ht, hnext⟩ := argRequerido_ok h
    exact ⟨plugin, by rw [hv, Json.asStr_eq_some.mp ht], (Except.ok.inj hnext).symm⟩

/-- The three arguments of `set_parameter`, in the order of the catalogue. -/
theorem parse_setParameter :
    refused (parseCall asF32 display "set_parameter" args) =
        [Param.string "plugin", Param.int "indice", Param.number "valor"].findSome?
          (Param.fault display "set_parameter" args) ∧
      ∀ call, parseCall asF32 display "set_parameter" args = .ok call →
        call.herramienta = "set_parameter" ∧ call.Carries asF32 args := by
  constructor
  · have hindice : refused (argRequerido display Json.asU64 args "indice" "set_parameter") =
        (Param.int "indice").fault display "set_parameter" args :=
      refused_argRequerido (Param.int "indice") fun _ => rfl
    have hvalor : refused (argRequerido display (fun v => v.asNumber.map asF32) args "valor" "set_parameter") =
        (Param.number "valor").fault display "set_parameter" args :=
      refused_argRequerido (Param.number "valor") fun _ => (Option.isSome_map).symm
    refine (refused_bind fun _ => refused_bind fun _ => refused_bind (r := none) fun _ => rfl).trans ?_
    rw [refused_plugin, hindice, hvalor, Option.or_none]
    simp only [List.findSome?_cons, List.findSome?_nil]
    cases Param.fault display "set_parameter" args (Param.string "plugin") with
    | some e => rfl
    | none =>
      cases Param.fault display "set_parameter" args (Param.int "indice") with
      | some e => rfl
      | none => cases Param.fault display "set_parameter" args (Param.number "valor") <;> rfl
  · intro call h
    obtain ⟨v, plugin, hv, hplugin, h⟩ := argRequerido_ok h
    obtain ⟨w, indice, hw, hindice, h⟩ := argRequerido_ok h
    obtain ⟨x, valor, hx, hvalor, h⟩ := argRequerido_ok h
    obtain ⟨n, hn, hround⟩ := Option.map_eq_some_iff.mp hvalor
    rw [← Except.ok.inj h]
    refine ⟨rfl, ?_, ?_, n, ?_, hround.symm⟩
    · rw [hv, Json.asStr_eq_some.mp hplugin]
    · rw [hw, Json.asU64_eq_some.mp hindice]
    · rw [hx, Json.asNumber_eq_some.mp hn]

/-- A call is refused exactly as the catalogue says, for the first required argument that is missing or cannot
be read; a call that is not is one of the tool asked for, with the values of the arguments. -/
theorem parseCall_eq (nombre : String) :
    refused (parseCall asF32 display nombre args) = refusal display nombre args ∧
      ∀ call, parseCall asF32 display nombre args = .ok call →
        call.herramienta = nombre ∧ call.Carries asF32 args := by
  have hplugin : ∀ {herramienta : String} {make : String → ToolCall F32},
      (∀ plugin, (make plugin).herramienta = herramienta) →
      (∀ plugin, args "plugin" = some (.string plugin) → (make plugin).Carries asF32 args) →
      ∀ call, (argRequerido display Json.asStr args "plugin" herramienta >>= fun plugin => .ok (make plugin)) =
        .ok call → call.herramienta = herramienta ∧ call.Carries asF32 args := by
    intro herramienta make hname hcarries call h
    obtain ⟨plugin, hplugin, rfl⟩ := (parse_plugin display args).2 call h
    exact ⟨hname plugin, hcarries plugin hplugin⟩
  by_cases hset : nombre = "set_parameter"
  · rw [hset]
    exact parse_setParameter asF32 display args
  unfold parseCall
  split
  · refine ⟨rfl, ?_⟩
    intro call h
    rw [← Except.ok.inj h]
    exact ⟨rfl, argBool_getD args "refrescar", argStr_texto args "formato"⟩
  · exact ⟨(parse_plugin display args).1, hplugin (fun _ => rfl) fun _ h => h⟩
  · exact ⟨(parse_plugin display args).1, hplugin (fun _ => rfl) fun _ h => h⟩
  · exact absurd rfl hset
  · exact ⟨(parse_plugin display args).1, hplugin (fun _ => rfl) fun _ h => h⟩
  · exact ⟨(parse_plugin display args).1, hplugin (fun _ => rfl) fun _ h =>
      ⟨h, argStr_texto args "procedimiento", _, argStr_texto args "analisis", rfl⟩⟩
  · exact ⟨(parse_plugin display args).1, hplugin (fun _ => rfl) fun _ h => h⟩
  · refine ⟨rfl, ?_⟩
    intro call h
    rw [← Except.ok.inj h]
    exact ⟨rfl, trivial⟩
  · refine ⟨rfl, ?_⟩
    intro call h
    rw [← Except.ok.inj h]
    exact ⟨rfl, trivial⟩
  · rename_i otra h₁ h₂ h₃ h₄ h₅ h₆ h₇ h₈ h₉
    have hnone : tools.find? (fun t => t.name = nombre) = none := by
      simp [tools, Ne.symm h₁, Ne.symm h₂, Ne.symm h₃, Ne.symm h₄, Ne.symm h₅, Ne.symm h₆, Ne.symm h₇,
        Ne.symm h₈, Ne.symm h₉]
    refine ⟨?_, ?_⟩
    · unfold refusal
      rw [hnone]
      rfl
    · intro call h
      cases h

end HikaruOpenLive.Mcp
