import HikaruOpenLive.Foundations.Replacement
import Mathlib.Data.List.Basic

/-! # The prompts of the MCP server

A prompt is a text with the markers of its arguments in it. `get_prompt` replaces the markers one after
another, in the order the catalogue declares the arguments in; so a value is looked through for the markers of
the arguments that come later. Texts are lists of characters; how a value that is no string is written is a
parameter.
-/
set_option autoImplicit false

namespace HikaruOpenLive.Mcp

open Foundations.Replacement

/-- A value of a request, as far as prompts tell them apart. -/
inductive PromptValue (Value : Type) where
  | string (s : List Char)
  | other (v : Value)

structure PromptSpec where
  name : String
  description : String
  arguments : List String
  template : String

inductive McpError where
  | invalidParams (message : String)
deriving DecidableEq

def diagnosticarFalloAudio : PromptSpec :=
  { name := "diagnosticar-fallo-audio"
    description := "Analiza un fallo de audio: xruns, conflictos de hilo y pánicos del FFI."
    arguments := ["sintoma", "plugin"]
    template := "Diagnostica este fallo de audio en Hikaru OpenLive.\n\nSíntoma: {sintoma}\nPlugin sospechoso: {plugin}\n\nRevisá el recurso `hikaru://diagnostics/last-crash` y el recurso `hikaru://plugins/telemetry`. Buscá xruns, pánicos de FFI en el wrapper del plugin y conflictos entre el hilo de audio y el hilo de render. Empezá por lo más probable y decí qué evidencia de cada afirmación." }

def reconstruirPluginRust : PromptSpec :=
  { name := "reconstruir-plugin-rust"
    description := "Mapea la interfaz de un plugin descompilado para escribir un wrapper en Rust."
    arguments := ["plugin", "objetivo"]
    template := "Reconstruí en Rust el plugin '{plugin}'.\n\nObjetivo: {objetivo}\n\nPasos sugeridos:\n1. `plugin_info` para la identidad y el ABI.\n2. `decompile_plugin_stub` para el pseudocode del punto de entrada (`GetPluginFactory` o `clap_entry`) y de las funciones de audio.\n3. `plugin_parameters` para el mapa de parámetros.\n4. Escribí un crate Rust que implemente la interfaz VST3 o CLAP del plugin.\n\nCompará cada afirmación con el pseudocode: lo que no esté en el binario, marcalo como inferencia." }

def auditarProyecto : PromptSpec :=
  { name := "auditar-proyecto"
    description := "Verifica las dependencias de un proyecto: muestras, plugins y ruteo."
    arguments := ["proyecto"]
    template := "Auditá el proyecto '{proyecto}'.\n\nUsá la herramienta `audit_project` y el recurso `hikaru://project/current`. Reportá: recursos de audio que faltan, plugins que el proyecto pide y el host no tiene, y buses de ruteo que apuntan a pistas inexistentes. Para cada problema, decí qué archivo y qué pista lo causan." }

/-- The prompts of the server, with the texts of `catalog`. -/
def prompts : List PromptSpec :=
  [diagnosticarFalloAudio, reconstruirPluginRust, auditarProyecto]

/-- `format!("{{{nombre}}}")`. -/
def marcador (nombre : String) : List Char :=
  '{' :: (nombre.toList ++ ['}'])

section

variable {Value : Type} (display : Value → List Char)

/-- What is put in place of a marker. -/
def valor (argumentos : String → Option (PromptValue Value)) (nombre : String) : List Char :=
  match argumentos nombre with
  | some (.string s) => s
  | some (.other otro) => display otro
  | none => "(sin especificar)".toList

/-- The text and the description of the prompt. -/
def getPrompt (name : String) (argumentos : String → Option (PromptValue Value)) :
    Except McpError (List Char × String) :=
  match prompts.find? fun p => p.name = name with
  | none => .error (.invalidParams ("no existe el prompt '" ++ name ++ "'"))
  | some spec =>
    let texto := spec.arguments.foldl
      (fun texto nombre => replace (marcador nombre) (valor display argumentos nombre) texto) spec.template.toList
    .ok (texto, spec.description)

end

/-! ## The texts with their holes -/

theorem toList_eq {s : String} {l : List Char} (h : String.ofList l = s) : s.toList = l := by
  rw [← h, String.toList_ofList]

def diagnosticar : Template Char String :=
  { lead := "Diagnostica este fallo de audio en Hikaru OpenLive.\n\nSíntoma: ".toList
    rest :=
      [("sintoma", '\n', "Plugin sospechoso: ".toList),
        ("plugin", '\n', "\nRevisá el recurso `hikaru://diagnostics/last-crash` y el recurso `hikaru://plugins/telemetry`. Buscá xruns, pánicos de FFI en el wrapper del plugin y conflictos entre el hilo de audio y el hilo de render. Empezá por lo más probable y decí qué evidencia de cada afirmación.".toList)] }

def reconstruir : Template Char String :=
  { lead := "Reconstruí en Rust el plugin '".toList
    rest :=
      [("plugin", '\x27', ".\n\nObjetivo: ".toList),
        ("objetivo", '\n', "\nPasos sugeridos:\n1. `plugin_info` para la identidad y el ABI.\n2. `decompile_plugin_stub` para el pseudocode del punto de entrada (`GetPluginFactory` o `clap_entry`) y de las funciones de audio.\n3. `plugin_parameters` para el mapa de parámetros.\n4. Escribí un crate Rust que implemente la interfaz VST3 o CLAP del plugin.\n\nCompará cada afirmación con el pseudocode: lo que no esté en el binario, marcalo como inferencia.".toList)] }

def auditar : Template Char String :=
  { lead := "Auditá el proyecto '".toList
    rest :=
      [("proyecto", '\x27', ".\n\nUsá la herramienta `audit_project` y el recurso `hikaru://project/current`. Reportá: recursos de audio que faltan, plugins que el proyecto pide y el host no tiene, y buses de ruteo que apuntan a pistas inexistentes. Para cada problema, decí qué archivo y qué pista lo causan.".toList)] }

/-- The template of a prompt, with a hole for each marker. -/
def holes (spec : PromptSpec) : Template Char String :=
  if spec.name = "diagnosticar-fallo-audio" then diagnosticar
  else if spec.name = "reconstruir-plugin-rust" then reconstruir
  else auditar

theorem forall_mem_prompts {P : PromptSpec → Template Char String → Prop}
    (h₁ : P diagnosticarFalloAudio diagnosticar) (h₂ : P reconstruirPluginRust reconstruir)
    (h₃ : P auditarProyecto auditar) : ∀ spec ∈ prompts, P spec (holes spec) := by
  intro spec hmem
  rcases List.mem_cons.mp hmem with rfl | hmem
  · exact h₁
  rcases List.mem_cons.mp hmem with rfl | hmem
  · exact h₂
  rw [List.mem_singleton.mp hmem]
  exact h₃

/-- The texts with the markers in the holes, one hole for each argument and in their order. -/
def Written (spec : PromptSpec) (t : Template Char String) : Prop :=
  spec.template.toList = t.fill marcador ∧ t.rest.map Prod.fst = spec.arguments

set_option maxRecDepth 8000 in
theorem template_eq_fill : ∀ spec ∈ prompts, Written spec (holes spec) := by
  apply forall_mem_prompts
  all_goals
    refine ⟨?_, rfl⟩
    unfold Template.fill marcador
  · unfold diagnosticarFalloAudio diagnosticar
    repeat rw [List.flatMap_cons]
    repeat rw [toList_eq rfl]
    rfl
  · unfold reconstruirPluginRust reconstruir
    repeat rw [List.flatMap_cons]
    repeat rw [toList_eq rfl]
    rfl
  · unfold auditarProyecto auditar
    repeat rw [List.flatMap_cons]
    repeat rw [toList_eq rfl]
    rfl

theorem notMem_toList {c : Char} {s : String} {l : List Char} (h : String.ofList l = s) (hc : c ∉ l) :
    c ∉ s.toList := by
  rwa [toList_eq h]

/-- No marker begins in the texts, and none has the character that follows a hole. -/
structure Clear (spec : PromptSpec) (t : Template Char String) : Prop where
  lead : '{' ∉ t.lead
  texts : ∀ hole ∈ t.rest, '{' ∉ hole.2.2
  edges : ∀ hole ∈ t.rest, ∀ nombre ∈ spec.arguments, hole.2.1 ∉ marcador nombre
  names : ∀ nombre ∈ spec.arguments, '{' ∉ nombre.toList ∧ '}' ∉ nombre.toList

theorem texts_cons {a c : Char} {n text : String} {rest : List (String × Char × List Char)} (h : a ∉ text.toList)
    (hrest : ∀ hole ∈ rest, a ∉ hole.2.2) : ∀ hole ∈ (n, c, text.toList) :: rest, a ∉ hole.2.2 := by
  rw [List.forall_mem_cons]
  exact ⟨h, hrest⟩

theorem texts_nil {a : Char} : ∀ hole ∈ ([] : List (String × Char × List Char)), a ∉ hole.2.2 :=
  fun _ h => absurd h List.not_mem_nil

set_option maxRecDepth 2000 in
theorem clear_holes : ∀ spec ∈ prompts, Clear spec (holes spec) := by
  apply forall_mem_prompts
  · unfold diagnosticar
    exact ⟨notMem_toList rfl (by decide), texts_cons (notMem_toList rfl (by decide))
      (texts_cons (notMem_toList rfl (by decide)) texts_nil), by decide, by decide⟩
  · unfold reconstruir
    exact ⟨notMem_toList rfl (by decide), texts_cons (notMem_toList rfl (by decide))
      (texts_cons (notMem_toList rfl (by decide)) texts_nil), by decide, by decide⟩
  · unfold auditar
    exact ⟨notMem_toList rfl (by decide), texts_cons (notMem_toList rfl (by decide)) texts_nil,
      by decide, by decide⟩

theorem Clear.guards {spec : PromptSpec} {t : Template Char String} (h : Clear spec t) {nombre : String}
    (hnombre : nombre ∈ spec.arguments) : t.Guards (marcador nombre) := by
  have hhead : ∀ a ∈ (marcador nombre).head?, a = '{' := fun a ha => (Option.some.inj ha).symm
  refine ⟨List.cons_ne_nil _ _, ?_, fun hole hmem => h.edges hole hmem nombre hnombre, ?_⟩
  · intro a ha
    rw [hhead a ha]
    exact h.lead
  · intro hole hmem a ha
    rw [hhead a ha]
    exact h.texts hole hmem

/-- A marker is no part of another. -/
theorem replace_marcador {nombre otro : String} (hne : nombre ≠ otro) (hopen : '{' ∉ otro.toList)
    (hclose : '}' ∉ otro.toList) (v : List Char) : replace (marcador nombre) v (marcador otro) = marcador otro := by
  have hnone : ¬ marcador nombre <+: marcador otro := by
    intro h
    have hinner : nombre.toList ++ ['}'] <+: otro.toList ++ ['}'] := (List.cons_prefix_cons.mp h).2
    obtain ⟨tail, htail⟩ := hinner
    have hat : (otro.toList ++ ['}'])[nombre.toList.length]? = some '}' := by
      rw [← htail, List.append_assoc, List.getElem?_append_right le_rfl, Nat.sub_self]
      rfl
    have hlength : nombre.toList.length = otro.toList.length := by
      rcases Nat.lt_trichotomy nombre.toList.length otro.toList.length with hlt | heq | hgt
      · rw [List.getElem?_append_left hlt] at hat
        exact absurd (List.mem_of_getElem? hat) hclose
      · exact heq
      · have := congrArg List.length htail
        simp only [List.length_append, List.length_singleton] at this
        omega
    rw [List.append_assoc] at htail
    exact hne (String.toList_inj.mp (List.append_inj htail hlength).1)
  have hrest : '{' ∉ otro.toList ++ ['}'] := by simp [hopen]
  have hkeep : replace (marcador nombre) v (otro.toList ++ ['}']) = otro.toList ++ ['}'] :=
    replace_of_notMem rfl hrest
  show replace (marcador nombre) v ('{' :: (otro.toList ++ ['}'])) = '{' :: (otro.toList ++ ['}'])
  rw [replace_cons hnone, hkeep]

/-- What ends in the hole of an argument: its value, looked through for the markers of the later ones. -/
def filled (names : List String) (valor : String → List Char) (nombre : String) : List Char :=
  ((names.dropWhile (· ≠ nombre)).drop 1).foldl
    (fun texto otro => replace (marcador otro) (valor otro) texto) (valor nombre)

/-- A value without an opening brace ends in its hole as it is. -/
theorem filled_eq {names : List String} {valor : String → List Char} {nombre : String}
    (h : '{' ∉ valor nombre) : filled names valor nombre = valor nombre := by
  unfold filled
  generalize (names.dropWhile (· ≠ nombre)).drop 1 = after
  induction after with
  | nil => rfl
  | cons otro after ih =>
    have hkeep : replace (marcador otro) (valor otro) (valor nombre) = valor nombre := replace_of_notMem rfl h
    rw [List.foldl_cons, hkeep, ih]

theorem foldl_marcador {names : List String}
    (hclear : ∀ n ∈ names, '{' ∉ n.toList ∧ '}' ∉ n.toList) (valor : String → List Char) {nombre : String}
    (hmem : nombre ∈ names) :
    names.foldl (fun texto n => replace (marcador n) (valor n) texto) (marcador nombre) =
      filled names valor nombre := by
  obtain ⟨before, after, hnames, hbefore⟩ := List.eq_append_cons_of_mem hmem
  have hdrop : (names.dropWhile (· ≠ nombre)).drop 1 = after := by
    have hall : ∀ n ∈ before, decide (n ≠ nombre) = true := by
      intro n hn
      exact decide_eq_true fun h => hbefore (h ▸ hn)
    rw [hnames, List.dropWhile_append_of_pos hall, List.dropWhile_cons_of_neg (by simp)]
    rfl
  unfold filled
  rw [hdrop, hnames]
  refine foldl_replace_word marcador valor (List.cons_ne_nil _ _) ?_
  intro m hm v
  have hne : m ≠ nombre := fun h => hbefore (h ▸ hm)
  exact replace_marcador hne (hclear nombre hmem).1 (hclear nombre hmem).2 v

theorem Template.fill_congr {t : Template Char String} {content content' : String → List Char}
    (h : ∀ n ∈ t.rest.map Prod.fst, content n = content' n) : t.fill content = t.fill content' := by
  unfold Template.fill
  congr 1
  refine List.flatMap_congr ?_
  intro hole hmem
  rw [h hole.1 (List.mem_map_of_mem hmem)]

theorem find?_prompts : ∀ spec ∈ prompts, prompts.find? (fun p => p.name = spec.name) = some spec := by
  apply forall_mem_prompts (P := fun spec _ => prompts.find? (fun p => p.name = spec.name) = some spec)
  all_goals rfl

variable {Value : Type}

theorem getPrompt_fill (display : Value → List Char) {spec : PromptSpec} (hspec : spec ∈ prompts)
    (argumentos : String → Option (PromptValue Value)) :
    getPrompt display spec.name argumentos =
      .ok ((holes spec).fill (filled spec.arguments (valor display argumentos)), spec.description) := by
  obtain ⟨htemplate, hnames⟩ := template_eq_fill spec hspec
  have hclear := clear_holes spec hspec
  have hrender := Template.foldl_replace_fill marcador (valor display argumentos) (t := holes spec)
    (fun n hn => hclear.guards hn) marcador
  have hholes : (holes spec).fill (fun hole => spec.arguments.foldl
      (fun texto n => replace (marcador n) (valor display argumentos n) texto) (marcador hole)) =
      (holes spec).fill (filled spec.arguments (valor display argumentos)) := by
    refine Template.fill_congr ?_
    intro n hn
    rw [hnames] at hn
    exact foldl_marcador hclear.names _ hn
  unfold getPrompt
  rw [find?_prompts spec hspec]
  dsimp only
  rw [htemplate, hrender, hholes]

/-- A prompt is answered exactly if the catalogue has it. Its text is the template with a value for each marker,
and in a value only the markers of later arguments are replaced: values without an opening brace are all there
as they are. -/
theorem getPrompt_eq_fill (display : Value → List Char) (name : String)
    (argumentos : String → Option (PromptValue Value)) :
    (∀ spec ∈ prompts, spec.name = name →
      spec.template.toList = (holes spec).fill marcador ∧
      getPrompt display name argumentos =
        .ok ((holes spec).fill (filled spec.arguments (valor display argumentos)), spec.description) ∧
      ((∀ n ∈ spec.arguments, '{' ∉ valor display argumentos n) → getPrompt display name argumentos =
        .ok ((holes spec).fill (valor display argumentos), spec.description))) ∧
    ((∀ spec ∈ prompts, spec.name ≠ name) →
      getPrompt display name argumentos = .error (.invalidParams ("no existe el prompt '" ++ name ++ "'"))) := by
  constructor
  · rintro spec hspec rfl
    have hfill := getPrompt_fill display hspec argumentos
    obtain ⟨htemplate, hnames⟩ := template_eq_fill spec hspec
    refine ⟨htemplate, hfill, ?_⟩
    intro hplain
    rw [hfill]
    have hsame : (holes spec).fill (filled spec.arguments (valor display argumentos)) =
        (holes spec).fill (valor display argumentos) := by
      refine Template.fill_congr ?_
      intro n hn
      rw [hnames] at hn
      exact filled_eq (hplain n hn)
    rw [hsame]
  · intro hnone
    have hfind : prompts.find? (fun p => p.name = name) = none := by
      rw [List.find?_eq_none]
      intro spec hspec
      simpa using hnone spec hspec
    unfold getPrompt
    rw [hfind]

end HikaruOpenLive.Mcp
