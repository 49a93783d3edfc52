import HikaruOpenLive.Foundations.Upsert
import HikaruOpenLive.Foundations.Words
import HikaruOpenLive.Gui.ProjectDocuments

/-! # The reports of the decompiler script

The server runs a script in a headless Ghidra and reads what it printed back out of the log: the script
marks its lines, `HIKARU_` and a key, and the parser finds the marks behind whatever the log puts in front
of them. A line of a key enters its value in the report (`parseLine_key`), and the numbered pieces of the
list of the functions are taken out of it and put together (`takeChunks_fst`, `get_takeChunks`). Texts are
lists of characters; which characters are letters or digits in the name of a script is a parameter.
-/
set_option autoImplicit false

namespace HikaruOpenLive.Mcp.Ghidra

open Foundations Foundations.Words
open Gui (isWhitespace trim)

/-! ## Reports -/

inductive ReportValue where
  | string (s : List Char)
  | array (xs : List (List Char))
deriving DecidableEq

/-- `serde_json::Map` -/
abbrev Report := List (List Char × ReportValue)

namespace Report

def get (r : Report) (key : List Char) : Option ReportValue :=
  (Upsert.lookup Prod.fst r key).map Prod.snd

def insert (r : Report) (key : List Char) (value : ReportValue) : Report :=
  Upsert.upsert Prod.fst (key, value) r

def remove (r : Report) (key : List Char) : Report :=
  r.filter fun e => e.1 ≠ key

end Report

/-! ## Texts -/

def hikaru : List Char := "HIKARU_".toList

def stripCr (line : List Char) : List Char :=
  if line.getLast? = some '\r' then line.dropLast else line

/-- `str::lines` -/
def lines (text : List Char) : List (List Char) :=
  let parts := text.splitOn '\n'
  (if parts.getLast? = some [] then parts.dropLast else parts).map stripCr

def joinWith (sep : Char) (texts : List (List Char)) : List Char :=
  [sep].intercalate texts

/-- `str::strip_prefix` -/
def stripPrefix (start text : List Char) : Option (List Char) :=
  if start.isPrefixOf text then some (text.drop start.length) else none

theorem length_lt_of_stripPrefix {start text rest : List Char} (hstart : start ≠ [])
    (h : stripPrefix start text = some rest) : rest.length < text.length := by
  unfold stripPrefix at h
  split at h
  case isTrue hstarts =>
    cases h
    have hlength := (List.isPrefixOf_iff_prefix.mp hstarts).length_le
    have hpos := List.length_pos_iff.mpr hstart
    rw [List.length_drop]
    omega
  case isFalse => cases h

/-- `str::trim_start_matches`, of the mark. -/
def trimMark (text : List Char) : List Char :=
  match _h : stripPrefix hikaru text with
  | some rest => trimMark rest
  | none => text
termination_by text.length
decreasing_by exact length_lt_of_stripPrefix (by decide) _h

/-- `str::find` -/
def findText (pattern : List Char) : List Char → Option ℕ
  | [] => if pattern = [] then some 0 else none
  | a :: text => if pattern.isPrefixOf (a :: text) then some 0 else (findText pattern text).map (· + 1)

/-! ## The parser -/

def logLevels : List (List Char) :=
  ["INFO".toList, "ERROR".toList, "WARN".toList, "DEBUG".toList]

def sinPrefijoDeLog (alphanumeric : Char → Bool) (linea : List Char) : List Char :=
  let resto := linea.dropWhile isWhitespace
  let resto := match logLevels.findSome? fun nivel => stripPrefix nivel resto with
    | some r => r.dropWhile isWhitespace
    | none => resto
  match findText ".java>".toList resto with
  | some pos =>
    let nombre := resto.take pos
    if !nombre.isEmpty && nombre.all fun c => alphanumeric c || c == '_' || c == '.' || c == '-' then
      (resto.drop (pos + ".java>".toList.length)).dropWhile isWhitespace
    else resto
  | none => resto

structure ParseState where
  resultado : Report
  codigo : Option (List Char)
  enCodigo : Bool
  lineasCodigo : List (List Char)

def ParseState.new : ParseState :=
  { resultado := [], codigo := none, enCodigo := false, lineasCodigo := [] }

def marcador (recortada : List Char) : List Char :=
  ((words isWhitespace recortada).find? fun t => hikaru.isPrefixOf t).getD []

/-- The first word with a value, when its key is marked. -/
def claveValor (recortada : List Char) : Option (List Char × List Char) :=
  ((words isWhitespace recortada).findSome? (splitOnce '=')).filter fun p => hikaru.isPrefixOf p.1

def parseLine (alphanumeric : Char → Bool) (s : ParseState) (linea : List Char) : ParseState :=
  let recortada := trim linea
  let m := marcador recortada
  if m = "HIKARU_CODE_BEGIN".toList then { s with enCodigo := true, lineasCodigo := [] }
  else if m = "HIKARU_CODE_END".toList then
    { s with
      enCodigo := false
      resultado := s.resultado.insert "CODE".toList (.string (joinWith '\n' s.lineasCodigo)) }
  else if s.enCodigo then
    { s with lineasCodigo := s.lineasCodigo ++ [sinPrefijoDeLog alphanumeric recortada] }
  else
    match claveValor recortada with
    | none => s
    | some (clave, valor) =>
      let clave := trimMark clave
      if clave = "CODE".toList then { s with codigo := some (joinWith '\n' s.lineasCodigo) }
      else { s with resultado := s.resultado.insert clave (.string valor) }

/-- A list between commas becomes an array. -/
def listKey (r : Report) (clave : List Char) : Report :=
  match r.get clave with
  | some (.string texto) => r.insert clave (.array (listed ',' texto))
  | _ => r

def chunkKey (chunk : ℕ) : List Char :=
  "FUNCS_".toList ++ Nat.toDigits 10 chunk

def ReportValue.entries : ReportValue → List (List Char)
  | .string texto => listed ',' texto
  | .array _ => []

theorem Report.length_remove_lt {r : Report} {key : List Char} {v : ReportValue} (h : r.get key = some v) :
    (r.remove key).length < r.length := by
  obtain ⟨e, he, -⟩ := Option.map_eq_some_iff.mp h
  refine List.length_filter_lt_length_iff_exists.mpr ⟨e, List.mem_of_find?_eq_some he, ?_⟩
  rw [decide_eq_true_eq, not_not]
  exact Upsert.key_of_lookup he

/-- Takes the pieces of the list of the functions out, one after the other. -/
def takeChunks (r : Report) (chunk : ℕ) (todas : List (List Char)) : List (List Char) × Report :=
  match _h : r.get (chunkKey chunk) with
  | some v => takeChunks (r.remove (chunkKey chunk)) (chunk + 1) (todas ++ v.entries)
  | none => (todas, r)
termination_by r.length
decreasing_by exact Report.length_remove_lt _h

def ParseState.finish (s : ParseState) : Option Report :=
  let resultado := match s.codigo with
    | some codigo => s.resultado.insert "CODE".toList (.string codigo)
    | none => s.resultado
  if resultado.isEmpty then none
  else
    let resultado := ["EXPORTS".toList, "FUNC_LIST".toList, "STRING_LIST".toList].foldl listKey resultado
    let (todas, resultado) := takeChunks resultado 0 []
    some (if todas.isEmpty then resultado else resultado.insert "FUNCS".toList (.array todas))

def parsear (alphanumeric : Char → Bool) (texto : List Char) : Option Report :=
  ((lines texto).foldl (parseLine alphanumeric) ParseState.new).finish

/-! ## What a report holds -/

theorem Report.get_insert (r : Report) (key : List Char) (v : ReportValue) (k : List Char) :
    (r.insert key v).get k = if k = key then some v else r.get k := by
  unfold Report.get Report.insert
  rw [Upsert.lookup_upsert]
  split
  · rfl
  · rfl

theorem Report.get_remove (r : Report) (key k : List Char) :
    (r.remove key).get k = if k = key then none else r.get k := by
  unfold Report.get Report.remove Upsert.lookup
  rw [List.find?_filter]
  split
  case isTrue hk =>
    rw [List.find?_eq_none.mpr, Option.map_none]
    intro e _ he
    simp only [decide_eq_true_eq, beq_iff_eq] at he
    exact he.1 (he.2.trans hk)
  case isFalse hk =>
    congr 2
    funext e
    by_cases he : e.1 = k
    · simp [he, hk]
    · simp [he]

/-- `r` with the entries of `kvs` put in, one after the other. -/
def Report.insertAll (r : Report) (kvs : List (List Char × ReportValue)) : Report :=
  kvs.foldl (fun r p => r.insert p.1 p.2) r

theorem Report.get_insertAll {kvs : List (List Char × ReportValue)} (hkeys : (kvs.map Prod.fst).Nodup)
    {key : List Char} {v : ReportValue} (h : (key, v) ∈ kvs) (r : Report) : (r.insertAll kvs).get key = some v := by
  induction kvs using List.reverseRecOn with
  | nil => cases h
  | append_singleton kvs p ih =>
    rw [List.map_append, List.map_singleton, List.nodup_append] at hkeys
    have hstep : r.insertAll (kvs ++ [p]) = (r.insertAll kvs).insert p.1 p.2 := List.foldl_concat ..
    rw [hstep, Report.get_insert]
    obtain h | h := List.mem_append.mp h
    · have hne : key ≠ p.1 := hkeys.2.2 key (List.mem_map_of_mem h) p.1 List.mem_cons_self
      rw [if_neg hne, ih hkeys.1 h]
    · cases List.mem_singleton.mp h
      rw [if_pos rfl]

theorem Report.get_insertAll_of_notMem {kvs : List (List Char × ReportValue)} {key : List Char}
    (h : key ∉ kvs.map Prod.fst) (r : Report) : (r.insertAll kvs).get key = r.get key := by
  induction kvs generalizing r with
  | nil => rfl
  | cons p kvs ih =>
    rw [List.map_cons, List.mem_cons, not_or] at h
    exact (ih h.2 _).trans ((r.get_insert p.1 p.2 key).trans (if_neg h.1))

/-! ## The pieces of the list of the functions -/

theorem chunkKey_injective : Function.Injective chunkKey := by
  intro m n h
  have hdigits : Nat.toDigits 10 m = Nat.toDigits 10 n := List.append_cancel_left h
  rw [← Nat.ofDigitChars_ten_toDigits (n := m), hdigits, Nat.ofDigitChars_ten_toDigits]

/-- The pieces are taken out in order and joined, whatever else the report holds. -/
theorem takeChunks_fst {r : Report} {groups : List (List (List Char))} {chunk : ℕ}
    (hgroups : ∀ g ∈ groups, ∀ t ∈ g, ',' ∉ t ∧ t ≠ [])
    (h : ∀ i, r.get (chunkKey (chunk + i)) = groups[i]?.map fun g => .string (joinWith ',' g))
    (todas : List (List Char)) : (takeChunks r chunk todas).1 = todas ++ groups.flatten := by
  induction groups generalizing r chunk todas with
  | nil =>
    have hnone : r.get (chunkKey chunk) = none := h 0
    rw [takeChunks]
    split
    case h_1 v hv => rw [hnone] at hv; cases hv
    case h_2 => rw [List.flatten_nil, List.append_nil]
  | cons g groups ih =>
    have hfirst : r.get (chunkKey chunk) = some (.string (joinWith ',' g)) := h 0
    have hentries : (ReportValue.string (joinWith ',' g)).entries = g :=
      listed_intercalate (fun t ht => (hgroups g List.mem_cons_self t ht).1)
        fun t ht => (hgroups g List.mem_cons_self t ht).2
    have hrest : ∀ i, (r.remove (chunkKey chunk)).get (chunkKey (chunk + 1 + i)) =
        groups[i]?.map fun g => .string (joinWith ',' g) := by
      intro i
      have hne : chunkKey (chunk + 1 + i) ≠ chunkKey chunk := fun heq => by
        have := chunkKey_injective heq
        omega
      rw [Report.get_remove, if_neg hne, Nat.add_assoc, Nat.add_comm 1 i, h (i + 1), List.getElem?_cons_succ]
    rw [takeChunks]
    split
    case h_1 v hv =>
      rw [hfirst] at hv
      cases hv
      rw [ih (fun g' hg' => hgroups g' (List.mem_cons_of_mem g hg')) hrest, hentries, List.flatten_cons,
        List.append_assoc]
    case h_2 hv => rw [hfirst] at hv; cases hv

theorem get_takeChunks_of_ne (r : Report) (chunk : ℕ) (todas : List (List Char)) {key : List Char}
    (hkey : ∀ i, key ≠ chunkKey i) : (takeChunks r chunk todas).2.get key = r.get key := by
  induction r, chunk, todas using takeChunks.induct with
  | case1 r chunk todas v hv ih =>
    rw [takeChunks]
    split
    case h_1 w hw =>
      cases hv.symm.trans hw
      rw [ih, Report.get_remove, if_neg (hkey chunk)]
    case h_2 hnone => cases hv.symm.trans hnone
  | case2 r chunk todas hnone =>
    rw [takeChunks]
    split
    case h_1 v hv => cases hv.symm.trans hnone
    case h_2 => rfl

/-- Pieces that are numbered without a gap are all taken out. -/
theorem get_takeChunks {r : Report} {count chunk : ℕ}
    (h : ∀ i, (r.get (chunkKey i)).isSome ↔ chunk ≤ i ∧ i < chunk + count) (todas : List (List Char)) (i : ℕ) :
    (takeChunks r chunk todas).2.get (chunkKey i) = none := by
  induction count generalizing r chunk todas with
  | zero =>
    have hnone : ∀ i, r.get (chunkKey i) = none := by
      intro i
      rw [← Option.not_isSome_iff_eq_none, h i]
      omega
    rw [takeChunks]
    split
    case h_1 v hv => cases hv.symm.trans (hnone chunk)
    case h_2 => exact hnone i
  | succ count ih =>
    have hfirst : (r.get (chunkKey chunk)).isSome := (h chunk).mpr (by omega)
    have hrest : ∀ i, ((r.remove (chunkKey chunk)).get (chunkKey i)).isSome ↔
        chunk + 1 ≤ i ∧ i < chunk + 1 + count := by
      intro i
      rw [Report.get_remove]
      split
      case isTrue hi =>
        have := chunkKey_injective hi
        simp only [Option.isSome_none, Bool.false_eq_true, false_iff]
        omega
      case isFalse hi =>
        have : i ≠ chunk := fun heq => hi (by rw [heq])
        rw [h i]
        omega
    rw [takeChunks]
    split
    case h_1 w hw => exact ih hrest _
    case h_2 hnone =>
      rw [hnone] at hfirst
      cases hfirst

/-! ## Lines of a log -/

/-- The form in which a text without blanks is checked. -/
theorem blankless_of_all {text : List Char} (h : text.all (fun c => !isWhitespace c) = true) :
    ∀ c ∈ text, isWhitespace c = false := by
  intro c hc
  simpa using List.all_eq_true.mp h c hc

theorem hikaru_blankless : ∀ c ∈ hikaru, isWhitespace c = false :=
  blankless_of_all (by decide)

/-- No word of the text is a mark. -/
def Unmarked (text : List Char) : Prop :=
  ∀ w ∈ words isWhitespace text, hikaru.isPrefixOf w = false

/-- What a log writes around a message, kept off it by a blank. -/
structure LogFormat where
  pre : List Char
  post : List Char
  pre_blank : pre = [] ∨ ∃ xs b, isWhitespace b = true ∧ pre = xs ++ [b]
  post_blank : post = [] ∨ ∃ b ys, isWhitespace b = true ∧ post = b :: ys
  pre_unmarked : Unmarked pre
  post_unmarked : Unmarked post
  pre_keyless : ∀ w ∈ words isWhitespace pre, '=' ∉ w

def LogFormat.line (log : LogFormat) (msg : List Char) : List Char :=
  log.pre ++ msg ++ log.post

theorem unmarked_of_all {text : List Char}
    (h : (words isWhitespace text).all (fun w => !hikaru.isPrefixOf w) = true) : Unmarked text := by
  intro w hw
  simpa using List.all_eq_true.mp h w hw

theorem words_trim (text : List Char) : words isWhitespace (trim text) = words isWhitespace text :=
  words_trimmed text

theorem marcador_of_unmarked {text : List Char} (h : Unmarked text) : marcador (trim text) = [] := by
  rw [marcador, words_trim, List.find?_eq_none.mpr, Option.getD_none]
  intro w hw
  rw [h w hw]
  exact Bool.false_ne_true

/-- A word with a value and no mark in front is all that keeps a line from having a key. -/
theorem claveValor_eq_none {text : List Char}
    (h : ∀ w ∈ words isWhitespace text, '=' ∈ w → hikaru.isPrefixOf w = false) : claveValor (trim text) = none := by
  rw [claveValor, words_trim, Option.filter_eq_none_iff]
  rintro ⟨clave, valor⟩ hp hclave
  obtain ⟨w, hw, hsplit⟩ := List.exists_of_findSome?_eq_some hp
  have hword := eq_of_splitOnce hsplit
  have hmark := h w hw (by rw [hword]; exact List.mem_append_right clave List.mem_cons_self)
  obtain ⟨rest, hrest⟩ := List.isPrefixOf_iff_prefix.mp hclave
  have hstarts : hikaru.isPrefixOf w = true :=
    List.isPrefixOf_iff_prefix.mpr ⟨rest ++ '=' :: valor, by rw [← List.append_assoc, hrest, hword]⟩
  rw [hstarts] at hmark
  cases hmark

/-- A message whose first word is `w` has its words between those of the log. -/
theorem LogFormat.words_line (log : LogFormat) {w more : List Char} (hw : ∀ c ∈ w, isWhitespace c = false)
    (hne : w ≠ []) (hmore : more = [] ∨ ∃ b ys, isWhitespace b = true ∧ more = b :: ys) :
    words isWhitespace (log.line (w ++ more)) =
      words isWhitespace log.pre ++ w :: words isWhitespace (more ++ log.post) := by
  have hpost : more ++ log.post = [] ∨ ∃ b ys, isWhitespace b = true ∧ more ++ log.post = b :: ys := by
    obtain rfl | ⟨b, ys, hb, rfl⟩ := hmore
    · exact log.post_blank
    · exact Or.inr ⟨b, ys ++ log.post, hb, rfl⟩
  have hline : log.line (w ++ more) = log.pre ++ w ++ (more ++ log.post) := by
    rw [LogFormat.line, List.append_assoc, List.append_assoc, List.append_assoc]
  rw [hline, words_between log.pre_blank hpost hw hne]

theorem LogFormat.marcador_line (log : LogFormat) {w more : List Char} (hw : ∀ c ∈ w, isWhitespace c = false)
    (hmark : hikaru.isPrefixOf w = true) (hmore : more = [] ∨ ∃ b ys, isWhitespace b = true ∧ more = b :: ys) :
    marcador (trim (log.line (w ++ more))) = w := by
  have hne : w ≠ [] := by
    rintro rfl
    cases hmark
  have hpre : (words isWhitespace log.pre).find? (fun t => hikaru.isPrefixOf t) = none := by
    rw [List.find?_eq_none]
    intro t ht
    rw [log.pre_unmarked t ht]
    exact Bool.false_ne_true
  rw [marcador, words_trim, log.words_line hw hne hmore, List.find?_append, hpre, Option.none_or,
    List.find?_cons_of_pos hmark, Option.getD_some]

/-- A key that the parser leaves as it is. -/
structure PlainKey (key : List Char) : Prop where
  no_blank : ∀ c ∈ key, isWhitespace c = false
  no_equals : '=' ∉ key
  unmarked : hikaru.isPrefixOf key = false
  ne_code : key ≠ "CODE".toList

theorem plainKey_iff {key : List Char} : PlainKey key ↔ (key.all (fun c => !isWhitespace c) = true ∧ '=' ∉ key) ∧
    hikaru.isPrefixOf key = false ∧ key ≠ "CODE".toList := by
  constructor
  · intro h
    refine ⟨⟨List.all_eq_true.mpr fun c hc => ?_, h.no_equals⟩, h.unmarked, h.ne_code⟩
    rw [h.no_blank c hc]
    rfl
  · intro h
    exact ⟨blankless_of_all h.1.1, h.1.2, h.2.1, h.2.2⟩

instance (key : List Char) : Decidable (PlainKey key) :=
  decidable_of_iff _ plainKey_iff.symm

theorem PlainKey.trimMark {key : List Char} (h : PlainKey key) : trimMark (hikaru ++ key) = key := by
  have hfirst : stripPrefix hikaru (hikaru ++ key) = some key := by
    rw [stripPrefix, if_pos (List.isPrefixOf_iff_prefix.mpr (List.prefix_append hikaru key)), List.drop_left]
  have hsecond : stripPrefix hikaru key = none := by
    rw [stripPrefix, h.unmarked]
    rfl
  rw [Ghidra.trimMark]
  split
  case h_1 rest hrest =>
    cases hfirst.symm.trans hrest
    rw [Ghidra.trimMark]
    split
    case h_1 rest hrest => cases hsecond.symm.trans hrest
    case h_2 => rfl
  case h_2 hnone => cases hfirst.symm.trans hnone

/-! ## What one line does -/

def keyLine (key value : List Char) : List Char :=
  hikaru ++ key ++ '=' :: value

/-- What the parser keeps of a value. -/
def firstWord (value : List Char) : List Char :=
  value.takeWhile fun c => !isWhitespace c

theorem firstWord_eq_self {value : List Char} (h : ∀ c ∈ value, isWhitespace c = false) : firstWord value = value := by
  rw [firstWord, List.takeWhile_eq_self_iff]
  intro c hc
  rw [h c hc]
  rfl

theorem keyLine_eq (key value : List Char) :
    keyLine key value = keyLine key (firstWord value) ++ value.dropWhile fun c => !isWhitespace c := by
  have hvalue := List.takeWhile_append_dropWhile (p := fun c => !isWhitespace c) (l := value)
  unfold keyLine firstWord
  rw [List.append_assoc _ (_ :: _), List.cons_append, hvalue]

theorem dropWhile_blank (value : List Char) : (value.dropWhile fun c => !isWhitespace c) = [] ∨
    ∃ b ys, isWhitespace b = true ∧ (value.dropWhile fun c => !isWhitespace c) = b :: ys := by
  cases hrest : value.dropWhile fun c => !isWhitespace c with
  | nil => exact Or.inl rfl
  | cons b ys =>
    have hb := List.head_dropWhile_not (fun c => !isWhitespace c) (l := value) (by rw [hrest]; exact List.cons_ne_nil b ys)
    simp only [hrest, List.head_cons, Bool.not_eq_false'] at hb
    exact Or.inr ⟨b, ys, hb, rfl⟩

theorem keyLine_no_blank {key value : List Char} (hkey : PlainKey key) :
    ∀ c ∈ keyLine key (firstWord value), isWhitespace c = false := by
  intro c hc
  unfold keyLine at hc
  obtain hc | hc := List.mem_append.mp hc
  · obtain hc | hc := List.mem_append.mp hc
    · exact hikaru_blankless c hc
    · exact hkey.no_blank c hc
  · obtain rfl | hc := List.mem_cons.mp hc
    · decide
    · simpa using List.mem_takeWhile_imp hc

theorem splitOnce_keyLine {key : List Char} (hkey : PlainKey key) (value : List Char) :
    splitOnce '=' (keyLine key value) = some (hikaru ++ key, value) := by
  refine splitOnce_append ?_ value
  rw [List.mem_append, not_or]
  exact ⟨by decide, hkey.no_equals⟩

theorem claveValor_keyLine (log : LogFormat) {key : List Char} (hkey : PlainKey key) (value : List Char) :
    claveValor (trim (log.line (keyLine key value))) = some (hikaru ++ key, firstWord value) := by
  have hne : keyLine key (firstWord value) ≠ [] := by
    rintro h
    cases h
  have hpre : (words isWhitespace log.pre).findSome? (splitOnce '=') = none := by
    rw [List.findSome?_eq_none_iff]
    intro w hw
    exact splitOnce_eq_none (log.pre_keyless w hw)
  have hstarts : hikaru.isPrefixOf (hikaru ++ key) = true :=
    List.isPrefixOf_iff_prefix.mpr (List.prefix_append hikaru key)
  rw [claveValor, words_trim, keyLine_eq, log.words_line (keyLine_no_blank hkey) hne (dropWhile_blank value),
    List.findSome?_append, hpre, Option.none_or, List.findSome?_cons, splitOnce_keyLine hkey]
  simp only [Option.filter_some, hstarts, if_true]

/-- A line of a key enters the first word of its value. -/
theorem parseLine_key (alphanumeric : Char → Bool) (log : LogFormat) {s : ParseState} (hs : s.enCodigo = false)
    {key : List Char} (hkey : PlainKey key) (value : List Char) :
    parseLine alphanumeric s (log.line (keyLine key value)) =
      { s with resultado := s.resultado.insert key (.string (firstWord value)) } := by
  have hmark : hikaru.isPrefixOf (keyLine key (firstWord value)) = true :=
    List.isPrefixOf_iff_prefix.mpr ⟨key ++ '=' :: firstWord value, (List.append_assoc ..).symm⟩
  have hmarcador : marcador (trim (log.line (keyLine key value))) = keyLine key (firstWord value) := by
    rw [keyLine_eq]
    exact log.marcador_line (keyLine_no_blank hkey) hmark (dropWhile_blank value)
  have hequals : '=' ∈ keyLine key (firstWord value) := List.mem_append_right _ List.mem_cons_self
  have hbegin : keyLine key (firstWord value) ≠ "HIKARU_CODE_BEGIN".toList := fun h => by
    rw [h] at hequals
    revert hequals
    decide
  have hend : keyLine key (firstWord value) ≠ "HIKARU_CODE_END".toList := fun h => by
    rw [h] at hequals
    revert hequals
    decide
  rw [parseLine]
  simp only [hmarcador, if_neg hbegin, if_neg hend, hs, Bool.false_eq_true, if_false, claveValor_keyLine log hkey,
    hkey.trimMark, if_neg hkey.ne_code]

/-- A line without a mark leaves the report as it is. -/
theorem parseLine_unmarked (alphanumeric : Char → Bool) {s : ParseState} (hs : s.enCodigo = false)
    {linea : List Char} (h : Unmarked linea) : parseLine alphanumeric s linea = s := by
  have hclave : claveValor (trim linea) = none := claveValor_eq_none fun w hw _ => h w hw
  rw [parseLine]
  simp only [marcador_of_unmarked h, hs, hclave, Bool.false_eq_true, if_false]
  rfl

/-- Nor does a mark without a key, unless it is one of the two around the code. -/
theorem parseLine_mark (alphanumeric : Char → Bool) (log : LogFormat) {s : ParseState} (hs : s.enCodigo = false)
    {mark : List Char} (hmark : PlainKey mark) (hbegin : mark ≠ "CODE_BEGIN".toList)
    (hend : mark ≠ "CODE_END".toList) : parseLine alphanumeric s (log.line (hikaru ++ mark)) = s := by
  have hblank : ∀ c ∈ hikaru ++ mark, isWhitespace c = false := by
    intro c hc
    obtain hc | hc := List.mem_append.mp hc
    · exact hikaru_blankless c hc
    · exact hmark.no_blank c hc
  have hstarts : hikaru.isPrefixOf (hikaru ++ mark) = true :=
    List.isPrefixOf_iff_prefix.mpr (List.prefix_append hikaru mark)
  have hmarcador : marcador (trim (log.line (hikaru ++ mark))) = hikaru ++ mark := by
    have hline := log.marcador_line hblank hstarts (Or.inl (rfl : ([] : List Char) = []))
    rwa [List.append_nil] at hline
  have hclave : claveValor (trim (log.line (hikaru ++ mark))) = none := by
    refine claveValor_eq_none fun w hw hequals => ?_
    have hwords := log.words_line hblank (List.append_ne_nil_of_left_ne_nil (by decide) mark)
      (Or.inl (rfl : ([] : List Char) = []))
    rw [List.append_nil, List.nil_append] at hwords
    rw [hwords, List.mem_append, List.mem_cons] at hw
    obtain hw | rfl | hw := hw
    · exact log.pre_unmarked w hw
    · obtain hequals | hequals := List.mem_append.mp hequals
      · exact absurd hequals (by decide)
      · exact absurd hequals hmark.no_equals
    · exact log.post_unmarked w hw
  have hcodeBegin : hikaru ++ mark ≠ "HIKARU_CODE_BEGIN".toList := fun h => hbegin (List.append_cancel_left h)
  have hcodeEnd : hikaru ++ mark ≠ "HIKARU_CODE_END".toList := fun h => hend (List.append_cancel_left h)
  rw [parseLine]
  simp only [hmarcador, if_neg hcodeBegin, if_neg hcodeEnd, hs, hclave, Bool.false_eq_true, if_false]

end HikaruOpenLive.Mcp.Ghidra
