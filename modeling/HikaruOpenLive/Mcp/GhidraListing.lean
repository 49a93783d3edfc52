import HikaruOpenLive.Foundations.Interleave
import HikaruOpenLive.Mcp.GhidraReports

/-! # The list of the functions, printed and read back

Asked for the functions of a program, the script prints them in numbered pieces, since the log cuts long
lines. What it prints is the list cut into groups (`Listing.Covers`), and the parser, reading the log with
whatever else is in it, puts the groups together again (`parsear_functions`).
-/
set_option autoImplicit false

namespace HikaruOpenLive.Mcp.Ghidra

open Foundations Foundations.Words
open Gui (isWhitespace)

/-! ## The script -/

structure GhidraFunction where
  name : List Char
  entryPoint : List Char
  numAddresses : ℕ

def GhidraFunction.text (f : GhidraFunction) : List Char :=
  f.name ++ '@' :: f.entryPoint ++ ':' :: Nat.toDigits 10 f.numAddresses

/-- The length of a text in Java. -/
def utf16Length (text : List Char) : ℕ :=
  (text.map fun c => if c.toNat < 0x10000 then 1 else 2).sum

/-- The loop of `listarFunciones`: the piece being written, and what is printed. -/
structure Listing where
  lote : List Char
  n : ℕ
  chunk : ℕ
  printed : List (List Char)

def Listing.new : Listing :=
  { lote := [], n := 0, chunk := 0, printed := [] }

def Listing.add (s : Listing) (f : GhidraFunction) : Listing :=
  let lote := (if s.lote.isEmpty then [] else s.lote ++ [',']) ++ f.text
  if 1500 < utf16Length lote then
    { lote := [], n := s.n + 1, chunk := s.chunk + 1, printed := s.printed ++ [keyLine (chunkKey s.chunk) lote] }
  else { s with lote := lote, n := s.n + 1 }

def Listing.addAll (s : Listing) : List GhidraFunction → Listing
  | [] => s
  | f :: fs => if s.n < 3000 then (s.add f).addAll fs else s

def Listing.flush (s : Listing) : Listing :=
  if s.lote.isEmpty then s
  else { s with chunk := s.chunk + 1, printed := s.printed ++ [keyLine (chunkKey s.chunk) s.lote] }

def listarFunciones (fs : List GhidraFunction) : List (List Char) :=
  let s := (Listing.new.addAll fs).flush
  s.printed ++
    [keyLine "FUNCS_CHUNKS".toList (Nat.toDigits 10 s.chunk), keyLine "FUNCS_TOTAL".toList (Nat.toDigits 10 s.n)]

/-- What the script prints when it is asked for the functions. -/
def runFunctions (programa : List Char) (funciones : ℕ) (fs : List GhidraFunction) : List (List Char) :=
  ["HIKARU_BEGIN".toList, keyLine "PROGRAMA".toList programa,
      keyLine "FUNCIONES".toList (Nat.toDigits 10 funciones), keyLine "MODO".toList "functions".toList] ++
    listarFunciones fs ++ ["HIKARU_END".toList]

/-! ## The groups of a listing -/

/-- What was printed are the groups, and the piece being written is the current one. -/
structure Listing.Covers (s : Listing) (groups : List (List (List Char))) (current : List (List Char)) : Prop where
  lote : s.lote = joinWith ',' current
  n : s.n = (groups.flatten ++ current).length
  chunk : s.chunk = groups.length
  printed : s.printed = groups.mapIdx fun i g => keyLine (chunkKey i) (joinWith ',' g)

theorem GhidraFunction.text_ne_nil (f : GhidraFunction) : f.text ≠ [] := by
  unfold GhidraFunction.text
  exact List.append_ne_nil_of_right_ne_nil _ (List.cons_ne_nil _ _)

theorem Listing.covers_new : Listing.new.Covers [] [] :=
  ⟨rfl, rfl, rfl, rfl⟩

/-- One more function is in the current group, or closes it. -/
theorem Listing.Covers.add {s : Listing} {groups : List (List (List Char))} {current : List (List Char)}
    (h : s.Covers groups current) (hcurrent : ∀ t ∈ current, t ≠ []) (f : GhidraFunction) :
    (s.add f).Covers groups (current ++ [f.text]) ∨ (s.add f).Covers (groups ++ [current ++ [f.text]]) [] := by
  have hlote : (if s.lote.isEmpty then [] else s.lote ++ [',']) ++ f.text = joinWith ',' (current ++ [f.text]) := by
    rw [h.lote]
    by_cases hnil : current = []
    · rw [hnil]
      exact List.intercalate_singleton.symm
    · have hne : joinWith ',' current ≠ [] := mt (intercalate_eq_nil hcurrent).mp hnil
      rw [List.isEmpty_eq_false_iff.mpr hne, if_neg Bool.false_ne_true, List.append_assoc, List.singleton_append]
      exact (intercalate_concat hnil f.text).symm
  rw [Listing.add, hlote]
  split
  case isTrue =>
    refine Or.inr ⟨rfl, ?_, ?_, ?_⟩
    · simp [h.n]
      omega
    · rw [List.length_append, List.length_singleton, ← h.chunk]
    · rw [List.mapIdx_concat, ← h.printed, ← h.chunk]
  case isFalse =>
    refine Or.inl ⟨rfl, ?_, h.chunk, h.printed⟩
    simp [h.n]
    omega

theorem Listing.n_add (s : Listing) (f : GhidraFunction) : (s.add f).n = s.n + 1 := by
  unfold Listing.add
  dsimp only
  rw [apply_ite Listing.n, ite_self]

/-- The loop stops at the end of the functions, or at three thousand. -/
theorem Listing.Covers.addAll {s : Listing} {groups : List (List (List Char))} {current : List (List Char)}
    (h : s.Covers groups current) (hcurrent : ∀ t ∈ current, t ≠ []) (fs : List GhidraFunction) :
    ∃ groups' current', (s.addAll fs).Covers groups' current' ∧ (∀ t ∈ current', t ≠ []) ∧
      groups'.flatten ++ current' =
        groups.flatten ++ current ++ (fs.take (3000 - s.n)).map GhidraFunction.text := by
  induction fs generalizing s groups current with
  | nil => exact ⟨groups, current, h, hcurrent, by rw [List.take_nil, List.map_nil, List.append_nil]⟩
  | cons f fs ih =>
    rw [Listing.addAll]
    split
    case isFalse hn =>
      have hzero : 3000 - s.n = 0 := by omega
      exact ⟨groups, current, h, hcurrent, by rw [hzero, List.take_zero, List.map_nil, List.append_nil]⟩
    case isTrue hn =>
      have hcount := s.n_add f
      have hone : 3000 - s.n = 3000 - (s.add f).n + 1 := by omega
      rw [hone, List.take_succ_cons, List.map_cons]
      obtain hadd | hadd := h.add hcurrent f
      · have hnext : ∀ t ∈ current ++ [f.text], t ≠ [] := by
          intro t ht
          obtain ht | ht := List.mem_append.mp ht
          · exact hcurrent t ht
          · rw [List.mem_singleton.mp ht]
            exact f.text_ne_nil
        obtain ⟨groups', current', hcovers, hne, hall⟩ := ih hadd hnext
        refine ⟨groups', current', hcovers, hne, hall.trans ?_⟩
        rw [List.append_assoc, List.append_assoc, List.append_assoc, List.singleton_append]
      · have hnext : ∀ t ∈ ([] : List (List Char)), t ≠ [] := fun t ht => nomatch ht
        obtain ⟨groups', current', hcovers, hne, hall⟩ := ih hadd hnext
        refine ⟨groups', current', hcovers, hne, hall.trans ?_⟩
        rw [List.flatten_append, List.flatten_singleton, List.append_nil, List.append_assoc, List.append_assoc,
          List.append_assoc, List.singleton_append]

/-- What is printed at the end are the functions, group by group. -/
theorem listarFunciones_eq (fs : List GhidraFunction) :
    ∃ groups : List (List (List Char)), groups.flatten = (fs.take 3000).map GhidraFunction.text ∧
      listarFunciones fs = groups.mapIdx (fun i g => keyLine (chunkKey i) (joinWith ',' g)) ++
        [keyLine "FUNCS_CHUNKS".toList (Nat.toDigits 10 groups.length),
          keyLine "FUNCS_TOTAL".toList (Nat.toDigits 10 (min fs.length 3000))] := by
  obtain ⟨groups, current, h, hne, hall⟩ := Listing.covers_new.addAll (fun t ht => nomatch ht) fs
  have hzero : Listing.new.n = 0 := rfl
  rw [List.flatten_nil, List.nil_append, List.nil_append, hzero, Nat.sub_zero] at hall
  have hn : (Listing.new.addAll fs).n = min fs.length 3000 := by
    rw [h.n, hall, List.length_map, List.length_take, Nat.min_comm]
  rw [listarFunciones]
  by_cases hnil : current = []
  · have hlote : (Listing.new.addAll fs).lote.isEmpty = true := by
      rw [h.lote, hnil]
      rfl
    refine ⟨groups, by rw [← hall, hnil, List.append_nil], ?_⟩
    rw [Listing.flush, if_pos hlote, h.printed, h.chunk, hn]
  · have hlote : (Listing.new.addAll fs).lote.isEmpty = false := by
      rw [h.lote, List.isEmpty_eq_false_iff]
      exact mt (intercalate_eq_nil hne).mp hnil
    refine ⟨groups ++ [current], by rw [← hall, List.flatten_append, List.flatten_singleton], ?_⟩
    rw [Listing.flush, hlote, if_neg Bool.false_ne_true, List.mapIdx_concat, ← h.printed, ← h.chunk, ← h.lote,
      List.length_append, List.length_singleton, ← h.chunk, ← hn]

/-! ## Keys and values of the listing -/

/-- Neither the name of the function nor its address has a blank or a comma. -/
def GhidraFunction.Plain (f : GhidraFunction) : Prop :=
  ∀ c ∈ f.name ++ f.entryPoint, isWhitespace c = false ∧ c ≠ ','

theorem GhidraFunction.plain_of_all {f : GhidraFunction}
    (h : (f.name ++ f.entryPoint).all (fun c => !isWhitespace c && c != ',') = true) : f.Plain := by
  intro c hc
  simpa using List.all_eq_true.mp h c hc

theorem isDigit_plain {c : Char} (h : c.isDigit = true) : isWhitespace c = false ∧ c ≠ ',' ∧ c ≠ '=' := by
  have hrange : 48 ≤ c.toNat ∧ c.toNat ≤ 57 := by
    simp only [Char.isDigit, Bool.and_eq_true, decide_eq_true_eq, ge_iff_le, UInt32.le_iff_toNat_le] at h
    exact h
  refine ⟨?_, ?_, ?_⟩
  · simp [isWhitespace]
    omega
  · rintro rfl
    revert h
    decide
  · rintro rfl
    revert h
    decide

theorem toDigits_plain {n : ℕ} {c : Char} (hc : c ∈ Nat.toDigits 10 n) :
    isWhitespace c = false ∧ c ≠ ',' ∧ c ≠ '=' :=
  isDigit_plain (Nat.isDigit_of_mem_toDigits (by decide) (by decide) hc)

theorem GhidraFunction.Plain.text {f : GhidraFunction} (h : f.Plain) {c : Char} (hc : c ∈ f.text) :
    isWhitespace c = false ∧ c ≠ ',' := by
  unfold GhidraFunction.text at hc
  obtain hc | hc := List.mem_append.mp hc
  · obtain hc | hc := List.mem_append.mp hc
    · exact h c (List.mem_append_left _ hc)
    · obtain rfl | hc := List.mem_cons.mp hc
      · decide
      · exact h c (List.mem_append_right _ hc)
  · obtain rfl | hc := List.mem_cons.mp hc
    · decide
    · exact ⟨(toDigits_plain hc).1, (toDigits_plain hc).2.1⟩

theorem chunkKey_ne {key : List Char}
    (h : key.take 6 ≠ "FUNCS_".toList ∨ (key.drop 6).all Char.isDigit = false) (i : ℕ) : key ≠ chunkKey i := by
  rintro rfl
  obtain h | h := h
  · exact h rfl
  · have hdigits : ((chunkKey i).drop 6).all Char.isDigit = true := by
      rw [List.all_eq_true]
      intro c hc
      exact Nat.isDigit_of_mem_toDigits (by decide) (by decide) hc
    rw [hdigits] at h
    cases h

theorem plainKey_chunkKey (i : ℕ) : PlainKey (chunkKey i) where
  no_blank := by
    intro c hc
    obtain hc | hc := List.mem_append.mp hc
    · have hall : ∀ c ∈ "FUNCS_".toList, isWhitespace c = false := blankless_of_all (by decide)
      exact hall c hc
    · exact (toDigits_plain hc).1
  no_equals := by
    intro hc
    obtain hc | hc := List.mem_append.mp hc
    · exact absurd hc (by decide)
    · exact (toDigits_plain hc).2.2 rfl
  unmarked := rfl
  ne_code := (chunkKey_ne (Or.inl (by decide)) i).symm

theorem firstWord_toDigits (n : ℕ) : firstWord (Nat.toDigits 10 n) = Nat.toDigits 10 n :=
  firstWord_eq_self fun _ hc => (toDigits_plain hc).1

/-! ## The messages in a log -/

/-- The lines of the keys enter their values, whatever stands between them. -/
theorem foldl_parseLine_keys (alphanumeric : Char → Bool) (log : LogFormat) {kvs : List (List Char × List Char)}
    (hkeys : ∀ p ∈ kvs, PlainKey p.1) {s : ParseState} (hs : s.enCodigo = false) :
    (kvs.map fun p => log.line (keyLine p.1 p.2)).foldl (parseLine alphanumeric) s =
      { s with resultado := s.resultado.insertAll (kvs.map fun p => (p.1, .string (firstWord p.2))) } := by
  induction kvs generalizing s with
  | nil => rfl
  | cons p kvs ih =>
    rw [List.map_cons, List.foldl_cons, parseLine_key alphanumeric log hs (hkeys p List.mem_cons_self)]
    exact ih (fun q hq => hkeys q (List.mem_cons_of_mem p hq)) hs

/-- The state after the last line, outside the code and with the report `r`. -/
def ParseState.holding (r : Report) : ParseState :=
  { ParseState.new with resultado := r }

/-- The messages of a run: a mark, the keys with their values, and a mark. -/
def messages (kvs : List (List Char × List Char)) : List (List Char) :=
  (hikaru ++ "BEGIN".toList) :: kvs.map (fun p => keyLine p.1 p.2) ++ [hikaru ++ "END".toList]

/-- A log with the messages in it, in their order, and no other mark gives the report of their keys. -/
theorem parsear_messages (alphanumeric : Char → Bool) (log : LogFormat) {kvs : List (List Char × List Char)}
    (hkeys : ∀ p ∈ kvs, PlainKey p.1) {noise : List (List Char)} (hnoise : ∀ l ∈ noise, Unmarked l)
    {texto : List Char} (hlines : Interleave ((messages kvs).map log.line) noise (lines texto)) :
    parsear alphanumeric texto =
      (ParseState.holding (Report.insertAll [] (kvs.map fun p => (p.1, .string (firstWord p.2))))).finish := by
  have hbegin : PlainKey "BEGIN".toList := by decide
  have hend : PlainKey "END".toList := by decide
  have hbeginLine : ∀ s : ParseState, s.enCodigo = false →
      parseLine alphanumeric s (log.line (hikaru ++ "BEGIN".toList)) = s :=
    fun s hs => parseLine_mark alphanumeric log hs hbegin (by decide) (by decide)
  have hendLine : ∀ s : ParseState, s.enCodigo = false →
      parseLine alphanumeric s (log.line (hikaru ++ "END".toList)) = s :=
    fun s hs => parseLine_mark alphanumeric log hs hend (by decide) (by decide)
  have hkeep : ∀ s : ParseState, ∀ l ∈ (messages kvs).map log.line, s.enCodigo = false →
      (parseLine alphanumeric s l).enCodigo = false := by
    intro s l hl hs
    obtain ⟨msg, hmsg, rfl⟩ := List.mem_map.mp hl
    obtain hmsg | hmsg := List.mem_append.mp hmsg
    · obtain rfl | hmsg := List.mem_cons.mp hmsg
      · rwa [hbeginLine s hs]
      · obtain ⟨p, hp, rfl⟩ := List.mem_map.mp hmsg
        rwa [parseLine_key alphanumeric log hs (hkeys p hp)]
    · rw [List.mem_singleton.mp hmsg]
      rwa [hendLine s hs]
  have hquiet : ∀ s : ParseState, ∀ l ∈ noise, s.enCodigo = false → parseLine alphanumeric s l = s :=
    fun s l hl hs => parseLine_unmarked alphanumeric hs (hnoise l hl)
  have hmap : ((kvs.map fun p => keyLine p.1 p.2).map log.line) = kvs.map fun p => log.line (keyLine p.1 p.2) :=
    List.map_map
  have hnew : ParseState.new.enCodigo = false := rfl
  rw [parsear, hlines.symm.foldl_right hkeep hquiet hnew, messages, List.map_append, List.map_cons, List.map_singleton,
    List.foldl_append, List.foldl_cons, List.foldl_nil, List.foldl_cons, hbeginLine _ hnew, hmap,
    foldl_parseLine_keys alphanumeric log hkeys hnew, hendLine]
  · rfl
  · exact hnew

/-- The keys of a run that lists the functions, when the list is cut into `groups`. -/
def listingKeys (programa : List Char) (funciones : ℕ) (groups : List (List (List Char))) (total : ℕ) :
    List (List Char × List Char) :=
  [("PROGRAMA".toList, programa), ("FUNCIONES".toList, Nat.toDigits 10 funciones),
      ("MODO".toList, "functions".toList)] ++
    groups.mapIdx (fun i g => (chunkKey i, joinWith ',' g)) ++
    [("FUNCS_CHUNKS".toList, Nat.toDigits 10 groups.length), ("FUNCS_TOTAL".toList, Nat.toDigits 10 total)]

theorem runFunctions_eq (programa : List Char) (funciones : ℕ) (fs : List GhidraFunction) :
    ∃ groups : List (List (List Char)), groups.flatten = (fs.take 3000).map GhidraFunction.text ∧
      runFunctions programa funciones fs =
        messages (listingKeys programa funciones groups (min fs.length 3000)) := by
  obtain ⟨groups, hall, hprinted⟩ := listarFunciones_eq fs
  refine ⟨groups, hall, ?_⟩
  have hpieces : (groups.mapIdx fun i g => (chunkKey i, joinWith ',' g)).map (fun p => keyLine p.1 p.2) =
      groups.mapIdx fun i g => keyLine (chunkKey i) (joinWith ',' g) := by
    refine List.ext_getElem? fun i => ?_
    rw [List.getElem?_map, List.getElem?_mapIdx, List.getElem?_mapIdx, Option.map_map]
    rfl
  rw [runFunctions, hprinted, messages, listingKeys, List.map_append, List.map_append, hpieces]
  rfl

def headKeys : List (List Char) :=
  ["PROGRAMA".toList, "FUNCIONES".toList, "MODO".toList]

def tailKeys : List (List Char) :=
  ["FUNCS_CHUNKS".toList, "FUNCS_TOTAL".toList]

theorem map_fst_listingKeys (programa : List Char) (funciones total : ℕ) (groups : List (List (List Char))) :
    (listingKeys programa funciones groups total).map Prod.fst =
      headKeys ++ (List.range groups.length).map chunkKey ++ tailKeys := by
  have hpieces : (groups.mapIdx fun i g => (chunkKey i, joinWith ',' g)).map Prod.fst =
      (List.range groups.length).map chunkKey := by
    rw [List.mapIdx_eq_zipIdx_map, List.range_eq_range', ← List.zipIdx_map_snd, List.map_map, List.map_map]
    rfl
  rw [listingKeys, List.map_append, List.map_append, hpieces]
  rfl

theorem plainKey_listingKeys {programa : List Char} {funciones total : ℕ} {groups : List (List (List Char))} :
    ∀ p ∈ listingKeys programa funciones groups total, PlainKey p.1 := by
  intro p hp
  have hkey : p.1 ∈ headKeys ++ (List.range groups.length).map chunkKey ++ tailKeys := by
    rw [← map_fst_listingKeys programa funciones total groups]
    exact List.mem_map_of_mem hp
  obtain hkey | hkey := List.mem_append.mp hkey
  · obtain hkey | hkey := List.mem_append.mp hkey
    · have hall : ∀ k ∈ headKeys, PlainKey k := by decide
      exact hall p.1 hkey
    · obtain ⟨i, _, hi⟩ := List.mem_map.mp hkey
      rw [← hi]
      exact plainKey_chunkKey i
  · have hall : ∀ k ∈ tailKeys, PlainKey k := by decide
    exact hall p.1 hkey

/-- None of the other keys is the key of a piece. -/
theorem chunkKey_notMem (i : ℕ) : chunkKey i ∉ headKeys ++ tailKeys := by
  intro h
  have hall : ∀ k ∈ headKeys ++ tailKeys,
      k.take 6 ≠ "FUNCS_".toList ∨ (k.drop 6).all Char.isDigit = false := by decide
  exact chunkKey_ne (hall _ h) i rfl

theorem nodup_listingKeys {programa : List Char} {funciones total : ℕ} {groups : List (List (List Char))} :
    ((listingKeys programa funciones groups total).map Prod.fst).Nodup := by
  have hothers : (headKeys ++ tailKeys).Nodup := by decide
  rw [List.nodup_append] at hothers
  have hpieces : ((List.range groups.length).map chunkKey).Nodup :=
    List.Nodup.map chunkKey_injective List.nodup_range
  rw [map_fst_listingKeys, List.nodup_append, List.nodup_append]
  refine ⟨⟨hothers.1, hpieces, ?_⟩, hothers.2.1, ?_⟩
  · rintro k hk k' hk' rfl
    obtain ⟨i, -, rfl⟩ := List.mem_map.mp hk'
    exact chunkKey_notMem i (List.mem_append_left _ hk)
  · rintro k hk k' hk' rfl
    obtain hk | hk := List.mem_append.mp hk
    · exact hothers.2.2 k hk k hk' rfl
    · obtain ⟨i, -, rfl⟩ := List.mem_map.mp hk
      exact chunkKey_notMem i (List.mem_append_right _ hk')

/-! ## The report -/

/-- A report without any of the lists is what is left when its pieces are taken out. -/
theorem finish_eq {r : Report} (hne : r.isEmpty = false)
    (hlists : ∀ k ∈ ["EXPORTS".toList, "FUNC_LIST".toList, "STRING_LIST".toList], r.get k = none) :
    (ParseState.holding r).finish =
      some (if (takeChunks r 0 []).1.isEmpty then (takeChunks r 0 []).2
        else (takeChunks r 0 []).2.insert "FUNCS".toList (.array (takeChunks r 0 []).1)) := by
  have hlist : ∀ k ∈ ["EXPORTS".toList, "FUNC_LIST".toList, "STRING_LIST".toList], listKey r k = r := by
    intro k hk
    rw [listKey, hlists k hk]
  have hfold : ["EXPORTS".toList, "FUNC_LIST".toList, "STRING_LIST".toList].foldl listKey r = r := by
    rw [List.foldl_cons, hlist _ (by decide), List.foldl_cons, hlist _ (by decide), List.foldl_cons, hlist _ (by decide),
      List.foldl_nil]
  unfold ParseState.finish
  simp only [ParseState.holding, ParseState.new, hne, hfold, Bool.false_eq_true, if_false]

/-- Only the entry of the functions differs from what is left. -/
theorem get_finish {r : Report} (hne : r.isEmpty = false)
    (hlists : ∀ k ∈ ["EXPORTS".toList, "FUNC_LIST".toList, "STRING_LIST".toList], r.get k = none) :
    ∃ r', (ParseState.holding r).finish = some r' ∧
      r'.get "FUNCS".toList = (if (takeChunks r 0 []).1 = [] then (takeChunks r 0 []).2.get "FUNCS".toList
        else some (.array (takeChunks r 0 []).1)) ∧
      ∀ key ≠ "FUNCS".toList, r'.get key = (takeChunks r 0 []).2.get key := by
  refine ⟨_, finish_eq hne hlists, ?_, fun key hkey => ?_⟩
  · simp only [List.isEmpty_iff]
    split
    case isTrue => rfl
    case isFalse => rw [Report.get_insert, if_pos rfl]
  · split
    case isTrue => rfl
    case isFalse => rw [Report.get_insert, if_neg hkey]

/-- What a listing enters under each key. -/
def listingReport (programa : List Char) (funciones : ℕ) (groups : List (List (List Char))) (total : ℕ) : Report :=
  Report.insertAll [] ((listingKeys programa funciones groups total).map fun p => (p.1, .string (firstWord p.2)))

section ListingReport

variable {programa : List Char} {funciones total : ℕ} {groups : List (List (List Char))}

theorem get_listingReport {p : List Char × List Char} (hp : p ∈ listingKeys programa funciones groups total) :
    (listingReport programa funciones groups total).get p.1 = some (.string (firstWord p.2)) := by
  have hnodup : ((listingKeys programa funciones groups total).map Prod.fst).Nodup := nodup_listingKeys
  refine Report.get_insertAll ?_ (List.mem_map.mpr ⟨p, hp, rfl⟩) []
  rwa [List.map_map]

theorem get_listingReport_of_notMem {key : List Char} (h : key ∉ headKeys ++ tailKeys)
    (hpiece : ∀ i < groups.length, key ≠ chunkKey i) :
    (listingReport programa funciones groups total).get key = none := by
  refine Report.get_insertAll_of_notMem ?_ []
  rw [List.map_map]
  intro hkey
  have hmem : key ∈ headKeys ++ (List.range groups.length).map chunkKey ++ tailKeys := by
    rwa [← map_fst_listingKeys programa funciones total groups]
  obtain hmem | hmem := List.mem_append.mp hmem
  · obtain hmem | hmem := List.mem_append.mp hmem
    · exact h (List.mem_append_left _ hmem)
    · obtain ⟨i, hi, hki⟩ := List.mem_map.mp hmem
      exact hpiece i (List.mem_range.mp hi) hki.symm
  · exact h (List.mem_append_right _ hmem)

theorem get_listingReport_chunkKey (hgroups : ∀ g ∈ groups, ∀ t ∈ g, ∀ c ∈ t, isWhitespace c = false) (i : ℕ) :
    (listingReport programa funciones groups total).get (chunkKey i) =
      groups[i]?.map fun g => .string (joinWith ',' g) := by
  by_cases hi : i < groups.length
  · have hpiece : (chunkKey i, joinWith ',' groups[i]) ∈ listingKeys programa funciones groups total :=
      List.mem_append_left _ (List.mem_append_right _ (List.mem_mapIdx.mpr ⟨i, hi, rfl⟩))
    have hword : firstWord (joinWith ',' groups[i]) = joinWith ',' groups[i] := by
      refine firstWord_eq_self fun c hc => ?_
      obtain rfl | ⟨t, ht, hct⟩ := mem_intercalate hc
      · decide
      · exact hgroups _ (List.getElem_mem hi) t ht c hct
    rw [get_listingReport hpiece, hword, List.getElem?_eq_getElem hi, Option.map_some]
  · rw [List.getElem?_eq_none (Nat.le_of_not_lt hi), Option.map_none]
    refine get_listingReport_of_notMem (chunkKey_notMem i) fun j hj hij => ?_
    rw [chunkKey_injective hij] at hi
    exact hi hj

theorem isEmpty_listingReport : (listingReport programa funciones groups total).isEmpty = false := by
  have hmodo : ("MODO".toList, "functions".toList) ∈ listingKeys programa funciones groups total :=
    List.mem_append_left _ (List.mem_append_left _ (by simp))
  have hget := get_listingReport hmodo
  cases hr : listingReport programa funciones groups total with
  | nil =>
    rw [hr] at hget
    cases hget
  | cons => rfl

theorem get_listingReport_lists : ∀ k ∈ ["EXPORTS".toList, "FUNC_LIST".toList, "STRING_LIST".toList],
    (listingReport programa funciones groups total).get k = none := by
  intro k hk
  have hothers : ∀ k ∈ ["EXPORTS".toList, "FUNC_LIST".toList, "STRING_LIST".toList],
      k ∉ headKeys ++ tailKeys ∧ k.take 6 ≠ "FUNCS_".toList := by decide
  exact get_listingReport_of_notMem (hothers k hk).1 fun i _ => chunkKey_ne (Or.inl (hothers k hk).2) i

/-- The pieces are put together again and taken out. -/
theorem takeChunks_listingReport (hblank : ∀ g ∈ groups, ∀ t ∈ g, ∀ c ∈ t, isWhitespace c = false)
    (hcomma : ∀ g ∈ groups, ∀ t ∈ g, ',' ∉ t ∧ t ≠ []) :
    (takeChunks (listingReport programa funciones groups total) 0 []).1 = groups.flatten ∧
      ∀ i, (takeChunks (listingReport programa funciones groups total) 0 []).2.get (chunkKey i) = none := by
  have hpieces : ∀ i, (listingReport programa funciones groups total).get (chunkKey i) =
      groups[i]?.map fun g => .string (joinWith ',' g) := get_listingReport_chunkKey hblank
  have hnumbered : ∀ i, ((listingReport programa funciones groups total).get (chunkKey i)).isSome ↔
      0 ≤ i ∧ i < 0 + groups.length := by
    intro i
    rw [hpieces i, Option.isSome_map, Nat.zero_add]
    simp
  refine ⟨?_, get_takeChunks hnumbered []⟩
  rw [takeChunks_fst hcomma (fun i => by rw [Nat.zero_add]; exact hpieces i), List.nil_append]

end ListingReport

/-- The texts in the pieces are those of functions. -/
theorem exists_of_pieces {fs : List GhidraFunction} (hfs : ∀ f ∈ fs, f.Plain) {groups : List (List (List Char))}
    (hall : groups.flatten = (fs.take 3000).map GhidraFunction.text) :
    ∀ g ∈ groups, ∀ t ∈ g, ∃ f : GhidraFunction, f.Plain ∧ t = f.text := by
  intro g hg t ht
  have hmem : t ∈ (fs.take 3000).map GhidraFunction.text := by
    rw [← hall]
    exact List.mem_flatten_of_mem hg ht
  obtain ⟨f, hf, rfl⟩ := List.mem_map.mp hmem
  exact ⟨f, hfs f (List.mem_of_mem_take hf), rfl⟩

/-- The report of a listing of the functions, whatever else the log holds: the functions, up to three thousand,
one by one and in order, and nothing left of the pieces they came in. -/
theorem parsear_functions (alphanumeric : Char → Bool) (log : LogFormat) {programa : List Char} {funciones : ℕ}
    {fs : List GhidraFunction} (hfs : ∀ f ∈ fs, f.Plain) {noise : List (List Char)} (hnoise : ∀ l ∈ noise, Unmarked l)
    {texto : List Char}
    (hlines : Interleave ((runFunctions programa funciones fs).map log.line) noise (lines texto)) :
    ∃ r, parsear alphanumeric texto = some r ∧
      r.get "FUNCS".toList =
        (if fs = [] then none else some (.array ((fs.take 3000).map GhidraFunction.text))) ∧
      r.get "FUNCS_TOTAL".toList = some (.string (Nat.toDigits 10 (min fs.length 3000))) ∧
      r.get "FUNCIONES".toList = some (.string (Nat.toDigits 10 funciones)) ∧
      r.get "PROGRAMA".toList = some (.string (firstWord programa)) ∧
      ∀ i, r.get (chunkKey i) = none := by
  obtain ⟨groups, hall, hrun⟩ := runFunctions_eq programa funciones fs
  rw [hrun] at hlines
  let r := listingReport programa funciones groups (min fs.length 3000)
  have htexts := exists_of_pieces hfs hall
  have hblank : ∀ g ∈ groups, ∀ t ∈ g, ∀ c ∈ t, isWhitespace c = false := by
    intro g hg t ht c hc
    obtain ⟨f, hf, rfl⟩ := htexts g hg t ht
    exact (hf.text hc).1
  have hcomma : ∀ g ∈ groups, ∀ t ∈ g, ',' ∉ t ∧ t ≠ [] := by
    intro g hg t ht
    obtain ⟨f, hf, rfl⟩ := htexts g hg t ht
    exact ⟨fun hc => (hf.text hc).2 rfl, f.text_ne_nil⟩
  obtain ⟨htodas, hgone⟩ : (takeChunks r 0 []).1 = groups.flatten ∧
      ∀ i, (takeChunks r 0 []).2.get (chunkKey i) = none := takeChunks_listingReport hblank hcomma
  have hfuncs : (takeChunks r 0 []).2.get "FUNCS".toList = none := by
    rw [get_takeChunks_of_ne r 0 [] (chunkKey_ne (Or.inl (by decide)))]
    exact get_listingReport_of_notMem (by decide) fun i _ => chunkKey_ne (Or.inl (by decide)) i
  have hprograma : ("PROGRAMA".toList, programa) ∈ listingKeys programa funciones groups (min fs.length 3000) :=
    List.mem_append_left _ (List.mem_append_left _ (by simp))
  have hfunciones : ("FUNCIONES".toList, Nat.toDigits 10 funciones) ∈
      listingKeys programa funciones groups (min fs.length 3000) :=
    List.mem_append_left _ (List.mem_append_left _ (by simp))
  have htotal : ("FUNCS_TOTAL".toList, Nat.toDigits 10 (min fs.length 3000)) ∈
      listingKeys programa funciones groups (min fs.length 3000) := List.mem_append_right _ (by simp)
  obtain ⟨r', hfinish, hfuncs', hothers⟩ := get_finish isEmpty_listingReport get_listingReport_lists
  have hparse := (parsear_messages alphanumeric log plainKey_listingKeys hnoise hlines).trans hfinish
  have hkept : ∀ key value, (key, value) ∈ listingKeys programa funciones groups (min fs.length 3000) →
      key ∈ headKeys ++ tailKeys → r'.get key = some (.string (firstWord value)) := by
    intro key value hp hkey
    have hne : ∀ k ∈ headKeys ++ tailKeys, k ≠ "FUNCS".toList := by decide
    have hpiece : ∀ i, key ≠ chunkKey i := fun i hi => chunkKey_notMem i (hi ▸ hkey)
    rw [hothers key (hne key hkey), get_takeChunks_of_ne _ 0 [] hpiece]
    exact get_listingReport hp
  refine ⟨r', hparse, ?_, ?_, ?_, ?_, fun i => ?_⟩
  · rw [hfuncs', hfuncs, htodas, hall]
    cases fs with
    | nil => rfl
    | cons f fs => rw [if_neg (by simp), if_neg (List.cons_ne_nil f fs)]
  · rw [hkept _ _ htotal (by decide), firstWord_toDigits]
  · rw [hkept _ _ hfunciones (by decide), firstWord_toDigits]
  · exact hkept _ _ hprograma (by decide)
  · rw [hothers _ (chunkKey_ne (Or.inl (by decide)) i).symm]
    exact hgone i

/-- The level of the log in front of every line. -/
def LogFormat.info : LogFormat where
  pre := "INFO  ".toList
  post := []
  pre_blank := Or.inr ⟨"INFO ".toList, ' ', by decide, rfl⟩
  post_blank := Or.inl rfl
  pre_unmarked := unmarked_of_all (by decide)
  post_unmarked := unmarked_of_all (by decide)
  pre_keyless := by decide

/-- Lines written one after the other are read back. -/
theorem lines_joinWith {ls : List (List Char)} (hbreak : ∀ l ∈ ls, '\n' ∉ l)
    (hreturn : ∀ l ∈ ls, l.getLast? ≠ some '\r') : lines (joinWith '\n' (ls ++ [[]])) = ls := by
  have hsplit : (joinWith '\n' (ls ++ [[]])).splitOn '\n' = ls ++ [[]] := by
    refine List.splitOn_intercalate '\n' (fun l hl => ?_) (List.append_ne_nil_of_right_ne_nil ls (List.cons_ne_nil _ _))
    obtain hl | hl := List.mem_append.mp hl
    · exact hbreak l hl
    · rw [List.mem_singleton.mp hl]
      exact List.not_mem_nil
  have hstrip : ∀ l ∈ ls, stripCr l = l := fun l hl => if_neg (hreturn l hl)
  unfold lines
  dsimp only
  rw [hsplit, List.getLast?_concat, if_pos rfl, List.dropLast_concat, List.map_congr_left hstrip, List.map_id']

theorem parsear_functions_main :
    ∃ r, parsear Char.isAlphanum (joinWith '\n' ((["INFO  HIKARU_BEGIN", "INFO  HIKARU_PROGRAMA=a b",
        "INFO  HIKARU_FUNCIONES=7", "INFO  HIKARU_MODO=functions", "WARN  no symbols",
        "INFO  HIKARU_FUNCS_0=main@10:16", "INFO  HIKARU_FUNCS_CHUNKS=1", "INFO  HIKARU_FUNCS_TOTAL=1",
        "INFO  HIKARU_END"].map String.toList) ++ [[]])) = some r ∧
      r.get "FUNCS".toList = some (.array ["main@10:16".toList]) ∧
      r.get "FUNCS_TOTAL".toList = some (.string "1".toList) ∧
      r.get "FUNCIONES".toList = some (.string "7".toList) ∧
      r.get "PROGRAMA".toList = some (.string "a".toList) ∧
      ∀ i, r.get (chunkKey i) = none := by
  have hfs : ∀ f ∈ [(⟨"main".toList, "10".toList, 16⟩ : GhidraFunction)], f.Plain := by
    intro f hf
    rw [List.mem_singleton.mp hf]
    exact GhidraFunction.plain_of_all (by decide)
  have hnoise : ∀ l ∈ ["WARN  no symbols".toList], Unmarked l := by
    intro l hl
    rw [List.mem_singleton.mp hl]
    exact unmarked_of_all (by decide)
  refine parsear_functions Char.isAlphanum LogFormat.info hfs hnoise (?_ : Interleave
    ((runFunctions "a b".toList 7 [⟨"main".toList, "10".toList, 16⟩]).map LogFormat.info.line) _ _)
  rw [lines_joinWith (by decide) (by decide)]
  exact .left _ (.left _ (.left _ (.left _ (.right _ (.left _ (.left _ (.left _ (.left _ .nil))))))))

end HikaruOpenLive.Mcp.Ghidra
