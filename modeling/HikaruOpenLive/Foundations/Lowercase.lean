import Mathlib.Data.List.Basic

/-! # Strings in lower case

The lower case of a string goes letter by letter, by the tables of Unicode. One letter depends on where it
stands: a sigma at the end of a word becomes a final one. So what a string becomes may depend on the string
in front of it, and the lower case of two strings put together need not be that of the one and the other.
-/
set_option autoImplicit false

namespace HikaruOpenLive.Foundations.Lowercase

def IsAscii (cs : List Char) : Prop :=
  ∀ c ∈ cs, c.toNat < 128

-- List by list: the characters themselves are too many to try.
instance : DecidablePred IsAscii := fun cs => List.decidableBAll (fun c : Char => c.toNat < 128) cs

/-- What Unicode says of each character; of the first 128 it is known. -/
structure CharTables where
  lower : Char → List Char
  cased : Char → Bool
  caseIgnorable : Char → Bool
  lower_ascii : ∀ c : Char, c.toNat < 128 → lower c = [c.toLower]

namespace CharTables

variable (tables : CharTables)

def ignorableThenCased (cs : List Char) : Bool :=
  match cs.dropWhile tables.caseIgnorable with
  | [] => false
  | c :: _ => tables.cased c

/-- The small sigma between `before`, which is there back to front, and `after`. -/
def lowerSigma (before after : List Char) : Char :=
  if tables.ignorableThenCased before && !tables.ignorableThenCased after then 'ς' else 'σ'

/-- The lower case of the characters that follow `before`, which is there back to front. -/
def lowerFrom : List Char → List Char → List Char
  | _, [] => []
  | before, c :: cs =>
    (if c = 'Σ' then [tables.lowerSigma before cs] else tables.lower c) ++ lowerFrom (c :: before) cs

def toLowercase (s : String) : String :=
  String.ofList (tables.lowerFrom [] s.toList)

/-- What `s` becomes when it stands behind `front`. -/
def toLowercaseBehind (front s : String) : String :=
  String.ofList (tables.lowerFrom front.toList.reverse s.toList)

theorem lowerFrom_append {as : List Char} (hascii : IsAscii as) (before cs : List Char) :
    tables.lowerFrom before (as ++ cs) =
      as.map Char.toLower ++ tables.lowerFrom (as.reverse ++ before) cs := by
  induction as generalizing before with
  | nil => rfl
  | cons c as ih =>
    have hc := hascii c List.mem_cons_self
    have hsigma : c ≠ 'Σ' := by
      rintro rfl
      exact absurd hc (by decide)
    rw [List.cons_append, lowerFrom, if_neg hsigma, tables.lower_ascii c hc,
      ih fun a ha => hascii a (List.mem_cons_of_mem c ha)]
    simp

theorem toLowercase_append (front : String) (hascii : IsAscii front.toList) (s : String) :
    tables.toLowercase (front ++ s) =
      String.ofList (front.toList.map Char.toLower) ++ tables.toLowercaseBehind front s := by
  unfold toLowercase toLowercaseBehind
  rw [String.toList_append, tables.lowerFrom_append hascii, List.append_nil, String.ofList_append]

/-- Of the first 128 characters alone, each becomes its lower case wherever it stands. -/
theorem toLowercaseBehind_ascii (front : String) {s : String} (hascii : IsAscii s.toList) :
    tables.toLowercaseBehind front s = String.ofList (s.toList.map Char.toLower) := by
  have h := tables.lowerFrom_append hascii front.toList.reverse []
  rw [List.append_nil, lowerFrom, List.append_nil] at h
  rw [toLowercaseBehind, h]

/-- The tables of the first 128 characters, with every other left as it is. -/
def ascii : CharTables where
  lower c := [c.toLower]
  cased := Char.isAlpha
  caseIgnorable _ := false
  lower_ascii _ _ := rfl

end CharTables

end HikaruOpenLive.Foundations.Lowercase
