import HikaruOpenLive.Gui.AppState
import HikaruOpenLive.Foundations.LastSplit

/-! # The file a project is saved to

The path a save writes to is the path the user gave with the extension of the mode. A path is its
text, with `/` between the names; what it names is what stands after the last `/`, and a path of a
project names a file, so the last name is not empty and not one of the two names of folders.
-/
set_option autoImplicit false

namespace HikaruOpenLive.Gui

open Foundations.LastSplit

/-! ## Paths -/

/-- The text of a path, cut before its last name. -/
def folderAndName (text : List Char) : Option (List Char) × List Char :=
  match splitLast '/' text with
  | some (folder, name) => (some folder, name)
  | none => (none, text)

def inFolder (folder : Option (List Char)) (name : List Char) : List Char :=
  match folder with
  | some folder => folder ++ '/' :: name
  | none => name

/-- What `Path::file_stem` and `Path::extension` give for a name: the extension follows the last dot,
and a name whose only dot is its first character has none. -/
def stemAndExtension (name : List Char) : List Char × Option (List Char) :=
  match splitLast '.' name with
  | some (a :: before, after) => (a :: before, some after)
  | _ => (name, none)

def IsFileName (name : List Char) : Prop :=
  name ≠ [] ∧ name ≠ ['.'] ∧ name ≠ ['.', '.']
deriving Decidable

structure FilePath where
  text : List Char
  named : IsFileName (folderAndName text).2
deriving DecidableEq

theorem folderAndName_inFolder (folder : Option (List Char)) {name : List Char} (h : '/' ∉ name) :
    folderAndName (inFolder folder name) = (folder, name) := by
  cases folder with
  | none => simp only [folderAndName, inFolder, splitLast_eq_none_iff.2 h]
  | some folder => simp only [folderAndName, inFolder, splitLast_append h]

theorem inFolder_folderAndName (text : List Char) :
    inFolder (folderAndName text).1 (folderAndName text).2 = text ∧
      '/' ∉ (folderAndName text).2 := by
  unfold folderAndName
  cases h : splitLast '/' text with
  | none => exact ⟨rfl, splitLast_eq_none_iff.1 h⟩
  | some parts =>
    obtain ⟨rfl, hname⟩ := eq_of_splitLast h
    exact ⟨rfl, hname⟩

theorem stemAndExtension_append {stem ext : List Char} (hstem : stem ≠ []) (hext : '.' ∉ ext) :
    stemAndExtension (stem ++ '.' :: ext) = (stem, some ext) := by
  cases stem with
  | nil => exact absurd rfl hstem
  | cons a stem => rw [stemAndExtension, splitLast_append hext]

/-- A name is its stem, or its stem and its extension with a dot between them. -/
theorem stemAndExtension_cases (name : List Char) :
    stemAndExtension name = (name, none) ∨
      ∃ stem ext, stem ≠ [] ∧ name = stem ++ '.' :: ext ∧
        stemAndExtension name = (stem, some ext) := by
  unfold stemAndExtension
  cases h : splitLast '.' name with
  | none => exact .inl rfl
  | some parts =>
    obtain ⟨before, after⟩ := parts
    cases before with
    | nil => exact .inl rfl
    | cons a before => exact .inr ⟨a :: before, after, List.cons_ne_nil _ _, (eq_of_splitLast h).1, rfl⟩

theorem fileName_append {stem ext : List Char} (hstem : stem ≠ []) (hext : ext ≠ []) :
    IsFileName (stem ++ '.' :: ext) := by
  have hlength : 3 ≤ (stem ++ '.' :: ext).length := by
    have := List.length_pos_of_ne_nil hstem
    have := List.length_pos_of_ne_nil hext
    simp only [List.length_append, List.length_cons]
    omega
  refine ⟨fun h => ?_, fun h => ?_, fun h => ?_⟩ <;> simp [h] at hlength

/-- The extension of a format: what follows the dot in the names of its files. -/
structure FileExtension where
  chars : List Char
  nonempty : chars ≠ []
  noDot : '.' ∉ chars
  noSlash : '/' ∉ chars

namespace FilePath

def folder (p : FilePath) : Option (List Char) :=
  (folderAndName p.text).1

def name (p : FilePath) : List Char :=
  (folderAndName p.text).2

def fileStem (p : FilePath) : List Char :=
  (stemAndExtension p.name).1

def extension (p : FilePath) : Option (List Char) :=
  (stemAndExtension p.name).2

def ofParts (folder : Option (List Char)) (name : List Char) (hslash : '/' ∉ name)
    (hname : IsFileName name) : FilePath where
  text := inFolder folder name
  named := by
    rw [folderAndName_inFolder folder hslash]
    exact hname

theorem name_noSlash (p : FilePath) : '/' ∉ p.name :=
  (inFolder_folderAndName p.text).2

theorem text_eq (p : FilePath) : p.text = inFolder p.folder p.name :=
  (inFolder_folderAndName p.text).1.symm

theorem fileStem_ne_nil (p : FilePath) : p.fileStem ≠ [] := by
  unfold fileStem
  obtain h | ⟨stem, ext, hstem, -, h⟩ := stemAndExtension_cases p.name <;> rw [h]
  · exact p.named.1
  · exact hstem

theorem fileStem_noSlash (p : FilePath) : '/' ∉ p.fileStem := by
  have hname := p.name_noSlash
  unfold fileStem
  obtain h | ⟨stem, ext, -, hparts, h⟩ := stemAndExtension_cases p.name <;> rw [h]
  · exact hname
  · rw [hparts] at hname
    exact fun hmem => hname (List.mem_append_left _ hmem)

theorem name_of_extension {p : FilePath} {ext : List Char} (h : p.extension = some ext) :
    p.name = p.fileStem ++ '.' :: ext := by
  unfold extension at h
  unfold fileStem
  obtain h' | ⟨stem, ext', -, hparts, h'⟩ := stemAndExtension_cases p.name <;> rw [h'] at h ⊢
  · cases h
  · obtain rfl : ext' = ext := by simpa using h
    exact hparts

/-- `Path::with_extension` of the standard library: the extension is replaced, or added. -/
def setExtension (p : FilePath) (ext : FileExtension) : FilePath :=
  ofParts p.folder (p.fileStem ++ '.' :: ext.chars)
    (by simp [p.fileStem_noSlash, ext.noSlash]) (fileName_append p.fileStem_ne_nil ext.nonempty)

/-! ## The extension of a project -/

/-- An extension that is there is respected, whatever it is. -/
def withExtension (p : FilePath) (ext : FileExtension) : FilePath :=
  if p.extension.isSome then p
  else ofParts p.folder (p.name ++ '.' :: ext.chars) (by simp [p.name_noSlash, ext.noSlash])
    (fileName_append p.named.1 ext.nonempty)

end FilePath

def extensionFor : AppMode → FileExtension
  | .openLive => ⟨['o', 'p', 'l', 'f'], by decide, by decide, by decide⟩
  | .openStudio => ⟨['o', 'p', 's', 'f'], by decide, by decide, by decide⟩

namespace FilePath

def formatOf (p : FilePath) : Option AppMode :=
  if p.extension = some (extensionFor .openLive).chars then some .openLive
  else if p.extension = some (extensionFor .openStudio).chars then some .openStudio
  else none

def retargetExtension (p : FilePath) (mode : AppMode) : FilePath :=
  if p.extension = some (extensionFor mode).chars then p else p.setExtension (extensionFor mode)

/-- The path `save` writes to: the writer of each format sees to an extension once more. -/
def saveTarget (p : FilePath) (mode : AppMode) : FilePath :=
  (p.retargetExtension mode).withExtension (extensionFor mode)

/-! ## What a save does to a path -/

theorem folder_ofParts (folder : Option (List Char)) {name : List Char} (hslash : '/' ∉ name)
    (hname : IsFileName name) : (ofParts folder name hslash hname).folder = folder := by
  unfold FilePath.folder ofParts
  rw [folderAndName_inFolder folder hslash]

theorem name_ofParts (folder : Option (List Char)) {name : List Char} (hslash : '/' ∉ name)
    (hname : IsFileName name) : (ofParts folder name hslash hname).name = name := by
  unfold FilePath.name ofParts
  rw [folderAndName_inFolder folder hslash]

theorem ext_parts {p q : FilePath} (hfolder : p.folder = q.folder) (hname : p.name = q.name) :
    p = q := by
  have htext : p.text = q.text := by rw [p.text_eq, q.text_eq, hfolder, hname]
  cases p
  cases q
  simpa using htext

@[simp]
theorem retargetExtension_folder (p : FilePath) (mode : AppMode) :
    (p.retargetExtension mode).folder = p.folder := by
  unfold retargetExtension
  split
  · rfl
  · exact folder_ofParts _ _ _

/-- Whatever the name was, it becomes its stem with the extension of the mode. -/
theorem retargetExtension_name (p : FilePath) (mode : AppMode) :
    (p.retargetExtension mode).name = p.fileStem ++ '.' :: (extensionFor mode).chars := by
  unfold retargetExtension
  split
  next h => exact name_of_extension h
  next => exact name_ofParts _ _ _

theorem retargetExtension_extension (p : FilePath) (mode : AppMode) :
    (p.retargetExtension mode).extension = some (extensionFor mode).chars := by
  unfold extension
  rw [retargetExtension_name, stemAndExtension_append p.fileStem_ne_nil (extensionFor mode).noDot]

theorem retargetExtension_idem (p : FilePath) (mode : AppMode) :
    (p.retargetExtension mode).retargetExtension mode = p.retargetExtension mode := by
  rw [retargetExtension, if_pos (p.retargetExtension_extension mode)]

theorem formatOf_of_extension {p : FilePath} {mode : AppMode}
    (h : p.extension = some (extensionFor mode).chars) : p.formatOf = some mode := by
  unfold formatOf
  rw [h]
  cases mode <;> decide

/-- The second look at the extension finds the one the mode has just put there. -/
theorem saveTarget_eq (p : FilePath) (mode : AppMode) :
    p.saveTarget mode = p.retargetExtension mode := by
  rw [saveTarget, withExtension, if_pos]
  rw [retargetExtension_extension, Option.isSome_some]

theorem retargetExtension_eq_iff (p q : FilePath) (mode : AppMode) :
    p.retargetExtension mode = q.retargetExtension mode ↔
      p.folder = q.folder ∧ p.fileStem = q.fileStem := by
  constructor
  · intro h
    have hfolder := congrArg FilePath.folder h
    have hname := congrArg FilePath.name h
    rw [retargetExtension_folder, retargetExtension_folder] at hfolder
    rw [retargetExtension_name, retargetExtension_name] at hname
    exact ⟨hfolder, List.append_cancel_right hname⟩
  · rintro ⟨hfolder, hstem⟩
    refine ext_parts ?_ ?_
    · rw [retargetExtension_folder, retargetExtension_folder, hfolder]
    · rw [retargetExtension_name, retargetExtension_name, hstem]

/-- A save keeps the folder, gives the name the format of the mode and is settled after one turn. Two
paths are saved to two files exactly when they are of two folders or their names differ before their
last dots. -/
theorem saves_apart_iff (mode : AppMode) :
    (∀ p : FilePath, (p.retargetExtension mode).folder = p.folder ∧
      (p.retargetExtension mode).formatOf = some mode ∧
      (p.retargetExtension mode).retargetExtension mode = p.retargetExtension mode ∧
      p.saveTarget mode = p.retargetExtension mode) ∧
    ∀ p q : FilePath, p.saveTarget mode ≠ q.saveTarget mode ↔
      p.folder ≠ q.folder ∨ p.fileStem ≠ q.fileStem := by
  refine ⟨fun p => ⟨p.retargetExtension_folder mode,
    formatOf_of_extension (p.retargetExtension_extension mode), p.retargetExtension_idem mode,
    p.saveTarget_eq mode⟩, fun p q => ?_⟩
  rw [saveTarget_eq, saveTarget_eq, Ne, retargetExtension_eq_iff, not_and_or]

/-- Two versions of a song, told apart by what follows the dot, are saved to one file. -/
theorem versions_share_a_file :
    ¬ ∀ (mode : AppMode) (p q : FilePath), p.folder = q.folder → p.formatOf = none →
      q.formatOf = none → p.name ≠ q.name → p.saveTarget mode ≠ q.saveTarget mode := by
  intro h
  exact h .openLive ⟨['s', 'o', 'n', 'g', '.', 'v', '1'], by decide⟩
    ⟨['s', 'o', 'n', 'g', '.', 'v', '2'], by decide⟩ (by decide) (by decide) (by decide) (by decide)
    (by decide)

end FilePath

end HikaruOpenLive.Gui
