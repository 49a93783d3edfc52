import Mathlib.Data.List.Nodup
import HikaruOpenLive.Foundations.ListEdits

/-! # A list that keeps the newest entry of each key

`upsert key a l` puts `a` where `l` has its first entry of the same key, and at the end when it has
none. Read through `lookup`, it is the update of a function (`lookup_upsert`), and it never makes two
entries of one key (`nodup_upsert`).
-/
set_option autoImplicit false

namespace HikaruOpenLive.Foundations.Upsert

open ListEdits

variable {α κ : Type} [DecidableEq κ]

def upsert (key : α → κ) (a : α) (l : List α) : List α :=
  if l.any fun b => key b == key a then updateFirst (fun b => key b == key a) (fun _ => a) l
  else l ++ [a]

def lookup (key : α → κ) (l : List α) (k : κ) : Option α :=
  l.find? fun b => key b == k

/-- To rewrite the first entry of a key, keeping the key, is to rewrite what is found under it. -/
theorem lookup_updateFirst (key : α → κ) {k : κ} {f : α → α}
    (hf : ∀ b, key b = k → key (f b) = k) (l : List α) (k' : κ) :
    lookup key (updateFirst (fun b => key b == k) f l) k' =
      if k' = k then (lookup key l k).map f else lookup key l k' := by
  induction l with
  | nil => simp [updateFirst, lookup]
  | cons b l ih =>
    rw [updateFirst]
    by_cases hb : key b = k
    · simp only [hb, beq_self_eq_true, if_true, lookup, List.find?_cons, hf b hb]
      by_cases hk : k' = k
      · simp [hk]
      · have hkk : (k == k') = false := by simpa using Ne.symm hk
        simp [hk, hkk]
    · have hbk : (key b == k) = false := by simpa using hb
      unfold lookup at ih ⊢
      simp only [hbk, Bool.false_eq_true, if_false, List.find?_cons, ih]
      by_cases hk : k' = k
      · simp [hk, hbk]
      · simp [hk]

theorem lookup_upsert (key : α → κ) (a : α) (l : List α) (k : κ) :
    lookup key (upsert key a l) k = if k = key a then some a else lookup key l k := by
  unfold upsert
  split
  case isTrue h =>
    obtain ⟨b, hb, hba⟩ := List.any_eq_true.mp h
    have hsome : (lookup key l (key a)).isSome := List.find?_isSome.mpr ⟨b, hb, hba⟩
    rw [lookup_updateFirst key (fun _ _ => rfl)]
    split
    · obtain ⟨c, hc⟩ := Option.isSome_iff_exists.mp hsome
      rw [hc, Option.map_some]
    · rfl
  case isFalse h =>
    unfold lookup
    rw [List.find?_append]
    by_cases hk : k = key a
    · have hnone : l.find? (fun b => key b == k) = none := by
        rw [List.find?_eq_none]
        intro b hb hbk
        exact h (List.any_eq_true.mpr ⟨b, hb, by rwa [← hk]⟩)
      rw [hnone, if_pos hk]
      simp [hk]
    · have hka : (key a == k) = false := by simpa using Ne.symm hk
      rw [if_neg hk]
      simp [hka]

theorem map_key_updateFirst (key : α → κ) (a : α) (l : List α) :
    (updateFirst (fun b => key b == key a) (fun _ => a) l).map key = l.map key := by
  induction l with
  | nil => rfl
  | cons b l ih =>
    rw [updateFirst]
    split
    case isTrue hb => rw [List.map_cons, List.map_cons, beq_iff_eq.mp hb]
    case isFalse => rw [List.map_cons, List.map_cons, ih]

theorem nodup_upsert {key : α → κ} (a : α) {l : List α} (h : (l.map key).Nodup) :
    ((upsert key a l).map key).Nodup := by
  unfold upsert
  split
  case isTrue => rwa [map_key_updateFirst]
  case isFalse hnone =>
    rw [List.map_append, List.nodup_append]
    refine ⟨h, by simp, ?_⟩
    intro k hk k' hk' hkk
    obtain ⟨b, hb, rfl⟩ := List.mem_map.mp hk
    rw [List.map_singleton, List.mem_singleton] at hk'
    exact hnone (List.any_eq_true.mpr ⟨b, hb, by simp [hkk, hk']⟩)

theorem mem_upsert {key : α → κ} {a b : α} {l : List α} (h : b ∈ upsert key a l) :
    b = a ∨ b ∈ l := by
  unfold upsert at h
  split at h
  · obtain h | ⟨_, _, _, h⟩ := mem_updateFirst h
    · exact Or.inr h
    · exact Or.inl h
  · obtain h | h := List.mem_append.mp h
    · exact Or.inr h
    · exact Or.inl (List.mem_singleton.mp h)

theorem key_of_lookup {key : α → κ} {l : List α} {k : κ} {a : α} (h : lookup key l k = some a) :
    key a = k := by
  simpa using List.find?_some h

theorem mem_of_lookup {key : α → κ} {l : List α} {k : κ} {a : α} (h : lookup key l k = some a) :
    a ∈ l :=
  List.mem_of_find?_eq_some h

/-- In a list with one entry of each key, every entry is found under its key. -/
theorem lookup_of_mem {key : α → κ} {l : List α} (h : (l.map key).Nodup) {a : α} (ha : a ∈ l) :
    lookup key l (key a) = some a := by
  induction l with
  | nil => simp at ha
  | cons b l ih =>
    rw [List.map_cons, List.nodup_cons] at h
    unfold lookup at ih ⊢
    rw [List.find?_cons]
    obtain rfl | ha := List.mem_cons.mp ha
    · simp
    · have hne : (key b == key a) = false := by
        simp only [beq_eq_false_iff_ne, ne_eq]
        intro hba
        exact h.1 (hba ▸ List.mem_map_of_mem ha)
      rw [hne]
      exact ih h.2 ha

theorem mem_iff_lookup {key : α → κ} {l : List α} (h : (l.map key).Nodup) {a : α} :
    a ∈ l ↔ lookup key l (key a) = some a :=
  ⟨lookup_of_mem h, mem_of_lookup⟩

theorem mem_upsert_iff {key : α → κ} {a b : α} {l : List α} (h : (l.map key).Nodup) :
    b ∈ upsert key a l ↔ b = a ∨ b ∈ l ∧ key b ≠ key a := by
  rw [mem_iff_lookup (nodup_upsert a h), lookup_upsert, mem_iff_lookup h]
  by_cases hkey : key b = key a
  · rw [if_pos hkey, Option.some_inj]
    simp [hkey, eq_comm]
  · have hne : b ≠ a := fun hba => hkey (by rw [hba])
    simp [hkey, hne]

/-! ## Several entries -/

def upsertAll (key : α → κ) (as l : List α) : List α :=
  as.foldl (fun l a => upsert key a l) l

theorem nodup_upsertAll {key : α → κ} (as : List α) {l : List α} (h : (l.map key).Nodup) :
    ((upsertAll key as l).map key).Nodup := by
  induction as generalizing l with
  | nil => exact h
  | cons a as ih => exact ih (nodup_upsert a h)

/-- Of the entries there were, those stay whose key is not among the new ones. -/
theorem mem_upsertAll_iff {key : α → κ} {as l : List α} (has : (as.map key).Nodup)
    (hl : (l.map key).Nodup) {b : α} :
    b ∈ upsertAll key as l ↔ b ∈ as ∨ b ∈ l ∧ key b ∉ as.map key := by
  induction as generalizing l with
  | nil => simp [upsertAll]
  | cons a as ih =>
    rw [List.map_cons, List.nodup_cons] at has
    have hstep := ih has.2 (nodup_upsert a hl)
    rw [mem_upsert_iff hl] at hstep
    have hcons : upsertAll key (a :: as) l = upsertAll key as (upsert key a l) := rfl
    rw [hcons, hstep, List.map_cons, List.mem_cons, List.mem_cons, not_or]
    constructor
    · rintro (hb | ⟨rfl | ⟨hb, hne⟩, hnot⟩)
      · exact Or.inl (Or.inr hb)
      · exact Or.inl (Or.inl rfl)
      · exact Or.inr ⟨hb, hne, hnot⟩
    · rintro ((rfl | hb) | ⟨hb, hne, hnot⟩)
      · exact Or.inr ⟨Or.inl rfl, has.1⟩
      · exact Or.inl hb
      · exact Or.inr ⟨Or.inr ⟨hb, hne⟩, hnot⟩

/-- New entries that have every key there was replace the list. -/
theorem perm_upsertAll {key : α → κ} {as l : List α} (has : (as.map key).Nodup)
    (hl : (l.map key).Nodup) (hcover : ∀ b ∈ l, key b ∈ as.map key) :
    (upsertAll key as l).Perm as := by
  have hnodup := List.Nodup.of_map key (nodup_upsertAll as hl)
  refine (List.perm_ext_iff_of_nodup hnodup (List.Nodup.of_map key has)).mpr fun b => ?_
  rw [mem_upsertAll_iff has hl]
  constructor
  · rintro (hb | ⟨hb, hnot⟩)
    · exact hb
    · exact absurd (hcover b hb) hnot
  · exact Or.inl

end HikaruOpenLive.Foundations.Upsert
