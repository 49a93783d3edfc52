import Mathlib.Algebra.Order.Group.Unbundled.Abs
import Mathlib.Algebra.Order.Field.Rat
import Mathlib.Algebra.Order.Group.Abs
import Mathlib.Logic.Function.Basic

/-! # Reading the parameters of a plugin by difference

Both launchers learn what the plugin's own editor moved by reading every parameter and comparing it
with the reading before (`diffPoll`). They differ in which differences they take for the user's.
-/
set_option autoImplicit false

namespace HikaruOpenLive.PluginHost

/-- The difference below which two values are the same. -/
def paramEpsilon : ℚ :=
  1 / 10 ^ 6

def near (x y : ℚ) : Bool :=
  |x - y| ≤ paramEpsilon

def clampUnit (x : ℚ) : ℚ :=
  max 0 (min x 1)

theorem clampUnit_of_mem {x : ℚ} (h0 : 0 ≤ x) (h1 : x ≤ 1) : clampUnit x = x := by
  rw [clampUnit, min_eq_left h1, max_eq_right h0]

theorem clampUnit_mem (x : ℚ) : 0 ≤ clampUnit x ∧ clampUnit x ≤ 1 :=
  ⟨le_max_left _ _, max_le zero_le_one (min_le_right _ _)⟩

@[simp] theorem clampUnit_clampUnit (x : ℚ) : clampUnit (clampUnit x) = clampUnit x :=
  clampUnit_of_mem (clampUnit_mem x).1 (clampUnit_mem x).2

@[simp] theorem near_self (x : ℚ) : near x x = true := by
  simp [near, paramEpsilon]

/-- What a plugin declares of one parameter, as the host hands it to the rack. -/
structure PluginParamInfo where
  id : ℕ
  name : String
  unit : String
  min : ℚ
  max : ℚ
  defaultValue : ℚ
  stepCount : ℤ
  canAutomate : Bool
deriving DecidableEq

/-- What a launcher remembers of its parameters: a hash map from the raw id. -/
abbrev ParamMap := ℕ → Option ℚ

def ParamMap.empty : ParamMap := fun _ => none

def ParamMap.insert (m : ParamMap) (id : ℕ) (value : ℚ) : ParamMap :=
  Function.update m id (some value)

@[simp] theorem ParamMap.insert_self (m : ParamMap) (id : ℕ) (value : ℚ) :
    m.insert id value id = some value := Function.update_self ..

theorem ParamMap.insert_of_ne (m : ParamMap) {id id' : ℕ} (value : ℚ) (h : id' ≠ id) :
    m.insert id value id' = m id' := Function.update_of_ne h ..

/-- The value is, but for a difference that counts as none, the last one the host sent. -/
def isEcho (hostSent : ParamMap) (id : ℕ) (current : ℚ) : Bool :=
  (hostSent id).any fun sent => near sent current

/-- One pass over the parameters `ids`: each reading takes the place of the one before, and is
reported if `report` says so of the two. A parameter read for the first time is not. -/
def diffPoll (read : ParamMap) (report : ℕ → ℚ → ℚ → Bool) :
    List ℕ → ParamMap → List (ℕ × ℚ) × ParamMap
  | [], seen => ([], seen)
  | id :: ids, seen =>
    match read id with
    | none => diffPoll read report ids seen
    | some current =>
      let rest := diffPoll read report ids (seen.insert id current)
      match seen id with
      | none => rest
      | some previous =>
        if report id previous current then ((id, current) :: rest.1, rest.2) else rest

variable {read : ParamMap} {report : ℕ → ℚ → ℚ → Bool}

/-- A poll reports a parameter that was read before and of whose two readings `report` holds; a
second pass over the same parameter finds no difference. -/
theorem mem_diffPoll (hsame : ∀ id v, report id v v = false) {ids : List ℕ} {seen : ParamMap}
    {id : ℕ} {v : ℚ} :
    (id, v) ∈ (diffPoll read report ids seen).1 ↔
      id ∈ ids ∧ read id = some v ∧ ∃ previous, seen id = some previous ∧
        report id previous v = true := by
  induction ids generalizing seen with
  | nil => simp [diffPoll]
  | cons i ids ih =>
    rw [diffPoll]
    split
    case h_1 hread =>
      rw [ih, List.mem_cons]
      constructor
      · rintro ⟨hmem, hrest⟩
        exact ⟨Or.inr hmem, hrest⟩
      · rintro ⟨rfl | hmem, hv, hrest⟩
        · rw [hread] at hv
          exact absurd hv (by simp)
        · exact ⟨hmem, hv, hrest⟩
    case h_2 current hread =>
      by_cases hid : id = i
      · subst hid
        have hrest : (id, v) ∉ (diffPoll read report ids (seen.insert id current)).1 := by
          rw [ih]
          rintro ⟨_, hv, previous, hprev, hrep⟩
          rw [ParamMap.insert_self] at hprev
          rw [hread] at hv
          rw [← Option.some.inj hprev, ← Option.some.inj hv, hsame] at hrep
          exact Bool.noConfusion hrep
        cases hseen : seen id with
        | none => simp [hrest]
        | some previous =>
          simp only
          split
          case isTrue hrep =>
            simp only [List.mem_cons, Prod.mk.injEq, true_and, hrest, or_false, true_or]
            constructor
            · rintro rfl
              exact ⟨hread, previous, rfl, hrep⟩
            · rintro ⟨hv, _⟩
              rw [hread] at hv
              exact (Option.some.inj hv).symm
          case isFalse hrep =>
            refine ⟨fun h => absurd h hrest, ?_⟩
            rintro ⟨_, hv, previous', hprev, hrep'⟩
            rw [hread] at hv
            rw [← Option.some.inj hprev, ← Option.some.inj hv] at hrep'
            exact absurd hrep' hrep
      · have hrest : (id, v) ∈ (diffPoll read report ids (seen.insert i current)).1 ↔
            id ∈ i :: ids ∧ read id = some v ∧ ∃ previous, seen id = some previous ∧
              report id previous v = true := by
          rw [ih, ParamMap.insert_of_ne _ _ hid, List.mem_cons, or_iff_right hid]
        rw [← hrest]
        split
        · exact Iff.rfl
        · split
          · simp [hid]
          · exact Iff.rfl

/-- After a poll, every parameter read has its new reading; the others keep the one before. -/
theorem seen_diffPoll (ids : List ℕ) (seen : ParamMap) (id : ℕ) :
    (diffPoll read report ids seen).2 id =
      if id ∈ ids ∧ (read id).isSome then read id else seen id := by
  induction ids generalizing seen with
  | nil => simp [diffPoll]
  | cons i ids ih =>
    rw [diffPoll]
    split
    case h_1 hread =>
      rw [ih]
      by_cases hid : id = i
      · simp [hid, hread]
      · simp [hid]
    case h_2 current hread =>
      have hrest : (diffPoll read report ids (seen.insert i current)).2 id =
          if id ∈ i :: ids ∧ (read id).isSome then read id else seen id := by
        rw [ih]
        by_cases hid : id = i
        · simp [hid, hread]
        · simp [hid, ParamMap.insert_of_ne]
      split
      · exact hrest
      · split <;> exact hrest

/-- What the rack knows once a poll has reported `reports`. -/
def learn (known : ℕ → ℚ) (reports : List (ℕ × ℚ)) : ℕ → ℚ :=
  reports.foldl (fun known report => Function.update known report.1 report.2) known

theorem learn_of_notMem {known : ℕ → ℚ} {reports : List (ℕ × ℚ)} {id : ℕ}
    (h : ∀ v, (id, v) ∉ reports) : learn known reports id = known id := by
  induction reports generalizing known with
  | nil => rfl
  | cons report reports ih =>
    have hne : id ≠ report.1 := by
      rintro rfl
      exact h report.2 (by simp)
    rw [learn, List.foldl_cons]
    refine (ih fun v hv => h v (List.mem_cons_of_mem _ hv)).trans ?_
    exact Function.update_of_ne hne ..

theorem learn_of_mem {known : ℕ → ℚ} {reports : List (ℕ × ℚ)} {id : ℕ} {v : ℚ}
    (h : ∀ v', (id, v') ∈ reports → v' = v) (hv : (id, v) ∈ reports) :
    learn known reports id = v := by
  induction reports generalizing known with
  | nil => simp at hv
  | cons report reports ih =>
    rw [learn, List.foldl_cons]
    by_cases hrest : ∃ v', (id, v') ∈ reports
    · obtain ⟨v', hv'⟩ := hrest
      obtain rfl := h v' (List.mem_cons_of_mem _ hv')
      exact ih (fun w hw => h w (List.mem_cons_of_mem _ hw)) hv'
    · have hhead : (id, v) = report := by
        obtain hv | hv := List.mem_cons.mp hv
        · exact hv
        · exact absurd ⟨v, hv⟩ hrest
      refine (learn_of_notMem fun w hw => hrest ⟨w, hw⟩).trans ?_
      rw [← hhead]
      exact Function.update_self ..

end HikaruOpenLive.PluginHost
