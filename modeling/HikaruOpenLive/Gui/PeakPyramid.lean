import HikaruOpenLive.Foundations.HalvingTower
import Mathlib.Algebra.Order.Ring.Rat
import Mathlib.Algebra.Order.Field.Basic
import Mathlib.Data.List.Basic
import Mathlib.Tactic.Positivity

/-! # The peaks of the clip editor

The geometry of a waveform and the cache of its peaks at several resolutions. Each level of the cache
keeps, of every two neighbours of the level below, the one of larger magnitude, until no more than 64
are left; what is drawn is the coarsest level with a peak for each pixel.
-/
set_option autoImplicit false

namespace HikaruOpenLive.Gui

open Foundations.HalvingTower

/-! ## The geometry of a waveform -/

/-- The half height in pixels of a column of magnitude `mx`. -/
def amp (mx halfH : ℚ) : ℚ :=
  max (min mx 1 * halfH) (1 / 2)

/-- The largest magnitude in a slice. -/
def sliceMax (slice : List ℚ) : ℚ :=
  slice.foldl (fun mx v => if mx < |v| then |v| else mx) 0

/-- The column of each pixel, or of each peak where there are fewer peaks than pixels: its place and
its half height. -/
def waveGeometry (peaks : List ℚ) (widthPx : ℕ) (halfH : ℚ) : List (ℚ × ℚ) :=
  let n := peaks.length
  let widthPx := max widthPx 1
  if n = 0 ∨ halfH ≤ 0 then []
  else if widthPx ≤ n then
    (List.range widthPx).map fun c : ℕ =>
      let lo := min (c * n / widthPx) (n - 1)
      let hi := min (max ((c + 1) * n / widthPx) (lo + 1)) n
      ((c : ℚ), amp (sliceMax ((peaks.take hi).drop lo)) halfH)
  else
    let span : ℚ := (widthPx - 1 : ℕ)
    peaks.mapIdx fun i v => (if n ≤ 1 then 0 else (i : ℚ) / (n - 1 : ℕ) * span, amp |v| halfH)

theorem amp_mono {mx mx' halfH : ℚ} (hle : mx ≤ mx') (hpos : 0 ≤ halfH) :
    amp mx halfH ≤ amp mx' halfH :=
  max_le_max (mul_le_mul_of_nonneg_right (min_le_min_right 1 hle) hpos) le_rfl

theorem sliceMax_concat (slice : List ℚ) (v : ℚ) :
    sliceMax (slice ++ [v]) = max (sliceMax slice) |v| := by
  rw [sliceMax, List.foldl_append, List.foldl_cons, List.foldl_nil, ← sliceMax]
  split
  case isTrue h => rw [max_eq_right h.le]
  case isFalse h => rw [max_eq_left (not_lt.mp h)]

theorem le_sliceMax {slice : List ℚ} {v : ℚ} (h : v ∈ slice) : |v| ≤ sliceMax slice := by
  induction slice using List.reverseRecOn with
  | nil => cases h
  | append_singleton slice u ih =>
    rw [sliceMax_concat]
    rcases List.mem_append.mp h with h | h
    · exact (ih h).trans (le_max_left _ _)
    · rw [List.mem_singleton.mp h]
      exact le_max_right _ _

theorem sliceMax_le {slice : List ℚ} {bound : ℚ} (hbound : 0 ≤ bound)
    (h : ∀ v ∈ slice, |v| ≤ bound) : sliceMax slice ≤ bound := by
  induction slice using List.reverseRecOn with
  | nil => exact hbound
  | append_singleton slice u ih =>
    rw [sliceMax_concat]
    refine max_le (ih fun v hv => h v (List.mem_append_left _ hv)) (h u ?_)
    exact List.mem_append_right _ (List.mem_singleton_self u)

/-- Whatever steps the bounds of the columns take, every position is between two of them. -/
theorem exists_step (bound : ℕ → ℕ) (s width : ℕ) (hfirst : bound 0 ≤ s)
    (hlast : s < bound width) : ∃ c < width, bound c ≤ s ∧ s < bound (c + 1) := by
  induction width with
  | zero => omega
  | succ width ih =>
    by_cases h : s < bound width
    · obtain ⟨c, hc, hstep⟩ := ih h
      exact ⟨c, by omega, hstep⟩
    · exact ⟨width, by omega, by omega, hlast⟩

theorem mem_slice {peaks : List ℚ} {p : ℚ} {s : ℕ} (h : peaks[s]? = some p) (lo hi : ℕ)
    (hlo : lo ≤ s) (hhi : s < hi) : p ∈ (peaks.take hi).drop lo := by
  refine List.mem_of_getElem? (i := s - lo) ?_
  rw [List.getElem?_drop, Nat.add_sub_cancel' hlo, List.getElem?_take, if_pos hhi, h]

/-- No peak is skipped on the way to the screen: the tallest column is that of the loudest peak. -/
theorem waveGeometry_tallest {peaks : List ℚ} {p : ℚ} (hp : p ∈ peaks)
    (htop : ∀ q ∈ peaks, |q| ≤ |p|) (widthPx : ℕ) {halfH : ℚ} (hpos : 0 < halfH) :
    (∃ col ∈ waveGeometry peaks widthPx halfH, col.2 = amp |p| halfH) ∧
      ∀ col ∈ waveGeometry peaks widthPx halfH, col.2 ≤ amp |p| halfH := by
  obtain ⟨s, hs⟩ := List.mem_iff_getElem?.mp hp
  have hlen : s < peaks.length := (List.getElem?_eq_some_iff.mp hs).1
  have hguard : ¬(peaks.length = 0 ∨ halfH ≤ 0) := by
    rintro (h | h)
    · omega
    · exact absurd hpos (not_lt.mpr h)
  have hslice : ∀ lo hi, sliceMax ((peaks.take hi).drop lo) ≤ |p| := fun lo hi =>
    sliceMax_le (abs_nonneg p) fun v hv => htop v (List.mem_of_mem_take (List.mem_of_mem_drop hv))
  unfold waveGeometry
  simp only [if_neg hguard]
  split
  case isTrue hwide =>
    constructor
    · -- the column of the pixel that the loudest peak falls on
      obtain ⟨c, hc, hlo, hhi⟩ := exists_step (fun c => c * peaks.length / max widthPx 1) s
        (max widthPx 1) (by simp)
        (by rwa [Nat.mul_div_cancel_left _ (by omega)])
      refine ⟨_, List.mem_map.mpr ⟨c, List.mem_range.mpr hc, rfl⟩, ?_⟩
      have hmem := mem_slice hs (min (c * peaks.length / max widthPx 1) (peaks.length - 1))
        (min (max ((c + 1) * peaks.length / max widthPx 1)
          (min (c * peaks.length / max widthPx 1) (peaks.length - 1) + 1)) peaks.length)
        (by omega) (by omega)
      simp only
      rw [le_antisymm (hslice _ _) (le_sliceMax hmem)]
    · intro col hcol
      obtain ⟨c, -, rfl⟩ := List.mem_map.mp hcol
      exact amp_mono (hslice _ _) hpos.le
  case isFalse =>
    constructor
    · refine ⟨_, List.mem_mapIdx.mpr ⟨s, hlen, rfl⟩, ?_⟩
      rw [(List.getElem?_eq_some_iff.mp hs).2]
    · intro col hcol
      obtain ⟨i, hi, rfl⟩ := List.mem_mapIdx.mp hcol
      exact amp_mono (htop _ (List.getElem_mem hi)) hpos.le

/-! ## The pyramid -/

structure PeakCache where
  levels : List (List ℚ)

namespace PeakCache

def louder (a b : ℚ) : ℚ :=
  if |b| < |a| then a else b

/-- A level of half the length. -/
def down (cur : List ℚ) : List ℚ :=
  (List.range (cur.length / 2)).map fun i =>
    louder (cur.getD (i * 2) 0) (cur.getD (i * 2 + 1) 0)

theorem length_down (cur : List ℚ) : (down cur).length = cur.length / 2 := by
  rw [down, List.length_map, List.length_range]

/-- The levels from `cur` up. -/
def levelsFrom (cur : List ℚ) : List (List ℚ) :=
  cur :: if 64 < cur.length then levelsFrom (down cur) else []
termination_by cur.length
decreasing_by
  rw [length_down]
  omega

def new (sourcePeaks : List ℚ) : PeakCache :=
  ⟨if sourcePeaks.isEmpty then [] else levelsFrom sourcePeaks⟩

def getPeaksForWidth (cache : PeakCache) (widthPx : ℕ) : List ℚ :=
  if cache.levels.isEmpty then []
  else
    match cache.levels.reverse.find? fun lvl => decide (widthPx ≤ lvl.length) with
    | some lvl => lvl
    | none => cache.levels.headD []

/-! ### The levels as a tower -/

theorem down_eq_halve (cur : List ℚ) : down cur = halve louder cur := by
  apply List.ext_getElem?
  intro i
  rw [getElem?_halve, down, List.getElem?_map]
  by_cases hi : i < cur.length / 2
  · have hleft : 2 * i < cur.length := by omega
    have hright : 2 * i + 1 < cur.length := by omega
    rw [List.getElem?_range hi, List.getElem?_eq_getElem hleft, List.getElem?_eq_getElem hright]
    simp only [Option.map_some, Option.bind_some, Nat.mul_comm i 2, List.getD_eq_getElem?_getD,
      List.getElem?_eq_getElem hleft, List.getElem?_eq_getElem hright, Option.getD_some]
  · have hright : cur[2 * i + 1]? = none := List.getElem?_eq_none (by omega)
    rw [List.getElem?_eq_none (by simpa using hi), hright]
    cases cur[2 * i]? <;> rfl

theorem picksGreatest_louder : PicksGreatest louder fun v : ℚ => |v| := by
  intro a b
  unfold louder
  split
  case isTrue h => exact Or.inl ⟨rfl, h.le⟩
  case isFalse h => exact Or.inr ⟨rfl, not_lt.mp h⟩

/-- A level is there as long as every level below it has more than 64 peaks. -/
theorem getElem?_levelsFrom (cur : List ℚ) (k : ℕ) :
    (levelsFrom cur)[k]? =
      if ∀ j < k, 64 < cur.length / 2 ^ j then some (level louder cur k) else none := by
  induction k generalizing cur with
  | zero =>
    rw [levelsFrom, if_pos fun j hj => absurd hj (Nat.not_lt_zero j)]
    rfl
  | succ k ih =>
    have hshift : (∀ j < k + 1, 64 < cur.length / 2 ^ j) ↔
        64 < cur.length ∧ ∀ j < k, 64 < (down cur).length / 2 ^ j := by
      rw [length_down]
      constructor
      · intro h
        refine ⟨by simpa using h 0 (by omega), fun j hj => ?_⟩
        rw [Nat.div_div_eq_div_mul, Nat.mul_comm, ← pow_succ]
        exact h (j + 1) (by omega)
      · rintro ⟨hlong, h⟩ j hj
        cases j with
        | zero => simpa using hlong
        | succ j =>
          rw [pow_succ, Nat.mul_comm, ← Nat.div_div_eq_div_mul]
          exact h j (by omega)
    rw [levelsFrom, List.getElem?_cons_succ]
    by_cases hlong : 64 < cur.length
    · rw [if_pos hlong, ih, level_succ, ← down_eq_halve]
      simp only [hshift, hlong, true_and]
    · rw [if_neg hlong, if_neg (fun h => hlong (hshift.mp h).1)]
      rfl

theorem getElem?_levels {peaks : List ℚ} {k : ℕ} {lvl : List ℚ} :
    (new peaks).levels[k]? = some lvl ↔
      peaks ≠ [] ∧ (∀ j < k, 64 < peaks.length / 2 ^ j) ∧ level louder peaks k = lvl := by
  unfold new
  cases peaks with
  | nil => simp
  | cons p rest =>
    simp only [List.isEmpty_cons, Bool.false_eq_true, if_false, getElem?_levelsFrom]
    split
    case isTrue h =>
      rw [Option.some.injEq]
      exact ⟨fun heq => ⟨List.cons_ne_nil p rest, h, heq⟩, fun heq => heq.2.2⟩
    case isFalse h => exact ⟨fun heq => (by cases heq), fun heq => absurd heq.2.1 h⟩

/-- The last entry that passes a test, with none behind it that does. -/
theorem getElem?_of_find?_reverse {α : Type*} {test : α → Bool} {xs : List α} {x : α}
    (h : xs.reverse.find? test = some x) :
    ∃ k : ℕ, xs[k]? = some x ∧ test x = true ∧
      ∀ (k' : ℕ) (y : α), k < k' → xs[k']? = some y → test y = false := by
  obtain ⟨htest, before, after, hsplit, hbefore⟩ := List.find?_eq_some_iff_append.mp h
  have hxs : xs = after.reverse ++ x :: before.reverse := by
    rw [← List.reverse_reverse xs, hsplit, List.reverse_append, List.reverse_cons,
      List.append_assoc, List.singleton_append]
  refine ⟨after.length, ?_, htest, ?_⟩
  · rw [hxs, List.getElem?_append_right (by simp), List.length_reverse, Nat.sub_self]
    rfl
  · intro k' y hk hy
    obtain ⟨d, rfl⟩ : ∃ d, k' = after.length + (d + 1) := ⟨k' - after.length - 1, by omega⟩
    rw [hxs, List.getElem?_append_right (by simp), List.length_reverse, Nat.add_sub_cancel_left,
      List.getElem?_cons_succ] at hy
    have hmem : y ∈ before := List.mem_reverse.mp (List.mem_of_getElem? hy)
    simpa using hbefore y hmem

/-- The level drawn is the coarsest that has a peak for each pixel, and the source where none has. -/
theorem exists_level_getPeaksForWidth {peaks : List ℚ} (hne : peaks ≠ []) (widthPx : ℕ) :
    ∃ k, (new peaks).levels[k]? = some ((new peaks).getPeaksForWidth widthPx) ∧
      (k = 0 ∨ widthPx ≤ peaks.length / 2 ^ k) ∧
      ∀ k', k < k' → (∀ j < k', 64 < peaks.length / 2 ^ j) → peaks.length / 2 ^ k' < widthPx := by
  have hlevel : ∀ k, (∀ j < k, 64 < peaks.length / 2 ^ j) →
      (new peaks).levels[k]? = some (level louder peaks k) := fun k hk =>
    getElem?_levels.mpr ⟨hne, hk, rfl⟩
  have hbottom := hlevel 0 fun j hj => absurd hj (Nat.not_lt_zero j)
  have hsome : (new peaks).levels ≠ [] := by
    intro h
    rw [h] at hbottom
    cases hbottom
  have hguard : ¬(new peaks).levels.isEmpty = true := by simpa using hsome
  unfold getPeaksForWidth
  rw [if_neg hguard]
  cases hfind : (new peaks).levels.reverse.find? fun lvl => decide (widthPx ≤ lvl.length) with
  | some lvl =>
    obtain ⟨k, hk, hwide, hlast⟩ := getElem?_of_find?_reverse hfind
    obtain ⟨-, -, rfl⟩ := getElem?_levels.mp hk
    refine ⟨k, hk, Or.inr ?_, fun k' hlt hk' => ?_⟩
    · rwa [decide_eq_true_eq, length_level] at hwide
    · have hshort := hlast k' _ hlt (hlevel k' hk')
      rwa [decide_eq_false_iff_not, length_level, not_le] at hshort
  | none =>
    refine ⟨0, ?_, Or.inl rfl, fun k' _ hk' => ?_⟩
    · rw [hbottom]
      cases hlevels : (new peaks).levels with
      | nil => exact absurd hlevels hsome
      | cons first rest =>
        rw [hlevels, List.getElem?_cons_zero] at hbottom
        exact hbottom.symm
    · have hmem := List.mem_reverse.mpr (List.mem_of_getElem? (hlevel k' hk'))
      have hshort := List.find?_eq_none.mp hfind _ hmem
      rwa [decide_eq_true_eq, length_level, not_le] at hshort

/-! ## What is lost on the way up -/

/-- Drawing a waveform `widthPx` pixels wide through the cache shows every transient. -/
structure LosesNoTransient (peaks : List ℚ) (widthPx : ℕ) : Prop where
  /-- What is drawn is a level, with a peak for each pixel if the source has one. -/
  wide : (peaks ≠ [] →
      (new peaks).getPeaksForWidth widthPx ∈ (new peaks).levels) ∧
    (widthPx ≤ peaks.length → widthPx ≤ ((new peaks).getPeaksForWidth widthPx).length)
  /-- An entry of a level is the loudest of the peaks it comes from. -/
  loudest : ∀ k lvl i peak, (new peaks).levels[k]? = some lvl → lvl[i]? = some peak →
    (∃ s ∈ origin k i, peaks[s]? = some peak) ∧
      ∀ s ∈ origin k i, ∃ p, peaks[s]? = some p ∧ |p| ≤ |peak|
  /-- The entries of the level drawn come from all the peaks. -/
  covered : ∀ k, (new peaks).levels[k]? = some ((new peaks).getPeaksForWidth widthPx) →
    ∀ s < peaks.length, ∃ i < ((new peaks).getPeaksForWidth widthPx).length, s ∈ origin k i
  /-- The tallest column is the one owed to the loudest peak. -/
  tallest : ∀ halfH, 0 < halfH → ∀ p ∈ peaks, (∀ q ∈ peaks, |q| ≤ |p|) →
    (∃ col ∈ waveGeometry ((new peaks).getPeaksForWidth widthPx) widthPx halfH,
      col.2 = amp |p| halfH) ∧
    ∀ col ∈ waveGeometry ((new peaks).getPeaksForWidth widthPx) widthPx halfH,
      col.2 ≤ amp |p| halfH

theorem loudest_of_level {peaks lvl : List ℚ} {k i : ℕ} {peak : ℚ}
    (hlvl : (new peaks).levels[k]? = some lvl) (hpeak : lvl[i]? = some peak) :
    (∃ s ∈ origin k i, peaks[s]? = some peak) ∧
      ∀ s ∈ origin k i, ∃ p, peaks[s]? = some p ∧ |p| ≤ |peak| := by
  obtain ⟨-, -, rfl⟩ := getElem?_levels.mp hlvl
  exact level_greatest picksGreatest_louder peaks hpeak

/-- A level whose entries come from all the peaks has the loudest of them. -/
theorem exists_loudest {peaks lvl : List ℚ} {k : ℕ} {p : ℚ}
    (hlvl : (new peaks).levels[k]? = some lvl) (hcover : 2 ^ k ∣ peaks.length) (hp : p ∈ peaks)
    (htop : ∀ q ∈ peaks, |q| ≤ |p|) :
    ∃ peak ∈ lvl, |peak| = |p| ∧ ∀ q ∈ lvl, |q| ≤ |peak| := by
  have hle : ∀ q ∈ lvl, |q| ≤ |p| := by
    intro q hq
    obtain ⟨i, hi⟩ := List.mem_iff_getElem?.mp hq
    obtain ⟨⟨s, -, hs⟩, -⟩ := loudest_of_level hlvl hi
    exact htop q (List.mem_of_getElem? hs)
  obtain ⟨s, hs⟩ := List.mem_iff_getElem?.mp hp
  obtain ⟨i, hi, hmem⟩ := (covers_iff k _).mpr hcover s (List.getElem?_eq_some_iff.mp hs).1
  have hlen : i < lvl.length := by
    obtain ⟨-, -, rfl⟩ := getElem?_levels.mp hlvl
    rwa [length_level]
  obtain ⟨-, hgreatest⟩ := loudest_of_level hlvl (List.getElem?_eq_getElem hlen)
  obtain ⟨p', hp', hp'le⟩ := hgreatest s hmem
  obtain rfl : p = p' := Option.some.inj (hs.symm.trans hp')
  have heq : |lvl[i]| = |p| := le_antisymm (hle _ (List.getElem_mem hlen)) hp'le
  exact ⟨lvl[i], List.getElem_mem hlen, heq, fun q hq => (hle q hq).trans_eq heq.symm⟩

theorem div_two_pow_anti (n : ℕ) {i j : ℕ} (hij : i ≤ j) : n / 2 ^ j ≤ n / 2 ^ i :=
  Nat.div_le_div_left (Nat.pow_le_pow_right (by omega) hij) (Nat.two_pow_pos _)

theorem levels_index_unique {peaks lvl : List ℚ} {k k' : ℕ}
    (hk : (new peaks).levels[k]? = some lvl) (hk' : (new peaks).levels[k']? = some lvl) :
    k = k' := by
  have hlt : ∀ {k k' : ℕ}, (new peaks).levels[k]? = some lvl →
      (new peaks).levels[k']? = some lvl → ¬k < k' := by
    intro k k' hk hk' hlt
    obtain ⟨-, -, heq⟩ := getElem?_levels.mp hk
    obtain ⟨-, hlong, heq'⟩ := getElem?_levels.mp hk'
    have hlen : peaks.length / 2 ^ k = peaks.length / 2 ^ k' := by
      rw [← length_level louder, ← length_level louder, heq, heq']
    have hhalf : peaks.length / 2 ^ k' ≤ peaks.length / 2 ^ k / 2 := by
      rw [Nat.div_div_eq_div_mul, ← pow_succ]
      exact div_two_pow_anti _ hlt
    have := hlong k hlt
    omega
  exact le_antisymm (not_lt.mp (hlt hk' hk)) (not_lt.mp (hlt hk hk'))

/-- The level drawn uses up the source exactly if no level that is halved on the way to it has an odd
number of peaks. -/
theorem pow_dvd_drawn_iff {n widthPx k : ℕ} (hlong : ∀ j < k, 64 < n / 2 ^ j)
    (hwide : k = 0 ∨ widthPx ≤ n / 2 ^ k)
    (hlast : ∀ k', k < k' → (∀ j < k', 64 < n / 2 ^ j) → n / 2 ^ k' < widthPx) :
    2 ^ k ∣ n ↔ ∀ j, 64 < n / 2 ^ j → widthPx ≤ n / 2 ^ (j + 1) → 2 ∣ n / 2 ^ j := by
  rw [pow_dvd_iff]
  constructor
  · intro h j hj hj'
    refine h j ?_
    by_contra hkj
    have hshort := hlast (j + 1) (by omega) fun i hi => 
      lt_of_lt_of_le hj (div_two_pow_anti n (by omega))
    omega
  · intro h j hj
    have hj' : widthPx ≤ n / 2 ^ k := by
      rcases hwide with rfl | hwide
      · omega
      · exact hwide
    exact h j (hlong j hj) (hj'.trans (div_two_pow_anti n hj))

/-- The waveform shows every transient exactly if no level halved on the way to the one drawn has an
odd number of peaks, whose last peak would have no neighbour; and all the levels cover the source
exactly if no level halved at all has. -/
theorem losesNoTransient_iff (peaks : List ℚ) (widthPx : ℕ) :
    (LosesNoTransient peaks widthPx ↔
      ∀ j, 64 < peaks.length / 2 ^ j → widthPx ≤ peaks.length / 2 ^ (j + 1) →
        2 ∣ peaks.length / 2 ^ j) ∧
    ((∀ k lvl, (new peaks).levels[k]? = some lvl →
        ∀ s < peaks.length, ∃ i < lvl.length, s ∈ origin k i) ↔
      ∀ j, 64 < peaks.length / 2 ^ j → 2 ∣ peaks.length / 2 ^ j) := by
  have hcover : ∀ {k : ℕ} {lvl : List ℚ}, (new peaks).levels[k]? = some lvl →
      ((∀ s < peaks.length, ∃ i < lvl.length, s ∈ origin k i) ↔ 2 ^ k ∣ peaks.length) := by
    intro k lvl hk
    obtain ⟨-, -, rfl⟩ := getElem?_levels.mp hk
    rw [length_level]
    exact covers_iff k _
  constructor
  · by_cases hne : peaks = []
    · subst hne
      refine iff_of_true ⟨⟨fun h => absurd rfl h, fun h => h⟩, ?_, ?_, ?_⟩ (by simp)
      · intro k lvl i peak hk
        exact absurd rfl (getElem?_levels.mp hk).1
      · intro k hk
        exact absurd rfl (getElem?_levels.mp hk).1
      · intro halfH _ p hp
        cases hp
    · obtain ⟨k, hk, hwide, hlast⟩ := exists_level_getPeaksForWidth hne widthPx
      obtain ⟨-, hlong, hdrawn⟩ := getElem?_levels.mp hk
      rw [← pow_dvd_drawn_iff hlong hwide hlast]
      refine ⟨fun h => (hcover hk).mp (h.covered k hk), fun hdvd => ⟨⟨?_, ?_⟩, ?_, ?_, ?_⟩⟩
      · exact fun _ => List.mem_of_getElem? hk
      · intro hle
        rw [← hdrawn, length_level]
        rcases hwide with rfl | hwide
        · simpa using hle
        · exact hwide
      · exact fun k lvl i peak hlvl hpeak => loudest_of_level hlvl hpeak
      · intro k' hk'
        obtain rfl := levels_index_unique hk hk'
        exact (hcover hk).mpr hdvd
      · intro halfH hpos p hp htop
        obtain ⟨peak, hmem, habs, hpeak⟩ := exists_loudest hk hdvd hp htop
        rw [← habs]
        exact waveGeometry_tallest hmem hpeak widthPx hpos
  · constructor
    · intro h j hj
      have hne : peaks ≠ [] := by
        rintro rfl
        simp at hj
      have hk : (new peaks).levels[j + 1]? = some (level louder peaks (j + 1)) :=
        getElem?_levels.mpr ⟨hne, fun i hi =>
          lt_of_lt_of_le hj (div_two_pow_anti _ (by omega)), rfl⟩
      exact (pow_dvd_iff (j + 1) _).mp ((hcover hk).mp (h _ _ hk)) j (by omega)
    · intro h k lvl hk
      obtain ⟨-, hlong, -⟩ := getElem?_levels.mp hk
      exact (hcover hk).mpr ((pow_dvd_iff k _).mpr fun j hj => h j (hlong j hj))

/-- Of 65 peaks the last is dropped by the first halving: a transient there leaves a flat line. -/
theorem not_losesNoTransient_odd : ¬LosesNoTransient (List.replicate 64 0 ++ [1]) 1 := by
  intro h
  have hdown : down (List.replicate 64 0 ++ [1]) = List.replicate 32 0 := by decide +kernel
  have hlevels : (new (List.replicate 64 0 ++ [1])).levels =
      [List.replicate 64 0 ++ [1], List.replicate 32 0] := by
    rw [new, if_neg (by decide), levelsFrom, if_pos (by decide), hdown, levelsFrom,
      if_neg (by decide)]
  have hdrawn : (new (List.replicate 64 0 ++ [1])).getPeaksForWidth 1 = List.replicate 32 0 := by
    rw [getPeaksForWidth, hlevels]
    rfl
  obtain ⟨⟨col, hmem, hcol⟩, -⟩ := h.tallest 10 (by decide +kernel) 1 (by decide +kernel)
    (by decide +kernel)
  have hflat : ∀ col ∈ waveGeometry (List.replicate 32 0) 1 10, col.2 < amp |1| 10 := by
    decide +kernel
  rw [hdrawn] at hmem
  exact absurd hcol (hflat col hmem).ne

end PeakCache

end HikaruOpenLive.Gui
