import HikaruOpenLive.Foundations.Runs
import HikaruOpenLive.Foundations.Saturating
import Mathlib.Data.List.Nodup

/-! # The timers of a CLAP plugin

`TimerRegistry` gives every timer an id of its own, and `takeDue` returns the ids whose time has come and
sets when they ring next. A `TimerRun` keeps beside it what the plugin knows of its timers from the calls
alone. Times and periods are milliseconds; a sum of them stops at the last value of a `u64`.
-/
set_option autoImplicit false

namespace HikaruOpenLive.PluginHost

open Foundations.Runs Foundations.Saturating

structure TimerEntry where
  id : ℕ
  period : ℕ
  next : ℕ
  deriving DecidableEq, Repr

structure TimerRegistry where
  entries : List TimerEntry
  nextId : ℕ

namespace TimerRegistry

/-- The id 0 stands for "no timer". -/
def new : TimerRegistry := { entries := [], nextId := 1 }

def register (r : TimerRegistry) (period now : ℕ) : ℕ × TimerRegistry :=
  (r.nextId,
    { entries := r.entries ++ [{ id := r.nextId, period := period, next := addUp 64 now period }]
      nextId := max ((r.nextId + 1) % 2 ^ 32) 1 })

def unregister (r : TimerRegistry) (id : ℕ) : TimerRegistry :=
  { r with entries := r.entries.filter fun entry => entry.id ≠ id }

def takeDue (r : TimerRegistry) (now : ℕ) : List ℕ × TimerRegistry :=
  ((r.entries.filter fun entry => entry.next ≤ now).map TimerEntry.id,
    { r with
      entries := r.entries.map fun entry =>
        if entry.next ≤ now then { entry with next := addUp 64 now entry.period } else entry })

end TimerRegistry

/-- A timer as the plugin knows it; `last` is when it was registered or last returned. -/
structure PluginTimer where
  id : ℕ
  period : ℕ
  last : ℕ

inductive TimerOp where
  | register (period now : ℕ)
  | unregister (id : ℕ)
  | takeDue (now : ℕ)

def TimerOp.isRegister : TimerOp → Bool
  | .register _ _ => true
  | _ => false

structure TimerRun where
  registry : TimerRegistry
  timers : List PluginTimer

namespace TimerRun

def start : TimerRun := { registry := .new, timers := [] }

def step (s : TimerRun) : TimerOp → TimerRun
  | .register period now =>
    let r := s.registry.register period now
    { registry := r.2, timers := s.timers ++ [{ id := r.1, period := period, last := now }] }
  | .unregister id =>
    { registry := s.registry.unregister id, timers := s.timers.filter fun t => t.id ≠ id }
  | .takeDue now =>
    let r := s.registry.takeDue now
    { registry := r.2
      timers := s.timers.map fun t => if t.id ∈ r.1 then { t with last := now } else t }

/-! ## What is asked of a run -/

/-- The last time a clock of 64 bits can show. -/
def lastReading : ℕ := 2 ^ 64 - 1

def PeriodPassed (t : PluginTimer) (now : ℕ) : Prop :=
  t.last + t.period ≤ now

/-- The registry has the timers that are registered, each under an id of its own; whenever it is asked, it
returns those that are `due`, once each; and an id that is taken out leaves the others as they are. -/
structure Timely (due : PluginTimer → ℕ → Prop) (s : TimerRun) : Prop where
  active : s.registry.entries.map TimerEntry.id = s.timers.map PluginTimer.id
  distinct : (s.timers.map PluginTimer.id).Nodup
  nonzero : 0 ∉ s.timers.map PluginTimer.id
  returned : ∀ now ≤ lastReading, ∀ id,
    id ∈ (s.registry.takeDue now).1 ↔ ∃ t ∈ s.timers, t.id = id ∧ due t now
  once : ∀ now, (s.registry.takeDue now).1.Nodup
  others : ∀ id, ∀ entry ∈ s.registry.entries, entry.id ≠ id →
    entry ∈ (s.registry.unregister id).entries

/-! ## What every step keeps -/

/-- The entry a timer has in the registry. -/
def entryOf (t : PluginTimer) : TimerEntry :=
  { id := t.id, period := t.period, next := addUp 64 t.last t.period }

/-- The registry follows from the timers; `n` of them were registered so far, under the ids from 1 on. -/
structure Counted (n : ℕ) (s : TimerRun) : Prop where
  entries : s.registry.entries = s.timers.map entryOf
  distinct : (s.timers.map PluginTimer.id).Nodup
  ids : ∀ t ∈ s.timers, 1 ≤ t.id ∧ t.id ≤ n
  nextId : n + 1 < 2 ^ 32 → s.registry.nextId = n + 1

theorem counted_start : start.Counted 0 :=
  ⟨rfl, List.nodup_nil, fun _ ht => absurd ht List.not_mem_nil, fun _ => rfl⟩

variable {n : ℕ} {s : TimerRun}

theorem mem_takeDue (h : s.registry.entries = s.timers.map entryOf) (now id : ℕ) :
    id ∈ (s.registry.takeDue now).1 ↔ ∃ t ∈ s.timers, t.id = id ∧ addUp 64 t.last t.period ≤ now := by
  rw [TimerRegistry.takeDue, h, List.mem_map]
  constructor
  · rintro ⟨entry, hentry, rfl⟩
    obtain ⟨hmem, hnext⟩ := List.mem_filter.mp hentry
    obtain ⟨t, ht, rfl⟩ := List.mem_map.mp hmem
    exact ⟨t, ht, rfl, of_decide_eq_true hnext⟩
  · rintro ⟨t, ht, rfl, hnext⟩
    exact ⟨entryOf t, List.mem_filter.mpr ⟨List.mem_map_of_mem ht, decide_eq_true hnext⟩, rfl⟩

/-- Among timers with ids of their own, the id tells whether the timer itself is due. -/
theorem id_mem_takeDue (h : s.Counted n) {t : PluginTimer} (ht : t ∈ s.timers) (now : ℕ) :
    t.id ∈ (s.registry.takeDue now).1 ↔ addUp 64 t.last t.period ≤ now := by
  rw [mem_takeDue h.entries]
  constructor
  · rintro ⟨u, hu, hid, hnext⟩
    rwa [← List.inj_on_of_nodup_map h.distinct hu ht hid]
  · intro hnext
    exact ⟨t, ht, rfl, hnext⟩

theorem Counted.register (h : s.Counted n) (hn : n + 1 < 2 ^ 32) (period now : ℕ) :
    (s.step (.register period now)).Counted (n + 1) := by
  have hid : s.registry.nextId = n + 1 := h.nextId hn
  refine ⟨?_, ?_, ?_, ?_⟩
  · show s.registry.entries ++ [_] = (s.timers ++ [_]).map entryOf
    rw [h.entries, List.map_append]
    rfl
  · show ((s.timers ++ [_]).map PluginTimer.id).Nodup
    rw [List.map_append]
    refine h.distinct.append (List.nodup_singleton _) ?_
    intro id hold hnew
    obtain ⟨t, ht, rfl⟩ := List.mem_map.mp hold
    have hle : t.id ≤ n := (h.ids t ht).2
    have heq : t.id = s.registry.nextId := List.mem_singleton.mp hnew
    omega
  · intro t ht
    obtain ht | ht := List.mem_append.mp ht
    · obtain ⟨hpos, hle⟩ := h.ids t ht
      exact ⟨hpos, by omega⟩
    · rw [List.mem_singleton.mp ht]
      show 1 ≤ s.registry.nextId ∧ s.registry.nextId ≤ n + 1
      omega
  · intro hnext
    show max ((s.registry.nextId + 1) % 2 ^ 32) 1 = n + 1 + 1
    rw [hid, Nat.mod_eq_of_lt hnext]
    omega

theorem Counted.unregister (h : s.Counted n) (id : ℕ) : (s.step (.unregister id)).Counted n := by
  refine ⟨?_, ?_, fun t ht => h.ids t (List.mem_of_mem_filter ht), h.nextId⟩
  · show s.registry.entries.filter _ = (s.timers.filter _).map entryOf
    rw [h.entries, List.filter_map]
    rfl
  · exact h.distinct.sublist (List.filter_sublist.map _)

theorem Counted.takeDue (h : s.Counted n) (now : ℕ) : (s.step (.takeDue now)).Counted n := by
  have hids : (s.step (.takeDue now)).timers.map PluginTimer.id = s.timers.map PluginTimer.id := by
    show (s.timers.map _).map PluginTimer.id = _
    rw [List.map_map]
    refine List.map_congr_left fun t _ => ?_
    show (if t.id ∈ (s.registry.takeDue now).1 then { t with last := now } else t).id = t.id
    split <;> rfl
  refine ⟨?_, hids ▸ h.distinct, ?_, h.nextId⟩
  · show s.registry.entries.map _ = (s.timers.map _).map entryOf
    rw [h.entries, List.map_map, List.map_map]
    refine List.map_congr_left fun t ht => ?_
    show (if addUp 64 t.last t.period ≤ now then { entryOf t with next := addUp 64 now t.period }
      else entryOf t) = entryOf (if t.id ∈ (s.registry.takeDue now).1 then { t with last := now } else t)
    by_cases hnext : addUp 64 t.last t.period ≤ now
    · rw [if_pos hnext, if_pos ((id_mem_takeDue h ht now).mpr hnext)]
      rfl
    · rw [if_neg hnext, if_neg fun hmem => hnext ((id_mem_takeDue h ht now).mp hmem)]
  · intro t ht
    have hmem : t.id ∈ s.timers.map PluginTimer.id := hids ▸ List.mem_map_of_mem ht
    obtain ⟨u, hu, hid⟩ := List.mem_map.mp hmem
    rw [← hid]
    exact h.ids u hu

/-- A time that saturates has come when the true one has, or when the clock stands at its end. -/
theorem addUp_le_iff {a b now : ℕ} (h : now ≤ lastReading) :
    addUp 64 a b ≤ now ↔ a + b ≤ now ∨ now = lastReading := by
  have hlast : lastReading = 2 ^ 64 - 1 := rfl
  rw [addUp, min_le_iff]
  omega

theorem Counted.timely (h : s.Counted n) :
    s.Timely fun t now => PeriodPassed t now ∨ now = lastReading := by
  have hactive : s.registry.entries.map TimerEntry.id = s.timers.map PluginTimer.id := by
    rw [h.entries, List.map_map]
    rfl
  refine ⟨hactive, h.distinct, ?_, ?_, ?_, ?_⟩
  · intro hzero
    obtain ⟨t, ht, hid⟩ := List.mem_map.mp hzero
    have hpos : 1 ≤ t.id := (h.ids t ht).1
    omega
  · intro now hnow id
    rw [mem_takeDue h.entries]
    simp only [addUp_le_iff hnow, PeriodPassed]
  · intro now
    have hnodup : (s.registry.entries.map TimerEntry.id).Nodup := hactive ▸ h.distinct
    exact hnodup.sublist (List.filter_sublist.map _)
  · intro id entry hentry hne
    exact List.mem_filter.mpr ⟨hentry, decide_eq_true hne⟩

/-! ## Whole runs -/

theorem timely_of_counted (h : s.Counted n) {ops : List TimerOp}
    (hops : n + ops.countP TimerOp.isRegister < 2 ^ 32) :
    Always step (Timely fun t now => PeriodPassed t now ∨ now = lastReading) s ops := by
  induction ops generalizing n s with
  | nil => exact h.timely
  | cons op ops ih =>
    refine ⟨h.timely, ?_⟩
    cases op with
    | register period now =>
      rw [List.countP_cons_of_pos rfl] at hops
      exact ih (h.register (by omega) period now) (by omega)
    | unregister id =>
      rw [List.countP_cons_of_neg Bool.false_ne_true] at hops
      exact ih (h.unregister id) hops
    | takeDue now =>
      rw [List.countP_cons_of_neg Bool.false_ne_true] at hops
      exact ih (h.takeDue now) hops

/-- In every order of the calls, at whatever times: a timer rings when its period has passed, or when the
clock stands at its end. -/
theorem always_timely {ops : List TimerOp} (h : ops.countP TimerOp.isRegister < 2 ^ 32) :
    Always step (Timely fun t now => PeriodPassed t now ∨ now = lastReading) start ops :=
  timely_of_counted counted_start (by omega)

/-- Two timers with one period, of which the first is taken out after both have rung. -/
theorem always_timely_same_period :
    Always step (Timely fun t now => PeriodPassed t now ∨ now = lastReading) start
      [.register 16 0, .register 16 5, .takeDue 21, .unregister 1, .takeDue 37] :=
  always_timely (by decide)

/-- A period that reaches past the end of the clock: the timer rings six milliseconds early. -/
theorem last_reading_rings_early :
    ¬ Always step (Timely PeriodPassed) start [.register 10 (2 ^ 64 - 5)] := by
  intro h
  have hdue : 1 ∈ (((start.step (.register 10 (2 ^ 64 - 5))).registry).takeDue lastReading).1 := by
    decide
  obtain ⟨t, ht, _, hpassed⟩ := (h.final.returned lastReading le_rfl 1).mp hdue
  obtain rfl := List.mem_singleton.mp ht
  exact absurd hpassed (by unfold PeriodPassed lastReading; decide)

end TimerRun

end HikaruOpenLive.PluginHost
