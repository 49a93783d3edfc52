import Mathlib.Data.List.Induction

/-! # Gestures

A gesture is a run of events, some of which have a point. Where the value that is held is set from the point
alone, whatever was before, the run comes out as its last point (`foldl_lastPoint`).
-/
set_option autoImplicit false

namespace HikaruOpenLive.Foundations.Gestures

variable {σ ε ρ ν : Type}

/-- The last point of a run, if an event of it has one. -/
def lastPoint (point : ε → Option ρ) (es : List ε) : Option ρ :=
  (es.filterMap point).getLast?

theorem lastPoint_concat (point : ε → Option ρ) (es : List ε) (e : ε) :
    lastPoint point (es ++ [e]) = (point e).or (lastPoint point es) := by
  unfold lastPoint
  rw [List.filterMap_append, List.getLast?_append]
  cases h : point e with
  | none => rw [List.filterMap_cons_none h, List.filterMap_nil, List.getLast?_nil, Option.none_or]
  | some p => rw [List.filterMap_cons_some h, List.filterMap_nil, List.getLast?_singleton, Option.some_or]

/-- A value that each point sets, and that no other event of the run changes. -/
theorem foldl_lastPoint {step : σ → ε → σ} {Held : σ → Prop} {point : ε → Option ρ} {see : σ → ν} {value : ρ → ν}
    {es : List ε}
    (hstep : ∀ s, ∀ e ∈ es, Held s → Held (step s e) ∧ see (step s e) = (point e).elim (see s) value)
    {s : σ} (hs : Held s) :
    Held (es.foldl step s) ∧ see (es.foldl step s) = (lastPoint point es).elim (see s) value := by
  induction es using List.reverseRecOn with
  | nil => exact ⟨hs, rfl⟩
  | append_singleton es e ih =>
    obtain ⟨hheld, hsee⟩ := ih fun s a ha => hstep s a (List.mem_append_left [e] ha)
    obtain ⟨hkeep, hlast⟩ := hstep (es.foldl step s) e (List.mem_append_right es List.mem_cons_self) hheld
    rw [List.foldl_append, List.foldl_cons, List.foldl_nil, lastPoint_concat, hlast]
    refine ⟨hkeep, ?_⟩
    cases point e with
    | none => rw [Option.elim_none, hsee, Option.none_or]
    | some p => rw [Option.elim_some, Option.some_or, Option.elim_some]

end HikaruOpenLive.Foundations.Gestures
