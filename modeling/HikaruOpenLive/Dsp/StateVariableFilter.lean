import HikaruOpenLive.Foundations.Dissipation
import HikaruOpenLive.Dsp.SpectralPhaser

/-! # The state variable filter

Two integrators and the gains set from cutoff and resonance. Arithmetic is exact, the tangent is that of
`Functions`.

The sum of the squares of the integrators is what the filter stores. A sample supplies at most its own square
times `g / k`, under the gains of that moment, and a change of the gains supplies nothing; so no sweep of
resonance, and of the cutoff up to half the sample rate, makes the filter ring louder than it was driven.
-/
set_option autoImplicit false

namespace HikaruOpenLive.Dsp

open Foundations.Dissipation

structure StateVariableFilter (K : Type) where
  ic1eq : K
  ic2eq : K
  g : K
  k : K
  a1 : K
  a2 : K
  a3 : K

/-- What a program does with a filter. -/
inductive FilterCall (K : Type) where
  | setParams (cutoff resonance sampleRate : K)
  | process (v0 : K)

variable {K : Type} [Field K] [LinearOrder K]

namespace StateVariableFilter

def new : StateVariableFilter K :=
  { ic1eq := 0, ic2eq := 0, g := 0, k := 0, a1 := 0, a2 := 0, a3 := 0 }

def setParams (F : Functions K) (f : StateVariableFilter K) (cutoff resonance sampleRate : K) :
    StateVariableFilter K :=
  let q := 1 / max resonance 0.01
  let g := F.tan (F.pi * cutoff / sampleRate)
  let k := q
  let a1 := 1 / (1 + g * (g + k))
  let a2 := g * a1
  { f with g := g, k := k, a1 := a1, a2 := a2, a3 := g * a2 }

/-- Low pass, high pass and band pass. -/
def process (f : StateVariableFilter K) (v0 : K) : StateVariableFilter K × (K × K × K) :=
  let v3 := v0 - f.ic2eq
  let v1 := f.a1 * f.ic1eq + f.a2 * v3
  let v2 := f.ic2eq + f.a2 * f.ic1eq + f.a3 * v3
  ({ f with ic1eq := 2.0 * v1 - f.ic1eq, ic2eq := 2.0 * v2 - f.ic2eq }, (v2, v0 - f.k * v1 - v2, v1))

def call (F : Functions K) (f : StateVariableFilter K) : FilterCall K → StateVariableFilter K
  | .setParams cutoff resonance sampleRate => f.setParams F cutoff resonance sampleRate
  | .process v0 => (f.process v0).1

/-- What the integrators hold. -/
def energy (f : StateVariableFilter K) : K :=
  f.ic1eq ^ 2 + f.ic2eq ^ 2

/-- What a call may add to it. -/
def drive (f : StateVariableFilter K) : FilterCall K → K
  | .setParams _ _ _ => 0
  | .process v0 => f.g / f.k * v0 ^ 2

end StateVariableFilter

/-- The cutoff is where its tangent is not negative: from 0 up to half the sample rate. -/
def FilterCall.Tunes (F : Functions K) : FilterCall K → Prop
  | .setParams cutoff _ sampleRate => 0 ≤ F.tan (F.pi * cutoff / sampleRate)
  | .process _ => True

variable [IsStrictOrderedRing K] {F : Functions K} {f : StateVariableFilter K}

/-! ## The gains -/

namespace StateVariableFilter

/-- The gains belong together; a filter never set is silent. -/
inductive Tuned (f : StateVariableFilter K) : Prop where
  | fresh (h : f = new)
  | set (hg : 0 ≤ f.g) (hk : 0 < f.k) (ha1 : f.a1 * (1 + f.g * (f.g + f.k)) = 1) (ha2 : f.a2 = f.g * f.a1)
      (ha3 : f.a3 = f.g * f.a2)

theorem tuned_setParams (f : StateVariableFilter K) {cutoff resonance sampleRate : K}
    (htan : 0 ≤ F.tan (F.pi * cutoff / sampleRate)) :
    (f.setParams F cutoff resonance sampleRate).Tuned := by
  have hmax : 0 < max resonance 0.01 := lt_max_of_lt_right (by norm_num)
  have hk : 0 < 1 / max resonance 0.01 := one_div_pos.mpr hmax
  have hden : 1 + F.tan (F.pi * cutoff / sampleRate) *
      (F.tan (F.pi * cutoff / sampleRate) + 1 / max resonance 0.01) ≠ 0 := by
    have := mul_nonneg htan (add_nonneg htan hk.le)
    positivity
  exact .set htan hk (one_div_mul_cancel hden) rfl rfl

omit [LinearOrder K] [IsStrictOrderedRing K] in
theorem new_process (v0 : K) : ((new : StateVariableFilter K).process v0) = (new, (0, v0, 0)) := by
  simp [process, new]

omit [IsStrictOrderedRing K] in
/-- The sound does not touch the gains. -/
theorem Tuned.process (h : f.Tuned) (v0 : K) : (f.process v0).1.Tuned := by
  cases h with
  | fresh h =>
    rw [h, new_process]
    exact .fresh rfl
  | set hg hk ha1 ha2 ha3 => exact .set hg hk ha1 ha2 ha3

/-! ## One sample -/

/-- Each integrator goes as far beyond its output as it was before it. -/
theorem energy_after (f : StateVariableFilter K) (v0 : K) :
    (f.process v0).1.energy =
      (2 * (f.process v0).2.2.2 - f.ic1eq) ^ 2 + (2 * (f.process v0).2.1 - f.ic2eq) ^ 2 := by
  have htwo : (2.0 : K) = 2 := by norm_num
  show (2.0 * (f.process v0).2.2.2 - f.ic1eq) ^ 2 + (2.0 * (f.process v0).2.1 - f.ic2eq) ^ 2 = _
  rw [htwo]

/-- What the band-pass output takes in and the damping takes away. -/
theorem energy_process (ha1 : f.a1 * (1 + f.g * (f.g + f.k)) = 1) (ha2 : f.a2 = f.g * f.a1)
    (ha3 : f.a3 = f.g * f.a2) (v0 : K) :
    (f.process v0).1.energy =
      f.energy + 4 * f.g * ((f.process v0).2.2.2 * (v0 - f.k * (f.process v0).2.2.2)) := by
  set v1 := (f.process v0).2.2.2 with hv1
  set v2 := (f.process v0).2.1 with hv2
  have hband : v1 = f.a1 * f.ic1eq + f.a2 * (v0 - f.ic2eq) := rfl
  have hlow : v2 = f.ic2eq + f.g * v1 := by
    show f.ic2eq + f.a2 * f.ic1eq + f.a3 * (v0 - f.ic2eq) = f.ic2eq + f.g * v1
    rw [hband, ha3, ha2]
    ring
  have hstate : v1 - f.ic1eq = f.g * (v0 - f.k * v1 - v2) := by
    have hsolve : v1 * (1 + f.g * (f.g + f.k)) = f.ic1eq + f.g * (v0 - f.ic2eq) := by
      rw [hband, ha2]
      linear_combination (f.ic1eq + f.g * (v0 - f.ic2eq)) * ha1
    rw [hlow]
    linear_combination hsolve
  have henergy : (f.process v0).1.energy = (2 * v1 - f.ic1eq) ^ 2 + (2 * v2 - f.ic2eq) ^ 2 := energy_after f v0
  rw [henergy, energy]
  linear_combination 4 * v1 * hstate + 4 * v2 * hlow

theorem energy_process_le (h : f.Tuned) (v0 : K) :
    (f.process v0).1.energy ≤ f.energy + f.drive (.process v0) := by
  cases h with
  | fresh h =>
    rw [h, new_process]
    simp [energy, drive, new]
  | set hg hk ha1 ha2 ha3 =>
    rw [energy_process ha1 ha2 ha3]
    set v1 := (f.process v0).2.2.2
    have hpower : 4 * (v1 * (v0 - f.k * v1)) ≤ v0 ^ 2 / f.k := by
      rw [le_div_iff₀ hk]
      nlinarith [sq_nonneg (v0 - 2 * f.k * v1)]
    have hdrive : f.drive (.process v0) = f.g * (v0 ^ 2 / f.k) := by
      show f.g / f.k * v0 ^ 2 = _
      ring
    rw [hdrive]
    have := mul_le_mul_of_nonneg_left hpower hg
    linarith

/-- Low pass and band pass are the means of what the integrators held and hold. -/
theorem outputs_le_energy (f : StateVariableFilter K) (v0 : K) :
    (f.process v0).2.1 ^ 2 + (f.process v0).2.2.2 ^ 2 ≤ (f.energy + (f.process v0).1.energy) / 2 := by
  set v1 := (f.process v0).2.2.2
  set v2 := (f.process v0).2.1
  have henergy : (f.process v0).1.energy = (2 * v1 - f.ic1eq) ^ 2 + (2 * v2 - f.ic2eq) ^ 2 := energy_after f v0
  rw [henergy, energy, le_div_iff₀ (by norm_num)]
  nlinarith [sq_nonneg (v1 - f.ic1eq), sq_nonneg (v2 - f.ic2eq)]

theorem drive_nonneg (h : f.Tuned) (call : FilterCall K) : 0 ≤ f.drive call := by
  cases call with
  | setParams cutoff resonance sampleRate => exact le_rfl
  | process v0 =>
    cases h with
    | fresh h => simp [drive, h, new]
    | set hg hk ha1 ha2 ha3 => exact mul_nonneg (div_nonneg hg hk.le) (sq_nonneg v0)

/-! ## Runs -/

theorem dissipates_call :
    Dissipates (call F) Tuned (FilterCall.Tunes F) energy (drive : StateVariableFilter K → _) where
  keep := by
    intro f i h hok
    cases i with
    | setParams cutoff resonance sampleRate => exact tuned_setParams f hok
    | process v0 => exact h.process v0
  le := by
    intro f i h hok
    cases i with
    | setParams cutoff resonance sampleRate => exact (add_zero f.energy).ge
    | process v0 => exact energy_process_le h v0

/-- However cutoff and resonance are swept, the cutoff up to half the sample rate, the integrators hold no more
than they held and the sound put in since; and the low and the band pass of the next sample are within all that
was put in from the start. -/
theorem outputs_le_drive (F : Functions K) (calls more : List (FilterCall K)) (v0 : K)
    (htunes : ∀ call ∈ calls ++ more, call.Tunes F) :
    let f := calls.foldl (call F) new
    let f' := more.foldl (call F) f
    f'.energy ≤ f.energy + supplied (call F) drive f more ∧
      (f'.process v0).2.1 ^ 2 + (f'.process v0).2.2.2 ^ 2 ≤
        supplied (call F) drive new (calls ++ more ++ [.process v0]) := by
  intro f f'
  have hbefore : ∀ call ∈ calls, call.Tunes F := fun call h => htunes call (List.mem_append_left _ h)
  have hafter : ∀ call ∈ more, call.Tunes F := fun call h => htunes call (List.mem_append_right _ h)
  have hnew : (new : StateVariableFilter K).Tuned := .fresh rfl
  have hf : f.Tuned := dissipates_call.inv_run hnew hbefore
  have hf' : f'.Tuned := dissipates_call.inv_run hf hafter
  refine ⟨dissipates_call.run hf hafter, ?_⟩
  have hzero : (new : StateVariableFilter K).energy = 0 := by simp [energy, new]
  have hstored : f'.energy ≤ supplied (call F) drive new (calls ++ more) := by
    have hrun := (dissipates_call (F := F)).run hnew htunes
    rw [hzero, zero_add, List.foldl_append] at hrun
    exact hrun
  have hlast := energy_process_le hf' v0
  have hmean := outputs_le_energy f' v0
  have hdrive := drive_nonneg hf' (.process v0)
  have htotal : supplied (call F) drive new (calls ++ more ++ [.process v0]) =
      supplied (call F) drive new (calls ++ more) + f'.drive (.process v0) := by
    rw [supplied_append, List.foldl_append]
    show _ + (f'.drive (.process v0) + 0) = _
    rw [add_zero]
  rw [htotal]
  linarith

/-- A filter set while it rings, to a quarter of the sample rate. -/
theorem outputs_le_drive_retuned :
    let calls : List (FilterCall ℝ) := [.process 1, .setParams 11025 2 44100, .process 1]
    let more : List (FilterCall ℝ) := [.process (-1), .setParams 11025 0 44100]
    let f := calls.foldl (call Functions.real) new
    let f' := more.foldl (call Functions.real) f
    f'.energy ≤ f.energy + supplied (call Functions.real) drive f more ∧
      (f'.process 1).2.1 ^ 2 + (f'.process 1).2.2.2 ^ 2 ≤
        supplied (call Functions.real) drive new (calls ++ more ++ [.process 1]) := by
  intro calls more
  refine outputs_le_drive Functions.real calls more 1 ?_
  have hquarter : Real.pi * 11025 / 44100 = Real.pi / 4 := by ring
  have htan : 0 ≤ Real.tan (Real.pi * 11025 / 44100) := by
    rw [hquarter, Real.tan_pi_div_four]
    exact zero_le_one
  simp only [calls, more, List.cons_append, List.nil_append, List.forall_mem_cons, FilterCall.Tunes]
  exact ⟨trivial, htan, trivial, trivial, htan, fun _ h => absurd h List.not_mem_nil⟩

end StateVariableFilter

end HikaruOpenLive.Dsp
