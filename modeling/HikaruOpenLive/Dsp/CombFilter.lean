import HikaruOpenLive.Foundations.DelayLines
import HikaruOpenLive.Dsp.SpectralPhaser

/-! # The comb filter

A delay line read between two cells, damped and fed back. Delay, feedback and damping may change from one
sample to the next. Arithmetic is exact.

The line has 2048 cells. For delays from one sample to all of them the filter is the endless one, whose memory
has no bound; and no run of it leaves a hundred times the loudest input.
-/
set_option autoImplicit false

namespace HikaruOpenLive.Dsp

open Foundations.SampleStreams
open Foundations.DelayLines

def maxDelay : ℕ := 2048

structure CombFilter (K : Type) where
  buffer : List K
  writePtr : ℕ
  feedback : K
  damp : K
  lastOut : K

/-- What a program does with a comb filter. -/
inductive CombCall (K : Type) where
  | process (input delaySamples : K)
  | setFeedback (fb : K)
  | setDamp (d : K)

variable {K : Type} [Field K] [LinearOrder K] [FloorRing K]

/-- `%` of floats: the quotient is cut towards zero. -/
def rem (x y : K) : K :=
  if 0 ≤ x / y then x - y * (⌊x / y⌋ : ℤ) else x - y * (⌈x / y⌉ : ℤ)

namespace CombFilter

def new : CombFilter K :=
  { buffer := List.replicate maxDelay 0, writePtr := 0, feedback := 0.5, damp := 0.2, lastOut := 0 }

def process (c : CombFilter K) (input delaySamples : K) : CombFilter K × K :=
  let size : K := (maxDelay : ℕ)
  let readPtr := rem (c.writePtr - delaySamples + size) size
  let idx0 := ⌊readPtr⌋₊
  let idx1 := (idx0 + 1) % maxDelay
  let frac := readPtr - idx0
  let delayed := c.buffer.getD idx0 0 + frac * (c.buffer.getD idx1 0 - c.buffer.getD idx0 0)
  let out := delayed * (1 - c.damp) + c.lastOut * c.damp
  ({ c with
      lastOut := out
      buffer := c.buffer.set c.writePtr (input + out * c.feedback)
      writePtr := (c.writePtr + 1) % maxDelay }, out)

def setFeedback (c : CombFilter K) (fb : K) : CombFilter K :=
  { c with feedback := clamp (-0.99) 0.99 fb }

def setDamp (c : CombFilter K) (d : K) : CombFilter K :=
  { c with damp := clamp 0 0.9 d }

def call (c : CombFilter K) : CombCall K → CombFilter K × Option K
  | .process input delaySamples =>
    let (c, out) := c.process input delaySamples
    (c, some out)
  | .setFeedback fb => (c.setFeedback fb, none)
  | .setDamp d => (c.setDamp d, none)

end CombFilter

/-- The comb filter that keeps all it ever wrote, the newest first. -/
structure EndlessComb (K : Type) where
  past : List K
  feedback : K
  damp : K
  lastOut : K

namespace EndlessComb

/-- The sound `delay` samples ago, on the line between the two samples around it. -/
def ago (past : List K) (delay : K) : K :=
  let back := ⌈delay⌉₊
  past.getD (back - 1) 0 + (back - delay) * (past.getD (back - 2) 0 - past.getD (back - 1) 0)

def new : EndlessComb K :=
  { past := [], feedback := 0.5, damp := 0.2, lastOut := 0 }

def call (c : EndlessComb K) : CombCall K → EndlessComb K × Option K
  | .process input delaySamples =>
    let out := ago c.past delaySamples * (1 - c.damp) + c.lastOut * c.damp
    ({ c with lastOut := out, past := (input + out * c.feedback) :: c.past }, some out)
  | .setFeedback fb => ({ c with feedback := clamp (-0.99) 0.99 fb }, none)
  | .setDamp d => ({ c with damp := clamp 0 0.9 d }, none)

end EndlessComb

variable [IsStrictOrderedRing K]

/-! ## The reading place -/

theorem rem_nonneg {x y : K} (hx : 0 ≤ x) (hy : 0 < y) : 0 ≤ rem x y := by
  have hfloor : (⌊x / y⌋ : K) ≤ x / y := Int.floor_le (x / y)
  rw [rem, if_pos (div_nonneg hx hy.le)]
  rw [le_div_iff₀ hy] at hfloor
  linarith

theorem rem_readPlace {size pos : ℕ} (hpos : pos < size) {delay : K} (hlow : 0 < delay)
    (hhigh : delay ≤ size) : rem ((pos : K) - delay + size) size = readPlace size pos delay := by
  have hsize : (0 : K) < size := hlow.trans_le hhigh
  have hcast : (pos : K) < size := Nat.cast_lt.mpr hpos
  have hnonneg : (0 : K) ≤ pos := Nat.cast_nonneg pos
  have hx : 0 ≤ ((pos : K) - delay + size) / size := div_nonneg (by linarith) hsize.le
  unfold readPlace
  rw [rem, if_pos hx]
  by_cases h : delay ≤ pos
  · have hone : ⌊((pos : K) - delay + size) / size⌋ = 1 := by
      rw [Int.floor_eq_iff, Int.cast_one, le_div_iff₀ hsize, div_lt_iff₀ hsize]
      constructor <;> linarith
    rw [if_pos h, hone, Int.cast_one]
    ring
  · have hzero : ⌊((pos : K) - delay + size) / size⌋ = 0 := by
      rw [Int.floor_eq_iff, Int.cast_zero, le_div_iff₀ hsize, div_lt_iff₀ hsize]
      have := not_le.mp h
      constructor <;> linarith
    rw [if_neg h, hzero, Int.cast_zero]
    ring

/-! ## The line forgets only what is not asked for -/

/-- The filter's cells and the endless memory hold the same sound. -/
structure Refines (c : CombFilter K) (e : EndlessComb K) : Prop where
  memory : Remembers maxDelay 0 c.buffer c.writePtr e.past
  feedback : c.feedback = e.feedback
  damp : c.damp = e.damp
  lastOut : c.lastOut = e.lastOut

omit [LinearOrder K] [FloorRing K] [IsStrictOrderedRing K] in
theorem refines_new : Refines (CombFilter.new : CombFilter K) EndlessComb.new :=
  ⟨remembers_fresh (by decide) 0, rfl, rfl, rfl⟩

theorem delayed_eq_ago {buffer past : List K} {pos : ℕ} (h : Remembers maxDelay 0 buffer pos past)
    {delay : K} (hlow : 1 ≤ delay) (hhigh : delay ≤ (maxDelay : ℕ)) :
    let readPtr := rem ((pos : K) - delay + (maxDelay : ℕ)) (maxDelay : ℕ)
    buffer.getD ⌊readPtr⌋₊ 0 + (readPtr - ⌊readPtr⌋₊) *
        (buffer.getD ((⌊readPtr⌋₊ + 1) % maxDelay) 0 - buffer.getD ⌊readPtr⌋₊ 0) =
      EndlessComb.ago past delay := by
  intro readPtr
  have hpositive : 0 < delay := zero_lt_one.trans_le hlow
  have hplace : readPtr = readPlace maxDelay pos delay := rem_readPlace h.pos_lt hpositive hhigh
  obtain ⟨hfloor, hfrac⟩ := floor_readPlace h.pos_lt hpositive hhigh
  have hback : 1 ≤ ⌈delay⌉₊ := Nat.one_le_ceil_iff.mpr hpositive
  have hmost : ⌈delay⌉₊ ≤ maxDelay := Nat.ceil_le.mpr hhigh
  have hfirst : buffer.getD ⌊readPtr⌋₊ 0 = past.getD (⌈delay⌉₊ - 1) 0 := by
    refine h.read (by omega) ?_
    rw [hplace, hfloor, Nat.sub_add_cancel hback]
  unfold EndlessComb.ago
  rw [hfirst, hplace, hfrac]
  by_cases hone : ⌈delay⌉₊ = 1
  · -- a delay of one sample: nothing lies between the newest sample and itself
    have hdelay : delay = 1 := le_antisymm (by simpa [hone] using Nat.le_ceil delay) hlow
    have hceil : ⌈(1 : K)⌉₊ = 1 := Nat.ceil_one
    dsimp only
    rw [hdelay, hceil, Nat.cast_one, sub_self, zero_mul, zero_mul]
  · have hsecond : buffer.getD ((⌊readPlace maxDelay pos delay⌋₊ + 1) % maxDelay) 0 =
        past.getD (⌈delay⌉₊ - 2) 0 := by
      refine h.read (by omega) ?_
      rw [hfloor, Nat.mod_add_mod]
      congr 1
      omega
    rw [hsecond]

/-- A delay the line is long enough for. -/
def CombCall.Fits : CombCall K → Prop
  | .process _ delaySamples => 1 ≤ delaySamples ∧ delaySamples ≤ (maxDelay : ℕ)
  | .setFeedback _ => True
  | .setDamp _ => True

theorem refines_call {c : CombFilter K} {e : EndlessComb K} (h : Refines c e) {call : CombCall K}
    (hfits : call.Fits) : Refines (c.call call).1 (e.call call).1 ∧ (c.call call).2 = (e.call call).2 := by
  cases call with
  | process input delaySamples =>
    obtain ⟨hlow, hhigh⟩ := hfits
    have hago := delayed_eq_ago h.memory hlow hhigh
    have hout : (c.process input delaySamples).2 =
        EndlessComb.ago e.past delaySamples * (1 - e.damp) + e.lastOut * e.damp := by
      rw [← hago, ← h.damp, ← h.lastOut]
      rfl
    refine ⟨⟨?_, h.feedback, h.damp, hout⟩, congrArg some hout⟩
    have hwrite := h.memory.write (input + (c.process input delaySamples).2 * c.feedback)
    rw [hout, h.feedback] at hwrite
    show Remembers maxDelay 0
      (c.buffer.set c.writePtr (input + (c.process input delaySamples).2 * c.feedback)) _ _
    rw [hout, h.feedback]
    exact hwrite
  | setFeedback fb => exact ⟨⟨h.memory, rfl, h.damp, h.lastOut⟩, rfl⟩
  | setDamp d => exact ⟨⟨h.memory, h.feedback, rfl, h.lastOut⟩, rfl⟩

/-- While every delay is between one sample and the whole line, the filter gives what the endless one does,
however delay, feedback and damping change on the way. -/
theorem outputs_eq_endless (calls : List (CombCall K)) (hfits : ∀ call ∈ calls, call.Fits) :
    (stream CombFilter.call CombFilter.new calls).2 = (stream EndlessComb.call EndlessComb.new calls).2 :=
  stream_simulates (f := CombFilter.call) (g := EndlessComb.call) (R := Refines)
    (fun _ _ _ h hok => refines_call h hok) refines_new hfits

/-- A delay that changes while the filter runs, and a feedback out of range. -/
theorem outputs_eq_endless_changing :
    let calls : List (CombCall ℚ) :=
      [.process 1 1, .setFeedback 2, .process (1 / 2) (3 / 2), .setDamp (-1), .process 0 2048]
    (stream CombFilter.call CombFilter.new calls).2 = (stream EndlessComb.call EndlessComb.new calls).2 := by
  intro calls
  refine outputs_eq_endless calls ?_
  simp only [calls, List.forall_mem_cons, CombCall.Fits]
  norm_num [maxDelay]

/-! ## Loudness -/

omit [FloorRing K] in
/-- A point between two values is no further from zero than both. -/
theorem abs_between_le {bound a b t : K} (ha : |a| ≤ bound) (hb : |b| ≤ bound) (hlow : 0 ≤ t)
    (hhigh : t ≤ 1) : |a * (1 - t) + b * t| ≤ bound := by
  have hrest : 0 ≤ 1 - t := sub_nonneg.mpr hhigh
  calc |a * (1 - t) + b * t| ≤ |a * (1 - t)| + |b * t| := abs_add_le _ _
    _ = |a| * (1 - t) + |b| * t := by rw [abs_mul, abs_mul, abs_of_nonneg hrest, abs_of_nonneg hlow]
    _ ≤ bound * (1 - t) + bound * t := by gcongr
    _ = bound := by ring

/-- Every value kept is at most a hundred times `peak` in size, and the settings are in their ranges. -/
structure Quiet (peak : K) (c : CombFilter K) : Prop where
  writePtr_lt : c.writePtr < maxDelay
  cells : ∀ i, |c.buffer.getD i 0| ≤ 100 * peak
  lastOut : |c.lastOut| ≤ 100 * peak
  feedback : |c.feedback| ≤ 0.99
  damp_nonneg : 0 ≤ c.damp
  damp_le : c.damp ≤ 1

/-- A sample of at most `peak`, and a delay that does not reach past the whole line. -/
def CombCall.Within (peak : K) : CombCall K → Prop
  | .process input delaySamples => |input| ≤ peak ∧ delaySamples ≤ (maxDelay : ℕ)
  | .setFeedback _ => True
  | .setDamp _ => True

omit [FloorRing K] in
theorem quiet_new {peak : K} (h : 0 ≤ peak) : Quiet peak (CombFilter.new : CombFilter K) := by
  have hzero : |(0 : K)| ≤ 100 * peak := by
    rw [abs_zero]
    linarith
  refine ⟨Nat.zero_lt_succ _, ?_, hzero, ?_, ?_, ?_⟩
  · intro i
    rw [CombFilter.new, List.getD_eq_getElem?_getD, List.getElem?_replicate]
    split <;> exact hzero
  · rw [CombFilter.new, abs_of_pos] <;> norm_num
  · rw [CombFilter.new]
    norm_num
  · rw [CombFilter.new]
    norm_num

/-- The filter's output is no louder than what it keeps. -/
theorem abs_process_le {peak : K} {c : CombFilter K} (h : Quiet peak c) {delaySamples : K}
    (hdelay : delaySamples ≤ (maxDelay : ℕ)) (input : K) :
    |(c.process input delaySamples).2| ≤ 100 * peak := by
  set readPtr := rem ((c.writePtr : K) - delaySamples + (maxDelay : ℕ)) (maxDelay : ℕ) with hreadPtr
  have hnonneg : 0 ≤ readPtr := by
    have hwritePtr : (0 : K) ≤ c.writePtr := Nat.cast_nonneg c.writePtr
    exact rem_nonneg (by linarith) (Nat.cast_pos.mpr (by decide))
  have hlow : 0 ≤ readPtr - ⌊readPtr⌋₊ := sub_nonneg.mpr (Nat.floor_le hnonneg)
  have hhigh : readPtr - ⌊readPtr⌋₊ ≤ 1 := by
    have := Nat.lt_floor_add_one readPtr
    linarith
  have hdelayed := abs_between_le (h.cells ⌊readPtr⌋₊) (h.cells ((⌊readPtr⌋₊ + 1) % maxDelay)) hlow hhigh
  have hout : (c.process input delaySamples).2 =
      (c.buffer.getD ⌊readPtr⌋₊ 0 * (1 - (readPtr - ⌊readPtr⌋₊)) +
        c.buffer.getD ((⌊readPtr⌋₊ + 1) % maxDelay) 0 * (readPtr - ⌊readPtr⌋₊)) * (1 - c.damp) +
      c.lastOut * c.damp := by
    rw [hreadPtr]
    simp only [CombFilter.process]
    ring
  rw [hout]
  exact abs_between_le hdelayed h.lastOut h.damp_nonneg h.damp_le

theorem quiet_process {peak : K} {c : CombFilter K} (h : Quiet peak c) {input delaySamples : K}
    (hinput : |input| ≤ peak) (hdelay : delaySamples ≤ (maxDelay : ℕ)) :
    Quiet peak (c.process input delaySamples).1 := by
  have hout := abs_process_le h hdelay input
  set out := (c.process input delaySamples).2 with hdef
  have hfed : |input + out * c.feedback| ≤ 100 * peak := by
    calc |input + out * c.feedback| ≤ |input| + |out| * |c.feedback| := by
          rw [← abs_mul]
          exact abs_add_le _ _
      _ ≤ peak + 100 * peak * 0.99 := by
          gcongr
          · exact (abs_nonneg out).trans hout
          · exact h.feedback
      _ = 100 * peak := by ring
  refine ⟨Nat.mod_lt _ (by decide), ?_, hout, h.feedback, h.damp_nonneg, h.damp_le⟩
  intro i
  show |(c.buffer.set c.writePtr (input + out * c.feedback)).getD i 0| ≤ 100 * peak
  rw [List.getD_eq_getElem?_getD, List.getElem?_set]
  split
  · split
    · exact hfed
    · have hnonneg : (0 : K) ≤ 100 * peak := (abs_nonneg _).trans hfed
      simpa using hnonneg
  · rw [← List.getD_eq_getElem?_getD]
    exact h.cells i

omit [Field K] [FloorRing K] [IsStrictOrderedRing K] in
/-- A setting that was clamped is in its range. -/
theorem clamp_mem {low high : K} (h : low ≤ high) (x : K) :
    low ≤ clamp low high x ∧ clamp low high x ≤ high :=
  ⟨le_max_left _ _, max_le h (min_le_right _ _)⟩

theorem quiet_call {peak : K} {c : CombFilter K} (h : Quiet peak c) {call : CombCall K}
    (hwithin : call.Within peak) :
    Quiet peak (c.call call).1 ∧ ∀ out ∈ (c.call call).2, |out| ≤ 100 * peak := by
  cases call with
  | process input delaySamples =>
    obtain ⟨hinput, hdelay⟩ := hwithin
    refine ⟨quiet_process h hinput hdelay, ?_⟩
    intro out hmem
    rw [← Option.some.inj hmem]
    exact abs_process_le h hdelay input
  | setFeedback fb =>
    have hrange : (-0.99 : K) ≤ 0.99 := by norm_num
    obtain ⟨hlow, hhigh⟩ := clamp_mem hrange fb
    refine ⟨⟨h.writePtr_lt, h.cells, h.lastOut, abs_le.mpr ⟨hlow, hhigh⟩, h.damp_nonneg, h.damp_le⟩, ?_⟩
    intro out hmem
    cases hmem
  | setDamp d =>
    have hrange : (0 : K) ≤ 0.9 := by norm_num
    obtain ⟨hlow, hhigh⟩ := clamp_mem hrange d
    have hone : (0.9 : K) ≤ 1 := by norm_num
    refine ⟨⟨h.writePtr_lt, h.cells, h.lastOut, h.feedback, hlow, hhigh.trans hone⟩, ?_⟩
    intro out hmem
    cases hmem

/-- However delay, feedback and damping are set and changed on the way, while no delay is longer than the line
no output is louder than a hundred times the loudest input. -/
theorem outputs_le_hundredfold {peak : K} (hpeak : 0 ≤ peak) (calls : List (CombCall K))
    (hwithin : ∀ call ∈ calls, call.Within peak) :
    ∀ out ∈ (stream CombFilter.call CombFilter.new calls).2, ∀ y ∈ out, |y| ≤ 100 * peak :=
  stream_outputs (I := Quiet peak) (fun _ _ h hok => quiet_call h hok) (quiet_new hpeak) hwithin

/-- At the largest feedback, with delays of every kind up to the whole line. -/
theorem outputs_le_hundredfold_loud :
    let calls : List (CombCall ℚ) := [.setFeedback 1, .process 1 0, .process (-1) (1 / 2), .process 1 2048]
    ∀ out ∈ (stream CombFilter.call CombFilter.new calls).2, ∀ y ∈ out, |y| ≤ 100 * 1 := by
  intro calls
  refine outputs_le_hundredfold zero_le_one calls ?_
  simp only [calls, List.forall_mem_cons, CombCall.Within]
  norm_num [maxDelay]

end HikaruOpenLive.Dsp
