import HikaruOpenLive.Engine.ClipRender

/-! # The preview player

A preview copies decoded PCM into the output until its cursor passes the end of the buffer. The frame
that finds the end moves the cursor too, unless the previous block stopped the preview exactly at the
end; the cursor is therefore compared as far as the end of the buffer (`settled`).
-/
set_option autoImplicit false

namespace HikaruOpenLive.Engine

open Foundations.BlockSplit

structure PreviewBuffer where
  data : List ℚ
  channels : ℕ
  length : ℕ
  cursor : ℕ
  volume : ℚ
  isPlaying : Bool
  generation : ℕ
deriving DecidableEq, Repr

namespace PreviewBuffer

def new : PreviewBuffer :=
  { data := [], channels := 1, length := 0, cursor := 0, volume := 4 / 5, isPlaying := false,
    generation := 0 }

def start (p : PreviewBuffer) (samples : List ℚ) (channels generation : ℕ) :
    PreviewBuffer :=
  { p with
    data := samples, channels := max channels 1, length := samples.length, cursor := 0
    isPlaying := true, generation := generation }

def stop (p : PreviewBuffer) : PreviewBuffer :=
  { p with isPlaying := false, cursor := 0 }

def activeLen (p : PreviewBuffer) : ℕ :=
  min p.length p.data.length

def stride (p : PreviewBuffer) : ℕ :=
  if p.channels = 2 then 2 else 1

def sample (p : PreviewBuffer) (pos : ℕ) : ℚ :=
  max (-1) (min (p.data.getD pos 0 * p.volume) 1)

def step (p : PreviewBuffer) (pos : ℕ) : Option (Frame × ℕ) :=
  if p.channels = 2 then
    if pos + 1 < p.activeLen then some ((p.sample pos, p.sample (pos + 1)), pos + 2) else none
  else
    if pos < p.activeLen then some ((p.sample pos, p.sample pos), pos + 1) else none

def process (p : PreviewBuffer) (n : ℕ) : List Frame × PreviewBuffer :=
  if !p.isPlaying then (silence n, p)
  else
    let out := emit p.step (0, 0) n p.cursor
    -- The frame that finds the end has already moved the cursor.
    let cursor := if out.2.2 then out.2.1 + p.stride else out.2.1
    (out.1, { p with cursor := cursor, isPlaying := !out.2.2 && decide (cursor < p.activeLen) })

/-- The preview with its cursor taken no further than the end of the buffer. -/
def settled (p : PreviewBuffer) : PreviewBuffer :=
  { p with cursor := min p.cursor p.activeLen }

theorem step_past {p : PreviewBuffer} {pos : ℕ} (h : p.activeLen ≤ pos) : p.step pos = none := by
  unfold step
  rw [if_neg (show ¬ pos + 1 < p.activeLen by omega), if_neg (show ¬ pos < p.activeLen by omega)]
  exact ite_self none

theorem process_idle {p : PreviewBuffer} (h : p.isPlaying = false) (n : ℕ) :
    p.process n = (silence n, p) := by
  simp [process, h]

theorem process_length (p : PreviewBuffer) (n : ℕ) : (p.process n).1.length = n := by
  unfold process
  split
  · exact List.length_replicate
  · exact emit_length _ _ n _

/-- The block of a preview, cut in two: the same output, and the same preview up to how far past the
end its cursor stands. -/
theorem process_split (p : PreviewBuffer) (m : ℕ) {n : ℕ} (hn : 0 < n) :
    (p.process m).1 ++ ((p.process m).2.process n).1 = (p.process (m + n)).1 ∧
      ((p.process m).2.process n).2.settled = (p.process (m + n)).2.settled := by
  by_cases hplay : p.isPlaying = true
  · unfold process
    simp only [hplay, Bool.not_true, Bool.false_eq_true, if_false]
    rw [emit_add _ _ m hn]
    set first := emit p.step (0, 0) m p.cursor with hfirst
    cases hb : first.2.2 with
    | true =>
      have hbroke := emit_broke _ _ hb
      rw [← hfirst] at hbroke
      rw [emit_of_break _ _ hbroke]
      simp [silence, hn, stride]
    | false =>
      by_cases hend : first.2.1 < p.activeLen
      · simp only [hend, Bool.false_eq_true, if_false, Bool.not_false, Bool.true_and,
          decide_true, Bool.not_true]
        exact ⟨rfl, rfl⟩
      · -- The block filled up exactly at the end, where one more frame would have found it.
        rw [emit_of_break _ _ (step_past (Nat.le_of_not_lt hend))]
        simp only [hend, Bool.false_eq_true, if_false, Bool.not_false, decide_false, Bool.and_false,
          if_true, hn, decide_true, Bool.not_true, Bool.false_and]
        refine ⟨rfl, ?_⟩
        unfold settled activeLen
        unfold activeLen at hend
        simp only [PreviewBuffer.mk.injEq, true_and, and_true]
        omega
  · have hidle : p.isPlaying = false := by simpa using hplay
    rw [process_idle hidle, process_idle hidle, process_idle hidle]
    exact ⟨(List.replicate_add ..).symm, rfl⟩

end PreviewBuffer

end HikaruOpenLive.Engine
