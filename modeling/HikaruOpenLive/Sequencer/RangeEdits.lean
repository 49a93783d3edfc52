import HikaruOpenLive.Sequencer.CutPaste

/-! # The laws of cutting and pasting

What a cut and a paste leave sounding at every frame. The cut keeps its law on every timeline. The paste
splits the events that host the insertion point but leaves them as long as they were: its law holds just
where there is none (`pasteInsert_law_iff`).
-/
set_option autoImplicit false

namespace HikaruOpenLive.Sequencer.ClipAudioTimeline

open ClipAudioEvent HikaruOpenLive.Foundations.TimedContent

/-- A cut closes the timeline up over the range, and returns what sounded in it and nothing beyond; a
range without a frame changes nothing. -/
theorem cutRange_law (tl : ClipAudioTimeline) (start stop : ℕ) :
    (start < stop →
      (∀ f, sounding (tl.cutRange start stop).1.events f =
        if f < start then sounding tl.events f else sounding tl.events (f + (stop - start))) ∧
      ∀ g, sounding (tl.cutRange start stop).2 g =
        if g < stop - start then sounding tl.events (start + g) else 0) ∧
      (stop ≤ start → tl.cutRange start stop = (tl, [])) := by
  refine ⟨fun hlt => ⟨fun f => sounding_cutRange tl hlt f, fun g => ?_⟩, fun hle => if_pos hle⟩
  rw [sounding_removed tl hlt, excerpt, Nat.add_comm g start]

theorem cutRange_law_single :
    sounding ((singleFull 10).cutRange 2 5).1.events 3 = sounding (singleFull 10).events 6 :=
  ((cutRange_law (singleFull 10) 2 5).1 (by decide)).1 3

/-- Nothing sounds from the extent of the fragments on. -/
theorem sounding_of_pasteLen_le (fragments : List ClipAudioEvent) {f : ℕ} (hf : pasteLen fragments ≤ f) :
    sounding fragments f = 0 := by
  rw [sounding_eq_zero_iff]
  rintro e he ⟨_, hlt⟩
  have hmem : e.stop ∈ fragments.map fun e => e.clipStart + e.length := List.mem_map_of_mem he
  have hle : e.stop ≤ pasteLen fragments := le_foldr_max hmem
  omega

theorem insertAt_sounding (evs fragments : List ClipAudioEvent) (pos f : ℕ) :
    insertAt pos (pasteLen fragments) (sounding evs) (sounding fragments) f =
      if f < pos then sounding evs f
      else if f < pos + pasteLen fragments then sounding fragments (f - pos)
      else sounding evs (f - pasteLen fragments) := by
  unfold insertAt openUp delay
  by_cases hf : f < pos
  · rw [if_pos hf, if_pos hf, if_pos hf, add_zero]
  · rw [if_neg hf, if_neg hf, if_neg hf]
    by_cases hg : f < pos + pasteLen fragments
    · rw [if_pos hg, if_pos hg, zero_add]
    · rw [if_neg hg, if_neg hg, sounding_of_pasteLen_le fragments (by omega), add_zero]

/-- A host goes on sounding at the insertion point itself. -/
theorem underneath_eq_zero_iff (evs : List ClipAudioEvent) (pos : ℕ) :
    (∀ f, underneath evs pos f = 0) ↔ Unhosted evs pos := by
  rw [← hosts_eq_nil_iff]
  constructor
  · intro h
    have hpos := h pos
    rw [underneath, if_neg (Nat.lt_irrefl pos), sounding_eq_zero_iff] at hpos
    refine List.eq_nil_iff_forall_not_mem.mpr fun e he => hpos e he ?_
    obtain ⟨_, hhost⟩ := List.mem_filter.mp he
    simp only [Bool.and_eq_true, decide_eq_true_eq] at hhost
    exact ⟨hhost.1.le, hhost.2⟩
  · intro h f
    rw [underneath, h]
    split <;> rfl

/-- A paste inserts its fragments in time if and only if no event begins before the insertion point and
reaches past it. -/
theorem pasteInsert_law_iff (tl : ClipAudioTimeline) (pos : ℕ) {fragments : List ClipAudioEvent}
    (hne : fragments ≠ []) :
    (∀ f, sounding (tl.pasteInsert pos fragments).1.events f =
      if f < pos then sounding tl.events f
      else if f < pos + pasteLen fragments then sounding fragments (f - pos)
      else sounding tl.events (f - pasteLen fragments)) ↔
      ∀ e ∈ tl.events, ¬ (e.clipStart < pos ∧ pos < e.stop) := by
  have hhosts : (∀ e ∈ tl.events, ¬ (e.clipStart < pos ∧ pos < e.stop)) ↔ Unhosted tl.events pos :=
    forall₂_congr fun e _ => by omega
  rw [hhosts, ← underneath_eq_zero_iff]
  refine forall_congr' fun f => ?_
  rw [sounding_pasteInsert hne, insertAt_sounding]
  exact add_eq_left

theorem pasteInsert_law_edge :
    sounding ((singleFull 10).pasteInsert 10 [ClipAudioEvent.new 0 0 40 3]).1.events 11 =
      sounding [ClipAudioEvent.new 0 0 40 3] 1 :=
  (pasteInsert_law_iff (singleFull 10) 10 (List.cons_ne_nil _ _)).mpr (by decide) 11

/-- Three frames pasted into the middle of an event: its second half sounds beneath them. -/
theorem not_pasteInsert_law :
    ¬ ∀ (tl : ClipAudioTimeline) (pos : ℕ) (fragments : List ClipAudioEvent), fragments ≠ [] →
      ∀ f, sounding (tl.pasteInsert pos fragments).1.events f =
        if f < pos then sounding tl.events f
        else if f < pos + pasteLen fragments then sounding fragments (f - pos)
        else sounding tl.events (f - pasteLen fragments) := by
  intro h
  have hmiddle := h (singleFull 10) 5 [ClipAudioEvent.new 0 0 40 3] (List.cons_ne_nil _ _) 6
  exact absurd hmiddle (by decide)

end HikaruOpenLive.Sequencer.ClipAudioTimeline
