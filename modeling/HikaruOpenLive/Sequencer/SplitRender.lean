import HikaruOpenLive.Sequencer.CutPaste

/-! # Splitting an event

`split_at` searches the first event that contains the frame, and splits nothing if that one begins there.
On sorted events none that begins earlier is missed so. The two halves render what the event did as long
as its fades do not cross the cut.
-/
set_option autoImplicit false

namespace HikaruOpenLive.Sequencer

namespace ClipAudioEvent

/-- The fades of an event stay on their sides of a cut. -/
def FadesApart (e : ClipAudioEvent) (atFrame : ℕ) : Prop :=
  e.fadeIn ≤ atFrame - e.clipStart ∧ e.fadeOut ≤ e.stop - atFrame

theorem splitAt_inside {e : ClipAudioEvent} {atFrame : ℕ} (h : e.clipStart < atFrame ∧ atFrame < e.stop)
    (newId : ℕ) :
    e.splitAt atFrame newId = some
      ({ e with length := atFrame - e.clipStart, fadeOut := 0 },
        { id := newId, sourceId := e.sourceId, clipStart := atFrame
          sourceOffset := e.sourceOffset + (atFrame - e.clipStart), length := e.stop - atFrame
          gain := e.gain, fadeIn := 0, fadeOut := e.fadeOut }) := by
  unfold splitAt
  rw [if_neg (by omega)]

/-- The factor of a fade at a distance from its silent end. -/
def ramp (fade distance : ℕ) : ℚ :=
  if fade ≤ distance then 1 else distance / fade

theorem ramp_of_le {fade distance : ℕ} (h : fade ≤ distance) : ramp fade distance = 1 :=
  if_pos h

theorem gainAt_of_mem {e : ClipAudioEvent} {f : ℕ} (h : e.clipStart ≤ f ∧ f < e.stop) :
    e.gainAt f = e.gain * ramp e.fadeIn (f - e.clipStart) * ramp e.fadeOut (e.stop - f) := by
  have hc : e.containsClipFrame f = true := (e.contains_iff f).mpr h
  have hin : (0 < e.fadeIn ∧ f - e.clipStart < e.fadeIn) ↔ ¬ e.fadeIn ≤ f - e.clipStart := by omega
  have hout : (0 < e.fadeOut ∧ e.stop - f < e.fadeOut) ↔ ¬ e.fadeOut ≤ e.stop - f := by omega
  unfold gainAt ramp
  rw [if_neg (by rw [hc]; decide)]
  simp only [hin, hout, ite_not, mul_ite, mul_one]

end ClipAudioEvent

namespace ClipAudioTimeline

open ClipAudioEvent

theorem contribution_of_mem (source : List ℚ) {e : ClipAudioEvent} {f : ℕ}
    (h : e.clipStart ≤ f ∧ f < e.stop) :
    contribution source e f = source.getD (e.sourceOffset + (f - e.clipStart)) 0 * e.gainAt f :=
  if_pos ((e.contains_iff f).mpr h)

theorem contribution_of_not_mem (source : List ℚ) {e : ClipAudioEvent} {f : ℕ}
    (h : ¬ (e.clipStart ≤ f ∧ f < e.stop)) : contribution source e f = 0 :=
  if_neg fun hc => h ((e.contains_iff f).mp hc)

/-- The halves of an event whose fades do not cross the cut render what it did. -/
theorem contribution_split (source : List ℚ) {e l r : ClipAudioEvent} {atFrame newId : ℕ}
    (h : e.clipStart < atFrame ∧ atFrame < e.stop) (hfades : e.FadesApart atFrame)
    (hsplit : e.splitAt atFrame newId = some (l, r)) (f : ℕ) :
    contribution source l f + contribution source r f = contribution source e f := by
  obtain ⟨hin, hout⟩ := hfades
  rw [splitAt_inside h] at hsplit
  obtain ⟨hleft, hright⟩ := Prod.mk.inj (Option.some.inj hsplit)
  have hl : l.clipStart = e.clipStart ∧ l.stop = atFrame := by
    rw [← hleft]
    exact ⟨rfl, Nat.add_sub_cancel' h.1.le⟩
  have hr : r.clipStart = atFrame ∧ r.stop = e.stop := by
    rw [← hright]
    exact ⟨rfl, Nat.add_sub_cancel' h.2.le⟩
  by_cases hf : e.clipStart ≤ f ∧ f < e.stop
  · rw [contribution_of_mem source hf, gainAt_of_mem hf]
    obtain hlt | hge := Nat.lt_or_ge f atFrame
    · -- The left half keeps the fade in, and the fade out has not begun.
      have hfull : e.fadeOut ≤ e.stop - f := by omega
      rw [contribution_of_not_mem source (e := r) (by omega), add_zero,
        contribution_of_mem source (e := l) (by omega), gainAt_of_mem (e := l) (by omega), ← hleft,
        ramp_of_le hfull, ramp_of_le (Nat.zero_le _)]
    · have hfull : e.fadeIn ≤ f - e.clipStart := by omega
      have hoff : e.sourceOffset + (atFrame - e.clipStart) + (f - atFrame) =
          e.sourceOffset + (f - e.clipStart) := by omega
      rw [contribution_of_not_mem source (e := l) (by omega), zero_add,
        contribution_of_mem source (e := r) (by omega), gainAt_of_mem (e := r) (by omega), hr.2, ← hright,
        ramp_of_le hfull, ramp_of_le (Nat.zero_le _), hoff]
  · rw [contribution_of_not_mem source hf, contribution_of_not_mem source (e := l) (by omega),
      contribution_of_not_mem source (e := r) (by omega), add_zero]

/-- On sorted events, either one is split around the frame, the first that contains it, or the frame lies
strictly inside of none and nothing changes. -/
theorem splitAt_cases {tl : ClipAudioTimeline} (hsorted : tl.events.Pairwise KeyLE) (atFrame : ℕ) :
    (∃ front e back l r, tl.events = front ++ e :: back ∧
      tl.events.find? (fun e => e.containsClipFrame atFrame) = some e ∧
      (e.clipStart < atFrame ∧ atFrame < e.stop) ∧
      e.splitAt atFrame (allocId tl.nextId).1 = some (l, r) ∧
      tl.splitAt atFrame = (⟨sort (front ++ l :: back ++ [r]), (allocId tl.nextId).2⟩,
        some (l.id, (allocId tl.nextId).1))) ∨
    (∀ e ∈ tl.events, ¬ (e.clipStart < atFrame ∧ atFrame < e.stop)) ∧ tl.splitAt atFrame = (tl, none) := by
  cases hfind : tl.events.find? (fun e => e.containsClipFrame atFrame) with
  | none =>
    have hnone := List.find?_eq_none.mp hfind
    refine Or.inr ⟨fun e he hin => hnone e he ((e.contains_iff atFrame).mpr ⟨hin.1.le, hin.2⟩), ?_⟩
    have hidx : tl.events.findIdx? (fun e => e.containsClipFrame atFrame) = none :=
      List.findIdx?_eq_none_iff.mpr fun e he => Bool.eq_false_iff.mpr (hnone e he)
    rw [splitAt, hidx]
  | some e =>
    obtain ⟨hcontains, front, back, hevents, hfront⟩ := List.find?_eq_some_iff_append.mp hfind
    have hmem := (e.contains_iff atFrame).mp hcontains
    have hidx : tl.events.findIdx? (fun e => e.containsClipFrame atFrame) = some front.length := by
      have hnone : front.findIdx? (fun e => e.containsClipFrame atFrame) = none :=
        List.findIdx?_eq_none_iff.mpr fun a ha => by simpa using hfront a ha
      rw [hevents, List.findIdx?_append, hnone, List.findIdx?_cons, hcontains]
      simp
    have hget : tl.events[front.length]? = some e := by rw [hevents]; simp
    rw [splitAt, hidx]
    simp only [hget]
    by_cases hstart : e.clipStart = atFrame
    · refine Or.inr ⟨fun d hd hin => ?_, if_pos hstart⟩
      have hdc : d.containsClipFrame atFrame = true := (d.contains_iff atFrame).mpr ⟨hin.1.le, hin.2⟩
      rw [hevents] at hd hsorted
      obtain hd | hd | hd : d ∈ front ∨ d = e ∨ d ∈ back := by simpa using hd
      · have hno := hfront d hd
        rw [hdc] at hno
        cases hno
      · subst hd
        omega
      · -- What comes later in the order does not begin earlier.
        have hle := (List.pairwise_cons.mp (List.pairwise_append.mp hsorted).2.1).1 d hd
        unfold KeyLE at hle
        omega
    · have hin : e.clipStart < atFrame ∧ atFrame < e.stop := by omega
      refine Or.inl ⟨front, e, back, _, _, hevents, rfl, hin, splitAt_inside hin _, ?_⟩
      rw [if_neg hstart, splitAt_inside hin]
      simp only [hevents, List.set_append_right _ _ (Nat.le_refl front.length), Nat.sub_self, List.set_cons_zero]

theorem totalFrames_perm {evs evs' : List ClipAudioEvent} (h : evs.Perm evs') (n n' : ℕ) :
    totalFrames ⟨evs, n⟩ = totalFrames ⟨evs', n'⟩ :=
  (h.map _).foldr_eq 0

/-- Timelines of one length and with the same sum of contributions at each frame render the same. -/
theorem renderMono_congr {tl tl' : ClipAudioTimeline} (source : List ℚ)
    (htotal : tl.totalFrames = tl'.totalFrames)
    (hsum : ∀ f, (tl.events.map fun e => contribution source e f).sum =
      (tl'.events.map fun e => contribution source e f).sum) : tl.renderMono source = tl'.renderMono source := by
  refine List.ext_getElem? fun f => ?_
  unfold renderMono
  rw [foldl_contribution_getElem?, foldl_contribution_getElem?, htotal, hsum]

/-- The timeline renders the same after a split whose event keeps its fades apart. -/
theorem renderMono_splitAt {tl : ClipAudioTimeline} {front back : List ClipAudioEvent}
    {e l r : ClipAudioEvent} {atFrame newId n : ℕ} (hevents : tl.events = front ++ e :: back)
    (h : e.clipStart < atFrame ∧ atFrame < e.stop) (hsplit : e.splitAt atFrame newId = some (l, r))
    (hfades : e.FadesApart atFrame) (source : List ℚ) :
    renderMono ⟨sort (front ++ l :: back ++ [r]), n⟩ source = tl.renderMono source := by
  have hperm : (sort (front ++ l :: back ++ [r])).Perm (l :: r :: (front ++ back)) := by
    refine (sort_perm _).trans ?_
    refine (List.perm_append_singleton r _).trans ?_
    exact (List.Perm.cons r List.perm_middle).trans (List.Perm.swap l r _)
  have hold : tl.events.Perm (e :: (front ++ back)) := hevents ▸ List.perm_middle
  have hlr : max l.stop r.stop = e.stop := by
    rw [splitAt_inside h] at hsplit
    obtain ⟨rfl, rfl⟩ := Prod.mk.inj (Option.some.inj hsplit)
    simp only [ClipAudioEvent.stop] at h ⊢
    omega
  refine renderMono_congr source ?_ fun f => ?_
  · rw [totalFrames_perm hperm n 0, totalFrames_perm hold tl.nextId 0]
    simp only [totalFrames, List.map_cons, List.foldr_cons]
    rw [← max_assoc, hlr]
  · rw [(hperm.map _).sum_eq, (hold.map _).sum_eq, List.map_cons, List.map_cons, List.map_cons,
      List.sum_cons, List.sum_cons, List.sum_cons, ← add_assoc, contribution_split source h hfades hsplit]

/-- A split returns nothing just when no event has the frame strictly inside, and changes nothing then; one
that succeeds leaves the render of the timeline what it was, if the fades of the event do not cross the
cut. -/
theorem splitAt_law {tl : ClipAudioTimeline} (hsorted : tl.events.Pairwise KeyLE) (atFrame : ℕ) :
    ((tl.splitAt atFrame).2 = none ↔ ∀ e ∈ tl.events, ¬ (e.clipStart < atFrame ∧ atFrame < e.stop)) ∧
      ((tl.splitAt atFrame).2 = none → (tl.splitAt atFrame).1 = tl) ∧
      ((tl.splitAt atFrame).2.isSome →
        ∃ e, tl.events.find? (fun e => e.containsClipFrame atFrame) = some e ∧
          (e.FadesApart atFrame → ∀ source, (tl.splitAt atFrame).1.renderMono source = tl.renderMono source)) := by
  obtain ⟨front, e, back, l, r, hevents, hfind, hin, hsplit, hresult⟩ | ⟨hnone, hresult⟩ :=
    splitAt_cases hsorted atFrame
  · rw [hresult]
    refine ⟨iff_of_false (fun hno => ?_) (fun hno => ?_), fun hno => ?_, fun _ => ⟨e, hfind, fun hfades source => ?_⟩⟩
    · cases hno
    · exact hno e (by rw [hevents]; simp) hin
    · cases hno
    · exact renderMono_splitAt hevents hin hsplit hfades source
  · rw [hresult]
    refine ⟨iff_of_true rfl hnone, fun _ => rfl, fun hsome => ?_⟩
    cases hsome

theorem splitAt_law_single :
    ((singleFull 10).splitAt 4).1.renderMono [1, 1 / 2] = (singleFull 10).renderMono [1, 1 / 2] := by
  have hsorted : (singleFull 10).events.Pairwise KeyLE := List.pairwise_singleton _ _
  obtain ⟨e, hfind, hrender⟩ := (splitAt_law hsorted 4).2.2 (by decide)
  have he : (singleFull 10).events.find? (fun e => e.containsClipFrame 4) =
      some (ClipAudioEvent.new 1 0 0 10) := by decide
  obtain rfl := Option.some.inj (hfind.symm.trans he)
  exact hrender ⟨by decide, by decide⟩ [1, 1 / 2]

end ClipAudioTimeline

end HikaruOpenLive.Sequencer
