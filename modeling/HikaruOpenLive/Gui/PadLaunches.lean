import HikaruOpenLive.Gui.PadMirror

/-! # What the matrix shows as playing

What a launch and a poll do to the playing states of the pads, pad by pad.
-/
set_option autoImplicit false

namespace HikaruOpenLive.Gui

namespace SessionMatrixState

/-! ## What the triggers show -/

theorem playsAt_showAs_playing {m : SessionMatrixState} {track scene : ℕ} {slot : MatrixSlot}
    (hslot : m.slot? track scene = some slot) : (m.showAs track scene .playing).playsAt track scene := by
  refine ⟨{ slot with state := .playing }, ?_, rfl⟩
  rw [showAs, slot?_modifySlot, if_pos ⟨rfl, rfl⟩, hslot]
  rfl

theorem playsAt_showAs_other {m : SessionMatrixState} {track scene : ℕ} {state : SlotState} {t s : ℕ}
    (hne : ¬ (t = track ∧ s = scene)) :
    (m.showAs track scene state).playsAt t s ↔ m.playsAt t s := by
  unfold playsAt
  rw [showAs, slot?_modifySlot, if_neg hne]

theorem playsAt_stopOthers_other {m m' : SessionMatrixState} {track scene : ℕ}
    (hstop : m.stopOthers track scene = some m') {t s : ℕ} (ht : t ≠ track) (h : m.playsAt t s) :
    m'.playsAt t s := by
  obtain ⟨slot, hslot, hstate⟩ := h
  refine ⟨slot, ?_, hstate⟩
  rw [slot?_stopOthers hstop, hslot, Option.map_some, if_neg (fun h => ht h.1)]

/-- The pads beyond the scenes are not stopped. -/
theorem playsAt_stopOthers_beyond {m m' : SessionMatrixState} {track scene : ℕ}
    (hstop : m.stopOthers track scene = some m') {t s : ℕ} (hs : m.scenes.length ≤ s)
    (h : m.playsAt t s) : m'.playsAt t s := by
  obtain ⟨slot, hslot, hstate⟩ := h
  refine ⟨slot, ?_, hstate⟩
  rw [slot?_stopOthers hstop, hslot, Option.map_some, if_neg (by omega)]

theorem slot_stopOthers {m m' : SessionMatrixState} {track scene : ℕ}
    (hstop : m.stopOthers track scene = some m') {t s : ℕ} {slot : MatrixSlot}
    (hslot : m.slot? t s = some slot) : ∃ slot', m'.slot? t s = some slot' := by
  rw [slot?_stopOthers hstop, hslot]
  exact ⟨_, rfl⟩

/-- A launched pad plays; the pads of other tracks and those beyond the scenes are left. -/
theorem playsAt_launch {m stopped : SessionMatrixState} {track scene : ℕ} {slot : MatrixSlot}
    (hslot : m.slot? track scene = some slot) (hstop : m.stopOthers track scene = some stopped) :
    (stopped.showAs track scene .playing).playsAt track scene ∧
      ∀ t s, t ≠ track ∨ m.scenes.length ≤ s → m.playsAt t s →
        (stopped.showAs track scene .playing).playsAt t s := by
  obtain ⟨slot', hslot'⟩ := slot_stopOthers hstop hslot
  refine ⟨playsAt_showAs_playing hslot', ?_⟩
  intro t s hother hplays
  by_cases hat : t = track ∧ s = scene
  · rw [hat.1, hat.2]
    exact playsAt_showAs_playing hslot'
  · rw [playsAt_showAs_other hat]
    obtain ht | hs := hother
    · exact playsAt_stopOthers_other hstop ht hplays
    · exact playsAt_stopOthers_beyond hstop hs hplays

/-- What the tracks a launch has gone over show. -/
structure Launching (scene : ℕ) (m : SessionMatrixState) (done : List ℕ) (m' : SessionMatrixState) :
    Prop where
  frame : m'.tracks = m.tracks ∧ m'.scenes = m.scenes
  clips : ∀ t s, m'.clip? t s = m.clip? t s
  launched : ∀ t ∈ done, (m.clip? t scene).isSome → m'.playsAt t scene
  kept : ∀ t s, m.playsAt t s → m.clip? t scene = none ∨ t ∉ done ∨ m.scenes.length ≤ s →
    m'.playsAt t s

theorem Launching.step {scene : ℕ} {m m₁ m₂ : SessionMatrixState} {done : List ℕ}
    (h : Launching scene m done m₁) {track : ℕ} (hlaunch : launchTrack scene m₁ track = some m₂) :
    Launching scene m (done ++ [track]) m₂ := by
  obtain ⟨slot, hslot, hlaunch⟩ := Option.bind_eq_some_iff.mp hlaunch
  have hclip : m.clip? track scene = slot.clip := by rw [← h.clips, clip?, hslot]; rfl
  split at hlaunch
  case isTrue hsome =>
    obtain ⟨stopped, hstop, rfl⟩ := Option.map_eq_some_iff.mp hlaunch
    obtain ⟨hplays, hothers⟩ := playsAt_launch hslot hstop
    obtain ⟨htracks, hscenes, _⟩ := stopOthers_frame hstop
    refine ⟨⟨htracks.trans h.frame.1, hscenes.trans h.frame.2⟩, ?_, ?_, ?_⟩
    · intro t s
      rw [clip?_showAs, clip?_stopOthers hstop, h.clips]
    · intro t ht hsome
      by_cases hat : t = track
      · rw [hat]
        exact hplays
      · obtain ht | ht := List.mem_append.mp ht
        · exact hothers t scene (Or.inl hat) (h.launched t ht hsome)
        · exact absurd (List.mem_singleton.mp ht) hat
    · intro t s hold hkept
      have hlen : m₁.scenes.length = m.scenes.length := by rw [h.frame.2]
      obtain hnone | hnew | hbeyond := hkept
      · refine hothers t s (Or.inl ?_) (h.kept t s hold (Or.inl hnone))
        rintro rfl
        rw [hclip] at hnone
        rw [hnone] at hsome
        exact absurd hsome (by simp)
      · obtain ⟨hdone, htrack⟩ := not_or.mp (fun hor => hnew (List.mem_append.mpr hor))
        refine hothers t s (Or.inl ?_) (h.kept t s hold (Or.inr (Or.inl hdone)))
        exact fun heq => htrack (by rw [heq]; exact List.mem_singleton_self track)
      · exact hothers t s (Or.inr (by omega)) (h.kept t s hold (Or.inr (Or.inr hbeyond)))
  case isFalse hnone =>
    rw [← Option.some.inj hlaunch]
    refine ⟨h.frame, h.clips, ?_, ?_⟩
    · intro t ht hsome
      obtain ht | ht := List.mem_append.mp ht
      · exact h.launched t ht hsome
      · rw [List.mem_singleton.mp ht, hclip] at hsome
        exact absurd hsome hnone
    · intro t s hold hkept
      refine h.kept t s hold ?_
      obtain hnone' | hnew | hbeyond := hkept
      · exact Or.inl hnone'
      · exact Or.inr (Or.inl fun hdone => hnew (List.mem_append_left _ hdone))
      · exact Or.inr (Or.inr hbeyond)

theorem launching_foldlM {scene : ℕ} {m : SessionMatrixState} {todo done : List ℕ}
    {m₁ m₂ : SessionMatrixState} (h : Launching scene m done m₁)
    (hfold : todo.foldlM (launchTrack scene) m₁ = some m₂) : Launching scene m (done ++ todo) m₂ := by
  induction todo generalizing done m₁ with
  | nil =>
    rw [← Option.some.inj hfold, List.append_nil]
    exact h
  | cons track todo ih =>
    rw [List.foldlM_cons] at hfold
    obtain ⟨m', hlaunch, hrest⟩ := Option.bind_eq_some_iff.mp hfold
    rw [List.append_cons]
    exact ih (h.step hlaunch) hrest

theorem launching_triggerScene {m : SessionMatrixState} {scene : ℕ}
    {r : SessionMatrixState × List PadCommand} (h : m.triggerScene scene = some r) :
    Launching scene m (List.range m.tracks.length) r.1 := by
  obtain ⟨launched, hfold, rfl⟩ := Option.map_eq_some_iff.mp h
  have hstart : Launching scene m [] m :=
    ⟨⟨rfl, rfl⟩, fun _ _ => rfl, fun t ht => absurd ht List.not_mem_nil, fun _ _ hplays _ => hplays⟩
  have hall := launching_foldlM hstart hfold
  rw [List.nil_append] at hall
  exact hall

/-! ## What a poll leaves -/

theorem slot?_poll {m m' : SessionMatrixState} {isActive : ℕ → ℕ → Bool}
    (h : m.pollFinishedVoices isActive = some m') (t s : ℕ) :
    m'.slot? t s = (m.slot? t s).map fun slot =>
      if t < m.tracks.length ∧ s < m.scenes.length then pollSlot (isActive t s) slot else slot := by
  unfold pollFinishedVoices at h
  split at h
  case isFalse => exact absurd h (by simp)
  case isTrue =>
    rw [← Option.some.inj h]
    unfold slot?
    rw [List.getElem?_mapIdx]
    cases m.grid[t]? with
    | none => rfl
    | some row => rw [Option.map_some, Option.bind_some, Option.bind_some, List.getElem?_mapIdx]

theorem poll_frame {m m' : SessionMatrixState} {isActive : ℕ → ℕ → Bool}
    (h : m.pollFinishedVoices isActive = some m') :
    m'.tracks = m.tracks ∧ m'.scenes = m.scenes ∧ ∀ t s, m'.audio? t s = m.audio? t s := by
  refine ⟨?_, ?_, ?_⟩
  · unfold pollFinishedVoices at h
    split at h
    · rw [← Option.some.inj h]
    · exact absurd h (by simp)
  · unfold pollFinishedVoices at h
    split at h
    · rw [← Option.some.inj h]
    · exact absurd h (by simp)
  · intro t s
    rw [audio?, audio?, slot?_poll h]
    cases m.slot? t s with
    | none => rfl
    | some slot =>
      rw [Option.map_some, Option.bind_some, Option.bind_some]
      unfold pollSlot
      split
      · split <;> rfl
      · rfl

/-- The audio pads a poll leaves playing are those whose voices are active. -/
theorem playsAt_poll_iff {m m' : SessionMatrixState} {isActive : ℕ → ℕ → Bool}
    (h : m.pollFinishedVoices isActive = some m') {t s : ℕ} (ht : t < m.tracks.length)
    (hs : s < m.scenes.length) (haudio : (m.audio? t s).isSome) :
    m'.playsAt t s ↔ m.playsAt t s ∧ isActive t s = true := by
  obtain ⟨g, hg⟩ := Option.isSome_iff_exists.mp haudio
  obtain ⟨slot, hslot, hclip⟩ := Option.bind_eq_some_iff.mp hg
  obtain ⟨hsome, hmidi⟩ := Option.filter_eq_some_iff.mp hclip
  have hany : ¬ slot.clip.any MatrixClip.isMidi = true := by
    rw [hsome, Option.any_some]
    simpa using hmidi
  have hnew := slot?_poll h t s
  rw [hslot, Option.map_some, if_pos ⟨ht, hs⟩] at hnew
  unfold playsAt
  rw [hnew, hslot]
  simp only [Option.some.injEq, exists_eq_left']
  unfold pollSlot
  by_cases hstop : slot.state = .playing ∧ ¬ slot.clip.any MatrixClip.isMidi ∧ ¬ isActive t s
  · rw [if_pos hstop]
    constructor
    · exact fun h => absurd h (by simp)
    · exact fun h => absurd h.2 hstop.2.2
  · rw [if_neg hstop]
    constructor
    · intro hplaying
      refine ⟨hplaying, ?_⟩
      by_contra hidle
      exact hstop ⟨hplaying, hany, hidle⟩
    · exact fun h => h.1

theorem playsAt_poll_beyond {m m' : SessionMatrixState} {isActive : ℕ → ℕ → Bool}
    (h : m.pollFinishedVoices isActive = some m') {t s : ℕ} (hs : m.scenes.length ≤ s) :
    m'.playsAt t s ↔ m.playsAt t s := by
  unfold playsAt
  rw [slot?_poll h]
  have hnot : ¬ (t < m.tracks.length ∧ s < m.scenes.length) := by omega
  simp only [if_neg hnot, Option.map_id']

end SessionMatrixState

end HikaruOpenLive.Gui
