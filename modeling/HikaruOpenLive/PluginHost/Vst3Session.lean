import HikaruOpenLive.PluginHost.ClapSession
import HikaruOpenLive.PluginHost.Vst3Instance

/-! # What the rack knows of an open VST3 plugin

As for CLAP, but the editor may also tell the host what it moves, within a gesture or without one.
-/
set_option autoImplicit false

namespace HikaruOpenLive.PluginHost

open Foundations.Runs Foundations.Upsert

structure Vst3Session where
  inst : Vst3Instance
  known : ℕ → ℚ
  moved : List (ℕ × ℚ)

/-- A movement of the editor is told to the host (`performEdit`) or is not. -/
inductive Vst3SessionOp where
  | setParam (id : ℕ) (value : ℚ)
  | beginEdit (id : ℕ)
  | moveEditor (id : ℕ) (value : ℚ) (told : Bool)
  | endEdit
  | poll
deriving DecidableEq

namespace Vst3Session

def reading (s : Vst3Session) (id : ℕ) : ℚ :=
  clampUnit (s.inst.value id)

def step (s : Vst3Session) : Vst3SessionOp → Vst3Session
  | .setParam id value =>
    let set := s.inst.setParamNormalized id value
    { s with
      inst := set.2.drainControl
      known := if set.1 then Function.update s.known id (clampUnit value) else s.known }
  | .beginEdit id => { s with inst := { s.inst with handler := s.inst.handler.beginEdit id } }
  | .moveEditor id value told =>
    { s with
      inst := { s.inst with
        value := Function.update s.inst.value id value
        handler := if told then s.inst.handler.performEdit id value else s.inst.handler }
      moved := (id, clampUnit value) :: s.moved }
  | .endEdit => { s with inst := { s.inst with handler := s.inst.handler.endEdit } }
  | .poll =>
    let poll := s.inst.pollParamChanges
    { s with inst := poll.2, known := learn s.known poll.1, moved := [] }

def start (params : List Vst3Param) (value : ℕ → ℚ) : Vst3Session :=
  { inst := Vst3Instance.load params value, known := fun id => clampUnit (value id), moved := [] }

/-- After a poll the rack knows the plugin's value of every automatable parameter, and all that was
reported was moved in the editor. -/
def PollOk (s : Vst3Session) : Prop :=
  (∀ id ∈ s.inst.automatable, near ((s.step .poll).known id) ((s.step .poll).inst.value id)) ∧
    ∀ report ∈ s.inst.pollParamChanges.1, report ∈ s.moved

/-- The value read last is not the value now. -/
def Changed (s : Vst3Session) (id : ℕ) : Prop :=
  ∃ previous, s.inst.seen id = some previous ∧ ¬near previous (s.reading id)

/-- A change the editor has not told of, in a gesture or to another value than the host sent last. -/
def TakenForMoved (s : Vst3Session) (id : ℕ) : Prop :=
  s.Changed id ∧
    (s.inst.handler.editGesture = some id ∨ ¬isEcho s.inst.hostSent id (s.reading id))

/-- What the editor told of a parameter is still its value. One it told nothing about is read as it is
when it is taken for moved, and else known already; and a change within a gesture is the editor's. -/
def Noticed (s : Vst3Session) : Prop :=
  ∀ id ∈ s.inst.automatable,
    match lookup Prod.fst s.inst.handler.changes id with
    | some told => near (clampUnit told.2) (s.inst.value id)
    | none =>
      (s.TakenForMoved id → near (s.reading id) (s.inst.value id)) ∧
        (¬s.TakenForMoved id → near (s.known id) (s.inst.value id)) ∧
        (s.Changed id → s.inst.handler.editGesture = some id → (id, s.reading id) ∈ s.moved)

def atPolls (P : Vst3Session → Prop) (s : Vst3Session) : Vst3SessionOp → Prop
  | .poll => P s
  | _ => True

structure Tracked (s : Vst3Session) : Prop where
  delivered : s.inst.control = []
  told : ∀ change ∈ s.inst.handler.changes, (change.1, clampUnit change.2) ∈ s.moved
  nodup : (s.inst.handler.changes.map Prod.fst).Nodup
  explained : ∀ id ∈ s.inst.automatable, ∀ previous, s.inst.seen id = some previous →
    previous = s.reading id ∨ s.inst.hostSent id = some (s.reading id) ∨
      (id, s.reading id) ∈ s.moved

/-! ## What a poll reports -/

theorem mem_poll {s : Vst3Session} {id : ℕ} {v : ℚ} :
    (id, v) ∈ s.inst.pollParamChanges.1 ↔
      (∃ w, (id, w) ∈ s.inst.handler.changes ∧ clampUnit w = v) ∨
        id ∈ s.inst.automatable ∧ v = s.reading id ∧
          ∃ previous, s.inst.seen id = some previous ∧ s.inst.reports id previous v = true := by
  unfold Vst3Instance.pollParamChanges
  simp only [ComponentHandlerState.takeChanges, List.mem_append, List.mem_map, Prod.exists,
    Prod.mk.injEq]
  rw [mem_diffPoll (by simp [Vst3Instance.reports])]
  apply or_congr
  · constructor
    · rintro ⟨id', w, hmem, rfl, hv⟩
      exact ⟨w, hmem, hv⟩
    · rintro ⟨w, hmem, hv⟩
      exact ⟨id, w, hmem, rfl, hv⟩
  · rw [Vst3Instance.readParamNormalized, Option.some.injEq, eq_comm (a := v)]
    rfl

theorem not_reports_of_told {s : Vst3Session} {told : ℕ × ℚ}
    (h : told ∈ s.inst.handler.changes) (previous current : ℚ) :
    s.inst.reports told.1 previous current = false := by
  have hcontains : (s.inst.handler.changes.map Prod.fst).contains told.1 = true := by
    rw [List.contains_iff_mem]
    exact List.mem_map_of_mem h
  simp only [Vst3Instance.reports, hcontains, Bool.not_true, Bool.and_false, Bool.false_and]

theorem reports_of_not_told {s : Vst3Session} {id : ℕ}
    (h : ∀ w, (id, w) ∉ s.inst.handler.changes) (previous current : ℚ) :
    s.inst.reports id previous current = true ↔ ¬near previous current ∧
      (s.inst.handler.editGesture = some id ∨ ¬isEcho s.inst.hostSent id current) := by
  have hcontains : (s.inst.handler.changes.map Prod.fst).contains id = false := by
    rw [← Bool.not_eq_true, List.contains_iff_mem]
    intro hmem
    obtain ⟨⟨id', w⟩, hchange, rfl⟩ := List.mem_map.mp hmem
    exact h w hchange
  simp only [Vst3Instance.reports, hcontains]
  simp

/-- What is reported of a parameter the editor told of. -/
theorem mem_poll_of_told {s : Vst3Session} (hs : s.Tracked) {told : ℕ × ℚ}
    (h : told ∈ s.inst.handler.changes) {v : ℚ} :
    (told.1, v) ∈ s.inst.pollParamChanges.1 ↔ v = clampUnit told.2 := by
  rw [mem_poll]
  constructor
  · rintro (⟨w, hw, rfl⟩ | ⟨_, _, previous, _, hreport⟩)
    · have hsame : (told.1, w) = told :=
        Option.some.inj ((lookup_of_mem hs.nodup hw).symm.trans (lookup_of_mem hs.nodup h))
      rw [← hsame]
    · rw [not_reports_of_told h] at hreport
      exact absurd hreport (by simp)
  · rintro rfl
    exact Or.inl ⟨told.2, h, rfl⟩

/-- What is reported of a parameter the editor told nothing about. -/
theorem mem_poll_of_not_told {s : Vst3Session} {id : ℕ}
    (h : ∀ w, (id, w) ∉ s.inst.handler.changes) {v : ℚ} :
    (id, v) ∈ s.inst.pollParamChanges.1 ↔
      id ∈ s.inst.automatable ∧ v = s.reading id ∧ s.TakenForMoved id := by
  rw [mem_poll]
  constructor
  · rintro (⟨w, hw, _⟩ | ⟨hmem, rfl, previous, hprev, hreport⟩)
    · exact absurd hw (h w)
    · obtain ⟨hnear, hwhy⟩ := (reports_of_not_told h _ _).mp hreport
      exact ⟨hmem, rfl, ⟨previous, hprev, hnear⟩, hwhy⟩
  · rintro ⟨hmem, rfl, ⟨previous, hprev, hnear⟩, hwhy⟩
    exact Or.inr ⟨hmem, rfl, previous, hprev, (reports_of_not_told h _ _).mpr ⟨hnear, hwhy⟩⟩

theorem seen_poll {s : Vst3Session} {id : ℕ} (h : id ∈ s.inst.automatable) :
    s.inst.pollParamChanges.2.seen id = some (s.reading id) := by
  unfold Vst3Instance.pollParamChanges
  simp only
  rw [seen_diffPoll, if_pos ⟨h, rfl⟩]
  rfl

theorem not_mem_of_lookup {s : Vst3Session} {id : ℕ}
    (h : lookup Prod.fst s.inst.handler.changes id = none) (w : ℚ) :
    (id, w) ∉ s.inst.handler.changes := by
  intro hmem
  have hne := List.find?_eq_none.mp h (id, w) hmem
  exact hne (beq_self_eq_true id)

/-! ## The history explains every difference -/

theorem seen_load (params : List Vst3Param) (value : ℕ → ℚ) {id : ℕ} {previous : ℚ}
    (h : (Vst3Instance.load params value).seen id = some previous) :
    previous = clampUnit (value id) := by
  suffices hgen : ∀ seen : ParamMap, (∀ p, seen id = some p → p = clampUnit (value id)) →
      params.foldl (fun seen p => seen.insert p.id (clampUnit (value p.id))) seen id =
        some previous → previous = clampUnit (value id) from
    hgen ParamMap.empty (fun p hp => absurd hp (by simp [ParamMap.empty])) h
  clear h
  induction params with
  | nil => exact fun seen hseen h => hseen previous h
  | cons param params ih =>
    intro seen hseen h
    rw [List.foldl_cons] at h
    refine ih (seen.insert param.id (clampUnit (value param.id))) (fun p hp => ?_) h
    by_cases hid : id = param.id
    · rw [hid, ParamMap.insert_self] at hp
      rw [hid]
      exact (Option.some.inj hp).symm
    · rw [ParamMap.insert_of_ne _ _ hid] at hp
      exact hseen p hp

theorem tracked_start (params : List Vst3Param) (value : ℕ → ℚ) :
    (start params value).Tracked := by
  constructor
  · rfl
  · intro change h
    exact absurd h (by simp [start, Vst3Instance.load, ComponentHandlerState.new])
  · exact List.nodup_nil
  · intro id _ previous hprev
    exact Or.inl (seen_load params value hprev)

theorem setParam_step {s : Vst3Session} (hs : s.inst.control = []) (id : ℕ) (value : ℚ) (id' : ℕ) :
    (s.step (.setParam id value)).reading id' =
        (if id' = id then clampUnit value else s.reading id') ∧
      (s.step (.setParam id value)).inst.hostSent id' =
        (if id' = id then some (clampUnit value) else s.inst.hostSent id') ∧
      (s.step (.setParam id value)).inst.seen = s.inst.seen ∧
      (s.step (.setParam id value)).inst.handler = s.inst.handler ∧
      (s.step (.setParam id value)).inst.automatable = s.inst.automatable := by
  by_cases hid : id' = id
  · simp [step, reading, Vst3Instance.setParamNormalized, Vst3Instance.drainControl, hs, hid,
      controlRingCapacity, Vst3Instance.automatable]
  · simp [step, reading, Vst3Instance.setParamNormalized, Vst3Instance.drainControl, hs, hid,
      controlRingCapacity, ParamMap.insert_of_ne, Vst3Instance.automatable]

theorem Tracked.setParam {s : Vst3Session} (hs : s.Tracked) (id : ℕ) (value : ℚ) :
    (s.step (.setParam id value)).Tracked := by
  have hhandler := (setParam_step hs.delivered id value id).2.2.2.1
  constructor
  · simp [Vst3Session.step, Vst3Instance.drainControl]
  · rw [hhandler]
    exact hs.told
  · rw [hhandler]
    exact hs.nodup
  · intro id' hid' previous hprev
    obtain ⟨hread, hsent, hseen, _, hids⟩ := setParam_step hs.delivered id value id'
    rw [hseen] at hprev
    rw [hids] at hid'
    rw [hread, hsent]
    by_cases hid : id' = id
    · rw [if_pos hid, if_pos hid]
      exact Or.inr (Or.inl rfl)
    · rw [if_neg hid, if_neg hid]
      exact hs.explained id' hid' previous hprev

theorem Tracked.moveEditor {s : Vst3Session} (hs : s.Tracked) (id : ℕ) (value : ℚ) (told : Bool) :
    (s.step (.moveEditor id value told)).Tracked := by
  constructor
  · exact hs.delivered
  · intro change hchange
    cases told with
    | false => exact List.mem_cons_of_mem _ (hs.told change hchange)
    | true =>
      obtain rfl | hchange := mem_upsert hchange
      · exact List.mem_cons_self
      · exact List.mem_cons_of_mem _ (hs.told change hchange)
  · cases told with
    | false => exact hs.nodup
    | true => exact nodup_upsert (id, value) hs.nodup
  · intro id' hid' previous hprev
    by_cases hid : id' = id
    · have hread : (s.step (.moveEditor id value told)).reading id' = clampUnit value := by
        simp [Vst3Session.step, reading, hid]
      rw [hread, hid]
      exact Or.inr (Or.inr List.mem_cons_self)
    · have hread : (s.step (.moveEditor id value told)).reading id' = s.reading id' := by
        simp [Vst3Session.step, reading, hid]
      rw [hread]
      obtain h | h | h := hs.explained id' hid' previous hprev
      · exact Or.inl h
      · exact Or.inr (Or.inl h)
      · exact Or.inr (Or.inr (List.mem_cons_of_mem _ h))

theorem Tracked.step {s : Vst3Session} (hs : s.Tracked) (op : Vst3SessionOp) :
    (s.step op).Tracked := by
  cases op with
  | setParam id value => exact hs.setParam id value
  | beginEdit id => exact ⟨hs.delivered, hs.told, hs.nodup, hs.explained⟩
  | moveEditor id value told => exact hs.moveEditor id value told
  | endEdit => exact ⟨hs.delivered, hs.told, hs.nodup, hs.explained⟩
  | poll =>
    constructor
    · exact hs.delivered
    · intro change hchange
      exact absurd hchange (by simp [Vst3Session.step, Vst3Instance.pollParamChanges,
        ComponentHandlerState.takeChanges])
    · exact List.nodup_nil
    · intro id hid previous hprev
      exact Or.inl (Option.some.inj (hprev.symm.trans (seen_poll hid)))

/-- The rack takes over what the editor told of a parameter. -/
theorem known_poll_of_told {s : Vst3Session} (hs : s.Tracked) {id : ℕ} {told : ℕ × ℚ}
    (h : lookup Prod.fst s.inst.handler.changes id = some told) :
    (s.step .poll).known id = clampUnit told.2 := by
  obtain rfl := key_of_lookup h
  have hmem := mem_of_lookup h
  exact learn_of_mem (fun v hv => (mem_poll_of_told hs hmem).mp hv)
    ((mem_poll_of_told hs hmem).mpr rfl)

theorem known_poll_of_taken {s : Vst3Session} {id : ℕ} (hid : id ∈ s.inst.automatable)
    (hnone : ∀ w, (id, w) ∉ s.inst.handler.changes) (h : s.TakenForMoved id) :
    (s.step .poll).known id = s.reading id :=
  learn_of_mem (fun _ hv => ((mem_poll_of_not_told hnone).mp hv).2.1)
    ((mem_poll_of_not_told hnone).mpr ⟨hid, rfl, h⟩)

theorem known_poll_of_not_taken {s : Vst3Session} {id : ℕ}
    (hnone : ∀ w, (id, w) ∉ s.inst.handler.changes) (h : ¬s.TakenForMoved id) :
    (s.step .poll).known id = s.known id :=
  learn_of_notMem fun _ hv => h ((mem_poll_of_not_told hnone).mp hv).2.2

theorem pollOk_iff {s : Vst3Session} (hs : s.Tracked) : s.PollOk ↔ s.Noticed := by
  have hvalue : (s.step .poll).inst.value = s.inst.value := rfl
  constructor
  · intro h id hid
    have hnear := h.1 id hid
    rw [hvalue] at hnear
    cases hlook : lookup Prod.fst s.inst.handler.changes id with
    | some told =>
      rwa [known_poll_of_told hs hlook] at hnear
    | none =>
      have hnone := not_mem_of_lookup hlook
      refine ⟨fun htaken => ?_, fun htaken => ?_, fun hchanged hgesture => ?_⟩
      · rwa [known_poll_of_taken hid hnone htaken] at hnear
      · rwa [known_poll_of_not_taken hnone htaken] at hnear
      · exact h.2 _ ((mem_poll_of_not_told hnone).mpr ⟨hid, rfl, hchanged, Or.inl hgesture⟩)
  · intro h
    constructor
    · intro id hid
      have hwhy := h id hid
      rw [hvalue]
      cases hlook : lookup Prod.fst s.inst.handler.changes id with
      | some told =>
        rw [hlook] at hwhy
        rw [known_poll_of_told hs hlook]
        exact hwhy
      | none =>
        rw [hlook] at hwhy
        have hnone := not_mem_of_lookup hlook
        by_cases htaken : s.TakenForMoved id
        · rw [known_poll_of_taken hid hnone htaken]
          exact hwhy.1 htaken
        · rw [known_poll_of_not_taken hnone htaken]
          exact hwhy.2.1 htaken
    · rintro ⟨id, v⟩ hreport
      cases hlook : lookup Prod.fst s.inst.handler.changes id with
      | some told =>
        obtain rfl := key_of_lookup hlook
        rw [(mem_poll_of_told hs (mem_of_lookup hlook)).mp hreport]
        exact hs.told told (mem_of_lookup hlook)
      | none =>
        obtain ⟨hid, rfl, hchanged, hgesture | hecho⟩ :=
          (mem_poll_of_not_told (not_mem_of_lookup hlook)).mp hreport
        · have hwhy := h id hid
          rw [hlook] at hwhy
          exact hwhy.2.2 hchanged hgesture
        · obtain ⟨previous, hprev, hnear⟩ := hchanged
          obtain hsame | hsent | hmoved := hs.explained id hid previous hprev
          · exact absurd (hsame ▸ near_self _) hnear
          · exact absurd (by simp [isEcho, hsent]) hecho
          · exact hmoved

theorem along_pollOk_iff {s : Vst3Session} (hs : s.Tracked) (ops : List Vst3SessionOp) :
    Along step (atPolls PollOk) s ops ↔ Along step (atPolls Noticed) s ops := by
  refine along_iff_along (I := Tracked) (fun s op h _ => h.step op) (fun s op h => ?_) hs
  cases op with
  | poll => exact pollOk_iff h
  | setParam id value => exact Iff.rfl
  | beginEdit id => exact Iff.rfl
  | moveEditor id value told => exact Iff.rfl
  | endEdit => exact Iff.rfl

end Vst3Session

/-- For both launchers, every poll of a session is right exactly when every poll notices what the rack
is wrong about, and takes none of the host's own values for the editor's. -/
theorem along_pollOk_iff_along_noticed (ν : Type) [Zero ν] :
    (∀ (plugin : ClapPlugin) (processor : Option Processor) (ops : List ClapSessionOp),
      Along ClapSession.step (ClapSession.atPolls ClapSession.PollOk)
          (ClapSession.start plugin processor : ClapSession ν) ops ↔
        Along ClapSession.step (ClapSession.atPolls ClapSession.Noticed)
          (ClapSession.start plugin processor : ClapSession ν) ops) ∧
    ∀ (params : List Vst3Param) (value : ℕ → ℚ) (ops : List Vst3SessionOp),
      Along Vst3Session.step (Vst3Session.atPolls Vst3Session.PollOk)
          (Vst3Session.start params value) ops ↔
        Along Vst3Session.step (Vst3Session.atPolls Vst3Session.Noticed)
          (Vst3Session.start params value) ops :=
  ⟨fun plugin processor ops =>
      ClapSession.along_pollOk_iff (ClapSession.tracked_start plugin processor) ops,
    fun params value ops =>
      Vst3Session.along_pollOk_iff (Vst3Session.tracked_start params value) ops⟩

def mixParam : ClapParam :=
  { id := 7, name := "Mix", minValue := 0, maxValue := 1, defaultValue := 0, isAutomatable := true
    id_lt := by decide }

def mixVst3Param : Vst3Param :=
  { id := 7, name := "Mix", unit := "%", default := 0, stepCount := 0, canAutomate := true
    isReadOnly := false }

/-- The rack sets one half, the editor moves away and then back to one half: the way back looks like an
echo of the rack, which keeps the value between. A value beyond one of a wider range is noticed, and
taken for one. -/
theorem not_along_pollOk_back_to_sent :
    ¬Along ClapSession.step (ClapSession.atPolls ClapSession.PollOk)
        (ClapSession.start mixParam.solo none : ClapSession ℚ)
        [.setParam 7 (1 / 2), .poll, .moveEditor 7 (4 / 5), .poll, .moveEditor 7 (1 / 2), .poll] ∧
      ¬Along Vst3Session.step (Vst3Session.atPolls Vst3Session.PollOk)
        (Vst3Session.start [mixVst3Param] fun _ => 0)
        [.setParam 7 (1 / 2), .poll, .moveEditor 7 (4 / 5) false, .poll,
          .moveEditor 7 (1 / 2) false, .poll] ∧
      ¬Along ClapSession.step (ClapSession.atPolls ClapSession.PollOk)
        (ClapSession.start { gainParam.solo with value := fun _ => 0 } none : ClapSession ℚ)
        [.poll, .moveEditor 5 15, .poll] := by
  refine ⟨?_, ?_, ?_⟩
  · rintro ⟨_, _, _, _, _, hpoll, _⟩
    exact absurd (hpoll.1 mixParam List.mem_cons_self rfl) (by decide +kernel)
  · rintro ⟨_, _, _, _, _, hpoll, _⟩
    exact absurd (hpoll.1 7 (by decide +kernel)) (by decide +kernel)
  · rintro ⟨_, _, hpoll, _⟩
    exact absurd (hpoll.1 gainParam List.mem_cons_self rfl) (by decide +kernel)

end HikaruOpenLive.PluginHost
