import HikaruOpenLive.Gui.MirrorRuns
import HikaruOpenLive.Gui.PadLaunches

/-! # Pads that show what plays

The GUI keeps a playing state of its own and sends toggles, which wait in a queue; the engine carries them
out and also ends clips by itself; a poll shows as stopped what the engine no longer plays. What counts is
the engine once the waiting commands are carried out (`ahead`): as long as all it will play is shown
(`Shown`), a poll with an empty queue leaves both sides equal.
-/
set_option autoImplicit false

namespace HikaruOpenLive.Gui

open Engine Foundations.Runs SessionMatrixState

variable {ν β : Type}

/-! ## The two parties -/

/-- The matrix, the commands on their way, the engine, and whether a poll has just been made. -/
structure LaunchSession (ν : Type) where
  matrix : SessionMatrixState
  queue : List PadCommand
  engine : AudioEngine ν
  polled : Bool

inductive LaunchAct where
  | click (track scene : ℕ)
  | launch (scene : ℕ)
  | delete (track scene : ℕ)
  | deliver
  | block (frames : ℕ)
  | poll

namespace LaunchSession

variable (host : PluginHost ν) (stage : OutputStage β) (files : Files)

/-- The edit's matrix, and its commands at the end of the queue. -/
def sent (s : LaunchSession ν) (r : SessionMatrixState × List PadCommand) : LaunchSession ν :=
  { s with matrix := r.1, queue := s.queue ++ r.2, polled := false }

def act (s : LaunchSession ν) : LaunchAct → Option (LaunchSession ν)
  | .click track scene => (s.matrix.triggerPad track scene).map s.sent
  | .launch scene => (s.matrix.triggerScene scene).map s.sent
  | .delete track scene => some (s.sent (s.matrix.deleteSlot track scene))
  | .deliver =>
    match s.queue with
    | [] => some { s with polled := false }
    | cmd :: queue =>
      some { s with queue := queue, engine := cmd.run files s.engine, polled := false }
  | .block frames =>
    some { s with engine := (s.engine.process host stage frames).2, polled := false }
  | .poll =>
    (s.matrix.pollFinishedVoices s.engine.voiceActive).map fun matrix =>
      { s with matrix := matrix, polled := true }

def step (s : Option (LaunchSession ν)) (a : LaunchAct) : Option (LaunchSession ν) :=
  s.bind fun s => s.act host stage files a

/-- The engine once the waiting commands are carried out. -/
def ahead (s : LaunchSession ν) : AudioEngine ν :=
  deliverPads files s.engine s.queue

/-- With nothing on its way and right after a poll, every audio pad shows whether it plays. -/
def Agrees (s : LaunchSession ν) : Prop :=
  s.queue = [] → s.polled = true →
    ∀ t < s.matrix.tracks.length, ∀ sc < s.matrix.scenes.length, (s.matrix.audio? t sc).isSome →
      (s.matrix.playsAt t sc ↔ s.engine.targetPlaying t sc = true)

/-- Everything that will play is shown, and what a poll has just left playing does play. -/
structure Shown (s : LaunchSession ν) : Prop where
  covered : ∀ t < s.matrix.tracks.length, ∀ sc, (s.matrix.audio? t sc).isSome →
    (s.ahead files).targetPlaying t sc = true → s.matrix.playsAt t sc
  polled : s.polled = true → ∀ t < s.matrix.tracks.length, ∀ sc < s.matrix.scenes.length,
    (s.matrix.audio? t sc).isSome → s.matrix.playsAt t sc → s.engine.targetPlaying t sc = true

theorem Shown.agrees {s : LaunchSession ν} (h : s.Shown files) : s.Agrees := by
  intro hqueue hpolled t ht sc hsc haudio
  constructor
  · exact h.polled hpolled t ht sc hsc haudio
  · intro hplaying
    have hahead : s.ahead files = s.engine := by rw [ahead, hqueue, deliverPads_nil]
    exact h.covered t ht sc haudio (by rw [hahead]; exact hplaying)

/-- What an action must not run into: a pad clicked off whose clip will have ended by itself; a scene
with a pad that has no clip in the engine, on a track where another plays; a block that ends a clip
whose toggle is on its way; a poll before a launched pad's voice is active. -/
def Timely (s : LaunchSession ν) : LaunchAct → Prop
  | .click track scene => (s.matrix.audio? track scene).isSome →
    (∃ slot, s.matrix.slot? track scene = some slot ∧ slot.active = true) →
      (s.ahead files).targetPlaying track scene = true ∨ (s.ahead files).cell? track scene = none
  | .launch scene => ∀ t < s.matrix.tracks.length, (s.matrix.clip? t scene).isSome →
    (s.ahead files).cell? t scene = none → ∀ sc < s.matrix.scenes.length,
      (s.matrix.audio? t sc).isSome → (s.ahead files).targetPlaying t sc = false
  | .block frames => ∀ t < s.matrix.tracks.length, ∀ sc, (s.matrix.audio? t sc).isSome →
    (deliverPads files (s.engine.process host stage frames).2 s.queue).targetPlaying t sc = true →
      (s.ahead files).targetPlaying t sc = true
  | .poll => ∀ t < s.matrix.tracks.length, ∀ sc < s.matrix.scenes.length,
    (s.matrix.audio? t sc).isSome → (s.ahead files).targetPlaying t sc = true →
      s.engine.voiceActive t sc = true
  | _ => True

theorem ahead_sent (s : LaunchSession ν) (r : SessionMatrixState × List PadCommand) :
    (s.sent r).ahead files = deliverPads files (s.ahead files) r.2 :=
  deliverPads_append files s.engine s.queue r.2

/-- After an edit what counts is that all which will play is shown. -/
theorem shown_sent {s : LaunchSession ν} {r : SessionMatrixState × List PadCommand}
    (hcovered : ∀ t < r.1.tracks.length, ∀ sc, (r.1.audio? t sc).isSome →
      (deliverPads files (s.ahead files) r.2).targetPlaying t sc = true → r.1.playsAt t sc) :
    (s.sent r).Shown files := by
  refine ⟨?_, fun hpolled => absurd hpolled (by simp [sent])⟩
  intro t ht sc haud hplaying
  rw [ahead_sent] at hplaying
  exact hcovered t ht sc haud hplaying

/-- A pad clicked off, whose clip either plays or is not in the engine. -/
theorem Shown.clickOff {s : LaunchSession ν} (h : s.Shown files) {track scene : ℕ}
    (hok : (s.matrix.audio? track scene).isSome →
      (s.ahead files).targetPlaying track scene = true ∨ (s.ahead files).cell? track scene = none) :
    (s.sent (s.matrix.showAs track scene .stopped, [.triggerClip track scene])).Shown files := by
  refine shown_sent files fun t ht sc haud hplaying => ?_
  have haud' : (s.matrix.audio? t sc).isSome := by
    rw [← audio?_showAs s.matrix track scene .stopped t sc]
    exact haud
  rw [deliverPads_cons, deliverPads_nil, PadCommand.run, AudioEngine.targetPlaying_triggerClip] at hplaying
  split at hplaying
  case isTrue htrack =>
    subst htrack
    simp only [Bool.and_eq_true, decide_eq_true_eq, Bool.not_eq_true'] at hplaying
    obtain ⟨⟨rfl, hcell⟩, hnot⟩ := hplaying
    obtain hplays | hnone := hok haud'
    · rw [hplays] at hnot
      exact absurd hnot (by simp)
    · rw [hnone] at hcell
      exact absurd hcell (by simp)
  case isFalse htrack =>
    refine (playsAt_showAs_other fun hat => htrack hat.1).mpr ?_
    exact h.covered t ht sc haud' hplaying

/-- A stopped pad clicked on: on its track it alone will play. -/
theorem Shown.clickOn {s : LaunchSession ν} (h : s.Shown files) {track scene : ℕ} {slot : MatrixSlot}
    (hslot : s.matrix.slot? track scene = some slot) {stopped : SessionMatrixState}
    (hstop : s.matrix.stopOthers track scene = some stopped)
    (haudio : ∀ t sc, (stopped.showAs track scene .playing).audio? t sc = s.matrix.audio? t sc) :
    (s.sent (stopped.showAs track scene .playing,
      s.matrix.syncMidiClip track scene ++ [.triggerClip track scene])).Shown files := by
  obtain ⟨hplays, hothers⟩ := playsAt_launch hslot hstop
  obtain ⟨htracks, _, _⟩ := stopOthers_frame hstop
  refine shown_sent files fun t ht sc haud hplaying => ?_
  have ht' : t < s.matrix.tracks.length := by
    rw [← htracks]
    exact ht
  have haud' : (s.matrix.audio? t sc).isSome := by
    rw [← haudio]
    exact haud
  rw [deliverPads_append, deliverPads_syncMidiClip, deliverPads_cons, deliverPads_nil, PadCommand.run,
    AudioEngine.targetPlaying_triggerClip] at hplaying
  split at hplaying
  case isTrue htrack =>
    subst htrack
    simp only [Bool.and_eq_true, decide_eq_true_eq] at hplaying
    rw [hplaying.1.1]
    exact hplays
  case isFalse htrack => exact hothers t sc (Or.inl htrack) (h.covered t ht' sc haud' hplaying)

theorem Shown.click {s : LaunchSession ν} (h : s.Shown files) {track scene : ℕ}
    (hok : s.Timely host stage files (.click track scene))
    {r : SessionMatrixState × List PadCommand} (hclick : s.matrix.triggerPad track scene = some r) :
    (s.sent r).Shown files := by
  have haudio := audio?_triggerPad hclick
  have hsame : (s.sent (s.matrix, [])).Shown files := shown_sent files h.covered
  have hoff : ∀ slot, s.matrix.slot? track scene = some slot → slot.active = true →
      (s.sent (s.matrix.showAs track scene .stopped, [.triggerClip track scene])).Shown files :=
    fun slot hslot hactive => h.clickOff files fun haud => hok haud ⟨slot, hslot, hactive⟩
  unfold triggerPad at hclick
  split at hclick
  · rename_i state clip hslot
    split at hclick
    · obtain ⟨stopped, hstop, rfl⟩ := Option.map_eq_some_iff.mp hclick
      exact h.clickOn files hslot hstop haudio
    · exact Option.some.inj hclick ▸ hoff _ hslot rfl
    · exact Option.some.inj hclick ▸ hoff _ hslot rfl
    · exact Option.some.inj hclick ▸ hoff _ hslot rfl
    · exact Option.some.inj hclick ▸ hsame
  · exact Option.some.inj hclick ▸ hsame

theorem Shown.launch {s : LaunchSession ν} (h : s.Shown files) {scene : ℕ}
    (hok : s.Timely host stage files (.launch scene))
    {r : SessionMatrixState × List PadCommand} (hlaunch : s.matrix.triggerScene scene = some r) :
    (s.sent r).Shown files := by
  have hafter := launching_triggerScene hlaunch
  have haudio := audio?_triggerScene hlaunch
  have hcmds : deliverPads files (s.ahead files) r.2 = (s.ahead files).triggerScene scene := by
    obtain ⟨launched, _, rfl⟩ := Option.map_eq_some_iff.mp hlaunch
    have hnotes : deliverPads files (s.ahead files) ((List.range s.matrix.tracks.length).flatMap
        fun track => s.matrix.syncMidiClip track scene) = s.ahead files := by
      apply deliverPads_midi
      intro cmd hcmd
      obtain ⟨track, _, hcmd⟩ := List.mem_flatMap.mp hcmd
      exact syncMidiClip_notes s.matrix track scene cmd hcmd
    rw [deliverPads_append, hnotes]
    rfl
  refine shown_sent files fun t ht sc haud hplaying => ?_
  have ht' : t < s.matrix.tracks.length := by
    rw [← hafter.frame.1]
    exact ht
  have haud' : (s.matrix.audio? t sc).isSome := by
    rw [← haudio]
    exact haud
  have hrange : t ∈ List.range s.matrix.tracks.length := List.mem_range.mpr ht'
  rw [hcmds, AudioEngine.targetPlaying_triggerScene] at hplaying
  split at hplaying
  case isTrue hcell =>
    -- the engine has a clip in the scene: it alone plays on the track
    obtain rfl := of_decide_eq_true hplaying
    refine hafter.launched t hrange ?_
    obtain ⟨g, hg⟩ := Option.isSome_iff_exists.mp haud'
    rw [audio?_eq] at hg
    rw [(Option.filter_eq_some_iff.mp hg).1]
    rfl
  case isFalse hcell =>
    have hold := h.covered t ht' sc haud' hplaying
    refine hafter.kept t sc hold ?_
    by_cases hclip : s.matrix.clip? t scene = none
    · exact Or.inl hclip
    · refine Or.inr (Or.inr ?_)
      by_contra hlt
      have hnone : (s.ahead files).cell? t scene = none := by simpa using hcell
      have hquiet := hok t ht' (Option.isSome_iff_ne_none.mpr hclip) hnone sc (by omega) haud'
      rw [hquiet] at hplaying
      exact absurd hplaying (by simp)

theorem Shown.delete {s : LaunchSession ν} (h : s.Shown files) (track scene : ℕ) :
    (s.sent (s.matrix.deleteSlot track scene)).Shown files := by
  refine shown_sent files fun t ht sc haud hplaying => ?_
  have haud : ((s.matrix.modifySlot track scene fun _ => .default).audio? t sc).isSome := haud
  rw [audio?_modifySlot] at haud
  have hne : ¬ (t = track ∧ sc = scene) := by
    intro hat
    rw [if_pos hat] at haud
    cases s.matrix.slot? track scene <;> exact absurd haud (by simp [MatrixSlot.default, MatrixSlot.audio?])
  rw [if_neg hne] at haud
  have hold : (s.ahead files).targetPlaying t sc = true := by
    simp only [deleteSlot] at hplaying
    split at hplaying
    · rw [deliverPads_cons, deliverPads_nil, PadCommand.run,
        AudioEngine.targetPlaying_triggerClip] at hplaying
      split at hplaying
      · rename_i htrack
        simp only [Bool.and_eq_true, decide_eq_true_eq] at hplaying
        exact absurd ⟨htrack, hplaying.1.1⟩ hne
      · exact hplaying
    · exact hplaying
  obtain ⟨slot, hslot, hstate⟩ := h.covered t ht sc haud hold
  refine ⟨slot, ?_, hstate⟩
  have hother := slot?_modifySlot s.matrix track scene (fun _ => .default) t sc
  rw [if_neg hne] at hother
  exact hother.trans hslot

theorem Shown.poll {s : LaunchSession ν} (h : s.Shown files) (hok : s.Timely host stage files .poll)
    {matrix : SessionMatrixState}
    (hpoll : s.matrix.pollFinishedVoices s.engine.voiceActive = some matrix) :
    ({ s with matrix := matrix, polled := true } : LaunchSession ν).Shown files := by
  obtain ⟨htracks, hscenes, haudio⟩ := poll_frame hpoll
  refine ⟨?_, ?_⟩
  · intro t ht sc haud hplaying
    have ht' : t < s.matrix.tracks.length := by
      rw [← htracks]
      exact ht
    have haud' : (s.matrix.audio? t sc).isSome := by
      rw [← haudio]
      exact haud
    have hold := h.covered t ht' sc haud' hplaying
    obtain hsc | hsc := Nat.lt_or_ge sc s.matrix.scenes.length
    · exact (playsAt_poll_iff hpoll ht' hsc haud').mpr ⟨hold, hok t ht' sc hsc haud' hplaying⟩
    · exact (playsAt_poll_beyond hpoll hsc).mpr hold
  · intro _ t ht sc hsc haud hplays
    have ht' : t < s.matrix.tracks.length := by
      rw [← htracks]
      exact ht
    have hsc' : sc < s.matrix.scenes.length := by
      rw [← hscenes]
      exact hsc
    have haud' : (s.matrix.audio? t sc).isSome := by
      rw [← haudio]
      exact haud
    obtain ⟨_, hactive⟩ := (playsAt_poll_iff hpoll ht' hsc' haud').mp hplays
    exact AudioEngine.targetPlaying_of_voiceActive hactive

theorem shown_act {s s' : LaunchSession ν} (h : s.Shown files) {a : LaunchAct}
    (hok : s.Timely host stage files a) (hact : s.act host stage files a = some s') :
    s'.Shown files := by
  cases a with
  | click track scene =>
    obtain ⟨r, hclick, rfl⟩ := Option.map_eq_some_iff.mp hact
    exact h.click host stage files hok hclick
  | launch scene =>
    obtain ⟨r, hlaunch, rfl⟩ := Option.map_eq_some_iff.mp hact
    exact h.launch host stage files hok hlaunch
  | delete track scene =>
    rw [← Option.some.inj hact]
    exact h.delete files track scene
  | deliver =>
    unfold act at hact
    simp only at hact
    cases hqueue : s.queue with
    | nil =>
      rw [hqueue] at hact
      rw [← Option.some.inj hact]
      refine ⟨?_, fun hpolled => absurd hpolled (by simp)⟩
      intro t ht sc haud hplaying
      refine h.covered t ht sc haud ?_
      rw [ahead, hqueue]
      exact hplaying
    | cons cmd queue =>
      rw [hqueue] at hact
      rw [← Option.some.inj hact]
      refine ⟨?_, fun hpolled => absurd hpolled (by simp)⟩
      intro t ht sc haud hplaying
      refine h.covered t ht sc haud ?_
      rw [ahead, hqueue, deliverPads_cons]
      exact hplaying
  | block frames =>
    rw [← Option.some.inj hact]
    refine ⟨?_, fun hpolled => absurd hpolled (by simp)⟩
    intro t ht sc haud hplaying
    exact h.covered t ht sc haud (hok t ht sc haud hplaying)
  | poll =>
    obtain ⟨matrix, hpoll, rfl⟩ := Option.map_eq_some_iff.mp hact
    exact h.poll host stage files hok hpoll

/-- A block only ends clips, so with nothing on its way it cannot come at a bad time. -/
theorem timely_block_of_idle {s : LaunchSession ν} (hqueue : s.queue = []) (frames : ℕ) :
    s.Timely host stage files (.block frames) := by
  intro t _ sc _ hplaying
  rw [ahead, hqueue, deliverPads_nil]
  rw [hqueue, deliverPads_nil] at hplaying
  obtain ⟨f, hclips, hf, _⟩ := AudioEngine.process_clips host stage s.engine frames
  have hkeep : ∀ c, (f c).trackIndex = c.trackIndex ∧ (f c).sceneIndex = c.sceneIndex := by
    intro c
    obtain ⟨_, _, hfc, _⟩ := hf c
    rw [hfc]
    exact ⟨rfl, rfl⟩
  have hcell : (s.engine.process host stage frames).2.cell? t sc = (s.engine.cell? t sc).map f := by
    rw [AudioEngine.cell?, hclips, AudioEngine.find?_mapCells s.engine.clips hkeep]
    rfl
  rw [AudioEngine.targetPlaying_eq, hcell] at hplaying
  rw [AudioEngine.targetPlaying_eq]
  cases hc : s.engine.cell? t sc with
  | none => simp [hc] at hplaying
  | some c =>
    rw [hc] at hplaying
    obtain ⟨fade, playing, hfc, hp⟩ := hf c
    simp only [Option.map_some, Option.getD_some, hfc] at hplaying ⊢
    exact hp hplaying

/-! ## Runs -/

/-- In a running application the pads show what plays, as far as the claim goes. -/
def PadsAgree (s : Option (LaunchSession ν)) : Prop :=
  ∀ s', s = some s' → s'.Agrees

def TimelyStep (s : Option (LaunchSession ν)) (a : LaunchAct) : Prop :=
  ∀ s', s = some s' → s'.Timely host stage files a

def AllShown (s : Option (LaunchSession ν)) : Prop :=
  ∀ s', s = some s' → s'.Shown files

theorem allShown_step (s : Option (LaunchSession ν)) (a : LaunchAct) (h : AllShown files s)
    (hok : TimelyStep host stage files s a) : AllShown files (step host stage files s a) := by
  intro s' hs'
  obtain ⟨s₀, hs₀, hact⟩ := Option.bind_eq_some_iff.mp hs'
  exact shown_act host stage files (h s₀ hs₀) (hok s₀ hs₀) hact

/-- From a session at rest, however the two sides' steps are interleaved: as long as each comes in time,
the pads agree with the engine after every poll with nothing on its way. -/
theorem always_padsAgree {s : LaunchSession ν} (hqueue : s.queue = [])
    (hrest : ∀ c ∈ s.engine.clips, c.isPlaying = false) (hpolled : s.polled = false)
    {acts : List LaunchAct}
    (hok : Along (step host stage files) (TimelyStep host stage files) (some s) acts) :
    Always (step host stage files) PadsAgree (some s) acts := by
  have hfirst : AllShown files (some s) := by
    intro s' hs'
    rw [← Option.some.inj hs']
    refine ⟨?_, fun h => absurd h (by simp [hpolled])⟩
    intro t _ sc _ hplaying
    rw [ahead, hqueue, deliverPads_nil, AudioEngine.targetPlaying_eq] at hplaying
    cases hc : s.engine.cell? t sc with
    | none => simp [hc] at hplaying
    | some c =>
      have hidle := hrest c (AudioEngine.cell_spec hc).1
      simp [hc, hidle] at hplaying
  refine (always_of_along (allShown_step host stage files) hfirst hok).mono ?_
  exact fun s h s' hs' => (h s' hs').agrees files

/-! ## A one-shot pad -/

def oneShotPad : SessionMatrixState :=
  { grid := [[⟨.stopped, some (.ofFile 1 "/hat.wav" (.audio [] 1) 2)⟩]]
    tracks := [⟨"Hats", false, false, 3 / 4, 0⟩]
    scenes := [⟨"Verse"⟩]
    nextClipId := 2
    selectedSlot := none }

/-- The engine with the pad's clip, two frames long and played once. -/
def oneShotEngine : AudioEngine Empty :=
  let e := ((AudioEngine.new 48000).setMode .openLive).play
  (e.addClip (e.clipInstance 1 0 0 [1, 1] 0 0 0 1 true)).setClipLoop 0 0 0 0 false

def oneShot : LaunchSession Empty :=
  { matrix := oneShotPad, queue := [], engine := oneShotEngine, polled := false }

theorem oneShot_rest : ∀ c ∈ oneShot.engine.clips, c.isPlaying = false := by
  decide +kernel

theorem always_padsAgree_clicked :
    Always (step AudioEngine.noPlugins AudioEngine.exactStage fun _ => none) PadsAgree (some oneShot)
      [.click 0 0, .deliver, .poll] := by
  refine always_padsAgree AudioEngine.noPlugins AudioEngine.exactStage (fun _ => none) rfl oneShot_rest
    rfl ⟨?_, ?_, ?_, trivial⟩
  · rintro s hs _ ⟨slot, hslot, hactive⟩
    have hidle : (oneShot.matrix.slot? 0 0).map MatrixSlot.active = some false := by decide
    rw [Option.some.inj hs, hslot, Option.map_some, hactive] at hidle
    exact absurd hidle (by decide)
  · exact fun _ _ => trivial
  · intro s hs t ht sc hsc _ _
    have hvoice : ((step AudioEngine.noPlugins AudioEngine.exactStage (fun _ => none)
        (step AudioEngine.noPlugins AudioEngine.exactStage (fun _ => none) (some oneShot) (.click 0 0))
          .deliver).map fun s =>
            (s.matrix.tracks.length, s.matrix.scenes.length, s.engine.voiceActive 0 0)) =
        some (1, 1, true) := by decide +kernel
    rw [hs, Option.map_some] at hvoice
    obtain ⟨htracks, hscenes, hactive⟩ : s.matrix.tracks.length = 1 ∧ s.matrix.scenes.length = 1 ∧
        s.engine.voiceActive 0 0 = true := by simpa using hvoice
    obtain rfl : t = 0 := by omega
    obtain rfl : sc = 0 := by omega
    exact hactive

/-- Clicked on, played to its end, and clicked again when the GUI still shows it playing: the second click
starts it. -/
theorem not_always_padsAgree_ended :
    ¬ ∀ acts, Always (step AudioEngine.noPlugins AudioEngine.exactStage fun _ => none) PadsAgree (some oneShot) acts := by
  intro h
  have hagree := (h [.click 0 0, .deliver, .block 3, .click 0 0, .deliver, .poll]).final
  have hstate : (([.click 0 0, .deliver, .block 3, .click 0 0, .deliver, .poll].foldl
      (step AudioEngine.noPlugins AudioEngine.exactStage fun _ => none) (some oneShot)).map fun s =>
        (s.queue.isEmpty && s.polled && decide (0 < s.matrix.tracks.length) &&
          decide (0 < s.matrix.scenes.length) && (s.matrix.audio? 0 0).isSome &&
            s.engine.targetPlaying 0 0, (s.matrix.slot? 0 0).map MatrixSlot.state)) =
      some (true, some .stopped) := by decide +kernel
  obtain ⟨s, hs, hboth⟩ := Option.map_eq_some_iff.mp hstate
  obtain ⟨hflags, hstopped⟩ := Prod.mk.inj hboth
  simp only [Bool.and_eq_true, List.isEmpty_iff, decide_eq_true_eq] at hflags
  obtain ⟨⟨⟨⟨⟨hqueue, hpolled⟩, htracks⟩, hscenes⟩, haudio⟩, hplaying⟩ := hflags
  obtain ⟨slot, hslot, hstate⟩ := (hagree s hs hqueue hpolled 0 htracks 0 hscenes haudio).mpr hplaying
  rw [hslot, Option.map_some, hstate] at hstopped
  exact absurd hstopped (by decide)

end LaunchSession

end HikaruOpenLive.Gui
