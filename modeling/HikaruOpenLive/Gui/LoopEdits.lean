import HikaruOpenLive.Gui.ClipEditor

/-! # The loops of the clips under edits

The clip editor beside the matrix and the engine, with the commands on their way to it. A loop is in three
places: the bounds of the editor, the clip of the matrix, which a save writes, and the clip of the engine.

What frame of the engine a stored position stands for is a parameter: a file dropped on a pad gets its
length in frames, and an opened project has its positions read as ticks.
-/
set_option autoImplicit false

namespace HikaruOpenLive.Gui

open Engine Foundations.ListEdits Foundations.Runs

/-- The scene that the editor names for a clip of the playlist, `usize::MAX`. -/
def noScene : ℕ :=
  2 ^ 64 - 1

structure EditorSession (ν : Type) where
  editor : ClipEditorState
  matrix : SessionMatrixState
  engine : AudioEngine ν
  inFlight : List PadCommand

inductive EditorStep where
  | input (i : EditorInput)
  | deliver

namespace EditorSession

variable {ν : Type}

def switchLoop (enabled : Bool) (slot : MatrixSlot) : MatrixSlot :=
  { slot with clip := slot.clip.map fun clip => { clip with loopEnabled := enabled } }

def applyLoopToEngine (d : EditorSession ν) (enabled : Bool) : EditorSession ν :=
  let startSecs := max d.editor.loopStartSecs 0
  let endSecs := max d.editor.loopEndSecs 0
  match d.editor.target with
  | none => d
  | some (.matrix track scene) =>
    { d with
      matrix := d.matrix.modifySlot track scene (switchLoop enabled)
      inFlight := d.inFlight ++ [.setClipLoop track scene startSecs endSecs enabled] }
  | some (.playlist clipId) =>
    { d with inFlight := d.inFlight ++ [.setClipLoop clipId noScene startSecs endSecs enabled] }

def step (files : Files) (d : EditorSession ν) : EditorStep → EditorSession ν
  | .input i =>
    let edited := { d with editor := (d.editor.input i).1 }
    match (d.editor.input i).2 with
    | none => edited
    | some enabled => edited.applyLoopToEngine enabled
  | .deliver =>
    match d.inFlight with
    | [] => d
    | cmd :: rest => { d with engine := cmd.run files d.engine, inFlight := rest }

/-- The engine once everything on its way has arrived. -/
def settled (files : Files) (d : EditorSession ν) : AudioEngine ν :=
  deliverPads files d.engine d.inFlight

/-- The clip of a pad in the engine. -/
def padCell? (e : AudioEngine ν) (track scene : ℕ) : Option AudioClip :=
  e.clips.find? fun c => c.isMatrixClip && c.inCell track scene

/-! ## What is asked of an edit -/

section

variable (reading : ℕ → ℕ) (files : Files)

/-- Every clip of the matrix that the engine has loops there as it does in the matrix. -/
def InStep (d : EditorSession ν) : Prop :=
  ∀ track scene clip c, d.matrix.clip? track scene = some clip →
    padCell? (d.settled files) track scene = some c →
      c.loopRegion =
        AudioClip.regionOf (reading clip.loopStart) (reading clip.loopEnd) clip.loopEnabled c.naturalFrames

def IsTarget (target : Option ClipEditorTarget) (c : AudioClip) : Prop :=
  match target with
  | none => False
  | some (.matrix track scene) => c.isMatrixClip = true ∧ c.inCell track scene = true
  | some (.playlist clipId) => c.isMatrixClip = false ∧ c.id = clipId

/-- No loop but that of the target is another afterwards, in the matrix or in the engine. -/
structure OthersKept (d d' : EditorSession ν) : Prop where
  matrix : ∀ track scene, d.editor.target ≠ some (.matrix track scene) →
    d'.matrix.clip? track scene = d.matrix.clip? track scene
  engine : List.Forall₂ (fun c c' => IsTarget d.editor.target c ∨ c'.loopRegion = c.loopRegion)
    (d.settled files).clips (d'.settled files).clips

/-- The clip that the engine takes for the target. -/
def taken (target : Option ClipEditorTarget) (e : AudioEngine ν) : Option AudioClip :=
  match target with
  | none => none
  | some (.matrix track scene) => e.cell? track scene
  | some (.playlist clipId) => e.cell? clipId noScene

def EditorStep.Sends (d : EditorSession ν) (enabled : Bool) : EditorStep → Prop
  | .input i => (d.editor.input i).2 = some enabled
  | .deliver => False

/-- What the engine takes for the target of a loop that is sent is the target. -/
def Meant (d : EditorSession ν) (i : EditorStep) : Prop :=
  (∃ enabled, EditorStep.Sends d enabled i) →
    ∀ c, taken d.editor.target (d.settled files) = some c → IsTarget d.editor.target c

/-- A loop that is sent for a pad has the bounds of the pad, as far as the engine can tell. -/
def SameBounds (d : EditorSession ν) : EditorStep → Prop
  | .deliver => True
  | .input i => ∀ enabled, (d.editor.input i).2 = some enabled →
    ∀ track scene clip c, d.editor.target = some (.matrix track scene) →
      d.matrix.clip? track scene = some clip → padCell? (d.settled files) track scene = some c →
        AudioClip.regionOf ⌊max (d.editor.input i).1.loopStartSecs 0 * max d.engine.sampleRate 1⌋₊
            ⌊max (d.editor.input i).1.loopEndSecs 0 * max d.engine.sampleRate 1⌋₊ enabled c.naturalFrames =
          AudioClip.regionOf (reading clip.loopStart) (reading clip.loopEnd) enabled c.naturalFrames

end

/-! ## One edit -/

section

variable {reading : ℕ → ℕ} {files : Files}

theorem settled_deliver (d : EditorSession ν) :
    (d.step files .deliver).settled files = d.settled files := by
  unfold step settled
  cases hflight : d.inFlight with
  | nil => simp only [hflight]
  | cons cmd rest => rfl

/-- A step that sends nothing keeps the matrix and what the engine settles to; any other sends the loop
of the editor for its target. -/
theorem step_cases (files : Files) (d : EditorSession ν) (i : EditorStep) :
    ((∀ enabled, ¬ EditorStep.Sends d enabled i) ∧ (d.step files i).matrix = d.matrix ∧
        (d.step files i).settled files = d.settled files) ∨
      ∃ input enabled, i = .input input ∧ (d.editor.input input).2 = some enabled ∧
        d.step files i = applyLoopToEngine { d with editor := (d.editor.input input).1 } enabled := by
  cases i with
  | deliver =>
    refine Or.inl ⟨fun _ => id, ?_, settled_deliver d⟩
    unfold step
    cases d.inFlight with
    | nil => rfl
    | cons cmd rest => rfl
  | input input =>
    cases hsends : (d.editor.input input).2 with
    | none =>
      have hstep : d.step files (.input input) = { d with editor := (d.editor.input input).1 } := by
        simp only [step, hsends]
      refine Or.inl ⟨fun enabled hen => ?_, by rw [hstep], by rw [hstep]; rfl⟩
      cases hsends.symm.trans hen
    | some enabled => exact Or.inr ⟨input, enabled, rfl, hsends, by simp only [step, hsends]⟩

theorem clip?_switchLoop (m : SessionMatrixState) (track scene : ℕ) (enabled : Bool) (t s : ℕ) :
    (m.modifySlot track scene (switchLoop enabled)).clip? t s =
      if t = track ∧ s = scene then
        (m.clip? track scene).map fun clip => { clip with loopEnabled := enabled }
      else m.clip? t s := by
  unfold SessionMatrixState.clip?
  rw [SessionMatrixState.slot?_modifySlot]
  by_cases hat : t = track ∧ s = scene
  · rw [if_pos hat, if_pos hat]
    cases m.slot? track scene with
    | none => rfl
    | some slot => rfl
  · rw [if_neg hat, if_neg hat]

theorem settled_sent (d : EditorSession ν) (track scene : ℕ) (startSecs endSecs : ℚ) (enabled : Bool) :
    deliverPads files d.engine (d.inFlight ++ [.setClipLoop track scene startSecs endSecs enabled]) =
      (d.settled files).setClipLoop track scene startSecs endSecs enabled := by
  rw [deliverPads_append]
  rfl

theorem sampleRate_settled (d : EditorSession ν) : (d.settled files).sampleRate = d.engine.sampleRate :=
  (deliverPads_frame files d.engine d.inFlight).2

theorem isPad_setLoop (start stop : ℕ) (enabled : Bool) (track scene : ℕ) (c : AudioClip) :
    ((c.setLoop start stop enabled).isMatrixClip && (c.setLoop start stop enabled).inCell track scene) =
      (c.isMatrixClip && c.inCell track scene) := by
  obtain ⟨_, hmatrix, _⟩ := AudioClip.setLoop_frame start stop enabled c
  obtain ⟨_, _, htrack, hscene⟩ := AudioEngine.setLoop_fields start stop enabled c
  unfold AudioClip.inCell
  rw [hmatrix, htrack, hscene]

/-- A loop set where the first clip of the cell is a pad is set on the clip of that pad. -/
theorem padCell?_setClipLoop {e : AudioEngine ν} {track scene : ℕ}
    (hfirst : ∀ c, e.cell? track scene = some c → c.isMatrixClip = true) (startSecs endSecs : ℚ)
    (enabled : Bool) (t s : ℕ) :
    padCell? (e.setClipLoop track scene startSecs endSecs enabled) t s =
      if t = track ∧ s = scene then
        (padCell? e track scene).map (AudioClip.setLoop ⌊max startSecs 0 * max e.sampleRate 1⌋₊
          ⌊max endSecs 0 * max e.sampleRate 1⌋₊ enabled)
      else padCell? e t s := by
  by_cases hat : t = track ∧ s = scene
  · obtain ⟨rfl, rfl⟩ := hat
    have hpad : ∀ c, e.clips.find? (AudioClip.inCell t s) = some c →
        (c.isMatrixClip && c.inCell t s) = true := fun c hc =>
      Bool.and_eq_true_iff.mpr ⟨hfirst c hc, List.find?_some hc⟩
    obtain ⟨hsame, hset⟩ := find?_updateFirst_first
      (q := fun c => c.isMatrixClip && c.inCell t s)
      (f := AudioClip.setLoop ⌊max startSecs 0 * max e.sampleRate 1⌋₊
        ⌊max endSecs 0 * max e.sampleRate 1⌋₊ enabled)
      (fun c hc => (Bool.and_eq_true_iff.mp hc).2) hpad
      (fun c hc => (isPad_setLoop _ _ enabled t s c).trans hc)
    rw [if_pos ⟨rfl, rfl⟩]
    unfold padCell?
    rw [hsame]
    exact hset
  · rw [if_neg hat]
    refine find?_updateFirst_skip fun c hc => ?_
    have hout : c.inCell t s = false := AudioClip.not_inCell_of_ne (List.find?_some hc) hat
    rw [isPad_setLoop, hout, Bool.and_false]
    exact ⟨rfl, rfl⟩

/-- A loop set where the first clip of the cell is none of a pad is set on no pad. -/
theorem padCell?_setClipLoop_other {e : AudioEngine ν} {track scene : ℕ}
    (hfirst : ∀ c, e.cell? track scene = some c → c.isMatrixClip = false) (startSecs endSecs : ℚ)
    (enabled : Bool) (t s : ℕ) :
    padCell? (e.setClipLoop track scene startSecs endSecs enabled) t s = padCell? e t s := by
  refine find?_updateFirst_skip fun c hc => ?_
  rw [isPad_setLoop, hfirst c hc, Bool.false_and]
  exact ⟨rfl, rfl⟩

/-- Loops are in step after one has been sent for a pad if and only if its bounds are the pad's. -/
theorem inStep_sent_iff {m : SessionMatrixState} {e : AudioEngine ν} {track scene : ℕ}
    (hfirst : ∀ c, e.cell? track scene = some c → c.isMatrixClip = true) (startSecs endSecs : ℚ)
    (enabled : Bool)
    (h : ∀ t s clip c, m.clip? t s = some clip → padCell? e t s = some c →
      c.loopRegion =
        AudioClip.regionOf (reading clip.loopStart) (reading clip.loopEnd) clip.loopEnabled
          c.naturalFrames) :
    (∀ t s clip c, (m.modifySlot track scene (switchLoop enabled)).clip? t s = some clip →
      padCell? (e.setClipLoop track scene startSecs endSecs enabled) t s = some c →
        c.loopRegion =
          AudioClip.regionOf (reading clip.loopStart) (reading clip.loopEnd) clip.loopEnabled
            c.naturalFrames) ↔
      ∀ clip c, m.clip? track scene = some clip → padCell? e track scene = some c →
        AudioClip.regionOf ⌊max startSecs 0 * max e.sampleRate 1⌋₊ ⌊max endSecs 0 * max e.sampleRate 1⌋₊
            enabled c.naturalFrames =
          AudioClip.regionOf (reading clip.loopStart) (reading clip.loopEnd) enabled c.naturalFrames := by
  have hregion (c : AudioClip) := AudioClip.loopRegion_setLoop
    ⌊max startSecs 0 * max e.sampleRate 1⌋₊ ⌊max endSecs 0 * max e.sampleRate 1⌋₊ enabled c
  have hlength (c : AudioClip) := AudioClip.naturalFrames_setLoop
    ⌊max startSecs 0 * max e.sampleRate 1⌋₊ ⌊max endSecs 0 * max e.sampleRate 1⌋₊ enabled c
  simp only [clip?_switchLoop, padCell?_setClipLoop hfirst]
  constructor
  · intro hafter clip c hclip hc
    have hsent := hafter track scene { clip with loopEnabled := enabled } _
      (by rw [if_pos ⟨rfl, rfl⟩, hclip]; rfl) (by rw [if_pos ⟨rfl, rfl⟩, hc]; rfl)
    rw [hregion, hlength] at hsent
    exact hsent
  · intro hbounds t s clip c hclip hc
    by_cases hat : t = track ∧ s = scene
    · rw [if_pos hat] at hclip hc
      obtain ⟨g, hg, rfl⟩ := Option.map_eq_some_iff.mp hclip
      obtain ⟨d, hd, rfl⟩ := Option.map_eq_some_iff.mp hc
      rw [hregion, hlength]
      exact hbounds g d hg hd
    · rw [if_neg hat] at hclip hc
      exact h t s clip c hclip hc

/-- An edit keeps the loops in step if and only if it sends a pad its own bounds. -/
theorem inStep_step_iff (d : EditorSession ν) (i : EditorStep) (hmeant : Meant files d i)
    (h : InStep reading files d) : InStep reading files (d.step files i) ↔ SameBounds reading files d i := by
  obtain ⟨hsilent, hmatrix, hsettled⟩ | ⟨input, enabled, rfl, hsends, hstep⟩ := step_cases files d i
  · refine iff_of_true ?_ ?_
    · unfold InStep
      rw [hsettled, hmatrix]
      exact h
    · cases i with
      | deliver => exact trivial
      | input input => exact fun enabled hsends => absurd hsends (hsilent enabled)
  · have htarget := ClipEditorState.target_input hsends
    have hfound := hmeant ⟨enabled, hsends⟩
    rw [hstep]
    unfold applyLoopToEngine SameBounds
    simp only [htarget, hsends]
    cases hkind : d.editor.target with
    | none => exact iff_of_true h fun _ _ _ _ _ _ hnone => nomatch hnone
    | some target =>
      rw [hkind] at hfound
      cases target with
      | matrix track scene =>
        have hsent := inStep_sent_iff (fun c hc => (hfound c hc).1)
          (max (d.editor.input input).1.loopStartSecs 0) (max (d.editor.input input).1.loopEndSecs 0)
          enabled h
        simp only [max_assoc, max_self, sampleRate_settled] at hsent
        unfold InStep settled
        simp only [settled_sent]
        refine hsent.trans ⟨fun hb en hen t s clip c hat hclip hc => ?_,
          fun hb clip c hclip hc => hb enabled rfl track scene clip c rfl hclip hc⟩
        obtain rfl := Option.some.inj hen
        obtain ⟨rfl, rfl⟩ : track = t ∧ scene = s := by simpa using hat
        exact hb clip c hclip hc
      | playlist clipId =>
        refine iff_of_true ?_ fun _ _ _ _ _ _ hat => nomatch hat
        unfold InStep settled
        simp only [settled_sent, padCell?_setClipLoop_other fun c hc => (hfound c hc).1]
        exact h

theorem OthersKept.of_same {d d' : EditorSession ν} (hmatrix : d'.matrix = d.matrix)
    (hsettled : d'.settled files = d.settled files) : OthersKept files d d' := by
  refine ⟨fun _ _ _ => by rw [hmatrix], ?_⟩
  rw [hsettled]
  exact List.forall₂_same.mpr fun _ _ => Or.inr rfl

/-- An edit leaves the loops of the other clips alone if what the engine takes for its target is it. -/
theorem othersKept_step (d : EditorSession ν) (i : EditorStep) (hmeant : Meant files d i) :
    OthersKept files d (d.step files i) := by
  have hsent (track scene : ℕ) (startSecs endSecs : ℚ) (enabled : Bool)
      (hfirst : ∀ c, (d.settled files).cell? track scene = some c → IsTarget d.editor.target c) :
      List.Forall₂ (fun c c' => IsTarget d.editor.target c ∨ c'.loopRegion = c.loopRegion)
        (d.settled files).clips
        ((d.settled files).setClipLoop track scene startSecs endSecs enabled).clips :=
    forall₂_updateFirst
      (R := fun c c' => IsTarget d.editor.target c ∨ c'.loopRegion = c.loopRegion)
      (fun _ => Or.inr rfl) fun c hc => Or.inl (hfirst c hc)
  obtain ⟨-, hmatrix, hsettled⟩ | ⟨input, enabled, rfl, hsends, hstep⟩ := step_cases files d i
  · exact .of_same hmatrix hsettled
  · have htarget := ClipEditorState.target_input hsends
    have hfound := hmeant ⟨enabled, hsends⟩
    rw [hstep]
    unfold applyLoopToEngine
    simp only [htarget]
    cases hkind : d.editor.target with
    | none => exact .of_same rfl rfl
    | some target =>
      rw [hkind] at hfound
      cases target with
      | matrix track scene =>
        refine ⟨fun t s hother => ?_, ?_⟩
        · have hat : ¬ (t = track ∧ s = scene) := by
            rintro ⟨rfl, rfl⟩
            exact hother hkind
          show (d.matrix.modifySlot track scene (switchLoop enabled)).clip? t s = _
          rw [clip?_switchLoop, if_neg hat]
        · show List.Forall₂ _ _ (deliverPads files d.engine _).clips
          rw [settled_sent]
          exact hsent track scene _ _ enabled fun c hc => hkind ▸ hfound c hc
      | playlist clipId =>
        refine ⟨fun _ _ _ => rfl, ?_⟩
        show List.Forall₂ _ _ (deliverPads files d.engine _).clips
        rw [settled_sent]
        exact hsent clipId noScene _ _ enabled fun c hc => hkind ▸ hfound c hc

/-- In runs where the engine takes the target for the target, the loops stay in step, and those of other
clips are never touched, if and only if every loop sent for a pad has the bounds of the pad. -/
theorem always_inStep_iff {d : EditorSession ν} (h : InStep reading files d) {is : List EditorStep}
    (hmeant : Along (step files) (Meant files) d is) :
    (Always (step files) (InStep reading files) d is ∧
        Along (step files) (fun d i => OthersKept files d (d.step files i)) d is) ↔
      Along (step files) (SameBounds reading files) d is := by
  have hkept : Along (step files) (fun d i => OthersKept files d (d.step files i)) d is :=
    hmeant.mono othersKept_step
  have hloops : Always (step files) (InStep reading files) d is ↔
      Along (step files) (SameBounds reading files) d is :=
    always_iff_along_where (fun d i hm hd => inStep_step_iff d i hm hd) h hmeant
  rw [hloops]
  exact and_iff_left hkept

/-! ## A pad fresh from its file -/

end

def loopPad : MatrixClip :=
  .ofFile 1 "/loop.wav" (.audio [] 1) 96000

def loopMatrix : SessionMatrixState :=
  { grid := [[⟨.stopped, some loopPad⟩]], tracks := [⟨"Loops", false, false, 3 / 4, 0⟩]
    scenes := [⟨"Verse"⟩], nextClipId := 2, selectedSlot := none }

/-- The clip that two seconds of a file become in the engine. -/
def loopCell : AudioClip :=
  (AudioEngine.new 48000 : AudioEngine Empty).clipInstance 1 0 0 (List.replicate 96000 0) 0 0 0 1 true

/-- A pad as its file was loaded, and an editor that has not been used. -/
def freshLoop : EditorSession Empty :=
  { editor := .default, matrix := loopMatrix
    engine := { (AudioEngine.new 48000).setMode .openLive with clips := [loopCell] }, inFlight := [] }

theorem naturalFrames_loopCell : loopCell.naturalFrames = 96000 := by
  simp only [loopCell, AudioEngine.clipInstance, AudioClip.naturalFrames, List.isEmpty_nil, if_true,
    List.length_replicate]
  decide

theorem loopRegion_loopCell : loopCell.loopRegion = (true, 0, 96000) := by
  simp only [loopCell, AudioEngine.clipInstance, AudioClip.loopRegion, List.length_replicate]
  decide

theorem clip?_loopMatrix {track scene : ℕ} {clip : MatrixClip}
    (h : loopMatrix.clip? track scene = some clip) : track = 0 ∧ scene = 0 ∧ clip = loopPad := by
  cases track with
  | succ track => exact nomatch h
  | zero =>
    cases scene with
    | succ scene => exact nomatch h
    | zero => exact ⟨rfl, rfl, (Option.some.inj h).symm⟩

theorem cell_freshLoop {p : AudioClip → Bool} {c : AudioClip} (h : freshLoop.engine.clips.find? p = some c) :
    c = loopCell :=
  List.mem_singleton.mp (List.mem_of_find?_eq_some h)

theorem inStep_freshLoop : InStep id (fun _ => none) freshLoop := by
  intro track scene clip c hclip hc
  obtain ⟨rfl, rfl, rfl⟩ := clip?_loopMatrix hclip
  rw [cell_freshLoop hc, loopRegion_loopCell, naturalFrames_loopCell]
  decide

theorem always_inStep_toggled :
    Always (step fun _ => none) (InStep id fun _ => none) freshLoop
        [.input (.select (some (.matrix 0 0))), .input .toggleLoop, .deliver] ∧
      Along (step fun _ => none)
        (fun d i => OthersKept (fun _ => none) d (d.step (fun _ => none) i)) freshLoop
        [.input (.select (some (.matrix 0 0))), .input .toggleLoop, .deliver] := by
  have hmeant : Along (step fun _ => none) (Meant fun _ => none) freshLoop
      [.input (.select (some (.matrix 0 0))), .input .toggleLoop, .deliver] := by
    refine ⟨fun ⟨enabled, hsends⟩ => (nomatch hsends), fun _ c hc => ?_, fun ⟨enabled, hsends⟩ => hsends.elim,
      trivial⟩
    have hcell : freshLoop.engine.clips.find? (AudioClip.inCell 0 0) = some c := hc
    rw [cell_freshLoop hcell]
    exact ⟨rfl, rfl⟩
  refine (always_inStep_iff inStep_freshLoop hmeant).mpr
    ⟨fun enabled hsends => (nomatch hsends), ?_, trivial, trivial⟩
  intro enabled hsends track scene clip c hat hclip hc
  obtain rfl := Option.some.inj hsends
  obtain ⟨rfl, rfl, rfl⟩ := clip?_loopMatrix hclip
  rw [cell_freshLoop hc, naturalFrames_loopCell]
  decide +kernel

/-- The loop switched on and its start taken hold of. -/
def heldLoop : EditorSession Empty :=
  [.input (.select (some (.matrix 0 0))), .input .toggleLoop, .input (.press 0 0 2)].foldl
    (step fun _ => none) freshLoop

theorem settled_heldLoop :
    heldLoop.settled (fun _ => none) = freshLoop.engine.setClipLoop 0 0 (max 0 0) (max 0 0) true :=
  rfl

theorem padCell_heldLoop : ∃ c, padCell? (heldLoop.settled fun _ => none) 0 0 = some c ∧
    c.naturalFrames = 96000 := by
  have hfirst : ∀ c, freshLoop.engine.cell? 0 0 = some c → c.isMatrixClip = true := by
    intro c hc
    rw [cell_freshLoop hc]
    rfl
  have hcell : padCell? freshLoop.engine 0 0 = some loopCell := rfl
  rw [settled_heldLoop, padCell?_setClipLoop hfirst, if_pos ⟨rfl, rfl⟩, hcell]
  exact ⟨_, rfl, (AudioClip.naturalFrames_setLoop _ _ true loopCell).trans naturalFrames_loopCell⟩

/-- The drag of its start reaches the engine, and the clip of the matrix keeps the start it had. -/
theorem not_always_inStep_dragged :
    ¬ ∀ is, Always (step fun _ => none) (InStep id fun _ => none) freshLoop is := by
  intro h
  have hheld : InStep id (fun _ => none) heldLoop := (h _).final
  have hdragged : InStep id (fun _ => none) (heldLoop.step (fun _ => none) (.input (.move 400 2 120))) :=
    (h [.input (.select (some (.matrix 0 0))), .input .toggleLoop, .input (.press 0 0 2),
      .input (.move 400 2 120)]).final
  have hmeant : Meant (fun _ => none) heldLoop (.input (.move 400 2 120)) := by
    intro _ c hc
    obtain ⟨c', hc', rfl⟩ : ∃ c', freshLoop.engine.cell? 0 0 = some c' ∧
        c'.setLoop ⌊max (max 0 0) 0 * max freshLoop.engine.sampleRate 1⌋₊
          ⌊max (max 0 0) 0 * max freshLoop.engine.sampleRate 1⌋₊ true = c := by
      have hcell : (heldLoop.settled fun _ => none).cell? 0 0 = some c := hc
      rw [settled_heldLoop, AudioEngine.cell?_setClipLoop, if_pos ⟨rfl, rfl⟩] at hcell
      exact Option.map_eq_some_iff.mp hcell
    rw [cell_freshLoop hc']
    exact Bool.and_eq_true_iff.mp ((isPad_setLoop _ _ true 0 0 loopCell).trans rfl)
  obtain ⟨c, hc, hlength⟩ := padCell_heldLoop
  have hsends : (heldLoop.editor.input (.move 400 2 120)).2 = some true := by decide +kernel
  have hbounds := (inStep_step_iff heldLoop _ hmeant hheld).mp hdragged true hsends 0 0 loopPad c rfl rfl hc
  rw [hlength] at hbounds
  exact absurd hbounds (by decide +kernel)

end EditorSession

end HikaruOpenLive.Gui
