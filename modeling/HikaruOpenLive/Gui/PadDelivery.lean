import HikaruOpenLive.Engine.ClipCells
import HikaruOpenLive.Gui.MatrixProject

/-! # The commands of the matrix in the engine

What the command thread does with what the matrix sends. The notes of a MIDI pad go to a list of MIDI
clips of their own, which is not part of the audio clips and left out of the engine here.
-/
set_option autoImplicit false

namespace HikaruOpenLive.Gui

open Engine

variable {ν β : Type}

def PadCommand.run (files : Files) (e : AudioEngine ν) : PadCommand → AudioEngine ν
  | .loadClip clipId path trackIndex sceneIndex =>
    match files path with
    | some data =>
      e.addClip (e.clipInstance clipId trackIndex sceneIndex (data.atRate e.sampleRate) 0 0 0
        data.channels true)
    | none => e
  | .setClipEvents trackIdx sceneIdx events =>
    e.setClipEvents trackIdx sceneIdx (events.map fun ev => ev.atRate e.sampleRate)
  | .setClipLoop trackIdx sceneIdx startSecs endSecs enabled =>
    e.setClipLoop trackIdx sceneIdx startSecs endSecs enabled
  | .updateMidiClipNotes _ _ _ => e
  | .triggerClip trackIdx sceneIdx => e.triggerClip trackIdx sceneIdx
  | .triggerScene sceneIdx => e.triggerScene sceneIdx

/-- The command as it stands in the queue of the command thread. -/
def PadCommand.waiting : PadCommand → WaitingCommand ν
  | .loadClip clipId path trackIndex sceneIndex => .loadClip clipId path 0 0 0 trackIndex sceneIndex
  | .setClipEvents trackIdx sceneIdx events => .setClipEvents trackIdx sceneIdx events
  | .setClipLoop trackIdx sceneIdx startSecs endSecs enabled =>
    .setClipLoop trackIdx sceneIdx startSecs endSecs enabled
  | .updateMidiClipNotes _ _ _ => .other ⟨id, fun _ => rfl⟩
  | .triggerClip trackIdx sceneIdx => .triggerClip trackIdx sceneIdx
  | .triggerScene sceneIdx => .triggerScene sceneIdx

theorem PadCommand.run_waiting (host : PluginHost ν) (stage : OutputStage β) (files : Files)
    (e : AudioEngine ν) (cmd : PadCommand) :
    cmd.waiting.run host stage files e = cmd.run files e := by
  cases cmd <;> rfl

/-- The commands carried out in the order they were sent. -/
def deliverPads (files : Files) (e : AudioEngine ν) (cmds : List PadCommand) : AudioEngine ν :=
  cmds.foldl (PadCommand.run files) e

@[simp] theorem deliverPads_nil (files : Files) (e : AudioEngine ν) : deliverPads files e [] = e := rfl

@[simp] theorem deliverPads_cons (files : Files) (e : AudioEngine ν) (cmd : PadCommand)
    (cmds : List PadCommand) :
    deliverPads files e (cmd :: cmds) = deliverPads files (cmd.run files e) cmds := rfl

theorem deliverPads_append (files : Files) (e : AudioEngine ν) (first second : List PadCommand) :
    deliverPads files e (first ++ second) = deliverPads files (deliverPads files e first) second :=
  List.foldl_append

theorem PadCommand.run_frame (files : Files) (e : AudioEngine ν) (cmd : PadCommand) :
    (cmd.run files e).mode = e.mode ∧ (cmd.run files e).sampleRate = e.sampleRate := by
  cases cmd with
  | loadClip clipId path trackIndex sceneIndex =>
    simp only [run]
    split
    · exact e.addClip_frame _
    · exact ⟨rfl, rfl⟩
  | _ => exact ⟨rfl, rfl⟩

theorem deliverPads_frame (files : Files) (e : AudioEngine ν) (cmds : List PadCommand) :
    (deliverPads files e cmds).mode = e.mode ∧ (deliverPads files e cmds).sampleRate = e.sampleRate := by
  induction cmds generalizing e with
  | nil => exact ⟨rfl, rfl⟩
  | cons cmd cmds ih =>
    obtain ⟨hmode, hrate⟩ := cmd.run_frame files e
    obtain ⟨hmode', hrate'⟩ := ih (cmd.run files e)
    exact ⟨hmode'.trans hmode, hrate'.trans hrate⟩

/-- The notes of MIDI pads change no audio clip. -/
theorem deliverPads_midi (files : Files) (e : AudioEngine ν) {cmds : List PadCommand}
    (h : ∀ cmd ∈ cmds, ∃ track scene notes, cmd = .updateMidiClipNotes track scene notes) :
    deliverPads files e cmds = e := by
  induction cmds with
  | nil => rfl
  | cons cmd cmds ih =>
    obtain ⟨track, scene, notes, rfl⟩ := h cmd List.mem_cons_self
    exact ih fun cmd hcmd => h cmd (List.mem_cons_of_mem _ hcmd)

theorem syncMidiClip_notes (m : SessionMatrixState) (track scene : ℕ) :
    ∀ cmd ∈ m.syncMidiClip track scene,
      ∃ track scene notes, cmd = .updateMidiClipNotes track scene notes := by
  intro cmd hcmd
  unfold SessionMatrixState.syncMidiClip at hcmd
  split at hcmd
  · exact ⟨track, scene, _, List.mem_singleton.mp hcmd⟩
  · exact absurd hcmd (by simp)

theorem deliverPads_syncMidiClip (files : Files) (e : AudioEngine ν) (m : SessionMatrixState)
    (track scene : ℕ) : deliverPads files e (m.syncMidiClip track scene) = e :=
  deliverPads_midi files e (syncMidiClip_notes m track scene)

end HikaruOpenLive.Gui
