import HikaruOpenLive.Foundations.Runs
import HikaruOpenLive.Gui.DocumentApply

/-! # The loop region over saves

A file keeps the loop region in ticks, the transport in samples. Where a tick is longer than a sample the
ticks of a file come back from the samples they were turned into, so that a project can be saved and
opened, in either format, as often as one likes.
-/
set_option autoImplicit false

namespace HikaruOpenLive.Gui

open Transport Foundations.Runs

namespace OpenDocument

def bpm : OpenDocument → ℚ
  | .openLive doc => doc.transport.bpm
  | .openStudio doc => doc.transport.bpm

def loopTicks : OpenDocument → ℕ × ℕ
  | .openLive doc => (doc.transport.loopStartTicks, doc.transport.loopEndTicks)
  | .openStudio doc => (doc.transport.loopStartTicks, doc.transport.loopEndTicks)

def loopEnabled : OpenDocument → Bool
  | .openLive doc => doc.transport.loopEnabled
  | .openStudio doc => doc.transport.loopEnabled

end OpenDocument

namespace DocumentState

def loopSamples (s : DocumentState) : ℕ × ℕ :=
  (s.transport.loopStartSamples, s.transport.loopEndSamples)

/-- The file that a project is saved to, in the format of a mode. -/
def savedAs (s : DocumentState) : AppMode → OpenDocument
  | .openLive => .openLive s.captureOpenLive
  | .openStudio => .openStudio s.captureOpenStudio

theorem savedAs_transport (s : DocumentState) (mode : AppMode) :
    (s.savedAs mode).bpm = s.transport.bpm ∧
      (s.savedAs mode).loopTicks =
        (s.transport.samplesToTicks s.transport.loopStartSamples,
          s.transport.samplesToTicks s.transport.loopEndSamples) := by
  cases mode with
  | openLive => exact ⟨rfl, rfl⟩
  | openStudio => exact ⟨rfl, rfl⟩

section

variable (toLowercase : String → String) (disk : Disk) (baseDir : Option String)

def opened (s : DocumentState) (doc : OpenDocument) : DocumentState :=
  (s.applyDocument toLowercase disk baseDir doc).1

/-- Saving a project in the format of a mode, and opening the file. -/
def resave (s : DocumentState) (mode : AppMode) : DocumentState :=
  s.opened toLowercase disk baseDir (s.savedAs mode)

theorem transport_opened (s : DocumentState) (doc : OpenDocument) :
    (s.opened toLowercase disk baseDir doc).transport =
      s.openedTransport doc.bpm doc.loopTicks.1 doc.loopTicks.2 doc.loopEnabled := by
  unfold opened
  cases doc with
  | openLive doc =>
    show (s.applyOpenLive toLowercase disk baseDir doc).1.transport = _
    rw [applyOpenLive_eq]
    rfl
  | openStudio doc =>
    show (s.applyOpenStudio toLowercase disk baseDir doc).1.transport = _
    rw [applyOpenStudio_eq]
    rfl

/-! ## One save -/

/-- The region of the transport lies on ticks, at a tempo that a file keeps. -/
structure LoopOn (ticks : ℕ × ℕ) (s : DocumentState) : Prop where
  tempo : ProjectState.clampBpm s.transport.bpm = s.transport.bpm
  start : s.transport.loopStartSamples = s.transport.ticksToSamples ticks.1
  stop : s.transport.loopEndSamples = s.transport.ticksToSamples ticks.2

theorem clampBpm_idem (bpm : ℚ) :
    ProjectState.clampBpm (ProjectState.clampBpm bpm) = ProjectState.clampBpm bpm := by
  have hlow : (40 : ℚ) ≤ ProjectState.clampBpm bpm := le_max_left _ _
  have hhigh : ProjectState.clampBpm bpm ≤ 300 := max_le (by norm_num) (min_le_right _ _)
  rw [ProjectState.clampBpm, min_eq_left hhigh, max_eq_right hlow]

theorem loopOn_opened (s : DocumentState) (doc : OpenDocument) :
    LoopOn doc.loopTicks (s.opened toLowercase disk baseDir doc) := by
  have htransport := s.transport_opened toLowercase disk baseDir doc
  refine ⟨?_, ?_, ?_⟩ <;> rw [htransport]
  · exact clampBpm_idem _
  · exact TransportPosition.ticksToSamples_congr rfl rfl _
  · exact TransportPosition.ticksToSamples_congr rfl rfl _

/-- A save writes the ticks that the region lies on. -/
theorem LoopOn.saved {ticks : ℕ × ℕ} {s : DocumentState} (h : LoopOn ticks s)
    (hback : ∀ n, s.transport.samplesToTicks (s.transport.ticksToSamples n) = n) (mode : AppMode) :
    (s.savedAs mode).loopTicks = ticks := by
  rw [(s.savedAs_transport mode).2, h.start, h.stop, hback, hback]

/-- Opening what was saved changes neither tempo nor region. -/
theorem LoopOn.resaved {ticks : ℕ × ℕ} {s : DocumentState} (h : LoopOn ticks s)
    (hback : ∀ n, s.transport.samplesToTicks (s.transport.ticksToSamples n) = n) (mode : AppMode) :
    let r := s.resave toLowercase disk baseDir mode
    LoopOn ticks r ∧ r.transport.bpm = s.transport.bpm ∧ r.transport.sampleRate = s.transport.sampleRate ∧
      r.loopSamples = s.loopSamples := by
  have hticks := h.saved hback mode
  have hon := loopOn_opened toLowercase disk baseDir s (s.savedAs mode)
  have htransport := s.transport_opened toLowercase disk baseDir (s.savedAs mode)
  have hbpm : (s.resave toLowercase disk baseDir mode).transport.bpm = s.transport.bpm := by
    unfold resave
    rw [htransport, (s.savedAs_transport mode).1]
    exact h.tempo
  have hrate : (s.resave toLowercase disk baseDir mode).transport.sampleRate = s.transport.sampleRate := by
    unfold resave
    rw [htransport]
    rfl
  rw [hticks] at hon
  refine ⟨hon, hbpm, hrate, Prod.ext ?_ ?_⟩
  · exact hon.start.trans ((TransportPosition.ticksToSamples_congr hbpm hrate _).trans h.start.symm)
  · exact hon.stop.trans ((TransportPosition.ticksToSamples_congr hbpm hrate _).trans h.stop.symm)

/-! ## Any number of saves -/

/-- The ticks of a file are what every later save writes, and the samples they were turned into are those
of every later state. -/
def LoopStays (doc : OpenDocument) (s : DocumentState) (rounds : List AppMode) : Prop :=
  Always (resave toLowercase disk baseDir)
    (fun r => (∀ mode, (r.savedAs mode).loopTicks = doc.loopTicks) ∧ r.loopSamples = s.loopSamples) s rounds

theorem loopStays_of_on {doc : OpenDocument} {s : DocumentState} (h : LoopOn doc.loopTicks s)
    (hlong : 1 < s.transport.samplesPerTick) (rounds : List AppMode) :
    LoopStays toLowercase disk baseDir doc s rounds := by
  have hkept : Always (resave toLowercase disk baseDir)
      (fun r => LoopOn doc.loopTicks r ∧ 1 < r.transport.samplesPerTick ∧ r.loopSamples = s.loopSamples)
      s rounds := by
    refine always_of_step ?_ ⟨h, hlong, rfl⟩
    rintro r mode ⟨hon, hlong, hsame⟩
    have hback := TransportPosition.samplesToTicks_ticksToSamples_of_long hlong
    obtain ⟨hon', hbpm, hrate, hsamples⟩ := hon.resaved toLowercase disk baseDir hback mode
    refine ⟨hon', ?_, hsamples.trans hsame⟩
    unfold TransportPosition.samplesPerTick TransportPosition.secondsPerTick at hlong ⊢
    rw [hbpm, hrate]
    exact hlong
  refine hkept.mono ?_
  rintro r ⟨hon, hlong, hsame⟩
  exact ⟨hon.saved (TransportPosition.samplesToTicks_ticksToSamples_of_long hlong), hsame⟩

end

/-- With more than a sample to the tick no count of ticks is changed by its way through samples, and the
loop region of a file stays where it is, however often and in whichever format it is saved and opened. -/
theorem loop_survives_saves (toLowercase : String → String) (disk : Disk) (baseDir : Option String) :
    (∀ t : TransportPosition, 1 < t.samplesPerTick →
        ∀ ticks, t.samplesToTicks (t.ticksToSamples ticks) = ticks) ∧
      ∀ (s : DocumentState) (doc : OpenDocument) (rounds : List AppMode),
        1 < (s.opened toLowercase disk baseDir doc).transport.samplesPerTick →
          LoopStays toLowercase disk baseDir doc (s.opened toLowercase disk baseDir doc) rounds :=
  ⟨fun _ hlong => TransportPosition.samplesToTicks_ticksToSamples_of_long hlong,
    fun s doc rounds hlong =>
      loopStays_of_on toLowercase disk baseDir (loopOn_opened toLowercase disk baseDir s doc) hlong rounds⟩

/-- A bar at 120 beats a minute and 44100 samples a second. -/
def oneBarDocument : OpenDocument :=
  .openStudio { emptyStudioDocument with transport := ⟨120, 4, 4, 960, 4800, true⟩ }

theorem samplesPerTick_oneBar :
    1 < ((blank .openLive).opened id (fun _ => none) none oneBarDocument).transport.samplesPerTick := by
  rw [transport_opened]
  simp only [TransportPosition.samplesPerTick, TransportPosition.secondsPerTick, TransportPosition.ppqn,
    openedTransport, OpenDocument.bpm, oneBarDocument, ProjectState.clampBpm, blank]
  norm_num

theorem loop_survives_saves_oneBar :
    (blank .openLive).transport.samplesToTicks ((blank .openLive).transport.ticksToSamples 960) = 960 ∧
      LoopStays id (fun _ => none) none oneBarDocument
        ((blank .openLive).opened id (fun _ => none) none oneBarDocument) [.openLive, .openStudio] := by
  have hlong : 1 < (blank .openLive).transport.samplesPerTick := by
    simp only [TransportPosition.samplesPerTick, TransportPosition.secondsPerTick, TransportPosition.ppqn, blank]
    norm_num
  have hsaves := loop_survives_saves id (fun _ => none) none
  exact ⟨hsaves.1 _ hlong 960, hsaves.2 (blank .openLive) oneBarDocument _ samplesPerTick_oneBar⟩

end DocumentState

end HikaruOpenLive.Gui
