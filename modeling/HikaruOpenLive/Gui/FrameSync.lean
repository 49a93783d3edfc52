import HikaruOpenLive.Foundations.Runs
import HikaruOpenLive.Gui.ProjectApply

/-! # The loop of a project over idle frames

Every frame the application takes over the clock of the engine and puts the loop region of the playlist's
ruler, if it is switched on, in place of the transport's. The peaks, the probes, the preview and the
piano roll, which a frame also looks after, are left out.

`always_loopKept_iff` says for which projects the loop of the file outlives this: those whose region is
the one in the ruler, which a live project does not touch and whose switch no project sets.
-/
set_option autoImplicit false

namespace HikaruOpenLive.Gui

open Transport Foundations.Runs

namespace PlaylistState

/-- The end of a loop region, at least a quarter note after its start. -/
def loopEnd (start stop ppqn : ℕ) : ℕ :=
  let stop := if stop ≤ start then start + 4 * ppqn else stop
  if stop - start < ppqn then start + ppqn else stop

/-- No region is active, or one that is shorter than a quarter note. -/
def lacksRegion (s : PlaylistState) : Bool :=
  !s.loopRegionActive || decide (s.loopEndTicks ≤ s.loopStartTicks) ||
    decide (s.loopEndTicks - s.loopStartTicks < max s.ppqn 1)

/-- The region over the whole playlist, where there is none. -/
def regionOrWhole (s : PlaylistState) : ℕ × ℕ :=
  if s.lacksRegion then (0, max s.totalProjectTicks (4 * max s.ppqn 1))
  else (s.loopStartTicks, s.loopEndTicks)

def ensureLoopRegion (s : PlaylistState) : PlaylistState :=
  let region := s.regionOrWhole
  let stop := loopEnd region.1 region.2 (max s.ppqn 1)
  if region.1 < stop then
    { s with loopStartTicks := region.1, loopEndTicks := stop, loopRegionActive := true }
  else s

end PlaylistState

namespace ProjectState

/-- The clock of the engine taken over. -/
def readClock (s : ProjectState) (clock : ℕ) : ProjectState :=
  { s with
    transport := { s.transport with sampleCount := clock }
    playlistState := { s.playlistState with
      ppqn := s.transport.ppqn, playheadTick := s.transport.samplesToTicks clock } }

def syncBpm (s : ProjectState) : ProjectState × List SentCommand :=
  if s.transport.bpm = s.bpmSyncedToEngine then (s, [])
  else ({ s with bpmSyncedToEngine := s.transport.bpm }, [.setBpm s.transport.bpm])

def loopsInPlaylist (s : ProjectState) : Bool :=
  decide (s.transport.playbackState = .playing) && s.isLooping && decide (s.mode ≠ .openLive)

def ensureRuler (s : ProjectState) : ProjectState :=
  if s.loopsInPlaylist then { s with playlistState := s.playlistState.ensureLoopRegion } else s

/-- The loop the ruler asks for, in ticks. -/
def wantedLoop (s : ProjectState) : Bool × ℕ × ℕ :=
  let pl := s.playlistState
  if s.isLooping && pl.isLoopRegionValid then
    let stop := PlaylistState.loopEnd pl.loopStartTicks pl.loopEndTicks (max pl.ppqn 1)
    (decide (pl.loopStartTicks < stop), pl.loopStartTicks, stop)
  else (false, 0, 0)

def wantedSamples (s : ProjectState) : Bool × ℕ × ℕ :=
  (s.wantedLoop.1, s.transport.ticksToSamples s.wantedLoop.2.1,
    s.transport.ticksToSamples s.wantedLoop.2.2)

def syncLoop (s : ProjectState) : ProjectState × List SentCommand :=
  let want := s.wantedSamples
  if s.globalLoopSyncedToEngine = some want then (s, [])
  else
    ({ s with
        globalLoopSyncedToEngine := some want
        transport := (s.transport.setLoopRegionSamples want.2.1 want.2.2).setLoopEnabled want.1 },
      [.setGlobalLoop want.2.1 want.2.2 want.1])

/-- One frame without an edit. -/
def syncFrame (s : ProjectState) (clock : ℕ) : ProjectState × List SentCommand :=
  let (s, bpmCommands) := (s.readClock clock).syncBpm
  let (s, loopCommands) := s.ensureRuler.syncLoop
  (s, bpmCommands ++ loopCommands)

def frame (s : ProjectState) (clock : ℕ) : ProjectState :=
  (s.syncFrame clock).1

end ProjectState

/-! ## The loop region in the ruler -/

namespace PlaylistState

theorem loopEnd_of_lt {start stop ppqn : ℕ} (h : start < stop) :
    loopEnd start stop ppqn = if stop - start < ppqn then start + ppqn else stop := by
  have hne : ¬ stop ≤ start := Nat.not_le.mpr h
  simp only [loopEnd, if_neg hne]

theorem lt_loopEnd {start stop ppqn : ℕ} (h : start < stop) : start < loopEnd start stop ppqn := by
  rw [loopEnd_of_lt h]
  split
  · omega
  · exact h

theorem loopEnd_of_le {start stop ppqn : ℕ} (hppqn : 0 < ppqn) (h : ppqn ≤ stop - start) :
    loopEnd start stop ppqn = stop := by
  have hlt : start < stop := by omega
  rw [loopEnd_of_lt hlt, if_neg (Nat.not_lt.mpr h)]

theorem lacksRegion_eq_false (s : PlaylistState) :
    s.lacksRegion = false ↔
      s.loopRegionActive = true ∧ max s.ppqn 1 ≤ s.loopEndTicks - s.loopStartTicks := by
  simp only [lacksRegion, Bool.or_eq_false_iff, Bool.not_eq_false', decide_eq_false_iff_not, not_le,
    not_lt]
  constructor
  · rintro ⟨⟨hactive, _⟩, hlen⟩
    exact ⟨hactive, hlen⟩
  · rintro ⟨hactive, hlen⟩
    exact ⟨⟨hactive, by omega⟩, hlen⟩

theorem ensureLoopRegion_of_region {s : PlaylistState} (h : s.lacksRegion = false) :
    s.ensureLoopRegion = s := by
  obtain ⟨hactive, hlen⟩ := (lacksRegion_eq_false s).mp h
  have hppqn : 0 < max s.ppqn 1 := by omega
  have hlt : s.loopStartTicks < s.loopEndTicks := by omega
  have hregion : s.regionOrWhole = (s.loopStartTicks, s.loopEndTicks) := by
    rw [regionOrWhole, h]
    rfl
  simp only [ensureLoopRegion, hregion, loopEnd_of_le hppqn hlen, if_pos hlt, ← hactive]

theorem ppqn_ensureLoopRegion (s : PlaylistState) : s.ensureLoopRegion.ppqn = s.ppqn := by
  simp only [ensureLoopRegion]
  split
  · rfl
  · rfl

/-- Once ensured, a region stays: there is one. -/
theorem lacksRegion_ensureLoopRegion (s : PlaylistState) : s.ensureLoopRegion.lacksRegion = false := by
  cases h : s.lacksRegion with
  | false => rwa [ensureLoopRegion_of_region h]
  | true =>
    have hlen : max s.ppqn 1 ≤ max s.totalProjectTicks (4 * max s.ppqn 1) - 0 := by omega
    have hppqn : 0 < max s.ppqn 1 := by omega
    have hregion : s.regionOrWhole = (0, max s.totalProjectTicks (4 * max s.ppqn 1)) := by
      rw [regionOrWhole, h]
      rfl
    have hlt : 0 < max s.totalProjectTicks (4 * max s.ppqn 1) := by omega
    rw [lacksRegion_eq_false, ppqn_ensureLoopRegion]
    simp only [ensureLoopRegion, hregion, loopEnd_of_le hppqn hlen, if_pos hlt]
    exact ⟨trivial, hlen⟩

theorem ensureLoopRegion_playhead (s : PlaylistState) (tick : ℕ) :
    { s with playheadTick := tick }.ensureLoopRegion =
      { s.ensureLoopRegion with playheadTick := tick } := by
  have hregion : { s with playheadTick := tick }.regionOrWhole = s.regionOrWhole := rfl
  simp only [ensureLoopRegion, hregion]
  split
  · rfl
  · rfl

end PlaylistState

namespace ProjectState

/-- The loop in the transport: its switch and its bounds in samples. -/
def loopOf (s : ProjectState) : Bool × ℕ × ℕ :=
  (s.transport.loopEnabled, s.transport.loopStartSamples, s.transport.loopEndSamples)

/-- The ruler as the next frame has it. -/
def nextRuler (s : ProjectState) : PlaylistState :=
  let pl := { s.playlistState with ppqn := s.transport.ppqn }
  if s.loopsInPlaylist then pl.ensureLoopRegion else pl

/-- The loop the next frame asks for. -/
def nextWant (s : ProjectState) : Bool × ℕ × ℕ :=
  { s with playlistState := s.nextRuler }.wantedSamples

theorem syncBpm_fst (s : ProjectState) :
    s.syncBpm.1 = { s with bpmSyncedToEngine := s.transport.bpm } := by
  unfold syncBpm
  split
  case isTrue h => rw [h]
  case isFalse => rfl

/-- The state a frame has reached when it comes to the loop. -/
theorem frame_eq (s : ProjectState) (clock : ℕ) :
    s.frame clock =
      ({ s with
          bpmSyncedToEngine := s.transport.bpm
          transport := { s.transport with sampleCount := clock }
          playlistState := { s.nextRuler with
            playheadTick := s.transport.samplesToTicks clock } } : ProjectState).syncLoop.1 := by
  have hread : s.frame clock = (s.readClock clock).syncBpm.1.ensureRuler.syncLoop.1 := rfl
  rw [hread, syncBpm_fst, nextRuler]
  cases hloops : s.loopsInPlaylist with
  | false =>
    have hensure : ({ s.readClock clock with
        bpmSyncedToEngine := (s.readClock clock).transport.bpm } : ProjectState).ensureRuler =
          { s.readClock clock with bpmSyncedToEngine := (s.readClock clock).transport.bpm } :=
      if_neg (by rw [Bool.not_eq_true]; exact hloops)
    rw [hensure]
    rfl
  | true =>
    have hensure : ({ s.readClock clock with
        bpmSyncedToEngine := (s.readClock clock).transport.bpm } : ProjectState).ensureRuler =
          { s.readClock clock with
            bpmSyncedToEngine := (s.readClock clock).transport.bpm
            playlistState := (s.readClock clock).playlistState.ensureLoopRegion } :=
      if_pos hloops
    have hplayhead := PlaylistState.ensureLoopRegion_playhead
      { s.playlistState with ppqn := s.transport.ppqn } (s.transport.samplesToTicks clock)
    rw [hensure]
    simp only [readClock] at hplayhead ⊢
    rw [hplayhead]
    rfl

theorem syncLoop_spec (s : ProjectState) :
    s.syncLoop.1.loopOf =
        (if s.globalLoopSyncedToEngine = some s.wantedSamples then s.loopOf else s.wantedSamples) ∧
      s.syncLoop.1.globalLoopSyncedToEngine = some s.wantedSamples ∧
      s.syncLoop.1.nextWant = s.nextWant ∧
      s.syncLoop.1.transport.bpm = s.transport.bpm ∧
      s.syncLoop.1.transport.sampleRate = s.transport.sampleRate := by
  unfold syncLoop
  simp only
  split
  case isTrue h => exact ⟨rfl, h, rfl, rfl, rfl⟩
  case isFalse => exact ⟨rfl, rfl, rfl, rfl, rfl⟩

/-- A ruler as a frame leaves it is the next frame's. -/
theorem nextRuler_of_settled {s : ProjectState} (hppqn : s.playlistState.ppqn = s.transport.ppqn)
    (hregion : s.loopsInPlaylist = true → s.playlistState.lacksRegion = false) :
    s.nextRuler = s.playlistState := by
  have hsame : { s.playlistState with ppqn := s.transport.ppqn } = s.playlistState := by
    rw [← hppqn]
  unfold nextRuler
  simp only [hsame]
  split
  case isTrue h => exact PlaylistState.ensureLoopRegion_of_region (hregion h)
  case isFalse => rfl

theorem ppqn_nextRuler (s : ProjectState) : s.nextRuler.ppqn = s.transport.ppqn := by
  unfold nextRuler
  simp only
  split
  · exact PlaylistState.ppqn_ensureLoopRegion _
  · rfl

/-- What a frame does to the loop: it is replaced unless what the ruler asks for was sent already. The
rest that decides about the loop stays as it is. -/
theorem frame_spec (s : ProjectState) (clock : ℕ) :
    (s.frame clock).loopOf =
        (if s.globalLoopSyncedToEngine = some s.nextWant then s.loopOf else s.nextWant) ∧
      (s.frame clock).globalLoopSyncedToEngine = some s.nextWant ∧
      (s.frame clock).nextWant = s.nextWant ∧
      (s.frame clock).transport.bpm = s.transport.bpm ∧
      (s.frame clock).transport.sampleRate = s.transport.sampleRate := by
  rw [frame_eq]
  generalize hm : ({ s with
      bpmSyncedToEngine := s.transport.bpm
      transport := { s.transport with sampleCount := clock }
      playlistState := { s.nextRuler with
        playheadTick := s.transport.samplesToTicks clock } } : ProjectState) = m
  have hwant : m.wantedSamples = s.nextWant := by rw [← hm]; rfl
  have hnext : m.nextWant = s.nextWant := by
    have hruler : m.nextRuler = m.playlistState := by
      refine nextRuler_of_settled ?_ ?_
      · rw [← hm]
        exact ppqn_nextRuler s
      · intro hloops
        have hs : s.loopsInPlaylist = true := by rw [← hloops, ← hm]; rfl
        have hensured : s.nextRuler =
            { s.playlistState with ppqn := s.transport.ppqn }.ensureLoopRegion := if_pos hs
        have hlacks := PlaylistState.lacksRegion_ensureLoopRegion
          { s.playlistState with ppqn := s.transport.ppqn }
        rw [← hensured] at hlacks
        rw [← hm]
        exact hlacks
    rw [← hwant, nextWant, hruler]
  obtain ⟨hloop, hcache, hkeep, hbpm, hrate⟩ := m.syncLoop_spec
  rw [hwant] at hloop hcache
  refine ⟨hloop.trans ?_, hcache, hkeep.trans hnext, hbpm.trans ?_, hrate.trans ?_⟩
  · rw [← hm]
    rfl
  · rw [← hm]
  · rw [← hm]

theorem nextWant_eq_iff (s : ProjectState) (startSamples endSamples : ℕ) :
    s.nextWant = (true, startSamples, endSamples) ↔
      s.isLooping = true ∧ s.nextRuler.isLoopRegionValid = true ∧
        s.transport.ticksToSamples s.nextRuler.loopStartTicks = startSamples ∧
        s.transport.ticksToSamples (PlaylistState.loopEnd s.nextRuler.loopStartTicks
          s.nextRuler.loopEndTicks s.transport.ppqn) = endSamples := by
  have hppqn : max s.nextRuler.ppqn 1 = s.transport.ppqn := by
    rw [ppqn_nextRuler]
    rfl
  unfold nextWant wantedSamples wantedLoop
  simp only [hppqn]
  cases hlooping : s.isLooping with
  | false => simp
  | true =>
    cases hvalid : s.nextRuler.isLoopRegionValid with
    | false => simp
    | true =>
      have hlt : s.nextRuler.loopStartTicks < s.nextRuler.loopEndTicks := by
        rw [PlaylistState.isLoopRegionValid, Bool.and_eq_true, decide_eq_true_eq] at hvalid
        exact hvalid.2
      simp [PlaylistState.lt_loopEnd hlt]

/-! ## The loop of a project -/

/-- The loop of the transport is that of a project, and a save writes the project's loop. -/
def LoopKept (saved : ProjectTransport) (s : ProjectState) : Prop :=
  s.loopOf = (saved.loopEnabled, s.transport.ticksToSamples saved.loopStartTicks,
      s.transport.ticksToSamples saved.loopEndTicks) ∧
    s.captureTransport.loopEnabled = saved.loopEnabled ∧
    s.captureTransport.loopStartTicks = saved.loopStartTicks ∧
    s.captureTransport.loopEndTicks = saved.loopEndTicks

/-- The ruler that the frames after a project find: the one there was for a live project; for a studio
project that of the file, given a region over the whole playlist if playback goes on without one. -/
def rulerAfter (disk : Disk) (baseDir : Option String) (s : ProjectState) : Project → PlaylistState
  | .openLive _ => { s.playlistState with ppqn := s.transport.ppqn }
  | .openStudio project =>
    let strips : ProjectState :=
      { s with studioTracks := tracksOrDefault project.studioTracks defaultStudioTracks }
    let pl := { appliedPlaylist disk baseDir (clampBpm project.transport.bpm) strips.tracks.length
        project.playlist with ppqn := s.transport.ppqn }
    if s.transport.playbackState = .playing then pl.ensureLoopRegion else pl

/-- The loop is switched on, and the region in the ruler is that of the file, to the sample; the file's
ticks survive their rounding to samples. -/
def LoopFits (disk : Disk) (baseDir : Option String) (s : ProjectState) (project : Project) : Prop :=
  let saved := project.transport
  let t := { s.transport with bpm := clampBpm saved.bpm }
  let ruler := s.rulerAfter disk baseDir project
  s.isLooping = true ∧ ruler.isLoopRegionValid = true ∧
    t.ticksToSamples ruler.loopStartTicks = t.ticksToSamples saved.loopStartTicks ∧
    t.ticksToSamples (PlaylistState.loopEnd ruler.loopStartTicks ruler.loopEndTicks t.ppqn) =
      t.ticksToSamples saved.loopEndTicks ∧
    t.SurvivesRounding saved.loopStartTicks ∧ t.SurvivesRounding saved.loopEndTicks

section

variable (disk : Disk) (baseDir : Option String)

theorem loopsInPlaylist_eq {s : ProjectState} (hlooping : s.isLooping = true) :
    s.loopsInPlaylist = (decide (s.transport.playbackState = .playing) && decide (s.mode ≠ .openLive)) := by
  rw [loopsInPlaylist, hlooping, Bool.and_true]

theorem nextRuler_apply (s : ProjectState) (project : Project) (hlooping : s.isLooping = true) :
    (s.apply disk baseDir project).1.nextRuler = s.rulerAfter disk baseDir project := by
  cases project with
  | openLive project =>
    have hmode : (s.apply disk baseDir (.openLive project)).1.mode = .openLive := rfl
    have hloops := loopsInPlaylist_eq (s := (s.apply disk baseDir (.openLive project)).1) hlooping
    simp only [hmode, ne_eq, not_true_eq_false, decide_false, Bool.and_false] at hloops
    exact if_neg (by rw [hloops]; exact Bool.false_ne_true)
  | openStudio project =>
    have hmode : (s.apply disk baseDir (.openStudio project)).1.mode = .openStudio := rfl
    have hplayback : (s.apply disk baseDir (.openStudio project)).1.transport.playbackState =
        s.transport.playbackState := rfl
    have hloops := loopsInPlaylist_eq (s := (s.apply disk baseDir (.openStudio project)).1) hlooping
    rw [hmode, hplayback, decide_eq_true (by decide : AppMode.openStudio ≠ .openLive),
      Bool.and_true] at hloops
    by_cases hplaying : s.transport.playbackState = .playing
    · rw [decide_eq_true hplaying] at hloops
      exact (if_pos hloops).trans (if_pos hplaying).symm
    · rw [decide_eq_false hplaying] at hloops
      exact (if_neg (by rw [hloops]; exact Bool.false_ne_true)).trans (if_neg hplaying).symm

/-- What applying a project makes of the data that decide about the loop. -/
theorem apply_spec (s : ProjectState) (project : Project) :
    let applied := (s.apply disk baseDir project).1
    applied.loopOf = (project.transport.loopEnabled,
        applied.transport.ticksToSamples project.transport.loopStartTicks,
        applied.transport.ticksToSamples project.transport.loopEndTicks) ∧
      applied.globalLoopSyncedToEngine = none ∧ applied.isLooping = s.isLooping ∧
      applied.transport.bpm = clampBpm project.transport.bpm ∧
      applied.transport.sampleRate = s.transport.sampleRate := by
  cases project with
  | openLive project => exact ⟨rfl, rfl, rfl, rfl, rfl⟩
  | openStudio project => exact ⟨rfl, rfl, rfl, rfl, rfl⟩

/-- In terms of the state applied to, the loop of the applied state and that of every later one. -/
theorem loopKept_iff {s applied : ProjectState} {saved : ProjectTransport}
    (hbpm : s.transport.bpm = applied.transport.bpm)
    (hrate : s.transport.sampleRate = applied.transport.sampleRate) (hpos : 0 < applied.transport.sampleRate) :
    s.LoopKept saved ↔
      s.loopOf = (saved.loopEnabled, applied.transport.ticksToSamples saved.loopStartTicks,
          applied.transport.ticksToSamples saved.loopEndTicks) ∧
        applied.transport.SurvivesRounding saved.loopStartTicks ∧
        applied.transport.SurvivesRounding saved.loopEndTicks := by
  unfold LoopKept
  rw [TransportPosition.ticksToSamples_congr hbpm hrate, TransportPosition.ticksToSamples_congr hbpm hrate]
  refine and_congr_right fun hloop => ?_
  obtain ⟨henabled, hstart, hend⟩ := Prod.ext_iff.mp hloop |>.imp id Prod.ext_iff.mp
  simp only [captureTransport]
  have hback (samples : ℕ) := TransportPosition.samplesToTicks_congr hbpm hrate samples
  simp only [loopOf] at henabled hstart hend
  rw [henabled, hstart, hend, hback, hback, TransportPosition.samplesToTicks_ticksToSamples_iff hpos,
    TransportPosition.samplesToTicks_ticksToSamples_iff hpos]
  exact ⟨fun h => h.2, fun h => ⟨rfl, h⟩⟩

/-- The loop of a project, once it is what the ruler asks for, stays over every frame. -/
theorem always_loopKept {saved : ProjectTransport} {applied : ProjectState}
    (hpos : 0 < applied.transport.sampleRate) (hloop : applied.loopOf = applied.nextWant)
    (hwant : applied.nextWant = (saved.loopEnabled,
      applied.transport.ticksToSamples saved.loopStartTicks,
      applied.transport.ticksToSamples saved.loopEndTicks))
    (hstart : applied.transport.SurvivesRounding saved.loopStartTicks)
    (hend : applied.transport.SurvivesRounding saved.loopEndTicks) (clocks : List ℕ) :
    Always frame (LoopKept saved) applied clocks := by
  have hsettled : Always frame
      (fun s => s.loopOf = applied.nextWant ∧ s.nextWant = applied.nextWant ∧
        s.transport.bpm = applied.transport.bpm ∧
        s.transport.sampleRate = applied.transport.sampleRate) applied clocks := by
    refine always_of_step ?_ ⟨hloop, rfl, rfl, rfl⟩
    rintro s clock ⟨hloop, hnext, hbpm, hrate⟩
    obtain ⟨hframe, _, hkeep, hframeBpm, hframeRate⟩ := s.frame_spec clock
    refine ⟨?_, hkeep.trans hnext, hframeBpm.trans hbpm, hframeRate.trans hrate⟩
    rw [hframe, hloop, hnext, ite_self]
  refine hsettled.mono ?_
  rintro s ⟨hloop, _, hbpm, hrate⟩
  rw [loopKept_iff hbpm hrate hpos]
  exact ⟨hloop.trans hwant, hstart, hend⟩

/-- The loop of a project outlives every run of idle frames if and only if it is the loop the ruler asks
for after the project is applied. -/
theorem always_loopKept_iff (s : ProjectState) (project : Project)
    (hpos : 0 < s.transport.sampleRate) (henabled : project.transport.loopEnabled = true) :
    (∀ clocks, Always frame (LoopKept project.transport) (s.apply disk baseDir project).1 clocks) ↔
      s.LoopFits disk baseDir project := by
  obtain ⟨hloop, hcache, hlooping, hbpm, hrate⟩ := apply_spec disk baseDir s project
  have hruler := nextRuler_apply disk baseDir s project
  generalize happlied : (s.apply disk baseDir project).1 = applied at *
  have hapos : 0 < applied.transport.sampleRate := by rwa [hrate]
  have hbpm' : applied.transport.bpm =
      { s.transport with bpm := clampBpm project.transport.bpm }.bpm := hbpm
  have hsamples (ticks : ℕ) := TransportPosition.ticksToSamples_congr hbpm' hrate ticks
  have hfits : s.LoopFits disk baseDir project ↔
      applied.nextWant = applied.loopOf ∧
        applied.transport.SurvivesRounding project.transport.loopStartTicks ∧
        applied.transport.SurvivesRounding project.transport.loopEndTicks := by
    have hsurvives (ticks : ℕ) := TransportPosition.survivesRounding_congr hbpm' hrate ticks
    rw [hloop, henabled, nextWant_eq_iff, hlooping]
    simp only [LoopFits, ← hsamples, ← hsurvives]
    constructor
    · rintro ⟨hon, hvalid, hstart, hend, hsurvive⟩
      rw [hruler hon]
      exact ⟨⟨hon, hvalid, hstart, hend⟩, hsurvive⟩
    · rintro ⟨⟨hon, hvalid, hstart, hend⟩, hsurvive⟩
      rw [hruler hon] at hvalid hstart hend
      exact ⟨hon, hvalid, hstart, hend, hsurvive⟩
  rw [hfits]
  constructor
  · intro halways
    have hfirst : (applied.frame 0).LoopKept project.transport := (halways [0]).2
    obtain ⟨hframe, _, _, hframeBpm, hframeRate⟩ := applied.frame_spec 0
    rw [hcache, if_neg (Option.some_ne_none _).symm] at hframe
    rw [loopKept_iff hframeBpm hframeRate hapos, hframe] at hfirst
    exact ⟨hfirst.1.trans hloop.symm, hfirst.2⟩
  · rintro ⟨hwant, hstart, hend⟩ clocks
    exact always_loopKept hapos hwant.symm (hwant.trans hloop) hstart hend clocks

end

/-- The application as it starts. -/
def initial : ProjectState :=
  { mode := .openLive
    transport := ⟨48000, 140, 0, .stopped, false, 0, 0⟩
    isLooping := false
    globalLoopSyncedToEngine := none
    bpmSyncedToEngine := -1
    liveTracks := (syncMatrixMixer [.new true] SessionMatrixState.default.tracks [] []).1
    studioTracks := defaultStudioTracks
    matrix := ⟨SessionMatrixState.default, none⟩
    playlistState := .default }

/-- A live project that loops over its first four quarter notes. -/
def fourQuarters : OpenLiveProject :=
  { transport := ⟨120, 0, 3840, true⟩
    liveTracks := []
    masterVolume := 7 / 10
    masterPan := 0
    matrix := OpenLiveFile.defaultMatrix }

/-- The application as it starts, with the global loop on and the ruler around the same quarters. -/
def initialRuler : ProjectState :=
  { initial with
    isLooping := true
    playlistState := { PlaylistState.default with loopEndTicks := 3840, loopRegionActive := true } }

theorem always_loopKept_iff_ruler :
    initialRuler.LoopFits (fun _ => none) none (.openLive fourQuarters) ∧
      ∀ clocks, Always frame (LoopKept fourQuarters.transport)
        (initialRuler.apply (fun _ => none) none (.openLive fourQuarters)).1 clocks := by
  have hfits : initialRuler.LoopFits (fun _ => none) none (.openLive fourQuarters) := by
    unfold LoopFits TransportPosition.SurvivesRounding
    decide +kernel
  exact ⟨hfits, (always_loopKept_iff (fun _ => none) none initialRuler (.openLive fourQuarters)
    (by decide +kernel) rfl).mpr hfits⟩

/-- Opened in the application as it starts, the project loses its loop with the first frame. -/
theorem not_always_loopKept_initial :
    ¬ ∀ clocks, Always frame (LoopKept fourQuarters.transport)
      (initial.apply (fun _ => none) none (.openLive fourQuarters)).1 clocks := by
  intro halways
  have hframe := (halways [0]).2.1
  revert hframe
  decide +kernel

end ProjectState

end HikaruOpenLive.Gui
