import Mathlib.Data.List.GetD
import Mathlib.Tactic.Ring
import HikaruOpenLive.Engine.ClipCuts

/-! # A mono clip and its stereo double

The stereo double of a mono clip has the clip's samples on both channels. What a mono clip reads in a
block, before any gain, is its `signal`; the double renders it at the left gain on the left and the
right gain on the right (`doubled_render`). The single-sample paths of the source scale the mono
sample by the left gain and reuse it on the right (`mono_render`), so that the two agree precisely
where the gains are equal or nothing is read but silence. The event path has no such slip.
-/
set_option autoImplicit false

namespace HikaruOpenLive.Engine

open Transport Foundations.BlockSplit

/-! ## Doubling -/

def doubleSamples (xs : List ℚ) : List ℚ :=
  xs.flatMap fun x => [x, x]

theorem doubleSamples_length (xs : List ℚ) : (doubleSamples xs).length = xs.length * 2 := by
  induction xs with
  | nil => rfl
  | cons x xs ih =>
    have : doubleSamples (x :: xs) = x :: x :: doubleSamples xs := rfl
    rw [this]
    simp only [List.length_cons, ih]
    omega

theorem doubleSamples_getD (d : ℚ) (xs : List ℚ) (i : ℕ) :
    (doubleSamples xs).getD (i * 2) d = xs.getD i d ∧
      (doubleSamples xs).getD (i * 2 + 1) d = xs.getD i d := by
  induction xs generalizing i with
  | nil => exact ⟨rfl, rfl⟩
  | cons x xs ih =>
    cases i with
    | zero => exact ⟨rfl, rfl⟩
    | succ i =>
      have hcons : doubleSamples (x :: xs) = x :: x :: doubleSamples xs := rfl
      have hidx : (i + 1) * 2 = i * 2 + 1 + 1 := by omega
      rw [hcons, hidx]
      exact ih i

def EngineAudioEvent.doubled (e : EngineAudioEvent) : EngineAudioEvent :=
  { e with samples := doubleSamples e.samples, channels := 2 }

namespace EngineAudioEvent

theorem frames_doubled {e : EngineAudioEvent} (h : e.channels ≤ 1) :
    e.doubled.frames = e.frames := by
  have hch : max e.channels 1 = 1 := by omega
  have htwo : max 2 1 = 2 := rfl
  unfold frames doubled
  simp only [doubleSamples_length, hch, htwo]
  omega

theorem stop_doubled {e : EngineAudioEvent} (h : e.channels ≤ 1) : e.doubled.stop = e.stop := by
  unfold stop
  rw [frames_doubled h]
  rfl

theorem readAt_doubled {e : EngineAudioEvent} (h : e.channels ≤ 1) (clipFrame : ℕ) :
    e.doubled.readAt clipFrame = e.readAt clipFrame := by
  have hch : max e.channels 1 = 1 := by omega
  have hgain : e.doubled.gainAt clipFrame = e.gainAt clipFrame := by
    unfold gainAt
    rw [stop_doubled h, frames_doubled h]
    rfl
  have hstart : e.doubled.clipStart = e.clipStart := rfl
  unfold readAt
  rw [hgain, stop_doubled h, hstart]
  by_cases hr : clipFrame < e.clipStart ∨ e.stop ≤ clipFrame
  · rw [if_pos hr, if_pos hr]
  · rw [if_neg hr, if_neg hr]
    have hs : e.stop = e.clipStart + e.frames := rfl
    have hf : e.frames = e.samples.length := by simp [frames, hch]
    have hlt : clipFrame - e.clipStart < e.samples.length := by omega
    have hdefault : e.samples.getD (clipFrame - e.clipStart) (e.samples.getD
        (clipFrame - e.clipStart) 0) = e.samples.getD (clipFrame - e.clipStart) 0 := by
      rw [List.getD_eq_getElem _ _ hlt, List.getD_eq_getElem _ _ hlt]
    have hd := doubleSamples_getD 0 e.samples (clipFrame - e.clipStart)
    have hd' := doubleSamples_getD (e.samples.getD (clipFrame - e.clipStart) 0) e.samples
      (clipFrame - e.clipStart)
    simp only [doubled, hch, Nat.mul_one, Nat.lt_irrefl, if_false]
    simp only [show max 2 1 = 2 from rfl, show 1 < 2 by omega, if_true, hd.1, hd'.2, hdefault]

end EngineAudioEvent

/-- A clip whose samples and events all have one channel. -/
structure MonoClip where
  clip : AudioClip
  mono : clip.channels ≤ 1
  monoEvents : ∀ e ∈ clip.events, e.channels ≤ 1

namespace MonoClip

/-- The stereo clip both of whose channels are the mono clip. -/
def doubled (m : MonoClip) : AudioClip :=
  { m.clip with
    samples := doubleSamples m.clip.samples
    channels := 2
    sampleOffset := m.clip.sampleOffset * 2
    events := m.clip.events.map EngineAudioEvent.doubled }

theorem channel (m : MonoClip) : max m.clip.channels 1 = 1 := by
  have := m.mono
  omega

theorem naturalFrames_doubled (m : MonoClip) : m.doubled.naturalFrames = m.clip.naturalFrames := by
  unfold AudioClip.naturalFrames
  have hstops : (m.clip.events.map EngineAudioEvent.doubled).map EngineAudioEvent.stop =
      m.clip.events.map EngineAudioEvent.stop := by
    rw [List.map_map]
    apply List.map_congr_left
    intro e he
    exact EngineAudioEvent.stop_doubled (m.monoEvents e he)
  simp only [doubled, doubleSamples_length, List.isEmpty_map, hstops, m.channel]
  split
  · simp
  · rfl

theorem hasValidClipLoop_doubled (m : MonoClip) :
    m.doubled.hasValidClipLoop = m.clip.hasValidClipLoop := by
  unfold AudioClip.hasValidClipLoop
  rw [m.naturalFrames_doubled]
  rfl

theorem emissionLenFrames_doubled (m : MonoClip) :
    m.doubled.emissionLenFrames = m.clip.emissionLenFrames := by
  unfold AudioClip.emissionLenFrames
  rw [m.naturalFrames_doubled]
  rfl

theorem quantizedLoopLen_doubled (m : MonoClip) (t : TransportPosition) :
    m.doubled.quantizedLoopLen t = m.clip.quantizedLoopLen t := by
  have hraw : m.doubled.rawLoopLen = m.clip.rawLoopLen := by
    unfold AudioClip.rawLoopLen
    rw [m.naturalFrames_doubled]
    rfl
  unfold AudioClip.quantizedLoopLen
  rw [hraw]

theorem singleSampleFrame_doubled (m : MonoClip) (elapsed : ℕ) (t : TransportPosition) :
    m.doubled.singleSampleFrame elapsed t = m.clip.singleSampleFrame elapsed t := by
  unfold AudioClip.singleSampleFrame
  rw [m.hasValidClipLoop_doubled, m.emissionLenFrames_doubled, m.naturalFrames_doubled,
    m.quantizedLoopLen_doubled]
  rfl

theorem clipFrameForElapsed_doubled (m : MonoClip) (elapsed : ℕ) (t : TransportPosition) :
    m.doubled.clipFrameForElapsed elapsed t = m.clip.clipFrameForElapsed elapsed t := by
  unfold AudioClip.clipFrameForElapsed
  rw [m.hasValidClipLoop_doubled, m.emissionLenFrames_doubled, m.naturalFrames_doubled,
    m.quantizedLoopLen_doubled]
  rfl

theorem startXfade_doubled (m : MonoClip) (fade : LoopFade) (relativeFrame : ℕ) :
    m.doubled.startXfade fade relativeFrame = m.clip.startXfade fade relativeFrame := by
  unfold AudioClip.startXfade
  rw [m.hasValidClipLoop_doubled, m.emissionLenFrames_doubled]

theorem samples_doubled_length (m : MonoClip) :
    m.doubled.samples.length = m.clip.samples.length * 2 :=
  doubleSamples_length _

/-- The mono paths send the left gain to both sides. -/
theorem fetchPanned_mono (m : MonoClip) (gl gr : ℚ) (i : ℕ) :
    m.clip.fetchPanned gl gr i = (m.clip.samples.getD i 0 * gl, m.clip.samples.getD i 0 * gl) := by
  unfold AudioClip.fetchPanned
  simp only [m.channel, Nat.mul_one, Nat.lt_irrefl, if_false]
  split
  · rfl
  · rw [List.getD_eq_default _ _ (by omega)]
    simp

theorem fetchPanned_doubled (m : MonoClip) (gl gr : ℚ) (i : ℕ) :
    m.doubled.fetchPanned gl gr i =
      (m.clip.samples.getD i 0 * gl, m.clip.samples.getD i 0 * gr) := by
  obtain ⟨hl, hr⟩ := doubleSamples_getD 0 m.clip.samples i
  have hch : max m.doubled.channels 1 = 2 := rfl
  have hsamples : m.doubled.samples = doubleSamples m.clip.samples := rfl
  unfold AudioClip.fetchPanned
  simp only [hch, hsamples, hl, hr, doubleSamples_length, show 1 < 2 by omega, if_true]
  split
  · rfl
  · rw [List.getD_eq_default _ _ (by omega)]
    simp

/-! ## The signal -/

def studioSignal (m : MonoClip) (t : TransportPosition) (pos : ℕ) : ℚ :=
  let c := m.clip
  let globalFrame := t.wrapSampleCount pos
  if globalFrame < c.startFrame ∨ c.startFrame + c.durationFrames ≤ globalFrame then 0
  else c.samples.getD (c.sampleOffset + (globalFrame - c.startFrame)) 0

def singleSignal (m : MonoClip) (fade : LoopFade) (relativeFrame : ℕ) : ℚ :=
  let c := m.clip
  let started := c.startXfade fade relativeFrame
  let new := c.samples.getD relativeFrame 0
  if 0 < started.xfadeRemaining ∧ relativeFrame < c.samples.length then
    let outGain : ℚ := ((started.xfadeLen - started.xfadeRemaining : ℕ) : ℚ) / started.xfadeLen
    c.samples.getD started.prevFrame 0 * (1 - outGain) + new * outGain
  else new

def studioSignalStep (m : MonoClip) (t : TransportPosition) (pos : ℕ) : Option (ℚ × ℕ) :=
  some (m.studioSignal t pos, pos + 1)

def singleSignalStep (m : MonoClip) (t : TransportPosition) (s : ℕ × LoopFade) :
    Option (ℚ × (ℕ × LoopFade)) :=
  (m.clip.singleSampleFrame s.1 t).map fun relativeFrame =>
    (m.singleSignal s.2 relativeFrame, (s.1 + 1, (m.clip.singleFrame 1 1 s.2 relativeFrame).2))

/-- What a mono clip without events reads in a block, before any gain. -/
def signal (m : MonoClip) (mode : EngineMode) (t : TransportPosition) (absStart n : ℕ) : List ℚ :=
  let c := m.clip
  match mode with
  | .openStudio => (emit (m.studioSignalStep t) 0 n t.sampleCount).1
  | .openLive =>
    if c.isPlaying = true ∧ c.startAbsolute ≤ absStart then
      (emit (m.singleSignalStep t) 0 n (absStart - c.startAbsolute, c.fade)).1
    else List.replicate n 0

theorem signal_length (m : MonoClip) (mode : EngineMode) (t : TransportPosition) (abs n : ℕ) :
    (m.signal mode t abs n).length = n := by
  cases mode with
  | openStudio => exact emit_length _ _ n _
  | openLive =>
    simp only [signal]
    split
    · exact emit_length _ _ n _
    · exact List.length_replicate

/-! ## OpenStudio -/

theorem studioFrame_mono (m : MonoClip) (t : TransportPosition) (gl gr : ℚ) (pos : ℕ) :
    m.clip.studioFrame t gl gr pos = (m.studioSignal t pos * gl, m.studioSignal t pos * gl) := by
  unfold AudioClip.studioFrame studioSignal
  simp only [m.channel, Nat.div_one, m.fetchPanned_mono]
  split
  · simp
  · rfl

theorem studioFrame_doubled (m : MonoClip) (t : TransportPosition) (gl gr : ℚ) (pos : ℕ) :
    m.doubled.studioFrame t gl gr pos = (m.studioSignal t pos * gl, m.studioSignal t pos * gr) := by
  have hch : max m.doubled.channels 1 = 2 := rfl
  have hstart : m.doubled.startFrame = m.clip.startFrame := rfl
  have hduration : m.doubled.durationFrames = m.clip.durationFrames := rfl
  have hoff : m.doubled.sampleOffset / 2 = m.clip.sampleOffset :=
    Nat.mul_div_cancel _ (by omega)
  unfold AudioClip.studioFrame studioSignal
  simp only [hch, hstart, hduration, hoff, m.fetchPanned_doubled]
  split
  · simp
  · rfl

/-! ## OpenLive -/

/-- A single-sample frame is the signal at the left gain, twice; its crossfade does not depend on the
gains. -/
theorem singleFrame_mono (m : MonoClip) (gl gr : ℚ) (fade : LoopFade) (i : ℕ) :
    m.clip.singleFrame gl gr fade i =
      ((m.singleSignal fade i * gl, m.singleSignal fade i * gl),
        (m.clip.singleFrame 1 1 fade i).2) := by
  unfold AudioClip.singleFrame singleSignal
  simp only [m.channel, Nat.mul_one, m.fetchPanned_mono, Nat.succ_le_iff]
  by_cases hfade : 0 < (m.clip.startXfade fade i).xfadeRemaining ∧ i < m.clip.samples.length
  · simp only [if_pos hfade]
    refine Prod.ext (Prod.ext ?_ ?_) rfl
    · simp only
      ring
    · simp only
      ring
  · simp only [if_neg hfade]

theorem singleFrame_doubled (m : MonoClip) (gl gr : ℚ) (fade : LoopFade) (i : ℕ) :
    m.doubled.singleFrame gl gr fade i =
      ((m.singleSignal fade i * gl, m.singleSignal fade i * gr),
        (m.clip.singleFrame 1 1 fade i).2) := by
  have hch : max m.doubled.channels 1 = 2 := rfl
  have hlen := m.samples_doubled_length
  have hfits : i * 2 + 2 ≤ m.clip.samples.length * 2 ↔ i < m.clip.samples.length := by omega
  unfold AudioClip.singleFrame singleSignal
  simp only [hch, hlen, m.channel, Nat.mul_one, m.fetchPanned_mono, m.fetchPanned_doubled,
    m.startXfade_doubled, Nat.succ_le_iff, hfits]
  by_cases hfade : 0 < (m.clip.startXfade fade i).xfadeRemaining ∧ i < m.clip.samples.length
  · simp only [if_pos hfade]
    refine Prod.ext (Prod.ext ?_ ?_) rfl
    · simp only
      ring
    · simp only
      ring
  · simp only [if_neg hfade]

theorem mono_live (m : MonoClip) (hev : m.clip.events = []) (t : TransportPosition) (gl gr : ℚ)
    (n : ℕ) (s : ℕ × LoopFade) :
    emit (m.clip.liveStep t gl gr) (0, 0) n s =
      ((emit (m.singleSignalStep t) 0 n s).1.map fun v => (v * gl, v * gl),
        (emit (m.singleSignalStep t) 0 n s).2) := by
  have hpad : ((0, 0) : Frame) = (0 * gl, 0 * gl) := by simp
  have hstep : m.clip.liveStep t gl gr = m.clip.singleStep t gl gr := by
    simp [AudioClip.liveStep, hev]
  rw [hpad, hstep]
  apply emit_map (m.singleSignalStep t) 0 _ (fun v => (v * gl, v * gl))
  intro s
  unfold AudioClip.singleStep singleSignalStep
  rw [Option.map_map]
  congr 1
  funext i
  simp only [Function.comp, m.singleFrame_mono gl gr]

theorem doubled_live (m : MonoClip) (hev : m.clip.events = []) (t : TransportPosition) (gl gr : ℚ)
    (n : ℕ) (s : ℕ × LoopFade) :
    emit (m.doubled.liveStep t gl gr) (0, 0) n s =
      ((emit (m.singleSignalStep t) 0 n s).1.map fun v => (v * gl, v * gr),
        (emit (m.singleSignalStep t) 0 n s).2) := by
  have hpad : ((0, 0) : Frame) = (0 * gl, 0 * gr) := by simp
  have hstep : m.doubled.liveStep t gl gr = m.doubled.singleStep t gl gr := by
    simp [AudioClip.liveStep, doubled, hev]
  rw [hpad, hstep]
  apply emit_map (m.singleSignalStep t) 0 _ (fun v => (v * gl, v * gr))
  intro s
  unfold AudioClip.singleStep singleSignalStep
  rw [Option.map_map, m.singleSampleFrame_doubled]
  congr 1
  funext i
  simp only [Function.comp, m.singleFrame_doubled gl gr]

theorem foldl_readAt_doubled (f : ℕ) {es : List EngineAudioEvent} (h : ∀ e ∈ es, e.channels ≤ 1)
    (acc : Frame) :
    (es.map EngineAudioEvent.doubled).foldl (fun acc e => acc + e.readAt f) acc =
      es.foldl (fun acc e => acc + e.readAt f) acc := by
  induction es generalizing acc with
  | nil => rfl
  | cons e es ih =>
    rw [List.map_cons, List.foldl_cons, List.foldl_cons,
      EngineAudioEvent.readAt_doubled (h e List.mem_cons_self)]
    exact ih (fun d hd => h d (List.mem_cons_of_mem e hd)) _

theorem mixEventsAt_doubled (m : MonoClip) (f : ℕ) :
    m.doubled.mixEventsAt f = m.clip.mixEventsAt f :=
  foldl_readAt_doubled f m.monoEvents (0, 0)

theorem liveStep_events (m : MonoClip) (hev : m.clip.events ≠ []) (t : TransportPosition)
    (gl gr : ℚ) : m.doubled.liveStep t gl gr = m.clip.liveStep t gl gr := by
  have hevents : m.doubled.events.isEmpty = m.clip.events.isEmpty := List.isEmpty_map
  have hne : m.clip.events.isEmpty = false := by simpa using hev
  unfold AudioClip.liveStep
  rw [hevents, hne]
  simp only [Bool.not_false, if_true]
  funext s
  unfold AudioClip.eventStep
  rw [m.clipFrameForElapsed_doubled]
  simp only [m.mixEventsAt_doubled]

/-! ## Blocks -/

theorem map_silence (n : ℕ) (gl gr : ℚ) :
    (List.replicate n (0 : ℚ)).map (fun v => (v * gl, v * gr)) = silence n := by
  simp [silence]

theorem renderLive_future {c : AudioClip} {abs : ℕ} (h : abs < c.startAbsolute)
    (t : TransportPosition) (gl gr : ℚ) (n : ℕ) : c.renderLive t abs gl gr n = (silence n, c) := by
  simp [AudioClip.renderLive, h]

theorem renderLive_mono (m : MonoClip) (hev : m.clip.events = []) (t : TransportPosition) (abs : ℕ)
    (gl gr : ℚ) {n : ℕ} (hn : 0 < n) :
    (m.clip.renderLive t abs gl gr n).1 =
      (m.signal .openLive t abs n).map fun v => (v * gl, v * gl) := by
  unfold signal
  by_cases hplay : m.clip.isPlaying = true
  · by_cases hstart : m.clip.startAbsolute ≤ abs
    · rw [AudioClip.renderLive_eq hplay hstart t gl gr hn]
      simp only [hplay, hstart, and_self, if_true, m.mono_live hev]
    · rw [renderLive_future (by omega)]
      simp only [hstart, and_false, if_false, map_silence]
  · rw [AudioClip.renderLive_idle (by simpa using hplay)]
    have hidle : ¬ (m.clip.isPlaying = true ∧ m.clip.startAbsolute ≤ abs) := fun h => hplay h.1
    simp only [if_neg hidle, map_silence]

theorem renderLive_doubled (m : MonoClip) (hev : m.clip.events = []) (t : TransportPosition)
    (abs : ℕ) (gl gr : ℚ) {n : ℕ} (hn : 0 < n) :
    (m.doubled.renderLive t abs gl gr n).1 =
      (m.signal .openLive t abs n).map fun v => (v * gl, v * gr) := by
  have hp : m.doubled.isPlaying = m.clip.isPlaying := rfl
  have hs : m.doubled.startAbsolute = m.clip.startAbsolute := rfl
  have hf : m.doubled.fade = m.clip.fade := rfl
  unfold signal
  by_cases hplay : m.clip.isPlaying = true
  · by_cases hstart : m.clip.startAbsolute ≤ abs
    · rw [AudioClip.renderLive_eq (hp.trans hplay) (hs ▸ hstart) t gl gr hn]
      simp only [hplay, hstart, and_self, if_true, hs, hf, m.doubled_live hev]
    · rw [renderLive_future (by omega)]
      simp only [hstart, and_false, if_false, map_silence]
  · rw [AudioClip.renderLive_idle (by simpa [hp] using hplay)]
    have hidle : ¬ (m.clip.isPlaying = true ∧ m.clip.startAbsolute ≤ abs) := fun h => hplay h.1
    simp only [if_neg hidle, map_silence]

theorem renderLive_events (m : MonoClip) (hev : m.clip.events ≠ []) (t : TransportPosition)
    (abs : ℕ) (gl gr : ℚ) (n : ℕ) :
    (m.doubled.renderLive t abs gl gr n).1 = (m.clip.renderLive t abs gl gr n).1 := by
  have hp : m.doubled.isPlaying = m.clip.isPlaying := rfl
  have hs : m.doubled.startAbsolute = m.clip.startAbsolute := rfl
  have hf : m.doubled.fade = m.clip.fade := rfl
  unfold AudioClip.renderLive
  simp only [hp, hs, hf, m.hasValidClipLoop_doubled, m.emissionLenFrames_doubled,
    m.naturalFrames_doubled, m.liveStep_events hev]
  split_ifs
  · rfl
  · rfl
  · rfl
  · rfl
  · rfl

theorem studio_mono (m : MonoClip) (t : TransportPosition) (gl gr : ℚ) (n pos : ℕ) :
    (emit (m.clip.studioStep t gl gr) (0, 0) n pos).1 =
      (emit (m.studioSignalStep t) 0 n pos).1.map fun v => (v * gl, v * gl) := by
  have hpad : ((0, 0) : Frame) = (0 * gl, 0 * gl) := by simp
  rw [hpad, emit_map (m.studioSignalStep t) 0 (m.clip.studioStep t gl gr) fun v => (v * gl, v * gl)]
  intro pos
  simp [AudioClip.studioStep, studioSignalStep, m.studioFrame_mono]

theorem studio_doubled (m : MonoClip) (t : TransportPosition) (gl gr : ℚ) (n pos : ℕ) :
    (emit (m.doubled.studioStep t gl gr) (0, 0) n pos).1 =
      (emit (m.studioSignalStep t) 0 n pos).1.map fun v => (v * gl, v * gr) := by
  have hpad : ((0, 0) : Frame) = (0 * gl, 0 * gr) := by simp
  rw [hpad, emit_map (m.studioSignalStep t) 0 (m.doubled.studioStep t gl gr)
    fun v => (v * gl, v * gr)]
  intro pos
  simp [AudioClip.studioStep, studioSignalStep, m.studioFrame_doubled]

theorem mono_render (m : MonoClip) {mode : EngineMode} (hpath : mode = .openLive → m.clip.events = [])
    (t : TransportPosition) (abs : ℕ) {gl gr : ℚ} (hg : ¬ (gl = 0 ∧ gr = 0)) {n : ℕ} (hn : 0 < n) :
    (m.clip.render mode t abs gl gr n).1 =
      (m.signal mode t abs n).map fun v => (v * gl, v * gl) := by
  unfold AudioClip.render
  rw [if_neg hg]
  cases mode with
  | openStudio => exact m.studio_mono t gl gr n _
  | openLive => exact m.renderLive_mono (hpath rfl) t abs gl gr hn

theorem doubled_render (m : MonoClip) {mode : EngineMode}
    (hpath : mode = .openLive → m.clip.events = []) (t : TransportPosition) (abs : ℕ) {gl gr : ℚ}
    (hg : ¬ (gl = 0 ∧ gr = 0)) {n : ℕ} (hn : 0 < n) :
    (m.doubled.render mode t abs gl gr n).1 =
      (m.signal mode t abs n).map fun v => (v * gl, v * gr) := by
  unfold AudioClip.render
  rw [if_neg hg]
  cases mode with
  | openStudio => exact m.studio_doubled t gl gr n _
  | openLive => exact m.renderLive_doubled (hpath rfl) t abs gl gr hn

/-- A mono clip renders a block as its stereo double does precisely when the two gains are equal, or
the clip plays events, or it reads nothing but silence. -/
theorem mono_eq_doubled_iff (m : MonoClip) (mode : EngineMode) (t : TransportPosition) (abs : ℕ)
    (gl gr : ℚ) (n : ℕ) :
    (m.clip.render mode t abs gl gr n).1 = (m.doubled.render mode t abs gl gr n).1 ↔
      gl = gr ∨ (mode = .openLive ∧ m.clip.events ≠ []) ∨ ∀ v ∈ m.signal mode t abs n, v = 0 := by
  obtain rfl | hn := Nat.eq_zero_or_pos n
  · -- An empty block is the empty list for both.
    have hl := m.clip.render_length mode t abs gl gr 0
    have hr := m.doubled.render_length mode t abs gl gr 0
    have hs := m.signal_length mode t abs 0
    rw [List.eq_nil_of_length_eq_zero hl, List.eq_nil_of_length_eq_zero hr,
      List.eq_nil_of_length_eq_zero hs]
    simp
  · by_cases hg : gl = 0 ∧ gr = 0
    · simp [AudioClip.render, hg]
    · by_cases hev : mode = .openLive ∧ m.clip.events ≠ []
      · obtain ⟨rfl, hne⟩ := hev
        have hsame := m.renderLive_events hne t abs gl gr n
        simp only [AudioClip.render, if_neg hg, hsame, hne, ne_eq, not_false_eq_true, and_self,
          true_or, or_true]
      · have hpath : mode = .openLive → m.clip.events = [] := by
          intro hmode
          by_contra hne
          exact hev ⟨hmode, hne⟩
        rw [m.mono_render hpath t abs hg hn, m.doubled_render hpath t abs hg hn, List.map_inj_left]
        constructor
        · intro h
          by_cases hgain : gl = gr
          · exact Or.inl hgain
          · refine Or.inr (Or.inr ?_)
            intro v hv
            have hside : v * gl = v * gr := congrArg Prod.snd (h v hv)
            obtain heq | hz := mul_eq_mul_left_iff.mp hside
            · exact absurd heq hgain
            · exact hz
        · rintro (rfl | hpaths | hsilent) v hv
          · rfl
          · exact absurd hpaths hev
          · simp [hsilent v hv]

def monoPad : MonoClip :=
  ⟨{ id := 1, trackIndex := 0, sceneIndex := 0, samples := [1], startFrame := 0,
     startAbsolute := 0, durationFrames := 1, sampleOffset := 0, channels := 1, isPlaying := true,
     clipLoopEnabled := false, clipLoopStart := 0, clipLoopEnd := 0, isMatrixClip := false,
     fade := .fresh, events := [] }, by decide, by decide⟩

/-- With the pan to the left of the centre, the mono pad is as loud on the right as on the left, in
both modes. -/
theorem pan_skips_mono :
    ¬ ∀ (m : MonoClip) (t : TransportPosition) (gl gr : ℚ) (n : ℕ),
      (m.clip.render .openLive t 0 gl gr n).1 = (m.doubled.render .openLive t 0 gl gr n).1 ∧
        (m.clip.render .openStudio t 0 gl gr n).1 = (m.doubled.render .openStudio t 0 gl gr n).1 := by
  intro h
  have hpad := h monoPad ⟨44100, 120, 0, .playing, false, 0, 0⟩ 1 (1 / 2) 1
  exact absurd hpad.2 (by decide +kernel)

end MonoClip

end HikaruOpenLive.Engine
