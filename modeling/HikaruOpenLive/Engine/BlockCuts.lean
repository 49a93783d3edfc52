import HikaruOpenLive.Engine.ClipCuts
import HikaruOpenLive.Engine.Process

/-! # However the stream is cut into blocks

The engine without external plugins produces the same stream and ends in the same state however its
frames are cut into blocks, as long as no playing clip starts in the future and up to how far past
its end the preview's cursor stands. Every part of the callback has its own law for a block cut in
two (`render_split`, `process_split`); here they are mixed together, and
`process_blocks_eq_single` follows from the general rule for runs of blocks.
-/
set_option autoImplicit false

namespace HikaruOpenLive.Engine

open Transport Foundations.BlockSplit

/-! ## The mixed parts -/

theorem renderVoice_split (mx : Mixer) (sr : ℚ) (m : ℕ) {n : ℕ} (hn : 0 < n) (v : DmsVoice) :
    renderVoice mx sr (m + n) v =
      ((renderVoice mx sr m v).1 ++ (renderVoice mx sr n (renderVoice mx sr m v).2).1,
        (renderVoice mx sr n (renderVoice mx sr m v).2).2) := by
  have hslot : (renderVoice mx sr m v).2.trackSlot = v.trackSlot := v.render_trackSlot _ _ _ _
  unfold renderVoice at hslot ⊢
  rw [hslot]
  exact v.render_split _ _ _ m hn

theorem voicesBlock_length (mx : Mixer) (sr : ℚ) (n : ℕ) (voices : List DmsVoice) :
    (voicesBlock mx sr n voices).length = n := by
  apply mixAll_length
  intro b hb
  obtain ⟨v, _, rfl⟩ := List.mem_map.mp hb
  exact v.render_length _ _ _ _

theorem voicesBlock_split (mx : Mixer) (sr : ℚ) (m : ℕ) {n : ℕ} (hn : 0 < n)
    (voices : List DmsVoice) :
    voicesBlock mx sr (m + n) voices =
      voicesBlock mx sr m voices ++
        voicesBlock mx sr n (voices.map fun v => (renderVoice mx sr m v).2) := by
  unfold voicesBlock
  rw [List.map_map]
  simp only [renderVoice_split mx sr m hn]
  exact mixAll_append (0, 0) n _ _ (fun v _ => v.render_length _ _ _ _)

theorem renderClip_trackSlot (mx : Mixer) (mode : EngineMode) (t : TransportPosition) (abs n : ℕ)
    (c : AudioClip) : (renderClip mx mode t abs n c).2.trackSlot = c.trackSlot := by
  obtain ⟨fade, playing, h, _⟩ := c.render_fields mode t abs (mx.trackGain c.trackSlot).1
    (mx.trackGain c.trackSlot).2 n
  unfold renderClip
  rw [h]
  rfl

theorem renderClip_split (mx : Mixer) (mode : EngineMode) (t : TransportPosition) {abs m n : ℕ}
    (hm : 0 < m) (hn : 0 < n) {c : AudioClip}
    (hstart : c.isPlaying = true → c.startAbsolute ≤ abs) :
    renderClip mx mode t abs (m + n) c =
      ((renderClip mx mode t abs m c).1 ++
          (renderClip mx mode (t.afterBlock m) (abs + m) n (renderClip mx mode t abs m c).2).1,
        (renderClip mx mode (t.afterBlock m) (abs + m) n (renderClip mx mode t abs m c).2).2) := by
  have hslot := renderClip_trackSlot mx mode t abs m c
  unfold renderClip at hslot ⊢
  rw [hslot]
  exact c.render_split mode t hstart _ _ hm hn

theorem trackBlock_length (mx : Mixer) (mode : EngineMode) (t : TransportPosition) (abs n : ℕ)
    (clips : List AudioClip) (track : Fin 16) :
    (trackBlock mx mode t abs n clips track).length = n := by
  apply mixAll_length
  intro b hb
  obtain ⟨c, _, rfl⟩ := List.mem_map.mp hb
  exact c.render_length _ _ _ _ _ _

theorem trackBlock_split (mx : Mixer) (mode : EngineMode) (t : TransportPosition) {abs m n : ℕ}
    (hm : 0 < m) (hn : 0 < n) {clips : List AudioClip}
    (hstart : ∀ c ∈ clips, c.isPlaying = true → c.startAbsolute ≤ abs) (track : Fin 16) :
    trackBlock mx mode t abs (m + n) clips track =
      trackBlock mx mode t abs m clips track ++
        trackBlock mx mode (t.afterBlock m) (abs + m) n
          (clips.map fun c => (renderClip mx mode t abs m c).2) track := by
  have hfilter : (clips.map fun c => (renderClip mx mode t abs m c).2).filter
        (fun c => decide (c.trackSlot = track)) =
      (clips.filter fun c => decide (c.trackSlot = track)).map fun c =>
        (renderClip mx mode t abs m c).2 := by
    rw [List.filter_map]
    congr 1
    apply List.filter_congr
    intro c _
    simp only [Function.comp, renderClip_trackSlot]
  have hcut : ((clips.filter fun c => decide (c.trackSlot = track)).map fun c =>
        (renderClip mx mode t abs (m + n) c).1) =
      (clips.filter fun c => decide (c.trackSlot = track)).map fun c =>
        (renderClip mx mode t abs m c).1 ++
          (renderClip mx mode (t.afterBlock m) (abs + m) n (renderClip mx mode t abs m c).2).1 := by
    apply List.map_congr_left
    intro c hc
    rw [renderClip_split mx mode t hm hn (hstart c (List.mem_filter.mp hc).1)]
  unfold trackBlock
  rw [hfilter, hcut, List.map_map]
  exact mixAll_append (0, 0) n _ _ (fun c _ => c.render_length _ _ _ _ _ _)

namespace AudioEngine

variable {ν β : Type} (host : PluginHost ν) (stage : OutputStage β)

theorem ungatedBlock_length (e : AudioEngine ν) (n : ℕ) : (e.ungatedBlock n).length = n :=
  mix_length (mix_length List.length_replicate (e.preview.process_length n))
    (voicesBlock_length _ _ _ _)

theorem ungatedBlock_split (e : AudioEngine ν) (m : ℕ) {n : ℕ} (hn : 0 < n) :
    e.ungatedBlock (m + n) = e.ungatedBlock m ++ (e.afterUngated m).ungatedBlock n := by
  have hpreview : (mix (silence m) (e.preview.process m).1).length = m :=
    mix_length List.length_replicate (e.preview.process_length m)
  unfold ungatedBlock afterUngated
  rw [voicesBlock_split _ _ m hn, ← (e.preview.process_split m hn).1, AudioClip.silence_add,
    mix_append (by rw [silence, List.length_replicate, e.preview.process_length]), mix_append]
  rw [hpreview, voicesBlock_length]

theorem voices_split (e : AudioEngine ν) (m : ℕ) {n : ℕ} (hn : 0 < n) :
    ((e.afterUngated m).afterUngated n).voices = (e.afterUngated (m + n)).voices := by
  unfold afterUngated
  simp only [List.map_map, renderVoice_split _ _ m hn]
  rfl

theorem preview_split (e : AudioEngine ν) (m : ℕ) {n : ℕ} (hn : 0 < n) :
    ((e.afterUngated m).afterUngated n).preview.settled =
      (e.afterUngated (m + n)).preview.settled :=
  (e.preview.process_split m hn).2

/-! ## Whole blocks -/

/-- What a cut into blocks needs of the engine: no plugin chains, and no clip ahead of its start. -/
structure Cuttable (e : AudioEngine ν) : Prop where
  noEffects : ∀ t, e.trackEffects t = []
  started : e.Started

def dryBlock (e : AudioEngine ν) (n : ℕ) : List Frame :=
  ((List.finRange 16).map fun t =>
    trackBlock e.mixer e.mode e.transport e.absoluteFrame n e.clips t).foldl mix (e.ungatedBlock n)

def afterDry (e : AudioEngine ν) (n : ℕ) : AudioEngine ν :=
  { e.afterUngated n with
    clips := e.clips.map fun c => (renderClip e.mixer e.mode e.transport e.absoluteFrame n c).2
    trackEffects := fun _ => []
    transport := e.transport.afterBlock n
    absoluteFrame := e.absoluteFrame + n }

theorem process_dry {e : AudioEngine ν} (h : e.Cuttable)
    (hplay : e.transport.playbackState = .playing) {n : ℕ} (hn : 0 < n) :
    process host stage e n = (stage.block e.mixer.masterGain (e.dryBlock n), e.afterDry n) := by
  have htrack : ∀ t, e.trackOut host n t =
      (trackBlock e.mixer e.mode e.transport e.absoluteFrame n e.clips t, []) := by
    intro t
    unfold trackOut
    rw [h.noEffects t]
    rfl
  unfold process
  rw [if_pos hplay, if_neg (by omega)]
  simp only [htrack]
  rfl

theorem process_stopped {e : AudioEngine ν} (hstop : e.transport.playbackState ≠ .playing) (n : ℕ) :
    process host stage e n = (stage.block e.mixer.masterGain (e.ungatedBlock n), e.afterUngated n) :=
  if_neg hstop

/-- The clips after a block are the clips before it, with their playing flags only ever cleared and
their crossfades moved, under a clock that has not gone back. -/
theorem process_clips (e : AudioEngine ν) (n : ℕ) :
    ∃ f : AudioClip → AudioClip, (process host stage e n).2.clips = e.clips.map f ∧
      (∀ c, ∃ fade playing, f c = { c with fade := fade, isPlaying := playing } ∧
        (playing = true → c.isPlaying = true)) ∧
      e.absoluteFrame ≤ (process host stage e n).2.absoluteFrame := by
  have hself : ∀ c : AudioClip, ∃ fade playing, id c = { c with fade := fade, isPlaying := playing } ∧
      (playing = true → c.isPlaying = true) := fun c => ⟨c.fade, c.isPlaying, rfl, fun h => h⟩
  by_cases hplay : e.transport.playbackState = .playing
  · obtain hn | hn := Nat.eq_zero_or_pos n
    · refine ⟨id, ?_, hself, ?_⟩
      · simp [process, hplay, hn, afterUngated]
      · simp [process, hplay, hn, afterUngated]
    · unfold process
      rw [if_pos hplay, if_neg (by omega)]
      exact ⟨_, rfl, fun c => c.render_fields _ _ _ _ _ _, Nat.le_add_right _ _⟩
  · rw [process_stopped host stage hplay]
    exact ⟨id, (List.map_id _).symm, hself, le_rfl⟩

theorem Started.process {e : AudioEngine ν} (h : e.Started) (n : ℕ) :
    (process host stage e n).2.Started := by
  obtain ⟨f, hclips, hf, hle⟩ := process_clips host stage e n
  intro c hc hplay
  rw [hclips] at hc
  obtain ⟨d, hd, rfl⟩ := List.mem_map.mp hc
  obtain ⟨fade, playing, hfd, hp⟩ := hf d
  rw [hfd] at hplay ⊢
  exact (h d hd (hp hplay)).trans hle

theorem Cuttable.process {e : AudioEngine ν} (h : e.Cuttable) (n : ℕ) :
    (process host stage e n).2.Cuttable := by
  refine ⟨?_, h.started.process host stage n⟩
  intro t
  by_cases hplay : e.transport.playbackState = .playing
  · obtain hn | hn := Nat.eq_zero_or_pos n
    · simp [AudioEngine.process, hplay, hn, afterUngated, h.noEffects t]
    · rw [process_dry host stage h hplay hn]
      rfl
  · rw [process_stopped host stage hplay]
    exact h.noEffects t

theorem block_append (masterGain : ℚ) (a b : List Frame) :
    stage.block masterGain (a ++ b) = stage.block masterGain a ++ stage.block masterGain b :=
  List.map_append ..

theorem dryBlock_split {e : AudioEngine ν} (h : e.Cuttable) {m n : ℕ} (hm : 0 < m) (hn : 0 < n) :
    e.dryBlock (m + n) = e.dryBlock m ++ (e.afterDry m).dryBlock n := by
  unfold dryBlock
  simp only [e.ungatedBlock_split m hn, trackBlock_split _ _ _ hm hn h.started]
  exact foldl_mix_append _ _ (e.ungatedBlock_length m) (fun t _ => trackBlock_length _ _ _ _ _ _ t)

theorem afterDry_split {e : AudioEngine ν} (h : e.Cuttable) {m n : ℕ} (hm : 0 < m) (hn : 0 < n) :
    ((e.afterDry m).afterDry n).settled = (e.afterDry (m + n)).settled := by
  have hclips : ((e.afterDry m).afterDry n).clips = (e.afterDry (m + n)).clips := by
    unfold afterDry
    simp only [List.map_map]
    apply List.map_congr_left
    intro c hc
    rw [renderClip_split _ _ _ hm hn (h.started c hc)]
    rfl
  have htransport : ((e.afterDry m).afterDry n).transport = (e.afterDry (m + n)).transport :=
    e.transport.afterBlock_add m n
  have habs : ((e.afterDry m).afterDry n).absoluteFrame = (e.afterDry (m + n)).absoluteFrame :=
    Nat.add_assoc _ _ _
  unfold settled
  rw [hclips, htransport, habs]
  congr 1
  · exact e.preview_split m hn
  · exact e.voices_split m hn

theorem process_split {e : AudioEngine ν} (h : e.Cuttable) {m n : ℕ} (hm : 0 < m) (hn : 0 < n) :
    (process host stage e m).1 ++ (process host stage (process host stage e m).2 n).1 =
        (process host stage e (m + n)).1 ∧
      (process host stage (process host stage e m).2 n).2.settled =
        (process host stage e (m + n)).2.settled := by
  by_cases hplay : e.transport.playbackState = .playing
  · have hnext := h.process host stage m
    rw [process_dry host stage h hplay hm] at hnext ⊢
    have hplay' : (e.afterDry m).transport.playbackState = .playing := hplay
    have hmixer : (e.afterDry m).mixer = e.mixer := rfl
    simp only
    rw [process_dry host stage hnext hplay' hn,
      process_dry host stage h hplay (Nat.add_pos_left hm n), hmixer]
    refine ⟨?_, afterDry_split h hm hn⟩
    rw [dryBlock_split h hm hn, block_append]
  · have hstop : (process host stage e m).2.transport.playbackState ≠ .playing := by
      rw [process_stopped host stage hplay]
      exact hplay
    rw [process_stopped host stage hstop, process_stopped host stage hplay,
      process_stopped host stage hplay]
    constructor
    · rw [e.ungatedBlock_split m hn, block_append]
      rfl
    · unfold settled
      congr 1
      · exact e.preview_split m hn
      · exact e.voices_split m hn

theorem process_splits :
    Splits (process host stage (ν := ν)) Cuttable (fun a b => a.settled = b.settled) where
  refl _ := rfl
  trans _ _ _ h₁ h₂ := h₁.trans h₂
  keep _ n h := h.process host stage n
  split e m n h hm hn := by
    obtain ⟨hout, hstate⟩ := process_split host stage h hm hn
    refine ⟨?_, hstate⟩
    simpa [runBlocks] using hout

/-- However `N` frames are cut into non-empty blocks, the output is that of one block of `N` frames
and so is the engine's state, the preview's cursor being compared as far as the end of its buffer. -/
theorem process_blocks_eq_single (e : AudioEngine ν) (hfx : ∀ t, e.trackEffects t = [])
    (hstarted : e.Started) (blocks : List ℕ) (hne : blocks ≠ []) (hpos : ∀ n ∈ blocks, 0 < n) :
    (runBlocks (process host stage) e blocks).1 = (process host stage e blocks.sum).1 ∧
      (runBlocks (process host stage) e blocks).2.settled =
        (process host stage e blocks.sum).2.settled :=
  runBlocks_eq_single (process_splits host stage) ⟨hfx, hstarted⟩ hne hpos

/-! ## Where the cut shows -/

def noPlugins : PluginHost Empty :=
  ⟨fun p => p.elim, fun p => p.elim⟩

def exactStage : OutputStage ℚ :=
  ⟨fun s => s, fun s => s⟩

def previewing : AudioEngine Empty :=
  { new 44100 with preview := PreviewBuffer.new.start [1] 1 1 }

def awaitingStart : AudioEngine Empty :=
  { new 44100 with
    mode := .openLive
    transport := ⟨44100, 128, 0, .playing, false, 0, 0⟩
    clips := [
      { id := 1, trackIndex := 0, sceneIndex := 0, samples := [1, 1, 1, 1], startFrame := 0,
        startAbsolute := 1, durationFrames := 4, sampleOffset := 0, channels := 1,
        isPlaying := true, clipLoopEnabled := false, clipLoopStart := 0, clipLoopEnd := 0,
        isMatrixClip := false, fade := .fresh, events := [] }] }

/-- A clip that plays from the first frame, and a preview of three samples over it. -/
def playingClip : AudioEngine Empty :=
  { awaitingStart with
    clips := awaitingStart.clips.map fun c => { c with startAbsolute := 0 }
    preview := PreviewBuffer.new.start [1 / 2, 1 / 4, 1 / 8] 1 1 }

theorem previewing_blocks :
    (runBlocks (process noPlugins exactStage) playingClip [2, 1, 3]).1 =
        (process noPlugins exactStage playingClip [2, 1, 3].sum).1 ∧
      (runBlocks (process noPlugins exactStage) playingClip [2, 1, 3]).2.settled =
        (process noPlugins exactStage playingClip [2, 1, 3].sum).2.settled :=
  process_blocks_eq_single noPlugins exactStage playingClip (fun _ => rfl)
    (fun c hc _ => by
      obtain rfl := List.mem_singleton.mp hc
      exact Nat.zero_le _) [2, 1, 3] (by decide) (by decide)

/-- The frame that finds the end of a preview moves its cursor only when it lies in the same block as
the last sample, and a clip whose start is in the future is silent up to the end of the block. -/
theorem cut_shows :
    (¬ ∀ e : AudioEngine Empty, e.Started → ∀ blocks, blocks ≠ [] → (∀ n ∈ blocks, 0 < n) →
      (runBlocks (process noPlugins exactStage) e blocks).2.preview.cursor =
        (process noPlugins exactStage e blocks.sum).2.preview.cursor) ∧
    ¬ ∀ e : AudioEngine Empty, ∀ blocks, blocks ≠ [] → (∀ n ∈ blocks, 0 < n) →
      (runBlocks (process noPlugins exactStage) e blocks).1 =
        (process noPlugins exactStage e blocks.sum).1 := by
  constructor
  · intro h
    have hcursor := h previewing (fun _ hc => absurd hc List.not_mem_nil) [1, 1] (by decide) (by decide)
    exact absurd hcursor (by decide +kernel)
  · intro h
    exact absurd (h awaitingStart [1, 1] (by decide) (by decide)) (by decide +kernel)

end AudioEngine

end HikaruOpenLive.Engine
