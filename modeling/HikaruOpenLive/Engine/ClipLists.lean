import HikaruOpenLive.Foundations.Interleave
import HikaruOpenLive.Engine.ClipCells

/-! # Two kinds of clips in one list

The engine keeps the clips of the matrix and those of the playlist in one list. Here are the commands on
clips as edits of that list (`withClips`), and for each of them when it does to a list of two kinds what
it would do to the one kind alone. A block that the clips of one kind add only silence to is the block of
the other kind (`process_interleave`).
-/
set_option autoImplicit false

namespace HikaruOpenLive.Engine

open Transport Foundations Foundations.ListEdits Foundations.BlockSplit Foundations.Interleave

namespace AudioClip

/-- The clip adds nothing wherever it is read: its track is silent, or its samples are. -/
def Inaudible (mx : Mixer) (c : AudioClip) : Prop :=
  ∀ frame, c.fetchPanned (mx.trackGain c.trackSlot).1 (mx.trackGain c.trackSlot).2 frame = (0, 0)

theorem Inaudible.of_fields {mx : Mixer} {c d : AudioClip} (h : c.Inaudible mx)
    (hsamples : d.samples = c.samples) (hchannels : d.channels = c.channels)
    (htrack : d.trackIndex = c.trackIndex) : d.Inaudible mx := by
  intro frame
  have hslot : d.trackSlot = c.trackSlot := by
    unfold trackSlot
    simp only [htrack]
  have hfetch := h frame
  unfold fetchPanned at hfetch ⊢
  rw [hslot, hsamples, hchannels]
  exact hfetch

end AudioClip

theorem renderClip_inaudible {mx : Mixer} {c : AudioClip} (h : c.Inaudible mx) (t : TransportPosition)
    (absStart n : ℕ) : (renderClip mx .openStudio t absStart n c).1 = silence n := by
  have hframe : ∀ pos, c.studioFrame t (mx.trackGain c.trackSlot).1 (mx.trackGain c.trackSlot).2 pos =
      (0, 0) := by
    intro pos
    unfold AudioClip.studioFrame
    simp only
    split
    · rfl
    · exact h _
  have hemit : ∀ n pos, (emit (c.studioStep t (mx.trackGain c.trackSlot).1
      (mx.trackGain c.trackSlot).2) (0, 0) n pos).1 = silence n := by
    intro n
    induction n with
    | zero => exact fun _ => rfl
    | succ n ih =>
      intro pos
      have hstep : c.studioStep t (mx.trackGain c.trackSlot).1 (mx.trackGain c.trackSlot).2 pos =
          some ((0, 0), pos + 1) := by
        rw [AudioClip.studioStep, hframe]
      rw [emit_succ _ _ hstep, ih]
      rfl
  unfold renderClip AudioClip.render
  split
  · rfl
  · exact hemit n t.sampleCount

theorem renderClip_idle {c : AudioClip} (h : c.isPlaying = false) (mx : Mixer) (t : TransportPosition)
    (absStart n : ℕ) : (renderClip mx .openLive t absStart n c).1 = silence n := by
  unfold renderClip AudioClip.render
  split
  · rfl
  · rw [AudioClip.renderLive_idle h]

theorem mix_silence {n : ℕ} {block : List Frame} (h : block.length = n) :
    mix block (silence n) = block := by
  subst h
  induction block with
  | nil => rfl
  | cons f block ih =>
    have hzero : f + (0, 0) = f := Prod.ext (Rat.add_zero f.1) (Rat.add_zero f.2)
    change (f + (0, 0)) :: mix block (silence block.length) = f :: block
    rw [hzero, ih]

/-- Clips that add only silence can be left out of the mix of a track. -/
theorem trackBlock_interleave {mx : Mixer} {mode : EngineMode} {t : TransportPosition} {absStart n : ℕ}
    {quiet heard clips : List AudioClip} (h : Interleave quiet heard clips)
    (hquiet : ∀ c ∈ quiet, (renderClip mx mode t absStart n c).1 = silence n) (track : Fin 16) :
    trackBlock mx mode t absStart n clips track = trackBlock mx mode t absStart n heard track := by
  let onTrack (c : AudioClip) : Bool := decide (c.trackSlot = track)
  let block (c : AudioClip) : List Frame := (renderClip mx mode t absStart n c).1
  have hblocks := (h.filter onTrack).map block
  have hlength : ∀ b ∈ (heard.filter onTrack).map block, b.length = n := by
    intro b hb
    obtain ⟨c, _, rfl⟩ := List.mem_map.mp hb
    exact c.render_length _ _ _ _ _ _
  refine hblocks.foldl_right (I := fun acc => acc.length = n)
    (fun acc b hb hacc => mix_length hacc (hlength b hb)) ?_ List.length_replicate
  intro acc b hb hacc
  obtain ⟨c, hc, rfl⟩ := List.mem_map.mp hb
  have hsilent : block c = silence n := hquiet c (List.mem_filter.mp hc).1
  rw [hsilent]
  exact mix_silence hacc

namespace AudioEngine

variable {ν β : Type}

def withClips (e : AudioEngine ν) (clips : List AudioClip) : AudioEngine ν :=
  { e with clips := clips }

/-- The engine at another time. -/
def atTime (e : AudioEngine ν) (t : TransportPosition) (absoluteFrame : ℕ) : AudioEngine ν :=
  { e with transport := t, absoluteFrame := absoluteFrame }

theorem withClips_self (e : AudioEngine ν) : e.withClips e.clips = e := rfl

theorem process_interleave (host : PluginHost ν) (stage : OutputStage β) {e : AudioEngine ν}
    {quiet heard : List AudioClip} {n : ℕ} (h : Interleave quiet heard e.clips)
    (hquiet : ∀ c ∈ quiet,
      (renderClip e.mixer e.mode e.transport e.absoluteFrame n c).1 = silence n) :
    (e.process host stage n).1 = ((e.withClips heard).process host stage n).1 := by
  have htrack : ∀ track, e.trackOut host n track = (e.withClips heard).trackOut host n track := by
    intro track
    have hblock := trackBlock_interleave h hquiet track
    unfold trackOut
    rw [hblock]
    rfl
  unfold process
  simp only [htrack]
  by_cases hplay : e.transport.playbackState = .playing
  · have hplay' : (e.withClips heard).transport.playbackState = .playing := hplay
    rw [if_pos hplay, if_pos hplay']
    by_cases hn : n = 0
    · rw [if_pos hn, if_pos hn]
    · rw [if_neg hn, if_neg hn]
      rfl
  · have hplay' : ¬ (e.withClips heard).transport.playbackState = .playing := hplay
    rw [if_neg hplay, if_neg hplay']
    rfl

/-! ## The commands as edits of the list -/

/-- What `addClip` does to the clips. -/
def storeClip (mode : EngineMode) (c : AudioClip) (clips : List AudioClip) : List AudioClip :=
  let addressed := AudioClip.addressed mode c.id c.trackIndex c.sceneIndex
  if clips.any addressed then updateFirst addressed (fun _ => c) clips else clips ++ [c]

theorem addClip_eq (e : AudioEngine ν) (c : AudioClip) :
    e.addClip c = e.withClips (storeClip e.mode c e.clips) := by
  unfold addClip storeClip
  simp only
  split
  · rfl
  · rfl

theorem mem_storeClip {mode : EngineMode} {c d : AudioClip} {clips : List AudioClip}
    (h : d ∈ storeClip mode c clips) : d = c ∨ d ∈ clips :=
  mem_updateFirst_or_append h

variable {l r : List AudioClip}

theorem storeClip_left {mode : EngineMode} {c : AudioClip} {clips : List AudioClip}
    (h : Interleave l r clips)
    (hmiss : Misses (AudioClip.addressed mode c.id c.trackIndex c.sceneIndex) r) :
    Interleave (storeClip mode c l) r (storeClip mode c clips) := by
  have hany := h.any_left hmiss
  unfold storeClip
  simp only [hany]
  split
  · exact h.updateFirst_left _ hmiss
  · exact h.append_left c

theorem triggerOrigin_left {e : AudioEngine ν} (h : Interleave l r e.clips)
    (hidle : ∀ c ∈ r, c.isPlaying = false) (track : ℕ) :
    e.triggerOrigin track = (e.withClips l).triggerOrigin track := by
  have hplaying : e.clips.filter AudioClip.isPlaying = l.filter AudioClip.isPlaying :=
    h.filter_left hidle
  have htrack : (e.clips.filter fun c => decide (c.trackIndex = track) && c.isPlaying) =
      l.filter fun c => decide (c.trackIndex = track) && c.isPlaying := by
    refine h.filter_left fun c hc => ?_
    rw [hidle c hc, Bool.and_false]
  unfold triggerOrigin legatoReference withClips
  simp only [hplaying, htrack]

theorem stopped_of_idle {c : AudioClip} (h : c.isPlaying = false) : c.stopped = c := by
  unfold AudioClip.stopped
  rw [← h]

/-- A trigger of a cell without clips of the other kind, none of which plays. -/
theorem triggerClip_left {e : AudioEngine ν} (h : Interleave l r e.clips)
    (hidle : ∀ c ∈ r, c.isPlaying = false) {track scene : ℕ}
    (hmiss : Misses (AudioClip.inCell track scene) r) :
    Interleave ((e.withClips l).triggerClip track scene).clips r (e.triggerClip track scene).clips := by
  have horigin := triggerOrigin_left h hidle track
  have htarget : e.targetPlaying track scene = (e.withClips l).targetPlaying track scene := by
    unfold targetPlaying
    rw [h.find?_left hmiss]
    rfl
  unfold triggerClip
  simp only [horigin, htarget]
  refine h.map_left fun c hc => ?_
  split
  · rename_i htrack
    rw [if_neg, stopped_of_idle (hidle c hc)]
    intro hstart
    have hcell := hmiss c hc
    rw [AudioClip.inCell_iff.mpr ⟨htrack, hstart.1⟩] at hcell
    exact absurd hcell (by decide)
  · rfl

theorem triggerScene_left {e : AudioEngine ν} (h : Interleave l r e.clips)
    (hidle : ∀ c ∈ r, c.isPlaying = false) {scene : ℕ} (hmiss : ∀ c ∈ r, c.sceneIndex ≠ scene) :
    Interleave ((e.withClips l).triggerScene scene).clips r (e.triggerScene scene).clips := by
  have hany : ∀ track, e.clips.any (AudioClip.inCell track scene) =
      l.any (AudioClip.inCell track scene) := by
    intro track
    refine h.any_left fun c hc => ?_
    rw [Bool.eq_false_iff]
    intro hcell
    exact hmiss c hc (AudioClip.inCell_iff.mp hcell).2
  unfold triggerScene
  simp only [hany]
  refine h.map_left fun c hc => ?_
  rw [if_neg (hmiss c hc), stopped_of_idle (hidle c hc), ite_self]

end AudioEngine

end HikaruOpenLive.Engine
