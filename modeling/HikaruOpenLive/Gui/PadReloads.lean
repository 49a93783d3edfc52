import HikaruOpenLive.Engine.LoopReplay
import HikaruOpenLive.Gui.DropRuns
import HikaruOpenLive.Gui.PadDecoders

/-! # A pad before and after a reload

A file dropped on an empty pad loops over all its frames as the command thread decoded them. Saved and
applied again the pad plays an event of the file, looped over as many ticks as the file has frames.
`DropSession.sameAfterReload_iff` says for which files the difference is neither heard nor in the loop.
-/
set_option autoImplicit false

namespace HikaruOpenLive.Gui

open Engine Transport Foundations.Grid SessionMatrixState

variable {ν : Type}

/-- The condition on a file, on the rate of the engine and on the tempos of the reload and of the transport. A
file of a frame at least keeps its loop when its length taken for ticks, in frames, is its length at least;
it sounds the same if it is silent, or if both sides are heard of it at the width of more than 16 bits and
its loop has no crossfade, or one over frames that are all alike. -/
def WavFile.ReloadsAlike (w : WavFile) (sr bpm : ℚ) (t : TransportPosition) : Prop :=
  let samples := w.decoded.atRate sr
  let n := w.framesAt sr
  let len := quantizedLen n t
  n = 0 ∨ (loopFrames sr bpm w.duration = 0 ∨ n ≤ loopFrames sr bpm w.duration) ∧
    (SilentLoop samples w.channels len ∨
      1 < w.channels ∧ w.wide = true ∧ (Crossfades n len → FlatSeam samples w.channels len))

instance (w : WavFile) (sr bpm : ℚ) (t : TransportPosition) : Decidable (w.ReloadsAlike sr bpm t) :=
  inferInstanceAs (Decidable (_ ∨ _ ∧ (_ ∨ _ ∧ _ ∧ (_ → _))))

namespace DropSession

variable (disk : Disk) (track scene : ℕ)

/-- After a file is dropped and the project saved and applied again, the engine's clip of the pad has the
loop it had and sounds as it did. -/
def SameAfterReload (d : DropSession ν) (path : String) (baseDir : Option String) (bpm : ℚ)
    (t : TransportPosition) : Prop :=
  ∃ dropped reloaded c₁ c₂, d.act disk track scene (.drop path) = some dropped ∧
    dropped.act disk track scene (.reload baseDir bpm) = some reloaded ∧
    dropped.engine.cell? track scene = some c₁ ∧ reloaded.engine.cell? track scene = some c₂ ∧
    c₂.loopRegion = c₁.loopRegion ∧ AudioClip.SameRender t c₁ c₂

theorem act_drop_isSome {d : DropSession ν} {path : String} (hread : isReadable disk path = true)
    (hslot : (d.matrix.slot? track scene).isSome) (hclip : d.matrix.clip? track scene = none) :
    (d.act disk track scene (.drop path)).isSome := by
  obtain ⟨_, hmidi, _⟩ := isReadable_iff.mp hread
  obtain ⟨slot, hslot⟩ := Option.isSome_iff_exists.mp hslot
  have hslot' : ({ d.matrix with nextClipId := d.matrix.nextClipId + 1 } :
      SessionMatrixState).slot? track scene = some slot := hslot
  simp [act, hread, loadClipIntoSlot, hmidi, hclip, writeSlot, hslot']

/-- The clip of a file just dropped loops over all of it. -/
theorem sampleLoop_clipInstance (e : AudioEngine ν) (id track scene : ℕ) {w : WavFile}
    (hw : w.WellFormed) (hpos : 0 < w.framesAt e.sampleRate) :
    (e.clipInstance id track scene (w.decoded.atRate e.sampleRate) 0 0 0 w.channels true).SampleLoop
      (w.framesAt e.sampleRate) := by
  have hch : max w.channels 1 = w.channels := max_eq_left hw.channels
  have hframes := AudioEngine.naturalFrames_clipInstance e id track scene
    (w.decoded.atRate e.sampleRate) 0 0 0 w.channels true
  have hregion := AudioEngine.loopRegion_clipInstance e id track scene
    (w.decoded.atRate e.sampleRate) 0 0 0 w.channels
  rw [hch] at hframes hregion
  have hall : (w.decoded.atRate e.sampleRate).length / w.channels = w.framesAt e.sampleRate := rfl
  rw [hall] at hframes hregion
  rw [decide_eq_true hpos] at hregion
  refine ⟨⟨hpos, hframes, hregion⟩, rfl, ?_⟩
  have hduration : (e.clipInstance id track scene (w.decoded.atRate e.sampleRate) 0 0 0 w.channels
      true).durationFrames = w.framesAt e.sampleRate := by
    simp only [AudioEngine.clipInstance, hch, lt_irrefl, if_false]
    rfl
  rw [AudioClip.emissionLenFrames, hframes, hduration, if_pos hpos, min_self]

/-- The clip of a file reloaded, as far as its loop is over all of it. -/
theorem eventLoop_reloaded {c d : AudioClip} {w : WavFile} (hw : w.WellFormed) {path : String}
    (hdisk : disk path = some w) {e : AudioEvent} (he : wholeFile disk 1 path 0 = some e) {sr : ℚ}
    (hpos : 0 < w.framesAt sr) (hsamples : c.samples = w.decoded.atRate sr)
    (hchannels : c.channels = w.channels) (hevents : d.events = engineEvents sr [e])
    (hregion : d.loopRegion = (true, 0, w.framesAt sr)) :
    AudioClip.EventLoop (w.framesAt sr) w.padScale c d := by
  obtain ⟨hstop, hreads⟩ := WavFile.event_reads hw hdisk he sr
  have hone : d.events = [e.payload.atRate sr] := hevents
  refine ⟨⟨hpos, ?_, hregion⟩, ?_, ?_⟩
  · rw [AudioClip.naturalFrames, hone]
    simpa using hstop
  · rw [hone]
    exact List.cons_ne_nil _ _
  · intro frame hframe
    rw [AudioClip.mixEventsAt, hone, List.foldl_cons, List.foldl_nil, hreads frame hframe, hsamples,
      hchannels]
    exact Prod.ext (Rat.zero_add _) (Rat.zero_add _)

/-- The pad's clip of a file just dropped, saved and built again. -/
theorem buildClip_ofFile {path : String} (hread : isReadable disk path = true) (baseDir : Option String)
    (id totalFrames : ℕ) : ∃ e, wholeFile disk 1 path 0 = some e ∧
      buildClip disk baseDir (captureClip (.ofFile id path (.audio [] 1) totalFrames)) =
        { MatrixClip.ofFile id path (.audio [] 1) totalFrames with content := .audio [e] 2 } := by
  obtain ⟨hdecode, hmidi, habs⟩ := isReadable_iff.mp hread
  obtain ⟨decoded, hdecode⟩ := Option.isSome_iff_exists.mp hdecode
  have he : ∃ e, wholeFile disk 1 path 0 = some e := by
    rw [wholeFile, hdecode]
    exact ⟨_, rfl⟩
  obtain ⟨e, he⟩ := he
  let g := MatrixClip.ofFile id path (.audio [] 1) totalFrames
  have hpath : g.path = path := rfl
  have hcontent : g.content = .audio [] 1 := rfl
  rw [← hpath] at hmidi habs
  exact ⟨e, he, buildClip_single baseDir hmidi habs hcontent (by rw [hpath]; exact he)⟩

/-- The loop of a file just dropped, in frames of the engine. -/
theorem region_ofFile (id : ℕ) (path : String) (content : ClipData) (totalFrames : ℕ) (sr bpm : ℚ)
    (n : ℕ) : (MatrixClip.ofFile id path content totalFrames).region sr bpm n =
      AudioClip.regionOf 0 (loopFrames sr bpm totalFrames) true n := by
  have hzero : loopFrames sr bpm 0 = 0 := by
    simp [loopFrames, ticksToSecsPrecise]
  have hstart : (MatrixClip.ofFile id path content totalFrames).loopStart = 0 := rfl
  rw [MatrixClip.region, hstart, hzero]
  rfl

/-- A clip of one whole file is as long as the file. -/
theorem naturalFrames_wholeFile {d : AudioClip} {w : WavFile} (hw : w.WellFormed) {path : String}
    (hdisk : disk path = some w) {e : AudioEvent} (he : wholeFile disk 1 path 0 = some e) {sr : ℚ}
    (hevents : d.events = engineEvents sr [e]) : d.naturalFrames = w.framesAt sr := by
  have hone : d.events = [e.payload.atRate sr] := hevents
  rw [AudioClip.naturalFrames, hone]
  simpa using (WavFile.event_reads hw hdisk he sr).1

/-- The clip a drop makes and one that plays the file as an event, looped over the file's beats. -/
theorem loopRegion_and_sameRender_iff (engine : AudioEngine ν) (id : ℕ) {w : WavFile}
    (hw : w.WellFormed) {path : String} (hdisk : disk path = some w) {e : AudioEvent}
    (he : wholeFile disk 1 path 0 = some e) {bpm : ℚ} {d : AudioClip}
    (hevents : d.events = engineEvents engine.sampleRate [e])
    (hregion : d.loopRegion = AudioClip.regionOf 0 (loopFrames engine.sampleRate bpm w.duration) true
      (w.framesAt engine.sampleRate)) (t : TransportPosition) :
    let c := engine.clipInstance id track scene (w.decoded.atRate engine.sampleRate) 0 0 0 w.channels true
    (d.loopRegion = c.loopRegion ∧ AudioClip.SameRender t c d) ↔
      w.ReloadsAlike engine.sampleRate bpm t := by
  intro c
  have hch : max w.channels 1 = w.channels := max_eq_left hw.channels
  have hframes : c.naturalFrames = w.framesAt engine.sampleRate := by
    rw [AudioEngine.naturalFrames_clipInstance, hch]
    rfl
  have hregionc : c.loopRegion =
      (decide (0 < w.framesAt engine.sampleRate), 0, w.framesAt engine.sampleRate) := by
    have hloop := AudioEngine.loopRegion_clipInstance engine id track scene
      (w.decoded.atRate engine.sampleRate) 0 0 0 w.channels
    rw [hch] at hloop
    exact hloop
  have hloops : d.loopRegion = c.loopRegion ↔ w.framesAt engine.sampleRate = 0 ∨
      loopFrames engine.sampleRate bpm w.duration = 0 ∨
        w.framesAt engine.sampleRate ≤ loopFrames engine.sampleRate bpm w.duration := by
    rw [hregionc, hregion, AudioClip.regionOf_whole_iff]
    simp
  unfold WavFile.ReloadsAlike
  simp only
  obtain hzero | hpos := Nat.eq_zero_or_pos (w.framesAt engine.sampleRate)
  · have hframesd := naturalFrames_wholeFile disk hw hdisk he hevents
    rw [hzero] at hframes hframesd
    refine iff_of_true ⟨hloops.mpr (Or.inl hzero), ?_⟩ (Or.inl hzero)
    exact AudioClip.sameRender_noFrames hframes hframesd
  · have hchannels : c.channels = w.channels := hch
    have hsingle := sampleLoop_clipInstance engine id track scene hw hpos
    rw [or_iff_right hpos.ne'] at hloops ⊢
    rw [hloops]
    refine and_congr_right fun hstop => ?_
    have hwhole := (hloops.mpr hstop).trans hsingle.region
    have hevent := eventLoop_reloaded disk hw hdisk he hpos rfl hchannels hevents hwhole
    rw [AudioClip.sameRender_iff hsingle hevent, hchannels, hch, WavFile.padScale_eq_one_iff hw]
    rfl

/-- Dropped on an empty pad and reloaded, a file is the same in the engine precisely on the condition. -/
theorem sameAfterReload_iff {d : DropSession ν} (htrack : track < d.matrix.tracks.length)
    (hscene : scene < d.matrix.scenes.length) (hslot : (d.matrix.slot? track scene).isSome)
    (hempty : d.matrix.clip? track scene = none) {path : String} (hread : isReadable disk path = true)
    {w : WavFile} (hdisk : disk path = some w) (hw : w.WellFormed)
    (hdrop : d.Allowed disk track scene (.drop path)) {baseDir : Option String} {bpm : ℚ}
    (hreload : ∀ dropped, d.act disk track scene (.drop path) = some dropped →
      dropped.Allowed disk track scene (.reload baseDir bpm)) (t : TransportPosition) :
    d.SameAfterReload disk track scene path baseDir bpm t ↔
      w.ReloadsAlike d.engine.sampleRate bpm t := by
  obtain ⟨dropped, hdropped⟩ :=
    Option.isSome_iff_exists.mp (act_drop_isSome disk track scene hread hslot hempty)
  obtain ⟨reloaded, hreloaded⟩ : ∃ reloaded,
      dropped.act disk track scene (.reload baseDir bpm) = some reloaded := ⟨_, rfl⟩
  have hfirst := act_dropFirst disk track scene hread hempty hdisk hdrop hdropped
  obtain ⟨e, he, hbuilt⟩ := buildClip_ofFile disk hread baseDir d.matrix.nextClipId w.duration
  have hg : dropped.matrix.clip? track scene =
      some (MatrixClip.ofFile d.matrix.nextClipId path (.audio [] 1) w.duration) := by
    rw [clip?, hfirst.slot]
    rfl
  obtain ⟨_, c, hc, hplays⟩ := act_reload disk track scene (by rw [hfirst.tracks]; exact htrack)
    (by rw [hfirst.scenes]; exact hscene) (hreload dropped hdropped) hreloaded hg
    (by rw [hbuilt]; rfl) (by rw [hbuilt]; exact Option.isSome_iff_exists.mpr ⟨w, hdisk⟩)
  have hrate : reloaded.engine.sampleRate = d.engine.sampleRate :=
    (act_reload_rate disk track scene hreloaded).trans hfirst.rate
  rw [hbuilt, hrate] at hplays
  have hevents : c.events = engineEvents d.engine.sampleRate [e] := hplays.events
  have hregion : c.loopRegion = AudioClip.regionOf 0
      (loopFrames d.engine.sampleRate bpm w.duration) true (w.framesAt d.engine.sampleRate) := by
    have hloop := hplays.loop
    rw [naturalFrames_wholeFile disk hw hdisk he hevents] at hloop
    exact hloop.trans (region_ofFile d.matrix.nextClipId path (.audio [e] 2) w.duration _ bpm _)
  refine Iff.trans ?_ (loopRegion_and_sameRender_iff disk track scene d.engine d.matrix.nextClipId hw
    hdisk he hevents hregion t)
  constructor
  · rintro ⟨dropped', reloaded', c₁, c₂, hdropped', hreloaded', hc₁, hc₂, hboth⟩
    obtain rfl := Option.some.inj (hdropped.symm.trans hdropped')
    obtain rfl := Option.some.inj (hreloaded.symm.trans hreloaded')
    obtain rfl := Option.some.inj (hfirst.cell.symm.trans hc₁)
    obtain rfl := Option.some.inj (hc.symm.trans hc₂)
    exact hboth
  · exact fun hboth => ⟨dropped, reloaded, _, c, hdropped, hreloaded, hfirst.cell, hc, hboth⟩

/-! ## Two files -/

def loopDisk : Disk := fun path =>
  if path = "/loops/pad24.wav" then some ⟨.int 24 [4194304, -2097152, 1048576, 0], 2, 44100⟩
  else if path = "/loops/pad16.wav" then some ⟨.int 16 [16384, -8192, 4096, 0], 2, 44100⟩
  else none

def freshPad : DropSession ℕ :=
  { matrix := SessionMatrixState.default, engine := (AudioEngine.new 44100).setMode .openLive
    paths := [] }

def slowTransport : TransportPosition :=
  ⟨44100, 90, 0, .stopped, false, 0, 0⟩

theorem sameAfterReload_pad24 :
    freshPad.SameAfterReload loopDisk 1 2 "/loops/pad24.wav" none 90 slowTransport := by
  refine (sameAfterReload_iff loopDisk 1 2 (by decide) (by decide) (by decide) (by decide) (by decide)
    rfl ⟨by decide, by decide, ?_⟩ ?_ ?_ slowTransport).mpr (by decide +kernel)
  · intro bits samples hsamples
    obtain ⟨rfl, _⟩ := WavSamples.int.inj hsamples
    decide
  · intro _
    have hfree : freshPad.matrix.audio? 1 2 = none := by decide
    rw [hfree]
    exact Or.inl rfl
  · intro dropped hdropped
    have hlive : (freshPad.act loopDisk 1 2 (.drop "/loops/pad24.wav")).map (fun d => d.engine.mode) =
        some .openLive := by decide +kernel
    rw [hdropped] at hlive
    exact Or.inl (Option.some.inj hlive)

/-- A file of 16 bits, louder after the reload by one part in 32767. -/
theorem not_sameAfterReload_pad16 :
    ¬ ∀ path, isReadable loopDisk path = true →
      freshPad.SameAfterReload loopDisk 1 2 path none 90 slowTransport := by
  intro h
  obtain ⟨dropped, reloaded, c₁, c₂, hdropped, hreloaded, hc₁, hc₂, _, hrender⟩ :=
    h "/loops/pad16.wav" (by decide)
  have hfirst : ((freshPad.act loopDisk 1 2 (.drop "/loops/pad16.wav")).bind fun dropped =>
      (dropped.engine.cell? 1 2).bind fun c₁ =>
        (dropped.act loopDisk 1 2 (.reload none 90)).bind fun reloaded =>
          (reloaded.engine.cell? 1 2).map fun c₂ =>
            (((c₁.start 0 0).renderLive slowTransport 0 1 1 1).1,
              ((c₂.start 0 0).renderLive slowTransport 0 1 1 1).1)) =
      some ([(1 / 2, -1 / 4)], [(16384 / 32767, -8192 / 32767)]) := by decide +kernel
  rw [hdropped, Option.bind_some, hc₁, Option.bind_some, hreloaded, Option.bind_some, hc₂,
    Option.map_some] at hfirst
  obtain ⟨hbefore, hafter⟩ := Prod.mk.inj (Option.some.inj hfirst)
  have hsame := hrender 0 0 0 1 1 1
  rw [hbefore, hafter] at hsame
  exact absurd hsame (by decide +kernel)

end DropSession

end HikaruOpenLive.Gui
