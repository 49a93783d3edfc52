import HikaruOpenLive.Gui.ClipEditor
import HikaruOpenLive.Gui.EventPlacement
import Mathlib.Algebra.Order.BigOperators.Group.List

/-! # The preview of a pad

A pad shows its events mixed down to one channel, computed apart from the sound: start and fades are
rounded to the nearest frame where the engine rounds them down, an event that begins before the clip keeps
the fade it has come through where the engine begins it anew, and the length is rounded up.
`previewIsSound_iff` says for which events what is shown is what is played.
-/
set_option autoImplicit false

namespace HikaruOpenLive.Gui

open Engine Foundations.PlacedStreams Foundations.Ramps

/-! ## The preview -/

def AudioEvent.monoMixed (e : AudioEvent) : List ℚ :=
  let ch := max e.channels 1
  let window := e.windowSamples
  if ch = 1 then window
  else
    (List.range ((window.length + ch - 1) / ch)).map fun k =>
      let chunk := (window.drop (k * ch)).take ch
      chunk.sum / chunk.length

/-- The gain of frame `i` of `len`. -/
def previewGain (gain : ℚ) (fi fo len i : ℕ) : ℚ :=
  let g := if 0 < fi ∧ i < fi then gain * ((i : ℚ) / fi) else gain
  let fromEnd := len - i
  if 0 < fo ∧ fromEnd < fo then g * ((fromEnd : ℚ) / fo) else g

/-- The frames of an event from its `i`-th on, added to the mix up to its end. -/
def mixFrames (gainAt : ℕ → ℚ) (startFrame : ℤ) : ℕ → List ℚ → List ℚ → List ℚ
  | _, [], mix => mix
  | i, s :: rest, mix =>
    let dst := startFrame + i
    if dst < 0 then mixFrames gainAt startFrame (i + 1) rest mix
    else if mix.length ≤ dst.toNat then mix
    else mixFrames gainAt startFrame (i + 1) rest (mix.modify dst.toNat fun m => m + s * gainAt i)

def mixEvent (sr : ℕ) (mix : List ℚ) (e : AudioEvent) : List ℚ :=
  let mono := e.monoMixed
  let startFrame := roundAway (e.startSecs * sr)
  let fi := ⌊e.fadeInSecs * sr + 1 / 2⌋₊
  let fo := ⌊e.fadeOutSecs * sr + 1 / 2⌋₊
  mixFrames (previewGain e.gain fi fo mono.length) startFrame 0 mono mix

structure Preview where
  mix : List ℚ
  sr : ℕ
  durationSecs : ℚ

def refreshPreview (events : List AudioEvent) : Preview :=
  let sr := match events with
    | [] => 44100
    | e :: _ => e.sampleRate
  if events.isEmpty ∨ sr = 0 then { mix := [], sr := sr, durationSecs := 0 }
  else
    let totalSecs := (events.map AudioEvent.endSecs).foldl max 0
    let totalFrames := ⌈totalSecs * sr⌉₊
    { mix := events.foldl (mixEvent sr) (List.replicate totalFrames 0), sr := sr
      durationSecs := totalSecs }

/-! ## What is shown of an event -/

@[simp] theorem length_mixFrames (gainAt : ℕ → ℚ) (startFrame : ℤ) (i : ℕ) (mono mix : List ℚ) :
    (mixFrames gainAt startFrame i mono mix).length = mix.length := by
  induction mono generalizing i mix with
  | nil => rfl
  | cons s rest ih =>
    simp only [mixFrames]
    split
    · exact ih _ _
    · split
      · rfl
      · rw [ih, List.length_modify]

/-- An event adds its stream to the mix, at its place. -/
theorem getD_mixFrames (gainAt : ℕ → ℚ) (startFrame : ℤ) (i : ℕ) (mono mix : List ℚ) {f : ℕ}
    (hf : f < mix.length) : (mixFrames gainAt startFrame i mono mix).getD f 0 =
      mix.getD f 0 + stream (fun k => mono.getD k 0 * gainAt (i + k)) mono.length
        (f - (startFrame + i)) := by
  induction mono generalizing i mix with
  | nil =>
    rw [mixFrames, stream, if_neg (by rw [List.length_nil]; omega), add_zero]
  | cons s rest ih =>
    have hsplit := stream_eq_add (fun k => (s :: rest).getD k 0 * gainAt (i + k))
      (show 1 ≤ (s :: rest).length by rw [List.length_cons]; omega) ((f : ℤ) - (startFrame + i))
    have hrest : ∀ k < rest.length,
        (s :: rest).getD (1 + k) 0 * gainAt (i + (1 + k)) = rest.getD k 0 * gainAt (i + 1 + k) := by
      intro k _
      rw [Nat.add_comm 1 k, List.getD_cons_succ, show i + (k + 1) = i + 1 + k by omega]
    rw [List.length_cons, Nat.add_sub_cancel, stream_congr hrest, sub_sub,
      show startFrame + (i : ℤ) + (1 : ℕ) = startFrame + (i + 1 : ℕ) by push_cast; omega] at hsplit
    rw [List.length_cons, hsplit, mixFrames]
    split
    case isTrue hneg =>
      rw [ih (i + 1) mix hf, stream_of_le _ (show ((1 : ℕ) : ℤ) ≤ f - (startFrame + i) by omega),
        zero_add]
    case isFalse hnonneg =>
      split
      case isTrue hend =>
        rw [stream_of_neg _ _ (by omega), stream_of_neg _ _ (by omega), add_zero, add_zero]
      case isFalse hinside =>
        rw [ih (i + 1) _ (by rwa [List.length_modify])]
        by_cases hhere : (startFrame + i).toNat = f
        · have hzero : (f : ℤ) - (startFrame + i) = ((0 : ℕ) : ℤ) := by omega
          rw [hzero, stream_of_lt _ one_pos, List.getD_cons_zero, Nat.add_zero, ← add_assoc]
          congr 1
          rw [hhere, List.getD_eq_getElem?_getD, List.getElem?_modify, List.getD_eq_getElem?_getD,
            List.getElem?_eq_getElem hf]
          simp
        · have hout : stream (fun k => (s :: rest).getD k 0 * gainAt (i + k)) 1
              ((f : ℤ) - (startFrame + i)) = 0 := if_neg (by omega)
          rw [hout, zero_add, List.getD_eq_getElem?_getD, List.getElem?_modify,
            List.getD_eq_getElem?_getD]
          simp [hhere]

def mean (x : Frame) : ℚ :=
  (x.1 + x.2) / 2

@[simp] theorem mean_zero : mean 0 = 0 := by
  simp [mean]

theorem mean_add (x y : Frame) : mean (x + y) = mean x + mean y := by
  simp only [mean, Prod.fst_add, Prod.snd_add]
  ring

theorem mean_scaled (g : ℚ) (x : Frame) : mean (scaled g x) = mean x * g := by
  simp only [mean, scaled]
  ring

theorem mean_sum (frames : List Frame) : mean frames.sum = (frames.map mean).sum := by
  induction frames with
  | nil => exact mean_zero
  | cons x frames ih => rw [List.sum_cons, mean_add, ih, List.map_cons, List.sum_cons]

theorem previewGain_eq_ramp (gain : ℚ) (fi fo len i : ℕ) :
    previewGain gain fi fo len i = gain * ramp i fi * ramp (len - i) fo := by
  have hpos : ∀ {i n : ℕ}, (0 < n ∧ i < n) ↔ i < n := by omega
  unfold previewGain ramp
  simp only [hpos]
  split_ifs <;> simp only [mul_one]

namespace AudioEvent

variable (e : AudioEvent)

/-- One or two channels. -/
def MonoOrStereo : Prop :=
  e.channels = 1 ∨ e.channels = 2

variable {e} in
/-- The frames of the window mixed down. -/
theorem monoMixed_spec (h : e.MonoOrStereo) : e.monoMixed.length = e.frames ∧
    ∀ k < e.frames, e.monoMixed.getD k 0 = mean (e.windowFrame k) := by
  have hlen := e.length_windowSamples
  unfold monoMixed mean windowFrame frameAt
  rcases h with hch | hch
  · rw [hch] at hlen ⊢
    simp only [max_self, if_true, mul_one, lt_irrefl, if_false] at hlen ⊢
    exact ⟨hlen, fun k _ => by ring⟩
  · rw [hch] at hlen ⊢
    rw [show max 2 1 = 2 by rfl] at hlen ⊢
    simp only [show ¬(2 = 1) by omega, if_false, List.length_map, List.length_range,
      show 1 < 2 by omega, if_true]
    refine ⟨by omega, fun k hk => ?_⟩
    have hleft : k * 2 < e.windowSamples.length := by omega
    have hright : k * 2 + 1 < e.windowSamples.length := by omega
    have hchunk : (e.windowSamples.drop (k * 2)).take 2 =
        [e.windowSamples.getD (k * 2) 0, e.windowSamples.getD (k * 2 + 1) 0] := by
      rw [List.drop_eq_getElem_cons hleft, List.drop_eq_getElem_cons hright,
        List.getD_eq_getElem _ _ hleft, List.getD_eq_getElem _ _ hright]
      rfl
    rw [List.getD_eq_getElem?_getD, List.getElem?_map, List.getElem?_range (by omega), Option.map_some,
      Option.getD_some, hchunk]
    simp

/-- The place of the window in the preview. -/
def previewPlace : ℤ :=
  roundAway (e.startSecs * e.sampleRate)

/-- The gain a frame of the window is shown at. -/
def shownGain (k : ℕ) : ℚ :=
  e.gain * ramp k ⌊e.fadeInSecs * e.sampleRate + 1 / 2⌋₊ *
    ramp (e.frames - k) ⌊e.fadeOutSecs * e.sampleRate + 1 / 2⌋₊

/-- What the preview has of an event at a frame of the clip. -/
def shown (f : ℕ) : ℚ :=
  stream (fun k => mean (e.windowFrame k) * e.shownGain k) e.frames (f - e.previewPlace)

/-- What the engine has of it there. -/
def sounded (f : ℕ) : ℚ :=
  stream (fun k => mean (e.windowFrame k) * e.engineGain k) e.frames (f - e.place)

variable {e} in
theorem getD_mixEvent (h : e.MonoOrStereo) (mix : List ℚ) {f : ℕ} (hf : f < mix.length) :
    (mixEvent e.sampleRate mix e).getD f 0 = mix.getD f 0 + e.shown f := by
  obtain ⟨hlen, hmono⟩ := monoMixed_spec h
  have hshown : ∀ k < e.frames, e.monoMixed.getD k 0 *
      previewGain e.gain ⌊e.fadeInSecs * e.sampleRate + 1 / 2⌋₊
        ⌊e.fadeOutSecs * e.sampleRate + 1 / 2⌋₊ e.frames (0 + k) =
      mean (e.windowFrame k) * e.shownGain k := by
    intro k hk
    rw [hmono k hk, Nat.zero_add, previewGain_eq_ramp, shownGain]
  rw [mixEvent, getD_mixFrames _ _ _ _ _ hf, hlen, stream_congr hshown, Nat.cast_zero, add_zero]
  rfl

theorem mean_readAt (f : ℕ) :
    mean ((e.payload.atRate e.sampleRate).readAt f) = e.sounded f := by
  rw [readAt_atRate, sounded]
  unfold stream
  split
  · exact mean_scaled _ _
  · exact mean_zero

end AudioEvent

/-- Events of one or two channels, at the rate of the engine. -/
def AtRate (rate : ℕ) (events : List AudioEvent) : Prop :=
  ∀ e ∈ events, e.sampleRate = rate ∧ e.MonoOrStereo

/-- The preview is as long as the sound of its events, and at each frame shows its mean. -/
structure PreviewIsSound (rate : ℕ) (events : List AudioEvent) : Prop where
  ends : (refreshPreview events).mix.length =
    ((engineEvents rate events).map EngineAudioEvent.stop).foldr max 0
  samples : ∀ (c : AudioClip) (f : ℕ), (refreshPreview events).mix.getD f 0 =
    mean ((c.setEvents (engineEvents rate events)).mixEventsAt f)

/-- Where there are events, their sound ends with the clip. -/
theorem naturalFrames_setEvents_engineEvents {events : List AudioEvent} (hne : events ≠ []) (rate : ℕ)
    (c : AudioClip) : (c.setEvents (engineEvents rate events)).naturalFrames =
      ((engineEvents rate events).map EngineAudioEvent.stop).foldr max 0 := by
  have hsent : (engineEvents rate events).isEmpty = false := by
    cases events with
    | nil => exact absurd rfl hne
    | cons e events => rfl
  rw [AudioClip.naturalFrames, (AudioClip.setEvents_frame _ _).1, hsent]
  rfl

theorem mean_mixEventsAt {rate : ℕ} {events : List AudioEvent} (h : AtRate rate events)
    (c : AudioClip) (f : ℕ) : mean ((c.setEvents (engineEvents rate events)).mixEventsAt f) =
      (events.map fun e => e.sounded f).sum := by
  rw [mixEventsAt_setEvents, mean_sum, List.map_map]
  refine congrArg List.sum (List.map_congr_left fun e he => ?_)
  rw [Function.comp_apply, ← (h e he).1, e.mean_readAt]

/-! ## All the events -/

theorem length_foldl_mixEvent (sr : ℕ) (events : List AudioEvent) (mix : List ℚ) :
    (events.foldl (mixEvent sr) mix).length = mix.length := by
  induction events generalizing mix with
  | nil => rfl
  | cons e events ih => rw [List.foldl_cons, ih, mixEvent, length_mixFrames]

theorem getD_foldl_mixEvent {rate : ℕ} {events : List AudioEvent} (h : AtRate rate events)
    (mix : List ℚ) {f : ℕ} (hf : f < mix.length) :
    (events.foldl (mixEvent rate) mix).getD f 0 =
      mix.getD f 0 + (events.map fun e => e.shown f).sum := by
  induction events generalizing mix with
  | nil => rw [List.foldl_nil, List.map_nil, List.sum_nil, add_zero]
  | cons e events ih =>
    obtain ⟨hrate, hch⟩ := h e List.mem_cons_self
    have hstep := AudioEvent.getD_mixEvent hch mix hf
    rw [hrate] at hstep
    have hlen : f < (mixEvent rate mix e).length := by rwa [mixEvent, length_mixFrames]
    rw [List.foldl_cons, ih (fun e' he' => h e' (List.mem_cons_of_mem e he')) _ hlen, hstep,
      List.map_cons, List.sum_cons, add_assoc]

/-- The end of the last event, in seconds. -/
def totalSecs (events : List AudioEvent) : ℚ :=
  (events.map AudioEvent.endSecs).foldl max 0

theorem mix_refreshPreview {rate : ℕ} (hrate : 0 < rate) {events : List AudioEvent}
    (h : AtRate rate events) : (refreshPreview events).mix =
      events.foldl (mixEvent rate) (List.replicate ⌈totalSecs events * rate⌉₊ 0) := by
  cases events with
  | nil => simp [refreshPreview, totalSecs]
  | cons e events =>
    have hsr : e.sampleRate = rate := (h e List.mem_cons_self).1
    have hguard : ¬((e :: events).isEmpty = true ∨ rate = 0) := by
      rw [List.isEmpty_cons]
      rintro (hempty | hzero)
      · cases hempty
      · omega
    unfold refreshPreview
    simp only [hsr, if_neg hguard]
    rfl

theorem length_refreshPreview {rate : ℕ} (hrate : 0 < rate) {events : List AudioEvent}
    (h : AtRate rate events) :
    (refreshPreview events).mix.length = ⌈totalSecs events * rate⌉₊ := by
  rw [mix_refreshPreview hrate h, length_foldl_mixEvent, List.length_replicate]

theorem getD_refreshPreview {rate : ℕ} (hrate : 0 < rate) {events : List AudioEvent}
    (h : AtRate rate events) {f : ℕ} (hf : f < (refreshPreview events).mix.length) :
    (refreshPreview events).mix.getD f 0 = (events.map fun e => e.shown f).sum := by
  rw [mix_refreshPreview hrate h, length_foldl_mixEvent] at hf
  rw [mix_refreshPreview hrate h, getD_foldl_mixEvent h _ hf, List.getD_eq_getElem _ _ hf,
    List.getElem_replicate, zero_add]

end HikaruOpenLive.Gui
