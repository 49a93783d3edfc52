import HikaruOpenLive.Engine.ClipCells
import HikaruOpenLive.Engine.LoopFrames

/-! # Legato starts

A pad that is triggered takes over the origin of what plays, as if it had been looping along unheard. A
clip that does not loop can be over before its first frame then: `triggerClip_sounds_iff` says when a
triggered clip is heard.
-/
set_option autoImplicit false

namespace HikaruOpenLive.Engine

namespace AudioClip

/-- A voice that began `age` frames ago is not over. -/
def LastsPast (c : AudioClip) (age : ℕ) : Prop := c.hasValidClipLoop = true ∨ age < c.emissionLenFrames

instance (c : AudioClip) (age : ℕ) : Decidable (c.LastsPast age) := by
  unfold LastsPast; infer_instance

theorem emissionLenFrames_pos {c : AudioClip} (h : 0 < c.naturalFrames) : 0 < c.emissionLenFrames := by
  unfold emissionLenFrames
  split <;> omega

theorem clipFrameForElapsed_isSome_iff (c : AudioClip) (t : Transport.TransportPosition)
    (elapsed : ℕ) : (c.clipFrameForElapsed elapsed t).isSome ↔ c.LastsPast elapsed := by
  unfold LastsPast
  by_cases hloop : c.hasValidClipLoop = true
  · rw [clipFrameForElapsed_looped hloop]
    simp [hloop]
  · rw [clipFrameForElapsed_oneShot hloop]
    by_cases hend : c.emissionLenFrames ≤ elapsed
    · simp [hend, hloop]
    · simp [hend, not_le.mp hend]

theorem voiceStateLinear_of_future {c : AudioClip} {absPos : ℕ} (h : absPos < c.startAbsolute)
    (t : Transport.TransportPosition) : c.voiceStateLinear absPos t = .finished := by
  unfold voiceStateLinear voiceFrameLinear
  rw [if_pos h, if_pos h]
  split <;> rfl

/-- The voice of a clip is active when it has begun and is not over. -/
theorem voiceStateLinear_active_iff (c : AudioClip) (absPos : ℕ) (t : Transport.TransportPosition) :
    c.voiceStateLinear absPos t = .active ↔
      c.startAbsolute ≤ absPos ∧ c.LastsPast (absPos - c.startAbsolute) := by
  by_cases hearly : absPos < c.startAbsolute
  · rw [voiceStateLinear_of_future hearly]
    simp only [reduceCtorEq, false_iff, not_and]
    omega
  · obtain ⟨elapsed, rfl⟩ := Nat.exists_eq_add_of_le (not_lt.mp hearly)
    rw [voiceStateLinear_eq_active_iff, clipFrameForElapsed_isSome_iff, Nat.add_sub_cancel_left]
    simp

end AudioClip

namespace AudioEngine

variable {ν : Type}

theorem cell?_triggered {e : AudioEngine ν} {track scene : ℕ} {c : AudioClip}
    (hcell : e.cell? track scene = some c) (hstopped : c.isPlaying = false) :
    (e.triggerClip track scene).cell? track scene =
      some (c.start (e.triggerOrigin track).1 (e.triggerOrigin track).2) := by
  have hidle : e.targetPlaying track scene = false := by
    rw [targetPlaying_eq, hcell]
    exact hstopped
  rw [cell?_triggerClip, hcell, hidle]
  simp

/-- What plays lets the clip be heard: the origin it hands over, if any, is not in the future, and the
clip loops or lasts past the age of that origin. -/
def LetsHear (e : AudioEngine ν) (track : ℕ) (c : AudioClip) : Prop :=
  ∀ origin, e.legatoReference track = some origin →
    origin.2 ≤ e.absoluteFrame ∧ c.LastsPast (e.absoluteFrame - origin.2)

/-- A stopped clip that is triggered sounds precisely when it loops, or when nothing plays, or when what
plays began less than the clip's length ago. -/
theorem triggerClip_sounds_iff {e : AudioEngine ν} {track scene : ℕ} {c : AudioClip}
    (hcell : e.cell? track scene = some c) (hstopped : c.isPlaying = false) (haudio : 0 < c.naturalFrames) :
    (e.triggerClip track scene).voiceActive track scene = true ↔ e.LetsHear track c := by
  have hvoice : (e.triggerClip track scene).voiceActive track scene = true ↔
      (e.triggerOrigin track).2 ≤ e.absoluteFrame ∧
        c.LastsPast (e.absoluteFrame - (e.triggerOrigin track).2) := by
    have hstart := (c.start (e.triggerOrigin track).1 (e.triggerOrigin track).2).voiceStateLinear_active_iff
      e.absoluteFrame e.transport
    unfold voiceActive
    rw [cell?_triggered hcell hstopped]
    exact decide_eq_true_iff.trans hstart
  rw [hvoice]
  unfold triggerOrigin LetsHear
  cases e.legatoReference track with
  | none =>
    have hfirst : c.LastsPast 0 := Or.inr (AudioClip.emissionLenFrames_pos haudio)
    simp [hfirst]
  | some origin =>
    simp

/-- A pad of twelve frames that loops, and a one-shot pad of four below it. -/
def pads : AudioEngine Unit :=
  let loop : AudioClip :=
    { id := 1, trackIndex := 0, sceneIndex := 0, samples := List.replicate 12 0, startFrame := 0
      startAbsolute := 0, durationFrames := 0, sampleOffset := 0, channels := 1, isPlaying := true
      clipLoopEnabled := true, clipLoopStart := 0, clipLoopEnd := 12, isMatrixClip := true
      fade := LoopFade.fresh, events := [] }
  let oneShot : AudioClip :=
    { loop with
      id := 2, sceneIndex := 1, samples := List.replicate 4 0, isPlaying := false
      clipLoopEnabled := false, clipLoopEnd := 0 }
  { (new 44100 : AudioEngine Unit) with mode := .openLive, clips := [loop, oneShot], absoluteFrame := 2 }

/-- Two frames after the loop began the one-shot is heard. -/
theorem triggerClip_sounds_pads : (pads.triggerClip 0 1).voiceActive 0 1 = true :=
  (triggerClip_sounds_iff (c := pads.clips[1]) rfl rfl (by decide)).mpr (by
    intro origin horigin
    obtain rfl := Option.some.inj horigin
    decide)

/-- Four frames after it is not. -/
theorem not_triggerClip_sounds :
    ¬ ∀ (e : AudioEngine Unit) (track scene : ℕ) (c : AudioClip), e.mode = .openLive → e.Started →
      e.cell? track scene = some c → c.isPlaying = false → 0 < c.naturalFrames →
        (e.triggerClip track scene).voiceActive track scene = true := by
  intro h
  have hstarted : ({ pads with absoluteFrame := 4 } : AudioEngine Unit).Started := by
    intro c hc _
    simp only [pads, List.mem_cons, List.not_mem_nil, or_false] at hc
    obtain rfl | rfl := hc <;> exact Nat.zero_le _
  have hsounds := h { pads with absoluteFrame := 4 } 0 1 pads.clips[1] rfl hstarted rfl rfl (by decide)
  revert hsounds
  decide

end AudioEngine

end HikaruOpenLive.Engine
