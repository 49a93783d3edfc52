import Mathlib.Data.List.Basic
import Mathlib.Algebra.Group.Basic
import Mathlib.Algebra.Ring.Nat

/-! # The planar buffers of a plugin instance

The host's block is one interleaved stereo list; a plugin wants one list for each channel. The
buffers are reserved once, for the largest block the host will hand over.
-/
set_option autoImplicit false

namespace HikaruOpenLive.PluginHost

def maxBlockFrames : ℕ :=
  4096

def numChannels : ℕ :=
  2

/-- The two channels, left and right, in and out; each is `frames` long. -/
structure PlanarScratch (ν : Type) where
  inputs : List ν × List ν
  outputs : List ν × List ν
  frames : ℕ
  overflowed : Bool

namespace PlanarScratch

variable {ν : Type}

def capacity (scratch : PlanarScratch ν) : ℕ :=
  scratch.frames

def fits (scratch : PlanarScratch ν) (frames : ℕ) : Bool × PlanarScratch ν :=
  if scratch.frames < frames then (false, { scratch with overflowed := true }) else (true, scratch)

@[simp] theorem frames_fits (scratch : PlanarScratch ν) (frames : ℕ) :
    (scratch.fits frames).2.frames = scratch.frames := by
  unfold fits
  split <;> rfl

@[simp] theorem fits_fst (scratch : PlanarScratch ν) (frames : ℕ) :
    (scratch.fits frames).1 = true ↔ frames ≤ scratch.frames := by
  unfold fits
  split <;> simp <;> omega

variable [Zero ν]

def new (frames : ℕ) : PlanarScratch ν :=
  let frames := max 1 (min frames maxBlockFrames)
  let silence := List.replicate frames 0
  { inputs := (silence, silence), outputs := (silence, silence), frames := frames
    overflowed := false }

/-- Channel `ch` of an interleaved block: `len` of its samples, then silence. -/
def channelOf (samples : List ν) (len capacity ch : ℕ) : List ν :=
  (List.range capacity).map fun i => if i < len then samples.getD (i * numChannels + ch) 0 else 0

def deinterleaveStereo (scratch : PlanarScratch ν) (samples : List ν) (frames : ℕ) :
    PlanarScratch ν :=
  let len := min frames (samples.length / numChannels)
  { scratch with
    inputs := (channelOf samples len scratch.frames 0, channelOf samples len scratch.frames 1) }

def reinterleaveStereo (scratch : PlanarScratch ν) (samples : List ν) (frames : ℕ) : List ν :=
  let len := min frames (samples.length / numChannels)
  samples.mapIdx fun j sample =>
    if j < len * numChannels then
      (if j % numChannels = 0 then scratch.outputs.1 else scratch.outputs.2).getD (j / numChannels) 0
    else sample

/-- The first `frames` positions of the output channels, written by the plugin. -/
def writeOutputs (scratch : PlanarScratch ν) (frames : ℕ) (written : List ν × List ν) :
    PlanarScratch ν :=
  let write (old new : List ν) : List ν :=
    (List.range old.length).map fun i =>
      if i < frames then new.getD i (old.getD i 0) else old.getD i 0
  { scratch with
    outputs := (write scratch.outputs.1 written.1, write scratch.outputs.2 written.2) }

@[simp] theorem frames_new (frames : ℕ) :
    (new frames : PlanarScratch ν).frames = max 1 (min frames maxBlockFrames) := rfl

@[simp] theorem frames_deinterleaveStereo (scratch : PlanarScratch ν) (samples : List ν)
    (frames : ℕ) : (scratch.deinterleaveStereo samples frames).frames = scratch.frames := rfl

@[simp] theorem frames_writeOutputs (scratch : PlanarScratch ν) (frames : ℕ)
    (written : List ν × List ν) : (scratch.writeOutputs frames written).frames = scratch.frames :=
  rfl

theorem length_channelOf (samples : List ν) (len capacity ch : ℕ) :
    (channelOf samples len capacity ch).length = capacity := by
  rw [channelOf, List.length_map, List.length_range]

theorem channelOf_getD (samples : List ν) {len capacity ch i : ℕ} (hlen : len ≤ capacity)
    (hi : i < len) : (channelOf samples len capacity ch).getD i 0 =
      samples.getD (i * numChannels + ch) 0 := by
  have hcap : i < capacity := by omega
  rw [channelOf, List.getD_eq_getElem?_getD, List.getElem?_map, List.getElem?_range hcap]
  simp [hi]

/-- Below the last frame carried back the destination has what the plugin wrote, from there on what
it had. -/
theorem getElem?_reinterleaveStereo (scratch : PlanarScratch ν) (samples : List ν) (frames j : ℕ) :
    (scratch.reinterleaveStereo samples frames)[j]? =
      if j < min frames (samples.length / numChannels) * numChannels then
        some ((if j % numChannels = 0 then scratch.outputs.1 else scratch.outputs.2).getD
          (j / numChannels) 0)
      else samples[j]? := by
  rw [reinterleaveStereo, List.getElem?_mapIdx]
  split
  case isTrue h =>
    have hj : j < samples.length := by
      rw [numChannels] at h
      omega
    rw [List.getElem?_eq_getElem hj, Option.map_some]
  case isFalse h =>
    cases samples[j]? with
    | none => rfl
    | some sample => rfl

theorem length_reinterleaveStereo (scratch : PlanarScratch ν) (samples : List ν) (frames : ℕ) :
    (scratch.reinterleaveStereo samples frames).length = samples.length :=
  List.length_mapIdx

/-- Where the outputs hold the frames of a block, the destination gets the block's samples. -/
theorem getElem?_reinterleaveStereo_of_outputs (scratch : PlanarScratch ν) (samples dest : List ν)
    {frames len : ℕ} (hlen : len ≤ min frames (dest.length / numChannels))
    (hsamples : len ≤ samples.length / numChannels)
    (hleft : ∀ i < len, scratch.outputs.1.getD i 0 = samples.getD (i * numChannels) 0)
    (hright : ∀ i < len, scratch.outputs.2.getD i 0 = samples.getD (i * numChannels + 1) 0)
    {j : ℕ} (hj : j < numChannels * len) :
    (scratch.reinterleaveStereo dest frames)[j]? = samples[j]? := by
  have hwritten : j < min frames (dest.length / numChannels) * numChannels := by
    rw [numChannels] at *
    omega
  have hi : j / numChannels < len := by
    rw [numChannels] at *
    omega
  have hlt : j < samples.length := by
    rw [numChannels] at *
    omega
  have hback : samples[j]? = some (samples.getD j 0) := by
    rw [List.getD_eq_getElem?_getD, List.getElem?_eq_getElem hlt, Option.getD_some]
  rw [getElem?_reinterleaveStereo, if_pos hwritten, hback]
  split
  case isTrue hmod =>
    have hdouble : j / numChannels * numChannels = j := by
      rw [numChannels] at *
      omega
    rw [hleft _ hi, hdouble]
  case isFalse hmod =>
    have hdouble : j / numChannels * numChannels + 1 = j := by
      rw [numChannels] at *
      omega
    rw [hright _ hi, hdouble]

theorem getElem?_reinterleaveStereo_of_le (scratch : PlanarScratch ν) (dest : List ν) {frames j : ℕ}
    (hj : numChannels * min frames (dest.length / numChannels) ≤ j) :
    (scratch.reinterleaveStereo dest frames)[j]? = dest[j]? := by
  rw [getElem?_reinterleaveStereo, if_neg (by rw [mul_comm]; exact Nat.not_lt.mpr hj)]

/-- Outputs that hold the frames of the block leave it as it was. -/
theorem reinterleaveStereo_eq_self (scratch : PlanarScratch ν) (samples : List ν) (frames : ℕ)
    (hleft : ∀ i < min frames (samples.length / numChannels),
      scratch.outputs.1.getD i 0 = samples.getD (i * numChannels) 0)
    (hright : ∀ i < min frames (samples.length / numChannels),
      scratch.outputs.2.getD i 0 = samples.getD (i * numChannels + 1) 0) :
    scratch.reinterleaveStereo samples frames = samples := by
  apply List.ext_getElem?
  intro j
  by_cases hj : j < numChannels * min frames (samples.length / numChannels)
  · exact getElem?_reinterleaveStereo_of_outputs scratch samples samples le_rfl (min_le_right _ _)
      hleft hright hj
  · exact getElem?_reinterleaveStereo_of_le scratch samples (Nat.not_lt.mp hj)

/-- The way to the plugin and back loses nothing: a block of which the plugin returns the input
channels is the block it was. -/
theorem reinterleave_deinterleave (scratch : PlanarScratch ν) (samples : List ν)
    (h : samples.length / numChannels ≤ scratch.frames) (frames : ℕ) :
    let scratch' := scratch.deinterleaveStereo samples frames
    ({ scratch' with outputs := scratch'.inputs }).reinterleaveStereo samples frames = samples := by
  have hcap : min frames (samples.length / numChannels) ≤ scratch.frames :=
    le_trans (min_le_right _ _) h
  apply reinterleaveStereo_eq_self
  · exact fun i hi => channelOf_getD samples hcap hi
  · exact fun i hi => channelOf_getD samples hcap hi

/-! ## Blocks within the capacity -/

/-- Every buffer is as long as the scratch says, as between two blocks it always is. -/
structure Sized (scratch : PlanarScratch ν) : Prop where
  inputs_left : scratch.inputs.1.length = scratch.frames
  inputs_right : scratch.inputs.2.length = scratch.frames
  outputs_left : scratch.outputs.1.length = scratch.frames
  outputs_right : scratch.outputs.2.length = scratch.frames

theorem sized_new (frames : ℕ) : (new frames : PlanarScratch ν).Sized :=
  ⟨List.length_replicate, List.length_replicate, List.length_replicate, List.length_replicate⟩

omit [Zero ν] in
theorem Sized.fits {scratch : PlanarScratch ν} (h : scratch.Sized) (frames : ℕ) :
    (scratch.fits frames).2.Sized := by
  unfold PlanarScratch.fits
  split
  · exact ⟨h.inputs_left, h.inputs_right, h.outputs_left, h.outputs_right⟩
  · exact h

theorem Sized.deinterleaveStereo {scratch : PlanarScratch ν} (h : scratch.Sized)
    (samples : List ν) (frames : ℕ) : (scratch.deinterleaveStereo samples frames).Sized :=
  ⟨length_channelOf _ _ _ _, length_channelOf _ _ _ _, h.outputs_left, h.outputs_right⟩

theorem Sized.writeOutputs {scratch : PlanarScratch ν} (h : scratch.Sized) (frames : ℕ)
    (written : List ν × List ν) : (scratch.writeOutputs frames written).Sized where
  inputs_left := h.inputs_left
  inputs_right := h.inputs_right
  outputs_left := by
    simp only [PlanarScratch.writeOutputs, List.length_map, List.length_range, h.outputs_left]
  outputs_right := by
    simp only [PlanarScratch.writeOutputs, List.length_map, List.length_range, h.outputs_right]

theorem getElem?_channelOf (samples : List ν) {len capacity i : ℕ} (ch : ℕ) (hi : i < capacity) :
    (channelOf samples len capacity ch)[i]? =
      some (if i < len then samples.getD (i * numChannels + ch) 0 else 0) := by
  rw [channelOf, List.getElem?_map, List.getElem?_range hi, Option.map_some]

/-- Below the frames of the block the outputs hold what the plugin wrote. -/
theorem Sized.getD_writeOutputs {scratch : PlanarScratch ν} (h : scratch.Sized) {frames i : ℕ}
    {written : List ν × List ν} (hi : i < frames) (hcap : i < scratch.frames)
    (hleft : i < written.1.length) (hright : i < written.2.length) :
    (scratch.writeOutputs frames written).outputs.1.getD i 0 = written.1.getD i 0 ∧
      (scratch.writeOutputs frames written).outputs.2.getD i 0 = written.2.getD i 0 := by
  have hread : ∀ old new : List ν, i < old.length → i < new.length →
      ((List.range old.length).map fun i =>
        if i < frames then new.getD i (old.getD i 0) else old.getD i 0).getD i 0 =
        new.getD i 0 := by
    intro old new hold hnew
    rw [List.getD_eq_getElem?_getD, List.getElem?_map, List.getElem?_range hold]
    simp only [Option.map_some, Option.getD_some, if_pos hi, List.getD_eq_getElem?_getD,
      List.getElem?_eq_getElem hnew]
  constructor
  · exact hread _ _ (lt_of_lt_of_eq hcap h.outputs_left.symm) hleft
  · exact hread _ _ (lt_of_lt_of_eq hcap h.outputs_right.symm) hright

/-- Below the frames of a block within the capacity, what the plugin copies is what the slice held. -/
theorem Sized.outputs_of_copied {scratch : PlanarScratch ν} (h : scratch.Sized) (samples : List ν)
    {frames copied : ℕ} (hframes : frames ≤ scratch.frames) (hcopied : frames ≤ copied) :
    let filled := scratch.deinterleaveStereo samples frames
    let copy := filled.writeOutputs copied filled.inputs
    ∀ i < min frames (samples.length / numChannels),
      copy.outputs.1.getD i 0 = samples.getD (i * numChannels) 0 ∧
        copy.outputs.2.getD i 0 = samples.getD (i * numChannels + 1) 0 := by
  intro filled copy i hi
  have hcap : min frames (samples.length / numChannels) ≤ scratch.frames :=
    le_trans (min_le_left _ _) hframes
  have hfilled : filled.Sized := h.deinterleaveStereo samples frames
  have hbound : i < filled.frames := lt_of_lt_of_le hi hcap
  obtain ⟨hleft, hright⟩ := hfilled.getD_writeOutputs (show i < copied by omega) hbound (lt_of_lt_of_eq hbound hfilled.inputs_left.symm)
    (lt_of_lt_of_eq hbound hfilled.inputs_right.symm)
  exact ⟨hleft.trans (channelOf_getD samples hcap hi), hright.trans (channelOf_getD samples hcap hi)⟩

/-- A block within the capacity, whatever the length of its slice, comes back as it went, to the slice
and to any other destination, when the plugin copies at least its frames; the buffers are silent past
its last whole frame, and what lies past the frames of the block is not the plugin's to change. -/
theorem roundTrip_of_frames_le (scratch : PlanarScratch ν) (hsized : scratch.Sized)
    (samples : List ν) (frames : ℕ) (hframes : frames ≤ scratch.capacity) :
    let filled := scratch.deinterleaveStereo samples frames
    (∀ copied, frames ≤ copied →
      (filled.writeOutputs copied filled.inputs).reinterleaveStereo samples frames = samples ∧
      ∀ (dest : List ν) (j : ℕ), j < numChannels *
          min (min frames (samples.length / numChannels)) (dest.length / numChannels) →
        ((filled.writeOutputs copied filled.inputs).reinterleaveStereo dest frames)[j]? =
          samples[j]?) ∧
    (∀ i, min frames (samples.length / numChannels) ≤ i → i < scratch.capacity →
      filled.inputs.1[i]? = some 0 ∧ filled.inputs.2[i]? = some 0) ∧
    ∀ (processed : PlanarScratch ν) (dest : List ν),
      (processed.reinterleaveStereo dest frames).length = dest.length ∧
      ∀ j, numChannels * frames ≤ j →
        (processed.reinterleaveStereo dest frames)[j]? = dest[j]? := by
  intro filled
  refine ⟨?_, ?_, ?_⟩
  · intro copied hcopied
    have hcopy := hsized.outputs_of_copied samples hframes hcopied
    constructor
    · exact reinterleaveStereo_eq_self _ samples frames (fun i hi => (hcopy i hi).1)
        (fun i hi => (hcopy i hi).2)
    · intro dest j hj
      refine getElem?_reinterleaveStereo_of_outputs _ samples dest (le_min ?_ (min_le_right _ _))
        (le_trans (min_le_left _ _) (min_le_right _ _)) (fun i hi => (hcopy i ?_).1)
        (fun i hi => (hcopy i ?_).2) hj
      · exact le_trans (min_le_left _ _) (min_le_left _ _)
      · exact lt_of_lt_of_le hi (min_le_left _ _)
      · exact lt_of_lt_of_le hi (min_le_left _ _)
  · intro i hlen hi
    have hsilent : ∀ ch, (channelOf samples (min frames (samples.length / numChannels))
        scratch.frames ch)[i]? = some 0 := by
      intro ch
      rw [getElem?_channelOf samples ch (show i < scratch.frames from hi), if_neg (by omega)]
    exact ⟨hsilent 0, hsilent 1⟩
  · intro processed dest
    refine ⟨length_reinterleaveStereo _ _ _, fun j hj => ?_⟩
    apply getElem?_reinterleaveStereo_of_le
    exact le_trans (Nat.mul_le_mul_left _ (min_le_left _ _)) hj

/-- Three frames asked of a slice with two and a half, brought back to the slice and to another one. -/
theorem roundTrip_odd_slice :
    let filled := (new 4 : PlanarScratch ℕ).deinterleaveStereo [1, 2, 3, 4, 5] 3
    (filled.writeOutputs 3 filled.inputs).reinterleaveStereo [1, 2, 3, 4, 5] 3 = [1, 2, 3, 4, 5] ∧
      ((filled.writeOutputs 3 filled.inputs).reinterleaveStereo [6, 7, 8, 9, 10, 11, 12] 3)[3]? =
        some 4 ∧
      filled.inputs.1[2]? = some 0 ∧
      (filled.reinterleaveStereo [6, 7, 8, 9, 10, 11, 12] 3)[6]? = some 12 := by
  have h := roundTrip_of_frames_le (new 4 : PlanarScratch ℕ) (sized_new 4) [1, 2, 3, 4, 5] 3
    (by decide)
  obtain ⟨hself, hother⟩ := h.1 3 le_rfl
  exact ⟨hself, hother [6, 7, 8, 9, 10, 11, 12] 3 (by decide), (h.2.1 2 (by decide) (by decide)).1,
    (h.2.2 _ _).2 6 (by decide)⟩

end PlanarScratch

end HikaruOpenLive.PluginHost
