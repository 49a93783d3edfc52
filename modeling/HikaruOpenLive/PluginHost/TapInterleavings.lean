import HikaruOpenLive.PluginHost.PluginTap

/-! # Every order of the steps of the tap's threads

The blocks from `read` to `write` are in their slots (`Inv.stored`). The publisher fills the slot of block
`write`, less than `capacity` behind every one of these; the taker copies one of these, and until it is
done `read` stays where it is.
-/
set_option autoImplicit false

namespace HikaruOpenLive.PluginHost

open Foundations.CyclicWindow Foundations.Runs

variable {ν : Type}

namespace PluginTap

variable {tap : PluginTap ν}

/-- A block as it is published: whole frames, one at least and no more than a slot has room for. -/
def IsBlock (tap : PluginTap ν) (block : List ν) : Prop :=
  ∃ frames, 0 < frames ∧ frames ≤ tap.maxFrames ∧ block.length = frames * numChannels

/-- The first samples of a block are in the slot of its index. -/
def Copied (tap : PluginTap ν) (j : ℕ) (block : List ν) (done : ℕ) : Prop :=
  ∀ i sample, i < done → block[i]? = some sample → tap.ring[tap.index j i]? = some sample

/-- A block is in the slot of its index, with its length. -/
structure Holds (tap : PluginTap ν) (j : ℕ) (block : List ν) : Prop where
  samples : tap.Copied j block block.length
  len : tap.lens[tap.slot j]? = some (block.length / numChannels)

/-- The memory has the size it was made with. -/
structure Sized (tap : PluginTap ν) : Prop where
  capacity : 0 < tap.capacity
  frames : tap.maxFrames < 2 ^ 32
  ring : tap.ring.length = tap.capacity * tap.maxFrames * numChannels
  lens : tap.lens.length = tap.capacity

theorem sized_withCapacity [Zero ν] {maxFrames : ℕ} (h : maxFrames < 2 ^ 32) (capacity : ℕ) :
    (withCapacity maxFrames capacity : PluginTap ν).Sized := by
  refine ⟨?_, ?_, List.length_replicate, List.length_replicate⟩
  · show 0 < max capacity 2
    omega
  · show max maxFrames 1 < 2 ^ 32
    omega

theorem Sized.slot_lt (h : tap.Sized) (j : ℕ) : tap.slot j < tap.lens.length := by
  rw [h.lens]
  exact Nat.mod_lt j h.capacity

theorem isBlock_blockOf {samples : List ν} (h : tap.framesOf samples ≠ 0) :
    tap.IsBlock (tap.blockOf samples) := by
  refine ⟨tap.framesOf samples, Nat.pos_of_ne_zero h, Nat.min_le_right _ _, ?_⟩
  have hle : tap.framesOf samples * numChannels ≤ samples.length :=
    (Nat.mul_le_mul_right _ (Nat.min_le_left _ _)).trans (Nat.div_mul_le_self _ _)
  rw [blockOf, List.length_take, Nat.min_eq_left hle]

theorem IsBlock.length_le {block : List ν} (h : tap.IsBlock block) :
    block.length ≤ tap.maxFrames * numChannels := by
  obtain ⟨frames, _, hle, hlength⟩ := h
  rw [hlength]
  exact Nat.mul_le_mul_right _ hle

theorem IsBlock.div_lt {block : List ν} (h : tap.IsBlock block) (hsized : tap.Sized) :
    block.length / numChannels % 2 ^ 32 = block.length / numChannels := by
  obtain ⟨frames, _, hle, hlength⟩ := h
  have hframes := hsized.frames
  rw [hlength, Nat.mul_div_cancel frames (by decide), Nat.mod_eq_of_lt (hle.trans_lt hframes)]

/-- The samples of different slots are in different places. -/
theorem index_ne {j k i i' : ℕ} (hslot : tap.slot j ≠ tap.slot k) (hi : i < tap.maxFrames * numChannels)
    (hi' : i' < tap.maxFrames * numChannels) : tap.index j i ≠ tap.index k i' := by
  have hdiv : ∀ {slot x}, x < tap.maxFrames * numChannels →
      (slot * tap.maxFrames * numChannels + x) / (tap.maxFrames * numChannels) = slot := by
    intro slot x hx
    rw [Nat.mul_assoc, Nat.add_comm, Nat.add_mul_div_right _ _ (by omega), Nat.div_eq_of_lt hx, Nat.zero_add]
  intro heq
  have hj : tap.index j i / (tap.maxFrames * numChannels) = tap.slot j := hdiv hi
  have hk : tap.index k i' / (tap.maxFrames * numChannels) = tap.slot k := hdiv hi'
  exact hslot (hj.symm.trans ((congrArg (· / (tap.maxFrames * numChannels)) heq).trans hk))

theorem index_lt (hsized : tap.Sized) (j : ℕ) {i : ℕ} (hi : i < tap.maxFrames * numChannels) :
    tap.index j i < tap.ring.length := by
  have hslot : tap.slot j + 1 ≤ tap.capacity := Nat.mod_lt j hsized.capacity
  have hle := Nat.mul_le_mul_right (tap.maxFrames * numChannels) hslot
  rw [hsized.ring, index, Nat.mul_assoc, Nat.mul_assoc]
  rw [Nat.add_mul] at hle
  omega

/-- A sample written to the slot of another block leaves the block. -/
theorem Holds.set_ring {j w i : ℕ} {block : List ν} {sample : ν} (h : tap.Holds j block)
    (hblock : tap.IsBlock block) (hslot : tap.slot j ≠ tap.slot w) (hi : i < tap.maxFrames * numChannels) :
    ({ tap with ring := tap.ring.set (tap.index w i) sample } : PluginTap ν).Holds j block := by
  refine ⟨fun i' a hi' ha => ?_, h.len⟩
  have hne := index_ne hslot (hi'.trans_le hblock.length_le) hi
  show (tap.ring.set (tap.index w i) sample)[tap.index j i']? = some a
  rw [List.getElem?_set_ne hne.symm]
  exact h.samples i' a hi' ha

theorem Holds.set_lens {j w n : ℕ} {block : List ν} (h : tap.Holds j block)
    (hslot : tap.slot j ≠ tap.slot w) :
    ({ tap with lens := tap.lens.set (tap.slot w) n } : PluginTap ν).Holds j block := by
  refine ⟨h.samples, ?_⟩
  show (tap.lens.set (tap.slot w) n)[tap.slot j]? = _
  rw [List.getElem?_set_ne hslot.symm]
  exact h.len

/-- One sample more of a block copied. -/
theorem Copied.set_ring {w done : ℕ} {block : List ν} {sample : ν} (h : tap.Copied w block done)
    (hsized : tap.Sized) (hdone : done < tap.maxFrames * numChannels) (hsample : block[done]? = some sample) :
    ({ tap with ring := tap.ring.set (tap.index w done) sample } : PluginTap ν).Copied w block (done + 1) := by
  intro i a hi ha
  show (tap.ring.set (tap.index w done) sample)[tap.index w i]? = some a
  by_cases heq : i = done
  · subst heq
    rw [List.getElem?_set_self (index_lt hsized w hdone), ← hsample, ha]
  · have hne : tap.index w done ≠ tap.index w i := fun h => heq (Nat.add_left_cancel h).symm
    rw [List.getElem?_set_ne hne]
    exact h i a (by omega) ha

end PluginTap

namespace TapRun

variable {s : TapRun ν}

/-- What the publisher has done of its call. -/
def PublisherOk (s : TapRun ν) : Prop :=
  match s.publisher with
  | .idle | .refuse => True
  | .loadWrite block => s.tap.IsBlock block
  | .loadRead block w => s.tap.IsBlock block ∧ w = s.tap.write
  | .copy block w done =>
    s.tap.IsBlock block ∧ w = s.tap.write ∧ w < s.tap.read + s.tap.capacity ∧ s.tap.Copied w block done
  | .storeLen block w =>
    s.tap.IsBlock block ∧ w = s.tap.write ∧ w < s.tap.read + s.tap.capacity ∧
      s.tap.Copied w block block.length
  | .storeWrite block w =>
    s.tap.IsBlock block ∧ w = s.tap.write ∧ w < s.tap.read + s.tap.capacity ∧ s.tap.Holds w block

/-- What the taker has of the block that was the newest when it began. -/
def TakerOk (s : TapRun ν) : Prop :=
  match s.taker with
  | .idle => True
  | .loadRead w => s.tap.read ≤ w ∧ w ≤ s.tap.write
  | .loadLen w => s.tap.read < w ∧ w ≤ s.tap.write
  | .copy w frames out =>
    (s.tap.read < w ∧ w ≤ s.tap.write) ∧ ∃ block, s.published[w - 1]? = some block ∧
      block.length = frames * numChannels ∧ out <+: block
  | .storeRead w out =>
    (s.tap.read < w ∧ w ≤ s.tap.write) ∧ ∃ block, out = some block ∧ s.published[w - 1]? = some block

structure Inv (s : TapRun ν) : Prop where
  sized : s.tap.Sized
  count : s.tap.write = s.published.length
  room : s.tap.read ≤ s.tap.write ∧ s.tap.write ≤ s.tap.read + s.tap.capacity
  blocks : ∀ block ∈ s.published, s.tap.IsBlock block
  stored : ∀ j block, s.tap.read ≤ j → s.published[j]? = some block → s.tap.Holds j block
  publisher : s.PublisherOk
  taker : s.TakerOk
  taken : ∀ x ∈ s.taken, x.1 < s.tap.read ∧ s.published[x.1]? = some x.2
  order : (s.taken.map Prod.fst).Pairwise (· < ·)
  dropped : s.tap.dropped = s.results.count false

theorem inv_start [Zero ν] {maxFrames : ℕ} (h : maxFrames < 2 ^ 32) (capacity : ℕ) :
    (start maxFrames capacity : TapRun ν).Inv where
  sized := PluginTap.sized_withCapacity h capacity
  count := rfl
  room := ⟨Nat.le_refl 0, Nat.zero_le _⟩
  blocks := by
    intro block hblock
    cases hblock
  stored := by
    intro j block _ hj
    cases hj
  publisher := trivial
  taker := trivial
  taken := by
    intro x hx
    cases hx
  order := List.Pairwise.nil
  dropped := rfl

/-- The slot that the publisher fills holds none of the blocks still to be taken. -/
theorem slot_ne {j w : ℕ} (hread : s.tap.read ≤ j) (hlt : j < w) (hw : w < s.tap.read + s.tap.capacity) :
    s.tap.slot j ≠ s.tap.slot w :=
  mod_ne_mod hlt (by omega)

theorem Inv.lt_write (h : s.Inv) {j : ℕ} {block : List ν} (hj : s.published[j]? = some block) :
    j < s.tap.write :=
  h.count ▸ (List.getElem?_eq_some_iff.mp hj).1

theorem Inv.withPublisher (h : s.Inv) {p : Publisher ν} (hp : ({ s with publisher := p } : TapRun ν).PublisherOk) :
    ({ s with publisher := p } : TapRun ν).Inv :=
  ⟨h.sized, h.count, h.room, h.blocks, h.stored, hp, h.taker, h.taken, h.order, h.dropped⟩

theorem Inv.withTaker (h : s.Inv) {t : Taker ν} (ht : ({ s with taker := t } : TapRun ν).TakerOk) :
    ({ s with taker := t } : TapRun ν).Inv :=
  ⟨h.sized, h.count, h.room, h.blocks, h.stored, h.publisher, ht, h.taken, h.order, h.dropped⟩

/-! ## The steps of the publisher -/

theorem Inv.publish (h : s.Inv) (samples : List ν) : (s.publish samples).Inv := by
  unfold TapRun.publish
  split
  · split
    · exact h
    · rename_i hguard
      exact h.withPublisher (PluginTap.isBlock_blockOf fun hzero => hguard (Or.inr hzero))
  · exact h

theorem Inv.refuse (h : s.Inv) :
    ({ s with
      tap := { s.tap with dropped := s.tap.dropped + 1 }, publisher := .idle
      results := s.results ++ [false] } : TapRun ν).Inv := by
  refine ⟨⟨h.sized.capacity, h.sized.frames, h.sized.ring, h.sized.lens⟩, h.count, h.room, h.blocks,
    fun j block hread hj => ?_, trivial, h.taker, h.taken, h.order, ?_⟩
  · exact ⟨(h.stored j block hread hj).samples, (h.stored j block hread hj).len⟩
  · show s.tap.dropped + 1 = (s.results ++ [false]).count false
    rw [List.count_append, h.dropped]
    rfl

/-- A sample copied to the slot of the next block. -/
theorem Inv.copySample (h : s.Inv) {block : List ν} {w done : ℕ} {sample : ν}
    (hok : s.tap.IsBlock block ∧ w = s.tap.write ∧ w < s.tap.read + s.tap.capacity ∧ s.tap.Copied w block done)
    (hsample : block[done]? = some sample) :
    ({ s with
      tap := { s.tap with ring := s.tap.ring.set (s.tap.index w done) sample }
      publisher := .copy block w (done + 1) } : TapRun ν).Inv := by
  obtain ⟨hblock, hw, hroom, hcopied⟩ := hok
  have hdone : done < s.tap.maxFrames * numChannels :=
    (List.getElem?_eq_some_iff.mp hsample).1.trans_le hblock.length_le
  refine ⟨⟨h.sized.capacity, h.sized.frames, ?_, h.sized.lens⟩, h.count, h.room, h.blocks,
    fun j b hread hj => ?_, ⟨hblock, hw, hroom, ?_⟩, h.taker, h.taken, h.order, h.dropped⟩
  · exact List.length_set.trans h.sized.ring
  · have hslot := slot_ne hread (hw ▸ h.lt_write hj) hroom
    exact (h.stored j b hread hj).set_ring (h.blocks b (List.mem_of_getElem? hj)) hslot hdone
  · exact hcopied.set_ring h.sized hdone hsample

theorem Inv.storeLen (h : s.Inv) {block : List ν} {w : ℕ}
    (hok : s.tap.IsBlock block ∧ w = s.tap.write ∧ w < s.tap.read + s.tap.capacity ∧
      s.tap.Copied w block block.length) :
    ({ s with
      tap := { s.tap with lens := s.tap.lens.set (s.tap.slot w) (block.length / numChannels % 2 ^ 32) }
      publisher := .storeWrite block w } : TapRun ν).Inv := by
  obtain ⟨hblock, hw, hroom, hcopied⟩ := hok
  refine ⟨⟨h.sized.capacity, h.sized.frames, h.sized.ring, ?_⟩, h.count, h.room, h.blocks,
    fun j b hread hj => ?_, ⟨hblock, hw, hroom, hcopied, ?_⟩, h.taker, h.taken, h.order, h.dropped⟩
  · exact List.length_set.trans h.sized.lens
  · exact (h.stored j b hread hj).set_lens (slot_ne hread (hw ▸ h.lt_write hj) hroom)
  · show (s.tap.lens.set (s.tap.slot w) _)[s.tap.slot w]? = _
    rw [List.getElem?_set_self (h.sized.slot_lt w), hblock.div_lt h.sized]

theorem getElem?_published_append {j : ℕ} {b block : List ν} (hj : s.published[j]? = some b) :
    (s.published ++ [block])[j]? = some b := by
  rw [List.getElem?_append_left (List.getElem?_eq_some_iff.mp hj).1, hj]

/-- What the taker has stays what it has when one more block is published. -/
theorem TakerOk.publish (h : s.TakerOk) (block : List ν) (p : Publisher ν) (results : List Bool) :
    ({ s with
      tap := { s.tap with write := s.tap.write + 1 }, publisher := p, published := s.published ++ [block]
      results := results } : TapRun ν).TakerOk := by
  unfold TakerOk at h ⊢
  cases htaker : s.taker with
  | idle => trivial
  | loadRead w =>
    simp only [htaker] at h ⊢
    exact ⟨h.1, Nat.le_succ_of_le h.2⟩
  | loadLen w =>
    simp only [htaker] at h ⊢
    exact ⟨h.1, Nat.le_succ_of_le h.2⟩
  | copy w frames out =>
    simp only [htaker] at h ⊢
    obtain ⟨⟨hread, hw⟩, b, hb, hout⟩ := h
    exact ⟨⟨hread, Nat.le_succ_of_le hw⟩, b, getElem?_published_append hb, hout⟩
  | storeRead w out =>
    simp only [htaker] at h ⊢
    obtain ⟨⟨hread, hw⟩, b, hout, hb⟩ := h
    exact ⟨⟨hread, Nat.le_succ_of_le hw⟩, b, hout, getElem?_published_append hb⟩

theorem Inv.storeWrite (h : s.Inv) {block : List ν} {w : ℕ}
    (hok : s.tap.IsBlock block ∧ w = s.tap.write ∧ w < s.tap.read + s.tap.capacity ∧ s.tap.Holds w block) :
    ({ s with
      tap := { s.tap with write := w + 1 }, publisher := .idle
      published := s.published ++ [block], results := s.results ++ [true] } : TapRun ν).Inv := by
  obtain ⟨hblock, rfl, hroom, hholds⟩ := hok
  refine ⟨⟨h.sized.capacity, h.sized.frames, h.sized.ring, h.sized.lens⟩, ?_,
    ⟨Nat.le_succ_of_le h.room.1, hroom⟩, ?_, fun j b hread hj => ?_, trivial, h.taker.publish block _ _,
    fun x hx => ⟨(h.taken x hx).1, getElem?_published_append (h.taken x hx).2⟩, h.order, ?_⟩
  · show s.tap.write + 1 = (s.published ++ [block]).length
    rw [List.length_append, h.count]
    rfl
  · intro b hb
    obtain hb | hb := List.mem_append.mp hb
    · exact h.blocks b hb
    · exact (List.mem_singleton.mp hb) ▸ hblock
  · obtain hlt | hge := Nat.lt_or_ge j s.published.length
    · rw [List.getElem?_append_left hlt] at hj
      exact ⟨(h.stored j b hread hj).samples, (h.stored j b hread hj).len⟩
    · rw [List.getElem?_append_right hge, List.getElem?_singleton] at hj
      split at hj
      · have hj' : j = s.tap.write := by
          rw [h.count]
          omega
        rw [← Option.some.inj hj, hj']
        exact ⟨hholds.samples, hholds.len⟩
      · cases hj
  · show s.tap.dropped = (s.results ++ [true]).count false
    rw [List.count_append, h.dropped]
    rfl

theorem Inv.stepPublisher (h : s.Inv) : s.stepPublisher.Inv := by
  have hok := h.publisher
  unfold PublisherOk at hok
  unfold TapRun.stepPublisher
  cases hp : s.publisher with
  | idle => exact h
  | loadWrite block =>
    rw [hp] at hok
    exact h.withPublisher ⟨hok, rfl⟩
  | loadRead block w =>
    simp only [hp] at hok ⊢
    split
    · exact h.withPublisher trivial
    · refine h.withPublisher ⟨hok.1, hok.2, ?_, fun i _ hi => absurd hi (Nat.not_lt_zero i)⟩
      have hle := h.room.1
      have hw := hok.2
      show w < s.tap.read + s.tap.capacity
      omega
  | refuse => exact h.refuse
  | copy block w done =>
    simp only [hp] at hok ⊢
    cases hsample : block[done]? with
    | some sample => exact h.copySample hok hsample
    | none =>
      obtain ⟨hblock, hw, hroom, hcopied⟩ := hok
      have hdone : block.length ≤ done := List.getElem?_eq_none_iff.mp hsample
      exact h.withPublisher ⟨hblock, hw, hroom, fun i a hi => hcopied i a (hi.trans_le hdone)⟩
  | storeLen block w =>
    rw [hp] at hok
    exact h.storeLen hok
  | storeWrite block w =>
    rw [hp] at hok
    exact h.storeWrite hok

/-! ## The steps of the taker -/

theorem Inv.take (h : s.Inv) : s.take.Inv := by
  unfold TapRun.take
  split
  · exact h.withTaker ⟨h.room.1, Nat.le_refl _⟩
  · exact h

/-- The block that the taker is about to copy. -/
theorem Inv.newest (h : s.Inv) {w : ℕ} (hw : s.tap.read < w ∧ w ≤ s.tap.write) :
    ∃ block, s.published[w - 1]? = some block ∧ s.tap.IsBlock block ∧ s.tap.Holds (w - 1) block := by
  have hlt : w - 1 < s.published.length := by
    rw [← h.count]
    omega
  have hget := List.getElem?_eq_getElem hlt
  exact ⟨_, hget, h.blocks _ (List.getElem_mem hlt), h.stored _ _ (by omega) hget⟩

theorem Inv.loadLen [Zero ν] (h : s.Inv) {w : ℕ} (htaker : s.taker = .loadLen w)
    (hw : s.tap.read < w ∧ w ≤ s.tap.write) : s.stepTaker.Inv := by
  obtain ⟨block, hblock, ⟨frames, hpos, hle, hlength⟩, hholds⟩ := h.newest hw
  have hlen : s.tap.lens.getD (s.tap.slot (w - 1)) 0 = frames := by
    rw [List.getD_eq_getElem?_getD, hholds.len, hlength, Option.getD_some,
      Nat.mul_div_cancel frames (by decide)]
  have hne : frames * numChannels ≠ 0 := (Nat.mul_pos hpos (by decide)).ne'
  unfold TapRun.stepTaker
  simp only [htaker, hlen, Nat.min_eq_left hle, if_neg hne]
  exact h.withTaker ⟨hw, block, hblock, hlength, List.nil_prefix⟩

/-- A sample copied is that of the block. -/
theorem prefix_concat {out block : List ν} {sample : ν} (h : out <+: block)
    (hsample : block[out.length]? = some sample) : out ++ [sample] <+: block := by
  obtain ⟨rest, rfl⟩ := h
  rw [List.getElem?_append_right (Nat.le_refl _), Nat.sub_self] at hsample
  cases rest with
  | nil => cases hsample
  | cons a rest =>
    obtain rfl := Option.some.inj hsample
    exact ⟨rest, by simp⟩

theorem Inv.copyOut [Zero ν] (h : s.Inv) {w frames : ℕ} {out : List ν} (htaker : s.taker = .copy w frames out)
    (hok : (s.tap.read < w ∧ w ≤ s.tap.write) ∧ ∃ block, s.published[w - 1]? = some block ∧
      block.length = frames * numChannels ∧ out <+: block) : s.stepTaker.Inv := by
  obtain ⟨hw, block, hblock, hlength, hprefix⟩ := hok
  unfold TapRun.stepTaker
  simp only [htaker]
  split
  · rename_i hmore
    rw [← hlength] at hmore
    have hholds := h.stored (w - 1) block (by omega) hblock
    have hsample := List.getElem?_eq_getElem hmore
    have hread := hholds.samples out.length _ hmore hsample
    rw [List.getD_eq_getElem?_getD, hread, Option.getD_some]
    exact h.withTaker ⟨hw, block, hblock, hlength, prefix_concat hprefix hsample⟩
  · rename_i hdone
    have hout : out = block := hprefix.eq_of_length_le (by omega)
    exact h.withTaker ⟨hw, block, congrArg some hout, hblock⟩

/-- The room that the publisher has found only grows when a block is taken. -/
theorem PublisherOk.take (h : s.PublisherOk) {w : ℕ} (hw : s.tap.read ≤ w) (t : Taker ν)
    (taken : List (ℕ × List ν)) :
    ({ s with tap := { s.tap with read := w }, taker := t, taken := taken } : TapRun ν).PublisherOk := by
  have hroom : ∀ {n}, n < s.tap.read + s.tap.capacity → n < w + s.tap.capacity := by
    intro n hn
    omega
  unfold PublisherOk at h ⊢
  cases hp : s.publisher with
  | idle => trivial
  | refuse => trivial
  | loadWrite block =>
    rw [hp] at h
    exact h
  | loadRead block w' =>
    rw [hp] at h
    exact h
  | copy block w' done =>
    rw [hp] at h
    exact ⟨h.1, h.2.1, hroom h.2.2.1, h.2.2.2⟩
  | storeLen block w' =>
    rw [hp] at h
    exact ⟨h.1, h.2.1, hroom h.2.2.1, h.2.2.2⟩
  | storeWrite block w' =>
    rw [hp] at h
    exact ⟨h.1, h.2.1, hroom h.2.2.1, h.2.2.2.samples, h.2.2.2.len⟩

theorem Inv.storeRead (h : s.Inv) {w : ℕ} {block : List ν} (hw : s.tap.read < w ∧ w ≤ s.tap.write)
    (hblock : s.published[w - 1]? = some block) :
    ({ s with
      tap := { s.tap with read := w }, taker := .idle
      taken := s.taken ++ [(w - 1, block)] } : TapRun ν).Inv := by
  have hroom := h.room
  refine ⟨⟨h.sized.capacity, h.sized.frames, h.sized.ring, h.sized.lens⟩, h.count, ⟨hw.2, ?_⟩, h.blocks,
    fun j b hread hj => ?_, h.publisher.take hw.1.le _ _, trivial, fun x hx => ?_, ?_, h.dropped⟩
  · show s.tap.write ≤ w + s.tap.capacity
    omega
  · have hholds := h.stored j b (hw.1.le.trans hread) hj
    exact ⟨hholds.samples, hholds.len⟩
  · show x.1 < w ∧ s.published[x.1]? = some x.2
    obtain hx | hx := List.mem_append.mp hx
    · exact ⟨(h.taken x hx).1.trans hw.1, (h.taken x hx).2⟩
    · rw [List.mem_singleton.mp hx]
      exact ⟨by omega, hblock⟩
  · show ((s.taken ++ [(w - 1, block)]).map Prod.fst).Pairwise (· < ·)
    rw [List.map_append, List.pairwise_append]
    refine ⟨h.order, List.pairwise_singleton _ _, fun j hj k hk => ?_⟩
    obtain ⟨x, hx, rfl⟩ := List.mem_map.mp hj
    have hlt := (h.taken x hx).1
    rw [List.mem_singleton.mp hk]
    omega

theorem Inv.stepTaker [Zero ν] (h : s.Inv) : s.stepTaker.Inv := by
  have hok := h.taker
  unfold TakerOk at hok
  cases htaker : s.taker with
  | idle =>
    rw [TapRun.stepTaker, htaker]
    exact h
  | loadRead w =>
    unfold TapRun.stepTaker
    simp only [htaker] at hok ⊢
    split
    · exact h.withTaker trivial
    · exact h.withTaker ⟨Nat.lt_of_not_le (by assumption), hok.2⟩
  | loadLen w =>
    simp only [htaker] at hok
    exact h.loadLen htaker hok
  | copy w frames out =>
    simp only [htaker] at hok
    exact h.copyOut htaker hok
  | storeRead w out =>
    simp only [htaker] at hok
    obtain ⟨hw, block, rfl, hblock⟩ := hok
    rw [TapRun.stepTaker, htaker]
    exact h.storeRead hw hblock

theorem Inv.act [Zero ν] (h : s.Inv) (a : TapAct ν) : (s.act a).Inv := by
  have hconsumers : ∀ n, ({ s with tap := { s.tap with consumers := n } } : TapRun ν).Inv := by
    intro n
    have hpublisher : ({ s with tap := { s.tap with consumers := n } } : TapRun ν).PublisherOk := by
      have hok := h.publisher
      unfold PublisherOk at hok ⊢
      cases hp : s.publisher with
      | storeWrite block w =>
        rw [hp] at hok
        exact ⟨hok.1, hok.2.1, hok.2.2.1, hok.2.2.2.samples, hok.2.2.2.len⟩
      | _ =>
        rw [hp] at hok
        exact hok
    exact ⟨⟨h.sized.capacity, h.sized.frames, h.sized.ring, h.sized.lens⟩, h.count, h.room, h.blocks,
      fun j b hread hj => ⟨(h.stored j b hread hj).samples, (h.stored j b hread hj).len⟩, hpublisher,
      h.taker, h.taken, h.order, h.dropped⟩
  cases a with
  | publish samples => exact h.publish samples
  | publisher => exact h.stepPublisher
  | take => exact h.take
  | taker => exact h.stepTaker
  | attachConsumer => exact hconsumers _
  | detachConsumer => exact hconsumers _

/-! ## What holds in every state -/

/-- What the taker copies is a block still to be taken, and so not in the slot that the publisher fills. -/
theorem Inv.apart (h : s.Inv) {a b : ℕ} (ha : s.writing = some a) (hb : s.reading = some b) : a ≠ b := by
  obtain ⟨w, rfl, hw, hroom⟩ : ∃ w, a = s.tap.slot w ∧ w = s.tap.write ∧ w < s.tap.read + s.tap.capacity := by
    have hok := h.publisher
    unfold PublisherOk at hok
    unfold writing at ha
    split at ha
    · rename_i hp
      rw [hp] at hok
      exact ⟨_, (Option.some.inj ha).symm, hok.2.1, hok.2.2.1⟩
    · rename_i hp
      rw [hp] at hok
      exact ⟨_, (Option.some.inj ha).symm, hok.2.1, hok.2.2.1⟩
    · cases ha
  obtain ⟨j, rfl, hread, hlt⟩ : ∃ j, b = s.tap.slot j ∧ s.tap.read ≤ j ∧ j < s.tap.write := by
    have hok := h.taker
    unfold TakerOk at hok
    unfold reading at hb
    split at hb
    · rename_i w' ht
      simp only [ht] at hok
      exact ⟨w' - 1, (Option.some.inj hb).symm, by omega, by omega⟩
    · rename_i w' _ _ ht
      simp only [ht] at hok
      exact ⟨w' - 1, (Option.some.inj hb).symm, by omega, by omega⟩
    · cases hb
  exact (slot_ne hread (hw ▸ hlt) hroom).symm

theorem Inv.safe (h : s.Inv) : s.Safe where
  apart := fun _ _ ha hb => h.apart ha hb
  whole := fun x hx => (h.taken x hx).2
  order := h.order
  room := ⟨h.room.1, by have hroom := h.room; omega⟩
  dropped := h.dropped

/-- Whatever the order of the steps of the two threads, every state of the tap is safe. -/
theorem always_safe [Zero ν] {maxFrames : ℕ} (hframes : maxFrames < 2 ^ 32) (capacity : ℕ)
    (acts : List (TapAct ν)) : Always (fun s a => s.act a) Safe (start maxFrames capacity) acts := by
  have hinv : Always (fun s a => s.act a) Inv (start maxFrames capacity : TapRun ν) acts :=
    always_of_step (fun _ a h => h.act a) (inv_start hframes capacity)
  exact hinv.mono fun _ h => h.safe

/-- A block of one frame, taken while the next is on its way. -/
def oneFrame : List (TapAct ℕ) :=
  [.attachConsumer, .publish [7, 8]] ++ List.replicate 7 .publisher ++ [.publish [9, 10], .take] ++
    List.replicate 3 .publisher ++ List.replicate 6 .taker

theorem always_safe_oneFrame : Always (fun s a => s.act a) Safe (start maxBlockFrames 8) oneFrame :=
  always_safe (by decide) 8 oneFrame

example : (oneFrame.foldl (fun s a => s.act a) (start 1 2)).taken = [(0, [7, 8])] := by
  decide

end TapRun

end HikaruOpenLive.PluginHost
