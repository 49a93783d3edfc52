import HikaruOpenLive.PluginHost.TapInterleavings

/-! # The audio of a plugin's window

Every tick the window's thread hands one block to its copy of the plugin (`pump_plugin`). The buffer
that takes the newest block of the tap is the one the plugin rewrites, and it is handed over again when
no block has come. Then the plugin gets its own output, lengthened with zeros if the last block was a
short one.

A tick begins with `take` and goes on when that has ended; the steps of the audio thread may come at
any time.
-/
set_option autoImplicit false

namespace HikaruOpenLive.PluginHost

open Foundations.Runs

variable {σ ν : Type}

/-- A plugin, which rewrites the buffer it is given. -/
structure WindowPlugin (σ ν : Type) where
  process : σ → List ν → σ × List ν
  length_process : ∀ s samples, (process s samples).2.length = samples.length

def Taker.isIdle : Taker ν → Bool
  | .idle => true
  | _ => false

section

variable [Zero ν]

/-- `Vec::resize` if the buffer is shorter. -/
def grown (capacity : ℕ) (scratch : List ν) : List ν :=
  if scratch.length < capacity then scratch ++ List.replicate (capacity - scratch.length) 0
  else scratch

/-- The buffer as `process` gets it, and whether it counts as filled. `feed` is the size of the tap, if
there is one, with the block that `take` brought. -/
def pumpPlugin (feed : Option (ℕ × Option (List ν))) (scratch : List ν) (primed : Bool) :
    List ν × Bool :=
  match feed with
  | some (maxFrames, taken) =>
    let scratch := grown (maxFrames * numChannels) scratch
    let (scratch, primed) :=
      match taken with
      | some block => (block, true)
      | none => (scratch, primed)
    (if primed then scratch else scratch.map fun _ => 0, primed)
  | none =>
    if primed then (scratch, true)
    else (List.replicate (maxBlockFrames * numChannels) 0, true)

end

/-- The window's thread over its tap. `seen` counts the blocks that were taken before this tick; what the
plugin got is in `handed`, each with the last block taken until then. -/
structure PumpRun (σ ν : Type) where
  feed : Option (TapRun ν)
  ticking : Bool
  seen : ℕ
  scratch : List ν
  primed : Bool
  plugin : σ
  handed : List (List ν × Option (List ν))

/-- A step of the audio thread, of `take`, or of the window's thread. -/
inductive PumpAct (ν : Type) where
  | publish (samples : List ν)
  | publisher
  | taker
  | attachConsumer
  | detachConsumer
  | tick
  | finish

namespace PumpRun

/-- The last block taken. -/
def lastTaken (s : PumpRun σ ν) : Option (List ν) :=
  s.feed.bind fun tap => tap.taken.getLast?.map Prod.snd

/-- Hands over a buffer, unless it holds no frame. -/
def hand (plugin : WindowPlugin σ ν) (s : PumpRun σ ν) (block : List ν × Bool) : PumpRun σ ν :=
  if block.1.length / numChannels = 0 then { s with scratch := block.1, primed := block.2 }
  else
    let r := plugin.process s.plugin block.1
    { s with
      scratch := r.2, primed := block.2, plugin := r.1
      handed := s.handed ++ [(block.1, s.lastTaken)] }

/-- What `take` has brought in this tick. -/
def fresh (s : PumpRun σ ν) (tap : TapRun ν) : Option (List ν) :=
  if s.seen < tap.taken.length then tap.taken.getLast?.map Prod.snd else none

theorem hand_eq {plugin : WindowPlugin σ ν} {s : PumpRun σ ν} {block : List ν × Bool}
    (h : block.1.length / numChannels ≠ 0) :
    s.hand plugin block =
      { s with
        scratch := (plugin.process s.plugin block.1).2, primed := block.2
        plugin := (plugin.process s.plugin block.1).1
        handed := s.handed ++ [(block.1, s.lastTaken)] } :=
  if_neg h

variable [Zero ν]

/-- The window before its first tick; `feed` has the sizes of its tap. -/
def start (feed : Option (ℕ × ℕ)) (plugin : σ) : PumpRun σ ν :=
  { feed := feed.map fun sizes => .start sizes.1 sizes.2
    ticking := false, seen := 0, scratch := [], primed := false, plugin := plugin, handed := [] }

def onTap (s : PumpRun σ ν) (a : TapAct ν) : PumpRun σ ν :=
  { s with feed := s.feed.map fun tap => tap.act a }

def step (plugin : WindowPlugin σ ν) (s : PumpRun σ ν) : PumpAct ν → PumpRun σ ν
  | .publish samples => s.onTap (.publish samples)
  | .publisher => s.onTap .publisher
  | .taker => s.onTap .taker
  | .attachConsumer => s.onTap .attachConsumer
  | .detachConsumer => s.onTap .detachConsumer
  | .tick =>
    match s.feed with
    | none => s.hand plugin (pumpPlugin none s.scratch s.primed)
    | some _ => if s.ticking then s else { s.onTap .take with ticking := true }
  | .finish =>
    match s.feed with
    | none => s
    | some tap =>
      if s.ticking ∧ tap.taker.isIdle then
        { s.hand plugin (pumpPlugin (some (tap.tap.maxFrames, s.fresh tap)) s.scratch s.primed) with
          ticking := false, seen := tap.taken.length }
      else s

/-! ## What is asked of a run -/

/-- The plugin gets the last block taken, or silence as long as there was none. -/
def Given (x : List ν × Option (List ν)) : Prop :=
  match x.2 with
  | some block => x.1 = block
  | none => ∀ sample ∈ x.1, sample = 0

/-- Whatever the plugin gets is the last block taken or silence, and the blocks taken were published, in
that order. -/
structure Fed (s : PumpRun σ ν) : Prop where
  handed : ∀ x ∈ s.handed, Given x
  published : ∀ tap ∈ s.feed, ∀ x ∈ tap.taken, tap.published[x.1]? = some x.2
  order : ∀ tap ∈ s.feed, (tap.taken.map Prod.fst).Pairwise (· < ·)

/-- The step hands a buffer over. -/
def Pumps (s : PumpRun σ ν) : PumpAct ν → Prop
  | .tick => s.feed = none
  | .finish => ∃ tap, s.feed = some tap ∧ s.ticking = true ∧ tap.taker.isIdle = true
  | _ => False

/-- Without a new block, the plugin has left the buffer as the last block was: silent without a tap, and
with one the block, which filled the buffer. -/
def LeftAlone (s : PumpRun σ ν) : Prop :=
  match s.feed with
  | none => s.primed = true → ∀ sample ∈ s.scratch, sample = 0
  | some tap =>
    tap.taken.length ≤ s.seen → 0 < s.seen →
      s.lastTaken = some s.scratch ∧ tap.tap.maxFrames * numChannels ≤ s.scratch.length

/-! ## One buffer -/

theorem length_grown (capacity : ℕ) (scratch : List ν) :
    (grown capacity scratch).length = max capacity scratch.length := by
  unfold grown
  split
  · rw [List.length_append, List.length_replicate]
    omega
  · omega

/-- A buffer as long as the block, or as long as it can get, grows to the block if it is the block and
has no room left. -/
theorem grown_eq_iff {capacity : ℕ} {scratch block : List ν}
    (h : scratch.length = block.length ∨ scratch.length = capacity) :
    grown capacity scratch = block ↔ block = scratch ∧ capacity ≤ scratch.length := by
  constructor
  · intro heq
    have hlength := length_grown capacity scratch
    rw [heq] at hlength
    have hfull : capacity ≤ scratch.length := by omega
    rw [grown, if_neg (by omega)] at heq
    exact ⟨heq.symm, hfull⟩
  · rintro ⟨rfl, hfull⟩
    rw [grown, if_neg (by omega)]

/-! ## Steps of the tap -/

/-- No step changes the size of the tap or takes back what was taken. -/
theorem act_spec (t : TapRun ν) (a : TapAct ν) :
    (t.act a).tap.maxFrames = t.tap.maxFrames ∧ t.taken <+: (t.act a).taken := by
  have hconsumers : ∀ n, ({ t with tap := { t.tap with consumers := n } } : TapRun ν).tap.maxFrames =
      t.tap.maxFrames ∧ t.taken <+: ({ t with tap := { t.tap with consumers := n } } : TapRun ν).taken :=
    fun _ => ⟨rfl, List.prefix_refl _⟩
  cases a with
  | publish samples =>
    simp only [TapRun.act, TapRun.publish]
    split
    · split <;> exact ⟨rfl, List.prefix_refl _⟩
    · exact ⟨rfl, List.prefix_refl _⟩
  | publisher =>
    simp only [TapRun.act, TapRun.stepPublisher]
    split
    case h_3 => split <;> exact ⟨rfl, List.prefix_refl _⟩
    case h_5 => split <;> exact ⟨rfl, List.prefix_refl _⟩
    all_goals exact ⟨rfl, List.prefix_refl _⟩
  | take =>
    simp only [TapRun.act, TapRun.take]
    split <;> exact ⟨rfl, List.prefix_refl _⟩
  | taker =>
    simp only [TapRun.act, TapRun.stepTaker]
    split
    case h_2 => split <;> exact ⟨rfl, List.prefix_refl _⟩
    case h_3 => split <;> exact ⟨rfl, List.prefix_refl _⟩
    case h_4 => split <;> exact ⟨rfl, List.prefix_refl _⟩
    case h_5 => exact ⟨rfl, List.prefix_append _ _⟩
    all_goals exact ⟨rfl, List.prefix_refl _⟩
  | attachConsumer => exact hconsumers _
  | detachConsumer => exact hconsumers _

theorem maxFrames_act (t : TapRun ν) (a : TapAct ν) : (t.act a).tap.maxFrames = t.tap.maxFrames :=
  (act_spec t a).1

theorem taken_act (t : TapRun ν) (a : TapAct ν) : t.taken <+: (t.act a).taken :=
  (act_spec t a).2

/-! ## What every step keeps -/

/-- The buffer is as long as the block of the last tick or as long as it can get. -/
structure Inv (s : PumpRun σ ν) : Prop where
  tap : ∀ tap ∈ s.feed, tap.Inv ∧ 0 < tap.tap.maxFrames
  seen : ∀ tap ∈ s.feed, s.seen ≤ tap.taken.length
  primed : ∀ tap ∈ s.feed, (s.primed = true ↔ 0 < s.seen)
  sized : ∀ tap ∈ s.feed, ∀ x, 0 < s.seen → tap.taken[s.seen - 1]? = some x →
    s.scratch.length = x.2.length ∨ s.scratch.length = tap.tap.maxFrames * numChannels
  dry : s.feed = none → s.primed = true → s.scratch.length = maxBlockFrames * numChannels

theorem inv_start {feed : Option (ℕ × ℕ)} (h : ∀ sizes ∈ feed, sizes.1 < 2 ^ 32) (plugin : σ) :
    (start feed plugin : PumpRun σ ν).Inv := by
  have hnone : ∀ P : Prop, (start feed plugin : PumpRun σ ν).primed = true → P :=
    fun _ hprimed => Bool.noConfusion hprimed
  have hzero : ∀ P : Prop, 0 < (start feed plugin : PumpRun σ ν).seen → P :=
    fun _ hseen => absurd hseen (Nat.lt_irrefl 0)
  refine ⟨?_, fun tap _ => Nat.zero_le _, fun tap _ => ⟨hnone _, hzero _⟩, fun tap _ x hseen => hzero _ hseen,
    fun _ => hnone _⟩
  intro tap htap
  obtain ⟨sizes, hsizes, rfl⟩ := Option.map_eq_some_iff.mp htap
  refine ⟨TapRun.inv_start (h sizes hsizes) sizes.2, ?_⟩
  show 0 < max sizes.1 1
  omega

variable {plugin : WindowPlugin σ ν} {s : PumpRun σ ν}

theorem Inv.onTap (h : s.Inv) (a : TapAct ν) : (s.onTap a).Inv := by
  have hold : ∀ tap ∈ (s.onTap a).feed, ∃ t ∈ s.feed, tap = t.act a := by
    intro tap htap
    obtain ⟨t, ht, rfl⟩ := Option.map_eq_some_iff.mp htap
    exact ⟨t, ht, rfl⟩
  refine ⟨?_, ?_, ?_, ?_, fun hfeed => h.dry (Option.map_eq_none_iff.mp hfeed)⟩
  · intro tap htap
    obtain ⟨t, ht, rfl⟩ := hold tap htap
    obtain ⟨hinv, hframes⟩ := h.tap t ht
    exact ⟨hinv.act a, by rw [maxFrames_act]; exact hframes⟩
  · intro tap htap
    obtain ⟨t, ht, rfl⟩ := hold tap htap
    exact (h.seen t ht).trans (taken_act t a).length_le
  · intro tap htap
    obtain ⟨t, ht, rfl⟩ := hold tap htap
    exact h.primed t ht
  · intro tap htap x hseen hx
    obtain ⟨t, ht, rfl⟩ := hold tap htap
    rw [maxFrames_act]
    -- What was taken before stays where it was in the list.
    have hlt : s.seen - 1 < t.taken.length := by
      have hle := h.seen t ht
      have hpos : 0 < s.seen := hseen
      omega
    have hsame : t.taken[s.seen - 1]? = some x := by
      rw [List.getElem?_eq_getElem hlt, ← List.prefix_iff_getElem?.mp (taken_act t a) _ hlt]
      exact hx
    exact h.sized t ht x hseen hsame

/-- A tick without a tap. -/
theorem tick_dry (plugin : WindowPlugin σ ν) (h : s.Inv) (hfeed : s.feed = none) :
    (s.step plugin .tick).Inv ∧ ∃ x, (s.step plugin .tick).handed = s.handed ++ [x] ∧
      (Given x ↔ s.LeftAlone) := by
  have hstep : s.step plugin .tick = s.hand plugin (pumpPlugin none s.scratch s.primed) := by
    rw [step, hfeed]
  have hblock : (pumpPlugin none s.scratch s.primed).1.length = maxBlockFrames * numChannels ∧
      (pumpPlugin none s.scratch s.primed).2 = true := by
    unfold pumpPlugin
    cases hprimed : s.primed with
    | true => exact ⟨h.dry hfeed hprimed, rfl⟩
    | false => exact ⟨List.length_replicate, rfl⟩
  obtain ⟨hlength, hprimed⟩ := hblock
  have hne : (pumpPlugin none s.scratch s.primed).1.length / numChannels ≠ 0 := by
    rw [hlength]
    decide
  have hlast : s.lastTaken = none := by rw [lastTaken, hfeed, Option.bind_none]
  rw [hstep, hand_eq hne, hlast]
  have hno : ∀ (P : TapRun ν → Prop), ∀ tap ∈ s.feed, P tap := by
    intro P tap htap
    rw [hfeed] at htap
    cases htap
  refine ⟨⟨hno _, hno _, hno _, hno _, fun _ _ => (plugin.length_process _ _).trans hlength⟩, _, rfl, ?_⟩
  rw [LeftAlone, hfeed]
  show (∀ sample ∈ (pumpPlugin none s.scratch s.primed).1, sample = 0) ↔ _
  unfold pumpPlugin
  cases s.primed with
  | true => exact ⟨fun hzero _ => hzero, fun hzero => hzero rfl⟩
  | false =>
    exact ⟨fun _ hfalse => Bool.noConfusion hfalse, fun _ sample hmem => List.eq_of_mem_replicate hmem⟩

/-- What a tick hands over: filled if a block has come by then, of a frame at least, as long as the last
block or as long as it can get, and right if the plugin has left the buffer alone. -/
structure Pumped (s : PumpRun σ ν) (tap : TapRun ν) (block : List ν × Bool) : Prop where
  primed : block.2 = true ↔ 0 < tap.taken.length
  long : 2 ≤ block.1.length
  sized : ∀ x, tap.taken.getLast? = some x →
    block.1.length = x.2.length ∨ block.1.length = tap.tap.maxFrames * numChannels
  given : Given (block.1, s.lastTaken) ↔ s.LeftAlone

theorem pumped_fresh (h : s.Inv) {tap : TapRun ν} (hfeed : s.feed = some tap)
    (hfresh : s.seen < tap.taken.length) :
    s.Pumped tap (pumpPlugin (some (tap.tap.maxFrames, s.fresh tap)) s.scratch s.primed) := by
  obtain ⟨hinv, _⟩ := h.tap tap hfeed
  obtain ⟨x, hx⟩ : ∃ x, tap.taken.getLast? = some x :=
    ⟨_, List.getLast?_eq_some_getLast (List.ne_nil_of_length_pos (by omega))⟩
  have hblock : pumpPlugin (some (tap.tap.maxFrames, s.fresh tap)) s.scratch s.primed = (x.2, true) := by
    rw [fresh, if_pos hfresh, hx]
    rfl
  have hlast : s.lastTaken = some x.2 := by
    rw [lastTaken, hfeed, Option.bind_some, hx]
    rfl
  obtain ⟨frames, hpos, _, hlength⟩ :=
    hinv.blocks x.2 (List.mem_of_getElem? (hinv.taken x (List.mem_of_getLast? hx)).2)
  rw [hblock]
  refine ⟨⟨fun _ => by omega, fun _ => rfl⟩, ?_, ?_, ?_⟩
  · have hchannels : numChannels = 2 := rfl
    show 2 ≤ x.2.length
    rw [hlength, hchannels]
    omega
  · intro y hy
    obtain rfl := Option.some.inj (hx.symm.trans hy)
    exact Or.inl rfl
  · rw [hlast, LeftAlone, hfeed]
    exact ⟨fun _ hle => absurd hfresh (by omega), fun _ => rfl⟩

theorem pumped_again (h : s.Inv) {tap : TapRun ν} (hfeed : s.feed = some tap)
    (hfresh : s.seen = tap.taken.length) :
    s.Pumped tap (pumpPlugin (some (tap.tap.maxFrames, s.fresh tap)) s.scratch s.primed) := by
  obtain ⟨hinv, hframes⟩ := h.tap tap hfeed
  have hchannels : numChannels = 2 := rfl
  have hnone : s.fresh tap = none := by rw [fresh, if_neg (by omega)]
  have hgrown := length_grown (tap.tap.maxFrames * numChannels) s.scratch
  rw [hnone]
  cases hprimed : s.primed with
  | false =>
    have hzero : ¬ 0 < s.seen := fun hpos => by
      rw [(h.primed tap hfeed).mpr hpos] at hprimed
      exact Bool.noConfusion hprimed
    have hnil : tap.taken = [] := List.eq_nil_of_length_eq_zero (by omega)
    have hlast : s.lastTaken = none := by
      rw [lastTaken, hfeed, Option.bind_some, hnil]
      rfl
    refine ⟨⟨fun hfalse => Bool.noConfusion hfalse, fun hpos => absurd hpos (by omega)⟩, ?_, ?_, ?_⟩
    · show 2 ≤ ((grown (tap.tap.maxFrames * numChannels) s.scratch).map fun _ => 0).length
      rw [List.length_map, hgrown, hchannels]
      omega
    · intro x hx
      rw [hnil] at hx
      cases hx
    · rw [hlast, LeftAlone, hfeed]
      refine ⟨fun _ _ hpos => absurd hpos hzero, fun _ sample hmem => ?_⟩
      obtain ⟨_, _, rfl⟩ := List.mem_map.mp hmem
      rfl
  | true =>
    have hpos : 0 < s.seen := (h.primed tap hfeed).mp hprimed
    obtain ⟨x, hx⟩ : ∃ x, tap.taken.getLast? = some x :=
      ⟨_, List.getLast?_eq_some_getLast (List.ne_nil_of_length_pos (by omega))⟩
    have hlast : s.lastTaken = some x.2 := by
      rw [lastTaken, hfeed, Option.bind_some, hx]
      rfl
    have hsized : s.scratch.length = x.2.length ∨
        s.scratch.length = tap.tap.maxFrames * numChannels := by
      refine h.sized tap hfeed x hpos ?_
      rw [hfresh, ← List.getLast?_eq_getElem?]
      exact hx
    have hroom : x.2.length ≤ tap.tap.maxFrames * numChannels :=
      (hinv.blocks x.2 (List.mem_of_getElem? (hinv.taken x (List.mem_of_getLast? hx)).2)).length_le
    refine ⟨⟨fun _ => by omega, fun _ => rfl⟩, ?_, ?_, ?_⟩
    · show 2 ≤ (grown (tap.tap.maxFrames * numChannels) s.scratch).length
      rw [hgrown, hchannels]
      omega
    · intro y hy
      obtain rfl := Option.some.inj (hx.symm.trans hy)
      show (grown (tap.tap.maxFrames * numChannels) s.scratch).length = x.2.length ∨
        (grown (tap.tap.maxFrames * numChannels) s.scratch).length = tap.tap.maxFrames * numChannels
      rw [hgrown]
      omega
    · rw [hlast, LeftAlone, hfeed, hlast]
      show grown (tap.tap.maxFrames * numChannels) s.scratch = x.2 ↔ _
      rw [grown_eq_iff hsized]
      constructor
      · rintro ⟨hleft, hfull⟩ _ _
        exact ⟨by rw [hleft], hfull⟩
      · intro hkept
        obtain ⟨hleft, hfull⟩ := hkept (by omega) hpos
        exact ⟨Option.some.inj hleft, hfull⟩

/-- A tick whose `take` has ended. -/
theorem finish_tick (plugin : WindowPlugin σ ν) (h : s.Inv) {tap : TapRun ν}
    (hfeed : s.feed = some tap) (hdone : s.ticking = true ∧ tap.taker.isIdle = true) :
    (s.step plugin .finish).Inv ∧ ∃ x, (s.step plugin .finish).handed = s.handed ++ [x] ∧
      (Given x ↔ s.LeftAlone) := by
  have hmem : tap ∈ s.feed := hfeed
  obtain ⟨hinv, hframes⟩ := h.tap tap hmem
  have hseen := h.seen tap hmem
  set block := pumpPlugin (some (tap.tap.maxFrames, s.fresh tap)) s.scratch s.primed with hblock
  have hstep : s.step plugin .finish =
      { s.hand plugin block with ticking := false, seen := tap.taken.length } := by
    rw [step, hfeed]
    exact if_pos hdone
  have hpumped : s.Pumped tap block := by
    obtain hfresh | hfresh := Nat.lt_or_eq_of_le hseen
    · exact pumped_fresh h hfeed hfresh
    · exact pumped_again h hfeed hfresh
  obtain ⟨hprimed, hlong, hsized, hgiven⟩ := hpumped
  have hne : block.1.length / numChannels ≠ 0 := by
    show block.1.length / 2 ≠ 0
    omega
  rw [hstep, hand_eq hne]
  refine ⟨⟨h.tap, ?_, ?_, ?_, ?_⟩, _, rfl, hgiven⟩
  · intro t ht
    obtain rfl := Option.some.inj (hfeed.symm.trans ht)
    exact Nat.le_refl _
  · intro t ht
    obtain rfl := Option.some.inj (hfeed.symm.trans ht)
    exact hprimed
  · intro t ht x _ hx
    obtain rfl := Option.some.inj (hfeed.symm.trans ht)
    have hlength : (plugin.process s.plugin block.1).2.length = block.1.length :=
      plugin.length_process _ _
    simp only [hlength]
    exact hsized x (List.getLast?_eq_getElem?.trans hx)
  · intro hnone
    rw [hfeed] at hnone
    cases hnone

/-- A step hands nothing over, or one buffer that is right if the plugin has left it alone. -/
theorem step_cases (plugin : WindowPlugin σ ν) (h : s.Inv) (a : PumpAct ν) :
    (s.step plugin a).Inv ∧
      (¬ s.Pumps a ∧ (s.step plugin a).handed = s.handed ∨
        s.Pumps a ∧ ∃ x, (s.step plugin a).handed = s.handed ++ [x] ∧ (Given x ↔ s.LeftAlone)) := by
  cases a with
  | publish samples => exact ⟨h.onTap _, Or.inl ⟨fun hpumps => hpumps, rfl⟩⟩
  | publisher => exact ⟨h.onTap _, Or.inl ⟨fun hpumps => hpumps, rfl⟩⟩
  | taker => exact ⟨h.onTap _, Or.inl ⟨fun hpumps => hpumps, rfl⟩⟩
  | attachConsumer => exact ⟨h.onTap _, Or.inl ⟨fun hpumps => hpumps, rfl⟩⟩
  | detachConsumer => exact ⟨h.onTap _, Or.inl ⟨fun hpumps => hpumps, rfl⟩⟩
  | tick =>
    cases hfeed : s.feed with
    | none =>
      obtain ⟨hinv, hhanded⟩ := tick_dry plugin h hfeed
      exact ⟨hinv, Or.inr ⟨hfeed, hhanded⟩⟩
    | some tap =>
      have hidle : ¬ s.Pumps .tick := fun hpumps => by
        rw [Pumps, hfeed] at hpumps
        cases hpumps
      have hstep : s.step plugin .tick =
          if s.ticking then s else { s.onTap .take with ticking := true } := by rw [step, hfeed]
      rw [hstep]
      split
      · exact ⟨h, Or.inl ⟨hidle, rfl⟩⟩
      · have hinv := h.onTap .take
        exact ⟨⟨hinv.tap, hinv.seen, hinv.primed, hinv.sized, hinv.dry⟩, Or.inl ⟨hidle, rfl⟩⟩
  | finish =>
    by_cases hpumps : s.Pumps .finish
    · obtain ⟨tap, hfeed, hdone⟩ := hpumps
      obtain ⟨hinv, hhanded⟩ := finish_tick plugin h hfeed hdone
      exact ⟨hinv, Or.inr ⟨⟨tap, hfeed, hdone⟩, hhanded⟩⟩
    · have hstep : s.step plugin .finish = s := by
        rw [step]
        cases hfeed : s.feed with
        | none => rfl
        | some tap => exact if_neg fun hdone => hpumps ⟨tap, hfeed, hdone⟩
      rw [hstep]
      exact ⟨h, Or.inl ⟨hpumps, rfl⟩⟩

theorem fed_iff (h : s.Inv) : s.Fed ↔ ∀ x ∈ s.handed, Given x :=
  ⟨fun hfed => hfed.handed, fun hhanded => ⟨hhanded,
    fun tap htap x hx => ((h.tap tap htap).1.taken x hx).2, fun tap htap => (h.tap tap htap).1.order⟩⟩

/-- When the plugin is fed right all along a run: whenever a tick brings no new block, it has left the
buffer as it was, and the buffer was full. -/
theorem always_fed_iff {feed : Option (ℕ × ℕ)} (hframes : ∀ sizes ∈ feed, sizes.1 < 2 ^ 32)
    (plugin : WindowPlugin σ ν) (first : σ) (acts : List (PumpAct ν)) :
    Always (step plugin) Fed (start feed first) acts ↔
      Along (step plugin) (fun s a => s.Pumps a → s.LeftAlone) (start feed first) acts := by
  have hstart := inv_start (ν := ν) hframes first
  refine always_iff_along_within (I := Inv) (fun s a h => (step_cases plugin h a).1) ?_ hstart
    ((fed_iff hstart).mpr fun x hx => absurd hx List.not_mem_nil)
  intro s a h hfed
  obtain ⟨hinv, ⟨hidle, hsame⟩ | ⟨hpumps, x, hnew, hgiven⟩⟩ := step_cases plugin h a
  · rw [fed_iff hinv, hsame]
    exact ⟨fun _ hpumps => absurd hpumps hidle, fun _ => hfed.handed⟩
  · rw [fed_iff hinv, hnew, List.forall_mem_append, ← hgiven]
    exact ⟨fun hall _ => hall.2 x (List.mem_singleton_self x),
      fun hx => ⟨hfed.handed, fun y hy => List.mem_singleton.mp hy ▸ hx hpumps⟩⟩

/-- A plugin that changes every sample. -/
def louder : WindowPlugin Unit ℕ where
  process := fun _ samples => ((), samples.map (· + 1))
  length_process := fun _ _ => List.length_map _

/-- One frame is published and taken, and a second tick finds nothing new. -/
def quietTick : List (PumpAct ℕ) :=
  [.attachConsumer, .publish [7, 8]] ++ List.replicate 7 .publisher ++ [.tick] ++
    List.replicate 6 .taker ++ [.finish, .tick, .taker, .finish]

theorem always_fed_iff_quiet :
    Always (step louder) Fed (start (some (2, 2)) ()) quietTick ↔
      Along (step louder) (fun s a => s.Pumps a → s.LeftAlone) (start (some (2, 2)) ()) quietTick :=
  always_fed_iff (by decide) louder () quietTick

/-- The second tick hands the plugin its own output, behind which there is room in the buffer. -/
theorem quiet_tick_feeds_back :
    (quietTick.foldl (step louder) (start (some (2, 2)) ())).handed =
        [([7, 8], some [7, 8]), ([8, 9, 0, 0], some [7, 8])] ∧
      ¬ Always (step louder) Fed (start (some (2, 2)) ()) quietTick := by
  have hhanded : (quietTick.foldl (step louder) (start (some (2, 2)) ())).handed =
      [([7, 8], some [7, 8]), ([8, 9, 0, 0], some [7, 8])] := by decide
  refine ⟨hhanded, fun h => ?_⟩
  have hgiven : [8, 9, 0, 0] = [7, 8] :=
    h.final.handed ([8, 9, 0, 0], some [7, 8]) (by rw [hhanded]; decide)
  exact absurd hgiven (by decide)

end PumpRun

end HikaruOpenLive.PluginHost
