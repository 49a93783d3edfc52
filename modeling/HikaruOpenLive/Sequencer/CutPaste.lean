import Mathlib.Algebra.BigOperators.Group.Multiset.Basic
import Mathlib.Algebra.Order.Group.Multiset
import Mathlib.Algebra.Ring.Rat
import HikaruOpenLive.Foundations.TimedContent
import HikaruOpenLive.Sequencer.ClipTimeline

/-! # What a timeline sounds like, and pasting back what was cut

`sounding evs f` is the multiset of `(source id, source frame)` pairs heard at clip frame `f`. The
timeline's `cut_range` and `paste_insert` are refined against the edits of `TimedContent`: event by
event (`kept_heard`, `removed_heard`, `opened_heard`), then for the whole list.

The two methods measure the gap differently: the cut closes it by the length of the range, the paste
opens it by the extent of the fragments. `cut_paste_identity_iff` is the exact condition under which
they undo each other.
-/
set_option autoImplicit false

namespace HikaruOpenLive.Sequencer
open HikaruOpenLive.Foundations.TimedContent

def ClipAudioEvent.heard (e : ClipAudioEvent) (f : ℕ) : Multiset (ℕ × ℕ) :=
  if e.containsClipFrame f then {(e.sourceId, e.sourceOffset + (f - e.clipStart))} else 0

namespace ClipAudioTimeline

/-- Everything a list of events sounds at a clip frame. -/
def sounding (evs : List ClipAudioEvent) (f : ℕ) : Multiset (ℕ × ℕ) := (evs.map (fun e => e.heard f)).sum

def cutPaste (tl : ClipAudioTimeline) (start stop : ℕ) : ClipAudioTimeline :=
  let r := tl.cutRange start stop
  (r.1.pasteInsert start r.2).1

/-! ## Rendering -/

/-- What `render_mono` adds to a clip frame for one event. -/
def contribution (source : List ℚ) (e : ClipAudioEvent) (f : ℕ) : ℚ :=
  if e.containsClipFrame f then source.getD (e.sourceOffset + (f - e.clipStart)) 0 * e.gainAt f
  else 0

theorem foldl_contribution_getElem? (source : List ℚ) (evs : List ClipAudioEvent) (out : List ℚ)
    (f : ℕ) :
    (evs.foldl (fun out e => out.mapIdx fun dst x =>
      if e.containsClipFrame dst then
        x + source.getD (e.sourceOffset + (dst - e.clipStart)) 0 * e.gainAt dst
      else x) out)[f]? =
      out[f]?.map fun x => x + (evs.map fun e => contribution source e f).sum := by
  induction evs generalizing out with
  | nil => simp
  | cons e evs ih =>
    rw [List.foldl_cons, ih, List.getElem?_mapIdx, Option.map_map, List.map_cons, List.sum_cons]
    congr 1
    funext x
    simp only [Function.comp_apply, contribution]
    split
    · rw [add_assoc]
    · rw [zero_add]

theorem renderMono_getElem? (tl : ClipAudioTimeline) (source : List ℚ) {f : ℕ}
    (hf : f < tl.totalFrames) :
    (tl.renderMono source)[f]? =
      some (tl.events.map fun e => contribution source e f).sum := by
  unfold renderMono
  rw [foldl_contribution_getElem?, List.getElem?_replicate, if_pos hf, Option.map_some, zero_add]

theorem contribution_eq_heard (source : List ℚ) {e : ClipAudioEvent}
    (hplain : e.gain = 1 ∧ e.fadeIn = 0 ∧ e.fadeOut = 0) (f : ℕ) :
    contribution source e f = ((e.heard f).map fun p => source.getD p.2 0).sum := by
  obtain ⟨hgain, hin, hout⟩ := hplain
  unfold contribution ClipAudioEvent.heard
  by_cases hc : e.containsClipFrame f = true
  · simp [hc, ClipAudioEvent.gainAt, hgain, hin, hout]
  · simp [hc]

/-- Without gains and fades, the mix at a frame is the sum of the source frames sounding there. -/
theorem renderMono_eq_sounding (tl : ClipAudioTimeline) (source : List ℚ)
    (hplain : ∀ e ∈ tl.events, e.gain = 1 ∧ e.fadeIn = 0 ∧ e.fadeOut = 0) {f : ℕ}
    (hf : f < tl.totalFrames) :
    (tl.renderMono source)[f]? =
      some ((sounding tl.events f).map fun p => source.getD p.2 0).sum := by
  rw [tl.renderMono_getElem? source hf]
  congr 1
  generalize tl.events = evs at hplain
  induction evs with
  | nil => rfl
  | cons e evs ih =>
    have he := contribution_eq_heard source (hplain e List.mem_cons_self) f
    have hrest := ih (fun d hd => hplain d (List.mem_cons_of_mem e hd))
    rw [List.map_cons, List.sum_cons, he, hrest]
    simp only [sounding, List.map_cons, List.sum_cons, Multiset.map_add, Multiset.sum_add]

end ClipAudioTimeline

namespace ClipAudioEvent

theorem contains_iff (e : ClipAudioEvent) (f : ℕ) :
    e.containsClipFrame f = true ↔ e.clipStart ≤ f ∧ f < e.stop := by
  simp [containsClipFrame]

theorem heard_of_mem {e : ClipAudioEvent} {f : ℕ} (h : e.clipStart ≤ f ∧ f < e.stop) :
    e.heard f = {(e.sourceId, e.sourceOffset + (f - e.clipStart))} :=
  if_pos ((e.contains_iff f).mpr h)

theorem heard_of_not_mem {e : ClipAudioEvent} {f : ℕ} (h : ¬ (e.clipStart ≤ f ∧ f < e.stop)) :
    e.heard f = 0 := if_neg (fun hc => h ((e.contains_iff f).mp hc))

theorem heard_congr {a b : ClipAudioEvent} {f g : ℕ} (hid : a.sourceId = b.sourceId)
    (hmem : (a.clipStart ≤ f ∧ f < a.stop) ↔ (b.clipStart ≤ g ∧ g < b.stop))
    (hoff : a.clipStart ≤ f → f < a.stop →
      a.sourceOffset + (f - a.clipStart) = b.sourceOffset + (g - b.clipStart)) :
    a.heard f = b.heard g := by
  by_cases h : a.clipStart ≤ f ∧ f < a.stop
  · have h' := hmem.mp h
    rw [heard_of_mem h, heard_of_mem h', hid, hoff h.1 h.2]
  · rw [heard_of_not_mem h, heard_of_not_mem (fun hb => h (hmem.mpr hb))]

/-! ## One event under a cut -/

section Pieces
variable (e : ClipAudioEvent) {start stop : ℕ}

theorem closeGap_heard (hlt : start < stop) (hout : e.stop ≤ start ∨ stop ≤ e.clipStart) (f : ℕ) :
    (e.closeGap start stop).heard f = closeUp start stop e.heard f := by
  have hs : e.stop = e.clipStart + e.length := rfl
  by_cases hb : stop ≤ e.clipStart
  · have hgap : e.closeGap start stop = { e with clipStart := e.clipStart - (stop - start) } :=
      if_pos hb
    rw [hgap]
    unfold closeUp
    split <;> (apply heard_congr <;> simp only [ClipAudioEvent.stop] <;> omega)
  · -- the event ends before the range, an empty one possibly at its start
    have hgap : (e.closeGap start stop).heard f = e.heard f := by
      unfold closeGap
      rw [if_neg hb]
      split
      · apply heard_congr <;> simp only [ClipAudioEvent.stop] <;> omega
      · rfl
    rw [hgap]
    unfold closeUp
    split
    · rfl
    · rw [heard_of_not_mem (by omega), heard_of_not_mem (by omega)]

theorem closeGap_cutLeft (hlt : start < stop) (hl : e.clipStart < start) :
    (e.cutLeft start).closeGap start stop = e.cutLeft start := by
  unfold closeGap
  rw [if_neg (by simp only [cutLeft]; omega), if_neg (by simp only [cutLeft]; omega)]

theorem closeGap_cutRight (hlt : start < stop) :
    (e.cutRight start stop).closeGap start stop = e.cutRight start stop := by
  unfold closeGap
  rw [if_neg (by simp only [cutRight]; omega), if_pos (by simp only [cutRight]; omega)]
  simp [cutRight]

theorem cutLeft_heard (hlt : start < stop) (hl : e.clipStart < start) (hs : start < e.stop) (f : ℕ) :
    ((e.cutLeft start).closeGap start stop).heard f = if f < start then e.heard f else 0 := by
  rw [closeGap_cutLeft e hlt hl]
  unfold ClipAudioEvent.stop at hs
  split
  · apply heard_congr
    · rfl
    · simp only [cutLeft, ClipAudioEvent.stop]
      omega
    · intro _ _
      rfl
  · exact heard_of_not_mem (by simp only [cutLeft, ClipAudioEvent.stop]; omega)

theorem cutRight_heard (hlt : start < stop) (hl : e.clipStart < stop) (hr : stop < e.stop) (f : ℕ) :
    ((e.cutRight start stop).closeGap start stop).heard f =
      if f < start then 0 else e.heard (f + (stop - start)) := by
  rw [closeGap_cutRight e hlt]
  unfold ClipAudioEvent.stop at hr
  split
  · exact heard_of_not_mem (by simp only [cutRight, ClipAudioEvent.stop]; omega)
  · apply heard_congr <;> simp only [cutRight, ClipAudioEvent.stop] <;> omega

/-- The pieces of an event that a cut keeps sound the event with the range closed up. -/
theorem kept_heard (hlt : start < stop) (f : ℕ) :
    ((e.cutPieces start stop).1.map (fun p => (p.closeGap start stop).heard f)).sum =
      closeUp start stop e.heard f := by
  unfold cutPieces
  by_cases hout : e.stop ≤ start ∨ stop ≤ e.clipStart
  · rw [if_pos hout, List.map_singleton, List.sum_singleton, closeGap_heard e hlt hout]
  · rw [if_neg hout]
    have hl : (if e.clipStart < start then [e.cutLeft start] else []).map
        (fun p => (p.closeGap start stop).heard f) =
          if e.clipStart < start then [if f < start then e.heard f else 0] else [] := by
      split
      · rw [List.map_singleton, cutLeft_heard e hlt (by assumption) (by omega)]
      · rfl
    have hr : (if stop < e.stop then [e.cutRight start stop] else []).map
        (fun p => (p.closeGap start stop).heard f) =
          if stop < e.stop then [if f < start then 0 else e.heard (f + (stop - start))] else [] := by
      split
      · rw [List.map_singleton, cutRight_heard e hlt (by omega) (by assumption)]
      · rfl
    rw [List.map_append, hl, hr]
    unfold closeUp
    -- a missing left piece means silence before the range, a missing right piece silence after it
    by_cases hf : f < start
    · simp only [if_pos hf]
      by_cases h : e.clipStart < start
      · split_ifs <;> simp
      · rw [heard_of_not_mem (f := f) (by omega)]
        split_ifs <;> simp
    · simp only [if_neg hf]
      by_cases h : stop < e.stop
      · split_ifs <;> simp
      · rw [heard_of_not_mem (f := f + (stop - start)) (by omega)]
        split_ifs <;> simp

theorem removed_heard (hlt : start < stop) (f : ℕ) :
    ((e.cutPieces start stop).2.map (fun p => p.heard f)).sum = excerpt start stop e.heard f := by
  unfold cutPieces excerpt
  by_cases hout : e.stop ≤ start ∨ stop ≤ e.clipStart
  · rw [if_pos hout]
    split
    · rw [heard_of_not_mem (by omega)]
      rfl
    · rfl
  · rw [if_neg hout, List.map_singleton, List.sum_singleton]
    unfold ClipAudioEvent.stop at hout
    split
    · apply heard_congr <;> simp only [cutMid, ClipAudioEvent.stop] <;> omega
    · exact heard_of_not_mem (by simp only [cutMid, ClipAudioEvent.stop]; omega)

end Pieces

end ClipAudioEvent

namespace ClipAudioTimeline
open ClipAudioEvent

/-! ## The whole list under a cut -/

theorem sounding_perm {a b : List ClipAudioEvent} (h : a.Perm b) (f : ℕ) :
    sounding a f = sounding b f := (h.map _).sum_eq

theorem sounding_append (a b : List ClipAudioEvent) (f : ℕ) :
    sounding (a ++ b) f = sounding a f + sounding b f := by
  simp [sounding]

theorem sounding_flatMap (evs : List ClipAudioEvent) (g : ClipAudioEvent → List ClipAudioEvent)
    (f : ℕ) : sounding (evs.flatMap g) f = (evs.map (fun e => sounding (g e) f)).sum := by
  induction evs with
  | nil => rfl
  | cons e es ih => rw [List.flatMap_cons, sounding_append, ih, List.map_cons, List.sum_cons]

theorem sounding_cutRange (tl : ClipAudioTimeline) {start stop : ℕ} (hlt : start < stop) (f : ℕ) :
    sounding (tl.cutRange start stop).1.events f = closeUp start stop (sounding tl.events) f := by
  unfold cutRange
  rw [if_neg (by omega)]
  simp only
  rw [sounding_perm (sort_perm _), List.map_flatMap, sounding_flatMap]
  have h : ∀ e ∈ tl.events, sounding ((e.cutPieces start stop).1.map
      (fun p => p.closeGap start stop)) f = closeUp start stop e.heard f := by
    intro e _
    rw [← kept_heard e hlt f, sounding, List.map_map]
    rfl
  rw [List.map_congr_left h, closeUp_sum]
  rfl

theorem sounding_removed (tl : ClipAudioTimeline) {start stop : ℕ} (hlt : start < stop) (f : ℕ) :
    sounding (tl.cutRange start stop).2 f = excerpt start stop (sounding tl.events) f := by
  unfold cutRange
  rw [if_neg (by omega), sounding_flatMap]
  have h : ∀ e ∈ tl.events, sounding (e.cutPieces start stop).2 f =
      excerpt start stop e.heard f := fun e _ => removed_heard e hlt f
  rw [List.map_congr_left h, excerpt_sum]
  rfl

/-! ## The whole list under a paste -/

def Unhosted (evs : List ClipAudioEvent) (pos : ℕ) : Prop :=
  ∀ e ∈ evs, pos ≤ e.clipStart ∨ e.stop ≤ pos

/-- The events that begin before a frame and reach past it. -/
def hosts (evs : List ClipAudioEvent) (pos : ℕ) : List ClipAudioEvent :=
  evs.filter fun e => decide (e.clipStart < pos) && decide (pos < e.stop)

/-- What the hosts of the insertion point, left as long as they were, go on sounding behind it. -/
def underneath (evs : List ClipAudioEvent) (pos f : ℕ) : Multiset (ℕ × ℕ) :=
  if f < pos then 0 else sounding (hosts evs pos) f

theorem hosts_eq_nil_iff (evs : List ClipAudioEvent) (pos : ℕ) : hosts evs pos = [] ↔ Unhosted evs pos := by
  unfold hosts Unhosted
  rw [List.filter_eq_nil_iff]
  refine forall₂_congr fun e _ => ?_
  simp only [Bool.and_eq_true, decide_eq_true_eq]
  omega

theorem hosts_cons (e : ClipAudioEvent) (evs : List ClipAudioEvent) (pos : ℕ) :
    hosts (e :: evs) pos = if e.clipStart < pos ∧ pos < e.stop then e :: hosts evs pos else hosts evs pos := by
  unfold hosts
  rw [List.filter_cons]
  simp only [Bool.and_eq_true, decide_eq_true_eq]

theorem opened_heard (e : ClipAudioEvent) (pos len : ℕ) (h : pos ≤ e.clipStart ∨ e.stop ≤ pos)
    (f : ℕ) :
    (if pos ≤ e.clipStart then { e with clipStart := e.clipStart + len } else e).heard f =
      openUp pos len e.heard f := by
  unfold openUp
  have hs : e.stop = e.clipStart + e.length := rfl
  by_cases hp : pos ≤ e.clipStart
  · rw [if_pos hp]
    split_ifs
    · rw [heard_of_not_mem (e := e) (by omega)]
      exact heard_of_not_mem (by simp only [ClipAudioEvent.stop]; omega)
    · exact heard_of_not_mem (by simp only [ClipAudioEvent.stop]; omega)
    · apply heard_congr <;> simp only [ClipAudioEvent.stop] <;> omega
  · rw [if_neg hp]
    split_ifs
    · rfl
    · exact heard_of_not_mem (by omega)
    · rw [heard_of_not_mem (by omega), heard_of_not_mem (by omega)]

theorem sounding_placed (pos : ℕ) (fs : List ClipAudioEvent) (next f : ℕ) :
    sounding (placeFragments pos next fs).1 f = delay pos (sounding fs) f := by
  induction fs generalizing next with
  | nil =>
    unfold delay
    split <;> rfl
  | cons e es ih =>
    have ih := ih (allocId next).2
    have he : ({ e with id := (allocId next).1, clipStart := e.clipStart + pos } :
        ClipAudioEvent).heard f = delay pos e.heard f := by
      unfold delay
      split
      · exact heard_of_not_mem (by simp only [ClipAudioEvent.stop]; omega)
      · apply heard_congr <;> simp only [ClipAudioEvent.stop] <;> omega
    simp only [placeFragments]
    rw [sounding, List.map_cons, List.sum_cons, he]
    change _ + sounding _ f = _
    rw [ih]
    unfold delay
    split
    · rw [add_zero]
    · rfl

theorem pasteLen_perm {a b : List ClipAudioEvent} (h : a.Perm b) : pasteLen a = pasteLen b :=
  (h.map _).foldr_eq 0

/-- The right half of a host, moved behind the gap. -/
theorem splitAt_host {e : ClipAudioEvent} {pos : ℕ} (h : e.clipStart < pos ∧ pos < e.stop) (newId : ℕ) :
    ∃ left right, e.splitAt pos newId = some (left, right) ∧
      ∀ len f, ({ right with clipStart := right.clipStart + len } : ClipAudioEvent).heard f =
        if f < pos + len then 0 else e.heard (f - len) := by
  have hs : e.stop = e.clipStart + e.length := rfl
  unfold ClipAudioEvent.splitAt
  rw [if_neg (by omega)]
  refine ⟨_, _, rfl, fun len f => ?_⟩
  split
  · exact heard_of_not_mem (by simp only [ClipAudioEvent.stop]; omega)
  · apply heard_congr <;> simp only [ClipAudioEvent.stop] <;> omega

/-- The loop of the paste opens the gap, and leaves in it what the hosts of the insertion point sound. -/
theorem sounding_openGap (pos len next f : ℕ) (evs : List ClipAudioEvent) :
    sounding (openGap pos len next evs).1 f + sounding (openGap pos len next evs).2.1 f =
      openUp pos len (sounding evs) f + underneath evs pos f := by
  have hcons : ∀ e es, openUp pos len (sounding (e :: es)) f =
      openUp pos len e.heard f + openUp pos len (sounding es) f := by
    intro e es
    unfold openUp
    split_ifs <;> simp [sounding]
  have hsound : ∀ (e : ClipAudioEvent) es, sounding (e :: es) f = e.heard f + sounding es f :=
    fun e es => by rw [sounding, List.map_cons, List.sum_cons, sounding]
  induction evs generalizing next with
  | nil =>
    unfold openUp underneath
    split_ifs <;> simp [openGap, sounding, hosts]
  | cons e es ih =>
    rw [hcons]
    by_cases hhost : e.clipStart < pos ∧ pos < e.stop
    · obtain ⟨left, right, hsplit, hright⟩ := splitAt_host hhost next
      have hunder : underneath (e :: es) pos f = (if f < pos then 0 else e.heard f) + underneath es pos f := by
        unfold underneath
        rw [hosts_cons, if_pos hhost, hsound]
        split <;> simp
      have ih := ih (next + 1)
      simp only [openGap, if_neg (not_le.mpr hhost.1), if_pos hhost.2, hsplit]
      rw [hsound, hsound, hright, hunder, add_add_add_comm, ih, ← openUp_add_left, add_add_add_comm]
    · have hout : pos ≤ e.clipStart ∨ e.stop ≤ pos := by omega
      have hunder : underneath (e :: es) pos f = underneath es pos f := by
        unfold underneath
        rw [hosts_cons, if_neg hhost]
      have ih := ih next
      have hmoved := opened_heard e pos len hout f
      rw [hunder, ← hmoved, add_assoc, ← ih, ← add_assoc]
      by_cases hp : pos ≤ e.clipStart
      · simp only [openGap, if_pos hp]
        rw [hsound]
      · simp only [openGap, if_neg hp, if_neg (show ¬ pos < e.stop by omega)]
        rw [hsound]

/-- A paste inserts the fragments into a gap of their extent, over what the hosts of the insertion point
go on sounding. -/
theorem sounding_pasteInsert {tl : ClipAudioTimeline} {pos : ℕ} {fragments : List ClipAudioEvent}
    (hne : fragments ≠ []) (f : ℕ) :
    sounding (tl.pasteInsert pos fragments).1.events f =
      insertAt pos (pasteLen fragments) (sounding tl.events) (sounding fragments) f +
        underneath tl.events pos f := by
  have hempty : ¬ fragments.isEmpty = true := by simpa using hne
  have hperm := List.perm_insertionSort StartLE fragments
  have hdelay : delay pos (sounding (fragments.insertionSort StartLE)) f =
      delay pos (sounding fragments) f := by
    unfold delay
    rw [sounding_perm hperm]
  unfold pasteInsert insertAt
  rw [if_neg hempty]
  simp only
  rw [sounding_perm (sort_perm _), sounding_append, sounding_append, sounding_openGap, sounding_placed,
    pasteLen_perm hperm, hdelay, add_right_comm]

/-- Where no event hosts the insertion point, nothing else sounds. -/
theorem sounding_pasteInsert_unhosted (tl : ClipAudioTimeline) (pos : ℕ) (fragments : List ClipAudioEvent)
    (hu : Unhosted tl.events pos) (f : ℕ) :
    sounding (tl.pasteInsert pos fragments).1.events f =
      insertAt pos (pasteLen fragments) (sounding tl.events) (sounding fragments) f := by
  by_cases hnil : fragments = []
  · subst hnil
    unfold pasteInsert insertAt openUp delay
    by_cases hp : f < pos
    · simp [sounding, hp]
    · simp [sounding, pasteLen, hp]
  · have hunder : underneath tl.events pos f = 0 := by
      unfold underneath
      rw [(hosts_eq_nil_iff _ _).mpr hu]
      split <;> rfl
    rw [sounding_pasteInsert hnil, hunder, add_zero]

/-! ## Cutting and pasting back -/

theorem cutRange_unhosted (tl : ClipAudioTimeline) {start stop : ℕ} (hlt : start < stop) :
    Unhosted (tl.cutRange start stop).1.events start := by
  unfold cutRange
  rw [if_neg (by omega)]
  intro p hp
  have hp' := (sort_perm _).mem_iff.mp hp
  obtain ⟨q, hq, rfl⟩ := List.mem_map.mp hp'
  obtain ⟨e, _, hqe⟩ := List.mem_flatMap.mp hq
  have hs : e.stop = e.clipStart + e.length := rfl
  have hq' : q.stop ≤ start ∨ start ≤ q.clipStart := by
    unfold cutPieces at hqe
    split at hqe
    · rw [List.mem_singleton.mp hqe]
      omega
    · obtain h | h := List.mem_append.mp hqe
      · split at h
        · rw [List.mem_singleton.mp h]
          simp only [cutLeft, ClipAudioEvent.stop]
          omega
        · cases h
      · split at h
        · rw [List.mem_singleton.mp h]
          exact Or.inr le_rfl
        · cases h
  unfold closeGap
  have hqs : q.stop = q.clipStart + q.length := rfl
  split_ifs <;> simp only [ClipAudioEvent.stop] <;> omega

theorem le_foldr_max {a : ℕ} {l : List ℕ} (h : a ∈ l) : a ≤ l.foldr max 0 :=
  foldr_max_le.mp le_rfl a h

theorem foldr_max_lt {n : ℕ} (hn : 0 < n) {l : List ℕ} (h : ∀ a ∈ l, a < n) :
    l.foldr max 0 < n := by
  have hle : l.foldr max 0 ≤ n - 1 := foldr_max_le.mpr fun a ha => Nat.le_sub_one_of_lt (h a ha)
  omega

theorem mem_removed {tl : ClipAudioTimeline} {start stop : ℕ} (hlt : start < stop)
    {a : ℕ} : a ∈ (tl.cutRange start stop).2.map (fun e => e.clipStart + e.length) ↔
      ∃ e ∈ tl.events, start < e.stop ∧ e.clipStart < stop ∧ a = min e.stop stop - start := by
  unfold cutRange
  rw [if_neg (by omega)]
  simp only [List.mem_map, List.mem_flatMap]
  constructor
  · rintro ⟨p, ⟨e, he, hp⟩, rfl⟩
    unfold cutPieces at hp
    split at hp
    · cases hp
    · rw [List.mem_singleton.mp hp]
      refine ⟨e, he, by omega, by omega, ?_⟩
      have hs : e.stop = e.clipStart + e.length := rfl
      simp only [cutMid]
      omega
  · rintro ⟨e, he, h1, h2, rfl⟩
    refine ⟨e.cutMid start stop, ⟨e, he, ?_⟩, ?_⟩
    · unfold cutPieces
      rw [if_neg (by omega)]
      exact List.mem_singleton_self _
    · have hs : e.stop = e.clipStart + e.length := rfl
      simp only [cutMid]
      omega

theorem pasteLen_removed_le (tl : ClipAudioTimeline) {start stop : ℕ} (hlt : start < stop) :
    pasteLen (tl.cutRange start stop).2 ≤ stop - start := by
  have h : pasteLen (tl.cutRange start stop).2 < stop - start + 1 := by
    apply foldr_max_lt (by omega)
    intro a ha
    obtain ⟨e, _, _, _, rfl⟩ := (mem_removed hlt).mp ha
    omega
  omega

/-- The fragments fill the range precisely when an event that begins before its end reaches it. -/
theorem pasteLen_removed_eq_iff (tl : ClipAudioTimeline) {start stop : ℕ} (hlt : start < stop) :
    pasteLen (tl.cutRange start stop).2 = stop - start ↔
      ∃ e ∈ tl.events, e.clipStart < stop ∧ stop ≤ e.stop := by
  constructor
  · intro h
    by_contra hno
    push Not at hno
    have hlt' : pasteLen (tl.cutRange start stop).2 < stop - start := by
      apply foldr_max_lt (by omega)
      intro a ha
      obtain ⟨e, he, h1, h2, rfl⟩ := (mem_removed hlt).mp ha
      have := hno e he h2
      omega
    omega
  · rintro ⟨e, he, h1, h2⟩
    have hmem : stop - start ∈ (tl.cutRange start stop).2.map (fun e => e.clipStart + e.length) :=
      (mem_removed hlt).mpr ⟨e, he, by omega, h1, by omega⟩
    have hle : stop - start ≤ pasteLen (tl.cutRange start stop).2 := le_foldr_max hmem
    exact le_antisymm (pasteLen_removed_le tl hlt) hle

theorem sounding_eq_zero_iff (evs : List ClipAudioEvent) (f : ℕ) :
    sounding evs f = 0 ↔ ∀ e ∈ evs, ¬ (e.clipStart ≤ f ∧ f < e.stop) := by
  unfold sounding
  induction evs with
  | nil => simp
  | cons e es ih =>
    rw [List.map_cons, List.sum_cons,
      add_eq_zero_iff_of_nonneg (Multiset.zero_le _) (Multiset.zero_le _), ih, List.forall_mem_cons]
    by_cases h : e.clipStart ≤ f ∧ f < e.stop
    · rw [heard_of_mem h]
      simp [h]
    · rw [heard_of_not_mem h]
      simp [h]

theorem sounding_silent (tl : ClipAudioTimeline) {start stop : ℕ} (hlt : start < stop) (f : ℕ)
    (h1 : start + pasteLen (tl.cutRange start stop).2 ≤ f) (h2 : f < stop) :
    sounding tl.events f = 0 := by
  rw [sounding_eq_zero_iff]
  rintro e he ⟨h3, h4⟩
  have hmem : min e.stop stop - start ∈
      (tl.cutRange start stop).2.map (fun e => e.clipStart + e.length) :=
    (mem_removed hlt).mpr ⟨e, he, by omega, by omega, rfl⟩
  have hle : min e.stop stop - start ≤ pasteLen (tl.cutRange start stop).2 := le_foldr_max hmem
  omega

theorem sounding_cutPaste (tl : ClipAudioTimeline) {start stop : ℕ} (hlt : start < stop) (f : ℕ) :
    sounding (tl.cutPaste start stop).events f =
      insertAt start (pasteLen (tl.cutRange start stop).2)
        (closeUp start stop (sounding tl.events)) (excerpt start stop (sounding tl.events)) f := by
  have hkept : sounding (tl.cutRange start stop).1.events = closeUp start stop (sounding tl.events) :=
    funext (sounding_cutRange tl hlt)
  have hrem : sounding (tl.cutRange start stop).2 = excerpt start stop (sounding tl.events) :=
    funext (sounding_removed tl hlt)
  unfold cutPaste
  rw [sounding_pasteInsert_unhosted _ _ _ (cutRange_unhosted tl hlt), hkept, hrem]

/-- Pasting back what was cut is the identity on content precisely when an event that begins before
the end of the range reaches its end, or nothing sounds from there on. -/
theorem cut_paste_identity_iff (tl : ClipAudioTimeline) (start stop : ℕ) (hlt : start < stop) :
    (∀ f, sounding (tl.cutPaste start stop).events f = sounding tl.events f) ↔
      (∃ e ∈ tl.events, e.clipStart < stop ∧ stop ≤ e.stop) ∨
        ∀ e ∈ tl.events, e.length = 0 ∨ e.stop ≤ stop := by
  simp only [sounding_cutPaste tl hlt]
  rw [paste_back_iff hlt (pasteLen_removed_le tl hlt) _ (sounding_silent tl hlt),
    pasteLen_removed_eq_iff tl hlt]
  apply or_congr_right
  simp only [sounding_eq_zero_iff]
  constructor
  · intro h e he
    by_contra hno
    have := h (max e.clipStart stop) (by omega) e he
    have hs : e.stop = e.clipStart + e.length := rfl
    omega
  · intro h f hf e he hm
    have hs : e.stop = e.clipStart + e.length := rfl
    have := h e he
    omega

theorem cut_paste_identity_single :
    sounding ((singleFull 10).cutPaste 2 5).events = sounding (singleFull 10).events := by
  funext f
  exact (cut_paste_identity_iff (singleFull 10) 2 5 (by decide)).mpr (Or.inl (by decide)) f

/-- Silence at the end of the range is lost: two events at `[0, 2)` and `[6, 8)`, cut at `[0, 4)`. -/
theorem cut_paste_loses_silence :
    ¬ ∀ (tl : ClipAudioTimeline) (start stop : ℕ), start < stop → stop ≤ tl.totalFrames →
      ∀ f, sounding (tl.cutPaste start stop).events f = sounding tl.events f := by
  intro h
  have h6 := h ⟨[ClipAudioEvent.new 1 0 0 2, ClipAudioEvent.new 2 6 0 2], 3⟩ 0 4
    (by decide) (by decide) 6
  exact absurd h6 (by decide)

end ClipAudioTimeline

end HikaruOpenLive.Sequencer
