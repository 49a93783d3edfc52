import HikaruOpenLive.Foundations.CyclicWindow
import HikaruOpenLive.Foundations.Runs
import HikaruOpenLive.PluginHost.PlanarScratch

/-! # The tap between the engine and a plugin's window

`PluginTap` (`crates/hikaru_plugin_host/src/tap.rs`): a ring of blocks that the audio thread publishes and
the window's thread takes the newest of. Each thread is a program over the shared memory, and a run is any
order of their steps: one atomic load or store each, or the copy of one sample.

The indexes count up without a bound; the sample rate, which neither method reads, is left out.
-/
set_option autoImplicit false

namespace HikaruOpenLive.PluginHost

/-- The shared memory. Block `j` is in slot `j % capacity`. -/
structure PluginTap (ν : Type) where
  ring : List ν
  lens : List ℕ
  capacity : ℕ
  maxFrames : ℕ
  write : ℕ
  read : ℕ
  consumers : ℕ
  dropped : ℕ

namespace PluginTap

variable {ν : Type}

def withCapacity [Zero ν] (maxFrames capacity : ℕ) : PluginTap ν :=
  let maxFrames := max maxFrames 1
  let capacity := max capacity 2
  { ring := List.replicate (capacity * maxFrames * numChannels) 0
    lens := List.replicate capacity 0
    capacity := capacity, maxFrames := maxFrames, write := 0, read := 0, consumers := 0, dropped := 0 }

def slot (tap : PluginTap ν) (j : ℕ) : ℕ :=
  j % tap.capacity

/-- The place of a sample of a block in the ring. -/
def index (tap : PluginTap ν) (j i : ℕ) : ℕ :=
  tap.slot j * tap.maxFrames * numChannels + i

/-- The frames of a buffer that a block has room for. -/
def framesOf (tap : PluginTap ν) (samples : List ν) : ℕ :=
  min (samples.length / numChannels) tap.maxFrames

/-- What is published of a buffer. -/
def blockOf (tap : PluginTap ν) (samples : List ν) : List ν :=
  samples.take (tap.framesOf samples * numChannels)

end PluginTap

/-- Where the audio thread is in `publish`, with the block and the indexes it has loaded. -/
inductive Publisher (ν : Type) where
  | idle
  | loadWrite (block : List ν)
  | loadRead (block : List ν) (w : ℕ)
  | refuse
  | copy (block : List ν) (w done : ℕ)
  | storeLen (block : List ν) (w : ℕ)
  | storeWrite (block : List ν) (w : ℕ)

/-- Where the window's thread is in `take`: the newest block is `w - 1`, and `out` what is copied of it. -/
inductive Taker (ν : Type) where
  | idle
  | loadRead (w : ℕ)
  | loadLen (w : ℕ)
  | copy (w frames : ℕ) (out : List ν)
  | storeRead (w : ℕ) (out : Option (List ν))

/-- The tap with its two threads, and what has come of their calls: the blocks in the order in which they
were published, for each call that reached the ring whether it published, and the blocks taken with their
indexes. -/
structure TapRun (ν : Type) where
  tap : PluginTap ν
  publisher : Publisher ν
  taker : Taker ν
  published : List (List ν)
  results : List Bool
  taken : List (ℕ × List ν)

/-- A thread called while it is in a call goes on with that one. -/
inductive TapAct (ν : Type) where
  | publish (samples : List ν)
  | publisher
  | take
  | taker
  | attachConsumer
  | detachConsumer

namespace TapRun

variable {ν : Type}

def start [Zero ν] (maxFrames capacity : ℕ) : TapRun ν :=
  { tap := .withCapacity maxFrames capacity, publisher := .idle, taker := .idle, published := []
    results := [], taken := [] }

variable (s : TapRun ν)

/-- The call of `publish`, up to its first load. -/
def publish (samples : List ν) : TapRun ν :=
  match s.publisher with
  | .idle =>
    if s.tap.consumers = 0 ∨ s.tap.framesOf samples = 0 then s
    else { s with publisher := .loadWrite (s.tap.blockOf samples) }
  | _ => s

def stepPublisher : TapRun ν :=
  match s.publisher with
  | .idle => s
  | .loadWrite block => { s with publisher := .loadRead block s.tap.write }
  | .loadRead block w =>
    if s.tap.capacity ≤ w - s.tap.read then { s with publisher := .refuse }
    else { s with publisher := .copy block w 0 }
  | .refuse =>
    { s with
      tap := { s.tap with dropped := s.tap.dropped + 1 }, publisher := .idle
      results := s.results ++ [false] }
  | .copy block w done =>
    match block[done]? with
    | some sample =>
      { s with
        tap := { s.tap with ring := s.tap.ring.set (s.tap.index w done) sample }
        publisher := .copy block w (done + 1) }
    | none => { s with publisher := .storeLen block w }
  | .storeLen block w =>
    { s with
      tap := { s.tap with lens := s.tap.lens.set (s.tap.slot w) (block.length / numChannels % 2 ^ 32) }
      publisher := .storeWrite block w }
  | .storeWrite block w =>
    { s with
      tap := { s.tap with write := w + 1 }, publisher := .idle
      published := s.published ++ [block], results := s.results ++ [true] }

/-- The call of `take` with its first load. -/
def take : TapRun ν :=
  match s.taker with
  | .idle => { s with taker := .loadRead s.tap.write }
  | _ => s

def stepTaker [Zero ν] : TapRun ν :=
  match s.taker with
  | .idle => s
  | .loadRead w =>
    if w ≤ s.tap.read then { s with taker := .idle } else { s with taker := .loadLen w }
  | .loadLen w =>
    let frames := min (s.tap.lens.getD (s.tap.slot (w - 1)) 0) s.tap.maxFrames
    if frames * numChannels = 0 then { s with taker := .storeRead w none }
    else { s with taker := .copy w frames [] }
  | .copy w frames out =>
    if out.length < frames * numChannels then
      { s with taker := .copy w frames (out ++ [s.tap.ring.getD (s.tap.index (w - 1) out.length) 0]) }
    else { s with taker := .storeRead w (some out) }
  | .storeRead w out =>
    { s with
      tap := { s.tap with read := w }, taker := .idle
      taken := s.taken ++ (out.map fun block => (w - 1, block)).toList }

def act [Zero ν] : TapAct ν → TapRun ν
  | .publish samples => s.publish samples
  | .publisher => s.stepPublisher
  | .take => s.take
  | .taker => s.stepTaker
  | .attachConsumer => { s with tap := { s.tap with consumers := (s.tap.consumers + 1) % 2 ^ 64 } }
  | .detachConsumer =>
    { s with tap := { s.tap with consumers := (s.tap.consumers + (2 ^ 64 - 1)) % 2 ^ 64 } }

/-! ## What is asked of a run -/

/-- The slot that the publisher is filling. -/
def writing : Option ℕ :=
  match s.publisher with
  | .copy _ w _ | .storeLen _ w => some (s.tap.slot w)
  | _ => none

/-- The slot that the taker is copying. -/
def reading : Option ℕ :=
  match s.taker with
  | .loadLen w | .copy w _ _ => some (s.tap.slot (w - 1))
  | _ => none

/-- No slot is written while it is copied, every block taken is one that was published, the blocks taken
are in order and each is taken once, the ring is never overfull, and `dropped` counts the calls that
published nothing. -/
structure Safe : Prop where
  apart : ∀ a b, s.writing = some a → s.reading = some b → a ≠ b
  whole : ∀ x ∈ s.taken, s.published[x.1]? = some x.2
  order : (s.taken.map Prod.fst).Pairwise (· < ·)
  room : s.tap.read ≤ s.tap.write ∧ s.tap.write - s.tap.read ≤ s.tap.capacity
  dropped : s.tap.dropped = s.results.count false

end TapRun

end HikaruOpenLive.PluginHost
