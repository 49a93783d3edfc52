import HikaruOpenLive.Gui.WavDecode

/-! # Sound files and their two decoders

A sound file as the reader returns it: integers of some width, or floats. The command thread and the
pads both scale the integers to the range of a sample, each with its own divisor. Samples are exact
rationals.
-/
set_option autoImplicit false

namespace HikaruOpenLive.Gui

inductive WavSamples where
  | int (bits : ℕ) (samples : List ℤ)
  | float (samples : List ℚ)
deriving DecidableEq

structure WavFile where
  samples : WavSamples
  channels : ℕ
  sampleRate : ℕ
deriving DecidableEq

abbrev Disk :=
  String → Option WavFile

/-- `1 << (bits - 1)` on 32 bits with a sign: at a width of 32 it is the least integer. -/
def shiftedOne (bits : ℕ) : ℚ :=
  ((1#32 <<< (bits - 1)).toInt : ℚ)

/-- The divisor of the pads, `i16::MAX` up to 16 bits. -/
def padDivisor (bits : ℕ) : ℚ :=
  if bits ≤ 16 then 32767 else shiftedOne bits

namespace WavFile

def scaled (w : WavFile) (divisor : ℕ → ℚ) : List ℚ :=
  match w.samples with
  | .int bits samples => samples.map fun (s : ℤ) => (s : ℚ) / divisor bits
  | .float samples => samples

def count (w : WavFile) : ℕ :=
  match w.samples with
  | .int _ samples => samples.length
  | .float samples => samples.length

/-- The number of frames. -/
def duration (w : WavFile) : ℕ :=
  w.count / w.channels

/-- The file as the command thread decodes it. -/
def decoded (w : WavFile) : WavData :=
  ⟨w.scaled shiftedOne, w.sampleRate, w.channels⟩

theorem length_scaled (w : WavFile) (divisor : ℕ → ℚ) : (w.scaled divisor).length = w.count := by
  unfold scaled count
  cases w.samples with
  | int bits samples => exact List.length_map _
  | float samples => rfl

end WavFile

def Disk.files (disk : Disk) : Files :=
  fun path => (disk path).map WavFile.decoded

/-- The file as the pads decode it; one without samples counts as unreadable. -/
def decodeAudioFile (disk : Disk) (path : String) : Option (List ℚ × ℕ × ℕ) :=
  (disk path).bind fun w =>
    if w.scaled padDivisor = [] then none
    else some (w.scaled padDivisor, w.channels, w.sampleRate)

end HikaruOpenLive.Gui
