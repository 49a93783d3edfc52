import HikaruOpenLive.Gui.MixerSync
import HikaruOpenLive.Gui.TimelineFile

/-! # Project documents

The files of the two modes as they are read, with their meter, their tracks and the view they were saved
in, and what opening them makes of it. The header, the metadata and the racks of the live master are left
out but for the version of the format.
-/
set_option autoImplicit false

namespace HikaruOpenLive.Gui

open Foundations.ListEdits Foundations.RoundTrip

namespace OpenLiveFile

structure Transport where
  bpm : ℚ
  timeSignature : ℕ × ℕ
  launchQuantization : String
  loopStartTicks : ℕ
  loopEndTicks : ℕ
  loopEnabled : Bool
deriving DecidableEq

structure Document where
  formatVersion : ℕ
  transport : Transport
  masterVolume : ℚ
  masterPan : ℚ
  liveTracks : List ProjectFile.Track
  matrix : Matrix
  view : ℕ

end OpenLiveFile

namespace OpenStudioFile

structure Transport where
  bpm : ℚ
  beatsPerBar : ℕ
  beatDivision : ℕ
  loopStartTicks : ℕ
  loopEndTicks : ℕ
  loopEnabled : Bool
deriving DecidableEq

structure Document where
  formatVersion : ℕ
  transport : Transport
  studioTracks : List ProjectFile.Track
  playlist : Playlist
  view : ℕ

end OpenStudioFile

/-! ## The launch quantization -/

/-- `char::is_whitespace`. -/
def isWhitespace (c : Char) : Bool :=
  let n := c.toNat
  (decide (9 ≤ n) && decide (n ≤ 13)) || (decide (0x2000 ≤ n) && decide (n ≤ 0x200A)) ||
    [0x20, 0x85, 0xA0, 0x1680, 0x2028, 0x2029, 0x202F, 0x205F, 0x3000].contains n

def trim (cs : List Char) : List Char :=
  ((cs.dropWhile isWhitespace).reverse.dropWhile isWhitespace).reverse

/-- `str::parse::<u32>`: decimal digits, with a plus sign at most. -/
def parseU32 (cs : List Char) : Option ℕ :=
  let digits := if cs.head? = some '+' then cs.tail else cs
  if digits ≠ [] ∧ digits.all Char.isDigit then
    let n := digits.foldl (fun n c => 10 * n + (c.toNat - 48)) 0
    if n < 2 ^ 32 then some n else none
  else none

namespace OpenLiveFile.Transport

/-- The number after the last bar of the quantization. -/
def quantizationNumber (t : Transport) : Option ℕ :=
  parseU32 (trim (t.launchQuantization.toList.reverse.takeWhile (· ≠ '/')).reverse)

def quantizationDenominator (t : Transport) : ℕ :=
  max (t.quantizationNumber.getD 1) 1

end OpenLiveFile.Transport

example : (⟨120, (4, 4), "1/16", 0, 0, false⟩ : OpenLiveFile.Transport).quantizationDenominator = 16 := by
  decide +kernel

/-! ## Opening a document -/

/-- The views of a mode are numbered 0 and 1; an unknown number is 0. -/
def viewFromU8 (view : ℕ) : ℕ :=
  if view = 1 then 1 else 0

section

variable (toLowercase : String → String)

def buildStrip (t : ProjectFile.Track) : MixerStrip :=
  (buildTrack toLowercase t).strip

def OpenLiveFile.Document.project (doc : OpenLiveFile.Document) : OpenLiveProject :=
  { transport := ⟨doc.transport.bpm, doc.transport.loopStartTicks, doc.transport.loopEndTicks,
      doc.transport.loopEnabled⟩
    liveTracks := doc.liveTracks.map (buildStrip toLowercase)
    masterVolume := doc.masterVolume, masterPan := doc.masterPan, matrix := doc.matrix }

def OpenStudioFile.Document.project (doc : OpenStudioFile.Document) : OpenStudioProject :=
  { transport := ⟨doc.transport.bpm, doc.transport.loopStartTicks, doc.transport.loopEndTicks,
      doc.transport.loopEnabled⟩
    studioTracks := doc.studioTracks.map (buildStrip toLowercase)
    playlist := doc.playlist.forget }

/-- The beats of a bar and the division of a beat. -/
def OpenLiveFile.Document.meter (doc : OpenLiveFile.Document) : ℕ × ℕ :=
  (max doc.transport.timeSignature.1 1, doc.transport.quantizationDenominator)

def OpenStudioFile.Document.meter (doc : OpenStudioFile.Document) : ℕ × ℕ :=
  (max doc.transport.beatsPerBar 1, max doc.transport.beatDivision 1)

def defaultMaster : MixerTrack :=
  { MixerTrack.new 0 "MASTER" true with volume := 7 / 10 }

def defaultStudioMixer : List MixerTrack :=
  [defaultMaster, { MixerTrack.new 1 "TRACK 01" false with volume := 7 / 10 }]

/-- The tracks of a file, or others in their place if it has none. -/
def builtOrDefault (saved : List ProjectFile.Track) (fallback : List MixerTrack) : List MixerTrack :=
  if saved = [] then fallback else saved.map (buildTrack toLowercase)

/-- The tracks of the live mixer once a document is opened. -/
def OpenLiveFile.Document.openedTracks (doc : OpenLiveFile.Document) : List MixerTrack :=
  syncTracks
    (setMaster doc.masterVolume doc.masterPan
      (builtOrDefault toLowercase doc.liveTracks [defaultMaster]))
    doc.matrix.tracks [] []

def OpenStudioFile.Document.openedTracks (doc : OpenStudioFile.Document) : List MixerTrack :=
  builtOrDefault toLowercase doc.studioTracks defaultStudioMixer

theorem strips_builtOrDefault (saved : List ProjectFile.Track) (fallback : List MixerTrack) :
    (builtOrDefault toLowercase saved fallback).map MixerTrack.strip =
      tracksOrDefault (saved.map (buildStrip toLowercase)) (fallback.map MixerTrack.strip) := by
  unfold builtOrDefault tracksOrDefault
  cases saved with
  | nil => rfl
  | cons t saved =>
    rw [if_neg (List.cons_ne_nil _ _), if_neg (by simp), List.map_map]
    rfl

/-- The strips of the opened tracks are those of the opened project. -/
theorem OpenLiveFile.Document.strips_openedTracks (doc : OpenLiveFile.Document) (disk : Disk)
    (baseDir : Option String) (s : ProjectState) :
    (doc.openedTracks toLowercase).map MixerTrack.strip =
      (s.apply disk baseDir (.openLive (doc.project toLowercase))).1.liveTracks := by
  rw [openedTracks, strips_syncTracks, strips_setMaster, strips_builtOrDefault]
  rfl

theorem OpenStudioFile.Document.strips_openedTracks (doc : OpenStudioFile.Document) (disk : Disk)
    (baseDir : Option String) (s : ProjectState) :
    (doc.openedTracks toLowercase).map MixerTrack.strip =
      (s.apply disk baseDir (.openStudio (doc.project toLowercase))).1.studioTracks :=
  strips_builtOrDefault toLowercase doc.studioTracks defaultStudioMixer

end

end HikaruOpenLive.Gui
