import Mathlib.Data.Rat.Floor
import NovelStudio.Timelines.Subtitles

/-! Caption tracks in ticks of a rational rate (`subtitle_timeline.py`): what a track is validated
for, and how it is rendered as SRT or WebVTT and read back. -/

namespace NovelStudio.Captions

open Library
open Timelines (Failure refuse Caption Entities Format)

/-- `numerator / denominator` ticks in a second. -/
structure Timebase where
  numerator : Nat
  denominator : Nat
  rate : 1 ≤ numerator ∧ numerator ≤ 192000
  scale : 1 ≤ denominator ∧ denominator ≤ 1001

structure CueFields where
  id : String
  startTick : Int
  endTick : Int
  text : String
  segmentId : Option String
  overlapReason : String
  deriving DecidableEq

/-- White space for `str_strip_whitespace`, which keeps the separators of ASCII. -/
def isWhite (char : Char) : Bool := isSpace char && !(0x1C ≤ char.toNat && char.toNat ≤ 0x1F)

def trim (text : String) : String := String.ofList (stripBy isWhite text.toList)

def CueFields.trimmed (cue : CueFields) : CueFields :=
  { cue with id := trim cue.id, text := trim cue.text, segmentId := cue.segmentId.map trim, overlapReason := trim cue.overlapReason }

/-- `Field(min_length=…, max_length=…)`. -/
def sized (text : String) (low high : Nat) : Except Failure Unit := do
  refuse (text.toList.length < low) "string_too_short"
  refuse (high < text.toList.length) "string_too_long"

/-- `Field(ge=…, le=…)`. -/
def ranged (number low high : Int) : Except Failure Unit := do
  refuse (number < low) "greater_than_equal"
  refuse (high < number) "less_than_equal"

def MAX_TICK : Int := 2 ^ 53 - 1

/-- `[<>\x00-\x08\x0b\x0c\x0e-\x1f\x7f]` -/
def isUnsafe (char : Char) : Bool :=
  char ∈ ['<', '>'] || char.toNat ≤ 0x08 || char.toNat ∈ [0x0B, 0x0C] || (0x0E ≤ char.toNat && char.toNat ≤ 0x1F) || char.toNat = 0x7F

/-- `re.search(r"\n\s*\n", text)`. -/
def hasEmptyLine (text : List Char) : Bool :=
  text.tails.any fun rest =>
    match rest with
    | '\n' :: more => '\n' ∈ more.takeWhile isSpace
    | _ => false

/-- `Cue.model_validate`. -/
def modelValidate (raw : CueFields) : Except Failure CueFields := do
  let cue := raw.trimmed
  sized cue.id 1 240
  ranged cue.startTick 0 MAX_TICK
  ranged cue.endTick 1 MAX_TICK
  sized cue.text 1 10000
  sized (cue.segmentId.getD "") 0 240
  sized cue.overlapReason 0 500
  refuse (cue.endTick ≤ cue.startTick) "CAPTION_REVERSED_TIME"
  refuse (cue.text.toList.all isSpace || cue.text.toList.any isUnsafe || hasEmptyLine cue.text.toList) "CAPTION_PLAIN_NONEMPTY_TEXT_REQUIRED"
  return cue

/-- A `Cue`: what validation returns. -/
structure Cue extends CueFields where
  validated : modelValidate toCueFields = .ok toCueFields

/-- `[<>\x00-\x1f\x7f]` -/
def isUnsafeLabel (char : Char) : Bool := char ∈ ['<', '>'] || char.toNat ≤ 0x1F || char.toNat = 0x7F

/-- The name of a speaker, as `_snapshot` lets it pass. -/
structure Speaker where
  name : String
  plain : name.toList.any isUnsafeLabel = false

structure Track where
  timebase : Timebase
  /-- `Fraction(**row["media"]["duration_seconds"])`. -/
  duration : Rat
  cues : List Cue
  /-- `row["speakers"]`, by the segments that they speak. -/
  speakers : List (String × Speaker)

def cueSeconds (base : Timebase) (tick : Int) : Rat := ((tick * base.denominator : Int) : Rat) / (base.numerator : Rat)

inductive Warning where
  | READING_SPEED_HEURISTIC | LONG_LINE_HEURISTIC
  deriving DecidableEq

/-- What `_validate` knows of the cues before. -/
structure Seen where
  warnings : List (String × Warning)
  previousStart : Int
  previousEnd : Int
  ids : List String
  deriving DecidableEq

/-- One cue of `_validate`. -/
def validateCue (track : Track) (seen : Seen) (raw : Cue) : Except Failure Seen := do
  let cue ← modelValidate raw.toCueFields
  refuse (cue.id ∈ seen.ids) "CAPTION_DUPLICATE_ID"
  refuse (cue.startTick < seen.previousStart) "CAPTION_ORDER_INVALID"
  refuse (track.duration < cueSeconds track.timebase cue.endTick) "CAPTION_OUT_OF_MEDIA_RANGE"
  refuse (cue.startTick < seen.previousEnd && (strip cue.overlapReason).toList.isEmpty) "CAPTION_OVERLAP_REQUIRES_REASON"
  let seconds := cueSeconds track.timebase (cue.endTick - cue.startTick)
  let characters := (cue.text.toList.filter (· ≠ '\n')).length
  let fast := if 21 < (characters : Rat) / seconds then [(cue.id, Warning.READING_SPEED_HEURISTIC)] else []
  let long := if (splitLines cue.text.toList).any (fun line => 42 < line.length) then [(cue.id, Warning.LONG_LINE_HEURISTIC)] else []
  return ⟨seen.warnings ++ fast ++ long, cue.startTick, max seen.previousEnd cue.endTick, seen.ids ++ [cue.id]⟩

def validate (track : Track) : Except Failure (List (String × Warning)) := do
  let seen ← track.cues.foldlM (validateCue track) ⟨[], -1, -1, []⟩
  return seen.warnings

/-- The digits that are no decimal digits, by their ranges. -/
def DIGIT_RANGES : List (Nat × Nat) :=
  [(0xB2, 0xB3), (0xB9, 0xB9), (0x1369, 0x1371), (0x19DA, 0x19DA), (0x2070, 0x2070), (0x2074, 0x2079), (0x2080, 0x2089), (0x2460, 0x2468),
    (0x2474, 0x247C), (0x2488, 0x2490), (0x24EA, 0x24EA), (0x24F5, 0x24FD), (0x24FF, 0x24FF), (0x2776, 0x277E), (0x2780, 0x2788), (0x278A, 0x2792),
    (0x10A40, 0x10A43), (0x10E60, 0x10E68), (0x11052, 0x1105A), (0x1F100, 0x1F10A)]

/-- `str.isdigit`. -/
def isDigits (text : List Char) : Bool :=
  !text.isEmpty && text.all fun char => isDecimal char || DIGIT_RANGES.any fun range => range.1 ≤ char.toNat && char.toNat ≤ range.2

/-- `(\d{2,}):(\d{2}):(\d{2})[,.](\d{3})` -/
def rule : StampRule := ⟨fun digits => 2 ≤ digits, isDecimal, [',', '.']⟩

/-- A run of more digits than `int` reads. -/
def overlong (line : List Char) : Bool := (line.splitOnP fun char => !isDecimal char).any fun run => MAX_STR_DIGITS < run.length

/-- `"\n".join(lines[2:])`, of the lines of a block. -/
def blockText (block : List Char) : List Char := ['\n'].intercalate ((splitLines block).drop 2)

/-- One block of `read_captions`. -/
def readBlock (entities : Entities) (format : Format) (block : List Char) : Except Failure Caption := do
  let lines := splitLines block
  refuse (lines.length < 3 || !isDigits (lines.headD [])) "CAPTION_PARSE_BLOCK"
  let line := lines.tail.headD []
  let (startMs, endMs) ← fetch (readTiming rule line) ⟨"CAPTION_PARSE_TIMING"⟩
  refuse (overlong line) "Exceeds the limit (4300 digits) for integer string conversion"
  refuse (endMs ≤ startMs) "CAPTION_EXPORT_MILLISECOND_RESOLUTION"
  return ⟨startMs, endMs, String.ofList (format.read entities (blockText block))⟩

/-- The blocks of a text that is stripped, if anything is left of it. -/
def blocksOf (text : List Char) : List (List Char) :=
  if stripBy isSpace text = [] then [] else splitDouble '\n' (stripBy isSpace text)

def readCaptions (entities : Entities) (text : List Char) (format : Format) : Except Failure (List Caption) := do
  refuse (!format.header.isPrefixOf text) "CAPTION_VTT_HEADER"
  (blocksOf (text.drop format.header.length)).mapM (readBlock entities format)

/-- `int(cue_seconds(tick, base) * 1000)`, of a tick that is not negative. -/
def milliseconds (base : Timebase) (tick : Int) : Nat := ⌊cueSeconds base tick * 1000⌋.toNat

/-- The name of who speaks a cue, if it has one that is not empty. -/
def Track.speaker (track : Track) (cue : Cue) : Option String :=
  (cue.segmentId.bind fun segment => (track.speakers.find? fun pair => pair.1 = segment).map fun pair => pair.2.name).filter (· ≠ "")

/-- The text of a cue with the label of its speaker. -/
def Track.shown (track : Track) (cue : Cue) : List Char :=
  match track.speaker cue with
  | some name => '[' :: name.toList ++ ']' :: ' ' :: cue.text.toList
  | none => cue.text.toList

/-- What a cue is expected to be read back as. -/
def Track.expected (track : Track) (cue : Cue) : Caption :=
  ⟨milliseconds track.timebase cue.startTick, milliseconds track.timebase cue.endTick, String.ofList (track.shown cue)⟩

/-- A block of the output before its text is escaped. -/
def Track.block (track : Track) (format : Format) (index : Nat) (cue : Cue) : List Char :=
  Nat.toDigits 10 index ++ '\n' :: timing format.separator (milliseconds track.timebase cue.startTick) (milliseconds track.timebase cue.endTick) ++
    '\n' :: format.write (track.shown cue)

def Track.blocks (track : Track) (format : Format) : Nat → List Cue → Except Failure (List (List Char))
  | _, [] => .ok []
  | index, cue :: rest => do
    refuse (milliseconds track.timebase cue.endTick ≤ milliseconds track.timebase cue.startTick) "CAPTION_EXPORT_MILLISECOND_RESOLUTION"
    return track.block format index cue :: (← track.blocks format (index + 1) rest)

/-- `render_captions`, up to the UTF-8 of its output. -/
def renderCaptions (entities : Entities) (track : Track) (format : Format) : Except Failure (List Char) := do
  let blocks ← track.blocks format 1 track.cues
  let output := format.header ++ ['\n', '\n'].intercalate blocks ++ ['\n']
  let rows ← readCaptions entities output format
  refuse (rows ≠ track.cues.map track.expected) "CAPTION_ROUND_TRIP_FAILED"
  return output

end NovelStudio.Captions
