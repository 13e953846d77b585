import NovelStudio.Library.JsonDecoder
import NovelStudio.Library.Splitting
import NovelStudio.Library.Stamps
import NovelStudio.Timelines.Canonical

/-! Subtitles of a timeline as SRT and WebVTT texts (`studio_timeline_subtitles.py`). -/

namespace NovelStudio.Timelines

open Library

def MAX_SIDECAR_BYTES : Nat := 192000

/-- `html.entities.html5`: what the names of characters stand for, most of them with their semicolon. -/
structure Entities where
  text : List Char → Option (List Char)
  /-- `max(map(len, html5))`. -/
  longest : Nat
  within : ∀ name, (text name).isSome = true → name.length ≤ longest
  amp : text ['a', 'm', 'p', ';'] = some ['&']

def HTML_C1_REPLACEMENTS : List (Nat × Nat) :=
  [(0x80, 0x20AC), (0x82, 0x201A), (0x83, 0x0192), (0x84, 0x201E), (0x85, 0x2026), (0x86, 0x2020), (0x87, 0x2021), (0x88, 0x02C6),
    (0x89, 0x2030), (0x8A, 0x0160), (0x8B, 0x2039), (0x8C, 0x0152), (0x8E, 0x017D), (0x91, 0x2018), (0x92, 0x2019), (0x93, 0x201C),
    (0x94, 0x201D), (0x95, 0x2022), (0x96, 0x2013), (0x97, 0x2014), (0x98, 0x02DC), (0x99, 0x2122), (0x9A, 0x0161), (0x9B, 0x203A),
    (0x9C, 0x0153), (0x9E, 0x017E), (0x9F, 0x0178)]

/-- The longest beginning that is a name, and what follows it. -/
def longestName (entities : Entities) (reference : List Char) : Nat → Option (List Char)
  | 0 => none
  | length + 1 =>
    match entities.text (reference.take (length + 1)) with
    | some text => some (text ++ reference.drop (length + 1))
    | none => longestName entities reference length

/-- The number of some digits, where it is a code point. -/
def codePoint (base : Nat) : Nat → List Char → Option Nat
  | point, [] => some point
  | point, digit :: rest =>
    let next := point * base + (hexDigit digit).getD 0
    if next > 0x10FFFF then none else codePoint base next rest

/-- `_decode_vtt_reference`, of what follows the ampersand. -/
def decodeVttReference (entities : Entities) (reference : List Char) : List Char :=
  match reference with
  | '#' :: digits =>
    let digits := if digits.getLast? = some ';' then digits.dropLast else digits
    let point :=
      match digits with
      | 'x' :: digits | 'X' :: digits => codePoint 16 0 digits
      | digits => codePoint 10 0 digits
    match point with
    | none => ['\uFFFD']
    | some point =>
      if point = 0 ∨ (0xD800 ≤ point ∧ point ≤ 0xDFFF) then ['\uFFFD']
      else [Char.ofNat (((HTML_C1_REPLACEMENTS.find? fun pair => pair.1 = point).map Prod.snd).getD point)]
  | reference => (longestName entities reference (min reference.length entities.longest)).getD ('&' :: reference)

def isHexDigit (char : Char) : Bool := (hexDigit char).isSome

/-- What is taken, with the semicolon that may follow it. -/
def closed (taken left : List Char) : List Char := if left.head? = some ';' then taken ++ [';'] else taken

/-- What `_VTT_REFERENCE_PATTERN` matches behind an ampersand. -/
def referenceText : List Char → Option (List Char)
  | '#' :: mark :: rest =>
    if (mark = 'x' ∨ mark = 'X') ∧ rest.takeWhile isHexDigit ≠ [] then
      some (closed ('#' :: mark :: rest.takeWhile isHexDigit) (rest.dropWhile isHexDigit))
    else if (mark :: rest).takeWhile isNumeral ≠ [] then
      some (closed ('#' :: (mark :: rest).takeWhile isNumeral) ((mark :: rest).dropWhile isNumeral))
    else none
  | first :: rest =>
    if first.isAlpha then some (closed (first :: rest.takeWhile Char.isAlphanum) (rest.dropWhile Char.isAlphanum)) else none
  | [] => none

/-- The text with its references replaced, where so many characters belong to the last one. -/
def decodeFrom (entities : Entities) : Nat → List Char → List Char
  | _, [] => []
  | skip + 1, _ :: rest => decodeFrom entities skip rest
  | 0, char :: rest =>
    match if char = '&' then referenceText rest else none with
    | some reference => decodeVttReference entities reference ++ decodeFrom entities reference.length rest
    | none => char :: decodeFrom entities 0 rest

def decodeVttText (entities : Entities) (text : List Char) : List Char := decodeFrom entities 0 text

/-- `text.replace("&", "&amp;")`. -/
def escapeAmpersands (text : List Char) : List Char := text.flatMap fun char => if char = '&' then ['&', 'a', 'm', 'p', ';'] else [char]

variable {entities : Entities}

theorem decodeFrom_skip (taken rest : List Char) : decodeFrom entities taken.length (taken ++ rest) = decodeFrom entities 0 rest := by
  induction taken with
  | nil => rfl
  | cons char taken ih => exact ih

theorem decodeVttText_escape (text : List Char) : decodeVttText entities (escapeAmpersands text) = text := by
  unfold decodeVttText
  induction text with
  | nil => rfl
  | cons char text ih =>
    by_cases ampersand : char = '&'
    · subst ampersand
      have shape : escapeAmpersands ('&' :: text) = '&' :: (['a', 'm', 'p', ';'] ++ escapeAmpersands text) := rfl
      have found : referenceText (['a', 'm', 'p', ';'] ++ escapeAmpersands text) = some ['a', 'm', 'p', ';'] := rfl
      have four : min 4 entities.longest = 3 + 1 := Nat.min_eq_left (entities.within ['a', 'm', 'p', ';'] (by rw [entities.amp]; rfl))
      have decoded : decodeVttReference entities ['a', 'm', 'p', ';'] = ['&'] := by
        change (longestName entities ['a', 'm', 'p', ';'] (min 4 entities.longest)).getD _ = _
        rw [four, longestName]
        simp [entities.amp]
      have skipped : decodeFrom entities ['a', 'm', 'p', ';'].length (['a', 'm', 'p', ';'] ++ escapeAmpersands text) = decodeFrom entities 0 (escapeAmpersands text) :=
        decodeFrom_skip ['a', 'm', 'p', ';'] (escapeAmpersands text)
      rw [shape, decodeFrom, if_pos rfl, found]
      simp only [decoded]
      rw [skipped, ih]
      rfl
    · have shape : escapeAmpersands (char :: text) = char :: escapeAmpersands text := by
        simp [escapeAmpersands, ampersand]
      rw [shape, decodeFrom, if_neg ampersand]
      simp only [ih]

inductive Format where
  | srt | vtt
  deriving DecidableEq

def Format.name : Format → String
  | .srt => "SRT"
  | .vtt => "VTT"

/-- `format not in {"SRT", "VTT"}` is refused. -/
def formatNamed (name : String) : Except Failure Format :=
  fetch ([Format.srt, .vtt].find? fun format => format.name = name) ⟨"STUDIO_SUBTITLE_FORMAT_INVALID"⟩

def Format.separator : Format → Char
  | .srt => ','
  | .vtt => '.'

def Format.header : Format → List Char
  | .srt => []
  | .vtt => ['W', 'E', 'B', 'V', 'T', 'T', '\n', '\n']

def Format.write (format : Format) (text : List Char) : List Char :=
  match format with
  | .srt => text
  | .vtt => escapeAmpersands text

def Format.read (format : Format) (entities : Entities) (text : List Char) : List Char :=
  match format with
  | .srt => text
  | .vtt => decodeVttText entities text

/-- Two to six digits of hours, and a first digit below six. -/
def Format.rule (format : Format) : StampRule :=
  ⟨fun digits => 2 ≤ digits && digits ≤ 6, fun char => '0' ≤ char && char ≤ '5', [format.separator]⟩

/-- The lines of a cue after its number, which WebVTT may leave out. -/
def cueLines (format : Format) (index : Nat) (lines : List (List Char)) : Except Failure (List (List Char)) :=
  if format = .vtt && (readTiming format.rule (lines.headD [])).isSome then .ok lines
  else do
    refuse (lines.length < 3 || lines.head? ≠ some (Nat.toDigits 10 index)) "STUDIO_SUBTITLE_NUMBERED_CUES_REQUIRED"
    return lines.tail

/-- One cue of `parse_subtitle_cues`. -/
def readCue (entities : Entities) (format : Format) (index : Nat) (block : List Char) : Except Failure Caption := do
  let lines ← cueLines format index (block.splitOn '\n')
  let (startMs, endMs) ← fetch (readTiming format.rule (lines.headD [])) ⟨"STUDIO_SUBTITLE_PLAIN_TIMING_REQUIRED"⟩
  refuse (lines.length ≤ 1) "STUDIO_SUBTITLE_PLAIN_TIMING_REQUIRED"
  return ⟨startMs, endMs, String.ofList (format.read entities (['\n'].intercalate lines.tail))⟩

def readCues (entities : Entities) (format : Format) : Nat → List (List Char) → Except Failure (List Caption)
  | _, [] => .ok []
  | index, block :: rest => do
    let cue ← readCue entities format index block
    return cue :: (← readCues entities format (index + 1) rest)

/-- `content.removeprefix("\ufeff")`. -/
def removeMark (text : List Char) : List Char := if text.head? = some '\uFEFF' then text.tail else text

/-- The text after the header of its format. -/
def dropHeader (format : Format) (text : List Char) : Except Failure (List Char) := do
  refuse (!format.header.isPrefixOf text) "STUDIO_SUBTITLE_VTT_PLAIN_HEADER_REQUIRED"
  return text.drop format.header.length

/-- The blocks between empty lines; there are none in a text of nothing but ends of lines. -/
def cueBlocks (text : List Char) : List (List Char) :=
  let inner := stripBy (· = '\n') text
  if inner = [] then [] else splitDouble '\n' inner

def parseSubtitleCues (entities : Entities) (content name : String) : Except Failure (List Caption) := do
  let format ← formatNamed name
  refuse (MAX_SIDECAR_BYTES < content.utf8ByteSize) "STUDIO_SUBTITLE_BYTE_LIMIT"
  let text := foldLines (removeMark content.toList)
  refuse ('\r' ∈ text) "STUDIO_SUBTITLE_LINE_ENDINGS_INVALID"
  let body ← dropHeader format text
  let blocks := cueBlocks body
  refuse (!(1 ≤ blocks.length && blocks.length ≤ 500)) "STUDIO_SUBTITLE_CUE_LIMIT"
  readCues entities format 1 blocks

def importSubtitles (entities : Entities) (timeline : Row) (content name : String) : Except Failure Json := do
  let cues ← parseSubtitleCues entities content name
  normalizeStudioTimeline (.dict (store "captions" (.list (cues.map Caption.value)) timeline))

def intField (value : Json) (key : String) : Int :=
  match value.get? key with
  | some (.int number) => number
  | _ => 0

def textField (value : Json) (key : String) : String :=
  match value.get? key with
  | some (.str text) => text
  | _ => ""

/-- A caption of a normalized timeline. -/
def captionOf (value : Json) : Caption := ⟨intField value "start_ms", intField value "end_ms", textField value "text"⟩

/-- `row["captions"]`, which a timeline of audio does not have. -/
def captionsOf (row : Json) : Option (List Caption) :=
  match row.get? "captions" with
  | some (.list items) => some (items.map captionOf)
  | _ => none

/-- A cue as it is written; the times of a normalized timeline are not negative. -/
def cueBlock (format : Format) (index : Nat) (cue : Caption) : List Char :=
  Nat.toDigits 10 index ++ '\n' :: timing format.separator cue.startMs.toNat cue.endMs.toNat ++ '\n' :: format.write cue.text.toList

def cueTexts (format : Format) : Nat → List Caption → List (List Char)
  | _, [] => []
  | index, cue :: rest => cueBlock format index cue :: cueTexts format (index + 1) rest

def sidecar (format : Format) (captions : List Caption) : List Char :=
  format.header ++ ['\n', '\n'].intercalate (cueTexts format 1 captions) ++ if captions.isEmpty then [] else ['\n']

/-- `export_subtitles`, up to the UTF-8 of its text. -/
def exportSubtitles (timeline : Json) (name : String) : Except Failure String := do
  let format ← formatNamed name
  let row ← normalizeStudioTimeline timeline
  let captions ← fetch (captionsOf row) ⟨"captions"⟩
  let content := String.ofList (sidecar format captions)
  refuse (MAX_SIDECAR_BYTES < content.utf8ByteSize) "STUDIO_SUBTITLE_BYTE_LIMIT"
  return content

end NovelStudio.Timelines
