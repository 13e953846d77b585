import Mathlib.Data.Prod.Lex
import Mathlib.Data.String.Basic
import NovelStudio.Library.Readings
import NovelStudio.Library.Text
import NovelStudio.Timelines.Fields

/-! Timelines of schema two and three (`studio_timeline_schema.py`), as they are read from a value. -/

namespace NovelStudio.Timelines

open Library

inductive Kind where
  | video | audio
  deriving DecidableEq

def Kind.text : Kind → String
  | .video => "VIDEO"
  | .audio => "AUDIO"

inductive AssetKind where
  | video | image | audio
  deriving DecidableEq

def AssetKind.text : AssetKind → String
  | .video => "video"
  | .image => "image"
  | .audio => "audio"

inductive Role where
  | PRIMARY | OVERLAY | DIALOGUE | MUSIC | EFFECTS
  deriving DecidableEq

def Role.text : Role → String
  | .PRIMARY => "PRIMARY"
  | .OVERLAY => "OVERLAY"
  | .DIALOGUE => "DIALOGUE"
  | .MUSIC => "MUSIC"
  | .EFFECTS => "EFFECTS"

/-- The one of some choices that has the text of a value. -/
def choose {α : Type} (choices : List α) (text : α → String) (value : Json) (code : String) : Except Failure α :=
  match value with
  | .str stored => fetch (choices.find? fun choice => text choice = stored) ⟨code⟩
  | _ => throw ⟨code⟩

def Kind.assets : Kind → List AssetKind
  | .video => [.video, .image]
  | .audio => [.audio]

def Kind.roles : Kind → List Role
  | .video => [.PRIMARY, .OVERLAY]
  | .audio => [.DIALOGUE, .MUSIC, .EFFECTS]

def Kind.role : Kind → Role
  | .video => .PRIMARY
  | .audio => .DIALOGUE

/-- The `source_snapshot` of a clip; its `kind` is always `ASSET`. -/
structure Snapshot where
  id : String
  assetKind : AssetKind
  version : Int
  digest : String
  deriving DecidableEq

/-- When a clip is played, how fast and how loud. -/
structure Segment where
  startMs : Int
  inMs : Int
  outMs : Int
  speedNum : Int
  speedDen : Int
  muted : Bool
  gainDb : PyFloat
  fadeInMs : Int
  fadeOutMs : Int

structure Rectangle where
  x : Int
  y : Int
  width : Int
  height : Int
  deriving DecidableEq

structure Color where
  brightness : PyFloat
  contrast : PyFloat
  saturation : PyFloat

/-- A `CROSS_DISSOLVE`. -/
structure Transition where
  toClipId : String
  durationMs : Int

/-- What only a clip of a video track has. -/
structure Picture where
  frame : Rectangle
  opacity : PyFloat
  includeAudio : Bool
  color : Option Color
  crop : Option Rectangle
  transition : Option Transition

structure Clip where
  id : String
  source : Snapshot
  segment : Segment
  picture : Option Picture

structure Track where
  id : String
  kind : Kind
  order : Int
  role : Role
  muted : Bool
  gainDb : PyFloat
  clips : List Clip
  locked : Option Bool

structure Caption where
  startMs : Int
  endMs : Int
  text : String
  deriving DecidableEq

inductive Alignment where
  | TOP_CENTER | BOTTOM_CENTER
  deriving DecidableEq

def Alignment.text : Alignment → String
  | .TOP_CENTER => "TOP_CENTER"
  | .BOTTOM_CENTER => "BOTTOM_CENTER"

structure CaptionStyle where
  fontSize : Int
  primaryColor : String
  alignment : Alignment
  outlineWidth : Int

structure Link where
  videoClipId : String
  audioClipId : String
  offsetMs : Int
  deriving DecidableEq

/-- What only a timeline with video has. -/
structure Screen where
  width : Int
  height : Int
  fps : Int
  captions : List Caption
  captionStyle : Option CaptionStyle
  clipLinks : Option (List Link)

/-- A timeline of schema two, with a screen, or of schema three, without one. -/
structure Timeline where
  durationMs : Int
  tracks : List Track
  screen : Option Screen

/-- What the clips of a timeline are read against. -/
structure Frame where
  audioOnly : Bool
  duration : Int
  width : Int
  height : Int
  fps : Int

/-- `clip_duration_ms`: `divmod((out - in) * den, num)` without a remainder. -/
def clipDurationMs (segment : Segment) : Except Failure Int := do
  refuse (!(1 ≤ segment.speedNum && segment.speedNum ≤ 4) || !(1 ≤ segment.speedDen && segment.speedDen ≤ 4)) "STUDIO_TIMELINE_SPEED_INVALID"
  let duration := ((segment.outMs - segment.inMs) * segment.speedDen).fdiv segment.speedNum
  let remainder := ((segment.outMs - segment.inMs) * segment.speedDen).fmod segment.speedNum
  refuse (duration < 1 || remainder ≠ 0) "STUDIO_TIMELINE_SPEED_REQUIRES_EXACT_MILLISECONDS"
  return duration

/-- `re.fullmatch(r"[a-f0-9]{64}", digest)`. -/
def isDigest (digest : String) : Bool :=
  digest.toList.length = 64 && digest.toList.all fun char => ('a' ≤ char && char ≤ 'f') || ('0' ≤ char && char ≤ '9')

def SNAPSHOT_FIELDS : List String := ["id", "kind", "asset_kind", "version", "digest"]

def text (value : Json) (code : String) : Except Failure String :=
  match value with
  | .str stored => return stored
  | _ => throw ⟨code⟩

def readSnapshot (kind : Kind) (value : Json) : Except Failure Snapshot := do
  let source ← object value SNAPSHOT_FIELDS SNAPSHOT_FIELDS
  refuse (source.item "kind" ≠ .str "ASSET") "STUDIO_TIMELINE_SOURCE_INVALID"
  let assetKind ← choose kind.assets AssetKind.text (source.item "asset_kind") "STUDIO_TIMELINE_SOURCE_INVALID"
  let digest ← text (source.item "digest") "STUDIO_TIMELINE_SOURCE_INVALID"
  refuse (!isDigest digest) "STUDIO_TIMELINE_SOURCE_INVALID"
  let id ← identity (source.item "id")
  let version ← integer (source.item "version") 1 (2 ^ 53 - 1)
  return ⟨id, assetKind, version, digest⟩

/-- When, how fast and how loud a clip is played. -/
def readSegment (frame : Frame) (clip : Row) : Except Failure Segment := do
  let startMs ← integer (clip.item "start_ms") 0 (frame.duration - 1)
  let inMs ← integer (clip.item "in_ms") 0 36000000
  let outMs ← integer (clip.item "out_ms") 1 36000000
  refuse (outMs ≤ inMs) "STUDIO_TIMELINE_CLIP_RANGE_INVALID"
  let num ← integer (clip.get "speed_num" (.int 1)) 1 4
  let den ← integer (clip.get "speed_den" (.int 1)) 1 4
  let divisor : Int := Int.gcd num den
  let muted ← boolean (clip.get "muted" (.bool false))
  let gainDb ← number (clip.get "gain_db" (.float (.finite 0))) (-60) 12 "STUDIO_TIMELINE_AUDIO_GAIN_INVALID"
  let segment : Segment := ⟨startMs, inMs, outMs, num / divisor, den / divisor, muted, gainDb, 0, 0⟩
  let length ← clipDurationMs segment
  refuse (startMs + length > frame.duration) "STUDIO_TIMELINE_CLIP_RANGE_INVALID"
  let fadeInMs ← integer (clip.get "fade_in_ms" (.int 0)) 0 length
  let fadeOutMs ← integer (clip.get "fade_out_ms" (.int 0)) 0 length
  refuse (fadeInMs + fadeOutMs > length) "STUDIO_TIMELINE_FADE_RANGE_INVALID"
  return { segment with fadeInMs := fadeInMs, fadeOutMs := fadeOutMs }

/-- Where a picture is on the screen: by default from its place to the edges. -/
def readRectangle (frame : Frame) (clip : Row) : Except Failure Rectangle := do
  let x ← integer (clip.get "x" (.int 0)) 0 (frame.width - 16)
  let y ← integer (clip.get "y" (.int 0)) 0 (frame.height - 16)
  let width ← integer (clip.get "width" (.int (frame.width - x))) 16 (frame.width - x)
  let height ← integer (clip.get "height" (.int (frame.height - y))) 16 (frame.height - y)
  refuse (width % 2 ≠ 0 || height % 2 ≠ 0) "STUDIO_TIMELINE_EVEN_DIMENSIONS_REQUIRED"
  return ⟨x, y, width, height⟩

def COLOR_FIELDS : List String := ["brightness", "contrast", "saturation"]

def readColor (value : Json) : Except Failure Color := do
  let color ← object value COLOR_FIELDS COLOR_FIELDS
  let brightness ← number (color.item "brightness") (-1) 1 "STUDIO_TIMELINE_COLOR_ADJUSTMENT_INVALID"
  let contrast ← number (color.item "contrast") 0 2 "STUDIO_TIMELINE_COLOR_ADJUSTMENT_INVALID"
  let saturation ← number (color.item "saturation") 0 3 "STUDIO_TIMELINE_COLOR_ADJUSTMENT_INVALID"
  return ⟨brightness, contrast, saturation⟩

def RECTANGLE_FIELDS : List String := ["x", "y", "width", "height"]

def readCrop (value : Json) : Except Failure Rectangle := do
  let crop ← object value RECTANGLE_FIELDS RECTANGLE_FIELDS
  let x ← integer (crop.item "x") 0 32767
  let y ← integer (crop.item "y") 0 32767
  let width ← integer (crop.item "width") 1 32768
  let height ← integer (crop.item "height") 1 32768
  return ⟨x, y, width, height⟩

def TRANSITION_FIELDS : List String := ["kind", "to_clip_id", "duration_ms"]

/-- `math.ceil(2000 / fps)`. -/
def shortestTransition (fps : Int) : Int := (2000 + fps - 1) / fps

def readTransition (frame : Frame) (value : Json) : Except Failure Transition := do
  let transition ← object value TRANSITION_FIELDS TRANSITION_FIELDS
  refuse (transition.item "kind" ≠ .str "CROSS_DISSOLVE") "STUDIO_TIMELINE_TRANSITION_KIND_INVALID"
  let toClipId ← identity (transition.item "to_clip_id")
  let durationMs ← integer (transition.item "duration_ms") (shortestTransition frame.fps) 10000
  return ⟨toClipId, durationMs⟩

/-- A field that may be absent, and stays absent then. -/
def optional {α : Type} (row : Row) (key : String) (read : Json → Except Failure α) : Except Failure (Option α) :=
  match lookup key row with
  | some value => some <$> read value
  | none => return none

def readPicture (frame : Frame) (source : Snapshot) (segment : Segment) (clip : Row) : Except Failure Picture := do
  let rectangle ← readRectangle frame clip
  let opacity ← number (clip.get "opacity" (.float (.finite 1))) 0 1 "STUDIO_TIMELINE_OPACITY_INVALID"
  let includeAudio ← boolean (clip.get "include_audio" (.bool false))
  refuse (source.assetKind = .image && (segment.inMs ≠ 0 || segment.speedNum ≠ segment.speedDen || includeAudio))
    "STUDIO_TIMELINE_STILL_RANGE_INVALID"
  refuse (!includeAudio && !isZero segment.gainDb) "STUDIO_TIMELINE_GAIN_REQUIRES_AUDIO"
  let color ← optional clip "color_adjustment" readColor
  let crop ← optional clip "crop" readCrop
  let transition ← optional clip "transition_out" (readTransition frame)
  return ⟨rectangle, opacity, includeAudio, color, crop, transition⟩

def CLIP_REQUIRED : List String := ["id", "source_snapshot", "start_ms", "in_ms", "out_ms"]
def SOUND_FIELDS : List String := ["speed_num", "speed_den", "gain_db", "muted", "fade_in_ms", "fade_out_ms"]
def PICTURE_FIELDS : List String := ["x", "y", "width", "height", "opacity", "include_audio", "crop", "transition_out", "color_adjustment"]
def CLIP_FIELDS : List String := CLIP_REQUIRED ++ SOUND_FIELDS ++ PICTURE_FIELDS

/-- The picture of a clip of a video track; a clip of an audio track has no field of it. -/
def readKind (frame : Frame) (kind : Kind) (source : Snapshot) (segment : Segment) (clip : Row) : Except Failure (Option Picture) :=
  match kind with
  | .video => some <$> readPicture frame source segment clip
  | .audio => do
    refuse (PICTURE_FIELDS.any clip.has) "STUDIO_TIMELINE_VIDEO_GEOMETRY_REQUIRES_VIDEO"
    return none

/-- `sources.setdefault(...) != snapshot`: a clip before has another snapshot of the asset. -/
def conflicts (earlier : List Clip) (source : Snapshot) : Bool :=
  ((earlier.map Clip.source).find? fun other => other.id = source.id).any fun other => other ≠ source

/-- A clip, behind the clips that were read before in all tracks. -/
def readClip (frame : Frame) (kind : Kind) (earlier : List Clip) (value : Json) : Except Failure Clip := do
  let clip ← object value CLIP_FIELDS CLIP_REQUIRED
  let id ← identity (clip.item "id")
  refuse (earlier.any fun other => other.id = id) "STUDIO_TIMELINE_CLIP_ID_DUPLICATE"
  refuse (earlier.length + 1 > MAX_CLIPS) "STUDIO_TIMELINE_CLIP_LIMIT"
  let source ← readSnapshot kind (clip.item "source_snapshot")
  refuse (conflicts earlier source) "STUDIO_TIMELINE_SOURCE_SNAPSHOT_CONFLICT"
  let segment ← readSegment frame clip
  let picture ← readKind frame kind source segment clip
  return ⟨id, source, segment, picture⟩

def Clip.transition (clip : Clip) : Option Transition := clip.picture.bind Picture.transition

/-- The two pictures of a transition are at one place, and none is muted or fades. -/
def compatible (left right : Clip) : Bool :=
  (left.picture.map Picture.frame = right.picture.map Picture.frame) &&
  (match left.picture, right.picture with
    | some one, some two => Json.sameNumber (.float one.opacity) (.float two.opacity)
    | _, _ => true) &&
  !left.segment.muted && !right.segment.muted &&
  [left, right].all fun clip => clip.segment.fadeInMs = 0 && clip.segment.fadeOutMs = 0

/-- A turn of the video pass: a clip, the one behind it, and the window of the transition into it. -/
def videoTurn (incoming : Int) (left : Clip) (right : Option Clip) : Except Failure Int := do
  let length ← clipDurationMs left.segment
  match left.transition, right with
  | none, none => return 0
  | none, some right => do
    refuse (left.segment.startMs + length - right.segment.startMs > 0) "STUDIO_TIMELINE_SAME_VIDEO_TRACK_OVERLAP"
    return 0
  | some _, none => throw ⟨"STUDIO_TIMELINE_TRANSITION_WINDOW_INVALID"⟩
  | some transition, some right => do
    let window := transition.durationMs
    refuse (transition.toClipId ≠ right.id || left.segment.startMs + length - right.segment.startMs ≠ window || window ≥ length)
      "STUDIO_TIMELINE_TRANSITION_WINDOW_INVALID"
    let other ← clipDurationMs right.segment
    refuse (window ≥ other || incoming + window > length) "STUDIO_TIMELINE_TRANSITION_WINDOW_INVALID"
    refuse (!compatible left right) "STUDIO_TIMELINE_TRANSITION_VISUALS_INCOMPATIBLE"
    return window

/-- The pass over the sorted clips of a video track. -/
def videoPass (incoming : Int) : List Clip → Except Failure Unit
  | [] => return ()
  | left :: rest => do
    let incoming ← videoTurn incoming left rest.head?
    videoPass incoming rest

/-- `clips.sort(key=lambda item: (item["start_ms"], item["id"]))`. -/
def sortClips (clips : List Clip) : List Clip := sortBy (fun clip => toLex (clip.segment.startMs, clip.id)) clips

def TRACK_FIELDS : List String := ["id", "kind", "order", "role", "muted", "gain_db", "clips", "locked"]
def TRACK_REQUIRED : List String := ["id", "kind", "order", "clips"]

def listOf (value : Json) (low high : Nat) (code : String) : Except Failure (List Json) :=
  match value with
  | .list items => do
    refuse (!(low ≤ items.length && items.length ≤ high)) code
    return items
  | _ => throw ⟨code⟩

/-- The clips of a track, behind those of other tracks. -/
def readClips (frame : Frame) (kind : Kind) (earlier : List Clip) (items : List Json) : Except Failure (List Clip) :=
  readAll (fun seen => readClip frame kind (earlier ++ seen)) items

/-- A track, behind the tracks that were read before. -/
def readTrack (frame : Frame) (earlier : List Track) (value : Json) : Except Failure Track := do
  let track ← object value TRACK_FIELDS TRACK_REQUIRED
  let id ← identity (track.item "id")
  let order ← integer (track.item "order") 0 7
  let kind ← choose [Kind.video, .audio] Kind.text (track.item "kind") "STUDIO_TIMELINE_TRACK_ID_ORDER_KIND_INVALID"
  refuse (earlier.any fun other => other.id = id || other.order = order) "STUDIO_TIMELINE_TRACK_ID_ORDER_KIND_INVALID"
  refuse (frame.audioOnly && kind ≠ .audio) "STUDIO_TIMELINE_AUDIO_TRACK_REQUIRED"
  refuse ((earlier.filter fun other => other.kind = kind).length + 1 > 4) "STUDIO_TIMELINE_TRACK_KIND_LIMIT"
  let role ← choose kind.roles Role.text (track.get "role" (.str kind.role.text)) "STUDIO_TIMELINE_TRACK_ROLE_INVALID"
  let muted ← boolean (track.get "muted" (.bool false))
  let gainDb ← number (track.get "gain_db" (.float (.finite 0))) (-60) 12 "STUDIO_TIMELINE_AUDIO_GAIN_INVALID"
  refuse (kind ≠ .audio && !isZero gainDb) "STUDIO_TIMELINE_GAIN_REQUIRES_AUDIO"
  let items ← listOf (track.item "clips") 1 MAX_CLIPS "STUDIO_TIMELINE_CLIP_LIMIT"
  let clips ← readClips frame kind (earlier.flatMap Track.clips) items
  onlyIf (kind = .video) (videoPass 0 (sortClips clips))
  let locked ← optional track "locked" boolean
  return ⟨id, kind, order, role, muted, gainDb, sortClips clips, locked⟩

/-- `text.replace("\r\n", "\n")`. -/
def foldLines : List Char → List Char
  | [] => []
  | '\r' :: '\n' :: rest => '\n' :: foldLines rest
  | char :: rest => char :: foldLines rest

def contains (pattern text : List Char) : Bool := text.tails.any fun rest => pattern.isPrefixOf rest

/-- A character that a caption may not have. -/
def isForbidden (char : Char) : Bool := (char.toNat < 32 && char ≠ '\n') || char.toNat = 127 || char ∈ ['\x7b', '\x7d', '<', '>', '\\']

def isLiteral (text : List Char) : Bool :=
  text.count '\n' ≤ 7 && !contains ['-', '-', '>'] text && (text.splitOn '\n').all (fun line => !line.all isSpace) && !text.any isForbidden

def CAPTION_FIELDS : List String := ["start_ms", "end_ms", "text"]

/-- A caption, behind the captions that were read before. -/
def readCaption (duration : Int) (earlier : List Caption) (value : Json) : Except Failure Caption := do
  let cue ← object value CAPTION_FIELDS CAPTION_FIELDS
  let startMs ← integer (cue.item "start_ms") 0 (duration - 1)
  let endMs ← integer (cue.item "end_ms") 1 duration
  let raw ← text (cue.item "text") "STUDIO_TIMELINE_CAPTION_TEXT_INVALID"
  refuse (raw.toList.all isSpace || raw.toList.length > 1000) "STUDIO_TIMELINE_CAPTION_TEXT_INVALID"
  let folded := foldLines raw.toList
  refuse (endMs ≤ startMs || !isLiteral folded) "STUDIO_TIMELINE_CAPTION_LITERAL_TEXT_REQUIRED"
  refuse ((earlier.map fun other => other.text.toList.length).sum + folded.length > MAX_CAPTION_CHARACTERS) "STUDIO_TIMELINE_CAPTION_LIMIT"
  return ⟨startMs, endMs, String.ofList folded⟩

/-- `captions.sort(key=lambda cue: (cue["start_ms"], cue["end_ms"], cue["text"]))`. -/
def sortCaptions (captions : List Caption) : List Caption :=
  sortBy (fun cue => toLex (cue.startMs, toLex (cue.endMs, cue.text))) captions

def readCaptions (duration : Int) (value : Json) : Except Failure (List Caption) := do
  let items ← listOf value 0 500 "STUDIO_TIMELINE_CAPTION_LIMIT"
  let captions ← readAll (readCaption duration) items
  return sortCaptions captions

def STYLE_FIELDS : List String := ["font_size", "primary_color", "alignment", "outline_width"]

def HEX_DIGITS : List Char :=
  ['0', '1', '2', '3', '4', '5', '6', '7', '8', '9', 'a', 'b', 'c', 'd', 'e', 'f', 'A', 'B', 'C', 'D', 'E', 'F']

/-- `re.fullmatch(r"#[0-9a-fA-F]{6}", color)`. -/
def isColor (color : String) : Bool :=
  match color.toList with
  | '#' :: digits => digits.length = 6 && digits.all fun char => char ∈ HEX_DIGITS
  | _ => false

def normalizeCaptionStyle (value : Json) : Except Failure CaptionStyle := do
  let row ← object value STYLE_FIELDS STYLE_FIELDS
  let color ← text (row.item "primary_color") "STUDIO_TIMELINE_CAPTION_COLOR_INVALID"
  refuse (!isColor color) "STUDIO_TIMELINE_CAPTION_COLOR_INVALID"
  let alignment ← choose [Alignment.TOP_CENTER, .BOTTOM_CENTER] Alignment.text (row.item "alignment") "STUDIO_TIMELINE_CAPTION_ALIGNMENT_INVALID"
  let fontSize ← integer (row.item "font_size") 8 72
  let outlineWidth ← integer (row.item "outline_width") 0 4
  return ⟨fontSize, String.ofList (color.toList.map Char.toUpper), alignment, outlineWidth⟩

def LINK_FIELDS : List String := ["video_clip_id", "audio_clip_id", "offset_ms"]

def clipNamed (tracks : List Track) (id : String) : Option (Track × Clip) :=
  (tracks.flatMap fun track => track.clips.map (track, ·)).find? fun pair => pair.2.id = id

/-- A link, behind the links that were read before. -/
def readLink (tracks : List Track) (earlier : List Link) (value : Json) : Except Failure Link := do
  let row ← object value LINK_FIELDS LINK_FIELDS
  let video ← identity (row.item "video_clip_id")
  let audio ← identity (row.item "audio_clip_id")
  let offset ← integer (row.item "offset_ms") (-MAX_DURATION_MS) MAX_DURATION_MS
  refuse (video = audio || earlier.any fun other => other.videoClipId = video || other.audioClipId = video ||
    other.videoClipId = audio || other.audioClipId = audio) "STUDIO_TIMELINE_LINK_PAIR_INVALID"
  let (videoTrack, videoClip) ← fetch (clipNamed tracks video) ⟨"STUDIO_TIMELINE_LINK_PAIR_INVALID"⟩
  let (audioTrack, audioClip) ← fetch (clipNamed tracks audio) ⟨"STUDIO_TIMELINE_LINK_PAIR_INVALID"⟩
  refuse (videoTrack.kind ≠ .video || audioTrack.kind ≠ .audio) "STUDIO_TIMELINE_LINK_PAIR_INVALID"
  refuse (audioClip.segment.startMs - videoClip.segment.startMs ≠ offset) "STUDIO_TIMELINE_LINK_OFFSET_CHANGED"
  return ⟨video, audio, offset⟩

def sortLinks (links : List Link) : List Link := sortBy (fun link => toLex (link.videoClipId, link.audioClipId)) links

def normalizeClipLinks (tracks : List Track) (value : Json) : Except Failure (List Link) := do
  let items ← listOf value 0 15 "STUDIO_TIMELINE_LINK_LIMIT"
  let links ← readAll (readLink tracks) items
  return sortLinks links

def sortTracks (tracks : List Track) : List Track := sortBy Track.order tracks

def VIDEO_FIELDS : List String :=
  ["schema_version", "duration_ms", "width", "height", "fps", "tracks", "captions", "caption_style", "clip_links"]
def VIDEO_REQUIRED : List String := ["schema_version", "duration_ms", "tracks"]
def AUDIO_FIELDS : List String := ["schema_version", "media_kind", "duration_ms", "tracks"]

/-- The fields of a timeline, by its schema. -/
def readRow (audioOnly : Bool) (value : Json) : Except Failure Row :=
  if audioOnly then do
    let row ← object value AUDIO_FIELDS AUDIO_FIELDS
    refuse (row.item "media_kind" ≠ .str "AUDIO") "STUDIO_TIMELINE_AUDIO_KIND_REQUIRED"
    return row
  else object value VIDEO_FIELDS VIDEO_REQUIRED

/-- The duration and the screen that everything is read against. -/
def readFrame (audioOnly : Bool) (row : Row) : Except Failure Frame := do
  let duration ← integer (row.item "duration_ms") 1 MAX_DURATION_MS
  let width ← integer (row.get "width" (.int 1280)) 16 1920
  let height ← integer (row.get "height" (.int 720)) 16 1080
  let fps ← integer (row.get "fps" (.int 24)) 1 60
  refuse (width % 2 ≠ 0 || height % 2 ≠ 0) "STUDIO_TIMELINE_EVEN_DIMENSIONS_REQUIRED"
  return ⟨audioOnly, duration, width, height, fps⟩

/-- What only a timeline with video has. -/
def readScreen (frame : Frame) (tracks : List Track) (row : Row) : Except Failure Screen := do
  refuse (!tracks.any fun track => track.kind = .video) "STUDIO_TIMELINE_VIDEO_TRACK_REQUIRED"
  let captions ← readCaptions frame.duration (row.get "captions" (.list []))
  let captionStyle ← optional row "caption_style" normalizeCaptionStyle
  let clipLinks ← optional row "clip_links" (normalizeClipLinks (sortTracks tracks))
  return ⟨frame.width, frame.height, frame.fps, captions, captionStyle, clipLinks⟩

/-- `normalize_timeline_v2`, as far as it reads. -/
def readTimeline (audioOnly : Bool) (value : Json) : Except Failure Timeline := do
  let row ← readRow audioOnly value
  refuse (row.item "schema_version" ≠ .int (if audioOnly then 3 else 2)) "STUDIO_TIMELINE_SCHEMA_INVALID"
  let frame ← readFrame audioOnly row
  let items ← listOf (row.item "tracks") 1 8 "STUDIO_TIMELINE_TRACK_LIMIT"
  let tracks ← readAll (readTrack frame) items
  if audioOnly then return ⟨frame.duration, sortTracks tracks, none⟩
  else
    let screen ← readScreen frame tracks row
    return ⟨frame.duration, sortTracks tracks, some screen⟩

end NovelStudio.Timelines
