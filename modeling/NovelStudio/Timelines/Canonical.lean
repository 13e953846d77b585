import NovelStudio.Timelines.Tracks

/-! Timelines without a schema version (`normalize_studio_timeline`), and the choice of the schema. A clip and a track of one have the
defaults of schema two for what they can not say, and are written without it. -/

namespace NovelStudio.Timelines

open Library

/-- `kind.lower()`. -/
def Kind.legacyAsset : Kind → AssetKind
  | .video => .video
  | .audio => .audio

def readLegacySnapshot (kind : Kind) (value : Json) : Except Failure Snapshot := do
  let source ← object value SNAPSHOT_FIELDS SNAPSHOT_FIELDS
  let id ← identity (source.item "id")
  let version ← integer (source.item "version") 1 (2 ^ 53 - 1)
  refuse (source.item "kind" ≠ .str "ASSET" || source.item "asset_kind" ≠ .str kind.legacyAsset.text) "STUDIO_TIMELINE_SOURCE_INVALID"
  let digest ← text (source.item "digest") "STUDIO_TIMELINE_SOURCE_INVALID"
  refuse (!isDigest digest) "STUDIO_TIMELINE_SOURCE_INVALID"
  return ⟨id, kind.legacyAsset, version, digest⟩

def readLegacySegment (frame : Frame) (clip : Row) : Except Failure Segment := do
  let startMs ← integer (clip.item "start_ms") 0 (frame.duration - 1)
  let inMs ← integer (clip.item "in_ms") 0 36000000
  let outMs ← integer (clip.item "out_ms") 1 36000000
  refuse (outMs ≤ inMs || startMs + outMs - inMs > frame.duration) "STUDIO_TIMELINE_CLIP_RANGE_INVALID"
  return ⟨startMs, inMs, outMs, 1, 1, false, .finite 0, 0, 0⟩

def readLegacyKind (frame : Frame) (kind : Kind) (clip : Row) : Except Failure (Option Picture) :=
  match kind with
  | .video => do
    let rectangle ← readRectangle frame clip
    return some ⟨rectangle, .finite 1, false, none, none, none⟩
  | .audio => do
    refuse (RECTANGLE_FIELDS.any clip.has) "STUDIO_TIMELINE_VIDEO_GEOMETRY_REQUIRES_VIDEO"
    return none

def LEGACY_CLIP_FIELDS : List String := CLIP_REQUIRED ++ RECTANGLE_FIELDS

def readLegacyClip (frame : Frame) (kind : Kind) (earlier : List Clip) (value : Json) : Except Failure Clip := do
  let clip ← object value LEGACY_CLIP_FIELDS CLIP_REQUIRED
  let id ← identity (clip.item "id")
  refuse (earlier.any fun other => other.id = id) "STUDIO_TIMELINE_CLIP_ID_DUPLICATE"
  refuse (earlier.length + 1 > MAX_CLIPS) "STUDIO_TIMELINE_CLIP_LIMIT"
  let source ← readLegacySnapshot kind (clip.item "source_snapshot")
  refuse (conflicts earlier source) "STUDIO_TIMELINE_SOURCE_SNAPSHOT_CONFLICT"
  let segment ← readLegacySegment frame clip
  let picture ← readLegacyKind frame kind clip
  return ⟨id, source, segment, picture⟩

/-- Two neighbours of a video track overlap. -/
def overlaps : List Clip → Bool
  | left :: right :: rest =>
    left.segment.startMs + left.segment.outMs - left.segment.inMs > right.segment.startMs || overlaps (right :: rest)
  | _ => false

def LEGACY_TRACK_FIELDS : List String := ["id", "kind", "order", "muted", "gain_db", "clips"]

def readLegacyTrack (frame : Frame) (earlier : List Track) (value : Json) : Except Failure Track := do
  let track ← object value LEGACY_TRACK_FIELDS TRACK_REQUIRED
  let id ← identity (track.item "id")
  let order ← integer (track.item "order") 0 7
  let kind ← choose [Kind.video, .audio] Kind.text (track.item "kind") "STUDIO_TIMELINE_TRACK_ID_ORDER_KIND_INVALID"
  refuse (earlier.any fun other => other.id = id || other.order = order) "STUDIO_TIMELINE_TRACK_ID_ORDER_KIND_INVALID"
  refuse ((earlier.filter fun other => other.kind = kind).length + 1 > 4) "STUDIO_TIMELINE_TRACK_KIND_LIMIT"
  let muted ← boolean (track.get "muted" (.bool false))
  let gainDb ← number (track.get "gain_db" (.float (.finite 0))) (-60) 12 "STUDIO_TIMELINE_AUDIO_GAIN_INVALID"
  refuse (kind ≠ .audio && !isZero gainDb) "STUDIO_TIMELINE_GAIN_REQUIRES_AUDIO"
  let items ← listOf (track.item "clips") 1 MAX_CLIPS "STUDIO_TIMELINE_CLIP_LIMIT"
  let clips ← readAll (fun seen => readLegacyClip frame kind (earlier.flatMap Track.clips ++ seen)) items
  refuse (kind = .video && overlaps (sortClips clips)) "STUDIO_TIMELINE_SAME_VIDEO_TRACK_OVERLAP"
  return ⟨id, kind, order, kind.role, muted, gainDb, sortClips clips, none⟩

def LEGACY_FIELDS : List String := ["duration_ms", "width", "height", "fps", "tracks", "captions"]

/-- The timeline of schema one, with the fields of a screen that it has. -/
structure LegacyTimeline where
  frame : Frame
  tracks : List Track
  captions : List Caption

def readLegacyTimeline (value : Json) : Except Failure LegacyTimeline := do
  let row ← object value LEGACY_FIELDS ["duration_ms", "tracks"]
  let frame ← readFrame false row
  let items ← listOf (row.item "tracks") 1 8 "STUDIO_TIMELINE_TRACK_LIMIT"
  let tracks ← readAll (readLegacyTrack frame) items
  refuse (!tracks.any fun track => track.kind = .video) "STUDIO_TIMELINE_VIDEO_TRACK_REQUIRED"
  let captions ← readCaptions frame.duration (row.get "captions" (.list []))
  return ⟨frame, sortTracks tracks, captions⟩

def Clip.legacyRow (clip : Clip) : Row :=
  [("id", .str clip.id), ("source_snapshot", .dict clip.source.row), ("start_ms", .int clip.segment.startMs), ("in_ms", .int clip.segment.inMs),
    ("out_ms", .int clip.segment.outMs)] ++ (clip.picture.map fun picture => picture.frame.row).getD []

def Track.legacyValue (track : Track) : Json :=
  .dict [("id", .str track.id), ("kind", .str track.kind.text), ("order", .int track.order), ("muted", .bool track.muted),
    ("gain_db", .float track.gainDb), ("clips", .list (track.clips.map fun clip => .dict clip.legacyRow))]

def LegacyTimeline.value (timeline : LegacyTimeline) : Json :=
  .dict [("duration_ms", .int timeline.frame.duration), ("width", .int timeline.frame.width), ("height", .int timeline.frame.height),
    ("fps", .int timeline.frame.fps), ("tracks", .list (timeline.tracks.map Track.legacyValue)),
    ("captions", .list (timeline.captions.map Caption.value))]

def normalizeStudioTimeline (value : Json) : Except Failure Json :=
  match value.get? "schema_version" with
  | some version => normalizeTimelineV2 (version.eq (.int 3)) value
  | none => LegacyTimeline.value <$> readLegacyTimeline value

variable {row other : Row} {key : String} {value : Json} {frame : Frame} {kind : Kind}

theorem readLegacySnapshot_again {source : Snapshot} (done : readLegacySnapshot kind value = .ok source) :
    readLegacySnapshot kind (.dict source.row) = .ok source := by
  simp only [readLegacySnapshot, bind_ok, refuse_ok, pure_ok] at done ⊢
  obtain ⟨_, _, id, identified, version, bounded, _, _, digest, _, _, right, rfl⟩ := done
  exact ⟨_, object_dict (by simp [Snapshot.row, SNAPSHOT_FIELDS]) (by simp [Snapshot.row, SNAPSHOT_FIELDS, lookup]), id, identity_again identified, version,
    integer_again bounded, (), by simp [Row.item, Snapshot.row, lookup], digest, rfl, (), right, rfl⟩

theorem readLegacyClip_reads : ReadsClips (readLegacyClip frame kind) := by
  intro earlier value clip fit
  simp only [readLegacyClip, bind_ok, refuse_ok, pure_ok, conflicts_iff fit, conflicts_iff List.Pairwise.nil, List.any_eq_false, decide_eq_true_eq,
    decide_eq_false_iff_not, Nat.not_lt]
  constructor
  · rintro ⟨row, closed, id, identified, _, fresh, _, few, source, there, _, consistent, segment, plays, picture, shows, rfl⟩
    have one : ([] : List Clip).length + 1 ≤ MAX_CLIPS := by decide
    constructor
    · exact ⟨row, closed, id, identified, (), List.forall_mem_nil _, (), one, source, there, (), List.forall_mem_nil _, segment, plays,
        picture, shows, rfl⟩
    · refine ⟨?_, few⟩
      intro other member
      exact ⟨fresh other member, consistent other member⟩
  · rintro ⟨⟨row, closed, id, identified, _, _, _, _, source, there, _, _, segment, plays, picture, shows, rfl⟩, each, few⟩
    exact ⟨row, closed, id, identified, (), fun other member => (each other member).id, (), few, source, there, (),
      fun other member => (each other member).source, segment, plays, picture, shows, rfl⟩

theorem readLegacyKind_again {clip : Clip} (done : readLegacyKind frame kind row = .ok clip.picture) :
    readLegacyKind frame kind clip.legacyRow = .ok clip.picture := by
  cases kind with
  | video =>
    simp only [readLegacyKind, bind_ok, pure_ok] at done ⊢
    obtain ⟨rectangle, placed, same⟩ := done
    refine ⟨rectangle, readRectangle_again placed (Within.of_mem ?_), same⟩
    intro entry member
    rw [Clip.legacyRow, ← same]
    simp only [Rectangle.row, List.mem_cons, List.not_mem_nil, or_false] at member
    rcases member with rfl | rfl | rfl | rfl <;> rfl
  | audio =>
    simp only [readLegacyKind, bind_ok, refuse_ok, pure_ok] at done ⊢
    obtain ⟨_, _, none⟩ := done
    refine ⟨(), ?_, none⟩
    rw [Clip.legacyRow, ← none]
    rfl

theorem readLegacyClip_again {clip : Clip} (done : readLegacyClip frame kind [] value = .ok clip) :
    readLegacyClip frame kind [] (.dict clip.legacyRow) = .ok clip := by
  simp only [readLegacyClip, bind_ok, refuse_ok, pure_ok] at done ⊢
  obtain ⟨row, _, id, identified, _, _, _, few, source, there, _, consistent, segment, plays, picture, shows, same⟩ := done
  subst same
  have shown : readLegacyKind frame kind row = .ok (Clip.mk id source segment picture).picture := shows
  have again := readLegacyKind_again shown
  refine ⟨_, object_dict ?_ ?_, id, identity_again identified, (), rfl, (), few, source, readLegacySnapshot_again there, (), consistent, segment, ?_, picture, again, rfl⟩
  · intro entry member
    rw [Clip.legacyRow, List.mem_append] at member
    rw [LEGACY_CLIP_FIELDS, List.mem_append]
    rcases member with here | here
    · left
      simp only [List.mem_cons, List.not_mem_nil, or_false] at here
      rcases here with rfl | rfl | rfl | rfl | rfl <;> simp [CLIP_REQUIRED]
    · right
      cases picture with
      | none => cases here
      | some picture =>
        simp only [Option.map_some, Option.getD_some, Rectangle.row, List.mem_cons, List.not_mem_nil, or_false] at here
        rcases here with rfl | rfl | rfl | rfl <;> simp [RECTANGLE_FIELDS]
  · intro key member
    simp only [CLIP_REQUIRED, List.mem_cons, List.not_mem_nil, or_false] at member
    rcases member with rfl | rfl | rfl | rfl | rfl <;> rfl
  · simp only [readLegacySegment, bind_ok, refuse_ok, pure_ok] at plays ⊢
    obtain ⟨startMs, start, inMs, begins, outMs, ends, _, range, rfl⟩ := plays
    exact ⟨startMs, integer_again start, inMs, integer_again begins, outMs, integer_again ends, (), range, rfl⟩

theorem readLegacyTrack_iff : ReadsAs (readLegacyTrack frame) (readLegacyTrack frame []) Track.Fits Bounded := by
  intro earlier value track fit bounded
  simp only [readLegacyTrack, bind_ok, refuse_ok, pure_ok, readLegacyClip_reads.all (bounded.fit fit) bounded.few,
    show ([] : List Track).flatMap Track.clips = [] from rfl, readLegacyClip_reads.all List.Pairwise.nil (Nat.zero_le _), List.any_eq_false, Bool.or_eq_true,
    decide_eq_true_eq, not_or, decide_eq_false_iff_not, Nat.not_lt]
  constructor
  · rintro ⟨row, closed, id, identified, order, placed, kind, chosen, _, fresh, _, kinds, muted, silent, gainDb, gain, _, loud, items, listed,
      clips, ⟨each, apart, behind⟩, _, passes, rfl⟩
    have single : Behind [] clips := ⟨List.forall_mem_nil _, le_trans (Nat.add_le_add_right (Nat.zero_le _) _) behind.total⟩
    refine ⟨⟨row, closed, id, identified, order, placed, kind, chosen, (), List.forall_mem_nil _, (), by simp, muted, silent, gainDb, gain, (), loud, items,
      listed, clips, ⟨each, apart, single⟩, (), passes, rfl⟩, ?_, ?_⟩
    · intro other member
      refine ⟨(fresh other member).1, (fresh other member).2, ?_⟩
      intro left there right here
      exact behind.cross left (List.mem_flatMap.mpr ⟨other, member, there⟩) right ((sortClips_perm clips).mem_iff.mp here)
    · refine bounded.snoc ?_ ?_ kinds
      · exact ((sortClips_perm clips).pairwise_iff fun {_ _} => Clip.Fits.symm).mpr apart
      · rw [(sortClips_perm clips).length_eq]
        exact behind.total
  · rintro ⟨⟨row, closed, id, identified, order, placed, kind, chosen, _, _, _, _, muted, silent, gainDb, gain, _, loud, items, listed,
      clips, ⟨each, apart, _⟩, _, passes, rfl⟩, fits, next⟩
    obtain ⟨few, kinds⟩ := next.last
    have behind : Behind (earlier.flatMap Track.clips) clips := by
      constructor
      · intro left there right here
        obtain ⟨other, member, there⟩ := List.mem_flatMap.mp there
        exact (fits other member).clips left there right ((sortClips_perm clips).mem_iff.mpr here)
      · rw [← (sortClips_perm clips).length_eq]
        exact few
    exact ⟨row, closed, id, identified, order, placed, kind, chosen, (), fun other member => ⟨(fits other member).id, (fits other member).order⟩, (), kinds,
      muted, silent, gainDb, gain, (), loud, items, listed, clips, ⟨each, apart, behind⟩, (), passes, rfl⟩

theorem readLegacyTrack_again {track : Track} (done : readLegacyTrack frame [] value = .ok track) :
    readLegacyTrack frame [] track.legacyValue = .ok track := by
  simp only [readLegacyTrack, bind_ok, refuse_ok, pure_ok, show ([] : List Track).flatMap Track.clips = [] from rfl] at done ⊢
  obtain ⟨row, _, id, identified, order, placed, kind, chosen, _, fresh, _, kinds, muted, silent, gainDb, gain, _, loud, items, listed,
    clips, read, _, passes, same⟩ := done
  subst same
  have again := readLegacyClip_reads.again (fun _ _ => readLegacyClip_again) read (sortClips_perm clips)
  have sorted : sortClips (sortClips clips) = sortClips clips := sortBy_sortBy _ _
  refine ⟨_, object_dict (by simp [LEGACY_TRACK_FIELDS]) (by simp [TRACK_REQUIRED, lookup]), id, identity_again identified, order, integer_again placed, kind,
    choose_again Kind.text_injective chosen, (), fresh, (), kinds, muted, rfl, gainDb, number_again gain, (), loud, _, listOf_ok.mpr ⟨rfl, ?_⟩, sortClips clips,
    again, (), ?_, ?_⟩
  · rw [List.length_map, (sortClips_perm clips).length_eq, ← ((readLegacyClip_reads.all List.Pairwise.nil (Nat.zero_le _)).mp read).1.length_eq]
    exact (listOf_ok.mp listed).2
  · rw [sorted]
    exact passes
  · rw [sorted]

end NovelStudio.Timelines

/-! Normalisation of a timeline is idempotent, and forgets the order of its lists and how its speeds are written. -/

namespace NovelStudio.Timelines

open Library

variable {row other : Row} {key : String} {value one two result : Json} {frame : Frame} {kind : Kind}

theorem Bounded.nil : Bounded [] := ⟨Nat.zero_le _, fun _ => Nat.zero_le _, fun _ member => (nomatch member)⟩

theorem sortTracks_perm (tracks : List Track) : (sortTracks tracks).Perm tracks := sortBy_perm _ _

theorem sortTracks_again (tracks : List Track) : sortTracks (sortTracks tracks) = sortTracks tracks := sortBy_sortBy _ _

theorem readTracks_again {read : List Track → Json → Except Failure Track} {write : Track → Json} {items : List Json} {tracks : List Track}
    (reads : ReadsAs read (read []) Track.Fits Bounded) (again : ∀ value track, read [] value = .ok track → read [] (write track) = .ok track)
    (listed : 1 ≤ items.length ∧ items.length ≤ 8) (done : readAll read items = .ok tracks) :
    listOf (.list ((sortTracks tracks).map write)) 1 8 "STUDIO_TIMELINE_TRACK_LIMIT" = .ok ((sortTracks tracks).map write) ∧
      readAll read ((sortTracks tracks).map write) = .ok (sortTracks tracks) := by
  constructor
  · refine listOf_ok.mpr ⟨rfl, ?_⟩
    rw [List.length_map, (sortTracks_perm tracks).length_eq, ← ((readAll_ok reads Bounded.nil Bounded.shrink).mp done).1.length_eq]
    exact listed
  · exact readAll_again reads Bounded.nil Bounded.shrink Track.Fits.symm Bounded.perm again done (sortTracks_perm tracks)

theorem any_sortTracks (tracks : List Track) (test : Track → Bool) : (sortTracks tracks).any test = tracks.any test := by
  rw [Bool.eq_iff_iff, List.any_eq_true, List.any_eq_true]
  exact exists_congr fun track => and_congr_left fun _ => (sortTracks_perm tracks).mem_iff

variable {audioOnly : Bool}

theorem readFrame_again (done : readFrame audioOnly row = .ok frame) (duration : other.item "duration_ms" = .int frame.duration)
    (width : other.get "width" (.int 1280) = .int frame.width) (height : other.get "height" (.int 720) = .int frame.height)
    (fps : other.get "fps" (.int 24) = .int frame.fps) : readFrame audioOnly other = .ok frame := by
  simp only [readFrame, bind_ok, refuse_ok, pure_ok] at done ⊢
  obtain ⟨durationMs, lasts, wide, widths, high, heights, rate, rates, _, even, rfl⟩ := done
  refine ⟨durationMs, ?_, wide, ?_, high, ?_, rate, ?_, (), even, rfl⟩
  · rw [duration]
    exact integer_again lasts
  · rw [width]
    exact integer_again widths
  · rw [height]
    exact integer_again heights
  · rw [fps]
    exact integer_again rates

theorem Screen.lookup_optional (screen : Screen) (durationMs : Int) (tracks : List Track) :
    lookup "caption_style" (screen.row durationMs tracks) = screen.captionStyle.map CaptionStyle.value ∧
    lookup "clip_links" (screen.row durationMs tracks) = screen.clipLinks.map (fun links => Json.list (links.map Link.value)) := by
  constructor
  · simp [Screen.row, lookup, lookup_append]
  · simp [Screen.row, lookup, lookup_append]

theorem Screen.keys (screen : Screen) (durationMs : Int) (tracks : List Track) : ∀ entry ∈ screen.row durationMs tracks, entry.1 ∈ VIDEO_FIELDS := by
  intro entry member
  simp only [Screen.row, List.mem_append, List.mem_cons, List.not_mem_nil, or_false, mem_field] at member
  rcases member with ((rfl | rfl | rfl | rfl | rfl | rfl | rfl) | ⟨key, _⟩) | ⟨key, _⟩
  all_goals simp_all [VIDEO_FIELDS]

theorem readScreen_again {tracks : List Track} {screen : Screen} (durationMs : Int) (done : readScreen frame tracks row = .ok screen) :
    readScreen frame (sortTracks tracks) (screen.row durationMs (sortTracks tracks)) = .ok screen := by
  simp only [readScreen, bind_ok, refuse_ok, pure_ok] at done ⊢
  obtain ⟨_, video, captions, captioned, captionStyle, styled, clipLinks, linked, same⟩ := done
  obtain ⟨styles, links⟩ := screen.lookup_optional durationMs (sortTracks tracks)
  subst same
  refine ⟨(), by rw [any_sortTracks]; exact video, captions, readCaptions_again captioned, captionStyle,
    optional_again styled (fun _ _ => normalizeCaptionStyle_again) styles, clipLinks, ?_, rfl⟩
  rw [sortTracks_again]
  exact optional_again linked (fun _ _ => normalizeClipLinks_again) links

theorem lookup_of_closed {fields required : List String} (closed : object value fields required = .ok row) (away : key ∉ fields) : lookup key row = none := by
  cases found : lookup key row with
  | none => rfl
  | some stored => exact absurd ((object_ok.mp closed).2.1 _ (mem_of_lookup found)) away

theorem readTimeline_again {timeline : Timeline} (done : readTimeline audioOnly value = .ok timeline) :
    readTimeline audioOnly timeline.value = .ok timeline ∧ timeline.screen.isNone = audioOnly := by
  simp only [readTimeline, bind_ok, refuse_ok] at done
  obtain ⟨row, read, _, _, frame, framed, items, listed, tracks, reads, rest⟩ := done
  obtain ⟨relisted, rereads⟩ := readTracks_again readTrack_iff (fun _ _ => readTrack_again) (listOf_ok.mp listed).2 reads
  cases audioOnly with
  | true =>
    obtain rfl := pure_ok.mp rest
    refine ⟨?_, rfl⟩
    simp only [readRow, ↓reduceIte, bind_ok, refuse_ok, pure_ok] at read
    obtain ⟨row, closed, _, _, rfl⟩ := read
    have plain : ∀ (key : String) (default : Json), key ∉ AUDIO_FIELDS → Row.get row key default = default := by
      intro key default away
      rw [Row.get, lookup_of_closed closed away]
      rfl
    have reframed : readFrame true [("schema_version", .int 3), ("media_kind", .str "AUDIO"), ("duration_ms", .int frame.duration),
        ("tracks", .list ((sortTracks tracks).map Track.value))] = .ok frame := by
      have original := framed
      simp only [readFrame, bind_ok, pure_ok, plain "width" _ (by decide), plain "height" _ (by decide), plain "fps" _ (by decide), integer_ok] at framed
      obtain ⟨_, _, width, ⟨wide, _⟩, height, ⟨high, _⟩, fps, ⟨rate, _⟩, _, _, rfl⟩ := framed
      exact readFrame_again original rfl wide high rate
    simp only [readTimeline, readRow, ↓reduceIte, bind_ok, refuse_ok, pure_ok]
    exact ⟨_, ⟨_, object_dict (by simp [AUDIO_FIELDS]) (by simp [AUDIO_FIELDS, lookup]), (), by simp [Row.item, lookup], rfl⟩, (), by simp [Row.item, lookup], frame,
      reframed, _, relisted, _, rereads, by rw [sortTracks_again]⟩
  | false =>
    simp only [Bool.false_eq_true, ↓reduceIte, bind_ok, pure_ok] at rest
    obtain ⟨screen, shown, rfl⟩ := rest
    refine ⟨?_, rfl⟩
    have size : screen.width = frame.width ∧ screen.height = frame.height ∧ screen.fps = frame.fps := by
      simp only [readScreen, bind_ok, pure_ok] at shown
      obtain ⟨_, _, _, _, _, _, _, _, rfl⟩ := shown
      exact ⟨rfl, rfl, rfl⟩
    have reframed : readFrame false (screen.row frame.duration (sortTracks tracks)) = .ok frame := by
      refine readFrame_again framed rfl ?_ ?_ ?_
      · exact congrArg Json.int size.1
      · exact congrArg Json.int size.2.1
      · exact congrArg Json.int size.2.2
    simp only [readTimeline, readRow, Bool.false_eq_true, ↓reduceIte, bind_ok, refuse_ok, pure_ok]
    refine ⟨_, object_dict (Screen.keys screen frame.duration (sortTracks tracks)) ?_, (), by simp [Row.item, Screen.row, lookup], frame, reframed, _, relisted, _, rereads, screen,
      readScreen_again frame.duration shown, by rw [sortTracks_again]⟩
    intro key member
    simp only [VIDEO_REQUIRED, List.mem_cons, List.not_mem_nil, or_false] at member
    rcases member with rfl | rfl | rfl <;> rfl

theorem readLegacyTimeline_again {timeline : LegacyTimeline} (done : readLegacyTimeline value = .ok timeline) :
    readLegacyTimeline timeline.value = .ok timeline := by
  simp only [readLegacyTimeline, bind_ok, refuse_ok, pure_ok] at done ⊢
  obtain ⟨row, _, frame, framed, items, listed, tracks, reads, _, video, captions, captioned, rfl⟩ := done
  obtain ⟨relisted, rereads⟩ := readTracks_again readLegacyTrack_iff (fun _ _ => readLegacyTrack_again) (listOf_ok.mp listed).2 reads
  refine ⟨_, object_dict (by simp [LEGACY_FIELDS]) (by simp [lookup]), frame, readFrame_again framed rfl rfl rfl rfl, _, relisted, _, rereads, (), ?_, captions,
    readCaptions_again captioned, by rw [sortTracks_again]⟩
  rw [any_sortTracks]
  exact video

theorem normalizeTimelineV2_ok : normalizeTimelineV2 audioOnly value = .ok result ↔
    ∃ timeline, readTimeline audioOnly value = .ok timeline ∧ result = timeline.value := by
  rw [normalizeTimelineV2]
  cases readTimeline audioOnly value with
  | error failure => simp [Functor.map, Except.map]
  | ok timeline => simp [Functor.map, Except.map, eq_comm]

theorem normalizeStudioTimeline_again (done : normalizeStudioTimeline value = .ok result) : normalizeStudioTimeline result = .ok result := by
  unfold normalizeStudioTimeline at done
  split at done
  · rename_i version _
    obtain ⟨timeline, read, rfl⟩ := normalizeTimelineV2_ok.mp done
    obtain ⟨again, audio⟩ := readTimeline_again read
    have schema : timeline.value.get? "schema_version" = some (.int (if version.eq (.int 3) then 3 else 2)) := by
      rw [← audio, Timeline.value]
      cases timeline.screen with
      | none => rfl
      | some screen => rfl
    rw [normalizeStudioTimeline, schema]
    dsimp only
    have same : Json.eq (.int (if version.eq (.int 3) then 3 else 2)) (.int 3) = version.eq (.int 3) := by
      cases version.eq (.int 3) <;> decide
    rw [same]
    exact normalizeTimelineV2_ok.mpr ⟨timeline, again, rfl⟩
  · cases read : readLegacyTimeline value with
    | error failure =>
      rw [read] at done
      cases done
    | ok timeline =>
      rw [read] at done
      obtain rfl := Except.ok.inj done
      have plain : timeline.value.get? "schema_version" = none := rfl
      rw [normalizeStudioTimeline, plain]
      dsimp only
      rw [readLegacyTimeline_again read]
      rfl

end NovelStudio.Timelines
