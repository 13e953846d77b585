import Mathlib.Data.List.Pairwise
import NovelStudio.Timelines.Schema

/-! The value that a timeline is written as, and that each of its parts is read again from it. -/

namespace NovelStudio.Timelines

open Library

/-- A field that is left out when it is absent. -/
def field (key : String) (value : Option Json) : Row := (value.map fun value => (key, value)).toList

def Snapshot.row (source : Snapshot) : Row :=
  [("id", .str source.id), ("kind", .str "ASSET"), ("asset_kind", .str source.assetKind.text), ("version", .int source.version),
    ("digest", .str source.digest)]

def Segment.row (segment : Segment) : Row :=
  [("start_ms", .int segment.startMs), ("in_ms", .int segment.inMs), ("out_ms", .int segment.outMs), ("speed_num", .int segment.speedNum),
    ("speed_den", .int segment.speedDen), ("muted", .bool segment.muted), ("gain_db", .float segment.gainDb),
    ("fade_in_ms", .int segment.fadeInMs), ("fade_out_ms", .int segment.fadeOutMs)]

def Rectangle.row (rectangle : Rectangle) : Row :=
  [("x", .int rectangle.x), ("y", .int rectangle.y), ("width", .int rectangle.width), ("height", .int rectangle.height)]

def Color.row (color : Color) : Row :=
  [("brightness", .float color.brightness), ("contrast", .float color.contrast), ("saturation", .float color.saturation)]

def Transition.row (transition : Transition) : Row :=
  [("kind", .str "CROSS_DISSOLVE"), ("to_clip_id", .str transition.toClipId), ("duration_ms", .int transition.durationMs)]

def Picture.row (picture : Picture) : Row :=
  picture.frame.row ++ [("opacity", .float picture.opacity), ("include_audio", .bool picture.includeAudio)] ++
    field "color_adjustment" (picture.color.map fun color => .dict color.row) ++ field "crop" (picture.crop.map fun crop => .dict crop.row) ++
    field "transition_out" (picture.transition.map fun transition => .dict transition.row)

def Clip.row (clip : Clip) : Row :=
  [("id", .str clip.id), ("source_snapshot", .dict clip.source.row)] ++ clip.segment.row ++ (clip.picture.map Picture.row).getD []

def Clip.value (clip : Clip) : Json := .dict clip.row

def Track.row (track : Track) : Row :=
  [("id", .str track.id), ("kind", .str track.kind.text), ("order", .int track.order), ("role", .str track.role.text), ("muted", .bool track.muted),
    ("gain_db", .float track.gainDb), ("clips", .list (track.clips.map Clip.value))] ++ field "locked" (track.locked.map Json.bool)

def Track.value (track : Track) : Json := .dict track.row

def Caption.value (caption : Caption) : Json :=
  .dict [("start_ms", .int caption.startMs), ("end_ms", .int caption.endMs), ("text", .str caption.text)]

def CaptionStyle.value (style : CaptionStyle) : Json :=
  .dict [("font_size", .int style.fontSize), ("primary_color", .str style.primaryColor), ("alignment", .str style.alignment.text),
    ("outline_width", .int style.outlineWidth)]

def Link.value (link : Link) : Json :=
  .dict [("video_clip_id", .str link.videoClipId), ("audio_clip_id", .str link.audioClipId), ("offset_ms", .int link.offsetMs)]

def Screen.row (screen : Screen) (durationMs : Int) (tracks : List Track) : Row :=
  [("schema_version", .int 2), ("duration_ms", .int durationMs), ("width", .int screen.width), ("height", .int screen.height),
    ("fps", .int screen.fps), ("tracks", .list (tracks.map Track.value)), ("captions", .list (screen.captions.map Caption.value))] ++
    field "caption_style" (screen.captionStyle.map CaptionStyle.value) ++
    field "clip_links" (screen.clipLinks.map fun links => .list (links.map Link.value))

/-- What `normalize_timeline_v2` returns. -/
def Timeline.value (timeline : Timeline) : Json :=
  match timeline.screen with
  | none => .dict [("schema_version", .int 3), ("media_kind", .str "AUDIO"), ("duration_ms", .int timeline.durationMs),
      ("tracks", .list (timeline.tracks.map Track.value))]
  | some screen => .dict (screen.row timeline.durationMs timeline.tracks)

def normalizeTimelineV2 (audioOnly : Bool) (value : Json) : Except Failure Json := Timeline.value <$> readTimeline audioOnly value

variable {row other : Row} {key : String} {value : Json} {frame : Frame}

theorem lookup_append (key : String) (row other : Row) : lookup key (row ++ other) = (lookup key row).or (lookup key other) := by
  induction row with
  | nil => rfl
  | cons first rest ih =>
    obtain ⟨name, stored⟩ := first
    rw [List.cons_append, lookup, lookup]
    split
    · rfl
    · exact ih

@[simp] theorem lookup_field (key name : String) (value : Option Json) : lookup key (field name value) = if name = key then value else none := by
  cases value with
  | none => simp [field, lookup]
  | some value => simp [field, lookup]

/-- The fields of a row are in another one. -/
def Within (fields row : Row) : Prop := ∀ key value, lookup key fields = some value → lookup key row = some value

theorem Within.item (within : Within other row) (found : lookup key other = some value) : row.item key = value := by
  rw [Row.item, within key value found]
  rfl

theorem Within.get (within : Within other row) {default : Json} (found : lookup key other = some value) : row.get key default = value := by
  rw [Row.get, within key value found]
  rfl

theorem object_dict {allowed required : List String} (closed : ∀ field ∈ row, field.1 ∈ allowed)
    (there : ∀ key ∈ required, (lookup key row).isSome = true) : object (.dict row) allowed required = .ok row :=
  object_ok.mpr ⟨rfl, closed, there⟩

theorem choose_again {α : Type} {choices : List α} {text : α → String} {code : String} {choice : α} (unique : ∀ one two, text one = text two → one = two)
    (done : choose choices text value code = .ok choice) : choose choices text (.str (text choice)) code = .ok choice := by
  have member : choice ∈ choices := by
    cases value with
    | str stored => exact List.mem_of_find?_eq_some (fetch_ok.mp done)
    | _ => cases done
  refine fetch_ok.mpr ?_
  cases found : choices.find? (fun other => text other = text choice) with
  | none => exact absurd (decide_eq_true rfl) (List.find?_eq_none.mp found choice member)
  | some other =>
    have same : text other = text choice := by simpa using List.find?_some found
    rw [unique _ _ same]

end NovelStudio.Timelines

/-! Every part of a timeline is read again from the value that it is written as. -/

namespace NovelStudio.Timelines

open Library

variable {row other clip : Row} {key : String} {value : Json} {frame : Frame} {kind : Kind}

theorem AssetKind.text_injective (one two : AssetKind) (same : one.text = two.text) : one = two := by
  cases one <;> cases two <;> first | rfl | exact absurd same (by decide)

theorem Role.text_injective (one two : Role) (same : one.text = two.text) : one = two := by
  cases one <;> cases two <;> first | rfl | exact absurd same (by decide)

theorem Kind.text_injective (one two : Kind) (same : one.text = two.text) : one = two := by
  cases one <;> cases two <;> first | rfl | exact absurd same (by decide)

theorem Alignment.text_injective (one two : Alignment) (same : one.text = two.text) : one = two := by
  cases one <;> cases two <;> first | rfl | exact absurd same (by decide)

variable {source : Snapshot}

theorem readSnapshot_again (done : readSnapshot kind value = .ok source) : readSnapshot kind (.dict source.row) = .ok source := by
  simp only [readSnapshot, bind_ok, refuse_ok, pure_ok] at done ⊢
  obtain ⟨_, _, _, _, assetKind, chosen, digest, _, _, right, id, identified, version, bounded, rfl⟩ := done
  exact ⟨_, object_dict (by simp [Snapshot.row, SNAPSHOT_FIELDS]) (by simp [Snapshot.row, SNAPSHOT_FIELDS, lookup]), (), by simp [Row.item, Snapshot.row, lookup],
    assetKind, choose_again AssetKind.text_injective chosen, digest, rfl, (), right, id, identity_again identified, version, integer_again bounded, rfl⟩

theorem reduced_again {num den : Int} (numerator : 1 ≤ num ∧ num ≤ 4) (denominator : 1 ≤ den ∧ den ≤ 4) :
    (1 ≤ num / (Int.gcd num den : Int) ∧ num / (Int.gcd num den : Int) ≤ 4) ∧ (1 ≤ den / (Int.gcd num den : Int) ∧ den / (Int.gcd num den : Int) ≤ 4) ∧
      Int.gcd (num / (Int.gcd num den : Int)) (den / (Int.gcd num den : Int)) = 1 := by
  have positive : 0 < Int.gcd num den := Int.gcd_pos_of_ne_zero_left den (by omega)
  have within : ∀ part : Int, (Int.gcd num den : Int) ∣ part → 1 ≤ part ∧ part ≤ 4 →
      1 ≤ part / (Int.gcd num den : Int) ∧ part / (Int.gcd num den : Int) ≤ 4 := by
    intro part divides bounds
    have above : 0 < (Int.gcd num den : Int) := by exact_mod_cast positive
    constructor
    · exact Int.le_ediv_of_mul_le above (by rw [one_mul]; exact Int.le_of_dvd (by omega) divides)
    · exact (Int.ediv_le_self _ (by omega)).trans bounds.2
  exact ⟨within num (Int.gcd_dvd_left ..) numerator, within den (Int.gcd_dvd_right ..) denominator, Int.gcd_ediv_gcd_ediv_gcd positive⟩

variable {segment : Segment}

theorem readSegment_again (done : readSegment frame row = .ok segment) (within : Within segment.row other) :
    readSegment frame other = .ok segment := by
  simp only [readSegment, bind_ok, refuse_ok, pure_ok] at done ⊢
  obtain ⟨startMs, start, inMs, begins, outMs, ends, _, range, num, numerator, den, denominator, muted, silent, gainDb, gain, length, exact_, _, fits,
    fadeInMs, fadeIn, fadeOutMs, fadeOut, _, fades, rfl⟩ := done
  obtain ⟨num', den', coprime⟩ := reduced_again (integer_ok.mp numerator).2 (integer_ok.mp denominator).2
  refine ⟨startMs, ?_, inMs, ?_, outMs, ?_, (), range, num / (Int.gcd num den : Int), ?_, den / (Int.gcd num den : Int), ?_, muted, ?_, gainDb, ?_, length, ?_, (), fits,
    fadeInMs, ?_, fadeOutMs, ?_, (), fades, ?_⟩
  · rw [within.item rfl]
    exact integer_again start
  · rw [within.item rfl]
    exact integer_again begins
  · rw [within.item rfl]
    exact integer_again ends
  · rw [within.get rfl]
    exact integer_ok.mpr ⟨rfl, num'⟩
  · rw [within.get rfl]
    exact integer_ok.mpr ⟨rfl, den'⟩
  · rw [within.get rfl]
    rfl
  · rw [within.get rfl]
    exact number_again gain
  · rw [coprime, Nat.cast_one, Int.ediv_one, Int.ediv_one]
    exact exact_
  · rw [within.get rfl]
    exact integer_again fadeIn
  · rw [within.get rfl]
    exact integer_again fadeOut
  · rw [coprime, Nat.cast_one, Int.ediv_one, Int.ediv_one]

theorem readRectangle_again {rectangle : Rectangle} (done : readRectangle frame row = .ok rectangle) (within : Within rectangle.row other) :
    readRectangle frame other = .ok rectangle := by
  simp only [readRectangle, bind_ok, refuse_ok, pure_ok] at done ⊢
  obtain ⟨x, left, y, top, width, wide, height, high, _, even, rfl⟩ := done
  refine ⟨x, ?_, y, ?_, width, ?_, height, ?_, (), even, rfl⟩
  · rw [within.get rfl]
    exact integer_again left
  · rw [within.get rfl]
    exact integer_again top
  · rw [within.get rfl]
    exact integer_again wide
  · rw [within.get rfl]
    exact integer_again high

theorem readColor_again {color : Color} (done : readColor value = .ok color) : readColor (.dict color.row) = .ok color := by
  simp only [readColor, bind_ok, pure_ok] at done ⊢
  obtain ⟨_, _, brightness, bright, contrast, contrasts, saturation, saturated, rfl⟩ := done
  exact ⟨_, object_dict (by simp [Color.row, COLOR_FIELDS]) (by simp [Color.row, COLOR_FIELDS, lookup]), brightness, number_again bright, contrast,
    number_again contrasts, saturation, number_again saturated, rfl⟩

theorem readCrop_again {crop : Rectangle} (done : readCrop value = .ok crop) : readCrop (.dict crop.row) = .ok crop := by
  simp only [readCrop, bind_ok, pure_ok] at done ⊢
  obtain ⟨_, _, x, left, y, top, width, wide, height, high, rfl⟩ := done
  exact ⟨_, object_dict (by simp [Rectangle.row, RECTANGLE_FIELDS]) (by simp [Rectangle.row, RECTANGLE_FIELDS, lookup]), x, integer_again left, y,
    integer_again top, width, integer_again wide, height, integer_again high, rfl⟩

theorem readTransition_again {transition : Transition} (done : readTransition frame value = .ok transition) :
    readTransition frame (.dict transition.row) = .ok transition := by
  simp only [readTransition, bind_ok, refuse_ok, pure_ok] at done ⊢
  obtain ⟨_, _, _, _, toClipId, identified, durationMs, lasts, rfl⟩ := done
  exact ⟨_, object_dict (by simp [Transition.row, TRANSITION_FIELDS]) (by simp [Transition.row, TRANSITION_FIELDS, lookup]), (),
    by simp [Row.item, Transition.row, lookup], toClipId, identity_again identified, durationMs, integer_again lasts, rfl⟩

theorem optional_ok {α : Type} {read : Json → Except Failure α} {result : Option α} : optional row key read = .ok result ↔
    match lookup key row with
    | some value => ∃ stored, read value = .ok stored ∧ result = some stored
    | none => result = none := by
  cases found : lookup key row with
  | none =>
    simp only [optional, found, pure_ok]
    exact eq_comm
  | some value =>
    cases done : read value with
    | error failure => simp [optional, found, done, Functor.map, Except.map]
    | ok stored => simp [optional, found, done, Functor.map, Except.map, eq_comm]

theorem optional_again {α : Type} {read : Json → Except Failure α} {write : α → Json} {result : Option α} (done : optional row key read = .ok result)
    (again : ∀ value stored, read value = .ok stored → read (write stored) = .ok stored) (found : lookup key other = result.map write) :
    optional other key read = .ok result := by
  rw [optional_ok] at done ⊢
  rw [found]
  split at done
  · rename_i value _
    obtain ⟨stored, here, rfl⟩ := done
    exact ⟨stored, again value stored here, rfl⟩
  · subst done
    rfl

theorem Picture.lookup_optional (picture : Picture) :
    lookup "color_adjustment" picture.row = picture.color.map (fun color => Json.dict color.row) ∧
    lookup "crop" picture.row = picture.crop.map (fun crop => Json.dict crop.row) ∧
    lookup "transition_out" picture.row = picture.transition.map (fun transition => Json.dict transition.row) := by
  refine ⟨?_, ?_, ?_⟩
  all_goals simp [Picture.row, Rectangle.row, lookup_append, lookup]

theorem Picture.within_frame (picture : Picture) : Within picture.frame.row picture.row := by
  intro key value found
  rw [Picture.row, lookup_append, lookup_append, lookup_append, lookup_append, found]
  rfl

theorem Within.trans {first second third : Row} (one : Within first second) (two : Within second third) : Within first third :=
  fun key value found => two key value (one key value found)

theorem readPicture_again {picture : Picture} (done : readPicture frame source segment row = .ok picture)
    (within : Within picture.row other) (absent : ∀ key ∈ ["color_adjustment", "crop", "transition_out"], lookup key picture.row = none → lookup key other = none) :
    readPicture frame source segment other = .ok picture := by
  simp only [readPicture, bind_ok, refuse_ok, pure_ok] at done ⊢
  obtain ⟨rectangle, placed, opacity, opaque_, includeAudio, _, _, still, _, gain, color, colored, crop, cropped, transition, dissolves, rfl⟩ := done
  have same : ∀ key ∈ ["color_adjustment", "crop", "transition_out"], lookup key other = lookup key
      (Picture.row ⟨rectangle, opacity, includeAudio, color, crop, transition⟩) := by
    intro key member
    cases found : lookup key (Picture.row ⟨rectangle, opacity, includeAudio, color, crop, transition⟩) with
    | none => exact absent key member found
    | some value => exact within key value found
  obtain ⟨colors, crops, transitions⟩ := Picture.lookup_optional ⟨rectangle, opacity, includeAudio, color, crop, transition⟩
  refine ⟨rectangle, readRectangle_again placed ((Picture.within_frame _).trans within), opacity, ?_, includeAudio, ?_, (), still, (), gain, color, ?_, crop, ?_,
    transition, ?_, rfl⟩
  · rw [within.get rfl]
    exact number_again opaque_
  · rw [within.get rfl]
    rfl
  · exact optional_again colored (fun _ _ => readColor_again) ((same _ (by simp)).trans colors)
  · exact optional_again cropped (fun _ _ => readCrop_again) ((same _ (by simp)).trans crops)
  · exact optional_again dissolves (fun _ _ => readTransition_again) ((same _ (by simp)).trans transitions)

theorem Within.of_mem {fields : Row} (each : ∀ field ∈ fields, lookup field.1 row = some field.2) : Within fields row :=
  fun _ _ found => each _ (mem_of_lookup found)

theorem mem_field {entry : String × Json} {value : Option Json} : entry ∈ field key value ↔ entry.1 = key ∧ value = some entry.2 := by
  obtain ⟨name, stored⟩ := entry
  cases value with
  | none => simp [field]
  | some value =>
    simp only [field, Option.map_some, Option.toList_some, List.mem_singleton, Prod.mk.injEq, Option.some.injEq]
    exact and_congr_right fun _ => eq_comm

theorem Picture.keys (picture : Picture) : ∀ entry ∈ picture.row, entry.1 ∈ PICTURE_FIELDS := by
  intro entry member
  simp only [Picture.row, Rectangle.row, List.mem_append, List.mem_cons, List.not_mem_nil, or_false, mem_field] at member
  simp only [PICTURE_FIELDS, List.mem_cons, List.not_mem_nil, or_false]
  rcases member with (((((rfl | rfl | rfl | rfl) | rfl | rfl) | ⟨key, _⟩) | ⟨key, _⟩) | ⟨key, _⟩)
  all_goals simp_all

theorem Clip.lookup_picture {clip : Clip} (member : key ∈ PICTURE_FIELDS) : lookup key clip.row = (clip.picture.bind fun picture => lookup key picture.row) := by
  rw [Clip.row, lookup_append]
  have absent : lookup key ([("id", Json.str clip.id), ("source_snapshot", .dict clip.source.row)] ++ clip.segment.row) = none := by
    simp only [PICTURE_FIELDS, List.mem_cons, List.not_mem_nil, or_false] at member
    rcases member with rfl | rfl | rfl | rfl | rfl | rfl | rfl | rfl | rfl <;> rfl
  rw [absent, Option.none_or]
  cases clip.picture with
  | none => rfl
  | some picture => rfl

theorem Clip.within_segment (clip : Clip) : Within clip.segment.row clip.row := by
  refine Within.of_mem ?_
  intro entry member
  simp only [Segment.row, List.mem_cons, List.not_mem_nil, or_false] at member
  rcases member with rfl | rfl | rfl | rfl | rfl | rfl | rfl | rfl | rfl <;> rfl

theorem Clip.keys (clip : Clip) : ∀ entry ∈ clip.row, entry.1 ∈ CLIP_FIELDS := by
  intro entry member
  rw [Clip.row, List.mem_append, List.mem_append] at member
  rw [CLIP_FIELDS, List.mem_append, List.mem_append]
  rcases member with (here | here) | here
  · left; left
    simp only [List.mem_cons, List.not_mem_nil, or_false] at here
    rcases here with rfl | rfl <;> simp [CLIP_REQUIRED]
  · simp only [Segment.row, List.mem_cons, List.not_mem_nil, or_false] at here
    rcases here with rfl | rfl | rfl | rfl | rfl | rfl | rfl | rfl | rfl <;> simp [CLIP_REQUIRED, SOUND_FIELDS]
  · right
    cases found : clip.picture with
    | none =>
      rw [found] at here
      cases here
    | some picture =>
      rw [found] at here
      exact picture.keys entry here

theorem readKind_again {clip : Clip} (done : readKind frame kind source segment row = .ok clip.picture) :
    readKind frame kind source segment clip.row = .ok clip.picture := by
  cases kind with
  | video =>
    simp only [readKind] at done ⊢
    cases read : readPicture frame source segment row with
    | error failure =>
      rw [read] at done
      cases done
    | ok picture =>
      rw [read] at done
      have same : clip.picture = some picture := (Except.ok.inj done).symm
      have lookups : ∀ key ∈ PICTURE_FIELDS, lookup key clip.row = lookup key picture.row := by
        intro key member
        rw [Clip.lookup_picture member, same]
        rfl
      have again : readPicture frame source segment clip.row = .ok picture := by
        refine readPicture_again read ?_ ?_
        · refine fun key value found => ?_
          rw [lookups key (picture.keys _ (mem_of_lookup found))]
          exact found
        · have known : ∀ key ∈ ["color_adjustment", "crop", "transition_out"], key ∈ PICTURE_FIELDS := by decide
          intro key member absent
          rw [lookups key (known key member)]
          exact absent
      rw [again, same]
      rfl
  | audio =>
    simp only [readKind, bind_ok, refuse_ok, pure_ok] at done ⊢
    obtain ⟨_, _, none⟩ := done
    refine ⟨(), ?_, none⟩
    rw [List.any_eq_false]
    intro key member
    rw [Row.has, Clip.lookup_picture member, ← none]
    simp

/-- Two clips of one timeline have identities of their own, and one snapshot of one asset. -/
structure Clip.Fits (one two : Clip) : Prop where
  id : one.id ≠ two.id
  source : one.source.id = two.source.id → one.source = two.source

theorem Clip.Fits.symm {one two : Clip} (fits : one.Fits two) : two.Fits one :=
  ⟨fits.id.symm, fun same => (fits.source same.symm).symm⟩

instance : Std.Symm Clip.Fits := ⟨fun _ _ => Clip.Fits.symm⟩

theorem conflicts_iff {earlier : List Clip} (fit : earlier.Pairwise Clip.Fits) :
    conflicts earlier source = false ↔ ∀ other ∈ earlier, other.source.id = source.id → other.source = source := by
  unfold conflicts
  cases found : (earlier.map Clip.source).find? fun other => other.id = source.id with
  | none =>
    have absent := List.find?_eq_none.mp found
    constructor
    · intro _ other member same
      exact absurd (decide_eq_true same) (absent other.source (List.mem_map.mpr ⟨other, member, rfl⟩))
    · exact fun _ => rfl
  | some first =>
    have id : first.id = source.id := by simpa using List.find?_some found
    obtain ⟨clip, member, rfl⟩ := List.mem_map.mp (List.mem_of_find?_eq_some found)
    rw [Option.any_some, decide_eq_false_iff_not, not_not]
    constructor
    · intro same other there asset
      rw [← same] at asset ⊢
      by_cases equal : other = clip
      · rw [equal]
      · exact (fit.forall there member equal).source asset
    · intro each
      exact each clip member id

theorem readClip_iff {earlier : List Clip} {clip : Clip} (fit : earlier.Pairwise Clip.Fits) : readClip frame kind earlier value = .ok clip ↔
    readClip frame kind [] value = .ok clip ∧ (∀ other ∈ earlier, other.Fits clip) ∧ earlier.length + 1 ≤ MAX_CLIPS := by
  simp only [readClip, bind_ok, refuse_ok, pure_ok, conflicts_iff fit, conflicts_iff List.Pairwise.nil, List.any_eq_false, decide_eq_true_eq,
    decide_eq_false_iff_not, Nat.not_lt]
  constructor
  · rintro ⟨row, closed, id, identified, _, fresh, _, few, source, there, _, consistent, segment, plays, picture, shows, rfl⟩
    have one : ([] : List Clip).length + 1 ≤ MAX_CLIPS := by decide
    constructor
    · exact ⟨row, closed, id, identified, (), List.forall_mem_nil _, (), one, source, there, (), List.forall_mem_nil _, segment, plays,
        picture, shows, rfl⟩
    · refine ⟨?_, few⟩
      intro other member
      exact ⟨fresh other member, consistent other member⟩
  · rintro ⟨⟨row, closed, id, identified, _, _, _, _, source, there, _, _, segment, plays, picture, shows, rfl⟩, each, few⟩
    exact ⟨row, closed, id, identified, (), fun other member => (each other member).id, (), few, source, there, (),
      fun other member => (each other member).source, segment, plays, picture, shows, rfl⟩

theorem readClip_again {clip : Clip} (done : readClip frame kind [] value = .ok clip) : readClip frame kind [] clip.value = .ok clip := by
  simp only [readClip, bind_ok, refuse_ok, pure_ok] at done ⊢
  obtain ⟨row, _, id, identified, _, _, _, few, source, there, _, consistent, segment, plays, picture, shows, same⟩ := done
  subst same
  refine ⟨_, object_dict (Clip.keys _) ?_, id, identity_again identified, (), rfl, (), few, source, readSnapshot_again there, (), consistent, segment,
    readSegment_again plays (Clip.within_segment ⟨id, source, segment, picture⟩), picture, ?_, rfl⟩
  · intro key member
    simp only [CLIP_REQUIRED, List.mem_cons, List.not_mem_nil, or_false] at member
    rcases member with rfl | rfl | rfl | rfl | rfl <;> rfl
  · have again : readKind frame kind source segment row = .ok (Clip.mk id source segment picture).picture := shows
    exact readKind_again again

end NovelStudio.Timelines
