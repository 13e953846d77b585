import NovelStudio.Timelines.Canonical

/-! Two accepted timelines that differ at most in the order of their lists and in how their speeds are written are normalised to one. -/

namespace NovelStudio.Timelines

open Library

variable {row other : Row} {value value' : Json} {frame : Frame} {kind : Kind}

/-- A part of the speed of a clip: one, where it is absent. -/
def speed (clip : Json) (key : String) : Json := (clip.get? key).getD (.int 1)

/-- Two clips that differ at most in how their speed is written. -/
structure SameClip (one two : Json) : Prop where
  rest : ∀ key, key ∉ ["speed_num", "speed_den"] → one.get? key = two.get? key
  quotient : ∃ num den num' den' : Int, speed one "speed_num" = .int num ∧ speed one "speed_den" = .int den ∧
    speed two "speed_num" = .int num' ∧ speed two "speed_den" = .int den' ∧ num * den' = num' * den

/-- No list, or two lists whose items are related in some order. -/
inductive Moved (related : Json → Json → Prop) : Option Json → Option Json → Prop where
  | absent : Moved related none none
  | list {items moved others : List Json} (order : items.Perm moved) (each : List.Forall₂ related moved others) :
      Moved related (some (.list items)) (some (.list others))

/-- Two tracks that differ at most in the order of their clips, and in how the speeds of these are written. -/
structure SameTrack (one two : Json) : Prop where
  rest : ∀ key, key ∉ ["clips"] → one.get? key = two.get? key
  clips : Moved SameClip (one.get? "clips") (two.get? "clips")

/-- Two timelines that differ at most in the order of tracks, clips, captions and links, and in how speeds are written. -/
structure SameTimeline (one two : Json) : Prop where
  rest : ∀ key, key ∉ ["tracks", "captions", "clip_links"] → one.get? key = two.get? key
  tracks : Moved SameTrack (one.get? "tracks") (two.get? "tracks")
  captions : Moved Eq (one.get? "captions") (two.get? "captions")
  links : Moved Eq (one.get? "clip_links") (two.get? "clip_links")

variable {key : String}

theorem item_congr (same : lookup key row = lookup key other) : row.item key = other.item key := by
  rw [Row.item, Row.item, same]

theorem get_congr (default : Json) (same : lookup key row = lookup key other) : row.get key default = other.get key default := by
  rw [Row.get, Row.get, same]

theorem optional_congr {α : Type} (read : Json → Except Failure α) (same : lookup key row = lookup key other) :
    optional row key read = optional other key read := by
  rw [optional, optional, same]

variable {den : Int}

theorem reduced_rat (num : Int) (positive : 0 < den) :
    num / (Int.gcd num den : Int) = (Rat.divInt num den).num ∧ den / (Int.gcd num den : Int) = (Rat.divInt num den).den := by
  rw [Rat.num_divInt, Rat.den_divInt, if_neg positive.ne', Int.sign_eq_one_of_pos positive, one_mul, Int.gcd_comm]
  refine ⟨rfl, ?_⟩
  rw [Int.natCast_ediv, Int.natAbs_of_nonneg positive.le]

variable {num : Int}

theorem reduced_eq {num' den' : Int} (positive : 0 < den) (positive' : 0 < den') (same : num * den' = num' * den) :
    num / (Int.gcd num den : Int) = num' / (Int.gcd num' den' : Int) ∧ den / (Int.gcd num den : Int) = den' / (Int.gcd num' den' : Int) := by
  have quotient : Rat.divInt num den = Rat.divInt num' den' := (Rat.divInt_eq_divInt_iff positive.ne' positive'.ne').mpr same
  obtain ⟨numerator, denominator⟩ := reduced_rat num positive
  obtain ⟨numerator', denominator'⟩ := reduced_rat num' positive'
  rw [numerator, denominator, numerator', denominator', quotient]
  exact ⟨rfl, rfl⟩

theorem readSegment_same {segment segment' : Segment} {num' den' : Int}
    (rest : ∀ key, key ∉ ["speed_num", "speed_den"] → lookup key row = lookup key other) (numerator : row.get "speed_num" (.int 1) = .int num)
    (denominator : row.get "speed_den" (.int 1) = .int den) (numerator' : other.get "speed_num" (.int 1) = .int num')
    (denominator' : other.get "speed_den" (.int 1) = .int den') (same : num * den' = num' * den) (done : readSegment frame row = .ok segment)
    (done' : readSegment frame other = .ok segment') : segment = segment' := by
  have item : ∀ key, key ∉ ["speed_num", "speed_den"] → row.item key = other.item key := fun key away => item_congr (rest key away)
  have get : ∀ key default, key ∉ ["speed_num", "speed_den"] → row.get key default = other.get key default :=
    fun key default away => get_congr default (rest key away)
  simp only [readSegment, item "start_ms" (by decide), item "in_ms" (by decide), item "out_ms" (by decide), get "muted" _ (by decide),
    get "gain_db" _ (by decide), get "fade_in_ms" _ (by decide), get "fade_out_ms" _ (by decide), numerator, denominator, bind_ok, refuse_ok, pure_ok] at done
  simp only [readSegment, numerator', denominator', bind_ok, refuse_ok, pure_ok] at done'
  obtain ⟨startMs, start, inMs, begins, outMs, ends, _, _, top, upper, bottom, lower, muted, silent, gainDb, gain, length, lasts, _, _, fadeInMs, fadeIn, fadeOutMs, fadeOut,
    _, _, rfl⟩ := done
  obtain ⟨startMs', start', inMs', begins', outMs', ends', _, _, top', upper', bottom', lower', muted', silent', gainDb', gain', length', lasts', _, _, fadeInMs', fadeIn',
    fadeOutMs', fadeOut', _, _, rfl⟩ := done'
  obtain ⟨rfl, _⟩ := (integer_ok.mp upper).imp_left Json.int.inj
  obtain ⟨rfl, above, _⟩ := (integer_ok.mp lower).imp_left Json.int.inj
  obtain ⟨rfl, _⟩ := (integer_ok.mp upper').imp_left Json.int.inj
  obtain ⟨rfl, above', _⟩ := (integer_ok.mp lower').imp_left Json.int.inj
  obtain ⟨reduced, reduced'⟩ := reduced_eq above above' same
  obtain rfl := Except.ok.inj (start.symm.trans start')
  obtain rfl := Except.ok.inj (begins.symm.trans begins')
  obtain rfl := Except.ok.inj (ends.symm.trans ends')
  obtain rfl := Except.ok.inj (silent.symm.trans silent')
  obtain rfl := Except.ok.inj (gain.symm.trans gain')
  rw [← reduced, ← reduced'] at lasts' ⊢
  obtain rfl := Except.ok.inj (lasts.symm.trans lasts')
  obtain rfl := Except.ok.inj (fadeIn.symm.trans fadeIn')
  obtain rfl := Except.ok.inj (fadeOut.symm.trans fadeOut')
  rfl

theorem readKind_congr (source : Snapshot) (segment : Segment) (same : ∀ key ∈ PICTURE_FIELDS, lookup key row = lookup key other) :
    readKind frame kind source segment row = readKind frame kind source segment other := by
  have get : ∀ key default, key ∈ PICTURE_FIELDS → row.get key default = other.get key default := fun key default member => get_congr default (same key member)
  cases kind with
  | video =>
    simp only [readKind, readPicture, readRectangle, get "x" _ (by decide), get "y" _ (by decide), get "width" _ (by decide), get "height" _ (by decide),
      get "opacity" _ (by decide), get "include_audio" _ (by decide), optional_congr _ (same "color_adjustment" (by decide)),
      optional_congr _ (same "crop" (by decide)), optional_congr _ (same "transition_out" (by decide))]
  | audio =>
    have none : PICTURE_FIELDS.any row.has = PICTURE_FIELDS.any other.has := by
      rw [Bool.eq_iff_iff, List.any_eq_true, List.any_eq_true]
      refine exists_congr fun key => and_congr_right fun member => ?_
      rw [Row.has, Row.has, same key member]
    rw [readKind, readKind, none]

theorem readClip_same {clip clip' : Clip} (same : SameClip value value') (done : readClip frame kind [] value = .ok clip)
    (done' : readClip frame kind [] value' = .ok clip') : clip = clip' := by
  simp only [readClip, bind_ok, refuse_ok, pure_ok] at done done'
  obtain ⟨row, closed, id, identified, _, _, _, _, source, there, _, _, segment, plays, picture, shows, rfl⟩ := done
  obtain ⟨row', closed', id', identified', _, _, _, _, source', there', _, _, segment', plays', picture', shows', rfl⟩ := done'
  obtain rfl := (object_ok.mp closed).1
  obtain rfl := (object_ok.mp closed').1
  have rest : ∀ key, key ∉ ["speed_num", "speed_den"] → lookup key row = lookup key row' := same.rest
  obtain ⟨num, den, num', den', numerator, denominator, numerator', denominator', equal⟩ := same.quotient
  rw [item_congr (rest "id" (by decide))] at identified
  rw [item_congr (rest "source_snapshot" (by decide))] at there
  obtain rfl := Except.ok.inj (identified.symm.trans identified')
  obtain rfl := Except.ok.inj (there.symm.trans there')
  obtain rfl := readSegment_same rest numerator denominator numerator' denominator' equal plays plays'
  have pictures : ∀ key ∈ PICTURE_FIELDS, key ∉ ["speed_num", "speed_den"] := by decide
  rw [readKind_congr source segment fun key member => rest key (pictures key member)] at shows
  obtain rfl := Except.ok.inj (shows.symm.trans shows')
  rfl

theorem Moved.lists {related : Json → Json → Prop} {one two : Option Json} {items others : List Json} (moved : Moved related one two)
    (here : one = some (.list items)) (there : two = some (.list others)) :
    ∃ middle, items.Perm middle ∧ List.Forall₂ related middle others := by
  cases moved with
  | absent => cases here
  | list order each =>
    cases here
    cases there
    exact ⟨_, order, each⟩

theorem item_of_required {fields required : List String} {items : List Json} (closed : object value fields required = .ok row)
    (member : key ∈ required) (stored : row.item key = .list items) : lookup key row = some (.list items) := by
  have there := (object_ok.mp closed).2.2 key member
  rw [Option.isSome_iff_exists] at there
  obtain ⟨found, here⟩ := there
  rw [Row.item, here] at stored
  rw [here]
  exact congrArg some stored

theorem sortClips_eq {clips others : List Clip} (fit : clips.Pairwise Clip.Fits) (same : clips.Perm others) : sortClips clips = sortClips others := by
  refine sortBy_eq_of_perm same ?_
  intro one member two member' equal
  by_contra differ
  have id : one.id = two.id := congrArg (fun key => (ofLex key).2) equal
  exact (fit.forall member member' differ).id id

theorem sortTracks_eq {tracks others : List Track} (fit : tracks.Pairwise Track.Fits) (same : tracks.Perm others) : sortTracks tracks = sortTracks others := by
  refine sortBy_eq_of_perm same ?_
  intro one member two member' equal
  by_contra differ
  have symmetric : Std.Symm Track.Fits := ⟨fun _ _ => Track.Fits.symm⟩
  exact (fit.forall member member' differ).order equal

theorem readTrack_same {track track' : Track} (same : SameTrack value value') (done : readTrack frame [] value = .ok track)
    (done' : readTrack frame [] value' = .ok track') : track = track' := by
  simp only [readTrack, bind_ok, refuse_ok, pure_ok, show ([] : List Track).flatMap Track.clips = [] from rfl] at done done'
  obtain ⟨row, closed, id, identified, order, placed, kind, chosen, _, _, _, _, _, _, role, plays, muted, silent, gainDb, gain, _, _, items, listed, clips, read, _, _,
    locked, locks, rfl⟩ := done
  obtain ⟨row', closed', id', identified', order', placed', kind', chosen', _, _, _, _, _, _, role', plays', muted', silent', gainDb', gain', _, _, items', listed',
    clips', read', _, _, locked', locks', rfl⟩ := done'
  obtain ⟨middle, moved, each⟩ : ∃ middle, items.Perm middle ∧ List.Forall₂ SameClip middle items' := by
    have here := item_of_required closed (by decide) (listOf_ok.mp listed).1
    have there := item_of_required closed' (by decide) (listOf_ok.mp listed').1
    obtain rfl := (object_ok.mp closed).1
    obtain rfl := (object_ok.mp closed').1
    exact same.clips.lists here there
  obtain rfl := (object_ok.mp closed).1
  obtain rfl := (object_ok.mp closed').1
  have rest : ∀ key, key ∉ ["clips"] → lookup key row = lookup key row' := same.rest
  rw [item_congr (rest "id" (by decide))] at identified
  rw [item_congr (rest "order" (by decide))] at placed
  rw [item_congr (rest "kind" (by decide))] at chosen
  obtain rfl := Except.ok.inj (identified.symm.trans identified')
  obtain rfl := Except.ok.inj (placed.symm.trans placed')
  obtain rfl := Except.ok.inj (chosen.symm.trans chosen')
  rw [get_congr _ (rest "role" (by decide))] at plays
  rw [get_congr _ (rest "muted" (by decide))] at silent
  rw [get_congr _ (rest "gain_db" (by decide))] at gain
  rw [optional_congr _ (rest "locked" (by decide))] at locks
  obtain rfl := Except.ok.inj (plays.symm.trans plays')
  obtain rfl := Except.ok.inj (silent.symm.trans silent')
  obtain rfl := Except.ok.inj (gain.symm.trans gain')
  obtain rfl := Except.ok.inj (locks.symm.trans locks')
  obtain ⟨alone, fit, _⟩ := (readClips_iff List.Pairwise.nil (Nat.zero_le _)).mp read
  obtain ⟨alone', _, _⟩ := (readClips_iff List.Pairwise.nil (Nat.zero_le _)).mp read'
  have clips_ : clips.Perm clips' := perm_of_forall₂ alone alone' moved each fun _ _ _ _ => readClip_same
  rw [sortClips_eq fit clips_]

theorem sortCaptions_eq {captions others : List Caption} (same : captions.Perm others) : sortCaptions captions = sortCaptions others := by
  refine sortBy_eq_of_perm same ?_
  intro one _ two _ equal
  have start : one.startMs = two.startMs := congrArg (fun key => (ofLex key).1) equal
  have end_ : one.endMs = two.endMs := congrArg (fun key => (ofLex (ofLex key).2).1) equal
  have text : one.text = two.text := congrArg (fun key => (ofLex (ofLex key).2).2) equal
  rw [Caption.mk.injEq]
  exact ⟨start, end_, text⟩

theorem sortLinks_eq {links others : List Link} (fit : links.Pairwise Link.Fits) (same : links.Perm others) : sortLinks links = sortLinks others := by
  refine sortBy_eq_of_perm same ?_
  intro one member two member' equal
  by_contra differ
  have symmetric : Std.Symm Link.Fits := ⟨fun _ _ => Link.Fits.symm⟩
  exact (fit.forall member member' differ).video.1 (congrArg (fun key => (ofLex key).1) equal)

theorem readCaptions_same {duration : Int} {captions captions' : List Caption} (same : Moved Eq (lookup "captions" row) (lookup "captions" other))
    (done : readCaptions duration (row.get "captions" (.list [])) = .ok captions)
    (done' : readCaptions duration (other.get "captions" (.list [])) = .ok captions') : captions = captions' := by
  rw [Row.get] at done done'
  generalize lookup "captions" row = one at same done
  generalize lookup "captions" other = two at same done'
  cases same with
  | absent => exact Except.ok.inj (done.symm.trans done')
  | list order each =>
    simp only [readCaptions, bind_ok, pure_ok, listOf_ok, Option.getD_some, Json.list.injEq] at done done'
    obtain ⟨_, ⟨rfl, _⟩, read, reads, rfl⟩ := done
    obtain ⟨_, ⟨rfl, _⟩, read', reads', rfl⟩ := done'
    obtain ⟨alone, _, _⟩ := (readAll_ok readCaption_iff (Nat.zero_le _) characters_shrink).mp reads
    obtain ⟨alone', _, _⟩ := (readAll_ok readCaption_iff (Nat.zero_le _) characters_shrink).mp reads'
    refine sortCaptions_eq (perm_of_forall₂ alone alone' order each ?_)
    rintro item _ result result' rfl here there
    exact Except.ok.inj (here.symm.trans there)

theorem readLinks_same {tracks : List Track} {links links' : Option (List Link)} (same : Moved Eq (lookup "clip_links" row) (lookup "clip_links" other))
    (done : optional row "clip_links" (normalizeClipLinks tracks) = .ok links) (done' : optional other "clip_links" (normalizeClipLinks tracks) = .ok links') :
    links = links' := by
  rw [optional_ok] at done done'
  generalize lookup "clip_links" row = one at same done
  generalize lookup "clip_links" other = two at same done'
  cases same with
  | absent => rw [done, done']
  | list order each =>
    simp only [normalizeClipLinks, bind_ok, pure_ok, listOf_ok, Json.list.injEq] at done done'
    obtain ⟨_, ⟨_, ⟨rfl, _⟩, read, reads, rfl⟩, rfl⟩ := done
    obtain ⟨_, ⟨_, ⟨rfl, _⟩, read', reads', rfl⟩, rfl⟩ := done'
    obtain ⟨alone, fit, _⟩ := (readAll_ok readLink_iff trivial fun _ => trivial).mp reads
    obtain ⟨alone', _, _⟩ := (readAll_ok readLink_iff trivial fun _ => trivial).mp reads'
    refine congrArg some (sortLinks_eq fit (perm_of_forall₂ alone alone' order each ?_))
    rintro item _ result result' rfl here there
    exact Except.ok.inj (here.symm.trans there)

theorem readFrame_congr {audioOnly : Bool} (same : ∀ key, key ∉ ["tracks", "captions", "clip_links"] → lookup key row = lookup key other) :
    readFrame audioOnly row = readFrame audioOnly other := by
  rw [readFrame, readFrame, item_congr (same "duration_ms" (by decide)), get_congr _ (same "width" (by decide)), get_congr _ (same "height" (by decide)),
    get_congr _ (same "fps" (by decide))]

theorem readTimeline_same {timeline timeline' : Timeline} (same : SameTimeline value value') (done : readTimeline false value = .ok timeline)
    (done' : readTimeline false value' = .ok timeline') : timeline = timeline' := by
  simp only [readTimeline, readRow, Bool.false_eq_true, ↓reduceIte, bind_ok, pure_ok] at done done'
  obtain ⟨row, closed, _, _, frame, framed, items, listed, tracks, read, screen, shown, rfl⟩ := done
  obtain ⟨row', closed', _, _, frame', framed', items', listed', tracks', read', screen', shown', rfl⟩ := done'
  obtain ⟨middle, moved, each⟩ : ∃ middle, items.Perm middle ∧ List.Forall₂ SameTrack middle items' := by
    have here := item_of_required closed (by decide) (listOf_ok.mp listed).1
    have there := item_of_required closed' (by decide) (listOf_ok.mp listed').1
    obtain rfl := (object_ok.mp closed).1
    obtain rfl := (object_ok.mp closed').1
    exact same.tracks.lists here there
  obtain rfl := (object_ok.mp closed).1
  obtain rfl := (object_ok.mp closed').1
  have rest : ∀ key, key ∉ ["tracks", "captions", "clip_links"] → lookup key row = lookup key row' := same.rest
  rw [readFrame_congr rest] at framed
  obtain rfl := Except.ok.inj (framed.symm.trans framed')
  obtain ⟨alone, fit, _⟩ := (readAll_ok readTrack_iff Bounded.nil Bounded.shrink).mp read
  obtain ⟨alone', _, _⟩ := (readAll_ok readTrack_iff Bounded.nil Bounded.shrink).mp read'
  have sorted : sortTracks tracks = sortTracks tracks' :=
    sortTracks_eq fit (perm_of_forall₂ alone alone' moved each fun _ _ _ _ => readTrack_same)
  simp only [readScreen, bind_ok, pure_ok] at shown shown'
  obtain ⟨_, _, captions, captioned, captionStyle, styled, clipLinks, linked, rfl⟩ := shown
  obtain ⟨_, _, captions', captioned', captionStyle', styled', clipLinks', linked', rfl⟩ := shown'
  rw [optional_congr _ (rest "caption_style" (by decide))] at styled
  rw [sorted] at linked
  obtain rfl := readCaptions_same same.captions captioned captioned'
  obtain rfl := Except.ok.inj (styled.symm.trans styled')
  obtain rfl := readLinks_same same.links linked linked'
  rw [sorted]

theorem normalizeStudioTimeline_two (version : value.get? "schema_version" = some (.int 2)) : normalizeStudioTimeline value = normalizeTimelineV2 false value := by
  rw [normalizeStudioTimeline, version]
  rfl

/-- Normalisation is idempotent on every schema; on schema two it forgets the order of tracks, clips, captions and links, and how speeds are written. -/
theorem normalizeStudioTimeline_canonical :
    (∀ value result, normalizeStudioTimeline value = .ok result → normalizeStudioTimeline result = .ok result) ∧
      ∀ one two result result', one.get? "schema_version" = some (.int 2) → SameTimeline one two → normalizeStudioTimeline one = .ok result →
        normalizeStudioTimeline two = .ok result' → result = result' := by
  constructor
  · exact fun _ _ => normalizeStudioTimeline_again
  · intro one two result result' version same done done'
    have version' : two.get? "schema_version" = some (.int 2) := (same.rest "schema_version" (by decide)).symm.trans version
    rw [normalizeStudioTimeline_two version] at done
    rw [normalizeStudioTimeline_two version'] at done'
    obtain ⟨timeline, read, rfl⟩ := normalizeTimelineV2_ok.mp done
    obtain ⟨timeline', read', rfl⟩ := normalizeTimelineV2_ok.mp done'
    rw [readTimeline_same same read read']

def snapshotOf (kind : String) : Json :=
  .dict [("id", .str kind), ("kind", .str "ASSET"), ("asset_kind", .str kind), ("version", .int 1),
    ("digest", .str "0123456789abcdef0123456789abcdef0123456789abcdef0123456789abcdef")]

/-- An opening of two seconds, played in one. -/
def openingAt (num den : Int) : Json :=
  .dict [("id", .str "opening"), ("source_snapshot", snapshotOf "video"), ("start_ms", .int 0), ("in_ms", .int 0), ("out_ms", .int 2000),
    ("speed_num", .int num), ("speed_den", .int den)]

def clipOf (id kind : String) (startMs : Int) : Json :=
  .dict [("id", .str id), ("source_snapshot", snapshotOf kind), ("start_ms", .int startMs), ("in_ms", .int 0), ("out_ms", .int 1000)]

def trackOf (kind : String) (order : Int) (clips : List Json) : Json :=
  .dict [("id", .str kind), ("kind", .str kind), ("order", .int order), ("clips", .list clips)]

def filmOf (tracks : List Json) : Json := .dict [("schema_version", .int 2), ("duration_ms", .int 5000), ("tracks", .list tracks)]

/-- A film, and the same one with its tracks and clips swapped and a speed that is not reduced. -/
def film : Json := filmOf [trackOf "VIDEO" 0 [openingAt 2 1, clipOf "ending" "video" 1000], trackOf "AUDIO" 1 [clipOf "voice" "audio" 0]]

def filmSwapped : Json := filmOf [trackOf "AUDIO" 1 [clipOf "voice" "audio" 0], trackOf "VIDEO" 0 [clipOf "ending" "video" 1000, openingAt 4 2]]

theorem SameClip.refl_of {clip : Json} (numerator : speed clip "speed_num" = .int num) (denominator : speed clip "speed_den" = .int den) :
    SameClip clip clip := ⟨fun _ _ => rfl, num, den, num, den, numerator, denominator, numerator, denominator, rfl⟩

theorem filmSwapped_same : SameTimeline film filmSwapped := by
  have opening : SameClip (openingAt 2 1) (openingAt 4 2) := by
    refine ⟨?_, 2, 1, 4, 2, rfl, rfl, rfl, rfl, rfl⟩
    intro key away
    rw [List.mem_cons, List.mem_singleton, not_or] at away
    simp [openingAt, Json.get?, lookup, Ne.symm away.1, Ne.symm away.2]
  have video : SameTrack (trackOf "VIDEO" 0 [openingAt 2 1, clipOf "ending" "video" 1000]) (trackOf "VIDEO" 0 [clipOf "ending" "video" 1000, openingAt 4 2]) := by
    constructor
    · intro key away
      rw [List.mem_singleton] at away
      simp [trackOf, Json.get?, lookup, Ne.symm away]
    · exact .list (List.Perm.swap ..) (.cons (SameClip.refl_of rfl rfl) (.cons opening .nil))
  have audio : SameTrack (trackOf "AUDIO" 1 [clipOf "voice" "audio" 0]) (trackOf "AUDIO" 1 [clipOf "voice" "audio" 0]) := by
    constructor
    · exact fun _ _ => rfl
    · exact .list (List.Perm.refl _) (.cons (SameClip.refl_of rfl rfl) .nil)
  constructor
  · intro key away
    rw [List.mem_cons, not_or] at away
    simp [film, filmSwapped, filmOf, Json.get?, lookup, Ne.symm away.1]
  · exact .list (List.Perm.swap ..) (.cons audio (.cons video .nil))
  · exact .absent
  · exact .absent

theorem accepted_result (value : Json) (accepted : (normalizeStudioTimeline value).isOk = true) : ∃ result, normalizeStudioTimeline value = .ok result := by
  cases done : normalizeStudioTimeline value with
  | ok result => exact ⟨result, rfl⟩
  | error failure =>
    rw [done] at accepted
    cases accepted

theorem normalizeStudioTimeline_canonical_film : ∃ result, normalizeStudioTimeline film = .ok result ∧ normalizeStudioTimeline filmSwapped = .ok result ∧
    normalizeStudioTimeline result = .ok result := by
  obtain ⟨result, done⟩ := accepted_result film (by decide +kernel)
  obtain ⟨result', done'⟩ := accepted_result filmSwapped (by decide +kernel)
  have same := normalizeStudioTimeline_canonical.2 film filmSwapped result result' rfl filmSwapped_same done done'
  exact ⟨result, done, same ▸ done', normalizeStudioTimeline_canonical.1 film result done⟩

end NovelStudio.Timelines
