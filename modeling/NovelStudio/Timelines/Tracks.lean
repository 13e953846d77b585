import NovelStudio.Timelines.Values

/-! Tracks, captions and links: what they are read behind only has to fit them, and each is read again from its value. -/

namespace NovelStudio.Timelines

open Library

variable {row other : Row} {key : String} {value : Json} {frame : Frame} {kind : Kind}

/-- Some clips may be behind others. -/
structure Behind (earlier clips : List Clip) : Prop where
  cross : ∀ one ∈ earlier, ∀ two ∈ clips, one.Fits two
  total : earlier.length + clips.length ≤ MAX_CLIPS

/-- A clip that is read behind others is read alone, fits them, and is not one too many. -/
def ReadsClips (read : List Clip → Json → Except Failure Clip) : Prop := ∀ {earlier value clip}, earlier.Pairwise Clip.Fits →
  (read earlier value = .ok clip ↔ read [] value = .ok clip ∧ (∀ other ∈ earlier, other.Fits clip) ∧ earlier.length + 1 ≤ MAX_CLIPS)

theorem readClip_reads : ReadsClips (readClip frame kind) := readClip_iff

variable {earlier : List Clip} {read : List Clip → Json → Except Failure Clip}

theorem ReadsClips.behind (reads : ReadsClips read)
    (fit : earlier.Pairwise Clip.Fits) : ReadsAs (fun seen => read (earlier ++ seen)) (read []) Clip.Fits (Behind earlier) := by
  intro seen item clip fits behind
  have all : (earlier ++ seen).Pairwise Clip.Fits := List.pairwise_append.mpr ⟨fit, fits, behind.cross⟩
  rw [reads all]
  constructor
  · intro ⟨alone, each, total⟩
    rw [List.length_append] at total
    refine ⟨alone, fun one member => each one (List.mem_append_right _ member), ?_, ?_⟩
    · intro one there two member
      rcases List.mem_append.mp member with before | last
      · exact behind.cross one there two before
      · obtain rfl := List.mem_singleton.mp last
        exact each one (List.mem_append_left _ there)
    · rw [List.length_append, List.length_singleton]
      omega
  · intro ⟨alone, each, next⟩
    have total := next.total
    rw [List.length_append, List.length_singleton] at total
    refine ⟨alone, ?_, ?_⟩
    · intro one member
      rcases List.mem_append.mp member with there | there
      · exact next.cross one there clip (List.mem_append_right _ (List.mem_singleton_self _))
      · exact each one there
    · rw [List.length_append]
      omega

theorem Behind.shrink {seen : List Clip} {clip : Clip} (behind : Behind earlier (seen ++ [clip])) : Behind earlier seen := by
  have total := behind.total
  rw [List.length_append] at total
  exact ⟨fun one there two member => behind.cross one there two (List.mem_append_left _ member), by omega⟩

variable {clips : List Clip} {items : List Json}

theorem ReadsClips.all (reads : ReadsClips read)
    (fit : earlier.Pairwise Clip.Fits) (few : earlier.length ≤ MAX_CLIPS) :
    readAll (fun seen => read (earlier ++ seen)) items = .ok clips ↔
      List.Forall₂ (fun item clip => read [] item = .ok clip) items clips ∧ clips.Pairwise Clip.Fits ∧ Behind earlier clips :=
  readAll_ok (reads.behind fit) ⟨fun _ _ _ member => (nomatch member), few⟩ Behind.shrink

theorem readClips_iff (fit : earlier.Pairwise Clip.Fits)
    (few : earlier.length ≤ MAX_CLIPS) : readClips frame kind earlier items = .ok clips ↔
      List.Forall₂ (fun item clip => readClip frame kind [] item = .ok clip) items clips ∧ clips.Pairwise Clip.Fits ∧ Behind earlier clips :=
  readClip_reads.all fit few

theorem sortClips_perm (clips : List Clip) : (sortClips clips).Perm clips := sortBy_perm _ _

/-- Two tracks of one timeline have identities and places of their own, and so have their clips. -/
structure Track.Fits (one two : Track) : Prop where
  id : one.id ≠ two.id
  order : one.order ≠ two.order
  clips : ∀ left ∈ one.clips, ∀ right ∈ two.clips, left.Fits right

theorem Track.Fits.symm {one two : Track} (fits : one.Fits two) : two.Fits one :=
  ⟨fits.id.symm, fits.order.symm, fun left there right member => (fits.clips right member left there).symm⟩

/-- The clips of some tracks are few and fit each other, and the tracks of a kind are few. -/
structure Bounded (tracks : List Track) : Prop where
  few : (tracks.flatMap Track.clips).length ≤ MAX_CLIPS
  kinds : ∀ kind, (tracks.filter fun track => track.kind = kind).length ≤ 4
  each : ∀ track ∈ tracks, track.clips.Pairwise Clip.Fits

variable {track : Track}

theorem Bounded.shrink {tracks : List Track} (bounded : Bounded (tracks ++ [track])) : Bounded tracks := by
  constructor
  · have few := bounded.few
    rw [List.flatMap_append, List.length_append] at few
    omega
  · intro kind
    have kinds := bounded.kinds kind
    rw [List.filter_append, List.length_append] at kinds
    omega
  · intro one member
    exact bounded.each one (List.mem_append_left _ member)

theorem Bounded.perm {tracks others : List Track} (same : tracks.Perm others) (bounded : Bounded tracks) : Bounded others := by
  constructor
  · rw [← (same.flatMap_right Track.clips).length_eq]
    exact bounded.few
  · intro kind
    rw [← (same.filter _).length_eq]
    exact bounded.kinds kind
  · intro track member
    exact bounded.each track (same.mem_iff.mpr member)

theorem Bounded.fit {tracks : List Track} (bounded : Bounded tracks) (fit : tracks.Pairwise Track.Fits) :
    (tracks.flatMap Track.clips).Pairwise Clip.Fits := by
  rw [List.pairwise_flatMap]
  exact ⟨bounded.each, fit.imp fun fits => fits.clips⟩

theorem Bounded.snoc {tracks : List Track} (bounded : Bounded tracks) (clips : track.clips.Pairwise Clip.Fits)
    (few : (tracks.flatMap Track.clips).length + track.clips.length ≤ MAX_CLIPS)
    (kinds : (tracks.filter fun other => other.kind = track.kind).length + 1 ≤ 4) : Bounded (tracks ++ [track]) := by
  constructor
  · rw [List.flatMap_append, List.length_append]
    simpa using few
  · intro kind
    rw [List.filter_append, List.length_append]
    by_cases same : track.kind = kind
    · subst same
      simpa using kinds
    · simpa [same] using bounded.kinds kind
  · intro other member
    rcases List.mem_append.mp member with before | last
    · exact bounded.each other before
    · obtain rfl := List.mem_singleton.mp last
      exact clips

theorem Bounded.last {tracks : List Track} (bounded : Bounded (tracks ++ [track])) :
    (tracks.flatMap Track.clips).length + track.clips.length ≤ MAX_CLIPS ∧
      (tracks.filter fun other => other.kind = track.kind).length + 1 ≤ 4 := by
  constructor
  · have few := bounded.few
    rw [List.flatMap_append, List.length_append] at few
    simpa using few
  · have kinds := bounded.kinds track.kind
    rw [List.filter_append, List.length_append] at kinds
    simpa using kinds

theorem readTrack_iff : ReadsAs (readTrack frame) (readTrack frame []) Track.Fits Bounded := by
  intro earlier value track fit bounded
  simp only [readTrack, bind_ok, refuse_ok, pure_ok, readClips_iff (bounded.fit fit) bounded.few,
    show ([] : List Track).flatMap Track.clips = [] from rfl, readClips_iff List.Pairwise.nil (Nat.zero_le _), List.any_eq_false, Bool.or_eq_true,
    decide_eq_true_eq, not_or, decide_eq_false_iff_not, Nat.not_lt]
  constructor
  · rintro ⟨row, closed, id, identified, order, placed, kind, chosen, _, fresh, _, allowed, _, kinds, role, plays, muted, silent, gainDb, gain, _, loud, items, listed,
      clips, ⟨each, apart, behind⟩, _, passes, locked, locks, rfl⟩
    have single : Behind [] clips := ⟨List.forall_mem_nil _, le_trans (Nat.add_le_add_right (Nat.zero_le _) _) behind.total⟩
    refine ⟨⟨row, closed, id, identified, order, placed, kind, chosen, (), List.forall_mem_nil _, (), allowed, (), by simp, role, plays, muted, silent, gainDb, gain, (), loud, items,
      listed, clips, ⟨each, apart, single⟩, (), passes, locked, locks, rfl⟩, ?_, ?_⟩
    · intro other member
      refine ⟨(fresh other member).1, (fresh other member).2, ?_⟩
      intro left there right here
      exact behind.cross left (List.mem_flatMap.mpr ⟨other, member, there⟩) right ((sortClips_perm clips).mem_iff.mp here)
    · refine bounded.snoc ?_ ?_ kinds
      · exact ((sortClips_perm clips).pairwise_iff fun {_ _} => Clip.Fits.symm).mpr apart
      · rw [(sortClips_perm clips).length_eq]
        exact behind.total
  · rintro ⟨⟨row, closed, id, identified, order, placed, kind, chosen, _, _, _, allowed, _, _, role, plays, muted, silent, gainDb, gain, _, loud, items, listed,
      clips, ⟨each, apart, _⟩, _, passes, locked, locks, rfl⟩, fits, next⟩
    obtain ⟨few, kinds⟩ := next.last
    have behind : Behind (earlier.flatMap Track.clips) clips := by
      constructor
      · intro left there right here
        obtain ⟨other, member, there⟩ := List.mem_flatMap.mp there
        exact (fits other member).clips left there right ((sortClips_perm clips).mem_iff.mpr here)
      · rw [← (sortClips_perm clips).length_eq]
        exact few
    exact ⟨row, closed, id, identified, order, placed, kind, chosen, (), fun other member => ⟨(fits other member).id, (fits other member).order⟩, (), allowed, (), kinds,
      role, plays, muted, silent, gainDb, gain, (), loud, items, listed, clips, ⟨each, apart, behind⟩, (), passes, locked, locks, rfl⟩

theorem listOf_ok {low high : Nat} {code : String} : listOf value low high code = .ok items ↔
    value = .list items ∧ low ≤ items.length ∧ items.length ≤ high := by
  cases value with
  | list stored =>
    simp only [listOf, bind_ok, refuse_ok, pure_ok, Bool.not_eq_false', Bool.and_eq_true, decide_eq_true_eq, Json.list.injEq]
    constructor
    · rintro ⟨_, bounds, rfl⟩
      exact ⟨rfl, bounds⟩
    · rintro ⟨rfl, bounds⟩
      exact ⟨(), bounds, rfl⟩
  | _ => simp [listOf, throw_ok]

theorem onlyIf_again {condition : Bool} {first second : Except Failure Unit} {result : Unit} (done : onlyIf condition first = .ok result)
    (same : condition = true → second = first) : onlyIf condition second = .ok result := by
  rw [onlyIf_ok] at done ⊢
  intro holds
  rw [same holds]
  exact done holds

theorem ReadsClips.again (reads : ReadsClips read) {write : Clip → Json}
    {sorted : List Clip} (again : ∀ value clip, read [] value = .ok clip → read [] (write clip) = .ok clip)
    (done : readAll read items = .ok clips) (same : sorted.Perm clips) : readAll read (sorted.map write) = .ok sorted := by
  refine readAll_again (reads.behind List.Pairwise.nil) ⟨fun _ member => (nomatch member), Nat.zero_le _⟩ Behind.shrink Clip.Fits.symm ?_ again done same
  intro one two same behind
  exact ⟨fun _ member => (nomatch member), same.length_eq ▸ behind.total⟩

theorem Track.keys (track : Track) : ∀ entry ∈ track.row, entry.1 ∈ TRACK_FIELDS := by
  intro entry member
  simp only [Track.row, List.mem_append, List.mem_cons, List.not_mem_nil, or_false, mem_field] at member
  rcases member with (rfl | rfl | rfl | rfl | rfl | rfl | rfl) | ⟨key, _⟩
  all_goals simp_all [TRACK_FIELDS]

theorem readTrack_again (done : readTrack frame [] value = .ok track) : readTrack frame [] track.value = .ok track := by
  simp only [readTrack, bind_ok, refuse_ok, pure_ok, show ([] : List Track).flatMap Track.clips = [] from rfl] at done ⊢
  obtain ⟨row, _, id, identified, order, placed, kind, chosen, _, fresh, _, allowed, _, kinds, role, plays, muted, silent, gainDb, gain, _, loud, items, listed,
    clips, read, _, passes, locked, locks, same⟩ := done
  subst same
  have again : readClips frame kind [] ((sortClips clips).map Clip.value) = .ok (sortClips clips) :=
    readClip_reads.again (fun _ _ => readClip_again) read (sortClips_perm clips)
  refine ⟨_, object_dict (Track.keys _) ?_, id, identity_again identified, order, integer_again placed, kind, choose_again Kind.text_injective chosen, (), fresh, (),
    allowed, (), kinds, role, choose_again Role.text_injective plays, muted, rfl, gainDb, number_again gain, (), loud, (sortClips clips).map Clip.value, ?_,
    sortClips clips, again, (), ?_, locked, ?_, ?_⟩
  · intro key member
    simp only [TRACK_REQUIRED, List.mem_cons, List.not_mem_nil, or_false] at member
    rcases member with rfl | rfl | rfl | rfl <;> rfl
  · refine listOf_ok.mpr ⟨rfl, ?_⟩
    rw [List.length_map, (sortClips_perm clips).length_eq, ← ((readClips_iff List.Pairwise.nil (Nat.zero_le _)).mp read).1.length_eq]
    exact (listOf_ok.mp listed).2
  · exact onlyIf_again passes fun _ => by rw [show sortClips (sortClips clips) = sortClips clips from sortBy_sortBy _ _]
  · have found : lookup "locked" (Track.row ⟨id, kind, order, role, muted, gainDb, sortClips clips, locked⟩) = locked.map Json.bool := by
      simp [Track.row, lookup]
    exact optional_again locks (fun _ _ _ => rfl) found
  · rw [show sortClips (sortClips clips) = sortClips clips from sortBy_sortBy _ _]

variable {chars : List Char} {duration : Int}

theorem foldLines_of_literal (none : '\r' ∉ chars) : foldLines chars = chars := by
  induction chars with
  | nil => rfl
  | cons first rest ih =>
    rw [List.mem_cons, not_or] at none
    rw [foldLines, ih none.2]
    rintro _ rfl
    exact absurd rfl none.1

theorem foldLines_length_le (chars : List Char) : (foldLines chars).length ≤ chars.length := by
  fun_induction foldLines chars with
  | case1 => exact Nat.le_refl _
  | case2 rest ih =>
    simp only [List.length_cons]
    omega
  | case3 char rest _ ih =>
    simp only [List.length_cons]
    omega

theorem foldLines_all_space (blank : (foldLines chars).all isSpace = true) : chars.all isSpace = true := by
  fun_induction foldLines chars with
  | case1 => rfl
  | case2 rest ih =>
    rw [List.all_cons, Bool.and_eq_true] at blank
    rw [List.all_cons, List.all_cons, ih blank.2]
    rfl
  | case3 char rest _ ih =>
    rw [List.all_cons, Bool.and_eq_true] at blank
    rw [List.all_cons, ih blank.2, blank.1]
    rfl

theorem isLiteral_no_return (literal : isLiteral chars = true) : '\r' ∉ chars := by
  intro member
  simp only [isLiteral, Bool.and_eq_true, Bool.not_eq_true', List.any_eq_false] at literal
  exact literal.2 '\r' member rfl

/-- How many characters some captions have. -/
def characters (captions : List Caption) : Nat := (captions.map fun caption => caption.text.toList.length).sum

theorem readCaption_iff : ReadsAs (readCaption duration) (readCaption duration []) (fun _ _ => True)
    fun captions => characters captions ≤ MAX_CAPTION_CHARACTERS := by
  intro earlier value caption _ _
  simp only [readCaption, characters, bind_ok, refuse_ok, pure_ok, decide_eq_false_iff_not, Nat.not_lt, List.map_append, List.sum_append, List.map_cons,
    List.map_nil, List.sum_cons, List.sum_nil]
  constructor
  · rintro ⟨row, closed, startMs, start, endMs, ends, raw, textual, _, short, _, literal, _, few, rfl⟩
    refine ⟨⟨row, closed, startMs, start, endMs, ends, raw, textual, (), short, (), literal, (), by omega, rfl⟩, fun _ _ => trivial, ?_⟩
    rw [String.toList_ofList]
    omega
  · rintro ⟨⟨row, closed, startMs, start, endMs, ends, raw, textual, _, short, _, literal, _, _, rfl⟩, _, few⟩
    rw [String.toList_ofList] at few
    exact ⟨row, closed, startMs, start, endMs, ends, raw, textual, (), short, (), literal, (), by omega, rfl⟩

theorem readCaption_again {caption : Caption} (done : readCaption duration [] value = .ok caption) :
    readCaption duration [] caption.value = .ok caption := by
  simp only [readCaption, bind_ok, refuse_ok, pure_ok, Bool.or_eq_false_iff, decide_eq_false_iff_not, Bool.not_eq_false'] at done ⊢
  obtain ⟨row, _, startMs, start, endMs, ends, raw, _, _, short, _, literal, _, few, rfl⟩ := done
  have folded : foldLines (String.ofList (foldLines raw.toList)).toList = foldLines raw.toList := by
    rw [String.toList_ofList, foldLines_of_literal (isLiteral_no_return literal.2)]
  refine ⟨_, object_dict (by simp [CAPTION_FIELDS]) (by simp [CAPTION_FIELDS, lookup]), startMs, integer_again start, endMs, integer_again ends,
    String.ofList (foldLines raw.toList), rfl, (), ?_, (), ?_, (), ?_, ?_⟩
  · rw [String.toList_ofList]
    constructor
    · rw [← Bool.not_eq_true]
      intro blank
      rw [foldLines_all_space blank] at short
      cases short.1
    · exact fun long => short.2 (lt_of_lt_of_le long (foldLines_length_le _))
  · rw [folded]
    exact literal
  · rw [folded]
    exact few
  · rw [folded]

theorem sortCaptions_perm (captions : List Caption) : (sortCaptions captions).Perm captions := sortBy_perm _ _

theorem characters_perm {one two : List Caption} (same : one.Perm two) : characters one = characters two := (same.map _).sum_nat

theorem characters_shrink {seen : List Caption} {caption : Caption} (few : characters (seen ++ [caption]) ≤ MAX_CAPTION_CHARACTERS) :
    characters seen ≤ MAX_CAPTION_CHARACTERS := by
  rw [characters, List.map_append, List.sum_append] at few
  exact le_trans (Nat.le_add_right _ _) few

theorem readCaptions_again {captions : List Caption} (done : readCaptions duration value = .ok captions) :
    readCaptions duration (.list (captions.map Caption.value)) = .ok captions := by
  simp only [readCaptions, bind_ok, pure_ok] at done ⊢
  obtain ⟨items, listed, read, reads, rfl⟩ := done
  refine ⟨(sortCaptions read).map Caption.value, ?_, sortCaptions read, ?_, ?_⟩
  · refine listOf_ok.mpr ⟨rfl, ?_⟩
    rw [List.length_map, (sortCaptions_perm read).length_eq, ← ((readAll_ok readCaption_iff (Nat.zero_le _) characters_shrink).mp reads).1.length_eq]
    exact (listOf_ok.mp listed).2
  · exact readAll_again readCaption_iff (Nat.zero_le _) characters_shrink (fun _ => trivial) (fun same few => characters_perm same ▸ few)
      (fun _ _ => readCaption_again) reads (sortCaptions_perm read)
  · exact sortBy_sortBy _ _

theorem HEX_DIGITS_upper : ∀ char ∈ HEX_DIGITS, char.toUpper ∈ HEX_DIGITS ∧ char.toUpper.toUpper = char.toUpper := by
  have each : HEX_DIGITS.all (fun char => decide (char.toUpper ∈ HEX_DIGITS ∧ char.toUpper.toUpper = char.toUpper)) = true := by rfl
  intro char member
  exact of_decide_eq_true (List.all_eq_true.mp each char member)

theorem isColor_upper {color : String} (right : isColor color = true) :
    isColor (String.ofList (color.toList.map Char.toUpper)) = true ∧
      (color.toList.map Char.toUpper).map Char.toUpper = color.toList.map Char.toUpper := by
  unfold isColor at right ⊢
  split at right
  · rename_i digits same
    rw [String.toList_ofList, same]
    simp only [Bool.and_eq_true, decide_eq_true_eq, List.all_eq_true] at right
    constructor
    · simp only [List.map_cons, show '#'.toUpper = '#' from rfl, List.length_map, Bool.and_eq_true, decide_eq_true_eq, List.all_eq_true, List.mem_map]
      refine ⟨right.1, ?_⟩
      rintro _ ⟨char, member, rfl⟩
      exact (HEX_DIGITS_upper char (right.2 char member)).1
    · rw [List.map_cons, List.map_cons, List.map_map]
      congr 1
      refine List.map_congr_left ?_
      intro char member
      exact (HEX_DIGITS_upper char (right.2 char member)).2
  · cases right

theorem normalizeCaptionStyle_again {style : CaptionStyle} (done : normalizeCaptionStyle value = .ok style) :
    normalizeCaptionStyle style.value = .ok style := by
  simp only [normalizeCaptionStyle, bind_ok, refuse_ok, pure_ok, Bool.not_eq_false'] at done ⊢
  obtain ⟨row, _, color, _, _, right, alignment, aligned, fontSize, sized, outlineWidth, outlined, rfl⟩ := done
  refine ⟨_, object_dict (by simp [STYLE_FIELDS]) (by simp [STYLE_FIELDS, lookup]), _, rfl, (), (isColor_upper right).1, alignment,
    choose_again Alignment.text_injective aligned, fontSize, integer_again sized, outlineWidth, integer_again outlined, ?_⟩
  rw [String.toList_ofList, (isColor_upper right).2]

variable {tracks : List Track}

structure Link.Fits (one two : Link) : Prop where
  video : one.videoClipId ≠ two.videoClipId ∧ one.videoClipId ≠ two.audioClipId
  audio : one.audioClipId ≠ two.videoClipId ∧ one.audioClipId ≠ two.audioClipId

theorem Link.Fits.symm {one two : Link} (fits : one.Fits two) : two.Fits one :=
  ⟨⟨fits.video.1.symm, fits.audio.1.symm⟩, ⟨fits.video.2.symm, fits.audio.2.symm⟩⟩

theorem readLink_iff : ReadsAs (readLink tracks) (readLink tracks []) Link.Fits fun _ => True := by
  intro earlier value link _ _
  simp only [readLink, bind_ok, refuse_ok, fetch_ok, pure_ok, Bool.or_eq_false_iff, decide_eq_false_iff_not, List.any_eq_false, Bool.or_eq_true,
    decide_eq_true_eq, not_or]
  constructor
  · rintro ⟨row, closed, video, videoNamed, audio, audioNamed, offset, bounds, _, ⟨other, fresh⟩, rest⟩
    have same : link.videoClipId = video ∧ link.audioClipId = audio := by
      obtain ⟨_, _, _, _, _, _, _, _, rfl⟩ := rest
      exact ⟨rfl, rfl⟩
    refine ⟨⟨row, closed, video, videoNamed, audio, audioNamed, offset, bounds, (), ⟨other, List.forall_mem_nil _⟩, rest⟩, ?_, trivial⟩
    intro one member
    obtain ⟨⟨⟨first, second⟩, third⟩, fourth⟩ := fresh one member
    rw [← same.1] at first second
    rw [← same.2] at third fourth
    exact ⟨⟨first, third⟩, ⟨second, fourth⟩⟩
  · rintro ⟨⟨row, closed, video, videoNamed, audio, audioNamed, offset, bounds, _, ⟨other, _⟩, rest⟩, fits, _⟩
    have same : link.videoClipId = video ∧ link.audioClipId = audio := by
      obtain ⟨_, _, _, _, _, _, _, _, rfl⟩ := rest
      exact ⟨rfl, rfl⟩
    refine ⟨row, closed, video, videoNamed, audio, audioNamed, offset, bounds, (), ⟨other, ?_⟩, rest⟩
    intro one member
    have apart := fits one member
    rw [← same.1, ← same.2]
    exact ⟨⟨⟨apart.video.1, apart.audio.1⟩, apart.video.2⟩, apart.audio.2⟩

theorem readLink_again {link : Link} (done : readLink tracks [] value = .ok link) : readLink tracks [] link.value = .ok link := by
  simp only [readLink, bind_ok, refuse_ok, fetch_ok, pure_ok] at done ⊢
  obtain ⟨row, _, video, videoNamed, audio, audioNamed, offset, bounds, _, other, videoClip, videoFound, audioClip, audioFound, _, kinds, _, moved, rfl⟩ := done
  exact ⟨_, object_dict (by simp [LINK_FIELDS]) (by simp [LINK_FIELDS, lookup]), video, identity_again videoNamed, audio, identity_again audioNamed, offset,
    integer_again bounds, (), other, videoClip, videoFound, audioClip, audioFound, (), kinds, (), moved, rfl⟩

theorem sortLinks_perm (links : List Link) : (sortLinks links).Perm links := sortBy_perm _ _

theorem normalizeClipLinks_again {links : List Link} (done : normalizeClipLinks tracks value = .ok links) :
    normalizeClipLinks tracks (.list (links.map Link.value)) = .ok links := by
  simp only [normalizeClipLinks, bind_ok, pure_ok] at done ⊢
  obtain ⟨items, listed, read, reads, rfl⟩ := done
  refine ⟨(sortLinks read).map Link.value, ?_, sortLinks read, ?_, ?_⟩
  · refine listOf_ok.mpr ⟨rfl, ?_⟩
    rw [List.length_map, (sortLinks_perm read).length_eq, ← ((readAll_ok readLink_iff trivial fun _ => trivial).mp reads).1.length_eq]
    exact (listOf_ok.mp listed).2
  · exact readAll_again readLink_iff trivial (fun _ => trivial) Link.Fits.symm (fun _ _ => trivial) (fun _ _ => readLink_again) reads (sortLinks_perm read)
  · exact sortBy_sortBy _ _

end NovelStudio.Timelines
