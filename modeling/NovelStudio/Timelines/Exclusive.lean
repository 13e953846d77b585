import Mathlib
import NovelStudio.Library.Intervals
import NovelStudio.Timelines.Reordered

/-! The clips of a video track: the pass compares neighbours only, and yet no two clips overlap but those that a transition joins. -/

namespace NovelStudio.Timelines

open Library

variable {left right clip : Clip} {clips : List Clip} {track : Track} {timeline : Timeline} {value : Json} {frame : Frame}

def Clip.length (clip : Clip) : Int := (clipDurationMs clip.segment).toOption.getD 0

def Clip.startMs (clip : Clip) : Int := clip.segment.startMs

def Clip.endMs (clip : Clip) : Int := clip.startMs + clip.length

def Clip.window (clip : Clip) : Int := (clip.transition.map Transition.durationMs).getD 0

/-- A clip is active from its start on, up to its end. -/
def Clip.ActiveAt (clip : Clip) (instant : ℝ) : Prop := clip.startMs ≤ instant ∧ instant < clip.endMs

/-- How long two clips are active together. -/
def overlapMs (left right : Clip) : Int := min left.endMs right.endMs - max left.startMs right.startMs

/-- The instants at which the transition into a clip runs, out of the clip before. -/
def incomingWindow (before clip : Clip) : Set ℝ := Set.Ico clip.startMs (clip.startMs + before.window)

/-- The instants at which the transition out of a clip runs. -/
def outgoingWindow (clip : Clip) : Set ℝ := Set.Ico (clip.endMs - clip.window) clip.endMs

theorem Clip.length_of {length : Int} (done : clipDurationMs clip.segment = .ok length) : clip.length = length := by
  rw [Clip.length, done]
  rfl

theorem Clip.window_of {transition : Transition} (some_ : clip.transition = some transition) : clip.window = transition.durationMs := by
  rw [Clip.window, some_]
  rfl

theorem Clip.window_none (none : clip.transition = none) : clip.window = 0 := by
  rw [Clip.window, none]
  rfl

theorem clipDurationMs_pos {segment : Segment} {length : Int} (done : clipDurationMs segment = .ok length) : 1 ≤ length := by
  simp only [clipDurationMs, bind_ok, refuse_ok, pure_ok, Bool.or_eq_false_iff, decide_eq_false_iff_not, not_lt] at done
  obtain ⟨_, _, _, ⟨positive, _⟩, rfl⟩ := done
  exact positive

/-- What the pass requires of two neighbours. -/
structure Joins (left right : Clip) : Prop where
  apart : left.transition = none → left.endMs ≤ right.startMs
  joined : ∀ transition, left.transition = some transition → transition.toClipId = right.id ∧ left.endMs - right.startMs = transition.durationMs
  within : left.window < left.length ∧ left.window < right.length
  disjoint : right.transition ≠ none → left.window + right.window ≤ right.length

variable {incoming : Int}

theorem videoTurn_between {next : Int} (done : videoTurn incoming left (some right) = .ok next) : next = left.window ∧
    (left.transition = none → left.endMs ≤ right.startMs) ∧
    ∀ transition, left.transition = some transition → (transition.toClipId = right.id ∧ left.endMs - right.startMs = transition.durationMs) ∧
      transition.durationMs < left.length ∧ transition.durationMs < right.length ∧ incoming + transition.durationMs ≤ left.length := by
  simp only [videoTurn, bind_ok] at done
  obtain ⟨length, lasts, rest⟩ := done
  cases out : left.transition with
  | none =>
    simp only [out, bind_ok, refuse_ok, pure_ok, decide_eq_false_iff_not, not_lt] at rest
    obtain ⟨_, apart, rfl⟩ := rest
    refine ⟨(Clip.window_none out).symm, ?_, ?_⟩
    · intro _
      rw [Clip.endMs, Clip.length_of lasts]
      exact sub_nonpos.mp apart
    · intro transition some_
      cases some_
  | some transition =>
    simp only [out, bind_ok, refuse_ok, pure_ok, Bool.or_eq_false_iff, decide_eq_false_iff_not, not_le, not_lt, ne_eq, not_not] at rest
    obtain ⟨_, ⟨⟨named, exact_⟩, shorter⟩, other, lasts', _, ⟨shorter', fits⟩, _, _, rfl⟩ := rest
    refine ⟨(Clip.window_of out).symm, ?_, ?_⟩
    · intro none
      cases none
    · rintro _ ⟨⟩
      rw [Clip.endMs, Clip.length_of lasts, Clip.length_of lasts']
      exact ⟨⟨named, exact_⟩, shorter, shorter', fits⟩

theorem videoPass_positive {rest : List Clip} (done : videoPass incoming (left :: rest) = .ok ()) : 1 ≤ left.length := by
  simp only [videoPass, videoTurn, bind_ok] at done
  obtain ⟨_, ⟨length, lasts, _⟩, _⟩ := done
  rw [Clip.length_of lasts]
  exact clipDurationMs_pos lasts

theorem videoPass_lengths (done : videoPass incoming clips = .ok ()) : ∀ clip ∈ clips, clipDurationMs clip.segment = .ok clip.length := by
  induction clips generalizing incoming with
  | nil => exact fun _ member => (nomatch member)
  | cons left rest ih =>
    simp only [videoPass, videoTurn, bind_ok] at done
    obtain ⟨next, ⟨length, lasts, _⟩, later⟩ := done
    intro clip member
    rcases List.mem_cons.mp member with rfl | behind
    · rw [Clip.length_of lasts]
      exact lasts
    · exact ih later clip behind

theorem videoTurn_last {next : Int} (done : videoTurn incoming left none = .ok next) : left.transition = none := by
  simp only [videoTurn, bind_ok] at done
  obtain ⟨_, _, rest⟩ := done
  cases out : left.transition with
  | none => rfl
  | some transition =>
    rw [out] at rest
    cases rest

/-- The pass over some clips joins all neighbours; the window that it starts with fits into the first clip. -/
theorem videoPass_joins (done : videoPass incoming clips = .ok ()) :
    clips.IsChain Joins ∧ ∀ first ∈ clips.head?, first.transition ≠ none → incoming + first.window ≤ first.length := by
  induction clips generalizing incoming with
  | nil => exact ⟨.nil, fun _ member => (nomatch member)⟩
  | cons left rest ih =>
    have whole := done
    rw [videoPass, bind_ok] at done
    obtain ⟨next, turn, later⟩ := done
    obtain ⟨chain, fits⟩ := ih later
    cases rest with
    | nil =>
      refine ⟨.singleton _, ?_⟩
      intro first member some_
      obtain rfl := Option.some.inj member
      exact absurd (videoTurn_last turn) some_
    | cons right rest =>
      obtain ⟨rfl, apart, joined⟩ := videoTurn_between turn
      have within : left.window < left.length ∧ left.window < right.length := by
        cases out : left.transition with
        | none =>
          rw [Clip.window_none out]
          exact ⟨videoPass_positive whole, videoPass_positive later⟩
        | some transition =>
          rw [Clip.window_of out]
          exact ⟨(joined transition out).2.1, (joined transition out).2.2.1⟩
      refine ⟨.cons_cons ⟨apart, fun transition out => (joined transition out).1, within, fits right rfl⟩ chain, ?_⟩
      intro first member some_
      obtain rfl := Option.some.inj member
      cases out : left.transition with
      | none => exact absurd out some_
      | some transition =>
        rw [Clip.window_of out]
        exact (joined transition out).2.2.2

theorem Joins.reach (joins : Joins left right) : left.endMs ≤ right.startMs + left.window := by
  cases out : left.transition with
  | none =>
    rw [Clip.window_none out]
    simpa using joins.apart out
  | some transition =>
    rw [Clip.window_of out]
    have := (joins.joined transition out).2
    omega

theorem Joins.overlap (joins : Joins left right) (sorted : left.startMs ≤ right.startMs) {transition : Transition} (out : left.transition = some transition) :
    transition.durationMs = overlapMs left right := by
  have exact_ := (joins.joined transition out).2
  have within := joins.within
  rw [Clip.window_of out] at within
  have ends : left.endMs ≤ right.endMs := by
    rw [Clip.endMs.eq_1 right]
    omega
  rw [overlapMs, min_eq_left ends, max_eq_right sorted, exact_]

theorem Joins.skip {middle : Clip} (first : Joins left middle) (second : Joins middle right) : left.endMs ≤ right.startMs := by
  have here := first.reach
  have there := second.reach
  have within := first.within
  rw [Clip.endMs.eq_1 middle] at there
  by_cases out : middle.transition = none
  · rw [Clip.window_none out] at there
    omega
  · have fits := first.disjoint out
    omega

theorem sortClips_sorted (clips : List Clip) : (sortClips clips).Pairwise fun left right => left.startMs ≤ right.startMs := by
  refine (sortBy_pairwise _ clips).imp ?_
  intro left right below
  exact (Prod.Lex.le_iff.mp below).elim le_of_lt fun both => both.1.le

/-- The clips of a video track that was read are in order and have lengths, and neighbours are joined. -/
theorem readTrack_joins (done : readTrack frame [] value = .ok track) (video : track.kind = .video) :
    (track.clips.Pairwise fun left right => left.startMs ≤ right.startMs) ∧ (∀ clip ∈ track.clips, clipDurationMs clip.segment = .ok clip.length) ∧
      track.clips.IsChain Joins := by
  simp only [readTrack, bind_ok, onlyIf_ok, pure_ok] at done
  obtain ⟨_, _, _, _, _, _, kind, _, _, _, _, _, _, _, _, _, _, _, _, _, _, _, _, _, clips, _, _, passes, _, _, rfl⟩ := done
  have pass := passes (decide_eq_true video)
  exact ⟨sortClips_sorted clips, videoPass_lengths pass, (videoPass_joins pass).1⟩

theorem readTimeline_track {audioOnly : Bool} (done : readTimeline audioOnly value = .ok timeline) (member : track ∈ timeline.tracks) :
    ∃ frame item, readTrack frame [] item = .ok track := by
  simp only [readTimeline, bind_ok, refuse_ok] at done
  obtain ⟨row, _, _, _, frame, _, items, _, tracks, read, rest⟩ := done
  have sorted : timeline.tracks = sortTracks tracks := by
    cases audioOnly with
    | true =>
      obtain rfl := pure_ok.mp rest
      rfl
    | false =>
      simp only [Bool.false_eq_true, ↓reduceIte, bind_ok, pure_ok] at rest
      obtain ⟨screen, _, rfl⟩ := rest
      rfl
  rw [sorted, (sortTracks_perm tracks).mem_iff] at member
  obtain ⟨item, _, here⟩ := exists_of_forall₂ ((readAll_ok readTrack_iff Bounded.nil Bounded.shrink).mp read).1 member
  exact ⟨frame, item, here⟩

theorem isChain_next {items : List Clip} (chain : items.IsChain Joins) {index : ℕ} (here : items[index]? = some left)
    (there : items[index + 1]? = some right) : Joins left right := by
  obtain ⟨within, rfl⟩ := List.getElem?_eq_some_iff.mp there
  obtain ⟨_, rfl⟩ := List.getElem?_eq_some_iff.mp here
  exact List.isChain_iff_getElem.mp chain index within

theorem staggered_of_joins (sorted : clips.Pairwise fun left right => left.startMs ≤ right.startMs) (chain : clips.IsChain Joins) :
    Staggered (fun clip : Clip => (clip.startMs : ℝ)) (fun clip => (clip.endMs : ℝ)) clips := by
  constructor
  · exact sorted.imp fun below => by exact_mod_cast below
  · intro index left right here there
    obtain ⟨within, _⟩ := List.getElem?_eq_some_iff.mp there
    have between : clips[index + 1]? = some clips[index + 1] := List.getElem?_eq_getElem (by omega)
    exact_mod_cast (isChain_next chain here between).skip (isChain_next chain between there)

open Classical in
/-- At every instant at most two clips of a track are active; two that overlap are neighbours, and a transition from the one names the other
and lasts as long as they overlap; the windows of the transitions into and out of a clip are disjoint. -/
structure Track.Exclusive (track : Track) : Prop where
  lengths : ∀ clip ∈ track.clips, clipDurationMs clip.segment = .ok clip.length
  sorted : track.clips.Pairwise fun left right => left.startMs ≤ right.startMs
  active : ∀ instant : ℝ, (track.clips.filter fun clip => clip.ActiveAt instant).length ≤ 2
  consecutive : ∀ index later left right, index < later → track.clips[index]? = some left → track.clips[later]? = some right →
    (∃ instant, left.ActiveAt instant ∧ right.ActiveAt instant) → later = index + 1 ∧
      ∃ transition, left.transition = some transition ∧ transition.toClipId = right.id ∧ transition.durationMs = overlapMs left right
  windows : ∀ index before clip, track.clips[index]? = some before → track.clips[index + 1]? = some clip →
    Disjoint (incomingWindow before clip) (outgoingWindow clip)

theorem Joins.windows (joins : Joins left right) : Disjoint (incomingWindow left right) (outgoingWindow right) := by
  rw [Set.disjoint_left]
  intro instant incoming outgoing
  have fits : left.window + right.window ≤ right.length := by
    by_cases out : right.transition = none
    · rw [Clip.window_none out]
      simpa using joins.within.2.le
    · exact joins.disjoint out
  have fits : (left.window : ℝ) + right.window ≤ right.length := by exact_mod_cast fits
  have ends : (right.endMs : ℝ) = right.startMs + right.length := by
    rw [Clip.endMs]
    push_cast
    rfl
  have below := incoming.2
  have above := outgoing.1
  linarith

/-- The video tracks of an accepted timeline are exclusive. -/
theorem normalizeTimelineV2_exclusive {result : Json} (done : normalizeTimelineV2 false value = .ok result) :
    ∃ timeline, readTimeline false value = .ok timeline ∧ result = timeline.value ∧ ∀ track ∈ timeline.tracks, track.kind = .video → track.Exclusive := by
  obtain ⟨timeline, read, rfl⟩ := normalizeTimelineV2_ok.mp done
  refine ⟨timeline, read, rfl, ?_⟩
  intro track member video
  obtain ⟨frame, item, here⟩ := readTimeline_track read member
  obtain ⟨sorted, lengths, chain⟩ := readTrack_joins here video
  have staggered := staggered_of_joins sorted chain
  refine ⟨lengths, sorted, ?_, ?_, ?_⟩
  · classical exact fun instant => staggered.active_le_two fun _ active => active
  · rintro index later left right before here there ⟨instant, first, second⟩
    have overlap : (right.startMs : ℝ) < left.endMs := second.1.trans_lt first.2
    obtain rfl := staggered.consecutive before here there overlap
    have joins := isChain_next chain here there
    refine ⟨rfl, ?_⟩
    cases out : left.transition with
    | none =>
      have apart : (left.endMs : ℝ) ≤ right.startMs := by exact_mod_cast joins.apart out
      exact absurd overlap (not_lt.mpr apart)
    | some transition =>
      have ordered : left.startMs ≤ right.startMs := by
        obtain ⟨within, rfl⟩ := List.getElem?_eq_some_iff.mp there
        obtain ⟨_, rfl⟩ := List.getElem?_eq_some_iff.mp here
        exact List.pairwise_iff_getElem.mp sorted _ _ _ within before
      exact ⟨transition, rfl, (joins.joined transition out).1, joins.overlap ordered out⟩
  · exact fun index before clip here there => (isChain_next chain here there).windows

/-- A film of two clips, the first of which dissolves into the second. -/
def dissolve : Json :=
  filmOf [trackOf "VIDEO" 0 [.dict [("id", .str "opening"), ("source_snapshot", snapshotOf "video"), ("start_ms", .int 0), ("in_ms", .int 0), ("out_ms", .int 1000),
    ("transition_out", .dict [("kind", .str "CROSS_DISSOLVE"), ("to_clip_id", .str "ending"), ("duration_ms", .int 500)])], clipOf "ending" "video" 500]]

theorem normalizeTimelineV2_exclusive_dissolve :
    ∃ timeline : Timeline, normalizeTimelineV2 false dissolve = .ok timeline.value ∧ ∃ track ∈ timeline.tracks, track.clips.length = 2 ∧ track.Exclusive := by
  have accepted : ((readTimeline false dissolve).toOption.any fun timeline =>
      timeline.tracks.any fun track => track.kind = .video && track.clips.length = 2) = true := by decide +kernel
  cases read : readTimeline false dissolve with
  | error failure =>
    rw [read] at accepted
    cases accepted
  | ok timeline =>
    have done : normalizeTimelineV2 false dissolve = .ok timeline.value := normalizeTimelineV2_ok.mpr ⟨timeline, read, rfl⟩
    obtain ⟨same, again, _, exclusive⟩ := normalizeTimelineV2_exclusive done
    obtain rfl := Except.ok.inj (read.symm.trans again)
    rw [read] at accepted
    obtain ⟨track, member, video⟩ := List.any_eq_true.mp accepted
    rw [Bool.and_eq_true, decide_eq_true_eq, decide_eq_true_eq] at video
    exact ⟨timeline, done, track, member, video.2, exclusive track member video.1⟩

end NovelStudio.Timelines
