import NovelStudio.Timelines.Reordered
import NovelStudio.Timelines.Subtitles

/-! The subtitles of a normalized timeline are read back from either format, into the same timeline. -/

namespace NovelStudio.Timelines

open Library

variable {value result : Json} {duration : Int} {entities : Entities}

/-- A caption of literal text, at times within the longest duration. -/
structure Caption.Plain (caption : Caption) : Prop where
  starts : 0 ≤ caption.startMs
  ends : caption.startMs < caption.endMs
  within : caption.endMs ≤ MAX_DURATION_MS
  literal : isLiteral caption.text.toList = true

structure Captioned (captions : List Caption) : Prop where
  plain : ∀ caption ∈ captions, caption.Plain
  few : captions.length ≤ 500
  short : characters captions ≤ MAX_CAPTION_CHARACTERS

variable {caption : Caption}

theorem readCaption_plain (bounded : duration ≤ MAX_DURATION_MS) (done : readCaption duration [] value = .ok caption) :
    caption.Plain := by
  simp only [readCaption, bind_ok, refuse_ok, pure_ok, Bool.or_eq_false_iff, decide_eq_false_iff_not, Bool.not_eq_false', integer_ok] at done
  obtain ⟨row, _, startMs, ⟨_, starts, _⟩, endMs, ⟨_, _, ends⟩, raw, _, _, _, _, ⟨positive, literal⟩, _, _, rfl⟩ := done
  refine ⟨starts, by simpa using positive, le_trans ends bounded, ?_⟩
  rw [String.toList_ofList]
  exact literal

variable {captions : List Caption}

theorem readCaptions_captioned (bounded : duration ≤ MAX_DURATION_MS) (done : readCaptions duration value = .ok captions) :
    Captioned captions := by
  simp only [readCaptions, bind_ok, pure_ok] at done
  obtain ⟨items, listed, read, reads, rfl⟩ := done
  obtain ⟨each, _, short⟩ := (readAll_ok readCaption_iff (Nat.zero_le _) characters_shrink).mp reads
  have order := sortCaptions_perm read
  refine ⟨?_, ?_, ?_⟩
  · intro caption member
    obtain ⟨item, _, alone⟩ := exists_of_forall₂ each (order.mem_iff.mp member)
    exact readCaption_plain bounded alone
  · rw [order.length_eq, ← each.length_eq]
    exact (listOf_ok.mp listed).2.2
  · rw [characters_perm order]
    exact short

theorem readFrame_bounded {audioOnly : Bool} {row : Row} {frame : Frame} (done : readFrame audioOnly row = .ok frame) : frame.duration ≤ MAX_DURATION_MS := by
  simp only [readFrame, bind_ok, pure_ok, integer_ok] at done
  obtain ⟨durationMs, ⟨_, _, bounded⟩, _, _, _, _, _, _, _, _, rfl⟩ := done
  exact bounded

theorem map_captionOf (captions : List Caption) : (captions.map Caption.value).map captionOf = captions := by
  rw [List.map_map]
  exact List.map_id _

theorem normalized_captions (done : normalizeStudioTimeline value = .ok result) (found : captionsOf result = some captions) :
    Captioned captions ∧ ∃ row, result = .dict row ∧ lookup "captions" row = some (.list (captions.map Caption.value)) := by
  unfold normalizeStudioTimeline at done
  split at done
  · obtain ⟨timeline, read, rfl⟩ := normalizeTimelineV2_ok.mp done
    cases shown : timeline.screen with
    | none =>
      rw [Timeline.value, shown] at found
      cases found
    | some screen =>
      have row : lookup "captions" (screen.row timeline.durationMs timeline.tracks) = some (.list (screen.captions.map Caption.value)) := by
        simp [Screen.row, lookup]
      rw [Timeline.value, shown] at found ⊢
      simp only [captionsOf, Json.get?, row, Option.some.injEq, map_captionOf] at found
      subst found
      refine ⟨?_, _, rfl, row⟩
      simp only [readTimeline, bind_ok, refuse_ok] at read
      obtain ⟨_, _, _, _, frame, framed, _, _, tracks, _, rest⟩ := read
      split at rest
      · obtain rfl := pure_ok.mp rest
        cases shown
      · simp only [bind_ok, pure_ok] at rest
        obtain ⟨read, screened, rfl⟩ := rest
        cases shown
        simp only [readScreen, bind_ok, pure_ok] at screened
        obtain ⟨_, _, captions, captioned, _, _, _, _, rfl⟩ := screened
        exact readCaptions_captioned (readFrame_bounded framed) captioned
  · cases read : readLegacyTimeline value with
    | error failure =>
      rw [read] at done
      cases done
    | ok timeline =>
      rw [read] at done
      obtain rfl := Except.ok.inj done
      have row : lookup "captions" [("duration_ms", .int timeline.frame.duration), ("width", .int timeline.frame.width), ("height", .int timeline.frame.height),
          ("fps", .int timeline.frame.fps), ("tracks", .list (timeline.tracks.map Track.legacyValue)),
          ("captions", .list (timeline.captions.map Caption.value))] = some (.list (timeline.captions.map Caption.value)) := rfl
      rw [LegacyTimeline.value] at found ⊢
      simp only [captionsOf, Json.get?, row, Option.some.injEq, map_captionOf] at found
      subst found
      refine ⟨?_, _, rfl, row⟩
      simp only [readLegacyTimeline, bind_ok, refuse_ok, pure_ok] at read
      obtain ⟨_, _, frame, framed, _, _, _, _, _, _, captions, captioned, rfl⟩ := read
      exact readCaptions_captioned (readFrame_bounded framed) captioned

theorem store_found {fields : Row} {key : String} {stored : Json} (found : lookup key fields = some stored) : store key stored fields = fields := by
  induction fields with
  | nil => cases found
  | cons field rest ih =>
    obtain ⟨name, old⟩ := field
    rw [lookup] at found
    rw [store]
    split at found
    · rename_i same
      cases found
      rw [if_pos same, same]
    · rename_i different
      rw [if_neg different, ih found]

def Lined (lines : List (List Char)) : Prop := lines ≠ [] ∧ ∀ line ∈ lines, line ≠ [] ∧ '\n' ∉ line

variable {text : List Char}

theorem lined_literal (literal : isLiteral text = true) : Lined (text.splitOn '\n') := by
  simp only [isLiteral, Bool.and_eq_true, List.all_eq_true] at literal
  refine ⟨List.splitOn_ne_nil _ _, ?_⟩
  intro line member
  constructor
  · rintro rfl
    exact absurd (literal.1.2 [] member) (by decide)
  · intro feed
    exact not_mem_splitOn text line member feed

theorem escapeAmpersands_append (one two : List Char) : escapeAmpersands (one ++ two) = escapeAmpersands one ++ escapeAmpersands two :=
  List.flatMap_append

theorem Format.write_intercalate (format : Format) (lines : List (List Char)) :
    format.write (['\n'].intercalate lines) = ['\n'].intercalate (lines.map format.write) := by
  cases format with
  | srt =>
    change _ = ['\n'].intercalate (lines.map fun line => line)
    rw [List.map_id']
    rfl
  | vtt =>
    change escapeAmpersands _ = ['\n'].intercalate (lines.map escapeAmpersands)
    induction lines with
    | nil => rfl
    | cons line rest ih =>
      cases rest with
      | nil => rw [List.map_cons, List.map_nil, List.intercalate_singleton, List.intercalate_singleton]
      | cons next rest =>
        rw [List.intercalate_cons_cons, escapeAmpersands_append, escapeAmpersands_append, ih]
        simp only [List.map_cons, List.intercalate_cons_cons]
        rfl

theorem mem_write {format : Format} (member : char ∈ format.write text) : char ∈ text ∨ char ∈ ['&', 'a', 'm', 'p', ';'] := by
  cases format with
  | srt => exact .inl member
  | vtt =>
    obtain ⟨other, there, here⟩ := List.mem_flatMap.mp member
    split at here
    · exact .inr here
    · rw [List.mem_singleton.mp here]
      exact .inl there

theorem Format.write_ne_nil (format : Format) (some' : text ≠ []) : format.write text ≠ [] := by
  cases format with
  | srt => exact some'
  | vtt =>
    cases text with
    | nil => exact absurd rfl some'
    | cons char text =>
      change (if char = '&' then ['&', 'a', 'm', 'p', ';'] else [char]) ++ escapeAmpersands text ≠ []
      split <;> simp

theorem Format.read_write (format : Format) (text : List Char) : format.read entities (format.write text) = text := by
  cases format with
  | srt => rfl
  | vtt => exact decodeVttText_escape text

theorem lined_write (format : Format) {lines : List (List Char)} (lined : Lined lines) : Lined (lines.map format.write) := by
  refine ⟨by simpa using lined.1, ?_⟩
  intro line member
  obtain ⟨original, there, rfl⟩ := List.mem_map.mp member
  obtain ⟨some', plain⟩ := lined.2 original there
  refine ⟨format.write_ne_nil some', ?_⟩
  intro feed
  rcases mem_write feed with here | other
  · exact plain here
  · exact absurd other (by decide)

/-- The lines of the text of a caption, as they are written. -/
def textLines (format : Format) (caption : Caption) : List (List Char) := (caption.text.toList.splitOn '\n').map format.write

theorem write_text (format : Format) (caption : Caption) : format.write caption.text.toList = ['\n'].intercalate (textLines format caption) := by
  rw [textLines, ← Format.write_intercalate, List.intercalate_splitOn]

/-- All lines of a block: its number, its times and its text. -/
def blockLines (format : Format) (index : Nat) (caption : Caption) : List (List Char) :=
  Nat.toDigits 10 index :: timing format.separator caption.startMs.toNat caption.endMs.toNat :: textLines format caption

theorem cueBlock_eq (format : Format) (index : Nat) (plain : caption.Plain) :
    cueBlock format index caption = ['\n'].intercalate (blockLines format index caption) := by
  have lined := lined_write format (lined_literal plain.literal)
  rw [cueBlock, write_text, blockLines]
  cases lines : textLines format caption with
  | nil => exact absurd lines lined.1
  | cons line rest => simp [List.intercalate_cons_cons]

theorem mem_timing {separator : Char} {start finish : Nat} (member : char ∈ timing separator start finish) :
    isNumeral char = true ∨ char ∈ [separator, ':', ' ', '-', '>'] := by
  have stamped (milliseconds : Nat) (here : char ∈ stamp separator milliseconds) : isNumeral char = true ∨ char ∈ [separator, ':', ' ', '-', '>'] := by
    simp only [stamp, List.mem_append, List.mem_cons] at here
    rcases here with ((digit | rfl | digit) | rfl | digit) | rfl | digit
    · exact .inl (isNumeral_zeroPadded _ _ _ digit)
    · exact .inr (by simp)
    · exact .inl (isNumeral_zeroPadded _ _ _ digit)
    · exact .inr (by simp)
    · exact .inl (isNumeral_zeroPadded _ _ _ digit)
    · exact .inr (by simp)
    · exact .inl (isNumeral_zeroPadded _ _ _ digit)
  rcases List.mem_append.mp member with front | back
  · rcases List.mem_append.mp front with first | arrow
    · exact stamped start first
    · right
      simp only [List.mem_cons, List.not_mem_nil, or_false] at arrow ⊢
      tauto
  · exact stamped finish back

theorem lined_block (format : Format) (index : Nat) (plain : caption.Plain) : Lined (blockLines format index caption) := by
  have lined := lined_write format (lined_literal plain.literal)
  refine ⟨List.cons_ne_nil _ _, ?_⟩
  intro line member
  rcases List.mem_cons.mp member with rfl | member
  · exact ⟨Nat.toDigits_ne_nil, fun feed => absurd (isNumeral_toDigits index _ feed) (by decide)⟩
  · rcases List.mem_cons.mp member with rfl | member
    · refine ⟨by simp [timing], ?_⟩
      intro feed
      rcases mem_timing feed with digit | other
      · exact absurd digit (by decide)
      · cases format <;> exact absurd other (by decide)
    · exact lined.2 line member

theorem cueBlock_single (format : Format) (index : Nat) (plain : caption.Plain) :
    Single '\n' (cueBlock format index caption) ∧ (cueBlock format index caption).head? ≠ some '\n' ∧
      (cueBlock format index caption).getLast? ≠ some '\n' := by
  rw [cueBlock_eq format index plain]
  exact single_intercalate (lined_block format index plain).2

theorem cueBlock_ne_nil (format : Format) (index : Nat) (caption : Caption) : cueBlock format index caption ≠ [] := by
  simp [cueBlock]

theorem readTiming_digits (rule : StampRule) {digits : List Char} (each : ∀ char ∈ digits, isNumeral char = true) : readTiming rule digits = none := by
  have left : digits.dropWhile isDecimal = [] := List.dropWhile_eq_nil_iff.mpr fun char member => isDecimal_numeral (each char member)
  have stopped : readStamp rule digits = none := by
    rw [readStamp, left]
    simp [guard, failure]
  rw [readTiming, stopped]
  rfl

theorem Format.takes (format : Format) {milliseconds : Nat} (bounded : milliseconds ≤ MAX_DURATION_MS.toNat) :
    format.rule.Takes format.separator milliseconds where
  hours := by
    have none : milliseconds / 3600000 = 0 := by
      unfold MAX_DURATION_MS at bounded
      omega
    rw [none]
    rfl
  tens digit small := by
    have low : (decide ('0' ≤ digit.digitChar) && decide (digit.digitChar ≤ '5')) = true := by interval_cases digit <;> decide
    exact low
  separator := List.mem_singleton.mpr rfl

theorem readCue_cueBlock (format : Format) (index : Nat) (plain : caption.Plain) :
    readCue entities format index (cueBlock format index caption) = .ok caption := by
  have lined := lined_write format (lined_literal plain.literal)
  have lines : (cueBlock format index caption).splitOn '\n' = blockLines format index caption := by
    rw [cueBlock_eq format index plain]
    exact List.splitOn_intercalate '\n' (fun line member => ((lined_block format index plain).2 line member).2) (List.cons_ne_nil _ _)
  have numbered : cueLines format index (blockLines format index caption) = .ok (blockLines format index caption).tail := by
    have bare : (readTiming format.rule ((blockLines format index caption).headD [])).isSome = false := by
      rw [blockLines, List.headD_cons, readTiming_digits _ (isNumeral_toDigits index)]
      rfl
    have three : 1 ≤ (textLines format caption).length := List.length_pos_of_ne_nil lined.1
    rw [cueLines, bare, Bool.and_false, if_neg Bool.false_ne_true]
    simp only [bind_ok, refuse_ok, pure_ok, Bool.or_eq_false_iff, decide_eq_false_iff_not]
    exact ⟨(), ⟨by simp [blockLines]; omega, by simp [blockLines]⟩, trivial⟩
  have later : caption.startMs.toNat ≤ MAX_DURATION_MS.toNat ∧ caption.endMs.toNat ≤ MAX_DURATION_MS.toNat := by
    have ends := plain.ends
    have within := plain.within
    omega
  have timed : readTiming format.rule (timing format.separator caption.startMs.toNat caption.endMs.toNat) =
      some (caption.startMs.toNat, caption.endMs.toNat) := readTiming_timing (format.takes later.1) (format.takes later.2)
  have more : decide ((blockLines format index caption).tail.length ≤ 1) = false := by
    have three : 1 ≤ (textLines format caption).length := List.length_pos_of_ne_nil lined.1
    rw [decide_eq_false_iff_not, blockLines, List.tail_cons, List.length_cons]
    omega
  have text : String.ofList (format.read entities (['\n'].intercalate (textLines format caption))) = caption.text := by
    rw [← write_text, Format.read_write, String.ofList_toList]
  have starts := plain.starts
  have ends := plain.ends
  rw [readCue, lines, numbered]
  simp only [bind_ok, fetch_ok, refuse_ok, pure_ok, Except.ok.injEq]
  refine ⟨_, rfl, _, timed, (), more, ?_⟩
  simp only [blockLines, List.tail_cons, text]
  rw [Int.toNat_of_nonneg starts, Int.toNat_of_nonneg (by omega)]

theorem readCues_cueTexts (format : Format) (index : Nat) (plain : ∀ caption ∈ captions, caption.Plain) :
    readCues entities format index (cueTexts format index captions) = .ok captions := by
  induction captions generalizing index with
  | nil => rfl
  | cons caption rest ih =>
    simp only [cueTexts, readCues, bind_ok, pure_ok]
    exact ⟨caption, readCue_cueBlock format index (plain caption (List.mem_cons_self ..)), rest,
      ih (index + 1) fun other member => plain other (List.mem_cons_of_mem _ member), rfl⟩

theorem mem_cueTexts {format : Format} {index : Nat} (member : block ∈ cueTexts format index captions) :
    ∃ place, ∃ caption ∈ captions, block = cueBlock format place caption ∧ place < index + captions.length := by
  induction captions generalizing index with
  | nil => cases member
  | cons caption rest ih =>
    rcases List.mem_cons.mp member with rfl | later
    · exact ⟨index, caption, List.mem_cons_self .., rfl, by simp⟩
    · obtain ⟨place, other, there, same, below⟩ := ih later
      refine ⟨place, other, List.mem_cons_of_mem _ there, same, ?_⟩
      rw [List.length_cons]
      omega

theorem cueBlocks_written (format : Format) (plain : ∀ caption ∈ captions, caption.Plain) (some' : captions ≠ []) :
    cueBlocks (['\n', '\n'].intercalate (cueTexts format 1 captions) ++ ['\n']) = cueTexts format 1 captions := by
  have each : ∀ block ∈ cueTexts format 1 captions, Single '\n' block ∧ block.head? ≠ some '\n' ∧ block.getLast? ≠ some '\n' ∧ block ≠ [] := by
    intro block member
    obtain ⟨place, caption, there, rfl, _⟩ := mem_cueTexts member
    obtain ⟨single, head, last⟩ := cueBlock_single format place (plain caption there)
    exact ⟨single, head, last, cueBlock_ne_nil format place caption⟩
  obtain ⟨first, rest, blocks⟩ : ∃ first rest, cueTexts format 1 captions = first :: rest := by
    cases captions with
    | nil => exact absurd rfl some'
    | cons caption captions => exact ⟨_, _, rfl⟩
  obtain ⟨final, last⟩ : ∃ final, (cueTexts format 1 captions).getLast? = some final :=
    Option.isSome_iff_exists.mp (by rw [blocks]; simp)
  have opens := each first (by rw [blocks]; exact List.mem_cons_self ..)
  have closes := each final (List.mem_of_getLast? last)
  have head : (['\n', '\n'].intercalate (cueTexts format 1 captions)).head? = first.head? := by
    rw [blocks]
    exact head?_intercalate opens.2.2.2 rest
  have tail : (['\n', '\n'].intercalate (cueTexts format 1 captions)).getLast? = final.getLast? := getLast?_intercalate last closes.2.2.2
  have nonempty : ['\n', '\n'].intercalate (cueTexts format 1 captions) ≠ [] := by
    intro none
    rw [none] at head
    exact opens.2.2.2 (List.head?_eq_none_iff.mp head.symm)
  have inner : stripBy (fun char => decide (char = '\n')) (['\n', '\n'].intercalate (cueTexts format 1 captions) ++ ['\n']) =
      ['\n', '\n'].intercalate (cueTexts format 1 captions) := by
    apply stripBy_append
    · intro item same
      rw [head] at same
      rw [decide_eq_false_iff_not]
      rintro rfl
      exact opens.2.1 same
    · intro item same
      rw [tail] at same
      rw [decide_eq_false_iff_not]
      rintro rfl
      exact closes.2.2.1 same
    · intro item member
      rw [List.mem_singleton.mp member]
      rfl
    · exact nonempty
  unfold cueBlocks
  simp only [inner, if_neg nonempty]
  exact splitDouble_intercalate (by rw [blocks]; exact List.cons_ne_nil _ _) fun block member => ⟨(each block member).1, (each block member).2.2.1⟩

theorem write_bytes (format : Format) (text : List Char) : utf8Bytes (format.write text) ≤ 5 * text.length := by
  cases format with
  | srt =>
    change utf8Bytes text ≤ _
    induction text with
    | nil => exact Nat.le_refl _
    | cons char text ih =>
      have four := Char.utf8Size_le_four char
      rw [utf8Bytes_cons, List.length_cons]
      omega
  | vtt =>
    change utf8Bytes (escapeAmpersands text) ≤ _
    induction text with
    | nil => exact Nat.le_refl _
    | cons char text ih =>
      have here : utf8Bytes (if char = '&' then ['&', 'a', 'm', 'p', ';'] else [char]) ≤ 5 := by
        split
        · decide
        · exact Nat.le_succ_of_le (Char.utf8Size_le_four char)
      have shape : escapeAmpersands (char :: text) = (if char = '&' then ['&', 'a', 'm', 'p', ';'] else [char]) ++ escapeAmpersands text := rfl
      rw [shape, utf8Bytes_append, List.length_cons]
      omega

theorem numeral_ascii (numeral : isNumeral char = true) : char.toNat < 128 := Nat.lt_of_le_of_lt (isNumeral_range numeral).2 (by decide)

theorem stamp_length (separator : Char) {milliseconds : Nat} (bounded : milliseconds ≤ MAX_DURATION_MS.toNat) :
    (stamp separator milliseconds).length = 12 := by
  obtain ⟨minutes, seconds, millis, _, _, _, _, written⟩ := stamp_parts separator milliseconds
  have none : milliseconds / 3600000 = 0 := by
    unfold MAX_DURATION_MS at bounded
    omega
  rw [written, none]
  rfl

theorem cueBlock_bytes (format : Format) (plain : caption.Plain) (few : index < 1000) :
    utf8Bytes (cueBlock format index caption) ≤ 34 + 5 * caption.text.toList.length := by
  have starts := plain.starts
  have ends := plain.ends
  have within := plain.within
  have numbers : utf8Bytes (Nat.toDigits 10 index) ≤ 3 := by
    rw [utf8Bytes_ascii fun char member => numeral_ascii (isNumeral_toDigits index char member)]
    exact (Nat.length_toDigits_le_iff (by decide) (by decide)).mpr few
  have times : utf8Bytes (timing format.separator caption.startMs.toNat caption.endMs.toNat) = 29 := by
    have ascii : ∀ char ∈ timing format.separator caption.startMs.toNat caption.endMs.toNat, char.toNat < 128 := by
      intro char member
      rcases mem_timing member with digit | other
      · exact numeral_ascii digit
      · simp only [List.mem_cons, List.not_mem_nil, or_false] at other
        rcases other with rfl | rfl | rfl | rfl | rfl
        · cases format <;> decide
        all_goals decide
    rw [utf8Bytes_ascii ascii, timing, List.length_append, List.length_append, stamp_length _ (by omega), stamp_length _ (by omega)]
    rfl
  have text := write_bytes format caption.text.toList
  have feed : '\n'.utf8Size = 1 := by decide
  rw [cueBlock, utf8Bytes_append, utf8Bytes_append, utf8Bytes_cons, utf8Bytes_cons, times, feed]
  omega

theorem intercalate_bytes (separator : List Char) (parts : List (List Char)) :
    utf8Bytes (separator.intercalate parts) ≤ (parts.map fun part => utf8Bytes part + utf8Bytes separator).sum := by
  induction parts with
  | nil => exact Nat.le_refl _
  | cons part rest ih =>
    cases rest with
    | nil =>
      rw [List.intercalate_singleton, List.map_cons, List.map_nil, List.sum_cons, List.sum_nil]
      omega
    | cons next rest =>
      rw [List.intercalate_cons_cons, utf8Bytes_append, utf8Bytes_append, List.map_cons, List.sum_cons]
      omega

theorem cueTexts_bytes (format : Format) (plain : ∀ caption ∈ captions, caption.Plain) (few : index + captions.length ≤ 1000) :
    ((cueTexts format index captions).map fun block => utf8Bytes block + 2).sum ≤ 36 * captions.length + 5 * characters captions := by
  induction captions generalizing index with
  | nil => exact Nat.le_refl _
  | cons caption rest ih =>
    rw [List.length_cons] at few
    have here := cueBlock_bytes format (plain caption (List.mem_cons_self ..)) (show index < 1000 by omega)
    have later := ih (fun other member => plain other (List.mem_cons_of_mem _ member)) (show index + 1 + rest.length ≤ 1000 by omega)
    have total : characters (caption :: rest) = caption.text.toList.length + characters rest := by
      rw [characters, List.map_cons, List.sum_cons]
      rfl
    rw [cueTexts, List.map_cons, List.sum_cons, List.length_cons, total]
    omega

theorem sidecar_bytes (format : Format) (captioned : Captioned captions) :
    utf8Bytes (sidecar format captions) ≤ MAX_SIDECAR_BYTES := by
  have few := captioned.few
  have short := captioned.short
  have blocks : ((cueTexts format 1 captions).map fun block => utf8Bytes block + 2).sum ≤ 36 * captions.length + 5 * characters captions :=
    cueTexts_bytes format captioned.plain (by omega)
  have joined := intercalate_bytes ['\n', '\n'] (cueTexts format 1 captions)
  have pair : utf8Bytes ['\n', '\n'] = 2 := by decide
  have header : utf8Bytes format.header ≤ 8 := by cases format <;> decide
  have last : utf8Bytes (if captions.isEmpty then [] else ['\n']) ≤ 1 := by split <;> decide
  rw [pair] at joined
  rw [sidecar, utf8Bytes_append, utf8Bytes_append]
  unfold MAX_CAPTION_CHARACTERS at short
  unfold MAX_SIDECAR_BYTES
  omega

theorem sidecar_no_return (format : Format) (plain : ∀ caption ∈ captions, caption.Plain) : '\r' ∉ sidecar format captions := by
  intro member
  simp only [sidecar, List.mem_append] at member
  rcases member with (header | joined) | last
  · cases format <;> exact absurd header (by decide)
  · rcases mem_intercalate joined with between | ⟨block, there, here⟩
    · exact absurd between (by decide)
    · obtain ⟨place, caption, written, rfl, _⟩ := mem_cueTexts there
      simp only [cueBlock, List.mem_append, List.mem_cons] at here
      rcases here with (digit | feed | time) | feed | text
      · exact absurd (isNumeral_toDigits place _ digit) (by decide)
      · exact absurd feed (by decide)
      · rcases mem_timing time with digit | other
        · exact absurd digit (by decide)
        · cases format <;> exact absurd other (by decide)
      · exact absurd feed (by decide)
      · rcases mem_write text with here | other
        · exact isLiteral_no_return (plain caption written).literal here
        · exact absurd other (by decide)
  · split at last
    · cases last
    · exact absurd last (by decide)

theorem sidecar_head (format : Format) (some' : captions ≠ []) : (sidecar format captions).head? ≠ some '\uFEFF' := by
  cases captions with
  | nil => exact absurd rfl some'
  | cons caption rest =>
    have first : (['\n', '\n'].intercalate (cueTexts format 1 (caption :: rest))).head? = some '1' := by
      rw [cueTexts, head?_intercalate (cueBlock_ne_nil format 1 caption)]
      rfl
    cases format with
    | srt =>
      have nonempty : ['\n', '\n'].intercalate (cueTexts .srt 1 (caption :: rest)) ≠ [] := by
        intro none
        rw [none] at first
        cases first
      rw [sidecar, Format.header, List.nil_append, List.head?_append_of_ne_nil _ nonempty, first]
      decide
    | vtt =>
      rw [sidecar, Format.header, List.append_assoc, List.cons_append, List.head?_cons]
      decide

theorem formatNamed_name (format : Format) : formatNamed format.name = .ok format := by cases format <;> rfl

theorem parseSubtitleCues_sidecar (format : Format) (captioned : Captioned captions) (some' : captions ≠ []) :
    parseSubtitleCues entities (String.ofList (sidecar format captions)) format.name = .ok captions := by
  have unmarked : removeMark (sidecar format captions) = sidecar format captions := if_neg (sidecar_head format some')
  have folded : foldLines (sidecar format captions) = sidecar format captions := foldLines_of_literal (sidecar_no_return format captioned.plain)
  have filled : (if captions.isEmpty then [] else ['\n']) = ['\n'] := if_neg (by simpa using some')
  have body : dropHeader format (sidecar format captions) = .ok (['\n', '\n'].intercalate (cueTexts format 1 captions) ++ ['\n']) := by
    have shape : sidecar format captions = format.header ++ (['\n', '\n'].intercalate (cueTexts format 1 captions) ++ ['\n']) := by
      rw [sidecar, filled, List.append_assoc]
    have begins : format.header.isPrefixOf (format.header ++ (['\n', '\n'].intercalate (cueTexts format 1 captions) ++ ['\n'])) = true :=
      List.isPrefixOf_iff_prefix.mpr (List.prefix_append _ _)
    rw [shape]
    rw [dropHeader, begins]
    simp only [bind_ok, refuse_ok, pure_ok, Bool.not_true, true_and, exists_const, List.drop_left]
  have count : (cueTexts format 1 captions).length = captions.length := by
    have general : ∀ (captions : List Caption) (index : Nat), (cueTexts format index captions).length = captions.length := by
      intro captions
      induction captions with
      | nil => exact fun _ => rfl
      | cons caption rest ih => exact fun index => congrArg Nat.succ (ih (index + 1))
    exact general captions 1
  have positive : 1 ≤ captions.length := List.length_pos_of_ne_nil some'
  have few := captioned.few
  have dropped : dropHeader format (foldLines (removeMark (String.ofList (sidecar format captions)).toList)) =
      .ok (['\n', '\n'].intercalate (cueTexts format 1 captions) ++ ['\n']) := by
    rw [String.toList_ofList, unmarked, folded]
    exact body
  simp only [parseSubtitleCues, bind_ok, refuse_ok, formatNamed_name, Except.ok.injEq]
  refine ⟨format, rfl, (), ?_, (), ?_, _, dropped, (), ?_, ?_⟩
  · rw [utf8ByteSize_ofList, decide_eq_false_iff_not]
    exact Nat.not_lt.mpr (sidecar_bytes format captioned)
  · rw [String.toList_ofList, unmarked, folded, decide_eq_false_iff_not]
    exact sidecar_no_return format captioned.plain
  · rw [cueBlocks_written format captioned.plain some', count, Bool.not_eq_false', Bool.and_eq_true, decide_eq_true_eq, decide_eq_true_eq]
    exact ⟨positive, few⟩
  · rw [cueBlocks_written format captioned.plain some']
    exact readCues_cueTexts format 1 captioned.plain

/-- The captions of a normalized timeline are exported in either format, read back as they are, and imported into the same timeline. -/
theorem subtitles_round_trip (entities : Entities) (format : Format) {value timeline : Json} {captions : List Caption}
    (normalized : normalizeStudioTimeline value = .ok timeline) (found : captionsOf timeline = some captions) (some' : captions ≠ []) :
    ∃ row content, timeline = .dict row ∧ exportSubtitles timeline format.name = .ok content ∧
      parseSubtitleCues entities content format.name = .ok captions ∧ importSubtitles entities row content format.name = .ok timeline := by
  have again := normalizeStudioTimeline_again normalized
  obtain ⟨captioned, row, rfl, stored⟩ := normalized_captions normalized found
  have parsed : parseSubtitleCues entities (String.ofList (sidecar format captions)) format.name = .ok captions :=
    parseSubtitleCues_sidecar format captioned some'
  refine ⟨row, String.ofList (sidecar format captions), rfl, ?_, parsed, ?_⟩
  · simp only [exportSubtitles, bind_ok, fetch_ok, refuse_ok, pure_ok, formatNamed_name, Except.ok.injEq]
    refine ⟨format, rfl, _, again, captions, found, (), ?_, rfl⟩
    rw [utf8ByteSize_ofList, decide_eq_false_iff_not]
    exact Nat.not_lt.mpr (sidecar_bytes format captioned)
  · rw [importSubtitles, parsed]
    change normalizeStudioTimeline (.dict (store "captions" (.list (captions.map Caption.value)) row)) = _
    rw [store_found stored]
    exact again

/-- The names of references, of which one is asked for. -/
def ampersand : Entities where
  text name := if name = ['a', 'm', 'p', ';'] then some ['&'] else none
  longest := 32
  within name found := by
    split at found
    · rename_i same
      rw [same]
      decide
    · cases found
  amp := rfl

/-- A film with two captions, one of which looks like a reference and one like a number. -/
def captionedFilm : Json :=
  .dict [("schema_version", .int 2), ("duration_ms", .int 5000),
    ("tracks", .list [trackOf "VIDEO" 0 [openingAt 2 1, clipOf "ending" "video" 1000], trackOf "AUDIO" 1 [clipOf "voice" "audio" 0]]),
    ("captions", .list [Caption.value ⟨1000, 2500, "2\n&amp; so &lt;"⟩, Caption.value ⟨0, 1000, "she && he"⟩])]

theorem subtitles_round_trip_film : ∃ row content timeline, normalizeStudioTimeline captionedFilm = .ok timeline ∧
    exportSubtitles timeline "VTT" = .ok content ∧ importSubtitles ampersand row content "VTT" = .ok timeline ∧
    parseSubtitleCues ampersand content "VTT" = .ok [⟨0, 1000, "she && he"⟩, ⟨1000, 2500, "2\n&amp; so &lt;"⟩] := by
  obtain ⟨timeline, normalized⟩ := accepted_result captionedFilm (by decide +kernel)
  have found : captionsOf timeline = some [⟨0, 1000, "she && he"⟩, ⟨1000, 2500, "2\n&amp; so &lt;"⟩] := by
    have computed : (normalizeStudioTimeline captionedFilm).toOption.bind captionsOf = some [⟨0, 1000, "she && he"⟩, ⟨1000, 2500, "2\n&amp; so &lt;"⟩] := by
      decide +kernel
    rw [normalized] at computed
    exact computed
  obtain ⟨row, content, _, exported, parsed, imported⟩ := subtitles_round_trip ampersand .vtt normalized found (List.cons_ne_nil _ _)
  exact ⟨row, content, timeline, normalized, exported, imported, parsed⟩

end NovelStudio.Timelines
