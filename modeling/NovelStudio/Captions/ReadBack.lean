import NovelStudio.Captions.Track
import NovelStudio.Timelines.Sidecars

/-! Which caption tracks are rendered: those whose lines end in line feeds only, and they are read
back as they are. -/

namespace NovelStudio.Captions

open Library
open Timelines (Failure refuse refuse_ok Caption Entities Format escapeAmpersands ampersand mem_timing)

variable {entities : Entities} {track : Track} {format : Format}

/-- What a character is written as. -/
def letter (format : Format) (char : Char) : List Char :=
  match format with
  | .srt => [char]
  | .vtt => if char = '&' then ['&', 'a', 'm', 'p', ';'] else [char]

theorem write_eq (format : Format) (text : List Char) : format.write text = text.flatMap (letter format) := by
  cases format with
  | srt => exact (List.flatMap_singleton' text).symm
  | vtt => rfl

theorem letter_spares (format : Format) {ends : Char → Bool} (clear : ['&', 'a', 'm', 'p', ';'].any ends = false) : Spares (letter format) ends := by
  simp only [List.any_eq_false, Bool.not_eq_true] at clear
  constructor
  · intro char ended
    cases format with
    | srt => rfl
    | vtt =>
      have other : char ≠ '&' := by
        rintro rfl
        rw [clear '&' (by decide)] at ended
        cases ended
      exact if_neg other
  · intro char plain
    have alone : [char] ≠ [] ∧ ∀ image ∈ [char], ends image = false := by
      refine ⟨List.cons_ne_nil _ _, ?_⟩
      intro image member
      rwa [List.mem_singleton.mp member]
    cases format with
    | srt => exact alone
    | vtt =>
      simp only [letter]
      split
      · exact ⟨List.cons_ne_nil _ _, clear⟩
      · exact alone

theorem write_plain (format : Format) {text : List Char} (plain : '&' ∉ text) : format.write text = text := by
  rw [write_eq]
  induction text with
  | nil => rfl
  | cons char text ih =>
    obtain ⟨other, later⟩ := not_or.mp (fun member => plain (List.mem_cons.mpr member))
    have here : letter format char = [char] := by
      cases format with
      | srt => rfl
      | vtt => exact if_neg (Ne.symm other)
    rw [List.flatMap_cons, here, ih later]
    rfl

theorem write_append (format : Format) (one two : List Char) : format.write (one ++ two) = format.write one ++ format.write two := by
  rw [write_eq, write_eq, write_eq, List.flatMap_append]

theorem write_eq_nil (format : Format) (text : List Char) : format.write text = [] ↔ text = [] := by
  constructor
  · intro none
    by_contra some'
    exact format.write_ne_nil some' none
  · rintro rfl
    cases format <;> rfl

theorem blocksOf_write (format : Format) (text : List Char) : blocksOf (format.write text) = (blocksOf text).map format.write := by
  have stripped : stripBy isSpace (format.write text) = format.write (stripBy isSpace text) := by
    rw [write_eq, write_eq, stripBy_flatMap (letter_spares format rfl)]
  have split : splitDouble '\n' (format.write (stripBy isSpace text)) = (splitDouble '\n' (stripBy isSpace text)).map format.write := by
    rw [write_eq, splitDouble_flatMap (letter_spares format rfl)]
    exact List.map_congr_left fun block _ => (write_eq format block).symm
  unfold blocksOf
  rw [stripped]
  by_cases none : stripBy isSpace text = []
  · rw [if_pos none, if_pos ((write_eq_nil format _).mpr none)]
    rfl
  · rw [if_neg none, if_neg (fun written => none ((write_eq_nil format _).mp written)), split]

theorem splitLines_write (format : Format) (text : List Char) : splitLines (format.write text) = (splitLines text).map format.write := by
  rw [write_eq, splitLines_flatMap (letter_spares format rfl)]
  exact List.map_congr_left fun line _ => (write_eq format line).symm

theorem blockText_write (format : Format) (block : List Char) : blockText (format.write block) = format.write (blockText block) := by
  rw [blockText, splitLines_write, ← List.map_drop, blockText, Format.write_intercalate]

theorem fed_lines (text : List Char) : Fed (['\n'].intercalate (splitLines text)) := by
  intro char member ended
  rcases mem_intercalate member with feed | ⟨line, inside, here⟩
  · exact List.mem_singleton.mp feed
  · rw [splitLines_lines text line inside char here] at ended
    cases ended

theorem single_of_hasEmptyLine {text : List Char} (none : hasEmptyLine text = false) : Single '\n' text := by
  induction text with
  | nil => exact .nil
  | cons char text ih =>
    have later : hasEmptyLine text = false := (Bool.or_eq_false_iff.mp none).2
    cases text with
    | nil => exact .singleton _
    | cons next text =>
      refine List.isChain_cons_cons.mpr ⟨?_, ih later⟩
      rintro ⟨rfl, rfl⟩
      simp [hasEmptyLine, isSpace] at none

/-- A text that is found again between empty lines. -/
structure Solid (text : List Char) : Prop where
  filled : text ≠ []
  head : text.head? ≠ some '\n'
  last : ∀ char, text.getLast? = some char → isSpace char = false
  single : Single '\n' text

theorem isSpace_of_kept {char : Char} (kept : isWhite char = false) (safe : isUnsafe char = false) : isSpace char = false := by
  by_contra space
  rw [Bool.not_eq_false] at space
  simp only [isWhite, space, Bool.true_and, Bool.not_eq_false', Bool.and_eq_true, decide_eq_true_eq] at kept
  simp only [isUnsafe, Bool.or_eq_false_iff, Bool.and_eq_false_iff, decide_eq_false_iff_not] at safe
  omega

theorem cue_solid (cue : Cue) : Solid cue.text.toList := by
  have validated := cue.validated
  simp only [modelValidate, sized, bind_ok, refuse_ok, pure_ok, Bool.or_eq_false_iff, decide_eq_false_iff_not] at validated
  obtain ⟨_, _, _, _, _, _, _, ⟨_, long, _⟩, _, _, _, _, _, _, _, ⟨⟨_, safe⟩, none⟩, same⟩ := validated
  rw [same] at long safe none
  have trimmed : stripBy isWhite cue.text.toList = cue.text.toList := by
    have text := congrArg (fun fields => fields.text.toList) same
    simpa only [CueFields.trimmed, trim, String.toList_ofList] using text
  have filled : cue.text.toList ≠ [] := by
    intro empty
    rw [empty] at long
    exact long (by decide)
  refine ⟨filled, ?_, ?_, single_of_hasEmptyLine none⟩
  · intro first
    have kept := stripBy_first (trimmed.symm ▸ first)
    exact absurd kept (by decide)
  · intro char last
    apply isSpace_of_kept
    · exact stripBy_last (trimmed.symm ▸ last)
    · rw [List.any_eq_false] at safe
      simpa using safe char (List.mem_of_getLast? last)

theorem Solid.behind {line text : List Char} (solid : Solid text) (some' : line ≠ []) (plain : '\n' ∉ line) : Solid (line ++ text) := by
  constructor
  · simp [some']
  · rw [List.head?_append_of_ne_nil _ some']
    exact fun same => plain (List.mem_of_mem_head? same)
  · rw [List.getLast?_append_of_ne_nil _ solid.filled]
    exact solid.last
  · exact single_line plain solid.single

theorem Solid.below {line text : List Char} (solid : Solid text) (some' : line ≠ []) (plain : '\n' ∉ line) : Solid (line ++ '\n' :: text) := by
  constructor
  · simp
  · rw [List.head?_append_of_ne_nil _ some']
    exact fun same => plain (List.mem_of_mem_head? same)
  · obtain ⟨char, rest, filled⟩ := List.exists_cons_of_ne_nil solid.filled
    rw [List.getLast?_append_of_ne_nil _ (List.cons_ne_nil _ _), filled, List.getLast?_cons_cons, ← filled]
    exact solid.last
  · exact single_append plain solid.head solid.single

theorem speaker_plain {cue : Cue} {name : String} (speaks : track.speaker cue = some name) : '\n' ∉ name.toList := by
  obtain ⟨found, _⟩ := Option.filter_eq_some_iff.mp speaks
  obtain ⟨segment, _, labelled⟩ := Option.bind_eq_some_iff.mp found
  obtain ⟨pair, _, rfl⟩ := Option.map_eq_some_iff.mp labelled
  have plain := pair.2.plain
  rw [List.any_eq_false] at plain
  intro feed
  exact plain '\n' feed (by decide)

theorem shown_solid (track : Track) (cue : Cue) : Solid (track.shown cue) := by
  unfold Track.shown
  split
  · rename_i name speaks
    have shape : '[' :: name.toList ++ ']' :: ' ' :: cue.text.toList = ('[' :: name.toList ++ [']', ' ']) ++ cue.text.toList := by
      rw [List.append_assoc]
      rfl
    rw [shape]
    apply (cue_solid cue).behind
    · simp
    · have plain := speaker_plain speaks
      simp [plain]
  · exact cue_solid cue

/-- A block of the output before it is written. -/
def Track.plain (track : Track) (format : Format) (index : Nat) (cue : Cue) : List Char :=
  Nat.toDigits 10 index ++
    '\n' :: (timing format.separator (milliseconds track.timebase cue.startTick) (milliseconds track.timebase cue.endTick) ++ '\n' :: track.shown cue)

theorem timing_clear {start finish : Nat} (other : isNumeral char = false) (apart : char ∉ [format.separator, ':', ' ', '-', '>']) :
    char ∉ timing format.separator start finish := by
  intro member
  rcases mem_timing member with digit | between
  · rw [other] at digit
    cases digit
  · exact apart between

theorem block_eq (track : Track) (format : Format) (index : Nat) (cue : Cue) : track.block format index cue = format.write (track.plain format index cue) := by
  have digits : '&' ∉ Nat.toDigits 10 index := fun member => absurd (isNumeral_toDigits index _ member) (by decide)
  have times : '&' ∉ timing format.separator (milliseconds track.timebase cue.startTick) (milliseconds track.timebase cue.endTick) :=
    timing_clear (by decide) (by cases format <;> decide)
  have feed (text : List Char) : format.write ('\n' :: text) = '\n' :: format.write text := by
    rw [← List.singleton_append, write_append, write_plain format (by decide)]
    rfl
  rw [Track.plain, write_append, write_plain format digits, feed, write_append, write_plain format times, feed, Track.block, List.append_assoc]
  rfl

theorem timing_ne_nil (separator : Char) (start finish : Nat) : timing separator start finish ≠ [] := by
  simp [timing]

theorem plain_solid (track : Track) (format : Format) (index : Nat) (cue : Cue) : Solid (track.plain format index cue) := by
  have times : Solid (timing format.separator (milliseconds track.timebase cue.startTick) (milliseconds track.timebase cue.endTick) ++
      '\n' :: track.shown cue) :=
    (shown_solid track cue).below (timing_ne_nil _ _ _) (timing_clear (by decide) (by cases format <;> decide))
  exact times.below Nat.toDigits_ne_nil fun member => absurd (isNumeral_toDigits index _ member) (by decide)

theorem plain_head (track : Track) (format : Format) (index : Nat) (cue : Cue) (first : (track.plain format index cue).head? = some char) :
    isSpace char = false := by
  rw [Track.plain, List.head?_append_of_ne_nil _ Nat.toDigits_ne_nil] at first
  obtain ⟨low, high⟩ := isNumeral_range (isNumeral_toDigits index char (List.mem_of_mem_head? first))
  simp only [isSpace, Bool.or_eq_false_iff, Bool.and_eq_false_iff, decide_eq_false_iff_not, beq_eq_false_iff_ne]
  omega

def Track.plains (track : Track) (format : Format) : Nat → List Cue → List (List Char)
  | _, [] => []
  | index, cue :: rest => track.plain format index cue :: track.plains format (index + 1) rest

theorem mem_plains {cues : List Cue} (member : block ∈ track.plains format index cues) :
    ∃ place, ∃ cue ∈ cues, block = track.plain format place cue := by
  induction cues generalizing index with
  | nil => cases member
  | cons cue rest ih =>
    rcases List.mem_cons.mp member with rfl | later
    · exact ⟨index, cue, List.mem_cons_self .., rfl⟩
    · obtain ⟨place, other, there, same⟩ := ih later
      exact ⟨place, other, List.mem_cons_of_mem _ there, same⟩

theorem blocksOf_plains (track : Track) (format : Format) (index : Nat) (cues : List Cue) :
    blocksOf (['\n', '\n'].intercalate (track.plains format index cues) ++ ['\n']) = track.plains format index cues := by
  have each : ∀ block ∈ track.plains format index cues, Solid block := by
    intro block member
    obtain ⟨place, cue, _, rfl⟩ := mem_plains member
    exact plain_solid track format place cue
  cases cues with
  | nil => exact if_pos rfl
  | cons cue rest =>
    have nonempty : ['\n', '\n'].intercalate (track.plains format index (cue :: rest)) ≠ [] := by
      intro none
      have first : (['\n', '\n'].intercalate (track.plains format index (cue :: rest))).head? = (track.plain format index cue).head? :=
        head?_intercalate (plain_solid track format index cue).filled _
      rw [none] at first
      exact (plain_solid track format index cue).filled (List.head?_eq_none_iff.mp first.symm)
    have inner : stripBy isSpace (['\n', '\n'].intercalate (track.plains format index (cue :: rest)) ++ ['\n']) =
        ['\n', '\n'].intercalate (track.plains format index (cue :: rest)) := by
      apply stripBy_append
      · intro item first
        rw [Track.plains, head?_intercalate (plain_solid track format index cue).filled] at first
        exact plain_head track format index cue first
      · intro item last
        obtain ⟨final, finals⟩ : ∃ final, (track.plains format index (cue :: rest)).getLast? = some final :=
          Option.isSome_iff_exists.mp (by rw [Track.plains]; simp)
        have solid := each final (List.mem_of_getLast? finals)
        rw [getLast?_intercalate finals solid.filled] at last
        exact solid.last item last
      · intro item member
        rw [List.mem_singleton.mp member]
        rfl
      · exact nonempty
    unfold blocksOf
    rw [inner, if_neg nonempty]
    refine splitDouble_intercalate (List.cons_ne_nil _ _) ?_
    intro block member
    refine ⟨(each block member).single, ?_⟩
    intro last
    exact absurd ((each block member).last '\n' last) (by decide)

/-- A tick that stands at a whole millisecond. -/
def Timebase.Whole (base : Timebase) (tick : Int) : Prop := ∃ number : Int, cueSeconds base tick * 1000 = number

theorem rate_pos (base : Timebase) : (0 : Rat) < base.numerator := Nat.cast_pos.mpr base.rate.1

theorem cueSeconds_nonneg (base : Timebase) {tick : Int} (positive : 0 ≤ tick) : 0 ≤ cueSeconds base tick := by
  have product : (0 : Int) ≤ tick * base.denominator := Int.mul_nonneg positive (Int.natCast_nonneg _)
  exact div_nonneg (Int.cast_nonneg product) (rate_pos base).le

theorem cueSeconds_lt (base : Timebase) {start finish : Int} (before : start < finish) : cueSeconds base start < cueSeconds base finish := by
  have scale : (0 : Int) < base.denominator := Int.natCast_pos.mpr base.scale.1
  have product : start * base.denominator < finish * base.denominator := Int.mul_lt_mul_of_pos_right before scale
  exact div_lt_div_of_pos_right (Int.cast_lt.mpr product) (rate_pos base)

theorem milliseconds_whole {base : Timebase} {tick : Int} (positive : 0 ≤ tick) (whole : base.Whole tick) :
    (milliseconds base tick : Rat) = cueSeconds base tick * 1000 := by
  obtain ⟨number, same⟩ := whole
  have nonneg : (0 : Rat) ≤ number := by
    rw [← same]
    exact mul_nonneg (cueSeconds_nonneg base positive) (by norm_num)
  have sign : 0 ≤ number := Int.cast_nonneg_iff.mp nonneg
  rw [milliseconds, same, Int.floor_intCast]
  exact_mod_cast congrArg (Int.cast (R := Rat)) (Int.toNat_of_nonneg sign)

theorem milliseconds_bounded (base : Timebase) {tick : Int} (bounded : tick ≤ MAX_TICK) : milliseconds base tick < 10 ^ 24 := by
  have scaled : tick * base.denominator ≤ MAX_TICK * 1001 := by
    have scale : (base.denominator : Int) ≤ 1001 := by exact_mod_cast base.scale.2
    calc tick * base.denominator ≤ MAX_TICK * base.denominator := Int.mul_le_mul_of_nonneg_right bounded (Int.natCast_nonneg _)
      _ ≤ MAX_TICK * 1001 := Int.mul_le_mul_of_nonneg_left scale (by decide)
  have seconds : cueSeconds base tick ≤ (MAX_TICK * 1001 : Int) := by
    apply div_le_of_le_mul₀ (rate_pos base).le (Int.cast_nonneg (by decide))
    have rate : (1 : Rat) ≤ base.numerator := Nat.one_le_cast.mpr base.rate.1
    calc ((tick * base.denominator : Int) : Rat) ≤ (MAX_TICK * 1001 : Int) := Int.cast_le.mpr scaled
      _ ≤ (MAX_TICK * 1001 : Int) * base.numerator := le_mul_of_one_le_right (Int.cast_nonneg (by decide)) rate
  have below : cueSeconds base tick * 1000 < (10 ^ 24 : Int) := by
    have limit : ((MAX_TICK * 1001 : Int) : Rat) * 1000 < (10 ^ 24 : Int) := by
      rw [MAX_TICK]
      norm_num
    linarith
  have floor : ⌊cueSeconds base tick * 1000⌋ < (10 ^ 24 : Int) := Int.floor_lt.mpr below
  unfold milliseconds
  omega

theorem hours_length {milliseconds : Nat} (bounded : milliseconds < 10 ^ 24) :
    2 ≤ (zeroPadded 2 (milliseconds / 3600000)).length ∧ (zeroPadded 2 (milliseconds / 3600000)).length ≤ 24 := by
  have digits : (Nat.toDigits 10 (milliseconds / 3600000)).length ≤ 24 :=
    (Nat.length_toDigits_le_iff (by decide) (by decide)).mpr (Nat.lt_of_le_of_lt (Nat.div_le_self _ _) bounded)
  rw [zeroPadded, List.length_append, List.length_replicate]
  omega

theorem rule_takes (format : Format) {milliseconds : Nat} (bounded : milliseconds < 10 ^ 24) : rule.Takes format.separator milliseconds where
  hours := decide_eq_true (hours_length bounded).1
  tens digit small := by
    have value := decimalValue_digitChar (Nat.lt_of_lt_of_le small (by decide))
    change (decimalValue digit.digitChar).isSome = true
    rw [value]
    rfl
  separator := by cases format <;> decide

theorem stamp_short (separator : Char) {milliseconds : Nat} (bounded : milliseconds < 10 ^ 24) : (stamp separator milliseconds).length ≤ 34 := by
  obtain ⟨_, _, _, _, _, _, _, written⟩ := stamp_parts separator milliseconds
  have hours := (hours_length bounded).2
  rw [written, List.length_append]
  simp only [List.length_cons, List.length_nil]
  omega

theorem overlong_timing (separator : Char) {start finish : Nat} (starts : start < 10 ^ 24) (ends : finish < 10 ^ 24) :
    overlong (timing separator start finish) = false := by
  have one := stamp_short separator starts
  have two := stamp_short separator ends
  rw [overlong, List.any_eq_false]
  intro run member
  have within := splitOnP_length _ _ run member
  rw [timing, List.length_append, List.length_append, List.length_cons, List.length_cons, List.length_cons, List.length_cons, List.length_cons,
    List.length_nil] at within
  rw [decide_eq_true_eq, MAX_STR_DIGITS]
  omega

theorem isBoundary_numeral (numeral : isNumeral char = true) : isBoundary char = false := by
  obtain ⟨low, high⟩ := isNumeral_range numeral
  simp only [isBoundary, decide_eq_false_iff_not, List.mem_cons, List.not_mem_nil, or_false]
  omega

theorem plain_lines (track : Track) (format : Format) (index : Nat) (cue : Cue) : splitLines (track.plain format index cue) =
    Nat.toDigits 10 index :: timing format.separator (milliseconds track.timebase cue.startTick) (milliseconds track.timebase cue.endTick) ::
      splitLines (track.shown cue) := by
  rw [Track.plain, splitLines_append fun char member => isBoundary_numeral (isNumeral_toDigits index char member), splitLines_append]
  intro char member
  rcases mem_timing member with digit | between
  · exact isBoundary_numeral digit
  · have each : [format.separator, ':', ' ', '-', '>'].all (fun char => !isBoundary char) = true := by cases format <;> decide
    simpa using List.all_eq_true.mp each char between

theorem isDigits_numerals {digits : List Char} (some' : digits ≠ []) (each : ∀ char ∈ digits, isNumeral char = true) : isDigits digits = true := by
  rw [isDigits, Bool.and_eq_true, List.all_eq_true]
  refine ⟨by simpa using some', ?_⟩
  intro char member
  rw [isDecimal_numeral (each char member), Bool.true_or]

theorem cue_ticks (cue : Cue) : 0 ≤ cue.startTick ∧ cue.startTick < cue.endTick ∧ cue.startTick ≤ MAX_TICK ∧ cue.endTick ≤ MAX_TICK := by
  have validated := cue.validated
  simp only [modelValidate, ranged, bind_ok, refuse_ok, pure_ok, Bool.or_eq_false_iff, decide_eq_false_iff_not] at validated
  obtain ⟨_, _, _, ⟨_, low, high⟩, _, ⟨_, _, last⟩, _, _, _, _, _, _, _, order, _, _, same⟩ := validated
  rw [same] at low high last order
  omega

/-- What is read of the block of a cue: every end of a line has become a line feed. -/
def Track.relined (track : Track) (cue : Cue) : Caption :=
  { track.expected cue with text := String.ofList (['\n'].intercalate (splitLines (track.shown cue))) }

theorem readBlock_plain {cue : Cue} (index : Nat) (positive : milliseconds track.timebase cue.startTick < milliseconds track.timebase cue.endTick) :
    readBlock entities format (format.write (track.plain format index cue)) = .ok (track.relined cue) := by
  obtain ⟨_, _, starts, ends⟩ := cue_ticks cue
  have starts := milliseconds_bounded track.timebase starts
  have ends := milliseconds_bounded track.timebase ends
  have digits : format.write (Nat.toDigits 10 index) = Nat.toDigits 10 index :=
    write_plain format fun member => absurd (isNumeral_toDigits index _ member) (by decide)
  have times : format.write (timing format.separator (milliseconds track.timebase cue.startTick) (milliseconds track.timebase cue.endTick)) =
      timing format.separator (milliseconds track.timebase cue.startTick) (milliseconds track.timebase cue.endTick) :=
    write_plain format (timing_clear (by decide) (by cases format <;> decide))
  have lines : splitLines (format.write (track.plain format index cue)) = Nat.toDigits 10 index ::
      timing format.separator (milliseconds track.timebase cue.startTick) (milliseconds track.timebase cue.endTick) ::
        (splitLines (track.shown cue)).map format.write := by
    rw [splitLines_write, plain_lines, List.map_cons, List.map_cons, digits, times]
  have three : 1 ≤ (splitLines (track.shown cue)).length := List.length_pos_of_ne_nil (splitLines_ne_nil (shown_solid track cue).filled)
  have text : format.read entities (blockText (format.write (track.plain format index cue))) = ['\n'].intercalate (splitLines (track.shown cue)) := by
    rw [blockText_write, Format.read_write, blockText, plain_lines]
    rfl
  simp only [readBlock, lines, text, bind_ok, fetch_ok, refuse_ok, pure_ok, List.headD_cons, List.tail_cons, List.length_cons, List.length_map,
    readTiming_timing (rule_takes format starts) (rule_takes format ends), overlong_timing format.separator starts ends,
    isDigits_numerals Nat.toDigits_ne_nil (isNumeral_toDigits index), Bool.or_eq_false_iff, decide_eq_false_iff_not, Bool.not_true]
  refine ⟨(), ⟨by omega, trivial⟩, _, rfl, (), trivial, (), by omega, rfl⟩

theorem relined_expected (track : Track) (cue : Cue) : track.relined cue = track.expected cue ↔ Fed (track.shown cue) := by
  constructor
  · intro same
    have text : ['\n'].intercalate (splitLines (track.shown cue)) = track.shown cue := by
      have texts := congrArg (fun row => row.text.toList) same
      simpa only [Track.relined, Track.expected, String.toList_ofList] using texts
    exact text ▸ fed_lines (track.shown cue)
  · intro fed
    have last : (track.shown cue).getLast? ≠ some '\n' := fun same => absurd ((shown_solid track cue).last '\n' same) (by decide)
    rw [Track.relined, intercalate_splitLines fed last]
    rfl

/-- A cue that lasts for a millisecond at least. -/
def Track.Lasts (track : Track) (cue : Cue) : Prop := milliseconds track.timebase cue.startTick < milliseconds track.timebase cue.endTick

theorem blocks_plains {cues : List Cue} (lasting : ∀ cue ∈ cues, track.Lasts cue) :
    track.blocks format index cues = .ok ((track.plains format index cues).map format.write) := by
  induction cues generalizing index with
  | nil => rfl
  | cons cue rest ih =>
    have here : decide (milliseconds track.timebase cue.endTick ≤ milliseconds track.timebase cue.startTick) = false :=
      decide_eq_false (Nat.not_le.mpr (lasting cue (List.mem_cons_self ..)))
    have later : track.blocks format (index + 1) rest = .ok ((track.plains format (index + 1) rest).map format.write) :=
      ih fun other member => lasting other (List.mem_cons_of_mem _ member)
    simp only [Track.blocks, bind_ok, refuse_ok, pure_ok]
    refine ⟨(), here, _, later, ?_⟩
    rw [Track.plains, List.map_cons, block_eq]

theorem readBlocks_plains {cues : List Cue} (lasting : ∀ cue ∈ cues, track.Lasts cue) :
    ((track.plains format index cues).map format.write).mapM (readBlock entities format) = .ok (cues.map track.relined) := by
  rw [mapM_ok]
  induction cues generalizing index with
  | nil => exact .nil
  | cons cue rest ih =>
    exact .cons (readBlock_plain index (lasting cue (List.mem_cons_self ..))) (ih fun other member => lasting other (List.mem_cons_of_mem _ member))

theorem readCaptions_plains (lasting : ∀ cue ∈ track.cues, track.Lasts cue) :
    readCaptions entities (format.header ++ ['\n', '\n'].intercalate ((track.plains format 1 track.cues).map format.write) ++ ['\n']) format =
      .ok (track.cues.map track.relined) := by
  have feeds : format.write ['\n'] = ['\n'] ∧ (['\n', '\n'].flatMap (letter format)) = ['\n', '\n'] := by cases format <;> decide
  have written : ['\n', '\n'].intercalate ((track.plains format 1 track.cues).map format.write) ++ ['\n'] =
      format.write (['\n', '\n'].intercalate (track.plains format 1 track.cues) ++ ['\n']) := by
    have parts : (track.plains format 1 track.cues).map format.write = (track.plains format 1 track.cues).map fun block => block.flatMap (letter format) :=
      List.map_congr_left fun block _ => write_eq format block
    rw [write_append, feeds.1, write_eq, intercalate_flatMap, feeds.2, parts]
  have headed : format.header.isPrefixOf (format.header ++ format.write (['\n', '\n'].intercalate (track.plains format 1 track.cues) ++ ['\n'])) = true :=
    List.isPrefixOf_iff_prefix.mpr (List.prefix_append _ _)
  rw [List.append_assoc, written]
  simp only [readCaptions, bind_ok, refuse_ok, headed, Bool.not_true, List.drop_left, blocksOf_write, blocksOf_plains]
  exact ⟨(), trivial, readBlocks_plains lasting⟩

theorem renderCaptions_eq (lasting : ∀ cue ∈ track.cues, track.Lasts cue) :
    renderCaptions entities track format =
      if ∀ cue ∈ track.cues, Fed (track.shown cue) then
        .ok (format.header ++ ['\n', '\n'].intercalate ((track.plains format 1 track.cues).map format.write) ++ ['\n'])
      else .error ⟨"CAPTION_ROUND_TRIP_FAILED"⟩ := by
  have same : track.cues.map track.relined = track.cues.map track.expected ↔ ∀ cue ∈ track.cues, Fed (track.shown cue) := by
    rw [List.map_inj_left]
    exact forall₂_congr fun cue _ => relined_expected track cue
  simp only [renderCaptions, blocks_plains lasting, readCaptions_plains lasting, bind, Except.bind, pure, Except.pure]
  by_cases fed : ∀ cue ∈ track.cues, Fed (track.shown cue)
  · rw [if_pos fed, decide_eq_false (not_not_intro (same.mpr fed))]
    rfl
  · have differ : track.cues.map track.relined ≠ track.cues.map track.expected := fun equal => fed (same.mp equal)
    rw [if_neg fed, decide_eq_true differ]
    rfl

/-- A row shows a cue: its times, in milliseconds, and its text. -/
structure Track.Shows (track : Track) (cue : Cue) (row : Caption) : Prop where
  starts : (row.startMs : Rat) = cueSeconds track.timebase cue.startTick * 1000
  ends : (row.endMs : Rat) = cueSeconds track.timebase cue.endTick * 1000
  text : row.text.toList = track.shown cue

theorem relined_shows {cue : Cue} (starts : track.timebase.Whole cue.startTick) (ends : track.timebase.Whole cue.endTick)
    (fed : Fed (track.shown cue)) : track.Shows cue (track.relined cue) := by
  obtain ⟨nonneg, order, _, _⟩ := cue_ticks cue
  rw [(relined_expected track cue).mpr fed]
  constructor
  · exact_mod_cast milliseconds_whole nonneg starts
  · exact_mod_cast milliseconds_whole (nonneg.trans order.le) ends
  · exact String.toList_ofList

theorem lasts_whole {cue : Cue} (starts : track.timebase.Whole cue.startTick) (ends : track.timebase.Whole cue.endTick) : track.Lasts cue := by
  obtain ⟨nonneg, order, _, _⟩ := cue_ticks cue
  have seconds := cueSeconds_lt track.timebase order
  have before : (milliseconds track.timebase cue.startTick : Rat) < milliseconds track.timebase cue.endTick := by
    rw [milliseconds_whole nonneg starts, milliseconds_whole (nonneg.trans order.le) ends]
    linarith
  exact Nat.cast_lt.mp before

/-- A track that is accepted, with times at whole milliseconds, is rendered in either format and read back as it is shown, as long as the lines
that it shows end in line feeds only; any other end of a line has it refused. -/
theorem captions_read_back (entities : Entities) (format : Format) (track : Track) {warnings : List (String × Warning)} :
    validate track = .ok warnings → (∀ cue ∈ track.cues, track.timebase.Whole cue.startTick ∧ track.timebase.Whole cue.endTick) →
      ((∀ cue ∈ track.cues, Fed (track.shown cue)) → ∃ output rows, renderCaptions entities track format = .ok output ∧
        readCaptions entities output format = .ok rows ∧ List.Forall₂ track.Shows track.cues rows) ∧
      ((∃ cue ∈ track.cues, ¬Fed (track.shown cue)) → renderCaptions entities track format = .error ⟨"CAPTION_ROUND_TRIP_FAILED"⟩) := by
  intro _ whole
  have lasting : ∀ cue ∈ track.cues, track.Lasts cue := fun cue member => lasts_whole (whole cue member).1 (whole cue member).2
  rw [renderCaptions_eq lasting]
  constructor
  · intro fed
    refine ⟨_, _, if_pos fed, readCaptions_plains lasting, ?_⟩
    rw [List.forall₂_map_right_iff, List.forall₂_same]
    exact fun cue member => relined_shows (whole cue member).1 (whole cue member).2 (fed cue member)
  · rintro ⟨cue, member, unfed⟩
    exact if_neg fun fed => unfed (fed cue member)

/-- A cue whose text looks like a reference. -/
def opening : Cue := ⟨⟨"a", 30000, 60000, "so &lt;\n2", none, ""⟩, by decide +kernel⟩

/-- Two cues at 30000 ticks in 1001 seconds, the second of which is labelled. -/
def dialogue (reply : Cue) : Track where
  timebase := ⟨30000, 1001, by decide, by decide⟩
  duration := 3003
  cues := [opening, reply]
  speakers := [("s2", ⟨"Ada & Bo", by decide⟩)]

def feeding : Cue := ⟨⟨"b", 60000, 90000, "one\ntwo", some "s2", ""⟩, by decide +kernel⟩

def separated : Cue := ⟨⟨"b", 60000, 90000, "one\u2028two", some "s2", ""⟩, by decide +kernel⟩

theorem dialogue_whole {reply : Cue} (starts : reply.startTick = 60000) (ends : reply.endTick = 90000) : ∀ cue ∈ (dialogue reply).cues,
    (dialogue reply).timebase.Whole cue.startTick ∧ (dialogue reply).timebase.Whole cue.endTick := by
  intro cue member
  simp only [dialogue, List.mem_cons, List.not_mem_nil, or_false] at member
  rcases member with rfl | rfl
  · exact ⟨⟨1001000, by norm_num [cueSeconds, dialogue, opening]⟩, ⟨2002000, by norm_num [cueSeconds, dialogue, opening]⟩⟩
  · exact ⟨⟨2002000, by norm_num [cueSeconds, dialogue, starts]⟩, ⟨3003000, by norm_num [cueSeconds, dialogue, ends]⟩⟩

theorem dialogue_accepted {reply : Cue} (first : validateCue (dialogue reply) ⟨[], -1, -1, []⟩ opening = .ok ⟨[], 30000, 60000, ["a"]⟩)
    (accepted : validateCue (dialogue reply) ⟨[], 30000, 60000, ["a"]⟩ reply = .ok next) : validate (dialogue reply) = .ok next.warnings := by
  have both : (dialogue reply).cues.foldlM (validateCue (dialogue reply)) ⟨[], -1, -1, []⟩ = .ok next := by
    rw [dialogue, foldlM_cons_ok]
    exact ⟨_, first, foldlM_cons_ok.mpr ⟨_, accepted, foldlM_nil_ok.mpr rfl⟩⟩
  rw [validate, both]
  rfl

theorem captions_read_back_dialogue : ∃ output rows, renderCaptions ampersand (dialogue feeding) .vtt = .ok output ∧
    readCaptions ampersand output .vtt = .ok rows ∧ List.Forall₂ (dialogue feeding).Shows (dialogue feeding).cues rows := by
  have first : validateCue (dialogue feeding) ⟨[], -1, -1, []⟩ opening = .ok ⟨[], 30000, 60000, ["a"]⟩ := by
    rw [validateCue, opening.validated]
    decide +kernel
  have accepted : validateCue (dialogue feeding) ⟨[], 30000, 60000, ["a"]⟩ feeding = .ok ⟨[], 60000, 90000, ["a", "b"]⟩ := by
    rw [validateCue, feeding.validated]
    decide +kernel
  exact (captions_read_back ampersand .vtt _ (dialogue_accepted first accepted) (dialogue_whole rfl rfl)).1 (by decide +kernel)

/-- A line separator within a text is not read back. -/
theorem not_every_track_renders : ¬∀ (format : Format) (track : Track) (warnings : List (String × Warning)), validate track = .ok warnings →
    (∀ cue ∈ track.cues, track.timebase.Whole cue.startTick ∧ track.timebase.Whole cue.endTick) →
      ∃ output rows, renderCaptions ampersand track format = .ok output ∧ readCaptions ampersand output format = .ok rows ∧
        List.Forall₂ track.Shows track.cues rows := by
  intro every
  have first : validateCue (dialogue separated) ⟨[], -1, -1, []⟩ opening = .ok ⟨[], 30000, 60000, ["a"]⟩ := by
    rw [validateCue, opening.validated]
    decide +kernel
  have accepted : validateCue (dialogue separated) ⟨[], 30000, 60000, ["a"]⟩ separated = .ok ⟨[], 60000, 90000, ["a", "b"]⟩ := by
    rw [validateCue, separated.validated]
    decide +kernel
  have whole := @dialogue_whole separated rfl rfl
  obtain ⟨output, rows, rendered, _⟩ := every .srt _ _ (dialogue_accepted first accepted) whole
  rw [renderCaptions_eq fun cue member => lasts_whole (whole cue member).1 (whole cue member).2] at rendered
  rw [if_neg (by decide +kernel)] at rendered
  cases rendered

end NovelStudio.Captions
