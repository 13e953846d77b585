import NovelStudio.Waveform.Envelope

/-! Both paths to an envelope agree: the chunks that are read and the buckets that are filled divide
the frames in two ways, and each frame of the range goes into its bucket once. -/

namespace NovelStudio.Waveform

open Library

variable {wav : Wave} {guard : Nat → Except String Unit} {start stop stride position last cursor : Nat}

/-- The peak of the frames from one on to another. -/
def reach (wav : Wave) (first last : Nat) : ℚ := peak (slice (words wav.data) (first * wav.nchannels) (last * wav.nchannels))

theorem reach_empty {first last : Nat} (empty : last ≤ first) : reach wav first last = 0 := by
  rw [reach, slice, Nat.sub_eq_zero_of_le (Nat.mul_le_mul_right _ empty)]
  simp

theorem reach_join {first middle last : Nat} (one : first ≤ middle) (two : middle ≤ last) :
    reach wav first last = max (reach wav first middle) (reach wav middle last) := by
  rw [reach, ← slice_append _ (Nat.mul_le_mul_right _ one) (Nat.mul_le_mul_right _ two), peak_append]
  rfl

/-- The peak of a bucket once the frames before one have been read. -/
def filled (wav : Wave) (start stop stride reached index : Nat) : ℚ :=
  reach wav (start + index * stride) (min (min stop (start + (index + 1) * stride)) reached)

def tiles (wav : Wave) (start stop stride reached : Nat) : List ℚ :=
  (List.range (steps (stop - start) stride)).map (filled wav start stop stride reached)

theorem filled_congr {one other : Nat} (before : one ≤ other) (outside : other ≤ start ∨ stop ≤ one) (index : Nat) :
    filled wav start stop stride one index = filled wav start stop stride other index := by
  rcases outside with early | late
  · rw [filled, filled, reach_empty, reach_empty]
    · omega
    · omega
  · have same : min (min stop (start + (index + 1) * stride)) one = min (min stop (start + (index + 1) * stride)) other := by omega
    rw [filled, filled, same]

theorem tiles_congr {one other : Nat} (before : one ≤ other) (outside : other ≤ start ∨ stop ≤ one) :
    tiles wav start stop stride one = tiles wav start stop stride other :=
  List.map_congr_left fun index _ => filled_congr before outside index

theorem tiles_start : tiles wav start stop stride 0 = List.replicate (steps (stop - start) stride) 0 := by
  refine List.eq_replicate_iff.mpr ⟨by simp [tiles], fun value member => ?_⟩
  obtain ⟨index, _, rfl⟩ := List.mem_map.mp member
  rw [filled, reach_empty]
  omega

section
variable (wav) {boundary : Nat} (further : cursor ≤ boundary) (inside : boundary ≤ stop)
include further inside

theorem filled_own {index : Nat} (low : start + index * stride ≤ cursor) (bucket : boundary ≤ start + (index + 1) * stride) :
    filled wav start stop stride boundary index = max (filled wav start stop stride cursor index) (reach wav cursor boundary) := by
  have now : min (min stop (start + (index + 1) * stride)) boundary = boundary := by omega
  have before : min (min stop (start + (index + 1) * stride)) cursor = cursor := by omega
  rw [filled, filled, now, before]
  exact reach_join low further

omit inside in
theorem filled_other {index here : Nat} (low : start + here * stride ≤ cursor) (bucket : boundary ≤ start + (here + 1) * stride)
    (differs : here ≠ index) : filled wav start stop stride cursor index = filled wav start stop stride boundary index := by
  rcases Nat.lt_or_gt_of_ne differs with later | earlier
  · have begins : (here + 1) * stride ≤ index * stride := Nat.mul_le_mul_right _ later
    rw [filled, filled, reach_empty, reach_empty]
    · omega
    · omega
  · have ends : (index + 1) * stride ≤ here * stride := Nat.mul_le_mul_right _ earlier
    have same : min (min stop (start + (index + 1) * stride)) cursor = min (min stop (start + (index + 1) * stride)) boundary := by omega
    rw [filled, filled, same]

theorem tiles_step {here : Nat} (low : start + here * stride ≤ cursor) (bucket : boundary ≤ start + (here + 1) * stride) :
    (tiles wav start stop stride cursor).modify here (max · (reach wav cursor boundary)) = tiles wav start stop stride boundary := by
  apply List.ext_getElem?
  intro index
  rw [List.getElem?_modify, tiles, tiles, List.getElem?_map, List.getElem?_map]
  cases found : (List.range (steps (stop - start) stride))[index]? with
  | none => rfl
  | some other =>
    obtain ⟨_, listed⟩ := List.getElem?_eq_some_iff.mp found
    obtain rfl : index = other := by rw [← listed, List.getElem_range]
    by_cases same : here = index
    · subst same
      simp [filled_own wav further inside low bucket]
    · simp [same, filled_other wav further low bucket same]

end

theorem words_readframes (read count : Nat) (at_position : read = position * wav.nchannels * 2) :
    words (wav.readframes read count) = slice (words wav.data) (position * wav.nchannels) ((position + count) * wav.nchannels) := by
  rw [Wave.readframes, at_position, words_block, Nat.add_mul]

theorem spread_tiles (positive : 0 < stride) {count : Nat} (begun : start ≤ cursor) (here : position ≤ cursor) (inside : last ≤ stop)
    (chunk : last ≤ position + count) :
    spread wav start stride positive position (slice (words wav.data) (position * wav.nchannels) ((position + count) * wav.nchannels)) last cursor
      (tiles wav start stop stride cursor) = tiles wav start stop stride (max cursor last) := by
  generalize gap : last - cursor = size
  induction size using Nat.strongRecOn generalizing cursor with
  | ind size ih =>
    rw [spread]
    split
    · rename_i before
      have low : (cursor - start) / stride * stride ≤ cursor - start := Nat.div_mul_le_self ..
      have high : cursor - start < stride * ((cursor - start) / stride + 1) := Nat.lt_mul_div_succ _ positive
      rw [Nat.mul_comm] at high
      generalize (cursor - start) / stride = index at low high
      have further : cursor ≤ min last (start + (index + 1) * stride) := by omega
      have own : slice (slice (words wav.data) (position * wav.nchannels) ((position + count) * wav.nchannels)) ((cursor - position) * wav.nchannels)
          ((min last (start + (index + 1) * stride) - position) * wav.nchannels) =
          slice (words wav.data) (cursor * wav.nchannels) (min last (start + (index + 1) * stride) * wav.nchannels) := by
        rw [slice_slice, ← Nat.add_mul, ← Nat.add_mul, Nat.add_sub_cancel' here, Nat.add_sub_cancel' (here.trans further)]
        rw [← Nat.add_mul]
        exact Nat.mul_le_mul_right _ (by omega)
      simp only [own]
      have filling : (tiles wav start stop stride cursor).modify index (max · (reach wav cursor (min last (start + (index + 1) * stride)))) =
          tiles wav start stop stride (min last (start + (index + 1) * stride)) :=
        tiles_step wav further (by omega) (by omega) (by omega)
      have whole : max (min last (start + (index + 1) * stride)) last = max cursor last := by omega
      rw [reach] at filling
      rw [filling, ih _ (by omega) (by omega) (by omega) rfl, whole]
    · rename_i after
      rw [Nat.max_eq_left (Nat.le_of_not_lt after)]

theorem chunk_tiles (positive : 0 < stride) {count : Nat} (some : 0 < count) :
    spread wav start stride positive position (slice (words wav.data) (position * wav.nchannels) ((position + count) * wav.nchannels))
      (min (position + count) stop) (max position start) (tiles wav start stop stride position) = tiles wav start stop stride (position + count) := by
  have begun : tiles wav start stop stride position = tiles wav start stop stride (max position start) := by
    rcases Nat.le_total start position with inside | before
    · rw [Nat.max_eq_left inside]
    · rw [Nat.max_eq_right before]
      exact tiles_congr before (.inl (Nat.le_refl _))
  rw [begun, spread_tiles positive (Nat.le_max_right ..) (Nat.le_max_left ..) (Nat.min_le_right ..) (Nat.min_le_left ..)]
  rcases Nat.lt_trichotomy (max (max position start) (min (position + count) stop)) (position + count) with less | same | more
  · exact tiles_congr less.le (by omega)
  · rw [same]
  · exact (tiles_congr more.le (by omega)).symm

/-- The data is as long as the frames that the stream declares. -/
def Wave.WellFormed (wav : Wave) : Prop := wav.data.length = wav.nframes * wav.nchannels * 2

/-- What `readChunk` does when the guard lets it. -/
theorem readChunk_ok (wellFormed : wav.WellFormed) (quiet : ∀ calls, guard calls = .ok ()) (positive : 0 < stride) {chunk : Nat}
    (position_eq : position = chunk * chunkFrames wav) (inside : position < wav.nframes) (channels : 0 < chunkFrames wav) :
    readChunk wav guard start stop stride positive (position * wav.nchannels * 2, tiles wav start stop stride position) chunk =
      .ok (min (position + chunkFrames wav) wav.nframes * wav.nchannels * 2, tiles wav start stop stride (min (position + chunkFrames wav) wav.nframes)) := by
  obtain ⟨count, counted⟩ : ∃ count, count = min (chunkFrames wav) (wav.nframes - position) := ⟨_, rfl⟩
  have reached : min (position + chunkFrames wav) wav.nframes = position + count := by omega
  have room : (position + count) * wav.nchannels * 2 ≤ wav.data.length := by
    rw [wellFormed]
    exact Nat.mul_le_mul_right _ (Nat.mul_le_mul_right _ (by omega))
  have full : (wav.readframes (position * wav.nchannels * 2) count).length = count * wav.nchannels * 2 := by
    rw [Nat.add_mul, Nat.add_mul] at room
    rw [Wave.readframes, List.length_take, List.length_drop]
    omega
  have even : count * wav.nchannels * 2 % 2 = 0 := Nat.mul_mod_left ..
  rw [readChunk, reached]
  simp only [← position_eq, ← counted, quiet, full, samplesOf, even]
  simp only [ne_eq, not_true_eq_false, decide_false, reject, Bool.false_eq_true, if_false, pure_bind]
  rw [words_readframes _ _ rfl, chunk_tiles positive (by omega), ← Nat.add_mul, ← Nat.add_mul]
  rfl

theorem chunks_ok (wellFormed : wav.WellFormed) (quiet : ∀ calls, guard calls = .ok ()) (positive : 0 < stride) (channels : 0 < chunkFrames wav)
    (count : Nat) (inside : count ≤ steps wav.nframes (chunkFrames wav)) :
    (List.range count).foldlM (readChunk wav guard start stop stride positive) (0, tiles wav start stop stride 0) =
      .ok (min (count * chunkFrames wav) wav.nframes * wav.nchannels * 2, tiles wav start stop stride (min (count * chunkFrames wav) wav.nframes)) := by
  induction count with
  | zero => simp [pure, Except.pure]
  | succ count ih =>
    have before : count * chunkFrames wav < wav.nframes := by
      have more : (count + 1) * chunkFrames wav ≤ wav.nframes + chunkFrames wav - 1 := (Nat.le_div_iff_mul_le channels).mp inside
      rw [Nat.succ_mul] at more
      omega
    rw [List.range_succ, List.foldlM_append, ih (by omega), Nat.min_eq_left before.le]
    have next : readChunk wav guard start stop stride positive
        (count * chunkFrames wav * wav.nchannels * 2, tiles wav start stop stride (count * chunkFrames wav)) count = _ :=
      readChunk_ok wellFormed quiet positive rfl before channels
    rw [Nat.succ_mul]
    simp [next, bind, Except.bind, pure, Except.pure]

theorem le_steps (size : Nat) {step : Nat} (positive : 0 < step) : size ≤ steps size step * step := by
  have most : size + step - 1 < step * ((size + step - 1) / step + 1) := Nat.lt_mul_div_succ _ positive
  rw [Nat.mul_comm, Nat.succ_mul] at most
  rw [steps]
  omega

theorem lt_of_lt_steps {size step index : Nat} (positive : 0 < step) (inside : index < steps size step) : index * step < size := by
  have more : (index + 1) * step ≤ size + step - 1 := (Nat.le_div_iff_mul_le positive).mp inside
  rw [Nat.succ_mul] at more
  omega

theorem steps_bucketSize (size : Nat) : steps size (bucketSize size) ≤ 512 := by
  rw [steps, bucketSize]
  apply Nat.le_of_lt_succ
  apply Nat.div_lt_of_lt_mul
  omega

theorem chunkFrames_pos (channels : wav.nchannels = 1 ∨ wav.nchannels = 2) : 0 < chunkFrames wav := by
  rw [chunkFrames]
  rcases channels with one | two
  · rw [one]
    decide
  · rw [two]
    decide

theorem measure_ok (channels : wav.nchannels = 1 ∨ wav.nchannels = 2) (wellFormed : wav.WellFormed) (quiet : ∀ calls, guard calls = .ok ()) :
    measure wav guard start stop = .ok ⟨bucketSize (stop - start), tiles wav start stop (bucketSize (stop - start)) wav.nframes⟩ := by
  have chunks : (List.range (steps wav.nframes (chunkFrames wav))).foldlM (readChunk wav guard start stop _ (bucketSize_pos (stop - start)))
      (0, tiles wav start stop (bucketSize (stop - start)) 0) = _ := chunks_ok wellFormed quiet _ (chunkFrames_pos channels) _ (Nat.le_refl _)
  rw [Nat.min_eq_right (le_steps wav.nframes (chunkFrames_pos channels)), tiles_start] at chunks
  have rest : wav.readframes (wav.nframes * wav.nchannels * 2) 1 = [] := by
    rw [Wave.readframes, List.drop_eq_nil_of_le (Nat.le_of_eq wellFormed), List.take_nil]
  simp [measure, chunks, quiet, rest, reject, bind, Except.bind, pure, Except.pure]

theorem strictEnvelope_ok {frameStart : Int} {frameEnd : Option Int} (admitted : admits wav frameStart (frameEnd.getD wav.nframes) = true)
    (wellFormed : wav.WellFormed) (quiet : ∀ calls, guard calls = .ok ()) (first : frameStart = start) (final : frameEnd.getD wav.nframes = stop) :
    strictEnvelope wav guard frameStart frameEnd =
      .ok ⟨bucketSize (stop - start), tiles wav start stop (bucketSize (stop - start)) wav.nframes⟩ := by
  have channels : wav.nchannels = 1 ∨ wav.nchannels = 2 := by
    simp only [admits, Bool.and_eq_true, Bool.or_eq_true, decide_eq_true_eq] at admitted
    exact admitted.1.1
  simp only [strictEnvelope, admitted]
  rw [first, final, Int.toNat_natCast, Int.toNat_natCast, measure_ok channels wellFormed quiet]
  rfl

theorem compatible_ok (wellFormed : wav.WellFormed) :
    compatible wav = .ok ⟨bucketSize wav.nframes, tiles wav 0 wav.nframes (bucketSize wav.nframes) wav.nframes⟩ := by
  have all : wav.readframes 0 wav.nframes = wav.data := by
    rw [Wave.readframes, List.drop_zero, List.take_of_length_le (Nat.le_of_eq wellFormed)]
  have even : wav.data.length % 2 = 0 := by
    rw [wellFormed]
    exact Nat.mul_mod_left ..
  have peaks : ((List.range (steps wav.nframes (bucketSize wav.nframes))).map (· * bucketSize wav.nframes)).map (fun i =>
      peak (slice (words wav.data) (i * wav.nchannels) (min wav.nframes (i + bucketSize wav.nframes) * wav.nchannels))) =
      tiles wav 0 wav.nframes (bucketSize wav.nframes) wav.nframes := by
    rw [List.map_map, tiles, Nat.sub_zero]
    refine List.map_congr_left fun index _ => ?_
    rw [Function.comp_apply, filled, reach, Nat.zero_add, Nat.zero_add, Nat.succ_mul, Nat.min_eq_left (Nat.min_le_left ..)]
  simp only [compatible, all, samplesOf, even]
  simp [reject, peaks, bind, Except.bind, pure, Except.pure]

def Wave.sample (wav : Wave) (frame channel : Nat) : Int := (words wav.data)[frame * wav.nchannels + channel]?.getD 0

/-- How loud the frames from one on to another are, in any channel. -/
def Wave.loudness (wav : Wave) (first last : Nat) : Set Nat :=
  {loud | ∃ frame channel, (first ≤ frame ∧ frame < last) ∧ channel < wav.nchannels ∧ loud = (wav.sample frame channel).natAbs}

theorem mem_frames (wellFormed : wav.WellFormed) (channels : 0 < wav.nchannels) {first last : Nat} (inside : last ≤ wav.nframes) (loud : Nat) :
    loud ∈ wav.loudness first last ↔
      ∃ sample ∈ slice (words wav.data) (first * wav.nchannels) (last * wav.nchannels), loud = sample.natAbs := by
  have size : (words wav.data).length = wav.nframes * wav.nchannels := by
    rw [length_words, wellFormed, Nat.mul_div_cancel _ (by decide)]
  constructor
  · rintro ⟨frame, channel, ⟨after, before⟩, narrow, rfl⟩
    have later : first * wav.nchannels ≤ frame * wav.nchannels := Nat.mul_le_mul_right _ after
    have earlier : (frame + 1) * wav.nchannels ≤ last * wav.nchannels := Nat.mul_le_mul_right _ before
    have bound : last * wav.nchannels ≤ wav.nframes * wav.nchannels := Nat.mul_le_mul_right _ inside
    rw [Nat.succ_mul] at earlier
    obtain ⟨sample, found⟩ : ∃ sample, (words wav.data)[frame * wav.nchannels + channel]? = some sample := by
      refine ⟨_, List.getElem?_eq_getElem ?_⟩
      omega
    refine ⟨sample, List.mem_iff_getElem?.mpr ⟨frame * wav.nchannels + channel - first * wav.nchannels, ?_⟩, ?_⟩
    · rw [getElem?_slice, if_pos (by omega), ← found]
      congr 1
      omega
    · rw [Wave.sample, found]
      rfl
  · rintro ⟨sample, member, rfl⟩
    obtain ⟨offset, found⟩ := List.mem_iff_getElem?.mp member
    rw [getElem?_slice] at found
    split at found
    · rename_i short
      have split : first * wav.nchannels + offset = (first + offset / wav.nchannels) * wav.nchannels + offset % wav.nchannels := by
        rw [Nat.add_mul, Nat.add_assoc, Nat.div_add_mod']
      have frames : offset / wav.nchannels < last - first := by
        rw [Nat.div_lt_iff_lt_mul channels, Nat.sub_mul]
        exact short
      refine ⟨first + offset / wav.nchannels, offset % wav.nchannels, ⟨Nat.le_add_right .., Nat.add_lt_of_lt_sub' frames⟩, Nat.mod_lt _ channels, ?_⟩
      rw [Wave.sample, ← split, found]
      rfl
    · exact nomatch found

theorem reach_greatest (wellFormed : wav.WellFormed) (channels : 0 < wav.nchannels) {first last : Nat} (some : first < last) (inside : last ≤ wav.nframes) :
    ∃ loud, IsGreatest (wav.loudness first last) loud ∧ reach wav first last = (loud : ℚ) / 32768 := by
  have members : ∀ loud, loud ∈ wav.loudness first last ↔ _ := mem_frames wellFormed channels inside
  have quiet : slice (words wav.data) (first * wav.nchannels) (last * wav.nchannels) ≠ [] := by
    intro empty
    have loud : (wav.sample first 0).natAbs ∈ wav.loudness first last := ⟨first, 0, ⟨Nat.le_refl _, some⟩, channels, rfl⟩
    rw [members, empty] at loud
    obtain ⟨_, member, _⟩ := loud
    exact nomatch member
  refine ⟨loudest (slice (words wav.data) (first * wav.nchannels) (last * wav.nchannels)), ⟨?_, fun loud member => ?_⟩, rfl⟩
  · obtain ⟨sample, member, same⟩ := loudest_mem _ quiet
    exact (members _).mpr ⟨sample, member, same.symm⟩
  · obtain ⟨sample, inside, rfl⟩ := (members _).mp member
    exact le_loudest _ inside

theorem readChunk_read (positive : 0 < stride) {chunk read : Nat} {peaks : List ℚ} {after : Nat × List ℚ}
    (done : readChunk wav guard start stop stride positive (read, peaks) chunk = .ok after) :
    after.1 = read + min (chunkFrames wav) (wav.nframes - chunk * chunkFrames wav) * wav.nchannels * 2 ∧
      min (chunkFrames wav) (wav.nframes - chunk * chunkFrames wav) * wav.nchannels * 2 ≤ wav.data.length - read := by
  simp only [readChunk, bind_ok, reject_ok, pure_ok, decide_eq_false_iff_not, ne_eq, not_not] at done
  obtain ⟨_, _, _, full, _, _, _, _, rfl⟩ := done
  refine ⟨congrArg (read + ·) full, ?_⟩
  rw [Wave.readframes, List.length_take, List.length_drop] at full
  omega

theorem chunks_read (positive : 0 < stride) (count : Nat) {initial peaks : List ℚ} {read : Nat}
    (done : (List.range count).foldlM (readChunk wav guard start stop stride positive) (0, initial) = .ok (read, peaks)) :
    read = min (count * chunkFrames wav) wav.nframes * wav.nchannels * 2 ∧ read ≤ wav.data.length := by
  induction count generalizing read peaks with
  | zero =>
    obtain ⟨rfl, _⟩ : 0 = read ∧ initial = peaks := by simpa [pure, Except.pure] using done
    simp
  | succ count ih =>
    rw [List.range_succ, List.foldlM_append, bind_ok] at done
    obtain ⟨⟨before, peaks'⟩, earlier, last⟩ := done
    obtain ⟨reached, inside⟩ := ih earlier
    simp only [List.foldlM_cons, List.foldlM_nil, bind_ok, pure_ok] at last
    obtain ⟨_, last, rfl⟩ := last
    obtain ⟨more, room⟩ := readChunk_read positive last
    have further : min (count * chunkFrames wav) wav.nframes + min (chunkFrames wav) (wav.nframes - count * chunkFrames wav) =
        min ((count + 1) * chunkFrames wav) wav.nframes := by
      rw [Nat.succ_mul]
      omega
    refine ⟨?_, by simp only at more; omega⟩
    simp only at more
    rw [more, reached, ← further, Nat.add_mul, Nat.add_mul]

/-- The strict path rejects a stream that is shorter or longer than it declares, whatever the range. -/
theorem strictEnvelope_length {frameStart : Int} {frameEnd : Option Int} {envelope : Envelope}
    (done : strictEnvelope wav guard frameStart frameEnd = .ok envelope) : wav.WellFormed := by
  simp only [strictEnvelope, measure, bind_ok, reject_ok, pure_ok, Bool.not_eq_false', decide_eq_false_iff_not, ne_eq, not_not] at done
  obtain ⟨_, admitted, ⟨read, peaks⟩, chunks, _, _, _, rest, _⟩ := done
  simp only [admits, Bool.and_eq_true, Bool.or_eq_true, decide_eq_true_eq] at admitted
  have channels : wav.nchannels = 1 ∨ wav.nchannels = 2 := admitted.1.1
  obtain ⟨reached, inside⟩ := chunks_read _ _ chunks
  rw [Nat.min_eq_right (le_steps wav.nframes (chunkFrames_pos channels))] at reached
  have nothing : wav.data.length - read = 0 := by
    have none := congrArg List.length rest
    rw [Wave.readframes, List.length_take, List.length_drop, List.length_nil] at none
    omega
  rw [Wave.WellFormed]
  omega

/-- The envelope of a range: its buckets cover the frames, and each peak is that of the loudest sample in its bucket. -/
structure Measures (wav : Wave) (start stop : Nat) (envelope : Envelope) : Prop where
  size : envelope.samplesPerBucket = bucketSize (stop - start)
  covers : envelope.peaks.length = steps (stop - start) envelope.samplesPerBucket
  most : envelope.peaks.length ≤ 512
  loudest : ∀ i peak, envelope.peaks[i]? = some peak → ∃ loud : Nat, peak = (loud : ℚ) / 32768 ∧
    IsGreatest (wav.loudness (start + i * envelope.samplesPerBucket) (min stop (start + (i + 1) * envelope.samplesPerBucket))) loud

theorem tiles_measures (wellFormed : wav.WellFormed) (channels : 0 < wav.nchannels) (range : start < stop) (inside : stop ≤ wav.nframes) :
    Measures wav start stop ⟨bucketSize (stop - start), tiles wav start stop (bucketSize (stop - start)) wav.nframes⟩ where
  size := rfl
  covers := by simp [tiles]
  most := by
    rw [tiles, List.length_map, List.length_range]
    exact steps_bucketSize _
  loudest := by
    intro i peak found
    rw [tiles, List.getElem?_map, Option.map_eq_some_iff] at found
    obtain ⟨index, listed, rfl⟩ := found
    obtain ⟨bound, rfl⟩ := List.getElem?_eq_some_iff.mp listed
    rw [List.length_range] at bound
    rw [List.getElem_range]
    have begins : i * bucketSize (stop - start) < stop - start := lt_of_lt_steps (bucketSize_pos _) bound
    have ends : (i + 1) * bucketSize (stop - start) = i * bucketSize (stop - start) + bucketSize (stop - start) := Nat.succ_mul ..
    have positive := bucketSize_pos (stop - start)
    have last : min (min stop (start + (i + 1) * bucketSize (stop - start))) wav.nframes = min stop (start + (i + 1) * bucketSize (stop - start)) := by
      omega
    obtain ⟨loud, greatest, same⟩ := reach_greatest wellFormed channels
      (show start + i * bucketSize (stop - start) < min stop (start + (i + 1) * bucketSize (stop - start)) by omega) (by omega)
    exact ⟨loud, by rw [filled, last, same], greatest⟩

/-- For a stream of the length that it declares, whose guard lets it be read, the strict path over all its frames gives the envelope of
the other path, and over a range what the frames there measure. A stream of another length is rejected, whatever the range. -/
theorem waveform_paths_agree (wav : Wave) :
    (wav.data.length = wav.nframes * wav.nchannels * 2 → ∀ guard : Nat → Except String Unit, (∀ calls, guard calls = .ok ()) →
      (admits wav 0 wav.nframes = true → ∃ envelope, pcm16Envelope wav 0 none true guard = .ok envelope ∧
        ∀ guard', pcm16Envelope wav 0 none false guard' = .ok envelope) ∧
      ∀ (frameStart : Int) (frameEnd : Option Int), admits wav frameStart (frameEnd.getD wav.nframes) = true →
        ∃ envelope, pcm16Envelope wav frameStart frameEnd true guard = .ok envelope ∧
          Measures wav frameStart.toNat (frameEnd.getD wav.nframes).toNat envelope) ∧
    (wav.data.length ≠ wav.nframes * wav.nchannels * 2 → ∀ frameStart frameEnd guard, ∃ error,
      pcm16Envelope wav frameStart frameEnd true guard = .error error) := by
  refine ⟨fun wellFormed guard quiet => ⟨fun admitted => ?_, fun frameStart frameEnd admitted => ?_⟩, fun differs frameStart frameEnd guard => ?_⟩
  · exact ⟨_, strictEnvelope_ok admitted wellFormed quiet rfl rfl, fun _ => compatible_ok wellFormed⟩
  · have range := admitted
    simp only [admits, Bool.and_eq_true, Bool.or_eq_true, decide_eq_true_eq] at range
    obtain ⟨⟨channels, _⟩, ⟨positive, further⟩, inside⟩ := range
    refine ⟨_, strictEnvelope_ok admitted wellFormed quiet (Int.toNat_of_nonneg positive).symm (Int.toNat_of_nonneg (by omega)).symm, ?_⟩
    exact tiles_measures wellFormed (by omega) (by omega) (by omega)
  · cases done : pcm16Envelope wav frameStart frameEnd true guard with
    | error error => exact ⟨error, rfl⟩
    | ok envelope => exact (differs (strictEnvelope_length done)).elim

/-- Three frames of two channels. -/
def chord : Wave := ⟨3, 2, [0, 64, 0, 192, 1, 0, 2, 0, 255, 127, 0, 128]⟩

theorem chord_agrees : ∃ envelope, pcm16Envelope chord 0 none true (fun _ => .ok ()) = .ok envelope ∧
    ∀ guard, pcm16Envelope chord 0 none false guard = .ok envelope :=
  ((waveform_paths_agree chord).1 rfl (fun _ => .ok ()) (fun _ => rfl)).1 (by decide)

end NovelStudio.Waveform
