import Mathlib.Data.Rat.Defs
import Mathlib.Data.Rat.Floor
import NovelStudio.Library.Fallible
import NovelStudio.Library.Slice

/-! The envelope of a stream of 16-bit samples (`pcm16_envelope.py`): the path that the subtitles
use, which reads the stream at once, and the strict one, which reads it in chunks. -/

namespace NovelStudio.Waveform

open Library

/-- A stream that is open at its first frame: what it declares, and the bytes that it has. -/
structure Wave where
  nframes : Nat
  nchannels : Nat
  data : List UInt8

/-- `readframes(count)`, where `read` bytes have been read. -/
def Wave.readframes (wav : Wave) (read count : Nat) : List UInt8 := (wav.data.drop read).take (count * wav.nchannels * 2)

def word (low high : UInt8) : Int :=
  let value : Int := low.toNat + 256 * high.toNat
  if value < 32768 then value else value - 65536

def words : List UInt8 → List Int
  | low :: high :: rest => word low high :: words rest
  | _ => []

/-- `_samples`: an array takes whole items only. -/
def samplesOf (data : List UInt8) : Except String (List Int) := do
  reject (data.length % 2 ≠ 0) "bytes length not a multiple of item size"
  return words data

def peak (samples : List Int) : ℚ := ((samples.map Int.natAbs).foldl max 0 : Nat) / 32768

structure Envelope where
  samplesPerBucket : Nat
  peaks : List ℚ
  deriving DecidableEq

def bucketSize (frames : Nat) : Nat := max 1 ((frames + 511) / 512)

theorem bucketSize_pos (frames : Nat) : 0 < bucketSize frames := Nat.lt_of_lt_of_le Nat.zero_lt_one (Nat.le_max_left ..)

/-- How many steps of a size it takes to pass through a range. -/
def steps (size step : Nat) : Nat := (size + step - 1) / step

def compatible (wav : Wave) : Except String Envelope := do
  let frames := wav.nframes
  let channels := wav.nchannels
  let samples ← samplesOf (wav.readframes 0 frames)
  let stride := bucketSize frames
  let starts := (List.range (steps frames stride)).map (· * stride)
  return ⟨stride, starts.map fun i => peak (slice samples (i * channels) (min frames (i + stride) * channels))⟩

section
variable (wav : Wave) (guard : Nat → Except String Unit) (start stop : Nat)

/-- The buckets of a chunk take its samples, from a frame on; a bucket is always among those of the range. -/
def spread (stride : Nat) (positive : 0 < stride) (position : Nat) (samples : List Int) (last cursor : Nat) (peaks : List ℚ) : List ℚ :=
  if cursor < last then
    let index := (cursor - start) / stride
    let boundary := min last (start + (index + 1) * stride)
    let own := peak (slice samples ((cursor - position) * wav.nchannels) ((boundary - position) * wav.nchannels))
    spread stride positive position samples last boundary (peaks.modify index (max · own))
  else peaks
termination_by last - cursor
decreasing_by
  have inside : cursor - start < stride * ((cursor - start) / stride + 1) := Nat.lt_mul_div_succ _ positive
  rw [Nat.mul_comm] at inside
  omega

def chunkFrames : Nat := 32768 / wav.nchannels

/-- The guard is called before a chunk and after it. -/
def readChunk (stride : Nat) (positive : 0 < stride) (state : Nat × List ℚ) (chunk : Nat) : Except String (Nat × List ℚ) := do
  let (read, peaks) := state
  let position := chunk * chunkFrames wav
  guard (2 * chunk)
  let count := min (chunkFrames wav) (wav.nframes - position)
  let block := wav.readframes read count
  reject (block.length ≠ count * wav.nchannels * 2) "STUDIO_WAVEFORM_INVALID"
  let samples ← samplesOf block
  let peaks := spread wav start stride positive position samples (min (position + count) stop) (max position start) peaks
  guard (2 * chunk + 1)
  return (read + block.length, peaks)

/-- The peaks of an admitted range, once all frames that the stream declares have been read. -/
def measure : Except String Envelope := do
  let stride := bucketSize (stop - start)
  let chunks := steps wav.nframes (chunkFrames wav)
  let (read, peaks) ← (List.range chunks).foldlM (readChunk wav guard start stop stride (bucketSize_pos _))
    (0, List.replicate (steps (stop - start) stride) 0)
  -- The number of frames leaves out a part of a frame; no byte may remain.
  guard (2 * chunks)
  reject (wav.readframes read 1 ≠ []) "STUDIO_WAVEFORM_INVALID"
  guard (2 * chunks + 1)
  return ⟨stride, peaks⟩

def admits (frameStart last : Int) : Bool :=
  (wav.nchannels = 1 || wav.nchannels = 2) && (0 < wav.nframes * wav.nchannels && wav.nframes * wav.nchannels ≤ 4194304) &&
    (0 ≤ frameStart && frameStart < last && last ≤ wav.nframes)

def strictEnvelope (frameStart : Int) (frameEnd : Option Int) : Except String Envelope := do
  let last := frameEnd.getD wav.nframes
  reject (!admits wav frameStart last) "STUDIO_WAVEFORM_CLIP_RANGE_INVALID"
  measure wav guard frameStart.toNat last.toNat

end

/-- `pcm16_envelope`; the guard is told how often it was called before. -/
def pcm16Envelope (wav : Wave) (frameStart : Int) (frameEnd : Option Int) (strict : Bool) (guard : Nat → Except String Unit) : Except String Envelope :=
  if strict then strictEnvelope wav guard frameStart frameEnd else compatible wav

theorem length_words (data : List UInt8) : (words data).length = data.length / 2 := by
  induction data using words.induct with
  | case1 low high rest ih =>
    simp only [words, List.length_cons, ih]
    omega
  | case2 data short =>
    rw [words.eq_2 _ short]
    match data, short with
    | [], _ => rfl
    | [_], _ => simp
    | low :: high :: rest, short => exact (short low high rest rfl).elim

theorem words_drop (data : List UInt8) (count : Nat) : words (data.drop (count * 2)) = (words data).drop count := by
  induction count generalizing data with
  | zero => simp
  | succ count ih =>
    match data with
    | [] => simp [words]
    | [_] =>
      rw [Nat.succ_mul, List.drop_eq_nil_of_le (by simp)]
      simp [words]
    | low :: high :: rest =>
      rw [Nat.succ_mul, List.drop_succ_cons, List.drop_succ_cons, words, List.drop_succ_cons, ih]

theorem words_take (data : List UInt8) (count : Nat) : words (data.take (count * 2)) = (words data).take count := by
  induction count generalizing data with
  | zero => simp [words]
  | succ count ih =>
    match data with
    | [] => simp [words]
    | [_] =>
      rw [Nat.succ_mul, List.take_of_length_le (by simp)]
      simp [words]
    | low :: high :: rest =>
      rw [Nat.succ_mul, List.take_succ_cons, List.take_succ_cons, words, words, List.take_succ_cons, ih]

theorem words_block (data : List UInt8) (first count : Nat) : words ((data.drop (first * 2)).take (count * 2)) = slice (words data) first (first + count) := by
  rw [words_take, words_drop, slice, Nat.add_sub_cancel_left]

def loudest (samples : List Int) : Nat := (samples.map Int.natAbs).foldl max 0

theorem peak_eq (samples : List Int) : peak samples = (loudest samples : ℚ) / 32768 := rfl

theorem foldl_max (values : List Nat) (start : Nat) : values.foldl max start = max start (values.foldl max 0) := by
  induction values generalizing start with
  | nil => simp
  | cons first rest ih =>
    rw [List.foldl_cons, List.foldl_cons, ih, ih (max 0 first)]
    omega

theorem loudest_append (one other : List Int) : loudest (one ++ other) = max (loudest one) (loudest other) := by
  rw [loudest, List.map_append, List.foldl_append, foldl_max]
  rfl

@[simp] theorem peak_nil : peak [] = 0 := by simp [peak]

theorem peak_append (one other : List Int) : peak (one ++ other) = max (peak one) (peak other) := by
  have cast : ((max (loudest one) (loudest other) : Nat) : ℚ) = max (loudest one : ℚ) (loudest other) := Nat.cast_max _ _
  rw [peak_eq, peak_eq, peak_eq, loudest_append, cast, max_div_div_right (by norm_num)]

theorem loudest_cons (first : Int) (rest : List Int) : loudest (first :: rest) = max first.natAbs (loudest rest) := by
  rw [← List.singleton_append, loudest_append]
  simp [loudest]

theorem le_loudest (samples : List Int) {sample : Int} (member : sample ∈ samples) : sample.natAbs ≤ loudest samples := by
  induction samples with
  | nil => exact nomatch member
  | cons first rest ih =>
    rw [loudest_cons]
    rcases List.mem_cons.mp member with rfl | later
    · exact Nat.le_max_left ..
    · exact (ih later).trans (Nat.le_max_right ..)

theorem loudest_mem (samples : List Int) (some : samples ≠ []) : ∃ sample ∈ samples, sample.natAbs = loudest samples := by
  induction samples with
  | nil => exact (some rfl).elim
  | cons first rest ih =>
    rw [loudest_cons]
    rcases Nat.le_total (loudest rest) first.natAbs with less | more
    · exact ⟨first, List.mem_cons_self .., (Nat.max_eq_left less).symm⟩
    · by_cases last : rest = []
      · subst last
        exact ⟨first, List.mem_cons_self .., (Nat.max_eq_left (Nat.zero_le _)).symm⟩
      · obtain ⟨sample, member, same⟩ := ih last
        exact ⟨sample, List.mem_cons_of_mem _ member, same.trans (Nat.max_eq_right more).symm⟩

end NovelStudio.Waveform
