import Mathlib.Data.Nat.Digits.Defs
import Spotifile.Lib.Paths
import Spotifile.WavFile

/-!
# The header of a WAV file

`fill_wav_header` computes the size of the audio in bits, in `int` arithmetic, and both size fields
from it: the size of the RIFF chunk is that of the file less 8, and the size of the data chunk that
of the RIFF chunk less 44. The first is right as long as no product overflows
(`wav_size_exact_iff`). The second is 8 too small, since 36 bytes of the RIFF chunk are in front of
the audio and not 44; so no way of reading the header gives one that a parser accepts
(`wav_header_never_parses`).

`wav_parse` is such a parser. `Reads` are consecutive reads of a file from its start, each of them
on any path of `wav_read`, that is with whatever happens in the other threads.
-/

namespace Spotifile

open Lib

variable {β : Type}

/-! ## The size -/

/-- The exact products that `fill_wav_header` forms, in their order. -/
def fill_wav_header_products (channels rate duration : ℕ) : List ℕ :=
  [duration / 1000 * channels, duration / 1000 * channels * 16,
    duration / 1000 * channels * 16 * rate, rate * 16, rate * 16 * channels, 16 * channels]

/-- The exact value of the size of the RIFF chunk. -/
def wav_size (channels rate duration : ℕ) : ℕ := 36 + duration / 1000 * channels * 2 * rate

/-- No product overflows, and the stored size is the exact one. -/
structure SizeExact (channels rate duration : ℕ) : Prop where
  products : ∀ n ∈ fill_wav_header_products channels rate duration, n < 2 ^ 31
  size : (fill_wav_header channels rate duration).size.toNat = wav_size channels rate duration

/-- Without an overflow the bits are the exact product. -/
lemma wav_bits_eq {channels rate duration : ℕ}
    (h : ∀ n ∈ fill_wav_header_products channels rate duration, n < 2 ^ 31) :
    wav_bits channels rate duration = (duration / 1000 * channels * 16 * rate : ℕ) := by
  have hseconds : (duration : ℤ).tdiv 1000 = (duration / 1000 : ℕ) := by
    rw [Int.tdiv_eq_ediv_of_nonneg (by omega)]
    rfl
  have h₁ : int32 ((duration / 1000 : ℕ) * channels) = (duration / 1000 * channels : ℕ) :=
    mod_cast int32_eq (h _ (by simp [fill_wav_header_products]))
  have h₂ : int32 ((duration / 1000 * channels : ℕ) * 16) = (duration / 1000 * channels * 16 : ℕ) :=
    mod_cast int32_eq (h _ (by simp [fill_wav_header_products]))
  have h₃ : int32 ((duration / 1000 * channels * 16 : ℕ) * rate) =
      (duration / 1000 * channels * 16 * rate : ℕ) :=
    mod_cast int32_eq (h _ (by simp [fill_wav_header_products]))
  rw [wav_bits, hseconds, h₁, h₂, h₃]

/-- Without an overflow the size is the exact one. -/
lemma fill_wav_header_size {channels rate duration : ℕ}
    (h : ∀ n ∈ fill_wav_header_products channels rate duration, n < 2 ^ 31) :
    (fill_wav_header channels rate duration).size.toNat = wav_size channels rate duration := by
  have hlt : duration / 1000 * channels * 16 * rate < 2 ^ 31 :=
    h _ (by simp [fill_wav_header_products])
  have hbits : duration / 1000 * channels * 16 * rate =
      8 * (duration / 1000 * channels * 2 * rate) := by ring
  have hbytes : ((duration / 1000 * channels * 16 * rate : ℕ) : ℤ).tdiv 8 =
      (duration / 1000 * channels * 2 * rate : ℕ) := by
    rw [Int.tdiv_eq_ediv_of_nonneg (by omega)]
    omega
  have hsize : ((sizeof_wav_header : ℤ) + (duration / 1000 * channels * 2 * rate : ℕ) - 8) =
      (wav_size channels rate duration : ℕ) := by
    unfold wav_size sizeof_wav_header
    omega
  show (UInt32.ofNat (size_t (sizeof_wav_header +
    (wav_bits channels rate duration).tdiv 8 - 8))).toNat = _
  have hwav : wav_size channels rate duration < 2 ^ 32 := by
    unfold wav_size
    omega
  rw [wav_bits_eq h, hbytes, hsize, size_t_eq (by omega)]
  exact UInt32.toNat_ofNat_of_lt' hwav

/-- The products do not overflow exactly if the bits of a second, and those of the whole file, fit
into an `int`. -/
lemma products_lt_iff (channels rate duration : ℕ) :
    (∀ n ∈ fill_wav_header_products channels rate duration, n < 2 ^ 31) ↔
      16 * max (max 1 (duration / 1000) * channels * max 1 rate) rate < 2 ^ 31 := by
  simp only [fill_wav_header_products, List.mem_cons, List.not_mem_nil, or_false,
    forall_eq_or_imp, forall_eq]
  generalize duration / 1000 = seconds
  have hcomm : seconds * channels * 16 * rate = 16 * (seconds * channels * rate) := by ring
  have hsecond : rate * 16 * channels = 16 * (channels * rate) := by ring
  constructor
  · rintro ⟨-, hseconds, hall, hrate, hrates, hchannels⟩
    rw [← Nat.mul_max_mul_left, max_lt_iff]
    refine ⟨?_, by omega⟩
    rcases max_choice 1 seconds with hs | hs <;> rcases max_choice 1 rate with hr | hr <;>
      rw [hs, hr]
    · omega
    · rw [Nat.one_mul]
      omega
    · omega
    · omega
  · intro h
    rw [← Nat.mul_max_mul_left, max_lt_iff] at h
    obtain ⟨h, hrate⟩ := h
    have hs : seconds ≤ max 1 seconds := le_max_right 1 seconds
    have hr : rate ≤ max 1 rate := le_max_right 1 rate
    have hs₁ : 1 ≤ max 1 seconds := le_max_left 1 seconds
    have hr₁ : 1 ≤ max 1 rate := le_max_left 1 rate
    have hone := Nat.mul_le_mul (Nat.mul_le_mul hs (Nat.le_refl channels)) hr₁
    have hall := Nat.mul_le_mul (Nat.mul_le_mul hs (Nat.le_refl channels)) hr
    have hrates := Nat.mul_le_mul (Nat.mul_le_mul hs₁ (Nat.le_refl channels)) hr
    have hchannels := Nat.mul_le_mul (Nat.mul_le_mul hs₁ (Nat.le_refl channels)) hr₁
    rw [Nat.one_mul] at hrates hchannels
    exact ⟨by omega, by omega, by omega, by omega, by omega, by omega⟩

/-- The size is computed without an overflow, and right, exactly if the bits of a second and those
of the whole file fit into an `int`. The file itself then fits into its 32 bits by far. -/
theorem wav_size_exact_iff (channels rate duration : ℕ) :
    SizeExact channels rate duration ↔
      16 * max (max 1 (duration / 1000) * channels * max 1 rate) rate < 2 ^ 31 := by
  rw [← products_lt_iff]
  constructor
  · intro h
    exact h.products
  · intro h
    exact ⟨h, fill_wav_header_size h⟩

/-- A stereo file of 25 minutes and 22 seconds has less than 2 ^ 29 bytes, but more than 2 ^ 31
bits. -/
theorem not_wav_size_exact : ¬ ∀ channels rate duration : ℕ,
    wav_size channels rate duration < 2 ^ 32 → SizeExact channels rate duration := by
  intro h
  have hproducts := (h 2 44100 1522000 (by decide)).products (1522000 / 1000 * 2 * 16 * 44100)
  exact absurd (hproducts (by decide)) (by decide)

/-! ## A parser of WAV files -/

/-- The number that the bytes stand for, the least significant first. -/
def le_value (bytes : List UInt8) : ℕ := Nat.ofDigits 256 (bytes.map UInt8.toNat)

/-- Reading a number back. -/
lemma le_value_little_endian (n value : ℕ) :
    le_value (little_endian n value) = value % 256 ^ n := by
  induction n generalizing value with
  | zero => simp [little_endian, le_value, Nat.mod_one]
  | succ n ih =>
    have hbyte : (UInt8.ofNat value).toNat = value % 256 := UInt8.toNat_ofNat'
    have hrest := ih (value / 256)
    unfold le_value at hrest ⊢
    rw [little_endian, List.map_cons, Nat.ofDigits_cons, hrest, hbyte, Nat.pow_succ', Nat.mod_mul]

/-- `n` bytes from the offset on. -/
def field (offset n : ℕ) (bytes : List UInt8) : List UInt8 := (bytes.drop offset).take n

/-- What a parser reads from a header. -/
structure WavFormat where
  channels : ℕ
  sample_rate : ℕ
  data_size : ℕ
deriving DecidableEq, Repr

/-- A parser of the canonical header of a PCM file with samples of 16 bits. -/
def wav_parse (bytes : List UInt8) : Option WavFormat :=
  let channels := le_value (field 22 2 bytes)
  let sample_rate := le_value (field 24 4 bytes)
  let data_size := le_value (field 40 4 bytes)
  if field 0 4 bytes = [0x52, 0x49, 0x46, 0x46] ∧ le_value (field 4 4 bytes) = 36 + data_size ∧
      field 8 4 bytes = [0x57, 0x41, 0x56, 0x45] ∧ field 12 4 bytes = [0x66, 0x6d, 0x74, 0x20] ∧
      le_value (field 16 4 bytes) = 16 ∧ le_value (field 20 2 bytes) = 1 ∧
      le_value (field 28 4 bytes) = sample_rate * channels * 2 ∧
      le_value (field 32 2 bytes) = channels * 2 ∧ le_value (field 34 2 bytes) = 16 ∧
      field 36 4 bytes = [0x64, 0x61, 0x74, 0x61] then
    some ⟨channels, sample_rate, data_size⟩
  else none

/-- The parser on the memory of a header. -/
lemma wav_parse_bytes (h : wav_header) : wav_parse h.bytes =
    if h.riff.toList = [0x52, 0x49, 0x46, 0x46] ∧ h.size.toNat = 36 + h.data_size.toNat ∧
      h.type.toList = [0x57, 0x41, 0x56, 0x45] ∧ h.fmt.toList = [0x66, 0x6d, 0x74, 0x20] ∧
      h.fmt_size.toNat = 16 ∧ h.fmt_type.toNat = 1 ∧
      h.byte_rate.toNat = h.sample_rate.toNat * h.channels.toNat * 2 ∧
      h.block_align.toNat = h.channels.toNat * 2 ∧ h.bits_per_sample.toNat = 16 ∧
      h.data.toList = [0x64, 0x61, 0x74, 0x61] then
      some ⟨h.channels.toNat, h.sample_rate.toNat, h.data_size.toNat⟩
    else none := by
  have hfour (n : UInt32) : le_value (little_endian 4 n.toNat) = n.toNat := by
    rw [le_value_little_endian, Nat.mod_eq_of_lt]
    exact n.toNat_lt
  have htwo (n : UInt16) : le_value (little_endian 2 n.toNat) = n.toNat := by
    rw [le_value_little_endian, Nat.mod_eq_of_lt]
    exact n.toNat_lt
  simp (disch := simp) only [wav_parse, wav_header.bytes, field, List.take_append,
    List.drop_append, List.drop_of_length_le, List.take_of_length_le, List.length_append,
    length_little_endian, Vector.length_toList, List.nil_append, List.append_nil, Nat.reduceSub,
    Nat.reduceAdd, List.drop_zero, List.take_zero, hfour, htwo]

/-- The size of the data chunk is never the one that goes with the RIFF chunk. -/
lemma wav_parse_fill_wav_header (channels rate duration : ℤ) :
    wav_parse (fill_wav_header channels rate duration).bytes = none := by
  have hdata : ∀ size : UInt32, size.toNat ≠ 36 + (size - 44).toNat := by
    intro size
    have := size.toNat_lt
    rw [UInt32.toNat_sub, show (44 : UInt32).toNat = 44 from rfl]
    omega
  rw [wav_parse_bytes, if_neg]
  rintro ⟨-, hsize, -⟩
  exact hdata _ hsize

/-- A number of 32 bits is kept. -/
lemma toNat_ofInt_32 {n : ℕ} (h : n < 2 ^ 32) : (UInt32.ofInt n).toNat = n := by
  have hmod : ((n : ℤ) % 2 ^ 32).toNat = n := by omega
  rw [UInt32.ofInt, hmod]
  exact UInt32.toNat_ofNat_of_lt' h

/-- A number of 16 bits is kept. -/
lemma toNat_ofInt_16 {n : ℕ} (h : n < 2 ^ 16) : (UInt16.ofInt n).toNat = n := by
  have hmod : ((n : ℤ) % 2 ^ 16).toNat = n := by omega
  rw [UInt16.ofInt, hmod]
  exact UInt16.toNat_ofNat_of_lt' h

/-- Bytes from bits. -/
lemma tdiv_eight (n : ℕ) : ((n * 16 : ℕ) : ℤ).tdiv 8 = (n * 2 : ℕ) := by
  rw [Int.tdiv_eq_ediv_of_nonneg (by omega)]
  omega

/-- With 36 in place of 44 the header would be right. -/
theorem wav_parse_corrected {channels rate duration : ℕ}
    (h : ∀ n ∈ fill_wav_header_products channels rate duration, n < 2 ^ 31)
    (hchannels : channels < 2 ^ 15) :
    let header := fill_wav_header channels rate duration
    wav_parse { header with data_size := header.size - 36 }.bytes =
      some ⟨channels, rate, duration / 1000 * rate * channels * 2⟩ := by
  have hsize := fill_wav_header_size h
  have hdata : ((fill_wav_header channels rate duration).size - 36).toNat =
      duration / 1000 * rate * channels * 2 := by
    have hlt := (fill_wav_header channels rate duration).size.toNat_lt
    have hexact : wav_size channels rate duration =
        36 + duration / 1000 * rate * channels * 2 := by
      unfold wav_size
      ring
    rw [UInt32.toNat_sub, show (36 : UInt32).toNat = 36 from rfl]
    omega
  have hrate : rate * 16 < 2 ^ 31 := h _ (by simp [fill_wav_header_products])
  have hrates : rate * 16 * channels < 2 ^ 31 := h _ (by simp [fill_wav_header_products])
  have hcomm : rate * 16 * channels = rate * channels * 16 := by ring
  have hbyte_rate : (fill_wav_header channels rate duration).byte_rate.toNat =
      rate * channels * 2 := by
    have h₁ : int32 (rate * 16) = (rate * 16 : ℕ) := mod_cast int32_eq hrate
    have h₂ : int32 ((rate * 16 : ℕ) * channels) = (rate * 16 * channels : ℕ) :=
      mod_cast int32_eq hrates
    show (UInt32.ofInt ((int32 (int32 (rate * 16) * channels)).tdiv 8)).toNat = _
    rw [h₁, h₂, hcomm, tdiv_eight, toNat_ofInt_32 (by omega)]
  have hblock_align : (fill_wav_header channels rate duration).block_align.toNat =
      channels * 2 := by
    have h₁ : int32 (16 * channels) = (channels * 16 : ℕ) := by
      rw [Nat.mul_comm]
      exact mod_cast int32_eq (n := 16 * channels) (by omega)
    show (UInt16.ofInt ((int32 (16 * channels)).tdiv 8)).toNat = _
    rw [h₁, tdiv_eight, toNat_ofInt_16 (by omega)]
  have hrate_field : (fill_wav_header channels rate duration).sample_rate.toNat = rate :=
    toNat_ofInt_32 (by omega)
  have hchannels_field : (fill_wav_header channels rate duration).channels.toNat = channels :=
    toNat_ofInt_16 (by omega)
  intro header
  rw [wav_parse_bytes, if_pos]
  · simp only [header, hchannels_field, hrate_field, hdata]
  · simp only [header, hchannels_field, hrate_field, hdata, hsize, hbyte_rate, hblock_align,
      true_and]
    refine ⟨rfl, ?_, rfl, rfl, rfl, rfl, rfl, rfl⟩
    unfold wav_size
    ring

/-! ## Consecutive reads -/

/-- What `spotify_get_track_info` returned, where that is what was executed. -/
def ran_track_info : Ran (Instr β) → Option track_info
  | ⟨.track_info, info⟩ => some info
  | _ => none

/-- Consecutive reads of the file from its start, with these sizes and these bytes. Whenever a read
asks for the track information it gets `info`; apart from that anything may happen in between. -/
inductive Reads (track : sp_track) (info : track_info) : List ℕ → List (UInt8 ⊕ β) → Prop
  | start : Reads track info [] []
  | read {sizes : List ℕ} {bytes more : List (UInt8 ⊕ β)} {size : ℕ} {ran : List (Ran (Instr β))} :
      Reads track info sizes bytes →
      (wav_read track size bytes.length).Ends ran (some more) →
      (∀ x ∈ ran, ∀ i ∈ ran_track_info x, i = info) →
      Reads track info (sizes ++ [size]) (bytes ++ more)

/-- The bytes start with a header that a parser accepts, with the size of the audio, and go on with
audio. -/
structure ReadAsWav (channels rate duration : ℕ) (bytes : List (UInt8 ⊕ β)) : Prop where
  header : ∃ h, bytes.take 44 = h.map .inl ∧
    wav_parse h = some ⟨channels, rate, duration / 1000 * rate * channels * 2⟩
  audio : ∀ b ∈ bytes.drop 44, b.isRight

/-- The bytes are a header as far as they go, and audio behind it. -/
def FileStart (h : wav_header) (bytes : List (UInt8 ⊕ β)) : Prop :=
  ∃ n audio, bytes = (h.bytes.take n).map .inl ++ audio.map .inr ∧ n ≤ 44 ∧ (audio ≠ [] → n = 44)

variable {track : sp_track} {info : track_info} {buf : List UInt8} {size offset : ℕ}
  {ran : List (Ran (Instr β))} {bytes : List (UInt8 ⊕ β)}

/-- The audio is put behind what is in the buffer, and only if the header has been read. -/
lemma ends_wav_read_audio (h : (wav_read_audio buf size offset).Ends ran bytes) :
    ∃ audio : List β, bytes = buf.map .inl ++ audio.map .inr ∧
      (audio ≠ [] → 44 ≤ offset + buf.length) := by
  unfold wav_read_audio at h
  obtain ⟨_, _, audio, -, haudio, h⟩ := Prog.ends_bind.mp h
  obtain ⟨_, _, _, -, -, h⟩ := Prog.ends_bind.mp h
  obtain ⟨_, _, _, -, -, h⟩ := Prog.ends_bind.mp h
  obtain ⟨-, rfl⟩ := Prog.ends_ret.mp h
  refine ⟨audio, rfl, fun hne => ?_⟩
  unfold wav_audio at haudio
  split at haudio
  · next hcond => exact hcond.2
  · exact absurd (Prog.ends_ret.mp haudio).2 hne

/-- With or without a seek. -/
lemma ends_wav_read_seek (h : (wav_read_seek buf size offset).Ends ran bytes) :
    bytes = [] ∨ ∃ audio : List β, bytes = buf.map .inl ++ audio.map .inr ∧
      (audio ≠ [] → 44 ≤ offset + buf.length) := by
  unfold wav_read_seek at h
  obtain ⟨_, _, expoff, -, -, h⟩ := Prog.ends_bind.mp h
  split at h
  · obtain ⟨_, _, info, -, -, h⟩ := Prog.ends_bind.mp h
    split at h
    · exact .inl (Prog.ends_ret.mp h).2
    · obtain ⟨_, _, _, -, -, h⟩ := Prog.ends_bind.mp h
      obtain ⟨_, _, _, -, -, h⟩ := Prog.ends_bind.mp h
      exact .inr (ends_wav_read_audio h)
  · exact .inr (ends_wav_read_audio h)

/-- A read below the offset 44 copies the header of the information that it got. -/
lemma ends_wav_read_bytes (h : (wav_read_bytes size offset).Ends ran bytes)
    (hinfo : ∀ x ∈ ran, ∀ i ∈ ran_track_info x, i = info) :
    bytes = [] ∨ ∃ (buf : List UInt8) (audio : List β), bytes = buf.map .inl ++ audio.map .inr ∧
      (audio ≠ [] → 44 ≤ offset + buf.length) ∧ buf = if offset < 44 then
        (fill_wav_header info.channels info.rate info.duration).slice size offset else [] := by
  unfold wav_read_bytes at h
  split at h
  · next hlt =>
    unfold wav_read_header spotify_get_track_info at h
    rw [Prog.of_bind] at h
    obtain ⟨got, rest, rfl, hrest⟩ := Prog.ends_call.mp h
    obtain rfl : got = info := hinfo ⟨.track_info, got⟩ List.mem_cons_self got rfl
    split at hrest
    · exact .inl (Prog.ends_ret.mp hrest).2
    · rcases ends_wav_read_seek hrest with hnil | ⟨audio, hbytes, haudio⟩
      · exact .inl hnil
      · exact .inr ⟨_, audio, hbytes, haudio, (if_pos hlt).symm⟩
  · next hge =>
    rcases ends_wav_read_seek h with hnil | ⟨audio, hbytes, haudio⟩
    · exact .inl hnil
    · exact .inr ⟨[], audio, hbytes, haudio, (if_neg hge).symm⟩

/-- What `wav_read` returns is what it has filled in. -/
lemma ends_wav_read (h : (wav_read track size offset).Ends ran (some bytes)) :
    ∃ ran', (wav_read_bytes size offset).Ends ran' bytes ∧ ∀ x ∈ ran', x ∈ ran := by
  unfold wav_read at h
  obtain ⟨l₁, l₂, ok, rfl, -, h⟩ := Prog.ends_bind.mp h
  split at h
  · obtain ⟨l₃, l₄, got, rfl, hbytes, h⟩ := Prog.ends_bind.mp h
    obtain ⟨_, _, _, -, -, h⟩ := Prog.ends_bind.mp h
    obtain rfl : bytes = got := Option.some.inj (Prog.ends_ret.mp h).2
    exact ⟨l₃, hbytes, fun x hx => by simp [hx]⟩
  · cases (Prog.ends_ret.mp h).2

/-- The next read goes on where the header or the audio has ended. -/
lemma FileStart.read {more : List (UInt8 ⊕ β)}
    (hs : FileStart (fill_wav_header info.channels info.rate info.duration) bytes)
    (h : (wav_read track size bytes.length).Ends ran (some more))
    (hinfo : ∀ x ∈ ran, ∀ i ∈ ran_track_info x, i = info) :
    FileStart (fill_wav_header info.channels info.rate info.duration) (bytes ++ more) := by
  obtain ⟨ran', hbytes, hsub⟩ := ends_wav_read h
  have hmore := ends_wav_read_bytes hbytes fun x hx => hinfo x (hsub x hx)
  generalize fill_wav_header info.channels info.rate info.duration = header at hs hmore ⊢
  have hlen : header.bytes.length = 44 := header.length_bytes
  obtain ⟨n, audio, rfl, hn, haudio⟩ := hs
  rcases hmore with rfl | ⟨buf, audio', rfl, haudio', hbuf⟩
  · rw [List.append_nil]
    exact ⟨n, audio, rfl, hn, haudio⟩
  · have hlength : ((header.bytes.take n).map (Sum.inl (β := β)) ++
        audio.map (Sum.inr (α := UInt8))).length = n + audio.length := by
      simp only [List.length_append, List.length_map, List.length_take, hlen]
      omega
    rw [hlength] at hbuf haudio'
    by_cases hnil : audio = []
    · subst hnil
      rw [List.length_nil, Nat.add_zero] at hbuf haudio'
      by_cases hlt : n < 44
      · -- the header goes on with what the slice has
        rw [if_pos hlt] at hbuf
        unfold wav_header.slice sizeof_wav_header at hbuf
        generalize hread : (if n + size > 44 then 44 - n else size) = read at hbuf
        have hle : n + read ≤ 44 := by
          rw [← hread]
          split <;> omega
        have hbuflen : buf.length ≤ read := by
          rw [hbuf]
          exact List.length_take_le _ _
        refine ⟨n + read, audio', ?_, hle, ?_⟩
        · rw [List.take_add, ← hbuf, List.map_append, List.map_nil, List.append_nil,
            List.append_assoc]
        · intro hne
          have := haudio' hne
          omega
      · obtain rfl : n = 44 := by omega
        rw [if_neg hlt] at hbuf
        subst hbuf
        exact ⟨44, audio', by simp, by omega, fun _ => rfl⟩
    · obtain rfl := haudio hnil
      rw [if_neg (by omega)] at hbuf
      subst hbuf
      exact ⟨44, audio ++ audio', by simp, by omega, fun _ => rfl⟩

variable {sizes : List ℕ}

/-- Consecutive reads return the header, in whatever pieces, and the audio behind it. -/
theorem reads_fileStart (h : Reads track info sizes bytes) :
    FileStart (fill_wav_header info.channels info.rate info.duration) bytes := by
  induction h with
  | start => exact ⟨0, [], rfl, by omega, by simp⟩
  | read _ hread hinfo ih => exact ih.read hread hinfo

/-- The first 44 bytes are the header, and the others are audio. -/
lemma FileStart.split {h : wav_header} (hs : FileStart h bytes) (hlen : 44 ≤ bytes.length) :
    bytes.take 44 = h.bytes.map .inl ∧ ∀ b ∈ bytes.drop 44, b.isRight := by
  have hheader : (h.bytes.map (Sum.inl (β := β))).length = 44 := by
    rw [List.length_map]
    exact h.length_bytes
  obtain ⟨n, audio, rfl, hn, haudio⟩ := hs
  have hall : n = 44 := by
    by_cases hnil : audio = []
    · subst hnil
      rw [List.map_nil, List.append_nil, List.length_map, List.length_take] at hlen
      omega
    · exact haudio hnil
  have htake : h.bytes.take n = h.bytes := by
    rw [hall]
    exact List.take_of_length_le h.length_bytes.le
  rw [htake, List.take_append_of_le_length hheader.ge, List.drop_append_of_le_length hheader.ge,
    List.take_of_length_le hheader.le, List.drop_of_length_le hheader.le, List.nil_append]
  refine ⟨rfl, fun b hb => ?_⟩
  obtain ⟨a, -, rfl⟩ := List.mem_map.mp hb
  rfl

/-- A read of the header of a track that is playing already. -/
def read_header (info : track_info) : List (Ran (Instr ℕ)) :=
  [⟨.get_playing, some 1⟩, ⟨.played 1, ()⟩, ⟨.track_info, info⟩, ⟨.get_expoff, 0⟩,
    ⟨.get_expoff, 0⟩, ⟨.set_expoff 44, ()⟩,
    ⟨.wav_returned 1 0 44
      ((fill_wav_header info.channels info.rate info.duration).bytes.map .inl), ()⟩]

/-- A read of the header alone, for half a second of audio. -/
lemma reads_half_second : Reads 1 ⟨500, 2, 44100⟩ [44]
    ((fill_wav_header 2 44100 500).bytes.map (Sum.inl (β := ℕ))) := by
  have hends : (wav_read 1 44 0).Ends (read_header ⟨500, 2, 44100⟩)
      (some ((fill_wav_header 2 44100 500).bytes.map (Sum.inl (β := ℕ)))) := by
    repeat apply Prog.Path.step
    exact Prog.Path.here _
  exact .read .start hends (by decide)

/-- However the header is read, no parser accepts it with the size of the audio: its size of the
data chunk does not go with that of the RIFF chunk, for any format and duration. -/
theorem wav_header_never_parses {channels rate duration : ℕ}
    (h : Reads track ⟨duration, channels, rate⟩ sizes bytes) (hlen : 44 ≤ bytes.length) :
    ¬ ReadAsWav channels rate duration bytes := by
  rintro ⟨⟨header, hheader, hparse⟩, -⟩
  have hbytes := ((reads_fileStart h).split hlen).1
  have hinj : Function.Injective (Sum.inl : UInt8 → UInt8 ⊕ β) := Sum.inl_injective
  obtain rfl := hinj.list_map (hheader.symm.trans hbytes)
  rw [wav_parse_fill_wav_header] at hparse
  cases hparse

/-- The theorem at a stereo track of half a second. -/
theorem wav_header_never_parses_half_second : ∃ bytes : List (UInt8 ⊕ ℕ),
    Reads 1 ⟨500, 2, 44100⟩ [44] bytes ∧ ¬ ReadAsWav 2 44100 500 bytes :=
  ⟨_, reads_half_second, wav_header_never_parses reads_half_second (by decide)⟩

/-- The size of its data chunk is -8 in 32 bits, where it should be 0. -/
theorem not_wav_header_parses : ¬ ∀ (track : sp_track) (channels rate duration : ℕ)
    (sizes : List ℕ) (bytes : List (UInt8 ⊕ ℕ)), 0 < channels → 0 < rate →
    (∀ n ∈ fill_wav_header_products channels rate duration, n < 2 ^ 31) →
    Reads track ⟨duration, channels, rate⟩ sizes bytes → 44 ≤ bytes.length →
    ReadAsWav channels rate duration bytes := by
  intro h
  obtain ⟨⟨header, hheader, hparse⟩, -⟩ := h 1 2 44100 500 [44] _ (by decide) (by decide)
    (by decide) reads_half_second (by decide)
  have hinj : Function.Injective (Sum.inl : UInt8 → UInt8 ⊕ ℕ) := Sum.inl_injective
  obtain rfl : header = (fill_wav_header 2 44100 500).bytes :=
    hinj.list_map (hheader.symm.trans (List.take_of_length_le (by decide)))
  rw [wav_parse_fill_wav_header] at hparse
  cases hparse

end Spotifile
