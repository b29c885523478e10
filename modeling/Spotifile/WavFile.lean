import Spotifile.Playback

/-!
# The WAV files: `spfs_fuse_audiofile.c`

A `track.wav` is never stored: `wav_read` builds its header afresh in every read that touches it,
and takes the audio from the queue. `expoff` is the offset at which the queue stands; a read at
another offset seeks first.

C's `int` arithmetic wraps here at 32 bits (where the standard leaves it undefined), `size_t`
arithmetic at 64. The handle that FUSE passes is the track of the open file, its `auxdata`.
-/

namespace Spotifile

open Lib

variable {β : Type}

/-! ## The header -/

/-- A C `int`. -/
def int32 (n : ℤ) : ℤ := n.bmod (2 ^ 32)

/-- What fits is not changed. -/
lemma int32_eq {n : ℕ} (h : n < 2 ^ 31) : int32 n = n := by
  unfold int32
  rw [Int.bmod_eq_of_le] <;> omega

/-- The conversion to `size_t`. -/
def size_t (n : ℤ) : ℕ := (n % 2 ^ 64).toNat

/-- A number that fits is kept. -/
lemma size_t_eq {n : ℕ} (h : n < 2 ^ 64) : size_t n = n := by
  unfold size_t
  rw [Int.emod_eq_of_lt (by omega) (by omega), Int.toNat_natCast]

/-- The `n` bytes of a number, the least significant first. -/
def little_endian : ℕ → ℕ → List UInt8
  | 0, _ => []
  | n + 1, value => UInt8.ofNat value :: little_endian n (value / 256)

/-- A number is written in as many bytes as were asked for. -/
@[simp] lemma length_little_endian (n value : ℕ) : (little_endian n value).length = n := by
  induction n generalizing value with
  | zero => rfl
  | succ n ih => simp [little_endian, ih]

/-- Source: `spfs_fuse_audiofile.c`, `struct wav_header`. -/
structure wav_header where
  riff : Vector UInt8 4
  size : UInt32
  type : Vector UInt8 4
  fmt : Vector UInt8 4
  fmt_size : UInt32
  fmt_type : UInt16
  channels : UInt16
  sample_rate : UInt32
  byte_rate : UInt32
  block_align : UInt16
  bits_per_sample : UInt16
  data : Vector UInt8 4
  data_size : UInt32
deriving DecidableEq

/-- The memory of a header; the fields leave no gaps. -/
def wav_header.bytes (h : wav_header) : List UInt8 :=
  h.riff.toList ++ little_endian 4 h.size.toNat ++ h.type.toList ++ h.fmt.toList ++
    little_endian 4 h.fmt_size.toNat ++ little_endian 2 h.fmt_type.toNat ++
    little_endian 2 h.channels.toNat ++ little_endian 4 h.sample_rate.toNat ++
    little_endian 4 h.byte_rate.toNat ++ little_endian 2 h.block_align.toNat ++
    little_endian 2 h.bits_per_sample.toNat ++ h.data.toList ++ little_endian 4 h.data_size.toNat

/-- `sizeof(struct wav_header)`. -/
def sizeof_wav_header : ℕ := 44

/-- The header has 44 bytes. -/
lemma wav_header.length_bytes (h : wav_header) : h.bytes.length = sizeof_wav_header := by
  simp [bytes, sizeof_wav_header]

/-- The product under the size of the header, in `int` arithmetic from left to right.
Source: `spfs_fuse_audiofile.c`, `fill_wav_header`. -/
def wav_bits (channels rate duration : ℤ) : ℤ :=
  int32 (int32 (int32 (duration.tdiv 1000 * channels) * 16) * rate)

/-- Source: `spfs_fuse_audiofile.c`, `fill_wav_header`. -/
def fill_wav_header (channels rate duration : ℤ) : wav_header :=
  let size :=
    UInt32.ofNat (size_t (sizeof_wav_header + (wav_bits channels rate duration).tdiv 8 - 8))
  { riff := #v[0x52, 0x49, 0x46, 0x46]
    bits_per_sample := 16
    size := size
    type := #v[0x57, 0x41, 0x56, 0x45]
    fmt := #v[0x66, 0x6d, 0x74, 0x20]
    fmt_size := 16
    fmt_type := 1
    channels := UInt16.ofInt channels
    sample_rate := UInt32.ofInt rate
    byte_rate := UInt32.ofInt ((int32 (int32 (rate * 16) * channels)).tdiv 8)
    block_align := UInt16.ofInt ((int32 (16 * channels)).tdiv 8)
    data := #v[0x64, 0x61, 0x74, 0x61]
    data_size := size - 44 }

/-! ## The operations -/

/-- The bytes of the header that a read at `offset` copies.
Source: `spfs_fuse_audiofile.c`, `wav_read`. -/
def wav_header.slice (h : wav_header) (size offset : ℕ) : List UInt8 :=
  let read := if offset + size > sizeof_wav_header then sizeof_wav_header - offset else size
  (h.bytes.drop offset).take read

/-- The bytes of a second, by which a read divides its offset.
Source: `spfs_fuse_audiofile.c`, `wav_read`. -/
def bytes_p_s (channels rate : ℤ) : ℕ := size_t ((int32 (int32 (channels * 16) * rate)).tdiv 8)

/-- The position to which a read at `offset` seeks.
Source: `spfs_fuse_audiofile.c`, `wav_read`. -/
def ms_offset (channels rate : ℤ) (offset : ℕ) : ℤ :=
  int32 (size_t ((size_t offset / bytes_p_s channels rate : ℕ) * 1000))

/-- Without an overflow the divisor is the number of bytes in a second. -/
lemma bytes_p_s_eq {channels rate : ℕ} (hrate : 0 < rate) (hbits : channels * 16 * rate < 2 ^ 31) :
    bytes_p_s channels rate = 2 * channels * rate := by
  have hchannels : channels * 16 ≤ channels * 16 * rate := Nat.le_mul_of_pos_right _ hrate
  have height : channels * 16 * rate = 8 * (2 * channels * rate) := by ring
  have hsixteen : int32 (channels * 16) = (channels * 16 : ℕ) :=
    mod_cast int32_eq (n := channels * 16) (by omega)
  have hproduct : int32 ((channels * 16 : ℕ) * rate) = (8 * (2 * channels * rate) : ℕ) := by
    rw [← height]
    exact mod_cast int32_eq hbits
  have hbytes : ((8 * (2 * channels * rate) : ℕ) : ℤ).tdiv 8 = (2 * channels * rate : ℕ) := by
    rw [Int.tdiv_eq_ediv_of_nonneg (by omega)]
    omega
  rw [bytes_p_s, hsixteen, hproduct, hbytes, size_t_eq (by omega)]

/-- If nothing is cut off either, the position is the second in which the offset lies. -/
lemma ms_offset_eq {channels rate offset : ℕ} (hrate : 0 < rate)
    (hbits : channels * 16 * rate < 2 ^ 31) (hoffset : offset < 2 ^ 64)
    (hms : offset / (2 * channels * rate) * 1000 < 2 ^ 31) :
    ms_offset channels rate offset = (offset / (2 * channels * rate) * 1000 : ℕ) := by
  have hsize : size_t ((offset / (2 * channels * rate) : ℕ) * 1000) =
      offset / (2 * channels * rate) * 1000 :=
    mod_cast size_t_eq (n := offset / (2 * channels * rate) * 1000) (by omega)
  rw [ms_offset, bytes_p_s_eq hrate hbits, size_t_eq hoffset, hsize]
  exact int32_eq hms

/-- The audio that a read takes from the queue. `buf` is what has been filled in of the buffer, so
that its length is `read`; the header comes first.
Source: `spfs_fuse_audiofile.c`, `wav_read`. -/
def wav_audio (buf : List UInt8) (size offset : ℕ) : Prog (Instr β) (List β) :=
  if buf.length < size ∧ offset + buf.length ≥ sizeof_wav_header then
    spotify_get_audio (size - buf.length)
  else pure []

/-- `wav_read` from where the audio is read.
Source: `spfs_fuse_audiofile.c`, `wav_read`. -/
def wav_read_audio (buf : List UInt8) (size offset : ℕ) :
    Prog (Instr β) (List (UInt8 ⊕ β)) := do
  let audio ← wav_audio buf size offset
  let expoff ← .of .get_expoff
  .of (.set_expoff (expoff + (buf.length + audio.length)))
  pure (buf.map .inl ++ audio.map .inr)

/-- `wav_read` from the comparison of `expoff` and `offset`.
Source: `spfs_fuse_audiofile.c`, `wav_read`. -/
def wav_read_seek (buf : List UInt8) (size offset : ℕ) :
    Prog (Instr β) (List (UInt8 ⊕ β)) := do
  let expoff ← .of .get_expoff
  if expoff ≠ offset then do
    let info ← spotify_get_track_info
    if info.duration < 0 then pure []
    else do
      -- a position past the end of the track only warns
      spotify_seek_track (ms_offset info.channels info.rate offset)
      .of (.set_expoff offset)
      wav_read_audio buf size offset
  else wav_read_audio buf size offset

/-- `wav_read` on the first bytes of a file, from where the header is made.
Source: `spfs_fuse_audiofile.c`, `wav_read`. -/
def wav_read_header (size offset : ℕ) : Prog (Instr β) (List (UInt8 ⊕ β)) := do
  let info ← spotify_get_track_info
  if info.duration < 0 then pure []
  else do
    let header := fill_wav_header info.channels info.rate info.duration
    wav_read_seek (header.slice size offset) size offset

/-- `wav_read` once the track is playing: the buffer that it fills.
Source: `spfs_fuse_audiofile.c`, `wav_read`. -/
def wav_read_bytes (size offset : ℕ) : Prog (Instr β) (List (UInt8 ⊕ β)) :=
  if offset < sizeof_wav_header then wav_read_header size offset else wav_read_seek [] size offset

/-- A read at offset 0 starts the track.
Source: `spfs_fuse_audiofile.c`, `wav_read`. -/
def wav_start (track : sp_track) (offset : ℕ) : Prog (Instr β) Bool :=
  if offset = 0 then spotify_play_track track else pure true

/-- `wav_read` on the file of `track`; `none` stands for the result `-EINVAL`.
Source: `spfs_fuse_audiofile.c`, `wav_read`. -/
def wav_read (track : sp_track) (size offset : ℕ) :
    Prog (Instr β) (Option (List (UInt8 ⊕ β))) := do
  let ok ← wav_start track offset
  if ok then do
    let bytes ← wav_read_bytes size offset
    .of (.wav_returned track offset size bytes)
    pure (some bytes)
  else pure none

/-- The calls that start a thread: those of the WAV files, and the callbacks. -/
inductive WavCall (β : Type)
  | wav_open (track : sp_track)
  | wav_read (track : sp_track) (size offset : ℕ)
  | wav_release
  | callback (c : Call β)

/-- The program of a call. -/
def WavCall.prog : WavCall β → Prog (Instr β) Unit
  | .wav_open track => do let _ ← .of (.wav_open track)
  | .wav_read track size offset => do let _ ← Spotifile.wav_read track size offset
  | .wav_release => .of .wav_release
  | .callback c => c.prog

/-- The reader opens the file of any track, and reads and releases the one that is open. The other
threads run callbacks. -/
def one_handle (t : ℕ) (c : WavCall β) (p : Player β) : Bool :=
  match c with
  | .wav_open _ => t == reader
  | .wav_read track _ _ => t == reader && p.handle == some track
  | .wav_release => t == reader && p.handle.isSome
  | .callback c => t != reader && !c.reads

/-- The system of the WAV files. -/
def wav_system (duration : sp_track → ℤ) : System (Instr β) (Player β) ℕ (WavCall β) Bool where
  exec := exec duration
  prog := WavCall.prog
  may := one_handle

end Spotifile
