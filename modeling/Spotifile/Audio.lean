import Mathlib.Algebra.BigOperators.Group.List.Basic
import Mathlib.Data.List.Flatten
import Mathlib.Tactic.Linarith
import Mathlib.Tactic.Ring

/-!
# The audio queue: `spfs_audio.c` and the critical sections of `spfs_spotify.c`

libspotify's audio thread pushes segments of frames on `spfs_audio_playback.queue`, and
`spotify_get_audio` takes bytes off its head. This file holds the data and what one critical
section on the playback mutex does to it; `Playback.lean` puts the sections into programs and
lets them interleave.

The type `β` of a byte is left open: the code copies bytes and never looks at one. The counters
are C `int`s. They are unbounded here, with no overflow.

The queue *claims* to hold, of each segment, its first `nsamples * 2 * channels` bytes
(`spfs_audio.claimed`). The spec lemma of the reading loop, `get_audio_loop_cases`, says what it
does to the claimed bytes, and the four lemmas after it say so for the whole critical section.
-/

namespace Spotifile

variable {β : Type}

/-- A track of libspotify. Only the identity of the handle matters. -/
abbrev sp_track := ℕ

/-- The format of delivered frames; samples are 16 bit integers.
Source: libspotify's `sp_audioformat`. -/
structure sp_audioformat where
  sample_rate : ℕ
  channels : ℕ
deriving DecidableEq, Repr

/-- A segment of delivered frames.
Source: `spfs_audio.h`, `struct spfs_audio`. -/
structure spfs_audio (β : Type) where
  channels : ℕ
  rate : ℕ
  nsamples : ℤ
  samples : List β
deriving DecidableEq, Repr

/-- The playback state that the mutex guards.
Source: `spfs_audio.h`, `struct spfs_audio_playback`. -/
structure spfs_audio_playback (β : Type) where
  nsamples : ℤ
  stutter : ℤ
  queue : List (spfs_audio β)
  playing : Option sp_track
deriving DecidableEq, Repr

/-- Source: `spfs_audio.c`, `spfs_audio_playback_new`. -/
def spfs_audio_playback_new : spfs_audio_playback β := ⟨0, 0, [], none⟩

/-- The arguments of a call of `spotify_music_delivery`, as libspotify promises them: at least one
channel, and a buffer of `num_frames` frames. -/
structure Delivery (β : Type) where
  format : sp_audioformat
  num_frames : ℕ
  frames : List β
  channels_pos : 0 < format.channels
  frames_length : frames.length = num_frames * 2 * format.channels
deriving DecidableEq

/-! ## The critical sections -/

/-- Whether a delivery finds room: the test at its head, and the one under the mutex.
Source: `spfs_spotify.c`, `spotify_music_delivery`. -/
def spfs_audio_playback.accepts (playback : spfs_audio_playback β) (d : Delivery β) : Bool :=
  d.num_frames ≠ 0 && !decide (playback.nsamples > d.format.sample_rate * 2)

/-- The segment that a delivery allocates.
Source: `spfs_spotify.c`, `spotify_music_delivery`. -/
def Delivery.audio (d : Delivery β) : spfs_audio β where
  channels := d.format.channels
  rate := d.format.sample_rate
  nsamples := d.num_frames
  samples := d.frames.take (d.num_frames * 2 * d.format.channels)

/-- Source: `spfs_spotify.c`, `spotify_music_delivery`, from where the delivery is accepted. -/
def spfs_audio_playback.deliver (playback : spfs_audio_playback β) (d : Delivery β) :
    spfs_audio_playback β :=
  { playback with
    queue := playback.queue ++ [d.audio]
    nsamples := playback.nsamples + d.num_frames }

/-- The `while` of `spfs_audio_playback_flush`: every segment is freed, and its samples are taken
off the counter. -/
def flush_loop : List (spfs_audio β) → ℤ → ℤ
  | [], nsamples => nsamples
  | audio :: queue, nsamples => flush_loop queue (nsamples - audio.nsamples)

/-- Source: `spfs_audio.c`, `spfs_audio_playback_flush`. -/
def spfs_audio_playback.flush (playback : spfs_audio_playback β) : spfs_audio_playback β :=
  { playback with
    nsamples := flush_loop playback.queue playback.nsamples
    queue := []
    stutter := 0 }

/-- The size of a segment in bytes.
Source: `spfs_spotify.c`, `spotify_get_audio`, `seg_sz`. -/
def spfs_audio.seg_sz (audio : spfs_audio β) : ℕ := (audio.nsamples * 2 * audio.channels).toNat

/-- `memmove` of `n` bytes from offset `off` to the start of a block. -/
def memmove (samples : List β) (off n : ℕ) : List β :=
  (samples.drop off).take n ++ samples.drop n

/-- A segment after its first `size` bytes were handed out.
Source: `spfs_spotify.c`, `spotify_get_audio`, the branch `sz == 0`. -/
def spfs_audio.split (audio : spfs_audio β) (size : ℕ) : spfs_audio β :=
  { audio with
    samples := memmove audio.samples size (audio.seg_sz - size)
    nsamples := audio.nsamples - (size / (2 * audio.channels) : ℕ) }

/-- The second `while` of `spotify_get_audio`. `buf` is what has been copied so far, so that its
length is `sz`.
Source: `spfs_spotify.c`, `spotify_get_audio`. -/
def get_audio_loop (size : ℕ) :
    List (spfs_audio β) → ℤ → List β → List (spfs_audio β) × ℤ × List β
  | [], nsamples, buf => ([], nsamples, buf)
  | audio :: queue, nsamples, buf =>
    if buf.length + audio.seg_sz ≤ size then
      get_audio_loop size queue (nsamples - audio.nsamples)
        (buf ++ audio.samples.take audio.seg_sz)
    else if buf.length = 0 then
      (audio.split size :: queue, nsamples - (size / (2 * audio.channels) : ℕ),
        audio.samples.take size)
    else (audio :: queue, nsamples, buf)

/-- The playback after the second `while` of `spotify_get_audio`.
Source: `spfs_spotify.c`, `spotify_get_audio`. -/
def spfs_audio_playback.drained (playback : spfs_audio_playback β) (size : ℕ) :
    spfs_audio_playback β :=
  { playback with
    queue := (get_audio_loop size playback.queue playback.nsamples []).1
    nsamples := (get_audio_loop size playback.queue playback.nsamples []).2.1 }

/-- The bytes that the second `while` of `spotify_get_audio` copies to the caller.
Source: `spfs_spotify.c`, `spotify_get_audio`. -/
def spfs_audio_playback.copied (playback : spfs_audio_playback β) (size : ℕ) : List β :=
  (get_audio_loop size playback.queue playback.nsamples []).2.2

/-- A delivery does not change the track. -/
@[simp] lemma deliver_playing (playback : spfs_audio_playback β) (d : Delivery β) :
    (playback.deliver d).playing = playback.playing := rfl

/-- A delivery is queued last. -/
@[simp] lemma deliver_queue (playback : spfs_audio_playback β) (d : Delivery β) :
    (playback.deliver d).queue = playback.queue ++ [d.audio] := rfl

/-- A flush does not change the track. -/
@[simp] lemma flush_playing (playback : spfs_audio_playback β) :
    playback.flush.playing = playback.playing := rfl

/-- A flush leaves no segment. -/
@[simp] lemma flush_queue (playback : spfs_audio_playback β) : playback.flush.queue = [] := rfl

/-- A read does not change the track. -/
@[simp] lemma drained_playing (playback : spfs_audio_playback β) (size : ℕ) :
    (playback.drained size).playing = playback.playing := rfl

/-- The rest of a split segment has the same channels. -/
@[simp] lemma split_channels (audio : spfs_audio β) (size : ℕ) :
    (audio.split size).channels = audio.channels := rfl

/-- The rest of a split segment has the same rate. -/
@[simp] lemma split_rate (audio : spfs_audio β) (size : ℕ) :
    (audio.split size).rate = audio.rate := rfl

/-! ## Segments -/

/-- The bytes that the queue claims to hold of a segment. -/
def spfs_audio.claimed (audio : spfs_audio β) : List β := audio.samples.take audio.seg_sz

/-- A segment that a reader may find in the queue. -/
structure spfs_audio.WellFormed (audio : spfs_audio β) : Prop where
  channels_pos : 0 < audio.channels
  nsamples_pos : 0 < audio.nsamples
  seg_sz_le : audio.seg_sz ≤ audio.samples.length

/-- The bytes that a queue claims to hold. -/
def claimed (queue : List (spfs_audio β)) : List β := queue.flatMap spfs_audio.claimed

/-- An empty queue claims no bytes. -/
@[simp] lemma claimed_nil : claimed ([] : List (spfs_audio β)) = [] := rfl

/-- The bytes of the first segment come first. -/
@[simp] lemma claimed_cons (audio : spfs_audio β) (queue : List (spfs_audio β)) :
    claimed (audio :: queue) = audio.claimed ++ claimed queue := rfl

/-- The claims of two queues, one behind the other. -/
@[simp] lemma claimed_append (queue queue' : List (spfs_audio β)) :
    claimed (queue ++ queue') = claimed queue ++ claimed queue' :=
  List.flatMap_append

/-- The frames that the queue counts. -/
def frames (queue : List (spfs_audio β)) : ℤ := (queue.map spfs_audio.nsamples).sum

/-- An empty queue has no frames. -/
@[simp] lemma frames_nil : frames ([] : List (spfs_audio β)) = 0 := rfl

/-- The frames of the first segment are added to those of the rest. -/
@[simp] lemma frames_cons (audio : spfs_audio β) (queue : List (spfs_audio β)) :
    frames (audio :: queue) = audio.nsamples + frames queue := by
  simp [frames]

/-- The frames of two queues add up. -/
@[simp] lemma frames_append (queue queue' : List (spfs_audio β)) :
    frames (queue ++ queue') = frames queue + frames queue' := by
  simp [frames]

/-- The loop takes the frames of every segment off the counter. -/
lemma flush_loop_eq (queue : List (spfs_audio β)) (nsamples : ℤ) :
    flush_loop queue nsamples = nsamples - frames queue := by
  induction queue generalizing nsamples with
  | nil => simp [flush_loop]
  | cons audio queue ih =>
    rw [flush_loop, ih, frames_cons]
    ring

namespace spfs_audio

variable {audio : spfs_audio β}

/-- A segment claims as many bytes as its size says. -/
lemma length_claimed (h : audio.WellFormed) : audio.claimed.length = audio.seg_sz := by
  rw [claimed, List.length_take]
  exact min_eq_left h.seg_sz_le

/-- The size of a segment is its number of frames times the size of a frame. -/
lemma seg_sz_eq (h : audio.WellFormed) :
    audio.seg_sz = audio.nsamples.toNat * (2 * audio.channels) := by
  obtain ⟨n, hn⟩ := Int.eq_ofNat_of_zero_le h.nsamples_pos.le
  rw [seg_sz, hn]
  have : ((n : ℤ) * 2 * audio.channels) = ((n * (2 * audio.channels) : ℕ) : ℤ) := by
    push_cast
    ring
  rw [this, Int.toNat_natCast, Int.toNat_natCast]

/-- No segment is empty. -/
lemma seg_sz_pos (h : audio.WellFormed) : 0 < audio.seg_sz := by
  rw [seg_sz_eq h]
  have hn := h.nsamples_pos
  have hc := h.channels_pos
  exact Nat.mul_pos (by omega) (by omega)

/-- A split takes as many frames off the count as fit into the bytes handed out, which leaves at
least one. -/
lemma split_nsamples (h : audio.WellFormed) {size : ℕ} (hsize : size < audio.seg_sz) :
    size / (2 * audio.channels) < audio.nsamples.toNat := by
  rw [seg_sz_eq h] at hsize
  exact Nat.div_lt_of_lt_mul (by rwa [Nat.mul_comm] at hsize)

/-- A split takes whole frames off the counter of the segment. -/
lemma split_nsamples_eq (h : audio.WellFormed) {size : ℕ} (hsize : size < audio.seg_sz) :
    (audio.split size).nsamples = (audio.nsamples.toNat - size / (2 * audio.channels) : ℕ) := by
  have hlt := split_nsamples h hsize
  show audio.nsamples - (size / (2 * audio.channels) : ℕ) = _
  have := h.nsamples_pos
  omega

/-- The count of a split segment is rounded: the bytes claimed after the split are those that are
left, and the fraction of a frame that was handed out once more. -/
lemma split_seg_sz (h : audio.WellFormed) {size : ℕ} (hsize : size < audio.seg_sz) :
    (audio.split size).seg_sz = audio.seg_sz - size + size % (2 * audio.channels) := by
  have hlt := split_nsamples h hsize
  have hle : size / (2 * audio.channels) * (2 * audio.channels) ≤ size := Nat.div_mul_le_self _ _
  have hmod := Nat.div_add_mod' size (2 * audio.channels)
  have hsz : (audio.split size).seg_sz
      = (audio.nsamples.toNat - size / (2 * audio.channels)) * (2 * audio.channels) := by
    rw [seg_sz, split_nsamples_eq h hsize, split_channels]
    have : ((audio.nsamples.toNat - size / (2 * audio.channels) : ℕ) : ℤ) * 2 * audio.channels
        = ((audio.nsamples.toNat - size / (2 * audio.channels)) * (2 * audio.channels) : ℕ) := by
      push_cast
      ring
    rw [this, Int.toNat_natCast]
  rw [hsz, Nat.sub_mul, ← seg_sz_eq h]
  omega

/-- A split moves bytes within the samples, whose number stays the same. -/
lemma length_split_samples (h : audio.WellFormed) {size : ℕ} (hsize : size < audio.seg_sz) :
    (audio.split size).samples.length = audio.samples.length := by
  have := h.seg_sz_le
  simp only [split, memmove, List.length_append, List.length_take, List.length_drop]
  omega

/-- The rest of a split segment is well formed. -/
lemma split_wellFormed (h : audio.WellFormed) {size : ℕ} (hsize : size < audio.seg_sz) :
    (audio.split size).WellFormed where
  channels_pos := h.channels_pos
  nsamples_pos := by
    have := split_nsamples h hsize
    rw [split_nsamples_eq h hsize]
    omega
  seg_sz_le := by
    rw [split_seg_sz h hsize, length_split_samples h hsize]
    have hle := h.seg_sz_le
    have hmod := Nat.mod_le size (2 * audio.channels)
    omega

/-- The bytes claimed before a split: those handed out, and those left. -/
lemma claimed_eq {size : ℕ} (hsize : size < audio.seg_sz) :
    audio.claimed
      = audio.samples.take size ++ (audio.samples.drop size).take (audio.seg_sz - size) := by
  rw [claimed, ← List.take_add]
  congr 1
  omega

/-- The bytes claimed after a split: those left, and as many of what lies behind them as the
fraction of a frame that was handed out. -/
lemma claimed_split_eq (h : audio.WellFormed) {size : ℕ} (hsize : size < audio.seg_sz) :
    (audio.split size).claimed = (audio.samples.drop size).take (audio.seg_sz - size) ++
      (audio.samples.drop (audio.seg_sz - size)).take (size % (2 * audio.channels)) := by
  have hlen : ((audio.samples.drop size).take (audio.seg_sz - size)).length
      = audio.seg_sz - size := by
    have := h.seg_sz_le
    rw [List.length_take, List.length_drop]
    omega
  rw [claimed, split_seg_sz h hsize]
  show (memmove audio.samples size (audio.seg_sz - size)).take _ = _
  unfold memmove
  rw [← List.take_length_add_append, hlen]

/-- If the bytes handed out are whole frames, the bytes claimed after the split are the others. -/
lemma claimed_split (h : audio.WellFormed) {size : ℕ} (hsize : size < audio.seg_sz)
    (hdvd : 2 * audio.channels ∣ size) :
    audio.samples.take size ++ (audio.split size).claimed = audio.claimed := by
  rw [claimed_split_eq h hsize, Nat.mod_eq_zero_of_dvd hdvd, List.take_zero, List.append_nil,
    claimed_eq hsize]

/-- A split moves the bytes of its segment and adds none. -/
lemma mem_split_samples {size : ℕ} {b : β} (hb : b ∈ (audio.split size).samples) :
    b ∈ audio.samples := by
  rcases List.mem_append.mp hb with hb | hb
  · exact List.mem_of_mem_drop (List.mem_of_mem_take hb)
  · exact List.mem_of_mem_drop hb

end spfs_audio

/-- The size of a delivered segment is that of its frames, of two bytes for each channel. -/
lemma Delivery.seg_sz_audio (d : Delivery β) :
    d.audio.seg_sz = d.num_frames * 2 * d.format.channels := by
  show ((d.num_frames : ℤ) * 2 * d.format.channels).toNat = _
  exact Int.toNat_natCast (d.num_frames * 2 * d.format.channels)

/-- An accepted segment is well formed. -/
lemma Delivery.audio_wellFormed (d : Delivery β) (h : d.num_frames ≠ 0) : d.audio.WellFormed where
  channels_pos := d.channels_pos
  nsamples_pos := by
    show (0 : ℤ) < d.num_frames
    omega
  seg_sz_le := by
    rw [d.seg_sz_audio]
    simp [audio, d.frames_length]

/-- A fresh segment claims the frames of the delivery. -/
lemma Delivery.claimed_audio (d : Delivery β) : d.audio.claimed = d.frames := by
  rw [spfs_audio.claimed, d.seg_sz_audio]
  show (d.frames.take (d.num_frames * 2 * d.format.channels)).take _ = _
  rw [List.take_take, min_self, ← d.frames_length, List.take_length]

/-! ## What one read does to the queue -/

/-- The loop takes whole segments while they fit. Only if the very first one does not, it is
split. -/
theorem get_audio_loop_cases {size : ℕ} {queue : List (spfs_audio β)} {nsamples : ℤ}
    {buf : List β} (hq : ∀ audio ∈ queue, audio.WellFormed) :
    (∃ audio rest, queue = audio :: rest ∧ buf = [] ∧ size < audio.seg_sz ∧
      get_audio_loop size queue nsamples buf =
        (audio.split size :: rest, nsamples - (size / (2 * audio.channels) : ℕ),
          audio.samples.take size)) ∨
    (∃ popped rest, queue = popped ++ rest ∧ (popped = [] → buf ≠ [] ∨ queue = []) ∧
      get_audio_loop size queue nsamples buf =
        (rest, nsamples - frames popped, buf ++ claimed popped) ∧
      (buf.length ≤ size → (buf ++ claimed popped).length ≤ size)) := by
  induction queue generalizing nsamples buf with
  | nil =>
    right
    exact ⟨[], [], rfl, fun _ => .inr rfl, by simp [get_audio_loop], by simp⟩
  | cons audio queue ih =>
    have haudio := hq audio (by simp)
    have hlen := spfs_audio.length_claimed haudio
    by_cases hfits : buf.length + audio.seg_sz ≤ size
    · have hloop : get_audio_loop size (audio :: queue) nsamples buf
          = get_audio_loop size queue (nsamples - audio.nsamples) (buf ++ audio.claimed) := by
        rw [get_audio_loop, if_pos hfits]
        rfl
      have hne : buf ++ audio.claimed ≠ [] := by
        have := spfs_audio.seg_sz_pos haudio
        intro h
        have := congrArg List.length h
        simp only [List.length_append, List.length_nil, hlen] at this
        omega
      rcases @ih (nsamples - audio.nsamples) (buf ++ audio.claimed)
        (fun a ha => hq a (by simp [ha])) with
        ⟨a, rest, -, hbuf, -⟩ | ⟨popped, rest, hq', -, he, hle⟩
      · exact absurd hbuf hne
      · right
        refine ⟨audio :: popped, rest, by rw [hq', List.cons_append], by simp, ?_, ?_⟩
        · rw [hloop, he, frames_cons, claimed_cons, List.append_assoc, sub_sub]
        · intro _
          have := hle (by rw [List.length_append, hlen]; exact hfits)
          rwa [claimed_cons, ← List.append_assoc]
    · by_cases hbuf : buf = []
      · subst hbuf
        left
        refine ⟨audio, queue, rfl, rfl, by simpa using hfits, ?_⟩
        rw [get_audio_loop, if_neg hfits, if_pos List.length_nil]
      · right
        refine ⟨[], audio :: queue, rfl, fun _ => .inl hbuf, ?_, by simp⟩
        rw [get_audio_loop, if_neg hfits, if_neg (by simpa using hbuf)]
        simp

namespace spfs_audio_playback

variable {playback : spfs_audio_playback β}

/-- The queue holds well-formed segments only, and the counter counts their frames.
The assertions of `spfs_audio_playback_flush` state the second part. -/
structure WellFormed (playback : spfs_audio_playback β) : Prop where
  queue : ∀ audio ∈ playback.queue, audio.WellFormed
  nsamples : playback.nsamples = frames playback.queue

/-- A read splits the first segment of the queue. -/
def Splits (playback : spfs_audio_playback β) (size : ℕ) (audio : spfs_audio β) : Prop :=
  playback.queue.head? = some audio ∧ size < audio.seg_sz

/-- A read that splits a segment asks for whole frames of it. -/
def Aligned (playback : spfs_audio_playback β) (size : ℕ) : Prop :=
  ∀ audio, playback.Splits size audio → 2 * audio.channels ∣ size

instance decidableAligned (playback : spfs_audio_playback β) (size : ℕ) :
    Decidable (playback.Aligned size) :=
  decidable_of_iff (∀ audio ∈ playback.queue.head?, size < audio.seg_sz → 2 * audio.channels ∣ size)
    ⟨fun h audio hs => h audio hs.1 hs.2, fun h audio ha hsize => h audio ⟨ha, hsize⟩⟩

/-- What a read does: nothing to an empty queue; a split; or it takes a non-empty run of whole
segments. -/
lemma drained_cases (h : playback.WellFormed) (size : ℕ) :
    (playback.queue = [] ∧ playback.drained size = playback ∧ playback.copied size = []) ∨
    (∃ audio rest, playback.queue = audio :: rest ∧ size < audio.seg_sz ∧
      (playback.drained size).queue = audio.split size :: rest ∧
      (playback.drained size).nsamples
        = playback.nsamples - (size / (2 * audio.channels) : ℕ) ∧
      playback.copied size = audio.samples.take size) ∨
    (∃ popped rest, popped ≠ [] ∧ playback.queue = popped ++ rest ∧
      (playback.drained size).queue = rest ∧
      (playback.drained size).nsamples = playback.nsamples - frames popped ∧
      playback.copied size = claimed popped ∧ (claimed popped).length ≤ size) := by
  rcases @get_audio_loop_cases _ size _ playback.nsamples [] h.queue with
    ⟨audio, rest, hq, -, hsize, he⟩ | ⟨popped, rest, hq, hpop, he, hle⟩
  · right; left
    exact ⟨audio, rest, hq, hsize, by simp [drained, he], by simp [drained, he],
      by simp [copied, he]⟩
  · by_cases hp : popped = []
    · left
      have hnil : playback.queue = [] := by
        rcases hpop hp with h | h
        · exact absurd rfl h
        · exact h
      subst hp
      obtain rfl : rest = [] := by simpa [hnil] using hq.symm
      refine ⟨hnil, ?_, by simp [copied, he]⟩
      rw [drained, he, frames_nil, sub_zero, ← hnil]
    · right; right
      exact ⟨popped, rest, hp, hq, by simp [drained, he], by simp [drained, he],
        by simp [copied, he], by simpa using hle⟩

/-- A delivery that is let in keeps the playback well formed. -/
lemma WellFormed.deliver (h : playback.WellFormed) {d : Delivery β}
    (hd : playback.accepts d = true) : (playback.deliver d).WellFormed where
  queue := by
    have hnum : d.num_frames ≠ 0 := by
      intro h0
      simp [accepts, h0] at hd
    intro audio ha
    rcases List.mem_append.mp ha with ha | ha
    · exact h.queue audio ha
    · obtain rfl := List.mem_singleton.mp ha
      exact d.audio_wellFormed hnum
  nsamples := by
    show playback.nsamples + d.num_frames = frames (playback.queue ++ [d.audio])
    rw [h.nsamples, frames_append, frames_cons, frames_nil, add_zero]
    rfl

/-- A flush keeps the playback well formed. -/
lemma WellFormed.flush (h : playback.WellFormed) : playback.flush.WellFormed where
  queue := by simp
  nsamples := by
    show flush_loop playback.queue playback.nsamples = frames []
    rw [flush_loop_eq, h.nsamples, frames_nil, sub_self]

/-- A read keeps the playback well formed. -/
lemma WellFormed.drained (h : playback.WellFormed) (size : ℕ) :
    (playback.drained size).WellFormed := by
  rcases drained_cases h size with ⟨-, hd, -⟩ | ⟨audio, rest, hq, hsize, hd, hn, -⟩ |
    ⟨popped, rest, -, hq, hd, hn, -⟩
  · rwa [hd]
  · have haudio := h.queue audio (by simp [hq])
    constructor
    · rw [hd]
      intro a ha
      rcases List.mem_cons.mp ha with rfl | ha
      · exact spfs_audio.split_wellFormed haudio hsize
      · exact h.queue a (by simp [hq, ha])
    · rw [hd, hn, h.nsamples, hq, frames_cons, frames_cons]
      show _ = audio.nsamples - (size / (2 * audio.channels) : ℕ) + frames rest
      ring
  · constructor
    · rw [hd]
      intro a ha
      exact h.queue a (by simp [hq, ha])
    · rw [hd, hn, h.nsamples, hq, frames_append]
      ring

/-- A read that asks for whole frames conserves the claimed bytes: those it returns come first,
the others stay. -/
theorem copied_append_claimed (h : playback.WellFormed) {size : ℕ}
    (hal : playback.Aligned size) :
    playback.copied size ++ claimed (playback.drained size).queue = claimed playback.queue := by
  rcases drained_cases h size with ⟨-, hd, ha⟩ | ⟨audio, rest, hq, hsize, hd, -, ha⟩ |
    ⟨popped, rest, -, hq, hd, -, ha, -⟩
  · rw [hd, ha, List.nil_append]
  · have hdvd := hal audio ⟨by simp [hq], hsize⟩
    rw [hd, ha, hq, claimed_cons, claimed_cons, ← List.append_assoc,
      spfs_audio.claimed_split (h.queue audio (by simp [hq])) hsize hdvd]
  · rw [hd, ha, hq, claimed_append]

/-- Whatever a read asks for, no claimed byte is dropped or reordered. -/
theorem claimed_sublist_drained (h : playback.WellFormed) (size : ℕ) :
    (claimed playback.queue).Sublist
      (playback.copied size ++ claimed (playback.drained size).queue) := by
  rcases drained_cases h size with ⟨-, hd, ha⟩ | ⟨audio, rest, hq, hsize, hd, -, ha⟩ |
    ⟨popped, rest, -, hq, hd, -, ha, -⟩
  · rw [hd, ha, List.nil_append]
  · have haudio := h.queue audio (by simp [hq])
    rw [hd, ha, hq, claimed_cons, claimed_cons, spfs_audio.claimed_split_eq haudio hsize,
      spfs_audio.claimed_eq hsize, ← List.append_assoc, ← List.append_assoc]
    exact (List.sublist_append_left _ _).append (List.Sublist.refl _)
  · rw [hd, ha, hq, claimed_append]

/-- A read leaves only samples that were there before. -/
lemma mem_drained_samples (h : playback.WellFormed) {size : ℕ} {audio : spfs_audio β} {b : β}
    (ha : audio ∈ (playback.drained size).queue) (hb : b ∈ audio.samples) :
    ∃ audio' ∈ playback.queue, b ∈ audio'.samples := by
  rcases drained_cases h size with ⟨-, hd, -⟩ | ⟨first, rest, hq, -, hd, -⟩ |
    ⟨popped, rest, -, hq, hd, -⟩
  · rw [hd] at ha
    exact ⟨audio, ha, hb⟩
  · rw [hd] at ha
    rcases List.mem_cons.mp ha with rfl | ha
    · exact ⟨first, by simp [hq], spfs_audio.mem_split_samples hb⟩
    · exact ⟨audio, by simp [hq, ha], hb⟩
  · rw [hd] at ha
    exact ⟨audio, by simp [hq, ha], hb⟩

/-- A read that splits a segment within a frame makes the queue claim some bytes again that it
has returned. -/
theorem length_copied_add_claimed (h : playback.WellFormed) {size : ℕ} {audio : spfs_audio β}
    (hs : playback.Splits size audio) :
    (playback.copied size).length + (claimed (playback.drained size).queue).length
      = (claimed playback.queue).length + size % (2 * audio.channels) := by
  obtain ⟨hhead, hsize⟩ := hs
  rcases drained_cases h size with ⟨hq, -⟩ | ⟨audio', rest, hq, hsize', hd, -, ha⟩ |
    ⟨popped, rest, hne, hq, hd, -, ha, hle⟩
  · simp [hq] at hhead
  · obtain rfl : audio' = audio := by simpa [hq] using hhead
    have haudio := h.queue audio' (by simp [hq])
    have hle := haudio.seg_sz_le
    rw [hd, ha, hq, claimed_cons, claimed_cons, List.length_append, List.length_append,
      spfs_audio.length_claimed (spfs_audio.split_wellFormed haudio hsize'),
      spfs_audio.length_claimed haudio, spfs_audio.split_seg_sz haudio hsize', List.length_take]
    omega
  · obtain ⟨a, popped, rfl⟩ := List.exists_cons_of_ne_nil hne
    obtain rfl : a = audio := by simpa [hq] using hhead
    have hlen := spfs_audio.length_claimed (h.queue a (by simp [hq]))
    rw [claimed_cons, List.length_append, hlen] at hle
    omega

/-- A read of a non-zero size from a non-empty queue returns something. -/
lemma copied_ne_nil (h : playback.WellFormed) {size : ℕ} (hsize : 0 < size)
    (hq : playback.queue ≠ []) : playback.copied size ≠ [] := by
  rcases drained_cases h size with ⟨hnil, -⟩ | ⟨audio, rest, hq', hlt, -, -, ha⟩ |
    ⟨popped, rest, hne, hq', -, -, ha, -⟩
  · exact absurd hnil hq
  · have hle := (h.queue audio (by simp [hq'])).seg_sz_le
    rw [ha]
    intro hnil
    have := congrArg List.length hnil
    simp only [List.length_take, List.length_nil] at this
    omega
  · obtain ⟨a, popped, rfl⟩ := List.exists_cons_of_ne_nil hne
    have haw := h.queue a (by simp [hq'])
    have hpos := spfs_audio.seg_sz_pos haw
    have hlen := spfs_audio.length_claimed haw
    rw [ha, claimed_cons]
    intro hnil
    have := congrArg List.length hnil
    simp only [List.length_append, List.length_nil] at this
    omega

/-- A read returns at most what was asked for. -/
lemma length_copied_le (h : playback.WellFormed) (size : ℕ) :
    (playback.copied size).length ≤ size := by
  rcases drained_cases h size with ⟨-, -, ha⟩ | ⟨audio, rest, -, -, -, -, ha⟩ |
    ⟨popped, rest, -, -, -, -, ha, hle⟩
  · simp [ha]
  · rw [ha]
    exact List.length_take_le _ _
  · rwa [ha]

end spfs_audio_playback

end Spotifile
