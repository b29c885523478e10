import Spotifile.WavOwner
import Spotifile.Lib.History

/-!
# The bytes of a WAV file, and the offsets that a seek hits

The file of a track is its header followed by its audio (`wav_file`). `expoff` counts the bytes of
the file that were returned; a read at another offset seeks, and turns the offset into
milliseconds for that. Two things keep a read from the bytes at its offset.

* The conversion (`ms_offset`) forgets that the audio begins behind the header, and rounds down to
  a whole second. `SeeksExactly` says which offsets it hits.
* A read that splits a segment within a frame makes the queue repeat some bytes; see
  `Conservation.lean`.

libspotify is relied on to play the track from its first frame once it is loaded, to go on at frame
`ms * rate / 1000` after `sp_session_player_seek`, and to deliver nothing between that call and
the flush after it. Where it has come to is a value beside the run (`Stream`), which no
instruction reads. `Holds` says what the queue owes to it.
-/

namespace Spotifile

open Lib

variable {β : Type} (duration : sp_track → ℤ)
variable (track : sp_track) (fmt : sp_audioformat) (content : List β)

/-! ## The property -/

/-- The file of the track: its header, and its audio behind. -/
def wav_file : List (UInt8 ⊕ β) :=
  (fill_wav_header fmt.channels fmt.sample_rate (duration track)).bytes.map .inl ++
    content.map .inr

/-- The bytes are those of the file from the offset on. -/
def FileBytes (offset : ℕ) (bytes : List (UInt8 ⊕ β)) : Prop :=
  ∀ i b, bytes[i]? = some b → (wav_file duration track fmt content)[offset + i]? = some b

/-- Every read has returned the bytes of the file at its offset. -/
def ReadsFile (log : List (Event β)) : Prop :=
  ∀ offset size bytes, .wav track offset size bytes ∈ log →
    FileBytes duration track fmt content offset bytes

/-! ## What libspotify delivers -/

/-- How far libspotify has come in the track that it plays. -/
structure Stream where
  /-- The frame at which the next delivery starts, once the track is loaded. -/
  next : Option ℕ
  /-- `sp_session_player_seek` was called, and the queue has not been flushed since. -/
  sought : Bool
deriving DecidableEq

/-- The size of a frame in bytes. -/
def sp_audioformat.frame_size : ℕ := 2 * fmt.channels

/-- What an instruction makes of the position of libspotify. -/
def Stream.saw : {γ : Type} → Instr β γ → Option γ → Player β → Stream → Stream
  | _, .player_load _, some true, _, _ => ⟨some 0, false⟩
  | _, .player_seek ms, _, _, s => ⟨s.next.map fun _ => ms.toNat * fmt.sample_rate / 1000, true⟩
  | _, .flush, _, _, s => { s with sought := false }
  | _, .delivery _, some n, _, s => { s with next := s.next.map fun m => m + n }
  | _, _, _, _, s => s

/-- A load begins the stream at the first frame. -/
@[simp] lemma saw_load (track : sp_track) (p : Player β) (s : Stream) :
    Stream.saw fmt (.player_load track) (some true) p s = ⟨some 0, false⟩ := rfl

/-- A seek goes on at the frame of the position. -/
@[simp] lemma saw_seek (ms : ℤ) (p : Player β) (s : Stream) :
    Stream.saw fmt (.player_seek ms) (some ()) p s =
      ⟨s.next.map fun _ => ms.toNat * fmt.sample_rate / 1000, true⟩ := rfl

/-- A flush ends the seek. -/
@[simp] lemma saw_flush (p : Player β) (s : Stream) :
    Stream.saw fmt .flush (some ()) p s = { s with sought := false } := rfl

/-- A delivery moves the stream on by the frames that were accepted. -/
@[simp] lemma saw_delivery (d : Delivery β) (n : ℕ) (p : Player β) (s : Stream) :
    Stream.saw fmt (.delivery d) (some n) p s = { s with next := s.next.map fun m => m + n } :=
  rfl

/-- A delivery brings the next frames of the track, and none comes between a seek and the flush
after it. -/
def DeliversNext : {γ : Type} → Instr β γ → Player β × Stream → Prop
  | _, .delivery d, (_, s) => s.sought = false ∧ d.format = fmt ∧
      ∃ n ∈ s.next, d.frames <+: content.drop (n * fmt.frame_size)
  | _, _, _ => True

/-! ## The system -/

/-- The reader opens, reads and releases the file of the track only, and the other threads only
deliver. -/
def sole_handle (t : ℕ) (c : WavCall β) (p : Player β) : Bool :=
  one_handle t c p && match c with
    | .wav_open track' | .wav_read track' _ _ => track' == track
    | .wav_release | .callback (.music_delivery _) => true
    | .callback _ => false

/-- The WAV file of one track beside the position of libspotify. -/
def file_system : System (Instr β) (Player β × Stream) ℕ (WavCall β) Bool :=
  System.observe { wav_system duration with may := sole_handle track } (Stream.saw fmt)

/-- Every run of the file is one of this system, with the position of libspotify left out. -/
lemma exists_watched {p : Player β} {w : World (Instr β) (Player β) ℕ}
    {l : List (World (Instr β) (Player β) ℕ × Action ℕ (WavCall β) Bool)}
    (hl : Trace { wav_system duration with may := sole_handle track } (.idle p) l w) :
    ∃ l' n, Trace (file_system duration track fmt) (.idle (p, ⟨none, false⟩)) l' (w.watched n) ∧
      l'.map (fun q => (q.1.forget, q.2)) = l :=
  hl.exists_observed (⟨none, false⟩ : Stream)

/-! ## The offsets that a seek hits -/

/-- The bytes of a second of audio. -/
def sp_audioformat.byte_rate : ℕ := fmt.frame_size * fmt.sample_rate

/-- The second in which the offset lies begins `sizeof_wav_header` bytes in front of it, or at 0 for
an offset within the header; and nothing overflows on the way there. -/
structure SeeksExactly (offset : ℕ) : Prop where
  pos : 0 < fmt.byte_rate
  bits : 8 * fmt.byte_rate < 2 ^ 31
  ms : offset / fmt.byte_rate * 1000 < 2 ^ 31
  exact : offset / fmt.byte_rate * fmt.byte_rate = offset - sizeof_wav_header

/-- A read that seeks while the track is playing, and not to the start, seeks to an offset that the
conversion hits. -/
def SoughtExactly : WavCall β → Player β → Prop
  | .wav_read _ _ offset, p => offset ≠ 0 → offset ≠ p.expoff → p.g_playback.playing ≠ none →
      SeeksExactly fmt offset
  | _, _ => True

section Decidable

variable {fmt content}

instance decidableDeliversNext [DecidableEq β] {γ : Type} (i : Instr β γ)
    (s : Player β × Stream) : Decidable (DeliversNext fmt content i s) := by
  induction i using Instr.casesOn with
  | delivery d => exact inferInstanceAs (Decidable (s.2.sought = false ∧ d.format = fmt ∧
      ∃ n ∈ s.2.next, d.frames <+: content.drop (n * fmt.frame_size)))
  | _ => exact .isTrue trivial

instance decidableAlignedRead {γ : Type} (i : Instr β γ) (p : Player β) :
    Decidable (AlignedRead i p) := by
  induction i using Instr.casesOn with
  | audio size => exact inferInstanceAs (Decidable (p.g_playback.Aligned size))
  | _ => exact .isTrue trivial

instance decidableSeeksExactly (offset : ℕ) : Decidable (SeeksExactly fmt offset) :=
  decidable_of_iff (0 < fmt.byte_rate ∧ 8 * fmt.byte_rate < 2 ^ 31 ∧
      offset / fmt.byte_rate * 1000 < 2 ^ 31 ∧
      offset / fmt.byte_rate * fmt.byte_rate = offset - sizeof_wav_header)
    ⟨fun h => ⟨h.1, h.2.1, h.2.2.1, h.2.2.2⟩, fun h => ⟨h.pos, h.bits, h.ms, h.exact⟩⟩

instance decidableSoughtExactly (c : WavCall β) (p : Player β) :
    Decidable (SoughtExactly fmt c p) := by
  induction c using WavCall.casesOn with
  | wav_read _ _ offset => exact inferInstanceAs (Decidable (offset ≠ 0 → offset ≠ p.expoff →
      p.g_playback.playing ≠ none → SeeksExactly fmt offset))
  | _ => exact .isTrue trivial

end Decidable

variable {duration track fmt content}

/-- The bound on the milliseconds bounds the offset. -/
lemma SeeksExactly.offset_lt {offset : ℕ} (h : SeeksExactly fmt offset) : offset < 2 ^ 64 := by
  have hbits := h.bits
  have hms := h.ms
  have hq : offset / fmt.byte_rate + 1 ≤ 2 ^ 31 := by omega
  have hb : fmt.byte_rate ≤ 2 ^ 31 := by omega
  calc offset < fmt.byte_rate * (offset / fmt.byte_rate + 1) := Nat.lt_mul_div_succ offset h.pos
    _ ≤ 2 ^ 31 * 2 ^ 31 := Nat.mul_le_mul hb hq
    _ ≤ 2 ^ 64 := by norm_num

/-- Where nothing overflows the position is the second in which the offset lies. -/
lemma SeeksExactly.ms_offset {offset : ℕ} (h : SeeksExactly fmt offset) :
    ms_offset fmt.channels fmt.sample_rate offset = (offset / fmt.byte_rate * 1000 : ℕ) := by
  have hrate : 0 < fmt.sample_rate := Nat.pos_of_mul_pos_left h.pos
  have height : fmt.channels * 16 * fmt.sample_rate = 8 * fmt.byte_rate := by
    unfold sp_audioformat.byte_rate sp_audioformat.frame_size
    ring
  exact ms_offset_eq hrate (height ▸ h.bits) h.offset_lt h.ms

/-! ## What the queue holds -/

/-- Two pieces of a stream, one behind the other. -/
lemma append_prefix_drop_iff {l₁ l₂ l : List β} {i : ℕ} :
    l₁ ++ l₂ <+: l.drop i ↔ l₁ <+: l.drop i ∧ l₂ <+: l.drop (i + l₁.length) := by
  rw [← List.drop_drop]
  constructor
  · rintro ⟨t, ht⟩
    rw [← ht, List.append_assoc, List.drop_left]
    exact ⟨List.prefix_append _ _, List.prefix_append _ _⟩
  · rintro ⟨⟨t, ht⟩, h⟩
    rw [← ht, List.drop_left] at h
    rw [← ht]
    exact (List.prefix_append_right_inj l₁).mpr h

variable (fmt content) in
/-- The queue holds the bytes of the track from `pos` up to where libspotify has come. -/
structure Holds (pos : ℕ) (playback : spfs_audio_playback β) (s : Stream) : Prop where
  wellFormed : playback.WellFormed
  format : ∀ audio ∈ playback.queue,
    audio.channels = fmt.channels ∧ audio.rate = fmt.sample_rate
  next : ∃ n, s.next = some n ∧ pos + (claimed playback.queue).length = n * fmt.frame_size
  bytes : claimed playback.queue <+: content.drop pos

variable {playback : spfs_audio_playback β} {s : Stream} {pos : ℕ}

/-- An empty queue goes on where libspotify stands. -/
lemma holds_of_empty {n : ℕ} (hwf : playback.WellFormed) (hq : playback.queue = [])
    (hn : s.next = some n) : Holds fmt content (n * fmt.frame_size) playback s where
  wellFormed := hwf
  format := by simp [hq]
  next := ⟨n, hn, by simp [hq]⟩
  bytes := by simp [hq]

/-- A delivery goes on where the queue ends. -/
lemma Holds.deliver {n : ℕ} {d : Delivery β} (h : Holds fmt content pos playback s)
    (hacc : playback.accepts d = true) (hformat : d.format = fmt) (hn : s.next = some n)
    (hd : d.frames <+: content.drop (n * fmt.frame_size)) :
    Holds fmt content pos (playback.deliver d) { s with next := some (n + d.num_frames) } := by
  obtain ⟨m, hm, hend⟩ := h.next
  obtain rfl : m = n := Option.some.inj (hm.symm.trans hn)
  have hclaimed : claimed (playback.deliver d).queue = claimed playback.queue ++ d.frames := by
    rw [deliver_queue, claimed_append, claimed_cons, claimed_nil, List.append_nil, d.claimed_audio]
  refine ⟨h.wellFormed.deliver hacc, ?_, ⟨_, rfl, ?_⟩, ?_⟩
  · intro audio ha
    rcases List.mem_append.mp ha with ha | ha
    · exact h.format audio ha
    · obtain rfl := List.mem_singleton.mp ha
      exact ⟨congrArg sp_audioformat.channels hformat,
        congrArg sp_audioformat.sample_rate hformat⟩
  · rw [hclaimed, List.length_append, ← Nat.add_assoc, hend, d.frames_length, hformat,
      Nat.add_mul, Nat.mul_assoc]
    rfl
  · rw [hclaimed]
    apply append_prefix_drop_iff.mpr
    rw [hend]
    exact ⟨h.bytes, hd⟩

/-- A read that asks for whole frames takes the next bytes. -/
lemma Holds.read {size : ℕ} (h : Holds fmt content pos playback s) (hal : playback.Aligned size) :
    playback.copied size <+: content.drop pos ∧
    Holds fmt content (pos + (playback.copied size).length) (playback.drained size) s := by
  have hsplit := spfs_audio_playback.copied_append_claimed h.wellFormed hal
  have hbytes := h.bytes
  rw [← hsplit] at hbytes
  obtain ⟨hcopied, hrest⟩ := append_prefix_drop_iff.mp hbytes
  obtain ⟨n, hn, hend⟩ := h.next
  refine ⟨hcopied, h.wellFormed.drained size, ?_, ⟨n, hn, ?_⟩, hrest⟩
  · rcases spfs_audio_playback.drained_cases h.wellFormed size with ⟨-, hd, -⟩ |
      ⟨audio, rest, hq, -, hd, -⟩ | ⟨popped, rest, -, hq, hd, -⟩
    · rw [hd]
      exact h.format
    · rw [hd]
      intro a ha
      rcases List.mem_cons.mp ha with rfl | ha
      · exact h.format audio (by simp [hq])
      · exact h.format a (by simp [hq, ha])
    · rw [hd]
      intro a ha
      exact h.format a (by simp [hq, ha])
  · rw [← hend, ← hsplit, List.length_append, Nat.add_assoc]

end Spotifile
