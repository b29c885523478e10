import Spotifile.Conservation
import Mathlib.Algebra.Order.BigOperators.Group.List

/-!
# The counter of the audio queue

`g_playback->nsamples` is kept in step with the queue by hand: `spotify_music_delivery` adds to it,
`spfs_audio_playback_flush` and both branches of `spotify_get_audio` take from it, and the branch
`sz == 0` takes a rounded number of frames from a segment whose bytes it does not round. `counters`
says that the counter stays right all the same, in every state that the threads can reach, and how
large it can become. The assertions at the end of a flush and the bounds of the copies follow from
the invariant `spfs_audio_playback.WellFormed`, of which the part that matters is that no segment is
ever empty.
-/

namespace Spotifile

open Lib

variable {β : Type} {duration : sp_track → ℤ}

/-! ## The bound -/

/-- The most frames that the queue could hold after a delivery was let in. -/
def Delivery.bound (d : Delivery β) : ℕ := 2 * d.format.sample_rate + d.num_frames

/-- The largest of these bounds over the accepted deliveries. -/
def bound : List (Event β) → ℕ
  | [] => 0
  | .delivered d :: log => max d.bound (bound log)
  | _ :: log => bound log

/-- The bound never falls. -/
lemma bound_le_cons (e : Event β) (log : List (Event β)) : bound log ≤ bound (e :: log) := by
  cases e with
  | delivered d => exact le_max_right _ _
  | _ => exact le_rfl

/-- The bound of a longer history is no smaller. -/
lemma bound_mono {log log' : List (Event β)} (h : log <:+ log') : bound log ≤ bound log' := by
  induction log' with
  | nil => rw [List.suffix_nil.mp h]
  | cons e log' ih =>
    rcases List.suffix_cons_iff.mp h with rfl | h
    · exact le_rfl
    · exact (ih h).trans (bound_le_cons e log')

/-! ## What a read takes and returns -/

/-- The reads from the samples of a segment that the second `while` of `spotify_get_audio` makes,
each as the end of its range: the `memcpy` of a whole segment, or the `memcpy` and the `memmove` of
a part. `sz` is what has been copied before.
Source: `spfs_spotify.c`, `spotify_get_audio`. -/
def get_audio_reads (size : ℕ) : List (spfs_audio β) → ℕ → List (spfs_audio β × ℕ)
  | [], _ => []
  | audio :: queue, sz =>
    if sz + audio.seg_sz ≤ size then
      (audio, audio.seg_sz) :: get_audio_reads size queue (sz + audio.seg_sz)
    else if sz = 0 then [(audio, size), (audio, size + (audio.seg_sz - size))]
    else []

/-- No copy reaches past the samples of its segment. -/
lemma get_audio_reads_le {size : ℕ} {queue : List (spfs_audio β)} {sz : ℕ}
    (hq : ∀ audio ∈ queue, audio.WellFormed) :
    ∀ r ∈ get_audio_reads size queue sz, r.2 ≤ r.1.samples.length := by
  induction queue generalizing sz with
  | nil => simp [get_audio_reads]
  | cons audio queue ih =>
    have hle := (hq audio (by simp)).seg_sz_le
    intro r hr
    unfold get_audio_reads at hr
    split at hr
    · rcases List.mem_cons.mp hr with rfl | hr
      · exact hle
      · exact ih (fun a ha => hq a (by simp [ha])) r hr
    next hfits =>
    split at hr
    · next hsz =>
      rw [hsz, Nat.zero_add] at hfits
      have hr : r = (audio, size) ∨ r = (audio, size + (audio.seg_sz - size)) := by simpa using hr
      rcases hr with rfl | rfl <;> simp only <;> omega
    · simp at hr

/-- The bytes of a read are what the copies read, up to its size: the `memmove` of a part moves what
is left within the segment. -/
lemma get_audio_loop_eq_reads {size : ℕ} {queue : List (spfs_audio β)} {nsamples : ℤ} {buf : List β}
    (hq : ∀ audio ∈ queue, audio.WellFormed) (hbuf : buf.length ≤ size) :
    (get_audio_loop size queue nsamples buf).2.2 =
      (buf ++ (get_audio_reads size queue buf.length).flatMap fun r => r.1.samples.take r.2).take
        size := by
  induction queue generalizing nsamples buf with
  | nil => simp [get_audio_loop, get_audio_reads, List.take_of_length_le hbuf]
  | cons audio queue ih =>
    have hle := (hq audio (by simp)).seg_sz_le
    rw [get_audio_loop, get_audio_reads]
    by_cases hfits : buf.length + audio.seg_sz ≤ size
    · have hlength :
          (buf ++ audio.samples.take audio.seg_sz).length = buf.length + audio.seg_sz := by
        rw [List.length_append, List.length_take, min_eq_left hle]
      rw [if_pos hfits, if_pos hfits, ih (fun a ha => hq a (by simp [ha])) (hlength.le.trans hfits),
        hlength, List.flatMap_cons, List.append_assoc]
    rw [if_neg hfits, if_neg hfits]
    by_cases hsz : buf.length = 0
    · obtain rfl := List.length_eq_zero_iff.mp hsz
      have hsize : (audio.samples.take size).length = size := by
        rw [List.length_take]
        simp only [List.length_nil] at hfits
        omega
      rw [if_pos hsz, if_pos hsz, List.flatMap_cons, List.nil_append, List.take_left' hsize]
    · rw [if_neg hsz, if_neg hsz]
      simp [List.take_of_length_le hbuf]

/-- A well-formed queue has no negative number of frames. -/
lemma frames_nonneg {queue : List (spfs_audio β)} (hq : ∀ audio ∈ queue, audio.WellFormed) :
    0 ≤ frames queue := by
  unfold frames
  apply List.sum_nonneg
  intro n hn
  obtain ⟨audio, ha, rfl⟩ := List.mem_map.mp hn
  exact (hq audio ha).nsamples_pos.le

namespace spfs_audio_playback

variable {playback : spfs_audio_playback β}

/-- A read only takes from the counter. -/
lemma WellFormed.drained_nsamples_le (h : playback.WellFormed) (size : ℕ) :
    (playback.drained size).nsamples ≤ playback.nsamples := by
  rcases drained_cases h size with ⟨-, hd, -⟩ | ⟨audio, rest, -, -, -, hn, -⟩ |
    ⟨popped, rest, -, hq, -, hn, -⟩
  · rw [hd]
  · have := Int.natCast_nonneg (size / (2 * audio.channels))
    omega
  · have hpopped : 0 ≤ frames popped := frames_nonneg fun a ha => h.queue a (by simp [hq, ha])
    omega

/-- A flush takes all from it. -/
lemma WellFormed.flush_nsamples (h : playback.WellFormed) : playback.flush.nsamples = 0 :=
  h.flush.nsamples

/-- A delivery that is let in finds at most two seconds of its own rate. -/
lemma deliver_nsamples_le {d : Delivery β} (hd : playback.accepts d = true) :
    (playback.deliver d).nsamples ≤ d.bound := by
  have hroom : playback.nsamples ≤ d.format.sample_rate * 2 := by
    simp only [accepts, Bool.and_eq_true, Bool.not_eq_true', decide_eq_false_iff_not] at hd
    omega
  show playback.nsamples + d.num_frames ≤ _
  unfold Delivery.bound
  push_cast
  omega

end spfs_audio_playback

/-! ## Runs -/

/-- The counter is the number of frames in the queue, of which every segment has some, and it is
within the bound. -/
structure Player.Counted (p : Player β) : Prop where
  nsamples : p.g_playback.nsamples = frames p.g_playback.queue
  segments : ∀ audio ∈ p.g_playback.queue, 0 < audio.nsamples
  bounded : p.g_playback.nsamples ≤ bound p.log

/-- What the code relies on when it flushes the queue or reads from it: the two assertions of
`spfs_audio_playback_flush`, the size of each segment, the range of each copy, and how much a read
returns of what was copied. -/
structure Player.Guarded (duration : sp_track → ℤ) (p : Player β) : Prop where
  flush : ∀ ok r p', exec duration .flush ok p = some (r, p') →
    p'.g_playback.nsamples = 0 ∧ p'.g_playback.queue = []
  seg_sz : ∀ audio ∈ p.g_playback.queue, 0 ≤ audio.nsamples * 2 * audio.channels
  copies : ∀ size, ∀ r ∈ get_audio_reads size p.g_playback.queue 0, r.2 ≤ r.1.samples.length
  copied : ∀ size ok bytes p', exec duration (.audio size) ok p = some (some bytes, p') →
    bytes = ((get_audio_reads size p.g_playback.queue 0).flatMap fun r => r.1.samples.take
      r.2).take size
  read : ∀ size ok bytes p', exec duration (.audio size) ok p = some (some bytes, p') →
    bytes.length ≤ size ∧ (0 < size → p.g_playback.queue ≠ [] → bytes ≠ [])

/-- No instruction takes anything off the history. -/
lemma exec_log {γ : Type} {i : Instr β γ} {ok : Bool} {p p' : Player β} {r : Option γ}
    (h : exec duration i ok p = some (r, p')) : p.log <:+ p'.log := by
  rcases exec_log_cases h with hlog | ⟨e, -, hlog⟩
  · exact ⟨[], hlog.symm⟩
  · exact ⟨[e], hlog.symm⟩

/-- Every instruction keeps the counter within the bound. -/
lemma exec_bounded {γ : Type} {i : Instr β γ} {ok : Bool} {p p' : Player β} {r : Option γ}
    (hwf : p.g_playback.WellFormed) (hp : p.g_playback.nsamples ≤ bound p.log)
    (h : exec duration i ok p = some (r, p')) : p'.g_playback.nsamples ≤ bound p'.log := by
  have hlog : (bound p.log : ℤ) ≤ bound p'.log := by exact_mod_cast bound_mono (exec_log h)
  -- it is enough that an instruction other than a delivery adds nothing
  have of_le : p'.g_playback.nsamples ≤ p.g_playback.nsamples →
      p'.g_playback.nsamples ≤ bound p'.log := fun hle => (hle.trans hp).trans hlog
  by_cases hi : i.quiet = true
  · obtain ⟨-, hn, -⟩ := exec_quiet hi h
    exact of_le hn.le
  · cases i <;> first | exact absurd rfl hi | skip
    case delivery d =>
      rcases exec_delivery h with ⟨ha, -, rfl⟩ | ⟨-, -, rfl⟩
      · have hd := spfs_audio_playback.deliver_nsamples_le ha
        have hmax : (d.bound : ℤ) ≤ bound (.delivered d :: p.log) := by
          exact_mod_cast le_max_left d.bound (bound p.log)
        exact hd.trans hmax
      · exact hp
    case audio size =>
      rcases exec_audio h with ⟨-, ⟨-, -, -, rfl⟩ | ⟨-, -, rfl⟩⟩
      · exact hp
      · exact of_le (hwf.drained_nsamples_le size)
    case track_info =>
      obtain ⟨cond, rfl⟩ := exec_track_info_cond h
      exact hp
    case flush =>
      obtain ⟨-, rfl⟩ := executed_eq h
      show p.g_playback.flush.nsamples ≤ bound p.log
      rw [hwf.flush_nsamples]
      exact Int.natCast_nonneg _
    all_goals
      apply of_le
      obtain ⟨-, rfl⟩ := executed_eq h
      exact le_rfl

/-- A well-formed queue is safe to flush and to read from. -/
lemma guarded_of_wellFormed {p : Player β} (hwf : p.g_playback.WellFormed) :
    p.Guarded duration where
  flush ok r p' h := by
    obtain ⟨-, rfl⟩ := executed_eq h
    exact ⟨hwf.flush_nsamples, rfl⟩
  seg_sz audio ha := by
    have := (hwf.queue audio ha).nsamples_pos
    positivity
  copies size := get_audio_reads_le hwf.queue
  copied size ok bytes p' h := by
    rcases exec_audio h with ⟨-, ⟨-, -, hr, -⟩ | ⟨-, hr, -⟩⟩
    · cases hr
    · rw [Option.some.inj hr]
      exact get_audio_loop_eq_reads hwf.queue (Nat.zero_le size)
  read size ok bytes p' h := by
    rcases exec_audio h with ⟨-, ⟨-, -, hr, -⟩ | ⟨-, hr, -⟩⟩
    · cases hr
    · obtain rfl := Option.some.inj hr
      constructor
      · exact spfs_audio_playback.length_copied_le hwf size
      · exact spfs_audio_playback.copied_ne_nil hwf

variable {may : ℕ → Call β → Player β → Bool}

/-- In every state that the threads can reach the counter is right and bounded, and nothing that
relies on it fails. -/
theorem counters {w : World (Instr β) (Player β) ℕ}
    {l : List (World (Instr β) (Player β) ℕ × Action ℕ (Call β) Bool)}
    (hl : Trace (playback_system duration may) (.idle .init) l w) :
    w.shared.Counted ∧ w.shared.Guarded duration := by
  have hinv : w.shared.g_playback.WellFormed ∧
      w.shared.g_playback.nsamples ≤ bound w.shared.log := by
    apply hl.always (I := fun w : World (Instr β) (Player β) ℕ =>
      w.shared.g_playback.WellFormed ∧ w.shared.g_playback.nsamples ≤ bound w.shared.log)
    · exact ⟨⟨by simp [World.idle, Player.init, spfs_audio_playback_new], rfl⟩, le_rfl⟩
    · rintro w a w' ⟨hwf, hn⟩ h
      refine ⟨step_wellFormed hwf h, ?_⟩
      rcases System.step_shared h with ⟨t, c, -, -, hs⟩ | ⟨γ, t, o, i, r, -, -, he⟩
      · rwa [hs]
      · exact exec_bounded hwf hn he
  obtain ⟨hwf, hn⟩ := hinv
  exact ⟨⟨hwf.nsamples, fun audio ha => (hwf.queue audio ha).nsamples_pos, hn⟩,
    guarded_of_wellFormed hwf⟩

/-- Track 1 is started, two frames arrive, and the reader asks for one byte of them. -/
def play_and_read_a_byte : List (Action ℕ (Call ℕ) Bool) :=
  .start reader (.play_track 1) :: List.replicate 6 (.step reader true) ++ deliver_and_read 1

/-- The theorem at a run that reads a fraction of a frame: the counter still says two. -/
theorem counters_one_byte : ∃ l w,
    Trace (playback_system (fun _ => 0) fun _ _ _ => true) (.idle (.init : Player ℕ)) l w ∧
    w.shared.g_playback.nsamples = 2 ∧ returned w.shared.log = [10] ∧
    w.shared.Counted ∧ w.shared.Guarded fun _ => 0 := by
  obtain ⟨l, w, hl, -, hn, hr⟩ := Trace.exists_of_run
    (playback_system (fun _ => 0) fun _ _ _ => true) (fun _ _ => True) (.idle .init)
    play_and_read_a_byte
    (fun w => w.shared.g_playback.nsamples = 2 ∧ returned w.shared.log = [10]) (by decide)
  exact ⟨l, w, hl, hn, hr, counters hl⟩

end Spotifile
