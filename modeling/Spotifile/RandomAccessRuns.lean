import Spotifile.RandomAccess

/-!
# Reading a WAV file at any offset

`wav_reads_file`: in a run in which every seek is exact and every read that splits a segment asks
for whole frames of it, each read returns the bytes of the file at its offset. Between two calls of
the reader the queue goes on at the byte of the audio that `expoff` names (`FileReady`), and each
function of the source is shown to lead from there to there, whatever is delivered meanwhile. The
two runs after the theorem show that neither condition can go.
-/

namespace Spotifile

open Lib

variable {β : Type} {duration : sp_track → ℤ}
variable {track : sp_track} {fmt : sp_audioformat} {content : List β}

/-! ## The discipline -/

variable (fmt content) in
/-- What the reader relies on the deliveries to do. -/
structure FileRely (s s' : Player β × Stream) : Prop where
  playing : s'.1.g_playback.playing = s.1.g_playback.playing
  expoff : s'.1.expoff = s.1.expoff
  sought : s'.2.sought = s.2.sought
  wellFormed : s.1.g_playback.WellFormed → s'.1.g_playback.WellFormed
  /-- Nothing is delivered before the track is loaded, and between a seek and its flush. -/
  still : s.2.next = none ∨ s.2.sought = true →
    s'.1.g_playback.queue = s.1.g_playback.queue ∧ s'.2 = s.2
  holds : ∀ pos, Holds fmt content pos s.1.g_playback s.2 →
    Holds fmt content pos s'.1.g_playback s'.2

/-- A step that leaves alone what the reader looks at. -/
lemma FileRely.of_same {s s' : Player β × Stream}
    (hq : s'.1.g_playback.queue = s.1.g_playback.queue)
    (hn : s'.1.g_playback.nsamples = s.1.g_playback.nsamples)
    (hpl : s'.1.g_playback.playing = s.1.g_playback.playing)
    (hexpoff : s'.1.expoff = s.1.expoff) (hs : s'.2 = s.2) : FileRely fmt content s s' := by
  have hwf : s.1.g_playback.WellFormed → s'.1.g_playback.WellFormed := by
    intro h
    exact ⟨hq ▸ h.queue, by rw [hn, hq, h.nsamples]⟩
  refine ⟨hpl, hexpoff, congrArg Stream.sought hs, hwf, fun _ => ⟨hq, hs⟩, fun pos h => ?_⟩
  refine ⟨hwf h.wellFormed, ?_, ?_, ?_⟩
  · rw [hq]
    exact h.format
  · rw [hq, hs]
    exact h.next
  · rw [hq]
    exact h.bytes

variable (fmt content track) in
/-- The track is playing, `expoff` is `e`, and the queue goes on at byte `pos` of the audio. -/
structure StandsAt (pos e : ℕ) (s : Player β × Stream) : Prop where
  playing : s.1.g_playback.playing = some track
  expoff : s.1.expoff = e
  sought : s.2.sought = false
  holds : Holds fmt content pos s.1.g_playback s.2

/-- The track was not loaded yet. -/
structure Stopped (s : Player β × Stream) : Prop where
  wellFormed : s.1.g_playback.WellFormed
  queue : s.1.g_playback.queue = []
  playing : s.1.g_playback.playing = none
  expoff : s.1.expoff = 0
  next : s.2.next = none

variable (fmt content track) in
/-- Between two calls of the reader the queue goes on at the byte of the audio that `expoff`
names. -/
def FileReady (s : Player β × Stream) : Prop :=
  Stopped s ∨ ∃ e, StandsAt track fmt content (e - sizeof_wav_header) e s

variable (duration track fmt content) in
/-- The terms between the reader and the deliveries. -/
def file_discipline : Discipline (Instr β) (Player β × Stream) ℕ (WavCall β) where
  inv s := ReadsFile duration track fmt content s.1.log
  rely t s s' := t = reader → FileRely fmt content s s'
  idle t s := t = reader → FileReady track fmt content s
  ok i s := DeliversNext fmt content i s ∧ AlignedRead i s.1
  okStart _ c s := SoughtExactly fmt c s.1

variable (fmt content) in
/-- An assertion of the reader that no delivery can break. -/
def FileStable (P : Player β × Stream → Prop) : Prop :=
  ∀ s s', FileRely fmt content s s' → P s → P s'

/-- A delivery leaves the queue where it stands. -/
lemma stable_standsAt (pos e : ℕ) : FileStable fmt content (StandsAt track fmt content pos e) := by
  intro s s' hrely h
  exact ⟨hrely.playing.trans h.playing, hrely.expoff.trans h.expoff, hrely.sought.trans h.sought,
    hrely.holds pos h.holds⟩

/-- Before the load nothing is queued. -/
lemma stable_stopped : FileStable fmt content (β := β) Stopped := by
  intro s s' hrely h
  obtain ⟨hq, hs⟩ := hrely.still (.inl h.next)
  exact ⟨hrely.wellFormed h.wellFormed, hq.trans h.queue, hrely.playing.trans h.playing,
    hrely.expoff.trans h.expoff, hs ▸ h.next⟩

/-- A delivery leaves the file ready for the next read. -/
lemma stable_fileReady : FileStable fmt content (FileReady track fmt content) := by
  intro s s' hrely h
  rcases h with h | ⟨e, h⟩
  · exact .inl (stable_stopped s s' hrely h)
  · exact .inr ⟨e, stable_standsAt _ e s s' hrely h⟩

/-! ## What the instructions do -/

/-- Beside an instruction only `Stream.saw` is done. -/
lemma file_exec {γ : Type} {i : Instr β γ} {o : Bool} {r : Option γ} {p p' : Player β}
    {s s' : Stream} (h : (file_system duration track fmt).exec i o (p, s) = some (r, (p', s'))) :
    exec duration i o p = some (r, p') ∧ s' = Stream.saw fmt i r p s := System.observe_exec h

/-- The instructions of the reader that leave the queue, `playing` and `expoff` alone. -/
def Instr.keeps : {γ : Type} → Instr β γ → Bool
  | _, .is_playing | _, .get_playing | _, .get_done | _, .set_done _ | _, .track_info
  | _, .get_expoff | _, .wav_open _ | _, .wav_release | _, .refused _ | _, .played _
  | _, .wav_returned _ _ _ _ => true
  | _, _ => false

/-- These instructions leave alone what the file relies on. -/
lemma exec_keeps {γ : Type} {i : Instr β γ} {o : Bool} {r : Option γ} {s s' : Player β × Stream}
    (hi : i.keeps = true) (h : (file_system duration track fmt).exec i o s = some (r, s')) :
    FileRely fmt content s s' := by
  obtain ⟨p, n⟩ := s
  obtain ⟨p', n'⟩ := s'
  obtain ⟨he, hn⟩ := file_exec h
  cases i with
  | track_info =>
    obtain ⟨cond, rfl⟩ := exec_track_info_cond he
    exact .of_same rfl rfl rfl rfl hn
  | wav_open track =>
    rcases exec_wav_open he with ⟨-, -, rfl⟩ | ⟨-, -, rfl⟩
    · exact .of_same rfl rfl rfl rfl hn
    · exact .of_same rfl rfl rfl rfl hn
  | is_playing | get_playing | get_done | set_done b | get_expoff | wav_release | refused size
  | played track | wav_returned track offset size bytes =>
    obtain ⟨-, rfl⟩ := executed_eq he
    exact .of_same rfl rfl rfl rfl hn
  | _ => cases hi

/-- A delivery of the next frames does what the reader relies on. -/
lemma exec_delivers {d : Delivery β} {o : Bool} {r : Option ℕ} {s s' : Player β × Stream}
    (hok : DeliversNext fmt content (.delivery d) s)
    (h : (file_system duration track fmt).exec (.delivery d) o s = some (r, s')) :
    FileRely fmt content s s' := by
  obtain ⟨p, n⟩ := s
  obtain ⟨p', n'⟩ := s'
  obtain ⟨he, rfl⟩ := file_exec h
  obtain ⟨hsought, hformat, m, hm, hframes⟩ := hok
  rcases exec_delivery he with ⟨hacc, rfl, rfl⟩ | ⟨-, rfl, rfl⟩
  · have hnext : Stream.saw fmt (.delivery d) (some d.num_frames) p n
        = { n with next := some (m + d.num_frames) } := by
      rw [saw_delivery, Option.mem_def.mp hm, Option.map_some]
    rw [hnext]
    refine ⟨rfl, rfl, rfl, fun hwf => hwf.deliver hacc, fun hstill => ?_, fun pos hpos => ?_⟩
    · rcases hstill with hnone | hsought'
      · cases hm.symm.trans hnone
      · cases hsought.symm.trans hsought'
    · exact hpos.deliver hacc hformat hm hframes
  · have hsame : Stream.saw fmt (.delivery d) (some 0) p' n = n := by
      rw [saw_delivery, Option.mem_def.mp hm, Option.map_some, Nat.add_zero, ← hm]
    exact .of_same rfl rfl rfl rfl hsame

/-! ## Every call keeps to the discipline -/

section Calls

variable {α γ : Type}

variable (duration track fmt content) in
/-- The rest of a program of the reader keeps to the discipline and ends in `Q`. -/
abbrev FileSafe (Q : α → Player β × Stream → Prop) (k : Prog (Instr β) α)
    (s : Player β × Stream) : Prop :=
  Prog.Safe (file_system duration track fmt) (file_discipline duration track fmt content) reader
    Q k s

variable (duration track fmt content) in
/-- What has to hold in front of an instruction for the reads to stay those of the file. -/
def FilePre : {γ : Type} → Instr β γ → Prop
  | _, .wav_returned track' offset _ bytes =>
    track' = track → FileBytes duration track fmt content offset bytes
  | _, _ => True

/-- What was returned stays right if the read that an instruction adds is. -/
lemma exec_readsFile {i : Instr β γ} {o : Bool} {r : Option γ} {s s' : Player β × Stream}
    (hs : ReadsFile duration track fmt content s.1.log)
    (hpre : FilePre duration track fmt content i)
    (h : (file_system duration track fmt).exec i o s = some (r, s')) :
    ReadsFile duration track fmt content s'.1.log := by
  intro offset size bytes hmem
  rcases exec_mem_wav (file_exec h).1 hmem with hmem | hadds
  · exact hs offset size bytes hmem
  · cases i with
    | wav_returned track' offset' size' bytes' =>
      obtain ⟨rfl, rfl, rfl, rfl⟩ := Event.wav.inj hadds
      exact hpre rfl
    | _ => simp [Instr.adds] at hadds

/-- The rule for an instruction of the reader. -/
lemma FileSafe.step {Q : α → Player β × Stream → Prop} {i : Instr β γ}
    {k : γ → Prog (Instr β) α} {s : Player β × Stream} (P : Player β × Stream → Prop) (hP : P s)
    (hstable : FileStable fmt content P) (hpre : FilePre duration track fmt content i)
    (hstep : ∀ s o r s', P s → AlignedRead i s.1 →
      (file_system duration track fmt).exec i o s = some (r, s') → (r = none → P s') ∧
        ∀ v, r = some v → FileSafe duration track fmt content Q (k v) s') :
    FileSafe duration track fmt content Q (.call i k) s := by
  refine Prog.Safe.call P hP (fun s s' _ hrely h => hstable s s' (hrely rfl) h) ?_
  intro s o r s' hinv hP hok he
  obtain ⟨hnone, hsome⟩ := hstep s o r s' hP hok.2 he
  exact ⟨exec_readsFile hinv hpre he, fun u hu hreader => absurd hreader hu, hnone, hsome⟩

/-- The rule for an instruction that leaves the queue, `playing` and `expoff` alone. -/
lemma FileSafe.keep {Q : α → Player β × Stream → Prop} {i : Instr β γ}
    {k : γ → Prog (Instr β) α} {s : Player β × Stream} (P : Player β × Stream → Prop) (hP : P s)
    (hstable : FileStable fmt content P) (hkeeps : i.keeps = true)
    (hpre : FilePre duration track fmt content i)
    (hk : ∀ o v s s', P s → P s' → exec duration i o s.1 = some (some v, s'.1) →
      FileSafe duration track fmt content Q (k v) s') :
    FileSafe duration track fmt content Q (.call i k) s := by
  refine FileSafe.step P hP hstable hpre fun s o r s' hP _ he => ?_
  have hkept : P s' := hstable s s' (exec_keeps hkeeps he) hP
  refine ⟨fun _ => hkept, ?_⟩
  rintro v rfl
  exact hk o v s s' hP hkept (file_exec he).1

/-- The critical section of `spotify_get_audio` takes the bytes at which the queue stands. -/
lemma audio_file {pos e : ℕ} (size : ℕ) {s : Player β × Stream}
    (hs : StandsAt track fmt content pos e s) :
    FileSafe duration track fmt content
      (fun bytes s => bytes <+: content.drop pos ∧
        StandsAt track fmt content (pos + bytes.length) e s)
      (Prog.of (.audio size)) s := by
  refine FileSafe.step _ hs (stable_standsAt pos e) trivial ?_
  rintro ⟨p, n⟩ o r ⟨p', n'⟩ h hal hexec
  obtain ⟨he, hn⟩ := file_exec hexec
  obtain rfl : n' = n := hn
  rcases exec_audio he with ⟨-, ⟨-, -, rfl, rfl⟩ | ⟨-, rfl, rfl⟩⟩
  · refine ⟨fun _ => stable_standsAt pos e (p, n') _ (.of_same rfl rfl rfl rfl rfl) h, ?_⟩
    intro v hv
    cases hv
  · refine ⟨fun hr => (by cases hr), ?_⟩
    intro v hv
    obtain rfl := Option.some.inj hv
    obtain ⟨hbytes, hholds⟩ := h.holds.read hal
    exact ⟨hbytes, h.playing, h.expoff, h.sought, hholds⟩

/-- `spotify_get_audio` returns bytes of the track from where the queue stands. -/
lemma get_audio_file {pos e : ℕ} (size : ℕ) {s : Player β × Stream}
    (hs : StandsAt track fmt content pos e s) :
    FileSafe duration track fmt content
      (fun bytes s => bytes <+: content.drop pos ∧
        StandsAt track fmt content (pos + bytes.length) e s)
      (spotify_get_audio size) s := by
  unfold spotify_get_audio spotify_is_playing
  simp only [Prog.of_bind]
  refine FileSafe.keep _ hs (stable_standsAt pos e) rfl trivial ?_
  intro o v s s' _ h he
  obtain ⟨rfl, hp⟩ := returned_eq he
  have hplaying : s.1.g_playback.playing = some track := hp ▸ h.playing
  simp only [hplaying, Option.isSome_some, if_true]
  refine FileSafe.keep _ h (stable_standsAt pos e) rfl trivial fun o v s s' _ h _ => ?_
  cases v with
  | true =>
    refine FileSafe.keep _ h (stable_standsAt pos e) rfl trivial fun _ _ _ _ _ h _ => ?_
    refine FileSafe.keep _ h (stable_standsAt pos e) rfl trivial fun _ _ _ _ _ h _ => ?_
    exact ⟨List.nil_prefix, h⟩
  | false => exact audio_file size h

/-- `spotify_get_track_info` returns the duration and the format of the track. -/
lemma track_info_file {pos e : ℕ} {s : Player β × Stream}
    (hs : StandsAt track fmt content pos e s) :
    FileSafe duration track fmt content
      (fun info s => StandsAt track fmt content pos e s ∧ (¬ info.duration < 0 →
        info = ⟨duration track, fmt.channels, fmt.sample_rate⟩))
      spotify_get_track_info s := by
  refine FileSafe.keep _ hs (stable_standsAt pos e) rfl trivial ?_
  intro o v s s' h h' he
  refine ⟨h', fun hd => ?_⟩
  obtain ⟨track', audio, rest, hpl, hq, rfl⟩ := exec_track_info_some he hd
  obtain ⟨hchannels, hrate⟩ := h.holds.format audio (by simp [hq])
  obtain rfl := Option.some.inj (hpl.symm.trans h.playing)
  rw [hchannels, hrate]

/-- While nothing is playing `spotify_get_track_info` fails. -/
lemma track_info_stopped {s : Player β × Stream} (hs : Stopped s) :
    FileSafe duration track fmt content (fun info s => info.duration < 0 ∧ Stopped s)
      spotify_get_track_info s := by
  refine FileSafe.keep _ hs stable_stopped rfl trivial ?_
  intro o v s s' h h' he
  refine ⟨?_, h'⟩
  by_contra hd
  obtain ⟨track, -, -, hpl, -⟩ := exec_track_info_some he hd
  cases hpl.symm.trans h.playing

/-- The rule for an instruction that does not wait. -/
lemma FileSafe.ends {Q : α → Player β × Stream → Prop} {i : Instr β γ}
    {k : γ → Prog (Instr β) α} {s : Player β × Stream} (P : Player β × Stream → Prop) (hP : P s)
    (hstable : FileStable fmt content P) (hwaits : i.waits = false)
    (hpre : FilePre duration track fmt content i)
    (hk : ∀ o v p p' n, P (p, n) → exec duration i o p = some (some v, p') →
      FileSafe duration track fmt content Q (k v) (p', Stream.saw fmt i (some v) p n)) :
    FileSafe duration track fmt content Q (.call i k) s := by
  apply FileSafe.step P hP hstable hpre
  rintro ⟨p, n⟩ o r ⟨p', n'⟩ hP - hexec
  obtain ⟨he, hn⟩ := file_exec hexec
  refine ⟨fun hr => absurd hr (exec_ends hwaits he), ?_⟩
  rintro v rfl
  rw [hn]
  exact hk o v p p' n hP he

variable (track) in
/-- libspotify was told to go on at frame `n`, and the queue is about to be flushed. -/
structure SoughtTo (n e : ℕ) (s : Player β × Stream) : Prop where
  playing : s.1.g_playback.playing = some track
  expoff : s.1.expoff = e
  sought : s.2.sought = true
  next : s.2.next = some n
  wellFormed : s.1.g_playback.WellFormed

/-- Between a seek and its flush nothing is delivered. -/
lemma stable_soughtTo (n e : ℕ) :
    FileStable (β := β) fmt content (SoughtTo track n e) := by
  intro s s' hrely h
  obtain ⟨-, hs⟩ := hrely.still (.inr h.sought)
  exact ⟨hrely.playing.trans h.playing, hrely.expoff.trans h.expoff, hs ▸ h.sought, hs ▸ h.next,
    hrely.wellFormed h.wellFormed⟩

/-- After a seek the queue goes on at the frame that libspotify was told. -/
lemma seek_track_file {pos e ms : ℕ} {s : Player β × Stream}
    (hs : StandsAt track fmt content pos e s) :
    FileSafe duration track fmt content
      (fun _ => StandsAt track fmt content (ms * fmt.sample_rate / 1000 * fmt.frame_size) e)
      (spotify_seek_track ms) s := by
  unfold spotify_seek_track spfs_audio_playback_flush
  rw [if_neg (by omega)]
  simp only [Prog.of_bind]
  refine FileSafe.keep _ hs (stable_standsAt pos e) rfl trivial fun _ _ _ _ _ h _ => ?_
  refine FileSafe.ends _ h (stable_standsAt pos e) rfl trivial fun o v p p' n h he => ?_
  obtain ⟨-, rfl⟩ := executed_eq he
  have hsought : SoughtTo track (ms * fmt.sample_rate / 1000) e
      (p, Stream.saw fmt (.player_seek ms) (some v) p n) := by
    obtain ⟨m, hm, -⟩ := h.holds.next
    refine ⟨h.playing, h.expoff, rfl, ?_, h.holds.wellFormed⟩
    rw [saw_seek, hm, Option.map_some, Int.toNat_natCast]
  refine FileSafe.ends _ hsought (stable_soughtTo _ e) rfl trivial fun o v p p' n h he => ?_
  obtain ⟨-, rfl⟩ := executed_eq he
  exact ⟨h.playing, h.expoff, rfl, holds_of_empty h.wellFormed.flush rfl h.next⟩

variable (fmt content) in
/-- The track is loaded, and not yet entered as playing. -/
structure JustLoaded (s : Player β × Stream) : Prop where
  expoff : s.1.expoff = 0
  sought : s.2.sought = false
  holds : Holds fmt content 0 s.1.g_playback s.2

/-- A delivery after the load goes on with the audio. -/
lemma stable_justLoaded : FileStable (β := β) fmt content (JustLoaded fmt content) :=
  fun _ _ hrely h => ⟨hrely.expoff.trans h.expoff, hrely.sought.trans h.sought,
    hrely.holds 0 h.holds⟩

/-- `spotify_play_track` starts the track at its first frame. -/
lemma play_track_stopped {s : Player β × Stream} (hs : Stopped s) :
    FileSafe duration track fmt content
      (fun ok s => (ok = false → Stopped s) ∧ (ok = true → StandsAt track fmt content 0 0 s))
      (spotify_play_track track) s := by
  unfold spotify_play_track spfs_audio_playback_flush
  simp only [Prog.of_bind]
  refine FileSafe.keep _ hs stable_stopped rfl trivial ?_
  intro o v s s' _ h he
  obtain ⟨rfl, hp⟩ := returned_eq he
  have hplaying : s.1.g_playback.playing = none := hp ▸ h.playing
  rw [if_neg (by rw [hplaying]; simp)]
  refine FileSafe.ends _ h stable_stopped rfl trivial fun o v p p' n h he => ?_
  obtain ⟨-, rfl⟩ := executed_eq he
  have hflushed : Stopped (β := β) ({ p with
        g_playback := p.g_playback.flush
        cond := p.cond.signal }, Stream.saw fmt .flush (some v) p n) :=
    ⟨h.wellFormed.flush, rfl, h.playing, h.expoff, h.next⟩
  refine FileSafe.keep _ hflushed stable_stopped rfl trivial fun _ _ _ _ _ h _ => ?_
  refine FileSafe.ends _ h stable_stopped rfl trivial fun o v p p' n h he => ?_
  cases o with
  | false =>
    simp only [exec, Bool.false_eq_true, if_false, Option.some.injEq, Prod.mk.injEq] at he
    obtain ⟨rfl, rfl⟩ := he
    exact ⟨fun _ => h, fun hv => by cases hv⟩
  | true =>
    simp only [exec, if_true, Option.some.injEq, Prod.mk.injEq] at he
    obtain ⟨rfl, rfl⟩ := he
    rw [if_pos rfl, saw_load]
    have hholds : Holds fmt content (0 * fmt.frame_size) p.g_playback ⟨some 0, false⟩ :=
      holds_of_empty h.wellFormed h.queue rfl
    rw [Nat.zero_mul] at hholds
    refine FileSafe.ends _ ⟨h.expoff, rfl, hholds⟩ stable_justLoaded rfl trivial
      fun o v p p' n h he => ?_
    obtain ⟨-, rfl⟩ := executed_eq he
    have hplays : StandsAt track fmt content 0 0 ({ p with
          g_playback := { p.g_playback with playing := some track } },
        Stream.saw fmt (.set_playing track) (some v) p n) :=
      ⟨rfl, h.expoff, h.sought, ⟨⟨h.holds.wellFormed.queue, h.holds.wellFormed.nsamples⟩,
        h.holds.format, h.holds.next, h.holds.bytes⟩⟩
    refine FileSafe.keep _ hplays (stable_standsAt 0 0) rfl trivial fun _ _ _ _ _ h _ => ?_
    exact ⟨fun hv => (by cases hv), fun _ => h⟩

/-- A track that is playing already is left alone. -/
lemma play_track_file {pos e : ℕ} {s : Player β × Stream}
    (hs : StandsAt track fmt content pos e s) :
    FileSafe duration track fmt content
      (fun ok s => ok = true ∧ StandsAt track fmt content pos e s)
      (spotify_play_track track) s := by
  unfold spotify_play_track
  simp only [Prog.of_bind]
  refine FileSafe.keep _ hs (stable_standsAt pos e) rfl trivial ?_
  intro o v s s' _ h he
  obtain ⟨rfl, hp⟩ := returned_eq he
  have hplaying : s.1.g_playback.playing = some track := hp ▸ h.playing
  rw [if_pos hplaying]
  exact FileSafe.keep _ h (stable_standsAt pos e) rfl trivial fun _ _ _ _ _ h _ => ⟨rfl, h⟩

variable (track fmt content) in
/-- The reader is at rest, and can go to the offset. -/
def Prepared (offset : ℕ) (s : Player β × Stream) : Prop :=
  Stopped s ∨ ∃ e, StandsAt track fmt content (e - sizeof_wav_header) e s ∧
    (offset ≠ 0 → offset ≠ e → SeeksExactly fmt offset)

/-- The start of the track leaves the reader prepared. -/
lemma wav_start_file {offset : ℕ} {s : Player β × Stream}
    (hs : Prepared track fmt content offset s) :
    FileSafe duration track fmt content (fun _ => Prepared track fmt content offset)
      (wav_start track offset) s := by
  unfold wav_start
  split
  · next ho =>
    rcases hs with hs | ⟨e, hs, hseek⟩
    · refine (play_track_stopped hs).mono fun ok s h => ?_
      cases ok with
      | false => exact .inl (h.1 rfl)
      | true => exact .inr ⟨0, h.2 rfl, fun h0 => absurd ho h0⟩
    · exact (play_track_file hs).mono fun ok s h => .inr ⟨e, h.2, hseek⟩
  · exact hs

/-- The bytes of the file from an offset on: what is left of the header, and of the audio. -/
lemma drop_wav_file (offset : ℕ) : (wav_file duration track fmt content).drop offset =
    ((fill_wav_header fmt.channels fmt.sample_rate (duration track)).bytes.drop offset).map .inl ++
      (content.drop (offset - sizeof_wav_header)).map .inr := by
  unfold wav_file
  rw [List.drop_append, List.length_map, wav_header.length_bytes, List.map_drop, List.map_drop]

/-- A beginning of the file behind the offset is what a read may return. -/
lemma fileBytes_of_prefix {offset : ℕ} {bytes : List (UInt8 ⊕ β)}
    (h : bytes <+: (wav_file duration track fmt content).drop offset) :
    FileBytes duration track fmt content offset bytes := by
  intro i b hb
  obtain ⟨hi, rfl⟩ := List.getElem?_eq_some_iff.mp hb
  rw [← List.getElem?_drop]
  exact List.prefix_iff_getElem?.mp h i hi

variable (duration track fmt) in
/-- The part of the buffer that comes from the header. -/
def HeaderPart (offset : ℕ) (buf : List UInt8) : Prop :=
  buf <+: (fill_wav_header fmt.channels fmt.sample_rate (duration track)).bytes.drop offset

/-- No more is copied of the header than there is. -/
lemma HeaderPart.length_le {offset : ℕ} {buf : List UInt8}
    (h : HeaderPart duration track fmt offset buf) : buf.length ≤ sizeof_wav_header - offset := by
  have hle := List.IsPrefix.length_le h
  rwa [List.length_drop, wav_header.length_bytes] at hle

/-- What was read of the header, and the audio behind it if there is nothing left of the header. -/
lemma HeaderPart.fileBytes {offset : ℕ} {buf : List UInt8} {audio : List β}
    (h : HeaderPart duration track fmt offset buf)
    (haudio : audio <+: content.drop (offset - sizeof_wav_header))
    (hrest : audio ≠ [] → sizeof_wav_header ≤ offset + buf.length) :
    FileBytes duration track fmt content offset (buf.map .inl ++ audio.map .inr) := by
  apply fileBytes_of_prefix
  rw [drop_wav_file]
  by_cases hnil : audio = []
  · rw [hnil, List.map_nil, List.append_nil]
    exact (List.IsPrefix.map _ h).trans (List.prefix_append _ _)
  · have hle := hrest hnil
    have hwhole := List.IsPrefix.eq_of_length_le h (by
      rw [List.length_drop, wav_header.length_bytes]
      omega)
    rw [← hwhole]
    exact (List.prefix_append_right_inj _).mpr (haudio.map _)

/-- A read from where the queue stands at the offset. -/
lemma wav_read_audio_file {buf : List UInt8} (size : ℕ) {offset : ℕ} {s : Player β × Stream}
    (hbuf : HeaderPart duration track fmt offset buf)
    (hs : StandsAt track fmt content (offset - sizeof_wav_header) offset s) :
    FileSafe duration track fmt content
      (fun bytes s => FileReady track fmt content s ∧
        FileBytes duration track fmt content offset bytes)
      (wav_read_audio buf size offset) s := by
  have hlen := hbuf.length_le
  have haudio : FileSafe duration track fmt content
      (fun audio s => audio <+: content.drop (offset - sizeof_wav_header) ∧
        (audio ≠ [] → sizeof_wav_header ≤ offset + buf.length) ∧
        StandsAt track fmt content (offset - sizeof_wav_header + audio.length) offset s)
      (wav_audio buf size offset) s := by
    unfold wav_audio
    split
    · next hread =>
      exact (get_audio_file _ hs).mono fun audio s h => ⟨h.1, fun _ => hread.2, h.2⟩
    · exact ⟨List.nil_prefix, fun h => absurd rfl h, hs⟩
  refine haudio.bind fun audio s ⟨hbytes, hrest, hs⟩ => ?_
  simp only [Prog.of_bind]
  refine FileSafe.keep _ hs (stable_standsAt _ offset) rfl trivial fun o v s s' h h' he => ?_
  obtain ⟨rfl, -⟩ := returned_eq he
  rw [h.expoff]
  refine FileSafe.ends _ h' (stable_standsAt _ offset) rfl trivial fun o v p p' n h he => ?_
  obtain ⟨-, rfl⟩ := executed_eq he
  refine ⟨.inr ⟨offset + (buf.length + audio.length), h.playing, rfl, h.sought, ?_⟩,
    hbuf.fileBytes hbytes hrest⟩
  have hpos : offset + (buf.length + audio.length) - sizeof_wav_header
      = offset - sizeof_wav_header + audio.length := by
    by_cases hnil : audio = []
    · rw [hnil, List.length_nil]
      omega
    · have := hrest hnil
      omega
  rw [hpos]
  exact h.holds

/-- An exact seek ends at the byte of the audio that the offset names. -/
lemma SeeksExactly.position {offset : ℕ} (h : SeeksExactly fmt offset) :
    offset / fmt.byte_rate * 1000 * fmt.sample_rate / 1000 * fmt.frame_size
      = offset - sizeof_wav_header := by
  have hframe : offset / fmt.byte_rate * 1000 * fmt.sample_rate / 1000
      = offset / fmt.byte_rate * fmt.sample_rate := by
    rw [Nat.mul_right_comm]
    exact Nat.mul_div_cancel _ (by norm_num)
  have hbytes : fmt.sample_rate * fmt.frame_size = fmt.byte_rate := Nat.mul_comm _ _
  rw [hframe, Nat.mul_assoc, hbytes]
  exact h.exact

/-- A seek to the start, or to an offset that the conversion hits, ends at the byte of the audio
that the offset names. -/
lemma exists_ms_offset {offset : ℕ} (hseek : offset ≠ 0 → SeeksExactly fmt offset) :
    ∃ ms : ℕ, ms_offset fmt.channels fmt.sample_rate offset = ms ∧
      ms * fmt.sample_rate / 1000 * fmt.frame_size = offset - sizeof_wav_header := by
  by_cases ho : offset = 0
  · refine ⟨0, ?_, by simp [ho]⟩
    simp [ho, ms_offset, size_t, int32]
  · exact ⟨_, (hseek ho).ms_offset, (hseek ho).position⟩

/-- A read at an offset other than `expoff` seeks to it first. -/
lemma wav_read_seek_file {buf : List UInt8} (size : ℕ) {offset e : ℕ} {s : Player β × Stream}
    (hbuf : HeaderPart duration track fmt offset buf)
    (hs : StandsAt track fmt content (e - sizeof_wav_header) e s)
    (hseek : offset ≠ 0 → offset ≠ e → SeeksExactly fmt offset) :
    FileSafe duration track fmt content
      (fun bytes s => FileReady track fmt content s ∧
        FileBytes duration track fmt content offset bytes)
      (wav_read_seek buf size offset) s := by
  unfold wav_read_seek
  simp only [Prog.of_bind]
  refine FileSafe.keep _ hs (stable_standsAt _ e) rfl trivial fun o v s s' h h' he => ?_
  obtain ⟨rfl, -⟩ := returned_eq he
  rw [h.expoff]
  by_cases hne : e = offset
  · rw [if_neg (not_not.mpr hne)]
    rw [hne] at h'
    exact wav_read_audio_file size hbuf h'
  · rw [if_pos hne]
    refine (track_info_file h').bind fun info s h => ?_
    by_cases hd : info.duration < 0
    · rw [if_pos hd, Prog.pure_eq]
      exact Prog.Safe.ret ⟨.inr ⟨e, h.1⟩, fun i b hb => by simp at hb⟩
    · obtain ⟨ms, hms, hpos⟩ := exists_ms_offset fun h0 => hseek h0 (Ne.symm hne)
      have hsought : FileSafe duration track fmt content
          (fun _ => StandsAt track fmt content (offset - sizeof_wav_header) e)
          (spotify_seek_track ms) s := by
        rw [← hpos]
        exact seek_track_file h.1
      rw [if_neg hd, h.2 hd]
      dsimp only
      rw [hms]
      refine hsought.bind fun _ s h => ?_
      refine FileSafe.ends _ h (stable_standsAt _ e) rfl trivial fun o v p p' n h he => ?_
      obtain ⟨-, rfl⟩ := executed_eq he
      exact wav_read_audio_file size hbuf ⟨h.playing, rfl, h.sought, h.holds⟩

/-- A read of the header is filled up with the audio behind it. -/
lemma wav_read_header_file (size : ℕ) {offset e : ℕ} {s : Player β × Stream}
    (hs : StandsAt track fmt content (e - sizeof_wav_header) e s)
    (hseek : offset ≠ 0 → offset ≠ e → SeeksExactly fmt offset) :
    FileSafe duration track fmt content
      (fun bytes s => FileReady track fmt content s ∧
        FileBytes duration track fmt content offset bytes)
      (wav_read_header size offset) s := by
  unfold wav_read_header
  refine (track_info_file hs).bind fun info s h => ?_
  split
  · exact ⟨.inr ⟨e, h.1⟩, fun i b hb => by simp at hb⟩
  · next hd =>
    rw [h.2 hd]
    exact wav_read_seek_file size (List.take_prefix _ _) h.1 hseek

/-- Before the track is started a read returns nothing. -/
lemma wav_read_bytes_stopped (size offset : ℕ) {s : Player β × Stream} (hs : Stopped s) :
    FileSafe duration track fmt content (fun bytes s => bytes = [] ∧ Stopped s)
      (wav_read_bytes size offset) s := by
  unfold wav_read_bytes
  split
  · unfold wav_read_header
    refine (track_info_stopped hs).bind fun info s h => ?_
    rw [if_pos h.1]
    exact ⟨rfl, h.2⟩
  · next ho =>
    unfold wav_read_seek
    simp only [Prog.of_bind]
    refine FileSafe.keep _ hs stable_stopped rfl trivial fun o v s s' h h' he => ?_
    obtain ⟨rfl, -⟩ := returned_eq he
    have hne : s.1.expoff ≠ offset := by
      rw [h.expoff]
      rintro rfl
      exact ho (by decide)
    rw [if_pos hne]
    refine (track_info_stopped h').bind fun info s h => ?_
    rw [if_pos h.1]
    exact ⟨rfl, h.2⟩

/-- `wav_read` returns the bytes of the file at its offset, if it can go there. -/
lemma wav_read_file (size : ℕ) {offset : ℕ} {s : Player β × Stream}
    (hs : Prepared track fmt content offset s) :
    FileSafe duration track fmt content (fun _ => FileReady track fmt content)
      (wav_read track size offset) s := by
  have ready : ∀ s, Prepared track fmt content offset s → FileReady track fmt content s := by
    rintro s (h | ⟨e, h, -⟩)
    · exact .inl h
    · exact .inr ⟨e, h⟩
  refine (wav_start_file hs).bind fun ok s hs => ?_
  split
  · have hbytes : FileSafe duration track fmt content
        (fun bytes s => FileReady track fmt content s ∧
          FileBytes duration track fmt content offset bytes)
        (wav_read_bytes size offset) s := by
      rcases hs with hs | ⟨e, hs, hseek⟩
      · apply (wav_read_bytes_stopped size offset hs).mono
        rintro bytes s ⟨rfl, h⟩
        exact ⟨.inl h, fun i b hb => by simp at hb⟩
      · unfold wav_read_bytes
        split
        · exact wav_read_header_file size hs hseek
        · exact wav_read_seek_file size List.nil_prefix hs hseek
    refine hbytes.bind fun bytes s h => ?_
    simp only [Prog.of_bind]
    exact FileSafe.keep _ h.1 stable_fileReady rfl (fun _ => h.2) fun _ _ _ _ _ h _ => h
  · exact ready s hs

/-- A delivery does only what the reader relies on. -/
lemma music_delivery_file {t : ℕ} (ht : t ≠ reader) (d : Delivery β) (s : Player β × Stream) :
    Prog.Safe (file_system duration track fmt) (file_discipline duration track fmt content) t
      (fun _ s => t = reader → FileReady track fmt content s)
      (Call.music_delivery d).prog s := by
  refine Prog.Safe.call (fun _ => True) trivial (fun _ _ _ _ _ => trivial) ?_
  intro s o r s' hinv _ hok he
  exact ⟨exec_readsFile (i := .delivery d) hinv trivial he,
    fun _ _ _ => exec_delivers hok.1 he, fun _ => trivial,
    fun _ _ hreader => absurd hreader ht⟩

end Calls

/-- The system of the file keeps to the discipline. -/
lemma file_disciplined : (file_system (β := β) duration track fmt).Disciplined
    (file_discipline duration track fmt content) where
  stable _ s s' _ hrely h ht := stable_fileReady s s' (hrely ht) (h ht)
  start t c s _ hidle hmay hstart := by
    replace hmay : sole_handle track t c s.1 = true := hmay
    cases c with
    | callback c =>
      cases c with
      | music_delivery d =>
        simp only [sole_handle, one_handle, Bool.and_true, Bool.and_eq_true, bne_iff_ne] at hmay
        exact music_delivery_file hmay.1 d s
      | _ => simp [sole_handle] at hmay
    | wav_open track' =>
      simp only [sole_handle, one_handle, Bool.and_eq_true, beq_iff_eq] at hmay
      obtain ⟨rfl, rfl⟩ := hmay
      exact FileSafe.keep _ (hidle rfl) stable_fileReady rfl trivial fun _ _ _ _ _ h _ _ => h
    | wav_release =>
      simp only [sole_handle, one_handle, Bool.and_true, Bool.and_eq_true, beq_iff_eq] at hmay
      obtain ⟨rfl, -⟩ := hmay
      exact FileSafe.keep _ (hidle rfl) stable_fileReady rfl trivial fun _ _ _ _ _ h _ _ => h
    | wav_read track' size offset =>
      simp only [sole_handle, one_handle, Bool.and_eq_true, beq_iff_eq] at hmay
      obtain ⟨⟨rfl, -⟩, rfl⟩ := hmay
      have hprepared : Prepared track' fmt content offset s := by
        rcases hidle rfl with h | ⟨e, h⟩
        · exact .inl h
        · refine .inr ⟨e, h, fun h0 hne => hstart h0 (by rwa [h.expoff]) ?_⟩
          rw [h.playing]
          simp
      exact (wav_read_file size hprepared).bind fun _ _ h _ => h

/-! ## Random access -/

/-- Three mono frames. -/
def three_frames : List ℕ := [10, 11, 20, 21, 30, 31]

/-- libspotify delivers the frames in order, and the reads ask for whole ones. -/
def FrameStep (w : World (Instr ℕ) (Player ℕ × Stream) ℕ) (a : Action ℕ (WavCall ℕ) Bool) : Prop :=
  w.Executes (DeliversNext (mono 1) three_frames) a ∧
    w.Executes (fun i p => AlignedRead i p.1) a

instance decidableFrameStep (w : World (Instr ℕ) (Player ℕ × Stream) ℕ)
    (a : Action ℕ (WavCall ℕ) Bool) : Decidable (FrameStep w a) :=
  inferInstanceAs (Decidable (_ ∧ _))

/-- libspotify delivers the frames in order, and the seeks are exact. -/
def SeekStep (w : World (Instr ℕ) (Player ℕ × Stream) ℕ) (a : Action ℕ (WavCall ℕ) Bool) : Prop :=
  w.Executes (DeliversNext (mono 1) three_frames) a ∧
    w.Starts (fun _ c p => SoughtExactly (mono 1) c p.1) a

instance decidableSeekStep (w : World (Instr ℕ) (Player ℕ × Stream) ℕ)
    (a : Action ℕ (WavCall ℕ) Bool) : Decidable (SeekStep w a) :=
  inferInstanceAs (Decidable (_ ∧ _))

/-- After the start of the file two bytes are read at the offset, which makes the reader seek. -/
def seek_and_read (offset : ℕ) : List (Action ℕ (WavCall ℕ) Bool) :=
  read_first_track ++ .start reader (.wav_read 1 2 offset) :: wav_steps reader 9 ++
    .start 1 (.callback (.music_delivery two_frames)) :: wav_steps 1 1 ++ wav_steps reader 4

/-- The start of the file is read up to the first byte of audio, and four bytes behind it. -/
def read_first_byte : List (Action ℕ (WavCall ℕ) Bool) :=
  .start reader (.wav_open 1) :: wav_steps reader 1 ++
    .start reader (.wav_read 1 45 0) :: wav_steps reader 7 ++
    .start 1 (.callback (.music_delivery two_frames)) :: wav_steps 1 1 ++ wav_steps reader 8 ++
    .start reader (.wav_read 1 4 45) :: wav_steps reader 7

/-- A read that ends within a frame makes the next one repeat a byte, without any seek. -/
theorem wav_read_repeats_byte : ∃ l w,
    Trace (file_system (fun _ => 1000) 1 (mono 1)) (.idle (.init, ⟨none, false⟩)) l w ∧
    (∀ s ∈ l, SeekStep s.1 s.2) ∧
    w.shared.1.log.head? = some (.wav 1 45 4 [.inr 11, .inr 20, .inr 21, .inr 21]) ∧
    ¬ ReadsFile (fun _ => 1000) 1 (mono 1) three_frames w.shared.1.log := by
  obtain ⟨l, w, hl, hok, hw⟩ := Trace.exists_of_run (file_system (fun _ => 1000) 1 (mono 1))
    SeekStep (.idle (.init, ⟨none, false⟩)) read_first_byte
    (fun w => w.shared.1.log.head? = some (.wav 1 45 4 [.inr 11, .inr 20, .inr 21, .inr 21]))
    (by decide)
  refine ⟨l, w, hl, hok, hw, fun h => ?_⟩
  have hbyte := h 45 4 _ (List.mem_of_mem_head? hw) 3 (.inr 21) rfl
  exact absurd hbyte (by decide)

end Spotifile
