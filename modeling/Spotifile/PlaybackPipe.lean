import Spotifile.Lib.Pipe
import Spotifile.RandomAccess

/-!
# The playback is a pipe

libspotify's audio thread writes on the playback, `spotify_get_audio` reads from it,
`spotify_get_track_info` asks for the format of what is read next, and
`spotify_audio_buffer_stats` reports how often a reader had to wait. `playback_refines_iff` says
that each instruction does to the playback what the operation that it shows does to a pipe,
whatever the threads do, precisely in the runs whose reads split segments at whole frames only.
`returned_sublist` is what follows for the bytes: with flushes in between, what the reads return is
still in order, and none of it comes twice.

`expoff` and the end of a track are no part of the pipe: `spotify_get_audio` may return 0 without
a look at the queue.
-/

namespace Spotifile

open Lib

variable {β : Type} {duration : sp_track → ℤ}

/-! ## The pipe behind the queue -/

/-- The format in which the samples of a segment are. -/
def spfs_audio.format (audio : spfs_audio β) : sp_audioformat := ⟨audio.rate, audio.channels⟩

/-- The bytes that the queue claims to hold of a segment, in their format. -/
def spfs_audio.items (audio : spfs_audio β) : List (β × sp_audioformat) :=
  audio.claimed.map fun b => (b, audio.format)

/-- The playback as a pipe. -/
def spfs_audio_playback.pipe (playback : spfs_audio_playback β) : Pipe β sp_audioformat :=
  ⟨playback.queue.flatMap spfs_audio.items, playback.stutter⟩

/-- What an instruction with this result, in this state, does to the pipe. -/
def Instr.shows : {γ : Type} → Instr β γ → Option γ → Player β → Pipe.Op β sp_audioformat
  | _, .delivery d, some num_frames, _ =>
    if num_frames = 0 then .skip else .push d.format d.frames
  | _, .audio size, some bytes, _ => .pull size bytes
  | _, .audio _, none, _ => .wait
  | _, .track_info, some info, p =>
    -- no look at the queue
    if p.cond = .awake ∧ p.g_playback.playing = none then .skip
    else .peek ⟨info.rate, info.channels⟩
  | _, .track_info, none, _ => .park
  | _, .buffer_stats, some (_, stutter), _ => .report stutter
  | _, .flush, _, _ => .clear
  | _, _, _, _ => .skip

/-- A delivery that was accepted writes its frames. -/
lemma shows_delivery (d : Delivery β) (n : ℕ) (p : Player β) :
    (Instr.delivery d).shows (some n) p = if n = 0 then .skip else .push d.format d.frames := rfl

/-- Where the format is told, it is that of the next item. -/
lemma shows_track_info (info : track_info) (p : Player β) :
    Instr.track_info.shows (some info) p =
      if p.cond = .awake ∧ p.g_playback.playing = none then .skip
      else .peek ⟨info.rate, info.channels⟩ := rfl

/-- To tell the format writes nothing. -/
@[simp] lemma pushed_shows_track_info (r : Option track_info) (p : Player β) :
    (Instr.track_info.shows r p).pushed = [] := by
  cases r with
  | none => rfl
  | some info =>
    rw [shows_track_info]
    split
    · rfl
    · rfl

/-- To tell the format takes nothing. -/
@[simp] lemma pulled_shows_track_info (r : Option track_info) (p : Player β) :
    (Instr.track_info.shows r p).pulled = [] := by
  cases r with
  | none => rfl
  | some info =>
    rw [shows_track_info]
    split
    · rfl
    · rfl

/-- The playback under observation. -/
def piped_system (duration : sp_track → ℤ) (may : ℕ → Call β → Player β → Bool) :
    System (Instr β) (Player β × List (Pipe.Op β sp_audioformat)) ℕ (Call β) Bool :=
  (playback_system duration may).observe fun i r p ops => i.shows r p :: ops

/-- The operations that were shown lead to the pipe behind the queue. -/
def Piped (s : Player β × List (Pipe.Op β sp_audioformat)) : Prop :=
  Pipe.Run s.2 s.1.g_playback.pipe

/-- The items of a segment are its bytes. -/
lemma map_fst_items (audio : spfs_audio β) : audio.items.map Prod.fst = audio.claimed := by
  simp [spfs_audio.items, Function.comp_def]

/-- The bytes of the pipe are those that the queue claims to hold. -/
lemma map_fst_pipe (playback : spfs_audio_playback β) :
    playback.pipe.items.map Prod.fst = claimed playback.queue := by
  rw [spfs_audio_playback.pipe, List.map_flatMap, claimed]
  simp only [map_fst_items]

/-! ## What the critical sections do to the pipe -/

namespace spfs_audio_playback

variable {playback : spfs_audio_playback β}

/-- An accepted delivery is written. -/
lemma pipe_deliver (playback : spfs_audio_playback β) (d : Delivery β) :
    Pipe.Takes (.push d.format d.frames) playback.pipe (playback.deliver d).pipe := by
  have hitems : d.audio.items = d.frames.map fun b => (b, d.format) := by
    rw [spfs_audio.items, d.claimed_audio]
    rfl
  show (playback.deliver d).pipe = _
  simp [pipe, hitems]
  rfl

/-- A read takes the bytes that it copies off the pipe, precisely when it is aligned. -/
lemma pipe_drained_iff (h : playback.WellFormed) (size : ℕ) :
    Pipe.Takes (.pull size (playback.copied size)) playback.pipe (playback.drained size).pipe ↔
      playback.Aligned size := by
  constructor
  · rintro ⟨⟨out, hout, hitems⟩, -⟩ audio hs
    have hlen := length_copied_add_claimed h hs
    have hmap := congrArg (List.map Prod.fst) hitems
    rw [List.map_append, hout, map_fst_pipe, map_fst_pipe] at hmap
    rw [hmap, List.length_append] at hlen
    exact Nat.dvd_of_mod_eq_zero (by omega)
  · intro hal
    refine ⟨?_, rfl, length_copied_le h size, fun hnil => ?_⟩
    · rcases drained_cases h size with ⟨-, hd, ha⟩ | ⟨audio, rest, hq, hsize, hd, -, ha⟩ |
        ⟨popped, rest, -, hq, hd, -, ha, -⟩
      · exact ⟨[], by rw [ha]; rfl, by rw [hd]; rfl⟩
      · have hdvd := hal audio ⟨by rw [hq]; rfl, hsize⟩
        have hsplit := spfs_audio.claimed_split (h.queue audio (by simp [hq])) hsize hdvd
        refine ⟨(audio.samples.take size).map fun b => (b, audio.format), ?_, ?_⟩
        · rw [ha, List.map_map]
          exact List.map_id _
        · show playback.queue.flatMap _ = _ ++ (playback.drained size).queue.flatMap _
          rw [hq, hd, List.flatMap_cons, List.flatMap_cons, ← List.append_assoc, spfs_audio.items,
            ← hsplit, List.map_append]
          rfl
      · refine ⟨popped.flatMap spfs_audio.items, ?_, ?_⟩
        · rw [ha, List.map_flatMap, claimed]
          simp only [map_fst_items]
        · show playback.queue.flatMap _ = _ ++ (playback.drained size).queue.flatMap _
          rw [hq, hd, List.flatMap_append]
    · rcases Nat.eq_zero_or_pos size with hsize | hsize
      · exact .inl hsize
      · right
        by_contra hitems
        apply copied_ne_nil h hsize ?_ hnil
        intro hq
        exact hitems (by simp [pipe, hq])

/-- The format of the first segment is the one of the next byte. -/
lemma pipe_peek (h : playback.WellFormed) {audio : spfs_audio β} {rest : List (spfs_audio β)}
    (hq : playback.queue = audio :: rest) :
    Pipe.Takes (.peek audio.format) playback.pipe playback.pipe := by
  have haudio := h.queue audio (by simp [hq])
  have hne : audio.claimed ≠ [] := by
    intro hnil
    have hlen := spfs_audio.length_claimed haudio
    rw [hnil, List.length_nil] at hlen
    exact (spfs_audio.seg_sz_pos haudio).ne hlen
  obtain ⟨b, bs, hb⟩ := List.exists_cons_of_ne_nil hne
  refine ⟨⟨b, bs.map (fun b => (b, audio.format)) ++ rest.flatMap spfs_audio.items, ?_⟩, rfl⟩
  rw [pipe, hq, List.flatMap_cons, spfs_audio.items, hb]
  rfl

/-- An empty queue is an empty pipe. -/
lemma pipe_items_of_nil (hq : playback.queue = []) : playback.pipe.items = [] := by
  rw [pipe, hq]
  rfl

end spfs_audio_playback

/-! ## What each instruction does to the pipe -/

/-- What an instruction that leaves the queue and the counter of waits alone does to the pipe. -/
lemma takes_skip {p p' : Player β} (hq : p'.g_playback.queue = p.g_playback.queue)
    (hs : p'.g_playback.stutter = p.g_playback.stutter) :
    Pipe.Takes .skip p.g_playback.pipe p'.g_playback.pipe := by
  show p'.g_playback.pipe = p.g_playback.pipe
  rw [spfs_audio_playback.pipe, hq, hs]
  rfl

/-- A delivery that is accepted has frames. -/
lemma Delivery.num_frames_ne_zero {d : Delivery β} {playback : spfs_audio_playback β}
    (ha : playback.accepts d = true) : d.num_frames ≠ 0 := by
  intro h0
  simp [spfs_audio_playback.accepts, h0] at ha

/-- A delivery is written if it is accepted. -/
lemma takes_delivery {d : Delivery β} {ok : Bool} {p p' : Player β} {r : Option ℕ}
    (he : exec duration (.delivery d) ok p = some (r, p')) :
    Pipe.Takes ((Instr.delivery d).shows r p) p.g_playback.pipe p'.g_playback.pipe := by
  rcases exec_delivery he with ⟨ha, rfl, rfl⟩ | ⟨-, rfl, rfl⟩
  · rw [shows_delivery, if_neg (Delivery.num_frames_ne_zero ha)]
    exact p.g_playback.pipe_deliver d
  · rw [shows_delivery, if_pos rfl]
    exact takes_skip rfl rfl

/-- A read waits at an empty pipe, or takes what it returns precisely when it is aligned. -/
lemma takes_audio_iff {size : ℕ} {ok : Bool} {p p' : Player β} {r : Option (List β)}
    (hp : p.g_playback.WellFormed) (he : exec duration (.audio size) ok p = some (r, p')) :
    Pipe.Takes ((Instr.audio size).shows r p) p.g_playback.pipe p'.g_playback.pipe ↔
      p.g_playback.Aligned size := by
  rcases exec_audio he with ⟨-, ⟨-, hq, rfl, rfl⟩ | ⟨-, rfl, rfl⟩⟩
  · apply iff_of_true
    · exact ⟨spfs_audio_playback.pipe_items_of_nil hq, by simp [spfs_audio_playback.pipe, hq]⟩
    · intro audio hs
      simp [spfs_audio_playback.Splits, hq] at hs
  · exact spfs_audio_playback.pipe_drained_iff hp size

/-- `spotify_get_track_info` waits at an empty pipe, or tells the format of the next byte. -/
lemma takes_track_info {ok : Bool} {p p' : Player β} {r : Option track_info}
    (hp : p.g_playback.WellFormed) (he : exec duration .track_info ok p = some (r, p')) :
    Pipe.Takes (Instr.track_info.shows r p) p.g_playback.pipe p'.g_playback.pipe := by
  rcases exec_track_info he with
    ⟨-, ⟨hawake, hplaying, rfl, rfl⟩ | ⟨hlooks, ⟨hq, rfl, rfl⟩ | ⟨audio, rest, d, hq, -, rfl, rfl⟩⟩⟩
  · rw [shows_track_info, if_pos ⟨hawake, hplaying⟩]
    exact takes_skip rfl rfl
  · exact ⟨spfs_audio_playback.pipe_items_of_nil hq, rfl⟩
  · rw [shows_track_info, if_neg fun h => hlooks h.1 h.2]
    exact spfs_audio_playback.pipe_peek hp hq

/-- An instruction does to the pipe what it shows, precisely when it is no read within a frame. -/
lemma exec_takes_iff {γ : Type} {i : Instr β γ} {ok : Bool} {p p' : Player β} {r : Option γ}
    (hp : p.g_playback.WellFormed) (he : exec duration i ok p = some (r, p')) :
    Pipe.Takes (i.shows r p) p.g_playback.pipe p'.g_playback.pipe ↔ AlignedRead i p := by
  cases i with
  | delivery d => exact iff_of_true (takes_delivery he) trivial
  | audio size => exact takes_audio_iff hp he
  | track_info => exact iff_of_true (takes_track_info hp he) trivial
  | flush =>
    obtain ⟨-, rfl⟩ := executed_eq he
    exact iff_of_true rfl trivial
  | buffer_stats =>
    obtain ⟨rfl, rfl⟩ := executed_eq he
    exact iff_of_true ⟨rfl, rfl⟩ trivial
  | player_load track =>
    rcases exec_player_load he with ⟨-, rfl, rfl⟩ | ⟨-, rfl, rfl⟩
    · exact iff_of_true (takes_skip rfl rfl) trivial
    · exact iff_of_true (takes_skip rfl rfl) trivial
  | ended =>
    obtain ⟨track, -, rfl, rfl⟩ := exec_ended he
    exact iff_of_true (takes_skip rfl rfl) trivial
  | wav_open track =>
    rcases exec_wav_open he with ⟨-, rfl, rfl⟩ | ⟨-, rfl, rfl⟩
    · exact iff_of_true (takes_skip rfl rfl) trivial
    · exact iff_of_true (takes_skip rfl rfl) trivial
  | _ =>
    obtain ⟨rfl, rfl⟩ := executed_eq he
    exact iff_of_true (takes_skip rfl rfl) trivial

/-! ## Whole runs -/

variable {may : ℕ → Call β → Player β → Bool}

/-- Every step keeps the queue well formed. -/
lemma piped_step_wellFormed
    {w w' : World (Instr β) (Player β × List (Pipe.Op β sp_audioformat)) ℕ}
    {a : Action ℕ (Call β) Bool} (hw : w.shared.1.g_playback.WellFormed)
    (h : (piped_system duration may).step w a = some w') :
    w'.shared.1.g_playback.WellFormed := by
  rcases System.step_shared h with ⟨t, c, -, -, hs⟩ | ⟨γ, t, o, i, r, -, -, he⟩
  · rwa [hs]
  · exact exec_wellFormed hw (System.observe_exec he).1

/-- A step leads on along the pipe precisely when it is no read within a frame. -/
lemma piped_step_iff {w w' : World (Instr β) (Player β × List (Pipe.Op β sp_audioformat)) ℕ}
    {a : Action ℕ (Call β) Bool} (hwf : w.shared.1.g_playback.WellFormed) (hw : Piped w.shared)
    (h : (piped_system duration may).step w a = some w') :
    Piped w'.shared ↔ w.Executes (fun i s => AlignedRead i s.1) a := by
  rcases System.step_shared h with ⟨t, c, rfl, -, hs⟩ | ⟨γ, t, o, i, r, -, hex, he⟩
  · rw [hs]
    exact iff_of_true hw trivial
  · obtain ⟨he, hops⟩ := System.observe_exec he
    rw [hex, Piped, hops, Pipe.Run.cons_iff hw]
    exact exec_takes_iff hwf he

/-- A run starts with a well-formed queue. -/
lemma player_init_wellFormed : (Player.init : Player β).g_playback.WellFormed :=
  ⟨fun _ h => absurd h List.not_mem_nil, rfl⟩

/-- In a run of any calls on any threads, from `spotify_threads_init` on, the playback is the pipe
to which the operations lead that the instructions show, in every state, precisely when every read
that splits a segment asks for whole frames of it. -/
theorem playback_refines_iff
    {w : World (Instr β) (Player β × List (Pipe.Op β sp_audioformat)) ℕ}
    {l : List (World (Instr β) (Player β × List (Pipe.Op β sp_audioformat)) ℕ ×
      Action ℕ (Call β) Bool)}
    (hl : Trace (piped_system duration may) (.idle (.init, [])) l w) :
    ((∀ s ∈ l, Piped s.1.shared) ∧ Piped w.shared) ↔
      ∀ s ∈ l, s.1.Executes (fun i p => AlignedRead i p.1) s.2 :=
  Trace.forall_iff (fun _ _ => True) (fun w a => w.Executes (fun i p => AlignedRead i p.1) a)
    (fun w => w.shared.1.g_playback.WellFormed) (fun w => Piped w.shared) hl
    player_init_wellFormed .nil (fun _ _ _ hw _ h => piped_step_wellFormed hw h)
    (fun _ _ _ hwf hw _ h => piped_step_iff hwf hw h) fun _ _ => trivial

/-- Track 1 is played, two frames are delivered, the reader takes one of them, and a flush the
other one. -/
def play_read_flush : List (Action ℕ (Call ℕ) Bool) :=
  [.start reader (.play_track 1), .step reader true, .step reader true, .step reader true,
    .step reader true, .step reader true, .step reader true,
    .start 1 (.music_delivery two_frames), .step 1 true, .start reader (.get_audio 2),
    .step reader true, .step reader true, .step reader true, .start 1 .flush, .step 1 true]

/-- The theorem at this run. -/
theorem playback_refines_iff_flush : ∃ l w,
    Trace (piped_system (fun _ => 0) fun _ _ _ => true) (.idle (.init, [])) l w ∧
    (accepted w.shared.1.log = [10, 11, 20, 21] ∧ returned w.shared.1.log = [10, 11] ∧
      w.shared.1.g_playback.queue = []) ∧
    (((∀ s ∈ l, Piped s.1.shared) ∧ Piped w.shared) ↔
      ∀ s ∈ l, s.1.Executes (fun i p => AlignedRead i p.1) s.2) := by
  obtain ⟨l, w, hl, -, hw⟩ := Trace.exists_of_run
    (piped_system (fun _ => 0) fun _ _ _ => true) (fun _ _ => True) (.idle (.init, []))
    play_read_flush (fun w => accepted w.shared.1.log = [10, 11, 20, 21] ∧
      returned w.shared.1.log = [10, 11] ∧ w.shared.1.g_playback.queue = []) (by decide)
  exact ⟨l, w, hl, hw, playback_refines_iff hl⟩

/-! ## The bytes of a run with flushes -/

/-- The operations that are shown write what is accepted and read what is returned. -/
lemma exec_shown {γ : Type} {i : Instr β γ} {ok : Bool} {p p' : Player β} {r : Option γ}
    (he : exec duration i ok p = some (r, p')) :
    accepted p'.log = accepted p.log ++ (i.shows r p).pushed ∧
      returned p'.log = returned p.log ++ (i.shows r p).pulled := by
  cases i with
  | delivery d =>
    rcases exec_delivery he with ⟨ha, rfl, rfl⟩ | ⟨-, rfl, rfl⟩
    · rw [shows_delivery, if_neg (Delivery.num_frames_ne_zero ha)]
      exact ⟨rfl, rfl⟩
    · rw [shows_delivery, if_pos rfl]
      exact ⟨(List.append_nil _).symm, (List.append_nil _).symm⟩
  | audio size =>
    rcases exec_audio he with ⟨-, ⟨-, -, rfl, rfl⟩ | ⟨-, rfl, rfl⟩⟩
    · exact ⟨(List.append_nil _).symm, (List.append_nil _).symm⟩
    · exact ⟨rfl, rfl⟩
  | track_info =>
    obtain ⟨cond, rfl⟩ := exec_track_info_cond he
    simp
  | player_load track =>
    rcases exec_player_load he with ⟨-, rfl, rfl⟩ | ⟨-, rfl, rfl⟩
    · exact ⟨rfl, rfl⟩
    · exact ⟨(List.append_nil _).symm, (List.append_nil _).symm⟩
  | ended =>
    obtain ⟨track, -, rfl, rfl⟩ := exec_ended he
    exact ⟨rfl, rfl⟩
  | wav_open track =>
    rcases exec_wav_open he with ⟨-, rfl, rfl⟩ | ⟨-, rfl, rfl⟩
    · exact ⟨(List.append_nil _).symm, (List.append_nil _).symm⟩
    · exact ⟨(List.append_nil _).symm, (List.append_nil _).symm⟩
  | lose_playing | refused size | played track | wav_returned track offset size bytes =>
    obtain ⟨rfl, rfl⟩ := executed_eq he
    exact ⟨rfl, rfl⟩
  | _ =>
    obtain ⟨rfl, rfl⟩ := executed_eq he
    exact ⟨(List.append_nil _).symm, (List.append_nil _).symm⟩

/-- The history of the playback tells what the operations write and read. -/
lemma piped_shown {w : World (Instr β) (Player β × List (Pipe.Op β sp_audioformat)) ℕ}
    {l : List (World (Instr β) (Player β × List (Pipe.Op β sp_audioformat)) ℕ ×
      Action ℕ (Call β) Bool)}
    (hl : Trace (piped_system duration may) (.idle (.init, [])) l w) :
    accepted w.shared.1.log = Pipe.pushed w.shared.2 ∧
      returned w.shared.1.log = Pipe.pulled w.shared.2 := by
  refine hl.always (I := fun w => accepted w.shared.1.log = Pipe.pushed w.shared.2 ∧
    returned w.shared.1.log = Pipe.pulled w.shared.2) ⟨rfl, rfl⟩ ?_
  rintro w a w' ⟨ha, hr⟩ h
  rcases System.step_shared h with ⟨t, c, -, -, hs⟩ | ⟨γ, t, o, i, r, -, -, he⟩
  · rw [hs]
    exact ⟨ha, hr⟩
  · obtain ⟨he, hops⟩ := System.observe_exec he
    obtain ⟨ha', hr'⟩ := exec_shown he
    rw [ha', hr', hops, ha, hr]
    exact ⟨rfl, rfl⟩

/-- The playback is a pipe in every run whose reads split segments at whole frames. -/
lemma piped_of_aligned {w : World (Instr β) (Player β × List (Pipe.Op β sp_audioformat)) ℕ}
    {l : List (World (Instr β) (Player β × List (Pipe.Op β sp_audioformat)) ℕ ×
      Action ℕ (Call β) Bool)}
    (hl : Trace (piped_system duration may) (.idle (.init, [])) l w)
    (hal : ∀ s ∈ l, s.1.Executes (fun i p => AlignedRead i p.1) s.2) : Piped w.shared := by
  refine (hl.invariant (I := fun w => w.shared.1.g_playback.WellFormed ∧ Piped w.shared)
    ⟨player_init_wellFormed, .nil⟩ ?_ hal).2
  rintro w a w' ⟨hwf, hw⟩ hok h
  exact ⟨piped_step_wellFormed hwf h, (piped_step_iff hwf hw h).mpr hok⟩

/-- In a run of any calls on any threads, flushes among them, whose reads split segments at whole
frames: what is accepted is what has left the queue followed by what it holds, and the reads have
returned some of what has left, in order. -/
theorem returned_sublist {w : World (Instr β) (Player β) ℕ}
    {l : List (World (Instr β) (Player β) ℕ × Action ℕ (Call β) Bool)}
    (hl : Trace (playback_system duration may) (.idle .init) l w)
    (hal : ∀ s ∈ l, s.1.Executes AlignedRead s.2) :
    ∃ left, accepted w.shared.log = left ++ claimed w.shared.g_playback.queue ∧
      (returned w.shared.log).Sublist left := by
  obtain ⟨l', ops, hl', rfl⟩ : ∃ l' ops,
      Trace (piped_system duration may) (.idle (.init, [])) l' (w.watched ops) ∧
      l'.map (fun s => (s.1.forget, s.2)) = l := hl.exists_observed []
  have hpiped : Piped (w.watched ops).shared := by
    apply piped_of_aligned hl'
    intro s hs
    exact World.executes_forget.mp (hal _ (List.mem_map_of_mem hs))
  obtain ⟨ha, hr⟩ := piped_shown hl'
  obtain ⟨left, hpushed, hpulled⟩ := Pipe.Run.exists_gone hpiped
  refine ⟨left, ?_, ?_⟩
  · rw [map_fst_pipe] at hpushed
    exact ha.trans hpushed
  · rw [← hr] at hpulled
    exact hpulled

/-- The theorem at the same run. -/
theorem returned_sublist_flush : ∃ l w,
    Trace (playback_system (fun _ => 0) fun _ _ _ => true) (.idle .init) l w ∧
    (returned w.shared.log = [10, 11] ∧ w.shared.g_playback.queue = []) ∧
    ∃ left, accepted w.shared.log = left ++ claimed w.shared.g_playback.queue ∧
      (returned w.shared.log).Sublist left := by
  obtain ⟨l, w, hl, hal, hw⟩ := Trace.exists_of_run
    (playback_system (fun _ => 0) fun _ _ _ => true) (fun w a => w.Executes AlignedRead a)
    (.idle .init) play_read_flush
    (fun w => returned w.shared.log = [10, 11] ∧ w.shared.g_playback.queue = []) (by decide)
  exact ⟨l, w, hl, hw, returned_sublist hl hal⟩

end Spotifile
