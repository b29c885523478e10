import Spotifile.Wakeup

/-!
# An end of track ends its own track only

`spotify_get_audio` reports the end of a track by returning 0. It does so when nothing is playing
or `g_playback_done` is set, and both are written by `spotify_end_of_track`, which does not know
which track it ends. The callback for track `A` may therefore clear `playing`, or set
`g_playback_done`, when `spotify_play_track` has already gone on to track `B`.

`ends_only_own` shows that a run in which the two writes come in time has no other fault. The
proof is by rely and guarantee: while `spotify_get_audio` is on its way to return 0, no callback
can bring a track back to life.
-/

namespace Spotifile

open Lib

variable {β : Type} {duration : sp_track → ℤ}

/-! ## Tracks that are alive -/

/-- The track that `spotify_play_track` started last, unless it has ended or the play token was
lost since. -/
def alive : List (Event β) → Option sp_track
  | [] => none
  | .played track :: _ => some track
  | .ended track :: log => if alive log = some track then none else alive log
  | .token_lost :: _ => none
  | .delivered _ :: log => alive log
  | .audio _ _ :: log => alive log
  | .loaded _ :: log => alive log
  | .wav _ _ _ _ :: log => alive log

/-- Whenever `spotify_get_audio` with a non-zero size has returned 0, the track that was started
last before has ended since, or the play token was lost since. -/
def EndsOnlyOwn (log : List (Event β)) : Prop :=
  ∀ l₁ size l₂ track l₃, log = l₁ ++ .audio size [] :: (l₂ ++ .played track :: l₃) → 0 < size →
    (∀ track', .played track' ∉ l₂) → .ended track ∈ l₂ ∨ .token_lost ∈ l₂

/-- Each time `spotify_get_audio` with a non-zero size returned 0, no track was alive. -/
def AudioEnds : List (Event β) → Prop
  | [] => True
  | e :: log => (∀ size, e = .audio size [] → 0 < size → alive log = none) ∧ AudioEnds log

/-- A track that was started last and is not alive has ended, or the play token was lost. -/
lemma ended_of_alive_none {l₂ l₃ : List (Event β)} {track : sp_track}
    (h : alive (l₂ ++ .played track :: l₃) = none) (hl : ∀ track', .played track' ∉ l₂) :
    .ended track ∈ l₂ ∨ .token_lost ∈ l₂ := by
  have key : ∀ l : List (Event β), (∀ track', .played track' ∉ l) →
      alive (l ++ .played track :: l₃) = some track ∨ .ended track ∈ l ∨ .token_lost ∈ l := by
    intro l hl
    induction l with
    | nil => exact .inl rfl
    | cons e l ih =>
      have ih := ih fun t ht => hl t (by simp [ht])
      rcases ih with ih | ih
      · cases e with
        | played t => exact absurd (by simp) (hl t)
        | token_lost => exact .inr (.inr (by simp))
        | ended t =>
          by_cases ht : t = track
          · subst ht
            exact .inr (.inl (by simp))
          · left
            have : some track ≠ some t := fun h => ht (Option.some.inj h).symm
            rw [List.cons_append, alive, ih, if_neg this]
        | _ => exact .inl ih
      · right
        rcases ih with ih | ih
        · exact .inl (by simp [ih])
        · exact .inr (by simp [ih])
  rcases key l₂ hl with h' | h'
  · rw [h] at h'
    cases h'
  · exact h'

/-- The invariant says what was asked for of every read that returned 0. -/
lemma AudioEnds.endsOnlyOwn {log : List (Event β)} (h : AudioEnds log) : EndsOnlyOwn log := by
  intro l₁ size l₂ track l₃ hlog hsize hl₂
  subst hlog
  induction l₁ with
  | nil => exact ended_of_alive_none (h.1 size rfl hsize) hl₂
  | cons e l₁ ih => exact ih h.2

/-! ## The discipline -/

/-- The callback clears `playing` and sets `g_playback_done` only while no track is alive, and
`spotify_play_track` returns true only with a track playing and `g_playback_done` not set. -/
def EndsOwn : {γ : Type} → Instr β γ → Player β → Prop
  | _, .clear_playing, p => alive p.log = none
  | _, .set_done true, p => alive p.log = none
  | _, .played _, p => p.g_playback.playing ≠ none ∧ p.g_playback_done = false
  | _, _, _ => True

instance decidableEndsOwn {γ : Type} (i : Instr β γ) (p : Player β) : Decidable (EndsOwn i p) := by
  -- by `casesOn`, so that the instance is a case split without casts, and reduces
  induction i using Instr.casesOn with
  | clear_playing => exact inferInstanceAs (Decidable (alive p.log = none))
  | set_done b =>
    induction b using Bool.casesOn with
    | true => exact inferInstanceAs (Decidable (alive p.log = none))
    | false => exact .isTrue trivial
  | played _ =>
    exact inferInstanceAs (Decidable (p.g_playback.playing ≠ none ∧ p.g_playback_done = false))
  | _ => exact .isTrue trivial

/-- What holds between any two steps: a track that is alive is playing. -/
structure Player.Live (p : Player β) : Prop where
  wellFormed : p.g_playback.WellFormed
  playing : alive p.log ≠ none → p.g_playback.playing ≠ none
  not_done : alive p.log ≠ none → p.g_playback_done = false
  audio : AudioEnds p.log

/-- The terms between the reader and the callbacks: these do not bring a track to life. -/
def live_discipline : Discipline (Instr β) (Player β) ℕ (Call β) where
  inv := Player.Live
  rely t p p' := t = reader → alive p.log = none → alive p'.log = none
  idle _ _ := True
  ok := EndsOwn
  okStart _ _ _ := True

/-- What has to hold in front of an instruction for it to keep `Player.Live`. -/
def LivePre : {γ : Type} → Instr β γ → Player β → Prop
  | _, .refused _, p => alive p.log = none
  | _, _, _ => True

/-- A step that keeps the history and does not take `playing` away. -/
lemma Player.Live.of_log {p p' : Player β} (h : p.Live) (hwf : p'.g_playback.WellFormed)
    (hlog : p'.log = p.log)
    (hpl : alive p.log ≠ none → p.g_playback.playing ≠ none → p'.g_playback.playing ≠ none)
    (hd : alive p.log ≠ none → p.g_playback_done = false → p'.g_playback_done = false) :
    p'.Live where
  wellFormed := hwf
  playing := fun ha => by
    rw [hlog] at ha
    exact hpl ha (h.playing ha)
  not_done := fun ha => by
    rw [hlog] at ha
    exact hd ha (h.not_done ha)
  audio := hlog ▸ h.audio

/-- A step that adds an event to the history which brings no track to life. -/
lemma Player.Live.of_event {p p' : Player β} {e : Event β} (h : p.Live)
    (hwf : p'.g_playback.WellFormed) (hlog : p'.log = e :: p.log)
    (hpl : p'.g_playback.playing = p.g_playback.playing)
    (hd : p'.g_playback_done = p.g_playback_done)
    (hal : alive p.log = none → alive (e :: p.log) = none)
    (hau : ∀ size, e = .audio size [] → 0 < size → alive p.log = none) : p'.Live where
  wellFormed := hwf
  playing := fun ha => by
    rw [hlog] at ha
    rw [hpl]
    exact h.playing fun hn => ha (hal hn)
  not_done := fun ha => by
    rw [hlog] at ha
    rw [hd]
    exact h.not_done fun hn => ha (hal hn)
  audio := by
    rw [hlog]
    exact ⟨hau, h.audio⟩

/-- The return of `spotify_play_track`. -/
def Instr.plays : {γ : Type} → Instr β γ → Bool
  | _, .played _ => true
  | _, _ => false

/-- Every instruction keeps `Player.Live`, and only the return of `spotify_play_track` brings a
track to life. -/
lemma exec_live {γ : Type} {i : Instr β γ} {ok : Bool} {p p' : Player β} {r : Option γ}
    (hp : p.Live) (hok : EndsOwn i p) (hpre : LivePre i p)
    (h : exec duration i ok p = some (r, p')) :
    p'.Live ∧ (i.plays = false → alive p.log = none → alive p'.log = none) := by
  have hwf := exec_wellFormed hp.wellFormed h
  cases i with
  | delivery d =>
    rcases exec_delivery h with ⟨-, -, rfl⟩ | ⟨-, -, rfl⟩
    · exact ⟨hp.of_event hwf rfl rfl rfl id (fun _ he => by cases he), fun _ ha => ha⟩
    · exact ⟨hp, fun _ ha => ha⟩
  | audio size =>
    rcases exec_audio h with ⟨-, ⟨-, -, -, rfl⟩ | ⟨hw, -, rfl⟩⟩
    · exact ⟨hp.of_log hwf rfl (fun _ h => h) (fun _ h => h), fun _ ha => ha⟩
    · refine ⟨hp.of_event hwf rfl rfl rfl id ?_, fun _ ha => ha⟩
      -- nothing is copied although a size was asked for: the queue is empty, and nothing is playing
      intro size' he hsize
      obtain ⟨rfl, hnil⟩ := Event.audio.inj he
      by_contra halive
      rcases hw with hw | hw
      · exact hp.playing halive hw
      · exact spfs_audio_playback.copied_ne_nil hp.wellFormed hsize hw hnil
  | track_info =>
    obtain ⟨cond, rfl⟩ := exec_track_info_cond h
    exact ⟨hp.of_log hwf rfl (fun _ h => h) (fun _ h => h), fun _ ha => ha⟩
  | set_playing track =>
    obtain ⟨-, rfl⟩ := executed_eq h
    exact ⟨hp.of_log hwf rfl (fun _ _ => by simp) (fun _ h => h), fun _ ha => ha⟩
  | clear_playing =>
    obtain ⟨-, rfl⟩ := executed_eq h
    exact ⟨hp.of_log hwf rfl (fun ha => absurd hok ha) (fun _ h => h), fun _ ha => ha⟩
  | set_done b =>
    obtain ⟨-, rfl⟩ := executed_eq h
    refine ⟨hp.of_log hwf rfl (fun _ h => h) ?_, fun _ ha => ha⟩
    intro ha _
    cases b with
    | true => exact absurd hok ha
    | false => rfl
  | lose_playing =>
    obtain ⟨-, rfl⟩ := executed_eq h
    exact ⟨⟨hwf, fun ha => absurd rfl ha, fun ha => absurd rfl ha,
      ⟨fun _ he => (by cases he), hp.audio⟩⟩, fun _ _ => rfl⟩
  | player_load track =>
    rcases exec_player_load h with ⟨-, -, rfl⟩ | ⟨-, -, rfl⟩
    · exact ⟨hp.of_event hwf rfl rfl rfl id (fun _ he => by cases he), fun _ ha => ha⟩
    · exact ⟨hp, fun _ ha => ha⟩
  | ended =>
    obtain ⟨track, -, -, rfl⟩ := exec_ended h
    have hend : alive p.log = none → alive (.ended track :: p.log) = none := by
      intro ha
      rw [alive, ha]
      simp
    exact ⟨hp.of_event hwf rfl rfl rfl hend (fun _ he => by cases he), fun _ => hend⟩
  | wav_open track =>
    rcases exec_wav_open h with ⟨-, -, rfl⟩ | ⟨-, -, rfl⟩
    · exact ⟨hp, fun _ ha => ha⟩
    · exact ⟨hp.of_log hwf rfl (fun _ h => h) (fun _ h => h), fun _ ha => ha⟩
  | refused size =>
    obtain ⟨-, rfl⟩ := executed_eq h
    exact ⟨hp.of_event hwf rfl rfl rfl id (fun _ _ _ => hpre), fun _ ha => ha⟩
  | played track =>
    obtain ⟨-, rfl⟩ := executed_eq h
    exact ⟨⟨hwf, fun _ => hok.1, fun _ => hok.2, ⟨fun _ he => (by cases he), hp.audio⟩⟩,
      fun hpl => by cases hpl⟩
  | wav_returned track offset size bytes =>
    obtain ⟨-, rfl⟩ := executed_eq h
    exact ⟨hp.of_event hwf rfl rfl rfl id (fun _ he => by cases he), fun _ ha => ha⟩
  | _ =>
    obtain ⟨-, rfl⟩ := executed_eq h
    exact ⟨hp.of_log hwf rfl (fun _ h => h) (fun _ h => h), fun _ ha => ha⟩

/-! ## Every call keeps to the discipline -/

section Calls

variable {may : ℕ → Call β → Player β → Bool} {t : ℕ}

/-- The rest of a program of thread `t` keeps to the discipline. -/
abbrev LiveSafe (duration : sp_track → ℤ) (may : ℕ → Call β → Player β → Bool) (t : ℕ) {α : Type}
    (k : Prog (Instr β) α) (p : Player β) : Prop :=
  Prog.Safe (playback_system duration may) live_discipline t (fun _ _ => True) k p

/-- The rule for an instruction in front of which `P` holds. -/
lemma LiveSafe.call {α γ : Type} {i : Instr β γ} {k : γ → Prog (Instr β) α} {p : Player β}
    (P : Player β → Prop) (hP : P p) (hstable : live_discipline.Stable t P)
    (hpre : ∀ p, P p → LivePre i p) (hplays : i.plays = false ∨ t = reader)
    (hwait : ∀ ok p p', P p → exec duration i ok p = some (none, p') → P p')
    (hk : ∀ ok v p p', p.Live → P p → exec duration i ok p = some (some v, p') →
      LiveSafe duration may t (k v) p') :
    LiveSafe duration may t (.call i k) p := by
  apply Prog.Safe.call P hP hstable
  intro p o r p' hlive hP hok he
  obtain ⟨hlive', hquiet⟩ := exec_live hlive hok (hpre p hP) he
  refine ⟨hlive', ?_, ?_, ?_⟩
  · intro u hu hreader
    rcases hplays with hpl | ht
    · exact hquiet hpl
    · exact absurd (hreader.trans ht.symm) hu
  · rintro rfl
    exact hwait o p p' hP he
  · rintro v rfl
    exact hk o v p p' hlive hP he

/-- The rule for an instruction that does not wait. -/
lemma LiveSafe.step {α γ : Type} {i : Instr β γ} {k : γ → Prog (Instr β) α} {p : Player β}
    (P : Player β → Prop) (hP : P p) (hstable : live_discipline.Stable t P)
    (hpre : ∀ p, P p → LivePre i p) (hplays : i.plays = false ∨ t = reader)
    (hi : i.waits = false)
    (hk : ∀ ok v p p', p.Live → P p → exec duration i ok p = some (some v, p') →
      LiveSafe duration may t (k v) p') :
    LiveSafe duration may t (.call i k) p :=
  LiveSafe.call P hP hstable hpre hplays (fun _ _ _ _ he => absurd rfl (exec_ends hi he)) hk

/-- The rule for an instruction in front of which nothing need hold. -/
lemma LiveSafe.call_live {α γ : Type} {i : Instr β γ} {k : γ → Prog (Instr β) α} {p : Player β}
    (hpre : ∀ p, LivePre i p) (hplays : i.plays = false ∨ t = reader)
    (hk : ∀ ok v p p', p.Live → exec duration i ok p = some (some v, p') →
      LiveSafe duration may t (k v) p') :
    LiveSafe duration may t (.call i k) p :=
  LiveSafe.call (fun _ => True) trivial (fun _ _ _ _ _ => trivial) (fun p _ => hpre p) hplays
    (fun _ _ _ _ _ => trivial) (fun ok v p p' hlive _ he => hk ok v p p' hlive he)

/-- The same where it does not matter what the instruction answers. -/
lemma LiveSafe.call_true {α γ : Type} {i : Instr β γ} {k : γ → Prog (Instr β) α} {p : Player β}
    (hpre : ∀ p, LivePre i p) (hplays : i.plays = false ∨ t = reader)
    (hk : ∀ v p, LiveSafe duration may t (k v) p) :
    LiveSafe duration may t (.call i k) p :=
  LiveSafe.call_live hpre hplays fun _ v _ p' _ _ => hk v p'

/-- Once `spotify_get_audio` has found no track alive, it returns 0 with none alive. -/
lemma refuse_safe (ht : t = reader) (size : ℕ) {p : Player β} (hp : alive p.log = none) :
    LiveSafe duration may t (do
      Prog.of (.set_done false)
      Prog.of (.refused size)
      pure ([] : List β)) p := by
  have hstable : live_discipline.Stable t fun p : Player β => alive p.log = none :=
    fun p p' _ hrely ha => hrely ht ha
  refine LiveSafe.step (fun p => alive p.log = none) hp hstable (fun _ _ => trivial) (.inl rfl) rfl
    ?_
  intro ok v p p' _ ha he
  obtain ⟨-, rfl⟩ := executed_eq he
  exact LiveSafe.step (fun p => alive p.log = none) ha hstable (fun _ h => h) (.inl rfl) rfl
    fun _ _ _ _ _ _ _ => trivial

/-- A read returns 0 only where no track is alive. -/
lemma spotify_get_audio_safe (ht : t = reader) (size : ℕ) (p : Player β) :
    LiveSafe duration may t (spotify_get_audio size) p := by
  unfold spotify_get_audio spotify_is_playing
  simp only [Prog.of_bind]
  refine LiveSafe.call_live (fun _ => trivial) (.inl rfl) ?_
  intro ok v p p' hlive he
  obtain ⟨rfl, rfl⟩ := returned_eq he
  by_cases hpl : p.g_playback.playing = none
  · -- nothing is playing, so no track is alive
    simp only [hpl, Option.isSome_none, Bool.false_eq_true, if_false, Prog.pure_eq, Prog.ret_bind,
      if_true]
    apply refuse_safe ht size
    by_contra ha
    exact hlive.playing ha hpl
  · have hsome : p.g_playback.playing.isSome = true := Option.isSome_iff_ne_none.mpr hpl
    simp only [hsome, if_true]
    refine LiveSafe.call_live (fun _ => trivial) (.inl rfl) ?_
    intro ok v p p' hlive he
    obtain ⟨rfl, rfl⟩ := returned_eq he
    rcases hd : p.g_playback_done with _ | _
    · simp only [Bool.false_eq_true, if_false]
      exact LiveSafe.call_true (fun _ => trivial) (.inl rfl) fun _ _ => trivial
    · simp only [if_true]
      apply refuse_safe ht size
      by_contra ha
      rw [hlive.not_done ha] at hd
      cases hd

/-- To start a track keeps to the discipline. -/
lemma spotify_play_track_safe (ht : t = reader) (track : sp_track) (p : Player β) :
    LiveSafe duration may t (spotify_play_track track) p := by
  unfold spotify_play_track spfs_audio_playback_flush
  simp only [Prog.of_bind]
  refine LiveSafe.call_true (fun _ => trivial) (.inl rfl) fun v p => ?_
  split
  · exact LiveSafe.call_true (fun _ => trivial) (.inr ht) fun _ _ => trivial
  · refine LiveSafe.call_true (fun _ => trivial) (.inl rfl) fun _ p => ?_
    refine LiveSafe.call_true (fun _ => trivial) (.inl rfl) fun _ p => ?_
    refine LiveSafe.call_true (fun _ => trivial) (.inl rfl) fun ok p => ?_
    split
    · refine LiveSafe.call_true (fun _ => trivial) (.inl rfl) fun _ p => ?_
      exact LiveSafe.call_true (fun _ => trivial) (.inr ht) fun _ _ => trivial
    · trivial

/-- Every call that a thread may start is safe. -/
lemma call_safe {c : Call β} {p : Player β} (hmay : one_reader t c p = true) :
    LiveSafe duration one_reader t c.prog p := by
  have hreads : c.reads = true → t = reader := by
    intro hc
    simpa [one_reader, hc] using hmay
  cases c with
  | get_audio size =>
    exact (spotify_get_audio_safe (hreads rfl) size p).bind fun _ _ _ => trivial
  | play_track track =>
    exact (spotify_play_track_safe (hreads rfl) track p).bind fun _ _ _ => trivial
  | seek_track offset =>
    show LiveSafe duration one_reader t (spotify_seek_track offset) p
    unfold spotify_seek_track spfs_audio_playback_flush
    split
    · trivial
    · refine LiveSafe.call_true (fun _ => trivial) (.inl rfl) fun _ p => ?_
      refine LiveSafe.call_true (fun _ => trivial) (.inl rfl) fun _ p => ?_
      exact LiveSafe.call_true (fun _ => trivial) (.inl rfl) fun _ _ => trivial
  | end_of_track =>
    show LiveSafe duration one_reader t spotify_end_of_track p
    unfold spotify_end_of_track spfs_audio_playback_flush
    refine LiveSafe.call_true (fun _ => trivial) (.inl rfl) fun _ p => ?_
    refine LiveSafe.call_true (fun _ => trivial) (.inl rfl) fun _ p => ?_
    refine LiveSafe.call_true (fun _ => trivial) (.inl rfl) fun _ p => ?_
    exact LiveSafe.call_true (fun _ => trivial) (.inl rfl) fun _ _ => trivial
  | _ => exact LiveSafe.call_true (fun _ => trivial) (.inl rfl) fun _ _ => trivial

end Calls

/-- The system keeps to the discipline. -/
lemma live_disciplined :
    (playback_system (β := β) duration one_reader).Disciplined live_discipline where
  stable _ _ _ _ _ _ := trivial
  start _ _ _ _ _ hmay _ := call_safe hmay

/-- In a run of one reader and the callbacks whose steps all meet `EndsOwn`, whenever
`spotify_get_audio` returns 0 for a non-zero size, the track started last has ended, or the play
token was lost, since it was started. -/
theorem ends_only_own {w : World (Instr β) (Player β) ℕ}
    {l : List (World (Instr β) (Player β) ℕ × Action ℕ (Call β) Bool)}
    (hl : Trace (playback_system duration one_reader) (.idle .init) l w)
    (hok : ∀ s ∈ l, s.1.Executes EndsOwn s.2) : EndsOnlyOwn w.shared.log := by
  have hinit : (Player.init : Player β).Live :=
    ⟨⟨by simp [Player.init, spfs_audio_playback_new], rfl⟩, fun h => absurd rfl h,
      fun h => absurd rfl h, trivial⟩
  have hsound := hl.sound live_disciplined (World.sound_idle hinit fun _ => trivial) fun s hs =>
    ⟨by rcases s.2 with _ | _ <;> trivial, hok s hs⟩
  exact hsound.inv.audio.endsOnlyOwn

/-- Track 1 is started, a delivery is read, the track ends, and the reader is told so. -/
def play_to_the_end : List (Action ℕ (Call ℕ) Bool) :=
  .start reader (.play_track 1) :: steps reader 6 ++
    .start 1 (.music_delivery two_frames) :: steps 1 1 ++
    .start reader (.get_audio 4) :: steps reader 3 ++
    .start 1 .end_of_track :: steps 1 4 ++
    .start reader (.get_audio 4) :: steps reader 3

/-- The theorem at the run that plays one track to its end. -/
theorem ends_only_own_one_track : ∃ w : World (Instr ℕ) (Player ℕ) ℕ,
    w.shared.log = [.audio 4 [], .ended 1, .audio 4 [10, 11, 20, 21], .delivered two_frames,
      .played 1, .loaded 1] ∧ EndsOnlyOwn w.shared.log := by
  obtain ⟨l, w, hl, hok, hw⟩ := Trace.exists_of_run
    (playback_system (β := ℕ) (fun _ => 0) one_reader) (fun w a => w.Executes EndsOwn a)
    (.idle .init) play_to_the_end
    (fun w => w.shared.log = [.audio 4 [], .ended 1, .audio 4 [10, 11, 20, 21],
      .delivered two_frames, .played 1, .loaded 1]) (by decide)
  exact ⟨w, hw, ends_only_own hl hok⟩

/-- Track 1 ends while `spotify_play_track` is about to load track 2. -/
def end_while_changing : List (Action ℕ (Call ℕ) Bool) :=
  .start reader (.play_track 1) :: steps reader 6 ++
    .start reader (.play_track 2) :: steps reader 3 ++
    .start 1 .end_of_track :: steps 1 4 ++ steps reader 3 ++
    .start reader (.get_audio 4096) :: steps reader 4

/-- The end of track 1 ends track 2: the flag that its callback sets is found by the first read
of track 2. -/
theorem end_of_track_ends_next : ∃ l w,
    Trace (playback_system (β := ℕ) (fun _ => 0) one_reader) (.idle .init) l w ∧
    w.shared.log = [.audio 4096 [], .played 2, .loaded 2, .ended 1, .played 1, .loaded 1] ∧
    ¬ EndsOnlyOwn w.shared.log := by
  obtain ⟨l, w, hl, -, hw⟩ := Trace.exists_of_run
    (playback_system (β := ℕ) (fun _ => 0) one_reader) (fun _ _ => True) (.idle .init)
    end_while_changing
    (fun w => w.shared.log = [.audio 4096 [], .played 2, .loaded 2, .ended 1, .played 1, .loaded 1])
    (by decide)
  refine ⟨l, w, hl, hw, fun h => ?_⟩
  have := h [] 4096 [] 2 [.loaded 2, .ended 1, .played 1, .loaded 1] hw (by decide) (by simp)
  simp at this

end Spotifile
