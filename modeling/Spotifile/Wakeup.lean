import Spotifile.Conservation

/-!
# No reader is left asleep

`spotify_get_audio` and `spotify_get_track_info` wait on `g_playback->cond`. A reader that sleeps
there with no wake-up pending should have a reason to: a track is playing, and the queue is empty.
`never_left_asleep_iff` says exactly which runs keep this. Two steps break it. One is the critical
section in which `spotify_end_of_track` clears `playing`: it does not signal, where
`spotify_play_token_lost` does, and the signal of the flush before it may have been used up. The
other is the loop of `spotify_get_track_info`: it looks at the queue only, so that a reader that is
woken because playback is over goes back to sleep.
-/

namespace Spotifile

open Lib

variable {β : Type} {duration : sp_track → ℤ}

/-- The reader sleeps with no wake-up pending, although playback is over or there is something to
read. -/
def Player.LeftAsleep (p : Player β) : Prop :=
  p.cond = .parked ∧ (p.g_playback.playing = none ∨ p.g_playback.queue ≠ [])

instance decidableLeftAsleep [DecidableEq β] (p : Player β) : Decidable p.LeftAsleep :=
  inferInstanceAs (Decidable (_ ∧ _))

/-- `spotify_end_of_track` clears `playing` only while no reader sleeps with no wake-up pending,
and `spotify_get_track_info` does not test its loop again, after a wait, with nothing playing and
nothing queued. -/
def Wakes : {γ : Type} → Instr β γ → Player β → Prop
  | _, .clear_playing, p => p.cond ≠ .parked
  | _, .track_info, p =>
    ¬ (p.cond = .woken ∧ p.g_playback.playing = none ∧ p.g_playback.queue = [])
  | _, _, _ => True

/-- One reader; every other thread runs callbacks and flushes. -/
def one_reader (t : ℕ) (c : Call β) (_ : Player β) : Bool := c.reads == (t == reader)

/-- A reader that is not asleep is not left asleep. -/
lemma not_leftAsleep_of_ne {p : Player β} (h : p.cond ≠ .parked) : ¬ p.LeftAsleep :=
  fun hp => h hp.1

/-- An instruction leads from a state in which no reader is left asleep to another one precisely
when `Wakes` holds. -/
lemma exec_leftAsleep_iff {γ : Type} {i : Instr β γ} {ok : Bool} {p p' : Player β} {r : Option γ}
    (hp : ¬ p.LeftAsleep) (h : exec duration i ok p = some (r, p')) :
    ¬ p'.LeftAsleep ↔ Wakes i p := by
  by_cases hi : i.quiet = true
  · obtain ⟨hq, -, hpl, hc, -, -⟩ := exec_quiet hi h
    apply iff_of_true
    · rwa [Player.LeftAsleep, hq, hpl, hc]
    · cases i <;> trivial
  · cases i <;> first | exact absurd rfl hi | skip
    case delivery d =>
      refine iff_of_true ?_ trivial
      rcases exec_delivery h with ⟨-, -, rfl⟩ | ⟨-, -, rfl⟩
      · exact not_leftAsleep_of_ne (signal_ne_parked _)
      · exact hp
    case audio size =>
      refine iff_of_true ?_ trivial
      rcases exec_audio h with ⟨-, ⟨hpl, hq, -, rfl⟩ | ⟨-, -, rfl⟩⟩
      · rintro ⟨-, hl | hl⟩
        · exact hpl hl
        · exact hl hq
      · exact not_leftAsleep_of_ne Waiter.noConfusion
    case track_info =>
      rcases exec_track_info h with
        ⟨hc, ⟨ha, -, -, rfl⟩ | ⟨ha, ⟨hq, -, rfl⟩ | ⟨audio, rest, _, hq, -, -, rfl⟩⟩⟩
      · refine iff_of_true hp fun hw => ?_
        rw [ha] at hw
        exact Waiter.noConfusion hw.1
      · -- the reader goes to sleep: rightly so precisely if a track is playing
        constructor
        · intro hasleep hw
          exact hasleep ⟨rfl, .inl hw.2.1⟩
        · rintro hwakes ⟨-, hl | hl⟩
          · rcases hcond : p.cond with _ | _ | _
            · exact ha hcond hl
            · exact hc hcond
            · exact hwakes ⟨hcond, hl, hq⟩
          · exact hl hq
      · refine iff_of_true (not_leftAsleep_of_ne Waiter.noConfusion) fun hw => ?_
        rw [hq] at hw
        exact List.cons_ne_nil _ _ hw.2.2
    case clear_playing =>
      obtain ⟨-, rfl⟩ := executed_eq h
      constructor
      · intro hasleep hc
        exact hasleep ⟨hc, .inl rfl⟩
      · intro hw
        exact not_leftAsleep_of_ne hw
    case set_playing track =>
      obtain ⟨-, rfl⟩ := executed_eq h
      refine iff_of_true ?_ trivial
      rintro ⟨hc, hl | hl⟩
      · cases hl
      · exact hp ⟨hc, .inr hl⟩
    all_goals
      obtain ⟨-, rfl⟩ := executed_eq h
      exact iff_of_true (not_leftAsleep_of_ne (signal_ne_parked _)) trivial

/-- In a run of one reader, the callbacks and flushes, no state has the reader left asleep
precisely when every step meets `Wakes`. -/
theorem never_left_asleep_iff {w : World (Instr β) (Player β) ℕ}
    {l : List (World (Instr β) (Player β) ℕ × Action ℕ (Call β) Bool)}
    (hl : Trace (playback_system duration one_reader) (.idle .init) l w) :
    ((∀ s ∈ l, ¬ s.1.shared.LeftAsleep) ∧ ¬ w.shared.LeftAsleep) ↔
      ∀ s ∈ l, s.1.Executes Wakes s.2 := by
  refine Trace.forall_iff (fun _ _ => True) (fun w a => w.Executes Wakes a) (fun _ => True)
    (fun w => ¬ w.shared.LeftAsleep) hl trivial ?_ (fun _ _ _ _ _ _ => trivial) ?_
    (fun _ _ => trivial)
  · exact not_leftAsleep_of_ne Waiter.noConfusion
  · intro w a w' _ hw _ h
    rcases System.step_shared h with ⟨t, c, rfl, -, hs⟩ | ⟨γ, t, o, i, r, -, hex, he⟩
    · rw [hs]
      exact ⟨fun _ => trivial, fun _ => hw⟩
    · rw [hex]
      exact exec_leftAsleep_iff hw he

/-- A choice of the scheduler, some times over. -/
def steps (t n : ℕ) : List (Action ℕ (Call β) Bool) := List.replicate n (.step t true)

/-- Track 1 is started, and the reader goes to sleep in `spotify_get_audio`. -/
def play_and_wait : List (Action ℕ (Call β) Bool) :=
  .start reader (.play_track 1) :: steps reader 6 ++
    .start reader (.get_audio 4096) :: steps reader 3

/-- The theorem at the run in which the reader waits for the first frames. -/
theorem never_left_asleep_iff_waiting : ∃ l w,
    Trace (playback_system (β := ℕ) (fun _ => 0) one_reader) (.idle .init) l w ∧
    w.shared.cond = .parked ∧
    (((∀ s ∈ l, ¬ s.1.shared.LeftAsleep) ∧ ¬ w.shared.LeftAsleep) ↔
      ∀ s ∈ l, s.1.Executes Wakes s.2) := by
  obtain ⟨l, w, hl, -, hw⟩ := Trace.exists_of_run
    (playback_system (β := ℕ) (fun _ => 0) one_reader) (fun _ _ => True) (.idle .init)
    play_and_wait (fun w => w.shared.cond = .parked) (by decide)
  exact ⟨l, w, hl, hw, never_left_asleep_iff hl⟩

/-! ## The two ways to be left asleep -/

/-- The end of the track wakes the reader by its flush. The reader finds the queue empty and a track
playing, and sleeps again. Then `playing` is cleared without a signal. -/
def end_while_waiting : List (Action ℕ (Call β) Bool) :=
  .start 1 .end_of_track :: steps 1 2 ++ steps reader 1 ++ steps 1 1

/-- The end of a track leaves a waiting reader asleep for good. -/
theorem end_of_track_leaves_asleep : ∃ l w,
    Trace (playback_system (β := ℕ) (fun _ => 0) one_reader) (.idle .init) l w ∧
    w.shared.cond = .parked ∧ w.shared.g_playback.playing = none ∧ w.shared.LeftAsleep := by
  obtain ⟨l, w, hl, -, hw⟩ := Trace.exists_of_run
    (playback_system (β := ℕ) (fun _ => 0) one_reader) (fun _ _ => True) (.idle .init)
    (play_and_wait ++ end_while_waiting)
    (fun w => w.shared.cond = .parked ∧ w.shared.g_playback.playing = none ∧ w.shared.LeftAsleep)
    (by decide)
  exact ⟨l, w, hl, hw⟩

/-- Track 1 is started, and the reader waits in `spotify_get_track_info` until the play token is
lost. -/
def lose_token_while_waiting : List (Action ℕ (Call β) Bool) :=
  .start reader (.play_track 1) :: steps reader 6 ++
    .start reader .get_track_info :: steps reader 1 ++
    .start 1 .play_token_lost :: steps 1 1 ++ steps reader 1

/-- The loss of the play token does signal, but a reader in `spotify_get_track_info` goes back to
sleep. -/
theorem track_info_goes_back_to_sleep : ∃ l w,
    Trace (playback_system (β := ℕ) (fun _ => 0) one_reader) (.idle .init) l w ∧
    w.shared.cond = .parked ∧ w.shared.g_playback.playing = none ∧ w.shared.LeftAsleep := by
  obtain ⟨l, w, hl, -, hw⟩ := Trace.exists_of_run
    (playback_system (β := ℕ) (fun _ => 0) one_reader) (fun _ _ => True) (.idle .init)
    lose_token_while_waiting
    (fun w => w.shared.cond = .parked ∧ w.shared.g_playback.playing = none ∧ w.shared.LeftAsleep)
    (by decide)
  exact ⟨l, w, hl, hw⟩

end Spotifile
