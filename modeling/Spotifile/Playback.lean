import Spotifile.Audio
import Spotifile.Lib.Interleave

/-!
# Playback: the functions of `spfs_spotify.c` as programs of atomic steps

Three threads share the playback: the FUSE thread that reads a file, libspotify's audio thread
(`spotify_music_delivery`), and the thread on which libspotify runs the other callbacks. An
instruction (`Instr`) is one critical section on the playback mutex, one access to a variable that
the code reads or writes without it, or one call of libspotify. `exec` says what it does to the
shared state (`Player`), and the functions of the source are programs over these instructions.

The condition variable `g_playback->cond` has one waiter, the reader. `Waiter` says whether it
sleeps, or was signalled and has not gone on yet; an instruction with a `g_cond_wait` in it goes to
sleep, and when it is executed again it is at the test of its loop.

`Player.log` is a history, with the latest event first. No instruction reads it.

The mutex `g_spotify_api_mutex` is left out, so that the callbacks may run between any two
instructions of the reader.
-/

namespace Spotifile

open Lib

variable {β : Type}

/-! ## The shared state -/

/-- The reader at the condition variable `g_playback->cond`. -/
inductive Waiter
  /-- Not in a `g_cond_wait`. -/
  | awake
  /-- In a `g_cond_wait`, with no signal since. -/
  | parked
  /-- In a `g_cond_wait` that was signalled. -/
  | woken
deriving DecidableEq, Repr

/-- What has happened, as far as a property speaks of it. -/
inductive Event (β : Type)
  /-- `spotify_music_delivery` accepted the frames. -/
  | delivered (d : Delivery β)
  /-- `spotify_get_audio` with this size returned these bytes. -/
  | audio (size : ℕ) (bytes : List β)
  /-- `sp_session_player_load` succeeded. -/
  | loaded (track : sp_track)
  /-- `spotify_play_track` returned true. -/
  | played (track : sp_track)
  /-- libspotify has come to the end of the track and calls `spotify_end_of_track`. -/
  | ended (track : sp_track)
  /-- `spotify_play_token_lost` ran. -/
  | token_lost
  /-- `wav_read` on the file of the track returned these bytes, of the header or of the audio. -/
  | wav (track : sp_track) (offset size : ℕ) (bytes : List (UInt8 ⊕ β))
deriving DecidableEq

/-- The state that the threads share. -/
structure Player (β : Type) where
  g_playback : spfs_audio_playback β
  g_playback_done : Bool
  /-- The static variable of `wav_read`. -/
  expoff : ℕ
  /-- The field of `spfs_data`. -/
  music_playing : Bool
  cond : Waiter
  /-- The track that libspotify has loaded. -/
  loaded : Option sp_track
  /-- The track whose WAV file is open. -/
  handle : Option sp_track
  log : List (Event β)

/-- The state after `spotify_threads_init`. -/
def Player.init : Player β :=
  ⟨spfs_audio_playback_new, false, 0, false, .awake, none, none, []⟩

/-- `g_cond_signal(&g_playback->cond)`. -/
def Waiter.signal : Waiter → Waiter
  | .awake => .awake
  | .parked => .woken
  | .woken => .woken

/-- After a signal no reader is parked without a wake-up pending. -/
@[simp] lemma signal_ne_parked (c : Waiter) : c.signal ≠ .parked := by
  cases c <;> simp [Waiter.signal]

/-! ## The instructions -/

/-- What `spotify_get_track_info` returns and stores in its two arguments. The format means
something only where the duration is not negative. -/
structure track_info where
  duration : ℤ
  channels : ℕ
  rate : ℕ
deriving DecidableEq, Repr

/-- The atomic steps of the threads. -/
inductive Instr (β : Type) : Type → Type
  /-- `spfs_audio_playback_is_playing`. -/
  | is_playing : Instr β Bool
  /-- A read of `g_playback->playing` without the mutex. -/
  | get_playing : Instr β (Option sp_track)
  /-- `g_playback->playing = track`, without the mutex. -/
  | set_playing (track : sp_track) : Instr β Unit
  /-- `g_playback->playing = NULL` under the mutex, as `spotify_end_of_track` does it. -/
  | clear_playing : Instr β Unit
  /-- `g_playback->playing = NULL` and a signal under the mutex, as `spotify_play_token_lost` does
  it. -/
  | lose_playing : Instr β Unit
  /-- A read of `g_playback_done`. -/
  | get_done : Instr β Bool
  /-- A write of `g_playback_done`. -/
  | set_done (b : Bool) : Instr β Unit
  /-- `spfs_audio_playback_flush`. -/
  | flush : Instr β Unit
  /-- The critical section of `spotify_audio_buffer_stats`, which reports the two counters. -/
  | buffer_stats : Instr β (ℤ × ℤ)
  /-- `spotify_music_delivery`; the value is what it returns. -/
  | delivery (d : Delivery β) : Instr β ℕ
  /-- The critical section of `spotify_get_audio`, with its return. -/
  | audio (size : ℕ) : Instr β (List β)
  /-- The critical section of `spotify_get_track_info`. -/
  | track_info : Instr β track_info
  /-- `sp_session_player_load`, and `sp_session_player_play` where it succeeds. -/
  | player_load (track : sp_track) : Instr β Bool
  /-- `sp_session_player_seek`. -/
  | player_seek (offset : ℤ) : Instr β Unit
  /-- libspotify has come to the end of the track that is loaded. -/
  | ended : Instr β Unit
  /-- A read of `expoff`. -/
  | get_expoff : Instr β ℕ
  /-- A write of `expoff`. -/
  | set_expoff (offset : ℕ) : Instr β Unit
  /-- `wav_open` on the file of a track: whether it returns 0. -/
  | wav_open (track : sp_track) : Instr β Bool
  /-- `wav_release`. -/
  | wav_release : Instr β Unit
  /-- `spotify_get_audio` returns 0 without a look at the queue. -/
  | refused (size : ℕ) : Instr β Unit
  /-- `spotify_play_track` returns true. -/
  | played (track : sp_track) : Instr β Unit
  /-- `wav_read` returns. -/
  | wav_returned (track : sp_track) (offset size : ℕ) (bytes : List (UInt8 ⊕ β)) : Instr β Unit

variable (duration : sp_track → ℤ)

/-- What an instruction does. `duration` is libspotify's `sp_track_duration`. The scheduler's
choice `ok` says whether `sp_session_player_load` succeeds, and whether `wait_on_track` sees the
track loaded in time.
Source: `spfs_spotify.c`, `spfs_audio.c` and `spfs_fuse_audiofile.c`, as each instruction says. -/
def exec : {γ : Type} → Instr β γ → Bool → Player β → Option (Option γ × Player β)
  | _, .is_playing, _, p => some (some p.g_playback.playing.isSome, p)
  | _, .get_playing, _, p => some (some p.g_playback.playing, p)
  | _, .set_playing track, _, p =>
    some (some (), { p with g_playback := { p.g_playback with playing := some track } })
  | _, .clear_playing, _, p =>
    some (some (), { p with g_playback := { p.g_playback with playing := none } })
  | _, .lose_playing, _, p =>
    some (some (), { p with
      g_playback := { p.g_playback with playing := none }
      cond := p.cond.signal
      log := .token_lost :: p.log })
  | _, .get_done, _, p => some (some p.g_playback_done, p)
  | _, .set_done b, _, p => some (some (), { p with g_playback_done := b })
  | _, .flush, _, p =>
    some (some (), { p with g_playback := p.g_playback.flush, cond := p.cond.signal })
  | _, .buffer_stats, _, p =>
    some (some (p.g_playback.nsamples, p.g_playback.stutter),
      { p with g_playback := { p.g_playback with stutter := 0 } })
  | _, .delivery d, _, p =>
    if p.g_playback.accepts d then
      some (some d.num_frames, { p with
        g_playback := p.g_playback.deliver d
        cond := p.cond.signal
        log := .delivered d :: p.log })
    else some (some 0, p)
  | _, .audio size, _, p =>
    if p.cond = .parked then none
    else if p.g_playback.playing.isSome ∧ p.g_playback.queue = [] then
      some (none, { p with
        g_playback := { p.g_playback with stutter := p.g_playback.stutter + 1 }
        cond := .parked })
    else
      some (some (p.g_playback.copied size), { p with
        g_playback := p.g_playback.drained size
        cond := .awake
        log := .audio size (p.g_playback.copied size) :: p.log })
  | _, .track_info, ok, p =>
    if p.cond = .parked then none
    -- the test for NULL stands in front of the loop and is not made again after a wait
    else if p.cond = .awake ∧ p.g_playback.playing = none then some (some ⟨-1, 0, 0⟩, p)
    else match p.g_playback.queue with
      | [] => some (none, { p with cond := .parked })
      | audio :: _ =>
        match p.g_playback.playing, ok with
        | some track, true =>
          some (some ⟨duration track, audio.channels, audio.rate⟩, { p with cond := .awake })
        | _, _ => some (some ⟨-1, audio.channels, audio.rate⟩, { p with cond := .awake })
  | _, .player_load track, ok, p =>
    if ok then
      some (some true, { p with loaded := some track, log := .loaded track :: p.log })
    else some (some false, p)
  | _, .player_seek _, _, p => some (some (), p)
  | _, .ended, _, p =>
    match p.loaded with
    | none => none
    | some track => some (some (), { p with log := .ended track :: p.log })
  | _, .get_expoff, _, p => some (some p.expoff, p)
  | _, .set_expoff offset, _, p => some (some (), { p with expoff := offset })
  | _, .wav_open track, _, p =>
    if p.music_playing then some (some false, p)
    else some (some true, { p with music_playing := true, handle := some track })
  | _, .wav_release, _, p =>
    some (some (), { p with music_playing := false, handle := none })
  | _, .refused size, _, p => some (some (), { p with log := .audio size [] :: p.log })
  | _, .played track, _, p => some (some (), { p with log := .played track :: p.log })
  | _, .wav_returned track offset size bytes, _, p =>
    some (some (), { p with log := .wav track offset size bytes :: p.log })

/-! ## The functions -/

/-- Source: `spfs_spotify.c`, `spotify_is_playing`. -/
def spotify_is_playing : Prog (Instr β) Bool := .of .is_playing

/-- Source: `spfs_spotify.c`, `spotify_get_audio`. -/
def spotify_get_audio (size : ℕ) : Prog (Instr β) (List β) := do
  let playing ← spotify_is_playing
  let stop ← if playing then .of .get_done else pure true
  if stop then do
    .of (.set_done false)
    .of (.refused size)
    pure []
  else .of (.audio size)

/-- Source: `spfs_spotify.c`, `spotify_get_track_info`. -/
def spotify_get_track_info : Prog (Instr β) track_info := .of .track_info

/-- Source: `spfs_audio.c`, `spfs_audio_playback_flush`. -/
def spfs_audio_playback_flush : Prog (Instr β) Unit := .of .flush

/-- The test of `playing` before it only warns.
Source: `spfs_spotify.c`, `spotify_seek_track`. -/
def spotify_seek_track (offset : ℤ) : Prog (Instr β) Unit :=
  if offset < 0 then pure ()
  else do
    .of (.set_done false)
    .of (.player_seek offset)
    spfs_audio_playback_flush

/-- Source: `spfs_spotify.c`, `spotify_play_track`. -/
def spotify_play_track (track : sp_track) : Prog (Instr β) Bool := do
  let playing ← .of .get_playing
  if playing = some track then do
    .of (.played track)
    pure true
  else do
    spfs_audio_playback_flush
    .of (.set_done false)
    let ok ← .of (.player_load track)
    if ok then do
      .of (.set_playing track)
      .of (.played track)
      pure true
    else pure false

/-- The first step is libspotify's.
Source: `spfs_spotify.c`, `spotify_end_of_track`. -/
def spotify_end_of_track : Prog (Instr β) Unit := do
  .of .ended
  spfs_audio_playback_flush
  .of .clear_playing
  .of (.set_done true)

/-- Source: `spfs_spotify.c`, `spotify_play_token_lost`. -/
def spotify_play_token_lost : Prog (Instr β) Unit := .of .lose_playing

/-- Source: `spfs_spotify.c`, `spotify_audio_buffer_stats`. -/
def spotify_audio_buffer_stats : Prog (Instr β) (ℤ × ℤ) := .of .buffer_stats

/-- Source: `spfs_spotify.c`, `spotify_music_delivery`. -/
def spotify_music_delivery (d : Delivery β) : Prog (Instr β) ℕ := .of (.delivery d)

/-- The calls that start a thread on one of the functions. -/
inductive Call (β : Type)
  | get_audio (size : ℕ)
  | get_track_info
  | play_track (track : sp_track)
  | seek_track (offset : ℤ)
  | music_delivery (d : Delivery β)
  | end_of_track
  | play_token_lost
  | audio_buffer_stats
  | flush

/-- The program of a call. -/
def Call.prog : Call β → Prog (Instr β) Unit
  | .get_audio size => do let _ ← spotify_get_audio size
  | .get_track_info => do let _ ← spotify_get_track_info
  | .play_track track => do let _ ← spotify_play_track track
  | .seek_track offset => spotify_seek_track offset
  | .music_delivery d => do let _ ← spotify_music_delivery d
  | .end_of_track => spotify_end_of_track
  | .play_token_lost => spotify_play_token_lost
  | .audio_buffer_stats => do let _ ← spotify_audio_buffer_stats
  | .flush => spfs_audio_playback_flush

/-- The calls of the reader. -/
def Call.reads : Call β → Bool
  | .get_audio _ | .get_track_info | .play_track _ | .seek_track _ => true
  | _ => false

/-- The thread of the reader. Every other thread runs callbacks. -/
def reader : ℕ := 0

/-- The system in which thread `t` may start the calls that `may` admits. -/
def playback_system (may : ℕ → Call β → Player β → Bool) :
    System (Instr β) (Player β) ℕ (Call β) Bool where
  exec := exec duration
  prog := Call.prog
  may := may

end Spotifile
