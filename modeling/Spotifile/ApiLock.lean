import Mathlib.Data.Int.Notation
import Spotifile.Lib.Interleave

/-!
# The lock on libspotify: `g_spotify_api_mutex`

libspotify is to be called by one thread at a time. FUSE runs its handlers on the thread that ran
`spfs_init`, which `spotify_threads_init` remembers in `g_fuse_thread`, and on any number of further
workers; the spotify thread runs `sp_session_process_events`, and libspotify calls back from within.
Here are the functions of `spfs_spotify.c` as far as they lock, wait and call libspotify.

What libspotify answers is up to the scheduler; of a pointer only counts whether it is NULL. The
mutexes of the notification and of the playback are left out, and so is the audio thread of
libspotify.

`ApiLock.faults` and `ApiLock.entered` are not in the source, and no instruction depends on them:
they record what goes wrong, and with what each wrapper was entered.
-/

namespace Spotifile.Api

open Lib

/-! ## The state -/

/-- The threads that call libspotify. -/
inductive ApiThread
  /-- The thread that ran `spfs_init`. -/
  | init
  /-- A further worker of FUSE. -/
  | worker (n : ℕ)
  /-- The thread that runs `spotify_thread_start`. -/
  | spotify
deriving DecidableEq, Repr

/-- Source: `spfs_spotify.c`, `spotify_threads_init`. -/
def g_fuse_thread : ApiThread := .init

/-- What a thread does against the rules. -/
inductive Fault
  /-- It calls libspotify without the mutex. -/
  | call (t : ApiThread)
  /-- It waits on `g_spotify_data_available` without the mutex. -/
  | wait (t : ApiThread)
  /-- It locks the mutex that it holds. -/
  | relock (t : ApiThread)
  /-- It unlocks the mutex that it does not hold. -/
  | unlock (t : ApiThread)
  /-- It returns from a wrapper with the mutex in another state than it entered it. -/
  | unbalanced (t : ApiThread)
deriving DecidableEq, Repr

/-- The state that the threads share. -/
structure ApiLock where
  /-- The thread that holds `g_spotify_api_mutex`. -/
  owner : Option ApiThread
  /-- The threads in a `g_cond_wait_until` on `g_spotify_data_available`. -/
  waiting : ApiThread → Bool
  /-- How many calls of libspotify a thread is in. -/
  depth : ApiThread → ℕ
  /-- Whether `g_playback->playing` is set. -/
  playing : Bool
  /-- For every wrapper that a thread is in, whether it held the mutex when it entered. -/
  entered : ApiThread → List Bool
  faults : List Fault

/-- The state after `spotify_threads_init`. -/
def ApiLock.init : ApiLock := ⟨none, fun _ => false, fun _ => 0, false, fun _ => [], []⟩

/-! ## The instructions -/

/-- The atomic steps, each with the thread that makes it. -/
inductive ApiInstr : Type → Type
  /-- `g_mutex_lock(&g_spotify_api_mutex)`. -/
  | lock (t : ApiThread) : ApiInstr Unit
  /-- `g_mutex_unlock(&g_spotify_api_mutex)`. -/
  | unlock (t : ApiThread) : ApiInstr Unit
  /-- `g_cond_wait_until(&g_spotify_data_available, &g_spotify_api_mutex, end_time)`. -/
  | wait (t : ApiThread) : ApiInstr Bool
  /-- A call of libspotify. -/
  | enter (t : ApiThread) : ApiInstr Unit
  /-- Its return, with a value; 0 stands for NULL, `false` and `SP_ERROR_OK`. -/
  | leave (t : ApiThread) : ApiInstr ℕ
  /-- A wrapper is entered. -/
  | enter_wrapper (t : ApiThread) : ApiInstr Unit
  /-- A wrapper returns. -/
  | leave_wrapper (t : ApiThread) : ApiInstr Unit
  /-- A test of `g_playback->playing`. -/
  | playing : ApiInstr Bool
  /-- The read of `g_playback->playing` for `wait_on_track` in `spotify_get_track_info`. -/
  | info_track : ApiInstr Bool
  /-- A write of `g_playback->playing`. -/
  | set_playing (b : Bool) : ApiInstr Unit
  /-- What other data decides. -/
  | other : ApiInstr Bool

/-- What the instructions do. A thread that locks the mutex it holds never gets on. A wait gives
the mutex up, and ends with the mutex: by a signal, if the scheduler's choice is not 0, or by the
timeout. -/
def exec : {γ : Type} → ApiInstr γ → ℕ → ApiLock → Option (Option γ × ApiLock)
  | _, .lock t, _, s =>
    match s.owner with
    | none => some (some (), { s with owner := some t })
    | some u => if u = t then some (none, { s with faults := .relock t :: s.faults }) else none
  | _, .unlock t, _, s =>
    if s.owner = some t then some (some (), { s with owner := none })
    else some (some (), { s with faults := .unlock t :: s.faults })
  | _, .wait t, o, s =>
    if s.waiting t then
      if s.owner = none then
        some (some (o ≠ 0),
          { s with owner := some t, waiting := Function.update s.waiting t false })
      else none
    else if s.owner = some t then
      some (none, { s with owner := none, waiting := Function.update s.waiting t true })
    else some (none, { s with
      waiting := Function.update s.waiting t true
      faults := .wait t :: s.faults })
  | _, .enter t, _, s =>
    some (some (), { s with
      depth := Function.update s.depth t (s.depth t + 1)
      faults := if s.owner = some t then s.faults else .call t :: s.faults })
  | _, .leave t, o, s =>
    some (some o, { s with depth := Function.update s.depth t (s.depth t - 1) })
  | _, .enter_wrapper t, _, s =>
    some (some (), { s with
      entered := Function.update s.entered t ((s.owner = some t : Bool) :: s.entered t) })
  | _, .leave_wrapper t, _, s =>
    some (some (), { s with
      entered := Function.update s.entered t (s.entered t).tail
      faults := if (s.entered t).head? = some (s.owner = some t : Bool) then s.faults
        else .unbalanced t :: s.faults })
  | _, .playing, _, s => some (some s.playing, s)
  | _, .info_track, _, s => some (some s.playing, s)
  | _, .set_playing b, _, s => some (some (), { s with playing := b })
  | _, .other, o, s => some (some (o ≠ 0), s)

/-- A program of `spfs_spotify.c`. -/
abbrev ApiProg (α : Type) := Prog ApiInstr α

/-- A pointer, as far as it counts here. -/
abbrev pointer := Option Unit

/-- A pointer that libspotify has returned. -/
def pointer_of (v : ℕ) : pointer := if v = 0 then none else some ()

/-- A call of a function of libspotify. -/
def sp_call (t : ApiThread) : ApiProg ℕ := do
  .of (.enter t)
  .of (.leave t)

/-! ## Waiting -/

/-- What `SPFS_WAIT_ON_FUNC` generates. `error` says whether `sp_.._error` is a function of
libspotify; for some types `spfs_spotify.c` defines one that always returns `SP_ERROR_OK`. The loop
takes a bound on how often a signal comes before the timeout.
Source: `spfs_spotify.c`, `SPFS_WAIT_ON_FUNC`. -/
def wait_on (error : Bool) (t : ApiThread) : ℕ → pointer → ApiProg Bool
  | _, none => .ret false
  | 0, some _ => .ret false
  | fuel + 1, some p => do
    let loaded ← sp_call t
    if loaded = 0 then do
      let signalled ← .of (.wait t)
      if signalled then wait_on error t fuel (some p) else .ret false
    else if error then do
      let err ← sp_call t
      if err = 0 then .ret true
      else do
        -- the text of the warning
        let _ ← sp_call t
        .ret false
    else .ret true

/-- Source: `spfs_spotify.c`, `SPFS_WAIT_ON_FUNC(image)`. -/
def wait_on_image := wait_on true
/-- Source: `spfs_spotify.c`, `SPFS_WAIT_ON_FUNC(artist)`. -/
def wait_on_artist := wait_on false
/-- Source: `spfs_spotify.c`, `SPFS_WAIT_ON_FUNC(album)`. -/
def wait_on_album := wait_on false
/-- Source: `spfs_spotify.c`, `SPFS_WAIT_ON_FUNC(track)`. -/
def wait_on_track := wait_on true
/-- Source: `spfs_spotify.c`, `SPFS_WAIT_ON_FUNC(playlist)`. -/
def wait_on_playlist := wait_on false
/-- Source: `spfs_spotify.c`, `SPFS_WAIT_ON_FUNC(playlistcontainer)`. -/
def wait_on_playlistcontainer := wait_on false
/-- Source: `spfs_spotify.c`, `SPFS_WAIT_ON_FUNC(artistbrowse)`. -/
def wait_on_artistbrowse := wait_on true
/-- Source: `spfs_spotify.c`, `SPFS_WAIT_ON_FUNC(search)`. -/
def wait_on_search := wait_on true
/-- Source: `spfs_spotify.c`, `wait_on_session`. -/
def wait_on_session (_ : ApiThread) (_ : ℕ) (_ : pointer) : ApiProg Bool := .ret true

/-! ## The wrappers that lock on one thread only -/

/-- A wrapper, with the record of how it is entered and left. -/
def wrapper {α : Type} (t : ApiThread) (p : ApiProg α) : ApiProg α := do
  .of (.enter_wrapper t)
  let a ← p
  .of (.leave_wrapper t)
  .ret a

/-- What `SPFS_SPOTIFY_API_PRELUDE` and `SPFS_SPOTIFY_API_POSTLUDE` put around a call of
libspotify. Its arguments besides the object are left out.
Source: `spfs_spotify.c`, `SPFS_SPOTIFY_API_PRELUDE`. -/
def api_func (wait : ApiThread → ℕ → pointer → ApiProg Bool) (t : ApiThread) (fuel : ℕ)
    (obj : pointer) : ApiProg ℕ :=
  wrapper t do
    if t = g_fuse_thread then .of (.lock t)
    let _ ← wait t fuel obj
    let v ← sp_call t
    if t = g_fuse_thread then .of (.unlock t)
    .ret v

/-- The functions on links lock in the same way and wait for nothing.
Source: `spfs_spotify.c`. -/
def link_func := api_func wait_on_session

/-- Source: `spfs_spotify.c`, `SPFS_SPOTIFY_API_FUNC(int, search, total_tracks)`. -/
def spotify_search_total_tracks := api_func wait_on_search
/-- Source: `spfs_spotify.c`, `SPFS_SPOTIFY_API_FUNC(int, search, num_tracks)`. -/
def spotify_search_num_tracks := api_func wait_on_search
/-- Source: `spfs_spotify.c`, `SPFS_SPOTIFY_API_FUNC2(sp_track *, search, track, int, index)`. -/
def spotify_search_track := api_func wait_on_search
/-- Source: `spfs_spotify.c`, `spotify_image_data`. -/
def spotify_image_data := api_func wait_on_image
/-- Source: `spfs_spotify.c`, `SPFS_SPOTIFY_API_FUNC_COPY(gchar *, playlist, name, g_strdup)`. -/
def spotify_playlist_name := api_func wait_on_playlist
/-- Source: `spfs_spotify.c`, `SPFS_SPOTIFY_API_FUNC(int, playlist, num_tracks)`. -/
def spotify_playlist_num_tracks := api_func wait_on_playlist
/-- Source: `spfs_spotify.c`, `SPFS_SPOTIFY_API_FUNC2(sp_track *, playlist, track, int, index)`. -/
def spotify_playlist_track := api_func wait_on_playlist
/-- Source: `spfs_spotify.c`,
`SPFS_SPOTIFY_API_FUNC2(int, playlist, track_create_time, int, index)`. -/
def spotify_playlist_track_create_time := api_func wait_on_playlist
/-- Source: `spfs_spotify.c`, `SPFS_SPOTIFY_API_FUNC_COPY(gchar *, artist, name, g_strdup)`. -/
def spotify_artist_name := api_func wait_on_artist
/-- Source: `spfs_spotify.c`, `SPFS_SPOTIFY_API_FUNC_COPY(gchar *, album, name, g_strdup)`. -/
def spotify_album_name := api_func wait_on_album
/-- Source: `spfs_spotify.c`,
`SPFS_SPOTIFY_API_FUNC2(const byte *, album, cover, sp_image_size, size)`. -/
def spotify_album_cover := api_func wait_on_album
/-- Source: `spfs_spotify.c`, `SPFS_SPOTIFY_API_FUNC(sp_artist *, artistbrowse, artist)`. -/
def spotify_artistbrowse_artist := api_func wait_on_artistbrowse
/-- Source: `spfs_spotify.c`, `SPFS_SPOTIFY_API_FUNC_COPY(gchar *, track, name, g_strdup)`. -/
def spotify_track_name := api_func wait_on_track
/-- Source: `spfs_spotify.c`, `SPFS_SPOTIFY_API_FUNC(int, track, duration)`. -/
def spotify_track_duration := api_func wait_on_track
/-- Source: `spfs_spotify.c`, `SPFS_SPOTIFY_API_FUNC(int, track, disc)`. -/
def spotify_track_disc := api_func wait_on_track
/-- Source: `spfs_spotify.c`, `SPFS_SPOTIFY_API_FUNC(int, track, index)`. -/
def spotify_track_index := api_func wait_on_track
/-- Source: `spfs_spotify.c`, `SPFS_SPOTIFY_API_FUNC(int, track, popularity)`. -/
def spotify_track_popularity := api_func wait_on_track
/-- Source: `spfs_spotify.c`, `SPFS_SPOTIFY_API_FUNC(int, track, num_artists)`. -/
def spotify_track_num_artists := api_func wait_on_track
/-- Source: `spfs_spotify.c`, `SPFS_SPOTIFY_API_FUNC(sp_album *, track, album)`. -/
def spotify_track_album := api_func wait_on_track
/-- Source: `spfs_spotify.c`,
`SPFS_SPOTIFY_API_FUNC(sp_track_offline_status, track, offline_get_status)`. -/
def spotify_track_offline_get_status := api_func wait_on_track
/-- Source: `spfs_spotify.c`, `SPFS_SPOTIFY_API_FUNC2(sp_artist *, track, artist, int, index)`. -/
def spotify_track_artist := api_func wait_on_track
/-- Source: `spfs_spotify.c`, `SPFS_SPOTIFY_SESSION_API_FUNC(bool, track, is_starred)`. -/
def spotify_track_is_starred := api_func wait_on_track
/-- Source: `spfs_spotify.c`, `SPFS_SPOTIFY_SESSION_API_FUNC(bool, track, is_local)`. -/
def spotify_track_is_local := api_func wait_on_track
/-- Source: `spfs_spotify.c`, `SPFS_SPOTIFY_SESSION_API_FUNC(bool, track, is_autolinked)`. -/
def spotify_track_is_autolinked := api_func wait_on_track
/-- Source: `spfs_spotify.c`, `SPFS_SPOTIFY_API_FUNC(int, playlistcontainer, num_playlists)`. -/
def spotify_playlistcontainer_num_playlists := api_func wait_on_playlistcontainer
/-- Source: `spfs_spotify.c`,
`SPFS_SPOTIFY_API_FUNC2(sp_playlist *, playlistcontainer, playlist, int, index)`. -/
def spotify_playlistcontainer_playlist := api_func wait_on_playlistcontainer
/-- Source: `spfs_spotify.c`,
`SPFS_SPOTIFY_API_FUNC(sp_playlistcontainer *, session, playlistcontainer)`. -/
def spotify_session_playlistcontainer := api_func wait_on_session
/-- Source: `spfs_spotify.c`, `spotify_link_create_from_artist`. -/
def spotify_link_create_from_artist := api_func wait_on_artist
/-- Source: `spfs_spotify.c`, `spotify_link_create_from_track`. -/
def spotify_link_create_from_track := api_func wait_on_track
/-- Source: `spfs_spotify.c`, `spotify_link_create_from_album`. -/
def spotify_link_create_from_album := api_func wait_on_album
/-- Source: `spfs_spotify.c`, `spotify_link_create_from_string`. -/
def spotify_link_create_from_string := link_func
/-- Source: `spfs_spotify.c`, `spotify_link_as_artist`. -/
def spotify_link_as_artist := link_func
/-- Source: `spfs_spotify.c`, `spotify_link_as_string`. -/
def spotify_link_as_string := link_func

/-! ## The wrappers that always lock -/

/-- A program under the mutex. -/
def locked (t : ApiThread) (p : ApiProg Unit) : ApiProg Unit := do
  .of (.lock t)
  p
  .of (.unlock t)

/-- A call of libspotify without its value. -/
def sp_call_ (t : ApiThread) : ApiProg Unit := do let _ ← sp_call t

/-- The number of elements, and each of them. -/
def get_elements (t : ApiThread) : ApiProg Unit := do
  let n ← sp_call t
  Prog.forEach (List.range n) fun _ => sp_call_ t

/-- Source: `spfs_spotify.c`, `spotify_connectionstate`. -/
def spotify_connectionstate (t : ApiThread) : ApiProg Unit := wrapper t (locked t (sp_call_ t))

/-- Source: `spfs_spotify.c`, `spotify_get_track_artists`. -/
def spotify_get_track_artists (t : ApiThread) (fuel : ℕ) (track : pointer) : ApiProg Unit :=
  wrapper t <| locked t do
    if ← wait_on_track t fuel track then get_elements t

/-- Source: `spfs_spotify.c`, `spotify_get_artistbrowse_albums`. -/
def spotify_get_artistbrowse_albums (t : ApiThread) (fuel : ℕ) (ab : pointer) : ApiProg Unit :=
  wrapper t <| locked t do
    if ← wait_on_artistbrowse t fuel ab then get_elements t

/-- Source: `spfs_spotify.c`, `spotify_get_artistbrowse_portraits`. -/
def spotify_get_artistbrowse_portraits (t : ApiThread) (fuel : ℕ) (ab : pointer) : ApiProg Unit :=
  wrapper t <| locked t do
    if ← wait_on_artistbrowse t fuel ab then get_elements t

/-- Source: `spfs_spotify.c`, `spotify_get_playlists`. -/
def spotify_get_playlists (t : ApiThread) (fuel : ℕ) : ApiProg Unit :=
  wrapper t <| locked t do
    let plc ← sp_call t
    if ← wait_on_playlistcontainer t fuel (pointer_of plc) then get_elements t

/-- Source: `spfs_spotify.c`, `spotify_get_playlist_tracks`. -/
def spotify_get_playlist_tracks (t : ApiThread) (fuel : ℕ) (playlist : pointer) : ApiProg Unit :=
  wrapper t <| locked t do
    if ← wait_on_playlist t fuel playlist then get_elements t

/-- Source: `spfs_spotify.c`, `spotify_seek_track`. -/
def spotify_seek_track (t : ApiThread) (session : pointer) (offset : ℤ) : ApiProg Unit :=
  wrapper t <| if session = none ∨ offset < 0 then .ret () else locked t (sp_call_ t)

/-- Source: `spfs_spotify.c`, `spotify_play_track`. -/
def spotify_play_track (t : ApiThread) (session track : pointer) : ApiProg Unit :=
  wrapper t <| if session = none ∨ track = none then .ret () else do
    let playing ← .of .playing
    let same ← .of .other
    if playing && same then .ret ()
    else locked t do
      let sperr ← sp_call t
      if sperr = 0 then do
        sp_call_ t
        .of (.set_playing true)
      -- the text of the warning
      else sp_call_ t

/-- Source: `spfs_spotify.c`, `spotify_image_create`. -/
def spotify_image_create (t : ApiThread) (session id : pointer) : ApiProg Unit :=
  wrapper t <| if session = none ∨ id = none then .ret () else locked t (sp_call_ t)

/-- Source: `spfs_spotify.c`, `spotify_artistbrowse_biography`. -/
def spotify_artistbrowse_biography (t : ApiThread) (fuel : ℕ) (ab : pointer) : ApiProg Unit :=
  wrapper t <| if ab = none then .ret () else locked t do
    if ← wait_on_artistbrowse t fuel ab then sp_call_ t

/-- Source: `spfs_spotify.c`, `spotify_artistbrowse_create`. -/
def spotify_artistbrowse_create (t : ApiThread) (fuel : ℕ) (session artist : pointer) :
    ApiProg Unit :=
  wrapper t <| if session = none ∨ artist = none then .ret () else locked t do
    if ← wait_on_artist t fuel artist then sp_call_ t

/-- Source: `spfs_spotify.c`, `spotify_search_create_track_search`. -/
def spotify_search_create_track_search (t : ApiThread) : ApiProg Unit :=
  wrapper t (locked t (sp_call_ t))

/-- Source: `spfs_spotify.c`, `spotify_bitrate_set`. -/
def spotify_bitrate_set (t : ApiThread) (bitrate : Option String) : ApiProg Unit :=
  wrapper t <|
    if bitrate = some "96kbps" ∨ bitrate = some "160kbps" ∨ bitrate = some "320kbps" then
      locked t (sp_call_ t)
    else .ret ()

/-! ## The wrapper that never locks -/

/-- The wait for the queue, which is under the mutex of the playback, is left out.
Source: `spfs_spotify.c`, `spotify_get_track_info`. -/
def spotify_get_track_info (t : ApiThread) (fuel : ℕ) : ApiProg Unit :=
  wrapper t do
    let playing ← .of .playing
    if playing then do
      let track ← .of .info_track
      if ← wait_on_track t fuel (if track then some () else none) then sp_call_ t

/-! ## The callbacks and the spotify thread -/

/-- Source: `spfs_fuse_track.c`, `create_track_browse_dir`. -/
def create_track_browse_dir (t : ApiThread) (fuel : ℕ) (track : pointer) : ApiProg Unit :=
  if track = none then .ret () else do
    let link ← spotify_link_create_from_track t fuel track
    if link = 0 then .ret ()
    else do let _ ← spotify_link_as_string t fuel (pointer_of link)

/-- Source: `spfs_fuse_track.c`, `create_wav_track_link_in_directory`. -/
def create_wav_track_link_in_directory (t : ApiThread) (fuel : ℕ) (track : pointer) :
    ApiProg Unit := do
  let has ← .of .other
  if has then .ret () else create_track_browse_dir t fuel track

/-- Source: `spfs_fuse_search.c`, `track_search_complete_cb`. -/
def track_search_complete_cb (t : ApiThread) (fuel : ℕ) (search : pointer) : ApiProg Unit := do
  let num_tracks ← spotify_search_num_tracks t fuel search
  Prog.forEach (List.range num_tracks) fun _ => do
    let track ← spotify_search_track t fuel search
    let _ ← spotify_track_name t fuel (pointer_of track)
    let artist ← spotify_track_artist t fuel (pointer_of track)
    let _ ← spotify_artist_name t fuel (pointer_of artist)
    create_wav_track_link_in_directory t fuel (pointer_of track)

/-- The text of a failed login.
Source: `spfs_spotify.c`, `spotify_logged_in`. -/
def spotify_logged_in (t : ApiThread) (error : ℕ) : ApiProg Unit :=
  if error = 0 then .ret () else sp_call_ t

/-- The text of the warning.
Source: `spfs_spotify.c`, `spotify_connection_error`. -/
def spotify_connection_error (t : ApiThread) (_ : ℕ) : ApiProg Unit := sp_call_ t

/-- The callbacks that libspotify runs while it processes events, as far as they do anything here:
the end of the track and the loss of the play token both clear `playing`. -/
inductive Callback
  | search_complete (search : pointer)
  | end_of_track
  | play_token_lost
  | logged_in (error : ℕ)
  | connection_error (error : ℕ)

/-- The program of a callback. -/
def Callback.prog (t : ApiThread) (fuel : ℕ) : Callback → ApiProg Unit
  | .search_complete search => track_search_complete_cb t fuel search
  | .end_of_track => .of (.set_playing false)
  | .play_token_lost => .of (.set_playing false)
  | .logged_in error => spotify_logged_in t error
  | .connection_error error => spotify_connection_error t error

/-- The body of the inner loop.
Source: `spfs_spotify.c`, `spotify_thread_start`. -/
def process_events (t : ApiThread) (fuel : ℕ) (callbacks : List Callback) : ApiProg Unit :=
  locked t do
    .of (.enter t)
    Prog.forEach callbacks (Callback.prog t fuel)
    let err ← .of (.leave t)
    -- the text of the warning
    if err = 0 then .ret () else sp_call_ t

/-! ## The system -/

/-- The wrappers that lock on `g_fuse_thread` only. -/
inductive ApiFunc
  | search_total_tracks | search_num_tracks | search_track | image_data
  | playlist_name | playlist_num_tracks | playlist_track | playlist_track_create_time
  | artist_name | album_name | album_cover | artistbrowse_artist
  | track_name | track_duration | track_disc | track_index | track_popularity | track_num_artists
  | track_album | track_offline_get_status | track_artist | track_is_starred | track_is_local
  | track_is_autolinked
  | playlistcontainer_num_playlists | playlistcontainer_playlist | session_playlistcontainer
  | link_create_from_artist | link_create_from_track | link_create_from_album
  | link_create_from_string | link_as_artist | link_as_string
deriving DecidableEq, Repr

/-- The program of such a wrapper. -/
def ApiFunc.prog : ApiFunc → ApiThread → ℕ → pointer → ApiProg ℕ
  | .search_total_tracks => spotify_search_total_tracks
  | .search_num_tracks => spotify_search_num_tracks
  | .search_track => spotify_search_track
  | .image_data => spotify_image_data
  | .playlist_name => spotify_playlist_name
  | .playlist_num_tracks => spotify_playlist_num_tracks
  | .playlist_track => spotify_playlist_track
  | .playlist_track_create_time => spotify_playlist_track_create_time
  | .artist_name => spotify_artist_name
  | .album_name => spotify_album_name
  | .album_cover => spotify_album_cover
  | .artistbrowse_artist => spotify_artistbrowse_artist
  | .track_name => spotify_track_name
  | .track_duration => spotify_track_duration
  | .track_disc => spotify_track_disc
  | .track_index => spotify_track_index
  | .track_popularity => spotify_track_popularity
  | .track_num_artists => spotify_track_num_artists
  | .track_album => spotify_track_album
  | .track_offline_get_status => spotify_track_offline_get_status
  | .track_artist => spotify_track_artist
  | .track_is_starred => spotify_track_is_starred
  | .track_is_local => spotify_track_is_local
  | .track_is_autolinked => spotify_track_is_autolinked
  | .playlistcontainer_num_playlists => spotify_playlistcontainer_num_playlists
  | .playlistcontainer_playlist => spotify_playlistcontainer_playlist
  | .session_playlistcontainer => spotify_session_playlistcontainer
  | .link_create_from_artist => spotify_link_create_from_artist
  | .link_create_from_track => spotify_link_create_from_track
  | .link_create_from_album => spotify_link_create_from_album
  | .link_create_from_string => spotify_link_create_from_string
  | .link_as_artist => spotify_link_as_artist
  | .link_as_string => spotify_link_as_string

/-- The calls of the handlers of FUSE, and the step of the spotify thread. A handler makes any
number of calls, one after the other. -/
inductive ApiCall
  | func (f : ApiFunc) (obj : pointer)
  | connectionstate
  | get_track_artists (track : pointer)
  | get_artistbrowse_albums (ab : pointer)
  | get_artistbrowse_portraits (ab : pointer)
  | get_playlists
  | get_playlist_tracks (playlist : pointer)
  | seek_track (session : pointer) (offset : ℤ)
  | play_track (session track : pointer)
  | image_create (session id : pointer)
  | artistbrowse_biography (ab : pointer)
  | artistbrowse_create (session artist : pointer)
  | search_create_track_search
  | bitrate_set (bitrate : Option String)
  | get_track_info
  | process_events (callbacks : List Callback)

/-- The program of a call on the thread `t`. -/
def ApiCall.prog (t : ApiThread) (fuel : ℕ) : ApiCall → ApiProg Unit
  | .func f obj => do let _ ← f.prog t fuel obj
  | .connectionstate => spotify_connectionstate t
  | .get_track_artists track => spotify_get_track_artists t fuel track
  | .get_artistbrowse_albums ab => spotify_get_artistbrowse_albums t fuel ab
  | .get_artistbrowse_portraits ab => spotify_get_artistbrowse_portraits t fuel ab
  | .get_playlists => spotify_get_playlists t fuel
  | .get_playlist_tracks playlist => spotify_get_playlist_tracks t fuel playlist
  | .seek_track session offset => spotify_seek_track t session offset
  | .play_track session track => spotify_play_track t session track
  | .image_create session id => spotify_image_create t session id
  | .artistbrowse_biography ab => spotify_artistbrowse_biography t fuel ab
  | .artistbrowse_create session artist => spotify_artistbrowse_create t fuel session artist
  | .search_create_track_search => spotify_search_create_track_search t
  | .bitrate_set bitrate => spotify_bitrate_set t bitrate
  | .get_track_info => spotify_get_track_info t fuel
  | .process_events callbacks => Api.process_events t fuel callbacks

/-- Whether a call is the step of the spotify thread. -/
def ApiCall.processes : ApiCall → Bool
  | .process_events _ => true
  | _ => false

/-- A call, on a thread, with the bound for its waits. -/
structure ApiOp where
  thread : ApiThread
  fuel : ℕ
  call : ApiCall

/-- The spotify thread processes events, and the threads of FUSE call everything else. -/
def api_system : System ApiInstr ApiLock ApiThread ApiOp ℕ where
  exec := exec
  prog op := op.call.prog op.thread op.fuel
  may t op _ := op.thread = t && op.call.processes == decide (t = .spotify)

end Spotifile.Api
