import Spotifile.Lib.Interleave

/-!
# Waiting for what libspotify loads

What libspotify knows of an object changes while the spotify thread processes its events, with
`g_spotify_api_mutex` locked. The functions that read a list of an object lock the mutex too. Where
the object has not loaded, they give it up and sleep on `g_spotify_data_available`, until an object
may have loaded or `SPFS_CB_TIMEOUT_S` seconds have passed.

* `get_list_returns`: a list that is returned is the list of one moment of the call, and NULL is
  returned for a reason.
* `loaded_awake`: no thread of these functions sleeps on while its object has loaded, if libspotify
  tells of what it loads.

They hold the mutex from the test to the wait. The functions that test and wait without it are left
out (those that read one field, and `spotify_get_track_info`), and so is a callback that waits
itself (`track_search_complete_cb`).
-/

namespace Spotifile.Loading

open Lib

/-! ## The state -/

/-- The objects of libspotify that have lists. -/
inductive SpObject
  | track (p : ℕ)
  | artistbrowse (p : ℕ)
  | playlistcontainer (p : ℕ)
  | playlist (p : ℕ)
deriving DecidableEq, Repr

/-- The lists. -/
inductive SpList
  | artists | albums | portraits | playlists | tracks
deriving DecidableEq, Repr

/-- What the functions of libspotify answer. -/
structure SpData where
  is_loaded : SpObject → Bool
  /-- 0 stands for `SP_ERROR_OK`. -/
  error : SpObject → ℕ
  items : SpList → SpObject → List ℕ
  session_playlistcontainer : Option SpObject

/-- `sp_.._error`, which `spfs_spotify.c` itself defines for some types.
Source: `spfs_spotify.c`, `sp_playlistcontainer_error`, `sp_playlist_error`. -/
def SpData.sp_error (d : SpData) : SpObject → ℕ
  | .playlistcontainer _ | .playlist _ => 0
  | x => d.error x

/-- The threads. -/
inductive Thread
  /-- A thread of FUSE. -/
  | handler (n : ℕ)
  /-- The thread that runs `spotify_thread_start`. -/
  | spotify
deriving DecidableEq, Repr

/-- Where a thread is in the loop of `wait_on_..`. -/
inductive Phase
  /-- In front of the test. -/
  | test
  /-- In front of the wait for this object. -/
  | park (x : SpObject)
  /-- In the wait, with a wake-up pending or not. -/
  | parked (x : SpObject) (woken : Bool)
deriving DecidableEq, Repr

/-- A list that was asked for, and what was returned; `none` is NULL. -/
structure Return where
  list : SpList
  object : Option SpObject
  array : Option (List ℕ)
  /-- What libspotify answered from the call to the return. -/
  since : List SpData
  /-- The times of the call and of the return. -/
  called : ℕ
  returned : ℕ

/-- What the threads share. The last four fields are not in the source. -/
structure LoadState where
  /-- The thread that holds `g_spotify_api_mutex`. -/
  owner : Option Thread
  data : SpData
  /-- What `g_get_monotonic_time` says. -/
  clock : ℕ
  phase : Thread → Phase
  /-- Whether the data has changed since `g_spotify_data_available` was signalled. -/
  untold : Bool
  /-- What libspotify has answered since the last call of the thread. -/
  since : Thread → List SpData
  /-- The time of the call. -/
  called : Thread → ℕ
  returns : List Return

/-- The state before any thread is started, with what libspotify answers then. -/
def LoadState.init (d : SpData) : LoadState where
  owner := none
  data := d
  clock := 0
  phase _ := .test
  untold := false
  since _ := [d]
  called _ := 0
  returns := []

/-! ## The instructions -/

/-- Source: `spotify-fs.h`. -/
def SPFS_CB_TIMEOUT_S : ℕ := 30

/-- In microseconds. Source: glib. -/
def G_TIME_SPAN_SECOND : ℕ := 1000000

/-- The atomic steps of a thread. -/
inductive LoadInstr : Type → Type
  /-- A function is called. -/
  | called (t : Thread) : LoadInstr Unit
  /-- It returns. -/
  | returned (t : Thread) (list : SpList) (x : Option SpObject) (array : Option (List ℕ)) :
    LoadInstr Unit
  | lock (t : Thread) : LoadInstr Unit
  | unlock (t : Thread) : LoadInstr Unit
  /-- `g_get_monotonic_time() + SPFS_CB_TIMEOUT_S * G_TIME_SPAN_SECOND`. -/
  | end_time : LoadInstr ℕ
  /-- The loop of `wait_on_..`, step by step; `false` is a wait that has timed out. -/
  | wait_loaded (t : Thread) (x : SpObject) (end_time : ℕ) : LoadInstr Bool
  | error (x : SpObject) : LoadInstr ℕ
  | session_playlistcontainer : LoadInstr (Option SpObject)
  /-- The number of items of a list. -/
  | num (list : SpList) (x : SpObject) : LoadInstr ℕ
  /-- One item; 0 is NULL. -/
  | item (list : SpList) (x : SpObject) (i : ℕ) : LoadInstr ℕ
  /-- libspotify loads data, in `sp_session_process_events`. -/
  | load (d : SpData) : LoadInstr Unit
  /-- `g_cond_broadcast(&g_spotify_data_available)`. -/
  | broadcast : LoadInstr Unit

/-- What is left to chance: the time that has passed, whether a wait that may time out does so, and
whether a wait ends without a wake-up. -/
structure Chance where
  elapsed : ℕ
  times_out : Bool
  spurious : Bool

/-- A broadcast wakes the threads that wait. -/
def Phase.wake : Phase → Phase
  | .parked x _ => .parked x true
  | phase => phase

/-- One step of the loop of `wait_on_..`.
Source: `spfs_spotify.c`, `SPFS_WAIT_ON_FUNC`. -/
def wait_step (t : Thread) (x : SpObject) (end_time : ℕ) (o : Chance) (s : LoadState) :
    Option (Option Bool × LoadState) :=
  match s.phase t with
  | .test =>
    if s.data.is_loaded x then some (some true, s)
    else some (none, { s with phase := Function.update s.phase t (.park x) })
  | .park y =>
    some (none, { s with owner := none, phase := Function.update s.phase t (.parked y false) })
  | .parked _ woken =>
    if s.owner = none then
      if end_time ≤ s.clock ∧ o.times_out then
        some (some false, { s with owner := some t, phase := Function.update s.phase t .test })
      else if woken ∨ o.spurious then
        some (none, { s with owner := some t, phase := Function.update s.phase t .test })
      else none
    else none

/-- What the instructions do, when the time of the step has passed. -/
def exec_at : {γ : Type} → LoadInstr γ → Chance → LoadState → Option (Option γ × LoadState)
  | _, .called t, _, s => some (some (), { s with
      since := Function.update s.since t [s.data]
      called := Function.update s.called t s.clock })
  | _, .returned t list x array, _, s => some (some (), { s with
      returns := ⟨list, x, array, s.since t, s.called t, s.clock⟩ :: s.returns })
  | _, .lock t, _, s => if s.owner = none then some (some (), { s with owner := some t }) else none
  | _, .unlock _, _, s => some (some (), { s with owner := none })
  | _, .end_time, _, s => some (some (s.clock + SPFS_CB_TIMEOUT_S * G_TIME_SPAN_SECOND), s)
  | _, .wait_loaded t x end_time, o, s => wait_step t x end_time o s
  | _, .error x, _, s => some (some (s.data.sp_error x), s)
  | _, .session_playlistcontainer, _, s => some (some s.data.session_playlistcontainer, s)
  | _, .num list x, _, s => some (some (s.data.items list x).length, s)
  | _, .item list x i, _, s => some (some ((s.data.items list x).getD i 0), s)
  | _, .load d, _, s => some (some (), { s with
      data := d
      untold := true
      since := fun t => d :: s.since t })
  | _, .broadcast, _, s => some (some (), { s with
      phase := fun t => (s.phase t).wake
      untold := false })

/-- Time passes, then the instruction is executed. -/
def exec {γ : Type} (i : LoadInstr γ) (o : Chance) (s : LoadState) :
    Option (Option γ × LoadState) :=
  exec_at i o { s with clock := s.clock + o.elapsed }

/-- A program of `spfs_spotify.c`. -/
abbrev LoadProg (α : Type) := Prog LoadInstr α

/-! ## Reading a list -/

/-- What `SPFS_WAIT_ON_FUNC` generates.
Source: `spfs_spotify.c`, `SPFS_WAIT_ON_FUNC`. -/
def wait_on (t : Thread) (x : SpObject) : LoadProg Bool := do
  let end_time ← .of .end_time
  let loaded ← .of (.wait_loaded t x end_time)
  if loaded then do
    let err ← .of (.error x)
    .ret (err = 0)
  else .ret false

/-- The loop that fills the array; `n` items are left.
Source: glib's `g_array_insert_val`. -/
def insert_vals (list : SpList) (x : SpObject) : (n i : ℕ) → List ℕ → LoadProg (List ℕ)
  | 0, _, array => .ret array
  | n + 1, i, array => do
    let item ← .of (.item list x i)
    insert_vals list x n (i + 1) (array.insertIdx i item)

/-- Of an object, with the mutex locked. `wait_on_..` answers `false` to NULL. -/
def read_list (t : Thread) (list : SpList) : Option SpObject → LoadProg (Option (List ℕ))
  | none => .ret none
  | some x => do
    let loaded ← wait_on t x
    if loaded then do
      let n ← .of (.num list x)
      let array ← insert_vals list x n 0 []
      .ret (some array)
    else .ret none

/-- What the functions have in common that read a list. `find` finds the object. -/
def get_list (t : Thread) (list : SpList) (find : LoadProg (Option SpObject)) :
    LoadProg Unit := do
  .of (.called t)
  .of (.lock t)
  let x ← find
  let array ← read_list t list x
  .of (.unlock t)
  .of (.returned t list x array)

/-- Source: `spfs_spotify.c`, `spotify_get_track_artists`. -/
def spotify_get_track_artists (t : Thread) (track : Option ℕ) : LoadProg Unit :=
  get_list t .artists (.ret (track.map .track))

/-- Source: `spfs_spotify.c`, `spotify_get_artistbrowse_albums`. -/
def spotify_get_artistbrowse_albums (t : Thread) (ab : Option ℕ) : LoadProg Unit :=
  get_list t .albums (.ret (ab.map .artistbrowse))

/-- Source: `spfs_spotify.c`, `spotify_get_artistbrowse_portraits`. -/
def spotify_get_artistbrowse_portraits (t : Thread) (ab : Option ℕ) : LoadProg Unit :=
  get_list t .portraits (.ret (ab.map .artistbrowse))

/-- Source: `spfs_spotify.c`, `spotify_get_playlists`. -/
def spotify_get_playlists (t : Thread) : LoadProg Unit :=
  get_list t .playlists (.of .session_playlistcontainer)

/-- Source: `spfs_spotify.c`, `spotify_get_playlist_tracks`. -/
def spotify_get_playlist_tracks (t : Thread) (playlist : Option ℕ) : LoadProg Unit :=
  get_list t .tracks (.ret (playlist.map .playlist))

/-! ## The spotify thread -/

/-- What happens in a call of `sp_session_process_events`. -/
inductive Event
  /-- Data is loaded. -/
  | load (d : SpData)
  /-- `spotify_metadata_updated` or `spotifile_artistbrowse_complete_cb` is called. -/
  | tell

/-- Source: `spfs_spotify.c`, `spotify_metadata_updated`, `spotifile_artistbrowse_complete_cb`. -/
def Event.prog : Event → LoadProg Unit
  | .load d => .of (.load d)
  | .tell => .of .broadcast

/-- One round of the inner loop.
Source: `spfs_spotify.c`, `spotify_thread_start`. -/
def process_events (t : Thread) (events : List Event) : LoadProg Unit := do
  .of (.lock t)
  Prog.forEach events Event.prog
  .of (.unlock t)

/-- What libspotify has loaded it tells of, before the call of `sp_session_process_events`
returns. -/
def Told (events : List Event) : Prop :=
  ∀ l d l', events = l ++ .load d :: l' → Event.tell ∈ l'

/-! ## The system -/

/-- What a thread does from being idle to being idle again. -/
inductive LoadOp
  | get_track_artists (t : Thread) (track : Option ℕ)
  | get_artistbrowse_albums (t : Thread) (ab : Option ℕ)
  | get_artistbrowse_portraits (t : Thread) (ab : Option ℕ)
  | get_playlists (t : Thread)
  | get_playlist_tracks (t : Thread) (playlist : Option ℕ)
  | round (events : List Event)

/-- The thread of an operation. -/
def LoadOp.thread : LoadOp → Thread
  | .get_track_artists t _ | .get_artistbrowse_albums t _ | .get_artistbrowse_portraits t _
  | .get_playlists t | .get_playlist_tracks t _ => t
  | .round _ => .spotify

/-- Its program. -/
def LoadOp.prog : LoadOp → LoadProg Unit
  | .get_track_artists t track => spotify_get_track_artists t track
  | .get_artistbrowse_albums t ab => spotify_get_artistbrowse_albums t ab
  | .get_artistbrowse_portraits t ab => spotify_get_artistbrowse_portraits t ab
  | .get_playlists t => spotify_get_playlists t
  | .get_playlist_tracks t playlist => spotify_get_playlist_tracks t playlist
  | .round events => process_events .spotify events

/-- The threads of FUSE read lists, the spotify thread processes events. -/
def load_system : System LoadInstr LoadState Thread LoadOp Chance where
  exec := exec
  prog := LoadOp.prog
  may t op _ := op.thread = t ∧ (t = .spotify ↔ op matches .round _)

end Spotifile.Loading
