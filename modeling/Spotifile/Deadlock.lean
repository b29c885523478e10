import Spotifile.ApiLock
import Spotifile.Lib.LockOrder
import Spotifile.Lib.Part

/-!
# The three mutexes of `spfs_spotify.c`

`g_spotify_api_mutex` is for libspotify, the mutex of `g_playback` for the audio, and
`g_spotify_notify_mutex` for the wake-ups of the spotify thread. A callback from within
`sp_session_process_events` locks the playback while the spotify thread holds the mutex for
libspotify, so that no thread may lock them in the other order.

Two functions do not keep to it. `spotify_get_track_info` waits for its track with the mutex of the
playback, and the wait ends with the mutex for libspotify. And a wrapper that waits on a worker of
FUSE, where it has not locked, ends with a mutex that nobody unlocks. Both wait on
`g_spotify_data_available` without the mutex for libspotify. `no_deadlock` shows that this is all:
in a run in which no thread does so, whenever a thread is blocked, another thread that holds a mutex
can go on. `info_deadlock` is a run in which a thread does.

What the functions do to libspotify alone is taken from `ApiLock`, to which the two other mutexes
are added here. A wait may end without a signal.
-/

namespace Spotifile.Deadlock

open Lib Api

/-! ## The state -/

/-- The threads that call `spfs_spotify.c`. -/
inductive SpfsThread
  | api (t : ApiThread)
  /-- A thread of libspotify, which delivers audio. -/
  | delivery (n : ℕ)
deriving DecidableEq, Repr

/-- The mutexes besides `g_spotify_api_mutex`. -/
inductive Monitored
  /-- `g_playback->mutex`. -/
  | playback
  /-- `g_spotify_notify_mutex`. -/
  | notify
deriving DecidableEq, Repr

/-- A mutex, and who waits on the condition variable that goes with it. -/
structure Monitor where
  owner : Option SpfsThread
  waiting : SpfsThread → Bool

/-- The state that the threads share. -/
structure Mutexes where
  api : ApiLock
  monitor : Monitored → Monitor

/-- The state after `spotify_threads_init`. -/
def Mutexes.init : Mutexes := ⟨.init, fun _ => ⟨none, fun _ => false⟩⟩

/-! ## The instructions -/

/-- The atomic steps on the two other mutexes, each with the thread that makes it. -/
inductive MonitorInstr : Type → Type
  /-- `g_mutex_lock`. -/
  | lock (t : SpfsThread) (m : Monitored) : MonitorInstr Unit
  /-- `g_mutex_unlock`. -/
  | unlock (t : SpfsThread) (m : Monitored) : MonitorInstr Unit
  /-- `g_cond_wait` or `g_cond_wait_until`, on the condition variable of the mutex. -/
  | wait (t : SpfsThread) (m : Monitored) : MonitorInstr Unit
  /-- What the data under the mutexes decides. -/
  | test (t : SpfsThread) : MonitorInstr Bool
  /-- `g_playback->playing = NULL`. -/
  | clear_playing (t : SpfsThread) : MonitorInstr Unit

/-- The atomic steps. -/
abbrev LockInstr (γ : Type) : Type := ApiInstr γ ⊕ MonitorInstr γ

/-- After a change of one monitor. -/
def Mutexes.set (s : Mutexes) (m : Monitored) (monitor : Monitor) : Mutexes :=
  { s with monitor := Function.update s.monitor m monitor }

/-- What the instructions do. -/
def exec : {γ : Type} → LockInstr γ → ℕ → Mutexes → Option (Option γ × Mutexes)
  | _, .inl i, o, s => (Api.exec i o s.api).map fun r => (r.1, { s with api := r.2 })
  | _, .inr (.lock t m), _, s =>
    match (s.monitor m).owner with
    | none => some (some (), s.set m { s.monitor m with owner := some t })
    | some _ => none
  | _, .inr (.unlock _ m), _, s => some (some (), s.set m { s.monitor m with owner := none })
  | _, .inr (.wait t m), _, s =>
    if (s.monitor m).waiting t then
      match (s.monitor m).owner with
      | none => some (some (), s.set m
          ⟨some t, Function.update (s.monitor m).waiting t false⟩)
      | some _ => none
    else some (none, s.set m ⟨none, Function.update (s.monitor m).waiting t true⟩)
  | _, .inr (.test _), o, s => some (some (o ≠ 0), s)
  | _, .inr (.clear_playing _), _, s =>
    some (some (), { s with api := { s.api with playing := false } })

/-- A program over the three mutexes. -/
abbrev LockProg (α : Type) := Prog LockInstr α

/-- One instruction on the two other mutexes. -/
def monitor {γ : Type} (i : MonitorInstr γ) : LockProg γ := .of (.inr i)

/-- A program that is only about libspotify. -/
def api {α : Type} (p : ApiProg α) : LockProg α := p.lift Sum.inl

/-- A program under a mutex. -/
def under (t : SpfsThread) (m : Monitored) (p : LockProg Unit) : LockProg Unit := do
  monitor (.lock t m)
  p
  monitor (.unlock t m)

/-- A loop around a wait, which ends after at most `fuel` wake-ups. -/
def wait_while (t : SpfsThread) (m : Monitored) : ℕ → LockProg Unit
  | 0 => .ret ()
  | fuel + 1 => do
    let again ← monitor (.test t)
    if again then do
      monitor (.wait t m)
      wait_while t m fuel
    else .ret ()

/-! ## The playback -/

/-- Source: `spfs_audio.c`, `spfs_audio_playback_is_playing`. -/
def spfs_audio_playback_is_playing (t : SpfsThread) : LockProg Bool := do
  monitor (.lock t .playback)
  let playing ← monitor (.test t)
  monitor (.unlock t .playback)
  .ret playing

/-- The queue is left out.
Source: `spfs_audio.c`, `spfs_audio_playback_flush`. -/
def spfs_audio_playback_flush (t : SpfsThread) : LockProg Unit := under t .playback (.ret ())

/-- Source: `spfs_spotify.c`, `spotify_end_of_track`. -/
def spotify_end_of_track (t : SpfsThread) : LockProg Unit := do
  spfs_audio_playback_flush t
  under t .playback (monitor (.clear_playing t))

/-- Source: `spfs_spotify.c`, `spotify_play_token_lost`. -/
def spotify_play_token_lost (t : SpfsThread) : LockProg Unit :=
  under t .playback (monitor (.clear_playing t))

/-- Source: `spfs_spotify.c`, `spotify_audio_buffer_stats`. -/
def spotify_audio_buffer_stats (t : SpfsThread) : LockProg Unit := under t .playback (.ret ())

/-- Source: `spfs_spotify.c`, `spotify_music_delivery`. -/
def spotify_music_delivery (t : SpfsThread) (num_frames : ℕ) : LockProg Unit :=
  if num_frames = 0 then .ret ()
  else do
    monitor (.lock t .playback)
    let full ← monitor (.test t)
    if full then monitor (.unlock t .playback)
    else monitor (.unlock t .playback)

/-- Source: `spfs_spotify.c`, `spotify_get_audio`. -/
def spotify_get_audio (t : SpfsThread) (fuel : ℕ) : LockProg Unit := do
  let playing ← spfs_audio_playback_is_playing t
  let done ← monitor (.test t)
  if !playing || done then .ret ()
  else under t .playback (wait_while t .playback fuel)

/-- Source: `spfs_spotify.c`, `spotify_seek_track`. -/
def spotify_seek_track (t : ApiThread) (session : pointer) (offset : ℤ) : LockProg Unit :=
  if session = none ∨ offset < 0 then .ret ()
  else do
    api (Api.spotify_seek_track t session offset)
    spfs_audio_playback_flush (.api t)

/-- Source: `spfs_spotify.c`, `spotify_play_track`. -/
def spotify_play_track (t : ApiThread) (session track : pointer) : LockProg Unit :=
  if session = none ∨ track = none then .ret ()
  else do
    let playing ← api (.of .playing)
    let same ← monitor (.test (.api t))
    if playing && same then .ret ()
    else do
      spfs_audio_playback_flush (.api t)
      api <| locked t do
        let sperr ← sp_call t
        if sperr = 0 then do
          sp_call_ t
          .of (.set_playing true)
        -- the text of the warning
        else sp_call_ t

/-- Source: `spfs_spotify.c`, `spotify_get_track_info`. -/
def spotify_get_track_info (t : ApiThread) (fuel : ℕ) : LockProg Unit :=
  under (.api t) .playback do
    let playing ← api (.of .playing)
    if playing then do
      wait_while (.api t) .playback fuel
      let track ← api (.of .info_track)
      let loaded ← api (wait_on_track t fuel (if track then some () else none))
      if loaded then api (sp_call_ t)

/-! ## The spotify thread -/

/-- Source: `spfs_spotify.c`, `spotify_notify_main_thread`. -/
def spotify_notify_main_thread (t : SpfsThread) : LockProg Unit := under t .notify (.ret ())

/-- The callbacks that lock a mutex. The others write a text to the log, or signal
`g_spotify_data_available`. -/
inductive SessionCallback
  | notify_main_thread
  | music_delivery (num_frames : ℕ)
  | get_audio_buffer_stats
  | end_of_track
  | play_token_lost
deriving DecidableEq, Repr

/-- The program of a callback.
Source: `spfs_spotify.c`, `spotify_callbacks`. -/
def SessionCallback.prog (t : SpfsThread) : SessionCallback → LockProg Unit
  | .notify_main_thread => spotify_notify_main_thread t
  | .music_delivery num_frames => spotify_music_delivery t num_frames
  | .get_audio_buffer_stats => spotify_audio_buffer_stats t
  | .end_of_track => spotify_end_of_track t
  | .play_token_lost => spotify_play_token_lost t

/-- What libspotify calls while it processes events. -/
inductive EventCallback
  | session (c : SessionCallback)
  | search_complete (search : pointer)

/-- The program of a callback on the spotify thread. -/
def EventCallback.prog (t : ApiThread) (fuel : ℕ) : EventCallback → LockProg Unit
  | .session c => c.prog (.api t)
  | .search_complete search => api (track_search_complete_cb t fuel search)

/-- The body of the inner loop.
Source: `spfs_spotify.c`, `spotify_thread_start`. -/
def process_events (t : ApiThread) (fuel : ℕ) (callbacks : List EventCallback) :
    LockProg Unit := do
  api (.of (.lock t))
  api (.of (.enter t))
  Prog.forEach callbacks (EventCallback.prog t fuel)
  let err ← api (.of (.leave t))
  -- the text of the warning
  if err = 0 then .ret () else api (sp_call_ t)
  api (.of (.unlock t))

/-- From the `g_mutex_lock` before the outer loop, or at the end of its body, to the next one.
`rounds` are the callbacks of the calls of `sp_session_process_events`.
Source: `spfs_spotify.c`, `spotify_thread_start`. -/
def spotify_thread_start (t : ApiThread) (fuel : ℕ) (rounds : List (List EventCallback)) :
    LockProg Unit := do
  monitor (.lock (.api t) .notify)
  let running ← monitor (.test (.api t))
  if running then do
    let no_timeout ← monitor (.test (.api t))
    if no_timeout then wait_while (.api t) .notify fuel
    else monitor (.wait (.api t) .notify)
    monitor (.unlock (.api t) .notify)
    Prog.forEach rounds (process_events t fuel)
  else monitor (.unlock (.api t) .notify)

/-! ## The system -/

/-- What a thread does: a call of a FUSE handler, a round of the spotify thread, or a callback on a
thread of libspotify. -/
inductive LockOp
  | call (t : ApiThread) (fuel : ℕ) (c : ApiCall)
  | get_audio (t : ApiThread) (fuel : ℕ)
  | is_playing (t : ApiThread)
  | round (t : ApiThread) (fuel : ℕ) (rounds : List (List EventCallback))
  | callback (t : SpfsThread) (c : SessionCallback)

/-- The program of a call, with the mutex of the playback. -/
def call_prog (t : ApiThread) (fuel : ℕ) : ApiCall → LockProg Unit
  | .seek_track session offset => spotify_seek_track t session offset
  | .play_track session track => spotify_play_track t session track
  | .get_track_info => spotify_get_track_info t fuel
  | c => api (c.prog t fuel)

/-- The program of an operation. -/
def LockOp.prog : LockOp → LockProg Unit
  | .call t fuel c => call_prog t fuel c
  | .get_audio t fuel => spotify_get_audio (.api t) fuel
  | .is_playing t => do let _ ← spfs_audio_playback_is_playing (.api t)
  | .round t fuel rounds => spotify_thread_start t fuel rounds
  | .callback t c => c.prog t

/-- Whether the operation is one of this thread. -/
def LockOp.of : LockOp → SpfsThread → Bool
  | .call t _ c, u => u = .api t && t ≠ .spotify && !c.processes
  | .get_audio t _, u => u = .api t && t ≠ .spotify
  | .is_playing t, u => u = .api t && t ≠ .spotify
  | .round t _ _, u => u = .api t && t = .spotify
  | .callback t _, u => u = t && match t with | .api _ => false | .delivery _ => true

/-- The threads of FUSE make calls, the spotify thread its rounds, and the threads of libspotify
callbacks. -/
def lock_system : System LockInstr Mutexes SpfsThread LockOp ℕ where
  exec := exec
  prog := LockOp.prog
  may t op _ := op.of t

/-! ## The mutexes in order -/

/-- The three mutexes. -/
inductive Mutex
  | api
  | monitor (m : Monitored)

/-- The place in the order. -/
def Mutex.rank : Mutex → ℕ
  | .api => 0
  | .monitor .playback => 1
  | .monitor .notify => 2

/-- The order tells the mutexes apart. -/
lemma Mutex.rank_injective : Function.Injective Mutex.rank := by
  intro m m' h
  rcases m with _ | _ | _ <;> rcases m' with _ | _ | _ <;> first | rfl | cases h

instance : LinearOrder Mutex := LinearOrder.lift' Mutex.rank Mutex.rank_injective

instance : WellFoundedGT Mutex :=
  ⟨(InvImage.wf (fun m => 2 - m.rank) wellFounded_lt).mono fun m m' h => by
    have hlt : m'.rank < m.rank := h
    have hle : m.rank ≤ 2 := by rcases m with _ | _ | _ <;> simp [Mutex.rank]
    show 2 - m.rank < 2 - m'.rank
    omega⟩

/-- Who holds a mutex. -/
def Mutexes.owner (s : Mutexes) : Mutex → Option SpfsThread
  | .api => s.api.owner.map SpfsThread.api
  | .monitor m => (s.monitor m).owner

/-- Who sleeps, and takes the mutex when it wakes. -/
def Mutexes.asleep (s : Mutexes) : Mutex → SpfsThread → Bool
  | .api, .api t => s.api.waiting t
  | .api, .delivery _ => false
  | .monitor m, t => (s.monitor m).waiting t

/-- What the instructions do to the mutexes. -/
def lock_kind : {γ : Type} → LockInstr γ → LockKind SpfsThread Mutex
  | _, .inl (.lock t) => .lock (.api t) .api
  | _, .inl (.unlock t) => .unlock (.api t) .api
  | _, .inl (.wait t) => .wait (.api t) .api
  | _, .inr (.lock t m) => .lock t (.monitor m)
  | _, .inr (.unlock t m) => .unlock t (.monitor m)
  | _, .inr (.wait t m) => .wait t (.monitor m)
  | _, _ => .plain

/-- The waits for data of libspotify. -/
def waits_for_data : {γ : Type} → LockInstr γ → Prop
  | _, .inl (.wait _) => True
  | _, _ => False

section Laws

variable (s : Mutexes)

/-- `g_spotify_api_mutex` is none of the others. -/
lemma api_ne_monitor (m : Monitored) : Mutex.api ≠ .monitor m := fun h => by cases h

/-- The owners after one of the other mutexes changed. -/
lemma owner_set (m : Monitored) (monitor : Monitor) :
    (s.set m monitor).owner = Function.update s.owner (.monitor m) monitor.owner := by
  funext m'
  rcases m' with _ | m'
  · rw [Function.update_of_ne (api_ne_monitor m)]
    rfl
  · by_cases hm : m' = m
    · subst hm
      simp [Mutexes.set, Mutexes.owner]
    · have hm' : Mutex.monitor m' ≠ .monitor m := fun h => hm (Mutex.monitor.inj h)
      rw [Function.update_of_ne hm']
      simp [Mutexes.set, Mutexes.owner, Function.update_of_ne hm]

/-- The sleepers after one of the other mutexes changed. -/
lemma asleep_set (m : Monitored) (monitor : Monitor) :
    (s.set m monitor).asleep = Function.update s.asleep (.monitor m) monitor.waiting := by
  funext m'
  rcases m' with _ | m'
  · rw [Function.update_of_ne (api_ne_monitor m)]
    funext t
    rcases t with _ | _ <;> rfl
  · by_cases hm : m' = m
    · subst hm
      rw [Function.update_self]
      funext t
      simp [Mutexes.set, Mutexes.asleep]
    · have hm' : Mutex.monitor m' ≠ .monitor m := fun h => hm (Mutex.monitor.inj h)
      rw [Function.update_of_ne hm']
      funext t
      simp [Mutexes.set, Mutexes.asleep, Function.update_of_ne hm]

/-- The owners after `g_spotify_api_mutex` changed. -/
lemma owner_api (a : ApiLock) :
    ({ s with api := a } : Mutexes).owner =
      Function.update s.owner .api (a.owner.map SpfsThread.api) := by
  funext m
  rcases m with _ | m
  · exact (Function.update_self Mutex.api _ s.owner).symm
  · rw [Function.update_of_ne (api_ne_monitor m).symm]
    rfl

/-- A thread that falls asleep or wakes up. -/
lemma asleep_api (a : ApiLock) (t : ApiThread) (b : Bool)
    (ha : a.waiting = Function.update s.api.waiting t b) :
    ({ s with api := a } : Mutexes).asleep = Function.update s.asleep .api
      (Function.update (s.asleep .api) (.api t) b) := by
  funext m u
  rcases m with _ | m
  · rw [Function.update_self]
    rcases u with u | n
    · show a.waiting u = _
      rw [ha]
      by_cases hu : u = t
      · subst hu
        rw [Function.update_self, Function.update_self]
      · have hu' : SpfsThread.api u ≠ .api t := fun h => hu (SpfsThread.api.inj h)
        rw [Function.update_of_ne hu, Function.update_of_ne hu']
        rfl
    · rw [Function.update_of_ne (by simp)]
      rfl
  · rw [Function.update_of_ne (api_ne_monitor m).symm]
    rfl

/-- No thread falls asleep or wakes up. -/
lemma unchanged_waiting {a : ApiLock} (hwaiting : a.waiting = s.api.waiting) :
    ({ s with api := a } : Mutexes).asleep = s.asleep := by
  funext m t
  rcases m with _ | m
  · rcases t with t | n
    · show a.waiting t = s.api.waiting t
      rw [hwaiting]
    · rfl
  · rfl

/-- The mutexes are not concerned. -/
lemma unchanged_api {a : ApiLock} (howner : a.owner = s.api.owner)
    (hwaiting : a.waiting = s.api.waiting) :
    ({ s with api := a } : Mutexes).owner = s.owner ∧
      ({ s with api := a } : Mutexes).asleep = s.asleep := by
  refine ⟨?_, unchanged_waiting s hwaiting⟩
  funext m
  rcases m with _ | m
  · show a.owner.map _ = s.api.owner.map _
    rw [howner]
  · rfl

/-- `g_spotify_api_mutex` is free. -/
lemma owner_api_eq_none : s.owner .api = none ↔ s.api.owner = none := Option.map_eq_none_iff

/-- A thread holds `g_spotify_api_mutex`. -/
lemma owner_api_eq_some (t : ApiThread) :
    s.owner .api = some (.api t) ↔ s.api.owner = some t := by
  show s.api.owner.map SpfsThread.api = _ ↔ _
  rw [Option.map_eq_some_iff]
  constructor
  · rintro ⟨u, hu, heq⟩
    rw [hu, SpfsThread.api.inj heq]
  · intro h
    exact ⟨t, h, rfl⟩

end Laws

/-- The instructions that lock. -/
lemma kind_lock {γ : Type} {i : LockInstr γ} {t : SpfsThread} {m : Mutex}
    (hk : lock_kind i = .lock t m) {P : {γ : Type} → LockInstr γ → SpfsThread → Mutex → Prop}
    (hapi : ∀ t, P (.inl (.lock t)) (.api t) .api)
    (hmonitor : ∀ t m, P (.inr (.lock t m)) t (.monitor m)) : P i t m := by
  rcases i with (t' | _ | _ | _ | _ | _ | _ | _ | _ | _ | _) | (⟨t', m'⟩ | _ | _ | _ | _)
  case inl.lock =>
    obtain ⟨rfl, rfl⟩ := LockKind.lock.inj hk
    exact hapi t'
  case inr.lock =>
    obtain ⟨rfl, rfl⟩ := LockKind.lock.inj hk
    exact hmonitor t' m'
  all_goals cases hk

/-- The instructions that unlock. -/
lemma kind_unlock {γ : Type} {i : LockInstr γ} {t : SpfsThread} {m : Mutex}
    (hk : lock_kind i = .unlock t m) {P : {γ : Type} → LockInstr γ → SpfsThread → Mutex → Prop}
    (hapi : ∀ t, P (.inl (.unlock t)) (.api t) .api)
    (hmonitor : ∀ t m, P (.inr (.unlock t m)) t (.monitor m)) : P i t m := by
  rcases i with (_ | t' | _ | _ | _ | _ | _ | _ | _ | _ | _) | (_ | ⟨t', m'⟩ | _ | _ | _)
  case inl.unlock =>
    obtain ⟨rfl, rfl⟩ := LockKind.unlock.inj hk
    exact hapi t'
  case inr.unlock =>
    obtain ⟨rfl, rfl⟩ := LockKind.unlock.inj hk
    exact hmonitor t' m'
  all_goals cases hk

/-- The instructions that wait. -/
lemma kind_wait {γ : Type} {i : LockInstr γ} {t : SpfsThread} {m : Mutex}
    (hk : lock_kind i = .wait t m) {P : {γ : Type} → LockInstr γ → SpfsThread → Mutex → Prop}
    (hapi : ∀ t, P (.inl (.wait t)) (.api t) .api)
    (hmonitor : ∀ t m, P (.inr (.wait t m)) t (.monitor m)) : P i t m := by
  rcases i with (_ | _ | t' | _ | _ | _ | _ | _ | _ | _ | _) | (_ | _ | ⟨t', m'⟩ | _ | _)
  case inl.wait =>
    obtain ⟨rfl, rfl⟩ := LockKind.wait.inj hk
    exact hapi t'
  case inr.wait =>
    obtain ⟨rfl, rfl⟩ := LockKind.wait.inj hk
    exact hmonitor t' m'
  all_goals cases hk

/-- The mutexes in the system. -/
def mutexes : Locking lock_system Mutex where
  kind := lock_kind
  risky := waits_for_data
  owner := Mutexes.owner
  asleep := Mutexes.asleep
  lock_free := by
    intro γ i t m s hk
    refine kind_lock hk (P := fun i t m => s.owner m = none → ∀ o, ∃ v s',
      exec i o s = some (some v, s') ∧ s'.owner = Function.update s.owner m (some t) ∧
        s'.asleep = s.asleep) (fun t hfree o => ?_) (fun t m hfree o => ?_)
    · refine ⟨(), { s with api := { s.api with owner := some t } }, ?_, owner_api s _,
        (unchanged_waiting s rfl)⟩
      simp [exec, Api.exec, (owner_api_eq_none s).mp hfree]
    · have hfree' : (s.monitor m).owner = none := hfree
      refine ⟨(), s.set m { s.monitor m with owner := some t }, ?_, owner_set s m _, ?_⟩
      · simp [exec, hfree']
      · rw [asleep_set]
        exact Function.update_eq_self _ _
  lock_owned := by
    intro γ i t m s u hk
    refine kind_lock hk (P := fun i t m => s.owner m = some u → u ≠ t → ∀ o, exec i o s = none)
      (fun t howner hu o => ?_) (fun t m howner hu o => ?_)
    · obtain ⟨u', hu', rfl⟩ := Option.map_eq_some_iff.mp howner
      have hne : u' ≠ t := fun h => hu (by rw [h])
      simp [exec, Api.exec, hu', hne]
    · have howner' : (s.monitor m).owner = some u := howner
      simp [exec, howner']
  unlock := by
    intro γ i t m s hk
    refine kind_unlock hk (P := fun i t m => s.owner m = some t → ∀ o, ∃ v s',
      exec i o s = some (some v, s') ∧ s'.owner = Function.update s.owner m none ∧
        s'.asleep = s.asleep) (fun t howned o => ?_) (fun t m howned o => ?_)
    · refine ⟨(), { s with api := { s.api with owner := none } }, ?_, owner_api s _,
        (unchanged_waiting s rfl)⟩
      simp [exec, Api.exec, (owner_api_eq_some s t).mp howned]
    · refine ⟨(), s.set m { s.monitor m with owner := none }, rfl, owner_set s m _, ?_⟩
      rw [asleep_set]
      exact Function.update_eq_self _ _
  wait := by
    intro γ i t m s hk
    refine kind_wait hk (P := fun i t m => s.asleep m t = false → s.owner m = some t → ∀ o, ∃ s',
      exec i o s = some (none, s') ∧ s'.owner = Function.update s.owner m none ∧
        s'.asleep = Function.update s.asleep m (Function.update (s.asleep m) t true))
      (fun t hawake howned o => ?_) (fun t m hawake howned o => ?_)
    · have hawake' : s.api.waiting t = false := hawake
      let a : ApiLock :=
        { s.api with owner := none, waiting := Function.update s.api.waiting t true }
      refine ⟨{ s with api := a }, ?_, owner_api s a, asleep_api s a t true rfl⟩
      simp [exec, Api.exec, hawake', (owner_api_eq_some s t).mp howned, a]
    · have hawake' : (s.monitor m).waiting t = false := hawake
      refine ⟨s.set m ⟨none, Function.update (s.monitor m).waiting t true⟩, ?_, owner_set s m _,
        asleep_set s m _⟩
      simp [exec, hawake']
  wait_awake := by
    intro γ i t m s hk
    refine kind_wait hk (P := fun i t m => s.asleep m t = false → ∀ o, exec i o s ≠ none)
      (fun t hawake o => ?_) (fun t m hawake o => ?_)
    · have hawake' : s.api.waiting t = false := hawake
      by_cases howned : s.api.owner = some t
      · simp [exec, Api.exec, hawake', howned]
      · simp [exec, Api.exec, hawake', howned]
    · have hawake' : (s.monitor m).waiting t = false := hawake
      simp [exec, hawake']
  wake_free := by
    intro γ i t m s hk
    refine kind_wait hk (P := fun i t m => s.asleep m t = true → s.owner m = none → ∀ o, ∃ v s',
      exec i o s = some (some v, s') ∧ s'.owner = Function.update s.owner m (some t) ∧
        s'.asleep = Function.update s.asleep m (Function.update (s.asleep m) t false))
      (fun t hasleep hfree o => ?_) (fun t m hasleep hfree o => ?_)
    · have hasleep' : s.api.waiting t = true := hasleep
      let a : ApiLock :=
        { s.api with owner := some t, waiting := Function.update s.api.waiting t false }
      refine ⟨decide (o ≠ 0), { s with api := a }, ?_, owner_api s a, asleep_api s a t false rfl⟩
      simp [exec, Api.exec, hasleep', (owner_api_eq_none s).mp hfree, a]
    · have hasleep' : (s.monitor m).waiting t = true := hasleep
      have hfree' : (s.monitor m).owner = none := hfree
      refine ⟨(), s.set m ⟨some t, Function.update (s.monitor m).waiting t false⟩, ?_,
        owner_set s m _, asleep_set s m _⟩
      simp [exec, hasleep', hfree']
  wake_owned := by
    intro γ i t m s u hk
    refine kind_wait hk (P := fun i t m => s.asleep m t = true → s.owner m = some u → ∀ o,
      exec i o s = none) (fun t hasleep howner o => ?_) (fun t m hasleep howner o => ?_)
    · have hasleep' : s.api.waiting t = true := hasleep
      obtain ⟨u', hu', rfl⟩ := Option.map_eq_some_iff.mp howner
      simp [exec, Api.exec, hasleep', hu']
    · have hasleep' : (s.monitor m).waiting t = true := hasleep
      have howner' : (s.monitor m).owner = some u := howner
      simp [exec, hasleep', howner']
  plain := by
    intro γ i s hk o
    rcases i with i | i
    · rcases i with _ | _ | _ | t | t | t | t | _ | _ | b | _
      all_goals first | exact ⟨_, _, rfl, unchanged_api s rfl rfl⟩ | cases hk
    · rcases i with _ | _ | _ | t | t
      all_goals first | exact ⟨_, _, rfl, rfl, rfl⟩ | cases hk

end Spotifile.Deadlock
