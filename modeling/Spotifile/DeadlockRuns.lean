import Spotifile.ApiRules
import Spotifile.Deadlock

/-!
# No deadlock but by a wait without the mutex

Every function of `spfs_spotify.c` locks in order, apart from the waits for data of libspotify, of
which nothing is known from the program: they are at their place where the thread has locked
`g_spotify_api_mutex`, and nothing else. From this `no_deadlock` follows, for any number of threads,
any order of their steps, and whatever libspotify answers.
-/

namespace Spotifile.Deadlock

open Lib Api Locking

variable {t : ApiThread} {u : SpfsThread} {H : Set Mutex} {α β : Type}

/-! ## Programs about libspotify -/

/-- The program locks in order, and the thread holds the same at the end. -/
abbrev Keeps (t : ApiThread) (H : Set Mutex) (p : ApiProg α) : Prop :=
  mutexes.Ordered (.api t) H (api p) H

/-- One program after the other. -/
lemma ordered_api_bind {H' H'' : Set Mutex} {p : ApiProg α} {q : α → ApiProg β}
    (hp : mutexes.Ordered u H' (api p) H) (hq : ∀ a, mutexes.Ordered u H'' (api (q a)) H') :
    mutexes.Ordered u H'' (api (p >>= q)) H := by
  show mutexes.Ordered u H'' ((p >>= q).lift Sum.inl) H
  rw [Prog.lift_bind]
  exact ordered_bind hp hq

/-- An instruction that concerns no mutex. -/
lemma keeps_plain {γ : Type} {i : ApiInstr γ} (hi : lock_kind (.inl i) = .plain) :
    Keeps t H (.of i) :=
  ordered_plain (L := mutexes) (t := .api t) (H := H) (i := .inl i) hi

/-- A wait may come at any place: of those that are not at their place nothing is demanded. -/
lemma keeps_wait : Keeps t H (.of (.wait t)) :=
  ordered_wait (L := mutexes) (t := .api t) (i := .inl (.wait t)) (m := .api) rfl (.inr trivial)

/-- A thread that holds nothing locks the mutex for libspotify. -/
lemma ordered_api_lock : mutexes.Ordered (.api t) {.api} (api (.of (.lock t))) ∅ := by
  rw [← insert_empty_eq]
  exact ordered_lock (L := mutexes) (i := .inl (.lock t)) rfl (by simp)

/-- It unlocks the mutex, and holds nothing again. -/
lemma ordered_api_unlock : mutexes.Ordered (.api t) ∅ (api (.of (.unlock t))) {.api} := by
  rw [← insert_empty_eq]
  exact ordered_unlock (L := mutexes) (i := .inl (.unlock t)) rfl (by simp)

/-- The rules for the programs of a thread, by what it holds: it locks the mutex for libspotify
where it holds nothing. -/
def order_rules (t : ApiThread) : ApiRules t (Set Mutex) where
  R H H' p := mutexes.Ordered (.api t) H' (api p) H
  free H := H = ∅
  holds _ := True
  held _ := {.api}
  entered H := H
  ret _ a := ordered_ret a
  bind := ordered_api_bind
  asks _ hi := by
    refine keeps_plain ?_
    rename_i i _
    cases i <;> first | rfl | exact hi.elim
  sp_call _ := ordered_api_bind (keeps_plain rfl) fun _ => keeps_plain rfl
  wait _ := keeps_wait
  lock := by
    rintro _ rfl
    exact ordered_api_lock
  unlock := by
    rintro _ rfl
    exact ordered_api_unlock
  holds_held _ := trivial
  enter_wrapper _ := keeps_plain rfl
  leave_wrapper _ := keeps_plain rfl
  free_entered hk := hk
  holds_entered hk := hk

/-- The calls that have nothing to do with the playback. -/
lemma keeps_call (fuel : ℕ) (c : ApiCall) (hprocesses : c.processes = false)
    (hinfo : c ≠ .get_track_info) : Keeps t ∅ (c.prog t fuel) :=
  (order_rules t).keeps_call rfl hprocesses hinfo
    (fun _ _ _ => ⟨fun _ => rfl, fun _ => trivial⟩) fuel

/-- A call of libspotify. -/
lemma keeps_sp_call_ : Keeps t H (sp_call_ t) := (order_rules t).keeps_sp_call_ trivial

/-! ## Programs with the other mutexes -/

/-- `g_spotify_api_mutex` comes before the other mutexes. -/
lemma api_lt_monitor (m : Monitored) : Mutex.api < .monitor m := by
  show Mutex.rank .api < Mutex.rank (.monitor m)
  rcases m with _ | _
  · exact Nat.zero_lt_one
  · exact Nat.zero_lt_two

/-- The thread holds the mutex for libspotify, or nothing. -/
abbrev AtMostApi (H : Set Mutex) : Prop := H ⊆ {.api}

/-- With no other mutex than that one any of the others may be locked. -/
lemma AtMostApi.lt (hH : AtMostApi H) (m : Monitored) : ∀ m' ∈ H, m' < .monitor m := by
  intro m' hm'
  rw [Set.mem_singleton_iff.mp (hH hm')]
  exact api_lt_monitor m

/-- None of the others is held then. -/
lemma AtMostApi.notMem (hH : AtMostApi H) (m : Monitored) : Mutex.monitor m ∉ H :=
  fun hm => lt_irrefl _ (hH.lt m _ hm)

/-- Whoever holds none holds no other. -/
lemma atMostApi_empty : AtMostApi ∅ := Set.empty_subset _

/-- Both branches lock in order. -/
lemma ordered_ite {c : Prop} [Decidable c] {H' : Set Mutex} {p q : LockProg α}
    (hp : mutexes.Ordered u H' p H) (hq : mutexes.Ordered u H' q H) :
    mutexes.Ordered u H' (if c then p else q) H := by
  split
  · exact hp
  · exact hq

/-- An instruction that does not lock. -/
lemma ordered_monitor {γ : Type} {i : MonitorInstr γ} (hi : lock_kind (.inr i) = .plain) :
    mutexes.Ordered u H (monitor i) H :=
  ordered_plain (L := mutexes) (i := .inr i) hi

/-- One of the other mutexes is locked. -/
lemma ordered_monitor_lock (hH : AtMostApi H) (m : Monitored) :
    mutexes.Ordered u (insert (.monitor m) H) (monitor (.lock u m)) H :=
  ordered_lock (L := mutexes) (i := .inr (.lock u m)) rfl (hH.lt m)

/-- It is unlocked. -/
lemma ordered_monitor_unlock (hH : AtMostApi H) (m : Monitored) :
    mutexes.Ordered u H (monitor (.unlock u m)) (insert (.monitor m) H) :=
  ordered_unlock (L := mutexes) (i := .inr (.unlock u m)) rfl (hH.notMem m)

/-- It is given up in a wait. -/
lemma ordered_monitor_wait (m : Monitored) :
    mutexes.Ordered u (insert (.monitor m) ∅) (monitor (.wait u m)) (insert (.monitor m) ∅) :=
  ordered_wait (L := mutexes) (i := .inr (.wait u m)) rfl (.inl (insert_empty_eq _))

/-- What runs under one of the other mutexes. -/
lemma ordered_under (hH : AtMostApi H) {m : Monitored} {p : LockProg Unit}
    (hp : mutexes.Ordered u (insert (.monitor m) H) p (insert (.monitor m) H)) :
    mutexes.Ordered u H (under u m p) H :=
  ordered_bind (ordered_monitor_lock hH m) fun _ => ordered_bind hp fun _ =>
    ordered_monitor_unlock hH m

/-- A loop around a wait, in a thread that holds nothing else. -/
lemma ordered_wait_while (m : Monitored) (fuel : ℕ) :
    mutexes.Ordered u (insert (.monitor m) ∅) (wait_while u m fuel) (insert (.monitor m) ∅) := by
  induction fuel with
  | zero => exact ordered_ret ()
  | succ fuel ih =>
    refine ordered_bind (ordered_monitor rfl) fun again => ordered_ite ?_ (ordered_ret ())
    exact ordered_bind (ordered_monitor_wait m) fun _ => ih

/-- A flush locks the playback's mutex only. -/
lemma ordered_flush (hH : AtMostApi H) :
    mutexes.Ordered u H (spfs_audio_playback_flush u) H := ordered_under hH (ordered_ret ())

/-- So does the test whether a track is playing. -/
lemma ordered_is_playing :
    mutexes.Ordered u ∅ (spfs_audio_playback_is_playing u) ∅ :=
  ordered_bind (ordered_monitor_lock atMostApi_empty .playback) fun _ =>
    ordered_bind (ordered_monitor rfl) fun playing =>
      ordered_bind (ordered_monitor_unlock atMostApi_empty .playback) fun _ => ordered_ret playing

/-- So does a read of audio, also while it waits. -/
lemma ordered_get_audio (fuel : ℕ) : mutexes.Ordered u ∅ (spotify_get_audio u fuel) ∅ := by
  refine ordered_bind ordered_is_playing fun playing => ?_
  refine ordered_bind (ordered_monitor rfl) fun done => ?_
  exact ordered_ite (ordered_ret ()) (ordered_under atMostApi_empty (ordered_wait_while _ fuel))

/-- A seek locks in order. -/
lemma ordered_seek_track (session : pointer) (offset : ℤ) :
    mutexes.Ordered (.api t) ∅ (spotify_seek_track t session offset) ∅ := by
  refine ordered_ite (ordered_ret ()) ?_
  refine ordered_bind (keeps_call 0 (.seek_track session offset) rfl nofun) fun _ => ?_
  exact ordered_flush atMostApi_empty

/-- So does the start of a track. -/
lemma ordered_play_track (session track : pointer) :
    mutexes.Ordered (.api t) ∅ (spotify_play_track t session track) ∅ := by
  refine ordered_ite (ordered_ret ()) (ordered_bind (keeps_plain rfl) fun playing => ?_)
  refine ordered_bind (ordered_monitor rfl) fun same => ordered_ite (ordered_ret ()) ?_
  refine ordered_bind (ordered_flush atMostApi_empty) fun _ => (order_rules t).keeps_locked rfl ?_
  refine (order_rules t).bind ((order_rules t).sp_call trivial) fun sperr => ?_
  refine (order_rules t).keeps_ite ?_ ((order_rules t).keeps_sp_call_ trivial)
  refine (order_rules t).bind ((order_rules t).keeps_sp_call_ trivial) fun _ => ?_
  exact (order_rules t).asks _ trivial

/-- The wait for the queue is at its place; of the wait for the track nothing is known. -/
lemma ordered_get_track_info (fuel : ℕ) :
    mutexes.Ordered (.api t) ∅ (spotify_get_track_info t fuel) ∅ := by
  refine ordered_under atMostApi_empty (ordered_bind (keeps_plain rfl) fun playing => ?_)
  refine ordered_ite (ordered_bind (ordered_wait_while _ fuel) fun _ => ?_) (ordered_ret ())
  refine ordered_bind (keeps_plain rfl) fun track => ?_
  refine ordered_bind ((order_rules t).keeps_wait_on trivial true fuel _) fun loaded => ?_
  exact ordered_ite keeps_sp_call_ (ordered_ret ())

/-- A callback, on a thread that holds at most the mutex for libspotify. -/
lemma ordered_callback (hH : AtMostApi H) (c : SessionCallback) :
    mutexes.Ordered u H (c.prog u) H := by
  have hclear : mutexes.Ordered u H (under u .playback (monitor (.clear_playing u))) H :=
    ordered_under hH (ordered_monitor rfl)
  cases c with
  | notify_main_thread => exact ordered_under hH (ordered_ret ())
  | music_delivery num_frames =>
    refine ordered_ite (ordered_ret ()) (ordered_bind (ordered_monitor_lock hH _) fun _ => ?_)
    refine ordered_bind (ordered_monitor rfl) fun full => ?_
    exact ordered_ite (ordered_monitor_unlock hH _) (ordered_monitor_unlock hH _)
  | get_audio_buffer_stats => exact ordered_under hH (ordered_ret ())
  | end_of_track => exact ordered_bind (ordered_flush hH) fun _ => hclear
  | play_token_lost => exact hclear

/-- So do the callbacks while events are processed. -/
lemma ordered_process_events (ht : t ≠ g_fuse_thread) (fuel : ℕ)
    (callbacks : List EventCallback) :
    mutexes.Ordered (.api t) ∅ (process_events t fuel callbacks) ∅ := by
  refine ordered_bind ordered_api_lock fun _ => ordered_bind (keeps_plain rfl) fun _ => ?_
  refine ordered_bind (ordered_forEach fun c => ?_) fun _ => ?_
  · cases c with
    | session c => exact ordered_callback (le_refl _) c
    | search_complete search =>
      exact (order_rules t).keeps_callback ht trivial fuel (.search_complete search)
  · refine ordered_bind (keeps_plain rfl) fun err => ordered_ite ?_ ?_
    · exact ordered_bind (ordered_ret ()) fun _ => ordered_api_unlock
    · exact ordered_bind keeps_sp_call_ fun _ => ordered_api_unlock

/-- So does the spotify thread. -/
lemma ordered_thread_start (ht : t ≠ g_fuse_thread) (fuel : ℕ)
    (rounds : List (List EventCallback)) :
    mutexes.Ordered (.api t) ∅ (spotify_thread_start t fuel rounds) ∅ := by
  have hunlock := ordered_monitor_unlock (u := .api t) atMostApi_empty .notify
  refine ordered_bind (ordered_monitor_lock atMostApi_empty _) fun _ => ?_
  refine ordered_bind (ordered_monitor rfl) fun running => ordered_ite ?_ hunlock
  have hrounds := ordered_bind hunlock fun _ => ordered_forEach (l := rounds) fun callbacks =>
    ordered_process_events ht fuel callbacks
  refine ordered_bind (ordered_monitor rfl) fun no_timeout => ordered_ite ?_ ?_
  · exact ordered_bind (ordered_wait_while _ fuel) fun _ => hrounds
  · exact ordered_bind (ordered_monitor_wait _) fun _ => hrounds

/-! ## The result -/

/-- Every operation locks in order. -/
lemma ordered_prog {op : LockOp} (hop : op.of u = true) : mutexes.Ordered u ∅ op.prog ∅ := by
  cases op with
  | call t fuel c =>
    simp only [LockOp.of, Bool.and_eq_true, decide_eq_true_eq, Bool.not_eq_true'] at hop
    obtain ⟨⟨rfl, -⟩, hprocesses⟩ := hop
    have hplain : c ≠ .get_track_info → Keeps t ∅ (c.prog t fuel) :=
      keeps_call fuel c hprocesses
    cases c with
    | seek_track session offset => exact ordered_seek_track session offset
    | play_track session track => exact ordered_play_track session track
    | get_track_info => exact ordered_get_track_info fuel
    | _ => exact hplain fun h => by cases h
  | get_audio t fuel =>
    simp only [LockOp.of, Bool.and_eq_true, decide_eq_true_eq] at hop
    obtain ⟨rfl, -⟩ := hop
    exact ordered_get_audio fuel
  | is_playing t =>
    simp only [LockOp.of, Bool.and_eq_true, decide_eq_true_eq] at hop
    obtain ⟨rfl, -⟩ := hop
    exact ordered_bind ordered_is_playing fun _ => ordered_ret ()
  | round t fuel rounds =>
    simp only [LockOp.of, Bool.and_eq_true, decide_eq_true_eq] at hop
    obtain ⟨rfl, rfl⟩ := hop
    exact ordered_thread_start (by decide) fuel rounds
  | callback t c =>
    simp only [LockOp.of, Bool.and_eq_true, decide_eq_true_eq] at hop
    obtain ⟨rfl, -⟩ := hop
    exact ordered_callback atMostApi_empty c

/-- A thread waits for data of libspotify only with the mutex for libspotify, and with no other. -/
def WaitsWell : {γ : Type} → LockInstr γ → Mutexes → Prop
  | _, .inl (.wait t), s => s.api.waiting t = false →
      s.api.owner = some t ∧ ∀ m, (s.monitor m).owner ≠ some (.api t)
  | _, _, _ => True

/-- A thread that waits well holds nothing else. -/
lemma waitsAlone_of_waitsWell {γ : Type} {i : LockInstr γ} {s : Mutexes} (h : WaitsWell i s) :
    mutexes.WaitsAlone i s := by
  intro u m hkind hrisky hawake
  rcases i with (_ | _ | t | _ | _ | _ | _ | _ | _ | _ | _) | _
  case inl.wait =>
    obtain ⟨rfl, rfl⟩ := LockKind.wait.inj hkind
    obtain ⟨howner, hothers⟩ := h hawake
    intro m'
    rcases m' with _ | m'
    · exact iff_of_true ((owner_api_eq_some s t).mpr howner) rfl
    · exact iff_of_false (hothers m') (api_ne_monitor m').symm
  all_goals exact hrisky.elim

/-- In every run in which threads wait for data of libspotify only with `g_spotify_api_mutex`, and
with no other mutex, there is no deadlock: whenever a thread is blocked, another thread that holds a
mutex can execute its next step. -/
theorem no_deadlock {l : List (World LockInstr Mutexes SpfsThread × Action SpfsThread LockOp ℕ)}
    {w : World LockInstr Mutexes SpfsThread}
    (hl : Trace lock_system (World.idle .init) l w)
    (hok : ∀ p ∈ l, p.1.Executes WaitsWell p.2) {t : SpfsThread} {γ : Type} {i : LockInstr γ}
    {k : γ → LockProg Unit} (hp : w.prog t = .call i k) {o : ℕ}
    (hblocked : exec i o w.shared = none) :
    ∃ u ≠ t, (∃ m, w.shared.owner m = some u) ∧
      ∀ o, ∃ w', lock_system.step w (.step u o) = some w' := by
  have hinit : ∀ t, mutexes.Stands (World.idle .init : World LockInstr Mutexes SpfsThread) t := by
    intro t
    refine .awake ∅ (ordered_ret ()) (fun m => ?_) fun m => iff_of_false ?_ (Set.notMem_empty m)
    · rcases m with _ | m
      · rcases t with t | n <;> rfl
      · rfl
    · rcases m with _ | m
      · exact nofun
      · exact nofun
  have hstands := stands (L := mutexes) lock_system (fun u op _ hop => ordered_prog hop) hl hinit
    fun p hp => World.executes_iff.mpr fun t o γ i k ha hprog =>
      waitsAlone_of_waitsWell (World.executes_iff.mp (hok p hp) t o γ i k ha hprog)
  exact exists_unblocked (L := mutexes) hstands hp hblocked

/-! ## Runs -/

/-- What it means to wait well for libspotify. -/
lemma waitsWell_wait_iff {t : ApiThread} {s : Mutexes} :
    WaitsWell (.inl (.wait t)) s ↔ (s.api.waiting t = false → s.api.owner = some t ∧
      (s.monitor .playback).owner ≠ some (.api t) ∧
      (s.monitor .notify).owner ≠ some (.api t)) := by
  refine forall_congr' fun _ => and_congr_right fun _ => ?_
  constructor
  · intro h
    exact ⟨h .playback, h .notify⟩
  · rintro ⟨hplayback, hnotify⟩ m
    rcases m with _ | _
    · exact hplayback
    · exact hnotify

instance {γ : Type} (i : LockInstr γ) (s : Mutexes) : Decidable (WaitsWell i s) := by
  induction i using Sum.casesOn with
  | inl i =>
    induction i using ApiInstr.casesOn with
    | wait _ => exact decidable_of_iff _ waitsWell_wait_iff.symm
    | _ => exact .isTrue trivial
  | inr i => exact .isTrue trivial

/-- Thread `t` starts an operation and executes one instruction for each choice. -/
def lock_run (t : SpfsThread) (op : LockOp) (choices : List ℕ) :
    List (Action SpfsThread LockOp ℕ) :=
  .start t op :: choices.map (.step t)

/-- What the next instruction of the thread does to the mutexes. -/
def next_kind (w : World LockInstr Mutexes SpfsThread) (t : SpfsThread) :
    Option (LockKind SpfsThread Mutex) :=
  match w.prog t with
  | .ret _ => none
  | .call i _ => some (lock_kind i)

section Blocked

variable {w : World LockInstr Mutexes SpfsThread} {v v' : SpfsThread} {m : Mutex}

/-- A thread with a next instruction has not ended. -/
lemma exists_call {k : LockKind SpfsThread Mutex} (h : next_kind w v = some k) :
    ∃ (γ : Type) (i : LockInstr γ) (q : γ → LockProg Unit), w.prog v = .call i q ∧
      lock_kind i = k := by
  rcases hp : w.prog v with a | ⟨i, q⟩
  · simp [next_kind, hp] at h
  · exact ⟨_, i, q, rfl, by simpa [next_kind, hp] using h⟩

/-- A thread whose instruction is blocked cannot step. -/
lemma step_eq_none {γ : Type} {i : LockInstr γ} {q : γ → LockProg Unit} {o : ℕ}
    (hp : w.prog v = .call i q) (he : exec i o w.shared = none) :
    lock_system.step w (.step v o) = none := by
  have he' : lock_system.exec i o w.shared = none := he
  simp [System.step, hp, he']

/-- A thread that is to lock what another thread holds. -/
lemma blocked_lock (h : next_kind w v = some (.lock v m)) (howner : w.shared.owner m = some v')
    (hne : v' ≠ v) (o : ℕ) : lock_system.step w (.step v o) = none := by
  obtain ⟨γ, i, q, hp, hkind⟩ := exists_call h
  exact step_eq_none hp (mutexes.lock_owned hkind howner hne o)

/-- A thread that sleeps, and is to lock what another thread holds. -/
lemma blocked_wake (h : next_kind w v = some (.wait v m)) (hasleep : w.shared.asleep m v = true)
    (howner : w.shared.owner m = some v') (o : ℕ) : lock_system.step w (.step v o) = none := by
  obtain ⟨γ, i, q, hp, hkind⟩ := exists_call h
  exact step_eq_none hp (mutexes.wake_owned hkind hasleep howner o)

end Blocked

set_option maxRecDepth 100000 in
/-- The theorem where audio is to be delivered while a handler reads whether a track is playing. -/
theorem no_deadlock_delivery : ∃ l w, Trace lock_system (World.idle .init) l w ∧
    next_kind w (.delivery 0) = some (.lock (.delivery 0) (.monitor .playback)) ∧
    ∃ u ≠ SpfsThread.delivery 0, (∃ m, w.shared.owner m = some u) ∧
      ∀ o, ∃ w', lock_system.step w (.step u o) = some w' := by
  obtain ⟨l, w, hl, hok, hnext, howner⟩ := Trace.exists_of_run lock_system
    (fun w a => w.Executes WaitsWell a) (World.idle .init)
    (lock_run (.api .init) (.is_playing .init) [0] ++
      lock_run (.delivery 0) (.callback (.delivery 0) (.music_delivery 1)) [])
    (fun w => next_kind w (.delivery 0) = some (.lock (.delivery 0) (.monitor .playback)) ∧
      w.shared.owner (.monitor .playback) = some (.api .init)) (by decide +kernel)
  obtain ⟨γ, i, q, hp, hkind⟩ := exists_call hnext
  have hblocked : exec i 0 w.shared = none :=
    mutexes.lock_owned hkind howner (by decide) 0
  exact ⟨l, w, hl, hnext, no_deadlock hl hok hp hblocked⟩

set_option maxRecDepth 100000 in
/-- A track is playing that has not loaded. `spotify_get_track_info` waits for it with the mutex of
the playback; then the spotify thread processes the end of the track. Each now needs what the other
one holds. -/
theorem info_deadlock : ∃ l w, Trace lock_system (World.idle .init) l w ∧
    (∃ m u, w.shared.owner m = some u) ∧
      ∀ m u, w.shared.owner m = some u → ∀ o, lock_system.step w (.step u o) = none := by
  obtain ⟨l, w, hl, -, hinit, hasleep, hspotify, hapi, hplayback, hnotify⟩ :=
    Trace.exists_of_run lock_system (fun _ _ => True) (World.idle .init)
      (lock_run (.api .init) (.call .init 1 (.play_track (some ()) (some ())))
        [0, 0, 0, 0, 0, 0, 0, 0, 0, 0, 0] ++
      lock_run (.api .init) (.call .init 1 .get_track_info) [0, 0, 0, 0, 0, 0, 0] ++
      lock_run (.api .spotify) (.round .spotify 1 [[.session .end_of_track]])
        [0, 1, 0, 0, 0, 0, 0, 0])
      (fun w => next_kind w (.api .init) = some (.wait (.api .init) .api) ∧
        w.shared.asleep .api (.api .init) = true ∧
        next_kind w (.api .spotify) = some (.lock (.api .spotify) (.monitor .playback)) ∧
        w.shared.owner .api = some (.api .spotify) ∧
        w.shared.owner (.monitor .playback) = some (.api .init) ∧
        w.shared.owner (.monitor .notify) = none) (by decide +kernel)
  refine ⟨l, w, hl, ⟨_, _, hapi⟩, fun m u howner o => ?_⟩
  rcases m with _ | _ | _
  · obtain rfl := Option.some.inj (hapi.symm.trans howner)
    exact blocked_lock hspotify hplayback (by decide) o
  · obtain rfl := Option.some.inj (hplayback.symm.trans howner)
    exact blocked_wake hinit hasleep hapi o
  · rw [hnotify] at howner
    cases howner

end Spotifile.Deadlock
