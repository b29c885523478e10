import Mathlib.Data.Int.Notation
import Mathlib.Logic.Relation
import Mathlib.Tactic.Common

/-!
# The wake-ups of the spotify thread

`spotify_thread_start` sleeps on `g_spotify_notify_cond` until libspotify has something to do, or
until a time that libspotify asked for. The first wait tests `g_main_thread_do_notify` before the
thread sleeps; the others, which have a deadline, do not. A notification that comes while the thread
processes events is then slept over. `spotify_threads_destroy` clears `g_running` without a signal,
so that it joins a thread that is still in the first wait, and that nobody wakes.

`right_of_runs` says that nothing else goes wrong: in a run whose steps are `Timely`, the thread
never goes to sleep notified, and is not left in its first wait. `not_right_of_untimely` says that
no such step can be allowed.

A critical section of `g_spotify_notify_mutex` is one step. The thread may wake without a signal,
and the deadline of a wait may pass at any time.
-/

namespace Spotifile.Notify

open Relation

/-! ## The source -/

/-- Where the spotify thread is. -/
inductive Point
  /-- Before a `g_mutex_lock`, with its `event_timeout`. -/
  | lock (event_timeout : ℤ)
  /-- In the `g_cond_wait`, with a wake-up pending or not. -/
  | wait (woken : Bool)
  /-- In the `g_cond_wait_until`. -/
  | wait_until
  /-- In the loop around `sp_session_process_events`, without the mutex. -/
  | process_events
  | ended
deriving DecidableEq, Repr

/-- What the threads share, and where the spotify thread is. -/
structure Threads where
  g_running : Bool
  g_main_thread_do_notify : Bool
  point : Point
deriving DecidableEq, Repr

/-- The flag is that of a program that was just started.
Source: `spfs_spotify.c`, `spotify_threads_init`. -/
def spotify_threads_init : Threads := ⟨true, false, .lock 0⟩

/-- Source: `spfs_spotify.c`, `spotify_notify_main_thread`. -/
def spotify_notify_main_thread (n : Threads) : Threads :=
  { n with
    g_main_thread_do_notify := true
    point := match n.point with
      | .wait _ => .wait true
      | point => point }

/-- Up to the `g_thread_join`.
Source: `spfs_spotify.c`, `spotify_threads_destroy`. -/
def spotify_threads_destroy (n : Threads) : Threads := { n with g_running := false }

/-- From the end of a wait to the unlock.
Source: `spfs_spotify.c`, `spotify_thread_start`. -/
def Threads.taken (n : Threads) : Threads :=
  { n with g_main_thread_do_notify := false, point := .process_events }

/-- From the test of the inner loop to where the mutex is given up.
Source: `spfs_spotify.c`, `spotify_thread_start`. -/
def Threads.wait_notified (n : Threads) : Threads :=
  if n.g_main_thread_do_notify then n.taken else { n with point := .wait false }

/-- One step of the thread. `event_timeout` is what a call of `sp_session_process_events` sets. A
wait whose deadline has passed before it begins is no sleep.
Source: `spfs_spotify.c`, `spotify_thread_start`. -/
def spotify_thread_start (n : Threads) (event_timeout : ℤ) : Option Threads :=
  match n.point with
  | .lock timeout =>
    if n.g_running then
      if timeout = 0 then some n.wait_notified
      else if timeout < 0 then some n.taken
      else some { n with point := .wait_until }
    else some { n with point := .ended }
  | .wait false => some { n with point := .wait true }
  | .wait true => some n.wait_notified
  | .wait_until => some n.taken
  | .process_events =>
    if event_timeout = 0 then some n else some { n with point := .lock event_timeout }
  | .ended => none

/-- A step of the one or the other thread. -/
inductive Step
  | notify
  | destroy
  | thread (event_timeout : ℤ)
deriving DecidableEq, Repr

/-- The state after a step, if the thread has not ended. -/
def Threads.step (n : Threads) : Step → Option Threads
  | .notify => some (spotify_notify_main_thread n)
  | .destroy => some (spotify_threads_destroy n)
  | .thread event_timeout => spotify_thread_start n event_timeout

/-! ## The properties -/

/-- The thread sleeps on `g_spotify_notify_cond`, with no wake-up pending. -/
def Point.asleep : Point → Bool
  | .wait false | .wait_until => true
  | _ => false

/-- No step sends the thread to sleep while it is notified, and the thread is not left in the wait
that has no deadline. -/
structure Threads.Right (n : Threads) : Prop where
  awake : ∀ a n', n.step a = some n' → n.point.asleep = false → n'.point.asleep = true →
    n.g_main_thread_do_notify = false
  parked : ¬ (n.point = .wait false ∧ n.g_running = false)

/-- From where the thread has taken a notification to where it sleeps again. -/
def Point.between : Point → Prop
  | .lock timeout => 0 < timeout
  | .process_events => True
  | _ => False

/-- Until shutdown, no notification comes between two waits; shutdown does not come during the first
wait, but after a notification. -/
def Timely (n : Threads) : Step → Prop
  | .notify => n.g_running = true → ¬ n.point.between
  | .destroy => ∀ woken, n.point = .wait woken → n.g_main_thread_do_notify = true
  | .thread _ => True

/-- The run has only steps of this kind. -/
def Runs (ok : Threads → Step → Prop) : Threads → Threads → Prop :=
  ReflTransGen fun n n' => ∃ a, ok n a ∧ n.step a = some n'

/-! ## What the steps do -/

/-- Either the notification is taken, or the thread sleeps. -/
lemma wait_notified_cases (n : Threads) :
    (n.g_main_thread_do_notify = true ∧ n.wait_notified = n.taken) ∨
    (n.g_main_thread_do_notify = false ∧ n.wait_notified = { n with point := .wait false }) := by
  unfold Threads.wait_notified
  rcases n.g_main_thread_do_notify with _ | _
  · exact .inr ⟨rfl, rfl⟩
  · exact .inl ⟨rfl, rfl⟩

/-- What a step of the thread can do. -/
inductive Threads.Moves (n : Threads) : Threads → Prop
  | ended (hrunning : n.g_running = false) : n.Moves { n with point := .ended }
  | taken : n.Moves n.taken
  | sleeps (hflag : n.g_main_thread_do_notify = false)
      (hfrom : n.g_running = true ∨ n.point = .wait true) : n.Moves { n with point := .wait false }
  | sleeps_until (hrunning : n.g_running = true) (hbetween : n.point.between) :
      n.Moves { n with point := .wait_until }
  | wakes (hwait : n.point = .wait false) : n.Moves { n with point := .wait true }
  | again : n.Moves n
  | processed (timeout : ℤ) (hevents : n.point = .process_events) :
      n.Moves { n with point := .lock timeout }

/-- In front of the untimed wait the thread takes a notification, or sleeps. -/
lemma moves_wait_notified {n : Threads} (hfrom : n.g_running = true ∨ n.point = .wait true) :
    n.Moves n.wait_notified := by
  rcases wait_notified_cases n with ⟨-, heq⟩ | ⟨hflag, heq⟩
  · rw [heq]
    exact .taken
  · rw [heq]
    exact .sleeps hflag hfrom

/-- Every step of the thread is one of the moves. -/
lemma moves_of_thread {n n' : Threads} {t : ℤ} (h : spotify_thread_start n t = some n') :
    n.Moves n' := by
  unfold spotify_thread_start at h
  split at h
  case h_1 timeout hpoint =>
    split at h
    case isFalse hrunning =>
      obtain rfl := Option.some.inj h
      exact .ended (by simpa using hrunning)
    case isTrue hrunning =>
      split at h
      · obtain rfl := Option.some.inj h
        exact moves_wait_notified (.inl hrunning)
      split at h
      · obtain rfl := Option.some.inj h
        exact .taken
      · obtain rfl := Option.some.inj h
        apply Threads.Moves.sleeps_until hrunning
        rw [hpoint]
        show 0 < timeout
        omega
  case h_2 hpoint =>
    obtain rfl := Option.some.inj h
    exact .wakes hpoint
  case h_3 hpoint =>
    obtain rfl := Option.some.inj h
    exact moves_wait_notified (.inr hpoint)
  case h_4 =>
    obtain rfl := Option.some.inj h
    exact .taken
  case h_5 hpoint =>
    split at h
    · obtain rfl := Option.some.inj h
      exact .again
    · obtain rfl := Option.some.inj h
      exact .processed t hpoint
  case h_6 => cases h

/-! ## The invariant -/

/-- What holds in a run whose steps are timely. -/
structure Threads.Inv (n : Threads) : Prop where
  parked : n.point = .wait false → n.g_running = true ∧ n.g_main_thread_do_notify = false
  woken : n.point = .wait true → n.g_running = false → n.g_main_thread_do_notify = true
  between : n.point.between → n.g_running = true → n.g_main_thread_do_notify = false

/-- The invariant holds after `spotify_threads_init`. -/
lemma inv_init : spotify_threads_init.Inv where
  parked h := by cases h
  woken h := by cases h
  between h := absurd h (Int.lt_irrefl 0)

/-- Every move keeps it. -/
lemma Threads.Inv.moves {n n' : Threads} (hn : n.Inv) (h : n.Moves n') : n'.Inv := by
  cases h with
  | ended hrunning => exact ⟨fun h => (by cases h), fun h => (by cases h), fun h => h.elim⟩
  | taken => exact ⟨fun h => (by cases h), fun h => (by cases h), fun _ _ => rfl⟩
  | sleeps hflag hfrom =>
    refine ⟨fun _ => ⟨?_, hflag⟩, fun h => (by cases h), fun h => h.elim⟩
    rcases hfrom with hrunning | hpoint
    · exact hrunning
    · -- after shutdown a thread that was woken is notified
      by_contra hrunning
      have htrue := hn.woken hpoint (by simpa using hrunning)
      rw [hflag] at htrue
      cases htrue
  | sleeps_until hrunning hbetween =>
    exact ⟨fun h => (by cases h), fun h => (by cases h), fun h => h.elim⟩
  | wakes hwait =>
    refine ⟨fun h => (by cases h), fun _ hrunning => ?_, fun h => h.elim⟩
    have htrue := (hn.parked hwait).1
    rw [show n.g_running = false from hrunning] at htrue
    cases htrue
  | again => exact hn
  | processed timeout hevents =>
    refine ⟨fun h => (by cases h), fun h => (by cases h), fun _ hrunning => ?_⟩
    apply hn.between _ hrunning
    rw [hevents]
    trivial

/-- A timely notification keeps it. -/
lemma inv_notify {n : Threads} (hok : Timely n .notify) : (spotify_notify_main_thread n).Inv := by
  unfold spotify_notify_main_thread
  rcases hpoint : n.point with timeout | woken | _ | _ | _
  case wait =>
    exact ⟨fun h => (by cases h), fun _ _ => rfl, fun h => h.elim⟩
  all_goals
    refine ⟨fun h => (by cases h), fun _ _ => rfl, fun hbetween hrunning => ?_⟩
    apply absurd (hok hrunning)
    rw [hpoint]
    exact not_not_intro hbetween

/-- A timely end keeps it. -/
lemma Threads.Inv.destroy {n : Threads} (hn : n.Inv) (hok : Timely n .destroy) :
    (spotify_threads_destroy n).Inv := by
  refine ⟨fun hpoint => ?_, fun hpoint _ => hok true hpoint, fun _ hrunning => ?_⟩
  · have hflag := hok false hpoint
    rw [(hn.parked hpoint).2] at hflag
    cases hflag
  · cases hrunning

/-- So does every step that is in time. -/
lemma Threads.Inv.step {n n' : Threads} {a : Step} (hn : n.Inv) (hok : Timely n a)
    (h : n.step a = some n') : n'.Inv := by
  cases a with
  | notify =>
    obtain rfl := Option.some.inj h
    exact inv_notify hok
  | destroy =>
    obtain rfl := Option.some.inj h
    exact hn.destroy hok
  | thread t => exact hn.moves (moves_of_thread h)

/-- Where it holds the thread does right. -/
lemma Threads.Inv.right {n : Threads} (hn : n.Inv) : n.Right where
  awake a n' h hawake hasleep := by
    cases a with
    | notify =>
      obtain rfl := Option.some.inj h
      unfold spotify_notify_main_thread at hasleep
      rcases hpoint : n.point with timeout | woken | _ | _ | _ <;>
        simp_all [Point.asleep]
    | destroy =>
      obtain rfl := Option.some.inj h
      exact absurd hasleep (by simpa [spotify_threads_destroy] using hawake)
    | thread t =>
      cases moves_of_thread h with
      | ended => cases hasleep
      | taken => cases hasleep
      | sleeps hflag => exact hflag
      | sleeps_until hrunning hbetween => exact hn.between hbetween hrunning
      | wakes => cases hasleep
      | again => exact absurd hasleep (by simp [hawake])
      | processed => cases hasleep
  parked h := by
    have hrunning := (hn.parked h.1).1
    rw [h.2] at hrunning
    cases hrunning

/-- A run goes on by a step. -/
lemma Runs.step {ok : Threads → Step → Prop} {n₀ n n' : Threads} {a : Step} (hn : Runs ok n₀ n)
    (hok : ok n a) (h : n.step a = some n') : Runs ok n₀ n' :=
  ReflTransGen.tail hn ⟨a, hok, h⟩

/-- In a run whose steps are timely, the thread never goes to sleep notified, and is not left in its
first wait. -/
theorem right_of_runs {n : Threads} (hn : Runs Timely spotify_threads_init n) : n.Right := by
  have hinv : n.Inv := by
    induction hn with
    | refl => exact inv_init
    | tail _ hstep ih =>
      obtain ⟨a, hok, h⟩ := hstep
      exact ih.step hok h
  exact hinv.right

/-- The thread sleeps, is notified, processes events and sleeps until a deadline. -/
theorem right_of_runs_notified :
    Runs Timely spotify_threads_init ⟨true, false, .wait_until⟩ ∧
      Threads.Right ⟨true, false, .wait_until⟩ := by
  have hrun : Runs Timely spotify_threads_init ⟨true, false, .wait_until⟩ := by
    apply Runs.step (a := .thread 0) (n := ⟨true, false, .lock 1⟩) _ trivial rfl
    apply Runs.step (a := .thread 1) (n := ⟨true, false, .process_events⟩) _ trivial rfl
    apply Runs.step (a := .thread 0) (n := ⟨true, true, .wait true⟩) _ trivial rfl
    apply Runs.step (a := .notify) (n := ⟨true, false, .wait false⟩) _ (fun _ h => h) rfl
    exact Runs.step (a := .thread 0) .refl trivial rfl
  exact ⟨hrun, right_of_runs hrun⟩

/-! ## Steps that are not timely -/

/-- With a notification, the second wait is one too many. -/
lemma not_right_of_lock {n : Threads} {timeout : ℤ} (hpoint : n.point = .lock timeout)
    (htimeout : 0 < timeout) (hrunning : n.g_running = true)
    (hflag : n.g_main_thread_do_notify = true) : ¬ n.Right := by
  intro hn
  have hstep : n.step (.thread 0) = some { n with point := .wait_until } := by
    have hne : timeout ≠ 0 := by omega
    have hnonneg : ¬ timeout < 0 := by omega
    simp [Threads.step, spotify_thread_start, hpoint, hrunning, hne, hnonneg]
  have hfalse := hn.awake _ _ hstep (by rw [hpoint]; rfl) rfl
  rw [hflag] at hfalse
  cases hfalse

/-- After a step that is not timely something can go wrong. -/
theorem not_right_of_untimely {n : Threads} {a : Step} (h : ¬ Timely n a) :
    ∃ n₁ n', n.step a = some n₁ ∧ Runs (fun _ _ => True) n₁ n' ∧ ¬ n'.Right := by
  cases a with
  | notify =>
    unfold Timely at h
    push Not at h
    obtain ⟨hrunning, hbetween⟩ := h
    rcases hpoint : n.point with timeout | woken | _ | _ | _ <;> rw [hpoint] at hbetween
    case lock =>
      have hlock : (spotify_notify_main_thread n).point = .lock timeout := by
        simp [spotify_notify_main_thread, hpoint]
      exact ⟨_, _, rfl, .refl, not_right_of_lock hlock hbetween hrunning rfl⟩
    case process_events =>
      refine ⟨_, { spotify_notify_main_thread n with point := .lock 1 }, rfl, ?_,
        not_right_of_lock rfl Int.one_pos hrunning rfl⟩
      apply Runs.step (a := .thread 1) .refl trivial
      simp [Threads.step, spotify_thread_start, spotify_notify_main_thread, hpoint]
    all_goals exact hbetween.elim
  | destroy =>
    unfold Timely at h
    push Not at h
    obtain ⟨woken, hpoint, hflag⟩ := h
    refine ⟨_, { spotify_threads_destroy n with point := .wait false }, rfl, ?_,
      fun hright => hright.parked ⟨rfl, rfl⟩⟩
    rcases woken with _ | _
    · rw [show ({ spotify_threads_destroy n with point := .wait false } : Threads) =
        spotify_threads_destroy n by rw [← hpoint]; rfl]
      exact .refl
    · apply Runs.step (a := .thread 0) .refl trivial
      simp [Threads.step, spotify_thread_start, spotify_threads_destroy, Threads.wait_notified,
        hpoint, hflag]
  | thread t => exact absurd trivial h

/-- The notification that comes while events are processed is slept over, and shutdown leaves the
thread in its first wait. -/
theorem not_always_right :
    (∃ n n', Runs (fun _ _ => True) spotify_threads_init n ∧ n.step (.thread 0) = some n' ∧
      n.point.asleep = false ∧ n'.point.asleep = true ∧ n.g_main_thread_do_notify = true) ∧
    (∃ n, Runs (fun _ _ => True) spotify_threads_init n ∧
      n.point = .wait false ∧ n.g_running = false) := by
  constructor
  · refine ⟨⟨true, true, .lock 1⟩, ⟨true, true, .wait_until⟩, ?_, rfl, rfl, rfl, rfl⟩
    apply Runs.step (a := .thread 1) (n := ⟨true, true, .process_events⟩) _ trivial rfl
    apply Runs.step (a := .notify) (n := ⟨true, false, .process_events⟩) _ trivial rfl
    apply Runs.step (a := .thread 0) (n := ⟨true, true, .lock 0⟩) _ trivial rfl
    exact Runs.step (a := .notify) .refl trivial rfl
  · refine ⟨⟨false, false, .wait false⟩, ?_, rfl, rfl⟩
    apply Runs.step (a := .destroy) (n := ⟨true, false, .wait false⟩) _ trivial rfl
    exact Runs.step (a := .thread 0) .refl trivial rfl

end Spotifile.Notify
