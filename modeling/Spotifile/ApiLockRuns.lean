import Spotifile.ApiRules

/-!
# Who holds the lock on libspotify

A thread should call libspotify only while it holds `g_spotify_api_mutex`. Three places do not see
to that. The wrappers of `SPFS_SPOTIFY_API_PRELUDE` lock on `g_fuse_thread` only, so on a worker of
FUSE they call libspotify without the mutex. `spotify_get_track_info` never locks. And a callback
that waits gives the mutex up inside of `sp_session_process_events`. `api_lock_held` shows that
there is no fourth: in a run without these three nothing goes wrong, and no two threads are ever
inside libspotify at the same time.

`At t held d st` is the only assertion that is needed: whether thread `t` holds the mutex, in how
many calls of libspotify it is, and how it entered its wrappers.
-/

namespace Spotifile.Api

open Lib

/-! ## The property and its conditions -/

/-- Nothing has gone wrong, and no two threads are inside libspotify. -/
structure ApiLock.Disciplined (s : ApiLock) : Prop where
  faults : s.faults = []
  alone : ∀ t u, s.depth t ≠ 0 → s.depth u ≠ 0 → t = u

/-- A wrapper that locks on `g_fuse_thread` only is not called on another thread of FUSE. -/
def OnFuseThread (t : ApiThread) (op : ApiOp) (_ : ApiLock) : Prop :=
  match op.call with
  | .func _ _ => t = g_fuse_thread
  | _ => True

/-- `spotify_get_track_info` gets to `wait_on_track` only after playback has ended, and no thread
waits inside of libspotify. -/
def NoGap : {γ : Type} → ApiInstr γ → ApiLock → Prop
  | _, .info_track, s => s.playing = false
  | _, .wait t, s => s.depth t = 0
  | _, _, _ => True

instance decidableOnFuseThread (t : ApiThread) (op : ApiOp) (s : ApiLock) :
    Decidable (OnFuseThread t op s) := by
  unfold OnFuseThread
  split <;> infer_instance

instance decidableNoGap {γ : Type} (i : ApiInstr γ) (s : ApiLock) : Decidable (NoGap i s) := by
  cases i <;> first | exact .isTrue trivial | (unfold NoGap; infer_instance)

/-! ## The discipline -/

/-- Thread `t` holds the mutex or not, is in `d` calls of libspotify, does not wait, and has
entered its wrappers as `st` says. -/
structure At (t : ApiThread) (held : Bool) (d : ℕ) (st : List Bool) (s : ApiLock) : Prop where
  owner : s.owner = some t ↔ held = true
  depth : s.depth t = d
  waiting : s.waiting t = false
  entered : s.entered t = st

/-- What no other thread changes. -/
structure Rely (t : ApiThread) (s s' : ApiLock) : Prop where
  owner : s'.owner = some t ↔ s.owner = some t
  depth : s'.depth t = s.depth t
  waiting : s'.waiting t = s.waiting t
  entered : s'.entered t = s.entered t

/-- Nothing has gone wrong, and a thread that is inside libspotify holds the mutex. -/
structure Held (s : ApiLock) : Prop where
  faults : s.faults = []
  owner : ∀ t, s.depth t ≠ 0 → s.owner = some t

/-- The terms between the threads. -/
def api_discipline : Discipline ApiInstr ApiLock ApiThread ApiOp where
  inv := Held
  rely := Rely
  idle t := At t false 0 []
  ok := NoGap
  okStart := OnFuseThread

/-- Where the mutex was held for every call, the calls were disciplined. -/
lemma Held.disciplined {s : ApiLock} (hs : Held s) : s.Disciplined where
  faults := hs.faults
  alone t u ht hu := Option.some.inj ((hs.owner t ht).symm.trans (hs.owner u hu))

variable {t : ApiThread} {held : Bool} {d : ℕ} {st : List Bool} {α β : Type}

/-- A thread stays where it stands. -/
lemma At.of_rely {s s' : ApiLock} (h : At t held d st s) (hr : Rely t s s') :
    At t held d st s' where
  owner := hr.owner.trans h.owner
  depth := hr.depth.trans h.depth
  waiting := hr.waiting.trans h.waiting
  entered := hr.entered.trans h.entered

/-- No other thread moves it. -/
lemma stable_at : api_discipline.Stable t (At t held d st) := fun _ _ _ hr h => h.of_rely hr

/-- From `P` the program keeps to the discipline and ends in `Q`. -/
abbrev Spec (t : ApiThread) (P : ApiLock → Prop) (p : ApiProg α) (Q : α → ApiLock → Prop) : Prop :=
  Prog.Triple api_system api_discipline t P p Q

/-- The program leaves everything that concerns its thread as it is. -/
abbrev Keeps (t : ApiThread) (held : Bool) (d : ℕ) (st : List Bool) (p : ApiProg α) : Prop :=
  Spec t (At t held d st) p fun _ => At t held d st

/-! ## The instructions -/

/-- An instruction that ends with a value, with what it does to its own thread and to the others. -/
lemma spec_of {γ : Type} {i : ApiInstr γ} {Q : γ → ApiLock → Prop}
    (h : ∀ s o r s', Held s → At t held d st s → NoGap i s → exec i o s = some (r, s') →
      ∃ v, r = some v ∧ Held s' ∧ (∀ u, u ≠ t → Rely u s s') ∧ Q v s') :
    Spec t (At t held d st) (Prog.of i) Q := by
  refine Prog.Triple.of stable_at ?_
  intro s o r s' hinv hs hok he
  obtain ⟨v, rfl, hheld, hrely, hQ⟩ := h s o r s' hinv hs hok he
  refine ⟨hheld, hrely, nofun, ?_⟩
  rintro _ ⟨⟩
  exact hQ

/-- An instruction that only asks, or concerns no thread. -/
lemma keeps_of {γ : Type} {i : ApiInstr γ}
    (h : ∀ s o r s', NoGap i s → exec i o s = some (r, s') → r ≠ none ∧ s'.owner = s.owner ∧
      s'.depth = s.depth ∧ s'.waiting = s.waiting ∧ s'.entered = s.entered ∧
      s'.faults = s.faults) :
    Keeps t held d st (Prog.of i) := by
  refine spec_of ?_
  intro s o r s' hinv hs hok he
  obtain ⟨hr, ho, hd, hw, hen, hf⟩ := h s o r s' hok he
  obtain ⟨v, rfl⟩ := Option.ne_none_iff_exists'.mp hr
  have hrely : ∀ u, Rely u s s' := fun u => ⟨by rw [ho], by rw [hd], by rw [hw], by rw [hen]⟩
  refine ⟨v, rfl, ⟨hf.trans hinv.faults, ?_⟩, fun u _ => hrely u, hs.of_rely (hrely t)⟩
  intro u hu
  rw [hd] at hu
  rw [ho, hinv.owner u hu]

/-- What is only asked for, and what is written for the playback, concerns no mutex. -/
lemma keeps_asks {γ : Type} {i : ApiInstr γ} (hi : i.Asks) : Keeps t held d st (.of i) := by
  refine keeps_of ?_
  intro s o r s' _ he
  cases i with
  | playing | set_playing | other =>
    obtain ⟨rfl, rfl⟩ := executed_eq he
    simp
  | _ => exact hi.elim

/-- What is read for `wait_on_track` is NULL. -/
lemma spec_info_track :
    Spec t (At t held d st) (.of .info_track) fun v s => v = false ∧ At t held d st s := by
  refine spec_of ?_
  intro s o r s' hinv hs hok he
  obtain ⟨rfl, rfl⟩ := executed_eq he
  exact ⟨_, rfl, hinv, fun u _ => ⟨Iff.rfl, rfl, rfl, rfl⟩, hok, hs⟩

/-- The thread that holds the mutex may enter and leave libspotify. -/
lemma Held.owner_of_update {s : ApiLock} {u : ApiThread} {n : ℕ} (h : Held s)
    (howner : s.owner = some t) (hu : Function.update s.depth t n u ≠ 0) : s.owner = some u := by
  by_cases hut : u = t
  · rw [hut]
    exact howner
  · rw [Function.update_of_ne hut] at hu
    exact h.owner u hu

/-- The mutex can be locked when nobody holds it, and then nobody is inside libspotify. -/
lemma spec_lock : Spec t (At t false d st) (.of (.lock t)) fun _ => At t true d st := by
  refine spec_of ?_
  intro s o r s' hinv hs _ he
  rw [exec] at he
  split at he
  · next hfree =>
    simp only [Option.some.injEq, Prod.mk.injEq] at he
    obtain ⟨rfl, rfl⟩ := he
    refine ⟨(), rfl, ⟨hinv.faults, ?_⟩, ?_, ⟨by simp, hs.depth, hs.waiting, hs.entered⟩⟩
    · intro u hu
      have := hinv.owner u hu
      rw [hfree] at this
      cases this
    · intro u hu
      exact ⟨by simp [hfree, Ne.symm hu], rfl, rfl, rfl⟩
  · next u howner =>
    split at he
    · next hu =>
      rw [hu] at howner
      simpa using hs.owner.mp howner
    · cases he

/-- The mutex is unlocked. -/
lemma spec_unlock : Spec t (At t true 0 st) (.of (.unlock t)) fun _ => At t false 0 st := by
  refine spec_of ?_
  intro s o r s' hinv hs _ he
  have howner : s.owner = some t := hs.owner.mpr rfl
  simp only [exec, howner, if_true, Option.some.injEq, Prod.mk.injEq] at he
  obtain ⟨rfl, rfl⟩ := he
  refine ⟨(), rfl, ⟨hinv.faults, ?_⟩, ?_, ⟨by simp, hs.depth, hs.waiting, hs.entered⟩⟩
  · intro u hu
    obtain rfl : t = u := Option.some.inj (howner.symm.trans (hinv.owner u hu))
    exact absurd hs.depth hu
  · intro u hu
    exact ⟨by simp [howner, Ne.symm hu], rfl, rfl, rfl⟩

/-- A function of libspotify is entered. -/
lemma spec_enter : Spec t (At t true d st) (.of (.enter t)) fun _ => At t true (d + 1) st := by
  refine spec_of ?_
  intro s o r s' hinv hs _ he
  have howner : s.owner = some t := hs.owner.mpr rfl
  simp only [exec, if_pos howner, Option.some.injEq, Prod.mk.injEq] at he
  obtain ⟨rfl, rfl⟩ := he
  refine ⟨(), rfl, ⟨hinv.faults, fun _ => hinv.owner_of_update howner⟩, ?_,
    ⟨hs.owner, by simp [hs.depth], hs.waiting, hs.entered⟩⟩
  intro u hu
  exact ⟨Iff.rfl, Function.update_of_ne hu _ _, rfl, rfl⟩

/-- It is left. -/
lemma spec_leave : Spec t (At t true (d + 1) st) (.of (.leave t)) fun _ => At t true d st := by
  refine spec_of ?_
  intro s o r s' hinv hs _ he
  have howner : s.owner = some t := hs.owner.mpr rfl
  obtain ⟨rfl, rfl⟩ := executed_eq he
  refine ⟨o, rfl, ⟨hinv.faults, fun _ => hinv.owner_of_update howner⟩, ?_,
    ⟨hs.owner, by simp [hs.depth], hs.waiting, hs.entered⟩⟩
  intro u hu
  exact ⟨Iff.rfl, Function.update_of_ne hu _ _, rfl, rfl⟩

/-- A wrapper is entered, and notes whether it has the mutex. -/
lemma spec_enter_wrapper :
    Spec t (At t held d st) (.of (.enter_wrapper t)) fun _ => At t held d (held :: st) := by
  refine spec_of ?_
  intro s o r s' hinv hs _ he
  obtain ⟨rfl, rfl⟩ := executed_eq he
  refine ⟨(), rfl, ⟨hinv.faults, hinv.owner⟩, ?_, ⟨hs.owner, hs.depth, hs.waiting, ?_⟩⟩
  · intro u hu
    exact ⟨Iff.rfl, rfl, rfl, by simp [Function.update_of_ne hu]⟩
  · simp [hs.owner, hs.entered]

/-- It is left. -/
lemma spec_leave_wrapper :
    Spec t (At t held d (held :: st)) (.of (.leave_wrapper t)) fun _ => At t held d st := by
  refine spec_of ?_
  intro s o r s' hinv hs _ he
  have hhead : (s.entered t).head? = some (decide (s.owner = some t)) := by
    simp [hs.entered, hs.owner]
  simp only [exec, hhead, if_true, Option.some.injEq, Prod.mk.injEq] at he
  obtain ⟨rfl, rfl⟩ := he
  refine ⟨(), rfl, ⟨hinv.faults, hinv.owner⟩, ?_, ⟨hs.owner, hs.depth, hs.waiting, ?_⟩⟩
  · intro u hu
    exact ⟨Iff.rfl, rfl, rfl, by simp [Function.update_of_ne hu]⟩
  · simp [hs.entered]

/-- A thread that waits: it has given the mutex up. -/
structure Waiting (t : ApiThread) (st : List Bool) (s : ApiLock) : Prop where
  owner : s.owner ≠ some t
  depth : s.depth t = 0
  waiting : s.waiting t = true
  entered : s.entered t = st

/-- A wait outside of libspotify ends with the mutex. -/
lemma spec_wait : Spec t (At t true d st) (.of (.wait t)) fun _ => At t true d st := by
  have key : Spec t (fun s => At t true d st s ∨ (d = 0 ∧ Waiting t st s)) (.of (.wait t))
      fun _ => At t true d st := by
    apply Prog.Triple.of
    · rintro s s' - hr (h | ⟨hd, h⟩)
      · exact .inl (h.of_rely hr)
      · exact .inr ⟨hd, fun ho => h.owner (hr.owner.mp ho), hr.depth.trans h.depth,
          hr.waiting.trans h.waiting, hr.entered.trans h.entered⟩
    · intro s o r s' hinv hs hok he
      change exec (.wait t) o s = some (r, s') at he
      rcases hs with h | ⟨rfl, h⟩
      · -- the thread holds the mutex and goes to sleep
        have howner : s.owner = some t := h.owner.mpr rfl
        obtain rfl : d = 0 := h.depth.symm.trans hok
        simp only [exec, h.waiting, Bool.false_eq_true, if_false, howner, if_true,
          Option.some.injEq, Prod.mk.injEq] at he
        obtain ⟨rfl, rfl⟩ := he
        refine ⟨⟨hinv.faults, ?_⟩, ?_, fun _ => .inr ⟨rfl, nofun, h.depth, by simp, h.entered⟩,
          nofun⟩
        · intro u hu
          obtain rfl : t = u := Option.some.inj (howner.symm.trans (hinv.owner u hu))
          exact absurd h.depth hu
        · intro u hu
          exact ⟨by simp [howner, Ne.symm hu], rfl, by simp [Function.update_of_ne hu], rfl⟩
      · -- it sleeps, and gets the mutex back when nobody has it
        by_cases hfree : s.owner = none
        · simp only [exec, h.waiting, if_true, hfree, Option.some.injEq, Prod.mk.injEq] at he
          obtain ⟨rfl, rfl⟩ := he
          refine ⟨⟨hinv.faults, ?_⟩, ?_, nofun,
            fun _ _ => ⟨by simp, h.depth, by simp, h.entered⟩⟩
          · intro u hu
            have := hinv.owner u hu
            rw [hfree] at this
            cases this
          · intro u hu
            exact ⟨by simp [hfree, Ne.symm hu], rfl, by simp [Function.update_of_ne hu], rfl⟩
        · simp [exec, h.waiting, hfree] at he
  exact fun s hs => key s (.inl hs)

/-! ## The functions -/

/-- What is known of a thread. -/
structure Standing where
  held : Bool
  depth : ℕ
  entered : List Bool

/-- The thread stands so. -/
abbrev Standing.At (k : Standing) (t : ApiThread) : ApiLock → Prop :=
  Api.At t k.held k.depth k.entered

/-- The rules for the programs of a thread: it locks outside of libspotify, and calls libspotify
with the mutex. -/
def standing_rules (t : ApiThread) : ApiRules t Standing where
  R k k' p := Spec t (k.At t) p fun _ => k'.At t
  free k := k.held = false ∧ k.depth = 0
  holds k := k.held = true
  held k := { k with held := true }
  entered k := { k with entered := k.held :: k.entered }
  ret _ _ := Prog.Triple.ret fun _ hs => hs
  bind := Prog.Triple.bind
  asks _ := keeps_asks
  sp_call := by
    rintro ⟨_, d, st⟩ rfl
    exact spec_enter.bind fun _ => spec_leave
  wait := by
    rintro ⟨_, d, st⟩ rfl
    exact spec_wait
  lock := by
    rintro ⟨_, _, st⟩ ⟨rfl, rfl⟩
    exact spec_lock
  unlock := by
    rintro ⟨_, _, st⟩ ⟨rfl, rfl⟩
    exact spec_unlock
  holds_held _ := rfl
  enter_wrapper _ := spec_enter_wrapper
  leave_wrapper _ := spec_leave_wrapper
  free_entered hk := hk
  holds_entered hk := hk

/-- A step of the spotify thread. -/
lemma keeps_process_events (fuel : ℕ) (callbacks : List Callback) :
    Keeps .spotify false 0 st (process_events .spotify fuel callbacks) := by
  have hlocked : (standing_rules .spotify).Keeps ⟨false, 0, st⟩
      (process_events .spotify fuel callbacks) := by
    apply (standing_rules .spotify).keeps_locked ⟨rfl, rfl⟩
    have henter : Spec .spotify (At .spotify true 0 st) (.of (.enter .spotify)) fun _ =>
        At .spotify true 1 st := spec_enter
    refine Prog.Triple.bind henter fun _ => ?_
    have hcallbacks := (standing_rules .spotify).keeps_forEach (l := callbacks) fun c =>
      (standing_rules .spotify).keeps_callback (k := ⟨true, 1, st⟩) (by decide) rfl fuel c
    refine Prog.Triple.bind hcallbacks fun _ => ?_
    refine Prog.Triple.bind spec_leave fun err => ?_
    exact (standing_rules .spotify).keeps_ite ((standing_rules .spotify).ret ⟨true, 0, st⟩ ())
      ((standing_rules .spotify).keeps_sp_call_ rfl)
  exact hlocked

/-- Past its test, `spotify_get_track_info` finds that nothing is playing any more, and does not
call libspotify. -/
lemma keeps_get_track_info (fuel : ℕ) : Keeps t held d st (spotify_get_track_info t fuel) := by
  apply (standing_rules t).keeps_wrapper (k := ⟨held, d, st⟩)
  refine (standing_rules t).bind (keeps_asks trivial) fun playing => ?_
  refine (standing_rules t).keeps_ite ?_ ((standing_rules t).ret _ ())
  refine Prog.Triple.bind spec_info_track ?_
  rintro track s ⟨rfl, hs⟩
  cases fuel with
  | zero => exact hs
  | succ fuel => exact hs

/-! ## Runs -/

/-- Every call keeps to the discipline. -/
lemma keeps_call {op : ApiOp} {s : ApiLock} (hthread : op.thread = t)
    (hspotify : op.call.processes = decide (t = .spotify))
    (hfuse : OnFuseThread t op s) : Keeps t false 0 st (op.call.prog t op.fuel) := by
  obtain ⟨thread, fuel, call⟩ := op
  obtain rfl : thread = t := hthread
  by_cases hinfo : call = .get_track_info
  · subst hinfo
    exact keeps_get_track_info fuel
  rcases hprocesses : call.processes with _ | _
  · have hcall : (standing_rules thread).Keeps ⟨false, 0, st⟩ (call.prog thread fuel) := by
      refine (standing_rules thread).keeps_call ⟨rfl, rfl⟩ hprocesses hinfo ?_ fuel
      rintro f obj rfl
      exact ⟨fun _ => ⟨rfl, rfl⟩, fun hne => absurd hfuse hne⟩
    exact hcall
  · obtain rfl : thread = .spotify := by
      rw [hprocesses] at hspotify
      exact of_decide_eq_true hspotify.symm
    cases call with
    | process_events callbacks => exact keeps_process_events fuel callbacks
    | _ => cases hprocesses

/-- The operations keep to the terms. -/
lemma api_disciplined : api_system.Disciplined api_discipline where
  stable _ := stable_at
  start := by
    intro t op s _ hidle hmay hfuse
    have hmay : op.thread = t ∧ op.call.processes = decide (t = .spotify) := by
      simpa [api_system] using hmay
    obtain ⟨rfl, hspotify⟩ := hmay
    exact keeps_call (s := s) rfl hspotify hfuse s hidle

/-- In a run in which the wrappers of `SPFS_SPOTIFY_API_PRELUDE` are not called on a worker of
FUSE, `spotify_get_track_info` does not get to libspotify, and no callback waits, every thread
calls libspotify and waits with the mutex only, locks it only when it has not got it, and leaves
every wrapper with the mutex as it entered it; and no two threads are inside libspotify. -/
theorem api_lock_held {w : World ApiInstr ApiLock ApiThread}
    {l : List (World ApiInstr ApiLock ApiThread × Action ApiThread ApiOp ℕ)}
    (hl : Trace api_system (.idle .init) l w) (hfuse : ∀ s ∈ l, s.1.Starts OnFuseThread s.2)
    (hgap : ∀ s ∈ l, s.1.Executes NoGap s.2) : w.shared.Disciplined := by
  have hsound := hl.sound api_disciplined (World.sound_idle ⟨rfl, fun t ht => absurd rfl ht⟩
    fun t => ⟨by simp [ApiLock.init], rfl, rfl, rfl⟩) fun s hs => ⟨hfuse s hs, hgap s hs⟩
  exact hsound.inv.disciplined

/-- Thread `t` starts a call and executes some steps of it, with these choices of the scheduler. -/
def api_run (t : ApiThread) (call : ApiCall) (choices : List ℕ) :
    List (Action ApiThread ApiOp ℕ) :=
  .start t ⟨t, 1, call⟩ :: choices.map fun o => .step t o

/-- `g_fuse_thread` asks for the name of a track; then a callback calls libspotify from inside of
`sp_session_process_events`. -/
def name_then_search : List (Action ApiThread ApiOp ℕ) :=
  api_run .init (.func .track_name (some ())) [0, 0, 0, 1, 0, 0, 0, 0, 0, 0] ++
    api_run .spotify (.process_events [.search_complete (some ())]) [0, 0, 0, 0]

/-- The theorem at this run. -/
theorem api_lock_held_name_then_search : ∃ w : World ApiInstr ApiLock ApiThread,
    w.shared.depth .spotify = 2 ∧ w.shared.Disciplined := by
  obtain ⟨l, w, hl, hok, hdepth⟩ := Trace.exists_of_run api_system
    (fun w a => w.Starts OnFuseThread a ∧ w.Executes NoGap a) (.idle .init) name_then_search
    (fun w => w.shared.depth .spotify = 2) (by decide)
  exact ⟨w, hdepth, api_lock_held hl (fun s hs => (hok s hs).1) fun s hs => (hok s hs).2⟩

/-- A worker of FUSE asks for the name of a track while events are processed. -/
def name_on_worker : List (Action ApiThread ApiOp ℕ) :=
  api_run .spotify (.process_events []) [0, 0] ++
    api_run (.worker 0) (.func .track_name (some ())) [0, 0]

/-- A track is played, and its duration is asked for. -/
def play_and_ask : List (Action ApiThread ApiOp ℕ) :=
  api_run .init (.play_track (some ()) (some ())) (List.replicate 11 0) ++
    api_run .init .get_track_info (List.replicate 4 0)

/-- The callback of a search waits for the search to load, and `g_fuse_thread` calls libspotify. -/
def wait_in_callback : List (Action ApiThread ApiOp ℕ) :=
  api_run .spotify (.process_events [.search_complete (some ())]) (List.replicate 6 0) ++
    api_run .init .connectionstate [0, 0, 0]

/-- The three gaps: a wrapper on a worker, `spotify_get_track_info` on any thread, and a wait in a
callback. In the first and in the third two threads are inside libspotify. -/
theorem api_lock_gaps :
    (∃ l w, Trace api_system (.idle .init) l w ∧ w.shared.faults = [.call (.worker 0)] ∧
      w.shared.depth .spotify = 1 ∧ w.shared.depth (.worker 0) = 1 ∧ ¬ w.shared.Disciplined) ∧
    (∃ l w, Trace api_system (.idle .init) l w ∧ w.shared.faults = [.call .init] ∧
      ¬ w.shared.Disciplined) ∧
    (∃ l w, Trace api_system (.idle .init) l w ∧ w.shared.faults = [] ∧
      w.shared.depth .spotify = 1 ∧ w.shared.depth .init = 1 ∧ ¬ w.shared.Disciplined) := by
  refine ⟨?_, ?_, ?_⟩
  · obtain ⟨l, w, hl, -, hfaults, hspotify, hworker⟩ := Trace.exists_of_run api_system
      (fun _ _ => True) (.idle .init) name_on_worker
      (fun w => w.shared.faults = [.call (.worker 0)] ∧ w.shared.depth .spotify = 1 ∧
        w.shared.depth (.worker 0) = 1) (by decide)
    refine ⟨l, w, hl, hfaults, hspotify, hworker, ?_⟩
    intro h
    have := hfaults.symm.trans h.faults
    cases this
  · obtain ⟨l, w, hl, -, hfaults⟩ := Trace.exists_of_run api_system (fun _ _ => True)
      (.idle .init) play_and_ask (fun w => w.shared.faults = [.call .init]) (by decide)
    refine ⟨l, w, hl, hfaults, ?_⟩
    intro h
    have := hfaults.symm.trans h.faults
    cases this
  · obtain ⟨l, w, hl, -, hfaults, hspotify, hinit⟩ := Trace.exists_of_run api_system
      (fun _ _ => True) (.idle .init) wait_in_callback
      (fun w => w.shared.faults = [] ∧ w.shared.depth .spotify = 1 ∧ w.shared.depth .init = 1)
      (by decide)
    refine ⟨l, w, hl, hfaults, hspotify, hinit, ?_⟩
    intro h
    have := h.alone .spotify .init (by rw [hspotify]; decide) (by rw [hinit]; decide)
    cases this

end Spotifile.Api
