import Spotifile.ApiLock

/-!
# Going through the functions of `spfs_spotify.c`

A function leaves its thread where it was, as far as the mutex is concerned. This is said of the
threads in two ways: that they have the mutex when they call libspotify (`ApiLockRuns`), and that
they lock the mutexes in order (`DeadlockRuns`). `ApiRules` are the rules that both ways have for
the instructions. What is known of a thread is left open: `R k k' p` says that the program `p` leads
it from `k` to `k'`. The functions are gone through here, once for both.
-/

namespace Spotifile.Api

open Lib

/-! ## The rules -/

/-- The instructions that concern neither a mutex nor libspotify. -/
def ApiInstr.Asks : {γ : Type} → ApiInstr γ → Prop
  | _, .playing | _, .set_playing _ | _, .other => True
  | _, _ => False

/-- Rules for the programs of the thread `t`, of which `κ` is what is known. It may lock where it is
`free`, and call libspotify and wait where it `holds` the mutex; `held` and `entered` are what is
known after a lock and after a wrapper is entered. -/
structure ApiRules (t : ApiThread) (κ : Type) where
  R : {α : Type} → κ → κ → ApiProg α → Prop
  free : κ → Prop
  holds : κ → Prop
  held : κ → κ
  entered : κ → κ
  ret : ∀ {α : Type} (k : κ) (a : α), R k k (.ret a)
  bind : ∀ {α β : Type} {k k' k'' : κ} {p : ApiProg α} {q : α → ApiProg β}, R k k' p →
    (∀ a, R k' k'' (q a)) → R k k'' (p >>= q)
  asks : ∀ {γ : Type} {i : ApiInstr γ} (k : κ), i.Asks → R k k (.of i)
  sp_call : ∀ {k : κ}, holds k → R k k (sp_call t)
  wait : ∀ {k : κ}, holds k → R k k (.of (.wait t))
  lock : ∀ {k : κ}, free k → R k (held k) (.of (.lock t))
  unlock : ∀ {k : κ}, free k → R (held k) k (.of (.unlock t))
  holds_held : ∀ {k : κ}, free k → holds (held k)
  enter_wrapper : ∀ k : κ, R k (entered k) (.of (.enter_wrapper t))
  leave_wrapper : ∀ k : κ, R (entered k) k (.of (.leave_wrapper t))
  free_entered : ∀ {k : κ}, free k → free (entered k)
  holds_entered : ∀ {k : κ}, holds k → holds (entered k)

namespace ApiRules

variable {t : ApiThread} {κ α β : Type} (rules : ApiRules t κ) {k : κ}

/-- The program leaves its thread where it was. -/
abbrev Keeps (k : κ) (p : ApiProg α) : Prop := rules.R k k p

/-- The thread may enter a wrapper which locks on `g_fuse_thread` only. -/
structure MayEnter (k : κ) : Prop where
  free : t = g_fuse_thread → rules.free k
  holds : t ≠ g_fuse_thread → rules.holds k

/-! ## Programs -/

/-- A check in front of a program. -/
lemma keeps_ite {c : Prop} [Decidable c] {p q : ApiProg α} (hp : rules.Keeps k p)
    (hq : rules.Keeps k q) : rules.Keeps k (if c then p else q) := by
  split
  · exact hp
  · exact hq

/-- A loop. -/
lemma keeps_forEach {l : List β} {p : β → ApiProg Unit} (hp : ∀ b, rules.Keeps k (p b)) :
    rules.Keeps k (Prog.forEach l p) := by
  induction l with
  | nil => exact rules.ret k ()
  | cons b l ih => exact rules.bind (hp b) fun _ => ih

/-- A call of libspotify whose value is not used. -/
lemma keeps_sp_call_ (hk : rules.holds k) : rules.Keeps k (sp_call_ t) :=
  rules.bind (rules.sp_call hk) fun _ => rules.ret k ()

/-- A wait for a container. The induction is on the bound of the loop. -/
lemma keeps_wait_on (hk : rules.holds k) (error : Bool) (fuel : ℕ) (p : pointer) :
    rules.Keeps k (wait_on error t fuel p) := by
  induction fuel generalizing p with
  | zero =>
    rcases p with _ | p
    · exact rules.ret k false
    · exact rules.ret k false
  | succ fuel ih =>
    rcases p with _ | p
    · exact rules.ret k false
    · unfold wait_on
      refine rules.bind (rules.sp_call hk) fun loaded => ?_
      refine rules.keeps_ite ?_ (rules.keeps_ite ?_ (rules.ret k true))
      · refine rules.bind (rules.wait hk) fun signalled => ?_
        exact rules.keeps_ite (ih (some p)) (rules.ret k false)
      · refine rules.bind (rules.sp_call hk) fun err => ?_
        refine rules.keeps_ite (rules.ret k true) ?_
        exact rules.bind (rules.sp_call hk) fun _ => rules.ret k false

/-- The elements of a list of libspotify. -/
lemma keeps_get_elements (hk : rules.holds k) : rules.Keeps k (get_elements t) :=
  rules.bind (rules.sp_call hk) fun _ => rules.keeps_forEach fun _ => rules.keeps_sp_call_ hk

/-- A wait on a container, and what is done when it has loaded. -/
lemma keeps_if_loaded {wait : ApiProg Bool} {p : ApiProg Unit} (hwait : rules.Keeps k wait)
    (hp : rules.Keeps k p) : rules.Keeps k (do if ← wait then p) :=
  rules.bind hwait fun _ => rules.keeps_ite hp (rules.ret k ())

/-- The body of a wrapper. -/
lemma keeps_wrapper {p : ApiProg α} (hp : rules.Keeps (rules.entered k) p) :
    rules.Keeps k (wrapper t p) := by
  refine rules.bind (rules.enter_wrapper k) fun _ => ?_
  refine rules.bind hp fun a => ?_
  exact rules.bind (rules.leave_wrapper k) fun _ => rules.ret k a

/-- A program under the mutex, on a thread that may lock it. -/
lemma keeps_locked {p : ApiProg Unit} (hk : rules.free k) (hp : rules.Keeps (rules.held k) p) :
    rules.Keeps k (locked t p) := by
  refine rules.bind (rules.lock hk) fun _ => ?_
  exact rules.bind hp fun _ => rules.unlock hk

/-- A wrapper that always locks. -/
lemma keeps_locked_wrapper {p : ApiProg Unit} (hk : rules.free k)
    (hp : ∀ k, rules.holds k → rules.Keeps k p) : rules.Keeps k (wrapper t (locked t p)) := by
  have hentered := rules.free_entered hk
  exact rules.keeps_wrapper (rules.keeps_locked hentered (hp _ (rules.holds_held hentered)))

/-- A wrapper that checks its arguments, and then locks. -/
lemma keeps_checked_wrapper {c : Prop} [Decidable c] {p : ApiProg Unit} (hk : rules.free k)
    (hp : ∀ k, rules.holds k → rules.Keeps k p) :
    rules.Keeps k (wrapper t (if c then .ret () else locked t p)) := by
  have hentered := rules.free_entered hk
  refine rules.keeps_wrapper (rules.keeps_ite (rules.ret _ ()) ?_)
  exact rules.keeps_locked hentered (hp _ (rules.holds_held hentered))

/-! ## The functions -/

/-- A wrapper that locks on `g_fuse_thread` only. -/
lemma keeps_api_func {wait : ApiThread → ℕ → pointer → ApiProg Bool} (hk : rules.MayEnter k)
    (hwait : ∀ k fuel obj, rules.holds k → rules.Keeps k (wait t fuel obj)) (fuel : ℕ)
    (obj : pointer) : rules.Keeps k (api_func wait t fuel obj) := by
  refine rules.keeps_wrapper ?_
  by_cases ht : t = g_fuse_thread
  · -- the thread locks
    have hfree := rules.free_entered (hk.free ht)
    have hholds := rules.holds_held hfree
    simp only [if_pos ht]
    refine rules.bind (rules.lock hfree) fun _ => ?_
    refine rules.bind (hwait _ fuel obj hholds) fun _ => ?_
    refine rules.bind (rules.sp_call hholds) fun v => ?_
    exact rules.bind (rules.unlock hfree) fun _ => rules.ret _ v
  · -- the thread has the mutex
    have hholds := rules.holds_entered (hk.holds ht)
    simp only [if_neg ht]
    refine rules.bind (hwait _ fuel obj hholds) fun _ => ?_
    exact rules.bind (rules.sp_call hholds) fun v => rules.ret _ v

/-- Every such wrapper. -/
lemma keeps_func (hk : rules.MayEnter k) (f : ApiFunc) (fuel : ℕ) (obj : pointer) :
    rules.Keeps k (f.prog t fuel obj) := by
  have hon : ∀ error, rules.Keeps k (api_func (wait_on error) t fuel obj) := fun error =>
    rules.keeps_api_func hk (fun _ fuel obj hk => rules.keeps_wait_on hk error fuel obj) fuel obj
  have hsession : rules.Keeps k (api_func wait_on_session t fuel obj) :=
    rules.keeps_api_func hk (fun k _ _ _ => rules.ret k true) fuel obj
  cases f <;> first | exact hon true | exact hon false | exact hsession

/-- The callback of a search. -/
lemma keeps_search_complete (hk : rules.MayEnter k) (fuel : ℕ) (search : pointer) :
    rules.Keeps k (track_search_complete_cb t fuel search) := by
  refine rules.bind (rules.keeps_func hk .search_num_tracks fuel search) fun num_tracks => ?_
  refine rules.keeps_forEach fun i => ?_
  refine rules.bind (rules.keeps_func hk .search_track fuel search) fun track => ?_
  refine rules.bind (rules.keeps_func hk .track_name fuel _) fun trackname => ?_
  refine rules.bind (rules.keeps_func hk .track_artist fuel _) fun artist => ?_
  refine rules.bind (rules.keeps_func hk .artist_name fuel _) fun artistname => ?_
  -- the link, unless it is there, or the track is NULL
  refine rules.bind (rules.asks k trivial) fun has => ?_
  refine rules.keeps_ite (rules.ret k ()) (rules.keeps_ite (rules.ret k ()) ?_)
  refine rules.bind (rules.keeps_func hk .link_create_from_track fuel _) fun link => ?_
  refine rules.keeps_ite (rules.ret k ()) ?_
  exact rules.bind (rules.keeps_func hk .link_as_string fuel _) fun _ => rules.ret k ()

/-- A callback, on the thread that processes events. -/
lemma keeps_callback (ht : t ≠ g_fuse_thread) (hk : rules.holds k) (fuel : ℕ) (c : Callback) :
    rules.Keeps k (c.prog t fuel) := by
  have hmay : rules.MayEnter k := ⟨fun h => absurd h ht, fun _ => hk⟩
  cases c with
  | search_complete search => exact rules.keeps_search_complete hmay fuel search
  | end_of_track => exact rules.asks k trivial
  | play_token_lost => exact rules.asks k trivial
  | logged_in error => exact rules.keeps_ite (rules.ret k ()) (rules.keeps_sp_call_ hk)
  | connection_error error => exact rules.keeps_sp_call_ hk

/-- The calls of FUSE, but for the one that never locks. -/
lemma keeps_call (hk : rules.free k) {c : ApiCall} (hprocesses : c.processes = false)
    (hinfo : c ≠ .get_track_info) (hfunc : ∀ f obj, c = .func f obj → rules.MayEnter k)
    (fuel : ℕ) : rules.Keeps k (c.prog t fuel) := by
  cases c with
  | func f obj =>
    exact rules.bind (rules.keeps_func (hfunc f obj rfl) f fuel obj) fun _ => rules.ret k ()
  | connectionstate => exact rules.keeps_locked_wrapper hk fun _ => rules.keeps_sp_call_
  | get_track_artists track =>
    refine rules.keeps_locked_wrapper hk fun k hk => ?_
    exact rules.keeps_if_loaded (rules.keeps_wait_on hk true fuel track)
      (rules.keeps_get_elements hk)
  | get_artistbrowse_albums ab =>
    refine rules.keeps_locked_wrapper hk fun k hk => ?_
    exact rules.keeps_if_loaded (rules.keeps_wait_on hk true fuel ab) (rules.keeps_get_elements hk)
  | get_artistbrowse_portraits ab =>
    refine rules.keeps_locked_wrapper hk fun k hk => ?_
    exact rules.keeps_if_loaded (rules.keeps_wait_on hk true fuel ab) (rules.keeps_get_elements hk)
  | get_playlists =>
    refine rules.keeps_locked_wrapper hk fun k hk => rules.bind (rules.sp_call hk) fun plc => ?_
    exact rules.keeps_if_loaded (rules.keeps_wait_on hk false fuel _) (rules.keeps_get_elements hk)
  | get_playlist_tracks playlist =>
    refine rules.keeps_locked_wrapper hk fun k hk => ?_
    exact rules.keeps_if_loaded (rules.keeps_wait_on hk false fuel playlist)
      (rules.keeps_get_elements hk)
  | seek_track session offset => exact rules.keeps_checked_wrapper hk fun _ => rules.keeps_sp_call_
  | play_track session track =>
    have hentered := rules.free_entered hk
    have hholds := rules.holds_held hentered
    refine rules.keeps_wrapper (rules.keeps_ite (rules.ret _ ()) ?_)
    refine rules.bind (rules.asks _ trivial) fun playing => ?_
    refine rules.bind (rules.asks _ trivial) fun same => ?_
    refine rules.keeps_ite (rules.ret _ ()) (rules.keeps_locked hentered ?_)
    refine rules.bind (rules.sp_call hholds) fun sperr => ?_
    refine rules.keeps_ite ?_ (rules.keeps_sp_call_ hholds)
    exact rules.bind (rules.keeps_sp_call_ hholds) fun _ => rules.asks _ trivial
  | image_create session id => exact rules.keeps_checked_wrapper hk fun _ => rules.keeps_sp_call_
  | artistbrowse_biography ab =>
    refine rules.keeps_checked_wrapper hk fun k hk => ?_
    exact rules.keeps_if_loaded (rules.keeps_wait_on hk true fuel ab) (rules.keeps_sp_call_ hk)
  | artistbrowse_create session artist =>
    refine rules.keeps_checked_wrapper hk fun k hk => ?_
    exact rules.keeps_if_loaded (rules.keeps_wait_on hk false fuel artist) (rules.keeps_sp_call_ hk)
  | search_create_track_search => exact rules.keeps_locked_wrapper hk fun _ => rules.keeps_sp_call_
  | bitrate_set bitrate =>
    have hentered := rules.free_entered hk
    refine rules.keeps_wrapper (rules.keeps_ite (rules.keeps_locked hentered ?_) (rules.ret _ ()))
    exact rules.keeps_sp_call_ (rules.holds_held hentered)
  | get_track_info => exact absurd rfl hinfo
  | process_events callbacks => cases hprocesses

end ApiRules

end Spotifile.Api
