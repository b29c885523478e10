import Spotifile.EndOfTrack

/-!
# What was accepted for a track is returned before its end is reported

`spotify_music_delivery` runs ahead of the reader, so that some audio is still queued when
libspotify comes to the end of a track. `spotify_end_of_track` flushes the queue, and with it these
frames. `reports_all` shows what a run has to avoid for the bytes returned to be the bytes accepted
when `spotify_get_audio` reports the end: the run begins with `spotify_play_track(T)`, and goes on
with deliveries, reads of any size and one end of the track.
-/

namespace Spotifile

open Lib

variable {β : Type} {duration : sp_track → ℤ}

/-! ## Since the track was loaded -/

/-- `sp_session_player_load` succeeded. -/
def Event.is_load : Event β → Bool
  | .loaded _ => true
  | _ => false

/-- `spotify_play_track` returned true. -/
def Event.is_play : Event β → Bool
  | .played _ => true
  | _ => false

/-- A track was loaded. -/
def has_loaded (log : List (Event β)) : Bool := log.any Event.is_load

/-- `spotify_play_track` has succeeded. -/
def has_played (log : List (Event β)) : Bool := log.any Event.is_play

/-- What the events since the last load add up to, the earliest first. -/
def since_load (f : Event β → List β) : List (Event β) → List β
  | [] => []
  | e :: log => if e.is_load then [] else since_load f log ++ f e

/-- Whether a track was loaded, one event later. -/
@[simp] lemma has_loaded_cons (e : Event β) (log : List (Event β)) :
    has_loaded (e :: log) = (e.is_load || has_loaded log) := rfl

/-- Whether a track was started, one event later. -/
@[simp] lemma has_played_cons (e : Event β) (log : List (Event β)) :
    has_played (e :: log) = (e.is_play || has_played log) := rfl

/-- What came since the load, one event later. -/
lemma since_load_cons {e : Event β} (he : e.is_load = false) (f : Event β → List β)
    (log : List (Event β)) : since_load f (e :: log) = since_load f log ++ f e := by
  rw [since_load, he]
  rfl

/-- Each time that `spotify_get_audio` with a non-zero size returned 0, the bytes it had returned
since the track was loaded were as many as the bytes accepted since then. -/
def ReportsAll (log : List (Event β)) : Prop :=
  ∀ l₁ size l₂, log = l₁ ++ .audio size [] :: l₂ → 0 < size →
    (since_load Event.bytes l₂).length = (since_load Event.frames l₂).length

/-- The same, in the form in which it is an invariant. -/
def EndsComplete : List (Event β) → Prop
  | [] => True
  | e :: log => (∀ size, e = .audio size [] → 0 < size →
      since_load Event.bytes log = since_load Event.frames log) ∧ EndsComplete log

/-- The invariant says what was asked for of every read that returned 0. -/
lemma EndsComplete.reportsAll {log : List (Event β)} (h : EndsComplete log) : ReportsAll log := by
  intro l₁ size l₂ hlog hsize
  subst hlog
  induction l₁ with
  | nil => exact congrArg List.length (h.1 size rfl hsize)
  | cons e l₁ ih => exact ih h.2

/-! ## The run -/

/-- After `spotify_play_track` has returned true the reader reads, and libspotify calls
`spotify_end_of_track` once. Deliveries may come at any time. -/
def one_track (t : ℕ) (c : Call β) (p : Player β) : Bool :=
  match c with
  | .get_audio _ => t == reader && has_played p.log
  | .end_of_track => t == 1 && has_played p.log &&
      !p.log.any fun | .ended _ => true | _ => false
  | .music_delivery _ => t != reader
  | .audio_buffer_stats => t != reader
  | _ => false

/-- The world in which the reader is about to call `spotify_play_track`, and no callback runs. -/
def about_to_play (track : sp_track) (p : Player β) : World (Instr β) (Player β) ℕ :=
  ⟨p, Function.update (fun _ => .ret ()) reader (Call.prog (.play_track track))⟩

/-- Another track is playing, or none. -/
structure Player.BeforePlay (track : sp_track) (p : Player β) : Prop where
  playing : p.g_playback.playing ≠ some track
  wellFormed : p.g_playback.WellFormed
  log : p.log = []

/-- Reads that split a segment ask for whole frames; the queue is empty when the track is loaded,
when the callback for its end flushes the queue and when it clears `playing`; and nothing is
accepted after that. -/
def NothingDropped : {γ : Type} → Instr β γ → Player β → Prop
  | _, .audio size, p => p.g_playback.Aligned size
  | _, .player_load _, p => p.g_playback.queue = []
  | _, .flush, p => has_loaded p.log = true → p.g_playback.queue = []
  | _, .clear_playing, p => p.g_playback.queue = []
  | _, .delivery d, p => has_played p.log = true → p.g_playback.playing = none →
      p.g_playback.accepts d = false
  | _, _, _ => True

instance decidableNothingDropped {γ : Type} (i : Instr β γ) (p : Player β) :
    Decidable (NothingDropped i p) := by
  induction i using Instr.casesOn with
  | audio size => exact inferInstanceAs (Decidable (p.g_playback.Aligned size))
  | player_load _ => exact decidable_of_iff (p.g_playback.queue.isEmpty = true) List.isEmpty_iff
  | flush =>
    exact decidable_of_iff (has_loaded p.log = true → p.g_playback.queue.isEmpty = true)
      (imp_congr_right fun _ => List.isEmpty_iff)
  | clear_playing => exact decidable_of_iff (p.g_playback.queue.isEmpty = true) List.isEmpty_iff
  | delivery d => exact inferInstanceAs (Decidable (has_played p.log = true →
      p.g_playback.playing = none → p.g_playback.accepts d = false))
  | _ => exact .isTrue trivial

/-! ## The discipline -/

/-- What holds between any two steps. -/
structure Player.Balanced (p : Player β) : Prop where
  wellFormed : p.g_playback.WellFormed
  balance : has_loaded p.log = true →
    since_load Event.bytes p.log ++ claimed p.g_playback.queue = since_load Event.frames p.log
  loaded : has_played p.log = true → has_loaded p.log = true
  idle : has_played p.log = true → p.g_playback.playing = none → p.g_playback.queue = []
  done_idle : has_played p.log = true → p.g_playback_done = true → p.g_playback.playing = none
  audio : EndsComplete p.log

/-- Once the track has been played, `playing` is never set again; before, nobody but the reader
writes `playing` or `g_playback_done`. -/
structure BalancedRely (t : ℕ) (p p' : Player β) : Prop where
  played : has_played p.log = true → has_played p'.log = true
  idle : has_played p.log = true → p.g_playback.playing = none → p'.g_playback.playing = none
  before : t = reader → has_played p.log = false → has_played p'.log = false ∧
    has_loaded p'.log = has_loaded p.log ∧ p'.g_playback.playing = p.g_playback.playing ∧
    p'.g_playback_done = p.g_playback_done

/-- The terms between the reader and the callbacks. -/
def balanced_discipline : Discipline (Instr β) (Player β) ℕ (Call β) where
  inv := Player.Balanced
  rely := BalancedRely
  idle _ _ := True
  ok := NothingDropped
  okStart _ _ _ := True

/-- What has to hold in front of an instruction for it to keep `Player.Balanced`. -/
def BalancedPre : {γ : Type} → Instr β γ → Player β → Prop
  | _, .set_playing _, p => has_played p.log = false
  | _, .player_load _, p => has_played p.log = false
  | _, .played _, p => has_loaded p.log = true ∧ p.g_playback.playing ≠ none ∧
      p.g_playback_done = false
  | _, .set_done true, p => has_played p.log = true ∧ p.g_playback.playing = none
  | _, .refused _, p => has_played p.log = true ∧ p.g_playback.playing = none
  | _, .audio _, p => has_played p.log = true
  | _, .lose_playing, _ => False
  | _, _, _ => True

/-- The instructions that write neither `playing` nor `g_playback_done`, and enter neither a load
nor a play in the history. -/
def Instr.calm : {γ : Type} → Instr β γ → Bool
  | _, .set_playing _ | _, .clear_playing | _, .lose_playing | _, .set_done _ | _, .player_load _
  | _, .played _ => false
  | _, _ => true

namespace Player.Balanced

variable {p p' : Player β}

/-- A step that keeps the history and the claimed bytes. -/
lemma of_log (h : p.Balanced) (hwf : p'.g_playback.WellFormed) (hlog : p'.log = p.log)
    (hq : has_loaded p.log = true → claimed p'.g_playback.queue = claimed p.g_playback.queue)
    (hover : has_played p.log = true → p'.g_playback.playing = none → p'.g_playback.queue = [])
    (hdone : has_played p.log = true → p'.g_playback_done = true → p'.g_playback.playing = none) :
    p'.Balanced where
  wellFormed := hwf
  balance := fun hl => by
    rw [hlog] at hl ⊢
    rw [hq hl]
    exact h.balance hl
  loaded := by rw [hlog]; exact h.loaded
  idle := by rw [hlog]; exact hover
  done_idle := by rw [hlog]; exact hdone
  audio := by rw [hlog]; exact h.audio

/-- A step that enters in the history neither a load nor a play. -/
lemma of_event {e : Event β} (h : p.Balanced) (hwf : p'.g_playback.WellFormed)
    (hlog : p'.log = e :: p.log) (hload : e.is_load = false) (hplay : e.is_play = false)
    (hpl : p'.g_playback.playing = p.g_playback.playing)
    (hd : p'.g_playback_done = p.g_playback_done)
    (hq : has_loaded p.log = true → e.bytes ++ claimed p'.g_playback.queue
      = claimed p.g_playback.queue ++ e.frames ∨ e.frames = [] ∧
        e.bytes ++ claimed p'.g_playback.queue = claimed p.g_playback.queue)
    (hover : has_played p.log = true → p.g_playback.playing = none → p'.g_playback.queue = [])
    (hau : ∀ size, e = .audio size [] → 0 < size →
      since_load Event.bytes p.log = since_load Event.frames p.log) : p'.Balanced where
  wellFormed := hwf
  balance := fun hl => by
    rw [hlog, has_loaded_cons, hload, Bool.false_or] at hl
    rw [hlog, since_load_cons hload, since_load_cons hload, List.append_assoc, ← h.balance hl,
      List.append_assoc]
    rcases hq hl with hq | ⟨hf, hq⟩
    · rw [hq]
    · rw [hq, hf, List.append_nil]
  loaded := by
    rw [hlog, has_loaded_cons, has_played_cons, hload, hplay, Bool.false_or, Bool.false_or]
    exact h.loaded
  idle := by
    rw [hlog, has_played_cons, hplay, Bool.false_or, hpl]
    exact hover
  done_idle := by
    rw [hlog, has_played_cons, hplay, Bool.false_or, hpl, hd]
    exact h.done_idle
  audio := by
    rw [hlog]
    exact ⟨hau, h.audio⟩

/-- A delivery after the track has been played is refused. -/
lemma delivery {d : Delivery β} {ok : Bool} {r : Option ℕ} (hp : p.Balanced)
    (hok : has_played p.log = true → p.g_playback.playing = none → p.g_playback.accepts d = false)
    (h : exec duration (.delivery d) ok p = some (r, p')) : p'.Balanced := by
  have hwf := exec_wellFormed hp.wellFormed h
  rcases exec_delivery h with ⟨ha, -, rfl⟩ | ⟨-, -, rfl⟩
  · refine hp.of_event hwf rfl rfl rfl rfl rfl (fun _ => .inl ?_) ?_ fun _ he => by cases he
    · simp [Event.bytes, Event.frames, d.claimed_audio]
    · intro hplay hn
      have := hok hplay hn
      rw [ha] at this
      cases this
  · exact hp

/-- A read takes the claimed bytes over into the history. -/
lemma audio_read {size : ℕ} {ok : Bool} {r : Option (List β)} (hp : p.Balanced)
    (hok : p.g_playback.Aligned size) (hplayed : has_played p.log = true)
    (h : exec duration (.audio size) ok p = some (r, p')) : p'.Balanced := by
  have hwf := exec_wellFormed hp.wellFormed h
  rcases exec_audio h with ⟨-, ⟨-, hq, -, rfl⟩ | ⟨hw, -, rfl⟩⟩
  · exact hp.of_log hwf rfl (fun _ => rfl) (fun _ _ => hq) hp.done_idle
  · have hbal := spfs_audio_playback.copied_append_claimed hp.wellFormed hok
    refine hp.of_event hwf rfl rfl rfl rfl rfl (fun _ => .inr ⟨rfl, hbal⟩) ?_ ?_
    · intro hplay hn
      have hnil := hp.idle hplay hn
      rcases spfs_audio_playback.drained_cases hp.wellFormed size with
        ⟨-, hd, -⟩ | ⟨_, _, hq, -⟩ | ⟨a, rest, hne, hq, -⟩
      · show (p.g_playback.drained size).queue = []
        rw [hd, hnil]
      · rw [hnil] at hq
        cases hq
      · rw [hnil] at hq
        exact absurd (List.append_eq_nil_iff.mp hq.symm).1 hne
    · -- nothing is copied although a size was asked for: the queue is empty
      intro size' he hsize
      obtain ⟨rfl, hnil⟩ := Event.audio.inj he
      have hq : p.g_playback.queue = [] := by
        by_contra hq
        exact spfs_audio_playback.copied_ne_nil hp.wellFormed hsize hq hnil
      have hbalance := hp.balance (hp.loaded hplayed)
      rwa [hq, claimed_nil, List.append_nil] at hbalance

/-- A load on an empty queue starts the balance anew. -/
lemma player_load {track : sp_track} {ok : Bool} {r : Option Bool} (hp : p.Balanced)
    (hok : p.g_playback.queue = []) (hplayed : has_played p.log = false)
    (h : exec duration (.player_load track) ok p = some (r, p')) : p'.Balanced := by
  rcases exec_player_load h with ⟨-, -, rfl⟩ | ⟨-, -, rfl⟩
  · have hnot : ¬ has_played (.loaded track :: p.log) = true := by
      rw [has_played_cons, hplayed]
      exact Bool.false_ne_true
    exact {
      wellFormed := hp.wellFormed
      balance := fun _ => by simp [since_load, Event.is_load, hok]
      loaded := fun _ => rfl
      idle := fun hplay => absurd hplay hnot
      done_idle := fun hplay => absurd hplay hnot
      audio := ⟨fun _ he => (by cases he), hp.audio⟩ }
  · exact hp

/-- The play of a loaded track. -/
lemma played {track : sp_track} {ok : Bool} {r : Option Unit} (hp : p.Balanced)
    (hload : has_loaded p.log = true) (hpl : p.g_playback.playing ≠ none)
    (hdone : p.g_playback_done = false)
    (h : exec duration (.played track) ok p = some (r, p')) : p'.Balanced := by
  obtain ⟨-, rfl⟩ := executed_eq h
  refine ⟨hp.wellFormed, fun _ => ?_, fun _ => ?_, fun _ hn => absurd hn hpl, fun _ ht => ?_,
    ⟨fun _ he => (by cases he), hp.audio⟩⟩
  · show since_load Event.bytes (.played track :: p.log) ++ _
      = since_load Event.frames (.played track :: p.log)
    rw [since_load_cons rfl, since_load_cons rfl]
    simpa [Event.bytes, Event.frames] using hp.balance hload
  · rw [has_loaded_cons, hload, Bool.or_true]
  · rw [hdone] at ht
    cases ht

end Player.Balanced

section Exec

variable {γ : Type} {i : Instr β γ} {ok : Bool} {p p' : Player β} {r : Option γ}

/-- Every instruction keeps the balance. -/
lemma exec_balanced (hp : p.Balanced) (hok : NothingDropped i p) (hpre : BalancedPre i p)
    (h : exec duration i ok p = some (r, p')) : p'.Balanced := by
  have hwf := exec_wellFormed hp.wellFormed h
  cases i with
  | delivery d => exact hp.delivery hok h
  | audio size => exact hp.audio_read hok hpre h
  | player_load track => exact hp.player_load hok hpre h
  | played track => exact hp.played hpre.1 hpre.2.1 hpre.2.2 h
  | track_info =>
    obtain ⟨cond, rfl⟩ := exec_track_info_cond h
    exact hp.of_log hwf rfl (fun _ => rfl) hp.idle hp.done_idle
  | set_playing track =>
    obtain ⟨-, rfl⟩ := executed_eq h
    have hnot : ¬ has_played p.log = true := by
      rw [show has_played p.log = false from hpre]
      exact Bool.false_ne_true
    exact hp.of_log hwf rfl (fun _ => rfl) (fun hplay => absurd hplay hnot)
      fun hplay => absurd hplay hnot
  | clear_playing =>
    obtain ⟨-, rfl⟩ := executed_eq h
    exact hp.of_log hwf rfl (fun _ => rfl) (fun _ _ => hok) fun _ _ => rfl
  | lose_playing => exact absurd hpre id
  | set_done b =>
    obtain ⟨-, rfl⟩ := executed_eq h
    refine hp.of_log hwf rfl (fun _ => rfl) hp.idle ?_
    intro _ hd
    cases b with
    | true => exact hpre.2
    | false => cases hd
  | flush =>
    obtain ⟨-, rfl⟩ := executed_eq h
    refine hp.of_log hwf rfl ?_ (fun _ _ => rfl) hp.done_idle
    intro hload
    show claimed [] = _
    rw [hok hload]
  | ended =>
    obtain ⟨track, -, -, rfl⟩ := exec_ended h
    exact hp.of_event hwf rfl rfl rfl rfl rfl (fun _ => .inr ⟨rfl, rfl⟩) hp.idle
      fun _ he => by cases he
  | wav_open track =>
    rcases exec_wav_open h with ⟨-, -, rfl⟩ | ⟨-, -, rfl⟩
    · exact hp
    · exact hp.of_log hwf rfl (fun _ => rfl) hp.idle hp.done_idle
  | refused size =>
    obtain ⟨-, rfl⟩ := executed_eq h
    refine hp.of_event hwf rfl rfl rfl rfl rfl (fun _ => .inr ⟨rfl, rfl⟩) hp.idle ?_
    intro _ _ _
    have hbalance := hp.balance (hp.loaded hpre.1)
    rwa [hp.idle hpre.1 hpre.2, claimed_nil, List.append_nil] at hbalance
  | wav_returned track offset size bytes =>
    obtain ⟨-, rfl⟩ := executed_eq h
    exact hp.of_event hwf rfl rfl rfl rfl rfl (fun _ => .inr ⟨rfl, rfl⟩) hp.idle
      fun _ he => by cases he
  | _ =>
    obtain ⟨-, rfl⟩ := executed_eq h
    exact hp.of_log hwf rfl (fun _ => rfl) hp.idle hp.done_idle

/-- What a calm instruction leaves as it is. -/
lemma exec_calm (hcalm : i.calm = true) (h : exec duration i ok p = some (r, p')) :
    p'.g_playback.playing = p.g_playback.playing ∧ p'.g_playback_done = p.g_playback_done ∧
    has_played p'.log = has_played p.log ∧ has_loaded p'.log = has_loaded p.log := by
  cases i with
  | set_playing track | clear_playing | lose_playing | set_done b | player_load track
  | played track => cases hcalm
  | delivery d =>
    rcases exec_delivery h with ⟨-, -, rfl⟩ | ⟨-, -, rfl⟩
    · exact ⟨rfl, rfl, rfl, rfl⟩
    · exact ⟨rfl, rfl, rfl, rfl⟩
  | audio size =>
    rcases exec_audio h with ⟨-, ⟨-, -, -, rfl⟩ | ⟨-, -, rfl⟩⟩
    · exact ⟨rfl, rfl, rfl, rfl⟩
    · exact ⟨rfl, rfl, rfl, rfl⟩
  | track_info =>
    obtain ⟨cond, rfl⟩ := exec_track_info_cond h
    exact ⟨rfl, rfl, rfl, rfl⟩
  | ended =>
    obtain ⟨track, -, -, rfl⟩ := exec_ended h
    exact ⟨rfl, rfl, rfl, rfl⟩
  | wav_open track =>
    rcases exec_wav_open h with ⟨-, -, rfl⟩ | ⟨-, -, rfl⟩
    · exact ⟨rfl, rfl, rfl, rfl⟩
    · exact ⟨rfl, rfl, rfl, rfl⟩
  | _ =>
    obtain ⟨-, rfl⟩ := executed_eq h
    exact ⟨rfl, rfl, rfl, rfl⟩

/-- After the track has been played, the other instructions do not set `playing` again. -/
lemma exec_after_played (hcalm : i.calm = false) (hpre : BalancedPre i p)
    (h : exec duration i ok p = some (r, p')) (hplay : has_played p.log = true) :
    has_played p'.log = true ∧ (p.g_playback.playing = none → p'.g_playback.playing = none) := by
  have early : has_played p.log ≠ false := by
    rw [hplay]
    exact Bool.noConfusion
  cases i with
  | set_playing track => exact absurd hpre early
  | player_load track => exact absurd hpre early
  | lose_playing => exact absurd hpre id
  | clear_playing =>
    obtain ⟨-, rfl⟩ := executed_eq h
    exact ⟨hplay, fun _ => rfl⟩
  | set_done b =>
    obtain ⟨-, rfl⟩ := executed_eq h
    exact ⟨hplay, id⟩
  | played track =>
    obtain ⟨-, rfl⟩ := executed_eq h
    exact ⟨rfl, id⟩
  | _ => cases hcalm

/-- Every instruction does to the other threads what they rely on, if it is calm where the reader
has not played the track yet. -/
lemma exec_balancedRely (hpre : BalancedPre i p) (h : exec duration i ok p = some (r, p'))
    {u : ℕ} (hu : u = reader → i.calm = true ∨ has_played p.log = true) :
    BalancedRely u p p' := by
  rcases hcalm : i.calm with _ | _
  · have late : u = reader → has_played p.log ≠ false := by
      intro hreader hplay
      rcases hu hreader with hc | hc
      · rw [hcalm] at hc
        cases hc
      · rw [hplay] at hc
        cases hc
    have after := exec_after_played hcalm hpre h
    exact ⟨fun hplay => (after hplay).1, fun hplay => (after hplay).2,
      fun hreader hplay => absurd hplay (late hreader)⟩
  · obtain ⟨hpl, hd, hplay, hload⟩ := exec_calm hcalm h
    exact ⟨fun hh => hplay.trans hh, fun _ hn => hpl.trans hn,
      fun _ hh => ⟨hplay.trans hh, hload, hpl, hd⟩⟩

end Exec

/-! ## Every call keeps to the discipline -/

section Calls

variable {t : ℕ} {α γ : Type}

/-- The rest of a program of thread `t` keeps to the discipline. -/
abbrev BalancedSafe (duration : sp_track → ℤ) (t : ℕ) {α : Type} (k : Prog (Instr β) α)
    (p : Player β) : Prop :=
  Prog.Safe (playback_system duration one_track) balanced_discipline t (fun _ _ => True) k p

/-- The rule for an instruction in front of which `P` holds. -/
lemma BalancedSafe.call {i : Instr β γ} {k : γ → Prog (Instr β) α} {p : Player β}
    (P : Player β → Prop) (hP : P p) (hstable : balanced_discipline.Stable t P)
    (hpre : ∀ p, P p → BalancedPre i p)
    (hcalm : i.calm = true ∨ t = reader ∨ ∀ p, P p → has_played p.log = true)
    (hwait : ∀ ok p p', P p → exec duration i ok p = some (none, p') → P p')
    (hk : ∀ ok v p p', p.Balanced → P p → exec duration i ok p = some (some v, p') →
      BalancedSafe duration t (k v) p') :
    BalancedSafe duration t (.call i k) p := by
  apply Prog.Safe.call P hP hstable
  intro p o r p' hbal hP hok he
  refine ⟨exec_balanced hbal hok (hpre p hP) he, ?_, ?_, ?_⟩
  · intro u hu
    refine exec_balancedRely (hpre p hP) he fun hreader => ?_
    rcases hcalm with hc | ht | hplay
    · exact .inl hc
    · exact absurd (hreader.trans ht.symm) hu
    · exact .inr (hplay p hP)
  · rintro rfl
    exact hwait o p p' hP he
  · rintro v rfl
    exact hk o v p p' hbal hP he

/-- The rule for an instruction that does not wait. -/
lemma BalancedSafe.step {i : Instr β γ} {k : γ → Prog (Instr β) α} {p : Player β}
    (P : Player β → Prop) (hP : P p) (hstable : balanced_discipline.Stable t P)
    (hpre : ∀ p, P p → BalancedPre i p)
    (hcalm : i.calm = true ∨ t = reader ∨ ∀ p, P p → has_played p.log = true)
    (hi : i.waits = false)
    (hk : ∀ ok v p p', p.Balanced → P p → exec duration i ok p = some (some v, p') →
      BalancedSafe duration t (k v) p') :
    BalancedSafe duration t (.call i k) p :=
  BalancedSafe.call P hP hstable hpre hcalm (fun _ _ _ _ he => absurd rfl (exec_ends hi he)) hk

/-- `spotify_play_track` has succeeded. -/
def Played (p : Player β) : Prop := has_played p.log = true

/-- `spotify_play_track` has succeeded, and `playing` has been cleared since. -/
def Over (p : Player β) : Prop := has_played p.log = true ∧ p.g_playback.playing = none

/-- An assertion that says nothing is always kept. -/
lemma stable_true : balanced_discipline.Stable t fun _ : Player β => True :=
  fun _ _ _ _ _ => trivial

/-- What has been started has been started. -/
lemma stable_played : balanced_discipline.Stable t (Played (β := β)) :=
  fun _ _ _ hrely h => hrely.played h

/-- Once `playing` is cleared it stays so. -/
lemma stable_over : balanced_discipline.Stable t (Over (β := β)) :=
  fun _ _ _ hrely h => ⟨hrely.played h.1, hrely.idle h.1 h.2⟩

/-- A callback of a single calm instruction. -/
lemma calm_safe {i : Instr β γ} {k : γ → Prog (Instr β) Unit} {p : Player β}
    (hcalm : i.calm = true) (hpre : ∀ p, BalancedPre i p)
    (hk : ∀ v p, BalancedSafe duration t (k v) p) : BalancedSafe duration t (.call i k) p :=
  BalancedSafe.call (fun _ => True) trivial stable_true (fun p _ => hpre p) (.inl hcalm)
    (fun _ _ _ _ _ => trivial) (fun _ v _ p' _ _ _ => hk v p')

/-- Once `spotify_get_audio` has found the track over, it returns 0 with the track over. -/
lemma refuse_over_safe (ht : t = reader) (size : ℕ) {p : Player β} (hp : Over p) :
    BalancedSafe duration t (do
      Prog.of (.set_done false)
      Prog.of (.refused size)
      pure ([] : List β)) p := by
  refine BalancedSafe.step Over hp stable_over (fun _ _ => trivial) (.inr (.inl ht)) rfl ?_
  intro ok v p p' _ hover he
  obtain ⟨-, rfl⟩ := executed_eq he
  exact BalancedSafe.step Over hover stable_over (fun _ h => h) (.inl rfl) rfl
    fun _ _ _ _ _ _ _ => trivial

/-- A read returns 0 only after all that was accepted. -/
lemma get_audio_balanced (ht : t = reader) (size : ℕ) {p : Player β} (hp : Played p) :
    BalancedSafe duration t (spotify_get_audio size) p := by
  unfold spotify_get_audio spotify_is_playing
  simp only [Prog.of_bind]
  refine BalancedSafe.step Played hp stable_played (fun _ _ => trivial) (.inl rfl) rfl ?_
  intro ok v p p' hbal hplay he
  obtain ⟨rfl, rfl⟩ := returned_eq he
  by_cases hpl : p.g_playback.playing = none
  · simp only [hpl, Option.isSome_none, Bool.false_eq_true, if_false, Prog.pure_eq, Prog.ret_bind,
      if_true]
    exact refuse_over_safe ht size ⟨hplay, hpl⟩
  · have hsome : p.g_playback.playing.isSome = true := Option.isSome_iff_ne_none.mpr hpl
    simp only [hsome, if_true]
    refine BalancedSafe.step Played hplay stable_played (fun _ _ => trivial) (.inl rfl) rfl ?_
    intro ok v p p' hbal hplay he
    obtain ⟨rfl, rfl⟩ := returned_eq he
    rcases hd : p.g_playback_done with _ | _
    · simp only [Bool.false_eq_true, if_false]
      refine BalancedSafe.call Played hplay stable_played (fun _ h => h) (.inl rfl) ?_ ?_
      · intro ok p p' h he
        rcases exec_audio he with ⟨-, ⟨-, -, -, rfl⟩ | ⟨-, hr, -⟩⟩
        · exact h
        · cases hr
      · intro ok v p p' _ _ _
        trivial
    · simp only [if_true]
      exact refuse_over_safe ht size ⟨hplay, hbal.done_idle hplay hd⟩

/-- The callback for the end of the track, once the track has been played. -/
lemma end_of_track_balanced {p : Player β} (hp : Played p) :
    BalancedSafe duration t spotify_end_of_track p := by
  unfold spotify_end_of_track spfs_audio_playback_flush
  refine BalancedSafe.step Played hp stable_played (fun _ _ => trivial) (.inl rfl) rfl ?_
  intro ok v p p' _ h he
  have h : Played p' := by
    obtain ⟨track, -, -, rfl⟩ := exec_ended he
    exact h
  refine BalancedSafe.step Played h stable_played (fun _ _ => trivial) (.inl rfl) rfl ?_
  intro ok v p p' _ h he
  obtain ⟨-, rfl⟩ := executed_eq he
  refine BalancedSafe.step Played h stable_played (fun _ _ => trivial)
    (.inr (.inr fun _ h => h)) rfl ?_
  intro ok v p p' _ h he
  obtain ⟨-, rfl⟩ := executed_eq he
  exact BalancedSafe.step Over ⟨h, rfl⟩ stable_over (fun _ h => h)
    (.inr (.inr fun _ h => h.1)) rfl fun _ _ _ _ _ _ _ => trivial

/-- The reader has not played the track, and `g_playback_done` is not set. -/
def Starting (p : Player β) : Prop :=
  has_played p.log = false ∧ p.g_playback_done = false

/-- Only the reader starts a track. -/
lemma stable_starting (ht : t = reader) : balanced_discipline.Stable t (Starting (β := β)) := by
  intro p p' _ hrely h
  obtain ⟨hplay, -, -, hd⟩ := hrely.before ht h.1
  exact ⟨hplay, hd.trans h.2⟩

/-- `spotify_play_track` of a track that is not playing. -/
lemma play_track_balanced {track : sp_track} {p : Player β} (hp : p.BeforePlay track) :
    BalancedSafe duration reader (spotify_play_track track) p := by
  -- before the load: nothing has been played, and the track is not playing
  let Before : Player β → Prop := fun p =>
    has_played p.log = false ∧ p.g_playback.playing ≠ some track
  have hbefore : balanced_discipline.Stable reader Before := by
    intro p p' _ hrely h
    obtain ⟨hplay, -, hpl, -⟩ := hrely.before rfl h.1
    exact ⟨hplay, hpl ▸ h.2⟩
  -- after it: the track has been loaded as well
  let Loaded : Player β → Prop := fun p => Starting p ∧ has_loaded p.log = true
  have hloaded : balanced_discipline.Stable reader Loaded := by
    intro p p' hinv hrely h
    obtain ⟨-, hload, -, -⟩ := hrely.before rfl h.1.1
    exact ⟨stable_starting rfl p p' hinv hrely h.1, hload.trans h.2⟩
  unfold spotify_play_track spfs_audio_playback_flush
  simp only [Prog.of_bind]
  have hlog : has_played p.log = false := by rw [hp.log]; rfl
  refine BalancedSafe.step Before ⟨hlog, hp.playing⟩ hbefore (fun _ _ => trivial) (.inl rfl) rfl ?_
  intro ok v p p' _ h he
  obtain ⟨rfl, rfl⟩ := returned_eq he
  rw [if_neg h.2]
  refine BalancedSafe.step Before h hbefore (fun _ _ => trivial) (.inl rfl) rfl ?_
  intro ok v p p' _ h he
  obtain ⟨-, rfl⟩ := executed_eq he
  refine BalancedSafe.step Before h hbefore (fun _ _ => trivial) (.inr (.inl rfl)) rfl ?_
  intro ok v p p' _ h he
  obtain ⟨-, rfl⟩ := executed_eq he
  refine BalancedSafe.step Starting ⟨h.1, rfl⟩ (stable_starting rfl) (fun _ h => h.1)
    (.inr (.inl rfl)) rfl ?_
  intro ok v p p' _ h he
  rcases exec_player_load he with ⟨-, hv, rfl⟩ | ⟨-, hv, rfl⟩
  · obtain rfl := Option.some.inj hv
    rw [if_pos rfl]
    refine BalancedSafe.step Loaded ⟨h, rfl⟩ hloaded (fun _ h => h.1.1) (.inr (.inl rfl)) rfl ?_
    intro ok v p p' _ h he
    obtain ⟨-, rfl⟩ := executed_eq he
    refine BalancedSafe.step (fun p => Loaded p ∧ p.g_playback.playing ≠ none)
      ⟨h, Option.some_ne_none _⟩ ?_ (fun _ h => ⟨h.1.2, h.2, h.1.1.2⟩) (.inr (.inl rfl)) rfl
      fun _ _ _ _ _ _ _ => trivial
    intro p p' hinv hrely h
    obtain ⟨-, -, hpl, -⟩ := hrely.before rfl h.1.1.1
    exact ⟨hloaded p p' hinv hrely h.1, hpl ▸ h.2⟩
  · obtain rfl := Option.some.inj hv
    trivial

end Calls

/-- The system keeps to the discipline. -/
lemma balanced_disciplined :
    (playback_system (β := β) duration one_track).Disciplined balanced_discipline where
  stable _ _ _ _ _ _ := trivial
  start t c p _ _ hmay _ := by
    replace hmay : one_track t c p = true := hmay
    cases c with
    | get_audio size =>
      simp only [one_track, Bool.and_eq_true, beq_iff_eq] at hmay
      exact (get_audio_balanced hmay.1 size hmay.2).bind fun _ _ _ => trivial
    | end_of_track =>
      simp only [one_track, Bool.and_eq_true] at hmay
      exact end_of_track_balanced hmay.1.2
    | music_delivery d => exact calm_safe rfl (fun _ => trivial) fun _ _ => trivial
    | audio_buffer_stats => exact calm_safe rfl (fun _ => trivial) fun _ _ => trivial
    | _ => cases hmay

/-- In a run that begins with `spotify_play_track` and whose steps all meet `NothingDropped`, the
bytes returned for the track are all the bytes accepted for it by the time that
`spotify_get_audio` reports its end. -/
theorem reports_all {track : sp_track} {p₀ : Player β} {w : World (Instr β) (Player β) ℕ}
    {l : List (World (Instr β) (Player β) ℕ × Action ℕ (Call β) Bool)}
    (hp₀ : p₀.BeforePlay track)
    (hl : Trace (playback_system duration one_track) (about_to_play track p₀) l w)
    (hok : ∀ s ∈ l, s.1.Executes NothingDropped s.2) : ReportsAll w.shared.log := by
  have hbal : p₀.Balanced := by
    have hload : has_loaded p₀.log = false := by rw [hp₀.log]; rfl
    have hplay : has_played p₀.log = false := by rw [hp₀.log]; rfl
    refine ⟨hp₀.wellFormed, ?_, ?_, ?_, ?_, by rw [hp₀.log]; trivial⟩
    all_goals simp [hload, hplay]
  have hsafe : (about_to_play track p₀).Sound (playback_system duration one_track)
      balanced_discipline := by
    refine ⟨hbal, fun t => ?_⟩
    by_cases ht : t = reader
    · subst ht
      exact (play_track_balanced hp₀).bind fun _ _ _ => trivial
    · show Prog.Safe _ _ t _ (Function.update (fun _ => Prog.ret ()) reader _ t) p₀
      rw [Function.update_of_ne ht]
      trivial
  have hsound := hl.sound balanced_disciplined hsafe fun s hs =>
    ⟨by rcases s.2 with _ | _ <;> trivial, hok s hs⟩
  exact hsound.inv.audio.reportsAll

/-- The track is started, two frames are delivered and read, the track ends, and the reader is told
so. -/
def read_then_end : List (Action ℕ (Call ℕ) Bool) :=
  steps reader 6 ++ .start 2 (.music_delivery two_frames) :: steps 2 1 ++
    .start reader (.get_audio 4) :: steps reader 3 ++ .start 1 .end_of_track :: steps 1 4 ++
    .start reader (.get_audio 4) :: steps reader 3

/-- At first no track is playing. -/
lemma init_before_play (track : sp_track) : (Player.init : Player β).BeforePlay track :=
  ⟨fun h => (by cases h), ⟨by simp [Player.init, spfs_audio_playback_new], rfl⟩, rfl⟩

/-- The theorem at the run that reads both frames before the track ends. -/
theorem reports_all_two_frames : ∃ w : World (Instr ℕ) (Player ℕ) ℕ,
    w.shared.log = [.audio 4 [], .ended 1, .audio 4 [10, 11, 20, 21], .delivered two_frames,
      .played 1, .loaded 1] ∧ ReportsAll w.shared.log := by
  obtain ⟨l, w, hl, hok, hw⟩ := Trace.exists_of_run
    (playback_system (β := ℕ) (fun _ => 0) one_track) (fun w a => w.Executes NothingDropped a)
    (about_to_play 1 .init) read_then_end
    (fun w => w.shared.log = [.audio 4 [], .ended 1, .audio 4 [10, 11, 20, 21],
      .delivered two_frames, .played 1, .loaded 1]) (by decide)
  exact ⟨w, hw, reports_all (init_before_play 1) hl hok⟩

/-- The track ends before the reader asks for the two frames. -/
def end_then_read : List (Action ℕ (Call ℕ) Bool) :=
  steps reader 6 ++ .start 2 (.music_delivery two_frames) :: steps 2 1 ++
    .start 1 .end_of_track :: steps 1 4 ++ .start reader (.get_audio 4) :: steps reader 3

/-- Frames that were accepted are discarded because the track ended: the reader is told of the end
without a byte of the two frames. -/
theorem end_of_track_discards : ∃ l w,
    Trace (playback_system (β := ℕ) (fun _ => 0) one_track) (about_to_play 1 .init) l w ∧
    w.shared.log = [.audio 4 [], .ended 1, .delivered two_frames, .played 1, .loaded 1] ∧
    ¬ ReportsAll w.shared.log := by
  obtain ⟨l, w, hl, -, hw⟩ := Trace.exists_of_run
    (playback_system (β := ℕ) (fun _ => 0) one_track) (fun _ _ => True)
    (about_to_play 1 .init) end_then_read
    (fun w => w.shared.log = [.audio 4 [], .ended 1, .delivered two_frames, .played 1, .loaded 1])
    (by decide)
  refine ⟨l, w, hl, hw, fun h => ?_⟩
  have := h [] 4 [.ended 1, .delivered two_frames, .played 1, .loaded 1] hw (by decide)
  exact absurd this (by decide)

end Spotifile
