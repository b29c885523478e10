import Spotifile.Lib.History
import Spotifile.Wakeup

/-!
# The queue after a change of track or position

`spotify_play_track` flushes the queue and then has libspotify load the track; `spotify_seek_track`
has libspotify seek and then flushes. A delivery that comes between the two steps is of the old
track in the first function and of the new position in the second. `renewed` says that nothing else
can go wrong: if the queue is empty when a track is loaded, and nothing has been accepted between a
seek and its flush, the queue holds frames of the new source only, and none of them is lost.

The observer `Feed` numbers the sources: every load and every seek begins a new one. `stamp` says
from which source a byte comes.
-/

namespace Spotifile

open Lib

variable {β : Type} {duration : sp_track → ℤ}

/-! ## The observer -/

/-- How far a change of the source has come. -/
inductive Change
  /-- The function that made it has returned. -/
  | settled
  /-- The queue was flushed, and nothing was loaded since. -/
  | flushed
  /-- A track was loaded, and `spotify_play_track` has not returned. -/
  | loaded
  /-- The position was changed, and the queue not flushed since. -/
  | sought
deriving DecidableEq, Repr

/-- What was seen of the frames since the last change of the source. -/
structure Feed (β : Type) where
  source : ℕ
  change : Change
  accepted : List β
  returned : List β

/-- Before the first track. -/
def Feed.start : Feed β := ⟨0, .flushed, [], []⟩

/-- What an instruction with this result, in this state, shows to the observer. -/
def Feed.saw : {γ : Type} → Instr β γ → Option γ → Player β → Feed β → Feed β
  | _, .flush, _, _, f =>
    { f with change := if f.change = .sought then .settled else .flushed }
  | _, .player_load _, some true, _, f => ⟨f.source + 1, .loaded, [], []⟩
  | _, .player_seek _, _, _, f => ⟨f.source + 1, .sought, [], []⟩
  | _, .played _, _, _, f =>
    { f with change := if f.change = .loaded then .settled else f.change }
  | _, .delivery d, _, p, f =>
    if p.g_playback.accepts d then { f with accepted := f.accepted ++ d.frames } else f
  | _, .audio _, some bytes, _, f => { f with returned := f.returned ++ bytes }
  | _, _, _, _, f => f

/-- The playback under observation. -/
def fed_system (duration : sp_track → ℤ) (may : ℕ → Call β → Player β → Bool) :
    System (Instr β) (Player β × Feed β) ℕ (Call β) Bool :=
  (playback_system duration may).observe Feed.saw

/-- The observer takes no run of the playback away. -/
lemma exists_fed {may : ℕ → Call β → Player β → Bool} {p₀ : Player β}
    {w : World (Instr β) (Player β) ℕ}
    {l : List (World (Instr β) (Player β) ℕ × Action ℕ (Call β) Bool)}
    (hl : Trace (playback_system duration may) (.idle p₀) l w) :
    ∃ l' f, Trace (fed_system duration may) (.idle (p₀, .start)) l' (w.watched f) ∧
      l'.map (fun s => (s.1.forget, s.2)) = l :=
  hl.exists_observed Feed.start

/-! ## The property and its conditions -/

variable (stamp : β → ℕ)

/-- libspotify delivers frames of the present source. -/
def DeliversCurrent : {γ : Type} → Instr β γ → Player β × Feed β → Prop
  | _, .delivery d, s => ∀ b ∈ d.frames, stamp b = s.2.source
  | _, _, _ => True

/-- The queue is empty when a track is loaded, and nothing has been accepted between a seek and
the flush after it. -/
def InTime : {γ : Type} → Instr β γ → Player β × Feed β → Prop
  | _, .player_load _, s => s.1.g_playback.queue = []
  | _, .flush, s => s.2.change = .sought → s.2.accepted = []
  | _, _, _ => True

/-- The queue holds only frames of the present source, and of those that were accepted none is
missing. -/
structure Renewed (s : Player β × Feed β) : Prop where
  current : ∀ b ∈ claimed s.1.g_playback.queue, stamp b = s.2.source
  kept : s.2.accepted.Sublist (s.2.returned ++ claimed s.1.g_playback.queue)

section Decidable

variable {stamp}

instance decidableDeliversCurrent {γ : Type} (i : Instr β γ) (s : Player β × Feed β) :
    Decidable (DeliversCurrent stamp i s) := by
  induction i using Instr.casesOn with
  | delivery d => exact inferInstanceAs (Decidable (∀ b ∈ d.frames, stamp b = s.2.source))
  | _ => exact .isTrue trivial

instance decidableInTime [DecidableEq β] {γ : Type} (i : Instr β γ) (s : Player β × Feed β) :
    Decidable (InTime i s) := by
  induction i using Instr.casesOn with
  | player_load _ => exact inferInstanceAs (Decidable (s.1.g_playback.queue = []))
  | flush => exact inferInstanceAs (Decidable (s.2.change = .sought → s.2.accepted = []))
  | _ => exact .isTrue trivial

instance decidableRenewed [DecidableEq β] (s : Player β × Feed β) : Decidable (Renewed stamp s) :=
  decidable_of_iff ((∀ b ∈ claimed s.1.g_playback.queue, stamp b = s.2.source) ∧
    s.2.accepted.Sublist (s.2.returned ++ claimed s.1.g_playback.queue))
    ⟨fun h => ⟨h.1, h.2⟩, fun h => ⟨h.current, h.kept⟩⟩

end Decidable

/-! ## What each instruction does -/

/-- The samples of the queue, also those that a split has moved out of sight, are of the present
source. -/
structure Current (s : Player β × Feed β) : Prop where
  samples : ∀ audio ∈ s.1.g_playback.queue, ∀ b ∈ audio.samples, stamp b = s.2.source
  kept : s.2.accepted.Sublist (s.2.returned ++ claimed s.1.g_playback.queue)

/-- The invariant: the queue is well formed, and from the load of a track or the flush after a
seek until the next flush it is current. -/
structure Fed (s : Player β × Feed β) : Prop where
  wellFormed : s.1.g_playback.WellFormed
  current : s.2.change = .settled ∨ s.2.change = .loaded → Current stamp s

variable {stamp}

/-- A queue whose frames are all current is renewed. -/
lemma Current.is_renewed {s : Player β × Feed β} (h : Current stamp s) : Renewed stamp s where
  current b hb := by
    obtain ⟨audio, ha, hb⟩ := List.mem_flatMap.mp hb
    exact h.samples audio ha b (List.mem_of_mem_take hb)
  kept := h.kept

/-- An empty queue is current as long as nothing was accepted. -/
lemma current_of_empty {s : Player β × Feed β} (hq : s.1.g_playback.queue = [])
    (ha : s.2.accepted = []) : Current stamp s where
  samples := by simp [hq]
  kept := by simp [ha]

/-- Nothing but the queue and the observer decides whether the queue is current. -/
lemma Current.congr {p p' : Player β} {f : Feed β} (h : Current stamp (p, f))
    (hq : p'.g_playback.queue = p.g_playback.queue) : Current stamp (p', f) where
  samples := by
    show ∀ audio ∈ p'.g_playback.queue, _
    rw [hq]
    exact h.samples
  kept := by
    show f.accepted.Sublist (f.returned ++ claimed p'.g_playback.queue)
    rw [hq]
    exact h.kept

/-- An accepted delivery of the present source comes last in the queue. -/
lemma Current.deliver {p : Player β} {f : Feed β} {d : Delivery β} (h : Current stamp (p, f))
    (hd : ∀ b ∈ d.frames, stamp b = f.source) {p' : Player β}
    (hq : p'.g_playback.queue = p.g_playback.queue ++ [d.audio]) :
    Current stamp (p', { f with accepted := f.accepted ++ d.frames }) where
  samples := by
    show ∀ audio ∈ p'.g_playback.queue, _
    rw [hq]
    intro audio ha b hb
    rcases List.mem_append.mp ha with ha | ha
    · exact h.samples audio ha b hb
    · obtain rfl := List.mem_singleton.mp ha
      exact hd b (List.mem_of_mem_take hb)
  kept := by
    show (f.accepted ++ d.frames).Sublist (f.returned ++ claimed p'.g_playback.queue)
    rw [hq, claimed_append, claimed_cons, claimed_nil, List.append_nil, d.claimed_audio,
      ← List.append_assoc]
    exact h.kept.append (List.Sublist.refl _)

/-- A read takes from the front of the queue. -/
lemma Current.read {p : Player β} {f : Feed β} (hwf : p.g_playback.WellFormed)
    (h : Current stamp (p, f)) (size : ℕ) {p' : Player β}
    (hq : p'.g_playback.queue = (p.g_playback.drained size).queue) :
    Current stamp (p', { f with returned := f.returned ++ p.g_playback.copied size }) where
  samples := by
    show ∀ audio ∈ p'.g_playback.queue, _
    rw [hq]
    intro audio ha b hb
    obtain ⟨audio', ha', hb'⟩ := spfs_audio_playback.mem_drained_samples hwf ha hb
    exact h.samples audio' ha' b hb'
  kept := by
    show f.accepted.Sublist (f.returned ++ p.g_playback.copied size ++ claimed p'.g_playback.queue)
    rw [hq, List.append_assoc]
    exact h.kept.trans
      ((List.Sublist.refl _).append (spfs_audio_playback.claimed_sublist_drained hwf size))

/-- Every instruction that is in time keeps the invariant, as long as libspotify delivers frames
of the present source. -/
lemma exec_fed {γ : Type} {i : Instr β γ} {ok : Bool} {p p' : Player β} {f : Feed β}
    {r : Option γ} (hs : Fed stamp (p, f)) (hcur : DeliversCurrent stamp i (p, f))
    (hin : InTime i (p, f)) (h : exec duration i ok p = some (r, p')) :
    Fed stamp (p', Feed.saw i r p f) := by
  refine ⟨exec_wellFormed hs.wellFormed h, ?_⟩
  cases i with
  | delivery d =>
    intro hdue
    rcases exec_delivery h with ⟨ha, -, rfl⟩ | ⟨ha, -, rfl⟩
    · simp only [Feed.saw, ha, if_true] at hdue ⊢
      exact (hs.current hdue).deliver hcur rfl
    · simp only [Feed.saw, ha, Bool.false_eq_true, if_false] at hdue ⊢
      exact hs.current hdue
  | audio size =>
    intro hdue
    rcases exec_audio h with ⟨-, ⟨-, -, rfl, rfl⟩ | ⟨-, rfl, rfl⟩⟩
    · exact (hs.current hdue).congr rfl
    · exact (hs.current hdue).read hs.wellFormed size rfl
  | track_info =>
    intro hdue
    obtain ⟨cond, rfl⟩ := exec_track_info_cond h
    exact (hs.current hdue).congr rfl
  | flush =>
    intro hdue
    obtain ⟨-, rfl⟩ := executed_eq h
    by_cases hsought : f.change = .sought
    · exact current_of_empty rfl (hin hsought)
    · -- after any other flush nothing is demanded
      simp [Feed.saw, hsought] at hdue
  | player_load track =>
    intro hdue
    rcases exec_player_load h with ⟨-, rfl, rfl⟩ | ⟨-, rfl, rfl⟩
    · exact current_of_empty hin rfl
    · exact hs.current hdue
  | player_seek offset =>
    intro hdue
    simp [Feed.saw] at hdue
  | played track =>
    intro hdue
    obtain ⟨-, rfl⟩ := executed_eq h
    have hcurrent : Current stamp (p, f) := by
      apply hs.current
      by_cases hl : f.change = .loaded
      · exact .inr hl
      · simpa [Feed.saw, hl] using hdue
    exact ⟨hcurrent.samples, hcurrent.kept⟩
  | ended =>
    intro hdue
    obtain ⟨track, -, -, rfl⟩ := exec_ended h
    exact (hs.current hdue).congr rfl
  | wav_open track =>
    intro hdue
    rcases exec_wav_open h with ⟨-, -, rfl⟩ | ⟨-, -, rfl⟩
    · exact (hs.current hdue).congr rfl
    · exact (hs.current hdue).congr rfl
  | _ =>
    intro hdue
    obtain ⟨-, rfl⟩ := executed_eq h
    exact (hs.current hdue).congr rfl

/-! ## Runs -/

variable {may : ℕ → Call β → Player β → Bool}

/-- A step that is in time keeps the invariant. -/
lemma step_fed {w w' : World (Instr β) (Player β × Feed β) ℕ} {a : Action ℕ (Call β) Bool}
    (hw : Fed stamp w.shared)
    (hok : w.Executes (DeliversCurrent stamp) a ∧ w.Executes InTime a)
    (h : (fed_system duration may).step w a = some w') : Fed stamp w'.shared := by
  obtain ⟨hcur, hin⟩ := hok
  rcases System.step_shared h with ⟨t, c, -, -, hs⟩ | ⟨γ, t, o, i, r, -, hex, he⟩
  · rwa [hs]
  · obtain ⟨he, hf⟩ := System.observe_exec he
    rw [hex] at hcur hin
    have hfed : Fed stamp (w'.shared.1, Feed.saw i r w.shared.1 w.shared.2) :=
      exec_fed hw hcur hin he
    rwa [← hf] at hfed

/-- In every run in which libspotify delivers frames of the present source, and every step is in
time: whenever a change of the source has settled, the queue holds only frames of the new source,
and each of them that was accepted is still there or was returned. -/
theorem renewed {w : World (Instr β) (Player β × Feed β) ℕ}
    {l : List (World (Instr β) (Player β × Feed β) ℕ × Action ℕ (Call β) Bool)}
    (hl : Trace (fed_system duration may) (.idle (.init, .start)) l w)
    (hcur : ∀ s ∈ l, s.1.Executes (DeliversCurrent stamp) s.2)
    (hin : ∀ s ∈ l, s.1.Executes InTime s.2) (hsettled : w.shared.2.change = .settled) :
    Renewed stamp w.shared := by
  have hfed : Fed stamp w.shared := by
    refine hl.invariant ?_ (fun _ _ _ => step_fed) fun s hs => ⟨hcur s hs, hin s hs⟩
    refine ⟨⟨by simp [World.idle, Player.init, spfs_audio_playback_new], rfl⟩, ?_⟩
    intro hdue
    simp [World.idle, Feed.start] at hdue
  exact (hfed.current (.inl hsettled)).is_renewed

/-- One mono frame of the source `n`, each of its bytes being `n`. -/
def frame_of (n : ℕ) : Delivery ℕ := ⟨⟨44100, 1⟩, 1, [n, n], Nat.one_pos, rfl⟩

/-- The frame is delivered. -/
def deliver_frame (n : ℕ) : List (Action ℕ (Call ℕ) Bool) :=
  [.start 1 (.music_delivery (frame_of n)), .step 1 true]

/-- The reader starts a call and executes some steps of it. -/
def reader_runs (c : Call ℕ) (n : ℕ) : List (Action ℕ (Call ℕ) Bool) :=
  .start reader c :: steps reader n

/-- Track 1 is played and read from; then the reader seeks, and a frame of the new position
arrives. -/
def play_read_seek : List (Action ℕ (Call ℕ) Bool) :=
  reader_runs (.play_track 1) 6 ++ deliver_frame 1 ++ reader_runs (.get_audio 2) 3 ++
    deliver_frame 1 ++ reader_runs (.seek_track 5) 3 ++ deliver_frame 2

/-- The theorem at this run. -/
theorem renewed_after_seek : ∃ w : World (Instr ℕ) (Player ℕ × Feed ℕ) ℕ,
    w.shared.2.source = 2 ∧ w.shared.2.accepted = [2, 2] ∧ Renewed id w.shared := by
  obtain ⟨l, w, hl, hok, hsource, hacc, hsettled⟩ := Trace.exists_of_run
    (fed_system (fun _ => 0) one_reader)
    (fun w a => w.Executes (DeliversCurrent id) a ∧ w.Executes InTime a)
    (.idle (.init, .start)) play_read_seek
    (fun w => w.shared.2.source = 2 ∧ w.shared.2.accepted = [2, 2] ∧
      w.shared.2.change = .settled) (by decide)
  exact ⟨w, hsource, hacc,
    renewed hl (fun s hs => (hok s hs).1) (fun s hs => (hok s hs).2) hsettled⟩

/-- A frame of track 1 arrives between the flush and the load of `spotify_play_track` on track 2. -/
def deliver_before_load : List (Action ℕ (Call ℕ) Bool) :=
  reader_runs (.play_track 1) 6 ++ reader_runs (.play_track 2) 2 ++ deliver_frame 1 ++
    steps reader 4

/-- A frame of the new position arrives between the seek and the flush of `spotify_seek_track`. -/
def deliver_before_flush : List (Action ℕ (Call ℕ) Bool) :=
  reader_runs (.play_track 1) 6 ++ reader_runs (.seek_track 5) 2 ++ deliver_frame 2 ++
    steps reader 1

/-- Both functions leave a gap: after `spotify_play_track` has returned true the queue holds a
frame of the old track, and after `spotify_seek_track` has returned a frame of the new position is
gone, which nobody has read. -/
theorem change_lets_in_and_drops :
    (∃ l w, Trace (fed_system (fun _ => 0) one_reader) (.idle (.init, .start)) l w ∧
      (∀ s ∈ l, s.1.Executes (DeliversCurrent id) s.2) ∧ w.shared.2.change = .settled ∧
      w.shared.1.log.head? = some (.played 2) ∧ w.shared.2.source = 2 ∧
      claimed w.shared.1.g_playback.queue = [1, 1] ∧ ¬ Renewed id w.shared) ∧
    (∃ l w, Trace (fed_system (fun _ => 0) one_reader) (.idle (.init, .start)) l w ∧
      (∀ s ∈ l, s.1.Executes (DeliversCurrent id) s.2) ∧ w.shared.2.change = .settled ∧
      w.shared.2.source = 2 ∧ w.shared.2.accepted = [2, 2] ∧ w.shared.2.returned = [] ∧
      claimed w.shared.1.g_playback.queue = [] ∧ ¬ Renewed id w.shared) := by
  constructor
  · exact Trace.exists_of_run (fed_system (fun _ => 0) one_reader)
      (fun w a => w.Executes (DeliversCurrent id) a) (.idle (.init, .start)) deliver_before_load
      (fun w => w.shared.2.change = .settled ∧ w.shared.1.log.head? = some (.played 2) ∧
        w.shared.2.source = 2 ∧ claimed w.shared.1.g_playback.queue = [1, 1] ∧
        ¬ Renewed id w.shared) (by decide)
  · exact Trace.exists_of_run (fed_system (fun _ => 0) one_reader)
      (fun w a => w.Executes (DeliversCurrent id) a) (.idle (.init, .start)) deliver_before_flush
      (fun w => w.shared.2.change = .settled ∧ w.shared.2.source = 2 ∧
        w.shared.2.accepted = [2, 2] ∧ w.shared.2.returned = [] ∧
        claimed w.shared.1.g_playback.queue = [] ∧ ¬ Renewed id w.shared) (by decide)

end Spotifile
