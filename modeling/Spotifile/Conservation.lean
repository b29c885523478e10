import Spotifile.Playback

/-!
# No byte is lost between `spotify_music_delivery` and `spotify_get_audio`

The bytes that the reads have returned, followed by the bytes that the queue claims to hold, should
be the bytes of the accepted deliveries. `conserves_iff` says exactly when they are, over runs in
which nothing flushes the queue: a read that splits a segment has to ask for whole frames. The
branch `sz == 0` of `spotify_get_audio` moves the samples by `size` bytes and takes
`size / (2 * channels)` frames off the counters, so that the fraction of a frame between the two is
returned once more.
-/

namespace Spotifile

open Lib

variable {β : Type} {duration : sp_track → ℤ}

/-! ## The two sums over a history -/

/-- The frames that an event adds to the accepted ones. -/
def Event.frames : Event β → List β
  | .delivered d => d.frames
  | _ => []

/-- The bytes that an event adds to the returned ones. -/
def Event.bytes : Event β → List β
  | .audio _ bytes => bytes
  | _ => []

/-- The frames of all accepted deliveries, the earliest first. -/
def accepted : List (Event β) → List β
  | [] => []
  | e :: log => accepted log ++ e.frames

/-- The bytes that the calls of `spotify_get_audio` returned, the earliest first. -/
def returned : List (Event β) → List β
  | [] => []
  | e :: log => returned log ++ e.bytes

/-- At first nothing was accepted. -/
@[simp] lemma accepted_nil : accepted ([] : List (Event β)) = [] := rfl

/-- What the newest event accepted comes last. -/
@[simp] lemma accepted_cons (e : Event β) (log : List (Event β)) :
    accepted (e :: log) = accepted log ++ e.frames := rfl

/-- At first nothing was returned. -/
@[simp] lemma returned_nil : returned ([] : List (Event β)) = [] := rfl

/-- What the newest event returned comes last. -/
@[simp] lemma returned_cons (e : Event β) (log : List (Event β)) :
    returned (e :: log) = returned log ++ e.bytes := rfl

/-- Nothing is repeated, dropped, altered or reordered. -/
def Player.Conserves (p : Player β) : Prop :=
  returned p.log ++ claimed p.g_playback.queue = accepted p.log

instance decidableConserves [DecidableEq β] (p : Player β) : Decidable p.Conserves :=
  inferInstanceAs (Decidable (_ = _))

/-! ## What the instructions do -/

/-- The instructions that neither touch the queue, nor `playing`, nor the condition variable. -/
def Instr.quiet : {γ : Type} → Instr β γ → Bool
  | _, .set_playing _ | _, .clear_playing | _, .lose_playing | _, .flush | _, .delivery _
  | _, .audio _ | _, .track_info => false
  | _, _ => true

/-- A track is loaded, or libspotify refuses it. -/
lemma exec_player_load {track : sp_track} {ok : Bool} {p p' : Player β} {r : Option Bool}
    (h : exec duration (.player_load track) ok p = some (r, p')) :
    (ok = true ∧ r = some true ∧
      p' = { p with loaded := some track, log := .loaded track :: p.log }) ∨
    (ok = false ∧ r = some false ∧ p' = p) := by
  rw [exec] at h
  split at h
  · next hok =>
    simp only [Option.some.injEq, Prod.mk.injEq] at h
    exact .inl ⟨hok, h.1.symm, h.2.symm⟩
  · next hok =>
    simp only [Option.some.injEq, Prod.mk.injEq] at h
    exact .inr ⟨by simpa using hok, h.1.symm, h.2.symm⟩

/-- Only a loaded track ends. -/
lemma exec_ended {ok : Bool} {p p' : Player β} {r : Option Unit}
    (h : exec duration .ended ok p = some (r, p')) :
    ∃ track, p.loaded = some track ∧ r = some () ∧
      p' = { p with log := .ended track :: p.log } := by
  rw [exec] at h
  split at h
  · cases h
  next track hloaded =>
  simp only [Option.some.injEq, Prod.mk.injEq] at h
  exact ⟨track, hloaded, h.1.symm, h.2.symm⟩

/-- A WAV file is opened, or refused because one is open. -/
lemma exec_wav_open {track : sp_track} {ok : Bool} {p p' : Player β} {r : Option Bool}
    (h : exec duration (.wav_open track) ok p = some (r, p')) :
    (p.music_playing = true ∧ r = some false ∧ p' = p) ∨
    (p.music_playing = false ∧ r = some true ∧
      p' = { p with music_playing := true, handle := some track }) := by
  rw [exec] at h
  split at h
  · next hplaying =>
    simp only [Option.some.injEq, Prod.mk.injEq] at h
    exact .inl ⟨hplaying, h.1.symm, h.2.symm⟩
  · next hplaying =>
    simp only [Option.some.injEq, Prod.mk.injEq] at h
    exact .inr ⟨by simpa using hplaying, h.1.symm, h.2.symm⟩

/-- What a quiet instruction leaves as it is. -/
lemma exec_quiet {γ : Type} {i : Instr β γ} {ok : Bool} {p p' : Player β} {r : Option γ}
    (hi : i.quiet = true) (h : exec duration i ok p = some (r, p')) :
    p'.g_playback.queue = p.g_playback.queue ∧ p'.g_playback.nsamples = p.g_playback.nsamples ∧
    p'.g_playback.playing = p.g_playback.playing ∧ p'.cond = p.cond ∧
    accepted p'.log = accepted p.log ∧ returned p'.log = returned p.log := by
  cases i <;> simp only [Instr.quiet, Bool.false_eq_true] at hi
  case player_load track =>
    rcases exec_player_load h with ⟨-, -, rfl⟩ | ⟨-, -, rfl⟩
    · simp [Event.frames, Event.bytes]
    · simp
  case ended =>
    obtain ⟨track, -, -, rfl⟩ := exec_ended h
    simp [Event.frames, Event.bytes]
  case wav_open track =>
    rcases exec_wav_open h with ⟨-, -, rfl⟩ | ⟨-, -, rfl⟩
    · simp
    · simp
  all_goals
    obtain ⟨-, rfl⟩ := executed_eq h
    simp [Event.frames, Event.bytes]

/-- A delivery is either accepted, with a signal, or changes nothing. -/
lemma exec_delivery {d : Delivery β} {ok : Bool} {p p' : Player β} {r : Option ℕ}
    (h : exec duration (.delivery d) ok p = some (r, p')) :
    (p.g_playback.accepts d = true ∧ r = some d.num_frames ∧ p' = { p with
      g_playback := p.g_playback.deliver d
      cond := p.cond.signal
      log := .delivered d :: p.log }) ∨
    (p.g_playback.accepts d = false ∧ r = some 0 ∧ p' = p) := by
  rw [exec] at h
  split at h
  · next ha =>
    simp only [Option.some.injEq, Prod.mk.injEq] at h
    exact .inl ⟨ha, h.1.symm, h.2.symm⟩
  · next ha =>
    simp only [Option.some.injEq, Prod.mk.injEq] at h
    exact .inr ⟨by simpa using ha, h.1.symm, h.2.symm⟩

/-- The critical section of `spotify_get_audio` goes to sleep on an empty queue while a track is
playing, and returns otherwise. -/
lemma exec_audio {size : ℕ} {ok : Bool} {p p' : Player β} {r : Option (List β)}
    (h : exec duration (.audio size) ok p = some (r, p')) :
    p.cond ≠ .parked ∧
    ((p.g_playback.playing ≠ none ∧ p.g_playback.queue = [] ∧ r = none ∧ p' = { p with
      g_playback := { p.g_playback with stutter := p.g_playback.stutter + 1 }
      cond := .parked }) ∨
    ((p.g_playback.playing = none ∨ p.g_playback.queue ≠ []) ∧
      r = some (p.g_playback.copied size) ∧ p' = { p with
        g_playback := p.g_playback.drained size
        cond := .awake
        log := .audio size (p.g_playback.copied size) :: p.log })) := by
  rw [exec] at h
  split at h
  · cases h
  next hc =>
  refine ⟨hc, ?_⟩
  split at h
  · next hw =>
    simp only [Option.some.injEq, Prod.mk.injEq] at h
    exact .inl ⟨Option.isSome_iff_ne_none.mp hw.1, hw.2, h.1.symm, h.2.symm⟩
  · next hw =>
    simp only [Option.some.injEq, Prod.mk.injEq] at h
    refine .inr ⟨?_, h.1.symm, h.2.symm⟩
    rwa [not_and_or, Bool.not_eq_true, Option.isSome_eq_false_iff, Option.isNone_iff_eq_none]
      at hw

/-- The critical section of `spotify_get_track_info` returns at once if nothing is playing, goes to
sleep on an empty queue, and otherwise reads the format of the first segment. -/
lemma exec_track_info {ok : Bool} {p p' : Player β} {r : Option track_info}
    (h : exec duration .track_info ok p = some (r, p')) :
    p.cond ≠ .parked ∧
    ((p.cond = .awake ∧ p.g_playback.playing = none ∧ r = some ⟨-1, 0, 0⟩ ∧ p' = p) ∨
    ((p.cond = .awake → p.g_playback.playing ≠ none) ∧
      ((p.g_playback.queue = [] ∧ r = none ∧ p' = { p with cond := .parked }) ∨
      ∃ audio rest d, p.g_playback.queue = audio :: rest ∧
        (d = -1 ∨ ∃ track, p.g_playback.playing = some track ∧ d = duration track) ∧
        r = some ⟨d, audio.channels, audio.rate⟩ ∧ p' = { p with cond := .awake }))) := by
  rw [exec] at h
  split at h
  · cases h
  next hc =>
  refine ⟨hc, ?_⟩
  split at h
  · next hw =>
    simp only [Option.some.injEq, Prod.mk.injEq] at h
    exact .inl ⟨hw.1, hw.2, h.1.symm, h.2.symm⟩
  next hw =>
  refine .inr ⟨fun ha hn => hw ⟨ha, hn⟩, ?_⟩
  split at h
  · next hq =>
    simp only [Option.some.injEq, Prod.mk.injEq] at h
    exact .inl ⟨hq, h.1.symm, h.2.symm⟩
  next audio rest hq =>
  right
  split at h
  · next track hp =>
    simp only [Option.some.injEq, Prod.mk.injEq] at h
    exact ⟨audio, rest, _, hq, .inr ⟨track, hp, rfl⟩, h.1.symm, h.2.symm⟩
  · simp only [Option.some.injEq, Prod.mk.injEq] at h
    exact ⟨audio, rest, _, hq, .inl rfl, h.1.symm, h.2.symm⟩

/-- The critical section of `spotify_get_track_info` changes nothing but the condition variable. -/
lemma exec_track_info_cond {ok : Bool} {p p' : Player β} {r : Option track_info}
    (h : exec duration .track_info ok p = some (r, p')) : ∃ cond, p' = { p with cond := cond } := by
  rcases exec_track_info h with ⟨-, ⟨-, -, -, rfl⟩ | ⟨-, ⟨-, -, rfl⟩ | ⟨_, _, _, -, -, -, rfl⟩⟩⟩
  · exact ⟨_, rfl⟩
  · exact ⟨_, rfl⟩
  · exact ⟨_, rfl⟩

/-- Where it answers a duration, this is the one of the playing track, with the format of the first
segment. -/
lemma exec_track_info_some {ok : Bool} {p p' : Player β} {info : track_info}
    (h : exec duration .track_info ok p = some (some info, p')) (hd : ¬ info.duration < 0) :
    ∃ track audio rest, p.g_playback.playing = some track ∧ p.g_playback.queue = audio :: rest ∧
      info = ⟨duration track, audio.channels, audio.rate⟩ := by
  rcases exec_track_info h with
    ⟨-, ⟨-, -, hr, -⟩ | ⟨-, ⟨-, hr, -⟩ | ⟨audio, rest, d, hq, hdur, hr, -⟩⟩⟩
  · obtain rfl := Option.some.inj hr
    exact absurd neg_one_lt_zero hd
  · cases hr
  · obtain rfl := Option.some.inj hr
    rcases hdur with rfl | ⟨track, hpl, rfl⟩
    · exact absurd neg_one_lt_zero hd
    · exact ⟨track, audio, rest, hpl, hq, rfl⟩

/-- The event that an instruction adds to the history, if it adds one. -/
def Instr.adds : {γ : Type} → Instr β γ → Event β → Prop
  | _, .lose_playing, e => e = .token_lost
  | _, .delivery d, e => e = .delivered d
  | _, .audio size, e => ∃ bytes, e = .audio size bytes
  | _, .player_load track, e => e = .loaded track
  | _, .ended, e => ∃ track, e = .ended track
  | _, .refused size, e => e = .audio size []
  | _, .played track, e => e = .played track
  | _, .wav_returned track offset size bytes, e => e = .wav track offset size bytes
  | _, _, _ => False

/-- An instruction adds at most that event. -/
lemma exec_log_cases {γ : Type} {i : Instr β γ} {ok : Bool} {p p' : Player β} {r : Option γ}
    (h : exec duration i ok p = some (r, p')) :
    p'.log = p.log ∨ ∃ e, i.adds e ∧ p'.log = e :: p.log := by
  cases i with
  | delivery d =>
    rcases exec_delivery h with ⟨-, -, rfl⟩ | ⟨-, -, rfl⟩
    · exact .inr ⟨_, rfl, rfl⟩
    · exact .inl rfl
  | audio size =>
    rcases exec_audio h with ⟨-, ⟨-, -, -, rfl⟩ | ⟨-, -, rfl⟩⟩
    · exact .inl rfl
    · exact .inr ⟨_, ⟨_, rfl⟩, rfl⟩
  | track_info =>
    obtain ⟨cond, rfl⟩ := exec_track_info_cond h
    exact .inl rfl
  | player_load track =>
    rcases exec_player_load h with ⟨-, -, rfl⟩ | ⟨-, -, rfl⟩
    · exact .inr ⟨_, rfl, rfl⟩
    · exact .inl rfl
  | ended =>
    obtain ⟨track, -, -, rfl⟩ := exec_ended h
    exact .inr ⟨_, ⟨track, rfl⟩, rfl⟩
  | wav_open track =>
    rcases exec_wav_open h with ⟨-, -, rfl⟩ | ⟨-, -, rfl⟩
    · exact .inl rfl
    · exact .inl rfl
  | lose_playing | refused size | played track | wav_returned track offset size bytes =>
    obtain ⟨-, rfl⟩ := executed_eq h
    exact .inr ⟨_, rfl, rfl⟩
  | _ =>
    obtain ⟨-, rfl⟩ := executed_eq h
    exact .inl rfl

/-- The instructions with a `g_cond_wait` in them. -/
def Instr.waits : {γ : Type} → Instr β γ → Bool
  | _, .audio _ | _, .track_info => true
  | _, _ => false

/-- The others end with a value. -/
lemma exec_ends {γ : Type} {i : Instr β γ} {ok : Bool} {p p' : Player β} {r : Option γ}
    (hi : i.waits = false) (h : exec duration i ok p = some (r, p')) : r ≠ none := by
  rintro rfl
  cases i with
  | audio size => cases hi
  | track_info => cases hi
  | delivery d =>
    rcases exec_delivery h with ⟨-, hr, -⟩ | ⟨-, hr, -⟩
    · cases hr
    · cases hr
  | player_load track =>
    rcases exec_player_load h with ⟨-, hr, -⟩ | ⟨-, hr, -⟩
    · cases hr
    · cases hr
  | ended =>
    obtain ⟨track, -, hr, -⟩ := exec_ended h
    cases hr
  | wav_open track =>
    rcases exec_wav_open h with ⟨-, hr, -⟩ | ⟨-, hr, -⟩
    · cases hr
    · cases hr
  | _ => cases h

/-! ## The invariant of every run -/

/-- Every instruction keeps the queue well formed. -/
lemma exec_wellFormed {γ : Type} {i : Instr β γ} {ok : Bool} {p p' : Player β} {r : Option γ}
    (hp : p.g_playback.WellFormed) (h : exec duration i ok p = some (r, p')) :
    p'.g_playback.WellFormed := by
  by_cases hi : i.quiet = true
  · obtain ⟨hq, hn, -⟩ := exec_quiet hi h
    exact ⟨by rw [hq]; exact hp.queue, by rw [hq, hn]; exact hp.nsamples⟩
  · cases i <;> first | exact absurd rfl hi | skip
    case delivery d =>
      rcases exec_delivery h with ⟨ha, -, rfl⟩ | ⟨-, -, rfl⟩
      · exact hp.deliver ha
      · exact hp
    case audio size =>
      rcases exec_audio h with ⟨-, ⟨-, -, -, rfl⟩ | ⟨-, -, rfl⟩⟩
      · exact ⟨hp.queue, hp.nsamples⟩
      · exact hp.drained size
    case track_info =>
      obtain ⟨cond, rfl⟩ := exec_track_info_cond h
      exact hp
    case flush =>
      obtain ⟨-, rfl⟩ := executed_eq h
      exact hp.flush
    all_goals
      obtain ⟨-, rfl⟩ := executed_eq h
      exact ⟨hp.queue, hp.nsamples⟩

variable {may : ℕ → Call β → Player β → Bool}

/-- Every step keeps the queue well formed, whatever the threads do. -/
lemma step_wellFormed {w w' : World (Instr β) (Player β) ℕ} {a : Action ℕ (Call β) Bool}
    (hw : w.shared.g_playback.WellFormed)
    (h : (playback_system duration may).step w a = some w') : w'.shared.g_playback.WellFormed := by
  rcases System.step_shared h with ⟨t, c, -, -, hs⟩ | ⟨γ, t, o, i, r, -, -, he⟩
  · rwa [hs]
  · exact exec_wellFormed hw he

/-! ## Conservation -/

/-- The instruction is not a flush. -/
def NoFlush : {γ : Type} → Instr β γ → Player β → Prop
  | _, .flush, _ => False
  | _, _, _ => True

instance decidableNoFlush : {γ : Type} → (i : Instr β γ) → (p : Player β) →
    Decidable (NoFlush i p)
  | _, i, _ => by cases i <;> first | exact .isTrue trivial | exact .isFalse id

/-- A read that splits a segment asks for whole frames of it. -/
def AlignedRead : {γ : Type} → Instr β γ → Player β → Prop
  | _, .audio size, p => p.g_playback.Aligned size
  | _, _, _ => True

/-- A read conserves the bytes precisely when it is aligned. -/
lemma drained_conserves_iff {p : Player β} (hwf : p.g_playback.WellFormed) (hp : p.Conserves)
    (size : ℕ) :
    returned p.log ++ p.g_playback.copied size ++ claimed (p.g_playback.drained size).queue
      = accepted p.log ↔ p.g_playback.Aligned size := by
  constructor
  · intro hc audio hs
    have hlen := spfs_audio_playback.length_copied_add_claimed hwf hs
    have hbefore := congrArg List.length hp
    have hafter := congrArg List.length hc
    simp only [List.length_append] at hbefore hafter
    exact Nat.dvd_of_mod_eq_zero (by omega)
  · intro hal
    rw [List.append_assoc, spfs_audio_playback.copied_append_claimed hwf hal]
    exact hp

/-- A step other than a flush leads from a state that conserves the bytes to another one precisely
when it is aligned. -/
lemma step_conserves_iff {w w' : World (Instr β) (Player β) ℕ} {a : Action ℕ (Call β) Bool}
    (hwf : w.shared.g_playback.WellFormed) (hw : w.shared.Conserves)
    (hflush : w.Executes NoFlush a)
    (h : (playback_system duration may).step w a = some w') :
    w'.shared.Conserves ↔ w.Executes AlignedRead a := by
  rcases System.step_shared h with ⟨t, c, rfl, -, hs⟩ | ⟨γ, t, o, i, r, -, hex, he⟩
  · rw [hs]
    exact ⟨fun _ => trivial, fun _ => hw⟩
  · rw [hex] at hflush
    rw [hex]
    change exec duration i o w.shared = some (r, w'.shared) at he
    -- an instruction that leaves the queue and the two sums alone
    have same : w'.shared.g_playback.queue = w.shared.g_playback.queue →
        accepted w'.shared.log = accepted w.shared.log →
        returned w'.shared.log = returned w.shared.log → w'.shared.Conserves := by
      intro hq ha hr
      rw [Player.Conserves, hq, ha, hr]
      exact hw
    by_cases hi : i.quiet = true
    · obtain ⟨hq, -, -, -, ha, hr⟩ := exec_quiet hi he
      apply iff_of_true (same hq ha hr)
      cases i <;> trivial
    · cases i <;> first | exact absurd rfl hi | skip
      case delivery d =>
        refine iff_of_true ?_ trivial
        rcases exec_delivery he with ⟨-, -, hw'⟩ | ⟨-, -, hw'⟩
        · rw [Player.Conserves, hw']
          simp only [deliver_queue, claimed_append, claimed_cons, claimed_nil, accepted_cons,
            returned_cons, Event.frames, Event.bytes, d.claimed_audio, List.append_nil]
          rw [← List.append_assoc, hw]
        · exact same (by rw [hw']) (by rw [hw']) (by rw [hw'])
      case audio size =>
        rcases exec_audio he with ⟨-, ⟨-, hq, -, hw'⟩ | ⟨-, -, hw'⟩⟩
        · apply iff_of_true (same (by rw [hw']) (by rw [hw']) (by rw [hw']))
          intro audio hs
          simp [spfs_audio_playback.Splits, hq] at hs
        · rw [Player.Conserves, hw']
          simp only [returned_cons, accepted_cons, Event.frames, Event.bytes, List.append_nil]
          exact drained_conserves_iff hwf hw size
      case track_info =>
        refine iff_of_true ?_ trivial
        obtain ⟨cond, hw'⟩ := exec_track_info_cond he
        exact same (by rw [hw']) (by rw [hw']) (by rw [hw'])
      case flush => exact absurd hflush id
      all_goals
        obtain ⟨-, hw'⟩ := executed_eq he
        refine iff_of_true (same ?_ ?_ ?_) trivial <;> rw [← hw'] <;>
          simp [Event.frames, Event.bytes]

/-- The state in which a run of deliveries and reads begins: the queue is empty. -/
structure Player.Fresh (p : Player β) : Prop where
  queue : p.g_playback.queue = []
  nsamples : p.g_playback.nsamples = 0
  log : p.log = []

/-- In a run without a flush no byte is repeated, dropped, altered or reordered, in any of the
states it passes through, precisely when every read that splits a segment asks for whole frames
of it. -/
theorem conserves_iff {p₀ : Player β} {w : World (Instr β) (Player β) ℕ}
    {l : List (World (Instr β) (Player β) ℕ × Action ℕ (Call β) Bool)} (hp₀ : p₀.Fresh)
    (hl : Trace (playback_system duration may) (.idle p₀) l w)
    (hflush : ∀ s ∈ l, s.1.Executes NoFlush s.2) :
    ((∀ s ∈ l, s.1.shared.Conserves) ∧ w.shared.Conserves) ↔
      ∀ s ∈ l, s.1.Executes AlignedRead s.2 := by
  refine Trace.forall_iff (fun w a => w.Executes NoFlush a) (fun w a => w.Executes AlignedRead a)
    (fun w => w.shared.g_playback.WellFormed) (fun w => w.shared.Conserves) hl ?_ ?_ ?_ ?_ hflush
  · exact ⟨by simp [World.idle, hp₀.queue], by simp [World.idle, hp₀.queue, hp₀.nsamples]⟩
  · simp [World.idle, Player.Conserves, hp₀.queue, hp₀.log]
  · intro w a w' hw _ h
    exact step_wellFormed hw h
  · intro w a w' hwf hw hf h
    exact step_conserves_iff hwf hw hf h

/-- The state in which track 1 has just been started. -/
def just_started : Player ℕ :=
  { Player.init with g_playback := { spfs_audio_playback_new with playing := some 1 } }

/-- The player that has just started is fresh. -/
lemma just_started_fresh : just_started.Fresh := ⟨rfl, rfl, rfl⟩

/-- Two mono frames, of the bytes 10, 11 and 20, 21. -/
def two_frames : Delivery ℕ := ⟨⟨44100, 1⟩, 2, [10, 11, 20, 21], by decide, rfl⟩

/-- The frames are delivered, and the reader asks for one byte. -/
def deliver_and_read (size : ℕ) : List (Action ℕ (Call ℕ) Bool) :=
  [.start 1 (.music_delivery two_frames), .step 1 true, .start reader (.get_audio size),
    .step reader true, .step reader true, .step reader true]

/-- The theorem at a run that reads the first of the two frames. -/
theorem conserves_iff_whole_frame : ∃ l w,
    Trace (playback_system (fun _ => 0) fun _ _ _ => true) (.idle just_started) l w ∧
    returned w.shared.log = [10, 11] ∧
    (((∀ s ∈ l, s.1.shared.Conserves) ∧ w.shared.Conserves) ↔
      ∀ s ∈ l, s.1.Executes AlignedRead s.2) := by
  obtain ⟨l, w, hl, hflush, hw⟩ := Trace.exists_of_run
    (playback_system (fun _ => 0) fun _ _ _ => true) (fun w a => w.Executes NoFlush a)
    (.idle just_started) (deliver_and_read 2) (fun w => returned w.shared.log = [10, 11])
    (by decide)
  exact ⟨l, w, hl, hw, conserves_iff just_started_fresh hl hflush⟩

/-- After a read of one byte the queue claims to hold four bytes, of which the last is there
twice. -/
theorem read_of_one_byte_repeats : ∃ l w,
    Trace (playback_system (fun _ => 0) fun _ _ _ => true) (.idle just_started) l w ∧
    (∀ s ∈ l, s.1.Executes NoFlush s.2) ∧ accepted w.shared.log = [10, 11, 20, 21] ∧
    returned w.shared.log = [10] ∧ claimed w.shared.g_playback.queue = [11, 20, 21, 21] ∧
    ¬ w.shared.Conserves := by
  obtain ⟨l, w, hl, hflush, hw⟩ := Trace.exists_of_run
    (playback_system (fun _ => 0) fun _ _ _ => true) (fun w a => w.Executes NoFlush a)
    (.idle just_started) (deliver_and_read 1)
    (fun w => accepted w.shared.log = [10, 11, 20, 21] ∧ returned w.shared.log = [10] ∧
      claimed w.shared.g_playback.queue = [11, 20, 21, 21] ∧ ¬ w.shared.Conserves) (by decide)
  exact ⟨l, w, hl, hflush, hw⟩

end Spotifile
