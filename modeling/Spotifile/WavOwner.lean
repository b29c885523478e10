import Spotifile.Conservation
import Spotifile.WavFile

/-!
# What a WAV file returns belongs to its track

The queue, `playing`, `expoff` and the open file are separate pieces of state; `wav_read` brings
them together only at offset 0, where it starts the track. `wav_reads_own` shows what else a run
needs for every audio byte that is returned to be one of the track of the file, and for every byte
of a header to be one of its header: a first read at another offset must not find another track
playing, and a change of track must not leave frames of the old one in the queue.

Which track a byte belongs to is said by `owner`. libspotify delivers bytes of the track that it
has loaded, in the format of that track.
-/

namespace Spotifile

open Lib

variable {β : Type} (owner : β → sp_track) (format : sp_track → sp_audioformat)
variable (duration : sp_track → ℤ)

/-! ## The property -/

/-- The header of a track's file. -/
def header_of (track : sp_track) : wav_header :=
  fill_wav_header (format track).channels (format track).sample_rate (duration track)

/-- Bytes that a read at `offset` on the file of `track` may return: audio of the track, and the
bytes of its header at their places. -/
def OwnBytes (track : sp_track) (offset : ℕ) (bytes : List (UInt8 ⊕ β)) : Prop :=
  (∀ b, .inr b ∈ bytes → owner b = track) ∧
  ∀ i b, bytes[i]? = some (.inl b) → (header_of format duration track).bytes[offset + i]? = some b

/-- Every read of a WAV file has returned bytes of its own track. -/
def ReadsOwn (log : List (Event β)) : Prop :=
  ∀ track offset size bytes, .wav track offset size bytes ∈ log →
    OwnBytes owner format duration track offset bytes

/-- libspotify delivers frames of the track that was loaded last, in the format of that track. -/
def DeliversLoaded : {γ : Type} → Instr β γ → Player β → Prop
  | _, .delivery d, p => ∃ track, p.loaded = some track ∧ d.format = format track ∧
      ∀ b ∈ d.frames, owner b = track
  | _, _, _ => True

/-- A segment of frames of a track, in its format. -/
structure spfs_audio.BelongsTo (audio : spfs_audio β) (track : sp_track) : Prop where
  channels : audio.channels = (format track).channels
  rate : audio.rate = (format track).sample_rate
  samples : ∀ b ∈ audio.samples, owner b = track

/-- When `spotify_play_track` enters the track as the one that is playing, the queue holds no frame
of another track. -/
def FreshQueue : {γ : Type} → Instr β γ → Player β → Prop
  | _, .set_playing track, p =>
    ∀ audio ∈ p.g_playback.queue, audio.BelongsTo owner format track
  | _, _, _ => True

/-- A read at an offset other than 0 finds the track of its own file playing, or none. -/
def StartsOwn : WavCall β → Player β → Prop
  | .wav_read track _ offset, p =>
    offset ≠ 0 → p.g_playback.playing = some track ∨ p.g_playback.playing = none
  | _, _ => True

section Decidable

variable {owner format}

instance decidableDeliversLoaded {γ : Type} (i : Instr β γ) (p : Player β) :
    Decidable (DeliversLoaded owner format i p) := by
  induction i using Instr.casesOn with
  | delivery d => exact inferInstanceAs (Decidable (∃ track ∈ p.loaded, d.format = format track ∧
      ∀ b ∈ d.frames, owner b = track))
  | _ => exact .isTrue trivial

instance decidableBelongsTo (audio : spfs_audio β) (track : sp_track) :
    Decidable (audio.BelongsTo owner format track) :=
  decidable_of_iff (audio.channels = (format track).channels ∧
    audio.rate = (format track).sample_rate ∧ ∀ b ∈ audio.samples, owner b = track)
    ⟨fun h => ⟨h.1, h.2.1, h.2.2⟩, fun h => ⟨h.channels, h.rate, h.samples⟩⟩

instance decidableFreshQueue {γ : Type} (i : Instr β γ) (p : Player β) :
    Decidable (FreshQueue owner format i p) := by
  induction i using Instr.casesOn with
  | set_playing track => exact inferInstanceAs
      (Decidable (∀ audio ∈ p.g_playback.queue, audio.BelongsTo owner format track))
  | _ => exact .isTrue trivial

instance decidableStartsOwn (c : WavCall β) (p : Player β) : Decidable (StartsOwn c p) := by
  induction c using WavCall.casesOn with
  | wav_read track _ offset => exact inferInstanceAs (Decidable (offset ≠ 0 →
      p.g_playback.playing = some track ∨ p.g_playback.playing = none))
  | _ => exact .isTrue trivial

end Decidable

/-! ## Segments and their bytes -/

section Segments

variable {owner format}

/-- The rest of a split segment belongs to the same track. -/
lemma spfs_audio.BelongsTo.split {audio : spfs_audio β} {track : sp_track}
    (h : audio.BelongsTo owner format track) (size : ℕ) :
    (audio.split size).BelongsTo owner format track where
  channels := h.channels
  rate := h.rate
  samples b hb := h.samples b (spfs_audio.mem_split_samples hb)

/-- The loop takes its bytes from the segments, and leaves segments of the same track. -/
lemma get_audio_loop_belongs {track : sp_track} {size : ℕ} {queue : List (spfs_audio β)}
    {nsamples : ℤ} {buf : List β} (hq : ∀ audio ∈ queue, audio.BelongsTo owner format track)
    (hbuf : ∀ b ∈ buf, owner b = track) :
    (∀ audio ∈ (get_audio_loop size queue nsamples buf).1, audio.BelongsTo owner format track) ∧
    ∀ b ∈ (get_audio_loop size queue nsamples buf).2.2, owner b = track := by
  induction queue generalizing nsamples buf with
  | nil => exact ⟨by simp [get_audio_loop], hbuf⟩
  | cons audio queue ih =>
    have haudio := hq audio (by simp)
    have hrest : ∀ a ∈ queue, a.BelongsTo owner format track := fun a ha => hq a (by simp [ha])
    rw [get_audio_loop]
    split
    · refine ih hrest fun b hb => ?_
      rcases List.mem_append.mp hb with hb | hb
      · exact hbuf b hb
      · exact haudio.samples b (List.mem_of_mem_take hb)
    · split
      · refine ⟨fun a ha => ?_, fun b hb => haudio.samples b (List.mem_of_mem_take hb)⟩
        rcases List.mem_cons.mp ha with rfl | ha
        · exact haudio.split size
        · exact hrest a ha
      · exact ⟨hq, hbuf⟩

end Segments

/-! ## The discipline -/

/-- The queue holds frames of the loaded track only, and no other track is playing. -/
structure Player.Own (p : Player β) : Prop where
  queue : ∀ audio ∈ p.g_playback.queue,
    ∃ track, p.loaded = some track ∧ audio.BelongsTo owner format track
  playing : ∀ track, p.g_playback.playing = some track → p.loaded = some track

/-- What the reader relies on the callbacks to do. -/
structure OwnRely (p p' : Player β) : Prop where
  loaded : p'.loaded = p.loaded
  own : p.Own owner format → p'.Own owner format
  playing : p'.g_playback.playing = p.g_playback.playing ∨ p'.g_playback.playing = none

/-- The terms between the reader and the callbacks. -/
def own_discipline : Discipline (Instr β) (Player β) ℕ (WavCall β) where
  inv p := ReadsOwn owner format duration p.log
  rely t p p' := t = reader → OwnRely owner format p p'
  idle t p := t = reader → p.Own owner format
  ok i p := DeliversLoaded owner format i p ∧ FreshQueue owner format i p
  okStart _ c p := StartsOwn c p

/-- The two steps of `spotify_play_track` that change the track. -/
def Instr.loads : {γ : Type} → Instr β γ → Bool
  | _, .set_playing _ | _, .player_load _ => true
  | _, _ => false

variable {owner format duration}

/-- A step that changes neither the loaded track, nor the queue, nor `playing`. -/
lemma OwnRely.of_same {p p' : Player β} (hloaded : p'.loaded = p.loaded)
    (hq : p'.g_playback.queue = p.g_playback.queue)
    (hpl : p'.g_playback.playing = p.g_playback.playing) : OwnRely owner format p p' := by
  refine ⟨hloaded, fun h => ⟨?_, ?_⟩, .inl hpl⟩
  · rw [hq, hloaded]
    exact h.queue
  · rw [hpl, hloaded]
    exact h.playing

/-- A step that takes `playing` away. -/
lemma OwnRely.of_clear {p p' : Player β} (hloaded : p'.loaded = p.loaded)
    (hq : p'.g_playback.queue = p.g_playback.queue) (hpl : p'.g_playback.playing = none) :
    OwnRely owner format p p' := by
  refine ⟨hloaded, fun h => ⟨?_, ?_⟩, .inr hpl⟩
  · rw [hq, hloaded]
    exact h.queue
  · intro track ht
    rw [hpl] at ht
    cases ht

/-- Every instruction but the two that change the track does what the reader relies on. -/
lemma exec_own {γ : Type} {i : Instr β γ} {ok : Bool} {p p' : Player β} {r : Option γ}
    (hi : i.loads = false) (hok : DeliversLoaded owner format i p)
    (h : exec duration i ok p = some (r, p')) : OwnRely owner format p p' := by
  cases i with
  | set_playing track => cases hi
  | player_load track => cases hi
  | delivery d =>
    rcases exec_delivery h with ⟨-, -, rfl⟩ | ⟨-, -, rfl⟩
    · obtain ⟨track, hl, hf, hown⟩ := hok
      refine ⟨rfl, fun hp => ⟨?_, hp.playing⟩, .inl rfl⟩
      intro audio ha
      rcases List.mem_append.mp ha with ha | ha
      · exact hp.queue audio ha
      · obtain rfl := List.mem_singleton.mp ha
        refine ⟨track, hl, congrArg sp_audioformat.channels hf,
        congrArg sp_audioformat.sample_rate hf, ?_⟩
        intro b hb
        exact hown b (List.mem_of_mem_take hb)
    · exact .of_same rfl rfl rfl
  | audio size =>
    rcases exec_audio h with ⟨-, ⟨-, -, -, rfl⟩ | ⟨-, -, rfl⟩⟩
    · exact .of_same rfl rfl rfl
    · refine ⟨rfl, fun hp => ⟨?_, hp.playing⟩, .inl rfl⟩
      intro audio ha
      rcases hl : p.loaded with _ | track
      · have hnil : p.g_playback.queue = [] := by
          refine List.eq_nil_iff_forall_not_mem.mpr fun a ha => ?_
          obtain ⟨track, ht, -⟩ := hp.queue a ha
          rw [hl] at ht
          cases ht
        have ha : audio ∈ (get_audio_loop size p.g_playback.queue p.g_playback.nsamples []).1 := ha
        rw [hnil] at ha
        cases ha
      · refine ⟨track, rfl, (get_audio_loop_belongs ?_ ?_).1 audio ha⟩
        · intro a ha
          obtain ⟨track', ht, hb⟩ := hp.queue a ha
          rw [hl] at ht
          exact Option.some.inj ht ▸ hb
        · simp
  | track_info =>
    obtain ⟨cond, rfl⟩ := exec_track_info_cond h
    exact .of_same rfl rfl rfl
  | flush =>
    obtain ⟨-, rfl⟩ := executed_eq h
    exact ⟨rfl, fun hp => ⟨by simp, hp.playing⟩, .inl rfl⟩
  | clear_playing =>
    obtain ⟨-, rfl⟩ := executed_eq h
    exact .of_clear rfl rfl rfl
  | lose_playing =>
    obtain ⟨-, rfl⟩ := executed_eq h
    exact .of_clear rfl rfl rfl
  | ended =>
    obtain ⟨track, -, -, rfl⟩ := exec_ended h
    exact .of_same rfl rfl rfl
  | wav_open track =>
    rcases exec_wav_open h with ⟨-, -, rfl⟩ | ⟨-, -, rfl⟩
    · exact .of_same rfl rfl rfl
    · exact .of_same rfl rfl rfl
  | _ =>
    obtain ⟨-, rfl⟩ := executed_eq h
    exact .of_same rfl rfl rfl

/-- What has to hold in front of an instruction for the reads to stay owned. -/
def OwnPre (owner : β → sp_track) (format : sp_track → sp_audioformat)
    (duration : sp_track → ℤ) : {γ : Type} → Instr β γ → Prop
  | _, .wav_returned track offset _ bytes => OwnBytes owner format duration track offset bytes
  | _, _ => True

/-- A read in the history was there before, or the instruction is the return of `wav_read`. -/
lemma exec_mem_wav {γ : Type} {i : Instr β γ} {ok : Bool} {p p' : Player β} {r : Option γ}
    {track : sp_track} {offset size : ℕ} {bytes : List (UInt8 ⊕ β)}
    (h : exec duration i ok p = some (r, p')) (hmem : .wav track offset size bytes ∈ p'.log) :
    .wav track offset size bytes ∈ p.log ∨ i.adds (.wav track offset size bytes) := by
  rcases exec_log_cases h with hlog | ⟨e, hadds, hlog⟩
  · exact .inl (hlog ▸ hmem)
  · rw [hlog] at hmem
    rcases List.mem_cons.mp hmem with rfl | hmem
    · exact .inr hadds
    · exact .inl hmem

/-- What was returned stays owned if the read that an instruction adds is. -/
lemma exec_readsOwn {γ : Type} {i : Instr β γ} {ok : Bool} {p p' : Player β} {r : Option γ}
    (hp : ReadsOwn owner format duration p.log) (hpre : OwnPre owner format duration i)
    (h : exec duration i ok p = some (r, p')) : ReadsOwn owner format duration p'.log := by
  intro track offset size bytes hmem
  rcases exec_mem_wav h hmem with hmem | hadds
  · exact hp track offset size bytes hmem
  · cases i with
    | wav_returned track' offset' size' bytes' =>
      obtain ⟨rfl, rfl, rfl, rfl⟩ := Event.wav.inj hadds
      exact hpre
    | _ => simp [Instr.adds] at hadds

/-! ## Every call keeps to the discipline -/

section Calls

variable {t : ℕ} {α γ : Type}

variable (owner format duration) in
/-- The rest of a program of thread `t` keeps to the discipline and ends in `Q`. -/
abbrev OwnSafe (t : ℕ) {α : Type} (Q : α → Player β → Prop) (k : Prog (Instr β) α)
    (p : Player β) : Prop :=
  Prog.Safe (wav_system duration) (own_discipline owner format duration) t Q k p

/-- An assertion of the reader that no callback can break. -/
def OwnStable (owner : β → sp_track) (format : sp_track → sp_audioformat)
    (P : Player β → Prop) : Prop :=
  ∀ p p', OwnRely owner format p p' → P p → P p'

/-- The rule for an instruction of the reader that does not change the track: what no callback can
break it does not break either. -/
lemma OwnSafe.call {Q : α → Player β → Prop} {i : Instr β γ} {k : γ → Prog (Instr β) α}
    {p : Player β} (P : Player β → Prop) (hP : P p) (hstable : OwnStable owner format P)
    (hloads : i.loads = false) (hpre : OwnPre owner format duration i)
    (hk : ∀ ok v p p', P p → P p' → exec duration i ok p = some (some v, p') →
      OwnSafe owner format duration reader Q (k v) p') :
    OwnSafe owner format duration reader Q (.call i k) p := by
  refine Prog.Safe.call P hP (fun p p' _ hrely h => hstable p p' (hrely rfl) h) ?_
  intro p o r p' hinv hP hok he
  have hkept : P p' := hstable p p' (exec_own hloads hok.1 he) hP
  refine ⟨exec_readsOwn hinv hpre he, fun u hu hreader => absurd hreader hu, fun _ => hkept, ?_⟩
  rintro v rfl
  exact hk o v p p' hP hkept he

/-- The rule for an instruction of a callback. -/
lemma OwnSafe.callback {Q : α → Player β → Prop} {i : Instr β γ} {k : γ → Prog (Instr β) α}
    {p : Player β} (hloads : i.loads = false) (hpre : OwnPre owner format duration i)
    (hk : ∀ v p, OwnSafe owner format duration t Q (k v) p) :
    OwnSafe owner format duration t Q (.call i k) p := by
  refine Prog.Safe.call (fun _ => True) trivial (fun _ _ _ _ _ => trivial) ?_
  intro p o r p' hinv _ hok he
  exact ⟨exec_readsOwn hinv hpre he, fun _ _ _ => exec_own hloads hok.1 he, fun _ => trivial,
    fun v _ => hk v p'⟩

variable (owner format) in
/-- The track of the file is playing, or none. -/
def Ready (track : sp_track) (p : Player β) : Prop :=
  p.Own owner format ∧ (p.g_playback.playing = some track ∨ p.g_playback.playing = none)

variable (owner format) in
/-- The track of the file is loaded. -/
def Mine (track : sp_track) (p : Player β) : Prop :=
  p.Own owner format ∧ p.loaded = some track

/-- The bytes of the queue stay where they belong. -/
lemma stable_own : OwnStable owner format (Player.Own owner format) :=
  fun _ _ hrely h => hrely.own h

/-- No other thread starts a track. -/
lemma stable_ready (track : sp_track) : OwnStable owner format (Ready owner format track) := by
  intro p p' hrely h
  refine ⟨hrely.own h.1, ?_⟩
  rcases hrely.playing with hpl | hpl
  · rw [hpl]
    exact h.2
  · exact .inr hpl

/-- The track stays loaded. -/
lemma stable_mine (track : sp_track) : OwnStable owner format (Mine owner format track) :=
  fun _ _ hrely h => ⟨hrely.own h.1, hrely.loaded.trans h.2⟩

/-- With the track of the file loaded, what is copied from the queue belongs to it. -/
lemma Mine.copied {track : sp_track} {p : Player β} (h : Mine owner format track p) (size : ℕ) :
    ∀ b ∈ p.g_playback.copied size, owner b = track := by
  refine (@get_audio_loop_belongs _ _ format _ _ _ _ _ ?_ (by simp)).2
  intro audio ha
  obtain ⟨track', ht, hb⟩ := h.1.queue audio ha
  rw [h.2] at ht
  exact Option.some.inj ht ▸ hb

/-- `spotify_get_audio` returns bytes of the track of the file. -/
lemma get_audio_own {track : sp_track} (size : ℕ) {p : Player β}
    (hp : Ready owner format track p) :
    OwnSafe owner format duration reader
      (fun bytes p => p.Own owner format ∧ ∀ b ∈ bytes, owner b = track)
      (spotify_get_audio size) p := by
  have refuse : ∀ p : Player β, p.Own owner format → OwnSafe owner format duration reader
      (fun bytes p => p.Own owner format ∧ ∀ b ∈ bytes, owner b = track)
      (do
        Prog.of (.set_done false)
        Prog.of (.refused size)
        pure ([] : List β)) p := by
    intro p hp
    refine OwnSafe.call _ hp stable_own rfl trivial fun _ _ _ _ _ h _ => ?_
    refine OwnSafe.call _ h stable_own rfl trivial fun _ _ _ _ _ h _ => ?_
    exact ⟨h, by simp⟩
  unfold spotify_get_audio spotify_is_playing
  simp only [Prog.of_bind]
  refine OwnSafe.call _ hp (stable_ready track) rfl trivial ?_
  intro ok v p p' _ h he
  obtain ⟨rfl, rfl⟩ := returned_eq he
  rcases h.2 with hpl | hpl
  · have hmine : Mine owner format track p := ⟨h.1, h.1.playing track hpl⟩
    simp only [hpl, Option.isSome_some, if_true]
    refine OwnSafe.call _ hmine (stable_mine track) rfl trivial ?_
    intro ok v p p' _ h _
    cases v with
    | true => exact refuse p' h.1
    | false =>
      refine OwnSafe.call _ h (stable_mine track) rfl trivial ?_
      intro ok v p p' h h' he
      rcases exec_audio he with ⟨-, ⟨-, -, hr, -⟩ | ⟨-, hr, -⟩⟩
      · cases hr
      · obtain rfl := Option.some.inj hr
        exact ⟨h'.1, h.copied size⟩
  · simp only [hpl, Option.isSome_none, Bool.false_eq_true, if_false, Prog.pure_eq, Prog.ret_bind,
      if_true]
    exact refuse p h.1

/-- `spotify_get_track_info` returns the duration and the format of the track of the file. -/
lemma track_info_own {track : sp_track} {p : Player β} (hp : Ready owner format track p) :
    OwnSafe owner format duration reader
      (fun info p => Ready owner format track p ∧ (¬ info.duration < 0 →
        info = ⟨duration track, (format track).channels, (format track).sample_rate⟩))
      spotify_get_track_info p := by
  refine OwnSafe.call _ hp (stable_ready track) rfl trivial ?_
  intro ok v p p' h h' he
  refine ⟨h', fun hd => ?_⟩
  obtain ⟨track', audio, rest, hpl, hq, rfl⟩ := exec_track_info_some he hd
  have htrack : track' = track := by
    rcases h.2 with hpl' | hpl' <;> rw [hpl] at hpl' <;> cases hpl'
    rfl
  subst htrack
  obtain ⟨t, ht, hb⟩ := h.1.queue audio (by simp [hq])
  rw [h.1.playing track' hpl] at ht
  obtain rfl := Option.some.inj ht
  rw [hb.channels, hb.rate]

/-- A seek leaves the track what it is. -/
lemma seek_track_own {track : sp_track} (offset : ℤ) {p : Player β}
    (hp : Ready owner format track p) :
    OwnSafe owner format duration reader (fun _ => Ready owner format track)
      (spotify_seek_track offset) p := by
  unfold spotify_seek_track spfs_audio_playback_flush
  split
  · exact hp
  · refine OwnSafe.call _ hp (stable_ready track) rfl trivial fun _ _ _ _ _ h _ => ?_
    refine OwnSafe.call _ h (stable_ready track) rfl trivial fun _ _ _ _ _ h _ => ?_
    exact OwnSafe.call _ h (stable_ready track) rfl trivial fun _ _ _ _ _ h _ => h

/-- The rule for an instruction of the reader that does not wait, whatever it loads. -/
lemma OwnSafe.step {Q : α → Player β → Prop} {i : Instr β γ} {k : γ → Prog (Instr β) α}
    {p : Player β} (P : Player β → Prop) (hP : P p)
    (hstable : (own_discipline owner format duration).Stable reader P)
    (hwaits : i.waits = false) (hpre : OwnPre owner format duration i)
    (hk : ∀ ok v p p', P p → (own_discipline owner format duration).ok i p →
      exec duration i ok p = some (some v, p') → OwnSafe owner format duration reader Q (k v) p') :
    OwnSafe owner format duration reader Q (.call i k) p := by
  refine Prog.Safe.call P hP hstable ?_
  intro p o r p' hinv hP hok he
  refine ⟨exec_readsOwn hinv hpre he, fun u hu hreader => absurd hreader hu,
    fun hr => absurd hr (exec_ends hwaits he), ?_⟩
  rintro v rfl
  exact hk o v p p' hP hok he

/-- A loaded track is entered as playing. Before that the queue may hold anything. -/
lemma set_playing_own {track : sp_track} {p : Player β} (hp : p.loaded = some track) :
    OwnSafe owner format duration reader
      (fun ok p => p.Own owner format ∧ (ok = true → Ready owner format track p))
      (.call (.set_playing track) fun _ => .call (.played track) fun _ => .ret true) p := by
  refine OwnSafe.step (fun p => p.loaded = some track) hp
    (fun p p' _ hrely h => (hrely rfl).loaded.trans h) rfl trivial ?_
  intro o v p p' h hok he
  obtain ⟨-, rfl⟩ := executed_eq he
  have hready : Ready owner format track { p with
      g_playback := { p.g_playback with playing := some track } } := by
    refine ⟨⟨fun audio ha => ⟨track, h, hok.2 audio ha⟩, fun t ht => ?_⟩, .inl rfl⟩
    exact Option.some.inj ht ▸ h
  exact OwnSafe.call _ hready (stable_ready track) rfl trivial
    fun _ _ _ _ _ h _ => ⟨h.1, fun _ => h⟩

/-- `spotify_play_track` returns true with the track playing, unless its playback is over
already. -/
lemma play_track_own {track : sp_track} {p : Player β} (hp : p.Own owner format) :
    OwnSafe owner format duration reader
      (fun ok p => p.Own owner format ∧ (ok = true → Ready owner format track p))
      (spotify_play_track track) p := by
  unfold spotify_play_track spfs_audio_playback_flush
  simp only [Prog.of_bind]
  refine OwnSafe.call _ hp stable_own rfl trivial ?_
  intro ok v p p' _ h he
  obtain ⟨rfl, rfl⟩ := returned_eq he
  split
  · next hpl =>
    exact OwnSafe.call _ ⟨h, .inl hpl⟩ (stable_ready track) rfl trivial
      fun _ _ _ _ _ h _ => ⟨h.1, fun _ => h⟩
  · refine OwnSafe.call _ h stable_own rfl trivial fun _ _ _ _ _ h _ => ?_
    refine OwnSafe.call _ h stable_own rfl trivial fun _ _ _ p _ h _ => ?_
    refine OwnSafe.step _ h (fun p p' _ hrely h => stable_own p p' (hrely rfl) h) rfl trivial ?_
    intro o v p p' h _ he
    rcases exec_player_load he with ⟨-, hv, rfl⟩ | ⟨-, hv, rfl⟩
    · obtain rfl := Option.some.inj hv
      exact set_playing_own rfl
    · obtain rfl := Option.some.inj hv
      exact ⟨h, fun hv => by cases hv⟩

/-- The bytes of a buffer that begins with bytes of the header of the track. -/
def OwnHeader (format : sp_track → sp_audioformat) (duration : sp_track → ℤ) (track : sp_track)
    (offset : ℕ) (buf : List UInt8) : Prop :=
  ∀ i b, buf[i]? = some b → (header_of format duration track).bytes[offset + i]? = some b

/-- A slice of the header is bytes of the header. -/
lemma ownHeader_slice (track : sp_track) (size offset : ℕ) :
    OwnHeader format duration track offset
      ((header_of format duration track).slice size offset) := by
  intro i b hb
  unfold wav_header.slice at hb
  rw [List.getElem?_take] at hb
  generalize (if offset + size > sizeof_wav_header then sizeof_wav_header - offset else size) = n
    at hb
  by_cases hi : i < n
  · rwa [if_pos hi, List.getElem?_drop] at hb
  · rw [if_neg hi] at hb
    cases hb

/-- Bytes of the header, and behind them audio of the track, are its own. -/
lemma OwnHeader.ownBytes {track : sp_track} {offset : ℕ} {buf : List UInt8} {audio : List β}
    (hbuf : OwnHeader format duration track offset buf) (haudio : ∀ b ∈ audio, owner b = track) :
    OwnBytes owner format duration track offset (buf.map .inl ++ audio.map .inr) := by
  constructor
  · intro b hb
    apply haudio b
    simpa using hb
  · intro i b hb
    apply hbuf i b
    rw [List.getElem?_append, List.getElem?_map, List.getElem?_map] at hb
    split at hb
    · simpa using hb
    · simp at hb

/-- A read that returns nothing returns nothing of another track. -/
lemma ownBytes_nil (track : sp_track) (offset : ℕ) :
    OwnBytes owner format duration track offset [] :=
  ⟨by simp, by simp⟩

variable {track : sp_track}

/-- A read that goes on with audio returns bytes of its own track. -/
lemma wav_read_audio_own {buf : List UInt8} (size offset : ℕ) {p : Player β}
    (hbuf : OwnHeader format duration track offset buf) (hp : Ready owner format track p) :
    OwnSafe owner format duration reader
      (fun bytes p => p.Own owner format ∧ OwnBytes owner format duration track offset bytes)
      (wav_read_audio buf size offset) p := by
  have haudio : OwnSafe owner format duration reader
      (fun audio p => p.Own owner format ∧ ∀ b ∈ audio, owner b = track)
      (wav_audio buf size offset) p := by
    unfold wav_audio
    split
    · exact get_audio_own _ hp
    · exact ⟨hp.1, by simp⟩
  refine haudio.bind fun audio p hp => ?_
  simp only [Prog.of_bind]
  refine OwnSafe.call _ hp.1 stable_own rfl trivial fun _ _ _ _ _ h _ => ?_
  exact OwnSafe.call _ h stable_own rfl trivial fun _ _ _ _ _ h _ => ⟨h, hbuf.ownBytes hp.2⟩

/-- So does one that may have to seek. -/
lemma wav_read_seek_own {buf : List UInt8} (size offset : ℕ) {p : Player β}
    (hbuf : OwnHeader format duration track offset buf) (hp : Ready owner format track p) :
    OwnSafe owner format duration reader
      (fun bytes p => p.Own owner format ∧ OwnBytes owner format duration track offset bytes)
      (wav_read_seek buf size offset) p := by
  unfold wav_read_seek
  simp only [Prog.of_bind]
  refine OwnSafe.call _ hp (stable_ready track) rfl trivial fun _ expoff _ p _ h _ => ?_
  split
  · refine (track_info_own h).bind fun info p hp => ?_
    by_cases hd : info.duration < 0
    · rw [if_pos hd, Prog.pure_eq]
      exact Prog.Safe.ret ⟨hp.1.1, ownBytes_nil track offset⟩
    · rw [if_neg hd]
      have hseek : ∀ ms, OwnSafe owner format duration reader
          (fun _ => Ready owner format track) (spotify_seek_track ms) p :=
        fun ms => seek_track_own ms hp.1
      generalize ms_offset info.channels info.rate offset = ms
      refine (hseek ms).bind fun _ p hp => ?_
      refine OwnSafe.call _ hp (stable_ready track) rfl trivial fun _ _ _ p _ h _ => ?_
      exact wav_read_audio_own size offset hbuf h
  · exact wav_read_audio_own size offset hbuf h

/-- So does one that begins within the header. -/
lemma wav_read_header_own (size offset : ℕ) {p : Player β} (hp : Ready owner format track p) :
    OwnSafe owner format duration reader
      (fun bytes p => p.Own owner format ∧ OwnBytes owner format duration track offset bytes)
      (wav_read_header size offset) p := by
  unfold wav_read_header
  refine (track_info_own hp).bind fun info p hp => ?_
  split
  · exact ⟨hp.1.1, ownBytes_nil track offset⟩
  · next hd =>
    rw [hp.2 hd]
    exact wav_read_seek_own size offset (ownHeader_slice track size offset) hp.1

/-- `wav_read` returns bytes of its own track, if it starts the track or finds no other one
playing. -/
lemma wav_read_own (size offset : ℕ) {p : Player β} (hp : p.Own owner format)
    (hstart : offset ≠ 0 →
      p.g_playback.playing = some track ∨ p.g_playback.playing = none) :
    OwnSafe owner format duration reader (fun _ => Player.Own owner format)
      (wav_read track size offset) p := by
  have hopen : OwnSafe owner format duration reader
      (fun ok p => p.Own owner format ∧ (ok = true → Ready owner format track p))
      (wav_start track offset) p := by
    unfold wav_start
    split
    · exact play_track_own hp
    · next ho => exact ⟨hp, fun _ => ⟨hp, hstart ho⟩⟩
  refine hopen.bind fun ok p hp => ?_
  split
  · next hok =>
    have hbytes : OwnSafe owner format duration reader
        (fun bytes p => p.Own owner format ∧ OwnBytes owner format duration track offset bytes)
        (wav_read_bytes size offset) p := by
      unfold wav_read_bytes
      split
      · exact wav_read_header_own size offset (hp.2 hok)
      · exact wav_read_seek_own size offset (fun i b hb => by simp at hb) (hp.2 hok)
    refine hbytes.bind fun bytes p hp => ?_
    simp only [Prog.of_bind]
    exact OwnSafe.call _ hp.1 stable_own rfl hp.2 fun _ _ _ _ _ h _ => h
  · exact hp.1

/-- Every callback does only what the reader relies on. -/
lemma callback_own {t : ℕ} {c : Call β} {p : Player β} (ht : t ≠ reader) (hc : c.reads = false) :
    OwnSafe owner format duration t
      (fun _ p => t = reader → p.Own owner format) c.prog p := by
  have idle : ∀ p : Player β, t = reader → p.Own owner format := fun _ h => absurd h ht
  cases c with
  | get_audio size => cases hc
  | get_track_info => cases hc
  | play_track track => cases hc
  | seek_track offset => cases hc
  | end_of_track =>
    show OwnSafe owner format duration t _ spotify_end_of_track p
    unfold spotify_end_of_track spfs_audio_playback_flush
    simp only [Prog.of_bind]
    refine OwnSafe.callback rfl trivial fun _ p => ?_
    refine OwnSafe.callback rfl trivial fun _ p => ?_
    refine OwnSafe.callback rfl trivial fun _ p => ?_
    exact OwnSafe.callback rfl trivial fun _ p => idle p
  | _ => exact OwnSafe.callback rfl trivial fun _ p => idle p

end Calls

/-- The system of the WAV files keeps to the discipline. -/
lemma own_disciplined :
    (wav_system (β := β) duration).Disciplined (own_discipline owner format duration) where
  stable _ _ _ _ hrely h ht := (hrely ht).own (h ht)
  start t c p _ hidle hmay hstart := by
    replace hmay : one_handle t c p = true := hmay
    cases c with
    | callback c =>
      simp only [one_handle, Bool.and_eq_true, bne_iff_ne, Bool.not_eq_true'] at hmay
      exact callback_own hmay.1 hmay.2
    | wav_open track =>
      obtain rfl : t = reader := by simpa [one_handle] using hmay
      exact OwnSafe.call _ (hidle rfl) stable_own rfl trivial fun _ _ _ _ _ h _ _ => h
    | wav_release =>
      simp only [one_handle, Bool.and_eq_true, beq_iff_eq] at hmay
      obtain rfl := hmay.1
      exact OwnSafe.call _ (hidle rfl) stable_own rfl trivial fun _ _ _ _ _ h _ _ => h
    | wav_read track size offset =>
      simp only [one_handle, Bool.and_eq_true, beq_iff_eq] at hmay
      obtain rfl := hmay.1
      exact (wav_read_own size offset (hidle rfl) hstart).bind fun _ _ h _ => h

/-- In a run of `wav_open`, `wav_read` and `wav_release`, with one handle open at a time and the
callbacks at any time, every audio byte returned belongs to the track of the file and every header
byte is one of its header, if every read at an offset other than 0 finds the track of its own file
playing, or none, and no change of track finds frames of the old one in the queue. -/
theorem wav_reads_own {w : World (Instr β) (Player β) ℕ}
    {l : List (World (Instr β) (Player β) ℕ × Action ℕ (WavCall β) Bool)}
    (hl : Trace (wav_system duration) (.idle .init) l w)
    (hdel : ∀ s ∈ l, s.1.Executes (DeliversLoaded owner format) s.2)
    (hqueue : ∀ s ∈ l, s.1.Executes (FreshQueue owner format) s.2)
    (hstart : ∀ s ∈ l, s.1.Starts (fun _ c p => StartsOwn c p) s.2) :
    ReadsOwn owner format duration w.shared.log := by
  have hinit : (Player.init : Player β).Own owner format :=
    ⟨by simp [Player.init, spfs_audio_playback_new], fun _ h => by cases h⟩
  have hlog : ReadsOwn owner format duration (Player.init : Player β).log :=
    fun _ _ _ _ h => by cases h
  have hsound := hl.sound own_disciplined (World.sound_idle hlog fun _ _ => hinit) fun s hs => by
    refine ⟨hstart s hs, World.executes_iff.mpr fun t o γ i k ha hprog => ?_⟩
    exact ⟨World.executes_iff.mp (hdel s hs) t o γ i k ha hprog,
      World.executes_iff.mp (hqueue s hs) t o γ i k ha hprog⟩
  exact hsound.inv

/-- A choice of the scheduler, some times over. -/
def wav_steps (t n : ℕ) : List (Action ℕ (WavCall ℕ) Bool) := List.replicate n (.step t true)

/-- The file of track 1 is opened and read from the start, up to its second byte of audio. -/
def read_first_track : List (Action ℕ (WavCall ℕ) Bool) :=
  .start reader (.wav_open 1) :: wav_steps reader 1 ++
    .start reader (.wav_read 1 46 0) :: wav_steps reader 7 ++
    .start 1 (.callback (.music_delivery two_frames)) :: wav_steps 1 1 ++ wav_steps reader 8

/-- Every byte is one of track 1. -/
def all_of_first (_ : ℕ) : sp_track := 1

/-- Every track is mono. -/
def mono (_ : sp_track) : sp_audioformat := ⟨44100, 1⟩

/-- The steps deliver frames of the loaded track, a change of track finds no other ones queued, and
a read at an offset finds its own track playing or none. -/
def OwnStep (w : World (Instr ℕ) (Player ℕ) ℕ) (a : Action ℕ (WavCall ℕ) Bool) : Prop :=
  w.Executes (DeliversLoaded all_of_first mono) a ∧ w.Executes (FreshQueue all_of_first mono) a ∧
    w.Starts (fun _ c p => StartsOwn c p) a

instance decidableOwnStep (w : World (Instr ℕ) (Player ℕ) ℕ) (a : Action ℕ (WavCall ℕ) Bool) :
    Decidable (OwnStep w a) := inferInstanceAs (Decidable (_ ∧ _ ∧ _))

/-- The theorem at two reads of one file. -/
theorem wav_reads_own_one_track : ∃ w : World (Instr ℕ) (Player ℕ) ℕ,
    w.shared.log.head? = some (.wav 1 46 2 [.inr 20, .inr 21]) ∧
    ReadsOwn all_of_first mono (fun _ => 1000) w.shared.log := by
  obtain ⟨l, w, hl, hok, hw⟩ := Trace.exists_of_run (wav_system fun _ => 1000) OwnStep (.idle .init)
    (read_first_track ++ .start reader (.wav_read 1 2 46) :: wav_steps reader 7)
    (fun w => w.shared.log.head? = some (.wav 1 46 2 [.inr 20, .inr 21])) (by decide)
  exact ⟨w, hw, wav_reads_own hl (fun s hs => (hok s hs).1) (fun s hs => (hok s hs).2.1)
    fun s hs => (hok s hs).2.2⟩

/-- Then the file of track 2 is opened, and its first read is at offset 46. -/
def read_second_track : List (Action ℕ (WavCall ℕ) Bool) :=
  .start reader .wav_release :: wav_steps reader 1 ++
    .start reader (.wav_open 2) :: wav_steps reader 1 ++
    .start reader (.wav_read 2 2 46) :: wav_steps reader 7

/-- The first read of the second file returns audio of the first: `wav_read` starts a track at
offset 0 only. -/
theorem wav_read_returns_other_track : ∃ l w,
    Trace (wav_system fun _ => 1000) (.idle .init) l w ∧
    (∀ s ∈ l, s.1.Executes (DeliversLoaded all_of_first mono) s.2) ∧
    w.shared.log.head? = some (.wav 2 46 2 [.inr 20, .inr 21]) ∧
    ¬ ReadsOwn all_of_first mono (fun _ => 1000) w.shared.log := by
  obtain ⟨l, w, hl, hdel, hw⟩ := Trace.exists_of_run (wav_system fun _ => 1000)
    (fun w a => w.Executes (DeliversLoaded all_of_first mono) a) (.idle .init)
    (read_first_track ++ read_second_track)
    (fun w => w.shared.log.head? = some (.wav 2 46 2 [.inr 20, .inr 21])) (by decide)
  refine ⟨l, w, hl, hdel, hw, fun h => ?_⟩
  have := (h 2 46 2 [.inr 20, .inr 21] (List.mem_of_mem_head? hw)).1 20 (by simp)
  exact absurd this (by decide)

end Spotifile
