import Spotifile.WavHeader

/-!
# The position to which `wav_read` seeks

A read at an offset other than `expoff` turns the offset into milliseconds: the seconds before it,
by the bytes of a second, times 1000. The bytes of a second are computed in bits, in `int`
arithmetic; the position is an `int`; and an offset behind the end of the track gives a position
behind its end. `spotify_seek_track` refuses a negative position without a word, and `wav_read`
advances `expoff` all the same.

`seeks_right_iff` says which offsets are safe from all of this: those in front of the end of the
last second of the track, counted without the header, as long as the bits of a second fit into an
`int`. The paths of `wav_read` (`Lib/Paths.lean`) stand for its runs among the other threads.
-/

namespace Spotifile

open Lib

variable {β : Type}

/-! ## The property -/

/-- What a read of `expoff` returned. -/
def ran_get_expoff : Ran (Instr β) → Option ℕ
  | ⟨.get_expoff, e⟩ => some e
  | _ => none

/-- What was written to `expoff`. -/
def ran_set_expoff : Ran (Instr β) → Option ℕ
  | ⟨.set_expoff e, _⟩ => some e
  | _ => none

/-- The position to which the player was asked to seek. -/
def ran_player_seek : Ran (Instr β) → Option ℤ
  | ⟨.player_seek ms, _⟩ => some ms
  | _ => none

/-- The player is asked for this position only, and `expoff` is written only if it was asked. -/
def AsksFirst (ms : ℤ) (ran : List (Ran (Instr β))) : Prop :=
  (∀ x ∈ ran, ∀ ms' ∈ ran_player_seek x, ms' = ms) ∧
    ((∃ x ∈ ran, (ran_set_expoff x).isSome) → ∃ x ∈ ran, (ran_player_seek x).isSome)

variable (β) in
/-- What a read at the offset should do where `expoff` is another one, for a track of this format
and duration. -/
structure SeeksRight (channels rate duration offset : ℕ) : Prop where
  products : ∀ n ∈ [channels * 16, channels * 16 * rate], n < 2 ^ 31
  divisor : bytes_p_s channels rate ≠ 0
  position : ms_offset channels rate offset = (offset / (2 * channels * rate) * 1000 : ℕ)
  within : ms_offset channels rate offset ≤ duration
  asks : ∀ track size ran q, Prog.Path (wav_read track size offset : Prog (Instr β) _) ran q →
    (∀ x ∈ ran, ∀ i ∈ ran_track_info x, i = ⟨duration, channels, rate⟩) →
    ran.findSome? ran_get_expoff ≠ some offset →
      AsksFirst (offset / (2 * channels * rate) * 1000 : ℕ) ran

/-! ## The paths of `wav_read` -/

/-- Nothing that the property speaks of. -/
structure Quiet (x : Ran (Instr β)) : Prop where
  get : ran_get_expoff x = none
  set : ran_set_expoff x = none
  seek : ran_player_seek x = none

/-- On the path the player is asked first, unless `expoff` was the offset. -/
def AsksUnless (offset : ℕ) (ms : ℤ) (ran : List (Ran (Instr β))) : Prop :=
  ran.findSome? ran_get_expoff ≠ some offset → AsksFirst ms ran

variable {offset : ℕ} {ms : ℤ} {ran ran' : List (Ran (Instr β))}

/-- Where nothing was run nothing was asked for. -/
lemma AsksFirst.nil : AsksFirst ms ([] : List (Ran (Instr β))) := by
  simp [AsksFirst]

/-- A step that neither seeks nor writes `expoff`. -/
lemma AsksFirst.cons {x : Ran (Instr β)} (hset : ran_set_expoff x = none)
    (hseek : ran_player_seek x = none) (h : AsksFirst ms ran) : AsksFirst ms (x :: ran) := by
  constructor
  · intro y hy ms' hms'
    rcases List.mem_cons.mp hy with rfl | hy
    · rw [hseek] at hms'
      cases hms'
    · exact h.1 y hy ms' hms'
  · rintro ⟨y, hy, hsome⟩
    rcases List.mem_cons.mp hy with rfl | hy
    · rw [hset] at hsome
      cases hsome
    · obtain ⟨z, hz, hasked⟩ := h.2 ⟨y, hy, hsome⟩
      exact ⟨z, List.mem_cons_of_mem x hz, hasked⟩

/-- Instructions that neither seek nor write `expoff` ask for nothing. -/
lemma AsksFirst.of_quiet (h : ∀ x ∈ ran, Quiet x) : AsksFirst ms ran := by
  induction ran with
  | nil => exact .nil
  | cons x ran ih =>
    have hx := h x List.mem_cons_self
    exact .cons hx.set hx.seek (ih fun y hy => h y (List.mem_cons_of_mem x hy))

/-- Quiet steps do not matter. -/
lemma AsksUnless.append (h : AsksUnless offset ms ran) (before after : List (Ran (Instr β)))
    (hbefore : ∀ x ∈ before, Quiet x) (hafter : ∀ x ∈ after, Quiet x) :
    AsksUnless offset ms (before ++ ran ++ after) := by
  have hnone : ∀ l : List (Ran (Instr β)), (∀ x ∈ l, Quiet x) →
      l.findSome? ran_get_expoff = none := fun l hl =>
    List.findSome?_eq_none_iff.mpr fun x hx => (hl x hx).get
  intro hget
  rw [List.findSome?_append, List.findSome?_append, hnone before hbefore, hnone after hafter,
    Option.none_or, Option.or_none] at hget
  obtain ⟨hseek, hset⟩ := h hget
  constructor
  · intro x hx
    rcases List.mem_append.mp hx with hx | hx
    · rcases List.mem_append.mp hx with hx | hx
      · exact (AsksFirst.of_quiet hbefore).1 x hx
      · exact hseek x hx
    · exact (AsksFirst.of_quiet hafter).1 x hx
  · rintro ⟨x, hx, hsome⟩
    have hmem : x ∈ ran := by
      rcases List.mem_append.mp hx with hx | hx
      · rcases List.mem_append.mp hx with hx | hx
        · rw [(hbefore x hx).set] at hsome
          cases hsome
        · exact hx
      · rw [(hafter x hx).set] at hsome
        cases hsome
    obtain ⟨y, hy, hasked⟩ := hset ⟨x, hmem, hsome⟩
    exact ⟨y, by simp [hy], hasked⟩

/-- Starting the track is quiet. -/
lemma quiet_wav_start (track : sp_track) (offset : ℕ) :
    (wav_start track offset : Prog (Instr β) _).Only Quiet := by
  unfold wav_start
  split
  · unfold spotify_play_track spfs_audio_playback_flush
    refine Prog.only_bind (Prog.only_of fun _ => ⟨rfl, rfl, rfl⟩) fun playing => ?_
    split
    · refine Prog.only_bind (Prog.only_of fun _ => ⟨rfl, rfl, rfl⟩) fun _ => ?_
      exact Prog.only_ret _
    · refine Prog.only_bind (Prog.only_of fun _ => ⟨rfl, rfl, rfl⟩) fun _ => ?_
      refine Prog.only_bind (Prog.only_of fun _ => ⟨rfl, rfl, rfl⟩) fun _ => ?_
      refine Prog.only_bind (Prog.only_of fun _ => ⟨rfl, rfl, rfl⟩) fun ok => ?_
      split
      · refine Prog.only_bind (Prog.only_of fun _ => ⟨rfl, rfl, rfl⟩) fun _ => ?_
        refine Prog.only_bind (Prog.only_of fun _ => ⟨rfl, rfl, rfl⟩) fun _ => ?_
        exact Prog.only_ret _
      · exact Prog.only_ret _
  · exact Prog.only_ret _

/-- No instruction asks the player to seek. -/
def NoSeek (x : Ran (Instr β)) : Prop := ran_player_seek x = none

/-- Taking the audio does not seek. -/
lemma noSeek_wav_read_audio (buf : List UInt8) (size offset : ℕ) :
    (wav_read_audio buf size offset : Prog (Instr β) _).Only NoSeek := by
  have hget (n : ℕ) (stop : Bool) : (if stop then do
      .of (.set_done false)
      .of (.refused n)
      pure []
    else .of (.audio n) : Prog (Instr β) (List β)).Only NoSeek := by
    split
    · refine Prog.only_bind (Prog.only_of fun _ => rfl) fun _ => ?_
      refine Prog.only_bind (Prog.only_of fun _ => rfl) fun _ => ?_
      exact Prog.only_ret _
    · exact Prog.only_of fun _ => rfl
  have haudio : (wav_audio buf size offset : Prog (Instr β) _).Only NoSeek := by
    unfold wav_audio spotify_get_audio spotify_is_playing
    split
    · refine Prog.only_bind (Prog.only_of fun _ => rfl) fun playing => ?_
      dsimp only
      split
      · exact Prog.only_bind (Prog.only_of fun _ => rfl) (hget _)
      · exact Prog.only_bind (Prog.only_ret _) (hget _)
    · exact Prog.only_ret _
  unfold wav_read_audio
  refine Prog.only_bind haudio fun audio => ?_
  refine Prog.only_bind (Prog.only_of fun _ => rfl) fun expoff => ?_
  refine Prog.only_bind (Prog.only_of fun _ => rfl) fun _ => ?_
  exact Prog.only_ret _

/-- After the player was asked, `expoff` may be written. -/
lemma AsksFirst.asked (h : ∀ x ∈ ran, NoSeek x) :
    AsksFirst ms (⟨.player_seek ms, ()⟩ :: ran) := by
  constructor
  · intro x hx ms' hms'
    rcases List.mem_cons.mp hx with rfl | hx
    · exact (Option.some.inj hms').symm
    · rw [h x hx] at hms'
      cases hms'
  · intro _
    exact ⟨_, List.mem_cons_self, rfl⟩

/-- A seek to a position that is not negative asks the player. -/
lemma asks_wav_read_seek {buf : List UInt8} {size channels rate duration : ℕ}
    {q : Prog (Instr β) (List (UInt8 ⊕ β))} {n : ℕ}
    (hposition : ms_offset channels rate offset = n)
    (h : (wav_read_seek buf size offset).Path ran q)
    (hinfo : ∀ x ∈ ran, ∀ i ∈ ran_track_info x, i = ⟨duration, channels, rate⟩) :
    AsksUnless offset n ran := by
  intro hget
  unfold wav_read_seek spotify_get_track_info spotify_seek_track spfs_audio_playback_flush at h
  simp only [Prog.of_bind] at h
  rcases Prog.path_call.mp h with ⟨rfl, -⟩ | ⟨e, ran, rfl, hread⟩
  · exact .nil
  apply AsksFirst.cons rfl rfl
  have hne : e ≠ offset := by
    rintro rfl
    exact hget rfl
  rw [if_pos hne] at hread
  rcases Prog.path_call.mp hread with ⟨rfl, -⟩ | ⟨i, ran, rfl, hgot⟩
  · exact .nil
  apply AsksFirst.cons rfl rfl
  obtain rfl := hinfo ⟨.track_info, i⟩ (by simp) i rfl
  dsimp only at hgot
  rw [if_neg (by simp), hposition, if_neg (by simp)] at hgot
  simp only [Prog.of_bind, Prog.call_bind] at hgot
  rcases Prog.path_call.mp hgot with ⟨rfl, -⟩ | ⟨u, ran, rfl, hdone⟩
  · exact .nil
  apply AsksFirst.cons rfl rfl
  rcases Prog.path_call.mp hdone with ⟨rfl, -⟩ | ⟨u, ran, rfl, hflush⟩
  · exact .nil
  apply AsksFirst.asked
  have hrest : (Prog.call .flush fun _ => Prog.call (.set_expoff offset) fun _ =>
      wav_read_audio buf size offset : Prog (Instr β) _).Only NoSeek :=
    Prog.only_call (fun _ => rfl) fun _ => Prog.only_call (fun _ => rfl) fun _ =>
      noSeek_wav_read_audio buf size offset
  exact hrest ran q hflush

/-- The header is made before the seek. -/
lemma asks_wav_read_bytes {size channels rate duration : ℕ}
    {q : Prog (Instr β) (List (UInt8 ⊕ β))} {n : ℕ}
    (hposition : ms_offset channels rate offset = n)
    (h : (wav_read_bytes size offset).Path ran q)
    (hinfo : ∀ x ∈ ran, ∀ i ∈ ran_track_info x, i = ⟨duration, channels, rate⟩) :
    AsksUnless offset n ran := by
  unfold wav_read_bytes at h
  split at h
  · unfold wav_read_header spotify_get_track_info at h
    rw [Prog.of_bind] at h
    rcases Prog.path_call.mp h with ⟨rfl, -⟩ | ⟨i, rest, rfl, hrest⟩
    · exact fun _ => .nil
    obtain rfl := hinfo ⟨.track_info, i⟩ (by simp) i rfl
    rw [if_neg (by simp)] at hrest
    have hseek := asks_wav_read_seek hposition hrest fun x hx =>
      hinfo x (List.mem_cons_of_mem _ hx)
    have hquiet : Quiet (⟨.track_info, ⟨duration, channels, rate⟩⟩ : Ran (Instr β)) :=
      ⟨rfl, rfl, rfl⟩
    simpa using hseek.append [_] [] (by simpa using hquiet) (by simp)
  · exact asks_wav_read_seek hposition h hinfo

/-- The whole of `wav_read`. -/
lemma asks_wav_read {track : sp_track} {size channels rate duration : ℕ}
    {q : Prog (Instr β) (Option (List (UInt8 ⊕ β)))} {n : ℕ}
    (hposition : ms_offset channels rate offset = n)
    (h : (wav_read track size offset).Path ran q)
    (hinfo : ∀ x ∈ ran, ∀ i ∈ ran_track_info x, i = ⟨duration, channels, rate⟩) :
    AsksUnless offset n ran := by
  unfold wav_read at h
  rcases Prog.path_bind.mp h with ⟨p, hp, -⟩ | ⟨l₁, l₂, ok, rfl, hstart, h⟩
  · exact fun _ => .of_quiet (quiet_wav_start track offset ran p hp)
  have hbefore := quiet_wav_start track offset l₁ _ hstart
  split at h
  · rcases Prog.path_bind.mp h with ⟨p, hp, -⟩ | ⟨l₃, l₄, bytes, rfl, hbytes, h⟩
    · have hasks := asks_wav_read_bytes hposition hp fun x hx =>
        hinfo x (List.mem_append_right _ hx)
      simpa using hasks.append l₁ [] hbefore (by simp)
    · have hasks := asks_wav_read_bytes hposition hbytes fun x hx => hinfo x (by simp [hx])
      have hreturned : (Prog.of (.wav_returned track offset size bytes) >>= fun _ =>
          pure (some bytes) : Prog (Instr β) _).Only Quiet :=
        Prog.only_bind (Prog.only_of fun _ => ⟨rfl, rfl, rfl⟩) fun _ => Prog.only_ret _
      rw [← List.append_assoc]
      exact hasks.append l₁ l₄ hbefore (hreturned l₄ q h)
  · obtain ⟨rfl, -⟩ := Prog.path_ret.mp h
    rw [List.append_nil]
    exact fun _ => .of_quiet hbefore

/-! ## Which offsets are safe -/

/-- A read that seeks does everything right exactly if the bits of a second fit into an `int`, and
the offset lies in front of the end of the last second of the track, counted without the header. -/
theorem seeks_right_iff {channels rate duration offset : ℕ} (hchannels : 0 < channels)
    (hrate : 0 < rate) (hduration : duration < 2 ^ 31) (hoffset : offset < 2 ^ 63) :
    SeeksRight β channels rate duration offset ↔
      16 * channels * rate < 2 ^ 31 ∧
        offset < (duration / 1000 + 1) * (2 * channels * rate) := by
  have hpos : 0 < 2 * channels * rate := Nat.mul_pos (by omega) hrate
  have hcomm : channels * 16 * rate = 16 * channels * rate := by ring
  rw [← Nat.div_lt_iff_lt_mul hpos]
  constructor
  · intro h
    have hbits := h.products (channels * 16 * rate) (by simp)
    have hwithin := h.within
    rw [h.position] at hwithin
    refine ⟨by omega, ?_⟩
    omega
  · rintro ⟨hbits, hlt⟩
    rw [← hcomm] at hbits
    have hle : channels * 16 ≤ channels * 16 * rate := Nat.le_mul_of_pos_right _ hrate
    have hposition := ms_offset_eq hrate hbits (by omega : offset < 2 ^ 64) (by omega)
    refine ⟨?_, ?_, hposition, ?_, ?_⟩
    · simp only [List.mem_cons, List.not_mem_nil, or_false, forall_eq_or_imp, forall_eq]
      omega
    · rw [bytes_p_s_eq hrate hbits]
      exact hpos.ne'
    · rw [hposition]
      omega
    · intro track size ran q hpath hinfo hget
      exact asks_wav_read hposition hpath hinfo hget

/-- The theorem at the last second of a stereo track of three minutes. -/
theorem seeks_right_three_minutes : SeeksRight ℕ 2 44100 180000 31752043 ↔
    16 * 2 * 44100 < 2 ^ 31 ∧ 31752043 < (180000 / 1000 + 1) * (2 * 2 * 44100) :=
  seeks_right_iff (by decide) (by decide) (by decide) (by decide)

/-- A read of that track at an offset of 352 GiB, up to the write of `expoff`. -/
def read_far_behind : List (Ran (Instr ℕ)) :=
  [⟨.get_expoff, 44⟩, ⟨.track_info, ⟨180000, 2, 44100⟩⟩, ⟨.set_expoff 378816177600, ()⟩]

/-- The position does not fit into an `int` and becomes negative, so that the player is not asked,
and `expoff` is written. -/
theorem not_seeks_right : ¬ ∀ channels rate duration offset : ℕ, 0 < channels → 0 < rate →
    duration < 2 ^ 31 → offset < 2 ^ 63 → SeeksRight ℕ channels rate duration offset := by
  intro h
  obtain ⟨q, hq⟩ : ∃ q, (wav_read 1 4096 378816177600).Path read_far_behind q :=
    ⟨_, .step (.step (.step (.here _)))⟩
  obtain ⟨-, hasked⟩ := (h 2 44100 180000 378816177600 (by decide) (by decide) (by decide)
    (by decide)).asks 1 4096 read_far_behind q hq (by decide) (by decide)
  exact absurd (hasked (by decide)) (by decide)

end Spotifile
