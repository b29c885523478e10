import Spotifile.Handles

/-!
# One WAV handle

The queue, the playing track and `expoff` serve one WAV file at a time. `wav_open` refuses a second
one with the help of `music_playing`, which `wav_release` takes back without a look at it. That is
right because FUSE releases only handles that an open has given out: `music_playing` is the number
of WAV handles among the open ones (`Exclusive`).
-/

namespace Spotifile

open Lib

/-! ## The property -/

/-- Whether the entity is a WAV file, that is a file with an `open` and a `release`. -/
def Heap.is_wav (h : Heap) (p : Ptr) : Bool :=
  ((h.get p).bind spfs_entity.file_ops).any spfs_file_ops.wav

/-- The number of open WAV handles. -/
def Handles.wavs (s : Handles) : ℕ := s.files.countP s.heap.is_wav

/-- At most one WAV handle is open, and `music_playing` says whether one is. -/
structure Handles.Exclusive (s : Handles) : Prop where
  le : s.wavs ≤ 1
  music_playing : s.music_playing = true ↔ s.wavs = 1

/-- An open fails with `-EBUSY` exactly if the file is a WAV file and a WAV handle is open. An open
that fails changes nothing, and gives no handle to a caller who came without one. -/
def OpensRight : {γ : Type} → HandleInstr γ → Handles → Prop
  | _, .call (.spfs_open path fi), s => ∀ r fi' s', spfs_open path fi s = some ((r, fi'), s') →
      (r = -EBUSY ↔ (∃ p ∈ s.find path, s.heap.is_wav p) ∧ ∃ p ∈ s.files, s.heap.is_wav p) ∧
      (r ≠ 0 → s' = s ∧ (fi.fh = none → fi'.fh = none))
  | _, _, _ => True

/-! ## What a call does -/

section Calls

variable {s s' : Handles} {path : gstr} {fi fi' : fuse_file_info} {r : ℤ}

/-- A counter does not make a file a `track.wav`. -/
@[simp] lemma is_wav_add_refs (h : Heap) (p : Ptr) (n : ℕ) :
    (h.add_refs p n).is_wav = h.is_wav := by
  funext q
  unfold Heap.is_wav
  rw [Heap.add_refs, Heap.get_modify]
  split
  · rw [Option.bind_map]
    rfl
  · rfl

/-- `spfs_open` finds `wav_open` in WAV files only. -/
lemma Heap.is_wav_eq {h : Heap} {p : Ptr} {e : spfs_entity} {hook : Bool}
    (he : h.get p = some e) (hhook : e.open_hook = some hook) : h.is_wav p = hook := by
  rw [is_wav, he, Option.bind_some]
  rcases e with ⟨_, _, _, _, _ | _ | _⟩
  · exact Option.some.inj hhook
  · exact Option.some.inj hhook
  · cases hhook

/-- `spfs_release` finds `wav_release` in WAV files only. -/
lemma Heap.is_wav_eq_release {h : Heap} {p : Ptr} {e : spfs_entity} {hook : Bool}
    (he : h.get p = some e) (hhook : e.release_hook = some hook) : h.is_wav p = hook := by
  rw [is_wav, he, Option.bind_some]
  rcases e with ⟨_, _, _, _, _ | ⟨⟨_, _ | _⟩⟩ | _⟩
  · exact Option.some.inj hhook
  · exact Option.some.inj hhook
  · cases hhook
  · cases hhook

/-- No WAV handle is open if the flag is down. -/
lemma Handles.Exclusive.wavs_eq_zero (hs : s.Exclusive) (h : s.music_playing = false) :
    s.wavs = 0 := by
  have hle := hs.le
  have hne : s.wavs ≠ 1 := by
    intro hone
    rw [hs.music_playing.mpr hone] at h
    cases h
  omega

/-- The flag is the answer to the question for an open WAV handle. -/
lemma Handles.Exclusive.open_iff (hs : s.Exclusive) :
    (∃ p ∈ s.files, s.heap.is_wav p) ↔ s.music_playing = true := by
  rw [hs.music_playing, ← List.countP_pos_iff]
  have hle := hs.le
  unfold Handles.wavs at hle ⊢
  omega

/-- An open keeps the handles exclusive. -/
lemma exclusive_open (hs : s.Exclusive) (h : spfs_open path fi s = some ((r, fi'), s')) :
    s'.Exclusive := by
  rcases spfs_open_cases h with
    ⟨-, -, rfl⟩ | ⟨p, e, hook, -, he, hhook, ⟨-, -, -, rfl⟩ | ⟨hfree, -, rfl⟩⟩
  · exact hs
  · exact hs
  · have hwavs : Handles.wavs { s with
        music_playing := hook || s.music_playing
        heap := s.heap.add_refs p 1
        files := p :: s.files } = s.wavs + if hook then 1 else 0 := by
      simp [Handles.wavs, List.countP_cons, Heap.is_wav_eq he hhook]
    rcases hook with _ | _
    · exact ⟨hwavs ▸ hs.le, by rw [hwavs]; simpa using hs.music_playing⟩
    · rw [hs.wavs_eq_zero (hfree rfl)] at hwavs
      exact ⟨hwavs.le, by rw [hwavs]; simp⟩

/-- A release keeps the handles exclusive. -/
lemma exclusive_release (hs : s.Exclusive) (h : spfs_release fi s = some ((r, fi'), s')) :
    s'.Exclusive := by
  unfold spfs_release at h
  obtain ⟨p, -, h⟩ := Option.bind_eq_some_iff.mp h
  obtain ⟨e, he, h⟩ := Option.bind_eq_some_iff.mp h
  obtain ⟨hook, hhook, h⟩ := Option.bind_eq_some_iff.mp h
  simp only at h
  split at h
  · next hp =>
    simp only [Option.some.injEq, Prod.mk.injEq] at h
    obtain ⟨-, rfl⟩ := h
    have hwav := Heap.is_wav_eq_release he hhook
    have hwavs : s.wavs = (s.files.erase p).countP s.heap.is_wav + if hook then 1 else 0 := by
      rw [Handles.wavs, (List.perm_cons_erase hp).countP_eq, List.countP_cons, hwav]
    have hle := hs.le
    have hflag := hs.music_playing
    rcases hook with _ | _
    · simp only [Bool.false_eq_true, if_false, Nat.add_zero] at hwavs ⊢
      rw [hwavs] at hle hflag
      exact ⟨by simpa [Handles.wavs] using hle, by simpa [Handles.wavs] using hflag⟩
    · simp only [if_true] at hwavs ⊢
      have hnone : (s.files.erase p).countP s.heap.is_wav = 0 := by omega
      constructor <;> simp [Handles.wavs, wav_release, hnone]
  · cases h

/-- The handles of directories are no WAV handles. -/
lemma Handles.Exclusive.of_dirs (hs : s.Exclusive) (hwav : s'.heap.is_wav = s.heap.is_wav)
    (hfiles : s'.files = s.files) (hflag : s'.music_playing = s.music_playing) : s'.Exclusive := by
  have hwavs : s'.wavs = s.wavs := by
    rw [Handles.wavs, hwav, hfiles, Handles.wavs]
  exact ⟨hwavs ▸ hs.le, by rw [hwavs, hflag]; exact hs.music_playing⟩

/-- Every call keeps the handles exclusive. -/
lemma run_exclusive {c : HandleCall} (hs : s.Exclusive) (h : c.run s = some ((r, fi'), s')) :
    s'.Exclusive := by
  cases c with
  | spfs_open path fi => exact exclusive_open hs h
  | spfs_release fi => exact exclusive_release hs h
  | spfs_opendir path fi =>
    rcases spfs_opendir_cases h with ⟨-, -, rfl⟩ | ⟨_, _, -, -, ⟨-, -, rfl⟩ | ⟨-, -, rfl⟩⟩
    · exact hs
    · exact hs
    · exact hs.of_dirs rfl rfl rfl
  | spfs_releasedir fi =>
    obtain ⟨p, -, h⟩ := Option.bind_eq_some_iff.mp h
    split at h
    · simp only [Option.some.injEq, Prod.mk.injEq] at h
      obtain ⟨-, rfl⟩ := h
      exact hs.of_dirs (is_wav_add_refs s.heap p (UINT - 1)) rfl rfl
    · cases h

/-- An open that fails gives no handle. -/
lemma fh_of_spfs_open (h : spfs_open path fi s = some ((r, fi'), s')) (hr : r ≠ 0)
    (hfi : fi.fh = none) : fi'.fh = none := by
  unfold spfs_open at h
  split at h
  · simp only [Option.some.injEq, Prod.mk.injEq] at h
    rw [← h.1.2, hfi]
  · obtain ⟨e, -, h⟩ := Option.bind_eq_some_iff.mp h
    obtain ⟨hook, -, h⟩ := Option.bind_eq_some_iff.mp h
    dsimp only at h
    generalize (if hook = true then wav_open s else (0, s)) = opened at h
    split at h
    · simp only [Option.some.injEq, Prod.mk.injEq] at h
      exact absurd h.1.1.symm hr
    · simp only [Option.some.injEq, Prod.mk.injEq] at h
      rw [← h.1.2]

/-- Where the flag is right, opens are. -/
lemma Handles.Exclusive.opensRight (hs : s.Exclusive) {γ : Type} (i : HandleInstr γ) :
    OpensRight i s := by
  obtain ⟨c⟩ := i
  cases c with
  | spfs_open path fi =>
    intro r fi' s' h
    rw [hs.open_iff]
    rcases spfs_open_cases h with
      ⟨hp, rfl, rfl⟩ | ⟨p, e, hook, hp, he, hhook, ⟨hw, hm, rfl, rfl⟩ | ⟨hfree, rfl, rfl⟩⟩
    · refine ⟨iff_of_false (by decide) ?_, fun hr => ⟨rfl, fh_of_spfs_open h hr⟩⟩
      rintro ⟨⟨p, hp', -⟩, -⟩
      rw [hp] at hp'
      cases hp'
    · refine ⟨iff_of_true rfl ⟨⟨p, hp, ?_⟩, hm⟩, fun hr => ⟨rfl, fh_of_spfs_open h hr⟩⟩
      rw [Heap.is_wav_eq he hhook, hw]
    · refine ⟨iff_of_false (by decide) ?_, fun hr => absurd rfl hr⟩
      rintro ⟨⟨p', hp', hwav⟩, hm⟩
      obtain rfl : p = p' := Option.some.inj (hp.symm.trans hp')
      rw [Heap.is_wav_eq he hhook] at hwav
      rw [hfree hwav] at hm
      cases hm
  | spfs_release fi => trivial
  | spfs_opendir path fi => trivial
  | spfs_releasedir fi => trivial

end Calls

/-! ## Runs -/

/-- In every run of opens and releases at most one WAV handle is open at a time, `music_playing` is
true exactly while one is, and the opens of WAV files are refused exactly then. -/
theorem one_wav_handle {s₀ : Handles} {w : World HandleInstr Handles ℕ}
    {l : List (World HandleInstr Handles ℕ × Action ℕ HandleCall Unit)} (hs₀ : s₀.Unopened)
    (hflag : s₀.music_playing = false) (hl : Trace handle_system (.idle s₀) l w) :
    (∀ s ∈ l, s.1.shared.Exclusive ∧ s.1.Executes OpensRight s.2) ∧ w.shared.Exclusive := by
  have h₀ : s₀.Exclusive := by
    constructor <;> simp [Handles.wavs, hs₀.files, hflag]
  have hall : (∀ s ∈ l, s.1.shared.Exclusive) ∧ w.shared.Exclusive := by
    refine (Trace.forall_iff (fun _ _ => True) (fun _ _ => True) (fun _ => True)
      (fun w => w.shared.Exclusive) hl trivial h₀ (fun _ _ _ _ _ _ => trivial) ?_
      fun _ _ => trivial).mpr fun _ _ => trivial
    intro w a w' _ hw _ h
    rcases handle_step h with ⟨hs, -⟩ | ⟨c, r, fi, hrun, -⟩
    · rw [hs]
      exact iff_of_true hw trivial
    · exact iff_of_true (run_exclusive hw hrun) trivial
  refine ⟨fun s hs => ⟨hall.1 s hs, ?_⟩, hall.2⟩
  rw [World.executes_iff]
  intro t o γ i k _ _
  exact (hall.1 s hs).opensRight i

/-- The file system with a browse directory for one track, with nothing open. -/
def one_wav : Handles :=
  ⟨add_new spfs_init_heap 4 (browse_dir_create "t".toList (.track 1)) (track_dir_entries 1), false,
    [], []⟩

/-- In the example nothing is open at first. -/
lemma one_wav_unopened : one_wav.Unopened where
  refs p e he := by
    have hall : ∀ e ∈ one_wav.heap.cells, e.refs = 0 := by decide +kernel
    exact hall e (List.mem_of_getElem? he)
  files := rfl
  dirs := rfl

/-- The theorem at a run that opens the WAV file twice, and a file without hooks. -/
theorem one_wav_handle_twice : ∃ l w, Trace handle_system (.idle one_wav) l w ∧
    w.shared.files = [1, 12] ∧ w.shared.wavs = 1 ∧
    (∀ s ∈ l, s.1.shared.Exclusive ∧ s.1.Executes OpensRight s.2) ∧ w.shared.Exclusive := by
  obtain ⟨l, w, hl, -, hfiles, hwavs⟩ := Trace.exists_of_run handle_system (fun _ _ => True)
    (.idle one_wav)
    (calls [.spfs_open "/browse/tracks/t/track.wav".toList ⟨none, 0⟩,
      .spfs_open "/browse/tracks/t/track.wav".toList ⟨none, 0⟩,
      .spfs_open "/connection".toList ⟨none, 0⟩])
    (fun w => w.shared.files = [1, 12] ∧ w.shared.wavs = 1) (by decide +kernel)
  exact ⟨l, w, hl, hfiles, hwavs, one_wav_handle one_wav_unopened rfl hl⟩

end Spotifile
