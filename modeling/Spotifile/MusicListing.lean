import Mathlib.Data.List.Nodup
import Spotifile.TrackLinks

/-!
# The music directory of a playlist over time

`playlist_dir_music_readdir` makes an entry for a track where there is none of its name, and leaves
the others as they are. So the directory is a function of all contents that the playlist ever had:
each name stands for the track that was first listed under it. A name holds the index, so no two
entries of one listing are the same (`entry_name_injective`); but another recording of the same
title may be at the index now.

`music_listing_iff` is for every history of listings, from the creation of the directory on.
-/

namespace Spotifile

open Lib

/-! ## Names -/

/-- The name of the entry. -/
def entry_name (i : ℕ) (trackname : gstr) : gstr :=
  spfs_sanitize_name (formatted_trackname i trackname)

/-- An index is written in digits. -/
lemma isDigit_of_mem_printf_02d {i : ℕ} {c : gchar} (hc : c ∈ printf_02d i) : c.isDigit := by
  have hdigits : ∀ c ∈ Nat.toDigits 10 i, c.isDigit := fun c hc =>
    Nat.isDigit_of_mem_toDigits (by decide) (Nat.le_refl 10) hc
  unfold printf_02d at hc
  split at hc
  · rcases List.mem_cons.mp hc with rfl | hc
    · rfl
    · exact hdigits c hc
  · exact hdigits c hc

/-- Different indices are written differently. -/
lemma printf_02d_injective {i j : ℕ} (h : printf_02d i = printf_02d j) : i = j := by
  have hvalue : ∀ n, Nat.ofDigitChars 10 (printf_02d n) 0 = n := by
    intro n
    unfold printf_02d
    split
    · exact Nat.ofDigitChars_ten_toDigits
    · exact Nat.ofDigitChars_ten_toDigits
  rw [← hvalue i, h, hvalue j]

/-- A name begins with the index and a blank. -/
lemma exists_entry_name (i : ℕ) (trackname : gstr) :
    ∃ rest, entry_name i trackname = printf_02d i ++ ' ' :: rest := by
  have hkeep : (printf_02d i).flatMap (fun a => if a = '/' then SPFS_SLASH_REPLACEMENT else [a]) =
      printf_02d i := by
    have hno : ∀ c ∈ printf_02d i, c ≠ '/' := by
      rintro c hc rfl
      exact absurd (isDigit_of_mem_printf_02d hc) (by decide)
    revert hno
    generalize printf_02d i = l
    intro hno
    induction l with
    | nil => rfl
    | cons a l ih =>
      rw [List.flatMap_cons, if_neg (hno a List.mem_cons_self),
        ih fun c hc => hno c (List.mem_cons_of_mem a hc)]
      rfl
  obtain ⟨x, ds, hds⟩ := List.exists_cons_of_ne_nil (l := printf_02d i) (by
    unfold printf_02d
    split
    · exact List.cons_ne_nil _ _
    · exact Nat.toDigits_ne_nil)
  have hx : g_ascii_isspace x = false := by
    have hdigit := isDigit_of_mem_printf_02d (hds ▸ List.mem_cons_self : x ∈ printf_02d i)
    by_contra hspace
    rw [Bool.not_eq_false] at hspace
    unfold g_ascii_isspace at hspace
    simp only [Bool.or_eq_true, decide_eq_true_eq] at hspace
    rcases hspace with (((rfl | rfl) | rfl) | rfl) | rfl <;> exact absurd hdigit (by decide)
  have hname : formatted_trackname i trackname = printf_02d i ++ (" - ".toList ++ trackname ++
      ".wa".toList) ++ ['v'] := by
    rw [formatted_trackname]
    simp
  refine ⟨"- ".toList ++ trackname.flatMap
    (fun a => if a = '/' then SPFS_SLASH_REPLACEMENT else [a]) ++ ".wav".toList, ?_⟩
  have hv : ['v'].flatMap (fun a => if a = '/' then SPFS_SLASH_REPLACEMENT else [a]) = ['v'] := rfl
  rw [entry_name, hname, spfs_sanitize_name_eq, List.flatMap_append, List.flatMap_append, hkeep, hv,
    hds, List.cons_append, g_strstrip_of_ends hx rfl, List.flatMap_append, List.flatMap_append]
  simp

/-- The index can be read off. -/
lemma entry_name_injective {i j : ℕ} {trackname trackname' : gstr}
    (h : entry_name i trackname = entry_name j trackname') : i = j := by
  have htake : ∀ k (rest : gstr), (printf_02d k ++ ' ' :: rest).takeWhile Char.isDigit =
      printf_02d k := by
    intro k rest
    rw [List.takeWhile_append_of_pos fun c hc => isDigit_of_mem_printf_02d hc,
      List.takeWhile_cons_of_neg (by decide), List.append_nil]
  obtain ⟨rest, hrest⟩ := exists_entry_name i trackname
  obtain ⟨rest', hrest'⟩ := exists_entry_name j trackname'
  rw [hrest, hrest'] at h
  apply printf_02d_injective
  rw [← htake i rest, h, htake j rest']

/-- The dash stays in the name. -/
lemma dash_mem_entry_name (i : ℕ) (trackname : gstr) : '-' ∈ entry_name i trackname :=
  mem_sanitize_name rfl (by decide) (dash_mem_formatted_trackname i trackname)

/-- It is not the name of the list of the tracks, in which there is no dash. -/
lemma entry_name_ne (i : ℕ) (trackname : gstr) :
    entry_name i trackname ≠ "playlist.xspf".toList := by
  intro heq
  exact absurd (heq ▸ dash_mem_entry_name i trackname) (by decide)

/-! ## What a listing should show -/

/-- What the playlist holds, as libspotify answers. -/
def contents (pl : sp_playlist) (o : Spotify) : List sp_track := (o.playlist_tracks pl).getD []

/-- The names that a listing asks for, each with its track. -/
def claims (pl : sp_playlist) (o : Spotify) : List (gstr × sp_track) :=
  (contents pl o).zipIdx.map fun track => (entry_name track.2 (o.track_name track.1), track.1)

/-- Every track of the playlist asks for a name. -/
lemma mem_claims {pl : sp_playlist} {o : Spotify} {i : ℕ} {track : sp_track}
    (h : (contents pl o)[i]? = some track) :
    (entry_name i (o.track_name track), track) ∈ claims pl o :=
  List.mem_map.mpr ⟨(track, i), List.mk_mem_zipIdx_iff_getElem?.mpr h, rfl⟩

section Property

variable (links : SpotifyLinks)

/-- The directory `e` shows the playlist as it is now: one entry for each index, no two the same,
each of which leads to the track at the index. -/
structure ShowsPlaylist (pl : sp_playlist) (o : Spotify) (h : Heap) (e : Ptr) : Prop where
  once : ∀ (i : ℕ) track, (contents pl o)[i]? = some track → ∃ table, h.children e = some table ∧
    (table.map Prod.fst).count (entry_name i (o.track_name track)) = 1
  distinct : ∀ (i j : ℕ) track track' link, (contents pl o)[i]? = some track →
    (contents pl o)[j]? = some track' →
    h.lookup e (entry_name i (o.track_name track)) = some link →
    h.lookup e (entry_name j (o.track_name track')) = some link → i = j
  leads : ∀ (i : ℕ) track, (contents pl o)[i]? = some track →
    ∃ link, h.lookup e (entry_name i (o.track_name track)) = some link ∧
      LeadsToTrack links h e link track

/-- Every name that the playlist asks for now was first asked for by a track with the same link. -/
def FirstAreSame (pl : sp_playlist) (history : List Spotify) (o : Spotify) : Prop :=
  ∀ (i : ℕ) track, (contents pl o)[i]? = some track →
    ∃ first l l', ((history ++ [o]).flatMap (claims pl)).lookup
        (entry_name i (o.track_name track)) = some first ∧
      links.track track = some l ∧ links.track first = some l' ∧
      spfs_sanitize_name l = spfs_sanitize_name l'

end Property

/-! ## The directory -/

section Listing

variable {links : SpotifyLinks} {s s' : Mount} {e : Ptr} {pl : sp_playlist}

variable (links) in
/-- The directory after the claims. -/
structure MusicDir (e : Ptr) (pl : sp_playlist) (claims : List (gstr × sp_track)) (s : Mount) :
    Prop extends
    TrackDir links .playlist_dir_music_readdir (· = "playlist.xspf".toList) e claims s where
  auxdata : s.heap.auxdata e = some (.playlist pl)

/-- A directory in which nothing was listed yet. -/
lemma MusicDir.start (hw : s.Wf) (hreaddir : s.heap.readdir e = some .playlist_dir_music_readdir)
    (hattached : s.heap.Attached e) (hauxdata : s.heap.auxdata e = some (.playlist pl))
    (hempty : ∀ name, s.heap.lookup e name = none) : MusicDir links e pl [] s where
  toTrackDir := .start hw (.inl rfl) hreaddir hattached hempty
  auxdata := hauxdata

/-- One track of a listing. -/
lemma MusicDir.track {claims : List (gstr × sp_track)} (hm : MusicDir links e pl claims s)
    (hlinks : ∀ track l, links.track track = some l → IsLink l) (i : ℕ) (trackname : gstr)
    (track : sp_track) (o : Spotify) :
    ∃ s', (create_wav_track_link_in_directory links e (formatted_trackname i trackname)
      track).eval MountInstr.exec o s = some ((), s') ∧
      MusicDir links e pl (claims ++ [(entry_name i trackname, track)]) s' := by
  obtain ⟨s', heval, hd, hk⟩ := hm.toTrackDir.claim hlinks
    (dash_mem_formatted_trackname i trackname) (entry_name_ne i trackname) track o
  refine ⟨s', heval, hd, ?_⟩
  rw [hk.heap.auxdata_of_readdir hm.readdir (by decide)]
  exact hm.auxdata

/-- The loop over the tracks. -/
lemma MusicDir.tracks {before : List (gstr × sp_track)} (hm : MusicDir links e pl before s)
    (hlinks : ∀ track l, links.track track = some l → IsLink l) (o : Spotify)
    (tracks : List (sp_track × ℕ)) :
    ∃ s', (Prog.forEach tracks fun track => do
        let trackname ← .of (.track_name track.1)
        create_wav_track_link_in_directory links e (formatted_trackname track.2 trackname)
          track.1).eval MountInstr.exec o s = some ((), s') ∧
      MusicDir links e pl (before ++ tracks.map fun track =>
        (entry_name track.2 (o.track_name track.1), track.1)) s' := by
  apply @Prog.exists_eval_forEach_map MountInstr _ _ _ MountInstr.exec o _ _ (MusicDir links e pl)
    fun track : sp_track × ℕ => (entry_name track.2 (o.track_name track.1), track.1)
  · exact hm
  · rintro ⟨track, i⟩ - done s₁ hm₁
    rw [Prog.of_bind, Prog.eval_call (v := o.track_name track) rfl]
    exact hm₁.track hlinks i (o.track_name track) track o

/-- A listing. -/
lemma MusicDir.listing {before : List (gstr × sp_track)} (hm : MusicDir links e pl before s)
    (hlinks : ∀ track l, links.track track = some l → IsLink l) {o : Spotify}
    (htracks : o.playlist_tracks pl ≠ none) :
    ∃ s', (playlist_dir_music_readdir links e).eval MountInstr.exec o s = some ((), s') ∧
      MusicDir links e pl (before ++ claims pl o) s' := by
  obtain ⟨tracks, hsome⟩ := Option.ne_none_iff_exists'.mp htracks
  obtain ⟨ent, hent, hauxdata⟩ := Option.bind_eq_some_iff.mp hm.auxdata
  have hcontents : contents pl o = tracks := by rw [contents, hsome, Option.getD_some]
  obtain ⟨s₁, hloop, hm₁⟩ := hm.tracks hlinks o tracks.zipIdx
  have hm₁ : MusicDir links e pl (before ++ claims pl o) s₁ := by
    rw [claims, hcontents]
    exact hm₁
  have htracks : MountInstr.exec (.playlist_tracks pl) o s = some (some (some tracks), s) := by
    rw [MountInstr.exec, hsome]
  unfold playlist_dir_music_readdir
  rw [Prog.of_bind, Prog.eval_call (exec_entity o hent), hauxdata]
  simp only [Option.bind_some, auxdata_playlist, deref_some]
  rw [Prog.of_bind, Prog.eval_call htracks]
  simp only [deref_some]
  rw [Prog.eval_bind_of_eq hloop, Prog.of_bind, eval_has_child hm₁.readdir]
  rcases hfree : s₁.heap.lookup e (spfs_sanitize_name "playlist.xspf".toList) with _ | q
  · have hn : NewEntity s₁.heap e (read_file "playlist.xspf".toList .xspf_read) [] :=
      newEntity_plain hm₁.wf hm₁.readdir (spfs_entity_file_create_new _ _) rfl rfl
        (by rintro _ _ ⟨⟩) (by rintro _ ⟨⟩) fun _ => by decide
    rw [Option.isSome_none, if_neg Bool.false_ne_true]
    obtain ⟨s₂, hexec, hw₂, hk, -, hlookup⟩ := exec_add_new (o := o) hm₁.wf hn
    refine ⟨s₂, Prog.eval_call hexec _, hm₁.toTrackDir.mono hw₂ hk fun name hname hnone => ?_, ?_⟩
    · rw [hlookup e hn.lt, if_neg, hnone]
      rintro ⟨-, hkey, -⟩
      exact hname (Option.some.inj hkey).symm
    · rw [hk.heap.auxdata_of_readdir hm₁.readdir (by decide)]
      exact hm₁.auxdata
  · exact ⟨s₁, rfl, hm₁⟩

/-! ## What it shows -/

/-- Each name of the playlist stands for one entry, whatever was there before. -/
lemma MusicDir.exists_table {before : List (gstr × sp_track)} {o : Spotify}
    (hm : MusicDir links e pl (before ++ claims pl o) s) {i : ℕ} {track : sp_track}
    (hi : (contents pl o)[i]? = some track) : ∃ table, s.heap.children e = some table ∧
      (table.map Prod.fst).count (entry_name i (o.track_name track)) = 1 := by
  obtain ⟨first, hfirst⟩ := exists_lookup_of_mem (List.mem_append_right before (mem_claims hi))
  obtain ⟨link, hlink, -⟩ := hm.filled.entry _ first hfirst
  obtain ⟨table, htable, hmem⟩ := Option.bind_eq_some_iff.mp hlink
  refine ⟨table, htable, List.nodup_iff_count_eq_one.mp (hm.wf.tree.distinct e table htable) _ ?_⟩
  obtain ⟨l₁, l₂, rfl, -⟩ := List.lookup_eq_some_iff.mp hmem
  simp

/-- What the directory shows after the last listing. -/
lemma MusicDir.shows_iff {history : List Spotify} {o : Spotify}
    (hm : MusicDir links e pl ((history ++ [o]).flatMap (claims pl)) s) :
    ShowsPlaylist links pl o s.heap e ↔ FirstAreSame links pl history o := by
  have hsplit : (history ++ [o]).flatMap (claims pl) =
      history.flatMap (claims pl) ++ claims pl o := by
    rw [List.flatMap_append, List.flatMap_singleton]
  have hserved : ∀ (i : ℕ) track, (contents pl o)[i]? = some track →
      ((∃ link, s.heap.lookup e (entry_name i (o.track_name track)) = some link ∧
        LeadsToTrack links s.heap e link track) ↔
      ∃ first, ((history ++ [o]).flatMap (claims pl)).lookup
        (entry_name i (o.track_name track)) = some first ∧ ∃ l l', links.track track = some l ∧
          links.track first = some l' ∧ spfs_sanitize_name l = spfs_sanitize_name l') := by
    intro i track hi
    have hmem := List.mem_append_right (history.flatMap (claims pl)) (mem_claims hi)
    rw [← hsplit] at hmem
    exact hm.served_iff (dash_mem_entry_name i _) hmem
  constructor
  · intro hshows i track hi
    obtain ⟨first, hfirst, l, l', hsame⟩ := (hserved i track hi).mp (hshows.leads i track hi)
    exact ⟨first, l, l', hfirst, hsame⟩
  · intro hsame
    rw [hsplit] at hm
    refine ⟨fun i track hi => hm.exists_table hi, ?_, fun i track hi => ?_⟩
    · rintro i j track track' link - - hlink hlink'
      obtain ⟨-, hname, -⟩ := hm.wf.tree.entry _ _ _ hlink
      obtain ⟨-, hname', -⟩ := hm.wf.tree.entry _ _ _ hlink'
      exact entry_name_injective (Option.some.inj (hname.symm.trans hname'))
    · obtain ⟨first, l, l', hfirst, hlinks⟩ := hsame i track hi
      exact (hserved i track hi).mpr ⟨first, hfirst, l, l', hlinks⟩

end Listing

/-- Listings one after the other. -/
lemma exists_music_dir {links : SpotifyLinks} {s : Mount} {e : Ptr} {pl : sp_playlist}
    (hlinks : ∀ track l, links.track track = some l → IsLink l) (hm : MusicDir links e pl [] s)
    (answers : List Spotify) (htracks : ∀ o ∈ answers, o.playlist_tracks pl ≠ none) :
    ∃ done s', Prog.evalEach MountInstr.exec (playlist_dir_music_readdir links)
      (answers.map fun o => (e, o)) s = some (done, s') ∧
        MusicDir links e pl (answers.flatMap (claims pl)) s' := by
  apply Prog.exists_evalEach_flatMap (MusicDir links e pl) e (claims pl) hm
  intro o ho before s hm
  obtain ⟨s', heval, hm'⟩ := hm.listing hlinks (htracks o ho)
  exact ⟨(), s', heval, hm'⟩

/-- In any state of the mounted file system, for a directory of a playlist in which nothing was
listed yet: after any history of listings, the directory shows the playlist as it is now exactly if
each name was first asked for by a track with the same link. -/
theorem music_listing_iff {links : SpotifyLinks}
    (hlinks : ∀ track l, links.track track = some l → IsLink l)
    {l : List (World MountInstr Mount ℕ × Action ℕ MountCall Spotify)}
    {w : World MountInstr Mount ℕ} (hl : Trace (mount_system links) (World.idle Mount.init) l w)
    {e : Ptr} {pl : sp_playlist} (hattached : w.shared.heap.Attached e)
    (hreaddir : w.shared.heap.readdir e = some .playlist_dir_music_readdir)
    (hauxdata : w.shared.heap.auxdata e = some (.playlist pl))
    (hempty : ∀ name, w.shared.heap.lookup e name = none) (history : List Spotify) (o : Spotify)
    (htracks : ∀ o' ∈ history ++ [o], o'.playlist_tracks pl ≠ none) :
    ∃ done s', Prog.evalEach MountInstr.exec (playlist_dir_music_readdir links)
        ((history ++ [o]).map fun o' => (e, o')) w.shared = some (done, s') ∧
      (ShowsPlaylist links pl o s'.heap e ↔ FirstAreSame links pl history o) := by
  have hw : w.shared.Wf := wf_of_trace hl
  have hstart : MusicDir links e pl [] w.shared :=
    .start hw hreaddir hattached hauxdata hempty
  obtain ⟨done, s', heval, hm⟩ := exists_music_dir hlinks hstart (history ++ [o]) htracks
  exact ⟨done, s', heval, hm.shows_iff⟩

/-- The links of two tracks. -/
def two_links : SpotifyLinks where
  track t := some (if t = 1 then "spotify:track:a".toList else "spotify:track:b".toList)
  artist _ := none
  album _ := none

/-- The links of the example are links. -/
lemma two_links_isLink (track : sp_track) (l : gstr) (hl : two_links.track track = some l) :
    IsLink l := by
  obtain rfl := Option.some.inj hl
  unfold IsLink
  split <;> decide

set_option maxRecDepth 100000 in
/-- The playlists are listed, but not yet the playlist. -/
lemma exists_playlist_dir : ∃ l, ∃ w : World MountInstr Mount ℕ,
    Trace (mount_system two_links) (World.idle Mount.init) l w ∧ w.shared.heap.Attached 10 ∧
      w.shared.heap.readdir 10 = some .playlist_dir_music_readdir ∧
      w.shared.heap.auxdata 10 = some (.playlist 0) ∧
      ∀ name, w.shared.heap.lookup 10 name = none := by
  obtain ⟨l, w, hl, -, hattached, hreaddir, hauxdata, hchildren⟩ := Trace.exists_of_run
    (mount_system two_links) (fun _ _ => True) (World.idle Mount.init)
    (mount_run single 0 (.readdir "/playlists/music".toList) 7)
    (fun w => w.shared.heap.Attached 10 ∧
      w.shared.heap.readdir 10 = some .playlist_dir_music_readdir ∧
      w.shared.heap.auxdata 10 = some (.playlist 0) ∧ w.shared.heap.children 10 = some [])
    (by decide +kernel)
  refine ⟨l, w, hl, hattached, hreaddir, hauxdata, fun name => ?_⟩
  rw [Heap.lookup, hchildren]
  rfl

/-- The theorem at a playlist that is listed twice and does not change. -/
theorem music_listing_unchanged : ∃ (s s' : Mount) (done : List (Done Ptr Spotify Unit)),
    Prog.evalEach MountInstr.exec (playlist_dir_music_readdir two_links)
      [(10, single), (10, single)] s = some (done, s') ∧
      ShowsPlaylist two_links 0 single s'.heap 10 := by
  obtain ⟨l, w, hl, hattached, hreaddir, hauxdata, hempty⟩ := exists_playlist_dir
  obtain ⟨done, s', heval, hiff⟩ := music_listing_iff two_links_isLink hl hattached hreaddir
    hauxdata hempty [single] single (by simp [single])
  refine ⟨w.shared, s', done, heval, hiff.mpr ?_⟩
  intro i track hi
  obtain ⟨rfl, rfl⟩ : i = 0 ∧ track = 1 := by
    rcases i with _ | i
    · exact ⟨rfl, (Option.some.inj hi).symm⟩
    · cases hi
  exact ⟨1, _, _, by decide +kernel, rfl, rfl, rfl⟩

/-- Another recording of the title takes the place of the track. -/
def single_replaced : Spotify := { single with playlist_tracks := fun _ => some [2] }

/-- Its entry leads to the track that was there before. -/
theorem not_music_listing :
    ¬ ∀ (links : SpotifyLinks) (l : List (World MountInstr Mount ℕ × Action ℕ MountCall Spotify))
      (w : World MountInstr Mount ℕ) (e : Ptr) (pl : sp_playlist) (history : List Spotify)
      (o : Spotify) (done : List (Done Ptr Spotify Unit)) (s' : Mount),
      (∀ track l, links.track track = some l → IsLink l) →
      Trace (mount_system links) (World.idle Mount.init) l w → w.shared.heap.Attached e →
      w.shared.heap.readdir e = some .playlist_dir_music_readdir →
      w.shared.heap.auxdata e = some (.playlist pl) →
      (∀ name, w.shared.heap.lookup e name = none) →
      (∀ o' ∈ history ++ [o], o'.playlist_tracks pl ≠ none) →
      Prog.evalEach MountInstr.exec (playlist_dir_music_readdir links)
        ((history ++ [o]).map fun o' => (e, o')) w.shared = some (done, s') →
      ShowsPlaylist links pl o s'.heap e := by
  intro hall
  obtain ⟨l, w, hl, hattached, hreaddir, hauxdata, hempty⟩ := exists_playlist_dir
  have hw : w.shared.Wf := wf_of_trace hl
  have htracks : ∀ o' ∈ [single] ++ [single_replaced], o'.playlist_tracks 0 ≠ none := by
    simp [single, single_replaced]
  obtain ⟨done, s', heval, hm⟩ := exists_music_dir two_links_isLink
    (.start hw hreaddir hattached hauxdata hempty) ([single] ++ [single_replaced]) htracks
  have hshows := hall two_links l w 10 0 [single] single_replaced done s' two_links_isLink hl
    hattached hreaddir hauxdata hempty htracks heval
  obtain ⟨first, l, l', hfirst, hl, hl', hsame⟩ := hm.shows_iff.mp hshows 0 2 rfl
  have hfirst' : (([single] ++ [single_replaced]).flatMap (claims 0)).lookup
      (entry_name 0 (single_replaced.track_name 2)) = some 1 := by decide +kernel
  obtain rfl := Option.some.inj (hfirst.symm.trans hfirst')
  obtain rfl := Option.some.inj hl
  obtain rfl := Option.some.inj hl'
  exact absurd hsame (by decide)

end Spotifile
