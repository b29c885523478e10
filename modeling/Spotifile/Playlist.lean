import Spotifile.Links
import Spotifile.Xspf

/-!
# Reading `playlist.xspf`

`xspf_read` writes one `<track>` element for every entry of its directory other than
`playlist.xspf`, with the `auxdata` of the entry as the track. The entries are the links of
`create_wav_track_link_in_directory`, which has no `auxdata` to give them: the track is NULL, and
`populate_xspf_from_sp_track` reads through the NULL that `spotify_get_track_artists` answers.

`reads_tracks_of_carried` is what `xspf_read` does with entries that carry their tracks,
`playlist_reads_tracks_iff` what it does in the mounted file system.
-/

namespace Spotifile

open Lib

/-! ## The source -/

/-- What libspotify answers while a file is read. The functions that are called with a NULL track
may answer anything to it. -/
structure SpotifyTracks where
  track_duration : Option sp_track → ℤ
  track_name : Option sp_track → gstr
  track_album : Option sp_track → Option sp_album
  album_name : Option sp_album → gstr
  wait_on_track : sp_track → Bool
  track_artists : sp_track → List sp_artist
  artist_name : sp_artist → gstr

/-- Source: `spfs_spotify.c`, `spotify_get_track_artists`. -/
def spotify_get_track_artists (o : SpotifyTracks) : Option sp_track → Option (List sp_artist)
  | none => none
  | some track => if o.wait_on_track track then some (o.track_artists track) else none

/-- `none` where `artists->len` reads through NULL.
Source: `spfs_fuse_playlist.c`, `populate_xspf_from_sp_track`. -/
def populate_xspf_from_sp_track (o : SpotifyTracks) (x : xspf) (track : Option sp_track) :
    Option xspf := do
  let x := xspf_track_set_duration x (o.track_duration track)
  let x := xspf_track_set_title x (o.track_name track)
  let album := o.track_album track
  let x := xspf_track_set_album x (o.album_name album)
  let artists ← spotify_get_track_artists o track
  some (artists.foldl (fun x artist => xspf_track_set_creator x (o.artist_name artist)) x)

/-- `auxdata` as a track, which may be NULL; `none` where it is something else. -/
def auxdata_sp_track : Option Auxdata → Option (Option sp_track)
  | none => some none
  | some auxdata => (auxdata_track auxdata).map some

/-- The body of the loop of `xspf_read`.
Source: `spfs_fuse_playlist.c`, `xspf_read`. -/
def xspf_read_entry (o : SpotifyTracks) (h : Heap) (x : xspf) (entry : gstr × Ptr) :
    Option xspf :=
  if entry.1 = "playlist.xspf".toList then some x
  else do
    let x := xspf_begin_track x
    let v ← h.get entry.2
    let track ← auxdata_sp_track v.auxdata
    let x := xspf_track_set_location x entry.1
    let x ← populate_xspf_from_sp_track o x track
    some (xspf_end_track x)

/-- The order in which glib iterates over a hash table. -/
structure HashOrder where
  order : List (gstr × Ptr) → List (gstr × Ptr)
  perm : ∀ table, (order table).Perm table

/-- The bytes that are copied.
Source: `spfs_fuse.h`, `READ_OFFSET`. -/
def READ_OFFSET (str : gstr) (size offset : ℕ) : gstr :=
  if offset < str.length then (str.drop offset).take size else []

/-- Source: `spfs_fuse_playlist.c`, `xspf_read`. -/
def xspf_read (o : SpotifyTracks) (order : HashOrder) (h : Heap) (e : Ptr) (size offset : ℕ) :
    Option gstr := do
  let ent ← h.get e
  let parent ← ent.parent
  let children ← h.children parent
  let x := xspf_begin_tracklist (xspf_begin_playlist xspf_new)
  let x ← (order.order children).foldlM (xspf_read_entry o h) x
  let x := xspf_end_playlist (xspf_end_tracklist x)
  some (READ_OFFSET (xspf_free x) size offset)

/-! ## What it is meant to give -/

/-- What the element of a track says. -/
def SpotifyTracks.element (o : SpotifyTracks) (name : gstr) (track : sp_track) : XspfTrack where
  location := name
  duration := o.track_duration (some track)
  title := o.track_name (some track)
  album := o.album_name (o.track_album (some track))
  creators := (o.track_artists track).map o.artist_name

/-- The entries that are tracks. -/
def track_entries (entries : List (gstr × Ptr)) : List (gstr × Ptr) :=
  entries.filter fun entry => entry.1 ≠ "playlist.xspf".toList

/-- The track whose `track.wav` a link was created for. -/
def Mount.created_for (s : Mount) (link : Ptr) : Option sp_track :=
  match s.goals.lookup link with
  | some (.wav dir) => ((s.heap.get dir).bind spfs_entity.auxdata).bind auxdata_track
  | _ => none

/-- The entry carries the track that it was created for, and the element is that of this track. -/
def Mount.Element (s : Mount) (o : SpotifyTracks) (entry : gstr × Ptr) (el : XspfTrack) : Prop :=
  ∃ track, s.created_for entry.2 = some track ∧
    (s.heap.get entry.2).bind spfs_entity.auxdata = some (.track track) ∧
    el = o.element entry.1 track

/-- Reading the file `e` gives one element for each entry of the directory `dir` that is a track,
in the order of the iteration. -/
def Mount.ReadsTracks (s : Mount) (o : SpotifyTracks) (order : HashOrder) (dir e : Ptr) : Prop :=
  ∃ table els, s.heap.children dir = some table ∧
    List.Forall₂ (s.Element o) (track_entries (order.order table)) els ∧
    ∀ size offset, xspf_read o order s.heap e size offset =
      some (READ_OFFSET (xspf_render els) size offset)

/-! ## Entries with and without a track -/

section Read

variable {o : SpotifyTracks} {h : Heap} {name : gstr} {p : Ptr}

/-- Of a track whose artists are known all is written. -/
lemma populate_eq (x : xspf) {track : Option sp_track} {artists : List sp_artist}
    (hartists : spotify_get_track_artists o track = some artists) :
    populate_xspf_from_sp_track o x track =
      some (artists.foldl (fun x artist => xspf_track_set_creator x (o.artist_name artist))
        (xspf_track_set_album (xspf_track_set_title
          (xspf_track_set_duration x (o.track_duration track)) (o.track_name track))
          (o.album_name (o.track_album track)))) := by
  unfold populate_xspf_from_sp_track
  rw [hartists]
  rfl

/-- The playlist does not list itself. -/
lemma read_entry_skip (x : xspf) (p : Ptr) :
    xspf_read_entry o h x ("playlist.xspf".toList, p) = some x := if_pos rfl

/-- An entry that carries a track gets the element of the track. -/
lemma read_entry_track (s : gstr) {track : sp_track} (hname : name ≠ "playlist.xspf".toList)
    (haux : (h.get p).bind spfs_entity.auxdata = some (.track track))
    (hwait : o.wait_on_track track) :
    xspf_read_entry o h (.inTracklist s) (name, p) =
      some (.inTracklist (s ++ (o.element name track).render)) := by
  obtain ⟨v, hv, hv'⟩ := Option.bind_eq_some_iff.mp haux
  have hartists : spotify_get_track_artists o (some track) = some (o.track_artists track) :=
    if_pos hwait
  have hel := add_track_eq s (o.element name track)
  rw [SpotifyTracks.element, List.foldl_map] at hel
  have hcast : auxdata_sp_track v.auxdata = some (some track) := by
    rw [hv']
    rfl
  unfold xspf_read_entry
  rw [if_neg hname]
  simp only [hv, hcast, populate_eq _ hartists, Option.bind_eq_bind, Option.bind_some]
  exact congrArg some hel

/-- An entry without `auxdata` has a NULL track, through which `xspf_read` reads. -/
lemma read_entry_null (x : xspf) {v : spfs_entity} (hname : name ≠ "playlist.xspf".toList)
    (hv : h.get p = some v) (haux : v.auxdata = none) :
    xspf_read_entry o h x (name, p) = none := by
  rw [xspf_read_entry, if_neg hname, hv, Option.bind_eq_bind, Option.bind_some, haux]
  rfl

/-- The loop over entries that carry tracks. -/
lemma foldlM_read_entry {entries : List (gstr × Ptr)} {els : List XspfTrack}
    (hels : List.Forall₂ (fun entry el => ∃ track,
      (h.get entry.2).bind spfs_entity.auxdata = some (.track track) ∧ o.wait_on_track track ∧
        el = o.element entry.1 track) (track_entries entries) els) (s : gstr) :
    entries.foldlM (xspf_read_entry o h) (.inTracklist s) =
      some (.inTracklist (s ++ els.flatMap XspfTrack.render)) := by
  induction entries generalizing els s with
  | nil =>
    cases hels
    rw [List.foldlM_nil, List.flatMap_nil, List.append_nil]
    rfl
  | cons entry entries ih =>
    obtain ⟨name, p⟩ := entry
    by_cases hname : name = "playlist.xspf".toList
    · subst hname
      rw [List.foldlM_cons, read_entry_skip]
      exact ih hels s
    · have hcons : track_entries ((name, p) :: entries) = (name, p) :: track_entries entries :=
        List.filter_cons_of_pos (decide_eq_true hname)
      rw [hcons] at hels
      obtain ⟨el, els, ⟨track, haux, hwait, rfl⟩, hrest, rfl⟩ := List.forall₂_cons_left_iff.mp hels
      rw [List.foldlM_cons, read_entry_track s hname haux hwait, List.flatMap_cons,
        ← List.append_assoc]
      exact ih hrest _

/-- The loop does not get past an entry that it cannot read. -/
lemma foldlM_read_entry_none {entries : List (gstr × Ptr)} {entry : gstr × Ptr}
    (hentry : entry ∈ entries) (hnone : ∀ x, xspf_read_entry o h x entry = none) (x : xspf) :
    entries.foldlM (xspf_read_entry o h) x = none := by
  induction entries generalizing x with
  | nil => cases hentry
  | cons first entries ih =>
    rw [List.foldlM_cons]
    rcases List.mem_cons.mp hentry with rfl | hentry
    · rw [hnone]
      rfl
    · rcases xspf_read_entry o h x first with _ | x'
      · rfl
      · exact ih hentry x'

end Read

/-! ## Reading the file -/

namespace Mount

variable {s : Mount} {o : SpotifyTracks} {order : HashOrder} {dir e : Ptr}

/-- A read writes the entries of the directory, in the order of the table. -/
lemma xspf_read_eq {table : List (gstr × Ptr)} (hparent : s.heap.parent e = some dir)
    (htable : s.heap.children dir = some table) (size offset : ℕ) :
    xspf_read o order s.heap e size offset =
      ((order.order table).foldlM (xspf_read_entry o s.heap) (.inTracklist xspf_head)).map fun x =>
        READ_OFFSET (xspf_free (xspf_end_playlist (xspf_end_tracklist x))) size offset := by
  obtain ⟨ent, hent, hpar⟩ := Option.bind_eq_some_iff.mp hparent
  unfold xspf_read
  simp only [hent, hpar, htable, Option.bind_eq_bind, Option.bind_some, begin_tracklist_eq]
  rw [Option.map_eq_bind]
  rfl

/-- Entries that carry the tracks they were created for are read as they should be. -/
theorem reads_tracks_of_carried {table : List (gstr × Ptr)} (hparent : s.heap.parent e = some dir)
    (htable : s.heap.children dir = some table)
    (hcarried : ∀ entry ∈ track_entries table, ∃ track, s.created_for entry.2 = some track ∧
      (s.heap.get entry.2).bind spfs_entity.auxdata = some (.track track) ∧
      o.wait_on_track track) : s.ReadsTracks o order dir e := by
  have hperm : (track_entries (order.order table)).Perm (track_entries table) :=
    (order.perm table).filter _
  have hall : ∀ entry ∈ track_entries (order.order table), ∃ el, s.Element o entry el ∧
      ∃ track, (s.heap.get entry.2).bind spfs_entity.auxdata = some (.track track) ∧
        o.wait_on_track track ∧ el = o.element entry.1 track := by
    intro entry hentry
    obtain ⟨track, hfor, haux, hwait⟩ := hcarried entry (hperm.subset hentry)
    exact ⟨o.element entry.1 track, ⟨track, hfor, haux, rfl⟩, track, haux, hwait, rfl⟩
  obtain ⟨els, hels⟩ : ∃ els, List.Forall₂ (fun entry el => s.Element o entry el ∧
      ∃ track, (s.heap.get entry.2).bind spfs_entity.auxdata = some (.track track) ∧
        o.wait_on_track track ∧ el = o.element entry.1 track)
      (track_entries (order.order table)) els := by
    generalize track_entries (order.order table) = entries at hall
    induction entries with
    | nil => exact ⟨[], .nil⟩
    | cons entry entries ih =>
      obtain ⟨el, hel⟩ := hall entry List.mem_cons_self
      obtain ⟨els, hels⟩ := ih fun entry' hentry' => hall entry' (List.mem_cons_of_mem _ hentry')
      exact ⟨el :: els, .cons hel hels⟩
  refine ⟨table, els, htable, hels.imp fun _ _ hand => hand.1, fun size offset => ?_⟩
  rw [xspf_read_eq hparent htable, foldlM_read_entry (hels.imp fun _ _ hand => hand.2),
    Option.map_some, end_document_eq]
  rfl

/-- The entries of a playlist's music directory have no `auxdata`. -/
lemma Wf.auxdata_of_music (hw : s.Wf)
    (hdir : s.heap.readdir dir = some .playlist_dir_music_readdir) {name : gstr} {child : Ptr}
    (hentry : s.heap.lookup dir name = some child) (hname : name ≠ "playlist.xspf".toList) :
    ∃ v, s.heap.get child = some v ∧ v.auxdata = none := by
  obtain ⟨-, hchild, hparent⟩ := hw.tree.entry dir name child hentry
  obtain ⟨v, hv, hvname⟩ := Option.bind_eq_some_iff.mp hchild
  have hvparent : v.parent = some dir := by simpa [Heap.parent, hv] using hparent
  refine ⟨v, hv, ?_⟩
  rcases (hw.placed child v dir hv hvparent).music hdir with hand | hxspf
  · exact hand.2
  · exact absurd (Option.some.inj (hvname.symm.trans hxspf)) hname

/-- With an entry that is a track, `xspf_read` reads through NULL. -/
theorem Wf.xspf_read_eq_none (hw : s.Wf)
    (hdir : s.heap.readdir dir = some .playlist_dir_music_readdir)
    (hparent : s.heap.parent e = some dir) {name : gstr} {child : Ptr}
    (hentry : s.heap.lookup dir name = some child) (hname : name ≠ "playlist.xspf".toList)
    (size offset : ℕ) : xspf_read o order s.heap e size offset = none := by
  obtain ⟨v, hv, haux⟩ := hw.auxdata_of_music hdir hentry hname
  obtain ⟨table, htable, hlookup⟩ := Option.bind_eq_some_iff.mp hentry
  obtain ⟨l₁, l₂, hsplit, -⟩ := List.lookup_eq_some_iff.mp hlookup
  have hmem : (name, child) ∈ order.order table := by
    apply (order.perm table).mem_iff.mpr
    rw [hsplit]
    exact List.mem_append_right l₁ List.mem_cons_self
  rw [xspf_read_eq hparent htable,
    foldlM_read_entry_none hmem fun x => read_entry_null x hname hv haux]
  rfl

end Mount

/-- In every run, `playlist.xspf` is read as it should be exactly if there is no track in its
directory. -/
theorem playlist_reads_tracks_iff {links : SpotifyLinks}
    {l : List (World MountInstr Mount ℕ × Action ℕ MountCall Spotify)}
    {w : World MountInstr Mount ℕ} (hl : Trace (mount_system links) (World.idle Mount.init) l w)
    {dir e : Ptr} (hdir : w.shared.heap.readdir dir = some .playlist_dir_music_readdir)
    (he : w.shared.heap.lookup dir "playlist.xspf".toList = some e) (o : SpotifyTracks)
    (order : HashOrder) :
    w.shared.ReadsTracks o order dir e ↔
      ∀ name child, w.shared.heap.lookup dir name = some child →
        name = "playlist.xspf".toList := by
  have hw : w.shared.Wf := (mount_inv (fun h : False => h.elim) hl fun h => h.elim).wf
  obtain ⟨-, -, hparent⟩ := hw.tree.entry dir _ e he
  constructor
  · rintro ⟨table, els, -, -, hread⟩ name child hentry
    by_contra hname
    have hsome := hread 0 0
    rw [hw.xspf_read_eq_none hdir hparent hentry hname] at hsome
    cases hsome
  · intro hall
    obtain ⟨table, htable, -⟩ := Option.bind_eq_some_iff.mp he
    apply Mount.reads_tracks_of_carried hparent htable
    rintro ⟨name, child⟩ hmem
    obtain ⟨hmem, hname⟩ := List.mem_filter.mp hmem
    have hentry := Heap.lookup_of_mem (hw.tree.distinct dir table htable) htable hmem
    exact absurd (hall name child hentry) (of_decide_eq_true hname)

/-! ## Runs -/

/-- Answers for tracks that are loaded, and for NULL as well. -/
def loaded_tracks : SpotifyTracks where
  track_duration _ := 180000
  track_name _ := "T".toList
  track_album _ := some 0
  album_name _ := "L".toList
  wait_on_track _ := true
  track_artists _ := [0]
  artist_name _ := "A".toList

/-- Iteration in the order of insertion. -/
def insertion_order : HashOrder := ⟨id, fun table => .refl table⟩

/-- The playlists are listed, then the playlist; `o` is what libspotify answers, `n` how many
instructions the second listing takes. -/
def list_music (o : Spotify) (n : ℕ) : List (Action ℕ MountCall Spotify) :=
  mount_run o 0 (.readdir "/playlists/music".toList) 7 ++
    mount_run o 0 (.readdir "/playlists/music/p".toList) n

/-- The playlist `p` is empty. -/
def no_tracks : Spotify := { single with playlist_tracks := fun _ => some [] }

set_option maxRecDepth 100000 in
/-- The file of an empty playlist is read as it should be. -/
theorem list_music_no_tracks : ∃ w : World MountInstr Mount ℕ,
    w.shared.heap.lookup 10 "playlist.xspf".toList = some 11 ∧
      w.shared.ReadsTracks loaded_tracks insertion_order 10 11 := by
  obtain ⟨l, w, hl, -, hdir, he, htable⟩ := Trace.exists_of_run (mount_system numbered_links)
    (fun _ _ => True) (World.idle Mount.init) (list_music no_tracks 7)
    (fun w => w.shared.heap.readdir 10 = some .playlist_dir_music_readdir ∧
      w.shared.heap.lookup 10 "playlist.xspf".toList = some 11 ∧
      w.shared.heap.children 10 = some [("playlist.xspf".toList, 11)])
    (by decide +kernel)
  refine ⟨w, he, (playlist_reads_tracks_iff hl hdir he loaded_tracks insertion_order).mpr ?_⟩
  intro name child hentry
  rw [Heap.lookup, htable, Option.bind_some] at hentry
  obtain ⟨l₁, l₂, hsplit, -⟩ := List.lookup_eq_some_iff.mp hentry
  have hmem : (name, child) ∈ [("playlist.xspf".toList, 11)] := by
    rw [hsplit]
    exact List.mem_append_right l₁ List.mem_cons_self
  exact congrArg Prod.fst (List.mem_singleton.mp hmem)

set_option maxRecDepth 100000 in
/-- With one track in the playlist, the file cannot be read. -/
theorem not_playlist_reads_tracks :
    ¬ ∀ (links : SpotifyLinks) (l : List (World MountInstr Mount ℕ × Action ℕ MountCall Spotify))
      (w : World MountInstr Mount ℕ) (dir e : Ptr) (o : SpotifyTracks) (order : HashOrder),
      Trace (mount_system links) (World.idle Mount.init) l w →
      w.shared.heap.readdir dir = some .playlist_dir_music_readdir →
      w.shared.heap.lookup dir "playlist.xspf".toList = some e →
      (∀ track, o.wait_on_track track) → w.shared.ReadsTracks o order dir e := by
  intro h
  obtain ⟨l, w, hl, -, hdir, he, hcrash⟩ := Trace.exists_of_run (mount_system numbered_links)
    (fun _ _ => True) (World.idle Mount.init) (list_music single 17)
    (fun w => w.shared.heap.readdir 10 = some .playlist_dir_music_readdir ∧
      w.shared.heap.lookup 10 "playlist.xspf".toList = some 24 ∧
      xspf_read loaded_tracks insertion_order w.shared.heap 24 4096 0 = none)
    (by decide +kernel)
  obtain ⟨table, els, -, -, hread⟩ :=
    h numbered_links l w 10 24 loaded_tracks insertion_order hl hdir he fun _ => rfl
  have hsome := hread 4096 0
  rw [hcrash] at hsome
  cases hsome

end Spotifile
