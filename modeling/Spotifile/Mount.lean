import Spotifile.Growth
import Spotifile.Lib.Interleave

/-!
# The mounted file system

The operations that make the tree grow: listing a directory (`spfs_opendir` and `spfs_readdir`
with the `readdir` of the directory), `spfs_mkdir`, and the callback with which libspotify reports
a finished search. FUSE calls the operations from any number of threads and libspotify calls back
from its own; the entities are under no lock. So every operation is a program whose instructions
are the calls of `spfs_fuse_entity.c` and of `spfs_spotify.c`, and the programs interleave.

An entity that nobody else knows yet is created, filled and added to its directory in one
instruction, `add_new`. A search directory is different: `spotify_search_create_track_search` hands
it to the callback before `search_dir_mkdir` adds it to its parent.

What libspotify answers is up to the scheduler, and may be different in every call. Only the
string of a link does not change, so it is a parameter. Reading through NULL ends a thread
(`crash`).

The times of the entities and the lock on libspotify are left out.
-/

namespace Spotifile

open Lib

/-! ## libspotify -/

/-- What libspotify answers in one call. NULL stands for what did not load in time. -/
structure Spotify where
  playlists : Option (List sp_playlist)
  playlist_tracks : sp_playlist → Option (List sp_track)
  playlist_name : sp_playlist → gstr
  track_name : sp_track → gstr
  track_num_artists : sp_track → ℕ
  track_artist : sp_track → ℕ → sp_artist
  artist_name : sp_artist → gstr
  artistbrowse_create : sp_artist → Option sp_artistbrowse
  artistbrowse_albums : Option sp_artistbrowse → Option (List sp_album)
  artistbrowse_portraits : Option sp_artistbrowse → Option (List ℕ)
  album_name : sp_album → gstr
  image_create : ℕ → Option sp_image
  search_create : sp_search
  search_num_tracks : sp_search → ℕ
  search_track : sp_search → ℕ → sp_track

/-- The strings of links: what `spotify_link_as_string` leaves in a buffer of 1024 bytes; `none`
where `spotify_link_create_from_..` gives NULL. -/
structure SpotifyLinks where
  track : sp_track → Option gstr
  artist : sp_artist → Option gstr
  album : sp_album → Option gstr

/-! ## The state -/

/-- What a link is created for: a directory under `/browse`, or the `track.wav` in it. -/
inductive Goal
  | browse (dir : Ptr)
  | wav (dir : Ptr)
deriving DecidableEq, Repr

/-- The entity that a goal stands for. -/
def Goal.entity (h : Heap) : Goal → Option Ptr
  | .browse dir => some dir
  | .wav dir => h.lookup dir "track.wav".toList

/-- The entities, and the searches that may call back, each with its directory.

Two fields are not in the source, and no instruction reads them: the goal of each link whose
target was set, the latest first, and the directories from which a relative path was computed
before they had a parent. -/
structure Mount where
  heap : Heap
  searches : List (sp_search × Ptr)
  goals : List (Ptr × Goal)
  early : List Ptr

/-! ## The instructions -/

/-- Every entry is created and added to the directory `p`. -/
def add_entries (h : Heap) (p : Ptr) (entries : List spfs_entity) : Heap :=
  entries.foldl (fun h entry => spfs_entity_dir_add_child (h.alloc entry) p h.fresh) h

/-- A new entity, its entries, and the entity added to the directory `dir`. -/
def add_new (h : Heap) (dir : Ptr) (e : spfs_entity) (entries : List spfs_entity) : Heap :=
  spfs_entity_dir_add_child (add_entries (h.alloc e) h.fresh entries) dir h.fresh

/-- The instructions of the operations. -/
inductive MountInstr : Type → Type
  | crash : MountInstr Empty
  | root_get : MountInstr (Option Ptr)
  | entity (p : Ptr) : MountInstr spfs_entity
  | find_path (root : Option Ptr) (path : gstr) : MountInstr (Option Ptr)
  | has_child (dir : Ptr) (name : gstr) : MountInstr Bool
  | get_child (dir : Ptr) (name : gstr) : MountInstr (Option Ptr)
  | add_new (dir : Ptr) (e : spfs_entity) (entries : List spfs_entity) : MountInstr Ptr
  | dir_create (name : gstr) (ops : spfs_dir_ops) : MountInstr Ptr
  | add_child (parent child : Ptr) : MountInstr Unit
  | relpath (src : Ptr) (dst : Option Ptr) : MountInstr (Option gstr)
  | link_set_target (link : Ptr) (target : Option gstr) (goal : Option Goal) : MountInstr Unit
  | search_create (query : gstr) (e : Ptr) : MountInstr sp_search
  | set_auxdata (e : Ptr) (auxdata : Auxdata) : MountInstr Unit
  | playlists : MountInstr (Option (List sp_playlist))
  | playlist_tracks (playlist : sp_playlist) : MountInstr (Option (List sp_track))
  | playlist_name (playlist : sp_playlist) : MountInstr gstr
  | track_name (track : sp_track) : MountInstr gstr
  | track_num_artists (track : sp_track) : MountInstr ℕ
  | track_artist (track : sp_track) (index : ℕ) : MountInstr sp_artist
  | artist_name (artist : sp_artist) : MountInstr gstr
  | artistbrowse_create (artist : sp_artist) : MountInstr (Option sp_artistbrowse)
  | artistbrowse_albums (ab : Option sp_artistbrowse) : MountInstr (Option (List sp_album))
  | artistbrowse_portraits (ab : Option sp_artistbrowse) : MountInstr (Option (List ℕ))
  | album_name (album : sp_album) : MountInstr gstr
  | image_create (id : ℕ) : MountInstr (Option sp_image)
  | search_num_tracks (search : sp_search) : MountInstr ℕ
  | search_track (search : sp_search) (index : ℕ) : MountInstr sp_track

/-- What the instructions do; `o` is what libspotify answers. Of an entity that is no directory the
children are not looked up: what the source would read as a table is none. -/
def MountInstr.exec {γ : Type} (i : MountInstr γ) (o : Spotify) (s : Mount) :
    Option (Option γ × Mount) :=
  match i with
  | .crash => none
  | .root_get => some (some s.heap.spfs_root, s)
  | .entity p => (s.heap.get p).map fun e => (some e, s)
  | .find_path root path =>
    some (some (root.bind fun root => spfs_entity_find_path s.heap root path), s)
  | .has_child dir name =>
    if s.heap.children dir = none then none
    else some (some (spfs_entity_dir_has_child s.heap dir name), s)
  | .get_child dir name =>
    if s.heap.children dir = none then none
    else some (some (spfs_entity_dir_get_child s.heap dir name), s)
  | .add_new dir e entries =>
    some (some s.heap.fresh, { s with heap := Spotifile.add_new s.heap dir e entries })
  | .dir_create name ops =>
    some (some s.heap.fresh,
      { s with heap := s.heap.alloc (spfs_entity_dir_create (some name) ops) })
  | .add_child parent child =>
    some (some (), { s with heap := spfs_entity_dir_add_child s.heap parent child })
  | .relpath src dst =>
    some (some (Spotifile.relpath s.heap src dst),
      { s with early := if s.heap.parent src = none then src :: s.early else s.early })
  | .link_set_target link target goal =>
    some (some (), { s with
      heap := spfs_entity_link_set_target s.heap link target
      goals := goal.toList.map (fun g => (link, g)) ++ s.goals })
  | .search_create _ e =>
    some (some o.search_create, { s with searches := (o.search_create, e) :: s.searches })
  | .set_auxdata e auxdata =>
    some (some (), { s with heap := s.heap.modify e fun e => { e with auxdata := some auxdata } })
  | .playlists => some (some o.playlists, s)
  | .playlist_tracks playlist => some (some (o.playlist_tracks playlist), s)
  | .playlist_name playlist => some (some (o.playlist_name playlist), s)
  | .track_name track => some (some (o.track_name track), s)
  | .track_num_artists track => some (some (o.track_num_artists track), s)
  | .track_artist track index => some (some (o.track_artist track index), s)
  | .artist_name artist => some (some (o.artist_name artist), s)
  | .artistbrowse_create artist => some (some (o.artistbrowse_create artist), s)
  | .artistbrowse_albums ab => some (some (o.artistbrowse_albums ab), s)
  | .artistbrowse_portraits ab => some (some (o.artistbrowse_portraits ab), s)
  | .album_name album => some (some (o.album_name album), s)
  | .image_create id => some (some (o.image_create id), s)
  | .search_num_tracks search => some (some (o.search_num_tracks search), s)
  | .search_track search index => some (some (o.search_track search index), s)

/-- An entity that is there is read. -/
lemma exec_entity (o : Spotify) {s : Mount} {p : Ptr} {e : spfs_entity}
    (h : s.heap.get p = some e) : MountInstr.exec (.entity p) o s = some (some e, s) := by
  rw [MountInstr.exec, h]
  rfl

/-- A child of a directory is looked up. -/
lemma exec_has_child (o : Spotify) {s : Mount} {dir : Ptr} (name : gstr)
    (h : s.heap.children dir ≠ none) : MountInstr.exec (.has_child dir name) o s =
      some (some (spfs_entity_dir_has_child s.heap dir name), s) := by
  rw [MountInstr.exec, if_neg h]

/-- A child of a directory is looked up, as a pointer. -/
lemma exec_get_child (o : Spotify) {s : Mount} {dir : Ptr} (name : gstr)
    (h : s.heap.children dir ≠ none) : MountInstr.exec (.get_child dir name) o s =
      some (some (spfs_entity_dir_get_child s.heap dir name), s) := by
  rw [MountInstr.exec, if_neg h]

/-- A look-up that is executed is one in a directory, and changes nothing. -/
lemma exec_lookup_cases {γ : Type} {h : Heap} {dir : Ptr} {v : γ} {s s' : Mount} {r : Option γ}
    (he : (if h.children dir = none then none else some (some v, s)) = some (r, s')) :
    h.children dir ≠ none ∧ r = some v ∧ s' = s := by
  split at he
  · cases he
  · next hdir =>
    obtain ⟨rfl, rfl⟩ := Prod.mk.inj (Option.some.inj he)
    exact ⟨hdir, rfl, rfl⟩

/-- A program of the file system. -/
abbrev MountProg (α : Type) := Prog MountInstr α

/-- Reading through a pointer. -/
def deref {α : Type} : Option α → MountProg α
  | some a => .ret a
  | none => .call .crash fun e => e.elim

/-! ## The casts of `auxdata` -/

/-- `auxdata` as a track. -/
def auxdata_track : Auxdata → Option sp_track
  | .track track => some track
  | _ => none

/-- `auxdata` as a playlist. -/
def auxdata_playlist : Auxdata → Option sp_playlist
  | .playlist playlist => some playlist
  | _ => none

/-- `auxdata` as an artistbrowse. -/
def auxdata_artistbrowse : Auxdata → Option (Option sp_artistbrowse)
  | .artistbrowse ab => some ab
  | _ => none

/-! ## Browse directories -/

/-- What the three `create_.._browse_dir` have in common: the directory that is already there, or
a new one with its entries.
Source: `spfs_fuse_track.c`, `spfs_fuse_artist.c`, `spfs_fuse_album.c`. -/
def create_browse_dir (path : gstr) (link : Option gstr)
    (create : gstr → MountProg (spfs_entity × List spfs_entity)) : MountProg (Option Ptr) := do
  let spfs_root ← .of .root_get
  let found ← .of (.find_path spfs_root path)
  match link with
  | none => .ret none
  | some linkstring => do
    let browse_dir ← deref found
    let has ← .of (.has_child browse_dir linkstring)
    if has then .of (.get_child browse_dir linkstring)
    else do
      let new ← create linkstring
      let dir ← .of (.add_new browse_dir new.1 new.2)
      .ret (some dir)

/-- A file with a `read`. -/
def read_file (name : gstr) (read : SpfsReadFunc) : spfs_entity :=
  spfs_entity_file_create name ⟨some read, false⟩

/-- Source: `spfs_fuse_track.c`, `create_track_wav_file`. -/
def create_track_wav_file (name : gstr) (track : sp_track) : spfs_entity :=
  { spfs_entity_file_create name ⟨some .wav_read, true⟩ with auxdata := some (.track track) }

/-- Source: `spfs_fuse_track.c`, `create_track_browse_dir`. -/
def track_dir_entries (track : sp_track) : List spfs_entity :=
  [read_file "name".toList .track_name_read,
   create_track_wav_file "track.wav".toList track,
   read_file "duration".toList .duration_read,
   read_file "popularity".toList .popularity_read,
   read_file "index".toList .index_read,
   read_file "disc".toList .disc_read,
   read_file "starred".toList .is_starred_read,
   read_file "local".toList .is_local_read,
   read_file "autolinked".toList .is_autolinked_read,
   read_file "offlinestatus".toList .offlinestatus_read,
   spfs_entity_dir_create (some "artists".toList) ⟨some .artists_readdir, none⟩]

/-- Source: `spfs_fuse_artist.c`, `create_artist_browse_dir`. -/
def artist_dir_entries : List spfs_entity :=
  [read_file "name".toList .artist_name_read,
   read_file "biography".toList .biography_read,
   spfs_entity_dir_create (some "albums".toList) ⟨some .albums_readdir, none⟩,
   spfs_entity_dir_create (some "portraits".toList) ⟨some .portraits_readdir, none⟩]

/-- Source: `spfs_fuse_album.c`, `create_album_browse_dir`. -/
def album_dir_entries : List spfs_entity :=
  [read_file "name".toList .album_name_read,
   read_file "cover.jpg".toList .cover_read]

/-- A directory without operations, with its `auxdata`. -/
def browse_dir_create (name : gstr) (auxdata : Auxdata) : spfs_entity :=
  { spfs_entity_dir_create (some name) ⟨none, none⟩ with auxdata := some auxdata }

section Programs

variable (links : SpotifyLinks)

/-- Source: `spfs_fuse_track.c`, `create_track_browse_dir`. -/
def create_track_browse_dir (track : sp_track) : MountProg (Option Ptr) :=
  create_browse_dir "/browse/tracks".toList (links.track track) fun track_linkstring =>
    .ret (browse_dir_create track_linkstring (.track track), track_dir_entries track)

/-- Source: `spfs_fuse_artist.c`, `create_artist_browse_dir`. -/
def create_artist_browse_dir (artist : sp_artist) : MountProg (Option Ptr) :=
  create_browse_dir "/browse/artists".toList (links.artist artist) fun artist_linkstring => do
    let ab ← .of (.artistbrowse_create artist)
    .ret (browse_dir_create artist_linkstring (.artistbrowse ab), artist_dir_entries)

/-- Source: `spfs_fuse_album.c`, `create_album_browse_dir`. -/
def create_album_browse_dir (album : sp_album) : MountProg (Option Ptr) :=
  create_browse_dir "/browse/albums".toList (links.album album) fun album_linkstring =>
    .ret (browse_dir_create album_linkstring (.album album), album_dir_entries)

/-! ## Links -/

/-- A new link in the directory `dir`, with the relative path to `dst` as its target: the four
calls that every function that makes links has at its end. -/
def create_link (dir : Ptr) (name : gstr) (goal : Option Goal) (dst : Option Ptr) :
    MountProg Unit := do
  let link ← .of (.add_new dir (spfs_entity_link_create name) [])
  let rpath ← .of (.relpath dir dst)
  .of (.link_set_target link rpath goal)

/-- Source: `spfs_fuse_track.c`, `create_wav_track_link_in_directory`. -/
def create_wav_track_link_in_directory (dir : Ptr) (linkname : gstr) (track : sp_track) :
    MountProg Unit := do
  let has ← .of (.has_child dir linkname)
  if has then .ret ()
  else do
    let track_browse_dir ← create_track_browse_dir links track
    let track_wav ← .of (.find_path track_browse_dir "track.wav".toList)
    create_link dir linkname (track_browse_dir.map .wav) track_wav

/-! ## Listing a directory -/

/-- Source: `spfs_fuse_playlist.c`, `playlist_dir_meta_readdir`. -/
def playlist_dir_meta_readdir (e : Ptr) : MountProg Unit := do
  let ent ← .of (.entity e)
  let pl ← deref (ent.auxdata.bind auxdata_playlist)
  let tracks ← .of (.playlist_tracks pl)
  let tracks ← deref tracks
  Prog.forEach tracks fun track => do
    let trackname ← .of (.track_name track)
    let track_browse_dir ← create_track_browse_dir links track
    let has ← .of (.has_child e trackname)
    if has then .ret ()
    else create_link e trackname (track_browse_dir.map .browse) track_browse_dir

/-- `%.2d`. -/
def printf_02d (i : ℕ) : gstr :=
  if i < 10 then '0' :: Nat.toDigits 10 i else Nat.toDigits 10 i

/-- The name of the link to a track of a playlist.
Source: `spfs_fuse_playlist.c`, `playlist_dir_music_readdir`. -/
def formatted_trackname (i : ℕ) (trackname : gstr) : gstr :=
  printf_02d i ++ " - ".toList ++ trackname ++ ".wav".toList

/-- The index and the title are joined by a dash. -/
lemma dash_mem_formatted_trackname (i : ℕ) (trackname : gstr) :
    '-' ∈ formatted_trackname i trackname := by
  rw [formatted_trackname]
  simp

/-- Source: `spfs_fuse_playlist.c`, `playlist_dir_music_readdir`. -/
def playlist_dir_music_readdir (e : Ptr) : MountProg Unit := do
  let ent ← .of (.entity e)
  let pl ← deref (ent.auxdata.bind auxdata_playlist)
  let tracks ← .of (.playlist_tracks pl)
  let tracks ← deref tracks
  Prog.forEach tracks.zipIdx fun track => do
    let trackname ← .of (.track_name track.1)
    create_wav_track_link_in_directory links e (formatted_trackname track.2 trackname) track.1
  let has ← .of (.has_child e "playlist.xspf".toList)
  if has then .ret ()
  else do
    let _ ← .of (.add_new e (read_file "playlist.xspf".toList .xspf_read) [])

/-- What the two `readdir` of the playlists directories have in common.
Source: `spfs_fuse_playlist.c`. -/
def playlists_dir_readdir (readdir : SpfsReaddirFunc) (playlists_dir : Ptr) : MountProg Unit := do
  let playlists ← .of .playlists
  let playlists ← deref playlists
  Prog.forEach playlists fun pl => do
    let name ← .of (.playlist_name pl)
    let has ← .of (.has_child playlists_dir name)
    if has then .ret ()
    else do
      let _ ← .of (.add_new playlists_dir
        { spfs_entity_dir_create (some name) ⟨some readdir, none⟩ with
          auxdata := some (.playlist pl) } [])

/-- Source: `spfs_fuse_playlist.c`, `playlists_music_dir_readdir`. -/
def playlists_music_dir_readdir : Ptr → MountProg Unit :=
  playlists_dir_readdir .playlist_dir_music_readdir

/-- Source: `spfs_fuse_playlist.c`, `playlists_meta_dir_readdir`. -/
def playlists_meta_dir_readdir : Ptr → MountProg Unit :=
  playlists_dir_readdir .playlist_dir_meta_readdir

/-- `e->parent->auxdata`. -/
def parent_auxdata (e : Ptr) : MountProg (Option Auxdata) := do
  let ent ← .of (.entity e)
  let parent ← deref ent.parent
  let ent ← .of (.entity parent)
  .ret ent.auxdata

/-- Source: `spfs_fuse_track.c`, `artists_readdir`. -/
def artists_readdir (e : Ptr) : MountProg Unit := do
  let auxdata ← parent_auxdata e
  let track ← deref (auxdata.bind auxdata_track)
  let num_artists ← .of (.track_num_artists track)
  Prog.forEach (List.range num_artists) fun i => do
    let artist ← .of (.track_artist track i)
    let artistname ← .of (.artist_name artist)
    let artist_browse_dir ← create_artist_browse_dir links artist
    let has ← .of (.has_child e artistname)
    if has then .ret ()
    else create_link e artistname (artist_browse_dir.map .browse) artist_browse_dir

/-- Source: `spfs_fuse_artist.c`, `albums_readdir`. -/
def albums_readdir (e : Ptr) : MountProg Unit := do
  let auxdata ← parent_auxdata e
  let ab ← deref (auxdata.bind auxdata_artistbrowse)
  let albums ← .of (.artistbrowse_albums ab)
  Prog.forEach (albums.getD []) fun album => do
    let album_browse_dir ← create_album_browse_dir links album
    let album_name ← .of (.album_name album)
    let has ← .of (.has_child e album_name)
    if has then .ret ()
    else create_link e album_name (album_browse_dir.map .browse) album_browse_dir

/-- Source: `spfs_fuse_artist.c`, `portraits_readdir`. -/
def portraits_readdir (e : Ptr) : MountProg Unit := do
  let auxdata ← parent_auxdata e
  let ab ← deref (auxdata.bind auxdata_artistbrowse)
  let portraits ← .of (.artistbrowse_portraits ab)
  Prog.forEach (portraits.getD []).zipIdx fun portrait => do
    let portrait_name := Nat.toDigits 10 (portrait.2 + 1) ++ ".jpg".toList
    let has ← .of (.has_child e portrait_name)
    if has then .ret ()
    else do
      let image ← .of (.image_create portrait.1)
      let _ ← .of (.add_new e
        { read_file portrait_name .portrait_read with auxdata := some (.image image) } [])

/-- Source: `spfs_fuse_search.c`, `search_readdir`. -/
def search_readdir (_ : Ptr) : MountProg Unit := .ret ()

/-- The function that a `readdir` points to. -/
def readdir_prog : SpfsReaddirFunc → Ptr → MountProg Unit
  | .playlists_meta_dir_readdir => playlists_meta_dir_readdir
  | .playlists_music_dir_readdir => playlists_music_dir_readdir
  | .playlist_dir_meta_readdir => playlist_dir_meta_readdir links
  | .playlist_dir_music_readdir => playlist_dir_music_readdir links
  | .artists_readdir => artists_readdir links
  | .albums_readdir => albums_readdir links
  | .portraits_readdir => portraits_readdir
  | .search_readdir => search_readdir

/-- `spfs_opendir`, and `spfs_readdir` on the handle. What it reports to FUSE is left out.
Source: `spfs_fuse.c`, `spfs_opendir` and `spfs_readdir`. -/
def spfs_readdir (path : gstr) : MountProg Unit := do
  let spfs_root ← .of .root_get
  let found ← .of (.find_path spfs_root path)
  match found with
  | none => .ret ()
  | some e => do
    let ent ← .of (.entity e)
    match ent.readdir with
    | none => .ret ()
    | some f => readdir_prog links f e

/-! ## Searches -/

/-- The name of the link to a track that a search has found.
Source: `spfs_fuse_search.c`, `track_search_complete_cb`. -/
def formatted_result (artistname trackname : gstr) : gstr :=
  artistname ++ " - ".toList ++ trackname ++ ".wav".toList

/-- The artist and the title are joined by a dash. -/
lemma dash_mem_formatted_result (artistname trackname : gstr) :
    '-' ∈ formatted_result artistname trackname := by
  rw [formatted_result]
  simp

/-- Source: `spfs_fuse_search.c`, `track_search_complete_cb`. -/
def track_search_complete_cb (search : sp_search) (entity : Ptr) : MountProg Unit := do
  let num_tracks ← .of (.search_num_tracks search)
  Prog.forEach (List.range num_tracks) fun i => do
    let track ← .of (.search_track search i)
    let trackname ← .of (.track_name track)
    let artist ← .of (.track_artist track 0)
    let artistname ← .of (.artist_name artist)
    create_wav_track_link_in_directory links entity (formatted_result artistname trackname) track

/-- Source: `spfs_fuse_search.c`, `search_dir_mkdir`. -/
def search_dir_mkdir (parent : Ptr) (dirname : gstr) : MountProg ℤ := do
  let has ← .of (.has_child parent dirname)
  if has then .ret (-EEXIST)
  else do
    let e ← .of (.dir_create dirname ⟨some .search_readdir, none⟩)
    let search ← .of (.search_create dirname e)
    .of (.set_auxdata e (.search search))
    .of (.add_child parent e)
    .ret 0

/-- The `mkdir` of a directory. -/
def spfs_entity.mkdir (e : spfs_entity) : Option SpfsMkdirFunc :=
  match e.e with
  | .dir ops _ => ops.mkdir
  | _ => none

/-- With a session. The path is given by its two parts, as `g_path_get_dirname` and
`g_path_get_basename` cut it (`Mkdir.spfs_mkdir` has the path).
Source: `spfs_fuse.c`, `spfs_mkdir`. -/
def spfs_mkdir (parent_dirname new_dirname : gstr) : MountProg ℤ := do
  let spfs_root ← .of .root_get
  let found ← .of (.find_path spfs_root parent_dirname)
  match found with
  | none => .ret (-ENOENT)
  | some parent => do
    let ent ← .of (.entity parent)
    if ent.e.children.isNone then .ret (-ENOENT)
    else
      match ent.mkdir with
      | none => .ret (-EACCES)
      | some .search_dir_mkdir => search_dir_mkdir parent new_dirname

/-! ## The system -/

/-- The operations. -/
inductive MountCall
  | readdir (path : gstr)
  | mkdir (parent_dirname new_dirname : gstr)
  | search_complete (search : sp_search) (entity : Ptr)
deriving DecidableEq

/-- The program of an operation. -/
def MountCall.prog : MountCall → MountProg Unit
  | .readdir path => spfs_readdir links path
  | .mkdir parent_dirname new_dirname => do let _ ← spfs_mkdir parent_dirname new_dirname
  | .search_complete search entity => track_search_complete_cb links search entity

/-- Any thread may list a directory or make one at any time; a search may call back at any time
after it was created. -/
def mount_system : System MountInstr Mount ℕ MountCall Spotify where
  exec := MountInstr.exec
  prog := MountCall.prog links
  may _ call s :=
    match call with
    | .search_complete search entity => (search, entity) ∈ s.searches
    | _ => true

end Programs

/-- The entities that `spfs_init` creates.
Source: `spfs_fuse.c`, `spfs_init`. -/
def spfs_init_heap : Heap :=
  let dir (name : gstr) (ops : spfs_dir_ops) := spfs_entity_dir_create (some name) ops
  let root := spfs_entity_root_create ⟨[], none⟩ ⟨none, none⟩
  let h := add_new root 0 (read_file "connection".toList .connection_read) []
  let h := add_new h 0 (dir "browse".toList ⟨none, none⟩)
    [dir "artists".toList ⟨none, none⟩, dir "tracks".toList ⟨none, none⟩,
     dir "albums".toList ⟨none, none⟩]
  let h := add_new h 0 (dir "search".toList ⟨none, some .search_dir_mkdir⟩) []
  let h := add_new h 0 (dir "playlists".toList ⟨none, none⟩) []
  let h := add_new h 7 (dir "meta".toList ⟨some .playlists_meta_dir_readdir, none⟩) []
  add_new h 7 (dir "music".toList ⟨some .playlists_music_dir_readdir, none⟩) []

/-- The file system after `spfs_init`. -/
def Mount.init : Mount := ⟨spfs_init_heap, [], [], []⟩

end Spotifile
