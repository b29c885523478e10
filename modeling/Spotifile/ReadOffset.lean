import Spotifile.Lib.Pieces
import Spotifile.Playlist
import Spotifile.WavFile

/-!
# The files that are read through `READ_OFFSET`: `spfs_fuse.h`

Every file but `track.wav` is written afresh for each read of it; `READ_SIZED_OFFSET` then copies
what the read asks for, and leaves in the size how much that was. The macro is modelled with its
machine arithmetic: the sum of the signed offset and the size, the comparisons and the new size are
those of a `size_t`, and `memcpy` is given the offset with its sign.

`reads_content` says that reads one after the other give the content of the file in pieces, and a
single read its slice, for the macros and for all the functions that use them.
-/

namespace Spotifile.ReadOffset

open Lib

/-! ## The macros -/

/-- `memcpy` of `n` bytes at the offset into what lies in memory; `none` where they are not all in
it. -/
def memcpy (src : gstr) (offset : ℤ) (n : ℕ) : Option gstr :=
  if 0 ≤ offset ∧ offset + n ≤ src.length then some (slice src offset.toNat n) else none

/-- The bytes that are copied, and what is then in `_Sz`.
Source: `spfs_fuse.h`, `READ_SIZED_OFFSET`. -/
def READ_SIZED_OFFSET (src : gstr) (src_sz sz : ℕ) (off : ℤ) : Option (gstr × ℕ) :=
  if src_sz > size_t off then do
    let sz := if size_t (off + sz) > src_sz then size_t (src_sz - off) else sz
    let buf ← memcpy src off sz
    some (buf, sz)
  else some ([], 0)

/-- The length of a string, up to the NUL that ends it in memory. -/
def strlen (str : gstr) : ℕ := str.length

/-- Source: `spfs_fuse.h`, `READ_OFFSET`. -/
def READ_OFFSET (str : gstr) (sz : ℕ) (off : ℤ) : Option (gstr × ℕ) :=
  READ_SIZED_OFFSET (str ++ ['\x00']) (strlen str) sz off

/-! ## The functions that read -/

/-- A `read` function, or a macro: what it copies for a size and an offset, and what is then in
`size`, which a function returns as an `int`. -/
abbrev ReadFunc := ℕ → ℤ → Option (gstr × ℕ)

/-- libspotify's `sp_connectionstate`; `other` is any value that has no name. -/
inductive sp_connectionstate
  | LOGGED_OUT | LOGGED_IN | DISCONNECTED | UNDEFINED | OFFLINE | other
deriving DecidableEq, Repr

/-- libspotify's `sp_track_offline_status`; `other` is any value that has no name. -/
inductive sp_track_offline_status
  | NO | WAITING | DOWNLOADING | DONE | ERROR | DONE_EXPIRED | LIMIT_EXCEEDED | DONE_RESYNC | other
deriving DecidableEq, Repr

/-- Source: `spfs_spotify.c`, `spotify_connectionstate_str`. -/
def spotify_connectionstate_str : sp_connectionstate → gstr
  | .LOGGED_OUT => "logged out".toList
  | .LOGGED_IN => "logged in".toList
  | .DISCONNECTED => "disconnected".toList
  | .OFFLINE => "offline".toList
  | .UNDEFINED => "undefined".toList
  | .other => "undefined".toList

/-- Source: `spfs_spotify.c`, `spotify_track_offline_status_str`. -/
def spotify_track_offline_status_str : sp_track_offline_status → gstr
  | .NO => "Not marked for offline".toList
  | .WAITING => "Waiting for download".toList
  | .DOWNLOADING => "Currently downloading.".toList
  | .DONE => "Downloaded OK and can be played.".toList
  | .ERROR => "Error during download.".toList
  | .DONE_EXPIRED => "Downloaded OK but not playable due to expiry.".toList
  | .LIMIT_EXCEEDED =>
    "Waiting because device have reached max number of allowed tracks.".toList
  | .DONE_RESYNC => "Downloaded OK and available but scheduled for re-download.".toList
  | .other => "undefined".toList

/-- What libspotify answers while a file is read, with the connection state of the session if there
is one. The functions that are called with NULL may answer anything to it. -/
structure SpotifyFiles extends SpotifyTracks where
  connectionstate : Option sp_connectionstate
  track_is_starred : Option sp_track → Bool
  track_is_local : Option sp_track → Bool
  track_is_autolinked : Option sp_track → Bool
  track_offline_get_status : Option sp_track → sp_track_offline_status
  track_disc : Option sp_track → ℤ
  track_index : Option sp_track → ℤ
  track_popularity : Option sp_track → ℤ
  artistbrowse_artist : Option sp_artistbrowse → sp_artist
  artistbrowse_biography : Option sp_artistbrowse → Option gstr
  album_cover : Option sp_album → Option ℕ
  image_create : Option ℕ → Option sp_image
  image_data : Option sp_image → gstr
  order : HashOrder

/-- `e->parent->auxdata`, which may be NULL. -/
def auxdata_of_parent (h : Heap) (e : Ptr) : Option (Option Auxdata) := do
  let ent ← h.get e
  let parent ← ent.parent
  let dir ← h.get parent
  some dir.auxdata

/-- The track that the directory of a file is about. -/
def parent_track (h : Heap) (e : Ptr) : Option (Option sp_track) :=
  (auxdata_of_parent h e).bind auxdata_sp_track

/-- The artistbrowse that the directory of a file is about. -/
def parent_artistbrowse (h : Heap) (e : Ptr) : Option (Option sp_artistbrowse) :=
  (auxdata_of_parent h e).bind fun
    | none => some none
    | some auxdata => auxdata_artistbrowse auxdata

/-- The album that the directory of a file is about. -/
def parent_album (h : Heap) (e : Ptr) : Option (Option sp_album) :=
  (auxdata_of_parent h e).bind fun
    | none => some none
    | some (.album album) => some (some album)
    | some _ => none

/-- The image that a file is about. -/
def auxdata_image (h : Heap) (e : Ptr) : Option (Option sp_image) :=
  (h.get e).bind fun ent => match ent.auxdata with
    | none => some none
    | some (.image image) => some image
    | some _ => none

section Functions

variable (o : SpotifyFiles) (h : Heap) (e : Ptr)

/-- `%s\n`. -/
def printf_s (s : gstr) : gstr := s ++ "\n".toList

/-- What the files for a `bool` say. -/
def bool_str (b : Bool) : gstr := if b then "1\n".toList else "0\n".toList

/-- A file with a text about the track of its directory. -/
def track_read (str : Option sp_track → gstr) : ReadFunc := fun size offset => do
  let track ← parent_track h e
  READ_OFFSET (str track) size offset

/-- Source: `spfs_fuse.c`, `connection_read`. -/
def connection_read : ReadFunc := fun size offset =>
  match o.connectionstate with
  | none => some ([], 0)
  | some state => READ_OFFSET (printf_s (spotify_connectionstate_str state)) size offset

/-- Source: `spfs_fuse_track.c`, `is_starred_read`. -/
def is_starred_read : ReadFunc :=
  track_read h e fun track => bool_str (o.track_is_starred track)

/-- Source: `spfs_fuse_track.c`, `is_local_read`. -/
def is_local_read : ReadFunc :=
  track_read h e fun track => bool_str (o.track_is_local track)

/-- Source: `spfs_fuse_track.c`, `is_autolinked_read`. -/
def is_autolinked_read : ReadFunc :=
  track_read h e fun track => bool_str (o.track_is_autolinked track)

/-- Source: `spfs_fuse_track.c`, `offlinestatus_read`. -/
def offlinestatus_read : ReadFunc :=
  track_read h e fun track =>
    printf_s (spotify_track_offline_status_str (o.track_offline_get_status track))

/-- Source: `spfs_fuse_track.c`, `name_read`. -/
def track_name_read : ReadFunc := track_read h e fun track => printf_s (o.track_name track)

/-- Source: `spfs_fuse_track.c`, `disc_read`. -/
def disc_read : ReadFunc :=
  track_read h e fun track => printf_s (printf_d (o.track_disc track))

/-- Source: `spfs_fuse_track.c`, `index_read`. -/
def index_read : ReadFunc :=
  track_read h e fun track => printf_s (printf_d (o.track_index track))

/-- Source: `spfs_fuse_track.c`, `popularity_read`. -/
def popularity_read : ReadFunc :=
  track_read h e fun track => printf_s (printf_d (o.track_popularity track))

/-- Source: `spfs_fuse_track.c`, `duration_read`. -/
def duration_read : ReadFunc :=
  track_read h e fun track => printf_s (printf_d (o.track_duration track))

/-- Source: `spfs_fuse_artist.c`, `name_read`. -/
def artist_name_read : ReadFunc := fun size offset => do
  let ab ← parent_artistbrowse h e
  READ_OFFSET (printf_s (o.artist_name (o.artistbrowse_artist ab))) size offset

/-- `strlen` does not stand a NULL.
Source: `spfs_fuse_artist.c`, `biography_read`. -/
def biography_read : ReadFunc := fun size offset => do
  let ab ← parent_artistbrowse h e
  let str ← o.artistbrowse_biography ab
  READ_OFFSET str size offset

/-- Source: `spfs_fuse_artist.c`, `portrait_read`. -/
def portrait_read : ReadFunc := fun size offset => do
  let image ← auxdata_image h e
  let image_data := o.image_data image
  READ_SIZED_OFFSET image_data image_data.length size offset

/-- Source: `spfs_fuse_album.c`, `name_read`. -/
def album_name_read : ReadFunc := fun size offset => do
  let album ← parent_album h e
  READ_OFFSET (printf_s (o.album_name album)) size offset

/-- Source: `spfs_fuse_album.c`, `cover_read`. -/
def cover_read : ReadFunc := fun size offset => do
  let album ← parent_album h e
  let image_data := o.image_data (o.image_create (o.album_cover album))
  READ_SIZED_OFFSET image_data image_data.length size offset

/-- `xspf_str` in `xspf_read`.
Source: `spfs_fuse_playlist.c`, `xspf_read`. -/
def xspf_str : Option gstr := do
  let ent ← h.get e
  let parent ← ent.parent
  let children ← h.children parent
  let x := xspf_begin_tracklist (xspf_begin_playlist xspf_new)
  let x ← (o.order.order children).foldlM (xspf_read_entry o.toSpotifyTracks h) x
  let x := xspf_end_playlist (xspf_end_tracklist x)
  some (xspf_free x)

/-- Source: `spfs_fuse_playlist.c`, `xspf_read`. -/
def xspf_read : ReadFunc := fun size offset => do
  let str ← xspf_str o h e
  READ_OFFSET str size offset

/-- The function behind the pointer in the `ops` of a file; `wav_read` does not use the macros. -/
def read_func : SpfsReadFunc → Option ReadFunc
  | .connection_read => some (connection_read o)
  | .xspf_read => some (xspf_read o h e)
  | .wav_read => none
  | .track_name_read => some (track_name_read o h e)
  | .duration_read => some (duration_read o h e)
  | .popularity_read => some (popularity_read o h e)
  | .index_read => some (index_read o h e)
  | .disc_read => some (disc_read o h e)
  | .is_starred_read => some (is_starred_read o h e)
  | .is_local_read => some (is_local_read o h e)
  | .is_autolinked_read => some (is_autolinked_read o h e)
  | .offlinestatus_read => some (offlinestatus_read o h e)
  | .artist_name_read => some (artist_name_read o h e)
  | .biography_read => some (biography_read o h e)
  | .portrait_read => some (portrait_read o h e)
  | .album_name_read => some (album_name_read o h e)
  | .cover_read => some (cover_read o h e)

end Functions

/-! ## The content of the files -/

/-- What is in a file that is read through the macros, if the functions that write it get there. -/
def file_content (o : SpotifyFiles) (h : Heap) (e : Ptr) : SpfsReadFunc → Option gstr
  | .connection_read => some ((o.connectionstate.map fun state =>
      printf_s (spotify_connectionstate_str state)).getD [])
  | .xspf_read => xspf_str o h e
  | .wav_read => none
  | .track_name_read => about_track fun track => printf_s (o.track_name track)
  | .duration_read => about_track fun track => printf_s (printf_d (o.track_duration track))
  | .popularity_read => about_track fun track => printf_s (printf_d (o.track_popularity track))
  | .index_read => about_track fun track => printf_s (printf_d (o.track_index track))
  | .disc_read => about_track fun track => printf_s (printf_d (o.track_disc track))
  | .is_starred_read => about_track fun track => bool_str (o.track_is_starred track)
  | .is_local_read => about_track fun track => bool_str (o.track_is_local track)
  | .is_autolinked_read => about_track fun track => bool_str (o.track_is_autolinked track)
  | .offlinestatus_read => about_track fun track =>
      printf_s (spotify_track_offline_status_str (o.track_offline_get_status track))
  | .artist_name_read => (parent_artistbrowse h e).map fun ab =>
      printf_s (o.artist_name (o.artistbrowse_artist ab))
  | .biography_read => (parent_artistbrowse h e).bind o.artistbrowse_biography
  | .portrait_read => (auxdata_image h e).map o.image_data
  | .album_name_read => (parent_album h e).map fun album => printf_s (o.album_name album)
  | .cover_read => (parent_album h e).map fun album =>
      o.image_data (o.image_create (o.album_cover album))
where
  about_track (str : Option sp_track → gstr) : Option gstr := (parent_track h e).map str

/-- Reads one after the other, each of a positive size, the first at offset 0: the sizes with what
is copied, and the offset behind all that was returned, where the next one reads. `ret` is what is
returned for a `size`, and the kernel keeps the end of a request below `2 ^ 63`. -/
inductive Consecutive (read : ReadFunc) (ret : ℕ → ℤ) : List (ℕ × gstr) → ℤ → Prop
  | start : Consecutive read ret [] 0
  | next {done : List (ℕ × gstr)} {offset : ℤ} {size n : ℕ} {buf : gstr} :
      Consecutive read ret done offset → 0 < size → offset + size < 2 ^ 63 →
      read size offset = some (buf, n) →
      Consecutive read ret (done ++ [(size, buf)]) (offset + ret n)

/-- What the reads have copied are the pieces of the content, in order. -/
structure InPieces (content : gstr) (done : List (ℕ × gstr)) (offset : ℤ) : Prop where
  begins : gathered done <+: content
  exhausted : ∀ before size buf after, done = before ++ (size, buf) :: after →
    (buf = [] ↔ gathered before = content)
  ends : (∃ size, (size, []) ∈ done) ∨ content.length ≤ done.length → gathered done = content
  length_le : ∀ read ∈ done, read.2.length ≤ read.1
  offset_eq : offset = (gathered done).length

/-- What is read is the content: by a single read at any offset, also behind the end, and by reads
one after the other. An `int` counts what is copied if the requests or the content are below
`2 ^ 31`. -/
structure ReadsContent (read : ReadFunc) (content : gstr) : Prop where
  single : ∀ size offset : ℕ, offset + size < 2 ^ 63 →
    read size offset = some (slice content offset size, (slice content offset size).length)
  consecutive : ∀ done offset, Consecutive read (fun size => size) done offset →
    InPieces content done offset
  returned : ∀ done offset, Consecutive read (fun size => int32 size) done offset →
    (∀ request ∈ done, request.1 < 2 ^ 31) ∨ content.length < 2 ^ 31 →
    InPieces content done offset

/-! ## A single read -/

section Single

variable {content rest : gstr} {size offset : ℕ}

/-- A copy within the source is a slice of it. -/
lemma memcpy_eq {src : gstr} (h : offset + size ≤ src.length) :
    memcpy src offset size = some (slice src offset size) := by
  rw [memcpy, if_pos ⟨by omega, by omega⟩, Int.toNat_natCast]

/-- What lies behind the content in memory is not copied. -/
lemma copied_eq (h : offset + size ≤ content.length) :
    (do let buf ← memcpy (content ++ rest) offset size; some (buf, size)) =
      some (slice content offset size, size) := by
  have hmemory : offset + size ≤ (content ++ rest).length := by
    rw [List.length_append]
    omega
  rw [memcpy_eq hmemory, slice_append_of_le rest h]
  rfl

/-- Where the sum does not wrap, the macro copies the slice of the content. -/
lemma read_sized_offset_eq (hfit : offset + size < 2 ^ 63) :
    READ_SIZED_OFFSET (content ++ rest) content.length size offset =
      some (slice content offset size, (slice content offset size).length) := by
  have hoffset : size_t offset = offset := size_t_eq (by omega)
  have hsum : size_t ((offset : ℤ) + size) = offset + size :=
    size_t_eq (n := offset + size) (by omega)
  unfold READ_SIZED_OFFSET
  rw [hoffset, hsum]
  by_cases hpast : content.length > offset
  · rw [if_pos hpast]
    by_cases hsize : offset + size > content.length
    · -- the read straddles the end: the size is cut down to what is left
      have hleft : size_t ((content.length : ℤ) - offset) = content.length - offset := by
        rw [← Nat.cast_sub hpast.le]
        exact size_t_eq (by omega)
      rw [if_pos hsize, hleft, length_slice, min_eq_right (by omega), ← slice_length_sub hsize.le]
      exact copied_eq (by omega)
    · rw [if_neg hsize, length_slice, min_eq_left (by omega)]
      exact copied_eq (by omega)
  · rw [if_neg hpast, slice, List.drop_of_length_le (by omega), List.take_nil]
    rfl

end Single

/-! ## Reads one after the other -/

section Runs

variable {read : ReadFunc} {ret : ℕ → ℤ} {content : gstr} {done : List (ℕ × gstr)} {offset : ℤ}

/-- Reads that each get their slice get the pieces of the content, and stand where these end, if
what is returned is their length. -/
lemma Consecutive.pieces (hsingle : ∀ size offset : ℕ, offset + size < 2 ^ 63 →
      read size offset = some (slice content offset size, (slice content offset size).length))
    (h : Consecutive read ret done offset)
    (hret : ∀ request ∈ done, ∀ n ≤ request.1, n ≤ content.length → ret n = n) :
    Pieces content done ∧ offset = (gathered done).length := by
  induction h with
  | start => exact ⟨.nil, rfl⟩
  | @next done offset size n buf _ hpos hfit hread ih =>
    obtain ⟨hpieces, rfl⟩ := ih fun request hmem => hret request (List.mem_append_left _ hmem)
    rw [hsingle _ _ (mod_cast hfit)] at hread
    obtain ⟨rfl, rfl⟩ := Prod.mk.inj (Option.some.inj hread)
    have hslice := length_slice content (gathered done).length size
    refine ⟨hpieces.concat _ hpos, ?_⟩
    rw [hret _ List.mem_concat_self _ (length_slice_le content _ size) (by omega), gathered_append,
      gathered_singleton, List.length_append, Nat.cast_add]

/-- Reads that follow each other are pieces of the content. -/
lemma inPieces_of_pieces (h : Pieces content done) :
    InPieces content done (gathered done).length where
  begins := h.isPrefix
  exhausted := by
    rintro before size buf after rfl
    exact h.eq_nil_iff
  ends := by
    rintro (⟨size, hread⟩ | hlength)
    · exact h.gathered_eq_of_mem hread
    · exact h.gathered_eq_of_length_le hlength
  length_le _ := h.length_le
  offset_eq := rfl

/-- The single reads decide. -/
lemma readsContent_of_single (hsingle : ∀ size offset : ℕ, offset + size < 2 ^ 63 →
      read size offset = some (slice content offset size, (slice content offset size).length)) :
    ReadsContent read content where
  single := hsingle
  consecutive := by
    intro done offset h
    obtain ⟨hpieces, rfl⟩ := h.pieces hsingle fun _ _ _ _ _ => rfl
    exact inPieces_of_pieces hpieces
  returned := by
    intro done offset h hint
    have hret : ∀ request ∈ done, ∀ n ≤ request.1, n ≤ content.length → int32 n = n := by
      intro request hmem n hsize hlength
      apply int32_eq
      obtain hint | hint := hint
      · exact hsize.trans_lt (hint request hmem)
      · exact hlength.trans_lt hint
    obtain ⟨hpieces, rfl⟩ := h.pieces hsingle hret
    exact inPieces_of_pieces hpieces

/-- The macro with a size reads as much of its source as the size says. -/
lemma readsContent_sized_offset (content rest : gstr) :
    ReadsContent (READ_SIZED_OFFSET (content ++ rest) content.length) content :=
  readsContent_of_single fun _ _ => read_sized_offset_eq

/-- The macro for a string reads the string. -/
lemma readsContent_offset (str : gstr) : ReadsContent (READ_OFFSET str) str :=
  readsContent_sized_offset str _

/-- An image lies in memory by itself. -/
lemma readsContent_image (image_data : gstr) :
    ReadsContent (READ_SIZED_OFFSET image_data image_data.length) image_data := by
  have h := readsContent_sized_offset image_data []
  rwa [List.append_nil] at h

end Runs

/-! ## `playlist.xspf` -/

section Xspf

variable {o : SpotifyFiles} {h : Heap} {e : Ptr} {size offset : ℕ}

/-- The macro gives the slice. -/
lemma slice_eq (str : gstr) (offset size : ℕ) :
    Spotifile.READ_OFFSET str size offset = slice str offset size := by
  unfold Spotifile.READ_OFFSET
  split
  · rfl
  · rw [slice, List.drop_of_length_le (by omega), List.take_nil]

/-- The bytes of `xspf_read` are those that it copies where the macro is a slice. -/
lemma xspf_read_copies (hfit : offset + size < 2 ^ 63) :
    Spotifile.xspf_read o.toSpotifyTracks o.order h e size offset =
      (xspf_read o h e size offset).map Prod.fst := by
  have hcopied : ∀ str, (READ_OFFSET str size offset).map Prod.fst =
      some (Spotifile.READ_OFFSET str size offset) := by
    intro str
    rw [(readsContent_offset str).single size offset hfit, slice_eq]
    rfl
  unfold Spotifile.xspf_read xspf_read xspf_str
  simp only [Option.bind_eq_bind, Option.map_bind, Option.bind_assoc, Option.bind_some, hcopied,
    Function.comp_def]

end Xspf

/-! ## The functions -/

section Functions

variable {o : SpotifyFiles} {h : Heap} {e : Ptr} {f : SpfsReadFunc} {read : ReadFunc}
  {content : gstr}

/-- A function that copies a text about something copies the content of its file. -/
lemma about_eq {α : Type} {about : Option α} {str : α → gstr} (copy : gstr → ReadFunc)
    (hcontent : about.map str = some content) :
    (fun size offset => do let x ← about; copy (str x) size offset) = copy content := by
  obtain ⟨x, rfl, rfl⟩ := Option.map_eq_some_iff.mp hcontent
  rfl

/-- Without a session there is nothing in the file. -/
lemma connection_read_eq (hcontent : file_content o h e .connection_read = some content) :
    connection_read o = READ_OFFSET content := by
  obtain rfl := Option.some.inj hcontent
  funext size offset
  unfold connection_read
  cases o.connectionstate with
  | none => rfl
  | some state => rfl

/-- Each function ends as the content of its file is read. -/
lemma read_func_eq (hread : read_func o h e f = some read)
    (hcontent : file_content o h e f = some content) :
    read = READ_OFFSET content ∨ read = READ_SIZED_OFFSET content content.length := by
  cases f with
  | wav_read => cases hread
  | connection_read =>
    obtain rfl := Option.some.inj hread
    exact .inl (connection_read_eq hcontent)
  | xspf_read =>
    obtain rfl := Option.some.inj hread
    left
    have hstr : xspf_str o h e = some content := hcontent
    unfold xspf_read
    rw [hstr]
    rfl
  | biography_read =>
    obtain rfl := Option.some.inj hread
    obtain ⟨ab, hab, hstr⟩ := Option.bind_eq_some_iff.mp hcontent
    left
    unfold biography_read
    simp only [hab, hstr, Option.bind_eq_bind, Option.bind_some]
  | portrait_read | cover_read =>
    obtain rfl := Option.some.inj hread
    exact .inr (about_eq (fun data => READ_SIZED_OFFSET data data.length) hcontent)
  | artist_name_read | album_name_read | track_name_read | duration_read | popularity_read
  | index_read | disc_read | is_starred_read | is_local_read | is_autolinked_read
  | offlinestatus_read =>
    obtain rfl := Option.some.inj hread
    exact .inl (about_eq READ_OFFSET hcontent)

/-- The macros read the content, and so do the functions that use them. -/
theorem reads_content :
    (∀ content rest : gstr,
      ReadsContent (READ_SIZED_OFFSET (content ++ rest) content.length) content) ∧
    (∀ str : gstr, ReadsContent (READ_OFFSET str) str) ∧
    ∀ (o : SpotifyFiles) (h : Heap) (e : Ptr) (f : SpfsReadFunc) (read : ReadFunc)
      (content : gstr), read_func o h e f = some read → file_content o h e f = some content →
      ReadsContent read content := by
  refine ⟨readsContent_sized_offset, readsContent_offset, ?_⟩
  intro o h e f read content hread hcontent
  obtain rfl | rfl := read_func_eq hread hcontent
  · exact readsContent_offset content
  · exact readsContent_image content

end Functions

/-- What libspotify answers about a track that is starred. -/
def starred_files : SpotifyFiles :=
  { loaded_tracks with
    connectionstate := some .LOGGED_IN
    track_is_starred := fun _ => true
    track_is_local := fun _ => false
    track_is_autolinked := fun _ => false
    track_offline_get_status := fun _ => .NO
    track_disc := fun _ => 1
    track_index := fun _ => 1
    track_popularity := fun _ => 50
    artistbrowse_artist := fun _ => 0
    artistbrowse_biography := fun _ => none
    album_cover := fun _ => none
    image_create := fun _ => none
    image_data := fun _ => []
    order := insertion_order }

/-- The directory of a track, and the file `starred` in it. -/
def starred_heap : Heap where
  cells := [⟨none, none, some (.track 0), 0, .dir ⟨none, none⟩ [("starred".toList, 1)]⟩,
    ⟨some "starred".toList, some 0, none, 0, .file ⟨some .is_starred_read, false⟩ 0⟩]
  spfs_root := none

/-- The theorem for a file that is read byte by byte at first, then as far as it goes. -/
theorem reads_content_starred :
    InPieces "1\n".toList [(1, "1".toList), (4096, "\n".toList), (4096, [])] 2 := by
  have hreads := reads_content.2.2 starred_files starred_heap 1 .is_starred_read _ "1\n".toList
    rfl rfl
  have hstart : Consecutive (is_starred_read starred_files starred_heap 1) (fun size => size)
    [] 0 := .start
  have hone := hstart.next (by decide) (by decide)
    (show is_starred_read starred_files starred_heap 1 1 0 = some ("1".toList, 1) by decide)
  have htwo := hone.next (by decide) (by decide)
    (show is_starred_read starred_files starred_heap 1 4096 1 = some ("\n".toList, 1) by decide)
  have hthree := htwo.next (by decide) (by decide)
    (show is_starred_read starred_files starred_heap 1 4096 2 = some ([], 0) by decide)
  exact hreads.consecutive _ _ hthree

end Spotifile.ReadOffset
