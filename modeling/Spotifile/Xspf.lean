import Spotifile.XspfSanitize

/-!
# `xspf.c`: building an XSPF document

An `xspf` is a text that grows, with a state that says which element is open. The functions that
open and close elements move the state, all functions check it with `g_warn_if_fail`, and the
check only warns.

`XspfTrack` is what a `<track>` element says, and `xspf_render` is the document for a list of
them. `add_track_eq` and `end_document_eq` connect the two.
-/

namespace Spotifile

/-! ## Escaping a URI -/

/-- The bytes of the UTF-8 sequence that begins with this byte.
Source: glib's `g_utf8_skip`. -/
def g_utf8_skip (c : gchar) : ℕ :=
  if c.toNat < 0xc0 then 1 else if c.toNat < 0xe0 then 2 else if c.toNat < 0xf0 then 3
  else if c.toNat < 0xf8 then 4 else if c.toNat < 0xfc then 5 else if c.toNat < 0xfe then 6 else 1

/-- The least code point that needs a sequence of `len` bytes. -/
def utf8_min_code (len : ℕ) : ℕ := if len = 2 then 1 <<< 7 else 1 <<< (5 * len - 4)

/-- The code point at the start of a string; `none` for `(gunichar) -1` and `(gunichar) -2`.
Source: glib's `g_utf8_get_char_validated`. -/
def g_utf8_get_char_validated : gstr → Option ℕ
  | [] => none
  | c :: s =>
    let len := g_utf8_skip c
    let rest := s.take (len - 1)
    if c.toNat < 0x80 then some c.toNat
    else if len = 1 then none
    else if rest.length < len - 1 then none
    else if rest.any (fun ch => ch.toNat / 0x40 ≠ 2) then none
    else
      let wc := rest.foldl (fun wc ch => wc * 0x40 + ch.toNat % 0x40) (c.toNat % 1 <<< (7 - len))
      if wc < utf8_min_code len ∨ 0x110000 ≤ wc ∨ wc / 0x800 = 0x1b then none else some wc

/-- Source: glib's `is_valid`, without reserved characters. -/
def uri_unreserved (c : gchar) : Bool := c.isAlphanum || c ∈ "-._~".toList

/-- Source: glib, `hex` in `g_string_append_uri_escaped`. -/
def hex_digit (n : ℕ) : gchar := "0123456789ABCDEF".toList.getD n '0'

/-- `copy` is the number of bytes that are left of a valid UTF-8 sequence.
Source: glib's `g_uri_escape_string`. -/
def uri_escape_from : ℕ → gstr → gstr
  | _, [] => []
  | copy + 1, c :: s => c :: uri_escape_from copy s
  | 0, c :: s =>
    if 0x80 ≤ c.toNat ∧ (g_utf8_get_char_validated (c :: s)).isSome then
      c :: uri_escape_from (g_utf8_skip c - 1) s
    else if uri_unreserved c then c :: uri_escape_from 0 s
    else ['%', hex_digit (c.toNat / 16), hex_digit (c.toNat % 16)] ++ uri_escape_from 0 s

/-- Source: glib's `g_uri_escape_string`, without allowed reserved characters and with UTF-8
allowed. -/
def g_uri_escape_string (unescaped : gstr) : gstr := uri_escape_from 0 unescaped

example : g_uri_escape_string ("01 - A/".toList ++ SPFS_SLASH_REPLACEMENT ++ ['\u0088']) =
    "01%20-%20A%2F".toList ++ SPFS_SLASH_REPLACEMENT ++ "%88".toList := by decide

/-! ## The builder -/

/-- Source: `xspf.c`, `enum XSPFState`. -/
inductive XSPFState
  | INIT | PLAYLIST_BEGIN | TRACKLIST_BEGIN | TRACK_BEGIN
deriving DecidableEq, Repr

/-- `warned` is not in the source: whether a `g_warn_if_fail` has failed.
Source: `xspf.c`, `struct xspf`. -/
structure xspf where
  state : XSPFState
  string : gstr
  warned : Bool
deriving DecidableEq, Repr

/-- What all functions on an `xspf` do: check the state, append to the text, set the state. -/
def xspf.append (x : xspf) (expected next : XSPFState) (text : gstr) : xspf :=
  ⟨next, x.string ++ text, x.warned || x.state ≠ expected⟩

/-- Source: `xspf.c`, `xspf_new`. -/
def xspf_new : xspf := ⟨.INIT, "<?xml version=\"1.0\" encoding=\"UTF-8\"?>\n".toList, false⟩

/-- Source: `xspf.c`, `xspf_free`. -/
def xspf_free (x : xspf) : gstr := x.string

/-- Source: `xspf.c`, `xspf_begin_playlist`. -/
def xspf_begin_playlist (x : xspf) : xspf :=
  x.append .INIT .PLAYLIST_BEGIN
    "<playlist version=\"1\" xmlns=\"http://xspf.org/ns/0/\">\n".toList

/-- Source: `xspf.c`, `xspf_end_playlist`. -/
def xspf_end_playlist (x : xspf) : xspf := x.append .PLAYLIST_BEGIN .INIT "</playlist>\n".toList

/-- Source: `xspf.c`, `xspf_begin_tracklist`. -/
def xspf_begin_tracklist (x : xspf) : xspf :=
  x.append .PLAYLIST_BEGIN .TRACKLIST_BEGIN "<trackList>\n".toList

/-- Source: `xspf.c`, `xspf_end_tracklist`. -/
def xspf_end_tracklist (x : xspf) : xspf :=
  x.append .TRACKLIST_BEGIN .PLAYLIST_BEGIN "</trackList>\n".toList

/-- Source: `xspf.c`, `xspf_begin_track`. -/
def xspf_begin_track (x : xspf) : xspf := x.append .TRACKLIST_BEGIN .TRACK_BEGIN "<track>\n".toList

/-- Source: `xspf.c`, `xspf_end_track`. -/
def xspf_end_track (x : xspf) : xspf := x.append .TRACK_BEGIN .TRACKLIST_BEGIN "</track>\n".toList

/-- `%d`. -/
def printf_d (n : ℤ) : gstr :=
  if n < 0 then '-' :: Nat.toDigits 10 n.natAbs else Nat.toDigits 10 n.natAbs

/-- `xspf_sanitize` with enough fuel (`sanitize_text_eq`). -/
def sanitize_text (s : gstr) : gstr := (xspf_sanitize (144 * (s.length + 5) + 1) s).getD []

/-- Source: `xspf.c`, `xspf_track_set_location`. -/
def xspf_track_set_location (x : xspf) (location : gstr) : xspf :=
  x.append .TRACK_BEGIN x.state
    ("<location>".toList ++ g_uri_escape_string location ++ "</location>\n".toList)

/-- Source: `xspf.c`, `xspf_track_set_duration`. -/
def xspf_track_set_duration (x : xspf) (duration : ℤ) : xspf :=
  x.append .TRACK_BEGIN x.state
    ("<duration>".toList ++ printf_d duration ++ "</duration>\n".toList)

/-- Source: `xspf.c`, `xspf_track_set_title`. -/
def xspf_track_set_title (x : xspf) (title : gstr) : xspf :=
  x.append .TRACK_BEGIN x.state ("<title>".toList ++ sanitize_text title ++ "</title>\n".toList)

/-- Source: `xspf.c`, `xspf_track_set_creator`. -/
def xspf_track_set_creator (x : xspf) (creator : gstr) : xspf :=
  x.append .TRACK_BEGIN x.state
    ("<creator>".toList ++ sanitize_text creator ++ "</creator>\n".toList)

/-- Source: `xspf.c`, `xspf_track_set_album`. -/
def xspf_track_set_album (x : xspf) (album : gstr) : xspf :=
  x.append .TRACK_BEGIN x.state ("<album>".toList ++ sanitize_text album ++ "</album>\n".toList)

/-! ## The document -/

/-- What a `<track>` element says. -/
structure XspfTrack where
  location : gstr
  duration : ℤ
  title : gstr
  album : gstr
  creators : List gstr
deriving DecidableEq, Repr

/-- An element with a text. -/
def xml_element (tag text : gstr) : gstr :=
  '<' :: tag ++ ['>'] ++ text ++ "</".toList ++ tag ++ ">\n".toList

/-- The `<track>` element. -/
def XspfTrack.render (t : XspfTrack) : gstr :=
  "<track>\n".toList ++ xml_element "location".toList (g_uri_escape_string t.location) ++
    xml_element "duration".toList (printf_d t.duration) ++
    xml_element "title".toList (sanitized t.title) ++
    xml_element "album".toList (sanitized t.album) ++
    (t.creators.flatMap fun creator => xml_element "creator".toList (sanitized creator)) ++
    "</track>\n".toList

/-- The document up to its first `<track>`. -/
def xspf_head : gstr :=
  "<?xml version=\"1.0\" encoding=\"UTF-8\"?>\n".toList ++
    "<playlist version=\"1\" xmlns=\"http://xspf.org/ns/0/\">\n".toList ++ "<trackList>\n".toList

/-- The document with these tracks. -/
def xspf_render (tracks : List XspfTrack) : gstr :=
  xspf_head ++ tracks.flatMap XspfTrack.render ++ "</trackList>\n".toList ++ "</playlist>\n".toList

/-- The text of an element is sanitised. -/
lemma sanitize_text_eq (s : gstr) : sanitize_text s = sanitized s := by
  rw [sanitize_text, xspf_sanitize_eq (Nat.lt_succ_self _)]
  rfl

/-- The builder in the middle of a track, after the text `string`. -/
def xspf.inTrack (string : gstr) : xspf := ⟨.TRACK_BEGIN, string, false⟩

/-- The builder between two tracks, after the text `string`. -/
def xspf.inTracklist (string : gstr) : xspf := ⟨.TRACKLIST_BEGIN, string, false⟩

/-- The document up to the list of tracks. -/
lemma begin_tracklist_eq :
    xspf_begin_tracklist (xspf_begin_playlist xspf_new) = .inTracklist xspf_head := rfl

/-- A track begins within the list. -/
@[simp] lemma begin_track_eq (s : gstr) :
    xspf_begin_track (.inTracklist s) = .inTrack (s ++ "<track>\n".toList) := rfl

/-- A track ends, and the list goes on. -/
@[simp] lemma end_track_eq (s : gstr) :
    xspf_end_track (.inTrack s) = .inTracklist (s ++ "</track>\n".toList) := rfl

/-- The location is appended, escaped. -/
@[simp] lemma set_location_eq (s location : gstr) :
    xspf_track_set_location (.inTrack s) location =
      .inTrack (s ++ xml_element "location".toList (g_uri_escape_string location)) := by
  simp [xspf_track_set_location, xspf.append, xspf.inTrack, xml_element]

/-- The duration is appended. -/
@[simp] lemma set_duration_eq (s : gstr) (duration : ℤ) :
    xspf_track_set_duration (.inTrack s) duration =
      .inTrack (s ++ xml_element "duration".toList (printf_d duration)) := by
  simp [xspf_track_set_duration, xspf.append, xspf.inTrack, xml_element]

/-- The title is appended, sanitised. -/
@[simp] lemma set_title_eq (s title : gstr) :
    xspf_track_set_title (.inTrack s) title =
      .inTrack (s ++ xml_element "title".toList (sanitized title)) := by
  simp [xspf_track_set_title, xspf.append, xspf.inTrack, xml_element, sanitize_text_eq]

/-- A creator is appended, sanitised. -/
@[simp] lemma set_creator_eq (s creator : gstr) :
    xspf_track_set_creator (.inTrack s) creator =
      .inTrack (s ++ xml_element "creator".toList (sanitized creator)) := by
  simp [xspf_track_set_creator, xspf.append, xspf.inTrack, xml_element, sanitize_text_eq]

/-- The album is appended, sanitised. -/
@[simp] lemma set_album_eq (s album : gstr) :
    xspf_track_set_album (.inTrack s) album =
      .inTrack (s ++ xml_element "album".toList (sanitized album)) := by
  simp [xspf_track_set_album, xspf.append, xspf.inTrack, xml_element, sanitize_text_eq]

/-- All creators are appended, one behind the other. -/
lemma set_creators_eq (s : gstr) (creators : List gstr) :
    creators.foldl xspf_track_set_creator (.inTrack s) =
      .inTrack (s ++ creators.flatMap fun creator =>
        xml_element "creator".toList (sanitized creator)) := by
  induction creators generalizing s with
  | nil => rw [List.foldl_nil, List.flatMap_nil, List.append_nil]
  | cons creator creators ih =>
    rw [List.foldl_cons, set_creator_eq, ih, List.flatMap_cons, List.append_assoc]

/-- The calls for one track append its element. -/
theorem add_track_eq (s : gstr) (t : XspfTrack) :
    xspf_end_track (t.creators.foldl xspf_track_set_creator
      (xspf_track_set_album (xspf_track_set_title (xspf_track_set_duration
        (xspf_track_set_location (xspf_begin_track (.inTracklist s)) t.location)
        t.duration) t.title) t.album)) = .inTracklist (s ++ t.render) := by
  unfold XspfTrack.render
  rw [begin_track_eq, set_location_eq, set_duration_eq, set_title_eq, set_album_eq,
    set_creators_eq, end_track_eq]
  simp only [List.append_assoc]

/-- The list of tracks ends. -/
lemma end_tracklist_eq (s : gstr) :
    xspf_end_tracklist (.inTracklist s) =
      ⟨.PLAYLIST_BEGIN, s ++ "</trackList>\n".toList, false⟩ := rfl

/-- The playlist ends, and with it the document. -/
lemma end_playlist_eq (s : gstr) :
    xspf_end_playlist ⟨.PLAYLIST_BEGIN, s, false⟩ =
      ⟨.INIT, s ++ "</playlist>\n".toList, false⟩ := rfl

/-- The calls at the end complete the document, and no `g_warn_if_fail` has failed. -/
lemma end_document_eq (tracks : List XspfTrack) :
    xspf_end_playlist (xspf_end_tracklist
      (.inTracklist (xspf_head ++ tracks.flatMap XspfTrack.render))) =
      ⟨.INIT, xspf_render tracks, false⟩ := by
  rw [end_tracklist_eq, end_playlist_eq, xspf_render]

end Spotifile
