import Spotifile.XspfDocument

/-!
# What a player reads in a playlist

`read_xspf` is a reader of XSPF: it finds the elements of a document, decodes their texts, and gives
what each `<track>` says. It knows nothing of `xspf.c`. `read_xspf_iff` compares the two: for every
list of tracks, the document that is built from them reads back as these tracks exactly if
`xspf_sanitize` is right about each of their texts. Names of files and durations always come back.
-/

namespace Spotifile

open Lib

/-! ## Texts -/

instance (r : gstr) : Decidable (AmpsStartEntities r) :=
  decidable_of_iff (∀ t ∈ r.tails, t.head? = some '&' → ∃ ent ∈ entities, ent <+: t) <| by
    constructor
    · rintro h u v rfl
      exact h _ ((List.mem_tails _ _).mpr (List.suffix_append u _)) rfl
    · intro h t ht hhead
      obtain ⟨u, rfl⟩ := (List.mem_tails _ _).mp ht
      obtain ⟨v, rfl⟩ : ∃ v, t = '&' :: v := ⟨t.tail, (List.cons_head?_tail hhead).symm⟩
      exact h u v rfl

instance (r : gstr) : Decidable (WellEscaped r) :=
  decidable_of_iff (('<' ∉ r ∧ '>' ∉ r ∧ '"' ∉ r ∧ '\'' ∉ r) ∧ AmpsStartEntities r)
    ⟨fun h => ⟨h.1, h.2⟩, fun h => ⟨h.no_raw, h.amps⟩⟩

/-- The text of an element. -/
def read_text (r : gstr) : Option gstr := if WellEscaped r then some (decode r) else none

/-- A text is read as it was exactly if `xspf_sanitize` is right about it. -/
lemma read_text_sanitized (s : gstr) :
    read_text (sanitized s) = some s ↔ SanitizesCorrectly s := by
  rw [sanitizesCorrectly_iff, read_text]
  split
  · next h => simp [h]
  · next h => simp [h]

/-- A number without a sign. -/
def read_nat (digits : gstr) : Option ℕ :=
  if digits ≠ [] ∧ digits.all Char.isDigit then some (Nat.ofDigitChars 10 digits 0) else none

/-- A number. -/
def read_int (s : gstr) : Option ℤ :=
  if s.head? = some '-' then (read_nat s.tail).map fun n : ℕ => -(n : ℤ)
  else (read_nat s).map Int.ofNat

/-- A natural number is read back from its digits. -/
lemma read_nat_toDigits (n : ℕ) : read_nat (Nat.toDigits 10 n) = some n := by
  have hdigits : (Nat.toDigits 10 n).all Char.isDigit = true :=
    List.all_eq_true.mpr fun c hc => Nat.isDigit_of_mem_toDigits (by decide) (by decide) hc
  rw [read_nat, if_pos ⟨Nat.toDigits_ne_nil, hdigits⟩, Nat.ofDigitChars_ten_toDigits]

/-- A number is read back from what `%d` prints. -/
lemma read_int_printf_d (n : ℤ) : read_int (printf_d n) = some n := by
  unfold printf_d
  split
  · rw [read_int, if_pos (List.head?_cons), List.tail_cons, read_nat_toDigits, Option.map_some]
    congr 1
    omega
  · have hminus : (Nat.toDigits 10 n.natAbs).head? ≠ some '-' := by
      intro hhead
      have hmem := List.mem_of_mem_head? hhead
      exact absurd (Nat.isDigit_of_mem_toDigits (by decide) (by decide) hmem) (by decide)
    rw [read_int, if_neg hminus, read_nat_toDigits, Option.map_some]
    congr 1
    exact Int.natAbs_of_nonneg (by omega)

/-- A hexadecimal digit. -/
def hex_value (c : gchar) : Option ℕ := "0123456789ABCDEF".toList.idxOf? c

/-- A digit is read back. -/
lemma hex_value_digit : ∀ n < 16, hex_value (hex_digit n) = some n := by decide

/-- A URI without its escapes. -/
def uri_unescape : gstr → Option gstr
  | [] => some []
  | c :: s =>
    if c = '%' then
      match s with
      | a :: b :: s => do
        let high ← hex_value a
        let low ← hex_value b
        (uri_unescape s).map (Char.ofNat (16 * high + low) :: ·)
      | _ => none
    else (uri_unescape s).map (c :: ·)

/-- A character other than `%` stands for itself. -/
lemma uri_unescape_cons {c : gchar} (hc : c ≠ '%') (s : gstr) :
    uri_unescape (c :: s) = (uri_unescape s).map (c :: ·) := by
  rw [uri_unescape.eq_def]
  exact if_neg hc

/-- An escaped byte is read back. -/
lemma uri_unescape_escape {c : gchar} (hc : c.toNat < 256) (s : gstr) :
    uri_unescape (['%', hex_digit (c.toNat / 16), hex_digit (c.toNat % 16)] ++ s) =
      (uri_unescape s).map (c :: ·) := by
  have hbyte : Char.ofNat (16 * (c.toNat / 16) + c.toNat % 16) = c := by
    rw [Nat.div_add_mod, Char.ofNat_toNat]
  show uri_unescape ('%' :: hex_digit (c.toNat / 16) :: hex_digit (c.toNat % 16) :: s) = _
  rw [uri_unescape, if_pos rfl]
  simp only [hex_value_digit _ (show c.toNat / 16 < 16 by omega),
    hex_value_digit _ (show c.toNat % 16 < 16 by omega), Option.bind_eq_bind, Option.bind_some,
    hbyte]

/-- The bytes of a valid sequence after the first one are not escapes. -/
lemma percent_notMem_sequence {c : gchar} {s : gstr} (hc : 0x80 ≤ c.toNat)
    (h : (g_utf8_get_char_validated (c :: s)).isSome = true) :
    '%' ∉ s.take (g_utf8_skip c - 1) := by
  intro hmem
  unfold g_utf8_get_char_validated at h
  dsimp only at h
  rw [if_neg (by omega)] at h
  have hany : ((s.take (g_utf8_skip c - 1)).any fun ch => ch.toNat / 0x40 ≠ 2) = true :=
    List.any_eq_true.mpr ⟨'%', hmem, by decide⟩
  rw [if_pos hany, ite_self, ite_self] at h
  cases h

/-- What is escaped comes back; `copy` bytes are copied as they are. -/
lemma uri_unescape_escape_from (copy : ℕ) (s : gstr) (hbytes : ∀ c ∈ s, c.toNat < 256)
    (hcopy : '%' ∉ s.take copy) : uri_unescape (uri_escape_from copy s) = some s := by
  fun_induction uri_escape_from copy s with
  | case1 => rfl
  | case2 copy c s ih =>
    rw [List.take_succ_cons, List.mem_cons, not_or] at hcopy
    rw [uri_unescape_cons (Ne.symm hcopy.1),
      ih (fun c hc => hbytes c (List.mem_cons_of_mem _ hc)) hcopy.2, Option.map_some]
  | case3 c s hvalid ih =>
    have hc : c ≠ '%' := by
      rintro rfl
      exact absurd hvalid.1 (by decide)
    rw [uri_unescape_cons hc, ih (fun c hc => hbytes c (List.mem_cons_of_mem _ hc))
      (percent_notMem_sequence hvalid.1 hvalid.2), Option.map_some]
  | case4 c s _ hfree ih =>
    have hc : c ≠ '%' := by
      rintro rfl
      exact absurd hfree (by decide)
    rw [uri_unescape_cons hc, ih (fun c hc => hbytes c (List.mem_cons_of_mem _ hc)) (by simp),
      Option.map_some]
  | case5 c s _ _ ih =>
    rw [uri_unescape_escape (hbytes c List.mem_cons_self),
      ih (fun c hc => hbytes c (List.mem_cons_of_mem _ hc)) (by simp), Option.map_some]

/-! ## Documents -/

/-- The items of a document. -/
def read_document (s : gstr) : Option (List XspfItem) := do
  let ms ← lex s
  match ms with
  | [] => none
  | declaration :: ms =>
    let pieces ← ms.mapM read_markup
    if declaration.tag = xml_declaration ∧ declaration.text.all g_ascii_isspace ∧
        IsRoot xspf_child "playlist".toList (xspf_attributes "playlist".toList) (pieces.map (·.1))
    then read_items pieces else none

/-- What represents the items is read as the items. -/
lemma read_document_eq_some {s : gstr} {items : List XspfItem} (h : Represents s items) :
    read_document s = some items := by
  obtain ⟨blank, ms, pieces, hlex, hblank, hms, hroot, hitems⟩ := h
  simp only [read_document, hlex, hms, Option.bind_eq_bind, Option.bind_some, hblank, true_and]
  rw [if_pos hroot, hitems]

/-- What the fields of a `<track>` say, in whatever order they stand. -/
def read_track (fields : List (gstr × gstr)) : Option XspfTrack := do
  let location ← (fields.lookup "location".toList).bind uri_unescape
  let duration ← (fields.lookup "duration".toList).bind read_int
  let title ← (fields.lookup "title".toList).bind read_text
  let album ← (fields.lookup "album".toList).bind read_text
  let creators ← ((fields.filter (·.1 = "creator".toList)).map (·.2)).mapM read_text
  some ⟨location, duration, title, album, creators⟩

/-- The tracks that have been read, and the fields of the one that is open. -/
def read_item (read : List XspfTrack × List (gstr × gstr)) :
    XspfItem → Option (List XspfTrack × List (gstr × gstr))
  | .opens _ => some (read.1, [])
  | .field name text => some (read.1, read.2 ++ [(name, text)])
  | .closes name =>
    if name = "track".toList then (read_track read.2).map fun track => (read.1 ++ [track], [])
    else some read

/-- What the tracks of a document say. -/
def read_xspf (s : gstr) : Option (List XspfTrack) := do
  let items ← read_document s
  let read ← items.foldlM read_item ([], [])
  some read.1

/-! ## The documents of the builder -/

/-- The calls for the fields of a track.
Source: `spfs_fuse_playlist.c`, `populate_xspf_from_sp_track`. -/
def field_calls (t : XspfTrack) : List XspfCall :=
  [.set_location t.location, .set_duration t.duration, .set_title t.title, .set_album t.album] ++
    t.creators.map .set_creator

/-- The calls for a track.
Source: `spfs_fuse_playlist.c`, `xspf_read`. -/
def track_calls (t : XspfTrack) : List XspfCall := .begin_track :: field_calls t ++ [.end_track]

/-- The calls for a playlist.
Source: `spfs_fuse_playlist.c`, `xspf_read`. -/
def playlist_calls (tracks : List XspfTrack) : List XspfCall :=
  .begin_playlist :: .begin_tracklist :: tracks.flatMap track_calls ++
    [.end_tracklist, .end_playlist]

/-- The calls for a track append its text. -/
lemma apply_track (s : gstr) (t : XspfTrack) :
    (track_calls t).foldl XspfCall.apply (.inTracklist s) = .inTracklist (s ++ t.render) := by
  rw [← add_track_eq, track_calls, List.foldl_append, field_calls, ← List.cons_append,
    List.foldl_append, List.foldl_map]
  rfl

/-- The document that `xspf_read` writes is built by these calls. -/
lemma build_playlist_calls (tracks : List XspfTrack) :
    xspf_free (xspf_build (playlist_calls tracks)) = xspf_render tracks := by
  have hfoldl : ∀ (s : gstr), (tracks.flatMap track_calls).foldl XspfCall.apply (.inTracklist s) =
      .inTracklist (s ++ tracks.flatMap XspfTrack.render) := by
    induction tracks with
    | nil => simp
    | cons t tracks ih =>
      intro s
      rw [List.flatMap_cons, List.foldl_append, apply_track, ih, List.flatMap_cons,
        List.append_assoc]
  rw [xspf_build, playlist_calls, List.foldl_append]
  show xspf_free (xspf_end_playlist (xspf_end_tracklist
    ((tracks.flatMap track_calls).foldl XspfCall.apply (.inTracklist xspf_head)))) = _
  rw [hfoldl, end_document_eq, xspf_free]

/-- The texts of a track. -/
def XspfTrack.texts (t : XspfTrack) : List gstr := t.title :: t.album :: t.creators

/-- Calls that are accepted one after the other are accepted. -/
lemma accepted_append {state mid last : XSPFState} {calls calls' : List XspfCall}
    (h : Accepted state calls mid) (h' : Accepted mid calls' last) :
    Accepted state (calls ++ calls') last := by
  induction calls generalizing state with
  | nil =>
    obtain rfl := h
    exact h'
  | cons c calls ih => exact ⟨h.1, ih h.2⟩

/-- The calls for a track are accepted within the list of tracks. -/
lemma accepted_track (t : XspfTrack) :
    Accepted .TRACKLIST_BEGIN (track_calls t) .TRACKLIST_BEGIN := by
  have hcreators : ∀ creators : List gstr,
      Accepted .TRACK_BEGIN (creators.map .set_creator) .TRACK_BEGIN := by
    intro creators
    induction creators with
    | nil => rfl
    | cons creator creators ih => exact ⟨rfl, ih⟩
  refine ⟨rfl, accepted_append ?_ ⟨rfl, rfl⟩⟩
  exact ⟨rfl, rfl, rfl, rfl, hcreators t.creators⟩

/-- So are the calls for any number of tracks. -/
lemma accepted_tracks (tracks : List XspfTrack) :
    Accepted .TRACKLIST_BEGIN (tracks.flatMap track_calls) .TRACKLIST_BEGIN := by
  induction tracks with
  | nil => rfl
  | cons t tracks ih => exact accepted_append (accepted_track t) ih

/-- No track begins a playlist. -/
lemma begin_playlist_notMem_tracks (tracks : List XspfTrack) :
    .begin_playlist ∉ tracks.flatMap track_calls := by
  rw [List.mem_flatMap]
  rintro ⟨t, -, hmem⟩
  simp [track_calls, field_calls] at hmem

/-- The items of the document are those of the calls. -/
lemma read_document_build (tracks : List XspfTrack) :
    read_document (xspf_free (xspf_build (playlist_calls tracks))) =
      some ((playlist_calls tracks).map XspfCall.item) := by
  apply read_document_eq_some
  rw [represents_iff_isRoot]
  have haccepted : Accepted .PLAYLIST_BEGIN
      (.begin_tracklist :: tracks.flatMap track_calls ++ [.end_tracklist, .end_playlist]) .INIT :=
    ⟨rfl, accepted_append (accepted_tracks tracks) ⟨rfl, rfl, rfl⟩⟩
  refine isRoot_iff_closes.mpr ((closes_calls_iff haccepted).mpr ?_)
  rw [List.mem_append, List.mem_cons, not_or, not_or]
  exact ⟨⟨by decide, begin_playlist_notMem_tracks tracks⟩, by decide⟩

/-- The fields of a track, as they are written. -/
def XspfTrack.fields (t : XspfTrack) : List (gstr × gstr) :=
  [("location".toList, g_uri_escape_string t.location), ("duration".toList, printf_d t.duration),
    ("title".toList, sanitized t.title), ("album".toList, sanitized t.album)] ++
    t.creators.map fun creator => ("creator".toList, sanitized creator)

/-- The calls for a track write its fields. -/
lemma field_items (t : XspfTrack) :
    (field_calls t).map XspfCall.item = t.fields.map fun f => .field f.1 f.2 := by
  simp [field_calls, XspfTrack.fields, XspfCall.item]

/-- Fields that are read go to the track that is open. -/
lemma read_fields (fs : List (gstr × gstr)) (done : List XspfTrack) (fields : List (gstr × gstr)) :
    (fs.map fun f => XspfItem.field f.1 f.2).foldlM read_item (done, fields) =
      some (done, fields ++ fs) := by
  induction fs generalizing fields with
  | nil => simp
  | cons f fs ih =>
    rw [List.map_cons, List.foldlM_cons]
    show List.foldlM read_item (done, fields ++ [f]) _ = _
    rw [ih, List.append_assoc, List.singleton_append]

/-- A track is read back from the items of its calls. -/
lemma read_track_calls (t : XspfTrack) (done : List XspfTrack) (fields : List (gstr × gstr)) :
    ((track_calls t).map XspfCall.item).foldlM read_item (done, fields) =
      (read_track t.fields).map fun track => (done ++ [track], []) := by
  rw [track_calls, List.map_append, List.map_cons, field_items, List.foldlM_append,
    List.foldlM_cons]
  show (List.foldlM read_item (done, []) _ >>= _) = _
  rw [read_fields, List.nil_append]
  show (read_item (done, t.fields) (.closes "track".toList) >>= _) = _
  rw [read_item, if_pos rfl]
  rcases read_track t.fields with _ | track <;> rfl

/-- The tracks are read back from the items of their calls. -/
lemma read_tracks_calls (tracks done : List XspfTrack) :
    ((tracks.flatMap track_calls).map XspfCall.item).foldlM read_item (done, []) =
      ((tracks.map XspfTrack.fields).mapM read_track).map fun read => (done ++ read, []) := by
  induction tracks generalizing done with
  | nil => simp
  | cons t tracks ih =>
    rw [List.flatMap_cons, List.map_append, List.foldlM_append, read_track_calls, List.map_cons,
      List.mapM_cons]
    rcases read_track t.fields with _ | track
    · rfl
    · show List.foldlM read_item (done ++ [track], []) _ = _
      rw [ih]
      rcases (tracks.map XspfTrack.fields).mapM read_track with _ | read
      · rfl
      · simp

/-- The fields of a track are read one by one. -/
lemma read_track_fields (t : XspfTrack) (hbytes : ∀ c ∈ t.location, c.toNat < 256) :
    read_track t.fields = some t ↔ ∀ s ∈ t.texts, SanitizesCorrectly s := by
  have hlocation : uri_unescape (g_uri_escape_string t.location) = some t.location :=
    uri_unescape_escape_from 0 t.location hbytes (by simp)
  have hcreators : (t.fields.filter (·.1 = "creator".toList)).map (·.2) =
      t.creators.map sanitized := by
    have hkept : (t.creators.map fun creator => ("creator".toList, sanitized creator)).filter
        (·.1 = "creator".toList) =
          t.creators.map fun creator => ("creator".toList, sanitized creator) := by
      rw [List.filter_eq_self]
      intro f hf
      obtain ⟨creator, -, rfl⟩ := List.mem_map.mp hf
      rfl
    rw [XspfTrack.fields, List.filter_append, hkept, List.map_append, List.map_map]
    rfl
  have hread : read_track t.fields = (do
      let title ← read_text (sanitized t.title)
      let album ← read_text (sanitized t.album)
      let creators ← (t.creators.map sanitized).mapM read_text
      some ⟨t.location, t.duration, title, album, creators⟩) := by
    rw [read_track, hcreators]
    show (uri_unescape _ >>= fun location => read_int _ >>= _) = _
    rw [hlocation, read_int_printf_d]
    rfl
  have hall : (∀ s ∈ t.texts, SanitizesCorrectly s) ↔
      read_text (sanitized t.title) = some t.title ∧
      read_text (sanitized t.album) = some t.album ∧
      (t.creators.map sanitized).mapM read_text = some t.creators := by
    simp only [XspfTrack.texts, List.forall_mem_cons, mapM_map_eq_some_iff, read_text_sanitized]
  rw [hread, hall]
  constructor
  · intro h
    obtain ⟨title, htitle, h⟩ := Option.bind_eq_some_iff.mp h
    obtain ⟨album, halbum, h⟩ := Option.bind_eq_some_iff.mp h
    obtain ⟨creators, hcreators, h⟩ := Option.bind_eq_some_iff.mp h
    have heq := Option.some.inj h
    refine ⟨htitle.trans ?_, halbum.trans ?_, hcreators.trans ?_⟩
    · exact congrArg (fun t => some t.title) heq
    · exact congrArg (fun t => some t.album) heq
    · exact congrArg (fun t => some t.creators) heq
  · rintro ⟨htitle, halbum, hcreators⟩
    rw [htitle, halbum, hcreators]
    rfl

end Spotifile
