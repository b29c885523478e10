import Spotifile.Lib.Markup
import Spotifile.Xspf

/-!
# The documents that the XSPF builder accepts

Calls of `xspf.c` after which no `g_warn_if_fail` has failed and the state is `INIT` again should
make a document: the XML declaration and one `<playlist>`, in which the other elements are nested,
and from which the calls can be read. The state follows the elements that are open
(`XSPFState.stack`), but for one thing: `xspf_end_playlist` goes back to `INIT`, in which
`xspf_begin_playlist` is called. So the calls may begin a second root element.
`xspf_represents_iff` says that this is all that can go wrong.

The texts of elements are taken as they stand in the document, with their escapes.
-/

namespace Spotifile

open Lib

/-! ## Calls -/

/-- A call of a function of `xspf.c` on the builder. -/
inductive XspfCall
  | begin_playlist
  | end_playlist
  | begin_tracklist
  | end_tracklist
  | begin_track
  | end_track
  | set_location (location : gstr)
  | set_duration (duration : ℤ)
  | set_title (title : gstr)
  | set_creator (creator : gstr)
  | set_album (album : gstr)
deriving DecidableEq, Repr

/-- The builder after a call. -/
def XspfCall.apply (x : xspf) : XspfCall → xspf
  | .begin_playlist => xspf_begin_playlist x
  | .end_playlist => xspf_end_playlist x
  | .begin_tracklist => xspf_begin_tracklist x
  | .end_tracklist => xspf_end_tracklist x
  | .begin_track => xspf_begin_track x
  | .end_track => xspf_end_track x
  | .set_location location => xspf_track_set_location x location
  | .set_duration duration => xspf_track_set_duration x duration
  | .set_title title => xspf_track_set_title x title
  | .set_creator creator => xspf_track_set_creator x creator
  | .set_album album => xspf_track_set_album x album

/-- The builder after these calls on a new one. -/
def xspf_build (calls : List XspfCall) : xspf := calls.foldl XspfCall.apply xspf_new

/-! ## Documents -/

/-- What a call leaves in a document: a tag that opens or closes, or an element with a text. -/
inductive XspfItem
  | opens (name : gstr)
  | closes (name : gstr)
  | field (name text : gstr)
deriving DecidableEq, Repr

/-- The call with its text as it is written. -/
def XspfCall.item : XspfCall → XspfItem
  | .begin_playlist => .opens "playlist".toList
  | .end_playlist => .closes "playlist".toList
  | .begin_tracklist => .opens "trackList".toList
  | .end_tracklist => .closes "trackList".toList
  | .begin_track => .opens "track".toList
  | .end_track => .closes "track".toList
  | .set_location location => .field "location".toList (g_uri_escape_string location)
  | .set_duration duration => .field "duration".toList (printf_d duration)
  | .set_title title => .field "title".toList (sanitized title)
  | .set_creator creator => .field "creator".toList (sanitized creator)
  | .set_album album => .field "album".toList (sanitized album)

/-- The elements with a text. -/
def xspf_fields : List gstr :=
  ["location", "duration", "title", "creator", "album"].map String.toList

/-- Which element may stand in which. -/
def xspf_child (parent name : gstr) : Bool :=
  parent = "playlist".toList && name = "trackList".toList ||
  parent = "trackList".toList && name = "track".toList ||
  parent = "track".toList && name ∈ xspf_fields

/-- The attributes of an element. -/
def xspf_attributes (name : gstr) : gstr :=
  if name = "playlist".toList then " version=\"1\" xmlns=\"http://xspf.org/ns/0/\"".toList else []

/-- The items of a document. Outside of the fields there are only blanks. -/
def read_items : List (Tag × gstr) → Option (List XspfItem)
  | [] => some []
  | (.start name attributes, text) :: rest =>
    if attributes ≠ xspf_attributes name then none
    else if name ∈ xspf_fields then
      match rest with
      | (.stop _, blank) :: rest =>
        if blank.all g_ascii_isspace then (read_items rest).map (.field name text :: ·) else none
      | _ => none
    else if text.all g_ascii_isspace then (read_items rest).map (.opens name :: ·) else none
  | (.stop name, text) :: rest =>
    if text.all g_ascii_isspace then (read_items rest).map (.closes name :: ·) else none

/-- The tag of the XML declaration. -/
def xml_declaration : gstr := "?xml version=\"1.0\" encoding=\"UTF-8\"?".toList

/-- The tag of a piece, and its text. -/
def read_markup (m : Markup) : Option (Tag × gstr) := (Tag.read m.tag).map (·, m.text)

/-- The text is an XML declaration and a single `<playlist>` element, and these items are read from
it. -/
def Represents (s : gstr) (items : List XspfItem) : Prop :=
  ∃ (blank : gstr) (ms : List Markup) (pieces : List (Tag × gstr)),
    lex s = some (⟨xml_declaration, blank⟩ :: ms) ∧ blank.all g_ascii_isspace ∧
    ms.mapM read_markup = some pieces ∧
    IsRoot xspf_child "playlist".toList (xspf_attributes "playlist".toList) (pieces.map (·.1)) ∧
    read_items pieces = some items

/-! ## What a call appends -/

/-- The state that a call expects. -/
def XspfCall.expects : XspfCall → XSPFState
  | .begin_playlist => .INIT
  | .end_playlist | .begin_tracklist => .PLAYLIST_BEGIN
  | .end_tracklist | .begin_track => .TRACKLIST_BEGIN
  | _ => .TRACK_BEGIN

/-- The state that a call leaves. -/
def XspfCall.next : XspfCall → XSPFState → XSPFState
  | .begin_playlist, _ | .end_tracklist, _ => .PLAYLIST_BEGIN
  | .end_playlist, _ => .INIT
  | .begin_tracklist, _ | .end_track, _ => .TRACKLIST_BEGIN
  | .begin_track, _ => .TRACK_BEGIN
  | _, state => state

/-- The tags of an item, with the texts after them. -/
def XspfItem.pieces : XspfItem → List (Tag × gstr)
  | .opens name => [(.start name (xspf_attributes name), ['\n'])]
  | .closes name => [(.stop name, ['\n'])]
  | .field name text => [(.start name (xspf_attributes name), text), (.stop name, ['\n'])]

/-- A tag with its text as it is printed. -/
def piece_markup (p : Tag × gstr) : Markup := ⟨p.1.print, p.2⟩

/-- The text of an item. -/
def XspfItem.print (item : XspfItem) : gstr := (item.pieces.map piece_markup).flatMap Markup.print

/-- A field is printed as its element. -/
lemma print_field (name text : gstr) (h : xspf_attributes name = []) :
    (XspfItem.field name text).print = xml_element name text := by
  simp [XspfItem.print, XspfItem.pieces, piece_markup, Tag.print, Markup.print, Markup.content,
    xml_element, h]

/-- A call appends what its item is printed as, if the writer is in the state that it expects. -/
lemma apply_eq (x : xspf) (c : XspfCall) :
    c.apply x = x.append c.expects (c.next x.state) c.item.print := by
  cases c with
  | begin_playlist => rfl
  | end_playlist => rfl
  | begin_tracklist => rfl
  | end_tracklist => rfl
  | begin_track => rfl
  | end_track => rfl
  | set_location location =>
    rw [XspfCall.item, print_field _ _ rfl]
    simp [XspfCall.apply, xspf_track_set_location, XspfCall.expects, XspfCall.next, xml_element]
  | set_duration duration =>
    rw [XspfCall.item, print_field _ _ rfl]
    simp [XspfCall.apply, xspf_track_set_duration, XspfCall.expects, XspfCall.next, xml_element]
  | set_title title =>
    rw [XspfCall.item, print_field _ _ rfl]
    simp [XspfCall.apply, xspf_track_set_title, XspfCall.expects, XspfCall.next, xml_element,
      sanitize_text_eq]
  | set_creator creator =>
    rw [XspfCall.item, print_field _ _ rfl]
    simp [XspfCall.apply, xspf_track_set_creator, XspfCall.expects, XspfCall.next, xml_element,
      sanitize_text_eq]
  | set_album album =>
    rw [XspfCall.item, print_field _ _ rfl]
    simp [XspfCall.apply, xspf_track_set_album, XspfCall.expects, XspfCall.next, xml_element,
      sanitize_text_eq]

/-! ## No text has a bracket -/

/-- Sanitised text has no `<`. -/
lemma lt_notMem_sanitized (s : gstr) : '<' ∉ sanitized s := by
  rw [sanitized, List.mem_flatMap]
  rintro ⟨c, -, hc⟩
  unfold quoteChar at hc
  split at hc
  · exact absurd hc (by decide)
  split at hc
  · exact absurd hc (by decide)
  split at hc
  · exact absurd hc (by decide)
  split at hc
  · exact absurd hc (by decide)
  · next hne _ =>
    exact hne (List.mem_singleton.mp hc).symm

/-- A number has no `<`. -/
lemma lt_notMem_printf_d (n : ℤ) : '<' ∉ printf_d n := by
  have hdigits : '<' ∉ Nat.toDigits 10 n.natAbs := fun hmem =>
    absurd (Nat.isDigit_of_mem_toDigits (by decide) (by decide) hmem) (by decide)
  unfold printf_d
  split
  · simp [hdigits]
  · exact hdigits

/-- No digit is a `<`. -/
lemma hex_digit_ne_lt (n : ℕ) : hex_digit n ≠ '<' := by
  unfold hex_digit
  rw [List.getD_eq_getElem?_getD]
  rcases hget : "0123456789ABCDEF".toList[n]? with _ | c
  · decide
  · rintro rfl
    exact absurd (List.mem_of_getElem? hget) (by decide)

/-- The bytes of a valid sequence after the first one are none. -/
lemma lt_notMem_sequence {c : gchar} {s : gstr} (hc : 0x80 ≤ c.toNat)
    (h : (g_utf8_get_char_validated (c :: s)).isSome = true) :
    '<' ∉ s.take (g_utf8_skip c - 1) := by
  intro hmem
  unfold g_utf8_get_char_validated at h
  dsimp only at h
  rw [if_neg (by omega)] at h
  have hany : ((s.take (g_utf8_skip c - 1)).any fun ch => ch.toNat / 0x40 ≠ 2) = true :=
    List.any_eq_true.mpr ⟨'<', hmem, by decide⟩
  rw [if_pos hany, ite_self, ite_self] at h
  cases h

/-- An escaped location has no `<`, if what is copied of it as it is has none. -/
lemma lt_notMem_uri_escape_from (copy : ℕ) (s : gstr) (h : '<' ∉ s.take copy) :
    '<' ∉ uri_escape_from copy s := by
  fun_induction uri_escape_from copy s with
  | case1 => exact List.not_mem_nil
  | case2 copy c s ih =>
    rw [List.take_succ_cons, List.mem_cons, not_or] at h
    rw [List.mem_cons, not_or]
    exact ⟨h.1, ih h.2⟩
  | case3 c s hvalid ih =>
    rw [List.mem_cons, not_or]
    refine ⟨?_, ih (lt_notMem_sequence hvalid.1 hvalid.2)⟩
    rintro rfl
    exact absurd hvalid.1 (by decide)
  | case4 c s _ hfree ih =>
    rw [List.mem_cons, not_or]
    refine ⟨?_, ih (by simp)⟩
    rintro rfl
    exact absurd hfree (by decide)
  | case5 c s _ _ ih =>
    rw [List.mem_append, not_or]
    refine ⟨?_, ih (by simp)⟩
    simp only [List.mem_cons, List.not_mem_nil, or_false, not_or]
    exact ⟨by decide, (hex_digit_ne_lt _).symm, (hex_digit_ne_lt _).symm⟩

/-- The elements without a text. -/
def xspf_structure : List gstr := ["playlist", "trackList", "track"].map String.toList

/-- An item of the builder. -/
def XspfItem.Ok : XspfItem → Prop
  | .opens name | .closes name => name ∈ xspf_structure
  | .field name text => name ∈ xspf_fields ∧ '<' ∉ text

/-- Every call writes an item that can be read back. -/
lemma item_ok (c : XspfCall) : c.item.Ok := by
  cases c with
  | begin_playlist => show _ ∈ _; decide
  | end_playlist => show _ ∈ _; decide
  | begin_tracklist => show _ ∈ _; decide
  | end_tracklist => show _ ∈ _; decide
  | begin_track => show _ ∈ _; decide
  | end_track => show _ ∈ _; decide
  | set_location location =>
    refine ⟨by decide, lt_notMem_uri_escape_from 0 location ?_⟩
    simp
  | set_duration duration => exact ⟨by decide, lt_notMem_printf_d duration⟩
  | set_title title => exact ⟨by decide, lt_notMem_sanitized title⟩
  | set_creator creator => exact ⟨by decide, lt_notMem_sanitized creator⟩
  | set_album album => exact ⟨by decide, lt_notMem_sanitized album⟩

/-! ## The document is read -/

/-- The pieces of the document after the declaration. -/
def calls_pieces (calls : List XspfCall) : List (Tag × gstr) := calls.flatMap (·.item.pieces)

/-- The pieces of the first call come first. -/
lemma calls_pieces_cons (c : XspfCall) (calls : List XspfCall) :
    calls_pieces (c :: calls) = c.item.pieces ++ calls_pieces calls := rfl

instance decidablePlain : (t : Tag) → Decidable t.Plain
  | .start _ _ => inferInstanceAs (Decidable (_ ∧ _))
  | .stop name => inferInstanceAs (Decidable (IsName name))

/-- The names of all elements can be printed and read again. -/
lemma names_plain : ∀ name ∈ xspf_structure ++ xspf_fields,
    (Tag.start name (xspf_attributes name)).Plain ∧ (Tag.stop name).Plain ∧
      ('<' ∉ name ∧ '<' ∉ xspf_attributes name) ∧ '>' ∉ name ∧ '>' ∉ xspf_attributes name := by
  decide

/-- A piece that can be printed and found again. -/
structure PlainPiece (p : Tag × gstr) : Prop where
  tag : p.1.Plain
  markup : (piece_markup p).Plain

/-- A start tag with its text is plain. -/
lemma plainPiece_start {name text : gstr} (hname : name ∈ xspf_structure ++ xspf_fields)
    (htext : '<' ∉ text) : PlainPiece (.start name (xspf_attributes name), text) := by
  obtain ⟨hstart, -, hlt, hgt⟩ := names_plain name hname
  refine ⟨hstart, ?_, ?_, htext⟩
  · exact fun hmem => (List.mem_append.mp hmem).elim hlt.1 hlt.2
  · exact fun hmem => (List.mem_append.mp hmem).elim hgt.1 hgt.2

/-- An end tag with its newline is plain. -/
lemma plainPiece_stop {name : gstr} (hname : name ∈ xspf_structure ++ xspf_fields) :
    PlainPiece (.stop name, ['\n']) := by
  obtain ⟨-, hstop, hlt, hgt⟩ := names_plain name hname
  have htext : '<' ∉ ['\n'] := by decide
  refine ⟨hstop, ?_, ?_, htext⟩
  · exact fun hmem => (List.mem_cons.mp hmem).elim (by decide) hlt.1
  · exact fun hmem => (List.mem_cons.mp hmem).elim (by decide) hgt.1

/-- An item that can be read back is printed in plain pieces. -/
lemma plainPiece_of_ok {item : XspfItem} (h : item.Ok) : ∀ p ∈ item.pieces, PlainPiece p := by
  cases item with
  | opens name =>
    intro p hp
    obtain rfl := List.mem_singleton.mp hp
    exact plainPiece_start (List.mem_append_left _ h) (by decide)
  | closes name =>
    intro p hp
    obtain rfl := List.mem_singleton.mp hp
    exact plainPiece_stop (List.mem_append_left _ h)
  | field name text =>
    intro p hp
    rcases List.mem_cons.mp hp with rfl | hp
    · exact plainPiece_start (List.mem_append_right _ h.1) h.2
    · obtain rfl := List.mem_singleton.mp hp
      exact plainPiece_stop (List.mem_append_right _ h.1)

/-- All pieces of a document are plain. -/
lemma plainPiece_calls {calls : List XspfCall} : ∀ p ∈ calls_pieces calls, PlainPiece p := by
  intro p hp
  obtain ⟨c, -, hp⟩ := List.mem_flatMap.mp hp
  exact plainPiece_of_ok (item_ok c) p hp

/-- The items of the builder are read one by one. -/
lemma read_items_append {item : XspfItem} (h : item.Ok) (rest : List (Tag × gstr)) :
    read_items (item.pieces ++ rest) = (read_items rest).map (item :: ·) := by
  have hblank : ['\n'].all g_ascii_isspace = true := by decide
  have hattributes (name : gstr) : ¬ xspf_attributes name ≠ xspf_attributes name :=
    not_not_intro rfl
  unfold XspfItem.pieces
  cases item with
  | opens name =>
    have hfields : ∀ name ∈ xspf_structure, name ∉ xspf_fields := by decide
    rw [List.singleton_append, read_items.eq_def]
    simp only [if_neg (hattributes name), if_neg (hfields name h), if_pos hblank]
  | closes name =>
    rw [List.singleton_append, read_items.eq_def]
    simp only [if_pos hblank]
  | field name text =>
    rw [List.cons_append, List.singleton_append, read_items.eq_def]
    simp only [if_neg (hattributes name), if_pos h.1, if_pos hblank]

/-- The items are read back from the pieces of the calls. -/
lemma read_items_calls (calls : List XspfCall) :
    read_items (calls_pieces calls) = some (calls.map XspfCall.item) := by
  induction calls with
  | nil => rfl
  | cons c calls ih =>
    rw [calls_pieces_cons, read_items_append (item_ok c), ih]
    rfl

/-- The document is the declaration and the pieces of the calls. -/
lemma xspf_build_string (calls : List XspfCall) : (xspf_build calls).string =
    (⟨xml_declaration, ['\n']⟩ :: (calls_pieces calls).map piece_markup).flatMap Markup.print := by
  have hfoldl : ∀ (calls : List XspfCall) (x : xspf), (calls.foldl XspfCall.apply x).string =
      x.string ++ ((calls_pieces calls).map piece_markup).flatMap Markup.print := by
    intro calls
    induction calls with
    | nil => intro x; simp [calls_pieces]
    | cons c calls ih =>
      intro x
      rw [List.foldl_cons, ih, apply_eq, xspf.append, calls_pieces_cons, List.map_append,
        List.flatMap_append, List.append_assoc]
      rfl
  rw [xspf_build, hfoldl, List.flatMap_cons]
  rfl

/-- The document represents the calls exactly if their pieces are one element. -/
lemma represents_iff_isRoot (calls : List XspfCall) :
    Represents (xspf_free (xspf_build calls)) (calls.map XspfCall.item) ↔
      IsRoot xspf_child "playlist".toList (xspf_attributes "playlist".toList)
        ((calls_pieces calls).map (·.1)) := by
  have hlex : lex (xspf_free (xspf_build calls)) =
      some (⟨xml_declaration, ['\n']⟩ :: (calls_pieces calls).map piece_markup) := by
    rw [xspf_free, xspf_build_string]
    apply lex_print (List.cons_ne_nil _ _)
    intro m hm
    rcases List.mem_cons.mp hm with rfl | hm
    · exact ⟨by decide, by decide, by decide⟩
    · obtain ⟨p, hp, rfl⟩ := List.mem_map.mp hm
      exact (plainPiece_calls p hp).markup
  have hread : ((calls_pieces calls).map piece_markup).mapM read_markup =
      some (calls_pieces calls) := by
    apply mapM_map_some
    intro p hp
    rw [read_markup, piece_markup, read_print (plainPiece_calls p hp).tag]
    rfl
  constructor
  · rintro ⟨blank, ms, pieces, hs, -, hms, hroot, -⟩
    rw [hlex, Option.some.injEq, List.cons.injEq] at hs
    rw [← hs.2, hread, Option.some.injEq] at hms
    rwa [hms]
  · intro hroot
    exact ⟨['\n'], _, _, hlex, by decide, hread, hroot, read_items_calls calls⟩

/-! ## The state and the open elements -/

/-- The elements that are open in a state. -/
def XSPFState.stack : XSPFState → List gstr
  | .INIT => []
  | .PLAYLIST_BEGIN => ["playlist".toList]
  | .TRACKLIST_BEGIN => ["trackList".toList, "playlist".toList]
  | .TRACK_BEGIN => ["track".toList, "trackList".toList, "playlist".toList]

/-- The calls pass the checks from the one state to the other. -/
def Accepted : XSPFState → List XspfCall → XSPFState → Prop
  | state, [], last => state = last
  | state, c :: calls, last => state = c.expects ∧ Accepted (c.next state) calls last

/-- Calls after which no check has failed are accepted. -/
lemma accepted_of_build {calls : List XspfCall} {x : xspf}
    (h : (calls.foldl XspfCall.apply x).warned = false) :
    x.warned = false ∧ Accepted x.state calls (calls.foldl XspfCall.apply x).state := by
  induction calls generalizing x with
  | nil => exact ⟨h, rfl⟩
  | cons c calls ih =>
    rw [List.foldl_cons] at h ⊢
    obtain ⟨hwarned, haccepted⟩ := ih h
    rw [apply_eq] at hwarned haccepted
    simp only [xspf.append, Bool.or_eq_false_iff, decide_eq_false_iff_not, not_not] at hwarned
    rw [apply_eq]
    exact ⟨hwarned.1, hwarned.2, haccepted⟩

/-- An element opens within a parent that may have it. -/
lemma closes_opens {parent name : gstr} (h : xspf_child parent name = true) (names : List gstr)
    (ts : List Tag) :
    closes xspf_child (parent :: names) ((XspfItem.opens name).pieces.map (·.1) ++ ts) =
      closes xspf_child (name :: parent :: names) ts := by
  show closes xspf_child (parent :: names) (.start name _ :: ts) = _
  rw [closes, h, Bool.true_and]

/-- The element that is open last is closed. -/
lemma closes_closes (name : gstr) (names : List gstr) (ts : List Tag) :
    closes xspf_child (name :: names) ((XspfItem.closes name).pieces.map (·.1) ++ ts) =
      closes xspf_child names ts := by
  show closes xspf_child (name :: names) (.stop name :: ts) = _
  simp [closes]

/-- A field opens and closes within its parent. -/
lemma closes_field {parent name : gstr} (h : xspf_child parent name = true) (text : gstr)
    (names : List gstr) (ts : List Tag) :
    closes xspf_child (parent :: names) ((XspfItem.field name text).pieces.map (·.1) ++ ts) =
      closes xspf_child (parent :: names) ts := by
  show closes xspf_child (parent :: names) (.start name _ :: .stop name :: ts) = _
  rw [closes, h, Bool.true_and]
  simp [closes]

/-- A call that is accepted does to the stack what its tags do, unless it begins a playlist. -/
lemma closes_item {c : XspfCall} (hc : c ≠ .begin_playlist) (ts : List Tag) :
    closes xspf_child c.expects.stack (c.item.pieces.map (·.1) ++ ts) =
      closes xspf_child (c.next c.expects).stack ts := by
  cases c with
  | begin_playlist => exact absurd rfl hc
  | end_playlist => exact closes_closes _ _ ts
  | begin_tracklist => exact closes_opens (by decide) _ ts
  | end_tracklist => exact closes_closes _ _ ts
  | begin_track => exact closes_opens (by decide) _ ts
  | end_track => exact closes_closes _ _ ts
  | set_location location => exact closes_field (by decide) _ _ ts
  | set_duration duration => exact closes_field (by decide) _ _ ts
  | set_title title => exact closes_field (by decide) _ _ ts
  | set_creator creator => exact closes_field (by decide) _ _ ts
  | set_album album => exact closes_field (by decide) _ _ ts

/-- The tags of accepted calls close the open elements exactly if no call begins a playlist. -/
lemma closes_calls_iff {state : XSPFState} {calls : List XspfCall}
    (h : Accepted state calls .INIT) :
    closes xspf_child state.stack ((calls_pieces calls).map (·.1)) = true ↔
      .begin_playlist ∉ calls := by
  induction calls generalizing state with
  | nil =>
    obtain rfl := h
    simp [calls_pieces, XSPFState.stack, closes]
  | cons c calls ih =>
    obtain ⟨rfl, h⟩ := h
    rw [calls_pieces_cons, List.map_append]
    by_cases hc : c = .begin_playlist
    · -- nothing may follow the end of the root element
      subst hc
      apply iff_of_false
      · exact Bool.false_ne_true
      · exact fun hmem => hmem List.mem_cons_self
    · rw [closes_item hc, ih h, List.mem_cons, not_or]
      exact ⟨fun hcalls => ⟨fun heq => hc heq.symm, hcalls⟩, And.right⟩

/-- Accepted calls make a document exactly if they begin one playlist. -/
theorem xspf_represents_iff {calls : List XspfCall} (hne : calls ≠ [])
    (hwarned : (xspf_build calls).warned = false) (hstate : (xspf_build calls).state = .INIT) :
    Represents (xspf_free (xspf_build calls)) (calls.map XspfCall.item) ↔
      calls.count .begin_playlist = 1 := by
  obtain ⟨-, haccepted⟩ := accepted_of_build hwarned
  rw [show (calls.foldl XspfCall.apply xspf_new).state = .INIT from hstate] at haccepted
  obtain ⟨c, calls, rfl⟩ := List.exists_cons_of_ne_nil hne
  obtain ⟨hc, haccepted⟩ := haccepted
  obtain rfl : c = .begin_playlist := by
    cases c <;> first | rfl | cases hc
  have hpieces : (calls_pieces (.begin_playlist :: calls)).map (·.1) =
      .start "playlist".toList (xspf_attributes "playlist".toList) ::
        (calls_pieces calls).map (·.1) := rfl
  have hclosed : closes xspf_child ["playlist".toList] ((calls_pieces calls).map (·.1)) = true ↔
      _ := closes_calls_iff haccepted
  rw [represents_iff_isRoot, hpieces, isRoot_iff_closes, List.count_cons_self, hclosed,
    ← List.count_eq_zero]
  omega

/-- The theorem at a document with one track. -/
theorem xspf_represents_iff_track :
    let calls : List XspfCall := [.begin_playlist, .begin_tracklist, .begin_track,
      .set_title "Cold & Cough".toList, .end_track, .end_tracklist, .end_playlist]
    Represents (xspf_free (xspf_build calls)) (calls.map XspfCall.item) ↔
      calls.count .begin_playlist = 1 :=
  xspf_represents_iff (by decide) (by decide) (by decide)

/-- Two playlists, one after the other: no check fails, and the document has two root elements. -/
def two_roots : List XspfCall :=
  [.begin_playlist, .end_playlist, .begin_playlist, .end_playlist]

/-- The checks do not see the second root element. -/
theorem two_roots_not_represented :
    two_roots ≠ [] ∧ (xspf_build two_roots).warned = false ∧
      (xspf_build two_roots).state = .INIT ∧
      ¬ Represents (xspf_free (xspf_build two_roots)) (two_roots.map XspfCall.item) := by
  refine ⟨by decide, by decide, by decide, ?_⟩
  rw [represents_iff_isRoot]
  have hpieces : (calls_pieces two_roots).map (·.1) =
      .start "playlist".toList (xspf_attributes "playlist".toList) ::
        (calls_pieces [.end_playlist, .begin_playlist, .end_playlist]).map (·.1) := rfl
  rw [hpieces, isRoot_iff_closes]
  decide

end Spotifile
