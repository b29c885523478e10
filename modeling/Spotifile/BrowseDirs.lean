import Spotifile.Alone
import Spotifile.Links

/-!
# Browse directories and link strings

`create_track_browse_dir`, `create_artist_browse_dir` and `create_album_browse_dir` use the link
string of an object as the key of its directory. The string is cut to a buffer of 1024 bytes and
then sanitised; what is already stored under the key is returned as it is.

`Recorded` is what a sequence of such calls leaves behind, whatever the link strings are: the keys
decide. `browse_dirs_keyed_iff` says for which sequences the link strings decide.
-/

namespace Spotifile

open Lib

/-! ## Link strings -/

/-- The link strings of libspotify, in full, and its function that writes one into a buffer: what it
writes, up to the terminator, and what it returns. -/
structure LinkStrings where
  track : sp_track → gstr
  artist : sp_artist → gstr
  album : sp_album → gstr
  sp_link_as_string : gstr → ℕ → gstr × ℕ

namespace LinkStrings

variable (full : LinkStrings)

/-- The function cuts what does not fit, and returns the full length. -/
def Truncates : Prop := ∀ (link : gstr) (buffer_size : ℕ), 0 < buffer_size →
  full.sp_link_as_string link buffer_size = (link.take (buffer_size - 1), link.length)

/-- The warning for a link that is truncated is left out.
Source: `spfs_spotify.c`, `spotify_link_as_string`. -/
def spotify_link_as_string (link : gstr) (buffer_size : ℕ) : gstr × ℕ :=
  full.sp_link_as_string link buffer_size

/-- The buffer of a `create_.._browse_dir`. -/
def linkstring_buffer (link : gstr) : gstr := (full.spotify_link_as_string link 1024).1

/-- What the buffers hold. -/
def buffers : SpotifyLinks where
  track track := some (full.linkstring_buffer (full.track track))
  artist artist := some (full.linkstring_buffer (full.artist artist))
  album album := some (full.linkstring_buffer (full.album album))

variable {full}

/-- A buffer holds the first 1023 bytes. -/
lemma Truncates.linkstring_buffer (ht : full.Truncates) (link : gstr) :
    full.linkstring_buffer link = link.take 1023 := by
  rw [LinkStrings.linkstring_buffer, LinkStrings.spotify_link_as_string,
    ht link 1024 (Nat.succ_pos _)]

end LinkStrings

/-- A call of one of the three functions. -/
inductive BrowseCall
  | track (track : sp_track)
  | artist (artist : sp_artist)
  | album (album : sp_album)
deriving DecidableEq, Repr

namespace BrowseCall

/-- Which of the functions it is. -/
def kind : BrowseCall → BrowseKind
  | .track _ => .track
  | .artist _ => .artist
  | .album _ => .album

variable (full : LinkStrings)

/-- The link string of the object. -/
def linkstring : BrowseCall → gstr
  | .track t => full.track t
  | .artist a => full.artist a
  | .album b => full.album b

/-- The key under which the function looks for the directory. -/
def key (c : BrowseCall) : gstr := spfs_sanitize_name (full.linkstring_buffer (c.linkstring full))

/-- The function. -/
def prog : BrowseCall → MountProg (Option Ptr)
  | .track t => create_track_browse_dir full.buffers t
  | .artist a => create_artist_browse_dir full.buffers a
  | .album b => create_album_browse_dir full.buffers b

/-- The `auxdata` that the function gives a new directory. -/
def auxdata (o : Spotify) : BrowseCall → Auxdata
  | .track t => .track t
  | .artist a => .artistbrowse (o.artistbrowse_create a)
  | .album b => .album b

end BrowseCall

/-- A call that has returned. -/
abbrev BrowseDone := Done BrowseCall Spotify (Option Ptr)

/-! ## What is asked for -/

section Property

variable (full : LinkStrings)

/-- Links have no slash, and no blanks at their ends. -/
def LinkStrings.Plain : Prop := ∀ c : BrowseCall, '/' ∉ c.linkstring full ∧
  g_strstrip (c.linkstring full) = c.linkstring full

/-- The `auxdata` belongs to the object of the call: it is an object with the same link, or an
artistbrowse of one. `artist_of` is libspotify's `sp_artistbrowse_artist`. -/
def BelongsToObject (artist_of : sp_artistbrowse → sp_artist) : Auxdata → BrowseCall → Prop
  | .track track', .track track => full.track track' = full.track track
  | .artistbrowse (some ab), .artist artist => full.artist (artist_of ab) = full.artist artist
  | .album album', .album album => full.album album' = full.album album
  | _, _ => False

/-- Calls of one kind return the same directory exactly if the links are the same, and the
`auxdata` of a directory belongs to the object it was returned for. -/
structure KeyedByLink (artist_of : sp_artistbrowse → sp_artist) (done : List BrowseDone)
    (h : Heap) : Prop where
  same : done.Pairwise fun x y => x.call.kind = y.call.kind →
    (x.result = y.result ↔ x.call.linkstring full = y.call.linkstring full)
  own : ∀ x ∈ done, ∃ d auxdata, x.result = some d ∧ h.auxdata d = some auxdata ∧
    BelongsToObject full artist_of auxdata x.call

/-- None of the calls before has made a directory under the key of this one. -/
def NoneBefore (before : List BrowseCall) (c : BrowseCall) : Prop :=
  ∀ x ∈ before, x.kind = c.kind → x.key full = c.key full → c.key full = []

/-- Calls whose keys are as good as their links, and for which libspotify makes every artistbrowse
that a new directory needs. -/
structure Separated (calls : List (BrowseCall × Spotify)) : Prop where
  keys : calls.Pairwise fun x y => x.1.kind = y.1.kind → x.1.key full = y.1.key full →
    x.1.linkstring full = y.1.linkstring full ∧ x.1.linkstring full ≠ []
  browsed : ∀ before artist o after, calls = before ++ (.artist artist, o) :: after →
    NoneBefore full (before.map Prod.fst) (.artist artist) → o.artistbrowse_create artist ≠ none

end Property

/-! ## What the calls leave behind -/

section Calls

variable (full : LinkStrings)

/-- A directory that was returned. -/
structure Returned (x : BrowseDone) (h : Heap) (d : Ptr) : Prop where
  result : x.result = some d
  browses : h.browses d = some x.call.kind
  name : h.name d = some (x.call.key full)
  here : x.call.key full ≠ [] → h.lookup x.call.kind.base (x.call.key full) = some d
  orphan : x.call.key full = [] → h.parent d = none

/-- The calls that have returned and the heap they have left. -/
structure Recorded (done : List BrowseDone) (s : Mount) : Prop where
  wf : s.Wf
  returned : ∀ x ∈ done, ∃ d, Returned full x s.heap d
  entry : ∀ (k : BrowseKind) key d, s.heap.lookup k.base key = some d →
    ∃ x ∈ done, x.call.kind = k ∧ x.call.key full = key
  created : ∀ before x after, done = before ++ x :: after →
    NoneBefore full (before.map Done.call) x.call →
    ∃ d, x.result = some d ∧ s.heap.auxdata d = some (x.call.auxdata x.choice)
  distinct : done.Pairwise fun x y => x.call.kind = y.call.kind →
    (x.result = y.result ↔ x.call.key full = y.call.key full ∧ x.call.key full ≠ [])

variable {full} {s s' : Mount}

variable (full) in
/-- A call. -/
lemma BrowseCall.eval_prog (hw : s.Wf) (c : BrowseCall) (o : Spotify) :
    ∃ d s', (c.prog full).eval MountInstr.exec o s = some (some d, s') ∧
      Opened s s' c.kind (full.linkstring_buffer (c.linkstring full)) (c.auxdata o) d := by
  cases c with
  | track track => exact eval_create_track_browse_dir hw rfl
  | artist artist => exact eval_create_artist_browse_dir hw rfl
  | album album => exact eval_create_album_browse_dir hw rfl

/-- A browse directory that is in no directory stays so. -/
lemma Heap.Grows.orphan_of_browses {h h' : Heap} (hg : h.Grows h') {d : Ptr} {k : BrowseKind}
    (hd : h.browses d = some k) (hparent : h.parent d = none) : h'.parent d = none := by
  obtain ⟨e, he, -⟩ := Option.bind_eq_some_iff.mp hd
  obtain ⟨e', he', hee'⟩ := hg.get d e he
  rw [Heap.parent, he, Option.bind_some] at hparent
  rw [Heap.parent, he', Option.bind_some]
  exact hee'.orphan hparent (by simp [Heap.readdir_of_browses hd he])

/-- A directory that was returned stays what it was. -/
lemma Returned.mono {x : BrowseDone} {d : Ptr} (hx : Returned full x s.heap d)
    (hg : s.Grows s') : Returned full x s'.heap d where
  result := hx.result
  browses := hg.browses hx.browses
  name := hg.heap.name hx.name
  here hne := hg.heap.lookup _ _ _ (hx.here hne)
  orphan hnil := hg.heap.orphan_of_browses hx.browses (hx.orphan hnil)

/-- What a call opens is what it returns. -/
lemma Opened.returned {c : BrowseCall} {o : Spotify} {auxdata : Auxdata} {d : Ptr} (hw : s.Wf)
    (hd : Opened s s' c.kind (full.linkstring_buffer (c.linkstring full)) auxdata d) :
    Returned full ⟨c, o, some d⟩ s'.heap d where
  result := rfl
  browses := hd.browses
  name := hd.name
  here := hd.here hw
  orphan := hd.orphan

/-- Two directories that were returned for calls of one kind are the same exactly if the keys are,
unless these are empty and the second directory is new. -/
lemma Returned.eq_iff {h : Heap} {x y : BrowseDone} {d d' : Ptr}
    (hx : Returned full x h d) (hy : Returned full y h d') (hkind : x.call.kind = y.call.kind)
    (hnew : x.call.key full = [] → y.call.key full = [] → d ≠ d') :
    x.result = y.result ↔ x.call.key full = y.call.key full ∧ x.call.key full ≠ [] := by
  rw [hx.result, hy.result, Option.some.injEq]
  constructor
  · rintro rfl
    have hkey : x.call.key full = y.call.key full :=
      Option.some.inj (hx.name.symm.trans hy.name)
    exact ⟨hkey, fun hnil => hnew hnil (hkey ▸ hnil) rfl⟩
  · rintro ⟨hkey, hne⟩
    have hx' := hx.here hne
    rw [hkind, hkey] at hx'
    exact Option.some.inj (hx'.symm.trans (hy.here (hkey ▸ hne)))

/-- One more call. -/
lemma Recorded.step {done : List BrowseDone} (hr : Recorded full done s) (c : BrowseCall)
    (o : Spotify) : ∃ r s', (c.prog full).eval MountInstr.exec o s = some (r, s') ∧
      Recorded full (done ++ [⟨c, o, r⟩]) s' := by
  obtain ⟨d, s', heval, hd⟩ := c.eval_prog full hr.wf o
  have hnew : Returned full ⟨c, o, some d⟩ s'.heap d := hd.returned hr.wf
  have hold : ∀ x ∈ done, ∃ d, Returned full x s'.heap d ∧ d < s.heap.fresh := by
    intro x hx
    obtain ⟨d, hx⟩ := hr.returned x hx
    obtain ⟨e, he, -⟩ := Option.bind_eq_some_iff.mp hx.browses
    exact ⟨d, hx.mono hd.keeps.toGrows, Heap.lt_fresh_of_get he⟩
  refine ⟨some d, s', heval, hd.wf, ?_, ?_, ?_, ?_⟩
  · intro x hx
    rcases List.mem_append.mp hx with hx | hx
    · obtain ⟨d, hx, -⟩ := hold x hx
      exact ⟨d, hx⟩
    · obtain rfl := List.mem_singleton.mp hx
      exact ⟨d, hnew⟩
  · intro k key q hq
    rw [hd.lookup k.base (hr.wf.base_lt k)] at hq
    split at hq
    · next hhere =>
      exact ⟨_, List.mem_append_right _ (List.mem_singleton_self _),
        (base_injective hhere.1).symm, hhere.2.1⟩
    · obtain ⟨x, hx, hkind, hkey⟩ := hr.entry k key q hq
      exact ⟨x, List.mem_append_left _ hx, hkind, hkey⟩
  · intro before x after hsplit hnone
    rcases List.eq_nil_or_concat after with rfl | ⟨after, z, rfl⟩
    · obtain ⟨rfl, hx⟩ := List.append_inj' hsplit rfl
      obtain rfl := (List.cons.inj hx).1
      rcases hd.cases with ⟨hthere, -⟩ | ⟨-, -, hauxdata⟩
      · obtain ⟨y, hy, hkind, hkey⟩ := hr.entry _ _ _ hthere
        exact absurd (hnone _ (List.mem_map_of_mem hy) hkind hkey)
          (hr.wf.tree.entry _ _ _ hthere).1
      · exact ⟨d, rfl, hauxdata⟩
    · rw [List.concat_eq_append, ← List.cons_append, ← List.append_assoc] at hsplit
      have hsplit' : done = before ++ x :: after := (List.append_inj' hsplit rfl).1
      obtain ⟨q, hresult, hauxdata⟩ := hr.created before x after hsplit' hnone
      obtain ⟨q', hx⟩ := hr.returned x (by simp [hsplit'])
      obtain rfl : q' = q := Option.some.inj (hx.result.symm.trans hresult)
      exact ⟨q', hresult, (hd.keeps.heap.auxdata_of_browses hx.browses).trans hauxdata⟩
  · refine List.pairwise_append.mpr ⟨hr.distinct, List.pairwise_singleton _ _, ?_⟩
    intro x hx y hy hkind
    obtain rfl := List.mem_singleton.mp hy
    obtain ⟨q, hq, hlt⟩ := hold x hx
    refine hq.eq_iff hnew hkind fun _ hnil => ?_
    rcases hd.cases with ⟨hthere, -⟩ | ⟨-, rfl, -⟩
    · exact absurd hnil (hr.wf.tree.entry _ _ _ hthere).1
    · exact hlt.ne

variable (full) in
/-- Any sequence of calls, from a state without browse directories. -/
theorem exists_recorded (hw : s.Wf)
    (hempty : ∀ (k : BrowseKind) key, s.heap.lookup k.base key = none)
    (calls : List (BrowseCall × Spotify)) :
    ∃ done s', Prog.evalEach MountInstr.exec (BrowseCall.prog full) calls s = some (done, s') ∧
      done.map Done.asked = calls ∧ Recorded full done s' := by
  apply Prog.exists_evalEach (Recorded full)
  · refine ⟨hw, by simp, ?_, by simp, List.Pairwise.nil⟩
    intro k key d hd
    rw [hempty] at hd
    cases hd
  · intro done c o rest s _ hr
    exact hr.step c o

end Calls

/-! ## When the link strings decide -/

section Keyed

variable {full : LinkStrings} {artist_of : sp_artistbrowse → sp_artist} {done : List BrowseDone}
  {s : Mount}

/-- Only an empty link has an empty key. -/
lemma LinkStrings.Plain.key_eq_nil_iff (hplain : full.Plain) (htruncates : full.Truncates)
    (c : BrowseCall) : c.key full = [] ↔ c.linkstring full = [] := by
  obtain ⟨hslash, hstrip⟩ := hplain c
  rw [BrowseCall.key, htruncates.linkstring_buffer]
  rcases hlink : c.linkstring full with _ | ⟨x, link⟩
  · exact iff_of_true (by decide) rfl
  · rw [hlink] at hslash hstrip
    refine iff_of_false ?_ (List.cons_ne_nil x link)
    -- the first byte is not a blank, so that it is in the key
    have hspace : g_ascii_isspace x = false := by
      have hpre : x :: link <+: (x :: link).dropWhile g_ascii_isspace := by
        nth_rewrite 1 [← hstrip]
        exact List.rdropWhile_prefix _ _
      have hsuf : (x :: link).dropWhile g_ascii_isspace <:+ x :: link := List.dropWhile_suffix _
      have heq := hsuf.eq_of_length_le hpre.length_le
      rw [List.dropWhile_eq_self_iff] at heq
      simpa using heq (Nat.succ_pos _)
    have hx : x ≠ '/' := fun h => hslash (h ▸ List.mem_cons_self)
    exact List.ne_nil_of_mem (mem_sanitize_name hspace hx (List.mem_cons_self ..))

/-- The keys of objects of one kind with the same link are the same. -/
lemma BrowseCall.key_congr {c c' : BrowseCall} (h : c.linkstring full = c'.linkstring full) :
    c.key full = c'.key full := by
  rw [BrowseCall.key, h, BrowseCall.key]

/-- Which calls return the same directory. -/
lemma Recorded.same_iff (hr : Recorded full done s) (hplain : full.Plain)
    (htruncates : full.Truncates) :
    (done.Pairwise fun x y => x.call.kind = y.call.kind →
      (x.result = y.result ↔ x.call.linkstring full = y.call.linkstring full)) ↔
    (done.map Done.asked).Pairwise fun x y => x.1.kind = y.1.kind → x.1.key full = y.1.key full →
      x.1.linkstring full = y.1.linkstring full ∧ x.1.linkstring full ≠ [] := by
  rw [List.pairwise_map]
  constructor
  · intro hsame
    refine List.Pairwise.imp₂ (fun x y hd hs hkind hkey => ?_) hr.distinct hsame
    have hne : x.call.key full ≠ [] := by
      intro hnil
      have hx := (hplain.key_eq_nil_iff htruncates x.call).mp hnil
      have hy := (hplain.key_eq_nil_iff htruncates y.call).mp (hkey.symm.trans hnil)
      exact ((hd hkind).mp ((hs hkind).mpr (hx.trans hy.symm))).2 hnil
    refine ⟨(hs hkind).mp ((hd hkind).mpr ⟨hkey, hne⟩), ?_⟩
    exact fun hnil => hne ((hplain.key_eq_nil_iff htruncates x.call).mpr hnil)
  · intro hkeys
    refine List.Pairwise.imp₂ (fun x y hd hk hkind => ?_) hr.distinct hkeys
    rw [hd hkind]
    constructor
    · rintro ⟨hkey, -⟩
      exact (hk hkind hkey).1
    · intro hlink
      have hkey := BrowseCall.key_congr hlink
      refine ⟨hkey, fun hnil => (hk hkind hkey).2 ?_⟩
      exact (hplain.key_eq_nil_iff htruncates x.call).mp hnil

/-- What a call gives a new directory belongs to every object with that link. -/
lemma belongs_auxdata {c c' : BrowseCall} {o : Spotify} (hkind : c.kind = c'.kind)
    (hlink : c.linkstring full = c'.linkstring full)
    (hartist : ∀ a, c = .artist a → ∃ ab, o.artistbrowse_create a = some ab ∧ artist_of ab = a) :
    BelongsToObject full artist_of (c.auxdata o) c' := by
  cases c with
  | track t => cases c' with
    | track t' => exact hlink
    | artist a' => cases hkind
    | album b' => cases hkind
  | artist a => cases c' with
    | track t' => cases hkind
    | artist a' =>
      obtain ⟨ab, hab, rfl⟩ := hartist a rfl
      rw [BrowseCall.auxdata, hab]
      exact hlink
    | album b' => cases hkind
  | album b => cases c' with
    | track t' => cases hkind
    | artist a' => cases hkind
    | album b' => exact hlink

/-- The first call with the kind and the key of a call. -/
lemma exists_first (full : LinkStrings) {x : BrowseDone} (hx : x ∈ done) :
    ∃ before y after, done = before ++ y :: after ∧ y.call.kind = x.call.kind ∧
      y.call.key full = x.call.key full ∧ NoneBefore full (before.map Done.call) y.call := by
  let alike (y : BrowseDone) : Bool :=
    y.call.kind = x.call.kind ∧ y.call.key full = x.call.key full
  have hsome : (done.find? alike).isSome := by
    rw [List.find?_isSome]
    exact ⟨x, hx, by simp [alike]⟩
  obtain ⟨y, hy⟩ := Option.isSome_iff_exists.mp hsome
  obtain ⟨halike, before, after, hdone, hbefore⟩ := List.find?_eq_some_iff_append.mp hy
  obtain ⟨hkind, hkey⟩ := of_decide_eq_true halike
  refine ⟨before, y, after, hdone, hkind, hkey, ?_⟩
  intro c hc hkind' hkey'
  obtain ⟨z, hz, rfl⟩ := List.mem_map.mp hc
  have hnot := hbefore z hz
  simp [alike, hkind', hkey', hkind, hkey] at hnot

/-- Calls with the same key have the same link, where the keys are as good as the links. -/
lemma linkstring_eq_of_key
    (hkeys : (done.map Done.asked).Pairwise fun x y => x.1.kind = y.1.kind →
      x.1.key full = y.1.key full → x.1.linkstring full = y.1.linkstring full ∧
        x.1.linkstring full ≠ []) {x y : BrowseDone} (hx : x ∈ done) (hy : y ∈ done)
    (hkind : y.call.kind = x.call.kind) (hkey : y.call.key full = x.call.key full) :
    y.call.linkstring full = x.call.linkstring full := by
  rw [List.pairwise_map] at hkeys
  have hall := List.Pairwise.forall_of_forall_of_flip (R := fun y x : BrowseDone =>
    y.call.kind = x.call.kind → y.call.key full = x.call.key full →
      y.call.linkstring full = x.call.linkstring full) (fun _ _ _ _ => rfl)
    (hkeys.imp fun h hkind hkey => (h hkind hkey).1)
    (hkeys.imp fun h hkind hkey => (h hkind.symm hkey.symm).1.symm)
  exact hall hy hx hkind hkey

/-- A directory with an empty name is its own; any other is that of the first call with the key. -/
lemma Recorded.exists_first_result (hr : Recorded full done s) {x : BrowseDone} (hx : x ∈ done) :
    ∃ before y after, done = before ++ y :: after ∧ y.call.kind = x.call.kind ∧
      y.call.key full = x.call.key full ∧ NoneBefore full (before.map Done.call) y.call ∧
      y.result = x.result := by
  by_cases hnil : x.call.key full = []
  · obtain ⟨before, after, hdone⟩ := List.append_of_mem hx
    exact ⟨before, x, after, hdone, rfl, rfl, fun _ _ _ _ => hnil, rfl⟩
  · obtain ⟨before, y, after, hdone, hkind, hkey, hnone⟩ := exists_first full hx
    obtain ⟨d, hd⟩ := hr.returned x hx
    obtain ⟨d', hd'⟩ := hr.returned y (by simp [hdone])
    have hthere := hd'.here (hkey ▸ hnil)
    rw [hkind, hkey, hd.here hnil] at hthere
    exact ⟨before, y, after, hdone, hkind, hkey, hnone,
      hd'.result.trans (hthere.symm.trans hd.result.symm)⟩

/-- Whose `auxdata` the directories have, where the keys are as good as the links. -/
lemma Recorded.own_iff (hr : Recorded full done s)
    (hkeys : (done.map Done.asked).Pairwise fun x y => x.1.kind = y.1.kind →
      x.1.key full = y.1.key full → x.1.linkstring full = y.1.linkstring full ∧
        x.1.linkstring full ≠ [])
    (hartist : ∀ x ∈ done, ∀ a ab, x.choice.artistbrowse_create a = some ab → artist_of ab = a) :
    (∀ x ∈ done, ∃ d auxdata, x.result = some d ∧ s.heap.auxdata d = some auxdata ∧
      BelongsToObject full artist_of auxdata x.call) ↔
    ∀ before artist o after, done.map Done.asked = before ++ (.artist artist, o) :: after →
      NoneBefore full (before.map Prod.fst) (.artist artist) →
      o.artistbrowse_create artist ≠ none := by
  constructor
  · intro hown before artist o after hsplit hnone
    obtain ⟨before', rest, hdone, rfl, hrest⟩ := List.map_eq_append_iff.mp hsplit
    obtain ⟨x, after', rfl, hx, rfl⟩ := List.map_eq_cons_iff.mp hrest
    obtain ⟨hcall, rfl⟩ := Prod.mk.inj hx
    rw [List.map_map] at hnone
    obtain ⟨d, hresult, hauxdata⟩ := hr.created before' x after' hdone (hcall ▸ hnone)
    obtain ⟨d', auxdata, hresult', hauxdata', hbelongs⟩ := hown x (by simp [hdone])
    obtain rfl : d = d' := Option.some.inj (hresult.symm.trans hresult')
    obtain rfl := Option.some.inj (hauxdata.symm.trans hauxdata')
    intro hnull
    rw [hcall, BrowseCall.auxdata, hnull] at hbelongs
    exact hbelongs
  · intro hbrowsed x hx
    obtain ⟨before, y, after, hdone, hkind, hkey, hnone, hresult⟩ := hr.exists_first_result hx
    have hy : y ∈ done := by simp [hdone]
    obtain ⟨d, hd, hauxdata⟩ := hr.created before y after hdone hnone
    refine ⟨d, _, hresult.symm.trans hd, hauxdata,
      belongs_auxdata hkind (linkstring_eq_of_key hkeys hx hy hkind hkey) ?_⟩
    intro a hcall
    have hmap : done.map Done.asked =
        before.map Done.asked ++ (.artist a, y.choice) :: after.map Done.asked := by
      rw [hdone, List.map_append, List.map_cons, Done.asked, hcall]
    have hsome := hbrowsed _ a y.choice _ hmap (by rw [List.map_map, ← hcall]; exact hnone)
    obtain ⟨ab, hab⟩ := Option.ne_none_iff_exists'.mp hsome
    exact ⟨ab, hab, hartist y hy a ab hab⟩

end Keyed

/-- In any state of the mounted file system that has no browse directories yet: after any sequence
of calls, the directories are those of the link strings exactly if the sequence is `Separated`. -/
theorem browse_dirs_keyed_iff {full : LinkStrings} (htruncates : full.Truncates)
    (hplain : full.Plain)
    {l : List (World MountInstr Mount ℕ × Action ℕ MountCall Spotify)}
    {w : World MountInstr Mount ℕ}
    (hl : Trace (mount_system full.buffers) (World.idle Mount.init) l w)
    (hempty : ∀ (k : BrowseKind) key, w.shared.heap.lookup k.base key = none)
    (artist_of : sp_artistbrowse → sp_artist) (calls : List (BrowseCall × Spotify))
    (hartist : ∀ c ∈ calls, ∀ artist ab,
      c.2.artistbrowse_create artist = some ab → artist_of ab = artist) :
    ∃ done s', Prog.evalEach MountInstr.exec (BrowseCall.prog full) calls w.shared =
      some (done, s') ∧ done.map Done.asked = calls ∧
      (KeyedByLink full artist_of done s'.heap ↔ Separated full calls) := by
  have hw : w.shared.Wf := wf_of_trace hl
  obtain ⟨done, s', heval, rfl, hr⟩ := exists_recorded full hw hempty calls
  refine ⟨done, s', heval, rfl, ?_⟩
  have hartist' : ∀ x ∈ done, ∀ a ab, x.choice.artistbrowse_create a = some ab → artist_of ab = a :=
    fun x hx => hartist _ (List.mem_map_of_mem hx)
  constructor
  · rintro ⟨hsame, hown⟩
    have hkeys := (hr.same_iff hplain htruncates).mp hsame
    exact ⟨hkeys, (hr.own_iff hkeys hartist').mp hown⟩
  · rintro ⟨hkeys, hbrowsed⟩
    exact ⟨(hr.same_iff hplain htruncates).mpr hkeys, (hr.own_iff hkeys hartist').mpr hbrowsed⟩

/-- A buffer that is cut as `snprintf` cuts it. -/
def truncated (link : gstr) (buffer_size : ℕ) : gstr × ℕ :=
  (link.take (buffer_size - 1), link.length)

/-- Where artists and albums have these links, only the tracks have to be plain. -/
lemma LinkStrings.plain_of_tracks {full : LinkStrings}
    (htrack : ∀ t, '/' ∉ full.track t ∧ g_strstrip (full.track t) = full.track t)
    (hartist : ∀ a, full.artist a = "spotify:artist:a".toList)
    (halbum : ∀ b, full.album b = "spotify:album:a".toList) : full.Plain := by
  rintro (t | a | b)
  · exact htrack t
  · show '/' ∉ full.artist a ∧ g_strstrip (full.artist a) = full.artist a
    rw [hartist]
    decide
  · show '/' ∉ full.album b ∧ g_strstrip (full.album b) = full.album b
    rw [halbum]
    decide

/-- Two tracks, an artist and an album, with short links. -/
def short_links : LinkStrings where
  track t := if t = 0 then "spotify:track:a".toList else "spotify:track:b".toList
  artist _ := "spotify:artist:a".toList
  album _ := "spotify:album:a".toList
  sp_link_as_string := truncated

/-- The theorem at calls for them, some of them twice. -/
theorem browse_dirs_keyed_short : ∃ done s', Prog.evalEach MountInstr.exec
    (BrowseCall.prog short_links)
    [(.track 0, single), (.artist 0, single), (.track 1, single), (.track 0, single)] Mount.init =
      some (done, s') ∧ KeyedByLink short_links id done s'.heap := by
  have htrack : ∀ t, '/' ∉ short_links.track t ∧
      g_strstrip (short_links.track t) = short_links.track t := by
    intro t
    show '/' ∉ (if t = 0 then _ else _) ∧ g_strstrip (if t = 0 then _ else _) =
      if t = 0 then _ else _
    split <;> decide
  have hplain : short_links.Plain :=
    LinkStrings.plain_of_tracks htrack (fun _ => rfl) fun _ => rfl
  obtain ⟨done, s', heval, -, hiff⟩ := browse_dirs_keyed_iff (fun _ _ _ => rfl) hplain
    (w := World.idle Mount.init) .nil (fun k _ => by cases k <;> rfl) id
    [(.track 0, single), (.artist 0, single), (.track 1, single), (.track 0, single)]
    (by simp [single])
  refine ⟨done, s', heval, hiff.mpr ⟨by decide +kernel, ?_⟩⟩
  intro before artist o after hsplit _
  have ho : (BrowseCall.artist artist, o) ∈ [(BrowseCall.track 0, single), (.artist 0, single),
      (.track 1, single), (.track 0, single)] := by simp [hsplit]
  obtain rfl : o = single := by simpa using (List.mem_map_of_mem (f := Prod.snd) ho)
  exact Option.some_ne_none artist

/-- Local tracks, whose links hold titles and so may be long. -/
def local_links : LinkStrings where
  track t := "spotify:local:".toList ++ List.replicate 1100 'a' ++ [if t = 0 then 'a' else 'b']
  artist _ := "spotify:artist:a".toList
  album _ := "spotify:album:a".toList
  sp_link_as_string := truncated

set_option maxRecDepth 100000 in
/-- Two of them that differ behind the first 1023 bytes share a directory. -/
theorem not_browse_dirs_keyed :
    ¬ ∀ (full : LinkStrings) (l : List (World MountInstr Mount ℕ × Action ℕ MountCall Spotify))
      (w : World MountInstr Mount ℕ) (artist_of : sp_artistbrowse → sp_artist)
      (calls : List (BrowseCall × Spotify)) (done : List BrowseDone) (s' : Mount), full.Truncates →
      full.Plain →
      Trace (mount_system full.buffers) (World.idle Mount.init) l w →
      (∀ (k : BrowseKind) key, w.shared.heap.lookup k.base key = none) →
      (∀ c ∈ calls, ∀ artist ab,
        c.2.artistbrowse_create artist = some ab → artist_of ab = artist) →
      Prog.evalEach MountInstr.exec (BrowseCall.prog full) calls w.shared = some (done, s') →
      KeyedByLink full artist_of done s'.heap := by
  intro hall
  have hplain : local_links.Plain := by
    have hlocal : ∀ c ∈ ['a', 'b'],
        '/' ∉ "spotify:local:".toList ++ List.replicate 1100 'a' ++ [c] ∧
        g_strstrip ("spotify:local:".toList ++ List.replicate 1100 'a' ++ [c]) =
          "spotify:local:".toList ++ List.replicate 1100 'a' ++ [c] := by
      intro c hc
      have hplain : c ≠ '/' ∧ g_ascii_isspace c = false := by
        rcases List.mem_pair.mp hc with rfl | rfl <;> decide
      constructor
      · simp [hplain.1.symm]
      · have hs : g_ascii_isspace 's' = false := by decide
        exact g_strstrip_of_ends hs hplain.2 ("potify:local:".toList ++ List.replicate 1100 'a')
    refine LinkStrings.plain_of_tracks (fun t => ?_) (fun _ => rfl) fun _ => rfl
    apply hlocal
    split <;> simp
  have hempty : ∀ (k : BrowseKind) key, Mount.init.heap.lookup k.base key = none :=
    fun k _ => by cases k <;> rfl
  have hw : Mount.init.Wf := (Mount.init_inv False).wf
  obtain ⟨done, s', heval, hmap, hr⟩ := exists_recorded local_links hw hempty
    [(.track 0, single), (.track 1, single)]
  have hkeyed := hall local_links [] (World.idle Mount.init) id
    [(.track 0, single), (.track 1, single)] done s' (fun _ _ _ => rfl) hplain .nil hempty
    (by simp [single]) heval
  have hpairs := (hr.same_iff hplain fun _ _ _ => rfl).mp hkeyed.same
  rw [hmap, List.pairwise_pair] at hpairs
  have hbuffer : local_links.linkstring_buffer (local_links.track 0) =
      local_links.linkstring_buffer (local_links.track 1) := by decide +kernel
  have hlink := (hpairs rfl (congrArg spfs_sanitize_name hbuffer)).1
  have hlast := (List.append_inj' hlink rfl).2
  exact absurd hlast (by decide)

end Spotifile
