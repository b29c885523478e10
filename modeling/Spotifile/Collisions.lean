import Spotifile.Alone
import Spotifile.Lib.FirstCome
import Spotifile.Links

/-!
# Items whose names collide

Five `readdir` make an entry for each of their items, under the item's name, unless there is an
entry of that name. Names are no keys: an item whose name another one had before gets no entry.

A directory is filled first come, first served, by all the items that were listed in it since it was
created. `nothing_lost_iff` says when this is enough.
-/

namespace Spotifile

open Lib

/-! ## Items -/

/-- What gets an entry. -/
inductive Item
  | playlist (pl : sp_playlist)
  | track (track : sp_track)
  | artist (artist : sp_artist)
  | album (album : sp_album)
deriving DecidableEq

namespace Item

/-- The name that libspotify gives. -/
def name (o : Spotify) : Item → gstr
  | .playlist pl => o.playlist_name pl
  | .track t => o.track_name t
  | .artist a => o.artist_name a
  | .album b => o.album_name b

/-- The kind of its browse directory. A playlist has none. -/
def kind : Item → Option BrowseKind
  | .playlist _ => none
  | .track _ => some .track
  | .artist _ => some .artist
  | .album _ => some .album

variable (links : SpotifyLinks)

/-- Its link. -/
def link : Item → Option gstr
  | .playlist _ => none
  | .track t => links.track t
  | .artist a => links.artist a
  | .album b => links.album b

/-- The key of its entry, and the item. -/
def claim (o : Spotify) (item : Item) : gstr × Item := (spfs_sanitize_name (item.name o), item)

end Item

/-! ## Directories -/

/-- The directories with an entry for each item. -/
inductive ItemDir
  | playlists_meta
  | playlists_music
  | playlist (pl : sp_playlist)
  | artists (track : sp_track)
  | albums (ab : Option sp_artistbrowse)

namespace ItemDir

/-- The `readdir`. -/
def readdir : ItemDir → SpfsReaddirFunc
  | .playlists_meta => .playlists_meta_dir_readdir
  | .playlists_music => .playlists_music_dir_readdir
  | .playlist _ => .playlist_dir_meta_readdir
  | .artists _ => .artists_readdir
  | .albums _ => .albums_readdir

/-- The kind of its items. -/
def kind : ItemDir → Option BrowseKind
  | .playlists_meta | .playlists_music => none
  | .playlist _ => some .track
  | .artists _ => some .artist
  | .albums _ => some .album

/-- The items, as libspotify answers. -/
def items (o : Spotify) : ItemDir → List Item
  | .playlists_meta | .playlists_music => (o.playlists.getD []).map .playlist
  | .playlist pl => ((o.playlist_tracks pl).getD []).map .track
  | .artists track =>
    (List.range (o.track_num_artists track)).map fun i => .artist (o.track_artist track i)
  | .albums ab => ((o.artistbrowse_albums ab).getD []).map .album

/-- libspotify has the list that the `readdir` does not check for NULL. -/
def Loaded (o : Spotify) : ItemDir → Prop
  | .playlists_meta | .playlists_music => o.playlists ≠ none
  | .playlist pl => o.playlist_tracks pl ≠ none
  | .artists _ | .albums _ => True

/-- The entity `e` is this directory. -/
def At (links : SpotifyLinks) (h : Heap) (e : Ptr) : ItemDir → Prop
  | .playlists_meta => e = 8
  | .playlists_music => e = 9
  | .playlist pl => h.readdir e = some .playlist_dir_meta_readdir ∧ (∃ cs, h.walk 0 cs = some e) ∧
      h.auxdata e = some (.playlist pl)
  | .artists track => ∃ l p, links.track track = some l ∧
      h.lookup BrowseKind.track.base (spfs_sanitize_name l) = some p ∧
      h.auxdata p = some (.track track) ∧ h.lookup p "artists".toList = some e ∧
      h.readdir e = some .artists_readdir
  | .albums ab => ∃ artist l p, links.artist artist = some l ∧
      h.lookup BrowseKind.artist.base (spfs_sanitize_name l) = some p ∧
      h.auxdata p = some (.artistbrowse ab) ∧ h.lookup p "albums".toList = some e ∧
      h.readdir e = some .albums_readdir

/-- The items with their keys. -/
def claims (D : ItemDir) (o : Spotify) : List (gstr × Item) := (D.items o).map (Item.claim o)

/-- All items of a directory are of its kind. -/
lemma kind_of_mem {D : ItemDir} {o : Spotify} {item : Item} (h : item ∈ D.items o) :
    item.kind = D.kind := by
  cases D <;> obtain ⟨_, -, rfl⟩ := List.mem_map.mp h <;> rfl

end ItemDir

/-! ## Entries -/

section Property

variable (links : SpotifyLinks) (h : Heap) (e : Ptr)

/-- The entry `p` of the directory `e` is a link that resolves to the browse directory under the
link string. -/
def LeadsToBrowseDir (p : Ptr) (k : BrowseKind) (link : Option gstr) : Prop :=
  ∃ l target d, link = some l ∧ h.target p = some target ∧ h.follow_link e target = some d ∧
    h.lookup k.base (spfs_sanitize_name l) = some d

/-- The entry `p` of the directory `e` leads to the item: it is a directory that is bound to the
playlist, or a link to the browse directory of the item. -/
def LeadsToItem (p : Ptr) : Item → Prop
  | .playlist pl => h.auxdata p = some (.playlist pl) ∧
      (h.readdir p = some .playlist_dir_meta_readdir ∨
        h.readdir p = some .playlist_dir_music_readdir)
  | .track track => LeadsToBrowseDir h e p .track (links.track track)
  | .artist artist => LeadsToBrowseDir h e p .artist (links.artist artist)
  | .album album => LeadsToBrowseDir h e p .album (links.album album)

/-- Every item that libspotify gives now has an entry. -/
def NothingLost (D : ItemDir) (o : Spotify) : Prop :=
  ∀ item ∈ D.items o, ∃ key p, h.lookup e key = some p ∧ LeadsToItem links h e p item

/-- Both have a link, and it is the same. -/
def SameLink (link link' : Option gstr) : Prop :=
  ∃ l l', link = some l ∧ link' = some l' ∧ spfs_sanitize_name l = spfs_sanitize_name l'

/-- An entry that leads to the one leads to the other. Tracks, artists and albums are told apart by
their links, once these are sanitised. -/
def SameItem : Item → Item → Prop
  | .playlist pl, .playlist pl' => pl = pl'
  | .track track, .track track' => SameLink (links.track track) (links.track track')
  | .artist artist, .artist artist' => SameLink (links.artist artist) (links.artist artist')
  | .album album, .album album' => SameLink (links.album album) (links.album album')
  | _, _ => False

/-- Every item that libspotify gives now was, under some name, the first to be listed. -/
def FirstSomewhere (D : ItemDir) (history : List Spotify) (o : Spotify) : Prop :=
  ∀ item ∈ D.items o, ∃ key first, ((history ++ [o]).flatMap D.claims).lookup key = some first ∧
    SameItem links item first

end Property

/-! ## What an entry was made for -/

section Made

variable (links : SpotifyLinks)

/-- What the entry `p` with this name was made for. Without a link of the item it is a link with its
own name as the target. -/
def Made (h : Heap) (e : Ptr) (name : gstr) (p : Ptr) (item : Item) : Prop :=
  LeadsToItem links h e p item ∨
    (item.kind ≠ none ∧ item.link links = none ∧ h.target p = some name)

variable {links} {s s' : Mount} {h h' : Heap} {e p : Ptr} {item first : Item} {k : BrowseKind}

/-- Tracks, artists and albums have a browse directory. -/
lemma leadsToItem_iff (hk : item.kind = some k) :
    LeadsToItem links h e p item ↔ LeadsToBrowseDir h e p k (item.link links) := by
  cases item <;> cases hk <;> exact Iff.rfl

/-- Tracks, artists and albums are told apart by their links. -/
lemma sameItem_iff (hk : item.kind = some k) (hk' : first.kind = some k) :
    SameItem links item first ↔ SameLink (item.link links) (first.link links) := by
  cases item <;> cases hk <;> cases first <;> cases hk' <;> exact Iff.rfl

/-- A link goes on to lead to its browse directory. -/
lemma LeadsToBrowseDir.mono (hk : s.Keeps s') (hp : p < s.heap.fresh) {link : Option gstr}
    (hl : LeadsToBrowseDir s.heap e p k link) : LeadsToBrowseDir s'.heap e p k link := by
  obtain ⟨l, target, d, hlink, htarget, hfollow, hd⟩ := hl
  exact ⟨l, target, d, hlink, (hk.target p hp).trans htarget, hk.heap.follow_link hfollow,
    hk.heap.lookup _ _ _ hd⟩

/-- An entry goes on to lead to its item. -/
lemma LeadsToItem.mono (hk : s.Keeps s') (hp : p < s.heap.fresh)
    (hl : LeadsToItem links s.heap e p item) : LeadsToItem links s'.heap e p item := by
  cases item with
  | playlist pl =>
    obtain ⟨hauxdata, hmeta | hmusic⟩ := hl
    · exact ⟨(hk.heap.auxdata_of_readdir hmeta (by decide)).trans hauxdata,
        Or.inl (hk.heap.readdir hmeta)⟩
    · exact ⟨(hk.heap.auxdata_of_readdir hmusic (by decide)).trans hauxdata,
        Or.inr (hk.heap.readdir hmusic)⟩
  | track t => exact LeadsToBrowseDir.mono hk hp hl
  | artist a => exact LeadsToBrowseDir.mono hk hp hl
  | album b => exact LeadsToBrowseDir.mono hk hp hl

/-- An entry stays made for its item. -/
lemma Made.mono (hk : s.Keeps s') (hp : p < s.heap.fresh) {name : gstr}
    (hm : Made links s.heap e name p item) : Made links s'.heap e name p item := by
  rcases hm with hleads | ⟨hkind, hlink, htarget⟩
  · exact Or.inl (hleads.mono hk hp)
  · exact Or.inr ⟨hkind, hlink, (hk.target p hp).trans htarget⟩

end Made

/-! ## Where the directories are -/

/-- What `spfs_link_as_string` gives. -/
structure SpotifyLinks.AreLinks (links : SpotifyLinks) : Prop where
  track : ∀ t l, links.track t = some l → IsLink l
  artist : ∀ a l, links.artist a = some l → IsLink l
  album : ∀ b l, links.album b = some l → IsLink l

/-- The link of an item is a link. -/
lemma SpotifyLinks.AreLinks.item {links : SpotifyLinks} (hlinks : links.AreLinks) {item : Item}
    {l : gstr} (hl : item.link links = some l) : IsLink l := by
  cases item with
  | playlist pl => cases hl
  | track t => exact hlinks.track t l hl
  | artist a => exact hlinks.artist a l hl
  | album b => exact hlinks.album b l hl

namespace ItemDir

variable {links : SpotifyLinks} {s s' : Mount} {e : Ptr} {D : ItemDir} {k : BrowseKind}

/-- The directory stays where it is. -/
lemma At.mono (hat : D.At links s.heap e) (hw : s.Wf) (hk : s.Keeps s') :
    D.At links s'.heap e := by
  cases D with
  | playlists_meta => exact hat
  | playlists_music => exact hat
  | playlist pl =>
    obtain ⟨hreaddir, ⟨cs, hcs⟩, hauxdata⟩ := hat
    exact ⟨hk.heap.readdir hreaddir, ⟨cs, hk.heap.walk hcs⟩,
      (hk.heap.auxdata_of_readdir hreaddir (by decide)).trans hauxdata⟩
  | artists t =>
    obtain ⟨l, p, hl, hp, hauxdata, he, hreaddir⟩ := hat
    exact ⟨l, p, hl, hk.heap.lookup _ _ _ hp,
      (hk.heap.auxdata_of_browses (hw.browses_of_lookup hp)).trans hauxdata,
      hk.heap.lookup _ _ _ he, hk.heap.readdir hreaddir⟩
  | albums ab =>
    obtain ⟨a, l, p, hl, hp, hauxdata, he, hreaddir⟩ := hat
    exact ⟨a, l, p, hl, hk.heap.lookup _ _ _ hp,
      (hk.heap.auxdata_of_browses (hw.browses_of_lookup hp)).trans hauxdata,
      hk.heap.lookup _ _ _ he, hk.heap.readdir hreaddir⟩

/-- A browse directory has its place. -/
lemma walk_of_base (hw : s.Wf) {key : gstr} {d : Ptr} (hd : s.heap.lookup k.base key = some d) :
    s.heap.walk 0 (k.place ++ [key]) = some d := by
  have hbase : s.heap.walk 0 k.place = some k.base := hw.init.walk (by cases k <;> decide)
  rw [Heap.walk_concat, hbase, Option.bind_some, hd]

/-- What is in a browse directory has its place in the tree. -/
lemma walk_of_lookup (hw : s.Wf) {key name : gstr} {p : Ptr}
    (hp : s.heap.lookup k.base key = some p) (he : s.heap.lookup p name = some e) :
    s.heap.walk 0 (k.place ++ [key] ++ [name]) = some e := by
  rw [Heap.walk_concat, walk_of_base hw hp, Option.bind_some, he]

/-- The directory can be listed. -/
lemma At.holds (hat : D.At links s.heap e) (hw : s.Wf) : s.Holds e D.readdir := by
  cases D with
  | playlists_meta =>
    obtain rfl : e = 8 := hat
    exact ⟨hw.init.readdir (by decide), fun _ => ⟨_, hw.init.walk
      (by decide : spfs_init_heap.walk 0 ["playlists".toList, "meta".toList] = some 8)⟩⟩
  | playlists_music =>
    obtain rfl : e = 9 := hat
    exact ⟨hw.init.readdir (by decide), fun _ => ⟨_, hw.init.walk
      (by decide : spfs_init_heap.walk 0 ["playlists".toList, "music".toList] = some 9)⟩⟩
  | playlist pl => exact ⟨hat.1, fun _ => hat.2.1⟩
  | artists t =>
    obtain ⟨l, p, -, hp, -, he, hreaddir⟩ := hat
    exact ⟨hreaddir, fun _ => ⟨_, walk_of_lookup hw hp he⟩⟩
  | albums ab =>
    obtain ⟨a, l, p, -, hp, -, he, hreaddir⟩ := hat
    exact ⟨hreaddir, fun _ => ⟨_, walk_of_lookup hw hp he⟩⟩

/-- A directory in a browse directory and a browse directory of another kind are apart. -/
lemma apart_within (hw : s.Wf) {k k' : BrowseKind} (hne : k.place ≠ k'.place) {name : gstr}
    {l₀ l : gstr} (hl₀ : IsLink l₀) {p d : Ptr}
    (hp : s.heap.lookup k.base (spfs_sanitize_name l₀) = some p)
    (he : s.heap.lookup p name = some e) (hl : IsLink l)
    (hd : s.heap.lookup k'.base (spfs_sanitize_name l) = some d) : s.heap.Apart e d := by
  have hplace : ∀ k : BrowseKind, ∃ x, k.place = ["browse".toList, x] ∧ x.length ≤ 7 ∧
      x ≠ ".".toList ∧ x ≠ "..".toList := by
    intro k
    cases k <;> exact ⟨_, rfl, by decide, by decide, by decide⟩
  obtain ⟨x, hx, hxlen, -⟩ := hplace k
  obtain ⟨y, hy, hylen, hydots⟩ := hplace k'
  have hsrc := walk_of_lookup hw hp he
  have hdst := walk_of_base hw hd
  have hlen₀ := hl₀.length_le
  have hlen := hl.length_le
  rw [hx] at hsrc hne
  rw [hy] at hdst hne
  refine ⟨["browse".toList], [spfs_sanitize_name l₀], [spfs_sanitize_name l], x, y, name, hsrc,
    hdst, fun hxy => hne (by rw [hxy]), ?_, ?_, ?_⟩
  · simp [PATH_MAX]
    omega
  · simp [PATH_MAX]
    omega
  · intro c hc
    rcases List.mem_pair.mp hc with rfl | rfl
    · exact hydots
    · exact hl.ne_dots

/-- The directory and the browse directories of its items are apart. -/
lemma At.apart (hat : D.At links s.heap e) (hw : s.Wf) (hlinks : links.AreLinks)
    (hD : D.kind = some k) {l : gstr} (hl : IsLink l) {d : Ptr}
    (hd : s.heap.lookup k.base (spfs_sanitize_name l) = some d) : s.heap.Apart e d := by
  cases D with
  | playlists_meta => cases hD
  | playlists_music => cases hD
  | playlist pl =>
    obtain rfl := Option.some.inj hD
    obtain ⟨-, c, hc⟩ := hw.place_of_home hat.1 (b := 8) rfl (by decide) hat.2.1
    refine ⟨[], ["meta".toList], ["tracks".toList, spfs_sanitize_name l], "playlists".toList,
      "browse".toList, c, hc, walk_of_base hw hd, by decide, by decide, ?_, ?_⟩
    · have hlen := hl.length_le
      simp [PATH_MAX]
      omega
    · intro x hx
      simp only [List.mem_cons, List.not_mem_nil, or_false] at hx
      rcases hx with rfl | rfl | rfl
      · decide
      · decide
      · exact hl.ne_dots
  | artists t =>
    obtain rfl := Option.some.inj hD
    obtain ⟨l₀, p, hl₀, hp, -, he, -⟩ := hat
    exact apart_within hw (by decide) (hlinks.track t l₀ hl₀) hp he hl hd
  | albums ab =>
    obtain rfl := Option.some.inj hD
    obtain ⟨a, l₀, p, hl₀, hp, -, he, -⟩ := hat
    exact apart_within hw (by decide) (hlinks.artist a l₀ hl₀) hp he hl hd

/-- Neither the directory nor its parent is a browse directory of the kind of its items. -/
lemma At.not_browses (hat : D.At links s.heap e) (hw : s.Wf) (hD : D.kind = some k) {q : Ptr}
    (hq : q = e ∨ s.heap.parent e = some q) : s.heap.browses q ≠ some k := by
  have hno : ∀ {q f}, s.heap.readdir q = some f → s.heap.browses q ≠ some k := by
    intro q f hreaddir hbrowses
    obtain ⟨ent, hent, hreaddir⟩ := Option.bind_eq_some_iff.mp hreaddir
    rw [Heap.readdir_of_browses hbrowses hent] at hreaddir
    cases hreaddir
  have hwithin : ∀ {k' : BrowseKind} {key name p}, k' ≠ k → s.heap.lookup k'.base key = some p →
      s.heap.lookup p name = some e → s.heap.parent e = some q → s.heap.browses q ≠ some k := by
    intro k' key name p hne hp he hparent
    obtain ⟨-, -, hup⟩ := hw.tree.entry _ _ _ he
    obtain rfl := Option.some.inj (hup.symm.trans hparent)
    rw [hw.browses_of_lookup hp]
    exact fun heq => hne (Option.some.inj heq)
  rcases hq with rfl | hparent
  · exact hno (hat.holds hw).readdir
  · cases D with
    | playlists_meta => cases hD
    | playlists_music => cases hD
    | playlist pl =>
      obtain ⟨hhome, -⟩ := hw.place_of_home hat.1 (b := 8) rfl (by decide) hat.2.1
      obtain rfl := Option.some.inj (hhome.symm.trans hparent)
      exact hno (hw.init.readdir
        (by decide : spfs_init_heap.readdir 8 = some .playlists_meta_dir_readdir))
    | artists t =>
      obtain rfl := Option.some.inj hD
      obtain ⟨l₀, p, -, hp, -, he, -⟩ := hat
      exact hwithin (by decide) hp he hparent
    | albums ab =>
      obtain rfl := Option.some.inj hD
      obtain ⟨a, l₀, p, -, hp, -, he, -⟩ := hat
      exact hwithin (by decide) hp he hparent

end ItemDir

/-! ## Filling a directory -/

variable {links : SpotifyLinks} {s s' : Mount} {e : Ptr} {D : ItemDir} {o : Spotify}

variable (links D e) in
/-- The directory after the claims. -/
structure Listed (claims : List (gstr × Item)) (s : Mount) : Prop where
  wf : s.Wf
  here : D.At links s.heap e
  kinds : ∀ c ∈ claims, c.2.kind = D.kind
  filled : FirstCome (s.heap.lookup e) (fun _ => False) (Made links s.heap e) claims

namespace Listed

variable {claims : List (gstr × Item)} {item : Item} {name : gstr} {k : BrowseKind}

/-- The directory is there. -/
lemma lt_fresh (hl : Listed links e D claims s) : e < s.heap.fresh := by
  obtain ⟨ent, hent, -⟩ := Option.bind_eq_some_iff.mp (hl.here.holds hl.wf).readdir
  exact Heap.lt_fresh_of_get hent

/-- What does not touch the table. -/
lemma mono (hl : Listed links e D claims s) (hw : s'.Wf) (hk : s.Keeps s')
    (hfree : ∀ name, s.heap.lookup e name = none → s'.heap.lookup e name = none) :
    Listed links e D claims s' where
  wf := hw
  here := hl.here.mono hl.wf hk
  kinds := hl.kinds
  filled := hl.filled.mono (fun name p hp => hk.heap.lookup e name p hp)
    (fun name _ => hfree name) fun _ _ _ hp => Made.mono hk (lt_fresh_of_lookup hl.wf hp)

/-- A new claim is of the kind of the directory, like the others. -/
lemma kinds_concat (hl : Listed links e D claims s) (hitem : item.kind = D.kind) :
    ∀ c ∈ claims ++ [(name, item)], c.2.kind = D.kind := by
  intro c hc
  rcases List.mem_append.mp hc with hc | hc
  · exact hl.kinds c hc
  · obtain rfl := List.mem_singleton.mp hc
    exact hitem

/-- The name is taken. -/
lemma taken (hl : Listed links e D claims s) (hitem : item.kind = D.kind)
    (hthere : s.heap.lookup e name ≠ none) : Listed links e D (claims ++ [(name, item)]) s :=
  ⟨hl.wf, hl.here, hl.kinds_concat hitem, hl.filled.taken not_false hthere⟩

/-- A new entry. -/
lemma insert (hl : Listed links e D claims s) (hitem : item.kind = D.kind) (hw : s'.Wf)
    (hk : s.Keeps s') (hfree : s.heap.lookup e name = none)
    (hlookup : ∀ key, s'.heap.lookup e key =
      if key = name then some s.heap.fresh else s.heap.lookup e key)
    (hmade : Made links s'.heap e name s.heap.fresh item) :
    Listed links e D (claims ++ [(name, item)]) s' :=
  ⟨hw, hl.here.mono hl.wf hk, hl.kinds_concat hitem, hl.filled.insert hfree hlookup
    (fun _ _ _ hp => Made.mono hk (lt_fresh_of_lookup hl.wf hp)) hmade⟩

end Listed

/-- What a `create_.._browse_dir` has done for an item with this link. -/
def Created (s s' : Mount) (k : BrowseKind) (link : Option gstr) (r : Option Ptr) : Prop :=
  (link = none ∧ r = none ∧ s' = s) ∨
    ∃ l auxdata d, link = some l ∧ r = some d ∧ Opened s s' k l auxdata d

section Create

variable (links)

/-- Without a link nothing is created. -/
lemma created {p : MountProg (Option Ptr)} {k : BrowseKind} {link : Option gstr}
    (hnone : link = none → p.eval MountInstr.exec o s = some (none, s))
    (hsome : ∀ l, link = some l → ∃ auxdata d s',
      p.eval MountInstr.exec o s = some (some d, s') ∧ Opened s s' k l auxdata d) :
    ∃ r s', p.eval MountInstr.exec o s = some (r, s') ∧ Created s s' k link r := by
  rcases hlink : link with _ | l
  · exact ⟨none, s, hnone hlink, Or.inl ⟨rfl, rfl, rfl⟩⟩
  · obtain ⟨auxdata, d, s', heval, hd⟩ := hsome l hlink
    exact ⟨some d, s', heval, Or.inr ⟨l, auxdata, d, rfl, rfl, hd⟩⟩

/-- The browse directory of a track, or nothing if it has no link. -/
lemma created_track (hw : s.Wf) (track : sp_track) :
    ∃ r s', (create_track_browse_dir links track).eval MountInstr.exec o s = some (r, s') ∧
      Created s s' .track (links.track track) r := by
  apply created
  · intro hnone
    unfold create_track_browse_dir
    rw [hnone]
    exact eval_create_browse_dir_none (k := .track) hw (by decide)
  · intro l hlink
    exact ⟨_, eval_create_track_browse_dir hw hlink⟩

/-- The browse directory of an artist, or nothing if it has no link. -/
lemma created_artist (hw : s.Wf) (artist : sp_artist) :
    ∃ r s', (create_artist_browse_dir links artist).eval MountInstr.exec o s = some (r, s') ∧
      Created s s' .artist (links.artist artist) r := by
  apply created
  · intro hnone
    unfold create_artist_browse_dir
    rw [hnone]
    exact eval_create_browse_dir_none (k := .artist) hw (by decide)
  · intro l hlink
    exact ⟨_, eval_create_artist_browse_dir hw hlink⟩

/-- The browse directory of an album, or nothing if it has no link. -/
lemma created_album (hw : s.Wf) (album : sp_album) :
    ∃ r s', (create_album_browse_dir links album).eval MountInstr.exec o s = some (r, s') ∧
      Created s s' .album (links.album album) r := by
  apply created
  · intro hnone
    unfold create_album_browse_dir
    rw [hnone]
    exact eval_create_browse_dir_none (k := .album) hw (by decide)
  · intro l hlink
    exact ⟨_, eval_create_album_browse_dir hw hlink⟩

end Create

namespace Listed

variable {claims : List (gstr × Item)} {item : Item} {name : gstr} {k : BrowseKind}

/-- The links of the directory lead to browse directories of the kind of its items. -/
lemma links_eq (hD : D.kind = some k) : D.readdir.links = some k := by
  cases D <;> cases hD <;> rfl

/-- A link for an item, whose browse directory has been created. -/
lemma link_item (hlinks : links.AreLinks) {s₁ : Mount} (hl : Listed links e D claims s)
    (hD : D.kind = some k) (hitem : item.kind = some k)
    (hname : ∃ c ∈ name, g_ascii_isspace c = false) {r : Option Ptr}
    (hcreated : Created s s₁ k (item.link links) r) :
    ∃ s', Prog.eval MountInstr.exec o (do
        let has ← .of (.has_child e name)
        if has then .ret () else create_link e name (r.map .browse) r) s₁ = some ((), s') ∧
      Listed links e D (claims ++ [(spfs_sanitize_name name, item)]) s' := by
  have hkind : item.kind = D.kind := hitem.trans hD.symm
  have hnil := sanitize_name_ne_nil hname
  have hl₁ : Listed links e D claims s₁ := by
    rcases hcreated with ⟨-, -, rfl⟩ | ⟨l, auxdata, d, -, -, hd⟩
    · exact hl
    · refine hl.mono hd.wf hd.keeps fun name hfree => ?_
      rw [hd.lookup_of_ne hl.lt_fresh (hl.wf.ne_base (hl.here.holds hl.wf).readdir k), hfree]
  rw [Prog.of_bind, eval_has_child (hl₁.here.holds hl₁.wf).readdir]
  rcases hfree : s₁.heap.lookup e (spfs_sanitize_name name) with _ | p
  · rw [Option.isSome_none, if_neg Bool.false_ne_true]
    obtain ⟨s', heval, hlinked⟩ := eval_create_link (o := o) hl₁.wf (hl₁.here.holds hl₁.wf)
      (links_eq hD) hnil hfree (r.map .browse) r
    refine ⟨s', heval, hl₁.insert hkind hlinked.wf hlinked.keeps hfree (fun key => ?_) ?_⟩
    · rw [hlinked.lookup e hl₁.lt_fresh]
      exact if_congr (and_iff_right rfl) rfl rfl
    · rcases hcreated with ⟨hnone, rfl, -⟩ | ⟨l, auxdata, d, hlink, rfl, hd⟩
      · exact Or.inr ⟨by simp [hitem], hnone, hlinked.null rfl⟩
      · have hIs := hlinks.item hlink
        have hhere := hd.here hl.wf hIs.ne_nil
        obtain ⟨target, htarget, hfollow⟩ :=
          hlinked.leads d rfl (hl₁.here.apart hl₁.wf hlinks hD hIs hhere)
        refine Or.inl ((leadsToItem_iff hitem).mpr ⟨l, target, d, hlink, htarget, hfollow, ?_⟩)
        exact hlinked.keeps.heap.lookup _ _ _ hhere
  · rw [Option.isSome_some, if_pos rfl]
    exact ⟨s₁, rfl, hl₁.taken hkind (by rw [hfree]; exact Option.some_ne_none p)⟩

/-- A directory for a playlist. -/
lemma playlist_item (hl : Listed links e D claims s) (hD : D.kind = none)
    {f : SpfsReaddirFunc} (hf : f = .playlist_dir_meta_readdir ∨ f = .playlist_dir_music_readdir)
    (hhome : f.home = some e) (pl : sp_playlist) (hname : ∃ c ∈ name, g_ascii_isspace c = false) :
    ∃ s', Prog.eval MountInstr.exec o (do
        let has ← .of (.has_child e name)
        if has then .ret ()
        else do
          let _ ← .of (.add_new e { spfs_entity_dir_create (some name) ⟨some f, none⟩ with
            auxdata := some (.playlist pl) } [])) s = some ((), s') ∧
      Listed links e D (claims ++ [(spfs_sanitize_name name, .playlist pl)]) s' := by
  have hnil := sanitize_name_ne_nil hname
  have hholds := hl.here.holds hl.wf
  rw [Prog.of_bind, eval_has_child hholds.readdir]
  rcases hfree : s.heap.lookup e (spfs_sanitize_name name) with _ | p
  · rw [Option.isSome_none, if_neg Bool.false_ne_true]
    have hn : NewEntity s.heap e { spfs_entity_dir_create (some name) ⟨some f, none⟩ with
        auxdata := some (.playlist pl) } [] := by
      refine newEntity_plain hl.wf hholds.readdir ((spfs_entity_dir_create_new _ _).with_auxdata _)
        ?_ rfl ?_ ?_ ?_
      · rcases hf with rfl | rfl <;> rfl
      · rintro g q hg hq
        obtain rfl : f = g := Option.some.inj hg
        exact Option.some.inj (hhome.symm.trans hq)
      · rintro g hg
        obtain rfl : f = g := Option.some.inj hg
        rcases hf with rfl | rfl <;> rfl
      · intro hmusic
        cases D <;> cases hD <;> cases hmusic
    obtain ⟨s', hexec, hw', hk, ⟨e', he', halike⟩, hlookup⟩ := exec_add_new (o := o) hl.wf hn
    refine ⟨s', Prog.eval_call hexec _, hl.insert hD.symm hw' hk hfree (fun key => ?_) ?_⟩
    · rw [hlookup e hn.lt]
      refine if_congr ⟨fun hand => (Option.some.inj hand.2.1).symm, ?_⟩ rfl rfl
      rintro rfl
      exact ⟨rfl, rfl, hnil, children_of_readdir hholds.readdir, hfree⟩
    · left
      constructor
      · rw [Heap.auxdata, he', Option.bind_some, halike.auxdata]
        rcases hf with rfl | rfl <;> rintro ⟨⟩
      · rw [Heap.readdir, he', Option.bind_some, halike.readdir]
        exact hf.imp (congrArg some) (congrArg some)
  · rw [Option.isSome_some, if_pos rfl]
    exact ⟨s, rfl, hl.taken hD.symm (by rw [hfree]; exact Option.some_ne_none p)⟩

/-- The two directories of the playlists. -/
lemma playlists (hl : Listed links e D claims s) {f : SpfsReaddirFunc}
    (hf : f = .playlist_dir_meta_readdir ∨ f = .playlist_dir_music_readdir)
    (hhome : f.home = some e) (hD : D = .playlists_meta ∨ D = .playlists_music)
    (hloaded : o.playlists ≠ none)
    (hnames : ∀ item ∈ D.items o, ∃ c ∈ item.name o, g_ascii_isspace c = false) :
    ∃ s', (playlists_dir_readdir f e).eval MountInstr.exec o s = some ((), s') ∧
      Listed links e D (claims ++ D.claims o) s' := by
  obtain ⟨pls, hpls⟩ := Option.ne_none_iff_exists'.mp hloaded
  have hitems : D.items o = pls.map .playlist := by
    rcases hD with rfl | rfl <;> rw [ItemDir.items, hpls, Option.getD_some]
  have hkind : D.kind = none := by rcases hD with rfl | rfl <;> rfl
  have hexec : MountInstr.exec .playlists o s = some (some (some pls), s) := by
    rw [MountInstr.exec, hpls]
  unfold playlists_dir_readdir
  rw [Prog.of_bind, Prog.eval_call hexec, deref_some, ItemDir.claims, hitems, List.map_map]
  apply @Prog.exists_eval_forEach_map MountInstr _ _ _ MountInstr.exec o _ _ (Listed links e D)
    (Item.claim o ∘ Item.playlist)
  · exact hl
  · intro pl hpl claims s hl
    rw [Prog.of_bind, Prog.eval_call (v := o.playlist_name pl) rfl]
    refine hl.playlist_item hkind hf hhome pl (hnames (.playlist pl) ?_)
    rw [hitems]
    exact List.mem_map_of_mem hpl

/-- The directory of a playlist. -/
lemma playlist {pl : sp_playlist} (hl : Listed links e (.playlist pl) claims s)
    (hlinks : links.AreLinks) (hloaded : o.playlist_tracks pl ≠ none)
    (hnames : ∀ item ∈ (ItemDir.playlist pl).items o,
      ∃ c ∈ item.name o, g_ascii_isspace c = false) :
    ∃ s', (playlist_dir_meta_readdir links e).eval MountInstr.exec o s = some ((), s') ∧
      Listed links e (.playlist pl) (claims ++ (ItemDir.playlist pl).claims o) s' := by
  obtain ⟨tracks, htracks⟩ := Option.ne_none_iff_exists'.mp hloaded
  have hitems : (ItemDir.playlist pl).items o = tracks.map .track := by
    rw [ItemDir.items, htracks, Option.getD_some]
  obtain ⟨ent, hent, hauxdata⟩ := Option.bind_eq_some_iff.mp hl.here.2.2
  have hexec : MountInstr.exec (.playlist_tracks pl) o s = some (some (some tracks), s) := by
    rw [MountInstr.exec, htracks]
  unfold playlist_dir_meta_readdir
  rw [Prog.of_bind, Prog.eval_call (exec_entity o hent), hauxdata, Option.bind_some,
    auxdata_playlist, deref_some, Prog.of_bind, Prog.eval_call hexec, deref_some, ItemDir.claims,
    hitems, List.map_map]
  apply @Prog.exists_eval_forEach_map MountInstr _ _ _ MountInstr.exec o _ _
    (Listed links e (.playlist pl)) (Item.claim o ∘ Item.track)
  · exact hl
  · intro track htrack claims s hl
    obtain ⟨r, s₁, hcreate, hcreated⟩ := created_track (o := o) links hl.wf track
    rw [Prog.of_bind, Prog.eval_call (v := o.track_name track) rfl, Prog.eval_bind_of_eq hcreate]
    refine hl.link_item hlinks rfl rfl (hnames (.track track) ?_) hcreated
    rw [hitems]
    exact List.mem_map_of_mem htrack

/-- The artists of a track. -/
lemma artists {track : sp_track} (hl : Listed links e (.artists track) claims s)
    (hlinks : links.AreLinks)
    (hnames : ∀ item ∈ (ItemDir.artists track).items o,
      ∃ c ∈ item.name o, g_ascii_isspace c = false) :
    ∃ s', (artists_readdir links e).eval MountInstr.exec o s = some ((), s') ∧
      Listed links e (.artists track) (claims ++ (ItemDir.artists track).claims o) s' := by
  obtain ⟨l, p, -, -, hauxdata, he, -⟩ := hl.here
  obtain ⟨-, -, hparent⟩ := hl.wf.tree.entry _ _ _ he
  obtain ⟨up, hup, hauxdata⟩ := Option.bind_eq_some_iff.mp hauxdata
  unfold artists_readdir
  rw [Prog.eval_bind_of_eq (eval_parent_auxdata hparent hup), hauxdata, Option.bind_some,
    auxdata_track, deref_some, Prog.of_bind, Prog.eval_call (v := o.track_num_artists track) rfl,
    ItemDir.claims, ItemDir.items, List.map_map]
  apply @Prog.exists_eval_forEach_map MountInstr _ _ _ MountInstr.exec o _ _
    (Listed links e (.artists track)) (Item.claim o ∘ fun i => .artist (o.track_artist track i))
  · exact hl
  · intro i hi claims s hl
    obtain ⟨r, s₁, hcreate, hcreated⟩ :=
      created_artist (o := o) links hl.wf (o.track_artist track i)
    rw [Prog.of_bind, Prog.eval_call (v := o.track_artist track i) rfl, Prog.of_bind,
      Prog.eval_call (v := o.artist_name (o.track_artist track i)) rfl,
      Prog.eval_bind_of_eq hcreate]
    refine hl.link_item hlinks rfl rfl (hnames (.artist (o.track_artist track i)) ?_) hcreated
    exact List.mem_map.mpr ⟨i, hi, rfl⟩

/-- The albums of an artist. -/
lemma albums {ab : Option sp_artistbrowse} (hl : Listed links e (.albums ab) claims s)
    (hlinks : links.AreLinks)
    (hnames : ∀ item ∈ (ItemDir.albums ab).items o, ∃ c ∈ item.name o, g_ascii_isspace c = false) :
    ∃ s', (albums_readdir links e).eval MountInstr.exec o s = some ((), s') ∧
      Listed links e (.albums ab) (claims ++ (ItemDir.albums ab).claims o) s' := by
  obtain ⟨_, l, p, -, -, hauxdata, he, -⟩ := hl.here
  obtain ⟨-, -, hparent⟩ := hl.wf.tree.entry _ _ _ he
  obtain ⟨up, hup, hauxdata⟩ := Option.bind_eq_some_iff.mp hauxdata
  unfold albums_readdir
  rw [Prog.eval_bind_of_eq (eval_parent_auxdata hparent hup), hauxdata, Option.bind_some,
    auxdata_artistbrowse, deref_some, Prog.of_bind,
    Prog.eval_call (v := o.artistbrowse_albums ab) rfl, ItemDir.claims, ItemDir.items,
    List.map_map]
  apply @Prog.exists_eval_forEach_map MountInstr _ _ _ MountInstr.exec o _ _
    (Listed links e (.albums ab)) (Item.claim o ∘ Item.album)
  · exact hl
  · intro album halbum claims s hl
    obtain ⟨r, s₁, hcreate, hcreated⟩ := created_album (o := o) links hl.wf album
    rw [Prog.eval_bind_of_eq hcreate, Prog.of_bind, Prog.eval_call (v := o.album_name album) rfl]
    exact hl.link_item hlinks rfl rfl
      (hnames (.album album) (List.mem_map_of_mem halbum)) hcreated

/-- A listing. -/
lemma listing (hl : Listed links e D claims s) (hlinks : links.AreLinks) (hloaded : D.Loaded o)
    (hnames : ∀ item ∈ D.items o, ∃ c ∈ item.name o, g_ascii_isspace c = false) :
    ∃ s', (readdir_prog links D.readdir e).eval MountInstr.exec o s = some ((), s') ∧
      Listed links e D (claims ++ D.claims o) s' := by
  cases D with
  | playlists_meta =>
    obtain rfl : e = 8 := hl.here
    exact hl.playlists (Or.inl rfl) rfl (Or.inl rfl) hloaded hnames
  | playlists_music =>
    obtain rfl : e = 9 := hl.here
    exact hl.playlists (Or.inr rfl) rfl (Or.inr rfl) hloaded hnames
  | playlist pl => exact hl.playlist hlinks hloaded hnames
  | artists track => exact hl.artists hlinks hnames
  | albums ab => exact hl.albums hlinks hnames

/-! ## What is lost -/

/-- An entry that was made for one item leads to those that are the same. -/
lemma leads_iff (hl : Listed links e D claims s) {p : Ptr} {first : Item}
    (hp : s.heap.lookup e name = some p) (hitem : item.kind = D.kind) (hfirst : first.kind = D.kind)
    (hmade : Made links s.heap e name p first) :
    LeadsToItem links s.heap e p item ↔ SameItem links item first := by
  have hw := hl.wf
  rcases hk : D.kind with _ | k
  · rw [hk] at hitem hfirst
    rcases hmade with hmade | ⟨hne, -⟩
    · cases item <;> cases hitem
      cases first <;> cases hfirst
      next pl pl' =>
      obtain ⟨hauxdata, hreaddir⟩ := hmade
      constructor
      · rintro ⟨hauxdata', -⟩
        exact Auxdata.playlist.inj (Option.some.inj (hauxdata'.symm.trans hauxdata))
      · rintro rfl
        exact ⟨hauxdata, hreaddir⟩
    · exact absurd hfirst hne
  · rw [hk] at hitem hfirst
    rw [leadsToItem_iff hitem, sameItem_iff hitem hfirst]
    rcases hmade with hmade | ⟨-, hnone, htarget⟩
    · obtain ⟨l', target, d, hl', htarget, hfollow, hd⟩ := (leadsToItem_iff hfirst).mp hmade
      constructor
      · rintro ⟨l, target', d', hlink, htarget', hfollow', hd'⟩
        obtain rfl := Option.some.inj (htarget.symm.trans htarget')
        obtain rfl := Option.some.inj (hfollow.symm.trans hfollow')
        obtain ⟨-, hname, -⟩ := hw.tree.entry _ _ _ hd
        obtain ⟨-, hname', -⟩ := hw.tree.entry _ _ _ hd'
        exact ⟨l, l', hlink, hl', Option.some.inj (hname'.symm.trans hname)⟩
      · rintro ⟨l, m, hlink, hm, hlm⟩
        obtain rfl := Option.some.inj (hl'.symm.trans hm)
        exact ⟨l, target, d, hlink, htarget, hfollow, hlm ▸ hd⟩
    · refine iff_of_false ?_ (by rintro ⟨_, l', -, hl', -⟩; cases hnone.symm.trans hl')
      -- its own name leads the link to the directory, to the parent or to itself
      rintro ⟨l, target, d, -, htarget', hfollow, hd⟩
      obtain rfl := Option.some.inj (htarget.symm.trans htarget')
      obtain ⟨hnil, hname, hparent⟩ := hw.tree.entry _ _ _ hp
      have hslash : '/' ∉ name := by
        rw [← hw.tree.sanitized _ _ hname]
        exact slash_notMem_sanitize_name name
      have hbrowses := hw.browses_of_lookup hd
      rw [s.heap.follow_link_name e hnil hslash, Heap.follow_step] at hfollow
      split_ifs at hfollow with hup hhere
      · exact hl.here.not_browses hw hk (Or.inr hfollow) hbrowses
      · obtain rfl := Option.some.inj hfollow
        exact hl.here.not_browses hw hk (Or.inl rfl) hbrowses
      · obtain rfl := Option.some.inj (hp.symm.trans hfollow)
        obtain ⟨-, -, hbase⟩ := hw.tree.entry _ _ _ hd
        obtain rfl := Option.some.inj (hparent.symm.trans hbase)
        exact hw.ne_base (hl.here.holds hw).readdir k rfl

/-- What is lost after the last listing. -/
lemma nothing_lost_iff {history : List Spotify}
    (hl : Listed links e D ((history ++ [o]).flatMap D.claims) s) :
    NothingLost links s.heap e D o ↔ FirstSomewhere links D history o := by
  refine forall_congr' fun item => forall_congr' fun hitem => ?_
  apply hl.filled.exists_served_iff
  intro key p first hmem hp hmade
  exact hl.leads_iff hp (ItemDir.kind_of_mem hitem) (hl.kinds _ hmem) hmade

end Listed

/-- Listings one after the other, of a directory in which nothing was listed yet. -/
lemma exists_listed (hlinks : links.AreLinks) (hw : s.Wf) (hat : D.At links s.heap e)
    (hempty : ∀ name, s.heap.lookup e name = none) (answers : List Spotify)
    (hloaded : ∀ o ∈ answers, D.Loaded o)
    (hnames : ∀ o ∈ answers, ∀ item ∈ D.items o, ∃ c ∈ item.name o, g_ascii_isspace c = false) :
    ∃ done s', Prog.evalEach MountInstr.exec (readdir_prog links D.readdir)
      (answers.map fun o => (e, o)) s = some (done, s') ∧
        Listed links e D (answers.flatMap D.claims) s' := by
  apply Prog.exists_evalEach_flatMap (Listed links e D) e D.claims
  · exact ⟨hw, hat, by simp, .nil fun name _ => hempty name⟩
  · intro o ho claims s hl
    obtain ⟨s', heval, hl'⟩ := hl.listing hlinks (hloaded o ho) (hnames o ho)
    exact ⟨(), s', heval, hl'⟩

/-- In any state of the mounted file system, for one of the directories in which nothing was listed
yet, and names that are not blank: after any history of listings, every item has an entry that leads
to it exactly if each was, under some name, the first to be listed. -/
theorem items_not_lost_iff {links : SpotifyLinks} (hlinks : links.AreLinks)
    {l : List (World MountInstr Mount ℕ × Action ℕ MountCall Spotify)}
    {w : World MountInstr Mount ℕ} (hl : Trace (mount_system links) (World.idle Mount.init) l w)
    {D : ItemDir} {e : Ptr} (hat : D.At links w.shared.heap e)
    (hempty : ∀ name, w.shared.heap.lookup e name = none) (history : List Spotify) (o : Spotify)
    (hloaded : ∀ o' ∈ history ++ [o], D.Loaded o')
    (hnames : ∀ o' ∈ history ++ [o], ∀ item ∈ D.items o',
      ∃ c ∈ item.name o', g_ascii_isspace c = false) :
    ∃ done s', Prog.evalEach MountInstr.exec (readdir_prog links D.readdir)
        ((history ++ [o]).map fun o' => (e, o')) w.shared = some (done, s') ∧
      (NothingLost links s'.heap e D o ↔ FirstSomewhere links D history o) := by
  obtain ⟨done, s', heval, hlisted⟩ :=
    exists_listed hlinks (wf_of_trace hl) hat hempty (history ++ [o]) hloaded hnames
  exact ⟨done, s', heval, hlisted.nothing_lost_iff⟩

/-- One track, one artist and one album. -/
def one_link : SpotifyLinks where
  track _ := some "spotify:track:a".toList
  artist _ := some "spotify:artist:a".toList
  album _ := some "spotify:album:a".toList

/-- The link of the example is one. -/
lemma one_link_areLinks : one_link.AreLinks where
  track t l hl := by
    obtain rfl := Option.some.inj hl
    unfold IsLink
    decide
  artist a l hl := by
    obtain rfl := Option.some.inj hl
    unfold IsLink
    decide
  album b l hl := by
    obtain rfl := Option.some.inj hl
    unfold IsLink
    decide

/-- Two playlists; `name` is the name of the second. -/
def two_playlists (name : gstr) : Spotify :=
  { single with
    playlists := some [0, 1]
    playlist_name := fun pl => if pl = 0 then "p".toList else name }

/-- The theorem at two playlists with different names. -/
theorem playlists_not_lost : ∃ (s s' : Mount) (done : List (Done Ptr Spotify Unit)),
    Prog.evalEach MountInstr.exec playlists_meta_dir_readdir
      [(8, two_playlists "q".toList)] s = some (done, s') ∧
      NothingLost one_link s'.heap 8 .playlists_meta (two_playlists "q".toList) := by
  obtain ⟨done, s', heval, hiff⟩ := items_not_lost_iff (D := .playlists_meta) (e := 8)
    one_link_areLinks (w := World.idle Mount.init) .nil rfl (fun _ => rfl) []
    (two_playlists "q".toList) (by simp [ItemDir.Loaded, two_playlists])
    (by simp [ItemDir.items, two_playlists, Item.name, g_ascii_isspace])
  refine ⟨Mount.init, s', done, heval, hiff.mpr ?_⟩
  intro item hitem
  rcases List.mem_pair.mp hitem with rfl | rfl
  · exact ⟨"p".toList, .playlist 0, by decide +kernel, rfl⟩
  · exact ⟨"q".toList, .playlist 1, by decide +kernel, rfl⟩

/-- The second of two playlists whose names are the same but for a blank has no entry. -/
theorem not_items_not_lost :
    ¬ ∀ (links : SpotifyLinks) (l : List (World MountInstr Mount ℕ × Action ℕ MountCall Spotify))
      (w : World MountInstr Mount ℕ) (D : ItemDir) (e : Ptr) (o : Spotify)
      (done : List (Done Ptr Spotify Unit)) (s' : Mount), links.AreLinks →
      Trace (mount_system links) (World.idle Mount.init) l w → D.At links w.shared.heap e →
      (∀ name, w.shared.heap.lookup e name = none) → D.Loaded o →
      (∀ item ∈ D.items o, ∃ c ∈ item.name o, g_ascii_isspace c = false) →
      Prog.evalEach MountInstr.exec (readdir_prog links D.readdir) [(e, o)] w.shared =
        some (done, s') → NothingLost links s'.heap e D o := by
  intro hall
  have hloaded : ItemDir.playlists_meta.Loaded (two_playlists " p".toList) := Option.some_ne_none _
  have hnames : ∀ item ∈ ItemDir.playlists_meta.items (two_playlists " p".toList),
      ∃ c ∈ item.name (two_playlists " p".toList), g_ascii_isspace c = false := by
    simp [ItemDir.items, two_playlists, Item.name, g_ascii_isspace]
  obtain ⟨done, s', heval, hl⟩ := exists_listed (D := .playlists_meta) (e := 8) one_link_areLinks
    (Mount.init_inv False).wf rfl (fun _ => rfl) ([] ++ [two_playlists " p".toList])
    (by simpa using hloaded) (by simpa using hnames)
  have hlost := hall one_link [] (World.idle Mount.init) .playlists_meta 8
    (two_playlists " p".toList) done s' one_link_areLinks .nil rfl (fun _ => rfl) hloaded hnames
    heval
  obtain ⟨key, first, hfirst, hsame⟩ :=
    hl.nothing_lost_iff.mp hlost (.playlist 1) (List.mem_cons_of_mem _ List.mem_cons_self)
  have hclaims : ([] ++ [two_playlists " p".toList]).flatMap (ItemDir.claims .playlists_meta) =
      [("p".toList, .playlist 0), ("p".toList, .playlist 1)] := by decide +kernel
  rw [hclaims, List.lookup_cons] at hfirst
  rcases hkey : key == "p".toList with _ | _
  · rw [hkey, List.lookup_cons, hkey] at hfirst
    cases hfirst
  · rw [hkey] at hfirst
    obtain rfl := Option.some.inj hfirst
    exact absurd hsame (by decide : (1 : ℕ) ≠ 0)

end Spotifile
