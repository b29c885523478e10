import Spotifile.Mount

/-!
# Where the entities of the mounted file system are

The `readdir` of a directory and the `auxdata` of a browse directory say where it is once it has a
parent: a playlist directory in `/playlists/meta` or `/playlists/music`, a search directory in
`/search`, a browse directory in `/browse/tracks`, `/browse/artists` or `/browse/albums`, the
directory `artists` in a track's browse directory, the directory `albums` in an artist's.
`ParentRule` states this for one parent and child, `Heap.Placed` for the heap. From it follow the
places (`Heap.Placed.place_of_readdir`, `Heap.Placed.place_of_browses`), and that no directory
with links is above or below what its links lead to.
-/

namespace Spotifile

/-! ## Kinds -/

/-- The three kinds of browse directories. -/
inductive BrowseKind
  | track | artist | album
deriving DecidableEq, Repr

namespace BrowseKind

/-- The directory that holds the browse directories of this kind. -/
def base : BrowseKind → Ptr
  | .track => 4
  | .artist => 3
  | .album => 5

/-- Its place. -/
def place : BrowseKind → List gstr
  | .track => ["browse".toList, "tracks".toList]
  | .artist => ["browse".toList, "artists".toList]
  | .album => ["browse".toList, "albums".toList]

end BrowseKind

/-- The kind of the browse directory that has this `auxdata`. -/
def Auxdata.kind : Auxdata → Option BrowseKind
  | .track _ => some .track
  | .artistbrowse _ => some .artist
  | .album _ => some .album
  | _ => none

/-- The kind of a browse directory: a directory without operations, with such an `auxdata`. -/
def spfs_entity.browses (e : spfs_entity) : Option BrowseKind :=
  if e.e.shape = .dir ⟨none, none⟩ [] then e.auxdata.bind Auxdata.kind else none

/-- The kind of the browse directory at a pointer. -/
def Heap.browses (h : Heap) (p : Ptr) : Option BrowseKind := (h.get p).bind spfs_entity.browses

namespace SpfsReaddirFunc

/-- The parent of the directories with this `readdir`, if it is always the same. -/
def home : SpfsReaddirFunc → Option Ptr
  | .playlist_dir_meta_readdir => some 8
  | .playlist_dir_music_readdir => some 9
  | .search_readdir => some 6
  | _ => none

/-- The kind of the browse directories that hold the directories with this `readdir`. -/
def within : SpfsReaddirFunc → Option BrowseKind
  | .artists_readdir => some .track
  | .albums_readdir | .portraits_readdir => some .artist
  | _ => none

/-- The place under which the directories with this `readdir` are. -/
def place : SpfsReaddirFunc → List gstr
  | .playlist_dir_meta_readdir => ["playlists".toList, "meta".toList]
  | .playlist_dir_music_readdir => ["playlists".toList, "music".toList]
  | .search_readdir => ["search".toList]
  | .artists_readdir => ["browse".toList, "tracks".toList]
  | .albums_readdir | .portraits_readdir => ["browse".toList, "artists".toList]
  | .playlists_meta_dir_readdir | .playlists_music_dir_readdir => ["playlists".toList]

/-- The kind of the browse directories to which the links in these directories lead. -/
def links : SpfsReaddirFunc → Option BrowseKind
  | .playlist_dir_meta_readdir | .playlist_dir_music_readdir | .search_readdir => some .track
  | .artists_readdir => some .artist
  | .albums_readdir => some .album
  | _ => none

end SpfsReaddirFunc

/-- The rule that a parent and its child keep. -/
structure ParentRule (h : Heap) (e : spfs_entity) (p : Ptr) : Prop where
  home : ∀ f q, e.readdir = some f → f.home = some q → p = q
  within : ∀ f k, e.readdir = some f → f.within = some k → h.browses p = some k
  browse : ∀ k : BrowseKind, e.browses = some k ↔ p = k.base
  music : h.readdir p = some .playlist_dir_music_readdir →
    (e.target.isSome ∧ e.auxdata = none) ∨ e.name = some "playlist.xspf".toList

/-- An entity that only `spfs_init` creates: its `mkdir` or `readdir` adds directories. -/
def spfs_entity.fixed (e : spfs_entity) : Bool :=
  e.mkdir.isSome || e.readdir = some .playlists_meta_dir_readdir ||
    e.readdir = some .playlists_music_dir_readdir

/-- All parents and children keep the rule. -/
def Heap.Placed (h : Heap) : Prop :=
  ∀ q e p, h.get q = some e → e.parent = some p → ParentRule h e p

/-! ## Entities that are alike -/

/-- What has a target is a link. -/
lemma spfs_entity.target_isSome_iff (e : spfs_entity) :
    e.target.isSome ↔ e.e.shape = .link [] := by
  rcases e with ⟨_, _, _, _, _ | _ | _⟩ <;> simp [spfs_entity.target, EntityData.shape]

/-- A link has no `readdir`. -/
lemma spfs_entity.readdir_of_link {e : spfs_entity} (h : e.target.isSome) : e.readdir = none := by
  rcases e with ⟨_, _, _, _, _ | _ | _⟩
  · cases h
  · cases h
  · rfl

/-- A browse directory has no `readdir`. -/
lemma spfs_entity.readdir_of_browses {e : spfs_entity} {k : BrowseKind} (h : e.browses = some k) :
    e.readdir = none := by
  unfold spfs_entity.browses at h
  split at h
  · next hshape =>
    have hbare : e.e.shape = ({ e with e := .dir ⟨none, none⟩ [] } : spfs_entity).e.shape := hshape
    exact spfs_entity.readdir_eq_of_shape hbare
  · cases h

namespace spfs_entity.Alike

variable {e e' : spfs_entity}

/-- Entities that are alike are both links or both not. -/
lemma target_isSome (h : e.Alike e') : e'.target.isSome = e.target.isSome := by
  rw [Bool.eq_iff_iff, target_isSome_iff, target_isSome_iff, h.shape]

/-- Entities that are alike have the same `mkdir`. -/
lemma mkdir (h : e.Alike e') : e'.mkdir = e.mkdir := by
  have hshape := h.shape
  rcases e with ⟨_, _, _, _, _ | _ | _⟩ <;> rcases e' with ⟨_, _, _, _, _ | _ | _⟩ <;>
    simp_all [EntityData.shape, spfs_entity.mkdir]

/-- Entities that are alike are both fixed or both not. -/
lemma fixed (h : e.Alike e') : e'.fixed = e.fixed := by
  rw [spfs_entity.fixed, h.mkdir, h.readdir, spfs_entity.fixed]

/-- Entities that are alike are both directories or both not. -/
lemma children_isSome (h : e.Alike e') : e'.e.children.isSome = e.e.children.isSome := by
  have hshape := h.shape
  rcases e with ⟨_, _, _, _, _ | _ | _⟩ <;> rcases e' with ⟨_, _, _, _, _ | _ | _⟩ <;>
    first | rfl | cases hshape

/-- Entities that are alike are browse directories of the same kind, or neither is one. -/
lemma browses (h : e.Alike e') : e'.browses = e.browses := by
  unfold spfs_entity.browses
  rw [h.shape]
  split
  · next hshape =>
    have hbare : e.e.shape = ({ e with e := .dir ⟨none, none⟩ [] } : spfs_entity).e.shape := hshape
    have hreaddir : e.readdir = none := spfs_entity.readdir_eq_of_shape hbare
    rw [h.auxdata (by simp [hreaddir])]
  · rfl

end spfs_entity.Alike

/-- The rule holds as well of an entity that is alike, in a directory that is alike. -/
lemma ParentRule.of_alike {h h' : Heap} {e e' : spfs_entity} {p : Ptr} (hrule : ParentRule h e p)
    (he : e.Alike e') (hreaddir : h'.readdir p = h.readdir p)
    (hbrowses : h'.browses p = h.browses p) : ParentRule h' e' p where
  home f q hf hq := hrule.home f q (he.readdir ▸ hf) hq
  within f k hf hk := by
    rw [hbrowses]
    exact hrule.within f k (he.readdir ▸ hf) hk
  browse k := by
    rw [he.browses]
    exact hrule.browse k
  music hp := by
    rw [he.target_isSome, he.name]
    rcases hrule.music (hreaddir ▸ hp) with ⟨htarget, haux⟩ | hname
    · left
      refine ⟨htarget, ?_⟩
      rw [he.auxdata (by simp [spfs_entity.readdir_of_link htarget]), haux]
    · exact Or.inr hname

namespace Heap

/-- Every entity of `h` is in `h'`, with the same name and kind. -/
def Alike (h h' : Heap) : Prop := ∀ p e, h.get p = some e → ∃ e', h'.get p = some e' ∧ e.Alike e'

/-- What was there before is what it was alike. -/
lemma Alike.of_get {h h' : Heap} (ha : h.Alike h') {p : Ptr} (hp : p < h.fresh) {e' : spfs_entity}
    (he' : h'.get p = some e') : ∃ e, h.get p = some e ∧ e.Alike e' := by
  obtain ⟨e, he⟩ := exists_get_of_lt hp
  obtain ⟨e'', he'', halike⟩ := ha p e he
  obtain rfl : e'' = e' := Option.some.inj (he''.symm.trans he')
  exact ⟨e, he, halike⟩

/-- A child that was there before had its parent then. -/
lemma Alike.of_parent {h h' : Heap} (ha : h.Alike h') (hh : h.Tree) {p q : Ptr}
    (hp : h.parent q = some p) {e' : spfs_entity} (he' : h'.get q = some e') :
    p < h.fresh ∧ ∃ e, h.get q = some e ∧ e.parent = some p ∧ e.Alike e' := by
  obtain ⟨e, he, hep⟩ := Option.bind_eq_some_iff.mp hp
  have hq : q < h.fresh := lt_fresh_of_get he
  obtain ⟨e₀, he₀, halike⟩ := ha.of_get hq he'
  obtain rfl : e₀ = e := Option.some.inj (he₀.symm.trans he)
  exact ⟨(hh.child q p hp).1.trans hq, e₀, he, hep, halike⟩

/-- A heap that has grown is alike as far as it went before. -/
lemma Grows.alike {h h' : Heap} (hg : h.Grows h') : h.Alike h' := by
  intro p e he
  obtain ⟨e', he', hee'⟩ := hg.get p e he
  exact ⟨e', he', hee'.toAlike⟩

/-- A directory stays one. -/
lemma Grows.children {h h' : Heap} (hg : h.Grows h') {p : Ptr} (hp : h.children p ≠ none) :
    h'.children p ≠ none := by
  obtain ⟨table, htable⟩ := Option.ne_none_iff_exists'.mp hp
  obtain ⟨e, he, hchildren⟩ := Option.bind_eq_some_iff.mp htable
  obtain ⟨e', he', halike⟩ := hg.alike p e he
  rw [Heap.children, he', Option.bind_some, ← Option.isSome_iff_ne_none, halike.children_isSome,
    hchildren]
  rfl

namespace Alike

/-- What is like a heap that is like a heap is like that. -/
lemma trans {h h' h'' : Heap} (ha : h.Alike h') (ha' : h'.Alike h'') : h.Alike h'' := by
  intro p e he
  obtain ⟨e', he', hee'⟩ := ha p e he
  obtain ⟨e'', he'', hee''⟩ := ha' p e' he'
  exact ⟨e'', he'', hee'.trans hee''⟩

variable {h h' : Heap} {p : Ptr}

/-- The `readdir` of what was there stays. -/
lemma readdir_eq (ha : h.Alike h') (hp : p < h.fresh) : h'.readdir p = h.readdir p := by
  obtain ⟨e, he⟩ := Heap.exists_get_of_lt hp
  obtain ⟨e', he', hee'⟩ := ha p e he
  rw [Heap.readdir, Heap.readdir, he, he']
  exact hee'.readdir

/-- The kind of what was there stays. -/
lemma browses_eq (ha : h.Alike h') (hp : p < h.fresh) : h'.browses p = h.browses p := by
  obtain ⟨e, he⟩ := Heap.exists_get_of_lt hp
  obtain ⟨e', he', hee'⟩ := ha p e he
  rw [Heap.browses, Heap.browses, he, he']
  exact hee'.browses

end Alike

/-- What has a target is there. -/
lemma exists_get_of_target {h : Heap} {p : Ptr} (hp : (h.target p).isSome) :
    ∃ e target, h.get p = some e ∧ e.target = some target := by
  obtain ⟨target, htarget⟩ := Option.isSome_iff_exists.mp hp
  obtain ⟨e, he, hetarget⟩ := Option.bind_eq_some_iff.mp htarget
  exact ⟨e, target, he, hetarget⟩

/-- What has a target keeps one. -/
lemma Alike.target_isSome {h h' : Heap} (ha : h.Alike h') {p : Ptr} (hp : (h.target p).isSome) :
    (h'.target p).isSome := by
  obtain ⟨e, target, he, hetarget⟩ := exists_get_of_target hp
  obtain ⟨e', he', halike⟩ := ha p e he
  rw [Heap.target, he', Option.bind_some, halike.target_isSome, hetarget]
  rfl

/-- A link does not get a parent later. -/
lemma Grows.parent_of_link {h h' : Heap} (hg : h.Grows h') {p dir : Ptr}
    (hp : (h.target p).isSome) (hdir : h'.parent p = some dir) : h.parent p = some dir := by
  obtain ⟨e, target, he, hetarget⟩ := exists_get_of_target hp
  obtain ⟨e', he', hee'⟩ := hg.get p e he
  have hreaddir : e.readdir = none := spfs_entity.readdir_of_link (by simp [hetarget])
  rw [Heap.parent, he', Option.bind_some] at hdir
  rw [Heap.parent, he, Option.bind_some]
  rcases hparent : e.parent with _ | q
  · rw [hee'.orphan hparent (by simp [hreaddir])] at hdir
    cases hdir
  · rwa [hee'.parent q hparent] at hdir

/-- A heap stays placed if the new parents and children keep the rule. -/
lemma Placed.of_alike {h h' : Heap} (hp : h.Placed) (hh : h.Tree) (ha : h.Alike h')
    (hnew : ∀ q e' p, h'.get q = some e' → e'.parent = some p →
      h.parent q = some p ∨ ParentRule h' e' p) : h'.Placed := by
  intro q e' p he' hparent
  rcases hnew q e' p he' hparent with hold | hrule
  · obtain ⟨hlt, e, he, hep, halike⟩ := ha.of_parent hh hold he'
    exact (hp q e p he hep).of_alike halike (ha.readdir_eq hlt) (ha.browses_eq hlt)
  · exact hrule

/-- A new entity has no parent yet to break the rule with. -/
lemma Placed.alloc {h : Heap} (hp : h.Placed) (hh : h.Tree) {e : spfs_entity} (he : e.New) :
    (h.alloc e).Placed := by
  apply hp.of_alike hh ((Grows.refl h).alloc he).alike
  intro q e' p he' hparent
  rw [get_alloc] at he'
  split at he'
  · obtain rfl := Option.some.inj he'
    rw [he.parent] at hparent
    cases hparent
  · left
    rw [Heap.parent, he']
    exact hparent

end Heap

/-! ## Adding a child -/

/-- To add a child takes no pointer. -/
@[simp] lemma fresh_add_child (h : Heap) (parent child : Ptr) :
    (spfs_entity_dir_add_child h parent child).fresh = h.fresh := by
  rcases spfs_entity_dir_add_child_cases h parent child with heq | ⟨name, -, -, -, -, -, heq⟩
  · rw [heq]
  · rw [heq, fresh_link_child]

/-- To add a child changes no name. -/
@[simp] lemma name_add_child (h : Heap) (parent child q : Ptr) :
    (spfs_entity_dir_add_child h parent child).name q = h.name q := by
  rcases spfs_entity_dir_add_child_cases h parent child with heq | ⟨name, -, -, -, -, -, heq⟩
  · rw [heq]
  · rw [heq, name_link_child]

/-- To add a child changes no other parent. -/
lemma parent_add_child_of_ne (h : Heap) (parent : Ptr) {child q : Ptr} (hq : child ≠ q) :
    (spfs_entity_dir_add_child h parent child).parent q = h.parent q := by
  rcases spfs_entity_dir_add_child_cases h parent child with heq | ⟨name, -, -, -, -, -, heq⟩
  · rw [heq]
  · rw [heq, parent_link_child, if_neg hq]

/-- To add a child changes no target. -/
@[simp] lemma target_add_child (h : Heap) (parent child q : Ptr) :
    (spfs_entity_dir_add_child h parent child).target q = h.target q := by
  rcases spfs_entity_dir_add_child_cases h parent child with heq | ⟨name, -, -, -, -, -, heq⟩
  · rw [heq]
  · rw [heq, Heap.link_child, Heap.target_modify _ _ _ fun e => target_insert_child name child e]
    exact Heap.target_modify h child q fun _ => rfl

/-- An entity before and after. -/
lemma get_add_child {h : Heap} {q : Ptr} {e : spfs_entity} (parent child : Ptr)
    (he : h.get q = some e) :
    ∃ e', (spfs_entity_dir_add_child h parent child).get q = some e' ∧ e.Alike e' ∧
      e'.target = e.target ∧
      (e'.parent = e.parent ∨ (q = child ∧ e'.parent = some parent)) := by
  rcases spfs_entity_dir_add_child_cases h parent child with heq | ⟨name, -, -, -, -, -, heq⟩
  · rw [heq]
    exact ⟨e, he, .refl e, rfl, Or.inl rfl⟩
  · rw [heq]
    obtain ⟨e', he', halike, htarget, hparent⟩ := Heap.exists_get_link_child he parent child name
    refine ⟨e', he', halike, htarget, ?_⟩
    by_cases hq : child = q
    · right
      exact ⟨hq.symm, by rw [hparent, if_pos hq]⟩
    · left
      rw [hparent, if_neg hq]

/-- What is there after a child was added was there before, and only the child may have got a
parent. -/
lemma get_of_get_add_child {h : Heap} {parent child q : Ptr} {e' : spfs_entity}
    (he' : (spfs_entity_dir_add_child h parent child).get q = some e') :
    ∃ e, h.get q = some e ∧ e.Alike e' ∧ e'.target = e.target ∧
      (e'.parent = e.parent ∨ (q = child ∧ e'.parent = some parent)) := by
  have hlt : q < h.fresh := by simpa using Heap.lt_fresh_of_get he'
  obtain ⟨e, he⟩ := Heap.exists_get_of_lt hlt
  obtain ⟨e'', he'', hrest⟩ := get_add_child parent child he
  obtain rfl : e'' = e' := Option.some.inj (he''.symm.trans he')
  exact ⟨e, he, hrest⟩

/-- To add a child leaves the entities alike. -/
lemma alike_add_child (h : Heap) (parent child : Ptr) :
    h.Alike (spfs_entity_dir_add_child h parent child) := by
  intro q e he
  obtain ⟨e', he', halike, -, -⟩ := get_add_child parent child he
  exact ⟨e', he', halike⟩

/-- A child for which the rule holds may be added. -/
lemma Heap.Placed.add_child {h : Heap} (hp : h.Placed) (hh : h.Tree) {parent child : Ptr}
    (hlt : parent < h.fresh)
    (hrule : ∀ e, h.get child = some e → ParentRule h e parent) :
    (spfs_entity_dir_add_child h parent child).Placed := by
  have ha := alike_add_child h parent child
  apply hp.of_alike hh ha
  intro q e' p he' hparent
  obtain ⟨e, he, halike, -, hold | ⟨rfl, hnew⟩⟩ := get_of_get_add_child he'
  · left
    rw [Heap.parent, he, Option.bind_some, ← hold]
    exact hparent
  · right
    obtain rfl : parent = p := Option.some.inj (hnew.symm.trans hparent)
    exact (hrule e he).of_alike halike (ha.readdir_eq hlt) (ha.browses_eq hlt)

/-- Whether added or refused for the name: afterwards the name is in the table. -/
lemma lookup_add_child_ne_none {h : Heap} (hh : h.Tree) {parent child : Ptr} {name : gstr}
    (hname : h.name child = some name) (hnil : name ≠ []) (hdir : h.children parent ≠ none) :
    (spfs_entity_dir_add_child h parent child).lookup parent name ≠ none := by
  obtain ⟨table, htable⟩ := Option.ne_none_iff_exists'.mp hdir
  have hadd : spfs_entity_dir_add_child h parent child =
      if (h.lookup parent name).isSome then h else h.link_child parent child name := by
    rw [spfs_entity_dir_add_child, hname]
    simp [htable, hnil, hh.has_child_eq hname]
  rw [hadd]
  rcases hlookup : h.lookup parent name with _ | q
  · rw [if_neg (by simp), Heap.lookup_link_child htable hlookup, if_pos ⟨rfl, rfl⟩]
    exact Option.some_ne_none child
  · rw [if_pos (by simp), hlookup]
    exact Option.some_ne_none q

/-! ## Creating an entity with its entries -/

/-- `x` may be put into the new directory `e`. -/
structure spfs_entity.MayHold (e x : spfs_entity) : Prop where
  new : x.New
  home : ∀ f, x.readdir = some f → f.home = none
  within : ∀ f k, x.readdir = some f → f.within = some k → e.browses = some k
  browses : x.browses = none

/-- What `h'` is after a new entity was filled with the entries and, if `dir` is given, added to
`dir`. -/
structure Added (h h' : Heap) (dir : Option Ptr) (e : spfs_entity) (entries : List spfs_entity) :
    Prop where
  tree : h'.Tree
  placed : h'.Placed
  grows : h.Grows h'
  self : ∃ e', h'.get h.fresh = some e' ∧ e.Alike e' ∧ e'.target = e.target ∧
    (e'.parent = none ∨ e'.parent = dir)
  origin : ∀ q e', h'.get q = some e' →
    (∃ e₀, h.get q = some e₀ ∧ e₀.Alike e' ∧ e'.target = e₀.target ∧ e'.parent = e₀.parent) ∨
    (q = h.fresh ∧ e.Alike e') ∨ ∃ x ∈ entries, x.Alike e' ∧ h.fresh < q
  entry : ∀ x ∈ entries, ∀ name, x.name = some name → name ≠ [] →
    h'.lookup h.fresh name ≠ none

namespace Added

variable {h h' : Heap} {e : spfs_entity} {entries : List spfs_entity}

/-- A new entity that is not added to a directory yet. -/
lemma alloc (hh : h.Tree) (hp : h.Placed) (he : e.New) : Added h (h.alloc e) none e [] where
  tree := hh.alloc he
  placed := hp.alloc hh he
  grows := (Heap.Grows.refl h).alloc he
  self := ⟨e, by rw [Heap.get_alloc, if_pos rfl], .refl e, rfl, Or.inl he.parent⟩
  origin := by
    intro q e' he'
    rw [Heap.get_alloc] at he'
    split at he'
    · next hq =>
      obtain rfl := Option.some.inj he'
      exact Or.inr (Or.inl ⟨hq, .refl e⟩)
    · exact Or.inl ⟨e', he', .refl e', rfl, rfl⟩
  entry := by simp

/-- The entities of before. -/
lemma old {dir : Option Ptr} (ha : Added h h' dir e entries) {q : Ptr} {e₀ : spfs_entity}
    (he₀ : h.get q = some e₀) :
    ∃ e', h'.get q = some e' ∧ e₀.Alike e' ∧ e'.target = e₀.target ∧ e'.parent = e₀.parent := by
  have hlt := Heap.lt_fresh_of_get he₀
  obtain ⟨e', he', -⟩ := ha.grows.alike q e₀ he₀
  rcases ha.origin q e' he' with ⟨e₁, he₁, hrest⟩ | ⟨rfl, -⟩ | ⟨x, -, -, hgt⟩
  · obtain rfl : e₁ = e₀ := Option.some.inj (he₁.symm.trans he₀)
    exact ⟨e', he', hrest⟩
  · exact absurd hlt (Nat.lt_irrefl _)
  · exact absurd hlt hgt.not_gt

/-- Such a step takes at least one pointer. -/
lemma lt_fresh {dir : Option Ptr} (ha : Added h h' dir e entries) : h.fresh < h'.fresh := by
  obtain ⟨e', he', -⟩ := ha.self
  exact Heap.lt_fresh_of_get he'

/-- The new entity when one more is created. -/
lemma self_alloc (ha : Added h h' none e entries) (x : spfs_entity) :
    ∃ e', (h'.alloc x).get h.fresh = some e' ∧ e.Alike e' ∧ e'.target = e.target ∧
      e'.parent = none := by
  obtain ⟨e', he', halike, htarget, horphan⟩ := ha.self
  refine ⟨e', ?_, halike, htarget, horphan.elim id id⟩
  rw [Heap.get_alloc, if_neg ha.lt_fresh.ne]
  exact he'

/-- What it may hold has its place in it. -/
lemma parentRule_entry (ha : Added h h' none e entries) {x : spfs_entity} (hx : e.MayHold x)
    (hmusic : e.readdir ≠ some .playlist_dir_music_readdir)
    (hbase : ∀ k : BrowseKind, h.fresh ≠ k.base) : ParentRule (h'.alloc x) x h.fresh := by
  obtain ⟨e', hself, halike, -, -⟩ := ha.self_alloc x
  have hreaddir : (h'.alloc x).readdir h.fresh = e.readdir := by
    rw [Heap.readdir, hself]
    exact halike.readdir
  have hbrowses : (h'.alloc x).browses h.fresh = e.browses := by
    rw [Heap.browses, hself]
    exact halike.browses
  refine ⟨?_, ?_, ?_, ?_⟩
  · intro f q hf hq
    rw [hx.home f hf] at hq
    cases hq
  · intro f k hf hk
    rw [hbrowses]
    exact hx.within f k hf hk
  · intro k
    rw [hx.browses]
    exact iff_of_false (by simp) (hbase k)
  · intro hm
    rw [hreaddir] at hm
    exact absurd hm hmusic

/-- Where the entities come from when an entry is added. -/
lemma origin_add_child (ha : Added h h' none e entries) (x : spfs_entity) {q : Ptr}
    {e' : spfs_entity}
    (he' : (spfs_entity_dir_add_child (h'.alloc x) h.fresh h'.fresh).get q = some e') :
    (∃ e₀, h.get q = some e₀ ∧ e₀.Alike e' ∧ e'.target = e₀.target ∧ e'.parent = e₀.parent) ∨
    (q = h.fresh ∧ e.Alike e') ∨ ∃ y ∈ entries ++ [x], y.Alike e' ∧ h.fresh < q := by
  obtain ⟨e₁, he₁, halike, htarget, hparent⟩ := get_of_get_add_child he'
  rw [Heap.get_alloc] at he₁
  split at he₁
  · next hq =>
    obtain rfl := Option.some.inj he₁
    exact Or.inr (Or.inr ⟨x, by simp, halike, hq ▸ ha.lt_fresh⟩)
  · next hold =>
    rcases ha.origin q e₁ he₁ with ⟨e₀, he₀, h₀, ht₀, hp₀⟩ | ⟨hq, h₀⟩ | ⟨y, hy, h₀, hq⟩
    · have hparent := hparent.resolve_right fun hand => hold hand.1
      exact Or.inl ⟨e₀, he₀, h₀.trans halike, htarget.trans ht₀, hparent.trans hp₀⟩
    · exact Or.inr (Or.inl ⟨hq, h₀.trans halike⟩)
    · exact Or.inr (Or.inr ⟨y, by simp [hy], h₀.trans halike, hq⟩)

/-- One more entry. -/
lemma add_entry (ha : Added h h' none e entries) {x : spfs_entity} (hx : e.MayHold x)
    (hdir : e.e.children ≠ none) (hmusic : e.readdir ≠ some .playlist_dir_music_readdir)
    (hbase : ∀ k : BrowseKind, h.fresh ≠ k.base) :
    Added h (spfs_entity_dir_add_child (h'.alloc x) h.fresh h'.fresh) none e (entries ++ [x]) := by
  obtain ⟨e₁, hself, halike, htarget, horphan⟩ := ha.self_alloc x
  have hlt := ha.lt_fresh
  have htree := ha.tree.alloc hx.new
  have hxget : (h'.alloc x).get h'.fresh = some x := by rw [Heap.get_alloc, if_pos rfl]
  have hxparent : (h'.alloc x).parent h'.fresh = none := by
    rw [Heap.parent_alloc, if_pos rfl]
    exact hx.new.parent
  have hnone : ∀ {h₀ : Heap}, h₀.fresh ≤ h'.fresh → h₀.get h'.fresh = none :=
    fun hle => Heap.get_eq_none_of_fresh_le hle
  have hgrows : h'.Grows (spfs_entity_dir_add_child (h'.alloc x) h.fresh h'.fresh) :=
    ((Heap.Grows.refl h').alloc hx.new).add_child htree hxparent (Or.inl (hnone (Nat.le_refl _)))
  refine ⟨htree.add_child hxparent hlt,
    (ha.placed.alloc ha.tree hx.new).add_child htree ?_ ?_,
    (ha.grows.alloc hx.new).add_child htree hxparent (Or.inl (hnone hlt.le)), ?_,
    fun q e' he' => ha.origin_add_child x he', ?_⟩
  · simpa using hlt.trans (Nat.lt_succ_self _)
  · intro e' he'
    obtain rfl : x = e' := Option.some.inj (hxget.symm.trans he')
    exact ha.parentRule_entry hx hmusic hbase
  · obtain ⟨e₂, he₂, halike₂, htarget₂, hparent⟩ :=
      get_add_child h.fresh h'.fresh hself
    refine ⟨e₂, he₂, halike.trans halike₂, htarget₂.trans htarget, Or.inl ?_⟩
    rcases hparent with hparent | ⟨hq, -⟩
    · rw [hparent, horphan]
    · exact absurd hq hlt.ne
  · intro y hy name hname hnil
    rcases List.mem_append.mp hy with hy | hy
    · obtain ⟨q, hq⟩ := Option.ne_none_iff_exists'.mp (ha.entry y hy name hname hnil)
      rw [hgrows.lookup _ _ _ hq]
      exact Option.some_ne_none q
    · obtain rfl := List.mem_singleton.mp hy
      refine lookup_add_child_ne_none htree ?_ hnil ?_
      · rw [Heap.name, hxget]
        exact hname
      · rw [Heap.children, hself, Option.bind_some]
        have hsome := halike.children_isSome
        rw [Option.isSome_iff_ne_none.mpr hdir] at hsome
        exact Option.isSome_iff_ne_none.mp hsome

/-- All the entries. -/
lemma add_entries (hh : h.Tree) (hp : h.Placed) (he : e.New) (hentries : ∀ x ∈ entries, e.MayHold x)
    (hdir : entries ≠ [] → e.e.children ≠ none)
    (hmusic : e.readdir ≠ some .playlist_dir_music_readdir ∨ entries = [])
    (hbase : ∀ k : BrowseKind, h.fresh ≠ k.base) :
    Added h (Spotifile.add_entries (h.alloc e) h.fresh entries) none e entries := by
  induction entries using List.reverseRecOn with
  | nil => exact alloc hh hp he
  | append_singleton entries x ih =>
    have hne : entries ++ [x] ≠ [] := by simp
    have ih := ih (fun y hy => hentries y (by simp [hy])) (fun _ => hdir hne)
      (Or.inl (hmusic.resolve_right hne))
    have hx := ih.add_entry (hentries x (by simp)) (hdir hne) (hmusic.resolve_right hne) hbase
    rw [Spotifile.add_entries, List.foldl_append]
    exact hx

/-- The new entity is added to its directory. -/
lemma add_child (ha : Added h h' none e entries) {dir : Ptr} (hlt : dir < h.fresh)
    (hrule : ∀ h', h.Alike h' → ParentRule h' e dir) :
    Added h (spfs_entity_dir_add_child h' dir h.fresh) (some dir) e entries := by
  obtain ⟨e₁, he₁, halike, htarget, horphan⟩ := ha.self
  have horphan : e₁.parent = none := horphan.elim id id
  have hparent : h'.parent h.fresh = none := by rw [Heap.parent, he₁, Option.bind_some, horphan]
  refine ⟨ha.tree.add_child hparent hlt, ha.placed.add_child ha.tree (hlt.trans ha.lt_fresh) ?_,
    ha.grows.add_child ha.tree hparent
      (Or.inl (Heap.get_eq_none_of_fresh_le (Nat.le_refl _))), ?_, ?_, ?_⟩
  · intro e' he'
    obtain rfl : e₁ = e' := Option.some.inj (he₁.symm.trans he')
    exact (hrule h' ha.grows.alike).of_alike halike rfl rfl
  · obtain ⟨e₂, he₂, halike₂, htarget₂, hparent₂⟩ :=
      get_add_child dir h.fresh he₁
    refine ⟨e₂, he₂, halike.trans halike₂, htarget₂.trans htarget, ?_⟩
    rcases hparent₂ with hold | ⟨-, hnew⟩
    · exact Or.inl (hold.trans horphan)
    · exact Or.inr hnew
  · intro q e₂ he₂
    obtain ⟨e₃, he₃, halike₃, htarget₃, hparent₃⟩ := get_of_get_add_child he₂
    rcases ha.origin q e₃ he₃ with ⟨e₀, he₀, h₀, ht₀, hp₀⟩ | ⟨hq, h₀⟩ | ⟨y, hy, h₀, hq⟩
    · have hparent := hparent₃.resolve_right fun hand => (Heap.lt_fresh_of_get he₀).ne hand.1
      exact Or.inl ⟨e₀, he₀, h₀.trans halike₃, htarget₃.trans ht₀, hparent.trans hp₀⟩
    · exact Or.inr (Or.inl ⟨hq, h₀.trans halike₃⟩)
    · exact Or.inr (Or.inr ⟨y, hy, h₀.trans halike₃, hq⟩)
  · intro x hx name hname hnil
    have hold := ha.entry x hx name hname hnil
    rcases spfs_entity_dir_add_child_cases h' dir h.fresh with
      heq | ⟨key, table, hkey, htable, -, hhas, heq⟩
    · rwa [heq]
    · rw [ha.tree.has_child_eq hkey, Option.isSome_eq_false_iff, Option.isNone_iff_eq_none] at hhas
      rw [heq, Heap.lookup_link_child htable hhas, if_neg]
      · exact hold
      · rintro ⟨rfl, -⟩
        exact absurd hlt (Nat.lt_irrefl _)

end Added

/-- `add_new`, on a heap that is a tree with its entities in their places. -/
lemma added_add_new {h : Heap} {dir : Ptr} {e : spfs_entity} {entries : List spfs_entity}
    (hh : h.Tree) (hp : h.Placed) (he : e.New) (hentries : ∀ x ∈ entries, e.MayHold x)
    (hdir : entries ≠ [] → e.e.children ≠ none)
    (hmusic : e.readdir ≠ some .playlist_dir_music_readdir ∨ entries = [])
    (hbase : ∀ k : BrowseKind, h.fresh ≠ k.base) (hlt : dir < h.fresh)
    (hrule : ∀ h', h.Alike h' → ParentRule h' e dir) :
    Added h (add_new h dir e entries) (some dir) e entries :=
  (Added.add_entries hh hp he hentries hdir hmusic hbase).add_child hlt hrule

/-! ## The entities of `spfs_init` -/

/-- A new entity whose kind asks for no parent. -/
structure spfs_entity.Plain (e : spfs_entity) : Prop where
  new : e.New
  home : ∀ f, e.readdir = some f → f.home = none
  within : ∀ f, e.readdir = some f → f.within = none
  browses : e.browses = none

/-- A plain entity may be added to any other. -/
lemma spfs_entity.Plain.mayHold {x : spfs_entity} (hx : x.Plain) (e : spfs_entity) :
    e.MayHold x where
  new := hx.new
  home := hx.home
  within f k hf hk := by
    rw [hx.within f hf] at hk
    cases hk
  browses := hx.browses

/-- A file is plain. -/
lemma plain_file (name : gstr) (ops : spfs_file_ops) : (spfs_entity_file_create name ops).Plain :=
  ⟨spfs_entity_file_create_new name ops, nofun, nofun, rfl⟩

/-- A directory is plain if its `readdir` asks for no particular parent. -/
lemma plain_dir (name : gstr) (ops : spfs_dir_ops)
    (hops : ∀ f, ops.readdir = some f → f.home = none ∧ f.within = none) :
    (spfs_entity_dir_create (some name) ops).Plain where
  new := spfs_entity_dir_create_new (some name) ops
  home f hf := (hops f hf).1
  within f hf := (hops f hf).2
  browses := by
    unfold spfs_entity.browses
    split <;> rfl

/-- The rule for such an entity. -/
lemma spfs_entity.Plain.parentRule {h h' : Heap} {e : spfs_entity} {p : Ptr} (he : e.Plain)
    (ha : h.Alike h') (hp : p < h.fresh) (hbase : ∀ k : BrowseKind, p ≠ k.base)
    (hmusic : h.readdir p ≠ some .playlist_dir_music_readdir) : ParentRule h' e p where
  home f q hf hq := by
    rw [he.home f hf] at hq
    cases hq
  within f k hf hk := by
    rw [he.within f hf] at hk
    cases hk
  browse k := by
    rw [he.browses]
    exact iff_of_false (by simp) (hbase k)
  music hm := by
    rw [ha.readdir_eq hp] at hm
    exact absurd hm hmusic

/-- Only three pointers are those of the directories below `/browse`. -/
lemma ne_base {p : ℕ} (h : p < 3 ∨ 5 < p) : ∀ k : BrowseKind, p ≠ k.base
  | .track => show p ≠ 4 by omega
  | .artist => show p ≠ 3 by omega
  | .album => show p ≠ 5 by omega

/-- Such an entity, with such entries, is added to a directory. -/
lemma spfs_entity.Plain.add_new {h : Heap} {e : spfs_entity}
    (he : e.Plain) (hh : h.Tree ∧ h.Placed) (dir : Ptr) (entries : List spfs_entity)
    (hentries : ∀ x ∈ entries, x.Plain)
    (hdir : entries ≠ [] → e.e.children ≠ none)
    (hnum : dir < h.fresh ∧ (h.fresh < 3 ∨ 5 < h.fresh) ∧ (dir < 3 ∨ 5 < dir) ∧
      h.readdir dir ≠ some .playlist_dir_music_readdir) :
    (Spotifile.add_new h dir e entries).Tree ∧ (Spotifile.add_new h dir e entries).Placed := by
  obtain ⟨hlt, hfresh, hbase, hmusic⟩ := hnum
  have hm : e.readdir ≠ some .playlist_dir_music_readdir := fun hf => by cases he.home _ hf
  have ha := added_add_new hh.1 hh.2 he.new (fun x hx => (hentries x hx).mayHold e) hdir
    (Or.inl hm) (ne_base hfresh) hlt fun h' ha => he.parentRule ha hlt (ne_base hbase) hmusic
  exact ⟨ha.tree, ha.placed⟩

/-- The heap with the root alone. -/
lemma root_tree_placed {h : Heap} (hh : h = spfs_entity_root_create ⟨[], none⟩ ⟨none, none⟩) :
    h.Tree ∧ h.Placed := by
  have hget : ∀ p e, h.get p = some e → p = 0 ∧ e = spfs_entity_dir_create none ⟨none, none⟩ := by
    subst hh
    intro p e he
    rcases p with _ | p
    · exact ⟨rfl, (Option.some.inj he).symm⟩
    · cases he
  have hlookup : ∀ p key, h.lookup p key = none := by
    intro p key
    rw [Heap.lookup, Heap.children]
    rcases he : h.get p with _ | e
    · rfl
    · rw [(hget p e he).2]
      rfl
  have hparent : ∀ p, h.parent p = none := by
    intro p
    rw [Heap.parent]
    rcases he : h.get p with _ | e
    · rfl
    · rw [(hget p e he).2]
      rfl
  refine ⟨⟨by rw [hh]; rfl, by rw [hh]; decide, by rw [hh]; rfl, hparent 0, ?_, ?_, ?_, ?_⟩, ?_⟩
  · intro p table htable
    obtain ⟨e, he, htable⟩ := Option.bind_eq_some_iff.mp htable
    rw [(hget p e he).2] at htable
    obtain rfl := Option.some.inj htable
    exact List.nodup_nil
  · intro p key q hq
    rw [hlookup] at hq
    cases hq
  · intro q p hp
    rw [hparent] at hp
    cases hp
  · intro p name hname
    obtain ⟨e, he, hname⟩ := Option.bind_eq_some_iff.mp hname
    rw [(hget p e he).2] at hname
    cases hname
  · intro q e p he hp
    rw [(hget q e he).2] at hp
    cases hp

/-- What `spfs_init` builds is a tree, with its entities in their places. -/
lemma init_tree_placed : spfs_init_heap.Tree ∧ spfs_init_heap.Placed := by
  have hnone : ∀ name mkdir, (spfs_entity_dir_create (some name) ⟨none, mkdir⟩).Plain :=
    fun name mkdir => plain_dir name _ nofun
  have hsome : ∀ name f, f.home = none ∧ f.within = none →
      (spfs_entity_dir_create (some name) ⟨some f, none⟩).Plain :=
    fun name f hf => plain_dir name _ fun f' hf' => Option.some.inj hf' ▸ hf
  have hfile : (read_file "connection".toList .connection_read).Plain := plain_file _ _
  have hroot := root_tree_placed rfl
  have hconnection := hfile.add_new hroot 0 [] (by simp) (by simp) (by decide)
  have hbrowse := (hnone "browse".toList none).add_new hconnection 0
    (["artists".toList, "tracks".toList, "albums".toList].map fun name =>
      spfs_entity_dir_create (some name) ⟨none, none⟩)
    (by simp [hnone]) (fun _ => Option.some_ne_none _) (by decide)
  have hsearch := (hnone "search".toList (some .search_dir_mkdir)).add_new hbrowse 0 []
    (by simp) (by simp) (by decide)
  have hplaylists := (hnone "playlists".toList none).add_new hsearch 0 []
    (by simp) (by simp) (by decide)
  have hmeta := (hsome "meta".toList .playlists_meta_dir_readdir (by decide)).add_new hplaylists 7
    [] (by simp) (by simp) (by decide)
  exact (hsome "music".toList .playlists_music_dir_readdir (by decide)).add_new hmeta 7 []
    (by simp) (by simp) (by decide)

/-! ## Places -/

/-- The directory that holds the browse directory of a goal. -/
def Goal.dir : Goal → Ptr
  | .browse dir => dir
  | .wav dir => dir

namespace Heap.Placed

variable {h : Heap} (hp : h.Placed) (hh : h.Tree) (hg : spfs_init_heap.Grows h)

include hp hh hg

/-- The place of a directory that has its place through its kind. -/
lemma place_of_home {cs : List gstr} {q b : Ptr} {f : SpfsReaddirFunc} (hq : h.walk 0 cs = some q)
    (hf : h.readdir q = some f) (hhome : f.home = some b)
    (hplace : spfs_init_heap.walk 0 f.place = some b) :
    h.parent q = some b ∧ ∃ c, cs = f.place ++ [c] := by
  rcases hh.walk_cases hq with ⟨-, rfl⟩ | ⟨cs', c, p, rfl, hp', -, -, hparent, -⟩
  · rw [hg.alike.readdir_eq (by decide)] at hf
    cases hf
  · obtain ⟨e, he, hreaddir⟩ := Option.bind_eq_some_iff.mp hf
    have hrule := hp q e p he (by simpa [Heap.parent, he] using hparent)
    obtain rfl := hrule.home f b hreaddir hhome
    obtain rfl : cs' = f.place := hh.walk_inj hp' (hg.walk hplace)
    exact ⟨hparent, c, rfl⟩

/-- The place of a browse directory. -/
lemma place_of_browses {cs : List gstr} {q : Ptr} {k : BrowseKind} (hq : h.walk 0 cs = some q)
    (hk : h.browses q = some k) : ∃ c, cs = k.place ++ [c] := by
  rcases hh.walk_cases hq with ⟨-, rfl⟩ | ⟨cs', c, p, rfl, hp', -, -, hparent, -⟩
  · rw [hg.alike.browses_eq (by decide)] at hk
    cases hk
  · obtain ⟨e, he, hbrowses⟩ := Option.bind_eq_some_iff.mp hk
    have hrule := hp q e p he (by simpa [Heap.parent, he] using hparent)
    obtain rfl : p = k.base := (hrule.browse k).mp hbrowses
    have hbase : h.walk 0 k.place = some k.base := hg.walk (by cases k <;> decide)
    obtain rfl : cs' = k.place := hh.walk_inj hp' hbase
    exact ⟨c, rfl⟩

/-- The place of a directory in a browse directory. -/
lemma place_of_within {cs : List gstr} {q : Ptr} {f : SpfsReaddirFunc} {k : BrowseKind}
    (hq : h.walk 0 cs = some q) (hf : h.readdir q = some f) (hk : f.within = some k) :
    ∃ l c, cs = k.place ++ [l, c] := by
  rcases hh.walk_cases hq with ⟨-, rfl⟩ | ⟨cs', c, p, rfl, hp', -, -, hparent, -⟩
  · rw [hg.alike.readdir_eq (by decide)] at hf
    cases hf
  · obtain ⟨e, he, hreaddir⟩ := Option.bind_eq_some_iff.mp hf
    have hrule := hp q e p he (by simpa [Heap.parent, he] using hparent)
    obtain ⟨l, rfl⟩ := hp.place_of_browses hh hg hp' (hrule.within f k hreaddir hk)
    exact ⟨l, c, List.append_assoc _ _ _⟩

/-- The place of a directory that holds links. -/
lemma place_of_readdir {cs : List gstr} {q : Ptr} {f : SpfsReaddirFunc}
    (hq : h.walk 0 cs = some q) (hf : h.readdir q = some f) (hlinks : f.links ≠ none) :
    ∃ rest, cs = f.place ++ rest := by
  have hhome : ∀ b, f.home = some b → spfs_init_heap.walk 0 f.place = some b →
      ∃ rest, cs = f.place ++ rest := by
    intro b hb hplace
    obtain ⟨-, c, hcs⟩ := hp.place_of_home hh hg hq hf hb hplace
    exact ⟨[c], hcs⟩
  have hwithin : ∀ k : BrowseKind, f.within = some k → f.place = k.place →
      ∃ rest, cs = f.place ++ rest := by
    intro k hk hplace
    obtain ⟨l, c, hcs⟩ := hp.place_of_within hh hg hq hf hk
    exact ⟨[l, c], by rw [hplace, hcs]⟩
  cases f with
  | playlists_meta_dir_readdir => exact absurd rfl hlinks
  | playlists_music_dir_readdir => exact absurd rfl hlinks
  | playlist_dir_meta_readdir => exact hhome 8 rfl (by decide)
  | playlist_dir_music_readdir => exact hhome 9 rfl (by decide)
  | artists_readdir => exact hwithin .track rfl rfl
  | albums_readdir => exact hwithin .artist rfl rfl
  | portraits_readdir => exact absurd rfl hlinks
  | search_readdir => exact hhome 6 rfl (by decide)

/-- The place of what a link leads to. -/
lemma place_of_goal {cs : List gstr} {q : Ptr} {goal : Goal} {k : BrowseKind}
    (hq : h.walk 0 cs = some q) (hgoal : goal.entity h = some q)
    (hk : h.browses goal.dir = some k) : ∃ c rest, cs = k.place ++ c :: rest := by
  rcases goal with dir | dir
  · obtain rfl := Option.some.inj hgoal
    obtain ⟨c, rfl⟩ := hp.place_of_browses hh hg hq hk
    exact ⟨c, [], rfl⟩
  · obtain ⟨-, -, hparent⟩ := hh.entry dir _ q hgoal
    rcases hh.walk_cases hq with ⟨-, rfl⟩ | ⟨cs', c, p, rfl, hp', -, -, hparent', -⟩
    · rw [hh.root_parent] at hparent
      cases hparent
    · obtain rfl : p = dir := Option.some.inj (hparent'.symm.trans hparent)
      obtain ⟨l, rfl⟩ := hp.place_of_browses hh hg hp' hk
      exact ⟨l, [c], by simp⟩

/-- A directory with links is neither above nor below what its links lead to. -/
lemma not_prefix_of_links {cs ds : List gstr} {dir q : Ptr} {f : SpfsReaddirFunc} {goal : Goal}
    {k : BrowseKind} (hdir : h.walk 0 cs = some dir) (hf : h.readdir dir = some f)
    (hlinks : f.links = some k) (hq : h.walk 0 ds = some q) (hgoal : goal.entity h = some q)
    (hk : h.browses goal.dir = some k) : ¬ cs <+: ds ∧ ¬ ds <+: cs := by
  obtain ⟨rest, rfl⟩ := hp.place_of_readdir hh hg hdir hf (by simp [hlinks])
  obtain ⟨c, rest', rfl⟩ := hp.place_of_goal hh hg hq hgoal hk
  cases f <;> cases hlinks <;>
    simp [SpfsReaddirFunc.place, BrowseKind.place, List.cons_prefix_cons]

end Heap.Placed

end Spotifile
