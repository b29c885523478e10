import Spotifile.Audio
import Spotifile.Path

/-!
# Entities: `spfs_fuse_entity.c`

The file system is a graph of entities in the heap. A `Heap` is the list of all entities that were
ever created, and a pointer is the position in it; nothing is freed before the file system is
destroyed. `spfs_entity_dir_add_child` is the only function that links two entities.

A children table is a list of keys and pointers, in the order of insertion. Of an entity the stat
times are left out, which no function here reads, and of a file its `data`, which is never set.
-/

namespace Spotifile

/-! ## The data -/

/-- A pointer to an entity. -/
abbrev Ptr := ℕ

/-- The handles of libspotify. Only their identity matters. -/
abbrev sp_album := ℕ

/-- Source: libspotify's `sp_artist`. -/
abbrev sp_artist := ℕ

/-- Source: libspotify's `sp_artistbrowse`. -/
abbrev sp_artistbrowse := ℕ

/-- Source: libspotify's `sp_playlist`. -/
abbrev sp_playlist := ℕ

/-- Source: libspotify's `sp_search`. -/
abbrev sp_search := ℕ

/-- Source: libspotify's `sp_image`. -/
abbrev sp_image := ℕ

/-- What `auxdata` points to. The functions that create an `sp_artistbrowse` or an `sp_image` may
give NULL. -/
inductive Auxdata
  | track (track : sp_track)
  | playlist (playlist : sp_playlist)
  | artistbrowse (artistbrowse : Option sp_artistbrowse)
  | album (album : sp_album)
  | image (image : Option sp_image)
  | search (search : sp_search)
deriving DecidableEq, Repr

/-- The functions that serve as `read` of a file. Three source files each have a `name_read`.
Source: `spfs_fuse_entity.h`, `SpfsReadFunc`. -/
inductive SpfsReadFunc
  | connection_read | xspf_read | wav_read
  | track_name_read | duration_read | popularity_read | index_read | disc_read | is_starred_read
  | is_local_read | is_autolinked_read | offlinestatus_read
  | artist_name_read | biography_read | portrait_read
  | album_name_read | cover_read
deriving DecidableEq, Repr

/-- The functions that serve as `readdir` of a directory.
Source: `spfs_fuse_entity.h`, `SpfsReaddirFunc`. -/
inductive SpfsReaddirFunc
  | playlists_meta_dir_readdir | playlists_music_dir_readdir
  | playlist_dir_meta_readdir | playlist_dir_music_readdir
  | artists_readdir | albums_readdir | portraits_readdir | search_readdir
deriving DecidableEq, Repr

/-- The functions that serve as `mkdir` of a directory.
Source: `spfs_fuse_entity.h`, `SpfsMkdirFunc`. -/
inductive SpfsMkdirFunc
  | search_dir_mkdir
deriving DecidableEq, Repr

/-- `wav_open` and `wav_release` come together.
Source: `spfs_fuse_entity.h`, `struct spfs_file_ops`. -/
structure spfs_file_ops where
  read : Option SpfsReadFunc
  wav : Bool
deriving DecidableEq, Repr

/-- Source: `spfs_fuse_entity.h`, `struct spfs_dir_ops`. -/
structure spfs_dir_ops where
  readdir : Option SpfsReaddirFunc
  mkdir : Option SpfsMkdirFunc
deriving DecidableEq, Repr

/-- The union of an entity, with its `type`.
Source: `spfs_fuse_entity.h`, `struct spfs_entity`. -/
inductive EntityData
  | file (ops : spfs_file_ops) (size : ℕ)
  | dir (ops : spfs_dir_ops) (children : List (gstr × Ptr))
  | link (target : gstr)
deriving DecidableEq, Repr

/-- The children table; only a directory has one. -/
def EntityData.children : EntityData → Option (List (gstr × Ptr))
  | .dir _ children => some children
  | _ => none

/-- Source: `spfs_fuse_entity.h`, `struct spfs_entity`. -/
structure spfs_entity where
  name : Option gstr
  parent : Option Ptr
  auxdata : Option Auxdata
  refs : ℕ
  e : EntityData
deriving DecidableEq, Repr

/-- All entities, and the static variable `spfs_root`. -/
structure Heap where
  cells : List spfs_entity
  spfs_root : Option Ptr
deriving DecidableEq, Repr

namespace Heap

/-- The entity at a pointer. -/
def get (h : Heap) (p : Ptr) : Option spfs_entity := h.cells[p]?

/-- The heap after a write to an entity. -/
def modify (h : Heap) (p : Ptr) (f : spfs_entity → spfs_entity) : Heap :=
  { h with cells := h.cells.modify p f }

/-- The pointer to a new entity. -/
def fresh (h : Heap) : Ptr := h.cells.length

/-- The heap with a new entity. -/
def alloc (h : Heap) (e : spfs_entity) : Heap := { h with cells := h.cells ++ [e] }

/-- The new entity is at the first free pointer, and the others stay where they are. -/
lemma get_alloc (h : Heap) (e : spfs_entity) (p : Ptr) :
    (h.alloc e).get p = if p = h.fresh then some e else h.get p := by
  rcases Nat.lt_trichotomy p h.fresh with hlt | rfl | hgt
  · rw [if_neg hlt.ne]
    exact List.getElem?_append_left hlt
  · simp [get, alloc, fresh]
  · rw [if_neg hgt.ne']
    have h₁ : (h.cells ++ [e]).length ≤ p := by
      rw [List.length_append]
      exact hgt
    have h₂ : h.cells.length ≤ p := hgt.le
    rw [get, get, alloc, List.getElem?_eq_none h₁, List.getElem?_eq_none h₂]

/-- Only the entity at the pointer is changed. -/
lemma get_modify (h : Heap) (p q : Ptr) (f : spfs_entity → spfs_entity) :
    (h.modify p f).get q = if p = q then (h.get q).map f else h.get q := by
  simp only [get, modify, List.getElem?_modify]
  by_cases hpq : p = q
  · simp [hpq]
  · simp [hpq]

/-- From the first free pointer on there is nothing. -/
lemma get_eq_none_of_fresh_le {h : Heap} {p : Ptr} (hp : h.fresh ≤ p) : h.get p = none :=
  List.getElem?_eq_none hp

/-- What is there is before the first free pointer. -/
lemma lt_fresh_of_get {h : Heap} {p : Ptr} {e : spfs_entity} (hp : h.get p = some e) :
    p < h.fresh := by
  by_contra hlt
  rw [get_eq_none_of_fresh_le (Nat.le_of_not_lt hlt)] at hp
  cases hp

/-- Before the first free pointer there is always an entity. -/
lemma exists_get_of_lt {h : Heap} {p : Ptr} (hp : p < h.fresh) : ∃ e, h.get p = some e :=
  ⟨_, List.getElem?_eq_getElem hp⟩

/-- A new entity takes one pointer. -/
@[simp] lemma fresh_alloc (h : Heap) (e : spfs_entity) : (h.alloc e).fresh = h.fresh + 1 := by
  simp [fresh, alloc]

/-- A change of an entity takes no pointer. -/
@[simp] lemma fresh_modify (h : Heap) (p : Ptr) (f : spfs_entity → spfs_entity) :
    (h.modify p f).fresh = h.fresh := by
  simp [fresh, modify]

/-- The children table of a directory. -/
def children (h : Heap) (p : Ptr) : Option (List (gstr × Ptr)) :=
  (h.get p).bind fun e => e.e.children

/-- The name of an entity. -/
def name (h : Heap) (p : Ptr) : Option gstr := (h.get p).bind spfs_entity.name

/-- The parent of an entity. -/
def parent (h : Heap) (p : Ptr) : Option Ptr := (h.get p).bind spfs_entity.parent

/-- Source: glib's `g_hash_table_lookup`, on the children of a directory. -/
def lookup (h : Heap) (dir : Ptr) (key : gstr) : Option Ptr :=
  (h.children dir).bind fun children => children.lookup key

/-- The tables after a new entity was created. -/
@[simp] lemma children_alloc (h : Heap) (e : spfs_entity) (p : Ptr) :
    (h.alloc e).children p = if p = h.fresh then e.e.children else h.children p := by
  rw [children, get_alloc]
  split <;> rfl

/-- A change that keeps the table of its entity keeps all tables. -/
lemma children_modify {f : spfs_entity → spfs_entity} (h : Heap) (p q : Ptr)
    (hf : ∀ e, (f e).e.children = e.e.children) : (h.modify p f).children q = h.children q := by
  rw [children, get_modify]
  split
  · rw [Option.bind_map]
    exact congrArg _ (funext hf)
  · rfl

/-- The names after a new entity was created. -/
@[simp] lemma name_alloc (h : Heap) (e : spfs_entity) (p : Ptr) :
    (h.alloc e).name p = if p = h.fresh then e.name else h.name p := by
  rw [name, get_alloc]
  split <;> rfl

/-- The parents after a new entity was created. -/
@[simp] lemma parent_alloc (h : Heap) (e : spfs_entity) (p : Ptr) :
    (h.alloc e).parent p = if p = h.fresh then e.parent else h.parent p := by
  rw [parent, get_alloc]
  split <;> rfl

/-- A change that keeps the parent of its entity keeps all parents. -/
lemma parent_modify {f : spfs_entity → spfs_entity} (h : Heap) (p q : Ptr)
    (hf : ∀ e, (f e).parent = e.parent) : (h.modify p f).parent q = h.parent q := by
  rw [parent, get_modify]
  split
  · rw [Option.bind_map]
    exact congrArg _ (funext hf)
  · rfl

/-- A change that keeps the name of its entity keeps all names. -/
lemma name_modify {f : spfs_entity → spfs_entity} (h : Heap) (p q : Ptr)
    (hf : ∀ e, (f e).name = e.name) : (h.modify p f).name q = h.name q := by
  rw [name, get_modify]
  split
  · rw [Option.bind_map]
    exact congrArg _ (funext hf)
  · rfl

end Heap

/-! ## Creation -/

/-- Source: `spfs_fuse_entity.c`, `spfs_entity_create`. -/
def spfs_entity_create (name : Option gstr) (e : EntityData) : spfs_entity where
  name := name.map spfs_sanitize_name
  parent := none
  auxdata := none
  refs := 0
  e := e

/-- Source: `spfs_fuse_entity.c`, `spfs_entity_file_create`. -/
def spfs_entity_file_create (name : gstr) (ops : spfs_file_ops) : spfs_entity :=
  spfs_entity_create (some name) (.file ops 0)

/-- Source: `spfs_fuse_entity.c`, `spfs_entity_dir_create`. -/
def spfs_entity_dir_create (name : Option gstr) (ops : spfs_dir_ops) : spfs_entity :=
  spfs_entity_create name (.dir ops [])

/-- The target of a new link is its own name.
Source: `spfs_fuse_entity.c`, `spfs_entity_link_create`. -/
def spfs_entity_link_create (name : gstr) : spfs_entity :=
  spfs_entity_create (some name) (.link (spfs_sanitize_name name))

/-- Source: `spfs_fuse_entity.c`, `spfs_entity_root_create`. -/
def spfs_entity_root_create (h : Heap) (ops : spfs_dir_ops) : Heap :=
  if h.spfs_root = none then
    { h.alloc (spfs_entity_dir_create none ops) with spfs_root := some h.fresh }
  else h

/-! ## Children -/

/-- Source: glib's `g_hash_table_insert`. -/
def g_hash_table_insert (table : List (gstr × Ptr)) (key : gstr) (value : Ptr) :
    List (gstr × Ptr) :=
  if (table.lookup key).isSome then
    table.map fun entry => if entry.1 = key then (entry.1, value) else entry
  else table ++ [(key, value)]

/-- Source: `spfs_fuse_entity.c`, `spfs_entity_dir_get_child`. -/
def spfs_entity_dir_get_child (h : Heap) (dir : Ptr) (name : gstr) : Option Ptr :=
  h.lookup dir (spfs_sanitize_name name)

/-- Source: `spfs_fuse_entity.c`, `spfs_entity_dir_has_child`. -/
def spfs_entity_dir_has_child (h : Heap) (dir : Ptr) (name : gstr) : Bool :=
  (spfs_entity_dir_get_child h dir name).isSome

/-- A directory with one more entry in its table. -/
def spfs_entity.insert_child (name : gstr) (child : Ptr) (e : spfs_entity) : spfs_entity :=
  match e.e with
  | .dir ops children => { e with e := .dir ops (g_hash_table_insert children name child) }
  | _ => e

/-- The heap after the two writes of `spfs_entity_dir_add_child`. -/
def Heap.link_child (h : Heap) (parent child : Ptr) (name : gstr) : Heap :=
  (h.modify child fun e => { e with parent := some parent }).modify parent
    (spfs_entity.insert_child name child)

/-- Source: `spfs_fuse_entity.c`, `spfs_entity_dir_add_child`. -/
def spfs_entity_dir_add_child (h : Heap) (parent child : Ptr) : Heap :=
  match h.name child with
  | none => h
  | some name =>
    if (h.children parent).isNone then h
    else if name = [] then h
    else if spfs_entity_dir_has_child h parent name then h
    else h.link_child parent child name

/-- A new key comes last. -/
lemma g_hash_table_insert_of_free {table : List (gstr × Ptr)} {key : gstr} (value : Ptr)
    (h : table.lookup key = none) :
    g_hash_table_insert table key value = table ++ [(key, value)] := by
  rw [g_hash_table_insert, h, if_neg (by simp)]

/-- The keys stay distinct. -/
lemma nodup_g_hash_table_insert {table : List (gstr × Ptr)} {key : gstr} (value : Ptr)
    (hnodup : (table.map Prod.fst).Nodup) (h : table.lookup key = none) :
    ((g_hash_table_insert table key value).map Prod.fst).Nodup := by
  rw [g_hash_table_insert_of_free value h, List.map_append]
  refine List.nodup_append.mpr ⟨hnodup, by simp, ?_⟩
  intro k hk k' hk' heq
  obtain ⟨entry, hentry, rfl⟩ := List.mem_map.mp hk
  obtain rfl := List.mem_singleton.mp hk'
  have hne := List.lookup_eq_none_iff.mp h entry hentry
  simp [heq] at hne

/-- An insertion adds the one entry at most. -/
lemma mem_g_hash_table_insert {table : List (gstr × Ptr)} {key : gstr} {value : Ptr}
    {entry : gstr × Ptr} (h : entry ∈ g_hash_table_insert table key value) :
    entry ∈ table ∨ entry = (key, value) := by
  unfold g_hash_table_insert at h
  split at h
  · obtain ⟨old, hold, rfl⟩ := List.mem_map.mp h
    by_cases hkey : old.1 = key
    · right
      rw [if_pos hkey, hkey]
    · left
      rw [if_neg hkey]
      exact hold
  · rcases List.mem_append.mp h with hmem | hmem
    · exact Or.inl hmem
    · exact Or.inr (List.mem_singleton.mp hmem)

/-- A directory keeps its name when it gets a child. -/
@[simp] lemma name_insert_child (name : gstr) (child : Ptr) (e : spfs_entity) :
    (e.insert_child name child).name = e.name := by
  unfold spfs_entity.insert_child
  split <;> rfl

/-- A directory keeps its parent when it gets a child. -/
@[simp] lemma parent_insert_child (name : gstr) (child : Ptr) (e : spfs_entity) :
    (e.insert_child name child).parent = e.parent := by
  unfold spfs_entity.insert_child
  split <;> rfl

/-- Of a directory that gets a child the table grows, anything else stays without one. -/
lemma children_insert_child (name : gstr) (child : Ptr) (e : spfs_entity) :
    (e.insert_child name child).e.children =
      e.e.children.map fun children => g_hash_table_insert children name child := by
  rcases e with ⟨_, _, _, _, _ | _ | _⟩ <;> rfl

/-- What `spfs_entity_dir_add_child` can do: refuse, or link the two entities. -/
lemma spfs_entity_dir_add_child_cases (h : Heap) (parent child : Ptr) :
    spfs_entity_dir_add_child h parent child = h ∨
    ∃ name children, h.name child = some name ∧ h.children parent = some children ∧ name ≠ [] ∧
      spfs_entity_dir_has_child h parent name = false ∧
      spfs_entity_dir_add_child h parent child = h.link_child parent child name := by
  unfold spfs_entity_dir_add_child
  rcases h.name child with _ | name
  · exact Or.inl rfl
  · rcases h.children parent with _ | children
    · exact Or.inl rfl
    · by_cases hnil : name = []
      · exact Or.inl (by simp [hnil])
      · rcases hhas : spfs_entity_dir_has_child h parent name with _ | _
        · exact Or.inr ⟨name, children, rfl, rfl, hnil, hhas, by simp [hnil, hhas]⟩
        · exact Or.inl (by simp [hhas])

section LinkChild

variable (h : Heap) (parent child : Ptr) (name : gstr) (p : Ptr)

/-- To link a child takes no pointer. -/
@[simp] lemma fresh_link_child : (h.link_child parent child name).fresh = h.fresh := by
  simp [Heap.link_child]

/-- To link a child changes no name. -/
lemma name_link_child : (h.link_child parent child name).name p = h.name p := by
  rw [Heap.link_child, Heap.name_modify _ _ _ fun e => name_insert_child name child e]
  exact Heap.name_modify h child p fun _ => rfl

/-- To link a child changes the parent of the child only. -/
lemma parent_link_child :
    (h.link_child parent child name).parent p =
      if child = p then (h.get p).map fun _ => parent else h.parent p := by
  rw [Heap.link_child, Heap.parent_modify _ _ _ fun e => parent_insert_child name child e,
    Heap.parent, Heap.get_modify]
  split
  · cases h.get p <;> rfl
  · rfl

/-- The tables afterwards. -/
lemma children_link_child :
    (h.link_child parent child name).children p =
      if parent = p then (h.children p).map fun children => g_hash_table_insert children name child
      else h.children p := by
  have hset : (h.modify child fun e => { e with parent := some parent }).children p =
      h.children p := Heap.children_modify h child p fun _ => rfl
  rw [← hset, Heap.link_child, Heap.children, Heap.get_modify]
  split
  · rw [Option.bind_map, Heap.children, Option.map_bind]
    exact congrArg _ (funext fun e => children_insert_child name child e)
  · rfl

end LinkChild

/-- Source: `spfs_fuse_entity.c`, `spfs_entity_link_set_target`. -/
def spfs_entity_link_set_target (h : Heap) (link : Ptr) (target : Option gstr) : Heap :=
  match target with
  | none => h
  | some target => h.modify link fun e =>
    match e.e with
    | .link _ => { e with e := .link target }
    | _ => e

/-! ## Paths -/

/-- Source: `linux/limits.h`. -/
def PATH_MAX : ℕ := 4096

/-- Source: `errno.h`. -/
def ENOENT : ℤ := 2

/-- Source: `errno.h`. -/
def EACCES : ℤ := 13

/-- Source: `errno.h`. -/
def EBUSY : ℤ := 16

/-- Source: `errno.h`. -/
def EEXIST : ℤ := 17

/-- Source: `errno.h`. -/
def EINVAL : ℤ := 22

/-- Source: glib's `g_strlcat`. -/
def g_strlcat (dest src : gstr) (size : ℕ) : gstr := (dest ++ src).take (size - 1)

/-- The names on the way from an entity up to the one without a parent. A way that does not go
round in a circle has at most as many entities as there are in the heap.
Source: `spfs_fuse_entity.c`, `spfs_entity_get_full_path`. -/
def path_elems (h : Heap) : ℕ → Option Ptr → List gstr
  | 0, _ => []
  | _, none => []
  | fuel + 1, some p =>
    match h.get p with
    | none => []
    | some e => e.name.toList ++ path_elems h fuel e.parent

/-- Source: `spfs_fuse_entity.c`, `spfs_entity_get_full_path`. -/
def spfs_entity_get_full_path (h : Heap) (p : Ptr) : Option gstr :=
  match h.get p with
  | none => none
  | some e =>
    if e.name = none then
      if h.spfs_root = some p then some ['/'] else none
    else
      some ((path_elems h h.fresh (some p)).reverse.foldl
        (fun path el => g_strlcat (g_strlcat path ['/'] PATH_MAX) el PATH_MAX) [])

/-- Source: `spfs_fuse_entity.c`, `relpath`. -/
def relpath (h : Heap) (src : Ptr) (dst : Option Ptr) : Option gstr :=
  spfs_path_get_relative_path (spfs_entity_get_full_path h src)
    (dst.bind (spfs_entity_get_full_path h))

/-- The loop that skips leading empty elements.
Source: `spfs_fuse_entity.c`, `spfs_entity_find_path`. -/
def skip_leading : List gstr → List gstr
  | [] :: el :: elems => skip_leading (el :: elems)
  | elems => elems

/-- The loop that skips the empty elements that follow the current one.
Source: `spfs_fuse_entity.c`, `spfs_entity_find_path`. -/
def skip_trailing (elems : List gstr) : List gstr := elems.dropWhile (· = [])

/-- The `while` of `spfs_entity_find_path`, on the elements that are left. Every iteration takes
one element at least, so the number of elements bounds the iterations.
Source: `spfs_fuse_entity.c`, `spfs_entity_find_path`. -/
def find_path_loop (h : Heap) : ℕ → List gstr → Option Ptr → Option Ptr
  | fuel + 1, elems, some found =>
    match skip_leading elems with
    | [] => some found
    | cur_el :: rest =>
      if skip_trailing rest = [] ∧ h.name found = some cur_el then some found
      else find_path_loop h fuel (skip_trailing rest) (h.lookup found cur_el)
  | _, _, found => found

/-- Source: `spfs_fuse_entity.c`, `spfs_entity_find_path`. -/
def spfs_entity_find_path (h : Heap) (root : Ptr) (path : gstr) : Option Ptr :=
  if path = [] then none
  else if path = ['/'] then some root
  else
    let elems := path.splitOn '/'
    find_path_loop h elems.length elems (some root)

end Spotifile
