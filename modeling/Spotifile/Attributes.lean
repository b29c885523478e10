import Spotifile.FuseSystem
import Spotifile.Playlist

/-!
# What FUSE is told about an entity

`spfs_getattr`, `spfs_access`, `spfs_readlink`, and what `spfs_readdir` reports of a directory once
the `readdir` of the directory has made its entries.

Two results about all states that are reached. `handlers_agree`: for every path, the handlers agree
on whether there is something and on what it is, and `spfs_access` on what its mode allows; but
`spfs_open` opens directories as well, and C does not define what it does with a link.
`listing_agrees`: a directory reports `.` and `..` and then its entries, once each; what it reports
of an entry is what `spfs_getattr` says of its path, and each entry is still there in every later
state, with the same mode. The entry with the name of the directory itself is left out: of its path
`spfs_getattr` finds the directory.

The times of the entities are no part of the tree: they are given by a function.
-/

namespace Spotifile.Fuse

open Lib

/-! ## Modes -/

/-- Source: `sys/stat.h`. -/
def S_IFREG : ℕ := 0o100000

/-- Source: `sys/stat.h`. -/
def S_IFDIR : ℕ := 0o040000

/-- Source: `sys/stat.h`. -/
def S_IFLNK : ℕ := 0o120000

/-- Source: `sys/stat.h`. -/
def S_IFMT : ℕ := 0o170000

/-- Source: `sys/stat.h`. -/
def S_IRUSR : ℕ := 0o400

/-- Source: `sys/stat.h`. -/
def S_IXUSR : ℕ := 0o100

/-- Source: `sys/stat.h`. -/
def S_IRGRP : ℕ := 0o40

/-- Source: `sys/stat.h`. -/
def S_IRWXU : ℕ := 0o700

/-- Source: `sys/stat.h`. -/
def S_IRWXG : ℕ := 0o70

/-- Source: `sys/stat.h`. -/
def S_IRWXO : ℕ := 0o7

/-- Source: `unistd.h`. -/
def F_OK : ℕ := 0

/-- Source: `unistd.h`. -/
def X_OK : ℕ := 1

/-- Source: `unistd.h`. -/
def W_OK : ℕ := 2

/-- Source: `unistd.h`. -/
def R_OK : ℕ := 4

/-! ## The handlers -/

/-- Source: `spfs_fuse_entity.h`, `struct stat_times`. -/
structure stat_times where
  ctime : ℤ
  atime : ℤ
  mtime : ℤ
deriving DecidableEq, Repr

/-- The fields that are written.
Source: `sys/stat.h`, `struct stat`. -/
structure stat where
  st_mode : ℕ
  st_size : ℕ
  st_uid : ℕ
  st_ctime : ℤ
  st_mtime : ℤ
  st_atime : ℤ
deriving DecidableEq, Repr

/-- After the `memset`. -/
def stat.zero : stat := ⟨0, 0, 0, 0, 0, 0⟩

/-- The target of a link is never NULL. `uid` is what `getuid` gives.
Source: `spfs_fuse_entity.c`, `spfs_entity_stat`. -/
def spfs_entity_stat (uid : ℕ) (times : stat_times) (e : spfs_entity) (statbuf : stat) : stat :=
  let statbuf :=
    match e.e with
    | .dir _ _ => { statbuf with st_mode := S_IFDIR ||| S_IRUSR ||| S_IXUSR }
    | .file _ size =>
      { statbuf with st_mode := S_IFREG ||| S_IRUSR ||| S_IRGRP, st_size := size }
    | .link target =>
      { statbuf with
        st_mode := S_IFLNK ||| S_IRWXU ||| S_IRWXG ||| S_IRWXO
        st_size := target.length }
  { statbuf with
    st_uid := uid
    st_ctime := if times.ctime ≠ 0 then times.ctime else statbuf.st_ctime
    st_mtime := if times.mtime ≠ 0 then times.mtime else statbuf.st_mtime
    st_atime := if times.atime ≠ 0 then times.atime else statbuf.st_atime }

/-- Source: `string.h`, `strncpy`. -/
def strncpy (dest src : gstr) (n : ℕ) : gstr :=
  src.take n ++ List.replicate (n - src.length) '\x00' ++ dest.drop n

section Handlers

variable (h : Heap)

/-- The entity at an absolute path. -/
def find_entity (path : gstr) : Option Ptr :=
  h.spfs_root.bind fun root => Spotifile.spfs_entity_find_path h root path

/-- Source: `spfs_fuse.c`, `spfs_getattr`. -/
def spfs_getattr (uid : ℕ) (times : Ptr → stat_times) (path : gstr) : Option (ℤ × stat) :=
  match find_entity h path with
  | some p => do
    let e ← h.get p
    some (0, spfs_entity_stat uid (times p) e .zero)
  | none => some (-ENOENT, .zero)

/-- Source: `spfs_fuse.c`, `spfs_access`. -/
def spfs_access (path : gstr) (mask : ℕ) : Option ℤ :=
  match find_entity h path with
  | none => some (-ENOENT)
  | some p => do
    let e ← h.get p
    if mask = F_OK then some 0
    else if mask &&& W_OK ≠ 0 then some (-EACCES)
    else if mask &&& X_OK ≠ 0 ∧ e.file_ops.isSome then some (-EACCES)
    else if mask &&& R_OK ≠ 0 ∨ mask &&& X_OK ≠ 0 then some 0
    else some (-EINVAL)

/-- What is returned, and what is then in the buffer.
Source: `spfs_fuse.c`, `spfs_readlink`. -/
def spfs_readlink (path buf : gstr) (len : ℕ) : Option (ℤ × gstr) :=
  match find_entity h path with
  | none => some (-ENOENT, buf)
  | some p => do
    let e ← h.get p
    match e.target with
    | none => some (-ENOENT, buf)
    | some target => some (0, strncpy buf target len)

/-- The calls of `filler`.
Source: `spfs_fuse.c`, `fill_dir_children`. -/
def fill_dir_children (uid : ℕ) (times : Ptr → stat_times) (order : HashOrder) (dir : Ptr) :
    Option (List (gstr × stat)) := do
  let children ← h.children dir
  (order.order children).mapM fun entry => do
    let child ← h.get entry.2
    some (entry.1, spfs_entity_stat uid (times entry.2) child .zero)

/-- What is returned, and the calls of `filler`: the names, with attributes where there are any. All
`readdir` functions return 0; what they do to the tree is in `Spotifile.spfs_readdir`.
Source: `spfs_fuse.c`, `spfs_readdir`. -/
def spfs_readdir (uid : ℕ) (times : Ptr → stat_times) (order : HashOrder) (fi : fuse_file_info) :
    Option (ℤ × List (gstr × Option stat)) :=
  match fi.fh with
  | none => some (-ENOENT, [])
  | some p => do
    let e ← h.get p
    if e.e.children = none then some (-ENOENT, [])
    else do
      let children ← fill_dir_children h uid times order p
      some (0, (".".toList, none) :: ("..".toList, none) ::
        children.map fun child => (child.1, some child.2))

end Handlers

/-! ## One story -/

/-- What is found is an entity. -/
lemma exists_get_of_find {h : Heap} (hh : h.Tree) {path : gstr} {p : Ptr}
    (hp : find_entity h path = some p) : ∃ e, h.get p = some e := by
  rw [find_entity, hh.root, Option.bind_some] at hp
  obtain ⟨cs, hcs⟩ := exists_walk_of_find_path (Heap.walk_nil h 0) hp
  exact Heap.exists_get_of_lt (hh.lt_fresh_of_walk hcs)

/-- The bits that `spfs_access` is asked for, as the owner's bits of a mode. -/
def requested (mask : ℕ) : ℕ := mask <<< 6

/-- The handlers say that there is nothing. -/
structure Nothing (s : Served) (uid : ℕ) (times : Ptr → stat_times) (path : gstr) : Prop where
  getattr : spfs_getattr s.mount.heap uid times path = some (-ENOENT, .zero)
  access : ∀ mask, spfs_access s.mount.heap path mask = some (-ENOENT)
  readlink : ∀ buf len, spfs_readlink s.mount.heap path buf len = some (-ENOENT, buf)
  opens : ∀ fi, spfs_open path fi s.handles = some ((-ENOENT, fi), s.handles)
  opendir : ∀ fi, spfs_opendir path fi s.handles = some ((-ENOENT, fi), s.handles)

/-- The handlers say that there is the entity `p`, of this mode and size. Only `spfs_open` does not
look at the type: it opens directories, and of a link it reads beyond the operations. -/
structure Something (s : Served) (uid : ℕ) (times : Ptr → stat_times) (path : gstr) (p : Ptr)
    (st : stat) : Prop where
  found : find_entity s.mount.heap path = some p
  getattr : spfs_getattr s.mount.heap uid times path = some (0, st)
  access : ∀ mask, 0 < mask → mask < 8 → ∃ r, spfs_access s.mount.heap path mask = some r ∧
    (r = 0 ↔ mask &&& W_OK = 0 ∧ requested mask &&& st.st_mode = requested mask)
  readlink : ∀ buf len, ∃ r buf', spfs_readlink s.mount.heap path buf len = some (r, buf') ∧
    (r = 0 ↔ st.st_mode &&& S_IFMT = S_IFLNK) ∧
    (r = 0 → ∃ target, s.mount.heap.target p = some target ∧ target.length = st.st_size ∧
      (st.st_size < len → target ++ ['\x00'] <+: buf'))
  defined : ∀ fi, spfs_open path fi s.handles ≠ none ↔ st.st_mode &&& S_IFMT ≠ S_IFLNK
  opens : ∀ fi r fi' s', spfs_open path fi s.handles = some ((r, fi'), s') →
    r = 0 ∧ fi'.fh = some p ∨
      r = -EBUSY ∧ st.st_mode &&& S_IFMT = S_IFREG ∧ s.music_playing = true ∧ fi'.fh = none
  opendir : ∀ fi, ∃ r fi' s', spfs_opendir path fi s.handles = some ((r, fi'), s') ∧
    (r = 0 ↔ st.st_mode &&& S_IFMT = S_IFDIR)

/-- What `spfs_access` says of the three kinds of entities. -/
lemma access_iff {e : spfs_entity} (uid : ℕ) (times : stat_times) {mask : ℕ} (hpos : 0 < mask)
    (hlt : mask < 8) :
    ((if mask = F_OK then 0
      else if mask &&& W_OK ≠ 0 then -EACCES
      else if mask &&& X_OK ≠ 0 ∧ e.file_ops.isSome then -EACCES
      else if mask &&& R_OK ≠ 0 ∨ mask &&& X_OK ≠ 0 then 0
      else -EINVAL) = 0) ↔
    mask &&& W_OK = 0 ∧
      requested mask &&& (spfs_entity_stat uid times e .zero).st_mode = requested mask := by
  have hmask : mask = 1 ∨ mask = 2 ∨ mask = 3 ∨ mask = 4 ∨ mask = 5 ∨ mask = 6 ∨ mask = 7 := by
    omega
  rcases e with ⟨_, _, _, _, _ | _ | _⟩ <;>
    simp only [spfs_entity_stat, spfs_entity.file_ops, Option.isSome_some, Option.isSome_none] <;>
    rcases hmask with rfl | rfl | rfl | rfl | rfl | rfl | rfl <;>
    simp [F_OK, X_OK, W_OK, R_OK, EACCES, requested, S_IFREG, S_IFDIR, S_IFLNK, S_IRUSR,
      S_IXUSR, S_IRGRP, S_IRWXU, S_IRWXG, S_IRWXO]

/-- Where there is room, the whole string is copied, with its NUL. -/
lemma prefix_strncpy {dest src : gstr} {n : ℕ} (hlt : src.length < n) :
    src ++ ['\x00'] <+: strncpy dest src n := by
  obtain ⟨k, hk⟩ : ∃ k, n - src.length = k + 1 := ⟨n - src.length - 1, by omega⟩
  rw [strncpy, List.take_of_length_le hlt.le, hk, List.replicate_succ]
  exact ⟨List.replicate k '\x00' ++ dest.drop n, by simp⟩

/-- Where nothing is found, all handlers say so. -/
lemma nothing_at {s : Served} {path : gstr} (uid : ℕ) (times : Ptr → stat_times)
    (hp : find_entity s.mount.heap path = none) : Nothing s uid times path where
  getattr := by rw [spfs_getattr, hp]
  access mask := by rw [spfs_access, hp]
  readlink buf len := by rw [spfs_readlink, hp]
  opens fi := by rw [spfs_open, show s.handles.find path = none from hp]
  opendir fi := by rw [spfs_opendir, show s.handles.find path = none from hp]

section Found

variable {h : Heap} {s : Handles} {path : gstr} {p : Ptr} {e : spfs_entity}

/-- What `spfs_readlink` says of the three kinds of entities. -/
lemma spfs_readlink_found (uid : ℕ) (times : stat_times) (hp : find_entity h path = some p)
    (he : h.get p = some e) (buf : gstr) (len : ℕ) :
    ∃ r buf', spfs_readlink h path buf len = some (r, buf') ∧
      (r = 0 ↔ (spfs_entity_stat uid times e .zero).st_mode &&& S_IFMT = S_IFLNK) ∧
      (r = 0 → ∃ target, h.target p = some target ∧
        target.length = (spfs_entity_stat uid times e .zero).st_size ∧
        ((spfs_entity_stat uid times e .zero).st_size < len → target ++ ['\x00'] <+: buf')) := by
  have htarget : h.target p = e.target := by rw [Heap.target, he, Option.bind_some]
  rw [spfs_readlink, hp, htarget]
  simp only [he, Option.bind_eq_bind, Option.bind_some]
  rcases e with ⟨_, _, _, _, _ | _ | target⟩
  · exact ⟨_, _, rfl, by simp [spfs_entity_stat, ENOENT]; decide, by simp [ENOENT]⟩
  · exact ⟨_, _, rfl, by simp [spfs_entity_stat, ENOENT]; decide, by simp [ENOENT]⟩
  · refine ⟨_, _, rfl, by simp [spfs_entity_stat]; decide, fun _ => ?_⟩
    exact ⟨target, rfl, rfl, fun hlt => prefix_strncpy hlt⟩

/-- `spfs_open` reads the operations of a file, which only a link does not reach to. -/
lemma spfs_open_found_iff (uid : ℕ) (times : stat_times) (hp : s.find path = some p)
    (he : s.heap.get p = some e) (fi : fuse_file_info) :
    spfs_open path fi s ≠ none ↔
      (spfs_entity_stat uid times e .zero).st_mode &&& S_IFMT ≠ S_IFLNK := by
  rw [spfs_open, hp]
  simp only [he, Option.bind_eq_bind, Option.bind_some]
  rcases e with ⟨_, _, _, _, _ | _ | _⟩
  · refine iff_of_true ?_ (by simp only [spfs_entity_stat]; decide)
    simp only [spfs_entity.open_hook, Option.bind_some]
    split_ifs <;> exact Option.some_ne_none _
  · refine iff_of_true ?_ (by simp only [spfs_entity_stat]; decide)
    exact Option.some_ne_none _
  · exact iff_of_false (by simp [spfs_entity.open_hook]) (by simp only [spfs_entity_stat]; decide)

/-- An open gives a handle of what was found, or is refused for a WAV file. -/
lemma spfs_open_found (uid : ℕ) (times : stat_times) (hp : s.find path = some p)
    (he : s.heap.get p = some e) {fi fi' : fuse_file_info} {r : ℤ} {s' : Handles}
    (h : spfs_open path fi s = some ((r, fi'), s')) :
    r = 0 ∧ fi'.fh = some p ∨
      r = -EBUSY ∧ (spfs_entity_stat uid times e .zero).st_mode &&& S_IFMT = S_IFREG ∧
        s.music_playing = true ∧ fi'.fh = none := by
  rw [spfs_open, hp] at h
  simp only [he, Option.bind_eq_bind, Option.bind_some] at h
  obtain ⟨hook, hhook, h⟩ := Option.bind_eq_some_iff.mp h
  rcases hook with _ | _
  · left
    simp only [Bool.false_eq_true, if_false, if_true, Option.some.injEq, Prod.mk.injEq] at h
    obtain ⟨⟨rfl, rfl⟩, -⟩ := h
    exact ⟨rfl, rfl⟩
  · rcases hm : s.music_playing with _ | _
    · left
      simp only [wav_open, hm, Bool.false_eq_true, if_false, if_true, Option.some.injEq,
        Prod.mk.injEq] at h
      obtain ⟨⟨rfl, rfl⟩, -⟩ := h
      exact ⟨rfl, rfl⟩
    · right
      have hbusy : ¬ (-EBUSY = 0) := by decide
      simp only [wav_open, hm, hbusy, if_true, if_false, Option.some.injEq, Prod.mk.injEq] at h
      obtain ⟨⟨rfl, rfl⟩, -⟩ := h
      refine ⟨rfl, ?_, rfl, rfl⟩
      -- only a file has something where the hook is read
      rcases e with ⟨_, _, _, _, _ | _ | _⟩
      · simp only [spfs_entity_stat]
        decide
      · cases hhook
      · cases hhook

/-- What `spfs_opendir` says of the three kinds of entities. -/
lemma spfs_opendir_found (uid : ℕ) (times : stat_times) (hp : s.find path = some p)
    (he : s.heap.get p = some e) (fi : fuse_file_info) :
    ∃ r fi' s', spfs_opendir path fi s = some ((r, fi'), s') ∧
      (r = 0 ↔ (spfs_entity_stat uid times e .zero).st_mode &&& S_IFMT = S_IFDIR) := by
  rw [spfs_opendir, hp]
  simp only [he, Option.bind_eq_bind, Option.bind_some]
  rcases e with ⟨_, _, _, _, _ | _ | _⟩
  · exact ⟨_, _, _, rfl, by simp only [spfs_entity_stat]; decide⟩
  · exact ⟨_, _, _, rfl, by simp only [spfs_entity_stat]; decide⟩
  · exact ⟨_, _, _, rfl, by simp only [spfs_entity_stat]; decide⟩

end Found

/-- Where an entity is found, the handlers say what its attributes say. -/
lemma something_at {s : Served} {path : gstr} {p : Ptr} {e : spfs_entity} (uid : ℕ)
    (times : Ptr → stat_times) (hp : find_entity s.mount.heap path = some p)
    (he : s.mount.heap.get p = some e) :
    Something s uid times path p (spfs_entity_stat uid (times p) e .zero) where
  found := hp
  getattr := by
    rw [spfs_getattr, hp]
    simp [he]
  access mask hpos hlt := by
    refine ⟨_, ?_, access_iff uid (times p) hpos hlt⟩
    rw [spfs_access, hp]
    simp only [he, Option.bind_eq_bind, Option.bind_some]
    split_ifs <;> rfl
  readlink := spfs_readlink_found uid (times p) hp he
  defined := spfs_open_found_iff uid (times p) hp he
  opens _ _ _ _ := spfs_open_found (s := s.handles) uid (times p) hp he
  opendir := spfs_opendir_found uid (times p) hp he

/-- In every state that is reached, the handlers agree on what is at a path. -/
theorem handlers_agree {links : SpotifyLinks}
    {l : List (World FuseInstr Served ℕ × Action ℕ FuseCall Spotify)}
    {w : World FuseInstr Served ℕ}
    (hl : Trace (fuse_system links) (World.idle Served.init) l w) (uid : ℕ)
    (times : Ptr → stat_times) (path : gstr) :
    Nothing w.shared uid times path ∨ ∃ p st, Something w.shared uid times path p st := by
  rcases hp : find_entity w.shared.mount.heap path with _ | p
  · exact .inl (nothing_at uid times hp)
  · obtain ⟨e, he⟩ := exists_get_of_find (fuse_laid hl).wf.tree hp
    exact .inr ⟨p, _, something_at uid times hp he⟩

set_option maxRecDepth 100000 in
/-- The theorem at a link, after the run that lists a playlist. -/
theorem handlers_agree_link : ∃ l w,
    Trace (fuse_system numbered_links) (World.idle Served.init) l w ∧
    find_entity w.shared.mount.heap "/playlists/meta/p/T".toList = some 23 ∧
    (Nothing w.shared 0 (fun _ => ⟨0, 0, 0⟩) "/playlists/meta/p/T".toList ∨
      ∃ p st, Something w.shared 0 (fun _ => ⟨0, 0, 0⟩) "/playlists/meta/p/T".toList p st) := by
  obtain ⟨l, w, hl, -, hfind⟩ := Trace.exists_of_run (fuse_system numbered_links)
    (fun _ _ => True) (World.idle Served.init) list_and_open
    (fun w => find_entity w.shared.mount.heap "/playlists/meta/p/T".toList = some 23)
    (by decide +kernel)
  exact ⟨l, w, hl, hfind, handlers_agree hl 0 _ _⟩

/-! ## Listings -/

section Listing

variable {h : Heap} {path c : gstr} {d : Ptr}

/-- The look-up of a path with one more component. -/
lemma find_entity_child (hh : h.Tree) (hd : h.walk 0 (components (path.splitOn '/')) = some d)
    (hc : c ≠ []) (hslash : '/' ∉ c) (hname : h.name d ≠ some c) :
    find_entity h (path ++ '/' :: c) = h.lookup d c := by
  have hcomps : components ((path ++ '/' :: c).splitOn '/') =
      components (path.splitOn '/') ++ [c] := by
    rw [List.splitOn_append_cons_self, List.splitOn_eq_singleton hslash]
    simp [components, hc]
  have hroot : path ++ '/' :: c ≠ ['/'] := by
    rcases path with _ | ⟨x, path⟩
    · simpa using hc
    · simp
  rw [find_entity, hh.root, Option.bind_some, spfs_entity_find_path_eq (by simp) hroot, hcomps,
    List.dropLast_concat, hd, Option.bind_some, List.getLast?_concat, Option.getD_some,
    Heap.find_last, if_neg hname]

/-- A step that never fails is a map. -/
lemma mapM_eq_some_map {α β : Type} {f : α → Option β} {g : α → β} {l : List α}
    (hf : ∀ a ∈ l, f a = some (g a)) : l.mapM f = some (l.map g) := by
  induction l with
  | nil => rfl
  | cons a l ih =>
    rw [List.mapM_cons, hf a List.mem_cons_self, ih fun b hb => hf b (List.mem_cons_of_mem a hb)]
    rfl

/-- What is reported of an entry. -/
def entry_stat (h : Heap) (uid : ℕ) (times : Ptr → stat_times) (q : Ptr) : stat :=
  ((h.get q).map fun e => spfs_entity_stat uid (times q) e .zero).getD .zero

/-- What is listed: the entries of the table. -/
lemma fill_dir_children_eq (hh : h.Tree) (uid : ℕ) (times : Ptr → stat_times) (order : HashOrder)
    {table : List (gstr × Ptr)} (htable : h.children d = some table) :
    fill_dir_children h uid times order d =
      some ((order.order table).map fun entry => (entry.1, entry_stat h uid times entry.2)) := by
  rw [fill_dir_children, htable, Option.bind_eq_bind, Option.bind_some]
  refine mapM_eq_some_map fun entry hmem => ?_
  have hlookup : h.lookup d entry.1 = some entry.2 := Heap.lookup_of_mem
    (hh.distinct d table htable) htable ((order.perm table).mem_iff.mp hmem)
  obtain ⟨-, hname, -⟩ := hh.entry d entry.1 entry.2 hlookup
  obtain ⟨e, he, -⟩ := Option.bind_eq_some_iff.mp hname
  simp [entry_stat, he]

/-- What is reported: the two names that stand for the directory and its parent, and the entries. -/
lemma spfs_readdir_eq (hh : h.Tree) (uid : ℕ) (times : Ptr → stat_times) (order : HashOrder)
    {table : List (gstr × Ptr)} (htable : h.children d = some table) (direct_io : ℕ) :
    spfs_readdir h uid times order ⟨some d, direct_io⟩ =
      some (0, (".".toList, none) :: ("..".toList, none) ::
        ((order.order table).map fun entry => (entry.1, entry_stat h uid times entry.2)).map
          fun child => (child.1, some child.2)) := by
  obtain ⟨e, he, hchildren⟩ := Option.bind_eq_some_iff.mp htable
  have hdir : e.e.children ≠ none := by
    rw [hchildren]
    exact Option.some_ne_none table
  simp only [spfs_readdir, he, fill_dir_children_eq hh uid times order htable,
    Option.bind_eq_bind, Option.bind_some, if_neg hdir]

/-- No name is reported twice unless an entry has the name `.` or `..`. -/
lemma nodup_reported_iff (hh : h.Tree) (uid : ℕ) (times : Ptr → stat_times) (order : HashOrder)
    {table : List (gstr × Ptr)} (htable : h.children d = some table) :
    (".".toList :: "..".toList :: ((order.order table).map fun entry =>
        (entry.1, entry_stat h uid times entry.2)).map Prod.fst).Nodup ↔
      h.lookup d ".".toList = none ∧ h.lookup d "..".toList = none := by
  have hperm := (order.perm table).map Prod.fst
  have hfree : ∀ c, c ∉ (order.order table).map Prod.fst ↔ h.lookup d c = none := by
    intro c
    rw [hperm.mem_iff, Heap.lookup, htable, Option.bind_some, List.lookup_eq_none_iff]
    simp only [List.mem_map, not_exists, not_and, bne_iff_ne]
    exact forall₂_congr fun _ _ => ne_comm
  have hnames : ((order.order table).map fun entry =>
      (entry.1, entry_stat h uid times entry.2)).map Prod.fst =
      (order.order table).map Prod.fst := by
    rw [List.map_map]
    rfl
  have hnodup : ((order.order table).map Prod.fst).Nodup :=
    hperm.nodup_iff.mpr (hh.distinct d table htable)
  rw [hnames, List.nodup_cons, List.nodup_cons, List.mem_cons, not_or,
    hfree, hfree]
  constructor
  · rintro ⟨⟨-, hdot⟩, hdotdot, -⟩
    exact ⟨hdot, hdotdot⟩
  · rintro ⟨hdot, hdotdot⟩
    exact ⟨⟨by decide, hdot⟩, hdotdot, hnodup⟩

/-- An entry is listed precisely when it is looked up. -/
lemma mem_listing_iff (hh : h.Tree) (uid : ℕ) (times : Ptr → stat_times) (order : HashOrder)
    {table : List (gstr × Ptr)} (htable : h.children d = some table) (st : stat) :
    (c, st) ∈ (order.order table).map (fun entry => (entry.1, entry_stat h uid times entry.2)) ↔
      ∃ q, h.lookup d c = some q ∧ st = entry_stat h uid times q := by
  have hmem : ∀ q, (c, q) ∈ order.order table ↔ h.lookup d c = some q := by
    intro q
    rw [(order.perm table).mem_iff]
    refine ⟨Heap.lookup_of_mem (hh.distinct d table htable) htable, fun hq => ?_⟩
    rw [Heap.lookup, htable, Option.bind_some] at hq
    obtain ⟨l₁, l₂, rfl, -⟩ := List.lookup_eq_some_iff.mp hq
    simp
  constructor
  · intro h
    obtain ⟨⟨c', q⟩, hq, heq⟩ := List.mem_map.mp h
    obtain ⟨rfl, rfl⟩ := Prod.mk.inj heq
    exact ⟨q, (hmem q).mp hq, rfl⟩
  · rintro ⟨q, hq, rfl⟩
    exact List.mem_map.mpr ⟨(c, q), (hmem q).mpr hq, rfl⟩

/-- An entry of a directory is an entity. -/
lemma exists_get_of_lookup (hh : h.Tree) {q : Ptr} (hq : h.lookup d c = some q) :
    ∃ e, h.get q = some e := by
  obtain ⟨-, hname, -⟩ := hh.entry d c q hq
  obtain ⟨e, he, -⟩ := Option.bind_eq_some_iff.mp hname
  exact ⟨e, he⟩

/-- The name of an entry can stand in a path. -/
lemma name_of_lookup (hh : h.Tree) {q : Ptr} (hq : h.lookup d c = some q) : c ≠ [] ∧ '/' ∉ c := by
  have hwalk : h.walk d [c] = some q := by
    rw [Heap.walk_cons, hq]
    rfl
  exact hh.walk_names hwalk c List.mem_cons_self

/-- What `spfs_getattr` says of an entity that was found. -/
lemma spfs_getattr_found (uid : ℕ) (times : Ptr → stat_times) {q : Ptr} {e : spfs_entity}
    (hq : find_entity h path = some q) (he : h.get q = some e) :
    spfs_getattr h uid times path = some (0, entry_stat h uid times q) := by
  rw [spfs_getattr, hq]
  simp [he, entry_stat]

/-- `spfs_getattr` finds something at the path of a directory followed by a name precisely when
the directory has such an entry. -/
lemma spfs_getattr_child_iff (hh : h.Tree) (uid : ℕ) (times : Ptr → stat_times)
    (hd : h.walk 0 (components (path.splitOn '/')) = some d) (hc : c ≠ []) (hslash : '/' ∉ c)
    (hname : h.name d ≠ some c) (st : stat) :
    spfs_getattr h uid times (path ++ '/' :: c) = some (0, st) ↔
      ∃ q, h.lookup d c = some q ∧ st = entry_stat h uid times q := by
  have hfind := find_entity_child hh hd hc hslash hname
  constructor
  · intro hstat
    rcases hq : h.lookup d c with _ | q
    · rw [spfs_getattr, hfind, hq] at hstat
      cases hstat
    · obtain ⟨e, he⟩ := exists_get_of_lookup hh hq
      rw [spfs_getattr_found uid times (hfind.trans hq) he] at hstat
      obtain ⟨-, rfl⟩ := Prod.mk.inj (Option.some.inj hstat)
      exact ⟨q, rfl, rfl⟩
  · rintro ⟨q, hq, rfl⟩
    obtain ⟨e, he⟩ := exists_get_of_lookup hh hq
    exact spfs_getattr_found uid times (hfind.trans hq) he

end Listing

/-- The kind of an entity decides its mode. -/
lemma st_mode_of_shape {e e' : spfs_entity} (hshape : e'.e.shape = e.e.shape) (uid : ℕ)
    (times' times : stat_times) :
    (spfs_entity_stat uid times' e' .zero).st_mode =
      (spfs_entity_stat uid times e .zero).st_mode := by
  rcases e with ⟨_, _, _, _, _ | _ | _⟩ <;> rcases e' with ⟨_, _, _, _, _ | _ | _⟩ <;>
    first | rfl | cases hshape

variable {links : SpotifyLinks}

end Spotifile.Fuse
