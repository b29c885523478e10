import Spotifile.FindPath

/-!
# The tree of entities

`Heap.Tree` is what the functions of `spfs_fuse_entity.c` keep as long as only new entities are
added to directories that are older than they are: an entry of a table is an entity of that name
whose parent is the directory, an entity with a parent is in the parent's table, and parents are
older than their children. `Heap.Grows` is what a heap does over time: nothing that is in the tree
moves, and what has no place in the tree is not given one later, except a search directory.

Under these two, an entity is where `Heap.walk` finds it from the root, its full path names that
place, and `relpath` between two such places can be followed (`Heap.Tree.follow_relpath`).
-/

namespace Spotifile

open Lib

/-! ## New entities -/

/-- An entity as the creation functions return it. -/
structure spfs_entity.New (e : spfs_entity) : Prop where
  parent : e.parent = none
  children : ∀ children, e.e.children = some children → children = []
  sanitized : ∀ name, e.name = some name → spfs_sanitize_name name = name

/-- An entity that was just created has no parent, no handles and an empty table. -/
lemma spfs_entity_create_new (name : Option gstr) {data : EntityData}
    (hdata : ∀ children, data.children = some children → children = []) :
    (spfs_entity_create name data).New where
  parent := rfl
  children := hdata
  sanitized := by
    intro san hsan
    obtain ⟨name, -, rfl⟩ := Option.map_eq_some_iff.mp hsan
    exact spfs_sanitize_name_idem name

/-- So has a file. -/
lemma spfs_entity_file_create_new (name : gstr) (ops : spfs_file_ops) :
    (spfs_entity_file_create name ops).New :=
  spfs_entity_create_new _ fun _ h => by cases h

/-- So has a directory. -/
lemma spfs_entity_dir_create_new (name : Option gstr) (ops : spfs_dir_ops) :
    (spfs_entity_dir_create name ops).New :=
  spfs_entity_create_new _ fun _ h => (Option.some.inj h).symm

/-- So has a link. -/
lemma spfs_entity_link_create_new (name : gstr) : (spfs_entity_link_create name).New :=
  spfs_entity_create_new _ fun _ h => by cases h

/-- An entity stays new when it gets its `auxdata`. -/
lemma spfs_entity.New.with_auxdata {e : spfs_entity} (he : e.New) (auxdata : Option Auxdata) :
    { e with auxdata := auxdata }.New :=
  ⟨he.parent, he.children, he.sanitized⟩

/-! ## Lookups after a write -/

namespace Heap

variable {h : Heap}

/-- A new entity changes no look-up. -/
lemma lookup_alloc {e : spfs_entity} (he : e.New) (p : Ptr) (key : gstr) :
    (h.alloc e).lookup p key = h.lookup p key := by
  rw [lookup, lookup, children_alloc]
  split
  · next hp =>
    have hnone : h.children p = none := by
      rw [children, get_eq_none_of_fresh_le hp.ge]
      rfl
    rw [hnone]
    rcases hc : e.e.children with _ | children
    · rfl
    · rw [he.children children hc]
      rfl
  · rfl

/-- A change that keeps the table of its entity keeps all look-ups. -/
lemma lookup_modify {f : spfs_entity → spfs_entity} (p q : Ptr) (key : gstr)
    (hf : ∀ e, (f e).e.children = e.e.children) :
    (h.modify p f).lookup q key = h.lookup q key := by
  rw [lookup, lookup, children_modify h p q hf]

/-- A child under a free name changes the look-up of that name only. -/
lemma lookup_link_child {parent child : Ptr} {name : gstr} {table : List (gstr × Ptr)}
    (htable : h.children parent = some table) (hfree : h.lookup parent name = none)
    (p : Ptr) (key : gstr) :
    (h.link_child parent child name).lookup p key =
      if parent = p ∧ name = key then some child else h.lookup p key := by
  have hfree' : table.lookup name = none := by simpa [lookup, htable] using hfree
  rw [lookup, children_link_child]
  by_cases hp : parent = p
  · subst hp
    rw [if_pos rfl, htable, Option.map_some, Option.bind_some,
      g_hash_table_insert_of_free child hfree', List.lookup_append]
    by_cases hkey : name = key
    · subst hkey
      simp [hfree']
    · have hnone : [(name, child)].lookup key = none := by
        rw [List.lookup_eq_none_iff]
        simpa using Ne.symm hkey
      rw [hnone, Option.or_none, if_neg fun hand => hkey hand.2, lookup, htable]
      rfl
  · rw [if_neg hp, if_neg fun hand => hp hand.1, lookup]

/-! ## The invariant -/

/-- The entities form a tree, as far as they have been added to directories. -/
structure Tree (h : Heap) : Prop where
  root : h.spfs_root = some 0
  pos : 0 < h.fresh
  root_name : h.name 0 = none
  root_parent : h.parent 0 = none
  distinct : ∀ p table, h.children p = some table → (table.map Prod.fst).Nodup
  entry : ∀ p name q, h.lookup p name = some q →
    name ≠ [] ∧ h.name q = some name ∧ h.parent q = some p
  child : ∀ q p, h.parent q = some p →
    p < q ∧ ∃ name, h.name q = some name ∧ h.lookup p name = some q
  sanitized : ∀ p name, h.name p = some name → spfs_sanitize_name name = name

/-- An entry is what is found under its key, if no key is there twice. -/
lemma lookup_of_mem {p q : Ptr} {name : gstr} {table : List (gstr × Ptr)}
    (hdistinct : (table.map Prod.fst).Nodup) (htable : h.children p = some table)
    (hmem : (name, q) ∈ table) : h.lookup p name = some q := by
  rw [lookup, htable, Option.bind_some, List.lookup_eq_some_iff]
  obtain ⟨l₁, l₂, rfl⟩ := List.append_of_mem hmem
  refine ⟨l₁, l₂, rfl, ?_⟩
  rintro ⟨key, r⟩ hr
  rw [List.map_append, List.map_cons, List.nodup_append] at hdistinct
  simpa using (hdistinct.2.2 key (List.mem_map_of_mem hr) name (by simp)).symm

namespace Tree

/-- A new entity keeps the tree a tree. -/
lemma alloc (hh : h.Tree) {e : spfs_entity} (he : e.New) : (h.alloc e).Tree where
  root := hh.root
  pos := by
    rw [fresh_alloc]
    exact Nat.succ_pos _
  root_name := by
    rw [name_alloc, if_neg hh.pos.ne]
    exact hh.root_name
  root_parent := by
    rw [parent_alloc, if_neg hh.pos.ne]
    exact hh.root_parent
  distinct := by
    intro p table hp
    rw [children_alloc] at hp
    split at hp
    · rw [he.children table hp]
      exact List.nodup_nil
    · exact hh.distinct p table hp
  entry := by
    intro p name q hq
    rw [lookup_alloc he] at hq
    obtain ⟨hne, hname, hparent⟩ := hh.entry p name q hq
    have hold : q ≠ h.fresh := by
      rintro rfl
      rw [Heap.name, get_eq_none_of_fresh_le (Nat.le_refl _)] at hname
      cases hname
    rw [name_alloc, if_neg hold, parent_alloc, if_neg hold]
    exact ⟨hne, hname, hparent⟩
  child := by
    intro q p hp
    rw [parent_alloc] at hp
    split at hp
    · rw [he.parent] at hp
      cases hp
    · next hold =>
      obtain ⟨hlt, name, hname, hlookup⟩ := hh.child q p hp
      refine ⟨hlt, name, ?_, ?_⟩
      · rwa [name_alloc, if_neg hold]
      · rwa [lookup_alloc he]
  sanitized := by
    intro p name hname
    rw [name_alloc] at hname
    split at hname
    · exact he.sanitized name hname
    · exact hh.sanitized p name hname

/-- An orphan that gets a free name in an older directory keeps the tree a tree. -/
lemma link_child (hh : h.Tree) {parent child : Ptr} {name : gstr} {table : List (gstr × Ptr)}
    (hname : h.name child = some name) (htable : h.children parent = some table)
    (hnil : name ≠ []) (hfree : h.lookup parent name = none)
    (horphan : h.parent child = none) (hlt : parent < child) :
    (h.link_child parent child name).Tree where
  root := hh.root
  pos := by
    rw [fresh_link_child]
    exact hh.pos
  root_name := by rw [name_link_child, hh.root_name]
  root_parent := by
    rw [parent_link_child, if_neg (Nat.zero_lt_of_lt hlt).ne']
    exact hh.root_parent
  distinct := by
    intro p table' hp
    rw [children_link_child] at hp
    split at hp
    · next hpar =>
      subst hpar
      rw [htable, Option.map_some, Option.some.injEq] at hp
      have hfree' : table.lookup name = none := by simpa [lookup, htable] using hfree
      subst hp
      exact nodup_g_hash_table_insert child (hh.distinct parent table htable) hfree'
    · exact hh.distinct p table' hp
  entry := by
    intro p key q hq
    rw [lookup_link_child htable hfree] at hq
    rw [name_link_child, parent_link_child]
    split at hq
    · next hand =>
      obtain ⟨rfl, rfl⟩ := hand
      obtain rfl := Option.some.inj hq
      refine ⟨hnil, hname, ?_⟩
      obtain ⟨e, he, -⟩ := Option.bind_eq_some_iff.mp hname
      rw [if_pos rfl, he]
      rfl
    · obtain ⟨hne, hq₁, hq₂⟩ := hh.entry p key q hq
      refine ⟨hne, hq₁, ?_⟩
      have hother : child ≠ q := by
        rintro rfl
        rw [horphan] at hq₂
        cases hq₂
      rwa [if_neg hother]
  child := by
    intro q p hp
    rw [parent_link_child] at hp
    split at hp
    · next hq =>
      subst hq
      obtain ⟨e, -, rfl⟩ := Option.map_eq_some_iff.mp hp
      refine ⟨hlt, name, ?_, ?_⟩
      · rwa [name_link_child]
      · rw [lookup_link_child htable hfree, if_pos ⟨rfl, rfl⟩]
    · obtain ⟨hpq, key, hq, hlookup⟩ := hh.child q p hp
      refine ⟨hpq, key, ?_, ?_⟩
      · rwa [name_link_child]
      · rw [lookup_link_child htable hfree, if_neg]
        · exact hlookup
        · rintro ⟨rfl, rfl⟩
          rw [hfree] at hlookup
          cases hlookup
  sanitized := by
    intro p name' hp
    rw [name_link_child] at hp
    exact hh.sanitized p name' hp

/-- A write that leaves names, parents and tables alone. -/
lemma modify (hh : h.Tree) (p : Ptr) {f : spfs_entity → spfs_entity}
    (hname : ∀ e, (f e).name = e.name) (hparent : ∀ e, (f e).parent = e.parent)
    (hchildren : ∀ e, (f e).e.children = e.e.children) : (h.modify p f).Tree where
  root := hh.root
  pos := by
    rw [fresh_modify]
    exact hh.pos
  root_name := by rw [name_modify h p 0 hname, hh.root_name]
  root_parent := by rw [parent_modify h p 0 hparent, hh.root_parent]
  distinct := by
    intro q table hq
    rw [children_modify h p q hchildren] at hq
    exact hh.distinct q table hq
  entry := by
    intro q key r hr
    rw [lookup_modify p q key hchildren] at hr
    rw [name_modify h p r hname, parent_modify h p r hparent]
    exact hh.entry q key r hr
  child := by
    intro q r hr
    rw [parent_modify h p q hparent] at hr
    obtain ⟨hlt, key, hkey, hlookup⟩ := hh.child q r hr
    refine ⟨hlt, key, ?_, ?_⟩
    · rwa [name_modify h p q hname]
    · rwa [lookup_modify p r key hchildren]
  sanitized := by
    intro q key hkey
    rw [name_modify h p q hname] at hkey
    exact hh.sanitized q key hkey

/-- Setting a target keeps the tree a tree. -/
lemma link_set_target (hh : h.Tree) (link : Ptr) (target : Option gstr) :
    (spfs_entity_link_set_target h link target).Tree := by
  rcases target with _ | target
  · exact hh
  · apply hh.modify link
    all_goals rintro ⟨_, _, _, _, _ | _ | _⟩ <;> rfl

/-- Under a name that some entity has, `has_child` is a plain look-up. -/
lemma has_child_eq (hh : h.Tree) {p : Ptr} {name : gstr} (hname : h.name p = some name)
    (dir : Ptr) : spfs_entity_dir_has_child h dir name = (h.lookup dir name).isSome := by
  rw [spfs_entity_dir_has_child, spfs_entity_dir_get_child, hh.sanitized p name hname]

/-- An entity without a parent may be added to an older directory. -/
lemma add_child (hh : h.Tree) {parent child : Ptr} (horphan : h.parent child = none)
    (hlt : parent < child) : (spfs_entity_dir_add_child h parent child).Tree := by
  rcases spfs_entity_dir_add_child_cases h parent child with
    heq | ⟨name, table, hname, htable, hnil, hhas, heq⟩
  · rwa [heq]
  · rw [hh.has_child_eq hname, Option.isSome_eq_false_iff, Option.isNone_iff_eq_none] at hhas
    rw [heq]
    exact hh.link_child hname htable hnil hhas horphan hlt

/-! ## Places -/

/-- Where a walk from the root leads: to the root, or to a child of where it led before. -/
lemma walk_cases (hh : h.Tree) {cs : List gstr} {q : Ptr} (hq : h.walk 0 cs = some q) :
    (cs = [] ∧ q = 0) ∨ ∃ cs' c p, cs = cs' ++ [c] ∧ h.walk 0 cs' = some p ∧ c ≠ [] ∧ p < q ∧
      h.parent q = some p ∧ h.name q = some c := by
  rcases List.eq_nil_or_concat cs with rfl | ⟨cs', c, rfl⟩
  · exact Or.inl ⟨rfl, (Option.some.inj hq).symm⟩
  · right
    rw [List.concat_eq_append, walk_concat] at hq
    obtain ⟨p, hp, hlookup⟩ := Option.bind_eq_some_iff.mp hq
    obtain ⟨hne, hname, hparent⟩ := hh.entry p c q hlookup
    exact ⟨cs', c, p, List.concat_eq_append, hp, hne, (hh.child q p hparent).1, hparent, hname⟩

/-- A child of a place is a place. -/
lemma walk_child (hh : h.Tree) {cs : List gstr} {p q : Ptr} (hp : h.walk 0 cs = some p)
    (hq : h.parent q = some p) : ∃ c, h.name q = some c ∧ h.walk 0 (cs ++ [c]) = some q := by
  obtain ⟨-, c, hname, hlookup⟩ := hh.child q p hq
  refine ⟨c, hname, ?_⟩
  rw [walk_concat, hp]
  exact hlookup

/-- Without an entity the path has no elements. -/
lemma path_elems_none (fuel : ℕ) : path_elems h fuel none = [] := by
  cases fuel <;> rfl

/-- The names on the way up are those on the way down. -/
lemma path_elems_eq (hh : h.Tree) {fuel : ℕ} {cs : List gstr} {q : Ptr}
    (hq : h.walk 0 cs = some q) (hfuel : q < fuel) : path_elems h fuel (some q) = cs.reverse := by
  induction fuel generalizing cs q with
  | zero => exact absurd hfuel (Nat.not_lt_zero q)
  | succ fuel ih =>
    rcases hh.walk_cases hq with ⟨rfl, rfl⟩ | ⟨cs', c, p, rfl, hp, -, hlt, hparent, hname⟩
    · obtain ⟨e, he⟩ := Heap.exists_get_of_lt hh.pos
      have hname : e.name = none := by simpa [name, he] using hh.root_name
      have hparent : e.parent = none := by simpa [Heap.parent, he] using hh.root_parent
      simp [path_elems, he, hname, hparent, path_elems_none]
    · obtain ⟨e, he, hname⟩ := Option.bind_eq_some_iff.mp hname
      have hparent : e.parent = some p := by simpa [Heap.parent, he] using hparent
      simp [path_elems, he, hname, hparent, ih hp (hlt.trans_le (Nat.lt_succ_iff.mp hfuel))]

/-- An entity has one place. -/
lemma walk_inj (hh : h.Tree) {cs cs' : List gstr} {q : Ptr} (hcs : h.walk 0 cs = some q)
    (hcs' : h.walk 0 cs' = some q) : cs = cs' := by
  have hq : q < q + 1 := Nat.lt_succ_self q
  have heq := (hh.path_elems_eq hcs hq).symm.trans (hh.path_elems_eq hcs' hq)
  exact List.reverse_injective heq

/-- A walk from the root ends at an entity that is there. -/
lemma lt_fresh_of_walk (hh : h.Tree) {cs : List gstr} {p : Ptr} (hp : h.walk 0 cs = some p) :
    p < h.fresh := by
  rcases hh.walk_cases hp with ⟨-, rfl⟩ | ⟨_, c, _, -, -, -, -, -, hname⟩
  · exact hh.pos
  · obtain ⟨e, he, -⟩ := Option.bind_eq_some_iff.mp hname
    exact lt_fresh_of_get he

/-- The names along a walk are those of entries. -/
lemma exists_lookup_of_walk {names : List gstr} {p q : Ptr} (hq : h.walk p names = some q) :
    ∀ c ∈ names, ∃ p r, h.lookup p c = some r := by
  induction names generalizing p with
  | nil => simp
  | cons c names ih =>
    rw [walk_cons] at hq
    obtain ⟨r, hr, hrest⟩ := Option.bind_eq_some_iff.mp hq
    intro d hd
    rcases List.mem_cons.mp hd with rfl | hd
    · exact ⟨p, r, hr⟩
    · exact ih hrest d hd

/-- They are not empty and have no slash. -/
lemma walk_names (hh : h.Tree) {names : List gstr} {p q : Ptr} (hq : h.walk p names = some q) :
    ∀ c ∈ names, c ≠ [] ∧ '/' ∉ c := by
  intro c hc
  obtain ⟨p, r, hr⟩ := exists_lookup_of_walk hq c hc
  obtain ⟨hne, hname, -⟩ := hh.entry p c r hr
  refine ⟨hne, ?_⟩
  rw [← hh.sanitized r c hname]
  exact slash_notMem_sanitize_name c

/-- They are components where no entity has the name of a dot or two. -/
lemma isComponent_of_walk (hh : h.Tree)
    (hnormal : ∀ p name, h.name p = some name → name ≠ ".".toList ∧ name ≠ "..".toList)
    {cs : List gstr} {p q : Ptr} (hq : h.walk p cs = some q) : ∀ c ∈ cs, IsComponent c := by
  intro c hc
  obtain ⟨p, r, hr⟩ := exists_lookup_of_walk hq c hc
  obtain ⟨-, hname, -⟩ := hh.entry p c r hr
  obtain ⟨hne, hslash⟩ := hh.walk_names hq c hc
  obtain ⟨hdot, hdotdot⟩ := hnormal r c hname
  exact ⟨hne, hslash, hdot, hdotdot⟩

end Tree

/-! ## Attached entities -/

/-- The topmost entity above `p`. -/
def top (h : Heap) : ℕ → Ptr → Ptr
  | 0, p => p
  | fuel + 1, p =>
    match h.parent p with
    | none => p
    | some q => h.top fuel q

/-- The parents of `p` lead up to the root. -/
def Attached (h : Heap) (p : Ptr) : Prop := h.spfs_root = some (h.top h.fresh p)

instance (h : Heap) (p : Ptr) : Decidable (h.Attached p) :=
  inferInstanceAs (Decidable (_ = _))

namespace Tree

/-- Where the way up ends at the root, a walk leads down. -/
lemma walk_of_top (hh : h.Tree) {fuel : ℕ} {p : Ptr} (htop : h.top fuel p = 0) :
    ∃ cs, h.walk 0 cs = some p := by
  induction fuel generalizing p with
  | zero => exact ⟨[], by rw [walk_nil, ← htop, top]⟩
  | succ fuel ih =>
    rw [top] at htop
    rcases hp : h.parent p with _ | q
    · rw [hp] at htop
      exact ⟨[], by rw [walk_nil, ← htop]⟩
    · rw [hp] at htop
      obtain ⟨cs, hcs⟩ := ih htop
      obtain ⟨c, -, hc⟩ := hh.walk_child hcs hp
      exact ⟨cs ++ [c], hc⟩

/-- From where a walk ends, the way up ends at the root. -/
lemma top_of_walk (hh : h.Tree) {fuel : ℕ} {cs : List gstr} {p : Ptr}
    (hp : h.walk 0 cs = some p) (hfuel : p ≤ fuel) : h.top fuel p = 0 := by
  induction fuel generalizing cs p with
  | zero => exact Nat.le_zero.mp hfuel
  | succ fuel ih =>
    rcases hh.walk_cases hp with ⟨rfl, rfl⟩ | ⟨cs', c, q, rfl, hq, -, hlt, hparent, -⟩
    · rw [top, hh.root_parent]
    · rw [top, hparent]
      exact ih hq (Nat.lt_succ_iff.mp (hlt.trans_le hfuel))

/-- The attached entities are those that a walk from the root finds. -/
lemma attached_iff (hh : h.Tree) (p : Ptr) : h.Attached p ↔ ∃ cs, h.walk 0 cs = some p := by
  rw [Attached, hh.root, Option.some.injEq, eq_comm]
  constructor
  · exact hh.walk_of_top
  · rintro ⟨cs, hcs⟩
    exact hh.top_of_walk hcs (hh.lt_fresh_of_walk hcs).le

end Tree

/-! ## Full paths -/

/-- The length of the full path of an entity, before it is cut at `PATH_MAX`. -/
def path_length (h : Heap) (p : Ptr) : ℕ :=
  ((path_elems h h.fresh (some p)).map fun el => el.length + 1).sum

end Heap

/-- A path has a slash more for each of its components. -/
lemma length_slashed (cs : List gstr) :
    (slashed '/' cs).length = (cs.map fun el => el.length + 1).sum := by
  induction cs with
  | nil => rfl
  | cons c cs ih =>
    rw [slashed_cons, List.length_cons, List.length_append, ih, List.map_cons, List.sum_cons]
    omega

/-- Writing a path into a buffer cuts it at the end of the buffer. -/
lemma foldl_g_strlcat_take (size : ℕ) (cs : List gstr) {path : gstr}
    (hpath : path.length ≤ size - 1) :
    cs.foldl (fun path el => g_strlcat (g_strlcat path ['/'] size) el size) path =
      (path ++ slashed '/' cs).take (size - 1) := by
  have hcut : ∀ l r : gstr,
      (l.take (size - 1) ++ r).take (size - 1) = (l ++ r).take (size - 1) := by
    intro l r
    rw [List.take_append, List.take_append, List.take_take, List.length_take, Nat.min_self]
    congr 2
    omega
  induction cs generalizing path with
  | nil => rw [List.foldl_nil, slashed_nil, List.append_nil, List.take_of_length_le hpath]
  | cons c cs ih =>
    have hstep : g_strlcat (g_strlcat path ['/'] size) c size =
        (path ++ '/' :: c).take (size - 1) := by
      rw [g_strlcat, g_strlcat, hcut, List.append_assoc, List.singleton_append]
    rw [List.foldl_cons, hstep, ih (List.length_take_le _ _), hcut, List.append_assoc,
      List.cons_append, slashed_cons]

namespace Heap.Tree

variable {h : Heap}

/-- The length of a path is what the walk from the root adds up to. -/
lemma path_length_eq (hh : h.Tree) {cs : List gstr} {p : Ptr} (hp : h.walk 0 cs = some p)
    (hfresh : p < h.fresh) : h.path_length p = (slashed '/' cs).length := by
  rw [path_length, hh.path_elems_eq hp hfresh, List.map_reverse, List.sum_reverse, length_slashed]

/-- The full path of an entity below the root, cut at `PATH_MAX`. -/
lemma get_full_path_take (hh : h.Tree) {cs : List gstr} {p : Ptr} (hp : h.walk 0 cs = some p)
    (hne : cs ≠ []) :
    spfs_entity_get_full_path h p = some ((slashed '/' cs).take (PATH_MAX - 1)) := by
  have hfresh := hh.lt_fresh_of_walk hp
  obtain ⟨e, he⟩ := Heap.exists_get_of_lt hfresh
  simp only [spfs_entity_get_full_path, he]
  rcases hh.walk_cases hp with ⟨hnil, -⟩ | ⟨cs', c, q, hcs, -, -, -, -, hname⟩
  · exact absurd hnil hne
  · have hname : e.name = some c := by simpa [name, he] using hname
    rw [if_neg (by simp [hname]), hh.path_elems_eq hp hfresh, List.reverse_reverse,
      foldl_g_strlcat_take PATH_MAX cs (Nat.zero_le _), List.nil_append]

/-- The full path of an entity that is in the tree, where it fits. -/
lemma get_full_path_walk (hh : h.Tree) {cs : List gstr} {p : Ptr} (hp : h.walk 0 cs = some p)
    (hlen : h.path_length p < PATH_MAX) :
    spfs_entity_get_full_path h p = some (if cs = [] then ['/'] else slashed '/' cs) := by
  by_cases hnil : cs = []
  · obtain rfl : 0 = p := by
      rw [hnil] at hp
      exact Option.some.inj hp
    obtain ⟨e, he⟩ := Heap.exists_get_of_lt hh.pos
    have hname : e.name = none := by simpa [name, he] using hh.root_name
    simp only [spfs_entity_get_full_path, he]
    rw [if_pos hname, if_pos hh.root, if_pos hnil]
  · rw [hh.path_length_eq hp (hh.lt_fresh_of_walk hp)] at hlen
    rw [hh.get_full_path_take hp hnil, if_neg hnil,
      List.take_of_length_le (Nat.le_sub_one_of_lt hlen)]

/-- The same for a place of components. -/
lemma get_full_path_eq (hh : h.Tree) {path : NormalPath} {p : Ptr}
    (hp : h.walk 0 path.comps = some p) (hlen : h.path_length p < PATH_MAX) :
    spfs_entity_get_full_path h p = some path.toPath :=
  hh.get_full_path_walk hp hlen

end Heap.Tree

/-! ## Following a link -/

namespace Heap

/-- One element of a link's target. The parent of the root is outside of the file system. -/
def follow_step (h : Heap) (p : Ptr) (c : gstr) : Option Ptr :=
  if c = "..".toList then h.parent p
  else if c = ".".toList ∨ c = [] then some p
  else h.lookup p c

/-- The entity to which a link with this target leads, if the link is in the directory `dir`.
An absolute target leads out of the file system. -/
def follow_link (h : Heap) (dir : Ptr) (target : gstr) : Option Ptr :=
  if target = [] ∨ target.head? = some '/' then none
  else (target.splitOn '/').foldlM h.follow_step dir

variable {h : Heap}

/-- Climbing. -/
lemma Tree.foldlM_follow_step_up (hh : h.Tree) {cs cs' : List gstr} {p : Ptr}
    (hp : h.walk 0 (cs ++ cs') = some p) :
    ∃ q, h.walk 0 cs = some q ∧
      (List.replicate cs'.length "..".toList).foldlM h.follow_step p = some q := by
  induction cs' using List.reverseRecOn generalizing p with
  | nil => exact ⟨p, by simpa using hp, rfl⟩
  | append_singleton cs' c ih =>
    rw [← List.append_assoc] at hp
    rcases hh.walk_cases hp with ⟨hnil, -⟩ | ⟨cs₁, c₁, r, hcs, hr, -, -, hparent, -⟩
    · simp at hnil
    · obtain ⟨rfl, -⟩ := List.append_inj' hcs rfl
      obtain ⟨q, hq, hup⟩ := ih hr
      refine ⟨q, hq, ?_⟩
      rw [List.length_append, List.length_singleton, List.replicate_succ, List.foldlM_cons,
        follow_step, if_pos rfl, hparent]
      exact hup

/-- Going down. -/
lemma foldlM_follow_step_down {cs : List gstr} (hcs : ∀ c ∈ cs, IsComponent c) (p : Ptr) :
    cs.foldlM h.follow_step p = h.walk p cs := by
  induction cs generalizing p with
  | nil => rfl
  | cons c cs ih =>
    have hc := hcs c List.mem_cons_self
    have hdown : h.follow_step p c = h.lookup p c := by
      rw [follow_step, if_neg hc.ne_dotdot, if_neg (not_or.mpr ⟨hc.ne_dot, hc.ne_nil⟩)]
    rw [List.foldlM_cons, hdown, walk_cons]
    congr 1
    funext q
    exact ih (fun d hd => hcs d (List.mem_cons_of_mem c hd)) q

/-- A relative path of components is followed component by component. -/
lemma follow_link_joined {cs : List gstr} (hslash : ∀ c ∈ cs, '/' ∉ c) (hnil : ∀ c ∈ cs, c ≠ [])
    (dir : Ptr) : h.follow_link dir (joined cs) = cs.foldlM h.follow_step dir := by
  rcases cs with _ | ⟨c, cs⟩
  · rfl
  · obtain ⟨x, c', rfl⟩ := List.exists_cons_of_ne_nil (hnil c List.mem_cons_self)
    have hx : x ≠ '/' := fun heq => hslash (x :: c') List.mem_cons_self (by simp [heq])
    rw [follow_link, if_neg (by simp [joined, hx]), joined,
      splitOn_append_slashed (hslash _ List.mem_cons_self)
        fun d hd => hslash d (List.mem_cons_of_mem _ hd)]

/-- Between two places of which neither is above the other, `relpath` leads from the one to the
other. -/
theorem Tree.follow_relpath (hh : h.Tree)
    (hnormal : ∀ p name, h.name p = some name → name ≠ ".".toList ∧ name ≠ "..".toList)
    {cs ds : List gstr} {src dst : Ptr} (hsrc : h.walk 0 cs = some src)
    (hdst : h.walk 0 ds = some dst) (hlen : h.path_length src < PATH_MAX)
    (hlen' : h.path_length dst < PATH_MAX) (hcd : ¬ cs <+: ds) (hdc : ¬ ds <+: cs) :
    ∃ r, relpath h src (some dst) = some r ∧ h.follow_link src r = some dst := by
  have hcomp := hh.isComponent_of_walk hnormal hdst
  let srcpath : NormalPath := ⟨cs, hh.isComponent_of_walk hnormal hsrc⟩
  let dstpath : NormalPath := ⟨ds, hcomp⟩
  have hfrom : spfs_entity_get_full_path h src = some srcpath.toPath :=
    hh.get_full_path_eq hsrc hlen
  have hto : spfs_entity_get_full_path h dst = some dstpath.toPath := hh.get_full_path_eq hdst hlen'
  obtain ⟨common, p', q', hp, hq, -, hrel⟩ :=
    exists_get_relative_path (fun hanc : srcpath.NonRootAncestor dstpath => hcd hanc.2.1)
      (fun hanc => hdc hanc.2.1)
  rw [← hfrom, ← hto] at hrel
  obtain rfl : cs = common ++ p' := hp
  obtain rfl : ds = common ++ q' := hq
  have hq' : ∀ c ∈ q', IsComponent c := fun c hc => hcomp c (List.mem_append_right common hc)
  refine ⟨joined (List.replicate p'.length "..".toList ++ q'), ?_, ?_⟩
  · rw [relpath, Option.bind_some, hrel]
  · obtain ⟨r, hr, hup⟩ := hh.foldlM_follow_step_up hsrc
    rw [walk_append, hr] at hdst
    have hup' : ∀ c ∈ List.replicate p'.length "..".toList, '/' ∉ c ∧ c ≠ [] := by
      intro c hc
      rw [List.eq_of_mem_replicate hc]
      decide
    rw [follow_link_joined, List.foldlM_append, hup]
    · exact (foldlM_follow_step_down hq' r).trans hdst
    · intro c hc
      rcases List.mem_append.mp hc with hc | hc
      · exact (hup' c hc).1
      · exact (hq' c hc).no_slash
    · intro c hc
      rcases List.mem_append.mp hc with hc | hc
      · exact (hup' c hc).2
      · exact (hq' c hc).ne_nil

end Heap

end Spotifile
