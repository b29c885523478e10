import Spotifile.Tree

/-!
# How the heap grows

`Heap.Grows` is what any number of the file system's operations do to the heap. Entities keep
their name and their kind, a child stays where it is, entries stay in their tables, and an entity
that was left without a parent stays without one. The exception are search directories: between
`spfs_entity_dir_create` and `spfs_entity_dir_add_child` they are known to another thread.

What was found once is found again: `Heap.Grows.walk`, `Heap.Grows.find_path` and
`Heap.Grows.follow_link`.
-/

namespace Spotifile

/-! ## The kind of an entity -/

/-- The data of an entity that no operation changes. -/
def EntityData.shape : EntityData → EntityData
  | .file ops _ => .file ops 0
  | .dir ops _ => .dir ops []
  | .link _ => .link []

/-- The `readdir` of a directory. -/
def spfs_entity.readdir (e : spfs_entity) : Option SpfsReaddirFunc :=
  match e.e with
  | .dir ops _ => ops.readdir
  | _ => none

/-- The target of a link. -/
def spfs_entity.target (e : spfs_entity) : Option gstr :=
  match e.e with
  | .link target => some target
  | _ => none

/-- The `readdir` is part of the shape. -/
lemma spfs_entity.readdir_eq_of_shape {e e' : spfs_entity} (h : e'.e.shape = e.e.shape) :
    e'.readdir = e.readdir := by
  rcases e with ⟨_, _, _, _, _ | _ | _⟩ <;> rcases e' with ⟨_, _, _, _, _ | _ | _⟩ <;>
    simp_all [EntityData.shape, spfs_entity.readdir]

/-- A child does not change the shape of its directory. -/
@[simp] lemma shape_insert_child (name : gstr) (child : Ptr) (e : spfs_entity) :
    (e.insert_child name child).e.shape = e.e.shape := by
  rcases e with ⟨_, _, _, _, _ | _ | _⟩ <;> rfl

/-- A child does not change the `auxdata` of its directory. -/
@[simp] lemma auxdata_insert_child (name : gstr) (child : Ptr) (e : spfs_entity) :
    (e.insert_child name child).auxdata = e.auxdata := by
  rcases e with ⟨_, _, _, _, _ | _ | _⟩ <;> rfl

/-- No target changes with a child. -/
@[simp] lemma target_insert_child (name : gstr) (child : Ptr) (e : spfs_entity) :
    (e.insert_child name child).target = e.target := by
  rcases e with ⟨_, _, _, _, _ | _ | _⟩ <;> rfl

/-- An entity, later: name and kind are as they were. -/
structure spfs_entity.Alike (e e' : spfs_entity) : Prop where
  name : e'.name = e.name
  shape : e'.e.shape = e.e.shape
  auxdata : e.readdir ≠ some .search_readdir → e'.auxdata = e.auxdata

namespace spfs_entity.Alike

/-- An entity is like itself. -/
lemma refl (e : spfs_entity) : e.Alike e := ⟨rfl, rfl, fun _ => rfl⟩

/-- Entities that are alike have the same `readdir`. -/
lemma readdir {e e' : spfs_entity} (h : e.Alike e') : e'.readdir = e.readdir :=
  spfs_entity.readdir_eq_of_shape h.shape

/-- What is like something that is like an entity is like the entity. -/
lemma trans {e e' e'' : spfs_entity} (h : e.Alike e') (h' : e'.Alike e'') : e.Alike e'' where
  name := h'.name.trans h.name
  shape := h'.shape.trans h.shape
  auxdata := by
    intro hs
    rw [h'.auxdata (by rwa [h.readdir]), h.auxdata hs]

end spfs_entity.Alike

/-- What becomes of an entity. -/
structure spfs_entity.Grows (e e' : spfs_entity) : Prop extends e.Alike e' where
  parent : ∀ p, e.parent = some p → e'.parent = some p
  orphan : e.parent = none → e.readdir ≠ some .search_readdir → e'.parent = none

namespace spfs_entity.Grows

/-- An entity that stays as it is has grown. -/
lemma refl (e : spfs_entity) : e.Grows e := ⟨.refl e, fun _ h => h, fun h _ => h⟩

/-- An entity that has grown twice has grown. -/
lemma trans {e e' e'' : spfs_entity} (h : e.Grows e') (h' : e'.Grows e'') : e.Grows e'' where
  toAlike := h.toAlike.trans h'.toAlike
  parent p hp := h'.parent p (h.parent p hp)
  orphan hp hs := h'.orphan (h.orphan hp hs) (by rwa [h.toAlike.readdir])

end spfs_entity.Grows

/-! ## Growth -/

namespace Heap

/-- The `readdir` of the entity at a pointer. -/
def readdir (h : Heap) (p : Ptr) : Option SpfsReaddirFunc := (h.get p).bind spfs_entity.readdir

/-- The target of the link at a pointer. -/
def target (h : Heap) (p : Ptr) : Option gstr := (h.get p).bind spfs_entity.target

/-- A change that keeps the target of its entity keeps all targets. -/
lemma target_modify {f : spfs_entity → spfs_entity} (h : Heap) (p q : Ptr)
    (hf : ∀ e, (f e).target = e.target) : (h.modify p f).target q = h.target q := by
  rw [target, get_modify]
  split
  · rw [Option.bind_map]
    exact congrArg _ (funext hf)
  · rfl

/-- What becomes of the heap. -/
structure Grows (h h' : Heap) : Prop where
  root : h'.spfs_root = h.spfs_root
  get : ∀ p e, h.get p = some e → ∃ e', h'.get p = some e' ∧ e.Grows e'
  lookup : ∀ p key q, h.lookup p key = some q → h'.lookup p key = some q

namespace Grows

/-- A heap that stays as it is has grown. -/
lemma refl (h : Heap) : h.Grows h :=
  ⟨rfl, fun _ e he => ⟨e, he, .refl e⟩, fun _ _ _ hq => hq⟩

/-- A heap that has grown twice has grown. -/
lemma trans {h h' h'' : Heap} (hg : h.Grows h') (hg' : h'.Grows h'') : h.Grows h'' where
  root := hg'.root.trans hg.root
  get := by
    intro p e he
    obtain ⟨e', he', hee'⟩ := hg.get p e he
    obtain ⟨e'', he'', hee''⟩ := hg'.get p e' he'
    exact ⟨e'', he'', hee'.trans hee''⟩
  lookup p key q hq := hg'.lookup p key q (hg.lookup p key q hq)

variable {h h' : Heap}

/-- Names stay. -/
lemma name (hg : h.Grows h') {p : Ptr} {name : gstr} (hp : h.name p = some name) :
    h'.name p = some name := by
  obtain ⟨e, he, hname⟩ := Option.bind_eq_some_iff.mp hp
  obtain ⟨e', he', hee'⟩ := hg.get p e he
  rw [Heap.name, he', Option.bind_some, hee'.name, hname]

/-- Parents stay, once they are set. -/
lemma parent (hg : h.Grows h') {p q : Ptr} (hp : h.parent p = some q) :
    h'.parent p = some q := by
  obtain ⟨e, he, hparent⟩ := Option.bind_eq_some_iff.mp hp
  obtain ⟨e', he', hee'⟩ := hg.get p e he
  rw [Heap.parent, he', Option.bind_some, hee'.parent q hparent]

/-- What a directory has as its `readdir` stays. -/
lemma readdir (hg : h.Grows h') {p : Ptr} {f : SpfsReaddirFunc} (hp : h.readdir p = some f) :
    h'.readdir p = some f := by
  obtain ⟨e, he, hreaddir⟩ := Option.bind_eq_some_iff.mp hp
  obtain ⟨e', he', hee'⟩ := hg.get p e he
  rw [Heap.readdir, he', Option.bind_some, hee'.toAlike.readdir, hreaddir]

/-- A walk still ends where it did. -/
lemma walk (hg : h.Grows h') {cs : List gstr} {p q : Ptr} (hq : h.walk p cs = some q) :
    h'.walk p cs = some q := by
  induction cs generalizing p with
  | nil => exact hq
  | cons c cs ih =>
    rw [walk_cons] at hq ⊢
    obtain ⟨r, hr, hrest⟩ := Option.bind_eq_some_iff.mp hq
    rw [hg.lookup p c r hr]
    exact ih hrest

/-- The last step of a search still ends where it did. -/
lemma find_last (hg : h.Grows h') {p q : Ptr} {e : spfs_entity} {c : gstr}
    (hp : h.get p = some e) (hq : h.find_last p c = some q) : h'.find_last p c = some q := by
  obtain ⟨e', he', hee'⟩ := hg.get p e hp
  have hname : h'.name p = h.name p := by
    rw [Heap.name, Heap.name, hp, he']
    exact hee'.name
  unfold Heap.find_last at hq ⊢
  rw [hname]
  by_cases hc : h.name p = some c
  · rwa [if_pos hc] at hq ⊢
  · rw [if_neg hc] at hq ⊢
    exact hg.lookup p c q hq

/-- A path that was found is found again, at the same entity. -/
lemma find_path (hg : h.Grows h') (hh : h.Tree) {cs : List gstr} {root q : Ptr} {path : gstr}
    (hroot : h.walk 0 cs = some root) (hq : spfs_entity_find_path h root path = some q) :
    spfs_entity_find_path h' root path = some q := by
  obtain ⟨rfl, rfl⟩ | ⟨hnil, hslash, p, hp, hlast⟩ := spfs_entity_find_path_cases hq
  · rfl
  have hplace : h.walk 0 (cs ++ (components (path.splitOn '/')).dropLast) = some p := by
    rw [walk_append, hroot]
    exact hp
  obtain ⟨e, he⟩ := Heap.exists_get_of_lt (hh.lt_fresh_of_walk hplace)
  rw [spfs_entity_find_path_eq hnil hslash, hg.walk hp, Option.bind_some]
  exact hg.find_last he hlast

/-- Steps along a link still end where they did. -/
lemma foldlM_follow_step (hg : h.Grows h') {cs : List gstr} {p q : Ptr}
    (hq : cs.foldlM h.follow_step p = some q) : cs.foldlM h'.follow_step p = some q := by
  induction cs generalizing p with
  | nil => exact hq
  | cons c cs ih =>
    rw [List.foldlM_cons] at hq ⊢
    obtain ⟨r, hr, hrest⟩ := Option.bind_eq_some_iff.mp hq
    have hr' : h'.follow_step p c = some r := by
      unfold follow_step at hr ⊢
      split at hr
      · next hup =>
        rw [if_pos hup]
        exact hg.parent hr
      · next hup =>
        rw [if_neg hup]
        split at hr
        · next hhere => rwa [if_pos hhere]
        · next hhere =>
          rw [if_neg hhere]
          exact hg.lookup p c r hr
    rw [hr']
    exact ih hrest

/-- A link that leads somewhere goes on leading there. -/
lemma follow_link (hg : h.Grows h') {dir q : Ptr} {target : gstr}
    (hq : h.follow_link dir target = some q) : h'.follow_link dir target = some q := by
  unfold Heap.follow_link at hq ⊢
  split at hq
  · cases hq
  · next htarget =>
    rw [if_neg htarget]
    exact hg.foldlM_follow_step hq

/-! ## The operations -/

/-- A new entity is growth. -/
lemma alloc (hg : h.Grows h') {e : spfs_entity} (he : e.New) : h.Grows (h'.alloc e) where
  root := hg.root
  get := by
    intro p e₀ he₀
    obtain ⟨e₁, he₁, hee₁⟩ := hg.get p e₀ he₀
    refine ⟨e₁, ?_, hee₁⟩
    rw [get_alloc, if_neg (lt_fresh_of_get he₁).ne]
    exact he₁
  lookup := by
    intro p key q hq
    rw [lookup_alloc he]
    exact hg.lookup p key q hq

/-- A write that leaves names, parents, kinds and tables alone. -/
lemma modify (hg : h.Grows h') (p : Ptr) {f : spfs_entity → spfs_entity}
    (hf : ∀ e, h'.get p = some e → e.Grows (f e))
    (hchildren : ∀ e, (f e).e.children = e.e.children) : h.Grows (h'.modify p f) where
  root := hg.root
  get := by
    intro q e₀ he₀
    obtain ⟨e₁, he₁, hee₁⟩ := hg.get q e₀ he₀
    rw [get_modify]
    split
    · next hpq =>
      subst hpq
      exact ⟨f e₁, by rw [he₁, Option.map_some], hee₁.trans (hf e₁ he₁)⟩
    · exact ⟨e₁, he₁, hee₁⟩
  lookup := by
    intro q key r hr
    rw [lookup_modify p q key hchildren]
    exact hg.lookup q key r hr

end Grows

/-- An entity after the two writes of `spfs_entity_dir_add_child`. -/
lemma exists_get_link_child {h : Heap} {p : Ptr} {e : spfs_entity} (he : h.get p = some e)
    (parent child : Ptr) (name : gstr) :
    ∃ e', (h.link_child parent child name).get p = some e' ∧ e.Alike e' ∧ e'.target = e.target ∧
      e'.parent = if child = p then some parent else e.parent := by
  suffices hall : ∃ e', (h.link_child parent child name).get p = some e' ∧ e'.name = e.name ∧
      e'.e.shape = e.e.shape ∧ e'.auxdata = e.auxdata ∧ e'.target = e.target ∧
      e'.parent = if child = p then some parent else e.parent by
    obtain ⟨e', he', hname, hshape, haux, hrest⟩ := hall
    exact ⟨e', he', ⟨hname, hshape, fun _ => haux⟩, hrest⟩
  have hset : ∀ q, ({ e with parent := some q } : spfs_entity).target = e.target := fun _ => rfl
  rw [link_child, get_modify, get_modify, he]
  by_cases hchild : child = p
  · by_cases hparent : parent = p
    · exact ⟨_, by rw [if_pos hparent, if_pos hchild]; rfl, by simp [hchild, hset]⟩
    · exact ⟨_, by rw [if_neg hparent, if_pos hchild]; rfl, by simp [hchild, hset]⟩
  · by_cases hparent : parent = p
    · exact ⟨_, by rw [if_pos hparent, if_neg hchild]; rfl, by simp [hchild]⟩
    · exact ⟨_, by rw [if_neg hparent, if_neg hchild], by simp [hchild]⟩

/-- An entity that was not there before, or a search directory, is added to a directory. -/
lemma Grows.add_child {h h' : Heap} (hg : h.Grows h') (hh : h'.Tree) {parent child : Ptr}
    (horphan : h'.parent child = none)
    (hnew : h.get child = none ∨ h'.readdir child = some .search_readdir) :
    h.Grows (spfs_entity_dir_add_child h' parent child) := by
  rcases spfs_entity_dir_add_child_cases h' parent child with
    heq | ⟨name, table, hname, htable, -, hhas, heq⟩
  · rwa [heq]
  · rw [hh.has_child_eq hname, Option.isSome_eq_false_iff, Option.isNone_iff_eq_none] at hhas
    rw [heq]
    refine ⟨hg.root, ?_, ?_⟩
    · intro p e he
      obtain ⟨e₁, he₁, hee₁⟩ := hg.get p e he
      obtain ⟨e₂, he₂, halike, -, hparent⟩ := exists_get_link_child he₁ parent child name
      refine ⟨e₂, he₂, hee₁.trans ?_⟩
      have hchild : child = p → e₁.parent = none ∧ e₁.readdir = some .search_readdir := by
        rintro rfl
        refine ⟨by simpa [Heap.parent, he₁] using horphan, ?_⟩
        rcases hnew with hnone | hsearch
        · rw [he] at hnone
          cases hnone
        · simpa [Heap.readdir, he₁] using hsearch
      refine ⟨halike, ?_, ?_⟩
      · intro q hq
        rw [hparent, if_neg]
        · exact hq
        · intro hcp
          rw [(hchild hcp).1] at hq
          cases hq
      · intro hq hs
        rw [hparent, if_neg fun hcp => hs (hchild hcp).2]
        exact hq
    · intro p key q hq
      have hq' := hg.lookup p key q hq
      rw [lookup_link_child htable hhas, if_neg]
      · exact hq'
      · rintro ⟨rfl, rfl⟩
        rw [hhas] at hq'
        cases hq'

end Heap

end Spotifile
