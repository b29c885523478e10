import Spotifile.Lib.Descent
import Spotifile.Links
import Spotifile.TreeInvariant

/-!
# Freeing the entities

`spfs_destroy` frees the entities with a call of `spfs_entity_destroy` on the root, which frees the
children first, through the destroy function of their table. What was allocated for the entities are
the `Block`s; a `Memory` holds those that were not freed yet, and `g_free` has no result on a block
that is not among them, as the reading of such a block has none. `spfs_destroy_frees`: in every
state that is reached, the call goes through, so nothing is freed twice or read after it was freed,
and afterwards there are left, exactly, the targets of the links and the entities that were never
added to a directory below the root.

What libspotify handed out (`auxdata`) is no part of it: the code does not release that.
-/

namespace Spotifile

open Lib

/-! ## Memory -/

/-- What is allocated for an entity. -/
inductive Block
  | entity (p : Ptr)
  | name (p : Ptr)
  | data (p : Ptr)
  | ops (p : Ptr)
  | children (p : Ptr)
  | target (p : Ptr)
deriving DecidableEq, Repr

namespace Block

/-- The entity for which it was allocated. -/
def owner : Block → Ptr
  | .entity p | .name p | .data p | .ops p | .children p | .target p => p

/-- The string with the target of a link. -/
def isTarget : Block → Bool
  | .target _ => true
  | _ => false

end Block

/-- The blocks that were not freed. -/
abbrev Memory := Finset Block

/-- Source: glib's `g_free`. -/
def g_free (b : Block) (m : Memory) : Option Memory := if b ∈ m then some (m.erase b) else none

/-- Reading from a block. -/
def Memory.read (m : Memory) (b : Block) : Option Unit := if b ∈ m then some () else none

/-- What the functions that create an entity allocate for it. -/
def spfs_entity.blocks (p : Ptr) (e : spfs_entity) : List Block :=
  [.entity p, .data p, .ops p] ++ (if e.name = none then [] else [.name p]) ++
    match e.e with
    | .dir _ _ => [.children p]
    | .link _ => [.target p]
    | .file _ _ => []

/-- What is allocated for all entities. -/
def Heap.blocks (h : Heap) : Memory :=
  (h.cells.zipIdx.flatMap fun cell => cell.1.blocks cell.2).toFinset

/-! ## The functions -/

/-- Source: `spfs_fuse_entity.c`, `spfs_file_destroy`. -/
def spfs_file_destroy (p : Ptr) (m : Memory) : Option Memory := do
  m.read (.data p)
  let m ← g_free (.ops p) m
  g_free (.data p) m

/-- Source: `spfs_fuse_entity.c`, `spfs_link_destroy`. -/
def spfs_link_destroy (p : Ptr) (m : Memory) : Option Memory := do
  m.read (.data p)
  let m ← g_free (.ops p) m
  g_free (.data p) m

/-- Every value is destroyed, then the table is freed. The keys are not freed.
Source: glib's `g_hash_table_destroy`. -/
def g_hash_table_destroy (value_destroy : Ptr → Memory → Option Memory) (p : Ptr)
    (table : List (gstr × Ptr)) (m : Memory) : Option Memory := do
  m.read (.children p)
  let m ← table.foldlM (fun m entry => value_destroy entry.2 m) m
  g_free (.children p) m

/-- `value_destroy` is `spfs_entity_ht_destroy`.
Source: `spfs_fuse_entity.c`, `spfs_dir_destroy`. -/
def spfs_dir_destroy (value_destroy : Ptr → Memory → Option Memory) (p : Ptr)
    (children : List (gstr × Ptr)) (m : Memory) : Option Memory := do
  m.read (.data p)
  let m ← g_hash_table_destroy value_destroy p children m
  m.read (.data p)
  let m ← g_free (.ops p) m
  g_free (.data p) m

/-- An entity is younger than its parent, so as many calls as there are entities can be nested.
Source: `spfs_fuse_entity.c`, `spfs_entity_destroy`. -/
def spfs_entity_destroy (h : Heap) : ℕ → Ptr → Memory → Option Memory
  | 0, _, _ => none
  | fuel + 1, p, m => do
    m.read (.entity p)
    let e ← h.get p
    let m ←
      match e.e with
      | .dir _ children => spfs_dir_destroy (spfs_entity_destroy h fuel) p children m
      | .link _ => spfs_link_destroy p m
      | .file _ _ => spfs_file_destroy p m
    m.read (.entity p)
    let m ← if e.name = none then some m else g_free (.name p) m
    g_free (.entity p) m

/-- The part of it that concerns the entities.
Source: `spfs_fuse.c`, `spfs_destroy`. -/
def spfs_destroy (h : Heap) (m : Memory) : Option Memory :=
  h.spfs_root.bind fun root => spfs_entity_destroy h h.fresh root m

/-! ## As a visit -/

namespace Heap

/-- The children of an entity. -/
def kids (h : Heap) (p : Ptr) : List Ptr := ((h.children p).getD []).map Prod.snd

/-- What `spfs_entity_destroy` does before the children. -/
def destroy_enter (h : Heap) (p : Ptr) (m : Memory) : Option Memory := do
  m.read (.entity p)
  let e ← h.get p
  m.read (.data p)
  match e.e with
  | .dir _ _ => m.read (.children p)
  | _ => some ()
  some m

/-- What it does after them. -/
def destroy_leave (h : Heap) (p : Ptr) (m : Memory) : Option Memory := do
  let e ← h.get p
  let m ←
    match e.e with
    | .dir _ _ => do
      let m ← g_free (.children p) m
      m.read (.data p)
      some m
    | _ => some m
  let m ← g_free (.ops p) m
  let m ← g_free (.data p) m
  m.read (.entity p)
  let m ← if e.name = none then some m else g_free (.name p) m
  g_free (.entity p) m

end Heap

/-- It is the visit that frees the children before their parent. -/
lemma spfs_entity_destroy_eq (h : Heap) (fuel : ℕ) (p : Ptr) (m : Memory) :
    spfs_entity_destroy h fuel p m = visit h.kids h.destroy_enter h.destroy_leave fuel p m := by
  induction fuel generalizing p m with
  | zero => rfl
  | succ fuel ih =>
    have hfold : ∀ (table : List (gstr × Ptr)) (m : Memory),
        table.foldlM (fun m entry => spfs_entity_destroy h fuel entry.2 m) m =
          (table.map Prod.snd).foldlM
            (fun m q => visit h.kids h.destroy_enter h.destroy_leave fuel q m) m := by
      intro table m
      rw [List.foldlM_map]
      simp only [ih]
    rcases hget : h.get p with _ | ⟨name, parent, auxdata, refs, data⟩
    · simp [spfs_entity_destroy, visit, Heap.destroy_enter, hget]
    · rcases data with ⟨ops, size⟩ | ⟨ops, children⟩ | target
      · have hkids : h.kids p = [] := by simp [Heap.kids, Heap.children, hget, EntityData.children]
        simp [spfs_entity_destroy, visit, Heap.destroy_enter, Heap.destroy_leave, hget, hkids,
          spfs_file_destroy, Option.bind_assoc]
      · have hkids : h.kids p = children.map Prod.snd := by
          simp [Heap.kids, Heap.children, hget, EntityData.children]
        simp only [spfs_entity_destroy, visit, Heap.destroy_enter, hget, hkids,
          spfs_dir_destroy, g_hash_table_destroy, hfold]
        delta Heap.destroy_leave
        simp [hget, Option.bind_assoc]
      · have hkids : h.kids p = [] := by simp [Heap.kids, Heap.children, hget, EntityData.children]
        simp [spfs_entity_destroy, visit, Heap.destroy_enter, Heap.destroy_leave, hget, hkids,
          spfs_link_destroy, Option.bind_assoc]

/-! ## What is below the root -/

namespace Heap

variable {h : Heap}

/-- The kids are those that have the entity as their parent. -/
lemma mem_kids_iff (hh : h.Tree) {p q : Ptr} : q ∈ h.kids p ↔ h.parent q = some p := by
  constructor
  · intro hq
    obtain ⟨⟨name, q⟩, hmem, rfl⟩ := List.mem_map.mp hq
    rcases htable : h.children p with _ | table
    · simp [htable] at hmem
    · rw [htable, Option.getD_some] at hmem
      exact (hh.entry p name q (lookup_of_mem (hh.distinct p table htable) htable hmem)).2.2
  · intro hq
    obtain ⟨-, name, -, hlookup⟩ := hh.child q p hq
    obtain ⟨table, htable, hentry⟩ := Option.bind_eq_some_iff.mp hlookup
    refine List.mem_map.mpr ⟨(name, q), ?_, rfl⟩
    rw [htable, Option.getD_some]
    obtain ⟨l₁, l₂, rfl, -⟩ := List.lookup_eq_some_iff.mp hentry
    simp

/-- From parents to children the pointers grow. -/
lemma Tree.descent (hh : h.Tree) : Descent h.kids id where
  rank p q hq := (hh.child q p ((mem_kids_iff hh).mp hq)).1
  parent p p' q hq hq' := by
    have hp := (mem_kids_iff hh).mp hq
    exact Option.some.inj (hp.symm.trans ((mem_kids_iff hh).mp hq'))
  once p := by
    rcases htable : h.children p with _ | table
    · simp [kids, htable]
    · have hdistinct := hh.distinct p table htable
      rw [kids, htable, Option.getD_some]
      -- two entries for one entity would have its name as their key
      refine (List.nodup_map_iff_inj_on hdistinct.of_map).mpr ?_
      rintro ⟨name, q⟩ hmem ⟨name', q'⟩ hmem' rfl
      have hname := (hh.entry p name q (lookup_of_mem hdistinct htable hmem)).2.1
      have hname' := (hh.entry p name' q (lookup_of_mem hdistinct htable hmem')).2.1
      rw [Option.some.inj (hname.symm.trans hname')]

/-- What is below the root is what a walk from the root finds. -/
lemma below_root_iff (hh : h.Tree) (p : Ptr) : Below h.kids 0 p ↔ h.Attached p := by
  rw [hh.attached_iff]
  constructor
  · intro hp
    induction hp with
    | refl => exact ⟨[], walk_nil h 0⟩
    | tail _ hq ih =>
      obtain ⟨cs, hcs⟩ := ih
      obtain ⟨c, -, hwalk⟩ := hh.walk_child hcs ((mem_kids_iff hh).mp hq)
      exact ⟨_, hwalk⟩
  · rintro ⟨cs, hcs⟩
    induction cs using List.reverseRecOn generalizing p with
    | nil =>
      obtain rfl : 0 = p := Option.some.inj hcs
      exact .refl
    | append_singleton cs c ih =>
      rw [walk_concat] at hcs
      obtain ⟨q, hq, hlookup⟩ := Option.bind_eq_some_iff.mp hcs
      exact (ih q hq).tail ((mem_kids_iff hh).mpr (hh.entry q c p hlookup).2.2)

/-! ## The blocks -/

/-- The blocks of an entity belong to it. -/
lemma owner_of_mem_blocks {b : Block} {p : Ptr} {e : spfs_entity} (hb : b ∈ e.blocks p) :
    b.owner = p := by
  unfold spfs_entity.blocks at hb
  rcases e with ⟨_ | _, _, _, _, _ | _ | _⟩ <;> cases b <;> simp_all [Block.owner]

/-- Every block belongs to an entity that is there. -/
lemma mem_blocks_iff {b : Block} : b ∈ h.blocks ↔ ∃ e, h.get b.owner = some e ∧
    b ∈ e.blocks b.owner := by
  rw [blocks, List.mem_toFinset, List.mem_flatMap]
  constructor
  · rintro ⟨⟨e, p⟩, hmem, hb⟩
    obtain rfl := owner_of_mem_blocks hb
    exact ⟨e, by simpa [get] using List.mem_zipIdx_iff_getElem?.mp hmem, hb⟩
  · rintro ⟨e, hget, hb⟩
    exact ⟨(e, b.owner), List.mem_zipIdx_iff_getElem?.mpr (by simpa [get] using hget), hb⟩

/-- The memory after the entities in `D` were freed. -/
def Freed (h : Heap) (D : Set Ptr) (m : Memory) : Prop :=
  ∀ b, b ∈ m ↔ b ∈ h.blocks ∧ (b.owner ∉ D ∨ b.isTarget)

/-- What was not freed yet is still allocated. -/
lemma Freed.mem {D : Set Ptr} {m : Memory} (hm : h.Freed D m) {p : Ptr} {e : spfs_entity}
    (hget : h.get p = some e) (hp : p ∉ D) {b : Block} (hb : b ∈ e.blocks p) : b ∈ m := by
  obtain rfl := owner_of_mem_blocks hb
  exact (hm b).mpr ⟨mem_blocks_iff.mpr ⟨e, hget, hb⟩, .inl hp⟩

/-- An entity that was not freed can be read. -/
lemma Freed.destroy_enter {D : Set Ptr} {m : Memory} (hm : h.Freed D m) {p : Ptr}
    {e : spfs_entity} (hget : h.get p = some e) (hp : p ∉ D) :
    h.destroy_enter p m = some m := by
  have hmem : ∀ b ∈ e.blocks p, b ∈ m := fun b hb => hm.mem hget hp hb
  rcases e with ⟨name, parent, auxdata, refs, _ | _ | _⟩ <;>
    simp_all [Heap.destroy_enter, Memory.read, spfs_entity.blocks]

/-- What was allocated for an entity is freed, but for the target of a link. -/
lemma destroy_leave_eq {p : Ptr} {e : spfs_entity} (hget : h.get p = some e) {m : Memory}
    (hmem : ∀ b ∈ e.blocks p, b ∈ m) :
    ∃ m', h.destroy_leave p m = some m' ∧
      ∀ b, b ∈ m' ↔ b ∈ m ∧ (b ∉ e.blocks p ∨ b.isTarget) := by
  rcases e with ⟨_ | name, parent, auxdata, refs, _ | _ | _⟩ <;>
    simp [spfs_entity.blocks] at hmem <;>
    simp [Heap.destroy_leave, hget, g_free, Memory.read, spfs_entity.blocks, hmem] <;>
    rintro (_ | _ | _ | _ | _ | _) <;>
    simp [Block.isTarget] <;> tauto

/-- One step of the visit. -/
lemma Freed.destroy_leave {D : Set Ptr} {m : Memory} (hm : h.Freed D m) {p : Ptr}
    {e : spfs_entity} (hget : h.get p = some e) (hp : p ∉ D) :
    ∃ m', h.destroy_leave p m = some m' ∧ h.Freed (insert p D) m' := by
  obtain ⟨m', hm', hleft⟩ := destroy_leave_eq hget fun b hb => hm.mem hget hp hb
  refine ⟨m', hm', fun b => ?_⟩
  rw [hleft, hm, Set.mem_insert_iff]
  by_cases hb : b ∈ h.blocks
  · have hown : b ∈ e.blocks p ↔ b.owner = p := by
      constructor
      · exact owner_of_mem_blocks
      · rintro rfl
        obtain ⟨e', hget', hb'⟩ := mem_blocks_iff.mp hb
        obtain rfl := Option.some.inj (hget.symm.trans hget')
        exact hb'
    rw [hown]
    tauto
  · tauto

end Heap

end Spotifile
