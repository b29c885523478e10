import Mathlib.Logic.Relation
import Spotifile.Links

/-!
# The tree in every reachable state

A children table, the key of an entry, the name of the entity behind it and its parent pointer are
four views of one tree. `Heap.WellFormed` says that they agree, without a word on how the tree came
about; `mount_wellFormed` is that it holds in every state that the mounted file system can reach,
with any number of threads. It follows from `Heap.Tree`, of which every instruction is known to keep
it.

The full path of an entity is then a name for it: `component_walk` leads from the root along the
path back to the entity.
-/

namespace Spotifile

open Lib

/-! ## The property -/

namespace Heap

/-- The parent pointer of an entity. -/
def Up (h : Heap) (p q : Ptr) : Prop := h.parent p = some q

/-- The children tables, the names and the parent pointers describe one tree, and full paths are
names of its entities. -/
structure WellFormed (h : Heap) (root : Ptr) : Prop where
  /-- An entry is stored under the name of its entity, which points back to the directory. -/
  entry : ∀ dir table name p, h.children dir = some table → (name, p) ∈ table →
    h.name p = some name ∧ h.parent p = some dir
  /-- The name is one that a lookup can ask for. -/
  name : ∀ dir table name p, h.children dir = some table → (name, p) ∈ table →
    name ≠ [] ∧ '/' ∉ name ∧ spfs_sanitize_name name = name
  keys : ∀ dir table, h.children dir = some table → (table.map Prod.fst).Nodup
  /-- No entity is in two tables, or twice in one. -/
  once : ∀ dir dir' table table' name name' p, h.children dir = some table →
    h.children dir' = some table' → (name, p) ∈ table → (name', p) ∈ table' →
    dir = dir' ∧ name = name'
  acyclic : ∀ p, ¬ Relation.TransGen h.Up p p
  /-- The parents of whatever the tables lead to lead back. -/
  rooted : ∀ names p, h.walk root names = some p → Relation.ReflTransGen h.Up p root
  full_path : ∀ names p, h.walk root names = some p → h.path_length p < PATH_MAX →
    ∃ path, spfs_entity_get_full_path h p = some path ∧ component_walk h root path = some p
  injective : ∀ names names' p p', h.walk root names = some p → h.walk root names' = some p' →
    h.path_length p < PATH_MAX → h.path_length p' < PATH_MAX →
    spfs_entity_get_full_path h p = spfs_entity_get_full_path h p' → p = p'

variable {h : Heap}

/-! ## Paths and walks -/

/-- A path that is written from names is walked along these names. -/
lemma component_walk_slashed {names : List gstr} (hnil : ∀ c ∈ names, c ≠ [])
    (hslash : ∀ c ∈ names, '/' ∉ c) (root : Ptr) :
    component_walk h root (if names = [] then ['/'] else slashed '/' names)
      = h.walk root names := by
  by_cases hn : names = []
  · rw [if_pos hn, component_walk, if_pos rfl, hn, walk_nil]
  · have hsplit : (slashed '/' names).splitOn '/' = [] :: names := by
      have := splitOn_append_slashed (c := []) List.not_mem_nil hslash
      rwa [List.nil_append] at this
    have hcomps : components ((slashed '/' names).splitOn '/') = names := by
      rw [hsplit, components_cons_nil, components, List.filter_eq_self]
      intro c hc
      simpa using hnil c hc
    have hroot : slashed '/' names ≠ ['/'] := by
      obtain ⟨c, rest, rfl⟩ := List.exists_cons_of_ne_nil hn
      have hc := hnil c List.mem_cons_self
      simp [hc]
    rw [if_neg hn, component_walk, if_neg hroot, if_neg (by rw [hcomps]; exact hn), hcomps]

namespace Tree

/-- The full path of an entity leads to it. -/
lemma exists_full_path (hh : h.Tree) {names : List gstr} {p : Ptr} (hp : h.walk 0 names = some p)
    (hlen : h.path_length p < PATH_MAX) :
    ∃ path, spfs_entity_get_full_path h p = some path ∧ component_walk h 0 path = some p := by
  refine ⟨_, hh.get_full_path_walk hp hlen, ?_⟩
  have hnames := hh.walk_names hp
  rw [component_walk_slashed (fun c hc => (hnames c hc).1) fun c hc => (hnames c hc).2, hp]

/-- An entity is younger than its ancestors. -/
lemma lt_of_transGen (hh : h.Tree) {p q : Ptr} (hpq : Relation.TransGen h.Up p q) : q < p := by
  induction hpq with
  | single hup => exact (hh.child p _ hup).1
  | tail _ hup ih => exact (hh.child _ _ hup).1.trans ih

/-- The parents of an entity lead back along the walk to it. -/
lemma reflTransGen_of_walk (hh : h.Tree) {names : List gstr} {p : Ptr}
    (hp : h.walk 0 names = some p) : Relation.ReflTransGen h.Up p 0 := by
  induction names using List.reverseRecOn generalizing p with
  | nil =>
    obtain rfl : 0 = p := Option.some.inj hp
    exact .refl
  | append_singleton names c ih =>
    rw [walk_concat] at hp
    obtain ⟨q, hq, hlookup⟩ := Option.bind_eq_some_iff.mp hp
    obtain ⟨-, -, hparent⟩ := hh.entry q c p hlookup
    exact .head hparent (ih hq)

/-- What the functions of `spfs_fuse_entity.c` keep is a well-formed tree. -/
theorem wellFormed (hh : h.Tree) : h.WellFormed 0 where
  entry := by
    intro dir table name p htable hmem
    have hlookup := lookup_of_mem (hh.distinct dir table htable) htable hmem
    exact (hh.entry dir name p hlookup).2
  name := by
    intro dir table name p htable hmem
    have hlookup := lookup_of_mem (hh.distinct dir table htable) htable hmem
    obtain ⟨hne, hname, -⟩ := hh.entry dir name p hlookup
    have hsan := hh.sanitized p name hname
    refine ⟨hne, ?_, hsan⟩
    rw [← hsan]
    exact slash_notMem_sanitize_name name
  keys := hh.distinct
  once := by
    intro dir dir' table table' name name' p htable htable' hmem hmem'
    have hlookup := lookup_of_mem (hh.distinct dir table htable) htable hmem
    have hlookup' := lookup_of_mem (hh.distinct dir' table' htable') htable' hmem'
    obtain ⟨-, hname, hparent⟩ := hh.entry dir name p hlookup
    obtain ⟨-, hname', hparent'⟩ := hh.entry dir' name' p hlookup'
    constructor
    · exact Option.some.inj (hparent.symm.trans hparent')
    · exact Option.some.inj (hname.symm.trans hname')
  acyclic p hp := lt_irrefl p (hh.lt_of_transGen hp)
  rooted _ _ := hh.reflTransGen_of_walk
  full_path _ _ := hh.exists_full_path
  injective := by
    intro names names' p p' hp hp' hlen hlen' heq
    obtain ⟨path, hpath, hwalk⟩ := hh.exists_full_path hp hlen
    obtain ⟨path', hpath', hwalk'⟩ := hh.exists_full_path hp' hlen'
    obtain rfl : path = path' := Option.some.inj (hpath.symm.trans (heq.trans hpath'))
    exact Option.some.inj (hwalk.symm.trans hwalk')

end Tree

end Heap

/-! ## Runs -/

/-- In every state that listings, look-ups, `mkdir` and the callbacks of searches lead to, in any
order and on any threads, the entities are a well-formed tree. -/
theorem mount_wellFormed {links : SpotifyLinks}
    {l : List (World MountInstr Mount ℕ × Action ℕ MountCall Spotify)}
    {w : World MountInstr Mount ℕ} (hl : Trace (mount_system links) (World.idle Mount.init) l w) :
    ∃ root, w.shared.heap.spfs_root = some root ∧ w.shared.heap.WellFormed root := by
  have hinv : w.shared.Inv False := mount_inv False.elim hl False.elim
  exact ⟨0, hinv.wf.tree.root, hinv.wf.tree.wellFormed⟩

set_option maxRecDepth 100000 in
/-- The theorem at the run that lists a playlist, after which the directory of the playlist holds
an entry. -/
theorem list_playlist_wellFormed : ∃ l w,
    Trace (mount_system numbered_links) (World.idle Mount.init) l w ∧
    w.shared.heap.lookup 10 "T".toList = some 23 ∧
    ∃ root, w.shared.heap.spfs_root = some root ∧ w.shared.heap.WellFormed root := by
  obtain ⟨l, w, hl, -, hentry⟩ := Trace.exists_of_run (mount_system numbered_links)
    (fun _ _ => True) (World.idle Mount.init) list_playlist
    (fun w => w.shared.heap.lookup 10 "T".toList = some 23) (by decide +kernel)
  exact ⟨l, w, hl, hentry, mount_wellFormed hl⟩

end Spotifile
