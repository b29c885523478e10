import Spotifile.Entity

/-!
# `spfs_entity_find_path` and the plain walk

`Heap.walk` looks the components of a path up, one after the other. `spfs_entity_find_path` does
the same with all components but the last: for the last it first compares the name of the entity
reached so far, and stays there if the names are equal (`find_path_loop_eq`). In a tree that was
built with `spfs_entity_dir_add_child` no entity is its own child, so a path is resolved by the
plain walk exactly if that comparison fails (`spfs_entity_find_path_eq_component_walk_iff`).
-/

namespace Spotifile

/-! ## The plain walk -/

/-- The elements that are not empty. -/
def components (elems : List gstr) : List gstr := elems.filter (· ≠ [])

/-- The entity reached from `root` by looking up the components one after the other. -/
def Heap.walk (h : Heap) (root : Ptr) (comps : List gstr) : Option Ptr :=
  comps.foldlM h.lookup root

/-- What a path stands for. -/
def component_walk (h : Heap) (root : Ptr) (path : gstr) : Option Ptr :=
  if path = ['/'] then some root
  else if components (path.splitOn '/') = [] then none
  else h.walk root (components (path.splitOn '/'))

/-- Without elements there are no components. -/
@[simp] lemma components_nil : components [] = [] := rfl

/-- An empty element is no component. -/
@[simp] lemma components_cons_nil (elems : List gstr) :
    components ([] :: elems) = components elems := by
  simp [components]

/-- Any other element is. -/
lemma components_cons {el : gstr} (hel : el ≠ []) (elems : List gstr) :
    components (el :: elems) = el :: components elems := by
  simp [components, hel]

namespace Heap

variable (h : Heap)

/-- Without components a walk ends where it begins. -/
@[simp] lemma walk_nil (root : Ptr) : h.walk root [] = some root := rfl

/-- A walk goes to the first component, and from there along the rest. -/
lemma walk_cons (root : Ptr) (c : gstr) (comps : List gstr) :
    h.walk root (c :: comps) = (h.lookup root c).bind fun p => h.walk p comps := rfl

/-- A walk goes along one list, and from there along the other. -/
lemma walk_append (root : Ptr) (comps comps' : List gstr) :
    h.walk root (comps ++ comps') = (h.walk root comps).bind fun p => h.walk p comps' :=
  List.foldlM_append

/-- The last step of a walk is a look-up. -/
lemma walk_concat (root : Ptr) (comps : List gstr) (c : gstr) :
    h.walk root (comps ++ [c]) = (h.walk root comps).bind fun p => h.lookup p c := by
  rw [walk_append]
  congr 1
  funext p
  rw [walk_cons]
  exact Option.bind_fun_some (h.lookup p c)

end Heap

/-! ## What the loops skip -/

/-- The leading loop stops at the first component, if there is one. -/
lemma skip_leading_of_components_cons {c : gstr} {cs elems : List gstr}
    (h : components elems = c :: cs) :
    ∃ rest, skip_leading elems = c :: rest ∧ components rest = cs ∧
      rest.length < elems.length := by
  fun_induction skip_leading elems with
  | case1 el elems ih =>
    rw [components_cons_nil] at h
    obtain ⟨rest, hskip, hrest, hlen⟩ := ih h
    exact ⟨rest, hskip, hrest, hlen.trans (Nat.lt_succ_self _)⟩
  | case2 elems hne =>
    rcases elems with _ | ⟨_ | ⟨a, el⟩, elems⟩
    · cases h
    · rcases elems with _ | ⟨el, elems⟩
      · cases h
      · exact absurd rfl (hne el elems)
    · rw [components_cons (List.cons_ne_nil a el)] at h
      obtain ⟨rfl, rfl⟩ := List.cons.inj h
      exact ⟨elems, rfl, rfl, Nat.lt_succ_self _⟩

/-- Without a component the leading loop stops at the last element, which is empty. -/
lemma skip_leading_of_components_nil {elems : List gstr} (hne : elems ≠ [])
    (h : components elems = []) : skip_leading elems = [[]] := by
  fun_induction skip_leading elems with
  | case1 el elems ih => exact ih (List.cons_ne_nil el elems) (by simpa using h)
  | case2 elems hlast =>
    rcases elems with _ | ⟨_ | ⟨a, el⟩, elems⟩
    · exact absurd rfl hne
    · rcases elems with _ | ⟨el, elems⟩
      · rfl
      · exact absurd rfl (hlast el elems)
    · rw [components_cons (List.cons_ne_nil a el)] at h
      cases h

/-- Empty elements at the end are no components. -/
@[simp] lemma components_skip_trailing (elems : List gstr) :
    components (skip_trailing elems) = components elems := by
  induction elems with
  | nil => rfl
  | cons el elems ih =>
    by_cases hel : el = []
    · subst hel
      simpa [skip_trailing] using ih
    · simp [skip_trailing, hel]

/-- Nothing is left exactly if there was no component. -/
lemma skip_trailing_eq_nil_iff (elems : List gstr) :
    skip_trailing elems = [] ↔ components elems = [] := by
  simp [skip_trailing, components, List.dropWhile_eq_nil_iff]

/-- Skipping makes the list no longer. -/
lemma length_skip_trailing_le (elems : List gstr) :
    (skip_trailing elems).length ≤ elems.length :=
  (List.dropWhile_suffix _).length_le

/-! ## The loop -/

/-- How the last element is looked up. -/
def Heap.find_last (h : Heap) (p : Ptr) (c : gstr) : Option Ptr :=
  if h.name p = some c then some p else h.lookup p c

/-- Once nothing is found the search is over. -/
@[simp] lemma find_path_loop_none (h : Heap) (fuel : ℕ) (elems : List gstr) :
    find_path_loop h fuel elems none = none := by
  cases fuel <;> rfl

/-- Without elements the search ends where it stands. -/
@[simp] lemma find_path_loop_nil (h : Heap) (fuel : ℕ) (found : Option Ptr) :
    find_path_loop h fuel [] found = found := by
  rcases fuel with _ | fuel
  · rfl
  · rcases found with _ | p
    · rfl
    · rfl

/-- One round of the search: it is over at an entity with the name of the last component, and else
goes on to the child. -/
lemma find_path_loop_succ {h : Heap} {fuel : ℕ} {elems rest : List gstr} {p : Ptr} {c : gstr}
    (hskip : skip_leading elems = c :: rest) :
    find_path_loop h (fuel + 1) elems (some p) =
      if skip_trailing rest = [] ∧ h.name p = some c then some p
      else find_path_loop h fuel (skip_trailing rest) (h.lookup p c) := by
  rw [find_path_loop, hskip]

/-- The last element. -/
lemma find_path_loop_last {h : Heap} {fuel : ℕ} {elems rest : List gstr} {p : Ptr} {c : gstr}
    (hskip : skip_leading elems = c :: rest) (hrest : components rest = []) :
    find_path_loop h (fuel + 1) elems (some p) = h.find_last p c := by
  have hend : skip_trailing rest = [] := (skip_trailing_eq_nil_iff rest).mpr hrest
  rw [find_path_loop_succ hskip, hend, find_path_loop_nil, Heap.find_last]
  by_cases hname : h.name p = some c
  · rw [if_pos ⟨rfl, hname⟩, if_pos hname]
  · rw [if_neg fun hand => hname hand.2, if_neg hname]

/-- The loop walks along all components but the last, and looks that one up by `find_last`. -/
lemma find_path_loop_eq {h : Heap} {fuel : ℕ} {elems : List gstr} (hfuel : elems.length ≤ fuel)
    (hne : elems ≠ []) (p : Ptr) :
    find_path_loop h fuel elems (some p) =
      (h.walk p (components elems).dropLast).bind fun q =>
        h.find_last q ((components elems).getLast?.getD []) := by
  induction fuel generalizing elems p with
  | zero => exact absurd (List.length_eq_zero_iff.mp (Nat.le_zero.mp hfuel)) hne
  | succ fuel ih =>
    rcases hcomps : components elems with _ | ⟨c, cs⟩
    · exact find_path_loop_last (skip_leading_of_components_nil hne hcomps) components_nil
    · obtain ⟨rest, hskip, hrest, hlen⟩ := skip_leading_of_components_cons hcomps
      rcases cs with _ | ⟨d, ds⟩
      · exact find_path_loop_last hskip hrest
      · have hgo : skip_trailing rest ≠ [] := by
          rw [Ne, skip_trailing_eq_nil_iff, hrest]
          exact List.cons_ne_nil d ds
        rw [find_path_loop_succ hskip, if_neg fun hand => hgo hand.1,
          List.dropLast_cons_of_ne_nil (List.cons_ne_nil d ds), Heap.walk_cons,
          List.getLast?_cons_cons]
        rcases h.lookup p c with _ | q
        · exact find_path_loop_none h fuel _
        · have hfuel' : (skip_trailing rest).length ≤ fuel := by
            have hle := length_skip_trailing_le rest
            omega
          rw [ih hfuel' hgo q, components_skip_trailing, hrest]
          rfl

/-- The result for a path that is neither empty nor the root. -/
lemma spfs_entity_find_path_eq {h : Heap} {root : Ptr} {path : gstr} (hnil : path ≠ [])
    (hroot : path ≠ ['/']) :
    spfs_entity_find_path h root path =
      (h.walk root (components (path.splitOn '/')).dropLast).bind fun p =>
        h.find_last p ((components (path.splitOn '/')).getLast?.getD []) := by
  rw [spfs_entity_find_path, if_neg hnil, if_neg hroot]
  exact find_path_loop_eq (Nat.le_refl _) (List.splitOn_ne_nil '/' path) root

/-- What is found is where the search starts, or what the last component leads to. -/
lemma spfs_entity_find_path_cases {h : Heap} {root q : Ptr} {path : gstr}
    (hq : spfs_entity_find_path h root path = some q) :
    (path = ['/'] ∧ q = root) ∨ path ≠ [] ∧ path ≠ ['/'] ∧ ∃ p,
      h.walk root (components (path.splitOn '/')).dropLast = some p ∧
      h.find_last p ((components (path.splitOn '/')).getLast?.getD []) = some q := by
  by_cases hnil : path = []
  · rw [spfs_entity_find_path, if_pos hnil] at hq
    cases hq
  by_cases hroot : path = ['/']
  · rw [spfs_entity_find_path, if_neg hnil, if_pos hroot] at hq
    exact .inl ⟨hroot, (Option.some.inj hq).symm⟩
  · rw [spfs_entity_find_path_eq hnil hroot] at hq
    exact .inr ⟨hnil, hroot, Option.bind_eq_some_iff.mp hq⟩

/-- What is found from a place that a walk from `start` leads to, a walk from `start` leads to. -/
lemma exists_walk_of_find_path {h : Heap} {start root q : Ptr} {cs : List gstr} {path : gstr}
    (hroot : h.walk start cs = some root) (hq : spfs_entity_find_path h root path = some q) :
    ∃ cs', h.walk start cs' = some q := by
  obtain ⟨-, rfl⟩ | ⟨-, -, p, hp, hlast⟩ := spfs_entity_find_path_cases hq
  · exact ⟨cs, hroot⟩
  have hplace : h.walk start (cs ++ (components (path.splitOn '/')).dropLast) = some p := by
    rw [Heap.walk_append, hroot]
    exact hp
  unfold Heap.find_last at hlast
  split at hlast
  · exact ⟨_, hplace.trans hlast⟩
  · have hchild := h.walk_concat start (cs ++ (components (path.splitOn '/')).dropLast)
      ((components (path.splitOn '/')).getLast?.getD [])
    rw [hplace] at hchild
    exact ⟨_, hchild.trans hlast⟩

/-! ## Trees -/

/-- The heaps that the functions of `spfs_fuse_entity.c` build. Nobody adds an entity to itself;
more is not asked for. -/
inductive Built : Heap → Prop
  | empty : Built ⟨[], none⟩
  | root {h : Heap} (ops : spfs_dir_ops) : Built h → Built (spfs_entity_root_create h ops)
  | file {h : Heap} (name : gstr) (ops : spfs_file_ops) : Built h →
      Built (h.alloc (spfs_entity_file_create name ops))
  | dir {h : Heap} (name : gstr) (ops : spfs_dir_ops) : Built h →
      Built (h.alloc (spfs_entity_dir_create (some name) ops))
  | link {h : Heap} (name : gstr) : Built h → Built (h.alloc (spfs_entity_link_create name))
  | auxdata {h : Heap} (p : Ptr) (auxdata : Option Auxdata) : Built h →
      Built (h.modify p fun e => { e with auxdata := auxdata })
  | link_set_target {h : Heap} (link : Ptr) (target : Option gstr) : Built h →
      Built (spfs_entity_link_set_target h link target)
  | add_child {h : Heap} {parent child : Ptr} (hne : parent ≠ child) : Built h →
      Built (spfs_entity_dir_add_child h parent child)

/-- No table has an entry without a name, or for the directory itself. -/
def Heap.Keyed (h : Heap) : Prop :=
  ∀ p children, h.children p = some children → ∀ entry ∈ children, entry.1 ≠ [] ∧ entry.2 ≠ p

namespace Heap.Keyed

/-- A new entity has an empty table. -/
lemma alloc {h : Heap} (hh : h.Keyed) {e : spfs_entity}
    (he : ∀ children, e.e.children = some children → children = []) : (h.alloc e).Keyed := by
  intro p children hp entry hentry
  rw [children_alloc] at hp
  split at hp
  · rw [he children hp] at hentry
    cases hentry
  · exact hh p children hp entry hentry

/-- A change that keeps the table of its entity keeps the keys. -/
lemma modify {h : Heap} (hh : h.Keyed) (p : Ptr) {f : spfs_entity → spfs_entity}
    (hf : ∀ e, (f e).e.children = e.e.children) : (h.modify p f).Keyed := by
  intro q children hq
  rw [children_modify h p q hf] at hq
  exact hh q children hq

/-- Setting a target touches no table. -/
lemma link_set_target {h : Heap} (hh : h.Keyed) (link : Ptr) (target : Option gstr) :
    (spfs_entity_link_set_target h link target).Keyed := by
  rcases target with _ | target
  · exact hh
  · apply hh.modify link
    rintro ⟨_, _, _, _, _ | _ | _⟩ <;> rfl

/-- A child is entered under the name that it then has. -/
lemma add_child {h : Heap} (hh : h.Keyed) {parent child : Ptr} (hne : parent ≠ child) :
    (spfs_entity_dir_add_child h parent child).Keyed := by
  rcases spfs_entity_dir_add_child_cases h parent child with
    heq | ⟨name, table, -, -, hname, -, heq⟩
  · rwa [heq]
  · rw [heq]
    intro p children hp entry hentry
    rw [children_link_child] at hp
    split at hp
    · next hparent =>
      obtain ⟨old, hold, rfl⟩ := Option.map_eq_some_iff.mp hp
      rcases mem_g_hash_table_insert hentry with hmem | rfl
      · exact hh p old hold entry hmem
      · exact ⟨hname, fun hself => hne (hparent.trans hself.symm)⟩
    · exact hh p children hp entry hentry

/-- What is looked up is never the directory itself. -/
lemma lookup {h : Heap} (hh : h.Keyed) {p q : Ptr} {c : gstr} (hq : h.lookup p c = some q) :
    c ≠ [] ∧ q ≠ p := by
  obtain ⟨children, hchildren, hlookup⟩ := Option.bind_eq_some_iff.mp hq
  obtain ⟨l₁, l₂, rfl, -⟩ := List.lookup_eq_some_iff.mp hlookup
  exact hh p _ hchildren (c, q) (by simp)

end Heap.Keyed

/-- Whatever is built with the functions of the module is keyed by the names. -/
lemma Built.keyed {h : Heap} (hh : Built h) : h.Keyed := by
  have hempty : ∀ (name : Option gstr) (ops : spfs_dir_ops) children,
      (spfs_entity_dir_create name ops).e.children = some children → children = [] :=
    fun _ _ _ hc => (Option.some.inj hc).symm
  induction hh with
  | empty => exact fun p children hp => by cases hp
  | root ops _ ih =>
    unfold spfs_entity_root_create
    split
    · exact ih.alloc (hempty none ops)
    · exact ih
  | file name ops _ ih => exact ih.alloc fun _ hc => by cases hc
  | dir name ops _ ih => exact ih.alloc (hempty (some name) ops)
  | link name _ ih => exact ih.alloc fun _ hc => by cases hc
  | auxdata p a _ ih => exact ih.modify p fun _ => rfl
  | link_set_target link target _ ih => exact ih.link_set_target link target
  | add_child hne _ ih => exact ih.add_child hne

/-! ## When it is the plain walk -/

/-- At the last element the two ways differ exactly if its name is that of the entity reached. -/
lemma Heap.Keyed.find_last_eq_lookup_iff {h : Heap} (hh : h.Keyed) (p : Ptr) (c : gstr) :
    h.find_last p c = h.lookup p c ↔ h.name p ≠ some c := by
  unfold Heap.find_last
  by_cases hname : h.name p = some c
  · rw [if_pos hname]
    refine iff_of_false ?_ (not_not_intro hname)
    exact fun hself => (hh.lookup hself.symm).2 rfl
  · rw [if_neg hname]
    exact iff_of_true rfl hname

/-- The plain walk, cut before the last component. -/
lemma Heap.Keyed.component_walk_eq {h : Heap} (hh : h.Keyed) (root : Ptr) {path : gstr}
    (hroot : path ≠ ['/']) :
    component_walk h root path =
      (h.walk root (components (path.splitOn '/')).dropLast).bind fun p =>
        h.lookup p ((components (path.splitOn '/')).getLast?.getD []) := by
  rw [component_walk, if_neg hroot]
  rcases List.eq_nil_or_concat (components (path.splitOn '/')) with hnil | ⟨cs, c, hcs⟩
  · rw [if_pos hnil, hnil]
    rcases hlookup : h.lookup root [] with _ | q
    · exact hlookup.symm
    · exact absurd rfl (hh.lookup hlookup).1
  · rw [if_neg (by simp [hcs]), hcs, List.concat_eq_append, Heap.walk_concat]
    simp

/-- The exact condition: before the last component the walk does not lead to an entity of that
name. For a path of slashes the last component counts as the empty name. -/
theorem spfs_entity_find_path_eq_component_walk_iff {h : Heap} (hh : Built h) (root : Ptr)
    (path : gstr) :
    spfs_entity_find_path h root path = component_walk h root path ↔
      (path ≠ [] → path ≠ ['/'] →
        ∀ p, h.walk root (components (path.splitOn '/')).dropLast = some p →
          h.name p ≠ some ((components (path.splitOn '/')).getLast?.getD [])) := by
  by_cases hnil : path = []
  · subst hnil
    exact iff_of_true rfl fun hne => absurd rfl hne
  by_cases hroot : path = ['/']
  · subst hroot
    exact iff_of_true rfl fun _ hne => absurd rfl hne
  rw [spfs_entity_find_path_eq hnil hroot, hh.keyed.component_walk_eq root hroot]
  rcases h.walk root (components (path.splitOn '/')).dropLast with _ | p
  · simp
  · simpa [hnil, hroot] using hh.keyed.find_last_eq_lookup_iff p _

/-- The root with a directory `baz`. -/
def baz_heap : Heap :=
  spfs_entity_dir_add_child
    ((spfs_entity_root_create ⟨[], none⟩ ⟨none, none⟩).alloc
      (spfs_entity_dir_create (some "baz".toList) ⟨none, none⟩)) 0 1

/-- The heap of the example can be built. -/
lemma built_baz_heap : Built baz_heap :=
  .add_child (by decide) (.dir _ _ (.root _ .empty))

/-- In it `/baz` is found by the plain walk. -/
theorem find_baz :
    spfs_entity_find_path baz_heap 0 "/baz".toList = component_walk baz_heap 0 "/baz".toList :=
  (spfs_entity_find_path_eq_component_walk_iff built_baz_heap 0 "/baz".toList).mpr (by decide)

/-- But `/baz/baz`, which does not exist, is `/baz`. -/
theorem not_find_path_eq_component_walk :
    ¬ ∀ (h : Heap) (root : Ptr) (path : gstr), Built h →
      spfs_entity_find_path h root path = component_walk h root path := by
  intro hall
  have hfound : spfs_entity_find_path baz_heap 0 "/baz/baz".toList = some 1 := by decide
  have hwalk : component_walk baz_heap 0 "/baz/baz".toList = none := by decide
  have heq := hall baz_heap 0 "/baz/baz".toList built_baz_heap
  rw [hfound, hwalk] at heq
  cases heq

end Spotifile
