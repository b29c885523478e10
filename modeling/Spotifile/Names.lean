import Mathlib.Data.List.Nodup
import Spotifile.Alone

/-!
# Names as keys

Spotify's names become the keys of the tables of directories by way of `spfs_sanitize_name`: the
slashes are replaced, and the blanks at the ends are stripped.

* `sanitised_keys`: the loop that replaces the slashes replaces them all at once, sanitising twice
  is sanitising once, and so a child is found under exactly those names that are sanitised like its
  own.
* `stored_well_iff`: the key is a name that a directory can have, and `spfs_entity_dir_add_child`
  takes it, unless nothing, `.` or `..` is left of the name without its blanks. Slashes never
  matter for that (`spfs_sanitize_name_eq_flatMap`).
-/

namespace Spotifile

open Lib

/-! ## Keys -/

/-- What becomes of a byte of a name. -/
def replace_slash (a : gchar) : gstr := if a = '/' then SPFS_SLASH_REPLACEMENT else [a]

/-- The replacement of the slashes and the stripping of blanks do not get in each other's way. -/
lemma spfs_sanitize_name_eq_flatMap (n : gstr) :
    spfs_sanitize_name n = (g_strstrip n).flatMap replace_slash := by
  have hblank : ∀ a, g_ascii_isspace a = true → replace_slash a = [a] := by
    intro a ha
    apply if_neg
    rintro rfl
    cases ha
  rw [spfs_sanitize_name_eq]
  show g_strstrip (n.flatMap replace_slash) = _
  rw [g_strstrip, dropWhile_flatMap hblank, rdropWhile_flatMap hblank, g_strstrip]
  · intro a ha
    by_cases hslash : a = '/'
    · exact ⟨'\u0095', ['\u00e2', '\u0088'], if_pos hslash, rfl⟩
    · exact ⟨a, [], if_neg hslash, ha⟩
  · intro a ha
    by_cases hslash : a = '/'
    · exact ⟨'\u00e2', ['\u0088', '\u0095'], if_pos hslash, rfl⟩
    · exact ⟨a, [], if_neg hslash, ha⟩

/-- Without a slash nothing is replaced. -/
lemma flatMap_replace_slash {s : gstr} (h : '/' ∉ s) : s.flatMap replace_slash = s := by
  induction s with
  | nil => rfl
  | cons a s ih =>
    have ha : a ≠ '/' := fun heq => h (by simp [heq])
    rw [List.flatMap_cons, ih fun hs => h (List.mem_cons_of_mem a hs), replace_slash, if_neg ha]
    rfl

/-- A replaced slash can be seen. -/
lemma flatMap_replace_slash_eq_iff {s t : gstr} (hslash : '/' ∉ t) (ht : '\u00e2' ∉ t) :
    s.flatMap replace_slash = t ↔ s = t := by
  constructor
  · rintro rfl
    refine (flatMap_replace_slash fun hs => ht ?_).symm
    exact List.mem_flatMap.mpr ⟨'/', hs, by decide⟩
  · rintro rfl
    exact flatMap_replace_slash hslash

/-! ## Tables -/

/-- Every entry stands under the sanitised name of its entity, and every name stands for one
entry. -/
structure Heap.Named (h : Heap) : Prop where
  distinct : ∀ p table, h.children p = some table → (table.map Prod.fst).Nodup
  named : ∀ p table, h.children p = some table → ∀ entry ∈ table, h.name entry.2 = some entry.1
  sanitized : ∀ p name, h.name p = some name → spfs_sanitize_name name = name

namespace Heap.Named

variable {h : Heap}

/-- A new entity has no children whose names could be wrong. -/
lemma alloc (hh : h.Named) {e : spfs_entity} (he : e.New) : (h.alloc e).Named where
  distinct := by
    intro p table hp
    rw [children_alloc] at hp
    split at hp
    · rw [he.children table hp]
      exact List.nodup_nil
    · exact hh.distinct p table hp
  named := by
    intro p table hp entry hentry
    rw [children_alloc] at hp
    split at hp
    · rw [he.children table hp] at hentry
      cases hentry
    · have hname := hh.named p table hp entry hentry
      rw [name_alloc, if_neg]
      · exact hname
      · intro hfresh
        rw [Heap.name, get_eq_none_of_fresh_le hfresh.ge] at hname
        cases hname
  sanitized := by
    intro p name hname
    rw [name_alloc] at hname
    split at hname
    · exact he.sanitized name hname
    · exact hh.sanitized p name hname

/-- What leaves the names and the tables alone leaves the names right. -/
lemma modify (hh : h.Named) (p : Ptr) {f : spfs_entity → spfs_entity}
    (hname : ∀ e, (f e).name = e.name) (hchildren : ∀ e, (f e).e.children = e.e.children) :
    (h.modify p f).Named where
  distinct q table hq := hh.distinct q table (h.children_modify p q hchildren ▸ hq)
  named q table hq entry hentry := by
    rw [h.name_modify p entry.2 hname]
    exact hh.named q table (h.children_modify p q hchildren ▸ hq) entry hentry
  sanitized q name hq := hh.sanitized q name (h.name_modify p q hname ▸ hq)

/-- Setting a target touches no name. -/
lemma link_set_target (hh : h.Named) (link : Ptr) (target : Option gstr) :
    (spfs_entity_link_set_target h link target).Named := by
  rcases target with _ | target
  · exact hh
  · apply hh.modify link
    · rintro ⟨_, _, _, _, _ | _ | _⟩ <;> rfl
    · rintro ⟨_, _, _, _, _ | _ | _⟩ <;> rfl

/-- A child is entered under its own name, once that is sanitised. -/
lemma add_child (hh : h.Named) (parent child : Ptr) :
    (spfs_entity_dir_add_child h parent child).Named := by
  rcases spfs_entity_dir_add_child_cases h parent child with
    heq | ⟨name, table, hname, htable, -, hhas, heq⟩
  · rwa [heq]
  have hfree : table.lookup name = none := by
    rw [spfs_entity_dir_has_child, spfs_entity_dir_get_child, hh.sanitized child name hname,
      Heap.lookup, htable] at hhas
    simpa using hhas
  rw [heq]
  have hcases : ∀ p table', (h.link_child parent child name).children p = some table' →
      h.children p = some table' ∨
        (p = parent ∧ table' = g_hash_table_insert table name child) := by
    intro p table' hp
    rw [children_link_child] at hp
    split at hp
    · next hparent =>
      subst hparent
      rw [htable, Option.map_some] at hp
      exact .inr ⟨rfl, (Option.some.inj hp).symm⟩
    · exact .inl hp
  refine ⟨?_, ?_, ?_⟩
  · intro p table' hp
    rcases hcases p table' hp with hold | ⟨-, rfl⟩
    · exact hh.distinct p table' hold
    · exact nodup_g_hash_table_insert child (hh.distinct parent table htable) hfree
  · intro p table' hp entry hentry
    rw [name_link_child]
    rcases hcases p table' hp with hold | ⟨-, rfl⟩
    · exact hh.named p table' hold entry hentry
    · rcases mem_g_hash_table_insert hentry with hold | rfl
      · exact hh.named parent table htable entry hold
      · exact hname
  · intro p name' hp
    rw [name_link_child] at hp
    exact hh.sanitized p name' hp

end Heap.Named

/-- Whatever is built with the functions of the module has the right names. -/
lemma Built.named {h : Heap} (hh : Built h) : h.Named := by
  induction hh with
  | empty => exact ⟨fun _ _ hp => (by cases hp), fun _ _ hp => (by cases hp),
      fun _ _ hp => (by cases hp)⟩
  | root ops _ ih =>
    unfold spfs_entity_root_create
    split
    · have hnew := ih.alloc (spfs_entity_dir_create_new none ops)
      exact ⟨hnew.distinct, hnew.named, hnew.sanitized⟩
    · exact ih
  | file name ops _ ih => exact ih.alloc (spfs_entity_file_create_new name ops)
  | dir name ops _ ih => exact ih.alloc (spfs_entity_dir_create_new (some name) ops)
  | link name _ ih => exact ih.alloc (spfs_entity_link_create_new name)
  | auxdata p a _ ih => exact ih.modify p (fun _ => rfl) fun _ => rfl
  | link_set_target link target _ ih => exact ih.link_set_target link target
  | add_child _ _ ih => exact ih.add_child _ _

/-- A child is found under a name exactly if its own name is sanitised like that. -/
lemma Heap.Named.get_child_iff {h : Heap} (hh : h.Named) {dir q : Ptr} {table : List (gstr × Ptr)}
    (htable : h.children dir = some table) (hq : q ∈ table.map Prod.snd) {n n' : gstr}
    (hname : h.name q = some (spfs_sanitize_name n')) :
    spfs_entity_dir_get_child h dir n = some q ↔ spfs_sanitize_name n = spfs_sanitize_name n' := by
  rw [spfs_entity_dir_get_child]
  constructor
  · intro hlookup
    rw [Heap.lookup, htable, Option.bind_some] at hlookup
    obtain ⟨l₁, l₂, hsplit, -⟩ := List.lookup_eq_some_iff.mp hlookup
    have hnamed := hh.named dir table htable (spfs_sanitize_name n, q) (by simp [hsplit])
    exact Option.some.inj (hnamed.symm.trans hname)
  · intro hsan
    obtain ⟨⟨key, q⟩, hentry, rfl⟩ := List.mem_map.mp hq
    obtain rfl := Option.some.inj ((hh.named dir table htable _ hentry).symm.trans hname)
    rw [hsan]
    exact Heap.lookup_of_mem (hh.distinct dir table htable) htable hentry

/-- The loop of `spfs_replace_slashes` ends with all slashes replaced at once; sanitising is
idempotent; and in a directory that was built with `spfs_entity_dir_add_child` the child that was
created under `n'` is found under `n` exactly if both are sanitised alike. -/
theorem sanitised_keys :
    (∀ s replacement : gstr, '/' ∉ replacement → ∀ fuel, s.length < fuel →
      spfs_replace_slashes fuel s replacement =
        some (s.flatMap fun a => if a = '/' then replacement else [a])) ∧
    (∀ n, spfs_sanitize_name (spfs_sanitize_name n) = spfs_sanitize_name n) ∧
    ∀ h : Heap, Built h → ∀ dir table q, h.children dir = some table → q ∈ table.map Prod.snd →
      ∀ n n', h.name q = some (spfs_sanitize_name n') →
        (spfs_entity_dir_get_child h dir n = some q ↔
          spfs_sanitize_name n = spfs_sanitize_name n') := by
  refine ⟨fun s replacement hslash fuel hfuel => spfs_replace_slashes_eq hslash hfuel,
    spfs_sanitize_name_idem, ?_⟩
  intro h hh dir table q htable hq n n' hname
  exact hh.named.get_child_iff htable hq hname

/-- The theorem at a root with the directory `AC/DC`. -/
theorem sanitised_keys_acdc :
    spfs_replace_slashes 6 "AC/DC".toList ":".toList = some "AC:DC".toList ∧
    ∃ h : Heap, Built h ∧ h.name 1 = some (spfs_sanitize_name "AC/DC".toList) ∧
      (spfs_entity_dir_get_child h 0 " AC/DC ".toList = some 1 ↔
        spfs_sanitize_name " AC/DC ".toList = spfs_sanitize_name "AC/DC".toList) := by
  have hbuilt : Built (spfs_entity_dir_add_child
      ((spfs_entity_root_create ⟨[], none⟩ ⟨none, none⟩).alloc
        (spfs_entity_dir_create (some "AC/DC".toList) ⟨none, none⟩)) 0 1) :=
    (Built.dir _ _ (Built.root _ Built.empty)).add_child (by decide)
  obtain ⟨hreplace, -, hchild⟩ := sanitised_keys
  refine ⟨?_, _, hbuilt, rfl, ?_⟩
  · rw [hreplace _ _ (by decide) 6 (by decide)]
    rfl
  · exact hchild _ hbuilt 0 [(spfs_sanitize_name "AC/DC".toList, 1)] 1 (by decide) (by decide) _ _
      rfl

/-! ## Names that a directory can have -/

/-- What may stand in a directory beside `.` and `..`. -/
structure UsableName (key : gstr) : Prop where
  ne_nil : key ≠ []
  no_slash : '/' ∉ key
  ne_dot : key ≠ ".".toList
  ne_dotdot : key ≠ "..".toList

/-- The names that are passed to `filler`.
Source: `spfs_fuse.c`, `spfs_readdir` and `fill_dir_children`. -/
def filled_names (h : Heap) (dir : Ptr) : List gstr :=
  ".".toList :: "..".toList :: ((h.children dir).getD []).map Prod.fst

/-- The key of the name is usable, and a directory that has no child of that name takes one and
lists it once. -/
structure StoredWell (n : gstr) : Prop where
  usable : UsableName (spfs_sanitize_name n)
  added : ∀ (h : Heap) (parent child : Ptr), h.Named → h.name child = some (spfs_sanitize_name n) →
    h.children parent ≠ none → h.lookup parent (spfs_sanitize_name n) = none →
      (spfs_entity_dir_add_child h parent child).lookup parent (spfs_sanitize_name n) =
        some child ∧
      (filled_names (spfs_entity_dir_add_child h parent child) parent).count
        (spfs_sanitize_name n) = 1

/-- A usable key that is in the table is listed once. -/
lemma count_filled_names {h : Heap} (hh : h.Named) {dir q : Ptr} {key : gstr}
    (hkey : UsableName key) (hq : h.lookup dir key = some q) :
    (filled_names h dir).count key = 1 := by
  obtain ⟨table, htable, hlookup⟩ := Option.bind_eq_some_iff.mp hq
  have hmem : key ∈ table.map Prod.fst := by
    obtain ⟨l₁, l₂, rfl, -⟩ := List.lookup_eq_some_iff.mp hlookup
    simp
  rw [filled_names, htable, Option.getD_some, List.count_cons_of_ne hkey.ne_dot.symm,
    List.count_cons_of_ne hkey.ne_dotdot.symm]
  exact List.count_eq_one_of_mem (hh.distinct dir table htable) hmem

/-- A usable key is taken. -/
lemma lookup_add_usable {h : Heap} (hh : h.Named) {parent child : Ptr} {key : gstr}
    (hkey : UsableName key) (hname : h.name child = some key) (hparent : h.children parent ≠ none)
    (hfree : h.lookup parent key = none) :
    (spfs_entity_dir_add_child h parent child).lookup parent key = some child := by
  rw [lookup_add_child (hh.sanitized child), if_pos ⟨rfl, hname, hkey.ne_nil, hparent, hfree⟩]

/-- A name is stored well exactly if more is left of it without its blanks than nothing, `.` or
`..`. -/
theorem stored_well_iff (n : gstr) :
    StoredWell n ↔ g_strstrip n ∉ [[], ".".toList, "..".toList] := by
  have hkeys : ∀ t ∈ [[], ".".toList, "..".toList],
      spfs_sanitize_name n = t ↔ g_strstrip n = t := by
    intro t ht
    rw [spfs_sanitize_name_eq_flatMap]
    simp only [List.mem_cons, List.not_mem_nil, or_false] at ht
    rcases ht with rfl | rfl | rfl <;> exact flatMap_replace_slash_eq_iff (by decide) (by decide)
  have husable : UsableName (spfs_sanitize_name n) ↔
      g_strstrip n ∉ [[], ".".toList, "..".toList] := by
    constructor
    · intro h hmem
      have hsan := (hkeys _ hmem).mpr rfl
      simp only [List.mem_cons, List.not_mem_nil, or_false] at hmem
      rcases hmem with hnil | hdot | hdotdot
      · exact h.ne_nil (hsan.trans hnil)
      · exact h.ne_dot (hsan.trans hdot)
      · exact h.ne_dotdot (hsan.trans hdotdot)
    · intro h
      have hne : ∀ t ∈ [[], ".".toList, "..".toList], spfs_sanitize_name n ≠ t := by
        intro t ht hsan
        rw [(hkeys t ht).mp hsan] at h
        exact h ht
      exact ⟨hne _ (by simp), slash_notMem_sanitize_name n, hne _ (by simp), hne _ (by simp)⟩
  rw [← husable]
  constructor
  · intro h
    exact h.usable
  · intro h
    refine ⟨h, fun heap parent child hh hname hparent hfree => ?_⟩
    have hadded := lookup_add_usable hh h hname hparent hfree
    exact ⟨hadded, count_filled_names (hh.add_child parent child) h hadded⟩

/-- Of a blank name nothing is left, and a name may be `..` behind a blank. -/
theorem not_stored_well : ¬ ∀ n, StoredWell n := by
  intro h
  exact (h " ..".toList).usable.ne_dotdot (by decide)

end Spotifile
