import Spotifile.Handles
import Spotifile.Lib.Guard
import Spotifile.Refill

/-!
# The layout of the mounted file system

The functions behind the files and directories cast `auxdata`, their own or their parent's, to what
they expect there. `Heap.Typed` says that they may: a file is in a directory of the kind that its
`read` asks for, and a directory in one of the kind that its `readdir` asks for, the directory of a
playlist has its playlist, and a browse directory holds the entries with which it was created, and
no others.

`exec_typed` is the step lemma. What is known of the mounted file system already, that it is well
formed and only grows, is taken from there; `MountInstr.Proper` is what a program has to see to in
addition. The lemma also says which tables an instruction leaves alone: all but those of the
directories in `F`.
-/

namespace Spotifile

open Lib

/-! ## The rules -/

/-- The `read` of a file. -/
def spfs_entity.read (e : spfs_entity) : Option SpfsReadFunc := e.file_ops.bind spfs_file_ops.read

namespace SpfsReadFunc

/-- The kind of the browse directories that hold the files with this `read`. -/
def within : SpfsReadFunc → Option BrowseKind
  | .wav_read | .track_name_read | .duration_read | .popularity_read | .index_read | .disc_read
  | .is_starred_read | .is_local_read | .is_autolinked_read | .offlinestatus_read => some .track
  | .artist_name_read | .biography_read => some .artist
  | .album_name_read | .cover_read => some .album
  | .connection_read | .xspf_read | .portrait_read => none

/-- The `readdir` of the directories that hold the files with this `read`. -/
def listed : SpfsReadFunc → Option SpfsReaddirFunc
  | .xspf_read => some .playlist_dir_music_readdir
  | .portrait_read => some .portraits_readdir
  | _ => none

end SpfsReadFunc

/-- The directories with this `readdir` are about a playlist. -/
def SpfsReaddirFunc.OfPlaylist (f : SpfsReaddirFunc) : Prop :=
  f = .playlist_dir_meta_readdir ∨ f = .playlist_dir_music_readdir

/-- The rule that a file with this `read` and its directory keep. -/
structure FileRule (p : Ptr) (dir e : spfs_entity) (f : SpfsReadFunc) : Prop where
  within : ∀ k, f.within = some k → dir.browses = some k
  listed : ∀ g, f.listed = some g → dir.readdir = some g
  wav : f = .wav_read → e.auxdata = dir.auxdata
  image : f = .portrait_read → ∃ image, e.auxdata = some (.image image)
  connection : f = .connection_read → p = 0

/-- The entries of the browse directory with this `auxdata`. -/
def Auxdata.entries : Auxdata → List spfs_entity
  | .track t => track_dir_entries t
  | .artistbrowse _ => artist_dir_entries
  | .album _ => album_dir_entries
  | .playlist _ | .image _ | .search _ => []

/-- The entry is the one that was created as `x`. -/
def Heap.IsEntry (h : Heap) (entry : gstr × Ptr) (x : spfs_entity) : Prop :=
  x.name = some entry.1 ∧ ∃ e, h.get entry.2 = some e ∧ x.Alike e

/-- The directory has these entries, in this order, and no others. -/
def Heap.Filled (h : Heap) (d : Ptr) (entries : List spfs_entity) : Prop :=
  ∃ table, h.children d = some table ∧ List.Forall₂ h.IsEntry table entries

/-- What the functions of the files and directories rely on. -/
structure Heap.Typed (h : Heap) : Prop where
  playlist : ∀ p e f, h.get p = some e → e.readdir = some f → f.OfPlaylist →
    ∃ pl, e.auxdata = some (.playlist pl)
  files : ∀ q e p dir f, h.get q = some e → e.parent = some p → h.get p = some dir →
    e.read = some f → FileRule p dir e f
  directories : ∀ q e p dir f k, h.get q = some e → e.parent = some p → h.get p = some dir →
    e.readdir = some f → f.within = some k → dir.browses = some k
  browse : ∀ d e auxdata, h.get d = some e → e.browses ≠ none → e.auxdata = some auxdata →
    h.Filled d auxdata.entries

/-! ## Entities that are alike -/

/-- Entities that are alike have the same `read`. -/
lemma spfs_entity.Alike.read {e e' : spfs_entity} (h : e.Alike e') : e'.read = e.read := by
  have hshape := h.shape
  rcases e with ⟨_, _, _, _, _ | _ | _⟩ <;> rcases e' with ⟨_, _, _, _, _ | _ | _⟩ <;>
    simp_all [EntityData.shape, spfs_entity.read, spfs_entity.file_ops]

/-- What has a `read` has no `readdir`. -/
lemma spfs_entity.readdir_of_read {e : spfs_entity} {f : SpfsReadFunc} (h : e.read = some f) :
    e.readdir = none := by
  rcases e with ⟨_, _, _, _, _ | _ | _⟩
  · rfl
  · cases h
  · cases h

/-- A browse directory is a directory. -/
lemma children_of_browses {e : spfs_entity} {k : BrowseKind} (h : e.browses = some k) :
    e.e.children ≠ none := by
  rcases e with ⟨_, _, _, _, _ | _ | _⟩
  · cases h
  · exact Option.some_ne_none _
  · cases h

/-- The rule holds as well of a file that is alike, in a directory that is alike. -/
lemma FileRule.of_alike {p : Ptr} {dir dir' e e' : spfs_entity} {f : SpfsReadFunc}
    (hrule : FileRule p dir e f) (hread : e.read = some f) (hdir : dir.Alike dir')
    (he : e.Alike e') : FileRule p dir' e' f where
  within k hk := by rw [hdir.browses, hrule.within k hk]
  listed g hg := by rw [hdir.readdir, hrule.listed g hg]
  wav hf := by
    have hbrowses : dir.browses = some .track := hrule.within _ (by rw [hf]; rfl)
    rw [he.auxdata (by simp [spfs_entity.readdir_of_read hread]),
      hdir.auxdata (by simp [spfs_entity.readdir_of_browses hbrowses]), hrule.wav hf]
  image hf := by
    rw [he.auxdata (by simp [spfs_entity.readdir_of_read hread])]
    exact hrule.image hf
  connection := hrule.connection

namespace Heap

variable {h h' : Heap}

/-- An entry stays the one that was created. -/
lemma IsEntry.of_alike {entry : gstr × Ptr} {x : spfs_entity} (hx : h.IsEntry entry x)
    (ha : h.Alike h') : h'.IsEntry entry x := by
  obtain ⟨hname, e, he, halike⟩ := hx
  obtain ⟨e', he', halike'⟩ := ha _ e he
  exact ⟨hname, e', he', halike.trans halike'⟩

/-- A directory whose table stays has the entries that it had. -/
lemma Filled.of_alike {d : Ptr} {entries : List spfs_entity} (hd : h.Filled d entries)
    (ha : h.Alike h') (hchildren : h'.children d = h.children d) : h'.Filled d entries := by
  obtain ⟨table, htable, hentries⟩ := hd
  exact ⟨table, hchildren.trans htable, hentries.imp fun _ _ hx => hx.of_alike ha⟩

/-- A heap stays typed if what is new keeps the rules, and the browse directories their tables. The
rule for directories is one of those for parents. -/
lemma Typed.of_alike (ht : h.Typed) (hh : h.Tree) (ha : h.Alike h') (hplaced : h'.Placed)
    (hplaylist : ∀ p e' f, h'.get p = some e' → h.fresh ≤ p → e'.readdir = some f →
      f.OfPlaylist → ∃ pl, e'.auxdata = some (.playlist pl))
    (hfiles : ∀ q e' p dir f, h'.get q = some e' → e'.parent = some p → h'.get p = some dir →
      e'.read = some f → h.parent q = some p ∨ FileRule p dir e' f)
    (hbrowse : ∀ d e', h'.get d = some e' → e'.browses ≠ none →
      (d < h.fresh ∧ h'.children d = h.children d) ∨
      ∀ auxdata, e'.auxdata = some auxdata → h'.Filled d auxdata.entries) : h'.Typed where
  playlist := by
    intro p e' f he' hf hpl
    by_cases hp : p < h.fresh
    · obtain ⟨e, he, halike⟩ := ha.of_get hp he'
      have hf' : e.readdir = some f := halike.readdir.symm.trans hf
      rw [halike.auxdata]
      · exact ht.playlist p e f he hf' hpl
      · rw [hf']
        rcases hpl with rfl | rfl
        · simp
        · simp
    · exact hplaylist p e' f he' (Nat.le_of_not_lt hp) hf hpl
  files := by
    intro q e' p dir f he' hp hdir hf
    rcases hfiles q e' p dir f he' hp hdir hf with hold | hrule
    · obtain ⟨hlt, e, he, hep, halike⟩ := ha.of_parent hh hold he'
      obtain ⟨dir₀, hdir₀, halike'⟩ := ha.of_get hlt hdir
      have hf' : e.read = some f := halike.read.symm.trans hf
      exact (ht.files q e p dir₀ f he hep hdir₀ hf').of_alike hf' halike' halike
    · exact hrule
  directories := by
    intro q e' p dir f k he' hp hdir hf hk
    have hbrowses := (hplaced q e' p he' hp).within f k hf hk
    rwa [Heap.browses, hdir, Option.bind_some] at hbrowses
  browse := by
    intro d e' auxdata he' hk haux
    rcases hbrowse d e' he' hk with ⟨hlt, hchildren⟩ | hnew
    · obtain ⟨e, he, halike⟩ := ha.of_get hlt he'
      rw [halike.browses] at hk
      obtain ⟨k, hk'⟩ := Option.ne_none_iff_exists'.mp hk
      rw [halike.auxdata (by simp [spfs_entity.readdir_of_browses hk'])] at haux
      exact (ht.browse d e auxdata he hk haux).of_alike ha hchildren
    · exact hnew auxdata haux

end Heap

/-! ## The tables after an instruction -/

section Tables

variable {h : Heap}

/-- To add a child changes no other table. -/
lemma children_add_child_of_ne (h : Heap) {parent p : Ptr} (child : Ptr) (hp : p ≠ parent) :
    (spfs_entity_dir_add_child h parent child).children p = h.children p := by
  rcases spfs_entity_dir_add_child_cases h parent child with heq | ⟨name, -, -, -, -, -, heq⟩
  · rw [heq]
  · rw [heq, children_link_child, if_neg hp.symm]

/-- Only the table of the directory changes. -/
lemma children_add_new_of_ne {dir p : Ptr} (e : spfs_entity) (entries : List spfs_entity)
    (hlt : p < h.fresh) (hp : p ≠ dir) : (add_new h dir e entries).children p = h.children p := by
  have hlt' : p < (h.alloc e).fresh := by
    rw [Heap.fresh_alloc]
    exact hlt.trans (Nat.lt_succ_self _)
  rw [add_new, children_add_child_of_ne _ _ hp, Heap.children,
    get_add_entries_of_ne entries hlt' hlt.ne, Heap.get_alloc, if_neg hlt.ne, Heap.children]

/-- The entries that are added to a directory have it as their parent. -/
lemma parent_of_get_add_entries {p₀ q p : Ptr} {entries : List spfs_entity} {e' : spfs_entity}
    (hnew : ∀ x ∈ entries, x.New) (he' : (add_entries h p₀ entries).get q = some e')
    (hp : e'.parent = some p) : p = p₀ ∨ h.parent q = some p := by
  induction entries generalizing h with
  | nil =>
    right
    rw [Heap.parent, show h.get q = some e' from he']
    exact hp
  | cons x entries ih =>
    rw [add_entries, List.foldl_cons] at he'
    rcases ih (fun y hy => hnew y (List.mem_cons_of_mem x hy)) he' with rfl | hq
    · exact .inl rfl
    · obtain ⟨e₁, he₁, hep⟩ := Option.bind_eq_some_iff.mp hq
      obtain ⟨e₀, he₀, -, -, hsame | ⟨-, hparent⟩⟩ := get_of_get_add_child he₁
      · right
        rw [Heap.get_alloc] at he₀
        split at he₀
        · obtain rfl := Option.some.inj he₀
          rw [hsame, (hnew x List.mem_cons_self).parent] at hep
          cases hep
        · rw [Heap.parent, he₀, Option.bind_some, ← hsame, hep]
      · exact .inl (Option.some.inj (hep.symm.trans hparent))

/-- Names that are not empty, and all different. -/
def Named (entries : List spfs_entity) : Prop :=
  (entries.map spfs_entity.name).Nodup ∧ ∀ x ∈ entries, x.name ≠ none ∧ x.name ≠ some []

/-- The keys of the table are the names of the entries. -/
lemma map_name_of_entries {table : List (gstr × Ptr)} {entries : List spfs_entity}
    (h : List.Forall₂ h.IsEntry table entries) :
    entries.map spfs_entity.name = table.map fun entry => some entry.1 := by
  induction h with
  | nil => rfl
  | cons hx _ ih => rw [List.map_cons, List.map_cons, hx.1, ih]

/-- One more entry is created and added. -/
lemma filled_add_entry {p₀ : Ptr} {entries : List spfs_entity} {x : spfs_entity} {name : gstr}
    (hd : h.Filled p₀ entries) (hlt : p₀ < h.fresh) (hnew : x.New) (hx : x.name = some name)
    (hnil : name ≠ []) (hfree : some name ∉ entries.map spfs_entity.name) :
    (spfs_entity_dir_add_child (h.alloc x) p₀ h.fresh).Filled p₀ (entries ++ [x]) := by
  obtain ⟨table, htable, hentries⟩ := hd
  have htable' : (h.alloc x).children p₀ = some table := by
    rw [Heap.children_alloc, if_neg hlt.ne, htable]
  have hkey : table.lookup name = none := by
    refine List.lookup_eq_none_iff.mpr fun entry hmem => ?_
    rw [map_name_of_entries hentries] at hfree
    have hne : name ≠ entry.1 := fun heq => hfree (List.mem_map.mpr ⟨entry, hmem, by rw [heq]⟩)
    simpa using hne
  have hlookup : (h.alloc x).lookup p₀ name = none := by
    rw [Heap.lookup, htable']
    exact hkey
  have hhas : spfs_entity_dir_has_child (h.alloc x) p₀ name = false := by
    rw [spfs_entity_dir_has_child, spfs_entity_dir_get_child, hnew.sanitized name hx, hlookup]
    rfl
  have hchild : (h.alloc x).name h.fresh = some name := by rw [Heap.name_alloc, if_pos rfl, hx]
  have hadd : spfs_entity_dir_add_child (h.alloc x) p₀ h.fresh =
      (h.alloc x).link_child p₀ h.fresh name := by
    rw [spfs_entity_dir_add_child, hchild]
    simp [htable', hnil, hhas]
  refine ⟨table ++ [(name, h.fresh)], ?_, ?_⟩
  · rw [hadd, children_link_child, if_pos rfl, htable', Option.map_some,
      g_hash_table_insert_of_free _ hkey]
  · have hself : (h.alloc x).get h.fresh = some x := by rw [Heap.get_alloc, if_pos rfl]
    have halike := alike_add_child (h.alloc x) p₀ h.fresh
    refine List.rel_append (hentries.imp fun entry y hy => ?_) (.cons ?_ .nil)
    · obtain ⟨hyname, e₀, he₀, hy₀⟩ := hy
      refine Heap.IsEntry.of_alike ⟨hyname, e₀, ?_, hy₀⟩ halike
      rw [Heap.get_alloc, if_neg (Heap.lt_fresh_of_get he₀).ne, he₀]
    · exact Heap.IsEntry.of_alike ⟨hx, x, hself, .refl x⟩ halike

/-- A new directory is filled. -/
lemma filled_add_entries {e : spfs_entity} {entries : List spfs_entity}
    (hempty : e.e.children = some []) (hnew : ∀ x ∈ entries, x.New) (hnamed : Named entries) :
    (add_entries (h.alloc e) h.fresh entries).Filled h.fresh entries ∧
      h.fresh < (add_entries (h.alloc e) h.fresh entries).fresh := by
  induction entries using List.reverseRecOn with
  | nil =>
    refine ⟨⟨[], ?_, .nil⟩, ?_⟩
    · show (h.alloc e).children h.fresh = some []
      rw [Heap.children_alloc, if_pos rfl, hempty]
    · show h.fresh < (h.alloc e).fresh
      rw [Heap.fresh_alloc]
      exact Nat.lt_succ_self _
  | append_singleton entries x ih =>
    obtain ⟨hnodup, hname⟩ := hnamed
    rw [List.map_append, List.nodup_append] at hnodup
    obtain ⟨hnodup, -, hfree⟩ := hnodup
    obtain ⟨hfilled, hlt⟩ := ih (fun y hy => hnew y (by simp [hy]))
      ⟨hnodup, fun y hy => hname y (by simp [hy])⟩
    obtain ⟨hnone, hnil⟩ := hname x (by simp)
    obtain ⟨name, hx⟩ := Option.ne_none_iff_exists'.mp hnone
    have hstep : add_entries (h.alloc e) h.fresh (entries ++ [x]) =
        spfs_entity_dir_add_child ((add_entries (h.alloc e) h.fresh entries).alloc x) h.fresh
          (add_entries (h.alloc e) h.fresh entries).fresh := by
      rw [add_entries, List.foldl_append]
      rfl
    rw [hstep]
    refine ⟨filled_add_entry hfilled hlt (hnew x (by simp)) hx (fun heq => hnil (heq ▸ hx)) ?_, ?_⟩
    · intro hmem
      exact hfree _ hmem x.name (by simp) hx.symm
    · rw [fresh_add_child, Heap.fresh_alloc]
      exact hlt.trans (Nat.lt_succ_self _)

end Tables

/-! ## Conditions on the instructions -/

/-- What libspotify answers, and nothing is NULL that is read without a test. -/
def Spotify.Loaded (o : Spotify) : Prop :=
  o.playlists ≠ none ∧ ∀ pl, o.playlist_tracks pl ≠ none

/-- What a new entity and its entries have to be, in addition, for the directory `dir`. -/
structure FitsIn (h : Heap) (dir : Ptr) (e : spfs_entity) (entries : List spfs_entity) : Prop where
  playlist : ∀ f, e.readdir = some f → f.OfPlaylist → ∃ pl, e.auxdata = some (.playlist pl)
  playlists : ∀ x ∈ entries, ∀ f, x.readdir = some f → ¬ f.OfPlaylist
  file : ∀ f up, e.read = some f → h.get dir = some up → FileRule dir up e f
  files : ∀ x ∈ entries, ∀ f p, x.read = some f → FileRule p e x f
  browse : e.browses ≠ none → Named entries ∧
    ∀ auxdata, e.auxdata = some auxdata → auxdata.entries = entries
  outside : h.browses dir = none

/-- What has to hold before an instruction, in addition. Nothing is read through NULL if
`strict`. -/
def MountInstr.Proper (strict : Prop) (F : Set Ptr) {γ : Type} : MountInstr γ → Mount → Prop
  | .crash, _ => ¬ strict
  | .entity p, s => p < s.heap.fresh
  | .add_new dir e entries, s =>
    dir ∈ F ∧ NewEntity s.heap dir e entries ∧ FitsIn s.heap dir e entries
  | .dir_create _ ops, _ => ops = ⟨some .search_readdir, none⟩
  | .add_child parent child, s =>
    parent = 6 ∧ parent ∈ F ∧ s.heap.readdir child = some .search_readdir
  | .has_child dir _, s | .get_child dir _, s => s.heap.children dir ≠ none
  | .set_auxdata e _, s => s.heap.readdir e = some .search_readdir
  | _, _ => True

/-- What becomes of the state: it grows, and the directories that are not in `F` keep their
tables. -/
structure Mount.Leaves (F : Set Ptr) (s s' : Mount) : Prop where
  grows : s.Grows s'
  tables : ∀ d, d ∉ F → d < s.heap.fresh → s'.heap.children d = s.heap.children d

namespace Mount.Leaves

variable {F : Set Ptr} {s s' s'' : Mount}

/-- A state that stays as it is leaves the tables alone. -/
lemma refl (s : Mount) : s.Leaves F s := ⟨.refl s, fun _ _ _ => rfl⟩

/-- What leaves the tables alone twice leaves them alone. -/
lemma trans (hl : s.Leaves F s') (hl' : s'.Leaves F s'') : s.Leaves F s'' where
  grows := hl.grows.trans hl'.grows
  tables d hd hlt := by
    rw [hl'.tables d hd (hl.grows.heap.lt_fresh hlt), hl.tables d hd hlt]

end Mount.Leaves

/-! ## The step lemma -/

section Steps

variable {strict : Prop} {F : Set Ptr} {s s' : Mount}

/-- The tables and the rules, where no entity is new and no browse directory changes. -/
lemma typed_of_same (ht : s.heap.Typed) (hh : s.heap.Tree) {h' : Heap} (ha : s.heap.Alike h')
    (hplaced : h'.Placed)
    (hfresh : h'.fresh = s.heap.fresh)
    (hparent : ∀ q, (h'.get q).bind spfs_entity.read ≠ none → h'.parent q = s.heap.parent q)
    (hchildren : ∀ d, h'.browses d ≠ none → h'.children d = s.heap.children d) : h'.Typed := by
  have hlt : ∀ p e', h'.get p = some e' → p < s.heap.fresh := fun p e' he' =>
    hfresh ▸ Heap.lt_fresh_of_get he'
  refine ht.of_alike hh ha hplaced ?_ ?_ ?_
  · intro p e' f he' hle
    exact absurd (hlt p e' he') (Nat.not_lt.mpr hle)
  · intro q e' p dir f he' hp _ hf
    left
    rw [← hparent q (by simp [he', hf]), Heap.parent, he', Option.bind_some, hp]
  · intro d e' he' hk
    refine .inl ⟨hlt d e' he', hchildren d ?_⟩
    rwa [Heap.browses, he', Option.bind_some]

/-- A write that changes no parent and no table. -/
lemma typed_modify (ht : s.heap.Typed) (hh : s.heap.Tree) {p : Ptr} {f : spfs_entity → spfs_entity}
    (hplaced : (s.heap.modify p f).Placed) (hf : ∀ e, s.heap.get p = some e → e.Grows (f e))
    (hparent : ∀ e, (f e).parent = e.parent) (hchildren : ∀ e, (f e).e.children = e.e.children) :
    (s.heap.modify p f).Typed := by
  have hg := (Heap.Grows.refl s.heap).modify p hf hchildren
  refine typed_of_same ht hh hg.alike hplaced (Heap.fresh_modify _ _ _) ?_ ?_
  · intro q _
    exact Heap.parent_modify s.heap p q hparent
  · intro d _
    exact Heap.children_modify s.heap p d hchildren

/-- The entries of a new directory have it as their parent. -/
lemma parent_of_get_add_new {h : Heap} {dir q p : Ptr} {e e' : spfs_entity}
    {entries : List spfs_entity} (hnew : ∀ x ∈ entries, x.New) (hgt : h.fresh < q)
    (he' : (add_new h dir e entries).get q = some e') (hp : e'.parent = some p) :
    p = h.fresh := by
  have hp' : (add_entries (h.alloc e) h.fresh entries).parent q = some p := by
    rw [← parent_add_child_of_ne _ dir hgt.ne]
    show (add_new h dir e entries).parent q = some p
    rw [Heap.parent, he', Option.bind_some, hp]
  obtain ⟨e₁, he₁, hep⟩ := Option.bind_eq_some_iff.mp hp'
  rcases parent_of_get_add_entries hnew he₁ hep with rfl | hold
  · rfl
  · rw [Heap.parent_alloc, if_neg hgt.ne', Heap.parent, Heap.get_eq_none_of_fresh_le hgt.le] at hold
    cases hold

/-- A new browse directory is filled when it is added to its parent. -/
lemma filled_add_new {h : Heap} {dir : Ptr} {e : spfs_entity} {entries : List spfs_entity}
    {k : BrowseKind} (hn : NewEntity h dir e entries) (hnamed : Named entries)
    (hk : e.browses = some k) : (add_new h dir e entries).Filled h.fresh entries := by
  have hempty : e.e.children = some [] := by
    obtain ⟨children, hc⟩ := Option.ne_none_iff_exists'.mp (children_of_browses hk)
    rw [hc, hn.new.children children hc]
  obtain ⟨hfilled, -⟩ :=
    filled_add_entries (h := h) hempty (fun x hx => (hn.holds x hx).new) hnamed
  exact hfilled.of_alike (alike_add_child _ dir _) (children_add_child_of_ne _ _ hn.lt.ne')

/-- A new entity keeps the rules, and so do its entries. -/
lemma typed_add_new (ht : s.heap.Typed) (hw : s.Wf) {dir : Ptr} {e : spfs_entity}
    {entries : List spfs_entity} (hn : NewEntity s.heap dir e entries)
    (hplaced : (add_new s.heap dir e entries).Placed) (hfits : FitsIn s.heap dir e entries) :
    (add_new s.heap dir e entries).Typed := by
  have ha := hn.added hw
  have halike := ha.grows.alike
  obtain ⟨self, hself, hself_alike, -, hself_parent⟩ := ha.self
  obtain ⟨up, hup⟩ := Heap.exists_get_of_lt hn.lt
  obtain ⟨up', hup', hup_alike⟩ := halike dir up hup
  refine ht.of_alike hw.tree halike hplaced ?_ ?_ ?_
  · intro p e' f he' hle hf hpl
    rcases ha.origin p e' he' with ⟨e₀, he₀, -⟩ | ⟨rfl, hx⟩ | ⟨x, hx, hxe, -⟩
    · exact absurd (Heap.lt_fresh_of_get he₀) (Nat.not_lt.mpr hle)
    · have hf' : e.readdir = some f := hx.readdir.symm.trans hf
      rw [hx.auxdata (by rw [hf']; rcases hpl with rfl | rfl <;> simp)]
      exact hfits.playlist f hf' hpl
    · exact absurd hpl (hfits.playlists x hx f (hxe.readdir.symm.trans hf))
  · intro q e' p dir' f he' hp hdir' hf
    rcases ha.origin q e' he' with ⟨e₀, he₀, -, -, hparent⟩ | ⟨rfl, hx⟩ | ⟨x, hx, hxe, hgt⟩
    · left
      rw [Heap.parent, he₀, Option.bind_some, ← hparent, hp]
    · right
      obtain rfl : self = e' := Option.some.inj (hself.symm.trans he')
      have hpdir : p = dir := by
        rcases hself_parent with hnone | hsome
        · rw [hnone] at hp
          cases hp
        · exact Option.some.inj (hp.symm.trans hsome)
      subst hpdir
      obtain rfl : up' = dir' := Option.some.inj (hup'.symm.trans hdir')
      have hf' : e.read = some f := hx.read.symm.trans hf
      exact (hfits.file f up hf' hup).of_alike hf' hup_alike hx
    · right
      have hpself : p = s.heap.fresh :=
        parent_of_get_add_new (fun x hx => (hn.holds x hx).new) hgt he' hp
      subst hpself
      obtain rfl : self = dir' := Option.some.inj (hself.symm.trans hdir')
      have hf' : x.read = some f := hxe.read.symm.trans hf
      exact (hfits.files x hx f _ hf').of_alike hf' hself_alike hxe
  · intro d e' he' hk
    rcases ha.origin d e' he' with ⟨e₀, he₀, hx, -⟩ | ⟨rfl, hx⟩ | ⟨x, hx, hxe, -⟩
    · left
      have hlt := Heap.lt_fresh_of_get he₀
      refine ⟨hlt, children_add_new_of_ne e entries hlt ?_⟩
      rintro rfl
      have hout := hfits.outside
      rw [Heap.browses, he₀, Option.bind_some, ← hx.browses] at hout
      exact hk hout
    · right
      intro auxdata haux
      rw [hx.browses] at hk
      obtain ⟨hnamed, hentries⟩ := hfits.browse hk
      obtain ⟨k, hk'⟩ := Option.ne_none_iff_exists'.mp hk
      rw [hx.auxdata (by simp [spfs_entity.readdir_of_browses hk'])] at haux
      rw [hentries auxdata haux]
      exact filled_add_new hn hnamed hk'
    · rw [hxe.browses, (hn.holds x hx).browses] at hk
      exact absurd rfl hk

/-- A search directory is created. -/
lemma typed_dir_create (ht : s.heap.Typed) (hh : s.heap.Tree) (name : Option gstr)
    (hplaced : (s.heap.alloc (spfs_entity_dir_create name ⟨some .search_readdir, none⟩)).Placed)
    (ha : s.heap.Alike (s.heap.alloc (spfs_entity_dir_create name ⟨some .search_readdir, none⟩))) :
    (s.heap.alloc (spfs_entity_dir_create name ⟨some .search_readdir, none⟩)).Typed := by
  refine ht.of_alike hh ha hplaced ?_ ?_ ?_
  · intro p e' f he' hle hf hpl
    rw [Heap.get_alloc] at he'
    split at he'
    · obtain rfl := Option.some.inj he'
      obtain rfl : .search_readdir = f := Option.some.inj hf
      rcases hpl with hpl | hpl
      · cases hpl
      · cases hpl
    · exact absurd (Heap.lt_fresh_of_get he') (Nat.not_lt.mpr hle)
  · intro q e' p dir f he' hparent _ _
    left
    rw [Heap.get_alloc] at he'
    split at he'
    · obtain rfl := Option.some.inj he'
      cases hparent
    · rw [Heap.parent, he', Option.bind_some, hparent]
  · intro d e' he' hk
    rw [Heap.get_alloc] at he'
    split at he'
    · obtain rfl := Option.some.inj he'
      exact absurd rfl hk
    · next hne =>
      exact .inl ⟨Heap.lt_fresh_of_get he', by rw [Heap.children_alloc, if_neg hne]⟩

/-- A search directory is added to `/search`. -/
lemma typed_add_child (ht : s.heap.Typed) (hw : s.Wf) {child : Ptr}
    (hplaced : (spfs_entity_dir_add_child s.heap 6 child).Placed)
    (hchild : s.heap.readdir child = some .search_readdir) :
    (spfs_entity_dir_add_child s.heap 6 child).Typed := by
  have ha := alike_add_child s.heap 6 child
  refine typed_of_same ht hw.tree ha hplaced (fresh_add_child _ _ _) ?_ ?_
  · intro q hq
    by_cases hqc : child = q
    · subst hqc
      obtain ⟨e, he, hf⟩ := Option.bind_eq_some_iff.mp hchild
      obtain ⟨e', he', halike⟩ := ha child e he
      obtain ⟨f, hread⟩ := Option.ne_none_iff_exists'.mp hq
      rw [he', Option.bind_some, halike.read] at hread
      rw [spfs_entity.readdir_of_read hread] at hf
      cases hf
    · exact parent_add_child_of_ne s.heap 6 hqc
  · intro d hd
    refine children_add_child_of_ne s.heap child ?_
    rintro rfl
    rw [ha.browses_eq (Nat.lt_of_lt_of_le (by decide) hw.fresh_le),
      hw.init.alike.browses_eq (by decide)] at hd
    exact hd rfl

/-- The instructions that write to one entity leave its parent and its table alone. -/
lemma children_set_target (target : Option gstr) (e : spfs_entity) :
    (e.set_target target).e.children = e.e.children ∧ (e.set_target target).parent = e.parent := by
  rcases e with ⟨_, _, _, _, _ | _ | _⟩ <;> rcases target with _ | target <;> exact ⟨rfl, rfl⟩

/-- A link that gets its target has grown. -/
lemma grows_set_target (target : Option gstr) (e : spfs_entity) :
    e.Grows (e.set_target target) := by
  rcases e with ⟨_, _, _, _, _ | _ | _⟩ <;> rcases target with _ | target <;>
    exact ⟨⟨rfl, rfl, fun _ => rfl⟩, fun _ h => h, fun h _ => h⟩

/-- The step lemma: the entities stay typed, and only the directories in `F` get entries. -/
theorem exec_typed {γ : Type} {i : MountInstr γ} {o : Spotify} {r : Option γ} (ht : s.heap.Typed)
    (hw : s.Wf) (hw' : s'.Wf) (hp : i.Proper strict F s) (hg : s.Grows s')
    (he : i.exec o s = some (r, s')) :
    s'.heap.Typed ∧ s.Leaves F s' ∧ r ≠ none := by
  cases i with
  | crash => cases he
  | entity p =>
    obtain ⟨e, -, he⟩ := Option.map_eq_some_iff.mp he
    obtain ⟨rfl, rfl⟩ := Prod.mk.inj he
    exact ⟨ht, .refl s, Option.some_ne_none _⟩
  | add_new dir e entries =>
    obtain ⟨hdir, hn, hfits⟩ := hp
    obtain ⟨rfl, rfl⟩ := Prod.mk.inj (Option.some.inj he)
    refine ⟨typed_add_new ht hw hn hw'.placed hfits, ⟨hg, ?_⟩, Option.some_ne_none _⟩
    intro d hd hlt
    exact children_add_new_of_ne e entries hlt fun heq => hd (heq ▸ hdir)
  | dir_create name ops =>
    obtain rfl : ops = ⟨some .search_readdir, none⟩ := hp
    obtain ⟨rfl, rfl⟩ := Prod.mk.inj (Option.some.inj he)
    refine ⟨typed_dir_create ht hw.tree (some name) hw'.placed hg.heap.alike, ⟨hg, ?_⟩,
      Option.some_ne_none _⟩
    intro d _ hlt
    show (s.heap.alloc _).children d = s.heap.children d
    rw [Heap.children_alloc, if_neg hlt.ne]
  | add_child parent child =>
    obtain ⟨rfl, hsix, hchild⟩ := hp
    obtain ⟨rfl, rfl⟩ := Prod.mk.inj (Option.some.inj he)
    refine ⟨typed_add_child ht hw hw'.placed hchild, ⟨hg, ?_⟩, Option.some_ne_none _⟩
    intro d hd _
    exact children_add_child_of_ne s.heap child fun heq => hd (heq ▸ hsix)
  | link_set_target link target goal =>
    obtain ⟨rfl, rfl⟩ := Prod.mk.inj (Option.some.inj he)
    refine ⟨?_, ⟨hg, ?_⟩, Option.some_ne_none _⟩
    · have hplaced : (spfs_entity_link_set_target s.heap link target).Placed := hw'.placed
      show (spfs_entity_link_set_target s.heap link target).Typed
      rw [link_set_target_eq] at hplaced ⊢
      exact typed_modify ht hw.tree hplaced (fun e _ => grows_set_target target e)
        (fun e => (children_set_target target e).2) fun e => (children_set_target target e).1
    · intro d _ _
      show (spfs_entity_link_set_target s.heap link target).children d = _
      rw [link_set_target_eq]
      exact Heap.children_modify s.heap link d fun e => (children_set_target target e).1
  | set_auxdata p auxdata =>
    obtain ⟨rfl, rfl⟩ := Prod.mk.inj (Option.some.inj he)
    have hread : s.heap.readdir p = some .search_readdir := hp
    refine ⟨typed_modify ht hw.tree hw'.placed ?_ (fun _ => rfl) (fun _ => rfl), ⟨hg, ?_⟩,
      Option.some_ne_none _⟩
    · intro e he
      have hreaddir : e.readdir = some .search_readdir := by simpa [Heap.readdir, he] using hread
      exact ⟨⟨rfl, rfl, fun hne => absurd hreaddir hne⟩, fun _ h => h, fun h _ => h⟩
    · intro d _ _
      exact Heap.children_modify (f := fun e => { e with auxdata := some auxdata }) s.heap p d
        fun _ => rfl
  | has_child dir name =>
    obtain ⟨-, rfl, rfl⟩ := exec_lookup_cases he
    exact ⟨ht, .refl _, Option.some_ne_none _⟩
  | get_child dir name =>
    obtain ⟨-, rfl, rfl⟩ := exec_lookup_cases he
    exact ⟨ht, .refl _, Option.some_ne_none _⟩
  | _ =>
    obtain ⟨rfl, rfl⟩ := Prod.mk.inj (Option.some.inj he)
    exact ⟨ht, ⟨hg, fun _ _ _ => rfl⟩, Option.some_ne_none _⟩

/-- An instruction under its precondition is executed. -/
lemma exec_ne_none {γ : Type} {i : MountInstr γ} (hs : strict) (hp : i.Proper strict F s)
    (o : Spotify) : i.exec o s ≠ none := by
  cases i with
  | crash => exact absurd hs hp
  | entity p =>
    obtain ⟨e, he⟩ := Heap.exists_get_of_lt hp
    rw [exec_entity o he]
    exact Option.some_ne_none _
  | has_child dir name =>
    rw [exec_has_child o name hp]
    exact Option.some_ne_none _
  | get_child dir name =>
    rw [exec_get_child o name hp]
    exact Option.some_ne_none _
  | _ => exact Option.some_ne_none _

/-- No other thread breaks a precondition. -/
lemma MountInstr.Proper.stable {γ : Type} {i : MountInstr γ} (hp : i.Proper strict F s)
    (hl : s.Leaves F s') : i.Proper strict F s' := by
  cases i with
  | crash => exact hp
  | entity p => exact hl.grows.heap.lt_fresh hp
  | add_new dir e entries =>
    obtain ⟨hdir, hn, hfits⟩ := hp
    have hpre : (MountInstr.add_new dir e entries).Pre False s := hn
    have hn' : (MountInstr.add_new dir e entries).Pre False s' := hpre.stable hl.grows
    refine ⟨hdir, hn', hfits.playlist, hfits.playlists, ?_, hfits.files, hfits.browse, ?_⟩
    · intro f up' hf hup'
      obtain ⟨up, hup, halike⟩ := hl.grows.heap.alike.of_get hn.lt hup'
      exact (hfits.file f up hf hup).of_alike hf halike (.refl e)
    · rw [hl.grows.heap.alike.browses_eq hn.lt]
      exact hfits.outside
  | dir_create name ops => exact hp
  | add_child parent child => exact ⟨hp.1, hp.2.1, hl.grows.heap.readdir hp.2.2⟩
  | has_child dir name => exact hl.grows.heap.children hp
  | get_child dir name => exact hl.grows.heap.children hp
  | set_auxdata e auxdata => exact hl.grows.heap.readdir hp
  | _ => trivial

end Steps

end Spotifile
