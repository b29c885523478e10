import Spotifile.Lib.Alone
import Spotifile.Links

/-!
# What `spfs_mkdir` returns and what it does

`spfs_mkdir` with its return codes, from the path that FUSE gives it. `Mkdir.Promise` is what a
return code stands for: with 0 there is one more directory, at the path; with an error there is
nothing new. The code checks too little for it. The name is sanitised when the directory is created,
and `spfs_entity_dir_add_child` may refuse to attach it; neither is reported, and a look-up of the
path asks for the name as it was given. `spfs_mkdir_promise_iff` is the exact condition under which
the return code is right (`Mkdir.Fits`).
-/

namespace Spotifile

open Lib

namespace Mkdir

/-! ## The functions -/

/-- Source: libspotify's `sp_session`. -/
abbrev sp_session := ℕ

/-- Source: glib's `g_path_get_dirname`. -/
def g_path_get_dirname (file_name : gstr) : gstr :=
  if '/' ∉ file_name then ['.']
  else
    let base := (file_name.rdropWhile (· ≠ '/')).rdropWhile (· = '/')
    if base = [] then ['/'] else base

/-- Source: glib's `g_path_get_basename`. -/
def g_path_get_basename (file_name : gstr) : gstr :=
  if file_name = [] then ['.']
  else
    let last_nonslash := file_name.rdropWhile (· = '/')
    if last_nonslash = [] then ['/'] else last_nonslash.rtakeWhile (· ≠ '/')

/-- From the path. `session` is `SPFS_SP_SESSION`.
Source: `spfs_fuse.c`, `spfs_mkdir`. -/
def spfs_mkdir (session : Option sp_session) (path : gstr) : MountProg ℤ :=
  match session with
  | none => .ret 0
  | some _ => Spotifile.spfs_mkdir (g_path_get_dirname path) (g_path_get_basename path)

/-! ## What is promised -/

/-- One new directory is in the table of `parent`; nothing else has changed. -/
structure Attaches (h h' : Heap) (parent : Ptr) : Prop where
  count : h'.fresh = h.fresh + 1
  others : ∀ p < h.fresh, p ≠ parent → h'.get p = h.get p
  entry : ∃ dir ent name ops ops' children, h'.get h.fresh = some dir ∧ dir.name = some name ∧
    dir.parent = some parent ∧ dir.e = .dir ops [] ∧
    h.get parent = some ent ∧ ent.e = .dir ops' children ∧
    h'.get parent = some { ent with e := .dir ops' (children ++ [(name, h.fresh)]) }

/-- The last component of a path, empty if there is none. -/
def last_component (path : gstr) : gstr := (components (path.splitOn '/')).getLast?.getD []

/-- The entity at the path without its last component. -/
def at_parent_path (h : Heap) (path : gstr) : Option Ptr :=
  h.walk 0 (components (path.splitOn '/')).dropLast

/-- What the return code of `spfs_mkdir` says about the heap before and after. -/
structure Promise (path : gstr) (h : Heap) (ret : ℤ) (h' : Heap) : Prop where
  made : ret = 0 → ∃ parent, at_parent_path h path = some parent ∧ Attaches h h' parent ∧
    spfs_entity_find_path h' 0 path = some h.fresh
  failed : ret < 0 → h' = h

/-- The checks that the code makes let the directory be made in `parent`. -/
structure Admitted (h : Heap) (path : gstr) (parent : Ptr) : Prop where
  found : spfs_entity_find_path h 0 (g_path_get_dirname path) = some parent
  mkdir : ∃ ent, h.get parent = some ent ∧ ent.mkdir = some .search_dir_mkdir
  free : spfs_entity_dir_has_child h parent (g_path_get_basename path) = false

/-- There is a session, and where the code's checks let a directory be made, the plain walk agrees
on the parent, the name is not empty and not that of the parent, and sanitising leaves it as it
is. -/
structure Fits (session : Option sp_session) (h : Heap) (path : gstr) : Prop where
  session : session ≠ none
  parent : ∀ parent, Admitted h path parent → at_parent_path h path = some parent ∧
    last_component path ≠ [] ∧ h.name parent ≠ some (last_component path) ∧
    spfs_sanitize_name (g_path_get_basename path) = last_component path

/-! ## The heap after a creation -/

section Created

variable {h : Heap} {dirname : gstr} {search : sp_search}

/-- The directory of a search. -/
def search_dir (dirname : gstr) (search : sp_search) : spfs_entity :=
  { spfs_entity_dir_create (some dirname) ⟨some .search_readdir, none⟩ with
    auxdata := some (.search search) }

/-- To change a new entity is to create it so. -/
lemma modify_alloc (h : Heap) (e : spfs_entity) (f : spfs_entity → spfs_entity) :
    (h.alloc e).modify h.fresh f = h.alloc (f e) := by
  have hlt : h.cells.length < (h.cells ++ [e]).length := by simp
  simp [Heap.alloc, Heap.modify, Heap.fresh, List.modify_eq_take_cons_drop hlt]

/-- The directory of a search is new. -/
lemma search_dir_new (dirname : gstr) (search : sp_search) : (search_dir dirname search).New :=
  (spfs_entity_dir_create_new _ _).with_auxdata _

/-- The directory is refused if its sanitised name is empty. -/
lemma add_search_dir_of_nil {parent : Ptr} (hnil : spfs_sanitize_name dirname = []) :
    spfs_entity_dir_add_child (h.alloc (search_dir dirname search)) parent h.fresh =
      h.alloc (search_dir dirname search) := by
  rcases spfs_entity_dir_add_child_cases (h.alloc (search_dir dirname search)) parent h.fresh with
    heq | ⟨name, -, hname, -, hne, -, -⟩
  · exact heq
  · rw [Heap.name, Heap.get_alloc, if_pos rfl] at hname
    exact absurd ((Option.some.inj hname).symm.trans hnil) hne

variable (search) in
/-- Otherwise it is attached, and a look-up in the parent finds it under that name. -/
lemma add_search_dir {parent : Ptr} {ent : spfs_entity} (hent : h.get parent = some ent)
    (hmkdir : ent.mkdir = some .search_dir_mkdir)
    (hfree : spfs_entity_dir_has_child h parent dirname = false)
    (hnil : spfs_sanitize_name dirname ≠ []) :
    let h' := spfs_entity_dir_add_child (h.alloc (search_dir dirname search)) parent h.fresh
    Attaches h h' parent ∧ ∀ p key, h'.lookup p key =
      if parent = p ∧ spfs_sanitize_name dirname = key then some h.fresh else h.lookup p key := by
  intro h'
  have hlt := Heap.lt_fresh_of_get hent
  obtain ⟨ops, children, hdir⟩ : ∃ ops children, ent.e = .dir ops children := by
    rcases ent with ⟨_, _, _, _, _ | ⟨ops, children⟩ | _⟩
    · cases hmkdir
    · exact ⟨ops, children, rfl⟩
    · cases hmkdir
  have hname : (h.alloc (search_dir dirname search)).name h.fresh =
      some (spfs_sanitize_name dirname) := by
    rw [Heap.name, Heap.get_alloc, if_pos rfl]
    rfl
  have htable : (h.alloc (search_dir dirname search)).children parent = some children := by
    rw [Heap.children, Heap.get_alloc, if_neg hlt.ne, hent, Option.bind_some, hdir]
    rfl
  have hlookup : (h.alloc (search_dir dirname search)).lookup parent (spfs_sanitize_name dirname)
      = none := by
    rw [Heap.lookup_alloc (search_dir_new dirname search)]
    simpa [spfs_entity_dir_has_child, spfs_entity_dir_get_child] using hfree
  have hhas : spfs_entity_dir_has_child (h.alloc (search_dir dirname search)) parent
      (spfs_sanitize_name dirname) = false := by
    rw [spfs_entity_dir_has_child, spfs_entity_dir_get_child, spfs_sanitize_name_idem, hlookup]
    rfl
  have heq : h' = (h.alloc (search_dir dirname search)).link_child parent h.fresh
      (spfs_sanitize_name dirname) := by
    simp only [h', spfs_entity_dir_add_child, hname, htable, hnil, hhas, Option.isNone_some,
      Bool.false_eq_true, if_false]
  rw [heq]
  constructor
  · have hinsert : g_hash_table_insert children (spfs_sanitize_name dirname) h.fresh =
        children ++ [(spfs_sanitize_name dirname, h.fresh)] := by
      rw [Heap.lookup, htable, Option.bind_some] at hlookup
      exact g_hash_table_insert_of_free h.fresh hlookup
    refine ⟨by simp, ?_, ?_⟩
    · intro p hp hne
      rw [Heap.link_child, Heap.get_modify, if_neg hne.symm, Heap.get_modify, if_neg hp.ne',
        Heap.get_alloc, if_neg hp.ne]
    · refine ⟨{ search_dir dirname search with parent := some parent }, ent, _, _, ops, children,
        ?_, rfl, rfl, rfl, hent, hdir, ?_⟩
      · rw [Heap.link_child, Heap.get_modify, if_neg hlt.ne, Heap.get_modify, if_pos rfl,
          Heap.get_alloc, if_pos rfl]
        rfl
      · rw [Heap.link_child, Heap.get_modify, if_pos rfl, Heap.get_modify, if_neg hlt.ne',
          Heap.get_alloc, if_neg hlt.ne, hent]
        simp [spfs_entity.insert_child, hdir, hinsert]
  · intro p key
    rw [Heap.lookup_link_child htable hlookup, Heap.lookup_alloc (search_dir_new dirname search)]

/-- What `search_dir_mkdir` does in a directory. -/
lemma eval_search_dir_mkdir {parent : Ptr} (dirname : gstr) (o : Spotify) {s : Mount}
    (hdir : s.heap.children parent ≠ none) :
    (search_dir_mkdir parent dirname).eval MountInstr.exec o s =
      if spfs_entity_dir_has_child s.heap parent dirname then some (-EEXIST, s)
      else some (0, { s with
        heap := spfs_entity_dir_add_child (s.heap.alloc (search_dir dirname o.search_create))
          parent s.heap.fresh
        searches := (o.search_create, s.heap.fresh) :: s.searches }) := by
  unfold search_dir_mkdir
  simp only [Prog.of_bind]
  rw [Prog.eval_call (exec_has_child o dirname hdir)]
  rcases spfs_entity_dir_has_child s.heap parent dirname with _ | _
  · simp only [Bool.false_eq_true, if_false]
    rw [Prog.eval_call (v := s.heap.fresh) rfl, Prog.eval_call (v := o.search_create) rfl,
      Prog.eval_call (v := ()) rfl, Prog.eval_call (v := ()) rfl, Prog.eval_ret, modify_alloc]
    rfl
  · simp

end Created

/-! ## The condition -/

/-- What `spfs_mkdir` does if there is a session. -/
lemma eval_spfs_mkdir {s : Mount} (hs : s.heap.Tree) (session : sp_session) (path : gstr)
    (o : Spotify) :
    (∃ ret, ret < 0 ∧ (spfs_mkdir (some session) path).eval MountInstr.exec o s = some (ret, s) ∧
      ∀ parent, ¬ Admitted s.heap path parent) ∨
    ∃ parent searches, Admitted s.heap path parent ∧
      (spfs_mkdir (some session) path).eval MountInstr.exec o s = some (0, { s with
        heap := spfs_entity_dir_add_child (s.heap.alloc
          (search_dir (g_path_get_basename path) o.search_create)) parent s.heap.fresh
        searches := searches }) := by
  unfold spfs_mkdir Spotifile.spfs_mkdir
  simp only [Prog.of_bind]
  rw [Prog.eval_call (v := some 0) (by rw [MountInstr.exec, hs.root]),
    Prog.eval_call (v := spfs_entity_find_path s.heap 0 (g_path_get_dirname path)) rfl]
  rcases hfound : spfs_entity_find_path s.heap 0 (g_path_get_dirname path) with _ | parent
  · left
    refine ⟨-ENOENT, by decide, rfl, ?_⟩
    intro parent hadm
    cases hfound.symm.trans hadm.found
  have hparent : ∀ parent', Admitted s.heap path parent' → parent' = parent :=
    fun parent' hadm => Option.some.inj (hadm.found.symm.trans hfound)
  obtain ⟨cs, hcs⟩ := exists_walk_of_find_path (Heap.walk_nil s.heap 0) hfound
  obtain ⟨ent, hent⟩ := Heap.exists_get_of_lt (hs.lt_fresh_of_walk hcs)
  simp only
  rw [Prog.eval_call (exec_entity o hent)]
  rcases hmkdir : ent.mkdir with _ | ⟨⟩
  · left
    have hnone : ∀ parent', ¬ Admitted s.heap path parent' := by
      intro parent' hadm
      obtain rfl := hparent parent' hadm
      obtain ⟨ent', hent', hmkdir'⟩ := hadm.mkdir
      obtain rfl : ent = ent' := Option.some.inj (hent.symm.trans hent')
      cases hmkdir.symm.trans hmkdir'
    by_cases hchildren : ent.e.children.isNone
    · rw [if_pos hchildren]
      exact ⟨-ENOENT, by decide, rfl, hnone⟩
    · rw [if_neg hchildren]
      exact ⟨-EACCES, by decide, rfl, hnone⟩
  · have hchildren : ¬ ent.e.children.isNone := by
      rcases ent with ⟨_, _, _, _, _ | _ | _⟩
      · cases hmkdir
      · exact Bool.false_ne_true
      · cases hmkdir
    have hdir : s.heap.children parent ≠ none := by
      rw [Heap.children, hent, Option.bind_some]
      exact fun hnone => hchildren (Option.isNone_iff_eq_none.mpr hnone)
    rw [if_neg hchildren, eval_search_dir_mkdir _ _ hdir]
    by_cases hhas : spfs_entity_dir_has_child s.heap parent (g_path_get_basename path)
    · left
      rw [if_pos hhas]
      refine ⟨-EEXIST, by decide, rfl, ?_⟩
      intro parent' hadm
      obtain rfl := hparent parent' hadm
      cases hhas.symm.trans hadm.free
    · right
      rw [if_neg hhas]
      exact ⟨parent, _, ⟨hfound, ⟨ent, hent, hmkdir⟩, Bool.eq_false_iff.mpr hhas⟩, rfl⟩

/-- A path that has a last component is looked up there. -/
lemma find_path_of_last_component {h : Heap} {path : gstr} {parent : Ptr}
    (hlast : last_component path ≠ []) (hparent : at_parent_path h path = some parent) :
    spfs_entity_find_path h 0 path = h.find_last parent (last_component path) := by
  have hnil : path ≠ [] := by
    rintro rfl
    exact hlast rfl
  have hroot : path ≠ ['/'] := by
    rintro rfl
    exact hlast rfl
  rw [spfs_entity_find_path_eq hnil hroot]
  unfold at_parent_path at hparent
  rw [hparent]
  rfl

/-- The new directory is in one directory only. -/
lemma Attaches.parent_eq {h h' : Heap} {parent parent' : Ptr} (ha : Attaches h h' parent)
    (ha' : Attaches h h' parent') : parent' = parent := by
  obtain ⟨dir, _, _, _, _, _, hdir, -, hup, -⟩ := ha.entry
  obtain ⟨dir', _, _, _, _, _, hdir', -, hup', -⟩ := ha'.entry
  obtain rfl : dir = dir' := Option.some.inj (hdir.symm.trans hdir')
  exact Option.some.inj (hup'.symm.trans hup)

/-- The last step of a look-up finds the new directory under its sanitised name only. -/
lemma Attaches.find_last_iff {h h' : Heap} {parent : Ptr} {dirname : gstr} (hh : h.Tree)
    (ha : Attaches h h' parent) (hlt : parent < h.fresh)
    (hlookup : ∀ p key, h'.lookup p key =
      if parent = p ∧ spfs_sanitize_name dirname = key then some h.fresh else h.lookup p key)
    (c : gstr) : h'.find_last parent c = some h.fresh ↔
      h.name parent ≠ some c ∧ spfs_sanitize_name dirname = c := by
  have hname : h'.name parent = h.name parent := by
    obtain ⟨_, ent', _, _, _, _, -, -, -, -, hent', -, hget⟩ := ha.entry
    rw [Heap.name, Heap.name, hget, hent']
    rfl
  unfold Heap.find_last
  rw [hname, hlookup]
  by_cases hc : h.name parent = some c
  · rw [if_pos hc]
    exact iff_of_false (fun heq => hlt.ne (Option.some.inj heq)) fun hand => hand.1 hc
  · rw [if_neg hc]
    by_cases hsan : spfs_sanitize_name dirname = c
    · rw [if_pos ⟨rfl, hsan⟩]
      exact iff_of_true rfl ⟨hc, hsan⟩
    · rw [if_neg fun hand => hsan hand.2]
      refine iff_of_false ?_ fun hand => hsan hand.2
      intro hold
      obtain ⟨-, hfresh, -⟩ := hh.entry parent c _ hold
      rw [Heap.name, Heap.get_eq_none_of_fresh_le (Nat.le_refl _)] at hfresh
      cases hfresh

/-- Where a directory may be made, the promise is kept exactly if the name fits. -/
lemma promise_add_iff {h : Heap} (hh : h.Tree) {path : gstr} {parent : Ptr} {search : sp_search}
    (hadm : Admitted h path parent) :
    Promise path h 0 (spfs_entity_dir_add_child
        (h.alloc (search_dir (g_path_get_basename path) search)) parent h.fresh) ↔
      at_parent_path h path = some parent ∧ last_component path ≠ [] ∧
        h.name parent ≠ some (last_component path) ∧
        spfs_sanitize_name (g_path_get_basename path) = last_component path := by
  obtain ⟨ent, hent, hmkdir⟩ := hadm.mkdir
  have hlt := Heap.lt_fresh_of_get hent
  by_cases hnil : spfs_sanitize_name (g_path_get_basename path) = []
  · apply iff_of_false
    · rw [add_search_dir_of_nil hnil]
      intro hpromise
      obtain ⟨_, _, hattach, _⟩ := hpromise.made rfl
      obtain ⟨dir, _, _, _, _, _, hdir, -, hup, -⟩ := hattach.entry
      rw [Heap.get_alloc, if_pos rfl] at hdir
      obtain rfl := Option.some.inj hdir
      cases hup
    · rintro ⟨-, hne, -, hsan⟩
      exact hne (hsan.symm.trans hnil)
  obtain ⟨hattach, hlookup⟩ := add_search_dir search hent hmkdir hadm.free hnil
  have hgrows : h.Grows (spfs_entity_dir_add_child
      (h.alloc (search_dir (g_path_get_basename path) search)) parent h.fresh) := by
    have hnew := search_dir_new (g_path_get_basename path) search
    apply ((Heap.Grows.refl h).alloc hnew).add_child (hh.alloc hnew)
    · rw [Heap.parent_alloc, if_pos rfl]
      rfl
    · exact Or.inl (Heap.get_eq_none_of_fresh_le (Nat.le_refl _))
  revert hattach hlookup hgrows
  generalize spfs_entity_dir_add_child
    (h.alloc (search_dir (g_path_get_basename path) search)) parent h.fresh = h'
  intro hattach hlookup hgrows
  have hlast := hattach.find_last_iff hh hlt hlookup
  constructor
  · intro hpromise
    obtain ⟨parent', hplace, hattach', hfind⟩ := hpromise.made rfl
    obtain rfl := hattach.parent_eq hattach'
    rcases spfs_entity_find_path_cases hfind with ⟨-, hzero⟩ | ⟨-, -, parent'', hplace'', hfound⟩
    · exact absurd hzero hh.pos.ne'
    obtain rfl : parent'' = parent' :=
      Option.some.inj (hplace''.symm.trans (hgrows.walk hplace))
    obtain ⟨hother, hsan⟩ := (hlast (last_component path)).mp hfound
    exact ⟨hplace, hsan ▸ hnil, hother, hsan⟩
  · rintro ⟨hplace, hne, hother, hsan⟩
    refine ⟨fun _ => ⟨parent, hplace, hattach, ?_⟩, fun hneg => absurd hneg (lt_irrefl 0)⟩
    rw [find_path_of_last_component hne (hgrows.walk hplace)]
    exact (hlast _).mpr ⟨hother, hsan⟩

/-- The return code of `spfs_mkdir` says what was done exactly if the path fits. -/
theorem spfs_mkdir_promise_iff {s : Mount} (hs : s.heap.Tree) (session : Option sp_session)
    (path : gstr) (o : Spotify) :
    ∃ ret s', (spfs_mkdir session path).eval MountInstr.exec o s = some (ret, s') ∧
      (Promise path s.heap ret s'.heap ↔ Fits session s.heap path) := by
  rcases session with _ | session
  · refine ⟨0, s, rfl, iff_of_false ?_ fun hfits => hfits.session rfl⟩
    intro hpromise
    obtain ⟨_, _, hattach, _⟩ := hpromise.made rfl
    exact absurd hattach.count (Nat.succ_ne_self _).symm
  rcases eval_spfs_mkdir hs session path o with
    ⟨ret, hneg, heval, hnone⟩ | ⟨parent, searches, hadm, heval⟩
  · refine ⟨ret, s, heval, iff_of_true ⟨fun h0 => absurd h0 hneg.ne, fun _ => rfl⟩ ?_⟩
    exact ⟨Option.some_ne_none _, fun parent hadm => absurd hadm (hnone parent)⟩
  · refine ⟨0, _, heval, ?_⟩
    rw [promise_add_iff hs hadm]
    constructor
    · intro hfits
      refine ⟨Option.some_ne_none _, ?_⟩
      intro parent' hadm'
      obtain rfl := Option.some.inj (hadm.found.symm.trans hadm'.found)
      exact hfits
    · exact fun hfits => hfits.parent parent hadm

/-- The theorem at a search that fits: the directory is made. -/
theorem spfs_mkdir_promise_query :
    ∃ ret s', (spfs_mkdir (some 0) "/search/query".toList).eval MountInstr.exec single Mount.init =
      some (ret, s') ∧ Promise "/search/query".toList Mount.init.heap ret s'.heap := by
  obtain ⟨ret, s', heval, hiff⟩ := spfs_mkdir_promise_iff (s := Mount.init) init_tree_placed.1
    (some 0) "/search/query".toList single
  refine ⟨ret, s', heval, hiff.mpr ⟨Option.some_ne_none 0, ?_⟩⟩
  intro parent hadm
  have hfound : spfs_entity_find_path Mount.init.heap 0
      (g_path_get_dirname "/search/query".toList) = some 6 := by decide
  obtain rfl : parent = 6 := Option.some.inj (hadm.found.symm.trans hfound)
  decide

/-- But a blank before the name is enough: `spfs_mkdir` returns 0, and there is no such
directory. -/
theorem not_spfs_mkdir_promise :
    ¬ ∀ (s : Mount) (session : sp_session) (path : gstr) (o : Spotify) (ret : ℤ) (s' : Mount),
      s.heap.Tree → (spfs_mkdir (some session) path).eval MountInstr.exec o s = some (ret, s') →
      Promise path s.heap ret s'.heap := by
  intro hall
  have hrun : ((spfs_mkdir (some 0) "/search/ x".toList).eval MountInstr.exec single
      Mount.init).any fun r => r.1 = 0 ∧
        spfs_entity_find_path r.2.heap 0 "/search/ x".toList = none := by decide +kernel
  obtain ⟨r, heval, hr⟩ := (Option.any_eq_true ..).mp hrun
  obtain ⟨hret, hnone⟩ := of_decide_eq_true hr
  have hpromise := hall Mount.init 0 _ single r.1 r.2 init_tree_placed.1 heval
  obtain ⟨_, _, _, hfind⟩ := hpromise.made hret
  rw [hnone] at hfind
  cases hfind

end Mkdir

end Spotifile
