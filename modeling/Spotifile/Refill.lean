import Spotifile.Collisions
import Spotifile.Lib.Settled
import Spotifile.Names

/-!
# Listing a directory again

A `readdir` fills its directory, and the browse directories to which the links in it lead. It adds
what is not there, by the sanitised name; a name of which nothing is left is never there, so that
its entity is created at each listing, and refused. `listed_again` says that a second listing leaves
all that the first one left: it only creates entities that are in no directory.

`Mount.Settles` follows the programs for this, by the rules of `Prog.Settles`.
-/

namespace Spotifile

open Lib

/-! ## At rest -/

/-- The entities are as they were, and there may be new ones. -/
structure Heap.Rests (h h' : Heap) : Prop where
  root : h'.spfs_root = h.spfs_root
  get : ∀ p < h.fresh, h'.get p = h.get p

namespace Heap.Rests

variable {h h' h'' : Heap}

/-- A heap that stays as it is rests. -/
lemma refl (h : Heap) : h.Rests h := ⟨rfl, fun _ _ => rfl⟩

/-- What was there is there later. -/
lemma lt_fresh (hr : h.Rests h') {p : Ptr} (hp : p < h.fresh) : p < h'.fresh := by
  obtain ⟨e, he⟩ := Heap.exists_get_of_lt hp
  exact Heap.lt_fresh_of_get ((hr.get p hp).trans he)

/-- A heap that rests twice rests. -/
lemma trans (hr : h.Rests h') (hr' : h'.Rests h'') : h.Rests h'' where
  root := hr'.root.trans hr.root
  get p hp := (hr'.get p (hr.lt_fresh hp)).trans (hr.get p hp)

/-- The tables are the same. -/
lemma children (hr : h.Rests h') {p : Ptr} (hp : p < h.fresh) : h'.children p = h.children p := by
  rw [Heap.children, Heap.children, hr.get p hp]

/-- What was there is what it was. -/
lemma get_of_some (hr : h.Rests h') {p : Ptr} {e : spfs_entity} (he : h.get p = some e) :
    h'.get p = some e :=
  (hr.get p (Heap.lt_fresh_of_get he)).trans he

/-- What was found is found again. -/
lemma lookup (hr : h.Rests h') {p q : Ptr} {key : gstr} (hq : h.lookup p key = some q) :
    h'.lookup p key = some q := by
  obtain ⟨table, htable, hlookup⟩ := Option.bind_eq_some_iff.mp hq
  obtain ⟨e, he, -⟩ := Option.bind_eq_some_iff.mp htable
  rw [Heap.lookup, hr.children (Heap.lt_fresh_of_get he), htable]
  exact hlookup

/-- A heap that rests has grown. -/
lemma grows (hr : h.Rests h') : h.Grows h' where
  root := hr.root
  get _ e he := ⟨e, hr.get_of_some he, .refl e⟩
  lookup _ _ _ hq := hr.lookup hq

/-- All paths lead where they led. -/
lemma walk (hr : h.Rests h') (hh : h.Tree) {p : Ptr} (hp : p < h.fresh) (cs : List gstr) :
    h'.walk p cs = h.walk p cs := by
  induction cs generalizing p with
  | nil => rfl
  | cons c cs ih =>
    have hlookup : h'.lookup p c = h.lookup p c := by
      rw [Heap.lookup, Heap.lookup, hr.children hp]
    rw [Heap.walk_cons, Heap.walk_cons, hlookup]
    rcases hq : h.lookup p c with _ | q
    · rfl
    · obtain ⟨-, hname, -⟩ := hh.entry p c q hq
      obtain ⟨e, he, -⟩ := Option.bind_eq_some_iff.mp hname
      exact ih (Heap.lt_fresh_of_get he)

end Heap.Rests

/-- What a `readdir` may do, and what it may do again. -/
def mount_filling : Filling Mount where
  inv := Mount.Wf
  grows := Mount.Grows
  rests s s' := s.heap.Rests s'.heap
  grows_refl := .refl
  grows_trans hg hg' := hg.trans hg'
  rests_refl s := .refl s.heap

/-- What becomes of the state, the program reads `a`. -/
abbrev Mount.Reads {α : Type} (s : Mount) (o : Spotify) (p : MountProg α) (a : α) : Prop :=
  p.Reads mount_filling MountInstr.exec o a s

/-- What becomes of the state, the program leaves everything at rest. -/
abbrev Mount.Settled {α : Type} (s : Mount) (o : Spotify) (p : MountProg α) : Prop :=
  p.Settled mount_filling MountInstr.exec o s

/-- After a run of one of the programs, all are settled. -/
abbrev Mount.Settles {α β : Type} (s : Mount) (o : Spotify) (q : β → MountProg α) : Prop :=
  Prog.Settles mount_filling MountInstr.exec o q s

/-! ## Entities that are refused -/

/-- To add entries changes no other entity. -/
lemma get_add_entries_of_ne {h : Heap} {p₀ p : Ptr} (entries : List spfs_entity)
    (hp : p < h.fresh) (hne : p ≠ p₀) : (add_entries h p₀ entries).get p = h.get p := by
  induction entries generalizing h with
  | nil => rfl
  | cons x entries ih =>
    have hp' : p < (spfs_entity_dir_add_child (h.alloc x) p₀ h.fresh).fresh := by
      rw [fresh_add_child, Heap.fresh_alloc]
      exact hp.trans (Nat.lt_succ_self _)
    have hold : (h.alloc x).get p = h.get p := by rw [Heap.get_alloc, if_neg hp.ne]
    rw [add_entries, List.foldl_cons]
    apply (ih hp').trans
    rcases spfs_entity_dir_add_child_cases (h.alloc x) p₀ h.fresh with heq | ⟨_, _, -, -, -, -, heq⟩
    · rw [heq, hold]
    · rw [heq, Heap.link_child, Heap.get_modify, if_neg hne.symm, Heap.get_modify,
        if_neg hp.ne', hold]

/-- To add a child leaves the root where it is. -/
@[simp] lemma spfs_root_add_child (h : Heap) (parent child : Ptr) :
    (spfs_entity_dir_add_child h parent child).spfs_root = h.spfs_root := by
  rcases spfs_entity_dir_add_child_cases h parent child with heq | ⟨_, _, -, -, -, -, heq⟩
  · rw [heq]
  · rw [heq]
    rfl

/-- To add entries leaves the root where it is. -/
@[simp] lemma spfs_root_add_entries (h : Heap) (p₀ : Ptr) (entries : List spfs_entity) :
    (add_entries h p₀ entries).spfs_root = h.spfs_root := by
  induction entries generalizing h with
  | nil => rfl
  | cons x entries ih =>
    rw [add_entries, List.foldl_cons]
    apply (ih _).trans
    rw [spfs_root_add_child]
    rfl

/-- An entity without a name is refused. -/
lemma rests_add_new {h : Heap} {dir : Ptr} {e : spfs_entity} (entries : List spfs_entity)
    (hname : e.name = some []) : h.Rests (add_new h dir e entries) := by
  have hself : h.fresh < (h.alloc e).fresh := by
    rw [Heap.fresh_alloc]
    exact Nat.lt_succ_self _
  have hrefused : add_new h dir e entries = add_entries (h.alloc e) h.fresh entries := by
    apply add_child_refused
    intro name hmem
    rw [(add_entries_of_lt entries hself).1, Heap.name_alloc, if_pos rfl, hname] at hmem
    exact .inl (Option.some.inj hmem).symm
  rw [hrefused]
  constructor
  · rw [spfs_root_add_entries]
    rfl
  · intro p hp
    rw [get_add_entries_of_ne entries (hp.trans hself) hp.ne, Heap.get_alloc, if_neg hp.ne]

/-! ## The parts of the programs -/

section Parts

variable {links : SpotifyLinks} {s : Mount} {o : Spotify}

/-- What libspotify answers does not depend on the state. -/
lemma reads_of_const {γ : Type} {i : MountInstr γ} {v : γ}
    (h : ∀ t, MountInstr.exec i o t = some (some v, t)) : s.Reads o (.of i) v :=
  fun _ _ t _ => Prog.eval_of (h t)

/-- A pointer that was not NULL is read again. -/
lemma settles_deref {α β γ : Type} {x : Option γ} {k : γ → β → MountProg α}
    (h : ∀ a, x = some a → s.Settles o (k a)) :
    s.Settles o fun b => Spotifile.deref x >>= fun a => k a b := by
  rcases x with _ | a
  · rintro b r s' he
    cases he
  · exact h a rfl

/-- Of a directory that is listed only the `auxdata` is read. -/
lemma settles_entity {α β : Type} {k : spfs_entity → β → MountProg α} {e : Ptr}
    {f : SpfsReaddirFunc} {ent : spfs_entity} (he : s.heap.get e = some ent)
    (hf : ent.readdir = some f) (hne : f ≠ .search_readdir)
    (hk : ∀ ent', ent'.auxdata = ent.auxdata → k ent' = k ent) (h : s.Settles o (k ent)) :
    s.Settles o fun b => Prog.of (.entity e) >>= fun ent => k ent b := by
  intro b r s' heval
  change (Prog.of (.entity e) >>= fun ent => k ent b).eval MountInstr.exec o s = _ at heval
  rw [Prog.of_bind, Prog.eval_call (exec_entity o he)] at heval
  obtain ⟨hw', hg, hsettled⟩ := h b r s' heval
  refine ⟨hw', hg, fun b' s₁ hg₁ t ht => ?_⟩
  obtain ⟨ent', he', hgrows⟩ := ((Mount.Grows.trans hg hg₁).heap.trans ht.grows).get e ent he
  have hauxdata : ent'.auxdata = ent.auxdata := by
    apply hgrows.auxdata
    rw [hf]
    simpa using hne
  show ∃ a t', (Prog.of (.entity e) >>= fun ent => k ent b').eval MountInstr.exec o t =
    some (a, t') ∧ s₁.heap.Rests t'.heap
  rw [Prog.of_bind, Prog.eval_call (exec_entity o he'), hk ent' hauxdata]
  exact hsettled b' s₁ hg₁ t ht

/-- The `auxdata` of the browse directory that holds a directory. -/
lemma reads_parent_auxdata (hw : s.Wf) {e p : Ptr} {f : SpfsReaddirFunc} {k : BrowseKind}
    (hf : s.heap.readdir e = some f) (hk : f.within = some k) (hp : s.heap.parent e = some p) :
    s.Reads o (parent_auxdata e) (s.heap.auxdata p) := by
  obtain ⟨ent, he, hreaddir⟩ := Option.bind_eq_some_iff.mp hf
  have hparent : ent.parent = some p := by
    rwa [Heap.parent, he, Option.bind_some] at hp
  have hbrowses := (hw.placed e ent p he hparent).within f k hreaddir hk
  obtain ⟨up, hup, -⟩ := Option.bind_eq_some_iff.mp hbrowses
  intro s' hg t ht
  have hgt := hg.heap.trans ht.grows
  obtain ⟨up', hup', -⟩ := hgt.get p up hup
  have hauxdata : up'.auxdata = s.heap.auxdata p := by
    rw [← hgt.auxdata_of_browses hbrowses, Heap.auxdata, hup']
    rfl
  rw [← hauxdata]
  exact eval_parent_auxdata (hgt.parent hp) hup'

/-- The `auxdata` of the parent is read. -/
lemma settles_parent_auxdata {α β : Type} {q : Option Auxdata → β → MountProg α} (hw : s.Wf)
    {e : Ptr} {f : SpfsReaddirFunc} {k : BrowseKind} (hf : s.heap.readdir e = some f)
    (hk : f.within = some k) (h : ∀ auxdata, s.Settles o (q auxdata)) :
    s.Settles o fun b => parent_auxdata e >>= fun auxdata => q auxdata b := by
  rcases hp : s.heap.parent e with _ | p
  · -- NULL is read through
    obtain ⟨ent, he, -⟩ := Option.bind_eq_some_iff.mp hf
    have hparent : ent.parent = none := by
      rwa [Heap.parent, he, Option.bind_some] at hp
    intro b r s' heval
    change (parent_auxdata e >>= fun auxdata => q auxdata b).eval MountInstr.exec o s = _ at heval
    unfold parent_auxdata at heval
    rw [Prog.eval_bind, Prog.of_bind, Prog.eval_call (exec_entity o he), hparent] at heval
    cases heval
  · exact .read (reads_parent_auxdata hw hf hk hp) (h _)

/-- A program that is only run where there is no entry of the name. -/
def unless_there (dir : Ptr) (name : gstr) (p : MountProg Unit) : MountProg Unit := do
  let has ← .of (.has_child dir name)
  if has then .ret () else p

/-- Where the name is taken nothing happens, and else the program runs. -/
lemma eval_unless_there {dir : Ptr} (name : gstr) (p : MountProg Unit) {t : Mount}
    (hdir : t.heap.children dir ≠ none) :
    (unless_there dir name p).eval MountInstr.exec o t =
      if spfs_entity_dir_has_child t.heap dir name then some ((), t)
      else p.eval MountInstr.exec o t := by
  unfold unless_there
  rw [Prog.of_bind, Prog.eval_call (exec_has_child o name hdir)]
  split <;> rfl

/-- Only what the program does where there is no entry matters. -/
lemma eval_unless_there_congr {dir : Ptr} {name : gstr} {p q : MountProg Unit} {t : Mount}
    (h : p.eval MountInstr.exec o t = q.eval MountInstr.exec o t) :
    (unless_there dir name p).eval MountInstr.exec o t =
      (unless_there dir name q).eval MountInstr.exec o t := by
  by_cases hdir : t.heap.children dir = none
  · unfold unless_there
    rw [Prog.of_bind, Prog.of_bind, Prog.eval, Prog.eval, MountInstr.exec, if_pos hdir]
  · rw [eval_unless_there name p hdir, eval_unless_there name q hdir, h]

/-- Where there is an entry, or what would make one is settled, all is settled. -/
lemma settled_unless_there {dir : Ptr} {name : gstr} {p : MountProg Unit}
    (hdir : s.heap.children dir ≠ none)
    (h : s.heap.lookup dir (spfs_sanitize_name name) ≠ none ∨ s.Settled o p) :
    s.Settled o (unless_there dir name p) := by
  intro s' hg t ht
  rw [eval_unless_there name p (ht.grows.children (hg.heap.children hdir))]
  rcases hhas : spfs_entity_dir_has_child t.heap dir name with _ | _
  · rcases h with hthere | hsettled
    · obtain ⟨q, hq⟩ := Option.ne_none_iff_exists'.mp hthere
      have hthere' := ht.lookup (hg.heap.lookup dir _ q hq)
      rw [spfs_entity_dir_has_child, spfs_entity_dir_get_child, hthere'] at hhas
      cases hhas
    · exact hsettled s' hg t ht
  · exact ⟨(), t, rfl, ht⟩

/-- After one of the programs has run there is an entry, or the programs are settled for
themselves. -/
lemma settles_unless_there {β : Type} {dir : Ptr} {name : gstr} {q : β → MountProg Unit}
    (hw : s.Wf) (hdir : s.heap.children dir ≠ none)
    (hq : ∀ b s', s.heap.lookup dir (spfs_sanitize_name name) = none →
      (q b).eval MountInstr.exec o s = some ((), s') → s'.Wf ∧ s.Grows s' ∧
        (s'.heap.lookup dir (spfs_sanitize_name name) ≠ none ∨ ∀ b', s'.Settled o (q b'))) :
    s.Settles o fun b => unless_there dir name (q b) := by
  intro b _ s' he
  rw [eval_unless_there name (q b) hdir] at he
  rcases hhas : spfs_entity_dir_has_child s.heap dir name with _ | _
  · have hfree : s.heap.lookup dir (spfs_sanitize_name name) = none := by
      rw [spfs_entity_dir_has_child, spfs_entity_dir_get_child] at hhas
      simpa using hhas
    rw [hhas, if_neg Bool.false_ne_true] at he
    obtain ⟨hw', hg, hthere⟩ := hq b s' hfree he
    have hdir' := hg.heap.children hdir
    exact ⟨hw', hg, fun b' => settled_unless_there hdir' (hthere.imp_right fun h => h b')⟩
  · have hthere : s.heap.lookup dir (spfs_sanitize_name name) ≠ none := by
      rw [spfs_entity_dir_has_child, spfs_entity_dir_get_child] at hhas
      exact Option.isSome_iff_ne_none.mp hhas
    rw [hhas, if_pos rfl] at he
    cases he
    exact ⟨hw, .refl s, fun b' => settled_unless_there hdir (.inl hthere)⟩

/-- A new entity without entries. -/
lemma settles_add_new {dir : Ptr} {name : gstr} {e : spfs_entity} (hw : s.Wf)
    (hname : e.name = some (spfs_sanitize_name name)) (hn : NewEntity s.heap dir e [])
    (hdir : s.heap.children dir ≠ none) :
    s.Settles o fun _ : Unit =>
      unless_there dir name (.of (.add_new dir e []) >>= fun _ => .ret ()) := by
  refine settles_unless_there hw hdir fun _ s' hfree he => ?_
  obtain ⟨s₁, hexec, hw₁, hk, -, hlookup⟩ := exec_add_new (o := o) hw hn
  rw [Prog.of_bind, Prog.eval_call hexec] at he
  cases he
  refine ⟨hw₁, hk.toGrows, ?_⟩
  by_cases hnil : spfs_sanitize_name name = []
  · -- it is refused
    right
    intro _ s' _ t ht
    exact ⟨(), _, rfl, ht.trans (rests_add_new [] (by rw [hname, hnil]))⟩
  · left
    rw [hlookup dir hn.lt, if_pos ⟨rfl, hname, hnil, hdir, hfree⟩]
    exact Option.some_ne_none _

/-- A link without a name is refused. -/
lemma settled_create_link {dir : Ptr} {name : gstr} (hnil : spfs_sanitize_name name = [])
    (goal : Option Goal) (dst : Option Ptr) : s.Settled o (create_link dir name goal dst) := by
  intro s' _ t ht
  have hname : (spfs_entity_link_create name).name = some [] := congrArg some hnil
  have hr : t.heap.Rests (add_new t.heap dir (spfs_entity_link_create name) []) :=
    rests_add_new [] hname
  unfold create_link
  simp only [Prog.of_bind]
  rw [Prog.eval_call (v := t.heap.fresh) rfl, Prog.eval_call rfl]
  refine ⟨(), _, Prog.eval_of rfl, ht.trans ⟨?_, fun p hp => ?_⟩⟩
  · show (spfs_entity_link_set_target _ _ _).spfs_root = _
    rw [link_set_target_eq]
    exact hr.root
  · show (spfs_entity_link_set_target _ _ _).get p = _
    rw [link_set_target_eq, Heap.get_modify, if_neg hp.ne']
    exact hr.get p hp

/-- After a link was created there is an entry, if it has a name. -/
lemma there_of_create_link (hw : s.Wf) {dir : Ptr} {f : SpfsReaddirFunc} {k : BrowseKind}
    (hdir : s.Holds dir f) (hf : f.links = some k) {name : gstr} {goal : Option Goal}
    {dst : Option Ptr} {s' : Mount}
    (he : (create_link dir name goal dst).eval MountInstr.exec o s = some ((), s')) :
    s'.Wf ∧ s.Grows s' ∧ (s'.heap.lookup dir (spfs_sanitize_name name) ≠ none ∨
      spfs_sanitize_name name = []) := by
  have hruns : Runs False ⟨fun _ => none, fun _ => none, fun _ => none⟩
      (create_link dir name goal dst) s fun _ _ => True :=
    runs_create_link ⟨hw, False.elim⟩ hdir hf name False.elim
  obtain ⟨hw', hg, -⟩ := hruns.eval hw he
  refine ⟨hw', hg, ?_⟩
  by_cases hnil : spfs_sanitize_name name = []
  · exact .inr hnil
  left
  rcases hfree : s.heap.lookup dir (spfs_sanitize_name name) with _ | q
  · obtain ⟨s₁, he₁, hlinked⟩ := eval_create_link (o := o) hw hdir hf hnil hfree goal dst
    rw [he, Option.some.injEq, Prod.mk.injEq] at he₁
    obtain ⟨e, hget, -⟩ := Option.bind_eq_some_iff.mp hdir.readdir
    rw [he₁.2, hlinked.lookup dir (Heap.lt_fresh_of_get hget), if_pos ⟨rfl, rfl⟩]
    exact Option.some_ne_none _
  · rw [hg.heap.lookup dir _ q hfree]
    exact Option.some_ne_none q

/-- Links, unless there is an entry. -/
lemma settles_create_link {β : Type} {dir : Ptr} {f : SpfsReaddirFunc} {k : BrowseKind} (hw : s.Wf)
    (hdir : s.Holds dir f) (hf : f.links = some k) (name : gstr) (goal : β → Option Goal)
    (dst : β → Option Ptr) :
    s.Settles o fun b => unless_there dir name (create_link dir name (goal b) (dst b)) := by
  refine settles_unless_there hw (children_of_readdir hdir.readdir) fun b s' _ he => ?_
  obtain ⟨hw', hg, hthere⟩ := there_of_create_link hw hdir hf he
  exact ⟨hw', hg, hthere.imp_right fun hnil b' => settled_create_link hnil (goal b') (dst b')⟩

/-- What is common to the three `create_.._browse_dir`. -/
lemma settles_create_browse_dir {k : BrowseKind} {path : gstr} {link : Option gstr}
    {create : gstr → MountProg (spfs_entity × List spfs_entity)} {auxdata : Auxdata}
    {entries : List spfs_entity} (hw : s.Wf)
    (hpath : spfs_entity_find_path spfs_init_heap 0 path = some k.base)
    (hcreate : ∀ linkstring t, (create linkstring).eval MountInstr.exec o t =
      some ((browse_dir_create linkstring auxdata, entries), t))
    (hk : auxdata.kind = some k) (hentries : BrowseEntries k entries)
    (hruns : Runs False links (create_browse_dir path link create) s fun r s' =>
      ∀ d, r = some d → s'.heap.browses d = some k ∧
        ∃ linkstring', link = some linkstring' ∧
          s'.heap.name d = some (spfs_sanitize_name linkstring')) :
    s.Settles o fun _ : Unit => create_browse_dir path link create := by
  intro _ r s' he
  obtain ⟨hw', hg, -⟩ := hruns.eval hw he
  refine ⟨hw', hg, fun _ s₁ hg₁ t ht => ?_⟩
  have hroot : t.heap.spfs_root = some 0 :=
    ht.root.trans (hg₁.heap.root.trans hw'.tree.root)
  have hinit : spfs_init_heap.Grows t.heap := (hw'.init.trans hg₁.heap).trans ht.grows
  have hfind : spfs_entity_find_path t.heap 0 path = some k.base := by
    have hstart : spfs_init_heap.walk 0 [] = some 0 := rfl
    exact hinit.find_path init_tree_placed.1 hstart hpath
  have hbase : t.heap.children k.base ≠ none :=
    ht.grows.children (hg₁.heap.children (hw'.children_base k))
  unfold create_browse_dir
  simp only [Prog.of_bind]
  rw [Prog.eval_call (v := some 0) (by rw [MountInstr.exec, hroot]),
    Prog.eval_call (v := some k.base) (by rw [MountInstr.exec, Option.bind_some, hfind])]
  rcases link with _ | linkstring
  · exact ⟨none, t, rfl, ht⟩
  dsimp only
  rw [deref_some, Prog.eval_call (exec_has_child o linkstring hbase)]
  rcases hhas : spfs_entity_dir_has_child t.heap k.base linkstring with _ | _
  · -- a directory that is not there has no name
    have hnil : spfs_sanitize_name linkstring = [] := by
      by_contra hne
      obtain ⟨d, s₂, he₂, hopened⟩ :=
        eval_create_browse_dir hw hpath (hcreate linkstring s) hk hentries hruns
      rw [he, Option.some.injEq, Prod.mk.injEq] at he₂
      have hthere := hopened.here hw hne
      rw [← he₂.2] at hthere
      have hthere' := ht.lookup (hg₁.heap.lookup _ _ d hthere)
      rw [spfs_entity_dir_has_child, spfs_entity_dir_get_child, hthere'] at hhas
      cases hhas
    have hname : (browse_dir_create linkstring auxdata).name = some [] := congrArg some hnil
    rw [if_neg Bool.false_ne_true, Prog.eval_bind_of_eq (hcreate linkstring t)]
    exact ⟨_, _, rfl, ht.trans (rests_add_new entries hname)⟩
  · exact ⟨_, t, Prog.eval_of (exec_get_child o linkstring hbase), ht⟩

/-- Once there, the browse directory of a track is found again. -/
lemma settles_create_track_browse_dir (hw : s.Wf) (track : sp_track) :
    s.Settles o fun _ : Unit => create_track_browse_dir links track :=
  settles_create_browse_dir hw (by decide) (fun _ _ => rfl)
    (show (Auxdata.track track).kind = some .track from rfl) (browseEntries_track track)
    (runs_create_track_browse_dir track)

/-- Once there, the browse directory of an artist is found again. -/
lemma settles_create_artist_browse_dir (hw : s.Wf) (artist : sp_artist) :
    s.Settles o fun _ : Unit => create_artist_browse_dir links artist :=
  settles_create_browse_dir hw (by decide) (fun _ _ => rfl)
    (show (Auxdata.artistbrowse (o.artistbrowse_create artist)).kind = some .artist from rfl)
    browseEntries_artist (runs_create_artist_browse_dir artist)

/-- Once there, the browse directory of an album is found again. -/
lemma settles_create_album_browse_dir (hw : s.Wf) (album : sp_album) :
    s.Settles o fun _ : Unit => create_album_browse_dir links album :=
  settles_create_browse_dir hw (by decide) (fun _ _ => rfl)
    (show (Auxdata.album album).kind = some .album from rfl) browseEntries_album
    (runs_create_album_browse_dir album)

/-- A link to the `track.wav` of a track, whose name is not empty. -/
lemma settles_create_wav_track_link_in_directory (hw : s.Wf) {dir : Ptr} {f : SpfsReaddirFunc}
    (hdir : s.Holds dir f) (hf : f.links = some .track) {linkname : gstr}
    (hname : ∃ c ∈ linkname, g_ascii_isspace c = false) (track : sp_track) :
    s.Settles o fun _ : Unit => create_wav_track_link_in_directory links dir linkname track := by
  refine settles_unless_there hw (children_of_readdir hdir.readdir) fun _ s' _ he => ?_
  rw [Prog.eval_bind] at he
  obtain ⟨⟨r, s₁⟩, he₁, he⟩ := Option.bind_eq_some_iff.mp he
  obtain ⟨hw₁, hg₁, -⟩ := (runs_create_track_browse_dir track).eval hw he₁
  obtain ⟨track_wav, s₂, hfind, he⟩ := Prog.exists_of_eval_call he
  cases hfind
  obtain ⟨hw', hg', hthere⟩ := there_of_create_link hw₁ (hdir.mono hg₁) hf he
  exact ⟨hw', hg₁.trans hg', .inl (hthere.resolve_right (sanitize_name_ne_nil hname))⟩

end Parts

/-! ## Listing -/

section Listing

variable {links : SpotifyLinks} {s : Mount} {o : Spotify} {e : Ptr}

/-- A playlist that is listed once more by its tracks stays as it is. -/
lemma settles_playlist_dir_meta_readdir (hw : s.Wf) (he : s.Holds e .playlist_dir_meta_readdir) :
    s.Settles o fun _ : Unit => playlist_dir_meta_readdir links e := by
  obtain ⟨ent, hent, hreaddir⟩ := Option.bind_eq_some_iff.mp he.readdir
  apply settles_entity hent hreaddir (by decide) (fun ent' h => by rw [h])
  refine settles_deref fun pl _ => ?_
  refine .read (reads_of_const fun _ => rfl) ?_
  refine settles_deref fun tracks _ => ?_
  refine .forEach hw fun track _ s₁ hw₁ hg₁ => ?_
  refine .read (reads_of_const fun _ => rfl) ?_
  refine .bind (settles_create_track_browse_dir hw₁ track) fun s₂ hw₂ hg₂ => ?_
  exact settles_create_link hw₂ (he.mono (hg₁.trans hg₂)) rfl _ _ _

/-- The artists of a track that are listed once more stay as they are. -/
lemma settles_artists_readdir (hw : s.Wf) (he : s.Holds e .artists_readdir) :
    s.Settles o fun _ : Unit => artists_readdir links e := by
  refine settles_parent_auxdata hw he.readdir rfl fun auxdata => ?_
  refine settles_deref fun track _ => ?_
  refine .read (reads_of_const fun _ => rfl) ?_
  refine .forEach hw fun i _ s₁ hw₁ hg₁ => ?_
  refine .read (reads_of_const fun _ => rfl) ?_
  refine .read (reads_of_const fun _ => rfl) ?_
  refine .bind (settles_create_artist_browse_dir hw₁ _) fun s₂ hw₂ hg₂ => ?_
  exact settles_create_link hw₂ (he.mono (hg₁.trans hg₂)) rfl _ _ _

/-- The albums of an artist that are listed once more stay as they are. -/
lemma settles_albums_readdir (hw : s.Wf) (he : s.Holds e .albums_readdir) :
    s.Settles o fun _ : Unit => albums_readdir links e := by
  refine settles_parent_auxdata hw he.readdir rfl fun auxdata => ?_
  refine settles_deref fun ab _ => ?_
  refine .read (reads_of_const fun _ => rfl) ?_
  refine .forEach hw fun album _ s₁ hw₁ hg₁ => ?_
  refine .bind (settles_create_album_browse_dir hw₁ album) fun s₂ hw₂ hg₂ => ?_
  refine .read (reads_of_const fun _ => rfl) ?_
  exact settles_create_link hw₂ (he.mono (hg₁.trans hg₂)) rfl _ _ _

/-- The recordings of a playlist that are listed once more stay as they are. -/
lemma settles_playlist_dir_music_readdir (hw : s.Wf) (he : s.Holds e .playlist_dir_music_readdir) :
    s.Settles o fun _ : Unit => playlist_dir_music_readdir links e := by
  obtain ⟨ent, hent, hreaddir⟩ := Option.bind_eq_some_iff.mp he.readdir
  apply settles_entity hent hreaddir (by decide) (fun ent' h => by rw [h])
  refine settles_deref fun pl _ => ?_
  refine .read (reads_of_const fun _ => rfl) ?_
  refine settles_deref fun tracks _ => ?_
  refine .bind (.forEach hw fun track _ s₁ hw₁ hg₁ => ?_) fun s₁ hw₁ hg₁ => ?_
  · refine .read (reads_of_const fun _ => rfl) ?_
    exact settles_create_wav_track_link_in_directory hw₁ (he.mono hg₁) rfl
      ⟨'-', dash_mem_formatted_trackname _ _, rfl⟩ track.1
  · have hdir := hg₁.heap.readdir he.readdir
    have hn : NewEntity s₁.heap e (read_file "playlist.xspf".toList .xspf_read) [] :=
      newEntity_plain hw₁ hdir (spfs_entity_file_create_new _ _) rfl rfl (by rintro _ _ ⟨⟩)
        (by rintro _ ⟨⟩) fun _ => by decide
    exact settles_add_new hw₁ rfl hn (children_of_readdir hdir)

/-- The two `readdir` of the playlists directories. -/
lemma settles_playlists_dir_readdir (hw : s.Wf) {readdir f : SpfsReaddirFunc}
    (hdir : s.heap.readdir e = some f) (hhome : readdir.home = some e)
    (hplain : readdir.within = none ∧ f ≠ .playlist_dir_music_readdir ∧
      readdir ≠ .playlists_meta_dir_readdir ∧ readdir ≠ .playlists_music_dir_readdir) :
    s.Settles o fun _ : Unit => playlists_dir_readdir readdir e := by
  refine .read (reads_of_const fun _ => rfl) ?_
  refine settles_deref fun playlists _ => ?_
  refine .forEach hw fun pl _ s₁ hw₁ hg₁ => ?_
  refine .read (reads_of_const fun _ => rfl) ?_
  have hdir₁ := hg₁.heap.readdir hdir
  exact settles_add_new hw₁ rfl (newEntity_playlist_dir hw₁ hdir₁ hhome hplain _ pl)
    (children_of_readdir hdir₁)

/-- The portraits of an artist that are listed once more stay as they are. -/
lemma settles_portraits_readdir (hw : s.Wf) (he : s.heap.readdir e = some .portraits_readdir) :
    s.Settles o fun _ : Unit => portraits_readdir e := by
  refine settles_parent_auxdata hw he rfl fun auxdata => ?_
  refine settles_deref fun ab _ => ?_
  refine .read (reads_of_const fun _ => rfl) ?_
  refine .forEach hw fun portrait _ s₁ hw₁ hg₁ => ?_
  have he₁ := hg₁.heap.readdir he
  have hn : NewEntity s₁.heap e { read_file (Nat.toDigits 10 (portrait.2 + 1) ++ ".jpg".toList)
      .portrait_read with auxdata := some (.image (o.image_create portrait.1)) } [] :=
    newEntity_plain hw₁ he₁ ((spfs_entity_file_create_new _ _).with_auxdata _) rfl rfl
      (by rintro _ _ ⟨⟩) (by rintro _ ⟨⟩) (by rintro ⟨⟩)
  refine .congr (fun _ t => ?_) (settles_add_new hw₁ rfl hn (children_of_readdir he₁))
  -- the image is created only for a portrait that is not there
  exact eval_unless_there_congr rfl

/-- The `readdir` of a directory that is in the tree. -/
lemma settles_readdir_prog (hw : s.Wf) {f : SpfsReaddirFunc} (hf : s.heap.readdir e = some f)
    (hplace : ∃ cs, s.heap.walk 0 cs = some e) :
    s.Settles o fun _ : Unit => readdir_prog links f e := by
  have he : s.Holds e f := ⟨hf, fun _ => hplace⟩
  obtain ⟨ent, hget, hreaddir⟩ := Option.bind_eq_some_iff.mp hf
  cases f with
  | playlists_meta_dir_readdir =>
    obtain rfl : e = 8 :=
      hw.eq_of_fixed hget hreaddir (by simp [spfs_entity.fixed, hreaddir]) (by decide)
    exact settles_playlists_dir_readdir hw hf rfl (by decide)
  | playlists_music_dir_readdir =>
    obtain rfl : e = 9 :=
      hw.eq_of_fixed hget hreaddir (by simp [spfs_entity.fixed, hreaddir]) (by decide)
    exact settles_playlists_dir_readdir hw hf rfl (by decide)
  | playlist_dir_meta_readdir => exact settles_playlist_dir_meta_readdir hw he
  | playlist_dir_music_readdir => exact settles_playlist_dir_music_readdir hw he
  | artists_readdir => exact settles_artists_readdir hw he
  | albums_readdir => exact settles_albums_readdir hw he
  | portraits_readdir => exact settles_portraits_readdir hw hf
  | search_readdir => exact .ret hw

end Listing

/-- The directory lists each of its children once. -/
structure Heap.ListsOnce (h : Heap) (dir : Ptr) (children : List (gstr × Ptr)) : Prop where
  table : h.children dir = some children
  filled : filled_names h dir = ".".toList :: "..".toList :: children.map Prod.fst
  names : (children.map Prod.fst).Nodup
  entities : (children.map Prod.snd).Nodup

/-- In a tree every directory lists each of its children once. -/
lemma Heap.Tree.listsOnce {h : Heap} (hh : h.Tree) {dir : Ptr} {children : List (gstr × Ptr)}
    (htable : h.children dir = some children) : h.ListsOnce dir children where
  table := htable
  filled := by rw [filled_names, htable, Option.getD_some]
  names := hh.distinct dir children htable
  entities := by
    have hnames := hh.distinct dir children htable
    have hname : ∀ entry ∈ children, h.name entry.2 = some entry.1 := fun entry hentry =>
      (hh.entry dir entry.1 entry.2 (lookup_of_mem hnames htable hentry)).2.1
    have heq : (children.map Prod.snd).map h.name = (children.map Prod.fst).map some := by
      rw [List.map_map, List.map_map]
      exact List.map_congr_left hname
    apply List.Nodup.of_map h.name
    rw [heq]
    exact hnames.map (Option.some_injective gstr)

/-- Listing a directory again leaves the tree that the first listing left, and shows the same
children, each once; and no listing takes an entity away that was there. -/
theorem listed_again {links : SpotifyLinks}
    {l : List (World MountInstr Mount ℕ × Action ℕ MountCall Spotify)}
    {w : World MountInstr Mount ℕ} (hl : Trace (mount_system links) (World.idle Mount.init) l w)
    {e : Ptr} {f : SpfsReaddirFunc} {cs : List gstr} (hf : w.shared.heap.readdir e = some f)
    (hplace : w.shared.heap.walk 0 cs = some e) {o : Spotify} {s' : Mount}
    (hrun : (readdir_prog links f e).eval MountInstr.exec o w.shared = some ((), s')) :
    w.shared.Grows s' ∧
    (∀ l' w', Trace (mount_system links) w l' w' → w.shared.Grows w'.shared) ∧
    (∃ children, s'.heap.ListsOnce e children) ∧
    ∃ s'', (readdir_prog links f e).eval MountInstr.exec o s' = some ((), s'') ∧
      s'.heap.Rests s''.heap ∧ (∀ cs, s''.heap.walk 0 cs = s'.heap.walk 0 cs) ∧
      filled_names s''.heap e = filled_names s'.heap e := by
  have hw := wf_of_trace hl
  have hsettles : w.shared.Settles o fun _ : Unit => readdir_prog links f e :=
    settles_readdir_prog hw hf ⟨cs, hplace⟩
  obtain ⟨hw', hg, -⟩ := hsettles () () s' hrun
  obtain ⟨_, s'', hagain, hrests⟩ := hsettles.again hrun
  obtain ⟨ent, hent, -⟩ := Option.bind_eq_some_iff.mp hf
  have he : e < s'.heap.fresh := Heap.Grows.lt_fresh hg.heap (Heap.lt_fresh_of_get hent)
  have htable : s'.heap.children e ≠ none := children_of_readdir (hg.heap.readdir hf)
  obtain ⟨children, hchildren⟩ := Option.ne_none_iff_exists'.mp htable
  refine ⟨hg, fun l' w' hl' => mount_grows hl hl', ⟨children, hw'.tree.listsOnce hchildren⟩, s'',
    hagain, hrests, hrests.walk hw'.tree hw'.tree.pos, ?_⟩
  rw [filled_names, filled_names, hrests.children he]

/-- Two playlists, and the name of the second is blank. -/
def blank_playlist : Spotify :=
  { single with
    playlists := some [0, 1]
    playlist_name := fun pl => if pl = 0 then "p".toList else " ".toList }

/-- The theorem at the two playlists: a new entity without a name is created each time. -/
theorem listed_again_blank : ∃ s' s'',
    (readdir_prog one_link .playlists_meta_dir_readdir 8).eval MountInstr.exec blank_playlist
      Mount.init = some ((), s') ∧
    (readdir_prog one_link .playlists_meta_dir_readdir 8).eval MountInstr.exec blank_playlist
      s' = some ((), s'') ∧
    s'.heap.Rests s''.heap ∧ filled_names s''.heap 8 = filled_names s'.heap 8 := by
  obtain ⟨s', hrun⟩ : ∃ s', (readdir_prog one_link .playlists_meta_dir_readdir 8).eval
      MountInstr.exec blank_playlist Mount.init = some ((), s') := ⟨_, rfl⟩
  have hplace : Mount.init.heap.walk 0 ["playlists".toList, "meta".toList] = some 8 := rfl
  obtain ⟨-, -, -, s'', hagain, hrests, -, hfilled⟩ :=
    listed_again (w := World.idle Mount.init) .nil rfl hplace hrun
  exact ⟨s', s'', hrun, hagain, hrests, hfilled⟩

end Spotifile
