import Spotifile.Follow
import Spotifile.Lib.Alone
import Spotifile.MountRuns

/-!
# Operations that run alone

What the operations of the mounted file system do when nothing comes in between: which entries there
are afterwards, and which entity stands behind each. The invariants come from the rules for threads
that interleave (`Runs.eval`); the tables are computed exactly (`lookup_add_new`), since an entry
that was there already decides what a `create_.._browse_dir` or a `readdir` does.

`Opened` says what a `create_.._browse_dir` has done, and `eval_create_browse_dir` that it is done.
-/

namespace Spotifile

open Lib

/-- A program that runs alone keeps the invariant, and lets the heap grow. -/
lemma Runs.eval {links : SpotifyLinks} {α : Type} {p : MountProg α} {s s' : Mount}
    {Q : α → Mount → Prop} {o : Spotify} {a : α} (hruns : Runs False links p s Q) (hw : s.Wf)
    (he : p.eval MountInstr.exec o s = some (a, s')) : s'.Wf ∧ s.Grows s' ∧ Q a s' := by
  have hsafe := (hruns 0).eval (o := o) ⟨hw, False.elim⟩ (fun _ _ hs => hs.elim) he
  exact ⟨hsafe.1.wf, hsafe.2.2⟩

/-- What holds in every state that is reached. -/
lemma wf_of_trace {links : SpotifyLinks}
    {l : List (World MountInstr Mount ℕ × Action ℕ MountCall Spotify)}
    {w : World MountInstr Mount ℕ} (hl : Trace (mount_system links) (World.idle Mount.init) l w) :
    w.shared.Wf := by
  have hinv : w.shared.Inv False := mount_inv False.elim hl False.elim
  exact hinv.wf

/-- A pointer that is not NULL is read. -/
lemma deref_some {α β : Type} (a : α) (k : α → MountProg β) : deref (some a) >>= k = k a := rfl

/-- The `auxdata` of the parent is read. -/
lemma eval_parent_auxdata {s : Mount} {o : Spotify} {e p : Ptr} {up : spfs_entity}
    (hparent : s.heap.parent e = some p) (hup : s.heap.get p = some up) :
    (parent_auxdata e).eval MountInstr.exec o s = some (up.auxdata, s) := by
  obtain ⟨ent, hent, hp⟩ := Option.bind_eq_some_iff.mp hparent
  unfold parent_auxdata
  rw [Prog.of_bind, Prog.eval_call (exec_entity o hent), hp, deref_some, Prog.of_bind,
    Prog.eval_call (exec_entity o hup), Prog.eval_ret]

/-! ## The tables after `add_new` -/

section Tables

variable {h : Heap}

/-- The tables after `spfs_entity_dir_add_child`. -/
lemma lookup_add_child {parent child : Ptr}
    (hsan : ∀ name, h.name child = some name → spfs_sanitize_name name = name) (p : Ptr)
    (key : gstr) :
    (spfs_entity_dir_add_child h parent child).lookup p key =
      if p = parent ∧ h.name child = some key ∧ key ≠ [] ∧ h.children parent ≠ none ∧
        h.lookup parent key = none then some child else h.lookup p key := by
  unfold spfs_entity_dir_add_child
  rcases hname : h.name child with _ | name
  · rw [if_neg (by simp)]
  simp only [Option.some.injEq]
  rcases htable : h.children parent with _ | table
  · rw [if_pos Option.isNone_none, if_neg (by simp)]
  rw [if_neg (by simp)]
  by_cases hnil : name = []
  · rw [if_pos hnil, if_neg]
    rintro ⟨-, rfl, hne, -⟩
    exact hne hnil
  rw [if_neg hnil, spfs_entity_dir_has_child, spfs_entity_dir_get_child, hsan name hname]
  rcases hlookup : h.lookup parent name with _ | q
  · rw [if_neg (by simp), Heap.lookup_link_child htable hlookup]
    by_cases hhere : parent = p ∧ name = key
    · obtain ⟨rfl, rfl⟩ := hhere
      rw [if_pos ⟨rfl, rfl⟩, if_pos ⟨rfl, rfl, hnil, by simp, hlookup⟩]
    · rw [if_neg hhere, if_neg fun hand => hhere ⟨hand.1.symm, hand.2.1⟩]
  · rw [if_pos (by simp), if_neg]
    rintro ⟨-, rfl, -, -, hfree⟩
    cases hlookup.symm.trans hfree

/-- To add a child makes nothing a directory. -/
lemma children_add_child_eq_none_iff (parent child p : Ptr) :
    (spfs_entity_dir_add_child h parent child).children p = none ↔ h.children p = none := by
  rcases spfs_entity_dir_add_child_cases h parent child with heq | ⟨name, -, -, -, -, -, heq⟩
  · rw [heq]
  · rw [heq, children_link_child]
    split
    · rw [Option.map_eq_none_iff]
    · rfl

/-- Entries are put into the new entity only. -/
lemma lookup_add_entries {p₀ p : Ptr} {entries : List spfs_entity} (hnew : ∀ x ∈ entries, x.New)
    (hp : p ≠ p₀) (key : gstr) :
    (add_entries h p₀ entries).lookup p key = h.lookup p key := by
  induction entries generalizing h with
  | nil => rfl
  | cons x entries ih =>
    have hx := hnew x List.mem_cons_self
    rw [add_entries, List.foldl_cons]
    refine (ih fun y hy => hnew y (List.mem_cons_of_mem x hy)).trans ?_
    rw [lookup_add_child, if_neg fun hand => hp hand.1, Heap.lookup_alloc hx]
    intro name hname
    rw [Heap.name_alloc, if_pos rfl] at hname
    exact hx.sanitized name hname

/-- What was there keeps its name and its kind when entries are added. -/
lemma add_entries_of_lt {p₀ p : Ptr} (entries : List spfs_entity) (hp : p < h.fresh) :
    (add_entries h p₀ entries).name p = h.name p ∧
      ((add_entries h p₀ entries).children p = none ↔ h.children p = none) := by
  induction entries generalizing h with
  | nil => exact ⟨rfl, Iff.rfl⟩
  | cons x entries ih =>
    rw [add_entries, List.foldl_cons]
    have hp' : p < (spfs_entity_dir_add_child (h.alloc x) p₀ h.fresh).fresh := by
      rw [fresh_add_child, Heap.fresh_alloc]
      exact hp.trans (Nat.lt_succ_self _)
    obtain ⟨hname, hchildren⟩ := ih hp'
    refine ⟨hname.trans ?_, hchildren.trans ?_⟩
    · rw [name_add_child, Heap.name_alloc, if_neg hp.ne]
    · rw [children_add_child_eq_none_iff, Heap.children_alloc, if_neg hp.ne]

/-- The tables of the entities that were there before. -/
lemma lookup_add_new {dir p : Ptr} {e : spfs_entity} {entries : List spfs_entity} (he : e.New)
    (hentries : ∀ x ∈ entries, x.New) (hdir : dir < h.fresh) (hp : p < h.fresh) (key : gstr) :
    (add_new h dir e entries).lookup p key =
      if p = dir ∧ e.name = some key ∧ key ≠ [] ∧ h.children dir ≠ none ∧
        h.lookup dir key = none then some h.fresh else h.lookup p key := by
  have hself : h.fresh < (h.alloc e).fresh := by
    rw [Heap.fresh_alloc]
    exact Nat.lt_succ_self _
  have hname : (add_entries (h.alloc e) h.fresh entries).name h.fresh = e.name := by
    rw [(add_entries_of_lt entries hself).1, Heap.name_alloc, if_pos rfl]
  have hold : ∀ q < h.fresh, ∀ key, (add_entries (h.alloc e) h.fresh entries).lookup q key =
      h.lookup q key := by
    intro q hq key
    rw [lookup_add_entries hentries hq.ne, Heap.lookup_alloc he]
  have hchildren : (add_entries (h.alloc e) h.fresh entries).children dir = none ↔
      h.children dir = none := by
    rw [(add_entries_of_lt entries (hdir.trans hself)).2, Heap.children_alloc, if_neg hdir.ne]
  rw [add_new, lookup_add_child, hname, hold p hp, hold dir hdir]
  · simp only [Ne, hchildren]
  · intro name
    rw [hname]
    exact he.sanitized name

end Tables

/-! ## What stays -/

/-- What was there is there later. -/
lemma Heap.Grows.lt_fresh {h h' : Heap} (hg : h.Grows h') {p : Ptr} (hp : p < h.fresh) :
    p < h'.fresh := by
  obtain ⟨e, he⟩ := Heap.exists_get_of_lt hp
  obtain ⟨e', he', -⟩ := hg.get p e he
  exact Heap.lt_fresh_of_get he'

/-- The heap grows, and the links that are there keep their targets. -/
structure Mount.Keeps (s s' : Mount) : Prop extends s.Grows s' where
  target : ∀ p < s.heap.fresh, s'.heap.target p = s.heap.target p

namespace Mount.Keeps

/-- A state that stays as it is keeps its targets. -/
lemma refl (s : Mount) : s.Keeps s := ⟨.refl s, fun _ _ => rfl⟩

/-- What keeps its targets twice keeps them. -/
lemma trans {s s' s'' : Mount} (hk : s.Keeps s') (hk' : s'.Keeps s'') : s.Keeps s'' where
  toGrows := hk.toGrows.trans hk'.toGrows
  target p hp := (hk'.target p (hk.heap.lt_fresh hp)).trans (hk.target p hp)

/-- A new entity takes no target away. -/
lemma of_added {s : Mount} {h' : Heap} {dir : Option Ptr} {e : spfs_entity}
    {entries : List spfs_entity} (ha : Added s.heap h' dir e entries) :
    s.Keeps { s with heap := h' } where
  toGrows := ⟨ha.grows, List.Subset.refl _⟩
  target p hp := by
    obtain ⟨e, he⟩ := Heap.exists_get_of_lt hp
    obtain ⟨e', he', -, hold, -⟩ := ha.old he
    rw [Heap.target, Heap.target, he, he', Option.bind_some, Option.bind_some, hold]

end Mount.Keeps

/-- A new entity, and the tables afterwards. -/
lemma exec_add_new {s : Mount} {o : Spotify} (hw : s.Wf) {dir : Ptr} {e : spfs_entity}
    {entries : List spfs_entity} (hn : NewEntity s.heap dir e entries) :
    ∃ s', MountInstr.exec (.add_new dir e entries) o s = some (some s.heap.fresh, s') ∧ s'.Wf ∧
      s.Keeps s' ∧ (∃ e', s'.heap.get s.heap.fresh = some e' ∧ e.Alike e') ∧
      ∀ p < s.heap.fresh, ∀ key, s'.heap.lookup p key =
        if p = dir ∧ e.name = some key ∧ key ≠ [] ∧ s.heap.children dir ≠ none ∧
          s.heap.lookup dir key = none then some s.heap.fresh else s.heap.lookup p key := by
  have hi : s.Inv False := ⟨hw, False.elim⟩
  have ha := hn.added hw
  obtain ⟨e', he', halike, -⟩ := ha.self
  refine ⟨_, rfl, (inv_add_new hi hn False.elim).1.wf, .of_added ha, ⟨e', he', halike⟩, ?_⟩
  exact fun p hp key => lookup_add_new hn.new (fun x hx => (hn.holds x hx).new) hn.lt hp key

/-! ## Browse directories -/

/-- The `auxdata` of the entity at a pointer. -/
def Heap.auxdata (h : Heap) (p : Ptr) : Option Auxdata := (h.get p).bind spfs_entity.auxdata

/-- A directory keeps its `auxdata`. -/
lemma Heap.Grows.auxdata_of_readdir {h h' : Heap} (hg : h.Grows h') {p : Ptr} {f : SpfsReaddirFunc}
    (hp : h.readdir p = some f) (hf : f ≠ .search_readdir) : h'.auxdata p = h.auxdata p := by
  obtain ⟨e, he, hreaddir⟩ := Option.bind_eq_some_iff.mp hp
  obtain ⟨e', he', hee'⟩ := hg.get p e he
  rw [Heap.auxdata, Heap.auxdata, he, he']
  exact hee'.auxdata (by rw [hreaddir]; simpa using hf)

/-- A browse directory has no `readdir`. -/
lemma Heap.readdir_of_browses {h : Heap} {d : Ptr} {k : BrowseKind} {e : spfs_entity}
    (hd : h.browses d = some k) (he : h.get d = some e) : e.readdir = none := by
  rw [Heap.browses, he, Option.bind_some] at hd
  exact spfs_entity.readdir_of_browses hd

/-- The `auxdata` of a browse directory stays. -/
lemma Heap.Grows.auxdata_of_browses {h h' : Heap} (hg : h.Grows h') {d : Ptr} {k : BrowseKind}
    (hd : h.browses d = some k) : h'.auxdata d = h.auxdata d := by
  obtain ⟨e, he, -⟩ := Option.bind_eq_some_iff.mp hd
  obtain ⟨e', he', hee'⟩ := hg.get d e he
  rw [Heap.auxdata, Heap.auxdata, he, he']
  exact hee'.auxdata (by simp [Heap.readdir_of_browses hd he])

/-- What a look-up finds is there. -/
lemma lt_fresh_of_lookup {s : Mount} (hw : s.Wf) {dir p : Ptr} {name : gstr}
    (hp : s.heap.lookup dir name = some p) : p < s.heap.fresh := by
  obtain ⟨-, hname, -⟩ := hw.tree.entry dir name p hp
  obtain ⟨e, he, -⟩ := Option.bind_eq_some_iff.mp hname
  exact Heap.lt_fresh_of_get he

/-- The directory `d` was returned for a link: the entry of that name, where there is one, and else
a new directory, added unless its name is empty. -/
structure Opened (s s' : Mount) (k : BrowseKind) (linkstring : gstr) (auxdata : Auxdata)
    (d : Ptr) : Prop where
  wf : s'.Wf
  keeps : s.Keeps s'
  only : s' = { s with heap := s'.heap }
  browses : s'.heap.browses d = some k
  name : s'.heap.name d = some (spfs_sanitize_name linkstring)
  cases : (s.heap.lookup k.base (spfs_sanitize_name linkstring) = some d ∧ s' = s) ∨
    (s.heap.lookup k.base (spfs_sanitize_name linkstring) = none ∧ d = s.heap.fresh ∧
      s'.heap.auxdata d = some auxdata)
  lookup : ∀ p < s.heap.fresh, ∀ key, s'.heap.lookup p key =
    if p = k.base ∧ spfs_sanitize_name linkstring = key ∧ key ≠ [] ∧
      s.heap.lookup k.base key = none then some s.heap.fresh else s.heap.lookup p key

section Browse

variable {links : SpotifyLinks} {s s' : Mount} {o : Spotify} {k : BrowseKind} {linkstring : gstr}
  {auxdata : Auxdata} {d : Ptr}

/-- The directories of the browse directories are there. -/
lemma Mount.Wf.base_lt (hw : s.Wf) (k : BrowseKind) : k.base < s.heap.fresh :=
  Nat.lt_of_lt_of_le (by cases k <;> decide) hw.fresh_le

/-- And they are directories. -/
lemma Mount.Wf.children_base (hw : s.Wf) (k : BrowseKind) : s.heap.children k.base ≠ none := by
  have hdir : spfs_init_heap.children k.base ≠ none := by cases k <;> decide
  exact hw.init.children hdir

/-- The path of the directory of a kind leads to it in every state. -/
lemma Mount.Wf.find_base (hw : s.Wf) {path : gstr}
    (hpath : spfs_entity_find_path spfs_init_heap 0 path = some k.base) :
    spfs_entity_find_path s.heap 0 path = some k.base := by
  have hroot : spfs_init_heap.walk 0 [] = some 0 := rfl
  exact hw.init.find_path init_tree_placed.1 hroot hpath

/-- What is common to the three `create_.._browse_dir`. -/
lemma eval_create_browse_dir {path : gstr}
    {create : gstr → MountProg (spfs_entity × List spfs_entity)} {entries : List spfs_entity}
    (hw : s.Wf) (hpath : spfs_entity_find_path spfs_init_heap 0 path = some k.base)
    (hcreate : (create linkstring).eval MountInstr.exec o s =
      some ((browse_dir_create linkstring auxdata, entries), s))
    (hk : auxdata.kind = some k) (hentries : BrowseEntries k entries)
    (hruns : Runs False links (create_browse_dir path (some linkstring) create) s fun r s' =>
      ∀ d, r = some d → s'.heap.browses d = some k ∧
        ∃ linkstring', some linkstring = some linkstring' ∧
          s'.heap.name d = some (spfs_sanitize_name linkstring')) :
    ∃ d s', (create_browse_dir path (some linkstring) create).eval MountInstr.exec o s =
      some (some d, s') ∧ Opened s s' k linkstring auxdata d := by
  suffices hall : ∃ d s', (create_browse_dir path (some linkstring) create).eval MountInstr.exec o s
      = some (some d, s') ∧ s.Keeps s' ∧ s' = { s with heap := s'.heap } ∧
        ((s.heap.lookup k.base (spfs_sanitize_name linkstring) = some d ∧ s' = s) ∨
          (s.heap.lookup k.base (spfs_sanitize_name linkstring) = none ∧ d = s.heap.fresh ∧
            s'.heap.auxdata d = some auxdata)) ∧
        ∀ p < s.heap.fresh, ∀ key, s'.heap.lookup p key =
          if p = k.base ∧ spfs_sanitize_name linkstring = key ∧ key ≠ [] ∧
            s.heap.lookup k.base key = none then some s.heap.fresh else s.heap.lookup p key by
    obtain ⟨d, s', heval, hkeeps, honly, hcases, hlookup⟩ := hall
    obtain ⟨hw', -, hpost⟩ := hruns.eval hw heval
    obtain ⟨hbrowses, linkstring', hlink, hname⟩ := hpost d rfl
    obtain rfl := Option.some.inj hlink
    exact ⟨d, s', heval, hw', hkeeps, honly, hbrowses, hname, hcases, hlookup⟩
  unfold create_browse_dir
  simp only [Prog.of_bind]
  rw [Prog.eval_call (v := some 0) (by rw [MountInstr.exec, hw.tree.root]),
    Prog.eval_call (v := some k.base) (by
      rw [MountInstr.exec, Option.bind_some, hw.find_base hpath])]
  rw [deref_some]
  rw [Prog.eval_call (exec_has_child o linkstring (hw.children_base k))]
  rcases hfound : s.heap.lookup k.base (spfs_sanitize_name linkstring) with _ | d
  · have hhas : spfs_entity_dir_has_child s.heap k.base linkstring = false := by
      rw [spfs_entity_dir_has_child, spfs_entity_dir_get_child, hfound]
      rfl
    have hn : NewEntity s.heap k.base (browse_dir_create linkstring auxdata) entries :=
      newEntity_browse_dir hw hk hentries
    rw [hhas, if_neg (by simp), Prog.eval_bind_of_eq hcreate]
    refine ⟨s.heap.fresh, _, rfl, .of_added (hn.added hw), rfl, Or.inr ⟨rfl, rfl, ?_⟩, ?_⟩
    · obtain ⟨e', he', halike, -⟩ := (hn.added hw).self
      show Heap.auxdata (add_new s.heap k.base _ entries) s.heap.fresh = _
      rw [Heap.auxdata, he', Option.bind_some, halike.auxdata (by rintro ⟨⟩)]
      rfl
    · intro p hp key
      have hnews : ∀ x ∈ entries, x.New := fun x hx => (hn.holds x hx).new
      refine (lookup_add_new hn.new hnews (hw.base_lt k) hp key).trans ?_
      have hname : (browse_dir_create linkstring auxdata).name =
        some (spfs_sanitize_name linkstring) := rfl
      simp only [hname, Option.some.injEq, hw.children_base k, Ne, not_false_iff, true_and]
  · have hhas : spfs_entity_dir_has_child s.heap k.base linkstring = true := by
      rw [spfs_entity_dir_has_child, spfs_entity_dir_get_child, hfound]
      rfl
    rw [hhas, if_pos rfl]
    refine ⟨d, s, ?_, .refl s, rfl, Or.inl ⟨rfl, rfl⟩, ?_⟩
    · rw [Prog.eval_of (exec_get_child o linkstring (hw.children_base k)),
        spfs_entity_dir_get_child, hfound]
    · intro p _ key
      rw [if_neg]
      rintro ⟨-, rfl, -, hfree⟩
      cases hfound.symm.trans hfree

/-- Without a link there is no directory. -/
lemma eval_create_browse_dir_none {path : gstr}
    {create : gstr → MountProg (spfs_entity × List spfs_entity)} (hw : s.Wf)
    (hpath : spfs_entity_find_path spfs_init_heap 0 path = some k.base) :
    (create_browse_dir path none create).eval MountInstr.exec o s = some (none, s) := by
  unfold create_browse_dir
  simp only [Prog.of_bind]
  rw [Prog.eval_call (v := some 0) (by rw [MountInstr.exec, hw.tree.root]),
    Prog.eval_call (v := some k.base) (by
      rw [MountInstr.exec, Option.bind_some, hw.find_base hpath])]
  rfl

/-- The browse directory of a track with a link, alone. -/
lemma eval_create_track_browse_dir (hw : s.Wf) {track : sp_track}
    (hlink : links.track track = some linkstring) :
    ∃ d s', (create_track_browse_dir links track).eval MountInstr.exec o s = some (some d, s') ∧
      Opened s s' .track linkstring (.track track) d := by
  have hruns := @runs_create_track_browse_dir False links s track
  unfold create_track_browse_dir at hruns ⊢
  rw [hlink] at hruns ⊢
  exact eval_create_browse_dir hw (by decide) rfl rfl (browseEntries_track track) hruns

/-- The browse directory of an artist with a link, alone. -/
lemma eval_create_artist_browse_dir (hw : s.Wf) {artist : sp_artist}
    (hlink : links.artist artist = some linkstring) :
    ∃ d s', (create_artist_browse_dir links artist).eval MountInstr.exec o s = some (some d, s') ∧
      Opened s s' .artist linkstring (.artistbrowse (o.artistbrowse_create artist)) d := by
  have hruns := @runs_create_artist_browse_dir False links s artist
  unfold create_artist_browse_dir at hruns ⊢
  rw [hlink] at hruns ⊢
  exact eval_create_browse_dir hw (by decide) rfl rfl browseEntries_artist hruns

/-- The browse directory of an album with a link, alone. -/
lemma eval_create_album_browse_dir (hw : s.Wf) {album : sp_album}
    (hlink : links.album album = some linkstring) :
    ∃ d s', (create_album_browse_dir links album).eval MountInstr.exec o s = some (some d, s') ∧
      Opened s s' .album linkstring (.album album) d := by
  have hruns := @runs_create_album_browse_dir False links s album
  unfold create_album_browse_dir at hruns ⊢
  rw [hlink] at hruns ⊢
  exact eval_create_browse_dir hw (by decide) rfl rfl browseEntries_album hruns

/-- A directory whose name is not empty is in the directory of its kind. -/
lemma Opened.here (hd : Opened s s' k linkstring auxdata d) (hw : s.Wf)
    (hnil : spfs_sanitize_name linkstring ≠ []) :
    s'.heap.lookup k.base (spfs_sanitize_name linkstring) = some d := by
  rw [hd.lookup k.base (hw.base_lt k)]
  rcases hd.cases with ⟨hold, -⟩ | ⟨hfree, rfl, -⟩
  · rw [if_neg, hold]
    rintro ⟨-, -, -, hfree⟩
    cases hold.symm.trans hfree
  · rw [if_pos ⟨rfl, rfl, hnil, hfree⟩]

/-- Other tables are as they were. -/
lemma Opened.lookup_of_ne (hd : Opened s s' k linkstring auxdata d) {p : Ptr}
    (hp : p < s.heap.fresh) (hne : p ≠ k.base) (key : gstr) :
    s'.heap.lookup p key = s.heap.lookup p key := by
  rw [hd.lookup p hp, if_neg fun hand => hne hand.1]

/-- A directory with an empty name is in none. -/
lemma Opened.orphan (hd : Opened s s' k linkstring auxdata d)
    (hnil : spfs_sanitize_name linkstring = []) : s'.heap.parent d = none := by
  rcases hparent : s'.heap.parent d with _ | p
  · rfl
  · obtain ⟨-, name, hname, hlookup⟩ := hd.wf.tree.child d p hparent
    have heq : name = [] := by
      rw [← hnil]
      exact Option.some.inj (hname.symm.trans hd.name)
    exact absurd heq (hd.wf.tree.entry p name d hlookup).1

end Browse

/-- The place of a directory that has its place through its kind. -/
lemma Mount.Wf.place_of_home {s : Mount} (hw : s.Wf) {f : SpfsReaddirFunc} {p b : Ptr}
    (hp : s.heap.readdir p = some f) (hhome : f.home = some b)
    (hplace : spfs_init_heap.walk 0 f.place = some b) (hin : ∃ cs, s.heap.walk 0 cs = some p) :
    s.heap.parent p = some b ∧ ∃ c, s.heap.walk 0 (f.place ++ [c]) = some p := by
  obtain ⟨cs, hcs⟩ := hin
  obtain ⟨hparent, c, rfl⟩ := hw.placed.place_of_home hw.tree hw.init hcs hp hhome hplace
  exact ⟨hparent, c, hcs⟩

/-- A link is a Spotify URI, and it is in a buffer of 1024 bytes. -/
def IsLink (link : gstr) : Prop := "spotify:".toList <+: link ∧ link.length < 1024

namespace IsLink

variable {link : gstr}

/-- The colon keeps the name of the directory apart from all other names. -/
lemma ne_of_colon (hl : IsLink link) {name : gstr} (hname : ':' ∉ name) :
    spfs_sanitize_name link ≠ name := by
  rintro rfl
  exact hname (mem_sanitize_name rfl (by decide) (hl.1.subset (by decide)))

/-- Of a link something is left when it is sanitised. -/
lemma ne_nil (hl : IsLink link) : spfs_sanitize_name link ≠ [] := hl.ne_of_colon (by decide)

/-- A sanitised link is neither `.` nor `..`. -/
lemma ne_dots (hl : IsLink link) :
    spfs_sanitize_name link ≠ ".".toList ∧ spfs_sanitize_name link ≠ "..".toList :=
  ⟨hl.ne_of_colon (by decide), hl.ne_of_colon (by decide)⟩

/-- A slash becomes three bytes at most. -/
lemma length_le (hl : IsLink link) : (spfs_sanitize_name link).length ≤ 3069 := by
  have := length_sanitize_name_le link
  have := hl.2
  omega

end IsLink

/-! ## Links -/

/-- A new link was added to the directory `dir`, with the relative path to `dst` as its target where
there is one. -/
structure Linked (s s' : Mount) (dir : Ptr) (name : gstr) (dst : Option Ptr) : Prop where
  wf : s'.Wf
  keeps : s.Keeps s'
  lookup : ∀ p < s.heap.fresh, ∀ key, s'.heap.lookup p key =
    if p = dir ∧ key = name then some s.heap.fresh else s.heap.lookup p key
  null : dst = none → s'.heap.target s.heap.fresh = some name
  leads : ∀ q, dst = some q → s.heap.Apart dir q →
    ∃ t, s'.heap.target s.heap.fresh = some t ∧ s'.heap.follow_link dir t = some q

section Link

variable {links : SpotifyLinks} {s : Mount} {o : Spotify} {dir : Ptr} {f : SpfsReaddirFunc}

/-- What has a `readdir` is a directory. -/
lemma children_of_readdir {h : Heap} {p : Ptr} (hp : h.readdir p = some f) :
    h.children p ≠ none := by
  obtain ⟨e, he, hreaddir⟩ := Option.bind_eq_some_iff.mp hp
  rw [Heap.children, he, Option.bind_some]
  rcases e with ⟨_, _, _, _, _ | _ | _⟩
  · cases hreaddir
  · exact Option.some_ne_none _
  · cases hreaddir

/-- A directory that is listed is asked for a child. -/
lemma eval_has_child {α : Type} (hdir : s.heap.readdir dir = some f) (name : gstr)
    (k : Bool → MountProg α) :
    (Prog.call (.has_child dir name) k).eval MountInstr.exec o s =
      (k (s.heap.lookup dir (spfs_sanitize_name name)).isSome).eval MountInstr.exec o s :=
  Prog.eval_call (exec_has_child o name (children_of_readdir hdir)) k

/-- Setting a target changes no look-up. -/
lemma lookup_link_set_target (h : Heap) (link p : Ptr) (target : Option gstr) (key : gstr) :
    (spfs_entity_link_set_target h link target).lookup p key = h.lookup p key := by
  rw [link_set_target_eq]
  apply Heap.lookup_modify
  rintro ⟨_, _, _, _, _ | _ | _⟩ <;> rcases target with _ | target <;> rfl

/-- Setting a target is growth. -/
lemma grows_link_set_target (h : Heap) (link : Ptr) (target : Option gstr) :
    h.Grows (spfs_entity_link_set_target h link target) := by
  rw [link_set_target_eq]
  apply (Heap.Grows.refl h).modify
  · rintro ⟨_, _, _, _, _ | _ | _⟩ - <;> rcases target with _ | target <;>
      exact ⟨⟨rfl, rfl, fun _ => rfl⟩, fun _ h => h, fun h _ => h⟩
  · rintro ⟨_, _, _, _, _ | _ | _⟩ <;> rcases target with _ | target <;> rfl

/-- A link is created where there is no entry of its name. -/
lemma eval_create_link (hw : s.Wf) {k : BrowseKind} (hdir : s.Holds dir f) (hf : f.links = some k)
    {linkname : gstr} (hnil : spfs_sanitize_name linkname ≠ [])
    (hfree : s.heap.lookup dir (spfs_sanitize_name linkname) = none) (goal : Option Goal)
    (dst : Option Ptr) :
    ∃ s', (create_link dir linkname goal dst).eval MountInstr.exec o s = some ((), s') ∧
      Linked s s' dir (spfs_sanitize_name linkname) dst := by
  have hruns : Runs False ⟨fun _ => none, fun _ => none, fun _ => none⟩
      (create_link dir linkname goal dst) s fun _ _ => True :=
    runs_create_link ⟨hw, False.elim⟩ hdir hf linkname False.elim
  have hn := newEntity_link hw hdir linkname
  have ha := hn.added hw
  obtain ⟨s', heval, hheap⟩ : ∃ s', (create_link dir linkname goal dst).eval MountInstr.exec o s =
      some ((), s') ∧ s'.heap = spfs_entity_link_set_target
        (add_new s.heap dir (spfs_entity_link_create linkname) []) s.heap.fresh
        (relpath (add_new s.heap dir (spfs_entity_link_create linkname) []) dir dst) := by
    unfold create_link
    simp only [Prog.of_bind]
    rw [Prog.eval_call (v := s.heap.fresh) rfl, Prog.eval_call rfl]
    exact ⟨_, Prog.eval_of rfl, rfl⟩
  obtain ⟨hw', hg, -⟩ := hruns.eval hw heval
  have hname : (spfs_entity_link_create linkname).name = some (spfs_sanitize_name linkname) := rfl
  have htables : ∀ p < s.heap.fresh, ∀ key,
      (add_new s.heap dir (spfs_entity_link_create linkname) []).lookup p key =
        if p = dir ∧ key = spfs_sanitize_name linkname then some s.heap.fresh
        else s.heap.lookup p key := by
    intro p hp key
    rw [lookup_add_new hn.new (by simp) hn.lt hp, hname]
    refine if_congr ⟨fun hand => ⟨hand.1, (Option.some.inj hand.2.1).symm⟩, ?_⟩ rfl rfl
    rintro ⟨rfl, rfl⟩
    exact ⟨rfl, rfl, hnil, children_of_readdir hdir.readdir, hfree⟩
  revert hheap htables
  generalize add_new s.heap dir (spfs_entity_link_create linkname) [] = h₁ at ha
  intro hheap htables
  have hnew : h₁.target s.heap.fresh = some (spfs_sanitize_name linkname) := by
    obtain ⟨e', he', -, htarget, -⟩ := ha.self
    rw [Heap.target, he', Option.bind_some, htarget]
    rfl
  have htarget : s'.heap.target s.heap.fresh =
      some ((relpath h₁ dir dst).getD (spfs_sanitize_name linkname)) := by
    rw [hheap, link_set_target_eq, target_modify_set_target, if_pos rfl, hnew]
    rfl
  refine ⟨s', heval, hw', ⟨hg, ?_⟩, ?_, ?_, ?_⟩
  · intro p hp
    rw [hheap, link_set_target_eq, target_modify_set_target, if_neg hp.ne']
    exact (Mount.Keeps.of_added ha).target p hp
  · intro p hp key
    rw [hheap, lookup_link_set_target, htables p hp]
  · rintro rfl
    have hnone : relpath h₁ dir none = none := by
      rw [relpath]
      rcases spfs_entity_get_full_path h₁ dir with _ | path
      · rfl
      · rfl
    rw [htarget, hnone, Option.getD_none]
  · rintro q rfl hap
    obtain ⟨r, hr, hfollow⟩ := ha.tree.follow_relpath_cut (hap.mono ha.grows)
    refine ⟨r, by rw [htarget, hr, Option.getD_some], ?_⟩
    have hgrows : h₁.Grows s'.heap := by
      rw [hheap]
      exact grows_link_set_target h₁ s.heap.fresh (relpath h₁ dir (some q))
    exact hgrows.follow_link hfollow

end Link

end Spotifile
