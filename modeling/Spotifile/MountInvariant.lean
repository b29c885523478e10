import Spotifile.Placed

/-!
# What every instruction keeps

`Mount.Wf` holds in every state that the mounted file system reaches. `Mount.Good` holds as long
as two things do not happen: a search directory is added to `/search` after a relative path was
computed from it, and a relative path is computed to an entity that has no place in the tree
(`MountInstr.InOrder`). It says that a link that has a place leads to what it was created for.

`MountInstr.Pre` is what an operation has to see to before an instruction; `exec_inv` is the step
lemma: an instruction under its precondition keeps the invariants and makes the heap grow. Both
invariants are proved at once, the second under the proposition `strict`.
-/

namespace Spotifile

open Lib

/-! ## The invariants -/

namespace Mount

/-- What holds in every state. -/
structure Wf (s : Mount) : Prop where
  tree : s.heap.Tree
  placed : s.heap.Placed
  init : spfs_init_heap.Grows s.heap
  fixed : ∀ p e, s.heap.get p = some e → e.fixed → p < 10
  wav : ∀ d, s.heap.browses d = some .track → s.heap.lookup d "track.wav".toList ≠ none
  searches : ∀ c ∈ s.searches, s.heap.readdir c.2 = some .search_readdir
  goals : ∀ g ∈ s.goals, (s.heap.target g.1).isSome
  early : ∀ d ∈ s.early, s.heap.readdir d = some .search_readdir

/-- A link in the directory `dir` with this target leads to the goal. -/
def Leads (s : Mount) (dir : Ptr) (target : Option gstr) (goal : Goal) : Prop :=
  ∃ t q, target = some t ∧ goal.entity s.heap = some q ∧ s.heap.follow_link dir t = some q

/-- What holds while everything is in order. -/
structure Good (s : Mount) : Prop where
  normal : ∀ p name, s.heap.name p = some name → name ≠ ".".toList ∧ name ≠ "..".toList
  early : ∀ d ∈ s.early, s.heap.parent d = none
  links : ∀ link goal, s.goals.lookup link = some goal → ∀ dir, s.heap.parent link = some dir →
    dir ∈ s.early ∨ s.Leads dir (s.heap.target link) goal

/-- What one thread relies on the others to do. -/
structure Grows (s s' : Mount) : Prop where
  heap : s.heap.Grows s'.heap
  early : s.early ⊆ s'.early

/-- Both invariants, the second if `strict`. -/
structure Inv (strict : Prop) (s : Mount) : Prop where
  wf : s.Wf
  good : strict → s.Good

namespace Grows

/-- A state that stays as it is has grown. -/
lemma refl (s : Mount) : s.Grows s := ⟨.refl s.heap, List.Subset.refl s.early⟩

/-- A state that has grown twice has grown. -/
lemma trans {s s' s'' : Mount} (hg : s.Grows s') (hg' : s'.Grows s'') : s.Grows s'' :=
  ⟨hg.heap.trans hg'.heap, List.Subset.trans hg.early hg'.early⟩

end Grows

/-- What is in the directory of a kind is of that kind. -/
lemma Wf.browses_of_lookup {s : Mount} (hw : s.Wf) {k : BrowseKind} {key : gstr} {d : Ptr}
    (hd : s.heap.lookup k.base key = some d) : s.heap.browses d = some k := by
  obtain ⟨-, -, hparent⟩ := hw.tree.entry _ _ _ hd
  obtain ⟨e, he, hep⟩ := Option.bind_eq_some_iff.mp hparent
  rw [Heap.browses, he, Option.bind_some]
  exact ((hw.placed d e _ he hep).browse k).mpr rfl

/-- The `track.wav` in the browse directory of a track, as `spfs_entity_find_path` finds it. -/
lemma Wf.find_track_wav {s : Mount} (hw : s.Wf) {d : Ptr}
    (hd : s.heap.browses d = some .track) {name : gstr} (hname : s.heap.name d = some name)
    (hne : name ≠ "track.wav".toList) :
    ∃ q, s.heap.lookup d "track.wav".toList = some q ∧
      spfs_entity_find_path s.heap d "track.wav".toList = some q := by
  obtain ⟨q, hq⟩ := Option.ne_none_iff_exists'.mp (hw.wav d hd)
  refine ⟨q, hq, ?_⟩
  have hcomps : components ("track.wav".toList.splitOn '/') = ["track.wav".toList] := by decide
  rw [spfs_entity_find_path_eq (by decide) (by decide), hcomps]
  show s.heap.find_last d "track.wav".toList = some q
  rw [Heap.find_last, if_neg, hq]
  rw [hname]
  exact fun heq => hne (Option.some.inj heq)

/-- A target that leads to its goal goes on to do so. -/
lemma Leads.mono {s s' : Mount} {dir : Ptr} {target : Option gstr} {goal : Goal}
    (hg : s.heap.Grows s'.heap) (h : s.Leads dir target goal) : s'.Leads dir target goal := by
  obtain ⟨t, q, ht, hgoal, hfollow⟩ := h
  refine ⟨t, q, ht, ?_, hg.follow_link hfollow⟩
  rcases goal with dir | dir
  · exact hgoal
  · exact hg.lookup dir _ q hgoal

/-! ## Growth and the invariants -/

/-- The entities of `spfs_init` are always there. -/
lemma Wf.fresh_le {s : Mount} (hw : s.Wf) : 10 ≤ s.heap.fresh := by
  obtain ⟨e, he, -⟩ := hw.init.get 9 _ rfl
  exact Heap.lt_fresh_of_get he

/-- A directory with a `readdir` is none of those in which the browse directories are. -/
lemma Wf.ne_base {s : Mount} (hw : s.Wf) {p : Ptr} {f : SpfsReaddirFunc}
    (hp : s.heap.readdir p = some f) (k : BrowseKind) : p ≠ k.base := by
  rintro rfl
  rw [hw.init.alike.readdir_eq (by cases k <;> decide)] at hp
  cases k <;> cases hp

/-- A state that has grown is well formed if what is new in it keeps the rules. -/
lemma Wf.of_grows {s s' : Mount} (hw : s.Wf) (htree : s'.heap.Tree) (hplaced : s'.heap.Placed)
    (hg : s.heap.Grows s'.heap)
    (hnew : ∀ p e', s'.heap.get p = some e' → p < s.heap.fresh ∨ (e'.fixed = false ∧
      (e'.browses = some .track → s'.heap.lookup p "track.wav".toList ≠ none)))
    (hsearches : ∀ c ∈ s'.searches, c ∈ s.searches ∨ s'.heap.readdir c.2 = some .search_readdir)
    (hgoals : ∀ g ∈ s'.goals, g ∈ s.goals ∨ (s'.heap.target g.1).isSome)
    (hearly : ∀ d ∈ s'.early, d ∈ s.early ∨ s'.heap.readdir d = some .search_readdir) : s'.Wf where
  tree := htree
  placed := hplaced
  init := hw.init.trans hg
  fixed := by
    intro p e' he' hfixed
    rcases hnew p e' he' with hlt | ⟨hnot, -⟩
    · obtain ⟨e, he, halike⟩ := hg.alike.of_get hlt he'
      exact hw.fixed p e he (halike.fixed ▸ hfixed)
    · rw [hnot] at hfixed
      cases hfixed
  wav := by
    intro d hd
    obtain ⟨e', he', hbrowses⟩ := Option.bind_eq_some_iff.mp hd
    rcases hnew d e' he' with hlt | ⟨-, hwav⟩
    · rw [hg.alike.browses_eq hlt] at hd
      obtain ⟨q, hq⟩ := Option.ne_none_iff_exists'.mp (hw.wav d hd)
      rw [hg.lookup d _ q hq]
      exact Option.some_ne_none q
    · exact hwav hbrowses
  searches := by
    intro c hc
    exact (hsearches c hc).elim (fun hold => hg.readdir (hw.searches c hold)) id
  goals := by
    intro g hmem
    exact (hgoals g hmem).elim (fun hold => hg.alike.target_isSome (hw.goals g hold)) id
  early := by
    intro d hd
    exact (hearly d hd).elim (fun hold => hg.readdir (hw.early d hold)) id

/-- The links of a state lead on where they led. -/
lemma Good.links_of_grows {s s' : Mount} (hs : s.Good) (hw : s.Wf) (hg : s.Grows s')
    (htarget : ∀ link, (s.heap.target link).isSome → s'.heap.target link = s.heap.target link)
    {link : Ptr} {goal : Goal} (hgoal : s.goals.lookup link = some goal) {dir : Ptr}
    (hdir : s'.heap.parent link = some dir) :
    dir ∈ s'.early ∨ s'.Leads dir (s'.heap.target link) goal := by
  obtain ⟨l₁, l₂, hgoals, -⟩ := List.lookup_eq_some_iff.mp hgoal
  have hlink : (s.heap.target link).isSome := hw.goals (link, goal) (by simp [hgoals])
  have hold := hg.heap.parent_of_link hlink hdir
  rw [htarget link hlink]
  exact (hs.links link goal hgoal dir hold).imp (fun hd => hg.early hd) (.mono hg.heap)

end Mount

/-! ## Conditions on the instructions -/

/-- What is assumed of names and paths: no name is `.` or `..`, and full paths fit in
`PATH_MAX`. -/
def MountInstr.Assumed {γ : Type} : MountInstr γ → Mount → Prop
  | .add_new _ e _, _ => ∀ name ∈ e.name, name ≠ ".".toList ∧ name ≠ "..".toList
  | .dir_create name _, _ =>
    spfs_sanitize_name name ≠ ".".toList ∧ spfs_sanitize_name name ≠ "..".toList
  | .relpath src dst, s =>
    s.heap.path_length src < PATH_MAX ∧ ∀ d ∈ dst, s.heap.path_length d < PATH_MAX
  | _, _ => True

/-- A directory is not added to its parent after a relative path was computed from it, unless its
name is empty or taken there; a relative path from a directory with a parent leads to an entity
that is in the tree. -/
def MountInstr.InOrder {γ : Type} : MountInstr γ → Mount → Prop
  | .add_child parent child, s =>
    child ∈ s.early → ∀ name ∈ s.heap.name child,
      name = [] ∨ spfs_entity_dir_has_child s.heap parent name
  | .relpath src (some dst), s => s.heap.parent src ≠ none → s.heap.Attached dst
  | _, _ => True

instance {γ : Type} (i : MountInstr γ) (s : Mount) : Decidable (i.Assumed s) := by
  cases i <;> unfold MountInstr.Assumed <;> infer_instance

instance {γ : Type} (i : MountInstr γ) (s : Mount) : Decidable (i.InOrder s) := by
  rcases i with _ | _ | _ | _ | _ | _ | _ | _ | _ | ⟨_, _ | _⟩ | _ | _ | _ | _ | _ | _ | _ | _ | _ |
    _ | _ | _ | _ | _ | _ | _ | _ <;> unfold MountInstr.InOrder <;> infer_instance

/-- What a new entity and its entries have to be for the directory `dir`. -/
structure NewEntity (h : Heap) (dir : Ptr) (e : spfs_entity) (entries : List spfs_entity) :
    Prop where
  new : e.New
  holds : ∀ x ∈ entries, e.MayHold x
  isDir : entries ≠ [] → e.e.children ≠ none
  music : e.readdir ≠ some .playlist_dir_music_readdir ∨ entries = []
  lt : dir < h.fresh
  rule : ∀ h', h.Alike h' → ParentRule h' e dir
  fixed : e.fixed = false ∧ ∀ x ∈ entries, x.fixed = false
  wav : e.browses = some .track → ∃ x ∈ entries, x.name = some "track.wav".toList
  names : ∀ x ∈ entries, ∀ name, x.name = some name → name ≠ ".".toList ∧ name ≠ "..".toList

/-- A directory that may hold links: its `readdir` is one that makes links, and it has its place in
the tree unless it is a search directory. -/
structure Mount.Holds (s : Mount) (dir : Ptr) (f : SpfsReaddirFunc) : Prop where
  readdir : s.heap.readdir dir = some f
  place : f ≠ .search_readdir → ∃ cs, s.heap.walk 0 cs = some dir

/-- What has to hold before an instruction. -/
def MountInstr.Pre (strict : Prop) {γ : Type} : MountInstr γ → Mount → Prop
  | .add_new dir e entries, s => NewEntity s.heap dir e entries
  | .dir_create _ ops, _ => ops = ⟨some .search_readdir, none⟩
  | .add_child parent child, s => parent = 6 ∧ s.heap.readdir child = some .search_readdir
  | .relpath src _, s => ∃ f, s.Holds src f
  | .link_set_target link target goal, s => (s.heap.target link).isSome ∧
    (strict → (goal = none → target = none) ∧ ∀ g ∈ goal, ∀ dir, s.heap.parent link = some dir →
      dir ∈ s.early ∨ s.Leads dir target g)
  | .search_create _ e, s => s.heap.readdir e = some .search_readdir
  | .set_auxdata e _, s => s.heap.readdir e = some .search_readdir
  | _, _ => True

/-! ## The step lemma, instruction by instruction -/

section Steps

variable {strict : Prop} {s : Mount}

/-- What `NewEntity` asks for is enough for `Added`. -/
lemma NewEntity.added {dir : Ptr} {e : spfs_entity} {entries : List spfs_entity} (hw : s.Wf)
    (hn : NewEntity s.heap dir e entries) :
    Added s.heap (add_new s.heap dir e entries) (some dir) e entries :=
  added_add_new hw.tree hw.placed hn.new hn.holds hn.isDir hn.music
    (ne_base (Or.inr (Nat.lt_of_lt_of_le (by decide) hw.fresh_le))) hn.lt hn.rule

/-- New entities. -/
lemma inv_of_added {h' : Heap} {dir : Option Ptr} {e : spfs_entity} {entries : List spfs_entity}
    (hi : s.Inv strict) (ha : Added s.heap h' dir e entries)
    (hfixed : e.fixed = false ∧ ∀ x ∈ entries, x.fixed = false)
    (hwav : e.browses = some .track → ∃ x ∈ entries, x.name = some "track.wav".toList)
    (hbrowses : ∀ x ∈ entries, x.browses = none)
    (hname : strict → ∀ name ∈ e.name, name ≠ ".".toList ∧ name ≠ "..".toList)
    (hnames : ∀ x ∈ entries, ∀ name, x.name = some name →
      name ≠ ".".toList ∧ name ≠ "..".toList) :
    Mount.Inv strict { s with heap := h' } ∧ s.Grows { s with heap := h' } := by
  have hg : s.Grows { s with heap := h' } := ⟨ha.grows, List.Subset.refl _⟩
  refine ⟨⟨hi.wf.of_grows ha.tree ha.placed ha.grows ?_ (fun c hc => Or.inl hc)
    (fun g hmem => Or.inl hmem) (fun d hd => Or.inl hd), fun hs => ⟨?_, ?_, ?_⟩⟩, hg⟩
  · intro p e' he'
    rcases ha.origin p e' he' with ⟨e₀, he₀, -⟩ | ⟨rfl, halike⟩ | ⟨x, hx, halike, -⟩
    · exact Or.inl (Heap.lt_fresh_of_get he₀)
    · refine Or.inr ⟨by rw [halike.fixed, hfixed.1], fun htrack => ?_⟩
      obtain ⟨x, hx, hxname⟩ := hwav (halike.browses ▸ htrack)
      exact ha.entry x hx _ hxname (by decide)
    · refine Or.inr ⟨by rw [halike.fixed, hfixed.2 x hx], fun htrack => ?_⟩
      rw [halike.browses, hbrowses x hx] at htrack
      cases htrack
  · intro p name hp
    obtain ⟨e', he', hpname⟩ := Option.bind_eq_some_iff.mp hp
    rcases ha.origin p e' he' with ⟨e₀, he₀, halike, -⟩ | ⟨-, halike⟩ | ⟨x, hx, halike, -⟩
    · apply (hi.good hs).normal p name
      rw [Heap.name, he₀, Option.bind_some, ← halike.name, hpname]
    · exact hname hs name (by rw [← halike.name, hpname]; rfl)
    · exact hnames x hx name (by rw [← halike.name, hpname])
  · intro d hd
    have horphan := (hi.good hs).early d hd
    obtain ⟨e₀, he₀, -⟩ := Option.bind_eq_some_iff.mp (hi.wf.early d hd)
    obtain ⟨e', he', -, -, hparent⟩ := ha.old he₀
    show h'.parent d = none
    rw [Heap.parent, he', Option.bind_some, hparent]
    simpa [Heap.parent, he₀] using horphan
  · intro link goal hgoal dir hdir
    refine (hi.good hs).links_of_grows hi.wf hg ?_ hgoal hdir
    intro link hlink
    obtain ⟨e₀, -, he₀, -⟩ := Heap.exists_get_of_target hlink
    obtain ⟨e', he', -, htgt, -⟩ := ha.old he₀
    show h'.target link = s.heap.target link
    rw [Heap.target, Heap.target, he', he₀, Option.bind_some, Option.bind_some, htgt]

/-- A write to one entity that leaves names, parents, kinds and tables alone. -/
lemma inv_modify {p : Ptr} {f : spfs_entity → spfs_entity} (hi : s.Inv strict)
    (hf : ∀ e, s.heap.get p = some e → e.Grows (f e)) (hname : ∀ e, (f e).name = e.name)
    (hparent : ∀ e, (f e).parent = e.parent) (hchildren : ∀ e, (f e).e.children = e.e.children)
    (goals : List (Ptr × Goal)) (hgoals : ∀ g ∈ goals, g ∈ s.goals ∨ (s.heap.target g.1).isSome)
    (hlinks : strict → ∀ link goal, goals.lookup link = some goal →
      ∀ dir, s.heap.parent link = some dir → dir ∈ s.early ∨
        s.Leads dir ((s.heap.modify p f).target link) goal) :
    Mount.Inv strict { s with heap := s.heap.modify p f, goals := goals } ∧
      s.Grows { s with heap := s.heap.modify p f, goals := goals } := by
  have hg : s.heap.Grows (s.heap.modify p f) := (Heap.Grows.refl s.heap).modify p hf hchildren
  have hparents : ∀ q, (s.heap.modify p f).parent q = s.heap.parent q :=
    fun q => Heap.parent_modify s.heap p q hparent
  refine ⟨⟨hi.wf.of_grows (hi.wf.tree.modify p hname hparent hchildren) ?_ hg ?_
    (fun c hc => Or.inl hc) ?_ (fun d hd => Or.inl hd), fun hs => ⟨?_, ?_, ?_⟩⟩,
    hg, List.Subset.refl _⟩
  · apply hi.wf.placed.of_alike hi.wf.tree hg.alike
    intro q e' r he' hr
    left
    rw [← hparents q, Heap.parent, he']
    exact hr
  · intro q e' he'
    left
    simpa using Heap.lt_fresh_of_get he'
  · intro g hmem
    exact (hgoals g hmem).imp id fun hlink => hg.alike.target_isSome hlink
  · intro q name hq
    apply (hi.good hs).normal q name
    rw [← Heap.name_modify s.heap p q hname]
    exact hq
  · intro d hd
    exact (hparents d).trans ((hi.good hs).early d hd)
  · intro link goal hgoal dir hdir
    have hdir : s.heap.parent link = some dir := (hparents link).symm.trans hdir
    exact (hlinks hs link goal hgoal dir hdir).imp id (.mono hg)

/-- The invariant is kept when an entity is created in a directory. -/
lemma inv_add_new {dir : Ptr} {e : spfs_entity} {entries : List spfs_entity} (hi : s.Inv strict)
    (hn : NewEntity s.heap dir e entries)
    (hname : strict → ∀ name ∈ e.name, name ≠ ".".toList ∧ name ≠ "..".toList) :
    Mount.Inv strict { s with heap := add_new s.heap dir e entries } ∧
      s.Grows { s with heap := add_new s.heap dir e entries } :=
  inv_of_added hi (hn.added hi.wf) hn.fixed hn.wav (fun x hx => (hn.holds x hx).browses) hname
    hn.names

/-- The invariant is kept when the directory of a search is created. -/
lemma inv_dir_create {name : gstr} (hi : s.Inv strict)
    (hname : strict →
      spfs_sanitize_name name ≠ ".".toList ∧ spfs_sanitize_name name ≠ "..".toList) :
    let h' := s.heap.alloc (spfs_entity_dir_create (some name) ⟨some .search_readdir, none⟩)
    Mount.Inv strict { s with heap := h' } ∧ s.Grows { s with heap := h' } := by
  refine inv_of_added hi (.alloc hi.wf.tree hi.wf.placed (spfs_entity_dir_create_new _ _))
    ⟨rfl, by simp⟩ (by rintro ⟨⟩) (by simp) ?_ (by simp)
  intro hs san hsan
  obtain rfl : spfs_sanitize_name name = san := Option.some.inj hsan
  exact hname hs

/-- A child with an empty name or with one that is taken is not added. -/
lemma add_child_refused {h : Heap} {parent child : Ptr}
    (hname : ∀ name ∈ h.name child, name = [] ∨ spfs_entity_dir_has_child h parent name) :
    spfs_entity_dir_add_child h parent child = h := by
  rcases spfs_entity_dir_add_child_cases h parent child with
    heq | ⟨name, -, hchild, -, hnil, hhas, -⟩
  · exact heq
  · rcases hname name hchild with hempty | htaken
    · exact absurd hempty hnil
    · rw [hhas] at htaken
      cases htaken

/-- A child is not added a second time. -/
lemma add_child_again {h : Heap} (hh : h.Tree) {parent child : Ptr}
    (hparent : h.parent child = some parent) : spfs_entity_dir_add_child h parent child = h := by
  obtain ⟨-, name, hname, hlookup⟩ := hh.child child parent hparent
  refine add_child_refused fun name' hname' => Or.inr ?_
  obtain rfl : name = name' := Option.some.inj (hname.symm.trans hname')
  rw [hh.has_child_eq hname, hlookup]
  rfl

/-- Search directories are not among the entities of `spfs_init`. -/
lemma Mount.Wf.lt_of_search (hw : s.Wf) {p : Ptr}
    (hp : s.heap.readdir p = some .search_readdir) : 6 < p := by
  by_contra hle
  have hinit : ∀ q < 10, spfs_init_heap.readdir q ≠ some .search_readdir := by decide
  have hlt : p < 10 := (Nat.not_lt.mp hle).trans_lt (by decide)
  rw [hw.init.alike.readdir_eq (Nat.lt_of_lt_of_le hlt (by decide))] at hp
  exact hinit p hlt hp

/-- The rule for a search directory in `/search`. -/
lemma parentRule_search (hw : s.Wf) {e : spfs_entity}
    (he : e.readdir = some .search_readdir) : ParentRule s.heap e 6 where
  home f q hf hq := by
    obtain rfl : .search_readdir = f := Option.some.inj (he.symm.trans hf)
    exact Option.some.inj hq
  within f k hf hk := by
    obtain rfl : .search_readdir = f := Option.some.inj (he.symm.trans hf)
    cases hk
  browse k := by
    refine iff_of_false (fun hk => ?_) (ne_base (by decide) k)
    rw [spfs_entity.readdir_of_browses hk] at he
    cases he
  music hm := by
    rw [hw.init.alike.readdir_eq (by decide)] at hm
    cases hm

/-- The invariant is kept when the directory of a search is added. -/
lemma inv_add_child {child : Ptr} (hi : s.Inv strict)
    (hchild : s.heap.readdir child = some .search_readdir)
    (horder : strict → (MountInstr.add_child 6 child).InOrder s) :
    Mount.Inv strict { s with heap := spfs_entity_dir_add_child s.heap 6 child } ∧
      s.Grows { s with heap := spfs_entity_dir_add_child s.heap 6 child } := by
  have htree := hi.wf.tree
  have hreaddir : ∀ e, s.heap.get child = some e → e.readdir = some .search_readdir :=
    fun e he => by simpa [Heap.readdir, he] using hchild
  rcases hparent : s.heap.parent child with _ | p
  · have hg : s.Grows { s with heap := spfs_entity_dir_add_child s.heap 6 child } :=
      ⟨(Heap.Grows.refl s.heap).add_child htree hparent (Or.inr hchild), List.Subset.refl _⟩
    have hplaced : (spfs_entity_dir_add_child s.heap 6 child).Placed :=
      hi.wf.placed.add_child htree (Nat.lt_of_lt_of_le (by decide) hi.wf.fresh_le)
        fun e he => parentRule_search hi.wf (hreaddir e he)
    refine ⟨⟨hi.wf.of_grows (htree.add_child hparent (hi.wf.lt_of_search hchild)) hplaced hg.heap ?_
      (fun c hc => Or.inl hc) (fun g hmem => Or.inl hmem) (fun d hd => Or.inl hd),
      fun hs => ⟨?_, ?_, ?_⟩⟩, hg⟩
    · intro q e' he'
      left
      simpa using Heap.lt_fresh_of_get he'
    · intro q name hq
      exact (hi.good hs).normal q name ((name_add_child s.heap 6 child q).symm.trans hq)
    · intro d hd
      have horphan := (hi.good hs).early d hd
      show (spfs_entity_dir_add_child s.heap 6 child).parent d = none
      by_cases hdc : child = d
      · subst hdc
        rw [add_child_refused (horder hs hd)]
        exact horphan
      · rw [parent_add_child_of_ne s.heap 6 hdc]
        exact horphan
    · intro link goal hgoal dir hdir
      exact (hi.good hs).links_of_grows hi.wf hg
        (fun link _ => target_add_child s.heap 6 child link) hgoal hdir
  · -- the child has been added before
    obtain ⟨e, he, hep⟩ := Option.bind_eq_some_iff.mp hparent
    obtain rfl : p = 6 := (hi.wf.placed child e p he hep).home _ 6 (hreaddir e he) rfl
    rw [add_child_again htree hparent]
    exact ⟨hi, .refl s⟩

/-- The invariant is kept when a relative path is computed, and it is noted where this was from a
directory that is not added yet. -/
lemma inv_relpath {src : Ptr} {f : SpfsReaddirFunc} (hi : s.Inv strict) (hsrc : s.Holds src f) :
    Mount.Inv strict
        { s with early := if s.heap.parent src = none then src :: s.early else s.early } ∧
      s.Grows { s with early := if s.heap.parent src = none then src :: s.early else s.early } := by
  split
  · next horphan =>
    have hsearch : s.heap.readdir src = some .search_readdir := by
      by_contra hne
      have hf : f ≠ .search_readdir := fun heq => hne (heq ▸ hsrc.readdir)
      obtain ⟨cs, hcs⟩ := hsrc.place hf
      rcases hi.wf.tree.walk_cases hcs with ⟨-, rfl⟩ | ⟨_, _, _, -, -, -, -, hparent, -⟩
      · have hroot := hsrc.readdir
        rw [hi.wf.init.alike.readdir_eq (by decide)] at hroot
        cases hroot
      · rw [horphan] at hparent
        cases hparent
    have hg : s.Grows { s with early := src :: s.early } :=
      ⟨.refl _, List.subset_cons_self _ _⟩
    refine ⟨⟨hi.wf.of_grows hi.wf.tree hi.wf.placed (.refl _) ?_ (fun c hc => Or.inl hc)
      (fun g hmem => Or.inl hmem) ?_, fun hs => ⟨(hi.good hs).normal, ?_, ?_⟩⟩, hg⟩
    · intro p e' he'
      exact Or.inl (Heap.lt_fresh_of_get he')
    · intro d hd
      rcases List.mem_cons.mp hd with rfl | hd
      · exact Or.inr hsearch
      · exact Or.inl hd
    · intro d hd
      rcases List.mem_cons.mp hd with rfl | hd
      · exact horphan
      · exact (hi.good hs).early d hd
    · intro link goal hgoal dir hdir
      exact (hi.good hs).links_of_grows hi.wf hg (fun _ _ => rfl) hgoal hdir
  · exact ⟨hi, .refl s⟩

/-- The invariant is kept when a search is started. -/
lemma inv_search_create {e : Ptr} (search : sp_search) (hi : s.Inv strict)
    (he : s.heap.readdir e = some .search_readdir) :
    Mount.Inv strict { s with searches := (search, e) :: s.searches } ∧
      s.Grows { s with searches := (search, e) :: s.searches } := by
  refine ⟨⟨hi.wf.of_grows hi.wf.tree hi.wf.placed (.refl _) ?_ ?_ (fun g hmem => Or.inl hmem)
    (fun d hd => Or.inl hd), fun hs => ⟨(hi.good hs).normal, (hi.good hs).early,
    (hi.good hs).links⟩⟩, .refl _, List.Subset.refl _⟩
  · intro p e' he'
    exact Or.inl (Heap.lt_fresh_of_get he')
  · intro c hc
    rcases List.mem_cons.mp hc with rfl | hc
    · exact Or.inr he
    · exact Or.inl hc

/-- The invariant is kept when the directory of a search gets its search. -/
lemma inv_set_auxdata {p : Ptr} (auxdata : Auxdata) (hi : s.Inv strict)
    (hp : s.heap.readdir p = some .search_readdir) :
    Mount.Inv strict
        { s with heap := s.heap.modify p fun e => { e with auxdata := some auxdata } } ∧
      s.Grows { s with heap := s.heap.modify p fun e => { e with auxdata := some auxdata } } := by
  refine inv_modify (f := fun e => { e with auxdata := some auxdata }) hi ?_ (fun _ => rfl)
    (fun _ => rfl) (fun _ => rfl) s.goals (fun g hmem => Or.inl hmem) ?_
  · intro e he
    have hreaddir : e.readdir = some .search_readdir := by simpa [Heap.readdir, he] using hp
    exact ⟨⟨rfl, rfl, fun hne => absurd hreaddir hne⟩, fun _ h => h, fun h _ => h⟩
  · intro hs link goal hgoal dir hdir
    rw [Heap.target_modify (f := fun e => { e with auxdata := some auxdata }) s.heap p link
      fun _ => rfl]
    exact (hi.good hs).links link goal hgoal dir hdir

/-- The write of `spfs_entity_link_set_target`. -/
def spfs_entity.set_target (target : Option gstr) (e : spfs_entity) : spfs_entity :=
  match target, e.e with
  | some target, .link _ => { e with e := .link target }
  | _, _ => e

/-- Setting a target is a change of the link alone. -/
lemma link_set_target_eq (h : Heap) (link : Ptr) (target : Option gstr) :
    spfs_entity_link_set_target h link target =
      h.modify link (spfs_entity.set_target target) := by
  rcases target with _ | target
  · have hid : spfs_entity.set_target none = id := rfl
    rw [hid, Heap.modify, List.modify_id]
    rfl
  · rw [spfs_entity_link_set_target]
    congr 1
    funext e
    rcases e with ⟨_, _, _, _, _ | _ | _⟩ <;> rfl

/-- The targets after a link got its target. -/
lemma target_modify_set_target (h : Heap) (link q : Ptr) (target : Option gstr) :
    (h.modify link (spfs_entity.set_target target)).target q =
      if link = q then (h.target q).map fun old => target.getD old else h.target q := by
  rw [Heap.target, Heap.get_modify]
  split
  · rw [Option.bind_map, Heap.target, Option.map_bind]
    congr 1
    funext e
    rcases e with ⟨_, _, _, _, _ | _ | _⟩ <;> rcases target with _ | target <;> rfl
  · rfl

/-- The invariant is kept when a link gets a target that leads to its goal. -/
lemma inv_link_set_target {link : Ptr} {target : Option gstr} {goal : Option Goal}
    (hi : s.Inv strict) (hlink : (s.heap.target link).isSome)
    (hgoal : strict → (goal = none → target = none) ∧ ∀ g ∈ goal, ∀ dir,
      s.heap.parent link = some dir → dir ∈ s.early ∨ s.Leads dir target g) :
    Mount.Inv strict { s with
        heap := spfs_entity_link_set_target s.heap link target
        goals := goal.toList.map (fun g => (link, g)) ++ s.goals } ∧
      s.Grows { s with
        heap := spfs_entity_link_set_target s.heap link target
        goals := goal.toList.map (fun g => (link, g)) ++ s.goals } := by
  rw [link_set_target_eq]
  refine inv_modify hi ?_ ?_ ?_ ?_ _ ?_ ?_
  · rintro ⟨_, _, _, _, _ | _ | _⟩ - <;> rcases target with _ | target <;>
      exact ⟨⟨rfl, rfl, fun _ => rfl⟩, fun _ h => h, fun h _ => h⟩
  iterate 3 rintro ⟨_, _, _, _, _ | _ | _⟩ <;> rcases target with _ | target <;> rfl
  · intro g hmem
    rcases List.mem_append.mp hmem with hmem | hmem
    · obtain ⟨g', -, rfl⟩ := List.mem_map.mp hmem
      exact Or.inr hlink
    · exact Or.inl hmem
  · intro hs link' g hlookup dir hdir
    rw [target_modify_set_target]
    obtain ⟨hnone, hsome⟩ := hgoal hs
    by_cases hll : link = link'
    · subst hll
      obtain ⟨old, hold⟩ := Option.isSome_iff_exists.mp hlink
      rw [if_pos rfl, hold, Option.map_some]
      rcases goal with _ | g'
      · rw [hnone rfl, Option.getD_none, ← hold]
        exact (hi.good hs).links link g hlookup dir hdir
      · obtain rfl : g' = g := by simpa using hlookup
        apply (hsome g' rfl dir hdir).imp id
        rintro ⟨t, q, rfl, hrest⟩
        exact ⟨t, q, rfl, hrest⟩
    · rw [if_neg hll]
      have hold : s.goals.lookup link' = some g := by
        rcases goal with _ | g'
        · exact hlookup
        · have hne : (link' == link) = false := by simpa using Ne.symm hll
          simpa [List.lookup_cons, hne] using hlookup
      exact (hi.good hs).links link' g hold dir hdir

/-- The step lemma. -/
theorem exec_inv {γ : Type} {i : MountInstr γ} {o : Spotify} {s' : Mount} {r : Option γ}
    (hi : s.Inv strict) (hpre : i.Pre strict s) (hok : strict → i.Assumed s ∧ i.InOrder s)
    (he : i.exec o s = some (r, s')) : s'.Inv strict ∧ s.Grows s' ∧ r ≠ none := by
  cases i with
  | crash => cases he
  | entity p =>
    obtain ⟨e, -, he⟩ := Option.map_eq_some_iff.mp he
    obtain ⟨rfl, rfl⟩ := Prod.mk.inj he
    exact ⟨hi, .refl s, Option.some_ne_none _⟩
  | has_child dir name =>
    obtain ⟨-, rfl, rfl⟩ := exec_lookup_cases he
    exact ⟨hi, .refl s', Option.some_ne_none _⟩
  | get_child dir name =>
    obtain ⟨-, rfl, rfl⟩ := exec_lookup_cases he
    exact ⟨hi, .refl s', Option.some_ne_none _⟩
  | add_new dir e entries =>
    obtain ⟨rfl, rfl⟩ := Prod.mk.inj (Option.some.inj he)
    obtain ⟨hi', hg⟩ := inv_add_new hi hpre fun hs => (hok hs).1
    exact ⟨hi', hg, Option.some_ne_none _⟩
  | dir_create name ops =>
    obtain rfl : ops = ⟨some .search_readdir, none⟩ := hpre
    obtain ⟨rfl, rfl⟩ := Prod.mk.inj (Option.some.inj he)
    obtain ⟨hi', hg⟩ := inv_dir_create hi fun hs => (hok hs).1
    exact ⟨hi', hg, Option.some_ne_none _⟩
  | add_child parent child =>
    obtain ⟨rfl, hchild⟩ : parent = 6 ∧ _ := hpre
    obtain ⟨rfl, rfl⟩ := Prod.mk.inj (Option.some.inj he)
    obtain ⟨hi', hg⟩ := inv_add_child hi hchild fun hs => (hok hs).2
    exact ⟨hi', hg, Option.some_ne_none _⟩
  | relpath src dst =>
    obtain ⟨f, hsrc⟩ := hpre
    obtain ⟨rfl, rfl⟩ := Prod.mk.inj (Option.some.inj he)
    obtain ⟨hi', hg⟩ := inv_relpath hi hsrc
    exact ⟨hi', hg, Option.some_ne_none _⟩
  | link_set_target link target goal =>
    obtain ⟨rfl, rfl⟩ := Prod.mk.inj (Option.some.inj he)
    obtain ⟨hi', hg⟩ := inv_link_set_target hi hpre.1 hpre.2
    exact ⟨hi', hg, Option.some_ne_none _⟩
  | search_create query e =>
    obtain ⟨rfl, rfl⟩ := Prod.mk.inj (Option.some.inj he)
    obtain ⟨hi', hg⟩ := inv_search_create o.search_create hi hpre
    exact ⟨hi', hg, Option.some_ne_none _⟩
  | set_auxdata e auxdata =>
    obtain ⟨rfl, rfl⟩ := Prod.mk.inj (Option.some.inj he)
    obtain ⟨hi', hg⟩ := inv_set_auxdata auxdata hi hpre
    exact ⟨hi', hg, Option.some_ne_none _⟩
  | _ =>
    obtain ⟨rfl, rfl⟩ := Prod.mk.inj (Option.some.inj he)
    exact ⟨hi, .refl s, Option.some_ne_none _⟩

/-- A directory that is held goes on to be. -/
lemma Mount.Holds.mono {s' : Mount} {dir : Ptr} {f : SpfsReaddirFunc} (hd : s.Holds dir f)
    (hg : s.Grows s') : s'.Holds dir f where
  readdir := hg.heap.readdir hd.readdir
  place hf := (hd.place hf).imp fun _ hcs => hg.heap.walk hcs

/-- No other thread breaks a precondition. -/
lemma MountInstr.Pre.stable {γ : Type} {i : MountInstr γ} {s' : Mount}
    (hpre : i.Pre strict s) (hg : s.Grows s') : i.Pre strict s' := by
  cases i with
  | add_new dir e entries =>
    have hpre : NewEntity s.heap dir e entries := hpre
    have halike := hg.heap.alike
    refine ⟨hpre.new, hpre.holds, hpre.isDir, hpre.music, ?_,
      fun h' ha => hpre.rule h' (halike.trans ha), hpre.fixed, hpre.wav, hpre.names⟩
    obtain ⟨e, he⟩ := Heap.exists_get_of_lt hpre.lt
    obtain ⟨e', he', -⟩ := halike dir e he
    exact Heap.lt_fresh_of_get he'
  | add_child parent child => exact ⟨hpre.1, hg.heap.readdir hpre.2⟩
  | relpath src dst =>
    obtain ⟨f, hsrc⟩ := hpre
    exact ⟨f, hsrc.mono hg⟩
  | link_set_target link target goal =>
    obtain ⟨hlink, hgoal⟩ := hpre
    refine ⟨hg.heap.alike.target_isSome hlink, fun hs => ⟨(hgoal hs).1, ?_⟩⟩
    intro g hmem dir hdir
    exact ((hgoal hs).2 g hmem dir (hg.heap.parent_of_link hlink hdir)).imp
      (fun hd => hg.early hd) (.mono hg.heap)
  | search_create query e => exact hg.heap.readdir hpre
  | set_auxdata e auxdata => exact hg.heap.readdir hpre
  | dir_create name ops => exact hpre
  | _ => trivial

end Steps

end Spotifile
