import Spotifile.MountInvariant

/-!
# The operations of the mounted file system keep the invariants

`Runs p s Q`: the program `p`, started in the state `s`, keeps the invariants whatever the other
threads do meanwhile, and ends with `Q`. Every program of the file system gets one such lemma;
`mount_disciplined` puts them together, and `mount_inv` states the result for every run.
-/

namespace Spotifile

open Lib

/-- The terms on which the threads share the file system. -/
def mount_discipline (strict : Prop) : Discipline MountInstr Mount ℕ MountCall where
  inv := Mount.Inv strict
  rely _ := Mount.Grows
  idle _ _ := True
  ok i s := strict → i.Assumed s ∧ i.InOrder s
  okStart _ _ _ := True

/-- The program keeps the invariants and ends with `Q`. -/
def Runs (strict : Prop) (links : SpotifyLinks) {α : Type} (p : MountProg α) (s : Mount)
    (Q : α → Mount → Prop) : Prop :=
  ∀ t, Prog.Safe (mount_system links) (mount_discipline strict) t
    (fun a s' => s'.Inv strict ∧ s.Grows s' ∧ Q a s') p s

/-- The instructions that change something. -/
def MountInstr.writes {γ : Type} : MountInstr γ → Bool
  | .add_new _ _ _ | .dir_create _ _ | .add_child _ _ | .relpath _ _ | .link_set_target _ _ _
  | .search_create _ _ | .set_auxdata _ _ => true
  | _ => false

/-- An instruction that only reads leaves the state as it is. -/
lemma MountInstr.eq_of_reads {γ : Type} {i : MountInstr γ} (hi : i.writes = false) {o : Spotify}
    {s s' : Mount} {r : Option γ} (he : i.exec o s = some (r, s')) : s' = s := by
  cases i with
  | crash => cases he
  | entity p =>
    obtain ⟨_, -, he⟩ := Option.map_eq_some_iff.mp he
    exact (Prod.mk.inj he).2.symm
  | has_child dir name => exact (exec_lookup_cases he).2.2
  | get_child dir name => exact (exec_lookup_cases he).2.2
  | _ => first
    | exact (Prod.mk.inj (Option.some.inj he)).2.symm
    | cases hi

/-- An instruction that only reads may always be executed. -/
lemma MountInstr.pre_of_reads {γ : Type} {i : MountInstr γ} (hi : i.writes = false)
    (strict : Prop) (s : Mount) : i.Pre strict s := by
  cases i <;> trivial

namespace Runs

variable {strict : Prop} {links : SpotifyLinks} {α β γ : Type} {s : Mount}

/-- A program that is over has kept the invariants. -/
lemma ret {a : α} {Q : α → Mount → Prop} (hi : s.Inv strict) (hQ : Q a s) :
    Runs strict links (.ret a) s Q :=
  fun _ => ⟨hi, .refl s, hQ⟩

/-- The second program begins with what the first ends with. -/
lemma bind {p : MountProg α} {q : α → MountProg β} {R : α → Mount → Prop} {Q : β → Mount → Prop}
    (hp : Runs strict links p s R)
    (hq : ∀ a s₁, s₁.Inv strict → s.Grows s₁ → R a s₁ → Runs strict links (q a) s₁ Q) :
    Runs strict links (p >>= q) s Q := by
  intro t
  apply (hp t).bind
  rintro a s₁ ⟨hi, hg, hR⟩
  apply (hq a s₁ hi hg hR t).mono
  rintro b s₂ ⟨hi₂, hg₂, hQ⟩
  exact ⟨hi₂, hg.trans hg₂, hQ⟩

/-- An instruction under its precondition. -/
lemma call {i : MountInstr γ} {k : γ → MountProg α} {Q : α → Mount → Prop}
    (hpre : i.Pre strict s)
    (hk : ∀ s₁ o v s₂, s₁.Inv strict → s.Grows s₁ → i.Pre strict s₁ →
      (strict → i.Assumed s₁ ∧ i.InOrder s₁) → i.exec o s₁ = some (some v, s₂) →
      s₂.Inv strict → s₁.Grows s₂ → Runs strict links (k v) s₂ Q) :
    Runs strict links (Prog.of i >>= k) s Q := by
  intro t
  rw [Prog.of_bind]
  refine .call (fun s₁ => s.Grows s₁ ∧ i.Pre strict s₁) ⟨.refl s, hpre⟩ ?_ ?_
  · rintro s₁ s₂ - hg ⟨hgs, hp⟩
    exact ⟨hgs.trans hg, hp.stable hg⟩
  · rintro s₁ o r s₂ hi ⟨hgs, hp⟩ hok he
    obtain ⟨hi₂, hg₂, hr⟩ := exec_inv hi hp hok he
    refine ⟨hi₂, fun _ _ => hg₂, fun hnone => absurd hnone hr, ?_⟩
    rintro v rfl
    apply (hk s₁ o v s₂ hi hgs hp hok he hi₂ hg₂ t).mono
    rintro b s₃ ⟨hi₃, hg₃, hQ⟩
    exact ⟨hi₃, (hgs.trans hg₂).trans hg₃, hQ⟩

/-- An instruction that changes nothing. -/
lemma read {i : MountInstr γ} {k : γ → MountProg α} {Q : α → Mount → Prop} (hi : i.writes = false)
    (hk : ∀ s₁ o v, s₁.Inv strict → s.Grows s₁ → i.exec o s₁ = some (some v, s₁) →
      Runs strict links (k v) s₁ Q) : Runs strict links (Prog.of i >>= k) s Q := by
  apply call (i.pre_of_reads hi strict s)
  rintro s₁ o v s₂ hi₁ hg - - he - -
  obtain rfl := i.eq_of_reads hi he
  exact hk s₂ o v hi₁ hg he

/-- The last instruction of a program. -/
lemma last {i : MountInstr γ} {Q : γ → Mount → Prop} (hpre : i.Pre strict s)
    (hk : ∀ s₁ o v s₂, s₁.Inv strict → s.Grows s₁ → i.exec o s₁ = some (some v, s₂) →
      s₂.Inv strict → Q v s₂) : Runs strict links (Prog.of i) s Q := by
  have hof : Prog.of i = Prog.of i >>= Prog.ret := rfl
  rw [hof]
  apply call hpre
  rintro s₁ o v s₂ hi₁ hg - - he hi₂ -
  exact ret hi₂ (hk s₁ o v s₂ hi₁ hg he hi₂)

/-- Reading through a pointer. -/
lemma deref {p : Option γ} {k : γ → MountProg α} {Q : α → Mount → Prop}
    (hk : ∀ a, p = some a → Runs strict links (k a) s Q) :
    Runs strict links (Spotifile.deref p >>= k) s Q := by
  rcases p with _ | a
  · intro t
    refine .call (fun _ => True) trivial (fun _ _ _ _ h => h) ?_
    rintro s₁ o r s₂ - - - he
    cases he
  · exact hk a rfl

/-- A loop whose body keeps the invariants. -/
lemma forEach {l : List β} {p : β → MountProg Unit} (hi : s.Inv strict)
    (hp : ∀ b ∈ l, ∀ s₁, s₁.Inv strict → s.Grows s₁ →
      Runs strict links (p b) s₁ fun _ _ => True) :
    Runs strict links (Prog.forEach l p) s fun _ _ => True := by
  induction l generalizing s with
  | nil => exact ret hi trivial
  | cons b l ih =>
    rw [Prog.forEach_cons]
    apply bind (hp b List.mem_cons_self s hi (.refl s))
    intro _ s₁ hi₁ hg₁ _
    apply ih hi₁
    intro b' hb' s₂ hi₂ hg₂
    exact hp b' (List.mem_cons_of_mem b hb') s₂ hi₂ (hg₁.trans hg₂)

end Runs

/-- The value of an instruction, from its execution. -/
lemma value_eq {γ : Type} {a v : γ} {s s' : Mount} (h : some (some a, s) = some (some v, s')) :
    a = v :=
  (returned_eq h).1

/-- The state after an instruction, from its execution. -/
lemma state_eq {γ : Type} {a v : Option γ} {s s' : Mount} (h : some (a, s) = some (v, s')) :
    s = s' :=
  (executed_eq h).2

/-! ## Browse directories -/

section Programs

variable {strict : Prop} {links : SpotifyLinks} {s : Mount}

/-- An entry of a browse directory. -/
structure BrowseEntry (k : BrowseKind) (x : spfs_entity) : Prop where
  new : x.New
  browses : x.browses = none
  fixed : x.fixed = false
  home : ∀ f, x.readdir = some f → f.home = none
  within : ∀ f k', x.readdir = some f → f.within = some k' → k' = k

/-- The entries of a browse directory. -/
structure BrowseEntries (k : BrowseKind) (entries : List spfs_entity) : Prop where
  entry : ∀ x ∈ entries, BrowseEntry k x
  wav : k = .track → ∃ x ∈ entries, x.name = some "track.wav".toList
  names : ∀ name ∈ entries.filterMap spfs_entity.name, name ≠ ".".toList ∧ name ≠ "..".toList

/-- A file that is only read may be in a browse directory. -/
lemma browseEntry_file (k : BrowseKind) (name : gstr) (read : SpfsReadFunc) :
    BrowseEntry k (read_file name read) :=
  ⟨spfs_entity_file_create_new name _, rfl, rfl, nofun, nofun⟩

/-- So may a `track.wav`. -/
lemma browseEntry_wav (k : BrowseKind) (name : gstr) (track : sp_track) :
    BrowseEntry k (create_track_wav_file name track) :=
  ⟨(spfs_entity_file_create_new name _).with_auxdata _, rfl, rfl, nofun, nofun⟩

/-- So may a directory whose `readdir` asks for this kind of parent. -/
lemma browseEntry_dir {k : BrowseKind} {f : SpfsReaddirFunc} (name : gstr) (hf : f.within = some k)
    (hhome : f.home = none) :
    BrowseEntry k (spfs_entity_dir_create (some name) ⟨some f, none⟩) where
  new := spfs_entity_dir_create_new (some name) _
  browses := rfl
  fixed := by cases f <;> first | rfl | cases hf
  home f' hf' := by
    obtain rfl : f = f' := Option.some.inj hf'
    exact hhome
  within f' k' hf' hk' := by
    obtain rfl : f = f' := Option.some.inj hf'
    exact Option.some.inj (hk'.symm.trans hf)

/-- The entries of a track. -/
lemma browseEntries_track (track : sp_track) : BrowseEntries .track (track_dir_entries track) where
  entry := by
    have hdir : ∀ name, BrowseEntry .track
        (spfs_entity_dir_create (some name) ⟨some .artists_readdir, none⟩) :=
      fun name => browseEntry_dir name rfl rfl
    simp [track_dir_entries, browseEntry_file, browseEntry_wav, hdir]
  wav _ := ⟨create_track_wav_file "track.wav".toList track, by simp [track_dir_entries], rfl⟩
  names := by
    have hnames : (track_dir_entries track).filterMap spfs_entity.name =
        ["name".toList, "track.wav".toList, "duration".toList, "popularity".toList,
         "index".toList, "disc".toList, "starred".toList, "local".toList, "autolinked".toList,
         "offlinestatus".toList, "artists".toList] := rfl
    rw [hnames]
    decide

/-- The entries of an artist. -/
lemma browseEntries_artist : BrowseEntries .artist artist_dir_entries where
  entry := by
    have halbums : ∀ name, BrowseEntry .artist
        (spfs_entity_dir_create (some name) ⟨some .albums_readdir, none⟩) :=
      fun name => browseEntry_dir name rfl rfl
    have hportraits : ∀ name, BrowseEntry .artist
        (spfs_entity_dir_create (some name) ⟨some .portraits_readdir, none⟩) :=
      fun name => browseEntry_dir name rfl rfl
    simp [artist_dir_entries, browseEntry_file, halbums, hportraits]
  wav := nofun
  names := by decide

/-- The entries of an album. -/
lemma browseEntries_album : BrowseEntries .album album_dir_entries where
  entry := by simp [album_dir_entries, browseEntry_file]
  wav := nofun
  names := by decide

/-- A new browse directory is of the kind of its `auxdata`. -/
lemma browses_browse_dir_create {name : gstr} {auxdata : Auxdata} {k : BrowseKind}
    (hk : auxdata.kind = some k) : (browse_dir_create name auxdata).browses = some k := by
  have hshape : (browse_dir_create name auxdata).e.shape = .dir ⟨none, none⟩ [] := rfl
  rw [spfs_entity.browses, if_pos hshape]
  exact hk

/-- The kinds have different directories. -/
lemma base_injective {k k' : BrowseKind} (h : k.base = k'.base) : k = k' := by
  cases k <;> cases k' <;> first | rfl | cases h

/-- A new browse directory may be added to the directory of its kind. -/
lemma newEntity_browse_dir (hw : s.Wf) {name : gstr} {auxdata : Auxdata} {k : BrowseKind}
    {entries : List spfs_entity} (hk : auxdata.kind = some k) (he : BrowseEntries k entries) :
    NewEntity s.heap k.base (browse_dir_create name auxdata) entries where
  new := (spfs_entity_dir_create_new (some name) ⟨none, none⟩).with_auxdata (some auxdata)
  holds x hx := by
    have hentry := he.entry x hx
    refine ⟨hentry.new, hentry.home, fun f k' hf hk' => ?_, hentry.browses⟩
    rw [browses_browse_dir_create hk, hentry.within f k' hf hk']
  isDir _ := Option.some_ne_none _
  music := Or.inl (by rintro ⟨⟩)
  lt := Nat.lt_of_lt_of_le (by cases k <;> decide) hw.fresh_le
  rule h' ha := by
    refine ⟨by rintro f q ⟨⟩, by rintro f k' ⟨⟩, ?_, ?_⟩
    · intro k'
      rw [browses_browse_dir_create hk, Option.some.injEq]
      exact ⟨fun heq => heq ▸ rfl, base_injective⟩
    · intro hm
      rw [(hw.init.alike.trans ha).readdir_eq (by cases k <;> decide)] at hm
      cases k <;> cases hm
  fixed := ⟨rfl, fun x hx => (he.entry x hx).fixed⟩
  wav htrack := by
    rw [browses_browse_dir_create hk] at htrack
    exact he.wav (Option.some.inj htrack)
  names x hx name hname := he.names name (List.mem_filterMap.mpr ⟨x, hx, hname⟩)

/-- The three `create_.._browse_dir`: what they return is a browse directory of their kind, named
after the link. -/
lemma runs_create_browse_dir {k : BrowseKind} {path : gstr} {link : Option gstr}
    {create : gstr → MountProg (spfs_entity × List spfs_entity)}
    (hpath : spfs_entity_find_path spfs_init_heap 0 path = some k.base)
    (hcreate : ∀ linkstring s₁, s₁.Inv strict → Runs strict links (create linkstring) s₁
      fun new _ => (∃ auxdata : Auxdata, auxdata.kind = some k ∧
        new.1 = browse_dir_create linkstring auxdata) ∧ BrowseEntries k new.2) :
    Runs strict links (create_browse_dir path link create) s fun r s' =>
      ∀ d, r = some d → s'.heap.browses d = some k ∧
        ∃ linkstring, link = some linkstring ∧
          s'.heap.name d = some (spfs_sanitize_name linkstring) := by
  unfold create_browse_dir
  refine Runs.read rfl fun s₁ o root hi₁ hg₁ he₁ => ?_
  obtain rfl : some 0 = root := hi₁.wf.tree.root.symm.trans (value_eq he₁)
  refine Runs.read rfl fun s₂ o found hi₂ hg₂ he₂ => ?_
  have hfound : spfs_entity_find_path s₂.heap 0 path = found := value_eq he₂
  have hroot : spfs_init_heap.walk 0 [] = some 0 := rfl
  rw [hi₂.wf.init.find_path init_tree_placed.1 hroot hpath] at hfound
  subst hfound
  rcases link with _ | linkstring
  · exact Runs.ret hi₂ (by simp)
  refine Runs.deref fun dir hdir => ?_
  obtain rfl := Option.some.inj hdir
  refine Runs.read rfl fun s₃ o has hi₃ hg₃ he₃ => ?_
  rcases has with _ | _
  · apply Runs.bind (hcreate linkstring s₃ hi₃)
    rintro ⟨e, entries⟩ s₄ hi₄ hg₄ ⟨⟨auxdata, hk, rfl⟩, hentries⟩
    refine Runs.call (newEntity_browse_dir hi₄.wf hk hentries) ?_
    rintro s₅ o dir s₆ hi₅ hg₅ hpre - he₅ hi₆ hg₆
    obtain rfl : s₅.heap.fresh = dir := value_eq he₅
    obtain rfl := state_eq he₅
    obtain ⟨e', he', halike, -⟩ := (hpre.added hi₅.wf).self
    apply Runs.ret hi₆
    rintro d ⟨⟩
    refine ⟨?_, linkstring, rfl, ?_⟩
    · rw [Heap.browses, he', Option.bind_some, halike.browses, browses_browse_dir_create hk]
    · rw [Heap.name, he', Option.bind_some, halike.name]
      rfl
  · apply Runs.last (i := .get_child k.base linkstring) trivial
    rintro s₄ o r s₅ hi₄ hg₄ he₄ hi₅ d rfl
    obtain ⟨-, heq, rfl⟩ := exec_lookup_cases he₄
    have hlookup : s₅.heap.lookup k.base (spfs_sanitize_name linkstring) = some d :=
      (Option.some.inj heq).symm
    obtain ⟨-, hname, -⟩ := hi₅.wf.tree.entry _ _ _ hlookup
    exact ⟨hi₅.wf.browses_of_lookup hlookup, linkstring, rfl, hname⟩

/-- The browse directory of a track has the sanitised link of the track as its name. -/
lemma runs_create_track_browse_dir (track : sp_track) :
    Runs strict links (create_track_browse_dir links track) s fun r s' =>
      ∀ d, r = some d → s'.heap.browses d = some .track ∧
        ∃ linkstring, links.track track = some linkstring ∧
          s'.heap.name d = some (spfs_sanitize_name linkstring) :=
  runs_create_browse_dir (by decide) fun _ _ hi₁ =>
    .ret hi₁ ⟨⟨.track track, rfl, rfl⟩, browseEntries_track track⟩

/-- So it is with the browse directory of an artist. -/
lemma runs_create_artist_browse_dir (artist : sp_artist) :
    Runs strict links (create_artist_browse_dir links artist) s fun r s' =>
      ∀ d, r = some d → s'.heap.browses d = some .artist ∧
        ∃ linkstring, links.artist artist = some linkstring ∧
          s'.heap.name d = some (spfs_sanitize_name linkstring) :=
  runs_create_browse_dir (by decide) fun _ _ _ =>
    .read rfl fun _ _ ab hi₂ _ _ => .ret hi₂ ⟨⟨.artistbrowse ab, rfl, rfl⟩, browseEntries_artist⟩

/-- So it is with the browse directory of an album. -/
lemma runs_create_album_browse_dir (album : sp_album) :
    Runs strict links (create_album_browse_dir links album) s fun r s' =>
      ∀ d, r = some d → s'.heap.browses d = some .album ∧
        ∃ linkstring, links.album album = some linkstring ∧
          s'.heap.name d = some (spfs_sanitize_name linkstring) :=
  runs_create_browse_dir (by decide) fun _ _ hi₁ =>
    .ret hi₁ ⟨⟨.album album, rfl, rfl⟩, browseEntries_album⟩

/-! ## Links -/

/-- A new link may be added to a directory that holds links. -/
lemma newEntity_link (hw : s.Wf) {dir : Ptr} {f : SpfsReaddirFunc} (hdir : s.Holds dir f)
    (name : gstr) : NewEntity s.heap dir (spfs_entity_link_create name) [] where
  new := spfs_entity_link_create_new name
  holds := by simp
  isDir h := absurd rfl h
  music := Or.inr rfl
  lt := by
    obtain ⟨e, he, -⟩ := Option.bind_eq_some_iff.mp hdir.readdir
    exact Heap.lt_fresh_of_get he
  rule _ _ := by
    refine ⟨nofun, nofun, fun k => ?_, fun _ => Or.inl ⟨rfl, rfl⟩⟩
    exact iff_of_false nofun (hw.ne_base hdir.readdir k)
  fixed := ⟨rfl, by simp⟩
  wav := nofun
  names := by simp

/-- The goal of a link, and the entity to which its relative path is computed: a browse directory
of the kind to which links from the directory lead, or the `track.wav` in it, or nothing. -/
def Aimed (s : Mount) (k : BrowseKind) (goal : Option Goal) (dst : Option Ptr) : Prop :=
  (goal = none ∧ dst = none) ∨
  ∃ g d, goal = some g ∧ dst = some d ∧ g.entity s.heap = some d ∧ s.heap.browses g.dir = some k

/-- A browse directory stays one. -/
lemma Mount.Grows.browses {s s' : Mount} (hg : s.Grows s') {d : Ptr} {k : BrowseKind}
    (hk : s.heap.browses d = some k) : s'.heap.browses d = some k := by
  obtain ⟨e, he, -⟩ := Option.bind_eq_some_iff.mp hk
  rw [hg.heap.alike.browses_eq (Heap.lt_fresh_of_get he), hk]

/-- A link that is aimed at its goal stays so. -/
lemma Aimed.mono {s' : Mount} {k : BrowseKind} {goal : Option Goal} {dst : Option Ptr}
    (ha : Aimed s k goal dst) (hg : s.Grows s') : Aimed s' k goal dst := by
  rcases ha with hnone | ⟨g, d, hgoal, hdst, hentity, hk⟩
  · exact Or.inl hnone
  · refine Or.inr ⟨g, d, hgoal, hdst, ?_, ?_⟩
    · rcases g with dir | dir
      · exact hentity
      · exact hg.heap.lookup dir _ d hentity
    · exact hg.browses hk

/-- What `relpath` gives, if everything is in order: a path that leads to the goal, unless the
directory has no parent yet. -/
lemma relpath_leads {dir : Ptr} {f : SpfsReaddirFunc} {k : BrowseKind} {goal : Option Goal}
    {dst : Option Ptr} (hi : s.Inv strict) (hs : strict) (hdir : s.Holds dir f)
    (hf : f.links = some k)
    (haim : Aimed s k goal dst) (hassumed : (MountInstr.relpath dir dst).Assumed s)
    (horder : (MountInstr.relpath dir dst).InOrder s) (hparent : s.heap.parent dir ≠ none) :
    ∀ g ∈ goal, s.Leads dir (relpath s.heap dir dst) g := by
  rintro g hmem
  rcases haim with ⟨rfl, -⟩ | ⟨g', d, rfl, rfl, hentity, hk⟩
  · cases hmem
  obtain rfl : g' = g := Option.some.inj hmem
  obtain ⟨hlen, hlen'⟩ := hassumed
  have hw := hi.wf
  have hplace : ∃ cs, s.heap.walk 0 cs = some dir := by
    by_cases hsearch : f = .search_readdir
    · subst hsearch
      obtain ⟨p, hp⟩ := Option.ne_none_iff_exists'.mp hparent
      obtain ⟨e, he, hep⟩ := Option.bind_eq_some_iff.mp hp
      have hreaddir : e.readdir = some .search_readdir := by
        simpa [Heap.readdir, he] using hdir.readdir
      obtain rfl : p = 6 := (hw.placed dir e p he hep).home _ 6 hreaddir rfl
      have hsix : spfs_init_heap.walk 0 ["search".toList] = some 6 := by decide
      obtain ⟨c, -, hc⟩ := hw.tree.walk_child (hw.init.walk hsix) hp
      exact ⟨_, hc⟩
    · exact hdir.place hsearch
  obtain ⟨cs, hcs⟩ := hplace
  obtain ⟨ds, hds⟩ := (hw.tree.attached_iff d).mp (horder hparent)
  obtain ⟨hcd, hdc⟩ := hw.placed.not_prefix_of_links hw.tree hw.init hcs hdir.readdir hf hds
    hentity hk
  obtain ⟨r, hr, hfollow⟩ := hw.tree.follow_relpath (hi.good hs).normal hcs hds hlen
    (hlen' d rfl) hcd hdc
  exact ⟨r, d, hr, hentity, hfollow⟩

/-- A link is created, added and aimed. -/
lemma runs_create_link {dir : Ptr} {f : SpfsReaddirFunc} {k : BrowseKind} (hi : s.Inv strict)
    (hdir : s.Holds dir f) (hf : f.links = some k) (name : gstr) {goal : Option Goal}
    {dst : Option Ptr} (haim : strict → Aimed s k goal dst) :
    Runs strict links (create_link dir name goal dst) s fun _ _ => True := by
  unfold create_link
  refine Runs.call (newEntity_link hi.wf hdir name) ?_
  rintro s₁ o link s₂ hi₁ hg₁ hpre - he₁ hi₂ hg₂
  obtain rfl : s₁.heap.fresh = link := value_eq he₁
  obtain rfl := state_eq he₁
  obtain ⟨e, he, -, htarget, hparent⟩ := (hpre.added hi₁.wf).self
  have hlink₂ : ((add_new s₁.heap dir (spfs_entity_link_create name) []).target
      s₁.heap.fresh).isSome := by
    rw [Heap.target, he, Option.bind_some, htarget]
    rfl
  have hhome : ∀ dir', (add_new s₁.heap dir (spfs_entity_link_create name) []).parent
      s₁.heap.fresh = some dir' → dir' = dir := by
    intro dir' hdir'
    rw [Heap.parent, he, Option.bind_some] at hdir'
    rcases hparent with hnone | hsome
    · rw [hnone] at hdir'
      cases hdir'
    · exact Option.some.inj (hdir'.symm.trans hsome)
  refine Runs.call (i := .relpath dir dst) ⟨f, hdir.mono (hg₁.trans hg₂)⟩ ?_
  rintro s₃ o rpath s₄ hi₃ hg₃ - hok he₃ hi₄ hg₄
  obtain rfl : relpath s₃.heap dir dst = rpath := value_eq he₃
  have hgrows : s.Grows s₃ := (hg₁.trans hg₂).trans hg₃
  refine Runs.last (i := .link_set_target s₁.heap.fresh (relpath s₃.heap dir dst) goal) ?_
    fun _ _ _ _ _ _ _ _ => trivial
  refine ⟨(hg₃.trans hg₄).heap.alike.target_isSome hlink₂, fun hs => ?_⟩
  obtain ⟨hassumed, horder⟩ := hok hs
  have haim₃ := (haim hs).mono hgrows
  constructor
  · rintro rfl
    rcases haim₃ with ⟨-, rfl⟩ | ⟨g, d, hgoal, -⟩
    · rw [relpath]
      rcases spfs_entity_get_full_path s₃.heap dir with _ | path
      · rfl
      · rfl
    · cases hgoal
  · intro g hmem dir' hdir'
    obtain rfl : dir' = dir :=
      hhome dir' ((hg₃.trans hg₄).heap.parent_of_link hlink₂ hdir')
    by_cases horphan : s₃.heap.parent dir' = none
    · left
      obtain rfl := state_eq he₃
      simp [horphan]
    · right
      exact (relpath_leads hi₃ hs (hdir.mono hgrows) hf haim₃ hassumed horder horphan g hmem).mono
        hg₄.heap

variable (links) in
/-- The links of a track's browse directory are Spotify URIs. -/
def SpotifyLinks.Uris : Prop :=
  ∀ track link, links.track track = some link → "spotify:".toList <+: link

/-- A link to the `track.wav` of a track. -/
lemma runs_create_wav_track_link_in_directory
    (huri : strict → links.Uris)
    {dir : Ptr} {f : SpfsReaddirFunc} (hdir : s.Holds dir f) (hf : f.links = some .track)
    (linkname : gstr) (track : sp_track) :
    Runs strict links (create_wav_track_link_in_directory links dir linkname track) s
      fun _ _ => True := by
  unfold create_wav_track_link_in_directory
  refine Runs.read rfl fun s₁ o has hi₁ hg₁ he₁ => ?_
  rcases has with _ | _
  · apply Runs.bind (runs_create_track_browse_dir track)
    intro track_browse_dir s₂ hi₂ hg₂ hpost
    refine Runs.read rfl fun s₃ o track_wav hi₃ hg₃ he₃ => ?_
    refine runs_create_link hi₃ (hdir.mono ((hg₁.trans hg₂).trans hg₃)) hf linkname fun hs => ?_
    have hwav := value_eq he₃
    rcases track_browse_dir with _ | d
    · exact Or.inl ⟨rfl, hwav.symm⟩
    · right
      obtain ⟨hk, link, hlink, hname⟩ := hpost d rfl
      have hk₃ := hg₃.browses hk
      -- a link is a Spotify URI, so its directory is not called `track.wav`
      have hcolon : ':' ∈ spfs_sanitize_name link :=
        mem_sanitize_name rfl (by decide) ((huri hs track link hlink).subset (by decide))
      have hne : spfs_sanitize_name link ≠ "track.wav".toList := by
        intro heq
        rw [heq] at hcolon
        exact absurd hcolon (by decide)
      obtain ⟨w, hw, hfind⟩ := hi₃.wf.find_track_wav hk₃ (hg₃.heap.name hname) hne
      refine ⟨.wav d, w, rfl, ?_, hw, hk₃⟩
      rw [← hwav, Option.bind_some, hfind]
  · exact Runs.ret hi₁ trivial

/-- A link to a browse directory, where there is no entry of that name. -/
lemma runs_link_unless_there {dir : Ptr} {f : SpfsReaddirFunc} {k : BrowseKind}
    (hdir : s.Holds dir f) (hf : f.links = some k) (name : gstr) {browse_dir : Option Ptr}
    (hbrowse : ∀ d, browse_dir = some d → s.heap.browses d = some k) :
    Runs strict links (do
      let has ← .of (.has_child dir name)
      if has then .ret () else create_link dir name (browse_dir.map .browse) browse_dir) s
      fun _ _ => True := by
  refine Runs.read rfl fun s₁ o has hi₁ hg₁ he₁ => ?_
  rcases has with _ | _
  · refine runs_create_link hi₁ (hdir.mono hg₁) hf name fun _ => ?_
    rcases browse_dir with _ | d
    · exact Or.inl ⟨rfl, rfl⟩
    · exact Or.inr ⟨.browse d, d, rfl, rfl, rfl, hg₁.browses (hbrowse d rfl)⟩
  · exact Runs.ret hi₁ trivial

/-! ## Listing -/

/-- A playlist is listed by its tracks. -/
lemma runs_playlist_dir_meta_readdir {e : Ptr} (he : s.Holds e .playlist_dir_meta_readdir) :
    Runs strict links (playlist_dir_meta_readdir links e) s fun _ _ => True := by
  unfold playlist_dir_meta_readdir
  refine Runs.read rfl fun s₁ o ent hi₁ hg₁ _ => ?_
  refine Runs.deref fun pl _ => ?_
  refine Runs.read rfl fun s₂ o tracks hi₂ hg₂ _ => ?_
  refine Runs.deref fun tracks _ => ?_
  refine Runs.forEach hi₂ fun track _ s₃ hi₃ hg₃ => ?_
  refine Runs.read rfl fun s₄ o trackname hi₄ hg₄ _ => ?_
  refine Runs.bind (runs_create_track_browse_dir track) fun r s₅ hi₅ hg₅ hpost => ?_
  have hg := (((hg₁.trans hg₂).trans hg₃).trans hg₄).trans hg₅
  exact runs_link_unless_there (he.mono hg) rfl trackname fun d hd => (hpost d hd).1

/-- To read the `auxdata` of the parent changes nothing. -/
lemma runs_parent_auxdata (e : Ptr) :
    Runs strict links (parent_auxdata e) s fun _ _ => True := by
  unfold parent_auxdata
  refine Runs.read rfl fun s₁ o ent hi₁ hg₁ _ => ?_
  refine Runs.deref fun parent _ => ?_
  exact Runs.read rfl fun s₂ o ent hi₂ hg₂ _ => .ret hi₂ trivial

/-- The artists of a track are listed. -/
lemma runs_artists_readdir {e : Ptr} (he : s.Holds e .artists_readdir) :
    Runs strict links (artists_readdir links e) s fun _ _ => True := by
  unfold artists_readdir
  refine Runs.bind (runs_parent_auxdata e) fun auxdata s₁ hi₁ hg₁ _ => ?_
  refine Runs.deref fun track _ => ?_
  refine Runs.read rfl fun s₂ o num_artists hi₂ hg₂ _ => ?_
  refine Runs.forEach hi₂ fun i _ s₃ hi₃ hg₃ => ?_
  refine Runs.read rfl fun s₄ o artist hi₄ hg₄ _ => ?_
  refine Runs.read rfl fun s₅ o artistname hi₅ hg₅ _ => ?_
  refine Runs.bind (runs_create_artist_browse_dir artist) fun r s₆ hi₆ hg₆ hpost => ?_
  have hg := ((((hg₁.trans hg₂).trans hg₃).trans hg₄).trans hg₅).trans hg₆
  exact runs_link_unless_there (he.mono hg) rfl artistname fun d hd => (hpost d hd).1

/-- The albums of an artist are listed. -/
lemma runs_albums_readdir {e : Ptr} (he : s.Holds e .albums_readdir) :
    Runs strict links (albums_readdir links e) s fun _ _ => True := by
  unfold albums_readdir
  refine Runs.bind (runs_parent_auxdata e) fun auxdata s₁ hi₁ hg₁ _ => ?_
  refine Runs.deref fun ab _ => ?_
  refine Runs.read rfl fun s₂ o albums hi₂ hg₂ _ => ?_
  refine Runs.forEach hi₂ fun album _ s₃ hi₃ hg₃ => ?_
  refine Runs.bind (runs_create_album_browse_dir album) fun r s₄ hi₄ hg₄ hpost => ?_
  refine Runs.read rfl fun s₅ o album_name hi₅ hg₅ _ => ?_
  have hg := (((hg₁.trans hg₂).trans hg₃).trans hg₄).trans hg₅
  exact runs_link_unless_there (he.mono hg) rfl album_name
    fun d hd => hg₅.browses (hpost d hd).1

/-- A new file or directory without entries, whose kind asks for no parent or for this one. -/
lemma newEntity_plain (hw : s.Wf) {dir : Ptr} {f : SpfsReaddirFunc} {e : spfs_entity}
    (hdir : s.heap.readdir dir = some f) (hnew : e.New) (hfixed : e.fixed = false)
    (hbrowses : e.browses = none)
    (hhome : ∀ g q, e.readdir = some g → g.home = some q → dir = q)
    (hwithin : ∀ g, e.readdir = some g → g.within = none)
    (hmusic : f = .playlist_dir_music_readdir → e.name = some "playlist.xspf".toList) :
    NewEntity s.heap dir e [] where
  new := hnew
  holds := by simp
  isDir h := absurd rfl h
  music := Or.inr rfl
  lt := by
    obtain ⟨e, he, -⟩ := Option.bind_eq_some_iff.mp hdir
    exact Heap.lt_fresh_of_get he
  rule h' ha := by
    refine ⟨hhome, fun g k hg hk => ?_, fun k => ?_, fun hm => ?_⟩
    · rw [hwithin g hg] at hk
      cases hk
    · rw [hbrowses]
      exact iff_of_false nofun (hw.ne_base hdir k)
    · obtain ⟨e, he, -⟩ := Option.bind_eq_some_iff.mp hdir
      rw [ha.readdir_eq (Heap.lt_fresh_of_get he), hdir, Option.some.injEq] at hm
      exact Or.inr (hmusic hm)
  fixed := ⟨hfixed, by simp⟩
  wav htrack := by
    rw [hbrowses] at htrack
    cases htrack
  names := by simp

/-- The recordings of a playlist are listed. -/
lemma runs_playlist_dir_music_readdir (huri : strict → links.Uris) {e : Ptr}
    (he : s.Holds e .playlist_dir_music_readdir) :
    Runs strict links (playlist_dir_music_readdir links e) s fun _ _ => True := by
  unfold playlist_dir_music_readdir
  refine Runs.read rfl fun s₁ o ent hi₁ hg₁ _ => ?_
  refine Runs.deref fun pl _ => ?_
  refine Runs.read rfl fun s₂ o tracks hi₂ hg₂ _ => ?_
  refine Runs.deref fun tracks _ => ?_
  refine Runs.bind (Runs.forEach hi₂ fun track _ s₃ hi₃ hg₃ => ?_) fun _ s₃ hi₃ hg₃ _ => ?_
  · refine Runs.read rfl fun s₄ o trackname hi₄ hg₄ _ => ?_
    exact runs_create_wav_track_link_in_directory huri
      (he.mono (((hg₁.trans hg₂).trans hg₃).trans hg₄)) rfl _ track.1
  refine Runs.read rfl fun s₄ o has hi₄ hg₄ _ => ?_
  rcases has with _ | _
  · have he₄ := he.mono (((hg₁.trans hg₂).trans hg₃).trans hg₄)
    refine Runs.call (newEntity_plain hi₄.wf he₄.readdir (spfs_entity_file_create_new _ _) rfl rfl
      nofun nofun fun _ => by decide) ?_
    rintro s₅ o p s₆ - - - - - hi₆ -
    exact Runs.ret hi₆ trivial
  · exact Runs.ret hi₄ trivial

/-- The directory of a playlist, in one of the playlists directories. -/
lemma newEntity_playlist_dir (hw : s.Wf) {readdir f : SpfsReaddirFunc} {dir : Ptr}
    (hdir : s.heap.readdir dir = some f) (hhome : readdir.home = some dir)
    (hplain : readdir.within = none ∧ f ≠ .playlist_dir_music_readdir ∧
      readdir ≠ .playlists_meta_dir_readdir ∧ readdir ≠ .playlists_music_dir_readdir)
    (name : gstr) (pl : sp_playlist) :
    NewEntity s.heap dir { spfs_entity_dir_create (some name) ⟨some readdir, none⟩ with
      auxdata := some (.playlist pl) } [] := by
  obtain ⟨hwithin, hmusic, hmeta, hmusic'⟩ := hplain
  refine newEntity_plain hw hdir ((spfs_entity_dir_create_new _ _).with_auxdata _) ?_ rfl ?_ ?_
    fun hf => absurd hf hmusic
  · simp [spfs_entity.fixed, spfs_entity.mkdir, spfs_entity.readdir, spfs_entity_dir_create,
      spfs_entity_create, hmeta, hmusic']
  · rintro g q hg hq
    obtain rfl : readdir = g := Option.some.inj hg
    exact Option.some.inj (hhome.symm.trans hq)
  · rintro g hg
    obtain rfl : readdir = g := Option.some.inj hg
    exact hwithin

/-- The two `readdir` of the playlists directories. -/
lemma runs_playlists_dir_readdir {readdir f : SpfsReaddirFunc} {dir : Ptr}
    (hdir : s.heap.readdir dir = some f) (hhome : readdir.home = some dir)
    (hplain : readdir.within = none ∧ f ≠ .playlist_dir_music_readdir ∧
      readdir ≠ .playlists_meta_dir_readdir ∧ readdir ≠ .playlists_music_dir_readdir) :
    Runs strict links (playlists_dir_readdir readdir dir) s fun _ _ => True := by
  unfold playlists_dir_readdir
  refine Runs.read rfl fun s₁ o playlists hi₁ hg₁ _ => ?_
  refine Runs.deref fun playlists _ => ?_
  refine Runs.forEach hi₁ fun pl _ s₂ hi₂ hg₂ => ?_
  refine Runs.read rfl fun s₃ o name hi₃ hg₃ _ => ?_
  refine Runs.read rfl fun s₄ o has hi₄ hg₄ _ => ?_
  rcases has with _ | _
  · have hg := ((hg₁.trans hg₂).trans hg₃).trans hg₄
    refine Runs.call (newEntity_playlist_dir hi₄.wf (hg.heap.readdir hdir) hhome hplain name pl) ?_
    rintro s₅ o p s₆ - - - - - hi₆ -
    exact Runs.ret hi₆ trivial
  · exact Runs.ret hi₄ trivial

/-- The portraits of an artist are listed. -/
lemma runs_portraits_readdir {e : Ptr} (he : s.heap.readdir e = some .portraits_readdir) :
    Runs strict links (portraits_readdir e) s fun _ _ => True := by
  unfold portraits_readdir
  refine Runs.bind (runs_parent_auxdata e) fun auxdata s₁ hi₁ hg₁ _ => ?_
  refine Runs.deref fun ab _ => ?_
  refine Runs.read rfl fun s₂ o portraits hi₂ hg₂ _ => ?_
  refine Runs.forEach hi₂ fun portrait _ s₃ hi₃ hg₃ => ?_
  refine Runs.read rfl fun s₄ o has hi₄ hg₄ _ => ?_
  rcases has with _ | _
  · refine Runs.read rfl fun s₅ o image hi₅ hg₅ _ => ?_
    have hg := (((hg₁.trans hg₂).trans hg₃).trans hg₄).trans hg₅
    refine Runs.call (newEntity_plain hi₅.wf (hg.heap.readdir he)
      ((spfs_entity_file_create_new _ _).with_auxdata _) rfl rfl nofun nofun nofun) ?_
    rintro s₆ o p s₇ - - - - - hi₇ -
    exact Runs.ret hi₇ trivial
  · exact Runs.ret hi₄ trivial

/-- An entity that only `spfs_init` creates is as `spfs_init` created it. -/
lemma Mount.Wf.init_of_fixed (hw : s.Wf) {p : Ptr} {e : spfs_entity} (he : s.heap.get p = some e)
    (hfixed : e.fixed) : p < 10 ∧ ∃ e₀, spfs_init_heap.get p = some e₀ ∧ e₀.Alike e := by
  have hlt := hw.fixed p e he hfixed
  exact ⟨hlt, hw.init.alike.of_get hlt he⟩

/-- There is one directory only with a `readdir` that adds directories. -/
lemma Mount.Wf.eq_of_fixed (hw : s.Wf) {p q : Ptr} {e : spfs_entity} {f : SpfsReaddirFunc}
    (he : s.heap.get p = some e) (hf : e.readdir = some f) (hfixed : e.fixed)
    (hunique : ∀ p < 10, spfs_init_heap.readdir p = some f → p = q) : p = q := by
  obtain ⟨hlt, e₀, he₀, halike⟩ := hw.init_of_fixed he hfixed
  apply hunique p hlt
  rw [Heap.readdir, he₀, Option.bind_some, ← halike.readdir, hf]

/-- The `readdir` of a directory that was found by its path. -/
lemma runs_readdir_prog (huri : strict → links.Uris) (hi : s.Inv strict) {e : Ptr}
    {ent : spfs_entity} {f : SpfsReaddirFunc} (hget : s.heap.get e = some ent)
    (hf : ent.readdir = some f) (hplace : ∃ cs, s.heap.walk 0 cs = some e) :
    Runs strict links (readdir_prog links f e) s fun _ _ => True := by
  have hreaddir : s.heap.readdir e = some f := by
    rw [Heap.readdir, hget]
    exact hf
  have hholds : s.Holds e f := ⟨hreaddir, fun _ => hplace⟩
  cases f with
  | playlists_meta_dir_readdir =>
    obtain rfl : e = 8 :=
      hi.wf.eq_of_fixed hget hf (by simp [spfs_entity.fixed, hf]) (by decide)
    exact runs_playlists_dir_readdir hreaddir rfl (by decide)
  | playlists_music_dir_readdir =>
    obtain rfl : e = 9 :=
      hi.wf.eq_of_fixed hget hf (by simp [spfs_entity.fixed, hf]) (by decide)
    exact runs_playlists_dir_readdir hreaddir rfl (by decide)
  | playlist_dir_meta_readdir => exact runs_playlist_dir_meta_readdir hholds
  | playlist_dir_music_readdir => exact runs_playlist_dir_music_readdir huri hholds
  | artists_readdir => exact runs_artists_readdir hholds
  | albums_readdir => exact runs_albums_readdir hholds
  | portraits_readdir => exact runs_portraits_readdir hreaddir
  | search_readdir => exact Runs.ret hi trivial

/-- Whatever is at the path is listed. -/
lemma runs_spfs_readdir (huri : strict → links.Uris) (path : gstr) :
    Runs strict links (spfs_readdir links path) s fun _ _ => True := by
  unfold spfs_readdir
  refine Runs.read rfl fun s₁ o root hi₁ hg₁ he₁ => ?_
  obtain rfl : some 0 = root := hi₁.wf.tree.root.symm.trans (value_eq he₁)
  refine Runs.read rfl fun s₂ o found hi₂ hg₂ he₂ => ?_
  rcases found with _ | e
  · exact Runs.ret hi₂ trivial
  · obtain ⟨cs, hcs⟩ := exists_walk_of_find_path (Heap.walk_nil s₂.heap 0) (value_eq he₂)
    refine Runs.read (i := .entity e) rfl fun s₃ o ent hi₃ hg₃ he₃ => ?_
    obtain ⟨ent', hget, hent⟩ := Option.map_eq_some_iff.mp he₃
    obtain rfl : ent' = ent := Option.some.inj (Prod.mk.inj hent).1
    rcases hf : ent'.readdir with _ | f
    · exact Runs.ret hi₃ trivial
    · exact runs_readdir_prog huri hi₃ hget hf ⟨cs, hg₃.heap.walk hcs⟩

/-! ## Searches -/

/-- A search calls back. -/
lemma runs_track_search_complete_cb (huri : strict → links.Uris) (search : sp_search) {e : Ptr}
    (he : s.heap.readdir e = some .search_readdir) :
    Runs strict links (track_search_complete_cb links search e) s fun _ _ => True := by
  have hholds : s.Holds e .search_readdir := ⟨he, fun hne => absurd rfl hne⟩
  unfold track_search_complete_cb
  refine Runs.read rfl fun s₁ o num_tracks hi₁ hg₁ _ => ?_
  refine Runs.forEach hi₁ fun i _ s₂ hi₂ hg₂ => ?_
  refine Runs.read rfl fun s₃ o track hi₃ hg₃ _ => ?_
  refine Runs.read rfl fun s₄ o trackname hi₄ hg₄ _ => ?_
  refine Runs.read rfl fun s₅ o artist hi₅ hg₅ _ => ?_
  refine Runs.read rfl fun s₆ o artistname hi₆ hg₆ _ => ?_
  have hg := ((((hg₁.trans hg₂).trans hg₃).trans hg₄).trans hg₅).trans hg₆
  exact runs_create_wav_track_link_in_directory huri (hholds.mono hg) rfl _ track

/-- A search is started. -/
lemma runs_search_dir_mkdir (dirname : gstr) :
    Runs strict links (search_dir_mkdir 6 dirname) s fun _ _ => True := by
  unfold search_dir_mkdir
  refine Runs.read rfl fun s₁ o has hi₁ hg₁ _ => ?_
  rcases has with _ | _
  · refine Runs.call (i := .dir_create dirname ⟨some .search_readdir, none⟩) rfl ?_
    rintro s₂ o e s₃ hi₂ hg₂ - - he₂ hi₃ hg₃
    have hsearch : s₃.heap.readdir e = some .search_readdir := by
      obtain rfl : s₂.heap.fresh = e := value_eq he₂
      obtain rfl := state_eq he₂
      show Heap.readdir (s₂.heap.alloc _) s₂.heap.fresh = _
      rw [Heap.readdir, Heap.get_alloc, if_pos rfl]
      rfl
    apply Runs.call (i := .search_create dirname e) hsearch
    rintro s₄ o search s₅ hi₄ hg₄ - - - hi₅ hg₅
    have hsearch₅ := (hg₄.trans hg₅).heap.readdir hsearch
    apply Runs.call (i := .set_auxdata e (.search search)) hsearch₅
    rintro s₆ o _ s₇ hi₆ hg₆ - - - hi₇ hg₇
    apply Runs.call (i := .add_child 6 e) ⟨rfl, (hg₆.trans hg₇).heap.readdir hsearch₅⟩
    rintro s₈ o _ s₉ hi₈ hg₈ - - - hi₉ hg₉
    exact Runs.ret hi₉ trivial
  · exact Runs.ret hi₁ trivial

/-- A directory is made. -/
lemma runs_spfs_mkdir (parent_dirname new_dirname : gstr) :
    Runs strict links (spfs_mkdir parent_dirname new_dirname) s fun _ _ => True := by
  unfold spfs_mkdir
  refine Runs.read rfl fun s₁ o root hi₁ hg₁ _ => ?_
  refine Runs.read rfl fun s₂ o found hi₂ hg₂ _ => ?_
  rcases found with _ | parent
  · exact Runs.ret hi₂ trivial
  · refine Runs.read (i := .entity parent) rfl fun s₃ o ent hi₃ hg₃ he₃ => ?_
    obtain ⟨ent', hget, hent⟩ := Option.map_eq_some_iff.mp he₃
    obtain rfl : ent' = ent := Option.some.inj (Prod.mk.inj hent).1
    by_cases hdir : ent'.e.children.isNone
    · rw [if_pos hdir]
      exact Runs.ret hi₃ trivial
    rw [if_neg hdir]
    rcases hm : ent'.mkdir with _ | ⟨⟩
    · exact Runs.ret hi₃ trivial
    · obtain ⟨hlt, e₀, he₀, halike⟩ := hi₃.wf.init_of_fixed hget (by simp [spfs_entity.fixed, hm])
      have hunique : ∀ p < 10, (spfs_init_heap.get p).bind spfs_entity.mkdir ≠ none → p = 6 := by
        decide
      obtain rfl : parent = 6 := by
        apply hunique parent hlt
        rw [he₀, Option.bind_some, ← halike.mkdir, hm]
        exact Option.some_ne_none _
      exact runs_search_dir_mkdir new_dirname

/-! ## Every run -/

/-- Every operation keeps to the terms. -/
lemma mount_disciplined (huri : strict → links.Uris) :
    (mount_system links).Disciplined (mount_discipline strict) where
  stable _ _ _ _ _ h := h
  start := by
    intro t call s hi _ hmay _
    have hruns : Runs strict links (call.prog links) s fun _ _ => True := by
      cases call with
      | readdir path => exact runs_spfs_readdir huri path
      | mkdir parent_dirname new_dirname =>
        exact (runs_spfs_mkdir parent_dirname new_dirname).bind fun _ _ hi _ _ =>
          Runs.ret hi trivial
      | search_complete search entity =>
        have hi : s.Inv strict := hi
        have hmem : (search, entity) ∈ s.searches := of_decide_eq_true hmay
        exact runs_track_search_complete_cb huri search (hi.wf.searches _ hmem)
    exact (hruns t).mono fun _ _ _ => trivial

end Programs

/-- The file system after `spfs_init` keeps the invariants. -/
lemma Mount.init_inv (strict : Prop) : Mount.init.Inv strict := by
  have hlt : ∀ p e, spfs_init_heap.get p = some e → p < 10 := fun p e he =>
    Heap.lt_fresh_of_get he
  refine ⟨⟨init_tree_placed.1, init_tree_placed.2, .refl _, fun p e he _ => hlt p e he, ?_, nofun,
    nofun, nofun⟩, fun _ => ⟨?_, nofun, nofun⟩⟩
  · intro d hd
    obtain ⟨e, he, -⟩ := Option.bind_eq_some_iff.mp hd
    have hnone : ∀ p < 10, spfs_init_heap.browses p ≠ some .track := by decide
    exact absurd hd (hnone d (hlt d e he))
  · intro p name hp
    obtain ⟨e, he, -⟩ := Option.bind_eq_some_iff.mp hp
    have hnormal : ∀ p < 10, ∀ name ∈ spfs_init_heap.name p,
        name ≠ ".".toList ∧ name ≠ "..".toList := by decide
    exact hnormal p (hlt p e he) name hp

/-- A step that is in order and meets the assumptions keeps to the terms. -/
lemma mount_ok {strict : Prop} {w : World MountInstr Mount ℕ} {a : Action ℕ MountCall Spotify}
    (hok : strict → w.Executes MountInstr.Assumed a ∧ w.Executes MountInstr.InOrder a) :
    (mount_discipline strict).Ok w a := by
  refine ⟨?_, World.executes_iff.mpr ?_⟩
  · rcases a with ⟨_, _⟩ | ⟨_, _⟩ <;> trivial
  · intro t o γ i k ha hprog hs
    obtain ⟨hassumed, horder⟩ := hok hs
    exact ⟨World.executes_iff.mp hassumed t o γ i k ha hprog,
      World.executes_iff.mp horder t o γ i k ha hprog⟩

/-- In every state that is reached the invariants hold, and every thread goes on to keep them. -/
lemma mount_sound {strict : Prop} {links : SpotifyLinks} (huri : strict → links.Uris)
    {l : List (World MountInstr Mount ℕ × Action ℕ MountCall Spotify)}
    {w : World MountInstr Mount ℕ} (hl : Trace (mount_system links) (World.idle Mount.init) l w)
    (hok : strict → ∀ p ∈ l, p.1.Executes MountInstr.Assumed p.2 ∧
      p.1.Executes MountInstr.InOrder p.2) :
    w.Sound (mount_system links) (mount_discipline strict) :=
  hl.sound (mount_disciplined huri) (World.sound_idle (Mount.init_inv strict) fun _ => trivial)
    fun p hp => mount_ok fun hs => hok hs p hp

/-- The invariants hold in every state of every run: the second, if every step of the run is in
order and meets the assumptions. -/
theorem mount_inv {strict : Prop} {links : SpotifyLinks} (huri : strict → links.Uris)
    {l : List (World MountInstr Mount ℕ × Action ℕ MountCall Spotify)}
    {w : World MountInstr Mount ℕ} (hl : Trace (mount_system links) (World.idle Mount.init) l w)
    (hok : strict → ∀ p ∈ l, p.1.Executes MountInstr.Assumed p.2 ∧
      p.1.Executes MountInstr.InOrder p.2) : w.shared.Inv strict :=
  (mount_sound huri hl hok).inv

/-- From every state that is reached the entities only grow, whatever the threads do. -/
theorem mount_grows {links : SpotifyLinks}
    {l l' : List (World MountInstr Mount ℕ × Action ℕ MountCall Spotify)}
    {w w' : World MountInstr Mount ℕ}
    (hl : Trace (mount_system links) (World.idle Mount.init) l w)
    (hl' : Trace (mount_system links) w l' w') : w.shared.Grows w'.shared :=
  hl'.relied (R := Mount.Grows) (mount_disciplined False.elim) .refl Mount.Grows.trans
    (fun _ _ _ h => h) (fun t => ⟨t + 1, Nat.succ_ne_self t⟩) (mount_sound False.elim hl False.elim)
    fun _ _ => mount_ok False.elim

end Spotifile
