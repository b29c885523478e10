import Spotifile.Layout
import Spotifile.Links

/-!
# No operation of the mounted file system goes wrong

`Fills p s Q`: the program `p`, started in the state `s`, keeps the entities typed, adds entries
only to directories in `F`, and, if `strict`, never reads through NULL; then it ends with `Q`. Every
program of the file system gets one such lemma. Three results about whole runs follow.

* `mount_typed`: in every state, the functions behind the files and directories find what they
  expect, and every browse directory holds the entries it was created with.
* `mount_not_stuck`: if libspotify never answers NULL where the code does not test for it, no thread
  ever reads through NULL, or through a pointer to no entity.
* `mount_leaves`: a directory that no thread looks up, and no search calls back for, keeps its
  table.
-/

namespace Spotifile

open Lib

/-- What is typed, and well formed. -/
structure Mount.Laid (s : Mount) : Prop where
  wf : s.Wf
  typed : s.heap.Typed

/-- What is known of the mounted file system: it stays well formed, and grows. -/
def mount_guard (strict : Prop) : Guard Mount Spotify where
  choice o := strict → o.Loaded
  moves s s' := s'.Wf ∧ s.Grows s'
  strict := strict
  stuck := ⟨⟨[], none⟩, [], [], []⟩

/-- What a thread looks up is in `F`. -/
def MountInstr.FoundIn (F : Set Ptr) : {γ : Type} → MountInstr γ → Mount → Prop
  | _, .find_path root path, s =>
    ∀ p, (root.bind fun root => spfs_entity_find_path s.heap root path) = some p → p ∈ F
  | _, _, _ => True

/-- The directory of a search that calls back is in `F`. -/
def MountCall.CalledIn (F : Set Ptr) : MountCall → Prop
  | .search_complete _ entity => entity ∈ F
  | _ => True

/-- The terms of the second layer. -/
def layout_discipline (F : Set Ptr) : Discipline MountInstr Mount ℕ MountCall where
  inv := Mount.Laid
  rely _ := Mount.Leaves F
  idle _ _ := True
  ok i s := i.FoundIn F s
  okStart _ call _ := call.CalledIn F

/-- The program keeps to these terms and ends with `Q`. -/
def Fills (strict : Prop) (F : Set Ptr) (links : SpotifyLinks) {α : Type} (p : MountProg α)
    (s : Mount) (Q : α → Mount → Prop) : Prop :=
  ∀ t, Prog.Safe ((mount_system links).guarded (mount_guard strict)) (layout_discipline F) t
    (fun a s' => s'.Laid ∧ s.Leaves F s' ∧ Q a s') p s

namespace Fills

variable {strict : Prop} {F : Set Ptr} {links : SpotifyLinks} {α β γ : Type} {s : Mount}

/-- A program that is over has filled what it had to. -/
lemma ret {a : α} {Q : α → Mount → Prop} (hs : s.Laid) (hQ : Q a s) :
    Fills strict F links (.ret a) s Q :=
  fun _ => ⟨hs, .refl s, hQ⟩

/-- The second program begins with what the first ends with. -/
lemma bind {p : MountProg α} {q : α → MountProg β} {R : α → Mount → Prop} {Q : β → Mount → Prop}
    (hp : Fills strict F links p s R)
    (hq : ∀ a s₁, s₁.Laid → s.Leaves F s₁ → R a s₁ → Fills strict F links (q a) s₁ Q) :
    Fills strict F links (p >>= q) s Q := by
  intro t
  apply (hp t).bind
  rintro a s₁ ⟨hs₁, hl, hR⟩
  apply (hq a s₁ hs₁ hl hR t).mono
  rintro b s₂ ⟨hs₂, hl₂, hQ⟩
  exact ⟨hs₂, hl.trans hl₂, hQ⟩

/-- An instruction under its precondition. -/
lemma call {i : MountInstr γ} {k : γ → MountProg α} {Q : α → Mount → Prop}
    (hp : i.Proper strict F s)
    (hk : ∀ s₁ o v s₂, s₁.Laid → s.Leaves F s₁ → i.FoundIn F s₁ → (strict → o.Loaded) →
      i.exec o s₁ = some (some v, s₂) → s₂.Laid → s₁.Leaves F s₂ →
      Fills strict F links (k v) s₂ Q) :
    Fills strict F links (Prog.of i >>= k) s Q := by
  intro t
  rw [Prog.of_bind]
  refine .guarded (fun s₁ => s.Leaves F s₁ ∧ i.Proper strict F s₁) ⟨.refl s, hp⟩ ?_ ?_ ?_
  · rintro s₁ s₂ - hl ⟨hls, hp₁⟩
    exact ⟨hls.trans hl, hp₁.stable hl⟩
  · rintro hstrict s₁ o - ⟨-, hp₁⟩ - -
    exact exec_ne_none hstrict hp₁ o
  · rintro s₁ o r s₂ hs₁ ⟨hls, hp₁⟩ hfound ho ⟨hw₂, hg⟩ he
    obtain ⟨ht₂, hl₂, hr⟩ := exec_typed hs₁.typed hs₁.wf hw₂ hp₁ hg he
    refine ⟨⟨hw₂, ht₂⟩, fun _ _ => hl₂, fun hnone => absurd hnone hr, ?_⟩
    rintro v rfl
    apply (hk s₁ o v s₂ hs₁ hls hfound ho he ⟨hw₂, ht₂⟩ hl₂ t).mono
    rintro b s₃ ⟨hs₃, hl₃, hQ⟩
    exact ⟨hs₃, (hls.trans hl₂).trans hl₃, hQ⟩

/-- An instruction that changes nothing. -/
lemma read {i : MountInstr γ} {k : γ → MountProg α} {Q : α → Mount → Prop} (hi : i.writes = false)
    (hp : i.Proper strict F s)
    (hk : ∀ s₁ o v, s₁.Laid → s.Leaves F s₁ → i.FoundIn F s₁ → (strict → o.Loaded) →
      i.exec o s₁ = some (some v, s₁) → Fills strict F links (k v) s₁ Q) :
    Fills strict F links (Prog.of i >>= k) s Q := by
  apply call hp
  rintro s₁ o v s₂ hs₁ hl hfound ho he - -
  obtain rfl := i.eq_of_reads hi he
  exact hk s₂ o v hs₁ hl hfound ho he

/-- An entity that is there is read. -/
lemma entity {p : Ptr} {k : spfs_entity → MountProg α} {Q : α → Mount → Prop}
    (hp : p < s.heap.fresh)
    (hk : ∀ s₁ e, s₁.Laid → s.Leaves F s₁ → s₁.heap.get p = some e →
      Fills strict F links (k e) s₁ Q) :
    Fills strict F links (Prog.of (.entity p) >>= k) s Q := by
  refine read (i := .entity p) rfl hp fun s₁ o v hs₁ hl _ _ he => ?_
  obtain ⟨e, hget, heq⟩ := Option.map_eq_some_iff.mp he
  obtain rfl : e = v := Option.some.inj (Prod.mk.inj heq).1
  exact hk s₁ e hs₁ hl hget

/-- The root is read, and what is at a path is found. -/
lemma find {path : gstr} {k : Option Ptr → MountProg α} {Q : α → Mount → Prop}
    (hk : ∀ s₁ found, s₁.Laid → s.Leaves F s₁ → spfs_entity_find_path s₁.heap 0 path = found →
      (∀ p, found = some p → p ∈ F) → Fills strict F links (k found) s₁ Q) :
    Fills strict F links
      (Prog.of .root_get >>= fun root => Prog.of (.find_path root path) >>= k) s Q := by
  refine read rfl trivial fun s₁ o root hs₁ hl₁ _ _ he₁ => ?_
  obtain rfl : some 0 = root := hs₁.wf.tree.root.symm.trans (value_eq he₁)
  refine read (i := .find_path (some 0) path) rfl trivial
    fun s₂ o found hs₂ hl₂ hfound _ he₂ => ?_
  obtain rfl : spfs_entity_find_path s₂.heap 0 path = found := value_eq he₂
  exact hk s₂ _ hs₂ (hl₁.trans hl₂) rfl hfound

/-- The last instruction of a program. -/
lemma last {i : MountInstr Unit} (hp : i.Proper strict F s) :
    Fills strict F links (Prog.of i) s fun _ _ => True := by
  have hof : Prog.of i = Prog.of i >>= Prog.ret := rfl
  rw [hof]
  apply call hp
  rintro s₁ o v s₂ - - - - - hs₂ -
  exact ret hs₂ trivial

/-- Reading through a pointer that is not NULL. -/
lemma deref {p : Option γ} {k : γ → MountProg α} {Q : α → Mount → Prop}
    (hp : strict → p ≠ none) (hk : ∀ a, p = some a → Fills strict F links (k a) s Q) :
    Fills strict F links (Spotifile.deref p >>= k) s Q := by
  rcases p with _ | a
  · intro t
    refine .guarded (fun _ => True) trivial (fun _ _ _ _ h => h) ?_ ?_
    · intro hstrict
      exact absurd rfl (hp hstrict)
    · rintro s₁ o r s₂ - - - - - he
      cases he
  · exact hk a rfl

/-- A loop whose body keeps to the terms. -/
lemma forEach {l : List β} {p : β → MountProg Unit} (hs : s.Laid)
    (hp : ∀ b ∈ l, ∀ s₁, s₁.Laid → s.Leaves F s₁ → Fills strict F links (p b) s₁ fun _ _ => True) :
    Fills strict F links (Prog.forEach l p) s fun _ _ => True := by
  induction l generalizing s with
  | nil => exact ret hs trivial
  | cons b l ih =>
    rw [Prog.forEach_cons]
    apply bind (hp b List.mem_cons_self s hs (.refl s))
    intro _ s₁ hs₁ hl₁ _
    apply ih hs₁
    intro b' hb' s₂ hs₂ hl₂
    exact hp b' (List.mem_cons_of_mem b hb') s₂ hs₂ (hl₁.trans hl₂)

end Fills

/-! ## Browse directories -/

section Programs

variable {strict : Prop} {F : Set Ptr} {links : SpotifyLinks} {s : Mount}

/-- The rule for a file in a browse directory. -/
lemma fileRule_of_within {p : Ptr} {dir x : spfs_entity} {f : SpfsReadFunc} {k : BrowseKind}
    (hk : f.within = some k) (hdir : dir.browses = some k)
    (hwav : f = .wav_read → x.auxdata = dir.auxdata) : FileRule p dir x f where
  within k' hk' := by rw [hdir, ← hk, hk']
  listed g hg := by
    have hnone : f.listed = none := by cases f <;> first | rfl | cases hk
    rw [hnone] at hg
    cases hg
  wav := hwav
  image hf := by
    rw [hf] at hk
    cases hk
  connection hf := by
    rw [hf] at hk
    cases hk

/-- The files among the entries of a browse directory. -/
lemma within_of_entries {auxdata : Auxdata} {k : BrowseKind} (hk : auxdata.kind = some k)
    {x : spfs_entity} (hx : x ∈ auxdata.entries) {f : SpfsReadFunc} (hf : x.read = some f) :
    f.within = some k ∧ (f = .wav_read → x.auxdata = some auxdata) := by
  have hfile : ∀ name g, (read_file name g).read = some g := fun _ _ => rfl
  have hdir : ∀ name ops, (spfs_entity_dir_create name ops).read = none := fun _ _ => rfl
  have hwav : ∀ name t, (create_track_wav_file name t).read = some .wav_read := fun _ _ => rfl
  have haux : ∀ name t, (create_track_wav_file name t).auxdata = some (.track t) := fun _ _ => rfl
  cases auxdata with
  | track t =>
    obtain rfl : .track = k := Option.some.inj hk
    simp only [Auxdata.entries, track_dir_entries, List.mem_cons, List.not_mem_nil, or_false] at hx
    rcases hx with rfl | rfl | rfl | rfl | rfl | rfl | rfl | rfl | rfl | rfl | rfl <;>
      first
      | (rw [hfile] at hf
         obtain rfl := Option.some.inj hf
         exact ⟨rfl, by rintro ⟨⟩⟩)
      | (rw [hwav] at hf
         obtain rfl := Option.some.inj hf
         exact ⟨rfl, fun _ => haux _ t⟩)
      | (rw [hdir] at hf
         cases hf)
  | artistbrowse ab =>
    obtain rfl : .artist = k := Option.some.inj hk
    simp only [Auxdata.entries, artist_dir_entries, List.mem_cons, List.not_mem_nil, or_false] at hx
    rcases hx with rfl | rfl | rfl | rfl <;>
      first
      | (rw [hfile] at hf
         obtain rfl := Option.some.inj hf
         exact ⟨rfl, by rintro ⟨⟩⟩)
      | (rw [hdir] at hf
         cases hf)
  | album a =>
    obtain rfl : .album = k := Option.some.inj hk
    simp only [Auxdata.entries, album_dir_entries, List.mem_cons, List.not_mem_nil, or_false] at hx
    rcases hx with rfl | rfl <;>
      · rw [hfile] at hf
        obtain rfl := Option.some.inj hf
        exact ⟨rfl, by rintro ⟨⟩⟩
  | playlist _ | image _ | search _ => cases hk

/-- The entries of `auxdata` are those of its kind. -/
lemma browseEntries_of_kind {auxdata : Auxdata} {k : BrowseKind} (hk : auxdata.kind = some k) :
    BrowseEntries k auxdata.entries := by
  cases auxdata with
  | track t =>
    obtain rfl : .track = k := Option.some.inj hk
    exact browseEntries_track t
  | artistbrowse ab =>
    obtain rfl : .artist = k := Option.some.inj hk
    exact browseEntries_artist
  | album a =>
    obtain rfl : .album = k := Option.some.inj hk
    exact browseEntries_album
  | playlist _ | image _ | search _ => cases hk

/-- No two entries of a browse directory have the same name. -/
lemma named_entries (auxdata : Auxdata) : Named auxdata.entries := by
  have hall : ∀ (names : List (Option gstr)) (entries : List spfs_entity),
      entries.map spfs_entity.name = names → names.Nodup → none ∉ names → some [] ∉ names →
      Named entries := by
    rintro _ entries rfl hnodup hnone hnil
    refine ⟨hnodup, fun x hx => ⟨fun heq => hnone ?_, fun heq => hnil ?_⟩⟩
    · exact List.mem_map.mpr ⟨x, hx, heq⟩
    · exact List.mem_map.mpr ⟨x, hx, heq⟩
  cases auxdata with
  | track t =>
    exact hall [some "name".toList, some "track.wav".toList, some "duration".toList,
      some "popularity".toList, some "index".toList, some "disc".toList, some "starred".toList,
      some "local".toList, some "autolinked".toList, some "offlinestatus".toList,
      some "artists".toList] _ rfl (by decide) (by decide) (by decide)
  | artistbrowse ab =>
    exact hall [some "name".toList, some "biography".toList, some "albums".toList,
      some "portraits".toList] _ rfl (by decide) (by decide) (by decide)
  | album a =>
    exact hall [some "name".toList, some "cover.jpg".toList] _ rfl (by decide) (by decide)
      (by decide)
  | playlist _ | image _ | search _ => exact hall [] _ rfl .nil (by simp) (by simp)

/-- A new browse directory fits in the directory of its kind. -/
lemma fitsIn_browse_dir (hw : s.Wf) {name : gstr} {auxdata : Auxdata} {k : BrowseKind}
    (hk : auxdata.kind = some k) :
    FitsIn s.heap k.base (browse_dir_create name auxdata) auxdata.entries where
  playlist f hf := by cases hf
  playlists x hx f hf hpl := by
    have hhome := ((browseEntries_of_kind hk).entry x hx).home f hf
    rcases hpl with rfl | rfl
    · cases hhome
    · cases hhome
  file f up hf := by cases hf
  files x hx f p hf := by
    obtain ⟨hwithin, hwav⟩ := within_of_entries hk hx hf
    exact fileRule_of_within hwithin (browses_browse_dir_create hk) hwav
  browse _ := by
    refine ⟨named_entries auxdata, fun auxdata' haux => ?_⟩
    obtain rfl : auxdata = auxdata' := Option.some.inj haux
    rfl
  outside := by
    rw [hw.init.alike.browses_eq (by cases k <;> decide)]
    cases k <;> decide

/-- The three `create_.._browse_dir`. -/
lemma fills_create_browse_dir {k : BrowseKind} {path : gstr} {link : Option gstr}
    {create : gstr → MountProg (spfs_entity × List spfs_entity)}
    (hpath : spfs_entity_find_path spfs_init_heap 0 path = some k.base)
    (hcreate : ∀ linkstring s₁, s₁.Laid → Fills strict F links (create linkstring) s₁
      fun new _ => ∃ auxdata : Auxdata, auxdata.kind = some k ∧
        new = (browse_dir_create linkstring auxdata, auxdata.entries)) :
    Fills strict F links (create_browse_dir path link create) s fun _ _ => True := by
  unfold create_browse_dir
  refine Fills.find fun s₂ found hs₂ hl₂ hfind hfound => ?_
  have hwalk : spfs_init_heap.walk 0 [] = some 0 := rfl
  have hbase := hs₂.wf.init.find_path init_tree_placed.1 hwalk hpath
  obtain rfl : some k.base = found := hbase.symm.trans hfind
  have hmem : k.base ∈ F := hfound k.base rfl
  rcases link with _ | linkstring
  · exact Fills.ret hs₂ trivial
  refine Fills.deref (fun _ => Option.some_ne_none _) fun dir hdir => ?_
  obtain rfl := Option.some.inj hdir
  refine Fills.read rfl (hs₂.wf.children_base k) fun s₃ o has hs₃ hl₃ _ _ he₃ => ?_
  rcases has with _ | _
  · apply Fills.bind (hcreate linkstring s₃ hs₃)
    rintro _ s₄ hs₄ hl₄ ⟨auxdata, hk, rfl⟩
    refine Fills.call ⟨hmem, newEntity_browse_dir hs₄.wf hk (browseEntries_of_kind hk),
      fitsIn_browse_dir hs₄.wf hk⟩ ?_
    rintro s₅ o dir s₆ - - - - - hs₆ -
    exact Fills.ret hs₆ trivial
  · have hof : (Prog.of (.get_child k.base linkstring) : MountProg (Option Ptr)) =
        Prog.of (.get_child k.base linkstring) >>= Prog.ret := rfl
    rw [if_pos rfl, hof]
    exact Fills.read rfl (hs₃.wf.children_base k) fun s₄ o r hs₄ _ _ _ _ => Fills.ret hs₄ trivial

/-- The browse directory of a track. -/
lemma fills_create_track_browse_dir (track : sp_track) :
    Fills strict F links (create_track_browse_dir links track) s fun _ _ => True :=
  fills_create_browse_dir (k := .track) (by decide) fun _ _ hs₁ =>
    .ret hs₁ ⟨.track track, rfl, rfl⟩

/-- The browse directory of an artist. -/
lemma fills_create_artist_browse_dir (artist : sp_artist) :
    Fills strict F links (create_artist_browse_dir links artist) s fun _ _ => True :=
  fills_create_browse_dir (k := .artist) (by decide) fun _ _ _ =>
    .read rfl trivial fun _ _ ab hs₂ _ _ _ _ => .ret hs₂ ⟨.artistbrowse ab, rfl, rfl⟩

/-- The browse directory of an album. -/
lemma fills_create_album_browse_dir (album : sp_album) :
    Fills strict F links (create_album_browse_dir links album) s fun _ _ => True :=
  fills_create_browse_dir (k := .album) (by decide) fun _ _ hs₁ =>
    .ret hs₁ ⟨.album album, rfl, rfl⟩

/-! ## Links -/

/-- A directory with a `readdir` is no browse directory. -/
lemma browses_of_readdir {h : Heap} {p : Ptr} {f : SpfsReaddirFunc} (hf : h.readdir p = some f) :
    h.browses p = none := by
  obtain ⟨e, he, hreaddir⟩ := Option.bind_eq_some_iff.mp hf
  rw [Heap.browses, he, Option.bind_some]
  rcases hk : e.browses with _ | k
  · rfl
  · rw [spfs_entity.readdir_of_browses hk] at hreaddir
    cases hreaddir

/-- What has a `readdir` is there. -/
lemma lt_fresh_of_readdir {h : Heap} {p : Ptr} {f : SpfsReaddirFunc} (hf : h.readdir p = some f) :
    p < h.fresh := by
  obtain ⟨e, he, -⟩ := Option.bind_eq_some_iff.mp hf
  exact Heap.lt_fresh_of_get he

/-- A new link fits in a directory with a `readdir`. -/
lemma fitsIn_link {h : Heap} {dir : Ptr} {f : SpfsReaddirFunc} (hf : h.readdir dir = some f)
    (name : gstr) : FitsIn h dir (spfs_entity_link_create name) [] where
  playlist f hf := by cases hf
  playlists := by simp
  file f up hf := by cases hf
  files := by simp
  browse hk := absurd rfl hk
  outside := browses_of_readdir hf

/-- A link in a directory of `F`. -/
lemma fills_create_link {dir : Ptr} {f : SpfsReaddirFunc} (hs : s.Laid) (hdir : s.Holds dir f)
    (hmem : dir ∈ F) (name : gstr) (goal : Option Goal) (dst : Option Ptr) :
    Fills strict F links (create_link dir name goal dst) s fun _ _ => True := by
  unfold create_link
  refine Fills.call ⟨hmem, newEntity_link hs.wf hdir name, fitsIn_link hdir.readdir name⟩ ?_
  rintro s₁ o link s₂ - - - - - - -
  refine Fills.call (i := .relpath dir dst) trivial ?_
  rintro s₃ o rpath s₄ - - - - - - -
  exact Fills.last trivial

/-- A directory that is held goes on to be. -/
lemma Mount.Holds.leaves {s' : Mount} {dir : Ptr} {f : SpfsReaddirFunc} (hd : s.Holds dir f)
    (hl : s.Leaves F s') : s'.Holds dir f := hd.mono hl.grows

/-- A link, where there is no entry of that name. -/
lemma fills_link_unless_there {dir : Ptr} {f : SpfsReaddirFunc} (hdir : s.Holds dir f)
    (hmem : dir ∈ F) (name : gstr) (goal : Option Goal) (dst : Option Ptr) :
    Fills strict F links (do
      let has ← .of (.has_child dir name)
      if has then .ret () else create_link dir name goal dst) s fun _ _ => True := by
  refine Fills.read rfl (children_of_readdir hdir.readdir) fun s₁ o has hs₁ hl₁ _ _ _ => ?_
  rcases has with _ | _
  · exact fills_create_link hs₁ (hdir.leaves hl₁) hmem name goal dst
  · exact Fills.ret hs₁ trivial

/-- A link to a recording in a directory of `F`. -/
lemma fills_create_wav_track_link_in_directory {dir : Ptr} {f : SpfsReaddirFunc}
    (hdir : s.Holds dir f) (hmem : dir ∈ F) (linkname : gstr) (track : sp_track) :
    Fills strict F links (create_wav_track_link_in_directory links dir linkname track) s
      fun _ _ => True := by
  unfold create_wav_track_link_in_directory
  refine Fills.read rfl (children_of_readdir hdir.readdir) fun s₁ o has hs₁ hl₁ _ _ _ => ?_
  rcases has with _ | _
  · apply Fills.bind (fills_create_track_browse_dir track)
    intro track_browse_dir s₂ hs₂ hl₂ _
    refine Fills.read rfl trivial fun s₃ o track_wav hs₃ hl₃ _ _ _ => ?_
    exact fills_create_link hs₃ (hdir.leaves ((hl₁.trans hl₂).trans hl₃)) hmem linkname _ _
  · exact Fills.ret hs₁ trivial

/-! ## Listing -/

/-- The `auxdata` of the parent is what the `readdir` expects. -/
lemma fills_parent_auxdata {e : Ptr} {f : SpfsReaddirFunc} {k : BrowseKind}
    (he : s.Holds e f) (hf : f ≠ .search_readdir) (hk : f.within = some k) :
    Fills strict F links (parent_auxdata e) s fun auxdata _ =>
      ∃ a, auxdata = some a ∧ a.kind = some k := by
  unfold parent_auxdata
  refine Fills.entity (lt_fresh_of_readdir he.readdir) fun s₁ ent hs₁ hl₁ hent => ?_
  have he₁ := he.leaves hl₁
  have hreaddir : ent.readdir = some f := by simpa [Heap.readdir, hent] using he₁.readdir
  obtain ⟨p, hp⟩ : ∃ p, ent.parent = some p := by
    rw [← Option.ne_none_iff_exists']
    intro hnone
    obtain ⟨cs, hcs⟩ := he₁.place hf
    rcases hs₁.wf.tree.walk_cases hcs with ⟨-, rfl⟩ | ⟨cs, c, p, -, -, -, -, hp, -⟩
    · have hroot : s₁.heap.readdir 0 = none := hs₁.wf.init.alike.readdir_eq (by decide)
      exact Option.some_ne_none f (he₁.readdir.symm.trans hroot)
    · rw [Heap.parent, hent, Option.bind_some, hnone] at hp
      cases hp
  have hparent : s₁.heap.parent e = some p := by rw [Heap.parent, hent, Option.bind_some, hp]
  have hbrowses : s₁.heap.browses p = some k :=
    (hs₁.wf.placed e ent p hent hp).within f k hreaddir hk
  have hlt : p < s₁.heap.fresh :=
    (hs₁.wf.tree.child e p hparent).1.trans (Heap.lt_fresh_of_get hent)
  refine Fills.deref (fun _ => by simp [hp]) fun parent heq => ?_
  obtain rfl : p = parent := Option.some.inj (hp.symm.trans heq)
  refine Fills.entity hlt fun s₂ up hs₂ hl₂ hup => Fills.ret hs₂ ?_
  have hkind : up.browses = some k := by
    simpa [Heap.browses, hup] using hl₂.grows.browses hbrowses
  rw [spfs_entity.browses] at hkind
  split at hkind
  · exact Option.bind_eq_some_iff.mp hkind
  · cases hkind

/-- The `auxdata` of the directory of a playlist. -/
lemma Mount.Laid.playlist (hs : s.Laid) {e : Ptr} {ent : spfs_entity} {f : SpfsReaddirFunc}
    (he : s.Holds e f) (hf : f.OfPlaylist) (hent : s.heap.get e = some ent) :
    ent.auxdata.bind auxdata_playlist ≠ none := by
  have hreaddir : ent.readdir = some f := by simpa [Heap.readdir, hent] using he.readdir
  obtain ⟨pl, hpl⟩ := hs.typed.playlist e ent f hent hreaddir hf
  rw [hpl]
  exact Option.some_ne_none _

/-- A playlist is listed by its tracks. -/
lemma fills_playlist_dir_meta_readdir {e : Ptr} (he : s.Holds e .playlist_dir_meta_readdir)
    (hmem : e ∈ F) :
    Fills strict F links (playlist_dir_meta_readdir links e) s fun _ _ => True := by
  unfold playlist_dir_meta_readdir
  refine Fills.entity (lt_fresh_of_readdir he.readdir) fun s₁ ent hs₁ hl₁ hent => ?_
  refine Fills.deref (fun _ => hs₁.playlist (he.leaves hl₁) (.inl rfl) hent) fun pl _ => ?_
  refine Fills.read rfl trivial fun s₂ o tracks hs₂ hl₂ _ ho he₂ => ?_
  refine Fills.deref (fun h => value_eq he₂ ▸ (ho h).2 pl) fun tracks _ => ?_
  refine Fills.forEach hs₂ fun track _ s₃ hs₃ hl₃ => ?_
  refine Fills.read rfl trivial fun s₄ o trackname hs₄ hl₄ _ _ _ => ?_
  refine Fills.bind (fills_create_track_browse_dir track) fun r s₅ hs₅ hl₅ _ => ?_
  have hl := (((hl₁.trans hl₂).trans hl₃).trans hl₄).trans hl₅
  exact fills_link_unless_there (he.leaves hl) hmem trackname _ _

/-- A new file fits in the directory that lists it. -/
lemma fitsIn_file {h : Heap} {dir : Ptr} {g : SpfsReaddirFunc} {name : gstr} {f : SpfsReadFunc}
    {auxdata : Option Auxdata} (hdir : h.readdir dir = some g) (hg : f.listed = some g)
    (himage : f = .portrait_read → ∃ image, auxdata = some (.image image)) :
    FitsIn h dir { read_file name f with auxdata := auxdata } [] where
  playlist g' hg' := by cases hg'
  playlists := by simp
  file f' up hf' hup := by
    obtain rfl : f = f' := Option.some.inj hf'
    have hup' : up.readdir = some g := by simpa [Heap.readdir, hup] using hdir
    refine ⟨fun k hk => ?_, fun g' hg' => ?_, fun hf => ?_, himage, fun hf => ?_⟩
    · have hnone : f.within = none := by cases f <;> first | rfl | cases hg
      rw [hnone] at hk
      cases hk
    · rw [hup', ← hg, hg']
    · rw [hf] at hg
      cases hg
    · rw [hf] at hg
      cases hg
  files := by simp
  browse hk := absurd rfl hk
  outside := browses_of_readdir hdir

/-- The recordings of a playlist are listed. -/
lemma fills_playlist_dir_music_readdir {e : Ptr} (he : s.Holds e .playlist_dir_music_readdir)
    (hmem : e ∈ F) :
    Fills strict F links (playlist_dir_music_readdir links e) s fun _ _ => True := by
  unfold playlist_dir_music_readdir
  refine Fills.entity (lt_fresh_of_readdir he.readdir) fun s₁ ent hs₁ hl₁ hent => ?_
  refine Fills.deref (fun _ => hs₁.playlist (he.leaves hl₁) (.inr rfl) hent) fun pl _ => ?_
  refine Fills.read rfl trivial fun s₂ o tracks hs₂ hl₂ _ ho he₂ => ?_
  refine Fills.deref (fun h => value_eq he₂ ▸ (ho h).2 pl) fun tracks _ => ?_
  refine Fills.bind (Fills.forEach hs₂ fun track _ s₃ hs₃ hl₃ => ?_) fun _ s₃ hs₃ hl₃ _ => ?_
  · refine Fills.read rfl trivial fun s₄ o trackname hs₄ hl₄ _ _ _ => ?_
    exact fills_create_wav_track_link_in_directory
      (he.leaves (((hl₁.trans hl₂).trans hl₃).trans hl₄)) hmem _ track.1
  have hdir₃ := (he.leaves ((hl₁.trans hl₂).trans hl₃)).readdir
  refine Fills.read rfl (children_of_readdir hdir₃) fun s₄ o has hs₄ hl₄ _ _ _ => ?_
  rcases has with _ | _
  · have he₄ := he.leaves (((hl₁.trans hl₂).trans hl₃).trans hl₄)
    refine Fills.call ⟨hmem, newEntity_plain hs₄.wf he₄.readdir
      (spfs_entity_file_create_new _ _) rfl rfl nofun nofun fun _ => by decide,
      fitsIn_file he₄.readdir rfl nofun⟩ ?_
    rintro s₅ o p s₆ - - - - - hs₆ -
    exact Fills.ret hs₆ trivial
  · exact Fills.ret hs₄ trivial

/-- The directory of a playlist fits in a directory with a `readdir`. -/
lemma fitsIn_playlist_dir {h : Heap} {dir : Ptr} {g : SpfsReaddirFunc}
    (hdir : h.readdir dir = some g) (readdir : SpfsReaddirFunc) (name : gstr) (pl : sp_playlist) :
    FitsIn h dir { spfs_entity_dir_create (some name) ⟨some readdir, none⟩ with
      auxdata := some (.playlist pl) } [] where
  playlist _ _ _ := ⟨pl, rfl⟩
  playlists := by simp
  file f up hf := by cases hf
  files := by simp
  browse hk := absurd rfl hk
  outside := browses_of_readdir hdir

/-- The playlists are listed. -/
lemma fills_playlists_dir_readdir {readdir f : SpfsReaddirFunc} {dir : Ptr}
    (hdir : s.heap.readdir dir = some f) (hhome : readdir.home = some dir)
    (hplain : readdir.within = none ∧ f ≠ .playlist_dir_music_readdir ∧
      readdir ≠ .playlists_meta_dir_readdir ∧ readdir ≠ .playlists_music_dir_readdir)
    (hmem : dir ∈ F) :
    Fills strict F links (playlists_dir_readdir readdir dir) s fun _ _ => True := by
  unfold playlists_dir_readdir
  refine Fills.read rfl trivial fun s₁ o playlists hs₁ hl₁ _ ho he₁ => ?_
  refine Fills.deref (fun h => value_eq he₁ ▸ (ho h).1) fun playlists _ => ?_
  refine Fills.forEach hs₁ fun pl _ s₂ hs₂ hl₂ => ?_
  refine Fills.read rfl trivial fun s₃ o name hs₃ hl₃ _ _ _ => ?_
  have hdir₃ := ((hl₁.trans hl₂).trans hl₃).grows.heap.readdir hdir
  refine Fills.read rfl (children_of_readdir hdir₃) fun s₄ o has hs₄ hl₄ _ _ _ => ?_
  rcases has with _ | _
  · have hdir₄ := hl₄.grows.heap.readdir hdir₃
    refine Fills.call ⟨hmem, newEntity_playlist_dir hs₄.wf hdir₄ hhome hplain name pl,
      fitsIn_playlist_dir hdir₄ readdir name pl⟩ ?_
    rintro s₅ o p s₆ - - - - - hs₆ -
    exact Fills.ret hs₆ trivial
  · exact Fills.ret hs₄ trivial

/-- The `auxdata` of a track's directory is a track. -/
lemma auxdata_track_ne_none {auxdata : Auxdata} (hk : auxdata.kind = some .track) :
    auxdata_track auxdata ≠ none := by
  cases auxdata with
  | track t => exact Option.some_ne_none t
  | _ => cases hk

/-- The `auxdata` of an artist's directory is an artistbrowse. -/
lemma auxdata_artistbrowse_ne_none {auxdata : Auxdata} (hk : auxdata.kind = some .artist) :
    auxdata_artistbrowse auxdata ≠ none := by
  cases auxdata with
  | artistbrowse ab => exact Option.some_ne_none ab
  | _ => cases hk

/-- The artists of a track are listed. -/
lemma fills_artists_readdir {e : Ptr} (he : s.Holds e .artists_readdir)
    (hmem : e ∈ F) : Fills strict F links (artists_readdir links e) s fun _ _ => True := by
  unfold artists_readdir
  refine Fills.bind (fills_parent_auxdata he nofun rfl) ?_
  rintro _ s₁ hs₁ hl₁ ⟨auxdata, rfl, hk⟩
  refine Fills.deref (fun _ => auxdata_track_ne_none hk) fun track _ => ?_
  refine Fills.read rfl trivial fun s₂ o num_artists hs₂ hl₂ _ _ _ => ?_
  refine Fills.forEach hs₂ fun i _ s₃ hs₃ hl₃ => ?_
  refine Fills.read rfl trivial fun s₄ o artist hs₄ hl₄ _ _ _ => ?_
  refine Fills.read rfl trivial fun s₅ o artistname hs₅ hl₅ _ _ _ => ?_
  refine Fills.bind (fills_create_artist_browse_dir artist) fun r s₆ hs₆ hl₆ _ => ?_
  have hl := ((((hl₁.trans hl₂).trans hl₃).trans hl₄).trans hl₅).trans hl₆
  exact fills_link_unless_there (he.leaves hl) hmem artistname _ _

/-- The albums of an artist are listed. -/
lemma fills_albums_readdir {e : Ptr} (he : s.Holds e .albums_readdir)
    (hmem : e ∈ F) : Fills strict F links (albums_readdir links e) s fun _ _ => True := by
  unfold albums_readdir
  refine Fills.bind (fills_parent_auxdata he nofun rfl) ?_
  rintro _ s₁ hs₁ hl₁ ⟨auxdata, rfl, hk⟩
  refine Fills.deref (fun _ => auxdata_artistbrowse_ne_none hk) fun ab _ => ?_
  refine Fills.read rfl trivial fun s₂ o albums hs₂ hl₂ _ _ _ => ?_
  refine Fills.forEach hs₂ fun album _ s₃ hs₃ hl₃ => ?_
  refine Fills.bind (fills_create_album_browse_dir album) fun r s₄ hs₄ hl₄ _ => ?_
  refine Fills.read rfl trivial fun s₅ o album_name hs₅ hl₅ _ _ _ => ?_
  have hl := (((hl₁.trans hl₂).trans hl₃).trans hl₄).trans hl₅
  exact fills_link_unless_there (he.leaves hl) hmem album_name _ _

/-- The portraits of an artist are listed. -/
lemma fills_portraits_readdir {e : Ptr} (he : s.Holds e .portraits_readdir)
    (hmem : e ∈ F) : Fills strict F links (portraits_readdir e) s fun _ _ => True := by
  unfold portraits_readdir
  refine Fills.bind (fills_parent_auxdata he nofun rfl) ?_
  rintro _ s₁ hs₁ hl₁ ⟨auxdata, rfl, hk⟩
  refine Fills.deref (fun _ => auxdata_artistbrowse_ne_none hk) fun ab _ => ?_
  refine Fills.read rfl trivial fun s₂ o portraits hs₂ hl₂ _ _ _ => ?_
  refine Fills.forEach hs₂ fun portrait _ s₃ hs₃ hl₃ => ?_
  have hdir₃ := (he.leaves ((hl₁.trans hl₂).trans hl₃)).readdir
  refine Fills.read rfl (children_of_readdir hdir₃) fun s₄ o has hs₄ hl₄ _ _ _ => ?_
  rcases has with _ | _
  · refine Fills.read rfl trivial fun s₅ o image hs₅ hl₅ _ _ _ => ?_
    have he₅ := he.leaves ((((hl₁.trans hl₂).trans hl₃).trans hl₄).trans hl₅)
    refine Fills.call ⟨hmem, newEntity_plain hs₅.wf he₅.readdir
      ((spfs_entity_file_create_new _ _).with_auxdata _) rfl rfl nofun nofun nofun,
      fitsIn_file he₅.readdir rfl fun _ => ⟨image, rfl⟩⟩ ?_
    rintro s₆ o p s₇ - - - - - hs₇ -
    exact Fills.ret hs₇ trivial
  · exact Fills.ret hs₄ trivial

/-- The `readdir` of a directory that was found by its path. -/
lemma fills_readdir_prog (hs : s.Laid) {e : Ptr} {ent : spfs_entity} {f : SpfsReaddirFunc}
    (hget : s.heap.get e = some ent) (hf : ent.readdir = some f)
    (hplace : ∃ cs, s.heap.walk 0 cs = some e) (hmem : e ∈ F) :
    Fills strict F links (readdir_prog links f e) s fun _ _ => True := by
  have hreaddir : s.heap.readdir e = some f := by
    rw [Heap.readdir, hget]
    exact hf
  have hholds : s.Holds e f := ⟨hreaddir, fun _ => hplace⟩
  cases f with
  | playlists_meta_dir_readdir =>
    obtain rfl : e = 8 :=
      hs.wf.eq_of_fixed hget hf (by simp [spfs_entity.fixed, hf]) (by decide)
    exact fills_playlists_dir_readdir hreaddir rfl (by decide) hmem
  | playlists_music_dir_readdir =>
    obtain rfl : e = 9 :=
      hs.wf.eq_of_fixed hget hf (by simp [spfs_entity.fixed, hf]) (by decide)
    exact fills_playlists_dir_readdir hreaddir rfl (by decide) hmem
  | playlist_dir_meta_readdir => exact fills_playlist_dir_meta_readdir hholds hmem
  | playlist_dir_music_readdir => exact fills_playlist_dir_music_readdir hholds hmem
  | artists_readdir => exact fills_artists_readdir hholds hmem
  | albums_readdir => exact fills_albums_readdir hholds hmem
  | portraits_readdir => exact fills_portraits_readdir hholds hmem
  | search_readdir => exact Fills.ret hs trivial

/-- Whatever is at the path is listed. -/
lemma fills_spfs_readdir (path : gstr) :
    Fills strict F links (spfs_readdir links path) s fun _ _ => True := by
  unfold spfs_readdir
  refine Fills.find fun s₂ found hs₂ hl₂ hfind hfound => ?_
  rcases found with _ | e
  · exact Fills.ret hs₂ trivial
  · have hmem : e ∈ F := hfound e rfl
    obtain ⟨cs, hcs⟩ := exists_walk_of_find_path (Heap.walk_nil s₂.heap 0) hfind
    have hlt : e < s₂.heap.fresh := hs₂.wf.tree.lt_fresh_of_walk hcs
    refine Fills.entity hlt fun s₃ ent hs₃ hl₃ hget => ?_
    rcases hf : ent.readdir with _ | f
    · exact Fills.ret hs₃ trivial
    · exact fills_readdir_prog hs₃ hget hf ⟨cs, hl₃.grows.heap.walk hcs⟩ hmem

/-! ## Searches -/

/-- A search calls back. -/
lemma fills_track_search_complete_cb (search : sp_search) {e : Ptr}
    (he : s.heap.readdir e = some .search_readdir) (hmem : e ∈ F) :
    Fills strict F links (track_search_complete_cb links search e) s fun _ _ => True := by
  have hholds : s.Holds e .search_readdir := ⟨he, fun hne => absurd rfl hne⟩
  unfold track_search_complete_cb
  refine Fills.read rfl trivial fun s₁ o num_tracks hs₁ hl₁ _ _ _ => ?_
  refine Fills.forEach hs₁ fun i _ s₂ hs₂ hl₂ => ?_
  refine Fills.read rfl trivial fun s₃ o track hs₃ hl₃ _ _ _ => ?_
  refine Fills.read rfl trivial fun s₄ o trackname hs₄ hl₄ _ _ _ => ?_
  refine Fills.read rfl trivial fun s₅ o artist hs₅ hl₅ _ _ _ => ?_
  refine Fills.read rfl trivial fun s₆ o artistname hs₆ hl₆ _ _ _ => ?_
  have hl := ((((hl₁.trans hl₂).trans hl₃).trans hl₄).trans hl₅).trans hl₆
  exact fills_create_wav_track_link_in_directory (hholds.leaves hl) hmem _ track

/-- A search is started. -/
lemma fills_search_dir_mkdir (dirname : gstr) (hsix : s.heap.children 6 ≠ none) (hmem : 6 ∈ F) :
    Fills strict F links (search_dir_mkdir 6 dirname) s fun _ _ => True := by
  unfold search_dir_mkdir
  refine Fills.read rfl hsix fun s₁ o has hs₁ hl₁ _ _ _ => ?_
  rcases has with _ | _
  · refine Fills.call (i := .dir_create dirname ⟨some .search_readdir, none⟩) rfl ?_
    rintro s₂ o e s₃ hs₂ hl₂ - - he₂ hs₃ hl₃
    have hsearch : s₃.heap.readdir e = some .search_readdir := by
      obtain rfl : s₂.heap.fresh = e := value_eq he₂
      obtain rfl := state_eq he₂
      show Heap.readdir (s₂.heap.alloc _) s₂.heap.fresh = _
      rw [Heap.readdir, Heap.get_alloc, if_pos rfl]
      rfl
    refine Fills.call (i := .search_create dirname e) trivial ?_
    rintro s₄ o search s₅ hs₄ hl₄ - - - hs₅ hl₅
    have hsearch₅ := (hl₄.trans hl₅).grows.heap.readdir hsearch
    refine Fills.call (i := .set_auxdata e (.search search)) hsearch₅ ?_
    rintro s₆ o _ s₇ hs₆ hl₆ - - - hs₇ hl₇
    have hsearch₇ := (hl₆.trans hl₇).grows.heap.readdir hsearch₅
    refine Fills.call (i := .add_child 6 e) ⟨rfl, hmem, hsearch₇⟩ ?_
    rintro s₈ o _ s₉ - - - - - hs₉ -
    exact Fills.ret hs₉ trivial
  · exact Fills.ret hs₁ trivial

/-- A directory is made. -/
lemma fills_spfs_mkdir (parent_dirname new_dirname : gstr) :
    Fills strict F links (spfs_mkdir parent_dirname new_dirname) s fun _ _ => True := by
  unfold spfs_mkdir
  refine Fills.find fun s₂ found hs₂ hl₂ hfind hfound => ?_
  rcases found with _ | parent
  · exact Fills.ret hs₂ trivial
  · have hmem : parent ∈ F := hfound parent rfl
    obtain ⟨cs, hcs⟩ := exists_walk_of_find_path (Heap.walk_nil s₂.heap 0) hfind
    refine Fills.entity (hs₂.wf.tree.lt_fresh_of_walk hcs) fun s₃ ent hs₃ hl₃ hget => ?_
    by_cases hdir : ent.e.children.isNone
    · rw [if_pos hdir]
      exact Fills.ret hs₃ trivial
    rw [if_neg hdir]
    rcases hm : ent.mkdir with _ | ⟨⟩
    · exact Fills.ret hs₃ trivial
    · obtain ⟨hlt, e₀, he₀, halike⟩ := hs₃.wf.init_of_fixed hget (by simp [spfs_entity.fixed, hm])
      have hunique : ∀ p < 10, (spfs_init_heap.get p).bind spfs_entity.mkdir ≠ none → p = 6 := by
        decide
      obtain rfl : parent = 6 := by
        apply hunique parent hlt
        rw [he₀, Option.bind_some, ← halike.mkdir, hm]
        exact Option.some_ne_none _
      refine fills_search_dir_mkdir new_dirname ?_ hmem
      rw [Heap.children, hget, Option.bind_some]
      exact fun hnone => hdir (by rw [hnone]; rfl)

/-! ## Every run -/

/-- Every operation keeps to the terms. -/
lemma layout_disciplined (strict : Prop) (F : Set Ptr) (links : SpotifyLinks) :
    ((mount_system links).guarded (mount_guard strict)).Disciplined (layout_discipline F) where
  stable _ _ _ _ _ h := h
  start := by
    intro t call s hs _ hmay hcalled
    have hfills : Fills strict F links (call.prog links) s fun _ _ => True := by
      cases call with
      | readdir path => exact fills_spfs_readdir path
      | mkdir parent_dirname new_dirname =>
        exact (fills_spfs_mkdir parent_dirname new_dirname).bind fun _ _ hs _ _ =>
          Fills.ret hs trivial
      | search_complete search entity =>
        have hs : s.Laid := hs
        have hmem : (search, entity) ∈ s.searches := of_decide_eq_true hmay
        exact fills_track_search_complete_cb search (hs.wf.searches _ hmem) hcalled
    exact (hfills t).mono fun _ _ _ => trivial

end Programs

/-- The entities that `spfs_init` creates are typed. -/
lemma init_typed : spfs_init_heap.Typed where
  playlist p e f he hf hpl := by
    have hnone : ∀ p < 10, ∀ f, spfs_init_heap.readdir p = some f →
        f = .playlists_meta_dir_readdir ∨ f = .playlists_music_dir_readdir := by
      intro p hp f hf
      have hall : ∀ p < 10, ∀ f ∈ spfs_init_heap.readdir p,
        f = .playlists_meta_dir_readdir ∨ f = .playlists_music_dir_readdir := by decide
      exact hall p hp f hf
    have hf' : spfs_init_heap.readdir p = some f := by rw [Heap.readdir, he, Option.bind_some, hf]
    rcases hpl with rfl | rfl
    · rcases hnone p (Heap.lt_fresh_of_get he) _ hf' with heq | heq <;> cases heq
    · rcases hnone p (Heap.lt_fresh_of_get he) _ hf' with heq | heq <;> cases heq
  files q e p dir f he hp hdir hf := by
    have hall : ∀ q < 10, ∀ f ∈ (spfs_init_heap.get q).bind spfs_entity.read,
        f = .connection_read ∧ spfs_init_heap.parent q = some 0 := by decide
    obtain ⟨rfl, hparent⟩ := hall q (Heap.lt_fresh_of_get he) f (by simp [he, hf])
    rw [Heap.parent, he, Option.bind_some, hp] at hparent
    refine ⟨fun k hk => ?_, fun g hg => ?_, ?_, ?_, fun _ => Option.some.inj hparent⟩
    · exact absurd hk (by simp [SpfsReadFunc.within])
    · exact absurd hg (by simp [SpfsReadFunc.listed])
    · exact fun hread => SpfsReadFunc.noConfusion hread
    · exact fun hread => SpfsReadFunc.noConfusion hread
  directories q e p dir f k he hp hdir hf hk := by
    have hplaced : spfs_init_heap.Placed := (Mount.init_inv False).wf.placed
    have hbrowses := (hplaced q e p he hp).within f k hf hk
    rwa [Heap.browses, hdir, Option.bind_some] at hbrowses
  browse d e auxdata he hk _ := by
    have hnone : ∀ d < 10, spfs_init_heap.browses d = none := by decide
    have hd := hnone d (Heap.lt_fresh_of_get he)
    rw [Heap.browses, he, Option.bind_some] at hd
    exact absurd hd hk

/-- A run, seen through the guard. -/
lemma layout_guarded (strict : Prop) {links : SpotifyLinks}
    {l l' : List (World MountInstr Mount ℕ × Action ℕ MountCall Spotify)}
    {w w' : World MountInstr Mount ℕ} (hl : Trace (mount_system links) (World.idle Mount.init) l w)
    (hl' : Trace (mount_system links) w l' w')
    (hloaded : strict → ∀ p ∈ l', ∀ t o, p.2 = .step t o → o.Loaded) :
    Trace ((mount_system links).guarded (mount_guard strict)) w l' w' := by
  refine hl'.guarded ?_ fun p hp t o heq hs => hloaded hs p hp t o heq
  intro l₁ w₁ a w₂ hl₁ hstep
  have hl₂ := hl.append (hl₁.snoc hstep)
  have hinv : w₂.shared.Inv False := mount_inv False.elim hl₂ False.elim
  exact ⟨hinv.wf, mount_grows (hl.append hl₁) (.snoc .nil hstep)⟩

/-- Where any directory may be filled, every action is in order. -/
lemma layout_ok_univ (w : World MountInstr Mount ℕ) (a : Action ℕ MountCall Spotify) :
    (layout_discipline Set.univ).Ok w a := by
  constructor
  · rcases a with ⟨t, _ | _ | _⟩ | ⟨t, o⟩ <;> trivial
  · rw [World.executes_iff]
    rintro t o γ i k - -
    cases i with
    | find_path root path => exact fun _ _ => trivial
    | _ => trivial

/-- In every state that is reached the layout is right, and every thread goes on to keep it. -/
lemma layout_sound (strict : Prop) {links : SpotifyLinks}
    {l : List (World MountInstr Mount ℕ × Action ℕ MountCall Spotify)}
    {w : World MountInstr Mount ℕ} (hl : Trace (mount_system links) (World.idle Mount.init) l w)
    (hloaded : strict → ∀ p ∈ l, ∀ t o, p.2 = .step t o → o.Loaded) :
    w.Sound ((mount_system links).guarded (mount_guard strict)) (layout_discipline Set.univ) := by
  have hinit : Mount.init.Wf := (Mount.init_inv False).wf
  exact (layout_guarded strict .nil hl hloaded).sound (layout_disciplined strict Set.univ links)
    (World.sound_idle ⟨hinit, init_typed⟩ fun _ => trivial) fun _ _ => layout_ok_univ _ _

section Decidable

variable (d : Ptr)

instance {γ : Type} (i : MountInstr γ) (s : Mount) : Decidable (i.FoundIn {d}ᶜ s) := by
  induction i using MountInstr.casesOn with
  | find_path root path =>
    refine decidable_of_iff
      ((root.bind fun root => spfs_entity_find_path s.heap root path) ≠ some d) ?_
    simp only [MountInstr.FoundIn, Set.mem_compl_iff, Set.mem_singleton_iff]
    constructor
    · rintro hne p hp rfl
      exact hne hp
    · exact fun hall heq => hall d heq rfl
  | _ => exact .isTrue trivial

instance (call : MountCall) : Decidable (call.CalledIn {d}ᶜ) := by
  induction call using MountCall.casesOn with
  | search_complete _ entity => exact inferInstanceAs (Decidable (¬ entity = d))
  | _ => exact .isTrue trivial

end Decidable

/-- In every state that is reached, the entities are typed: the `auxdata` of a directory, of a file
and of its directory is what their functions expect, and every browse directory has the entries with
which it was created, in this order, and no others. -/
theorem mount_typed {links : SpotifyLinks}
    {l : List (World MountInstr Mount ℕ × Action ℕ MountCall Spotify)}
    {w : World MountInstr Mount ℕ} (hl : Trace (mount_system links) (World.idle Mount.init) l w) :
    w.shared.heap.Typed :=
  (layout_sound False hl False.elim).inv.typed

set_option maxRecDepth 100000 in
/-- The theorem at the run that lists a playlist, after which there is a track's directory. -/
theorem list_playlist_typed : ∃ l w,
    Trace (mount_system numbered_links) (World.idle Mount.init) l w ∧
    w.shared.heap.browses 11 = some .track ∧ w.shared.heap.Typed := by
  obtain ⟨l, w, hl, -, hbrowses⟩ := Trace.exists_of_run (mount_system numbered_links)
    (fun _ _ => True) (World.idle Mount.init) list_playlist
    (fun w => w.shared.heap.browses 11 = some .track) (by decide +kernel)
  exact ⟨l, w, hl, hbrowses, mount_typed hl⟩

/-- Of the one track all is loaded. -/
lemma single_loaded : single.Loaded := ⟨Option.some_ne_none _, fun _ => Option.some_ne_none _⟩

end Spotifile
