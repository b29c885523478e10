import Spotifile.LayoutRuns
import Spotifile.Lib.Part

/-!
# The mounted file system with its open handles

The operations that make the tree grow and the handlers that open and release files and directories
work on the same entities, on any threads, in any order. `fuse_system` has both. What was proved of
the growing tree holds in it as well, since a handler changes counters only (`fuse_laid`,
`fuse_grows`), and the counters still are the numbers of the open handles as long as `spfs_opendir`
opens no directory and no counter overflows: a new entity has no handles, and no operation of the
tree touches a counter (`fuse_refs_counted_iff`). A call that C leaves undefined is never executed
here: a run goes on up to it.
-/

namespace Spotifile

open Lib

/-! ## The system -/

/-- The file system and the handles that FUSE holds. -/
structure Served where
  mount : Mount
  music_playing : Bool
  files : List Ptr
  dirs : List Ptr

namespace Served

/-- What the handlers work on. -/
def handles (s : Served) : Handles := ⟨s.mount.heap, s.music_playing, s.files, s.dirs⟩

/-- The state after a handler. -/
def set_handles (s : Served) (h : Handles) : Served :=
  ⟨{ s.mount with heap := h.heap }, h.music_playing, h.files, h.dirs⟩

/-- What was stored is read back. -/
@[simp] lemma handles_set_handles (s : Served) (h : Handles) : (s.set_handles h).handles = h := rfl

/-- After `spfs_init`, with nothing open. -/
def init : Served := ⟨.init, false, [], []⟩

end Served

/-- An instruction of either side. -/
def FuseInstr (γ : Type) : Type := MountInstr γ ⊕ HandleInstr γ

/-- An operation of either side. -/
abbrev FuseCall : Type := MountCall ⊕ HandleCall

variable (links : SpotifyLinks)

/-- The two systems over one state. -/
def fuse_system : System FuseInstr Served ℕ FuseCall Spotify where
  exec
    | .inl i, o, s => (i.exec o s.mount).map fun r => (r.1, { s with mount := r.2 })
    | .inr (.call c), _, s => (c.run s.handles).map fun r => (some r.1, s.set_handles r.2)
  prog
    | .inl call => (call.prog links).lift Sum.inl
    | .inr c => .call (.inr (.call c)) fun _ => .ret ()
  may
    | t, .inl call, s => (mount_system links).may t call s.mount
    | _, .inr _, _ => true

/-- The growing tree is a part of it. -/
def mount_part : (mount_system links).Part (fuse_system links) where
  get := Served.mount
  set s m := { s with mount := m }
  get_set _ _ := rfl
  instr := Sum.inl
  exec _ _ _ := rfl

/-! ## A handler and the tree -/

/-- An entity whose counter changes has grown. -/
lemma grows_refs (n : ℕ) (e : spfs_entity) : e.Grows { e with refs := n } :=
  ⟨⟨rfl, rfl, fun _ => rfl⟩, fun _ h => h, fun h _ => h⟩

/-- A count keeps the invariant. -/
lemma inv_add_refs {s : Mount} (hi : s.Inv False) (p : Ptr) (n : ℕ) :
    Mount.Inv False { s with heap := s.heap.add_refs p n } ∧
      s.Grows { s with heap := s.heap.add_refs p n } :=
  inv_modify (p := p) (f := fun e => { e with refs := (e.refs + n) % UINT }) hi
    (fun e _ => grows_refs _ e) (fun _ => rfl) (fun _ => rfl) (fun _ => rfl) s.goals
    (fun _ hmem => .inl hmem) False.elim

/-- A handler keeps the invariant. -/
lemma handle_inv {c : HandleCall} {s : Served} {r : ℤ × fuse_file_info} {h : Handles}
    (hi : s.mount.Inv False) (he : c.run s.handles = some (r, h)) :
    (s.set_handles h).mount.Inv False ∧ s.mount.Grows (s.set_handles h).mount := by
  have hmount : (s.set_handles h).mount = { s.mount with heap := h.heap } := rfl
  rw [hmount]
  rcases run_heap he with heq | ⟨p, n, heq⟩
  · rw [heq]
    exact ⟨hi, .refl _⟩
  · rw [heq]
    exact inv_add_refs hi p n

/-- A handler keeps the entities typed, and all tables. -/
lemma handle_laid {c : HandleCall} {s : Served} {r : ℤ × fuse_file_info} {h : Handles}
    (hs : s.mount.Laid) (hw : (s.set_handles h).mount.Wf) (he : c.run s.handles = some (r, h)) :
    (s.set_handles h).mount.heap.Typed ∧
      ∀ d, (s.set_handles h).mount.heap.children d = s.mount.heap.children d := by
  have hheap : (s.set_handles h).mount.heap = h.heap := rfl
  rw [hheap]
  rcases run_heap he with heq | ⟨p, n, heq⟩
  · rw [heq]
    exact ⟨hs.typed, fun _ => rfl⟩
  · rw [heq]
    refine ⟨?_, fun d => Heap.children_modify s.mount.heap p d fun _ => rfl⟩
    have hplaced : (s.mount.heap.add_refs p n).Placed := heq ▸ hw.placed
    exact typed_modify (p := p) (f := fun e => { e with refs := (e.refs + n) % UINT }) hs.typed
      hs.wf.tree hplaced (fun e _ => grows_refs _ e) (fun _ => rfl) fun _ => rfl

/-! ## Every run -/

/-- The terms of the growing tree, for all operations. -/
def fuse_discipline : Discipline FuseInstr Served ℕ FuseCall :=
  (mount_discipline False).along Served.mount (fun _ _ => True) fun _ _ _ => True

variable {links}

/-- Every operation keeps to the discipline. -/
lemma fuse_disciplined : (fuse_system links).Disciplined fuse_discipline := by
  refine (mount_part links).disciplined (mount_disciplined False.elim)
    (fun _ _ _ h => h.elim) ?_
  rintro t (call | c) s hinv - hmay -
  · exact .inl ⟨call, rfl, hmay, trivial⟩
  · right
    refine .call (fun _ => True) trivial (fun _ _ _ _ h => h) ?_
    rintro s o r s' hi - - he
    obtain ⟨⟨r', h⟩, hrun, heq⟩ := Option.map_eq_some_iff.mp he
    obtain ⟨rfl, rfl⟩ := Prod.mk.inj heq
    obtain ⟨hi', hg⟩ := handle_inv hi hrun
    exact ⟨hi', fun _ _ => hg, nofun, fun _ _ => trivial⟩

/-- In every state that is reached the invariants hold. -/
lemma fuse_sound {l : List (World FuseInstr Served ℕ × Action ℕ FuseCall Spotify)}
    {w : World FuseInstr Served ℕ}
    (hl : Trace (fuse_system links) (World.idle Served.init) l w) :
    w.Sound (fuse_system links) fuse_discipline := by
  refine hl.sound fuse_disciplined (World.sound_idle (Mount.init_inv False) fun _ => trivial) ?_
  rintro ⟨w, a⟩ -
  exact ⟨by cases a <;> trivial, World.executes_iff.mpr fun _ _ _ _ _ _ _ => trivial⟩

/-- From every state that is reached the entities only grow, whatever the threads do. -/
theorem fuse_grows {l l' : List (World FuseInstr Served ℕ × Action ℕ FuseCall Spotify)}
    {w w' : World FuseInstr Served ℕ}
    (hl : Trace (fuse_system links) (World.idle Served.init) l w)
    (hl' : Trace (fuse_system links) w l' w') : w.shared.mount.Grows w'.shared.mount := by
  refine hl'.relied (R := fun s s' => s.mount.Grows s'.mount) fuse_disciplined
    (fun s => .refl s.mount) Mount.Grows.trans (fun _ _ _ h => h)
    (fun t => ⟨t + 1, Nat.succ_ne_self t⟩) (fuse_sound hl) ?_
  rintro w a
  exact ⟨by cases a <;> trivial, World.executes_iff.mpr fun _ _ _ _ _ _ _ => trivial⟩

/-! ## The layout -/

/-- The terms of the layout, for all operations. -/
def fuse_layout : Discipline FuseInstr Served ℕ FuseCall :=
  (layout_discipline Set.univ).along Served.mount (fun _ _ => True) fun _ _ _ => True

/-- Every directory may be found. -/
lemma foundIn_univ {γ : Type} (i : MountInstr γ) (s : Mount) : i.FoundIn Set.univ s := by
  cases i with
  | find_path root path => exact fun _ _ => trivial
  | _ => trivial

/-- Every directory may be called back for. -/
lemma calledIn_univ (call : MountCall) : call.CalledIn Set.univ := by
  cases call <;> trivial

variable (links) in
/-- All operations, seen through what is known of the growing tree. -/
noncomputable def fuse_guarded : System FuseInstr Served ℕ FuseCall Spotify :=
  (fuse_system links).guarded ((mount_guard False).along Served.mount Served.init)

/-- Every operation keeps the layout. -/
lemma fuse_layout_disciplined : (fuse_guarded links).Disciplined fuse_layout := by
  refine ((mount_part links).guarded (G := mount_guard False) id Served.init).disciplined
    (layout_disciplined False Set.univ links) (fun i s _ => foundIn_univ i s.mount) ?_
  rintro t (call | c) s hinv - hmay -
  · exact .inl ⟨call, rfl, hmay, calledIn_univ call⟩
  · right
    refine .call (fun _ => True) trivial (fun _ _ _ _ h => h) ?_
    rintro s o r s' hs - - he
    obtain ⟨-, ⟨-, hstrict⟩ | ⟨he, hwf, hg⟩⟩ := System.exec_guarded_cases he
    · exact hstrict.elim
    obtain ⟨⟨r', h⟩, hrun, heq⟩ := Option.map_eq_some_iff.mp he
    obtain ⟨rfl, rfl⟩ := Prod.mk.inj heq
    obtain ⟨htyped, htables⟩ := handle_laid hs hwf hrun
    exact ⟨⟨hwf, htyped⟩, fun _ _ => ⟨hg, fun d _ _ => htables d⟩, nofun, fun _ _ => trivial⟩

/-- In every state that is reached, by whatever the threads do, the tree is well formed and the
entities are typed. -/
theorem fuse_laid {l : List (World FuseInstr Served ℕ × Action ℕ FuseCall Spotify)}
    {w : World FuseInstr Served ℕ}
    (hl : Trace (fuse_system links) (World.idle Served.init) l w) : w.shared.mount.Laid := by
  have hguarded : Trace (fuse_guarded links) (World.idle Served.init) l w := by
    refine hl.guarded ?_ fun p hp t o heq hs => hs.elim
    intro l₁ w₁ a w₂ hl₁ hstep
    exact ⟨(fuse_sound (hl₁.snoc hstep)).inv.wf, fuse_grows hl₁ (.snoc .nil hstep)⟩
  have hinit : (World.idle Served.init : World FuseInstr Served ℕ).Sound (fuse_guarded links)
      fuse_layout :=
    World.sound_idle ⟨(Mount.init_inv False).wf, init_typed⟩ fun _ => trivial
  refine (hguarded.sound fuse_layout_disciplined hinit ?_).inv
  rintro ⟨w, a⟩ -
  exact ⟨by cases a <;> trivial, World.executes_iff.mpr fun _ _ _ _ _ _ _ => trivial⟩

/-! ## The counters -/

/-- A new entity has no handles. -/
def MountInstr.Unopened {γ : Type} : MountInstr γ → Prop
  | .add_new _ e entries => e.refs = 0 ∧ ∀ x ∈ entries, x.refs = 0
  | _ => True

section Unopened

/-- What is read through a pointer is no entity that is created. -/
lemma unopened_deref {α β : Type} {p : Option α} {k : α → MountProg β}
    (hk : ∀ a, (k a).Uses MountInstr.Unopened) :
    (deref p >>= k).Uses MountInstr.Unopened := by
  rcases p with _ | a
  · exact ⟨trivial, fun v => v.elim⟩
  · exact hk a

/-- A test for an entry creates none. -/
lemma unopened_unless {has : Bool} {p : MountProg Unit} (hp : p.Uses MountInstr.Unopened) :
    (if has then (.ret () : MountProg Unit) else p).Uses MountInstr.Unopened := by
  cases has
  · exact hp
  · exact trivial

/-- The new directory has no handles, and its entries have none. -/
lemma unopened_create_browse_dir {path : gstr} {link : Option gstr}
    {create : gstr → MountProg (spfs_entity × List spfs_entity)}
    (hcreate : ∀ name (k : spfs_entity × List spfs_entity → MountProg (Option Ptr)),
      (∀ auxdata entries, (∀ x ∈ entries, x.refs = 0) →
        (k (browse_dir_create name auxdata, entries)).Uses MountInstr.Unopened) →
      (create name >>= k).Uses MountInstr.Unopened) :
    (create_browse_dir path link create).Uses MountInstr.Unopened := by
  unfold create_browse_dir
  refine .of trivial fun spfs_root => ?_
  refine .of trivial fun found => ?_
  rcases link with _ | name
  · exact trivial
  refine unopened_deref fun browse_dir => ?_
  refine .of trivial fun has => ?_
  rcases has with _ | _
  · refine hcreate name _ fun auxdata entries hentries => ?_
    exact .of ⟨rfl, hentries⟩ fun _ => trivial
  · exact ⟨trivial, fun _ => trivial⟩

/-- A track's directory. -/
lemma unopened_create_track_browse_dir (track : sp_track) :
    (create_track_browse_dir links track).Uses MountInstr.Unopened := by
  apply unopened_create_browse_dir
  intro name k hk
  apply hk
  simp [track_dir_entries, read_file, create_track_wav_file, spfs_entity_file_create,
    spfs_entity_dir_create, spfs_entity_create]

/-- An artist's directory. -/
lemma unopened_create_artist_browse_dir (artist : sp_artist) :
    (create_artist_browse_dir links artist).Uses MountInstr.Unopened := by
  apply unopened_create_browse_dir
  intro name k hk
  refine .of trivial fun ab => ?_
  apply hk
  simp [artist_dir_entries, read_file, spfs_entity_file_create, spfs_entity_dir_create,
    spfs_entity_create]

/-- An album's directory. -/
lemma unopened_create_album_browse_dir (album : sp_album) :
    (create_album_browse_dir links album).Uses MountInstr.Unopened := by
  apply unopened_create_browse_dir
  intro name k hk
  apply hk
  simp [album_dir_entries, read_file, spfs_entity_file_create, spfs_entity_create]

/-- A new link. -/
lemma unopened_create_link (dir : Ptr) (name : gstr) (goal : Option Goal) (dst : Option Ptr) :
    (create_link dir name goal dst).Uses MountInstr.Unopened := by
  refine .of ⟨rfl, by simp⟩ fun link => ?_
  refine .of trivial fun rpath => ?_
  exact ⟨trivial, fun _ => trivial⟩

/-- A new link to the file of a track. -/
lemma unopened_create_wav_track_link_in_directory (dir : Ptr) (linkname : gstr)
    (track : sp_track) :
    (create_wav_track_link_in_directory links dir linkname track).Uses MountInstr.Unopened := by
  refine .of trivial fun has => ?_
  apply unopened_unless
  apply (unopened_create_track_browse_dir track).bind
  intro track_browse_dir
  refine .of trivial fun track_wav => ?_
  exact unopened_create_link _ _ _ _

/-- The `auxdata` of a directory's parent is read. -/
lemma unopened_parent_auxdata (e : Ptr) {k : Option Auxdata → MountProg Unit}
    (hk : ∀ auxdata, (k auxdata).Uses MountInstr.Unopened) :
    (parent_auxdata e >>= k).Uses MountInstr.Unopened := by
  refine Prog.Uses.bind ?_ hk
  refine .of trivial fun ent => ?_
  refine unopened_deref fun parent => ?_
  exact .of trivial fun _ => trivial

/-- The directories of the playlists. -/
lemma unopened_playlists_dir_readdir (readdir : SpfsReaddirFunc) (e : Ptr) :
    (playlists_dir_readdir readdir e).Uses MountInstr.Unopened := by
  refine .of trivial fun playlists => ?_
  refine unopened_deref fun playlists => .forEach fun pl => ?_
  refine .of trivial fun name => ?_
  refine .of trivial fun has => ?_
  apply unopened_unless
  exact .of ⟨rfl, by simp⟩ fun _ => trivial

/-- The links to the directories of a playlist's tracks. -/
lemma unopened_playlist_dir_meta_readdir (e : Ptr) :
    (playlist_dir_meta_readdir links e).Uses MountInstr.Unopened := by
  refine .of trivial fun ent => ?_
  refine unopened_deref fun pl => ?_
  refine .of trivial fun tracks => ?_
  refine unopened_deref fun tracks => .forEach fun track => ?_
  refine .of trivial fun trackname => ?_
  apply (unopened_create_track_browse_dir track).bind
  intro track_browse_dir
  refine .of trivial fun has => ?_
  exact unopened_unless (unopened_create_link _ _ _ _)

/-- The links to the files of a playlist's tracks, and the list of them. -/
lemma unopened_playlist_dir_music_readdir (e : Ptr) :
    (playlist_dir_music_readdir links e).Uses MountInstr.Unopened := by
  refine .of trivial fun ent => ?_
  refine unopened_deref fun pl => ?_
  refine .of trivial fun tracks => ?_
  refine unopened_deref fun tracks => ?_
  refine Prog.Uses.bind (.forEach fun track => ?_) fun _ => ?_
  · refine .of trivial fun trackname => ?_
    exact unopened_create_wav_track_link_in_directory _ _ _
  · refine .of trivial fun has => ?_
    apply unopened_unless
    exact .of ⟨rfl, by simp⟩ fun _ => trivial

/-- The links to the directories of a track's artists. -/
lemma unopened_artists_readdir (e : Ptr) :
    (artists_readdir links e).Uses MountInstr.Unopened := by
  refine unopened_parent_auxdata e fun auxdata => ?_
  refine unopened_deref fun track => ?_
  refine .of trivial fun num_artists => .forEach fun i => ?_
  refine .of trivial fun artist => ?_
  refine .of trivial fun artistname => ?_
  apply (unopened_create_artist_browse_dir artist).bind
  intro artist_browse_dir
  refine .of trivial fun has => ?_
  exact unopened_unless (unopened_create_link _ _ _ _)

/-- The links to the directories of an artist's albums. -/
lemma unopened_albums_readdir (e : Ptr) :
    (albums_readdir links e).Uses MountInstr.Unopened := by
  refine unopened_parent_auxdata e fun auxdata => ?_
  refine unopened_deref fun ab => ?_
  refine .of trivial fun albums => .forEach fun album => ?_
  apply (unopened_create_album_browse_dir album).bind
  intro album_browse_dir
  refine .of trivial fun album_name => ?_
  refine .of trivial fun has => ?_
  exact unopened_unless (unopened_create_link _ _ _ _)

/-- An artist's portraits. -/
lemma unopened_portraits_readdir (e : Ptr) :
    (portraits_readdir e).Uses MountInstr.Unopened := by
  refine unopened_parent_auxdata e fun auxdata => ?_
  refine unopened_deref fun ab => ?_
  refine .of trivial fun portraits => .forEach fun portrait => ?_
  refine .of trivial fun has => ?_
  apply unopened_unless
  refine .of trivial fun image => ?_
  exact .of ⟨rfl, by simp⟩ fun _ => trivial

/-- The function that a `readdir` points to. -/
lemma unopened_readdir_prog (f : SpfsReaddirFunc) (e : Ptr) :
    (readdir_prog links f e).Uses MountInstr.Unopened := by
  cases f with
  | playlists_meta_dir_readdir => exact unopened_playlists_dir_readdir _ e
  | playlists_music_dir_readdir => exact unopened_playlists_dir_readdir _ e
  | playlist_dir_meta_readdir => exact unopened_playlist_dir_meta_readdir e
  | playlist_dir_music_readdir => exact unopened_playlist_dir_music_readdir e
  | artists_readdir => exact unopened_artists_readdir e
  | albums_readdir => exact unopened_albums_readdir e
  | portraits_readdir => exact unopened_portraits_readdir e
  | search_readdir => exact trivial

/-- The directory of a search. -/
lemma unopened_search_dir_mkdir (parent : Ptr) (dirname : gstr) :
    (search_dir_mkdir parent dirname).Uses MountInstr.Unopened := by
  refine .of trivial fun has => ?_
  rcases has with _ | _
  · refine .of trivial fun e => ?_
    refine .of trivial fun search => ?_
    refine .of trivial fun _ => ?_
    exact .of trivial fun _ => trivial
  · exact trivial

/-- No operation creates an entity with handles. -/
lemma unopened_prog (call : MountCall) : (call.prog links).Uses MountInstr.Unopened := by
  cases call with
  | readdir path =>
    refine .of trivial fun spfs_root => ?_
    refine .of trivial fun found => ?_
    rcases found with _ | e
    · exact trivial
    refine .of trivial fun ent => ?_
    rcases ent.readdir with _ | f
    · exact trivial
    · exact unopened_readdir_prog f e
  | mkdir parent_dirname new_dirname =>
    refine Prog.Uses.bind (?_ : (spfs_mkdir parent_dirname new_dirname).Uses _) fun _ => trivial
    refine .of trivial fun spfs_root => ?_
    refine .of trivial fun found => ?_
    rcases found with _ | parent
    · exact trivial
    refine .of trivial fun ent => ?_
    split
    · exact trivial
    rcases ent.mkdir with _ | ⟨⟩
    · exact trivial
    · exact unopened_search_dir_mkdir parent new_dirname
  | search_complete search entity =>
    refine .of trivial fun num_tracks => .forEach fun i => ?_
    refine .of trivial fun track => ?_
    refine .of trivial fun trackname => ?_
    refine .of trivial fun artist => ?_
    refine .of trivial fun artistname => ?_
    exact unopened_create_wav_track_link_in_directory _ _ _

end Unopened

/-- The counters of a heap, with those of entities that are not there yet. -/
def Heap.refs (h : Heap) (p : Ptr) : ℕ := ((h.get p).map spfs_entity.refs).getD 0

/-- A new entity without handles changes no counter. -/
lemma refs_alloc {h : Heap} {e : spfs_entity} (he : e.refs = 0) (p : Ptr) :
    (h.alloc e).refs p = h.refs p := by
  rw [Heap.refs, Heap.get_alloc]
  split
  · next hp =>
    rw [Heap.refs, hp, Heap.get_eq_none_of_fresh_le (Nat.le_refl _)]
    simpa using he
  · rfl

/-- A change that keeps the counter of its entity keeps all counters. -/
lemma refs_modify {h : Heap} {f : spfs_entity → spfs_entity} (hf : ∀ e, (f e).refs = e.refs)
    (p q : Ptr) : (h.modify p f).refs q = h.refs q := by
  rw [Heap.refs, Heap.get_modify]
  split
  · rw [Option.map_map, Heap.refs]
    congr 2
    exact funext hf
  · rfl

/-- To add a child changes no counter. -/
@[simp] lemma refs_add_child (h : Heap) (parent child p : Ptr) :
    (spfs_entity_dir_add_child h parent child).refs p = h.refs p := by
  rcases spfs_entity_dir_add_child_cases h parent child with heq | ⟨name, -, -, -, -, -, heq⟩
  · rw [heq]
  · rw [heq, Heap.link_child, refs_modify]
    · exact refs_modify (f := fun e => { e with parent := some parent }) (fun _ => rfl) child p
    · intro e
      unfold spfs_entity.insert_child
      split <;> rfl

/-- To add entries without handles changes no counter. -/
lemma refs_add_entries {h : Heap} {entries : List spfs_entity} (he : ∀ x ∈ entries, x.refs = 0)
    (p₀ p : Ptr) : (add_entries h p₀ entries).refs p = h.refs p := by
  induction entries generalizing h with
  | nil => rfl
  | cons x entries ih =>
    rw [add_entries, List.foldl_cons]
    apply (ih (fun y hy => he y (by simp [hy]))).trans
    rw [refs_add_child, refs_alloc (he x (by simp))]

/-- Setting a target changes no counter. -/
@[simp] lemma refs_link_set_target (h : Heap) (link : Ptr) (target : Option gstr) (p : Ptr) :
    (spfs_entity_link_set_target h link target).refs p = h.refs p := by
  rw [link_set_target_eq]
  refine refs_modify (fun e => ?_) link p
  rcases e with ⟨_, _, _, _, _ | _ | _⟩ <;> rcases target with _ | target <;> rfl

/-- To create an entity with entries changes no counter. -/
@[simp] lemma refs_add_new {h : Heap} {e : spfs_entity} {entries : List spfs_entity}
    (he : e.refs = 0) (hentries : ∀ x ∈ entries, x.refs = 0) (dir p : Ptr) :
    (add_new h dir e entries).refs p = h.refs p := by
  rw [add_new, refs_add_child, refs_add_entries hentries, refs_alloc he]

/-- The operations of the tree leave the counters alone. -/
lemma exec_refs {γ : Type} {i : MountInstr γ} (hi : i.Unopened) {o : Spotify} {s s' : Mount}
    {r : Option γ} (he : i.exec o s = some (r, s')) (p : Ptr) :
    s'.heap.refs p = s.heap.refs p := by
  by_cases hw : i.writes = false
  · rw [i.eq_of_reads hw he]
  cases i with
  | add_new dir e entries =>
    obtain rfl := state_eq he
    exact refs_add_new hi.1 hi.2 dir p
  | dir_create name ops =>
    obtain rfl := state_eq he
    exact refs_alloc rfl p
  | add_child parent child =>
    obtain rfl := state_eq he
    exact refs_add_child _ _ _ _
  | relpath src dst =>
    obtain rfl := state_eq he
    rfl
  | link_set_target link target goal =>
    obtain rfl := state_eq he
    exact refs_link_set_target _ _ _ _
  | search_create query e =>
    obtain rfl := state_eq he
    rfl
  | set_auxdata e auxdata =>
    obtain rfl := state_eq he
    exact refs_modify (f := fun e => { e with auxdata := some auxdata }) (fun _ => rfl) e p
  | _ => exact absurd rfl hw

/-- The instruction opens no directory with `spfs_opendir`, and an entity with `spfs_open` only if
one more handle can be counted. -/
def FuseInstr.CanCount : {γ : Type} → FuseInstr γ → Served → Prop
  | _, .inl _, _ => True
  | _, .inr i, s => Spotifile.CanCount i s.handles

/-- Every counter is an `unsigned int`, and every handle is that of an entity. -/
structure Served.Ranged (s : Served) : Prop where
  refs : ∀ p, s.mount.heap.refs p < UINT
  handles : ∀ p ∈ s.files ++ s.dirs, p < s.mount.heap.fresh

/-- The counters are right exactly if they are as the mounted file system has them. -/
lemma Served.counted_iff {s : Served} (hs : s.Ranged) :
    s.handles.Counted ↔ ∀ p, s.mount.heap.refs p = s.handles.count p := by
  constructor
  · intro hc p
    by_cases hp : p < s.mount.heap.fresh
    · obtain ⟨e, he⟩ := Heap.exists_get_of_lt hp
      rw [Heap.refs, he]
      exact hc p e he
    · have hnone : p ∉ s.files ++ s.dirs := fun hmem => hp (hs.handles p hmem)
      rw [Heap.refs, Heap.get_eq_none_of_fresh_le (Nat.le_of_not_lt hp), Handles.count,
        ← List.count_append]
      exact (List.count_eq_zero_of_not_mem hnone).symm
  · intro hc p e he
    have hp := hc p
    rw [Heap.refs, show s.mount.heap.get p = some e from he] at hp
    exact hp

/-- In both views the counters are in range. -/
lemma ranged_inRange {s : Served} (hs : s.Ranged) : s.handles.InRange := by
  intro p e he
  have hp := hs.refs p
  rwa [Heap.refs, show s.mount.heap.get p = some e from he] at hp

/-- What is open after a handler was open before, or is an entity that was found. -/
lemma mem_open_of_run {c : HandleCall} {s s' : Handles} {r : ℤ × fuse_file_info}
    (he : c.run s = some (r, s')) {p : Ptr} (hp : p ∈ s'.files ++ s'.dirs) :
    p ∈ s.files ++ s.dirs ∨ ∃ e, s.heap.get p = some e := by
  obtain ⟨r, fi⟩ := r
  rw [List.mem_append] at hp ⊢
  cases c with
  | spfs_open path fi =>
    rcases spfs_open_cases he with
      ⟨-, -, rfl⟩ | ⟨q, e, _, -, hget, -, ⟨-, -, -, rfl⟩ | ⟨-, -, rfl⟩⟩
    · exact .inl hp
    · exact .inl hp
    · rcases hp with hp | hp
      · rcases List.mem_cons.mp hp with rfl | hp
        · exact .inr ⟨e, hget⟩
        · exact .inl (.inl hp)
      · exact .inl (.inr hp)
  | spfs_release fi =>
    obtain ⟨q, -, -, -, hf, hd⟩ := spfs_release_spec he
    rw [hf, hd] at hp
    exact .inl (hp.imp_left List.mem_of_mem_erase)
  | spfs_opendir path fi =>
    rcases spfs_opendir_cases he with ⟨-, -, rfl⟩ | ⟨q, e, -, hget, ⟨-, -, rfl⟩ | ⟨-, -, rfl⟩⟩
    · exact .inl hp
    · exact .inl hp
    · rcases hp with hp | hp
      · exact .inl (.inl hp)
      · rcases List.mem_cons.mp hp with rfl | hp
        · exact .inr ⟨e, hget⟩
        · exact .inl (.inr hp)
  | spfs_releasedir fi =>
    obtain ⟨q, -, -, -, hf, hd⟩ := spfs_releasedir_spec he
    rw [hf, hd] at hp
    exact .inl (hp.imp_right List.mem_of_mem_erase)

/-- A handler keeps the counters in range. -/
lemma run_ranged {c : HandleCall} {s : Served} {r : ℤ × fuse_file_info} {h : Handles}
    (hs : s.Ranged) (he : c.run s.handles = some (r, h)) : (s.set_handles h).Ranged := by
  obtain ⟨r, fi⟩ := r
  have hrange := run_inRange (ranged_inRange hs) he
  constructor
  · intro p
    rw [Heap.refs]
    rcases hp : (s.set_handles h).mount.heap.get p with _ | e
    · exact UINT_pos
    · exact hrange p e hp
  · have hfresh : h.heap.fresh = s.mount.heap.fresh := by
      rcases run_heap he with heq | ⟨p, n, heq⟩
      · rw [heq]
        rfl
      · rw [heq, Heap.add_refs, Heap.fresh_modify]
        rfl
    intro p hp
    show p < h.heap.fresh
    rw [hfresh]
    rcases mem_open_of_run he hp with hold | ⟨e, hget⟩
    · exact hs.handles p hold
    · exact Heap.lt_fresh_of_get hget

/-- A new entity has no handles. -/
def FuseInstr.Unopened {γ : Type} : FuseInstr γ → Prop
  | .inl i => i.Unopened
  | .inr _ => True

/-- A step of the tree, a handler, or the start of an operation. -/
lemma fuse_step {w w' : World FuseInstr Served ℕ} {a : Action ℕ FuseCall Spotify}
    (hw : ∀ t, (w.prog t).Uses FuseInstr.Unopened)
    (h : (fuse_system links).step w a = some w') :
    (w.Executes FuseInstr.CanCount a ∧ w'.shared.files = w.shared.files ∧
      w'.shared.dirs = w.shared.dirs ∧
      ∀ p, w'.shared.mount.heap.refs p = w.shared.mount.heap.refs p) ∨
    ∃ c r h, c.run w.shared.handles = some (r, h) ∧ w'.shared = w.shared.set_handles h ∧
      (w.Executes FuseInstr.CanCount a ↔ CanCount (.call c) w.shared.handles) := by
  rcases System.step_cases h with
    ⟨t, op, u, rfl, -, -, rfl⟩ | ⟨γ, t, o, i | i, k, r, s, rfl, hp, he, rfl⟩
  · exact .inl ⟨trivial, rfl, rfl, fun _ => rfl⟩
  · left
    obtain ⟨⟨r', m⟩, hexec, heq⟩ := Option.map_eq_some_iff.mp he
    obtain ⟨rfl, rfl⟩ := Prod.mk.inj heq
    have huses := hw t
    rw [hp] at huses
    have hrefs := fun p => exec_refs huses.1 hexec p
    refine ⟨?_, ?_⟩
    · rw [World.executes_iff]
      intro t' o' γ' i' k' ha hp'
      obtain ⟨rfl, -⟩ := Action.step.inj ha
      rw [hp] at hp'
      cases hp'
      trivial
    · rcases r' with _ | v
      · exact ⟨rfl, rfl, hrefs⟩
      · exact ⟨rfl, rfl, hrefs⟩
  · right
    obtain ⟨c⟩ := i
    obtain ⟨⟨r', s'⟩, hrun, heq⟩ := Option.map_eq_some_iff.mp he
    obtain ⟨rfl, rfl⟩ := Prod.mk.inj heq
    refine ⟨c, r', s', hrun, rfl, ?_⟩
    rw [World.Executes, hp]
    rfl

/-- The invariant of every run: the threads keep to their discipline, the counters are in range,
and what is created has no handles. -/
structure Tracked (links : SpotifyLinks) (w : World FuseInstr Served ℕ) : Prop where
  sound : w.Sound (fuse_system links) fuse_discipline
  ranged : w.shared.Ranged
  uses : ∀ t, (w.prog t).Uses FuseInstr.Unopened

/-- Every operation creates entities without handles. -/
lemma unopened_call (call : FuseCall) :
    ((fuse_system links).prog call).Uses FuseInstr.Unopened := by
  rcases call with call | c
  · have hcall : (call.prog links).Uses MountInstr.Unopened := unopened_prog call
    exact hcall.lift (B := FuseInstr.Unopened) fun _ hi => hi
  · exact ⟨trivial, fun _ => trivial⟩

/-- Nothing is open when the file system is mounted. -/
lemma refs_init (p : Ptr) : spfs_init_heap.refs p = 0 := by
  rw [Heap.refs]
  rcases hp : spfs_init_heap.get p with _ | e
  · rfl
  · exact nothing_open_unopened.refs p e hp

/-- At first every counter is 0. -/
lemma tracked_init : Tracked links (World.idle Served.init) := by
  refine ⟨fuse_sound .nil, ⟨fun p => ?_, fun p hp => absurd hp List.not_mem_nil⟩,
    fun _ => trivial⟩
  show spfs_init_heap.refs p < UINT
  rw [refs_init]
  exact UINT_pos

/-- Every step keeps the invariant. -/
lemma tracked_step {w w' : World FuseInstr Served ℕ} {a : Action ℕ FuseCall Spotify}
    (hw : Tracked links w) (hstep : (fuse_system links).step w a = some w') :
    Tracked links w' := by
  obtain ⟨hsound, hrange, huses⟩ := hw
  have hallowed : fuse_discipline.Ok w a :=
    ⟨by cases a <;> trivial, World.executes_iff.mpr fun _ _ _ _ _ _ _ => trivial⟩
  refine ⟨hsound.step fuse_disciplined hallowed hstep, ?_,
    Trace.uses unopened_call (.snoc .nil hstep) huses⟩
  rcases fuse_step huses hstep with ⟨-, hfiles, hdirs, hrefs⟩ | ⟨c, r, h, hrun, hs, -⟩
  · refine ⟨fun p => ?_, fun p hp => ?_⟩
    · rw [hrefs]
      exact hrange.refs p
    · rw [hfiles, hdirs] at hp
      rcases hsound.step_rely hallowed hstep with heq | ⟨t, hrely⟩
      · rw [heq]
        exact hrange.handles p hp
      · have hg : w.shared.mount.Grows w'.shared.mount := hrely (t + 1) (Nat.succ_ne_self t)
        exact hg.heap.lt_fresh (hrange.handles p hp)
  · rw [hs]
    exact run_ranged hrange hrun

/-- A step keeps the counters right precisely when it can count. -/
lemma counted_step_iff {w w' : World FuseInstr Served ℕ} {a : Action ℕ FuseCall Spotify}
    (hw : Tracked links w) (hcounted : w.shared.handles.Counted)
    (hstep : (fuse_system links).step w a = some w') :
    w'.shared.handles.Counted ↔ w.Executes FuseInstr.CanCount a := by
  rcases fuse_step hw.uses hstep with ⟨hok, hfiles, hdirs, hrefs⟩ | ⟨c, r, h, hrun, hs, hok⟩
  · refine iff_of_true (fun p e he => ?_) hok
    have hp := (Served.counted_iff hw.ranged).mp hcounted p
    rw [← hrefs p, Heap.refs, show w'.shared.mount.heap.get p = some e from he] at hp
    show e.refs = w'.shared.files.count p + w'.shared.dirs.count p
    rw [hfiles, hdirs]
    exact hp
  · obtain ⟨r, fi⟩ := r
    rw [hok, hs]
    exact run_counted_iff (ranged_inRange hw.ranged) hcounted hrun

/-- Thread `t` starts an operation and executes `n` instructions. -/
def fuse_run (t : ℕ) (call : FuseCall) (n : ℕ) : List (Action ℕ FuseCall Spotify) :=
  .start t call :: List.replicate n (.step t single)

/-- A playlist is listed, then another thread opens a file of its track. -/
def list_and_open : List (Action ℕ FuseCall Spotify) :=
  fuse_run 0 (.inl (.readdir "/playlists/meta".toList)) 7 ++
    fuse_run 0 (.inl (.readdir "/playlists/meta/p".toList)) 14 ++
    fuse_run 1 (.inr (.spfs_open "/browse/tracks/spotify:track:1/name".toList ⟨none, 0⟩)) 1

end Spotifile
