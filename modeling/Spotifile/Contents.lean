import Spotifile.Attributes
import Spotifile.ReadOffset

/-!
# What the browse directories say

Below `/browse` every track, artist and album of which libspotify gave a link has a directory, with
a file for each thing that can be said of it. `about` is what libspotify says, without any tree.
`browse_file_reads` shows that the files have it: at any time after the directory was created, each
file is found under its path, and every read of it, at any offset and also much later, returns the
slice of what libspotify says then.

`track.wav` is left to the playback, `xspf_read` to the playlists.
-/

namespace Spotifile.Fuse

open Lib ReadOffset

/-! ## Reading -/

/-- Source: `errno.h`. -/
def EISDIR : ℤ := 21

/-- Nothing is said here of a file that is read by `wav_read`. A count is returned as an `int`.
Source: `spfs_fuse.c`, `spfs_read`. -/
def spfs_read (o : SpotifyFiles) (h : Heap) (fi : fuse_file_info) (size : ℕ) (offset : ℤ) :
    Option (ℤ × gstr) := do
  let p ← fi.fh
  let e ← h.get p
  match e.file_ops with
  | none => some (-EISDIR, [])
  | some ops =>
    match ops.read with
    | none => some (-EINVAL, [])
    | some f => do
      let read ← read_func o h p f
      let (buf, n) ← read size offset
      some (int32 n, buf)

/-- What libspotify says of a track, an artist or an album, in the files that are about it. -/
def about (o : SpotifyFiles) : Auxdata → SpfsReadFunc → Option gstr
  | .track t, .track_name_read => some (printf_s (o.track_name t))
  | .track t, .duration_read => some (printf_s (printf_d (o.track_duration t)))
  | .track t, .popularity_read => some (printf_s (printf_d (o.track_popularity t)))
  | .track t, .index_read => some (printf_s (printf_d (o.track_index t)))
  | .track t, .disc_read => some (printf_s (printf_d (o.track_disc t)))
  | .track t, .is_starred_read => some (bool_str (o.track_is_starred t))
  | .track t, .is_local_read => some (bool_str (o.track_is_local t))
  | .track t, .is_autolinked_read => some (bool_str (o.track_is_autolinked t))
  | .track t, .offlinestatus_read =>
    some (printf_s (spotify_track_offline_status_str (o.track_offline_get_status t)))
  | .artistbrowse ab, .artist_name_read =>
    some (printf_s (o.artist_name (o.artistbrowse_artist ab)))
  | .artistbrowse ab, .biography_read => o.artistbrowse_biography ab
  | .album a, .album_name_read => some (printf_s (o.album_name a))
  | .album a, .cover_read => some (o.image_data (o.image_create (o.album_cover a)))
  | _, _ => none

section Files

variable {o : SpotifyFiles} {h : Heap} {p d : Ptr} {e dir : spfs_entity} {a : Auxdata}
  {f : SpfsReadFunc} {content : gstr}

/-- A file in the directory of something has what is said of it. -/
lemma file_content_about (he : h.get p = some e) (hparent : e.parent = some d)
    (hdir : h.get d = some dir) (haux : dir.auxdata = some a) (htext : about o a f = some content) :
    file_content o h p f = some content := by
  have hof : auxdata_of_parent h p = some (some a) := by
    simp [auxdata_of_parent, he, hparent, hdir, haux]
  have hnothing : ∀ {c : Option gstr}, none = some content → c = some content := fun h => by cases h
  rcases a with t | _ | ab | album | _ | _
  · have htrack : parent_track h p = some (some t) := by
      simp [parent_track, hof, auxdata_sp_track, auxdata_track]
    have hsaid : ∀ str : Option sp_track → gstr,
        file_content.about_track h p str = some (str (some t)) := by
      intro str
      rw [file_content.about_track, htrack, Option.map_some]
    cases f <;> first | exact hnothing htext | exact (hsaid _).trans htext
  · cases f <;> exact hnothing htext
  · have hab : parent_artistbrowse h p = some ab := by
      simp [parent_artistbrowse, hof, auxdata_artistbrowse]
    cases f <;> first | exact hnothing htext | simpa [file_content, about, hab] using htext
  · have halbum : parent_album h p = some (some album) := by simp [parent_album, hof]
    cases f <;> first | exact hnothing htext | simpa [file_content, about, halbum] using htext
  · cases f <;> exact hnothing htext
  · cases f <;> exact hnothing htext

/-- What a read returns of a file with this content. -/
lemma spfs_read_eq (he : h.get p = some e) (hf : e.read = some f)
    (hcontent : file_content o h p f = some content) (hint : content.length < 2 ^ 31)
    (direct_io : ℕ) {size offset : ℕ} (hfit : offset + size < 2 ^ 63) :
    spfs_read o h ⟨some p, direct_io⟩ size offset =
      some (((slice content offset size).length : ℤ), slice content offset size) := by
  have hlength : (slice content offset size).length < 2 ^ 31 := by
    rw [length_slice]
    omega
  obtain ⟨read, hread⟩ : ∃ read, read_func o h p f = some read := by
    cases f
    case wav_read => cases hcontent
    all_goals exact ⟨_, rfl⟩
  have hsingle : read size offset =
      some (slice content offset size, (slice content offset size).length) := by
    rcases read_func_eq hread hcontent with rfl | rfl
    · exact (readsContent_offset content).single size offset hfit
    · exact (readsContent_image content).single size offset hfit
  rcases hops : e.file_ops with _ | ops
  · simp [spfs_entity.read, hops] at hf
  · have hopsread : ops.read = some f := by simpa [spfs_entity.read, hops] using hf
    simp [spfs_read, he, hops, hopsread, hread, hsingle, int32_eq hlength]

end Files

/-! ## The files of a browse directory -/

/-- The operations of a file are part of what it is. -/
lemma file_ops_of_shape {e e' : spfs_entity} (hshape : e'.e.shape = e.e.shape) :
    e'.file_ops = e.file_ops := by
  rcases e with ⟨_, _, _, _, _ | _ | _⟩ <;> rcases e' with ⟨_, _, _, _, _ | _ | _⟩ <;>
    simp_all [EntityData.shape, spfs_entity.file_ops]

/-- A file of a browse directory that is not `track.wav`. -/
lemma entry_file {a : Auxdata} {x : spfs_entity} {f : SpfsReadFunc} (hx : x ∈ a.entries)
    (hf : x.read = some f) (hwav : f ≠ .wav_read) : x.file_ops = some ⟨some f, false⟩ := by
  have hread : ∀ (name : gstr) (g : SpfsReadFunc), (read_file name g).read = some f →
      (read_file name g).file_ops = some ⟨some f, false⟩ := by
    intro name g hg
    obtain rfl := Option.some.inj hg
    rfl
  have hdir : ∀ (name : gstr) (ops : spfs_dir_ops),
      (spfs_entity_dir_create (some name) ops).read ≠ some f := fun _ _ h => by cases h
  have hwavfile : ∀ (name : gstr) (t : sp_track), (create_track_wav_file name t).read ≠ some f := by
    intro name t h
    exact hwav (Option.some.inj h).symm
  rcases a with t | _ | ab | album | _ | _ <;>
    simp only [Auxdata.entries, track_dir_entries, artist_dir_entries, album_dir_entries,
      List.mem_cons, List.not_mem_nil, or_false] at hx
  · rcases hx with rfl | rfl | rfl | rfl | rfl | rfl | rfl | rfl | rfl | rfl | rfl
    case inr.inl => exact absurd hf (hwavfile _ _)
    all_goals first | exact hread _ _ hf | exact absurd hf (hdir _ _)
  · rcases hx with rfl | rfl | rfl | rfl
    all_goals first | exact hread _ _ hf | exact absurd hf (hdir _ _)
  · rcases hx with rfl | rfl
    all_goals exact hread _ _ hf

/-- Every element of the second list has its counterpart in the first. -/
lemma exists_mem_of_forall₂ {α β : Type} {R : α → β → Prop} {l : List α} {l' : List β}
    (h : List.Forall₂ R l l') {b : β} (hb : b ∈ l') : ∃ a ∈ l, R a b := by
  induction h with
  | nil => cases hb
  | cons hab _ ih =>
    rcases List.mem_cons.mp hb with rfl | hb
    · exact ⟨_, List.mem_cons_self, hab⟩
    · obtain ⟨a, ha, hr⟩ := ih hb
      exact ⟨a, List.mem_cons_of_mem _ ha, hr⟩

/-- A path that is written from names has these components. -/
lemma components_slashed {names : List gstr} (hnames : ∀ c ∈ names, c ≠ [] ∧ '/' ∉ c) :
    components ((slashed '/' names).splitOn '/') = names := by
  have hsplit := splitOn_append_slashed (c := []) List.not_mem_nil fun c hc => (hnames c hc).2
  rw [List.nil_append] at hsplit
  rw [hsplit, components_cons_nil, components, List.filter_eq_self]
  intro c hc
  simpa using (hnames c hc).1

/-- The place of the directories of a kind. -/
lemma walk_base {s : Mount} (hw : s.Wf) (k : BrowseKind) :
    s.heap.walk 0 k.place = some k.base := by
  apply hw.init.walk
  rcases k with _ | _ | _ <;> decide

/-- An entry with which a browse directory was created is in its table. -/
lemma exists_lookup_of_filled {h : Heap} (hh : h.Tree) {d : Ptr} {entries : List spfs_entity}
    (hd : h.Filled d entries) {x : spfs_entity} (hx : x ∈ entries) {name : gstr}
    (hname : x.name = some name) :
    ∃ p e, h.lookup d name = some p ∧ h.get p = some e ∧ x.Alike e := by
  obtain ⟨table, htable, hentries⟩ := hd
  obtain ⟨⟨name', p⟩, hmem, hname', e, he, halike⟩ := exists_mem_of_forall₂ hentries hx
  obtain rfl : name = name' := Option.some.inj (hname.symm.trans hname')
  exact ⟨p, e, Heap.lookup_of_mem (hh.distinct d table htable) htable hmem, he, halike⟩

/-- The entry of a browse directory is found under its path. -/
lemma find_entity_browse {s : Mount} (hw : s.Wf) {k : BrowseKind} {key name : gstr} {d p : Ptr}
    (hd : s.heap.lookup k.base key = some d) (hp : s.heap.lookup d name = some p)
    (hne : name ≠ key) :
    find_entity s.heap (slashed '/' (k.place ++ [key, name])) = some p := by
  obtain ⟨-, hdname, -⟩ := hw.tree.entry k.base key d hd
  obtain ⟨hnil, hslash⟩ := name_of_lookup hw.tree hp
  have hplace : ∀ c ∈ k.place ++ [key], c ≠ [] ∧ '/' ∉ c := by
    intro c hc
    have hbase : ∀ c ∈ k.place, c ≠ [] ∧ '/' ∉ c := by rcases k with _ | _ | _ <;> decide
    rcases List.mem_append.mp hc with hc | hc
    · exact hbase c hc
    · rw [List.mem_singleton.mp hc]
      exact name_of_lookup hw.tree hd
  have hwalk : s.heap.walk 0 (components ((slashed '/' (k.place ++ [key])).splitOn '/')) =
      some d := by
    rw [components_slashed hplace, Heap.walk_append, walk_base hw, Option.bind_some,
      Heap.walk_cons, hd]
    rfl
  have hpath : slashed '/' (k.place ++ [key, name]) =
      slashed '/' (k.place ++ [key]) ++ '/' :: name := by
    simp [slashed_append]
  rw [hpath, find_entity_child hw.tree hwalk hnil hslash, hp]
  rw [hdname]
  exact fun h => hne (Option.some.inj h).symm

variable {links : SpotifyLinks}

/-- A browse directory that is once there: in every later state, each of its files is found under
its path and can be opened, and every read returns the slice of what libspotify then says. The file
must not have the name of the directory, of which `spfs_entity_find_path` would find the
directory. -/
theorem browse_file_reads {l l' : List (World FuseInstr Served ℕ × Action ℕ FuseCall Spotify)}
    {w w' : World FuseInstr Served ℕ}
    (hl : Trace (fuse_system links) (World.idle Served.init) l w)
    (hl' : Trace (fuse_system links) w l' w') {k : BrowseKind} {key : gstr} {d : Ptr}
    {a : Auxdata} (hd : w.shared.mount.heap.lookup k.base key = some d)
    (ha : (w.shared.mount.heap.get d).bind spfs_entity.auxdata = some a) {x : spfs_entity}
    (hx : x ∈ a.entries) {name : gstr} (hname : x.name = some name) {f : SpfsReadFunc}
    (hf : x.read = some f) (hwav : f ≠ .wav_read) (hne : name ≠ key) :
    ∃ p, find_entity w.shared.mount.heap (slashed '/' (k.place ++ [key, name])) = some p ∧
      (∀ fi, ∃ fi' s', spfs_open (slashed '/' (k.place ++ [key, name])) fi w.shared.handles =
        some ((0, fi'), s') ∧ fi'.fh = some p) ∧
      ∀ o content, about o a f = some content → content.length < 2 ^ 31 →
        ∀ direct_io, ∀ size offset : ℕ, offset + size < 2 ^ 63 →
          spfs_read o w'.shared.mount.heap ⟨some p, direct_io⟩ size offset =
            some (((slice content offset size).length : ℤ), slice content offset size) := by
  have hlaid := fuse_laid hl
  have hh := hlaid.wf.tree
  have hg := (fuse_grows hl hl').heap
  obtain ⟨dir, hdir, haux⟩ := Option.bind_eq_some_iff.mp ha
  have hbrowses : dir.browses = some k := by
    have hk := hlaid.wf.browses_of_lookup hd
    rwa [Heap.browses, hdir] at hk
  obtain ⟨p, e, hlookup, he, halike⟩ := exists_lookup_of_filled hh
    (hlaid.typed.browse d dir a hdir (by simp [hbrowses]) haux) hx hname
  obtain ⟨-, -, hparent⟩ := hh.entry d name p hlookup
  have hfind := find_entity_browse hlaid.wf hd hlookup hne
  have hread : e.read = some f := halike.read.trans hf
  have hops : e.file_ops = some ⟨some f, false⟩ := by
    rw [← entry_file hx hf hwav]
    exact file_ops_of_shape halike.shape
  refine ⟨p, hfind, fun fi => ?_, fun o content htext hint direct_io size offset hfit => ?_⟩
  · have hfind' : w.shared.handles.find (slashed '/' (k.place ++ [key, name])) = some p := hfind
    have he' : w.shared.handles.heap.get p = some e := he
    refine ⟨⟨some p, spfs_entity_get_direct_io e⟩, {
      w.shared.handles with
      heap := w.shared.handles.heap.add_refs p 1
      files := p :: w.shared.handles.files }, ?_, rfl⟩
    have hhook : e.open_hook = some false := open_hook_of_file_ops hops
    rw [spfs_open, hfind']
    simp [he', hhook]
  · obtain ⟨e', he', hee'⟩ := hg.get p e he
    obtain ⟨dir', hdir', hdd'⟩ := hg.get d dir hdir
    have hparent' : e'.parent = some d := by
      rw [Heap.parent, he, Option.bind_some] at hparent
      exact hee'.parent d hparent
    have haux' : dir'.auxdata = some a := by
      rw [hdd'.auxdata (by simp [spfs_entity.readdir_of_browses hbrowses]), haux]
    have hread' : e'.read = some f := hee'.toAlike.read.trans hread
    exact spfs_read_eq he' hread' (file_content_about he' hparent' hdir' haux' htext) hint
      direct_io hfit

set_option maxRecDepth 100000 in
/-- The theorem for the name of a track, which is read after a playlist was listed. -/
theorem browse_file_reads_name : ∃ l w p,
    Trace (fuse_system numbered_links) (World.idle Served.init) l w ∧
    find_entity w.shared.mount.heap "/browse/tracks/spotify:track:1/name".toList = some p ∧
    (∀ fi, ∃ fi' s',
      spfs_open "/browse/tracks/spotify:track:1/name".toList fi w.shared.handles =
        some ((0, fi'), s') ∧ fi'.fh = some p) ∧
    spfs_read starred_files w.shared.mount.heap ⟨some p, 0⟩ 4096 1 = some (1, "\n".toList) := by
  obtain ⟨l, w, hl, -, hd, ha⟩ := Trace.exists_of_run (fuse_system numbered_links)
    (fun _ _ => True) (World.idle Served.init) list_and_open
    (fun w => w.shared.mount.heap.lookup 4 "spotify:track:1".toList = some 11 ∧
      (w.shared.mount.heap.get 11).bind spfs_entity.auxdata = some (.track 1))
    (by decide +kernel)
  obtain ⟨p, hfind, hopen, hread⟩ := browse_file_reads hl .nil (k := .track) hd ha
    (x := read_file "name".toList .track_name_read) List.mem_cons_self rfl rfl
    (fun h => by cases h) (by decide)
  exact ⟨l, w, p, hl, hfind, hopen,
    hread starred_files "T\n".toList rfl (by decide) 0 4096 1 (by decide)⟩

end Spotifile.Fuse
