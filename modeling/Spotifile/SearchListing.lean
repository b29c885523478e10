import Spotifile.MusicListing

/-!
# The directory of a search

`track_search_complete_cb` makes an entry for each result of the search, named after the artist and
the title. Nothing in the name tells two recordings of one title apart, and an entry that is there
is left as it is. So a result is found under its name only if no other track came before it there:
the directory shows all results exactly if the results of one name have one link
(`search_results_iff`).
-/

namespace Spotifile

open Lib

/-! ## Names -/

/-- The name of the entry. -/
def result_name (artistname trackname : gstr) : gstr :=
  spfs_sanitize_name (formatted_result artistname trackname)

/-! ## What the directory should show -/

/-- The names that the callback asks for, each with its track. -/
def results (search : sp_search) (o : Spotify) : List (gstr × sp_track) :=
  (List.range (o.search_num_tracks search)).map fun i =>
    (result_name (o.artist_name (o.track_artist (o.search_track search i) 0))
      (o.track_name (o.search_track search i)), o.search_track search i)

section Property

variable (links : SpotifyLinks)

/-- The directory `e` has the names of the results, and no others, and every result is found under
its name. -/
structure ShowsResults (search : sp_search) (o : Spotify) (h : Heap) (e : Ptr) : Prop where
  names : ∀ name, h.lookup e name ≠ none ↔ ∃ track, (name, track) ∈ results search o
  leads : ∀ name track, (name, track) ∈ results search o →
    ∃ link, h.lookup e name = some link ∧ LeadsToTrack links h e link track

/-- Every result has a link, and the results of one name have the same. -/
def OneLinkEach (search : sp_search) (o : Spotify) : Prop :=
  ∀ name track track', (name, track) ∈ results search o → (name, track') ∈ results search o →
    ∃ l l', links.track track = some l ∧ links.track track' = some l' ∧
      spfs_sanitize_name l = spfs_sanitize_name l'

end Property

/-! ## The directory -/

section Callback

variable {links : SpotifyLinks} {s s' : Mount} {e : Ptr}

variable (links) in
/-- The directory after the claims. Every name is free for a result. -/
abbrev SearchDir (e : Ptr) (claims : List (gstr × sp_track)) (s : Mount) : Prop :=
  TrackDir links .search_readdir (fun _ => False) e claims s

namespace SearchDir

/-- The directory of a search that has not called back. -/
lemma start {search : sp_search} (hw : s.Wf) (hsearch : (search, e) ∈ s.searches)
    (hattached : s.heap.Attached e) (hempty : ∀ name, s.heap.lookup e name = none) :
    SearchDir links e [] s :=
  TrackDir.start hw (.inr rfl) (hw.searches _ hsearch) hattached hempty

/-- The callback. -/
lemma callback (hd : SearchDir links e [] s)
    (hlinks : ∀ track l, links.track track = some l → IsLink l) (search : sp_search)
    (o : Spotify) :
    ∃ s', (track_search_complete_cb links search e).eval MountInstr.exec o s = some ((), s') ∧
      SearchDir links e (results search o) s' := by
  unfold track_search_complete_cb
  rw [Prog.of_bind, Prog.eval_call (v := o.search_num_tracks search) rfl,
    ← List.nil_append (results search o), results]
  apply @Prog.exists_eval_forEach_map MountInstr _ _ _ MountInstr.exec o _ _ (SearchDir links e)
    fun i => (result_name (o.artist_name (o.track_artist (o.search_track search i) 0))
      (o.track_name (o.search_track search i)), o.search_track search i)
  · exact hd
  · rintro i - done s₁ hd₁
    rw [Prog.of_bind, Prog.eval_call (v := o.search_track search i) rfl, Prog.of_bind,
      Prog.eval_call (v := o.track_name (o.search_track search i)) rfl, Prog.of_bind,
      Prog.eval_call (v := o.track_artist (o.search_track search i) 0) rfl, Prog.of_bind,
      Prog.eval_call (v := o.artist_name (o.track_artist (o.search_track search i) 0)) rfl]
    obtain ⟨s', heval, hd', -⟩ := hd₁.claim hlinks (dash_mem_formatted_result _ _) not_false
      (o.search_track search i) o
    exact ⟨s', heval, hd'⟩

/-! ## What it shows -/

/-- The names of the results have a dash. -/
lemma dash_mem_results {search : sp_search} {o : Spotify} {name : gstr} {track : sp_track}
    (hmem : (name, track) ∈ results search o) : '-' ∈ name := by
  obtain ⟨i, -, hi⟩ := List.mem_map.mp hmem
  obtain ⟨rfl, -⟩ := Prod.mk.inj hi
  exact mem_sanitize_name rfl (by decide) (dash_mem_formatted_result _ _)

/-- What the directory shows after the callback. -/
lemma shows_iff {search : sp_search} {o : Spotify} (hd : SearchDir links e (results search o) s) :
    ShowsResults links search o s.heap e ↔ OneLinkEach links search o := by
  have hserved : ∀ name track, (name, track) ∈ results search o →
      ((∃ link, s.heap.lookup e name = some link ∧ LeadsToTrack links s.heap e link track) ↔
        ∃ first, (results search o).lookup name = some first ∧ ∃ l l', links.track track = some l ∧
          links.track first = some l' ∧ spfs_sanitize_name l = spfs_sanitize_name l') := by
    intro name track hmem
    exact hd.served_iff (dash_mem_results hmem) hmem
  constructor
  · intro hshows name track track' hmem hmem'
    -- both have the link of the first result of the name
    obtain ⟨first, hfirst, l, l₀, hl, hl₀, heq⟩ :=
      (hserved name track hmem).mp (hshows.leads name track hmem)
    obtain ⟨first', hfirst', l', l₀', hl', hl₀', heq'⟩ :=
      (hserved name track' hmem').mp (hshows.leads name track' hmem')
    obtain rfl := Option.some.inj (hfirst.symm.trans hfirst')
    obtain rfl := Option.some.inj (hl₀.symm.trans hl₀')
    exact ⟨l, l', hl, hl', heq.trans heq'.symm⟩
  · intro hone
    refine ⟨fun name => hd.filled.there_iff not_false, fun name track hmem => ?_⟩
    obtain ⟨first, hfirst⟩ := exists_lookup_of_mem hmem
    exact (hserved name track hmem).mpr
      ⟨first, hfirst, hone name track first hmem (mem_of_lookup hfirst)⟩

end SearchDir

end Callback

/-- In any state of the mounted file system, for the directory of a search that has not called back:
after the callback, the directory shows the results exactly if those of one name have one link. -/
theorem search_results_iff {links : SpotifyLinks}
    (hlinks : ∀ track l, links.track track = some l → IsLink l)
    {l : List (World MountInstr Mount ℕ × Action ℕ MountCall Spotify)}
    {w : World MountInstr Mount ℕ} (hl : Trace (mount_system links) (World.idle Mount.init) l w)
    {search : sp_search} {e : Ptr} (hsearch : (search, e) ∈ w.shared.searches)
    (hattached : w.shared.heap.Attached e) (hempty : ∀ name, w.shared.heap.lookup e name = none)
    (o : Spotify) :
    ∃ s', (track_search_complete_cb links search e).eval MountInstr.exec o w.shared =
        some ((), s') ∧
      (ShowsResults links search o s'.heap e ↔ OneLinkEach links search o) := by
  have hstart : SearchDir links e [] w.shared := .start (wf_of_trace hl) hsearch hattached hempty
  obtain ⟨s', heval, hd⟩ := hstart.callback hlinks search o
  exact ⟨s', heval, hd.shows_iff⟩

/-- A search that finds two recordings of the title, with different links. -/
def two_recordings : Spotify :=
  { single with search_num_tracks := fun _ => 2, search_track := fun _ i => i + 1 }

set_option maxRecDepth 100000 in
/-- The theorem at a directory that `mkdir` made: one track is shown, but not two recordings. -/
theorem search_results_recordings : ∃ s s' s'' : Mount,
    (track_search_complete_cb two_links 0 10).eval MountInstr.exec single s = some ((), s') ∧
      ShowsResults two_links 0 single s'.heap 10 ∧
    (track_search_complete_cb two_links 0 10).eval MountInstr.exec two_recordings s =
        some ((), s'') ∧
      ¬ ShowsResults two_links 0 two_recordings s''.heap 10 := by
  obtain ⟨l, w, hl, -, hsearch, hattached, hchildren⟩ := Trace.exists_of_run
    (mount_system two_links) (fun _ _ => True) (World.idle Mount.init)
    (mount_run single 0 (.mkdir "/search".toList "q".toList) 8)
    (fun w => (0, 10) ∈ w.shared.searches ∧ w.shared.heap.Attached 10 ∧
      w.shared.heap.children 10 = some []) (by decide +kernel)
  have hempty : ∀ name, w.shared.heap.lookup 10 name = none := by
    intro name
    rw [Heap.lookup, hchildren]
    rfl
  obtain ⟨s', heval, hone⟩ :=
    search_results_iff two_links_isLink hl hsearch hattached hempty single
  obtain ⟨s'', heval', htwo⟩ :=
    search_results_iff two_links_isLink hl hsearch hattached hempty two_recordings
  refine ⟨w.shared, s', s'', heval, hone.mpr ?_, heval', fun hshows => ?_⟩
  · intro name track track' hmem hmem'
    obtain ⟨-, rfl⟩ := Prod.mk.inj (List.mem_singleton.mp hmem)
    obtain ⟨-, rfl⟩ := Prod.mk.inj (List.mem_singleton.mp hmem')
    exact ⟨_, _, rfl, rfl, rfl⟩
  · obtain ⟨l, l', hl, hl', heq⟩ := htwo.mp hshows (result_name "A".toList "T".toList) 1 2
      (.head _) (.tail _ (.head _))
    obtain rfl := Option.some.inj hl
    obtain rfl := Option.some.inj hl'
    exact absurd heq (by decide)

end Spotifile
