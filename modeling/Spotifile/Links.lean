import Spotifile.MountRuns

/-!
# Links lead to what they were created for

The target of a link is the relative path between two full paths, taken when the link is made. It
stays right if the directory and the goal were where they belong at that moment
(`mount_links_resolve`). The callback of a search may run before `search_dir_mkdir` has added the
directory to `/search`: the full path of the directory is then its name, and so every link that
the callback makes leads nowhere once the directory is in its place
(`not_mount_links_resolve`).
-/

namespace Spotifile

open Lib

namespace Mount

/-- Every link with a target from `relpath` leads, from the directory in the tree that holds it, to
the entity it was created for. -/
def LinksResolve (s : Mount) : Prop :=
  ∀ link goal, s.goals.lookup link = some goal →
    ∀ dir name, s.heap.Attached dir → s.heap.lookup dir name = some link →
      s.Leads dir (s.heap.target link) goal

variable {s : Mount}

/-- A directory without a parent that holds links is not in the tree. -/
lemma Wf.not_attached_of_early (hw : s.Wf) {dir : Ptr} (hdir : dir ∈ s.early)
    (horphan : s.heap.parent dir = none) : ¬ s.heap.Attached dir := by
  intro hattached
  have hsearch := hw.early dir hdir
  obtain ⟨cs, hcs⟩ := (hw.tree.attached_iff dir).mp hattached
  rcases hw.tree.walk_cases hcs with ⟨-, rfl⟩ | ⟨_, _, _, -, -, -, -, hparent, -⟩
  · exact absurd (hw.lt_of_search hsearch) (by decide)
  · rw [horphan] at hparent
    cases hparent

/-- Where every link that has its target leads to its goal, the links resolve. -/
lemma Good.links_resolve (hs : s.Good) (hw : s.Wf) : s.LinksResolve := by
  intro link goal hgoal dir name hattached hentry
  obtain ⟨-, -, hparent⟩ := hw.tree.entry dir name link hentry
  rcases hs.links link goal hgoal dir hparent with hearly | hleads
  · exact absurd hattached (hw.not_attached_of_early hearly (hs.early dir hearly))
  · exact hleads

end Mount

/-- In every run whose steps are in order, the links lead to what they were created for. -/
theorem mount_links_resolve {links : SpotifyLinks} (huri : links.Uris)
    {l : List (World MountInstr Mount ℕ × Action ℕ MountCall Spotify)}
    {w : World MountInstr Mount ℕ} (hl : Trace (mount_system links) (World.idle Mount.init) l w)
    (hassumed : ∀ p ∈ l, p.1.Executes MountInstr.Assumed p.2)
    (horder : ∀ p ∈ l, p.1.Executes MountInstr.InOrder p.2) : w.shared.LinksResolve := by
  have hinv : w.shared.Inv True :=
    mount_inv (fun _ => huri) hl fun _ p hp => ⟨hassumed p hp, horder p hp⟩
  exact (hinv.good trivial).links_resolve hinv.wf

/-! ## Runs -/

/-- The links of libspotify, for numbered tracks, artists and albums. -/
def numbered_links : SpotifyLinks where
  track n := some ("spotify:track:".toList ++ Nat.toDigits 10 n)
  artist n := some ("spotify:artist:".toList ++ Nat.toDigits 10 n)
  album n := some ("spotify:album:".toList ++ Nat.toDigits 10 n)

/-- The links of the example are Spotify URIs. -/
lemma numbered_links_uris : numbered_links.Uris := by
  intro track link hlink
  obtain rfl := Option.some.inj hlink
  exact ⟨"track:".toList ++ Nat.toDigits 10 track, rfl⟩

/-- libspotify with the playlist `p` and with searches that find one track: both have the track
`T` by the artist `A` alone. -/
def single : Spotify where
  playlists := some [0]
  playlist_tracks _ := some [1]
  playlist_name _ := "p".toList
  track_name _ := "T".toList
  track_num_artists _ := 1
  track_artist _ _ := 0
  artist_name _ := "A".toList
  artistbrowse_create artist := some artist
  artistbrowse_albums _ := some []
  artistbrowse_portraits _ := some []
  album_name _ := []
  image_create image := some image
  search_create := 0
  search_num_tracks _ := 1
  search_track _ _ := 1

/-- Thread `t` starts an operation and executes `n` instructions; `o` is what libspotify answers. -/
def mount_run (o : Spotify) (t : ℕ) (call : MountCall) (n : ℕ) :
    List (Action ℕ MountCall Spotify) :=
  .start t call :: List.replicate n (.step t o)

/-- The playlists are listed, then the playlist. -/
def list_playlist : List (Action ℕ MountCall Spotify) :=
  mount_run single 0 (.readdir "/playlists/meta".toList) 7 ++
    mount_run single 0 (.readdir "/playlists/meta/p".toList) 14

set_option maxRecDepth 100000 in
/-- The listing of a playlist is in order, and its link leads to the track. -/
theorem list_playlist_links_resolve : ∃ w : World MountInstr Mount ℕ,
    w.shared.goals = [(23, .browse 11)] ∧ w.shared.LinksResolve := by
  obtain ⟨l, w, hl, hok, hgoals⟩ := Trace.exists_of_run (mount_system numbered_links)
    (fun w a => w.Executes MountInstr.Assumed a ∧ w.Executes MountInstr.InOrder a)
    (World.idle Mount.init) list_playlist (fun w => w.shared.goals = [(23, .browse 11)])
    (by decide +kernel)
  exact ⟨w, hgoals, mount_links_resolve numbered_links_uris hl (fun p hp => (hok p hp).1)
    fun p hp => (hok p hp).2⟩

/-- A search is made; the callback runs before its directory is added to `/search`. -/
def search_completes_early : List (Action ℕ MountCall Spotify) :=
  mount_run single 0 (.mkdir "/search".toList "q".toList) 6 ++
    mount_run single 1 (.search_complete 0 10) 14 ++ List.replicate 2 (.step 0 single)

set_option maxRecDepth 100000 in
/-- The link in `/search/q` leads nowhere. -/
theorem not_mount_links_resolve :
    ¬ ∀ (links : SpotifyLinks) (l : List (World MountInstr Mount ℕ × Action ℕ MountCall Spotify))
      (w : World MountInstr Mount ℕ), links.Uris →
      Trace (mount_system links) (World.idle Mount.init) l w →
      (∀ p ∈ l, p.1.Executes MountInstr.Assumed p.2) → w.shared.LinksResolve := by
  intro h
  obtain ⟨l, w, hl, hok, hgoal, hdir, hentry, htarget, hnowhere⟩ := Trace.exists_of_run
    (mount_system numbered_links) (fun w a => w.Executes MountInstr.Assumed a)
    (World.idle Mount.init) search_completes_early
    (fun w => w.shared.goals.lookup 23 = some (.wav 11) ∧ w.shared.heap.Attached 10 ∧
      w.shared.heap.lookup 10 "A - T.wav".toList = some 23 ∧
      w.shared.heap.target 23 = some "../browse/tracks/spotify:track:1/track.wav".toList ∧
      w.shared.heap.follow_link 10 "../browse/tracks/spotify:track:1/track.wav".toList = none)
    (by decide +kernel)
  obtain ⟨t, q, ht, -, hfollow⟩ :=
    h numbered_links l w numbered_links_uris hl hok 23 (.wav 11) hgoal 10 _ hdir hentry
  obtain rfl := Option.some.inj (htarget.symm.trans ht)
  rw [hnowhere] at hfollow
  cases hfollow

end Spotifile
