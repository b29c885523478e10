import Spotifile.Alone
import Spotifile.Lib.FirstCome
import Spotifile.Links

/-!
# Directories whose links lead to tracks

The music directory of a playlist and the directory of a search are filled in the same way:
`create_wav_track_link_in_directory` makes a link to the `track.wav` of a track where there is no
entry of its name, and leaves the others as they are. `TrackDir` is such a directory after a list of
claims, each a name and the track for which it was asked; `TrackDir.claim` adds one claim, and
`TrackDir.served_iff` says when a track is found under the name that was claimed for it.

All names have a dash, so that none of them is a link up or to the directory itself.
-/

namespace Spotifile

open Lib

/-- The directories with links to the files of tracks, under names that their own code makes. -/
def SpfsReaddirFunc.OfTracks (f : SpfsReaddirFunc) : Prop :=
  f = .playlist_dir_music_readdir ∨ f = .search_readdir

/-! ## What a link should lead to -/

section Property

variable (links : SpotifyLinks)

/-- The `track.wav` of a track: the file in the directory that `create_track_browse_dir` gives for
it. Tracks whose links are the same once they are sanitised share it. -/
def TrackWav (h : Heap) (track : sp_track) (q : Ptr) : Prop :=
  ∃ l d, links.track track = some l ∧
    h.lookup BrowseKind.track.base (spfs_sanitize_name l) = some d ∧
    h.lookup d "track.wav".toList = some q

/-- A link in the directory `e` leads to the `track.wav` of a track. -/
def LeadsToTrack (h : Heap) (e link : Ptr) (track : sp_track) : Prop :=
  ∃ target q, h.target link = some target ∧ h.follow_link e target = some q ∧
    TrackWav links h track q

/-- The link behind a name, and the track for which it was made. Without a link of the track it
has its own name as its target. -/
def Behind (h : Heap) (e : Ptr) (name : gstr) (link : Ptr) (track : sp_track) : Prop :=
  (links.track track = none → h.target link = some name) ∧
  (links.track track ≠ none → LeadsToTrack links h e link track)

end Property

section Directory

variable {links : SpotifyLinks} {s s' : Mount} {e : Ptr}

/-- The `track.wav` of a track stays what it is. -/
lemma TrackWav.mono {h h' : Heap} (hg : h.Grows h') {track : sp_track} {q : Ptr}
    (hq : TrackWav links h track q) : TrackWav links h' track q := by
  obtain ⟨l, d, hl, hd, hq⟩ := hq
  exact ⟨l, d, hl, hg.lookup _ _ _ hd, hg.lookup _ _ _ hq⟩

/-- A link goes on to lead to its track. -/
lemma LeadsToTrack.mono (hk : s.Keeps s') {link : Ptr} {track : sp_track}
    (hlink : link < s.heap.fresh) (hl : LeadsToTrack links s.heap e link track) :
    LeadsToTrack links s'.heap e link track := by
  obtain ⟨target, q, htarget, hfollow, hq⟩ := hl
  exact ⟨target, q, (hk.target link hlink).trans htarget, hk.heap.follow_link hfollow,
    hq.mono hk.heap⟩

/-- What is behind a name stays there. -/
lemma Behind.mono (hk : s.Keeps s') {name : gstr} {link : Ptr} {track : sp_track}
    (hlink : link < s.heap.fresh) (hb : Behind links s.heap e name link track) :
    Behind links s'.heap e name link track :=
  ⟨fun hnone => (hk.target link hlink).trans (hb.1 hnone), fun hsome => (hb.2 hsome).mono hk hlink⟩

/-- A track has no other `track.wav`. -/
lemma TrackWav.eq_iff (hw : s.Wf) {track first : sp_track} {q : Ptr}
    (hq : TrackWav links s.heap first q) :
    TrackWav links s.heap track q ↔ ∃ l l', links.track track = some l ∧
      links.track first = some l' ∧ spfs_sanitize_name l = spfs_sanitize_name l' := by
  obtain ⟨l', d', hl', hd', hq'⟩ := hq
  constructor
  · rintro ⟨l, d, hl, hd, hq⟩
    obtain ⟨-, -, hparent⟩ := hw.tree.entry _ _ _ hq
    obtain ⟨-, -, hparent'⟩ := hw.tree.entry _ _ _ hq'
    obtain rfl := Option.some.inj (hparent.symm.trans hparent')
    obtain ⟨-, hname, -⟩ := hw.tree.entry _ _ _ hd
    obtain ⟨-, hname', -⟩ := hw.tree.entry _ _ _ hd'
    exact ⟨l, l', hl, hl', Option.some.inj (hname.symm.trans hname')⟩
  · rintro ⟨l, m, hl, hm, hlm⟩
    obtain rfl := Option.some.inj (hl'.symm.trans hm)
    exact ⟨l, d', hl, hlm ▸ hd', hq'⟩

/-- A name with a dash, as a target, leads to the entry of that name. -/
lemma follow_name (h : Heap) (dir : Ptr) {name : gstr} (hdash : '-' ∈ name) (hslash : '/' ∉ name) :
    h.follow_link dir name = h.lookup dir name := by
  have hne : ∀ {c : gstr}, '-' ∉ c → name ≠ c := by
    rintro c hc rfl
    exact hc hdash
  rw [h.follow_link_name dir (hne (by decide)) hslash, Heap.follow_step, if_neg (hne (by decide)),
    if_neg (not_or.mpr ⟨hne (by decide), hne (by decide)⟩)]

/-! ## The directory -/

variable (links) in
/-- The directory after the claims. -/
structure TrackDir (f : SpfsReaddirFunc) (reserved : gstr → Prop) (e : Ptr)
    (claims : List (gstr × sp_track)) (s : Mount) : Prop where
  wf : s.Wf
  ofTracks : f.OfTracks
  readdir : s.heap.readdir e = some f
  inside : ∃ cs, s.heap.walk 0 cs = some e
  filled : FirstCome (s.heap.lookup e) reserved (Behind links s.heap e) claims

namespace TrackDir

variable {f : SpfsReaddirFunc} {reserved : gstr → Prop} {claims : List (gstr × sp_track)}

/-- A directory in which nothing is yet. -/
lemma start (hw : s.Wf) (hf : f.OfTracks) (hreaddir : s.heap.readdir e = some f)
    (hattached : s.heap.Attached e) (hempty : ∀ name, s.heap.lookup e name = none) :
    TrackDir links f reserved e [] s :=
  ⟨hw, hf, hreaddir, (hw.tree.attached_iff e).mp hattached, .nil fun name _ => hempty name⟩

/-- It is a directory for which links may be made. -/
lemma holds (hd : TrackDir links f reserved e claims s) : s.Holds e f :=
  ⟨hd.readdir, fun _ => hd.inside⟩

/-- It was created. -/
lemma lt_fresh (hd : TrackDir links f reserved e claims s) : e < s.heap.fresh := by
  obtain ⟨cs, hcs⟩ := hd.inside
  exact hd.wf.tree.lt_fresh_of_walk hcs

/-- It is not among the directories of the tracks. -/
lemma parent_ne (hd : TrackDir links f reserved e claims s) :
    s.heap.parent e ≠ some BrowseKind.track.base := by
  rcases hd.ofTracks with rfl | rfl
  · rw [(hd.wf.place_of_home hd.readdir (b := 9) rfl (by decide) hd.inside).1]
    decide
  · rw [(hd.wf.place_of_home hd.readdir (b := 6) rfl (by decide) hd.inside).1]
    decide

/-- What does not touch the table. -/
lemma mono (hd : TrackDir links f reserved e claims s) (hw : s'.Wf) (hk : s.Keeps s')
    (hfree : ∀ name, ¬ reserved name → s.heap.lookup e name = none →
      s'.heap.lookup e name = none) : TrackDir links f reserved e claims s' where
  wf := hw
  ofTracks := hd.ofTracks
  readdir := hk.heap.readdir hd.readdir
  inside := hd.inside.imp fun _ hcs => hk.heap.walk hcs
  filled := by
    refine hd.filled.mono (fun name p hp => hk.heap.lookup e name p hp) hfree ?_
    exact fun name p t hp => Behind.mono hk (lt_fresh_of_lookup hd.wf hp)

/-- A link is added for a track that is the first under its name. -/
lemma linked (hd : TrackDir links f reserved e claims s) {name : gstr} {track : sp_track}
    {dst : Option Ptr} (hfree : s.heap.lookup e name = none) (hl : Linked s s' e name dst)
    (hnew : Behind links s'.heap e name s.heap.fresh track) :
    TrackDir links f reserved e (claims ++ [(name, track)]) s' where
  wf := hl.wf
  ofTracks := hd.ofTracks
  readdir := hl.keeps.heap.readdir hd.readdir
  inside := hd.inside.imp fun _ hcs => hl.keeps.heap.walk hcs
  filled := by
    refine hd.filled.insert hfree (fun name' => ?_) ?_ hnew
    · rw [hl.lookup e hd.lt_fresh]
      exact if_congr (and_iff_right rfl) rfl rfl
    · exact fun name' p t hp => Behind.mono hl.keeps (lt_fresh_of_lookup hd.wf hp)

/-- The directory and the `track.wav` of a track are apart: they part right below the root. -/
lemma apart_track_wav (hd : TrackDir links f reserved e claims s) {l : gstr} (hl : IsLink l)
    {d q : Ptr} (hlookup : s.heap.lookup BrowseKind.track.base (spfs_sanitize_name l) = some d)
    (hq : s.heap.lookup d "track.wav".toList = some q) : s.heap.Apart e q := by
  have hbase : s.heap.walk 0 BrowseKind.track.place = some BrowseKind.track.base :=
    hd.wf.init.walk (by decide)
  have hplace : [] ++ "browse".toList :: ["tracks".toList, spfs_sanitize_name l,
      "track.wav".toList] = BrowseKind.track.place ++ [spfs_sanitize_name l] ++
        ["track.wav".toList] := rfl
  have hwalk : s.heap.walk 0 ([] ++ "browse".toList :: ["tracks".toList, spfs_sanitize_name l,
      "track.wav".toList]) = some q := by
    rw [hplace, Heap.walk_concat, Heap.walk_concat, hbase, Option.bind_some, hlookup]
    exact hq
  have hlength : (slashed '/' ([] ++ "browse".toList :: ["tracks".toList, spfs_sanitize_name l,
      "track.wav".toList])).length < PATH_MAX := by
    have hlen := hl.length_le
    simp [PATH_MAX]
    omega
  have hdots : ∀ x ∈ "browse".toList :: ["tracks".toList, spfs_sanitize_name l,
      "track.wav".toList], x ≠ ".".toList ∧ x ≠ "..".toList := by
    intro x hx
    simp only [List.mem_cons, List.not_mem_nil, or_false] at hx
    rcases hx with rfl | rfl | rfl | rfl
    · decide
    · decide
    · exact hl.ne_dots
    · decide
  rcases hd.ofTracks with rfl | rfl
  · obtain ⟨-, c, hc⟩ := hd.wf.place_of_home hd.readdir (b := 9) rfl (by decide) hd.inside
    exact ⟨[], ["music".toList], _, "playlists".toList, "browse".toList, c, hc, hwalk, by decide,
      by decide, hlength, hdots⟩
  · obtain ⟨-, c, hc⟩ := hd.wf.place_of_home hd.readdir (b := 6) rfl (by decide) hd.inside
    exact ⟨[], [], _, "search".toList, "browse".toList, c, hc, hwalk, by decide, by decide,
      hlength, hdots⟩

/-- A claim: the first under its name gets a link, and a later one nothing. -/
lemma claim (hd : TrackDir links f reserved e claims s)
    (hlinks : ∀ track l, links.track track = some l → IsLink l) {linkname : gstr}
    (hdash : '-' ∈ linkname) (hreserved : ¬ reserved (spfs_sanitize_name linkname))
    (track : sp_track) (o : Spotify) :
    ∃ s', (create_wav_track_link_in_directory links e linkname track).eval MountInstr.exec o s =
        some ((), s') ∧
      TrackDir links f reserved e (claims ++ [(spfs_sanitize_name linkname, track)]) s' ∧
      s.Keeps s' := by
  have hw := hd.wf
  have hf : f.links = some .track := by
    rcases hd.ofTracks with rfl | rfl <;> rfl
  have hnil : spfs_sanitize_name linkname ≠ [] :=
    List.ne_nil_of_mem (mem_sanitize_name rfl (by decide) hdash)
  unfold create_wav_track_link_in_directory
  rw [Prog.of_bind, eval_has_child hd.readdir]
  rcases hfree : s.heap.lookup e (spfs_sanitize_name linkname) with _ | p
  · rw [Option.isSome_none, if_neg Bool.false_ne_true]
    rcases hlink : links.track track with _ | l
    · have hcreate : (create_track_browse_dir links track).eval MountInstr.exec o s =
          some (none, s) := by
        unfold create_track_browse_dir
        rw [hlink]
        exact eval_create_browse_dir_none (k := .track) hw (by decide)
      obtain ⟨s', heval, hl⟩ := eval_create_link (o := o) hw hd.holds hf hnil hfree none none
      refine ⟨s', ?_, hd.linked hfree hl ⟨fun _ => hl.null rfl, fun hne => absurd hlink hne⟩,
        hl.keeps⟩
      rw [Prog.eval_bind_of_eq hcreate, Prog.of_bind, Prog.eval_call (v := none) rfl]
      exact heval
    · have hIs := hlinks track l hlink
      obtain ⟨d, s₁, hcreate, ho⟩ := eval_create_track_browse_dir (o := o) hw hlink
      obtain ⟨q, hq, hfind⟩ := ho.wf.find_track_wav ho.browses ho.name
        (hIs.ne_of_colon (by decide))
      have hother := ho.lookup_of_ne hd.lt_fresh (hw.ne_base hd.readdir .track)
      have hd₁ : TrackDir links f reserved e claims s₁ :=
        hd.mono ho.wf ho.keeps fun name _ hname => (hother name).trans hname
      obtain ⟨s', heval, hl⟩ := eval_create_link (o := o) ho.wf hd₁.holds hf hnil
        ((hother _).trans hfree) (some (.wav d)) (some q)
      have hhere := ho.here hw hIs.ne_nil
      obtain ⟨target, htarget, hfollow⟩ := hl.leads q rfl (hd₁.apart_track_wav hIs hhere hq)
      refine ⟨s', ?_, hd₁.linked ((hother _).trans hfree) hl ⟨fun hnone => ?_, fun _ => ?_⟩,
        ho.keeps.trans hl.keeps⟩
      · rw [Prog.eval_bind_of_eq hcreate, Prog.of_bind,
          Prog.eval_call (v := some q) (by rw [MountInstr.exec, Option.bind_some, hfind])]
        exact heval
      · cases hlink.symm.trans hnone
      · exact ⟨target, q, htarget, hfollow, TrackWav.mono hl.keeps.heap ⟨l, d, hlink, hhere, hq⟩⟩
  · rw [Option.isSome_some, if_pos rfl]
    refine ⟨s, rfl, ⟨hw, hd.ofTracks, hd.readdir, hd.inside, hd.filled.taken hreserved ?_⟩,
      .refl s⟩
    rw [hfree]
    exact Option.some_ne_none p

/-! ## What it shows -/

/-- An entry leads to a track exactly if it was made for one with the same link. -/
lemma leads_iff (hd : TrackDir links f reserved e claims s) {name : gstr} (hdash : '-' ∈ name)
    {link : Ptr} {first : sp_track} (track : sp_track)
    (hlink : s.heap.lookup e name = some link) (hb : Behind links s.heap e name link first) :
    LeadsToTrack links s.heap e link track ↔ ∃ l l', links.track track = some l ∧
      links.track first = some l' ∧ spfs_sanitize_name l = spfs_sanitize_name l' := by
  have hw := hd.wf
  rcases hfirst : links.track first with _ | l₀
  · refine iff_of_false ?_ (by rintro ⟨_, _, -, hl', -⟩; cases hl')
    -- the target is the name, so that the link leads to itself, and that is in `e`
    rintro ⟨target, q, htarget, hfollow, l, d, -, hlookup, hq⟩
    have hwalk : s.heap.walk e [name] = some link := by
      rw [Heap.walk_cons, hlink]
      rfl
    have hslash : '/' ∉ name := (hw.tree.walk_names hwalk name List.mem_cons_self).2
    obtain rfl := Option.some.inj ((hb.1 hfirst).symm.trans htarget)
    rw [follow_name s.heap e hdash hslash, hlink] at hfollow
    obtain rfl := Option.some.inj hfollow
    obtain ⟨-, -, hparent⟩ := hw.tree.entry _ _ _ hlink
    obtain ⟨-, -, hparent'⟩ := hw.tree.entry _ _ _ hq
    obtain rfl := Option.some.inj (hparent.symm.trans hparent')
    obtain ⟨-, -, hbase⟩ := hw.tree.entry _ _ _ hlookup
    exact hd.parent_ne hbase
  · obtain ⟨target, q, htarget, hfollow, hq⟩ := hb.2 (by rw [hfirst]; exact Option.some_ne_none _)
    rw [← hfirst, ← hq.eq_iff hw]
    constructor
    · rintro ⟨target', q', htarget', hfollow', hq'⟩
      obtain rfl := Option.some.inj (htarget.symm.trans htarget')
      obtain rfl := Option.some.inj (hfollow.symm.trans hfollow')
      exact hq'
    · exact fun hq => ⟨target, q, htarget, hfollow, hq⟩

/-- A track is found under the name that was claimed for it exactly if the first claim of the name
was for one with the same link. -/
lemma served_iff (hd : TrackDir links f reserved e claims s) {name : gstr} (hdash : '-' ∈ name)
    {track : sp_track} (hmem : (name, track) ∈ claims) :
    (∃ link, s.heap.lookup e name = some link ∧ LeadsToTrack links s.heap e link track) ↔
      ∃ first, claims.lookup name = some first ∧ ∃ l l', links.track track = some l ∧
        links.track first = some l' ∧ spfs_sanitize_name l = spfs_sanitize_name l' :=
  hd.filled.served_iff hmem fun _ _ hlink hb => hd.leads_iff hdash track hlink hb

end TrackDir

end Directory

end Spotifile
