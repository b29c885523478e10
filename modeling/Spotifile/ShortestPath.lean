import Spotifile.Path

/-!
# No shorter way

Where `spfs_path_get_relative_path` is right, no relative path that leads to the same place takes
fewer steps: `relative_path_shortest`. A component counts as a step if it is neither empty nor `.`.
-/

namespace Spotifile

open Lib

/-- The steps of a relative path. -/
def pathSteps (rel : gstr) : ℕ := (rel.splitOn '/').countP fun c => Moves "..".toList ".".toList c

/-- A path that is given by sound components takes a step for each of them. -/
lemma pathSteps_joined {cs : List gstr}
    (hcs : ∀ c ∈ cs, '/' ∉ c ∧ Moves "..".toList ".".toList c) :
    pathSteps (joined cs) = cs.length := by
  rcases cs with _ | ⟨c, cs⟩
  · decide
  · have hsplit := splitOn_append_slashed (hcs c List.mem_cons_self).1
      fun d hd => (hcs d (List.mem_cons_of_mem c hd)).1
    rw [joined, pathSteps, hsplit, List.countP_eq_length]
    intro d hd
    exact decide_eq_true (hcs d hd).2

/-- The relative path between two paths, of which neither is a proper ancestor of the other but the
root, leads from the one to the other, and every path that does so takes at least as many steps. -/
theorem relative_path_shortest {p q : NormalPath} (hpq : ¬ p.NonRootAncestor q)
    (hqp : ¬ q.NonRootAncestor p) :
    ∃ r, spfs_path_get_relative_path (some p.toPath) (some q.toPath) = some r ∧
      followPath p.comps r = q.comps ∧
      ∀ r', followPath p.comps r' = q.comps → pathSteps r ≤ pathSteps r' := by
  obtain ⟨common, p', q', hp, hq, hne, hr⟩ := exists_get_relative_path hpq hqp
  have hnames : ∀ c ∈ q', IsComponent c := by
    intro c hc
    exact q.isComponent c (by rw [hq]; exact List.mem_append_right common hc)
  have hcomponents : ∀ c ∈ List.replicate p'.length "..".toList ++ q',
      '/' ∉ c ∧ Moves "..".toList ".".toList c := by
    intro c hc
    rcases List.mem_append.mp hc with hc | hc
    · rw [List.eq_of_mem_replicate hc]
      decide
    · refine ⟨(hnames c hc).no_slash, .inr ?_⟩
      rintro (h | h)
      · exact (hnames c hc).ne_dot h
      · exact (hnames c hc).ne_nil h
  obtain ⟨r, hr', -, -, hfollow⟩ := relativePathCorrect_of_joined hp hq hr
  obtain rfl := Option.some.inj (hr.symm.trans hr')
  refine ⟨_, hr, hfollow, fun r' hr' => ?_⟩
  rw [pathSteps_joined hcomponents, List.length_append, List.length_replicate]
  obtain ⟨common', p'', q'', hp', hq', hsteps⟩ :=
    exists_rests_of_foldl "..".toList ".".toList (r'.splitOn '/') p.comps
  have hdest : q.comps = common' ++ q'' := by
    rw [← hr', ← hq', followPath, resolve]
  exact (length_rests_le (hp ▸ hp') (hq ▸ hdest) hne).trans hsteps

/-- The theorem for a link from a playlist to a track. -/
theorem relative_path_shortest_link :
    let p : NormalPath := ⟨["playlists".toList, "p".toList], by decide⟩
    let q : NormalPath := ⟨["browse".toList, "t".toList, "track.wav".toList], by decide⟩
    ∃ r, spfs_path_get_relative_path (some p.toPath) (some q.toPath) = some r ∧
      followPath p.comps r = q.comps ∧
      ∀ r', followPath p.comps r' = q.comps → pathSteps r ≤ pathSteps r' :=
  relative_path_shortest (fun h => absurd h.2.1 (by decide)) fun h => absurd h.2.1 (by decide)

end Spotifile
