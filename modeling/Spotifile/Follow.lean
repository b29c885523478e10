import Spotifile.Growth

/-!
# Relative paths from places with any names

`Heap.Tree.follow_relpath` asks for normal names and for paths that fit in `PATH_MAX`. For the
directory from which a relative path starts this is more than is needed: `..` climbs out of any
name, and what is cut off behind the beginning of its last component does not count
(`Heap.Tree.follow_relpath_cut`).
-/

namespace Spotifile

open Lib

/-! ## Paths that are cut -/

/-- A path that is cut in its last component keeps the components before it. -/
lemma exists_take_slashed {parents : List gstr} {c : gstr} {n : ℕ} (hc : c ≠ [])
    (hn : (slashed '/' parents).length + 1 < n) :
    ∃ c', (slashed '/' (parents ++ [c])).take n = slashed '/' (parents ++ [c']) ∧ c' ≠ [] ∧
      ∀ x ∈ c', x ∈ c := by
  obtain ⟨x, c, rfl⟩ := List.exists_cons_of_ne_nil hc
  refine ⟨(x :: c).take (n - (slashed '/' parents).length - 1), ?_, ?_, ?_⟩
  · have hone : ∀ d : gstr, slashed '/' [d] = '/' :: d := fun d => by simp
    obtain ⟨m, hm⟩ : ∃ m, n - (slashed '/' parents).length = m + 1 :=
      ⟨n - (slashed '/' parents).length - 1, by omega⟩
    rw [slashed_append, slashed_append, hone, hone, List.take_append,
      List.take_of_length_le (by omega), hm, List.take_succ_cons, Nat.add_sub_cancel]
  · obtain ⟨m, hm⟩ : ∃ m, n - (slashed '/' parents).length - 1 = m + 1 :=
      ⟨n - (slashed '/' parents).length - 2, by omega⟩
    rw [hm, List.take_succ_cons]
    exact List.cons_ne_nil _ _
  · exact fun y hy => List.mem_of_mem_take hy

/-- The relative path between two paths that part below a common directory. -/
lemma get_relative_path_slashed {common p q : List gstr} (hp : ∀ c ∈ common ++ p, c ≠ [] ∧ '/' ∉ c)
    (hq : ∀ c ∈ common ++ q, c ≠ [] ∧ '/' ∉ c) (hne : ∀ x ∈ p.head?, ∀ y ∈ q.head?, x ≠ y)
    (hpnil : p ≠ []) (hqnil : q ≠ []) :
    spfs_path_get_relative_path (some (slashed '/' (common ++ p)))
      (some (slashed '/' (common ++ q))) =
        some (joined (List.replicate p.length "..".toList ++ q)) := by
  have hshared := common_prefix_slashed (fun c hc => (hp c hc).2) (fun c hc => (hq c hc).2) hne
    (by simp [hpnil]) (by simp [hqnil])
  rw [if_neg (by simp [hpnil, hqnil])] at hshared
  have hdrop : ∀ r : List gstr, r ≠ [] →
      (slashed '/' (common ++ r)).drop ((slashed '/' common).length + 1) = rest r := by
    intro r hr
    obtain ⟨c, r, rfl⟩ := List.exists_cons_of_ne_nil hr
    rw [slashed_append, ← List.drop_drop, List.drop_left]
    rfl
  exact get_relative_path_of_rests (Nat.succ_ne_zero _) hshared (hdrop p hpnil) (hdrop q hqnil)
    (fun c hc => hp c (List.mem_append_right common hc))
    fun c hc => (hq c (List.mem_append_right common hc)).1

/-- A target without a slash is one step. -/
lemma Heap.follow_link_name (h : Heap) (dir : Ptr) {name : gstr} (hnil : name ≠ [])
    (hslash : '/' ∉ name) : h.follow_link dir name = h.follow_step dir name := by
  have hjoined : joined [name] = name := by rw [joined, slashed_nil, List.append_nil]
  have hfollow : h.follow_link dir (joined [name]) = [name].foldlM h.follow_step dir :=
    follow_link_joined (by simpa using hslash) (by simpa using hnil) dir
  rw [hjoined, List.foldlM_cons] at hfollow
  simpa using hfollow

/-- The places of `src` and `dst` part above the last component of the first; up to there, and the
second as a whole, they fit in `PATH_MAX`. -/
def Heap.Apart (h : Heap) (src dst : Ptr) : Prop :=
  ∃ (common as bs : List gstr) (a b c : gstr), h.walk 0 (common ++ a :: as ++ [c]) = some src ∧
    h.walk 0 (common ++ b :: bs) = some dst ∧ a ≠ b ∧
    (slashed '/' (common ++ a :: as)).length + 2 < PATH_MAX ∧
    (slashed '/' (common ++ b :: bs)).length < PATH_MAX ∧
    ∀ d ∈ b :: bs, d ≠ ".".toList ∧ d ≠ "..".toList

/-- Neither of two places gets above the other later on. -/
lemma Heap.Apart.mono {h h' : Heap} (hg : h.Grows h') {src dst : Ptr} (hap : h.Apart src dst) :
    h'.Apart src dst := by
  obtain ⟨common, as, bs, a, b, c, hsrc, hdst, hrest⟩ := hap
  exact ⟨common, as, bs, a, b, c, hg.walk hsrc, hg.walk hdst, hrest⟩

namespace Heap.Tree

variable {h : Heap}

/-- Between two places that part above the last component of the first, `relpath` leads from the
one to the other. -/
theorem follow_relpath_cut (hh : h.Tree) {src dst : Ptr} (hap : h.Apart src dst) :
    ∃ r, relpath h src (some dst) = some r ∧ h.follow_link src r = some dst := by
  obtain ⟨common, as, bs, a, b, c, hsrc, hdst, hab, hfit, hlen, hdots⟩ := hap
  have hsrcnames := hh.walk_names hsrc
  have hdstnames := hh.walk_names hdst
  obtain ⟨c', hcut, hc', hmem⟩ : ∃ c',
      (slashed '/' (common ++ a :: as ++ [c])).take (PATH_MAX - 1) =
        slashed '/' (common ++ a :: as ++ [c']) ∧ c' ≠ [] ∧ ∀ x ∈ c', x ∈ c :=
    exists_take_slashed (hsrcnames c (by simp)).1 (by omega)
  have hfrom : spfs_entity_get_full_path h src =
      some (slashed '/' (common ++ a :: as ++ [c'])) := by
    rw [hh.get_full_path_take hsrc (by simp), hcut]
  have hto : spfs_entity_get_full_path h dst = some (slashed '/' (common ++ b :: bs)) := by
    have hlen' : h.path_length dst < PATH_MAX := by
      rwa [hh.path_length_eq hdst (hh.lt_fresh_of_walk hdst)]
    rw [hh.get_full_path_walk hdst hlen', if_neg (by simp)]
  have hrel := @get_relative_path_slashed common (a :: as ++ [c']) (b :: bs) ?_ hdstnames ?_
    (by simp) (by simp)
  · rw [← List.append_assoc, ← hfrom, ← hto] at hrel
    refine ⟨_, by rw [relpath, Option.bind_some, hrel], ?_⟩
    have hup' : ∀ d ∈ List.replicate (a :: as ++ [c']).length "..".toList, '/' ∉ d ∧ d ≠ [] := by
      intro d hd
      rw [List.eq_of_mem_replicate hd]
      decide
    have hdown' : ∀ d ∈ b :: bs, IsComponent d := by
      intro d hd
      have hd' := hdstnames d (List.mem_append_right common hd)
      exact ⟨hd'.1, hd'.2, (hdots d hd).1, (hdots d hd).2⟩
    rw [follow_link_joined, List.foldlM_append]
    · rw [List.append_assoc] at hsrc
      obtain ⟨r, hr, hup⟩ := hh.foldlM_follow_step_up hsrc
      rw [walk_append, hr] at hdst
      have hlength : (a :: as ++ [c']).length = (a :: as ++ [c]).length := by simp
      rw [hlength, hup]
      exact (foldlM_follow_step_down hdown' r).trans hdst
    · intro d hd
      rcases List.mem_append.mp hd with hd | hd
      · exact (hup' d hd).1
      · exact (hdown' d hd).no_slash
    · intro d hd
      rcases List.mem_append.mp hd with hd | hd
      · exact (hup' d hd).2
      · exact (hdown' d hd).ne_nil
  · intro d hd
    rw [← List.append_assoc] at hd
    rcases List.mem_append.mp hd with hd | hd
    · exact hsrcnames d (List.mem_append_left _ hd)
    · obtain rfl := List.mem_singleton.mp hd
      exact ⟨hc', fun hslash => (hsrcnames c (by simp)).2 (hmem _ hslash)⟩
  · rintro x hx y hy
    obtain rfl := Option.some.inj hx
    obtain rfl := Option.some.inj hy
    exact hab

end Heap.Tree

end Spotifile
