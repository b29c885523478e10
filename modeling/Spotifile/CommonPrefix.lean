import Mathlib.Order.Bounds.Basic
import Spotifile.Path

/-!
# What `spfs_path_common_prefix` measures

The loop of `spfs_path_common_prefix` passes what two paths have in common, and keeps the place
behind the last slash; the test behind it takes the place where the paths part, if one of them ends
there. `common_prefix_isGreatest` says, of any two absolute paths, that the result is the last place
up to which they agree and at which there is a border of components in both (`SharedBorder`).
-/

namespace Spotifile

open Lib

/-! ## Borders -/

/-- The last of the first `r` bytes is a slash. -/
def SlashBefore (path : gstr) (r : ℕ) : Prop := ∃ n, r = n + 1 ∧ path[n]? = some '/'

/-- The path ends after `r` bytes, or has a slash there. -/
def EndsAt (path : gstr) (r : ℕ) : Prop := r = path.length ∨ path[r]? = some '/'

/-- The paths agree on their first `r` bytes, with a border of components behind them in both. -/
structure SharedBorder (a b : gstr) (r : ℕ) : Prop where
  le_left : r ≤ a.length
  le_right : r ≤ b.length
  agree : a.take r = b.take r
  border : SlashBefore a r ∨ EndsAt a r ∧ EndsAt b r

section Borders

variable {u a b : gstr} {r : ℕ}

/-- Behind a slash there is at least that slash. -/
lemma SlashBefore.pos (h : SlashBefore u r) : 0 < r := by
  obtain ⟨n, rfl, -⟩ := h
  exact n.succ_pos

/-- The slash is in the path. -/
lemma SlashBefore.le_length (h : SlashBefore u r) : r ≤ u.length := by
  obtain ⟨n, rfl, hn⟩ := h
  obtain ⟨hlt, -⟩ := List.getElem?_eq_some_iff.mp hn
  exact hlt

/-- What comes later in the path does not matter. -/
lemma slashBefore_append (hr : r ≤ u.length) : SlashBefore (u ++ a) r ↔ SlashBefore u r := by
  apply exists_congr
  intro n
  apply and_congr_right
  rintro rfl
  rw [List.getElem?_append_left hr]

/-- A slash that ends the path is before its end. -/
lemma slashBefore_concat_slash : SlashBefore (u ++ ['/']) (u.length + 1) :=
  ⟨u.length, rfl, List.getElem?_concat_length⟩

/-- A path ends after its beginning, or goes on with a slash there, as the rest says. -/
lemma endsAt_append_length : EndsAt (u ++ a) u.length ↔ a = [] ∨ a.head? = some '/' := by
  unfold EndsAt
  rw [List.length_append, Nat.left_eq_add, List.length_eq_zero_iff,
    List.getElem?_append_right le_rfl, Nat.sub_self, List.head?_eq_getElem?]

/-- Where a path ends inside a common part, there is a slash. -/
lemma EndsAt.slashBefore_succ (h : EndsAt (u ++ a) r) (hr : r < u.length) :
    SlashBefore u (r + 1) := by
  rcases h with heq | hslash
  · rw [List.length_append] at heq
    omega
  · rw [List.getElem?_append_left hr] at hslash
    exact ⟨r, rfl, hslash⟩

/-- The paths may be exchanged. -/
lemma SharedBorder.symm (h : SharedBorder a b r) : SharedBorder b a r where
  le_left := h.le_right
  le_right := h.le_left
  agree := h.agree.symm
  border := by
    rcases h.border with ⟨n, rfl, hn⟩ | ⟨ha, hb⟩
    · refine .inl ⟨n, rfl, ?_⟩
      rw [← hn, ← List.getElem?_take_of_lt n.lt_succ_self, ← h.agree,
        List.getElem?_take_of_lt n.lt_succ_self]
    · exact .inr ⟨hb, ha⟩

/-- Behind a slash of a common part there is a border. -/
lemma SlashBefore.sharedBorder (h : SlashBefore u r) : SharedBorder (u ++ a) (u ++ b) r where
  le_left := by
    rw [List.length_append]
    exact Nat.le_add_right_of_le h.le_length
  le_right := by
    rw [List.length_append]
    exact Nat.le_add_right_of_le h.le_length
  agree := by
    rw [List.take_append_of_le_length h.le_length, List.take_append_of_le_length h.le_length]
  border := .inl ((slashBefore_append h.le_length).mpr h)

/-- At the end of a common part there may be a border. -/
lemma sharedBorder_length (ha : a = [] ∨ a.head? = some '/') (hb : b = [] ∨ b.head? = some '/') :
    SharedBorder (u ++ a) (u ++ b) u.length where
  le_left := by simp
  le_right := by simp
  agree := by rw [List.take_left, List.take_left]
  border := .inr ⟨endsAt_append_length.mpr ha, endsAt_append_length.mpr hb⟩

/-- Behind the place where they part the paths share nothing. -/
lemma SharedBorder.le_of_parted (h : SharedBorder (u ++ a) (u ++ b) r)
    (hne : ∀ x ∈ a.head?, ∀ y ∈ b.head?, x ≠ y) : r ≤ u.length := by
  by_contra hlt
  have hlt : u.length < r := Nat.lt_of_not_le hlt
  have hbyte : (u ++ a)[u.length]? = (u ++ b)[u.length]? := by
    rw [← List.getElem?_take_of_lt hlt, h.agree, List.getElem?_take_of_lt hlt]
  rw [List.getElem?_append_right le_rfl, List.getElem?_append_right le_rfl, Nat.sub_self,
    ← List.head?_eq_getElem?, ← List.head?_eq_getElem?] at hbyte
  rcases a with _ | ⟨x, a⟩
  · have hle := h.le_left
    rw [List.append_nil] at hle
    omega
  · exact hne x rfl x hbyte.symm rfl

/-- Within a common part a border is behind a slash, but for the end of it. -/
lemma SharedBorder.le_lastSlash (h : SharedBorder (u ++ a) (u ++ b) r) (hr : r ≤ u.length)
    {ret : ℕ} (hret : IsGreatest {r | SlashBefore u r} ret) :
    r ≤ ret ∨ (a = [] ∨ a.head? = some '/') ∧ (b = [] ∨ b.head? = some '/') := by
  rcases h.border with hslash | ⟨ha, hb⟩
  · exact .inl (hret.2 ((slashBefore_append hr).mp hslash))
  rcases hr.lt_or_eq with hlt | rfl
  · exact .inl ((Nat.le_succ r).trans (hret.2 (ha.slashBefore_succ hlt)))
  · exact .inr ⟨endsAt_append_length.mp ha, endsAt_append_length.mp hb⟩

end Borders

/-! ## The loop -/

/-- The loop ends where the paths part. -/
lemma common_prefix_loop_of_parted {a b : gstr} (hne : ∀ x ∈ a.head?, ∀ y ∈ b.head?, x ≠ y)
    (i ret : ℕ) : common_prefix_loop a b i ret = (a, b, i, ret) := by
  rcases a with _ | ⟨x, a⟩
  · rfl
  rcases b with _ | ⟨y, b⟩
  · rfl
  · rw [common_prefix_loop, if_pos (hne x rfl y rfl)]

/-- Where the paths part, the test behind the loop decides. -/
lemma commonPrefixFrom_isGreatest_of_parted {u a b : gstr}
    (hne : ∀ x ∈ a.head?, ∀ y ∈ b.head?, x ≠ y) {ret : ℕ}
    (hret : IsGreatest {r | SlashBefore u r} ret) :
    IsGreatest {r | SharedBorder (u ++ a) (u ++ b) r} (commonPrefixFrom a b u.length ret) := by
  rw [commonPrefixFrom, common_prefix_loop_of_parted hne, common_prefix_finish]
  by_cases hend : (a = [] ∧ b = []) ∨ (a = [] ∧ b.head? = some '/') ∨ (b = [] ∧ a.head? = some '/')
  · rw [if_pos hend]
    refine ⟨?_, fun r hr => hr.le_of_parted hne⟩
    rcases hend with ⟨ha, hb⟩ | ⟨ha, hb⟩ | ⟨hb, ha⟩
    · exact sharedBorder_length (.inl ha) (.inl hb)
    · exact sharedBorder_length (.inl ha) (.inr hb)
    · exact sharedBorder_length (.inr ha) (.inl hb)
  · rw [if_neg hend]
    refine ⟨hret.1.sharedBorder, fun r hr => ?_⟩
    rcases hr.le_lastSlash (hr.le_of_parted hne) hret with hle | ⟨ha | ha, hb | hb⟩
    · exact hle
    · exact absurd (.inl ⟨ha, hb⟩) hend
    · exact absurd (.inr (.inl ⟨ha, hb⟩)) hend
    · exact absurd (.inr (.inr ⟨hb, ha⟩)) hend
    · exact absurd rfl (hne '/' ha '/' hb)

/-- One more byte that is no slash. -/
lemma isGreatest_slashBefore_concat {u : gstr} {x : gchar} (hx : x ≠ '/') {ret : ℕ}
    (hret : IsGreatest {r | SlashBefore u r} ret) :
    IsGreatest {r | SlashBefore (u ++ [x]) r} ret := by
  refine ⟨(slashBefore_append hret.1.le_length).mpr hret.1, fun r hr => ?_⟩
  apply hret.2
  apply (slashBefore_append (a := [x]) ?_).mp hr
  obtain ⟨n, rfl, hn⟩ := hr
  by_contra hlt
  have hle := SlashBefore.le_length ⟨n, rfl, hn⟩
  rw [List.length_append, List.length_singleton] at hle
  obtain rfl : n = u.length := by omega
  rw [List.getElem?_concat_length, Option.some.injEq] at hn
  exact hx hn

/-- What the loop finds when it has passed `u`, with the last slash of `u` in front of `ret`. -/
lemma commonPrefixFrom_isGreatest {u a b : gstr} {ret : ℕ}
    (hret : IsGreatest {r | SlashBefore u r} ret) :
    IsGreatest {r | SharedBorder (u ++ a) (u ++ b) r} (commonPrefixFrom a b u.length ret) := by
  induction a generalizing u b ret with
  | nil => exact commonPrefixFrom_isGreatest_of_parted (by simp) hret
  | cons x a ih =>
    rcases b with _ | ⟨y, b⟩
    · exact commonPrefixFrom_isGreatest_of_parted (by simp) hret
    by_cases hxy : x = y
    · subst hxy
      have hlength : (u ++ [x]).length = u.length + 1 := by simp
      rw [List.append_cons, List.append_cons u x b]
      by_cases hx : x = '/'
      · subst hx
        rw [commonPrefixFrom_slash, ← hlength]
        exact ih ⟨hlength ▸ slashBefore_concat_slash, fun r hr => hr.le_length⟩
      · have hstep : commonPrefixFrom (x :: a) (x :: b) u.length ret =
            commonPrefixFrom a b (u ++ [x]).length ret := by
          simp [commonPrefixFrom, common_prefix_loop, hx]
        rw [hstep]
        exact ih (isGreatest_slashBefore_concat hx hret)
    · exact commonPrefixFrom_isGreatest_of_parted (by simpa using hxy) hret

/-- Two absolute paths share a border at the length that is found, and none behind it. -/
lemma isGreatest_sharedBorder {a b : gstr} (ha : a.head? = some '/') (hb : b.head? = some '/') :
    IsGreatest {r | SharedBorder a b r} <| spfs_path_common_prefix (some a) (some b) := by
  obtain ⟨a, rfl⟩ := List.head?_eq_some_iff.mp ha
  obtain ⟨b, rfl⟩ := List.head?_eq_some_iff.mp hb
  have hstart : spfs_path_common_prefix (some ('/' :: a)) (some ('/' :: b)) =
      commonPrefixFrom a b ['/'].length 1 := by
    unfold spfs_path_common_prefix
    exact (if_pos ⟨rfl, rfl⟩).trans (commonPrefixFrom_slash a b 0 0)
  rw [hstart]
  exact commonPrefixFrom_isGreatest (u := ['/']) ⟨⟨0, rfl, rfl⟩, fun r hr => hr.le_length⟩

/-- For two absolute paths `spfs_path_common_prefix` finds the last border of components that they
share; it is behind the first slash, in both paths, and does not depend on their order. -/
theorem common_prefix_isGreatest {a b : gstr} (ha : a.head? = some '/')
    (hb : b.head? = some '/') :
    let shared := spfs_path_common_prefix (some a) (some b)
    IsGreatest {r | SharedBorder a b r} shared ∧ 1 ≤ shared ∧ shared ≤ a.length ∧
      shared ≤ b.length ∧ spfs_path_common_prefix (some b) (some a) = shared := by
  intro shared
  have hab := isGreatest_sharedBorder ha hb
  have hba := isGreatest_sharedBorder hb ha
  have hone : SharedBorder a b 1 := by
    obtain ⟨a, rfl⟩ := List.head?_eq_some_iff.mp ha
    obtain ⟨b, rfl⟩ := List.head?_eq_some_iff.mp hb
    exact SlashBefore.sharedBorder (u := ['/']) ⟨0, rfl, rfl⟩
  exact ⟨hab, hab.2 hone, hab.1.le_left, hab.1.le_right,
    le_antisymm (hab.2 hba.1.symm) (hba.2 hab.1.symm)⟩

/-- The theorem at a path and one below it. -/
theorem common_prefix_isGreatest_below :
    IsGreatest {r | SharedBorder "/foo".toList "/foo/bar".toList r} 4 :=
  (common_prefix_isGreatest (a := "/foo".toList) (b := "/foo/bar".toList) rfl rfl).1

end Spotifile
