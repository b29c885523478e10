import Spotifile.Lib.Components
import Spotifile.Strings

/-!
# `spfs_path.c`: relative paths

`spfs_path_common_prefix` measures, in bytes, what two paths share up to a component border;
`spfs_path_get_relative_path` cuts both paths at that length, writes a `..` for the first rest
and one more for every slash in it, and appends the second rest.

For two paths that part below a common directory, the length includes the slash behind that
directory and the result is right. When one path is a proper ancestor of the other and is not
the root, the length stops **before** the slash: the rest then begins with it, and the `..` are
one too many (`from` below `to`) or the result is an absolute path (`to` below `from`).
`spfs_path_get_relative_path_correct_iff` says that these are the only failures.
-/

namespace Spotifile

open Lib

/-! ## The source -/

/-- The loop of `spfs_path_common_prefix`: what is left of both paths, the index, and the index
behind the last slash that was passed.
Source: `spfs_path.c`, `spfs_path_common_prefix`. -/
def common_prefix_loop : gstr → gstr → ℕ → ℕ → gstr × gstr × ℕ × ℕ
  | x :: a, y :: b, i, ret =>
      if x ≠ y then (x :: a, y :: b, i, ret)
      else if x = '/' then common_prefix_loop a b (i + 1) (i + 1)
      else common_prefix_loop a b (i + 1) ret
  | a, b, i, ret => (a, b, i, ret)

/-- The test behind the loop: both paths ended together, or one of them ended where the other
has a slash.
Source: `spfs_path.c`, `spfs_path_common_prefix`. -/
def common_prefix_finish : gstr × gstr × ℕ × ℕ → ℕ
  | (a, b, i, ret) =>
      if (a = [] ∧ b = []) ∨ (a = [] ∧ b.head? = some '/') ∨ (b = [] ∧ a.head? = some '/') then i
      else ret

/-- The length of the longest common prefix of two paths; `none` is NULL.
Source: `spfs_path.c`, `spfs_path_common_prefix`. -/
def spfs_path_common_prefix : Option gstr → Option gstr → ℕ
  | some a, some b =>
      if a.head? = some '/' ∧ b.head? = some '/' then
        common_prefix_finish (common_prefix_loop a b 0 0)
      else 0
  | _, _ => 0

/-- What the loop over the rest of `from` appends for one character.
Source: `spfs_path.c`, `spfs_path_get_relative_path`. -/
def climb (c : gchar) : gstr := if c = '/' then "/..".toList else []

/-- The relative path from one path to another; `none` is NULL.
Source: `spfs_path.c`, `spfs_path_get_relative_path`. -/
def spfs_path_get_relative_path : Option gstr → Option gstr → Option gstr
  | some src, some dst =>
      let prefix_len := spfs_path_common_prefix (some src) (some dst)
      if prefix_len = 0 then none
      else
        let from_suffix := src.drop prefix_len
        let to_suffix := dst.drop prefix_len
        if from_suffix ≠ [] then
          let relpat := "..".toList ++ from_suffix.flatMap climb
          some (if to_suffix ≠ [] then relpat ++ '/' :: to_suffix else relpat)
        else some (if to_suffix ≠ [] then to_suffix else ".".toList)
  | _, _ => none

/-! ## Normalised paths -/

/-- A name that may be a component of a normalised path. -/
structure IsComponent (c : gstr) : Prop where
  ne_nil : c ≠ []
  no_slash : '/' ∉ c
  ne_dot : c ≠ ".".toList
  ne_dotdot : c ≠ "..".toList

instance (c : gstr) : Decidable (IsComponent c) :=
  decidable_of_iff (c ≠ [] ∧ '/' ∉ c ∧ c ≠ ".".toList ∧ c ≠ "..".toList)
    ⟨fun ⟨h₁, h₂, h₃, h₄⟩ => ⟨h₁, h₂, h₃, h₄⟩, fun ⟨h₁, h₂, h₃, h₄⟩ => ⟨h₁, h₂, h₃, h₄⟩⟩

/-- A normalised absolute path, by its components: none for the root. -/
structure NormalPath where
  comps : List gstr
  isComponent : ∀ c ∈ comps, IsComponent c

/-- The path as a string: `/`, or `/c1/.../cn`. -/
def NormalPath.toPath (p : NormalPath) : gstr :=
  if p.comps = [] then "/".toList else slashed '/' p.comps

/-- `a` is a proper ancestor of `b`, and not the root. -/
def NormalPath.NonRootAncestor (a b : NormalPath) : Prop :=
  a.comps ≠ [] ∧ a.comps <+: b.comps ∧ a.comps ≠ b.comps

/-- Following a relative path of this file system from a directory: `..` removes the last
component, `.` keeps the place, any other name is appended. -/
def followPath (dir : List gstr) (rel : gstr) : List gstr :=
  resolve '/' "..".toList ".".toList dir rel

/-- What `spfs_path_get_relative_path` is for: a non-empty relative path that leads from `p`
to `q`. -/
def RelativePathCorrect (p q : NormalPath) : Prop :=
  ∃ r, spfs_path_get_relative_path (some p.toPath) (some q.toPath) = some r ∧
    r ≠ [] ∧ r.head? ≠ some '/' ∧ followPath p.comps r = q.comps

/-! ## The prefix length -/

/-- The prefix length found from a point of the loop on. -/
def commonPrefixFrom (a b : gstr) (i ret : ℕ) : ℕ :=
  common_prefix_finish (common_prefix_loop a b i ret)

/-- At a slash in both paths the loop goes on from the border behind it. -/
lemma commonPrefixFrom_slash (a b : gstr) (i ret : ℕ) :
    commonPrefixFrom ('/' :: a) ('/' :: b) i ret = commonPrefixFrom a b (i + 1) (i + 1) := by
  simp [commonPrefixFrom, common_prefix_loop]

/-- A shared run without a slash is passed over. -/
lemma commonPrefixFrom_append {c : gstr} (hc : '/' ∉ c) (a b : gstr) (i ret : ℕ) :
    commonPrefixFrom (c ++ a) (c ++ b) i ret = commonPrefixFrom a b (i + c.length) ret := by
  induction c generalizing i with
  | nil => rfl
  | cons x c ih =>
      simp only [List.mem_cons, not_or] at hc
      have hx : x ≠ '/' := fun h => hc.1 h.symm
      have hstep : commonPrefixFrom (x :: (c ++ a)) (x :: (c ++ b)) i ret =
          commonPrefixFrom (c ++ a) (c ++ b) (i + 1) ret := by
        simp [commonPrefixFrom, common_prefix_loop, hx]
      rw [List.cons_append, List.cons_append, hstep, ih hc.2, List.length_cons]
      congr 1
      omega

/-- At the end of both paths the loop returns where it stands. -/
lemma commonPrefixFrom_nil_nil (i ret : ℕ) : commonPrefixFrom [] [] i ret = i := by
  simp [commonPrefixFrom, common_prefix_loop, common_prefix_finish]

/-- One path ended where the other goes on with a slash. -/
lemma commonPrefixFrom_nil_slashed {cs : List gstr} (hcs : cs ≠ []) (i ret : ℕ) :
    commonPrefixFrom [] (slashed '/' cs) i ret = i ∧
      commonPrefixFrom (slashed '/' cs) [] i ret = i := by
  rcases cs with _ | ⟨c, cs⟩
  · exact absurd rfl hcs
  · simp [commonPrefixFrom, common_prefix_loop, common_prefix_finish]

/-- One path ended, or differs, where the other goes on with another letter: the length stays at
the last slash. -/
lemma commonPrefixFrom_of_parted {a b : gstr} (h : ∀ x ∈ a.head?, ∀ y ∈ b.head?, x ≠ y)
    (hne : a ≠ [] ∨ b ≠ []) (ha : a.head? ≠ some '/' ∨ b ≠ []) (hb : b.head? ≠ some '/' ∨ a ≠ [])
    (i ret : ℕ) : commonPrefixFrom a b i ret = ret := by
  rcases a with _ | ⟨x, a⟩ <;> rcases b with _ | ⟨y, b⟩
  · simp at hne
  · simp_all [commonPrefixFrom, common_prefix_loop, common_prefix_finish]
  · simp_all [commonPrefixFrom, common_prefix_loop, common_prefix_finish]
  · have hxy : x ≠ y := h x rfl y rfl
    simp [commonPrefixFrom, common_prefix_loop, common_prefix_finish, hxy]

/-- Two different names part somewhere, before or at their ends. -/
lemma commonPrefixFrom_of_ne {c d : gstr} (hcd : c ≠ d) (hc : '/' ∉ c) (hd : '/' ∉ d)
    (p q : List gstr) (i ret : ℕ) :
    commonPrefixFrom (c ++ slashed '/' p) (d ++ slashed '/' q) i ret = ret := by
  obtain ⟨u, c', d', rfl, rfl, hne⟩ := exists_common_prefix c d
  rw [List.mem_append, not_or] at hc hd
  rw [List.append_assoc, List.append_assoc, commonPrefixFrom_append hc.1]
  have hslash : ∀ cs x, x ∈ (slashed '/' cs).head? → x = '/' := by
    rintro (_ | ⟨e, cs⟩) x hx
    · cases hx
    · exact (Option.some.inj hx).symm
  rcases c' with _ | ⟨x, c'⟩ <;> rcases d' with _ | ⟨y, d'⟩
  · exact absurd rfl hcd
  · have hy : y ≠ '/' := fun h => hd.2 (by simp [h])
    refine commonPrefixFrom_of_parted ?_ (by simp) (by simp) (by simp [hy]) _ _
    intro z hz w hw
    obtain rfl := hslash _ _ hz
    obtain rfl : y = w := Option.some.inj hw
    exact hy.symm
  · have hx : x ≠ '/' := fun h => hc.2 (by simp [h])
    refine commonPrefixFrom_of_parted ?_ (by simp) (by simp [hx]) (by simp) _ _
    intro z hz w hw
    obtain rfl := hslash _ _ hw
    obtain rfl : x = z := Option.some.inj hz
    exact hx
  · rw [List.cons_append, List.cons_append]
    exact commonPrefixFrom_of_parted (by simpa using hne) (by simp) (by simp) (by simp) _ _

/-- A shared run of whole components is passed over. -/
lemma commonPrefixFrom_slashed {cs : List gstr} (hcs : ∀ c ∈ cs, '/' ∉ c) (a b : gstr)
    (i ret : ℕ) : ∃ ret', commonPrefixFrom (slashed '/' cs ++ a) (slashed '/' cs ++ b) i ret =
      commonPrefixFrom a b (i + (slashed '/' cs).length) ret' := by
  induction cs generalizing i ret with
  | nil => exact ⟨ret, rfl⟩
  | cons c cs ih =>
      obtain ⟨ret', hret⟩ := ih (fun d hd => hcs d (List.mem_cons_of_mem c hd))
        (i + 1 + c.length) (i + 1)
      refine ⟨ret', ?_⟩
      rw [slashed_cons, List.cons_append, List.cons_append, commonPrefixFrom_slash,
        List.append_assoc, List.append_assoc, commonPrefixFrom_append (hcs c List.mem_cons_self),
        hret]
      simp only [List.length_cons, List.length_append]
      congr 1
      omega

/-- The prefix length of two paths below the root: the shared components, and the slash behind
them if both paths go on. -/
lemma common_prefix_slashed {common p q : List gstr} (hp : ∀ c ∈ common ++ p, '/' ∉ c)
    (hq : ∀ c ∈ common ++ q, '/' ∉ c) (hne : ∀ x ∈ p.head?, ∀ y ∈ q.head?, x ≠ y)
    (hpnil : common ++ p ≠ []) (hqnil : common ++ q ≠ []) :
    spfs_path_common_prefix (some (slashed '/' (common ++ p))) (some (slashed '/' (common ++ q))) =
      (slashed '/' common).length + if p = [] ∨ q = [] then 0 else 1 := by
  have hstart : spfs_path_common_prefix (some (slashed '/' (common ++ p)))
      (some (slashed '/' (common ++ q))) =
        commonPrefixFrom (slashed '/' (common ++ p)) (slashed '/' (common ++ q)) 0 0 := by
    unfold spfs_path_common_prefix
    exact if_pos ⟨slashed_head? hpnil, slashed_head? hqnil⟩
  rw [hstart, slashed_append, slashed_append]
  obtain ⟨ret, hret⟩ := commonPrefixFrom_slashed
    (fun c hc => hp c (List.mem_append_left p hc)) (slashed '/' p) (slashed '/' q) 0 0
  rw [hret, Nat.zero_add]
  rcases p with _ | ⟨x, p⟩ <;> rcases q with _ | ⟨y, q⟩
  · rw [slashed_nil, commonPrefixFrom_nil_nil]
    simp
  · rw [slashed_nil, (commonPrefixFrom_nil_slashed (List.cons_ne_nil y q) _ _).1]
    simp
  · rw [slashed_nil, (commonPrefixFrom_nil_slashed (List.cons_ne_nil x p) _ _).2]
    simp
  · rw [slashed_cons, slashed_cons, commonPrefixFrom_slash, commonPrefixFrom_of_ne
      (hne x rfl y rfl) (hp x (by simp)) (hq y (by simp))]
    simp

/-- The prefix length of the root and any normalised path is the one slash. -/
lemma common_prefix_root (p : NormalPath) :
    spfs_path_common_prefix (some "/".toList) (some p.toPath) = 1 ∧
      spfs_path_common_prefix (some p.toPath) (some "/".toList) = 1 := by
  rcases hp : p.comps with _ | ⟨c, cs⟩
  · rw [NormalPath.toPath, if_pos hp]
    decide
  · have hc := p.isComponent c (by simp [hp])
    obtain ⟨x, c', rfl⟩ := List.exists_cons_of_ne_nil hc.ne_nil
    have hx : x ≠ '/' := fun h => hc.no_slash (by simp [h])
    simp [NormalPath.toPath, hp, spfs_path_common_prefix, common_prefix_loop,
      common_prefix_finish, hx]

/-! ## The relative path -/

/-- A relative path by its components; the empty list stays where it is. -/
def joined : List gstr → gstr
  | [] => ".".toList
  | c :: cs => c ++ slashed '/' cs

/-- Every slash in the rest of `from` climbs one level. -/
lemma flatMap_climb_slashed {cs : List gstr} (hcs : ∀ c ∈ cs, '/' ∉ c) :
    (slashed '/' cs).flatMap climb = slashed '/' (List.replicate cs.length "..".toList) := by
  have hname : ∀ c : gstr, '/' ∉ c → c.flatMap climb = [] := by
    intro c hc
    rw [List.flatMap_eq_nil_iff]
    intro x hx
    exact if_neg (ne_of_mem_of_not_mem hx hc)
  induction cs with
  | nil => rfl
  | cons c cs ih =>
      have ih' := ih fun d hd => hcs d (List.mem_cons_of_mem c hd)
      rw [slashed_cons, List.flatMap_cons, List.flatMap_append,
        hname c (hcs c List.mem_cons_self), ih', List.length_cons, List.replicate_succ,
        slashed_cons]
      rfl

/-- A path given by sound components is followed component by component. -/
lemma followPath_joined {cs : List gstr} (hcs : ∀ c ∈ cs, '/' ∉ c) (dir : List gstr) :
    followPath dir (joined cs) = cs.foldl (resolveStep "..".toList ".".toList) dir := by
  rcases cs with _ | ⟨c, cs⟩
  · have hdot : joined [] = ".".toList ++ slashed '/' [] := rfl
    rw [hdot, followPath, resolve, splitOn_append_slashed (by decide) (by simp)]
    simp [resolveStep]
  · rw [joined, followPath, resolve, splitOn_append_slashed (hcs c List.mem_cons_self)
      fun d hd => hcs d (List.mem_cons_of_mem c hd)]

/-- What is left of a path behind the shared prefix. -/
def rest : List gstr → gstr
  | [] => []
  | c :: cs => c ++ slashed '/' cs

/-- Only without components is nothing left of the path. -/
lemma rest_eq_nil_iff {cs : List gstr} (hcs : ∀ c ∈ cs, c ≠ []) : rest cs = [] ↔ cs = [] := by
  rcases cs with _ | ⟨c, cs⟩
  · simp [rest]
  · simp [rest, hcs c List.mem_cons_self]

/-- Joined components, with more behind them. -/
lemma joined_append {cs ds : List gstr} (hcs : cs ≠ []) :
    joined (cs ++ ds) = joined cs ++ slashed '/' ds := by
  rcases cs with _ | ⟨c, cs⟩
  · exact absurd rfl hcs
  · simp [joined, slashed_append]

/-- Below a shared prefix that reaches into both paths at a component border, the function
climbs one level for each component of the first rest, and goes down the second. -/
lemma get_relative_path_of_rests {src dst : gstr} {n : ℕ} {p q : List gstr} (hn : n ≠ 0)
    (hshared : spfs_path_common_prefix (some src) (some dst) = n) (hsrc : src.drop n = rest p)
    (hdst : dst.drop n = rest q) (hp : ∀ c ∈ p, c ≠ [] ∧ '/' ∉ c) (hq : ∀ c ∈ q, c ≠ []) :
    spfs_path_get_relative_path (some src) (some dst) =
      some (joined (List.replicate p.length "..".toList ++ q)) := by
  simp only [spfs_path_get_relative_path, hshared, if_neg hn, hsrc, hdst]
  rcases p with _ | ⟨c, p⟩
  · rcases q with _ | ⟨d, q⟩
    · rfl
    · have hne : rest (d :: q) ≠ [] := by rw [Ne, rest_eq_nil_iff hq]; simp
      rw [if_neg (by simp [rest]), if_pos hne]
      rfl
  · have hclimb : "..".toList ++ (rest (c :: p)).flatMap climb =
        joined (List.replicate (c :: p).length "..".toList) := by
      have hsl := flatMap_climb_slashed fun e he => (hp e he).2
      rw [slashed_cons, List.flatMap_cons, List.length_cons, List.replicate_succ,
        slashed_cons] at hsl
      simpa [rest, joined, climb, List.replicate_succ] using hsl
    have hne : rest (c :: p) ≠ [] := by rw [Ne, rest_eq_nil_iff fun e he => (hp e he).1]; simp
    rw [if_pos hne, hclimb]
    rcases q with _ | ⟨d, q⟩
    · rw [if_neg (by simp [rest]), List.append_nil]
    · have hne' : rest (d :: q) ≠ [] := by rw [Ne, rest_eq_nil_iff hq]; simp
      rw [if_pos hne', joined_append (by simp)]
      rfl

/-- A result of that form is correct. -/
lemma relativePathCorrect_of_joined {p q : NormalPath} {common p' q' : List gstr}
    (hp : p.comps = common ++ p') (hq : q.comps = common ++ q')
    (h : spfs_path_get_relative_path (some p.toPath) (some q.toPath) =
      some (joined (List.replicate p'.length "..".toList ++ q'))) : RelativePathCorrect p q := by
  have hq' : ∀ c ∈ q', IsComponent c := fun c hc => q.isComponent c (by simp [hq, hc])
  have hslash : ∀ c ∈ List.replicate p'.length "..".toList ++ q', '/' ∉ c ∧ c ≠ [] := by
    intro c hc
    rcases List.mem_append.mp hc with hc | hc
    · rw [List.eq_of_mem_replicate hc]
      decide
    · exact ⟨(hq' c hc).no_slash, (hq' c hc).ne_nil⟩
  have hhead : joined (List.replicate p'.length "..".toList ++ q') ≠ [] ∧
      (joined (List.replicate p'.length "..".toList ++ q')).head? ≠ some '/' := by
    rcases hcs : List.replicate p'.length "..".toList ++ q' with _ | ⟨c, cs⟩
    · decide
    · obtain ⟨hc, hnil⟩ := hslash c (hcs ▸ List.mem_cons_self)
      obtain ⟨x, c', rfl⟩ := List.exists_cons_of_ne_nil hnil
      have hx : x ≠ '/' := fun h => hc (by simp [h])
      simp [joined, hx]
  refine ⟨_, h, hhead.1, hhead.2, ?_⟩
  rw [followPath_joined fun c hc => (hslash c hc).1, hp, hq]
  exact foldl_resolveStep_relative fun c hc =>
    ⟨(hq' c hc).ne_dotdot, (hq' c hc).ne_dot, (hq' c hc).ne_nil⟩

/-- A path other than the root has a slash before each component. -/
lemma toPath_of_ne_root {p : NormalPath} (h : p.comps ≠ []) : p.toPath = slashed '/' p.comps := by
  rw [NormalPath.toPath, if_neg h]

/-- Behind the first slash a normalised path is the rest of its components. -/
lemma drop_one_toPath (p : NormalPath) : p.toPath.drop 1 = rest p.comps := by
  unfold NormalPath.toPath
  rcases p.comps with _ | ⟨c, cs⟩
  · rfl
  · rfl

/-- With the root as one of the two paths the result climbs to the root and goes down again. -/
lemma get_relative_path_of_root {p q : NormalPath} (h : p.comps = [] ∨ q.comps = []) :
    spfs_path_get_relative_path (some p.toPath) (some q.toPath) =
      some (joined (List.replicate p.comps.length "..".toList ++ q.comps)) := by
  have hshared : spfs_path_common_prefix (some p.toPath) (some q.toPath) = 1 := by
    rcases h with h | h
    · have hroot : p.toPath = "/".toList := by rw [NormalPath.toPath, if_pos h]
      rw [hroot]
      exact (common_prefix_root q).1
    · have hroot : q.toPath = "/".toList := by rw [NormalPath.toPath, if_pos h]
      rw [hroot]
      exact (common_prefix_root p).2
  exact get_relative_path_of_rests Nat.one_ne_zero hshared (drop_one_toPath p) (drop_one_toPath q)
    (fun c hc => ⟨(p.isComponent c hc).ne_nil, (p.isComponent c hc).no_slash⟩)
    fun c hc => (q.isComponent c hc).ne_nil

section belowRoot

variable {p q : NormalPath} {common p' q' : List gstr} (hp : p.comps = common ++ p')
  (hq : q.comps = common ++ q') (hne : ∀ x ∈ p'.head?, ∀ y ∈ q'.head?, x ≠ y)
  (hproot : p.comps ≠ []) (hqroot : q.comps ≠ [])

include hp hq hproot hqroot

/-- Without the shared components, both paths begin with the slash of the next one. -/
lemma drop_common_toPath :
    p.toPath.drop (slashed '/' common).length = slashed '/' p' ∧
      q.toPath.drop (slashed '/' common).length = slashed '/' q' := by
  rw [toPath_of_ne_root hproot, toPath_of_ne_root hqroot, hp, hq, slashed_append, slashed_append]
  exact ⟨List.drop_left, List.drop_left⟩

include hne

/-- The shared length of two normalised paths below the root. -/
lemma common_prefix_toPath :
    spfs_path_common_prefix (some p.toPath) (some q.toPath) =
      (slashed '/' common).length + if p' = [] ∨ q' = [] then 0 else 1 := by
  rw [toPath_of_ne_root hproot, toPath_of_ne_root hqroot, hp, hq]
  exact common_prefix_slashed (fun c hc => (p.isComponent c (hp ▸ hc)).no_slash)
    (fun c hc => (q.isComponent c (hq ▸ hc)).no_slash) hne (hp ▸ hproot) (hq ▸ hqroot)

/-- Paths that are equal, or part below a common directory: the result climbs to the common
directory and goes down again. -/
lemma get_relative_path_of_parted (h : p' = [] ↔ q' = []) :
    spfs_path_get_relative_path (some p.toPath) (some q.toPath) =
      some (joined (List.replicate p'.length "..".toList ++ q')) := by
  have hshared := common_prefix_toPath hp hq hne hproot hqroot
  obtain ⟨hdp, hdq⟩ := drop_common_toPath hp hq hproot hqroot
  have hcomp : (∀ c ∈ p', c ≠ [] ∧ '/' ∉ c) ∧ ∀ c ∈ q', c ≠ [] := by
    refine ⟨fun c hc => ?_, fun c hc => ?_⟩
    · have hc' := p.isComponent c (by simp [hp, hc])
      exact ⟨hc'.ne_nil, hc'.no_slash⟩
    · exact (q.isComponent c (by simp [hq, hc])).ne_nil
  rcases p' with _ | ⟨x, p'⟩ <;> rcases q' with _ | ⟨y, q'⟩
  · refine get_relative_path_of_rests ?_ hshared ?_ ?_ hcomp.1 hcomp.2
    · have hcommon : common ≠ [] := by simpa [hp] using hproot
      obtain ⟨c, cs, rfl⟩ := List.exists_cons_of_ne_nil hcommon
      simp
    · rw [if_pos (Or.inl rfl), Nat.add_zero, hdp]
      rfl
    · rw [if_pos (Or.inl rfl), Nat.add_zero, hdq]
      rfl
  · simp at h
  · simp at h
  · refine get_relative_path_of_rests (by simp) hshared ?_ ?_ hcomp.1 hcomp.2
    · rw [if_neg (by simp), ← List.drop_drop, hdp]
      rfl
    · rw [if_neg (by simp), ← List.drop_drop, hdq]
      rfl

/-- A non-root ancestor as `from`: the result begins with a slash. -/
lemma not_relativePathCorrect_of_ancestor (h : p' = []) (hq' : q' ≠ []) :
    ¬ RelativePathCorrect p q := by
  subst h
  rintro ⟨r, hr, -, hhead, -⟩
  have hshared := common_prefix_toPath hp hq hne hproot hqroot
  obtain ⟨hdp, hdq⟩ := drop_common_toPath hp hq hproot hqroot
  obtain ⟨y, q', rfl⟩ := List.exists_cons_of_ne_nil hq'
  have hcommon : common ≠ [] := by simpa [hp] using hproot
  obtain ⟨c, cs, rfl⟩ := List.exists_cons_of_ne_nil hcommon
  rw [if_pos (Or.inl rfl), Nat.add_zero] at hshared
  have hpos : (slashed '/' (c :: cs)).length ≠ 0 := by simp
  simp only [spfs_path_get_relative_path, hshared, if_neg hpos, hdp, hdq] at hr
  simp at hr
  subst hr
  simp at hhead

/-- A non-root ancestor as `to`: the result climbs one level too many. -/
lemma not_relativePathCorrect_of_descendant (h : q' = []) (hp' : p' ≠ []) :
    ¬ RelativePathCorrect p q := by
  subst h
  rintro ⟨r, hr, -, -, hfollow⟩
  have hshared := common_prefix_toPath hp hq hne hproot hqroot
  obtain ⟨hdp, hdq⟩ := drop_common_toPath hp hq hproot hqroot
  have hcommon : common ≠ [] := by simpa [hq] using hqroot
  have hpos : (slashed '/' common).length ≠ 0 := by
    obtain ⟨c, cs, rfl⟩ := List.exists_cons_of_ne_nil hcommon
    simp
  rw [if_pos (Or.inr rfl), Nat.add_zero] at hshared
  have hne' : slashed '/' p' ≠ [] := by
    obtain ⟨c, cs, rfl⟩ := List.exists_cons_of_ne_nil hp'
    simp
  have hslash : ∀ c ∈ p', '/' ∉ c := fun c hc => (p.isComponent c (by simp [hp, hc])).no_slash
  simp only [spfs_path_get_relative_path, hshared, if_neg hpos, hdp, hdq, if_pos hne',
    slashed_nil, flatMap_climb_slashed hslash] at hr
  have hr' : r = joined (List.replicate (p'.length + 1) "..".toList) := by
    simpa [joined, List.replicate_succ] using hr.symm
  have hup : ∀ c ∈ List.replicate (p'.length + 1) "..".toList, '/' ∉ c := by
    intro c hc
    rw [List.eq_of_mem_replicate hc]
    decide
  rw [hr', followPath_joined hup, foldl_resolveStep_replicate_up, hp, hq] at hfollow
  have hlen := congrArg List.length hfollow
  have hcpos := List.length_pos_of_ne_nil hcommon
  simp only [List.length_take, List.length_append, List.length_nil] at hlen
  omega

end belowRoot

/-- The relative path between two paths of which neither is a proper ancestor of the other, except
the root: it climbs to where the two paths part, and goes down again. -/
lemma exists_get_relative_path {p q : NormalPath} (hpq : ¬ p.NonRootAncestor q)
    (hqp : ¬ q.NonRootAncestor p) :
    ∃ common p' q', p.comps = common ++ p' ∧ q.comps = common ++ q' ∧
      (∀ x ∈ p'.head?, ∀ y ∈ q'.head?, x ≠ y) ∧
      spfs_path_get_relative_path (some p.toPath) (some q.toPath) =
        some (joined (List.replicate p'.length "..".toList ++ q')) := by
  by_cases hroot : p.comps = [] ∨ q.comps = []
  · refine ⟨[], p.comps, q.comps, rfl, rfl, fun x hx y hy => ?_, get_relative_path_of_root hroot⟩
    rcases hroot with hroot | hroot
    · rw [hroot] at hx
      cases hx
    · rw [hroot] at hy
      cases hy
  · rw [not_or] at hroot
    obtain ⟨common, p', q', hp, hq, hne⟩ := exists_common_prefix p.comps q.comps
    refine ⟨common, p', q', hp, hq, hne,
      get_relative_path_of_parted hp hq hne hroot.1 hroot.2 ⟨?_, ?_⟩⟩
    · intro hp'
      by_contra hq'
      exact hpq ⟨hroot.1, by simp [hp, hq, hp'], by simpa [hp, hq, hp'] using hq'⟩
    · intro hq'
      by_contra hp'
      exact hqp ⟨hroot.2, by simp [hp, hq, hq'], by simpa [hp, hq, hq'] using hp'⟩

/-- When the relative path is right: exactly if neither path is a proper ancestor of the
other other than the root. -/
theorem spfs_path_get_relative_path_correct_iff (p q : NormalPath) :
    RelativePathCorrect p q ↔ ¬ p.NonRootAncestor q ∧ ¬ q.NonRootAncestor p := by
  constructor
  · intro hcorrect
    constructor
    · rintro ⟨hroot, ⟨q', hq⟩, hdiff⟩
      have hq' : q' ≠ [] := fun hnil => hdiff (by simpa [hnil] using hq)
      refine not_relativePathCorrect_of_ancestor (List.append_nil p.comps).symm hq.symm
        (by simp) hroot ?_ rfl hq' hcorrect
      simp [← hq, hroot]
    · rintro ⟨hroot, ⟨p', hp⟩, hdiff⟩
      have hp' : p' ≠ [] := fun hnil => hdiff (by simpa [hnil] using hp)
      refine not_relativePathCorrect_of_descendant hp.symm (List.append_nil q.comps).symm
        (by simp) ?_ hroot rfl hp' hcorrect
      simp [← hp, hroot]
  · rintro ⟨hpq, hqp⟩
    obtain ⟨common, p', q', hp, hq, -, hrel⟩ := exists_get_relative_path hpq hqp
    exact relativePathCorrect_of_joined hp hq hrel

/-- From `/a` to `/a/b` the result is the absolute path `/b`. -/
theorem relative_path_to_child_absolute :
    ¬ RelativePathCorrect ⟨["a".toList], by decide⟩ ⟨["a".toList, "b".toList], by decide⟩ := by
  rintro ⟨r, hr, -, hhead, -⟩
  have hrun : spfs_path_get_relative_path (some "/a".toList) (some "/a/b".toList) =
      some "/b".toList := by decide
  obtain rfl : r = "/b".toList := Option.some.inj (hr.symm.trans hrun)
  exact hhead (by decide)

end Spotifile
