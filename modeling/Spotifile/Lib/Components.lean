import Mathlib.Data.List.Basic
import Mathlib.Data.List.Infix

/-!
# Paths as lists of components

A path is a list of components over an alphabet with a separator. `slashed sep cs` writes it
down with a separator before each component; `splitOn_append_slashed` reads it back.
`resolveStep up here` follows one component of a relative path from a directory (given by its
own components): `up` goes to the parent, `here` and the empty component stay, any other name
goes down. `foldl_resolveStep_relative` is the law of relative paths: climbing out of what two
paths do not share and going down the rest of the target arrives at the target.
-/

set_option linter.unusedSectionVars false

namespace Spotifile.Lib

variable {α : Type*} [DecidableEq α]

/-! ## Writing down and reading back -/

/-- The components, each with a separator before it. -/
def slashed (sep : α) (cs : List (List α)) : List α := cs.flatMap (sep :: ·)

/-- Without components there are no separators. -/
@[simp] lemma slashed_nil (sep : α) : slashed sep [] = [] := rfl

/-- Each component has a separator before it. -/
@[simp] lemma slashed_cons (sep : α) (c : List α) (cs : List (List α)) :
    slashed sep (c :: cs) = sep :: (c ++ slashed sep cs) := rfl

/-- The components of two lists, one behind the other. -/
lemma slashed_append (sep : α) (cs ds : List (List α)) :
    slashed sep (cs ++ ds) = slashed sep cs ++ slashed sep ds := by
  simp [slashed]

/-- A path with components begins with a separator. -/
lemma slashed_head? {sep : α} {cs : List (List α)} (h : cs ≠ []) :
    (slashed sep cs).head? = some sep := by
  rcases cs with _ | ⟨c, cs⟩
  · exact absurd rfl h
  · rfl

/-- Splitting at the separators gives the components back. -/
lemma splitOn_append_slashed {sep : α} {c : List α} {cs : List (List α)} (hc : sep ∉ c)
    (hcs : ∀ d ∈ cs, sep ∉ d) : (c ++ slashed sep cs).splitOn sep = c :: cs := by
  induction cs generalizing c with
  | nil => rw [slashed_nil, List.append_nil, List.splitOn_eq_singleton hc]
  | cons d cs ih =>
      rw [slashed_cons, List.splitOn_append_cons_self_of_not_mem hc,
        ih (hcs d List.mem_cons_self) fun e he => hcs e (List.mem_cons_of_mem d he)]

/-! ## Resolving a relative path -/

/-- The directory reached from `dir` by one component of a relative path. -/
def resolveStep (up here : List α) (dir : List (List α)) (c : List α) : List (List α) :=
  if c = up then dir.dropLast else if c = here ∨ c = [] then dir else dir ++ [c]

/-- The place a relative path leads to from the directory `dir`. -/
def resolve (sep : α) (up here : List α) (dir : List (List α)) (rel : List α) :
    List (List α) :=
  (rel.splitOn sep).foldl (resolveStep up here) dir

variable {up here : List α}

/-- The step up leaves the last component out. -/
lemma resolveStep_up (dir : List (List α)) : resolveStep up here dir up = dir.dropLast := by
  simp [resolveStep]

/-- Any other step adds one. -/
lemma resolveStep_name {c : List α} (hup : c ≠ up) (hhere : c ≠ here) (hnil : c ≠ [])
    (dir : List (List α)) : resolveStep up here dir c = dir ++ [c] := by
  simp [resolveStep, hup, hhere, hnil]

/-- Climbing `n` levels leaves all but the last `n` components. -/
lemma foldl_resolveStep_replicate_up (n : ℕ) (dir : List (List α)) :
    (List.replicate n up).foldl (resolveStep up here) dir = dir.take (dir.length - n) := by
  induction n generalizing dir with
  | zero => simp
  | succ n ih =>
      rw [List.replicate_succ, List.foldl_cons, resolveStep_up, ih, List.length_dropLast,
        List.dropLast_eq_take, List.take_take]
      congr 1
      omega

/-- Names lead down one by one. -/
lemma foldl_resolveStep_names {cs : List (List α)} (hcs : ∀ c ∈ cs, c ≠ up ∧ c ≠ here ∧ c ≠ [])
    (dir : List (List α)) : cs.foldl (resolveStep up here) dir = dir ++ cs := by
  induction cs generalizing dir with
  | nil => simp
  | cons c cs ih =>
      obtain ⟨hup, hhere, hnil⟩ := hcs c List.mem_cons_self
      rw [List.foldl_cons, resolveStep_name hup hhere hnil,
        ih fun d hd => hcs d (List.mem_cons_of_mem c hd), List.append_assoc, List.singleton_append]

/-- The law of relative paths. From `common ++ p`, climbing `p.length` levels and going down
`q` arrives at `common ++ q`. -/
theorem foldl_resolveStep_relative {common p q : List (List α)}
    (hq : ∀ c ∈ q, c ≠ up ∧ c ≠ here ∧ c ≠ []) :
    (List.replicate p.length up ++ q).foldl (resolveStep up here) (common ++ p) =
      common ++ q := by
  rw [List.foldl_append, foldl_resolveStep_replicate_up, foldl_resolveStep_names hq]
  simp

/-! ## What two paths share -/

/-- Two lists of components are a common part and two rests that part at once. -/
lemma exists_common_prefix {γ : Type*} [DecidableEq γ] (p q : List γ) :
    ∃ common p' q', p = common ++ p' ∧ q = common ++ q' ∧
      ∀ x ∈ p'.head?, ∀ y ∈ q'.head?, x ≠ y := by
  induction p generalizing q with
  | nil => exact ⟨[], [], q, rfl, rfl, by simp⟩
  | cons a p ih =>
      rcases q with _ | ⟨b, q⟩
      · exact ⟨[], a :: p, [], rfl, rfl, by simp⟩
      · by_cases hab : a = b
        · subst hab
          obtain ⟨common, p', q', rfl, rfl, hne⟩ := ih q
          exact ⟨a :: common, p', q', rfl, rfl, hne⟩
        · exact ⟨[], a :: p, b :: q, rfl, rfl, by simpa using hab⟩

/-- What is shared before the rests part is the most that is shared. -/
lemma length_rests_le {γ : Type*} {common p q common' p' q' : List γ}
    (hp : common ++ p = common' ++ p') (hq : common ++ q = common' ++ q')
    (hne : ∀ x ∈ p.head?, ∀ y ∈ q.head?, x ≠ y) :
    p.length + q.length ≤ p'.length + q'.length := by
  rcases List.append_eq_append_iff.mp hp with ⟨t, rfl, rfl⟩ | ⟨t, rfl, rfl⟩
  · rw [List.append_assoc, List.append_cancel_left_eq] at hq
    rcases t with _ | ⟨x, t⟩
    · simp [hq]
    · rw [hq] at hne
      exact absurd rfl (hne x (by simp) x (by simp))
  · rw [List.append_assoc, List.append_cancel_left_eq] at hq
    rw [← hq]
    simp
    omega

/-! ## The shortest way -/

/-- A component that leads somewhere else. -/
def Moves (up here c : List α) : Prop := c = up ∨ ¬ (c = here ∨ c = [])

instance (up here c : List α) : Decidable (Moves up here c) :=
  inferInstanceAs (Decidable (_ ∨ _))

variable (up here) in
/-- A relative path takes at least as many steps as there are levels between the two places. -/
lemma exists_rests_of_foldl (cs dir : List (List α)) :
    ∃ common p q, dir = common ++ p ∧ cs.foldl (resolveStep up here) dir = common ++ q ∧
      p.length + q.length ≤ cs.countP fun c => Moves up here c := by
  induction cs generalizing dir with
  | nil => exact ⟨dir, [], [], by simp, by simp, by simp⟩
  | cons c cs ih =>
      obtain ⟨common, p, q, hdir, hdest, hlength⟩ := ih (resolveStep up here dir c)
      rw [List.foldl_cons, hdest, List.countP_cons]
      by_cases hmove : Moves up here c
      · rw [if_pos (decide_eq_true hmove)]
        by_cases hup : c = up
        · rw [hup, resolveStep_up] at hdir
          rcases List.eq_nil_or_concat' dir with rfl | ⟨dir, x, rfl⟩
          · exact ⟨common, p, q, hdir, rfl, by omega⟩
          · rw [List.dropLast_concat] at hdir
            refine ⟨common, p ++ [x], q, by rw [hdir, List.append_assoc], rfl, ?_⟩
            rw [List.length_append, List.length_singleton]
            omega
        · have hname := hmove.resolve_left hup
          rw [resolveStep, if_neg hup, if_neg hname] at hdir
          rcases List.eq_nil_or_concat' p with rfl | ⟨p, x, rfl⟩
          · -- the name leads down along the common part
            rw [List.append_nil] at hdir
            refine ⟨dir, [], c :: q, by simp, by rw [← hdir]; simp, ?_⟩
            rw [List.length_cons]
            simpa using hlength
          · rw [← List.append_assoc] at hdir
            have hlast := List.append_inj' hdir rfl
            refine ⟨common, p, q, hlast.1, rfl, ?_⟩
            rw [List.length_append, List.length_singleton] at hlength
            omega
      · rw [if_neg (by simpa using hmove), Nat.add_zero]
        rw [Moves, not_or, not_not] at hmove
        rw [resolveStep, if_neg hmove.1, if_pos hmove.2] at hdir
        exact ⟨common, p, q, hdir, rfl, hlength⟩

end Spotifile.Lib
