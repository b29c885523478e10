import Mathlib.Data.List.Basic
import Mathlib.Data.List.DropRight
import Mathlib.Data.List.Infix
import Spotifile.Lib.Loop

/-!
# Replacing a key in a list

`findSub key s` is the offset of the first occurrence of `key` in `s`, `replaceFirst key val s`
replaces that occurrence, and `substAll k ks val s` replaces every occurrence of `k :: ks` in one
left-to-right pass.

The main result is `whileLoop_replaceFirst`: repeating `replaceFirst` on its own output until
no occurrence is left terminates, and gives the one-pass result, as soon as a replacement can
neither contain nor complete another occurrence. That is the condition `Separates k ks val`:
the head `k` of the key is found neither in its own tail nor in the replacement, and the
replacement does not begin with a letter of the tail (or the key is a single letter).
-/

set_option linter.unusedSectionVars false

namespace Spotifile.Lib

variable {α : Type*} [DecidableEq α]

/-! ## The first occurrence -/

/-- The offset of the first occurrence of `key`, if there is one. -/
def findSub (key : List α) : List α → Option ℕ
  | [] => if key = [] then some 0 else none
  | a :: s => if key <+: a :: s then some 0 else (findSub key s).map (· + 1)

/-- The list with the first occurrence of `key` replaced by `val`. -/
def replaceFirst (key val s : List α) : List α :=
  match findSub key s with
  | none => s
  | some off => s.take off ++ val ++ s.drop (off + key.length)

/-- The key is where it is found. -/
lemma findSub_eq_some_split {key s : List α} {off : ℕ} (h : findSub key s = some off) :
    s = s.take off ++ key ++ s.drop (off + key.length) := by
  induction s generalizing off with
  | nil =>
      by_cases hk : key = [] <;> simp_all [findSub]
  | cons a s ih =>
      by_cases hp : key <+: a :: s
      · obtain ⟨t, ht⟩ := hp
        have hoff : off = 0 := by
          rw [findSub, if_pos ⟨t, ht⟩] at h
          exact (Option.some.inj h).symm
        subst hoff
        rw [← ht]
        simp
      · rw [findSub, if_neg hp] at h
        obtain ⟨n, hn, rfl⟩ := Option.map_eq_some_iff.mp h
        have hs := ih hn
        rw [Nat.add_right_comm, List.take_succ_cons, List.drop_succ_cons, List.cons_append,
          List.cons_append, ← hs]

/-- Nothing is found exactly if the key does not occur. -/
lemma findSub_eq_none_iff {key s : List α} : findSub key s = none ↔ ¬ key <:+: s := by
  induction s with
  | nil => by_cases hk : key = [] <;> simp [findSub, hk]
  | cons a s ih =>
      rw [findSub, List.infix_cons_iff, not_or]
      by_cases hp : key <+: a :: s
      · simp [hp]
      · simp [hp, ih]

/-- Something is found exactly if it does. -/
lemma findSub_isSome_iff {key s : List α} : (findSub key s).isSome = true ↔ key <:+: s := by
  rw [← not_iff_not, ← findSub_eq_none_iff]
  simp

/-- Either there is no occurrence and nothing changes, or one occurrence is replaced. -/
lemma replaceFirst_cases (key val s : List α) :
    (¬ key <:+: s ∧ replaceFirst key val s = s) ∨
      ∃ u v, s = u ++ key ++ v ∧ replaceFirst key val s = u ++ val ++ v := by
  unfold replaceFirst
  rcases h : findSub key s with _ | off
  · exact Or.inl ⟨findSub_eq_none_iff.mp h, rfl⟩
  · exact Or.inr ⟨_, _, findSub_eq_some_split h, rfl⟩

/-! ## Replacing every occurrence in one pass -/

/-- Every occurrence of `k :: ks` replaced by `val`, in one pass from left to right. -/
def substAll (k : α) (ks val : List α) : List α → List α
  | [] => []
  | a :: s =>
      if a = k ∧ ks <+: s then val ++ substAll k ks val (s.drop ks.length)
      else a :: substAll k ks val s
termination_by s => s.length

variable {k : α} {ks val : List α}

/-- Nothing is replaced in nothing. -/
@[simp] lemma substAll_nil : substAll k ks val [] = [] := by
  rw [substAll]

/-- An occurrence at the front is replaced. -/
lemma substAll_key_append (v : List α) :
    substAll k ks val (k :: (ks ++ v)) = val ++ substAll k ks val v := by
  rw [substAll, if_pos ⟨rfl, List.prefix_append ks v⟩, List.drop_left]

/-- An element that begins no occurrence is passed over. -/
lemma substAll_cons_of_not {a : α} {s : List α} (h : ¬ (a = k ∧ ks <+: s)) :
    substAll k ks val (a :: s) = a :: substAll k ks val s := by
  rw [substAll, if_neg h]

/-- For a key of one letter the pass is a `flatMap`. -/
lemma substAll_singleton (s : List α) :
    substAll k [] val s = s.flatMap fun a => if a = k then val else [a] := by
  induction s with
  | nil => simp
  | cons a s ih =>
      by_cases ha : a = k
      · subst ha
        simpa [ih] using @substAll_key_append α _ a [] val s
      · rw [substAll_cons_of_not (by simp [ha]), ih]
        simp [ha]

/-- A prefix that misses a letter ends before it. -/
lemma prefix_append_cons_iff {w : α} (hw : w ∉ ks) (u x : List α) :
    ks <+: u ++ w :: x ↔ ks <+: u := by
  refine ⟨fun h => ?_, fun h => h.trans (List.prefix_append _ _)⟩
  rcases List.prefix_or_prefix_of_prefix h (List.prefix_append u (w :: x)) with h' | h'
  · exact h'
  · obtain ⟨t, rfl⟩ := h'
    have ht : t <+: w :: x := (List.prefix_append_right_inj u).mp h
    rcases t with _ | ⟨c, t⟩
    · simp
    · obtain ⟨rfl, -⟩ := List.cons_prefix_cons.mp ht
      simp at hw

/-- When no occurrence can run over the border, the pass may be made on both sides apart. -/
lemma substAll_append {t : List α} (hcross : ∀ u, ks <+: u ++ t ↔ ks <+: u) (u : List α) :
    substAll k ks val (u ++ t) = substAll k ks val u ++ substAll k ks val t := by
  induction hn : u.length using Nat.strong_induction_on generalizing u with
  | _ n ih =>
    rcases u with _ | ⟨a, u⟩
    · simp
    · by_cases h : a = k ∧ ks <+: u
      · obtain ⟨rfl, v, rfl⟩ := h
        have hlt : v.length < n := by simp at hn; omega
        rw [List.cons_append, List.append_assoc, substAll_key_append, substAll_key_append,
          ih _ hlt v rfl, List.append_assoc]
      · have h' : ¬ (a = k ∧ ks <+: u ++ t) := by rwa [hcross]
        rw [List.cons_append, substAll_cons_of_not h', substAll_cons_of_not h, List.cons_append,
          ih _ (by simp at hn; omega) u rfl]

/-- The pass replaces any chosen occurrence, and goes on separately before and behind it. -/
lemma substAll_append_key (hk : k ∉ ks) (u v : List α) :
    substAll k ks val (u ++ k :: ks ++ v) =
      substAll k ks val u ++ val ++ substAll k ks val v := by
  rw [List.append_assoc, List.cons_append, substAll_append (prefix_append_cons_iff hk · _),
    substAll_key_append, List.append_assoc]

/-- Without an occurrence the pass changes nothing. -/
lemma substAll_of_not_infix {s : List α} (h : ¬ k :: ks <:+: s) : substAll k ks val s = s := by
  induction s with
  | nil => simp
  | cons a s ih =>
      rw [List.infix_cons_iff, not_or] at h
      rw [substAll_cons_of_not (fun hp => h.1 ?_), ih h.2]
      obtain ⟨rfl, hs⟩ := hp
      exact List.cons_prefix_cons.mpr ⟨rfl, hs⟩

/-- So is a list without the head of the key. -/
lemma substAll_append_of_notMem (hval : k ∉ val) (v : List α) :
    substAll k ks val (val ++ v) = val ++ substAll k ks val v := by
  suffices H : ∀ w : List α, k ∉ w →
      substAll k ks val (w ++ v) = w ++ substAll k ks val v from H val hval
  intro w hw
  induction w with
  | nil => rfl
  | cons a w ih =>
      simp only [List.mem_cons, not_or] at hw
      rw [List.cons_append, substAll_cons_of_not (fun h => hw.1 h.1.symm), ih hw.2,
        List.cons_append]

/-- A replacement that is not longer than the key does not make the list longer. -/
lemma length_substAll_le (hval : val.length ≤ ks.length + 1) (s : List α) :
    (substAll k ks val s).length ≤ s.length := by
  fun_induction substAll k ks val s with
  | case1 => exact Nat.le_refl 0
  | case2 a s h ih =>
    have hks := h.2.length_le
    rw [List.length_drop] at ih
    rw [List.length_append, List.length_cons]
    omega
  | case3 a s h ih =>
    rw [List.length_cons, List.length_cons]
    exact Nat.succ_le_succ ih

/-! ## Counting the head of the key -/

/-- Replacing adds no head of the key. -/
lemma count_substAll_le (hval : k ∉ val) (s : List α) :
    (substAll k ks val s).count k ≤ s.count k := by
  induction hn : s.length using Nat.strong_induction_on generalizing s with
  | _ n ih =>
    rcases s with _ | ⟨a, s⟩
    · simp
    · by_cases h : a = k ∧ ks <+: s
      · obtain ⟨rfl, v, rfl⟩ := h
        have hv := ih v.length (by simp at hn; omega) v rfl
        rw [substAll_key_append, List.count_append, List.count_eq_zero_of_not_mem hval]
        simp only [List.count_cons_self, List.count_append]
        omega
      · rw [substAll_cons_of_not h]
        have hs := ih s.length (by simp at hn; omega) s rfl
        simp only [List.count_cons]
        omega

/-- Every replaced occurrence takes one head of the key out of the list. -/
lemma count_substAll_lt (hk : k ∉ ks) (hval : k ∉ val) {s : List α} (h : k :: ks <:+: s) :
    (substAll k ks val s).count k < s.count k := by
  obtain ⟨u, v, rfl⟩ := h
  have hu : (substAll k ks val u).count k ≤ u.count k := count_substAll_le hval u
  have hv : (substAll k ks val v).count k ≤ v.count k := count_substAll_le hval v
  rw [substAll_append_key hk]
  simp only [List.count_append, List.count_cons_self, List.count_eq_zero_of_not_mem hval]
  omega

/-- One replacement takes one head of the key out of the list. -/
lemma count_replaceFirst_lt (hval : k ∉ val) {s : List α} (h : k :: ks <:+: s) :
    (replaceFirst (k :: ks) val s).count k < s.count k := by
  rcases replaceFirst_cases (k :: ks) val s with ⟨hn, -⟩ | ⟨u, v, rfl, hr⟩
  · exact absurd h hn
  · rw [hr]
    simp only [List.count_append, List.count_cons_self, List.count_eq_zero_of_not_mem hval]
    omega

/-- An occurrence that misses a letter lies on one side of it. -/
lemma infix_append_cons {key : List α} {w : α} (hw : w ∉ key) {u v : List α}
    (h : key <:+: u ++ w :: v) : key <:+: u ∨ key <:+: v := by
  induction u with
  | nil =>
      rw [List.nil_append, List.infix_cons_iff] at h
      rcases h with h | h
      · have hnil : key <+: [] := (prefix_append_cons_iff hw [] v).mp h
        exact Or.inl hnil.isInfix
      · exact Or.inr h
  | cons a u ih =>
      rw [List.cons_append, List.infix_cons_iff] at h
      rcases h with h | h
      · have hp : key <+: a :: u := (prefix_append_cons_iff hw (a :: u) v).mp h
        exact Or.inl hp.isInfix
      · exact (ih h).imp_left fun hu => List.infix_cons_iff.mpr (Or.inr hu)

/-! ## Replacing until nothing is left -/

/-- No replacement contains an occurrence of the key, or completes one with its surroundings. -/
structure Separates (k : α) (ks val : List α) : Prop where
  /-- The head of the key comes only once in it. -/
  head_notMem_tail : k ∉ ks
  /-- The head of the key is not in the replacement. -/
  head_notMem_val : k ∉ val
  /-- No occurrence begun before a replacement runs into it. -/
  border : ks = [] ∨ ∃ w ws, val = w :: ws ∧ w ∉ ks

/-- A key of one letter is separated by every replacement without that letter. -/
lemma Separates.singleton (h : k ∉ val) : Separates k [] val :=
  ⟨by simp, h, Or.inl rfl⟩

/-- A replaced occurrence is passed over by the one-pass replacement. -/
lemma Separates.substAll_append_val (h : Separates k ks val) (u v : List α) :
    substAll k ks val (u ++ val ++ v) = substAll k ks val u ++ val ++ substAll k ks val v := by
  have hcross : ∀ u, ks <+: u ++ (val ++ v) ↔ ks <+: u := by
    intro u
    rcases h.border with rfl | ⟨w, ws, rfl, hw⟩
    · simp
    · exact prefix_append_cons_iff hw u (ws ++ v)
  rw [List.append_assoc, substAll_append hcross, substAll_append_of_notMem h.head_notMem_val,
    List.append_assoc]

/-- To replace the first occurrence before the others makes no difference. -/
lemma Separates.substAll_replaceFirst (h : Separates k ks val) (s : List α) :
    substAll k ks val (replaceFirst (k :: ks) val s) = substAll k ks val s := by
  rcases replaceFirst_cases (k :: ks) val s with ⟨-, hr⟩ | ⟨u, v, rfl, hr⟩
  · rw [hr]
  · rw [hr, h.substAll_append_val, substAll_append_key h.head_notMem_tail]

/-- Replacing until nothing is left is the one-pass replacement, and it ends: each
iteration takes one head of the key away. -/
theorem Separates.whileLoop_replaceFirst (h : Separates k ks val) (s : List α) :
    whileLoop (fun t => (findSub (k :: ks) t).isSome) (replaceFirst (k :: ks) val)
      (s.count k + 1) s = some (substAll k ks val s) := by
  obtain ⟨r, hr⟩ := whileLoop_terminates (b := fun t => (findSub (k :: ks) t).isSome)
    (f := replaceFirst (k :: ks) val) (List.count k)
    (fun y hy => count_replaceFirst_lt h.head_notMem_val (findSub_isSome_iff.mp hy)) s
  have hexit : ¬ k :: ks <:+: r := by
    rw [← findSub_isSome_iff, whileLoop_exit hr]
    simp
  have hinv : substAll k ks val r = substAll k ks val s :=
    whileLoop_invariant (P := fun t => substAll k ks val t = substAll k ks val s)
      (fun y _ hy => (h.substAll_replaceFirst y).trans hy) rfl hr
  rw [hr, ← hinv, substAll_of_not_infix hexit]

/-! ## Trimming and substituting -/

section Trim

variable {γ : Type*} {p : γ → Bool} {f : γ → List γ}

/-- What is trimmed off is left alone by the substitution, and what the others become does not begin
with anything that would be trimmed off. -/
lemma dropWhile_flatMap (hblank : ∀ a, p a = true → f a = [a])
    (hhead : ∀ a, p a = false → ∃ x l, f a = x :: l ∧ p x = false) (s : List γ) :
    (s.flatMap f).dropWhile p = (s.dropWhile p).flatMap f := by
  induction s with
  | nil => rfl
  | cons a s ih =>
    rcases hp : p a with _ | _
    · obtain ⟨x, l, hx, hpx⟩ := hhead a hp
      rw [List.dropWhile_cons_of_neg (by simp [hp]), List.flatMap_cons, hx, List.cons_append,
        List.dropWhile_cons_of_neg (by simp [hpx])]
    · rw [List.dropWhile_cons_of_pos hp, List.flatMap_cons, hblank a hp, List.singleton_append,
        List.dropWhile_cons_of_pos hp, ih]

/-- The same at the other end. -/
lemma rdropWhile_flatMap (hblank : ∀ a, p a = true → f a = [a])
    (hlast : ∀ a, p a = false → ∃ x l, f a = l ++ [x] ∧ p x = false) (s : List γ) :
    (s.flatMap f).rdropWhile p = (s.rdropWhile p).flatMap f := by
  have hreverse : (s.flatMap f).reverse = s.reverse.flatMap fun a => (f a).reverse := by
    rw [List.reverse_flatMap]
    rfl
  have hback : (s.reverse.dropWhile p).flatMap (fun a => (f a).reverse) =
      ((s.rdropWhile p).flatMap f).reverse := by
    rw [List.reverse_flatMap, List.rdropWhile, List.reverse_reverse]
    rfl
  rw [List.rdropWhile, hreverse, dropWhile_flatMap, hback, List.reverse_reverse]
  · intro a ha
    rw [hblank a ha, List.reverse_singleton]
  · intro a ha
    obtain ⟨x, l, hx, hpx⟩ := hlast a ha
    exact ⟨x, l.reverse, by rw [hx, List.reverse_concat], hpx⟩

end Trim

end Spotifile.Lib
