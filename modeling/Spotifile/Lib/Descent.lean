import Mathlib

/-!
# Visits to everything below a node

`kids p` lists the nodes right below `p`. In a `Descent` no node has two parents, none is listed
twice, and a rank grows on the way down. `visit` goes through all that is below a node: it enters
the node, visits its kids one after the other, and leaves the node. `Descent.exists_visit` is the
rule for it: what every step keeps, for the set of the nodes left so far, holds in the end for all
that is below. So every node is left exactly once, and after all that is below it.
-/

namespace Spotifile.Lib

variable {ι σ : Type}

/-- No node has two parents, and the rank grows on the way down. -/
structure Descent (kids : ι → List ι) (rank : ι → ℕ) : Prop where
  rank : ∀ p q, q ∈ kids p → rank p < rank q
  parent : ∀ p p' q, q ∈ kids p → q ∈ kids p' → p = p'
  once : ∀ p, (kids p).Nodup

/-- `q` is below `p`, or is `p`. -/
def Below (kids : ι → List ι) : ι → ι → Prop := Relation.ReflTransGen fun p q => q ∈ kids p

/-- Enters a node, visits the nodes below it, and leaves it. -/
def visit (kids : ι → List ι) (enter leave : ι → σ → Option σ) : ℕ → ι → σ → Option σ
  | 0, _, _ => none
  | fuel + 1, p, s =>
    (enter p s).bind fun s =>
      ((kids p).foldlM (fun s q => visit kids enter leave fuel q s) s).bind (leave p)

variable {kids : ι → List ι} {rank : ι → ℕ} {p q c c' : ι}

/-- What is below a node is the node or below one of its kids. -/
lemma below_iff : Below kids p q ↔ q = p ∨ ∃ c ∈ kids p, Below kids c q := by
  constructor
  · intro h
    rcases Relation.ReflTransGen.cases_head h with rfl | ⟨c, hc, hrest⟩
    · exact .inl rfl
    · exact .inr ⟨c, hc, hrest⟩
  · rintro (rfl | ⟨c, hc, hrest⟩)
    · exact .refl
    · exact .head hc hrest

/-- A loop whose body adds a set to what has been left. -/
lemma exists_foldlM {f : σ → ι → Option σ} {I : Set ι → σ → Prop} {S : ι → Set ι} {l : List ι}
    (hl : l.Pairwise fun c c' => Disjoint (S c) (S c'))
    (hf : ∀ c ∈ l, ∀ D s, Disjoint D (S c) → I D s → ∃ s', f s c = some s' ∧ I (D ∪ S c) s')
    {D : Set ι} {s : σ} (hD : ∀ c ∈ l, Disjoint D (S c)) (hs : I D s) :
    ∃ s', l.foldlM f s = some s' ∧ I (D ∪ ⋃ c ∈ l, S c) s' := by
  induction l generalizing D s with
  | nil => exact ⟨s, rfl, by simpa using hs⟩
  | cons c l ih =>
    obtain ⟨hc, hl⟩ := List.pairwise_cons.mp hl
    obtain ⟨s₁, hs₁, hI₁⟩ := hf c (by simp) D s (hD c (by simp)) hs
    have hD₁ : ∀ c' ∈ l, Disjoint (D ∪ S c) (S c') := fun c' hc' =>
      Disjoint.union_left (hD c' (by simp [hc'])) (hc c' hc')
    obtain ⟨s₂, hs₂, hI₂⟩ := ih hl (fun c' hc' => hf c' (by simp [hc'])) hD₁ hI₁
    refine ⟨s₂, by rw [List.foldlM_cons, hs₁]; exact hs₂, ?_⟩
    have hset : D ∪ ⋃ c' ∈ c :: l, S c' = D ∪ S c ∪ ⋃ c' ∈ l, S c' := by
      simp [Set.iUnion_or, Set.iUnion_union_distrib, Set.union_assoc]
    rwa [hset]

namespace Descent

variable (hd : Descent kids rank)
include hd

/-- The rank does not fall on the way down. -/
lemma rank_le (h : Below kids p q) : rank p ≤ rank q := by
  induction h with
  | refl => exact Nat.le_refl _
  | tail _ hq ih => exact ih.trans (hd.rank _ _ hq).le

/-- A node is not below its kids. -/
lemma not_below (hc : c ∈ kids p) : ¬ Below kids c p := fun h =>
  absurd (hd.rank_le h) (Nat.not_le.mpr (hd.rank p c hc))

/-- Two nodes with something below both of them are one below the other. -/
lemma below_or_below (h : Below kids c q) (h' : Below kids c' q) :
    Below kids c c' ∨ Below kids c' c := by
  induction h generalizing c' with
  | refl => exact .inr h'
  | @tail x q hx hq ih =>
    rcases Relation.ReflTransGen.cases_tail h' with rfl | ⟨x', hx', hq'⟩
    · exact .inl (hx.tail hq)
    · obtain rfl := hd.parent _ _ _ hq hq'
      exact ih hx'

/-- What is below two kids of a node is one kid. -/
lemma eq_of_below (hc : c ∈ kids p) (hc' : c' ∈ kids p) (h : Below kids c q)
    (h' : Below kids c' q) : c = c' := by
  have key : ∀ {c c'}, c ∈ kids p → c' ∈ kids p → Below kids c c' → c = c' := by
    intro c c' hc hc' hb
    rcases Relation.ReflTransGen.cases_tail hb with rfl | ⟨x, hx, hc''⟩
    · rfl
    · obtain rfl := hd.parent _ _ _ hc'' hc'
      exact absurd hx (hd.not_below hc)
  rcases hd.below_or_below h h' with hb | hb
  · exact key hc hc' hb
  · exact (key hc' hc hb).symm

/-- What is below the kids of a node falls into disjoint sets. -/
lemma pairwise_kids (p : ι) :
    (kids p).Pairwise fun c c' => Disjoint {q | Below kids c q} {q | Below kids c' q} := by
  refine (hd.once p).imp_of_mem fun {c c'} hc hc' hne => Set.disjoint_left.mpr fun q hq hq' => ?_
  exact hne (hd.eq_of_below hc hc' hq hq')

/-- The rule for `visit`. `I D s` says that the nodes in `D` have been left. -/
theorem exists_visit {enter leave : ι → σ → Option σ} {I : Set ι → σ → Prop}
    (henter : ∀ q, Below kids p q → ∀ D s, q ∉ D → I D s → ∃ s', enter q s = some s' ∧ I D s')
    (hleave : ∀ q, Below kids p q → ∀ D s, q ∉ D → I D s →
      ∃ s', leave q s = some s' ∧ I (insert q D) s')
    {bound fuel : ℕ} (hbound : ∀ q, Below kids p q → rank q < bound)
    (hfuel : bound ≤ rank p + fuel) {D : Set ι} {s : σ} (hD : Disjoint D {q | Below kids p q})
    (hs : I D s) :
    ∃ s', visit kids enter leave fuel p s = some s' ∧ I (D ∪ {q | Below kids p q}) s' := by
  induction fuel generalizing p D s with
  | zero => exact absurd (hbound p .refl) (Nat.not_lt.mpr hfuel)
  | succ fuel ih =>
    have hdown : ∀ c ∈ kids p, ∀ q, Below kids c q → Below kids p q := fun c hc q hq => .head hc hq
    have hp : p ∉ D := fun hmem => Set.disjoint_left.mp hD hmem .refl
    obtain ⟨s₁, hs₁, hI₁⟩ := henter p .refl D s hp hs
    obtain ⟨s₂, hs₂, hI₂⟩ := exists_foldlM (hd.pairwise_kids p)
      (f := fun s q => visit kids enter leave fuel q s) (I := I)
      (fun c hc D s hD hs => ih (fun q hq => henter q (hdown c hc q hq))
        (fun q hq => hleave q (hdown c hc q hq)) (fun q hq => hbound q (hdown c hc q hq))
        (by have := hd.rank p c hc; omega) hD hs)
      (fun c hc => hD.mono_right (hdown c hc)) hI₁
    have hp₂ : p ∉ D ∪ ⋃ c ∈ kids p, {q | Below kids c q} := by
      rintro (hmem | hmem)
      · exact hp hmem
      · obtain ⟨c, hc, hcp⟩ := Set.mem_iUnion₂.mp hmem
        exact hd.not_below hc hcp
    obtain ⟨s₃, hs₃, hI₃⟩ := hleave p .refl _ s₂ hp₂ hI₂
    refine ⟨s₃, by rw [visit, hs₁, Option.bind_some, hs₂, Option.bind_some, hs₃], ?_⟩
    have hset : D ∪ {q | Below kids p q} =
        insert p (D ∪ ⋃ c ∈ kids p, {q | Below kids c q}) := by
      ext q
      simp only [Set.mem_union, Set.mem_ofPred_eq, Set.mem_insert_iff, Set.mem_iUnion₂,
        below_iff (p := p), exists_prop]
      tauto
    rwa [hset]

end Descent

end Spotifile.Lib
