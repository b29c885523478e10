import Mathlib.Data.List.Basic

/-!
# Tables that are filled first come, first served

Items claim keys one after the other. The first item that claims a key gets it, and those that come
later are turned away. So a table that was filled in this way is given by the list of all claims:
under a key there is the item that `List.lookup` finds in the list.

`FirstCome` says this of a table `look`, for keys that are not reserved for something else. What it
means that the item `t` is behind the value `v` is left to the relation `Behind`.
-/

namespace Spotifile.Lib

variable {κ ν τ : Type} [BEq κ]

/-- The table `look` was filled by the claims. -/
structure FirstCome (look : κ → Option ν) (reserved : κ → Prop) (Behind : κ → ν → τ → Prop)
    (claims : List (κ × τ)) : Prop where
  entry : ∀ key t, claims.lookup key = some t → ∃ v, look key = some v ∧ Behind key v t
  free : ∀ key, ¬ reserved key → claims.lookup key = none → look key = none

/-- A new claim is only looked at where no older one is. -/
lemma lookup_concat [LawfulBEq κ] [DecidableEq κ] (claims : List (κ × τ)) (key key' : κ) (t : τ) :
    (claims ++ [(key, t)]).lookup key' =
      (claims.lookup key').or (if key' = key then some t else none) := by
  rw [List.lookup_append, List.lookup_cons]
  by_cases hkey : key' = key
  · rw [if_pos hkey, hkey, beq_self_eq_true]
  · rw [if_neg hkey, beq_eq_false_iff_ne.mpr hkey]
    rfl

/-- Who claims a key is behind somebody who claimed it first. -/
lemma exists_lookup_of_mem [LawfulBEq κ] {claims : List (κ × τ)} {key : κ} {t : τ}
    (h : (key, t) ∈ claims) : ∃ t', claims.lookup key = some t' := by
  refine Option.ne_none_iff_exists'.mp fun hnone => ?_
  have hne := List.lookup_eq_none_iff.mp hnone (key, t) h
  simp at hne

/-- A claim that is found was made. -/
lemma mem_of_lookup [LawfulBEq κ] {claims : List (κ × τ)} {key : κ} {t : τ}
    (h : claims.lookup key = some t) : (key, t) ∈ claims := by
  obtain ⟨l₁, l₂, rfl, -⟩ := List.lookup_eq_some_iff.mp h
  simp

namespace FirstCome

variable {look look' : κ → Option ν} {reserved : κ → Prop} {Behind Behind' : κ → ν → τ → Prop}
  {claims : List (κ × τ)} {key : κ} {t : τ} {v : ν}

/-- Before the first claim every name is free. -/
lemma nil (h : ∀ key, ¬ reserved key → look key = none) :
    FirstCome look reserved Behind ([] : List (κ × τ)) where
  entry _ _ ht := by cases ht
  free key hkey _ := h key hkey

/-- What does not touch the table. -/
lemma mono (hf : FirstCome look reserved Behind claims)
    (hlook : ∀ key v, look key = some v → look' key = some v)
    (hfree : ∀ key, ¬ reserved key → look key = none → look' key = none)
    (hbehind : ∀ key v t, look key = some v → Behind key v t → Behind' key v t) :
    FirstCome look' reserved Behind' claims where
  entry key t ht := by
    obtain ⟨v, hv, hvt⟩ := hf.entry key t ht
    exact ⟨v, hlook key v hv, hbehind key v t hv hvt⟩
  free key hkey hnone := hfree key hkey (hf.free key hkey hnone)

variable [LawfulBEq κ]

/-- An item that is found is an old one, or the new one under its own key. -/
lemma lookup_concat_cases [DecidableEq κ] {key' : κ} {t' : τ}
    (ht : (claims ++ [(key, t)]).lookup key' = some t') :
    claims.lookup key' = some t' ∨ claims.lookup key' = none ∧ key' = key ∧ t' = t := by
  rw [lookup_concat] at ht
  rcases hold : claims.lookup key' with _ | t₀
  · rw [hold, Option.none_or] at ht
    split at ht
    · next heq => exact .inr ⟨rfl, heq, (Option.some.inj ht).symm⟩
    · cases ht
  · rw [hold, Option.some_or] at ht
    exact .inl ht

/-- An item comes too late. -/
lemma taken [DecidableEq κ] (hf : FirstCome look reserved Behind claims) (hkey : ¬ reserved key)
    (hthere : look key ≠ none) : FirstCome look reserved Behind (claims ++ [(key, t)]) where
  entry key' t' ht := by
    rcases lookup_concat_cases ht with hold | ⟨hnone, rfl, rfl⟩
    · exact hf.entry key' t' hold
    · exact absurd (hf.free key' hkey hnone) hthere
  free key' hkey' hnone := by
    rw [lookup_concat, Option.or_eq_none_iff] at hnone
    exact hf.free key' hkey' hnone.1

/-- An item is the first. -/
lemma insert [DecidableEq κ] (hf : FirstCome look reserved Behind claims) (hfree : look key = none)
    (hlook : ∀ key', look' key' = if key' = key then some v else look key')
    (hbehind : ∀ key v t, look key = some v → Behind key v t → Behind' key v t)
    (hnew : Behind' key v t) : FirstCome look' reserved Behind' (claims ++ [(key, t)]) where
  entry key' t' ht := by
    rcases lookup_concat_cases ht with hold | ⟨-, rfl, rfl⟩
    · obtain ⟨v₀, hv₀, hbehind₀⟩ := hf.entry key' t' hold
      have hne : key' ≠ key := by
        rintro rfl
        cases hfree.symm.trans hv₀
      exact ⟨v₀, by rw [hlook, if_neg hne, hv₀], hbehind key' v₀ t' hv₀ hbehind₀⟩
    · exact ⟨v, by rw [hlook, if_pos rfl], hnew⟩
  free key' hkey' hnone := by
    rw [lookup_concat, Option.or_eq_none_iff] at hnone
    have hne : key' ≠ key := by
      rintro rfl
      rw [if_pos rfl] at hnone
      cases hnone.2
    rw [hlook, if_neg hne]
    exact hf.free key' hkey' hnone.1

/-- There is a value under the keys that were claimed. -/
lemma there_iff (hf : FirstCome look reserved Behind claims) (hkey : ¬ reserved key) :
    look key ≠ none ↔ ∃ t, (key, t) ∈ claims := by
  constructor
  · intro hthere
    obtain ⟨t, ht⟩ := Option.ne_none_iff_exists'.mp fun hnone => hthere (hf.free key hkey hnone)
    exact ⟨t, mem_of_lookup ht⟩
  · rintro ⟨t, hmem⟩
    obtain ⟨first, hfirst⟩ := exists_lookup_of_mem hmem
    obtain ⟨v, hv, -⟩ := hf.entry key first hfirst
    rw [hv]
    exact Option.some_ne_none v

/-- An item that claims a key is served exactly if the first to claim it is as good. -/
theorem served_iff (hf : FirstCome look reserved Behind claims) (hmem : (key, t) ∈ claims)
    {Serves : ν → Prop} {Same : τ → Prop}
    (h : ∀ v t', look key = some v → Behind key v t' → (Serves v ↔ Same t')) :
    (∃ v, look key = some v ∧ Serves v) ↔ ∃ t', claims.lookup key = some t' ∧ Same t' := by
  obtain ⟨t', ht'⟩ := exists_lookup_of_mem hmem
  obtain ⟨v, hv, hbehind⟩ := hf.entry key t' ht'
  have hiff := h v t' hv hbehind
  constructor
  · rintro ⟨v', hv', hserves⟩
    obtain rfl := Option.some.inj (hv.symm.trans hv')
    exact ⟨t', ht', hiff.mp hserves⟩
  · rintro ⟨t'', ht'', hsame⟩
    obtain rfl := Option.some.inj (ht'.symm.trans ht'')
    exact ⟨v, hv, hiff.mpr hsame⟩

/-- Where no key is reserved: some value serves exactly if somebody who was the first to claim a key
is as good. -/
theorem exists_served_iff (hf : FirstCome look (fun _ => False) Behind claims)
    {Serves : ν → Prop} {Same : τ → Prop}
    (h : ∀ key v t, (key, t) ∈ claims → look key = some v → Behind key v t →
      (Serves v ↔ Same t)) :
    (∃ key v, look key = some v ∧ Serves v) ↔ ∃ key t, claims.lookup key = some t ∧ Same t := by
  have hmem : ∀ {key t}, claims.lookup key = some t → (key, t) ∈ claims := by
    intro key t ht
    obtain ⟨l₁, l₂, rfl, -⟩ := List.lookup_eq_some_iff.mp ht
    simp
  constructor
  · rintro ⟨key, v, hv, hserves⟩
    obtain ⟨t, ht⟩ := Option.ne_none_iff_exists'.mp fun hnone => by
      cases hv.symm.trans (hf.free key not_false hnone)
    obtain ⟨v', hv', hbehind⟩ := hf.entry key t ht
    obtain rfl := Option.some.inj (hv.symm.trans hv')
    exact ⟨key, t, ht, (h key v t (hmem ht) hv hbehind).mp hserves⟩
  · rintro ⟨key, t, ht, hsame⟩
    obtain ⟨v, hv, hbehind⟩ := hf.entry key t ht
    exact ⟨key, v, hv, (h key v t (hmem ht) hv hbehind).mpr hsame⟩

end FirstCome

end Spotifile.Lib
