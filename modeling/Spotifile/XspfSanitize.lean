import Mathlib.Tactic.Tauto
import Spotifile.Strings

/-!
# `xspf_sanitize.c`: escaping text for XSPF

`xspf_sanitize` runs five escaping passes over each other's output. The four quoting passes
replace every occurrence of their character. The ampersand pass goes by way of a marker: it
replaces the **first** `&` by `!amp;` (one `str_replace`, not repeated) and then every `!amp;`
by `&amp;`. So a second ampersand is left as it is, and a literal `!amp;` of the input comes out
as `&amp;`.

* `xspf_sanitize_eq`: it always terminates, and the result is `sanitized s`.
* `xspf_sanitize_correct_iff`: the result is well escaped and decodes to the input exactly if
  the input has at most one `&` and no `!amp;`. The converse direction counts: decoding keeps
  the number of `!`, and takes one `;` away for each `&`.
-/

namespace Spotifile

open Lib

/-! ## The source -/

/-- Source: `xspf_sanitize.c`, `xspf_escape_double_quote`. -/
def xspf_escape_double_quote (fuel : ℕ) (s : gstr) : Option gstr :=
  replace_all fuel s "\"".toList "&quot;".toList

/-- Source: `xspf_sanitize.c`, `xspf_escape_single_quote`. -/
def xspf_escape_single_quote (fuel : ℕ) (s : gstr) : Option gstr :=
  replace_all fuel s "\'".toList "&apos;".toList

/-- Source: `xspf_sanitize.c`, `xspf_escape_lt`. -/
def xspf_escape_lt (fuel : ℕ) (s : gstr) : Option gstr :=
  replace_all fuel s "<".toList "&lt;".toList

/-- Source: `xspf_sanitize.c`, `xspf_escape_gt`. -/
def xspf_escape_gt (fuel : ℕ) (s : gstr) : Option gstr :=
  replace_all fuel s ">".toList "&gt;".toList

/-- The ampersand pass: only the first `&` becomes the marker.
Source: `xspf_sanitize.c`, `xspf_escape_ampersand`. -/
def xspf_escape_ampersand (fuel : ℕ) (s : gstr) : Option gstr :=
  let tmpstr := str_replace s "&".toList "!amp;".toList
  replace_all fuel tmpstr "!amp;".toList "&amp;".toList

/-- The statement `if (strstr(tmp, key) != NULL) tmp = escape(tmp)`, which `xspf_sanitize` has
four of. -/
def escapeIfFound (key : gstr) (escape : gstr → Option gstr) (tmp : gstr) : Option gstr :=
  if (strstr tmp key).isSome then escape tmp else some tmp

/-- Source: `xspf_sanitize.c`, `xspf_sanitize`. -/
def xspf_sanitize (fuel : ℕ) (s : gstr) : Option gstr := do
  let tmp ← xspf_escape_ampersand fuel s
  let tmp ← escapeIfFound "\"".toList (xspf_escape_double_quote fuel) tmp
  let tmp ← escapeIfFound "\'".toList (xspf_escape_single_quote fuel) tmp
  let tmp ← escapeIfFound "<".toList (xspf_escape_lt fuel) tmp
  escapeIfFound ">".toList (xspf_escape_gt fuel) tmp

/-! ## What it computes -/

/-- The text after the ampersand pass. -/
def markedAmps (s : gstr) : gstr :=
  substAll '!' "amp;".toList "&amp;".toList (str_replace s "&".toList "!amp;".toList)

/-- What the four quoting passes together make of one character. -/
def quoteChar (c : gchar) : gstr :=
  if c = '"' then "&quot;".toList else if c = '\'' then "&apos;".toList
  else if c = '<' then "&lt;".toList else if c = '>' then "&gt;".toList else [c]

/-- The result of `xspf_sanitize`. -/
def sanitized (s : gstr) : gstr := (markedAmps s).flatMap quoteChar

/-- The marker of an ampersand can be told from what it is replaced by. -/
lemma separates_marker : Separates '!' "amp;".toList "&amp;".toList :=
  ⟨by decide, by decide, Or.inr ⟨'&', "amp;".toList, rfl, by decide⟩⟩

/-- Without the marker in the text the second half of the ampersand pass changes nothing. -/
lemma substAll_marker_of_absent {t : gstr} (h : ¬ "!amp;".toList <:+: t) :
    substAll '!' "amp;".toList "&amp;".toList t = t :=
  substAll_of_not_infix h

/-- A guarded quoting pass is the `flatMap` of its character, found or not. -/
lemma escapeIfFound_replace_all {k : gchar} {val : gstr} (h : k ∉ val) {fuel : ℕ} {t : gstr}
    (hfuel : t.length < fuel) :
    escapeIfFound [k] (fun tmp => replace_all fuel tmp [k] val) t =
      some (t.flatMap fun a => if a = k then val else [a]) := by
  unfold escapeIfFound
  by_cases hk : (strstr t [k]).isSome = true
  · rw [if_pos hk]
    exact replace_all_singleton h hfuel
  · rw [if_neg hk, ← substAll_singleton, substAll_of_not_infix]
    exact fun hin => hk (findSub_isSome_iff.mpr hin)

/-- A pass after a replacement is one pass, if it leaves the replacement alone. -/
lemma flatMap_ite_comp {k : gchar} {val : gstr} {g : gchar → gstr} (t : gstr)
    (hval : val.flatMap g = val) :
    (t.flatMap fun a => if a = k then val else [a]).flatMap g =
      t.flatMap fun a => if a = k then val else g a := by
  rw [List.flatMap_assoc]
  congr 1
  funext a
  by_cases ha : a = k <;> simp [ha, hval]

/-- What one pass makes of a text is longer by a factor at most. -/
lemma length_flatMap_ite_le {k : gchar} {val : gstr} {n : ℕ} (hval : val.length ≤ n)
    (hn : 1 ≤ n) (t : gstr) :
    (t.flatMap fun a => if a = k then val else [a]).length ≤ n * t.length := by
  induction t with
  | nil => exact Nat.zero_le _
  | cons a t ih =>
    have ha : (if a = k then val else [a]).length ≤ n := by
      split
      · exact hval
      · exact hn
    rw [List.flatMap_cons, List.length_append, List.length_cons, Nat.mul_succ]
    omega

/-- One replacement makes a text longer by its length at most. -/
lemma length_str_replace_le (s c replacement : gstr) :
    (str_replace s c replacement).length ≤ s.length + replacement.length := by
  rw [str_replace_eq]
  rcases replaceFirst_cases c replacement s with ⟨-, hr⟩ | ⟨u, v, rfl, hr⟩
  · rw [hr]
    exact Nat.le_add_right _ _
  · rw [hr]
    simp only [List.length_append]
    omega

/-- `xspf_sanitize` terminates on every string, with `sanitized s`. -/
theorem xspf_sanitize_eq {s : gstr} {fuel : ℕ} (hfuel : 144 * (s.length + 5) < fuel) :
    xspf_sanitize fuel s = some (sanitized s) := by
  let t₀ := str_replace s "&".toList "!amp;".toList
  let t₁ := markedAmps s
  let t₂ := t₁.flatMap fun a => if a = '"' then "&quot;".toList else [a]
  let t₃ := t₂.flatMap fun a => if a = '\'' then "&apos;".toList else [a]
  let t₄ := t₃.flatMap fun a => if a = '<' then "&lt;".toList else [a]
  have h₀ : t₀.length ≤ s.length + 5 := length_str_replace_le s _ _
  have h₁ : t₁.length ≤ t₀.length := length_substAll_le (by decide) t₀
  have h₂ : t₂.length ≤ 6 * t₁.length := length_flatMap_ite_le (by decide) (by decide) t₁
  have h₃ : t₃.length ≤ 6 * t₂.length := length_flatMap_ite_le (by decide) (by decide) t₂
  have h₄ : t₄.length ≤ 4 * t₃.length := length_flatMap_ite_le (by decide) (by decide) t₃
  have hamp : xspf_escape_ampersand fuel s = some t₁ :=
    replace_all_eq separates_marker (by show t₀.length < fuel; omega)
  have hdq : escapeIfFound "\"".toList (xspf_escape_double_quote fuel) t₁ = some t₂ :=
    escapeIfFound_replace_all (by decide) (by omega)
  have hsq : escapeIfFound "\'".toList (xspf_escape_single_quote fuel) t₂ = some t₃ :=
    escapeIfFound_replace_all (by decide) (by omega)
  have hlt : escapeIfFound "<".toList (xspf_escape_lt fuel) t₃ = some t₄ :=
    escapeIfFound_replace_all (by decide) (by omega)
  have hgt : escapeIfFound ">".toList (xspf_escape_gt fuel) t₄ =
      some (t₄.flatMap fun a => if a = '>' then "&gt;".toList else [a]) :=
    escapeIfFound_replace_all (by decide) (by omega)
  -- the four quoting passes do not touch each other's output
  have hall : (t₄.flatMap fun a => if a = '>' then "&gt;".toList else [a]) = sanitized s := by
    show List.flatMap _ (List.flatMap _ (List.flatMap _ (List.flatMap _ t₁))) = _
    rw [flatMap_ite_comp _ (by decide), flatMap_ite_comp _ (by decide),
      flatMap_ite_comp _ (by decide)]
    rfl
  simp only [xspf_sanitize, hamp, Option.bind_eq_bind, Option.bind_some, hdq, hsq, hlt, hgt, hall]

/-! ## Decoding -/

/-- The five entities of XML text. -/
def entities : List gstr :=
  ["&amp;".toList, "&lt;".toList, "&gt;".toList, "&quot;".toList, "&apos;".toList]

/-- Decoding the five entities in one pass from left to right. -/
def decode : gstr → gstr
  | '&' :: 'a' :: 'm' :: 'p' :: ';' :: s => '&' :: decode s
  | '&' :: 'l' :: 't' :: ';' :: s => '<' :: decode s
  | '&' :: 'g' :: 't' :: ';' :: s => '>' :: decode s
  | '&' :: 'q' :: 'u' :: 'o' :: 't' :: ';' :: s => '"' :: decode s
  | '&' :: 'a' :: 'p' :: 'o' :: 's' :: ';' :: s => '\'' :: decode s
  | c :: s => c :: decode s
  | [] => []

/-- Each `&` of the text starts one of the five entities. -/
def AmpsStartEntities (r : gstr) : Prop :=
  ∀ u v, r = u ++ '&' :: v → ∃ ent ∈ entities, ent <+: '&' :: v

/-- Text that is safe inside an XML element: no raw `<`, `>`, `"`, `'`, and no `&` but those of
entities. -/
structure WellEscaped (r : gstr) : Prop where
  no_raw : '<' ∉ r ∧ '>' ∉ r ∧ '"' ∉ r ∧ '\'' ∉ r
  amps : AmpsStartEntities r

/-- What `xspf_sanitize` is for: it terminates, its result is well escaped, and decoding the
result gives the string back. -/
def SanitizesCorrectly (s : gstr) : Prop :=
  ∃ fuel r, xspf_sanitize fuel s = some r ∧ WellEscaped r ∧ decode r = s

/-- The rest of a text keeps the rule. -/
lemma AmpsStartEntities.tail {c : gchar} {r : gstr} (h : AmpsStartEntities (c :: r)) :
    AmpsStartEntities r := by
  rintro u v rfl
  exact h (c :: u) v rfl

/-- So does the text behind any beginning. -/
lemma AmpsStartEntities.drop {w r : gstr} (h : AmpsStartEntities (w ++ r)) :
    AmpsStartEntities r := by
  induction w with
  | nil => exact h
  | cons c w ih => exact ih h.tail

/-- A character other than `&` stands for itself. -/
lemma decode_cons_of_ne {c : gchar} (hc : c ≠ '&') (s : gstr) :
    decode (c :: s) = c :: decode s := by
  rw [decode] <;> (intros; simp_all)

/-- Decoding keeps the number of `!`. -/
lemma count_bang_decode (r : gstr) : (decode r).count '!' = r.count '!' := by
  fun_induction decode r <;> simp_all [List.count_cons]

/-- Where every `&` starts an entity, decoding takes one `;` away for each of them. -/
lemma count_semicolon_decode (r : gstr) (h : AmpsStartEntities r) :
    (decode r).count ';' + r.count '&' = r.count ';' := by
  fun_induction decode r with
  | case1 s ih =>
      have := ih (@AmpsStartEntities.drop "&amp;".toList s h)
      simp; omega
  | case2 s ih =>
      have := ih (@AmpsStartEntities.drop "&lt;".toList s h)
      simp; omega
  | case3 s ih =>
      have := ih (@AmpsStartEntities.drop "&gt;".toList s h)
      simp; omega
  | case4 s ih =>
      have := ih (@AmpsStartEntities.drop "&quot;".toList s h)
      simp; omega
  | case5 s ih =>
      have := ih (@AmpsStartEntities.drop "&apos;".toList s h)
      simp; omega
  | case6 c s h₁ h₂ h₃ h₄ h₅ ih =>
      have hc : c ≠ '&' := by
        rintro rfl
        obtain ⟨ent, hent, t, ht⟩ := h [] s rfl
        simp only [entities, List.mem_cons, List.not_mem_nil, or_false] at hent
        rcases hent with rfl | rfl | rfl | rfl | rfl <;> simp at ht
        · exact h₁ t rfl ht.symm
        · exact h₂ t rfl ht.symm
        · exact h₃ t rfl ht.symm
        · exact h₄ t rfl ht.symm
        · exact h₅ t rfl ht.symm
      have := ih h.tail
      simp only [List.count_cons]
      simp [hc]; omega
  | case7 => rfl

/-! ## When the text is escaped correctly -/

/-- Quoting adds no `!`. -/
lemma count_bang_quoted (t : gstr) : (t.flatMap quoteChar).count '!' = t.count '!' := by
  induction t with
  | nil => rfl
  | cons c t ih =>
      have hc : (quoteChar c).count '!' = [c].count '!' := by
        unfold quoteChar
        split_ifs <;> simp_all
      rw [List.flatMap_cons, List.count_append, ih, hc, ← List.count_append,
        List.singleton_append]

/-- Quoting adds as many `;` as it adds `&`. -/
lemma count_semicolon_quoted (t : gstr) :
    (t.flatMap quoteChar).count ';' + t.count '&' =
      (t.flatMap quoteChar).count '&' + t.count ';' := by
  induction t with
  | nil => rfl
  | cons c t ih =>
      have hc : (quoteChar c).count ';' + [c].count '&' =
          (quoteChar c).count '&' + [c].count ';' := by
        unfold quoteChar
        split_ifs with h₁ h₂ h₃ h₄
        · subst h₁; decide
        · subst h₂; decide
        · subst h₃; decide
        · subst h₄; decide
        · exact Nat.add_comm _ _
      have hcons : ∀ x : gchar, (c :: t).count x = [c].count x + t.count x := fun x => by
        rw [← List.count_append, List.singleton_append]
      rw [List.flatMap_cons, List.count_append, List.count_append, hcons, hcons]
      omega

/-- The ampersand pass on a string with an ampersand. -/
lemma markedAmps_cases (s : gstr) :
    ('&' ∉ s ∧ markedAmps s = substAll '!' "amp;".toList "&amp;".toList s) ∨
      ∃ u v, s = u ++ '&' :: v ∧ markedAmps s =
        substAll '!' "amp;".toList "&amp;".toList u ++ "&amp;".toList ++
          substAll '!' "amp;".toList "&amp;".toList v := by
  unfold markedAmps
  rw [str_replace_eq]
  rcases replaceFirst_cases "&".toList "!amp;".toList s with ⟨hn, hr⟩ | ⟨u, v, hs, hr⟩
  · refine Or.inl ⟨fun hmem => hn ?_, by rw [hr]⟩
    obtain ⟨u, v, rfl⟩ := List.append_of_mem hmem
    exact ⟨u, v, by simp⟩
  · refine Or.inr ⟨u, v, by simpa using hs, ?_⟩
    rw [hr]
    exact substAll_append_key (by decide) u v

/-- A literal marker in the input costs a `!`. -/
lemma count_bang_markedAmps_lt {s : gstr} (h : "!amp;".toList <:+: s) :
    (markedAmps s).count '!' < s.count '!' := by
  have hval' : '!' ∉ "&amp;".toList := by decide
  have hle : ∀ t : gstr, (substAll '!' "amp;".toList "&amp;".toList t).count '!' ≤ t.count '!' :=
    count_substAll_le hval'
  have hlt : ∀ t : gstr, "!amp;".toList <:+: t →
      (substAll '!' "amp;".toList "&amp;".toList t).count '!' < t.count '!' :=
    fun t => @count_substAll_lt _ _ '!' "amp;".toList _ (by decide) hval' t
  rcases markedAmps_cases s with ⟨-, hm⟩ | ⟨u, v, rfl, hm⟩
  · rw [hm]
    exact hlt s h
  · have hu := hle u
    have hv := hle v
    have hval : List.count '!' "&amp;".toList = 0 := by decide
    have hs : List.count '!' (u ++ '&' :: v) = u.count '!' + v.count '!' := by simp
    rw [hm, hs, List.count_append, List.count_append, hval]
    rcases infix_append_cons (by decide) h with h' | h'
    · have := hlt u h'
      omega
    · have := hlt v h'
      omega

/-- The escaping that XML asks for, one character at a time. -/
def escapeChar (c : gchar) : gstr := if c = '&' then "&amp;".toList else quoteChar c

/-- Without an ampersand quoting is escaping. -/
lemma flatMap_quoteChar_of_notMem {t : gstr} (h : '&' ∉ t) :
    t.flatMap quoteChar = t.flatMap escapeChar :=
  List.flatMap_congr fun c hc => by rw [escapeChar, if_neg (ne_of_mem_of_not_mem hc h)]

/-- With one ampersand at most and no literal marker, the five passes are one escaping pass. -/
lemma sanitized_eq_flatMap {s : gstr} (hamp : s.count '&' ≤ 1) (hbang : ¬ "!amp;".toList <:+: s) :
    sanitized s = s.flatMap escapeChar := by
  unfold sanitized
  rcases markedAmps_cases s with ⟨hn, hm⟩ | ⟨u, v, rfl, hm⟩
  · rw [hm, substAll_marker_of_absent hbang, flatMap_quoteChar_of_notMem hn]
  · have hcount : u.count '&' + v.count '&' = 0 := by
      rw [List.count_append, List.count_cons_self] at hamp
      omega
    have hu : '&' ∉ u := List.count_eq_zero.mp (by omega)
    have hv : '&' ∉ v := List.count_eq_zero.mp (by omega)
    have hbu : ¬ "!amp;".toList <:+: u := fun h => hbang (h.trans (List.prefix_append u _).isInfix)
    have hbv : ¬ "!amp;".toList <:+: v := fun h =>
      hbang (h.trans ((List.suffix_cons _ v).trans (List.suffix_append u _)).isInfix)
    have hent : "&amp;".toList.flatMap quoteChar = escapeChar '&' := by decide
    rw [hm, substAll_marker_of_absent hbu, substAll_marker_of_absent hbv, List.flatMap_append,
      List.flatMap_append, hent, flatMap_quoteChar_of_notMem hu, flatMap_quoteChar_of_notMem hv,
      List.flatMap_append, List.flatMap_cons, List.append_assoc]

/-- An escaped character is an entity, or a harmless character on its own. -/
lemma escapeChar_cases (c : gchar) :
    (escapeChar c ∈ entities ∧ ∀ s, decode (escapeChar c ++ s) = c :: decode s) ∨
      (escapeChar c = [c] ∧ c ≠ '&' ∧ c ≠ '<' ∧ c ≠ '>' ∧ c ≠ '"' ∧ c ≠ '\'') := by
  unfold escapeChar quoteChar
  split_ifs with h₀ h₁ h₂ h₃ h₄
  · subst h₀; exact Or.inl ⟨by decide, fun s => by simp [decode]⟩
  · subst h₁; exact Or.inl ⟨by decide, fun s => by simp [decode]⟩
  · subst h₂; exact Or.inl ⟨by decide, fun s => by simp [decode]⟩
  · subst h₃; exact Or.inl ⟨by decide, fun s => by simp [decode]⟩
  · subst h₄; exact Or.inl ⟨by decide, fun s => by simp [decode]⟩
  · exact Or.inr ⟨rfl, h₀, h₃, h₄, h₁, h₂⟩

/-- Escaped text is decoded to what it was. -/
lemma decode_flatMap_escapeChar (s : gstr) : decode (s.flatMap escapeChar) = s := by
  induction s with
  | nil => rfl
  | cons c s ih =>
      rw [List.flatMap_cons]
      rcases escapeChar_cases c with ⟨-, hd⟩ | ⟨hc, hamp, -⟩
      · rw [hd, ih]
      · rw [hc, List.singleton_append, decode_cons_of_ne hamp, ih]

/-- No entity holds a raw character, or an `&` behind its first letter. -/
lemma entities_clean {ent : gstr} (h : ent ∈ entities) :
    ('<' ∉ ent ∧ '>' ∉ ent ∧ '"' ∉ ent ∧ '\'' ∉ ent) ∧
      ∃ w, ent = '&' :: w ∧ '&' ∉ w := by
  simp only [entities, List.mem_cons, List.not_mem_nil, or_false] at h
  rcases h with rfl | rfl | rfl | rfl | rfl
  all_goals exact ⟨by decide, _, rfl, by decide⟩

/-- An entity may stand before a text that keeps the rule. -/
lemma AmpsStartEntities.entity_append {ent r : gstr} (hent : ent ∈ entities)
    (h : AmpsStartEntities r) : AmpsStartEntities (ent ++ r) := by
  obtain ⟨-, w, rfl, hw⟩ := entities_clean hent
  intro u v huv
  rcases u with _ | ⟨c, u⟩
  · refine ⟨_, hent, r, ?_⟩
    simpa using huv
  · rw [List.cons_append, List.cons_append, List.cons.injEq] at huv
    -- the `&` lies behind the entity, since the entity has only its first
    rcases List.append_eq_append_iff.mp huv.2 with ⟨x, -, hx⟩ | ⟨x, rfl, hx⟩
    · exact h x v hx
    · rcases x with _ | ⟨d, x⟩
      · exact h [] v (by simpa using hx.symm)
      · rw [List.cons_append, List.cons.injEq] at hx
        simp [← hx.1] at hw

/-- Escaped text is safe. -/
lemma wellEscaped_flatMap_escapeChar (s : gstr) : WellEscaped (s.flatMap escapeChar) := by
  induction s with
  | nil => exact ⟨by simp, fun u v h => by simp at h⟩
  | cons c s ih =>
      rw [List.flatMap_cons]
      rcases escapeChar_cases c with ⟨hent, -⟩ | ⟨hc, hamp, h₁, h₂, h₃, h₄⟩
      · refine ⟨?_, ih.amps.entity_append hent⟩
        have hclean := (entities_clean hent).1
        have hraw := ih.no_raw
        simp only [List.mem_append]
        tauto
      · rw [hc, List.singleton_append]
        refine ⟨?_, fun u v huv => ?_⟩
        · have hraw := ih.no_raw
          simp only [List.mem_cons, not_or]
          exact ⟨⟨h₁.symm, hraw.1⟩, ⟨h₂.symm, hraw.2.1⟩, ⟨h₃.symm, hraw.2.2.1⟩,
            ⟨h₄.symm, hraw.2.2.2⟩⟩
        · rcases u with _ | ⟨d, u⟩
          · exact absurd (List.cons.inj huv).1 hamp
          · exact ih.amps u v (List.cons.inj huv).2

/-- What an escape returns stays when it is given more fuel. -/
lemma escapeIfFound_mono {key tmp r : gstr} {e e' : gstr → Option gstr}
    (he : ∀ t r, e t = some r → e' t = some r) (h : escapeIfFound key e tmp = some r) :
    escapeIfFound key e' tmp = some r := by
  unfold escapeIfFound at h ⊢
  split_ifs at h ⊢ with hk
  · exact he _ _ h
  · exact h

/-- More fuel never changes a result of `xspf_sanitize`. -/
lemma xspf_sanitize_mono {s r : gstr} {fuel fuel' : ℕ} (hff : fuel ≤ fuel')
    (h : xspf_sanitize fuel s = some r) : xspf_sanitize fuel' s = some r := by
  have hpass := fun key val t r (h : replace_all fuel t key val = some r) =>
    replace_all_mono hff h
  simp only [xspf_sanitize, Option.bind_eq_bind, Option.bind_eq_some_iff] at h ⊢
  obtain ⟨t₁, h₁, t₂, h₂, t₃, h₃, t₄, h₄, h₅⟩ := h
  exact ⟨t₁, hpass _ _ _ _ h₁, t₂, escapeIfFound_mono (hpass _ _) h₂,
    t₃, escapeIfFound_mono (hpass _ _) h₃, t₄, escapeIfFound_mono (hpass _ _) h₄,
    escapeIfFound_mono (hpass _ _) h₅⟩

/-- `xspf_sanitize` has one result only, so being correct is a property of `sanitized s`. -/
lemma sanitizesCorrectly_iff (s : gstr) :
    SanitizesCorrectly s ↔ WellEscaped (sanitized s) ∧ decode (sanitized s) = s := by
  let n := 144 * (s.length + 5) + 1
  have hn : xspf_sanitize n s = some (sanitized s) := xspf_sanitize_eq (Nat.lt_succ_self _)
  refine ⟨fun ⟨fuel, r, hr, hwell, hdec⟩ => ?_, fun h => ⟨n, _, hn, h⟩⟩
  have hr₁ := xspf_sanitize_mono (Nat.le_max_left fuel n) hr
  have hr₂ := xspf_sanitize_mono (Nat.le_max_right fuel n) hn
  obtain rfl : r = sanitized s := Option.some.inj (hr₁.symm.trans hr₂)
  exact ⟨hwell, hdec⟩

/-- When `xspf_sanitize` escapes correctly: exactly for the strings that have at most one
`&` and do not contain the text of the internal marker. -/
theorem xspf_sanitize_correct_iff (s : gstr) :
    SanitizesCorrectly s ↔ s.count '&' ≤ 1 ∧ ¬ "!amp;".toList <:+: s := by
  rw [sanitizesCorrectly_iff]
  constructor
  · rintro ⟨hwell, hdec⟩
    have hbang : ¬ "!amp;".toList <:+: s := by
      intro h
      have hlt := count_bang_markedAmps_lt h
      have hcount : (decode (sanitized s)).count '!' = s.count '!' := by rw [hdec]
      rw [count_bang_decode, sanitized, count_bang_quoted] at hcount
      omega
    refine ⟨?_, hbang⟩
    have hdecode := count_semicolon_decode _ hwell.amps
    rw [hdec] at hdecode
    have hquoted := count_semicolon_quoted (markedAmps s)
    unfold sanitized at hdecode
    rcases markedAmps_cases s with ⟨hn, -⟩ | ⟨u, v, rfl, hm⟩
    · rw [List.count_eq_zero_of_not_mem hn]
      omega
    · have hbu : ¬ "!amp;".toList <:+: u := fun h =>
        hbang (h.trans (List.prefix_append u _).isInfix)
      have hbv : ¬ "!amp;".toList <:+: v := fun h =>
        hbang (h.trans ((List.suffix_cons _ v).trans (List.suffix_append u _)).isInfix)
      rw [substAll_marker_of_absent hbu, substAll_marker_of_absent hbv] at hm
      have hamps : (markedAmps (u ++ '&' :: v)).count '&' = (u ++ '&' :: v).count '&' := by
        rw [hm]; simp
      have hsemi : (markedAmps (u ++ '&' :: v)).count ';' = (u ++ '&' :: v).count ';' + 1 := by
        rw [hm]; simp; omega
      omega
  · rintro ⟨hamp, hbang⟩
    rw [sanitized_eq_flatMap hamp hbang]
    exact ⟨wellEscaped_flatMap_escapeChar s, decode_flatMap_escapeChar s⟩

/-- The second ampersand of `a & b & c` stays raw. -/
theorem xspf_sanitize_second_amp_raw : ¬ SanitizesCorrectly "a & b & c".toList := by
  rintro ⟨fuel, r, hr, hwell, -⟩
  have hrun : xspf_sanitize 20 "a & b & c".toList = some "a &amp; b & c".toList := by decide
  have h₁ := xspf_sanitize_mono (Nat.le_max_left fuel 20) hr
  have h₂ := xspf_sanitize_mono (Nat.le_max_right fuel 20) hrun
  obtain rfl : r = "a &amp; b & c".toList := Option.some.inj (h₁.symm.trans h₂)
  have hamp := hwell.amps "a &amp; b ".toList " c".toList (by decide)
  revert hamp
  decide

end Spotifile
