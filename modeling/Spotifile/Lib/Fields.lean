import Mathlib.Data.List.Infix

/-!
# Prefixes of texts with fields

A text is divided into fields by a separator. `map_prefix_iff` says what it means for the fields of
a text that it begins with another one, where the letters are compared up to a function `fold`
that leaves the separator apart: the fields of the one are those of the other, but for the last
one, which may go on.
-/

namespace Spotifile.Lib

variable {α β : Type*}

/-- The fields begin with these ones, the last of which may be cut off. -/
def FieldsBegin (fold : α → β) : List (List α) → List (List α) → Prop
  | [last], g :: _ => last.map fold <+: g.map fold
  | f :: f' :: fs, g :: gs => f.map fold = g.map fold ∧ FieldsBegin fold (f' :: fs) gs
  | _, _ => False

instance decidableFieldsBegin [DecidableEq β] (fold : α → β) :
    (fs gs : List (List α)) → Decidable (FieldsBegin fold fs gs)
  | [last], g :: _ => inferInstanceAs (Decidable (last.map fold <+: g.map fold))
  | f :: f' :: fs, g :: gs =>
    haveI := decidableFieldsBegin fold (f' :: fs) gs
    inferInstanceAs (Decidable (f.map fold = g.map fold ∧ FieldsBegin fold (f' :: fs) gs))
  | [], _ => .isFalse fun h => (by cases h)
  | [_], [] => .isFalse fun h => (by cases h)
  | _ :: _ :: _, [] => .isFalse fun h => (by cases h)

variable {fold : α → β}

/-- A letter in front of both. -/
lemma fieldsBegin_modifyHead {a b : α} {f g : List α} {fs gs : List (List α)} :
    FieldsBegin fold ((a :: f) :: fs) ((b :: g) :: gs) ↔
      fold a = fold b ∧ FieldsBegin fold (f :: fs) (g :: gs) := by
  rcases fs with _ | ⟨f', fs⟩
  · simp [FieldsBegin, List.cons_prefix_cons]
  · simp [FieldsBegin, and_assoc]

/-- A letter in front of the first one only. -/
lemma not_fieldsBegin_cons_nil {a : α} {f : List α} {fs gs : List (List α)} :
    ¬ FieldsBegin fold ((a :: f) :: fs) ([] :: gs) := by
  rcases fs with _ | ⟨f', fs⟩ <;> simp [FieldsBegin]

variable [BEq α] [LawfulBEq α] {sep : α}

/-- No field contains the separator. -/
lemma notMem_of_mem_splitOn {s f : List α} (hf : f ∈ s.splitOn sep) : sep ∉ f := by
  induction s generalizing f with
  | nil =>
    rw [List.splitOn_nil, List.mem_singleton] at hf
    simp [hf]
  | cons a s ih =>
    rw [List.splitOn_cons_eq_if_modifyHead] at hf
    split at hf
    · rcases List.mem_cons.mp hf with rfl | hf
      · simp
      · exact ih hf
    · next ha =>
      obtain ⟨g, gs, hs⟩ := List.exists_cons_of_ne_nil (List.splitOn_ne_nil sep s)
      rw [hs, List.modifyHead_cons] at hf
      rcases List.mem_cons.mp hf with rfl | hf
      · have hg : sep ∉ g := ih (hs ▸ List.mem_cons_self)
        rw [List.mem_cons, not_or]
        exact ⟨fun heq => ha (by simp [heq]), hg⟩
      · exact ih (hs ▸ List.mem_cons_of_mem g hf)

/-- A text begins with another one, up to `fold`, exactly if its fields do. -/
theorem map_prefix_iff (hsep : ∀ a, fold a = fold sep ↔ a = sep) (t s : List α) :
    t.map fold <+: s.map fold ↔ FieldsBegin fold (t.splitOn sep) (s.splitOn sep) := by
  induction t generalizing s with
  | nil =>
    obtain ⟨g, gs, hs⟩ := List.exists_cons_of_ne_nil (List.splitOn_ne_nil sep s)
    rw [List.splitOn_nil, hs]
    simp [FieldsBegin]
  | cons a t ih =>
    obtain ⟨f, fs, ht⟩ := List.exists_cons_of_ne_nil (List.splitOn_ne_nil sep t)
    rw [List.splitOn_cons_eq_if_modifyHead, ht, List.modifyHead_cons]
    rcases s with _ | ⟨b, s⟩
    · rw [List.splitOn_nil]
      by_cases ha : (a == sep) = true
      · rw [if_pos ha]
        simp [FieldsBegin]
      · rw [if_neg ha]
        exact iff_of_false (by simp) not_fieldsBegin_cons_nil
    · obtain ⟨g, gs, hs⟩ := List.exists_cons_of_ne_nil (List.splitOn_ne_nil sep s)
      rw [List.splitOn_cons_eq_if_modifyHead b s, hs, List.modifyHead_cons, List.map_cons,
        List.map_cons, List.cons_prefix_cons, ih s, ht, hs]
      by_cases ha : (a == sep) = true
      · obtain rfl := eq_of_beq ha
        rw [if_pos ha]
        by_cases hb : (b == a) = true
        · obtain rfl := eq_of_beq hb
          rw [if_pos hb]
          simp [FieldsBegin]
        · rw [if_neg hb]
          refine iff_of_false ?_ (by simp [FieldsBegin])
          rintro ⟨hab, -⟩
          exact hb (by simpa using (hsep b).mp hab.symm)
      · rw [if_neg ha]
        by_cases hb : (b == sep) = true
        · obtain rfl := eq_of_beq hb
          rw [if_pos hb]
          refine iff_of_false ?_ not_fieldsBegin_cons_nil
          rintro ⟨hab, -⟩
          exact ha (by simpa using (hsep a).mp hab)
        · rw [if_neg hb, fieldsBegin_modifyHead]

end Spotifile.Lib
