import Mathlib.Data.List.Infix

/-!
# Reading a list in pieces

A read takes as many elements from an offset on as it asks for, or as many as are left (`slice`).
Reads one after the other, each from where the one before it ended, give `Pieces` of the list. Put
together they are its beginning (`Pieces.isPrefix`); a piece is empty exactly if the ones before it
are the whole list (`Pieces.eq_nil_iff`); and as many reads as the list has elements get all of it
(`Pieces.gathered_eq_of_length_le`).
-/

namespace Spotifile.Lib

variable {α : Type*}

/-- At most `n` elements, from the offset on. -/
def slice (l : List α) (offset n : ℕ) : List α := (l.drop offset).take n

/-- What the reads have given, put together. A read is given by the number of elements that it asks
for, and the piece that it gets. -/
def gathered (done : List (ℕ × List α)) : List α := (done.map Prod.snd).flatten

/-- Reads one after the other, from the start of the list, each of which asks for something. -/
inductive Pieces (l : List α) : List (ℕ × List α) → Prop
  | nil : Pieces l []
  | concat {done : List (ℕ × List α)} (n : ℕ) : Pieces l done → 0 < n →
      Pieces l (done ++ [(n, slice l (gathered done).length n)])

variable {l : List α} {done before after : List (ℕ × List α)} {n offset : ℕ} {piece : List α}

/-! ## Slices -/

/-- A slice has as many elements as were asked for, or as there are. -/
lemma length_slice (l : List α) (offset n : ℕ) :
    (slice l offset n).length = min n (l.length - offset) := by
  rw [slice, List.length_take, List.length_drop]

/-- And no more than were asked for. -/
lemma length_slice_le (l : List α) (offset n : ℕ) : (slice l offset n).length ≤ n :=
  List.length_take_le n _

/-- A slice is empty only behind the end. -/
lemma slice_eq_nil_iff (hn : 0 < n) : slice l offset n = [] ↔ l.length ≤ offset := by
  rw [← List.length_eq_zero_iff, length_slice]
  omega

/-- A slice that begins where a beginning of the list ends. -/
lemma take_append_slice (l : List α) (offset n : ℕ) :
    l.take offset ++ slice l offset n = l.take (offset + n) :=
  List.take_add.symm

/-- What comes behind a slice does not matter for it. -/
lemma slice_append_of_le (rest : List α) (h : offset + n ≤ l.length) :
    slice (l ++ rest) offset n = slice l offset n := by
  have hn : n ≤ (l.drop offset).length := by
    rw [List.length_drop]
    omega
  rw [slice, List.drop_append_of_le_length (by omega), List.take_append_of_le_length hn, slice]

/-- No more is left than there is. -/
lemma slice_length_sub (h : l.length ≤ offset + n) :
    slice l offset (l.length - offset) = slice l offset n := by
  have hdrop : (l.drop offset).length = l.length - offset := List.length_drop
  rw [slice, List.take_of_length_le hdrop.le, slice, List.take_of_length_le (by omega)]

/-! ## What the reads have given -/

/-- What two lists of reads have gathered. -/
lemma gathered_append (before after : List (ℕ × List α)) :
    gathered (before ++ after) = gathered before ++ gathered after := by
  rw [gathered, List.map_append, List.flatten_append]
  rfl

/-- What one read has gathered. -/
lemma gathered_singleton (read : ℕ × List α) : gathered [read] = read.2 :=
  List.append_nil read.2

namespace Pieces

/-- The pieces are the beginning of the list. -/
lemma isPrefix (h : Pieces l done) : gathered done <+: l := by
  induction h with
  | nil => exact List.nil_prefix
  | concat n _ _ ih =>
    rw [gathered_append, gathered_singleton, List.prefix_iff_eq_take.mp ih,
      List.length_take_of_le ih.length_le, take_append_slice]
    exact List.take_prefix _ l

/-- What the last of the reads has got. -/
lemma of_concat (h : Pieces l (done ++ [(n, piece)])) :
    Pieces l done ∧ 0 < n ∧ piece = slice l (gathered done).length n := by
  generalize hreads : done ++ [(n, piece)] = reads at h
  cases h with
  | nil => exact absurd hreads (List.append_ne_nil_of_right_ne_nil done (List.cons_ne_nil _ _))
  | concat n h hn =>
    obtain ⟨rfl, hlast⟩ := List.append_inj' hreads rfl
    obtain ⟨⟨rfl, rfl⟩, -⟩ := List.cons_eq_cons.mp hlast
    exact ⟨h, hn, rfl⟩

/-- Every run of reads began with fewer reads. -/
lemma of_append (h : Pieces l (before ++ after)) : Pieces l before := by
  induction after using List.reverseRecOn with
  | nil => rwa [List.append_nil] at h
  | append_singleton after last ih =>
    rw [← List.append_assoc] at h
    exact ih h.of_concat.1

/-- What any of the reads has got. -/
lemma of_append_cons (h : Pieces l (before ++ (n, piece) :: after)) :
    Pieces l before ∧ 0 < n ∧ piece = slice l (gathered before).length n := by
  rw [List.append_cons] at h
  exact h.of_append.of_concat

/-- A read gets nothing exactly if the reads before it have got everything. -/
lemma eq_nil_iff (h : Pieces l (before ++ (n, piece) :: after)) :
    piece = [] ↔ gathered before = l := by
  obtain ⟨hbefore, hn, rfl⟩ := h.of_append_cons
  rw [slice_eq_nil_iff hn]
  constructor
  · intro hle
    exact hbefore.isPrefix.eq_of_length_le hle
  · intro hall
    rw [hall]

/-- No read returns more than it asked for. -/
lemma length_le (h : Pieces l done) {read : ℕ × List α} (hread : read ∈ done) :
    read.2.length ≤ read.1 := by
  obtain ⟨before, after, rfl⟩ := List.append_of_mem hread
  obtain ⟨-, -, hpiece⟩ := h.of_append_cons
  rw [hpiece]
  exact length_slice_le l _ _

/-- A read that gets nothing comes after everything. -/
lemma gathered_eq_of_mem (h : Pieces l done) (hread : (n, []) ∈ done) : gathered done = l := by
  obtain ⟨before, after, rfl⟩ := List.append_of_mem hread
  have hfront : l <+: gathered (before ++ (n, []) :: after) := by
    rw [gathered_append]
    nth_rewrite 1 [← h.eq_nil_iff.mp rfl]
    exact List.prefix_append _ _
  exact h.isPrefix.eq_of_length_le hfront.length_le

/-- Every read gets something as long as something is left. -/
lemma length_le_length_gathered (h : Pieces l done) :
    gathered done = l ∨ done.length ≤ (gathered done).length := by
  induction h with
  | nil => exact Or.inr le_rfl
  | @concat done n h hn ih =>
    have hread := h.concat n hn
    by_cases hpiece : slice l (gathered done).length n = []
    · rw [hpiece] at hread ⊢
      exact Or.inl (hread.gathered_eq_of_mem (List.mem_concat_self))
    · right
      have hdone : gathered done ≠ l := fun hall => hpiece (hread.eq_nil_iff.mpr hall)
      have hpos := List.length_pos_iff.mpr hpiece
      have hle := ih.resolve_left hdone
      rw [gathered_append, gathered_singleton, List.length_append, List.length_append]
      exact Nat.add_le_add hle hpos

/-- As many reads as there are elements get all of them. -/
lemma gathered_eq_of_length_le (h : Pieces l done) (hlength : l.length ≤ done.length) :
    gathered done = l := by
  obtain hall | hle := h.length_le_length_gathered
  · exact hall
  · exact h.isPrefix.eq_of_length_le (hlength.trans hle)

end Pieces

end Spotifile.Lib
