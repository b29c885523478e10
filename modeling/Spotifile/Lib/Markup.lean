import Mathlib.Data.List.Basic
import Mathlib.Data.List.Infix

/-!
# Documents of tags and texts

A document is a sequence of tags, each with the text up to the next one. `lex` finds them in a list
of characters, and `lex_print` says that it finds the ones that were printed. `closes` goes through
the tags with the stack of the elements that are open. `isRoot_iff_closes` says that a document
passes exactly if it is one element (`IsRoot`), which is stated without a stack.

Comments, processing instructions, CDATA sections and empty-element tags are not among the tags, and
attributes are not taken apart.
-/

namespace Spotifile.Lib

/-! ## Lexing -/

/-- A tag without its brackets, and the text up to the next one. -/
structure Markup where
  tag : List Char
  text : List Char
deriving DecidableEq, Repr

def Markup.content (m : Markup) : List Char := m.tag ++ '>' :: m.text

def Markup.print (m : Markup) : List Char := '<' :: m.content

/-- What stands between two openings of tags. -/
def cut (piece : List Char) : Option Markup :=
  match piece.dropWhile (· ≠ '>') with
  | [] => none
  | _ :: text => some ⟨piece.takeWhile (· ≠ '>'), text⟩

/-- The tags and texts of a document, which begins with a tag. -/
def lex (s : List Char) : Option (List Markup) :=
  match s.splitOn '<' with
  | [] :: pieces => pieces.mapM cut
  | _ => none

/-- What can be printed and found again. -/
structure Markup.Plain (m : Markup) : Prop where
  tag_lt : '<' ∉ m.tag
  tag_gt : '>' ∉ m.tag
  text_lt : '<' ∉ m.text

/-- What stands between the brackets and behind them has no bracket. -/
lemma Markup.Plain.content_lt {m : Markup} (h : m.Plain) : '<' ∉ m.content := by
  rw [Markup.content, List.mem_append, List.mem_cons]
  rintro (hmem | hmem | hmem)
  · exact h.tag_lt hmem
  · exact absurd hmem (by decide)
  · exact h.text_lt hmem

/-- A piece is cut into what it was printed from. -/
lemma cut_content {m : Markup} (h : m.Plain) : cut m.content = some m := by
  have hne : ∀ c ∈ m.tag, decide (c ≠ '>') = true := by
    intro c hc
    rw [decide_eq_true_eq]
    rintro rfl
    exact h.tag_gt hc
  have hdrop : m.content.dropWhile (· ≠ '>') = '>' :: m.text := by
    rw [Markup.content, List.dropWhile_append_of_pos hne]
    rfl
  have htake : m.content.takeWhile (· ≠ '>') = m.tag := by
    rw [Markup.content, List.takeWhile_append_of_pos hne]
    simp
  rw [cut, hdrop, htake]

/-- At the brackets a text comes apart into its pieces. -/
lemma splitOn_print {m : Markup} {ms : List Markup} (h : ∀ m' ∈ m :: ms, m'.Plain) :
    (m.content ++ ms.flatMap Markup.print).splitOn '<' = m.content :: ms.map Markup.content := by
  induction ms generalizing m with
  | nil =>
    rw [List.flatMap_nil, List.append_nil, List.map_nil]
    exact List.splitOn_eq_singleton (h m List.mem_cons_self).content_lt
  | cons m' ms ih =>
    rw [List.flatMap_cons, Markup.print, List.cons_append,
      List.splitOn_append_cons_self_of_not_mem (h m List.mem_cons_self).content_lt,
      ih fun x hx => h x (List.mem_cons_of_mem m hx), List.map_cons]

/-- What is read back element by element is read back. -/
lemma mapM_map_some {α β : Type} {f : α → Option β} {g : β → α} {l : List β}
    (h : ∀ b ∈ l, f (g b) = some b) : (l.map g).mapM f = some l := by
  induction l with
  | nil => rfl
  | cons b l ih =>
    rw [List.map_cons, List.mapM_cons, h b List.mem_cons_self,
      ih fun b' hb' => h b' (List.mem_cons_of_mem b hb')]
    rfl

/-- A list is read back exactly if each of its elements is. -/
lemma mapM_map_eq_some_iff {α β : Type} {f : α → Option β} {g : β → α} {l : List β} :
    (l.map g).mapM f = some l ↔ ∀ b ∈ l, f (g b) = some b := by
  refine ⟨fun h => ?_, mapM_map_some⟩
  induction l with
  | nil => exact fun _ hb => absurd hb List.not_mem_nil
  | cons b l ih =>
    rw [List.map_cons, List.mapM_cons] at h
    obtain ⟨b', hb', hrest⟩ := Option.bind_eq_some_iff.mp h
    obtain ⟨l', hl', heq⟩ := Option.bind_eq_some_iff.mp hrest
    obtain ⟨rfl, rfl⟩ := List.cons.inj (Option.some.inj heq)
    intro c hc
    rcases List.mem_cons.mp hc with rfl | hc
    · exact hb'
    · exact ih hl' c hc

/-- The tags and texts that were printed are found again. -/
theorem lex_print {ms : List Markup} (hne : ms ≠ []) (h : ∀ m ∈ ms, m.Plain) :
    lex (ms.flatMap Markup.print) = some ms := by
  obtain ⟨m, ms, rfl⟩ := List.exists_cons_of_ne_nil hne
  have hsplit : ((m :: ms).flatMap Markup.print).splitOn '<' =
      [] :: (m :: ms).map Markup.content := by
    rw [List.flatMap_cons, Markup.print, List.cons_append, ← List.nil_append ('<' :: _),
      List.splitOn_append_cons_self_of_not_mem List.not_mem_nil, splitOn_print h, List.map_cons]
  rw [lex, hsplit]
  exact mapM_map_some fun m' hm' => cut_content (h m' hm')

/-! ## Tags -/

/-- A tag that opens or closes an element. -/
inductive Tag
  | start (name attributes : List Char)
  | stop (name : List Char)
deriving DecidableEq, Repr

def Tag.print : Tag → List Char
  | .start name attributes => name ++ attributes
  | .stop name => '/' :: name

/-- Whether an element can have this name. -/
def IsName (name : List Char) : Prop := name ≠ [] ∧ ∀ c ∈ name, c.isAlphanum = true

instance (name : List Char) : Decidable (IsName name) :=
  have : Decidable (∀ c ∈ name, c.isAlphanum = true) := List.decidableBAll _ name
  inferInstanceAs (Decidable (_ ∧ _))

/-- The tag between two brackets: a blank separates attributes from the name. -/
def Tag.read (s : List Char) : Option Tag :=
  if s.head? = some '/' then
    if IsName s.tail then some (.stop s.tail) else none
  else
    let name := s.takeWhile Char.isAlphanum
    let attributes := s.dropWhile Char.isAlphanum
    if IsName name ∧ (attributes = [] ∨ attributes.head? = some ' ') then
      some (.start name attributes)
    else none

/-- A tag that can be printed and read again. -/
def Tag.Plain : Tag → Prop
  | .start name attributes => IsName name ∧ (attributes = [] ∨ attributes.head? = some ' ')
  | .stop name => IsName name

/-- The name of a tag ends where its attributes begin. -/
lemma takeWhile_name {name attributes : List Char} (hname : IsName name)
    (hattributes : attributes = [] ∨ attributes.head? = some ' ') :
    (name ++ attributes).takeWhile Char.isAlphanum = name ∧
      (name ++ attributes).dropWhile Char.isAlphanum = attributes := by
  rw [List.takeWhile_append_of_pos hname.2, List.dropWhile_append_of_pos hname.2]
  rcases attributes with _ | ⟨c, attributes⟩
  · simp
  · have hc : c = ' ' := by simpa using hattributes
    have hblank : ¬ Char.isAlphanum c = true := by
      rw [hc]
      decide
    rw [List.takeWhile_cons_of_neg hblank, List.dropWhile_cons_of_neg hblank, List.append_nil]
    exact ⟨rfl, rfl⟩

/-- A tag is read back from what it is printed as. -/
lemma read_print {t : Tag} (h : t.Plain) : Tag.read t.print = some t := by
  cases t with
  | start name attributes =>
    obtain ⟨hname, hattributes⟩ := h
    obtain ⟨htake, hdrop⟩ := takeWhile_name hname hattributes
    have hhead : (name ++ attributes).head? ≠ some '/' := by
      obtain ⟨c, cs, rfl⟩ := List.exists_cons_of_ne_nil hname.1
      intro heq
      have hc : c = '/' := by simpa using heq
      have halpha := hname.2 c List.mem_cons_self
      rw [hc] at halpha
      exact absurd halpha (by decide)
    rw [Tag.print, Tag.read, if_neg hhead]
    dsimp only
    rw [htake, hdrop, if_pos ⟨hname, hattributes⟩]
  | stop name =>
    have hname : IsName name := h
    rw [Tag.print, Tag.read, if_pos (List.head?_cons), List.tail_cons, if_pos hname]

/-! ## Nesting -/

/-- The tags of elements that stand in an element of this name, one after the other; `child` says
which ones may. -/
inductive Forest (child : List Char → List Char → Bool) : List Char → List Tag → Prop
  | nil {parent : List Char} : Forest child parent []
  | element {parent name attributes : List Char} {inner rest : List Tag}
      (hchild : child parent name = true) (hinner : Forest child name inner)
      (hrest : Forest child parent rest) :
      Forest child parent (.start name attributes :: inner ++ .stop name :: rest)

/-- The tags of one element of this name. -/
def IsRoot (child : List Char → List Char → Bool) (name attributes : List Char) (ts : List Tag) :
    Prop :=
  ∃ inner, ts = .start name attributes :: inner ++ [.stop name] ∧ Forest child name inner

/-- Whether the tags close the elements of a stack, and nothing follows. -/
def closes (child : List Char → List Char → Bool) : List (List Char) → List Tag → Bool
  | [], ts => ts.isEmpty
  | _ :: _, [] => false
  | name :: names, .start name' _ :: ts =>
    child name name' && closes child (name' :: name :: names) ts
  | name :: names, .stop name' :: ts => name = name' && closes child names ts

variable {child : List Char → List Char → Bool}

/-- Elements between the tags leave the stack as it is. -/
lemma Forest.closes_append {parent : List Char} {inner : List Tag} (h : Forest child parent inner)
    (names : List (List Char)) (ts : List Tag) :
    closes child (parent :: names) (inner ++ ts) = closes child (parent :: names) ts := by
  induction h generalizing names ts with
  | nil => rfl
  | @element parent name attributes inner rest hchild _ _ ihinner ihrest =>
    rw [List.append_assoc, List.cons_append, List.cons_append, closes, hchild, Bool.true_and,
      ihinner, closes, ihrest]
    simp

/-- What closes a stack closes its top with an element's content first. -/
lemma exists_forest_of_closes {name : List Char} {names : List (List Char)} {ts : List Tag}
    (h : closes child (name :: names) ts = true) : ∃ inner rest,
      ts = inner ++ .stop name :: rest ∧ Forest child name inner ∧
        closes child names rest = true := by
  induction hn : ts.length using Nat.strong_induction_on generalizing name names ts with
  | _ n ih =>
    subst hn
    rcases ts with _ | ⟨⟨name', attributes⟩ | name', ts⟩
    · cases h
    · rw [closes, Bool.and_eq_true] at h
      -- the element that begins here, and then the rest of the content
      obtain ⟨inner, rest, rfl, hinner, hrest⟩ := ih ts.length (by simp) h.2 rfl
      obtain ⟨inner', rest', rfl, hinner', hrest'⟩ := ih rest.length (by simp; omega) hrest rfl
      refine ⟨.start name' attributes :: inner ++ .stop name' :: inner', rest', ?_,
        .element h.1 hinner hinner', hrest'⟩
      simp
    · rw [closes, Bool.and_eq_true, decide_eq_true_eq] at h
      obtain ⟨rfl, h⟩ := h
      exact ⟨[], ts, rfl, .nil, h⟩

/-- The tags of one element are those that the stack says to be. -/
theorem isRoot_iff_closes {name attributes : List Char} {ts : List Tag} :
    IsRoot child name attributes (.start name attributes :: ts) ↔
      closes child [name] ts = true := by
  constructor
  · rintro ⟨inner, hts, hinner⟩
    rw [List.cons_append, List.cons.injEq] at hts
    rw [hts.2, hinner.closes_append]
    simp [closes]
  · intro h
    obtain ⟨inner, rest, rfl, hinner, hrest⟩ := exists_forest_of_closes h
    rw [closes, List.isEmpty_iff] at hrest
    subst hrest
    exact ⟨inner, rfl, hinner⟩

instance decidableIsRoot (name attributes : List Char) :
    (ts : List Tag) → Decidable (IsRoot child name attributes ts)
  | [] => .isFalse fun ⟨_, hts, _⟩ => by cases hts
  | .stop _ :: _ => .isFalse fun ⟨_, hts, _⟩ => by cases hts
  | .start name' attributes' :: ts =>
    decidable_of_iff
      ((name' = name ∧ attributes' = attributes) ∧ closes child [name] ts = true) <| by
      constructor
      · rintro ⟨⟨rfl, rfl⟩, h⟩
        exact isRoot_iff_closes.mpr h
      · intro h
        obtain ⟨inner, hts, -⟩ := id h
        obtain ⟨⟨rfl, rfl⟩, -⟩ : (name' = name ∧ attributes' = attributes) ∧ _ := by
          simpa using hts
        exact ⟨⟨rfl, rfl⟩, isRoot_iff_closes.mp h⟩

end Spotifile.Lib
