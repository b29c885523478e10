import Spotifile.Lib.Replace
import Mathlib.Data.List.DropRight

/-!
# Strings: `string_utils.c` and the repeated replacements built on it

A C string is the list of its characters before the terminating NUL. A `gchar` is one byte; it
is written here as the `Char` with that code, so that lengths are lengths in bytes.

`str_replace` replaces the first occurrence of a key. Two callers repeat it on its own output
until the key is gone: `replace_all` (`xspf_sanitize.c`) and `spfs_replace_slashes`
(`spfs_fuse_utils.c`). Both are `while` loops of the source, so they take a bound on the
iterations (`Lib.whileLoop`); `replace_all_eq` and `spfs_replace_slashes_eq` say which bound is
enough and that the result is the replacement of all occurrences in one pass.
-/

namespace Spotifile

open Lib

/-- One byte of a C string.
Source: glib's `gchar`. -/
abbrev gchar := Char

/-- A C string, without its terminating NUL. -/
abbrev gstr := List gchar

/-- The offset of the first occurrence of `key` in `s`, `none` for the NULL of the C function.
Source: libc's `strstr`. -/
def strstr (s key : gstr) : Option ℕ := findSub key s

/-- A copy of `s` with the first occurrence of `c` replaced.
Source: `string_utils.c`, `str_replace`. -/
def str_replace (s c replacement : gstr) : gstr :=
  match strstr s c with
  | none => s
  | some off => s.take off ++ replacement ++ s.drop (off + c.length)

/-- One call replaces the first occurrence. -/
lemma str_replace_eq (s c replacement : gstr) :
    str_replace s c replacement = replaceFirst c replacement s := rfl

/-- `str_replace` once, and then again for as long as the key is found.
Source: `xspf_sanitize.c`, `replace_all`. -/
def replace_all (fuel : ℕ) (str key val : gstr) : Option gstr :=
  whileLoop (fun tmpstr => (strstr tmpstr key).isSome) (fun tmpstr => str_replace tmpstr key val)
    fuel (str_replace str key val)

/-- More fuel never changes a result of `replace_all`. -/
lemma replace_all_mono {str key val r : gstr} {fuel fuel' : ℕ} (hff : fuel ≤ fuel')
    (h : replace_all fuel str key val = some r) : replace_all fuel' str key val = some r :=
  whileLoop_mono hff h

/-- For a separating replacement `replace_all` ends, with all occurrences replaced at once. -/
theorem replace_all_eq {k : gchar} {ks val : gstr} (h : Separates k ks val) {fuel : ℕ}
    {s : gstr} (hfuel : s.length < fuel) :
    replace_all fuel s (k :: ks) val = some (substAll k ks val s) := by
  have hloop := h.whileLoop_replaceFirst (replaceFirst (k :: ks) val s)
  rw [h.substAll_replaceFirst] at hloop
  refine whileLoop_mono ?_ hloop
  have hcount : (replaceFirst (k :: ks) val s).count k ≤ s.count k := by
    by_cases hs : k :: ks <:+: s
    · exact (count_replaceFirst_lt h.head_notMem_val hs).le
    · rcases replaceFirst_cases (k :: ks) val s with ⟨-, hr⟩ | ⟨u, v, hsp, -⟩
      · rw [hr]
      · exact absurd ⟨u, v, hsp.symm⟩ hs
  have := List.count_le_length (a := k) (l := s)
  omega

/-- A key of one letter: the result is a `flatMap`. -/
theorem replace_all_singleton {k : gchar} {val : gstr} (h : k ∉ val) {fuel : ℕ} {s : gstr}
    (hfuel : s.length < fuel) :
    replace_all fuel s [k] val = some (s.flatMap fun a => if a = k then val else [a]) := by
  rw [replace_all_eq (Separates.singleton h) hfuel, substAll_singleton]

/-! ## Names of entities -/

/-- `str_replace` once, and then again for as long as there is a slash.
Source: `spfs_fuse_utils.c`, `spfs_replace_slashes`. -/
def spfs_replace_slashes (fuel : ℕ) (s replacement : gstr) : Option gstr :=
  whileLoop (fun new => (strstr new ['/']).isSome) (fun new => str_replace new ['/'] replacement)
    fuel (str_replace s ['/'] replacement)

/-- The slashes are replaced all at once, by a replacement without a slash. -/
theorem spfs_replace_slashes_eq {replacement : gstr} (h : '/' ∉ replacement) {fuel : ℕ} {s : gstr}
    (hfuel : s.length < fuel) :
    spfs_replace_slashes fuel s replacement =
      some (s.flatMap fun a => if a = '/' then replacement else [a]) :=
  replace_all_singleton h hfuel

/-- The three bytes of U+2215, division slash.
Source: `spfs_fuse_utils.h`. -/
def SPFS_SLASH_REPLACEMENT : gstr := ['\u00e2', '\u0088', '\u0095']

/-- Source: glib's `g_ascii_isspace`. -/
def g_ascii_isspace (c : gchar) : Bool :=
  c = ' ' || c = '\t' || c = '\n' || c = '\x0c' || c = '\r'

/-- A string without its leading and trailing blanks.
Source: glib's `g_strstrip`. -/
def g_strstrip (s : gstr) : gstr := (s.dropWhile g_ascii_isspace).rdropWhile g_ascii_isspace

/-- The loop of `spfs_replace_slashes` ends within `n.length + 1` iterations
(`spfs_sanitize_name_eq`).
Source: `spfs_fuse_utils.c`, `spfs_sanitize_name`. -/
def spfs_sanitize_name (n : gstr) : gstr :=
  g_strstrip ((spfs_replace_slashes (n.length + 1) n SPFS_SLASH_REPLACEMENT).getD [])

/-- Each slash gives way to its replacement, and then the blanks at the ends go. -/
lemma spfs_sanitize_name_eq (n : gstr) :
    spfs_sanitize_name n =
      g_strstrip (n.flatMap fun a => if a = '/' then SPFS_SLASH_REPLACEMENT else [a]) := by
  rw [spfs_sanitize_name, spfs_replace_slashes_eq (by decide) (Nat.lt_succ_self _)]
  rfl

/-- Stripping adds no character. -/
lemma mem_of_mem_g_strstrip {c : gchar} {s : gstr} (h : c ∈ g_strstrip s) : c ∈ s :=
  (List.dropWhile_suffix _).subset ((List.rdropWhile_prefix _ _).subset h)

/-- Only blanks are stripped. -/
lemma mem_g_strstrip {c : gchar} {s : gstr} (hc : g_ascii_isspace c = false) (h : c ∈ s) :
    c ∈ g_strstrip s := by
  have hdrop : ∀ l : gstr, c ∈ l → c ∈ l.dropWhile g_ascii_isspace := by
    intro l hl
    rw [← List.takeWhile_append_dropWhile (p := g_ascii_isspace) (l := l), List.mem_append] at hl
    refine hl.resolve_left fun htake => ?_
    rw [List.mem_takeWhile_imp htake] at hc
    cases hc
  rw [g_strstrip, List.rdropWhile, List.mem_reverse]
  exact hdrop _ (List.mem_reverse.mpr (hdrop s h))

/-- A character that is neither a blank nor a slash stays in a sanitised name. -/
lemma mem_sanitize_name {c : gchar} {n : gstr} (hc : g_ascii_isspace c = false) (hslash : c ≠ '/')
    (h : c ∈ n) : c ∈ spfs_sanitize_name n := by
  rw [spfs_sanitize_name_eq]
  refine mem_g_strstrip hc (List.mem_flatMap.mpr ⟨c, h, ?_⟩)
  rw [if_neg hslash]
  exact List.mem_singleton_self c

/-- Without blanks at its ends a string stays as it is. -/
lemma g_strstrip_of_ends {x y : gchar} (hx : g_ascii_isspace x = false)
    (hy : g_ascii_isspace y = false) (s : gstr) : g_strstrip (x :: s ++ [y]) = x :: s ++ [y] := by
  rw [g_strstrip, List.cons_append, List.dropWhile_cons_of_neg (by simp [hx]), ← List.cons_append,
    List.rdropWhile_concat_neg _ _ _ (by simp [hy])]

/-- A name that is not blank does not become empty. -/
lemma sanitize_name_ne_nil {n : gstr} (h : ∃ c ∈ n, g_ascii_isspace c = false) :
    spfs_sanitize_name n ≠ [] := by
  obtain ⟨c, hc, hspace⟩ := h
  by_cases hslash : c = '/'
  · have hmem : '\u00e2' ∈ spfs_sanitize_name n := by
      rw [spfs_sanitize_name_eq]
      refine mem_g_strstrip (by decide) (List.mem_flatMap.mpr ⟨c, hc, ?_⟩)
      rw [if_pos hslash]
      decide
    exact List.ne_nil_of_mem hmem
  · exact List.ne_nil_of_mem (mem_sanitize_name hspace hslash hc)

/-- A sanitised name contains no slash. -/
lemma slash_notMem_sanitize_name (n : gstr) : '/' ∉ spfs_sanitize_name n := by
  rw [spfs_sanitize_name_eq]
  intro h
  obtain ⟨a, -, ha⟩ := List.mem_flatMap.mp (mem_of_mem_g_strstrip h)
  by_cases hs : a = '/'
  · rw [if_pos hs] at ha
    exact absurd ha (by decide)
  · rw [if_neg hs, List.mem_singleton] at ha
    exact hs ha.symm

/-- A sanitised name is at most three times as long as the name. -/
lemma length_sanitize_name_le (n : gstr) : (spfs_sanitize_name n).length ≤ 3 * n.length := by
  have hstrip : ∀ s : gstr, (g_strstrip s).length ≤ s.length := fun s =>
    (List.rdropWhile_prefix _ _).length_le.trans (List.dropWhile_suffix _).length_le
  have hone : ∀ a : gchar, (if a = '/' then SPFS_SLASH_REPLACEMENT else [a]).length ≤ 3 := by
    intro a
    split <;> simp [SPFS_SLASH_REPLACEMENT]
  rw [spfs_sanitize_name_eq]
  refine (hstrip _).trans ?_
  induction n with
  | nil => exact Nat.le_refl 0
  | cons a n ih =>
    have := hone a
    rw [List.flatMap_cons, List.length_append, List.length_cons]
    omega

/-- A stripped string has nothing left to strip. -/
lemma g_strstrip_idem (s : gstr) : g_strstrip (g_strstrip s) = g_strstrip s := by
  have hhead : (g_strstrip s).dropWhile g_ascii_isspace = g_strstrip s := by
    rw [List.dropWhile_eq_self_iff]
    intro hpos hspace
    have hpre : g_strstrip s <+: s.dropWhile g_ascii_isspace := List.rdropWhile_prefix _ _
    have hpos' : 0 < (s.dropWhile g_ascii_isspace).length := hpos.trans_le hpre.length_le
    have hnot := List.dropWhile_get_zero_not g_ascii_isspace s hpos'
    rw [List.get_eq_getElem, ← hpre.getElem hpos] at hnot
    exact hnot hspace
  rw [g_strstrip, hhead]
  exact List.rdropWhile_idempotent _ _

/-- Sanitising a sanitised name changes nothing. -/
lemma spfs_sanitize_name_idem (n : gstr) :
    spfs_sanitize_name (spfs_sanitize_name n) = spfs_sanitize_name n := by
  have hno := slash_notMem_sanitize_name n
  have hid : ((spfs_sanitize_name n).flatMap fun a =>
      if a = '/' then SPFS_SLASH_REPLACEMENT else [a]) = spfs_sanitize_name n := by
    generalize spfs_sanitize_name n = s at hno
    induction s with
    | nil => rfl
    | cons a s ih =>
      have ha : a ≠ '/' := fun h => hno (by simp [h])
      rw [List.flatMap_cons, if_neg ha, ih fun h => hno (by simp [h])]
      rfl
  rw [spfs_sanitize_name_eq (spfs_sanitize_name n), hid, spfs_sanitize_name_eq n, g_strstrip_idem]

end Spotifile
