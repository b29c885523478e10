import Spotifile.Lib.Fields
import Spotifile.Mkdir
import Spotifile.Xspf

/-!
# `is_mounted`: looking a mount point up in the table of mounts

`is_mounted` compares the beginning of every line with the text `name dir fuse.name`, without regard
to case, where `dir` is what `g_path_get_dirname` makes of the mount point. That takes a slash off
its end where there is one; else it is the parent directory. The comparison also takes letters for
others, and a type for one that begins with it.

So a line of the mount is found only where the mount point has a slash at its end
(`looksMounted_iff`), and the lines of other mounts may be mistaken for it (`Mistaken`).
`is_mounted_right_iff` says for which tables the answer is right nevertheless.

glib reads the table as UTF-8, and ends at a line that is none.
-/

namespace Spotifile

open Lib Mkdir

/-! ## The source -/

/-- Source: libc's `tolower`, in the C locale. -/
def tolower (c : gchar) : gchar := c.toLower

/-- Whether the result is 0.
Source: libc's `strncasecmp`. -/
def strncasecmp (s₁ s₂ : gstr) (n : ℕ) : Bool := (s₁.take n).map tolower = (s₂.take n).map tolower

/-- `copy` is the number of bytes that are left of a valid sequence. -/
def utf8_valid_from : ℕ → gstr → Bool
  | _, [] => true
  | copy + 1, _ :: s => utf8_valid_from copy s
  | 0, c :: s =>
    (g_utf8_get_char_validated (c :: s)).isSome && utf8_valid_from (g_utf8_skip c - 1) s

/-- Source: glib's `g_utf8_validate`. -/
def g_utf8_validate (s : gstr) : Bool := utf8_valid_from 0 s

/-- The text that a line is compared with.
Source: `spotify-fs.c`, `is_mounted`. -/
def mountline (fstypename mountpoint : gstr) : gstr :=
  fstypename ++ " ".toList ++ g_path_get_dirname mountpoint ++ " fuse.".toList ++ fstypename

/-- The loop over the lines; `g_io_channel_read_line` fails at a line that is no UTF-8.
Source: `spotify-fs.c`, `is_mounted`. -/
def find_mountline (mountline : gstr) : List gstr → Bool
  | [] => false
  | line :: lines =>
    if g_utf8_validate line then
      strncasecmp line mountline mountline.length || find_mountline mountline lines
    else false

/-- `procmounts` are the lines of the table, if it can be opened.
Source: `spotify-fs.c`, `is_mounted`. -/
def is_mounted (procmounts : Option (List gstr)) (fstypename mountpoint : gstr) : Bool :=
  match procmounts with
  | none => false
  | some lines => find_mountline (mountline fstypename mountpoint) lines

/-! ## The property -/

/-- A path without the slash at its end. -/
def without_slash (path : gstr) : gstr :=
  if path = ['/'] then path
  else if path.getLast? = some '/' then path.dropLast else path

/-- The line of the table for the mount: its first three fields are the device, the mount point and
the type. -/
def IsMount (name mountpoint line : gstr) : Prop :=
  [name, without_slash mountpoint, "fuse.".toList ++ name] <+: line.splitOn ' '

/-- The line has the fields of `name dir fuse.name` up to case, and the last of them may go on. -/
def LooksMounted (name dir line : gstr) : Prop :=
  FieldsBegin tolower ((name ++ " ".toList ++ dir ++ " fuse.".toList ++ name).splitOn ' ')
    (line.splitOn ' ')

instance (name mountpoint line : gstr) : Decidable (IsMount name mountpoint line) :=
  inferInstanceAs (Decidable (_ <+: _))

instance (name dir line : gstr) : Decidable (LooksMounted name dir line) :=
  inferInstanceAs (Decidable (FieldsBegin _ _ _))

/-- The line looks like that of the mount, but is not. -/
def Mistaken (name mountpoint line : gstr) : Prop :=
  LooksMounted name (g_path_get_dirname mountpoint) line ∧ ¬ IsMount name mountpoint line

/-- A line is mistaken for the mount only beside it. And where the mount is in the table, a line of
it can be read and the mount point is the directory that is looked for, or a line is mistaken
for it. -/
structure Telling (lines : List gstr) (name mountpoint : gstr) : Prop where
  only : ∀ line ∈ lines.takeWhile g_utf8_validate, Mistaken name mountpoint line →
    ∃ l ∈ lines, IsMount name mountpoint l
  found : ∀ line ∈ lines, IsMount name mountpoint line →
    (g_path_get_dirname mountpoint = without_slash mountpoint ∧
      ∃ l ∈ lines.takeWhile g_utf8_validate, IsMount name mountpoint l) ∨
    ∃ l ∈ lines.takeWhile g_utf8_validate, Mistaken name mountpoint l

/-! ## What is compared -/

/-- Compared up to the length of the second string, the first begins with the second. -/
lemma strncasecmp_length_iff (s₁ s₂ : gstr) :
    strncasecmp s₁ s₂ s₂.length = true ↔ s₂.map tolower <+: s₁.map tolower := by
  rw [strncasecmp, decide_eq_true_eq, List.take_length, List.prefix_iff_eq_take, List.length_map,
    List.map_take]
  exact eq_comm

/-- Nothing but the character itself becomes one that stands before the letters. -/
lemma tolower_eq_iff {c d : gchar} (hd : d.val.toNat < 65) : tolower c = d ↔ c = d := by
  delta tolower Char.toLower
  split
  · next h =>
    have hupper : 65 ≤ c.val.toNat ∧ c.val.toNat ≤ 90 :=
      ⟨UInt32.le_iff_toNat_le.mp h.1, UInt32.le_iff_toNat_le.mp h.2⟩
    apply iff_of_false
    · intro heq
      have hval : (c.val + ('a'.val - 'A'.val)).toNat = d.val.toNat :=
        congrArg (UInt32.toNat ∘ Char.val) heq
      rw [UInt32.toNat_add, show ('a'.val - 'A'.val).toNat = 32 from rfl] at hval
      omega
    · rintro rfl
      omega
  · rfl

/-- Only the blank is lowered to the blank. -/
lemma tolower_eq_space (c : gchar) : tolower c = tolower ' ' ↔ c = ' ' := by
  have hspace : tolower ' ' = ' ' := (tolower_eq_iff (by decide)).mpr rfl
  rw [hspace]
  exact tolower_eq_iff (by decide)

/-- A character below the letters is lowered from itself only. -/
lemma map_tolower_eq_singleton {s : gstr} {d : gchar} (hd : d.val.toNat < 65)
    (h : [d].map tolower = s.map tolower) : [d] = s := by
  have hself : tolower d = d := (tolower_eq_iff hd).mpr rfl
  obtain ⟨c, rfl, hc⟩ := List.map_eq_singleton_iff.mp h.symm
  rw [hself, tolower_eq_iff hd] at hc
  rw [hc]

/-- The comparison is one of fields. -/
lemma strncasecmp_mountline_iff (name mountpoint line : gstr) :
    strncasecmp line (mountline name mountpoint) (mountline name mountpoint).length = true ↔
      LooksMounted name (g_path_get_dirname mountpoint) line := by
  rw [strncasecmp_length_iff]
  exact map_prefix_iff tolower_eq_space _ _

/-- The loop finds a line that looks like the mount among those that can be read. -/
lemma is_mounted_iff (lines : List gstr) (name mountpoint : gstr) :
    is_mounted (some lines) name mountpoint = true ↔
      ∃ line ∈ lines.takeWhile g_utf8_validate,
        LooksMounted name (g_path_get_dirname mountpoint) line := by
  show find_mountline (mountline name mountpoint) lines = true ↔ _
  induction lines with
  | nil => simp [find_mountline]
  | cons line lines ih =>
    rw [find_mountline]
    by_cases hvalid : g_utf8_validate line = true
    · rw [if_pos hvalid, List.takeWhile_cons_of_pos hvalid, Bool.or_eq_true,
        strncasecmp_mountline_iff, ih]
      simp only [List.mem_cons, exists_eq_or_imp]
    · rw [if_neg hvalid, List.takeWhile_cons_of_neg hvalid]
      simp

/-! ## The directory that is looked for -/

/-- The fields of the text that is looked for, if the names have no blanks. -/
lemma splitOn_mountline {name dir : gstr} (hname : ' ' ∉ name) (hdir : ' ' ∉ dir) :
    (name ++ " ".toList ++ dir ++ " fuse.".toList ++ name).splitOn ' ' =
      [name, dir, "fuse.".toList ++ name] := by
  have htype : ' ' ∉ "fuse.".toList ++ name := by
    rw [List.mem_append, not_or]
    exact ⟨by decide, hname⟩
  have hline : name ++ " ".toList ++ dir ++ " fuse.".toList ++ name =
      name ++ ' ' :: (dir ++ ' ' :: ("fuse.".toList ++ name)) := by simp
  rw [hline, List.splitOn_append_cons_self_of_not_mem hname,
    List.splitOn_append_cons_self_of_not_mem hdir, List.splitOn_eq_singleton htype]

/-- The first three fields of the line of a mount. -/
lemma IsMount.fields {name mountpoint line : gstr} (h : IsMount name mountpoint line) :
    ∃ rest, line.splitOn ' ' =
        name :: without_slash mountpoint :: ("fuse.".toList ++ name) :: rest ∧
      ' ' ∉ name ∧ ' ' ∉ without_slash mountpoint := by
  obtain ⟨rest, hrest⟩ := h
  have hfields : line.splitOn ' ' =
      name :: without_slash mountpoint :: ("fuse.".toList ++ name) :: rest := by
    rw [← hrest]
    rfl
  refine ⟨rest, hfields, ?_, ?_⟩
  · apply notMem_of_mem_splitOn (s := line)
    rw [hfields]
    exact List.mem_cons_self
  · apply notMem_of_mem_splitOn (s := line)
    rw [hfields]
    exact List.mem_cons_of_mem _ List.mem_cons_self

/-- A slash at the end is taken off. -/
lemma g_path_get_dirname_slash {dir : gstr} (hne : dir ≠ []) (hlast : dir.getLast hne ≠ '/') :
    g_path_get_dirname (dir ++ ['/']) = dir := by
  have hkeep : (dir ++ ['/']).rdropWhile (· ≠ '/') = dir ++ ['/'] :=
    List.rdropWhile_concat_neg _ _ _ (by simp)
  have hdrop : (dir ++ ['/']).rdropWhile (· = '/') = dir := by
    rw [List.rdropWhile_concat_pos _ _ _ (by simp), List.rdropWhile_eq_self_iff]
    intro _
    simpa using hlast
  rw [g_path_get_dirname, if_neg (by simp)]
  dsimp only
  rw [hkeep, hdrop, if_neg hne]

/-- Without a slash at the end the directory is a shorter path. -/
lemma length_g_path_get_dirname_lt {path : gstr} (habs : path.head? = some '/')
    (hlast : path.getLast? ≠ some '/') : (g_path_get_dirname path).length < path.length := by
  obtain ⟨tail, rfl⟩ : ∃ tail, path = '/' :: tail := by
    rcases path with _ | ⟨c, tail⟩
    · cases habs
    · obtain rfl := Option.some.inj habs
      exact ⟨tail, rfl⟩
  have htail : tail ≠ [] := by
    rintro rfl
    exact hlast rfl
  rw [g_path_get_dirname, if_neg (by simp)]
  dsimp only
  split
  · have hpos : 0 < tail.length := List.length_pos_iff.mpr htail
    simpa using hpos
  · -- the name goes, and it is not empty
    have hfront : ('/' :: tail).rdropWhile (· ≠ '/') <+: '/' :: tail := List.rdropWhile_prefix _ _
    have hlt : (('/' :: tail).rdropWhile (· ≠ '/')).length < ('/' :: tail).length := by
      apply lt_of_le_of_ne hfront.length_le
      intro heq
      have hself := List.rdropWhile_eq_self_iff.mp (hfront.eq_of_length heq)
        (List.cons_ne_nil _ _)
      apply hlast
      rw [List.getLast?_eq_some_getLast (List.cons_ne_nil _ _)]
      simpa using hself
    exact lt_of_le_of_lt (List.rdropWhile_prefix _ _).length_le hlt

/-- The directory of a path without blanks has none. -/
lemma space_notMem_g_path_get_dirname {path : gstr} (h : ' ' ∉ path) :
    ' ' ∉ g_path_get_dirname path := by
  rw [g_path_get_dirname]
  dsimp only
  split
  · decide
  split
  · decide
  · intro hmem
    apply h
    exact (List.rdropWhile_prefix _ _).subset ((List.rdropWhile_prefix _ _).subset hmem)

/-- The directory is `.` or `/`, or the path begins with it. -/
lemma g_path_get_dirname_cases (path : gstr) :
    g_path_get_dirname path = ['.'] ∨ g_path_get_dirname path = ['/'] ∨
      g_path_get_dirname path <+: path := by
  rw [g_path_get_dirname]
  dsimp only
  split
  · exact .inl rfl
  split
  · exact .inr (.inl rfl)
  · exact .inr (.inr ((List.rdropWhile_prefix _ _).trans (List.rdropWhile_prefix _ _)))

/-- A path begins with what is left of it without slashes at its end. -/
lemma without_slash_isPrefix (path : gstr) : without_slash path <+: path := by
  unfold without_slash
  split
  · exact List.prefix_rfl
  split
  · exact List.dropLast_prefix path
  · exact List.prefix_rfl

/-- The slashes at the end are no blanks. -/
lemma space_notMem_of_without_slash {path : gstr} (h : ' ' ∉ without_slash path) : ' ' ∉ path := by
  unfold without_slash at h
  split at h
  · exact h
  split at h
  · next hlast =>
    obtain ⟨front, rfl⟩ := List.getLast?_eq_some_iff.mp hlast
    rw [List.dropLast_concat] at h
    rw [List.mem_append, not_or]
    exact ⟨h, by decide⟩
  · exact h

/-- A directory that is not the path differs from it by more than the case of letters. -/
lemma map_tolower_dirname_iff (path : gstr) :
    (g_path_get_dirname path).map tolower = (without_slash path).map tolower ↔
      g_path_get_dirname path = without_slash path := by
  refine ⟨fun h => ?_, congrArg _⟩
  rcases g_path_get_dirname_cases path with hdir | hdir | hfront
  · rw [hdir] at h ⊢
    exact map_tolower_eq_singleton (by decide) h
  · rw [hdir] at h ⊢
    exact map_tolower_eq_singleton (by decide) h
  · have hlength := congrArg List.length h
    rw [List.length_map, List.length_map] at hlength
    have hboth := List.prefix_of_prefix_length_le hfront (without_slash_isPrefix path) hlength.le
    exact hboth.eq_of_length hlength

/-! ## When the answer is right -/

/-- The line of a mount looks like it exactly if the mount point is the directory that is looked
for. -/
theorem looksMounted_iff {name mountpoint line : gstr} (h : IsMount name mountpoint line) :
    LooksMounted name (g_path_get_dirname mountpoint) line ↔
      g_path_get_dirname mountpoint = without_slash mountpoint := by
  obtain ⟨rest, hfields, hname, hdir⟩ := h.fields
  have hspace := space_notMem_g_path_get_dirname (space_notMem_of_without_slash hdir)
  unfold LooksMounted
  rw [splitOn_mountline hname hspace, hfields, ← map_tolower_dirname_iff]
  exact ⟨fun hlooks => hlooks.2.1, fun heq => ⟨rfl, heq, List.prefix_rfl⟩⟩

/-- With one slash at its end a mount point is the directory that is looked for. -/
theorem dirname_eq_without_slash {dir : gstr} (hne : dir ≠ []) (hlast : dir.getLast hne ≠ '/') :
    g_path_get_dirname (dir ++ ['/']) = without_slash (dir ++ ['/']) := by
  unfold without_slash
  rw [g_path_get_dirname_slash hne hlast, if_neg (by simpa using hne), if_pos (by simp),
    List.dropLast_concat]

/-- Without one, the directory above is looked for. -/
theorem dirname_ne_without_slash {mountpoint : gstr} (habs : mountpoint.head? = some '/')
    (hlast : mountpoint.getLast? ≠ some '/') :
    g_path_get_dirname mountpoint ≠ without_slash mountpoint := by
  intro heq
  rw [without_slash, if_neg hlast, ite_self] at heq
  exact (length_g_path_get_dirname_lt habs hlast).ne (congrArg List.length heq)

/-- The answer is right exactly if the table is telling. -/
theorem is_mounted_right_iff (lines : List gstr) (name mountpoint : gstr) :
    (is_mounted (some lines) name mountpoint = true ↔
        ∃ line ∈ lines, IsMount name mountpoint line) ↔
      Telling lines name mountpoint := by
  have hread : ∀ line ∈ lines.takeWhile g_utf8_validate, line ∈ lines :=
    fun line hline => (List.takeWhile_prefix _).subset hline
  rw [is_mounted_iff]
  constructor
  · intro h
    refine ⟨fun line hline hmistaken => h.mp ⟨line, hline, hmistaken.1⟩, ?_⟩
    intro line hline hmount
    obtain ⟨l, hl, hlooks⟩ := h.mpr ⟨line, hline, hmount⟩
    by_cases hself : IsMount name mountpoint l
    · exact .inl ⟨(looksMounted_iff hself).mp hlooks, l, hl, hself⟩
    · exact .inr ⟨l, hl, hlooks, hself⟩
  · intro h
    constructor
    · rintro ⟨line, hline, hlooks⟩
      by_cases hself : IsMount name mountpoint line
      · exact ⟨line, hread line hline, hself⟩
      · exact h.only line hline ⟨hlooks, hself⟩
    · rintro ⟨line, hline, hmount⟩
      rcases h.found line hline hmount with ⟨hdir, l, hl, hself⟩ | ⟨l, hl, hmistaken⟩
      · exact ⟨l, hl, (looksMounted_iff hself).mpr hdir⟩
      · exact ⟨l, hl, hmistaken.1⟩

/-- The mount of the example in the documentation is not found. -/
theorem not_is_mounted_right :
    ¬ (is_mounted (some ["spotifile /tmp/spotifile fuse.spotifile rw 0 0\n".toList])
          "spotifile".toList "/tmp/spotifile".toList = true ↔
        ∃ line ∈ ["spotifile /tmp/spotifile fuse.spotifile rw 0 0\n".toList],
          IsMount "spotifile".toList "/tmp/spotifile".toList line) := by
  decide

end Spotifile
