import Spotifile.Lib.Interleave
import Spotifile.Mount

/-!
# Open handles: `spfs_open`, `spfs_release`, `spfs_opendir` and `spfs_releasedir`

FUSE opens an entity, gets it as a handle, and releases each handle once. Every entity counts its
handles in `refs`. `spfs_opendir` does not count, although `spfs_releasedir` takes one off;
`refs_counted_iff` says that this is the only way to a wrong count, next to the overflow of the
`unsigned int`.

`spfs_open` and `spfs_release` do not look at the type of the entity. They read the operations of a
directory or a link as those of a file: `open_hook` and `release_hook` say what stands there. Where
C does not define what happens then, the handler has no result, and `HandleCall.Defined` excludes
the call.

A handler is one step here. The children tables and the names are left as they are.
-/

namespace Spotifile

open Lib

/-! ## The handlers -/

/-- What the handlers read and write of `struct fuse_file_info`; `none` is the handle 0.
Source: `fuse.h`. -/
structure fuse_file_info where
  fh : Option Ptr
  direct_io : ℕ
deriving DecidableEq, Repr

/-- The entities, the field of `spfs_data`, and the handles that FUSE holds: in `files` those that
`spfs_open` gave out, in `dirs` those of `spfs_opendir`. -/
structure Handles where
  heap : Heap
  music_playing : Bool
  files : List Ptr
  dirs : List Ptr
deriving DecidableEq

/-- The values of an `unsigned int`. -/
def UINT : ℕ := 2 ^ 32

/-- `refs` plus `n`. -/
def Heap.add_refs (h : Heap) (p : Ptr) (n : ℕ) : Heap :=
  h.modify p fun e => { e with refs := (e.refs + n) % UINT }

/-- The operations of a file. -/
def spfs_entity.file_ops (e : spfs_entity) : Option spfs_file_ops :=
  match e.e with
  | .file ops _ => some ops
  | _ => none

/-- Source: `spfs_fuse_entity.c`, `spfs_entity_get_direct_io`. -/
def spfs_entity_get_direct_io (e : spfs_entity) : ℕ :=
  match e.e with
  | .file _ 0 => 1
  | _ => 0

/-- The entity at an absolute path. -/
def Handles.find (s : Handles) (path : gstr) : Option Ptr :=
  s.heap.spfs_root.bind fun root => spfs_entity_find_path s.heap root path

/-- Source: `spfs_fuse_audiofile.c`, `wav_open`. -/
def wav_open (s : Handles) : ℤ × Handles :=
  if s.music_playing then (-EBUSY, s) else (0, { s with music_playing := true })

/-- The warning is left out.
Source: `spfs_fuse_audiofile.c`, `wav_release`. -/
def wav_release (s : Handles) : Handles := { s with music_playing := false }

/-- Whether `e->e.file->ops->open` is set; then it is `wav_open`. A directory has its `release`
there, which no directory has. The operations of a link end before it.
Source: `spfs_fuse_entity.h`, `struct spfs_file_ops`, `struct spfs_dir_ops`,
`struct spfs_link_ops`. -/
def spfs_entity.open_hook (e : spfs_entity) : Option Bool :=
  match e.e with
  | .file ops _ => some ops.wav
  | .dir _ _ => some false
  | .link _ => none

/-- Whether `e->e.file->ops->release` is set; then it is `wav_release`. A directory has its `mkdir`
there: it would be called with the arguments of a `release`. The operations of a link end before it.
Source: `spfs_fuse_entity.h`, `struct spfs_file_ops`, `struct spfs_dir_ops`,
`struct spfs_link_ops`. -/
def spfs_entity.release_hook (e : spfs_entity) : Option Bool :=
  match e.e with
  | .file ops _ => some ops.wav
  | .dir ops _ => if ops.mkdir = none then some false else none
  | .link _ => none

/-- In a file the slot of `open` is where it belongs. -/
lemma open_hook_of_file_ops {e : spfs_entity} {ops : spfs_file_ops} (h : e.file_ops = some ops) :
    e.open_hook = some ops.wav := by
  rcases e with ⟨_, _, _, _, _ | _ | _⟩
  · obtain rfl := Option.some.inj h
    rfl
  · cases h
  · cases h

/-- What stands where `spfs_open` looks for an `open`. -/
def Heap.open_hook (h : Heap) (p : Ptr) : Option Bool := (h.get p).bind spfs_entity.open_hook

/-- What stands where `spfs_release` looks for a `release`. -/
def Heap.release_hook (h : Heap) (p : Ptr) : Option Bool :=
  (h.get p).bind spfs_entity.release_hook

/-- There is no check of the type.
Source: `spfs_fuse.c`, `spfs_open`. -/
def spfs_open (path : gstr) (fi : fuse_file_info) (s : Handles) :
    Option ((ℤ × fuse_file_info) × Handles) :=
  match s.find path with
  | none => some ((-ENOENT, fi), s)
  | some p => do
    let e ← s.heap.get p
    let hook ← e.open_hook
    let opened := if hook then wav_open s else (0, s)
    if opened.1 = 0 then
      some ((0, ⟨some p, spfs_entity_get_direct_io e⟩),
        { opened.2 with heap := s.heap.add_refs p 1, files := p :: s.files })
    else some ((opened.1, { fi with fh := none }), opened.2)

/-- FUSE releases a handle that it has got from `spfs_open` and not released.
Source: `spfs_fuse.c`, `spfs_release`. -/
def spfs_release (fi : fuse_file_info) (s : Handles) : Option ((ℤ × fuse_file_info) × Handles) := do
  let p ← fi.fh
  let e ← s.heap.get p
  let hook ← e.release_hook
  let released := if hook then wav_release s else s
  if p ∈ s.files then
    some ((0, fi),
      { released with heap := s.heap.add_refs p (UINT - 1), files := s.files.erase p })
  else none

/-- Source: `spfs_fuse.c`, `spfs_opendir`. -/
def spfs_opendir (path : gstr) (fi : fuse_file_info) (s : Handles) :
    Option ((ℤ × fuse_file_info) × Handles) :=
  match s.find path with
  | none => some ((-ENOENT, fi), s)
  | some p => do
    let e ← s.heap.get p
    if e.e.children = none then some ((-EINVAL, fi), s)
    else some ((0, { fi with fh := some p }), { s with dirs := p :: s.dirs })

/-- No directory has a `release`. FUSE releases a handle that it has got from `spfs_opendir` and
not released.
Source: `spfs_fuse.c`, `spfs_releasedir`. -/
def spfs_releasedir (fi : fuse_file_info) (s : Handles) :
    Option ((ℤ × fuse_file_info) × Handles) := do
  let p ← fi.fh
  if p ∈ s.dirs then
    some ((0, fi), { s with heap := s.heap.add_refs p (UINT - 1), dirs := s.dirs.erase p })
  else none

/-- The calls of FUSE. -/
inductive HandleCall
  | spfs_open (path : gstr) (fi : fuse_file_info)
  | spfs_release (fi : fuse_file_info)
  | spfs_opendir (path : gstr) (fi : fuse_file_info)
  | spfs_releasedir (fi : fuse_file_info)

/-- What a call returns, and does to the state. -/
def HandleCall.run : HandleCall → Handles → Option ((ℤ × fuse_file_info) × Handles)
  | .spfs_open path fi => Spotifile.spfs_open path fi
  | .spfs_release fi => Spotifile.spfs_release fi
  | .spfs_opendir path fi => Spotifile.spfs_opendir path fi
  | .spfs_releasedir fi => Spotifile.spfs_releasedir fi

/-- A call is one instruction. -/
inductive HandleInstr : Type → Type
  | call (c : HandleCall) : HandleInstr (ℤ × fuse_file_info)

/-- Any thread may call at any time. -/
def handle_system : System HandleInstr Handles ℕ HandleCall Unit where
  exec
    | .call c, _, s => (c.run s).map fun r => (some r.1, r.2)
  prog c := do let _ ← .of (.call c)
  may _ _ _ := true

/-! ## The property and its condition -/

/-- The handles that FUSE holds of an entity. -/
def Handles.count (s : Handles) (p : Ptr) : ℕ := s.files.count p + s.dirs.count p

/-- Every entity counts its handles. -/
def Handles.Counted (s : Handles) : Prop :=
  ∀ p e, s.heap.get p = some e → e.refs = s.count p

/-- Nothing is open. -/
structure Handles.Unopened (s : Handles) : Prop where
  refs : ∀ p e, s.heap.get p = some e → e.refs = 0
  files : s.files = []
  dirs : s.dirs = []

/-- Nothing in the call is left undefined by C: an open finds no link, and a release takes no link
and no directory with a `mkdir`. -/
def HandleCall.Defined : HandleCall → Handles → Prop
  | .spfs_open path _, s => ∀ p, s.find path = some p → s.heap.open_hook p ≠ none
  | .spfs_release fi, s => ∀ p, fi.fh = some p → s.heap.release_hook p ≠ none
  | _, _ => True

/-- The thread does not stand before a call that C leaves undefined. -/
def Defined (s : Handles) : Prog HandleInstr Unit → Prop
  | .ret _ => True
  | .call (.call c) _ => c.Defined s

/-- The counters are right, and no thread stands before a call that C leaves undefined. -/
structure Right (w : World HandleInstr Handles ℕ) : Prop where
  counted : w.shared.Counted
  defined : ∀ t, Defined w.shared (w.prog t)

/-- The call opens no directory with `spfs_opendir`, and opens an entity with `spfs_open` only if
one more handle on it can be counted. -/
def CanCount : {γ : Type} → HandleInstr γ → Handles → Prop
  | _, .call (.spfs_open path _), s => ∀ p e hook, s.find path = some p → s.heap.get p = some e →
      e.open_hook = some hook → (hook = true → s.music_playing = false) → e.refs + 1 < UINT
  | _, .call (.spfs_opendir path _), s => ∀ p, s.find path = some p → s.heap.children p = none
  | _, _, _ => True

/-- A call that returns an error changes nothing. -/
def FailsQuietly : {γ : Type} → HandleInstr γ → Handles → Prop
  | _, .call c, s => ∀ r fi s', c.run s = some ((r, fi), s') → r ≠ 0 → s' = s

/-! ## What each handler does -/

section Handlers

variable {s s' : Handles} {path : gstr} {fi fi' : fuse_file_info} {r : ℤ}

/-- An open finds nothing, is refused by `wav_open`, or counts one more handle. -/
lemma spfs_open_cases (h : spfs_open path fi s = some ((r, fi'), s')) :
    (s.find path = none ∧ r = -ENOENT ∧ s' = s) ∨
    ∃ p e hook, s.find path = some p ∧ s.heap.get p = some e ∧ e.open_hook = some hook ∧
      ((hook = true ∧ s.music_playing = true ∧ r = -EBUSY ∧ s' = s) ∨
      ((hook = true → s.music_playing = false) ∧ r = 0 ∧ s' = { s with
        music_playing := hook || s.music_playing
        heap := s.heap.add_refs p 1
        files := p :: s.files })) := by
  unfold spfs_open at h
  rcases hp : s.find path with _ | p
  · left
    simp only [hp, Option.some.injEq, Prod.mk.injEq] at h
    exact ⟨rfl, h.1.1.symm, h.2.symm⟩
  · right
    simp only [hp] at h
    obtain ⟨e, he, h⟩ := Option.bind_eq_some_iff.mp h
    obtain ⟨hook, hhook, h⟩ := Option.bind_eq_some_iff.mp h
    refine ⟨p, e, hook, rfl, he, hhook, ?_⟩
    rcases hook with _ | _
    · right
      simp only [Bool.false_eq_true, if_false, if_true, Option.some.injEq, Prod.mk.injEq] at h
      obtain ⟨⟨rfl, -⟩, rfl⟩ := h
      exact ⟨by simp, rfl, rfl⟩
    · rcases hm : s.music_playing with _ | _
      · right
        simp only [hm, wav_open, Bool.false_eq_true, if_false, if_true, Option.some.injEq,
          Prod.mk.injEq] at h
        obtain ⟨⟨rfl, -⟩, rfl⟩ := h
        exact ⟨fun _ => rfl, rfl, rfl⟩
      · left
        have hbusy : ¬ (-EBUSY = 0) := by decide
        simp only [hm, wav_open, if_true, hbusy, if_false, Option.some.injEq,
          Prod.mk.injEq] at h
        obtain ⟨⟨rfl, -⟩, rfl⟩ := h
        exact ⟨rfl, rfl, rfl, rfl⟩

/-- A release takes a handle that is open. -/
lemma spfs_release_spec (h : spfs_release fi s = some ((r, fi'), s')) :
    ∃ p, p ∈ s.files ∧ r = 0 ∧ s'.heap = s.heap.add_refs p (UINT - 1) ∧
      s'.files = s.files.erase p ∧ s'.dirs = s.dirs := by
  unfold spfs_release at h
  obtain ⟨p, -, h⟩ := Option.bind_eq_some_iff.mp h
  obtain ⟨e, -, h⟩ := Option.bind_eq_some_iff.mp h
  obtain ⟨hook, -, h⟩ := Option.bind_eq_some_iff.mp h
  simp only at h
  split at h
  · next hp =>
    simp only [Option.some.injEq, Prod.mk.injEq] at h
    obtain ⟨⟨rfl, -⟩, rfl⟩ := h
    refine ⟨p, hp, rfl, rfl, rfl, ?_⟩
    cases hook <;> rfl
  · cases h

/-- An open of a directory finds nothing, or no directory, or hands out the handle without a
count. -/
lemma spfs_opendir_cases (h : spfs_opendir path fi s = some ((r, fi'), s')) :
    (s.find path = none ∧ r = -ENOENT ∧ s' = s) ∨
    ∃ p e, s.find path = some p ∧ s.heap.get p = some e ∧
      ((e.e.children = none ∧ r = -EINVAL ∧ s' = s) ∨
      (e.e.children ≠ none ∧ r = 0 ∧ s' = { s with dirs := p :: s.dirs })) := by
  unfold spfs_opendir at h
  rcases hp : s.find path with _ | p
  · left
    simp only [hp, Option.some.injEq, Prod.mk.injEq] at h
    exact ⟨rfl, h.1.1.symm, h.2.symm⟩
  · right
    simp only [hp] at h
    obtain ⟨e, he, h⟩ := Option.bind_eq_some_iff.mp h
    refine ⟨p, e, rfl, he, ?_⟩
    split at h
    · next hc =>
      simp only [Option.some.injEq, Prod.mk.injEq] at h
      exact .inl ⟨hc, h.1.1.symm, h.2.symm⟩
    · next hc =>
      simp only [Option.some.injEq, Prod.mk.injEq] at h
      exact .inr ⟨hc, h.1.1.symm, h.2.symm⟩

/-- A release of a directory takes a handle that is open. -/
lemma spfs_releasedir_spec (h : spfs_releasedir fi s = some ((r, fi'), s')) :
    ∃ p, p ∈ s.dirs ∧ r = 0 ∧ s'.heap = s.heap.add_refs p (UINT - 1) ∧ s'.files = s.files ∧
      s'.dirs = s.dirs.erase p := by
  unfold spfs_releasedir at h
  obtain ⟨p, -, h⟩ := Option.bind_eq_some_iff.mp h
  split at h
  · next hp =>
    simp only [Option.some.injEq, Prod.mk.injEq] at h
    obtain ⟨⟨rfl, -⟩, rfl⟩ := h
    exact ⟨p, hp, rfl, rfl, rfl, rfl⟩
  · cases h

end Handlers

/-- No handler changes anything when it fails. -/
lemma failsQuietly {γ : Type} (i : HandleInstr γ) (s : Handles) : FailsQuietly i s := by
  obtain ⟨c⟩ := i
  intro r fi s' h hr
  cases c with
  | spfs_open path fi =>
    rcases spfs_open_cases h with ⟨-, -, hs⟩ | ⟨_, _, _, -, -, -, ⟨-, -, -, hs⟩ | ⟨-, h0, -⟩⟩
    · exact hs
    · exact hs
    · exact absurd h0 hr
  | spfs_release fi =>
    obtain ⟨_, -, h0, -⟩ := spfs_release_spec h
    exact absurd h0 hr
  | spfs_opendir path fi =>
    rcases spfs_opendir_cases h with ⟨-, -, hs⟩ | ⟨_, _, -, -, ⟨-, -, hs⟩ | ⟨-, h0, -⟩⟩
    · exact hs
    · exact hs
    · exact absurd h0 hr
  | spfs_releasedir fi =>
    obtain ⟨_, -, h0, -⟩ := spfs_releasedir_spec h
    exact absurd h0 hr

/-! ## The counters -/

/-- Every counter is an `unsigned int`. -/
def Handles.InRange (s : Handles) : Prop :=
  ∀ p e, s.heap.get p = some e → e.refs < UINT

/-- There is an `unsigned int`. -/
lemma UINT_pos : 0 < UINT := by decide

/-- The entity behind a pointer after a count. -/
lemma get_add_refs {h : Heap} {p q : Ptr} {n : ℕ} {e' : spfs_entity}
    (he : (h.add_refs p n).get q = some e') :
    ∃ e, h.get q = some e ∧ e'.refs = if p = q then (e.refs + n) % UINT else e.refs := by
  rw [Heap.add_refs, Heap.get_modify] at he
  split at he
  · next hpq =>
    obtain ⟨e, he₀, rfl⟩ := Option.map_eq_some_iff.mp he
    refine ⟨e, he₀, ?_⟩
    rw [if_pos hpq]
  · next hpq => exact ⟨e', he, by rw [if_neg hpq]⟩

/-- The entity itself gets the new counter. -/
lemma get_add_refs_self {h : Heap} {p : Ptr} {n : ℕ} {e : spfs_entity} (he : h.get p = some e) :
    (h.add_refs p n).get p = some { e with refs := (e.refs + n) % UINT } := by
  rw [Heap.add_refs, Heap.get_modify, if_pos rfl, he]
  rfl

/-- A count keeps the counters in range. -/
lemma Handles.InRange.add_refs {s s' : Handles} (hs : s.InRange) {p : Ptr} {n : ℕ}
    (h : s'.heap = s.heap.add_refs p n) : s'.InRange := by
  intro q e' he'
  rw [h] at he'
  obtain ⟨e, he, hrefs⟩ := get_add_refs he'
  rw [hrefs]
  split
  · exact Nat.mod_lt _ UINT_pos
  · exact hs q e he

/-- One more handle is counted right precisely if it can be counted at all. -/
lemma Handles.Counted.up_iff {s s' : Handles} (hs : s.Counted) {p : Ptr} {e : spfs_entity}
    (he : s.heap.get p = some e) (hheap : s'.heap = s.heap.add_refs p 1)
    (hcount : ∀ q, s'.count q = s.count q + if p = q then 1 else 0) :
    s'.Counted ↔ e.refs + 1 < UINT := by
  constructor
  · intro hs'
    have hself := hs' p _ (hheap ▸ get_add_refs_self he)
    rw [hcount, if_pos rfl, ← hs p e he] at hself
    rw [← hself]
    exact Nat.mod_lt _ UINT_pos
  · intro hlt q e' he'
    rw [hheap] at he'
    obtain ⟨e₀, he₀, hrefs⟩ := get_add_refs he'
    rw [hrefs, hcount, ← hs q e₀ he₀]
    split
    · next hpq =>
      subst hpq
      obtain rfl : e₀ = e := Option.some.inj (he₀.symm.trans he)
      exact Nat.mod_eq_of_lt hlt
    · rfl

/-- One handle less is counted right. -/
lemma Handles.Counted.down {s s' : Handles} (hs : s.Counted) (hrange : s.InRange) {p : Ptr}
    (hheap : s'.heap = s.heap.add_refs p (UINT - 1))
    (hcount : ∀ q, s.count q = s'.count q + if p = q then 1 else 0) : s'.Counted := by
  intro q e' he'
  rw [hheap] at he'
  obtain ⟨e, he, hrefs⟩ := get_add_refs he'
  have hq := hcount q
  rw [← hs q e he] at hq
  have hlt := hrange q e he
  rw [hrefs]
  split
  · next hpq =>
    rw [if_pos hpq] at hq
    have hpos := UINT_pos
    have : e.refs + (UINT - 1) = (e.refs - 1) + UINT := by omega
    rw [this, Nat.add_mod_right, Nat.mod_eq_of_lt (by omega)]
    omega
  · next hpq =>
    rw [if_neg hpq] at hq
    exact hq

/-- The elements of a list, with one of them taken out. -/
lemma count_erase_add {p : Ptr} {l : List Ptr} (hp : p ∈ l) (q : Ptr) :
    l.count q = (l.erase p).count q + if p = q then 1 else 0 := by
  have hpos := List.count_pos_iff.mpr hp
  rw [List.count_erase]
  by_cases hpq : p = q
  · subst hpq
    simp only [beq_self_eq_true, if_true]
    omega
  · simp [hpq]

/-- A call keeps the counters in range. -/
lemma run_inRange {c : HandleCall} {s s' : Handles} {r : ℤ} {fi : fuse_file_info}
    (hs : s.InRange) (h : c.run s = some ((r, fi), s')) : s'.InRange := by
  cases c with
  | spfs_open path fi =>
    rcases spfs_open_cases h with
      ⟨-, -, rfl⟩ | ⟨p, _, _, -, -, -, ⟨-, -, -, rfl⟩ | ⟨-, -, rfl⟩⟩
    · exact hs
    · exact hs
    · exact hs.add_refs (p := p) (n := 1) rfl
  | spfs_release fi =>
    obtain ⟨p, -, -, hheap, -⟩ := spfs_release_spec h
    exact hs.add_refs hheap
  | spfs_opendir path fi =>
    rcases spfs_opendir_cases h with ⟨-, -, rfl⟩ | ⟨_, _, -, -, ⟨-, -, rfl⟩ | ⟨-, -, rfl⟩⟩
    · exact hs
    · exact hs
    · exact hs
  | spfs_releasedir fi =>
    obtain ⟨p, -, -, hheap, -⟩ := spfs_releasedir_spec h
    exact hs.add_refs hheap

/-- An open leaves right counters right precisely if it finds nothing, or is refused, or the handle
can be counted. -/
lemma open_counted_iff {path : gstr} {fi fi' : fuse_file_info} {s s' : Handles} {r : ℤ}
    (hs : s.Counted) (h : spfs_open path fi s = some ((r, fi'), s')) :
    s'.Counted ↔ CanCount (.call (.spfs_open path fi)) s := by
  rcases spfs_open_cases h with
    ⟨hp, -, rfl⟩ | ⟨p, e, hook, hp, he, hhook, ⟨hw, hm, -, rfl⟩ | ⟨hfree, -, rfl⟩⟩
  · refine iff_of_true hs ?_
    intro p e hook hp'
    rw [hp] at hp'
    cases hp'
  · refine iff_of_true hs ?_
    intro p' e' hook' hp' he' hhook' hfree
    obtain rfl : p = p' := Option.some.inj (hp.symm.trans hp')
    obtain rfl : e = e' := Option.some.inj (he.symm.trans he')
    obtain rfl : hook = hook' := Option.some.inj (hhook.symm.trans hhook')
    rw [hfree hw] at hm
    cases hm
  · rw [hs.up_iff he rfl]
    · constructor
      · intro hlt p' e' hook' hp' he' _ _
        obtain rfl : p = p' := Option.some.inj (hp.symm.trans hp')
        obtain rfl : e = e' := Option.some.inj (he.symm.trans he')
        exact hlt
      · intro hcan
        exact hcan p e hook hp he hhook hfree
    · intro q
      simp only [Handles.count, List.count_cons, beq_iff_eq]
      omega

/-- An open of a directory leaves right counters right precisely if it finds no directory. -/
lemma opendir_counted_iff {path : gstr} {fi fi' : fuse_file_info} {s s' : Handles} {r : ℤ}
    (hs : s.Counted) (h : spfs_opendir path fi s = some ((r, fi'), s')) :
    s'.Counted ↔ CanCount (.call (.spfs_opendir path fi)) s := by
  rcases spfs_opendir_cases h with
    ⟨hp, -, rfl⟩ | ⟨p, e, hp, he, ⟨hc, -, rfl⟩ | ⟨hc, -, rfl⟩⟩
  · refine iff_of_true hs ?_
    intro p hp'
    rw [hp] at hp'
    cases hp'
  · refine iff_of_true hs ?_
    intro p' hp'
    obtain rfl : p = p' := Option.some.inj (hp.symm.trans hp')
    rw [Heap.children, he]
    exact hc
  · apply iff_of_false
    · -- the handle is there, and the counter is the old one
      intro hs'
      have hnew := hs' p e he
      rw [hs p e he] at hnew
      simp [Handles.count] at hnew
    · intro hcan
      have hnone := hcan p hp
      rw [Heap.children, he] at hnone
      exact hc hnone

/-- A call leaves right counters right precisely if it can count. -/
lemma run_counted_iff {c : HandleCall} {s s' : Handles} {r : ℤ} {fi : fuse_file_info}
    (hrange : s.InRange) (hs : s.Counted) (h : c.run s = some ((r, fi), s')) :
    s'.Counted ↔ CanCount (.call c) s := by
  cases c with
  | spfs_open path fi => exact open_counted_iff hs h
  | spfs_release fi =>
    obtain ⟨p, hp, -, hheap, hfiles, hdirs⟩ := spfs_release_spec h
    refine iff_of_true (hs.down hrange hheap ?_) trivial
    intro q
    have := count_erase_add hp q
    simp only [Handles.count, hfiles, hdirs]
    omega
  | spfs_opendir path fi => exact opendir_counted_iff hs h
  | spfs_releasedir fi =>
    obtain ⟨p, hp, -, hheap, hfiles, hdirs⟩ := spfs_releasedir_spec h
    refine iff_of_true (hs.down hrange hheap ?_) trivial
    intro q
    have := count_erase_add hp q
    simp only [Handles.count, hfiles, hdirs]
    omega

/-! ## Runs -/

/-- A step executes a call, or changes no handle. -/
lemma handle_step {w w' : World HandleInstr Handles ℕ} {a : Action ℕ HandleCall Unit}
    (h : handle_system.step w a = some w') :
    (w'.shared = w.shared ∧ w.Executes CanCount a) ∨
    ∃ c r fi, c.run w.shared = some ((r, fi), w'.shared) ∧
      (w.Executes CanCount a ↔ CanCount (.call c) w.shared) := by
  rcases System.step_shared h with ⟨t, c, rfl, -, hs⟩ | ⟨γ, t, o, ⟨c⟩, r, -, hex, he⟩
  · exact .inl ⟨hs, trivial⟩
  · right
    obtain ⟨⟨⟨r, fi⟩, s'⟩, hrun, hr⟩ := Option.map_eq_some_iff.mp he
    obtain ⟨-, rfl⟩ := Prod.mk.inj hr
    exact ⟨c, r, fi, hrun, hex CanCount⟩

/-- A call counts, or leaves the entities alone. -/
lemma run_heap {c : HandleCall} {s s' : Handles} {r : ℤ × fuse_file_info}
    (h : c.run s = some (r, s')) : s'.heap = s.heap ∨ ∃ p n, s'.heap = s.heap.add_refs p n := by
  obtain ⟨r, fi⟩ := r
  cases c with
  | spfs_open path fi =>
    rcases spfs_open_cases h with
      ⟨-, -, rfl⟩ | ⟨p, _, _, -, -, -, ⟨-, -, -, rfl⟩ | ⟨-, -, rfl⟩⟩
    · exact .inl rfl
    · exact .inl rfl
    · exact .inr ⟨p, 1, rfl⟩
  | spfs_release fi =>
    obtain ⟨p, -, -, hheap, -⟩ := spfs_release_spec h
    exact .inr ⟨p, _, hheap⟩
  | spfs_opendir path fi =>
    rcases spfs_opendir_cases h with ⟨-, -, rfl⟩ | ⟨_, _, -, -, ⟨-, -, rfl⟩ | ⟨-, -, rfl⟩⟩
    · exact .inl rfl
    · exact .inl rfl
    · exact .inl rfl
  | spfs_releasedir fi =>
    obtain ⟨p, -, -, hheap, -⟩ := spfs_releasedir_spec h
    exact .inr ⟨p, _, hheap⟩

/-- What does not depend on the counter of an entity stays the same. -/
lemma bind_add_refs {α : Type} {f : spfs_entity → Option α}
    (hf : ∀ e m, f { e with refs := m } = f e) (h : Heap) (p : Ptr) (n : ℕ) (q : Ptr) :
    ((h.add_refs p n).get q).bind f = (h.get q).bind f := by
  rw [Heap.add_refs, Heap.get_modify]
  split
  · rw [Option.bind_map]
    exact congrArg _ (funext fun e => hf e _)
  · rfl

/-- A path leads where it led, if the names and the tables stay. -/
lemma find_path_loop_congr {h h' : Heap} (hname : ∀ p, h'.name p = h.name p)
    (hchildren : ∀ p, h'.children p = h.children p) (fuel : ℕ) (elems : List gstr)
    (found : Option Ptr) :
    find_path_loop h' fuel elems found = find_path_loop h fuel elems found := by
  induction fuel generalizing elems found with
  | zero => rfl
  | succ fuel ih =>
    rcases found with _ | found
    · rfl
    · simp only [find_path_loop, hname, Heap.lookup, hchildren, ih]

/-- A count moves no entity. -/
lemma find_add_refs (s : Handles) (p : Ptr) (n : ℕ) (path : gstr) :
    Handles.find { s with heap := s.heap.add_refs p n } path = s.find path := by
  have hloop : ∀ fuel elems found,
      find_path_loop (s.heap.add_refs p n) fuel elems found =
        find_path_loop s.heap fuel elems found :=
    find_path_loop_congr (fun q => Heap.name_modify s.heap p q fun _ => rfl)
      fun q => Heap.children_modify s.heap p q fun _ => rfl
  unfold Handles.find spfs_entity_find_path
  simp only [hloop]
  rfl

/-- What a call has to read stays the same, so that no call makes another one undefined. -/
lemma HandleCall.defined_iff_of_add_refs {s s' : Handles} {p : Ptr} {n : ℕ}
    (h : s'.heap = s.heap.add_refs p n) (c : HandleCall) : c.Defined s' ↔ c.Defined s := by
  have hfind : ∀ path, s'.find path = s.find path := by
    intro path
    rw [← find_add_refs s p n path, Handles.find, h]
    rfl
  cases c with
  | spfs_open path fi =>
    have hhook : s'.heap.open_hook = s.heap.open_hook := by
      funext q
      rw [h]
      exact bind_add_refs (fun _ _ => rfl) s.heap p n q
    simp only [HandleCall.Defined, hfind, hhook]
  | spfs_release fi =>
    have hhook : s'.heap.release_hook = s.heap.release_hook := by
      funext q
      rw [h]
      exact bind_add_refs (fun _ _ => rfl) s.heap p n q
    simp only [HandleCall.Defined, hhook]
  | spfs_opendir path fi => exact Iff.rfl
  | spfs_releasedir fi => exact Iff.rfl

/-- No call makes another one undefined. -/
lemma defined_iff_of_run {c : HandleCall} {s s' : Handles} {r : ℤ × fuse_file_info}
    (h : c.run s = some (r, s')) (p : Prog HandleInstr Unit) : Defined s' p ↔ Defined s p := by
  rcases p with _ | ⟨⟨c'⟩, k⟩
  · exact Iff.rfl
  · have hc : c'.Defined s' ↔ c'.Defined s := by
      rcases run_heap h with heq | ⟨q, n, heq⟩
      · cases c' with
        | spfs_open path fi => simp only [HandleCall.Defined, Handles.find, heq]
        | spfs_release fi => simp only [HandleCall.Defined, heq]
        | spfs_opendir path fi => exact Iff.rfl
        | spfs_releasedir fi => exact Iff.rfl
      · exact c'.defined_iff_of_add_refs heq
    exact hc

/-- The thread that starts a call stands before it. -/
lemma right_start_iff {w : World HandleInstr Handles ℕ} (hw : Right w) (t : ℕ) (c : HandleCall) :
    Right { w with prog := Function.update w.prog t (handle_system.prog c) } ↔
      c.Defined w.shared := by
  constructor
  · intro hright
    have ht : Defined w.shared (Function.update w.prog t (handle_system.prog c) t) :=
      hright.defined t
    rw [Function.update_self] at ht
    exact ht
  · intro hc
    exact ⟨hw.counted, (Function.forall_update_iff _ fun _ p => Defined w.shared p).mpr
      ⟨hc, fun t' _ => hw.defined t'⟩⟩

/-- The thread that executes a call is idle afterwards, and the others stand where they stood. -/
lemma right_run_iff {w : World HandleInstr Handles ℕ} (hw : Right w) (hrange : w.shared.InRange)
    (t : ℕ) {c : HandleCall} {s' : Handles} {r : ℤ} {fi : fuse_file_info}
    (h : c.run w.shared = some ((r, fi), s')) :
    Right ⟨s', Function.update w.prog t (.ret ())⟩ ↔ CanCount (.call c) w.shared := by
  rw [← run_counted_iff hrange hw.counted h]
  refine ⟨fun hright => hright.counted, fun hcounted => ⟨hcounted, ?_⟩⟩
  refine (Function.forall_update_iff _ fun _ p => Defined s' p).mpr ⟨trivial, fun t' _ => ?_⟩
  exact (defined_iff_of_run h _).mpr (hw.defined t')

/-- The counters are in range, and each thread is idle or stands before its call. -/
structure Calling (w : World HandleInstr Handles ℕ) : Prop where
  inRange : w.shared.InRange
  progs : ∀ t, w.prog t = .ret () ∨ ∃ c, w.prog t = handle_system.prog c

/-- A step starts a call, or executes one. -/
lemma Calling.cases {w w' : World HandleInstr Handles ℕ} {a : Action ℕ HandleCall Unit}
    (hw : Calling w) (h : handle_system.step w a = some w') :
    (∃ t c, a = .start t c ∧
      w' = { w with prog := Function.update w.prog t (handle_system.prog c) }) ∨
    ∃ t c r fi s', a = .step t () ∧ w.prog t = handle_system.prog c ∧
      c.run w.shared = some ((r, fi), s') ∧ w' = ⟨s', Function.update w.prog t (.ret ())⟩ := by
  rcases System.step_cases h with
    ⟨t, c, u, rfl, -, -, rfl⟩ | ⟨γ, t, o, i, k, r, s', rfl, hp, he, rfl⟩
  · exact .inl ⟨t, c, rfl, rfl⟩
  · right
    rcases hw.progs t with hret | ⟨c, hcall⟩
    · cases hp.symm.trans hret
    · have heq : (.call i k : Prog HandleInstr Unit) = .call (.call c) fun _ => .ret () :=
        hp.symm.trans hcall
      cases heq
      obtain ⟨⟨⟨r, fi⟩, s''⟩, hrun, heq⟩ := Option.map_eq_some_iff.mp he
      obtain ⟨rfl, rfl⟩ := Prod.mk.inj heq
      exact ⟨t, c, r, fi, s'', rfl, hcall, hrun, rfl⟩

/-- A step leaves every thread before its call or done. -/
lemma Calling.step {w w' : World HandleInstr Handles ℕ} {a : Action ℕ HandleCall Unit}
    (hw : Calling w) (h : handle_system.step w a = some w') : Calling w' := by
  rcases hw.cases h with ⟨t, c, -, rfl⟩ | ⟨t, c, r, fi, s', -, -, hrun, rfl⟩
  · refine ⟨hw.inRange, ?_⟩
    exact (Function.forall_update_iff _ fun _ p => p = .ret () ∨ ∃ c, p = handle_system.prog c).mpr
      ⟨.inr ⟨c, rfl⟩, fun t' _ => hw.progs t'⟩
  · refine ⟨run_inRange hw.inRange hrun, ?_⟩
    exact (Function.forall_update_iff _ fun _ p => p = .ret () ∨ ∃ c, p = handle_system.prog c).mpr
      ⟨.inl rfl, fun t' _ => hw.progs t'⟩

/-- In a run of opens and releases of any entities every counter is the number of open handles, in
every state, and nothing is left undefined by C, precisely when no directory is opened with
`spfs_opendir`, no counter overflows, no link is opened, and no handle of a directory with a `mkdir`
is released with `spfs_release`. A call that fails changes nothing. -/
theorem refs_counted_iff {s₀ : Handles} {w : World HandleInstr Handles ℕ}
    {l : List (World HandleInstr Handles ℕ × Action ℕ HandleCall Unit)} (hs₀ : s₀.Unopened)
    (hl : Trace handle_system (.idle s₀) l w) :
    (((∀ s ∈ l, Right s.1) ∧ Right w) ↔
      ∀ s ∈ l, s.1.Starts (fun _ c s => c.Defined s) s.2 ∧ s.1.Executes CanCount s.2) ∧
    ∀ s ∈ l, s.1.Executes FailsQuietly s.2 := by
  constructor
  · refine Trace.forall_iff (fun _ _ => True)
      (fun w a => w.Starts (fun _ c s => c.Defined s) a ∧ w.Executes CanCount a)
      Calling Right hl ?_ ?_ ?_ ?_ fun _ _ => trivial
    · refine ⟨fun p e he => ?_, fun _ => .inl rfl⟩
      rw [hs₀.refs p e he]
      exact UINT_pos
    · refine ⟨fun p e he => ?_, fun _ => trivial⟩
      rw [hs₀.refs p e he]
      simp [World.idle, Handles.count, hs₀.files, hs₀.dirs]
    · exact fun w a w' hw _ h => hw.step h
    · intro w a w' hcalling hw _ h
      rcases hcalling.cases h with ⟨t, c, rfl, rfl⟩ | ⟨t, c, r, fi, s', rfl, hp, hrun, rfl⟩
      · rw [right_start_iff hw]
        exact (and_iff_left trivial).symm
      · rw [right_run_iff hw hcalling.inRange t hrun, World.Executes, hp]
        exact (and_iff_right trivial).symm
  · intro s _
    rw [World.executes_iff]
    intro t o γ i k _ _
    exact failsQuietly i s.1.shared

/-- The file system after `spfs_init`, with nothing open. -/
def nothing_open : Handles := ⟨spfs_init_heap, false, [], []⟩

/-- After `spfs_init` nothing is open. -/
lemma nothing_open_unopened : nothing_open.Unopened where
  refs p e he := by
    have hall : ∀ e ∈ spfs_init_heap.cells, e.refs = 0 := by decide +kernel
    exact hall e (List.mem_of_getElem? he)
  files := rfl
  dirs := rfl

/-- A call of FUSE, from its start to its end. -/
def calls (cs : List HandleCall) : List (Action ℕ HandleCall Unit) :=
  cs.flatMap fun c => [.start 0 c, .step 0 ()]

/-- The theorem at a run that opens the file `/connection` twice and the directory `/browse`, and
closes the file once. -/
theorem refs_counted_iff_connection : ∃ l w, Trace handle_system (.idle nothing_open) l w ∧
    w.shared.files = [2, 1] ∧ (w.shared.heap.get 1).map spfs_entity.refs = some 1 ∧
    (w.shared.heap.get 2).map spfs_entity.refs = some 1 ∧
    ((((∀ s ∈ l, Right s.1) ∧ Right w) ↔
      ∀ s ∈ l, s.1.Starts (fun _ c s => c.Defined s) s.2 ∧ s.1.Executes CanCount s.2) ∧
    ∀ s ∈ l, s.1.Executes FailsQuietly s.2) := by
  obtain ⟨l, w, hl, -, hfiles, hrefs, hdir⟩ := Trace.exists_of_run handle_system (fun _ _ => True)
    (.idle nothing_open)
    (calls [.spfs_open "/connection".toList ⟨none, 0⟩, .spfs_open "/connection".toList ⟨none, 0⟩,
      .spfs_open "/browse".toList ⟨none, 0⟩, .spfs_release ⟨some 1, 1⟩])
    (fun w => w.shared.files = [2, 1] ∧ (w.shared.heap.get 1).map spfs_entity.refs = some 1 ∧
      (w.shared.heap.get 2).map spfs_entity.refs = some 1) (by decide +kernel)
  exact ⟨l, w, hl, hfiles, hrefs, hdir, refs_counted_iff nothing_open_unopened hl⟩

/-- The root directory is opened and released. Nothing is open then, and the counter of the root
has wrapped around. -/
theorem releasedir_wraps_refs : ∃ l w, Trace handle_system (.idle nothing_open) l w ∧
    w.shared.files = [] ∧ w.shared.dirs = [] ∧
    (w.shared.heap.get 0).map spfs_entity.refs = some 4294967295 ∧ ¬ w.shared.Counted := by
  obtain ⟨l, w, hl, -, hfiles, hdirs, hrefs⟩ := Trace.exists_of_run handle_system
    (fun _ _ => True) (.idle nothing_open)
    (calls [.spfs_opendir "/".toList ⟨none, 0⟩, .spfs_releasedir ⟨some 0, 0⟩])
    (fun w => w.shared.files = [] ∧ w.shared.dirs = [] ∧
      (w.shared.heap.get 0).map spfs_entity.refs = some 4294967295) (by decide +kernel)
  refine ⟨l, w, hl, hfiles, hdirs, hrefs, ?_⟩
  intro hcounted
  obtain ⟨e, he, hrefs⟩ := Option.map_eq_some_iff.mp hrefs
  have h0 := hcounted 0 e he
  simp [Handles.count, hfiles, hdirs, hrefs] at h0

end Spotifile
