import Mathlib.Data.Int.Notation
import Mathlib.Data.List.Basic
import Mathlib.Tactic.Common

/-!
# A pipe

A writer puts values on a pipe, each in some format. A reader takes them off at the other end in
the same order, may ask for the format of the next one, and waits only while there is none. The
pipe may be cleared at any moment. Some of the waits are counted, until the count is reported.

`Pipe.Takes` says what each operation asks of the pipe and leaves behind, and `Pipe.Run` is a
history of operations. `Pipe.Run.exists_gone` is what a pipe promises: what was written is what is
gone followed by what is left, and what was read is among what is gone, in order.
-/

namespace Spotifile.Lib

variable {β φ : Type}

/-- The values that were not read yet with their formats, the next one first, and the waits that
were not reported yet. -/
@[ext]
structure Pipe (β φ : Type) where
  items : List (β × φ)
  waits : ℤ
deriving DecidableEq

namespace Pipe

/-- The new pipe. -/
def empty : Pipe β φ := ⟨[], 0⟩

/-- What may be done with a pipe. -/
inductive Op (β φ : Type)
  /-- Nothing. -/
  | skip
  /-- The values are written in this format. -/
  | push (format : φ) (values : List β)
  /-- The reader has room for `size` values and gets these. -/
  | pull (size : ℕ) (values : List β)
  /-- The reader is told the format of the next value. -/
  | peek (format : φ)
  /-- The reader goes to wait. -/
  | park
  /-- The reader goes to wait, and the wait is counted. -/
  | wait
  /-- The count is reported and starts again. -/
  | report (waits : ℤ)
  /-- The pipe is cleared, with its count. -/
  | clear
deriving DecidableEq

/-- What an operation asks of the pipe, and the pipe after it. -/
def Takes : Op β φ → Pipe β φ → Pipe β φ → Prop
  | .skip, s, s' => s' = s
  | .push format values, s, s' => s' = ⟨s.items ++ values.map fun v => (v, format), s.waits⟩
  | .pull size values, s, s' =>
    (∃ out, out.map Prod.fst = values ∧ s.items = out ++ s'.items) ∧ s'.waits = s.waits ∧
      values.length ≤ size ∧ (values = [] → size = 0 ∨ s.items = [])
  | .peek format, s, s' => (∃ v rest, s.items = (v, format) :: rest) ∧ s' = s
  | .park, s, s' => s.items = [] ∧ s' = s
  | .wait, s, s' => s.items = [] ∧ s' = ⟨[], s.waits + 1⟩
  | .report waits, s, s' => waits = s.waits ∧ s' = ⟨s.items, 0⟩
  | .clear, _, s' => s' = empty

/-- `Run ops s`: the operations, of which the last comes first, lead from the new pipe to `s`. -/
inductive Run : List (Op β φ) → Pipe β φ → Prop
  | nil : Run [] empty
  | cons {op : Op β φ} {ops : List (Op β φ)} {s s' : Pipe β φ} :
      Run ops s → Takes op s s' → Run (op :: ops) s'

/-- The values that an operation writes. -/
def Op.pushed : Op β φ → List β
  | .push _ values => values
  | _ => []

/-- The values that an operation reads. -/
def Op.pulled : Op β φ → List β
  | .pull _ values => values
  | _ => []

/-- All values that were written. -/
def pushed : List (Op β φ) → List β
  | [] => []
  | op :: ops => pushed ops ++ op.pushed

/-- All values that were read. -/
def pulled : List (Op β φ) → List β
  | [] => []
  | op :: ops => pulled ops ++ op.pulled

variable {op : Op β φ} {ops : List (Op β φ)} {s s' s'' : Pipe β φ}

/-! ## The pipe is determined by its history -/

/-- An operation leaves one pipe behind. -/
lemma Takes.eq (h : Takes op s s') (h' : Takes op s s'') : s' = s'' := by
  cases op with
  | pull size values =>
    obtain ⟨⟨out, hout, hitems⟩, hwaits, -⟩ := h
    obtain ⟨⟨out', hout', hitems'⟩, hwaits', -⟩ := h'
    have hlen : out.length = out'.length := by
      rw [← List.length_map Prod.fst, hout, ← hout', List.length_map]
    have hrest : s'.items = s''.items := (List.append_inj (hitems ▸ hitems') hlen).2
    exact Pipe.ext hrest (hwaits.trans hwaits'.symm)
  | skip | push _ _ | clear => exact Eq.trans h (Eq.symm h')
  | peek _ | park | wait | report _ => exact Eq.trans h.2 (Eq.symm h'.2)

/-- A history leads to one pipe. -/
lemma Run.eq (h : Run ops s) (h' : Run ops s') : s = s' := by
  induction h generalizing s' with
  | nil =>
    cases h'
    rfl
  | cons _ hs ih =>
    rcases h' with _ | ⟨hrun', hs'⟩
    obtain rfl := ih hrun'
    exact hs.eq hs'

/-- One more operation leads on precisely when the pipe takes it. -/
lemma Run.cons_iff (h : Run ops s) : Run (op :: ops) s' ↔ Takes op s s' := by
  constructor
  · intro h'
    rcases h' with _ | ⟨hrun, hs⟩
    obtain rfl := h.eq hrun
    exact hs
  · exact h.cons

/-! ## What a pipe promises -/

/-- What an operation takes off the pipe stood in front of what it leaves there, and holds what it
reads. -/
lemma Takes.exists_gone (h : Takes op s s') :
    ∃ gone, s.items.map Prod.fst ++ op.pushed = gone ++ s'.items.map Prod.fst ∧
      op.pulled.Sublist gone := by
  cases op with
  | push format values =>
    obtain rfl := h
    exact ⟨[], by simp [Op.pushed, Function.comp_def], List.Sublist.refl _⟩
  | pull size values =>
    obtain ⟨⟨out, hout, hitems⟩, -⟩ := h
    exact ⟨values, by simp [Op.pushed, hitems, hout], List.Sublist.refl _⟩
  | clear =>
    obtain rfl := h
    exact ⟨s.items.map Prod.fst, by simp [Op.pushed, empty], List.nil_sublist _⟩
  | skip =>
    obtain rfl := h
    exact ⟨[], by simp [Op.pushed], List.Sublist.refl _⟩
  | wait =>
    obtain ⟨hitems, rfl⟩ := h
    exact ⟨[], by simp [Op.pushed, hitems], List.Sublist.refl _⟩
  | peek _ | park | report _ =>
    obtain ⟨-, rfl⟩ := h
    exact ⟨[], by simp [Op.pushed], List.Sublist.refl _⟩

/-- What was written is what is gone followed by what is left, and what was read is among what is
gone, in order. -/
theorem Run.exists_gone (h : Run ops s) :
    ∃ gone, pushed ops = gone ++ s.items.map Prod.fst ∧ (pulled ops).Sublist gone := by
  induction h with
  | nil => exact ⟨[], rfl, List.Sublist.refl _⟩
  | @cons op ops s s' _ hs ih =>
    obtain ⟨gone, hpushed, hpulled⟩ := ih
    obtain ⟨gone', hpushed', hpulled'⟩ := hs.exists_gone
    refine ⟨gone ++ gone', ?_, hpulled.append hpulled'⟩
    rw [pushed, hpushed, List.append_assoc, hpushed', List.append_assoc]

end Pipe

end Spotifile.Lib
