import Spotifile.Lib.Interleave

/-!
# The paths of a program

What a thread executes between two points of its program, with the values that it got: a `Path`.
The values are arbitrary, so that the paths cover whatever the other threads do in between. A
property of every path of a program is a property of every thread that runs it
(`Trace.exists_path`).

`Prog.path_bind` and `Prog.ends_bind` take a path apart along the program.
-/

namespace Spotifile.Lib

/-- An instruction that was executed, and its value. -/
structure Ran (ι : Type → Type) where
  {γ : Type}
  instr : ι γ
  value : γ

namespace Prog

variable {ι : Type → Type} {α β γ : Type}

/-- `Path p l q`: after the instructions `l` the program `p` still has to run `q`. -/
inductive Path : Prog ι α → List (Ran ι) → Prog ι α → Prop
  | here (p : Prog ι α) : Path p [] p
  | step {δ : Type} {i : ι δ} {k : δ → Prog ι α} {v : δ} {l : List (Ran ι)} {q : Prog ι α} :
      Path (k v) l q → Path (.call i k) (⟨i, v⟩ :: l) q

/-- The program ends with the result `a` after the instructions `l`. -/
def Ends (p : Prog ι α) (l : List (Ran ι)) (a : α) : Prop := Path p l (.ret a)

/-- A program that is over runs nothing. -/
lemma path_ret {a : α} {l : List (Ran ι)} {q : Prog ι α} :
    Path (.ret a) l q ↔ l = [] ∧ q = .ret a := by
  constructor
  · rintro ⟨⟩
    exact ⟨rfl, rfl⟩
  · rintro ⟨rfl, rfl⟩
    exact .here _

/-- A path is empty, or begins with the first instruction. -/
lemma path_call {i : ι γ} {k : γ → Prog ι α} {l : List (Ran ι)} {q : Prog ι α} :
    Path (.call i k) l q ↔
      (l = [] ∧ q = .call i k) ∨ ∃ v l', l = ⟨i, v⟩ :: l' ∧ Path (k v) l' q := by
  constructor
  · intro h
    cases h with
    | here => exact .inl ⟨rfl, rfl⟩
    | step h => exact .inr ⟨_, _, rfl, h⟩
  · rintro (⟨rfl, rfl⟩ | ⟨v, l', rfl, h⟩)
    · exact .here _
    · exact .step h

/-- One path after the other. -/
lemma Path.append {p q r : Prog ι α} {l l' : List (Ran ι)} (h : Path p l q) (h' : Path q l' r) :
    Path p (l ++ l') r := by
  induction h with
  | here => exact h'
  | step _ ih => exact .step (ih h')

/-- A path of two programs, one after the other, is one of the first, or passes through its end. -/
lemma path_bind {p : Prog ι α} {f : α → Prog ι β} {l : List (Ran ι)} {q : Prog ι β} :
    Path (p >>= f) l q ↔ (∃ p', Path p l p' ∧ q = p' >>= f) ∨
      ∃ l₁ l₂ a, l = l₁ ++ l₂ ∧ Ends p l₁ a ∧ Path (f a) l₂ q := by
  constructor
  · intro h
    induction p generalizing l with
    | ret a => exact .inr ⟨[], l, a, rfl, .here _, h⟩
    | call i k ih =>
      rw [call_bind] at h
      rcases path_call.mp h with ⟨rfl, rfl⟩ | ⟨v, l', rfl, hrest⟩
      · exact .inl ⟨_, .here _, rfl⟩
      · rcases ih v hrest with ⟨p', hp', rfl⟩ | ⟨l₁, l₂, a, rfl, hl₁, hl₂⟩
        · exact .inl ⟨p', .step hp', rfl⟩
        · exact .inr ⟨_, l₂, a, rfl, .step hl₁, hl₂⟩
  · have hbind : ∀ {p p' : Prog ι α} {l : List (Ran ι)}, Path p l p' →
        Path (p >>= f) l (p' >>= f) := by
      intro p p' l h
      induction h with
      | here => exact .here _
      | step _ ih => exact .step ih
    rintro (⟨p', hp', rfl⟩ | ⟨l₁, l₂, a, rfl, hl₁, hl₂⟩)
    · exact hbind hp'
    · exact (hbind hl₁).append hl₂

/-- Only `ret` ends at once. -/
lemma ends_ret {a b : α} {l : List (Ran ι)} : Ends (.ret a : Prog ι α) l b ↔ l = [] ∧ b = a := by
  unfold Ends
  rw [path_ret, ret.injEq]

/-- A path to the end begins with the first instruction. -/
lemma ends_call {i : ι γ} {k : γ → Prog ι α} {l : List (Ran ι)} {a : α} :
    Ends (.call i k) l a ↔ ∃ v l', l = ⟨i, v⟩ :: l' ∧ Ends (k v) l' a := by
  unfold Ends
  rw [path_call]
  exact or_iff_right fun h => (by cases h.2)

/-- The two programs end one after the other. -/
lemma ends_bind {p : Prog ι α} {f : α → Prog ι β} {l : List (Ran ι)} {b : β} :
    Ends (p >>= f) l b ↔ ∃ l₁ l₂ a, l = l₁ ++ l₂ ∧ Ends p l₁ a ∧ Ends (f a) l₂ b := by
  constructor
  · intro h
    rcases path_bind.mp h with ⟨p', hp', hq⟩ | h
    · rcases p' with a | ⟨i, k⟩
      · refine ⟨l, [], a, (List.append_nil l).symm, hp', ?_⟩
        rw [ret_bind] at hq
        rw [← hq]
        exact .here _
      · cases hq
    · exact h
  · intro h
    exact path_bind.mpr (.inr h)

/-- Every instruction on a path of the program, with its value, has the property. -/
def Only (P : Ran ι → Prop) (p : Prog ι α) : Prop := ∀ l q, Path p l q → ∀ x ∈ l, P x

section Only

variable {P : Ran ι → Prop}

/-- A program that is over runs nothing that could be wrong. -/
lemma only_ret (a : α) : Only P (.ret a : Prog ι α) := by
  intro l q h
  obtain ⟨rfl, -⟩ := path_ret.mp h
  simp

/-- An instruction, and what is run with its value. -/
lemma only_call {i : ι γ} {k : γ → Prog ι α} (hi : ∀ v, P ⟨i, v⟩) (hk : ∀ v, Only P (k v)) :
    Only P (.call i k) := by
  intro l q h
  rcases path_call.mp h with ⟨rfl, -⟩ | ⟨v, l', rfl, hrest⟩
  · simp
  · intro x hx
    rcases List.mem_cons.mp hx with rfl | hx
    · exact hi v
    · exact hk v l' q hrest x hx

/-- One instruction. -/
lemma only_of {i : ι γ} (hi : ∀ v, P ⟨i, v⟩) : Only P (.of i) := only_call hi only_ret

/-- Two programs, one after the other. -/
lemma only_bind {p : Prog ι α} {f : α → Prog ι β} (hp : Only P p) (hf : ∀ a, Only P (f a)) :
    Only P (p >>= f) := by
  intro l q h
  rcases path_bind.mp h with ⟨p', hp', -⟩ | ⟨l₁, l₂, a, rfl, hl₁, hl₂⟩
  · exact hp l p' hp'
  · intro x hx
    rcases List.mem_append.mp hx with hx | hx
    · exact hp l₁ _ hl₁ x hx
    · exact hf a l₂ q hl₂ x hx

end Only

end Prog

/-! ## The paths of a run -/

section Trace

variable {ι : Type → Type} {σ T Op ω : Type} [DecidableEq T] {S : System ι σ T Op ω}

/-- What a thread executes while it starts no operation is a path of its program. -/
theorem Trace.exists_path {w₀ w : World ι σ T} {l : List (World ι σ T × Action T Op ω)}
    (hl : Trace S w₀ l w) (t : T) (hstart : ∀ s ∈ l, ∀ op, s.2 ≠ .start t op) :
    ∃ ran, Prog.Path (w₀.prog t) ran (w.prog t) ∧
      ∀ s ∈ l, ∀ (γ : Type) (o : ω) (i : ι γ) (k : γ → Prog ι Unit) (v : γ) (s' : σ),
        s.2 = .step t o → s.1.prog t = .call i k → S.exec i o s.1.shared = some (some v, s') →
          ⟨i, v⟩ ∈ ran := by
  induction hl with
  | nil => exact ⟨[], .here _, by simp⟩
  | @snoc l w w' a _ hs ih =>
    obtain ⟨ran, hpath, hran⟩ := ih fun s hs => hstart s (by simp [hs])
    rcases S.step_cases hs with
      ⟨u, op, _, rfl, -, -, rfl⟩ | ⟨γ, u, o, i, k, r, s', rfl, hp, he, rfl⟩
    · have hut : t ≠ u := by
        rintro rfl
        exact hstart (w, .start t op) (by simp) op rfl
      refine ⟨ran, by simpa [Function.update_of_ne hut] using hpath, ?_⟩
      intro s hs γ o i k v s' ha
      rcases List.mem_append.mp hs with hs | hs
      · exact hran s hs γ o i k v s' ha
      · obtain rfl := List.mem_singleton.mp hs
        cases ha
    · by_cases hut : t = u
      · subst hut
        rcases r with _ | v
        · refine ⟨ran, hpath, ?_⟩
          intro s hs γ' o' i' k' v' s'' ha hp' he'
          rcases List.mem_append.mp hs with hs | hs
          · exact hran s hs γ' o' i' k' v' s'' ha hp' he'
          · obtain rfl := List.mem_singleton.mp hs
            obtain ⟨-, rfl⟩ := Action.step.inj ha
            cases hp.symm.trans hp'
            cases he.symm.trans he'
        · refine ⟨ran ++ [⟨i, v⟩], ?_, ?_⟩
          · have hstep : Prog.Path (w.prog t) [⟨i, v⟩] (k v) := by
              rw [hp]
              exact .step (.here _)
            simpa using hpath.append hstep
          · intro s hs γ' o' i' k' v' s'' ha hp' he'
            rcases List.mem_append.mp hs with hs | hs
            · exact List.mem_append_left _ (hran s hs γ' o' i' k' v' s'' ha hp' he')
            · obtain rfl := List.mem_singleton.mp hs
              obtain ⟨-, rfl⟩ := Action.step.inj ha
              cases hp.symm.trans hp'
              cases he.symm.trans he'
              simp
      · refine ⟨ran, ?_, ?_⟩
        · rcases r with _ | v
          · exact hpath
          · simpa [Function.update_of_ne hut] using hpath
        · intro s hs γ' o' i' k' v' s'' ha
          rcases List.mem_append.mp hs with hs | hs
          · exact hran s hs γ' o' i' k' v' s'' ha
          · obtain rfl := List.mem_singleton.mp hs
            exact absurd (Action.step.inj ha).1.symm hut

end Trace

end Spotifile.Lib
