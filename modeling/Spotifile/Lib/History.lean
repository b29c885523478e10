import Spotifile.Lib.Interleave

/-!
# History variables

A property of a run may speak of more than the shared state holds: of what was counted since some
step, or of the step that came last. `System.observe` runs a system beside a value that watches its
instructions, and that no instruction reads. `Trace.exists_observed` says that watching takes no
run away.
-/

namespace Spotifile.Lib

variable {ι : Type → Type} {σ η T Op ω : Type}

/-- A system beside a value that watches its instructions: `saw i r s` is what an instruction that
was executed in the state `s` with the result `r` makes of it. -/
def System.observe (S : System ι σ T Op ω)
    (saw : {γ : Type} → ι γ → Option γ → σ → η → η) : System ι (σ × η) T Op ω where
  exec i o s := (S.exec i o s.1).map fun r => (r.1, r.2, saw i r.1 s.1 s.2)
  prog := S.prog
  may t op s := S.may t op s.1

/-- The world without the value that watches. -/
def World.forget (w : World ι (σ × η) T) : World ι σ T := ⟨w.shared.1, w.prog⟩

/-- The world with such a value. -/
def World.watched (w : World ι σ T) (n : η) : World ι (σ × η) T := ⟨(w.shared, n), w.prog⟩

variable {S : System ι σ T Op ω} {saw : {γ : Type} → ι γ → Option γ → σ → η → η}

/-- An instruction does to the state what it does unobserved. -/
lemma System.observe_exec {γ : Type} {i : ι γ} {o : ω} {s s' : σ × η} {r : Option γ}
    (h : (S.observe saw).exec i o s = some (r, s')) :
    S.exec i o s.1 = some (r, s'.1) ∧ s'.2 = saw i r s.1 s.2 := by
  obtain ⟨⟨r', s₁⟩, he, hr⟩ := Option.map_eq_some_iff.mp h
  obtain ⟨rfl, rfl⟩ := Prod.mk.inj hr
  exact ⟨he, rfl⟩

/-- A condition on instructions that does not speak of the value that watches. -/
lemma World.executes_forget {ok : {γ : Type} → ι γ → σ → Prop} {w : World ι (σ × η) T}
    {a : Action T Op ω} :
    w.forget.Executes ok a ↔ w.Executes (fun i s => ok i s.1) a := by
  cases a with
  | start t op => exact Iff.rfl
  | step t o => exact Iff.rfl

variable [DecidableEq T]

/-- A step can be watched. -/
lemma System.exists_observed {w w' : World ι σ T} {a : Action T Op ω} (h : S.step w a = some w')
    (n : η) : ∃ n', (S.observe saw).step (w.watched n) a = some (w'.watched n') := by
  rcases S.step_cases h with ⟨t, op, u, rfl, hp, hm, rfl⟩ | ⟨γ, t, o, i, k, r, s, rfl, hp, he, rfl⟩
  · refine ⟨n, ?_⟩
    simp [System.step, World.watched, hp, hm, System.observe]
  · refine ⟨saw i r w.shared n, ?_⟩
    have he' : (S.observe saw).exec i o (w.shared, n) = some (r, s, saw i r w.shared n) := by
      simp [System.observe, he]
    rcases r with _ | v <;> simp [System.step, World.watched, hp, he']

/-- Every trace is one of the observed system, with the value left out. -/
theorem Trace.exists_observed {w₀ w : World ι σ T} {l : List (World ι σ T × Action T Op ω)}
    (hl : Trace S w₀ l w) (n : η) :
    ∃ l' n', Trace (S.observe saw) (w₀.watched n) l' (w.watched n') ∧
      l'.map (fun p => (p.1.forget, p.2)) = l := by
  induction hl with
  | nil => exact ⟨[], n, .nil, rfl⟩
  | @snoc l w w' a _ hs ih =>
    obtain ⟨l', n₁, hl', hmap⟩ := ih
    obtain ⟨n₂, hstep⟩ : ∃ n', (S.observe saw).step (w.watched n₁) a = some (w'.watched n') :=
      System.exists_observed hs n₁
    exact ⟨_, n₂, hl'.snoc hstep, by rw [List.map_append, hmap]; rfl⟩

end Spotifile.Lib
