import Spotifile.Lib.Interleave

/-!
# Systems of which something is known

A second layer over the rely-guarantee rule. A `Guard` is what has been proved of the runs of a
system: how a step moves the shared state, and which choices the scheduler makes. Seen through the
guard, the system has only such steps (`System.guarded`), so that a proof about its programs may use
them. Where `strict` holds, an instruction that cannot be executed leads to the state `stuck`: a
discipline whose invariant fails there shows that no thread gets stuck
(`World.Sound.exec_ne_none`).
-/

namespace Spotifile.Lib

variable {ι : Type → Type} {σ T Op ω : Type}

/-- What is known of the steps of a system, and a state for the threads that cannot go on. -/
structure Guard (σ ω : Type) where
  choice : ω → Prop
  moves : σ → σ → Prop
  strict : Prop
  stuck : σ

open Classical in
/-- The system with the steps that the guard knows, and with those that get stuck. -/
noncomputable def System.guarded (S : System ι σ T Op ω) (G : Guard σ ω) : System ι σ T Op ω where
  exec i o s :=
    match S.exec i o s with
    | none => if G.strict ∧ G.choice o then some (none, G.stuck) else none
    | some r => if G.choice o ∧ G.moves s r.2 then some r else none
  prog := S.prog
  may := S.may

variable {S : System ι σ T Op ω} {G : Guard σ ω}

/-- What an instruction can do. -/
lemma System.exec_guarded_cases {γ : Type} {i : ι γ} {o : ω} {s s' : σ} {r : Option γ}
    (he : (S.guarded G).exec i o s = some (r, s')) :
    G.choice o ∧ ((S.exec i o s = none ∧ G.strict) ∨
      (S.exec i o s = some (r, s') ∧ G.moves s s')) := by
  unfold System.guarded at he
  rcases hs : S.exec i o s with _ | x
  · simp only [hs] at he
    split at he
    · next ho => exact ⟨ho.2, .inl ⟨rfl, ho.1⟩⟩
    · cases he
  · simp only [hs] at he
    split at he
    · next hknown =>
      obtain rfl := Option.some.inj he
      exact ⟨hknown.1, .inr ⟨rfl, hknown.2⟩⟩
    · cases he

/-- A known step of an instruction is taken. -/
lemma System.exec_guarded {γ : Type} {i : ι γ} {o : ω} {s s' : σ} {r : Option γ}
    (he : S.exec i o s = some (r, s')) (ho : G.choice o) (hmoves : G.moves s s') :
    (S.guarded G).exec i o s = some (r, s') := by
  simp only [System.guarded, he]
  exact if_pos ⟨ho, hmoves⟩

/-- Any other is not. -/
lemma System.exec_guarded_unknown {γ : Type} {i : ι γ} {o : ω} {s s' : σ} {r : Option γ}
    (he : S.exec i o s = some (r, s')) (hunknown : ¬ (G.choice o ∧ G.moves s s')) :
    (S.guarded G).exec i o s = none := by
  simp only [System.guarded, he]
  exact if_neg hunknown

/-- A guard that is not strict lets an instruction be blocked. -/
lemma System.exec_guarded_blocked {γ : Type} {i : ι γ} {o : ω} {s : σ}
    (he : S.exec i o s = none) (hs : ¬ G.strict) : (S.guarded G).exec i o s = none := by
  simp only [System.guarded, he]
  exact if_neg fun h => hs h.1

/-- A strict one does not. -/
lemma System.exec_guarded_stuck {γ : Type} {i : ι γ} {o : ω} {s : σ}
    (he : S.exec i o s = none) (hs : G.strict) (ho : G.choice o) :
    (S.guarded G).exec i o s = some (none, G.stuck) := by
  simp only [System.guarded, he]
  exact if_pos ⟨hs, ho⟩

/-- The rule for one instruction: it is executed, and the guard's step keeps to the discipline. -/
lemma Prog.Safe.guarded {D : Discipline ι σ T Op} {t : T} {α γ : Type} {Q : α → σ → Prop} {i : ι γ}
    {k : γ → Prog ι α} {s : σ} (P : σ → Prop) (hs : P s) (hstable : D.Stable t P)
    (hexec : G.strict → ∀ s o, D.inv s → P s → D.ok i s → G.choice o → S.exec i o s ≠ none)
    (hstep : ∀ s o r s', D.inv s → P s → D.ok i s → G.choice o → G.moves s s' →
      S.exec i o s = some (r, s') →
      D.inv s' ∧ (∀ u, u ≠ t → D.rely u s s') ∧ (r = none → P s') ∧
      ∀ v, r = some v → Prog.Safe (S.guarded G) D t Q (k v) s') :
    Prog.Safe (S.guarded G) D t Q (.call i k) s := by
  refine .call P hs hstable ?_
  intro s o r s' hinv hP hok he
  obtain ⟨ho, ⟨hnone, hstrict⟩ | ⟨hsome, hmoves⟩⟩ := S.exec_guarded_cases he
  · exact absurd hnone (hexec hstrict s o hinv hP hok ho)
  · exact hstep s o r s' hinv hP hok ho hmoves hsome

/-- No thread gets stuck, if the state of those that do breaks the invariant. -/
theorem World.Sound.exec_ne_none {D : Discipline ι σ T Op} {w : World ι σ T}
    (hw : w.Sound (S.guarded G) D) (hs : G.strict) (hstuck : ¬ D.inv G.stuck) {t : T} {γ : Type}
    {i : ι γ} {k : γ → Prog ι Unit} (hp : w.prog t = .call i k) (hok : D.ok i w.shared) {o : ω}
    (ho : G.choice o) : S.exec i o w.shared ≠ none := by
  intro hnone
  have hsafe := hw.safe t
  rw [hp] at hsafe
  obtain ⟨P, hP, -, hstep⟩ := hsafe
  have hinv := hstep w.shared o none G.stuck hw.inv hP hok (S.exec_guarded_stuck hnone hs ho)
  exact hstuck hinv.1

variable [DecidableEq T]

/-- One run after the other. -/
lemma Trace.append {w₀ w₁ w₂ : World ι σ T} {l l' : List (World ι σ T × Action T Op ω)}
    (hl : Trace S w₀ l w₁) (hl' : Trace S w₁ l' w₂) : Trace S w₀ (l ++ l') w₂ := by
  induction hl' with
  | nil => rwa [List.append_nil]
  | snoc _ hs ih =>
    rw [← List.append_assoc]
    exact ih.snoc hs

/-- A schedule whose choices are possible, one after the other, to a world with the property `P`. -/
lemma Trace.exists_of_schedule (S : System ι σ T Op ω) (w₀ : World ι σ T)
    (l : List (Action T Op ω)) (P : World ι σ T → Prop) [DecidablePred P]
    (h : (l.foldlM S.step w₀).any fun w => P w) :
    ∃ l' w, Trace S w₀ l' w ∧ l'.map Prod.snd = l ∧ P w := by
  have key : ∀ (w : World ι σ T) (l : List (Action T Op ω)) (w₁ : World ι σ T),
      l.foldlM S.step w₁ = some w → ∃ l', Trace S w₁ l' w ∧ l'.map Prod.snd = l := by
    intro w l
    induction l with
    | nil =>
      intro w₁ hw
      obtain rfl := Option.some.inj hw
      exact ⟨[], .nil, rfl⟩
    | cons a l ih =>
      intro w₁ hw
      rw [List.foldlM_cons] at hw
      obtain ⟨w₂, hstep, hrest⟩ := Option.bind_eq_some_iff.mp hw
      obtain ⟨l', hl', hmap⟩ := ih w₂ hrest
      refine ⟨[(w₁, a)] ++ l', Trace.append (.snoc .nil hstep) hl', ?_⟩
      simp [hmap]
  rcases hw : l.foldlM S.step w₀ with _ | w
  · simp [hw] at h
  · obtain ⟨l', hl', hmap⟩ := key w l w₀ hw
    exact ⟨l', w, hl', hmap, by simpa [hw] using h⟩

/-- The step of the guarded system. -/
lemma System.step_guarded {w w' : World ι σ T} {a : Action T Op ω}
    (h : S.step w a = some w') (hchoice : ∀ t o, a = .step t o → G.choice o)
    (hmoves : G.moves w.shared w'.shared) : (S.guarded G).step w a = some w' := by
  rcases S.step_cases h with ⟨t, op, u, rfl, hp, hm, rfl⟩ | ⟨γ, t, o, i, k, r, s, rfl, hp, he, rfl⟩
  · have hm : (S.guarded G).may t op w.shared = true := hm
    simp only [System.step, hp, hm, if_true]
    rfl
  · have hs : G.moves w.shared s := by
      rcases r with _ | v
      · exact hmoves
      · exact hmoves
    simp only [System.step, hp, System.exec_guarded he (hchoice t o rfl) hs]
    rcases r with _ | v
    · rfl
    · rfl

/-- A run whose steps the guard knows is a run of the guarded system. -/
theorem Trace.guarded {w₀ w : World ι σ T} {l : List (World ι σ T × Action T Op ω)}
    (hl : Trace S w₀ l w)
    (hmoves : ∀ l₁ w₁ a w₂, Trace S w₀ l₁ w₁ → S.step w₁ a = some w₂ → G.moves w₁.shared w₂.shared)
    (hchoice : ∀ p ∈ l, ∀ t o, p.2 = .step t o → G.choice o) : Trace (S.guarded G) w₀ l w := by
  induction hl with
  | nil => exact .nil
  | @snoc l w w' a hl hs ih =>
    refine (ih fun p hp => hchoice p (by simp [hp])).snoc ?_
    exact S.step_guarded hs (hchoice (w, a) (by simp)) (hmoves l w a w' hl hs)

/-- What every thread is relied on to do, a run does whose steps meet the conditions. -/
theorem Trace.relied_of {D : Discipline ι σ T Op} (hS : S.Disciplined D)
    {R : σ → σ → Prop} (hrefl : ∀ s, R s s)
    (htrans : ∀ {s s' s''}, R s s' → R s' s'' → R s s'')
    (hrely : ∀ t s s', D.rely t s s' → R s s') (hothers : ∀ t : T, ∃ u, u ≠ t)
    {w₀ w : World ι σ T} {l : List (World ι σ T × Action T Op ω)} (hl : Trace S w₀ l w)
    (h₀ : w₀.Sound S D) (hok : ∀ p ∈ l, D.Ok p.1 p.2) : R w₀.shared w.shared := by
  induction hl with
  | nil => exact hrefl _
  | @snoc l w w' a hl hs ih =>
    have hbefore : ∀ p ∈ l, D.Ok p.1 p.2 := fun p hp => hok p (by simp [hp])
    have hw : w.Sound S D := hl.sound hS h₀ hbefore
    rcases hw.step_rely (hok (w, a) (by simp)) hs with heq | ⟨t, hstep⟩
    · rw [heq]
      exact ih hbefore
    · obtain ⟨u, hu⟩ := hothers t
      exact htrans (ih hbefore) (hrely u _ _ (hstep u hu))

end Spotifile.Lib
