import Spotifile.Lib.Guard

/-!
# A system as a part of a larger one

A `System.Part` finds the instructions of a system among those of a larger one, and its state inside
the larger state. What keeps to a discipline in the part keeps to it in the whole
(`Prog.Safe.lift`), so that a proof about the part is used again when there are other operations
beside it.

`Prog.Uses` says that a program executes only instructions of some sort, which is seen from the
program alone, whatever the state (`Trace.uses`).
-/

namespace Spotifile.Lib

variable {ι κ : Type → Type} {σ τ T Op Op' ω α : Type}

/-- The program in a larger system. -/
def Prog.lift (f : {γ : Type} → ι γ → κ γ) : Prog ι α → Prog κ α
  | .ret a => .ret a
  | .call i k => .call (f i) fun v => (k v).lift f

/-- Two programs are lifted one after the other. -/
lemma Prog.lift_bind {β : Type} {f : {γ : Type} → ι γ → κ γ} (p : Prog ι α) (q : α → Prog ι β) :
    (p >>= q).lift f = (p.lift f >>= fun a => (q a).lift f) := by
  induction p with
  | ret a => rfl
  | call i k ih => exact congrArg _ (funext fun v => ih v)

/-- `C` executes the instructions of `S` on a part of its state, and leaves the rest. -/
structure System.Part (S : System ι σ T Op ω) (C : System κ τ T Op' ω) where
  get : τ → σ
  set : τ → σ → τ
  get_set : ∀ s m, get (set s m) = m
  instr : {γ : Type} → ι γ → κ γ
  exec : ∀ {γ : Type} (i : ι γ) (o : ω) (s : τ),
    C.exec (instr i) o s = (S.exec i o (get s)).map fun r => (r.1, set s r.2)

variable {S : System ι σ T Op ω} {C : System κ τ T Op' ω}

/-- The discipline of the part, for the whole. -/
def Discipline.along (D : Discipline ι σ T Op) (get : τ → σ) (ok : {γ : Type} → κ γ → τ → Prop)
    (okStart : T → Op' → τ → Prop) : Discipline κ τ T Op' where
  inv s := D.inv (get s)
  rely t s s' := D.rely t (get s) (get s')
  idle t s := D.idle t (get s)
  ok := ok
  okStart := okStart

/-- A program of the part keeps to the discipline in the whole. -/
theorem Prog.Safe.lift (P : S.Part C) {D : Discipline ι σ T Op}
    {ok : {γ : Type} → κ γ → τ → Prop} {okStart : T → Op' → τ → Prop} {t : T} {Q : α → σ → Prop}
    (hok : ∀ {γ : Type} (i : ι γ) s, ok (P.instr i) s → D.ok i (P.get s)) {p : Prog ι α} {s : τ}
    (hp : Prog.Safe S D t Q p (P.get s)) :
    Prog.Safe C (D.along P.get ok okStart) t (fun a s => Q a (P.get s)) (p.lift P.instr) s := by
  induction p generalizing s with
  | ret a => exact hp
  | call i k ih =>
    obtain ⟨A, hA, hstable, hstep⟩ := hp
    refine ⟨fun s => A (P.get s), hA, fun s s' hinv hrely => hstable _ _ hinv hrely, ?_⟩
    intro s o r s' hinv hA hi he
    rw [P.exec] at he
    obtain ⟨⟨r', m⟩, he', heq⟩ := Option.map_eq_some_iff.mp he
    obtain ⟨rfl, rfl⟩ := Prod.mk.inj heq
    obtain ⟨hinv', hrely, hnone, hsome⟩ := hstep _ o r' m hinv hA (hok i s hi) he'
    refine ⟨?_, ?_, ?_, fun v hv => ih v ?_⟩
    · show D.inv (P.get (P.set s m))
      rwa [P.get_set]
    · intro u hu
      show D.rely u (P.get s) (P.get (P.set s m))
      rw [P.get_set]
      exact hrely u hu
    · intro hr
      rw [P.get_set]
      exact hnone hr
    · rw [P.get_set]
      exact hsome v hv

/-- The guard of the part, for the whole. -/
def Guard.along (G : Guard σ ω) (get : τ → σ) (stuck : τ) : Guard τ ω where
  choice := G.choice
  moves s s' := G.moves (get s) (get s')
  strict := G.strict
  stuck := stuck

/-- What is known of the part is known of it in the whole. -/
noncomputable def System.Part.guarded (P : S.Part C) {G : Guard σ ω} (hG : ¬ G.strict)
    (stuck : τ) : (S.guarded G).Part (C.guarded (G.along P.get stuck)) where
  get := P.get
  set := P.set
  get_set := P.get_set
  instr := P.instr
  exec i o s := by
    rcases he : S.exec i o (P.get s) with _ | ⟨r, m⟩
    · have he' : C.exec (P.instr i) o s = none := by rw [P.exec, he, Option.map_none]
      rw [System.exec_guarded_blocked he hG, System.exec_guarded_blocked he' hG, Option.map_none]
    · have he' : C.exec (P.instr i) o s = some (r, P.set s m) := by
        rw [P.exec, he, Option.map_some]
      have hmoves : (G.along P.get stuck).moves s (P.set s m) ↔ G.moves (P.get s) m := by
        show G.moves (P.get s) (P.get (P.set s m)) ↔ _
        rw [P.get_set]
      by_cases hknown : G.choice o ∧ G.moves (P.get s) m
      · rw [System.exec_guarded he hknown.1 hknown.2,
          System.exec_guarded he' hknown.1 (hmoves.mpr hknown.2), Option.map_some]
      · rw [System.exec_guarded_unknown he hknown,
          System.exec_guarded_unknown he' (by rwa [← hmoves] at hknown), Option.map_none]

/-- A discipline is kept in the whole if the other operations keep it. -/
lemma System.Part.disciplined (P : S.Part C) {D : Discipline ι σ T Op}
    {ok : {γ : Type} → κ γ → τ → Prop} {okStart : T → Op' → τ → Prop} (hS : S.Disciplined D)
    (hok : ∀ {γ : Type} (i : ι γ) s, ok (P.instr i) s → D.ok i (P.get s))
    (hops : ∀ t op' s, D.inv (P.get s) → D.idle t (P.get s) → C.may t op' s = true →
      okStart t op' s →
      (∃ op, C.prog op' = (S.prog op).lift P.instr ∧ S.may t op (P.get s) = true ∧
        D.okStart t op (P.get s)) ∨
      Prog.Safe C (D.along P.get ok okStart) t (fun _ s => D.idle t (P.get s)) (C.prog op') s) :
    C.Disciplined (D.along P.get ok okStart) where
  stable t s s' hinv hrely hidle := hS.stable t _ _ hinv hrely hidle
  start t op' s hinv hidle hmay hstart := by
    rcases hops t op' s hinv hidle hmay hstart with ⟨op, hprog, hmay', hstart'⟩ | hsafe
    · rw [hprog]
      exact (hS.start t op _ hinv hidle hmay' hstart').lift P hok
    · exact hsafe

/-! ## Programs with instructions of one sort -/

section Uses

variable {γ β : Type} {A : {γ : Type} → ι γ → Prop}

/-- Every instruction of the program is one of these. -/
def Prog.Uses (A : {γ : Type} → ι γ → Prop) : Prog ι α → Prop
  | .ret _ => True
  | .call i k => A i ∧ ∀ v, (k v).Uses A

namespace Prog.Uses

/-- Two programs, one after the other. -/
lemma bind {p : Prog ι α} {q : α → Prog ι β} (hp : p.Uses A) (hq : ∀ a, (q a).Uses A) :
    (p >>= q).Uses A := by
  induction p with
  | ret a => exact hq a
  | call i k ih => exact ⟨hp.1, fun v => ih v (hp.2 v)⟩

/-- One instruction, and what is run with its value. -/
lemma of {i : ι γ} {k : γ → Prog ι α} (hi : A i) (hk : ∀ v, (k v).Uses A) :
    (Prog.of i >>= k).Uses A := ⟨hi, hk⟩

/-- What is run for every element. -/
lemma forEach {l : List β} {p : β → Prog ι Unit} (hp : ∀ b, (p b).Uses A) :
    (Prog.forEach l p).Uses A := by
  induction l with
  | nil => exact trivial
  | cons b l ih => exact (hp b).bind fun _ => ih

/-- A lifted program uses the lifted instructions. -/
lemma lift {f : {γ : Type} → ι γ → κ γ} {B : {γ : Type} → κ γ → Prop}
    (hf : ∀ {γ : Type} (i : ι γ), A i → B (f i)) {p : Prog ι α} (hp : p.Uses A) :
    (p.lift f).Uses B := by
  induction p with
  | ret a => exact trivial
  | call i k ih => exact ⟨hf i hp.1, fun v => ih v (hp.2 v)⟩

end Prog.Uses

/-- In a run, the threads have only instructions before them that the operations have. -/
theorem Trace.uses [DecidableEq T] (hS : ∀ op, (S.prog op).Uses A) {w₀ w : World ι σ T}
    {l : List (World ι σ T × Action T Op ω)} (hl : Trace S w₀ l w)
    (h₀ : ∀ t, (w₀.prog t).Uses A) (t : T) : (w.prog t).Uses A := by
  refine hl.always (I := fun w => ∀ t, (w.prog t).Uses A) h₀ ?_ t
  intro w a w' hw hstep t'
  rcases S.step_cases hstep with ⟨t, op, u, -, -, -, rfl⟩ | ⟨γ, t, o, i, k, r, s, -, hp, -, rfl⟩
  · by_cases ht : t' = t
    · subst ht
      simpa using hS op
    · simpa [Function.update_of_ne ht] using hw t'
  · rcases r with _ | v
    · exact hw t'
    · by_cases ht : t' = t
      · subst ht
        have hcall := hw t'
        rw [hp] at hcall
        simpa using hcall.2 v
      · simpa [Function.update_of_ne ht] using hw t'

end Uses

end Spotifile.Lib
