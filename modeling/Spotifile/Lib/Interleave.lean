import Mathlib.Logic.Function.Basic
import Mathlib.Tactic.Common

/-!
# Threads that interleave at atomic steps

A thread runs a program (`Prog`): a tree of atomic instructions, each continued by its result.
A `System` fixes what an instruction does to the shared state and which operations a thread may
start when it is idle. A `World` is the shared state together with what every thread still has
to run, and `System.step` lets the scheduler choose one thread and move it by one instruction.
Nothing is assumed about fairness: a `Trace` is any finite schedule.

Two rules for traces are stated here.

* `Trace.invariant`: a property of worlds that every allowed step keeps. `Trace.forall_iff` is its
  exact form, for a property that a step keeps precisely when the step is allowed.
* `Trace.sound`: the rely-guarantee rule. `Prog.Safe` is an assertion about the rest of one
  thread's program that survives whatever the other threads are relied on to do; a system in which
  every operation is safe keeps its invariant in every trace.

An instruction may be blocked (`exec` has no result) or may go to sleep and be tried again later
(`exec` has a new state but no value). A condition variable is built from these two by the
instantiation.
-/

namespace Spotifile.Lib

/-! ## Programs -/

/-- A program over the atomic instructions `ι`: either it has ended with a result, or it is about
to execute an instruction and goes on with the instruction's value. -/
inductive Prog (ι : Type → Type) (α : Type) : Type 1
  | ret (a : α) : Prog ι α
  | call {γ : Type} (i : ι γ) (k : γ → Prog ι α) : Prog ι α

namespace Prog

variable {ι : Type → Type} {α β γ : Type}

/-- One program after the other. -/
def bind : Prog ι α → (α → Prog ι β) → Prog ι β
  | .ret a, q => q a
  | .call i k, q => .call i fun v => (k v).bind q

instance : Monad (Prog ι) where
  pure := .ret
  bind := bind

/-- The program of a single instruction. -/
def of (i : ι γ) : Prog ι γ := .call i .ret

/-- A program for every element of a list, one after the other. -/
def forEach : List β → (β → Prog ι Unit) → Prog ι Unit
  | [], _ => .ret ()
  | b :: l, p => bind (p b) fun _ => forEach l p

/-- Nothing is run for no elements. -/
@[simp] lemma forEach_nil (p : β → Prog ι Unit) : forEach [] p = .ret () := rfl

/-- The program is run for the first element, and then for the rest. -/
lemma forEach_cons (b : β) (l : List β) (p : β → Prog ι Unit) :
    forEach (b :: l) p = p b >>= fun _ => forEach l p := rfl

/-- A value is a program that is over. -/
@[simp] lemma pure_eq (a : α) : (pure a : Prog ι α) = .ret a := rfl

/-- A program that is over goes on with its value. -/
@[simp] lemma ret_bind (a : α) (q : α → Prog ι β) : (Prog.ret a >>= q) = q a := rfl

/-- The first instruction of a sequence is that of its first program. -/
@[simp] lemma call_bind (i : ι γ) (k : γ → Prog ι α) (q : α → Prog ι β) :
    (Prog.call i k >>= q) = .call i fun v => k v >>= q := rfl

/-- One instruction, and what is run with its value. -/
@[simp] lemma of_bind (i : ι γ) (q : γ → Prog ι β) : (of i >>= q) = .call i q := rfl

end Prog

/-! ## Systems and their steps -/

/-- The value and the new state of an instruction that is executed in every state. -/
lemma executed_eq {γ σ : Type} {v r : Option γ} {s s' : σ} (h : some (v, s) = some (r, s')) :
    v = r ∧ s = s' :=
  Prod.mk.inj (Option.some.inj h)

/-- The same for an instruction that has ended. -/
lemma returned_eq {γ σ : Type} {v r : γ} {s s' : σ} (h : some (some v, s) = some (some r, s')) :
    v = r ∧ s = s' :=
  ⟨Option.some.inj (executed_eq h).1, (executed_eq h).2⟩

/-- What the instructions `ι` do to the shared states `σ`, and which operations `Op` the threads
`T` may start. The scheduler's `ω` resolves what an instruction leaves open. -/
structure System (ι : Type → Type) (σ T Op ω : Type) where
  /-- `none`: blocked. `some (none, s)`: the state is now `s` and the instruction is to be tried
  again. `some (some v, s)`: it has ended with the value `v`. -/
  exec : {γ : Type} → ι γ → ω → σ → Option (Option γ × σ)
  /-- The program of an operation. -/
  prog : Op → Prog ι Unit
  /-- Whether an idle thread may start an operation. -/
  may : T → Op → σ → Bool

/-- The shared state, and the rest of every thread's program. -/
structure World (ι : Type → Type) (σ T : Type) where
  shared : σ
  prog : T → Prog ι Unit

/-- The shared state `s` with every thread idle. -/
def World.idle {ι : Type → Type} {σ T : Type} (s : σ) : World ι σ T := ⟨s, fun _ => .ret ()⟩

/-- A choice of the scheduler: an idle thread starts an operation, or a thread executes its next
instruction. -/
inductive Action (T Op ω : Type)
  | start (t : T) (op : Op)
  | step (t : T) (o : ω)

section System

variable {ι : Type → Type} {σ T Op ω : Type} [DecidableEq T]

/-- One step of the system, if the scheduler's choice is possible. -/
def System.step (S : System ι σ T Op ω) (w : World ι σ T) :
    Action T Op ω → Option (World ι σ T)
  | .start t op =>
    match w.prog t with
    | .ret _ =>
      if S.may t op w.shared then some { w with prog := Function.update w.prog t (S.prog op) }
      else none
    | .call _ _ => none
  | .step t o =>
    match w.prog t with
    | .ret _ => none
    | .call i k =>
      match S.exec i o w.shared with
      | none => none
      | some (none, s) => some { w with shared := s }
      | some (some v, s) => some ⟨s, Function.update w.prog t (k v)⟩

/-- `Trace S w₀ l w`: from `w₀` the system can run to `w`; `l` holds the worlds in between, each
with the choice made in it. -/
inductive Trace (S : System ι σ T Op ω) (w₀ : World ι σ T) :
    List (World ι σ T × Action T Op ω) → World ι σ T → Prop
  | nil : Trace S w₀ [] w₀
  | snoc {l : List (World ι σ T × Action T Op ω)} {w w' : World ι σ T} {a : Action T Op ω} :
      Trace S w₀ l w → S.step w a = some w' → Trace S w₀ (l ++ [(w, a)]) w'

/-- Where the choice makes a thread execute an instruction, `ok` holds of it and of the state
before it. -/
def World.Executes (ok : {γ : Type} → ι γ → σ → Prop) (w : World ι σ T) :
    Action T Op ω → Prop
  | .start _ _ => True
  | .step t _ =>
    match w.prog t with
    | .ret _ => True
    | .call i _ => ok i w.shared

/-- Where the choice makes a thread start an operation, `ok` holds of it and of the state before
it. -/
def World.Starts (ok : T → Op → σ → Prop) (w : World ι σ T) : Action T Op ω → Prop
  | .start t op => ok t op w.shared
  | .step _ _ => True

omit [DecidableEq T] in
/-- What it means that an action may only execute such instructions. -/
lemma World.executes_iff {ok : {γ : Type} → ι γ → σ → Prop} {w : World ι σ T}
    {a : Action T Op ω} : w.Executes ok a ↔ ∀ t o (γ : Type) (i : ι γ) (k : γ → Prog ι Unit),
      a = .step t o → w.prog t = .call i k → ok i w.shared := by
  rcases a with ⟨t, op⟩ | ⟨t, o⟩
  · exact ⟨fun _ _ _ _ _ _ h => (nomatch h), fun _ => trivial⟩
  · constructor
    · intro h t' o' γ i k ha hp
      obtain ⟨rfl, rfl⟩ := Action.step.inj ha
      rwa [World.Executes, hp] at h
    · intro h
      rcases hp : w.prog t with u | ⟨i, k⟩
      · rw [World.Executes, hp]
        trivial
      · rw [World.Executes, hp]
        exact h t o _ i k rfl hp

/-- What a step can do: start an operation in an idle thread, send an instruction to sleep, or
complete it. -/
lemma System.step_cases {S : System ι σ T Op ω} {w w' : World ι σ T} {a : Action T Op ω}
    (h : S.step w a = some w') :
    (∃ t op u, a = .start t op ∧ w.prog t = .ret u ∧ S.may t op w.shared = true ∧
      w' = { w with prog := Function.update w.prog t (S.prog op) }) ∨
    (∃ (γ : Type) (t : T) (o : ω) (i : ι γ) (k : γ → Prog ι Unit) (r : Option γ) (s : σ),
      a = .step t o ∧ w.prog t = .call i k ∧ S.exec i o w.shared = some (r, s) ∧
      w' = match r with
        | none => { w with shared := s }
        | some v => ⟨s, Function.update w.prog t (k v)⟩) := by
  rcases a with ⟨t, op⟩ | ⟨t, o⟩
  · left
    unfold System.step at h
    rcases hp : w.prog t with u | ⟨i, k⟩
    · simp only [hp] at h
      split at h
      · next hm => exact ⟨t, op, u, rfl, hp, hm, (Option.some.inj h).symm⟩
      · cases h
    · simp only [hp] at h
      cases h
  · right
    unfold System.step at h
    rcases hp : w.prog t with u | ⟨i, k⟩
    · simp only [hp] at h
      cases h
    · simp only [hp] at h
      rcases he : S.exec i o w.shared with _ | ⟨_ | v, s⟩
      · simp only [he] at h
        cases h
      · simp only [he, Option.some.injEq] at h
        exact ⟨_, t, o, i, k, none, s, rfl, hp, he, h.symm⟩
      · simp only [he, Option.some.injEq] at h
        exact ⟨_, t, o, i, k, some v, s, rfl, hp, he, h.symm⟩

/-- The shared state moves only by the instruction of the thread that was chosen. -/
lemma System.step_shared {S : System ι σ T Op ω} {w w' : World ι σ T} {a : Action T Op ω}
    (h : S.step w a = some w') :
    (∃ t op, a = .start t op ∧ S.may t op w.shared = true ∧ w'.shared = w.shared) ∨
    (∃ (γ : Type) (t : T) (o : ω) (i : ι γ) (r : Option γ), a = .step t o ∧
      (∀ ok : {γ : Type} → ι γ → σ → Prop, w.Executes @ok a ↔ ok i w.shared) ∧
      S.exec i o w.shared = some (r, w'.shared)) := by
  rcases S.step_cases h with ⟨t, op, u, ha, -, hm, hw⟩ | ⟨γ, t, o, i, k, r, s, ha, hp, he, hw⟩
  · left
    refine ⟨t, op, ha, hm, ?_⟩
    rw [hw]
  · right
    refine ⟨γ, t, o, i, r, ha, ?_, ?_⟩
    · intro ok
      rw [ha, World.Executes, hp]
    · rw [he, hw]
      cases r <;> rfl

/-! ## Schedules that can be run -/

section Run

instance World.decidableExecutes {ok : {γ : Type} → ι γ → σ → Prop}
    [∀ {γ : Type} (i : ι γ) s, Decidable (ok i s)] (w : World ι σ T) :
    (a : Action T Op ω) → Decidable (w.Executes ok a)
  | .start _ _ => .isTrue trivial
  | .step t _ =>
    match h : w.prog t with
    | .ret _ => .isTrue (by rw [World.Executes, h]; trivial)
    | .call i _ => decidable_of_iff (ok i w.shared) (by rw [World.Executes, h])

instance World.decidableStarts {ok : T → Op → σ → Prop} [∀ t op s, Decidable (ok t op s)]
    (w : World ι σ T) : (a : Action T Op ω) → Decidable (w.Starts ok a)
  | .start t op => inferInstanceAs (Decidable (ok t op w.shared))
  | .step _ _ => .isTrue trivial

/-- The world after a schedule, if every choice in it is possible and meets `ok`. -/
def System.run (S : System ι σ T Op ω) (ok : World ι σ T → Action T Op ω → Prop)
    [∀ w a, Decidable (ok w a)] (w : World ι σ T) : List (Action T Op ω) → Option (World ι σ T)
  | [] => some w
  | a :: l => if ok w a then (S.step w a).bind fun w' => S.run ok w' l else none

/-- A schedule that runs is a trace. -/
lemma Trace.of_run {S : System ι σ T Op ω} {ok : World ι σ T → Action T Op ω → Prop}
    [∀ w a, Decidable (ok w a)] {w₀ w : World ι σ T} {l : List (Action T Op ω)}
    (h : S.run ok w₀ l = some w) : ∃ l', Trace S w₀ l' w ∧ ∀ p ∈ l', ok p.1 p.2 := by
  have key : ∀ (l : List (Action T Op ω)) (l₀ : List (World ι σ T × Action T Op ω))
      (w₁ : World ι σ T), Trace S w₀ l₀ w₁ → (∀ p ∈ l₀, ok p.1 p.2) →
      S.run ok w₁ l = some w → ∃ l', Trace S w₀ l' w ∧ ∀ p ∈ l', ok p.1 p.2 := by
    intro l
    induction l with
    | nil =>
      intro l₀ w₁ hl₀ hok h
      obtain rfl := Option.some.inj h
      exact ⟨l₀, hl₀, hok⟩
    | cons a l ih =>
      intro l₀ w₁ hl₀ hok h
      unfold System.run at h
      split at h
      · next ha =>
        obtain ⟨w₂, hstep, hrun⟩ := Option.bind_eq_some_iff.mp h
        refine ih _ w₂ (hl₀.snoc hstep) ?_ hrun
        intro p hp
        rcases List.mem_append.mp hp with hp | hp
        · exact hok p hp
        · obtain rfl := List.mem_singleton.mp hp
          exact ha
      · cases h
  exact key l [] w₀ .nil (by simp) h

/-- A schedule that runs from `w₀`, with every choice meeting `ok`, to a world with the property
`P` shows that there is such a trace. -/
lemma Trace.exists_of_run (S : System ι σ T Op ω) (ok : World ι σ T → Action T Op ω → Prop)
    [∀ w a, Decidable (ok w a)] (w₀ : World ι σ T) (l : List (Action T Op ω))
    (P : World ι σ T → Prop) [DecidablePred P] (h : (S.run ok w₀ l).any fun w => P w) :
    ∃ l' w, Trace S w₀ l' w ∧ (∀ p ∈ l', ok p.1 p.2) ∧ P w := by
  rcases hw : S.run ok w₀ l with _ | w
  · simp [hw] at h
  · obtain ⟨l', hl', hok⟩ := Trace.of_run hw
    exact ⟨l', w, hl', hok, by simpa [hw] using h⟩

end Run

/-! ## Invariants of traces -/

/-- What holds at the start and is kept by every allowed step holds at the end of a trace whose
steps are all allowed. -/
theorem Trace.invariant {S : System ι σ T Op ω} {w₀ w : World ι σ T}
    {l : List (World ι σ T × Action T Op ω)} {ok : World ι σ T → Action T Op ω → Prop}
    {I : World ι σ T → Prop} (hl : Trace S w₀ l w) (h₀ : I w₀)
    (hstep : ∀ w a w', I w → ok w a → S.step w a = some w' → I w')
    (hok : ∀ p ∈ l, ok p.1 p.2) : I w := by
  induction hl with
  | nil => exact h₀
  | @snoc l w w' a _ hs ih =>
    refine hstep w a w' (ih fun p hp => hok p (by simp [hp])) ?_ hs
    exact hok (w, a) (by simp)

/-- What holds at the start and is kept by every step holds at the end of every trace. -/
lemma Trace.always {S : System ι σ T Op ω} {w₀ w : World ι σ T}
    {l : List (World ι σ T × Action T Op ω)} {I : World ι σ T → Prop} (hl : Trace S w₀ l w)
    (h₀ : I w₀) (hstep : ∀ w a w', I w → S.step w a = some w' → I w') : I w := by
  induction hl with
  | nil => exact h₀
  | snoc _ hs ih => exact hstep _ _ _ ih hs

/-- The exact form of `Trace.invariant`: if a step from a good world leads to a good world
precisely when it is allowed, then a trace from a good world is good throughout precisely when
all its steps are allowed. `J` is what holds in every trace whose steps meet `asm`. -/
theorem Trace.forall_iff {S : System ι σ T Op ω} {w₀ w : World ι σ T}
    {l : List (World ι σ T × Action T Op ω)} (asm ok : World ι σ T → Action T Op ω → Prop)
    (J I : World ι σ T → Prop) (hl : Trace S w₀ l w) (hJ₀ : J w₀) (hI₀ : I w₀)
    (hJ : ∀ w a w', J w → asm w a → S.step w a = some w' → J w')
    (hI : ∀ w a w', J w → I w → asm w a → S.step w a = some w' → (I w' ↔ ok w a))
    (hasm : ∀ p ∈ l, asm p.1 p.2) :
    ((∀ p ∈ l, I p.1) ∧ I w) ↔ ∀ p ∈ l, ok p.1 p.2 := by
  induction hl with
  | nil => simp [hI₀]
  | @snoc l w w' a hl hs ih =>
    have hJw : J w := hl.invariant hJ₀ hJ fun p hp => hasm p (by simp [hp])
    have hiff := fun h => hI w a w' hJw h (hasm (w, a) (by simp)) hs
    have ih := ih fun p hp => hasm p (by simp [hp])
    constructor
    · rintro ⟨hstates, hw'⟩ p hp
      have hw : I w := hstates (w, a) (by simp)
      rcases List.mem_append.mp hp with hp | hp
      · exact ih.mp ⟨fun q hq => hstates q (by simp [hq]), hw⟩ p hp
      · obtain rfl := List.mem_singleton.mp hp
        exact (hiff hw).mp hw'
    · intro hok
      obtain ⟨hstates, hw⟩ := ih.mpr fun p hp => hok p (by simp [hp])
      refine ⟨?_, (hiff hw).mpr (hok (w, a) (by simp))⟩
      intro p hp
      rcases List.mem_append.mp hp with hp | hp
      · exact hstates p hp
      · obtain rfl := List.mem_singleton.mp hp
        exact hw

end System

/-! ## Rely and guarantee -/

section Rely

variable {ι : Type → Type} {σ T Op ω : Type}

/-- The terms on which the threads of a system share its state. -/
structure Discipline (ι : Type → Type) (σ T Op : Type) where
  /-- What holds between any two steps. -/
  inv : σ → Prop
  /-- What thread `t` relies on a step of another thread to do. -/
  rely : T → σ → σ → Prop
  /-- What holds while thread `t` is idle. -/
  idle : T → σ → Prop
  /-- When an instruction may be executed. -/
  ok : {γ : Type} → ι γ → σ → Prop
  /-- When an operation may be started. -/
  okStart : T → Op → σ → Prop

variable (S : System ι σ T Op ω) (D : Discipline ι σ T Op)

/-- The condition that a discipline puts on a scheduler's choice. -/
def Discipline.Ok (w : World ι σ T) (a : Action T Op ω) : Prop :=
  w.Starts D.okStart a ∧ w.Executes D.ok a

/-- An assertion that no other thread can break. -/
def Discipline.Stable (t : T) (P : σ → Prop) : Prop :=
  ∀ s s', D.inv s' → D.rely t s s' → P s → P s'

/-- The rest of a program of thread `t` keeps to the discipline and ends in `Q`: in front of each
instruction stands an assertion that no other thread can break, under which the instruction keeps
the invariant and does to the other threads only what they rely on. -/
def Prog.Safe {α : Type} (t : T) (Q : α → σ → Prop) : Prog ι α → σ → Prop
  | .ret a, s => Q a s
  | .call i k, s => ∃ P : σ → Prop, P s ∧ D.Stable t P ∧
      ∀ s o r s', D.inv s → P s → D.ok i s → S.exec i o s = some (r, s') →
        D.inv s' ∧ (∀ u, u ≠ t → D.rely u s s') ∧ (r = none → P s') ∧
        ∀ v, r = some v → Prog.Safe t Q (k v) s'

variable {S D}

namespace Prog.Safe

variable {α β : Type} {t : T}

/-- A program that is over is safe if its assertion holds. -/
lemma ret {Q : α → σ → Prop} {a : α} {s : σ} (h : Q a s) :
    Prog.Safe S D t Q (.ret a) s := h

/-- Two programs in sequence, with the assertion between them. -/
theorem bind {Q : β → σ → Prop} {R : α → σ → Prop} {p : Prog ι α} {q : α → Prog ι β} {s : σ}
    (hp : Prog.Safe S D t R p s) (hq : ∀ a s, R a s → Prog.Safe S D t Q (q a) s) :
    Prog.Safe S D t Q (p >>= q) s := by
  induction p generalizing s with
  | ret a => exact hq a s hp
  | call i k ih =>
    obtain ⟨P, hs, hstable, hstep⟩ := hp
    refine ⟨P, hs, hstable, ?_⟩
    intro s o r s' hinv hP hok he
    obtain ⟨hinv', hrely, hnone, hsome⟩ := hstep s o r s' hinv hP hok he
    exact ⟨hinv', hrely, hnone, fun v hv => ih v (hsome v hv)⟩

/-- The assertion at the end may be weakened. -/
lemma mono {Q Q' : α → σ → Prop} {p : Prog ι α} {s : σ} (hp : Prog.Safe S D t Q p s)
    (h : ∀ a s, Q a s → Q' a s) : Prog.Safe S D t Q' p s := by
  induction p generalizing s with
  | ret a => exact h a s hp
  | call i k ih =>
    obtain ⟨P, hs, hstable, hstep⟩ := hp
    refine ⟨P, hs, hstable, ?_⟩
    intro s o r s' hinv hP hok he
    obtain ⟨hinv', hrely, hnone, hsome⟩ := hstep s o r s' hinv hP hok he
    exact ⟨hinv', hrely, hnone, fun v hv => ih v (hsome v hv)⟩

/-- The rule for one instruction under the assertion `P`. -/
lemma call {γ : Type} {Q : α → σ → Prop} {i : ι γ} {k : γ → Prog ι α} {s : σ} (P : σ → Prop)
    (hs : P s) (hstable : D.Stable t P)
    (hstep : ∀ s o r s', D.inv s → P s → D.ok i s → S.exec i o s = some (r, s') →
      D.inv s' ∧ (∀ u, u ≠ t → D.rely u s s') ∧ (r = none → P s') ∧
      ∀ v, r = some v → Prog.Safe S D t Q (k v) s') :
    Prog.Safe S D t Q (.call i k) s := ⟨P, hs, hstable, hstep⟩

/-- What other threads do leaves a safe program safe. -/
lemma of_rely {Q : α → σ → Prop} {p : Prog ι α} {s s' : σ}
    (hQ : ∀ a, D.Stable t (Q a)) (hp : Prog.Safe S D t Q p s) (hinv : D.inv s')
    (hrely : D.rely t s s') : Prog.Safe S D t Q p s' := by
  cases p with
  | ret a => exact hQ a s s' hinv hrely hp
  | call i k =>
    obtain ⟨P, hs, hstable, hstep⟩ := hp
    exact ⟨P, hstable s s' hinv hrely hs, hstable, hstep⟩

end Prog.Safe

variable (S D) in
/-- From `P` the program keeps to the discipline and ends in `Q`. -/
def Prog.Triple {α : Type} (t : T) (P : σ → Prop) (p : Prog ι α) (Q : α → σ → Prop) : Prop :=
  ∀ s, P s → Prog.Safe S D t Q p s

namespace Prog.Triple

variable {α β γ : Type} {t : T} {P : σ → Prop}

/-- The rule for a program that is over. -/
lemma ret {Q : α → σ → Prop} {a : α} (h : ∀ s, P s → Q a s) :
    Prog.Triple S D t P (.ret a) Q := h

/-- The rule for two programs, one after the other. -/
lemma bind {p : Prog ι α} {q : α → Prog ι β} {R : α → σ → Prop} {Q : β → σ → Prop}
    (hp : Prog.Triple S D t P p R) (hq : ∀ a, Prog.Triple S D t (R a) (q a) Q) :
    Prog.Triple S D t P (p >>= q) Q :=
  fun s hs => (hp s hs).bind fun a s' => hq a s'

/-- A single instruction, under an assertion that no other thread can break. -/
lemma of {i : ι γ} {Q : γ → σ → Prop} (hstable : D.Stable t P)
    (hstep : ∀ s o r s', D.inv s → P s → D.ok i s → S.exec i o s = some (r, s') →
      D.inv s' ∧ (∀ u, u ≠ t → D.rely u s s') ∧ (r = none → P s') ∧ ∀ v, r = some v → Q v s') :
    Prog.Triple S D t P (Prog.of i) Q :=
  fun _ hs => .call P hs hstable hstep

/-- A loop keeps what its body keeps. -/
lemma forEach {l : List β} {body : β → Prog ι Unit}
    (h : ∀ b ∈ l, Prog.Triple S D t P (body b) fun _ => P) :
    Prog.Triple S D t P (Prog.forEach l body) fun _ => P := by
  induction l with
  | nil => exact ret fun _ hs => hs
  | cons b l ih =>
    rw [Prog.forEach_cons]
    exact (h b (by simp)).bind fun _ => ih fun b' hb' => h b' (by simp [hb'])

end Prog.Triple

end Rely

section Soundness

variable {ι : Type → Type} {σ T Op ω : Type}
variable (S : System ι σ T Op ω) (D : Discipline ι σ T Op)

/-- A world in which the invariant holds and every thread is safe. -/
structure World.Sound (w : World ι σ T) : Prop where
  inv : D.inv w.shared
  safe : ∀ t, Prog.Safe S D t (fun _ => D.idle t) (w.prog t) w.shared

/-- Every operation keeps to the discipline. -/
structure System.Disciplined : Prop where
  stable : ∀ t, D.Stable t (D.idle t)
  start : ∀ t op s, D.inv s → D.idle t s → S.may t op s = true → D.okStart t op s →
    Prog.Safe S D t (fun _ => D.idle t) (S.prog op) s

variable {S D}

/-- A world with idle threads is sound if its state is. -/
lemma World.sound_idle {s : σ} (hinv : D.inv s) (hidle : ∀ t, D.idle t s) :
    (World.idle s : World ι σ T).Sound S D :=
  ⟨hinv, hidle⟩

variable [DecidableEq T]

/-- An allowed step leads from a sound world to a sound world. -/
lemma World.Sound.step (hS : S.Disciplined D) {w w' : World ι σ T} {a : Action T Op ω}
    (hw : w.Sound S D) (hok : D.Ok w a) (h : S.step w a = some w') : w'.Sound S D := by
  rcases S.step_cases h with ⟨t, op, u, rfl, hp, hm, rfl⟩ | ⟨γ, t, o, i, k, r, s, rfl, hp, he, rfl⟩
  · refine ⟨hw.inv, fun t' => ?_⟩
    by_cases ht : t' = t
    · subst ht
      have hidle := hw.safe t'
      rw [hp] at hidle
      simpa using hS.start t' op w.shared hw.inv hidle hm hok.1
    · simpa [Function.update_of_ne ht] using hw.safe t'
  · have hsafe := hw.safe t
    rw [hp] at hsafe
    obtain ⟨P, hP, hstable, hstep⟩ := hsafe
    have hi : D.ok i w.shared := by
      simpa [World.Executes, hp] using hok.2
    obtain ⟨hinv, hrely, hnone, hsome⟩ := hstep w.shared o r s hw.inv hP hi he
    have hother : ∀ t', t' ≠ t → Prog.Safe S D t' (fun _ => D.idle t') (w.prog t') s :=
      fun t' ht => (hw.safe t').of_rely (fun _ => hS.stable t') hinv (hrely t' ht)
    rcases r with _ | v
    · refine ⟨hinv, fun t' => ?_⟩
      by_cases ht : t' = t
      · subst ht
        show Prog.Safe S D t' _ (w.prog t') s
        rw [hp]
        exact ⟨P, hnone rfl, hstable, hstep⟩
      · exact hother t' ht
    · refine ⟨hinv, fun t' => ?_⟩
      by_cases ht : t' = t
      · subst ht
        simpa using hsome v rfl
      · simpa [Function.update_of_ne ht] using hother t' ht

/-- A step does to the state what the other threads rely on. -/
lemma World.Sound.step_rely {w w' : World ι σ T} {a : Action T Op ω} (hw : w.Sound S D)
    (hok : D.Ok w a) (h : S.step w a = some w') :
    w'.shared = w.shared ∨ ∃ t, ∀ u, u ≠ t → D.rely u w.shared w'.shared := by
  rcases S.step_cases h with ⟨t, op, u, rfl, hp, hm, rfl⟩ | ⟨γ, t, o, i, k, r, s, rfl, hp, he, rfl⟩
  · exact .inl rfl
  · right
    have hsafe := hw.safe t
    rw [hp] at hsafe
    obtain ⟨P, hP, -, hstep⟩ := hsafe
    have hi : D.ok i w.shared := by
      simpa [World.Executes, hp] using hok.2
    obtain ⟨-, hrely, -⟩ := hstep w.shared o r s hw.inv hP hi he
    refine ⟨t, fun u hu => ?_⟩
    rcases r with _ | v <;> exact hrely u hu

/-- The rely-guarantee rule: a disciplined system that starts in a sound world is in a sound
world at the end of every trace that meets the conditions of the discipline. -/
theorem Trace.sound (hS : S.Disciplined D) {w₀ w : World ι σ T}
    {l : List (World ι σ T × Action T Op ω)} (hl : Trace S w₀ l w) (h₀ : w₀.Sound S D)
    (hok : ∀ p ∈ l, D.Ok p.1 p.2) : w.Sound S D :=
  hl.invariant h₀ (fun _ _ _ hw ho hs => hw.step hS ho hs) hok

/-- A relation that is reflexive and transitive, and that follows from what each thread relies on,
holds between the states at the start and at the end of a trace. -/
theorem Trace.relied (hS : S.Disciplined D) {R : σ → σ → Prop} (hrefl : ∀ s, R s s)
    (htrans : ∀ {s s' s''}, R s s' → R s' s'' → R s s'')
    (hrely : ∀ t s s', D.rely t s s' → R s s') (hothers : ∀ t : T, ∃ u, u ≠ t)
    {w₀ w : World ι σ T} {l : List (World ι σ T × Action T Op ω)} (hl : Trace S w₀ l w)
    (h₀ : w₀.Sound S D) (hok : ∀ (w : World ι σ T) (a : Action T Op ω), D.Ok w a) :
    R w₀.shared w.shared := by
  induction hl with
  | nil => exact hrefl _
  | @snoc l w w' a hl hs ih =>
    have hw : w.Sound S D := hl.sound hS h₀ fun p _ => hok p.1 p.2
    rcases hw.step_rely (hok w a) hs with heq | ⟨t, hstep⟩
    · rw [heq]
      exact ih
    · obtain ⟨u, hu⟩ := hothers t
      exact htrans ih (hrely u _ _ (hstep u hu))

end Soundness

end Spotifile.Lib
