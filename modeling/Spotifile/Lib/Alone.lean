import Spotifile.Lib.Interleave

/-!
# A program that runs alone

`Prog.eval` runs a program from one state without a step of another thread in between, and with the
same choice `o` of the scheduler at every instruction. It has no result where the program is
blocked, goes to sleep or ends in an instruction that never returns.

Running alone is one way of running among others. So what a discipline promises of a program that
is `Safe`, `Prog.Safe.eval` promises of its result; and `Trace.exists_of_eval` is the schedule.
-/

namespace Spotifile.Lib

namespace Prog

variable {ι : Type → Type} {σ ω α β γ : Type}

section Eval

variable (exec : {γ : Type} → ι γ → ω → σ → Option (Option γ × σ)) (o : ω)

/-- The result of a program that runs alone, and the state in which it ends. -/
def eval : Prog ι α → σ → Option (α × σ)
  | .ret a, s => some (a, s)
  | .call i k, s =>
    match exec i o s with
    | some (some v, s') => eval (k v) s'
    | _ => none

variable {exec o}

/-- A program that is over leaves the state. -/
@[simp] lemma eval_ret (a : α) (s : σ) : eval exec o (.ret a : Prog ι α) s = some (a, s) := rfl

/-- An instruction is executed, and its value is gone on with. -/
lemma eval_call {i : ι γ} {v : γ} {s s' : σ} (h : exec i o s = some (some v, s'))
    (k : γ → Prog ι α) : eval exec o (.call i k) s = eval exec o (k v) s' := by
  rw [eval, h]

/-- One instruction. -/
lemma eval_of {i : ι γ} {v : γ} {s s' : σ} (h : exec i o s = some (some v, s')) :
    eval exec o (.of i) s = some (v, s') :=
  eval_call h .ret

/-- The result of a call came about through the result of the instruction. -/
lemma exists_of_eval_call {i : ι γ} {k : γ → Prog ι α} {s : σ} {r : α × σ}
    (h : eval exec o (.call i k) s = some r) :
    ∃ v s', exec i o s = some (some v, s') ∧ eval exec o (k v) s' = some r := by
  rw [eval] at h
  split at h
  · next v s' he => exact ⟨v, s', he, h⟩
  · cases h

/-- One program after the other. -/
lemma eval_bind (p : Prog ι α) (q : α → Prog ι β) (s : σ) :
    eval exec o (p >>= q) s = (eval exec o p s).bind fun r => eval exec o (q r.1) r.2 := by
  induction p generalizing s with
  | ret a => rfl
  | call i k ih =>
    rw [call_bind, eval, eval]
    split
    · next v s' _ => exact ih v s'
    · rfl

/-- The second program begins where the first has ended. -/
lemma eval_bind_of_eq {p : Prog ι α} {q : α → Prog ι β} {a : α} {s s' : σ}
    (h : eval exec o p s = some (a, s')) :
    eval exec o (p >>= q) s = eval exec o (q a) s' := by
  rw [eval_bind, h, Option.bind_some]

/-- The rule for a loop: what the body keeps, and the body has a result whenever it holds. The
invariant may depend on the elements that are done. -/
lemma exists_eval_forEach {body : β → Prog ι Unit} (I : List β → σ → Prop) {l : List β} {s : σ}
    (h₀ : I [] s)
    (hbody : ∀ done b rest s, l = done ++ b :: rest → I done s →
      ∃ s', eval exec o (body b) s = some ((), s') ∧ I (done ++ [b]) s') :
    ∃ s', eval exec o (forEach l body) s = some ((), s') ∧ I l s' := by
  suffices hall : ∀ done rest s, l = done ++ rest → I done s →
      ∃ s', eval exec o (forEach rest body) s = some ((), s') ∧ I l s' from
    hall [] l s rfl h₀
  intro done rest
  induction rest generalizing done with
  | nil =>
    rintro s hl hI
    rw [List.append_nil] at hl
    exact ⟨s, rfl, hl ▸ hI⟩
  | cons b rest ih =>
    intro s hl hI
    obtain ⟨s', he, hI'⟩ := hbody done b rest s hl hI
    obtain ⟨s'', he', hI''⟩ := ih (done ++ [b]) s' (by rw [hl, List.append_assoc]; rfl) hI'
    refine ⟨s'', ?_, hI''⟩
    rw [forEach_cons, eval_bind_of_eq he, he']

/-- A loop each of whose passes adds one element to a list that the invariant knows. -/
lemma exists_eval_forEach_map {τ : Type} {body : β → Prog ι Unit} (I : List τ → σ → Prop)
    (g : β → τ) {l : List β} {before : List τ} {s : σ} (h₀ : I before s)
    (hbody : ∀ b ∈ l, ∀ done s, I done s →
      ∃ s', eval exec o (body b) s = some ((), s') ∧ I (done ++ [g b]) s') :
    ∃ s', eval exec o (forEach l body) s = some ((), s') ∧ I (before ++ l.map g) s' := by
  apply exists_eval_forEach fun done s => I (before ++ done.map g) s
  · rwa [List.map_nil, List.append_nil]
  · rintro done b rest s rfl hI
    obtain ⟨s', he, hI'⟩ := hbody b (by simp) _ s hI
    refine ⟨s', he, ?_⟩
    rw [List.map_append, ← List.append_assoc]
    exact hI'

end Eval

end Prog

/-! ## Operations one after the other -/

/-- An operation that has ended, with the choice of the scheduler and what it returned. -/
structure Done (β ω α : Type) where
  call : β
  choice : ω
  result : α

/-- What was asked for. -/
def Done.asked {β ω α : Type} (x : Done β ω α) : β × ω := (x.call, x.choice)

namespace Prog

variable {ι : Type → Type} {σ ω α β γ : Type}

section EvalEach

variable (exec : {γ : Type} → ι γ → ω → σ → Option (Option γ × σ)) (prog : β → Prog ι α)

/-- Operations that run alone, one after the other, each with its own choice: what they returned,
and the state at the end. -/
def evalEach : List (β × ω) → σ → Option (List (Done β ω α) × σ)
  | [], s => some ([], s)
  | (b, o) :: l, s =>
    (eval exec o (prog b) s).bind fun r =>
      (evalEach l r.2).map fun r' => (⟨b, o, r.1⟩ :: r'.1, r'.2)

variable {exec prog}

/-- The rule for operations one after the other: the invariant knows what they returned, and under
it the next one returns. -/
theorem exists_evalEach (I : List (Done β ω α) → σ → Prop) {l : List (β × ω)} {s : σ} (h₀ : I [] s)
    (hstep : ∀ done b o rest s, l = done.map Done.asked ++ (b, o) :: rest → I done s →
      ∃ a s', eval exec o (prog b) s = some (a, s') ∧ I (done ++ [⟨b, o, a⟩]) s') :
    ∃ done s', evalEach exec prog l s = some (done, s') ∧ done.map Done.asked = l ∧ I done s' := by
  suffices hall : ∀ done rest s, l = done.map Done.asked ++ rest → I done s →
      ∃ more s', evalEach exec prog rest s = some (more, s') ∧
        (done ++ more).map Done.asked = l ∧ I (done ++ more) s' from
    hall [] l s rfl h₀
  intro done rest
  induction rest generalizing done with
  | nil =>
    intro s hl hI
    rw [List.append_nil] at hl
    exact ⟨[], s, rfl, by rw [List.append_nil, hl], by rwa [List.append_nil]⟩
  | cons bo rest ih =>
    obtain ⟨b, o⟩ := bo
    intro s hl hI
    obtain ⟨a, s', he, hI'⟩ := hstep done b o rest s hl hI
    obtain ⟨more, s'', he', hmap, hI''⟩ :=
      ih (done ++ [⟨b, o, a⟩]) s' (by rw [hl, List.map_append, List.append_assoc]; rfl) hI'
    rw [List.append_assoc, List.singleton_append] at hmap hI''
    refine ⟨⟨b, o, a⟩ :: more, s'', ?_, hmap, hI''⟩
    rw [evalEach, he, Option.bind_some, he', Option.map_some]

/-- One operation again and again, each run of which adds to a list that the invariant knows. -/
theorem exists_evalEach_flatMap {τ : Type} (I : List τ → σ → Prop) (b : β) (g : ω → List τ)
    {l : List ω} {s : σ} (h₀ : I [] s)
    (hstep : ∀ o ∈ l, ∀ before s, I before s →
      ∃ a s', eval exec o (prog b) s = some (a, s') ∧ I (before ++ g o) s') :
    ∃ done s', evalEach exec prog (l.map fun o => (b, o)) s = some (done, s') ∧
      I (l.flatMap g) s' := by
  have hrun : ∃ done s', evalEach exec prog (l.map fun o => (b, o)) s = some (done, s') ∧
      done.map Done.asked = l.map (fun o => (b, o)) ∧ I (done.flatMap fun x => g x.choice) s' := by
    apply exists_evalEach fun done s => I (done.flatMap fun x => g x.choice) s
    · exact h₀
    · intro done b' o rest s hsplit hI
      have hmem : (b', o) ∈ l.map fun o => (b, o) := by simp [hsplit]
      obtain ⟨o, ho, heq⟩ := List.mem_map.mp hmem
      obtain ⟨rfl, rfl⟩ := Prod.mk.inj heq
      obtain ⟨a, s', he, hI'⟩ := hstep o ho _ s hI
      refine ⟨a, s', he, ?_⟩
      rw [List.flatMap_append, List.flatMap_singleton]
      exact hI'
  obtain ⟨done, s', he, hmap, hI⟩ := hrun
  have hchoices : done.map Done.choice = l := by
    have hsnd := congrArg (List.map Prod.snd) hmap
    rw [List.map_map, List.map_map] at hsnd
    exact hsnd.trans (List.map_id _)
  refine ⟨done, s', he, ?_⟩
  rw [← hchoices, List.flatMap_map]
  exact hI

end EvalEach

/-! ## Running alone is running -/

variable {T Op : Type} {S : System ι σ T Op ω} {D : Discipline ι σ T Op}

/-- A safe program that runs alone keeps to the discipline. -/
theorem Safe.eval {t : T} {Q : α → σ → Prop} {p : Prog ι α} {o : ω} {s s' : σ} {a : α}
    (hp : Prog.Safe S D t Q p s) (hinv : D.inv s) (hok : ∀ {γ : Type} (i : ι γ) s, D.ok i s)
    (he : p.eval S.exec o s = some (a, s')) : D.inv s' ∧ Q a s' := by
  induction p generalizing s with
  | ret b =>
    obtain ⟨rfl, rfl⟩ := Prod.mk.inj (Option.some.inj he)
    exact ⟨hinv, hp⟩
  | call i k ih =>
    obtain ⟨P, hs, -, hstep⟩ := hp
    obtain ⟨v, s₁, hexec, hrest⟩ := exists_of_eval_call he
    obtain ⟨hinv₁, -, -, hsome⟩ := hstep s o (some v) s₁ hinv hs (hok i s) hexec
    exact ih v (hsome v rfl) hinv₁ hrest

variable [DecidableEq T]

/-- A thread that has started can go on alone. -/
lemma exists_trace_of_eval {w₀ : World ι σ T} {o : ω} {t : T} {p : Prog ι Unit} {s s' : σ}
    {f : T → Prog ι Unit} {l : List (World ι σ T × Action T Op ω)}
    (hl : Trace S w₀ l ⟨s, Function.update f t p⟩) (he : p.eval S.exec o s = some ((), s')) :
    ∃ l', Trace S w₀ l' ⟨s', Function.update f t (.ret ())⟩ := by
  induction p generalizing s l with
  | ret u =>
    obtain ⟨-, rfl⟩ := Prod.mk.inj (Option.some.inj he)
    exact ⟨l, hl⟩
  | call i k ih =>
    obtain ⟨v, s₁, hexec, hrest⟩ := exists_of_eval_call he
    have hstep : S.step ⟨s, Function.update f t (.call i k)⟩ (.step t o) =
        some ⟨s₁, Function.update f t (k v)⟩ := by
      simp [System.step, hexec]
    exact ih v (hl.snoc hstep) hrest

end Prog

/-- An idle thread may run an operation alone. -/
theorem Trace.exists_of_eval {ι : Type → Type} {σ ω T Op : Type} [DecidableEq T]
    {S : System ι σ T Op ω} {w₀ w : World ι σ T} {l : List (World ι σ T × Action T Op ω)}
    (hl : Trace S w₀ l w) {t : T} {op : Op} {o : ω} {s' : σ} (hidle : w.prog t = .ret ())
    (hmay : S.may t op w.shared = true)
    (he : (S.prog op).eval S.exec o w.shared = some ((), s')) :
    ∃ l', Trace S w₀ l' ⟨s', Function.update w.prog t (.ret ())⟩ := by
  have hstart : S.step w (.start t op) =
      some ⟨w.shared, Function.update w.prog t (S.prog op)⟩ := by
    simp [System.step, hidle, hmay]
  exact Prog.exists_trace_of_eval (hl.snoc hstart) he

end Spotifile.Lib
