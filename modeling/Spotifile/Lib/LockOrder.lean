import Mathlib.Order.WellFounded
import Mathlib.Data.Set.Insert
import Spotifile.Lib.Interleave

/-!
# Mutexes that are locked in order

The mutexes of a system are ordered, and every thread locks a mutex only above those that it holds
(`Prog.Ordered`). A wait on a condition variable gives its mutex up, and takes it again before it
ends; the thread should hold no other one then. Such a system is never in a deadlock: whenever a
thread is blocked, a thread that holds a mutex can go on (`exists_unblocked`). It is the one at the
end of the chain of owners, which ends because each waits for a higher mutex than it holds.

A `Locking` finds the mutexes in a system: which instructions lock and unlock, who holds what, and
who sleeps. Waits may be marked as risky. Of those `Prog.Ordered` demands nothing, and instead no
run may execute one that is not at its place (`Locking.WaitsAlone`).
-/

namespace Spotifile.Lib

/-- What an instruction does to the mutexes `M`, with the thread that it is meant for. -/
inductive LockKind (T M : Type)
  | lock (t : T) (m : M)
  | unlock (t : T) (m : M)
  /-- Gives the mutex up, sleeps, and takes it again. -/
  | wait (t : T) (m : M)
  | plain
deriving DecidableEq

variable {ι : Type → Type} {σ T Op ω M α β : Type} [DecidableEq T] [LinearOrder M]

/-- The mutexes of a system. Its laws say what the instructions do where they are at their place:
a thread locks what is free, or is blocked; it unlocks what it holds, and it waits with what it
holds. To go to sleep is never blocked. -/
structure Locking (S : System ι σ T Op ω) (M : Type) [LinearOrder M] where
  kind : {γ : Type} → ι γ → LockKind T M
  /-- The waits that `Prog.Ordered` says nothing of. -/
  risky : {γ : Type} → ι γ → Prop
  owner : σ → M → Option T
  asleep : σ → M → T → Bool
  lock_free : ∀ {γ : Type} {i : ι γ} {t m s}, kind i = .lock t m → owner s m = none → ∀ o,
    ∃ v s', S.exec i o s = some (some v, s') ∧
      owner s' = Function.update (owner s) m (some t) ∧ asleep s' = asleep s
  lock_owned : ∀ {γ : Type} {i : ι γ} {t m s u}, kind i = .lock t m → owner s m = some u →
    u ≠ t → ∀ o, S.exec i o s = none
  unlock : ∀ {γ : Type} {i : ι γ} {t m s}, kind i = .unlock t m → owner s m = some t → ∀ o,
    ∃ v s', S.exec i o s = some (some v, s') ∧
      owner s' = Function.update (owner s) m none ∧ asleep s' = asleep s
  wait : ∀ {γ : Type} {i : ι γ} {t m s}, kind i = .wait t m → asleep s m t = false →
    owner s m = some t → ∀ o, ∃ s', S.exec i o s = some (none, s') ∧
      owner s' = Function.update (owner s) m none ∧
      asleep s' = Function.update (asleep s) m (Function.update (asleep s m) t true)
  wait_awake : ∀ {γ : Type} {i : ι γ} {t m s}, kind i = .wait t m → asleep s m t = false →
    ∀ o, S.exec i o s ≠ none
  wake_free : ∀ {γ : Type} {i : ι γ} {t m s}, kind i = .wait t m → asleep s m t = true →
    owner s m = none → ∀ o, ∃ v s', S.exec i o s = some (some v, s') ∧
      owner s' = Function.update (owner s) m (some t) ∧
      asleep s' = Function.update (asleep s) m (Function.update (asleep s m) t false)
  wake_owned : ∀ {γ : Type} {i : ι γ} {t m s u}, kind i = .wait t m → asleep s m t = true →
    owner s m = some u → ∀ o, S.exec i o s = none
  plain : ∀ {γ : Type} {i : ι γ} {s}, kind i = .plain → ∀ o, ∃ v s',
    S.exec i o s = some (some v, s') ∧ owner s' = owner s ∧ asleep s' = asleep s

namespace Locking

variable {S : System ι σ T Op ω} (L : Locking S M)

/-! ## Programs that lock in order -/

/-- Thread `t`, which holds `H`, executes the instruction in order, and `next` is true of what it
holds then. -/
def After {γ : Type} (t : T) (i : ι γ) (H : Set M) (next : Set M → Prop) : Prop :=
  match L.kind i with
  | .lock u m => u = t ∧ (∀ m' ∈ H, m' < m) ∧ next (insert m H)
  | .unlock u m => u = t ∧ m ∈ H ∧ next (H \ {m})
  | .wait u m => u = t ∧ (H = {m} ∨ L.risky i) ∧ (H = {m} → next H)
  | .plain => next H

/-- The program of thread `t` locks in order: at its start the thread holds `H`, at its end
`H'`. -/
def Ordered (t : T) (H' : Set M) : Prog ι α → Set M → Prop
  | .ret _, H => H = H'
  | .call i k, H => L.After t i H fun H₁ => ∀ v, Ordered t H' (k v) H₁

variable {L} {t u : T} {H H' H'' : Set M} {γ : Type} {i : ι γ} {m : M}

/-- What follows may be said more weakly. -/
lemma After.imp {next next' : Set M → Prop} (h : L.After t i H next)
    (hnext : ∀ H, next H → next' H) : L.After t i H next' := by
  unfold After at h ⊢
  split at h
  · exact ⟨h.1, h.2.1, hnext _ h.2.2⟩
  · exact ⟨h.1, h.2.1, hnext _ h.2.2⟩
  · exact ⟨h.1, h.2.1, fun hH => hnext _ (h.2.2 hH)⟩
  · exact hnext _ h

/-- A program that is over locks nothing. -/
lemma ordered_ret (a : α) : L.Ordered t H (.ret a) H := rfl

/-- The second program begins with the mutexes with which the first ends. -/
lemma ordered_bind {p : Prog ι α} {f : α → Prog ι β} (hp : L.Ordered t H' p H)
    (hf : ∀ a, L.Ordered t H'' (f a) H') : L.Ordered t H'' (p >>= f) H := by
  induction p generalizing H with
  | ret a =>
    obtain rfl : H = H' := hp
    exact hf a
  | call i k ih => exact After.imp hp fun H₁ hk v => ih v (hk v)

/-- One instruction. -/
lemma ordered_of (hi : L.After t i H fun H₁ => H₁ = H') : L.Ordered t H' (.of i) H :=
  hi.imp fun _ h _ => h

/-- A mutex may be locked that comes after all that are held. -/
lemma ordered_lock (hk : L.kind i = .lock t m) (hH : ∀ m' ∈ H, m' < m) :
    L.Ordered t (insert m H) (.of i) H :=
  ordered_of (by rw [After, hk]; exact ⟨rfl, hH, rfl⟩)

/-- A mutex that is held is unlocked. -/
lemma ordered_unlock (hk : L.kind i = .unlock t m) (hm : m ∉ H) :
    L.Ordered t H (.of i) (insert m H) :=
  ordered_of (by
    rw [After, hk]
    exact ⟨rfl, Set.mem_insert m H, Set.insert_sdiff_self_of_notMem hm⟩)

/-- A mutex is given up in a wait. -/
lemma ordered_wait (hk : L.kind i = .wait t m) (hH : H = {m} ∨ L.risky i) :
    L.Ordered t H (.of i) H :=
  ordered_of (by rw [After, hk]; exact ⟨rfl, hH, fun _ => rfl⟩)

/-- An instruction that is not about mutexes. -/
lemma ordered_plain (hk : L.kind i = .plain) : L.Ordered t H (.of i) H :=
  ordered_of (by rw [After, hk])

/-- What is run for every element leaves the mutexes as they were. -/
lemma ordered_forEach {l : List β} {p : β → Prog ι Unit} (hp : ∀ b, L.Ordered t H (p b) H) :
    L.Ordered t H (Prog.forEach l p) H := by
  induction l with
  | nil => exact ordered_ret ()
  | cons b l ih => exact ordered_bind (hp b) fun _ => ih

/-! ## Every run -/

variable (L)

/-- A thread goes to sleep only with the one mutex that it gives up, where this is not clear from
its program. -/
def WaitsAlone {γ : Type} (i : ι γ) (s : σ) : Prop :=
  ∀ t m, L.kind i = .wait t m → L.risky i → L.asleep s m t = false →
    ∀ m', L.owner s m' = some t ↔ m' = m

/-- Where a thread stands: it is awake and holds what its program says, or it sleeps and holds
nothing. -/
inductive Stands (w : World ι σ T) (t : T) : Prop
  | awake (H : Set M) (hprog : L.Ordered t ∅ (w.prog t) H)
      (hasleep : ∀ m, L.asleep w.shared m t = false)
      (hholds : ∀ m, L.owner w.shared m = some t ↔ m ∈ H)
  | asleep (m : M) {γ : Type} (i : ι γ) (k : γ → Prog ι Unit) (hprog : w.prog t = .call i k)
      (hkind : L.kind i = .wait t m)
      (hasleep : ∀ m', L.asleep w.shared m' t = true ↔ m' = m)
      (hholds : ∀ m', L.owner w.shared m' ≠ some t) (hrest : ∀ v, L.Ordered t ∅ (k v) {m})

variable {L}

/-- A thread stands where it was if nothing is changed for it. -/
lemma Stands.frame {w w' : World ι σ T} (h : L.Stands w u) (hprog : w'.prog u = w.prog u)
    (howner : ∀ m, L.owner w'.shared m = some u ↔ L.owner w.shared m = some u)
    (hasleep : ∀ m, L.asleep w'.shared m u = L.asleep w.shared m u) : L.Stands w' u := by
  cases h with
  | awake H hp ha hh =>
    exact .awake H (hprog ▸ hp) (fun m => (hasleep m).trans (ha m)) fun m =>
      (howner m).trans (hh m)
  | asleep m i k hp hk ha hh hrest =>
    refine .asleep m i k (hprog.trans hp) hk (fun m' => ?_) (fun m' => ?_) hrest
    · rw [hasleep]
      exact ha m'
    · rw [Ne, howner]
      exact hh m'

/-- What an instruction of a thread that stands right does to the mutexes. -/
inductive Effect (L : Locking S M) (t : T) (s s' : σ) : Prop
  | locks (m : M) (hfree : L.owner s m = none)
      (howner : L.owner s' = Function.update (L.owner s) m (some t))
      (hasleep : L.asleep s' = L.asleep s)
  | unlocks (m : M) (howned : L.owner s m = some t)
      (howner : L.owner s' = Function.update (L.owner s) m none)
      (hasleep : L.asleep s' = L.asleep s)
  | sleeps (m : M) (howned : L.owner s m = some t)
      (howner : L.owner s' = Function.update (L.owner s) m none)
      (hasleep : L.asleep s' =
        Function.update (L.asleep s) m (Function.update (L.asleep s m) t true))
  | wakes (m : M) (hfree : L.owner s m = none)
      (howner : L.owner s' = Function.update (L.owner s) m (some t))
      (hasleep : L.asleep s' =
        Function.update (L.asleep s) m (Function.update (L.asleep s m) t false))
  | nothing (howner : L.owner s' = L.owner s) (hasleep : L.asleep s' = L.asleep s)

/-- The other threads hold what they held, and sleep if they slept. -/
lemma Effect.frame {s s' : σ} (h : Effect L t s s') (hu : u ≠ t) :
    (∀ m, L.owner s' m = some u ↔ L.owner s m = some u) ∧
      ∀ m, L.asleep s' m u = L.asleep s m u := by
  have hlock : ∀ m₀ : M, L.owner s m₀ = none → ∀ m,
      Function.update (L.owner s) m₀ (some t) m = some u ↔ L.owner s m = some u := by
    intro m₀ hfree m
    by_cases hm : m = m₀
    · subst hm
      simp [hfree, hu.symm]
    · rw [Function.update_of_ne hm]
  have hunlock : ∀ m₀ : M, L.owner s m₀ = some t → ∀ m,
      Function.update (L.owner s) m₀ none m = some u ↔ L.owner s m = some u := by
    intro m₀ howned m
    by_cases hm : m = m₀
    · subst hm
      simp [howned, hu.symm]
    · rw [Function.update_of_ne hm]
  have hsleep : ∀ (m₀ : M) (b : Bool) m,
      Function.update (L.asleep s) m₀ (Function.update (L.asleep s m₀) t b) m u =
        L.asleep s m u := by
    intro m₀ b m
    by_cases hm : m = m₀
    · subst hm
      rw [Function.update_self, Function.update_of_ne hu]
    · rw [Function.update_of_ne hm]
  cases h with
  | locks m₀ hfree howner hasleep =>
    rw [howner, hasleep]
    exact ⟨hlock m₀ hfree, fun _ => rfl⟩
  | unlocks m₀ howned howner hasleep =>
    rw [howner, hasleep]
    exact ⟨hunlock m₀ howned, fun _ => rfl⟩
  | sleeps m₀ howned howner hasleep =>
    rw [howner, hasleep]
    exact ⟨hunlock m₀ howned, hsleep m₀ true⟩
  | wakes m₀ hfree howner hasleep =>
    rw [howner, hasleep]
    exact ⟨hlock m₀ hfree, hsleep m₀ false⟩
  | nothing howner hasleep =>
    rw [howner, hasleep]
    exact ⟨fun _ => Iff.rfl, fun _ => rfl⟩

omit [DecidableEq T] in
/-- A thread that locks a mutex holds it and what it held before. -/
lemma holds_lock {owner : M → Option T} (hH : ∀ m, owner m = some t ↔ m ∈ H) (m m' : M) :
    Function.update owner m (some t) m' = some t ↔ m' ∈ insert m H := by
  by_cases hm : m' = m
  · simp [hm]
  · rw [Function.update_of_ne hm, hH, Set.mem_insert_iff, or_iff_right hm]

omit [DecidableEq T] in
/-- A thread that unlocks a mutex holds what it held before, but for it. -/
lemma holds_unlock {owner : M → Option T} (hH : ∀ m, owner m = some t ↔ m ∈ H) (m m' : M) :
    Function.update owner m none m' = some t ↔ m' ∈ H \ {m} := by
  by_cases hm : m' = m
  · simp [hm]
  · rw [Function.update_of_ne hm, hH, Set.mem_sdiff, Set.mem_singleton_iff, and_iff_left hm]

omit [DecidableEq T] in
/-- An instruction gives one result. -/
lemma exec_inj {s s₁ s₂ : σ} {o : ω} {r₁ r₂ : Option γ} (h₁ : S.exec i o s = some (r₁, s₁))
    (h₂ : S.exec i o s = some (r₂, s₂)) : r₁ = r₂ ∧ s₁ = s₂ :=
  Prod.mk.inj (Option.some.inj (h₁.symm.trans h₂))

section Exec

variable {w w' : World ι σ T} {k : γ → Prog ι Unit} {o : ω} {r : Option γ}

/-- A thread that is awake executes its next instruction. -/
lemma exec_of_awake (hafter : L.After t i H fun H₁ => ∀ v, L.Ordered t ∅ (k v) H₁)
    (hasleep : ∀ m, L.asleep w.shared m t = false)
    (hholds : ∀ m, L.owner w.shared m = some t ↔ m ∈ H) (hp : w.prog t = .call i k)
    (hok : L.WaitsAlone i w.shared) (he : S.exec i o w.shared = some (r, w'.shared))
    (hprog : w'.prog t = r.elim (w.prog t) k) :
    Effect L t w.shared w'.shared ∧ L.Stands w' t := by
  unfold After at hafter
  rcases hkind : L.kind i with ⟨u, m⟩ | ⟨u, m⟩ | ⟨u, m⟩ | _
  · rw [hkind] at hafter
    obtain ⟨rfl, habove, hnext⟩ := hafter
    rcases howner : L.owner w.shared m with _ | u'
    · obtain ⟨v, s, hexec, howner', hasleep'⟩ := L.lock_free hkind howner o
      obtain ⟨rfl, rfl⟩ := exec_inj he hexec
      refine ⟨.locks m howner howner' hasleep',
        .awake _ (by rw [hprog]; exact hnext v) ?_ fun m' => ?_⟩
      · rw [hasleep']
        exact hasleep
      · rw [howner']
        exact holds_lock hholds m m'
    · by_cases hu : u' = u
      · exact absurd (habove m ((hholds m).mp (hu ▸ howner))) (lt_irrefl m)
      · rw [L.lock_owned hkind howner hu o] at he
        cases he
  · rw [hkind] at hafter
    obtain ⟨rfl, hm, hnext⟩ := hafter
    have howner := (hholds m).mpr hm
    obtain ⟨v, s, hexec, howner', hasleep'⟩ := L.unlock hkind howner o
    obtain ⟨rfl, rfl⟩ := exec_inj he hexec
    refine ⟨.unlocks m howner howner' hasleep',
      .awake _ (by rw [hprog]; exact hnext v) ?_ fun m' => ?_⟩
    · rw [hasleep']
      exact hasleep
    · rw [howner']
      exact holds_unlock hholds m m'
  · rw [hkind] at hafter
    obtain ⟨rfl, hrisky, hnext⟩ := hafter
    have hH : H = {m} := by
      rcases hrisky with hH | hrisky
      · exact hH
      · ext m'
        rw [← hholds, hok u m hkind hrisky (hasleep m)]
        exact Set.mem_singleton_iff.symm
    have howner := (hholds m).mpr (hH ▸ rfl)
    obtain ⟨s, hexec, howner', hasleep'⟩ := L.wait hkind (hasleep m) howner o
    obtain ⟨rfl, rfl⟩ := exec_inj he hexec
    refine ⟨.sleeps m howner howner' hasleep',
      .asleep m i k (hprog.trans hp) hkind (fun m' => ?_) (fun m' h => ?_) (hH ▸ hnext hH)⟩
    · rw [hasleep']
      by_cases hm : m' = m
      · simp [hm]
      · simp [hasleep m', hm]
    · rw [howner', holds_unlock hholds, hH] at h
      exact h.2 h.1
  · rw [hkind] at hafter
    obtain ⟨v, s, hexec, howner', hasleep'⟩ := L.plain (s := w.shared) hkind o
    obtain ⟨rfl, rfl⟩ := exec_inj he hexec
    refine ⟨.nothing howner' hasleep', .awake H (by rw [hprog]; exact hafter v) ?_ ?_⟩
    · rw [hasleep']
      exact hasleep
    · rw [howner']
      exact hholds

/-- A thread that sleeps takes its mutex again. -/
lemma exec_of_asleep {m : M} (hkind : L.kind i = .wait t m)
    (hasleep : ∀ m', L.asleep w.shared m' t = true ↔ m' = m)
    (hholds : ∀ m', L.owner w.shared m' ≠ some t) (hrest : ∀ v, L.Ordered t ∅ (k v) {m})
    (he : S.exec i o w.shared = some (r, w'.shared)) (hprog : w'.prog t = r.elim (w.prog t) k) :
    Effect L t w.shared w'.shared ∧ L.Stands w' t := by
  rcases howner : L.owner w.shared m with _ | u
  · obtain ⟨v, s, hexec, howner', hasleep'⟩ := L.wake_free hkind ((hasleep m).mpr rfl) howner o
    obtain ⟨rfl, rfl⟩ := exec_inj he hexec
    refine ⟨.wakes m howner howner' hasleep',
      .awake (insert m ∅) (by rw [hprog, insert_empty_eq]; exact hrest v) (fun m' => ?_)
        fun m' => ?_⟩
    · rw [hasleep']
      by_cases hm : m' = m
      · simp [hm]
      · rw [Function.update_of_ne hm]
        exact Bool.eq_false_iff.mpr fun htrue => hm ((hasleep m').mp htrue)
    · rw [howner']
      exact holds_lock (fun m => iff_of_false (hholds m) (Set.notMem_empty m)) m m'
  · rw [L.wake_owned hkind ((hasleep m).mpr rfl) howner o] at he
    cases he

/-- A thread that stands right executes its next instruction. -/
lemma Stands.exec (h : L.Stands w t) (hp : w.prog t = .call i k) (hok : L.WaitsAlone i w.shared)
    (he : S.exec i o w.shared = some (r, w'.shared))
    (hprog : w'.prog t = r.elim (w.prog t) k) :
    Effect L t w.shared w'.shared ∧ L.Stands w' t := by
  cases h with
  | awake H hordered hasleep hholds =>
    rw [hp] at hordered
    exact exec_of_awake hordered hasleep hholds hp hok he hprog
  | asleep m j l hprog' hkind hasleep hholds hrest =>
    rw [hp] at hprog'
    cases hprog'
    exact exec_of_asleep hkind hasleep hholds hrest he hprog

end Exec

variable (S) in
/-- In a run of operations that lock in order, every thread stands right. -/
theorem stands (hops : ∀ t op s, S.may t op s = true → L.Ordered t ∅ (S.prog op) ∅)
    {w₀ w : World ι σ T} {l : List (World ι σ T × Action T Op ω)} (hl : Trace S w₀ l w)
    (h₀ : ∀ t, L.Stands w₀ t)
    (hok : ∀ p ∈ l, p.1.Executes (fun i s => L.WaitsAlone i s) p.2) (t : T) : L.Stands w t := by
  refine hl.invariant (I := fun w => ∀ t, L.Stands w t) h₀ ?_ hok t
  intro w a w' hw hok hstep u
  rcases S.step_cases hstep with
    ⟨t, op, r, rfl, hp, hmay, rfl⟩ | ⟨γ, t, o, i, k, r, s, rfl, hp, he, hw'⟩
  · by_cases hu : u = t
    · subst hu
      rcases hw u with ⟨H, hordered, hasleep, hholds⟩ | ⟨_, _, _, hp', -⟩
      · rw [hp] at hordered
        obtain rfl : H = ∅ := hordered
        exact .awake ∅ (by simpa using hops u op w.shared hmay) hasleep hholds
      · rw [hp] at hp'
        cases hp'
    · exact (hw u).frame (Function.update_of_ne hu _ _) (fun _ => Iff.rfl) fun _ => rfl
  · have hshared : w'.shared = s := by
      rw [hw']
      rcases r with _ | v <;> rfl
    have hprog : w'.prog t = r.elim (w.prog t) k := by
      rw [hw']
      rcases r with _ | v
      · rfl
      · exact Function.update_self _ _ _
    have hothers : ∀ u ≠ t, w'.prog u = w.prog u := by
      intro u hu
      rw [hw']
      rcases r with _ | v
      · rfl
      · exact Function.update_of_ne hu _ _
    have hwaits := World.executes_iff.mp hok t o γ i k rfl hp
    obtain ⟨heffect, hstands⟩ := (hw t).exec hp hwaits (hshared ▸ he) hprog
    by_cases hu : u = t
    · exact hu ▸ hstands
    · obtain ⟨howner, hasleep⟩ := heffect.frame hu
      exact (hw u).frame (hothers u hu) howner hasleep

omit [LinearOrder M] in
/-- A thread whose instruction can be executed can step. -/
lemma exists_step {w : World ι σ T} {k : γ → Prog ι Unit} {o : ω} (hp : w.prog t = .call i k)
    (he : S.exec i o w.shared ≠ none) : ∃ w', S.step w (.step t o) = some w' := by
  obtain ⟨⟨_ | v, s⟩, he⟩ := Option.ne_none_iff_exists'.mp he
  · exact ⟨{ w with shared := s }, by simp [System.step, hp, he]⟩
  · exact ⟨⟨s, Function.update w.prog t (k v)⟩, by simp [System.step, hp, he]⟩

/-- A thread that is awake can go on, or its next instruction locks a mutex that is held and is
higher than all that it holds. -/
lemma awake_cases {next : Set M → Prop} {s : σ} (hafter : L.After t i H next)
    (hasleep : ∀ m, L.asleep s m t = false) (hholds : ∀ m, L.owner s m = some t ↔ m ∈ H) :
    (∀ o, S.exec i o s ≠ none) ∨ ∃ m u, L.owner s m = some u ∧ ∀ m' ∈ H, m' < m := by
  unfold After at hafter
  rcases hkind : L.kind i with ⟨u, m⟩ | ⟨u, m⟩ | ⟨u, m⟩ | _
  · rw [hkind] at hafter
    rcases howner : L.owner s m with _ | u'
    · left
      intro o
      obtain ⟨v, s', hexec, -⟩ := L.lock_free hkind howner o
      rw [hexec]
      exact Option.some_ne_none _
    · exact .inr ⟨m, u', howner, hafter.2.1⟩
  · rw [hkind] at hafter
    obtain ⟨rfl, hm, -⟩ := hafter
    left
    intro o
    obtain ⟨v, s', hexec, -⟩ := L.unlock hkind ((hholds m).mpr hm) o
    rw [hexec]
    exact Option.some_ne_none _
  · rw [hkind] at hafter
    obtain ⟨rfl, -⟩ := hafter
    exact .inl (L.wait_awake hkind (hasleep m))
  · left
    intro o
    obtain ⟨v, s', hexec, -⟩ := L.plain (s := s) hkind o
    rw [hexec]
    exact Option.some_ne_none _

/-- Where every thread stands right, the owner of a mutex can go on, or the owner of a higher mutex
can. -/
lemma exists_owner_step [WellFoundedGT M] {w : World ι σ T} (hw : ∀ t, L.Stands w t) (m : M)
    (hm : L.owner w.shared m = some u) :
    ∃ m' u', m ≤ m' ∧ L.owner w.shared m' = some u' ∧
      ∀ o, ∃ w', S.step w (.step u' o) = some w' := by
  induction m using WellFoundedGT.induction generalizing u with
  | ind m ih =>
    rcases hw u with ⟨H, hordered, hasleep, hholds⟩ | ⟨_, _, _, -, -, -, hholds⟩
    · rcases hp : w.prog u with r | ⟨i, k⟩
      · rw [hp] at hordered
        obtain rfl : H = ∅ := hordered
        exact absurd ((hholds m).mp hm) (Set.notMem_empty m)
      · rw [hp] at hordered
        rcases awake_cases hordered hasleep hholds with hmoves | ⟨m₁, u₁, howner, habove⟩
        · exact ⟨m, u, le_refl m, hm, fun o => exists_step hp (hmoves o)⟩
        · have hlt := habove m ((hholds m).mp hm)
          obtain ⟨m', u', hle, hrest⟩ := ih m₁ hlt howner
          exact ⟨m', u', hlt.le.trans hle, hrest⟩
    · exact absurd hm (hholds m)

/-- A thread that stands right is blocked only by a mutex that is held. -/
lemma Stands.owned_of_blocked {w : World ι σ T} (h : L.Stands w t) {k : γ → Prog ι Unit} {o : ω}
    (hp : w.prog t = .call i k) (hblocked : S.exec i o w.shared = none) :
    ∃ m u, L.owner w.shared m = some u := by
  cases h with
  | awake H hordered hasleep hholds =>
    rw [hp] at hordered
    rcases awake_cases hordered hasleep hholds with hmoves | ⟨m, u, howner, -⟩
    · exact absurd hblocked (hmoves o)
    · exact ⟨m, u, howner⟩
  | asleep m j l hp' hkind hasleep hholds hrest =>
    rw [hp] at hp'
    cases hp'
    rcases howner : L.owner w.shared m with _ | u
    · obtain ⟨v, s, hexec, -⟩ := L.wake_free hkind ((hasleep m).mpr rfl) howner o
      rw [hblocked] at hexec
      cases hexec
    · exact ⟨m, u, howner⟩

/-- Where every thread stands right, there is no deadlock: a thread is blocked only as long as
another one holds a mutex and can go on. -/
theorem exists_unblocked [WellFoundedGT M] {w : World ι σ T} (hw : ∀ t, L.Stands w t)
    {k : γ → Prog ι Unit} {o : ω} (hp : w.prog t = .call i k)
    (hblocked : S.exec i o w.shared = none) :
    ∃ u ≠ t, (∃ m, L.owner w.shared m = some u) ∧
      ∀ o, ∃ w', S.step w (.step u o) = some w' := by
  have hstuck : S.step w (.step t o) = none := by simp [System.step, hp, hblocked]
  obtain ⟨m, u, hm⟩ := (hw t).owned_of_blocked hp hblocked
  obtain ⟨m', u', -, hm', hsteps⟩ := exists_owner_step hw m hm
  refine ⟨u', ?_, ⟨m', hm'⟩, hsteps⟩
  rintro rfl
  obtain ⟨w', hw'⟩ := hsteps o
  rw [hstuck] at hw'
  cases hw'

end Locking

end Spotifile.Lib
