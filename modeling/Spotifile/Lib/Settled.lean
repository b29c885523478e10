import Spotifile.Lib.Alone

/-!
# Programs that have nothing left to do

A program adds to a state what is not there yet. `Filling` is what it may do to the state at all
(`grows`), and what it may still do when it is run once more (`rests`). A program is `Settled` in a
state if from then on every run of it leaves what is there at rest, and it `Settles` if a run of it
leads to such a state. `Settles.again` is what comes of it.

The rules go along the structure of a program. A family of programs is settled by a run of one of
them: what comes after the first part of a program depends on a result that the next run need not
have.
-/

namespace Spotifile.Lib

/-- What programs may do to a state. -/
structure Filling (σ : Type) where
  inv : σ → Prop
  grows : σ → σ → Prop
  rests : σ → σ → Prop
  grows_refl : ∀ s, grows s s
  grows_trans : ∀ {s s' s''}, grows s s' → grows s' s'' → grows s s''
  rests_refl : ∀ s, rests s s

namespace Prog

variable {ι : Type → Type} {σ ω α β γ : Type} (F : Filling σ)
  (exec : {γ : Type} → ι γ → ω → σ → Option (Option γ × σ)) (o : ω)

/-- In what becomes of the state, the program has this result and changes nothing. -/
def Reads (p : Prog ι α) (a : α) (s : σ) : Prop :=
  ∀ s', F.grows s s' → ∀ t, F.rests s' t → p.eval exec o t = some (a, t)

/-- In what becomes of the state, the program leaves everything at rest. -/
def Settled (p : Prog ι α) (s : σ) : Prop :=
  ∀ s', F.grows s s' → ∀ t, F.rests s' t → ∃ a t', p.eval exec o t = some (a, t') ∧ F.rests s' t'

/-- After a run of one of the programs, all of them are settled. -/
def Settles (q : β → Prog ι α) (s : σ) : Prop :=
  ∀ b a s', (q b).eval exec o s = some (a, s') →
    F.inv s' ∧ F.grows s s' ∧ ∀ b', Settled F exec o (q b') s'

variable {F exec o}

/-! ## Programs that are settled -/

/-- A program that only reads gives its value and leaves the state. -/
lemma Reads.eval {p : Prog ι α} {a : α} {s : σ} (h : Reads F exec o p a s) :
    p.eval exec o s = some (a, s) :=
  h s (F.grows_refl s) s (F.rests_refl s)

/-- It reads the same in a state that has grown. -/
lemma Reads.mono {p : Prog ι α} {a : α} {s s' : σ} (h : Reads F exec o p a s)
    (hg : F.grows s s') : Reads F exec o p a s' :=
  fun s'' hg' => h s'' (F.grows_trans hg hg')

namespace Settled

/-- What is settled stays settled. -/
lemma mono {p : Prog ι α} {s s' : σ} (h : Settled F exec o p s) (hg : F.grows s s') :
    Settled F exec o p s' :=
  fun s'' hg' => h s'' (F.grows_trans hg hg')

/-- A program that is over is settled. -/
lemma ret (a : α) (s : σ) : Settled F exec o (.ret a : Prog ι α) s :=
  fun _ _ t ht => ⟨a, t, rfl, ht⟩

/-- A program is settled if its parts are. -/
lemma bind {p : Prog ι α} {q : α → Prog ι β} {s : σ} (hp : Settled F exec o p s)
    (hq : ∀ a, Settled F exec o (q a) s) : Settled F exec o (p >>= q) s := by
  intro s' hg t ht
  obtain ⟨a, t₁, he, ht₁⟩ := hp s' hg t ht
  obtain ⟨b, t₂, he', ht₂⟩ := hq a s' hg t₁ ht₁
  exact ⟨b, t₂, by rw [eval_bind_of_eq he, he'], ht₂⟩

/-- A program is settled if what it goes on with, after it has read, is. -/
lemma read {p : Prog ι γ} {q : γ → Prog ι α} {a : γ} {s : σ} (hp : Reads F exec o p a s)
    (hq : Settled F exec o (q a) s) : Settled F exec o (p >>= q) s := by
  intro s' hg t ht
  obtain ⟨b, t', he, ht'⟩ := hq s' hg t ht
  exact ⟨b, t', by rw [eval_bind_of_eq (hp s' hg t ht), he], ht'⟩

/-- A loop is settled if its body is, for every element. -/
lemma forEach {body : β → Prog ι Unit} {l : List β} {s : σ}
    (h : ∀ b ∈ l, Settled F exec o (body b) s) : Settled F exec o (Prog.forEach l body) s := by
  induction l with
  | nil => exact ret () s
  | cons b l ih =>
    rw [forEach_cons]
    exact (h b List.mem_cons_self).bind fun _ => ih fun b' hb' => h b' (List.mem_cons_of_mem b hb')

end Settled

/-! ## Programs that settle -/

namespace Settles

/-- Only the runs of the programs count. -/
lemma congr {q q' : β → Prog ι α} {s : σ}
    (heq : ∀ b t, (q b).eval exec o t = (q' b).eval exec o t) (h : Settles F exec o q' s) :
    Settles F exec o q s := by
  intro b a s' he
  rw [heq] at he
  obtain ⟨hinv, hg, hsettled⟩ := h b a s' he
  refine ⟨hinv, hg, fun b' s₁ hg₁ t ht => ?_⟩
  rw [heq]
  exact hsettled b' s₁ hg₁ t ht

/-- A program that is over settles at once. -/
lemma ret {q : β → α} {s : σ} (hinv : F.inv s) :
    Settles F exec o (fun b => (.ret (q b) : Prog ι α)) s := by
  rintro b a s' ⟨⟩
  exact ⟨hinv, F.grows_refl s, fun b' => .ret (q b') s⟩

/-- A part that changes nothing. -/
lemma read {p : Prog ι γ} {q : γ → β → Prog ι α} {a : γ} {s : σ} (hp : Reads F exec o p a s)
    (hq : Settles F exec o (q a) s) : Settles F exec o (fun b => p >>= fun a => q a b) s := by
  intro b r s' he
  rw [eval_bind_of_eq hp.eval] at he
  obtain ⟨hinv, hg, hsettled⟩ := hq b r s' he
  exact ⟨hinv, hg, fun b' => .read (q := fun a => q a b') (hp.mono hg) (hsettled b')⟩

/-- The second part may depend on the result of the first one, which is not the same again. -/
lemma bind {p : Prog ι γ} {q : γ → Prog ι α} {s : σ} (hp : Settles F exec o (fun _ : Unit => p) s)
    (hq : ∀ s₁, F.inv s₁ → F.grows s s₁ → Settles F exec o q s₁) :
    Settles F exec o (fun _ : Unit => p >>= q) s := by
  intro _ r s' he
  rw [eval_bind] at he
  obtain ⟨⟨a, s₁⟩, he₁, he₂⟩ := Option.bind_eq_some_iff.mp he
  obtain ⟨hinv₁, hg₁, hsettled₁⟩ := hp () a s₁ he₁
  obtain ⟨hinv, hg, hsettled⟩ := hq s₁ hinv₁ hg₁ a r s' he₂
  exact ⟨hinv, F.grows_trans hg₁ hg, fun _ => ((hsettled₁ ()).mono hg).bind hsettled⟩

/-- A loop settles if each pass does. -/
lemma forEach {body : β → Prog ι Unit} {l : List β} {s : σ} (hinv : F.inv s)
    (hbody : ∀ b ∈ l, ∀ s₁, F.inv s₁ → F.grows s s₁ →
      Settles F exec o (fun _ : Unit => body b) s₁) :
    Settles F exec o (fun _ : Unit => Prog.forEach l body) s := by
  -- the passes that are over stay settled while the loop goes on
  have key : ∀ (rest : List β) (s₁ s' : σ), (∀ b ∈ rest, b ∈ l) → F.inv s₁ → F.grows s s₁ →
      (Prog.forEach rest body).eval exec o s₁ = some ((), s') →
      F.inv s' ∧ F.grows s₁ s' ∧ ∀ b ∈ rest, Settled F exec o (body b) s' := by
    intro rest
    induction rest with
    | nil =>
      rintro s₁ s' - hinv₁ - ⟨⟩
      exact ⟨hinv₁, F.grows_refl s₁, by simp⟩
    | cons b rest ih =>
      intro s₁ s' hsub hinv₁ hg₁ he
      rw [forEach_cons, eval_bind] at he
      obtain ⟨⟨a, s₂⟩, he₁, he₂⟩ := Option.bind_eq_some_iff.mp he
      obtain ⟨hinv₂, hg₂, hsettled₂⟩ :=
        hbody b (hsub b List.mem_cons_self) s₁ hinv₁ hg₁ () a s₂ he₁
      obtain ⟨hinv', hg', hsettled⟩ := ih s₂ s' (fun b' hb' => hsub b' (List.mem_cons_of_mem b hb'))
        hinv₂ (F.grows_trans hg₁ hg₂) he₂
      refine ⟨hinv', F.grows_trans hg₂ hg', fun b' hb' => ?_⟩
      rcases List.mem_cons.mp hb' with rfl | hb'
      · exact (hsettled₂ ()).mono hg'
      · exact hsettled b' hb'
  intro _ _ s' he
  obtain ⟨hinv', hg', hsettled⟩ := key l s s' (fun _ hb => hb) hinv (F.grows_refl s) he
  exact ⟨hinv', hg', fun _ => .forEach hsettled⟩

/-- Run once more, the program leaves everything at rest. -/
theorem again {p : Prog ι α} {s s' : σ} {a : α} (h : Settles F exec o (fun _ : Unit => p) s)
    (he : p.eval exec o s = some (a, s')) :
    ∃ a' s'', p.eval exec o s' = some (a', s'') ∧ F.rests s' s'' := by
  obtain ⟨-, -, hsettled⟩ := h () a s' he
  exact hsettled () s' (F.grows_refl s') s' (F.rests_refl s')

end Settles

end Prog

end Spotifile.Lib
