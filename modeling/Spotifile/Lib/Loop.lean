import Mathlib.Logic.Function.Iterate
import Mathlib.Data.Nat.Init

/-!
# While loops

`whileLoop b f` is the loop `while (b x) x = f(x)` run with a bound on its iterations: `none`
says that the bound was too small. More fuel never changes a result (`whileLoop_mono`), a loop
whose measure drops at every iteration terminates (`whileLoop_terminates`), and the value it
ends with satisfies any invariant and fails the test (`whileLoop_invariant`,
`whileLoop_exit`).
-/

namespace Spotifile.Lib

variable {σ : Type*} (b : σ → Bool) (f : σ → σ)

/-- The loop `while (b x) x = f(x)`, with at most `fuel` evaluations of the test. -/
def whileLoop : ℕ → σ → Option σ
  | 0, _ => none
  | fuel + 1, x => if b x then whileLoop fuel (f x) else some x

variable {b f}

/-- Where the test holds the loop goes round. -/
lemma whileLoop_succ_of_test {fuel : ℕ} {x : σ} (h : b x = true) :
    whileLoop b f (fuel + 1) x = whileLoop b f fuel (f x) := by
  simp [whileLoop, h]

/-- Where it does not the loop is over. -/
lemma whileLoop_succ_of_exit {fuel : ℕ} {x : σ} (h : b x = false) :
    whileLoop b f (fuel + 1) x = some x := by
  simp [whileLoop, h]

/-- More fuel never changes a result. -/
lemma whileLoop_mono {fuel fuel' : ℕ} {x r : σ} (hff : fuel ≤ fuel')
    (h : whileLoop b f fuel x = some r) : whileLoop b f fuel' x = some r := by
  induction fuel generalizing x fuel' with
  | zero => cases h
  | succ fuel ih =>
      obtain ⟨m, rfl⟩ : ∃ m, fuel' = m + 1 := ⟨fuel' - 1, by omega⟩
      rcases hx : b x with _ | _
      · rw [whileLoop_succ_of_exit hx] at h ⊢
        exact h
      · rw [whileLoop_succ_of_test hx] at h ⊢
        exact ih (by omega) h

/-- The value a loop ends with fails its test. -/
lemma whileLoop_exit {fuel : ℕ} {x r : σ} (h : whileLoop b f fuel x = some r) :
    b r = false := by
  induction fuel generalizing x with
  | zero => cases h
  | succ fuel ih =>
      rcases hx : b x with _ | _
      · rw [whileLoop_succ_of_exit hx] at h
        cases h
        exact hx
      · rw [whileLoop_succ_of_test hx] at h
        exact ih h

/-- The value a loop ends with satisfies every invariant of its body. -/
lemma whileLoop_invariant {P : σ → Prop} (hstep : ∀ y, b y = true → P y → P (f y)) {fuel : ℕ}
    {x r : σ} (hx : P x) (h : whileLoop b f fuel x = some r) : P r := by
  induction fuel generalizing x with
  | zero => cases h
  | succ fuel ih =>
      rcases hb : b x with _ | _
      · rw [whileLoop_succ_of_exit hb] at h
        cases h
        exact hx
      · rw [whileLoop_succ_of_test hb] at h
        exact ih (hstep x hb hx) h

/-- A loop whose measure drops at every iteration ends within `measure + 1` tests. -/
lemma whileLoop_terminates (μ : σ → ℕ) (hμ : ∀ y, b y = true → μ (f y) < μ y) (x : σ) :
    ∃ r, whileLoop b f (μ x + 1) x = some r := by
  suffices H : ∀ n x, μ x < n → ∃ r, whileLoop b f n x = some r from H _ x (Nat.lt_succ_self _)
  intro n
  induction n with
  | zero => intro x hx; omega
  | succ n ih =>
      intro x hx
      rcases hb : b x with _ | _
      · exact ⟨x, whileLoop_succ_of_exit hb⟩
      · obtain ⟨r, hr⟩ := ih (f x) (by have := hμ x hb; omega)
        exact ⟨r, by rw [whileLoop_succ_of_test hb, hr]⟩

end Spotifile.Lib
