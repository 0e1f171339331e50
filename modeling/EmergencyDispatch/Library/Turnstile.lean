import Mathlib.Data.Nat.Notation
import Mathlib.Logic.Basic

/-!
# A semaphore as a turnstile

Everybody who passes a turnstile takes the one permit and gives it back at once.
So the permit is free and nobody is inside, or somebody is inside and alone.
-/

namespace Turnstiles

variable {ι : Type*}

/-- The permits that are free, and who is inside. -/
inductive Turnstile : ℕ → (ι → Prop) → Prop
  | free {inside : ι → Prop} (hnobody : ∀ i, ¬inside i) : Turnstile 1 inside
  | busy {inside : ι → Prop} (i : ι) (halone : ∀ j, inside j ↔ j = i) : Turnstile 0 inside

variable {inside inside' : ι → Prop} {permits : ℕ} {i : ι}

namespace Turnstile

theorem congr (h : Turnstile permits inside) (hsame : ∀ j, inside' j ↔ inside j) :
    Turnstile permits inside' := by
  cases h with
  | free hnobody => exact .free fun j hj => hnobody j ((hsame j).mp hj)
  | busy i halone => exact .busy i fun j => (hsame j).trans (halone j)

/-- Who takes a permit is inside alone. -/
theorem enter (h : Turnstile (permits + 1) inside) (hin : ∀ j, inside' j ↔ inside j ∨ j = i) :
    Turnstile permits inside' := by
  cases h with
  | free hnobody =>
      refine .busy i fun j => ?_
      rw [hin]
      exact ⟨fun hj => hj.resolve_left (hnobody j), .inr⟩

/-- Who is inside is the one that leaves. -/
theorem leave (h : Turnstile permits inside) (hi : inside i)
    (hout : ∀ j, inside' j ↔ inside j ∧ j ≠ i) : Turnstile (permits + 1) inside' := by
  cases h with
  | free hnobody => exact absurd hi (hnobody i)
  | busy k halone =>
      obtain rfl := (halone i).mp hi
      refine .free fun j hj => ?_
      obtain ⟨hin, hne⟩ := (hout j).mp hj
      exact hne ((halone j).mp hin)

end Turnstile

end Turnstiles
