import EmergencyDispatch.Library.Traces

/-!
# Variants

A number that no step raises and that every counted step lowers bounds how many
counted steps a run can make.
-/

namespace TransitionSystem

variable {σ α : Type*} {step : σ → α → Option σ} {I : σ → Prop} {counted : α → Bool}
  {rank : σ → ℕ} {s s' : σ}

/-- `rank` is a variant of the counted steps, in the states that meet `I`. -/
structure Variant (step : σ → α → Option σ) (I : σ → Prop) (counted : α → Bool)
    (rank : σ → ℕ) : Prop where
  keeps : ∀ s a s', I s → step s a = some s' → I s'
  never_raises : ∀ s a s', I s → step s a = some s' → rank s' ≤ rank s
  lowers : ∀ s a s', I s → step s a = some s' → counted a = true → rank s' < rank s

namespace Variant

/-- **Variant rule.**  A run makes at most as many counted steps as the rank allows. -/
theorem countP_add_le (h : Variant step I counted rank) {actions : List α}
    (hs : I s) (hrun : run step s actions = some s') :
    actions.countP counted + rank s' ≤ rank s := by
  induction actions generalizing s with
  | nil =>
      obtain rfl : s = s' := by simpa [run, runWith] using hrun
      simp
  | cons a actions ih =>
      obtain ⟨mid, hstep, hrest⟩ := run_cons hrun
      have hle := ih (h.keeps s a mid hs hstep) hrest
      cases hcounted : counted a with
      | false =>
          rw [List.countP_cons_of_neg (by simp [hcounted])]
          exact Nat.le_trans hle (h.never_raises s a mid hs hstep)
      | true =>
          have hlt := h.lowers s a mid hs hstep hcounted
          rw [List.countP_cons_of_pos (by simp [hcounted])]
          omega

end Variant

end TransitionSystem
