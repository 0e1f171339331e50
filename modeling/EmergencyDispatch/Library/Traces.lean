import EmergencyDispatch.Library.TransitionSystem

/-!
# Runs with their actions

A property of a run may speak about the actions that were made, and not only
about the state that was reached.  It is proved along the run, one action at a
time.
-/

namespace TransitionSystem

variable {σ α : Type*} {step : σ → α → Option σ} {s s' : σ} {actions : List α}

theorem run_cons {a : α} (h : run step s (a :: actions) = some s') :
    ∃ mid, step s a = some mid ∧ run step mid actions = some s' := by
  unfold run runWith at h
  rw [if_pos trivial] at h
  exact Option.bind_eq_some_iff.mp h

theorem run_concat {a : α} {mid : σ} (h : run step s actions = some mid)
    (hstep : step mid a = some s') : run step s (actions ++ [a]) = some s' := by
  induction actions generalizing s with
  | nil =>
      obtain rfl : s = mid := by simpa [run, runWith] using h
      simp [run, runWith, hstep]
  | cons b actions ih =>
      obtain ⟨next, hnext, hrest⟩ := run_cons h
      have hrun := ih hrest
      simp only [run, List.cons_append, runWith, if_true, hnext, Option.bind_some] at hrun ⊢
      exact hrun

/-- **Trace rule.**  What holds of the start without actions, and is kept when a step from the
end of a run adds its action, holds of every run. -/
theorem run_invariant {init : σ} (P : List α → σ → Prop) (hinit : P [] init)
    (hstep : ∀ past s a s', run step init past = some s → P past s → step s a = some s' →
      P (past ++ [a]) s') (hrun : run step init actions = some s') : P actions s' := by
  have hfrom : ∀ past s, run step init past = some s → P past s → run step s actions = some s' →
      P (past ++ actions) s' := by
    clear hrun
    induction actions with
    | nil =>
        intro past s _ hP hrun
        obtain rfl : s = s' := by simpa [run, runWith] using hrun
        rwa [List.append_nil]
    | cons a actions ih =>
        intro past s hpast hP hrun
        obtain ⟨mid, hmid, hrest⟩ := run_cons hrun
        have hnext := ih (past ++ [a]) mid (run_concat hpast hmid)
          (hstep past s a mid hpast hP hmid) hrest
        rwa [List.append_assoc] at hnext
  exact hfrom [] init rfl hinit hrun

end TransitionSystem
