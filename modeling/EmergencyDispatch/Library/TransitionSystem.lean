import Mathlib.Data.List.Basic

/-!
# Transition systems given by a partial step function

A system is a function `step : σ → α → Option σ`: in state `s` the action `a` is
either impossible (`none`) or leads to exactly one state, so that all the
nondeterminism of a concurrent program lies in the choice of the next action.

`ReachableWith step guard init` are the states of the runs whose every step
meets `guard`, a condition on the action and on the state *before* it;
`Reachable` are the states of all runs.  Invariants are proved along them by
`ReachableWith.invariant`, and the concrete runs of a counterexample are
computed by `runWith`.
-/

namespace TransitionSystem

variable {σ α : Type*} {step : σ → α → Option σ} {guard weaker : σ → α → Prop}

/-- The states reached from `init` along steps that all meet `guard`. -/
inductive ReachableWith (step : σ → α → Option σ) (guard : σ → α → Prop) (init : σ) : σ → Prop
  | initial : ReachableWith step guard init init
  | next {s s' : σ} {a : α} : ReachableWith step guard init s → guard s a →
      step s a = some s' → ReachableWith step guard init s'

/-- The states reached from `init` along any steps. -/
abbrev Reachable (step : σ → α → Option σ) (init : σ) : σ → Prop :=
  ReachableWith step (fun _ _ => True) init

namespace ReachableWith

theorem mono {init s : σ} (h : ReachableWith step guard init s)
    (hweaker : ∀ s a, guard s a → weaker s a) : ReachableWith step weaker init s := by
  induction h with
  | initial => exact .initial
  | next _ hguard hstep ih => exact .next ih (hweaker _ _ hguard) hstep

theorem reachable {init s : σ} (h : ReachableWith step guard init s) :
    Reachable step init s :=
  h.mono fun _ _ _ => trivial

/-- **Invariant rule.**  What holds at the start and is kept by every step that
meets the condition holds in every state reached. -/
theorem invariant {init s : σ} (h : ReachableWith step guard init s) (I : σ → Prop)
    (hinit : I init)
    (hstep : ∀ s a s', ReachableWith step guard init s → I s → guard s a →
      step s a = some s' → I s') : I s := by
  induction h with
  | initial => exact hinit
  | next hreach hguard hs ih => exact hstep _ _ _ hreach ih hguard hs

theorem trans {init s s' : σ} (h : ReachableWith step guard init s)
    (h' : ReachableWith step guard s s') : ReachableWith step guard init s' := by
  induction h' with
  | initial => exact h
  | next _ hguard hstep ih => exact .next ih hguard hstep

end ReachableWith

/-! ## Histories -/

section history

variable {η : Type*} (record : σ → σ → η → η)

/-- The system together with a history, which records each step and decides none. -/
def withHistory (step : σ → α → Option σ) (record : σ → σ → η → η) (p : σ × η) (a : α) :
    Option (σ × η) :=
  (step p.1 a).map fun s' => (s', record p.1 s' p.2)

/-- Every run has a history. -/
theorem ReachableWith.exists_history {init s : σ} (h : ReachableWith step guard init s) (η₀ : η) :
    ∃ past, ReachableWith (withHistory step record) (fun p a => guard p.1 a) (init, η₀)
      (s, past) := by
  induction h with
  | initial => exact ⟨η₀, .initial⟩
  | next hs hguard hstep ih =>
      obtain ⟨past, hpast⟩ := ih
      exact ⟨_, hpast.next hguard (by rw [withHistory, hstep, Option.map_some])⟩

theorem ReachableWith.of_history {init s : σ} {η₀ past : η}
    (h : ReachableWith (withHistory step record) (fun p a => guard p.1 a) (init, η₀) (s, past)) :
    ReachableWith step guard init s := by
  suffices hall : ∀ p : σ × η, ReachableWith (withHistory step record)
      (fun p a => guard p.1 a) (init, η₀) p → ReachableWith step guard init p.1 from hall _ h
  intro p hp
  induction hp with
  | initial => exact .initial
  | next _ hguard hstep ih =>
      obtain ⟨s', hs', rfl⟩ := Option.map_eq_some_iff.mp hstep
      exact ih.next hguard hs'

end history

/-- The state after a list of actions that all meet `guard`, `none` when one of
them does not or is impossible. -/
def runWith (step : σ → α → Option σ) (guard : σ → α → Prop) [∀ s a, Decidable (guard s a)]
    (s : σ) : List α → Option σ
  | [] => some s
  | a :: actions =>
      if guard s a then (step s a).bind fun s' => runWith step guard s' actions else none

/-- The state after a list of actions, `none` when one of them is impossible. -/
abbrev run (step : σ → α → Option σ) (s : σ) (actions : List α) : Option σ :=
  runWith step (fun _ _ => True) s actions

/-- A computed run is a run. -/
theorem reachableWith_of_runWith [∀ s a, Decidable (guard s a)] {init s s' : σ}
    {actions : List α} (h : ReachableWith step guard init s)
    (hrun : runWith step guard s actions = some s') : ReachableWith step guard init s' := by
  induction actions generalizing s with
  | nil =>
      obtain rfl : s = s' := by simpa [runWith] using hrun
      exact h
  | cons a actions ih =>
      unfold runWith at hrun
      split at hrun
      · rename_i hguard
        obtain ⟨mid, hstep, hrest⟩ := Option.bind_eq_some_iff.mp hrun
        exact ih (h.next hguard hstep) hrest
      · simp at hrun

end TransitionSystem
