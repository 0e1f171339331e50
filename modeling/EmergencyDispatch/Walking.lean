import EmergencyDispatch.Bresenham
import Mathlib.Tactic.Ring

/-!
# Walking along a trajectory

The error term of a trajectory is a function of the cells that are left on each
axis: with `p` cells to go on the x axis and `q` on the y axis it is
`dx - dy + dy * p - dx * q`.  From this the walker never leaves the rectangle
between the position and the target, never loops for ever, and reports that it
has arrived only on the target.  A trajectory whose target is the position is as
good as finished, whatever its other fields are.
-/

namespace EmergencyDispatch

open CellsWalked

variable {τ : BresenhamTrajectory} {x y err p q : ℤ}

/-- From `(x, y)` there are `p` and `q` cells to go on the two axes. -/
structure Remaining (τ : BresenhamTrajectory) (x y err p q : ℤ) : Prop where
  sx : τ.sx = 1 ∨ τ.sx = -1
  sy : τ.sy = 1 ∨ τ.sy = -1
  p_nonneg : 0 ≤ p
  p_le : p ≤ τ.dx
  q_nonneg : 0 ≤ q
  q_le : q ≤ τ.dy
  xTarget : τ.xTarget = x + τ.sx * p
  yTarget : τ.yTarget = y + τ.sy * q
  err_eq : err = τ.dx - τ.dy + τ.dy * p - τ.dx * q

theorem remaining_changeBresenhamTrajectory (x y newX newY : ℤ) :
    Remaining (changeBresenhamTrajectory x y newX newY) x y
      (changeBresenhamTrajectory x y newX newY).err (ABS (newX - x)) (ABS (newY - y)) where
  sx := by simp only [changeBresenhamTrajectory]; split <;> simp
  sy := by simp only [changeBresenhamTrajectory]; split <;> simp
  p_nonneg := ABS_nonneg _
  p_le := le_rfl
  q_nonneg := ABS_nonneg _
  q_le := le_rfl
  xTarget := by simp only [changeBresenhamTrajectory, ABS]; split <;> split <;> omega
  yTarget := by simp only [changeBresenhamTrajectory, ABS]; split <;> split <;> omega
  err_eq := by simp only [changeBresenhamTrajectory]; ring

namespace Remaining

/-- The walker is on the target when nothing remains on either axis. -/
theorem onTarget_iff (h : Remaining τ x y err p q) :
    (x = τ.xTarget ∧ y = τ.yTarget) ↔ p = 0 ∧ q = 0 := by
  have hx := h.xTarget
  have hy := h.yTarget
  rcases h.sx with hsx | hsx <;> rcases h.sy with hsy | hsy <;> rw [hsx] at hx <;>
    rw [hsy] at hy <;> omega

theorem p_pos (h : Remaining τ x y err p q) (hnot : ¬(p = 0 ∧ q = 0))
    (hx : -τ.dy ≤ 2 * err) : 0 < p := by
  by_contra hp
  obtain rfl : p = 0 := by have := h.p_nonneg; omega
  have hq : 1 ≤ q := by have := h.q_nonneg; omega
  have hq_le := h.q_le
  have hdx := h.p_le
  have hmul : τ.dx * 1 ≤ τ.dx * q := Int.mul_le_mul_of_nonneg_left hq hdx
  have herr := h.err_eq
  rw [mul_zero] at herr
  omega

theorem q_pos (h : Remaining τ x y err p q) (hnot : ¬(p = 0 ∧ q = 0))
    (hy : 2 * err ≤ τ.dx) : 0 < q := by
  by_contra hq
  obtain rfl : q = 0 := by have := h.q_nonneg; omega
  have hp : 1 ≤ p := by have := h.p_nonneg; omega
  have hp_le := h.p_le
  have hdy := h.q_le
  have hmul : τ.dy * 1 ≤ τ.dy * p := Int.mul_le_mul_of_nonneg_left hp hdy
  have herr := h.err_eq
  rw [mul_zero] at herr
  omega

theorem stepOnX (h : Remaining τ x y err p q) (hp : 0 < p) :
    Remaining τ (x + τ.sx) y (err - τ.dy) (p - 1) q where
  sx := h.sx
  sy := h.sy
  p_nonneg := by omega
  p_le := by have := h.p_le; omega
  q_nonneg := h.q_nonneg
  q_le := h.q_le
  xTarget := by rw [h.xTarget]; ring
  yTarget := h.yTarget
  err_eq := by rw [h.err_eq]; ring

theorem stepOnY (h : Remaining τ x y err p q) (hq : 0 < q) :
    Remaining τ x (y + τ.sy) (err + τ.dx) p (q - 1) where
  sx := h.sx
  sy := h.sy
  p_nonneg := h.p_nonneg
  p_le := h.p_le
  q_nonneg := by omega
  q_le := by have := h.q_le; omega
  xTarget := h.xTarget
  yTarget := by rw [h.yTarget]; ring
  err_eq := by rw [h.err_eq]; ring

end Remaining

/-- The walker after some cells of the loop, with `p` and `q` cells to go. -/
abbrev RemainingAfter (τ : BresenhamTrajectory) (x y : ℤ) (c : CellsWalked) (p q : ℤ) : Prop :=
  Remaining τ (x + c.xStep) (y + c.yStep) c.err p q

theorem onTarget_eq_true_iff {c : CellsWalked} (h : RemainingAfter τ x y c p q) :
    onTarget τ x y c = true ↔ p = 0 ∧ q = 0 := by
  rw [← h.onTarget_iff]
  simp [onTarget]

theorem remainingAfter_stepOnX {c : CellsWalked} (h : RemainingAfter τ x y c p q) (hp : 0 < p) :
    RemainingAfter τ x y (stepOnX τ c) (p - 1) q := by
  have hstep := h.stepOnX hp
  rwa [add_assoc] at hstep

theorem remainingAfter_stepOnY {c : CellsWalked} (h : RemainingAfter τ x y c p q) (hq : 0 < q) :
    RemainingAfter τ x y (stepOnY τ c) p (q - 1) := by
  have hstep := h.stepOnY hq
  rwa [add_assoc] at hstep

/-- The loop ends, and walks cells that remained. -/
theorem bresenhamLoop_spec (n : ℕ) (c : CellsWalked) (h : RemainingAfter τ x y c p q) :
    ∃ c', bresenhamLoop τ x y n c = some c' ∧
      ∃ p' q', p' ≤ p ∧ q' ≤ q ∧ RemainingAfter τ x y c' p' q' := by
  fun_induction bresenhamLoop τ x y n c generalizing p q with
  | case1 c => exact ⟨c, rfl, p, q, le_rfl, le_rfl, h⟩
  | case2 n c htarget => exact ⟨c, rfl, p, q, le_rfl, le_rfl, h⟩
  | case3 c htarget hx =>
      have hp := h.p_pos (fun h0 => htarget ((onTarget_eq_true_iff h).mpr h0)) hx
      exact ⟨_, rfl, p - 1, q, by omega, le_rfl, remainingAfter_stepOnX h hp⟩
  | case4 c htarget hx n hy ih =>
      have hnot : ¬(p = 0 ∧ q = 0) := fun h0 => htarget ((onTarget_eq_true_iff h).mpr h0)
      obtain ⟨c', hc', p', q', hp', hq', h'⟩ :=
        ih (remainingAfter_stepOnY (remainingAfter_stepOnX h (h.p_pos hnot hx)) (h.q_pos hnot hy))
      exact ⟨c', hc', p', q', by omega, by omega, h'⟩
  | case5 c htarget hx n hy ih =>
      have hnot : ¬(p = 0 ∧ q = 0) := fun h0 => htarget ((onTarget_eq_true_iff h).mpr h0)
      obtain ⟨c', hc', p', q', hp', hq', h'⟩ := ih (remainingAfter_stepOnX h (h.p_pos hnot hx))
      exact ⟨c', hc', p', q', by omega, hq', h'⟩
  | case6 c n htarget hx hy ih =>
      have hnot : ¬(p = 0 ∧ q = 0) := fun h0 => htarget ((onTarget_eq_true_iff h).mpr h0)
      obtain ⟨c', hc', p', q', hp', hq', h'⟩ := ih (remainingAfter_stepOnY h (h.q_pos hnot hy))
      exact ⟨c', hc', p', q', hp', by omega, h'⟩
  | case7 c n htarget hx hy =>
      -- one of the two axes is always walked
      have hdx := h.p_nonneg.trans h.p_le
      have hdy := h.q_nonneg.trans h.q_le
      omega

/-! ## One call of the walker -/

/-- The walker stands on the target, or on the line that leads to it. -/
def OnCourse (τ : BresenhamTrajectory) (x y : ℤ) : Prop :=
  (x = τ.xTarget ∧ y = τ.yTarget) ∨ ∃ p q, Remaining τ x y τ.err p q

theorem onCourse_changeBresenhamTrajectory (x y newX newY : ℤ) :
    OnCourse (changeBresenhamTrajectory x y newX newY) x y :=
  .inr ⟨_, _, remaining_changeBresenhamTrajectory x y newX newY⟩

/-- `x'` lies between `x` and `target`. -/
def Between (x x' target : ℤ) : Prop := (x ≤ x' ∧ x' ≤ target) ∨ (target ≤ x' ∧ x' ≤ x)

theorem between_of_remaining {s x x' target p : ℤ} (p' : ℤ) (hs : s = 1 ∨ s = -1)
    (hx : target = x + s * p) (hx' : target = x' + s * p') (hp' : 0 ≤ p') (hle : p' ≤ p) :
    Between x x' target := by
  rcases hs with rfl | rfl
  · exact .inl ⟨by omega, by omega⟩
  · exact .inr ⟨by omega, by omega⟩

/-- What a call of the walker from `(x, y)` does. -/
structure Walked (τ : BresenhamTrajectory) (x y : ℤ) (step : BresenhamStep) : Prop where
  target : step.trajectory = { τ with err := step.trajectory.err }
  onCourse : OnCourse step.trajectory (x + step.xStep) (y + step.yStep)
  arrived : step.arrived = true → x + step.xStep = τ.xTarget ∧ y + step.yStep = τ.yTarget
  betweenX : Between x (x + step.xStep) τ.xTarget
  betweenY : Between y (y + step.yStep) τ.yTarget

theorem computeBresenhamStep_spec {speed : ℤ} (h : OnCourse τ x y) (hspeed : 0 ≤ speed) :
    ∃ step, computeBresenhamStep x y τ speed = some step ∧ Walked τ x y step := by
  unfold computeBresenhamStep
  rw [if_neg (by omega)]
  rcases h with ⟨rfl, rfl⟩ | ⟨p, q, h⟩
  -- no trajectory: the walker stands on its target
  · have hzero : MANHATTAN τ.xTarget τ.yTarget τ.xTarget τ.yTarget ≤ speed := by
      simpa [MANHATTAN] using hspeed
    rw [if_pos hzero]
    refine ⟨_, rfl, rfl, .inl ?_, fun _ => ?_, .inl ?_, .inl ?_⟩ <;> simp
  · have hx := h.xTarget
    have hy := h.yTarget
    split
    -- near enough, the call jumps to the target
    · have habs : ABS (x - τ.xTarget) * τ.sx = τ.sx * p := by
        have := h.p_nonneg
        rcases h.sx with hsx | hsx <;> rw [hsx] at hx ⊢ <;> unfold ABS <;> split <;> omega
      have habs' : ABS (y - τ.yTarget) * τ.sy = τ.sy * q := by
        have := h.q_nonneg
        rcases h.sy with hsy | hsy <;> rw [hsy] at hy ⊢ <;> unfold ABS <;> split <;> omega
      refine ⟨_, rfl, rfl, .inl ?_, fun _ => ?_, ?_, ?_⟩
      · simp only [habs, habs', ← hx, ← hy, and_self]
      · simp only [habs, habs', ← hx, ← hy, and_self]
      · simp only [habs, ← hx]
        exact between_of_remaining 0 h.sx hx (by simp) le_rfl h.p_nonneg
      · simp only [habs', ← hy]
        exact between_of_remaining 0 h.sy hy (by simp) le_rfl h.q_nonneg
    -- otherwise the loop walks `speed` cells
    · have hstart : RemainingAfter τ x y ⟨0, 0, τ.err⟩ p q := by
        simpa [RemainingAfter] using h
      obtain ⟨c, hc, p', q', hp', hq', h'⟩ := bresenhamLoop_spec speed.toNat _ hstart
      refine ⟨⟨c.onTarget τ x y, c.xStep, c.yStep, { τ with err := c.err }⟩, by rw [hc]; rfl, rfl,
        .inr ⟨p', q', ?_⟩, fun harrived => ?_, ?_, ?_⟩
      · exact ⟨h'.sx, h'.sy, h'.p_nonneg, h'.p_le, h'.q_nonneg, h'.q_le, h'.xTarget, h'.yTarget,
          h'.err_eq⟩
      · exact h'.onTarget_iff.mpr ((onTarget_eq_true_iff h').mp harrived)
      · exact between_of_remaining _ h.sx hx h'.xTarget h'.p_nonneg hp'
      · exact between_of_remaining _ h.sy hy h'.yTarget h'.q_nonneg hq'

end EmergencyDispatch
