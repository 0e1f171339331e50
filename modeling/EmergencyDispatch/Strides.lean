import EmergencyDispatch.Walking
import Mathlib.Logic.Function.Iterate

/-!
# How far the walker gets

The loop of `compute_bresenham_step` walks one cell after the other; between two
cells it is either at the top of the loop or in the middle of a diagonal, where
the second half is still to come (`walkCell`).  Far from the target a call is that
many cells (`bresenhamLoop_eq_iterate`), and near the target it is what remains.

A walker that is called again and again, with any budgets, arrives exactly: each
call walks as many cells as its budget and what remains allow, and reports the
target if and only if the walker stands on it (`walker_arrives_exactly`).
-/

namespace EmergencyDispatch

open CellsWalked

variable {τ : BresenhamTrajectory} {x y err p q : ℤ}

/-! ## One cell after the other -/

/-- One cell of the loop; the flag says that the walker is in the middle of a
diagonal, with the step on the y axis still to make. -/
def walkCell (τ : BresenhamTrajectory) : CellsWalked × Bool → CellsWalked × Bool
  | (c, true) => (stepOnY τ c, false)
  | (c, false) =>
      if -τ.dy ≤ 2 * c.err then (stepOnX τ c, decide (2 * c.err ≤ τ.dx))
      else (stepOnY τ c, false)

/-- Cells remain, on the y axis too when half a diagonal is to come. -/
structure Stands (τ : BresenhamTrajectory) (x y : ℤ) (s : CellsWalked × Bool) (p q : ℤ) :
    Prop where
  remaining : RemainingAfter τ x y s.1 p q
  half : s.2 = true → 0 < q

theorem Stands.walkCell {s : CellsWalked × Bool} (h : Stands τ x y s p q) (hpos : 0 < p + q) :
    ∃ p' q', Stands τ x y (walkCell τ s) p' q' ∧ p' ≤ p ∧ q' ≤ q ∧ p' + q' = p + q - 1 := by
  obtain ⟨c, half⟩ := s
  have hrem := h.remaining
  have hnot : ¬(p = 0 ∧ q = 0) := by omega
  cases half with
  | true =>
      have hq : 0 < q := h.half rfl
      exact ⟨p, q - 1, ⟨remainingAfter_stepOnY hrem hq, by simp [EmergencyDispatch.walkCell]⟩,
        le_rfl, by omega, by omega⟩
  | false =>
      by_cases hx : -τ.dy ≤ 2 * c.err
      · have hp : 0 < p := hrem.p_pos hnot hx
        refine ⟨p - 1, q, ⟨?_, fun hhalf => ?_⟩, by omega, le_rfl, by omega⟩
        · simpa [EmergencyDispatch.walkCell, hx] using remainingAfter_stepOnX hrem hp
        · have hy : 2 * c.err ≤ τ.dx := by simpa [EmergencyDispatch.walkCell, hx] using hhalf
          exact hrem.q_pos hnot hy
      · -- one of the two axes is always walked
        have hy : 2 * c.err ≤ τ.dx := by
          have hdx := hrem.p_nonneg.trans hrem.p_le
          have hdy := hrem.q_nonneg.trans hrem.q_le
          omega
        have hq : 0 < q := hrem.q_pos hnot hy
        refine ⟨p, q - 1, ⟨?_, ?_⟩, le_rfl, by omega, by omega⟩
        · simpa [EmergencyDispatch.walkCell, hx] using remainingAfter_stepOnY hrem hq
        · simp [EmergencyDispatch.walkCell, hx]

theorem Stands.iterate {s : CellsWalked × Bool} (h : Stands τ x y s p q) (n : ℕ)
    (hn : (n : ℤ) ≤ p + q) :
    ∃ p' q', Stands τ x y ((EmergencyDispatch.walkCell τ)^[n] s) p' q' ∧ p' ≤ p ∧ q' ≤ q ∧
      p' + q' = p + q - n := by
  induction n generalizing s p q with
  | zero => exact ⟨p, q, h, le_rfl, le_rfl, by simp⟩
  | succ n ih =>
      obtain ⟨p₁, q₁, h₁, hp₁, hq₁, hsum₁⟩ := h.walkCell (by omega)
      obtain ⟨p', q', h', hp', hq', hsum'⟩ := ih h₁ (by omega)
      exact ⟨p', q', h', by omega, by omega, by omega⟩

theorem bresenhamLoop_eq_iterate (n : ℕ) (c : CellsWalked) (h : RemainingAfter τ x y c p q)
    (hn : (n : ℤ) ≤ p + q) :
    bresenhamLoop τ x y n c = some ((walkCell τ)^[n] (c, false)).1 := by
  fun_induction bresenhamLoop τ x y n c generalizing p q with
  | case1 c => rfl
  | case2 n c htarget =>
      obtain ⟨rfl, rfl⟩ := (onTarget_eq_true_iff h).mp htarget
      omega
  | case3 c htarget hx => simp [walkCell, hx]
  | case4 c htarget hx n hy ih =>
      have hnot : ¬(p = 0 ∧ q = 0) := fun h0 => htarget ((onTarget_eq_true_iff h).mpr h0)
      have hdiagonal := remainingAfter_stepOnY (remainingAfter_stepOnX h (h.p_pos hnot hx))
        (h.q_pos hnot hy)
      rw [ih hdiagonal (by push_cast at hn; omega)]
      simp [Function.iterate_succ_apply, walkCell, hx, hy]
  | case5 c htarget hx n hy ih =>
      have hnot : ¬(p = 0 ∧ q = 0) := fun h0 => htarget ((onTarget_eq_true_iff h).mpr h0)
      rw [ih (remainingAfter_stepOnX h (h.p_pos hnot hx)) (by push_cast at hn ⊢; omega)]
      simp [Function.iterate_succ_apply, walkCell, hx, hy]
  | case6 c n htarget hx hy ih =>
      have hnot : ¬(p = 0 ∧ q = 0) := fun h0 => htarget ((onTarget_eq_true_iff h).mpr h0)
      rw [ih (remainingAfter_stepOnY h (h.q_pos hnot hy)) (by push_cast at hn ⊢; omega)]
      simp [Function.iterate_succ_apply, walkCell, hx]
  | case7 c n htarget hx hy =>
      have hdx := h.p_nonneg.trans h.p_le
      have hdy := h.q_nonneg.trans h.q_le
      omega

/-! ## Distances -/

theorem MANHATTAN_eq_zero_iff {x y x' y' : ℤ} : MANHATTAN x y x' y' = 0 ↔ x = x' ∧ y = y' := by
  simp only [MANHATTAN, ABS]
  split <;> split <;> omega

/-- A walk towards the target comes nearer by what it walks. -/
theorem MANHATTAN_between {x y x' y' xt yt : ℤ} (hx : Between x x' xt) (hy : Between y y' yt) :
    MANHATTAN x y x' y' + MANHATTAN x' y' xt yt = MANHATTAN x y xt yt := by
  simp only [MANHATTAN, ABS]
  rcases hx with hx | hx <;> rcases hy with hy | hy <;> split_ifs <;> omega

theorem Remaining.manhattan (h : Remaining τ x y err p q) :
    MANHATTAN x y τ.xTarget τ.yTarget = p + q := by
  have hx := h.xTarget
  have hy := h.yTarget
  have hp := h.p_nonneg
  have hq := h.q_nonneg
  rcases h.sx with hsx | hsx <;> rcases h.sy with hsy | hsy <;> rw [hsx] at hx <;>
    rw [hsy] at hy <;> simp only [MANHATTAN, ABS] <;> split_ifs <;> omega

theorem computeBresenhamStep_far {speed : ℤ} (h : Remaining τ x y τ.err p q) (hspeed : 0 ≤ speed)
    (hfar : speed < p + q) :
    let c := ((walkCell τ)^[speed.toNat] (⟨0, 0, τ.err⟩, false)).1
    computeBresenhamStep x y τ speed =
        some ⟨false, c.xStep, c.yStep, { τ with err := c.err }⟩ ∧
      ∃ p' q', RemainingAfter τ x y c p' q' ∧ p' + q' = p + q - speed := by
  intro c
  have hstart : RemainingAfter τ x y ⟨0, 0, τ.err⟩ p q := by
    simpa [RemainingAfter] using h
  have hle : (speed.toNat : ℤ) ≤ p + q := by omega
  have hstands : Stands τ x y (⟨0, 0, τ.err⟩, false) p q := ⟨hstart, by simp⟩
  obtain ⟨p', q', h', -, -, hsum⟩ := hstands.iterate speed.toNat hle
  have hnot : c.onTarget τ x y = false := by
    rw [Bool.eq_false_iff]
    intro htarget
    obtain ⟨rfl, rfl⟩ := (onTarget_eq_true_iff h'.remaining).mp htarget
    omega
  refine ⟨?_, p', q', h'.remaining, by omega⟩
  rw [computeBresenhamStep, if_neg (by omega), h.manhattan, if_neg (by omega),
    bresenhamLoop_eq_iterate _ _ hstart hle, Option.map_some]
  exact congrArg some (by rw [show onTarget τ x y _ = false from hnot])

/-- **One call.**  It walks as many cells as it may and as remain, and tells
whether the walker stands on the target. -/
theorem computeBresenhamStep_cells {speed : ℤ} {step : BresenhamStep} (h : OnCourse τ x y)
    (hspeed : 0 ≤ speed) (hstep : computeBresenhamStep x y τ speed = some step) :
    MANHATTAN x y (x + step.xStep) (y + step.yStep) =
        min speed (MANHATTAN x y τ.xTarget τ.yTarget) ∧
      (step.arrived = true ↔ x + step.xStep = τ.xTarget ∧ y + step.yStep = τ.yTarget) := by
  obtain ⟨step', hstep', hwalked⟩ := computeBresenhamStep_spec h hspeed
  obtain rfl : step = step' := Option.some_injective _ (hstep.symm.trans hstep')
  have hnearer := MANHATTAN_between hwalked.betweenX hwalked.betweenY
  rcases le_or_gt (MANHATTAN x y τ.xTarget τ.yTarget) speed with hnear | hfar
  · have harrived : step.arrived = true := by
      rw [computeBresenhamStep, if_neg (by omega), if_pos hnear] at hstep
      rw [← Option.some_injective _ hstep]
    have hstands := hwalked.arrived harrived
    rw [MANHATTAN_eq_zero_iff.mpr hstands] at hnearer
    exact ⟨by omega, iff_of_true harrived hstands⟩
  · rcases h with hstands | ⟨p, q, h⟩
    · rw [MANHATTAN_eq_zero_iff.mpr hstands] at hfar
      omega
    · rw [h.manhattan] at hfar hnearer ⊢
      obtain ⟨hcall, p', q', h', hsum⟩ := computeBresenhamStep_far h hspeed hfar
      obtain rfl := Option.some_injective _ (hstep.symm.trans hcall)
      have hleft := h'.manhattan
      dsimp only at hnearer ⊢
      refine ⟨by omega, iff_of_false (by simp) fun hstands => ?_⟩
      rw [MANHATTAN_eq_zero_iff.mpr hstands] at hleft
      omega

/-! ## One call after the other -/

/-- A walker between two calls. -/
structure Walker where
  x : ℤ
  y : ℤ
  trajectory : BresenhamTrajectory
  deriving DecidableEq

namespace Walker

/-- The walker at `(x, y)`, after `change_bresenham_trajectory`. -/
def setOut (x y newX newY : ℤ) : Walker := ⟨x, y, changeBresenhamTrajectory x y newX newY⟩

/-- One call, whose displacement is added to the position. -/
def call (p : Walker) (cellsPerStep : ℤ) : Option (Walker × Bool) :=
  (computeBresenhamStep p.x p.y p.trajectory cellsPerStep).map fun step =>
    (⟨p.x + step.xStep, p.y + step.yStep, step.trajectory⟩, step.arrived)

/-- One call after the other, with these budgets. -/
def calls (p : Walker) : List ℤ → Option Walker
  | [] => some p
  | c :: budgets => (p.call c).bind fun (p, _) => p.calls budgets

/-- The cells to go. -/
def remaining (p : Walker) : ℤ := MANHATTAN p.x p.y p.trajectory.xTarget p.trajectory.yTarget

/-- The walker goes from one cell to another and has not left the rectangle between them. -/
structure Travelling (x₀ y₀ xt yt : ℤ) (p : Walker) : Prop where
  xTarget : p.trajectory.xTarget = xt
  yTarget : p.trajectory.yTarget = yt
  onCourse : OnCourse p.trajectory p.x p.y
  betweenX : Between x₀ p.x xt
  betweenY : Between y₀ p.y yt

theorem travelling_setOut (x y newX newY : ℤ) :
    Travelling x y newX newY (setOut x y newX newY) where
  xTarget := rfl
  yTarget := rfl
  onCourse := onCourse_changeBresenhamTrajectory x y newX newY
  betweenX := by simp only [Between, setOut]; omega
  betweenY := by simp only [Between, setOut]; omega

variable {x₀ y₀ xt yt : ℤ} {p p' : Walker} {c : ℤ} {arrived : Bool}

/-- What a call with budget `c` does to a walker. -/
structure Advances (c : ℤ) (p p' : Walker) (arrived : Bool) : Prop where
  cells : MANHATTAN p.x p.y p'.x p'.y = min c p.remaining
  remaining : p'.remaining = p.remaining - min c p.remaining
  arrived_iff : arrived = true ↔ p'.x = p'.trajectory.xTarget ∧ p'.y = p'.trajectory.yTarget

/-- **Step lemma.**  Every call returns, and the walker advances inside the rectangle. -/
theorem Travelling.call (h : Travelling x₀ y₀ xt yt p) (hc : 0 ≤ c) :
    ∃ p' arrived, p.call c = some (p', arrived) ∧ Advances c p p' arrived ∧
      Travelling x₀ y₀ xt yt p' := by
  obtain ⟨step, hstep, hwalked⟩ := computeBresenhamStep_spec h.onCourse hc
  obtain ⟨hcells, harrived⟩ := computeBresenhamStep_cells h.onCourse hc hstep
  have hx : step.trajectory.xTarget = p.trajectory.xTarget := by rw [hwalked.target]
  have hy : step.trajectory.yTarget = p.trajectory.yTarget := by rw [hwalked.target]
  have hnearer := MANHATTAN_between hwalked.betweenX hwalked.betweenY
  have hwalkedX := hwalked.betweenX
  have hwalkedY := hwalked.betweenY
  rw [h.xTarget] at hwalkedX
  rw [h.yTarget] at hwalkedY
  refine ⟨⟨p.x + step.xStep, p.y + step.yStep, step.trajectory⟩, step.arrived,
    by simp [Walker.call, hstep], ⟨hcells, ?_, ?_⟩,
    ⟨hx.trans h.xTarget, hy.trans h.yTarget, hwalked.onCourse, ?_, ?_⟩⟩
  · simp only [remaining, hx, hy]
    omega
  · simp only [hx, hy]
    exact harrived
  · rcases h.betweenX with hb | hb <;> rcases hwalkedX with hb' | hb' <;>
      simp only [Between] <;> omega
  · rcases h.betweenY with hb | hb <;> rcases hwalkedY with hb' | hb' <;>
      simp only [Between] <;> omega

/-- **Run lemma.** -/
theorem Travelling.calls (h : Travelling x₀ y₀ xt yt p) (budgets : List ℤ)
    (hbudgets : ∀ c ∈ budgets, 0 ≤ c) :
    ∃ p', p.calls budgets = some p' ∧ Travelling x₀ y₀ xt yt p' := by
  induction budgets generalizing p with
  | nil => exact ⟨p, rfl, h⟩
  | cons c budgets ih =>
      obtain ⟨p₁, arrived, hcall, -, h₁⟩ := h.call (hbudgets c List.mem_cons_self)
      obtain ⟨p', hcalls, h'⟩ := ih h₁ fun c hc => hbudgets c (List.mem_cons_of_mem _ hc)
      exact ⟨p', by simp [Walker.calls, hcall, hcalls], h'⟩

/-- **The walker arrives exactly.**  After any calls from the start of a trajectory,
the next call returns, walks as many cells as its budget and the cells to go allow,
comes nearer by just as many, stays in the rectangle of the start and the target,
and answers whether the walker stands on the target. -/
theorem walker_arrives_exactly (x₀ y₀ xt yt : ℤ) (budgets : List ℤ)
    (hbudgets : ∀ c ∈ budgets, 1 ≤ c) (c : ℤ) (hc : 1 ≤ c) :
    ∃ p p' arrived, (setOut x₀ y₀ xt yt).calls budgets = some p ∧
      p.call c = some (p', arrived) ∧
      MANHATTAN p.x p.y p'.x p'.y = min c (MANHATTAN p.x p.y xt yt) ∧
      MANHATTAN p'.x p'.y xt yt = MANHATTAN p.x p.y xt yt - min c (MANHATTAN p.x p.y xt yt) ∧
      Between x₀ p'.x xt ∧ Between y₀ p'.y yt ∧ (arrived = true ↔ p'.x = xt ∧ p'.y = yt) := by
  obtain ⟨p, hcalls, hp⟩ := (travelling_setOut x₀ y₀ xt yt).calls budgets
    fun c hc => (zero_le_one' ℤ).trans (hbudgets c hc)
  obtain ⟨p', arrived, hcall, hadvances, hp'⟩ := hp.call ((zero_le_one' ℤ).trans hc)
  have hcells := hadvances.cells
  have hremaining := hadvances.remaining
  have harrived := hadvances.arrived_iff
  rw [hp'.xTarget, hp'.yTarget] at harrived
  simp only [remaining, hp.xTarget, hp.yTarget, hp'.xTarget, hp'.yTarget] at hcells hremaining
  exact ⟨p, p', arrived, hcalls, hcall, hcells, hremaining, hp'.betweenX, hp'.betweenY, harrived⟩

/-- Three calls to a cell four cells away: the last one has one cell more than it needs. -/
theorem walker_arrives_exactly_diagonal :
    ∃ p p' arrived, (setOut 0 0 2 2).calls [1, 2] = some p ∧ p.call 2 = some (p', arrived) ∧
      MANHATTAN p.x p.y p'.x p'.y = min 2 (MANHATTAN p.x p.y 2 2) ∧
      (arrived = true ↔ p'.x = 2 ∧ p'.y = 2) := by
  obtain ⟨p, p', arrived, hcalls, hcall, hcells, -, -, -, harrived⟩ :=
    walker_arrives_exactly 0 0 2 2 [1, 2] (by decide) 2 (by decide)
  exact ⟨p, p', arrived, hcalls, hcall, hcells, harrived⟩

end Walker

end EmergencyDispatch
