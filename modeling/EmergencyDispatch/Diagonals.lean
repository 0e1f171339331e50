import EmergencyDispatch.Strides
import Mathlib.Tactic.Linarith

/-!
# Diagonals cut in two

A diagonal is two cells, and a call whose budget ends after the first one leaves the
walker in the middle of it.  The next call knows nothing of the second half: it
computes `e2` again, from the error that the first half has changed.  The two
agree on the step that comes next unless the error calls for one more cell on the x
axis; then the walker makes that cell first, is beside the line for as long as one
cell, and is back on it after the next.

So a call of `n` cells and one of `m` cells lead where a call of `n + m` leads except
when `m = 1`, the target is farther than `n + 1` cells, and the first call cuts such a
diagonal (`CutsDiagonal`, which is told from the error of the trajectory).
-/

namespace EmergencyDispatch

open CellsWalked

variable {τ : BresenhamTrajectory} {x y err p q : ℤ} {c : CellsWalked} {s : CellsWalked × Bool}

/-! ## Without the second half -/

/-- The displacement does not decide where the walker goes. -/
def shift (a b : ℤ) (s : CellsWalked × Bool) : CellsWalked × Bool :=
  (⟨a + s.1.xStep, b + s.1.yStep, s.1.err⟩, s.2)

theorem walkCell_shift (a b : ℤ) :
    Function.Semiconj (shift a b) (walkCell τ) (walkCell τ) := by
  rintro ⟨c, half⟩
  cases half with
  | true => simp [shift, walkCell, stepOnY, add_assoc]
  | false => by_cases hx : -τ.dy ≤ 2 * c.err <;> simp [shift, walkCell, stepOnX, stepOnY, hx,
      add_assoc]

/-- The second half would come next anyway. -/
theorem walkCell_false (hc : 2 * c.err < -τ.dy) :
    walkCell τ (c, false) = walkCell τ (c, true) := by
  simp [walkCell, not_le.mpr hc]

/-- Otherwise the walker is where it should be after two cells. -/
theorem walkCell_twice (hx : -τ.dy ≤ 2 * c.err) (hy : 2 * (c.err + τ.dy) ≤ τ.dx)
    (hdy : 0 ≤ τ.dy) (hlt : τ.dy < τ.dx) :
    walkCell τ (walkCell τ (c, false)) = walkCell τ (walkCell τ (c, true)) := by
  have hhalf : 2 * c.err ≤ τ.dx := by omega
  have hagain : -τ.dy ≤ 2 * (c.err + τ.dx) := by omega
  have hwhole : ¬2 * (c.err + τ.dx) ≤ τ.dx := by omega
  simp only [walkCell, stepOnX, stepOnY, hx, hagain, hhalf, hwhole, if_true, decide_true,
    decide_false]
  simp only [Prod.mk.injEq, CellsWalked.mk.injEq, and_true, true_and]
  omega

/-- The walker in the middle of a diagonal that was begun with `dy ≤ e2`. -/
def Astray (τ : BresenhamTrajectory) (s : CellsWalked × Bool) : Prop :=
  s.2 = true ∧ -τ.dy ≤ 2 * s.1.err

theorem iterate_forget (m : ℕ) (hm : 1 ≤ m)
    (hhalf : s.2 = true → 2 * (s.1.err + τ.dy) ≤ τ.dx) (hdy : 0 ≤ τ.dy)
    (hlt : Astray τ s → τ.dy < τ.dx) (hone : Astray τ s → m ≠ 1) :
    (walkCell τ)^[m] (s.1, false) = (walkCell τ)^[m] s := by
  obtain ⟨c, half⟩ := s
  cases half with
  | false => rfl
  | true =>
      obtain ⟨m, rfl⟩ := Nat.exists_eq_add_of_le' hm
      by_cases hx : -τ.dy ≤ 2 * c.err
      · have hastray : Astray τ (c, true) := ⟨rfl, hx⟩
        have hm0 : m ≠ 0 := fun h => hone hastray (by omega)
        obtain ⟨m, rfl⟩ := Nat.exists_eq_succ_of_ne_zero hm0
        simp only [Function.iterate_succ_apply]
        rw [walkCell_twice hx (hhalf rfl) hdy (hlt hastray)]
      · simp only [Function.iterate_succ_apply]
        rw [walkCell_false (not_le.mp hx)]

/-! ## The error along a walk -/

/-- The error on a trajectory that leads more along x than along y. -/
def Tame (τ : BresenhamTrajectory) (err : ℤ) : Prop :=
  τ.dy < τ.dx → -3 * τ.dy ≤ 2 * err ∧ 2 * err ≤ 3 * τ.dx - 2 * τ.dy

/-- After `j` cells, `i` on one axis and `k` on the other. -/
structure AfterCells (τ : BresenhamTrajectory) (err : ℤ) (j : ℕ) (s : CellsWalked × Bool)
    (i k : ℕ) : Prop where
  cells : i + k = j
  err_eq : s.1.err = err - i * τ.dy + k * τ.dx
  half : s.2 = true → 0 < j ∧ 2 * (s.1.err + τ.dy) ≤ τ.dx ∧ -τ.dy ≤ 2 * (s.1.err + τ.dy)
  whole : τ.dy < τ.dx → s.2 = false → j = 0 ∨ τ.dx < 2 * (s.1.err + τ.dy)
  tame : Tame τ s.1.err

theorem AfterCells.next {err : ℤ} {j i k : ℕ} (h : AfterCells τ err j s i k) (hdy : 0 ≤ τ.dy) :
    ∃ i' k', AfterCells τ err (j + 1) (walkCell τ s) i' k' := by
  obtain ⟨c, half⟩ := s
  have herr : c.err = err - i * τ.dy + k * τ.dx := h.err_eq
  have hcells := h.cells
  have htame : Tame τ c.err := h.tame
  cases half with
  -- the second half of a diagonal
  | true =>
      obtain ⟨-, hle, hge⟩ : _ ∧ 2 * (c.err + τ.dy) ≤ τ.dx ∧ -τ.dy ≤ 2 * (c.err + τ.dy) :=
        h.half rfl
      refine ⟨i, k + 1, by omega, ?_, by simp [walkCell], fun hlt _ => .inr ?_, fun hlt => ?_⟩
      · simp only [walkCell, stepOnY]
        push_cast
        linarith
      · simp only [walkCell, stepOnY]
        omega
      · simp only [walkCell, stepOnY]
        omega
  | false =>
      -- a cell on the x axis, which may be the first half, or one on the y axis alone
      by_cases hx : -τ.dy ≤ 2 * c.err
      · refine ⟨i + 1, k, by omega, ?_, fun hhalf => ⟨by omega, ?_, ?_⟩, fun hlt hwhole => .inr ?_,
          fun hlt => ?_⟩
        · simp only [walkCell, if_pos hx, stepOnX]
          push_cast
          linarith
        · simpa [walkCell, hx, stepOnX] using hhalf
        · simp only [walkCell, if_pos hx, stepOnX]
          omega
        · simpa [walkCell, hx, stepOnX] using hwhole
        · have hbounds := htame hlt
          simp only [walkCell, if_pos hx, stepOnX]
          omega
      · refine ⟨i, k + 1, by omega, ?_, by simp [walkCell, hx], fun hlt _ => .inr ?_,
          fun hlt => ?_⟩
        · simp only [walkCell, if_neg hx, stepOnY]
          push_cast
          linarith
        · have hbounds := htame hlt
          simp only [walkCell, if_neg hx, stepOnY]
          omega
        · have hbounds := htame hlt
          simp only [walkCell, if_neg hx, stepOnY]
          omega

theorem afterCells_iterate (c : CellsWalked) (hdy : 0 ≤ τ.dy) (htame : Tame τ c.err) (j : ℕ) :
    ∃ i k, AfterCells τ c.err j ((walkCell τ)^[j] (c, false)) i k := by
  induction j with
  | zero => exact ⟨0, 0, rfl, by simp, by simp, fun _ _ => .inl rfl, htame⟩
  | succ j ih =>
      obtain ⟨i, k, h⟩ := ih
      rw [Function.iterate_succ_apply']
      exact h.next hdy

/-! ## The cells at which the walker goes astray -/

/-- The walk that goes on from the error of the trajectory has, as its `n`-th cell,
the first half of a diagonal with `dy ≤ e2`: `k` of the cells before it are on the y
axis.  After the first cell of the walk, the top of the loop has an `e2` above
`dx - 2 * dy`. -/
def CutsDiagonal (τ : BresenhamTrajectory) (n : ℕ) : Prop :=
  ∃ k < n,
    let e2 := 2 * (τ.err - ((n - 1 - k : ℕ) : ℤ) * τ.dy + k * τ.dx)
    τ.dy ≤ e2 ∧ e2 ≤ τ.dx ∧ (n = 1 ∨ τ.dx < e2 + 2 * τ.dy)

instance (τ : BresenhamTrajectory) (n : ℕ) : Decidable (CutsDiagonal τ n) :=
  inferInstanceAs (Decidable (∃ k < n, _ ∧ _ ∧ _))

/-- An error that calls for both halves with `dy ≤ e2`, on a trajectory that goes
somewhere. -/
theorem dy_lt_dx {a b : ℤ} (herr : err = τ.dx - τ.dy + τ.dy * a - τ.dx * b)
    (hpos : 0 < τ.dx + τ.dy) (hge : τ.dy ≤ 2 * err) (hle : 2 * err ≤ τ.dx) : τ.dy < τ.dx := by
  refine lt_of_le_of_ne (hge.trans hle) fun heq => ?_
  -- on a diagonal of the map the error is a multiple of `dx`
  have hmultiple : τ.dx * (2 * (a - b) - 1) = 0 := by
    rw [heq] at herr hge
    linarith
  rcases mul_eq_zero.mp hmultiple with hzero | hodd
  · omega
  · omega

/-- On the walk the two ways of telling it agree. -/
theorem cutsDiagonal_iff {n : ℕ} (h : Remaining τ x y τ.err p q) (hpos : 0 < p + q)
    (htame : Tame τ τ.err) (hn : 1 ≤ n) :
    CutsDiagonal τ n ↔ Astray τ ((walkCell τ)^[n] (⟨0, 0, τ.err⟩, false)) := by
  obtain ⟨j, rfl⟩ := Nat.exists_eq_add_of_le' hn
  have hdx := h.p_nonneg.trans h.p_le
  have hdy := h.q_nonneg.trans h.q_le
  have hsum : 0 < τ.dx + τ.dy := by
    have hp := h.p_le
    have hq := h.q_le
    omega
  obtain ⟨i, k, hafter⟩ := afterCells_iterate ⟨0, 0, τ.err⟩ hdy htame j
  rw [Function.iterate_succ_apply']
  generalize (walkCell τ)^[j] (⟨0, 0, τ.err⟩, false) = s at hafter
  obtain ⟨c, half⟩ := s
  have hcells := hafter.cells
  have herr : c.err = τ.err - i * τ.dy + k * τ.dx := hafter.err_eq
  have hfrom (i k : ℤ) : τ.err - i * τ.dy + k * τ.dx =
      τ.dx - τ.dy + τ.dy * (p - i) - τ.dx * (q - k) := by
    rw [h.err_eq]
    ring
  constructor
  · rintro ⟨k₁, hk₁, hge, hle, hfresh⟩
    obtain ⟨i₁, hi₁⟩ : ∃ i₁ : ℕ, j + 1 - 1 - k₁ = i₁ := ⟨_, rfl⟩
    rw [hi₁] at hge hle hfresh
    have hlt := dy_lt_dx (hfrom i₁ k₁) hsum hge hle
    have hbounds : -3 * τ.dy ≤ 2 * c.err ∧ 2 * c.err ≤ 3 * τ.dx - 2 * τ.dy := hafter.tame hlt
    -- two cells of one antidiagonal have errors at least `dx + dy` apart
    have hapart : c.err = τ.err - i₁ * τ.dy + k₁ * τ.dx + ((k : ℤ) - k₁) * (τ.dx + τ.dy) := by
      have hi : (i : ℤ) = i₁ + k₁ - k := by omega
      rw [herr, hi]
      ring
    have hsame : (k : ℤ) - k₁ = 0 := by
      rcases hfresh with hone | hfresh
      · omega
      · rcases lt_trichotomy ((k : ℤ) - k₁) 0 with hneg | hzero | hpos'
        · have hstep := mul_le_mul_of_nonneg_right (Int.le_sub_one_of_lt hneg) hsum.le
          linarith
        · exact hzero
        · have hstep := mul_le_mul_of_nonneg_right (Int.add_one_le_of_lt hpos') hsum.le
          linarith
    rw [hsame, zero_mul, add_zero] at hapart
    rw [← hapart] at hge hle hfresh
    cases half with
    | true =>
        obtain ⟨hj, hhalf, -⟩ : 0 < j ∧ 2 * (c.err + τ.dy) ≤ τ.dx ∧ _ := hafter.half rfl
        omega
    | false =>
        have hx : -τ.dy ≤ 2 * c.err := by omega
        refine ⟨by simpa [walkCell, hx] using hle, ?_⟩
        simp only [walkCell, if_pos hx, stepOnX]
        omega
  · rintro ⟨hhalf, hastray⟩
    cases half with
    | true => simp [walkCell] at hhalf
    | false =>
        by_cases hx : -τ.dy ≤ 2 * c.err
        · have hle : 2 * c.err ≤ τ.dx := by simpa [walkCell, hx] using hhalf
          have hge : τ.dy ≤ 2 * c.err := by
            simp only [walkCell, if_pos hx, stepOnX] at hastray
            omega
          have hwhole : j = 0 ∨ τ.dx < 2 * (c.err + τ.dy) :=
            hafter.whole (dy_lt_dx (herr.trans (hfrom i k)) hsum hge hle) rfl
          have hi : j + 1 - 1 - k = i := by omega
          refine ⟨k, by omega, ?_⟩
          simp only [hi, ← herr]
          exact ⟨hge, hle, by omega⟩
        · simp [walkCell, hx] at hhalf

/-! ## Two calls and one -/

namespace Walker

variable {x₀ y₀ xt yt : ℤ} {w w' : Walker} {n m : ℕ}

theorem walkCell_err (τ : BresenhamTrajectory) (err : ℤ) :
    walkCell { τ with err := err } = walkCell τ := by
  funext ⟨c, half⟩
  cases half <;> rfl

/-- The walker after some cells of a call. -/
def after (w : Walker) (c : CellsWalked) : Walker :=
  ⟨w.x + c.xStep, w.y + c.yStep, { w.trajectory with err := c.err }⟩

/-- The state in which a call enters the loop. -/
def inLoop (w : Walker) : CellsWalked × Bool := (⟨0, 0, w.trajectory.err⟩, false)

theorem call_far (h : Remaining w.trajectory w.x w.y w.trajectory.err p q)
    (hfar : (n : ℤ) < p + q) :
    w.call n = some (w.after ((walkCell w.trajectory)^[n] w.inLoop).1, false) ∧
      ∃ p' q', Remaining w.trajectory (w.after ((walkCell w.trajectory)^[n] w.inLoop).1).x
        (w.after ((walkCell w.trajectory)^[n] w.inLoop).1).y
        ((walkCell w.trajectory)^[n] w.inLoop).1.err p' q' ∧ p' + q' = p + q - n := by
  obtain ⟨hcall, p', q', h', hsum⟩ := computeBresenhamStep_far h n.cast_nonneg hfar
  rw [Int.toNat_natCast] at hcall h'
  exact ⟨by simp only [call, hcall]; rfl, p', q', h', hsum⟩

theorem call_near {c : ℤ} (hc : 0 ≤ c) (hnear : w.remaining ≤ c) :
    ∃ w', w.call c = some (w', true) ∧ w'.trajectory = w.trajectory := by
  have hstep : computeBresenhamStep w.x w.y w.trajectory c = some ⟨true,
      ABS (w.x - w.trajectory.xTarget) * w.trajectory.sx,
      ABS (w.y - w.trajectory.yTarget) * w.trajectory.sy, w.trajectory⟩ := by
    rw [computeBresenhamStep, if_neg (by omega)]
    exact if_pos hnear
  refine ⟨⟨w.x + ABS (w.x - w.trajectory.xTarget) * w.trajectory.sx,
    w.y + ABS (w.y - w.trajectory.yTarget) * w.trajectory.sy, w.trajectory⟩, ?_, rfl⟩
  rw [call, hstep, Option.map_some]

/-- A walker that is far from its target has cells to go on the two axes. -/
theorem Travelling.exists_remaining (h : Travelling x₀ y₀ xt yt w) (hpos : 0 < w.remaining) :
    ∃ p q, Remaining w.trajectory w.x w.y w.trajectory.err p q ∧ w.remaining = p + q := by
  rcases h.onCourse with hstands | ⟨p, q, hrem⟩
  · rw [remaining, MANHATTAN_eq_zero_iff.mpr hstands] at hpos
    exact absurd hpos (lt_irrefl 0)
  · exact ⟨p, q, hrem, hrem.manhattan⟩

theorem tame_call {c : ℤ} {arrived : Bool} (h : Travelling x₀ y₀ xt yt w) (hc : 0 ≤ c)
    (htame : Tame w.trajectory w.trajectory.err) (hcall : w.call c = some (w', arrived)) :
    Tame w'.trajectory w'.trajectory.err := by
  rcases le_or_gt w.remaining c with hnear | hfar
  · obtain ⟨w₁, hcall₁, htrajectory⟩ := call_near hc hnear
    obtain ⟨rfl, -⟩ := Prod.mk.inj (Option.some_injective _ (hcall.symm.trans hcall₁))
    rwa [htrajectory]
  · obtain ⟨p, q, hrem, hsum⟩ := h.exists_remaining (hc.trans_lt hfar)
    obtain ⟨n, rfl⟩ := Int.eq_ofNat_of_zero_le hc
    obtain ⟨hcall₁, -⟩ := call_far (n := n) hrem (by omega)
    obtain ⟨rfl, -⟩ := Prod.mk.inj (Option.some_injective _ (hcall.symm.trans hcall₁))
    obtain ⟨i, k, hafter⟩ := afterCells_iterate ⟨0, 0, w.trajectory.err⟩
      (hrem.q_nonneg.trans hrem.q_le) htame n
    exact hafter.tame

theorem tame_calls (h : Travelling x₀ y₀ xt yt w) (budgets : List ℤ)
    (hbudgets : ∀ c ∈ budgets, 0 ≤ c) (htame : Tame w.trajectory w.trajectory.err)
    (hcalls : w.calls budgets = some w') : Tame w'.trajectory w'.trajectory.err := by
  induction budgets generalizing w with
  | nil => exact Option.some_injective _ hcalls ▸ htame
  | cons c budgets ih =>
      have hc : 0 ≤ c := hbudgets c List.mem_cons_self
      obtain ⟨w₁, arrived, hcall, -, h₁⟩ := h.call hc
      rw [calls, hcall, Option.bind_some] at hcalls
      exact ih h₁ (fun c hc => hbudgets c (List.mem_cons_of_mem _ hc)) (tame_call h hc htame hcall)
        hcalls

theorem tame_setOut (x y newX newY : ℤ) :
    Tame (setOut x y newX newY).trajectory (setOut x y newX newY).trajectory.err := by
  intro hlt
  have hdx := ABS_nonneg (newX - x)
  have hdy := ABS_nonneg (newY - y)
  simp only [setOut, changeBresenhamTrajectory] at hlt ⊢
  omega

/-- A call of `n` cells and one of `m` cells lead where a call of `n + m` cells leads,
with the same answer. -/
def Additive (w : Walker) (n m : ℕ) : Prop :=
  ∃ w₁ arrived₁ w₂ w₃ arrived, w.call n = some (w₁, arrived₁) ∧
    w₁.call m = some (w₂, arrived) ∧ w.call (n + m : ℕ) = some (w₃, arrived) ∧
    w₂.x = w₃.x ∧ w₂.y = w₃.y

/-- Near the target both ways end on it. -/
theorem additive_near (h : Travelling x₀ y₀ xt yt w) (hnear : w.remaining ≤ (n + m : ℕ)) :
    Additive w n m := by
  obtain ⟨w₁, arrived₁, hcall₁, hadvances₁, h₁⟩ := h.call n.cast_nonneg
  obtain ⟨w₂, arrived₂, hcall₂, hadvances₂, h₂⟩ := h₁.call m.cast_nonneg
  obtain ⟨w₃, arrived₃, hcall₃, hadvances₃, h₃⟩ := h.call (n + m).cast_nonneg
  have hleft₁ := hadvances₁.remaining
  have hleft₂ := hadvances₂.remaining
  have hleft₃ := hadvances₃.remaining
  push_cast at hnear hleft₃
  have htarget₂ := MANHATTAN_eq_zero_iff.mp (show w₂.remaining = 0 by omega)
  have htarget₃ := MANHATTAN_eq_zero_iff.mp (show w₃.remaining = 0 by omega)
  obtain rfl : arrived₂ = true := hadvances₂.arrived_iff.mpr htarget₂
  obtain rfl : arrived₃ = true := hadvances₃.arrived_iff.mpr htarget₃
  refine ⟨w₁, arrived₁, w₂, w₃, true, hcall₁, hcall₂, hcall₃, ?_, ?_⟩
  · rw [htarget₂.1, htarget₃.1, h₂.xTarget, h₃.xTarget]
  · rw [htarget₂.2, htarget₃.2, h₂.yTarget, h₃.yTarget]

/-- Far from the target it comes to whether the second half of a diagonal matters. -/
theorem additive_far (h : Remaining w.trajectory w.x w.y w.trajectory.err p q)
    (hfar : ((n + m : ℕ) : ℤ) < p + q) {s : CellsWalked × Bool}
    (hs : (walkCell w.trajectory)^[n] w.inLoop = s) :
    Additive w n m ↔
      ((walkCell w.trajectory)^[m] (s.1, false)).1.xStep =
          ((walkCell w.trajectory)^[m] s).1.xStep ∧
        ((walkCell w.trajectory)^[m] (s.1, false)).1.yStep =
          ((walkCell w.trajectory)^[m] s).1.yStep := by
  push_cast at hfar
  obtain ⟨hcall₁, p', q', h', hsum⟩ := call_far (n := n) h (by omega)
  obtain ⟨hcall₃, -⟩ := call_far (n := n + m) h (by push_cast; omega)
  rw [hs] at hcall₁ h'
  have hrem : Remaining (w.after s.1).trajectory (w.after s.1).x (w.after s.1).y
      (w.after s.1).trajectory.err p' q' :=
    ⟨h'.sx, h'.sy, h'.p_nonneg, h'.p_le, h'.q_nonneg, h'.q_le, h'.xTarget, h'.yTarget, h'.err_eq⟩
  obtain ⟨hcall₂, -⟩ := call_far (n := m) hrem (by omega)
  -- the second call starts from no displacement, the walk as a whole from the first one's
  have hshift : (walkCell w.trajectory)^[m] (s.1, false) =
      shift s.1.xStep s.1.yStep ((walkCell w.trajectory)^[m] (w.after s.1).inLoop) := by
    rw [(walkCell_shift s.1.xStep s.1.yStep).iterate_right m]
    simp [shift, inLoop, after]
  rw [after, walkCell_err, ← after] at hcall₂
  rw [Nat.add_comm, Function.iterate_add_apply, hs] at hcall₃
  rw [hshift]
  constructor
  · rintro ⟨w₁, arrived₁, w₂, w₃, arrived, h₁, h₂, h₃, hx, hy⟩
    obtain ⟨rfl, -⟩ := Prod.mk.inj (Option.some_injective _ (hcall₁.symm.trans h₁))
    obtain ⟨rfl, -⟩ := Prod.mk.inj (Option.some_injective _ (hcall₂.symm.trans h₂))
    rw [Nat.add_comm, hcall₃] at h₃
    obtain ⟨rfl, -⟩ := Prod.mk.inj (Option.some_injective _ h₃)
    simp only [after, shift] at hx hy ⊢
    omega
  · rintro ⟨hx, hy⟩
    refine ⟨_, _, _, _, false, hcall₁, hcall₂, by rw [Nat.add_comm]; exact hcall₃, ?_, ?_⟩
    · simp only [after, shift] at hx ⊢
      omega
    · simp only [after, shift] at hy ⊢
      omega

/-- **Walking is additive up to half a diagonal.**  For every walker on a trajectory,
after any calls, two calls of `n` and `m` cells lead where one of `n + m` cells leads,
with the same answer, if and only if the last cell is not all that is left after a
diagonal was cut. -/
theorem walking_additive_iff (x₀ y₀ xt yt : ℤ) (budgets : List ℤ)
    (hbudgets : ∀ c ∈ budgets, 1 ≤ c) (hn : 1 ≤ n) (hm : 1 ≤ m) :
    ∃ w, (setOut x₀ y₀ xt yt).calls budgets = some w ∧
      (Additive w n m ↔
        ¬(m = 1 ∧ (n : ℤ) + 1 < w.remaining ∧ CutsDiagonal w.trajectory n)) := by
  have hstart := travelling_setOut x₀ y₀ xt yt
  have hbudgets' : ∀ c ∈ budgets, 0 ≤ c := fun c hc => (zero_le_one' ℤ).trans (hbudgets c hc)
  obtain ⟨w, hcalls, h⟩ := hstart.calls budgets hbudgets'
  have htame := tame_calls hstart budgets hbudgets' (tame_setOut x₀ y₀ xt yt) hcalls
  refine ⟨w, hcalls, ?_⟩
  rcases le_or_gt w.remaining (n + m : ℕ) with hnear | hfar
  · refine iff_of_true (additive_near h hnear) ?_
    rintro ⟨rfl, hfar, -⟩
    push_cast at hnear
    omega
  · obtain ⟨p, q, hrem, hsum⟩ := h.exists_remaining (by omega)
    have hpos : 0 < p + q := by omega
    have hdy := hrem.q_nonneg.trans hrem.q_le
    rw [hsum] at hfar
    rw [cutsDiagonal_iff hrem hpos htame hn, additive_far hrem hfar rfl]
    change _ ↔ ¬(m = 1 ∧ _ ∧ Astray w.trajectory ((walkCell w.trajectory)^[n] w.inLoop))
    obtain ⟨i, k, hafter⟩ := afterCells_iterate ⟨0, 0, w.trajectory.err⟩ hdy htame n
    change AfterCells _ _ _ ((walkCell w.trajectory)^[n] w.inLoop) i k at hafter
    have hfrom : w.trajectory.err = _ := hrem.err_eq
    generalize (walkCell w.trajectory)^[n] w.inLoop = s at hafter
    have hlt : Astray w.trajectory s → w.trajectory.dy < w.trajectory.dx := by
      rintro ⟨hhalf, hge⟩
      -- the error before the first half
      have hbefore : s.1.err + w.trajectory.dy = w.trajectory.dx - w.trajectory.dy +
          w.trajectory.dy * (p - i + 1) - w.trajectory.dx * (q - k) := by
        rw [hafter.err_eq, hfrom]
        ring
      have hp := hrem.p_le
      have hq := hrem.q_le
      exact dy_lt_dx hbefore (by omega) (by omega) (hafter.half hhalf).2.1
    constructor
    · rintro ⟨hx, -⟩ ⟨rfl, -, hastray⟩
      obtain ⟨c, half⟩ := s
      obtain rfl : half = true := hastray.1
      have hge : -w.trajectory.dy ≤ 2 * c.err := hastray.2
      simp only [Function.iterate_one, walkCell, if_pos hge, stepOnX, stepOnY] at hx
      rcases hrem.sx with hsx | hsx <;> omega
    · intro hnot
      have hone : Astray w.trajectory s → m ≠ 1 := by
        rintro hastray rfl
        push_cast at hfar
        exact hnot ⟨rfl, by omega, hastray⟩
      rw [iterate_forget m hm (fun hhalf => (hafter.half hhalf).2.1) hdy hlt hone]
      exact ⟨rfl, rfl⟩

/-- After two calls of one cell on the way to a cell that is ten cells away on one axis
and one on the other, the third cell from there is the first half of a diagonal. -/
theorem walking_additive_iff_cut : ∃ w, (setOut 0 0 10 1).calls [1, 1] = some w ∧
    Additive w 3 2 ∧ ¬Additive w 3 1 := by
  obtain ⟨w, hcalls, hone⟩ :=
    walking_additive_iff 0 0 10 1 [1, 1] (by decide) (n := 3) (m := 1) (by decide) (by decide)
  obtain ⟨w', hcalls', htwo⟩ :=
    walking_additive_iff 0 0 10 1 [1, 1] (by decide) (n := 3) (m := 2) (by decide) (by decide)
  obtain rfl : w = w' := Option.some_injective _ (hcalls.symm.trans hcalls')
  have hw : (setOut 0 0 10 1).calls [1, 1] = some ⟨2, 0, ⟨10, 1, 10, 1, 1, 1, 7⟩⟩ := by decide
  obtain rfl := Option.some_injective _ (hcalls.symm.trans hw)
  exact ⟨_, hw, htwo.mpr (by decide), fun hadditive => hone.mp hadditive (by decide)⟩

/-- Five cells and then one more, towards the same cell: the fifth cell is the first
half of a diagonal, and the sixth is on the x axis again. -/
theorem walking_not_additive :
    ¬∀ (x₀ y₀ xt yt : ℤ) (budgets : List ℤ) (w : Walker) (n m : ℕ), (∀ c ∈ budgets, 1 ≤ c) →
      (setOut x₀ y₀ xt yt).calls budgets = some w → 1 ≤ n → 1 ≤ m → Additive w n m := by
  intro hadditive
  obtain ⟨w₁, arrived₁, w₂, w₃, arrived, h₁, h₂, h₃, -, hy⟩ :=
    hadditive 0 0 10 1 [] (setOut 0 0 10 1) 5 1 (by simp) rfl (by decide) (by decide)
  have hcall₁ : (setOut 0 0 10 1).call 5 = some (⟨5, 0, ⟨10, 1, 10, 1, 1, 1, 4⟩⟩, false) := by
    decide
  have hcall₂ : Walker.call ⟨5, 0, ⟨10, 1, 10, 1, 1, 1, 4⟩⟩ 1 =
      some (⟨6, 0, ⟨10, 1, 10, 1, 1, 1, 3⟩⟩, false) := by decide
  have hcall₃ : (setOut 0 0 10 1).call 6 = some (⟨5, 1, ⟨10, 1, 10, 1, 1, 1, 14⟩⟩, false) := by
    decide
  obtain ⟨rfl, -⟩ := Prod.mk.inj (Option.some_injective _ (hcall₁.symm.trans h₁))
  obtain ⟨rfl, -⟩ := Prod.mk.inj (Option.some_injective _ (hcall₂.symm.trans h₂))
  obtain ⟨rfl, -⟩ := Prod.mk.inj (Option.some_injective _ (hcall₃.symm.trans h₃))
  simp at hy

end Walker

end EmergencyDispatch
