import Mathlib.Algebra.Order.Group.Unbundled.Int
import Mathlib.Algebra.Ring.Int.Defs
import Mathlib.Algebra.Ring.Nat
import Mathlib.Data.Int.Order.Basic

/-!
# The walker of `bresenham.c`

A rescuer moves on the grid along an approximated straight line, at most
`cells_per_step` cells each tick, a diagonal step counting as two cells.  The
trajectory remembers the error term between two calls, so that a call may stop
anywhere on the line and the next one goes on from there.
-/

namespace EmergencyDispatch

/-- The macro `ABS` of `utils.h`, where the negation does not overflow. -/
def ABS (x : ℤ) : ℤ := if x < 0 then -x else x

def INT_MIN : ℤ := -2 ^ 31

/-- `ABS` on every `int`.  The negation of `INT_MIN` overflows, which C leaves undefined: the
compiled code keeps `INT_MIN`, so that it is below every maximum.  Its comparisons of `ABS`
with a minimum of zero are those of `ABS` itself, as the compiler may take it to be nonnegative. -/
def wrappedABS (x : ℤ) : ℤ := if x = INT_MIN then INT_MIN else ABS x

theorem ABS_nonneg (x : ℤ) : 0 ≤ ABS x := by
  unfold ABS
  split <;> omega

@[simp] theorem ABS_zero : ABS 0 = 0 := rfl

theorem wrappedABS_zero : wrappedABS 0 = 0 := rfl

theorem wrappedABS_of_nonneg {x : ℤ} (h : 0 ≤ x) : wrappedABS x = x := by
  unfold wrappedABS ABS INT_MIN
  rw [if_neg (by omega), if_neg (by omega)]

/-- The macro `MANHATTAN` of `utils.h`. -/
def MANHATTAN (x₁ y₁ x₂ y₂ : ℤ) : ℤ := ABS (x₁ - x₂) + ABS (y₁ - y₂)

/-- `bresenham_trajectory_t`: the target, the distances and the directions of
the line, and the error of the algorithm. -/
structure BresenhamTrajectory where
  xTarget : ℤ
  yTarget : ℤ
  dx : ℤ
  dy : ℤ
  sx : ℤ
  sy : ℤ
  err : ℤ
  deriving DecidableEq, Inhabited

/-- `change_bresenham_trajectory`: every field is overwritten, whatever the
trajectory was before. -/
def changeBresenhamTrajectory (currentX currentY newX newY : ℤ) : BresenhamTrajectory where
  xTarget := newX
  yTarget := newY
  dx := ABS (newX - currentX)
  dy := ABS (newY - currentY)
  sx := if currentX < newX then 1 else -1
  sy := if currentY < newY then 1 else -1
  err := ABS (newX - currentX) - ABS (newY - currentY)

/-- What the loop of `compute_bresenham_step` changes: the displacement so far
and the error term. -/
structure CellsWalked where
  xStep : ℤ
  yStep : ℤ
  err : ℤ
  deriving DecidableEq

namespace CellsWalked

/-- One cell on the x axis. -/
def stepOnX (τ : BresenhamTrajectory) (c : CellsWalked) : CellsWalked :=
  { c with xStep := c.xStep + τ.sx, err := c.err - τ.dy }

/-- One cell on the y axis. -/
def stepOnY (τ : BresenhamTrajectory) (c : CellsWalked) : CellsWalked :=
  { c with yStep := c.yStep + τ.sy, err := c.err + τ.dx }

/-- `xA == xB && yA == yB`, for a walker that started the call at `(x, y)`. -/
def onTarget (τ : BresenhamTrajectory) (x y : ℤ) (c : CellsWalked) : Bool :=
  x + c.xStep == τ.xTarget && y + c.yStep == τ.yTarget

end CellsWalked

open CellsWalked in
/-- The loop `while (i < cells_per_step)`, with the cells still to walk
`cells_per_step - i` as the first argument.  A pass that moves on neither axis
leaves every variable as it was, so the loop never ends: that is `none`. -/
def bresenhamLoop (τ : BresenhamTrajectory) (x y : ℤ) : ℕ → CellsWalked → Option CellsWalked
  | 0, c => some c
  | n + 1, c =>
    if onTarget τ x y c then some c
    else
      if -τ.dy ≤ 2 * c.err then
        match n with
        | 0 => some (stepOnX τ c)
        | m + 1 =>
          -- `e2` is not recomputed between the two halves of a diagonal
          if 2 * c.err ≤ τ.dx then bresenhamLoop τ x y m (stepOnY τ (stepOnX τ c))
          else bresenhamLoop τ x y (m + 1) (stepOnX τ c)
      else
        if 2 * c.err ≤ τ.dx then bresenhamLoop τ x y n (stepOnY τ c)
        else none

/-- The outcome of a call of `compute_bresenham_step`: its return value, the two
displacements and the trajectory it leaves. -/
structure BresenhamStep where
  arrived : Bool
  xStep : ℤ
  yStep : ℤ
  trajectory : BresenhamTrajectory
  deriving DecidableEq

/-- `compute_bresenham_step` from `(x, y)`; `none` when the call does not return. -/
def computeBresenhamStep (x y : ℤ) (τ : BresenhamTrajectory) (cellsPerStep : ℤ) :
    Option BresenhamStep :=
  if cellsPerStep < 0 then some ⟨true, 0, 0, τ⟩
  else
    if MANHATTAN x y τ.xTarget τ.yTarget ≤ cellsPerStep then
      some ⟨true, ABS (x - τ.xTarget) * τ.sx, ABS (y - τ.yTarget) * τ.sy, τ⟩
    else
      (bresenhamLoop τ x y cellsPerStep.toNat ⟨0, 0, τ.err⟩).map fun c =>
        ⟨c.onTarget τ x y, c.xStep, c.yStep, { τ with err := c.err }⟩

end EmergencyDispatch
