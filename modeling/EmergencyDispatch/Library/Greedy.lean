import Mathlib.Data.Int.Notation
import Mathlib.Data.List.Basic
import Mathlib.Order.Lattice

/-!
# Greedy choice with a comparator

A comparator in the style of C answers with a positive number when its first
argument is preferable, with a negative one when the second is, and with zero
when neither is.  Such a function is a total preorder when it follows a rank,
that is when it compares the positions of its arguments in a linear order, the
least one first (`Follows`); it need not do so everywhere, only on the elements
that are compared.

A scan keeps the best element so far and gives it up only for a preferable one,
and a greedy choice adds to the chosen elements what a scan of the others finds.
The scan finds an element of least rank (`scan_le`), so that nothing that is
left out is preferable to anything that was chosen (`NoneBetter`).
-/

namespace Greedy

variable {α ι : Type*} [LinearOrder ι] {compare : α → α → ℤ} {rank : α → ι} {P : α → Prop}

/-! ## Comparators -/

/-- On the elements that satisfy `P` the comparator prefers the lesser rank. -/
structure Follows (compare : α → α → ℤ) (rank : α → ι) (P : α → Prop) : Prop where
  pos_iff : ∀ {a b}, P a → P b → (0 < compare a b ↔ rank a < rank b)
  neg_iff : ∀ {a b}, P a → P b → (compare a b < 0 ↔ rank b < rank a)

/-! ## The scan -/

/-- The best so far against one more element. -/
def better (compare : α → α → ℤ) : Option α → α → Option α
  | none, a => some a
  | some best, a => if compare best a < 0 then some a else some best

/-- The scan of a list for its best element. -/
def scan (compare : α → α → ℤ) (pool : List α) : Option α := pool.foldl (better compare) none

/-- A scan that starts from `best` ends with an element that is of no greater
rank than `best` and than all the elements it has seen. -/
theorem foldl_better (h : Follows compare rank P) {pool : List α} (hpool : ∀ a ∈ pool, P a)
    {best : α} (hbest : P best) :
    ∃ a, pool.foldl (better compare) (some best) = some a ∧ P a ∧ rank a ≤ rank best ∧
      ∀ b ∈ pool, rank a ≤ rank b := by
  induction pool generalizing best with
  | nil => exact ⟨best, rfl, hbest, le_rfl, by simp⟩
  | cons a pool ih =>
      have ha : P a := hpool a (by simp)
      have hrest : ∀ b ∈ pool, P b := fun b hb => hpool b (by simp [hb])
      rw [List.foldl_cons, better]
      split
      · rename_i hneg
        obtain ⟨c, hscan, hc, hle, hall⟩ := ih hrest ha
        have hlt : rank a < rank best := (h.neg_iff hbest ha).mp hneg
        refine ⟨c, hscan, hc, hle.trans hlt.le, fun b hb => ?_⟩
        rcases List.mem_cons.mp hb with rfl | hb
        · exact hle
        · exact hall b hb
      · rename_i hneg
        obtain ⟨c, hscan, hc, hle, hall⟩ := ih hrest hbest
        have hkept : rank best ≤ rank a := not_lt.mp fun hlt => hneg ((h.neg_iff hbest ha).mpr hlt)
        refine ⟨c, hscan, hc, hle, fun b hb => ?_⟩
        rcases List.mem_cons.mp hb with rfl | hb
        · exact hle.trans hkept
        · exact hall b hb

theorem scan_le (h : Follows compare rank P) {pool : List α} (hpool : ∀ a ∈ pool, P a) {a : α}
    (ha : scan compare pool = some a) : ∀ b ∈ pool, rank a ≤ rank b := by
  cases pool with
  | nil => simp
  | cons first pool =>
      have hrest : ∀ b ∈ pool, P b := fun b hb => hpool b (by simp [hb])
      obtain ⟨c, hscan, -, hle, hall⟩ := foldl_better h hrest (hpool first (by simp))
      obtain rfl : c = a := Option.some.inj (hscan.symm.trans ha)
      intro b hb
      rcases List.mem_cons.mp hb with rfl | hb
      · exact hle
      · exact hall b hb

/-! ## The choice -/

/-- Of the elements that could have been chosen in the place of `a`, those in
`pool a`, none that is left out is of lesser rank. -/
def NoneBetter (rank : α → ι) (pool : α → List α) (chosen : List α) : Prop :=
  ∀ a ∈ chosen, ∀ b ∈ pool a, b ∉ chosen → rank a ≤ rank b

variable {pool : α → List α} {chosen : List α}

theorem NoneBetter.nil : NoneBetter rank pool [] := by
  intro a ha
  simp at ha

/-- A greedy choice: the pool of the new element is scanned without what is
already chosen.  What is left out afterwards was left out before. -/
theorem NoneBetter.append (h : NoneBetter rank pool chosen) {a : α}
    (hscan : ∀ b ∈ pool a, b ∉ chosen → rank a ≤ rank b) :
    NoneBetter rank pool (chosen ++ [a]) := by
  intro c hc b hb hout
  rw [List.mem_append, not_or] at hout
  rcases List.mem_append.mp hc with hc | hc
  · exact h c hc b hb hout.1
  · obtain rfl := List.mem_singleton.mp hc
    exact hscan b hb hout.1

end Greedy
