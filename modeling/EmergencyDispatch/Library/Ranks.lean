import Mathlib.Data.List.Pairwise
import Mathlib.Order.Bounds.Basic
import Mathlib.Logic.Function.Iterate

/-!
# Ranks in an ascending list

A strictly ascending list is a finite chain told twice: an element has its
index, and it has its rank, the number of smaller elements.  The two agree, so
that going to the next index is going to the least element above, and repeating
it visits every element that is not below the first one.
-/

namespace Ranks

variable {α : Type*} [LinearOrder α]

/-- How many elements are smaller. -/
def rank (l : List α) (a : α) : ℕ := l.countP fun b => decide (b < a)

/-- The element after `a`, and `a` itself when there is none. -/
def successor (l : List α) (a : α) : α := (l[rank l a + 1]?).getD a

variable {l : List α} {a b : α} {i : ℕ}

/-- Only what stands before an element is counted in its rank. -/
theorem rank_append_cons {before after : List α}
    (h : (before ++ a :: after).Pairwise (· < ·)) :
    rank (before ++ a :: after) a = before.length := by
  obtain ⟨-, hafter, hbefore⟩ := List.pairwise_append.mp h
  have hbelow : before.countP (fun b => decide (b < a)) = before.length := by
    rw [List.countP_eq_length]
    intro b hb
    simpa using hbefore b hb a List.mem_cons_self
  have habove : after.countP (fun b => decide (b < a)) = 0 := by
    rw [List.countP_eq_zero]
    intro b hb
    simpa using ((List.pairwise_cons.mp hafter).1 b hb).le
  rw [rank, List.countP_append, List.countP_cons_of_neg (by simp), hbelow, habove, Nat.add_zero]

theorem rank_getElem (h : l.Pairwise (· < ·)) (hi : i < l.length) : rank l l[i] = i := by
  have hsplit : l.take i ++ l[i] :: l.drop (i + 1) = l := by
    rw [List.getElem_cons_drop, List.take_append_drop]
  have hrank := rank_append_cons (hsplit ▸ h)
  rw [hsplit, List.length_take] at hrank
  omega

theorem getElem?_rank (h : l.Pairwise (· < ·)) (ha : a ∈ l) : l[rank l a]? = some a := by
  obtain ⟨i, hi, rfl⟩ := List.mem_iff_getElem.mp ha
  rw [rank_getElem h hi]
  exact List.getElem?_eq_getElem hi

theorem rank_lt_length (h : l.Pairwise (· < ·)) (ha : a ∈ l) : rank l a < l.length := by
  obtain ⟨i, hi, rfl⟩ := List.mem_iff_getElem.mp ha
  rwa [rank_getElem h hi]

theorem getElem_lt_getElem_iff (h : l.Pairwise (· < ·)) {j : ℕ} (hi : i < l.length)
    (hj : j < l.length) : l[i] < l[j] ↔ i < j := by
  have hmono := List.pairwise_iff_getElem.mp h
  constructor
  · intro hlt
    by_contra hle
    rcases (Nat.le_of_not_lt hle).lt_or_eq with hji | rfl
    · exact lt_asymm hlt (hmono j i hj hi hji)
    · exact lt_irrefl _ hlt
  · exact hmono i j hi hj

/-! ## Successors -/

/-- The successor stands at the next index, or at the last one. -/
theorem successor_getElem (h : l.Pairwise (· < ·)) (hi : i < l.length) :
    ∃ hj : min (i + 1) (l.length - 1) < l.length,
      successor l l[i] = l[min (i + 1) (l.length - 1)] := by
  refine ⟨by omega, ?_⟩
  rw [successor, rank_getElem h hi]
  by_cases hnext : i + 1 < l.length
  · rw [List.getElem?_eq_getElem hnext, Option.getD_some]
    congr 1
    omega
  · rw [List.getElem?_eq_none (Nat.le_of_not_lt hnext), Option.getD_none]
    congr 1
    omega

/-- The successor is the least element above, unless there is none. -/
theorem isLeast_successor (h : l.Pairwise (· < ·)) (ha : a ∈ l) (hb : b ∈ l) (hab : a < b) :
    IsLeast {c | c ∈ l ∧ a < c} (successor l a) := by
  obtain ⟨i, hi, rfl⟩ := List.mem_iff_getElem.mp ha
  obtain ⟨j, hj, rfl⟩ := List.mem_iff_getElem.mp hb
  have hij : i < j := (getElem_lt_getElem_iff h hi hj).mp hab
  obtain ⟨hnext, hsuccessor⟩ := successor_getElem h hi
  rw [hsuccessor]
  refine ⟨⟨List.getElem_mem _, ?_⟩, ?_⟩
  · rw [getElem_lt_getElem_iff h]
    omega
  · rintro c ⟨hc, hlt⟩
    obtain ⟨k, hk, rfl⟩ := List.mem_iff_getElem.mp hc
    have hik : i < k := (getElem_lt_getElem_iff h hi hk).mp hlt
    refine le_of_not_gt fun hgt => ?_
    rw [getElem_lt_getElem_iff h] at hgt
    omega

theorem successor_of_forall_le (h : l.Pairwise (· < ·)) (ha : a ∈ l) (hlast : ∀ b ∈ l, b ≤ a) :
    successor l a = a := by
  obtain ⟨i, hi, rfl⟩ := List.mem_iff_getElem.mp ha
  obtain ⟨hnext, hsuccessor⟩ := successor_getElem h hi
  rw [hsuccessor]
  refine le_antisymm ?_ ?_
  · exact hlast _ (List.getElem_mem _)
  · refine le_of_not_gt fun hgt => ?_
    rw [getElem_lt_getElem_iff h] at hgt
    omega

theorem iterate_successor (h : l.Pairwise (· < ·)) (hi : i < l.length) (k : ℕ) :
    ∃ hj : min (i + k) (l.length - 1) < l.length,
      (successor l)^[k] l[i] = l[min (i + k) (l.length - 1)] := by
  refine ⟨by omega, ?_⟩
  induction k with
  | zero =>
      rw [Function.iterate_zero_apply]
      congr 1
      omega
  | succ k ih =>
      have hk : min (i + k) (l.length - 1) < l.length := by omega
      obtain ⟨hnext, hsuccessor⟩ := successor_getElem h hk
      rw [Function.iterate_succ_apply', ih, hsuccessor]
      congr 1
      omega

theorem rank_iterate_successor (h : l.Pairwise (· < ·)) (ha : a ∈ l) (k : ℕ) :
    rank l ((successor l)^[k] a) = min (rank l a + k) (l.length - 1) := by
  obtain ⟨i, hi, rfl⟩ := List.mem_iff_getElem.mp ha
  obtain ⟨hend, hiterate⟩ := iterate_successor h hi k
  rw [hiterate, rank_getElem h hend, rank_getElem h hi]

/-- Repeating the successor skips no element. -/
theorem exists_iterate_successor (h : l.Pairwise (· < ·)) (ha : a ∈ l) (hb : b ∈ l)
    (hab : a ≤ b) : ∃ k ≤ l.length - 1, (successor l)^[k] a = b := by
  obtain ⟨i, hi, rfl⟩ := List.mem_iff_getElem.mp ha
  obtain ⟨j, hj, rfl⟩ := List.mem_iff_getElem.mp hb
  have hij : i ≤ j := by
    refine Nat.le_of_not_lt fun hji => ?_
    exact absurd ((getElem_lt_getElem_iff h hj hi).mpr hji) (not_lt.mpr hab)
  obtain ⟨hend, hiterate⟩ := iterate_successor h hi (j - i)
  refine ⟨j - i, by omega, ?_⟩
  rw [hiterate]
  congr 1
  omega

/-- As many steps as there are other elements lead to the greatest one. -/
theorem isGreatest_iterate_successor (h : l.Pairwise (· < ·)) (ha : a ∈ l) :
    IsGreatest {c | c ∈ l} ((successor l)^[l.length - 1] a) := by
  obtain ⟨i, hi, rfl⟩ := List.mem_iff_getElem.mp ha
  obtain ⟨hend, hiterate⟩ := iterate_successor h hi (l.length - 1)
  rw [hiterate]
  refine ⟨List.getElem_mem _, ?_⟩
  intro c hc
  obtain ⟨k, hk, rfl⟩ := List.mem_iff_getElem.mp hc
  refine le_of_not_gt fun hgt => ?_
  rw [getElem_lt_getElem_iff h] at hgt
  omega

end Ranks
