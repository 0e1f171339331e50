import Mathlib.Data.List.ReduceOption
import Mathlib.Data.List.Nodup
import Mathlib.Data.List.Perm.Basic

/-!
# Counting while one element changes

A list without repetitions is counted with a predicate; then one element
changes, and with it the answer of the predicate on that element only.  The
lemmas say how the count, and the list of the elements counted, change.  The
second half is the same for the list of the entries of an array with holes.
-/

namespace Tally

variable {α : Type*}

/-! ## Predicates that differ at one element -/

/-- The count changes exactly by what the changed element contributes. -/
theorem countP_change {l : List α} (hl : l.Nodup) {a : α} (ha : a ∈ l) {p q : α → Bool}
    (hpq : ∀ b, b ≠ a → p b = q b) :
    l.countP q + (p a).toNat = l.countP p + (q a).toNat := by
  induction l with
  | nil => simp at ha
  | cons b l ih =>
      obtain ⟨hb, hl⟩ := List.nodup_cons.mp hl
      rcases List.mem_cons.mp ha with rfl | ha
      · have hrest : l.countP q = l.countP p := by
          refine List.countP_congr fun c hc => ?_
          rw [hpq c fun h => hb (h ▸ hc)]
        simp only [List.countP_cons, hrest]
        cases p a <;> cases q a <;> simp
      · have hne : b ≠ a := fun h => hb (h ▸ ha)
        have := ih hl ha
        simp only [List.countP_cons, hpq b hne]
        omega

theorem filter_join {l : List α} (hl : l.Nodup) {a : α} (ha : a ∈ l) {p q : α → Bool}
    (hpq : ∀ b, b ≠ a → p b = q b) (hp : p a = false) (hq : q a = true) :
    (l.filter q).Perm (a :: l.filter p) := by
  induction l with
  | nil => simp at ha
  | cons b l ih =>
      obtain ⟨hb, hl⟩ := List.nodup_cons.mp hl
      rcases List.mem_cons.mp ha with rfl | ha
      · have hrest : l.filter q = l.filter p := by
          refine List.filter_congr fun c hc => ?_
          rw [hpq c fun h => hb (h ▸ hc)]
        simp [hp, hq, hrest]
      · have hne : b ≠ a := fun h => hb (h ▸ ha)
        have hperm := ih hl ha
        simp only [List.filter_cons, hpq b hne]
        split
        · exact (hperm.cons b).trans (List.Perm.swap a b _)
        · exact hperm

/-! ## Arrays with holes -/

theorem reduceOption_fill {l : List (Option α)} {i : ℕ} (h : l[i]? = some none) (a : α) :
    (l.set i (some a)).reduceOption.Perm (a :: l.reduceOption) := by
  induction l generalizing i with
  | nil => simp at h
  | cons x l ih =>
      cases i with
      | zero =>
          obtain rfl : x = none := by simpa using h
          simp [List.reduceOption_cons_of_some, List.reduceOption_cons_of_none]
      | succ i =>
          have hperm := ih (i := i) (by simpa using h)
          cases x with
          | none => simpa [List.reduceOption_cons_of_none] using hperm
          | some b =>
              simp only [List.set_cons_succ, List.reduceOption_cons_of_some]
              exact (hperm.cons b).trans (List.Perm.swap a b _)

theorem reduceOption_empty {l : List (Option α)} {i : ℕ} {a : α} (h : l[i]? = some (some a)) :
    l.reduceOption.Perm (a :: (l.set i none).reduceOption) := by
  have hi : i < l.length := (List.getElem?_eq_some_iff.mp h).1
  have hfill := reduceOption_fill (l := l.set i none) (i := i) (by simp [hi]) a
  have hback : (l.set i none).set i (some a) = l := by
    rw [List.set_set, ← (List.getElem?_eq_some_iff.mp h).2, List.set_getElem_self]
  rwa [hback] at hfill

/-- Entries and holes make up the array. -/
theorem length_reduceOption_add_countP (l : List (Option α)) :
    l.reduceOption.length + l.countP Option.isNone = l.length := by
  induction l with
  | nil => simp
  | cons x l ih =>
      cases x with
      | none => simp [List.reduceOption_cons_of_none, ← ih]; omega
      | some a => simp [List.reduceOption_cons_of_some, ← ih]; omega

theorem index_unique {l : List (Option α)} (hl : l.reduceOption.Nodup) {i j : ℕ} {a : α}
    (hi : l[i]? = some (some a)) (hj : l[j]? = some (some a)) : i = j := by
  by_contra hne
  have hout : a ∉ (l.set i none).reduceOption :=
    (List.nodup_cons.mp ((reduceOption_empty hi).nodup_iff.mp hl)).1
  refine hout (List.reduceOption_mem_iff.mpr (List.mem_of_getElem? (i := j) ?_))
  rw [List.getElem?_set_ne hne, hj]

end Tally
