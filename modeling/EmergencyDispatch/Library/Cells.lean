import Mathlib.Data.List.Basic

/-!
# Cells that change one at a time

Items are worked off one after the other, and each of them changes one cell of an
array.  A cell sees the items that are for it, in their order, and no other.
-/

namespace Cells

variable {α β : Type*}

/-- The items are worked off. -/
def update (index : α → ℕ) (f : β → α → β) (items : List α) (cells : List β) : List β :=
  items.foldl (fun cells a => cells.modify (index a) fun c => f c a) cells

variable {index : α → ℕ} {f : β → α → β}

theorem update_cons (a : α) (items : List α) (cells : List β) :
    update index f (a :: items) cells =
      update index f items (cells.modify (index a) fun c => f c a) := rfl

/-- **A cell sees its own items.** -/
theorem getElem?_update (items : List α) (cells : List β) (k : ℕ) :
    (update index f items cells)[k]? =
      cells[k]?.map fun c => (items.filter fun a => index a = k).foldl f c := by
  induction items generalizing cells with
  | nil =>
      show cells[k]? = _
      cases cells[k]? <;> rfl
  | cons a items ih =>
      rw [update_cons, ih, List.getElem?_modify]
      by_cases hk : index a = k
      · rw [List.filter_cons_of_pos (by simpa using hk)]
        cases cells[k]? <;> simp [hk]
      · rw [List.filter_cons_of_neg (by simpa using hk)]
        cases cells[k]? <;> simp [hk]

end Cells
