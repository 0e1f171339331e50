import Mathlib.Data.List.Basic

/-!
# Arrays that end in `NULL`

An array of pointers of a fixed length, `none` for `NULL`, into which a program
writes from the front and which it searches up to the first `NULL`.  A write
past the end and a search that meets no `NULL` are undefined: both are `none`
here.  `filled n l` is the array of length `n` that holds the items `l`; a
search in it stops inside the array unless it is full.
-/

namespace NullTerminated

variable {α : Type*}

/-- `calloc(n, sizeof(α *))`. -/
def calloc (n : ℕ) : List (Option α) := List.replicate n none

/-- `array[i] = a`. -/
def store (array : List (Option α)) (i : ℕ) (a : α) : Option (List (Option α)) :=
  if i < array.length then some (array.set i (some a)) else none

/-- `for (i = 0; array[i] != NULL; i++) if (p(array[i])) return array[i]; return NULL;`:
`none` when it reads past the end. -/
def scan (p : α → Bool) : List (Option α) → Option (Option α)
  | [] => none
  | none :: _ => some none
  | some a :: array => if p a then some (some a) else scan p array

/-- The items up to the first `NULL`. -/
def items : List (Option α) → List α
  | some a :: array => a :: items array
  | _ => []

/-- The items in front and `NULL`s behind them. -/
def filled (n : ℕ) (l : List α) : List (Option α) := l.map some ++ calloc (n - l.length)

variable {n : ℕ} {l : List α} {p : α → Bool}

theorem items_append (l : List α) (array : List (Option α)) :
    items (l.map some ++ array) = l ++ items array := by
  induction l with
  | nil => rfl
  | cons a l ih => rw [List.map_cons, List.cons_append, items, ih, List.cons_append]

theorem items_filled (n : ℕ) (l : List α) : items (filled n l) = l := by
  rw [filled, items_append, calloc]
  cases n - l.length with
  | zero => exact List.append_nil l
  | succ k => exact List.append_nil l

theorem length_filled (h : l.length ≤ n) : (filled n l).length = n := by
  simp [filled, calloc]
  omega

theorem getElem?_filled {i : ℕ} (h : i < n) : (filled n l)[i]? = some l[i]? := by
  unfold filled calloc
  by_cases hi : i < l.length
  · rw [List.getElem?_append_left (by simpa using hi)]
    simp [hi]
  · have hlen : l.length ≤ i := Nat.le_of_not_lt hi
    rw [List.getElem?_append_right (by simpa using hlen), List.getElem?_replicate_of_lt]
    · simp [hlen]
    · simp only [List.length_map]
      omega

theorem store_filled (h : l.length < n) (a : α) :
    store (filled n l) l.length a = some (filled n (l ++ [a])) := by
  have hlen : l.length < (filled n l).length := by
    rw [length_filled (Nat.le_of_lt h)]
    exact h
  rw [store, if_pos hlen]
  unfold filled calloc
  obtain ⟨k, hk⟩ := Nat.exists_eq_add_of_lt h
  have hold : n - l.length = k + 1 := by omega
  have hnew : n - (l ++ [a]).length = k := by
    rw [List.length_append, List.length_singleton]
    omega
  rw [hold, hnew, List.replicate_succ, List.set_append_right _ _ (by simp), List.map_append,
    List.append_assoc]
  simp

theorem scan_append (p : α → Bool) (l : List α) (array : List (Option α)) :
    scan p (l.map some ++ array) =
      match l.find? p with
      | some a => some (some a)
      | none => scan p array := by
  induction l with
  | nil => rfl
  | cons a l ih =>
      rw [List.map_cons, List.cons_append, scan, List.find?_cons, ih]
      cases p a <;> rfl

/-- While there is room the search is that of the items. -/
theorem scan_filled (h : l.length < n) (p : α → Bool) :
    scan p (filled n l) = some (l.find? p) := by
  obtain ⟨k, hk⟩ := Nat.exists_eq_add_of_lt h
  have hroom : n - l.length = k + 1 := by omega
  rw [filled, scan_append, calloc, hroom, List.replicate_succ]
  cases l.find? p <;> rfl

/-- In a full array only an item that is found stops the search. -/
theorem scan_filled_full (h : l.length = n) (p : α → Bool) :
    scan p (filled n l) = (l.find? p).map some := by
  rw [filled, scan_append, h, Nat.sub_self]
  cases l.find? p <;> rfl

/-- Every search stops inside the array exactly when it is not full. -/
theorem scan_stops_iff (h : l.length ≤ n) :
    (∀ p, scan p (filled n l) ≠ none) ↔ l.length < n := by
  constructor
  · intro hstops
    by_contra hfull
    refine hstops (fun _ => false) ?_
    rw [scan_filled_full (Nat.le_antisymm h (Nat.le_of_not_lt hfull))]
    simp
  · intro hroom p
    rw [scan_filled hroom]
    exact Option.some_ne_none _

end NullTerminated
