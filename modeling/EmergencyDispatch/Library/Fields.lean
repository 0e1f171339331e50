import Mathlib.Data.List.TakeWhile
import Mathlib.Data.List.Infix

/-!
# Fields between delimiters

A line is printed as fields, each followed by its delimiter.  A reader takes a
field up to the first character of its delimiter, the last one up to the end of
the line.  So the fields read back when none but the last contains the character
that ends it.
-/

namespace Fields

/-- What stands before the first `stop`, and what stands from there on. -/
def upTo (stop : Char) (s : List Char) : List Char × List Char :=
  (s.takeWhile fun c => c != stop, s.dropWhile fun c => c != stop)

/-- Each field and its delimiter. -/
def printFields : List (List Char) → List (List Char) → List Char
  | delimiter :: delimiters, field :: fields =>
      field ++ (delimiter ++ printFields delimiters fields)
  | _, _ => []

theorem upTo_append {stop : Char} {field : List Char} (h : stop ∉ field) (rest : List Char) :
    upTo stop (field ++ stop :: rest) = (field, stop :: rest) := by
  have hall : ∀ c ∈ field, (c != stop) = true := by
    intro c hc
    rw [bne_iff_ne]
    rintro rfl
    exact h hc
  rw [upTo, List.takeWhile_append_of_pos hall, List.dropWhile_append_of_pos hall,
    List.takeWhile_cons_of_neg (by simp), List.dropWhile_cons_of_neg (by simp), List.append_nil]

end Fields
