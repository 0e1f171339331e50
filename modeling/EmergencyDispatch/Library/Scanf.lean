import Mathlib.Algebra.Group.Int.Defs
import Mathlib.Algebra.Group.Nat.Defs
import Mathlib.Data.Int.Order.Basic
import Mathlib.Tactic.Common

/-!
# `sscanf`

The conversions of C's `sscanf` that read decimal integers, white-space
delimited words and scan sets.  A format is a list of directives; the result is
the list of the items stored before the first directive that fails, so that its
length is the return value of the call (an input failure before the first item,
where C returns `EOF`, also stores nothing).

A numeral that does not fit is converted as glibc does on a 64-bit machine:
`strtol` saturates it to 64 bits and the store keeps the low 32 bits, or 16.
-/

namespace Scanf

/-- `isspace` in the C locale. -/
def isSpace (c : Char) : Bool :=
  c == ' ' || c == '\t' || c == '\n' || c == '\x0b' || c == '\x0c' || c == '\r'

inductive Directive
  /-- White space: skips any amount of it, also none. -/
  | space
  /-- An ordinary character, which must come next. -/
  | char (c : Char)
  /-- `%d`. -/
  | int
  /-- `%hd`. -/
  | short
  /-- `%u`. -/
  | uint
  /-- `%<width>[set]`. -/
  | set (width : ℕ) (member : Char → Bool)
  /-- `%*[set]`: matched and not stored. -/
  | skipSet (member : Char → Bool)
  /-- `%<width>s`. -/
  | word (width : ℕ)

/-- A stored item. -/
inductive Item
  | int (n : ℤ)
  | str (s : List Char)
  deriving DecidableEq

/-- The value a decimal numeral has in a 32-bit `int`. -/
def toInt32 (n : ℤ) : ℤ := Int.bmod (max (-2 ^ 63) (min n (2 ^ 63 - 1))) (2 ^ 32)

/-- The value a decimal numeral has in a 16-bit `short`. -/
def toInt16 (n : ℤ) : ℤ := Int.bmod (max (-2 ^ 63) (min n (2 ^ 63 - 1))) (2 ^ 16)

/-- The value a decimal numeral has in a 32-bit `unsigned int`: `strtoul` saturates
what does not fit into 64 bits and takes a sign modulo `2 ^ 64`. -/
def toUInt32 (n : ℤ) : ℤ := if 2 ^ 64 ≤ n.natAbs then 2 ^ 32 - 1 else n % 2 ^ 32

/-- The number written by a list of digits. -/
def numeral (digits : List Char) : ℕ :=
  digits.foldl (fun n c => 10 * n + (c.toNat - '0'.toNat)) 0

/-- The digits that come next, if there are any, and what follows them. -/
def scanDigits (s : List Char) : Option (ℕ × List Char) :=
  match s.takeWhile Char.isDigit with
  | [] => none
  | digits => some (numeral digits, s.dropWhile Char.isDigit)

/-- White space, an optional sign, digits: the number they stand for. -/
def scanNumber (s : List Char) : Option (ℤ × List Char) :=
  match s.dropWhile isSpace with
  | '-' :: rest => (scanDigits rest).map fun (n, rest) => (-n, rest)
  | '+' :: rest => (scanDigits rest).map fun (n, rest) => (n, rest)
  | rest => (scanDigits rest).map fun (n, rest) => (n, rest)

/-- `%d`. -/
def scanInt (s : List Char) : Option (ℤ × List Char) :=
  (scanNumber s).map fun (n, rest) => (toInt32 n, rest)

/-- `%hd`. -/
def scanShort (s : List Char) : Option (ℤ × List Char) :=
  (scanNumber s).map fun (n, rest) => (toInt16 n, rest)

/-- `%u`. -/
def scanUInt (s : List Char) : Option (ℤ × List Char) :=
  (scanNumber s).map fun (n, rest) => (toUInt32 n, rest)

/-- The longest run of members of a set, of at most `width` characters. -/
def scanSet (width : ℕ) (member : Char → Bool) (s : List Char) : List Char :=
  (s.take width).takeWhile member

/-- The items stored before the first directive that fails. -/
def sscanf : List Directive → List Char → List Item
  | [], _ => []
  | .space :: format, s => sscanf format (s.dropWhile isSpace)
  | .char _ :: _, [] => []
  | .char c :: format, d :: s => if c = d then sscanf format s else []
  | .int :: format, s =>
      match scanInt s with
      | none => []
      | some (n, rest) => .int n :: sscanf format rest
  | .short :: format, s =>
      match scanShort s with
      | none => []
      | some (n, rest) => .int n :: sscanf format rest
  | .uint :: format, s =>
      match scanUInt s with
      | none => []
      | some (n, rest) => .int n :: sscanf format rest
  | .set width member :: format, s =>
      match scanSet width member s with
      | [] => []
      | run => .str run :: sscanf format (s.drop run.length)
  | .skipSet member :: format, s =>
      match s.takeWhile member with
      | [] => []
      | _ => sscanf format (s.dropWhile member)
  | .word width :: format, s =>
      match scanSet width (fun c => !isSpace c) (s.dropWhile isSpace) with
      | [] => []
      | run => .str run :: sscanf format ((s.dropWhile isSpace).drop run.length)

/-! ## Scanning what was printed -/

theorem numeral_toDigits (n : ℕ) : numeral (Nat.toDigits 10 n) = n := by
  rw [numeral, ← Nat.ofDigitChars_eq_foldl, Nat.ofDigitChars_ten_toDigits]

theorem isDigit_of_mem {n : ℕ} {c : Char} (h : c ∈ Nat.toDigits 10 n) : c.isDigit = true :=
  Nat.isDigit_of_mem_toDigits (by decide) (Nat.le_refl 10) h

theorem not_special_of_isDigit {c : Char} (h : c.isDigit = true) :
    isSpace c = false ∧ c ≠ '-' ∧ c ≠ '+' := by
  refine ⟨?_, ?_, ?_⟩
  · by_contra hspace
    simp only [isSpace, Bool.not_eq_false, Bool.or_eq_true, beq_iff_eq] at hspace
    obtain ((((rfl | rfl) | rfl) | rfl) | rfl) | rfl := hspace <;> revert h <;> decide
  · rintro rfl
    revert h
    decide
  · rintro rfl
    revert h
    decide

/-- What follows does not go on with a member of the set. -/
def Stops (member : Char → Bool) (rest : List Char) : Prop := ∀ c ∈ rest.head?, member c = false

theorem takeWhile_append {member : Char → Bool} {run rest : List Char}
    (hrun : ∀ c ∈ run, member c = true) (hrest : Stops member rest) :
    (run ++ rest).takeWhile member = run ∧ (run ++ rest).dropWhile member = rest := by
  induction run with
  | nil =>
      cases rest with
      | nil => exact ⟨rfl, rfl⟩
      | cons c rest =>
          have hc := hrest c rfl
          simp [hc]
  | cons c run ih =>
      obtain ⟨htake, hdrop⟩ := ih fun d hd => hrun d (List.mem_cons_of_mem c hd)
      have hc := hrun c List.mem_cons_self
      simp [hc, htake, hdrop]

theorem scanSet_append {width : ℕ} {member : Char → Bool} {run rest : List Char}
    (hrun : ∀ c ∈ run, member c = true) (hwidth : run.length < width)
    (hrest : Stops member rest) : scanSet width member (run ++ rest) = run := by
  rw [scanSet, List.take_append, List.take_of_length_le (Nat.le_of_lt hwidth)]
  refine (takeWhile_append hrun ?_).1
  cases rest with
  | nil => simp [Stops]
  | cons c rest =>
      intro d hd
      obtain ⟨k, hk⟩ := Nat.exists_eq_succ_of_ne_zero (Nat.sub_ne_zero_of_lt hwidth)
      rw [hk, List.take_succ_cons] at hd
      exact hrest d hd

theorem scanDigits_toDigits (n : ℕ) {rest : List Char} (hrest : Stops Char.isDigit rest) :
    scanDigits (Nat.toDigits 10 n ++ rest) = some (n, rest) := by
  obtain ⟨htake, hdrop⟩ := takeWhile_append (fun c => isDigit_of_mem (n := n)) hrest
  rw [scanDigits, htake, hdrop]
  cases hdigits : Nat.toDigits 10 n with
  | nil => exact absurd hdigits Nat.toDigits_ne_nil
  | cons c digits =>
      show some (numeral (c :: digits), rest) = some (n, rest)
      rw [← hdigits, numeral_toDigits]

theorem scanNumber_toDigits (n : ℕ) {rest : List Char} (hrest : Stops Char.isDigit rest) :
    scanNumber (Nat.toDigits 10 n ++ rest) = some ((n : ℤ), rest) := by
  have hscan := scanDigits_toDigits n hrest
  cases hdigits : Nat.toDigits 10 n with
  | nil => exact absurd hdigits Nat.toDigits_ne_nil
  | cons c digits =>
      rw [hdigits] at hscan
      have hc : c.isDigit = true :=
        isDigit_of_mem (n := n) (by rw [hdigits]; exact List.mem_cons_self)
      obtain ⟨hspace, hminus, hplus⟩ := not_special_of_isDigit hc
      rw [List.cons_append] at hscan ⊢
      rw [scanNumber, List.dropWhile_cons_of_neg (by simp [hspace])]
      split
      · rename_i heq
        exact absurd (List.cons.inj heq).1 hminus
      · rename_i heq
        exact absurd (List.cons.inj heq).1 hplus
      · rw [hscan]
        rfl

theorem toInt32_of_lt {n : ℕ} (h : n < 2 ^ 31) : toInt32 n = n := by
  unfold toInt32
  rw [min_eq_left (by omega), max_eq_right (by omega), Int.bmod_eq_of_le] <;> omega

theorem scanInt_toDigits {n : ℕ} (h : n < 2 ^ 31) {rest : List Char}
    (hrest : Stops Char.isDigit rest) :
    scanInt (Nat.toDigits 10 n ++ rest) = some ((n : ℤ), rest) := by
  rw [scanInt, scanNumber_toDigits n hrest]
  show some (toInt32 n, rest) = _
  rw [toInt32_of_lt h]

theorem toUInt32_of_lt {n : ℕ} (h : n < 2 ^ 32) : toUInt32 n = n := by
  unfold toUInt32
  rw [if_neg (by omega), Int.emod_eq_of_lt] <;> omega

theorem scanUInt_toDigits {n : ℕ} (h : n < 2 ^ 32) {rest : List Char}
    (hrest : Stops Char.isDigit rest) :
    scanUInt (Nat.toDigits 10 n ++ rest) = some ((n : ℤ), rest) := by
  rw [scanUInt, scanNumber_toDigits n hrest]
  show some (toUInt32 n, rest) = _
  rw [toUInt32_of_lt h]

theorem sscanf_set {width : ℕ} {member : Char → Bool} {run rest : List Char} (hne : run ≠ [])
    (hrun : ∀ c ∈ run, member c = true) (hwidth : run.length < width)
    (hrest : Stops member rest) (format : List Directive) :
    sscanf (.set width member :: format) (run ++ rest) = .str run :: sscanf format rest := by
  rw [sscanf, scanSet_append hrun hwidth hrest]
  cases run with
  | nil => exact absurd rfl hne
  | cons c run =>
      show _ :: sscanf format ((c :: run ++ rest).drop (c :: run).length) = _
      rw [List.drop_left]

/-- A scan set that no character matches ends the call. -/
theorem sscanf_set_nil {width : ℕ} {member : Char → Bool} {s : List Char}
    (hs : Stops member s) (format : List Directive) :
    sscanf (.set width member :: format) s = [] := by
  have hset : scanSet width member s = [] := by
    unfold scanSet
    cases s with
    | nil => simp
    | cons c s =>
        have hc := hs c rfl
        cases width with
        | zero => rfl
        | succ width => simp [hc]
  rw [sscanf, hset]

/-- After a keyword the rest of the format is scanned, or nothing is stored. -/
theorem sscanf_chars (keyword : List Char) (format : List Directive) (s : List Char) :
    sscanf (keyword.map .char ++ format) s = [] ∨
      ∃ rest, sscanf (keyword.map .char ++ format) s = sscanf format rest := by
  induction keyword generalizing s with
  | nil => exact .inr ⟨s, rfl⟩
  | cons c keyword ih =>
      rw [List.map_cons, List.cons_append]
      cases s with
      | nil => exact .inl rfl
      | cons d s =>
          rw [sscanf]
          by_cases hc : c = d
          · rw [if_pos hc]
            exact ih s
          · exact .inl (if_neg hc)

/-- A scan set stores its run, which is a part of what is scanned, or nothing. -/
theorem sscanf_set_cases (width : ℕ) (member : Char → Bool) (format : List Directive)
    (s : List Char) :
    sscanf (.set width member :: format) s = [] ∨
      ∃ run rest, run ⊆ s ∧
        sscanf (.set width member :: format) s = .str run :: sscanf format rest := by
  have hsub : scanSet width member s ⊆ s := fun _ hc =>
    List.mem_of_mem_take ((List.takeWhile_prefix member).subset hc)
  rw [sscanf]
  cases hrun : scanSet width member s with
  | nil => exact .inl rfl
  | cons c run => exact .inr ⟨c :: run, _, hrun ▸ hsub, rfl⟩

theorem sscanf_skipSet (member : Char → Bool) (format : List Directive) (s : List Char) :
    sscanf (.skipSet member :: format) s = [] ∨
      ∃ rest, sscanf (.skipSet member :: format) s = sscanf format rest := by
  rw [sscanf]
  cases s.takeWhile member with
  | nil => exact .inl rfl
  | cons c run => exact .inr ⟨_, rfl⟩

/-- A format that ends with `%d` stores one number there, or nothing. -/
theorem sscanf_int_last (s : List Char) :
    sscanf [.int] s = [] ∨ ∃ n, sscanf [.int] s = [.int n] := by
  rw [sscanf]
  cases scanInt s with
  | none => exact .inl rfl
  | some scanned => exact .inr ⟨scanned.1, rfl⟩

/-- A format that ends with `%s` stores one word there, or nothing. -/
theorem sscanf_word_last (width : ℕ) (s : List Char) :
    sscanf [.word width] s = [] ∨ ∃ word, sscanf [.word width] s = [.str word] := by
  rw [sscanf]
  cases scanSet width (fun c => !isSpace c) (s.dropWhile isSpace) with
  | nil => exact .inl rfl
  | cons c run => exact .inr ⟨c :: run, rfl⟩

end Scanf
