import Mathlib.Data.List.TakeWhile
import Mathlib.Order.Basic

/-!
# Character buffers

An array of characters of a C program and the string in it: the cells before
the first terminator.  What reads or writes such an array returns a fault when
it would leave it.
-/

namespace CharBuffers

/-- What a C program must not do. -/
inductive MemoryFault
  | outOfBounds
  | nullDereference
  deriving DecidableEq

/-- The cells of an array. -/
abbrev Buffer := List Char

/-- The terminator. -/
def NUL : Char := '\x00'

/-- The string in the buffer. -/
def str (buffer : Buffer) : List Char := buffer.takeWhile fun c => c != NUL

/-- The buffer holds the string, with its terminator. -/
def Holds (buffer : Buffer) (s : List Char) : Prop :=
  NUL ∉ s ∧ ∃ rest, buffer = s ++ NUL :: rest

/-- `strlen` and everything else that reads up to the terminator. -/
def readString (buffer : Buffer) : Except MemoryFault (List Char) :=
  if NUL ∈ buffer then .ok (str buffer) else .error .outOfBounds

/-- Writing a string and its terminator at the beginning of a buffer. -/
def storeString (buffer : Buffer) (s : List Char) : Except MemoryFault Buffer :=
  if s.length < buffer.length then .ok (s ++ NUL :: buffer.drop (s.length + 1))
  else .error .outOfBounds

/-- `strncpy` into an array of `size` cells, all of which it writes. -/
def strncpy (source : Buffer) (size : ℕ) : Except MemoryFault Buffer :=
  if NUL ∈ source ∨ size ≤ source.length then
    .ok ((str source).take size ++ List.replicate (size - (str source).length) NUL)
  else .error .outOfBounds

variable {buffer : Buffer} {s : List Char}

theorem nul_notMem_str : NUL ∉ str buffer := by
  intro hmem
  have hne := List.mem_takeWhile_imp hmem
  simp at hne

theorem str_of_notMem (h : NUL ∉ s) : str s = s := by
  rw [str, List.takeWhile_eq_self_iff]
  intro c hc
  have hne : c ≠ NUL := fun hnul => h (hnul ▸ hc)
  simpa using hne

/-- A terminator behind the cells is not before the first one in them. -/
theorem str_append_nul (buffer : Buffer) : str (buffer ++ [NUL]) = str buffer := by
  unfold str
  induction buffer with
  | nil => rfl
  | cons c buffer ih =>
      rw [List.cons_append, List.takeWhile_cons, List.takeWhile_cons, ih]

theorem length_str_le (buffer : Buffer) : (str buffer).length ≤ buffer.length :=
  (List.takeWhile_prefix _).length_le

theorem holds_str (h : NUL ∈ buffer) : Holds buffer (str buffer) := by
  refine ⟨nul_notMem_str, ?_⟩
  have hsplit : str buffer ++ buffer.dropWhile (fun c => c != NUL) = buffer :=
    List.takeWhile_append_dropWhile
  cases hrest : buffer.dropWhile (fun c => c != NUL) with
  | nil =>
      rw [hrest, List.append_nil] at hsplit
      exact absurd (hsplit ▸ h) nul_notMem_str
  | cons c rest =>
      have hstop := List.head_dropWhile_not (fun c => c != NUL) (l := buffer) (by simp [hrest])
      simp only [hrest, List.head_cons, bne_eq_false_iff_eq] at hstop
      rw [hrest, hstop] at hsplit
      exact ⟨rest, hsplit.symm⟩

namespace Holds

theorem str_eq (h : Holds buffer s) : str buffer = s := by
  obtain ⟨hs, rest, rfl⟩ := h
  unfold str
  rw [List.takeWhile_append_of_pos]
  · simp
  · intro c hc
    have hne : c ≠ NUL := fun hnul => hs (hnul ▸ hc)
    simpa using hne

theorem mem (h : Holds buffer s) : NUL ∈ buffer := by
  obtain ⟨-, rest, rfl⟩ := h
  simp

theorem readString (h : Holds buffer s) : readString buffer = .ok s := by
  rw [CharBuffers.readString, if_pos h.mem, h.str_eq]

theorem length_lt (h : Holds buffer s) : s.length < buffer.length := by
  obtain ⟨-, rest, rfl⟩ := h
  simp

theorem append (h : Holds buffer s) (more : List Char) : Holds (buffer ++ more) s := by
  obtain ⟨hs, rest, rfl⟩ := h
  exact ⟨hs, rest ++ more, by simp⟩

/-- The cells behind the terminator do not matter. -/
theorem take (h : Holds buffer s) {count : ℕ} (hcount : s.length < count) :
    Holds (buffer.take count) s := by
  obtain ⟨hs, rest, rfl⟩ := h
  obtain ⟨k, hk⟩ := Nat.exists_eq_add_of_lt hcount
  refine ⟨hs, rest.take k, ?_⟩
  rw [List.take_append, List.take_of_length_le hcount.le]
  have hleft : count - s.length = k + 1 := by omega
  rw [hleft, List.take_succ_cons]

theorem set_nul (h : Holds buffer s) {i : ℕ} (hi : s.length ≤ i) :
    Holds (buffer.set i NUL) s := by
  obtain ⟨hs, rest, rfl⟩ := h
  rw [List.set_append_right _ _ hi]
  cases i - s.length with
  | zero => exact ⟨hs, rest, rfl⟩
  | succ j => exact ⟨hs, rest.set j NUL, rfl⟩

theorem cut {t : List Char} (h : Holds buffer (s ++ t)) :
    Holds (buffer.set s.length NUL) s := by
  obtain ⟨hst, rest, rfl⟩ := h
  have hs : NUL ∉ s := fun hmem => hst (List.mem_append_left _ hmem)
  rw [List.append_assoc, List.set_append_right _ _ le_rfl, Nat.sub_self]
  cases t with
  | nil => exact ⟨hs, rest, rfl⟩
  | cons c t => exact ⟨hs, t ++ NUL :: rest, rfl⟩

end Holds

/-- Storing a string needs one cell more than it has characters. -/
theorem storeString_cases (buffer : Buffer) (hs : NUL ∉ s) :
    (s.length < buffer.length ∧ ∃ buffer', storeString buffer s = .ok buffer' ∧
        buffer'.length = buffer.length ∧ Holds buffer' s) ∨
      (buffer.length ≤ s.length ∧ storeString buffer s = .error .outOfBounds) := by
  unfold storeString
  by_cases hfits : s.length < buffer.length
  · rw [if_pos hfits]
    refine .inl ⟨hfits, _, rfl, ?_, hs, _, rfl⟩
    simp only [List.length_append, List.length_cons, List.length_drop]
    omega
  · rw [if_neg hfits]
    exact .inr ⟨Nat.le_of_not_lt hfits, rfl⟩

/-- A copy that is long enough holds the same string. -/
theorem Holds.strncpy (h : Holds buffer s) {size : ℕ} (hsize : s.length < size) :
    ∃ copy, strncpy buffer size = .ok copy ∧ copy.length = size ∧ Holds copy s := by
  rw [CharBuffers.strncpy, if_pos (.inl h.mem), h.str_eq, List.take_of_length_le hsize.le]
  refine ⟨_, rfl, ?_, h.1, List.replicate (size - s.length - 1) NUL, ?_⟩
  · rw [List.length_append, List.length_replicate]
    omega
  · rw [← List.replicate_succ]
    congr 2
    omega

end CharBuffers
