import EmergencyDispatch.Structs
import EmergencyDispatch.Library.FirstOccurrences

/-!
# The names of the threads (`log.c`)

`log_event` puts the name of the calling thread in each line.  The names are in a
table of `MAX_LOG_THREADS` slots, one for each thread that has called
`log_register_this_thread`.  A slot is never freed, a second registration of a
thread changes nothing, and when the table is full a new thread finds no slot.
So a thread has the first name it registered, cut to the length of a slot, when
it was among the first `MAX_LOG_THREADS` to register, and otherwise none.
-/

namespace EmergencyDispatch

open FirstOccurrences

def MAX_LOG_THREADS : ℕ := 256

def MAX_THREAD_NAME_LENGTH : ℕ := 32

/-- What `snprintf` leaves in an array of `size` cells. -/
def snprintf (size : ℕ) (s : CString) : CString := s.take (size - 1)

variable {τ : Type*} [DecidableEq τ]

/-- `thread_names`; a slot whose `tid` is 0 is `none`. -/
abbrev ThreadNames (τ : Type*) := List (Option (τ × CString))

/-- The table as `log_init` leaves it. -/
def emptyThreadNames : ThreadNames τ := List.replicate MAX_LOG_THREADS none

/-- The slot is that of the thread. -/
def isSlotOf (me : τ) : Option (τ × CString) → Bool
  | some (tid, _) => tid = me
  | none => false

def UNNAMED_THREAD : CString := "unnamed thread".toList

/-- `log_register_this_thread`, called by the thread `me`. -/
def logRegisterThisThread (names : ThreadNames τ) (me : τ) (name : Option CString) :
    ThreadNames τ :=
  if names.any (isSlotOf me) then names
  else
    match names.findIdx? (·.isNone) with
    | some i =>
        names.set i (some (me, snprintf MAX_THREAD_NAME_LENGTH (name.getD UNNAMED_THREAD)))
    | none => names

/-- `log_get_current_thread_name`, called by the thread `me`. -/
def logGetCurrentThreadName (names : ThreadNames τ) (me : τ) : CString :=
  match names.find? (isSlotOf me) with
  | some (some (_, name)) => name
  | _ => UNNAMED_THREAD

/-- Registrations one after the other; `thread_names_mutex` puts them in an order. -/
def registerAll (names : ThreadNames τ) (registrations : List (τ × Option CString)) :
    ThreadNames τ :=
  registrations.foldl (fun names r => logRegisterThisThread names r.1 r.2) names

/-! ## What the names should be -/

/-- The name that a registration gives. -/
def slotName (name : Option CString) : CString :=
  snprintf MAX_THREAD_NAME_LENGTH (name.getD UNNAMED_THREAD)

/-- The first registration of each thread, in order. -/
def firstRegistrations (registrations : List (τ × Option CString)) :
    List (τ × Option CString) :=
  firsts Prod.fst Prod.fst [] registrations

/-- The name of a thread after some registrations: that of its first one, when fewer
than `MAX_LOG_THREADS` other threads came before. -/
def registeredName (registrations : List (τ × Option CString)) (me : τ) : CString :=
  match ((firstRegistrations registrations).take MAX_LOG_THREADS).find? (·.1 = me) with
  | some (_, name) => slotName name
  | none => UNNAMED_THREAD

/-! ## The table -/

/-- The table that holds these registrations. -/
def tableOf (kept : List (τ × Option CString)) : ThreadNames τ :=
  kept.map (fun r => some (r.1, slotName r.2)) ++
    List.replicate (MAX_LOG_THREADS - kept.length) none

variable {kept registrations : List (τ × Option CString)} {me : τ} {name : Option CString}

theorem any_tableOf : (tableOf kept).any (isSlotOf me) = true ↔ me ∈ kept.map Prod.fst := by
  simp only [tableOf, List.any_append, Bool.or_eq_true, List.any_eq_true, List.mem_map]
  constructor
  · rintro (⟨_, ⟨r, hr, rfl⟩, hslot⟩ | ⟨_, hnone, hslot⟩)
    · exact ⟨r, hr, by simpa [isSlotOf] using hslot⟩
    · rw [List.eq_of_mem_replicate hnone] at hslot
      cases hslot
  · rintro ⟨r, hr, rfl⟩
    exact .inl ⟨_, ⟨r, hr, rfl⟩, by simp [isSlotOf]⟩

omit [DecidableEq τ] in
theorem findIdx?_tableOf : (tableOf kept).findIdx? (·.isNone) =
    if kept.length < MAX_LOG_THREADS then some kept.length else none := by
  have hnone : (kept.map fun r => some (r.1, slotName r.2)).findIdx? (·.isNone) = none := by
    rw [List.findIdx?_eq_none_iff]
    intro slot hslot
    obtain ⟨r, -, rfl⟩ := List.mem_map.mp hslot
    rfl
  rw [tableOf, List.findIdx?_append, hnone, Option.none_or]
  split
  · rename_i hroom
    obtain ⟨k, hk⟩ := Nat.exists_eq_add_of_lt hroom
    have hfree : MAX_LOG_THREADS - kept.length = k + 1 := by omega
    rw [hfree, List.replicate_succ, List.findIdx?_cons]
    simp
  · rename_i hfull
    have hfree : MAX_LOG_THREADS - kept.length = 0 := by omega
    rw [hfree]
    rfl

/-- A thread that is in the table keeps its slot. -/
theorem logRegisterThisThread_of_mem (h : me ∈ kept.map Prod.fst) :
    logRegisterThisThread (tableOf kept) me name = tableOf kept := by
  rw [logRegisterThisThread, if_pos (any_tableOf.mpr h)]

/-- A new thread takes the first free slot. -/
theorem logRegisterThisThread_of_notMem (h : me ∉ kept.map Prod.fst)
    (hroom : kept.length < MAX_LOG_THREADS) :
    logRegisterThisThread (tableOf kept) me name = tableOf (kept ++ [(me, name)]) := by
  obtain ⟨k, hk⟩ := Nat.exists_eq_add_of_lt hroom
  have hfree : MAX_LOG_THREADS - kept.length = k + 1 := by omega
  have hleft : MAX_LOG_THREADS - (kept ++ [(me, name)]).length = k := by
    rw [List.length_append, List.length_singleton]
    omega
  rw [logRegisterThisThread, if_neg fun hany => h (any_tableOf.mp hany), findIdx?_tableOf,
    if_pos hroom]
  show (tableOf kept).set kept.length (some (me, slotName name)) = _
  rw [tableOf, tableOf, hfree, hleft, List.set_append_right _ _ (by simp), List.length_map,
    Nat.sub_self, List.replicate_succ, List.set_cons_zero, List.map_append, List.append_assoc]
  rfl

theorem registerAll_of_full (hfull : kept.length = MAX_LOG_THREADS)
    (registrations : List (τ × Option CString)) :
    registerAll (tableOf kept) registrations = tableOf kept := by
  induction registrations with
  | nil => rfl
  | cons r registrations ih =>
      have hsame : logRegisterThisThread (tableOf kept) r.1 r.2 = tableOf kept := by
        rw [logRegisterThisThread, findIdx?_tableOf, if_neg (Nat.not_lt.mpr hfull.ge)]
        exact ite_self _
      rw [registerAll, List.foldl_cons, hsame]
      exact ih

/-- The table holds the first registrations, as many as there are slots. -/
theorem registerAll_tableOf (hroom : kept.length ≤ MAX_LOG_THREADS) :
    registerAll (tableOf kept) registrations =
      tableOf ((kept ++ firsts Prod.fst Prod.fst (kept.map Prod.fst) registrations).take
        MAX_LOG_THREADS) := by
  induction registrations generalizing kept with
  | nil =>
      rw [firsts, List.append_nil, List.take_of_length_le hroom]
      rfl
  | cons r registrations ih =>
      rcases hroom.lt_or_eq with hlt | hfull
      · rw [registerAll, List.foldl_cons]
        by_cases hmem : r.1 ∈ kept.map Prod.fst
        · rw [logRegisterThisThread_of_mem hmem, firsts_cons_of_mem hmem]
          exact ih hroom
        · rw [logRegisterThisThread_of_notMem hmem hlt, firsts_cons_of_notMem hmem]
          have hnext := @ih (kept ++ [r]) (by rw [List.length_append]; exact hlt)
          rw [List.map_append, List.append_assoc] at hnext
          exact hnext
      · rw [registerAll_of_full hfull, List.take_left' hfull]

theorem logGetCurrentThreadName_tableOf : logGetCurrentThreadName (tableOf kept) me =
    match kept.find? (·.1 = me) with
    | some (_, name) => slotName name
    | none => UNNAMED_THREAD := by
  have hfree : (List.replicate (MAX_LOG_THREADS - kept.length)
      (none : Option (τ × CString))).find? (isSlotOf me) = none := by
    rw [List.find?_eq_none]
    intro slot hslot
    rw [List.eq_of_mem_replicate hslot]
    exact Bool.false_ne_true
  have hslot : (isSlotOf me ∘ fun r : τ × Option CString => some (r.1, slotName r.2)) =
      fun r => decide (r.1 = me) := by
    funext r
    rfl
  rw [logGetCurrentThreadName, tableOf, List.find?_append, hfree, Option.or_none, List.find?_map,
    hslot]
  cases kept.find? (·.1 = me) <;> rfl

/-- **The name of a thread** is what its first registration gave, when there was a slot. -/
theorem logGetCurrentThreadName_registerAll (registrations : List (τ × Option CString)) (me : τ) :
    logGetCurrentThreadName (registerAll emptyThreadNames registrations) me =
      registeredName registrations me := by
  have hempty : (emptyThreadNames : ThreadNames τ) = tableOf [] := rfl
  rw [hempty, registerAll_tableOf (Nat.zero_le _), logGetCurrentThreadName_tableOf]
  rfl

end EmergencyDispatch
