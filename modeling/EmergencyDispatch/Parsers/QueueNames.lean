import EmergencyDispatch.Parsers.Env
import EmergencyDispatch.Library.CharBuffers

/-!
# Names of queues (`cleanup_queue_name`)

Two loops run over the buffer of the name: one replaces the slashes, the other
moves the characters to the right to make room for the slash in front.  The
second one starts at the last character instead of the terminator, so that it
moves the last but one over it: a name survives whole exactly when it brings its
own slash.
-/

namespace EmergencyDispatch

open CharBuffers

/-- The loop that replaces the slashes: `count` characters from index `i` on. -/
def dashSlashes : ℕ → ℕ → Buffer → Buffer
  | 0, _, qn => qn
  | count + 1, i, qn => dashSlashes count (i + 1) (if qn[i]? = some '/' then qn.set i '-' else qn)

/-- The loop that moves the characters to the right, from index `i` down to `1`. -/
def shiftRight : ℕ → Buffer → Buffer
  | 0, qn => qn
  | i + 1, qn => shiftRight i (qn.set (i + 1) (qn.getD i NUL))

/-- `cleanup_queue_name` on the buffer of the name. -/
def cleanupQueueNameInPlace (qn : Buffer) : Buffer :=
  let slashes := qn[0]? = some '/'
  let len := (str qn).length
  let qn := dashSlashes (len - 1) 1 qn
  if slashes then qn
  else
    let qn := shiftRight (len - 1) qn
    (qn.set 0 '/').set len NUL

/-! ## The two loops -/

/-- What the first loop does to a character. -/
def slashToDash (c : Char) : Char := if c = '/' then '-' else c

theorem slashToDash_ne_slash (c : Char) : slashToDash c ≠ '/' := by
  unfold slashToDash
  split
  · decide
  · assumption

theorem nul_notMem_map_slashToDash {s : List Char} (hs : NUL ∉ s) :
    NUL ∉ s.map slashToDash := by
  intro hmem
  obtain ⟨c, hc, hnul⟩ := List.mem_map.mp hmem
  unfold slashToDash at hnul
  split at hnul
  · exact absurd hnul (by decide)
  · exact hs (hnul ▸ hc)

/-- The first loop treats the characters it passes, and no others. -/
theorem dashSlashes_append (before middle after : List Char) :
    dashSlashes middle.length before.length (before ++ middle ++ after) =
      before ++ middle.map slashToDash ++ after := by
  induction middle generalizing before with
  | nil => simp [dashSlashes]
  | cons c middle ih =>
      have hcell : (before ++ c :: middle ++ after)[before.length]? = some c := by simp
      have hnext := ih (before ++ [slashToDash c])
      simp only [List.length_append, List.length_singleton, List.append_assoc,
        List.cons_append, List.nil_append] at hnext
      have hset : (if (before ++ c :: middle ++ after)[before.length]? = some '/' then
          (before ++ c :: middle ++ after).set before.length '-'
          else before ++ c :: middle ++ after) = before ++ slashToDash c :: (middle ++ after) := by
        rw [hcell]
        unfold slashToDash
        by_cases hc : c = '/'
        · simp [hc]
        · simp [hc]
      rw [List.length_cons, dashSlashes, hset, hnext]
      simp

/-- The second loop writes every character over its right neighbour. -/
theorem shiftRight_append (s : List Char) (c : Char) (after : List Char) :
    shiftRight s.length (s ++ c :: after) = (s ++ [c]).take 1 ++ s ++ after := by
  induction s using List.reverseRecOn generalizing c after with
  | nil => rfl
  | append_singleton s d ih =>
      have hcell : (s ++ [d] ++ c :: after).getD s.length NUL = d := by simp
      have hset : (s ++ [d] ++ c :: after).set (s.length + 1) d = s ++ d :: d :: after := by
        simp
      rw [List.length_append, List.length_singleton, shiftRight, hcell, hset, ih d (d :: after)]
      cases s <;> simp

/-! ## The function -/

theorem cleanupQueueName_slash (name : List Char) :
    cleanupQueueName ('/' :: name) = '/' :: name.map slashToDash := rfl

/-- Without its own slash a name loses the last character. -/
theorem cleanupQueueName_cons {first : Char} (hfirst : first ≠ '/') (name : List Char) :
    cleanupQueueName (first :: name) = '/' :: (first :: name.map slashToDash).dropLast :=
  if_neg hfirst

theorem cleanupQueueNameInPlace_append {first : Char} {name after : List Char}
    (h : NUL ∉ first :: name) :
    cleanupQueueNameInPlace (first :: name ++ NUL :: after) =
      cleanupQueueName (first :: name) ++ NUL :: after := by
  have hstr : str (first :: name ++ NUL :: after) = first :: name :=
    Holds.str_eq ⟨h, after, rfl⟩
  have hdash : dashSlashes name.length 1 (first :: name ++ NUL :: after) =
      first :: name.map slashToDash ++ NUL :: after := by
    simpa using dashSlashes_append [first] name (NUL :: after)
  unfold cleanupQueueNameInPlace
  simp only [hstr, List.length_cons, Nat.add_sub_cancel, hdash]
  by_cases hslash : first = '/'
  · subst hslash
    simp [cleanupQueueName_slash]
  · -- the cell that the loop overwrites first is that of the last character
    obtain ⟨cleaned, last, hcleaned⟩ : ∃ cleaned last,
        first :: name.map slashToDash = cleaned ++ [last] :=
      (List.eq_nil_or_concat' _).resolve_left (by simp)
    have hlength : name.length = cleaned.length := by
      have hlengths := congrArg List.length hcleaned
      simpa using hlengths
    have hhead : ¬(first :: name ++ NUL :: after)[0]? = some '/' := by simpa using hslash
    rw [if_neg hhead, cleanupQueueName_cons hslash, hcleaned, List.dropLast_concat, hlength,
      List.append_assoc, List.singleton_append, shiftRight_append]
    cases cleaned with
    | nil => simp
    | cons c cleaned => simp

theorem nul_notMem_cleanupQueueName {name : List Char} (h : NUL ∉ name) :
    NUL ∉ cleanupQueueName name := by
  cases name with
  | nil => exact h
  | cons first name =>
      have hname : NUL ∉ first :: name.map slashToDash := by
        have htail := nul_notMem_map_slashToDash (List.not_mem_of_not_mem_cons h)
        simpa [List.ne_of_not_mem_cons h] using htail
      by_cases hfirst : first = '/'
      · subst hfirst
        exact hname
      · rw [cleanupQueueName_cons hfirst]
        intro hmem
        rcases List.mem_cons.mp hmem with hslash | hmem
        · exact absurd hslash (by decide)
        · exact hname (List.dropLast_subset _ hmem)

/-- The loops do in the buffer what `cleanupQueueName` says about its string. -/
theorem str_cleanupQueueNameInPlace {qn : Buffer} (hqn : NUL ∈ qn) (hne : str qn ≠ []) :
    Holds (cleanupQueueNameInPlace qn) (cleanupQueueName (str qn)) := by
  obtain ⟨hnul, after, hafter⟩ := holds_str hqn
  obtain ⟨first, name, hname⟩ := List.exists_cons_of_ne_nil hne
  rw [hname] at hnul hafter ⊢
  refine ⟨nul_notMem_cleanupQueueName hnul, after, ?_⟩
  rw [hafter, cleanupQueueNameInPlace_append hnul]

/-! ## What cleaning is for -/

/-- A name without its own leading slash. -/
def stripSlash : List Char → List Char
  | [] => []
  | first :: name => if first = '/' then name else first :: name

/-- The name of the queue that is meant: a slash, and the whole name without any other. -/
def queueNameOf (name : List Char) : List Char := '/' :: (stripSlash name).map slashToDash

/-- The characters of a name that cleaning must tell apart. -/
def ownCharacters (name : List Char) : List Char := name.filter fun c => c != '/' && c != '-'

/-- Cleaning the name in this buffer loses nothing. -/
structure CleansWell (qn : Buffer) : Prop where
  whole : str (cleanupQueueNameInPlace qn) = queueNameOf (str qn)
  slash : ∃ rest, str (cleanupQueueNameInPlace qn) = '/' :: rest ∧ '/' ∉ rest
  idempotent : str (cleanupQueueNameInPlace (cleanupQueueNameInPlace qn)) =
    str (cleanupQueueNameInPlace qn)

theorem map_slashToDash_of_notMem {name : List Char} (h : '/' ∉ name) :
    name.map slashToDash = name := by
  refine (List.map_congr_left fun c hc => ?_).trans (List.map_id name)
  have hother : c ≠ '/' := fun hslash => h (hslash ▸ hc)
  exact if_neg hother

theorem slash_notMem_map (name : List Char) : '/' ∉ name.map slashToDash := by
  intro hmem
  obtain ⟨c, -, hc⟩ := List.mem_map.mp hmem
  exact slashToDash_ne_slash c hc

theorem ownCharacters_map (name : List Char) :
    ownCharacters (name.map slashToDash) = ownCharacters name := by
  unfold ownCharacters
  induction name with
  | nil => rfl
  | cons c name ih =>
      rw [List.map_cons, List.filter_cons, List.filter_cons, ih]
      unfold slashToDash
      split <;> simp_all

theorem ownCharacters_queueNameOf (name : List Char) :
    ownCharacters (queueNameOf name) = ownCharacters name := by
  have hmap := ownCharacters_map (stripSlash name)
  rw [queueNameOf, ownCharacters, List.filter_cons_of_neg (by decide)]
  refine hmap.trans ?_
  cases name with
  | nil => rfl
  | cons first name =>
      rw [stripSlash]
      split
      · rename_i hfirst
        rw [hfirst]
        rfl
      · rfl

theorem cleanupQueueName_idempotent {name rest : List Char}
    (h : cleanupQueueName name = '/' :: rest) (hrest : '/' ∉ rest) :
    cleanupQueueName (cleanupQueueName name) = cleanupQueueName name := by
  rw [h, cleanupQueueName_slash, map_slashToDash_of_notMem hrest]

/-- The name survives exactly when it brings its own slash. -/
theorem cleansWell_iff {qn : Buffer} (hqn : NUL ∈ qn) (hne : str qn ≠ []) :
    CleansWell qn ↔ (str qn).head? = some '/' := by
  have hclean := str_cleanupQueueNameInPlace hqn hne
  obtain ⟨first, name, hname⟩ := List.exists_cons_of_ne_nil hne
  constructor
  · rintro ⟨hwhole, -, -⟩
    rw [hclean.str_eq, hname] at hwhole
    by_contra hfirst
    rw [hname] at hfirst
    have hfirst : first ≠ '/' := by simpa using hfirst
    -- the code keeps as many characters as the name has, one too few
    have hlength := congrArg List.length hwhole
    rw [cleanupQueueName_cons hfirst, queueNameOf, stripSlash, if_neg hfirst] at hlength
    simp at hlength
  · intro hfirst
    rw [hname] at hfirst
    obtain rfl : first = '/' := by simpa using hfirst
    have hslash : cleanupQueueName (str qn) = '/' :: name.map slashToDash := by
      rw [hname, cleanupQueueName_slash]
    have hagain := str_cleanupQueueNameInPlace hclean.mem (by rw [hclean.str_eq, hslash]; simp)
    refine ⟨?_, ⟨_, hclean.str_eq.trans hslash, slash_notMem_map name⟩, ?_⟩
    · rw [hclean.str_eq, hslash, hname, queueNameOf, stripSlash, if_pos rfl]
    · rw [hagain.str_eq, hclean.str_eq,
        cleanupQueueName_idempotent hslash (slash_notMem_map name)]

/-- Two names are cleaned well and kept apart exactly when both bring their own slash. -/
theorem queue_names_kept_iff {qn qn' : Buffer} (hqn : NUL ∈ qn) (hqn' : NUL ∈ qn')
    (hne : str qn ≠ []) (hne' : str qn' ≠ []) :
    (CleansWell qn ∧ CleansWell qn' ∧
        (ownCharacters (str qn) ≠ ownCharacters (str qn') →
          str (cleanupQueueNameInPlace qn) ≠ str (cleanupQueueNameInPlace qn'))) ↔
      (str qn).head? = some '/' ∧ (str qn').head? = some '/' := by
  rw [← cleansWell_iff hqn hne, ← cleansWell_iff hqn' hne']
  constructor
  · rintro ⟨hwell, hwell', -⟩
    exact ⟨hwell, hwell'⟩
  · rintro ⟨hwell, hwell'⟩
    refine ⟨hwell, hwell', fun hdiffer hsame => hdiffer ?_⟩
    calc ownCharacters (str qn) = ownCharacters (queueNameOf (str qn)) :=
          (ownCharacters_queueNameOf _).symm
      _ = ownCharacters (queueNameOf (str qn')) := by rw [← hwell.whole, hsame, hwell'.whole]
      _ = ownCharacters (str qn') := ownCharacters_queueNameOf _

/-- The name in a field of the size of `queue_name`. -/
def queueNameField (name : String) : Buffer :=
  name.toList ++ List.replicate (MAX_EMERGENCY_QUEUE_NAME_LENGTH - name.toList.length) NUL

theorem queue_names_kept_slashes :
    CleansWell (queueNameField "/a/b") ∧ CleansWell (queueNameField "/a-c") ∧
      str (cleanupQueueNameInPlace (queueNameField "/a/b")) = "/a-b".toList := by
  have hrun : (NUL ∈ queueNameField "/a/b" ∧ NUL ∈ queueNameField "/a-c" ∧
      str (queueNameField "/a/b") ≠ [] ∧ str (queueNameField "/a-c") ≠ []) ∧
      ((str (queueNameField "/a/b")).head? = some '/' ∧
        (str (queueNameField "/a-c")).head? = some '/') ∧
      str (cleanupQueueNameInPlace (queueNameField "/a/b")) = "/a-b".toList := by
    decide
  obtain ⟨⟨hqn, hqn', hne, hne'⟩, hslash, hcleaned⟩ := hrun
  obtain ⟨hwell, hwell', -⟩ := (queue_names_kept_iff hqn hqn' hne hne').mpr hslash
  exact ⟨hwell, hwell', hcleaned⟩

/-- Without a slash of its own a name loses its last character: the name in the repository's
configuration and one that differs from it become the name of the same queue. -/
theorem last_character_lost :
    str (cleanupQueueNameInPlace (queueNameField "emergenze676722")) =
        "/emergenze67672".toList ∧
      ¬CleansWell (queueNameField "emergenze676722") ∧
      ownCharacters "emergenze676722".toList ≠ ownCharacters "emergenze676723".toList ∧
      str (cleanupQueueNameInPlace (queueNameField "emergenze676723")) =
        str (cleanupQueueNameInPlace (queueNameField "emergenze676722")) := by
  refine ⟨by decide, fun h => ?_, by decide, by decide⟩
  have hwhole := h.whole
  revert hwhole
  decide

end EmergencyDispatch
