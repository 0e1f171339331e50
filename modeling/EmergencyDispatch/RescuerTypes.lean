import EmergencyDispatch.Invariants
import EmergencyDispatch.Library.FirstOccurrences
import EmergencyDispatch.Library.NullTerminated
import EmergencyDispatch.Parsers.EmergencyTypes
import Mathlib.Data.List.Forall2

/-!
# What `parse_rescuers` returns

The parser of the rescuer types with its memory: the array that
`callocate_rescuer_types` makes, in which the lookups end at the first `NULL`,
and the twins that `mallocate_rescuer_digital_twin` makes, each under the number
it gets.  `parseRescuerArray_cases` is the loop against the one over the list of
the types: it either rejects the file or leaves the array `filled` with them.
The room is never short, because the parser stops at a bound on the types it has
parsed that is below the number of lines the array is made for.
-/

namespace EmergencyDispatch

open Scanf FirstOccurrences NullTerminated

/-! ## The parser and its memory -/

/-- `rescuers_t`, with the twins that were allocated. -/
structure Rescuers where
  types : List (Option RescuerType)
  count : ℕ
  twins : TwinId → Option RescuerDigitalTwin

/-- `callocate_rescuer_types`. -/
def callocateRescuerTypes : List (Option RescuerType) := calloc (MAX_RESCUER_CONF_LINES + 1)

/-- `get_rescuer_type_by_name` on the array; `none` when it reads past its end. -/
def lookupRescuerType (name : CString) (types : List (Option RescuerType)) :
    Option (Option RescuerType) :=
  scan (fun type => type.rescuerTypeName == trimRight name) types

/-- `check_and_extract_rescuer_type_fields_from_line`; `none` when it writes the name past
the end of its buffer or reads past the end of the array. -/
def extractRescuerTypeFields (line : CString) (types : List (Option RescuerType))
    (maxX maxY : ℤ) : Option RescuerLine :=
  if nameOverruns MAX_RESCUER_NAME_LENGTH (sscanf RESCUERS_SYNTAX line) then none
  else
    match sscanf RESCUERS_SYNTAX line with
    | [.str name, .int amount, .int speed, .int x, .int y] =>
        let fields : RescuerTypeFields := ⟨name, amount, speed, x, y, maxX, maxY⟩
        if rescuerTypeValuesAreIllegal fields then some .rejected
        else
          match lookupRescuerType name types with
          | none => none
          | some (some _) => some .duplicate
          | some none => some (.accepted { fields with name := trimRight name })
    | _ => some .rejected

/-- `callocate_and_populate_rescuer_digital_twins`: the twins of a type are allocated one
after the other. -/
def populateRescuerDigitalTwins (mallocated : TwinId → BresenhamTrajectory) (r : RescuerType)
    (twins : TwinId → Option RescuerDigitalTwin) : TwinId → Option RescuerDigitalTwin :=
  r.twins.foldl
    (fun twins t => Function.update twins t (some (mallocateRescuerDigitalTwin r (mallocated t))))
    twins

/-- How `parse_rescuers` ends. -/
inductive ParsedRescuers
  /-- It returns `NULL`. -/
  | null
  | overrun
  | returned (rescuers : Rescuers)

/-- The loop of `parse_rescuers` over the lines that are still unread; `total` is
`rescuer_digital_twins_total_count`. -/
def parseRescuerArrayLoop (mallocated : TwinId → BresenhamTrajectory) (maxX maxY : ℤ) :
    List CString → ParsingState → List (Option RescuerType) →
      (TwinId → Option RescuerDigitalTwin) → ℕ → ParsedRescuers
  | [], ps, types, twins, _ => .returned ⟨types, ps.parsedSoFar, twins⟩
  | line :: unread, ps, types, twins, total =>
      let (ps, processable) := checkIfLineCanBeProcessed (goToNextLine ps line)
        MAX_RESCUER_CONF_LINES MAX_RESCUER_TYPES_COUNT MAX_RESCUER_CONF_LINE_LENGTH
      if !processable then
        if ps.shouldContinueParsing then
          parseRescuerArrayLoop mallocated maxX maxY unread ps types twins total
        else .null
      else
        match extractRescuerTypeFields ps.line types maxX maxY with
        | none => .overrun
        | some .rejected => .null
        | some .duplicate => parseRescuerArrayLoop mallocated maxX maxY unread ps types twins total
        | some (.accepted fields) =>
            let r := mallocateAndPopulateRescuerType fields total
            match store types ps.parsedSoFar r with
            | none => .overrun
            | some types =>
                parseRescuerArrayLoop mallocated maxX maxY unread
                  { ps with parsedSoFar := ps.parsedSoFar + 1 } types
                  (populateRescuerDigitalTwins mallocated r twins) (total + fields.amount.toNat)

/-- `parse_rescuers` on the content of the file; `x` and `y` are the width and the height of
the environment. -/
def parseRescuerArray (mallocated : TwinId → BresenhamTrajectory) (file : List Char) (x y : ℤ) :
    ParsedRescuers :=
  parseRescuerArrayLoop mallocated x y (unreadLines file) (mallocateParsingState [])
    callocateRescuerTypes (fun _ => none) 0

/-! ## One line -/

/-- The name of a line as it is scanned. -/
def scannedRescuerName (line : CString) : CString :=
  match sscanf RESCUERS_SYNTAX line with
  | .str name :: _ => name
  | _ => []

/-- The trimmed name of the rescuer type of a line. -/
def rescuerName (line : CString) : CString := trimRight (scannedRescuerName line)

/-- The lines of the file that are rescuer types: those that can be processed and do not
repeat the name of an earlier one. -/
def rescuerLines (file : List Char) : List CString :=
  firsts rescuerName rescuerName [] (processableLines (unreadLines file))

/-- `r` has the values of the line. -/
structure RescuerOf (line : CString) (r : RescuerType) : Prop where
  name : r.rescuerTypeName = rescuerName line
  values : sscanf RESCUERS_SYNTAX line =
    [.str (scannedRescuerName line), .int r.amount, .int r.speed, .int r.x, .int r.y]

variable {line : CString} {types : List RescuerType} {maxX maxY : ℤ} {total : ℕ}
  {fields : RescuerTypeFields}

/-- With room for the name and a `NULL` in the array the line is what it is for the list. -/
theorem extractRescuerTypeFields_filled
    (hname : (scannedRescuerName line).length < MAX_RESCUER_NAME_LENGTH)
    (hroom : types.length < MAX_RESCUER_CONF_LINES + 1) :
    extractRescuerTypeFields line (filled (MAX_RESCUER_CONF_LINES + 1) types) maxX maxY =
      some (checkAndExtractRescuerTypeFields line types maxX maxY) := by
  have hfits : nameOverruns MAX_RESCUER_NAME_LENGTH (sscanf RESCUERS_SYNTAX line) = false := by
    unfold nameOverruns
    unfold scannedRescuerName at hname
    split
    · rename_i name _ hscan
      rw [hscan] at hname
      exact decide_eq_false (Nat.not_le.mpr hname)
    · rfl
  unfold extractRescuerTypeFields checkAndExtractRescuerTypeFields
  rw [hfits, if_neg Bool.false_ne_true]
  unfold lookupRescuerType getRescuerTypeByName
  generalize sscanf RESCUERS_SYNTAX line = items
  split
  · rename_i name amount speed x y
    dsimp only
    rw [scan_filled hroom]
    split
    · rfl
    · cases types.find? fun type => type.rescuerTypeName == trimRight name <;> rfl
  · simp

theorem rescuerName_mem_of_duplicate
    (h : checkAndExtractRescuerTypeFields line types maxX maxY = .duplicate) :
    rescuerName line ∈ types.map (·.rescuerTypeName) := by
  unfold checkAndExtractRescuerTypeFields at h
  split at h
  · rename_i name amount speed x y hscan
    dsimp only at h
    split at h
    · cases h
    split at h
    · rename_i hfound
      have hname : rescuerName line = trimRight name := by
        rw [rescuerName, scannedRescuerName, hscan]
      by_contra hnew
      rw [hname, ← getRescuerTypeByName_eq_none_iff] at hnew
      simp [hnew] at hfound
    · cases h
  · cases h

theorem rescuerOf_of_accepted (total : ℕ)
    (h : checkAndExtractRescuerTypeFields line types maxX maxY = .accepted fields) :
    MIN_RESCUER_AMOUNT ≤ fields.amount ∧ fields.amount ≤ MAX_RESCUER_AMOUNT ∧
      RescuerOf line (mallocateAndPopulateRescuerType fields total) := by
  obtain ⟨name, amount, speed, x, y, hscan, hlegal, -, rfl⟩ := checkAndExtract_scanned h
  obtain ⟨⟨hmin, hmax⟩, -⟩ := rescuerTypeValues_legal hlegal
  have hscanned : scannedRescuerName line = name := by
    rw [scannedRescuerName, hscan]
  have hamount : (amount.toNat : ℤ) = amount :=
    Int.toNat_of_nonneg (le_trans (by decide) hmin)
  refine ⟨hmin, hmax, ?_, ?_⟩
  · rw [rescuerName, hscanned]
    exact trimRight_trimRight _
  · rw [hscan, hscanned, ← hamount]
    rfl

/-! ## The file -/

variable {mallocated : TwinId → BresenhamTrajectory} {memory : TwinId → Option RescuerDigitalTwin}

theorem populateRescuerDigitalTwins_apply (r : RescuerType) (t : TwinId) :
    populateRescuerDigitalTwins mallocated r memory t =
      if t ∈ r.twins then some (mallocateRescuerDigitalTwin r (mallocated t)) else memory t := by
  unfold populateRescuerDigitalTwins
  induction r.twins generalizing memory with
  | nil => simp
  | cons u ids ih =>
      rw [List.foldl_cons, ih]
      by_cases hids : t ∈ ids
      · simp [hids]
      by_cases htu : t = u
      · subst htu
        simp
      · simp [hids, htu]

/-- The types parsed so far and their twins: the values are legal, the names are trimmed and
each type has its amount of twins, allocated at its base. -/
structure AllocatedRescuers (mallocated : TwinId → BresenhamTrajectory) (maxX maxY : ℤ)
    (types : List RescuerType) (memory : TwinId → Option RescuerDigitalTwin) (total : ℕ) : Prop
    extends LegalRescuers maxX maxY types total where
  trimmed : ∀ r ∈ types, trimRight r.rescuerTypeName = r.rescuerTypeName
  amount : ∀ r ∈ types, MIN_RESCUER_AMOUNT ≤ r.amount ∧ r.amount ≤ MAX_RESCUER_AMOUNT
  length_twins : ∀ r ∈ types, r.twins.length = r.amount
  allocated : ∀ r ∈ types, ∀ t ∈ r.twins,
    memory t = some (mallocateRescuerDigitalTwin r (mallocated t))

theorem AllocatedRescuers.append (h : AllocatedRescuers mallocated maxX maxY types memory total)
    (haccepted : checkAndExtractRescuerTypeFields line types maxX maxY = .accepted fields) :
    let r := mallocateAndPopulateRescuerType fields total
    AllocatedRescuers mallocated maxX maxY (types ++ [r])
      (populateRescuerDigitalTwins mallocated r memory) (total + fields.amount.toNat) := by
  intro r
  obtain ⟨hmin, hmax, hof⟩ := rescuerOf_of_accepted total haccepted
  have hamount : (fields.amount.toNat : ℤ) = fields.amount :=
    Int.toNat_of_nonneg (le_trans (by decide) hmin)
  have hmem : ∀ {p : RescuerType → Prop}, (∀ r' ∈ types, p r') → p r →
      ∀ r' ∈ types ++ [r], p r' := by
    intro p htypes hnew r' hr'
    rcases List.mem_append.mp hr' with hr' | hr'
    · exact htypes r' hr'
    · rwa [List.mem_singleton.mp hr']
  -- the numbers of the new twins are beyond those of the old ones
  have hold : ∀ r' ∈ types, ∀ t ∈ r'.twins, t ∉ r.twins := by
    intro r' hr' t ht hnew
    have hlt : t < total := by
      rw [← List.mem_range, ← h.twins]
      exact List.mem_flatMap.mpr ⟨r', hr', ht⟩
    obtain ⟨k, -, rfl⟩ := List.mem_map.mp hnew
    exact absurd hlt (Nat.not_lt.mpr (Nat.le_add_right total k))
  refine ⟨h.toLegalRescuers.append haccepted, hmem h.trimmed (trimRight_trimRight _),
    hmem h.amount ?_, hmem h.length_twins ?_, hmem ?_ ?_⟩
  · show MIN_RESCUER_AMOUNT ≤ (fields.amount.toNat : ℤ) ∧ _
    exact ⟨hamount ▸ hmin, hamount ▸ hmax⟩
  · simp [r, mallocateAndPopulateRescuerType]
  · intro r' hr' t ht
    rw [populateRescuerDigitalTwins_apply, if_neg (hold r' hr' t ht)]
    exact h.allocated r' hr' t ht
  · intro t ht
    rw [populateRescuerDigitalTwins_apply, if_pos ht]

/-- **The loop**: it rejects the file, or leaves in the array the types that the loop over
the list makes of the remaining lines. -/
theorem parseRescuerArrayLoop_cases {unread : List CString} {ps : ParsingState}
    (hnames : ∀ line ∈ processableLines unread,
      (scannedRescuerName line).length < MAX_RESCUER_NAME_LENGTH)
    (hparsed : ps.parsedSoFar = types.length)
    (hroom : types.length ≤ MAX_RESCUER_TYPES_COUNT + 1)
    (h : AllocatedRescuers mallocated maxX maxY types memory total) :
    (parseRescuerArrayLoop mallocated maxX maxY unread ps
          (filled (MAX_RESCUER_CONF_LINES + 1) types) memory total = .null ∧
        parseRescuersLoop maxX maxY unread ps types total = none) ∨
      ∃ added memory' total',
        parseRescuerArrayLoop mallocated maxX maxY unread ps
            (filled (MAX_RESCUER_CONF_LINES + 1) types) memory total =
          .returned ⟨filled (MAX_RESCUER_CONF_LINES + 1) (types ++ added),
            (types ++ added).length, memory'⟩ ∧
        parseRescuersLoop maxX maxY unread ps types total = some (types ++ added) ∧
        (types ++ added).length ≤ MAX_RESCUER_TYPES_COUNT + 1 ∧
        AllocatedRescuers mallocated maxX maxY (types ++ added) memory' total' ∧
        List.Forall₂ RescuerOf
          (firsts rescuerName rescuerName (types.map (·.rescuerTypeName))
            (processableLines unread)) added := by
  induction unread generalizing ps types memory total with
  | nil =>
      refine .inr ⟨[], memory, total, ?_, ?_, ?_, ?_, .nil⟩
      · rw [List.append_nil, parseRescuerArrayLoop, hparsed]
      · rw [List.append_nil, parseRescuersLoop]
      · rwa [List.append_nil]
      · rwa [List.append_nil]
  | cons line unread ih =>
      unfold parseRescuerArrayLoop parseRescuersLoop
      rcases checkIfLineCanBeProcessed_cases (goToNextLine ps line) MAX_RESCUER_CONF_LINES
          MAX_RESCUER_TYPES_COUNT MAX_RESCUER_CONF_LINE_LENGTH with ⟨hlimit, -, hcheck⟩ | hcheck
      · have hline : (goToNextLine ps line).line = line := rfl
        have hcount : (goToNextLine ps line).parsedSoFar = types.length := hparsed
        rw [hcount] at hlimit
        have hslots : types.length < MAX_RESCUER_CONF_LINES + 1 :=
          Nat.lt_of_le_of_lt hlimit (by decide)
        simp only [hcheck, hline, Bool.not_eq_true']
        cases hprocessable : lineIsProcessable line with
        | false =>
            have hskip : processableLines (line :: unread) = processableLines unread :=
              List.filter_cons_of_neg (by simp [hprocessable])
            rw [hskip] at hnames ⊢
            cases hcontinue : (goToNextLine ps line).shouldContinueParsing with
            | false => exact .inl ⟨rfl, rfl⟩
            | true => exact ih hnames hparsed hroom h
        | true =>
            have hkeep : processableLines (line :: unread) = line :: processableLines unread :=
              List.filter_cons_of_pos hprocessable
            rw [hkeep] at hnames ⊢
            obtain ⟨hname, hnames⟩ := List.forall_mem_cons.mp hnames
            rw [extractRescuerTypeFields_filled hname hslots]
            cases hextract : checkAndExtractRescuerTypeFields line types maxX maxY with
            | rejected => exact .inl ⟨rfl, rfl⟩
            -- the name was seen before, so this line is not among the first occurrences
            | duplicate =>
                rw [firsts_cons_of_mem (rescuerName_mem_of_duplicate hextract)]
                exact ih hnames hparsed hroom h
            | accepted fields =>
                obtain ⟨-, -, hof⟩ := rescuerOf_of_accepted total hextract
                have hnew : rescuerName line ∉ types.map (·.rescuerTypeName) := by
                  rw [← hof.name]
                  exact (checkAndExtract_accepted hextract).2.2.2
                -- the array, the list and the memory grow by the same type
                let r := mallocateAndPopulateRescuerType fields total
                let ps' : ParsingState :=
                  { goToNextLine ps line with parsedSoFar := types.length + 1 }
                have hparsed' : ps'.parsedSoFar = (types ++ [r]).length := by simp [ps']
                have hnext := ih hnames hparsed' (by simpa using hlimit) (h.append hextract)
                simp only [hcount, store_filled hslots]
                rcases hnext with ⟨hnull, hnone⟩ | ⟨added, memory', total', hrun, hlist, hle,
                  hallocated, hlines⟩
                · exact .inl ⟨hnull, hnone⟩
                · have hassoc : types ++ r :: added = types ++ [r] ++ added := List.append_cons ..
                  refine .inr ⟨r :: added, memory', total', ?_, ?_, ?_, ?_, ?_⟩
                  · rw [hassoc]
                    exact hrun
                  · rw [hassoc]
                    exact hlist
                  · rw [hassoc]
                    exact hle
                  · rw [hassoc]
                    exact hallocated
                  · rw [firsts_cons_of_notMem hnew]
                    refine .cons hof ?_
                    rw [← hof.name]
                    simpa using hlines
      -- a line outside the limits ends both loops
      · left
        simp [hcheck]

variable {file : List Char}

/-- **The parser with its memory** against the parser over lists. -/
theorem parseRescuerArray_cases (mallocated : TwinId → BresenhamTrajectory) (x y : ℤ)
    (hnames : ∀ line ∈ processableLines (unreadLines file),
      (scannedRescuerName line).length < MAX_RESCUER_NAME_LENGTH) :
    (parseRescuerArray mallocated file x y = .null ∧ parseRescuers file x y = none) ∨
      ∃ types memory total,
        parseRescuerArray mallocated file x y =
          .returned ⟨filled (MAX_RESCUER_CONF_LINES + 1) types, types.length, memory⟩ ∧
        parseRescuers file x y = some types ∧
        types.length ≤ MAX_RESCUER_TYPES_COUNT + 1 ∧
        AllocatedRescuers mallocated x y types memory total ∧
        List.Forall₂ RescuerOf (rescuerLines file) types := by
  have hnothing : AllocatedRescuers mallocated x y [] (fun _ => none) 0 :=
    { toLegalRescuers := ⟨by simp, by simp, by simp, by simp, rfl⟩
      trimmed := by simp
      amount := by simp
      length_twins := by simp
      allocated := by simp }
  exact parseRescuerArrayLoop_cases hnames rfl (Nat.zero_le _) hnothing

/-- What the rest of the server may rely on: the array holds the types of the lines and ends
inside its allocation, names and numbers are different, values are legal, and every twin
stands idle at its base. -/
structure WellFormedRescuers (file : List Char) (width height : ℤ) (rescuers : Rescuers)
    (types : List RescuerType) : Prop where
  array : rescuers.types = filled (MAX_RESCUER_CONF_LINES + 1) types
  count : rescuers.count = types.length
  terminator : rescuers.types[rescuers.count]? = some none
  lines : List.Forall₂ RescuerOf (rescuerLines file) types
  names : (types.map (·.rescuerTypeName)).Nodup
  trimmed : ∀ r ∈ types, trimRight r.rescuerTypeName = r.rescuerTypeName
  amount : ∀ r ∈ types, MIN_RESCUER_AMOUNT ≤ r.amount ∧ r.amount ≤ MAX_RESCUER_AMOUNT
  speed : ∀ r ∈ types, MIN_RESCUER_SPEED ≤ r.speed ∧ r.speed ≤ MAX_RESCUER_SPEED
  base : ∀ r ∈ types, (0 ≤ r.x ∧ r.x ≤ width) ∧ 0 ≤ r.y ∧ r.y ≤ height
  twins : ∀ r ∈ types, r.twins.length = r.amount ∧ ∀ t ∈ r.twins, ∃ twin,
    rescuers.twins t = some twin ∧ twin.rescuer = r ∧ twin.status = .idle ∧
      twin.emergency = none ∧ twin.x = r.x ∧ twin.y = r.y
  ids : (types.flatMap (·.twins)).Nodup

/-- **`parse_rescuers`** returns `NULL` or well-formed rescuers. -/
theorem parseRescuerArray_wellFormed (mallocated : TwinId → BresenhamTrajectory)
    (width height : ℤ)
    (hnames : ∀ line ∈ processableLines (unreadLines file),
      (scannedRescuerName line).length < MAX_RESCUER_NAME_LENGTH) :
    parseRescuerArray mallocated file width height = .null ∨
      ∃ rescuers types, parseRescuerArray mallocated file width height = .returned rescuers ∧
        WellFormedRescuers file width height rescuers types := by
  rcases parseRescuerArray_cases mallocated width height hnames with
    ⟨hnull, -⟩ | ⟨types, memory, total, hreturned, -, hle, hallocated, hlines⟩
  · exact .inl hnull
  · have hroom : types.length < MAX_RESCUER_CONF_LINES + 1 := Nat.lt_of_le_of_lt hle (by decide)
    refine .inr ⟨_, types, hreturned,
      { array := rfl
        count := rfl
        terminator := ?_
        lines := hlines
        names := hallocated.names
        trimmed := hallocated.trimmed
        amount := hallocated.amount
        speed := hallocated.speed
        base := fun r hr => ⟨hallocated.x r hr, hallocated.y r hr⟩
        twins := fun r hr => ⟨hallocated.length_twins r hr, fun t ht =>
          ⟨_, hallocated.allocated r hr t ht, rfl, rfl, rfl, rfl, rfl⟩⟩
        ids := ?_ }⟩
    · show (filled (MAX_RESCUER_CONF_LINES + 1) types)[types.length]? = some none
      rw [getElem?_filled hroom, List.getElem?_eq_none (Nat.le_refl _)]
    · rw [hallocated.twins]
      exact List.nodup_range

/-- Comments, blank lines and the second `A` are left out. -/
theorem parseRescuerArray_wellFormed_bases :
    let file := "# bases\n\n[A ][2][20][0;0]\n[A][1][20][3;3]\n[B][1][5][4;2]\n".toList
    ∃ rescuers types, parseRescuerArray (fun _ => default) file 20 20 = .returned rescuers ∧
      WellFormedRescuers file 20 20 rescuers types := by
  intro file
  obtain ⟨hnames, hreturned⟩ : (∀ line ∈ processableLines (unreadLines file),
      (scannedRescuerName line).length < MAX_RESCUER_NAME_LENGTH) ∧
      (match parseRescuerArray (fun _ => default) file 20 20 with
        | .returned _ => true
        | _ => false) = true := by
    decide +kernel
  refine (parseRescuerArray_wellFormed (fun _ => default) 20 20 hnames).resolve_left fun hnull => ?_
  rw [hnull] at hreturned
  cases hreturned

end EmergencyDispatch
