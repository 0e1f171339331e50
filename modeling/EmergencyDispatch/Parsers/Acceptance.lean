import EmergencyDispatch.Library.KeyedReader
import EmergencyDispatch.Parsers.RequestArrays
import EmergencyDispatch.RescuerTypes

/-!
# Which rescuers and emergencies are accepted

`parse_rescuers` and `parse_emergencies` read their lines with the same limits,
skip what is blank or a comment, ignore the names that were parsed before, and
return `NULL` at the first line that is refused.  Both are readers in the sense
of `KeyedReader`: they come to the end of the file exactly when every line is
within the limits and good, and every first line of a name can be used.
-/

namespace EmergencyDispatch

open Scanf FirstOccurrences NullTerminated KeyedReader

/-! ## The limits of the two parsers -/

/-- The reader asks of a line what `check_if_line_can_be_processed_logging` does. -/
structure ReadsLines (R : Reader CString CString) : Prop where
  maxItems : R.maxItems = MAX_RESCUER_CONF_LINES
  maxKept : R.maxKept = MAX_RESCUER_TYPES_COUNT
  fits : ∀ line, R.fits line = decide (line.length ≤ MAX_RESCUER_CONF_LINE_LENGTH)
  relevant : R.relevant = lineIsProcessable

/-- The limits are checked on the state of the parser after the line was read. -/
theorem ReadsLines.accepts_cons {R : Reader CString CString} (h : ReadsLines R)
    {ps : ParsingState} {names : List CString} (hparsed : ps.parsedSoFar = names.length)
    (line : CString) (unread : List CString) :
    R.accepts ps.lineNumber names (line :: unread) =
      (lineIsWithin (goToNextLine ps line) MAX_RESCUER_CONF_LINES MAX_RESCUER_TYPES_COUNT
          MAX_RESCUER_CONF_LINE_LENGTH &&
        if lineIsProcessable line then
          R.good line &&
            if R.key line ∈ names then R.accepts (ps.lineNumber + 1) names unread
            else R.goodNew line && R.accepts (ps.lineNumber + 1) (names ++ [R.key line]) unread
        else R.accepts (ps.lineNumber + 1) names unread) := by
  have hwithin : lineIsWithin (goToNextLine ps line) MAX_RESCUER_CONF_LINES
      MAX_RESCUER_TYPES_COUNT MAX_RESCUER_CONF_LINE_LENGTH =
        (decide (ps.lineNumber + 1 ≤ R.maxItems) && decide (names.length ≤ R.maxKept) &&
          R.fits line) := by
    rw [h.maxItems, h.maxKept, h.fits, ← hparsed]
    rfl
  rw [Reader.accepts, hwithin, h.relevant]
  congr

/-! ## Rescuers -/

/-- The line scans, its name leaves room for the terminator and its values are legal. -/
def rescuerLineIsGood (maxX maxY : ℤ) (line : CString) : Bool :=
  match sscanf RESCUERS_SYNTAX line with
  | [.str name, .int amount, .int speed, .int x, .int y] =>
      decide (name.length < MAX_RESCUER_NAME_LENGTH) &&
        !rescuerTypeValuesAreIllegal ⟨name, amount, speed, x, y, maxX, maxY⟩
  | _ => false

/-- What `parse_rescuers` asks of its lines. -/
def rescuerReader (maxX maxY : ℤ) : Reader CString CString where
  maxItems := MAX_RESCUER_CONF_LINES
  maxKept := MAX_RESCUER_TYPES_COUNT
  fits line := line.length ≤ MAX_RESCUER_CONF_LINE_LENGTH
  relevant := lineIsProcessable
  good := rescuerLineIsGood maxX maxY
  key := rescuerName
  goodNew _ := true

theorem rescuerReader_readsLines (maxX maxY : ℤ) : ReadsLines (rescuerReader maxX maxY) where
  maxItems := rfl
  maxKept := rfl
  fits _ := rfl
  relevant := rfl

/-- The file of the rescuers is accepted. -/
def RescuerFileAccepted (file : List Char) (maxX maxY : ℤ) : Prop :=
  Accepted (rescuerReader maxX maxY) 0 [] (unreadLines file)

section rescuers

variable {line : CString} {types : List RescuerType} {maxX maxY : ℤ} {total : ℕ}
  {mallocated : TwinId → BresenhamTrajectory} {memory : TwinId → Option RescuerDigitalTwin}

/-- A line that is not good is refused or overruns its buffer. -/
theorem extractRescuerTypeFields_bad (array : List (Option RescuerType))
    (h : rescuerLineIsGood maxX maxY line = false) :
    extractRescuerTypeFields line array maxX maxY = none ∨
      extractRescuerTypeFields line array maxX maxY = some .rejected := by
  unfold extractRescuerTypeFields
  cases hfits : nameOverruns MAX_RESCUER_NAME_LENGTH (sscanf RESCUERS_SYNTAX line) with
  | true => exact .inl rfl
  | false =>
      refine .inr ?_
      rw [if_neg Bool.false_ne_true]
      by_cases hscan : ∃ name amount speed x y, sscanf RESCUERS_SYNTAX line =
          [.str name, .int amount, .int speed, .int x, .int y]
      · obtain ⟨name, amount, speed, x, y, hscan⟩ := hscan
        rw [hscan, nameOverruns, decide_eq_false_iff_not, Nat.not_le] at hfits
        simp only [rescuerLineIsGood, hscan, decide_eq_true hfits, Bool.true_and,
          Bool.not_eq_false'] at h
        simp [hscan, h]
      · split
        · rename_i hitems
          exact absurd ⟨_, _, _, _, _, hitems⟩ hscan
        · rfl

theorem scannedRescuerName_of_good (h : rescuerLineIsGood maxX maxY line = true) :
    (scannedRescuerName line).length < MAX_RESCUER_NAME_LENGTH := by
  unfold rescuerLineIsGood at h
  unfold scannedRescuerName
  split at h
  · rename_i hscan
    rw [hscan]
    simp only [Bool.and_eq_true, decide_eq_true_eq] at h
    exact h.1
  · cases h

/-- A good line is a type if its name is new, and ignored otherwise. -/
theorem extractRescuerTypeFields_good (h : rescuerLineIsGood maxX maxY line = true)
    (hroom : types.length < MAX_RESCUER_CONF_LINES + 1) :
    (rescuerName line ∈ types.map (·.rescuerTypeName) ∧
        extractRescuerTypeFields line (filled (MAX_RESCUER_CONF_LINES + 1) types) maxX maxY =
          some .duplicate) ∨
      ∃ fields, rescuerName line ∉ types.map (·.rescuerTypeName) ∧
        extractRescuerTypeFields line (filled (MAX_RESCUER_CONF_LINES + 1) types) maxX maxY =
          some (.accepted fields) ∧ trimRight fields.name = rescuerName line := by
  rw [extractRescuerTypeFields_filled (scannedRescuerName_of_good h) hroom]
  unfold rescuerLineIsGood at h
  split at h
  · rename_i name amount speed x y hscan
    have hname : rescuerName line = trimRight name := by
      rw [rescuerName, scannedRescuerName, hscan]
    simp only [Bool.and_eq_true, Bool.not_eq_true'] at h
    simp only [checkAndExtractRescuerTypeFields, hscan, h.2, Bool.false_eq_true, if_false]
    cases hfind : getRescuerTypeByName name types with
    | none =>
        rw [getRescuerTypeByName_eq_none_iff, ← hname] at hfind
        exact .inr ⟨_, hfind, rfl, by rw [hname, trimRight_trimRight]⟩
    | some r =>
        refine .inl ⟨?_, rfl⟩
        by_contra hnew
        rw [hname, ← getRescuerTypeByName_eq_none_iff, hfind] at hnew
        cases hnew
  · cases h

theorem parseRescuerArrayLoop_cons {unread : List CString} {ps : ParsingState}
    {array : List (Option RescuerType)} (hcontinue : ps.shouldContinueParsing = true) :
    parseRescuerArrayLoop mallocated maxX maxY (line :: unread) ps array memory total =
      if lineIsWithin (goToNextLine ps line) MAX_RESCUER_CONF_LINES MAX_RESCUER_TYPES_COUNT
          MAX_RESCUER_CONF_LINE_LENGTH then
        if lineIsProcessable line then
          match extractRescuerTypeFields line array maxX maxY with
          | none => .overrun
          | some .rejected => .null
          | some .duplicate =>
              parseRescuerArrayLoop mallocated maxX maxY unread (goToNextLine ps line) array
                memory total
          | some (.accepted fields) =>
              let r := mallocateAndPopulateRescuerType fields total
              match store array ps.parsedSoFar r with
              | none => .overrun
              | some array =>
                  parseRescuerArrayLoop mallocated maxX maxY unread
                    { goToNextLine ps line with parsedSoFar := ps.parsedSoFar + 1 } array
                    (populateRescuerDigitalTwins mallocated r memory)
                    (total + fields.amount.toNat)
        else
          parseRescuerArrayLoop mallocated maxX maxY unread (goToNextLine ps line) array
            memory total
      else .null := by
  obtain ⟨buffer, number, parsed, continues⟩ := ps
  obtain rfl : continues = true := hcontinue
  rw [parseRescuerArrayLoop, checkIfLineCanBeProcessed_eq]
  cases lineIsWithin (goToNextLine ⟨buffer, number, parsed, true⟩ line) MAX_RESCUER_CONF_LINES
      MAX_RESCUER_TYPES_COUNT MAX_RESCUER_CONF_LINE_LENGTH with
  | false => rfl
  | true =>
      cases hline : lineIsProcessable line with
      | false => simp [goToNextLine, hline]
      | true =>
          cases hfields : extractRescuerTypeFields line array maxX maxY with
          | none => simp [goToNextLine, hline, hfields]
          | some answer =>
              cases answer with
              | rejected | duplicate => simp [goToNextLine, hline, hfields]
              | accepted fields =>
                  cases hstore : store array parsed
                      (mallocateAndPopulateRescuerType fields total) <;>
                    simp [goToNextLine, hline, hfields, hstore]

/-- The loop returns the rescuers exactly when the reader comes to the end. -/
theorem parseRescuerArrayLoop_returned_iff {unread : List CString} {ps : ParsingState}
    (hparsed : ps.parsedSoFar = types.length) (hcontinue : ps.shouldContinueParsing = true)
    (hroom : types.length ≤ MAX_RESCUER_TYPES_COUNT + 1) :
    (∃ rescuers, parseRescuerArrayLoop mallocated maxX maxY unread ps
        (filled (MAX_RESCUER_CONF_LINES + 1) types) memory total = .returned rescuers) ↔
      (rescuerReader maxX maxY).accepts ps.lineNumber (types.map (·.rescuerTypeName)) unread =
        true := by
  induction unread generalizing ps types memory total with
  | nil => exact iff_of_true ⟨_, rfl⟩ rfl
  | cons line unread ih =>
      have hslots : types.length < MAX_RESCUER_CONF_LINES + 1 :=
        Nat.lt_of_le_of_lt hroom (by decide)
      have hnames : ps.parsedSoFar = (types.map (·.rescuerTypeName)).length := by
        rw [hparsed, List.length_map]
      have hgood : (rescuerReader maxX maxY).good line = rescuerLineIsGood maxX maxY line := rfl
      have hkey : (rescuerReader maxX maxY).key line = rescuerName line := rfl
      have hnew : (rescuerReader maxX maxY).goodNew line = true := rfl
      rw [parseRescuerArrayLoop_cons hcontinue,
        (rescuerReader_readsLines maxX maxY).accepts_cons hnames, hgood, hkey, hnew]
      cases hlimits : lineIsWithin (goToNextLine ps line) MAX_RESCUER_CONF_LINES
          MAX_RESCUER_TYPES_COUNT MAX_RESCUER_CONF_LINE_LENGTH with
      | false => simp
      | true =>
          simp only [if_true, Bool.true_and]
          cases lineIsProcessable line with
          | false => exact ih hparsed hcontinue hroom
          | true =>
              simp only [if_true]
              cases hline : rescuerLineIsGood maxX maxY line with
              | false =>
                  rcases extractRescuerTypeFields_bad
                      (filled (MAX_RESCUER_CONF_LINES + 1) types) hline with hextract | hextract
                  · simp [hextract]
                  · simp [hextract]
              | true =>
                  rcases extractRescuerTypeFields_good hline hslots with
                    ⟨hmem, hextract⟩ | ⟨fields, hmem, hextract, hname⟩
                  · rw [hextract, if_pos hmem]
                    exact ih hparsed hcontinue hroom
                  · rw [hextract, if_neg hmem, hparsed]
                    dsimp only
                    rw [store_filled hslots]
                    have hle : types.length ≤ MAX_RESCUER_TYPES_COUNT := by
                      rw [← hparsed]
                      simp only [lineIsWithin, Bool.and_eq_true, decide_eq_true_eq] at hlimits
                      exact hlimits.1.2
                    have hnames : (types ++ [mallocateAndPopulateRescuerType fields total]).map
                        (·.rescuerTypeName) =
                          types.map (·.rescuerTypeName) ++ [rescuerName line] := by
                      rw [List.map_append, ← hname]
                      rfl
                    rw [Bool.true_and, ← hnames]
                    exact ih (by simp) hcontinue (by simpa using hle)

/-- The file is accepted exactly when `parse_rescuers` returns rescuers. -/
theorem parseRescuerArray_returned_iff {file : List Char} :
    (∃ rescuers, parseRescuerArray mallocated file maxX maxY = .returned rescuers) ↔
      RescuerFileAccepted file maxX maxY := by
  rw [RescuerFileAccepted, ← accepts_iff]
  have hnone : ([] : List RescuerType).length ≤ MAX_RESCUER_TYPES_COUNT + 1 := Nat.zero_le _
  exact parseRescuerArrayLoop_returned_iff rfl rfl hnone

theorem RescuerFileAccepted.parsed {file : List Char} (h : RescuerFileAccepted file maxX maxY)
    (mallocated : TwinId → BresenhamTrajectory) :
    ∃ types memory, parseRescuerArray mallocated file maxX maxY =
        .returned ⟨filled (MAX_RESCUER_CONF_LINES + 1) types, types.length, memory⟩ ∧
      types.length < MAX_RESCUER_CONF_LINES + 1 ∧
      (types.map (·.rescuerTypeName)).Nodup ∧
      List.Forall₂ RescuerOf (rescuerLines file) types := by
  have hnames : ∀ line ∈ processableLines (unreadLines file),
      (scannedRescuerName line).length < MAX_RESCUER_NAME_LENGTH := by
    intro line hline
    obtain ⟨hmem, hrelevant⟩ := List.mem_filter.mp hline
    exact scannedRescuerName_of_good (h.good line hmem hrelevant)
  rcases parseRescuerArray_cases mallocated maxX maxY hnames with
    ⟨hnull, -⟩ | ⟨types, memory, total, hreturned, -, hle, hallocated, hlines⟩
  · obtain ⟨rescuers, hreturned⟩ := parseRescuerArray_returned_iff.mpr h
    rw [hnull] at hreturned
    cases hreturned
  · exact ⟨types, memory, hreturned, Nat.lt_of_le_of_lt hle (by decide), hallocated.names, hlines⟩

end rescuers

/-! ## Emergencies -/

/-- How `parse_emergencies` ends. -/
inductive ParsedEmergencies
  /-- It returns `NULL`. -/
  | null
  | overrun
  | returned (types : List EmergencyType)

/-- The types, when they are returned. -/
def ParsedEmergencies.types? : ParsedEmergencies → Option (List EmergencyType)
  | .returned types => some types
  | .null | .overrun => none

/-- The loop of `parse_emergencies` over the lines that are still unread, with the buffers
it may overrun.  The array of the types has room for twice as many as it lets through. -/
def parseEmergenciesInBuffersLoop (table : List PriorityRule) (rescuers : List RescuerType) :
    List CString → ParsingState → List EmergencyType → ParsedEmergencies
  | [], _, types => .returned types
  | line :: unread, ps, types =>
      let (ps, processable) := checkIfLineCanBeProcessed (goToNextLine ps line)
        MAX_RESCUER_CONF_LINES MAX_RESCUER_TYPES_COUNT MAX_RESCUER_CONF_LINE_LENGTH
      if !processable then
        if ps.shouldContinueParsing then
          parseEmergenciesInBuffersLoop table rescuers unread ps types
        else .null
      else
        match checkAndExtractEmergencyTypeFields table rescuers ps.line types with
        | .rejected => .null
        | .overrun => .overrun
        | .duplicate => parseEmergenciesInBuffersLoop table rescuers unread ps types
        | .accepted fields =>
            parseEmergenciesInBuffersLoop table rescuers unread
              { ps with parsedSoFar := ps.parsedSoFar + 1 }
              (types ++ [mallocateAndPopulateEmergencyType fields])

/-- `parse_emergencies` on the content of the file. -/
def parseEmergenciesInBuffers (file : List Char) (rescuers : List RescuerType)
    (table : List PriorityRule) : ParsedEmergencies :=
  parseEmergenciesInBuffersLoop table rescuers (unreadLines file) (mallocateParsingState []) []

/-- The line scans, its name leaves room for the terminator and its values are legal. -/
def emergencyLineIsGood (table : List PriorityRule) (line : CString) : Bool :=
  match sscanf EMERGENCY_TYPE_SYNTAX line with
  | [.str emergencyDesc, .int priority, .str _] =>
      decide (emergencyDesc.length < MAX_EMERGENCY_NAME_LENGTH) &&
        !emergencyValuesAreIllegal table emergencyDesc priority
  | _ => false

/-- Every request is well-formed, and those of a new name can be met and have room. -/
def requestsAreGood (canBeMet : CString → Bool) (tokens : List CString) : Bool :=
  let new := firsts requestName requestedName [] tokens
  (tokens.all fun token => !requestIsMalformed token) && new.all canBeMet &&
    decide (new.length ≤ MAX_RESCUER_REQ_NUMBER_PER_EMERGENCY)

/-- What `parse_emergencies` asks of its lines. -/
def emergencyReader (table : List PriorityRule) (canBeMet : CString → Bool) :
    Reader CString CString where
  maxItems := MAX_RESCUER_CONF_LINES
  maxKept := MAX_RESCUER_TYPES_COUNT
  fits line := line.length ≤ MAX_RESCUER_CONF_LINE_LENGTH
  relevant := lineIsProcessable
  good := emergencyLineIsGood table
  key := emergencyName
  goodNew line := requestsAreGood canBeMet (requestTokens line)

theorem emergencyReader_readsLines (table : List PriorityRule) (canBeMet : CString → Bool) :
    ReadsLines (emergencyReader table canBeMet) where
  maxItems := rfl
  maxKept := rfl
  fits _ := rfl
  relevant := rfl

/-- The units a request asks for. -/
def requestedCount (token : CString) : ℤ :=
  match sscanf RESCUER_REQUEST_SYNTAX token with
  | [_, .int requiredCount, _] => requiredCount
  | _ => 0

/-- The units of the rescuer type of a line. -/
def scannedAmount (line : CString) : ℤ :=
  match sscanf RESCUERS_SYNTAX line with
  | [_, .int amount, _, _, _] => amount
  | _ => 0

/-- One of the rescuer types has the name and the units. -/
def isOffered (rescuerLines : List CString) (token : CString) : Bool :=
  rescuerLines.any fun line =>
    rescuerName line == requestedName token && decide (requestedCount token ≤ scannedAmount line)

/-- The file of the emergencies is accepted, given the file of the rescuers. -/
def EmergencyFileAccepted (table : List PriorityRule) (rescuerFile file : List Char) : Prop :=
  Accepted (emergencyReader table (isOffered (rescuerLines rescuerFile))) 0 [] (unreadLines file)

section emergencies

variable {table : List PriorityRule} {rescuers : List RescuerType} {tokens : List CString}
  {token line : CString} {requests : List RescuerRequest} {types : List EmergencyType}

/-- The requests of a line are extracted when all of them are well-formed, and the new ones
can be met and have room. -/
theorem extractRescuerRequests_extracted_iff
    (hlength : requests.length ≤ MAX_RESCUER_REQ_NUMBER_PER_EMERGENCY) :
    (∃ requests', extractRescuerRequests rescuers tokens requests = .extracted requests') ↔
      (∀ token ∈ tokens, requestIsMalformed token = false) ∧
      (∀ token ∈ firsts requestName requestedName (requests.map (·.type.rescuerTypeName)) tokens,
        (requestOf rescuers token).isSome = true) ∧
      requests.length + (firsts requestName requestedName
        (requests.map (·.type.rescuerTypeName)) tokens).length ≤
          MAX_RESCUER_REQ_NUMBER_PER_EMERGENCY := by
  induction tokens generalizing requests with
  | nil => simpa [extractRescuerRequests, firsts] using hlength
  | cons token tokens ih =>
      cases hformed : requestIsMalformed token with
      | true =>
          rw [extractRescuerRequests_malformed hlength hformed]
          refine iff_of_false ?_ fun h => ?_
          · rintro ⟨requests', hextracted⟩
            split at hextracted <;> cases hextracted
          · rw [h.1 token List.mem_cons_self] at hformed
            cases hformed
      | false =>
          rw [extractRescuerRequests_wellFormed hlength hformed, List.forall_mem_cons,
            and_iff_right hformed]
          by_cases hmem : requestName token ∈ requests.map (·.type.rescuerTypeName)
          · rw [if_pos hmem, firsts_cons_of_mem hmem]
            exact ih hlength
          · rw [if_neg hmem, firsts_cons_of_notMem hmem, List.forall_mem_cons, List.length_cons]
            by_cases hfull : requests.length = MAX_RESCUER_REQ_NUMBER_PER_EMERGENCY
            · rw [if_pos hfull]
              refine iff_of_false ?_ fun h => ?_
              · rintro ⟨requests', hextracted⟩
                cases hextracted
              · have hroom := h.2.2
                omega
            · rw [if_neg hfull]
              cases hrequest : requestOf rescuers token with
              | none => simp
              | some request =>
                  have hnext : (requests ++ [request]).length ≤
                      MAX_RESCUER_REQ_NUMBER_PER_EMERGENCY := by
                    rw [List.length_append, List.length_singleton]
                    omega
                  have hnames : (requests ++ [request]).map (·.type.rescuerTypeName) =
                      requests.map (·.type.rescuerTypeName) ++ [requestedName token] := by
                    rw [List.map_append, ← requestOf_name hrequest]
                    rfl
                  have hextracted := ih hnext
                  rw [hnames, List.length_append, List.length_singleton, Nat.add_assoc,
                    Nat.add_comm 1] at hextracted
                  simpa using hextracted

theorem exists_mem_iff_of_forall₂ {α β : Type*} {R : α → β → Prop} {p : α → Prop} {q : β → Prop}
    (hpq : ∀ a b, R a b → (p a ↔ q b)) {as : List α} {bs : List β} (h : List.Forall₂ R as bs) :
    (∃ a ∈ as, p a) ↔ ∃ b ∈ bs, q b := by
  induction h with
  | nil => simp
  | cons hab _ ih => simp [hpq _ _ hab, ih]

/-- A request can be met when one of the types has its name and the units. -/
theorem requestOf_isSome_iff (hnames : (rescuers.map (·.rescuerTypeName)).Nodup)
    (hformed : requestIsMalformed token = false) :
    (requestOf rescuers token).isSome = true ↔
      ∃ r ∈ rescuers, r.rescuerTypeName = requestedName token ∧
        requestedCount token ≤ r.amount := by
  obtain ⟨-, requiredCount, timeToManage, hscan, -⟩ := wellFormed_cases hformed
  have hcount : requestedCount token = requiredCount := by
    rw [requestedCount, hscan]
  rw [hcount]
  unfold requestOf
  simp only [hscan]
  cases hfind : getRescuerTypeByName (requestName token) rescuers with
  | none =>
      rw [getRescuerTypeByName_eq_none_iff] at hfind
      refine iff_of_false (by simp) ?_
      rintro ⟨r, hr, hname, -⟩
      refine hfind ?_
      rw [← requestedName, ← hname]
      exact List.mem_map_of_mem hr
  | some type =>
      have hmem : type ∈ rescuers := List.mem_of_find?_eq_some hfind
      have hname : type.rescuerTypeName = requestedName token := by
        have hsame := List.find?_some hfind
        exact beq_iff_eq.mp hsame
      -- no other type has the name
      have honly : ∀ r ∈ rescuers, r.rescuerTypeName = requestedName token → r = type :=
        fun r hr hr' => List.inj_on_of_nodup_map hnames hr hmem (hr'.trans hname.symm)
      constructor
      · intro hsome
        refine ⟨type, hmem, hname, ?_⟩
        by_contra hless
        simp [not_le.mp hless] at hsome
      · rintro ⟨r, hr, hr', hcount⟩
        obtain rfl := honly r hr hr'
        simp [not_lt.mpr hcount]

/-- The lines of the rescuers tell which requests can be met. -/
theorem requestOf_isSome_eq {lines : List CString}
    (hlines : List.Forall₂ RescuerOf lines rescuers)
    (hnames : (rescuers.map (·.rescuerTypeName)).Nodup)
    (hformed : requestIsMalformed token = false) :
    (requestOf rescuers token).isSome = isOffered lines token := by
  rw [Bool.eq_iff_iff, requestOf_isSome_iff hnames hformed, isOffered, List.any_eq_true]
  simp only [Bool.and_eq_true, beq_iff_eq, decide_eq_true_eq]
  refine (exists_mem_iff_of_forall₂ (fun line r hof => ?_) hlines).symm
  have hamount : scannedAmount line = r.amount := by
    rw [scannedAmount, hof.values]
  rw [hof.name, hamount]

/-- The requests of a line are extracted when they are good. -/
theorem requestsAreGood_iff (tokens : List CString) {canBeMet : CString → Bool}
    (hmet : ∀ token, requestIsMalformed token = false →
      (requestOf rescuers token).isSome = canBeMet token) :
    requestsAreGood canBeMet tokens = true ↔
      ∃ requests, extractRescuerRequests rescuers tokens [] = .extracted requests := by
  have hnone : ([] : List RescuerRequest).length ≤ MAX_RESCUER_REQ_NUMBER_PER_EMERGENCY :=
    Nat.zero_le _
  rw [extractRescuerRequests_extracted_iff hnone]
  simp only [requestsAreGood, Bool.and_eq_true, List.all_eq_true, decide_eq_true_eq,
    Bool.not_eq_true', and_assoc, List.map_nil, List.length_nil, Nat.zero_add]
  refine and_congr_right fun hformed => and_congr_left fun _ => ?_
  refine forall₂_congr fun token htoken => ?_
  rw [hmet token (hformed token (mem_of_mem_firsts htoken))]

theorem parseEmergenciesInBuffersLoop_types {unread : List CString} {ps : ParsingState} :
    (parseEmergenciesInBuffersLoop table rescuers unread ps types).types? =
      parseEmergenciesLoop table rescuers unread ps types := by
  induction unread generalizing ps types with
  | nil => rfl
  | cons line unread ih =>
      rw [parseEmergenciesInBuffersLoop, parseEmergenciesLoop]
      dsimp only
      split
      · split
        · exact ih
        · rfl
      · cases checkAndExtractEmergencyTypeFields table rescuers _ types with
        | rejected => rfl
        | overrun => rfl
        | duplicate => exact ih
        | accepted fields => exact ih

theorem parseEmergenciesInBuffers_types {file : List Char} :
    (parseEmergenciesInBuffers file rescuers table).types? =
      parseEmergencies file rescuers table :=
  parseEmergenciesInBuffersLoop_types

theorem checkAndExtractEmergency_bad (rescuers : List RescuerType) (types : List EmergencyType)
    (h : emergencyLineIsGood table line = false) :
    checkAndExtractEmergencyTypeFields table rescuers line types = .rejected ∨
      checkAndExtractEmergencyTypeFields table rescuers line types = .overrun := by
  unfold checkAndExtractEmergencyTypeFields
  cases hfits : nameOverruns MAX_EMERGENCY_NAME_LENGTH (sscanf EMERGENCY_TYPE_SYNTAX line) with
  | true => exact .inr rfl
  | false =>
      refine .inl ?_
      rw [if_neg Bool.false_ne_true]
      by_cases hscan : ∃ emergencyDesc priority requestsString,
          sscanf EMERGENCY_TYPE_SYNTAX line =
            [.str emergencyDesc, .int priority, .str requestsString]
      · obtain ⟨emergencyDesc, priority, requestsString, hscan⟩ := hscan
        rw [hscan, nameOverruns, decide_eq_false_iff_not, Nat.not_le] at hfits
        simp only [emergencyLineIsGood, hscan, decide_eq_true hfits, Bool.true_and,
          Bool.not_eq_false'] at h
        simp [hscan, h]
      · split
        · rename_i hitems
          exact absurd ⟨_, _, _, hitems⟩ hscan
        · rfl

theorem trimRight_emergencyName (line : CString) :
    trimRight (emergencyName line) = emergencyName line := by
  unfold emergencyName
  split
  · exact trimRight_trimRight _
  · rfl

/-- A good line is ignored if its name was parsed before; otherwise its requests decide. -/
theorem checkAndExtractEmergency_good (rescuers : List RescuerType) (types : List EmergencyType)
    (h : emergencyLineIsGood table line = true) :
    ∃ priority, checkAndExtractEmergencyTypeFields table rescuers line types =
      if emergencyName line ∈ types.map (·.emergencyDesc) then .duplicate
      else
        match extractRescuerRequests rescuers (requestTokens line) [] with
        | .rejected => .rejected
        | .overrun => .overrun
        | .extracted requests => .accepted ⟨priority, emergencyName line, requests⟩ := by
  unfold emergencyLineIsGood at h
  split at h
  · rename_i emergencyDesc priority requestsString hscan
    simp only [Bool.and_eq_true, decide_eq_true_eq, Bool.not_eq_true'] at h
    refine ⟨priority, ?_⟩
    have hname : emergencyName line = trimRight emergencyDesc := by
      rw [emergencyName, hscan]
    have htokens : requestTokens line = strtok RESCUER_REQUESTS_SEPARATOR requestsString := by
      rw [requestTokens, hscan]
    have hfits : nameOverruns MAX_EMERGENCY_NAME_LENGTH (sscanf EMERGENCY_TYPE_SYNTAX line) =
        false := by
      rw [hscan, nameOverruns]
      exact decide_eq_false (Nat.not_le.mpr h.1)
    have hfound : (getEmergencyTypeByName emergencyDesc types).isSome =
        decide (trimRight emergencyDesc ∈ types.map (·.emergencyDesc)) := by
      rw [Bool.eq_iff_iff, decide_eq_true_iff, ← not_iff_not, ← getEmergencyTypeByName_eq_none_iff]
      simp
    unfold checkAndExtractEmergencyTypeFields
    rw [hfits, htokens, hname]
    cases hrequests : extractRescuerRequests rescuers
        (strtok RESCUER_REQUESTS_SEPARATOR requestsString) [] <;>
      simp [hscan, h.2, hfound, hrequests]
  · cases h

theorem parseEmergenciesInBuffersLoop_cons {unread : List CString} {ps : ParsingState}
    (hcontinue : ps.shouldContinueParsing = true) :
    parseEmergenciesInBuffersLoop table rescuers (line :: unread) ps types =
      if lineIsWithin (goToNextLine ps line) MAX_RESCUER_CONF_LINES MAX_RESCUER_TYPES_COUNT
          MAX_RESCUER_CONF_LINE_LENGTH then
        if lineIsProcessable line then
          match checkAndExtractEmergencyTypeFields table rescuers line types with
          | .rejected => .null
          | .overrun => .overrun
          | .duplicate =>
              parseEmergenciesInBuffersLoop table rescuers unread (goToNextLine ps line) types
          | .accepted fields =>
              parseEmergenciesInBuffersLoop table rescuers unread
                { goToNextLine ps line with parsedSoFar := ps.parsedSoFar + 1 }
                (types ++ [mallocateAndPopulateEmergencyType fields])
        else parseEmergenciesInBuffersLoop table rescuers unread (goToNextLine ps line) types
      else .null := by
  obtain ⟨buffer, number, parsed, continues⟩ := ps
  obtain rfl : continues = true := hcontinue
  rw [parseEmergenciesInBuffersLoop, checkIfLineCanBeProcessed_eq]
  cases lineIsWithin (goToNextLine ⟨buffer, number, parsed, true⟩ line) MAX_RESCUER_CONF_LINES
      MAX_RESCUER_TYPES_COUNT MAX_RESCUER_CONF_LINE_LENGTH with
  | false => rfl
  | true =>
      cases hline : lineIsProcessable line with
      | false => simp [goToNextLine, hline]
      | true =>
          simp only [goToNextLine, hline, Bool.and_self, Bool.not_true, Bool.false_eq_true,
            if_true, if_false]

/-- The loop returns the types exactly when the reader comes to the end. -/
theorem parseEmergenciesInBuffersLoop_returned_iff {canBeMet : CString → Bool}
    (hmet : ∀ token, requestIsMalformed token = false →
      (requestOf rescuers token).isSome = canBeMet token)
    {unread : List CString} {ps : ParsingState} (hparsed : ps.parsedSoFar = types.length)
    (hcontinue : ps.shouldContinueParsing = true) :
    (∃ types', parseEmergenciesInBuffersLoop table rescuers unread ps types = .returned types') ↔
      (emergencyReader table canBeMet).accepts ps.lineNumber (types.map (·.emergencyDesc))
        unread = true := by
  induction unread generalizing ps types with
  | nil => exact iff_of_true ⟨_, rfl⟩ rfl
  | cons line unread ih =>
      have hnames : ps.parsedSoFar = (types.map (·.emergencyDesc)).length := by
        rw [hparsed, List.length_map]
      have hgood : (emergencyReader table canBeMet).good line =
          emergencyLineIsGood table line := rfl
      have hkey : (emergencyReader table canBeMet).key line = emergencyName line := rfl
      have hnew : (emergencyReader table canBeMet).goodNew line =
          requestsAreGood canBeMet (requestTokens line) := rfl
      rw [parseEmergenciesInBuffersLoop_cons hcontinue,
        (emergencyReader_readsLines table canBeMet).accepts_cons hnames, hgood, hkey, hnew]
      cases lineIsWithin (goToNextLine ps line) MAX_RESCUER_CONF_LINES
          MAX_RESCUER_TYPES_COUNT MAX_RESCUER_CONF_LINE_LENGTH with
      | false => simp
      | true =>
          simp only [if_true, Bool.true_and]
          cases lineIsProcessable line with
          | false => exact ih hparsed hcontinue
          | true =>
              simp only [if_true]
              cases hline : emergencyLineIsGood table line with
              | false =>
                  rcases checkAndExtractEmergency_bad rescuers types hline with hextract | hextract
                  · simp [hextract]
                  · simp [hextract]
              | true =>
                  obtain ⟨priority, hextract⟩ := checkAndExtractEmergency_good rescuers types hline
                  rw [hextract]
                  by_cases hmem : emergencyName line ∈ types.map (·.emergencyDesc)
                  · rw [if_pos hmem, if_pos hmem]
                    exact ih hparsed hcontinue
                  · rw [if_neg hmem, if_neg hmem]
                    have hrequests := requestsAreGood_iff (requestTokens line) hmet
                    cases hextracted : extractRescuerRequests rescuers (requestTokens line) [] with
                    | rejected => simp [hrequests, hextracted]
                    | overrun => simp [hrequests, hextracted]
                    | extracted requests =>
                        have hnames : (types ++ [mallocateAndPopulateEmergencyType
                            ⟨priority, emergencyName line, requests⟩]).map (·.emergencyDesc) =
                              types.map (·.emergencyDesc) ++ [emergencyName line] := by
                          rw [List.map_append]
                          exact congrArg (_ ++ [·]) (trimRight_emergencyName line)
                        have htrue := hrequests.mpr ⟨requests, hextracted⟩
                        rw [htrue, Bool.true_and, ← hnames]
                        exact ih (by simp [hparsed]) hcontinue

/-- The file is accepted exactly when `parse_emergencies` returns the types, called with the
rescuers of the other file. -/
theorem parseEmergenciesInBuffers_returned_iff {rescuerFile file : List Char}
    (hlines : List.Forall₂ RescuerOf (rescuerLines rescuerFile) rescuers)
    (hnames : (rescuers.map (·.rescuerTypeName)).Nodup) :
    (∃ types, parseEmergenciesInBuffers file rescuers table = .returned types) ↔
      EmergencyFileAccepted table rescuerFile file := by
  have hmet : ∀ token, requestIsMalformed token = false →
      (requestOf rescuers token).isSome = isOffered (rescuerLines rescuerFile) token :=
    fun token hformed => requestOf_isSome_eq hlines hnames hformed
  rw [EmergencyFileAccepted, ← accepts_iff]
  have hnone : (mallocateParsingState []).parsedSoFar = ([] : List EmergencyType).length := rfl
  exact parseEmergenciesInBuffersLoop_returned_iff hmet hnone rfl

end emergencies

end EmergencyDispatch
