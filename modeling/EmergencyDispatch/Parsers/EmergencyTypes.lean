import EmergencyDispatch.Parsers.Rescuers
import EmergencyDispatch.Priorities

/-!
# The emergency types (`parse_emergencies.c`)

Each line that can be processed is an emergency type, unless it repeats the name
of an earlier one.  A name that fills its buffer has no room for its terminator,
and the array of the requests has no room for the `NULL` that ends the lookups
once it is full: where the code writes or reads past the end of one of them the
line is an overrun, and what the parser returns is not defined.
-/

namespace EmergencyDispatch

open Scanf

def MAX_RESCUER_REQUESTS_LENGTH : ℕ := 1024

def MAX_RESCUER_REQ_NUMBER_PER_EMERGENCY : ℕ := 16

def MIN_RESCUER_REQUIRED_COUNT : ℤ := 1

def MAX_RESCUER_REQUIRED_COUNT : ℤ := 32

def MIN_TIME_TO_MANAGE : ℤ := 1

def MAX_TIME_TO_MANAGE : ℤ := 1000

def RESCUER_REQUESTS_SEPARATOR : Char := ';'

/-- `EMERGENCY_TYPE_SYNTAX`: `"[%64[^]]] [%hd] %1024[^\n]"`. -/
def EMERGENCY_TYPE_SYNTAX : List Directive :=
  [.char '[', .set MAX_EMERGENCY_NAME_LENGTH (fun c => c != ']'), .char ']', .space, .char '[',
    .short, .char ']', .space, .set MAX_RESCUER_REQUESTS_LENGTH (fun c => c != '\n')]

/-- `RESCUER_REQUEST_SYNTAX`: `"%128[^:]:%d,%d"`. -/
def RESCUER_REQUEST_SYNTAX : List Directive :=
  [.set MAX_RESCUER_NAME_LENGTH (fun c => c != ':'), .char ':', .int, .char ',', .int]

/-- The name that was stored first fills its buffer. -/
def nameOverruns (bufferLength : ℕ) : List Item → Bool
  | .str name :: _ => bufferLength ≤ name.length
  | _ => false

/-- The tokens that `strtok` returns: the pieces that are not empty. -/
def strtok (separator : Char) (s : CString) : List CString :=
  (s.splitOn separator).filter fun token => !token.isEmpty

/-! ## The requests of an emergency type -/

/-- What the requests of a line are for the parser. -/
inductive RequestsOutcome
  /-- A syntax error or an illegal value: the file is rejected. -/
  | rejected
  | overrun
  | extracted (requests : List RescuerRequest)

/-- `rescuer_request_values_are_illegal`. -/
def rescuerRequestValuesAreIllegal (name : CString) (requiredCount timeToManage : ℤ) : Bool :=
  name.length == 0 ||
  requiredCount < MIN_RESCUER_REQUIRED_COUNT ||
  requiredCount > MAX_RESCUER_REQUIRED_COUNT ||
  timeToManage < MIN_TIME_TO_MANAGE ||
  timeToManage > MAX_TIME_TO_MANAGE

/-- The loop of `check_and_extract_rescuer_requests_from_string` over the tokens that
are left.  The lookup of an earlier request takes the name as it was scanned, the
lookup of the rescuer type trims it. -/
def extractRescuerRequests (rescuers : List RescuerType) :
    List CString → List RescuerRequest → RequestsOutcome
  | [], requests => .extracted requests
  | token :: tokens, requests =>
      if MAX_RESCUER_REQ_NUMBER_PER_EMERGENCY < requests.length then .rejected
      else if nameOverruns MAX_RESCUER_NAME_LENGTH (sscanf RESCUER_REQUEST_SYNTAX token) then
        .overrun
      else
        match sscanf RESCUER_REQUEST_SYNTAX token with
        | [.str name, .int requiredCount, .int timeToManage] =>
            if rescuerRequestValuesAreIllegal name requiredCount timeToManage then .rejected
            else if (getRescuerRequestByName name requests).isSome then
              extractRescuerRequests rescuers tokens requests
            else if requests.length = MAX_RESCUER_REQ_NUMBER_PER_EMERGENCY then .overrun
            else
              match getRescuerTypeByName name rescuers with
              | none => .rejected
              | some type =>
                  if type.amount < requiredCount then .rejected
                  else extractRescuerRequests rescuers tokens
                    (requests ++ [⟨type, requiredCount.toNat, timeToManage⟩])
        | _ => .rejected

/-! ## Lines and files -/

/-- `emergency_type_fields_t`, without the string of the requests. -/
structure EmergencyTypeFields where
  priority : ℤ
  emergencyDesc : CString
  rescuers : List RescuerRequest

/-- `emergency_values_are_illegal`. -/
def emergencyValuesAreIllegal (table : List PriorityRule) (emergencyDesc : CString)
    (priority : ℤ) : Bool :=
  emergencyDesc.length == 0 || !(table.any fun rule => priority == rule.number)

/-- What a line that can be processed is for the parser. -/
inductive EmergencyLine
  /-- A syntax error or an illegal value: the file is rejected. -/
  | rejected
  | overrun
  /-- The name was parsed before: the line is ignored. -/
  | duplicate
  | accepted (fields : EmergencyTypeFields)

/-- `check_and_extract_emergency_type_fields_from_line`.  The lookup trims the scanned
name in place. -/
def checkAndExtractEmergencyTypeFields (table : List PriorityRule) (rescuers : List RescuerType)
    (line : CString) (types : List EmergencyType) : EmergencyLine :=
  if nameOverruns MAX_EMERGENCY_NAME_LENGTH (sscanf EMERGENCY_TYPE_SYNTAX line) then .overrun
  else
    match sscanf EMERGENCY_TYPE_SYNTAX line with
    | [.str emergencyDesc, .int priority, .str requestsString] =>
        if emergencyValuesAreIllegal table emergencyDesc priority then .rejected
        else if (getEmergencyTypeByName emergencyDesc types).isSome then .duplicate
        else
          match extractRescuerRequests rescuers
              (strtok RESCUER_REQUESTS_SEPARATOR requestsString) [] with
          | .rejected => .rejected
          | .overrun => .overrun
          | .extracted requests => .accepted ⟨priority, trimRight emergencyDesc, requests⟩
    | _ => .rejected

/-- `mallocate_and_populate_emergency_type`. -/
def mallocateAndPopulateEmergencyType (fields : EmergencyTypeFields) : EmergencyType where
  priority := fields.priority
  emergencyDesc := trimRight fields.emergencyDesc
  rescuers := fields.rescuers

/-- The loop of `parse_emergencies` over the lines that are still unread.  Its bounds
are those of the file of the rescuers. -/
def parseEmergenciesLoop (table : List PriorityRule) (rescuers : List RescuerType) :
    List CString → ParsingState → List EmergencyType → Option (List EmergencyType)
  | [], _, types => some types
  | line :: unread, ps, types =>
      let (ps, processable) := checkIfLineCanBeProcessed (goToNextLine ps line)
        MAX_RESCUER_CONF_LINES MAX_RESCUER_TYPES_COUNT MAX_RESCUER_CONF_LINE_LENGTH
      if !processable then
        if ps.shouldContinueParsing then parseEmergenciesLoop table rescuers unread ps types
        else none
      else
        match checkAndExtractEmergencyTypeFields table rescuers ps.line types with
        | .rejected | .overrun => none
        | .duplicate => parseEmergenciesLoop table rescuers unread ps types
        | .accepted fields =>
            parseEmergenciesLoop table rescuers unread
              { ps with parsedSoFar := ps.parsedSoFar + 1 }
              (types ++ [mallocateAndPopulateEmergencyType fields])

/-- `parse_emergencies` on the content of the file; `none` when it rejects the file, and
when what it returns is not defined. -/
def parseEmergencies (file : List Char) (rescuers : List RescuerType)
    (table : List PriorityRule) : Option (List EmergencyType) :=
  parseEmergenciesLoop table rescuers (unreadLines file) (mallocateParsingState []) []

/-! ## What the parser guarantees -/

section guarantees

variable {table : List PriorityRule} {rescuers : List RescuerType} {types : List EmergencyType}
  {fields : EmergencyTypeFields}

/-- The types parsed so far: their names are trimmed and different, their priorities
are in the table and their requests name rescuer types that exist. -/
structure LegalEmergencies (table : List PriorityRule) (rescuers : List RescuerType)
    (types : List EmergencyType) : Prop where
  trimmed : ∀ type ∈ types, trimRight type.emergencyDesc = type.emergencyDesc
  names : (types.map (·.emergencyDesc)).Nodup
  priorities : ∀ type ∈ types, Listed table type.priority
  requests : ∀ type ∈ types, ∀ request ∈ type.rescuers, request.type ∈ rescuers

theorem getEmergencyTypeByName_eq_none_iff {name : CString} :
    getEmergencyTypeByName name types = none ↔
      trimRight name ∉ types.map (·.emergencyDesc) := by
  simp [getEmergencyTypeByName, List.find?_eq_none]

theorem extractRescuerRequests_mem {tokens : List CString}
    {requests requests' : List RescuerRequest}
    (h : ∀ request ∈ requests, request.type ∈ rescuers)
    (hextract : extractRescuerRequests rescuers tokens requests = .extracted requests') :
    ∀ request ∈ requests', request.type ∈ rescuers := by
  induction tokens generalizing requests with
  | nil =>
      obtain rfl := RequestsOutcome.extracted.inj hextract
      exact h
  | cons token tokens ih =>
      unfold extractRescuerRequests at hextract
      split at hextract
      · cases hextract
      · split at hextract
        · cases hextract
        · split at hextract
          · split at hextract
            · cases hextract
            · split at hextract
              · exact ih h hextract
              · split at hextract
                · cases hextract
                · split at hextract
                  · cases hextract
                  · rename_i type htype
                    split at hextract
                    · cases hextract
                    · refine ih (fun request hrequest => ?_) hextract
                      rcases List.mem_append.mp hrequest with hold | hnew
                      · exact h request hold
                      · rw [List.mem_singleton.mp hnew]
                        exact List.mem_of_find?_eq_some htype
          · cases hextract

/-- An accepted line scans, with legal values, a new name and requests that are extracted. -/
theorem checkAndExtractEmergency_scanned {line : CString}
    (h : checkAndExtractEmergencyTypeFields table rescuers line types = .accepted fields) :
    ∃ emergencyDesc priority requestsString requests,
      sscanf EMERGENCY_TYPE_SYNTAX line =
        [.str emergencyDesc, .int priority, .str requestsString] ∧
      emergencyValuesAreIllegal table emergencyDesc priority = false ∧
      getEmergencyTypeByName emergencyDesc types = none ∧
      extractRescuerRequests rescuers (strtok RESCUER_REQUESTS_SEPARATOR requestsString) [] =
        .extracted requests ∧
      fields = ⟨priority, trimRight emergencyDesc, requests⟩ := by
  unfold checkAndExtractEmergencyTypeFields at h
  split at h
  · cases h
  split at h
  · rename_i emergencyDesc priority requestsString hscan
    split at h
    · cases h
    rename_i hlegal
    split at h
    · cases h
    rename_i hnew
    split at h
    · cases h
    · cases h
    rename_i requests hextract
    exact ⟨emergencyDesc, priority, requestsString, requests, hscan,
      Bool.eq_false_iff.mpr hlegal, by simpa using hnew, hextract,
      (EmergencyLine.accepted.inj h).symm⟩
  · cases h

/-- An accepted line has a new name, a priority of the table and requests that can be met. -/
theorem checkAndExtractEmergency_accepted {line : CString}
    (h : checkAndExtractEmergencyTypeFields table rescuers line types = .accepted fields) :
    trimRight fields.emergencyDesc ∉ types.map (·.emergencyDesc) ∧
      Listed table fields.priority ∧ ∀ request ∈ fields.rescuers, request.type ∈ rescuers := by
  obtain ⟨emergencyDesc, priority, requestsString, requests, -, hlegal, hnew, hextract, rfl⟩ :=
    checkAndExtractEmergency_scanned h
  refine ⟨?_, ?_, extractRescuerRequests_mem (by simp) hextract⟩
  · rw [trimRight_trimRight, ← getEmergencyTypeByName_eq_none_iff]
    exact hnew
  · simp only [emergencyValuesAreIllegal, Bool.or_eq_false_iff, Bool.not_eq_false'] at hlegal
    obtain ⟨rule, hrule, hnumber⟩ := List.any_eq_true.mp hlegal.2
    exact List.mem_map.mpr ⟨rule, hrule, (beq_iff_eq.mp hnumber).symm⟩

theorem LegalEmergencies.append (h : LegalEmergencies table rescuers types) {line : CString}
    (haccepted : checkAndExtractEmergencyTypeFields table rescuers line types =
      .accepted fields) :
    LegalEmergencies table rescuers (types ++ [mallocateAndPopulateEmergencyType fields]) := by
  obtain ⟨hname, hpriority, hrequests⟩ := checkAndExtractEmergency_accepted haccepted
  have hmem : ∀ {p : EmergencyType → Prop}, (∀ type ∈ types, p type) →
      p (mallocateAndPopulateEmergencyType fields) →
      ∀ type ∈ types ++ [mallocateAndPopulateEmergencyType fields], p type := by
    intro p htypes hnew type htype
    rcases List.mem_append.mp htype with htype | htype
    · exact htypes type htype
    · rwa [List.mem_singleton.mp htype]
  refine ⟨hmem h.trimmed (trimRight_trimRight _), ?_, hmem h.priorities hpriority,
    hmem h.requests hrequests⟩
  rw [List.map_append, List.nodup_append]
  refine ⟨h.names, List.nodup_singleton _, fun name hold name' hnew => ?_⟩
  rintro rfl
  obtain rfl : name = trimRight fields.emergencyDesc := by
    simpa [mallocateAndPopulateEmergencyType] using hnew
  exact hname hold

theorem parseEmergenciesLoop_legal {unread : List CString} {ps : ParsingState}
    {types' : List EmergencyType} (h : LegalEmergencies table rescuers types)
    (hparse : parseEmergenciesLoop table rescuers unread ps types = some types') :
    LegalEmergencies table rescuers types' := by
  induction unread generalizing ps types with
  | nil =>
      obtain rfl := Option.some.inj hparse
      exact h
  | cons line unread ih =>
      unfold parseEmergenciesLoop at hparse
      dsimp only at hparse
      split at hparse
      · split at hparse
        · exact ih h hparse
        · cases hparse
      · split at hparse
        · cases hparse
        · cases hparse
        · exact ih h hparse
        · rename_i fields haccepted
          exact ih (h.append haccepted) hparse

/-- **The parser's guarantee.** -/
theorem parseEmergencies_legal {file : List Char}
    (h : parseEmergencies file rescuers table = some types) :
    LegalEmergencies table rescuers types :=
  parseEmergenciesLoop_legal ⟨by simp, by simp, by simp, by simp⟩ h

end guarantees

end EmergencyDispatch
