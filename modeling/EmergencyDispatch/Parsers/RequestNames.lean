import EmergencyDispatch.Library.FirstOccurrences
import EmergencyDispatch.Parsers.EmergencyTypes
import Mathlib.Data.List.Forall2

/-!
# What the requests of an emergency type ask for

The parser looks an earlier request up under the name as it was scanned and the
rescuer type under the trimmed name, and the request keeps the type.  In the
terms of `FirstOccurrences` the name that is looked up is `requestName` and the
name that is kept is `requestedName`: a repeated name with blanks behind it is
not found, and the type is asked for twice.  `requestsWithinMeans_iff` is what
follows for one line, `parseEmergencies_lines` tells which lines of the file the
types are.
-/

namespace EmergencyDispatch

open Scanf FirstOccurrences

/-! ## One request -/

/-- The name of a request as it is scanned. -/
def requestName (token : CString) : CString :=
  match sscanf RESCUER_REQUEST_SYNTAX token with
  | .str name :: _ => name
  | _ => []

/-- The name of the rescuer type it asks for. -/
def requestedName (token : CString) : CString := trimRight (requestName token)

/-- `request` is what the parser makes of `token`. -/
structure AnswersRequest (rescuers : List RescuerType) (token : CString)
    (request : RescuerRequest) : Prop where
  scanned : sscanf RESCUER_REQUEST_SYNTAX token =
    [.str (requestName token), .int request.requiredCount, .int request.timeToManage]
  legal : rescuerRequestValuesAreIllegal (requestName token) request.requiredCount
    request.timeToManage = false
  found : getRescuerTypeByName (requestName token) rescuers = some request.type
  available : request.requiredCount ≤ request.type.amount

variable {rescuers : List RescuerType} {token : CString} {tokens : List CString}
  {request : RescuerRequest} {requests requests' : List RescuerRequest}

theorem requiredCount_of_legal {name : CString} {requiredCount timeToManage : ℤ}
    (h : rescuerRequestValuesAreIllegal name requiredCount timeToManage = false) :
    MIN_RESCUER_REQUIRED_COUNT ≤ requiredCount ∧
      requiredCount ≤ MAX_RESCUER_REQUIRED_COUNT := by
  simp only [rescuerRequestValuesAreIllegal, Bool.or_eq_false_iff, decide_eq_false_iff_not,
    not_lt, gt_iff_lt] at h
  exact ⟨h.1.1.1.2, h.1.1.2⟩

namespace AnswersRequest

theorem name (h : AnswersRequest rescuers token request) :
    request.type.rescuerTypeName = requestedName token := by
  have hsame := List.find?_some h.found
  exact beq_iff_eq.mp hsame

theorem mem (h : AnswersRequest rescuers token request) : request.type ∈ rescuers :=
  List.mem_of_find?_eq_some h.found

theorem count (h : AnswersRequest rescuers token request) :
    MIN_RESCUER_REQUIRED_COUNT ≤ request.requiredCount ∧
      request.requiredCount ≤ MAX_RESCUER_REQUIRED_COUNT :=
  requiredCount_of_legal h.legal

end AnswersRequest

theorem getRescuerRequestByName_isSome_iff {name : CString} :
    (getRescuerRequestByName name requests).isSome = true ↔
      name ∈ requests.map (·.type.rescuerTypeName) := by
  simp [getRescuerRequestByName, List.find?_isSome]

/-- The requests that a run of the loop adds are those of the tokens whose name it does not
find among the earlier ones, in their order. -/
theorem extractRescuerRequests_extracted
    (h : extractRescuerRequests rescuers tokens requests = .extracted requests') :
    ∃ added, requests' = requests ++ added ∧
      List.Forall₂ (AnswersRequest rescuers)
        (firsts requestName requestedName (requests.map (·.type.rescuerTypeName)) tokens)
        added := by
  induction tokens generalizing requests with
  | nil =>
      obtain rfl := RequestsOutcome.extracted.inj h
      exact ⟨[], (List.append_nil _).symm, .nil⟩
  | cons token tokens ih =>
      unfold extractRescuerRequests at h
      split at h
      · cases h
      split at h
      · cases h
      split at h
      · rename_i name requiredCount timeToManage hscan
        have hname : requestName token = name := by
          rw [requestName, hscan]
        split at h
        · cases h
        rename_i hlegal
        split at h
        -- a repeated request is ignored, wherever it comes
        · rename_i hrepeated
          rw [firsts_cons_of_mem (hname ▸ getRescuerRequestByName_isSome_iff.mp hrepeated)]
          exact ih h
        rename_i hnew
        split at h
        · cases h
        split at h
        · cases h
        rename_i type htype
        split at h
        · cases h
        rename_i havailable
        obtain ⟨added, rfl, hadded⟩ := ih h
        have hlegal := Bool.eq_false_iff.mpr hlegal
        have hcount : (requiredCount.toNat : ℤ) = requiredCount :=
          Int.toNat_of_nonneg (le_trans (by decide) (requiredCount_of_legal hlegal).1)
        -- everything the loop has tested says that the new entry answers the token
        have hanswers : AnswersRequest rescuers token
            ⟨type, requiredCount.toNat, timeToManage⟩ :=
          { scanned := by rw [hscan, hname, hcount]
            legal := by
              rw [hname, hcount]
              exact hlegal
            found := hname ▸ htype
            available := Int.toNat_le.mpr (Int.not_lt.mp havailable) }
        refine ⟨⟨type, requiredCount.toNat, timeToManage⟩ :: added, List.append_cons .. ▸ rfl, ?_⟩
        rw [firsts_cons_of_notMem
          (hname ▸ fun hmem => hnew (getRescuerRequestByName_isSome_iff.mpr hmem))]
        refine .cons hanswers ?_
        rw [← hanswers.name]
        simpa using hadded
      · cases h

/-! ## The requests of a line -/

/-- The units of a rescuer type that the requests need. -/
def unitsNeeded (rescuer : RescuerType) (requests : List RescuerRequest) : ℕ :=
  ((requests.filter fun request => request.type = rescuer).map (·.requiredCount)).sum

/-- The requests made of the tokens are for different types that exist, within their amounts,
and a repeated request is ignored however its name is padded. -/
structure RequestsWithinMeans (rescuers : List RescuerType) (tokens : List CString)
    (requests : List RescuerRequest) : Prop where
  distinct : (requests.map (·.type.rescuerTypeName)).Nodup
  existing : ∀ request ∈ requests, request.type ∈ rescuers
  counts : ∀ request ∈ requests, MIN_RESCUER_REQUIRED_COUNT ≤ request.requiredCount ∧
    request.requiredCount ≤ MAX_RESCUER_REQUIRED_COUNT ∧
    request.requiredCount ≤ request.type.amount
  units : ∀ rescuer ∈ rescuers, unitsNeeded rescuer requests ≤ rescuer.amount
  repeats : List.Forall₂ (AnswersRequest rescuers)
    (firsts requestedName requestedName [] tokens) requests

/-- A name that repeats that of an earlier token has no blanks behind it. -/
def NoPaddedRepeat (tokens : List CString) : Prop :=
  tokens.Pairwise fun earlier later =>
    requestedName earlier = requestedName later → requestName later = requestedName later

instance : Decidable (NoPaddedRepeat tokens) :=
  inferInstanceAs (Decidable (List.Pairwise _ tokens))

theorem unitsNeeded_cons (rescuer : RescuerType) (request : RescuerRequest)
    (requests : List RescuerRequest) :
    unitsNeeded rescuer (request :: requests) =
      (if request.type = rescuer then request.requiredCount else 0) +
        unitsNeeded rescuer requests := by
  unfold unitsNeeded
  by_cases h : request.type = rescuer
  · simp [h]
  · simp [h]

theorem unitsNeeded_eq_zero {rescuer : RescuerType}
    (h : rescuer.rescuerTypeName ∉ requests.map (·.type.rescuerTypeName)) :
    unitsNeeded rescuer requests = 0 := by
  have hnone : (requests.filter fun request => request.type = rescuer) = [] := by
    rw [List.filter_eq_nil_iff]
    intro request hrequest hsame
    refine h (List.mem_map.mpr ⟨request, hrequest, ?_⟩)
    rw [of_decide_eq_true hsame]
  rw [unitsNeeded, hnone]
  rfl

/-- Requests for different types that can each be met can be met together. -/
theorem unitsNeeded_le (hdistinct : (requests.map (·.type.rescuerTypeName)).Nodup)
    (havailable : ∀ request ∈ requests, request.requiredCount ≤ request.type.amount)
    (rescuer : RescuerType) : unitsNeeded rescuer requests ≤ rescuer.amount := by
  induction requests with
  | nil => exact Nat.zero_le _
  | cons request requests ih =>
      obtain ⟨hnew, hdistinct⟩ := List.nodup_cons.mp hdistinct
      rw [unitsNeeded_cons]
      split
      · rename_i hsame
        subst hsame
        rw [unitsNeeded_eq_zero hnew, Nat.add_zero]
        exact havailable request List.mem_cons_self
      · rw [Nat.zero_add]
        exact ih hdistinct fun request hrequest =>
          havailable request (List.mem_cons_of_mem _ hrequest)

theorem requestedName_of_requestName {a b : CString} (h : requestName b = requestedName a) :
    requestedName b = requestedName a := by
  rw [requestedName, h]
  exact trimRight_trimRight _

theorem names_of_answers {kept : List CString}
    (h : List.Forall₂ (AnswersRequest rescuers) kept requests) :
    requests.map (·.type.rescuerTypeName) = kept.map requestedName := by
  induction h with
  | nil => rfl
  | cons hanswers _ ih => rw [List.map_cons, List.map_cons, hanswers.name, ih]

theorem exists_answers {kept : List CString}
    (h : List.Forall₂ (AnswersRequest rescuers) kept requests) :
    ∀ request ∈ requests, ∃ token ∈ kept, AnswersRequest rescuers token request := by
  induction h with
  | nil => simp
  | @cons token request kept requests hanswers _ ih =>
      intro request' hrequest
      rcases List.mem_cons.mp hrequest with rfl | hrequest
      · exact ⟨token, List.mem_cons_self, hanswers⟩
      · obtain ⟨token', htoken, hanswers'⟩ := ih request' hrequest
        exact ⟨token', List.mem_cons_of_mem token htoken, hanswers'⟩

/-- **One line**: what it extracts stays within the means exactly when no repeated name is
padded. -/
theorem requestsWithinMeans_iff
    (h : extractRescuerRequests rescuers tokens [] = .extracted requests) :
    RequestsWithinMeans rescuers tokens requests ↔ NoPaddedRepeat tokens := by
  obtain ⟨added, rfl, hadded⟩ := extractRescuerRequests_extracted h
  have hfinds : ∀ k ∈ ([] : List CString), ∀ a ∈ tokens, requestName a = k →
      requestedName a = k := by simp
  have hitems : ∀ a ∈ tokens, ∀ b ∈ tokens, requestName b = requestedName a →
      requestedName b = requestedName a := fun _ _ _ _ => requestedName_of_requestName
  have hiff := nodup_iff hfinds hitems
  rw [List.map_nil] at hadded
  have hrepeats : RepeatsProbed requestName requestedName [] tokens ↔ NoPaddedRepeat tokens := by
    simp [RepeatsProbed, NoPaddedRepeat]
  rw [← hrepeats]
  constructor
  · intro hmeans
    refine hiff.mp ⟨?_, by simp⟩
    rw [← names_of_answers hadded]
    exact hmeans.distinct
  · intro hprobed
    have hdistinct : (requests.map (·.type.rescuerTypeName)).Nodup := by
      rw [names_of_answers hadded]
      exact (hiff.mpr hprobed).1
    refine ⟨hdistinct, fun request hrequest => ?_, fun request hrequest => ?_,
      fun rescuer _ => unitsNeeded_le hdistinct (fun request hrequest => ?_) rescuer, ?_⟩
    · obtain ⟨token, -, hanswers⟩ := exists_answers hadded request hrequest
      exact hanswers.mem
    · obtain ⟨token, -, hanswers⟩ := exists_answers hadded request hrequest
      exact ⟨hanswers.count.1, hanswers.count.2, hanswers.available⟩
    · obtain ⟨token, -, hanswers⟩ := exists_answers hadded request hrequest
      exact hanswers.available
    · rw [← firsts_eq_of_repeatsProbed hfinds hitems hprobed]
      exact hadded

/-! ## The lines of the file -/

/-- The trimmed name of the emergency type of a line. -/
def emergencyName (line : CString) : CString :=
  match sscanf EMERGENCY_TYPE_SYNTAX line with
  | .str emergencyDesc :: _ => trimRight emergencyDesc
  | _ => []

/-- The requests of a line, each as it is written. -/
def requestTokens (line : CString) : List CString :=
  match sscanf EMERGENCY_TYPE_SYNTAX line with
  | [_, _, .str requestsString] => strtok RESCUER_REQUESTS_SEPARATOR requestsString
  | _ => []

/-- The lines of the file that are emergency types: those that can be processed and do not
repeat the name of an earlier one. -/
def emergencyLines (file : List Char) : List CString :=
  firsts emergencyName emergencyName [] (processableLines (unreadLines file))

/-- `type` has the name and the requests of the line. -/
structure EmergencyOf (rescuers : List RescuerType) (line : CString) (type : EmergencyType) :
    Prop where
  name : type.emergencyDesc = emergencyName line
  requests : extractRescuerRequests rescuers (requestTokens line) [] = .extracted type.rescuers

variable {table : List PriorityRule} {line : CString} {types types' : List EmergencyType}
  {fields : EmergencyTypeFields}

theorem emergencyOf_of_accepted
    (h : checkAndExtractEmergencyTypeFields table rescuers line types = .accepted fields) :
    EmergencyOf rescuers line (mallocateAndPopulateEmergencyType fields) ∧
      emergencyName line ∉ types.map (·.emergencyDesc) := by
  obtain ⟨emergencyDesc, priority, requestsString, requests, hscan, -, hnew, hextract, rfl⟩ :=
    checkAndExtractEmergency_scanned h
  have hname : emergencyName line = trimRight emergencyDesc := by
    rw [emergencyName, hscan]
  refine ⟨⟨?_, ?_⟩, ?_⟩
  · rw [hname]
    exact trimRight_trimRight _
  · rw [requestTokens, hscan]
    exact hextract
  · rw [hname, ← getEmergencyTypeByName_eq_none_iff]
    exact hnew

theorem emergencyName_mem_of_duplicate
    (h : checkAndExtractEmergencyTypeFields table rescuers line types = .duplicate) :
    emergencyName line ∈ types.map (·.emergencyDesc) := by
  unfold checkAndExtractEmergencyTypeFields at h
  split at h
  · cases h
  split at h
  · rename_i emergencyDesc priority requestsString hscan
    split at h
    · cases h
    split at h
    · rename_i hfound
      have hname : emergencyName line = trimRight emergencyDesc := by
        rw [emergencyName, hscan]
      by_contra hnew
      rw [hname, ← getEmergencyTypeByName_eq_none_iff] at hnew
      simp [hnew] at hfound
    · split at h
      all_goals cases h
  · cases h

/-- The loop makes a type of each line that can be processed and has a new name. -/
theorem parseEmergenciesLoop_lines {unread : List CString} {ps : ParsingState}
    (hparse : parseEmergenciesLoop table rescuers unread ps types = some types') :
    ∃ added, types' = types ++ added ∧
      List.Forall₂ (EmergencyOf rescuers)
        (firsts emergencyName emergencyName (types.map (·.emergencyDesc))
          (processableLines unread)) added := by
  induction unread generalizing ps types with
  | nil =>
      obtain rfl := Option.some.inj hparse
      exact ⟨[], (List.append_nil _).symm, .nil⟩
  | cons line unread ih =>
      unfold parseEmergenciesLoop at hparse
      rcases checkIfLineCanBeProcessed_cases (goToNextLine ps line) MAX_RESCUER_CONF_LINES
          MAX_RESCUER_TYPES_COUNT MAX_RESCUER_CONF_LINE_LENGTH with ⟨-, -, hcheck⟩ | hcheck
      · have hline : (goToNextLine ps line).line = line := rfl
        simp only [hcheck, hline, Bool.not_eq_true'] at hparse
        split at hparse
        · rename_i hskipped
          split at hparse
          · rw [processableLines, List.filter_cons_of_neg (by simp [hskipped])]
            exact ih hparse
          · cases hparse
        · rename_i hprocessable
          rw [processableLines, List.filter_cons_of_pos (by simpa using hprocessable)]
          split at hparse
          · cases hparse
          · cases hparse
          · rename_i hduplicate
            rw [firsts_cons_of_mem (emergencyName_mem_of_duplicate hduplicate)]
            exact ih hparse
          · rename_i fields haccepted
            obtain ⟨hof, hnew⟩ := emergencyOf_of_accepted haccepted
            obtain ⟨added, rfl, hadded⟩ := ih hparse
            refine ⟨mallocateAndPopulateEmergencyType fields :: added, by simp, ?_⟩
            rw [firsts_cons_of_notMem hnew]
            refine .cons hof ?_
            rw [← hof.name]
            simpa [processableLines] using hadded
      · simp [hcheck] at hparse

/-- **The file**: the types are those of its emergency lines, in their order. -/
theorem parseEmergencies_lines {file : List Char}
    (h : parseEmergencies file rescuers table = some types) :
    List.Forall₂ (EmergencyOf rescuers) (emergencyLines file) types := by
  obtain ⟨added, rfl, hadded⟩ := parseEmergenciesLoop_lines h
  exact hadded

/-- **The requests of the file**: those of every type stay within the means exactly when no
line asks again, with blanks behind the name, for a type it has asked for. -/
theorem parseEmergencies_withinMeans_iff {file : List Char}
    (h : parseEmergencies file rescuers table = some types) :
    List.Forall₂ (fun line type =>
        RequestsWithinMeans rescuers (requestTokens line) type.rescuers)
      (emergencyLines file) types ↔
      ∀ line ∈ emergencyLines file, NoPaddedRepeat (requestTokens line) := by
  have hlines := parseEmergencies_lines h
  clear h
  generalize emergencyLines file = lines at hlines ⊢
  induction hlines with
  | nil => simp
  | cons hof _ ih =>
      rw [List.forall₂_cons, requestsWithinMeans_iff hof.requests, List.forall_mem_cons]
      exact and_congr_right fun _ => ih

/-- Two rescuer types with a single unit each. -/
def unitA : RescuerType := ⟨['A'], 1, 20, 0, 0, [0]⟩

def unitB : RescuerType := ⟨['B'], 1, 20, 0, 0, [1]⟩

/-- The repeated name has no blanks behind it, and the second request is ignored. -/
theorem parseEmergencies_withinMeans_repeat :
    List.Forall₂ (fun line (type : EmergencyType) =>
        RequestsWithinMeans [unitA, unitB] (requestTokens line) type.rescuers)
      (emergencyLines "[Fire] [0] A :1,5;B:1,7;A:1,9;\n".toList)
      [⟨0, "Fire".toList, [⟨unitA, 1, 5⟩, ⟨unitB, 1, 7⟩]⟩] := by
  have hparse : parseEmergencies "[Fire] [0] A :1,5;B:1,7;A:1,9;\n".toList [unitA, unitB]
      defaultPriorityLookupTable =
      some [⟨0, "Fire".toList, [⟨unitA, 1, 5⟩, ⟨unitB, 1, 7⟩]⟩] := by
    decide +kernel
  exact (parseEmergencies_withinMeans_iff hparse).mpr (by decide +kernel)

/-- With a blank behind the repeated name both requests are kept: the emergency needs two
units of a type that has one. -/
theorem padded_repeat_kept :
    ∃ type, parseEmergencies "[Fire] [0] A:1,5;A :1,9;\n".toList [unitA, unitB]
        defaultPriorityLookupTable = some [type] ∧
      ¬(type.rescuers.map (·.type.rescuerTypeName)).Nodup ∧
      ∃ rescuer ∈ [unitA, unitB], rescuer.amount < unitsNeeded rescuer type.rescuers := by
  refine ⟨⟨0, "Fire".toList, [⟨unitA, 1, 5⟩, ⟨unitA, 1, 9⟩]⟩, ?_⟩
  decide +kernel

end EmergencyDispatch
